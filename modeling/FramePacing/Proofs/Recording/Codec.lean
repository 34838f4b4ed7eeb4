import FramePacing.Recording.Basic

/-!
# Codecs read what they write

`Codec.Inverts c a` says that `c` reads `a` back from what it writes, whatever follows, and leaves just what
follows. Pairing and renaming keep this, so it is enough to know it of words: a word of `k` bytes reads
back if the width has no more words than there are numbers of `k` bytes.
-/

namespace FramePacing

namespace Codec

variable {α β : Type}

/-- The value reads back, and only its bytes are read. -/
def Inverts (c : Codec α) (a : α) : Prop := ∀ s, c.read (c.write a ++ s) = (some a, s)

/-! ### Combinations -/

theorem inverts_number {k n : Nat} (h : n < byteCapacity k) : (number k).Inverts n := by
  intro s
  have hsplit : splitBytes k (littleEndian k n ++ s) = some (littleEndian k n, s) :=
    splitBytes_eq_some_iff.2 ⟨rfl, length_littleEndian k n⟩
  unfold number
  dsimp only
  rw [hsplit]
  dsimp only
  rw [ofLittleEndian_littleEndian h]

theorem Inverts.pair {c : Codec α} {d : Codec β} {a : α} {b : β} (hc : c.Inverts a) (hd : d.Inverts b) :
    (c.pair d).Inverts (a, b) := by
  intro s
  unfold Codec.pair
  dsimp only
  rw [List.append_assoc, hc]
  dsimp only
  rw [hd]
  rfl

theorem Inverts.refine {c : Codec α} {of : α → Option β} {form : β → α} {b : β} (hc : c.Inverts (form b))
    (h : of (form b) = some b) : (c.refine of form).Inverts b := by
  intro s
  unfold Codec.refine
  dsimp only
  rw [hc, Option.bind_some, h]

theorem Inverts.map {c : Codec α} {of : α → β} {form : β → α} {b : β} (hc : c.Inverts (form b))
    (h : of (form b) = b) : (c.map of form).Inverts b :=
  hc.refine (congrArg some h)

/-! ### Words and flags -/

/-- Two's complement: words of no more than `k` bytes read back, negative ones included. -/
theorem inverts_word {w : Width} {k : Nat} (hw : w.hi < w.lo + byteCapacity k) (a : Word w) :
    (word k : Codec (Word w)).Inverts a := by
  have hlo := a.lo_le
  have hhi := a.le_hi
  have hlo0 := w.lo_nonpos
  have hhi0 := w.hi_nonneg
  have hcap : (0 : Int) < byteCapacity k := by omega
  have hmod0 := Int.emod_nonneg a.val (Int.ne_of_gt hcap)
  have hmod := Int.emod_lt_of_pos a.val hcap
  refine Inverts.refine (inverts_number (by omega)) (Word.ofInt?_eq_some_iff.2 ?_)
  rw [Int.toNat_of_nonneg hmod0]
  by_cases ha : 0 ≤ a.val
  · have e : a.val % byteCapacity k = a.val := Int.emod_eq_of_lt ha (by omega)
    rw [e, if_pos hhi]
  · have e : a.val % byteCapacity k = a.val + byteCapacity k := by
      rw [← Int.add_emod_right, Int.emod_eq_of_lt (by omega) (by omega)]
    rw [e, if_neg (by omega)]
    omega

theorem inverts_flag (b : Bool) : flag.Inverts b := by
  refine Inverts.map (inverts_number ?_) ?_
  · cases b <;> decide
  · cases b <;> rfl

/-! ### Fields -/

theorem inverts_count (a : Unsigned64) : count.Inverts a := inverts_word (by decide) a

theorem inverts_ticks (a : Ticks) : ticks.Inverts a := inverts_word (by decide) a

theorem inverts_proportion (a : Proportion) : (word 2 : Codec Proportion).Inverts a := inverts_word (by decide) a

theorem inverts_time (t : StreamTime) : time.Inverts t := (inverts_ticks t.ticks).map rfl

theorem inverts_decision (d : Decision) : decision.Inverts d := by
  cases d with
  | drawNow =>
    refine Inverts.refine ?_ rfl
    exact (inverts_number (by decide)).pair (inverts_time _)
  | drawAt time =>
    refine Inverts.refine ?_ rfl
    exact (inverts_number (by decide)).pair (inverts_time _)
  | drop =>
    refine Inverts.refine ?_ rfl
    exact (inverts_number (by decide)).pair (inverts_time _)

theorem inverts_qualityKind (k : QualityKind) : qualityKind.Inverts k :=
  (inverts_flag _).map (by cases k <;> rfl)

theorem inverts_renderKind (k : RenderKind) : renderKind.Inverts k :=
  (inverts_flag _).map (by cases k <;> rfl)

/-! ### Records -/

theorem inverts_qualityMessage (m : QualityMessage) : qualityMessage.Inverts m := by
  refine Inverts.map ?_ rfl
  exact (inverts_qualityKind _).pair <| (inverts_proportion _).pair <| (inverts_ticks _).pair (inverts_time _)

theorem inverts_decisionEvent (e : DecisionEvent) : decisionEvent.Inverts e := by
  refine Inverts.map ?_ rfl
  exact (inverts_count _).pair <| (inverts_time _).pair <| (inverts_time _).pair <| (inverts_time _).pair <|
    (inverts_decision _).pair <| (inverts_ticks _).pair <| (inverts_ticks _).pair <| (inverts_ticks _).pair <|
    (inverts_ticks _).pair <| (inverts_ticks _).pair (inverts_word (by decide) _)

theorem inverts_qualityEvent (e : QualityEvent) : qualityEvent.Inverts e := by
  refine Inverts.map ?_ rfl
  exact (inverts_count _).pair <| (inverts_qualityMessage _).pair (inverts_flag _)

theorem inverts_renderEvent (e : RenderEvent) : renderEvent.Inverts e := by
  refine Inverts.map ?_ rfl
  exact (inverts_renderKind _).pair <| (inverts_ticks _).pair <| (inverts_ticks _).pair <| (inverts_flag _).pair <|
    (inverts_ticks _).pair (inverts_ticks _)

theorem inverts_notifyEvent (e : NotifyEvent) : notifyEvent.Inverts e := by
  refine Inverts.map ?_ rfl
  exact (inverts_proportion _).pair (inverts_ticks _)

theorem inverts_resetEvent (e : ResetEvent) : resetEvent.Inverts e := by
  refine Inverts.map ?_ rfl
  exact (inverts_word (by decide) _).pair (inverts_word (by decide) _)

end Codec

end FramePacing
