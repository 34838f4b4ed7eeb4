import FramePacing.Proofs.Recording.Framing

/-!
# The form in which records are written

Reading is more lenient than writing: a flag may be any byte, and a decision that does not wait may come with any time.
`Codec.Layout c n P` says that every value of `c` takes `n` bytes, read off the front, and which bytes come back: a
value that was read is written as the bytes it was read from just if these satisfy `P`. Words always come back, so it is
the flags and the decisions that count, and pairing and renaming pass on what they ask for. `Event.Canonical` says the
same of a whole record, by the places at which its flags and its decision stand.
-/

namespace FramePacing

namespace Codec

variable {α β : Type} {c : Codec α} {d : Codec β} {m n : Nat} {P Q : List UInt8 → Prop}

/-- Every value takes `n` bytes, and comes back as the bytes it was read from just if these satisfy `P`. -/
structure Layout (c : Codec α) (n : Nat) (P : List UInt8 → Prop) : Prop where
  framed : c.Framed n
  suffix : ∀ s, (c.read s).2 <:+ s
  normal : ∀ ⦃front a⦄, (∀ t, c.read (front ++ t) = (some a, t)) → (c.write a = front ↔ P front)

/-! ### Combinations -/

theorem Layout.congr (hc : c.Layout n P) (h : ∀ s, s.length = n → (P s ↔ Q s)) : c.Layout n Q where
  framed := hc.framed
  suffix := hc.suffix
  normal := by
    intro front a hread
    have hwhole := hread []
    rw [List.append_nil] at hwhole
    obtain ⟨front', hfront, hlength, -⟩ := hc.framed.front hwhole
    rw [List.append_nil] at hfront
    subst hfront
    rw [hc.normal hread, h front hlength]

theorem Layout.pair (hc : c.Layout m P) (hd : d.Layout n Q) :
    (c.pair d).Layout (m + n) fun s => P (s.take m) ∧ Q (s.drop m) where
  framed := hc.framed.pair hd.framed
  suffix := by
    intro s
    have hsuffix := hc.suffix s
    cases hread : c.read s with
    | mk a? rest =>
      rw [hread] at hsuffix
      cases a? with
      | none =>
        rw [read_pair_of_none hread]
        exact hsuffix
      | some a =>
        rw [read_pair_of_some hread]
        exact (hd.suffix rest).trans hsuffix
  normal := by
    intro bytes p hread
    have hwhole := hread []
    rw [List.append_nil] at hwhole
    obtain ⟨front, front', hbytes, hlength, -, hfront, hfront'⟩ := exists_of_read_pair hc.framed hd.framed hwhole
    rw [List.append_nil] at hbytes
    subst hbytes
    rw [List.take_left' hlength, List.drop_left' hlength, ← hc.normal hfront, ← hd.normal hfront']
    constructor
    · intro h
      exact List.append_inj h (by rw [hc.framed.length_write, hlength])
    · rintro ⟨h, h'⟩
      show c.write p.1 ++ d.write p.2 = front ++ front'
      rw [h, h']

/-- What is read in another form is read in its own form first, and it comes back if that does. -/
theorem Layout.refine (hc : c.Layout n P) {of : α → Option β} {form : β → α}
    (h : ∀ {front a b}, (∀ t, c.read (front ++ t) = (some a, t)) → of a = some b →
      (c.write (form b) = front ↔ Q front)) : (c.refine of form).Layout n Q where
  framed := hc.framed.refine of form
  suffix := hc.suffix
  normal := by
    intro front b hread
    have hwhole := hread []
    rw [List.append_nil] at hwhole
    obtain ⟨hvalue, hrest⟩ := Prod.mk.inj hwhole
    obtain ⟨a, ha, hof⟩ := Option.bind_eq_some_iff.1 hvalue
    obtain ⟨front', hfront, -, hread'⟩ := hc.framed.front (Prod.ext ha hrest)
    rw [List.append_nil] at hfront
    subst hfront
    exact h hread' hof

/-- Renaming back and forth changes nothing. -/
theorem Layout.map (hc : c.Layout n P) {of : α → β} {form : β → α} (h : ∀ a, form (of a) = a) :
    (c.map of form).Layout n P := by
  refine hc.refine ?_
  intro front a b hread hof
  cases hof
  rw [h, hc.normal hread]

/-! ### Words and flags -/

/-- The number that is read is the one that the bytes make. -/
theorem eq_of_read_number {k : Nat} (hk : k ≤ 8) {front : List UInt8} {a : Nat}
    (h : ∀ t, (number k).read (front ++ t) = (some a, t)) : front.length = k ∧ a = ofLittleEndian front := by
  have hwhole := h []
  rw [List.append_nil] at hwhole
  obtain ⟨front', hfront, hlength, -⟩ := (framed_number hk).front hwhole
  rw [List.append_nil] at hfront
  subst hfront
  have hread := h []
  rw [read_number_append hlength] at hread
  cases hread
  exact ⟨hlength, rfl⟩

theorem layout_number {k : Nat} (hk : k ≤ 8) : (number k).Layout k fun _ => True where
  framed := framed_number hk
  suffix := by
    intro s
    rcases Nat.lt_or_ge s.length k with hs | hs
    · exact ⟨[], congrArg Prod.snd (read_number_of_short hs)⟩
    · rw [← List.take_append_drop k s, read_number_append (List.length_take_of_le hs)]
      exact List.suffix_append ..
  normal := by
    intro front a hread
    obtain ⟨hlength, rfl⟩ := eq_of_read_number hk hread
    refine iff_of_true ?_ trivial
    rw [← hlength]
    exact littleEndian_ofLittleEndian front

theorem layout_word {w : Width} {k : Nat} (hk : k ≤ 8) : (word k : Codec (Word w)).Layout k fun _ => True := by
  refine (layout_number hk).refine ?_
  intro front x a hread hof
  obtain ⟨hlength, rfl⟩ := eq_of_read_number hk hread
  have hlt := ofLittleEndian_lt front
  rw [hlength] at hlt
  rw [Word.ofInt?_eq_some_iff] at hof
  -- two's complement: the value and the number differ by nothing or by all numbers of this size
  have hmod : a.val % byteCapacity k = ofLittleEndian front := by
    rw [hof]
    split
    · exact Int.emod_eq_of_lt (Int.natCast_nonneg _) (Int.ofNat_lt.2 hlt)
    · rw [Int.sub_emod_right]
      exact Int.emod_eq_of_lt (Int.natCast_nonneg _) (Int.ofNat_lt.2 hlt)
  rw [hmod, Int.toNat_natCast]
  exact (layout_number hk).normal hread

/-- A byte that is zero or one. -/
def FlagForm (s : List UInt8) : Prop := s = [0] ∨ s = [1]

theorem layout_flag : flag.Layout 1 FlagForm := by
  refine (layout_number (by decide)).refine ?_
  intro front x b hread hof
  obtain ⟨hlength, rfl⟩ := eq_of_read_number (by decide) hread
  obtain ⟨byte, rfl⟩ := List.length_eq_one_iff.1 hlength
  cases hof
  by_cases hzero : byte = 0
  · subst hzero
    exact iff_of_true rfl (.inl rfl)
  · -- every other byte is read as true, and that is written as one
    have htrue : decide (ofLittleEndian [byte] ≠ 0) = true := by
      rw [decide_eq_true_iff]
      intro h
      exact hzero (UInt8.toNat_inj.1 h)
    show (number 1).write (if decide (ofLittleEndian [byte] ≠ 0) then 1 else 0) = [byte] ↔ _
    rw [htrue]
    show [1] = [byte] ↔ _
    simp [FlagForm, hzero, eq_comm]

theorem layout_time : time.Layout 8 fun _ => True := (layout_word (by decide)).map fun _ => rfl

/-! ### Decisions -/

/-- A decision to wait, or one with the time zero. -/
def DecisionForm (s : List UInt8) : Prop := s.take 1 = [1] ∨ s.drop 1 = List.replicate 8 0

theorem layout_decision : decision.Layout 9 DecisionForm := by
  refine ((layout_number (by decide)).pair layout_time).refine ?_
  intro front p d hread hof
  have hwhole := hread []
  rw [List.append_nil] at hwhole
  obtain ⟨tag, payload, hfront, -, -, htag, ht⟩ :=
    exists_of_read_pair (framed_number (by decide)) framed_time hwhole
  rw [List.append_nil] at hfront
  subst hfront
  obtain ⟨x, t⟩ := p
  obtain ⟨hlength, rfl⟩ := eq_of_read_number (by decide) htag
  obtain ⟨byte, rfl⟩ := List.length_eq_one_iff.1 hlength
  obtain rfl : time.write t = payload := (layout_time.normal ht).2 trivial
  -- a time that does not matter is written as zero
  have hidle : ∀ tag : UInt8, tag ≠ 1 →
      (tag :: List.replicate 8 0 = tag :: time.write t ↔ DecisionForm (tag :: time.write t)) := by
    intro tag htag
    show _ ↔ [tag] = [1] ∨ time.write t = List.replicate 8 0
    simp [htag, eq_comm]
  have hbyte : UInt8.ofNat (ofLittleEndian [byte]) = byte := UInt8.ofNat_toNat
  show decision.write d = byte :: time.write t ↔ DecisionForm (byte :: time.write t)
  split at hof
  · next heq =>
    obtain ⟨htag, -⟩ := Prod.mk.inj heq
    rw [htag] at hbyte
    cases hof
    subst hbyte
    exact hidle 0 (by decide)
  · next heq =>
    obtain ⟨htag, rfl⟩ := Prod.mk.inj heq
    rw [htag] at hbyte
    cases hof
    subst hbyte
    exact iff_of_true rfl (.inl rfl)
  · next heq =>
    obtain ⟨htag, -⟩ := Prod.mk.inj heq
    rw [htag] at hbyte
    cases hof
    subst hbyte
    exact hidle 2 (by decide)
  · cases hof

/-! ### Records -/

theorem layout_count : count.Layout 8 fun _ => True := layout_word (by decide)

theorem layout_ticks : ticks.Layout 8 fun _ => True := layout_word (by decide)

theorem layout_qualityKind : qualityKind.Layout 1 FlagForm := layout_flag.map (by decide)

theorem layout_renderKind : renderKind.Layout 1 FlagForm := layout_flag.map (by decide)

theorem layout_decisionEvent : decisionEvent.Layout 85 fun s => DecisionForm (s.extract 32 41) := by
  have hlayout := layout_count.pair <| layout_time.pair <| layout_time.pair <| layout_time.pair <|
    layout_decision.pair <| layout_ticks.pair <| layout_ticks.pair <| layout_ticks.pair <| layout_ticks.pair <|
    layout_ticks.pair <| layout_word (w := .signed32) (k := 4) (by decide)
  refine Layout.congr (hlayout.map fun _ => rfl) ?_
  intro s hs
  simp [List.drop_drop]

theorem layout_qualityMessage : qualityMessage.Layout 19 fun s => FlagForm (s.take 1) := by
  have hlayout := layout_qualityKind.pair <| (layout_word (w := .unsigned16) (k := 2) (by decide)).pair <|
    layout_ticks.pair layout_time
  refine Layout.congr (hlayout.map fun _ => rfl) ?_
  intro s hs
  simp

theorem layout_qualityEvent :
    qualityEvent.Layout 28 fun s => FlagForm (s.extract 8 9) ∧ FlagForm (s.extract 27 28) := by
  refine Layout.congr ((layout_count.pair <| layout_qualityMessage.pair layout_flag).map fun _ => rfl) ?_
  intro s hs
  have hlast : (s.drop 27).take 1 = s.drop 27 := List.take_of_length_le (by simp [hs])
  simp [List.take_take, List.drop_drop, hlast]

theorem layout_renderEvent :
    renderEvent.Layout 34 fun s => FlagForm (s.extract 0 1) ∧ FlagForm (s.extract 17 18) := by
  have hlayout := layout_renderKind.pair <| layout_ticks.pair <| layout_ticks.pair <| layout_flag.pair <|
    layout_ticks.pair layout_ticks
  refine Layout.congr (hlayout.map fun _ => rfl) ?_
  intro s hs
  simp [List.drop_drop]

theorem layout_notifyEvent : notifyEvent.Layout 10 fun _ => True := by
  refine Layout.congr (((layout_word (by decide)).pair layout_ticks).map fun _ => rfl) ?_
  simp

theorem layout_resetEvent : resetEvent.Layout 8 fun _ => True := by
  refine Layout.congr (((layout_word (by decide)).pair (layout_word (by decide))).map fun _ => rfl) ?_
  simp

end Codec

namespace Event

open Codec

/-- The bytes of a record as they would be written: flags are zero or one, and only a decision to wait comes with a
time. The first byte is the tag. -/
def Canonical : List UInt8 → Prop
  | 1 :: s => DecisionForm (s.extract 32 41)
  | 2 :: s => FlagForm (s.extract 8 9) ∧ FlagForm (s.extract 27 28)
  | 3 :: s => FlagForm (s.extract 0 1) ∧ FlagForm (s.extract 17 18)
  | _ => True

/-- What an event is read from: its record, which reads the same whatever follows. -/
structure ReadFrom (e : Event) (record : List UInt8) : Prop where
  length : record.length = e.encode.length
  next : ∀ t, next (record ++ t) = (some e, t)
  canonical : e.encode = record ↔ Canonical record

/-- Behind its tag an event is read by the codec that the tag stands for. -/
theorem exists_readFrom_of_body {α : Type} {c : Codec α} {of : α → Event} {tag : UInt8} {n : Nat}
    {P : List UInt8 → Prop} {s rest : List UInt8} {e : Event} (hc : c.Layout n P)
    (hencode : ∀ a, (of a).encode = tag :: c.write a)
    (hbody : ∀ s, body tag s = Prod.map (Option.map of) id (c.read s))
    (hcanonical : ∀ front, Canonical (tag :: front) ↔ P front) (h : body tag s = (some e, rest)) :
    ∃ record, tag :: s = record ++ rest ∧ e.ReadFrom record := by
  rw [hbody] at h
  obtain ⟨hvalue, hrest⟩ := Prod.mk.inj h
  obtain ⟨a, ha, rfl⟩ := Option.map_eq_some_iff.1 hvalue
  obtain ⟨front, rfl, hlength, hfront⟩ := hc.framed.front (Prod.ext ha hrest)
  refine ⟨tag :: front, rfl, ?_, ?_, ?_⟩
  · rw [hencode, List.length_cons, List.length_cons, hc.framed.length_write, hlength]
  · intro t
    show body tag (front ++ t) = _
    rw [hbody, hfront]
    rfl
  · rw [hencode, List.cons_eq_cons, hc.normal hfront, hcanonical, eq_self_iff_true, true_and]

/-- An event that is found was read from a record at the front. -/
theorem exists_readFrom_of_next {s rest : List UInt8} {e : Event} (h : next s = (some e, rest)) :
    ∃ record, s = record ++ rest ∧ e.ReadFrom record := by
  cases s with
  | nil => cases h
  | cons tag s =>
    change body tag s = (some e, rest) at h
    have htag : tag = 1 ∨ tag = 2 ∨ tag = 3 ∨ tag = 4 ∨ tag = 5 := by
      unfold body at h
      split at h <;> simp_all
    rcases htag with rfl | rfl | rfl | rfl | rfl
    · exact exists_readFrom_of_body layout_decisionEvent (fun _ => rfl) (fun _ => rfl) (fun _ => Iff.rfl) h
    · exact exists_readFrom_of_body layout_qualityEvent (fun _ => rfl) (fun _ => rfl) (fun _ => Iff.rfl) h
    · exact exists_readFrom_of_body layout_renderEvent (fun _ => rfl) (fun _ => rfl) (fun _ => Iff.rfl) h
    · exact exists_readFrom_of_body layout_notifyEvent (fun _ => rfl) (fun _ => rfl) (fun _ => Iff.rfl) h
    · exact exists_readFrom_of_body layout_resetEvent (fun _ => rfl) (fun _ => rfl) (fun _ => Iff.rfl) h

/-- Reading takes bytes off the front, whether or not it finds an event. -/
theorem next_suffix (s : List UInt8) : (next s).2 <:+ s := by
  cases s with
  | nil => exact List.suffix_refl []
  | cons tag s =>
    have hbody : (body tag s).2 <:+ s := by
      unfold body
      split
      · exact layout_decisionEvent.suffix s
      · exact layout_qualityEvent.suffix s
      · exact layout_renderEvent.suffix s
      · exact layout_notifyEvent.suffix s
      · exact layout_resetEvent.suffix s
      · exact List.suffix_refl s
    exact hbody.trans (List.suffix_cons tag s)

end Event

end FramePacing
