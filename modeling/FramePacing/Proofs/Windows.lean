import FramePacing.Proofs.MovingAverage

/-!
# Windows over the values pushed last

Rings and moving averages are told the same two things: to take in a value, and to forget all of them. What a sequence
of such calls comes to is its history, `Window.history`, the values pushed since the last reset. However long that has
grown, a ring of `n` slots shows its end and nothing else, `Ring.window_of_run`, and so does a moving average, with the
exact sum of what it shows, `MovingAverage.exact_of_run`.
-/

namespace FramePacing

/-! ## Calls and their history -/

namespace Window

/-- A call on something that shows the values pushed last. -/
inductive Call (α : Type) where
  | push (a : α)
  | reset

variable {α : Type}

/-- A history after one more call. -/
def Call.onto (l : List α) : Call α → List α
  | push a => l ++ [a]
  | reset => []

/-- The values pushed since the last reset. -/
def history (calls : List (Call α)) : List α := calls.foldl Call.onto []

theorem history_concat (calls : List (Call α)) (call : Call α) :
    history (calls ++ [call]) = call.onto (history calls) := by
  rw [history, List.foldl_append]
  rfl

/-- There is always a reset before 64 bits are too few to count the values. -/
def Counted (calls : List (Call α)) : Prop := ∀ before, before <+: calls → (history before).length < 2 ^ 64

theorem length_history_le (calls : List (Call α)) : (history calls).length ≤ calls.length := by
  induction calls using List.reverseRecOn with
  | nil => exact Nat.le_refl 0
  | append_singleton calls call ih =>
    rw [history_concat, List.length_append, List.length_singleton]
    cases call with
    | push a =>
      rw [Call.onto, List.length_append, List.length_singleton]
      omega
    | reset => exact Nat.zero_le _

/-- Without any reset that takes as many calls. -/
theorem counted_of_length {calls : List (Call α)} (h : calls.length < 2 ^ 64) : Counted calls := by
  intro before hb
  have hhistory := length_history_le before
  have hle := hb.length_le
  omega

end Window

/-! ## Rings -/

namespace Ring

variable {α : Type} {n : Nat}

/-- The ring shows the end of the history `l`. -/
structure Shows (r : Ring α n) (l : List α) : Prop where
  count : r.count.val = l.length
  size : r.size = min l.length n
  toList : r.toList = l.rtake r.size
  newest : r.newest? = r.toList.getLast?
  oldest : r.oldest? = r.toList.head?

/-- What a ring of points in time shows of their pace: nothing until it holds two of them, and then the interval between
neighbours on average, and how often that goes into a second, in hundredths. -/
structure Paced (r : Ring StreamTime n) : Prop where
  unknown : r.averageInterval? = none ↔ r.size < 2
  interval : 2 ≤ r.size → ∃ newest oldest interval, r.newest? = some newest ∧ r.oldest? = some oldest ∧
    r.averageInterval? = some interval ∧
    interval.val = (max (-9223372036854775808) (min (newest.ticks.val - oldest.ticks.val) 9223372036854775807)).tdiv
      (r.size - 1 : Nat)
  rate : ∃ rate, r.rate = .ok rate ∧
    (rate.val = r.averageInterval?.elim 0 fun interval =>
      if 0 < interval.val then 1000000000 / interval.val else 0) ∧
    (0 < rate.val ↔ ∃ interval, r.averageInterval? = some interval ∧ 1 ≤ interval.val ∧ interval.val ≤ 1000000000)

section Views

variable {r : Ring α n} {l : List α}

theorem Holds.shows (h : r.Holds l) : r.Shows l where
  count := h.count
  size := h.size
  toList := by
    rw [h.toList, h.size, List.rtake, List.rtake]
    congr 1
    omega
  newest := by rw [h.newest?, h.toList, getLast?_rtake l (Nat.lt_of_lt_of_le Nat.two_pos r.two_le)]
  oldest := by rw [h.oldest?, h.toList]

theorem Holds.length_lt (h : r.Holds l) : l.length < 2 ^ 64 := by
  have hcount := h.count
  have hhi : r.count.val ≤ 18446744073709551615 := r.count.le_hi
  omega

end Views

section Times

variable {r : Ring StreamTime n} {l : List StreamTime}

/-- Two points and more lie an interval apart on average. -/
theorem Holds.exists_interval (h : r.Holds l) (h2 : 2 ≤ r.size) :
    ∃ newest oldest, r.newest? = some newest ∧ r.oldest? = some oldest ∧
      r.averageInterval? = some ((newest - oldest).quot (r.size - 1)) := by
  have hn : 0 < n := Nat.lt_of_lt_of_le Nat.two_pos r.two_le
  have hsize : (l.rtake n).length = r.size := by rw [← h.toList, length_toList]
  rw [h.newest?, h.oldest?, h.averageInterval?, ← getLast?_rtake l hn, if_neg (by omega)]
  cases hw : l.rtake n with
  | nil =>
    rw [hw, List.length_nil] at hsize
    omega
  | cons oldest w =>
    rw [hw] at hsize
    refine ⟨(oldest :: w).getLast (List.cons_ne_nil oldest w), oldest, List.getLast?_eq_some_getLast _, rfl, ?_⟩
    rw [meanInterval, hsize, List.getLastD_cons, List.headD_cons, ← List.getLast_eq_getLastD]

theorem Holds.rate_eq (h : r.Holds l) :
    ∃ rate, r.rate = .ok rate ∧
      rate.val = r.averageInterval?.elim 0 fun interval =>
        if 0 < interval.val then 1000000000 / interval.val else 0 := by
  refine ⟨_, h.rate, ?_⟩
  rw [val_hundredths, h.averageInterval?, hundredths]
  by_cases hl : (l.rtake n).length < 2
  · rw [if_pos hl, if_pos (Or.inl hl)]
    rfl
  · rw [if_neg hl, Option.elim_some]
    by_cases hi : 0 < (meanInterval (l.rtake n)).val
    · rw [if_pos hi, if_neg (by omega)]
    · rw [if_neg hi, if_pos (by omega)]

/-- An interval fits into a second at least once if it is no longer. -/
theorem billion_ediv_pos_iff {i : Int} (hi : 0 < i) : 0 < 1000000000 / i ↔ i ≤ 1000000000 := by
  have h := Int.le_ediv_iff_mul_le (a := 1) (b := 1000000000) hi
  omega

theorem Holds.paced (h : r.Holds l) : r.Paced where
  unknown := by
    have hsize : (l.rtake n).length = r.size := by rw [← h.toList, length_toList]
    rw [h.averageInterval?, hsize]
    split <;> simp_all
  interval := by
    intro h2
    obtain ⟨newest, oldest, hnewest, holdest, haverage⟩ := h.exists_interval h2
    refine ⟨newest, oldest, _, hnewest, holdest, haverage, ?_⟩
    rw [Word.val_quot, StreamTime.val_sub]
  rate := by
    obtain ⟨rate, hrate, hval⟩ := h.rate_eq
    refine ⟨rate, hrate, hval, ?_⟩
    rw [hval]
    cases r.averageInterval? with
    | none => simp
    | some interval =>
      have hpos := billion_ediv_pos_iff (i := interval.val)
      simp only [Option.elim_some, Option.some.injEq, exists_eq_left']
      split <;> omega

end Times

section Runs

variable [Inhabited α]

/-- Runs one call. -/
def step (r : Ring α n) : Window.Call α → Except Fault (Ring α n)
  | .push a => r.push a
  | .reset => .ok r.reset

/-- Runs calls one after the other. -/
def run (r : Ring α n) (calls : List (Window.Call α)) : Except Fault (Ring α n) := calls.foldlM step r

variable {r r' : Ring α n} {l : List α} {call : Window.Call α} {calls : List (Window.Call α)} {two_le : 2 ≤ n}

theorem Holds.step (h : r.Holds l) (hs : r.step call = .ok r') : r'.Holds (call.onto l) := by
  cases call with
  | push a => exact h.push a hs
  | reset =>
    cases hs
    exact holds_empty r.two_le

theorem Holds.step_ok (h : r.Holds l) (hl : (call.onto l).length < 2 ^ 64) : ∃ r', r.step call = .ok r' := by
  cases call with
  | push a =>
    rw [Window.Call.onto, List.length_append, List.length_singleton] at hl
    exact h.push_ok a hl
  | reset => exact ⟨_, rfl⟩

theorem holds_of_run (h : (empty two_le).run calls = .ok r) : r.Holds (Window.history calls) :=
  Fault.foldlM_kept (P := fun l r => r.Holds l) Holds.step (holds_empty two_le) h

/-- A run goes through exactly if its values can be counted. -/
theorem run_ok_iff (two_le : 2 ≤ n) : (∃ r, (empty two_le).run calls = .ok r) ↔ Window.Counted calls := by
  constructor
  · rintro ⟨r, h⟩ before ⟨after, rfl⟩
    rw [run, List.foldlM_append] at h
    obtain ⟨r₁, hbefore, -⟩ := Fault.bind_eq_ok.1 h
    exact (holds_of_run hbefore).length_lt
  · exact Fault.foldlM_ok (P := fun l (r : Ring α n) => r.Holds l) (Q := fun l => l.length < 2 ^ 64) Holds.step
      Holds.step_ok (holds_empty two_le)

/-- Behind a reset, a run goes on as one from a new ring. -/
theorem run_reset (h : (empty two_le).run calls = .ok r) (more : List (Window.Call α)) :
    (empty two_le).run (calls ++ .reset :: more) = (empty two_le).run more := by
  rw [run] at h ⊢
  rw [List.foldlM_append, h]
  rfl

/-- **Windows**: in a run whose values can be counted no call faults, and a ring shows the end of what was pushed since
the last reset. That is all there is to it: after a reset the ring is as good as new. A ring of points in time shows
the pace of those it holds. -/
theorem window_of_run {n : Nat} (two_le : 2 ≤ n) :
    (∀ {α : Type} [Inhabited α] (calls : List (Window.Call α)), Window.Counted calls →
      ∃ r, (empty two_le).run calls = .ok r ∧ r.Shows (Window.history calls) ∧ r.reset = empty two_le ∧
        ∀ more, (empty two_le).run (calls ++ .reset :: more) = (empty two_le).run more) ∧
    ∀ calls : List (Window.Call StreamTime), Window.Counted calls →
      ∃ r, (empty two_le).run calls = .ok r ∧ r.Paced := by
  constructor
  · intro α _ calls hc
    obtain ⟨r, hr⟩ := (run_ok_iff two_le).2 hc
    exact ⟨r, hr, (holds_of_run hr).shows, rfl, run_reset hr⟩
  · intro calls hc
    obtain ⟨r, hr⟩ := (run_ok_iff two_le).2 hc
    exact ⟨r, hr, (holds_of_run hr).paced⟩

/-- Five points in a ring for three, which has held another one before. -/
theorem window_of_run_wrapped :
    let calls : List (Window.Call StreamTime) := [.push (.ofMillis 900), .reset, .push (.ofMillis 0),
      .push (.ofMillis 100), .push (.ofMillis 200), .push (.ofMillis 210), .push (.ofMillis 230)]
    2 ≤ 3 ∧ Window.Counted calls ∧
      (∃ r, (empty (show 2 ≤ 3 by decide)).run calls = .ok r ∧
        r.Shows [.ofMillis 0, .ofMillis 100, .ofMillis 200, .ofMillis 210, .ofMillis 230] ∧
        r.reset = empty (by decide) ∧
        ∀ more, (empty (show 2 ≤ 3 by decide)).run (calls ++ .reset :: more) = (empty (by decide)).run more) ∧
      ∃ r, (empty (show 2 ≤ 3 by decide)).run calls = .ok r ∧ r.Paced :=
  have hc := Window.counted_of_length (by decide)
  ⟨by decide, hc, (window_of_run (by decide)).1 _ hc, (window_of_run (by decide)).2 _ hc⟩

end Runs

end Ring

/-! ## Moving averages -/

namespace MovingAverage

section Run

variable {α : Type} [Quantity α] {n : Nat}

/-- Runs one call. -/
def step (m : MovingAverage α n) : Window.Call α → Except Fault (MovingAverage α n)
  | .push a => m.push a
  | .reset => .ok m.reset

/-- Runs calls one after the other. -/
def run (m : MovingAverage α n) (calls : List (Window.Call α)) : Except Fault (MovingAverage α n) :=
  calls.foldlM step m

end Run

variable {w : Width} {n : Nat}

/-- The figures of a window that holds something: its least and its greatest value, and between them its mean,
truncated. -/
structure Summary (l : List (Word w)) (least greatest average : Word w) : Prop where
  isLeast : least ∈ l ∧ ∀ a ∈ l, least ≤ a
  isGreatest : greatest ∈ l ∧ ∀ a ∈ l, a ≤ greatest
  mean : average.val = (Word.total l).tdiv l.length
  between : least ≤ average ∧ average ≤ greatest

/-- The window shows the values `l`. -/
structure Shows (m : MovingAverage (Word w) n) (l : List (Word w)) : Prop where
  size : m.size = l.length
  toList : m.toList = l
  sum : m.sum.val = Word.total l
  last : m.last? = l.getLast?
  nothing : l = [] → m.min? = none ∧ m.max? = none ∧ m.average? = none
  figures : l ≠ [] → ∃ least greatest average, m.min? = some least ∧ m.max? = some greatest ∧
    m.average? = some average ∧ Summary l least greatest average

variable {m m' : MovingAverage (Word w) n} {l : List (Word w)} {call : Window.Call (Word w)}
  {calls : List (Window.Call (Word w))}

theorem rtake_eq_nil_iff (hn : 0 < n) : l.rtake n = [] ↔ l = [] := by
  rw [← List.length_eq_zero_iff, length_rtake, ← List.length_eq_zero_iff]
  omega

theorem Holds.figures (h : m.Holds l) (hn : (n : Int) ≤ w.hi) (hl : l.rtake n ≠ []) :
    ∃ least greatest average, m.min? = some least ∧ m.max? = some greatest ∧ m.average? = some average ∧
      Summary (l.rtake n) least greatest average := by
  obtain ⟨least, hmin, hleast⟩ := h.min? hl
  obtain ⟨greatest, hmax, hgreatest⟩ := h.max? hl
  have havg := h.average? hn
  rw [if_neg (mt (rtake_eq_nil_iff m.pos).2 hl)] at havg
  have hval : (m.sum.quot (l.rtake n).length).val = (Word.total (l.rtake n)).tdiv (l.rtake n).length := by
    rw [Word.val_quot, h.sum]
  have hbetween := Word.tdiv_total_mem hl fun a ha => ⟨hleast.2 a ha, hgreatest.2 a ha⟩
  rw [← hval] at hbetween
  exact ⟨least, greatest, _, hmin, hmax, havg, hleast, hgreatest, hval, hbetween⟩

theorem Holds.shows (h : m.Holds l) (hn : (n : Int) ≤ w.hi) : m.Shows (l.rtake n) where
  size := by rw [h.size, length_rtake]
  toList := h.toList
  sum := h.sum
  last := by rw [h.last, getLast?_rtake l m.pos]
  nothing := by
    intro hnil
    have htoList := h.toList
    rw [hnil] at htoList
    rw [MovingAverage.min?, MovingAverage.max?, htoList, h.average? hn, if_pos ((rtake_eq_nil_iff m.pos).1 hnil)]
    exact ⟨rfl, rfl, rfl⟩
  figures := h.figures hn

/-- A push faults exactly if a full window cannot give up its oldest value, or what stays cannot take the new one. -/
theorem Holds.push_error_iff (h : m.Holds l) (a : Word w) :
    (∃ f, m.push a = .error f) ↔
      (m.size = n ∧ ¬ w.Has (Word.total (l.rtake (n - 1)))) ∨ ¬ w.Has (Word.total (l.rtake (n - 1)) + a.val) := by
  have hiff := h.push_ok_iff a
  -- the sum of a window that is not full yet stays as it is
  have hroom : m.size ≠ n → w.Has (Word.total (l.rtake (n - 1))) := by
    intro hne
    rw [← h.sum_of_room hne]
    exact ⟨m.sum.lo_le, m.sum.le_hi⟩
  have herror : (∃ f, m.push a = .error f) ↔ ¬ ∃ m', m.push a = .ok m' := by
    cases m.push a <;> simp
  rw [herror, hiff]
  tauto

theorem Holds.step (h : m.Holds l) (hs : m.step call = .ok m') : m'.Holds (call.onto l) := by
  cases call with
  | push a => exact h.push a hs
  | reset =>
    cases hs
    exact holds_empty m.pos

theorem holds_of_run {pos : 0 < n} (h : (empty pos).run calls = .ok m) : m.Holds (Window.history calls) :=
  Fault.foldlM_kept (P := fun l m => m.Holds l) Holds.step (holds_empty pos) h

/-- **Moving averages**: as long as no push faults, a window shows exactly the last values pushed since the last reset,
and the next push faults only where it has to: the sum of the values that stay, which are all but the oldest of a full
window, does not fit, or does not fit with the new value. A window that is no longer than the greatest word, as one of
2³¹ - 1 values is for words of 32 bits and more, has its exact mean as well. -/
theorem exact_of_run (pos : 0 < n) (hn : (n : Int) ≤ w.hi) (h : (empty pos).run calls = .ok m) :
    m.Shows ((Window.history calls).rtake n) ∧
      ∀ a, (∃ f, m.push a = .error f) ↔
        (m.size = n ∧ ¬ w.Has (Word.total ((Window.history calls).rtake (n - 1)))) ∨
          ¬ w.Has (Word.total ((Window.history calls).rtake (n - 1)) + a.val) :=
  ⟨(holds_of_run h).shows hn, (holds_of_run h).push_error_iff⟩

/-- A window between both ends of the range, which cannot give up its oldest value. -/
theorem exact_of_run_ends :
    let calls : List (Window.Call Signed32) := [.push 1, .reset, .push .least, .push .greatest, .push 3]
    0 < 3 ∧ ((3 : Nat) : Int) ≤ Width.signed32.hi ∧
      ∃ m, (empty (show 0 < 3 by decide)).run calls = .ok m ∧ m.Shows [.least, .greatest, 3] ∧
        ∀ a, (∃ f, m.push a = .error f) ↔
          (m.size = 3 ∧ ¬ Width.signed32.Has (Word.total (w := .signed32) [.greatest, 3])) ∨
            ¬ Width.signed32.Has (Word.total (w := .signed32) [.greatest, 3] + a.val) := by
  intro calls
  obtain ⟨m, hm⟩ : ∃ m, (empty (show 0 < 3 by decide)).run calls = .ok m := ⟨_, rfl⟩
  exact ⟨by decide, by decide, m, hm, exact_of_run (by decide) (by decide) hm⟩

end MovingAverage

end FramePacing
