import FramePacing.Proofs.Statistics

/-!
# Figures within bounds

An offset counts for a second at most, on either side, and so does a frame time, on one side. Hence the bounds on what
the statistics report: no mean offset is beyond 1000 ms, no deviation of offsets beyond 1414 ms, and no deviation of
frame times beyond 707 ms. The moments keep to what this takes, `Moments.Limited` and `Moments.Rising`, however many
values there are: saturation brings the sums closer to zero, and the sum of squares with them. As long as nothing has
saturated, the deviation is the exact one and the guard in its formula is idle, `Moments.Deviates`.
-/

namespace FramePacing

namespace Moments

variable {m : Moments} {values : List Signed64} {x : Signed64}

/-- What values within 1000 make of the sums, saturated or not. -/
structure Limited (m : Moments) : Prop where
  count : 0 ≤ m.count.val
  sum : -1000 * m.count.val ≤ m.sum.val ∧ m.sum.val ≤ 1000 * m.count.val
  sumSquares : m.sumSquares.val ≤ 1000000 * m.count.val

/-- What values from 0 to 1000 make of the sums, saturated or not. -/
structure Rising (m : Moments) : Prop where
  sum : 0 ≤ m.sum.val
  sumSquares : m.sumSquares.val ≤ 1000 * m.sum.val

theorem Limited.push (h : m.Limited) (hx : -1000 ≤ x.val ∧ x.val ≤ 1000) : (m.push x).Limited := by
  obtain ⟨hcount, hsum, hsquares⟩ := h
  have hsq := sq_mem hx
  refine ⟨?_, ?_, ?_⟩
  · rw [push_count, Word.val_saturate_signed64]
    omega
  · have hrange := Word.signed64_range m.count
    rw [push_count, push_sum, Word.val_saturate_signed64, Word.val_saturate_signed64]
    omega
  · have hrange := Word.signed64_range m.count
    rw [push_count, push_sumSquares, val_satMul_self (by omega), Word.val_saturate_signed64, Word.val_saturate_signed64]
    omega

theorem limited_ofList (h : ∀ x ∈ values, -1000 ≤ x.val ∧ x.val ≤ 1000) : (ofList values).Limited :=
  List.foldlRecOn (motive := Limited) values push ⟨by decide, by decide, by decide⟩ fun _ hm x hx => hm.push (h x hx)

theorem Rising.push (h : m.Rising) (hx : 0 ≤ x.val ∧ x.val ≤ 1000) : (m.push x).Rising := by
  obtain ⟨hsum, hsquares⟩ := h
  have hsq : 0 ≤ x.val * x.val ∧ x.val * x.val ≤ 1000 * x.val :=
    ⟨mul_self_nonneg _, Int.mul_le_mul_of_nonneg_right hx.2 hx.1⟩
  refine ⟨?_, ?_⟩
  · rw [push_sum, Word.val_saturate_signed64]
    omega
  · rw [push_sum, push_sumSquares, val_satMul_self (by omega), Word.val_saturate_signed64, Word.val_saturate_signed64]
    omega

theorem rising_ofList (h : ∀ x ∈ values, 0 ≤ x.val ∧ x.val ≤ 1000) : (ofList values).Rising :=
  List.foldlRecOn (motive := Rising) values push ⟨by decide, by decide⟩ fun _ hm x hx => hm.push (h x hx)

/-! ### Means and deviations -/

theorem Limited.mean (h : m.Limited) : ∃ a, m.mean = .ok a ∧ -1000 ≤ a.val ∧ a.val ≤ 1000 := by
  refine ⟨_, mean_eq h.count, ?_⟩
  have hmem : -1000 ≤ m.sum.val.tdiv m.count.val ∧ m.sum.val.tdiv m.count.val ≤ 1000 := by
    rcases Int.lt_or_eq_of_le h.count with hpos | h0
    · exact Word.tdiv_between hpos h.sum.1 h.sum.2
    · rw [← h0, Int.tdiv_zero]
      decide
  rwa [Word.val_saturate_of_mem (show (-2147483648 : Int) ≤ _ by omega) (show _ ≤ (2147483647 : Int) by omega)]

/-- Squares of at most `b` around the mean keep the deviation below the root of twice as much. -/
theorem deviation_le {b : Int} {k : Nat} (hb : 0 ≤ b) (hk : 2 * b < (k + 1) * (k + 1)) (hfit : k ≤ 2147483647)
    (h : m.numerator ≤ b * (m.count.val * m.count.val)) : ∃ d, m.deviation = .ok d ∧ 0 ≤ d.val ∧ d.val ≤ k := by
  refine ⟨_, m.deviation_eq, ?_⟩
  by_cases h2 : m.count.val < 2
  · rw [if_pos h2, Word.val_zero]
    omega
  · have hroot := floorSqrt_variance_le hb hk (Int.not_lt.1 h2) h
    rw [if_neg h2, Word.val_saturate_of_mem (show (-2147483648 : Int) ≤ _ by omega)
      (show _ ≤ (2147483647 : Int) by omega)]
    omega

theorem Limited.deviation (h : m.Limited) : ∃ d, m.deviation = .ok d ∧ 0 ≤ d.val ∧ d.val ≤ 1414 :=
  deviation_le (by decide) (by decide) (by decide) (numerator_le (by decide) h.count h.sumSquares)

/-- Values from 0 to 1000 deviate half as much as values within 1000. -/
theorem Rising.numerator_le (h : m.Rising) (hcount : 0 ≤ m.count.val) :
    m.numerator ≤ 250000 * (m.count.val * m.count.val) := by
  have hle := Int.mul_le_mul_of_nonneg_left h.sumSquares hcount
  have hnn : 0 ≤ 250000 * (m.count.val * m.count.val) := Int.mul_nonneg (by decide) (Int.mul_nonneg hcount hcount)
  refine max_le ?_ hnn
  -- the product of a sum and what is left of the greatest sum is greatest halfway
  nlinarith only [hle, sq_nonneg (m.sum.val - 500 * m.count.val)]

theorem Rising.deviation (h : m.Rising) (hcount : 0 ≤ m.count.val) :
    ∃ d, m.deviation = .ok d ∧ 0 ≤ d.val ∧ d.val ≤ 707 :=
  deviation_le (by decide) (by decide) (by decide) (h.numerator_le hcount)

/-- The deviation of the values is worked out exactly: no sum has saturated, the numerator of the variance is not
negative on its own, and the deviation is the floor of the square root of the variance. -/
structure Deviates (m : Moments) (values : List Signed64) (deviation : Signed32) : Prop where
  exact : m.Exact values
  numerator_nonneg : 0 ≤ m.count.val * m.sumSquares.val - m.sum.val * m.sum.val
  deviation : deviation.val = ⌊√(sampleVariance values)⌋

theorem Moderate.deviates {d : Signed32} (h : Moderate values) (hd : (ofList values).deviation = .ok d) :
    (ofList values).Deviates values d := by
  have hexact := exact_ofList h
  obtain ⟨d', hd', hval⟩ := hexact.deviation h
  obtain rfl : d = d' := Except.ok.inj (hd.symm.trans hd')
  refine ⟨hexact, ?_, hval⟩
  have hle := total_mul_total_le values
  rw [hexact.count, hexact.sum, hexact.sumSquares]
  omega

end Moments

/-! ## Runs of recordings -/

namespace Statistics

/-- Something to record. -/
inductive Call where
  | arrive (now : StreamTime)
  | draw (time : StreamTime) (offset frameTime : Ticks)
  | drop

/-- Records one thing. -/
def step (s : Statistics) : Call → Except Fault Statistics
  | .arrive now => s.recordArrival now
  | .draw time offset frameTime => s.recordDraw time offset frameTime
  | .drop => .ok s.recordDrop

/-- Records one thing after the other. -/
def run (s : Statistics) (calls : List Call) : Except Fault Statistics := calls.foldlM step s

end Statistics

namespace History

/-- A history after one more call. -/
def tell (h : History) : Statistics.Call → History
  | .arrive now => h.arrive now
  | .draw time offset frameTime => h.add (.after frameTime time offset)
  | .drop => h.drop

/-- What some calls amount to. -/
def ofCalls (calls : List Statistics.Call) : History := calls.foldl tell empty

/-- A call tells of one arrival or one frame at most. -/
theorem length_ofCalls_le (calls : List Statistics.Call) :
    (ofCalls calls).arrivals.length ≤ calls.length ∧ (ofCalls calls).shown.length ≤ calls.length := by
  induction calls using List.reverseRecOn with
  | nil => exact ⟨Nat.le_refl 0, Nat.le_refl 0⟩
  | append_singleton calls call ih =>
    rw [ofCalls, List.foldl_append, List.length_append, List.length_singleton]
    change ((ofCalls calls).tell call).arrivals.length ≤ _ ∧ ((ofCalls calls).tell call).shown.length ≤ _
    cases call <;> simp only [tell, arrive, add, drop, List.length_append, List.length_singleton] <;> omega

end History

namespace Statistics

variable {s s' : Statistics} {h : History} {call : Call} {calls : List Call}

theorem Holds.step (hs : s.Holds h) (hr : s.step call = .ok s') : s'.Holds (h.tell call) := by
  cases call with
  | arrive now => exact hs.recordArrival hr
  | draw time offset frameTime => exact hs.recordDraw hr
  | drop =>
    cases hr
    exact hs.recordDrop

theorem Holds.step_ok (hs : s.Holds h)
    (hl : (h.tell call).arrivals.length < 2 ^ 64 ∧ (h.tell call).shown.length < 2 ^ 64) :
    ∃ s', s.step call = .ok s' := by
  cases call with
  | arrive now =>
    have hlt := hl.1
    rw [History.tell, History.arrive, List.length_append, List.length_singleton] at hlt
    exact hs.recordArrival_ok now hlt
  | draw time offset frameTime =>
    have hlt := hl.2
    rw [History.tell, History.add, List.length_append, List.length_singleton] at hlt
    exact hs.recordDraw_ok time offset frameTime hlt
  | drop => exact ⟨_, rfl⟩

/-- Fewer than 2⁶⁴ things can be recorded, and the statistics hold them. -/
theorem run_ok (hl : calls.length < 2 ^ 64) : ∃ s, empty.run calls = .ok s ∧ s.Holds (.ofCalls calls) := by
  have hbefore : ∀ before, before <+: calls →
      (History.ofCalls before).arrivals.length < 2 ^ 64 ∧ (History.ofCalls before).shown.length < 2 ^ 64 := by
    intro before hb
    have hle := hb.length_le
    have hlength := History.length_ofCalls_le before
    omega
  obtain ⟨s, hrun⟩ : ∃ s, empty.run calls = .ok s :=
    Fault.foldlM_ok (P := fun h (s : Statistics) => s.Holds h)
      (Q := fun h : History => h.arrivals.length < 2 ^ 64 ∧ h.shown.length < 2 ^ 64) Holds.step Holds.step_ok
      holds_empty hbefore
  exact ⟨s, hrun, Fault.foldlM_kept (P := fun h (s : Statistics) => s.Holds h) Holds.step holds_empty hrun⟩

end Statistics

/-! ## Bounds -/

/-- The summary of offsets within a second is within a second, with the mean and the last one between the extremes. -/
structure OffsetSummary.Confined (o : OffsetSummary) : Prop where
  average : -10000000 ≤ o.min.val ∧ o.min ≤ o.average ∧ o.average ≤ o.max ∧ o.max.val ≤ 10000000
  last : o.min ≤ o.last ∧ o.last ≤ o.max

theorem OffsetSummary.Sums.confined {o : OffsetSummary} {offsets : List Ticks} (h : o.Sums offsets)
    (hmem : ∀ x ∈ offsets, -10000000 ≤ x.val ∧ x.val ≤ 10000000) : o.Confined := by
  have hlast := List.mem_of_getLast? h.last
  have hbetween := Word.tdiv_total_mem (List.ne_nil_of_mem hlast) fun x hx => ⟨h.min.2 x hx, h.max.2 x hx⟩
  rw [← h.average] at hbetween
  exact ⟨⟨(hmem _ h.min.1).1, hbetween.1, hbetween.2, (hmem _ h.max.1).2⟩, h.min.2 _ hlast, h.max.2 _ hlast⟩

/-- The figures are within their bounds. -/
structure StatisticsSummary.Bounded (f : StatisticsSummary) : Prop where
  meanOffsetMs : -1000 ≤ f.meanOffsetMs.val ∧ f.meanOffsetMs.val ≤ 1000
  offsetDeviationMs : 0 ≤ f.offsetDeviationMs.val ∧ f.offsetDeviationMs.val ≤ 1414
  jitterMs : 0 ≤ f.jitterMs.val ∧ f.jitterMs.val ≤ 707
  recentOffset : 0 < f.framesDrawn.val → ∃ o, f.recentOffset? = some o ∧ o.Confined

namespace Statistics

variable {s : Statistics} {h : History}

theorem Holds.recentOffset_confined (hs : s.Holds h) (hdrawn : 0 < s.draws.drawn.val) :
    ∃ o, s.recentOffset? = some o ∧ o.Confined := by
  obtain ⟨hnone, hsums⟩ := hs.recentOffset?
  have hne : s.recentOffset? ≠ none := by
    intro h0
    rw [hs.drawn, hnone.1 h0] at hdrawn
    exact absurd hdrawn (by decide)
  obtain ⟨o, ho⟩ := Option.ne_none_iff_exists'.1 hne
  exact ⟨o, ho, (hsums o ho).confined fun _ hx => History.confined_mem hx⟩

/-- The figures of any history are within bounds, and the deviations are those of the moments. -/
theorem Holds.bounded (hs : s.Holds h) :
    ∃ f, s.summary = .ok f ∧ f.Bounded ∧ (Moments.ofList h.offsets).deviation = .ok f.offsetDeviationMs ∧
      (Moments.ofList h.frameTimes).deviation = .ok f.jitterMs := by
  have hoffsets : (Moments.ofList h.offsets).Limited := Moments.limited_ofList fun _ hx => History.offsets_mem hx
  have hframeTimes : (Moments.ofList h.frameTimes).Rising := Moments.rising_ofList fun _ hx => History.frameTimes_mem hx
  obtain ⟨mean, hmean, hmeanv⟩ := hoffsets.mean
  obtain ⟨deviation, hdeviation, hdeviationv⟩ := hoffsets.deviation
  obtain ⟨jitter, hjitter, hjitterv⟩ := hframeTimes.deviation (Moments.count_ofList_nonneg _)
  refine ⟨_, by
    unfold Statistics.summary
    rw [Draws.rate, hs.draws.rate, Arrivals.rate, hs.arrivals.rate, hs.offsets, hs.frameTimes, hmean, hdeviation,
      hjitter]
    rfl, ⟨hmeanv, hdeviationv, hjitterv, hs.recentOffset_confined⟩, hdeviation, hjitter⟩

/-- **Deviations**: whatever is recorded, the figures are within their bounds, also after the moments have saturated.
While fewer than 9 · 10¹² values were taken in, the deviations are exact. -/
theorem deviations_of_run {calls : List Call} (hl : calls.length < 2 ^ 64) :
    ∃ s f, empty.run calls = .ok s ∧ s.summary = .ok f ∧ f.Bounded ∧
      ((History.ofCalls calls).offsets.length < 9000000000000 →
        s.offsets.Deviates (History.ofCalls calls).offsets f.offsetDeviationMs) ∧
      ((History.ofCalls calls).frameTimes.length < 9000000000000 →
        s.frameTimes.Deviates (History.ofCalls calls).frameTimes f.jitterMs) := by
  obtain ⟨s, hrun, hs⟩ := run_ok hl
  obtain ⟨f, hsummary, hbounded, hdeviation, hjitter⟩ := hs.bounded
  refine ⟨s, f, hrun, hsummary, hbounded, fun hlength => ?_, fun hlength => ?_⟩
  · have hmoderate : Moments.Moderate (History.ofCalls calls).offsets :=
      ⟨fun _ hx => History.offsets_mem hx, hlength⟩
    rw [hs.offsets]
    exact hmoderate.deviates hdeviation
  · have hmoderate : Moments.Moderate (History.ofCalls calls).frameTimes :=
      ⟨fun _ hx => by have := History.frameTimes_mem hx; omega, hlength⟩
    rw [hs.frameTimes]
    exact hmoderate.deviates hjitter

/-- Offsets at both ends of the range, which count for a second on either side, and frame times on both sides of the
limit. The jitter is the greatest there can be. -/
theorem deviations_of_run_extremes :
    let calls : List Call := [.draw (.ofMillis 0) .greatest .least, .arrive (.ofMillis 1),
      .draw (.ofMillis 40) .greatest .greatest, .drop, .draw (.ofMillis 80) .least 0,
      .draw (.ofMillis 120) .greatest .least]
    calls.length < 2 ^ 64 ∧ (History.ofCalls calls).offsets = [1000, .saturate (-1000), 1000] ∧
      (History.ofCalls calls).frameTimes = [0, 1000] ∧
      ∃ s f, empty.run calls = .ok s ∧ s.summary = .ok f ∧ f.meanOffsetMs = 333 ∧ f.offsetDeviationMs = 1154 ∧
        f.jitterMs = 707 ∧ f.recentOffset? = some ⟨5000000, .saturate (-10000000), 10000000, 10000000⟩ ∧ f.Bounded ∧
        s.offsets.Deviates (History.ofCalls calls).offsets f.offsetDeviationMs ∧
        s.frameTimes.Deviates (History.ofCalls calls).frameTimes f.jitterMs := by
  intro calls
  have hl : calls.length < 2 ^ 64 := by decide
  have hoffsets : (History.ofCalls calls).offsets = [1000, .saturate (-1000), 1000] := by decide
  have hframeTimes : (History.ofCalls calls).frameTimes = [0, 1000] := by decide
  obtain ⟨s, f, hrun, hsummary, hbounded, hdeviation, hjitter⟩ := deviations_of_run hl
  obtain ⟨f', hf', hfigures⟩ : ∃ f, (empty.run calls >>= summary) = .ok f ∧ f.meanOffsetMs = 333 ∧
      f.offsetDeviationMs = 1154 ∧ f.jitterMs = 707 ∧
      f.recentOffset? = some ⟨5000000, .saturate (-10000000), 10000000, 10000000⟩ := Fault.exists_ok (by decide +kernel)
  rw [hrun, Fault.ok_bind, hsummary] at hf'
  cases hf'
  obtain ⟨hmean, hdeviationMs, hjitterMs, hrecent⟩ := hfigures
  refine ⟨hl, hoffsets, hframeTimes, s, f, hrun, hsummary, hmean, hdeviationMs, hjitterMs, hrecent, hbounded,
    hdeviation ?_, hjitter ?_⟩
  · rw [hoffsets]
    decide
  · rw [hframeTimes]
    decide

end Statistics

end FramePacing
