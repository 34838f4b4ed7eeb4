import FramePacing.Time

/-!
# Exponential averages

An average that moves toward each new value by a fixed share of the distance: with the period `p`,
`avg` becomes `(value + (p - 1) * avg) / p`. The product and the sum saturate and the quotient is
truncated toward zero.
-/

namespace FramePacing

/-- The rule by which a running average takes in a new value. -/
structure ExponentialAverage where
  period : Signed64
  one_le : 1 ≤ period.val
deriving DecidableEq

namespace ExponentialAverage

/-- The average with a given period, or with period one if that is too short. -/
def ofPeriod (period : Signed64) : ExponentialAverage where
  period := max 1 period
  one_le := by rw [Word.val_max]; exact Int.le_max_left ..

/-- The old average, weighted against one new value. -/
def weighted (e : ExponentialAverage) (avg : Ticks) : Except Fault Ticks := do
  let weight ← e.period.sub 1
  return avg.satMul weight

/-- Takes a value into the average. -/
def mix (e : ExponentialAverage) (avg value : Ticks) : Except Fault Ticks := do
  (value.satAdd (← e.weighted avg)).div e.period

/-- Lets the average fall toward zero, as a value of zero would. -/
def decay (e : ExponentialAverage) (avg : Ticks) : Except Fault Ticks := do
  (← e.weighted avg).div e.period

theorem weighted_eq (e : ExponentialAverage) (avg : Ticks) :
    e.weighted avg = .ok (Word.saturate (avg.val * (e.period.val - 1))) := by
  have hlo := e.one_le
  have hhi := e.period.le_hi
  have hone : (1 : Signed64).val = 1 := rfl
  have hzero := Width.signed64.lo_nonpos
  have hval : (Word.saturate (e.period.val - 1) : Signed64).val = e.period.val - 1 :=
    Word.val_saturate_of_mem (by omega) (by omega)
  have hsub : e.period.sub 1 = .ok (Word.saturate (e.period.val - 1)) := by
    rw [Word.sub_eq_ok_iff, hval, hone]
  simp only [weighted, hsub, bind, Except.bind, pure, Except.pure, Word.satMul, hval]

/-- Taking in a value never fails. -/
theorem mix_eq (e : ExponentialAverage) (avg value : Ticks) :
    e.mix avg value =
      .ok ((value.satAdd (Word.saturate (avg.val * (e.period.val - 1)))).quot e.period.val.toNat) := by
  simp only [mix, weighted_eq, bind, Except.bind]
  exact Word.div_eq_quot e.one_le

theorem decay_eq (e : ExponentialAverage) (avg : Ticks) :
    e.decay avg =
      .ok ((Word.saturate (avg.val * (e.period.val - 1)) : Ticks).quot e.period.val.toNat) := by
  simp only [decay, weighted_eq, bind, Except.bind]
  exact Word.div_eq_quot e.one_le

end ExponentialAverage

end FramePacing
