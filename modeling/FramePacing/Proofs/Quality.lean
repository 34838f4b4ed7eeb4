import FramePacing.Quality
import FramePacing.Proofs.Word

/-!
# Quality reports in exact arithmetic

No report and no acknowledgement ever faults, and both come down to formulas over the integers:
`QualityMessage.rate` is the proportion that is asked for and `Proportion.delay` the delay that an
acknowledged proportion leads to.
-/

namespace FramePacing

/-! ### Acknowledgements -/

namespace Proportion

/-- The delay for an acknowledged proportion. -/
def delay (p : Proportion) : Ticks :=
  Word.saturate (if 1000 ≤ p.val then 0 else max 0 (388880000 / (p.val + 167) - 330000))

theorem range (p : Proportion) : 0 ≤ p.val ∧ p.val ≤ 65535 := ⟨p.lo_le, p.le_hi⟩

/-- The curve is highest at proportion zero, at just under 200 ms. -/
theorem curve_mem {p : Int} (h : 0 ≤ p) : 0 ≤ 388880000 / (p + 167) ∧ 388880000 / (p + 167) ≤ 2328622 := by
  refine ⟨Int.ediv_nonneg (by decide) (by omega), ?_⟩
  have h1 : 388880000 / (p + 167) < 2328623 := Int.ediv_lt_of_lt_mul (by omega) (by omega)
  omega

theorem val_delay (p : Proportion) :
    p.delay.val = if 1000 ≤ p.val then 0 else max 0 (388880000 / (p.val + 167) - 330000) := by
  have h := curve_mem (range p).1
  rw [delay, Word.val_saturate_signed64]
  split <;> omega

theorem throttle_eq_delay (p : Proportion) : p.throttle = .ok p.delay := by
  have hp := range p
  have hc := curve_mem hp.1
  have h167 : (167 : Signed64).val = 167 := rfl
  have hcurve : (388880000 : Signed64).val = 388880000 := rfl
  have hoffset : (330000 : Signed64).val = 330000 := rfl
  have hnormal : (normal ≤ p) ↔ 1000 ≤ p.val := Iff.rfl
  unfold throttle
  by_cases h : 1000 ≤ p.val
  · rw [if_pos (hnormal.2 h), delay, if_pos h]; rfl
  · have hs : (Word.saturate (p.val + 167) : Signed64).val = p.val + 167 := by
      rw [Word.val_saturate_signed64]; omega
    have hadd : Word.add (p.widen : Signed64) 167 = .ok (Word.saturate (p.val + 167)) := by
      rw [Word.add_eq_ok_iff, hs, Word.val_widen, h167]
    have hq : (Word.quot (388880000 : Signed64) (p.val + 167).toNat).val = 388880000 / (p.val + 167) := by
      rw [Word.val_quot, hcurve, Int.toNat_of_nonneg (by omega), Int.tdiv_eq_ediv_of_nonneg (by decide)]
    have hdiv : Word.div (388880000 : Signed64) (Word.saturate (p.val + 167)) =
        .ok (Word.quot 388880000 (p.val + 167).toNat) := by
      rw [Word.div_eq_quot (by omega), hs]
    have hsub : (Word.quot (388880000 : Signed64) (p.val + 167).toNat).sub 330000 =
        .ok (Word.saturate (388880000 / (p.val + 167) - 330000)) := by
      rw [Word.sub_eq_ok_iff, hq, hoffset, Word.val_saturate_signed64]; omega
    rw [if_neg (fun hn => h (hnormal.1 hn)), hadd, Fault.ok_bind, hdiv, Fault.ok_bind, hsub, Fault.ok_bind]
    refine congrArg Except.ok (Word.ext ?_)
    rw [Word.val_max, val_delay, if_neg h, Word.val_saturate_signed64, Word.val_zero]
    omega

theorem delay_mem (p : Proportion) : 0 ≤ p.delay.val ∧ p.delay.val ≤ 2000000 := by
  have h := curve_mem (range p).1
  rw [val_delay]
  split <;> omega

end Proportion

/-! ### Reports -/

namespace QualityMessage

/-- The proportion to ask for while playback is well ahead: the rate at which waiting would shrink to the
margin, and never more than twice the nominal rate. -/
def aheadRate (frameAvg waitAvg : Int) : Int :=
  if frameAvg ≤ waitAvg then 2000 else min 2000 (1000 * frameAvg / (frameAvg + 20000 - waitAvg))

def rate (late frameAvg waitAvg : Int) : Int :=
  if frameAvg < 0 then 1000
  else if 0 < late then max 500 (1000 - late.tdiv 10000)
  else if 20000 < waitAvg ∧ late < -20000 then aheadRate frameAvg waitAvg
  else 1000

theorem aheadRate_mem (frameAvg : Int) {waitAvg : Int} (hw : 20000 < waitAvg) :
    1000 ≤ aheadRate frameAvg waitAvg ∧ aheadRate frameAvg waitAvg ≤ 2000 := by
  unfold aheadRate
  split
  · omega
  · have h : 1000 ≤ 1000 * frameAvg / (frameAvg + 20000 - waitAvg) := by
      rw [Int.le_ediv_iff_mul_le (by omega)]; omega
    omega

/-- No proportion outside half the nominal rate and twice the nominal rate is asked for. -/
theorem rate_mem (late frameAvg waitAvg : Int) :
    500 ≤ rate late frameAvg waitAvg ∧ rate late frameAvg waitAvg ≤ 2000 := by
  unfold rate
  split
  · omega
  · split
    · have h : 0 ≤ late.tdiv 10000 := (Word.tdiv_between_of_nonneg 10000 (by omega)).1
      omega
    · split
      · next hw =>
        have h := aheadRate_mem frameAvg hw.1
        omega
      · omega

/-- A quotient that does not fit counts as more than the cap. -/
theorem elim_ofInt? {x : Int} (h : 0 ≤ x) :
    ((Word.ofInt? x : Option Signed64).elim (Proportion.fastest.widen) (min · Proportion.fastest.widen)) =
      Word.saturate (min 2000 x) := by
  have hfastest : (Proportion.fastest.widen : Signed64).val = 2000 := rfl
  apply Word.ext
  rw [Word.val_saturate_signed64]
  cases hx : (Word.ofInt? x : Option Signed64) with
  | none =>
    have h1 : ¬ x ≤ 9223372036854775807 := by
      intro hle
      have h2 : (Word.ofInt? x : Option Signed64) = some (Word.saturate x) := by
        rw [Word.ofInt?_eq_some_iff, Word.val_saturate_signed64]; omega
      rw [hx] at h2
      cases h2
    rw [Option.elim_none, hfastest]
    omega
  | some a =>
    rw [Word.ofInt?_eq_some_iff] at hx
    rw [Option.elim_some, Word.val_min, hfastest, hx]
    have h1 := Word.signed64_range a
    omega

theorem speedUp_eq {frameAvg waitAvg : Ticks} (hw : 20000 < waitAvg.val) :
    speedUp frameAvg waitAvg = .ok (Word.saturate (aheadRate frameAvg.val waitAvg.val)) := by
  have h1 := Word.signed64_range frameAvg
  have h2 := Word.signed64_range waitAvg
  have hmargin : (aheadMargin.widen : Signed128).val = 20000 := rfl
  have hthousand : (1000 : Signed128).val = 1000 := rfl
  unfold speedUp aheadRate
  simp only [Word.le_iff]
  by_cases h : frameAvg.val ≤ waitAvg.val
  · rw [if_pos h, if_pos h]; rfl
  · -- everything fits 128 bits, and the divisor is positive
    have hreach : (Word.saturate (frameAvg.val + 20000) : Signed128).val = frameAvg.val + 20000 := by
      rw [Word.val_saturate_signed128]; omega
    have hadd : Word.add (frameAvg.widen : Signed128) aheadMargin.widen =
        .ok (Word.saturate (frameAvg.val + 20000)) := by
      rw [Word.add_eq_ok_iff, hreach, Word.val_widen, hmargin]
    have hinterval : (Word.saturate (frameAvg.val + 20000 - waitAvg.val) : Signed128).val =
        frameAvg.val + 20000 - waitAvg.val := by
      rw [Word.val_saturate_signed128]; omega
    have hsub : Word.sub (Word.saturate (frameAvg.val + 20000) : Signed128) waitAvg.widen =
        .ok (Word.saturate (frameAvg.val + 20000 - waitAvg.val)) := by
      rw [Word.sub_eq_ok_iff, hinterval, hreach, Word.val_widen]
    have hscaled : (Word.saturate (1000 * frameAvg.val) : Signed128).val = 1000 * frameAvg.val := by
      rw [Word.val_saturate_signed128]; omega
    have hmul : Word.mul (1000 : Signed128) frameAvg.widen = .ok (Word.saturate (1000 * frameAvg.val)) := by
      rw [Word.mul_eq_ok_iff, hscaled, hthousand, Word.val_widen]
    rw [if_neg h, if_neg h, hadd, Fault.ok_bind, hsub, Fault.ok_bind]
    rw [hinterval, Word.val_zero, if_neg (by omega), hmul, Fault.ok_bind,
      Word.div_eq_quot (by rw [hinterval]; omega), Fault.ok_bind, hinterval, Word.val_quot, hscaled,
      Int.toNat_of_nonneg (by omega), Int.tdiv_eq_ediv_of_nonneg (by omega)]
    exact congrArg Except.ok (elim_ofInt? (Int.ediv_nonneg (by omega) (by omega)))

theorem pace_eq (late frameAvg waitAvg : Ticks) :
    pace late frameAvg waitAvg = .ok (Word.saturate (rate late.val frameAvg.val waitAvg.val)) := by
  have hl := Word.signed64_range late
  have hmargin : aheadMargin.val = 20000 := rfl
  have hneg : aheadMargin.satNeg.val = -20000 := rfl
  have hnormal : (Proportion.normal.widen : Signed64).val = 1000 := rfl
  have hslowest : (Proportion.slowest.widen : Signed64).val = 500 := rfl
  have hms : (Ticks.toMillis late).val = late.val.tdiv 10000 := rfl
  unfold pace rate
  simp only [Word.lt_iff, Word.val_zero, hmargin, hneg]
  by_cases hf : frameAvg.val < 0
  · rw [if_pos hf, if_pos hf]; rfl
  rw [if_neg hf, if_neg hf]
  by_cases h0 : 0 < late.val
  · have h : 0 ≤ late.val.tdiv 10000 ∧ late.val.tdiv 10000 ≤ late.val :=
      Word.tdiv_between_of_nonneg 10000 (by omega)
    have hsub : Word.sub (Proportion.normal.widen : Signed64) (Ticks.toMillis late) =
        .ok (Word.saturate (1000 - late.val.tdiv 10000)) := by
      rw [Word.sub_eq_ok_iff, hnormal, hms, Word.val_saturate_signed64]; omega
    rw [if_pos h0, if_pos h0, hsub, Fault.ok_bind]
    refine congrArg Except.ok (Word.ext ?_)
    rw [Word.val_max, hslowest, Word.val_saturate_signed64, Word.val_saturate_signed64]
    omega
  rw [if_neg h0, if_neg h0]
  by_cases hw : 20000 < waitAvg.val ∧ late.val < -20000
  · rw [if_pos hw, if_pos hw, speedUp_eq hw.1]
  · rw [if_neg hw, if_neg hw]; rfl

/-- The report on a frame. -/
def assessed (late : Ticks) (timestamp : StreamTime) (frameAvg renderAvg waitAvg : Ticks) : QualityMessage where
  kind := classify frameAvg renderAvg
  proportion := Word.saturate (rate late.val frameAvg.val waitAvg.val)
  late := late.satAdd (renderAvg.quot 2)
  timestamp := timestamp

/-- A report is made of any figures whatsoever, and the clamp of its proportion never bites. -/
theorem assess_eq_assessed (late : Ticks) (timestamp : StreamTime) (frameAvg renderAvg waitAvg : Ticks) :
    assess late timestamp frameAvg renderAvg waitAvg =
      .ok (assessed late timestamp frameAvg renderAvg waitAvg) := by
  have hrate := rate_mem late.val frameAvg.val waitAvg.val
  have hval : (Word.saturate (rate late.val frameAvg.val waitAvg.val) : Signed64).val =
      rate late.val frameAvg.val waitAvg.val := by
    rw [Word.val_saturate_signed64]; omega
  have hslowest : (Proportion.slowest.widen : Signed64).val = 500 := rfl
  have hfastest : (Proportion.fastest.widen : Signed64).val = 2000 := rfl
  have hclamp : Word.clamp (Word.saturate (rate late.val frameAvg.val waitAvg.val) : Signed64)
      Proportion.slowest.widen Proportion.fastest.widen =
      .ok (Word.saturate (rate late.val frameAvg.val waitAvg.val)) := by
    rw [Word.clamp_eq_ok_iff, hval, hslowest, hfastest]; omega
  have hnarrow : (Word.ofInt? (rate late.val frameAvg.val waitAvg.val) : Option Proportion) =
      some (Word.saturate (rate late.val frameAvg.val waitAvg.val)) := by
    rw [Word.ofInt?_eq_some_iff]
    exact Word.val_saturate_of_mem (show (0 : Int) ≤ _ by omega) (show _ ≤ (65535 : Int) by omega)
  rw [assess, pace_eq, Fault.ok_bind, hclamp, Fault.ok_bind, hval, hnarrow]
  rfl

theorem val_proportion_assessed (late : Ticks) (timestamp : StreamTime) (frameAvg renderAvg waitAvg : Ticks) :
    (assessed late timestamp frameAvg renderAvg waitAvg).proportion.val =
      rate late.val frameAvg.val waitAvg.val := by
  have hrate := rate_mem late.val frameAvg.val waitAvg.val
  exact Word.val_saturate_of_mem (show (0 : Int) ≤ _ by omega) (show _ ≤ (65535 : Int) by omega)

end QualityMessage

/-! ### Replies -/

theorem Reply.isAccepted_iff {reply : Reply} : reply.isAccepted = true ↔ reply = .accepted := by
  cases reply <;> simp [Reply.isAccepted]

end FramePacing
