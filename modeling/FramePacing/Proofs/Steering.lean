import FramePacing.Proofs.Scheduler.Verdict

/-!
# Reports steer in the right direction

The rate that a report asks for is put together from four formulas, each with its own region of lateness and waiting.
At `1000`, the nominal rate, the regions meet: whoever is not late is never asked to slow down, and whoever is late
never to speed up. So the rate falls with the lateness, `QualityMessage.rate_anti_late`, and rises with the time that
frames wait, `QualityMessage.rate_mono_wait`, within the regions and across them. The delay that a rate leads to when
it is acknowledged falls with the rate, `Proportion.delay_anti`, so a later frame never leads to a shorter delay.
-/

namespace FramePacing

namespace Proportion

/-- A higher proportion never leads to a longer delay. -/
theorem delay_anti {p q : Proportion} (h : p ≤ q) : q.delay ≤ p.delay := by
  have hp := range p
  have hcurve : 388880000 / (q.val + 167) ≤ 388880000 / (p.val + 167) :=
    Word.ediv_anti (by decide) (by omega) (Int.add_le_add_right h 167)
  have hdelay := delay_mem p
  rw [Word.le_iff] at h ⊢
  rw [val_delay q]
  split
  · exact hdelay.1
  · rw [val_delay p, if_neg (by omega)]
    omega

end Proportion

namespace QualityMessage

variable {late late' frameAvg waitAvg waitAvg' : Int}

/-! ### The rate while playback is well ahead -/

/-- The longer frames wait, the more is asked for. -/
theorem aheadRate_mono (hw : 20000 < waitAvg) (h : waitAvg ≤ waitAvg') :
    aheadRate frameAvg waitAvg ≤ aheadRate frameAvg waitAvg' := by
  have hcap := (aheadRate_mem frameAvg hw).2
  by_cases hfast : frameAvg ≤ waitAvg'
  · rwa [aheadRate, aheadRate, if_pos hfast, ← aheadRate]
  · -- both waits are shorter than the interval, and the longer one leaves the smaller divisor
    have hquot : 1000 * frameAvg / (frameAvg + 20000 - waitAvg) ≤ 1000 * frameAvg / (frameAvg + 20000 - waitAvg') :=
      Word.ediv_anti (by omega) (by omega) (by omega)
    rw [aheadRate, aheadRate, if_neg (by omega), if_neg hfast]
    omega

/-! ### Across the regions -/

/-- Nobody who is on time is asked to slow down. -/
theorem le_rate_of_nonpos (h : late ≤ 0) (frameAvg waitAvg : Int) : 1000 ≤ rate late frameAvg waitAvg := by
  unfold rate
  split
  · exact Int.le_refl _
  · rw [if_neg (by omega)]
    split
    · next hahead => exact (aheadRate_mem frameAvg hahead.1).1
    · exact Int.le_refl _

/-- Nobody who is late is asked to speed up. -/
theorem rate_le_of_pos (h : 0 < late) (frameAvg waitAvg : Int) : rate late frameAvg waitAvg ≤ 1000 := by
  have hms : 0 ≤ late.tdiv 10000 := Int.tdiv_nonneg (by omega) (by decide)
  unfold rate
  by_cases hf : frameAvg < 0
  · exact Int.le_of_eq (if_pos hf)
  · rw [if_neg hf, if_pos h]
    omega

/-- The later a frame, the less is asked for. -/
theorem rate_anti_late (h : late ≤ late') (frameAvg waitAvg : Int) :
    rate late' frameAvg waitAvg ≤ rate late frameAvg waitAvg := by
  rcases Int.lt_or_le 0 late with hlate | hlate
  · -- both are late
    have hms : late.tdiv 10000 ≤ late'.tdiv 10000 := by
      rw [Int.tdiv_eq_ediv_of_nonneg (by omega), Int.tdiv_eq_ediv_of_nonneg (by omega)]
      exact Int.ediv_le_ediv (by decide) h
    unfold rate
    rw [if_pos hlate, if_pos (by omega : 0 < late')]
    split <;> omega
  rcases Int.lt_or_le 0 late' with hlate' | hlate'
  · -- the nominal rate lies between them
    exact Int.le_trans (rate_le_of_pos hlate' ..) (le_rate_of_nonpos hlate ..)
  · -- neither is late, and only the earlier one may be well ahead
    by_cases hahead : 20000 < waitAvg ∧ late' < -20000
    · have hahead' : 20000 < waitAvg ∧ late < -20000 := ⟨hahead.1, by omega⟩
      refine Int.le_of_eq ?_
      unfold rate
      rw [if_neg (by omega : ¬ 0 < late), if_neg (by omega : ¬ 0 < late'), if_pos hahead, if_pos hahead']
    · have hnominal : rate late' frameAvg waitAvg = 1000 := by
        unfold rate
        rw [if_neg (by omega : ¬ 0 < late'), if_neg hahead, ite_self]
      rw [hnominal]
      exact le_rate_of_nonpos hlate ..

/-- The longer frames wait, the more is asked for. -/
theorem rate_mono_wait (late frameAvg : Int) (h : waitAvg ≤ waitAvg') :
    rate late frameAvg waitAvg ≤ rate late frameAvg waitAvg' := by
  unfold rate
  by_cases hf : frameAvg < 0
  · exact Int.le_of_eq ((if_pos hf).trans (if_pos hf).symm)
  rw [if_neg hf, if_neg hf]
  by_cases hlate : 0 < late
  · exact Int.le_of_eq ((if_pos hlate).trans (if_pos hlate).symm)
  rw [if_neg hlate, if_neg hlate]
  by_cases hahead : 20000 < waitAvg ∧ late < -20000
  · rw [if_pos hahead, if_pos ⟨by omega, hahead.2⟩]
    exact aheadRate_mono hahead.1 h
  · rw [if_neg hahead]
    split
    · next hahead' => exact (aheadRate_mem frameAvg hahead'.1).1
    · exact Int.le_refl _

/-! ### Reports -/

theorem proportion_of_assess {late frameAvg renderAvg waitAvg : Ticks} {timestamp : StreamTime} {m : QualityMessage}
    (h : assess late timestamp frameAvg renderAvg waitAvg = .ok m) :
    m.proportion.val = rate late.val frameAvg.val waitAvg.val := by
  rw [assess_eq_assessed] at h
  cases h
  exact val_proportion_assessed ..

/-- **Steering**: a report on any figures asks for just the rate that the formulas give, between half the nominal rate
and twice that, for no less than the nominal rate if the frame is not late and for no more if it is. The later the
frame, the less is asked for and the longer is the delay if that is acknowledged; the longer frames wait, the more is
asked for. -/
theorem assess_steers :
    (∀ (late frameAvg renderAvg waitAvg : Ticks) (timestamp : StreamTime),
      ∃ m, assess late timestamp frameAvg renderAvg waitAvg = .ok m ∧
        m.proportion.val = rate late.val frameAvg.val waitAvg.val ∧
        (500 ≤ m.proportion.val ∧ m.proportion.val ≤ 2000) ∧
        (late.val ≤ 0 → 1000 ≤ m.proportion.val) ∧ (0 < late.val → m.proportion.val ≤ 1000)) ∧
    (∀ (late late' frameAvg renderAvg waitAvg : Ticks) (timestamp timestamp' : StreamTime) (m m' : QualityMessage),
      late ≤ late' → assess late timestamp frameAvg renderAvg waitAvg = .ok m →
      assess late' timestamp' frameAvg renderAvg waitAvg = .ok m' →
      m'.proportion ≤ m.proportion ∧
        ∀ s s' : Scheduler, ∃ delay t delay' t', s.notify m.proportion = .ok (delay, t) ∧
          s'.notify m'.proportion = .ok (delay', t') ∧
          t.state.throttle = delay ∧ t'.state.throttle = delay' ∧ delay ≤ delay') ∧
    (∀ (late frameAvg renderAvg renderAvg' waitAvg waitAvg' : Ticks) (timestamp timestamp' : StreamTime)
      (m m' : QualityMessage), waitAvg ≤ waitAvg' → assess late timestamp frameAvg renderAvg waitAvg = .ok m →
      assess late timestamp' frameAvg renderAvg' waitAvg' = .ok m' → m.proportion ≤ m'.proportion) := by
  refine ⟨?_, ?_, ?_⟩
  · intro late frameAvg renderAvg waitAvg timestamp
    have hassess := assess_eq_assessed late timestamp frameAvg renderAvg waitAvg
    rw [hassess]
    refine ⟨_, rfl, proportion_of_assess hassess, ?_⟩
    rw [proportion_of_assess hassess]
    exact ⟨rate_mem .., fun h => le_rate_of_nonpos h .., fun h => rate_le_of_pos h ..⟩
  · intro late late' frameAvg renderAvg waitAvg timestamp timestamp' m m' hlate hm hm'
    have hle : m'.proportion ≤ m.proportion := by
      rw [Word.le_iff, proportion_of_assess hm, proportion_of_assess hm']
      exact rate_anti_late hlate ..
    refine ⟨hle, fun s s' => ?_⟩
    exact ⟨_, _, _, _, s.notify_eq _, s'.notify_eq _, rfl, rfl, Proportion.delay_anti hle⟩
  · intro late frameAvg renderAvg renderAvg' waitAvg waitAvg' timestamp timestamp' m m' hwait hm hm'
    rw [Word.le_iff, proportion_of_assess hm, proportion_of_assess hm']
    exact rate_mono_wait _ _ hwait

/-- A frame 10 ms early and one 30 ms late, at 40 ms per frame: the supplier is asked for 1250 and for 970. -/
theorem assess_steers_early_late :
    let m : QualityMessage := ⟨.famine, 1250, { val := -100000 }, .origin⟩
    let m' : QualityMessage := ⟨.famine, 970, 300000, .origin⟩
    assess { val := -100000 } .origin 400000 0 100000 = .ok m ∧ assess 300000 .origin 400000 0 100000 = .ok m' ∧
      m'.proportion ≤ m.proportion ∧
      ∀ s s' : Scheduler, ∃ delay t delay' t', s.notify m.proportion = .ok (delay, t) ∧
        s'.notify m'.proportion = .ok (delay', t') ∧
        t.state.throttle = delay ∧ t'.state.throttle = delay' ∧ delay ≤ delay' := by
  intro m m'
  have hearly : assess { val := -100000 } .origin 400000 0 100000 = .ok m := rfl
  have hlate : assess 300000 .origin 400000 0 100000 = .ok m' := rfl
  have hle : ({ val := -100000 } : Ticks) ≤ 300000 := by decide
  exact ⟨hearly, hlate, assess_steers.2.1 _ _ _ _ _ _ _ m m' hle hearly hlate⟩

end QualityMessage

end FramePacing
