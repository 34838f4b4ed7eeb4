import FramePacing.Proofs.ExponentialAverage
import FramePacing.Proofs.Scheduler.Freshness
import FramePacing.Proofs.Scheduler.Paints

/-!
# Paints that all take the same time

Once a paint has been reported, another one that takes as long is never a spike. So a painter who always takes the
same time is believed from the second report on, and each report leads the average toward that time, until it is at
its level: at the time itself if the average comes down to it, and less than a period below if it comes up,
`Scheduler.nears_of_run`. Away from the level no report that is believed leaves the average where it is, so the
distance to the level bounds how many reports it takes.
-/

namespace FramePacing

namespace Scheduler

/-- A call reports a paint that has taken exactly the given time. -/
def Call.Reports (cost : Ticks) (call : Call) : Prop :=
  ∃ start stop, call = .recordRender (.blitted start stop) ∧ stop.val - start.val = cost.val

/-- How many of the calls are more than decisions and acknowledgements. -/
def reports (calls : List Call) : Nat := calls.countP (!·.isAside)

/-- The level to which paints that take the given time lead the average. -/
def level (s : Scheduler) (cost : Ticks) : Int := s.config.average.level s.state.renderAvg cost

/-- How far the average is from its level. -/
def away (s : Scheduler) (cost : Ticks) : Nat := (s.level cost - s.state.renderAvg.val).natAbs

/-- The average is not negative, and a period of it or of the cost stays within the machine words. -/
structure Fits (s : Scheduler) (cost : Ticks) : Prop where
  nonneg : 0 ≤ s.state.renderAvg.val
  fits : s.config.average.period.val * max cost.val s.state.renderAvg.val ≤ 9223372036854775807

/-- Going from `avg` to `avg'` leads toward a cost, or stays, and does not lead beyond. -/
def Toward (cost avg avg' : Ticks) : Prop :=
  (cost.val ≤ avg'.val ∧ avg'.val ≤ avg.val) ∨ (avg.val ≤ avg'.val ∧ avg'.val ≤ cost.val)

/-- Where paints that take the given time have led a scheduler `s` after a number of reports. The next report is
accepted if it is not the first, and leads toward the cost; nothing else moves the average, and once there were more
reports than it was away from its level, it is there. -/
structure Nears (cost : Ticks) (s : Scheduler) (reports : Nat) (s' : Scheduler) : Prop where
  next : ∀ start stop : Ticks, stop.val - start.val = cost.val →
    ∃ outcome s'', s'.recordRender (.blitted start stop) = .ok (outcome, s'') ∧
      (0 < reports → outcome.accepted = true) ∧ Toward cost s'.state.renderAvg s''.state.renderAvg
  aside : ∀ call answer s'', call.isAside = true → s'.step call = .ok (answer, s'') →
    s''.state.renderAvg = s'.state.renderAvg
  reached : s.away cost < reports → s'.state.renderAvg.val = s.level cost

variable {cost : Ticks} {s s' s'' : Scheduler} {start stop : Ticks} {k : Nat}

theorem elapsed_of_cost (hcost : 0 ≤ cost.val) (h : stop.val - start.val = cost.val) :
    (RenderPath.blitted start stop).elapsed = cost := by
  apply Word.ext
  have hrange := Word.signed64_range cost
  rw [RenderPath.val_elapsed_blitted]
  omega

/-- A paint that takes as long as the one before is no spike. -/
theorem not_spikes_of_renderLast (hcost : 0 ≤ cost.val) (h : s.state.renderLast = cost) : ¬ s.state.Spikes cost := by
  have hrange := Word.signed64_range cost
  have htwo : (2 : Ticks).val = 2 := rfl
  intro hspikes
  have hlast := hspikes.2
  rw [h, Word.lt_iff, Word.satMul, Word.val_saturate_signed64, htwo] at hlast
  omega

/-! ### One more paint -/

/-- A scheduler after a measured paint. -/
def painted (s : Scheduler) (start stop : Ticks) : Scheduler :=
  { s with state := s.state.rendered s.config (.blitted start stop) }

/-- The average has come to lie between where it was and the level that it had then. -/
def Between (cost : Ticks) (s s' : Scheduler) : Prop :=
  min s.state.renderAvg.val (s.level cost) ≤ s'.state.renderAvg.val ∧
    s'.state.renderAvg.val ≤ max s.state.renderAvg.val (s.level cost)

theorem Between.level_eq (h : Between cost s s') (hconfig : s'.config = s.config) : s'.level cost = s.level cost := by
  unfold level
  rw [hconfig]
  exact s.config.average.level_eq_of_between h.1 h.2

theorem Between.fits (h : Between cost s s') (hconfig : s'.config = s.config) (hcost : 0 ≤ cost.val)
    (hs : s.Fits cost) : s'.Fits cost := by
  obtain ⟨hlo, hhi⟩ := h
  obtain ⟨hnonneg, hfits⟩ := hs
  have hp := s.config.average.one_le
  have hlevel : min s.state.renderAvg.val cost.val ≤ s.level cost := Int.le_max_right ..
  have hlevel' : s.level cost ≤ cost.val := (s.config.average.level_mem ..).2
  constructor
  · omega
  · rw [hconfig]
    refine Int.le_trans (Int.mul_le_mul_of_nonneg_left ?_ (by omega)) hfits
    omega

theorem renderAvg_painted (hcost : 0 ≤ cost.val) (h : stop.val - start.val = cost.val) :
    (s.painted start stop).state.renderAvg =
      if s.state.Spikes cost then s.state.renderAvg else s.config.average.mixed s.state.renderAvg cost := by
  rw [painted, State.rendered, elapsed_of_cost hcost h]

theorem renderLast_painted (hcost : 0 ≤ cost.val) (h : stop.val - start.val = cost.val) :
    (s.painted start stop).state.renderLast = cost :=
  elapsed_of_cost hcost h

/-- A paint leads the average toward its level, and if it is no spike, leaves it in place only there. -/
theorem between_painted (hs : s.Fits cost) (hcost : 0 ≤ cost.val) (h : stop.val - start.val = cost.val) :
    Between cost s (s.painted start stop) ∧
      (¬ s.state.Spikes cost → (s.painted start stop).state.renderAvg.val = s.state.renderAvg.val →
        s.state.renderAvg.val = s.level cost) := by
  rw [Between, renderAvg_painted hcost h]
  by_cases hspikes : s.state.Spikes cost
  · rw [if_pos hspikes]
    refine ⟨⟨Int.min_le_left .., Int.le_max_left ..⟩, ?_⟩
    intro hno
    exact absurd hspikes hno
  · rw [if_neg hspikes]
    obtain ⟨hlo, hhi, hstay⟩ := s.config.average.mixed_toward_level hs.nonneg hcost hs.fits
    refine ⟨⟨hlo, hhi⟩, ?_⟩
    intro _ hsame
    exact hstay hsame

/-! ### The way to the level -/

/-- Where a scheduler `s` has got with `k` reports: each but the first has brought the average nearer to its level, as
long as it was not there. -/
structure Nearing (cost : Ticks) (s : Scheduler) (k : Nat) (s' : Scheduler) : Prop where
  config : s'.config = s.config
  between : Between cost s s'
  nearer : s'.away cost = 0 ∨ s'.away cost + (k - 1) ≤ s.away cost
  last : 0 < k → s'.state.renderLast = cost

theorem nearing_zero (cost : Ticks) (s : Scheduler) : Nearing cost s 0 s where
  config := rfl
  between := ⟨Int.min_le_left .., Int.le_max_left ..⟩
  nearer := .inr (Nat.le_refl _)
  last := by
    intro h
    cases h

theorem Nearing.aside (h : Nearing cost s k s') (hsame : SamePaints s' s'') : Nearing cost s k s'' := by
  have hlevel : s''.level cost = s'.level cost := by rw [level, level, hsame.config, hsame.renderAvg]
  have haway : s''.away cost = s'.away cost := by rw [away, away, hlevel, hsame.renderAvg]
  refine ⟨hsame.config.trans h.config, ?_, ?_, ?_⟩
  · rw [Between, hsame.renderAvg]
    exact h.between
  · rw [haway]
    exact h.nearer
  · intro hk
    rw [hsame.renderLast]
    exact h.last hk

theorem Nearing.paint (h : Nearing cost s k s') (hs : s.Fits cost) (hcost : 0 ≤ cost.val)
    (hpaint : stop.val - start.val = cost.val) : Nearing cost s (k + 1) (s'.painted start stop) := by
  obtain ⟨hbetween, hstay⟩ := between_painted (h.between.fits h.config hcost hs) hcost hpaint
  have hlevel := h.between.level_eq h.config
  have hlevel' : (s'.painted start stop).level cost = s'.level cost := hbetween.level_eq rfl
  refine ⟨h.config, ?_, ?_, ?_⟩
  · have hbefore := h.between
    unfold Between at *
    omega
  · have hnearer := h.nearer
    unfold Between at hbetween
    unfold away at *
    rcases Nat.eq_zero_or_pos k with rfl | hk
    · omega
    · -- from the second report on the paint before it was the same
      have hmove := hstay (not_spikes_of_renderLast hcost (h.last hk))
      omega
  · intro _
    exact renderLast_painted hcost hpaint

theorem Nearing.run (h : Nearing cost s k s') (hs : s.Fits cost) (hcost : 0 ≤ cost.val) {calls : List Call}
    {answers : List Answer} (hcalls : ∀ call ∈ calls, call.isAside = true ∨ call.Reports cost)
    (hrun : s'.run calls = .ok (answers, s'')) : Nearing cost s (k + reports calls) s'' := by
  induction calls generalizing k s' answers with
  | nil =>
    cases hrun
    exact h
  | cons call calls ih =>
    obtain ⟨⟨answer, s₁⟩, hstep, hrun⟩ := Fault.bind_eq_ok.1 hrun
    obtain ⟨⟨rest, s₂⟩, hrest, hrun⟩ := Fault.bind_eq_ok.1 hrun
    cases hrun
    have hlater : ∀ call ∈ calls, call.isAside = true ∨ call.Reports cost := by
      intro call hc
      exact hcalls call (List.mem_cons_of_mem _ hc)
    rcases hcalls call List.mem_cons_self with haside | ⟨start, stop, rfl, hpaint⟩
    · have hcount : reports (call :: calls) = reports calls := List.countP_cons_of_neg (by simp [haside])
      rw [hcount]
      exact ih (h.aside (samePaints_of_step haside hstep)) hlater hrest
    · have hcount : reports (.recordRender (.blitted start stop) :: calls) = reports calls + 1 :=
        List.countP_cons_of_pos rfl
      rw [step_recordRender] at hstep
      cases hstep
      rw [hcount, ← Nat.add_assoc, Nat.add_right_comm]
      exact ih (h.paint hs hcost hpaint) hlater hrest

theorem Nearing.nears (h : Nearing cost s k s') (hs : s.Fits cost) (hcost : 0 ≤ cost.val) : Nears cost s k s' where
  next := by
    intro start stop hpaint
    refine ⟨_, s'.painted start stop, recordRender_eq .., ?_, ?_⟩
    · intro hk
      rw [State.accepted_outcome, elapsed_of_cost hcost hpaint]
      exact not_spikes_of_renderLast hcost (h.last hk)
    · obtain ⟨⟨hlo, hhi⟩, -⟩ := between_painted (h.between.fits h.config hcost hs) hcost hpaint
      have hlevel : min s'.state.renderAvg.val cost.val ≤ s'.level cost := Int.le_max_right ..
      have hlevel' : s'.level cost ≤ cost.val := (s'.config.average.level_mem ..).2
      unfold Toward
      omega
  aside := by
    intro call answer s'' hcall hstep
    exact (samePaints_of_step hcall hstep).renderAvg
  reached := by
    intro hk
    have hnearer := h.nearer
    have hlevel := h.between.level_eq h.config
    have hzero : s'.away cost = 0 := by omega
    unfold away at hzero
    omega

/-- **Steady painter**: wherever a scheduler is, paints that all take one time lead its average to the level of that
time, which from above is the time itself and otherwise less than a period below it. -/
theorem nears_of_run (c : Config) {before : List Call} {answers : List Answer}
    (h : (ofConfig c).run before = .ok (answers, s)) (hcost : 0 ≤ cost.val)
    (hfit : c.average.period.val * max cost.val s.state.renderAvg.val ≤ 9223372036854775807) :
    (cost.val ≤ s.state.renderAvg.val → s.level cost = cost.val) ∧
      (cost.val - (c.average.period.val - 1) ≤ s.level cost ∧ s.level cost ≤ cost.val) ∧
      ∀ calls : List Call, (∀ call ∈ calls, call.isAside = true ∨ call.Reports cost) →
        (s.statistics.arrivals.count.val + calls.length < 2 ^ 64 →
          ∃ answers' s', s.run calls = .ok (answers', s')) ∧
        ∀ answers' s', s.run calls = .ok (answers', s') → Nears cost s (reports calls) s' := by
  obtain ⟨hconfig, hb, -⟩ := run_invariant (kept_bounds c) ⟨rfl, bounded_initial c, follows_initial⟩ h
  subst hconfig
  have hs : s.Fits cost := ⟨hb.renderAvg, hfit⟩
  refine ⟨s.config.average.level_of_le, s.config.average.level_mem .., ?_⟩
  intro calls hcalls
  constructor
  · intro hcount
    have hroom := room_of_run h hcount
    rw [← Nat.zero_add calls.length] at hroom
    obtain ⟨answers', s', hrun, -⟩ := run_ok calls hroom
    exact ⟨answers', s', hrun⟩
  · intro answers' s' hrun
    have hnearing := (nearing_zero cost s).run hs hcost hcalls hrun
    rw [Nat.zero_add] at hnearing
    exact hnearing.nears hs hcost

/-- An average of 30 takes in paints of 40 and stops at 31, nine short of them. -/
theorem nears_of_run_from_below :
    let before : List Call := [.recordRender (.blitted 0 300), .recordRender (.blitted 0 300)]
    let calls : List Call := [.recordRender (.blitted 1000 1040), .notify 500,
      .decide ⟨.ofMillis 100, .ofMillis 140, false⟩ (.ofMillis 90) .accepted, .recordRender (.blitted 2000 2040)]
    (∀ call ∈ calls, call.isAside = true ∨ call.Reports 40) ∧
      ∃ answers s answers' s', (ofConfig .standard).run before = .ok (answers, s) ∧ s.state.renderAvg = 30 ∧
        s.run calls = .ok (answers', s') ∧ s'.state.renderAvg.val = 31 ∧ s.level 40 = 31 ∧ Nears 40 s 2 s' := by
  intro before calls
  have hcalls : ∀ call ∈ calls, call.isAside = true ∨ call.Reports 40 := by
    intro call hc
    simp only [calls, List.mem_cons, List.not_mem_nil, or_false] at hc
    rcases hc with rfl | rfl | rfl | rfl
    · exact .inr ⟨1000, 1040, rfl, rfl⟩
    · exact .inl rfl
    · exact .inl rfl
    · exact .inr ⟨2000, 2040, rfl, rfl⟩
  have hrun : (ofConfig .standard).run before = .ok (_, _) := rfl
  have hcost : 0 ≤ (40 : Ticks).val := by decide
  obtain ⟨-, -, hnears⟩ := nears_of_run .standard hrun hcost (by decide)
  exact ⟨hcalls, _, _, _, _, rfl, rfl, rfl, rfl, rfl, (hnears calls hcalls).2 _ _ rfl⟩

end Scheduler

end FramePacing
