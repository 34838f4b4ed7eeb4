import FramePacing.Proofs.Scheduler.Bounds
import FramePacing.Proofs.Scheduler.Reasons
import FramePacing.Proofs.Scheduler.Totality

/-!
# When frames are presented

`Config.lead` is how long before its scheduled start a frame is presented. A frame that waits does so for a
moment between the present and its start, no further ahead of the start than its duration and the earliness
budget reach, `Scheduler.drawAt_between`: the budget is never earlier than the frame is.

The limit on early frames holds less often. It is compared with the lateness after the clamp, so it does not bind
what is played as soon as possible, after a drop or behind, unless it lies below the clamp, and it does not bind the
budget of a frame that waits, `State.Passes`: `Scheduler.lead_le_leap_iff`.
-/

namespace FramePacing

namespace Config

variable (c : Config)

/-- How long before its scheduled start a sample is presented. -/
def lead (sample : Sample) (presented : StreamTime) : Int :=
  (c.compensate sample).start.ticks.val - presented.ticks.val

/-! ### Lateness within the clamp -/

variable {c} {start now : StreamTime}

/-- What counts as early is at least that early. -/
theorem sub_le_late (h : (c.late start now).val < 0) :
    now.ticks.val - start.ticks.val ≤ (c.late start now).val := by
  have hb := c.bound_nonneg
  rw [val_late, StreamTime.val_sub] at h ⊢
  omega

/-- A bound on the lateness that the clamp would not let through holds of the sample itself. -/
theorem le_sub_of_le_late {l : Int} (hl : -c.bound.val < l) (h : l ≤ (c.late start now).val) :
    l ≤ now.ticks.val - start.ticks.val := by
  have hb := Word.signed64_range c.bound
  rw [val_late, StreamTime.val_sub] at h
  omega

end Config

namespace State

variable {c : Config} {s s' : State} {sample : Sample} {now time : StreamTime} {reply : Reply} {decision : Decision}

/-! ### Frames that wait -/

/-- The earliness budget of an early sample is never earlier than the sample. -/
theorem late_le_budget (justDropped : Bool) (hl : s.late.val ≤ 0) (he : s.earliness.val ≤ 0) :
    s.late.val ≤ (s.budget justDropped).val := by
  have hpos : ¬ 0 < s.late := Int.not_lt.2 hl
  unfold budget
  rw [if_neg hpos]
  split
  · exact Int.le_refl _
  · next hj =>
    have hlt : ¬ s.earliness.val ≤ s.late.val := by
      intro hle
      exact hj (by simp [Word.le_iff, hle])
    have hdrain := drain_mem he
    have hr := Word.signed64_range s.earliness
    rw [Word.val_saturate_signed64]
    omega

/-- The time to wait for, where the axis has room for it. -/
theorem ticks_target (scheduled : Sample) (he : s.earliness.val ≤ 0)
    (hroom : -9223372036854775808 ≤ scheduled.start.ticks.val + s.earliness.val) :
    (s.target scheduled).ticks.val =
      scheduled.start.ticks.val - min (max scheduled.duration.val 0) (-s.earliness.val) := by
  have hd := Word.signed64_range scheduled.duration
  have hs := Word.signed64_range scheduled.start.ticks
  have hr := Word.signed64_range s.earliness
  rw [target, StreamTime.val_add, Word.val_saturate_signed64]
  omega

/-- A frame waits because it is early, no less early than the budget it leaves, and its lead is what the
duration covers of that budget. -/
theorem lead_of_wait (hb : Bounded c s) (hr : Ruled c s sample now reply (.drawAt time) s') :
    now < (c.compensate sample).start ∧
      now.ticks.val - (c.compensate sample).start.ticks.val ≤ s'.earliness.val ∧ s'.earliness.val ≤ 0 ∧
      c.lead sample time = min (max (c.compensate sample).duration.val 0) (-s'.earliness.val) := by
  have hp := hb.prepared sample now reply
  cases hr with
  | ahead draws catchesUp early =>
    have hearly := early
    rw [prepared_late] at hearly
    have hsub := Config.sub_le_late hearly
    have hbudget : (s.prepared c sample now reply).late.val ≤ (s.prepared c sample now reply).earliness.val := by
      have he := hb.earliness.2
      rw [prepared_late, prepared_earliness, ← heard_late s c sample now reply]
      refine late_le_budget _ ?_ ?_
      · rw [heard_late]; omega
      · rw [heard_earliness]; exact he
    rw [prepared_late] at hbudget
    have he0 := hp.earliness.2
    have hnow := Word.signed64_range now.ticks
    have htarget := ticks_target (c.compensate sample) he0 (by omega)
    refine ⟨?_, ?_, he0, ?_⟩
    · rw [StreamTime.lt_iff]
      omega
    · exact Int.le_trans hsub hbudget
    · rw [Config.lead, htarget]
      change _ = min _ (-(s.prepared c sample now reply).earliness.val)
      omega

/-- After a drop a frame waits only because it is earlier than the limit, and all of its earliness is budget. -/
theorem earliness_of_wait
    (hj : (s.prepared c sample now reply).justDropped (c.compensate sample) = true)
    (hr : Ruled c s sample now reply (.drawAt time) s') :
    s'.earliness.val = (c.late (c.compensate sample).start now).val ∧
      s'.earliness.val < c.maxEarlyLeap.satNeg.val := by
  cases hr with
  | ahead draws catchesUp early =>
    have hlt := late_lt_of_not_catchesUp hj catchesUp
    have hnot : ¬ 0 < (s.heard c sample now reply).late := by
      rw [prepared_late] at early
      rw [heard_late, Word.lt_iff, Word.val_zero]
      omega
    have hbudget : (s.prepared c sample now reply).earliness = (s.prepared c sample now reply).late := by
      rw [prepared_justDropped] at hj
      rw [prepared_earliness, hj, budget, if_neg hnot, Bool.or_true, if_pos rfl]
      exact (heard_late ..).trans (prepared_late ..).symm
    change (s.prepared c sample now reply).earliness.val = _ ∧
      (s.prepared c sample now reply).earliness.val < _
    rw [hbudget]
    exact ⟨by rw [prepared_late], hlt⟩

/-! ### Frames that are drawn at once -/

/-- Within the clamp, no frame that is drawn at once is earlier than the limit. -/
theorem le_late_of_drawNow (hleap : 0 ≤ c.maxEarlyLeap.val) (hr : Ruled c s sample now reply .drawNow s') :
    -c.maxEarlyLeap.val ≤ (c.late (c.compensate sample).start now).val := by
  have hl := Word.signed64_range c.maxEarlyLeap
  rw [← prepared_late s c sample now reply]
  cases hr with
  | caughtUp draws catchesUp =>
    have h := le_late_of_catchesUp catchesUp
    rw [Word.satNeg, Word.val_saturate_signed64] at h
    omega
  | due draws catchesUp late => omega

theorem lead_of_drawNow (hleap : 0 ≤ c.maxEarlyLeap.val) (hclamp : c.maxEarlyLeap.val < c.bound.val)
    (hr : Ruled c s sample now reply .drawNow s') : c.lead sample now ≤ c.maxEarlyLeap.val := by
  have h := Config.le_sub_of_le_late (by omega) (le_late_of_drawNow hleap hr)
  rw [Config.lead]
  omega

/-- A frame that is drawn at once although it is earlier than the limit is played as soon as possible, after a drop or
behind, or no frame counts as early at all. -/
theorem hastened_of_lt_lead (hleap : 0 ≤ c.maxEarlyLeap.val) (hs : sample.start < sample.stop)
    (hlead : c.maxEarlyLeap.val < c.lead sample now) (hr : Ruled c s sample now reply .drawNow s') :
    s.FollowsDrop sample reply ∨ s.FallsBehind c sample now ∨ c.bound.val = 0 := by
  cases hr with
  | caughtUp draws catchesUp =>
    rw [← or_assoc]
    exact .inl ((catchesUp_prepared_iff s c now reply hs).1 catchesUp).1
  | due draws catchesUp late =>
    have hb := c.bound_nonneg
    rw [Config.lead] at hlead
    rw [prepared_late, Config.val_late, StreamTime.val_sub] at late
    exact .inr (.inr (by omega))

/-- With a limit that does not lie below the clamp, what is to be played as soon as possible never waits. -/
theorem drawNow_of_hastened (hclamp : c.bound.val ≤ c.maxEarlyLeap.val) (hs : sample.start < sample.stop)
    (h : s.FollowsDrop sample reply ∨ s.FallsBehind c sample now) (hr : Ruled c s sample now reply decision s')
    (hdraw : decision ≠ .drop) : decision = .drawNow := by
  have hlate := (c.late_mem (c.compensate sample).start now).1
  have hcatchesUp := (catchesUp_prepared_iff s c now reply hs).2 ⟨h, by omega⟩
  cases hr with
  | leftOut draws => exact absurd rfl hdraw
  | caughtUp draws catchesUp => rfl
  | ahead draws catchesUp early => exact absurd (catchesUp.symm.trans hcatchesUp) Bool.false_ne_true
  | due draws catchesUp late => rfl

/-- How a frame that is drawn passes the limit on early frames. One that is drawn at once starts further away than the
limit, which does not lie below the clamp, and it follows a drop or playback has fallen behind, or else the clamp lets no
frame count as early. One that waits has a duration, and leaves a budget, that both reach further than the limit. -/
def Passes (s : State) (c : Config) (sample : Sample) (now : StreamTime) (reply : Reply) (earliness : Ticks) :
    Decision → Prop
  | .drawNow => c.bound.val ≤ c.maxEarlyLeap.val ∧ c.maxEarlyLeap.val < c.lead sample now ∧
      (s.FollowsDrop sample reply ∨ s.FallsBehind c sample now ∨ c.bound.val = 0)
  | .drawAt _ => c.maxEarlyLeap.val < sample.duration.val ∧ earliness.val < -c.maxEarlyLeap.val
  | .drop => False

theorem not_passes_iff_of_drawNow (hleap : 0 ≤ c.maxEarlyLeap.val) (hs : sample.start < sample.stop)
    (hr : Ruled c s sample now reply .drawNow s') (earliness : Ticks) :
    ¬ s.Passes c sample now reply earliness .drawNow ↔ c.lead sample now ≤ c.maxEarlyLeap.val := by
  constructor
  · intro hkeeps
    by_contra hlt
    have hlead : c.maxEarlyLeap.val < c.lead sample now := Int.not_le.1 hlt
    have hclamp : c.bound.val ≤ c.maxEarlyLeap.val := by
      by_contra hbelow
      exact hlt (lead_of_drawNow hleap (Int.not_le.1 hbelow) hr)
    exact hkeeps ⟨hclamp, hlead, hastened_of_lt_lead hleap hs hlead hr⟩
  · rintro hle ⟨-, hlt, -⟩
    omega

theorem not_passes_iff_of_wait (hb : Bounded c s) (hs : sample.start < sample.stop)
    (hr : Ruled c s sample now reply (.drawAt time) s') :
    ¬ s.Passes c sample now reply s'.earliness (.drawAt time) ↔ c.lead sample time ≤ c.maxEarlyLeap.val := by
  have hduration := c.compensate_duration_pos hs
  obtain ⟨-, -, -, hlead⟩ := lead_of_wait hb hr
  rw [c.duration_compensate hs] at hduration hlead
  rw [Passes]
  omega

end State

namespace Scheduler

variable {c : Config} {calls : List Call} {answers : List Answer} {s s' : Scheduler} {sample : Sample}
  {now time : StreamTime} {reply : Reply} {ruling : Ruling}

/-- **Waiting**: a frame that waits is drawn between the present and its scheduled start, which is no later
than the nominal one, and ahead of it by no more than its duration and the earliness budget. -/
theorem drawAt_between (h : (ofConfig c).run calls = .ok (answers, s))
    (hd : s.decide sample now reply = .ok (ruling, s')) (ht : ruling.decision = .drawAt time) :
    now < (c.compensate sample).start ∧ now ≤ time ∧ time ≤ (c.compensate sample).start ∧
      (c.compensate sample).start ≤ sample.start ∧
      c.lead sample time ≤ max (c.compensate sample).duration.val 0 ∧
      c.lead sample time ≤ -s'.state.earliness.val := by
  obtain ⟨hb, hr⟩ := ruled_of_run h hd
  rw [ht] at hr
  obtain ⟨hnow, hsub, he, hlead⟩ := State.lead_of_wait hb hr
  have hpresented : c.lead sample time = (c.compensate sample).start.ticks.val - time.ticks.val := rfl
  refine ⟨hnow, ?_, ?_, c.compensate_start_le sample, by omega, by omega⟩
  · rw [StreamTime.le_iff]
    omega
  · rw [StreamTime.le_iff]
    omega

/-- The second frame after a drop at the supplier, offered 42 ms early, with 28 ms of the budget left. -/
theorem drawAt_between_budget :
    let c : Config := { Config.standard with maxEarlyLeap := 200000 }
    let calls : List Call := [.decide ⟨.ofMillis 100, .ofMillis 133, true⟩ (.ofMillis 60) .accepted]
    let sample : Sample := ⟨.ofMillis 133, .ofMillis 166, false⟩
    ∃ answers s ruling s', (ofConfig c).run calls = .ok (answers, s) ∧
      s.decide sample (.ofMillis 83) .accepted = .ok (ruling, s') ∧ ruling.decision = .drawAt (.ofMillis 97) ∧
      .ofMillis 83 < (c.compensate sample).start ∧ .ofMillis 83 ≤ StreamTime.ofMillis 97 ∧
      .ofMillis 97 ≤ (c.compensate sample).start ∧ (c.compensate sample).start ≤ sample.start ∧
      c.lead sample (.ofMillis 97) ≤ max (c.compensate sample).duration.val 0 ∧
      c.lead sample (.ofMillis 97) ≤ -s'.state.earliness.val :=
  ⟨_, _, _, _, rfl, rfl, rfl, drawAt_between
    (rfl : run _ [.decide ⟨.ofMillis 100, .ofMillis 133, true⟩ (.ofMillis 60) .accepted] = .ok (_, _))
    (rfl : decide _ _ _ .accepted = .ok (_, _)) rfl⟩

/-! ### The limit on early frames -/

/-- **Early limit**: a frame that is drawn keeps the limit unless it passes it in one of two ways. And whatever follows a
drop or comes while playback has fallen behind is drawn at once, however early, if the limit does not lie below the
clamp. -/
theorem lead_le_leap_iff (hleap : 0 ≤ c.maxEarlyLeap.val) (h : (ofConfig c).run calls = .ok (answers, s))
    (hs : sample.start < sample.stop) (hd : s.decide sample now reply = .ok (ruling, s'))
    (ht : ruling.decision.presented? now = some time) :
    (c.lead sample time ≤ c.maxEarlyLeap.val ↔
      ¬ s.state.Passes c sample now reply s'.state.earliness ruling.decision) ∧
    (c.bound.val ≤ c.maxEarlyLeap.val → s.state.FollowsDrop sample reply ∨ s.state.FallsBehind c sample now →
      ruling.decision = .drawNow) := by
  obtain ⟨hb, hr⟩ := ruled_of_run h hd
  have hdraw : ruling.decision ≠ .drop := by
    intro hdrop
    rw [hdrop] at ht
    cases ht
  refine ⟨?_, fun hclamp hhastened => State.drawNow_of_hastened hclamp hs hhastened hr hdraw⟩
  cases hdecision : ruling.decision with
  | drop => exact absurd hdecision hdraw
  | drawNow =>
    rw [hdecision] at ht hr
    cases ht
    exact (State.not_passes_iff_of_drawNow hleap hs hr s'.state.earliness).symm
  | drawAt t =>
    rw [hdecision] at ht hr
    cases ht
    exact (State.not_passes_iff_of_wait hb hs hr).symm

/-- The limit does not bind the budget: the first frame after a drop at the supplier is 40 ms early, the limit
is 20 ms, and the frame is drawn 33 ms before its start. -/
theorem lead_le_leap_iff_budget :
    let c : Config := { Config.standard with maxEarlyLeap := 200000 }
    let sample : Sample := ⟨.ofMillis 58, .ofMillis 91, true⟩
    0 ≤ c.maxEarlyLeap.val ∧ sample.start < sample.stop ∧ ∃ answers s ruling s',
      (ofConfig c).run [.notify 500] = .ok (answers, s) ∧
      s.decide sample (.ofMillis 10) .accepted = .ok (ruling, s') ∧
      ruling.decision.presented? (.ofMillis 10) = some (.ofMillis 17) ∧ c.lead sample (.ofMillis 17) = 330000 ∧
      (c.lead sample (.ofMillis 17) ≤ c.maxEarlyLeap.val ↔
        ¬ s.state.Passes c sample (.ofMillis 10) .accepted s'.state.earliness ruling.decision) ∧
      (c.bound.val ≤ c.maxEarlyLeap.val → s.state.FollowsDrop sample .accepted ∨
        s.state.FallsBehind c sample (.ofMillis 10) → ruling.decision = .drawNow) :=
  ⟨by decide, by decide, _, _, _, _, rfl, rfl, rfl, rfl, lead_le_leap_iff (by decide)
    (rfl : run _ [.notify 500] = .ok (_, _)) (by decide) (rfl : decide _ _ _ .accepted = .ok (_, _)) rfl⟩

/-- A frame that starts in 10 s is drawn at once, although the limit is 900 ms: its lateness counts as 50 ms. -/
theorem leap_passed_standard :
    let sample : Sample := ⟨.ofMillis 10008, .ofMillis 10041, true⟩
    0 ≤ Config.standard.maxEarlyLeap.val ∧ sample.start < sample.stop ∧ ∃ ruling s',
      (ofConfig .standard).decide sample .origin .accepted = .ok (ruling, s') ∧ ruling.decision = .drawNow ∧
      Config.standard.lead sample .origin = 100000000 ∧ Config.standard.maxEarlyLeap.val = 9000000 :=
  ⟨by decide, by decide, _, _, rfl, rfl, rfl, rfl⟩

/-- After a drop at the supplier the first frame of a stream is drawn too early under any configuration, if it is
ahead of its time by more than the limit and by no less than the clamp, and long enough. -/
theorem leap_lt_lead_of_first (hleap : 0 ≤ c.maxEarlyLeap.val) (hs : sample.discontinuity = true)
    (hearly : c.maxEarlyLeap.val < c.lead sample now) (hclamp : c.bound.val ≤ c.lead sample now)
    (hlong : c.bound.val ≤ (c.compensate sample).duration.val)
    (hd : (ofConfig c).decide sample now .accepted = .ok (ruling, s')) :
    ∃ time, ruling.decision.presented? now = some time ∧ c.maxEarlyLeap.val < c.lead sample time := by
  obtain ⟨hb, hr⟩ := ruled_of_run (rfl : run _ [] = .ok (_, _)) hd
  have hleap' := Word.signed64_range c.maxEarlyLeap
  have hbound := c.bound_nonneg
  have hbound' := Word.signed64_range c.bound
  cases hdecision : ruling.decision with
  | drop =>
    rw [hdecision] at hr
    have hinterval : 0 ≤ (State.initial.prepared c sample now .accepted).frameAvg.val := by
      rw [State.prepared_frameAvg_initial]
      omega
    exact absurd rfl (hr.ne_drop_of_free rfl hinterval)
  | drawNow => exact ⟨now, rfl, hearly⟩
  | drawAt time =>
    rw [hdecision] at hr
    refine ⟨time, rfl, ?_⟩
    have hj := State.initial.prepared_justDropped_of_discontinuity c sample now .accepted rfl hs
    obtain ⟨hbudget, hlimit⟩ := State.earliness_of_wait hj hr
    obtain ⟨-, -, -, hlead⟩ := State.lead_of_wait hb hr
    -- the budget is the whole clamp, and only a limit below the clamp has kept the frame waiting
    have hlate : (c.late (c.compensate sample).start now).val = -c.bound.val := by
      rw [Config.lead] at hclamp
      rw [Config.val_late, StreamTime.val_sub]
      omega
    rw [Word.satNeg, Word.val_saturate_signed64] at hlimit
    omega

/-- No configuration keeps its own limit: at the clamp or above it does not hold back what is drawn at once, and
below the clamp it does not hold back the budget. Here the first frame starts half the axis away. -/
theorem exists_leap_lt_lead (c : Config) (hleap : 0 ≤ c.maxEarlyLeap.val) :
    ∃ sample now ruling s' time, sample.start < sample.stop ∧
      (ofConfig c).decide sample now .accepted = .ok (ruling, s') ∧
      ruling.decision.presented? now = some time ∧ c.maxEarlyLeap.val < c.lead sample time := by
  have hstart : (c.compensate ⟨.origin, ⟨.greatest⟩, true⟩) = ⟨.origin, ⟨.greatest⟩, true⟩ := by
    rw [Config.compensate, if_neg]
    rintro ⟨hlag, hle⟩
    exact absurd (Int.lt_of_lt_of_le hlag hle) (by decide)
  have hlead : c.lead ⟨.origin, ⟨.greatest⟩, true⟩ ⟨.least⟩ = 9223372036854775808 := by
    rw [Config.lead, hstart]
    rfl
  have hduration : (c.compensate ⟨.origin, ⟨.greatest⟩, true⟩).duration.val = 9223372036854775807 := by
    rw [hstart]
    rfl
  have hl := Word.signed64_range c.maxEarlyLeap
  have hb := Word.signed64_range c.bound
  obtain ⟨ruling, s', hd, -⟩ := decide_ok (s := ofConfig c) (k := 0) (Statistics.room_empty (by decide))
    ⟨.origin, ⟨.greatest⟩, true⟩ ⟨.least⟩ .accepted
  obtain ⟨time, ht, htime⟩ := leap_lt_lead_of_first hleap rfl (by omega) (by omega) (by omega) hd
  exact ⟨_, _, ruling, s', time, by decide, hd, ht, htime⟩

end Scheduler

end FramePacing
