import FramePacing.Playback.Simulator
import FramePacing.Proofs.Scheduler.Transcript
import FramePacing.Proofs.Scheduler.Totality

/-!
# Playback is a run of its scheduler

`Simulator.Stepped` lists what one step of a simulator does, and `Simulator.run_invariant` is the induction over a run
of steps, record by record.

A step makes one to three calls on the scheduler, `StreamProfile.calls`: a decision, an acknowledgement if that is the
policy, and a paint if the frame is drawn. The calls of all records, one after the other, are a run of the scheduler
with the decisions of the records for its log, `Simulator.replays_of_run`. So whatever is known of runs of a scheduler is
known of playback.
-/

namespace FramePacing

/-- The decision that a record tells of. -/
def FrameRecord.decided (r : FrameRecord) : Decided := ⟨r.sample, r.arrival, r.decision⟩

/-- The calls that a record stands for. -/
def StreamProfile.calls (p : StreamProfile) (policy : SupplierPolicy) (r : FrameRecord) : List Scheduler.Call :=
  .decide r.sample r.arrival policy.reply ::
    ((if policy = .acknowledge then [.notify r.proportion] else []) ++
      (r.presented?.map fun time => .recordRender (.blitted time.ticks (time + p.paintCost).ticks)).toList)

namespace Simulator

/-! ### The parts of a step -/

/-- When frame `index` could be delivered as far as the presenter and the stalls go. -/
def released (s : Simulator) (index : Signed64) : StreamTime := (s.stallAt? index).elim s.now (s.now + ·.length)

/-- The scheduler `t` after the supplier has answered a report. -/
def answered (policy : SupplierPolicy) (proportion : Proportion) (t : Scheduler) : Scheduler :=
  if policy = .acknowledge then { t with state := { t.state with throttle := proportion.delay } } else t

/-- The scheduler `t` after a frame has been painted at `time`. -/
def painted (p : StreamProfile) (time : StreamTime) (t : Scheduler) : Scheduler :=
  { t with state := t.state.rendered t.config (.blitted time.ticks (time + p.paintCost).ticks) }

/-- The record of an arrival that was ruled on, with the scheduler `t` after the answer. -/
def record (s : Simulator) (arrival : Arrival) (ruling : Ruling) (t : Scheduler) : FrameRecord :=
  let presented? := (ruling.decision.presented? arrival.time).map (max arrival.time)
  { index := arrival.index
    sample := arrival.sample
    arrival := arrival.time
    decision := ruling.decision
    presented?
    supplierHandling := s.policy.reply.isAccepted
    proportion := ruling.message.proportion
    throttle := presented?.elim 0 fun _ => t.state.throttle }

/-- Playback after a record, with the scheduler `t` after the answer. -/
def settle (s : Simulator) (r : FrameRecord) (t : Scheduler) : Simulator :=
  { s with
    scheduler := r.presented?.elim t fun time => painted s.profile time t
    now := r.presented?.elim s.now fun time => time + s.profile.paintCost + r.throttle }

variable {s s' s₀ t : Simulator} {r : FrameRecord} {records : List FrameRecord} {n : Nat}

theorem acknowledge_eq (s : Simulator) (proportion : Proportion) :
    s.acknowledge proportion = .ok { s with scheduler := answered s.policy proportion s.scheduler } := by
  unfold acknowledge answered
  by_cases h : s.policy = .acknowledge
  · rw [if_pos h, if_pos h, Scheduler.notify_eq]
    rfl
  · rw [if_neg h, if_neg h]
    rfl

theorem paint_eq (s : Simulator) (time : StreamTime) :
    s.paint time = .ok (s.scheduler.state.throttle,
      { s with
        scheduler := painted s.profile time s.scheduler
        now := time + s.profile.paintCost + s.scheduler.state.throttle }) := by
  simp only [paint, Scheduler.recordRender_eq]
  rfl

/-- Only the supply and the decision can keep a frame from being played. -/
theorem step_eq (s : Simulator) :
    s.step = s.supply >>= fun (arrival, s) =>
      s.scheduler.decide arrival.sample arrival.time s.policy.reply >>= fun (ruling, t) =>
        let t := answered s.policy ruling.message.proportion t
        .ok (s.record arrival ruling t, s.settle (s.record arrival ruling t) t) := by
  unfold step
  refine congrArg (s.supply >>= ·) (funext fun (arrival, s₁) => ?_)
  refine congrArg (Scheduler.decide _ _ _ _ >>= ·) (funext fun (ruling, t) => ?_)
  simp only [acknowledge_eq, paint_eq, Fault.ok_bind, settle, record]
  cases (ruling.decision.presented? arrival.time).map (max arrival.time) <;> rfl

/-- What a step does: which frame is delivered and when, the one decision on it, and the time at which the presenter is
free again. -/
structure Stepped (s : Simulator) (r : FrameRecord) (s' : Simulator) : Prop where
  index : s.pick = .ok r.index
  sample : r.sample = s.profile.sample r.index (r.index ≠ s.nextFrame)
  arrival : ∃ delivery, s.profile.delivery r.index = .ok delivery ∧ r.arrival = max (s.released r.index) delivery
  decided : ∃ ruling t, s.scheduler.decide r.sample r.arrival s.policy.reply = .ok (ruling, t) ∧
    r.decision = ruling.decision ∧ r.proportion = ruling.message.proportion ∧
    s'.scheduler = r.presented?.elim (answered s.policy r.proportion t) fun time =>
      painted s.profile time (answered s.policy r.proportion t)
  presented : r.presented? = (r.decision.presented? r.arrival).map (max r.arrival)
  supplierHandling : r.supplierHandling = s.policy.reply.isAccepted
  throttle : r.throttle = r.presented?.elim 0 fun _ => s'.scheduler.state.throttle
  now : s'.now = r.presented?.elim r.arrival fun time => time + s.profile.paintCost + r.throttle
  nextFrame : s'.nextFrame.val = r.index.val + 1
  resync : s'.resync = (s.stallAt? r.index).any (·.skipMissed)
  profile : s'.profile = s.profile
  policy : s'.policy = s.policy
  stalls : s'.stalls = s.stalls

theorem stepped (h : s.step = .ok (r, s')) : Stepped s r s' := by
  rw [step_eq] at h
  obtain ⟨⟨arrival, s₁⟩, hsupply, h⟩ := Fault.bind_eq_ok.1 h
  obtain ⟨⟨ruling, t⟩, hdecide, h⟩ := Fault.bind_eq_ok.1 h
  obtain ⟨index, hpick, hsupply⟩ := Fault.bind_eq_ok.1 hsupply
  obtain ⟨nextFrame, hnext, hsupply⟩ := Fault.bind_eq_ok.1 hsupply
  obtain ⟨delivery, hdelivery, hsupply⟩ := Fault.bind_eq_ok.1 hsupply
  cases hsupply
  cases h
  exact {
    index := hpick
    sample := rfl
    arrival := ⟨delivery, hdelivery, rfl⟩
    decided := ⟨ruling, t, hdecide, rfl, rfl, rfl⟩
    presented := rfl
    supplierHandling := rfl
    throttle := by
      rw [settle, record]
      cases (ruling.decision.presented? _).map (max _) <;> rfl
    now := rfl
    nextFrame := Word.add_eq_ok_iff.1 hnext
    resync := rfl
    profile := rfl
    policy := rfl
    stalls := rfl }

/-- A frame that can be delivered is played, as far as the statistics have room for it. -/
theorem step_ok {index : Signed64} {delivery : StreamTime} {k : Nat} (hpick : s.pick = .ok index)
    (hlt : index.val < 9223372036854775807) (hdelivery : s.profile.delivery index = .ok delivery)
    (hroom : s.scheduler.statistics.Room (k + 1)) : ∃ r s', s.step = .ok (r, s') ∧ r.index = index := by
  obtain ⟨nextFrame, hnext, -⟩ := Word.add_one_ok (a := index) rfl hlt
  obtain ⟨ruling, t, hdecide, -⟩ := Scheduler.decide_ok hroom (s.profile.sample index (index ≠ s.nextFrame))
    (max (s.released index) delivery) s.policy.reply
  have hsupply : s.supply = .ok (⟨index, s.profile.sample index (index ≠ s.nextFrame), max (s.released index) delivery⟩,
      { s with
        now := max (s.released index) delivery, nextFrame, resync := (s.stallAt? index).any (·.skipMissed) }) := by
    rw [supply, hpick, Fault.ok_bind, hnext, Fault.ok_bind, hdelivery]
    rfl
  rw [step_eq, hsupply, Fault.ok_bind]
  dsimp only
  rw [hdecide]
  exact ⟨_, _, rfl, rfl⟩

/-! ### Runs -/

theorem run_concat (hr : s₀.run n = .ok (records, s)) (h : s.step = .ok (r, s')) :
    s₀.run (n + 1) = .ok (records ++ [r], s') := by
  rw [run_add, hr, Fault.ok_bind]
  simp only [run, h, Fault.ok_bind]
  rfl

/-- The last step of a run. -/
theorem run_succ (h : s₀.run (n + 1) = .ok (records, s')) :
    ∃ before s r, s₀.run n = .ok (before, s) ∧ s.step = .ok (r, s') ∧ records = before ++ [r] := by
  rw [run_add] at h
  obtain ⟨⟨before, s⟩, hbefore, h⟩ := Fault.bind_eq_ok.1 h
  obtain ⟨⟨last, s₁⟩, hlast, h⟩ := Fault.bind_eq_ok.1 h
  obtain ⟨⟨r, s₂⟩, hstep, hlast⟩ := Fault.bind_eq_ok.1 hlast
  cases hlast
  cases h
  exact ⟨before, s, r, hbefore, hstep, rfl⟩

/-- What holds before the first step and is kept by each step of a run holds at its end. -/
theorem run_invariant {P : List FrameRecord → Simulator → Prop} (h₀ : P [] s₀)
    (hstep : ∀ {n before s r s'}, s₀.run n = .ok (before, s) → P before s → s.step = .ok (r, s') → P (before ++ [r]) s')
    (h : s₀.run n = .ok (records, s)) : P records s := by
  induction n generalizing records s with
  | zero =>
    cases h
    exact h₀
  | succ n ih =>
    obtain ⟨before, t, r, hbefore, hlast, rfl⟩ := run_succ h
    exact hstep hbefore (ih hbefore) hlast

theorem length_of_run (h : s₀.run n = .ok (records, s)) : records.length = n := by
  induction n generalizing records s with
  | zero =>
    cases h
    rfl
  | succ n ih =>
    obtain ⟨before, t, r, hbefore, -, rfl⟩ := run_succ h
    rw [List.length_append, ih hbefore, List.length_singleton]

/-- What answer and paint leave as it was. -/
structure Keeps (t t' : Scheduler) : Prop where
  statistics : t'.statistics = t.statistics
  lastDraw : t'.state.lastDraw = t.state.lastDraw
  lastQuality : t'.state.lastQuality = t.state.lastQuality
  supplierHandling : t'.state.supplierHandling = t.state.supplierHandling

/-- The one decision of a step, and what answer and paint make of the scheduler that it leaves. -/
theorem Stepped.ruling (h : Stepped s r s') :
    ∃ ruling t, s.scheduler.decide r.sample r.arrival s.policy.reply = .ok (ruling, t) ∧
      r.decision = ruling.decision ∧ r.proportion = ruling.message.proportion ∧ Keeps t s'.scheduler ∧
      s'.scheduler.state.throttle = if s.policy = .acknowledge then r.proportion.delay else t.state.throttle := by
  obtain ⟨ruling, t, hdecide, hdecision, hproportion, hscheduler⟩ := h.decided
  refine ⟨ruling, t, hdecide, hdecision, hproportion, ?_, ?_⟩
  · rw [hscheduler, answered]
    split <;> cases r.presented? <;> exact ⟨rfl, rfl, rfl, rfl⟩
  · rw [hscheduler, answered]
    split <;> cases r.presented? <;> rfl

/-- Just the frames that are dropped are never painted. -/
theorem Stepped.presented?_eq_none_iff (h : Stepped s r s') : r.presented? = none ↔ r.decision = .drop := by
  rw [h.presented, Option.map_eq_none_iff]
  cases r.decision <;> simp [Decision.presented?]

theorem Stepped.room {k : Nat} (h : Stepped s r s') (hroom : s.scheduler.statistics.Room (k + 1)) :
    s'.scheduler.statistics.Room k := by
  obtain ⟨ruling, t, hdecide, -, -, hkeeps, -⟩ := h.ruling
  obtain ⟨ruling', t', hdecide', ht⟩ := Scheduler.decide_ok hroom r.sample r.arrival s.policy.reply
  obtain ⟨rfl, rfl⟩ : ruling = ruling' ∧ t = t' := by
    rw [hdecide] at hdecide'
    cases hdecide'
    exact ⟨rfl, rfl⟩
  rwa [hkeeps.statistics]

/-- Each frame takes up room for one decision. -/
theorem room_of_run {k : Nat} (h : s₀.run n = .ok (records, s)) (hroom : s₀.scheduler.statistics.Room (k + n)) :
    s.scheduler.statistics.Room k := by
  induction n generalizing records s k with
  | zero =>
    cases h
    exact hroom
  | succ n ih =>
    obtain ⟨before, t, r, hbefore, hstep, -⟩ := run_succ h
    refine (stepped hstep).room (ih hbefore ?_)
    rwa [Nat.add_right_comm, Nat.add_assoc]

/-- A step is one to three calls, of which one is a decision. -/
theorem Stepped.calls (h : Stepped s r s') :
    ∃ answers, s.scheduler.run (s.profile.calls s.policy r) = .ok (answers, s'.scheduler) ∧
      Transcript.log ((s.profile.calls s.policy r).zip answers) = [r.decided] := by
  obtain ⟨ruling, t, hdecide, hdecision, -, hscheduler⟩ := h.decided
  have hruled : s.scheduler.step (.decide r.sample r.arrival s.policy.reply) = .ok (.ruling ruling, t) := by
    rw [Scheduler.step, hdecide]
    rfl
  have hlog : r.decided = ⟨r.sample, r.arrival, ruling.decision⟩ := by rw [FrameRecord.decided, hdecision]
  rw [hlog, hscheduler, StreamProfile.calls, answered]
  split <;> cases r.presented?
  · exact ⟨_, Scheduler.run_cons hruled (Scheduler.run_cons (Scheduler.step_notify ..) rfl), rfl⟩
  · exact ⟨_, Scheduler.run_cons hruled (Scheduler.run_cons (Scheduler.step_notify ..)
      (Scheduler.run_cons (Scheduler.step_recordRender ..) rfl)), rfl⟩
  · exact ⟨_, Scheduler.run_cons hruled rfl, rfl⟩
  · exact ⟨_, Scheduler.run_cons hruled (Scheduler.run_cons (Scheduler.step_recordRender ..) rfl), rfl⟩

/-- What no step changes. -/
structure Shares (s₀ s : Simulator) : Prop where
  profile : s.profile = s₀.profile
  policy : s.policy = s₀.policy
  stalls : s.stalls = s₀.stalls

theorem shares_of_run (h : s₀.run n = .ok (records, s)) : Shares s₀ s := by
  refine run_invariant (P := fun _ s => Shares s₀ s) ⟨rfl, rfl, rfl⟩ ?_ h
  intro n before s r s' _ hs hstep
  have hstepped := stepped hstep
  exact ⟨hstepped.profile.trans hs.profile, hstepped.policy.trans hs.policy, hstepped.stalls.trans hs.stalls⟩

theorem ne_reset_of_mem_calls {p : StreamProfile} {policy : SupplierPolicy} {call : Scheduler.Call}
    (h : call ∈ records.flatMap (p.calls policy)) : call ≠ .reset := by
  rintro rfl
  obtain ⟨r, -, h⟩ := List.mem_flatMap.1 h
  rw [StreamProfile.calls] at h
  split at h <;> cases r.presented? <;> simp at h

/-- The calls of all records in turn lead a scheduler of the simulator to `t`, with the decisions of the records for
its log. -/
def Replays (s₀ : Simulator) (records : List FrameRecord) (t : Scheduler) : Prop :=
  ∃ answers, s₀.scheduler.run (records.flatMap (s₀.profile.calls s₀.policy)) = .ok (answers, t) ∧
    (Transcript.sinceReset ((records.flatMap (s₀.profile.calls s₀.policy)).zip answers)).log = records.map (·.decided)

theorem Replays.concat (h : Replays s₀ records s.scheduler) (hs : Shares s₀ s) (hstep : Stepped s r s') :
    Replays s₀ (records ++ [r]) s'.scheduler := by
  obtain ⟨answers, hcalls, hlog⟩ := h
  obtain ⟨last, hlast, hline⟩ := hstep.calls
  rw [hs.profile, hs.policy] at hlast hline
  have hlength := Scheduler.length_answers hcalls
  rw [Transcript.sinceReset_eq_self fun entry he => ne_reset_of_mem_calls (List.of_mem_zip he).1] at hlog
  refine ⟨answers ++ last, ?_, ?_⟩
  · rw [List.flatMap_append, List.flatMap_singleton, Scheduler.run_append, hcalls, Fault.ok_bind]
    dsimp only
    rw [hlast]
    rfl
  · rw [Transcript.sinceReset_eq_self fun entry he => ne_reset_of_mem_calls (List.of_mem_zip he).1,
      List.flatMap_append, List.flatMap_singleton, List.zip_append hlength.symm, Transcript.log,
      List.filterMap_append, List.map_append, List.map_singleton, ← hlog, ← hline]
    rfl

/-- **Playback**: a run of a simulator is a run of its scheduler. -/
theorem replays_of_run (h : s₀.run n = .ok (records, s)) : Replays s₀ records s.scheduler := by
  refine run_invariant (P := fun records s => Replays s₀ records s.scheduler) ⟨[], rfl, rfl⟩ ?_ h
  intro n before s r s' hbefore hreplays hstep
  exact hreplays.concat (shares_of_run hbefore) (stepped hstep)

end Simulator

end FramePacing
