import FramePacing.Proofs.Renderer.Session
import FramePacing.Proofs.Routing

/-!
# A renderer is a scheduler and a route

Whatever is called on a renderer, its scheduler is where a bare scheduler gets by the calls that
`Past.schedulerCalls` makes of the past: a decision for each sample that was offered at a known time, with the
reply that its report has met, a paint for each end of a paint, measured from its latest beginning, and the
acknowledgements and resets as they came. In the same way its route is where a bare route gets. No call comes to
more than one call on either, so both follow by induction on the run, `Renderer.refines_of_run`. A sample for which
there is no time leaves everything as it was, `Renderer.Refuses`.
-/

namespace FramePacing

/-- The ruling that a scheduler has answered with. -/
def Scheduler.Answer.ruling? : Scheduler.Answer → Option Ruling
  | .ruling given => some given
  | _ => none

namespace Renderer

/-! ### What the past says -/

namespace Past

/-- The clock that was attached last, if it was not detached since. -/
def clock? : Past → Option ClockId
  | [] => none
  | t :: p =>
    match t.call with
    | .setClock clock? => clock?
    | _ => clock? p

/-- When the latest paint began on the wall, if it was neither ended nor abandoned since. -/
def paintStart? : Past → Option Ticks
  | [] => none
  | t :: p =>
    match t.call with
    | .renderStart => some t.around.wallTime
    | .renderEnd | .directRender _ | .reset => none
    | _ => paintStart? p

/-- The time of the clock that is attached. -/
def now? (p : Past) (around : Surroundings) : Option StreamTime := p.clock?.bind around.streamTime?

/-- What some of the turns have to tell, in the order of the turns. -/
def collect {α : Type} (f : Turn → Option α) : Past → List α
  | [] => []
  | t :: p => collect f p ++ (f t).toList

end Past

namespace Turn

/-- The call on the scheduler that a turn comes to, after a given past. -/
def schedulerCall? (p : Past) (t : Turn) : Option Scheduler.Call :=
  match t.call with
  | .shouldDraw sample =>
    (p.now? t.around).bind fun now => t.effects.delivery?.map fun delivery => .decide sample now delivery.reply
  | .renderEnd => some (.recordRender (.blitted (p.paintStart?.getD t.around.wallTime) t.around.wallTime))
  | .directRender _ => some (.recordRender .direct)
  | .notify proportion => some (.notify proportion)
  | .reset => some .reset
  | _ => none

/-- The call on the route that a turn comes to. -/
def routeCall? (t : Turn) : Option Route.Call :=
  match t.call with
  | .setOverride sink => some (.setOverride sink)
  | .connect peer => some (.connect peer)
  | .disconnect => some .disconnect
  | .shouldDraw _ => t.effects.delivery?.map fun delivery => .send t.around.offers delivery.message
  | _ => none

/-- The decision that a turn has returned, with the report that has gone out. -/
def ruling? (t : Turn) : Option Ruling :=
  match t.answer with
  | .decision (.ok decision) => t.effects.delivery?.map fun delivery => ⟨decision, delivery.message⟩
  | _ => none

end Turn

/-- The calls on the scheduler that the past comes to. -/
def Past.schedulerCalls : Past → List Scheduler.Call
  | [] => []
  | t :: p => schedulerCalls p ++ (t.schedulerCall? p).toList

/-- A renderer on the configuration `c` is where its past leads a bare scheduler and a bare route, with the same rulings
and deliveries, and reports go out exactly with the samples that are offered at a known time. -/
structure Refines (c : Config) (p : Past) (r : Renderer) : Prop where
  scheduler : ∃ answers, (Scheduler.ofConfig c).run p.schedulerCalls = .ok (answers, r.scheduler) ∧
    answers.filterMap Scheduler.Answer.ruling? = p.collect Turn.ruling?
  route : ∃ log, Route.empty.run (p.collect Turn.routeCall?) = (p.collect (·.effects.delivery?), log, r.route)
  reported : ∀ later t earlier, p = later ++ t :: earlier →
    (t.effects.delivery?.isSome ↔ (∃ sample, t.call = .shouldDraw sample) ∧ (Past.now? earlier t.around).isSome)

/-- A sample is refused exactly for want of a clock or of a time, and then nothing changes. -/
structure Refuses (p : Past) (r : Renderer) (around : Surroundings) (sample : Sample) : Prop where
  noClock : r.shouldDraw around sample = .ok (.error .noClock, .none, r) ↔ p.clock? = none
  clockUnavailable : r.shouldDraw around sample = .ok (.error .clockUnavailable, .none, r) ↔
    ∃ clock, p.clock? = some clock ∧ around.streamTime? clock = none
  unchanged : ∀ e effects r', r.shouldDraw around sample = .ok (.error e, effects, r') →
    effects = ⟨[], [], none, 0⟩ ∧ r' = r

variable {c : Config} {p : Past} {r r' : Renderer} {around : Surroundings} {sample : Sample} {call : Call}
  {answer : Answer} {effects : Effects}

/-! ### Clock and paint -/

/-- The renderer has the clock of its past, and the beginning of a paint. -/
structure Recalls (p : Past) (r : Renderer) : Prop where
  clock : r.clock? = p.clock?
  paintStart : r.paintStart? = p.paintStart?

theorem recalls_ofConfig (c : Config) : Recalls [] (ofConfig c) := ⟨rfl, rfl⟩

theorem Recalls.acted (h : Recalls p r) (ha : Acted r around call answer effects r') :
    Recalls (⟨around, call, answer, effects⟩ :: p) r' := by
  cases ha with
  | clockSet clock? => exact ⟨rfl, h.paintStart⟩
  | paintBegun => exact ⟨h.clock, rfl⟩
  | painted recorded => subst recorded; exact ⟨h.clock, rfl⟩
  | paintedDirectly recorded => subst recorded; exact ⟨h.clock, rfl⟩
  | reset => exact ⟨h.clock, rfl⟩
  | overridden | connected | disconnected | refused | decided | notified => exact ⟨h.clock, h.paintStart⟩

theorem now_eq_noClock_iff : r.now around = .error .noClock ↔ r.clock? = none := by
  unfold now
  cases r.clock? with
  | none => simp
  | some clock => cases h : around.streamTime? clock <;> simp [h]

theorem now_eq_clockUnavailable_iff :
    r.now around = .error .clockUnavailable ↔
      ∃ clock, r.clock? = some clock ∧ around.streamTime? clock = none := by
  unfold now
  cases r.clock? with
  | none => simp
  | some clock => cases h : around.streamTime? clock <;> simp [h]

theorem now_eq_ok_iff {t : StreamTime} : r.now around = .ok t ↔ r.clock?.bind around.streamTime? = some t := by
  unfold now
  cases r.clock? with
  | none => simp
  | some clock => cases h : around.streamTime? clock <;> simp [h]

theorem Recalls.now?_eq_some (h : Recalls p r) {t : StreamTime} (hnow : r.now around = .ok t) :
    p.now? around = some t := by
  rw [Past.now?, ← h.clock, ← now_eq_ok_iff, hnow]

theorem Recalls.now?_eq_none (h : Recalls p r) {e : ScheduleError} (hnow : r.now around = .error e) :
    p.now? around = none := by
  rw [Past.now?, ← h.clock, Option.eq_none_iff_forall_ne_some]
  intro t ht
  rw [← now_eq_ok_iff, hnow] at ht
  cases ht

/-- An error is only given back where there is no time. -/
theorem shouldDraw_eq_error_iff {e : ScheduleError} :
    r.shouldDraw around sample = .ok (.error e, effects, r') ↔
      r.now around = .error e ∧ effects = .none ∧ r' = r := by
  constructor
  · intro h
    unfold shouldDraw at h
    cases hnow : r.now around with
    | error e' =>
      rw [hnow] at h
      cases h
      exact ⟨rfl, rfl, rfl⟩
    | ok t =>
      rw [hnow] at h
      obtain ⟨decided, -, h⟩ := Fault.bind_eq_ok.1 h
      cases h
  · rintro ⟨hnow, rfl, rfl⟩
    exact shouldDraw_of_now_eq_error hnow

theorem Recalls.refuses (h : Recalls p r) (around : Surroundings) (sample : Sample) : Refuses p r around sample where
  noClock := by rw [shouldDraw_eq_error_iff, now_eq_noClock_iff, h.clock]; simp
  clockUnavailable := by rw [shouldDraw_eq_error_iff, now_eq_clockUnavailable_iff, h.clock]; simp
  unchanged := by
    intro e effects r' hdraw
    exact (shouldDraw_eq_error_iff.1 hdraw).2

/-! ### Scheduler and route -/

/-- A turn is one call on the scheduler, with the same ruling, or leaves it alone. -/
theorem Recalls.scheduler_acted (h : Recalls p r) (ha : Acted r around call answer effects r') :
    match Turn.schedulerCall? p ⟨around, call, answer, effects⟩ with
    | none => r'.scheduler = r.scheduler ∧ Turn.ruling? ⟨around, call, answer, effects⟩ = none
    | some c => ∃ a, r.scheduler.step c = .ok (a, r'.scheduler) ∧
      a.ruling? = Turn.ruling? ⟨around, call, answer, effects⟩ := by
  cases ha with
  | clockSet | overridden | connected | disconnected | paintBegun => exact ⟨rfl, rfl⟩
  | @refused sample e now =>
    have hcall : Turn.schedulerCall? p ⟨around, .shouldDraw sample, .decision (.error e), .none⟩ = none := by
      simp [Turn.schedulerCall?, h.now?_eq_none now]
    rw [hcall]
    exact ⟨rfl, rfl⟩
  | @decided sample t ruling delivery log route scheduler sequence now sent decides counted =>
    have hcall : ∀ answer events log pause, Turn.schedulerCall? p
        ⟨around, .shouldDraw sample, answer, ⟨events, log, some delivery, pause⟩⟩ =
          some (.decide sample t delivery.reply) := by
      simp [Turn.schedulerCall?, h.now?_eq_some now]
    rw [hcall]
    refine ⟨.ruling ruling, ?_, ?_⟩
    · rw [Scheduler.step, decides]
      rfl
    · show some ruling = some ⟨ruling.decision, delivery.message⟩
      rw [Route.message_of_send sent]
  | painted recorded =>
    subst recorded
    simp only [Turn.schedulerCall?, ← h.paintStart]
    exact ⟨_, Scheduler.step_recordRender .., rfl⟩
  | paintedDirectly recorded =>
    subst recorded
    exact ⟨_, Scheduler.step_recordRender .., rfl⟩
  | notified proportion => exact ⟨_, Scheduler.step_notify .., rfl⟩
  | reset => exact ⟨_, rfl, rfl⟩

/-- A turn is one call on the route, with the same delivery, or leaves it alone. -/
theorem Acted.route (ha : Acted r around call answer effects r') :
    match Turn.routeCall? ⟨around, call, answer, effects⟩ with
    | none => r'.route = r.route ∧ effects.delivery? = none
    | some c => ∃ log, r.route.step c = (effects.delivery?, log, r'.route) := by
  cases ha with
  | overridden | connected | disconnected => exact ⟨_, rfl⟩
  | @decided sample t ruling delivery log route scheduler sequence now sent decides counted =>
    -- the turn only knows of the report by its delivery
    have hmessage := Route.message_of_send sent
    rw [← hmessage] at sent
    exact ⟨log, Route.step_send sent⟩
  | painted recorded => subst recorded; exact ⟨rfl, rfl⟩
  | paintedDirectly recorded => subst recorded; exact ⟨rfl, rfl⟩
  | clockSet | refused | paintBegun | notified | reset => exact ⟨rfl, rfl⟩

/-- A report goes out exactly with a sample that is offered at a known time. -/
theorem Recalls.reported (h : Recalls p r) (ha : Acted r around call answer effects r') :
    effects.delivery?.isSome ↔ (∃ sample, call = .shouldDraw sample) ∧ (p.now? around).isSome := by
  cases ha with
  | refused now => simp [h.now?_eq_none now, Effects.none]
  | decided now sent decides counted => simp [h.now?_eq_some now]
  | painted recorded => subst recorded; simp [recorded]
  | paintedDirectly recorded => subst recorded; simp [recorded]
  | clockSet | overridden | connected | disconnected | paintBegun => simp [Effects.none]
  | notified => simp [acknowledged]
  | reset => simp [Renderer.reset]

/-! ### Runs -/

theorem refines_ofConfig (c : Config) : Refines c [] (ofConfig c) where
  scheduler := ⟨[], rfl, rfl⟩
  route := ⟨[], rfl⟩
  reported := by
    intro later t earlier h
    cases later <;> cases h

/-- One turn more is at most one call more on the scheduler and one on the route. -/
theorem Refines.acted (h : Refines c p r) (hp : Recalls p r) (ha : Acted r around call answer effects r') :
    Refines c (⟨around, call, answer, effects⟩ :: p) r' where
  scheduler := by
    obtain ⟨answers, hrun, hrulings⟩ := h.scheduler
    have hstep := hp.scheduler_acted ha
    rw [Past.schedulerCalls, Past.collect, ← hrulings]
    cases hcall : Turn.schedulerCall? p ⟨around, call, answer, effects⟩ with
    | none =>
      rw [hcall] at hstep
      obtain ⟨hscheduler, hruling⟩ := hstep
      refine ⟨answers, ?_, ?_⟩
      · rw [Option.toList_none, List.append_nil, hscheduler, hrun]
      · rw [hruling, Option.toList_none, List.append_nil]
    | some c =>
      rw [hcall] at hstep
      obtain ⟨a, hstep, hruling⟩ := hstep
      refine ⟨answers ++ [a], Scheduler.run_snoc hrun hstep, ?_⟩
      rw [List.filterMap_append, ← hruling]
      cases hruled : a.ruling? <;> simp [hruled]
  route := by
    obtain ⟨log, hrun⟩ := h.route
    have hstep := ha.route
    rw [Past.collect, Past.collect]
    cases hcall : Turn.routeCall? ⟨around, call, answer, effects⟩ with
    | none =>
      rw [hcall] at hstep
      obtain ⟨hroute, hdelivery⟩ := hstep
      refine ⟨log, ?_⟩
      rw [Option.toList_none, List.append_nil, hrun, hroute, hdelivery, Option.toList_none, List.append_nil]
    | some c =>
      rw [hcall] at hstep
      obtain ⟨log', hstep⟩ := hstep
      refine ⟨log ++ log', ?_⟩
      rw [Option.toList_some, Route.run_concat, hrun]
      dsimp only
      rw [hstep]
  reported := by
    intro later t earlier hsplit
    cases later with
    | nil =>
      cases hsplit
      exact hp.reported ha
    | cons last later =>
      cases hsplit
      exact h.reported later t earlier rfl

/-- **Refinement**: a renderer runs through whatever is called on it, at the end its scheduler and its route are where
bare ones get by the calls of the past, and a sample for which there is no time changes nothing. -/
theorem refines_of_run (c : Config) (ops : List (Surroundings × Call)) :
    (ops.length < 2 ^ 64 → ∃ results r, (ofConfig c).run ops = .ok (results, r)) ∧
      ∀ results r, (ofConfig c).run ops = .ok (results, r) →
        Refines c (past ops results) r ∧ ∀ around sample, Refuses (past ops results) r around sample := by
  refine ⟨run_ofConfig_ok c, ?_⟩
  intro results r h
  obtain ⟨hrefines, hrecalls⟩ := run_invariant (P := fun p r => Refines c p r ∧ Recalls p r)
    ⟨refines_ofConfig c, recalls_ofConfig c⟩ (fun h ha => ⟨h.1.acted h.2 ha, h.2.acted ha⟩) h
  exact ⟨hrefines, hrecalls.refuses⟩

/-- Samples without a clock and on a clock that stands, a paint that is begun twice, one that is ended twice, and one
that is cut off by a reset. -/
theorem refines_of_run_brackets :
    let sample : Sample := ⟨.ofMillis 100, .ofMillis 140, false⟩
    let during (t? : Option StreamTime) (wallTime : Ticks) : Surroundings :=
      ⟨fun _ => t?, fun _ => some (.ofRule fun _ => .accepted), wallTime⟩
    let ops : List (Surroundings × Call) := [(during none 0, .shouldDraw sample),
      (during none 0, .setClock (some 0)), (during none 0, .shouldDraw sample), (during none 5, .connect 7),
      (during none 10, .renderStart), (during (some (.ofMillis 90)) 20, .shouldDraw sample),
      (during none 30, .renderStart), (during none 45, .renderEnd), (during none 60, .renderEnd),
      (during none 70, .renderStart), (during none 75, .reset), (during none 80, .renderEnd),
      (during none 90, .directRender sample), (during none 95, .notify 500)]
    ops.length < 2 ^ 64 ∧ ∃ results r, (ofConfig .standard).run ops = .ok (results, r) ∧
      (past ops results).schedulerCalls = [.decide sample (.ofMillis 90) .accepted, .recordRender (.blitted 30 45),
        .recordRender (.blitted 60 60), .reset, .recordRender (.blitted 80 80), .recordRender .direct, .notify 500] ∧
      Refines .standard (past ops results) r ∧ ∀ around sample, Refuses (past ops results) r around sample :=
  ⟨by decide, _, _, rfl, rfl, (refines_of_run .standard _).2 _ _ rfl⟩

end Renderer

end FramePacing
