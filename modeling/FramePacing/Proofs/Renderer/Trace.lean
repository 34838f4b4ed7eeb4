import FramePacing.Proofs.Recording.RoundTrip
import FramePacing.Proofs.Renderer.Session
import FramePacing.Proofs.Routing
import FramePacing.Proofs.Scheduler.Counts
import Mathlib.Data.List.DropRight

/-!
# The trace accounts for everything

Each call on a renderer tells in its events what has just happened, `Renderer.Tells`: a decision tells of its
report and of itself, under one number, a paint, an acknowledgement and a reset tell of themselves, and nothing else
is told. The numbers go up from one with the decisions since the last reset, and a reset sums these up in its counts
of draws and drops, `Trace.Consistent`. So the trace of a run can be read without the run, and also from its
recording: `Renderer.traced_of_run`.
-/

namespace FramePacing

/-! ### Traces -/

/-- The decision that an event tells of. -/
def Event.decision? : Event → Option Decision
  | .decision e => some e.decision
  | _ => none

def Event.isReset : Event → Bool
  | .reset _ => true
  | _ => false

/-- An event goes on from some decisions, those since the last reset: it has the next number, or it is a reset that
counts them. -/
def Event.GoesOn (decisions : List Decision) : Event → Prop
  | .quality e => e.sequence.val = decisions.length + 1
  | .decision e => e.sequence.val = decisions.length + 1
  | .reset e =>
    e.framesDrawn.val = min (decisions.countP (·.isDraw) : Int) 4294967295 ∧
      e.framesDropped.val = min (decisions.countP (· = .drop) : Int) 4294967295
  | .render _ | .notify _ => True

namespace Trace

/-- The decisions since the last reset. -/
def decisions (events : List Event) : List Decision :=
  (events.rtakeWhile fun e => !e.isReset).filterMap Event.decision?

/-- Every event goes on from the decisions before it. -/
def Consistent (events : List Event) : Prop :=
  ∀ earlier e later, events = earlier ++ e :: later → e.GoesOn (decisions earlier)

variable {events : List Event} {e : Event}

theorem decisions_concat (events : List Event) (h : e.isReset = false) :
    decisions (events ++ [e]) = decisions events ++ e.decision?.toList := by
  unfold decisions
  rw [List.rtakeWhile_concat_pos _ _ _ (by simp [h]), List.filterMap_append]
  cases hd : e.decision? <;> simp [hd]

theorem decisions_concat_reset (events : List Event) (h : e.isReset = true) : decisions (events ++ [e]) = [] := by
  unfold decisions
  rw [List.rtakeWhile_concat_neg _ _ _ (by simp [h])]
  rfl

theorem consistent_nil : Consistent [] := by
  intro earlier e later h
  simp at h

theorem Consistent.concat (h : Consistent events) (he : e.GoesOn (decisions events)) : Consistent (events ++ [e]) := by
  intro earlier e' later hsplit
  rcases List.eq_nil_or_concat later with rfl | ⟨later, last, rfl⟩
  · obtain ⟨rfl, hlast⟩ := List.append_inj' hsplit rfl
    cases hlast
    exact he
  · rw [List.concat_eq_append, ← List.cons_append, ← List.append_assoc] at hsplit
    obtain ⟨rfl, -⟩ := List.append_inj' hsplit rfl
    exact h earlier e' later rfl

end Trace

/-- A paint is told of with the time that it is taken to have taken. -/
theorem RenderEvent.elapsed_ofOutcome (path : RenderPath) (reportedAt : Ticks) (outcome : RenderOutcome)
    (renderAvg : Ticks) : (ofOutcome path reportedAt outcome renderAvg).elapsed = path.elapsed := by
  cases path with
  | blitted start stop =>
    apply Word.ext
    show (max (stop.satSub start) 0 : Ticks).val = (max 0 (stop.satSub start) : Ticks).val
    rw [Word.val_max, Word.val_max, max_comm]
  | direct =>
    apply Word.ext
    show (max (reportedAt.satSub reportedAt) 0 : Ticks).val = 0
    rw [Word.val_max, Word.satSub, Word.val_saturate_signed64, Word.val_zero]
    omega

namespace Renderer

/-! ### What a call tells -/

/-- The two events of a decision on a sample, by which a renderer `r` has become `r'`: the report that was delivered in
this call and what became of it, and the decision with the figures that the scheduler was left with. -/
structure TellsDecision (r : Renderer) (around : Surroundings) (sample : Sample) (decision : Decision)
    (effects : Effects) (r' : Renderer) (q : QualityEvent) (d : DecisionEvent) : Prop where
  sequence : q.sequence = d.sequence
  /-- There is one delivery in a call, and the message of that one is told, whether or not it has reached anybody. -/
  report : ∃ delivery log, effects.delivery? = some delivery ∧
    r.route.send around.offers delivery.message = (delivery, log, r'.route) ∧
    q.message = delivery.message ∧ (q.delivered = true ↔ delivery.reply = .accepted)
  lastQuality : r'.scheduler.state.lastQuality = some q.message
  decision : d.decision = decision
  sampleStart : d.sampleStart = sample.start
  sampleStop : d.sampleStop = sample.stop
  now : r.now around = .ok d.now
  late : d.late = r'.scheduler.state.late
  earliness : d.earliness = r'.scheduler.state.earliness
  waitAvg : d.waitAvg = r'.scheduler.state.waitAvg
  frameAvg : d.frameAvg = r'.scheduler.state.frameAvg
  renderAvg : d.renderAvg = r'.scheduler.state.renderAvg
  normalRun : d.normalRun = r'.scheduler.state.normalRun

/-- The event of a paint, by which a scheduler `s` has become `s'`. -/
structure TellsPaint (s : Scheduler) (path : RenderPath) (s' : Scheduler) (e : RenderEvent) : Prop where
  outcome : ∃ outcome, s.recordRender path = .ok (outcome, s') ∧ e.elapsed = outcome.elapsed ∧
    e.accepted = outcome.accepted ∧ e.throttle = outcome.throttle
  renderAvg : e.renderAvg = s'.state.renderAvg

/-- The events of a call, by which a renderer `r` has become `r'`. -/
def Tells (r : Renderer) (around : Surroundings) (effects : Effects) (r' : Renderer) : Call → Answer → Prop
  | .shouldDraw sample, .decision (.ok decision) =>
    ∃ q d, effects.events = [.quality q, .decision d] ∧ TellsDecision r around sample decision effects r' q d
  | .renderEnd, _ =>
    ∃ e, effects.events = [.render e] ∧ TellsPaint r.scheduler
      (.blitted (r.paintStart?.getD around.wallTime) around.wallTime) r'.scheduler e
  | .directRender _, _ => ∃ e, effects.events = [.render e] ∧ TellsPaint r.scheduler .direct r'.scheduler e
  | .notify proportion, _ =>
    ∃ e, effects.events = [.notify e] ∧ r.scheduler.notify proportion = .ok (e.throttle, r'.scheduler) ∧
      e.proportion = proportion
  | .reset, _ => ∃ e, effects.events = [.reset e]
  | _, _ => effects.events = []

variable {c : Config} {r r' : Renderer} {around : Surroundings} {call : Call} {answer : Answer} {effects : Effects}
  {ops : List (Surroundings × Call)} {results : List (Answer × Effects)}

theorem tellsPaint_recorded (r : Renderer) (path : RenderPath) (reportedAt : Ticks) :
    ∃ e, (r.recorded path reportedAt).1.events = [.render e] ∧
      TellsPaint r.scheduler path (r.recorded path reportedAt).2.scheduler e := by
  refine ⟨_, rfl, ⟨_, Scheduler.recordRender_eq .., RenderEvent.elapsed_ofOutcome .., ?_, ?_⟩, ?_⟩
  all_goals cases path <;> rfl

theorem Acted.tells (h : Acted r around call answer effects r') : Tells r around effects r' call answer := by
  cases h with
  | @decided sample t ruling delivery log route scheduler sequence now sent decides counted =>
    refine ⟨_, _, rfl, ?_⟩
    exact {
      sequence := rfl
      report := by
        have hmessage : delivery.message = ruling.message := Route.message_of_send sent
        exact ⟨delivery, log, rfl, hmessage ▸ sent, hmessage.symm, Reply.isAccepted_iff⟩
      lastQuality := by
        obtain ⟨hruled, hmessage, -⟩ := Scheduler.decide_eq_ok decides
        rw [State.lastQuality_ruled hruled, hmessage]
      decision := rfl
      sampleStart := rfl
      sampleStop := rfl
      now := now
      late := rfl
      earliness := rfl
      waitAvg := rfl
      frameAvg := rfl
      renderAvg := rfl
      normalRun := rfl }
  | painted recorded =>
    subst recorded
    exact tellsPaint_recorded { r with paintStart? := none } _ _
  | paintedDirectly recorded =>
    subst recorded
    exact tellsPaint_recorded { r with paintStart? := none } _ _
  | notified proportion => exact ⟨_, rfl, Scheduler.notify_eq .., rfl⟩
  | reset => exact ⟨_, rfl⟩
  | clockSet | overridden | connected | disconnected | refused | paintBegun => rfl

/-! ### Runs -/

/-- The events of a run. -/
def trace (results : List (Answer × Effects)) : List Event := results.flatMap (·.2.events)

/-- A trace up to now, with the renderer at that point: its number of decisions and the counts of its scheduler are
those of the trace since the last reset. -/
structure Accounted (events : List Event) (r : Renderer) : Prop where
  consistent : Trace.Consistent events
  sequence : r.sequence.val = (Trace.decisions events).length
  counts : ∃ log, Scheduler.Counts log r.scheduler ∧ log.map (·.decision) = Trace.decisions events

variable {events : List Event} {e : Event}

theorem accounted_ofConfig (c : Config) : Accounted [] (ofConfig c) where
  consistent := Trace.consistent_nil
  sequence := rfl
  counts := ⟨[], Scheduler.counts_empty c, rfl⟩

/-- An event that is no decision and no reset leaves the numbers as they are. -/
theorem Accounted.aside (h : Accounted events r) (hdecision : e.decision? = none) (hreset : e.isReset = false)
    (he : e.GoesOn (Trace.decisions events)) (hsequence : r'.sequence = r.sequence)
    (hstatistics : r'.scheduler.statistics = r.scheduler.statistics) : Accounted (events ++ [e]) r' := by
  have hsame : Trace.decisions (events ++ [e]) = Trace.decisions events := by
    rw [Trace.decisions_concat events hreset, hdecision, Option.toList_none, List.append_nil]
  obtain ⟨log, hlog, hdecisions⟩ := h.counts
  refine ⟨h.consistent.concat he, ?_, log, ?_, ?_⟩
  · rw [hsequence, hsame, h.sequence]
  · unfold Scheduler.Counts
    rwa [hstatistics]
  · rw [hsame, hdecisions]

theorem Accounted.decided {sample : Sample} {t : StreamTime} {reply : Reply} {ruling : Ruling} {scheduler : Scheduler}
    {sequence : Unsigned64} (h : Accounted events r) (route : Route)
    (hdecide : r.scheduler.decide sample t reply = .ok (ruling, scheduler))
    (hsequence : sequence.val = r.sequence.val + 1) :
    Accounted (events ++ [.decision (.ofState sequence sample t ruling.decision scheduler.state)])
      { r with scheduler, route, sequence } := by
  obtain ⟨log, hlog, hdecisions⟩ := h.counts
  have hnumber : sequence.val = (Trace.decisions events).length + 1 := by rw [hsequence, h.sequence]
  refine ⟨h.consistent.concat hnumber, ?_, _, hlog.decide hdecide, ?_⟩
  · rw [Trace.decisions_concat events rfl, List.length_append, hnumber]
    rfl
  · rw [Trace.decisions_concat events rfl, List.map_append, hdecisions]
    rfl

/-- A reset tells the counts that it clears. -/
theorem Accounted.reset (h : Accounted events r) : Accounted (events ++ r.reset.1.events) r.reset.2 := by
  obtain ⟨log, hlog, hdecisions⟩ := h.counts
  have hdrawn := hlog.drawn
  have hdropped := hlog.dropped
  have hnone : Trace.decisions (events ++ r.reset.1.events) = [] := Trace.decisions_concat_reset events rfl
  refine ⟨h.consistent.concat ?_, ?_, [], Scheduler.counts_empty _, hnone.symm⟩
  · rw [← hdecisions]
    refine ⟨?_, ?_⟩
    · rw [List.countP_map]
      exact hdrawn
    · rw [List.countP_map]
      exact hdropped
  · rw [hnone]
    rfl

theorem Accounted.acted (h : Accounted events r) (ha : Acted r around call answer effects r') :
    Accounted (events ++ effects.events) r' := by
  cases ha with
  | clockSet | overridden | connected | disconnected | refused | paintBegun =>
    rw [show Effects.none.events = [] from rfl, List.append_nil]
    exact ⟨h.consistent, h.sequence, h.counts⟩
  | @decided sample t ruling delivery log route scheduler sequence now sent decides counted =>
    -- the report is told of first, while the renderer still counts the decisions before this one
    rw [List.append_cons]
    have hquality : Accounted (events ++ [.quality ⟨sequence, ruling.message, delivery.reply.isAccepted⟩]) r :=
      h.aside rfl rfl (by rw [Event.GoesOn, counted, h.sequence]) rfl rfl
    exact hquality.decided route decides counted
  | painted recorded =>
    subst recorded
    exact h.aside rfl rfl trivial rfl rfl
  | paintedDirectly recorded =>
    subst recorded
    exact h.aside rfl rfl trivial rfl rfl
  | notified proportion => exact h.aside rfl rfl trivial rfl rfl
  | reset => exact h.reset

theorem Accounted.run (h : Accounted events r) (hr : r.run ops = .ok (results, r')) :
    Accounted (events ++ trace results) r' := by
  induction ops generalizing events r results with
  | nil =>
    cases hr
    rw [trace, List.flatMap_nil, List.append_nil]
    exact h
  | cons op ops ih =>
    obtain ⟨⟨answer, effects, r₁⟩, hs, hr⟩ := Fault.bind_eq_ok.1 hr
    obtain ⟨⟨rest, r₂⟩, hr, he⟩ := Fault.bind_eq_ok.1 hr
    cases he
    rw [trace, List.flatMap_cons, ← List.append_assoc]
    exact ih (h.acted (Renderer.acted hs)) hr

/-- The trace of a run of a new renderer: call by call it tells what has happened and nothing else, as a whole it is
consistent, and a recording gives it back. -/
structure Traced (c : Config) (ops : List (Surroundings × Call)) (results : List (Answer × Effects)) : Prop where
  length : results.length = ops.length
  tells : ∀ before around call after, ops = before ++ (around, call) :: after →
    ∃ results₁ r₁ answer effects r₂, (ofConfig c).run before = .ok (results₁, r₁) ∧
      r₁.step around call = .ok (answer, effects, r₂) ∧ results[before.length]? = some (answer, effects) ∧
      Tells r₁ around effects r₂ call answer
  consistent : Trace.Consistent (trace results)
  recorded : Event.decode (Recording.ofList (trace results)).bytes = (trace results, [])

/-- **Traces**: a renderer runs through whatever is called on it, and the trace accounts for it. -/
theorem traced_of_run (c : Config) (ops : List (Surroundings × Call)) :
    (ops.length < 2 ^ 64 → ∃ results r, (ofConfig c).run ops = .ok (results, r)) ∧
      ∀ results r, (ofConfig c).run ops = .ok (results, r) → Traced c ops results := by
  refine ⟨run_ofConfig_ok c, ?_⟩
  intro results r h
  have haccounted := (accounted_ofConfig c).run h
  rw [List.nil_append] at haccounted
  refine ⟨length_results h, ?_, haccounted.consistent, Recording.decode_bytes _⟩
  rintro before around call after rfl
  obtain ⟨results₁, r₁, answer, effects, r₂, hbefore, hstep, hresult⟩ := run_split h
  exact ⟨results₁, r₁, answer, effects, r₂, hbefore, hstep, hresult, (acted hstep).tells⟩

/-- A draw, a paint, a drop, a sample on a clock that stands, a reset and, with nobody listening any more, one more
draw, whose report is told of all the same. -/
theorem traced_of_run_reset :
    let sample : Sample := ⟨.ofMillis 100, .ofMillis 60, false⟩
    let during (t? : Option StreamTime) (wallTime : Ticks) : Surroundings :=
      ⟨fun _ => t?, fun _ => some (.ofRule fun _ => .accepted), wallTime⟩
    let ops : List (Surroundings × Call) := [(during none 0, .setClock (some 0)), (during none 0, .connect 7),
      (during (some (.ofMillis 100)) 5, .shouldDraw sample), (during none 10, .renderStart),
      (during none 90010, .renderEnd), (during (some (.ofMillis 110)) 95000, .shouldDraw sample),
      (during none 96000, .shouldDraw sample), (during none 97000, .reset), (during none 97500, .disconnect),
      (during (some (.ofMillis 120)) 98000, .shouldDraw sample)]
    ops.length < 2 ^ 64 ∧ ∃ results r, (ofConfig .standard).run ops = .ok (results, r) ∧
      (trace results)[5]? = some (.reset ⟨1, 1⟩) ∧
      (trace results)[6]? = some (.quality ⟨1, ⟨.famine, 1000, 280000, .ofMillis 120⟩, false⟩) ∧
      Trace.decisions (trace results) = [.drawNow] ∧ Traced .standard ops results :=
  ⟨by decide, _, _, rfl, rfl, rfl, rfl, (traced_of_run .standard _).2 _ _ rfl⟩

end Renderer

end FramePacing
