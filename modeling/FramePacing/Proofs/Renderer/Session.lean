import FramePacing.Renderer
import FramePacing.Proofs.Scheduler.Bounds
import FramePacing.Proofs.Scheduler.Totality

/-!
# What a renderer does

`Renderer.Acted` lists the ways in which a call on a renderer can go, each with all that it returns, does and
leaves, and `Renderer.acted` is that there are no others. A run of calls is told as its turns, the latest first,
`Renderer.Past`: what holds at the start and is kept by each turn holds at the end, `Renderer.run_invariant`.
Nothing but the counting of decisions can make a run fault, `Renderer.run_ok`.
-/

namespace FramePacing

namespace Renderer

/-- The renderer after a paint, and what the paint does. -/
def recorded (r : Renderer) (path : RenderPath) (reportedAt : Ticks) : Effects × Renderer :=
  let outcome := r.scheduler.state.outcome path
  let state := r.scheduler.state.rendered r.scheduler.config path
  ({ events := [.render (.ofOutcome path reportedAt outcome state.renderAvg)]
     log := if !outcome.accepted && path ≠ .direct then [.renderSpike outcome.elapsed state.renderAvg] else []
     delivery? := none
     pause := outcome.throttle },
   { r with scheduler := { r.scheduler with state } })

/-- The renderer after an acknowledgement, and what that does. -/
def acknowledged (r : Renderer) (proportion : Proportion) : Effects × Renderer :=
  ({ events := [.notify { proportion, throttle := proportion.delay }]
     log := [.acknowledged proportion proportion.delay]
     delivery? := none
     pause := 0 },
   { r with scheduler := { r.scheduler with state := { r.scheduler.state with throttle := proportion.delay } } })

variable (r : Renderer) (around : Surroundings)

theorem record_eq (path : RenderPath) (reportedAt : Ticks) :
    r.record path reportedAt = .ok (r.recorded path reportedAt) := by
  rw [record, Scheduler.recordRender_eq]
  rfl

theorem notify_eq (proportion : Proportion) : r.notify proportion = .ok (r.acknowledged proportion) := by
  rw [notify, Scheduler.notify_eq]
  rfl

/-! ### One call -/

/-- How a call goes: what it returns, what it does around it, and the renderer that it leaves. -/
inductive Acted : Call → Answer → Effects → Renderer → Prop where
  | clockSet (clock? : Option ClockId) : Acted (.setClock clock?) .done .none { r with clock? }
  | overridden (sink : Option Sink) :
      Acted (.setOverride sink) .done .none { r with route := (r.route.setOverride sink).2 }
  | connected (peer : PeerId) : Acted (.connect peer) .done .none { r with route := r.route.connect peer }
  | disconnected : Acted .disconnect .done .none { r with route := r.route.disconnect }
  | refused {sample : Sample} {e : ScheduleError} (now : r.now around = .error e) :
      Acted (.shouldDraw sample) (.decision (.error e)) .none r
  | decided {sample : Sample} {t : StreamTime} {ruling : Ruling} {delivery : Delivery} {log : List LogEntry}
      {route : Route} {scheduler : Scheduler} {sequence : Unsigned64}
      (now : r.now around = .ok t)
      (sent : r.route.send around.offers ruling.message = (delivery, log, route))
      (decides : r.scheduler.decide sample t delivery.reply = .ok (ruling, scheduler))
      (counted : sequence.val = r.sequence.val + 1) :
      Acted (.shouldDraw sample) (.decision (.ok ruling.decision))
        { events := [.quality { sequence, message := ruling.message, delivered := delivery.reply.isAccepted },
            .decision (.ofState sequence sample t ruling.decision scheduler.state)]
          log := log ++ [decisionEntry sequence sample ruling.decision scheduler.state]
          delivery? := some delivery
          pause := 0 }
        { r with scheduler, route, sequence }
  | paintBegun : Acted .renderStart .done .none { r with paintStart? := some around.wallTime }
  | painted {after : Effects × Renderer}
      (recorded : after = { r with paintStart? := none }.recorded
        (.blitted (r.paintStart?.getD around.wallTime) around.wallTime) around.wallTime) :
      Acted .renderEnd .done after.1 after.2
  | paintedDirectly {sample : Sample} {after : Effects × Renderer}
      (recorded : after = { r with paintStart? := none }.recorded .direct around.wallTime) :
      Acted (.directRender sample) .done { after.1 with log := .directPaint sample.start :: after.1.log } after.2
  | notified (proportion : Proportion) :
      Acted (.notify proportion) .done (r.acknowledged proportion).1 (r.acknowledged proportion).2
  | reset : Acted .reset .done r.reset.1 r.reset.2

variable {r around} {call : Call} {answer : Answer} {effects : Effects} {r' : Renderer}

/-- A decision that is taken: the report that went out is that of the ruling, and the events tell what became of it. -/
theorem acted_decide {sample : Sample} {t : StreamTime} {decision : Decision} (hnow : r.now around = .ok t)
    (h : r.decide around sample t = .ok (decision, effects, r')) :
    Acted r around (.shouldDraw sample) (.decision (.ok decision)) effects r' := by
  obtain ⟨message, hreport, h⟩ := Fault.bind_eq_ok.1 h
  obtain ⟨⟨ruling, scheduler⟩, hdecide, h⟩ := Fault.bind_eq_ok.1 h
  obtain ⟨sequence, hsequence, h⟩ := Fault.bind_eq_ok.1 h
  cases h
  obtain ⟨hruled, hmessage, -⟩ := Scheduler.decide_eq_ok hdecide
  have hannounced := Scheduler.report_of_decide hdecide
  obtain rfl : message = ruling.message := Except.ok.inj (hreport.symm.trans hannounced)
  rw [decisionEvents, State.lastQuality_ruled hruled, State.supplierHandling_ruled hruled, ← hmessage]
  exact .decided hnow rfl hdecide (Word.add_eq_ok_iff.1 hsequence)

theorem acted (h : r.step around call = .ok (answer, effects, r')) : Acted r around call answer effects r' := by
  cases call with
  | setClock clock? =>
    cases h
    exact .clockSet clock?
  | setOverride sink =>
    cases h
    exact .overridden sink
  | connect peer =>
    cases h
    exact .connected peer
  | disconnect =>
    cases h
    exact .disconnected
  | shouldDraw sample =>
    cases hnow : r.now around with
    | error e =>
      rw [step, shouldDraw_of_now_eq_error hnow] at h
      cases h
      exact .refused hnow
    | ok t =>
      simp only [step, shouldDraw, hnow] at h
      cases hdecide : r.decide around sample t with
      | error e =>
        rw [hdecide] at h
        cases h
      | ok decided =>
        rw [hdecide] at h
        cases h
        exact acted_decide hnow hdecide
  | renderStart =>
    cases h
    exact .paintBegun
  | renderEnd =>
    simp only [step, renderEnd, record_eq] at h
    cases h
    exact .painted rfl
  | directRender sample =>
    simp only [step, directRender, record_eq] at h
    cases h
    exact .paintedDirectly rfl
  | notify proportion =>
    simp only [step, notify_eq] at h
    cases h
    exact .notified proportion
  | reset =>
    cases h
    exact .reset

/-! ### Calls that go through -/

/-- There is room for `k` more decisions. -/
def Room (r : Renderer) (k : Nat) : Prop := r.scheduler.statistics.Room k ∧ r.sequence.val + k < 2 ^ 64

theorem Room.mono {k k' : Nat} (h : r.Room k) (hk : k' ≤ k) : r.Room k' := ⟨h.1.mono hk, by have := h.2; omega⟩

theorem room_ofConfig (c : Config) {k : Nat} (hk : k < 2 ^ 64) : (ofConfig c).Room k := by
  refine ⟨Statistics.room_empty hk, ?_⟩
  change (0 : Int) + k < 2 ^ 64
  omega

/-- Below the end of its range the number of decisions can be counted on. -/
theorem sequence_ok (h : r.sequence.val + 1 < 2 ^ 64) :
    ∃ sequence, r.sequence.add 1 = .ok sequence ∧ sequence.val = r.sequence.val + 1 :=
  Word.add_one_ok rfl (show r.sequence.val < (0xffffffffffffffff : Int) by omega)

theorem decide_ok {k : Nat} (h : r.Room (k + 1)) (around : Surroundings) (sample : Sample) (t : StreamTime) :
    ∃ decision effects r', r.decide around sample t = .ok (decision, effects, r') ∧ r'.Room k := by
  obtain ⟨hroom, hsequence⟩ := h
  -- whatever the reply, the report is the same
  obtain ⟨announced, _, hannounced, -⟩ := Scheduler.decide_ok hroom sample t .accepted
  obtain ⟨ruling, scheduler, hdecide, hroom⟩ :=
    Scheduler.decide_ok hroom sample t (r.route.send around.offers announced.message).1.reply
  obtain ⟨sequence, hadd, hcount⟩ := sequence_ok (r := r) (by omega)
  rw [decide, Scheduler.report_of_decide hannounced, Fault.ok_bind]
  dsimp only
  rw [hdecide, Fault.ok_bind, hadd]
  refine ⟨_, _, _, rfl, hroom, ?_⟩
  change sequence.val + (k : Int) < 2 ^ 64
  omega

/-- A call takes up room for one decision at most. -/
theorem step_ok {k : Nat} (h : r.Room (k + 1)) (around : Surroundings) (call : Call) :
    ∃ answer effects r', r.step around call = .ok (answer, effects, r') ∧ r'.Room k := by
  have hkeep : r.Room k := h.mono (Nat.le_succ k)
  cases call with
  | setClock clock? => exact ⟨_, _, _, rfl, hkeep⟩
  | setOverride sink => exact ⟨_, _, _, rfl, hkeep⟩
  | connect peer => exact ⟨_, _, _, rfl, hkeep⟩
  | disconnect => exact ⟨_, _, _, rfl, hkeep⟩
  | shouldDraw sample =>
    cases hnow : r.now around with
    | error e =>
      rw [step, shouldDraw_of_now_eq_error hnow]
      exact ⟨_, _, _, rfl, hkeep⟩
    | ok t =>
      obtain ⟨decision, effects, r', hdecide, hroom⟩ := decide_ok h around sample t
      simp only [step, shouldDraw, hnow, hdecide]
      exact ⟨_, _, _, rfl, hroom⟩
  | renderStart => exact ⟨_, _, _, rfl, hkeep⟩
  | renderEnd =>
    rw [step, renderEnd, record_eq]
    exact ⟨_, _, _, rfl, hkeep⟩
  | directRender sample =>
    rw [step, directRender, record_eq]
    exact ⟨_, _, _, rfl, hkeep⟩
  | notify proportion =>
    rw [step, notify_eq]
    exact ⟨_, _, _, rfl, hkeep⟩
  | reset =>
    have hk := h.2
    have hlo : (0 : Int) ≤ r.sequence.val := r.sequence.lo_le
    exact ⟨_, _, _, rfl, room_ofConfig r.scheduler.config (by omega)⟩

theorem run_cons {op : Surroundings × Call} {ops : List (Surroundings × Call)} {results : List (Answer × Effects)}
    {r₁ r₂ : Renderer} (hs : r.step op.1 op.2 = .ok (answer, effects, r₁))
    (hr : r₁.run ops = .ok (results, r₂)) :
    r.run (op :: ops) = .ok ((answer, effects) :: results, r₂) := by
  rw [run, hs, Fault.ok_bind]
  dsimp only
  rw [hr]
  rfl

/-- **Totality**: calls for which there is room never fault. -/
theorem run_ok {k : Nat} (ops : List (Surroundings × Call)) (h : r.Room (k + ops.length)) :
    ∃ results r', r.run ops = .ok (results, r') ∧ r'.Room k := by
  induction ops generalizing r with
  | nil => exact ⟨[], r, rfl, h⟩
  | cons op ops ih =>
    obtain ⟨answer, effects, r₁, hstep, hroom⟩ := step_ok (k := k + ops.length) h op.1 op.2
    obtain ⟨results, r₂, hrun, hroom⟩ := ih hroom
    exact ⟨(answer, effects) :: results, r₂, run_cons hstep hrun, hroom⟩

/-- A new renderer runs through fewer than 2⁶⁴ calls. -/
theorem run_ofConfig_ok (c : Config) {ops : List (Surroundings × Call)} (h : ops.length < 2 ^ 64) :
    ∃ results r, (ofConfig c).run ops = .ok (results, r) := by
  obtain ⟨results, r, hrun, -⟩ := run_ok (k := 0) ops (room_ofConfig c (by omega))
  exact ⟨results, r, hrun⟩

/-! ### Runs -/

variable {ops : List (Surroundings × Call)} {results : List (Answer × Effects)}

theorem length_results (h : r.run ops = .ok (results, r')) : results.length = ops.length := by
  induction ops generalizing r results with
  | nil =>
    cases h
    rfl
  | cons op ops ih =>
    obtain ⟨⟨answer, effects, r₁⟩, -, h⟩ := Fault.bind_eq_ok.1 h
    obtain ⟨⟨rest, r₂⟩, hr, h⟩ := Fault.bind_eq_ok.1 h
    cases h
    exact congrArg (· + 1) (ih hr)

/-- A run up to a call, the call, and the run behind it. -/
theorem run_split {before after : List (Surroundings × Call)}
    (h : r.run (before ++ (around, call) :: after) = .ok (results, r')) :
    ∃ results₁ r₁ answer effects r₂, r.run before = .ok (results₁, r₁) ∧
      r₁.step around call = .ok (answer, effects, r₂) ∧ results[before.length]? = some (answer, effects) := by
  rw [run_append] at h
  obtain ⟨⟨results₁, r₁⟩, hbefore, h⟩ := Fault.bind_eq_ok.1 h
  obtain ⟨⟨rest, r₃⟩, hafter, h⟩ := Fault.bind_eq_ok.1 h
  obtain ⟨⟨answer, effects, r₂⟩, hstep, hafter⟩ := Fault.bind_eq_ok.1 hafter
  obtain ⟨⟨results₂, r₄⟩, -, hafter⟩ := Fault.bind_eq_ok.1 hafter
  cases hafter
  cases h
  refine ⟨results₁, r₁, answer, effects, r₂, hbefore, hstep, ?_⟩
  rw [← length_results hbefore, List.getElem?_append_right (Nat.le_refl _), Nat.sub_self]
  rfl

/-! ### The past -/

/-- One call, with what it has returned and done. -/
structure Turn where
  around : Surroundings
  call : Call
  answer : Answer
  effects : Effects

/-- The turns up to now, the latest first. -/
abbrev Past := List Turn

/-- The turns of a run, the latest first. -/
def past (ops : List (Surroundings × Call)) (results : List (Answer × Effects)) : Past :=
  ((ops.zip results).map fun (op, result) => ⟨op.1, op.2, result.1, result.2⟩).reverse

/-- What each turn keeps, a run keeps. -/
theorem run_kept {P : Past → Renderer → Prop}
    (hstep : ∀ {p r around call answer effects r'}, P p r → Acted r around call answer effects r' →
      P (⟨around, call, answer, effects⟩ :: p) r')
    {p : Past} (h₀ : P p r) (h : r.run ops = .ok (results, r')) : P (past ops results ++ p) r' := by
  induction ops generalizing r results p with
  | nil =>
    cases h
    exact h₀
  | cons op ops ih =>
    obtain ⟨⟨answer, effects, r₁⟩, hs, h⟩ := Fault.bind_eq_ok.1 h
    obtain ⟨⟨rest, r₂⟩, hr, h⟩ := Fault.bind_eq_ok.1 h
    cases h
    have hrest := ih (hstep h₀ (acted hs)) hr
    rw [past, List.zip_cons_cons, List.map_cons, List.reverse_cons, List.append_assoc]
    exact hrest

/-- A run of a new renderer: what holds at the start and is kept by each turn holds at the end. -/
theorem run_invariant {c : Config} {P : Past → Renderer → Prop} (h₀ : P [] (ofConfig c))
    (hstep : ∀ {p r around call answer effects r'}, P p r → Acted r around call answer effects r' →
      P (⟨around, call, answer, effects⟩ :: p) r')
    (h : (ofConfig c).run ops = .ok (results, r)) : P (past ops results) r := by
  have hrun := run_kept hstep h₀ h
  rwa [List.append_nil] at hrun

end Renderer

end FramePacing
