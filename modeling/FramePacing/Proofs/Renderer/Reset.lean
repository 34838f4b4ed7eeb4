import FramePacing.Proofs.Renderer.Trace

/-!
# A renderer starts over when it is reset

Nothing that is called on a renderer touches its configuration, and a reset leaves the clock and the route and
nothing else of what has been. A run with a reset in it goes on as the run of a new renderer goes that was given the
clock and the route, whatever came before and whatever follows: `Renderer.StartsOver`.
-/

namespace FramePacing

namespace Renderer

/-- A new renderer that is given a clock and a route. -/
def given (c : Config) (clock? : Option ClockId) (route : Route) : Renderer := { ofConfig c with clock?, route }

/-- What a reset does if there is nothing to count. -/
def resetEffects : Effects where
  events := [.reset { framesDrawn := 0, framesDropped := 0 }]
  log := [.timingReset 0 0]
  delivery? := none
  pause := 0

/-- A renderer `r` to which the calls `before` have led starts over when it is reset: it becomes a new one with the
clock and the route of `r`. From there it goes through whatever follows with the results, and to the end, that the new
one has. Its trace counts decisions from one, as if it were all there is. Another reset finds nothing to undo. -/
structure StartsOver (c : Config) (before : List (Surroundings × Call)) (results : List (Answer × Effects))
    (r : Renderer) : Prop where
  leaves : r.reset.2 = given c r.clock? r.route
  goesOn : ∀ around ops, (ofConfig c).run (before ++ (around, .reset) :: ops) =
    ((given c r.clock? r.route).run ops).map fun (rest, r') => (results ++ (.done, r.reset.1) :: rest, r')
  total : ∀ ops : List (Surroundings × Call), ops.length < 2 ^ 64 →
    ∃ rest r', (given c r.clock? r.route).run ops = .ok (rest, r')
  consistent : ∀ ops rest r', (given c r.clock? r.route).run ops = .ok (rest, r') → Trace.Consistent (trace rest)
  again : ∀ around, r.reset.2.step around .reset = .ok (.done, resetEffects, r.reset.2)

variable {c : Config} {r r' : Renderer} {around : Surroundings} {call : Call} {answer : Answer} {effects : Effects}
  {ops : List (Surroundings × Call)} {results : List (Answer × Effects)}

theorem Acted.config (h : Acted r around call answer effects r') : r'.scheduler.config = r.scheduler.config := by
  cases h with
  | decided now sent decides counted =>
    obtain ⟨-, -, hconfig, -⟩ := Scheduler.decide_eq_ok decides
    exact hconfig
  | painted recorded => subst recorded; rfl
  | paintedDirectly recorded => subst recorded; rfl
  | clockSet | overridden | connected | disconnected | refused | paintBegun | notified | reset => rfl

theorem config_of_run (h : (ofConfig c).run ops = .ok (results, r)) : r.scheduler.config = c :=
  run_invariant (P := fun _ r => r.scheduler.config = c) rfl (fun hc ha => ha.config.trans hc) h

theorem reset_eq_given (h : r.scheduler.config = c) : r.reset.2 = given c r.clock? r.route := by
  subst h
  rfl

theorem room_given (c : Config) (clock? : Option ClockId) (route : Route) {k : Nat} (hk : k < 2 ^ 64) :
    (given c clock? route).Room k :=
  room_ofConfig c hk

theorem accounted_given (c : Config) (clock? : Option ClockId) (route : Route) :
    Accounted [] (given c clock? route) :=
  ⟨(accounted_ofConfig c).consistent, (accounted_ofConfig c).sequence, (accounted_ofConfig c).counts⟩

/-- Behind a reset a run goes on from a new renderer. -/
theorem run_reset {before : List (Surroundings × Call)} (h : (ofConfig c).run before = .ok (results, r))
    (around : Surroundings) (ops : List (Surroundings × Call)) :
    (ofConfig c).run (before ++ (around, .reset) :: ops) =
      ((given c r.clock? r.route).run ops).map fun (rest, r') => (results ++ (.done, r.reset.1) :: rest, r') := by
  have hstep : r.step around .reset = .ok (.done, r.reset.1, given c r.clock? r.route) := by
    rw [← reset_eq_given (config_of_run h)]
    rfl
  rw [run_append, h, Fault.ok_bind]
  dsimp only
  rw [run]
  dsimp only
  rw [hstep, Fault.ok_bind]
  dsimp only
  cases (given c r.clock? r.route).run ops <;> rfl

/-- **Resets**: a renderer runs through whatever is called on it, and starts over when it is reset then. -/
theorem startsOver_of_run (c : Config) (before : List (Surroundings × Call)) :
    (before.length < 2 ^ 64 → ∃ results r, (ofConfig c).run before = .ok (results, r)) ∧
      ∀ results r, (ofConfig c).run before = .ok (results, r) → StartsOver c before results r := by
  refine ⟨run_ofConfig_ok c, ?_⟩
  intro results r h
  have hleaves := reset_eq_given (config_of_run h)
  refine ⟨hleaves, run_reset h, ?_, ?_, ?_⟩
  · intro ops hlength
    obtain ⟨rest, r', hrun, -⟩ := run_ok (k := 0) ops (room_given c r.clock? r.route (by omega))
    exact ⟨rest, r', hrun⟩
  · intro ops rest r' hrun
    have haccounted := (accounted_given c r.clock? r.route).run hrun
    rw [List.nil_append] at haccounted
    exact haccounted.consistent
  · intro around
    rw [hleaves]
    rfl

/-- A draw and a drop whose reports the peer fails to take, an acknowledgement, and a paint that is under way. -/
theorem startsOver_of_run_under_way :
    let sample : Sample := ⟨.ofMillis 100, .ofMillis 60, false⟩
    let during (t? : Option StreamTime) (wallTime : Ticks) : Surroundings :=
      ⟨fun _ => t?, fun _ => some (.ofRule fun _ => .failed .disconnected), wallTime⟩
    let before : List (Surroundings × Call) := [(during none 0, .setClock (some 0)), (during none 0, .connect 7),
      (during (some (.ofMillis 100)) 5, .shouldDraw sample), (during none 10, .renderStart),
      (during none 90010, .renderEnd), (during (some (.ofMillis 110)) 95000, .shouldDraw sample),
      (during none 96000, .notify 500), (during none 97000, .renderStart)]
    before.length < 2 ^ 64 ∧ ∃ results r, (ofConfig .standard).run before = .ok (results, r) ∧
      r.sequence = 2 ∧ r.paintStart? = some 97000 ∧ r.route.lastError? = some .disconnected ∧
      r.scheduler.statistics.draws.dropped = 1 ∧ StartsOver .standard before results r :=
  ⟨by decide, _, _, rfl, rfl, rfl, rfl, rfl, (startsOver_of_run .standard _).2 _ _ rfl⟩

end Renderer

end FramePacing
