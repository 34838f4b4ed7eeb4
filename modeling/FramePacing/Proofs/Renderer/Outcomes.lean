import FramePacing.Proofs.Routing
import FramePacing.Proofs.Renderer.Session

/-!
# What is known of the outcomes of sends

A send fails with an error, or it is a success. A route remembers which, whatever is installed, connected or
disconnected until the next send, and logs the sends that fare differently from the ones before them, `Route.Logged`.
The scheduler of a renderer keeps its own record, whether the supplier handles reports. A reset clears that one and
leaves the route alone, but after every decision the two agree, `Route.outcomes_of_run`.
-/

namespace FramePacing

namespace Route

/-! ### Outcomes -/

/-- The outcomes of deliveries: the errors they have failed with, and nothing for a success. -/
def outcomes (deliveries : List Delivery) : List (Option SendError) := deliveries.map (·.reply.error?)

/-- The outcomes that differ from the one right before, which for the first of them is `first`. -/
def changes (first : Option SendError) (outcomes : List (Option SendError)) : List (Option SendError) :=
  ((outcomes.zip (first :: outcomes)).filter fun (after, before) => after ≠ before).map Prod.fst

/-- The log entry tells of an outcome: it names the error, or announces that there is none any more. -/
def Tells (entry : LogEntry) : Option SendError → Prop
  | some .disconnected => entry.level = .debug ∧ entry.message = "quality report not handled upstream" ∧
      entry.fields = [("err", .text "no quality sink is connected")]
  | some .rejected => entry.level = .debug ∧ entry.message = "quality report not handled upstream" ∧
      entry.fields = [("err", .text "the quality sink rejected the report")]
  | none => entry.level = .debug ∧ entry.message = "upstream is handling quality reports" ∧ entry.fields = []

/-- What a run leaves behind about its sends, one delivery each: the route has the latest outcome, and the log one
entry for each outcome that is not the one before, or that is a failure if it is the first. The other calls log nothing,
and leave the latest outcome as it is. -/
structure Logged (calls : List Call) (deliveries : List Delivery) (log : List LogEntry) (r : Route) : Prop where
  messages : deliveries.map (·.message) = (sends calls).map (·.message)
  lastError : r.lastError? = (outcomes deliveries).getLastD none
  told : List.Forall₂ Tells log (changes none (outcomes deliveries))
  quiet : ∀ before call after, calls = before ++ call :: after → call.send? = none →
    (empty.run (before ++ [call])).2.1 = (empty.run before).2.1 ∧
      (empty.run (before ++ [call])).2.2.lastError? = (empty.run before).2.2.lastError?

theorem changes_cons (first outcome : Option SendError) (l : List (Option SendError)) :
    changes first (outcome :: l) = (if outcome = first then [] else [outcome]) ++ changes outcome l := by
  rw [changes, List.zip_cons_cons, List.filter_cons]
  by_cases h : outcome = first <;> simp [h, changes]

/-- What a send logs. -/
theorem forall₂_change (before after : Option SendError) :
    List.Forall₂ Tells (change before after) (if after = before then [] else [after]) := by
  unfold change
  split
  · exact .nil
  · match after with
    | some .disconnected | some .rejected | none => exact .cons ⟨rfl, rfl, rfl⟩ .nil

/-! ### Runs -/

variable (r : Route)

/-- The calls that do not send leave the record of the sends alone. -/
theorem step_quiet {call : Call} (h : call.send? = none) :
    (r.step call).2.1 = [] ∧ (r.step call).2.2.lastError? = r.lastError? := by
  cases call with
  | send offers m => cases h
  | setOverride | connect | disconnect => exact ⟨rfl, rfl⟩

theorem lastError?_run (calls : List Call) :
    (r.run calls).2.2.lastError? = (outcomes (r.run calls).1).getLastD r.lastError? := by
  induction calls generalizing r with
  | nil => rfl
  | cons call calls ih =>
    cases call with
    | setOverride sink => exact ih _
    | connect peer => exact ih _
    | disconnect => exact ih _
    | send offers m =>
      change ((r.send offers m).2.2.run calls).2.2.lastError? =
        ((r.send offers m).1.reply.error? :: outcomes ((r.send offers m).2.2.run calls).1).getLastD r.lastError?
      rw [ih, lastError?_send, List.getLastD_cons]

/-- The log of a run, by the outcomes of its sends and the one that the route remembers from before. -/
theorem told_of_run (calls : List Call) :
    List.Forall₂ Tells (r.run calls).2.1 (changes r.lastError? (outcomes (r.run calls).1)) := by
  induction calls generalizing r with
  | nil => exact .nil
  | cons call calls ih =>
    cases call with
    | setOverride sink => exact ih _
    | connect peer => exact ih _
    | disconnect => exact ih _
    | send offers m =>
      have hsend := forall₂_change r.lastError? (r.send offers m).1.reply.error?
      have hrest := ih (r.send offers m).2.2
      rw [lastError?_send] at hrest
      have happend : List.Forall₂ Tells (_ ++ _) (_ ++ _) := List.rel_append hsend hrest
      rwa [← changes_cons] at happend

theorem logged_of_run (calls : List Call) :
    Logged calls (empty.run calls).1 (empty.run calls).2.1 (empty.run calls).2.2 where
  messages := messages_of_run empty calls
  lastError := lastError?_run empty calls
  told := told_of_run empty calls
  quiet := by
    rintro before call after - hsend
    obtain ⟨hlog, herror⟩ := step_quiet (empty.run before).2.2 hsend
    rw [run_concat]
    exact ⟨by rw [hlog, List.append_nil], herror⟩

/-! ### Renderers -/

theorem error?_eq_none_iff (reply : Reply) : reply.error? = none ↔ reply.isAccepted = true := by
  cases reply <;> simp [Reply.error?, Reply.isAccepted]

/-- A decision leaves the scheduler and the route with the outcome of the same send. -/
theorem supplierHandling_of_shouldDraw {r r' : Renderer} {around : Surroundings} {sample : Sample} {decision : Decision}
    {effects : Effects} (h : r.shouldDraw around sample = .ok (.ok decision, effects, r')) :
    r'.scheduler.state.supplierHandling = true ↔ r'.route.lastError? = none := by
  have hstep : r.step around (.shouldDraw sample) = .ok (.decision (.ok decision), effects, r') := by
    rw [Renderer.step, h]
    rfl
  cases Renderer.acted hstep with
  | @decided _ _ ruling delivery log route scheduler _ _ sent decides _ =>
    obtain ⟨hruled, -⟩ := Scheduler.decide_eq_ok decides
    have herror : route.lastError? = delivery.reply.error? := by
      have hsend := r.route.lastError?_send around.offers ruling.message
      rwa [sent] at hsend
    rw [State.supplierHandling_ruled hruled, herror, error?_eq_none_iff]

/-- **Outcomes of sends**: whatever is called on a new route in whatever order, the route knows the outcome of the
latest send, and the log tells of each change of the outcome once. After every decision of a renderer, its scheduler
takes the supplier to handle reports exactly if the route knows of no error. -/
theorem outcomes_of_run :
    (∀ calls, Logged calls (empty.run calls).1 (empty.run calls).2.1 (empty.run calls).2.2) ∧
      ∀ {r r' : Renderer} {around : Surroundings} {sample : Sample} {decision : Decision} {effects : Effects},
        r.shouldDraw around sample = .ok (.ok decision, effects, r') →
          (r'.scheduler.state.supplierHandling = true ↔ r'.route.lastError? = none) :=
  ⟨logged_of_run, supplierHandling_of_shouldDraw⟩

/-- A sink that rejects, twice, before it accepts, then nobody, then again a sink that accepts; and the decision of a
renderer that nobody listens to. -/
theorem outcomes_of_run_back_and_forth :
    let message : QualityMessage := ⟨.famine, .normal, 0, .ofMillis 0⟩
    let send : Call := .send (fun _ => some (.ofRule fun _ => .accepted)) message
    let calls : List Call := [.setOverride (some (.ofScript [.failed .rejected, .failed .rejected, .accepted])),
      send, .connect 7, send, send, .setOverride none, .disconnect, send, .connect 8, send, send]
    let around : Surroundings := ⟨fun _ => some (.ofMillis 90), fun _ => none, 0⟩
    let sample : Sample := ⟨.ofMillis 100, .ofMillis 140, false⟩
    let renderer : Renderer := (Renderer.ofConfig .standard).setClock (some 0)
    outcomes (empty.run calls).1 =
        [some .rejected, some .rejected, none, some .disconnected, none, none] ∧
      (empty.run calls).2.1 =
        [.reportsFail .rejected, .reportsAccepted, .reportsFail .disconnected, .reportsAccepted] ∧
      Logged calls (empty.run calls).1 (empty.run calls).2.1 (empty.run calls).2.2 ∧
      ∃ decision effects r', renderer.shouldDraw around sample = .ok (.ok decision, effects, r') ∧
        (r'.scheduler.state.supplierHandling = true ↔ r'.route.lastError? = none) := by
  intro message send calls around sample renderer
  obtain ⟨decision, effects, r', hdraw⟩ : ∃ decision effects r',
      renderer.shouldDraw around sample = .ok (.ok decision, effects, r') := ⟨_, _, _, rfl⟩
  exact ⟨rfl, rfl, outcomes_of_run.1 calls, decision, effects, r', hdraw, outcomes_of_run.2 hdraw⟩

end Route

end FramePacing
