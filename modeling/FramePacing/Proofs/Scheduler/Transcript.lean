import FramePacing.Proofs.Scheduler.Verdict

/-!
# Transcripts of runs

A transcript lists calls with their answers. What a scheduler knows it knows from the part since the last
reset, `Transcript.sinceReset`, and the `log` of that part has one line for each decision.
`Scheduler.run_invariant` is the induction over a run: what every call keeps true of the transcript and
the scheduler holds at the end of every run.
-/

namespace FramePacing

/-- A decision that was taken: on which sample, when, and what. -/
structure Decided where
  sample : Sample
  now : StreamTime
  decision : Decision
deriving DecidableEq, Repr

/-- The time at which the sample is presented. -/
def Decided.presented? (d : Decided) : Option StreamTime := d.decision.presented? d.now

/-- Calls with their answers, in order. -/
abbrev Transcript := List (Scheduler.Call × Scheduler.Answer)

namespace Transcript

/-- One more call. A reset starts over. -/
def add (t : Transcript) (entry : Scheduler.Call × Scheduler.Answer) : Transcript :=
  if entry.1 = .reset then [] else t ++ [entry]

/-- What was called after the last reset. -/
def sinceReset (t : Transcript) : Transcript := t.foldl add []

/-- The decision in an entry. -/
def decided? : Scheduler.Call × Scheduler.Answer → Option Decided
  | (.decide sample now _, .ruling ruling) => some ⟨sample, now, ruling.decision⟩
  | _ => none

/-- The report in an entry. -/
def message? : Scheduler.Call × Scheduler.Answer → Option QualityMessage
  | (_, .ruling ruling) => some ruling.message
  | _ => none

/-- The decisions taken. -/
def log (t : Transcript) : List Decided := t.filterMap decided?

/-- The reports sent. -/
def messages (t : Transcript) : List QualityMessage := t.filterMap message?

variable (t : Transcript)

theorem log_decide (sample : Sample) (now : StreamTime) (reply : Reply) (ruling : Ruling) :
    log (t ++ [(.decide sample now reply, .ruling ruling)]) = t.log ++ [⟨sample, now, ruling.decision⟩] := by
  rw [log, List.filterMap_append]
  rfl

theorem log_recordRender (path : RenderPath) (outcome : RenderOutcome) :
    log (t ++ [(.recordRender path, .outcome outcome)]) = t.log := by
  rw [log, List.filterMap_append]
  exact List.append_nil _

theorem log_notify (proportion : Proportion) (delay : Ticks) :
    log (t ++ [(.notify proportion, .throttle delay)]) = t.log := by
  rw [log, List.filterMap_append]
  exact List.append_nil _

theorem messages_decide (sample : Sample) (now : StreamTime) (reply : Reply) (ruling : Ruling) :
    messages (t ++ [(.decide sample now reply, .ruling ruling)]) = t.messages ++ [ruling.message] := by
  rw [messages, List.filterMap_append]
  rfl

theorem messages_recordRender (path : RenderPath) (outcome : RenderOutcome) :
    messages (t ++ [(.recordRender path, .outcome outcome)]) = t.messages := by
  rw [messages, List.filterMap_append]
  exact List.append_nil _

theorem messages_notify (proportion : Proportion) (delay : Ticks) :
    messages (t ++ [(.notify proportion, .throttle delay)]) = t.messages := by
  rw [messages, List.filterMap_append]
  exact List.append_nil _

variable {t}

theorem foldl_add_of_ne_reset (h : ∀ entry ∈ t, entry.1 ≠ .reset) (u : Transcript) : t.foldl add u = u ++ t := by
  induction t generalizing u with
  | nil => exact (List.append_nil u).symm
  | cons entry t ih =>
    rw [List.foldl_cons, ih fun e he => h e (List.mem_cons_of_mem _ he), add, if_neg (h entry List.mem_cons_self),
      List.append_assoc]
    rfl

/-- Nothing is forgotten where nothing was reset. -/
theorem sinceReset_eq_self (h : ∀ entry ∈ t, entry.1 ≠ .reset) : t.sinceReset = t :=
  foldl_add_of_ne_reset h []

end Transcript

namespace Scheduler

/-- A property of the transcript since the last reset and of the scheduler, which each of the four calls
keeps. -/
structure Kept (P : Transcript → Scheduler → Prop) : Prop where
  decide : ∀ {t s sample now reply ruling s'}, P t s → s.decide sample now reply = .ok (ruling, s') →
    P (t ++ [(.decide sample now reply, .ruling ruling)]) s'
  recordRender : ∀ {t s path outcome s'}, P t s → s.recordRender path = .ok (outcome, s') →
    P (t ++ [(.recordRender path, .outcome outcome)]) s'
  notify : ∀ {t s proportion delay s'}, P t s → s.notify proportion = .ok (delay, s') →
    P (t ++ [(.notify proportion, .throttle delay)]) s'
  reset : ∀ {t s}, P t s → P [] s.reset

variable {P : Transcript → Scheduler → Prop} {t : Transcript} {s s' : Scheduler}

theorem Kept.step {call : Call} {answer : Answer} (hP : Kept P) (h : P t s)
    (hs : s.step call = .ok (answer, s')) : P (t.add (call, answer)) s' := by
  cases call with
  | decide sample now reply =>
    obtain ⟨⟨ruling, s₁⟩, hd, hs⟩ := Fault.bind_eq_ok.1 hs
    cases hs
    exact hP.decide h hd
  | recordRender path =>
    obtain ⟨⟨outcome, s₁⟩, hd, hs⟩ := Fault.bind_eq_ok.1 hs
    cases hs
    exact hP.recordRender h hd
  | notify proportion =>
    obtain ⟨⟨delay, s₁⟩, hd, hs⟩ := Fault.bind_eq_ok.1 hs
    cases hs
    exact hP.notify h hd
  | reset =>
    cases hs
    exact hP.reset h

/-- What each call keeps, a run keeps. -/
theorem Kept.run {calls : List Call} {answers : List Answer} (hP : Kept P) (h : P t s)
    (hr : s.run calls = .ok (answers, s')) : P ((calls.zip answers).foldl Transcript.add t) s' := by
  induction calls generalizing t s answers with
  | nil => cases hr; exact h
  | cons call calls ih =>
    obtain ⟨⟨answer, s₁⟩, hs, hr⟩ := Fault.bind_eq_ok.1 hr
    obtain ⟨⟨rest, s₂⟩, hr, he⟩ := Fault.bind_eq_ok.1 hr
    cases he
    exact ih (hP.step h hs) hr

/-- A run of a new scheduler: what holds at the start and is kept holds at the end. -/
theorem run_invariant {c : Config} {calls : List Call} {answers : List Answer} (hP : Kept P)
    (h : P [] (ofConfig c)) (hr : (ofConfig c).run calls = .ok (answers, s)) :
    P (Transcript.sinceReset (calls.zip answers)) s :=
  hP.run h hr

/-- A paint and an acknowledgement change the state and leave the log as it is, so what is said of the log is kept
by them if the new state keeps it. -/
theorem Kept.of_log {Q : List Decided → Scheduler → Prop}
    (hdecide : ∀ {log s sample now reply ruling s'}, Q log s → s.decide sample now reply = .ok (ruling, s') →
      Q (log ++ [⟨sample, now, ruling.decision⟩]) s')
    (hrender : ∀ {log s} path, Q log s → Q log { s with state := s.state.rendered s.config path })
    (hnotify : ∀ {log s} (proportion : Proportion), Q log s →
      Q log { s with state := { s.state with throttle := proportion.delay } })
    (hreset : ∀ {log s}, Q log s → Q [] s.reset) : Kept fun t s => Q t.log s where
  decide := by
    intro t s sample now reply ruling s' h hd
    rw [Transcript.log_decide]
    exact hdecide h hd
  recordRender := by
    intro t s path outcome s' h hr
    rw [recordRender_eq] at hr
    cases hr
    rw [Transcript.log_recordRender]
    exact hrender path h
  notify := by
    intro t s proportion delay s' h hn
    rw [notify_eq] at hn
    cases hn
    rw [Transcript.log_notify]
    exact hnotify proportion h
  reset := hreset

/-- Every call is answered. -/
theorem length_answers {calls : List Call} {answers : List Answer} (h : s.run calls = .ok (answers, s')) :
    answers.length = calls.length := by
  induction calls generalizing s answers with
  | nil =>
    cases h
    rfl
  | cons call calls ih =>
    obtain ⟨⟨answer, s₁⟩, -, h⟩ := Fault.bind_eq_ok.1 h
    obtain ⟨⟨rest, s₂⟩, hrest, h⟩ := Fault.bind_eq_ok.1 h
    cases h
    exact congrArg (· + 1) (ih hrest)

/-! ### Turns -/

/-- A decision in the course of a run, with the scheduler before and after it. -/
structure Turn where
  before : Scheduler
  sample : Sample
  now : StreamTime
  reply : Reply
  ruling : Ruling
  after : Scheduler

/-- The decisions of a run in order. A fault ends them. -/
def turns (s : Scheduler) : List Call → List Turn
  | [] => []
  | .decide sample now reply :: calls =>
    match s.decide sample now reply with
    | .ok (ruling, s') => ⟨s, sample, now, reply, ruling, s'⟩ :: s'.turns calls
    | .error _ => []
  | call :: calls =>
    match s.step call with
    | .ok (_, s') => s'.turns calls
    | .error _ => []

variable (s) (calls : List Call)

theorem turns_recordRender (path : RenderPath) :
    s.turns (.recordRender path :: calls) =
      { s with state := s.state.rendered s.config path }.turns calls := by
  rw [turns, step_recordRender]
  · intro _ _ _ h
    cases h

theorem turns_notify (proportion : Proportion) :
    s.turns (.notify proportion :: calls) =
      { s with state := { s.state with throttle := proportion.delay } }.turns calls := by
  rw [turns, step_notify]
  · intro _ _ _ h
    cases h

theorem turns_reset : s.turns (.reset :: calls) = s.reset.turns calls := rfl

end Scheduler

end FramePacing
