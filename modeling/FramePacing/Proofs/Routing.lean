import FramePacing.Route
import Mathlib.Data.List.Induction
import Mathlib.Tactic.Common

/-!
# Where reports have gone

What has been called on a new route decides where the next report goes, and `Route.Past` says how. Reports
go to the override that was installed last. While there is none they go to the peer that was connected last,
which is asked for its sink with the first of these reports, `Route.Past.bare`, and then takes in all of them,
whatever an override has had in between. `Route.Follows` is that a route is in the state that its past
demands, and `Route.routed_of_run` what that comes to for the deliveries of a run.
-/

namespace FramePacing

namespace Sink

/-- The sink after it has received some more reports. -/
def hear (s : Sink) (l : List QualityMessage) : Sink := { s with received := s.received ++ l }

/-- The reply to the last of some more reports. -/
def replyTo (s : Sink) (l : List QualityMessage) : Reply := s.respond (s.received ++ l)

variable (s : Sink) (l : List QualityMessage) (m : QualityMessage)

@[simp] theorem hear_nil : s.hear [] = s := by rw [hear, List.append_nil]

theorem hear_hear (l' : List QualityMessage) : (s.hear l).hear l' = s.hear (l ++ l') := by
  rw [hear, hear, hear, List.append_assoc]

theorem replyTo_hear (l' : List QualityMessage) : (s.hear l).replyTo l' = s.replyTo (l ++ l') := by
  rw [replyTo, replyTo, hear, List.append_assoc]

theorem receive_hear : (s.hear l).receive m = (s.replyTo (l ++ [m]), s.hear (l ++ [m])) := by
  rw [receive, hear, hear, replyTo, List.append_assoc]

end Sink

/-- Whether a report has reached the sink of a peer. -/
def Destination.isPeer : Destination → Bool
  | .peer _ => true
  | _ => false

namespace Route

/-- A report that is sent, with the sinks that peers offer at that moment. -/
structure Send where
  offers : PeerId → Option Sink
  message : QualityMessage

/-- The report that a call sends. -/
def Call.send? : Call → Option Send
  | .send offers message => some { offers, message }
  | _ => none

/-- Whether a call connects a peer. -/
def Call.connects (peer : PeerId) : Call → Bool
  | .connect other => other = peer
  | _ => false

/-- The reports that some calls send. -/
def sends (calls : List Call) : List Send := calls.filterMap Call.send?

/-! ### What the past says -/

/-- The calls on a route, the latest first. -/
abbrev Past := List Call

namespace Past

/-- The override that was installed last, as it was at that time. -/
def installed : Past → Option Sink
  | [] => none
  | .setOverride sink :: _ => sink
  | _ :: p => installed p

/-- The reports sent since the last change of the override. -/
def heard : Past → List QualityMessage
  | [] => []
  | .setOverride _ :: _ => []
  | .send _ m :: p => heard p ++ [m]
  | _ :: p => heard p

/-- The peer that is connected. -/
def peer? : Past → Option PeerId
  | [] => none
  | .connect peer :: _ => some peer
  | .disconnect :: _ => none
  | _ :: p => peer? p

/-- The reports sent without an override since the last time a peer was connected or disconnected. -/
def bare : Past → List Send
  | [] => []
  | .connect _ :: _ => []
  | .disconnect :: _ => []
  | .setOverride _ :: p => bare p
  | .send offers m :: p => if (installed p).isSome then bare p else bare p ++ [{ offers, message := m }]

section Calls

variable (p : Past) (offers : PeerId → Option Sink) (m : QualityMessage)

@[simp] theorem installed_send : installed (.send offers m :: p) = p.installed := rfl

@[simp] theorem heard_send : heard (.send offers m :: p) = p.heard ++ [m] := rfl

@[simp] theorem peer?_send : peer? (.send offers m :: p) = p.peer? := rfl

@[simp] theorem bare_send :
    bare (.send offers m :: p) = if p.installed.isSome then p.bare else p.bare ++ [{ offers, message := m }] := rfl

end Calls

end Past

/-- The sink that a peer offers with the first of some reports, if it does. -/
def obtained? (peer : PeerId) (sends : List Send) : Option Sink := sends.head?.bind (·.offers peer)

/-- The link to a peer that some reports were meant for. -/
def linkAfter (peer? : Option PeerId) (sends : List Send) : PeerLink :=
  match peer? with
  | none => .unconnected !sends.isEmpty
  | some peer =>
    if sends.isEmpty then .unasked peer
    else .asked peer ((obtained? peer sends).map (·.hear (sends.map (·.message))))

/-- What becomes of the last of some reports that were meant for a peer. -/
def fate (peer? : Option PeerId) (sends : List Send) : Reply × Destination :=
  match peer?.bind fun peer => (obtained? peer sends).map (peer, ·) with
  | some (peer, sink) => (sink.replyTo (sends.map (·.message)), .peer peer)
  | none => (.failed .disconnected, .nowhere)

/-- The route is in the state that its past demands. -/
structure Follows (p : Past) (r : Route) : Prop where
  override : r.override? = p.installed.map (·.hear p.heard)
  link : r.link = linkAfter p.peer? p.bare

/-- A report is delivered as the past demands: to the override if there is one, and else to the sink that the
peer has offered, or nowhere if there is no such sink. The peer is asked on the first such occasion. -/
structure Delivered (p : Past) (s : Send) (d : Delivery) : Prop where
  message : d.message = s.message
  overridden : ∀ sink, p.installed = some sink →
    d.destination = .override ∧ d.reply = sink.replyTo (p.heard ++ [s.message])
  passed : p.installed = none → ∀ peer sink, p.peer? = some peer → obtained? peer (p.bare ++ [s]) = some sink →
    d.destination = .peer peer ∧ d.reply = sink.replyTo ((p.bare ++ [s]).map (·.message))
  undelivered : p.installed = none → (∀ peer, p.peer? = some peer → obtained? peer (p.bare ++ [s]) = none) →
    d.destination = .nowhere ∧ d.reply = .failed .disconnected
  asked : ∀ peer, d.asked? = some peer ↔ p.installed = none ∧ p.peer? = some peer ∧ p.bare = []

/-- What a run comes to. The reports are delivered one by one, each as the calls before it demand, to the override, to a
peer or to nobody, and the sinks at the end have received what their part of the calls has sent. No peer is asked
more often than it was connected. -/
structure Routed (calls : List Call) (deliveries : List Delivery) (r : Route) : Prop where
  follows : Follows calls.reverse r
  delivered : ∀ before s after, calls = before ++ .send s.offers s.message :: after →
    ∃ d, deliveries[(sends before).length]? = some d ∧ Delivered before.reverse s d
  messages : deliveries.map (·.message) = (sends calls).map (·.message)
  balance : (sends calls).length = Delivery.arrivals .override deliveries +
    deliveries.countP (·.destination.isPeer) + Delivery.arrivals .nowhere deliveries
  questions : ∀ peer, Delivery.questions peer deliveries ≤ calls.countP (·.connects peer)

/-! ### One call -/

section Link

variable (peer? : Option PeerId) (sends : List Send) (s : Send)

theorem question?_linkAfter (peer : PeerId) :
    (linkAfter peer? sends).question? = some peer ↔ peer? = some peer ∧ sends = [] := by
  cases peer? with
  | none => simp [linkAfter, PeerLink.question?]
  | some q => cases sends <;> simp [linkAfter, PeerLink.question?]

/-- Once it is asked, a peer is held to what it offered with the first report. -/
theorem ask_linkAfter :
    (linkAfter peer? sends).ask s.offers = peer?.elim (.unconnected true) fun peer =>
      .asked peer ((obtained? peer (sends ++ [s])).map (·.hear (sends.map (·.message)))) := by
  cases peer? with
  | none => rfl
  | some peer =>
    cases sends with
    | nil =>
      change PeerLink.asked peer (s.offers peer) = .asked peer ((s.offers peer).map (·.hear []))
      simp
    | cons first sends => rfl

/-- One more report to a peer. -/
theorem pass_ask_linkAfter :
    ((linkAfter peer? sends).ask s.offers).pass s.message =
      (fate peer? (sends ++ [s]), linkAfter peer? (sends ++ [s])) := by
  rw [ask_linkAfter]
  cases peer? with
  | none =>
    simp [linkAfter, PeerLink.pass, fate]
  | some peer =>
    cases ho : obtained? peer (sends ++ [s]) with
    | none => simp [linkAfter, PeerLink.pass, fate, ho]
    | some sink =>
      simp [linkAfter, PeerLink.pass, fate, ho, Sink.receive_hear]

end Link

variable {p : Past} {r : Route}

theorem follows_empty : Follows [] empty := ⟨rfl, rfl⟩

/-- A report to the override. The link to the peer stays. -/
theorem deliver_of_override {sink : Sink} (h : r.override? = some sink) (s : Send) :
    r.deliver s.offers s.message =
      ({ message := s.message, reply := sink.replyTo [s.message], destination := .override, asked? := none },
        { r with override? := some (sink.hear [s.message]) }) := by
  rw [deliver, h]
  rfl

/-- A report to the peer. -/
theorem deliver_of_link {peer? : Option PeerId} {sends : List Send} (h : r.override? = none)
    (hl : r.link = linkAfter peer? sends) (s : Send) :
    r.deliver s.offers s.message =
      ({ message := s.message, reply := (fate peer? (sends ++ [s])).1, destination := (fate peer? (sends ++ [s])).2,
         asked? := (linkAfter peer? sends).question? },
        { r with link := linkAfter peer? (sends ++ [s]) }) := by
  rw [deliver, h]
  dsimp only
  rw [hl, pass_ask_linkAfter]

theorem Follows.deliver (h : Follows p r) (s : Send) :
    Follows (.send s.offers s.message :: p) (r.deliver s.offers s.message).2 := by
  have hoverride := h.override
  cases hinstalled : p.installed with
  | some sink =>
    rw [hinstalled, Option.map_some] at hoverride
    rw [deliver_of_override hoverride]
    refine ⟨?_, ?_⟩
    · simp [hinstalled, Sink.hear_hear]
    · simpa [hinstalled] using h.link
  | none =>
    rw [hinstalled, Option.map_none] at hoverride
    rw [deliver_of_link hoverride h.link]
    refine ⟨?_, ?_⟩
    · simpa [hinstalled] using hoverride
    · simp [hinstalled]

theorem Follows.delivered (h : Follows p r) (s : Send) : Delivered p s (r.deliver s.offers s.message).1 := by
  have hoverride := h.override
  cases hinstalled : p.installed with
  | some sink =>
    rw [hinstalled, Option.map_some] at hoverride
    rw [deliver_of_override hoverride]
    exact {
      message := rfl
      overridden := by
        intro sink' hsink
        cases hinstalled.symm.trans hsink
        exact ⟨rfl, Sink.replyTo_hear ..⟩
      passed := fun hnone => absurd (hinstalled.symm.trans hnone) (Option.some_ne_none sink)
      undelivered := fun hnone => absurd (hinstalled.symm.trans hnone) (Option.some_ne_none sink)
      asked := by simp [hinstalled] }
  | none =>
    rw [hinstalled, Option.map_none] at hoverride
    rw [deliver_of_link hoverride h.link]
    exact {
      message := rfl
      overridden := fun sink hsink => absurd (hinstalled.symm.trans hsink) (Option.some_ne_none sink).symm
      passed := by
        intro _ peer sink hpeer hsink
        simp only [fate, hpeer, Option.bind_some, hsink, Option.map_some, and_self]
      undelivered := by
        intro _ hnone
        cases hpeer : p.peer? with
        | none => exact ⟨rfl, rfl⟩
        | some peer => simp only [fate, Option.bind_some, hnone peer hpeer, Option.map_none, and_self]
      asked := by
        intro peer
        rw [question?_linkAfter, hinstalled]
        simp }

section Send

variable {r r' : Route} {offers : PeerId → Option Sink} {message : QualityMessage} {delivery : Delivery}
  {log : List LogEntry}

/-- The report that is sent is the one that is delivered. -/
theorem message_of_send (h : r.send offers message = (delivery, log, r')) : delivery.message = message := by
  have hmessage := r.message_deliver offers message
  rwa [show (r.deliver offers message).1 = delivery from congrArg Prod.fst h] at hmessage

theorem step_send (h : r.send offers message = (delivery, log, r')) :
    r.step (.send offers message) = (some delivery, log, r') := by
  rw [step, h]

end Send

/-- Every call takes the route on along its past. -/
theorem Follows.step (h : Follows p r) (call : Call) : Follows (call :: p) (r.step call).2.2 := by
  cases call with
  | setOverride sink =>
    refine ⟨?_, h.link⟩
    cases sink with
    | none => rfl
    | some sink => exact congrArg some sink.hear_nil.symm
  | connect peer => exact ⟨h.override, rfl⟩
  | disconnect => exact ⟨h.override, rfl⟩
  | send offers m =>
    have hdeliver := h.deliver { offers, message := m }
    exact ⟨hdeliver.override, hdeliver.link⟩

/-! ### Runs -/

theorem run_concat (r : Route) (calls : List Call) (call : Call) :
    r.run (calls ++ [call]) =
      ((r.run calls).1 ++ ((r.run calls).2.2.step call).1.toList,
        (r.run calls).2.1 ++ ((r.run calls).2.2.step call).2.1, ((r.run calls).2.2.step call).2.2) := by
  rw [run_append]
  simp [run]

/-- A run leads where its calls demand. -/
theorem follows_of_run (calls : List Call) : Follows calls.reverse (empty.run calls).2.2 := by
  induction calls using List.reverseRecOn with
  | nil => exact follows_empty
  | append_singleton calls call ih =>
    rw [run_concat, List.reverse_append]
    exact ih.step call

theorem messages_of_run (r : Route) (calls : List Call) :
    (r.run calls).1.map (·.message) = (sends calls).map (·.message) := by
  induction calls generalizing r with
  | nil => rfl
  | cons call calls ih =>
    cases call with
    | send offers m =>
      change (r.deliver offers m).1.message :: ((r.send offers m).2.2.run calls).1.map (·.message) = _
      rw [ih, message_deliver]
      rfl
    | setOverride sink => exact ih _
    | connect peer => exact ih _
    | disconnect => exact ih _

/-- A report stands in the list of deliveries where it stands among the reports. -/
theorem delivery_of_run (r : Route) (before after : List Call) (s : Send) :
    (r.run (before ++ .send s.offers s.message :: after)).1[(sends before).length]? =
      some ((r.run before).2.2.deliver s.offers s.message).1 := by
  have hlength : (sends before).length = (r.run before).1.length := by
    have h := congrArg List.length (messages_of_run r before)
    rwa [List.length_map, List.length_map, eq_comm] at h
  rw [run_append, hlength]
  dsimp only
  rw [List.getElem?_append_right (Nat.le_refl _), Nat.sub_self]
  rfl

/-- Every report goes one of the three ways. -/
theorem length_eq_arrivals (l : List Delivery) :
    l.length = Delivery.arrivals .override l + l.countP (·.destination.isPeer) + Delivery.arrivals .nowhere l := by
  induction l with
  | nil => rfl
  | cons d l ih =>
    rw [List.length_cons, ih, Delivery.arrivals, Delivery.arrivals, Delivery.arrivals, Delivery.arrivals,
      List.countP_cons, List.countP_cons, List.countP_cons]
    cases d.destination <;> simp [Destination.isPeer] <;> omega

/-- Once a report has gone to a link, there is no question left to be asked. -/
theorem question?_pass_ask (link : PeerLink) (s : Send) :
    ((link.ask s.offers).pass s.message).2.question? = none := by
  cases link with
  | unconnected sought => rfl
  | unasked peer =>
    rw [PeerLink.ask]
    cases s.offers peer <;> rfl
  | asked peer sink => cases sink <;> rfl

/-- A question that is due to a peer. -/
def due (peer : PeerId) (r : Route) : Nat := if r.link.question? = some peer then 1 else 0

/-- A question is asked only if it is due, and it becomes due only by a connection. -/
theorem questions_step (r : Route) (call : Call) (peer : PeerId) :
    Delivery.questions peer (r.step call).1.toList + due peer (r.step call).2.2 ≤
      due peer r + if call.connects peer then 1 else 0 := by
  cases call with
  | setOverride sink => exact Nat.le_of_eq (Nat.zero_add _)
  | connect other =>
    change 0 + (if some other = some peer then 1 else 0) ≤ due peer r + if decide (other = peer) then 1 else 0
    simp
  | disconnect => exact Nat.zero_le _
  | send offers m =>
    change Delivery.questions peer [(r.deliver offers m).1] + due peer (r.deliver offers m).2 ≤ due peer r + 0
    rw [Delivery.questions, List.countP_singleton, deliver]
    cases r.override? with
    | some sink => exact Nat.le_of_eq (Nat.zero_add _)
    | none =>
      have hquestion := question?_pass_ask r.link { offers, message := m }
      have hdue : due peer { r with link := ((r.link.ask offers).pass m).2 } = 0 := by
        rw [due, hquestion]
        rfl
      change (if decide (r.link.question? = some peer) then 1 else 0) +
        due peer { r with link := ((r.link.ask offers).pass m).2 } ≤ _
      rw [hdue, due]
      simp

theorem questions_of_run (r : Route) (calls : List Call) (peer : PeerId) :
    Delivery.questions peer (r.run calls).1 + due peer (r.run calls).2.2 ≤
      due peer r + calls.countP (·.connects peer) := by
  induction calls generalizing r with
  | nil => exact Nat.le_of_eq (Nat.zero_add _)
  | cons call calls ih =>
    have hstep := questions_step r call peer
    have hrun := ih (r.step call).2.2
    have hsplit : Delivery.questions peer (r.run (call :: calls)).1 =
        Delivery.questions peer (r.step call).1.toList + Delivery.questions peer ((r.step call).2.2.run calls).1 :=
      List.countP_append
    rw [hsplit, List.countP_cons]
    change _ + due peer ((r.step call).2.2.run calls).2.2 ≤ _
    omega

/-- **Routing**: whatever is called on a new route in whatever order, each report goes where it is to go, and the sinks
receive those reports and no others. -/
theorem routed_of_run (calls : List Call) : Routed calls (empty.run calls).1 (empty.run calls).2.2 where
  follows := follows_of_run calls
  delivered := by
    rintro before s after rfl
    exact ⟨_, delivery_of_run empty before after s, (follows_of_run before).delivered s⟩
  messages := messages_of_run empty calls
  balance := by
    have h := congrArg List.length (messages_of_run empty calls)
    rw [List.length_map, List.length_map] at h
    rw [← h]
    exact length_eq_arrivals _
  questions := by
    intro peer
    have h := questions_of_run empty calls peer
    have hdue : due peer empty = 0 := rfl
    omega

end Route

end FramePacing
