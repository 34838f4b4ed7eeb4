import FramePacing.Log

/-!
# Routes

Where quality reports go. A route passes each report to an override, if one is installed, and else to
the sink of the connected peer. The peer is asked for its sink when the first report is due, and then
not again until it is connected anew. Each send yields a `Delivery`, which tells what became of the
report, and is logged if it fares differently from the send before.
-/

namespace FramePacing

/-- Something that listens to reports: a rule for its replies, and all that it has received. -/
structure Sink where
  /-- The reply to the last of the reports received. -/
  respond : List QualityMessage → Reply
  /-- The reports received, oldest first. -/
  received : List QualityMessage

namespace Sink

/-- A sink that has received nothing. -/
def ofRule (respond : List QualityMessage → Reply) : Sink := ⟨respond, []⟩

/-- A sink that goes through a list of replies, over and over. -/
def ofScript (replies : List Reply) : Sink :=
  ofRule fun received =>
    replies.getD ((received.length - 1) % replies.length) (.failed .disconnected)

/-- Takes a report and replies to it. -/
def receive (s : Sink) (m : QualityMessage) : Reply × Sink :=
  let received := s.received ++ [m]
  (s.respond received, { s with received })

end Sink

/-- The name of a supplier of frames. -/
abbrev PeerId := Nat

/-- Where a report has gone. -/
inductive Destination where
  | override
  | peer (peer : PeerId)
  | nowhere
deriving DecidableEq, Repr

/-- What became of one report. -/
structure Delivery where
  message : QualityMessage
  reply : Reply
  destination : Destination
  /-- The peer that was asked for its sink on this occasion. -/
  asked? : Option PeerId
deriving DecidableEq, Repr

/-- How often a peer was asked for its sink. -/
def Delivery.questions (peer : PeerId) (l : List Delivery) : Nat :=
  l.countP fun d => d.asked? = some peer

/-- How many reports have gone to a destination. -/
def Delivery.arrivals (destination : Destination) (l : List Delivery) : Nat :=
  l.countP fun d => d.destination = destination

/-- The far end of a route where there is no override. -/
inductive PeerLink where
  /-- No peer is connected; `sought` tells whether a report has looked for one. -/
  | unconnected (sought : Bool)
  /-- A peer that has not been asked for its sink. -/
  | unasked (peer : PeerId)
  /-- A peer that was asked, and the sink that it offered, if any. -/
  | asked (peer : PeerId) (sink : Option Sink)

namespace PeerLink

/-- The peer that the next report has to be preceded by a question to. -/
def question? : PeerLink → Option PeerId
  | unasked peer => some peer
  | _ => none

/-- Asks the peer for its sink, unless that is done. -/
def ask (offers : PeerId → Option Sink) : PeerLink → PeerLink
  | unconnected _ => unconnected true
  | unasked peer => asked peer (offers peer)
  | asked peer sink => asked peer sink

/-- Passes a report to the sink of the peer. -/
def pass (m : QualityMessage) : PeerLink → (Reply × Destination) × PeerLink
  | asked peer (some sink) =>
    let (reply, sink) := sink.receive m
    ((reply, .peer peer), asked peer (some sink))
  | link => ((.failed .disconnected, .nowhere), link)

def isConnected : PeerLink → Bool
  | unconnected _ => false
  | _ => true

def isSettled : PeerLink → Bool
  | unconnected sought => sought
  | unasked _ => false
  | asked .. => true

end PeerLink

/-- Where reports go. -/
structure Route where
  override? : Option Sink
  link : PeerLink
  /-- How the latest send has failed, unless it was a success. -/
  lastError? : Option SendError

namespace Route

/-- A route that leads nowhere. -/
def empty : Route := ⟨none, .unconnected false, none⟩

/-- Installs an override, or removes it, and returns the one before. -/
def setOverride (r : Route) (sink : Option Sink) : Option Sink × Route :=
  (r.override?, { r with override? := sink })

/-- Connects a peer and forgets the sink of the one before. -/
def connect (r : Route) (peer : PeerId) : Route := { r with link := .unasked peer }

/-- Disconnects the peer. -/
def disconnect (r : Route) : Route := { r with link := .unconnected false }

/-- Brings a report to where it goes. A peer that has to be asked for its sink gives the one that it
`offers`. -/
def deliver (r : Route) (offers : PeerId → Option Sink) (m : QualityMessage) : Delivery × Route :=
  match r.override? with
  | some sink =>
    let (reply, sink) := sink.receive m
    ({ message := m, reply, destination := .override, asked? := none },
      { r with override? := some sink })
  | none =>
    let ((reply, destination), link) := (r.link.ask offers).pass m
    ({ message := m, reply, destination, asked? := r.link.question? }, { r with link })

/-- What is logged when sends come to end in another way than before. -/
def change (before after : Option SendError) : List LogEntry :=
  if after = before then []
  else match after with
    | some error => [.reportsFail error]
    | none => [.reportsAccepted]

theorem change_eq_nil_iff {before after : Option SendError} :
    change before after = [] ↔ after = before := by
  simp only [change]
  split
  · simp_all
  · split <;> simp_all

/-- Sends a report and takes note of how that went. -/
def send (r : Route) (offers : PeerId → Option Sink) (m : QualityMessage) :
    Delivery × List LogEntry × Route :=
  let (delivery, r') := r.deliver offers m
  let error := delivery.reply.error?
  (delivery, change r.lastError? error, { r' with lastError? := error })

@[simp] theorem lastError?_send (r : Route) (offers : PeerId → Option Sink) (m : QualityMessage) :
    (r.send offers m).2.2.lastError? = (r.send offers m).1.reply.error? := rfl

@[simp] theorem message_deliver (r : Route) (offers : PeerId → Option Sink) (m : QualityMessage) :
    (r.deliver offers m).1.message = m := by
  simp only [deliver]; split <;> rfl

/-! ### Runs -/

/-- An operation on a route. -/
inductive Call where
  | setOverride (sink : Option Sink)
  | connect (peer : PeerId)
  | disconnect
  /-- A send, with the sinks that peers offer at that moment. -/
  | send (offers : PeerId → Option Sink) (m : QualityMessage)

/-- Runs one operation, which yields a delivery if it is a send, and may log. -/
def step (r : Route) : Call → Option Delivery × List LogEntry × Route
  | .setOverride sink => (none, [], (r.setOverride sink).2)
  | .connect peer => (none, [], r.connect peer)
  | .disconnect => (none, [], r.disconnect)
  | .send offers m =>
    let (delivery, log, r) := r.send offers m
    (some delivery, log, r)

/-- Runs operations one after the other and collects the deliveries and the log. -/
def run (r : Route) : List Call → List Delivery × List LogEntry × Route
  | [] => ([], [], r)
  | call :: calls =>
    let (delivery?, log, r) := r.step call
    let (deliveries, logs, r) := r.run calls
    (delivery?.toList ++ deliveries, log ++ logs, r)

theorem run_append (r : Route) (l l' : List Call) :
    r.run (l ++ l') =
      ((r.run l).1 ++ ((r.run l).2.2.run l').1, (r.run l).2.1 ++ ((r.run l).2.2.run l').2.1,
        ((r.run l).2.2.run l').2.2) := by
  induction l generalizing r with
  | nil => rfl
  | cons call l ih => simp [run, ih, List.append_assoc]

/-! ### Text -/

/-- The name of an error. -/
def errorName : SendError → String
  | .disconnected => "Disconnected"
  | .rejected => "Rejected"

instance : ToString Route where
  toString r :=
    let lastError := match r.lastError? with
      | none => "None"
      | some error => "Some(" ++ errorName error ++ ")"
    let hasOverride := r.override?.isSome
    let hasPeer := r.link.isConnected
    let peerQueried := r.link.isSettled
    s!"QualityRoute \x7b has_override: {hasOverride}, has_peer: {hasPeer}, " ++
      s!"peer_queried: {peerQueried}, last_error: {lastError}, .. \x7d"

end Route

end FramePacing
