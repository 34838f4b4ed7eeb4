import FramePacing.Timeline
import FramePacing.Proofs.Recording.RoundTrip
import FramePacing.Proofs.Word
import Mathlib.Data.List.Induction

/-!
# What a timeline shows

The entries of a timeline as they are looked up by the names of their members. An event is shown by the entries of its
kind, `Shown`, which depend on the events before it only through the time of the latest decision among them. The
timeline of a sequence of events is two titles and then what shows each event in turn, `Laid`. So it grows at its end
with every event, has as many entries as the kinds of the events ask for, and is the same for all bytes that decode to
the same events.
-/

namespace FramePacing

/-! ### Looking up members -/

/-- The value of a member, if the value is an object that has it. -/
def JsonValue.member? (name : String) : JsonValue → Option JsonValue
  | .object members => members.lookup name
  | _ => none

/-- Members under different names are looked up to the same effect in any order. -/
theorem JsonValue.lookup_perm {l l' : List (String × JsonValue)} (h : l.Perm l') (hl : (l.map Prod.fst).Nodup)
    (name : String) : l.lookup name = l'.lookup name := by
  induction h with
  | nil => rfl
  | cons m _ ih =>
    obtain ⟨mname, mvalue⟩ := m
    rw [List.lookup_cons, List.lookup_cons, ih (List.nodup_cons.1 hl).2]
  | swap m n l =>
    obtain ⟨mname, mvalue⟩ := m
    obtain ⟨nname, nvalue⟩ := n
    have hne : nname ≠ mname := fun h => (List.nodup_cons.1 hl).1 (by simp [h])
    simp only [List.lookup_cons]
    by_cases hn : name = nname
    · simp [hn, beq_false_of_ne hne]
    · simp [beq_false_of_ne hn]
  | trans h _ ih ih' => rw [ih hl, ih' ((h.map _).nodup_iff.1 hl)]

theorem JsonValue.member?_ofMembers {members : List (String × JsonValue)} (h : (members.map Prod.fst).Nodup)
    (name : String) : (ofMembers members).member? name = members.lookup name :=
  (lookup_perm (List.mergeSort_perm members _).symm h name).symm

namespace Timeline

/-! ### Entries -/

/-- An entry that gives a process of the viewer its title. -/
structure IsTitle (v : JsonValue) (process : Int) (title : String) : Prop where
  phase : v.member? "ph" = some (.text "M")
  name : v.member? "name" = some (.text "process_name")
  title : v.member? "args" = some (.ofMembers [("name", .text title)])
  process : v.member? "pid" = some (.integer process)

/-- An entry of a process that stands at a time, and the figures it carries. -/
structure IsMark (v : JsonValue) (phase name : String) (process : Int) (time : Ticks)
    (figures : List (String × JsonValue)) : Prop where
  phase : v.member? "ph" = some (.text phase)
  name : v.member? "name" = some (.text name)
  process : v.member? "pid" = some (.integer process)
  time : v.member? "ts" = some (micros time)
  figures : v.member? "args" = some (.ofMembers figures)

theorem isTitle_toJson (axis : Axis) : IsTitle (Entry.title axis).toJson axis.number axis.title := by
  have hmember : ∀ name, (Entry.title axis).toJson.member? name = _ :=
    JsonValue.member?_ofMembers (show List.Nodup ["ph", "name", "pid", "args"] by decide)
  constructor <;> rw [hmember] <;> rfl

def Scope.letter : Scope → String
  | thread => "t"
  | everywhere => "g"

def Shape.phase : Shape → String
  | instant _ _ => "i"
  | stretch _ _ => "X"
  | counter => "C"

section Mark

variable (axis : Axis) (shape : Shape) (name : String) (category : Option String) (time : Ticks)
  (figures : List (String × Figure))

/-- The members of a mark have different names, whatever its shape. -/
theorem member?_mark (key : String) :
    (Entry.mark axis shape name category time figures).toJson.member? key =
      (shape.members ++ (category.map fun c => ("cat", JsonValue.text c)).toList ++
        [("name", .text name), ("ts", micros time), ("pid", .integer axis.number),
          ("args", .ofMembers (figures.map fun (name, figure) => (name, figure.toJson)))]).lookup key := by
  apply JsonValue.member?_ofMembers
  cases shape <;> cases category
  · exact show List.Nodup ["ph", "tid", "s", "name", "ts", "pid", "args"] by decide
  · exact show List.Nodup ["ph", "tid", "s", "cat", "name", "ts", "pid", "args"] by decide
  · exact show List.Nodup ["ph", "tid", "dur", "name", "ts", "pid", "args"] by decide
  · exact show List.Nodup ["ph", "tid", "dur", "cat", "name", "ts", "pid", "args"] by decide
  · exact show List.Nodup ["ph", "name", "ts", "pid", "args"] by decide
  · exact show List.Nodup ["ph", "cat", "name", "ts", "pid", "args"] by decide

theorem isMark_toJson :
    IsMark (Entry.mark axis shape name category time figures).toJson shape.phase name axis.number time
      (figures.map fun (name, figure) => (name, figure.toJson)) := by
  constructor <;> rw [member?_mark] <;> cases shape <;> cases category <;> rfl

/-- Only stretches have a length. -/
theorem length_toJson :
    (Entry.mark axis shape name category time figures).toJson.member? "dur" =
      match shape with
      | .stretch _ length => some (micros length)
      | .instant .. | .counter => none := by
  rw [member?_mark]
  cases shape <;> cases category <;> rfl

/-- Only moments have a scope. -/
theorem scope_toJson :
    (Entry.mark axis shape name category time figures).toJson.member? "s" =
      match shape with
      | .instant _ scope => some (.text scope.letter)
      | .stretch .. | .counter => none := by
  rw [member?_mark]
  cases shape with
  | instant lane scope => cases scope <;> cases category <;> rfl
  | stretch lane length => cases category <;> rfl
  | counter => cases category <;> rfl

end Mark

/-- The entry is a stretch from one time to another, which is empty if that is past and never longer than the longest
span. -/
structure Lasts (v : JsonValue) (start stop : Ticks) : Prop where
  length : ∃ length : Ticks, v.member? "dur" = some (micros length) ∧ 0 ≤ length.val ∧
    length.val = min (max (stop.val - start.val) 0) Width.signed64.hi
  scope : v.member? "s" = none

/-- The entry is a moment, marked so far across the viewer. -/
structure IsMoment (v : JsonValue) (scope : String) : Prop where
  length : v.member? "dur" = none
  scope : v.member? "s" = some (.text scope)

theorem lasts_toJson (axis : Axis) (lane : Nat) (name : String) (category : Option String) (time start stop : Ticks)
    (figures : List (String × Figure)) :
    Lasts (Entry.mark axis (.stretch lane (max (stop.satSub start) 0)) name category time figures).toJson start
      stop := by
  refine ⟨⟨max (stop.satSub start) 0, length_toJson .., ?_⟩, scope_toJson ..⟩
  have hlo : Width.signed64.lo ≤ 0 := Width.signed64.lo_nonpos
  have hhi : 0 ≤ Width.signed64.hi := Width.signed64.hi_nonneg
  rw [Word.val_max, Word.val_satSub, Word.val_zero]
  omega

theorem isMoment_toJson (axis : Axis) (lane : Nat) (scope : Scope) (name : String) (category : Option String)
    (time : Ticks) (figures : List (String × Figure)) :
    IsMoment (Entry.mark axis (.instant lane scope) name category time figures).toJson
      scope.letter :=
  ⟨length_toJson .., scope_toJson ..⟩

/-! ### Events -/

/-- A span in whole milliseconds, truncated toward zero. -/
def millis (t : Ticks) : JsonValue := .integer (t.val.tdiv 10000)

def decisionName : Decision → String
  | .drawNow => "DrawNow"
  | .drawAt _ => "DrawAt"
  | .drop => "Drop"

def decisionFigures (e : DecisionEvent) : List (String × JsonValue) :=
  [("sequence", .integer e.sequence.val), ("sample_start_ms", millis e.sampleStart.ticks), ("late_ms", millis e.late),
    ("earliness_ms", millis e.earliness), ("wait_avg_ms", millis e.waitAvg), ("frame_avg_ms", millis e.frameAvg),
    ("render_avg_ms", millis e.renderAvg), ("normal_run", .integer e.normalRun.val)]

/-- The curve of the averages has a new value at the time of a decision. -/
def IsAverages (v : JsonValue) (e : DecisionEvent) : Prop :=
  IsMark v "C" "Averages" 0 e.now.ticks [("wait_avg_ms", millis e.waitAvg), ("render_avg_ms", millis e.renderAvg)]

def qualityName : QualityKind → String
  | .famine => "Famine"
  | .flood => "Flood"

/-- The curve of the proportion has a new value at the time of a report. -/
def IsProportion (v : JsonValue) (e : QualityEvent) : Prop :=
  IsMark v "C" "Proportion" 0 e.message.timestamp.ticks [("proportion", .integer e.message.proportion.val)]

def renderName : RenderKind → String
  | .blitted => "Blitted"
  | .direct => "DirectSurface"

/-- The entries next to each other that show an event, if the latest decision before it was taken at `latest`. A draw
that waits lasts until its time, and any other decision is a moment. A report is marked only if nobody took it.
Acknowledgements and resets, which have no time of their own, stand at `latest`. Paints are in process 1, the one of the
wall clock, and all else is in process 0, the one of the stream. -/
inductive Shown (latest : Ticks) : Event → List JsonValue → Prop
  | wait {e : DecisionEvent} {time : StreamTime} {v w : JsonValue} (hdecision : e.decision = .drawAt time)
      (hv : IsMark v "X" (decisionName e.decision) 0 e.now.ticks (decisionFigures e))
      (hlasts : Lasts v e.now.ticks time.ticks) (hw : IsAverages w e) : Shown latest (.decision e) [v, w]
  | decided {e : DecisionEvent} {v w : JsonValue} (hdecision : ∀ time, e.decision ≠ .drawAt time)
      (hv : IsMark v "i" (decisionName e.decision) 0 e.now.ticks (decisionFigures e)) (hmoment : IsMoment v "t")
      (hw : IsAverages w e) : Shown latest (.decision e) [v, w]
  | delivered {e : QualityEvent} {v : JsonValue} (hdelivered : e.delivered = true) (hv : IsProportion v e) :
      Shown latest (.quality e) [v]
  | undelivered {e : QualityEvent} {v w : JsonValue} (hdelivered : e.delivered = false) (hv : IsProportion v e)
      (hw : IsMark w "i" "QualityUndelivered" 0 e.message.timestamp.ticks
        [("sequence", .integer e.sequence.val), ("kind", .text (qualityName e.message.kind))])
      (hmoment : IsMoment w "t") : Shown latest (.quality e) [v, w]
  | render {e : RenderEvent} {v : JsonValue}
      (hv : IsMark v "X" (renderName e.kind) 1 e.start
        [("accepted", .boolean e.accepted), ("render_avg_us", micros e.renderAvg), ("throttle_us", micros e.throttle)])
      (hlasts : Lasts v e.start e.stop) : Shown latest (.render e) [v]
  | notify {e : NotifyEvent} {v : JsonValue}
      (hv : IsMark v "i" "Notify" 0 latest
        [("proportion", .integer e.proportion.val), ("throttle_us", micros e.throttle)])
      (hmoment : IsMoment v "t") : Shown latest (.notify e) [v]
  | reset {e : ResetEvent} {v : JsonValue}
      (hv : IsMark v "i" "Reset" 0 latest
        [("frames_drawn", .integer e.framesDrawn.val), ("frames_dropped", .integer e.framesDropped.val)])
      (hmoment : IsMoment v "g") : Shown latest (.reset e) [v]

theorem shown_decision (latest : Ticks) (e : DecisionEvent) :
    Shown latest (.decision e) ((ofDecision e).map Entry.toJson) := by
  obtain ⟨_, _, _, _, decision, _, _, _, _, _, _⟩ := e
  cases decision with
  | drawAt time => exact .wait rfl (isMark_toJson ..) (lasts_toJson ..) (isMark_toJson ..)
  | drawNow | drop =>
    exact .decided (by simp) (isMark_toJson ..) (isMoment_toJson ..) (isMark_toJson ..)

theorem shown_quality (latest : Ticks) (e : QualityEvent) :
    Shown latest (.quality e) ((ofQuality e).map Entry.toJson) := by
  obtain ⟨_, ⟨kind, _, _, _⟩, delivered⟩ := e
  cases delivered with
  | true => exact .delivered rfl (isMark_toJson ..)
  | false =>
    refine .undelivered rfl (isMark_toJson ..) ?_ (isMoment_toJson ..)
    cases kind <;> exact isMark_toJson ..

theorem shown_render (latest : Ticks) (e : RenderEvent) : Shown latest (.render e) [(ofRender e).toJson] := by
  obtain ⟨kind, _, _, _, _, _⟩ := e
  cases kind <;> exact .render (isMark_toJson ..) (lasts_toJson ..)

/-- An event is shown by its entries. -/
theorem shown_ofEvents (latest : Ticks) (e : Event) : Shown latest e ((ofEvents latest [e]).map Entry.toJson) := by
  cases e with
  | decision e =>
    simp only [ofEvents, List.append_nil]
    exact shown_decision latest e
  | quality e =>
    simp only [ofEvents, List.append_nil]
    exact shown_quality latest e
  | render e => exact shown_render latest e
  | notify e => exact .notify (isMark_toJson ..) (isMoment_toJson ..)
  | reset e => exact .reset (isMark_toJson ..) (isMoment_toJson ..)

/-! ### Sequences of events -/

/-- When a decision was taken. -/
def decidedAt? : Event → Option Ticks
  | .decision e => some e.now.ticks
  | _ => none

/-- When the latest decision was taken, with `t` for lack of one. -/
def latestFrom (t : Ticks) (events : List Event) : Ticks := (events.filterMap decidedAt?).getLast?.getD t

theorem latestFrom_cons (t : Ticks) (e : Event) (events : List Event) :
    latestFrom t (e :: events) = latestFrom ((decidedAt? e).getD t) events := by
  unfold latestFrom
  cases h : decidedAt? e with
  | none => rw [List.filterMap_cons_none h, Option.getD_none]
  | some s => rw [List.filterMap_cons_some h, List.getLast?_cons, Option.getD_some, Option.getD_some]

theorem ofEvents_cons (t : Ticks) (e : Event) (events : List Event) :
    ofEvents t (e :: events) = ofEvents t [e] ++ ofEvents ((decidedAt? e).getD t) events := by
  cases e <;> simp [ofEvents, decidedAt?]

/-- What shows some events depends on those before only through the latest decision. -/
theorem ofEvents_append (t : Ticks) (earlier later : List Event) :
    ofEvents t (earlier ++ later) = ofEvents t earlier ++ ofEvents (latestFrom t earlier) later := by
  -- each event hands on to the next the time of the latest decision so far
  induction earlier generalizing t with
  | nil => rfl
  | cons e earlier ih =>
    rw [List.cons_append, ofEvents_cons, ih, ofEvents_cons t e earlier, latestFrom_cons, List.append_assoc]

/-- A timeline: the titles of the two processes, and then what shows each event in turn. -/
inductive Laid : List Event → List JsonValue → Prop
  | titles {v w : JsonValue} (hv : IsTitle v 0 "stream time") (hw : IsTitle w 1 "paint (wall clock)") : Laid [] [v, w]
  | concat {events : List Event} {vs : List JsonValue} {e : Event} {shown : List JsonValue} (h : Laid events vs)
      (hshown : Shown (latestFrom 0 events) e shown) : Laid (events ++ [e]) (vs ++ shown)

theorem laid_entries (events : List Event) : Laid events ((entries events).map Entry.toJson) := by
  induction events using List.reverseRecOn with
  | nil => exact .titles (isTitle_toJson .stream) (isTitle_toJson .wall)
  | append_singleton events e ih =>
    have hconcat : (entries (events ++ [e])).map Entry.toJson =
        (entries events).map Entry.toJson ++ (ofEvents (latestFrom 0 events) [e]).map Entry.toJson := by
      simp [entries, ofEvents_append]
    rw [hconcat]
    exact .concat ih (shown_ofEvents _ e)

/-- A report that nobody took. -/
def isUndelivered : Event → Bool
  | .quality e => !e.delivered
  | _ => false

/-- How many entries the events ask for by their kinds. -/
def size (events : List Event) : Nat :=
  2 + 2 * events.countP (· matches .decision _) + events.countP (· matches .quality _) +
    events.countP isUndelivered + events.countP (· matches .render _) + events.countP (· matches .notify _) +
    events.countP (· matches .reset _)

theorem Laid.length_eq {events : List Event} {vs : List JsonValue} (h : Laid events vs) : vs.length = size events := by
  induction h with
  | titles => rfl
  | concat _ hshown ih =>
    simp only [size, List.countP_append, List.countP_singleton, List.length_append] at ih ⊢
    rw [ih]
    cases hshown <;> simp [isUndelivered, *] <;> omega

/-! ### Recordings -/

/-- The entries that are printed as the timeline of a recording. -/
def exported (bytes : List UInt8) : List JsonValue := (entries (Event.decode bytes).1).map Entry.toJson

/-- **Timelines**: the entries of a timeline are the titles of the axes and what shows each event of the recording in
turn, so their number is told by the kinds of the events. Bytes with the same events have the same timeline, and so
does the recording of these events. -/
theorem exported_of_bytes (b : List UInt8) :
    ofRecording b = (JsonValue.list (exported b)).print 0 ∧
    (∀ b', (Event.decode b').1 = (Event.decode b).1 → exported b' = exported b) ∧
    exported (Recording.ofList (Event.decode b).1).bytes = exported b ∧
    Laid (Event.decode b).1 (exported b) ∧ (exported b).length = size (Event.decode b).1 := by
  have hsame : ∀ b', (Event.decode b').1 = (Event.decode b).1 → exported b' = exported b := by
    intro b' h
    rw [exported, h, exported]
  have hlaid : Laid (Event.decode b).1 (exported b) := laid_entries _
  refine ⟨rfl, hsame, hsame _ ?_, hlaid, hlaid.length_eq⟩
  rw [Recording.decode_bytes]

end Timeline

end FramePacing
