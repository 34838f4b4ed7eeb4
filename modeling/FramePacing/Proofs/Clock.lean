import FramePacing.Clock
import FramePacing.Proofs.Word

/-!
# Clocks that are shared

Handles go back to the one with which their clock was created, `Clocks.Past.origin`, and those with the same origin
form a group. A group shows one clock, to which everything was told that was told to any of its handles, and what is
told to others does not matter to it: `Clocks.Moment.Apart`.

The time of a group is meant to be its *story*: it was set and moved in this order, and a move past the end of the axis
stops there. So says the time that an advance returns. The time on the clock goes round at the end instead, so the
clocks keep to their stories, `Clocks.Moment.Faithful`, exactly as long as no move leads past the end of the axis,
`Clocks.faithful_iff_fits`.
-/

namespace FramePacing

namespace ManualClock

/-- The time after an operation, if moves stop at the end of the axis. -/
def Call.move (t : StreamTime) : Call → StreamTime
  | .set t' => t'
  | .advance span => t + span
  | .pause | .resume => t

/-- Whether the clock runs after an operation. -/
def Call.switch (running : Bool) : Call → Bool
  | .pause => false
  | .resume => true
  | .set _ | .advance _ => running

/-- An operation on a clock that shows `t` leads no further than the axis. -/
def Call.Fits (t : StreamTime) : Call → Prop
  | .advance span => -9223372036854775808 ≤ t.ticks.val + span.val ∧ t.ticks.val + span.val ≤ 9223372036854775807
  | .set _ | .pause | .resume => True

instance (t : StreamTime) (call : Call) : Decidable (call.Fits t) :=
  match call with
  | .advance _ => inferInstanceAs (Decidable (_ ∧ _))
  | .set _ | .pause | .resume => inferInstanceAs (Decidable True)

variable {c : ManualClock} {call : Call}

theorem running_step (c : ManualClock) (call : Call) : (c.step call).2.running = call.switch c.running := by
  cases call <;> rfl

/-- A move leads where it should exactly if it stays on the axis. -/
theorem advance_eq_iff (c : ManualClock) (span : Ticks) :
    (c.advance span).2.now = c.now + span ↔ (Call.advance span).Fits c.now := by
  refine Iff.trans ?_ (Word.wrapAdd_eq_satAdd_iff c.now.ticks span)
  exact iff_of_eq (StreamTime.mk.injEq ..)

theorem now_step_iff : (c.step call).2.now = call.move c.now ↔ call.Fits c.now := by
  cases call with
  | set t => exact iff_of_true rfl trivial
  | advance span => exact c.advance_eq_iff span
  | pause => exact iff_of_true rfl trivial
  | resume => exact iff_of_true rfl trivial

/-- Stopping at the end of the axis, a move onward does not lead back. -/
theorem le_add_of_nonneg {t : StreamTime} {span : Ticks} (h : 0 ≤ span.val) : t ≤ t + span := by
  have ht := Word.signed64_range t.ticks
  rw [StreamTime.le_iff, StreamTime.val_add]
  omega

end ManualClock

namespace Clocks

/-- No handles. -/
def empty : Clocks := ⟨[], []⟩

/-! ### What the past says -/

/-- The calls so far, the latest first. -/
abbrev Past := List Call

namespace Past

/-- How many handles there are. -/
def handles : Past → Nat
  | [] => 0
  | .tell .. :: p => handles p
  | .share _ :: p | .create _ :: p => handles p + 1

/-- The handle with which the clock was created that a handle stands for. -/
def origin : Past → Nat → Nat
  | [], h => h
  | .tell .. :: p, h => origin p h
  | .share h' :: p, h => if h = handles p then origin p h' else origin p h
  | .create _ :: p, h => if h = handles p then h else origin p h

/-- What has come of the clock that was created with the handle `o`, by a rule for each operation on the clock. -/
def along {α : Type} (first : StreamTime → α) (next : α → ManualClock.Call → α) : Past → Nat → α
  | [], _ => first .origin
  | .tell h call :: p, o => if origin p h = o then next (along first next p o) call else along first next p o
  | .share _ :: p, o => along first next p o
  | .create t :: p, o => if o = handles p then first t else along first next p o

/-- The time that a handle should show: what its group was set to and moved by, in order. -/
def story (p : Past) (h : Nat) : StreamTime := along id ManualClock.Call.move p (origin p h)

/-- Whether the clock of a handle runs: the group was resumed last, or never paused. -/
def runs (p : Past) (h : Nat) : Bool := along (fun _ => true) ManualClock.Call.switch p (origin p h)

/-- The clock of a handle: one that was told everything that its group was told. -/
def clock (p : Past) (h : Nat) : ManualClock :=
  along .startingAt (fun clock call => (clock.step call).2) p (origin p h)

/-- The clocks show their stories. -/
def Punctual (p : Past) : Prop := ∀ h, (p.clock h).now = p.story h

end Past

/-- A call leads the story of no group past the end of the axis. -/
def Call.Fits (p : Past) : Call → Prop
  | .tell h call => call.Fits (p.story h)
  | .share _ | .create _ => True

instance (p : Past) (call : Call) : Decidable (call.Fits p) :=
  match call with
  | .tell h call => inferInstanceAs (Decidable (call.Fits (p.story h)))
  | .share _ | .create _ => inferInstanceAs (Decidable True)

/-- The handle that a call is made to exists. -/
def Call.named (p : Past) : Call → Bool
  | .tell h _ | .share h => h < p.handles
  | .create _ => true

/-- All calls are made to handles that exist by then. -/
def named (p : Past) : List Call → Bool
  | [] => true
  | call :: calls => call.named p && named (call :: p) calls

/-- One call in the course of a run, with the clocks before and after it. -/
structure Moment where
  past : Past
  before : Clocks
  call : Call
  answer : Answer
  after : Clocks

/-- The calls of a run in order. A call to a handle that does not exist ends them. -/
def moments (p : Past) (b : Clocks) : List Call → List Moment
  | [] => []
  | call :: calls =>
    match b.step call with
    | some (answer, b') => ⟨p, b, call, answer, b'⟩ :: moments (call :: p) b' calls
    | none => []

namespace Moment

/-- A group is apart: all its handles show the one clock that was told what the group was told, which reports its time
while it runs, and a call to another group leaves it alone. -/
structure Apart (m : Moment) : Prop where
  told : ∀ h < Past.handles (m.call :: m.past), m.after.get? h = some (Past.clock (m.call :: m.past) h)
  streamTime : ∀ h clock, m.after.get? h = some clock →
    clock.streamTime? = if Past.runs (m.call :: m.past) h then some clock.now else none
  others : ∀ h < m.past.handles, (∀ h' call, m.call = .tell h' call → m.past.origin h' ≠ m.past.origin h) →
    m.after.get? h = m.before.get? h

/-- The clocks keep to their stories: each shows its own, an advance returns the time that its group shows from then on,
and an advance by a span that is not negative never leads back. -/
structure Faithful (m : Moment) : Prop where
  story : ∀ h clock, m.after.get? h = some clock → clock.now = Past.story (m.call :: m.past) h
  returned : ∀ h' span, m.call = .tell h' (.advance span) → ∀ h clock, m.past.origin h = m.past.origin h' →
    m.after.get? h = some clock → m.answer = .time clock.now
  onward : ∀ h' span, m.call = .tell h' (.advance span) → 0 ≤ span.val → ∀ h old new,
    m.past.origin h = m.past.origin h' → m.before.get? h = some old → m.after.get? h = some new → old.now ≤ new.now

/-- The call leads no story past the end of the axis. -/
def Fits (m : Moment) : Prop := m.call.Fits m.past

instance (m : Moment) : Decidable m.Fits := inferInstanceAs (Decidable (m.call.Fits m.past))

end Moment

/-! ### Groups -/

namespace Past

variable {p : Past} {h h' : Nat}

/-- What is told alike comes out alike. -/
theorem along_map {α β : Type} {first : StreamTime → α} {next : α → ManualClock.Call → α} {first' : StreamTime → β}
    {next' : β → ManualClock.Call → β} (g : α → β) (hfirst : ∀ t, g (first t) = first' t)
    (hnext : ∀ a call, g (next a call) = next' (g a) call) (p : Past) (o : Nat) :
    g (along first next p o) = along first' next' p o := by
  induction p with
  | nil => exact hfirst _
  | cons call p ih =>
    cases call with
    | tell h call =>
      rw [along, along]
      split
      · rw [hnext, ih]
      · exact ih
    | share h => exact ih
    | create t =>
      rw [along, along]
      split
      · exact hfirst t
      · exact ih

theorem running_clock (p : Past) (h : Nat) : (p.clock h).running = p.runs h :=
  along_map ManualClock.running (fun _ => rfl) ManualClock.running_step p _

theorem clock_congr (ho : p.origin h = p.origin h') : p.clock h = p.clock h' := by rw [clock, clock, ho]

theorem story_congr (ho : p.origin h = p.origin h') : p.story h = p.story h' := by rw [story, story, ho]

theorem clock_tell (call : ManualClock.Call) (ho : p.origin h' = p.origin h) :
    clock (.tell h' call :: p) h = ((p.clock h').step call).2 := by
  rw [clock_congr ho]
  exact if_pos ho

theorem clock_tell_of_ne (call : ManualClock.Call) (ho : p.origin h' ≠ p.origin h) :
    clock (.tell h' call :: p) h = p.clock h :=
  if_neg ho

theorem story_tell (call : ManualClock.Call) (ho : p.origin h' = p.origin h) :
    story (.tell h' call :: p) h = call.move (p.story h') := by
  rw [story_congr ho]
  exact if_pos ho

theorem story_tell_of_ne (call : ManualClock.Call) (ho : p.origin h' ≠ p.origin h) :
    story (.tell h' call :: p) h = p.story h :=
  if_neg ho

theorem origin_share_of_ne (hh : h ≠ p.handles) : origin (.share h' :: p) h = p.origin h := if_neg hh

theorem origin_share_last : origin (.share h' :: p) p.handles = p.origin h' := if_pos rfl

theorem origin_create_of_ne (t : StreamTime) (hh : h ≠ p.handles) : origin (.create t :: p) h = p.origin h :=
  if_neg hh

theorem origin_create_last (t : StreamTime) : origin (.create t :: p) p.handles = p.handles := if_pos rfl

/-- The clocks show their stories as long as what they are told leads no further than the axis. -/
theorem Punctual.cons (hp : p.Punctual) {call : Call} (hcall : call.Fits p) : Punctual (call :: p) := by
  intro h
  cases call with
  | tell h' c =>
    by_cases ho : p.origin h' = p.origin h
    · rw [clock_tell c ho, story_tell c ho, ← hp h']
      exact ManualClock.now_step_iff.2 (hp h' ▸ hcall)
    · rw [clock_tell_of_ne c ho, story_tell_of_ne c ho]
      exact hp h
  | share h' =>
    by_cases hh : h = p.handles
    · rw [hh, clock, story, origin_share_last]
      exact hp h'
    · rw [clock, story, origin_share_of_ne hh]
      exact hp h
  | create t =>
    by_cases hh : h = p.handles
    · rw [hh, clock, story, origin_create_last, along, along, if_pos rfl, if_pos rfl]
      rfl
    · rw [clock, story, origin_create_of_ne t hh, along, along]
      split
      · rfl
      · exact hp h

end Past

/-! ### What the clocks are -/

theorem get?_eq_some_iff {b : Clocks} {h : Nat} {c : ManualClock} :
    b.get? h = some c ↔ ∃ number, b.handles[h]? = some number ∧ b.clocks[number]? = some c :=
  Option.bind_eq_some_iff

/-- The clocks are as they were told to be, and two handles stand for the same one if they are of one group. -/
structure AsTold (p : Past) (b : Clocks) : Prop where
  count : b.handles.length = p.handles
  get? : ∀ h < p.handles, b.get? h = some (p.clock h)
  number : ∀ h < p.handles, ∀ h' < p.handles, b.handles[h]? = b.handles[h']? ↔ p.origin h = p.origin h'
  origin_lt : ∀ h < p.handles, p.origin h < p.handles

namespace AsTold

variable {p : Past} {b : Clocks} {h : Nat}

theorem nil : AsTold [] empty where
  count := rfl
  get? h hh := by cases hh
  number h hh := by cases hh
  origin_lt h hh := by cases hh

theorem lt_of_get? (hb : AsTold p b) {clock : ManualClock} (hclock : b.get? h = some clock) : h < p.handles := by
  obtain ⟨number, hnumber, -⟩ := get?_eq_some_iff.1 hclock
  rw [← hb.count]
  exact (List.getElem?_eq_some_iff.1 hnumber).1

theorem count_concat (hb : AsTold p b) (number : Nat) : (b.handles ++ [number]).length = p.handles + 1 := by
  rw [List.length_append, hb.count]
  rfl

theorem handle_of_lt (hb : AsTold p b) (number : Nat) (hh : h < p.handles) :
    (b.handles ++ [number])[h]? = b.handles[h]? :=
  List.getElem?_append_left (hb.count ▸ hh)

theorem handle_last (hb : AsTold p b) (number : Nat) : (b.handles ++ [number])[p.handles]? = some number := by
  rw [← hb.count, List.getElem?_concat_length]

theorem tell (hb : AsTold p b) (hh : h < p.handles) (call : ManualClock.Call) :
    ∃ b', b.step (.tell h call) = some (((p.clock h).step call).1.elim .nothing .time, b') ∧
      AsTold (.tell h call :: p) b' := by
  obtain ⟨number, hnumber, hclock⟩ := get?_eq_some_iff.1 (hb.get? h hh)
  refine ⟨{ b with clocks := b.clocks.set number ((p.clock h).step call).2 }, ?_, hb.count, ?_, hb.number, hb.origin_lt⟩
  · simp only [step, hnumber, Option.bind_eq_bind, Option.bind_some, hclock]
    rfl
  intro h' hh'
  obtain ⟨number', hnumber', hclock'⟩ := get?_eq_some_iff.1 (hb.get? h' hh')
  rw [get?_eq_some_iff]
  refine ⟨number', hnumber', ?_⟩
  -- only the handles of the group of `h` have the number at which there is something new
  by_cases ho : p.origin h = p.origin h'
  · have hsame : number = number' := by
      have heq := (hb.number h hh h' hh').2 ho
      rwa [hnumber, hnumber', Option.some.injEq] at heq
    subst hsame
    rw [Past.clock_tell call ho]
    exact List.getElem?_set_self (List.getElem?_eq_some_iff.1 hclock).1
  · have hother : number ≠ number' := by
      rintro rfl
      exact ho ((hb.number h hh h' hh').1 (hnumber.trans hnumber'.symm))
    rw [Past.clock_tell_of_ne call ho, ← hclock']
    exact List.getElem?_set_ne hother

theorem share (hb : AsTold p b) (hh : h < p.handles) :
    ∃ answer b', b.step (.share h) = some (answer, b') ∧ AsTold (.share h :: p) b' := by
  obtain ⟨number, hnumber, hclock⟩ := get?_eq_some_iff.1 (hb.get? h hh)
  -- a handle after the call stands for what a handle before it does: an old one for itself, the new one for `h`
  have hback : ∀ h' < p.handles + 1, ∃ h'' < p.handles, (b.handles ++ [number])[h']? = b.handles[h'']? ∧
      Past.origin (.share h :: p) h' = p.origin h'' := by
    intro h' hh'
    rcases Nat.lt_succ_iff_lt_or_eq.1 hh' with hlt | rfl
    · exact ⟨h', hlt, hb.handle_of_lt number hlt, Past.origin_share_of_ne (Nat.ne_of_lt hlt)⟩
    · exact ⟨h, hh, (hb.handle_last number).trans hnumber.symm, Past.origin_share_last⟩
  refine ⟨.handle b.handles.length, { b with handles := b.handles ++ [number] }, ?_, hb.count_concat number, ?_, ?_, ?_⟩
  · simp only [step, hnumber, Option.bind_eq_bind, Option.bind_some]
    rfl
  · intro h' hh'
    obtain ⟨h'', hh'', hnumber', ho⟩ := hback h' hh'
    obtain ⟨number', hnumber'', hclock'⟩ := get?_eq_some_iff.1 (hb.get? h'' hh'')
    rw [get?_eq_some_iff, Past.clock, ho]
    exact ⟨number', hnumber'.trans hnumber'', hclock'⟩
  · intro h₁ hh₁ h₂ hh₂
    obtain ⟨h₁', hh₁', hnumber₁, ho₁⟩ := hback h₁ hh₁
    obtain ⟨h₂', hh₂', hnumber₂, ho₂⟩ := hback h₂ hh₂
    rw [hnumber₁, hnumber₂, ho₁, ho₂]
    exact hb.number h₁' hh₁' h₂' hh₂'
  · intro h' hh'
    obtain ⟨h'', hh'', -, ho⟩ := hback h' hh'
    rw [ho]
    exact Nat.lt_succ_of_lt (hb.origin_lt h'' hh'')

theorem create (hb : AsTold p b) (t : StreamTime) :
    ∃ answer b', b.step (.create t) = some (answer, b') ∧ AsTold (.create t :: p) b' := by
  have hlast := hb.handle_last b.clocks.length
  have holast : Past.origin (.create t :: p) p.handles = p.handles := Past.origin_create_last t
  -- an old handle stands for what it did, and neither its clock nor the handle that it goes back to is new
  have hold : ∀ h < p.handles, (b.handles ++ [b.clocks.length])[h]? = b.handles[h]? ∧
      Past.origin (.create t :: p) h = p.origin h ∧ b.handles[h]? ≠ some b.clocks.length ∧ p.origin h ≠ p.handles := by
    intro h hh
    refine ⟨hb.handle_of_lt _ hh, Past.origin_create_of_ne t (Nat.ne_of_lt hh), ?_, Nat.ne_of_lt (hb.origin_lt h hh)⟩
    intro hnumber
    obtain ⟨number, hnumber', hclock⟩ := get?_eq_some_iff.1 (hb.get? h hh)
    obtain rfl : number = b.clocks.length := Option.some.inj (hnumber'.symm.trans hnumber)
    exact Nat.lt_irrefl _ (List.getElem?_eq_some_iff.1 hclock).1
  refine ⟨_, _, rfl, hb.count_concat _, ?_, ?_, ?_⟩
  · intro h hh
    rw [get?_eq_some_iff]
    rcases Nat.lt_succ_iff_lt_or_eq.1 hh with hlt | rfl
    · obtain ⟨hsame, ho, -, hother⟩ := hold h hlt
      obtain ⟨number, hnumber, hclock⟩ := get?_eq_some_iff.1 (hb.get? h hlt)
      refine ⟨number, hsame.trans hnumber, ?_⟩
      rw [Past.clock, ho, Past.along, if_neg hother]
      exact (List.getElem?_append_left (List.getElem?_eq_some_iff.1 hclock).1).trans hclock
    · refine ⟨b.clocks.length, hlast, ?_⟩
      rw [Past.clock, holast, Past.along, if_pos rfl]
      exact List.getElem?_concat_length
  · intro h₁ hh₁ h₂ hh₂
    rcases Nat.lt_succ_iff_lt_or_eq.1 hh₁ with hlt₁ | rfl
    · obtain ⟨hsame₁, ho₁, hnumber₁, hother₁⟩ := hold h₁ hlt₁
      rcases Nat.lt_succ_iff_lt_or_eq.1 hh₂ with hlt₂ | rfl
      · obtain ⟨hsame₂, ho₂, -⟩ := hold h₂ hlt₂
        rw [hsame₁, hsame₂, ho₁, ho₂]
        exact hb.number h₁ hlt₁ h₂ hlt₂
      · rw [hsame₁, hlast, ho₁, holast]
        exact iff_of_false hnumber₁ hother₁
    · rcases Nat.lt_succ_iff_lt_or_eq.1 hh₂ with hlt₂ | rfl
      · obtain ⟨hsame₂, ho₂, hnumber₂, hother₂⟩ := hold h₂ hlt₂
        rw [hsame₂, hlast, ho₂, holast]
        exact iff_of_false hnumber₂.symm hother₂.symm
      · exact iff_of_true rfl rfl
  · intro h hh
    rcases Nat.lt_succ_iff_lt_or_eq.1 hh with hlt | rfl
    · rw [(hold h hlt).2.1]
      exact Nat.lt_succ_of_lt (hb.origin_lt h hlt)
    · rw [holast]
      exact Nat.lt_succ_self _

/-- A call to a handle that exists is answered, an operation on a clock with what the clock returns. -/
theorem step (hb : AsTold p b) {call : Call} (hcall : call.named p = true) :
    ∃ answer b', b.step call = some (answer, b') ∧ AsTold (call :: p) b' ∧
      ∀ h c, call = .tell h c → h < p.handles ∧ answer = ((p.clock h).step c).1.elim .nothing .time := by
  cases call with
  | tell h c =>
    obtain ⟨b', hstep, hb'⟩ := hb.tell (of_decide_eq_true hcall) c
    refine ⟨_, b', hstep, hb', ?_⟩
    rintro h c ⟨⟩
    exact ⟨of_decide_eq_true hcall, rfl⟩
  | share h =>
    obtain ⟨answer, b', hstep, hb'⟩ := hb.share (of_decide_eq_true hcall)
    exact ⟨answer, b', hstep, hb', fun _ _ h => by cases h⟩
  | create t =>
    obtain ⟨answer, b', hstep, hb'⟩ := hb.create t
    exact ⟨answer, b', hstep, hb', fun _ _ h => by cases h⟩

end AsTold

/-! ### The moments of a run -/

namespace Moment

/-- Before and after the call the clocks are as they were told to be, and the answer is what the clock returns. -/
structure Told (m : Moment) : Prop where
  before : AsTold m.past m.before
  after : AsTold (m.call :: m.past) m.after
  answer : ∀ h c, m.call = .tell h c → h < m.past.handles ∧
    m.answer = ((m.past.clock h).step c).1.elim .nothing .time

variable {m : Moment}

theorem Told.apart (hm : m.Told) : m.Apart where
  told := hm.after.get?
  streamTime h clock hclock := by
    obtain rfl := Option.some.inj ((hm.after.get? h (hm.after.lt_of_get? hclock)).symm.trans hclock)
    rw [← Past.running_clock, ManualClock.streamTime?]
  others h hh hother := by
    obtain ⟨p, b, call, answer, b'⟩ := m
    rw [hm.before.get? h hh]
    cases call with
    | tell h' c => rw [hm.after.get? h hh, Past.clock_tell_of_ne c (hother h' c rfl)]
    | share h' =>
      rw [hm.after.get? h (Nat.lt_succ_of_lt hh), Past.clock, Past.origin_share_of_ne (Nat.ne_of_lt hh)]
      rfl
    | create t =>
      rw [hm.after.get? h (Nat.lt_succ_of_lt hh), Past.clock, Past.origin_create_of_ne t (Nat.ne_of_lt hh), Past.along,
        if_neg (Nat.ne_of_lt (hm.before.origin_lt h hh))]
      rfl

/-- Clocks that kept to their stories do so in a call exactly if it leads no further than the axis. -/
theorem Told.faithful_iff (hm : m.Told) (hp : m.past.Punctual) : m.Faithful ↔ m.Fits := by
  obtain ⟨p, b, call, answer, b'⟩ := m
  constructor
  · intro hfaithful
    cases call with
    | tell h c =>
      obtain ⟨hh, -⟩ := hm.answer h c rfl
      have hstory := hfaithful.story h _ (hm.after.get? h hh)
      rw [Past.clock_tell c rfl, Past.story_tell c rfl, ← hp h] at hstory
      change c.Fits (p.story h)
      exact hp h ▸ ManualClock.now_step_iff.1 hstory
    | share h => trivial
    | create t => trivial
  intro hfits
  have hshown : ∀ h clock, b'.get? h = some clock → clock.now = Past.story (call :: p) h := by
    intro h clock hclock
    obtain rfl := Option.some.inj ((hm.after.get? h (hm.after.lt_of_get? hclock)).symm.trans hclock)
    exact hp.cons hfits h
  refine ⟨hshown, ?_, ?_⟩
  · rintro h' span rfl h clock ho hclock
    obtain ⟨-, hanswer⟩ := hm.answer h' _ rfl
    rw [hshown h clock hclock, Past.story_tell _ ho.symm, ← hp h']
    exact hanswer
  · rintro h' span rfl hspan h old new ho hold hnew
    obtain rfl := Option.some.inj ((hm.before.get? h (hm.before.lt_of_get? hold)).symm.trans hold)
    rw [hshown h new hnew, Past.story_tell _ ho.symm, hp h, Past.story_congr ho]
    exact ManualClock.le_add_of_nonneg hspan

end Moment

variable {p : Past} {b : Clocks} {calls : List Call}

/-- Calls to handles that exist are all answered, and each finds and leaves the clocks as they were told to be. -/
theorem told_of_moments (hb : AsTold p b) (hcalls : named p calls = true) :
    (∃ b', b.run calls = some ((moments p b calls).map (·.answer), b')) ∧
      (moments p b calls).length = calls.length ∧ ∀ m ∈ moments p b calls, m.Told := by
  induction calls generalizing p b with
  | nil => exact ⟨⟨b, rfl⟩, rfl, fun m hm => by cases hm⟩
  | cons call calls ih =>
    rw [named, Bool.and_eq_true] at hcalls
    obtain ⟨answer, b', hstep, hb', hanswer⟩ := hb.step hcalls.1
    obtain ⟨⟨b'', hrun⟩, hlength, htold⟩ := ih hb' hcalls.2
    rw [moments, hstep]
    refine ⟨⟨b'', ?_⟩, congrArg (· + 1) hlength, List.forall_mem_cons.2 ⟨⟨hb, hb', hanswer⟩, htold⟩⟩
    simp only [run, hstep, hrun, Option.bind_eq_bind, Option.bind_some, List.map_cons]
    rfl

/-- From clocks that keep to their stories the first call that leads past the end of the axis is the first to break
one. -/
theorem faithful_iff_of_punctual (hb : AsTold p b) (hp : p.Punctual) (hcalls : named p calls = true) :
    (∀ m ∈ moments p b calls, m.Faithful) ↔ ∀ m ∈ moments p b calls, m.Fits := by
  induction calls generalizing p b with
  | nil => exact iff_of_true (fun m hm => by cases hm) (fun m hm => by cases hm)
  | cons call calls ih =>
    rw [named, Bool.and_eq_true] at hcalls
    obtain ⟨answer, b', hstep, hb', hanswer⟩ := hb.step hcalls.1
    rw [moments, hstep, List.forall_mem_cons, List.forall_mem_cons,
      (⟨hb, hb', hanswer⟩ : Moment.Told ⟨p, b, call, answer, b'⟩).faithful_iff hp]
    exact and_congr_right fun hfits => ih hb' (hp.cons hfits) hcalls.2

/-- Every call to a handle that exists is answered, and groups stay apart, always. The clocks keep to their stories
exactly as long as no advance leads past the end of the axis. -/
theorem faithful_iff_fits (hcalls : named [] calls = true) :
    (∃ b, empty.run calls = some ((moments [] empty calls).map (·.answer), b)) ∧
      (moments [] empty calls).length = calls.length ∧ (∀ m ∈ moments [] empty calls, m.Apart) ∧
      ((∀ m ∈ moments [] empty calls, m.Faithful) ↔ ∀ m ∈ moments [] empty calls, m.Fits) := by
  obtain ⟨hrun, hlength, htold⟩ := told_of_moments AsTold.nil hcalls
  refine ⟨hrun, hlength, fun m hm => (htold m hm).apart, ?_⟩
  exact faithful_iff_of_punctual AsTold.nil (fun _ => rfl) hcalls

/-- Two groups, one of them with two handles: it is moved on through either, back, paused and set. -/
theorem faithful_iff_fits_two_groups :
    let calls : List Call := [.create .origin, .share 0, .tell 1 (.advance 330000), .create ⟨5000000⟩,
      .tell 0 .pause, .tell 2 (.advance 40000), .tell 0 (.advance (Word.satNeg 40000)), .tell 1 .resume,
      .tell 2 (.set ⟨.greatest⟩)]
    named [] calls = true ∧ (moments [] empty calls).length = 9 ∧ ∀ m ∈ moments [] empty calls, m.Faithful := by
  intro calls
  have hcalls : named [] calls = true := by decide
  obtain ⟨-, hlength, -, hiff⟩ := faithful_iff_fits hcalls
  exact ⟨hcalls, hlength, hiff.2 (by decide)⟩

/-- An advance at the end of the axis returns the end of the axis, but the clock goes round to the beginning. -/
theorem turned_back_at_end :
    ∃ m ∈ moments [] empty [.create ⟨.greatest⟩, .tell 0 (.advance 1)],
      m.answer = .time ⟨.greatest⟩ ∧ m.after.get? 0 = some ⟨⟨.least⟩, true⟩ ∧ ¬ m.Faithful := by
  refine ⟨_, List.mem_cons_of_mem _ List.mem_cons_self, rfl, rfl, fun hfaithful => ?_⟩
  exact absurd (hfaithful.story 0 _ rfl) (by decide)

end Clocks

end FramePacing
