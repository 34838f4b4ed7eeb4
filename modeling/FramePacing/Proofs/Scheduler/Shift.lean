import FramePacing.Proofs.Scheduler.Freshness
import FramePacing.Proofs.Shift

/-!
# A shifted stream is scheduled alike

The axis of a stream has no distinguished point, other than that the lag of the display counts from it: if every
sample and every `now` is moved by `k`, so are the answers and the state, and the figures stay as they are. That is
`Scheduler.shift_of_run`, by a run of each stream in lockstep, which `Scheduler.Moved` relates.

Two things are in the way. A time that is moved must not saturate, which `Scheduler.Call.Moves` is about. And before
the first frame the latest draw is at `StreamTime.agesAgo`, which is not moved. That it is so long ago keeps this from
showing: the interval from there is cut off at the stale interval, and the first frame time is not counted.
-/

namespace FramePacing

/-! ## What is moved -/

def Sample.move (k : Ticks) (sample : Sample) : Sample := ⟨sample.start + k, sample.stop + k, sample.discontinuity⟩

def Decision.move (k : Ticks) : Decision → Decision
  | .drawNow => .drawNow
  | .drawAt time => .drawAt (time + k)
  | .drop => .drop

def QualityMessage.move (k : Ticks) (message : QualityMessage) : QualityMessage :=
  { message with timestamp := message.timestamp + k }

/-- Only the time of the latest draw is moved, once there is one, and that of the latest report. -/
def State.move (k : Ticks) (drawn : Bool) (s : State) : State :=
  { s with
    lastDraw := if drawn then s.lastDraw + k else s.lastDraw
    lastQuality := s.lastQuality.map (·.move k) }

namespace Scheduler

def Call.move (k : Ticks) : Call → Call
  | .decide sample now reply => .decide (sample.move k) (now + k) reply
  | .recordRender path => .recordRender path
  | .notify proportion => .notify proportion
  | .reset => .reset

def Answer.move (k : Ticks) : Answer → Answer
  | .ruling r => .ruling ⟨r.decision.move k, r.message.move k⟩
  | answer => answer

/-- The answer is a decision to draw. -/
def Answer.draws : Answer → Bool
  | .ruling r => r.decision.isDraw
  | _ => false

end Scheduler

/-- Start and end of the sample are within 2⁵⁹ of the beginning before and after the move, and the lag of the display
is taken off the start both times or neither time. -/
structure Sample.Moves (c : Config) (k : Ticks) (sample : Sample) : Prop where
  start : sample.start.Moves (2 ^ 59) k
  stop : sample.stop.Moves (2 ^ 59) k
  lag : c.displayLag.val ≤ 0 ∨
    c.displayLag.val ≤ sample.start.ticks.val ∧ c.displayLag.val ≤ sample.start.ticks.val + k.val

/-- Every time in the call is within 2⁵⁹ of the beginning before and after the move. A reset is left out. -/
def Scheduler.Call.Moves (c : Config) (k : Ticks) : Scheduler.Call → Prop
  | .decide sample now _ => sample.Moves c k ∧ now.Moves (2 ^ 59) k
  | .recordRender _ => True
  | .notify _ => True
  | .reset => False

/-! ## One decision -/

namespace Config

variable {c : Config} {k : Ticks} {sample : Sample} {now : StreamTime}

theorem compensate_move (h : sample.Moves c k) : c.compensate (sample.move k) = (c.compensate sample).move k := by
  obtain ⟨hstart, hstop, hlag⟩ := h
  have hs := hstart.val_add (by decide)
  have he := hstop.val_add (by decide)
  obtain ⟨hs1, hs2⟩ := hstart
  obtain ⟨he1, he2⟩ := hstop
  unfold compensate
  rcases hlag with hlag | ⟨hlag, hlag'⟩
  · rw [if_neg, if_neg]
    · rintro ⟨hpos, -⟩
      exact absurd hpos (Int.not_lt.2 hlag)
    · rintro ⟨hpos, -⟩
      exact absurd hpos (Int.not_lt.2 hlag)
  · by_cases hpos : 0 < c.displayLag
    · have hpos' : 0 < c.displayLag.val := hpos
      have hle : c.displayLag ≤ sample.start.ticks := hlag
      have hle' : c.displayLag ≤ (sample.move k).start.ticks := by
        rw [Word.le_iff, Sample.move, hs]
        exact hlag'
      rw [if_pos ⟨hpos, hle'⟩, if_pos ⟨hpos, hle⟩]
      have hmove : ∀ t : StreamTime, t.Moves (2 ^ 59) k → c.displayLag.val ≤ 2 ^ 59 →
          t + k - c.displayLag = t - c.displayLag + k := by
        intro t ht hl
        have hv := ht.val_add (by decide)
        obtain ⟨ht1, ht2⟩ := ht
        have hr : (t + k - c.displayLag).ticks.val = (t - c.displayLag + k).ticks.val := by
          rw [StreamTime.val_sub_span, hv, StreamTime.val_add, StreamTime.val_sub_span]
          omega
        exact StreamTime.ext hr
      have hl : c.displayLag.val ≤ 2 ^ 59 := by omega
      rw [Sample.move, Sample.move]
      dsimp only
      rw [hmove _ ⟨hs1, hs2⟩ hl, hmove _ ⟨he1, he2⟩ hl]
    · rw [if_neg (fun h => hpos h.1), if_neg (fun h => hpos h.1)]

/-- The scheduled sample keeps away from the ends of the axis. -/
theorem moves_compensate (h : sample.Moves c k) :
    (c.compensate sample).start.Moves (2 ^ 59) k ∧ (c.compensate sample).stop.Moves (2 ^ 60) k := by
  obtain ⟨⟨hs1, hs2⟩, ⟨he1, he2⟩, hlag⟩ := h
  unfold compensate
  split
  · next hc =>
    obtain ⟨hpos, hle⟩ := hc
    have hpos' : 0 < c.displayLag.val := hpos
    have hle' : c.displayLag.val ≤ sample.start.ticks.val := hle
    refine ⟨⟨?_, ?_⟩, ⟨?_, ?_⟩⟩
    all_goals dsimp only; rw [StreamTime.val_sub_span]; omega
  · refine ⟨⟨hs1, hs2⟩, ⟨?_, ?_⟩⟩ <;> omega

theorem duration_move (h : sample.Moves c k) :
    ((c.compensate sample).move k).duration = (c.compensate sample).duration := by
  obtain ⟨hstart, hstop⟩ := moves_compensate h
  rw [Sample.duration, Sample.duration, Sample.move]
  exact hstop.sub (hstart.mono (by decide)) (by decide)

theorem late_move (h : sample.Moves c k) (hn : now.Moves (2 ^ 59) k) :
    c.late ((c.compensate sample).start + k) (now + k) = c.late (c.compensate sample).start now := by
  obtain ⟨hstart, -⟩ := moves_compensate h
  rw [late, late, hn.sub hstart (by decide)]

end Config

namespace State

variable {c : Config} {k : Ticks} {drawn : Bool} {s : State} {sample : Sample} {now : StreamTime} {reply : Reply}

theorem message_move (h : sample.Moves c k) (hn : now.Moves (2 ^ 59) k) :
    (s.move k drawn).message c (sample.move k) (now + k) = (s.message c sample now).move k := by
  have hlate := Config.late_move h hn
  rw [message, Config.compensate_move h]
  change QualityMessage.assessed (c.late ((c.compensate sample).start + k) (now + k)) _ _ _ _ = _
  rw [hlate]
  rfl

theorem heard_move (h : sample.Moves c k) (hn : now.Moves (2 ^ 59) k) :
    (s.move k drawn).heard c (sample.move k) (now + k) reply = (s.heard c sample now reply).move k drawn := by
  have hlate := Config.late_move h hn
  have hduration := Config.duration_move h
  rw [heard, message_move h hn, Config.compensate_move h, hduration, heard, follow_eq, follow_eq]
  change State.mk .. = State.mk ..
  rw [show ((c.compensate sample).move k).start = (c.compensate sample).start + k from rfl, hlate]
  rfl

theorem prepared_move (h : sample.Moves c k) (hn : now.Moves (2 ^ 59) k) :
    (s.move k drawn).prepared c (sample.move k) (now + k) reply = (s.prepared c sample now reply).move k drawn := by
  rw [prepared, heard_move h hn, Config.compensate_move h]
  rfl

/-- The latest draw is moved if there was one, and else it was ages ago. -/
def Anchored (k : Ticks) (drawn : Bool) (s : State) : Prop :=
  if drawn then s.lastDraw.Moves (2 ^ 61) k else s.lastDraw = .agesAgo

theorem Anchored.prepared (h : s.Anchored k drawn) : (s.prepared c sample now reply).Anchored k drawn := by
  unfold Anchored at h ⊢
  rw [prepared_lastDraw]
  exact h

/-- The time since the latest draw is the same, or it is more than the stale interval both times. -/
theorem since_move (hc : c.staleInterval.val ≤ 2 ^ 60) (h : s.Anchored k drawn) (hn : now.Moves (2 ^ 59) k) :
    drawn = true ∧ now + k - (s.move k drawn).lastDraw = now - s.lastDraw ∨
      c.staleInterval.val < (now + k - (s.move k drawn).lastDraw).val ∧
        c.staleInterval.val < (now - s.lastDraw).val := by
  cases drawn with
  | true => exact .inl ⟨rfl, (hn.mono (by decide)).sub h (by decide)⟩
  | false =>
    have hages : s.lastDraw.ticks.val = -2 ^ 61 := by
      rw [show s.lastDraw = .agesAgo from h]
      rfl
    have hv := hn.val_add (by decide)
    obtain ⟨hn1, hn2⟩ := hn
    refine .inr ⟨?_, ?_⟩
    · change c.staleInterval.val < (now + k - s.lastDraw).val
      rw [StreamTime.val_sub, hv]
      omega
    · rw [StreamTime.val_sub]
      omega

theorem interval_move (hc : c.staleInterval.val ≤ 2 ^ 60) (h : s.Anchored k drawn) (hn : now.Moves (2 ^ 59) k) :
    (s.move k drawn).interval c (now + k) = s.interval c now := by
  rw [interval, interval]
  rcases since_move hc h hn with ⟨-, hsame⟩ | ⟨hlong, hlong'⟩
  · rw [hsame]
  · apply Word.ext
    rw [Word.val_min, Word.val_min]
    omega

theorem draws_move {scheduled : Sample} (hc : c.staleInterval.val ≤ 2 ^ 60) (h : s.Anchored k drawn)
    (hn : now.Moves (2 ^ 59) k) (hd : (scheduled.move k).duration = scheduled.duration) :
    (s.move k drawn).draws c (scheduled.move k) (now + k) = s.draws c scheduled now := by
  have hstale : decide (c.staleInterval < now + k - (s.move k drawn).lastDraw) =
      decide (c.staleInterval < now - s.lastDraw) := by
    rcases since_move hc h hn with ⟨-, hsame⟩ | ⟨hlong, hlong'⟩
    · rw [hsame]
    · rw [decide_eq_true (Word.lt_iff.2 hlong), decide_eq_true (Word.lt_iff.2 hlong')]
  rw [draws, draws, hstale, hd]
  rfl

theorem catchesUp_move {scheduled : Sample} (hd : (scheduled.move k).duration = scheduled.duration) :
    (s.move k drawn).catchesUp c (scheduled.move k) = s.catchesUp c scheduled := by
  rw [catchesUp, catchesUp, hd]
  rfl

theorem caughtUp_move (hc : c.staleInterval.val ≤ 2 ^ 60) (h : s.Anchored k drawn) (hn : now.Moves (2 ^ 59) k) :
    (s.move k drawn).caughtUp c (now + k) = (s.caughtUp c now).move k true := by
  rw [caughtUp, caughtUp, interval_move hc h hn]
  rfl

theorem paced_move {scheduled : Sample} (presented : StreamTime)
    (hd : (scheduled.move k).duration = scheduled.duration) :
    (s.move k drawn).paced c (scheduled.move k) (presented + k) = (s.paced c scheduled presented).move k true := by
  rw [paced, paced, hd]
  rfl

/-- The time to wait for is moved with the sample, and it is no further ahead of that than its duration. -/
theorem target_move {scheduled : Sample} (hstart : scheduled.start.Moves (2 ^ 59) k)
    (hstop : scheduled.stop.Moves (2 ^ 60) k) :
    (s.move k drawn).target (scheduled.move k) = s.target scheduled + k ∧ (s.target scheduled).Moves (2 ^ 61) k := by
  have hd : (scheduled.move k).duration = scheduled.duration := hstop.sub (hstart.mono (by decide)) (by decide)
  have hlong : scheduled.duration.val ≤ 2 ^ 60 + 2 ^ 59 := by
    rw [Sample.duration, StreamTime.val_sub]
    have h1 := hstart.before
    have h2 := hstop.before
    omega
  have hv := hstart.val_add (by decide)
  obtain ⟨hs1, hs2⟩ := hstart
  have htarget : (s.target scheduled).ticks.val =
      scheduled.start.ticks.val + max (-max scheduled.duration.val 0) (min s.earliness.val 0) := by
    rw [target, StreamTime.val_add, Word.val_saturate_signed64]
    omega
  have hmoves : (s.target scheduled).Moves (2 ^ 61) k := by
    constructor
    · rw [htarget]
      omega
    · rw [htarget]
      omega
  have hval : ((s.move k drawn).target (scheduled.move k)).ticks.val = (s.target scheduled + k).ticks.val := by
    rw [hmoves.val_add (by decide), htarget, target, hd, StreamTime.val_add, Word.val_saturate_signed64]
    change max _ (min ((scheduled.start + k).ticks.val + max _ (min (max _ (min s.earliness.val _)) _)) _) = _
    rw [hv]
    omega
  exact ⟨StreamTime.ext hval, hmoves⟩

end State

/-! ## Two draws -/

/-- Of two draws the second is the first moved by `k`. The time since the frame before is the same if there was one. -/
structure Draw.Moved (k : Ticks) (drawn : Bool) (d d' : Draw) : Prop where
  decision : d'.decision = d.decision.move k
  presented : d'.presented = d.presented + k
  frameTime : drawn = true → d'.frameTime = d.frameTime
  state : d'.state = d.state.move k true
  isDraw : d.decision.isDraw = true
  lastDraw : d.state.lastDraw = d.presented
  moves : d.presented.Moves (2 ^ 61) k

theorem State.moved_drawn {c : Config} {k : Ticks} {drawn : Bool} {s : State} {scheduled : Sample} {now : StreamTime}
    (hc : c.staleInterval.val ≤ 2 ^ 60) (h : s.Anchored k drawn) (hn : now.Moves (2 ^ 59) k)
    (hstart : scheduled.start.Moves (2 ^ 59) k) (hstop : scheduled.stop.Moves (2 ^ 60) k) :
    (s.drawn c scheduled now).Moved k drawn ((s.move k drawn).drawn c (scheduled.move k) (now + k)) := by
  have hd : (scheduled.move k).duration = scheduled.duration := hstop.sub (hstart.mono (by decide)) (by decide)
  have hinterval := interval_move hc h hn
  have hnow : now.Moves (2 ^ 61) k := hn.mono (by decide)
  unfold State.drawn
  rw [catchesUp_move hd, hinterval]
  by_cases hcatch : s.catchesUp c scheduled = true
  · rw [if_pos hcatch, if_pos hcatch]
    exact ⟨rfl, rfl, fun _ => rfl, caughtUp_move hc h hn, rfl, rfl, hnow⟩
  rw [if_neg hcatch, if_neg hcatch]
  by_cases hl : s.late < 0
  · have hl' : (s.move k drawn).late < 0 := hl
    obtain ⟨htarget, hmoves⟩ : (s.move k drawn).target (scheduled.move k) = s.target scheduled + k ∧
        (s.target scheduled).Moves (2 ^ 61) k := target_move hstart hstop
    rw [if_pos hl, if_pos hl', htarget]
    refine ⟨rfl, rfl, ?_, paced_move _ hd, rfl, rfl, hmoves⟩
    rintro rfl
    exact hmoves.sub h (by decide)
  · have hl' : ¬ (s.move k drawn).late < 0 := hl
    rw [if_neg hl, if_neg hl']
    exact ⟨rfl, rfl, fun _ => rfl, paced_move _ hd, rfl, rfl, hnow⟩

/-! ## Two schedulers in lockstep -/

namespace Scheduler

/-- Of two schedulers, the second has seen the stream of the first, moved by `k`. -/
structure Moved (k : Ticks) (drawn : Bool) (s s' : Scheduler) : Prop where
  config : s'.config = s.config
  state : s'.state = s.state.move k drawn
  statistics : s.statistics.Moved k s'.statistics
  anchored : s.state.Anchored k drawn
  drawn : 0 < s.statistics.draws.ring.count.val → drawn = true

variable {c : Config} {k : Ticks} {drawn : Bool} {s s' t : Scheduler} {calls : List Call} {answers : List Answer}

theorem moved_ofConfig (c : Config) (k : Ticks) : Moved k false (ofConfig c) (ofConfig c) where
  config := rfl
  state := rfl
  statistics := Statistics.moved_empty k
  anchored := rfl
  drawn := by
    intro h
    cases h

theorem Moved.decide {sample : Sample} {now : StreamTime} {reply : Reply} {ruling : Ruling} (h : Moved k drawn s s')
    (hc : s.config.staleInterval.val ≤ 2 ^ 60) (hs : sample.Moves s.config k) (hn : now.Moves (2 ^ 59) k)
    (hd : s.decide sample now reply = .ok (ruling, t)) :
    ∃ t', s'.decide (sample.move k) (now + k) reply = .ok (⟨ruling.decision.move k, ruling.message.move k⟩, t') ∧
      Moved k (drawn || ruling.decision.isDraw) t t' := by
  obtain ⟨hstart, hstop⟩ := Config.moves_compensate hs
  have hduration := Config.duration_move hs
  have hanchored : (s.state.prepared s.config sample now reply).Anchored k drawn := h.anchored.prepared
  rw [decide_eq] at hd ⊢
  rw [h.config, h.state, State.prepared_move hs hn, State.message_move hs hn, Config.compensate_move hs]
  obtain ⟨arrived, harrived, hd⟩ := Fault.bind_eq_ok.1 hd
  obtain ⟨arrived', harrived', hmoved⟩ := h.statistics.recordArrival (hn.mono (by decide)) harrived
  rw [harrived', Fault.ok_bind]
  dsimp only at hd ⊢
  rw [State.draws_move hc hanchored hn hduration]
  -- an arrival leaves the ring of draws as it was
  have hring : arrived.draws = s.statistics.draws := by
    obtain ⟨arrivals, -, harrived⟩ := Fault.bind_eq_ok.1 harrived
    cases harrived
    rfl
  cases hdraws : (s.state.prepared s.config sample now reply).draws s.config (s.config.compensate sample) now with
  | false =>
    rw [hdraws, if_neg Bool.false_ne_true] at hd
    cases hd
    rw [if_neg Bool.false_ne_true]
    refine ⟨_, rfl, ⟨rfl, ?_, hmoved.recordDrop, ?_, ?_⟩⟩
    · rw [show (drawn || Decision.drop.isDraw) = drawn from Bool.or_false _]
      rfl
    · rw [show (drawn || Decision.drop.isDraw) = drawn from Bool.or_false _]
      exact hanchored
    · intro hpos
      rw [h.drawn (hring ▸ hpos)]
      rfl
  | true =>
    rw [hdraws, if_pos rfl] at hd
    rw [if_pos rfl]
    have hdrawn := State.moved_drawn hc hanchored hn hstart hstop
    generalize (s.state.prepared s.config sample now reply).drawn s.config (s.config.compensate sample) now = d at hd hdrawn
    generalize State.drawn _ _ _ _ = d' at hdrawn ⊢
    obtain ⟨statistics, hrecord, hd⟩ := Fault.bind_eq_ok.1 hd
    cases hd
    have hoffset : d'.presented - (sample.move k).start = d.presented - sample.start := by
      rw [hdrawn.presented]
      exact hdrawn.moves.sub (hs.start.mono (by decide)) (by decide)
    have hframeTime : 0 < arrived.draws.ring.count.val → d'.frameTime = d.frameTime :=
      fun hpos => hdrawn.frameTime (h.drawn (hring ▸ hpos))
    obtain ⟨statistics', hrecord', hmoved', hpos⟩ := hmoved.recordDraw hdrawn.moves hframeTime hrecord
    rw [← hdrawn.presented, ← hoffset] at hrecord'
    rw [hrecord', Fault.ok_bind, hdrawn.decision]
    refine ⟨_, rfl, ⟨rfl, ?_, hmoved', ?_, ?_⟩⟩
    · rw [hdrawn.isDraw, Bool.or_true]
      exact hdrawn.state
    · rw [hdrawn.isDraw, Bool.or_true]
      change d.state.lastDraw.Moves (2 ^ 61) k
      rw [hdrawn.lastDraw]
      exact hdrawn.moves
    · intro _
      rw [hdrawn.isDraw, Bool.or_true]

theorem Moved.recordRender (h : Moved k drawn s s') (path : RenderPath) :
    s'.state.outcome path = s.state.outcome path ∧
      Moved k drawn { s with state := s.state.rendered s.config path }
        { s' with state := s'.state.rendered s'.config path } := by
  obtain ⟨hconfig, hstate, hstatistics, hanchored, hdrawn⟩ := h
  rw [hconfig, hstate]
  cases path with
  | direct => exact ⟨rfl, rfl, rfl, hstatistics, hanchored, hdrawn⟩
  | blitted start stop => exact ⟨rfl, rfl, rfl, hstatistics, hanchored, hdrawn⟩

/-- One call of each, the second with its times moved. -/
theorem Moved.step {call : Call} {answer : Answer} (h : Moved k drawn s s') (hc : s.config.staleInterval.val ≤ 2 ^ 60)
    (hcall : call.Moves s.config k) (hs : s.step call = .ok (answer, t)) :
    ∃ t', s'.step (call.move k) = .ok (answer.move k, t') ∧ Moved k (drawn || answer.draws) t t' := by
  cases call with
  | decide sample now reply =>
    obtain ⟨hsample, hnow⟩ := hcall
    obtain ⟨⟨ruling, t₁⟩, hd, hs⟩ := Fault.bind_eq_ok.1 hs
    cases hs
    obtain ⟨t', hd', hmoved⟩ := h.decide hc hsample hnow hd
    refine ⟨t', ?_, hmoved⟩
    rw [Call.move, Scheduler.step, hd']
    rfl
  | recordRender path =>
    obtain ⟨houtcome, hmoved⟩ := h.recordRender path
    rw [step_recordRender] at hs
    cases hs
    rw [Call.move, step_recordRender, houtcome]
    exact ⟨_, rfl, (Bool.or_false drawn).symm ▸ hmoved⟩
  | notify proportion =>
    obtain ⟨hconfig, hstate, hstatistics, hanchored, hdrawn⟩ := h
    rw [step_notify] at hs
    cases hs
    rw [Call.move, step_notify, hstate]
    exact ⟨_, rfl, (Bool.or_false drawn).symm ▸ ⟨hconfig, rfl, hstatistics, hanchored, hdrawn⟩⟩
  | reset => exact hcall.elim

theorem config_of_step {call : Call} {answer : Answer} (h : s.step call = .ok (answer, t)) : t.config = s.config := by
  cases call with
  | decide sample now reply =>
    obtain ⟨⟨ruling, t₁⟩, hd, h⟩ := Fault.bind_eq_ok.1 h
    cases h
    exact (decide_eq_ok hd).2.2.1
  | recordRender path =>
    rw [step_recordRender] at h
    cases h
    rfl
  | notify proportion =>
    rw [step_notify] at h
    cases h
    rfl
  | reset =>
    cases h
    rfl

theorem Moved.run (h : Moved k drawn s s') (hc : s.config.staleInterval.val ≤ 2 ^ 60)
    (hcalls : ∀ call ∈ calls, call.Moves s.config k) (hr : s.run calls = .ok (answers, t)) :
    ∃ t', s'.run (calls.map (·.move k)) = .ok (answers.map (·.move k), t') ∧
      Moved k (drawn || answers.any (·.draws)) t t' := by
  induction calls generalizing drawn s s' answers with
  | nil =>
    cases hr
    exact ⟨s', rfl, (Bool.or_false drawn).symm ▸ h⟩
  | cons call calls ih =>
    obtain ⟨⟨answer, s₁⟩, hs, hr⟩ := Fault.bind_eq_ok.1 hr
    obtain ⟨⟨rest, s₂⟩, hr, he⟩ := Fault.bind_eq_ok.1 hr
    cases he
    have hconfig := config_of_step hs
    obtain ⟨s₁', hs', hmoved⟩ := h.step hc (hcalls call List.mem_cons_self) hs
    obtain ⟨t', hr', hmoved'⟩ := ih hmoved (hconfig ▸ hc)
      (fun call hcall => hconfig ▸ hcalls call (List.mem_cons_of_mem _ hcall)) hr
    refine ⟨t', ?_, ?_⟩
    · rw [List.map_cons, Scheduler.run, hs', Fault.ok_bind]
      dsimp only
      rw [hr']
      rfl
    · rw [List.any_cons, ← Bool.or_assoc]
      exact hmoved'

/-- **Shifts**: if all times of a run are moved by `k`, so are the times in its answers and in the state, and nothing
else changes, down to the figures. -/
theorem shift_of_run (hc : c.staleInterval.val ≤ 2 ^ 60) (hcalls : ∀ call ∈ calls, call.Moves c k)
    (h : (ofConfig c).run calls = .ok (answers, s)) :
    ∃ s' figures, (ofConfig c).run (calls.map (·.move k)) = .ok (answers.map (·.move k), s') ∧
      s'.state = s.state.move k (answers.any (·.draws)) ∧
      s.statistics.summary = .ok figures ∧ s'.statistics.summary = .ok figures := by
  obtain ⟨s', hr, hmoved⟩ := (moved_ofConfig c k).run hc hcalls h
  obtain ⟨history, hh, -, -⟩ := (run_invariant (kept_recalls c) (recalls_empty c) h).statistics
  obtain ⟨figures, hsummary⟩ := hh.summary_ok
  exact ⟨s', figures, hr, hmoved.state, hsummary, hmoved.statistics.summary.trans hsummary⟩

/-- A wait, a draw to catch up and a drop, an hour later. -/
theorem shift_of_run_hour :
    let k : Ticks := 36000000000
    let calls : List Call := [.decide ⟨.ofMillis 100, .ofMillis 140, false⟩ (.ofMillis 60) .accepted, .notify 500,
      .decide ⟨.ofMillis 140, .ofMillis 180, true⟩ (.ofMillis 150) .accepted, .recordRender (.blitted 0 9000000),
      .recordRender (.blitted 0 9000000),
      .decide ⟨.ofMillis 180, .ofMillis 220, false⟩ (.ofMillis 400) (.failed .rejected)]
    Config.standard.staleInterval.val ≤ 2 ^ 60 ∧ (∀ call ∈ calls, call.Moves .standard k) ∧
      ∃ answers s s' figures, (ofConfig .standard).run calls = .ok (answers, s) ∧
        (Transcript.log (calls.zip answers)).map (·.decision) = [.drawAt (.ofMillis 92), .drawNow, .drop] ∧
        (ofConfig .standard).run (calls.map (·.move k)) = .ok (answers.map (·.move k), s') ∧
        s'.state = s.state.move k (answers.any (·.draws)) ∧
        s.statistics.summary = .ok figures ∧ s'.statistics.summary = .ok figures := by
  intro k calls
  have hcalls : ∀ call ∈ calls, call.Moves .standard k := by
    refine List.forall_mem_cons.2 ⟨?_, List.forall_mem_cons.2 ⟨trivial, List.forall_mem_cons.2 ⟨?_,
      List.forall_mem_cons.2 ⟨trivial, List.forall_mem_cons.2 ⟨trivial, List.forall_mem_cons.2 ⟨?_, by simp⟩⟩⟩⟩⟩⟩
    all_goals
      refine ⟨⟨⟨?_, ?_⟩, ⟨?_, ?_⟩, Or.inr ?_⟩, ⟨?_, ?_⟩⟩
      all_goals decide
  obtain ⟨s', figures, hr, hs, hf, hf'⟩ := shift_of_run (c := .standard) (k := k) (by decide) hcalls rfl
  exact ⟨by decide, hcalls, _, _, s', figures, rfl, rfl, hr, hs, hf, hf'⟩

end Scheduler

end FramePacing
