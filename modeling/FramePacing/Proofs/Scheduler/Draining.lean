import FramePacing.Proofs.Scheduler.InTime
import Mathlib.Logic.Function.Iterate
import Mathlib.Tactic.Ring

/-!
# The earliness budget drains

A frame that is earlier than the budget reaches takes an eighth off the budget, rounded toward zero. So the budget never
grows, and what it exceeds seven ticks by shrinks by an eighth at least with every frame, `State.pow_mul_excess_le`:
after 328 frames no more than seven ticks are left of any budget.

Frames of one duration that follow each other without a gap and are all that early are never left out and never drawn to
catch up. Each waits for its start, ahead of it by what is left of the budget, as far as its duration covers that. The
times that they wait for are therefore a duration apart, and longer by no more than an eighth of the budget:
`Scheduler.drained_of_run`.
-/

namespace FramePacing

/-! ## Frames that are earlier than the budget reaches -/

namespace Config

/-- A sample of the duration `d` with nothing missing before it that counts as earlier than a budget `e` reaches. -/
structure Outruns (c : Config) (d e : Ticks) (sample : Sample) (now : StreamTime) : Prop where
  lasts : sample.duration = d
  continuous : sample.discontinuity = false
  early : (c.late (c.compensate sample).start now).val < e.val

variable {c : Config} {d e : Ticks} {sample : Sample} {now : StreamTime}

theorem Outruns.inTime (h : c.Outruns d e sample now) (hd : 0 < d.val) (he : e.val ≤ 0) : c.InTime sample now where
  lasts := by
    have hlasts := congrArg Word.val h.lasts
    rw [Sample.duration, StreamTime.val_sub] at hlasts
    rw [StreamTime.lt_iff]
    omega
  continuous := h.continuous
  early := by
    have hearly := h.early
    have hsub : now.ticks.val - (c.compensate sample).start.ticks.val ≤ (c.late (c.compensate sample).start now).val :=
      sub_le_late (by omega)
    rw [StreamTime.le_iff]
    omega

/-- What a display that lags takes off the start, from which all of it can be taken. -/
theorem val_start_compensate (h : max c.displayLag.val 0 ≤ sample.start.ticks.val) :
    (c.compensate sample).start.ticks.val = sample.start.ticks.val - max c.displayLag.val 0 := by
  have hlag := Word.signed64_range c.displayLag
  have hstart := Word.signed64_range sample.start.ticks
  unfold compensate
  split
  · next hc =>
    have hpos : 0 < c.displayLag.val := hc.1
    rw [StreamTime.val_sub_span]
    omega
  · next hc =>
    have hzero : ¬ 0 < c.displayLag.val := fun hpos => hc ⟨hpos, by rw [Word.le_iff]; omega⟩
    omega

end Config

namespace State

/-! ## The budget -/

/-- What a frame leaves of an earliness budget. -/
def drain (e : Int) : Int := e - e.tdiv 8

/-- An eighth of the budget, rounded down, is used up. -/
theorem drain_eq {e : Int} (h : e ≤ 0) : drain e = e + -e / 8 := by
  have hneg : e.tdiv 8 = -(-e / 8) := by
    rw [← Int.tdiv_eq_ediv_of_nonneg (by omega), Int.neg_tdiv, Int.neg_neg]
  rw [drain, hneg]
  omega

theorem iterate_drain_mem {e : Int} (h : e ≤ 0) (n : Nat) : e ≤ drain^[n] e ∧ drain^[n] e ≤ 0 := by
  induction n with
  | zero => exact ⟨Int.le_refl e, h⟩
  | succ n ih =>
    have hdrain := drain_eq ih.2
    rw [Function.iterate_succ_apply']
    omega

/-- What exceeds seven ticks shrinks by an eighth at least with every frame. -/
theorem pow_mul_excess_le {e : Int} (h : e ≤ 0) (n : Nat) : 8 ^ n * (-drain^[n] e - 7) ≤ 7 ^ n * (-e - 7) := by
  induction n with
  | zero => exact Int.le_refl _
  | succ n ih =>
    have hstep : 8 * (-drain (drain^[n] e) - 7) ≤ 7 * (-drain^[n] e - 7) := by
      have hdrain := drain_eq (iterate_drain_mem h n).2
      omega
    rw [Function.iterate_succ_apply']
    calc 8 ^ (n + 1) * (-drain (drain^[n] e) - 7)
        = 8 ^ n * (8 * (-drain (drain^[n] e) - 7)) := by ring
      _ ≤ 8 ^ n * (7 * (-drain^[n] e - 7)) := Int.mul_le_mul_of_nonneg_left hstep (Int.pow_nonneg (by decide))
      _ = 7 * (8 ^ n * (-drain^[n] e - 7)) := by ring
      _ ≤ 7 * (7 ^ n * (-e - 7)) := Int.mul_le_mul_of_nonneg_left ih (by decide)
      _ = 7 ^ (n + 1) * (-e - 7) := by ring

/-- Of no word more than seven ticks are left after 328 frames. -/
theorem neg_seven_le_iterate_drain {e : Int} (hlow : -9223372036854775808 ≤ e) (h : e ≤ 0) {n : Nat} (hn : 328 ≤ n) :
    -7 ≤ drain^[n] e := by
  obtain ⟨k, rfl⟩ := Nat.exists_eq_add_of_le' hn
  have hrest := iterate_drain_mem (iterate_drain_mem h 328).2 k
  have hexcess := pow_mul_excess_le h 328
  have hword : (7 : Int) ^ 328 * (-e - 7) ≤ 7 ^ 328 * 9223372036854775808 :=
    Int.mul_le_mul_of_nonneg_left (by omega) (Int.pow_nonneg (by decide))
  have hdecay : (7 : Int) ^ 328 * 9223372036854775808 < 8 ^ 328 * 1 := by decide +kernel
  have hlt : -drain^[328] e - 7 < 1 :=
    Int.lt_of_mul_lt_mul_left (by omega) (Int.pow_nonneg (by decide) : (0 : Int) ≤ 8 ^ 328)
  rw [Function.iterate_add_apply]
  omega

/-! ## One frame -/

variable {c : Config} {d : Ticks} {s s' : State} {sample : Sample} {now : StreamTime} {reply : Reply}
  {decision : Decision}

/-- The latest frame was not left out, and frames come at intervals of the duration `d`, which was the latest to be
followed. -/
structure InStep (d : Ticks) (s : State) : Prop where
  normalRun : 0 ≤ s.normalRun.val
  frameAvg : s.frameAvg = d
  frameDuration : s.frameDuration = d

theorem InStep.onPace (hs : s.InStep d) (hd : 0 < d.val) (he : s.earliness.val ≤ 0) : s.OnPace d where
  normalRun := hs.normalRun
  earliness := he
  frameAvg := by
    have hq : 0 ≤ d.val.tdiv 16 := Int.tdiv_nonneg (Int.le_of_lt hd) (by decide)
    intro _
    rw [hs.frameAvg]
    omega

theorem InStep.rendered (hs : s.InStep d) (path : RenderPath) : (s.rendered c path).InStep d := by
  cases path <;> exact { hs with }

theorem rendered_earliness (s : State) (c : Config) (path : RenderPath) :
    (s.rendered c path).earliness = s.earliness := by
  cases path <;> rfl

/-- What becomes of a frame that is earlier than the budget reaches. -/
structure Drained (c : Config) (s : State) (sample : Sample) (decision : Decision) (s' : State) : Prop where
  waits : ∃ time, decision = .drawAt time ∧ c.lead sample time = min sample.duration.val (-s'.earliness.val)
  earliness : s'.earliness.val = drain s.earliness.val

theorem prepared_earliness_of_outruns (h : c.Outruns d s.earliness sample now) (he : s.earliness.val ≤ 0)
    (hj : (s.prepared c sample now reply).justDropped (c.compensate sample) = false) :
    (s.prepared c sample now reply).earliness.val = drain s.earliness.val := by
  have hearly := h.early
  have hrange := Word.signed64_range s.earliness
  have hdrain := drain_eq he
  have hnot : ¬ 0 < c.late (c.compensate sample).start now := by
    rw [Word.lt_iff, Word.val_zero]
    omega
  have hwithin : ¬ s.earliness ≤ c.late (c.compensate sample).start now := Int.not_le.2 hearly
  rw [prepared_earliness, ← prepared_justDropped, hj, budget, heard_late, heard_earliness, if_neg hnot, Bool.or_false,
    if_neg (by rw [decide_eq_true_iff]; exact hwithin), ← drain, Word.val_saturate_signed64]
  omega

/-- It waits, drains the budget, and leaves the state in step. -/
theorem InStep.ruled (hs : s.InStep d) (hb : Bounded c s) (hgrace : 0 ≤ c.supplierGraceFrames.val) (hd : 0 < d.val)
    (h : c.Outruns d s.earliness sample now) (hr : Ruled c s sample now reply decision s') :
    Drained c s sample decision s' ∧ s'.InStep d := by
  have he := hb.earliness.2
  have hin := h.inTime hd he
  have hpace : s.OnPace sample.duration := h.lasts ▸ hs.onPace hd he
  have hdraws : (s.prepared c sample now reply).draws c (c.compensate sample) now = true := draws_of_inTime hgrace hin
  have hcatch : (s.prepared c sample now reply).catchesUp c (c.compensate sample) = false :=
    catchesUp_of_inTime hin hpace
  have hrun := hs.normalRun
  have hduration : (c.compensate sample).duration = d := (c.duration_compensate hin.lasts).trans h.lasts
  cases hr with
  | leftOut draws => exact absurd (draws.symm.trans hdraws) Bool.false_ne_true
  | caughtUp draws catchesUp => exact absurd (hcatch.symm.trans catchesUp) Bool.false_ne_true
  | due draws catchesUp late =>
    have hearly := h.early
    rw [prepared_late] at late
    omega
  | ahead draws catchesUp early =>
    obtain ⟨-, -, -, hlead⟩ := lead_of_wait hb (.ahead draws catchesUp early)
    refine ⟨⟨⟨_, rfl, ?_⟩, prepared_earliness_of_outruns h he (justDropped_of_inTime hin hpace)⟩, ?_, hduration, ?_⟩
    · rw [hlead, hduration, h.lasts]
      omega
    · change 0 ≤ ((s.prepared c sample now reply).normalRun.satAdd 1).val
      rw [prepared_normalRun]
      exact satAdd_one_range _ (by omega)
    · change (s.prepared c sample now reply).frameDuration = d
      rw [prepared_frameDuration, hduration, hs.frameDuration, ite_self]

/-- The times of two frames in a row, the second of which finds the budget that the first has left. -/
theorem Drained.spacing {s₁ s₁' : State} {next : Sample} {time time' : StreamTime}
    (h : Drained c s sample (.drawAt time) s') (h' : Drained c s₁ next (.drawAt time') s₁')
    (he : s'.earliness.val ≤ 0) (hbudget : s₁.earliness.val = s'.earliness.val) (hlasts : sample.duration = d)
    (hlasts' : next.duration = d) (hlag : max c.displayLag.val 0 ≤ sample.start.ticks.val) (hd : 0 < d.val)
    (hstart : next.start.ticks.val = sample.start.ticks.val + d.val) :
    d.val ≤ time'.ticks.val - time.ticks.val ∧
      time'.ticks.val - time.ticks.val ≤ d.val + s'.earliness.val.natAbs / 8 := by
  obtain ⟨time₁, htime, hlead⟩ := h.waits
  obtain ⟨time₁', htime', hlead'⟩ := h'.waits
  cases htime
  cases htime'
  rw [Config.lead, Config.val_start_compensate hlag, hlasts] at hlead
  rw [Config.lead, Config.val_start_compensate (by omega), hlasts', h'.earliness, hbudget, drain_eq he] at hlead'
  omega

end State

/-! ## Runs -/

namespace Scheduler

open State (drain)

/-- Whether a call asks for a decision. -/
def Call.isDecision : Call → Bool
  | .decide .. => true
  | _ => false

/-- The call that a turn has answered. -/
def Turn.call (turn : Turn) : Call := .decide turn.sample turn.now turn.reply

/-- How a sequence of turns uses up the earliness budget `e`. -/
structure DrainsSmoothly (c : Config) (d : Ticks) (e : Int) (turns : List Turn) : Prop where
  /-- Each frame waits for its start, ahead of it by what is left of the budget as far as the duration covers that. -/
  waits : ∀ turn ∈ turns, ∃ time, turn.ruling.decision = .drawAt time ∧
    c.lead turn.sample time = min d.val (-turn.after.state.earliness.val)
  /-- Each takes an eighth off the budget, which never grows -/
  drains : ∀ turn ∈ turns, turn.after.state.earliness.val = drain turn.before.state.earliness.val ∧
    turn.before.state.earliness.val ≤ turn.after.state.earliness.val ∧ turn.after.state.earliness.val ≤ 0
  /-- and is not touched between the frames. -/
  earliness : ∀ i turn, turns[i]? = some turn → turn.after.state.earliness.val = drain^[i + 1] e
  /-- What it exceeds seven ticks by shrinks by an eighth at least, -/
  excess : ∀ i turn, turns[i]? = some turn →
    8 ^ (i + 1) * (-turn.after.state.earliness.val - 7) ≤ 7 ^ (i + 1) * (-e - 7)
  /-- so that no more than seven ticks are left after 328 frames. -/
  residue : ∀ i turn, turns[i]? = some turn → 328 ≤ i + 1 → -7 ≤ turn.after.state.earliness.val
  /-- The times are a duration apart, and longer by no more than an eighth of what is left of the budget. -/
  spacing : ∀ i turn next time time', turns[i]? = some turn → turns[i + 1]? = some next →
    turn.ruling.decision = .drawAt time → next.ruling.decision = .drawAt time' →
      d.val ≤ time'.ticks.val - time.ticks.val ∧
        time'.ticks.val - time.ticks.val ≤ d.val + turn.after.state.earliness.val.natAbs / 8

variable {c : Config} {d : Ticks} {s : Scheduler} {calls : List Call} {start : Int}

/-- As far as the statistics can count them, no call for a decision is left without one. -/
theorem calls_of_turns (hroom : s.statistics.Room (calls.countP Call.isDecision))
    (hcalls : ∀ call ∈ calls, call ≠ .reset) : (s.turns calls).map Turn.call = calls.filter Call.isDecision := by
  induction calls generalizing s with
  | nil => rfl
  | cons call calls ih =>
    have hrest : ∀ call ∈ calls, call ≠ .reset := fun call hcall => hcalls call (List.mem_cons_of_mem _ hcall)
    cases call with
    | decide sample now reply =>
      rw [List.countP_cons_of_pos rfl] at hroom
      obtain ⟨ruling, s', hd, hroom'⟩ := decide_ok hroom sample now reply
      rw [turns, hd, List.filter_cons_of_pos rfl]
      exact congrArg (Call.decide sample now reply :: ·) (ih hroom' hrest)
    | recordRender path =>
      rw [turns_recordRender]
      exact ih hroom hrest
    | notify proportion =>
      rw [turns_notify]
      exact ih hroom hrest
    | reset => exact absurd rfl (hcalls _ List.mem_cons_self)

/-- Frame by frame: each finds the budget that the frames before it have left. -/
theorem turns_drained (hs : s.state.InStep d) (hb : s.state.Bounded c) (hconfig : s.config = c)
    (hgrace : 0 ≤ c.supplierGraceFrames.val) (hd : 0 < d.val) (hcalls : ∀ call ∈ calls, call ≠ .reset)
    (hearly : ∀ turn ∈ s.turns calls, c.Outruns d turn.before.state.earliness turn.sample turn.now) :
    ∀ i turn, (s.turns calls)[i]? = some turn →
      turn.before.state.earliness.val = drain^[i] s.state.earliness.val ∧ turn.before.state.earliness.val ≤ 0 ∧
        turn.before.state.Drained c turn.sample turn.ruling.decision turn.after.state := by
  induction calls generalizing s with
  | nil =>
    intro i turn ht
    cases ht
  | cons call calls ih =>
    have hrest : ∀ call ∈ calls, call ≠ .reset := fun call hcall => hcalls call (List.mem_cons_of_mem _ hcall)
    cases call with
    | decide sample now reply =>
      rw [turns] at hearly ⊢
      cases hdecide : s.decide sample now reply with
      | error e =>
        intro i turn ht
        cases ht
      | ok p =>
        obtain ⟨ruling, s'⟩ := p
        obtain ⟨hr, -, hconfig', -⟩ := decide_eq_ok hdecide
        rw [hdecide] at hearly
        rw [hconfig] at hr hconfig'
        obtain ⟨hfirst, hearly⟩ := List.forall_mem_cons.1 hearly
        obtain ⟨hdrained, hs'⟩ := hs.ruled hb hgrace hd hfirst hr
        have hturns := ih hs' (hb.ruled hr) hconfig' hrest hearly
        intro i turn ht
        cases i with
        | zero =>
          cases ht
          exact ⟨rfl, hb.earliness.2, hdrained⟩
        | succ i =>
          obtain ⟨hbefore, hturn⟩ := hturns i turn ht
          rw [Function.iterate_succ_apply, ← hdrained.earliness]
          exact ⟨hbefore, hturn⟩
    | recordRender path =>
      rw [turns_recordRender] at hearly ⊢
      have hturns := ih (s := { s with state := s.state.rendered s.config path }) (hs.rendered path)
        (by rw [hconfig]; exact hb.rendered path) hconfig hrest hearly
      rwa [State.rendered_earliness] at hturns
    | notify proportion =>
      rw [turns_notify] at hearly ⊢
      exact ih (s := { s with state := { s.state with throttle := proportion.delay } }) { hs with }
        { hb with throttle := proportion.delay_mem } hconfig hrest hearly
    | reset => exact absurd rfl (hcalls _ List.mem_cons_self)

/-- **Draining**: however a scheduler has come to be in step with frames of one duration, and whatever is painted,
acknowledged and replied, frames that follow each other without a gap and are earlier than the budget reaches all wait
for their time, and drain the budget smoothly. -/
theorem drained_of_run {before : List Call} {answers : List Answer} (hgrace : 0 ≤ c.supplierGraceFrames.val)
    (hrun : (ofConfig c).run before = .ok (answers, s)) (hs : s.state.InStep d) (hd : 0 < d.val)
    (hcalls : ∀ call ∈ calls, call ≠ .reset) (hlag : max c.displayLag.val 0 ≤ start)
    (hstart : ∀ (i : Nat) turn, (s.turns calls)[i]? = some turn → turn.sample.start.ticks.val = start + i * d.val)
    (hearly : ∀ turn ∈ s.turns calls, c.Outruns d turn.before.state.earliness turn.sample turn.now) :
    (s.statistics.arrivals.count.val + calls.countP Call.isDecision < 2 ^ 64 →
      (s.turns calls).map Turn.call = calls.filter Call.isDecision) ∧
    DrainsSmoothly c d s.state.earliness.val (s.turns calls) := by
  obtain ⟨hconfig, hb, -⟩ := run_invariant (kept_bounds c) ⟨rfl, bounded_initial c, follows_initial⟩ hrun
  have hturns := turns_drained hs hb hconfig hgrace hd hcalls hearly
  have he := hb.earliness.2
  have hrange := Word.signed64_range s.state.earliness
  have hafter : ∀ i turn, (s.turns calls)[i]? = some turn →
      turn.after.state.earliness.val = drain^[i + 1] s.state.earliness.val := by
    intro i turn ht
    obtain ⟨hbefore, -, hdrained⟩ := hturns i turn ht
    rw [Function.iterate_succ_apply', ← hbefore]
    exact hdrained.earliness
  refine ⟨fun hcount => calls_of_turns (room_of_run hrun hcount) hcalls, ?_, ?_, hafter, ?_, ?_, ?_⟩
  · intro turn ht
    obtain ⟨i, hi⟩ := List.mem_iff_getElem?.1 ht
    obtain ⟨-, -, hdrained⟩ := hturns i turn hi
    rw [← (hearly turn ht).lasts]
    exact hdrained.waits
  · intro turn ht
    obtain ⟨i, hi⟩ := List.mem_iff_getElem?.1 ht
    obtain ⟨-, hle, hdrained⟩ := hturns i turn hi
    have hdrain := State.drain_eq hle
    refine ⟨hdrained.earliness, ?_⟩
    rw [hdrained.earliness]
    omega
  · intro i turn ht
    rw [hafter i turn ht]
    exact State.pow_mul_excess_le he (i + 1)
  · intro i turn ht hi
    rw [hafter i turn ht]
    exact State.neg_seven_le_iterate_drain hrange.1 he hi
  · intro i turn next time time' ht hnext htime htime'
    obtain ⟨-, -, hdrained⟩ := hturns i turn ht
    obtain ⟨hbefore, hle, hdrained'⟩ := hturns (i + 1) next hnext
    have hpos : 0 ≤ i * d.val := Int.mul_nonneg (Int.natCast_nonneg i) (Int.le_of_lt hd)
    have hsucc : next.sample.start.ticks.val = turn.sample.start.ticks.val + d.val := by
      rw [hstart i turn ht, hstart (i + 1) next hnext, Int.natCast_succ, Int.add_mul, Int.one_mul, Int.add_assoc]
    rw [htime] at hdrained
    rw [htime'] at hdrained'
    have hbudget := hbefore.trans (hafter i turn ht).symm
    exact hdrained.spacing hdrained' (hbudget ▸ hle) hbudget (hearly turn (List.mem_of_getElem? ht)).lasts
      (hearly next (List.mem_of_getElem? hnext)).lasts (by rw [hstart i turn ht]; omega) hd hsucc

/-- The supplier has left a frame out, and the one behind it was drawn 33 ms early. The two frames after that drain the
budget to 28.875 ms and to 25.2657 ms, and wait for times that are 36.6093 ms apart. -/
theorem drained_of_run_behind_drop :
    let d : Ticks := 330000
    let before : List Call := [.decide ⟨.ofMillis 100, .ofMillis 133, false⟩ (.ofMillis 92) .accepted,
      .decide ⟨.ofMillis 166, .ofMillis 199, true⟩ (.ofMillis 125) .accepted]
    let calls : List Call := [.decide ⟨.ofMillis 199, .ofMillis 232, false⟩ (.ofMillis 150) .accepted,
      .recordRender (.blitted 0 9000000), .notify 500,
      .decide ⟨.ofMillis 232, .ofMillis 265, false⟩ (.ofMillis 180) (.failed .rejected)]
    0 ≤ Config.standard.supplierGraceFrames.val ∧ max Config.standard.displayLag.val 0 ≤ 1990000 ∧
      (∀ call ∈ calls, call ≠ .reset) ∧
      ∃ answers s, (ofConfig .standard).run before = .ok (answers, s) ∧ s.state.InStep d ∧
        s.state.earliness.val = -330000 ∧
        (∀ (i : Nat) turn, (s.turns calls)[i]? = some turn → turn.sample.start.ticks.val = 1990000 + i * d.val) ∧
        (∀ turn ∈ s.turns calls, Config.standard.Outruns d turn.before.state.earliness turn.sample turn.now) ∧
        (s.turns calls).map (·.ruling.decision) = [.drawAt ⟨1621250⟩, .drawAt ⟨1987343⟩] ∧
        (s.turns calls).map Turn.call = calls.filter Call.isDecision ∧
        DrainsSmoothly .standard d (-330000) (s.turns calls) := by
  intro d before calls
  have hcalls : ∀ call ∈ calls, call ≠ .reset := by decide
  have hrun : ∃ answers s, (ofConfig .standard).run before = .ok (answers, s) ∧ s.state.normalRun = 0 ∧
      s.state.frameAvg = d ∧ s.state.frameDuration = d ∧ s.state.earliness.val = -330000 ∧
      s.statistics.arrivals.count.val = 2 ∧
      (∀ p ∈ (s.turns calls).zipIdx, p.1.sample.start.ticks.val = 1990000 + p.2 * d.val) ∧
      (∀ turn ∈ s.turns calls, turn.sample.duration = d ∧ turn.sample.discontinuity = false ∧
        (Config.standard.late (Config.standard.compensate turn.sample).start turn.now).val <
          turn.before.state.earliness.val) ∧
      (s.turns calls).map (·.ruling.decision) = [.drawAt ⟨1621250⟩, .drawAt ⟨1987343⟩] :=
    ⟨_, _, rfl, rfl, rfl, rfl, rfl, rfl, by decide +kernel, by decide +kernel, by decide +kernel⟩
  obtain ⟨answers, s, hrun, hnormal, havg, hdur, hbudget, hcount, hstart, hearly, hdecisions⟩ := hrun
  have hs : s.state.InStep d := ⟨by rw [hnormal]; decide, havg, hdur⟩
  have hstart' : ∀ (i : Nat) turn, (s.turns calls)[i]? = some turn →
      turn.sample.start.ticks.val = 1990000 + i * d.val :=
    fun i turn ht => hstart ⟨turn, i⟩ (List.mem_zipIdx_iff_getElem?.2 ht)
  have hearly' : ∀ turn ∈ s.turns calls,
      Config.standard.Outruns d turn.before.state.earliness turn.sample turn.now :=
    fun turn ht => ⟨(hearly turn ht).1, (hearly turn ht).2.1, (hearly turn ht).2.2⟩
  have hroom : s.statistics.arrivals.count.val + calls.countP Call.isDecision < 2 ^ 64 := by
    rw [hcount]
    decide
  obtain ⟨hall, hsmooth⟩ := drained_of_run (by decide) hrun hs (by decide) hcalls (by decide) hstart' hearly'
  rw [hbudget] at hsmooth
  exact ⟨by decide, by decide, hcalls, answers, s, hrun, hs, hbudget, hstart', hearly', hdecisions, hall hroom, hsmooth⟩

end Scheduler

end FramePacing
