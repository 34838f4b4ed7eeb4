import FramePacing.Proofs.Scheduler.Steady

/-!
# A steady stream brings playback back on pace

Only catching up keeps a scheduler from drawing the frames of a steady stream on schedule. The first frame of the stream
clears the mark of a drop, and from then on what is left is an average interval that is too long. Each frame that is
drawn to catch up takes a tenth off what the average exceeds the duration by, `State.WithinReach.next`; that is a word of
64 bits at first, so some 330 frames take it down to a sixteenth of any duration of 16 ms or more. From there on every
frame is drawn on schedule: `Scheduler.resumption_of_run`.
-/

namespace FramePacing

namespace State

variable {r : SteadyStream} {i m : Nat} {s s' : State} {d : Ticks} {reply : Reply} {decision : Decision}

/-! ### The excess of the average interval -/

/-- `m` times a tenth off the excess of the average interval over the duration `d` leave a sixteenth of it at most. -/
def WithinReach (d : Ticks) (m : Nat) (s : State) : Prop :=
  (s.frameAvg.val - d.val) * 9 ^ m ≤ d.val.tdiv 16 * 10 ^ m

theorem WithinReach.next (h : s.WithinReach d (m + 1))
    (hshrink : 10 * (s'.frameAvg.val - d.val) ≤ 9 * (s.frameAvg.val - d.val)) : s'.WithinReach d m := by
  unfold WithinReach at h ⊢
  have hpow : (0 : Int) ≤ 9 ^ m := Int.pow_nonneg (by decide)
  have htenth : 10 * ((s'.frameAvg.val - d.val) * 9 ^ m) ≤ 10 * (d.val.tdiv 16 * 10 ^ m) :=
    calc 10 * ((s'.frameAvg.val - d.val) * 9 ^ m) = 10 * (s'.frameAvg.val - d.val) * 9 ^ m := by ring
      _ ≤ 9 * (s.frameAvg.val - d.val) * 9 ^ m := Int.mul_le_mul_of_nonneg_right hshrink hpow
      _ = (s.frameAvg.val - d.val) * 9 ^ (m + 1) := by ring
      _ ≤ d.val.tdiv 16 * 10 ^ (m + 1) := h
      _ = 10 * (d.val.tdiv 16 * 10 ^ m) := by ring
  omega

/-- No word exceeds 16 ms by more than 330 tenths take off. -/
theorem withinReach_far (s : State) (hd : 160000 ≤ d.val) : s.WithinReach d 330 := by
  have hrange := Word.signed64_range s.frameAvg
  have hq : (10000 : Int) ≤ d.val.tdiv 16 := Int.le_tdiv_of_mul_le (by decide) hd
  have hdecay : (9223372036854775808 : Int) * 9 ^ 330 ≤ 10000 * 10 ^ 330 := by decide +kernel
  calc (s.frameAvg.val - d.val) * 9 ^ 330
      ≤ 9223372036854775808 * 9 ^ 330 := Int.mul_le_mul_of_nonneg_right (by omega) (Int.pow_nonneg (by decide))
    _ ≤ 10000 * 10 ^ 330 := hdecay
    _ ≤ d.val.tdiv 16 * 10 ^ 330 := Int.mul_le_mul_of_nonneg_right hq (Int.pow_nonneg (by decide))

/-! ### Frame by frame -/

/-- The state behind frame `i` of a stream, when `m` frames at most are left that are drawn to catch up. -/
structure Following (r : SteadyStream) (i m : Nat) (s : State) : Prop where
  normalRun : 0 ≤ s.normalRun.val
  earliness : s.earliness.val ≤ 0
  rate : s.rateChanged r.duration = false
  lastDraw : s.lastDraw = r.offered i
  near : s.WithinReach r.duration m

/-- The state before frame `i` of a stream, when `m` frames at most are left that are drawn to catch up. -/
inductive Settling (r : SteadyStream) : Nat → Nat → State → Prop where
  /-- Of the state in which the stream finds a scheduler nothing is known. -/
  | found {i : Nat} {s : State} (normalRun : -1 ≤ s.normalRun.val) (earliness : s.earliness.val ≤ 0) :
      Settling r i 331 s
  | following {i m : Nat} {s : State} (h : Following r i m s) : Settling r (i + 1) m s

/-- With no frame left to catch up with, the state is on pace. -/
theorem Following.onPace (h : Following r i 0 s) : s.OnPace r.duration where
  normalRun := h.normalRun
  earliness := h.earliness
  frameAvg := by
    intro _
    have hnear := h.near
    rw [WithinReach, Int.pow_zero, Int.pow_zero, Int.mul_one, Int.mul_one] at hnear
    omega

theorem Met.following (h : Met (r.frame i) (r.offered i) decision s') (hd : 0 ≤ r.duration.val) (hi : i < r.length)
    (hn : 0 ≤ s'.normalRun.val) (hnear : s'.WithinReach r.duration m) : Following r i m s' where
  normalRun := hn
  earliness := by rw [h.earliness, Word.val_zero]
  rate := SteadyStream.duration_frame hd hi ▸ h.rate
  lastDraw := h.lastDraw
  near := hnear

/-- A frame that is drawn on schedule is the end of catching up. -/
theorem KeptPace.following (h : KeptPace s (r.frame i) (r.offered i) decision s') (hd : 0 ≤ r.duration.val)
    (hi : i < r.length) : Following r i 0 s' := by
  have hq : 0 ≤ r.duration.val.tdiv 16 := Int.tdiv_nonneg hd (by decide)
  refine h.toMet.following hd hi h.onPace.normalRun ?_
  rw [WithinReach, h.frameAvg, SteadyStream.duration_frame hd hi]
  omega

/-- The interval between two frames of a stream is its duration, as long as the frames are not stale by then. -/
theorem Following.interval_offered (h : Following r i m s) (hshort : r.duration.val ≤ 10000000)
    (hdelay : r.delay.val ≤ r.duration.val) (hi : i + 1 < r.length) :
    s.interval .standard (r.offered (i + 1)) = r.duration := by
  have hstale : Config.standard.staleInterval.val = 10000000 := rfl
  apply Word.ext
  rw [interval, h.lastDraw, SteadyStream.offered_succ_sub hdelay hi, Word.val_min]
  omega

/-- A frame that is drawn to catch up takes a tenth off. -/
theorem Following.caughtUp (h : Following r i (m + 1) s) (hnear : 2 * (r.delay.val + 80000) < r.duration.val)
    (hshort : r.duration.val ≤ 10000000) (hi : i + 1 < r.length)
    (hr : Ruled .standard s (r.frame (i + 1)) (r.offered (i + 1)) reply .drawNow s')
    (hcatch : (s.prepared .standard (r.frame (i + 1)) (r.offered (i + 1)) reply).catchesUp .standard
      (Config.standard.compensate (r.frame (i + 1))) = true) : s'.WithinReach r.duration m := by
  have hdelay := r.delay_nonneg
  have hprompt : Config.standard.Prompt (r.frame (i + 1)) (r.offered (i + 1)) := SteadyStream.prompt_frame hnear hi
  have hduration := SteadyStream.duration_frame (by omega) hi
  have hq : 0 ≤ r.duration.val.tdiv 16 := Int.tdiv_nonneg (by omega) (by decide)
  have hrun := h.normalRun
  have hsame : (s.prepared .standard (r.frame (i + 1)) (r.offered (i + 1)) reply).frameAvg = s.frameAvg := by
    rw [prepared_frameAvg, Config.duration_compensate _ hprompt.lasts, hduration, h.rate, if_neg Bool.false_ne_true]
  -- nothing was dropped, so it is the interval that is too long
  have hlong := (catchesUp_iff_of_prompt Config.lenient_standard hprompt).1 hcatch
  rw [hsame, hduration] at hlong
  have hpos : 0 ≤ r.duration.val := by omega
  have havg : 0 ≤ s.frameAvg.val := by omega
  have hperiod : Config.standard.average.period.val = 10 := rfl
  have hexcess := Config.standard.average.period_mul_excess_le hpos havg
  rw [hperiod] at hexcess
  refine h.near.next ?_
  rw [(caughtUp_of_catchesUp hr hcatch).2, hsame, h.interval_offered hshort (by omega) hi]
  exact hexcess

theorem Settling.normalRun (hs : Settling r i m s) : -1 ≤ s.normalRun.val := by
  cases hs with
  | found normalRun earliness => exact normalRun
  | following h => exact Int.le_trans (by decide) h.normalRun

theorem Settling.earliness (hs : Settling r i m s) : s.earliness.val ≤ 0 := by
  cases hs with
  | found normalRun earliness => exact earliness
  | following h => exact h.earliness

/-- The next frame of a stream is drawn on schedule, or there is one less to catch up with. -/
theorem Settling.ruled (hs : Settling r i m s) (hnear : 2 * (r.delay.val + 80000) < r.duration.val)
    (hshort : r.duration.val ≤ 10000000) (hi : i < r.length)
    (hr : Ruled .standard s (r.frame i) (r.offered i) reply decision s') :
    KeptPace s (r.frame i) (r.offered i) decision s' ∨
      ∃ l, m = l + 1 ∧ Met (r.frame i) (r.offered i) decision s' ∧ s'.normalRun = 0 ∧ Following r i l s' := by
  have hdelay := r.delay_nonneg
  have hprompt : Config.standard.Prompt (r.frame i) (r.offered i) := SteadyStream.prompt_frame hnear hi
  have hmet := met_of_prompt Config.lenient_standard hprompt hs.earliness hr
  have hpace := catchesUp_eq_false_iff Config.lenient_standard hprompt hs.normalRun hs.earliness reply
  cases hcatch : (s.prepared .standard (r.frame i) (r.offered i) reply).catchesUp .standard
      (Config.standard.compensate (r.frame i)) with
  | false => exact .inl ((hpace.1 hcatch).ruled Config.lenient_standard hprompt hr)
  | true =>
    right
    obtain rfl := hmet.decision
    have hrun := (caughtUp_of_catchesUp hr hcatch).1
    have hrun0 : 0 ≤ s'.normalRun.val := by
      rw [hrun]
      decide
    cases hs with
    | found normalRun earliness =>
      exact ⟨330, rfl, hmet, hrun, hmet.following (by omega) hi hrun0 (withinReach_far s' (by omega))⟩
    | @following i m s h =>
      cases m with
      | zero =>
        rw [SteadyStream.duration_frame (by omega) hi] at hpace
        exact absurd (hcatch.symm.trans (hpace.2 h.onPace)) (by decide)
      | succ l =>
        exact ⟨l, rfl, hmet, hrun, hmet.following (by omega) hi hrun0 (h.caughtUp hnear hshort hi hr hcatch)⟩

/-! ### Paints and acknowledgements between the frames -/

theorem Following.rendered (h : Following r i m s) (path : RenderPath) :
    Following r i m (s.rendered .standard path) := by
  cases path <;> exact { h with }

theorem Settling.rendered (hs : Settling r i m s) (path : RenderPath) :
    Settling r i m (s.rendered .standard path) := by
  cases hs with
  | found normalRun earliness => cases path <;> exact .found normalRun earliness
  | following h => exact .following (h.rendered path)

theorem Settling.notified (hs : Settling r i m s) (throttle : Ticks) : Settling r i m { s with throttle } := by
  cases hs with
  | found normalRun earliness => exact .found normalRun earliness
  | following h => exact .following { h with }

end State

namespace Scheduler

/-! ### Runs over a stream -/

/-- The `j`-th turn of a scheduler that plays a steady stream after `k` frames to catch up: every frame is drawn at
once. The run of normal frames was `run` before the first frame on schedule. -/
structure Resumed (d : Ticks) (k : Nat) (run : Int) (j : Nat) (t : Turn) : Prop where
  decision : t.ruling.decision = .drawNow
  earliness : t.after.state.earliness = 0
  catchingUp : j < k → t.after.state.normalRun = 0
  frameAvg : k ≤ j → t.after.state.frameAvg = d
  normalRun : k ≤ j → t.after.state.normalRun.val = min (run + (j + 1 - k : Nat)) 2147483647

/-- One frame more to catch up with, put in front. -/
theorem Resumed.behind {d : Ticks} {k j : Nat} {run : Int} {t : Turn} (h : Resumed d k run j t) :
    Resumed d (k + 1) run (j + 1) t where
  decision := h.decision
  earliness := h.earliness
  catchingUp hlt := h.catchingUp (by omega)
  frameAvg hle := h.frameAvg (by omega)
  normalRun hle := by
    rw [h.normalRun (by omega)]
    omega

/-- One frame more on schedule, put in front. -/
theorem Resumed.onward {d : Ticks} {j : Nat} {run : Int} {t : Turn} (h : Resumed d 0 (min (run + 1) 2147483647) j t) :
    Resumed d 0 run (j + 1) t where
  decision := h.decision
  earliness := h.earliness
  catchingUp hlt := absurd hlt (Nat.not_lt_zero _)
  frameAvg _ := h.frameAvg (Nat.zero_le j)
  normalRun _ := by
    rw [h.normalRun (Nat.zero_le j)]
    omega

variable {r : SteadyStream} {i m : Nat} {s : Scheduler} {calls : List Call}

theorem turns_settling (hnear : 2 * (r.delay.val + 80000) < r.duration.val) (hshort : r.duration.val ≤ 10000000)
    (h : r.Feeds i calls) (hconfig : s.config = .standard) (hs : s.state.Settling r i m) :
    ∃ k ≤ m, ∀ j t, (s.turns calls)[j]? = some t →
      Resumed r.duration k (if k = 0 then s.state.normalRun.val else 0) j t := by
  induction h generalizing s m with
  | done => exact ⟨0, Nat.zero_le m, fun j t ht => by cases ht⟩
  | @offer i calls lt reply rest ih =>
    rw [turns]
    cases hd : s.decide (r.frame i) (r.offered i) reply with
    | error e => exact ⟨0, Nat.zero_le m, fun j t ht => by cases ht⟩
    | ok p =>
      obtain ⟨ruling, s'⟩ := p
      obtain ⟨hr, -, hconfig', -⟩ := decide_eq_ok hd
      rw [hconfig] at hr hconfig'
      rcases hs.ruled hnear hshort lt hr with hkept | ⟨l, rfl, hmet, hrun, hfollowing⟩
      · -- on schedule, and so are all frames behind it
        have hdelay := r.delay_nonneg
        obtain ⟨k, hk, hrest⟩ := ih hconfig' (.following (hkept.following (by omega) lt))
        obtain rfl := Nat.le_zero.1 hk
        rw [if_pos rfl, hkept.normalRun] at hrest
        refine ⟨0, Nat.zero_le m, fun j t ht => ?_⟩
        cases j with
        | zero =>
          cases ht
          refine ⟨hkept.decision, hkept.earliness, fun hlt => absurd hlt (Nat.lt_irrefl 0), fun _ => ?_,
            fun _ => hkept.normalRun⟩
          exact hkept.frameAvg.trans (SteadyStream.duration_frame (by omega) lt)
        | succ j => exact (hrest j t ht).onward
      · obtain ⟨k, hk, hrest⟩ := ih hconfig' (.following hfollowing)
        rw [hrun, Word.val_zero, ite_self] at hrest
        refine ⟨k + 1, Nat.succ_le_succ hk, fun j t ht => ?_⟩
        cases j with
        | zero =>
          cases ht
          exact ⟨hmet.decision, hmet.earliness, fun _ => hrun, fun hle => absurd hle (Nat.not_succ_le_zero k),
            fun hle => absurd hle (Nat.not_succ_le_zero k)⟩
        | succ j => exact (hrest j t ht).behind
  | paint path rest ih =>
    obtain ⟨k, hk, hturns⟩ := ih (s := { s with state := s.state.rendered s.config path }) hconfig
      (by rw [hconfig]; exact hs.rendered path)
    rw [State.rendered_normalRun] at hturns
    rw [turns_recordRender]
    exact ⟨k, hk, hturns⟩
  | acknowledge proportion rest ih =>
    rw [turns_notify]
    exact ih hconfig (hs.notified proportion.delay)

/-- **Resumption**: whatever was called before, a steady stream of frames that are offered while they are due is drawn
without a gap, and after 331 frames at most no frame is drawn to catch up any more. -/
theorem resumption_of_run {before : List Call} {answers : List Answer}
    (hrun : (ofConfig .standard).run before = .ok (answers, s)) (hnear : 2 * (r.delay.val + 80000) < r.duration.val)
    (hshort : r.duration.val ≤ 10000000) (h : r.Feeds 0 calls) :
    (s.statistics.arrivals.count.val + r.length < 2 ^ 64 → (s.turns calls).length = r.length) ∧
      ∃ k ≤ 331, ∀ i t, (s.turns calls)[i]? = some t →
        Resumed r.duration k (if k = 0 then s.state.normalRun.val else 0) i t := by
  obtain ⟨hconfig, hb, -⟩ := run_invariant (kept_bounds .standard) ⟨rfl, bounded_initial _, follows_initial⟩ hrun
  refine ⟨fun hcount => ?_, turns_settling hnear hshort h hconfig (.found hb.normalRun hb.earliness.2)⟩
  exact length_turns h (room_of_run hrun hcount)

/-- Behind a drop at 500 ms comes a stream of three frames of 40 ms, each offered 5 ms after its start. -/
theorem resumption_of_run_drop :
    let before : List Call := [.decide ⟨.ofMillis 100, .ofMillis 110, false⟩ (.ofMillis 100) .accepted,
      .recordRender (.blitted 0 400000), .recordRender (.blitted 0 400000),
      .decide ⟨.ofMillis 110, .ofMillis 120, false⟩ (.ofMillis 500) .accepted]
    let r : SteadyStream := ⟨6000000, 400000, 50000, 3, by decide, by decide, by decide⟩
    let calls : List Call := [.notify 500, .decide (r.frame 0) (r.offered 0) .accepted,
      .recordRender (.blitted 0 9000000), .decide (r.frame 1) (r.offered 1) (.failed .rejected),
      .recordRender .direct, .decide (r.frame 2) (r.offered 2) (.failed .disconnected)]
    ∃ answers s, (ofConfig .standard).run before = .ok (answers, s) ∧ s.state.normalRun.val = -1 ∧
      2 * (r.delay.val + 80000) < r.duration.val ∧ r.duration.val ≤ 10000000 ∧ r.Feeds 0 calls ∧
      (s.turns calls).length = r.length ∧ ∃ k ≤ 331, ∀ i t, (s.turns calls)[i]? = some t →
        Resumed r.duration k (if k = 0 then s.state.normalRun.val else 0) i t := by
  intro before r calls
  have hfeeds : r.Feeds 0 calls := .acknowledge _ (.offer (by decide) _ (.paint _ (.offer (by decide) _
    (.paint _ (.offer (by decide) _ .done)))))
  have hrun : ∃ answers s, (ofConfig .standard).run before = .ok (answers, s) ∧ s.state.normalRun.val = -1 ∧
      s.statistics.arrivals.count.val = 2 := ⟨_, _, rfl, rfl, rfl⟩
  obtain ⟨answers, s, hrun, hdrop, hcount⟩ := hrun
  obtain ⟨hlength, hturns⟩ := resumption_of_run hrun (by decide) (by decide) hfeeds
  exact ⟨answers, s, hrun, hdrop, by decide, by decide, hfeeds, hlength (by rw [hcount]; decide), hturns⟩

end Scheduler

end FramePacing
