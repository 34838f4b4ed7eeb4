import FramePacing.Proofs.Scheduler.Regular
import FramePacing.Proofs.Scheduler.Steady

/-!
# The figures of a steady stream

A new scheduler is on pace, so it plays a steady stream from the first frame on without catching up, and the log has
every frame drawn when it is offered. The history that this amounts to is as regular as the stream: offsets and frame
times are one value over and over, without a deviation, and the times in the rings are one duration apart.
-/

namespace FramePacing

namespace SteadyStream

variable (r : SteadyStream) {n i : Nat}

/-! ### The history of a stream -/

/-- The line in the log for frame `i`. -/
def decided (i : Nat) : Decided := ⟨r.frame i, r.offered i, .drawNow⟩

/-- The log of the first `n` frames. -/
def log (n : Nat) : List Decided := (List.range n).map r.decided

/-- Frame `i` as it is shown. -/
def shown : Nat → Shown
  | 0 => .after (r.offered 0 - StreamTime.agesAgo) (r.offered 0) (r.offered 0 - r.begins 0)
  | i + 1 => .after (r.offered (i + 1) - r.offered i) (r.offered (i + 1)) (r.offered (i + 1) - r.begins (i + 1))

theorem shown_eq_regular : r.shown = Shown.regular r.begins r.offered := by
  funext i
  cases i <;> rfl

theorem ofLog_log (n : Nat) :
    History.ofLog (r.log n) = ⟨(List.range n).map r.offered, (List.range n).map r.shown, 0⟩ := by
  have hshown : (History.ofLog (r.log n)).shown = (List.range n).map r.shown := by
    rw [shown_eq_regular]
    refine History.shown_ofLog ?_
    rw [log, List.map_map]
    rfl
  have harrivals : (History.ofLog (r.log n)).arrivals = (List.range n).map r.offered := List.map_map
  have hdrops : (History.ofLog (r.log n)).drops = 0 := by
    refine List.countP_eq_zero.2 fun d hd => ?_
    obtain ⟨i, -, rfl⟩ := List.mem_map.1 hd
    exact Bool.false_ne_true
  rw [← harrivals, ← hshown, ← hdrops]

theorem shown_log (n : Nat) :
    (History.ofLog (r.log n)).shown = (List.range n).map (Shown.regular r.begins r.offered) := by
  rw [ofLog_log, shown_eq_regular]

variable {r}

theorem offered_sub_begins (hd : r.delay.val ≤ r.duration.val) (hi : i < r.length) :
    r.offered i - r.begins i = r.delay := by
  have hrange := Word.signed64_range r.delay
  apply Word.ext
  rw [StreamTime.val_sub, val_offered hd hi]
  omega

/-- All offsets are the delay. -/
theorem offsets_log (hd : r.delay.val ≤ r.duration.val) :
    (History.ofLog (r.log r.length)).offsets =
      List.replicate (r.length - 1) (Statistics.countedOffset r.delay) :=
  History.offsets_regular (r.shown_log _) fun _ hi => congrArg Statistics.countedOffset (offered_sub_begins hd hi)

/-- All frame times are the duration. -/
theorem frameTimes_log (hd : r.delay.val ≤ r.duration.val) :
    (History.ofLog (r.log r.length)).frameTimes =
      List.replicate (r.length - 2) (Statistics.frameMillis r.duration) :=
  History.frameTimes_regular (r.shown_log _) fun _ hi => congrArg Statistics.frameMillis (offered_succ_sub hd hi)

/-- The times in a ring are one duration apart. -/
theorem hundredths_offered (hd : r.delay.val ≤ r.duration.val) (hpos : 0 < r.duration.val) (h2 : 2 ≤ r.length) :
    Ring.hundredths (((List.range r.length).map r.offered).rtake 32) = 1000000000 / r.duration.val := by
  refine Ring.hundredths_range hpos h2 ?_
  rw [show r.length - 1 = r.length - 32 + (min r.length 32 - 1) by omega]
  exact val_offered_sub hd (by omega)

theorem val_countedOffset_delay (hdelay : r.delay.val ≤ 10000000) :
    (Statistics.countedOffset r.delay).val = r.delay.val / 10000 := by
  have hnonneg := r.delay_nonneg
  rw [Statistics.val_countedOffset, Int.tdiv_eq_ediv_of_nonneg hnonneg]
  omega

/-- A stream is not so long that a value which a duration outweighs could saturate the moments. -/
theorem mul_lt_of_le_length {k : Nat} {x : Int} (hk : k ≤ r.length) (hx : 1000 * x ≤ r.duration.val)
    (hpos : 0 < r.duration.val) : (k : Int) < 2 ^ 62 ∧ k * (1000 * x) < 2 ^ 62 := by
  have hstart := r.start_nonneg
  have hfits := r.fits
  have hmem := mul_duration_mem (Int.le_of_lt hpos) hk
  have hcount : k * 1 ≤ k * r.duration.val := Int.mul_le_mul_of_nonneg_left hpos (by omega)
  have hsum : k * (1000 * x) ≤ k * r.duration.val := Int.mul_le_mul_of_nonneg_left hx (by omega)
  omega

end SteadyStream

/-! ### The figures of that history -/

/-- The figures are those of a steady stream, measured exactly. -/
structure StatisticsSummary.Steady (f : StatisticsSummary) (r : SteadyStream) : Prop where
  framesDrawn : f.framesDrawn.val = min (r.length : Int) 4294967295
  framesDropped : f.framesDropped.val = 0
  offsetDeviationMs : f.offsetDeviationMs.val = 0
  jitterMs : f.jitterMs.val = 0
  meanOffsetMs : 2 ≤ r.length → f.meanOffsetMs.val = r.delay.val / 10000
  frameRate : 2 ≤ r.length → f.frameRate.val = 1000000000 / r.duration.val
  arrivalRate : 2 ≤ r.length → f.arrivalRate.val = 1000000000 / r.duration.val

theorem Statistics.Holds.steady {s : Statistics} {r : SteadyStream} (hs : s.Holds (.ofLog (r.log r.length)))
    (hdelay : r.delay.val ≤ 10000000) (hlt : r.delay.val < r.duration.val) :
    ∃ f, s.summary = .ok f ∧ f.Steady r := by
  have hnonneg := r.delay_nonneg
  have hpos : 0 < r.duration.val := by omega
  have hoffset := SteadyStream.val_countedOffset_delay hdelay
  have hframeTime := Statistics.frameMillis_mem r.duration
  have hcounted := Statistics.frameMillis_le (Int.le_of_lt hpos)
  have hm := SteadyStream.mul_lt_of_le_length (Nat.sub_le r.length 1)
    (show 1000 * (Statistics.countedOffset r.delay).val ≤ r.duration.val by omega) hpos
  have hf := SteadyStream.mul_lt_of_le_length (Nat.sub_le r.length 2)
    (show 1000 * (Statistics.frameMillis r.duration).val ≤ r.duration.val by omega) hpos
  have hoffsets := SteadyStream.offsets_log (Int.le_of_lt hlt)
  obtain ⟨f, hsummary, hdeviation, hjitter, hmean, hdrawn, hdropped, hframeRate, harrivalRate⟩ := hs.constant
    ⟨_, _, hoffsets, ⟨by omega, Int.le_refl _⟩, by omega, by omega, by omega⟩
    ⟨_, _, SteadyStream.frameTimes_log (Int.le_of_lt hlt), ⟨by omega, Int.le_refl _⟩, hframeTime.2, by omega, by omega⟩
  refine ⟨f, hsummary, ?_⟩
  exact {
    framesDrawn := by
      rw [hdrawn, hs.drawn, SteadyStream.ofLog_log, List.length_map, List.length_range]
    framesDropped := by
      rw [hdropped, hs.dropped, SteadyStream.ofLog_log]
      rfl
    offsetDeviationMs := by rw [hdeviation, Word.val_zero]
    jitterMs := by rw [hjitter, Word.val_zero]
    meanOffsetMs := fun h2 => by
      rw [hmean (by rw [hoffsets, ne_eq, List.replicate_eq_nil_iff]; omega), hoffset]
    frameRate := fun h2 => by
      rw [hframeRate, History.times_regular (r.shown_log _)]
      exact SteadyStream.hundredths_offered (Int.le_of_lt hlt) hpos h2
    arrivalRate := fun h2 => by
      rw [harrivalRate, SteadyStream.ofLog_log]
      exact SteadyStream.hundredths_offered (Int.le_of_lt hlt) hpos h2 }

/-! ## Runs over a stream -/

theorem SteadyStream.Feeds.ne_reset {r : SteadyStream} {i : Nat} {calls : List Scheduler.Call} (h : r.Feeds i calls) :
    ∀ call ∈ calls, call ≠ .reset := by
  induction h with
  | done => simp
  | offer lt reply rest ih => exact List.forall_mem_cons.2 ⟨by simp, ih⟩
  | paint path rest ih => exact List.forall_mem_cons.2 ⟨by simp, ih⟩
  | acknowledge proportion rest ih => exact List.forall_mem_cons.2 ⟨by simp, ih⟩

namespace Scheduler

variable {c : Config} {r : SteadyStream} {s : Scheduler} {i : Nat} {calls : List Call}

/-- From a state on pace every frame of a stream is drawn when it is offered, and on schedule. -/
theorem run_onPace (hc : c.Lenient) (hnear : 2 * (r.delay.val + max c.displayLag.val 0) < r.duration.val)
    (h : r.Feeds i calls) (hconfig : s.config = c) (hs : s.state.OnPace r.duration)
    (hroom : s.statistics.Room (r.length - i)) :
    ∃ answers s', s.run calls = .ok (answers, s') ∧
      Transcript.log (calls.zip answers) = (List.range' i (r.length - i)).map r.decided ∧
      s'.state.normalRun.val = min (s.state.normalRun.val + (r.length - i : Nat)) 2147483647 := by
  induction h generalizing s with
  | done =>
    have hrun := Word.le_hi s.state.normalRun
    refine ⟨[], s, rfl, ?_, ?_⟩
    · rw [Nat.sub_self]
      rfl
    · rw [Nat.sub_self]
      change _ ≤ (2147483647 : Int) at hrun
      omega
  | @offer i calls lt reply rest ih =>
    have hsucc : r.length - i = r.length - (i + 1) + 1 := by omega
    have hdelay := r.delay_nonneg
    have hduration := SteadyStream.duration_frame (r := r) (by omega) lt
    rw [hsucc] at hroom ⊢
    obtain ⟨ruling, s', hd, hroom'⟩ := decide_ok hroom (r.frame i) (r.offered i) reply
    obtain ⟨hr, -, hconfig', -⟩ := decide_eq_ok hd
    rw [hconfig] at hr hconfig'
    rw [← hduration] at hs
    have hkept := hs.ruled hc (SteadyStream.prompt_frame hnear lt) hr
    have honPace := hkept.onPace
    rw [hduration] at honPace
    obtain ⟨answers, s'', hrun, hlog, hnormalRun⟩ := ih hconfig' honPace hroom'
    have hstep : s.step (.decide (r.frame i) (r.offered i) reply) = .ok (.ruling ruling, s') := by
      rw [step, hd]
      rfl
    refine ⟨.ruling ruling :: answers, s'', run_cons hstep hrun, ?_, ?_⟩
    · have hline : (⟨r.frame i, r.offered i, ruling.decision⟩ : Decided) = r.decided i := by
        rw [hkept.decision]
        rfl
      rw [List.range'_succ, List.map_cons, ← hline, ← hlog]
      rfl
    · rw [hnormalRun, hkept.normalRun]
      omega
  | paint path rest ih =>
    obtain ⟨answers, s', hrun, hlog, hnormalRun⟩ :=
      ih (s := { s with state := s.state.rendered s.config path }) hconfig (hs.rendered path) hroom
    rw [State.rendered_normalRun] at hnormalRun
    exact ⟨_, s', run_cons (s.step_recordRender path) hrun, hlog, hnormalRun⟩
  | acknowledge proportion rest ih =>
    obtain ⟨answers, s', hrun, hlog, hnormalRun⟩ :=
      ih (s := { s with state := { s.state with throttle := proportion.delay } }) hconfig { hs with } hroom
    exact ⟨_, s', run_cons (s.step_notify proportion) hrun, hlog, hnormalRun⟩

/-- **Steady streams**: a new scheduler draws every frame of a stream that is offered while it is due, and measures it
exactly. -/
theorem steady_of_feeds (hnear : 2 * (r.delay.val + 80000) < r.duration.val) (hdelay : r.delay.val ≤ 10000000)
    (h : r.Feeds 0 calls) :
    ∃ answers s f, (ofConfig .standard).run calls = .ok (answers, s) ∧
      Transcript.log (calls.zip answers) = r.log r.length ∧
      s.state.normalRun.val = min (r.length : Int) 2147483647 ∧ s.statistics.summary = .ok f ∧ f.Steady r := by
  have hnonneg := r.delay_nonneg
  have hcount := (SteadyStream.mul_lt_of_le_length (x := 0) (Nat.le_refl r.length) (by omega) (by omega)).1
  obtain ⟨answers, s, hrun, hlog, hnormalRun⟩ := run_onPace (s := ofConfig .standard) Config.lenient_standard hnear h rfl
    (State.onPace_initial r.duration) (Statistics.room_empty (by omega))
  rw [Nat.sub_zero, ← List.range_eq_range'] at hlog
  have htracks := run_invariant (kept_tracks (c := .standard) (by decide)) (tracks_empty _) hrun
  rw [Transcript.sinceReset_eq_self fun entry he => h.ne_reset _ (List.of_mem_zip he).1] at htracks
  have hholds := htracks.statistics
  rw [hlog] at hholds
  obtain ⟨f, hsummary, hsteady⟩ := Statistics.Holds.steady hholds hdelay (by omega)
  have hzero : (ofConfig .standard).state.normalRun.val = 0 := rfl
  rw [hzero, Nat.sub_zero, Int.zero_add] at hnormalRun
  exact ⟨answers, s, f, hrun, hlog, hnormalRun, hsummary, hsteady⟩

/-- Three frames of 40 ms from the beginning on, each offered 5 ms after its start. The lag of the display counts from
the second one on. -/
theorem steady_of_feeds_origin :
    let r : SteadyStream := ⟨0, 400000, 50000, 3, by decide, by decide, by decide⟩
    let calls : List Call := [.decide (r.frame 0) (r.offered 0) .accepted, .recordRender (.blitted 0 9000000),
      .decide (r.frame 1) (r.offered 1) (.failed .rejected), .notify 500,
      .decide (r.frame 2) (r.offered 2) (.failed .disconnected), .recordRender .direct]
    2 * (r.delay.val + 80000) < r.duration.val ∧ r.delay.val ≤ 10000000 ∧ r.Feeds 0 calls ∧
      ∃ answers s f, (ofConfig .standard).run calls = .ok (answers, s) ∧
        Transcript.log (calls.zip answers) = r.log r.length ∧
        s.state.normalRun.val = min (r.length : Int) 2147483647 ∧ s.statistics.summary = .ok f ∧ f.Steady r := by
  intro r calls
  have hfeeds : r.Feeds 0 calls := .offer (by decide) _ (.paint _ (.offer (by decide) _ (.acknowledge _
    (.offer (by decide) _ (.paint _ .done)))))
  exact ⟨by decide, by decide, hfeeds, steady_of_feeds (by decide) (by decide) hfeeds⟩

end Scheduler

end FramePacing
