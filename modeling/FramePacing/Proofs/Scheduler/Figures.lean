import FramePacing.Proofs.Scheduler.Transcript
import FramePacing.Proofs.Statistics

/-!
# Figures are those of the log

`History.ofLog` says what a log of decisions amounts to: each decision is an arrival, and each frame is
measured from its nominal start and from the frame shown before. Whichever branch of a decision shows a
frame, the statistics take in this history and nothing else, provided the cap on the interval between
frames is above what can be counted. So the figures come from the log alone.
-/

namespace FramePacing

namespace History

/-- The time of the latest frame, `last` before the first one. -/
def latest (last : StreamTime) (log : List Decided) : StreamTime :=
  log.foldl (fun last d => d.presented?.getD last) last

/-- The frames that were shown, the first of them measured from `last`. -/
def shownAfter (last : StreamTime) : List Decided → List Shown
  | [] => []
  | d :: log =>
    match d.presented? with
    | none => shownAfter last log
    | some time => .after (time - last) time (time - d.sample.start) :: shownAfter time log

/-- What the statistics are to be told of a log. -/
def ofLog (log : List Decided) : History where
  arrivals := log.map (·.now)
  shown := shownAfter .agesAgo log
  drops := log.countP fun d => d.decision = .drop

/-- The history with one more decision, `last` being the time of the frame before. -/
def decide (h : History) (last : StreamTime) (d : Decided) : History :=
  match d.presented? with
  | none => (h.arrive d.now).drop
  | some time => (h.arrive d.now).add (.after (time - last) time (time - d.sample.start))

theorem latest_concat (last : StreamTime) (log : List Decided) (d : Decided) :
    latest last (log ++ [d]) = d.presented?.getD (latest last log) := by
  rw [latest, List.foldl_append]
  rfl

/-- The next frame is measured from the latest one. -/
theorem shownAfter_concat (last : StreamTime) (log : List Decided) (d : Decided) :
    shownAfter last (log ++ [d]) = shownAfter last log ++ shownAfter (latest last log) [d] := by
  induction log generalizing last with
  | nil => rfl
  | cons e log ih =>
    rw [List.cons_append, shownAfter, shownAfter, latest, List.foldl_cons]
    cases e.presented? with
    | none => exact ih last
    | some time =>
      dsimp only
      rw [ih time]
      rfl

theorem ofLog_concat (log : List Decided) (d : Decided) :
    ofLog (log ++ [d]) = (ofLog log).decide (latest .agesAgo log) d := by
  obtain ⟨sample, now, decision⟩ := d
  unfold ofLog
  rw [shownAfter_concat, List.map_append, List.countP_append]
  cases decision with
  | drop => rw [shownAfter, shownAfter]; simp [decide, Decided.presented?, Decision.presented?, arrive, drop]
  | drawNow => rfl
  | drawAt time => rfl

/-- Every decision shows a frame or drops it. -/
theorem shown_add_drops (log : List Decided) : (ofLog log).shown.length + (ofLog log).drops = log.length := by
  induction log using List.reverseRecOn with
  | nil => rfl
  | append_singleton log d ih =>
    rw [ofLog_concat, List.length_append, List.length_singleton, ← ih]
    unfold decide
    cases d.presented? with
    | none => exact (Nat.add_assoc _ _ _).symm
    | some time =>
      change ((ofLog log).shown ++ [_]).length + (ofLog log).drops = _
      rw [List.length_append, List.length_singleton, Nat.add_right_comm]

end History

/-! ### Frames of one decision -/

namespace Shown

/-- Only what counts of a frame time matters. -/
theorem after_congr {x y : Ticks} (h : Statistics.frameMillis x = Statistics.frameMillis y)
    (time : StreamTime) (offset : Ticks) : after x time offset = after y time offset := by
  unfold after
  congr 1

end Shown

namespace State

variable {s s' : State} {c : Config} {sample : Sample} {now time : StreamTime} {reply : Reply}
  {decision : Decision}

/-- The scheduler remembers the time of the latest frame. -/
theorem lastDraw_ruled (hr : Ruled c s sample now reply decision s') :
    s'.lastDraw = (decision.presented? now).getD s.lastDraw := by
  cases hr with
  | leftOut draws => exact prepared_lastDraw ..
  | caughtUp draws catchesUp => rfl
  | ahead draws catchesUp early => rfl
  | due draws catchesUp late => rfl

/-- Every branch measures a frame from the one before, up to a cap that does not show. -/
theorem frameMillis_frameTime (hc : 10000000 ≤ c.staleInterval.val) (hd : decision.presented? now = some time) :
    Statistics.frameMillis (s.frameTime c now decision) = Statistics.frameMillis (time - s.lastDraw) := by
  cases decision with
  | drop => cases hd
  | drawNow =>
    cases hd
    exact Statistics.frameMillis_min hc
  | drawAt t =>
    cases hd
    rfl

end State

/-! ### Runs -/

namespace Transcript

/-- The number of decisions asked for. -/
def decisions (t : Transcript) : Nat :=
  t.countP fun entry => match entry.1 with
    | .decide .. => true
    | _ => false

/-- Every decision that is asked for is taken, after one report, and shows a frame or drops it. -/
structure Balanced (t : Transcript) : Prop where
  decisions : t.decisions = t.log.length
  messages : t.messages.length = t.log.length
  frames : (History.ofLog t.log).shown.length + (History.ofLog t.log).drops = t.log.length

end Transcript

namespace Scheduler

/-- What a run of a scheduler keeps: it remembers the latest frame, and its statistics have taken in the log. -/
structure Tracks (c : Config) (t : Transcript) (s : Scheduler) : Prop where
  config : s.config = c
  lastDraw : s.state.lastDraw = History.latest .agesAgo t.log
  statistics : s.statistics.Holds (.ofLog t.log)
  decisions : t.decisions = t.log.length
  messages : t.messages.length = t.log.length

theorem tracks_empty (c : Config) : Tracks c [] (ofConfig c) where
  config := rfl
  lastDraw := rfl
  statistics := Statistics.holds_empty
  decisions := rfl
  messages := rfl

variable {c : Config} {t : Transcript} {s s' : Scheduler}

theorem Tracks.decide {sample : Sample} {now : StreamTime} {reply : Reply} {ruling : Ruling}
    (hc : 10000000 ≤ c.staleInterval.val) (h : Tracks c t s) (hd : s.decide sample now reply = .ok (ruling, s')) :
    Tracks c (t ++ [(.decide sample now reply, .ruling ruling)]) s' := by
  obtain ⟨hr, -, hconfig, arrived, harrived, hrecord⟩ := decide_eq_ok hd
  have harrive := h.statistics.recordArrival harrived
  have hstale : 10000000 ≤ s.config.staleInterval.val := by rwa [h.config]
  refine ⟨hconfig.trans h.config, ?_, ?_, ?_, ?_⟩
  · rw [State.lastDraw_ruled hr, h.lastDraw, Transcript.log_decide, History.latest_concat]
    rfl
  · rw [Transcript.log_decide, History.ofLog_concat]
    unfold History.decide
    cases hp : ruling.decision.presented? now with
    | none =>
      rw [hp] at hrecord
      rw [show Decided.presented? ⟨sample, now, ruling.decision⟩ = none from hp, hrecord]
      exact harrive.recordDrop
    | some time =>
      rw [hp] at hrecord
      have hdraw := harrive.recordDraw hrecord
      rw [Shown.after_congr (State.frameMillis_frameTime hstale hp), h.lastDraw] at hdraw
      rw [show Decided.presented? ⟨sample, now, ruling.decision⟩ = some time from hp]
      exact hdraw
  · rw [Transcript.decisions, List.countP_append, Transcript.log_decide, List.length_append]
    exact congrArg (· + 1) h.decisions
  · rw [Transcript.messages_decide, Transcript.log_decide, List.length_append, List.length_append, h.messages]
    rfl

/-- A call that is no decision leaves what was tracked as it was. -/
theorem Tracks.other {entry : Call × Answer} (h : Tracks c t s) (hlog : Transcript.log (t ++ [entry]) = t.log)
    (hmessages : Transcript.messages (t ++ [entry]) = t.messages)
    (hdecisions : Transcript.decisions (t ++ [entry]) = t.decisions) (hconfig : s'.config = s.config)
    (hlast : s'.state.lastDraw = s.state.lastDraw) (hstatistics : s'.statistics = s.statistics) :
    Tracks c (t ++ [entry]) s' where
  config := hconfig.trans h.config
  lastDraw := by rw [hlast, hlog, h.lastDraw]
  statistics := by rw [hstatistics, hlog]; exact h.statistics
  decisions := by rw [hdecisions, hlog, h.decisions]
  messages := by rw [hmessages, hlog, h.messages]

theorem kept_tracks (hc : 10000000 ≤ c.staleInterval.val) : Kept (Tracks c) where
  decide h hd := h.decide hc hd
  recordRender := by
    intro t s path outcome s' h hr
    rw [recordRender_eq] at hr
    cases hr
    refine h.other (Transcript.log_recordRender ..) (Transcript.messages_recordRender ..) ?_ rfl ?_ rfl
    · exact List.countP_append
    · cases path <;> rfl
  notify := by
    intro t s proportion delay s' h hn
    rw [notify_eq] at hn
    cases hn
    refine h.other (Transcript.log_notify ..) (Transcript.messages_notify ..) ?_ rfl rfl rfl
    exact List.countP_append
  reset := by
    intro t s h
    rw [reset, h.config]
    exact tracks_empty c

/-- **Figures**: with a stale interval of a second or more, the figures are exactly those of the decisions
taken since the last reset, whatever was painted and acknowledged in between. -/
theorem figures_of_run {c : Config} {calls : List Call} {answers : List Answer} {s : Scheduler}
    (hc : 10000000 ≤ c.staleInterval.val) (h : (ofConfig c).run calls = .ok (answers, s))
    (hl : (Transcript.sinceReset (calls.zip answers)).log.length < 9000000000000) :
    (Transcript.sinceReset (calls.zip answers)).Balanced ∧
      ∃ figures, s.statistics.summary = .ok figures ∧
        ∀ f : StatisticsSummary,
          f.Describes (.ofLog (Transcript.sinceReset (calls.zip answers)).log) ↔ f = figures := by
  have ht := run_invariant (kept_tracks hc) (tracks_empty c) h
  have hframes := History.shown_add_drops (Transcript.sinceReset (calls.zip answers)).log
  obtain ⟨figures, hsummary, hfigures⟩ := ht.statistics.summary (by omega)
  refine ⟨⟨ht.decisions, ht.messages, hframes⟩, figures, hsummary, fun f => ⟨?_, ?_⟩⟩
  · intro hf
    exact hf.unique hfigures
  · rintro rfl
    exact hfigures

/-- Three frames of a stream, one of them after a pause that is longer than the stale interval, so that its offset and
its frame time count for a second each. -/
theorem figures_of_run_pause :
    let calls : List Call := [.decide ⟨.ofMillis 0, .ofMillis 40, false⟩ (.ofMillis 0) .accepted, .reset,
      .decide ⟨.ofMillis 100, .ofMillis 140, false⟩ (.ofMillis 90) .accepted, .notify 500,
      .decide ⟨.ofMillis 140, .ofMillis 180, false⟩ (.ofMillis 150) .accepted, .recordRender .direct,
      .decide ⟨.ofMillis 180, .ofMillis 220, true⟩ (.ofMillis 2000) (.failed .rejected)]
    ∃ answers s, 10000000 ≤ Config.standard.staleInterval.val ∧
      (ofConfig .standard).run calls = .ok (answers, s) ∧
      (Transcript.sinceReset (calls.zip answers)).log.length = 3 ∧
      (History.ofLog (Transcript.sinceReset (calls.zip answers)).log).offsets = [10, 1000] ∧
      (History.ofLog (Transcript.sinceReset (calls.zip answers)).log).frameTimes = [1000] ∧
      s.statistics.summary = .ok ⟨3, 0, 104, 104, 505, 700, 0,
        some ⟨3340000, .saturate (-80000), 10000000, 10000000⟩, 3⟩ ∧
      (Transcript.sinceReset (calls.zip answers)).Balanced ∧
      ∃ figures, s.statistics.summary = .ok figures ∧
        ∀ f : StatisticsSummary,
          f.Describes (.ofLog (Transcript.sinceReset (calls.zip answers)).log) ↔ f = figures := by
  intro calls
  obtain ⟨⟨answers, s⟩, hrun, hlength, hoffsets, hframeTimes, hsummary⟩ : ∃ played,
      (ofConfig .standard).run calls = .ok played ∧ (Transcript.sinceReset (calls.zip played.1)).log.length = 3 ∧
        (History.ofLog (Transcript.sinceReset (calls.zip played.1)).log).offsets = [10, 1000] ∧
        (History.ofLog (Transcript.sinceReset (calls.zip played.1)).log).frameTimes = [1000] ∧
        played.2.statistics.summary = .ok ⟨3, 0, 104, 104, 505, 700, 0,
          some ⟨3340000, .saturate (-80000), 10000000, 10000000⟩, 3⟩ :=
    Fault.exists_ok (by decide +kernel)
  have hstale : 10000000 ≤ Config.standard.staleInterval.val := by decide
  have hfew : (Transcript.sinceReset (calls.zip answers)).log.length < 9000000000000 :=
    Nat.lt_of_le_of_lt (Nat.le_of_eq hlength) (by decide)
  exact ⟨answers, s, hstale, hrun, hlength, hoffsets, hframeTimes, hsummary, figures_of_run hstale hrun hfew⟩

end Scheduler

end FramePacing
