import FramePacing.Proofs.Scheduler.Bounds
import FramePacing.Proofs.Scheduler.Figures
import FramePacing.Proofs.Scheduler.Totality

/-!
# The picture stays fresh

A scheduler remembers when the latest frame is presented, and its ring of draws has the same time as its newest:
`Scheduler.Recalls` is what a run keeps of that. Nothing but a draw or a reset moves it, so a streak of drops is
measured from the one frame before it, and since no frame is left out once that frame is older than the stale
interval, a streak is over by then: `Scheduler.fresh_of_run`.
-/

namespace FramePacing

/-- The times at which frames of a log are presented. -/
def presentations (log : List Decided) : List StreamTime := log.filterMap Decided.presented?

theorem presentations_concat (log : List Decided) (d : Decided) :
    presentations (log ++ [d]) = presentations log ++ d.presented?.toList := by
  rw [presentations, List.filterMap_append]
  cases h : d.presented? <;> simp [presentations, h]

namespace History

theorem latest_eq_getLast? (last : StreamTime) (log : List Decided) :
    latest last log = (presentations log).getLast?.getD last := by
  induction log using List.reverseRecOn with
  | nil => rfl
  | append_singleton log d ih =>
    rw [latest_concat, presentations_concat, ih]
    cases d.presented? with
    | none => simp
    | some time => simp

/-- Drops do not move the latest frame. -/
theorem latest_append_drops {drops : List Decided} (h : ∀ d ∈ drops, d.decision = .drop) (last : StreamTime)
    (log : List Decided) : latest last (log ++ drops) = latest last log := by
  induction drops using List.reverseRecOn with
  | nil => rw [List.append_nil]
  | append_singleton drops d ih =>
    have hd : d.presented? = none := by
      rw [Decided.presented?, h d (by simp)]
      rfl
    rw [← List.append_assoc, latest_concat, hd, Option.getD_none]
    exact ih fun e he => h e (List.mem_append_left _ he)

end History

/-- Every drop in a log came within the stale interval of the latest frame before it. -/
def Config.Timely (c : Config) (log : List Decided) : Prop :=
  ∀ before d after, log = before ++ d :: after → d.decision = .drop →
    (d.now - History.latest .agesAgo before).val ≤ c.staleInterval.val

namespace Config

variable {c : Config} {log : List Decided}

theorem timely_nil : c.Timely [] := by
  intro before d after h
  exact absurd h.symm (by simp)

theorem Timely.concat {d : Decided} (h : c.Timely log)
    (hd : d.decision = .drop → (d.now - History.latest .agesAgo log).val ≤ c.staleInterval.val) :
    c.Timely (log ++ [d]) := by
  intro before e after he hdrop
  rcases List.eq_nil_or_concat after with rfl | ⟨after, last, rfl⟩
  · obtain ⟨rfl, rfl⟩ := List.append_singleton_inj.1 he
    exact hd hdrop
  · have he' : log ++ [d] = (before ++ e :: after) ++ [last] := by
      rw [he, List.concat_eq_append, List.append_assoc, List.cons_append]
    exact h before e after (List.append_singleton_inj.1 he').1 hdrop

/-- In a streak of drops every one is within the stale interval of the frame before the streak. -/
theorem Timely.streak (h : c.Timely log) (hc : c.staleInterval.val < 9223372036854775807)
    {before drops after : List Decided} {d e : Decided} {time : StreamTime}
    (hlog : log = before ++ d :: drops ++ after) (hd : d.presented? = some time)
    (hdrops : ∀ e ∈ drops, e.decision = .drop) (he : e ∈ drops) :
    e.now.ticks.val ≤ time.ticks.val + c.staleInterval.val := by
  obtain ⟨left, right, rfl⟩ := List.append_of_mem he
  have hleft : ∀ e ∈ left, e.decision = .drop := fun e he => hdrops e (List.mem_append_left _ he)
  have hsplit : log = (before ++ [d] ++ left) ++ e :: (right ++ after) := by
    rw [hlog]
    simp
  have hlast : History.latest .agesAgo (before ++ [d] ++ left) = time := by
    rw [History.latest_append_drops hleft, History.latest_concat, hd, Option.getD_some]
  have hwithin := h _ e _ hsplit (hdrops e he)
  rw [hlast, StreamTime.val_sub] at hwithin
  omega

end Config

namespace Scheduler

variable {c : Config} {log : List Decided} {s s' : Scheduler}

/-- What a run keeps: the latest frame is remembered, the ring of draws holds the times of all, and no drop came
too late. -/
structure Recalls (c : Config) (log : List Decided) (s : Scheduler) : Prop where
  config : s.config = c
  lastDraw : s.state.lastDraw = History.latest .agesAgo log
  statistics : ∃ h, s.statistics.Holds h ∧ h.arrivals = log.map (·.now) ∧ h.times = presentations log
  timely : c.Timely log

theorem recalls_empty (c : Config) : Recalls c [] (ofConfig c) where
  config := rfl
  lastDraw := rfl
  statistics := ⟨.empty, Statistics.holds_empty, rfl, rfl⟩
  timely := Config.timely_nil

/-- A decision puts a frame that it shows at the end, and takes nothing away. -/
theorem Recalls.decide {sample : Sample} {now : StreamTime} {reply : Reply} {ruling : Ruling} (h : Recalls c log s)
    (hd : s.decide sample now reply = .ok (ruling, s')) :
    Recalls c (log ++ [⟨sample, now, ruling.decision⟩]) s' := by
  obtain ⟨hr, -, hconfig, arrived, harrived, hrecord⟩ := decide_eq_ok hd
  obtain ⟨history, hh, harrivals, htimes⟩ := h.statistics
  have harrive := hh.recordArrival harrived
  refine ⟨hconfig.trans h.config, ?_, ?_, ?_⟩
  · rw [State.lastDraw_ruled hr, h.lastDraw, History.latest_concat]
    rfl
  · rw [presentations_concat, List.map_append, ← harrivals, ← htimes]
    cases hp : ruling.decision.presented? now with
    | none =>
      rw [hp] at hrecord
      rw [hrecord, show Decided.presented? ⟨sample, now, ruling.decision⟩ = none from hp]
      exact ⟨_, harrive.recordDrop, rfl, (List.append_nil _).symm⟩
    | some time =>
      rw [hp] at hrecord
      rw [show Decided.presented? ⟨sample, now, ruling.decision⟩ = some time from hp]
      refine ⟨_, harrive.recordDraw hrecord, rfl, ?_⟩
      rw [History.times, History.add, List.map_append]
      rfl
  · refine h.timely.concat fun hdrop => ?_
    dsimp only at hdrop
    rw [hdrop] at hr
    have hwithin := hr.sub_lastDraw_le
    rwa [h.lastDraw, h.config] at hwithin

theorem kept_recalls (c : Config) : Kept fun t s => Recalls c t.log s := by
  refine .of_log (Q := Recalls c) Recalls.decide ?render ?notify ?reset
  case render =>
    intro log s path h
    exact { h with lastDraw := (s.state.rendered_lastDraw s.config path).trans h.lastDraw }
  case notify =>
    intro log s proportion h
    exact { h with }
  case reset =>
    intro log s h
    rw [reset, h.config]
    exact recalls_empty c

/-- After a run there is room for as many decisions as the count of arrivals leaves. -/
theorem room_of_run {calls : List Call} {answers : List Answer} {k : Nat}
    (h : (ofConfig c).run calls = .ok (answers, s)) (hk : s.statistics.arrivals.count.val + k < 2 ^ 64) :
    s.statistics.Room k := by
  obtain ⟨history, hh, harrivals, htimes⟩ :=
    (run_invariant (kept_recalls c) (recalls_empty c) h).statistics
  have hcount : s.statistics.arrivals.count.val = history.arrivals.length := hh.arrivals.count
  have hshown : history.shown.length ≤ history.arrivals.length := by
    rw [← List.length_map (·.time), ← History.times, htimes, harrivals, List.length_map]
    exact List.length_filterMap_le _ _
  exact ⟨history, hh, by omega, by omega⟩

/-- How fresh the picture is kept by a scheduler with the decisions `log` since the last reset. -/
structure KeepsFresh (c : Config) (log : List Decided) (s : Scheduler) : Prop where
  /-- The time of the latest frame is remembered, -/
  lastDraw : s.state.lastDraw = (presentations log).getLast?.getD .agesAgo
  /-- and the ring of draws has the same. -/
  newest : presentations log ≠ [] → s.statistics.draws.ring.newest? = some s.state.lastDraw
  /-- A frame is left out only within the stale interval of the latest one, -/
  drop : ∀ {sample now reply ruling s'}, s.decide sample now reply = .ok (ruling, s') →
    ruling.decision = .drop → (now - s.state.lastDraw).val ≤ c.staleInterval.val
  /-- so a streak of drops does not go on for longer than that, -/
  streak : c.staleInterval.val < 2 ^ 63 - 1 → ∀ {before drops after d time},
    log = before ++ d :: drops ++ after → d.presented? = some time → (∀ e ∈ drops, e.decision = .drop) →
      ∀ e ∈ drops, e.now.ticks.val ≤ time.ticks.val + c.staleInterval.val
  /-- and where there is no frame yet, one is drawn. -/
  first : c.staleInterval.val < 2 ^ 61 → log = [] → ∀ sample now reply, 0 ≤ now.ticks.val →
    ∃ ruling s', s.decide sample now reply = .ok (ruling, s') ∧ ruling.decision ≠ .drop

/-- **Freshness**: whatever was called, the latest frame since the last reset is remembered as such, and no frame
is left out once it is older than the stale interval. -/
theorem fresh_of_run {c : Config} {calls : List Call} {answers : List Answer} {s : Scheduler}
    (h : (ofConfig c).run calls = .ok (answers, s)) :
    KeepsFresh c (Transcript.sinceReset (calls.zip answers)).log s := by
  have hk := run_invariant (kept_recalls c) (recalls_empty c) h
  generalize (Transcript.sinceReset (calls.zip answers)).log = log at hk
  obtain ⟨history, hh, harrivals, htimes⟩ := hk.statistics
  have hlast := hk.lastDraw.trans (History.latest_eq_getLast? ..)
  have hdrop : ∀ {sample now reply ruling s'}, s.decide sample now reply = .ok (ruling, s') →
      ruling.decision = .drop → (now - s.state.lastDraw).val ≤ c.staleInterval.val := by
    intro sample now reply ruling s' hd hdecision
    obtain ⟨-, hr⟩ := ruled_of_run h hd
    rw [hdecision] at hr
    exact hr.sub_lastDraw_le
  refine ⟨hlast, ?_, hdrop, ?_, ?_⟩
  · intro hne
    rw [hh.draws.newest?, htimes, hlast, List.getLast?_eq_some_getLast hne, Option.getD_some]
  · intro hc before drops after d time hlog hd hdrops e he
    exact hk.timely.streak (by omega) hlog hd hdrops he
  · intro hc hlog sample now reply hnow
    have hroom : s.statistics.Room (0 + 1) := by
      have hshown : history.shown.length = 0 := by
        rw [← List.length_map (·.time), ← History.times, htimes, hlog]
        rfl
      refine ⟨history, hh, ?_, ?_⟩
      · rw [harrivals, hlog]
        decide
      · rw [hshown]
        decide
    obtain ⟨ruling, s', hd, -⟩ := decide_ok hroom sample now reply
    refine ⟨ruling, s', hd, fun hdecision => ?_⟩
    have hwithin := hdrop hd hdecision
    rw [hk.lastDraw, hlog, StreamTime.val_sub] at hwithin
    have hages : (History.latest .agesAgo []).ticks.val = -2 ^ 61 := rfl
    omega

/-- The frame at 100 ms is painted so slowly that the two behind it are left out, each within 1 s of it. -/
theorem fresh_of_run_streak :
    let calls : List Call := [.decide ⟨.ofMillis 0, .ofMillis 40, false⟩ (.ofMillis 0) .accepted, .reset,
      .decide ⟨.ofMillis 100, .ofMillis 140, false⟩ (.ofMillis 100) .accepted,
      .recordRender (.blitted 0 4000000), .recordRender (.blitted 0 4000000),
      .decide ⟨.ofMillis 140, .ofMillis 180, false⟩ (.ofMillis 500) (.failed .rejected), .notify 500,
      .decide ⟨.ofMillis 180, .ofMillis 220, false⟩ (.ofMillis 540) (.failed .rejected)]
    ∃ answers s, (ofConfig .standard).run calls = .ok (answers, s) ∧
      (Transcript.sinceReset (calls.zip answers)).log.map (·.decision) = [.drawNow, .drop, .drop] ∧
      KeepsFresh .standard (Transcript.sinceReset (calls.zip answers)).log s :=
  ⟨_, _, rfl, rfl, fresh_of_run rfl⟩

end Scheduler

end FramePacing
