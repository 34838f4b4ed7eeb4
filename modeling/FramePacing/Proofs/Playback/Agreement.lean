import FramePacing.Proofs.Playback.Session
import FramePacing.Proofs.Scheduler.Counts
import FramePacing.Proofs.Scheduler.Freshness
import FramePacing.Proofs.Scheduler.Presentation

/-!
# Records agree with the scheduler

A simulator works out for itself when a frame is painted, whether the supplier has accepted the report, and what delay
follows. The scheduler books the same from its own side, and `Agrees` is that the two sides match:
`Simulator.agrees_of_run`. A frame that waits does so until a time that is not past, so the moment of painting is the
time that was decided, and the acknowledgement of a report comes between the decision and the paint, so the delay after
the paint is the one for the proportion of that very report.
-/

namespace FramePacing

/-! ### Frames that wait -/

namespace State

variable {c : Config} {s s' : State} {sample : Sample} {now time : StreamTime} {reply : Reply} {decision : Decision}

/-- No frame waits for a time that is past. -/
theorem le_of_wait (hb : Bounded c s) (hr : Ruled c s sample now reply (.drawAt time) s') : now ≤ time := by
  obtain ⟨-, hsub, hbudget, hlead⟩ := lead_of_wait hb hr
  rw [Config.lead] at hlead
  rw [StreamTime.le_iff]
  omega

/-- A frame is painted at the time that was decided. -/
theorem max_presented? (hb : Bounded c s) (hr : Ruled c s sample now reply decision s') :
    (decision.presented? now).map (max now) = decision.presented? now := by
  cases decision with
  | drop => rfl
  | drawNow =>
    refine congrArg some (StreamTime.ext ?_)
    rw [StreamTime.val_max, max_self]
  | drawAt time =>
    refine congrArg some (StreamTime.ext ?_)
    rw [StreamTime.val_max, max_eq_right (le_of_wait hb hr)]

end State

/-- The latest offset among the recent ones is that of the frame that was just recorded. -/
theorem Statistics.Holds.recentOffset?_recordDraw {s s' : Statistics} {h : History} {time : StreamTime}
    {offset frameTime : Ticks} (hs : s.Holds h) (hr : s.recordDraw time offset frameTime = .ok s') :
    ∃ o, s'.recentOffset? = some o ∧ o.last = confinedOffset offset := by
  obtain ⟨hnone, hsome⟩ := (hs.recordDraw hr).recentOffset?
  obtain ⟨o, ho⟩ := Option.ne_none_iff_exists'.1 fun hn => absurd (hnone.1 hn) (by simp [History.add])
  refine ⟨o, ho, ?_⟩
  have hlast := (hsome o ho).last
  rw [getLast?_rtake _ (by decide), History.confined, History.add, List.map_append, List.map_singleton,
    List.getLast?_concat] at hlast
  exact (Option.some.inj hlast).symm

/-! ### Agreement -/

/-- What the latest record `r` of these says is what the scheduler has booked. -/
structure Agrees (policy : SupplierPolicy) (records : List FrameRecord) (r : FrameRecord) (t : Scheduler) : Prop where
  drawn : t.statistics.draws.drawn.val = records.countP (·.decision.isDraw)
  dropped : t.statistics.draws.dropped.val = records.countP (·.decision = .drop)
  noDraw : r.presented? = none ↔ r.decision = .drop
  presented : ∀ time, r.presented? = some time → time = t.state.lastDraw
  /-- A frame that was drawn has an offset, from its nominal start to its paint, and that is the one booked last. -/
  offset : r.decision ≠ .drop → ∃ time offset o, r.presented? = some time ∧ r.offset? = some offset ∧
    offset = Word.saturate (time.ticks.val - r.sample.start.ticks.val) ∧
    t.statistics.recentOffset? = some o ∧ o.last.val = max (-10000000) (min offset.val 10000000)
  supplierHandling : r.supplierHandling = t.state.supplierHandling
  lastQuality : ∃ message, t.state.lastQuality = some message ∧ r.proportion = message.proportion
  proportion : 500 ≤ r.proportion.val ∧ r.proportion.val ≤ 2000
  throttle : if policy = .acknowledge ∧ r.presented? ≠ none then r.proportion.throttle = .ok r.throttle
    else r.throttle = 0
  throttle_mem : 0 ≤ r.throttle.val ∧ r.throttle.val ≤ 2000000

namespace Simulator

variable {c : Config} {p : StreamProfile} {policy : SupplierPolicy} {stalls : List Stall} {n : Nat}
  {records before : List FrameRecord} {s s' : Simulator} {r : FrameRecord}

/-- Without acknowledgements there is no delay after a paint. -/
theorem throttle_eq_zero_of_run (h : (ofScheduler (.ofConfig c) p policy stalls).run n = .ok (records, s))
    (hpolicy : policy ≠ .acknowledge) : s.scheduler.state.throttle = 0 := by
  refine run_invariant (P := fun _ s => s.scheduler.state.throttle = 0) rfl ?_ h
  intro n before s r s' hbefore hzero hs
  obtain ⟨ruling, t, hdecide, -, -, -, hthrottle⟩ := (stepped hs).ruling
  obtain ⟨hruled, -⟩ := Scheduler.decide_eq_ok hdecide
  have hs : s.policy ≠ .acknowledge := by rwa [(shares_of_run hbefore).policy]
  rw [hthrottle, if_neg hs, State.throttle_ruled hruled, hzero]

theorem counts_of_run (h : (ofScheduler (.ofConfig c) p policy stalls).run n = .ok (records, s)) :
    Scheduler.Counts (records.map (·.decided)) s.scheduler := by
  obtain ⟨answers, hcalls, hlog⟩ := replays_of_run h
  rw [← hlog]
  exact Scheduler.run_invariant Scheduler.kept_counts (Scheduler.counts_empty c) hcalls

/-- The scheduler counts the records, as long as they fit. -/
theorem countP_of_run (h : (ofScheduler (.ofConfig c) p policy stalls).run n = .ok (records, s)) (hn : n < 2 ^ 32) :
    s.scheduler.statistics.draws.drawn.val = records.countP (·.decision.isDraw) ∧
      s.scheduler.statistics.draws.dropped.val = records.countP (·.decision = .drop) := by
  have hlength := length_of_run h
  have hcounts := counts_of_run h
  have hdrawn := hcounts.drawn
  have hdropped := hcounts.dropped
  rw [List.countP_map] at hdrawn hdropped
  have hdraws := List.countP_le_length (p := fun r : FrameRecord => r.decision.isDraw) (l := records)
  have hdrops := List.countP_le_length (p := fun r : FrameRecord => r.decision = .drop) (l := records)
  rw [hdrawn, hdropped]
  constructor
  · change min (List.countP (fun r : FrameRecord => r.decision.isDraw) _ : Int) _ = _
    omega
  · change min (List.countP (fun r : FrameRecord => r.decision = .drop) _ : Int) _ = _
    omega

/-- The delay of a record: the one for its own proportion where a painted frame was acknowledged, and else none. -/
theorem throttle_of_step (h : (ofScheduler (.ofConfig c) p policy stalls).run n = .ok (before, s))
    (hs : s.step = .ok (r, s')) :
    r.throttle = if policy = .acknowledge ∧ r.presented? ≠ none then r.proportion.delay else 0 := by
  obtain ⟨ruling, t, -, -, -, -, hthrottle⟩ := (stepped hs).ruling
  have hshared : s.policy = policy := (shares_of_run h).policy
  rw [(stepped hs).throttle]
  by_cases hpolicy : policy = .acknowledge
  · rw [hshared, if_pos hpolicy] at hthrottle
    cases r.presented? with
    | none => rw [if_neg (fun hp => hp.2 rfl), Option.elim_none]
    | some time => rw [if_pos ⟨hpolicy, Option.some_ne_none time⟩, Option.elim_some, hthrottle]
  · rw [if_neg (fun hp => hpolicy hp.1), throttle_eq_zero_of_run (run_concat h hs) hpolicy]
    cases r.presented? <;> rfl

/-- Painting begins at the time that was decided. -/
theorem presented?_of_step (h : (ofScheduler (.ofConfig c) p policy stalls).run n = .ok (before, s))
    (hs : s.step = .ok (r, s')) : r.presented? = r.decision.presented? r.arrival := by
  obtain ⟨answers, hcalls, -⟩ := replays_of_run h
  obtain ⟨ruling, t, hdecide, hdecision, -⟩ := (stepped hs).ruling
  obtain ⟨hbounded, hruled⟩ := Scheduler.ruled_of_run hcalls hdecide
  rw [(stepped hs).presented, hdecision, State.max_presented? hbounded hruled]

/-- The offset that is booked last is that of the frame that was just painted. -/
theorem recentOffset?_of_step (h : (ofScheduler (.ofConfig c) p policy stalls).run n = .ok (before, s))
    (hs : s.step = .ok (r, s')) {time : StreamTime} (htime : r.presented? = some time) :
    ∃ o, s'.scheduler.statistics.recentOffset? = some o ∧
      o.last.val = max (-10000000) (min (time - r.sample.start).val 10000000) := by
  obtain ⟨ruling, t, hdecide, hdecision, -, hkeeps, -⟩ := (stepped hs).ruling
  obtain ⟨-, -, -, arrived, harrived, hrecord⟩ := Scheduler.decide_eq_ok hdecide
  obtain ⟨earlier, hearlier, -, -⟩ := counts_of_run h
  rw [← hdecision, ← presented?_of_step h hs, htime] at hrecord
  obtain ⟨o, ho, hlast⟩ := (hearlier.recordArrival harrived).recentOffset?_recordDraw hrecord
  refine ⟨o, by rw [hkeeps.statistics, ho], ?_⟩
  rw [hlast, Statistics.val_confinedOffset]

/-- **Agreement**: after each step the record agrees with the scheduler, as long as the counts of frames fit. -/
theorem agrees_of_run (h : (ofScheduler (.ofConfig c) p policy stalls).run n = .ok (before, s))
    (hs : s.step = .ok (r, s')) (hn : n + 1 < 2 ^ 32) : Agrees policy (before ++ [r]) r s'.scheduler := by
  have hstepped := stepped hs
  have hpresented := presented?_of_step h hs
  have hthrottle := throttle_of_step h hs
  obtain ⟨ruling, t, hdecide, hdecision, hproportion, hkeeps, -⟩ := hstepped.ruling
  obtain ⟨hruled, hmessage, -, -⟩ := Scheduler.decide_eq_ok hdecide
  obtain ⟨hdrawn, hdropped⟩ := countP_of_run (run_concat h hs) hn
  exact {
    drawn := hdrawn
    dropped := hdropped
    noDraw := hstepped.presented?_eq_none_iff
    presented := by
      intro time htime
      rw [hkeeps.lastDraw, State.lastDraw_ruled hruled, ← hdecision, ← hpresented, htime, Option.getD_some]
    offset := by
      intro hdraw
      obtain ⟨time, htime⟩ : ∃ time, r.presented? = some time :=
        Option.ne_none_iff_exists'.1 fun hnone => hdraw (hstepped.presented?_eq_none_iff.1 hnone)
      obtain ⟨o, ho, hlast⟩ := recentOffset?_of_step h hs htime
      exact ⟨time, time - r.sample.start, o, htime, by rw [FrameRecord.offset?, htime, Option.map_some], rfl, ho, hlast⟩
    supplierHandling := by
      rw [hstepped.supplierHandling, hkeeps.supplierHandling, State.supplierHandling_ruled hruled]
    lastQuality := by
      refine ⟨ruling.message, ?_, hproportion⟩
      rw [hkeeps.lastQuality, State.lastQuality_ruled hruled, hmessage]
    proportion := by
      rw [hproportion, hmessage]
      exact State.proportion_message ..
    throttle := by
      split
      · next hif => rw [hthrottle, if_pos hif, Proportion.throttle_eq_delay]
      · next hif => rw [hthrottle, if_neg hif]
    throttle_mem := by
      rw [hthrottle]
      split
      · exact r.proportion.delay_mem
      · exact ⟨Int.le_refl _, by decide⟩ }

/-- After a stall of 100 ms a frame is painted 65.6 ms late, and the supplier is asked for 95 % of its rate, which comes
to a delay of some 1.8 ms. -/
theorem agrees_of_run_acknowledged :
    let p : StreamProfile := ⟨400000, 50000, 0⟩
    let stalls : List Stall := [⟨2, 1000000, false⟩]
    ∃ before s r s', (ofScheduler (.ofConfig .standard) p .acknowledge stalls).run 2 = .ok (before, s) ∧
      s.step = .ok (r, s') ∧ 2 + 1 < 2 ^ 32 ∧ r.offset? = some 655530 ∧
      s'.scheduler.statistics.recentOffset?.map (·.last) = some 655530 ∧ r.proportion.val = 950 ∧
      r.throttle.val = 18146 ∧ Agrees .acknowledge (before ++ [r]) r s'.scheduler := by
  intro p stalls
  obtain ⟨⟨records, s'⟩, hrun, hlast⟩ : ∃ played,
      (ofScheduler (.ofConfig .standard) p .acknowledge stalls).run 3 = .ok played ∧
        played.2.scheduler.statistics.recentOffset?.map (·.last) = some 655530 ∧
          ∀ r ∈ played.1.getLast?, r.offset? = some 655530 ∧ r.proportion.val = 950 ∧ r.throttle.val = 18146 :=
    Fault.exists_ok (by decide +kernel)
  obtain ⟨before, s, r, hbefore, hstep, rfl⟩ := run_succ hrun
  obtain ⟨hrecent, hlast⟩ := hlast
  obtain ⟨hoffset, hproportion, hthrottle⟩ := hlast r (by simp)
  exact ⟨before, s, r, s', hbefore, hstep, by decide, hoffset, hrecent, hproportion, hthrottle,
    agrees_of_run hbefore hstep (by decide)⟩

end Simulator

end FramePacing
