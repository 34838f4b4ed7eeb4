import FramePacing.Playback.Tracker
import FramePacing.Proofs.Playback.Agreement
import FramePacing.Proofs.Ring

/-!
# A tracker sees what the scheduler has booked

A tracker is told of the records one after the other and never sees the scheduler. What it has taken in is
`Tracker.Holds`: its slots are a circle over as many seeds as it has slots and the intervals between paints behind them,
where frames that were dropped leave no mark. This is kept by every record of any origin, `Tracker.Holds.observeRecord`.
For the records of playback its counts are those of the scheduler, `Simulator.tracked_of_run`.

The one conversion of ticks to milliseconds, `Ticks.fractionalMillis`, is never looked into.
-/

namespace FramePacing

/-! ### What there is to see -/

/-- The times of the paints. -/
def paints (records : List FrameRecord) : List StreamTime := records.filterMap (·.presented?)

/-- The milliseconds from each of these times to the next. -/
def intervals : List StreamTime → List Float
  | previous :: time :: times => Ticks.fractionalMillis (time - previous) :: intervals (time :: times)
  | _ => []

/-- How long after its nominal start the latest painted frame was painted, in milliseconds. -/
def latestOffset (records : List FrameRecord) : Float :=
  (records.filterMap fun r => r.presented?.map (· - r.sample.start)).getLast?.elim 0.0 Ticks.fractionalMillis

theorem paints_concat (records : List FrameRecord) (r : FrameRecord) :
    paints (records ++ [r]) = paints records ++ r.presented?.toList := by
  rw [paints, List.filterMap_append]
  cases h : r.presented? <;> simp [paints, h]

@[simp] theorem intervals_nil : intervals [] = [] := rfl

theorem intervals_concat (times : List StreamTime) (time : StreamTime) :
    intervals (times ++ [time]) =
      intervals times ++ (times.getLast?.map fun previous => Ticks.fractionalMillis (time - previous)).toList := by
  induction times with
  | nil => rfl
  | cons first times ih =>
    cases times with
    | nil => rfl
    | cons second times =>
      rw [List.getLast?_cons_cons]
      exact congrArg (Ticks.fractionalMillis (second - first) :: ·) ih

theorem latestOffset_concat (records : List FrameRecord) (r : FrameRecord) :
    latestOffset (records ++ [r]) =
      r.presented?.elim (latestOffset records) fun time => Ticks.fractionalMillis (time - r.sample.start) := by
  rw [latestOffset, List.filterMap_append]
  cases h : r.presented? <;> simp [latestOffset, h]

/-! ### Circles that start out full -/

theorem circle_replicate {α : Type} (n : Nat) (a : α) : Circle (.replicate n a) (List.replicate n a) := by
  intro i hi _
  rw [List.length_replicate] at hi
  rw [Nat.mod_eq_of_lt hi, Vector.getElem?_replicate, List.getElem?_replicate]

namespace Tracker

variable {n : Nat} {seed : Float} {records : List FrameRecord} {t : Tracker n} {l : List Float}

/-- The view of a full circle is its end. -/
theorem toList_eq_rtake (h : Circle t.deltas l) (hnext : t.next = l.length % n) (hn : n ≤ l.length) :
    t.toList = l.rtake n := by
  apply List.ext_getElem
  · rw [toList, List.length_ofFn, length_rtake]
    omega
  · intro i hi hi'
    rw [toList, List.length_ofFn] at hi
    have hslot : (t.next + i) % n = (l.length - n + i) % n := by
      rw [hnext, Nat.mod_add_mod, ← Nat.add_mod_right (l.length - n + i) n]
      congr 1
      omega
    have hc := h (l.length - n + i) (by omega) (by omega)
    rw [← hslot, Vector.getElem?_eq_getElem (Nat.mod_lt _ (Nat.zero_lt_of_lt hi)),
      List.getElem?_eq_getElem (by omega)] at hc
    simp only [toList, List.getElem_ofFn, List.rtake, List.getElem_drop]
    exact Option.some.inj hc

/-! ### One record after the other -/

/-- The tracker has taken in these records. -/
structure Holds (t : Tracker n) (seed : Float) (records : List FrameRecord) : Prop where
  total : t.total.val = min (records.length : Int) 18446744073709551615
  dropped : t.dropped.val = min (records.countP (·.presented?.isNone) : Int) 18446744073709551615
  lastOffset : t.lastOffset = latestOffset records
  lastPresented? : t.lastPresented? = (paints records).getLast?
  circle : Circle t.deltas (List.replicate n seed ++ intervals (paints records))
  next : t.next = (List.replicate n seed ++ intervals (paints records)).length % n

theorem holds_ofSeed (n : Nat) (seed : Float) : (ofSeed seed : Tracker n).Holds seed [] where
  total := rfl
  dropped := rfl
  lastOffset := rfl
  lastPresented? := rfl
  circle := by
    rw [paints, List.filterMap_nil, intervals_nil, List.append_nil]
    exact circle_replicate n seed
  next := by simp [ofSeed, paints]

theorem val_count {a : Unsigned64} {k : Nat} (h : a.val = min (k : Int) 18446744073709551615) :
    (a.satAdd 1).val = min ((k + 1 : Nat) : Int) 18446744073709551615 := by
  have hone : (1 : Unsigned64).val = 1 := rfl
  have hlo : Width.unsigned64.lo = 0 := rfl
  have hhi : Width.unsigned64.hi = 18446744073709551615 := rfl
  rw [Word.val_satAdd, h, hone, hlo, hhi]
  omega

/-- An interval goes to the end of the circle. -/
theorem push_ok (hn : 0 < n) (h : Circle t.deltas l) (hnext : t.next = l.length % n) (delta : Float) :
    ∃ deltas next, t.push delta = .ok { t with deltas, next } ∧ Circle deltas (l ++ [delta]) ∧
      next = (l ++ [delta]).length % n := by
  have hlt : l.length % n < n := Nat.mod_lt _ hn
  refine ⟨t.deltas.set (l.length % n) delta hlt, (l.length % n + 1) % n, ?_, h.push delta hlt, ?_⟩
  · rw [push, dif_pos hn]
    simp only [hnext, Nat.mod_mod]
  · rw [Nat.mod_add_mod, List.length_append, List.length_singleton]

/-- A frame that was dropped is counted, and that is all. -/
theorem observeRecord_drop {r : FrameRecord} (hr : r.presented? = none) (t : Tracker n) :
    let t' := { t with total := t.total.satAdd 1, dropped := t.dropped.satAdd 1 }
    t.observeRecord r = .ok (t'.report r.supplierHandling, t') := by
  rw [observeRecord, observation, FrameRecord.offset?, hr]
  rfl

/-- A frame that was painted sets the offset, and ends an interval if one was painted before. -/
theorem observeRecord_paint {r : FrameRecord} {time : StreamTime} (hr : r.presented? = some time) (t : Tracker n) :
    let t₁ := { t with total := t.total.satAdd 1, lastPresented? := some time }
    t.observeRecord r =
      (t.lastPresented?.elim (.ok t₁) fun previous => t₁.push (Ticks.fractionalMillis (time - previous))) >>= fun t₂ =>
        let t' := { t₂ with lastOffset := Ticks.fractionalMillis (time - r.sample.start) }
        .ok (t'.report r.supplierHandling, t') := by
  rw [observeRecord, observation, FrameRecord.offset?, hr]
  cases t.lastPresented? <;> rfl

theorem Holds.drop (h : t.Holds seed records) {r : FrameRecord} (hr : r.presented? = none) :
    ∃ t', t.observeRecord r = .ok (t'.report r.supplierHandling, t') ∧ t'.Holds seed (records ++ [r]) := by
  have hpaints : paints (records ++ [r]) = paints records := by
    rw [paints_concat, hr, Option.toList_none, List.append_nil]
  refine ⟨_, observeRecord_drop hr t, ?_, ?_, ?_, ?_, ?_, ?_⟩
  · rw [List.length_append, List.length_singleton]
    exact val_count h.total
  · rw [List.countP_append, List.countP_singleton, hr]
    exact val_count h.dropped
  · rw [latestOffset_concat, hr]
    exact h.lastOffset
  · rw [hpaints]
    exact h.lastPresented?
  · rw [hpaints]
    exact h.circle
  · rw [hpaints]
    exact h.next

/-- A paint ends the interval since the paint before it, if there was one. -/
theorem Holds.interval (h : t.Holds seed records) (hn : 0 < n) (time : StreamTime) :
    let t₁ := { t with total := t.total.satAdd 1, lastPresented? := some time }
    ∃ deltas next,
      (t.lastPresented?.elim (.ok t₁) fun previous => t₁.push (Ticks.fractionalMillis (time - previous))) =
        .ok { t₁ with deltas, next } ∧
      Circle deltas (List.replicate n seed ++ intervals (paints records ++ [time])) ∧
      next = (List.replicate n seed ++ intervals (paints records ++ [time])).length % n := by
  have hintervals := intervals_concat (paints records) time
  rw [← h.lastPresented?] at hintervals
  rw [hintervals, ← List.append_assoc]
  cases t.lastPresented? with
  | none =>
    rw [Option.map_none, Option.toList_none, List.append_nil]
    exact ⟨_, _, rfl, h.circle, h.next⟩
  | some previous =>
    exact push_ok (t := { t with total := t.total.satAdd 1, lastPresented? := some time }) hn h.circle h.next _

theorem Holds.paint (h : t.Holds seed records) (hn : 0 < n) {r : FrameRecord} {time : StreamTime}
    (hr : r.presented? = some time) :
    ∃ t', t.observeRecord r = .ok (t'.report r.supplierHandling, t') ∧ t'.Holds seed (records ++ [r]) := by
  have hpaints : paints (records ++ [r]) = paints records ++ [time] := by rw [paints_concat, hr, Option.toList_some]
  have hobserve := observeRecord_paint hr t
  obtain ⟨deltas, next, hpush, hcircle, hnext⟩ := h.interval hn time
  dsimp only at hobserve hpush
  rw [hpush, Fault.ok_bind] at hobserve
  refine ⟨_, hobserve, ?_, ?_, ?_, ?_, ?_, ?_⟩
  · rw [List.length_append, List.length_singleton]
    exact val_count h.total
  · rw [List.countP_append, List.countP_singleton, hr]
    exact h.dropped
  · rw [latestOffset_concat, hr]
    rfl
  · rw [hpaints, List.getLast?_concat]
  · rwa [hpaints]
  · rwa [hpaints]

/-- A tracker with at least one slot takes in any record. -/
theorem Holds.observeRecord (h : t.Holds seed records) (hn : 0 < n) (r : FrameRecord) :
    ∃ t', t.observeRecord r = .ok (t'.report r.supplierHandling, t') ∧ t'.Holds seed (records ++ [r]) := by
  cases hr : r.presented? with
  | none => exact h.drop hr
  | some time => exact h.paint hn hr

/-- A tracker with at least one slot takes in any records, with a report on each of them. -/
theorem Holds.observeRecords (h : t.Holds seed records) (hn : 0 < n) (more : List FrameRecord) :
    ∃ reports t', t.observeRecords more = .ok (reports, t') ∧ reports.length = more.length ∧
      t'.Holds seed (records ++ more) := by
  induction more generalizing t records with
  | nil => exact ⟨[], t, rfl, rfl, by rwa [List.append_nil]⟩
  | cons r more ih =>
    obtain ⟨t₁, hobserve, h₁⟩ := h.observeRecord hn r
    obtain ⟨reports, t', hmore, hlength, h'⟩ := ih h₁
    refine ⟨t₁.report r.supplierHandling :: reports, t', ?_, ?_, ?_⟩
    · rw [Tracker.observeRecords, hobserve, Fault.ok_bind]
      dsimp only
      rw [hmore]
      rfl
    · rw [List.length_cons, List.length_cons, hlength]
    · rwa [List.append_assoc] at h'

theorem Holds.toList (h : t.Holds seed records) :
    t.toList = (List.replicate n seed ++ intervals (paints records)).rtake n := by
  apply toList_eq_rtake h.circle h.next
  rw [List.length_append, List.length_replicate]
  exact Nat.le_add_right ..

end Tracker

/-! ### The records of playback -/

/-- What a tracker reports on the latest of these records, and the intervals that it shows, agree with the scheduler `s`
that the records are about and with the records themselves. -/
structure SmoothnessReport.Tells (report : SmoothnessReport) {n : Nat} (t : Tracker n) (seed : Float)
    (records : List FrameRecord) (s : Scheduler) : Prop where
  total : report.total.val = records.length
  dropped : report.dropped.val = s.statistics.draws.dropped.val
  drawn : report.total.val - report.dropped.val = s.statistics.draws.drawn.val
  offset : report.offset = latestOffset records
  intervals : t.toList = (List.replicate n seed ++ intervals (paints records)).rtake n

namespace Simulator

variable {c : Config} {p : StreamProfile} {policy : SupplierPolicy} {stalls : List Stall} {k n : Nat}
  {records before : List FrameRecord} {s s' : Simulator} {r : FrameRecord}

theorem presented?_eq_none_of_run (h : (ofScheduler (.ofConfig c) p policy stalls).run k = .ok (records, s)) :
    ∀ r ∈ records, r.presented? = none ↔ r.decision = .drop := by
  refine run_invariant (P := fun records _ => ∀ r ∈ records, r.presented? = none ↔ r.decision = .drop) (by simp) ?_ h
  intro k before s r s' _ hbefore hs r' hr'
  rcases List.mem_append.1 hr' with hr' | hr'
  · exact hbefore r' hr'
  · obtain rfl := List.mem_singleton.1 hr'
    exact (stepped hs).presented?_eq_none_iff

theorem countP_isNone_of_run (h : (ofScheduler (.ofConfig c) p policy stalls).run k = .ok (records, s)) :
    records.countP (·.presented?.isNone) = records.countP (·.decision = .drop) := by
  refine List.countP_congr fun r hr => ?_
  rw [Option.isNone_iff_eq_none, presented?_eq_none_of_run h r hr, decide_eq_true_iff]

/-- **Smoothness**: a tracker that is told of the records of playback one by one can report on each of them, and what it
has to say agrees with the scheduler, which it never sees. -/
theorem tracked_of_run (hn : 0 < n) (seed : Float)
    (h : (ofScheduler (.ofConfig c) p policy stalls).run k = .ok (before, s)) (hs : s.step = .ok (r, s'))
    (hk : k + 1 < 2 ^ 32) :
    ∃ reports report, ∃ t t' : Tracker n, (Tracker.ofSeed seed).observeRecords before = .ok (reports, t) ∧
      reports.length = before.length ∧ t.observeRecord r = .ok (report, t') ∧
      report.Tells t' seed (before ++ [r]) s'.scheduler := by
  obtain ⟨reports, t, hreports, hlength, ht⟩ := (Tracker.holds_ofSeed n seed).observeRecords hn before
  obtain ⟨t', hreport, ht'⟩ := ht.observeRecord hn r
  have hrun := run_concat h hs
  have hcount := length_of_run hrun
  have hdrops := countP_isNone_of_run hrun
  have hsplit : (before ++ [r]).length =
      (before ++ [r]).countP (·.decision.isDraw) + (before ++ [r]).countP (·.decision = .drop) := by
    rw [List.length_eq_countP_add_countP (·.decision.isDraw)]
    congr 1
    refine List.countP_congr fun r _ => ?_
    cases r.decision <;> simp [Decision.isDraw]
  obtain ⟨hdrawn, hdropped⟩ := countP_of_run hrun hk
  rw [List.nil_append] at ht'
  have htotal := ht'.total
  have hmissed := ht'.dropped
  refine ⟨reports, _, t, t', hreports, hlength, hreport, ?_, ?_, ?_, ht'.lastOffset, ht'.toList⟩
  · change t'.total.val = _
    omega
  · change t'.dropped.val = _
    omega
  · change t'.total.val - t'.dropped.val = _
    omega

/-- Paints that take longer than a frame lasts: the fifth and the sixth frame are dropped, and the last interval reaches
across them. -/
theorem tracked_of_run_drops :
    let p : StreamProfile := ⟨400000, 600000, 0⟩
    let interval := Ticks.fractionalMillis 600000
    0 < 3 ∧ 6 + 1 < 2 ^ 32 ∧ ∃ before s r s', (ofScheduler (.ofConfig .standard) p .ignore []).run 6 = .ok (before, s) ∧
      s.step = .ok (r, s') ∧ ∃ reports report, ∃ t t' : Tracker 3,
        (Tracker.ofSeed Tracker.standardSeed).observeRecords before = .ok (reports, t) ∧ reports.length = before.length ∧
        t.observeRecord r = .ok (report, t') ∧
        report.Tells t' Tracker.standardSeed (before ++ [r]) s'.scheduler ∧
        report.total.val = 7 ∧ s'.scheduler.statistics.draws.dropped.val = 2 ∧
        t'.toList = [interval, interval, interval] := by
  intro p interval
  obtain ⟨⟨records, s'⟩, hrun, hlength, hpaints, hdropped⟩ : ∃ played,
      (ofScheduler (.ofConfig .standard) p .ignore []).run 7 = .ok played ∧ played.1.length = 7 ∧
        paints played.1 = [⟨0⟩, ⟨600000⟩, ⟨1200000⟩, ⟨1800000⟩, ⟨2400000⟩] ∧
        played.2.scheduler.statistics.draws.dropped.val = 2 := Fault.exists_ok (by decide +kernel)
  obtain ⟨before, s, r, hbefore, hstep, rfl⟩ := run_succ hrun
  obtain ⟨reports, report, t, t', hreports, hcount, hreport, htells⟩ :=
    tracked_of_run (n := 3) (by decide) Tracker.standardSeed hbefore hstep (by decide)
  have hintervals := htells.intervals
  dsimp only at hlength hpaints
  rw [hpaints] at hintervals
  exact ⟨by decide, by decide, before, s, r, s', hbefore, hstep, reports, report, t, t', hreports, hcount, hreport, htells,
    by rw [htells.total, hlength]; rfl, hdropped, hintervals⟩

end Simulator

end FramePacing
