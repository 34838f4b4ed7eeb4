import FramePacing.Proofs.Scheduler.Freshness

/-!
# Regular streams and their figures

Where every frame of a log is presented, the history of the log is a list over the numbers of the frames: frame `i`
starts at `start i` and is shown at `time i`, `Shown.regular`. If from some frame on all offsets are the same and all
frames the same time apart, the moments are those of one value over and over, `Statistics.Holds.constant`, and the rate
is that of the one interval, `Ring.hundredths_range`.
-/

namespace FramePacing

/-- Frame `i` as it is shown. -/
def Shown.regular (start time : Nat → StreamTime) : Nat → Shown
  | 0 => .after (time 0 - StreamTime.agesAgo) (time 0) (time 0 - start 0)
  | i + 1 => .after (time (i + 1) - time i) (time (i + 1)) (time (i + 1) - start (i + 1))

namespace History

variable {start time : Nat → StreamTime} {n : Nat}

theorem presentations_of_map {log : List Decided}
    (h : log.map (fun d => (d.presented?, d.sample.start)) = (List.range n).map fun i => (some (time i), start i)) :
    presentations log = (List.range n).map time := by
  have hmap := congrArg (List.filterMap Prod.fst) h
  rw [List.filterMap_map, List.filterMap_map] at hmap
  rw [presentations, ← List.filterMap_eq_map]
  exact hmap

/-- The frames of a log in which every frame is presented. -/
theorem shown_ofLog {log : List Decided}
    (h : log.map (fun d => (d.presented?, d.sample.start)) = (List.range n).map fun i => (some (time i), start i)) :
    (ofLog log).shown = (List.range n).map (Shown.regular start time) := by
  induction n generalizing log with
  | zero =>
    rw [List.map_eq_nil_iff.1 h]
    rfl
  | succ n ih =>
    rw [List.range_succ, List.map_append, List.map_singleton] at h
    obtain ⟨earlier, last, rfl, hearlier, hlast⟩ := List.map_eq_append_iff.1 h
    obtain ⟨d, rfl, hd⟩ := List.map_eq_singleton_iff.1 hlast
    obtain ⟨hpresented, hstart⟩ := Prod.mk.inj hd
    have hlatest : latest .agesAgo earlier = ((List.range n).map time).getLast?.getD .agesAgo := by
      rw [latest_eq_getLast?, presentations_of_map hearlier]
    have hadd : ((ofLog earlier).decide (latest .agesAgo earlier) d).shown =
        (ofLog earlier).shown ++ [Shown.regular start time n] := by
      rw [decide, hpresented, hlatest, hstart]
      cases n with
      | zero => rfl
      | succ n =>
        rw [List.range_succ, List.map_append, List.map_singleton, List.getLast?_concat, Option.getD_some]
        rfl
    rw [ofLog_concat, hadd, ih hearlier, List.range_succ, List.map_append, List.map_singleton]

variable {h : History}

theorem times_regular (hshown : h.shown = (List.range n).map (Shown.regular start time)) :
    h.times = (List.range n).map time := by
  have htime : Shown.time ∘ Shown.regular start time = time := by
    funext i
    cases i <;> rfl
  rw [times, hshown, List.map_map]
  exact congrArg (List.map · _) htime

/-- Offsets that are the same from the second frame on. -/
theorem offsets_regular {x : Signed64} (hshown : h.shown = (List.range n).map (Shown.regular start time))
    (hx : ∀ i, i + 1 < n → Statistics.countedOffset (time (i + 1) - start (i + 1)) = x) :
    h.offsets = List.replicate (n - 1) x := by
  rw [offsets, hshown, List.map_map, List.eq_replicate_iff]
  refine ⟨by simp, fun y hy => ?_⟩
  obtain ⟨i, hi, rfl⟩ := List.mem_drop_iff_getElem.1 hy
  rw [List.length_map, List.length_range] at hi
  rw [List.getElem_map, List.getElem_range, Nat.add_comm]
  exact hx i (by omega)

/-- Frame times that are the same from the third frame on. -/
theorem frameTimes_regular {y : Signed64} (hshown : h.shown = (List.range n).map (Shown.regular start time))
    (hy : ∀ i, i + 2 < n → Statistics.frameMillis (time (i + 2) - time (i + 1)) = y) :
    h.frameTimes = List.replicate (n - 2) y := by
  rw [frameTimes, hshown, List.map_map, List.eq_replicate_iff]
  refine ⟨by simp, fun z hz => ?_⟩
  obtain ⟨i, hi, rfl⟩ := List.mem_drop_iff_getElem.1 hz
  rw [List.length_map, List.length_range] at hi
  rw [List.getElem_map, List.getElem_range, Nat.add_comm]
  exact hy i (by omega)

end History

/-- The rate of times that are `d` apart as far back as the ring goes. -/
theorem Ring.hundredths_range {time : Nat → StreamTime} {d : Ticks} {n : Nat} (hd : 0 < d.val) (h2 : 2 ≤ n)
    (hspan : (time (n - 1) - time (n - 32)).val = (min n 32 - 1 : Nat) * d.val) :
    hundredths (((List.range n).map time).rtake 32) = 1000000000 / d.val := by
  have hlength : (((List.range n).map time).rtake 32).length = min n 32 := by
    rw [length_rtake, List.length_map, List.length_range]
  have hlast : (((List.range n).map time).rtake 32).getLastD .origin = time (n - 1) := by
    rw [List.getLastD_eq_getLast?, getLast?_rtake _ (by decide), List.getLast?_map, List.getLast?_range,
      if_neg (by omega)]
    rfl
  have hhead : (((List.range n).map time).rtake 32).headD .origin = time (n - 32) := by
    rw [List.headD_eq_head?_getD, List.rtake, List.head?_drop, List.length_map, List.length_range, List.getElem?_map,
      List.getElem?_range (by omega)]
    rfl
  have hmean : meanInterval (((List.range n).map time).rtake 32) = d := by
    apply Word.ext
    rw [meanInterval, hlength, hlast, hhead, Word.val_quot, hspan, Int.mul_tdiv_cancel_left _ (by omega)]
  rw [hundredths, hlength, hmean, if_neg (by omega)]

/-- One value within a bound, over and over, and few enough times to be summed up. -/
def Moments.Constant (values : List Signed64) (x : Signed64) : Prop :=
  ∃ (n : Nat) (b : Int), values = List.replicate n x ∧ (-b ≤ x.val ∧ x.val ≤ b) ∧ b ≤ 1000 ∧
    (n : Int) < 9223372036854775808 ∧ n * (1000 * b) < 9223372036854775808

/-- The figures of one offset and one frame time. -/
theorem Statistics.Holds.constant {s : Statistics} {h : History} {x y : Signed64} (hs : s.Holds h)
    (hoffsets : Moments.Constant h.offsets x) (hframeTimes : Moments.Constant h.frameTimes y) :
    ∃ f, s.summary = .ok f ∧ f.offsetDeviationMs = 0 ∧ f.jitterMs = 0 ∧
      (h.offsets ≠ [] → f.meanOffsetMs.val = x.val) ∧ f.framesDrawn = s.draws.drawn ∧
      f.framesDropped = s.draws.dropped ∧ f.frameRate.val = Ring.hundredths (h.times.rtake 32) ∧
      f.arrivalRate.val = Ring.hundredths (h.arrivals.rtake 32) := by
  obtain ⟨m, b, hoffsets, hx, hb, hm, hsum⟩ := hoffsets
  obtain ⟨k, b', hframeTimes, hy, hb', hk, hsum'⟩ := hframeTimes
  obtain ⟨mean, hmean, hmeanv⟩ := Moments.mean_replicate hx hb hm hsum
  have hdeviation := Moments.deviation_replicate hx hb hm hsum
  have hjitter := Moments.deviation_replicate hy hb' hk hsum'
  rw [← hoffsets, ← hs.offsets] at hmean hdeviation
  rw [← hframeTimes, ← hs.frameTimes] at hjitter
  refine ⟨_, by
    unfold Statistics.summary
    rw [Draws.rate, hs.draws.rate, Arrivals.rate, hs.arrivals.rate, hmean, hdeviation, hjitter]
    rfl, rfl, rfl, ?_, rfl, rfl, Ring.val_hundredths _, Ring.val_hundredths _⟩
  intro hne
  refine hmeanv fun h0 => hne ?_
  rw [hoffsets, h0, List.replicate_zero]

end FramePacing
