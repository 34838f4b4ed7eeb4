import FramePacing.Proofs.Ring
import FramePacing.Proofs.MovingAverage
import FramePacing.Proofs.Moments

/-!
# Statistics are those of a history

A `History` lists what statistics are told: when samples arrive, which frames are shown, and how many are
dropped. `Statistics.Holds s h` says that rings, window and moments have taken in the history `h`. Each
recording keeps this, goes through as long as the rings can count it, and the figures in the end are those
of the whole history, `StatisticsSummary.Describes`.
-/

namespace FramePacing

/-! ## Histories -/

namespace Statistics

/-- A frame time in whole milliseconds, truncated toward zero. One that is negative or above a second counts as a
second. -/
def frameMillis (frameTime : Ticks) : Signed64 :=
  Word.saturate <|
    if 0 ≤ frameTime.val.tdiv 10000 ∧ frameTime.val.tdiv 10000 ≤ 1000 then frameTime.val.tdiv 10000 else 1000

theorem val_frameMillis (frameTime : Ticks) :
    (frameMillis frameTime).val =
      if 0 ≤ frameTime.val.tdiv 10000 ∧ frameTime.val.tdiv 10000 ≤ 1000 then frameTime.val.tdiv 10000 else 1000 := by
  rw [frameMillis, Word.val_saturate_signed64]
  split <;> omega

theorem countedFrameTime_eq (frameTime : Ticks) : countedFrameTime frameTime = frameMillis frameTime := by
  apply Word.ext
  have hmillis : (Ticks.toMillis frameTime).val = frameTime.val.tdiv 10000 := rfl
  have hlimit : limit.val = 1000 := rfl
  simp only [val_frameMillis, countedFrameTime, Word.le_iff, Word.val_zero, hmillis, hlimit]
  split
  · exact hmillis
  · exact hlimit

theorem frameMillis_mem (frameTime : Ticks) :
    0 ≤ (frameMillis frameTime).val ∧ (frameMillis frameTime).val ≤ 1000 := by
  rw [val_frameMillis]
  split <;> omega

/-- A second and more counts as a second. -/
theorem val_frameMillis_of_long {frameTime : Ticks} (h : 10000000 ≤ frameTime.val) :
    (frameMillis frameTime).val = 1000 := by
  have hms : (1000 : Int) ≤ frameTime.val.tdiv 10000 := Int.le_tdiv_of_mul_le (by decide) h
  rw [val_frameMillis]
  split <;> omega

/-- A cap of a second or more does not show. -/
theorem frameMillis_min {frameTime cap : Ticks} (h : 10000000 ≤ cap.val) :
    frameMillis (min frameTime cap) = frameMillis frameTime := by
  have hmin := Word.val_min frameTime cap
  by_cases hle : frameTime.val ≤ cap.val
  · rw [show min frameTime cap = frameTime from Word.ext (by omega)]
  · apply Word.ext
    rw [val_frameMillis_of_long (by omega), val_frameMillis_of_long (by omega)]

/-- No frame time counts for more than it is. -/
theorem frameMillis_le {frameTime : Ticks} (h : 0 ≤ frameTime.val) :
    10000 * (frameMillis frameTime).val ≤ frameTime.val := by
  rw [val_frameMillis, Int.tdiv_eq_ediv_of_nonneg h]
  split <;> omega

/-- An offset in whole milliseconds, truncated toward zero, within a second on either side. -/
def countedOffset (offset : Ticks) : Signed64 := Word.saturate (max (-1000) (min (offset.val.tdiv 10000) 1000))

theorem val_countedOffset (offset : Ticks) :
    (countedOffset offset).val = max (-1000) (min (offset.val.tdiv 10000) 1000) := by
  rw [countedOffset, Word.val_saturate_signed64]
  omega

theorem countedOffset_mem (offset : Ticks) :
    -1000 ≤ (countedOffset offset).val ∧ (countedOffset offset).val ≤ 1000 := by
  rw [val_countedOffset]
  omega

/-- An offset within one second on either side. -/
def confinedOffset (offset : Ticks) : Ticks := Word.saturate (max (-10000000) (min offset.val 10000000))

theorem val_confinedOffset (offset : Ticks) :
    (confinedOffset offset).val = max (-10000000) (min offset.val 10000000) := by
  rw [confinedOffset, Word.val_saturate_signed64]
  omega

theorem confinedOffset_mem (offset : Ticks) :
    -10000000 ≤ (confinedOffset offset).val ∧ (confinedOffset offset).val ≤ 10000000 := by
  rw [val_confinedOffset]
  omega

end Statistics

/-- A frame that was shown. -/
structure Shown where
  time : StreamTime
  /-- How far that was from the nominal start. -/
  offset : Ticks
  /-- The time since the frame before, in whole milliseconds. -/
  frameTime : Signed64
  frameTime_mem : 0 ≤ frameTime.val ∧ frameTime.val ≤ 1000

namespace Shown

/-- A frame that was shown `frameTime` after the one before. -/
def after (frameTime : Ticks) (time : StreamTime) (offset : Ticks) : Shown :=
  ⟨time, offset, Statistics.frameMillis frameTime, Statistics.frameMillis_mem frameTime⟩

end Shown

/-- What statistics are told. -/
structure History where
  arrivals : List StreamTime
  shown : List Shown
  drops : Nat

namespace History

def empty : History := ⟨[], [], 0⟩

variable (h : History)

def arrive (now : StreamTime) : History := { h with arrivals := h.arrivals ++ [now] }

def add (f : Shown) : History := { h with shown := h.shown ++ [f] }

def drop : History := { h with drops := h.drops + 1 }

def times : List StreamTime := h.shown.map (·.time)

/-- The offsets that mean and deviation are taken of: not that of the first frame. -/
def offsets : List Signed64 := (h.shown.map fun f => Statistics.countedOffset f.offset).drop 1

/-- The frame times that the jitter is taken of: not those of the first two frames. -/
def frameTimes : List Signed64 := (h.shown.map (·.frameTime)).drop 2

/-- The offsets that are summarised. -/
def confined : List Ticks := h.shown.map fun f => Statistics.confinedOffset f.offset

theorem offsets_mem {h : History} {x : Signed64} (hx : x ∈ h.offsets) : -1000 ≤ x.val ∧ x.val ≤ 1000 := by
  obtain ⟨f, -, rfl⟩ := List.mem_map.1 (List.mem_of_mem_drop hx)
  exact Statistics.countedOffset_mem _

theorem frameTimes_mem {h : History} {x : Signed64} (hx : x ∈ h.frameTimes) : 0 ≤ x.val ∧ x.val ≤ 1000 := by
  obtain ⟨f, -, rfl⟩ := List.mem_map.1 (List.mem_of_mem_drop hx)
  exact f.frameTime_mem

theorem confined_mem {h : History} {x : Ticks} {k : Nat} (hx : x ∈ h.confined.rtake k) :
    -10000000 ≤ x.val ∧ x.val ≤ 10000000 := by
  obtain ⟨f, -, rfl⟩ := List.mem_map.1 (List.mem_of_mem_drop hx)
  exact Statistics.confinedOffset_mem _

theorem moderate_offsets (hl : h.shown.length < 9000000000000) : Moments.Moderate h.offsets where
  within _ hx := offsets_mem hx
  length := by
    rw [offsets, List.length_drop, List.length_map]
    omega

theorem moderate_frameTimes (hl : h.shown.length < 9000000000000) : Moments.Moderate h.frameTimes where
  within _ hx := by
    have := frameTimes_mem hx
    omega
  length := by
    rw [frameTimes, List.length_drop, List.length_map]
    omega

end History

/-! ## Recordings -/

namespace Statistics

/-- The statistics have taken in the history `h`. -/
structure Holds (s : Statistics) (h : History) : Prop where
  arrivals : s.arrivals.ring.Holds h.arrivals
  draws : s.draws.ring.Holds h.times
  dropped : s.draws.dropped.val = min (h.drops : Int) 4294967295
  offsets : s.offsets = .ofList h.offsets
  frameTimes : s.frameTimes = .ofList h.frameTimes
  recentOffsets : s.recentOffsets.Holds h.confined

variable {s s' : Statistics} {h : History}

theorem holds_empty : empty.Holds .empty where
  arrivals := Ring.holds_empty _
  draws := Ring.holds_empty _
  dropped := rfl
  offsets := rfl
  frameTimes := rfl
  recentOffsets := MovingAverage.holds_empty _

theorem Holds.drawn (hs : s.Holds h) : s.draws.drawn.val = min (h.shown.length : Int) 4294967295 := by
  have hc := hs.draws.count
  rw [History.times, List.length_map] at hc
  rw [Draws.drawn, hc, Word.val_saturate]
  change max (0 : Int) (min _ 4294967295) = _
  omega

theorem Holds.recordArrival {now : StreamTime} (hs : s.Holds h) (hr : s.recordArrival now = .ok s') :
    s'.Holds (h.arrive now) := by
  obtain ⟨arrivals, ha, hr⟩ := Fault.bind_eq_ok.1 hr
  obtain ⟨ring, hp, ha⟩ := Fault.bind_eq_ok.1 ha
  cases hr
  cases ha
  exact { hs with arrivals := hs.arrivals.push now hp }

theorem Holds.recordArrival_ok (hs : s.Holds h) (now : StreamTime)
    (hl : h.arrivals.length + 1 < 18446744073709551616) : ∃ s', s.recordArrival now = .ok s' := by
  obtain ⟨ring, hp⟩ := hs.arrivals.push_ok now hl
  rw [Statistics.recordArrival, Arrivals.record, hp]
  exact ⟨_, rfl⟩

theorem Holds.recordDrop (hs : s.Holds h) : s.recordDrop.Holds h.drop := by
  refine { hs with dropped := ?_ }
  have h1 : (1 : Unsigned32).val = 1 := rfl
  change (s.draws.dropped.satAdd 1).val = min ((h.drops + 1 : Nat) : Int) 4294967295
  rw [Word.satAdd, h1, hs.dropped, Word.val_saturate]
  change max (0 : Int) (min _ 4294967295) = _
  omega

/-- Only the ring and the sum of the window can keep a frame from being recorded. -/
theorem recordDraw_eq (s : Statistics) (time : StreamTime) (offset frameTime : Ticks) :
    s.recordDraw time offset frameTime =
      s.draws.recordDraw time >>= fun draws => s.recentOffsets.push (confinedOffset offset) >>= fun recentOffsets =>
        .ok { s with
          draws
          recentOffsets
          offsets := if 1 ≤ s.draws.drawn.val then s.offsets.push (countedOffset offset) else s.offsets
          frameTimes :=
            if 2 ≤ s.draws.drawn.val then s.frameTimes.push (frameMillis frameTime) else s.frameTimes } := by
  have e₁ : (Ticks.ofMillis limit).neg = .ok { val := -10000000 } := rfl
  have e₂ : offset.clamp { val := -10000000 } (Ticks.ofMillis limit) = .ok (confinedOffset offset) :=
    Word.clamp_eq_ok_iff.2 ⟨by decide, val_confinedOffset offset⟩
  have e₃ : limit.neg = .ok { val := -1000 } := rfl
  have e₄ : (Ticks.toMillis offset).clamp { val := -1000 } limit = .ok (countedOffset offset) :=
    Word.clamp_eq_ok_iff.2 ⟨by decide, val_countedOffset offset⟩
  unfold recordDraw
  simp only [e₁, e₂, e₃, e₄, Fault.ok_bind, countedFrameTime_eq]
  rfl

/-- Values that count from the `k`-th frame on. -/
theorem push_since (k : Nat) {d : Int} {m : Moments} {values : List Signed64} (x : Signed64)
    (hm : m = .ofList (values.drop k)) (hd : (k : Int) ≤ d ↔ k ≤ values.length) :
    (if (k : Int) ≤ d then m.push x else m) = .ofList ((values ++ [x]).drop k) := by
  by_cases hk : k ≤ values.length
  · rw [if_pos (hd.2 hk), List.drop_append_of_le_length hk, Moments.ofList_concat, hm]
  · rw [if_neg (fun h => hk (hd.1 h)), hm, List.drop_of_length_le (by omega), List.drop_of_length_le (by simp; omega)]

theorem Holds.recordDraw {time : StreamTime} {offset frameTime : Ticks} (hs : s.Holds h)
    (hr : s.recordDraw time offset frameTime = .ok s') : s'.Holds (h.add (.after frameTime time offset)) := by
  have hd := hs.drawn
  rw [recordDraw_eq] at hr
  obtain ⟨draws, hp, hr⟩ := Fault.bind_eq_ok.1 hr
  obtain ⟨recent, hw, hr⟩ := Fault.bind_eq_ok.1 hr
  obtain ⟨ring, hring, hp⟩ := Fault.bind_eq_ok.1 hp
  cases hr
  cases hp
  refine ⟨hs.arrivals, ?_, hs.dropped, ?_, ?_, ?_⟩
  · rw [History.times, History.add, List.map_append]
    exact hs.draws.push time hring
  · rw [History.offsets, History.add, List.map_append]
    exact push_since 1 _ hs.offsets (by rw [hd, List.length_map]; omega)
  · rw [History.frameTimes, History.add, List.map_append]
    exact push_since 2 _ hs.frameTimes (by rw [hd, List.length_map]; omega)
  · rw [History.confined, History.add, List.map_append]
    exact hs.recentOffsets.push _ hw

/-- The offsets of a window sum to no more than a minute or so. -/
theorem total_confined_mem {k : Nat} (h : History) (hk : k ≤ offsetWindow) :
    -640000000 ≤ Word.total (h.confined.rtake k) ∧ Word.total (h.confined.rtake k) ≤ 640000000 := by
  have ht := Word.total_mem fun _ hx => History.confined_mem (h := h) (k := k) hx
  have hl := length_rtake h.confined k
  have hw : offsetWindow = 64 := rfl
  omega

theorem Holds.recordDraw_ok (hs : s.Holds h) (time : StreamTime) (offset frameTime : Ticks)
    (hl : h.shown.length + 1 < 18446744073709551616) : ∃ s', s.recordDraw time offset frameTime = .ok s' := by
  have hlen : h.times.length + 1 < 18446744073709551616 := by rwa [History.times, List.length_map]
  obtain ⟨ring, hp⟩ := hs.draws.push_ok time hlen
  have hsum := total_confined_mem (h.add (.after frameTime time offset)) (Nat.le_refl offsetWindow)
  have hkept := total_confined_mem (k := offsetWindow - 1) h (Nat.sub_le ..)
  rw [History.confined, History.add, List.map_append] at hsum
  obtain ⟨recent, hw⟩ := hs.recentOffsets.push_ok (confinedOffset offset)
    ⟨show (-9223372036854775808 : Int) ≤ _ by omega, show _ ≤ (9223372036854775807 : Int) by omega⟩
    ⟨show (-9223372036854775808 : Int) ≤ _ by exact Int.le_trans (by decide) hsum.1,
      show _ ≤ (9223372036854775807 : Int) by exact Int.le_trans hsum.2 (by decide)⟩
  rw [recordDraw_eq, Draws.recordDraw, hp, hw]
  exact ⟨_, rfl⟩

end Statistics

/-! ## Figures -/

/-- A summary of offsets: their exact mean, truncated, the extremes and the last one. -/
structure OffsetSummary.Sums (o : OffsetSummary) (offsets : List Ticks) : Prop where
  average : o.average.val = (Word.total offsets).tdiv offsets.length
  min : o.min ∈ offsets ∧ ∀ x ∈ offsets, o.min ≤ x
  max : o.max ∈ offsets ∧ ∀ x ∈ offsets, x ≤ o.max
  last : offsets.getLast? = some o.last

/-- The figures are those of the history. -/
structure StatisticsSummary.Describes (f : StatisticsSummary) (h : History) : Prop where
  framesDrawn : f.framesDrawn.val = min (h.shown.length : Int) 4294967295
  framesDropped : f.framesDropped.val = min (h.drops : Int) 4294967295
  arrivals : f.arrivals.val = h.arrivals.length
  frameRate : f.frameRate.val = Ring.hundredths (h.times.rtake 32)
  arrivalRate : f.arrivalRate.val = Ring.hundredths (h.arrivals.rtake 32)
  meanOffsetMs : f.meanOffsetMs.val = (Word.total h.offsets).tdiv h.offsets.length
  offsetDeviationMs : f.offsetDeviationMs.val = ⌊sampleDeviation h.offsets⌋
  jitterMs : f.jitterMs.val = ⌊sampleDeviation h.frameTimes⌋
  noOffset : f.recentOffset? = none ↔ h.shown = []
  recentOffset : ∀ o, f.recentOffset? = some o → o.Sums (h.confined.rtake 64)

theorem OffsetSummary.Sums.unique {o p : OffsetSummary} {offsets : List Ticks} (ho : o.Sums offsets)
    (hp : p.Sums offsets) : o = p := by
  obtain ⟨average, min, max, last⟩ := o
  obtain ⟨average', min', max', last'⟩ := p
  have haverage : average = average' := Word.ext (ho.average.trans hp.average.symm)
  have hmin : min = min' := Word.ext (Int.le_antisymm (ho.min.2 _ hp.min.1) (hp.min.2 _ ho.min.1))
  have hmax : max = max' := Word.ext (Int.le_antisymm (hp.max.2 _ ho.max.1) (ho.max.2 _ hp.max.1))
  have hlast : last = last' := Option.some.inj (ho.last.symm.trans hp.last)
  rw [haverage, hmin, hmax, hlast]

/-- A history determines all the figures. -/
theorem StatisticsSummary.Describes.unique {f g : StatisticsSummary} {h : History} (hf : f.Describes h)
    (hg : g.Describes h) : f = g := by
  have hrecent : f.recentOffset? = g.recentOffset? := by
    by_cases h0 : h.shown = []
    · rw [hf.noOffset.2 h0, hg.noOffset.2 h0]
    · obtain ⟨o, ho⟩ := Option.ne_none_iff_exists'.1 fun hn => h0 (hf.noOffset.1 hn)
      obtain ⟨p, hp⟩ := Option.ne_none_iff_exists'.1 fun hn => h0 (hg.noOffset.1 hn)
      rw [ho, hp, (hf.recentOffset o ho).unique (hg.recentOffset p hp)]
  cases f
  cases g
  congr 1
  · exact Word.ext (hf.framesDrawn.trans hg.framesDrawn.symm)
  · exact Word.ext (hf.framesDropped.trans hg.framesDropped.symm)
  · exact Word.ext (hf.frameRate.trans hg.frameRate.symm)
  · exact Word.ext (hf.arrivalRate.trans hg.arrivalRate.symm)
  · exact Word.ext (hf.meanOffsetMs.trans hg.meanOffsetMs.symm)
  · exact Word.ext (hf.offsetDeviationMs.trans hg.offsetDeviationMs.symm)
  · exact Word.ext (hf.jitterMs.trans hg.jitterMs.symm)
  · exact Word.ext (hf.arrivals.trans hg.arrivals.symm)

namespace Statistics

variable {s : Statistics} {h : History}

theorem Holds.summary_ok (hs : s.Holds h) : ∃ f, s.summary = .ok f := by
  have hm : 0 ≤ s.offsets.count.val := hs.offsets ▸ Moments.count_ofList_nonneg _
  unfold summary
  rw [Draws.rate, hs.draws.rate, Arrivals.rate, hs.arrivals.rate, Moments.mean_eq hm, Moments.deviation_eq,
    Moments.deviation_eq]
  exact ⟨_, rfl⟩

/-- The recent offsets are summarised once there are any. -/
theorem Holds.recentOffset? (hs : s.Holds h) :
    (s.recentOffset? = none ↔ h.shown = []) ∧
      ∀ o, s.recentOffset? = some o → o.Sums (h.confined.rtake offsetWindow) := by
  have havg := hs.recentOffsets.average? (show (64 : Int) ≤ 9223372036854775807 by decide)
  by_cases h0 : h.shown = []
  · have hnil : h.confined = [] := by rw [History.confined, h0]; rfl
    rw [if_pos hnil] at havg
    have hnone : s.recentOffset? = none := by rw [Statistics.recentOffset?, havg]; rfl
    exact ⟨⟨fun _ => h0, fun _ => hnone⟩, fun o ho => absurd (hnone.symm.trans ho) (Option.some_ne_none o).symm⟩
  · have hne : h.confined ≠ [] := fun hnil => h0 (List.map_eq_nil_iff.1 hnil)
    have hlast := getLast?_rtake h.confined (n := offsetWindow) (by decide)
    have hw : h.confined.rtake offsetWindow ≠ [] := by
      intro hnil
      rw [hnil, List.getLast?_nil] at hlast
      exact hne (List.getLast?_eq_none_iff.1 hlast.symm)
    obtain ⟨least, hmin, hleast⟩ := hs.recentOffsets.min? hw
    obtain ⟨greatest, hmax, hgreatest⟩ := hs.recentOffsets.max? hw
    obtain ⟨last, hl⟩ := Option.ne_none_iff_exists'.1 fun hn => hne (List.getLast?_eq_none_iff.1 hn)
    have hsome : s.recentOffset? = some {
        average := s.recentOffsets.sum.quot (h.confined.rtake offsetWindow).length
        min := least, max := greatest, last } := by
      rw [Statistics.recentOffset?, havg, if_neg hne, hmin, hmax, hs.recentOffsets.last, hl]
      rfl
    refine ⟨⟨fun hn => absurd (hsome.symm.trans hn) (Option.some_ne_none _), fun hn => absurd hn h0⟩, ?_⟩
    intro o ho
    rw [hsome] at ho
    cases ho
    refine ⟨?_, hleast, hgreatest, hlast.trans hl⟩
    rw [Word.val_quot, hs.recentOffsets.sum]

/-- **Figures**: unless the history is so long that the moments have saturated, the figures are exactly its. -/
theorem Holds.summary (hs : s.Holds h) (hl : h.shown.length < 9000000000000) :
    ∃ f, s.summary = .ok f ∧ f.Describes h := by
  have hm := h.moderate_offsets hl
  have hf := h.moderate_frameTimes hl
  have hx : s.offsets.Exact h.offsets := hs.offsets ▸ Moments.exact_ofList hm
  have hy : s.frameTimes.Exact h.frameTimes := hs.frameTimes ▸ Moments.exact_ofList hf
  obtain ⟨mean, hmean, hmeanv⟩ := hx.mean hm
  obtain ⟨deviation, hdev, hdevv⟩ := hx.deviation hm
  obtain ⟨jitter, hjit, hjitv⟩ := hy.deviation hf
  obtain ⟨hnone, hrecent⟩ := hs.recentOffset?
  refine ⟨_, by
    unfold Statistics.summary
    rw [Draws.rate, hs.draws.rate, Arrivals.rate, hs.arrivals.rate, hmean, hdev, hjit]
    rfl, ?_⟩
  exact {
    framesDrawn := hs.drawn
    framesDropped := hs.dropped
    arrivals := hs.arrivals.count
    frameRate := Ring.val_hundredths _
    arrivalRate := Ring.val_hundredths _
    meanOffsetMs := hmeanv
    offsetDeviationMs := hdevv
    jitterMs := hjitv
    noOffset := hnone
    recentOffset := hrecent }

end Statistics

end FramePacing
