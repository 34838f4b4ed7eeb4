import FramePacing.Proofs.Statistics

/-!
# Figures do not depend on where the axis begins

`StreamTime.Moves m k t` says that the time `t` lies within `m` of the beginning, before and after it is moved by
`k`. Half way to the ends of the axis no difference of such times saturates, so it is the same after the move.

A ring of times is only ever asked for differences, and the rest of the statistics are told nothing but spans, so
statistics whose two rings have moved by `k`, `Statistics.Moved`, give the same figures.
-/

namespace FramePacing

/-! ### Times -/

namespace StreamTime

/-- The time lies within `m` of the beginning of the stream, and still does when it is moved by `k`. -/
structure Moves (m : Int) (k : Ticks) (t : StreamTime) : Prop where
  before : -m ≤ t.ticks.val ∧ t.ticks.val ≤ m
  after : -m ≤ t.ticks.val + k.val ∧ t.ticks.val + k.val ≤ m

variable {k : Ticks} {m : Int} {t u : StreamTime}

theorem Moves.mono {m' : Int} (h : t.Moves m k) (hm : m ≤ m') : t.Moves m' k := by
  obtain ⟨h1, h2⟩ := h
  constructor <;> omega

theorem Moves.val_add (h : t.Moves m k) (hm : m ≤ 2 ^ 62) : (t + k).ticks.val = t.ticks.val + k.val := by
  obtain ⟨-, h2⟩ := h
  rw [StreamTime.val_add]
  omega

theorem Moves.sub (h : t.Moves m k) (h' : u.Moves m k) (hm : m ≤ 2 ^ 62) : (t + k) - (u + k) = t - u := by
  apply Word.ext
  rw [val_sub, val_sub, h.val_add hm, h'.val_add hm]
  omega

end StreamTime

/-! ### Rings -/

namespace Ring

variable {n : Nat} {k : Ticks} {m : Int}

theorem meanInterval_map {l : List StreamTime} (h : ∀ t ∈ l, t.Moves m k) (hm : m ≤ 2 ^ 62) :
    meanInterval (l.map (· + k)) = meanInterval l := by
  rcases List.eq_nil_or_concat l with rfl | ⟨l, last, rfl⟩
  · rfl
  rw [List.concat_eq_append] at h ⊢
  have hlast := h last (by simp)
  have hhead : ∃ first ∈ l ++ [last], (l ++ [last]).headD .origin = first ∧
      ((l ++ [last]).map (· + k)).headD .origin = first + k := by
    cases l with
    | nil => exact ⟨last, by simp, rfl, rfl⟩
    | cons first l => exact ⟨first, by simp, rfl, rfl⟩
  obtain ⟨first, hmem, hfirst, hfirst'⟩ := hhead
  have hlast' : ((l ++ [last]).map (· + k)).getLastD .origin = last + k := by simp
  rw [meanInterval, meanInterval, hfirst, hfirst', hlast', List.length_map, hlast.sub (h first hmem) hm]
  simp

theorem hundredths_map {l : List StreamTime} (h : ∀ t ∈ l, t.Moves m k) (hm : m ≤ 2 ^ 62) :
    hundredths (l.map (· + k)) = hundredths l := by
  rw [hundredths, hundredths, meanInterval_map h hm, List.length_map]

/-- Of two rings, the second has the times of the first, all of them moved by `k`. -/
def Moved (m : Int) (k : Ticks) (r r' : Ring StreamTime n) : Prop :=
  ∃ l, r.Holds l ∧ r'.Holds (l.map (· + k)) ∧ ∀ t ∈ l, t.Moves m k

variable {r r' s : Ring StreamTime n}

theorem moved_empty (two_le : 2 ≤ n) : Moved m k (empty two_le : Ring StreamTime n) (empty two_le) :=
  ⟨[], holds_empty two_le, holds_empty two_le, by simp⟩

theorem Moved.count (h : Moved m k r r') : r'.count = r.count := by
  obtain ⟨l, hr, hr', -⟩ := h
  apply Word.ext
  rw [hr.count, hr'.count, List.length_map]

theorem Moved.push {t : StreamTime} (h : Moved m k r r') (ht : t.Moves m k) (hp : r.push t = .ok s) :
    ∃ s', r'.push (t + k) = .ok s' ∧ Moved m k s s' := by
  have hcount := h.count
  obtain ⟨l, hr, hr', hl⟩ := h
  have hs := hr.push t hp
  obtain ⟨count, hc, -⟩ := Fault.bind_eq_ok.1 hp
  have hc' : r'.count.add 1 = .ok count := by rw [hcount, hc]
  have hp' : ∃ s', r'.push (t + k) = .ok s' := by
    rw [Ring.push, hc']
    exact ⟨_, rfl⟩
  obtain ⟨s', hp'⟩ := hp'
  have hs' := hr'.push _ hp'
  refine ⟨s', hp', l ++ [t], hs, ?_, ?_⟩
  · rw [List.map_append]
    exact hs'
  · intro u hu
    rcases List.mem_append.1 hu with hu | hu
    · exact hl u hu
    · rw [List.mem_singleton] at hu
      exact hu ▸ ht

theorem Moved.rate (h : Moved m k r r') (hm : m ≤ 2 ^ 62) : r'.rate = r.rate := by
  obtain ⟨l, hr, hr', hl⟩ := h
  have hw : ∀ t ∈ l.rtake n, t.Moves m k := by
    intro t ht
    exact hl t (List.mem_of_mem_drop ht)
  have hmap : (l.map (· + k)).rtake n = (l.rtake n).map (· + k) := by
    rw [List.rtake, List.rtake, List.length_map, List.map_drop]
  rw [hr.rate, hr'.rate, hmap, hundredths_map hw hm]

end Ring

/-! ### Statistics -/

namespace Statistics

/-- Of two statistics, the second was told the same as the first, but for times that were moved by `k`. -/
structure Moved (k : Ticks) (s s' : Statistics) : Prop where
  arrivals : Ring.Moved (2 ^ 61) k s.arrivals.ring s'.arrivals.ring
  draws : Ring.Moved (2 ^ 61) k s.draws.ring s'.draws.ring
  dropped : s'.draws.dropped = s.draws.dropped
  offsets : s'.offsets = s.offsets
  frameTimes : s'.frameTimes = s.frameTimes
  recentOffsets : s'.recentOffsets = s.recentOffsets

variable {k : Ticks} {s s' t : Statistics} {time : StreamTime}

theorem moved_empty (k : Ticks) : Moved k empty empty where
  arrivals := Ring.moved_empty _
  draws := Ring.moved_empty _
  dropped := rfl
  offsets := rfl
  frameTimes := rfl
  recentOffsets := rfl

theorem Moved.drawn (h : Moved k s s') : s'.draws.drawn = s.draws.drawn := by
  rw [Draws.drawn, Draws.drawn, h.draws.count]

theorem Moved.recordArrival (h : Moved k s s') (ht : time.Moves (2 ^ 61) k) (hr : s.recordArrival time = .ok t) :
    ∃ t', s'.recordArrival (time + k) = .ok t' ∧ Moved k t t' := by
  obtain ⟨arrivals, ha, hr⟩ := Fault.bind_eq_ok.1 hr
  obtain ⟨ring, hp, ha⟩ := Fault.bind_eq_ok.1 ha
  cases hr
  cases ha
  obtain ⟨ring', hp', hring⟩ := h.arrivals.push ht hp
  refine ⟨{ s' with arrivals := ⟨ring'⟩ }, ?_, { h with arrivals := hring }⟩
  rw [Statistics.recordArrival, Arrivals.record, hp']
  rfl

theorem Moved.recordDrop (h : Moved k s s') : Moved k s.recordDrop s'.recordDrop := by
  refine { h with dropped := ?_ }
  change s'.draws.dropped.satAdd 1 = s.draws.dropped.satAdd 1
  rw [h.dropped]

/-- The frame time has to be the same only where it counts, from the third frame on. -/
theorem Moved.recordDraw {offset frameTime frameTime' : Ticks} (h : Moved k s s') (ht : time.Moves (2 ^ 61) k)
    (hf : 0 < s.draws.ring.count.val → frameTime' = frameTime) (hr : s.recordDraw time offset frameTime = .ok t) :
    ∃ t', s'.recordDraw (time + k) offset frameTime' = .ok t' ∧ Moved k t t' ∧ 0 < t.draws.ring.count.val := by
  rw [recordDraw_eq] at hr
  obtain ⟨draws, hd, hr⟩ := Fault.bind_eq_ok.1 hr
  obtain ⟨recent, hw, hr⟩ := Fault.bind_eq_ok.1 hr
  obtain ⟨ring, hp, hd⟩ := Fault.bind_eq_ok.1 hd
  cases hr
  cases hd
  obtain ⟨ring', hp', hring⟩ := h.draws.push ht hp
  obtain ⟨l, hl, -, -⟩ := h.draws
  have hpos : 0 < ring.count.val := by
    have hcount := (hl.push time hp).count
    rw [List.length_append, List.length_singleton] at hcount
    omega
  have hframeTimes : (if 2 ≤ s'.draws.drawn.val then s'.frameTimes.push (frameMillis frameTime')
      else s'.frameTimes) =
      if 2 ≤ s.draws.drawn.val then s.frameTimes.push (frameMillis frameTime) else s.frameTimes := by
    rw [h.drawn, h.frameTimes]
    by_cases h2 : 2 ≤ s.draws.drawn.val
    · have hcount : 0 < s.draws.ring.count.val := by
        rw [Draws.drawn, Word.val_saturate] at h2
        change 2 ≤ max (0 : Int) (min _ 4294967295) at h2
        omega
      rw [if_pos h2, if_pos h2, hf hcount]
    · rw [if_neg h2, if_neg h2]
  have hoffsets : (if 1 ≤ s'.draws.drawn.val then s'.offsets.push (countedOffset offset) else s'.offsets) =
      if 1 ≤ s.draws.drawn.val then s.offsets.push (countedOffset offset) else s.offsets := by
    rw [h.drawn, h.offsets]
  have hr' : s'.recordDraw (time + k) offset frameTime' = .ok { s' with
      draws := { s'.draws with ring := ring' }
      recentOffsets := recent
      offsets := if 1 ≤ s'.draws.drawn.val then s'.offsets.push (countedOffset offset) else s'.offsets
      frameTimes :=
        if 2 ≤ s'.draws.drawn.val then s'.frameTimes.push (frameMillis frameTime') else s'.frameTimes } := by
    rw [recordDraw_eq, Draws.recordDraw, hp', h.recentOffsets, hw]
    rfl
  exact ⟨_, hr', ⟨h.arrivals, hring, h.dropped, hoffsets, hframeTimes, rfl⟩, hpos⟩

/-- Times show in the figures only by their differences. -/
theorem Moved.summary (h : Moved k s s') : s'.summary = s.summary := by
  have hrecent : s'.recentOffset? = s.recentOffset? := by
    rw [Statistics.recentOffset?, Statistics.recentOffset?, h.recentOffsets]
  unfold Statistics.summary
  rw [Draws.rate, Arrivals.rate, Draws.rate, Arrivals.rate, h.draws.rate (by decide), h.arrivals.rate (by decide),
    h.drawn, h.dropped, h.offsets, h.frameTimes, hrecent, Arrivals.count, h.arrivals.count]
  rfl

end Statistics

end FramePacing
