import FramePacing.Proofs.Word
import Mathlib.Order.Bounds.Basic

/-!
# Spans and durations

A span is a number of ticks of 100 ns and has a sign, a duration is a number of nanoseconds and has none. Each conversion
saturates at an end of its own: the longest durations have more ticks than the longest span, and the longest spans have
more nanoseconds than fit 64 bits, in which they are counted on the way. From zero to `Ticks.exactLimit`, short of both
ends, a span comes back as it was and a duration comes back rounded down to whole ticks, `Ticks.conversions_agree`.

The conversions are written down in exact numbers. `Ticks.toDurationInWords` and `Ticks.ofDurationInWords` do the same
with one machine word after the other, and no step of theirs is a fault.
-/

namespace FramePacing

/-! ### Durations by their nanoseconds -/

namespace Duration

/-- The shorter one of two durations has fewer seconds, or as many and the shorter rest. -/
instance : LE Duration := ⟨fun d e => d.seconds < e.seconds ∨ d.seconds = e.seconds ∧ d.subsecond ≤ e.subsecond⟩

variable {d e : Duration}

theorem parts_mem (d : Duration) :
    (0 ≤ d.seconds.val ∧ d.seconds.val ≤ 18446744073709551615) ∧ 0 ≤ d.subsecond.val ∧ d.subsecond.val ≤ 999999999 :=
  ⟨⟨d.seconds.lo_le, d.seconds.le_hi⟩, d.subsecond.lo_le, d.subsecond.le_hi⟩

theorem nanoseconds_nonneg (d : Duration) : 0 ≤ d.nanoseconds := by
  have hparts := d.parts_mem
  unfold nanoseconds
  omega

theorem le_iff : d ≤ e ↔ d.nanoseconds ≤ e.nanoseconds := by
  have hd := d.parts_mem
  have he := e.parts_mem
  change d.seconds < e.seconds ∨ d.seconds = e.seconds ∧ d.subsecond ≤ e.subsecond ↔ _
  rw [Word.lt_iff, Word.le_iff, Word.ext_iff]
  unfold nanoseconds
  omega

theorem eq_of_nanoseconds (h : d.nanoseconds = e.nanoseconds) : d = e := by
  have hd := d.parts_mem
  have he := e.parts_mem
  unfold nanoseconds at h
  have hseconds : d.seconds = e.seconds := Word.ext (by omega)
  have hsubsecond : d.subsecond = e.subsecond := Word.ext (by omega)
  cases d
  cases e
  cases hseconds
  cases hsubsecond
  rfl

theorem val_seconds_ofNanoseconds (n : Nat) :
    (ofNanoseconds n).seconds.val = min ((n : Int) / 1000000000) 18446744073709551615 := by
  rw [ofNanoseconds, Word.val_saturate_unsigned64]
  omega

theorem val_subsecond_ofNanoseconds (n : Nat) : (ofNanoseconds n).subsecond.val = (n : Int) % 1000000000 := by
  have hsaturate : (ofNanoseconds n).subsecond.val = max 0 (min ((n % 1000000000 : Nat) : Int) 999999999) :=
    Word.val_saturate _
  omega

/-- As long as the seconds fit, none of the nanoseconds is lost. -/
theorem nanoseconds_ofNanoseconds {n : Nat} (h : n ≤ 18446744073709551615) : (ofNanoseconds n).nanoseconds = n := by
  rw [nanoseconds, val_seconds_ofNanoseconds, val_subsecond_ofNanoseconds]
  omega

/-! ### In machine words -/

/-- The nanoseconds of a duration, counted in a word. -/
def counted (d : Duration) : Except Fault Unsigned128 := do
  (← d.seconds.widen.mul 1000000000).add d.subsecond.widen

/-- The duration of a word of nanoseconds, from its seconds and the remainder in a narrower word. -/
def ofWord (n : Unsigned64) : Except Fault Duration := do
  ofParts (← n.div 1000000000) (.wrap (n.val % 1000000000))

/-- The count is exact. -/
theorem counted_ok (d : Duration) : ∃ n, d.counted = .ok n ∧ n.val = d.nanoseconds := by
  have hparts := d.parts_mem
  obtain ⟨whole, hwhole⟩ : ∃ n : Unsigned128, n.val = d.seconds.val * 1000000000 :=
    ⟨.saturate (d.seconds.val * 1000000000), by rw [Word.val_saturate_unsigned128]; omega⟩
  obtain ⟨n, hn⟩ : ∃ n : Unsigned128, n.val = d.seconds.val * 1000000000 + d.subsecond.val :=
    ⟨.saturate (d.seconds.val * 1000000000 + d.subsecond.val), by rw [Word.val_saturate_unsigned128]; omega⟩
  have hmul : (d.seconds.widen : Unsigned128).mul 1000000000 = .ok whole := Word.mul_eq_ok_iff.2 hwhole
  refine ⟨n, ?_, hn⟩
  rw [counted, hmul, Fault.ok_bind, Word.add_eq_ok_iff, hn, hwhole, Word.val_widen]

theorem ofWord_eq (n : Unsigned64) : ofWord n = .ok (ofNanoseconds n.toNat) := by
  have hlo : 0 ≤ n.val := n.lo_le
  have hhi : n.val ≤ 18446744073709551615 := n.le_hi
  have hval : (n.toNat : Int) = n.val := Int.toNat_of_nonneg hlo
  have hdiv : n.div 1000000000 = .ok (n.quot 1000000000) := Word.div_eq_quot (by decide)
  have hquot : (n.quot 1000000000).val = n.val / 1000000000 := Int.tdiv_eq_ediv_of_nonneg hlo
  have hmod : 0 ≤ n.val % 1000000000 ∧ n.val % 1000000000 ≤ 999999999 := by omega
  have hrest : (Word.wrap (n.val % 1000000000) : Unsigned32).val = n.val % 1000000000 :=
    Word.val_wrap_of_mem (w := .unsigned32) hmod.1 (Int.le_trans hmod.2 (by decide))
  -- the remainder is less than a second, so nothing is carried
  have hcarry : Word.ofInt? ((n.quot 1000000000).val + n.val % 1000000000 / 1000000000) = some (n.quot 1000000000) := by
    rw [Word.ofInt?_eq_some_iff]
    omega
  have hseconds : n.quot 1000000000 = (ofNanoseconds n.toNat).seconds := by
    apply Word.ext
    rw [val_seconds_ofNanoseconds, hval, hquot]
    omega
  have hsubsecond : Word.saturate (n.val % 1000000000) = (ofNanoseconds n.toNat).subsecond := by
    rw [← hval]
    rfl
  rw [ofWord, hdiv, Fault.ok_bind, ofParts, hrest, hcarry, Int.emod_emod, hseconds, hsubsecond]

end Duration

/-! ### Conversions -/

namespace Ticks

/-- The longest span whose nanoseconds fit a word of 64 bits. -/
def exactLimit : Int := 18446744073709551615 / 100

/-- A duration as a span, one machine word after the other. -/
def ofDurationInWords (d : Duration) : Except Fault Ticks := do
  let ticks ← (← d.counted).div 100
  return (Word.ofInt? ticks.val).getD .greatest

/-- A span as a duration, one machine word after the other. -/
def toDurationInWords (t : Ticks) : Except Fault Duration :=
  Duration.ofWord (((Word.ofInt? t.val : Option Unsigned64).getD 0).satMul 100)

theorem ofDurationInWords_eq (d : Duration) : ofDurationInWords d = .ok (ofDuration d) := by
  have hnonneg := d.nanoseconds_nonneg
  obtain ⟨n, hcounted, hn⟩ := d.counted_ok
  have hdiv : n.div 100 = .ok (n.quot 100) := Word.div_eq_quot (by decide)
  have hquot : (n.quot 100).val = d.nanoseconds / 100 := by
    rw [← hn] at hnonneg ⊢
    exact Int.tdiv_eq_ediv_of_nonneg hnonneg
  rw [ofDurationInWords, hcounted, Fault.ok_bind, hdiv, Fault.ok_bind, hquot]
  refine congrArg Except.ok (Word.getD_ofInt? fun hout => Word.ext ?_)
  have hlong : ¬ d.nanoseconds / 100 ≤ 9223372036854775807 := by
    intro hle
    exact hout ⟨Int.le_trans Width.signed64.lo_nonpos (by omega), hle⟩
  rw [Word.val_saturate_signed64]
  change 9223372036854775807 = _
  omega

theorem toDurationInWords_eq (t : Ticks) : toDurationInWords t = .ok (toDuration t) := by
  have hword : (Word.ofInt? t.val : Option Unsigned64).getD 0 = Word.saturate t.val := by
    refine Word.getD_ofInt? fun hout => Word.ext ?_
    have hneg : ¬ 0 ≤ t.val := by
      intro hle
      exact hout ⟨hle, Int.le_trans t.le_hi (by decide)⟩
    rw [Word.val_zero, Word.val_saturate_unsigned64]
    omega
  rw [toDurationInWords, hword, Duration.ofWord_eq]
  rfl

theorem val_ofDuration (d : Duration) : (ofDuration d).val = min (d.nanoseconds / 100) 9223372036854775807 := by
  have hnonneg := d.nanoseconds_nonneg
  rw [ofDuration, Word.val_saturate_signed64]
  omega

theorem nanoseconds_toDuration (t : Ticks) :
    (toDuration t).nanoseconds = min (max t.val 0 * 100) 18446744073709551615 := by
  have hrange := Word.signed64_range t
  have hhundred : (100 : Unsigned64).val = 100 := rfl
  have hword : (((Word.saturate t.val : Unsigned64).satMul 100).toNat : Int) =
      min (max t.val 0 * 100) 18446744073709551615 := by
    rw [Word.toNat, Int.toNat_of_nonneg (Word.lo_le _), Word.satMul, hhundred, Word.val_saturate_unsigned64,
      Word.val_saturate_unsigned64]
    omega
  rw [toDuration, Duration.nanoseconds_ofNanoseconds (by omega), hword]

theorem ofDuration_mono {d e : Duration} (h : d ≤ e) : ofDuration d ≤ ofDuration e := by
  rw [Duration.le_iff] at h
  rw [Word.le_iff, val_ofDuration, val_ofDuration]
  omega

/-! ### There and back -/

theorem val_ofDuration_toDuration (t : Ticks) : (ofDuration (toDuration t)).val = min (max t.val 0) exactLimit := by
  rw [val_ofDuration, nanoseconds_toDuration, exactLimit]
  omega

/-- Of the durations of whole ticks that are no longer than `d`, the way there and back leads to the longest. -/
theorem isGreatest_toDuration_ofDuration {d : Duration} (h : (ofDuration d).val ≤ exactLimit) :
    IsGreatest {e : Duration | e ≤ d ∧ 100 ∣ e.nanoseconds} (toDuration (ofDuration d)) := by
  have hnonneg := d.nanoseconds_nonneg
  have hback : (toDuration (ofDuration d)).nanoseconds = d.nanoseconds / 100 * 100 := by
    rw [val_ofDuration, exactLimit] at h
    rw [nanoseconds_toDuration, val_ofDuration]
    omega
  constructor
  · change toDuration (ofDuration d) ≤ d ∧ 100 ∣ (toDuration (ofDuration d)).nanoseconds
    rw [Duration.le_iff, hback]
    omega
  · rintro e ⟨hle, hwhole⟩
    rw [Duration.le_iff] at hle ⊢
    rw [hback]
    omega

theorem toDuration_of_exactLimit_lt {t : Ticks} (h : exactLimit < t.val) :
    toDuration t = ⟨18446744073, 709551615⟩ := by
  apply Duration.eq_of_nanoseconds
  have hlongest : (⟨18446744073, 709551615⟩ : Duration).nanoseconds = 18446744073709551615 := rfl
  rw [exactLimit] at h
  rw [nanoseconds_toDuration, hlongest]
  omega

/-- **Conversions**: no step of the conversions in machine words is a fault. A span comes back as it was, but as zero if
it is negative and as the exact limit if it is longer than that. A duration becomes the whole ticks that it lasts, up to
the longest span, and a longer duration becomes no shorter span. It comes back rounded down, as the longest duration of
whole ticks that is no longer, or as `2^64 - 1` nanoseconds if its ticks are beyond the exact limit. -/
theorem conversions_agree :
    (∀ t : Ticks, toDurationInWords t = .ok (toDuration t) ∧
      (ofDuration (toDuration t)).val = min (max t.val 0) exactLimit) ∧
    (∀ d : Duration, ofDurationInWords d = .ok (ofDuration d) ∧
      (ofDuration d).val = min (d.nanoseconds / 100) 9223372036854775807 ∧
      ((ofDuration d).val ≤ exactLimit →
        IsGreatest {e : Duration | e ≤ d ∧ 100 ∣ e.nanoseconds} (toDuration (ofDuration d))) ∧
      (exactLimit < (ofDuration d).val → toDuration (ofDuration d) = ⟨18446744073, 709551615⟩)) ∧
    (∀ d e : Duration, d ≤ e → ofDuration d ≤ ofDuration e) := by
  refine ⟨?_, ?_, ?_⟩
  · intro t
    exact ⟨toDurationInWords_eq t, val_ofDuration_toDuration t⟩
  · intro d
    exact ⟨ofDurationInWords_eq d, val_ofDuration d, isGreatest_toDuration_ofDuration, toDuration_of_exactLimit_lt⟩
  · intro d e hle
    exact ofDuration_mono hle

/-- On either side of the exact limit: the last duration that comes back rounded down, and the first that does not. -/
theorem conversions_agree_limit :
    let d : Duration := ⟨18446744073, 709551699⟩
    let e : Duration := ⟨18446744073, 709551700⟩
    IsGreatest {f : Duration | f ≤ d ∧ 100 ∣ f.nanoseconds} ⟨18446744073, 709551600⟩ ∧
      toDuration (ofDuration e) = ⟨18446744073, 709551615⟩ ∧ d ≤ e ∧ ofDuration d ≤ ofDuration e := by
  intro d e
  have hwithin : (ofDuration d).val ≤ exactLimit := by decide
  have hbeyond : exactLimit < (ofDuration e).val := by decide
  have hle : d ≤ e := .inr ⟨rfl, by decide⟩
  have hback : toDuration (ofDuration d) = ⟨18446744073, 709551600⟩ := by decide
  have hrounded := (conversions_agree.2.1 d).2.2.1 hwithin
  rw [hback] at hrounded
  exact ⟨hrounded, (conversions_agree.2.1 e).2.2.2 hbeyond, hle, conversions_agree.2.2 d e hle⟩

end Ticks

end FramePacing
