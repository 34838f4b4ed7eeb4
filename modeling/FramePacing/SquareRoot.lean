/-!
# Integer square roots

`floorSqrt n` is the greatest natural number whose square is at most `n`.
-/

namespace FramePacing

/-- The floor of the square root: the root of a quarter, doubled, and one more where that still fits. -/
def floorSqrt (n : Nat) : Nat :=
  if n = 0 then 0
  else
    let half := 2 * floorSqrt (n / 4)
    if (half + 1) * (half + 1) ≤ n then half + 1 else half
termination_by n
decreasing_by omega

theorem floorSqrt_zero : floorSqrt 0 = 0 := by
  rw [floorSqrt]; rfl

theorem floorSqrt_of_pos {n : Nat} (h : n ≠ 0) :
    floorSqrt n =
      if (2 * floorSqrt (n / 4) + 1) * (2 * floorSqrt (n / 4) + 1) ≤ n
      then 2 * floorSqrt (n / 4) + 1 else 2 * floorSqrt (n / 4) := by
  rw [floorSqrt, if_neg h]

/-- The square of the root is at most `n`, and the next square is above it. -/
theorem floorSqrt_between (n : Nat) :
    floorSqrt n * floorSqrt n ≤ n ∧ n < (floorSqrt n + 1) * (floorSqrt n + 1) := by
  induction n using Nat.strongRecOn with
  | _ n ih =>
    by_cases h : n = 0
    · subst h; rw [floorSqrt_zero]; decide
    · obtain ⟨hlo, hhi⟩ := ih (n / 4) (by omega)
      rw [floorSqrt_of_pos h]
      -- with `r` the root of a quarter, `4 r² ≤ n < 4 (r + 1)²`
      generalize floorSqrt (n / 4) = r at hlo hhi ⊢
      have e₁ : (2 * r) * (2 * r) = 4 * (r * r) := by
        rw [Nat.mul_mul_mul_comm]
      have e₂ : (2 * r + 1 + 1) * (2 * r + 1 + 1) = 4 * ((r + 1) * (r + 1)) := by
        rw [show 2 * r + 1 + 1 = 2 * (r + 1) by omega, Nat.mul_mul_mul_comm]
      split
      · next hs => exact ⟨hs, by omega⟩
      · next hs => exact ⟨by omega, by omega⟩

end FramePacing
