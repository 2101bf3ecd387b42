import Mathlib.Algebra.Order.Ring.Int

/-!
# Deadlines on a clock that wraps around

A clock shows the time `x` modulo `N`, as the balanced remainder `x.bmod N`; `x.bdiv N` counts how often it
has wrapped around.  A deadline is kept as the clock will show it, and what is left of it is the difference
of two readings.  That is right as long as the clock does not wrap around before the deadline
(`remaining_before`), and takes the deadline for past if it does (`remaining_across`).
-/

set_option autoImplicit false

namespace WrappedClock

variable {N : ℕ} {now deadline x y : ℤ}

/-- The time left until `deadline`, computed from the readings of the clock. -/
def remaining (N : ℕ) (deadline now : ℤ) : ℤ :=
  if now.bmod N ≥ deadline.bmod N then 0 else (deadline.bmod N - now.bmod N).bmod N

/-- INTERNAL: a reading and the number of times the clock has wrapped around give the time. -/
theorem reading (N : ℕ) (x : ℤ) : x = x.bmod N + N * x.bdiv N := (Int.bmod_add_bdiv x N).symm

theorem reading_bounds (hN : 0 < N) (x : ℤ) : -N ≤ 2 * x.bmod N ∧ 2 * x.bmod N < N := by
  have hlow := Int.le_bmod (x := x) hN
  have hhigh := Int.bmod_lt (x := x) hN
  omega

theorem bdiv_mono (hN : 0 < N) (hle : x ≤ y) : x.bdiv N ≤ y.bdiv N := by
  have hx := reading N x
  have hy := reading N y
  have hxb := reading_bounds hN x
  have hyb := reading_bounds hN y
  by_contra hlt
  have hone : y.bdiv N + 1 ≤ x.bdiv N := by omega
  have hmul : (N : ℤ) * (y.bdiv N + 1) ≤ N * x.bdiv N := mul_le_mul_of_nonneg_left hone (by omega)
  rw [mul_add, mul_one] at hmul
  omega

/-- INTERNAL: less than one round apart, the clock wraps around once at most. -/
theorem bdiv_le_succ (hN : 0 < N) (hle : y ≤ x + N) : y.bdiv N ≤ x.bdiv N + 1 := by
  have hround : (x + N).bdiv N = x.bdiv N + 1 := by
    have hsum := reading N (x + N)
    have hx := reading N x
    have hsame : (x + N).bmod N = x.bmod N := by simp
    rw [hsame] at hsum
    have hmul : (N : ℤ) * (x + N).bdiv N = N * (x.bdiv N + 1) := by
      rw [mul_add, mul_one]
      omega
    exact mul_left_cancel₀ (by omega) hmul
  rw [← hround]
  exact bdiv_mono hN hle

/-- Before the deadline, in the same round of the clock. -/
theorem remaining_before (hround : now.bdiv N = deadline.bdiv N) (hlt : now < deadline)
    (hnear : 2 * (deadline - now) < N) : remaining N deadline now = deadline - now := by
  have hnow := reading N now
  have hdeadline := reading N deadline
  rw [hround] at hnow
  have hdiff : deadline.bmod N - now.bmod N = deadline - now := by omega
  unfold remaining
  rw [if_neg (by omega), hdiff]
  exact Int.bmod_eq_of_le_mul_two (by omega) (by omega)

/-- From the deadline on, for half a round. -/
theorem remaining_after (hN : 0 < N) (hle : deadline ≤ now) (hnear : 2 * (now - deadline) ≤ N) :
    remaining N deadline now ≤ 0 := by
  have hnow := reading N now
  have hdeadline := reading N deadline
  have hlow := bdiv_mono hN hle
  have hhigh : now.bdiv N ≤ deadline.bdiv N + 1 := bdiv_le_succ hN (by omega)
  unfold remaining
  split
  · exact le_rfl
  · rcases Int.lt_or_eq_of_le hlow with hlt | heq
    · -- the clock has wrapped around since the deadline
      have hone : now.bdiv N = deadline.bdiv N + 1 := by omega
      rw [hone, mul_add, mul_one] at hnow
      have hdiff : deadline.bmod N - now.bmod N = deadline - now + N := by omega
      rw [hdiff, Int.add_bmod_right, Int.bmod_eq_of_le_mul_two (by omega) (by omega)]
      omega
    · rw [heq] at hdeadline
      omega

/-- Before the deadline, in an earlier round of the clock. -/
theorem remaining_across (hN : 0 < N) (hround : now.bdiv N < deadline.bdiv N) (hnear : deadline ≤ now + N) :
    remaining N deadline now = 0 := by
  have hnow := reading N now
  have hdeadline := reading N deadline
  have hone : deadline.bdiv N = now.bdiv N + 1 := by
    have hle := bdiv_le_succ hN hnear
    omega
  rw [hone, mul_add, mul_one] at hdeadline
  unfold remaining
  rw [if_pos (by omega)]

/-- Two times of one round have all times between them in it. -/
theorem bdiv_between (hN : 0 < N) {z : ℤ} (hround : x.bdiv N = z.bdiv N) (hxy : x ≤ y) (hyz : y ≤ z) :
    y.bdiv N = z.bdiv N := by
  have hlow := bdiv_mono hN hxy
  have hhigh := bdiv_mono hN hyz
  omega

end WrappedClock
