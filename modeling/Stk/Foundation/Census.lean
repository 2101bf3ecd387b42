import Mathlib.Algebra.BigOperators.Group.Finset.Piecewise
import Mathlib.Data.Fintype.Basic

/-!
# Census

How many of the parties `ι` are in a phase that `p` counts, and how a change of phase of one party moves the
number.
-/

set_option autoImplicit false

variable {ι φ : Type} [Fintype ι]

/-- The number of the parties that `p` counts. -/
def census (p : φ → Bool) (f : ι → φ) : ℕ := (Finset.univ.filter fun i => p (f i) = true).card

namespace Census

variable {p : φ → Bool} {f : ι → φ} {i : ι}

theorem eq_zero (h : ∀ i, p (f i) = false) : census p f = 0 := by
  unfold census
  rw [Finset.card_eq_zero, Finset.filter_eq_empty_iff]
  intro i _
  rw [h i]
  exact Bool.false_ne_true

theorem pos (h : p (f i) = true) : 0 < census p f :=
  Finset.card_pos.mpr ⟨i, Finset.mem_filter.mpr ⟨Finset.mem_univ i, h⟩⟩

variable [DecidableEq ι]

/-- **A move**: one party changes its phase. -/
theorem move (p : φ → Bool) (f : ι → φ) (i : ι) (x : φ) :
    census p (Function.update f i x) + (p (f i)).toNat = census p f + (p x).toNat := by
  have hsum : ∀ g : ι → φ, census p g = ∑ j, (p (g j)).toNat := by
    intro g
    unfold census
    rw [Finset.card_filter]
    apply Finset.sum_congr rfl
    intro j _
    cases p (g j) <;> rfl
  have hrest : ∑ j ∈ Finset.univ.erase i, (p (Function.update f i x j)).toNat =
      ∑ j ∈ Finset.univ.erase i, (p (f j)).toNat := by
    apply Finset.sum_congr rfl
    intro j hj
    rw [Function.update_of_ne (Finset.ne_of_mem_erase hj)]
  have hnew := Finset.add_sum_erase Finset.univ (fun j => (p (Function.update f i x j)).toNat) (Finset.mem_univ i)
  have hold := Finset.add_sum_erase Finset.univ (fun j => (p (f j)).toNat) (Finset.mem_univ i)
  rw [hsum, hsum, ← hnew, ← hold, hrest, Function.update_self]
  omega

end Census
