import Mathlib.Order.Bounds.Basic
import Mathlib.Order.Iterate
import Mathlib.Data.Fintype.Pigeonhole

/-!
# Search for a fixed point below a bound

`search f bound` applies `f` again and again, until a value is fixed or above the bound.  Of a monotone `f`
that does not decrease the start, the search finds the least fixed point if it is at most the bound; of any
`f` on a finite type, it ends if and only if it does not come back to a value that moves.
-/

set_option autoImplicit false

namespace FixedPointSearch

open Function

variable {α β : Type} {n : ℕ}

section Search

variable [LE α] [DecidableLE α] [DecidableEq α] {f : α → α} {bound x y : α}

/-- The value that ends the search, if one of the first `n` applications does. -/
def search (f : α → α) (bound : α) : ℕ → α → Option α
  | 0, _ => none
  | n + 1, x => if f x ≠ x ∧ f x ≤ bound then search f bound n (f x) else some (f x)

/-- The search goes on from `x`. -/
def GoesOn (f : α → α) (bound x : α) : Prop := f x ≠ x ∧ f x ≤ bound

theorem search_succ_of_goesOn (h : GoesOn f bound x) : search f bound (n + 1) x = search f bound n (f x) :=
  if_pos h

theorem search_succ_of_stops (h : ¬GoesOn f bound x) : search f bound (n + 1) x = some (f x) :=
  if_neg h

/-- What ends the search is an iterate, and the first that does. -/
theorem search_eq_some (h : search f bound n x = some y) :
    ∃ k < n, y = f (f^[k] x) ∧ ¬GoesOn f bound (f^[k] x) ∧ ∀ j < k, GoesOn f bound (f^[j] x) := by
  induction n generalizing x with
  | zero => exact nomatch h
  | succ n ih =>
    by_cases hgo : GoesOn f bound x
    · rw [search_succ_of_goesOn hgo] at h
      obtain ⟨k, hk, hy, hstop, hbefore⟩ := ih h
      refine ⟨k + 1, Nat.succ_lt_succ hk, hy, hstop, ?_⟩
      intro j hj
      cases j with
      | zero => exact hgo
      | succ j => exact hbefore j (Nat.lt_of_succ_lt_succ hj)
    · rw [search_succ_of_stops hgo] at h
      refine ⟨0, Nat.succ_pos n, (Option.some.inj h).symm, hgo, ?_⟩
      intro j hj
      exact absurd hj (Nat.not_lt_zero j)

theorem search_of_stops {k : ℕ} (hstop : ¬GoesOn f bound (f^[k] x)) :
    ∃ y, search f bound (k + 1) x = some y := by
  induction k generalizing x with
  | zero => exact ⟨f x, search_succ_of_stops hstop⟩
  | succ k ih =>
    by_cases hgo : GoesOn f bound x
    · rw [search_succ_of_goesOn hgo]
      exact ih hstop
    · exact ⟨f x, search_succ_of_stops hgo⟩

/-- A search that has ended takes no notice of more steps. -/
theorem search_mono {m : ℕ} (hnm : n ≤ m) (h : search f bound n x = some y) : search f bound m x = some y := by
  induction n generalizing x m with
  | zero => exact nomatch h
  | succ n ih =>
    obtain ⟨m, rfl⟩ := Nat.exists_eq_add_of_lt hnm
    by_cases hgo : GoesOn f bound x
    · rw [search_succ_of_goesOn hgo] at h ⊢
      exact ih (by omega) h
    · rw [search_succ_of_stops hgo] at h ⊢
      exact h

/-- The search ends. -/
def Ends (f : α → α) (bound x : α) : Prop := ∃ n y, search f bound n x = some y

theorem ends_iff : Ends f bound x ↔ ∃ k, ¬GoesOn f bound (f^[k] x) := by
  constructor
  · rintro ⟨n, y, h⟩
    obtain ⟨k, -, -, hstop, -⟩ := search_eq_some h
    exact ⟨k, hstop⟩
  · rintro ⟨k, hstop⟩
    obtain ⟨y, h⟩ := search_of_stops hstop
    exact ⟨k + 1, y, h⟩

/-! ## Monotone functions -/

end Search

section Monotone

variable [LinearOrder α] {f : α → α} {bound x y : α} (hf : Monotone f) (hx : x ≤ f x)
include hf

theorem iterate_le_fixed {z : α} (hz : f z = z) (hxz : x ≤ z) (k : ℕ) : f^[k] x ≤ z := by
  induction k with
  | zero => exact hxz
  | succ k ih =>
    rw [iterate_succ_apply']
    exact (hf ih).trans_eq hz

include hx in
/-- The search ends with the least fixed point or above the bound. -/
theorem search_spec (h : search f bound n x = some y) :
    if y ≤ bound then IsLeast {z | x ≤ z ∧ f z = z} y else ∀ z, x ≤ z → f z = z → bound < z := by
  obtain ⟨k, -, rfl, hstop, -⟩ := search_eq_some h
  have hbelow : ∀ z, x ≤ z → f z = z → f (f^[k] x) ≤ z := by
    intro z hxz hz
    have hle := iterate_le_fixed hf hz hxz (k + 1)
    rwa [iterate_succ_apply'] at hle
  split
  · next hle =>
    have hfixed : f (f^[k] x) = f^[k] x := by
      by_contra hne
      exact hstop ⟨hne, hle⟩
    refine ⟨⟨?_, ?_⟩, ?_⟩
    · have hstart := hf.monotone_iterate_of_le_map hx (Nat.zero_le k)
      rw [hfixed]
      exact hstart
    · rw [hfixed, hfixed]
    · intro z hz
      exact hbelow z hz.1 hz.2
  · next hgt =>
    intro z hxz hz
    exact (not_le.mp hgt).trans_le (hbelow z hxz hz)

end Monotone

/-- While the search of a monotone function on the naturals goes on, it gains at least one in each step. -/
theorem ends_of_monotone {f : ℕ → ℕ} {bound x : ℕ} (hf : Monotone f) (hx : x ≤ f x) : Ends f bound x := by
  apply ends_iff.mpr
  by_contra hnever
  have hgoes : ∀ k, GoesOn f bound (f^[k] x) := by
    intro k
    by_contra hstop
    exact hnever ⟨k, hstop⟩
  have hgain : ∀ k, k ≤ f^[k] x := by
    intro k
    induction k with
    | zero => exact Nat.zero_le _
    | succ k ih =>
      have hle := hf.monotone_iterate_of_le_map hx (Nat.le_succ k)
      have hne := (hgoes k).1
      dsimp only at hle
      rw [iterate_succ_apply'] at hle ⊢
      omega
  have hlast := (hgoes (bound + 1)).2
  have hover := hgain (bound + 2)
  rw [iterate_succ_apply'] at hover
  omega

/-! ## Finite types -/

section Finite

variable [LE α] [DecidableLE α] [DecidableEq α] {f : α → α} {bound x : α}

/-- Some value moves and is met again, and all the iterates up to there are at most the bound. -/
def ComesBack (f : α → α) (bound x : α) : Prop :=
  ∃ j p, 0 < p ∧ f^[j + p] x = f^[j] x ∧ f (f^[j] x) ≠ f^[j] x ∧ ∀ k < j + p, f (f^[k] x) ≤ bound

omit [DecidableLE α] [DecidableEq α] in
/-- A search that comes back goes round for ever. -/
theorem ComesBack.goesOn (h : ComesBack f bound x) (k : ℕ) : GoesOn f bound (f^[k] x) := by
  obtain ⟨j, p, hp, hback, hmoves, hle⟩ := h
  have hcycle : ∀ m, f^[j + m] x = f^[j + m % p] x := by
    intro m
    induction m using Nat.strong_induction_on with
    | _ m ih =>
      by_cases hm : m < p
      · rw [Nat.mod_eq_of_lt hm]
      · have hsplit : j + m = (m - p) + (j + p) := by omega
        rw [hsplit, iterate_add_apply, hback, ← iterate_add_apply, Nat.add_comm (m - p) j, ih (m - p) (by omega),
          ← Nat.mod_eq_sub_mod (not_lt.mp hm)]
  constructor
  · intro hfixed
    -- a fixed value is never left, and the value that moves is met again after it
    have hlate : k ≤ j + p * (k + 1) := by
      have := Nat.le_mul_of_pos_left (k + 1) hp
      omega
    have hstays : f^[j + p * (k + 1)] x = f^[k] x := by
      obtain ⟨m, hm⟩ := Nat.exists_eq_add_of_le' hlate
      rw [hm, iterate_add_apply]
      exact iterate_fixed hfixed m
    rw [hcycle, Nat.mul_mod_right, Nat.add_zero] at hstays
    apply hmoves
    rw [hstays, hfixed]
  · by_cases hk : k < j + p
    · exact hle k hk
    · have hsplit : k = j + (k - j) := by omega
      rw [hsplit, hcycle]
      apply hle
      have hmod := Nat.mod_lt (k - j) hp
      omega

/-- On a finite type the search ends if and only if it does not come back. -/
theorem ends_iff_not_comesBack [Finite α] : Ends f bound x ↔ ¬ComesBack f bound x := by
  rw [ends_iff]
  constructor
  · rintro ⟨k, hstop⟩ hback
    exact hstop (hback.goesOn k)
  · intro hnever
    by_contra hends
    apply hnever
    have hgoes : ∀ k, GoesOn f bound (f^[k] x) := by
      intro k
      by_contra hstop
      exact hends ⟨k, hstop⟩
    obtain ⟨a, b, hne, heq⟩ := Finite.exists_ne_map_eq_of_infinite fun k => f^[k] x
    have hends' : ∀ c d, c < d → f^[c] x = f^[d] x → ComesBack f bound x := by
      intro c d hcd hsame
      refine ⟨c, d - c, by omega, ?_, (hgoes c).1, fun k _ => (hgoes k).2⟩
      rw [Nat.add_sub_cancel' hcd.le]
      exact hsame.symm
    rcases Nat.lt_or_gt_of_ne hne with hlt | hgt
    · exact hends' a b hlt heq
    · exact hends' b a hgt heq.symm

end Finite

/-! ## Two functions that agree -/

/-- The search through a representation: as long as `g` represents `f` on what the search meets, it finds what
the search of `f` finds. -/
theorem search_map [LE α] [DecidableLE α] [DecidableEq α] [LE β] [DecidableLE β] [DecidableEq β] {f : α → α}
    {e : β → α} (hinj : Function.Injective e) (hle : ∀ a b, e a ≤ e b ↔ a ≤ b) {g : β → β} {limit start : β}
    (hagree : ∀ k, (∀ j < k, GoesOn f (e limit) (f^[j] (e start))) → ∀ z, e z = f^[k] (e start) →
      e (g z) = f (e z)) :
    (search g limit n start).map e = search f (e limit) n (e start) := by
  induction n generalizing start with
  | zero => rfl
  | succ n ih =>
    have hfirst : e (g start) = f (e start) := hagree 0 (fun j hj => absurd hj (Nat.not_lt_zero j)) start rfl
    have hsame : GoesOn g limit start ↔ GoesOn f (e limit) (e start) := by
      unfold GoesOn
      rw [← hfirst, hinj.ne_iff, hle]
    by_cases hgo : GoesOn g limit start
    · have hgo' := hsame.mp hgo
      rw [search_succ_of_goesOn hgo, search_succ_of_goesOn hgo', ← hfirst]
      apply ih
      intro k hbefore z hz
      apply hagree (k + 1) ?_ z
      · rw [iterate_succ_apply, ← hfirst]
        exact hz
      · intro j hj
        cases j with
        | zero => exact hgo'
        | succ j =>
          rw [iterate_succ_apply, ← hfirst]
          exact hbefore j (Nat.lt_of_succ_lt_succ hj)
    · have hgo' := mt hsame.mpr hgo
      rw [search_succ_of_stops hgo, search_succ_of_stops hgo', Option.map_some, hfirst]

end FixedPointSearch
