import Mathlib.Algebra.BigOperators.Group.Finset.Piecewise
import Mathlib.Algebra.Order.BigOperators.Group.Finset
import Mathlib.Tactic.GCongr
import Mathlib.Tactic.Linarith
import Mathlib.Tactic.Positivity
import Mathlib.Tactic.Ring

/-!
# Greedy shares

Members of a finite set have integer balances.  In a round every member earns its weight, and
the member with the largest balance pays what all of them have earned.  The balances of a set of
members therefore go up by no more than the set can earn while the payer is outside it, and not
at all while the payer is inside.

`Round.sum_le` and `Round.le_sum` turn that into bounds on the sums of all subsets, one bound for
each size, which a round keeps.  The bounds on single balances are the case of size one.
-/

set_option autoImplicit false

namespace GreedyShares

variable {α : Type} [DecidableEq α] {w y y' : α → ℤ} {T A : Finset α} {x : α}

/-- One round on the members of `T`, which `x` pays. -/
structure Round (w : α → ℤ) (T : Finset α) (y y' : α → ℤ) (x : α) : Prop where
  mem : x ∈ T
  max : ∀ a ∈ T, y a + w a ≤ y x + w x
  paid : y' x = y x + w x - ∑ a ∈ T, w a
  earned : ∀ a ∈ T, a ≠ x → y' a = y a + w a

namespace Round

omit [DecidableEq α] in
/-- Only the weights of the members matter. -/
theorem congr (h : Round w T y y' x) {w' : α → ℤ} (hw : ∀ a ∈ T, w' a = w a) : Round w' T y y' x where
  mem := h.mem
  max a ha := by
    rw [hw a ha, hw x h.mem]
    exact h.max a ha
  paid := by
    rw [hw x h.mem, Finset.sum_congr rfl hw]
    exact h.paid
  earned a ha hax := by
    rw [hw a ha]
    exact h.earned a ha hax

omit [DecidableEq α] in
/-- The payer is not in the subset. -/
theorem sum_of_notMem (h : Round w T y y' x) (hA : A ⊆ T) (hx : x ∉ A) :
    ∑ a ∈ A, y' a = ∑ a ∈ A, y a + ∑ a ∈ A, w a := by
  rw [← Finset.sum_add_distrib]
  apply Finset.sum_congr rfl
  intro a ha
  apply h.earned a (hA ha)
  rintro rfl
  exact hx ha

/-- The payer is in the subset. -/
theorem sum_of_mem (h : Round w T y y' x) (hA : A ⊆ T) (hx : x ∈ A) :
    ∑ a ∈ A, y' a = ∑ a ∈ A, y a + ∑ a ∈ A, w a - ∑ a ∈ T, w a := by
  have hrest := h.sum_of_notMem ((Finset.erase_subset x A).trans hA) (Finset.notMem_erase x A)
  have hy' := Finset.add_sum_erase A y' hx
  have hy := Finset.add_sum_erase A y hx
  have hw := Finset.add_sum_erase A w hx
  have hpaid := h.paid
  linarith

/-- A round does not change the sum of all balances. -/
theorem sum_eq (h : Round w T y y' x) : ∑ a ∈ T, y' a = ∑ a ∈ T, y a := by
  rw [h.sum_of_mem (Finset.Subset.refl T) h.mem]
  ring

omit [DecidableEq α] in
/-- The payer's balance is at least the average. -/
theorem card_mul_le (h : Round w T y y' x) : ∑ a ∈ T, y a + ∑ a ∈ T, w a ≤ T.card * (y x + w x) := by
  rw [← Finset.sum_add_distrib, ← nsmul_eq_mul]
  exact Finset.sum_le_card_nsmul T (fun a => y a + w a) (y x + w x) h.max

omit [DecidableEq α] in
/-- The payer has more than `c` when the average balance was `c`. -/
theorem lt_payer (h : Round w T y y' x) {c : ℤ} (hsum : ∑ a ∈ T, y a = T.card * c) (hw : 0 < ∑ a ∈ T, w a) :
    c < y x + w x := by
  have hcard := h.card_mul_le
  by_contra hle
  have hmul : (T.card : ℤ) * (y x + w x) ≤ T.card * c := mul_le_mul_of_nonneg_left (not_lt.mp hle) (by positivity)
  linarith

/-- **Bounds from above.**  `f j` bounds the sum of any `j` balances and `e j` what any `j` members
earn. -/
theorem sum_le (h : Round w T y y' x) {f e : ℕ → ℤ} (hw : ∀ a ∈ T, 0 ≤ w a)
    (he : ∀ A ⊆ T, ∑ a ∈ A, w a ≤ e A.card) (hf : ∀ A ⊆ T, ∑ a ∈ A, y a ≤ f A.card)
    (hstep : ∀ j < T.card, j * (f (j + 1) + e (j + 1)) ≤ (j + 1) * f j) (hA : A ⊆ T) :
    ∑ a ∈ A, y' a ≤ f A.card := by
  by_cases hx : x ∈ A
  · have hsum := h.sum_of_mem hA hx
    have hearn : ∑ a ∈ A, w a ≤ ∑ a ∈ T, w a := by
      apply Finset.sum_le_sum_of_subset_of_nonneg hA
      exact fun a ha _ => hw a ha
    have hbound := hf A hA
    linarith
  · -- the payer has more than the average of `A`, so `A` has no more than its part of `insert x A`
    have hB : insert x A ⊆ T := Finset.insert_subset h.mem hA
    have hcard : (insert x A).card = A.card + 1 := Finset.card_insert_of_notMem hx
    have hlt : A.card < T.card := by
      have hle := Finset.card_le_card hB
      omega
    have hbound := hf _ hB
    have hearn := he _ hB
    rw [hcard, Finset.sum_insert hx] at hbound hearn
    have hmax : ∑ a ∈ A, (y a + w a) ≤ A.card * (y x + w x) := by
      rw [← nsmul_eq_mul]
      exact Finset.sum_le_card_nsmul A _ _ (fun a ha => h.max a (hA ha))
    have hsum : ∑ a ∈ A, y' a = ∑ a ∈ A, (y a + w a) := by
      rw [h.sum_of_notMem hA hx, Finset.sum_add_distrib]
    rw [Finset.sum_add_distrib] at hmax hsum
    have hj := hstep A.card hlt
    have hpart : ((A.card : ℤ) + 1) * ∑ a ∈ A, y' a ≤ (A.card + 1) * f A.card := by
      calc ((A.card : ℤ) + 1) * ∑ a ∈ A, y' a
          = A.card * ∑ a ∈ A, y' a + ∑ a ∈ A, y' a := by ring
        _ ≤ A.card * ∑ a ∈ A, y' a + A.card * (y x + w x) := by linarith
        _ = A.card * ((y x + ∑ a ∈ A, y a) + (w x + ∑ a ∈ A, w a)) := by rw [hsum]; ring
        _ ≤ A.card * (f (A.card + 1) + e (A.card + 1)) := by gcongr
        _ ≤ (A.card + 1) * f A.card := hj
    exact le_of_mul_le_mul_left hpart (by positivity)

/-- **Bounds from below.**  `-f j` bounds the sum of any `j` balances. -/
theorem le_sum (h : Round w T y y' x) {f : ℕ → ℤ} (hw : ∀ a ∈ T, 0 ≤ w a)
    (hf : ∀ A ⊆ T, -f A.card ≤ ∑ a ∈ A, y a)
    (hstep : ∀ j, j + 1 < T.card → f (j + 2) + f j + ∑ a ∈ T, w a ≤ 2 * f (j + 1)) (hA : A ⊆ T) :
    -f A.card ≤ ∑ a ∈ A, y' a := by
  have hnonneg : ∀ B ⊆ T, 0 ≤ ∑ a ∈ B, w a := fun B hB => Finset.sum_nonneg (fun a ha => hw a (hB ha))
  -- from the whole set down to smaller ones
  obtain ⟨d, hd⟩ : ∃ d, T.card = A.card + d := ⟨T.card - A.card, by have := Finset.card_le_card hA; omega⟩
  induction d generalizing A with
  | zero =>
    have hall : A = T := Finset.eq_of_subset_of_card_le hA (by omega)
    rw [hall, h.sum_eq]
    exact hf T (Finset.Subset.refl T)
  | succ d ih =>
    by_cases hx : x ∈ A
    · have hne : A ≠ T := by
        rintro rfl
        omega
      obtain ⟨z, hzT, hzA⟩ := Finset.exists_of_ssubset (Finset.ssubset_iff_subset_ne.mpr ⟨hA, hne⟩)
      have hzx : z ≠ x := by
        rintro rfl
        exact hzA hx
      have hcard : (insert z A).card = A.card + 1 := Finset.card_insert_of_notMem hzA
      -- `z` has earned no more than the payer, and the sum with `z` is bounded already
      have hmore := ih (Finset.insert_subset hzT hA) (by omega)
      rw [hcard, Finset.sum_insert hzA, h.earned z hzT hzx] at hmore
      have hmax := h.max z hzT
      have herase := (Finset.erase_subset x A).trans hA
      have hless := hf (A.erase x) herase
      have hearn := hnonneg (A.erase x) herase
      rw [Finset.card_erase_of_mem hx] at hless
      obtain ⟨j, hj⟩ : ∃ j, A.card = j + 1 := Nat.exists_eq_succ_of_ne_zero (Finset.card_ne_zero_of_mem hx)
      have hcurve := hstep j (by omega)
      rw [hj] at hmore hless ⊢
      rw [Nat.add_sub_cancel] at hless
      have hy := Finset.add_sum_erase A y hx
      have hwsum := Finset.add_sum_erase A w hx
      have hsum := h.sum_of_mem hA hx
      linarith
    · rw [h.sum_of_notMem hA hx]
      have hbound := hf A hA
      have hearn := hnonneg A hA
      linarith

end Round

/-- Rounds on the members of `T` from the balances `y` to `y'`, with the payers in order. -/
inductive Rounds (w : α → ℤ) (T : Finset α) : (α → ℤ) → List α → (α → ℤ) → Prop
  | nil (y : α → ℤ) : Rounds w T y [] y
  | cons {y y' y'' : α → ℤ} {x : α} {xs : List α} (h : Round w T y y' x) (hs : Rounds w T y' xs y'') :
    Rounds w T y (x :: xs) y''

namespace Rounds

variable {xs : List α}

/-- The balance of a member: what it has earned less what it has paid. -/
theorem balance (h : Rounds w T y xs y') {a : α} (ha : a ∈ T) :
    y' a = y a + xs.length * w a - xs.count a * ∑ b ∈ T, w b := by
  induction h with
  | nil y => simp
  | @cons y y' y'' x xs hround _ ih =>
    rw [ih, List.length_cons, List.count_cons]
    by_cases hax : a = x
    · subst hax
      rw [hround.paid]
      simp only [beq_self_eq_true, if_true]
      push_cast
      ring
    · rw [hround.earned a ha hax]
      have hxa : (x == a) = false := by simpa using fun heq => hax heq.symm
      rw [hxa]
      push_cast
      ring

/-- A member that is `d` rounds' advantage short of another one, which does not pay, does not pay
either. -/
theorem count_eq_zero (h : Rounds w T y xs y') {a b : α} (ha : a ∈ T) (hb : b ∈ T) (hxs : a ∉ xs)
    (hw : w a ≤ w b) (hshort : y b + xs.length * (w b - w a) < y a) : xs.count b = 0 := by
  induction h with
  | nil y => rfl
  | @cons y y' y'' x xs hround hs ih =>
    obtain ⟨hax, hrest⟩ := not_or.mp (fun hor => hxs (List.mem_cons.mpr hor))
    have hnonneg : 0 ≤ (xs.length : ℤ) * (w b - w a) := mul_nonneg (by positivity) (by linarith)
    rw [List.length_cons] at hshort
    push_cast at hshort
    have hbx : b ≠ x := by
      rintro rfl
      have hmax := hround.max a ha
      linarith
    rw [List.count_cons_of_ne hbx.symm]
    apply ih hrest
    rw [hround.earned b hb hbx, hround.earned a ha hax]
    linarith

/-- A member pays at most once while another one does not pay and the advantage in weight is not
worth a payment. -/
theorem count_le_one (h : Rounds w T y xs y') {a b : α} (ha : a ∈ T) (hb : b ∈ T) (hxs : a ∉ xs)
    (hw : w a ≤ w b) (hshort : y b + xs.length * (w b - w a) < y a + ∑ d ∈ T, w d) : xs.count b ≤ 1 := by
  induction h with
  | nil y => simp
  | @cons y y' y'' x xs hround hs ih =>
    obtain ⟨hax, hrest⟩ := not_or.mp (fun hor => hxs (List.mem_cons.mpr hor))
    rw [List.length_cons] at hshort
    push_cast at hshort
    by_cases hbx : b = x
    · subst hbx
      rw [List.count_cons_self, hs.count_eq_zero ha hb hrest hw]
      rw [hround.paid, hround.earned a ha hax]
      linarith
    · rw [List.count_cons_of_ne (Ne.symm hbx)]
      apply ih hrest
      rw [hround.earned b hb hbx, hround.earned a ha hax]
      linarith

/-- Every round is paid by a member. -/
theorem sum_count (h : Rounds w T y xs y') : ∑ a ∈ T, xs.count a = xs.length := by
  induction h with
  | nil => simp
  | @cons y y' y'' x xs hround _ ih =>
    simp only [List.count_cons, List.length_cons, Finset.sum_add_distrib, ih, beq_iff_eq]
    rw [Finset.sum_ite_eq T x, if_pos hround.mem]

omit [DecidableEq α] in
/-- Rounds keep what each round keeps. -/
theorem keeps {P : (α → ℤ) → Prop} (hstep : ∀ y y' x, P y → Round w T y y' x → P y')
    (h : Rounds w T y xs y') (hy : P y) : P y' := by
  induction h with
  | nil => exact hy
  | cons hround _ ih => exact ih (hstep _ _ _ hy hround)

/-! ## Rounds from equal balances -/

section Equal

variable {c : ℤ}

theorem sum_eq (h : Rounds w T y xs y') (hc : ∀ a ∈ T, y a = c) : ∑ a ∈ T, y' a = T.card * c := by
  apply h.keeps (P := fun z => ∑ a ∈ T, z a = T.card * c)
  · intro z z' x hz hround
    rw [hround.sum_eq]
    exact hz
  · rw [Finset.sum_congr rfl hc, Finset.sum_const, nsmul_eq_mul]

/-- No balance falls by the sum of all weights. -/
theorem lt_balance (h : Rounds w T y xs y') (hc : ∀ a ∈ T, y a = c) (hw : ∀ a ∈ T, 0 < w a) {a : α} (ha : a ∈ T) :
    c - ∑ b ∈ T, w b < y' a := by
  have hpos : 0 < ∑ b ∈ T, w b := Finset.sum_pos hw ⟨a, ha⟩
  have hkept : ∑ b ∈ T, y' b = T.card * c ∧ ∀ b ∈ T, c - ∑ b ∈ T, w b < y' b := by
    apply h.keeps (P := fun z => ∑ b ∈ T, z b = T.card * c ∧ ∀ b ∈ T, c - ∑ b ∈ T, w b < z b)
    · rintro z z' x ⟨hsum, hlow⟩ hround
      refine ⟨hround.sum_eq.trans hsum, ?_⟩
      intro b hb
      by_cases hbx : b = x
      · subst hbx
        have hpayer := hround.lt_payer hsum hpos
        rw [hround.paid]
        linarith
      · rw [hround.earned b hb hbx]
        have hbefore := hlow b hb
        have hearn := hw b hb
        linarith
    · refine ⟨?_, ?_⟩
      · rw [Finset.sum_congr rfl hc, Finset.sum_const, nsmul_eq_mul]
      · intro b hb
        rw [hc b hb]
        linarith
  exact hkept.2 a ha

/-- No balance gets further ahead than all other members can fall behind. -/
theorem balance_le (h : Rounds w T y xs y') (hc : ∀ a ∈ T, y a = c) (hw : ∀ a ∈ T, 0 < w a) {a : α} (ha : a ∈ T) :
    y' a - c < T.card * ∑ b ∈ T, w b := by
  have hpos : 0 < ∑ b ∈ T, w b := Finset.sum_pos hw ⟨a, ha⟩
  have hsum := h.sum_eq hc
  rw [← Finset.add_sum_erase T y' ha] at hsum
  have hcard : ((T.erase a).card : ℤ) = T.card - 1 := by
    rw [Finset.card_erase_of_mem ha]
    have := Finset.card_pos.mpr ⟨a, ha⟩
    omega
  have hrest : ((T.erase a).card : ℤ) * (c - ∑ b ∈ T, w b) ≤ ∑ b ∈ T.erase a, y' b := by
    rw [← nsmul_eq_mul]
    apply Finset.card_nsmul_le_sum
    intro b hb
    exact (h.lt_balance hc hw (Finset.mem_of_mem_erase hb)).le
  rw [hcard] at hrest
  linarith

/-- **Shares are exact** after as many rounds as a multiple of the sum of the weights. -/
theorem count_eq (h : Rounds w T y xs y') (hc : ∀ a ∈ T, y a = c) (hw : ∀ a ∈ T, 0 < w a) {q : ℕ}
    (hlength : (xs.length : ℤ) = q * ∑ b ∈ T, w b) {a : α} (ha : a ∈ T) :
    (xs.count a : ℤ) = q * w a ∧ y' a = c := by
  have hpos : 0 < ∑ b ∈ T, w b := Finset.sum_pos hw ⟨a, ha⟩
  have hbalance : ∀ b ∈ T, y' b - c = (∑ d ∈ T, w d) * (q * w b - xs.count b) := by
    intro b hb
    rw [h.balance hb, hc b hb, hlength]
    ring
  -- a balance that is a multiple of the sum and has not fallen by it has not fallen
  have hnonneg : ∀ b ∈ T, 0 ≤ y' b - c := by
    intro b hb
    have hlow := h.lt_balance hc hw hb
    rw [hbalance b hb]
    apply mul_nonneg hpos.le
    by_contra hneg
    have hle : q * w b - xs.count b ≤ -1 := by linarith [Int.add_one_le_iff.mpr (not_le.mp hneg)]
    have hmul := mul_le_mul_of_nonneg_left hle hpos.le
    have heq := hbalance b hb
    linarith
  have hzero : ∑ b ∈ T, (y' b - c) = 0 := by
    rw [Finset.sum_sub_distrib, h.sum_eq hc, Finset.sum_const, nsmul_eq_mul, sub_self]
  have hself : y' a - c = 0 := (Finset.sum_eq_zero_iff_of_nonneg hnonneg).mp hzero a ha
  refine ⟨?_, by linarith⟩
  rw [hbalance a ha, mul_eq_zero] at hself
  rcases hself with hself | hself
  · exact absurd hself hpos.ne'
  · linarith

/-- No balance gets further ahead than `M` for each other member, where `M` bounds the weights. -/
theorem balance_le_mul (h : Rounds w T y xs y') (hc : ∀ a ∈ T, y a = c) {M : ℤ}
    (hw : ∀ a ∈ T, 0 ≤ w a ∧ w a ≤ M) {a : α} (ha : a ∈ T) : y' a ≤ c + (T.card - 1) * M := by
  have hM : 0 ≤ M := (hw a ha).1.trans (hw a ha).2
  have hkept : ∀ A ⊆ T, ∑ b ∈ A, y' b ≤ A.card * (c + (T.card - A.card) * M) := by
    apply h.keeps (P := fun z => ∀ A ⊆ T, ∑ b ∈ A, z b ≤ A.card * (c + (T.card - A.card) * M))
    · intro z z' x hz hround A hA
      apply hround.sum_le (f := fun j => j * (c + (T.card - j) * M)) (e := fun j => j * M)
      · exact fun b hb => (hw b hb).1
      · intro B hB
        rw [← nsmul_eq_mul]
        exact Finset.sum_le_card_nsmul B w M (fun b hb => (hw b (hB hb)).2)
      · exact hz
      · intro j _
        apply le_of_eq
        push_cast
        ring
      · exact hA
    · intro A hA
      rw [Finset.sum_congr rfl (fun b hb => hc b (hA hb)), Finset.sum_const, nsmul_eq_mul]
      have hle : (A.card : ℤ) ≤ T.card := by exact_mod_cast Finset.card_le_card hA
      have hextra : 0 ≤ (A.card : ℤ) * ((T.card - A.card) * M) :=
        mul_nonneg (by positivity) (mul_nonneg (by linarith) hM)
      linarith
  have hone := hkept {a} (Finset.singleton_subset_iff.mpr ha)
  simpa using hone

end Equal

end Rounds

/-! ## Members that come and go -/

/-- The balances of any `j` members of `T` add up to no more than `B * j * (2 * N - j)`, in either
direction. -/
def Spread (B : ℤ) (N : ℕ) (T : Finset α) (y : α → ℤ) : Prop :=
  ∀ A ⊆ T, |∑ a ∈ A, y a| ≤ B * (A.card * (2 * N - A.card))

namespace Spread

variable {B : ℤ} {N : ℕ}

omit [DecidableEq α] in
theorem subset (h : Spread B N T y) {T' : Finset α} (hT : T' ⊆ T) : Spread B N T' y :=
  fun A hA => h A (hA.trans hT)

omit [DecidableEq α] in
theorem congr (h : Spread B N T y) (hy : ∀ a ∈ T, y' a = y a) : Spread B N T y' := by
  intro A hA
  rw [Finset.sum_congr rfl (fun a ha => hy a (hA ha))]
  exact h A hA

/-- A member joins with a balance of at most `B`. -/
theorem insert (h : Spread B N T y) (hx : |y x| ≤ B) (hcard : T.card + 1 ≤ N) :
    Spread B N (Insert.insert x T) y := by
  have hB : 0 ≤ B := (abs_nonneg _).trans hx
  intro A hA
  by_cases hmem : x ∈ A
  · have hsub : A.erase x ⊆ T := by
      intro a ha
      obtain ⟨hax, haA⟩ := Finset.mem_erase.mp ha
      exact (Finset.mem_insert.mp (hA haA)).resolve_left hax
    have hless := h _ hsub
    have hle := Finset.card_le_card hsub
    obtain ⟨j, hj⟩ : ∃ j, A.card = j + 1 := Nat.exists_eq_succ_of_ne_zero (Finset.card_ne_zero_of_mem hmem)
    rw [Finset.card_erase_of_mem hmem, hj, Nat.add_sub_cancel] at hless hle
    have hN : (j : ℤ) + 1 ≤ N := by
      have : j + 1 ≤ N := by omega
      exact_mod_cast this
    rw [← Finset.add_sum_erase A y hmem, hj]
    have hgrow : 0 ≤ B * (2 * (N - (j + 1))) := mul_nonneg hB (by linarith)
    calc |y x + ∑ a ∈ A.erase x, y a| ≤ |y x| + |∑ a ∈ A.erase x, y a| := abs_add_le _ _
      _ ≤ B + B * (j * (2 * N - j)) := add_le_add hx hless
      _ ≤ B * ((j + 1 : ℕ) * (2 * N - (j + 1 : ℕ))) := by push_cast; linarith
  · apply h A
    intro a ha
    rcases Finset.mem_insert.mp (hA ha) with rfl | haT
    · exact absurd ha hmem
    · exact haT

/-- A round keeps the spread when the weights add up to at most `B`. -/
theorem round (h : Spread B N T y) (hround : Round w T y y' x) (hw : ∀ a ∈ T, 0 ≤ w a)
    (hsum : ∑ a ∈ T, w a ≤ B) : Spread B N T y' := by
  have hpart : ∀ A ⊆ T, ∑ a ∈ A, w a ≤ B := by
    intro A hA
    refine le_trans ?_ hsum
    exact Finset.sum_le_sum_of_subset_of_nonneg hA (fun a ha _ => hw a ha)
  have hB : 0 ≤ B := (Finset.sum_nonneg hw).trans hsum
  intro A hA
  rw [abs_le]
  constructor
  · apply hround.le_sum (f := fun j => B * (j * (2 * N - j))) hw
    · exact fun A hA => (abs_le.mp (h A hA)).1
    · intro j _
      push_cast
      linarith
    · exact hA
  · apply hround.sum_le (f := fun j => B * (j * (2 * N - j))) (e := fun _ => B) hw
    · exact hpart
    · exact fun A hA => (abs_le.mp (h A hA)).2
    · intro j _
      have hextra : 0 ≤ B * ((j : ℤ) * j) := mul_nonneg hB (by positivity)
      push_cast
      linarith
    · exact hA

omit [DecidableEq α] in
/-- The balance of one member. -/
theorem abs_le_mul (h : Spread B N T y) (hx : x ∈ T) : |y x| ≤ B * (2 * N - 1) := by
  have hone := h {x} (Finset.singleton_subset_iff.mpr hx)
  simpa using hone

end Spread

end GreedyShares
