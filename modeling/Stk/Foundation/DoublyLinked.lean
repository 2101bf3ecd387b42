import Mathlib.Data.List.Chain
import Mathlib.Data.List.Nodup

/-!
# Doubly linked chains

The nodes of a chain name the next and the previous node by partial functions.  `Chained next prev l`
says that consecutive nodes of `l` name each other; `walk` follows one of the two functions for a
number of steps.
-/

set_option autoImplicit false

namespace DoublyLinked

variable {α : Type}

/-- The nodes met in at most `n` steps from `start`. -/
def walk (next : α → Option α) : ℕ → Option α → List α
  | 0, _ => []
  | _ + 1, none => []
  | n + 1, some x => x :: walk next n (next x)

/-- Consecutive nodes of the list name each other. -/
def Chained (next prev : α → Option α) (l : List α) : Prop :=
  l.IsChain fun x y => next x = some y ∧ prev y = some x

variable {next prev next' prev' : α → Option α}

theorem chained_append {a b : List α} :
    Chained next prev (a ++ b) ↔ Chained next prev a ∧ Chained next prev b ∧
      ∀ x ∈ a.getLast?, ∀ y ∈ b.head?, next x = some y ∧ prev y = some x :=
  List.isChain_append

theorem chained_cons {x : α} {b : List α} :
    Chained next prev (x :: b) ↔ (∀ y ∈ b.head?, next x = some y ∧ prev y = some x) ∧ Chained next prev b :=
  List.isChain_cons

/-- A chain depends on the next nodes of all but its last node and on the previous nodes of all but
its first. -/
theorem Chained.congr {l : List α} (hl : Chained next prev l) (hnext : ∀ x ∈ l.dropLast, next' x = next x)
    (hprev : ∀ x ∈ l.tail, prev' x = prev x) : Chained next' prev' l := by
  induction l with
  | nil => exact List.isChain_nil
  | cons x l ih =>
    cases l with
    | nil => exact List.isChain_singleton x
    | cons y l =>
      obtain ⟨hxy, hrest⟩ := chained_cons.mp hl
      obtain ⟨hx, hy⟩ := hxy y rfl
      apply chained_cons.mpr
      constructor
      · intro z hz
        have hzy : z = y := by simpa using hz.symm
        subst hzy
        rw [hnext x (by simp), hprev z (by simp)]
        exact ⟨hx, hy⟩
      · apply ih hrest
        · intro z hz
          exact hnext z (by simp [List.dropLast_cons_cons, hz])
        · intro z hz
          exact hprev z (by simp only [List.tail_cons] at hz ⊢; exact List.mem_cons_of_mem y hz)

theorem Chained.reverse {l : List α} (hl : Chained next prev l) : Chained prev next l.reverse := by
  apply List.isChain_reverse.mpr
  apply List.IsChain.imp _ hl
  intro x y hxy
  exact ⟨hxy.2, hxy.1⟩

theorem Chained.walk {l : List α} (hl : Chained next prev l) : walk next l.length l.head? = l := by
  induction l with
  | nil => rfl
  | cons x l ih =>
    obtain ⟨hx, hrest⟩ := chained_cons.mp hl
    rw [List.length_cons, List.head?_cons, DoublyLinked.walk]
    congr 1
    cases l with
    | nil => rfl
    | cons y l =>
      rw [(hx y rfl).1]
      exact ih hrest

theorem Chained.walk_back {l : List α} (hl : Chained next prev l) :
    DoublyLinked.walk prev l.length l.getLast? = l.reverse := by
  have hback := hl.reverse.walk
  rwa [List.length_reverse, List.head?_reverse] at hback

/-- INTERNAL: a walk that gives as many nodes as it has steps follows `next`. -/
theorem isChain_of_walk {l : List α} (hl : walk next l.length l.head? = l) :
    l.IsChain fun x y => next x = some y := by
  induction l with
  | nil => exact List.isChain_nil
  | cons x l ih =>
    rw [List.length_cons, List.head?_cons, walk] at hl
    have hrest : walk next l.length (next x) = l := List.tail_eq_of_cons_eq hl
    cases l with
    | nil => exact List.isChain_singleton x
    | cons y l =>
      have hy : next x = some y := by
        cases hx : next x with
        | none => simp [hx, walk] at hrest
        | some z =>
          rw [hx, List.length_cons, walk] at hrest
          rw [List.head_eq_of_cons_eq hrest]
      rw [hy] at hrest
      exact List.isChain_cons_cons.mpr ⟨hy, ih hrest⟩

/-- Walks that give the list in one direction and its reverse in the other are along a chain. -/
theorem chained_of_walks {l : List α} (hforward : walk next l.length l.head? = l)
    (hbackward : walk prev l.length l.getLast? = l.reverse) : Chained next prev l := by
  have hnext := isChain_of_walk hforward
  have hprev : l.reverse.IsChain fun x y => prev x = some y := by
    apply isChain_of_walk
    rw [List.length_reverse, List.head?_reverse, hbackward]
  have hprev' := List.isChain_reverse.mp hprev
  apply List.isChain_iff_forall_rel_of_append_cons_cons.mpr
  intro x y l₁ l₂ hl
  constructor
  · exact List.isChain_iff_forall_rel_of_append_cons_cons.mp hnext hl
  · exact List.isChain_iff_forall_rel_of_append_cons_cons.mp hprev' hl

theorem ne_getLast_of_mem_dropLast {l : List α} (hl : l.Nodup) {x : α} (hx : x ∈ l.dropLast) :
    l.getLast? ≠ some x := by
  intro hlast
  have hsplit := List.dropLast_append_getLast? x hlast
  rw [← hsplit] at hl
  exact (List.nodup_append.mp hl).2.2 x hx x (List.mem_singleton_self x) rfl

theorem ne_head_of_mem_tail {l : List α} (hl : l.Nodup) {x : α} (hx : x ∈ l.tail) : l.head? ≠ some x := by
  intro hhead
  have hsplit := List.cons_head?_tail hhead
  rw [← hsplit] at hl
  exact (List.nodup_cons.mp hl).1 hx

end DoublyLinked
