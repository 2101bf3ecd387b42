import Mathlib.Data.List.Nodup
import Mathlib.Data.List.Perm.Subperm
import Mathlib.Logic.Function.Basic

/-!
# Custody

Items that have been handed out, each in the custody of a queue or of one party.  The items are taken, put into
the queue, got out of it again and dropped; each of these moves keeps every item in one custody.
-/

set_option autoImplicit false

variable {ι β : Type}

/-- Each item that is out is in the queue or held by a party, and is there once. -/
structure Custody (out queue : List β) (held : ι → Option β) : Prop where
  nodup : out.Nodup
  queueOnce : queue.Nodup
  heldOnce : ∀ i j b, held i = some b → held j = some b → i = j
  apart : ∀ i b, held i = some b → b ∉ queue
  iff : ∀ b, b ∈ out ↔ b ∈ queue ∨ ∃ i, held i = some b

namespace Custody

variable {out queue : List β} {held : ι → Option β} {i : ι} {b : β}

theorem initial : Custody ([] : List β) [] (fun _ : ι => none) where
  nodup := List.nodup_nil
  queueOnce := List.nodup_nil
  heldOnce := nofun
  apart := nofun
  iff := by simp

/-- The order of the items does not matter. -/
theorem perm {queue' : List β} (h : Custody out queue held) (hperm : queue'.Perm queue) :
    Custody out queue' held where
  nodup := h.nodup
  queueOnce := hperm.nodup_iff.mpr h.queueOnce
  heldOnce := h.heldOnce
  apart j c hj hmem := h.apart j c hj (hperm.mem_iff.mp hmem)
  iff c := by
    rw [h.iff, hperm.mem_iff]

/-- The queue has room for what is held. -/
theorem room (h : Custody out queue held) (hi : held i = some b) : queue.length < out.length := by
  have hnodup : (b :: queue).Nodup := List.nodup_cons.mpr ⟨h.apart i b hi, h.queueOnce⟩
  have hsub : b :: queue ⊆ out := by
    intro c hc
    rw [h.iff]
    obtain rfl | hc := List.mem_cons.mp hc
    · exact .inr ⟨i, hi⟩
    · exact .inl hc
  exact (List.subperm_of_subset hnodup hsub).length_le

/-- What is in the queue cannot be lost without breaking the custody. -/
theorem not_cleared (h : Custody out (b :: queue) held) : ¬Custody out [] held := by
  intro hcleared
  have hout : b ∈ out := (h.iff b).mpr (.inl List.mem_cons_self)
  obtain hmem | ⟨j, hj⟩ := (hcleared.iff b).mp hout
  · cases hmem
  · exact h.apart j b hj List.mem_cons_self

variable [DecidableEq ι]

/-- INTERNAL: who holds an item once `i` holds `x`. -/
theorem update_eq_some {x : Option β} {j : ι} {c : β} :
    Function.update held i x j = some c ↔ (j = i ∧ x = some c) ∨ (j ≠ i ∧ held j = some c) := by
  by_cases hj : j = i
  · subst hj
    simp
  · simp [hj]

/-- INTERNAL: each item is held once, once `i` holds one that nobody has held. -/
theorem heldOnce_some (h : Custody out queue held) (hfree : ∀ j, held j ≠ some b) {j k : ι} {c : β}
    (hj : Function.update held i (some b) j = some c) (hk : Function.update held i (some b) k = some c) : j = k := by
  rw [update_eq_some] at hj hk
  obtain ⟨rfl, hbj⟩ | ⟨-, hj⟩ := hj <;> obtain ⟨rfl, hbk⟩ | ⟨-, hk⟩ := hk
  · rfl
  · exact absurd (hk.trans hbj.symm) (hfree k)
  · exact absurd (hj.trans hbk.symm) (hfree j)
  · exact h.heldOnce j k c hj hk

/-- A party takes an item that is not out. -/
theorem take (h : Custody out queue held) (hi : held i = none) (hb : b ∉ out) :
    Custody (b :: out) queue (Function.update held i (some b)) := by
  have hfree : ∀ j, held j ≠ some b := fun j hj => hb ((h.iff b).mpr (.inr ⟨j, hj⟩))
  have hqueue : b ∉ queue := fun hmem => hb ((h.iff b).mpr (.inl hmem))
  refine ⟨List.nodup_cons.mpr ⟨hb, h.nodup⟩, h.queueOnce, fun j k c => h.heldOnce_some hfree, ?_, ?_⟩
  · intro j c hj
    rw [update_eq_some] at hj
    obtain ⟨-, hbj⟩ | ⟨-, hj⟩ := hj
    · rw [← Option.some.inj hbj]
      exact hqueue
    · exact h.apart j c hj
  · intro c
    rw [List.mem_cons, h.iff]
    constructor
    · rintro (rfl | hmem | ⟨j, hj⟩)
      · exact .inr ⟨i, Function.update_self ..⟩
      · exact .inl hmem
      · refine .inr ⟨j, update_eq_some.mpr (.inr ⟨?_, hj⟩)⟩
        rintro rfl
        rw [hi] at hj
        cases hj
    · rintro (hmem | ⟨j, hj⟩)
      · exact .inr (.inl hmem)
      · obtain ⟨-, hbj⟩ | ⟨-, hj⟩ := update_eq_some.mp hj
        · exact .inl (Option.some.inj hbj).symm
        · exact .inr (.inr ⟨j, hj⟩)

/-- INTERNAL: the items of the others, once `i` holds nothing. -/
theorem heldOnce_none (h : Custody out queue held) {j k : ι} {c : β}
    (hj : Function.update held i none j = some c) (hk : Function.update held i none k = some c) : j = k := by
  rw [update_eq_some] at hj hk
  obtain ⟨-, hnone⟩ | ⟨-, hj⟩ := hj
  · cases hnone
  · obtain ⟨-, hnone⟩ | ⟨-, hk⟩ := hk
    · cases hnone
    · exact h.heldOnce j k c hj hk

/-- A party drops the item that it holds. -/
theorem drop [DecidableEq β] (h : Custody out queue held) (hi : held i = some b) :
    Custody (out.erase b) queue (Function.update held i none) := by
  refine ⟨h.nodup.erase b, h.queueOnce, fun j k c => h.heldOnce_none, ?_, ?_⟩
  · intro j c hj
    obtain ⟨-, hnone⟩ | ⟨-, hj⟩ := update_eq_some.mp hj
    · cases hnone
    · exact h.apart j c hj
  · intro c
    rw [h.nodup.mem_erase_iff, h.iff]
    constructor
    · rintro ⟨hne, hmem | ⟨j, hj⟩⟩
      · exact .inl hmem
      · refine .inr ⟨j, update_eq_some.mpr (.inr ⟨?_, hj⟩)⟩
        rintro rfl
        rw [hi] at hj
        exact hne (Option.some.inj hj).symm
    · rintro (hmem | ⟨j, hj⟩)
      · refine ⟨?_, .inl hmem⟩
        rintro rfl
        exact h.apart i c hi hmem
      · obtain ⟨-, hnone⟩ | ⟨hne, hj⟩ := update_eq_some.mp hj
        · cases hnone
        · refine ⟨?_, .inr ⟨j, hj⟩⟩
          rintro rfl
          exact hne (h.heldOnce j i c hj hi)

/-- A party puts the item that it holds into the queue. -/
theorem put (h : Custody out queue held) (hi : held i = some b) :
    Custody out (b :: queue) (Function.update held i none) := by
  refine ⟨h.nodup, List.nodup_cons.mpr ⟨h.apart i b hi, h.queueOnce⟩, fun j k c => h.heldOnce_none, ?_, ?_⟩
  · intro j c hj hmem
    obtain ⟨-, hnone⟩ | ⟨hne, hj⟩ := update_eq_some.mp hj
    · cases hnone
    · obtain rfl | hmem := List.mem_cons.mp hmem
      · exact hne (h.heldOnce j i c hj hi)
      · exact h.apart j c hj hmem
  · intro c
    rw [h.iff, List.mem_cons]
    constructor
    · rintro (hmem | ⟨j, hj⟩)
      · exact .inl (.inr hmem)
      · by_cases hj' : j = i
        · subst hj'
          rw [hi] at hj
          exact .inl (.inl (Option.some.inj hj).symm)
        · exact .inr ⟨j, update_eq_some.mpr (.inr ⟨hj', hj⟩)⟩
    · rintro ((rfl | hmem) | ⟨j, hj⟩)
      · exact .inr ⟨i, hi⟩
      · exact .inl hmem
      · obtain ⟨-, hnone⟩ | ⟨-, hj⟩ := update_eq_some.mp hj
        · cases hnone
        · exact .inr ⟨j, hj⟩

/-- A party gets the first item of the queue. -/
theorem get (h : Custody out (b :: queue) held) (hi : held i = none) :
    Custody out queue (Function.update held i (some b)) := by
  have hfree : ∀ j, held j ≠ some b := fun j hj => h.apart j b hj List.mem_cons_self
  obtain ⟨hnot, hnodup⟩ := List.nodup_cons.mp h.queueOnce
  refine ⟨h.nodup, hnodup, fun j k c => h.heldOnce_some hfree, ?_, ?_⟩
  · intro j c hj
    obtain ⟨-, hbj⟩ | ⟨-, hj⟩ := update_eq_some.mp hj
    · rw [← Option.some.inj hbj]
      exact hnot
    · exact fun hmem => h.apart j c hj (List.mem_cons_of_mem b hmem)
  · intro c
    rw [h.iff, List.mem_cons]
    constructor
    · rintro ((rfl | hmem) | ⟨j, hj⟩)
      · exact .inr ⟨i, Function.update_self ..⟩
      · exact .inl hmem
      · refine .inr ⟨j, update_eq_some.mpr (.inr ⟨?_, hj⟩)⟩
        rintro rfl
        rw [hi] at hj
        cases hj
    · rintro (hmem | ⟨j, hj⟩)
      · exact .inl (.inr hmem)
      · obtain ⟨-, hbj⟩ | ⟨-, hj⟩ := update_eq_some.mp hj
        · exact .inl (.inl (Option.some.inj hbj).symm)
        · exact .inr ⟨j, hj⟩

end Custody
