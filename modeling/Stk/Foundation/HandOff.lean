import Mathlib.Data.Finset.Card
import Mathlib.Data.List.Nodup

/-!
# Permits that are handed over

A permit that is posted goes to the task that has waited longest, or to a store if no task waits.
A task that has been handed a permit collects it later; it has left the queue by then, so that
nobody else can be handed the same permit and nobody can take it out of the store.  `Step` is one
move, `Step.conserves` the balance of permits.
-/

set_option autoImplicit false

namespace HandOff

variable {ι : Type} [DecidableEq ι]

/-- The permits in store, the tasks that wait, in order, and those that have been handed a permit. -/
structure State (ι : Type) where
  stored : ℕ
  queue : List ι
  granted : Finset ι

inductive Move (ι : Type) where
  | post
  | take
  | join (i : ι)
  | collect (i : ι)
  | cancel
  | giveUp

/-- The permits that a move brings in. -/
def Move.posted : Move ι → ℕ
  | .post => 1
  | _ => 0

/-- The permits that a task has got in a move. -/
def Move.taken : Move ι → ℕ
  | .take | .collect _ => 1
  | _ => 0

/-- The permits that are lost in a move from `c`. -/
def Move.cancelled (c : State ι) : Move ι → ℕ
  | .cancel => c.stored
  | _ => 0

/-- One move, with at most `capacity` permits in store. -/
inductive Step (capacity : ℕ) (c : State ι) : Move ι → State ι → Prop
  | store (hempty : c.queue = []) (hlt : c.stored < capacity) :
    Step capacity c .post ⟨c.stored + 1, c.queue, c.granted⟩
  | grant {i : ι} {l : List ι} (hqueue : c.queue = i :: l) :
    Step capacity c .post ⟨c.stored, l, insert i c.granted⟩
  | take {m : ℕ} (hstored : c.stored = m + 1) : Step capacity c .take ⟨m, c.queue, c.granted⟩
  | join {i : ι} (hstored : c.stored = 0) (hqueue : i ∉ c.queue) (hgranted : i ∉ c.granted) :
    Step capacity c (.join i) ⟨c.stored, c.queue ++ [i], c.granted⟩
  | collect {i : ι} (hgranted : i ∈ c.granted) :
    Step capacity c (.collect i) ⟨c.stored, c.queue, c.granted.erase i⟩
  | cancel : Step capacity c .cancel ⟨0, c.queue, c.granted⟩
  | giveUp {l : List ι} (hsub : l.Sublist c.queue) : Step capacity c .giveUp ⟨c.stored, l, c.granted⟩

/-- What every move keeps. -/
structure Sound (capacity : ℕ) (c : State ι) : Prop where
  stored_le : c.stored ≤ capacity
  queue_nil : 0 < c.stored → c.queue = []
  nodup : c.queue.Nodup
  disjoint : ∀ i ∈ c.queue, i ∉ c.granted

variable {capacity : ℕ} {c c' : State ι} {m : Move ι}

theorem Step.sound (h : Step capacity c m c') (hc : Sound capacity c) : Sound capacity c' := by
  cases h with
  | store hempty hlt => exact ⟨hlt, fun _ => hempty, hc.nodup, hc.disjoint⟩
  | @grant i l hqueue =>
    have hnodup : (i :: l).Nodup := by
      rw [← hqueue]
      exact hc.nodup
    refine ⟨hc.stored_le, ?_, (List.nodup_cons.mp hnodup).2, ?_⟩
    · intro hpos
      have hnil := hc.queue_nil hpos
      rw [hqueue] at hnil
      cases hnil
    · intro j hj hins
      rcases Finset.mem_insert.mp hins with rfl | hgranted
      · exact (List.nodup_cons.mp hnodup).1 hj
      · exact hc.disjoint j (by rw [hqueue]; exact List.mem_cons_of_mem i hj) hgranted
  | @take p hstored =>
    refine ⟨?_, ?_, hc.nodup, hc.disjoint⟩
    · have hle := hc.stored_le
      dsimp only
      omega
    · intro _
      exact hc.queue_nil (by omega)
  | @join i hstored hqueue hgranted =>
    refine ⟨hc.stored_le, ?_, ?_, ?_⟩
    · intro hpos
      dsimp only at hpos
      omega
    · apply List.nodup_append.mpr
      refine ⟨hc.nodup, List.nodup_singleton i, ?_⟩
      intro j hj j' hj' heq
      rw [heq, List.mem_singleton.mp hj'] at hj
      exact hqueue hj
    · intro j hj
      rcases List.mem_append.mp hj with hj | hj
      · exact hc.disjoint j hj
      · rw [List.mem_singleton.mp hj]
        exact hgranted
  | collect hgranted =>
    refine ⟨hc.stored_le, hc.queue_nil, hc.nodup, ?_⟩
    intro j hj hmem
    exact hc.disjoint j hj (Finset.mem_of_mem_erase hmem)
  | cancel => exact ⟨Nat.zero_le _, fun hpos => absurd hpos (lt_irrefl 0), hc.nodup, hc.disjoint⟩
  | giveUp hsub =>
    refine ⟨hc.stored_le, ?_, hc.nodup.sublist hsub, fun j hj => hc.disjoint j (hsub.subset hj)⟩
    intro hpos
    apply List.eq_nil_of_sublist_nil
    rw [← hc.queue_nil hpos]
    exact hsub

/-- **The balance of a move.** -/
theorem Step.conserves (h : Step capacity c m c') (hc : Sound capacity c) :
    c'.stored + c'.granted.card + (m.taken + m.cancelled c) = c.stored + c.granted.card + m.posted := by
  cases h with
  | store hempty hlt =>
    simp only [Move.taken, Move.cancelled, Move.posted]
    omega
  | @grant i l hqueue =>
    have hnot : i ∉ c.granted := hc.disjoint i (by rw [hqueue]; exact List.mem_cons_self)
    simp only [Move.taken, Move.cancelled, Move.posted, Finset.card_insert_of_notMem hnot]
    omega
  | take hstored =>
    simp only [Move.taken, Move.cancelled, Move.posted]
    omega
  | join => rfl
  | @collect i hgranted =>
    have hcard := Finset.card_erase_add_one hgranted
    simp only [Move.taken, Move.cancelled, Move.posted]
    omega
  | cancel =>
    simp only [Move.taken, Move.cancelled, Move.posted]
    omega
  | giveUp => rfl

/-- **First come, first served.** -/
theorem Step.fifo (h : Step capacity c m c') {i : ι} (hi : i ∈ c'.granted) (hnot : i ∉ c.granted) :
    ∃ l, c.queue = i :: l := by
  cases h with
  | @grant j l hqueue =>
    rcases Finset.mem_insert.mp hi with rfl | hgranted
    · exact ⟨l, hqueue⟩
    · exact absurd hgranted hnot
  | collect => exact absurd (Finset.mem_of_mem_erase hi) hnot
  | _ => exact absurd hi hnot

end HandOff
