import Stk.Analysis.BlockPool
import Stk.Foundation.Runs
import Stk.Model.MemoryAllocator

/-!
# Heap accounting

A request that leaves room for its header and for the rounding gets a chunk with all its bytes, and in every
run of such requests the counters agree with the live chunks.  A request nearer to the top of `size_t` wraps
to a few bytes and passes the capacity check (`run_heapAccounting`).
-/

set_option autoImplicit false

namespace Stk.Analysis

open Stk.Model BlockMemoryPool MemoryAllocator

variable {p : ℕ}

/-! ## The size of a chunk -/

/-- The header and the rounding do not overflow. -/
def FitsWord (p size : ℕ) : Prop := size + 2 ^ p + (2 ^ p - 1) < 2 ^ (8 * 2 ^ p)

instance (p size : ℕ) : Decidable (FitsWord p size) := inferInstanceAs (Decidable (_ < _))

/-- INTERNAL: the header and the rounding wrap at most once. -/
theorem chunkSize_rounds (p size : ℕ) :
    chunkSize p size = 2 ^ p * ((size + 2 ^ p + (2 ^ p - 1)) % 2 ^ (8 * 2 ^ p) / 2 ^ p) := by
  unfold chunkSize word
  rw [Nat.mod_add_mod]
  exact and_high_bits (pointer_bits p) (Nat.mod_lt _ (Nat.two_pow_pos _))

/-- The chunk has room for the header and for all bytes of the request unless its size overflows. -/
theorem le_chunkSize_iff (p size : ℕ) : size + 2 ^ p ≤ chunkSize p size ↔ FitsWord p size := by
  have hword : 2 ^ p ≤ 2 ^ (8 * 2 ^ p) := Nat.pow_le_pow_right (by decide) (pointer_bits p)
  have hpos : 0 < 2 ^ p := Nat.two_pow_pos p
  rw [chunkSize_rounds]
  constructor
  · intro hle
    by_contra hwrap
    have hover : 2 ^ (8 * 2 ^ p) ≤ size + 2 ^ p + (2 ^ p - 1) := Nat.le_of_not_lt hwrap
    have hdown := Nat.mul_div_le ((size + 2 ^ p + (2 ^ p - 1)) % 2 ^ (8 * 2 ^ p)) (2 ^ p)
    have hsub : (size + 2 ^ p + (2 ^ p - 1)) % 2 ^ (8 * 2 ^ p) ≤ size + 2 ^ p + (2 ^ p - 1) - 2 ^ (8 * 2 ^ p) := by
      rw [Nat.mod_eq_sub_mod hover]
      exact Nat.mod_le _ _
    omega
  · intro hfits
    rw [Nat.mod_eq_of_lt hfits]
    have hdiv := Nat.div_add_mod (size + 2 ^ p + (2 ^ p - 1)) (2 ^ p)
    have hmod := Nat.mod_lt (size + 2 ^ p + (2 ^ p - 1)) hpos
    omega

/-- A chunk has at most the header and the rounding beside the request. -/
theorem chunkSize_le (p size : ℕ) : chunkSize p size ≤ size + 2 ^ p + (2 ^ p - 1) := by
  rw [chunkSize_rounds]
  exact (Nat.mul_div_le _ _).trans (Nat.mod_le _ _)

/-- A step that allocates asks for a request that fits. -/
def OpFits (p : ℕ) (op : HeapOp) : Prop :=
  match op with
  | .allocate size _ => FitsWord p size
  | _ => True

/-! ## The accounts -/

/-- What the counters say about the live chunks of a heap, whose available bytes have been those of `history`. -/
structure Accounted (capacity : ℕ) (history : Set ℕ) (s : HeapInUse p) : Prop where
  owns : ∀ c ∈ s.live, c.request + 2 ^ p ≤ c.size
  apart : s.live.Pairwise Chunk.Apart
  sum : s.allocator.stats.allocated = (s.live.map fun c => s.allocator.memory c.region).sum
  le : s.allocator.stats.allocated ≤ capacity
  least : IsLeast history s.allocator.stats.minEverFree
  safe : s.failed = false

/-- The invariant behind it. -/
structure HeapOk (capacity : ℕ) (s : HeapInUse p) : Prop where
  capacity_eq : s.allocator.stats.capacity = capacity
  sum : s.allocator.stats.allocated = (s.live.map Chunk.size).sum
  le : s.allocator.stats.allocated ≤ capacity
  header : ∀ c ∈ s.live, s.allocator.memory c.region = c.size
  owns : ∀ c ∈ s.live, c.request + 2 ^ p ≤ c.size
  apart : s.live.Pairwise Chunk.Apart
  low : s.allocator.stats.minEverFree ≤ s.allocator.stats.getAvailable
  safe : s.failed = false

namespace HeapOk

variable {capacity : ℕ} {s : HeapInUse p}

theorem initial (capacity : ℕ) (memory : ℕ → ℕ) : HeapOk capacity (HeapInUse.initial (p := p) capacity memory) where
  capacity_eq := rfl
  sum := rfl
  le := Nat.zero_le _
  header := fun c hc => nomatch hc
  owns := fun c hc => nomatch hc
  apart := List.Pairwise.nil
  low := by
    change capacity ≤ if 0 < capacity then capacity - 0 else 0
    split_ifs <;> omega
  safe := rfl

theorem available (h : HeapOk capacity s) :
    s.allocator.stats.getAvailable = capacity - s.allocator.stats.allocated := by
  have hle := h.le
  unfold AllocatorStats.getAvailable
  rw [h.capacity_eq]
  split_ifs <;> omega

/-- Two live chunks do not overlap, and a live chunk has bytes. -/
theorem apart_of_mem (h : HeapOk capacity s) {c d : Chunk} (hc : c ∈ s.live) (hd : d ∈ s.live) (hne : c ≠ d) :
    c.Apart d := by
  have hsymm : Std.Symm Chunk.Apart := ⟨fun _ _ hcd => Or.symm hcd⟩
  exact h.apart.forall hc hd hne

theorem size_pos (h : HeapOk capacity s) {c : Chunk} (hc : c ∈ s.live) : 0 < c.size := by
  have hroom := h.owns c hc
  have hpos : 0 < 2 ^ p := Nat.two_pow_pos p
  omega

theorem eq_of_region (h : HeapOk capacity s) {c d : Chunk} (hc : c ∈ s.live) (hd : d ∈ s.live)
    (hregion : c.region = d.region) : c = d := by
  by_contra hne
  have hapart := h.apart_of_mem hc hd hne
  have hcpos := h.size_pos hc
  have hdpos := h.size_pos hd
  unfold Chunk.Apart at hapart
  omega

theorem nodup (h : HeapOk capacity s) : s.live.Nodup := by
  apply List.Pairwise.imp_of_mem _ h.apart
  rintro c d hc - hapart rfl
  have hpos := h.size_pos hc
  unfold Chunk.Apart at hapart
  omega

/-! ## One step -/

/-- INTERNAL: a request that is answered. -/
theorem allocated (h : HeapOk capacity s) (hcap : capacity < 2 ^ (8 * 2 ^ p)) {size region : ℕ}
    (hroom : chunkSize p size ≤ s.allocator.stats.getAvailable) (hfits : FitsWord p size)
    (hfresh : ∀ c ∈ s.live, c.Apart ⟨region, chunkSize p size, size⟩) :
    HeapOk capacity
      ⟨⟨s.allocator.stats.recordAllocate (chunkSize p size),
        Function.update s.allocator.memory region (chunkSize p size)⟩,
        ⟨region, chunkSize p size, size⟩ :: s.live, s.failed⟩ := by
  have hle := h.le
  have hsize := (le_chunkSize_iff p size).mpr hfits
  have hpos : 0 < 2 ^ p := Nat.two_pow_pos p
  rw [h.available] at hroom
  have hsum : (s.allocator.stats.recordAllocate (chunkSize p size)).allocated =
      s.allocator.stats.allocated + chunkSize p size := Nat.mod_eq_of_lt (by omega)
  constructor
  · exact h.capacity_eq
  · dsimp only
    rw [hsum, h.sum, List.map_cons, List.sum_cons, Nat.add_comm]
  · dsimp only
    omega
  · dsimp only
    intro c hc
    rcases List.mem_cons.mp hc with rfl | hc
    · exact Function.update_self ..
    · have hapart := hfresh c hc
      have hcpos := h.size_pos hc
      unfold Chunk.Apart at hapart
      have hne : c.region ≠ region := by
        dsimp only at hapart
        omega
      rw [Function.update_of_ne hne]
      exact h.header c hc
  · intro c hc
    rcases List.mem_cons.mp hc with rfl | hc
    · exact hsize
    · exact h.owns c hc
  · apply List.pairwise_cons.mpr
    constructor
    · exact fun c hc => (hfresh c hc).symm
    · exact h.apart
  · exact min_le_left _ _
  · exact h.safe

/-- INTERNAL: a live chunk that is given back. -/
theorem freed (h : HeapOk capacity s) {c : Chunk} (hc : c ∈ s.live) :
    s.allocator.free (c.region + 2 ^ p) = some { s.allocator with
      stats := { s.allocator.stats with
        allocated := s.allocator.stats.allocated - c.size
        freeCount := word p (s.allocator.stats.freeCount + 1) } } ∧
    c.size ≤ s.allocator.stats.allocated ∧
    (s.live.map Chunk.size).sum = c.size + ((s.live.erase c).map Chunk.size).sum := by
  have hpos : 0 < 2 ^ p := Nat.two_pow_pos p
  have hperm : (s.live.map Chunk.size).sum = c.size + ((s.live.erase c).map Chunk.size).sum := by
    have hsum := ((List.perm_cons_erase hc).map Chunk.size).sum_eq
    rw [List.map_cons, List.sum_cons] at hsum
    exact hsum
  have hle : c.size ≤ s.allocator.stats.allocated := by
    rw [h.sum, hperm]
    exact Nat.le_add_right _ _
  refine ⟨?_, hle, hperm⟩
  unfold MemoryAllocator.free AllocatorStats.recordFree
  rw [if_neg (by omega), Nat.add_sub_cancel, h.header c hc, if_pos hle]
  rfl

/-- INTERNAL: the chunk with the pointer is the one that goes. -/
theorem filter_eq (h : HeapOk capacity s) {c : Chunk} (hc : c ∈ s.live) :
    (s.live.filter fun d => d.region + 2 ^ p ≠ c.region + 2 ^ p) = s.live.erase c := by
  rw [h.nodup.erase_eq_filter]
  apply List.filter_congr
  intro d hd
  by_cases hdc : d = c
  · simp [hdc]
  · have hne : d.region ≠ c.region := fun hregion => hdc (h.eq_of_region hd hc hregion)
    simp [hdc, hne]

/-- INTERNAL: no chunk's header is among the bytes that were asked for. -/
theorem isOwned_region (h : HeapOk capacity s) {c : Chunk} (hc : c ∈ s.live) : s.isOwned c.region = false := by
  unfold HeapInUse.isOwned
  rw [List.any_eq_false]
  intro d hd hin
  rw [Bool.and_eq_true, decide_eq_true_eq, decide_eq_true_eq] at hin
  by_cases hdc : d = c
  · subst hdc
    omega
  · have hapart := h.apart_of_mem hd hc hdc
    have howns := h.owns d hd
    have hpos := h.size_pos hc
    unfold Chunk.Apart at hapart
    omega

/-- INTERNAL: what a step does to the heap and to its watermark. -/
theorem step (h : HeapOk capacity s) (hcap : capacity < 2 ^ (8 * 2 ^ p)) {op : HeapOp} (hop : s.Proper op)
    (hfits : OpFits p op) : HeapOk capacity (s.step op) ∧
      (s.step op).allocator.stats.minEverFree =
        min (s.step op).allocator.stats.getAvailable s.allocator.stats.minEverFree := by
  have hkeep : s.allocator.stats.minEverFree =
      min s.allocator.stats.getAvailable s.allocator.stats.minEverFree := (min_eq_right h.low).symm
  cases op with
  | allocate size region =>
    obtain ⟨-, hfresh⟩ := hop
    rcases s.allocator.allocate_cases size region with hnull | ⟨hsize, hroom, hregion, hcall⟩
    · rw [HeapInUse.step_null hnull]
      exact ⟨h, hkeep⟩
    · obtain ⟨hspace, hapart⟩ := hfresh.resolve_left hregion
      have hlarge := (le_chunkSize_iff p size).mpr hfits
      have hpos : 0 < 2 ^ p := Nat.two_pow_pos p
      have hptr : word p (region + 2 ^ p) = region + 2 ^ p := Nat.mod_eq_of_lt (by omega)
      have hstep := HeapInUse.step_allocated hcall (by omega)
      rw [hstep]
      exact ⟨h.allocated hcap hroom hfits hapart, rfl⟩
  | free ptr =>
    rcases hop with rfl | ⟨c, hc, rfl⟩
    · have hnone : s.step (.free 0) = s := by
        have hpos : 0 < 2 ^ p := Nat.two_pow_pos p
        have hall : (s.live.filter fun c => c.region + 2 ^ p ≠ 0) = s.live := by
          apply List.filter_eq_self.mpr
          intro c hc
          rw [decide_eq_true_eq]
          omega
        change { s with live := s.live.filter fun c => c.region + 2 ^ p ≠ 0 } = s
        rw [hall]
      rw [hnone]
      exact ⟨h, hkeep⟩
    · obtain ⟨hfree, hle, hsum⟩ := h.freed hc
      have hnext : HeapOk capacity (s.step (.free (c.region + 2 ^ p))) := by
        rw [HeapInUse.step_freed hfree, h.filter_eq hc]
        constructor
        · exact h.capacity_eq
        · have hbefore := h.sum
          dsimp only
          omega
        · exact (Nat.sub_le _ _).trans h.le
        · exact fun d hd => h.header d (List.mem_of_mem_erase hd)
        · exact fun d hd => h.owns d (List.mem_of_mem_erase hd)
        · exact h.apart.sublist List.erase_sublist
        · have hlow := h.low
          have hcapacity := h.capacity_eq
          have hbound := h.le
          unfold AllocatorStats.getAvailable at hlow ⊢
          dsimp only
          split_ifs at hlow ⊢ <;> omega
        · exact h.safe
      have hsame : (s.step (.free (c.region + 2 ^ p))).allocator.stats.minEverFree =
          s.allocator.stats.minEverFree := by
        rw [HeapInUse.step_freed hfree]
      constructor
      · exact hnext
      · have hlow := hnext.low
        rw [hsame] at hlow ⊢
        exact (min_eq_right hlow).symm
  | write words =>
    constructor
    · constructor
      · exact h.capacity_eq
      · exact h.sum
      · exact h.le
      · intro c hc
        change (if s.isOwned c.region then words c.region else s.allocator.memory c.region) = c.size
        rw [h.isOwned_region hc]
        exact h.header c hc
      · exact h.owns
      · exact h.apart
      · exact h.low
      · exact h.safe
    · exact hkeep

/-- INTERNAL: the recorded sizes are the sizes. -/
theorem accounted (h : HeapOk capacity s) {history : Set ℕ}
    (hleast : IsLeast history s.allocator.stats.minEverFree) : Accounted capacity history s where
  owns := h.owns
  apart := h.apart
  sum := by
    rw [h.sum]
    congr 1
    apply List.map_congr_left
    exact fun c hc => (h.header c hc).symm
  le := h.le
  least := hleast
  safe := h.safe

end HeapOk

/-! ## Every run -/

/-- The available bytes after the prefixes of a run. -/
def availableHistory (s : HeapInUse p) (ops : List HeapOp) : Set ℕ :=
  {a | ∃ before, before <+: ops ∧ (before.foldl HeapInUse.step s).allocator.stats.getAvailable = a}

/-- **Heap accounting.**  Whatever `malloc` returns, in every run whose requests fit a word with their header
and rounding the live chunks own the bytes they were asked for and the counters agree with them; a request
has a chunk with all its bytes exactly if it fits. -/
theorem run_heapAccounting (capacity : ℕ) (memory : ℕ → ℕ) (hcap : capacity < 2 ^ (8 * 2 ^ p)) :
    (∀ ops : List HeapOp,
      Runs.Along HeapInUse.step (fun s op => s.Proper op ∧ OpFits p op) (HeapInUse.initial (p := p) capacity memory)
        ops →
        Accounted capacity (availableHistory (HeapInUse.initial (p := p) capacity memory) ops)
          (ops.foldl HeapInUse.step (HeapInUse.initial (p := p) capacity memory))) ∧
      ∀ size, size + 2 ^ p ≤ chunkSize p size ↔ FitsWord p size := by
  have hinitial := HeapOk.initial (p := p) capacity memory
  constructor
  · intro ops hops
    have hend := hops.invariant (I := HeapOk capacity) (fun s op h hop => (HeapOk.step h hcap hop.1 hop.2).1) hinitial
    apply hend.accounted
    apply hops.isLeast (I := HeapOk capacity) (fun s => s.allocator.stats.getAvailable)
      (fun s => s.allocator.stats.minEverFree) (fun s op h hop => (HeapOk.step h hcap hop.1 hop.2).1) _ hinitial
    · rw [hinitial.available]
      rfl
    · exact fun s op h hop => (HeapOk.step h hcap hop.1 hop.2).2
  · exact le_chunkSize_iff p

/-- Two chunks of a heap of 64 bytes, one of which is written to and given back. -/
theorem twoChunks_accounted :
    let ops : List HeapOp := [.allocate 10 1000, .allocate 3 2000, .write fun x => x, .free 1004]
    let s := ops.foldl HeapInUse.step (HeapInUse.initial (p := 2) 64 fun _ => 0)
    s.live = [⟨2000, 8, 3⟩] ∧ s.allocator.stats.minEverFree = 40 ∧ s.allocator.memory 1000 = 16 ∧
      Accounted 64 (availableHistory (HeapInUse.initial (p := 2) 64 fun _ => 0) ops) s :=
  ⟨by decide +kernel, by decide +kernel, by decide +kernel,
    (run_heapAccounting (p := 2) 64 (fun _ => 0) (by decide)).1
      [.allocate 10 1000, .allocate 3 2000, .write fun x => x, .free 1004] (by
        refine ⟨⟨⟨by decide, .inr ?_⟩, ?_⟩, ⟨⟨by decide, .inr ?_⟩, ?_⟩, ⟨trivial, trivial⟩, ⟨.inr ?_, trivial⟩, trivial⟩
        · decide +kernel
        · exact (by decide : FitsWord 2 10)
        · decide +kernel
        · exact (by decide : FitsWord 2 3)
        · decide +kernel)⟩

/-- A request for all but one byte of the address space is answered with four bytes, which the header fills. -/
theorem hugeRequest_answered :
    let s := HeapInUse.initial (p := 2) 12288 fun _ => 0
    s.Proper (.allocate 4294967295 4096) ∧
      (s.step (.allocate 4294967295 4096)).live = [⟨4096, 4, 4294967295⟩] ∧
      ¬ Accounted 12288 (availableHistory s [.allocate 4294967295 4096]) (s.step (.allocate 4294967295 4096)) := by
  have hlive : ((HeapInUse.initial (p := 2) 12288 fun _ => 0).step (.allocate 4294967295 4096)).live =
      [⟨4096, 4, 4294967295⟩] := by decide +kernel
  refine ⟨⟨by decide, ?_⟩, hlive, fun haccounted => ?_⟩
  · right
    decide +kernel
  · have howns := haccounted.owns ⟨4096, 4, 4294967295⟩ (by rw [hlive]; exact List.mem_singleton_self _)
    revert howns
    decide

end Stk.Analysis
