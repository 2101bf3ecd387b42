import Mathlib.Data.List.Nodup
import Mathlib.Tactic.Ring
import Stk.Analysis.MonitorSimulation
import Stk.Model.BlockMemoryPool

/-!
# Block memory pools: who owns a block, and who waits for one

The free list is threaded through the free blocks.  With the outstanding blocks it makes up all the
blocks of the pool, so that an allocation never hands out an outstanding block, and what the users
write into their blocks does not reach the free list.
-/

set_option autoImplicit false

namespace Stk.Analysis

open Stk.Model BlockMemoryPool

variable {p : ℕ}

/-! ## Geometry -/

/-- INTERNAL: the bits from `p` on. -/
theorem and_high_bits {x p w : ℕ} (hp : p ≤ w) (hx : x < 2 ^ w) :
    x &&& (2 ^ w - 2 ^ p) = 2 ^ p * (x / 2 ^ p) := by
  have hmask : 2 ^ w - 2 ^ p = 2 ^ p * (2 ^ (w - p) - 1) := by
    rw [Nat.mul_sub, ← pow_add, Nat.add_sub_cancel' hp, Nat.mul_one]
  apply Nat.eq_of_testBit_eq
  intro i
  rw [Nat.testBit_and, hmask, Nat.testBit_two_pow_mul, Nat.testBit_two_pow_mul,
    Nat.testBit_two_pow_sub_one, Nat.testBit_div_two_pow]
  by_cases hpi : p ≤ i
  · have hi : i - p + p = i := by omega
    rw [hi]
    by_cases hiw : i < w
    · have hlt : i - p < w - p := by omega
      simp [hpi, hlt]
    · have hzero : x.testBit i = false := Nat.testBit_lt_two_pow (hx.trans_le (Nat.pow_le_pow_right (by omega) (by omega)))
      simp [hzero]
  · simp [hpi]

/-- The size of a block over the natural numbers: `rawSize` rounded up to a multiple of `BLOCK_ALIGN`. -/
def alignedSize (p rawSize : ℕ) : ℕ := blockAlign p * ((rawSize + (blockAlign p - 1)) / blockAlign p)

theorem le_alignedSize (p rawSize : ℕ) : rawSize ≤ alignedSize p rawSize := by
  have hpos : 0 < blockAlign p := Nat.two_pow_pos p
  have hdiv := Nat.div_add_mod (rawSize + (blockAlign p - 1)) (blockAlign p)
  have hmod := Nat.mod_lt (rawSize + (blockAlign p - 1)) hpos
  unfold alignedSize
  omega

/-- INTERNAL: a pointer has no more bits than its bytes have. -/
theorem pointer_bits (p : ℕ) : p ≤ 8 * 2 ^ p := by
  have := Nat.lt_two_pow_self (n := p)
  omega

/-- INTERNAL: the rounding of `AlignBlockSize`. -/
theorem alignBlockSize_rounds (p rawSize : ℕ) : alignBlockSize p rawSize =
    max (blockAlign p) (blockAlign p * (word p (rawSize + (blockAlign p - 1)) / blockAlign p)) := by
  have hlt : word p (rawSize + (blockAlign p - 1)) < 2 ^ (8 * 2 ^ p) := Nat.mod_lt _ (Nat.two_pow_pos _)
  have haligned : word p (rawSize + (blockAlign p - 1)) &&& (2 ^ (8 * 2 ^ p) - blockAlign p) =
      blockAlign p * (word p (rawSize + (blockAlign p - 1)) / blockAlign p) := and_high_bits (pointer_bits p) hlt
  unfold alignBlockSize
  rw [haligned]
  dsimp only
  split
  · next hsmall => exact (max_eq_left hsmall.le).symm
  · next hlarge => exact (max_eq_right (Nat.le_of_not_lt hlarge)).symm

/-- A size that does not overflow is rounded up; room for the link is left where nothing is asked for. -/
theorem alignBlockSize_eq {rawSize : ℕ} (hraw : rawSize + (blockAlign p - 1) < 2 ^ (8 * 2 ^ p)) :
    alignBlockSize p rawSize = max (blockAlign p) (alignedSize p rawSize) := by
  have hword : word p (rawSize + (blockAlign p - 1)) = rawSize + (blockAlign p - 1) := Nat.mod_eq_of_lt hraw
  rw [alignBlockSize_rounds, hword]
  rfl

/-- A block has room for the link and for what was asked for, and its multiples are aligned. -/
theorem alignBlockSize_ok {rawSize : ℕ} (hraw : rawSize + (blockAlign p - 1) < 2 ^ (8 * 2 ^ p)) :
    blockAlign p ≤ alignBlockSize p rawSize ∧ rawSize ≤ alignBlockSize p rawSize ∧
      blockAlign p ∣ alignBlockSize p rawSize := by
  rw [alignBlockSize_eq hraw]
  refine ⟨le_max_left _ _, (le_alignedSize p rawSize).trans (le_max_right _ _), ?_⟩
  rcases max_choice (blockAlign p) (alignedSize p rawSize) with hmax | hmax
  · rw [hmax]
  · rw [hmax]
    exact dvd_mul_right _ _

/-- The start addresses of the blocks. -/
def blocks (m : BlockMemoryPool p) : List ℕ :=
  (List.range m.capacity).map fun i => m.storage + i * m.blockSize

/-- The storage is aligned and lies in the address space, behind the null pointer. -/
structure Placed (m : BlockMemoryPool p) : Prop where
  storage_pos : 0 < m.storage
  storage_aligned : blockAlign p ∣ m.storage
  size_ge : blockAlign p ≤ m.blockSize
  size_aligned : blockAlign p ∣ m.blockSize
  capacity_le : m.capacity ≤ capacityMax
  fits : m.storage + m.capacity * m.blockSize < 2 ^ (8 * 2 ^ p)

namespace Placed

variable {m : BlockMemoryPool p}

theorem size_pos (h : Placed m) : 0 < m.blockSize :=
  (Nat.two_pow_pos p).trans_le h.size_ge

theorem mem_blocks {x : ℕ} : x ∈ blocks m ↔ ∃ i, i < m.capacity ∧ x = m.storage + i * m.blockSize := by
  simp only [blocks, List.mem_map, List.mem_range, eq_comm]

theorem pos (h : Placed m) {x : ℕ} (hx : x ∈ blocks m) : x ≠ 0 := by
  obtain ⟨i, -, rfl⟩ := mem_blocks.mp hx
  have := h.storage_pos
  omega

theorem nodup (h : Placed m) : (blocks m).Nodup := by
  apply List.Nodup.map _ List.nodup_range
  intro i j hij
  exact Nat.eq_of_mul_eq_mul_right h.size_pos (Nat.add_left_cancel hij)

/-- The start of a block is in no other block. -/
theorem disjoint (h : Placed m) {x b : ℕ} (hx : x ∈ blocks m) (hb : b ∈ blocks m) (hle : b ≤ x)
    (hlt : x < b + m.blockSize) : x = b := by
  obtain ⟨i, -, rfl⟩ := mem_blocks.mp hx
  obtain ⟨j, -, rfl⟩ := mem_blocks.mp hb
  have hji : j * m.blockSize ≤ i * m.blockSize := by omega
  have hij : i * m.blockSize < (j + 1) * m.blockSize := by
    rw [Nat.succ_mul]
    omega
  have h₁ := Nat.le_of_mul_le_mul_right hji h.size_pos
  have h₂ := Nat.lt_of_mul_lt_mul_right hij
  have hsame : i = j := by omega
  rw [hsame]

/-- A block is inside the storage. -/
theorem inside (h : Placed m) {x : ℕ} (hx : x ∈ blocks m) :
    m.storage ≤ x ∧ x + m.blockSize ≤ m.storage + m.capacity * m.blockSize ∧ blockAlign p ∣ x := by
  obtain ⟨i, hi, rfl⟩ := mem_blocks.mp hx
  have hmul : (i + 1) * m.blockSize ≤ m.capacity * m.blockSize := Nat.mul_le_mul_right _ hi
  rw [Nat.succ_mul] at hmul
  refine ⟨by omega, by omega, ?_⟩
  exact (Nat.dvd_add_right h.storage_aligned).mpr (h.size_aligned.mul_left i)

/-- **What `Free` accepts** is the start of a block, as far as the bounds go. -/
theorem mem_blocks_iff (h : Placed m) {ptr : ℕ} :
    ptr ∈ blocks m ↔ ¬ (ptr < m.storage ∨ word p (m.storage + word p (m.capacity * m.blockSize)) ≤ ptr) ∧
      (ptr - m.storage) % m.blockSize = 0 := by
  have hfits := h.fits
  have hword : word p (m.storage + word p (m.capacity * m.blockSize)) =
      m.storage + m.capacity * m.blockSize := by
    unfold word
    rw [Nat.mod_eq_of_lt (a := m.capacity * m.blockSize) (by omega), Nat.mod_eq_of_lt hfits]
  rw [hword]
  constructor
  · intro hx
    obtain ⟨hle, hlt, -⟩ := h.inside hx
    have hpos := h.size_pos
    obtain ⟨i, -, rfl⟩ := mem_blocks.mp hx
    refine ⟨by omega, ?_⟩
    rw [Nat.add_sub_cancel_left]
    exact Nat.mul_mod_left i m.blockSize
  · rintro ⟨hbounds, hmod⟩
    obtain ⟨hle, hlt⟩ := not_or.mp hbounds
    have hdiv := Nat.div_add_mod (ptr - m.storage) m.blockSize
    rw [hmod, Nat.add_zero, Nat.mul_comm] at hdiv
    refine mem_blocks.mpr ⟨(ptr - m.storage) / m.blockSize, ?_, by omega⟩
    apply Nat.lt_of_mul_lt_mul_right (a := m.blockSize)
    omega

end Placed

/-! ## The free list -/

/-- The links in the memory lead from `head` through the blocks of the list to the null pointer. -/
def FreeChain (memory : ℕ → ℕ) : ℕ → List ℕ → Prop
  | head, [] => head = 0
  | head, x :: l => head = x ∧ FreeChain memory (memory x) l

theorem FreeChain.congr {memory memory' : ℕ → ℕ} {head : ℕ} {l : List ℕ} (h : FreeChain memory head l)
    (hsame : ∀ x ∈ l, memory' x = memory x) : FreeChain memory' head l := by
  induction l generalizing head with
  | nil => exact h
  | cons x l ih =>
    obtain ⟨hhead, hrest⟩ := h
    refine ⟨hhead, ?_⟩
    rw [hsame x List.mem_cons_self]
    apply ih hrest
    intro y hy
    exact hsame y (List.mem_cons_of_mem x hy)

/-- INTERNAL: the blocks below `i` are put before those already linked. -/
theorem buildLoop_chain {i : ℕ} {m : BlockMemoryPool p} (h : Placed m) (hi : i ≤ m.capacity) {l : List ℕ}
    (hl : FreeChain m.memory m.freeList l) (hfresh : ∀ j, j < i → m.storage + j * m.blockSize ∉ l) :
    ∃ memory freeList, buildLoop i m = { m with memory := memory, freeList := freeList } ∧
      FreeChain memory freeList ((List.range i).map (fun j => m.storage + j * m.blockSize) ++ l) := by
  induction i generalizing m l with
  | zero => exact ⟨m.memory, m.freeList, rfl, hl⟩
  | succ i ih =>
    have hmem : m.storage + i * m.blockSize ∈ blocks m := Placed.mem_blocks.mpr ⟨i, hi, rfl⟩
    have hfits := h.fits
    obtain ⟨-, hinside, -⟩ := h.inside hmem
    have hpos := h.size_pos
    have hblk : word p (m.storage + word p (i * m.blockSize)) = m.storage + i * m.blockSize := by
      unfold word
      rw [Nat.mod_eq_of_lt (a := i * m.blockSize) (by omega), Nat.mod_eq_of_lt (by omega)]
    have hnot : m.storage + i * m.blockSize ∉ l := hfresh i (Nat.lt_succ_self i)
    unfold buildLoop
    rw [hblk]
    dsimp only
    have hnext : FreeChain (Function.update m.memory (m.storage + i * m.blockSize) m.freeList)
        (m.storage + i * m.blockSize) ((m.storage + i * m.blockSize) :: l) := by
      refine ⟨rfl, ?_⟩
      rw [Function.update_self]
      apply hl.congr
      intro x hx
      apply Function.update_of_ne
      intro hxb
      exact hnot (hxb ▸ hx)
    have hplaced : Placed { m with
        memory := Function.update m.memory (m.storage + i * m.blockSize) m.freeList
        freeList := m.storage + i * m.blockSize } :=
      ⟨h.storage_pos, h.storage_aligned, h.size_ge, h.size_aligned, h.capacity_le, h.fits⟩
    obtain ⟨memory, freeList, hloop, hchain⟩ := ih hplaced (Nat.le_of_succ_le hi) hnext (by
      intro j hj hjl
      obtain hsame | hjl := List.mem_cons.mp hjl
      · have := Nat.eq_of_mul_eq_mul_right hpos (Nat.add_left_cancel hsame)
        omega
      · exact hfresh j (Nat.lt_succ_of_lt hj) hjl)
    refine ⟨memory, freeList, hloop, ?_⟩
    rw [List.range_succ, List.map_append, List.append_assoc]
    exact hchain

theorem buildFreeList_chain {m : BlockMemoryPool p} (h : Placed m) :
    Placed m.buildFreeList ∧ m.buildFreeList.usedCount = 0 ∧
      FreeChain m.buildFreeList.memory m.buildFreeList.freeList (blocks m.buildFreeList) := by
  have hplaced : Placed { m with freeList := 0, usedCount := 0 } :=
    ⟨h.storage_pos, h.storage_aligned, h.size_ge, h.size_aligned, h.capacity_le, h.fits⟩
  obtain ⟨memory, freeList, hloop, hchain⟩ := buildLoop_chain (i := m.capacity) hplaced le_rfl
    (l := []) rfl (fun _ _ => List.not_mem_nil)
  rw [List.append_nil] at hchain
  unfold buildFreeList
  rw [hloop]
  exact ⟨⟨h.storage_pos, h.storage_aligned, h.size_ge, h.size_aligned, h.capacity_le, h.fits⟩, rfl, hchain⟩

/-- A pool whose constructor has got arguments that it accepts and has computed no size and no
address that overflows.  External storage that is too small for the capacity makes the capacity
smaller; storage from the heap has been allocated. -/
inductive Constructed : BlockMemoryPool p → Prop
  | external {capacity rawBlockSize storage storageSize : ℕ} {memory : ℕ → ℕ}
    (hcapacity : 0 < capacity ∧ capacity ≤ capacityMax) (hraw : 0 < rawBlockSize) (hstorage : storage ≠ 0)
    (haligned : storage % blockAlign p = 0)
    (hsize : rawBlockSize + (blockAlign p - 1) < 2 ^ (8 * 2 ^ p))
    (hproduct : capacity * alignBlockSize p rawBlockSize < 2 ^ (8 * 2 ^ p))
    (hend : storage + min (capacity * alignBlockSize p rawBlockSize) storageSize < 2 ^ (8 * 2 ^ p)) :
    Constructed (external capacity rawBlockSize storage storageSize memory)
  | owned {capacity rawBlockSize storage : ℕ} {memory : ℕ → ℕ}
    (hcapacity : 0 < capacity ∧ capacity ≤ capacityMax) (hraw : 0 < rawBlockSize) (hstorage : storage ≠ 0)
    (haligned : storage % blockAlign p = 0)
    (hsize : rawBlockSize + (blockAlign p - 1) < 2 ^ (8 * 2 ^ p))
    (hend : storage + capacity * alignBlockSize p rawBlockSize < 2 ^ (8 * 2 ^ p)) :
    Constructed (owned capacity rawBlockSize storage memory)

theorem Constructed.chain {m : BlockMemoryPool p} (h : Constructed m) :
    Placed m ∧ m.usedCount = 0 ∧ FreeChain m.memory m.freeList (blocks m) := by
  cases h with
  | @external capacity rawBlockSize storage storageSize memory hcapacity hraw hstorage haligned hsize hproduct hend =>
    obtain ⟨hge, -, hdvd⟩ := alignBlockSize_ok hsize
    have hpos : 0 < alignBlockSize p rawBlockSize := (Nat.two_pow_pos p).trans_le hge
    unfold BlockMemoryPool.external
    dsimp only
    apply buildFreeList_chain
    have hword : word p (capacity * alignBlockSize p rawBlockSize) = capacity * alignBlockSize p rawBlockSize :=
      Nat.mod_eq_of_lt hproduct
    rw [hword]
    refine ⟨Nat.pos_of_ne_zero hstorage, Nat.dvd_of_mod_eq_zero haligned, hge, hdvd, ?_, ?_⟩
    · dsimp only
      split
      · next hsmall =>
        have hlt : storageSize / alignBlockSize p rawBlockSize < capacity := (Nat.div_lt_iff_lt_mul hpos).mpr hsmall
        exact (hlt.trans_le hcapacity.2).le
      · exact hcapacity.2
    · dsimp only
      split
      · have hle := Nat.div_mul_le_self storageSize (alignBlockSize p rawBlockSize)
        omega
      · omega
  | @owned capacity rawBlockSize storage memory hcapacity hraw hstorage haligned hsize hend =>
    obtain ⟨hge, -, hdvd⟩ := alignBlockSize_ok hsize
    unfold BlockMemoryPool.owned
    dsimp only
    rw [if_pos hstorage]
    apply buildFreeList_chain
    exact ⟨Nat.pos_of_ne_zero hstorage, Nat.dvd_of_mod_eq_zero haligned, hge, hdvd, hcapacity.2, hend⟩

theorem buildLoop_fields (i : ℕ) (m : BlockMemoryPool p) :
    (buildLoop i m).storage = m.storage ∧ (buildLoop i m).blockSize = m.blockSize ∧
      (buildLoop i m).capacity = m.capacity := by
  induction i generalizing m with
  | zero => exact ⟨rfl, rfl, rfl⟩
  | succ i ih => exact ih _

/-! ## Owners -/

/-- The free list is a chain of blocks; with the outstanding blocks it makes up all of them. -/
structure PoolOk (m : PoolInUse p) : Prop where
  placed : Placed m.pool
  used : m.pool.usedCount = m.outstanding.length
  chain : ∃ l, FreeChain m.pool.memory m.pool.freeList l ∧ (l ++ m.outstanding).Perm (blocks m.pool)

namespace PoolOk

variable {m : PoolInUse p}

theorem constructed {pool : BlockMemoryPool p} (h : Constructed pool) : PoolOk ⟨pool, []⟩ := by
  obtain ⟨hplaced, hused, hchain⟩ := h.chain
  refine ⟨hplaced, hused, blocks pool, hchain, ?_⟩
  rw [List.append_nil]

theorem mem_of_outstanding (h : PoolOk m) {x : ℕ} (hx : x ∈ m.outstanding) : x ∈ blocks m.pool := by
  obtain ⟨l, -, hperm⟩ := h.chain
  exact hperm.mem_iff.mp (List.mem_append_right l hx)

theorem length_le (h : PoolOk m) : m.outstanding.length ≤ m.pool.capacity := by
  obtain ⟨l, -, hperm⟩ := h.chain
  have hlength := hperm.length_eq
  rw [List.length_append, blocks, List.length_map, List.length_range] at hlength
  omega

/-- The pool is exhausted when the free list is empty, and only then. -/
theorem exhausted_iff (h : PoolOk m) : m.pool.freeList = 0 ↔ m.pool.usedCount = m.pool.capacity := by
  obtain ⟨l, hchain, hperm⟩ := h.chain
  have hlength := hperm.length_eq
  rw [List.length_append, blocks, List.length_map, List.length_range] at hlength
  rw [h.used]
  cases l with
  | nil =>
    refine ⟨fun _ => ?_, fun _ => hchain⟩
    simpa using hlength
  | cons x l =>
    have hx : x ∈ blocks m.pool := hperm.mem_iff.mp (List.mem_append_left _ List.mem_cons_self)
    refine ⟨fun hzero => absurd (hchain.1.symm.trans hzero) (h.placed.pos hx), fun hall => ?_⟩
    rw [List.length_cons] at hlength
    omega

/-- **An allocation** hands out a block that was free. -/
theorem pop (h : PoolOk m) (hne : m.pool.freeList ≠ 0) :
    PoolOk ⟨m.pool.popFreeList.2, m.pool.popFreeList.1 :: m.outstanding⟩ ∧
      m.pool.popFreeList.1 ∈ blocks m.pool ∧ m.pool.popFreeList.1 ∉ m.outstanding ∧
      m.pool.popFreeList.2.usedCount = m.pool.usedCount + 1 := by
  obtain ⟨l, hchain, hperm⟩ := h.chain
  cases l with
  | nil => exact absurd hchain hne
  | cons x l =>
    obtain ⟨hhead, hrest⟩ := hchain
    have hx : x ∈ blocks m.pool := hperm.mem_iff.mp (List.mem_append_left _ List.mem_cons_self)
    have hnodup := hperm.nodup_iff.mpr h.placed.nodup
    have hlength := hperm.length_eq
    rw [List.length_append, List.length_cons, blocks, List.length_map, List.length_range] at hlength
    have hnot : x ∉ m.outstanding := by
      intro hmem
      rw [List.cons_append, List.nodup_cons] at hnodup
      exact hnodup.1 (List.mem_append_right l hmem)
    have hcapacity := h.placed.capacity_le
    have hused := h.used
    have hcount : (m.pool.usedCount + 1) % 2 ^ 16 = m.pool.usedCount + 1 := by
      unfold capacityMax at hcapacity
      omega
    unfold popFreeList
    dsimp only
    rw [hcount, hhead]
    refine ⟨⟨⟨h.placed.1, h.placed.2, h.placed.3, h.placed.4, h.placed.5, h.placed.6⟩, ?_, l, hrest, ?_⟩, hx, hnot, rfl⟩
    · rw [List.length_cons, hused]
    · exact List.perm_middle.trans hperm

/-- **Freeing** an outstanding block. -/
theorem push (h : PoolOk m) {ptr : ℕ} (hptr : ptr ∈ m.outstanding) :
    ∃ pool, m.pool.free ptr = ⟨pool, [.one cvPool], .done (.freed true)⟩ ∧
      PoolOk ⟨pool, m.outstanding.erase ptr⟩ ∧ pool.usedCount + 1 = m.pool.usedCount ∧
      pool.capacity = m.pool.capacity ∧ blocks pool = blocks m.pool := by
  obtain ⟨l, hchain, hperm⟩ := h.chain
  have hmem := h.mem_of_outstanding hptr
  have hpos : 0 < m.outstanding.length := List.length_pos_of_mem hptr
  have hle := h.length_le
  have hcapacity := h.placed.capacity_le
  have hused := h.used
  obtain ⟨hbounds, hmod⟩ := h.placed.mem_blocks_iff.mp hmem
  have hcount : (m.pool.usedCount - 1) % 2 ^ 16 = m.pool.usedCount - 1 := by
    unfold capacityMax at hcapacity
    omega
  have hfree : m.pool.free ptr = ⟨{ m.pool with
      memory := Function.update m.pool.memory ptr m.pool.freeList
      freeList := ptr
      usedCount := m.pool.usedCount - 1 }, [.one cvPool], .done (.freed true)⟩ := by
    unfold BlockMemoryPool.free
    dsimp only
    rw [if_neg (h.placed.pos hmem), if_neg hbounds, if_neg (not_not.mpr hmod), if_neg (by omega), hcount]
  have hnot : ptr ∉ l := by
    intro hl
    have hnodup := hperm.nodup_iff.mpr h.placed.nodup
    exact (List.nodup_append.mp hnodup).2.2 ptr hl ptr hptr rfl
  refine ⟨_, hfree, ⟨⟨h.placed.1, h.placed.2, h.placed.3, h.placed.4, h.placed.5, h.placed.6⟩, ?_, ptr :: l, ?_, ?_⟩, ?_, rfl, rfl⟩
  · dsimp only
    rw [List.length_erase_of_mem hptr, hused]
  · refine ⟨rfl, ?_⟩
    dsimp only
    rw [Function.update_self]
    apply hchain.congr
    intro x hx
    apply Function.update_of_ne
    intro hxp
    exact hnot (hxp ▸ hx)
  · apply List.Perm.trans _ hperm
    exact List.perm_middle.symm.trans ((List.perm_cons_erase hptr).symm.append_left l)
  · dsimp only
    omega

/-- **Freeing** what is no block changes nothing. -/
theorem reject (h : PoolOk m) {ptr : ℕ} (hptr : ptr ∉ blocks m.pool) :
    m.pool.free ptr = ⟨m.pool, [], .done (.freed false)⟩ := by
  unfold BlockMemoryPool.free
  dsimp only
  split
  · rfl
  · split
    · rfl
    · split
      · rfl
      · next hbounds hmod =>
        exact absurd (h.placed.mem_blocks_iff.mpr ⟨hbounds, not_not.mp hmod⟩) hptr

/-- **The users' writes** do not reach the free list. -/
theorem write (h : PoolOk m) (words : ℕ → ℕ) : PoolOk (m.write words) := by
  obtain ⟨l, hchain, hperm⟩ := h.chain
  refine ⟨⟨h.placed.1, h.placed.2, h.placed.3, h.placed.4, h.placed.5, h.placed.6⟩, h.used, l, ?_, hperm⟩
  apply hchain.congr
  intro x hx
  have hxblock : x ∈ blocks m.pool := hperm.mem_iff.mp (List.mem_append_left _ hx)
  have hnodup := hperm.nodup_iff.mpr h.placed.nodup
  have hnot : ¬ m.isOutstanding x = true := by
    intro hout
    obtain ⟨b, hb, hin⟩ := List.any_eq_true.mp hout
    rw [Bool.and_eq_true, decide_eq_true_eq, decide_eq_true_eq] at hin
    have hxb := h.placed.disjoint hxblock (h.mem_of_outstanding hb) hin.1 hin.2
    exact (List.nodup_append.mp hnodup).2.2 x hx b hb hxb
  exact if_neg hnot

end PoolOk

end Stk.Analysis
