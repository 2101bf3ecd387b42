import Stk.Analysis.BlockPool

/-!
# The geometry of a block pool

`AlignBlockSize` and the product `capacity * m_block_size` of the constructors are computed modulo the
size of the address space.  Where the product does not overflow over the natural numbers, the blocks are
aligned, disjoint and inside the storage; where it does, a constructor that accepts the storage builds
blocks that are too small for the request or lie outside of it (`blockPool_geometry`).
-/

set_option autoImplicit false

namespace Stk.Analysis

open Stk.Model BlockMemoryPool

variable {p : ℕ}

/-! ## The blocks that are built -/

/-- The addresses that `BuildFreeList` computes, the one of block 0 first. -/
def builtBlocks (m : BlockMemoryPool p) : List ℕ :=
  (List.range m.capacity).map fun i => word p (m.storage + word p (i * m.blockSize))

/-! ## Sound geometry -/

/-- Where the product does not overflow, item `i` of `count` items lies in the storage. -/
theorem item_inside {count item base size i : ℕ} (hfits : count * item < 2 ^ (8 * 2 ^ p)) (hitem : 0 < item)
    (hlarge : count * item ≤ size) (hspace : base + size ≤ 2 ^ (8 * 2 ^ p)) (hi : i < count) :
    word p (base + word p (i * item)) = base + i * item ∧ base + i * item + item ≤ base + size := by
  have hmul : (i + 1) * item ≤ count * item := Nat.mul_le_mul_right _ hi
  rw [Nat.succ_mul] at hmul
  have hoffset : word p (i * item) = i * item := Nat.mod_eq_of_lt (by omega)
  rw [hoffset]
  exact ⟨Nat.mod_eq_of_lt (by omega), by omega⟩

/-- The rounding of a request does not overflow where the product does not. -/
theorem rounding_fits {count rawSize : ℕ} (hcount : 0 < count)
    (hfits : count * alignedSize p rawSize < 2 ^ (8 * 2 ^ p)) : rawSize + (blockAlign p - 1) < 2 ^ (8 * 2 ^ p) := by
  have hpos : 0 < blockAlign p := Nat.two_pow_pos p
  have hone : alignedSize p rawSize ≤ count * alignedSize p rawSize := Nat.le_mul_of_pos_left _ hcount
  have hdvd : blockAlign p ∣ 2 ^ (8 * 2 ^ p) := pow_dvd_pow 2 (pointer_bits p)
  obtain ⟨c, hc⟩ := hdvd
  have hquot : (rawSize + (blockAlign p - 1)) / blockAlign p < c := by
    apply Nat.lt_of_mul_lt_mul_left (a := blockAlign p)
    calc blockAlign p * ((rawSize + (blockAlign p - 1)) / blockAlign p)
        ≤ count * alignedSize p rawSize := hone
      _ < 2 ^ (8 * 2 ^ p) := hfits
      _ = blockAlign p * c := hc
  rw [hc, Nat.mul_comm]
  exact (Nat.div_lt_iff_lt_mul hpos).mp hquot

/-- The block size of a request whose rounding does not overflow. -/
theorem alignBlockSize_natural {rawSize : ℕ} (hraw : 0 < rawSize)
    (hno : rawSize + (blockAlign p - 1) < 2 ^ (8 * 2 ^ p)) : alignBlockSize p rawSize = alignedSize p rawSize := by
  have halign : 0 < blockAlign p := Nat.two_pow_pos p
  rw [alignBlockSize_eq hno]
  apply max_eq_right
  unfold alignedSize
  apply Nat.le_mul_of_pos_right
  apply Nat.div_pos
  · omega
  · exact halign

/-- The assertions of a constructor and of `BuildFreeList` hold for storage of `storageSize` bytes that lies
in the address space. -/
structure Accepts (p capacity rawBlockSize storage storageSize : ℕ) : Prop where
  capacity_pos : 0 < capacity
  capacity_le : capacity ≤ capacityMax
  raw_pos : 0 < rawBlockSize
  raw_lt : rawBlockSize < 2 ^ (8 * 2 ^ p)
  storage_pos : 0 < storage
  aligned : storage % blockAlign p = 0
  inSpace : storage + storageSize ≤ 2 ^ (8 * 2 ^ p)
  large : word p (capacity * alignBlockSize p rawBlockSize) ≤ storageSize

/-- The block size has room for the request and for a link; the blocks are disjoint and inside the storage. -/
structure SoundGeometry (capacity rawBlockSize storage storageSize : ℕ) (m : BlockMemoryPool p) : Prop where
  all : m.capacity = capacity
  aligned : blockAlign p ∣ m.blockSize
  raw_le : rawBlockSize ≤ m.blockSize
  link_le : blockAlign p ≤ m.blockSize
  disjoint : (builtBlocks m).Pairwise fun x y => x + m.blockSize ≤ y ∨ y + m.blockSize ≤ x
  inside : ∀ x ∈ builtBlocks m, storage ≤ x ∧ x + m.blockSize ≤ storage + storageSize

namespace Accepts

variable {capacity rawBlockSize storage storageSize : ℕ}

/-- INTERNAL: a request that overflows in the rounding gets the smallest block. -/
theorem wraps (h : Accepts p capacity rawBlockSize storage storageSize)
    (hwrap : 2 ^ (8 * 2 ^ p) ≤ rawBlockSize + (blockAlign p - 1)) :
    alignBlockSize p rawBlockSize = blockAlign p ∧ blockAlign p < rawBlockSize := by
  have hlt := h.raw_lt
  -- the address space has room for two pointers
  have htwo : 2 * blockAlign p ≤ 2 ^ (8 * 2 ^ p) := by
    have hbits : p + 1 ≤ 8 * 2 ^ p := by
      have := Nat.lt_two_pow_self (n := p)
      omega
    calc 2 * blockAlign p = 2 ^ (p + 1) := by rw [blockAlign, pow_succ, Nat.mul_comm]
      _ ≤ 2 ^ (8 * 2 ^ p) := Nat.pow_le_pow_right (by decide) hbits
  have hword : word p (rawBlockSize + (blockAlign p - 1)) =
      rawBlockSize + (blockAlign p - 1) - 2 ^ (8 * 2 ^ p) := by
    unfold word
    rw [Nat.mod_eq_sub_mod hwrap, Nat.mod_eq_of_lt (by omega)]
  constructor
  · rw [alignBlockSize_rounds, hword, Nat.div_eq_of_lt (by omega), Nat.mul_zero]
    exact max_eq_left (Nat.zero_le _)
  · omega

end Accepts

/-! ## The constructors -/

section Constructors

variable {capacity rawBlockSize storage storageSize : ℕ}

/-- INTERNAL: a pool built over accepted storage, by either constructor. -/
theorem soundGeometry_iff (h : Accepts p capacity rawBlockSize storage storageSize) {m : BlockMemoryPool p}
    (hstorage : m.storage = storage) (hsize : m.blockSize = alignBlockSize p rawBlockSize)
    (hcapacity : m.capacity = capacity) : SoundGeometry capacity rawBlockSize storage storageSize m ↔
      capacity * alignedSize p rawBlockSize < 2 ^ (8 * 2 ^ p) := by
  have hpos := h.storage_pos
  have hspace := h.inSpace
  have halign : 0 < blockAlign p := Nat.two_pow_pos p
  by_cases hwrap : 2 ^ (8 * 2 ^ p) ≤ rawBlockSize + (blockAlign p - 1)
  · obtain ⟨hsmall, hraw⟩ := h.wraps hwrap
    constructor
    · intro hsound
      have hle := hsound.raw_le
      rw [hsize, hsmall] at hle
      omega
    · intro hfits
      have hlt := rounding_fits h.capacity_pos hfits
      omega
  · have hno : rawBlockSize + (blockAlign p - 1) < 2 ^ (8 * 2 ^ p) := Nat.lt_of_not_le hwrap
    obtain ⟨hlink, hraw, hdvd⟩ := alignBlockSize_ok hno
    have hrounded := alignBlockSize_natural h.raw_pos hno
    have hlarge := h.large
    rw [hrounded] at hsize hlink hraw hdvd hlarge
    have hblock : 0 < alignedSize p rawBlockSize := halign.trans_le hlink
    constructor
    · intro hsound
      by_contra hover
      -- the first block that ends behind the storage
      have hend : storageSize < capacity * alignedSize p rawBlockSize := by omega
      have hindex : storageSize / alignedSize p rawBlockSize < capacity := (Nat.div_lt_iff_lt_mul hblock).mpr hend
      have hmem : word p (storage + word p (storageSize / alignedSize p rawBlockSize * alignedSize p rawBlockSize)) ∈
          builtBlocks m := by
        unfold builtBlocks
        rw [hstorage, hsize, hcapacity]
        exact List.mem_map.mpr ⟨_, List.mem_range.mpr hindex, rfl⟩
      obtain ⟨hlow, hhigh⟩ := hsound.inside _ hmem
      rw [hsize] at hhigh
      have hdiv := Nat.div_mul_le_self storageSize (alignedSize p rawBlockSize)
      have hnext := Nat.lt_div_mul_add (a := storageSize) hblock
      generalize storageSize / alignedSize p rawBlockSize * alignedSize p rawBlockSize = offset at *
      have hoffset : word p offset = offset := Nat.mod_eq_of_lt (by omega)
      rw [hoffset] at hlow hhigh
      by_cases hwhole : storage + offset = 2 ^ (8 * 2 ^ p)
      · unfold word at hlow
        rw [hwhole, Nat.mod_self] at hlow
        omega
      · have hsum : word p (storage + offset) = storage + offset := Nat.mod_eq_of_lt (by omega)
        rw [hsum] at hhigh
        omega
    · intro hfits
      have hproduct : word p (capacity * alignedSize p rawBlockSize) = capacity * alignedSize p rawBlockSize :=
        Nat.mod_eq_of_lt hfits
      rw [hproduct] at hlarge
      have haddress : ∀ i, i < capacity → word p (storage + word p (i * alignedSize p rawBlockSize)) =
            storage + i * alignedSize p rawBlockSize ∧
          storage + i * alignedSize p rawBlockSize + alignedSize p rawBlockSize ≤ storage + storageSize :=
        fun i hi => item_inside hfits hblock hlarge hspace hi
      refine ⟨hcapacity, ?_, ?_, ?_, ?_, ?_⟩
      · rw [hsize]
        exact hdvd
      · rw [hsize]
        exact hraw
      · rw [hsize]
        exact hlink
      · unfold builtBlocks
        rw [hstorage, hsize, hcapacity, List.pairwise_map]
        apply List.pairwise_lt_range.imp_of_mem
        intro i j hi hj hlt
        rw [(haddress i (List.mem_range.mp hi)).1, (haddress j (List.mem_range.mp hj)).1]
        have hmul : (i + 1) * alignedSize p rawBlockSize ≤ j * alignedSize p rawBlockSize :=
          Nat.mul_le_mul_right _ hlt
        rw [Nat.succ_mul] at hmul
        omega
      · intro x hx
        unfold builtBlocks at hx
        rw [hstorage, hsize, hcapacity] at hx
        obtain ⟨i, hi, rfl⟩ := List.mem_map.mp hx
        obtain ⟨heq, hend⟩ := haddress i (List.mem_range.mp hi)
        rw [heq, hsize]
        omega

/-- **Block geometry.**  For a request and storage that a constructor accepts, external or from the heap:
the block size is a multiple of `BLOCK_ALIGN` with room for the request and a link, and the blocks that
`BuildFreeList` links are disjoint and inside the storage, exactly if `capacity` blocks of the rounded size
fit into the address space over the natural numbers. -/
theorem blockPool_geometry (memory : ℕ → ℕ) (h : Accepts p capacity rawBlockSize storage storageSize) :
    (SoundGeometry capacity rawBlockSize storage storageSize
        (external capacity rawBlockSize storage storageSize memory : BlockMemoryPool p) ↔
      capacity * alignedSize p rawBlockSize < 2 ^ (8 * 2 ^ p)) ∧
    (SoundGeometry capacity rawBlockSize storage storageSize
        (owned capacity rawBlockSize storage memory : BlockMemoryPool p) ↔
      capacity * alignedSize p rawBlockSize < 2 ^ (8 * 2 ^ p)) := by
  constructor
  · obtain ⟨hstorage, hsize, hcapacity⟩ : (external capacity rawBlockSize storage storageSize memory :
          BlockMemoryPool p).storage = storage ∧
        (external capacity rawBlockSize storage storageSize memory : BlockMemoryPool p).blockSize =
          alignBlockSize p rawBlockSize ∧
        (external capacity rawBlockSize storage storageSize memory : BlockMemoryPool p).capacity =
          if storageSize < word p (capacity * alignBlockSize p rawBlockSize)
            then storageSize / alignBlockSize p rawBlockSize else capacity := buildLoop_fields _ _
    rw [if_neg (Nat.not_lt_of_le h.large)] at hcapacity
    exact soundGeometry_iff h hstorage hsize hcapacity
  · unfold owned
    dsimp only
    rw [if_pos (Nat.ne_of_gt h.storage_pos)]
    obtain ⟨hstorage, hsize, hcapacity⟩ := buildLoop_fields capacity
      ({ storage := storage, freeList := 0, blockSize := alignBlockSize p rawBlockSize, capacity := capacity,
          usedCount := 0, memory := memory } : BlockMemoryPool p)
    exact soundGeometry_iff h hstorage hsize hcapacity

/-- Three blocks of ten bytes, rounded up to twelve. -/
theorem threeBlocks_sound : SoundGeometry 3 10 4096 36
    (external 3 10 4096 36 (fun _ => 0) : BlockMemoryPool 2) :=
  (blockPool_geometry (fun _ => 0)
    ⟨by decide, by decide, by decide, by decide, by decide, by decide, by decide, by decide +kernel⟩).1.mpr
      (by decide +kernel)

/-- A request for one block of `2 ^ 32 - 1` bytes gets one of four bytes, and two blocks of `2 ^ 31` bytes are
built over storage of four. -/
theorem largeBlocks_unsound :
    Accepts 2 1 (2 ^ 32 - 1) 4096 4 ∧
      ¬ SoundGeometry 1 (2 ^ 32 - 1) 4096 4 (external 1 (2 ^ 32 - 1) 4096 4 (fun _ => 0) : BlockMemoryPool 2) ∧
      Accepts 2 2 (2 ^ 31) 4096 4 ∧
      ¬ SoundGeometry 2 (2 ^ 31) 4096 4 (external 2 (2 ^ 31) 4096 4 (fun _ => 0) : BlockMemoryPool 2) := by
  refine ⟨⟨by decide, by decide, by decide, by decide, by decide, by decide, by decide, by decide +kernel⟩, ?_,
    ⟨by decide, by decide, by decide, by decide, by decide, by decide, by decide, by decide +kernel⟩, ?_⟩
  · intro hsound
    have hsmall : ¬ 2 ^ 32 - 1 ≤ (external 1 (2 ^ 32 - 1) 4096 4 (fun _ => 0) : BlockMemoryPool 2).blockSize := by
      decide +kernel
    exact hsmall hsound.raw_le
  · intro hsound
    have hoff : ¬ ∀ x ∈ builtBlocks (external 2 (2 ^ 31) 4096 4 (fun _ => 0) : BlockMemoryPool 2),
        4096 ≤ x ∧ x + (external 2 (2 ^ 31) 4096 4 (fun _ => 0) : BlockMemoryPool 2).blockSize ≤ 4096 + 4 := by
      decide +kernel
    exact hoff hsound.inside

end Constructors

end Stk.Analysis
