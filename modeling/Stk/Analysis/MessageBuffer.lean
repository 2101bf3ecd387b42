import Stk.Analysis.BlockPool
import Stk.Foundation.Custody
import Stk.Model.MessageBuffer

/-!
# The blocks of a message buffer

Each block that the pool has handed out is in the custody of the envelope queue or of one call, and nobody but
its custodian writes to it.  `BufferOk` says this of a state; what an operation of the buffer leaves alone is
`Touches`.
-/

set_option autoImplicit false

namespace Stk.Analysis

open Stk.Model BlockMemoryPool

variable {p : ℕ} {ι : Type} {m m' : FrtosMessageBuffer p} {s : BufferSystem p ι} {i : ι} {blk : ℕ}

/-! ## What an operation leaves alone -/

/-- The operation keeps the shape of the buffer, and the contents of every block that is out, but for `b`. -/
structure Touches (b : Option ℕ) (m m' : FrtosMessageBuffer p) : Prop where
  pool : PoolOk m'.pool
  blockSize : m'.pool.pool.blockSize = m.pool.pool.blockSize
  poolCapacity : m'.pool.pool.capacity = m.pool.pool.capacity
  capacity : m'.capacity = m.capacity
  maxMsgSize : m'.maxMsgSize = m.maxMsgSize
  keeps : ∀ c ∈ m.pool.outstanding, b ≠ some c → ∀ a, c ≤ a → a < c + m.pool.pool.blockSize →
    m'.pool.pool.memory a = m.pool.pool.memory a

/-- INTERNAL: an operation of the queue alone. -/
theorem Touches.queue (hpool : PoolOk m.pool) (l : List MsgEnvelope) : Touches none m { m with eq := l } :=
  ⟨hpool, rfl, rfl, rfl, rfl, fun _ _ _ _ _ _ => rfl⟩

/-- A message is kept by what does not touch its block. -/
theorem Touches.payload {b : Option ℕ} (h : Touches b m m') (env : MsgEnvelope) (hout : env.blk ∈ m.pool.outstanding)
    (hb : b ≠ some env.blk) (hlen : env.len ≤ m.pool.pool.blockSize) : m'.payload env = m.payload env := by
  unfold FrtosMessageBuffer.payload
  apply List.map_congr_left
  intro j hj
  have hlt := List.mem_range.mp hj
  rw [h.keeps env.blk hout hb (env.blk + j) (by omega) (by omega)]

/-- INTERNAL: two blocks that overlap are the same. -/
theorem blocks_overlap (hpool : PoolOk m.pool) {c a : ℕ} (hblk : blk ∈ m.pool.outstanding) (hc : c ∈ m.pool.outstanding)
    (hblk_le : blk ≤ a) (hblk_lt : a < blk + m.pool.pool.blockSize) (hc_le : c ≤ a)
    (hc_lt : a < c + m.pool.pool.blockSize) : blk = c := by
  have hblk' := hpool.mem_of_outstanding hblk
  have hc' := hpool.mem_of_outstanding hc
  obtain hle | hle := Nat.le_total c blk
  · exact hpool.placed.disjoint hblk' hc' hle (by omega)
  · exact (hpool.placed.disjoint hc' hblk' hle (by omega)).symm

/-- `TimedAlloc` hands out a block that was free, or changes nothing. -/
theorem alloc_spec (hpool : PoolOk m.pool) :
    (m.alloc.2 = 0 ∧ m.alloc.1 = m) ∨
      (m.alloc.2 ≠ 0 ∧ m.alloc.2 ∉ m.pool.outstanding ∧ Touches none m m.alloc.1 ∧ m.alloc.1.eq = m.eq ∧
        m.alloc.1.pool.outstanding = m.alloc.2 :: m.pool.outstanding) := by
  by_cases hempty : m.pool.pool.freeList = 0
  · have hcall : m.pool.call (.alloc false 0) = ⟨m.pool, [], .done (.block 0)⟩ := by
      simp [PoolInUse.call, timedAlloc, allocFrom, hempty, PoolInUse.follow,
        PoolInUse.outstandingAfter]
    left
    unfold FrtosMessageBuffer.alloc
    rw [hcall]
    exact ⟨rfl, rfl⟩
  · obtain ⟨hok, -, hnot, -⟩ := hpool.pop hempty
    have hne : m.pool.pool.popFreeList.1 ≠ 0 := hempty
    have hcall : m.pool.call (.alloc false 0) =
        ⟨⟨m.pool.pool.popFreeList.2, m.pool.pool.popFreeList.1 :: m.pool.outstanding⟩, [],
          .done (.block m.pool.pool.popFreeList.1)⟩ := by
      simp [PoolInUse.call, timedAlloc, allocFrom, hempty, PoolInUse.follow,
        PoolInUse.outstandingAfter, hne]
    right
    unfold FrtosMessageBuffer.alloc
    rw [hcall]
    exact ⟨hne, hnot, ⟨hok, rfl, rfl, rfl, rfl, fun _ _ _ _ _ _ => rfl⟩, rfl, rfl⟩

/-- `Free` of a block that is out. -/
theorem free_spec (hpool : PoolOk m.pool) (hblk : blk ∈ m.pool.outstanding) :
    Touches (some blk) m (m.free blk) ∧ (m.free blk).eq = m.eq ∧
      (m.free blk).pool.outstanding = m.pool.outstanding.erase blk := by
  obtain ⟨pool, hfree, hok, -, -, -⟩ := hpool.push hblk
  have hcall : m.pool.call (.free blk) = ⟨⟨pool, m.pool.outstanding.erase blk⟩, [.one cvPool], .done (.freed true)⟩ := by
    rw [PoolInUse.call, hfree]
    rfl
  have hstate : pool = (m.pool.pool.free blk).state := by rw [hfree]
  have hmem := hpool.mem_of_outstanding hblk
  have hfields : pool.blockSize = m.pool.pool.blockSize ∧ pool.capacity = m.pool.pool.capacity ∧
      ∀ a, a ≠ blk → pool.memory a = m.pool.pool.memory a := by
    rw [hstate]
    unfold BlockMemoryPool.free
    dsimp only
    split_ifs
    · exact ⟨rfl, rfl, fun _ _ => rfl⟩
    · exact ⟨rfl, rfl, fun _ _ => rfl⟩
    · exact ⟨rfl, rfl, fun _ _ => rfl⟩
    · exact ⟨rfl, rfl, fun _ _ => rfl⟩
    · exact ⟨rfl, rfl, fun a ha => Function.update_of_ne ha _ _⟩
  have hpos := hpool.placed.size_pos
  unfold FrtosMessageBuffer.free
  rw [hcall]
  refine ⟨⟨hok, hfields.1, hfields.2.1, rfl, rfl, fun c hc hne a hle hlt => hfields.2.2 a ?_⟩, rfl, rfl⟩
  rintro rfl
  exact hne (congrArg some (blocks_overlap hpool hblk hc le_rfl (by omega) hle hlt))

/-- The copy of a message into a block that is out. -/
theorem copyIn_spec (hpool : PoolOk m.pool) (hblk : blk ∈ m.pool.outstanding) {data : List UInt8}
    (hlen : data.length ≤ m.pool.pool.blockSize) :
    Touches (some blk) m (m.copyIn blk data) ∧ (m.copyIn blk data).payload ⟨data.length, blk⟩ = data := by
  have hwrite : (m.copyIn blk data).pool = m.pool.write (m.copyIn blk data).pool.pool.memory := by
    unfold FrtosMessageBuffer.copyIn PoolInUse.write
    dsimp only
    congr 2
    funext a
    by_cases hout : m.pool.isOutstanding a = true
    · rw [if_pos hout]
    · rw [if_neg hout]
      -- an address that is copied to is in the block
      split
      · next hle =>
        cases hbyte : data[a - blk]? with
        | none => rfl
        | some byte =>
          obtain ⟨hlt, -⟩ := List.getElem?_eq_some_iff.mp hbyte
          refine absurd (List.any_eq_true.mpr ⟨blk, hblk, ?_⟩) hout
          rw [Bool.and_eq_true, decide_eq_true_eq, decide_eq_true_eq]
          omega
      · rfl
  have hok : PoolOk (m.copyIn blk data).pool := hwrite ▸ hpool.write _
  refine ⟨⟨hok, rfl, rfl, rfl, rfl, fun c hc hne a hle hlt => ?_⟩, ?_⟩
  · unfold FrtosMessageBuffer.copyIn
    dsimp only
    split
    · next hblk_le =>
      cases hbyte : data[a - blk]? with
      | none => rfl
      | some byte =>
        obtain ⟨hlt', -⟩ := List.getElem?_eq_some_iff.mp hbyte
        exact absurd (congrArg some (blocks_overlap hpool hblk hc hblk_le (by omega) hle hlt)) hne
    · rfl
  · unfold FrtosMessageBuffer.payload FrtosMessageBuffer.copyIn
    dsimp only
    apply List.ext_getElem
    · rw [List.length_map, List.length_range]
    · intro j hj hj'
      have hsub : blk + j - blk = j := by omega
      rw [List.getElem_map, List.getElem_range, if_pos (by omega), hsub, List.getElem?_eq_getElem hj']
      exact UInt8.ofNat_toNat

/-! ## The invariant -/

/-- The block that a call holds. -/
def blockOf : BufferCall → Option ℕ
  | .allocated _ blk | .filled _ blk | .unsent blk | .copied _ blk | .drained blk => some blk
  | .accepted env | .rejected _ env => some env.blk
  | .draining | .resetting => none

/-- The block that the call of a caller holds. -/
def held (s : BufferSystem p ι) (i : ι) : Option ℕ := (s.calls i).bind blockOf

/-- The blocks that are out are those of the queued envelopes and those held by calls, each once. -/
structure Conserves (s : BufferSystem p ι) : Prop where
  pool : PoolOk s.buffer.pool
  custody : Custody s.buffer.pool.outstanding (s.buffer.eq.map MsgEnvelope.blk) (held s)

/-- What a call knows of its message. -/
def CallOk (m : FrtosMessageBuffer p) : BufferCall → Prop
  | .allocated data _ => data.length ≤ m.pool.pool.blockSize
  | .filled data blk => data.length ≤ m.pool.pool.blockSize ∧ m.payload ⟨data.length, blk⟩ = data
  | .accepted env | .rejected _ env => env.len ≤ m.pool.pool.blockSize
  | _ => True

/-- INTERNAL: the invariant. -/
structure BufferOk (s : BufferSystem p ι) : Prop extends Conserves s where
  capacity : s.buffer.pool.pool.capacity = s.buffer.capacity
  maxMsgSize : s.buffer.maxMsgSize ≤ s.buffer.pool.pool.blockSize
  queued : ∀ env ∈ s.buffer.eq, env.len ≤ s.buffer.pool.pool.blockSize
  calls : ∀ i call, s.calls i = some call → CallOk s.buffer call

/-- What does not touch the block of a call leaves what the call knows. -/
theorem CallOk.touches {b : Option ℕ} {call : BufferCall} (h : CallOk m call) (ht : Touches b m m')
    (hout : ∀ c ∈ blockOf call, c ∈ m.pool.outstanding ∧ b ≠ some c) : CallOk m' call := by
  cases call with
  | allocated data blk =>
    unfold CallOk at h ⊢
    rw [ht.blockSize]
    exact h
  | filled data blk =>
    obtain ⟨hmem, hne⟩ := hout blk rfl
    refine ⟨?_, ?_⟩
    · rw [ht.blockSize]
      exact h.1
    · rw [ht.payload ⟨data.length, blk⟩ hmem hne h.1]
      exact h.2
  | accepted env =>
    unfold CallOk at h ⊢
    rw [ht.blockSize]
    exact h
  | rejected fromIsr env =>
    unfold CallOk at h ⊢
    rw [ht.blockSize]
    exact h
  | unsent _ | copied _ _ | draining | drained _ | resetting => trivial

theorem BufferOk.held_of_calls {call : BufferCall} (hi : s.calls i = some call) : held s i = blockOf call := by
  unfold held
  rw [hi]
  rfl

theorem BufferOk.mem_of_held (h : BufferOk s) (hi : held s i = some blk) : blk ∈ s.buffer.pool.outstanding :=
  (h.custody.iff blk).mpr (.inr ⟨i, hi⟩)

theorem BufferOk.mem_of_queued (h : BufferOk s) {env : MsgEnvelope} (henv : env ∈ s.buffer.eq) :
    env.blk ∈ s.buffer.pool.outstanding :=
  (h.custody.iff env.blk).mpr (.inl (List.mem_map_of_mem henv))

/-- INTERNAL: the envelope queue has room for every block that is held. -/
theorem BufferOk.room (h : BufferOk s) (hi : held s i = some blk) : s.buffer.eq.length < s.buffer.capacity := by
  have hroom := h.custody.room hi
  have hle := h.pool.length_le
  rw [List.length_map] at hroom
  rw [h.capacity] at hle
  omega

variable [DecidableEq ι]

theorem held_goto (x : Option BufferCall) : held (s.goto i m' x) = Function.update (held s) i (x.bind blockOf) := by
  funext j
  unfold held BufferSystem.goto
  by_cases hj : j = i
  · subst hj
    simp
  · simp [hj]

/-- INTERNAL: the invariant after a step that touches at most the block of the caller. -/
theorem BufferOk.goto {b : Option ℕ} {x : Option BufferCall} (h : BufferOk s) (ht : Touches b s.buffer m')
    (hb : b = none ∨ held s i = b)
    (hcustody : Custody m'.pool.outstanding (m'.eq.map MsgEnvelope.blk)
      (Function.update (held s) i (x.bind blockOf)))
    (hqueued : ∀ env ∈ m'.eq, env.len ≤ s.buffer.pool.pool.blockSize)
    (hcall : ∀ call ∈ x, CallOk m' call) : BufferOk (s.goto i m' x) where
  pool := ht.pool
  custody := by
    rw [held_goto]
    exact hcustody
  capacity := by
    have := h.capacity
    unfold BufferSystem.goto
    rw [ht.poolCapacity, ht.capacity, this]
  maxMsgSize := by
    have := h.maxMsgSize
    unfold BufferSystem.goto
    rw [ht.maxMsgSize, ht.blockSize]
    exact this
  queued env henv := by
    unfold BufferSystem.goto
    rw [ht.blockSize]
    exact hqueued env henv
  calls j call hj := by
    unfold BufferSystem.goto at hj ⊢
    dsimp only at hj ⊢
    by_cases hji : j = i
    · subst hji
      rw [Function.update_self] at hj
      exact hcall call hj
    · rw [Function.update_of_ne hji] at hj
      refine (h.calls j call hj).touches ht fun c hc => ?_
      have hheld : held s j = some c := by
        rw [BufferOk.held_of_calls hj]
        exact hc
      refine ⟨h.mem_of_held hheld, ?_⟩
      -- no other call holds the block of the caller
      obtain hb | hb := hb
      · rw [hb]
        exact nofun
      · intro hbc
        exact hji (h.custody.heldOnce j i c hheld (hb.trans hbc))

/-! ## Creation -/

/-- What the constructors assert of their arguments, and a storage that is in the address space. -/
structure Sized (p maxMsgSize msgCount storage : ℕ) : Prop where
  count_pos : 0 < msgCount
  count_le : msgCount ≤ capacityMax
  size_pos : 0 < maxMsgSize
  storage_pos : storage ≠ 0
  aligned : storage % blockAlign p = 0
  size : maxMsgSize + (blockAlign p - 1) < 2 ^ (8 * 2 ^ p)
  fits : storage + msgCount * alignBlockSize p maxMsgSize < 2 ^ (8 * 2 ^ p)

/-- A buffer that one of the two constructors has made. -/
inductive Created : FrtosMessageBuffer p → Prop
  | heap {maxMsgSize msgCount storage : ℕ} {memory : ℕ → ℕ} (h : Sized p maxMsgSize msgCount storage) :
    Created (.heap maxMsgSize msgCount storage memory)
  | static {maxMsgSize msgCount storage : ℕ} {memory : ℕ → ℕ} (h : Sized p maxMsgSize msgCount storage) :
    Created (.static maxMsgSize msgCount storage memory)

/-- A size that is aligned is not changed. -/
theorem alignBlockSize_of_dvd {size : ℕ} (hsize : size + (blockAlign p - 1) < 2 ^ (8 * 2 ^ p))
    (hge : blockAlign p ≤ size) (hdvd : blockAlign p ∣ size) :
    alignBlockSize p size = size := by
  have hpos : 0 < blockAlign p := Nat.two_pow_pos p
  have hp : p ≤ 8 * 2 ^ p := by
    have := Nat.lt_two_pow_self (n := p)
    omega
  obtain ⟨k, rfl⟩ := hdvd
  have hdiv : (blockAlign p * k + (blockAlign p - 1)) /
      blockAlign p = k := by
    have hlt : (blockAlign p - 1) / blockAlign p = 0 := Nat.div_eq_of_lt (by omega)
    rw [Nat.mul_add_div hpos, hlt, Nat.add_zero]
  have hword : word p (blockAlign p * k + (blockAlign p - 1)) =
      blockAlign p * k + (blockAlign p - 1) := Nat.mod_eq_of_lt hsize
  have hand : blockAlign p * k + (blockAlign p - 1) &&&
      (2 ^ (8 * 2 ^ p) - blockAlign p) = blockAlign p *
        ((blockAlign p * k + (blockAlign p - 1)) / blockAlign p) :=
    and_high_bits hp hsize
  unfold alignBlockSize
  rw [hword, hand, hdiv]
  exact if_neg (Nat.not_lt.mpr hge)

omit [DecidableEq ι] in
theorem Created.ok (h : Created m) : BufferOk (BufferSystem.initial m : BufferSystem p ι) := by
  have hblocks : ∀ {maxMsgSize msgCount storage : ℕ}, Sized p maxMsgSize msgCount storage →
      0 < alignBlockSize p maxMsgSize ∧ maxMsgSize ≤ alignBlockSize p maxMsgSize ∧
        alignBlockSize p (alignBlockSize p maxMsgSize) =
          alignBlockSize p maxMsgSize ∧
        alignBlockSize p maxMsgSize + (blockAlign p - 1) < 2 ^ (8 * 2 ^ p) ∧
        msgCount * alignBlockSize p maxMsgSize < 2 ^ (8 * 2 ^ p) := by
    intro maxMsgSize msgCount storage hsized
    obtain ⟨hge, hraw, hdvd⟩ := alignBlockSize_ok hsized.size
    have hpos : 0 < blockAlign p := Nat.two_pow_pos p
    have hstorage : blockAlign p ≤ storage :=
      Nat.le_of_dvd (Nat.pos_of_ne_zero hsized.storage_pos) (Nat.dvd_of_mod_eq_zero hsized.aligned)
    have hmul : 1 * alignBlockSize p maxMsgSize ≤
        msgCount * alignBlockSize p maxMsgSize := Nat.mul_le_mul_right _ hsized.count_pos
    have hfits := hsized.fits
    have hsize : alignBlockSize p maxMsgSize + (blockAlign p - 1) < 2 ^ (8 * 2 ^ p) := by omega
    refine ⟨by omega, hraw, alignBlockSize_of_dvd hsize hge hdvd, hsize, by omega⟩
  have hinitial : ∀ {pool : BlockMemoryPool p} {msgCount maxMsgSize : ℕ}, Constructed pool →
      pool.capacity = msgCount → maxMsgSize ≤ pool.blockSize →
      BufferOk (BufferSystem.initial ⟨⟨pool, []⟩, [], msgCount, maxMsgSize⟩ : BufferSystem p ι) :=
    fun hpool hcapacity hmax =>
      { pool := PoolOk.constructed hpool
        custody := Custody.initial
        capacity := hcapacity
        maxMsgSize := hmax
        queued := nofun
        calls := nofun }
  cases h with
  | @heap maxMsgSize msgCount storage memory hsized =>
    obtain ⟨hpos, hmax, hidem, hsize, -⟩ := hblocks hsized
    have hpool : Constructed (owned msgCount (alignBlockSize p maxMsgSize) storage
        memory : BlockMemoryPool p) := by
      refine .owned ⟨hsized.count_pos, hsized.count_le⟩ hpos hsized.storage_pos hsized.aligned hsize ?_
      rw [hidem]
      exact hsized.fits
    have hfields := buildLoop_fields msgCount
      { storage := storage, freeList := 0, blockSize := alignBlockSize p
          (alignBlockSize p maxMsgSize), capacity := msgCount, usedCount := 0, memory := memory :
        BlockMemoryPool p }
    have howned : (owned msgCount (alignBlockSize p maxMsgSize) storage memory :
        BlockMemoryPool p) = buildLoop msgCount _ := if_pos hsized.storage_pos
    refine hinitial hpool ?_ ?_
    · rw [howned]
      exact hfields.2.2
    · rw [howned, hfields.2.1, hidem]
      exact hmax
  | @static maxMsgSize msgCount storage memory hsized =>
    obtain ⟨hpos, hmax, hidem, hsize, hproduct⟩ := hblocks hsized
    have hword : word p (msgCount * alignBlockSize p maxMsgSize) =
        msgCount * alignBlockSize p maxMsgSize := Nat.mod_eq_of_lt hproduct
    have hpool : Constructed (external msgCount (alignBlockSize p maxMsgSize) storage
        (word p (msgCount * alignBlockSize p maxMsgSize)) memory :
        BlockMemoryPool p) := by
      refine .external ⟨hsized.count_pos, hsized.count_le⟩ hpos hsized.storage_pos hsized.aligned hsize ?_ ?_
      · rw [hidem]
        exact hproduct
      · rw [hidem, hword, Nat.min_self]
        exact hsized.fits
    refine hinitial hpool ?_ ?_
    · refine (buildLoop_fields _ _).2.2.trans ?_
      dsimp only
      rw [hidem, hword]
      exact if_neg (Nat.lt_irrefl _)
    · have hbs : (external msgCount (alignBlockSize p maxMsgSize) storage
          (word p (msgCount * alignBlockSize p maxMsgSize)) memory : BlockMemoryPool p).blockSize =
          alignBlockSize p (alignBlockSize p maxMsgSize) := (buildLoop_fields _ _).2.1
      rw [hbs, hidem]
      exact hmax

end Stk.Analysis
