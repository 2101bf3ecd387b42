import Stk.Analysis.BlockGeometry
import Stk.Analysis.HeapAccounting
import Stk.Model.ObjectCreation

/-!
# The storage of created objects

Each of the three calls computes the size of the storage modulo `2 ^ 32`, and its slots or blocks lie at
multiples of the item size.  An object that is returned has all its items inside its storage unless the
product overflows, over the natural numbers (`objectCreation_sizes`).
-/

set_option autoImplicit false

namespace Stk.Analysis

open Stk.Model BlockMemoryPool MemoryAllocator

/-- INTERNAL: the number of 32-bit words. -/
theorem wordRange : 2 ^ (8 * 2 ^ 2) = 4294967296 := rfl

/-- The `n` bytes at `x` are in the region. -/
def Region.Contains (r : Region) (x n : ℕ) : Prop := r.base ≤ x ∧ x + n ≤ r.base + r.size

/-- A heap after any calls and any answers of `malloc`. -/
def HeapReached {p : ℕ} (s : HeapInUse p) : Prop :=
  ∃ capacity memory ops, capacity < 2 ^ (8 * 2 ^ p) ∧
    Runs.Along HeapInUse.step HeapInUse.Proper (HeapInUse.initial (p := p) capacity memory) ops ∧
    s = ops.foldl HeapInUse.step (HeapInUse.initial (p := p) capacity memory)

/-! ## FreeRTOS queues -/

/-- A queue of `xQueueCreate` has room for its items, whatever the heap has been used for before and whatever
`malloc` returns: its buffer is behind the header of a live chunk. -/
def XQueueCreateSound (controlSize queueLength itemSize : ℕ) : Prop :=
  ∀ (s s' : HeapInUse 2) (irqContext : Bool) (controlRegion bufferRegion : ℕ) (q : QueueObject),
    HeapReached s → s.Proper (.allocate controlSize controlRegion) →
    (s.step (.allocate controlSize controlRegion)).Proper
      (.allocate (word 2 (queueLength * itemSize)) bufferRegion) →
    xQueueCreate s irqContext controlSize controlRegion bufferRegion queueLength itemSize = (some q, s') →
    ∃ c ∈ s'.live, q.buffer = c.region + 4 ∧ queueLength * itemSize ≤ c.size - 4 ∧
      ∀ i, i < queueLength → Region.Contains ⟨q.buffer, c.size - 4⟩ (q.slot i) itemSize

/-- The rounded sizes of the two chunks do not fit an address space. -/
def ChunksExceed (controlSize size : ℕ) : Prop := 2 ^ 32 - 4 < chunkSize 2 controlSize + chunkSize 2 size

theorem HeapReached.capacity_lt {p : ℕ} {s : HeapInUse p} (h : HeapReached s) :
    s.allocator.stats.capacity < 2 ^ (8 * 2 ^ p) := by
  obtain ⟨capacity, memory, ops, hcapacity, hops, rfl⟩ := h
  apply hops.invariant (I := fun s => s.allocator.stats.capacity < 2 ^ (8 * 2 ^ p)) _ hcapacity
  intro s op hs _
  cases op with
  | allocate size region =>
    rcases s.allocator.allocate_cases size region with hnull | ⟨-, -, -, hcall⟩
    · rw [HeapInUse.step_null hnull]
      exact hs
    · by_cases hptr : word p (region + 2 ^ p) = 0
      · unfold HeapInUse.step
        dsimp only
        rw [hcall]
        dsimp only
        rw [if_pos hptr]
        exact hs
      · rw [HeapInUse.step_allocated hcall hptr]
        exact hs
  | free ptr =>
    cases hfree : s.allocator.free ptr with
    | none =>
      unfold HeapInUse.step
      dsimp only
      rw [hfree]
      exact hs
    | some allocator =>
      rw [HeapInUse.step_freed hfree]
      unfold MemoryAllocator.free AllocatorStats.recordFree at hfree
      split_ifs at hfree with hzero hle
      · obtain rfl := Option.some.inj hfree
        exact hs
      · obtain rfl := Option.some.inj hfree
        exact hs
      · cases hfree
  | write words => exact hs

/-- INTERNAL: what is available once a chunk has been recorded. -/
theorem available_recordAllocate {s : AllocatorStats 2} (hcap : s.capacity < 2 ^ 32) {size : ℕ} (hpos : 0 < size)
    (hroom : size ≤ s.getAvailable) : (s.recordAllocate size).getAvailable + size = s.getAvailable := by
  have hlt : s.allocated < s.capacity := by
    unfold AllocatorStats.getAvailable at hroom
    split_ifs at hroom <;> omega
  have havail : s.getAvailable = s.capacity - s.allocated := if_pos hlt
  rw [havail] at hroom ⊢
  have hsum : (s.recordAllocate size).allocated = s.allocated + size := by
    apply Nat.mod_eq_of_lt
    rw [wordRange]
    omega
  have hcapacity : (s.recordAllocate size).capacity = s.capacity := rfl
  unfold AllocatorStats.getAvailable
  rw [hsum, hcapacity]
  split_ifs <;> omega

/-- INTERNAL: a queue that `xQueueCreate` returns has been given two chunks. -/
theorem xQueueCreate_some {s s' : HeapInUse 2} {irqContext : Bool} {controlSize controlRegion bufferRegion : ℕ}
    {queueLength itemSize : ℕ} {q : QueueObject}
    (h : xQueueCreate s irqContext controlSize controlRegion bufferRegion queueLength itemSize = (some q, s')) :
    0 < itemSize ∧ word 2 (queueLength * itemSize) ≠ 0 ∧
      (s.allocator.allocate controlSize controlRegion).1 ≠ 0 ∧
      ∃ allocator, (s.step (.allocate controlSize controlRegion)).allocator.allocate
          (word 2 (queueLength * itemSize)) bufferRegion = (q.buffer, allocator) ∧
        q.buffer ≠ 0 ∧ q = ⟨q.buffer, queueLength, itemSize⟩ ∧
        s' = (s.step (.allocate controlSize controlRegion)).step
          (.allocate (word 2 (queueLength * itemSize)) bufferRegion) := by
  unfold xQueueCreate objAllocArray at h
  dsimp only at h
  split_ifs at h with hargs hlarge hcontrol hzero hnull hbuffer
  · cases h
  · cases h
  · cases h
  · cases h
  · exact absurd rfl hnull
  · cases h
  · obtain ⟨hq, rfl⟩ := Prod.mk.inj h
    obtain rfl := Option.some.inj hq
    have hitem : itemSize ≠ 0 := fun hitem => hargs (by simp [hitem])
    exact ⟨Nat.pos_of_ne_zero hitem, hzero, hcontrol, _, rfl, hbuffer, rfl, rfl⟩

/-- INTERNAL: where the product does not wrap, the second chunk has all its bytes. -/
theorem xQueueCreate_fits {controlSize queueLength itemSize : ℕ} (hfits : queueLength * itemSize + 8 ≤ 2 ^ 32) :
    XQueueCreateSound controlSize queueLength itemSize := by
  intro s s' irqContext controlRegion bufferRegion q hs hcontrol hbuffer hcall
  obtain ⟨hitem, hzero, -, allocator, hallocate, hptr, hq, rfl⟩ := xQueueCreate_some hcall
  have hword : word 2 (queueLength * itemSize) = queueLength * itemSize :=
    Nat.mod_eq_of_lt (by rw [wordRange]; omega)
  rw [hword] at hzero hbuffer hallocate ⊢
  have hlarge := (le_chunkSize_iff 2 (queueLength * itemSize)).mpr (by unfold FitsWord; rw [wordRange]; omega)
  generalize hs₁ : s.step (.allocate controlSize controlRegion) = s₁ at hbuffer hallocate ⊢
  obtain ⟨-, hfresh⟩ := hbuffer
  rcases s₁.allocator.allocate_cases (queueLength * itemSize) bufferRegion with hnull | ⟨-, hroom, hregion, hsome⟩
  · rw [hallocate] at hnull
    exact absurd (Prod.mk.inj hnull).1 hptr
  · obtain ⟨hspace, -⟩ := hfresh.resolve_left hregion
    rw [wordRange] at hspace
    have hbase : q.buffer = bufferRegion + 4 := by
      rw [hallocate] at hsome
      rw [(Prod.mk.inj hsome).1]
      exact Nat.mod_eq_of_lt (by rw [wordRange]; omega)
    rw [HeapInUse.step_allocated hallocate hptr]
    refine ⟨_, List.mem_cons_self, hbase, by dsimp only; omega, fun i hi => ?_⟩
    have hinside : word 2 (q.buffer + word 2 (i * itemSize)) = q.buffer + i * itemSize ∧
        q.buffer + i * itemSize + itemSize ≤ q.buffer + (chunkSize 2 (queueLength * itemSize) - 4) :=
      item_inside (by rw [wordRange]; omega) hitem (by omega) (by rw [wordRange]; omega) hi
    obtain ⟨heq, hend⟩ := hinside
    have hslot : q.slot i = q.buffer + i * itemSize := by
      rw [hq]
      exact heq
    rw [hslot]
    exact ⟨Nat.le_add_right _ _, hend⟩

/-- INTERNAL: two chunks are never larger than the heap. -/
theorem chunks_le {s : HeapInUse 2} (hs : HeapReached s) {controlSize controlRegion size region : ℕ}
    (hpos : 0 < chunkSize 2 controlSize)
    (hcontrol : (s.allocator.allocate controlSize controlRegion).1 ≠ 0)
    (hsecond : ((s.step (.allocate controlSize controlRegion)).allocator.allocate size region).1 ≠ 0) :
    chunkSize 2 controlSize + chunkSize 2 size < 2 ^ 32 := by
  have hcap := hs.capacity_lt
  rw [wordRange] at hcap
  rcases s.allocator.allocate_cases controlSize controlRegion with hnull | ⟨-, hroom, -, hcall⟩
  · rw [hnull] at hcontrol
    exact absurd rfl hcontrol
  · rw [hcall] at hcontrol
    rw [HeapInUse.step_allocated hcall hcontrol] at hsecond
    dsimp only at hsecond
    have havail := available_recordAllocate hcap hpos hroom
    have hle : s.allocator.stats.getAvailable ≤ s.allocator.stats.capacity := by
      unfold AllocatorStats.getAvailable
      split_ifs <;> omega
    rcases MemoryAllocator.allocate_cases ⟨s.allocator.stats.recordAllocate (chunkSize 2 controlSize),
        Function.update s.allocator.memory controlRegion (chunkSize 2 controlSize)⟩ size region
      with hnull | ⟨-, hroom', -, -⟩
    · rw [hnull] at hsecond
      exact absurd rfl hsecond
    · dsimp only at hroom'
      omega

/-- INTERNAL: a request that is answered. -/
theorem step_answered {s : HeapInUse 2} {size region : ℕ} (hsize : size ≠ 0)
    (hroom : chunkSize 2 size ≤ s.allocator.stats.getAvailable) (hregion : region ≠ 0) (hend : region + 4 < 2 ^ 32) :
    (s.allocator.allocate size region).1 = region + 4 ∧
      (s.step (.allocate size region)).live = ⟨region, chunkSize 2 size, size⟩ :: s.live ∧
      (s.step (.allocate size region)).allocator.stats =
        s.allocator.stats.recordAllocate (chunkSize 2 size) := by
  have hcall := MemoryAllocator.allocate_eq hsize hroom hregion
  have hptr : word 2 (region + 2 ^ 2) = region + 4 := Nat.mod_eq_of_lt hend
  rw [hptr] at hcall
  rw [HeapInUse.step_allocated hcall (by omega), hcall]
  exact ⟨rfl, rfl, rfl⟩

/-- INTERNAL: `xQueueCreate` with both requests answered. -/
theorem xQueueCreate_eq {s : HeapInUse 2} {controlSize controlRegion bufferRegion queueLength itemSize : ℕ}
    (hlength : 0 < queueLength) (hmax : queueLength ≤ queueCapacityMax) (hitem : 0 < itemSize)
    (hzero : word 2 (queueLength * itemSize) ≠ 0)
    (hcontrol : (s.allocator.allocate controlSize controlRegion).1 ≠ 0)
    (hbuffer : ((s.step (.allocate controlSize controlRegion)).allocator.allocate
      (word 2 (queueLength * itemSize)) bufferRegion).1 ≠ 0) :
    xQueueCreate s false controlSize controlRegion bufferRegion queueLength itemSize =
      (some ⟨((s.step (.allocate controlSize controlRegion)).allocator.allocate
          (word 2 (queueLength * itemSize)) bufferRegion).1, queueLength, itemSize⟩,
        (s.step (.allocate controlSize controlRegion)).step
          (.allocate (word 2 (queueLength * itemSize)) bufferRegion)) := by
  have hargs : ¬ (false || queueLength == 0 || itemSize == 0) = true := by
    simp [Nat.ne_of_gt hlength, Nat.ne_of_gt hitem]
  unfold xQueueCreate objAllocArray
  dsimp only
  rw [if_neg hargs, if_neg (Nat.not_lt_of_le hmax), if_neg hcontrol, if_neg hzero]
  dsimp only
  rw [if_neg hbuffer]

/-- `xQueueCreate` and its product: where the product is no multiple of `2 ^ 32` and leaves no room for header and
rounding, the queue that is returned is too small, unless the heap has not even the bytes asked for. -/
theorem xQueueCreateSound_iff {controlSize queueLength itemSize : ℕ} (hcontrol : 0 < controlSize)
    (hsmall : controlSize < 2 ^ 16) (hlength : 0 < queueLength) (hmax : queueLength ≤ queueCapacityMax)
    (hitem : 0 < itemSize) : XQueueCreateSound controlSize queueLength itemSize ↔
      queueLength * itemSize + 8 ≤ 2 ^ 32 ∨ 2 ^ 32 ∣ queueLength * itemSize ∨
        ChunksExceed controlSize (word 2 (queueLength * itemSize)) := by
  have hsize := (le_chunkSize_iff 2 controlSize).mpr (by unfold FitsWord; rw [wordRange]; omega)
  have hle := chunkSize_le 2 controlSize
  have hdvd : ∀ size, 4 ∣ chunkSize 2 size := by
    intro size
    rw [chunkSize_rounds]
    exact Nat.dvd_mul_right _ _
  constructor
  · intro hsound
    by_contra hbad
    push Not at hbad
    obtain ⟨hlarge, hmultiple, hroom⟩ := hbad
    have hzero : word 2 (queueLength * itemSize) ≠ 0 := fun hzero => hmultiple (Nat.dvd_of_mod_eq_zero hzero)
    unfold ChunksExceed at hroom
    -- a heap of the whole address space, with the two chunks at its start
    let s := HeapInUse.initial (p := 2) (2 ^ 32 - 1) fun _ => 0
    have havail : s.allocator.stats.getAvailable = 2 ^ 32 - 1 := rfl
    obtain ⟨hptr, hlive, hstats⟩ := @step_answered s controlSize 4 (Nat.ne_of_gt hcontrol) (by omega) (by decide)
      (by decide)
    have hleft : (s.allocator.stats.recordAllocate (chunkSize 2 controlSize)).getAvailable + chunkSize 2 controlSize =
        s.allocator.stats.getAvailable := available_recordAllocate (by decide) (by omega) (by omega)
    rw [← hstats] at hleft
    obtain ⟨hptr', hlive', -⟩ := @step_answered (s.step (.allocate controlSize 4)) _ (4 + chunkSize 2 controlSize)
      hzero (by omega) (by omega) (by omega)
    obtain ⟨c, hc, hbuffer, hproduct, -⟩ := hsound s _ false 4 (4 + chunkSize 2 controlSize) _
      ⟨2 ^ 32 - 1, fun _ => 0, [], by decide, trivial, rfl⟩
      ⟨by rw [wordRange]; omega, .inr ⟨by rw [wordRange]; omega, fun c hc => nomatch hc⟩⟩
      ⟨Nat.mod_lt _ (Nat.two_pow_pos _), .inr ⟨by rw [wordRange]; omega, by
        rw [hlive]
        intro c hc
        obtain rfl := List.mem_singleton.mp hc
        exact .inl (Nat.le_refl _)⟩⟩
      (xQueueCreate_eq hlength hmax hitem hzero (by omega) (by omega))
    rw [hptr'] at hbuffer
    rw [hlive', hlive] at hc
    rcases List.mem_cons.mp hc with rfl | hc
    · dsimp only at hproduct
      have hchunk := chunkSize_le 2 (word 2 (queueLength * itemSize))
      by_cases hwrap : queueLength * itemSize < 2 ^ 32
      · have hword : word 2 (queueLength * itemSize) = queueLength * itemSize := Nat.mod_eq_of_lt hwrap
        rw [hword] at hproduct hzero
        have hfits := (le_chunkSize_iff 2 (queueLength * itemSize)).mp (by omega)
        unfold FitsWord at hfits
        rw [wordRange] at hfits
        omega
      · have hword : word 2 (queueLength * itemSize) ≤ queueLength * itemSize - 2 ^ 32 := by
          unfold word
          rw [wordRange]
          omega
        omega
    · obtain rfl := List.mem_singleton.mp hc
      dsimp only at hbuffer
      omega
  · rintro (hfits | hmultiple | hexceed)
    · exact xQueueCreate_fits hfits
    · intro s s' irqContext controlRegion bufferRegion q hs _ _ hcall
      obtain ⟨-, hzero, -⟩ := xQueueCreate_some hcall
      exact absurd (Nat.mod_eq_zero_of_dvd hmultiple) hzero
    · intro s s' irqContext controlRegion bufferRegion q hs _ _ hcall
      obtain ⟨-, -, hfirst, allocator, hallocate, hptr, -⟩ := xQueueCreate_some hcall
      have hsum := chunks_le hs (by omega) hfirst (by rw [hallocate]; exact hptr)
      have hfour := hdvd controlSize
      have hfour' := hdvd (word 2 (queueLength * itemSize))
      unfold ChunksExceed at hexceed
      omega

/-! ## CMSIS queues and pools -/

/-- The memory of the caller lies in the address space, and so do the bytes that an allocation function
returns. -/
structure InSpace (attr : ObjectAttr) (heap size : ℕ) : Prop where
  caller : attr.mem + attr.memSize ≤ 2 ^ 32
  answer : heap + size ≤ 2 ^ 32

/-- A queue of `osMessageQueueNew` has room for its items, in the memory of the caller or in what `operator new`
returns. -/
def OsMessageQueueNewSound (controlSize msgCount msgSize : ℕ) : Prop :=
  ∀ (irqContext newSucceeds : Bool) (heap : ℕ) (attr : ObjectAttr) (q : QueueObject) (r : Region),
    InSpace attr heap (word 2 (msgCount * msgSize)) →
    osMessageQueueNew irqContext controlSize newSucceeds heap msgCount msgSize attr = some (q, r) →
    msgCount * msgSize ≤ r.size ∧ ∀ i, i < msgCount → Region.Contains r (q.slot i) msgSize

/-- INTERNAL: what `osMessageQueueNew` has compared with the storage. -/
theorem osMessageQueueNew_some {irqContext newSucceeds : Bool} {controlSize heap msgCount msgSize : ℕ}
    {attr : ObjectAttr} {q : QueueObject} {r : Region} (hspace : InSpace attr heap (word 2 (msgCount * msgSize)))
    (h : osMessageQueueNew irqContext controlSize newSucceeds heap msgCount msgSize attr = some (q, r)) :
    q = ⟨r.base, msgCount, msgSize⟩ ∧ word 2 (msgCount * msgSize) ≤ r.size ∧ r.base + r.size ≤ 2 ^ 32 := by
  unfold osMessageQueueNew at h
  dsimp only at h
  split_ifs at h with hargs hcaller hcontrol hcontrol hnull
  · obtain ⟨rfl, rfl⟩ := Prod.mk.inj (Option.some.inj h)
    exact ⟨rfl, hcaller.2, hspace.caller⟩
  · obtain ⟨rfl, rfl⟩ := Prod.mk.inj (Option.some.inj h)
    exact ⟨rfl, Nat.le_refl _, hspace.answer⟩

theorem osMessageQueueNewSound_iff {controlSize msgCount msgSize : ℕ} (hcount : 0 < msgCount)
    (hmax : msgCount ≤ queueCapacityMax) (hsize : 0 < msgSize) :
    OsMessageQueueNewSound controlSize msgCount msgSize ↔ msgCount * msgSize < 2 ^ 32 := by
  constructor
  · intro hsound
    have hword : word 2 (msgCount * msgSize) < 2 ^ 32 := Nat.mod_lt _ (Nat.two_pow_pos _)
    have hargs : ¬ (false || msgCount == 0 || msgSize == 0 || decide (queueCapacityMax < msgCount)) = true := by
      simp [Nat.ne_of_gt hcount, Nat.ne_of_gt hsize, hmax]
    -- memory of the caller with exactly the wrapped product of bytes
    have hcall : osMessageQueueNew false controlSize true 0 msgCount msgSize
        ⟨0, 0, 1, word 2 (msgCount * msgSize)⟩ =
          some (⟨1, msgCount, msgSize⟩, ⟨1, word 2 (msgCount * msgSize)⟩) := by
      unfold osMessageQueueNew
      rw [if_neg hargs]
      dsimp only
      rw [if_pos ⟨Nat.one_ne_zero, Nat.le_refl _⟩]
      rfl
    have hlarge := (hsound false true 0 _ _ _ ⟨by dsimp only; omega, by omega⟩ hcall).1
    exact Nat.lt_of_le_of_lt hlarge hword
  · intro hfits irqContext newSucceeds heap attr q r hspace hcall
    obtain ⟨rfl, hlarge, hend⟩ := osMessageQueueNew_some hspace hcall
    have hword : word 2 (msgCount * msgSize) = msgCount * msgSize := Nat.mod_eq_of_lt hfits
    rw [hword] at hlarge
    refine ⟨hlarge, fun i hi => ?_⟩
    obtain ⟨heq, hin⟩ := item_inside (p := 2) hfits hsize hlarge hend hi
    unfold Region.Contains QueueObject.slot
    dsimp only
    rw [heq]
    exact ⟨Nat.le_add_right _ _, hin⟩

/-- A pool of `osMemoryPoolNew` has room for its blocks, in the memory of the caller or in what `malloc`
returns. -/
def OsMemoryPoolNewSound (controlSize blockCount blockSize : ℕ) : Prop :=
  ∀ (irqContext newSucceeds : Bool) (heap : ℕ) (memory : ℕ → ℕ) (attr : ObjectAttr) (m : BlockMemoryPool 2)
    (r : Region), InSpace attr heap (word 2 (blockCount * alignBlockSize 2 blockSize)) →
    osMemoryPoolNew irqContext controlSize newSucceeds heap memory blockCount blockSize attr = some (m, r) →
    blockCount * alignedSize 2 blockSize ≤ r.size ∧
      ∀ i, i < blockCount → Region.Contains r (word 2 (m.storage + word 2 (i * m.blockSize))) m.blockSize

/-- INTERNAL: what `osMemoryPoolNew` has compared with the storage. -/
theorem osMemoryPoolNew_some {irqContext newSucceeds : Bool} {controlSize heap blockCount blockSize : ℕ}
    {memory : ℕ → ℕ} {attr : ObjectAttr} {m : BlockMemoryPool 2} {r : Region}
    (hspace : InSpace attr heap (word 2 (blockCount * alignBlockSize 2 blockSize)))
    (h : osMemoryPoolNew irqContext controlSize newSucceeds heap memory blockCount blockSize attr = some (m, r)) :
    m.storage = r.base ∧ m.blockSize = alignBlockSize 2 blockSize ∧
      word 2 (blockCount * alignBlockSize 2 blockSize) ≤ r.size ∧ r.base + r.size ≤ 2 ^ 32 := by
  unfold osMemoryPoolNew at h
  dsimp only at h
  split_ifs at h with hargs hcaller hcontrol hcontrol hzero hnull hnull
  · obtain ⟨rfl, rfl⟩ := Prod.mk.inj (Option.some.inj h)
    obtain ⟨hstorage, hsize, -⟩ := buildLoop_fields (p := 2) _ _
    exact ⟨hstorage, hsize, hcaller.2, hspace.caller⟩
  · exact absurd rfl hnull
  · obtain ⟨rfl, rfl⟩ := Prod.mk.inj (Option.some.inj h)
    unfold owned
    dsimp only
    rw [if_pos hnull]
    obtain ⟨hstorage, hsize, -⟩ := buildLoop_fields (p := 2) _ _
    exact ⟨hstorage, hsize, Nat.le_refl _, hspace.answer⟩

theorem osMemoryPoolNewSound_iff {controlSize blockCount blockSize : ℕ} (hcount : 0 < blockCount)
    (hsize : 0 < blockSize) : OsMemoryPoolNewSound controlSize blockCount blockSize ↔
      blockCount * alignedSize 2 blockSize < 2 ^ 32 := by
  constructor
  · intro hsound
    have hword : word 2 (blockCount * alignBlockSize 2 blockSize) < 2 ^ 32 := Nat.mod_lt _ (Nat.two_pow_pos _)
    have hfour : 4 ∣ word 2 (blockCount * alignBlockSize 2 blockSize) := by
      have hblock : 4 ∣ alignBlockSize 2 blockSize := by
        rw [alignBlockSize_rounds]
        rcases max_choice (blockAlign 2) (blockAlign 2 * (word 2 (blockSize + (blockAlign 2 - 1)) / blockAlign 2))
          with hmax | hmax
        · rw [hmax]
          exact Nat.dvd_refl 4
        · rw [hmax]
          exact Nat.dvd_mul_right 4 _
      exact (Nat.dvd_mod_iff (by decide)).mpr (hblock.mul_left _)
    have hargs : ¬ (false || blockCount == 0 || blockSize == 0) = true := by
      simp [Nat.ne_of_gt hcount, Nat.ne_of_gt hsize]
    -- memory of the caller with exactly the wrapped product of bytes
    have hcall : osMemoryPoolNew false controlSize true 0 (fun _ => 0) blockCount blockSize
        ⟨0, 0, 4, word 2 (blockCount * alignBlockSize 2 blockSize)⟩ =
          some (.external blockCount blockSize 4 (word 2 (blockCount * alignBlockSize 2 blockSize)) fun _ => 0,
            ⟨4, word 2 (blockCount * alignBlockSize 2 blockSize)⟩) := by
      unfold osMemoryPoolNew
      rw [if_neg hargs]
      dsimp only
      rw [if_pos ⟨by decide, Nat.le_refl _⟩]
      rfl
    have hlarge := (hsound false true 0 _ _ _ _ ⟨by dsimp only; omega, by omega⟩ hcall).1
    exact Nat.lt_of_le_of_lt hlarge hword
  · intro hfits irqContext newSucceeds heap memory attr m r hspace hcall
    have hnatural := alignBlockSize_natural hsize (rounding_fits hcount hfits)
    obtain ⟨hstorage, hblock, hlarge, hend⟩ := osMemoryPoolNew_some hspace hcall
    have hword : word 2 (blockCount * alignedSize 2 blockSize) = blockCount * alignedSize 2 blockSize :=
      Nat.mod_eq_of_lt hfits
    rw [hnatural, hword] at hlarge
    rw [hnatural] at hblock
    refine ⟨hlarge, fun i hi => ?_⟩
    obtain ⟨heq, hin⟩ := item_inside (p := 2) hfits (hsize.trans_le (le_alignedSize 2 blockSize)) hlarge hend hi
    unfold Region.Contains
    rw [hstorage, hblock, heq]
    exact ⟨Nat.le_add_right _ _, hin⟩

/-! ## The three calls -/

/-- **Sizes of created objects.**  For every accepted count and item size, an object that is returned has its
items inside its storage exactly if the product, over the natural numbers, fits the arithmetic that the call
does with it. -/
theorem objectCreation_sizes {controlSize count itemSize : ℕ} (hcontrol : 0 < controlSize)
    (hsmall : controlSize < 2 ^ 16) (hcount : 0 < count) (hitem : 0 < itemSize) :
    (count ≤ queueCapacityMax →
      (XQueueCreateSound controlSize count itemSize ↔ count * itemSize + 8 ≤ 2 ^ 32 ∨ 2 ^ 32 ∣ count * itemSize ∨
        ChunksExceed controlSize (word 2 (count * itemSize))) ∧
      (OsMessageQueueNewSound controlSize count itemSize ↔ count * itemSize < 2 ^ 32)) ∧
    (OsMemoryPoolNewSound controlSize count itemSize ↔ count * alignedSize 2 itemSize < 2 ^ 32) := by
  constructor
  · intro hmax
    constructor
    · exact xQueueCreateSound_iff hcontrol hsmall hcount hmax hitem
    · exact osMessageQueueNewSound_iff hcount hmax hitem
  · exact osMemoryPoolNewSound_iff hcount hitem

/-- Ten items of six bytes. -/
theorem tenItems_sound : XQueueCreateSound 128 10 6 ∧ OsMessageQueueNewSound 128 10 6 ∧
    OsMemoryPoolNewSound 128 10 6 := by
  obtain ⟨hqueues, hpool⟩ := @objectCreation_sizes 128 10 6 (by decide) (by decide) (by decide)
    (by decide)
  obtain ⟨hfrtos, hcmsis⟩ := hqueues (by decide)
  exact ⟨hfrtos.mpr (.inl (by decide)), hcmsis.mpr (by decide), hpool.mpr (by decide)⟩

/-- `0x8001` items of `0x20000` bytes: the product wraps to `0x20000`, and each call returns an object whose
storage ends behind the first item. -/
theorem wrappedProduct_returned :
    osMessageQueueNew false 128 true 0 0x8001 0x20000 ⟨0, 0, 4096, 0x20000⟩ =
        some (⟨4096, 0x8001, 0x20000⟩, ⟨4096, 0x20000⟩) ∧
      ¬ Region.Contains ⟨4096, 0x20000⟩ (QueueObject.slot ⟨4096, 0x8001, 0x20000⟩ 1) 0x20000 ∧
      ¬ OsMessageQueueNewSound 128 0x8001 0x20000 ∧ ¬ OsMemoryPoolNewSound 128 0x8001 0x20000 ∧
      ¬ XQueueCreateSound 128 0x8001 0x20000 := by
  refine ⟨by decide +kernel, ?_, ?_, ?_, ?_⟩
  · unfold Region.Contains
    decide +kernel
  · rw [osMessageQueueNewSound_iff (by decide) (by decide) (by decide)]
    decide
  · rw [osMemoryPoolNewSound_iff (by decide) (by decide)]
    decide +kernel
  · rw [xQueueCreateSound_iff (by decide) (by decide) (by decide) (by decide) (by decide)]
    unfold ChunksExceed
    decide +kernel

end Stk.Analysis
