import Stk.Model.Monitor

/-!
# Block memory pools

`memory::BlockMemoryPool` (stk_memory_blockpool.h) where a pointer has `2 ^ p` bytes.  Addresses are
numbers, the null pointer is 0, and `memory` has the word at every address; `size_t` and `Word`
arithmetic is modulo `2 ^ (8 * 2 ^ p)`.  The assertions are those of a release build: compiled out.
So is the search for a double free.
-/

set_option autoImplicit false

namespace Stk.Model

/-- The members of `BlockMemoryPool` and the words of the memory they point to. -/
structure BlockMemoryPool (p : ℕ) where
  storage : ℕ
  freeList : ℕ
  blockSize : ℕ
  capacity : ℕ
  usedCount : ℕ
  memory : ℕ → ℕ

/-- `m_cv`; the other sync objects of the system have other identities. -/
def cvPool : SyncId := .object 0

/-- What a call returns: `TimedAlloc` a pointer, `Free` whether it succeeded. -/
inductive PoolResult where
  | block (ptr : ℕ)
  | freed (success : Bool)
  | written
deriving DecidableEq

/-- A `TimedAlloc` inside `m_cv.Wait(cs_, timeout_ticks)`. -/
structure AllocFrame where
  timeout : ℤ
deriving DecidableEq

namespace BlockMemoryPool

variable {p : ℕ}

/-- `CAPACITY_MAX` (stk_memory_blockpool.h:102). -/
def capacityMax : ℕ := 0xFFFE

/-- `BLOCK_ALIGN`, the size of a pointer. -/
def blockAlign (p : ℕ) : ℕ := 2 ^ p

/-- A value of type `size_t` or `Word`. -/
def word (p x : ℕ) : ℕ := x % 2 ^ (8 * 2 ^ p)

/-- `AlignBlockSize` (stk_memory_blockpool.h:160-165). -/
def alignBlockSize (p rawSize : ℕ) : ℕ :=
  -- `~(BLOCK_ALIGN - 1)` has all bits from `p` on
  let aligned := word p (rawSize + (blockAlign p - 1)) &&& (2 ^ (8 * 2 ^ p) - blockAlign p)
  if aligned < blockAlign p then blockAlign p else aligned

/-- The loop of `BuildFreeList`, for the blocks below `i`. -/
def buildLoop : ℕ → BlockMemoryPool p → BlockMemoryPool p
  | 0, m => m
  | i + 1, m =>
    let blk := word p (m.storage + word p (i * m.blockSize))
    buildLoop i { m with memory := Function.update m.memory blk m.freeList, freeList := blk }

/-- `BuildFreeList` (stk_memory_blockpool.h:537-553). -/
def buildFreeList (m : BlockMemoryPool p) : BlockMemoryPool p :=
  buildLoop m.capacity { m with freeList := 0, usedCount := 0 }

/-- The constructor with external storage (stk_memory_blockpool.h:329-359). -/
def external (capacity rawBlockSize storage storageSize : ℕ) (memory : ℕ → ℕ) : BlockMemoryPool p :=
  let blockSize := alignBlockSize p rawBlockSize
  buildFreeList
    { storage := storage
      freeList := 0
      blockSize := blockSize
      capacity := if storageSize < word p (capacity * blockSize) then storageSize / blockSize else capacity
      usedCount := 0
      memory := memory }

/-- The constructor with storage from the heap, which has allocated it at `storage`
(stk_memory_blockpool.h:362-386). -/
def owned (capacity rawBlockSize storage : ℕ) (memory : ℕ → ℕ) : BlockMemoryPool p :=
  let m : BlockMemoryPool p :=
    { storage := storage
      freeList := 0
      blockSize := alignBlockSize p rawBlockSize
      capacity := capacity
      usedCount := 0
      memory := memory }
  if storage ≠ 0 then m.buildFreeList else m

/-- A stretch of a call. -/
abbrev Stretch (p : ℕ) := Mesa.Stretch SyncId (BlockMemoryPool p) AllocFrame PoolResult

/-- `PopFreeList` (stk_memory_blockpool.h:555-565). -/
def popFreeList (m : BlockMemoryPool p) : ℕ × BlockMemoryPool p :=
  (m.freeList, { m with freeList := m.memory m.freeList, usedCount := (m.usedCount + 1) % 2 ^ 16 })

/-- `TimedAlloc` from the head of its loop (stk_memory_blockpool.h:413-429). -/
def allocFrom (m : BlockMemoryPool p) (timeout : ℤ) : Stretch p :=
  if m.freeList = 0 then
    if timeout ≠ 0 then ⟨m, [], .wait ⟨timeout⟩⟩ else ⟨m, [], .done (.block 0)⟩
  else ⟨m.popFreeList.2, [], .done (.block m.popFreeList.1)⟩

/-- `TimedAlloc` (stk_memory_blockpool.h:404-436); `Alloc` has the timeout `WAIT_INFINITE` and `TryAlloc`
`NO_WAIT`.  `insideIsr` is `hw::IsInsideISR()`. -/
def timedAlloc (m : BlockMemoryPool p) (insideIsr : Bool) (timeout : ℤ) : Stretch p :=
  if !insideIsr || decide (timeout = 0) then m.allocFrom timeout else ⟨m, [], .done (.block 0)⟩

/-- `Free` (stk_memory_blockpool.h:472-531). -/
def free (m : BlockMemoryPool p) (ptr : ℕ) : Stretch p :=
  let lo := m.storage
  let hi := word p (lo + word p (m.capacity * m.blockSize))
  if ptr = 0 then ⟨m, [], .done (.freed false)⟩
  else if ptr < lo ∨ hi ≤ ptr then ⟨m, [], .done (.freed false)⟩
  else if (ptr - lo) % m.blockSize ≠ 0 then ⟨m, [], .done (.freed false)⟩
  else if m.usedCount = 0 then ⟨m, [], .done (.freed false)⟩
  else
    ⟨{ m with
        memory := Function.update m.memory ptr m.freeList
        freeList := ptr
        usedCount := (m.usedCount - 1) % 2 ^ 16 },
      [.one cvPool], .done (.freed true)⟩

end BlockMemoryPool

/-! ## The pool and its users -/

/-- A pool with the blocks that it has handed out and not got back. -/
structure PoolInUse (p : ℕ) where
  pool : BlockMemoryPool p
  outstanding : List ℕ

/-- The calls of a pool, and what its users do with their blocks: `write` puts words into
outstanding blocks. -/
inductive PoolOp where
  | alloc (insideIsr : Bool) (timeout : ℤ)
  | free (ptr : ℕ)
  | write (words : ℕ → ℕ)

namespace PoolInUse

variable {p : ℕ}

/-- The outstanding blocks once a stretch of `Free(ptr)` or of an allocation has ended. -/
def outstandingAfter (outstanding : List ℕ) (ptr : ℕ) : Mesa.Next AllocFrame PoolResult → List ℕ
  | .done (.block b) => if b = 0 then outstanding else b :: outstanding
  | .done (.freed true) => outstanding.erase ptr
  | _ => outstanding

/-- A stretch of the pool, with the outstanding blocks. -/
def follow (m : PoolInUse p) (ptr : ℕ) (t : BlockMemoryPool.Stretch p) :
    Mesa.Stretch SyncId (PoolInUse p) AllocFrame PoolResult :=
  ⟨⟨t.state, outstandingAfter m.outstanding ptr t.next⟩, t.notify, t.next⟩

/-- The address is in an outstanding block. -/
def isOutstanding (m : PoolInUse p) (a : ℕ) : Bool :=
  m.outstanding.any fun b => decide (b ≤ a) && decide (a < b + m.pool.blockSize)

def write (m : PoolInUse p) (words : ℕ → ℕ) : PoolInUse p :=
  { m with pool := { m.pool with memory := fun a => if m.isOutstanding a then words a else m.pool.memory a } }

def call (m : PoolInUse p) : PoolOp → Mesa.Stretch SyncId (PoolInUse p) AllocFrame PoolResult
  | .alloc insideIsr timeout => m.follow 0 (m.pool.timedAlloc insideIsr timeout)
  | .free ptr => m.follow ptr (m.pool.free ptr)
  | .write words => ⟨m.write words, [], .done .written⟩

/-- The stretch of a `TimedAlloc` whose `m_cv.Wait` has returned. -/
def resume (m : PoolInUse p) (f : AllocFrame) :
    WaitResult → Mesa.Stretch SyncId (PoolInUse p) AllocFrame PoolResult
  | .signal => m.follow 0 (m.pool.allocFrom f.timeout)
  | .timeout => ⟨m, [], .done (.block 0)⟩

theorem allocFrom_wait {m : BlockMemoryPool p} {timeout : ℤ} {f : AllocFrame}
    (h : (m.allocFrom timeout).next = .wait f) :
    m.allocFrom timeout = ⟨m, [], .wait f⟩ ∧ m.freeList = 0 ∧ f.timeout ≠ 0 := by
  unfold BlockMemoryPool.allocFrom at h ⊢
  split at h
  · next hempty =>
    split at h
    · next hne =>
      obtain rfl := Mesa.Next.wait.inj h
      exact ⟨by rw [if_pos hempty, if_pos hne], hempty, hne⟩
    · cases h
  · cases h

theorem timedAlloc_wait {m : BlockMemoryPool p} {insideIsr : Bool} {timeout : ℤ} {f : AllocFrame}
    (h : (m.timedAlloc insideIsr timeout).next = .wait f) :
    m.timedAlloc insideIsr timeout = ⟨m, [], .wait f⟩ ∧ m.freeList = 0 ∧ f.timeout ≠ 0 := by
  unfold BlockMemoryPool.timedAlloc at h ⊢
  split at h
  · next htask =>
    rw [if_pos htask]
    exact allocFrom_wait h
  · cases h

theorem free_next (m : BlockMemoryPool p) (ptr : ℕ) (f : AllocFrame) : (m.free ptr).next ≠ .wait f := by
  unfold BlockMemoryPool.free
  dsimp only
  split_ifs <;> exact fun h => nomatch h

/-- A call that waits has found no block and changed nothing. -/
theorem call_wait {m : PoolInUse p} {op : PoolOp} {f : AllocFrame} (h : (m.call op).next = .wait f) :
    m.call op = ⟨m, [], .wait f⟩ ∧ m.pool.freeList = 0 ∧ f.timeout ≠ 0 := by
  cases op with
  | alloc insideIsr timeout =>
    obtain ⟨ht, hempty, hne⟩ := timedAlloc_wait (m := m.pool) h
    refine ⟨?_, hempty, hne⟩
    rw [call, ht]
    rfl
  | free ptr => exact absurd h (free_next m.pool ptr f)
  | write words => cases h

theorem resume_wait {m : PoolInUse p} {f f' : AllocFrame} {r : WaitResult}
    (h : (m.resume f r).next = .wait f') :
    m.resume f r = ⟨m, [], .wait f'⟩ ∧ m.pool.freeList = 0 ∧ f'.timeout ≠ 0 := by
  cases r with
  | signal =>
    obtain ⟨ht, hempty, hne⟩ := allocFrom_wait (m := m.pool) h
    refine ⟨?_, hempty, hne⟩
    rw [resume, ht]
    rfl
  | timeout => cases h

instance : Monitor (PoolInUse p) PoolOp AllocFrame PoolResult where
  call _ := call
  resume _ := resume
  waitsFor _ := cvPool
  timeout := AllocFrame.timeout
  owns o := decide (o = cvPool)
  owns_waitsFor _ := rfl
  call_wait h := (call_wait h).2.2
  resume_wait h := (resume_wait h).2.2

end PoolInUse

end Stk.Model
