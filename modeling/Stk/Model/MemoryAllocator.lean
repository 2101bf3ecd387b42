import Stk.Model.BlockMemoryPool

/-!
# The heap of the FreeRTOS wrapper

`memory::MemoryAllocator` as freertos_stk.cpp implements it over `malloc` and `free`, with the statistics of
stk_memory_allocator.h, where `size_t` has `2 ^ p` bytes.  Addresses are numbers, the null pointer is 0, and
`memory` has the word at every address.  What `malloc` returns is a parameter of each call.
-/

set_option autoImplicit false

namespace Stk.Model

/-- `MemoryAllocator::Stats` (stk_memory_allocator.h:65-108). -/
structure AllocatorStats (p : ℕ) where
  capacity : ℕ
  allocated : ℕ
  allocateCount : ℕ
  freeCount : ℕ
  minEverFree : ℕ

namespace AllocatorStats

open BlockMemoryPool (word)

variable {p : ℕ}

/-- The constructor of `Stats`. -/
def initial (capacity : ℕ) : AllocatorStats p := ⟨capacity, 0, 0, 0, capacity⟩

/-- `GetAvailable` (stk_memory_allocator.h:85). -/
def getAvailable (s : AllocatorStats p) : ℕ := if s.allocated < s.capacity then s.capacity - s.allocated else 0

/-- `RecordAllocate` (stk_memory_allocator.h:90-95). -/
def recordAllocate (s : AllocatorStats p) (size : ℕ) : AllocatorStats p :=
  let s' : AllocatorStats p := { s with
    allocated := word p (s.allocated + size)
    allocateCount := word p (s.allocateCount + 1) }
  { s' with minEverFree := min s'.getAvailable s'.minEverFree }

/-- `RecordFree` (stk_memory_allocator.h:100-107); `none` if its assertion fails. -/
def recordFree (s : AllocatorStats p) (size : ℕ) : Option (AllocatorStats p) :=
  if size ≤ s.allocated then
    some { s with allocated := s.allocated - size, freeCount := word p (s.freeCount + 1) }
  else none

end AllocatorStats

/-- `s_MemStats` and the words of the memory. -/
structure MemoryAllocator (p : ℕ) where
  stats : AllocatorStats p
  memory : ℕ → ℕ

namespace MemoryAllocator

open BlockMemoryPool (word)

variable {p : ℕ}

/-- What `Allocate` asks of `malloc`: `size` with the header, rounded up to a multiple of the alignment. -/
def chunkSize (p size : ℕ) : ℕ :=
  word p (word p (size + 2 ^ p) + (2 ^ p - 1)) &&& (2 ^ (8 * 2 ^ p) - 2 ^ p)

/-- `Allocate` (freertos_stk.cpp:81-109), where `malloc` returns `region`. -/
def allocate (m : MemoryAllocator p) (size region : ℕ) : ℕ × MemoryAllocator p :=
  if size = 0 then (0, m)
  else if m.stats.getAvailable < chunkSize p size then (0, m)
  else if region ≠ 0 then
    (word p (region + 2 ^ p),
      { stats := m.stats.recordAllocate (chunkSize p size)
        memory := Function.update m.memory region (chunkSize p size) })
  else (0, m)

/-- `Free` (freertos_stk.cpp:111-124); `none` if the assertion of `RecordFree` fails. -/
def free (m : MemoryAllocator p) (ptr : ℕ) : Option (MemoryAllocator p) :=
  if ptr = 0 then some m
  else (m.stats.recordFree (m.memory (ptr - 2 ^ p))).map fun stats => { m with stats := stats }

theorem allocate_eq {m : MemoryAllocator p} {size region : ℕ} (hsize : size ≠ 0)
    (hroom : chunkSize p size ≤ m.stats.getAvailable) (hregion : region ≠ 0) :
    m.allocate size region = (word p (region + 2 ^ p),
      { stats := m.stats.recordAllocate (chunkSize p size)
        memory := Function.update m.memory region (chunkSize p size) }) := by
  unfold allocate
  rw [if_neg hsize, if_neg (Nat.not_lt_of_le hroom), if_pos hregion]

/-- `Allocate` returns null and changes nothing, or it has the room and a region. -/
theorem allocate_cases (m : MemoryAllocator p) (size region : ℕ) : m.allocate size region = (0, m) ∨
    size ≠ 0 ∧ chunkSize p size ≤ m.stats.getAvailable ∧ region ≠ 0 ∧
      m.allocate size region = (word p (region + 2 ^ p),
        { stats := m.stats.recordAllocate (chunkSize p size)
          memory := Function.update m.memory region (chunkSize p size) }) := by
  by_cases hsize : size = 0
  · left
    unfold allocate
    rw [if_pos hsize]
  · by_cases hroom : m.stats.getAvailable < chunkSize p size
    · left
      unfold allocate
      rw [if_neg hsize, if_pos hroom]
    · have hle := Nat.le_of_not_lt hroom
      by_cases hregion : region ≠ 0
      · right
        exact ⟨hsize, hle, hregion, allocate_eq hsize hle hregion⟩
      · left
        unfold allocate
        rw [if_neg hsize, if_neg hroom, if_neg hregion]

end MemoryAllocator

/-! ## The heap and its users -/

/-- A region that `malloc` has returned for a request and `free` has not got back. -/
structure Chunk where
  region : ℕ
  size : ℕ
  request : ℕ
deriving DecidableEq

/-- The two regions do not overlap. -/
def Chunk.Apart (c d : Chunk) : Prop := c.region + c.size ≤ d.region ∨ d.region + d.size ≤ c.region

instance (c d : Chunk) : Decidable (c.Apart d) := inferInstanceAs (Decidable (_ ∨ _))

/-- The calls of the allocator, and what its users do with their chunks: `write` puts words where the bytes
they have asked for are. -/
inductive HeapOp where
  | allocate (size region : ℕ)
  | free (ptr : ℕ)
  | write (words : ℕ → ℕ)

/-- The allocator with its live chunks; `failed` says that an assertion has failed. -/
structure HeapInUse (p : ℕ) where
  allocator : MemoryAllocator p
  live : List Chunk
  failed : Bool

namespace HeapInUse

variable {p : ℕ}

def initial (capacity : ℕ) (memory : ℕ → ℕ) : HeapInUse p :=
  ⟨⟨.initial capacity, memory⟩, [], false⟩

/-- The word at `x` reaches into the bytes that a live chunk was asked for. -/
def isOwned (s : HeapInUse p) (x : ℕ) : Bool :=
  s.live.any fun c => decide (c.region < x) && decide (x < c.region + 2 ^ p + c.request)

def step (s : HeapInUse p) : HeapOp → HeapInUse p
  | .allocate size region =>
    let (ptr, allocator) := s.allocator.allocate size region
    if ptr = 0 then { s with allocator := allocator }
    else { s with allocator := allocator, live := ⟨region, MemoryAllocator.chunkSize p size, size⟩ :: s.live }
  | .free ptr =>
    match s.allocator.free ptr with
    | none => { s with failed := true }
    | some allocator => { s with allocator := allocator, live := s.live.filter fun c => c.region + 2 ^ p ≠ ptr }
  | .write words =>
    { s with allocator := { s.allocator with
        memory := fun x => if s.isOwned x then words x else s.allocator.memory x } }

/-- `malloc` returns null or a region of the size asked for that is in the address space and apart from
the live ones; what is freed is null or the pointer of a live chunk. -/
def Proper (s : HeapInUse p) : HeapOp → Prop
  | .allocate size region => size < 2 ^ (8 * 2 ^ p) ∧
      (region = 0 ∨ region + MemoryAllocator.chunkSize p size ≤ 2 ^ (8 * 2 ^ p) ∧
        ∀ c ∈ s.live, c.Apart ⟨region, MemoryAllocator.chunkSize p size, size⟩)
  | .free ptr => ptr = 0 ∨ ∃ c ∈ s.live, ptr = c.region + 2 ^ p
  | .write _ => True

/-- The step of an `Allocate` that returns null and changes nothing. -/
theorem step_null {s : HeapInUse p} {size region : ℕ} (h : s.allocator.allocate size region = (0, s.allocator)) :
    s.step (.allocate size region) = s := by
  unfold step
  dsimp only
  rw [h]
  rfl

theorem step_allocated {s : HeapInUse p} {size region ptr : ℕ} {allocator : MemoryAllocator p}
    (h : s.allocator.allocate size region = (ptr, allocator)) (hptr : ptr ≠ 0) :
    s.step (.allocate size region) =
      ⟨allocator, ⟨region, MemoryAllocator.chunkSize p size, size⟩ :: s.live, s.failed⟩ := by
  unfold step
  dsimp only
  rw [h]
  exact if_neg hptr

theorem step_freed {s : HeapInUse p} {ptr : ℕ} {allocator : MemoryAllocator p}
    (h : s.allocator.free ptr = some allocator) : s.step (.free ptr) =
      { s with allocator := allocator, live := s.live.filter fun c => c.region + 2 ^ p ≠ ptr } := by
  unfold step
  dsimp only
  rw [h]

end HeapInUse

end Stk.Model
