import Stk.Model.Pipe

/-!
# Both storages of a pipe keep a bounded sequence

`FifoStorage` says what the methods rely on: the storage holds a sequence of at most `capacity`
elements, `write` and `fill` append to it and `read` and `drain` remove from its front, in order,
to the caller's array.  It holds of the bytes of `Pipe` and of the elements of `PipeT`, for the
latter with both ways to copy.
-/

set_option autoImplicit false

namespace Stk.Analysis

open Stk.Model

/-- A storage that keeps a bounded sequence; `element a i` is element `i` of a caller's array. -/
class FifoStorage (μ : Type) (E V X : outParam Type) [PipeStorage μ E V X] where
  Wf : μ → Prop
  contents : μ → List E
  element : (ℕ → V) → ℕ → E
  length : ∀ m, (contents m).length = PipeStorage.count m
  count_le : ∀ {m}, Wf m → PipeStorage.count m ≤ PipeStorage.capacity μ
  write : ∀ {m x}, Wf m → PipeStorage.count m ≠ PipeStorage.capacity μ →
    Wf (PipeStorage.write m x) ∧ contents (PipeStorage.write m x) = contents m ++ [x]
  read : ∀ {m}, Wf m → PipeStorage.count m ≠ 0 →
    Wf (PipeStorage.read m).2 ∧
      contents m = (PipeStorage.read m).1 :: contents (PipeStorage.read m).2
  fill : ∀ {m}, Wf m → ∀ src i n,
    Wf (PipeStorage.fill m src i n).2 ∧
      (PipeStorage.fill m src i n).1 = min n (PipeStorage.capacity μ - PipeStorage.count m) ∧
      contents (PipeStorage.fill m src i n).2 =
        contents m ++ RingBuffer.slice (element src) i (PipeStorage.fill m src i n).1
  drain : ∀ {m}, Wf m → ∀ dst i n,
    Wf (PipeStorage.drain m dst i n).2.2 ∧
      (PipeStorage.drain m dst i n).1 = min n (PipeStorage.count m) ∧
      contents m = RingBuffer.slice (element (PipeStorage.drain m dst i n).2.1) i
        (PipeStorage.drain m dst i n).1 ++ contents (PipeStorage.drain m dst i n).2.2 ∧
      ∀ c, c < i ∨ i + (PipeStorage.drain m dst i n).1 ≤ c →
        element (PipeStorage.drain m dst i n).2.1 c = element dst c
  reset : ∀ {m}, Wf m → Wf (PipeStorage.reset m) ∧ contents (PipeStorage.reset m) = []

namespace FifoStorage

variable {μ E V X : Type} [PipeStorage μ E V X] [FifoStorage μ E V X] {m : μ}

/-- INTERNAL: `Write` adds one element. -/
theorem count_write (h : Wf m) (hc : PipeStorage.count m ≠ PipeStorage.capacity μ) (x : E) :
    PipeStorage.count (PipeStorage.write m x) = PipeStorage.count m + 1 := by
  have := congrArg List.length (FifoStorage.write (x := x) h hc).2
  rwa [length, List.length_append, length] at this

/-- INTERNAL: `Read` takes one element. -/
theorem count_read (h : Wf m) (hc : PipeStorage.count m ≠ 0) :
    PipeStorage.count (PipeStorage.read m).2 + 1 = PipeStorage.count m := by
  have := congrArg List.length (FifoStorage.read h hc).2
  rw [length, List.length_cons, length] at this
  exact this.symm

/-- INTERNAL: a bulk write adds as many elements as it copies. -/
theorem count_fill (h : Wf m) (src : ℕ → V) (i n : ℕ) :
    PipeStorage.count (PipeStorage.fill m src i n).2 =
      PipeStorage.count m + (PipeStorage.fill m src i n).1 := by
  have := congrArg List.length (FifoStorage.fill h src i n).2.2
  rwa [length, List.length_append, length, RingBuffer.length_slice] at this

/-- INTERNAL: a bulk read takes as many elements as it copies. -/
theorem count_drain (h : Wf m) (dst : ℕ → V) (i n : ℕ) :
    PipeStorage.count (PipeStorage.drain m dst i n).2.2 + (PipeStorage.drain m dst i n).1 =
      PipeStorage.count m := by
  have := congrArg List.length (FifoStorage.drain h dst i n).2.2.1
  rw [length, List.length_append, length, RingBuffer.length_slice] at this
  omega

/-- INTERNAL: `Reset` leaves no element. -/
theorem count_reset (h : Wf m) : PipeStorage.count (PipeStorage.reset m) = 0 := by
  have := congrArg List.length (FifoStorage.reset h).2
  rwa [length] at this

end FifoStorage

/-- The indices of a ring agree. -/
structure RingWf (capacity count head tail : ℕ) : Prop where
  count_le : count ≤ capacity
  tail_lt : tail < capacity
  head_eq : head = (tail + count) % capacity

namespace RingWf

variable {capacity count head tail : ℕ}

/-- INTERNAL: the head is an index of the ring. -/
theorem head_lt (h : RingWf capacity count head tail) : head < capacity := by
  rw [h.head_eq]
  exact Nat.mod_lt _ (lt_of_le_of_lt (Nat.zero_le _) h.tail_lt)

/-- INTERNAL: the head may move on over free cells. -/
theorem append (h : RingWf capacity count head tail) (len : ℕ) (hl : len ≤ capacity - count) :
    RingWf capacity (count + len) ((head + len) % capacity) tail := by
  have hle := h.count_le
  refine ⟨by omega, h.tail_lt, ?_⟩
  rw [h.head_eq, Nat.mod_add_mod, Nat.add_assoc]

/-- INTERNAL: the tail may move on over full cells. -/
theorem remove (h : RingWf capacity count head tail) (len : ℕ) (hl : len ≤ count) :
    RingWf capacity (count - len) head ((tail + len) % capacity) := by
  have hle := h.count_le
  refine ⟨by omega, Nat.mod_lt _ (lt_of_le_of_lt (Nat.zero_le _) h.tail_lt), ?_⟩
  rw [h.head_eq, Nat.mod_add_mod]
  congr 1
  omega

/-- INTERNAL: both indices may return to the start. -/
theorem reset (h : RingWf capacity count head tail) : RingWf capacity 0 0 0 :=
  ⟨Nat.zero_le _, lt_of_le_of_lt (Nat.zero_le _) h.tail_lt, by simp⟩

variable {β : Type} {cell : ℕ → β}

/-- INTERNAL: the cell behind the last one is written. -/
theorem contents_write (h : RingWf capacity count head tail) (hc : count ≠ capacity) {cell' : ℕ → β}
    {x : β} (hself : cell' head = x) (hother : ∀ i, i ≠ head → cell' i = cell i) :
    RingBuffer.contents capacity cell' tail (count + 1) =
      RingBuffer.contents capacity cell tail count ++ [x] := by
  rw [h.head_eq] at hself hother
  exact RingBuffer.contents_append (lt_of_le_of_ne h.count_le hc) hself hother

/-- INTERNAL: the first cell is read. -/
theorem contents_read (h : RingWf capacity count head tail) (hc : count ≠ 0) :
    RingBuffer.contents capacity cell tail count =
      cell tail :: RingBuffer.contents capacity cell ((tail + 1) % capacity) (count - 1) := by
  obtain ⟨c, rfl⟩ := Nat.exists_eq_succ_of_ne_zero hc
  exact RingBuffer.contents_cons cell h.tail_lt c

/-- INTERNAL: `len` cells are copied in behind the last one. -/
theorem contents_copyIn (h : RingWf capacity count head tail) {len : ℕ} (hl : len ≤ capacity - count)
    (src : ℕ → β) (i : ℕ) :
    RingBuffer.contents capacity (RingBuffer.copyIn capacity 1 cell head src i len) tail (count + len) =
      RingBuffer.contents capacity cell tail count ++ RingBuffer.slice src i len := by
  have hle := h.count_le
  refine RingBuffer.contents_appendMany (by omega) (fun m hm => ?_) (fun c hc => ?_)
  · rw [← h.head_eq]
    exact RingBuffer.copyIn_written h.head_lt (by omega) cell src i hm
  · rw [← h.head_eq] at hc
    exact RingBuffer.copyIn_other h.head_lt (by omega) cell src i hc

/-- INTERNAL: the first `len` cells are copied out. -/
theorem contents_copyOut (h : RingWf capacity count head tail) {len : ℕ} (hl : len ≤ count)
    (dst : ℕ → β) (i : ℕ) :
    RingBuffer.contents capacity cell tail count =
      RingBuffer.slice (RingBuffer.copyOut capacity 1 cell tail dst i len) i len ++
        RingBuffer.contents capacity cell ((tail + len) % capacity) (count - len) := by
  have hle := h.count_le
  conv_lhs => rw [show count = len + (count - len) by omega]
  rw [RingBuffer.contents_add]
  congr 1
  refine List.map_congr_left (fun m hm => ?_)
  exact (RingBuffer.copyOut_read h.tail_lt (by omega) cell dst i (List.mem_range.mp hm)).symm

end RingWf

/-- INTERNAL: the smaller of two lengths, as the source computes it. -/
theorem ite_lt_eq_min (a b : ℕ) : (if a < b then a else b) = min a b := by
  split <;> omega

/-! ## `Pipe` -/

section Bytes

variable {capacity elementSize : ℕ} {p : Pipe capacity elementSize}

/-- The elements of the pipe: `m_count` slots from `m_tail` on. -/
def Pipe.contents (p : Pipe capacity elementSize) : List (Element elementSize) :=
  RingBuffer.contents capacity (RingBuffer.cellAt elementSize p.buffer) p.tail p.count

/-- The indices of a `Pipe` are those of a ring. -/
abbrev Pipe.Wf (p : Pipe capacity elementSize) : Prop := RingWf capacity p.count p.head p.tail

namespace Pipe

/-- `Write` appends its element. -/
theorem write_spec (h : Wf p) (hc : p.count ≠ capacity) (x : Element elementSize) :
    Wf (p.write x) ∧ contents (p.write x) = contents p ++ [x] := by
  have hle := h.count_le
  exact ⟨h.append 1 (by omega), h.contents_write hc
    (RingBuffer.cellAt_copyTo_self p.buffer p.head x)
    (fun _ hi => RingBuffer.cellAt_copyTo_ne p.buffer hi x)⟩

/-- `Read` takes the oldest element. -/
theorem read_spec (h : Wf p) (hc : p.count ≠ 0) :
    Wf p.read.2 ∧ contents p = p.read.1 :: contents p.read.2 :=
  ⟨h.remove 1 (by omega), h.contents_read hc⟩

/-- The two copies of `WriteBulk` append as many elements as fit. -/
theorem fill_spec (h : Wf p) (src : ℕ → UInt8) (i n : ℕ) :
    Wf (p.fill src i n).2 ∧ (p.fill src i n).1 = min n (capacity - p.count) ∧
      contents (p.fill src i n).2 = contents p ++
        RingBuffer.slice (RingBuffer.cellAt elementSize src) i (p.fill src i n).1 := by
  have hlen : (p.fill src i n).1 = min n (capacity - p.count) := ite_lt_eq_min _ _
  have hle : (p.fill src i n).1 ≤ capacity - p.count := by omega
  refine ⟨h.append _ hle, hlen, ?_⟩
  have hcells : RingBuffer.cellAt elementSize (p.fill src i n).2.buffer = _ :=
    RingBuffer.cellAt_copyIn capacity p.buffer p.head src i (p.fill src i n).1
  unfold contents
  rw [hcells]
  exact h.contents_copyIn hle _ i

/-- The two copies of `ReadBulk` take the oldest elements, in order, and write no other cell of the destination. -/
theorem drainLocked_spec (h : Wf p) (dst : ℕ → UInt8) (i n : ℕ) :
    Wf (p.drainLocked dst i n).2.2 ∧ (p.drainLocked dst i n).1 = min n p.count ∧
      contents p = RingBuffer.slice (RingBuffer.cellAt elementSize (p.drainLocked dst i n).2.1) i
        (p.drainLocked dst i n).1 ++ contents (p.drainLocked dst i n).2.2 ∧
      ∀ c, c < i ∨ i + (p.drainLocked dst i n).1 ≤ c →
        RingBuffer.cellAt elementSize (p.drainLocked dst i n).2.1 c =
          RingBuffer.cellAt elementSize dst c := by
  unfold Pipe.drainLocked
  dsimp only
  rw [RingBuffer.cellAt_copyOut]
  exact ⟨h.remove _ (Nat.min_le_right _ _), rfl, h.contents_copyOut (Nat.min_le_right _ _) _ i,
    fun c hc => RingBuffer.copyOut_other capacity p.tail _ _ i hc⟩

end Pipe

/-- `Pipe` is a queue of the elements between its tail and its head. -/
instance : FifoStorage (Pipe capacity elementSize) (Element elementSize) UInt8 Unit where
  Wf := Pipe.Wf
  contents := Pipe.contents
  element := RingBuffer.cellAt elementSize
  length m := RingBuffer.length_contents capacity _ m.tail m.count
  count_le h := h.count_le
  write h hc := Pipe.write_spec h hc _
  read h hc := Pipe.read_spec h hc
  fill h := Pipe.fill_spec h
  drain h := Pipe.drainLocked_spec h
  reset h := ⟨h.reset, rfl⟩

end Bytes

/-! ## `PipeT` -/

section Typed

variable {T : Type} {capacity : ℕ} {isScalar : Bool} {p : PipeT T capacity isScalar}

/-- The elements of the pipe: `m_count` slots from `m_tail` on. -/
def PipeT.contents (p : PipeT T capacity isScalar) : List T :=
  RingBuffer.contents capacity p.buffer p.tail p.count

/-- The indices of a `PipeT` are those of a ring. -/
abbrev PipeT.Wf (p : PipeT T capacity isScalar) : Prop := RingWf capacity p.count p.head p.tail

namespace PipeT

/-- `Write` appends its element. -/
theorem write_spec (h : Wf p) (hc : p.count ≠ capacity) (x : T) :
    Wf (p.write x) ∧ contents (p.write x) = contents p ++ [x] := by
  have hle := h.count_le
  exact ⟨h.append 1 (by omega), h.contents_write hc (Function.update_self _ _ _)
    (fun _ hi => Function.update_of_ne hi _ _)⟩

/-- `Read` takes the oldest element. -/
theorem read_spec (h : Wf p) (hc : p.count ≠ 0) :
    Wf p.read.2 ∧ contents p = p.read.1 :: contents p.read.2 :=
  ⟨h.remove 1 (by omega), h.contents_read hc⟩

/-- INTERNAL: the loop of `WriteBulk` over elements that have to be assigned one by one. -/
theorem fillLoop_spec (src : ℕ → T) (len : ℕ) (p : PipeT T capacity isScalar) (i : ℕ) (h : Wf p)
    (hl : len ≤ capacity - p.count) :
    Wf (PipeT.fillLoop src len p i) ∧
      contents (PipeT.fillLoop src len p i) = contents p ++ RingBuffer.slice src i len := by
  induction len generalizing p i with
  | zero => exact ⟨h, by simp [PipeT.fillLoop]⟩
  | succ len ih =>
    obtain ⟨hwf, hcontents⟩ := write_spec h (by omega) (src i)
    obtain ⟨hwf', hcontents'⟩ := ih (p.write (src i)) (i + 1) hwf (by simp [PipeT.write]; omega)
    refine ⟨hwf', hcontents'.trans ?_⟩
    rw [hcontents, Nat.add_comm len 1, RingBuffer.slice_add, List.append_assoc]
    rfl

/-- `WriteBulk` appends as many elements as fit, with either way to copy. -/
theorem fill_spec (h : Wf p) (src : ℕ → T) (i n : ℕ) :
    Wf (p.fill src i n).2 ∧ (p.fill src i n).1 = min n (capacity - p.count) ∧
      contents (p.fill src i n).2 = contents p ++ RingBuffer.slice src i (p.fill src i n).1 := by
  have hlen : (p.fill src i n).1 = min n (capacity - p.count) := ite_lt_eq_min _ _
  have hle : (p.fill src i n).1 ≤ capacity - p.count := by omega
  by_cases hloop : (!isScalar || decide (capacity < 8)) = true
  · have heq : (p.fill src i n).2 = PipeT.fillLoop src (p.fill src i n).1 p i := if_pos hloop
    obtain ⟨hwf, hcontents⟩ := fillLoop_spec src _ p i h hle
    rw [heq]
    exact ⟨hwf, hlen, hcontents⟩
  · have heq : (p.fill src i n).2 = p.fillBlock src i (p.fill src i n).1 := if_neg hloop
    rw [heq]
    exact ⟨h.append _ hle, hlen, h.contents_copyIn hle src i⟩

/-- INTERNAL: the element loop of `ReadBulk`. -/
theorem drainLoop_spec (len : ℕ) (p : PipeT T capacity isScalar) (dst : ℕ → T) (i : ℕ) (h : Wf p)
    (hl : len ≤ p.count) :
    Wf (PipeT.drainLoop len p dst i).2 ∧
      contents p = RingBuffer.slice (PipeT.drainLoop len p dst i).1 i len ++
        contents (PipeT.drainLoop len p dst i).2 ∧
      ∀ c, c < i ∨ i + len ≤ c → (PipeT.drainLoop len p dst i).1 c = dst c := by
  induction len generalizing p dst i with
  | zero => exact ⟨h, by simp [PipeT.drainLoop], fun _ _ => rfl⟩
  | succ len ih =>
    obtain ⟨hwf, hcontents⟩ := read_spec h (by omega)
    obtain ⟨hwf', hcontents', hother⟩ := ih p.read.2 (Function.update dst i p.read.1) (i + 1) hwf
      (by simp [PipeT.read]; omega)
    refine ⟨hwf', ?_, fun c hc => ?_⟩
    · -- the rest of the loop writes behind the first element
      have hfirst : (PipeT.drainLoop (len + 1) p dst i).1 i = p.read.1 :=
        (hother i (Or.inl (Nat.lt_succ_self i))).trans (Function.update_self _ _ _)
      rw [Nat.add_comm len 1, RingBuffer.slice_add, List.append_assoc, Nat.add_comm 1 len]
      rw [hcontents, hcontents']
      have hone : RingBuffer.slice (PipeT.drainLoop (len + 1) p dst i).1 i 1 = [p.read.1] := by
        simp [RingBuffer.slice, hfirst]
      rw [hone]
      rfl
    · have hne : c ≠ i := by omega
      exact (hother c (by omega)).trans (Function.update_of_ne hne _ _)

/-- `ReadBulk` takes the oldest elements, in order, and writes no other cell of the destination. -/
theorem drain_spec (h : Wf p) (dst : ℕ → T) (i n : ℕ) :
    Wf (p.drain dst i n).2.2 ∧ (p.drain dst i n).1 = min n p.count ∧
      contents p = RingBuffer.slice (p.drain dst i n).2.1 i (p.drain dst i n).1 ++
        contents (p.drain dst i n).2.2 ∧
      ∀ c, c < i ∨ i + (p.drain dst i n).1 ≤ c → (p.drain dst i n).2.1 c = dst c := by
  have hlen : (p.drain dst i n).1 = min n p.count := ite_lt_eq_min _ _
  have hle : (p.drain dst i n).1 ≤ p.count := by omega
  by_cases hloop : (!isScalar || decide (capacity < 8)) = true
  · have heq : (p.drain dst i n).2 = PipeT.drainLoop (p.drain dst i n).1 p dst i := if_pos hloop
    obtain ⟨hwf, hcontents, hother⟩ := drainLoop_spec _ p dst i h hle
    rw [heq]
    exact ⟨hwf, hlen, hcontents, hother⟩
  · have heq : (p.drain dst i n).2 = p.drainBlock dst i (p.drain dst i n).1 := if_neg hloop
    rw [heq]
    exact ⟨h.remove _ hle, hlen, h.contents_copyOut hle dst i,
      fun c hc => RingBuffer.copyOut_other capacity p.tail _ _ i hc⟩

end PipeT

/-- `PipeT` is a queue of the elements between its tail and its head. -/
instance : FifoStorage (PipeT T capacity isScalar) T T Empty where
  Wf := PipeT.Wf
  contents := PipeT.contents
  element := id
  length m := RingBuffer.length_contents capacity _ m.tail m.count
  count_le h := h.count_le
  write h hc := PipeT.write_spec h hc _
  read h hc := PipeT.read_spec h hc
  fill h := PipeT.fill_spec h
  drain h := PipeT.drain_spec h
  reset h := ⟨h.reset, rfl⟩

end Typed

end Stk.Analysis
