import Mathlib.Data.List.Basic
import Mathlib.Data.Nat.ModEq
import Mathlib.Tactic.Ring

/-!
# Ring buffers in a flat memory

`contents cap cell tail count` is the sequence a ring buffer of `cap` cells holds: `count`
cells from `tail` on, with wrap-around.  Writing the cell behind the last one appends
(`contents_append`), writing the cell before the first one prepends (`contents_prepend`), and
moving the first index on drops the first member (`contents_cons`).  The same for several members
at once: `contents_appendMany` and `contents_add`.

A flat memory of single values is cut into cells of `w` values each: `cellAt` reads a cell and
`copyTo` overwrites one.  `copyIn` and `copyOut` move a run of cells into and out of a ring, in two
parts where the run goes over the end of the ring; they do to the cells what they do to a memory
whose values are the cells (`cellAt_copyIn`, `cellAt_copyOut`).
-/

set_option autoImplicit false

namespace RingBuffer

variable {β : Type}

/-- The members of the ring, first one first. -/
def contents (cap : ℕ) (cell : ℕ → β) (tail count : ℕ) : List β :=
  (List.range count).map (fun j => cell ((tail + j) % cap))

/-- INTERNAL: as many elements as are counted. -/
@[simp] theorem length_contents (cap : ℕ) (cell : ℕ → β) (tail count : ℕ) :
    (contents cap cell tail count).length = count := by
  simp [contents]

/-- INTERNAL: an empty ring. -/
@[simp] theorem contents_zero (cap : ℕ) (cell : ℕ → β) (tail : ℕ) :
    contents cap cell tail 0 = [] := rfl

/-- INTERNAL: the contents are read off the cells in use. -/
theorem contents_congr {cap : ℕ} {cell cell' : ℕ → β} {tail count : ℕ}
    (h : ∀ j < count, cell' ((tail + j) % cap) = cell ((tail + j) % cap)) :
    contents cap cell' tail count = contents cap cell tail count :=
  List.map_congr_left (fun j hj => h j (List.mem_range.mp hj))

/-- INTERNAL: the last element. -/
theorem contents_concat (cap : ℕ) (cell : ℕ → β) (tail count : ℕ) :
    contents cap cell tail (count + 1) =
      contents cap cell tail count ++ [cell ((tail + count) % cap)] := by
  simp [contents, List.range_succ]

/-- INTERNAL: the first element. -/
theorem contents_cons {cap tail : ℕ} (cell : ℕ → β) (ht : tail < cap) (count : ℕ) :
    contents cap cell tail (count + 1) =
      cell tail :: contents cap cell ((tail + 1) % cap) count := by
  simp only [contents, List.range_succ_eq_map, List.map_cons, Nat.add_zero, Nat.mod_eq_of_lt ht,
    List.map_map]
  congr 1
  refine List.map_congr_left (fun j _ => ?_)
  have hindex : (tail + (j + 1)) % cap = ((tail + 1) % cap + j) % cap := by
    rw [Nat.mod_add_mod]
    congr 1
    ring
  exact congrArg cell hindex

/-- Two offsets below the capacity name different cells. -/
theorem index_ne {cap tail a b : ℕ} (ha : a < cap) (hb : b < cap) (hne : a ≠ b) :
    (tail + a) % cap ≠ (tail + b) % cap := by
  intro heq
  have hmod : Nat.ModEq cap a b := Nat.ModEq.add_left_cancel' tail heq
  exact hne (Nat.ModEq.eq_of_lt_of_lt hmod ha hb)

/-- The cell behind the last one is written. -/
theorem contents_append {cap tail count : ℕ} {cell cell' : ℕ → β} {x : β} (hc : count < cap)
    (hnew : cell' ((tail + count) % cap) = x)
    (hold : ∀ i, i ≠ (tail + count) % cap → cell' i = cell i) :
    contents cap cell' tail (count + 1) = contents cap cell tail count ++ [x] := by
  rw [contents_concat, hnew]
  congr 1
  refine contents_congr (fun j hj => hold _ ?_)
  exact index_ne (by omega) hc (by omega)

/-- The cell before the first one is written. -/
theorem contents_prepend {cap tail tail' count : ℕ} {cell cell' : ℕ → β} {x : β} (hc : count < cap)
    (ht : tail' < cap) (hnext : (tail' + 1) % cap = tail) (hnew : cell' tail' = x)
    (hold : ∀ i, i ≠ tail' → cell' i = cell i) :
    contents cap cell' tail' (count + 1) = x :: contents cap cell tail count := by
  rw [contents_cons cell' ht, hnew, hnext]
  congr 1
  refine contents_congr (fun j hj => hold _ ?_)
  -- the cell before the first one is the one at offset `cap - 1`
  have hlast : (tail + (cap - 1)) % cap = tail' := by
    rw [← hnext, Nat.mod_add_mod, show tail' + 1 + (cap - 1) = tail' + cap by omega,
      Nat.add_mod_right, Nat.mod_eq_of_lt ht]
  rw [← hlast]
  exact index_ne (by omega) (by omega) (by omega)

/-- The members of a sequence from `start` on. -/
def slice (x : ℕ → β) (start len : ℕ) : List β :=
  (List.range len).map (fun m => x (start + m))

/-- INTERNAL: the length of a slice. -/
@[simp] theorem length_slice (x : ℕ → β) (start len : ℕ) : (slice x start len).length = len := by
  simp [slice]

/-- INTERNAL: an empty slice. -/
@[simp] theorem slice_zero (x : ℕ → β) (start : ℕ) : slice x start 0 = [] := rfl

/-- INTERNAL: two slices, one after the other. -/
theorem slice_add (x : ℕ → β) (start a b : ℕ) :
    slice x start (a + b) = slice x start a ++ slice x (start + a) b := by
  simp [slice, List.range_add, Nat.add_assoc]

/-- INTERNAL: a slice is read off its cells. -/
theorem slice_congr {x y : ℕ → β} {i j len : ℕ} (h : ∀ m < len, x (i + m) = y (j + m)) :
    slice x i len = slice y j len :=
  List.map_congr_left (fun m hm => h m (List.mem_range.mp hm))

/-- INTERNAL: the contents in two parts. -/
theorem contents_add (cap : ℕ) (cell : ℕ → β) (tail a b : ℕ) :
    contents cap cell tail (a + b) =
      contents cap cell tail a ++ contents cap cell ((tail + a) % cap) b := by
  simp [contents, List.range_add, Nat.add_assoc, Nat.mod_add_mod]

/-- The cells behind the last one are written. -/
theorem contents_appendMany {cap tail count len start : ℕ} {cell cell' x : ℕ → β}
    (hc : count + len ≤ cap)
    (hnew : ∀ m < len, cell' (((tail + count) % cap + m) % cap) = x (start + m))
    (hold : ∀ i, (∀ m < len, i ≠ ((tail + count) % cap + m) % cap) → cell' i = cell i) :
    contents cap cell' tail (count + len) = contents cap cell tail count ++ slice x start len := by
  rw [contents_add]
  congr 1
  · refine contents_congr (fun j hj => hold _ (fun m hm => ?_))
    rw [Nat.mod_add_mod, Nat.add_assoc]
    exact index_ne (by omega) (by omega) (by omega)
  · exact List.map_congr_left (fun m hm => hnew m (List.mem_range.mp hm))

/-! ## Cells of a flat memory -/

variable {V : Type} {w : ℕ}

/-- The cell `i` of a memory cut into cells of `w` values. -/
def cellAt (w : ℕ) (mem : ℕ → V) (i : ℕ) : Fin w → V :=
  fun j => mem (i * w + j)

/-- The memory with `w` values copied to cell `i`. -/
def copyTo (mem : ℕ → V) (i : ℕ) (x : Fin w → V) : ℕ → V :=
  fun a => if h : i * w ≤ a ∧ a < i * w + w then x ⟨a - i * w, by omega⟩ else mem a

/-- INTERNAL: a copied cell. -/
theorem cellAt_copyTo_self (mem : ℕ → V) (i : ℕ) (x : Fin w → V) :
    cellAt w (copyTo mem i x) i = x := by
  funext j
  have hj := j.isLt
  unfold cellAt copyTo
  rw [dif_pos ⟨by omega, by omega⟩]
  congr 1
  exact Fin.ext (by simp)

/-- INTERNAL: another cell. -/
theorem cellAt_copyTo_ne (mem : ℕ → V) {i i' : ℕ} (hne : i' ≠ i) (x : Fin w → V) :
    cellAt w (copyTo mem i x) i' = cellAt w mem i' := by
  funext j
  have hj := j.isLt
  unfold cellAt copyTo
  refine dif_neg ?_
  rintro ⟨hle, hlt⟩
  rcases Nat.lt_or_gt_of_ne hne with h | h
  · have : (i' + 1) * w ≤ i * w := Nat.mul_le_mul_right w h
    rw [Nat.succ_mul] at this
    omega
  · have : (i + 1) * w ≤ i' * w := Nat.mul_le_mul_right w h
    rw [Nat.succ_mul] at this
    omega

/-- A copy to one of the first `cap` cells touches the first `cap * w` values only. -/
theorem copyTo_outside (mem : ℕ → V) {cap i a : ℕ} (hi : i < cap) (x : Fin w → V)
    (ha : cap * w ≤ a) : copyTo mem i x a = mem a := by
  unfold copyTo
  refine dif_neg ?_
  rintro ⟨-, hlt⟩
  have : (i + 1) * w ≤ cap * w := Nat.mul_le_mul_right w hi
  rw [Nat.succ_mul] at this
  omega

/-! ## Runs of cells -/

/-- `memcpy` of `len` values from `src + j` to `mem + i`. -/
def blit (mem : ℕ → V) (i : ℕ) (src : ℕ → V) (j len : ℕ) : ℕ → V :=
  fun a => if i ≤ a ∧ a < i + len then src (j + (a - i)) else mem a

/-- Copy `len` cells of `src` from `j` on to a ring with `cap` cells in `mem`, from `head` on. -/
def copyIn (cap w : ℕ) (mem : ℕ → V) (head : ℕ) (src : ℕ → V) (j len : ℕ) : ℕ → V :=
  let first := cap - head
  if len ≤ first then blit mem (head * w) src (j * w) (len * w)
  else blit (blit mem (head * w) src (j * w) (first * w)) 0 src ((j + first) * w) ((len - first) * w)

/-- Copy `len` cells of a ring, from `tail` on, to `dst` from `i` on. -/
def copyOut (cap w : ℕ) (mem : ℕ → V) (tail : ℕ) (dst : ℕ → V) (i len : ℕ) : ℕ → V :=
  let first := cap - tail
  if len ≤ first then blit dst (i * w) mem (tail * w) (len * w)
  else blit (blit dst (i * w) mem (tail * w) (first * w)) ((i + first) * w) mem 0 ((len - first) * w)

/-- INTERNAL: a copy of bytes is a copy of cells. -/
theorem cellAt_blit (mem : ℕ → V) (i : ℕ) (src : ℕ → V) (j len : ℕ) :
    cellAt w (blit mem (i * w) src (j * w) (len * w)) =
      blit (cellAt w mem) i (cellAt w src) j len := by
  funext c q
  have hq := q.isLt
  unfold cellAt blit
  by_cases hc : i ≤ c ∧ c < i + len
  · obtain ⟨d, rfl⟩ := Nat.exists_eq_add_of_le hc.1
    have hd : d + 1 ≤ len := by omega
    have hdw : (d + 1) * w ≤ len * w := Nat.mul_le_mul_right w hd
    rw [Nat.succ_mul] at hdw
    rw [if_pos hc, if_pos (by rw [Nat.add_mul]; omega)]
    congr 1
    rw [Nat.add_mul, Nat.add_sub_cancel_left, Nat.add_mul]
    omega
  · rw [if_neg hc, if_neg]
    rintro ⟨hle, hlt⟩
    refine hc ⟨?_, ?_⟩
    · by_contra hci
      have : (c + 1) * w ≤ i * w := Nat.mul_le_mul_right w (by omega)
      rw [Nat.succ_mul] at this
      omega
    · by_contra hci
      have : (i + len) * w ≤ c * w := Nat.mul_le_mul_right w (by omega)
      rw [Nat.add_mul] at this
      omega

/-- INTERNAL: a copy into the ring, byte by byte or cell by cell. -/
theorem cellAt_copyIn (cap : ℕ) (mem : ℕ → V) (head : ℕ) (src : ℕ → V) (j len : ℕ) :
    cellAt w (copyIn cap w mem head src j len) =
      copyIn cap 1 (cellAt w mem) head (cellAt w src) j len := by
  unfold copyIn
  dsimp only
  split
  · rw [cellAt_blit]
    simp
  · have hzero : cellAt w (blit (blit mem (head * w) src (j * w) ((cap - head) * w)) 0 src
        ((j + (cap - head)) * w) ((len - (cap - head)) * w)) = _ :=
      Nat.zero_mul w ▸ cellAt_blit _ 0 src (j + (cap - head)) (len - (cap - head))
    rw [hzero, cellAt_blit]
    simp

/-- INTERNAL: a copy out of the ring, byte by byte or cell by cell. -/
theorem cellAt_copyOut (cap : ℕ) (mem : ℕ → V) (tail : ℕ) (dst : ℕ → V) (i len : ℕ) :
    cellAt w (copyOut cap w mem tail dst i len) =
      copyOut cap 1 (cellAt w mem) tail (cellAt w dst) i len := by
  unfold copyOut
  dsimp only
  split
  · rw [cellAt_blit]
    simp
  · have hzero : cellAt w (blit (blit dst (i * w) mem (tail * w) ((cap - tail) * w))
        ((i + (cap - tail)) * w) mem 0 ((len - (cap - tail)) * w)) = _ :=
      Nat.zero_mul w ▸ cellAt_blit _ (i + (cap - tail)) mem 0 (len - (cap - tail))
    rw [hzero, cellAt_blit]
    simp

/-- The place of a cell of a run, before and behind the end of the ring. -/
theorem index_cases {cap head m : ℕ} (hh : head < cap) (hm : m < cap) :
    (m < cap - head ∧ (head + m) % cap = head + m) ∨
      (cap - head ≤ m ∧ (head + m) % cap = m - (cap - head)) := by
  by_cases h : m < cap - head
  · exact Or.inl ⟨h, Nat.mod_eq_of_lt (by omega)⟩
  · refine Or.inr ⟨by omega, ?_⟩
    rw [show head + m = m - (cap - head) + cap by omega, Nat.add_mod_right,
      Nat.mod_eq_of_lt (by omega)]

/-- INTERNAL: each cell of the ring after a copy. -/
theorem copyIn_apply (cap : ℕ) (mem : ℕ → V) (head : ℕ) (src : ℕ → V) (j len i : ℕ) :
    copyIn cap 1 mem head src j len i =
      if len ≤ cap - head then if head ≤ i ∧ i < head + len then src (j + (i - head)) else mem i
      else if i < len - (cap - head) then src (j + (cap - head) + i)
      else if head ≤ i ∧ i < head + (cap - head) then src (j + (i - head)) else mem i := by
  unfold copyIn blit
  split <;> simp

/-- INTERNAL: each cell of the destination after a copy. -/
theorem copyOut_apply (cap : ℕ) (mem : ℕ → V) (tail : ℕ) (dst : ℕ → V) (i len c : ℕ) :
    copyOut cap 1 mem tail dst i len c =
      if len ≤ cap - tail then if i ≤ c ∧ c < i + len then mem (tail + (c - i)) else dst c
      else if i + (cap - tail) ≤ c ∧ c < i + (cap - tail) + (len - (cap - tail)) then
        mem (c - (i + (cap - tail)))
      else if i ≤ c ∧ c < i + (cap - tail) then mem (tail + (c - i)) else dst c := by
  unfold copyOut blit
  split <;> simp

/-- INTERNAL: the cells that a copy writes. -/
theorem copyIn_written {cap head len : ℕ} (hh : head < cap) (hl : len ≤ cap) (mem src : ℕ → V) (j : ℕ)
    {m : ℕ} (hm : m < len) : copyIn cap 1 mem head src j len ((head + m) % cap) = src (j + m) := by
  rw [copyIn_apply]
  rcases index_cases hh (show m < cap by omega) with ⟨hlt, heq⟩ | ⟨hge, heq⟩
  · rw [heq]
    split
    · rw [if_pos (by omega), Nat.add_sub_cancel_left]
    · rw [if_neg (by omega), if_pos (by omega), Nat.add_sub_cancel_left]
  · rw [heq, if_neg (by omega), if_pos (by omega)]
    congr 1
    omega

/-- INTERNAL: the cells that a copy leaves. -/
theorem copyIn_other {cap head len : ℕ} (hh : head < cap) (hl : len ≤ cap) (mem src : ℕ → V) (j : ℕ)
    {i : ℕ} (hi : ∀ m < len, i ≠ (head + m) % cap) : copyIn cap 1 mem head src j len i = mem i := by
  have hfirst : ∀ m, m < len → m < cap - head → i ≠ head + m := by
    intro m hm hlt
    rw [← Nat.mod_eq_of_lt (show head + m < cap by omega)]
    exact hi m hm
  have hsecond : ∀ m, m < len → cap - head ≤ m → i ≠ m - (cap - head) := by
    intro m hm hge
    rcases index_cases hh (show m < cap by omega) with ⟨hlt, -⟩ | ⟨-, heq⟩
    · omega
    · rw [← heq]
      exact hi m hm
  rw [copyIn_apply]
  split
  · rw [if_neg]
    intro h
    exact hfirst (i - head) (by omega) (by omega) (by omega)
  · rw [if_neg, if_neg]
    · intro h
      exact hfirst (i - head) (by omega) (by omega) (by omega)
    · intro h
      exact hsecond (i + (cap - head)) (by omega) (by omega) (by omega)

/-- INTERNAL: the cells of the destination that are written. -/
theorem copyOut_read {cap tail len : ℕ} (ht : tail < cap) (hl : len ≤ cap) (mem dst : ℕ → V) (i : ℕ)
    {m : ℕ} (hm : m < len) : copyOut cap 1 mem tail dst i len (i + m) = mem ((tail + m) % cap) := by
  rw [copyOut_apply]
  rcases index_cases ht (show m < cap by omega) with ⟨hlt, heq⟩ | ⟨hge, heq⟩
  · rw [heq]
    split
    · rw [if_pos (by omega), Nat.add_sub_cancel_left]
    · rw [if_neg (by omega), if_pos (by omega), Nat.add_sub_cancel_left]
  · rw [heq, if_neg (by omega), if_pos (by omega)]
    congr 1
    omega

/-- INTERNAL: the cells of the destination that are left. -/
theorem copyOut_other (cap tail : ℕ) {len : ℕ} (mem dst : ℕ → V) (i : ℕ) {c : ℕ}
    (hc : c < i ∨ i + len ≤ c) : copyOut cap 1 mem tail dst i len c = dst c := by
  rw [copyOut_apply]
  split
  · rw [if_neg (by omega)]
  · rw [if_neg (by omega), if_neg (by omega)]

end RingBuffer
