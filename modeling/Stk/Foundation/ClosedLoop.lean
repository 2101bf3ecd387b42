import Mathlib.Data.List.Nodup
import Mathlib.Data.List.TakeWhile
import Mathlib.Data.List.Perm.Basic
import Mathlib.Data.List.Rotate

/-!
# Closed-loop lists with a cursor

A closed-loop list is a finite sequence whose last member is followed by its
first.  `after l x` is the tour of the other members that starts right behind
`x`; its first and last members are the successor and the predecessor of `x`.

A `ClosedLoop` adds a cursor, the member that was served last.  Three operations
move it: `advance` serves the successor of the cursor, `linkBack` appends a
member at the tail, and `unlink x` removes `x` and puts the cursor on the
predecessor of `x`.  Everything about the order of service is read off
`upcoming`, the order in which the members would be served if nothing else
happened:

* `advance` moves the first of `upcoming` to its end (`upcoming_advance`);
* `unlink x` makes it the tour behind `x` (`upcoming_unlink`), wherever the
  cursor stood before;
* `linkBack x` puts `x` behind the members up to the tail and before those from
  the first member up to the cursor (`upcoming_linkBack`).
-/

set_option autoImplicit false

variable {α : Type} [DecidableEq α]

namespace ClosedLoop

/-- The members of `l` other than `x`, in the order met when walking on from `x`. -/
def after (l : List α) (x : α) : List α :=
  (l.dropWhile (fun y => decide (y ≠ x))).tail ++ l.takeWhile (fun y => decide (y ≠ x))

/-- The member that follows `x`, which is `x` itself when it is alone. -/
def succ (l : List α) (x : α) : α :=
  (after l x).head?.getD x

/-- The member that precedes `x`, which is `x` itself when it is alone. -/
def pred (l : List α) (x : α) : α :=
  (after l x).getLast?.getD x

theorem takeWhile_ne_append_cons {a : List α} {x : α} (b : List α) (hx : x ∉ a) :
    (a ++ x :: b).takeWhile (fun y => decide (y ≠ x)) = a := by
  rw [List.takeWhile_append_of_pos]
  · simp
  · intro y hy
    have hne : y ≠ x := fun h => hx (h ▸ hy)
    simpa using hne

theorem dropWhile_ne_append_cons {a : List α} {x : α} (b : List α) (hx : x ∉ a) :
    (a ++ x :: b).dropWhile (fun y => decide (y ≠ x)) = x :: b := by
  rw [List.dropWhile_append_of_pos]
  · simp
  · intro y hy
    have hne : y ≠ x := fun h => hx (h ▸ hy)
    simpa using hne

/-- The tour behind `x`, with the list cut at `x`. -/
theorem after_append_cons {a : List α} {x : α} (b : List α) (hx : x ∉ a) :
    after (a ++ x :: b) x = b ++ a := by
  unfold after
  rw [dropWhile_ne_append_cons b hx, takeWhile_ne_append_cons b hx]
  rfl

omit [DecidableEq α] in
/-- A member cuts a duplicate-free list into two parts that do not hold it. -/
theorem exists_cut {l : List α} {x : α} (hx : x ∈ l) (hl : l.Nodup) :
    ∃ a b, l = a ++ x :: b ∧ x ∉ a ∧ x ∉ b := by
  obtain ⟨a, b, rfl⟩ := List.append_of_mem hx
  have hmid := (List.nodup_middle.mp hl)
  rw [List.nodup_cons] at hmid
  exact ⟨a, b, rfl, fun h => hmid.1 (List.mem_append_left b h),
    fun h => hmid.1 (List.mem_append_right a h)⟩

theorem after_perm_erase {l : List α} {x : α} (hx : x ∈ l) (hl : l.Nodup) :
    (after l x).Perm (l.erase x) := by
  obtain ⟨a, b, rfl, ha, -⟩ := exists_cut hx hl
  rw [after_append_cons b ha, List.erase_append_right _ ha, List.erase_cons_head]
  exact List.perm_append_comm

theorem mem_after_iff {l : List α} {x y : α} (hx : x ∈ l) (hl : l.Nodup) :
    y ∈ after l x ↔ y ∈ l ∧ y ≠ x := by
  rw [(after_perm_erase hx hl).mem_iff, hl.mem_erase_iff]
  exact and_comm

theorem succ_mem {l : List α} {x : α} (hx : x ∈ l) (hl : l.Nodup) : succ l x ∈ l := by
  unfold succ
  cases h : after l x with
  | nil => simpa using hx
  | cons y t =>
    have hy : y ∈ after l x := by rw [h]; exact List.mem_cons_self
    simpa using ((mem_after_iff hx hl).mp hy).1

theorem pred_mem {l : List α} {x : α} (hx : x ∈ l) (hl : l.Nodup) : pred l x ∈ l := by
  unfold pred
  cases h : (after l x).getLast? with
  | none => simpa using hx
  | some y => simpa using ((mem_after_iff hx hl).mp (List.mem_of_getLast? h)).1

/-- `x` follows itself exactly when it is the only member. -/
theorem succ_eq_self_iff {l : List α} {x : α} (hx : x ∈ l) (hl : l.Nodup) :
    succ l x = x ↔ l.erase x = [] := by
  unfold succ
  cases h : after l x with
  | nil =>
    have := (after_perm_erase hx hl)
    rw [h] at this
    simp [List.Perm.eq_nil this.symm]
  | cons y t =>
    have hy : y ∈ after l x := by rw [h]; exact List.mem_cons_self
    have hne : y ≠ x := ((mem_after_iff hx hl).mp hy).2
    have hmem : y ∈ l.erase x := (after_perm_erase hx hl).mem_iff.mp hy
    simp only [List.head?_cons, Option.getD_some, hne, false_iff]
    exact List.ne_nil_of_mem hmem

/-- The list is its tour from `x` on, up to where it is cut open. -/
theorem isRotated_cons_after {l : List α} {x : α} (hx : x ∈ l) (hl : l.Nodup) :
    l.IsRotated (x :: after l x) := by
  obtain ⟨a, b, rfl, ha, -⟩ := exists_cut hx hl
  rw [after_append_cons b ha]
  exact List.isRotated_append

/-- Without `x`, the list is the tour behind `x`, up to where it is cut open. -/
theorem erase_isRotated_after {l : List α} {x : α} (hx : x ∈ l) (hl : l.Nodup) :
    (l.erase x).IsRotated (after l x) := by
  obtain ⟨a, b, rfl, ha, -⟩ := exists_cut hx hl
  rw [after_append_cons b ha, List.erase_append_right _ ha, List.erase_cons_head]
  exact List.isRotated_append

omit [DecidableEq α] in
/-- A rotation of a duplicate-free list that keeps the first member keeps the list. -/
theorem eq_of_cons_isRotated_cons {u t : List α} {x : α} (hnd : (x :: u).Nodup)
    (h : (x :: u).IsRotated (x :: t)) : u = t := by
  obtain ⟨n, hle, hn⟩ := List.isRotated_iff_mod.mp h
  rw [List.rotate_eq_drop_append_take hle] at hn
  cases n with
  | zero => simpa using hn
  | succ m =>
    simp only [List.drop_succ_cons, List.take_succ_cons] at hn
    cases hd : u.drop m with
    | nil =>
      -- the whole list is moved behind itself
      have hm : u.take m = u := List.take_of_length_le (List.drop_eq_nil_iff.mp hd)
      simpa [hd, hm] using hn
    | cons y d =>
      -- `x` would have to occur a second time
      have hy : y = x := by simpa [hd] using congrArg List.head? hn
      have hmem : x ∈ u := by
        apply List.mem_of_mem_drop (i := m)
        rw [hd, hy]
        exact List.mem_cons_self
      exact absurd hmem (List.nodup_cons.mp hnd).1

/-- The tour behind a member does not depend on where the list is cut open. -/
theorem after_eq_of_isRotated {l t : List α} {x : α} (hl : l.Nodup)
    (h : l.IsRotated (x :: t)) : after l x = t := by
  have hx : x ∈ l := h.mem_iff.mpr List.mem_cons_self
  have hrot := isRotated_cons_after hx hl
  exact eq_of_cons_isRotated_cons (hrot.nodup_iff.mp hl) (hrot.symm.trans h)

/-- Behind the successor of `x` come the rest of the tour and then `x`. -/
theorem after_of_after_cons {l : List α} {x y : α} {t : List α} (hx : x ∈ l) (hl : l.Nodup)
    (h : after l x = y :: t) : after l y = t ++ [x] := by
  apply after_eq_of_isRotated hl
  have hrot := isRotated_cons_after hx hl
  rw [h] at hrot
  have hmove : ([x] ++ y :: t).IsRotated (y :: t ++ [x]) := List.isRotated_append
  exact hrot.trans hmove

/-- Removing `x` and standing on the predecessor of its successor leaves the tour
behind `x`. -/
theorem after_erase_pred {l : List α} {x : α} (hx : x ∈ l) (hl : l.Nodup)
    (hne : succ l x ≠ x) :
    after (l.erase x) (pred (l.erase x) (succ l x)) ++ [pred (l.erase x) (succ l x)] =
      after l x := by
  have herase := erase_isRotated_after hx hl
  unfold succ at hne ⊢
  cases htour : after l x with
  | nil => simp [htour] at hne
  | cons y t =>
    rw [htour] at herase
    have hy : after (l.erase x) y = t := after_eq_of_isRotated (hl.erase x) herase
    simp only [List.head?_cons, Option.getD_some]
    unfold pred
    rw [hy]
    -- the predecessor of `y` is the last of `t`, or `y` itself when `t` is empty
    rcases List.eq_nil_or_concat t with rfl | ⟨s, z, rfl⟩
    · simpa using hy
    · simp only [List.concat_eq_append, List.getLast?_append, List.getLast?_singleton,
        Option.some_or, Option.getD_some] at herase ⊢
      have hmove : (y :: s ++ [z]).IsRotated ([z] ++ y :: s) := List.isRotated_append
      have hz : (l.erase x).IsRotated (z :: (y :: s)) := herase.trans hmove
      rw [after_eq_of_isRotated (hl.erase x) hz]
      simp

end ClosedLoop

/-- A closed-loop list together with the member that was served last. -/
structure ClosedLoop (α : Type) where
  members : List α
  cursor : Option α
deriving DecidableEq

namespace ClosedLoop

/-- Serve the successor of the cursor and move the cursor there. -/
def advance (r : ClosedLoop α) : Option α × ClosedLoop α :=
  match r.cursor with
  | none => (none, r)
  | some c => (some (succ r.members c), { r with cursor := some (succ r.members c) })

/-- Append `x` at the tail; it becomes the cursor of a loop that had none. -/
def linkBack (r : ClosedLoop α) (x : α) : ClosedLoop α :=
  { members := r.members ++ [x], cursor := some (r.cursor.getD x) }

/-- Remove `x` and put the cursor on its predecessor. -/
def unlink (r : ClosedLoop α) (x : α) : ClosedLoop α :=
  { members := r.members.erase x
    cursor := if succ r.members x ≠ x then some (pred (r.members.erase x) (succ r.members x))
      else none }

/-- The order in which the members are served next. -/
def upcoming (r : ClosedLoop α) : List α :=
  match r.cursor with
  | none => []
  | some c => after r.members c ++ [c]

/-- The members are distinct and the cursor is one of them, if there are any. -/
structure Wf (r : ClosedLoop α) : Prop where
  nodup : r.members.Nodup
  cursor_none : r.cursor = none → r.members = []
  cursor_mem : ∀ c, r.cursor = some c → c ∈ r.members

omit [DecidableEq α] in
theorem Wf.empty : Wf (α := α) ⟨[], none⟩ :=
  ⟨List.nodup_nil, fun _ => rfl, by simp⟩

theorem upcoming_perm {r : ClosedLoop α} (h : r.Wf) : r.upcoming.Perm r.members := by
  unfold upcoming
  cases hc : r.cursor with
  | none => simp [h.cursor_none hc]
  | some c =>
    have hmem := h.cursor_mem c hc
    have htour : (after r.members c ++ [c]).Perm (c :: r.members.erase c) :=
      (List.perm_append_singleton c _).trans ((after_perm_erase hmem h.nodup).cons c)
    exact htour.trans (List.perm_cons_erase hmem).symm

theorem mem_upcoming {r : ClosedLoop α} (h : r.Wf) {x : α} : x ∈ r.upcoming ↔ x ∈ r.members :=
  (upcoming_perm h).mem_iff

/-- What `advance` serves is the first of `upcoming`. -/
theorem advance_fst {r : ClosedLoop α} : r.advance.1 = r.upcoming.head? := by
  unfold advance upcoming
  cases hc : r.cursor with
  | none => rfl
  | some c =>
    simp only [succ]
    cases after r.members c <;> simp

/-- `advance` moves the first of `upcoming` to its end. -/
theorem upcoming_advance {r : ClosedLoop α} (h : r.Wf) {x : α} {t : List α}
    (hup : r.upcoming = x :: t) : r.advance.2.upcoming = t ++ [x] := by
  unfold upcoming at hup
  unfold advance
  cases hc : r.cursor with
  | none => simp [hc] at hup
  | some c =>
    have hmem := h.cursor_mem c hc
    simp only [hc] at hup
    simp only [upcoming]
    cases htour : after r.members c with
    | nil =>
      simp only [htour, List.nil_append, List.cons.injEq] at hup
      obtain ⟨rfl, rfl⟩ := hup
      simp [succ, htour]
    | cons y s =>
      simp only [htour, List.cons_append, List.cons.injEq] at hup
      obtain ⟨rfl, rfl⟩ := hup
      have hsucc : succ r.members c = y := by simp [succ, htour]
      rw [hsucc, after_of_after_cons hmem h.nodup htour]

theorem members_isRotated_upcoming {r : ClosedLoop α} (h : r.Wf) :
    r.members.IsRotated r.upcoming := by
  unfold upcoming
  cases hc : r.cursor with
  | none => simp [h.cursor_none hc]
  | some c =>
    have hmove : ([c] ++ after r.members c).IsRotated (after r.members c ++ [c]) :=
      List.isRotated_append
    exact (isRotated_cons_after (h.cursor_mem c hc) h.nodup).trans hmove

/-- `unlink x` leaves the tour behind `x`, wherever the cursor stood. -/
theorem upcoming_unlink {r : ClosedLoop α} (h : r.Wf) {x : α} (hx : x ∈ r.members) :
    (r.unlink x).upcoming = after r.members x := by
  unfold unlink upcoming
  by_cases hne : succ r.members x ≠ x
  · simp only [hne, ne_eq, not_false_eq_true, ↓reduceIte]
    exact after_erase_pred hx h.nodup hne
  · simp only [ne_eq, not_not] at hne
    have hnil := (succ_eq_self_iff hx h.nodup).mp hne
    have hperm := after_perm_erase hx h.nodup
    rw [hnil] at hperm
    simp [hne, hperm.eq_nil]

/-- `unlink x` with the order of service cut at `x`: service goes on behind `x`. -/
theorem upcoming_unlink_cut {r : ClosedLoop α} (h : r.Wf) {x : α} {u v : List α}
    (hup : r.upcoming = u ++ x :: v) : (r.unlink x).upcoming = v ++ u := by
  have hx : x ∈ r.members := (mem_upcoming h).mp (by simp [hup])
  rw [upcoming_unlink h hx]
  apply after_eq_of_isRotated h.nodup
  have hmove : (u ++ x :: v).IsRotated (x :: v ++ u) := List.isRotated_append
  exact (hup ▸ members_isRotated_upcoming h).trans hmove

/-- `linkBack x` puts `x` behind the members up to the tail and before the others. -/
theorem upcoming_linkBack {r : ClosedLoop α} {a b : List α} {c : α} (x : α)
    (hr : r = ⟨a ++ c :: b, some c⟩) (hc : c ∉ a) :
    (r.linkBack x).upcoming = b ++ x :: a ++ [c] := by
  subst hr
  have hcut : a ++ c :: b ++ [x] = a ++ c :: (b ++ [x]) := by simp
  simp only [linkBack, upcoming, Option.getD_some, hcut, after_append_cons (b ++ [x]) hc]
  simp

theorem Wf.advance {r : ClosedLoop α} (h : r.Wf) : r.advance.2.Wf := by
  unfold ClosedLoop.advance
  cases hc : r.cursor with
  | none => exact h
  | some c =>
    refine ⟨h.nodup, by simp, ?_⟩
    intro d hd
    simp only [Option.some.injEq] at hd
    subst hd
    exact succ_mem (h.cursor_mem c hc) h.nodup

omit [DecidableEq α] in
theorem Wf.linkBack {r : ClosedLoop α} (h : r.Wf) {x : α} (hx : x ∉ r.members) :
    (r.linkBack x).Wf := by
  refine ⟨?_, by simp [ClosedLoop.linkBack], ?_⟩
  · simp only [ClosedLoop.linkBack]
    exact List.nodup_append.mpr ⟨h.nodup, by simp, by
      intro y hy z hz
      simp only [List.mem_singleton] at hz
      subst hz
      exact fun hyz => hx (hyz ▸ hy)⟩
  · intro c hc
    simp only [ClosedLoop.linkBack, Option.some.injEq] at hc ⊢
    cases hcur : r.cursor with
    | none => simp [hcur] at hc; simp [hc]
    | some d =>
      have hd := h.cursor_mem d hcur
      simp only [hcur, Option.getD_some] at hc
      subst hc
      exact List.mem_append_left _ hd

theorem Wf.unlink {r : ClosedLoop α} (h : r.Wf) {x : α} (hx : x ∈ r.members) :
    (r.unlink x).Wf := by
  refine ⟨h.nodup.erase x, ?_, ?_⟩
  · intro hcur
    simp only [ClosedLoop.unlink, ne_eq, ite_not, ite_eq_left_iff, reduceCtorEq, imp_false,
      not_not] at hcur
    exact (succ_eq_self_iff hx h.nodup).mp hcur
  · intro c hc
    simp only [ClosedLoop.unlink] at hc ⊢
    by_cases hne : succ r.members x ≠ x
    · simp only [hne, ne_eq, not_false_eq_true, ↓reduceIte, Option.some.injEq] at hc
      subst hc
      apply pred_mem _ (h.nodup.erase x)
      exact (List.mem_erase_of_ne hne).mpr (succ_mem hx h.nodup)
    · simp [hne] at hc

end ClosedLoop
