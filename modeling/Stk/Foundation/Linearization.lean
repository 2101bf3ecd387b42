import Mathlib.Data.List.Basic
import Mathlib.Data.List.Perm.Basic

/-!
# Linear orders of concurrent operations

A history lists the operations that have returned, each with the step at which it started and the
step at which it took its effect at the latest (`Interval`).  An order of the history is a
linearization if no operation comes before one that had stopped when it started, and if a
sequential object, `apply : S → O → Option S`, accepts the operations in that order.

A history grows by an operation at the end of the order (`Linearizes.concat`), or by one whose
effect the next operation covers (`Linearizes.insert`).
-/

set_option autoImplicit false

namespace Linearization

variable {S O : Type}

/-- An operation and the steps between which it took effect. -/
structure Interval (O : Type) where
  start : ℕ
  stop : ℕ
  op : O
deriving DecidableEq

/-- The object accepts the operations in this order, and ends in `s'`. -/
def Accepts (apply : S → O → Option S) : S → List (Interval O) → S → Prop
  | s, [], s' => s' = s
  | s, x :: l, s' => ∃ s₁, apply s x.op = some s₁ ∧ Accepts apply s₁ l s'

variable {apply : S → O → Option S} {s s' s'' : S}

theorem accepts_append {l l' : List (Interval O)} :
    Accepts apply s (l ++ l') s'' ↔ ∃ s', Accepts apply s l s' ∧ Accepts apply s' l' s'' := by
  induction l generalizing s with
  | nil =>
    constructor
    · intro h
      exact ⟨s, rfl, h⟩
    · rintro ⟨s', hs, h⟩
      rw [← show s' = s from hs]
      exact h
  | cons x l ih =>
    constructor
    · rintro ⟨s₁, hone, hrest⟩
      obtain ⟨s', hl, hl'⟩ := ih.mp hrest
      exact ⟨s', ⟨s₁, hone, hl⟩, hl'⟩
    · rintro ⟨s', ⟨s₁, hone, hl⟩, hl'⟩
      exact ⟨s₁, hone, ih.mpr ⟨s', hl, hl'⟩⟩

/-- What holds at first and is kept by every operation of the order holds at its end. -/
theorem Accepts.keeps {P : S → Prop} {l : List (Interval O)}
    (hkeep : ∀ x ∈ l, ∀ s s', P s → apply s x.op = some s' → P s') (hs : P s) (h : Accepts apply s l s') :
    P s' := by
  induction l generalizing s with
  | nil =>
    rw [show s' = s from h]
    exact hs
  | cons x l ih =>
    obtain ⟨s₁, hone, hrest⟩ := h
    apply ih (fun y hy => hkeep y (List.mem_cons_of_mem x hy)) _ hrest
    exact hkeep x List.mem_cons_self s s₁ hs hone

/-- `order` is a linearization of the history `h` that ends in `s'`. -/
structure Linearizes (apply : S → O → Option S) (s : S) (h order : List (Interval O)) (s' : S) : Prop where
  perm : order.Perm h
  realTime : order.Pairwise (fun x y => x.start ≤ y.stop)
  accepts : Accepts apply s order s'

/-- The history has a linearization that ends in `s'`. -/
def Linearizable (apply : S → O → Option S) (s : S) (h : List (Interval O)) (s' : S) : Prop :=
  ∃ order, Linearizes apply s h order s'

variable {h order : List (Interval O)} {x y : Interval O}

namespace Linearizes

theorem nil : Linearizes apply s [] [] s := ⟨.nil, .nil, rfl⟩

/-- An operation that stops after all others have started takes effect after them. -/
theorem concat (hl : Linearizes apply s h order s') (hstart : ∀ y ∈ h, y.start ≤ x.stop)
    (hx : apply s' x.op = some s'') : Linearizes apply s (h ++ [x]) (order ++ [x]) s'' where
  perm := hl.perm.append_right [x]
  realTime := by
    rw [List.pairwise_append]
    refine ⟨hl.realTime, List.pairwise_singleton _ _, fun y hy z hz => ?_⟩
    rw [List.mem_singleton.mp hz]
    exact hstart y (hl.perm.mem_iff.mp hy)
  accepts := accepts_append.mpr ⟨s', hl.accepts, s'', hx, rfl⟩

/-- An operation takes effect just before one that covers it. -/
theorem insert {before after : List (Interval O)} {f : Interval O}
    (hl : Linearizes apply s h (before ++ f :: after) s') (hstart : ∀ y ∈ h, y.start ≤ x.stop)
    (hstop : ∀ y ∈ f :: after, x.start ≤ y.stop)
    (hcover : ∀ t t', apply t f.op = some t' → ∃ m, apply t x.op = some m ∧ apply m f.op = some t') :
    Linearizes apply s (h ++ [x]) (before ++ x :: f :: after) s' where
  perm := by
    have hmiddle : (before ++ x :: f :: after).Perm (x :: (before ++ f :: after)) := List.perm_middle
    apply hmiddle.trans
    apply (hl.perm.cons x).trans
    exact (List.perm_append_singleton x h).symm
  realTime := by
    obtain ⟨hbefore, hafter, hboth⟩ := List.pairwise_append.mp hl.realTime
    rw [List.pairwise_append]
    refine ⟨hbefore, List.pairwise_cons.mpr ⟨hstop, hafter⟩, fun y hy z hz => ?_⟩
    rcases List.mem_cons.mp hz with rfl | hz
    · exact hstart y (hl.perm.mem_iff.mp (List.mem_append_left _ hy))
    · exact hboth y hy z hz
  accepts := by
    obtain ⟨t, hbefore, t', hf, hafter⟩ := accepts_append.mp hl.accepts
    obtain ⟨m, hx, hm⟩ := hcover t t' hf
    exact accepts_append.mpr ⟨t, hbefore, m, hx, t', hm, hafter⟩

/-- What holds at first and is kept by every operation of the history holds at the end. -/
theorem keeps {P : S → Prop} (hl : Linearizes apply s h order s')
    (hkeep : ∀ x ∈ h, ∀ s s', P s → apply s x.op = some s' → P s') (hs : P s) : P s' :=
  hl.accepts.keeps (fun x hx => hkeep x (hl.perm.mem_iff.mp hx)) hs

/-- INTERNAL: the order up to an operation of the history and from it on. -/
theorem split (hl : Linearizes apply s h order s') (hx : x ∈ h) :
    ∃ before after t t', order = before ++ x :: after ∧ Accepts apply s before t ∧
      apply t x.op = some t' ∧ Accepts apply t' after s' := by
  obtain ⟨before, after, rfl⟩ := List.append_of_mem (hl.perm.mem_iff.mpr hx)
  obtain ⟨t, hbefore, t', hone, hafter⟩ := accepts_append.mp hl.accepts
  exact ⟨before, after, t, t', rfl, hbefore, hone, hafter⟩

/-- What an operation of the history brings about and all of them keep holds at the end. -/
theorem established {P : S → Prop} (hl : Linearizes apply s h order s') (hx : x ∈ h)
    (hkeep : ∀ y ∈ h, ∀ s s', P s → apply s y.op = some s' → P s')
    (hP : ∀ s s', apply s x.op = some s' → P s') : P s' := by
  obtain ⟨before, after, t, t', rfl, -, hone, hafter⟩ := hl.split hx
  refine hafter.keeps (fun y hy => hkeep y ?_) (hP t t' hone)
  exact hl.perm.mem_iff.mp (List.mem_append_right _ (List.mem_cons_of_mem x hy))

/-- An operation that is refused wherever `P` holds comes before one that brings `P` about for good, and so it
starts before that one stops. -/
theorem start_le_stop {P : S → Prop} (hl : Linearizes apply s h order s') (hx : x ∈ h) (hy : y ∈ h)
    (hne : y ≠ x) (hkeep : ∀ o s s', P s → apply s o = some s' → P s')
    (hP : ∀ s s', apply s x.op = some s' → P s') (hrefused : ∀ s, P s → apply s y.op = none) :
    y.start ≤ x.stop := by
  obtain ⟨before, after, t, t', rfl, -, hone, hafter⟩ := hl.split hx
  obtain ⟨-, -, hboth⟩ := List.pairwise_append.mp hl.realTime
  rcases List.mem_append.mp (hl.perm.mem_iff.mpr hy) with hbefore | hlater
  · exact hboth y hbefore x List.mem_cons_self
  · exfalso
    rcases List.mem_cons.mp hlater with heq | hmem
    · exact hne heq
    · obtain ⟨early, late, rfl⟩ := List.append_of_mem hmem
      obtain ⟨m, hearly, m', hym, -⟩ := accepts_append.mp hafter
      have hm : P m := hearly.keeps (fun z _ => hkeep z.op) (hP t t' hone)
      rw [hrefused m hm] at hym
      contradiction

end Linearizes

end Linearization
