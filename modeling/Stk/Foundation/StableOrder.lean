import Mathlib.Data.List.Perm.Basic
import Mathlib.Order.Lattice

/-!
# Stable order

`StablySorted key arrivals l`: the list holds what has arrived, in the order of the keys, and equal keys in the
order of arrival.  Insertion before the first greater key keeps it, and so does taking out.
-/

set_option autoImplicit false

namespace StableOrder

variable {β κ : Type} [LinearOrder κ] {key : β → κ} {arrivals l : List β} {x : β}

/-- Insert before the first element with a greater key. -/
def insert (key : β → κ) (x : β) : List β → List β
  | [] => [x]
  | y :: l => if key x < key y then x :: y :: l else y :: insert key x l

/-- `a` comes before `b`. -/
def Precedes (key : β → κ) (arrivals : List β) (a b : β) : Prop :=
  key a < key b ∨ key a = key b ∧ [a, b].Sublist arrivals

structure StablySorted (key : β → κ) (arrivals l : List β) : Prop where
  perm : l.Perm arrivals
  sorted : l.Pairwise (Precedes key arrivals)

theorem Precedes.le {a b : β} (h : Precedes key arrivals a b) : key a ≤ key b := by
  rcases h with hlt | ⟨heq, -⟩
  · exact hlt.le
  · exact heq.le

theorem Precedes.mono {a b : β} {arrivals' : List β} (hsub : arrivals.Sublist arrivals')
    (h : Precedes key arrivals a b) : Precedes key arrivals' a b :=
  h.imp_right fun h => ⟨h.1, h.2.trans hsub⟩

theorem insert_perm (key : β → κ) (x : β) (l : List β) : (insert key x l).Perm (x :: l) := by
  induction l with
  | nil => exact List.Perm.refl _
  | cons y l ih =>
    unfold insert
    split
    · exact List.Perm.refl _
    · exact (ih.cons y).trans (List.Perm.swap x y l)

theorem mem_insert {z : β} : z ∈ insert key x l ↔ z = x ∨ z ∈ l := by
  rw [(insert_perm key x l).mem_iff, List.mem_cons]

theorem stablySorted_nil : StablySorted key [] [] := ⟨List.Perm.refl _, List.Pairwise.nil⟩

/-- INTERNAL: the order of the list into which a last arrival has been inserted. -/
theorem insert_sorted (hmem : ∀ y ∈ l, y ∈ arrivals) (hl : l.Pairwise (Precedes key arrivals)) :
    (insert key x l).Pairwise (Precedes key (arrivals ++ [x])) := by
  have hsub : arrivals.Sublist (arrivals ++ [x]) := List.sublist_append_left _ _
  induction l with
  | nil => exact List.pairwise_singleton _ _
  | cons y l ih =>
    obtain ⟨hy, hrest⟩ := List.pairwise_cons.mp hl
    have hold : (y :: l).Pairwise (Precedes key (arrivals ++ [x])) := hl.imp (Precedes.mono hsub)
    unfold insert
    split
    · next hlt =>
      refine List.pairwise_cons.mpr ⟨?_, hold⟩
      intro z hz
      rcases List.mem_cons.mp hz with rfl | hz
      · exact .inl hlt
      · exact .inl (hlt.trans_le (hy z hz).le)
    · next hge =>
      refine List.pairwise_cons.mpr ⟨?_, ih (fun z hz => hmem z (List.mem_cons_of_mem y hz)) hrest⟩
      intro z hz
      rcases mem_insert.mp hz with rfl | hz
      · rcases (not_lt.mp hge).lt_or_eq with hlt | heq
        · exact .inl hlt
        · have hfirst : [y].Sublist arrivals := List.singleton_sublist.mpr (hmem y List.mem_cons_self)
          exact .inr ⟨heq, hfirst.append (List.Sublist.refl [z])⟩
      · exact (hy z hz).mono hsub

theorem StablySorted.insert (h : StablySorted key arrivals l) (x : β) :
    StablySorted key (arrivals ++ [x]) (insert key x l) where
  perm := (insert_perm key x l).trans ((h.perm.cons x).trans (List.perm_append_singleton x arrivals).symm)
  sorted := insert_sorted (fun _ hy => h.perm.mem_iff.mp hy) h.sorted

theorem StablySorted.filter (h : StablySorted key arrivals l) (p : β → Bool) :
    StablySorted key (arrivals.filter p) (l.filter p) where
  perm := h.perm.filter p
  sorted := by
    rw [List.pairwise_filter]
    apply h.sorted.imp
    intro a b hab ha hb
    refine hab.imp_right fun hab => ⟨hab.1, ?_⟩
    have hkept := hab.2.filter p
    rwa [List.filter_cons_of_pos ha, List.filter_cons_of_pos hb, List.filter_nil] at hkept

end StableOrder
