import Mathlib.Algebra.BigOperators.Group.List.Basic
import Mathlib.Algebra.BigOperators.Intervals
import Mathlib.Algebra.Order.BigOperators.Group.List
import Mathlib.Algebra.Order.Floor.Div
import Mathlib.Algebra.Order.Group.Nat
import Mathlib.GroupTheory.GroupAction.Ring

/-!
# Busy windows

A processor that serves, slot by slot, the first pending task of a list.  Where the jobs of each task need no
more than their budget and come no closer together than their period, a job is pending for fewer slots than any
window that holds its own budget and the demand of the tasks before it.  The argument looks at the window that
begins where the tasks before it were last all at rest.
-/

set_option autoImplicit false

namespace BusyWindow

variable {ι : Type} {pending pending' : ℕ → ι → Bool} {j : ι} {a b c s t : ℕ}

/-- A job of task `j` is released in slot `a`. -/
def Released (pending : ℕ → ι → Bool) (j : ι) (a : ℕ) : Prop :=
  pending a j = true ∧ (a = 0 ∨ pending (a - 1) j = false)

/-- Task `j` is pending from slot `a` to slot `t`. -/
def PendingFrom (pending : ℕ → ι → Bool) (j : ι) (a t : ℕ) : Prop :=
  ∀ s, a ≤ s → s ≤ t → pending s j = true

/-! ## Releases -/

theorem Released.congr (h : Released pending j a) (hsame : ∀ s ≤ a, pending' s j = pending s j) :
    Released pending' j a := by
  refine ⟨(hsame a le_rfl).trans h.1, ?_⟩
  rcases h.2 with hzero | hbefore
  · exact .inl hzero
  · exact .inr ((hsame (a - 1) (Nat.sub_le a 1)).trans hbefore)

/-- What is pending has been released. -/
theorem exists_released (h : pending t j = true) : ∃ a ≤ t, Released pending j a ∧ PendingFrom pending j a t := by
  induction t with
  | zero =>
    refine ⟨0, le_rfl, ⟨h, .inl rfl⟩, fun s _ hs => ?_⟩
    rw [Nat.le_zero.mp hs]
    exact h
  | succ t ih =>
    cases hbefore : pending t j with
    | false =>
      refine ⟨t + 1, le_rfl, ⟨h, .inr hbefore⟩, fun s hs hs' => ?_⟩
      rw [le_antisymm hs' hs]
      exact h
    | true =>
      obtain ⟨a, ha, hreleased, hfrom⟩ := ih hbefore
      refine ⟨a, by omega, hreleased, fun s hs hs' => ?_⟩
      rcases Nat.lt_or_ge t s with hlt | hge
      · obtain rfl : s = t + 1 := by omega
        exact h
      · exact hfrom s hs hge

/-- Within a stretch there is no second release. -/
theorem Released.unique (ha : Released pending j a) (hfrom : PendingFrom pending j a t)
    (hb : Released pending j b) (hfrom' : PendingFrom pending j b t) (hat : a ≤ t) (hbt : b ≤ t) : a = b := by
  rcases lt_trichotomy a b with hlt | heq | hgt
  · have hpending := hfrom (b - 1) (by omega) (by omega)
    rcases hb.2 with hzero | hbefore
    · omega
    · rw [hpending] at hbefore
      cases hbefore
  · exact heq
  · have hpending := hfrom' (a - 1) (by omega) (by omega)
    rcases ha.2 with hzero | hbefore
    · omega
    · rw [hpending] at hbefore
      cases hbefore

/-- INTERNAL: where a stretch ends, looked at up to slot `m`. -/
theorem exists_end {m : ℕ} (ha : pending a j = true) (ham : a < m) :
    ∃ c, a < c ∧ c ≤ m ∧ PendingFrom pending j a (c - 1) ∧ (c = m ∨ pending c j = false) := by
  induction m, ham using Nat.le_induction with
  | base =>
    refine ⟨a + 1, Nat.lt_succ_self a, le_rfl, fun s hs hs' => ?_, .inl rfl⟩
    obtain rfl : s = a := by omega
    exact ha
  | succ m ham ih =>
    obtain ⟨c, hac, hcm, hfrom, hend⟩ := ih
    rcases hend with rfl | hrest
    · cases hnext : pending c j with
      | false => exact ⟨c, hac, Nat.le_succ c, hfrom, .inr hnext⟩
      | true =>
        refine ⟨c + 1, by omega, le_rfl, fun s hs hs' => ?_, .inl rfl⟩
        rcases Nat.lt_or_ge s c with hlt | hge
        · exact hfrom s hs (by omega)
        · obtain rfl : s = c := by omega
          exact hnext
    · exact ⟨c, hac, by omega, hfrom, .inr hrest⟩

/-- INTERNAL: where the stretch in which one of the tasks is pending begins. -/
theorem exists_start (pending : ℕ → ι → Bool) (higher : List ι) (a : ℕ) : ∃ t₀ ≤ a,
    (∀ s, t₀ ≤ s → s < a → ∃ j ∈ higher, pending s j = true) ∧
      (t₀ = 0 ∨ ∀ j ∈ higher, pending (t₀ - 1) j = false) := by
  induction a with
  | zero => exact ⟨0, le_rfl, fun s _ hs => absurd hs (Nat.not_lt_zero s), .inl rfl⟩
  | succ a ih =>
    by_cases hbusy : ∃ j ∈ higher, pending a j = true
    · obtain ⟨t₀, hle, hstretch, hstart⟩ := ih
      refine ⟨t₀, by omega, fun s hs hs' => ?_, hstart⟩
      rcases Nat.lt_or_ge s a with hlt | hge
      · exact hstretch s hs hlt
      · obtain rfl : s = a := by omega
        exact hbusy
    · refine ⟨a + 1, le_rfl, fun s hs hs' => by omega, .inr fun j hj => ?_⟩
      rw [Nat.add_sub_cancel]
      by_contra hpending
      apply hbusy
      exact ⟨j, hj, by simpa using hpending⟩

/-! ## Service -/

variable [DecidableEq ι] {runs runs' : ℕ → Option ι}

/-- The slots from `a` up to `b` that task `j` gets. -/
def served (runs : ℕ → Option ι) (j : ι) (a b : ℕ) : ℕ :=
  ∑ s ∈ Finset.Ico a b, if runs s = some j then 1 else 0

theorem served_add (runs : ℕ → Option ι) (j : ι) (hab : a ≤ b) (hbc : b ≤ c) :
    served runs j a b + served runs j b c = served runs j a c :=
  Finset.sum_Ico_consecutive _ hab hbc

theorem served_succ (runs : ℕ → Option ι) (j : ι) (hab : a ≤ b) :
    served runs j a (b + 1) = served runs j a b + if runs b = some j then 1 else 0 :=
  Finset.sum_Ico_succ_top hab _

theorem served_self (runs : ℕ → Option ι) (j : ι) (a : ℕ) : served runs j a a = 0 := by
  simp [served]

theorem served_congr (hsame : ∀ s, a ≤ s → s < b → runs' s = runs s) : served runs' j a b = served runs j a b := by
  apply Finset.sum_congr rfl
  intro s hs
  rw [Finset.mem_Ico] at hs
  rw [hsame s hs.1 hs.2]

/-- A task that does not run in a window is not served in it. -/
theorem served_eq_zero (hnot : ∀ s, a ≤ s → s < b → runs s ≠ some j) : served runs j a b = 0 := by
  apply Finset.sum_eq_zero
  intro s hs
  rw [Finset.mem_Ico] at hs
  rw [if_neg (hnot s hs.1 hs.2)]

/-- INTERNAL: a slot counts for one task of a list. -/
theorem sum_ite_mem {l : List ι} (hnd : l.Nodup) {r : ι} (hr : r ∈ l) :
    (l.map fun j => if some r = some j then 1 else 0).sum = 1 := by
  induction l with
  | nil => cases hr
  | cons i l ih =>
    obtain ⟨hi, hnd'⟩ := List.nodup_cons.mp hnd
    rw [List.map_cons, List.sum_cons]
    by_cases hri : r = i
    · subst hri
      have hrest : (l.map fun j => if some r = some j then 1 else 0).sum = 0 := by
        apply List.sum_eq_zero
        intro x hx
        obtain ⟨j, hj, rfl⟩ := List.mem_map.mp hx
        rw [if_neg]
        intro heq
        exact hi (Option.some.inj heq ▸ hj)
      rw [hrest, if_pos rfl]
    · rw [if_neg (fun heq => hri (Option.some.inj heq)), ih hnd' ((List.mem_cons.mp hr).resolve_left hri)]

/-- A window in which no slot is lost to the tasks of a list is the sum of what they get. -/
theorem sum_served {l : List ι} (hnd : l.Nodup) (hab : a ≤ b)
    (hruns : ∀ s, a ≤ s → s < b → ∃ r ∈ l, runs s = some r) :
    (l.map fun j => served runs j a b).sum = b - a := by
  induction b, hab using Nat.le_induction with
  | base => simp [served_self]
  | succ b hab ih =>
    obtain ⟨r, hr, hrun⟩ := hruns b hab (Nat.lt_succ_self b)
    have hbefore := ih (fun s hs hs' => hruns s hs (by omega))
    have hlast := sum_ite_mem hnd hr
    simp only [served_succ _ _ hab, hrun]
    rw [List.sum_map_add, hbefore, hlast]
    omega

/-! ## Schedules -/

/-- In each of the first `H` slots the first pending task of `order` runs; a job that is not over has had less
than the budget `C` of its task, and the releases of a task are at least `T` apart. -/
structure PrioritySchedule (order : List ι) (C T : ι → ℕ) (H : ℕ) (pending : ℕ → ι → Bool)
    (runs : ℕ → Option ι) : Prop where
  nodup : order.Nodup
  runs_first : ∀ s < H, runs s = order.find? (pending s)
  budget : ∀ j ∈ order, ∀ a t, Released pending j a → PendingFrom pending j a t → a ≤ t → t < H →
    served runs j a t < C j
  separated : ∀ j ∈ order, ∀ a b, Released pending j a → Released pending j b → a < b → b < H → a + T j ≤ b

/-- What the tasks of `higher` and task `i` need of a window of `w` slots. -/
def demand (C T : ι → ℕ) (higher : List ι) (i : ι) (w : ℕ) : ℕ :=
  C i + (higher.map fun j => (w ⌈/⌉ T j) * C j).sum

namespace PrioritySchedule

variable {order higher lower : List ι} {i : ι} {C T : ι → ℕ} {H w : ℕ}

/-- One more slot. -/
theorem extend (h : PrioritySchedule order C T H pending runs) (hpending : ∀ s < H, pending' s = pending s)
    (hruns : ∀ s < H, runs' s = runs s) (hfirst : runs' H = order.find? (pending' H))
    (hbudget : ∀ j ∈ order, ∀ a, Released pending' j a → PendingFrom pending' j a H → a ≤ H →
      served runs' j a H < C j)
    (hseparated : ∀ j ∈ order, ∀ a < H, Released pending j a → Released pending' j H → a + T j ≤ H) :
    PrioritySchedule order C T (H + 1) pending' runs' := by
  have hback : ∀ {j a}, a < H → Released pending' j a → Released pending j a := by
    intro j a ha hreleased
    exact hreleased.congr fun s hs => (congrFun (hpending s (by omega)) j).symm
  refine ⟨h.nodup, fun s hs => ?_, fun j hj a t hreleased hfrom hat ht => ?_, fun j hj a b ha hb hab hbH => ?_⟩
  · rcases Nat.lt_or_ge s H with hlt | hge
    · rw [hruns s hlt, hpending s hlt]
      exact h.runs_first s hlt
    · obtain rfl : s = H := by omega
      exact hfirst
  · rcases Nat.lt_or_ge t H with hlt | hge
    · rw [served_congr (fun s _ hs => hruns s (by omega))]
      apply h.budget j hj a t (hback (by omega) hreleased) _ hat hlt
      intro s hs hs'
      rw [← hpending s (by omega)]
      exact hfrom s hs hs'
    · obtain rfl : t = H := by omega
      exact hbudget j hj a hreleased hfrom hat
  · rcases Nat.lt_or_ge b H with hlt | hge
    · exact h.separated j hj a b (hback (by omega) ha) (hback hlt hb) hab hlt
    · obtain rfl : b = H := by omega
      exact hseparated j hj a hab (hback hab ha) hb

variable (h : PrioritySchedule order C T H pending runs)
include h

/-- INTERNAL: only a pending task runs. -/
theorem pending_of_runs (hs : s < H) (hrun : runs s = some j) : pending s j = true := by
  rw [h.runs_first s hs] at hrun
  exact List.find?_some hrun

/-- INTERNAL: a pending task keeps those after it from running. -/
theorem runs_in (horder : order = higher ++ lower) (hs : s < H) (hj : j ∈ higher) (hpending : pending s j = true) :
    ∃ r ∈ higher, runs s = some r := by
  have hfind := h.runs_first s hs
  rw [horder, List.find?_append] at hfind
  cases hfirst : higher.find? (pending s) with
  | none =>
    have hnone := List.find?_eq_none.mp hfirst j hj
    exact absurd hpending hnone
  | some r =>
    rw [hfirst, Option.some_or] at hfind
    exact ⟨r, List.mem_of_find?_eq_some hfirst, hfind⟩

/-- INTERNAL: what a job gets up to the slot `t` in which it is still pending, and in that slot. -/
theorem served_job (hj : j ∈ order) (ha : Released pending j a) (hfrom : PendingFrom pending j a t) (hat : a ≤ t)
    (ht : t < H) : served runs j a (t + 1) ≤ C j := by
  have hbudget := h.budget j hj a t ha hfrom hat ht
  rw [served_succ _ _ hat]
  split
  · omega
  · omega

/-- INTERNAL: a task is at rest from the end of a job to the end of the period. -/
theorem quiet (hj : j ∈ order) (ha : Released pending j a) (hac : a < c) (hc : pending c j = false) (hcs : c ≤ s)
    (hs : s < a + T j) (hsH : s < H) : pending s j = false := by
  by_contra hpending
  obtain ⟨b, hbs, hb, hfrom⟩ := exists_released (by simpa using hpending)
  have hcb : c < b := by
    by_contra hle
    have hstill := hfrom c (by omega) hcs
    rw [hstill] at hc
    cases hc
  have hsep := h.separated j hj a b ha hb (by omega) (by omega)
  omega

/-- INTERNAL: a task that is at rest, or released, where a window begins gets one budget for each period in it. -/
theorem served_window (hj : j ∈ order) (hT : 0 < T j) :
    ∀ w b, (pending b j = true → Released pending j b) → b + w ≤ H →
      served runs j b (b + w) ≤ (w ⌈/⌉ T j) * C j := by
  intro w
  induction w using Nat.strong_induction_on with
  | _ w ih =>
    intro b hclean hbw
    have hidle : ∀ x y, y ≤ H → (∀ s, x ≤ s → s < y → pending s j = false) → served runs j x y = 0 := by
      intro x y hy hrest
      apply served_eq_zero
      intro s hs hs' hrun
      have hpending := h.pending_of_runs (by omega) hrun
      rw [hrest s hs hs'] at hpending
      cases hpending
    by_cases hnone : ∀ s, b ≤ s → s < b + w → pending s j = false
    · rw [hidle b (b + w) hbw hnone]
      exact Nat.zero_le _
    -- the first job of the window, from slot `a` up to slot `c`
    have hsome : ∃ a, b ≤ a ∧ a < b + w ∧ pending a j = true := by simpa using hnone
    obtain ⟨hba, haw, hpa⟩ := Nat.find_spec hsome
    have hmin : ∀ s < Nat.find hsome, ¬ (b ≤ s ∧ s < b + w ∧ pending s j = true) :=
      fun s hs => Nat.find_min hsome hs
    generalize Nat.find hsome = a at hba haw hpa hmin
    have hbefore : ∀ s, b ≤ s → s < a → pending s j = false := by
      intro s hs hsa
      by_contra hpending
      exact hmin s hsa ⟨hs, by omega, by simpa using hpending⟩
    have hreleased : Released pending j a := by
      rcases Nat.lt_or_ge b a with hlt | hge
      · exact ⟨hpa, .inr (hbefore (a - 1) (by omega) (by omega))⟩
      · obtain rfl : a = b := by omega
        exact hclean hpa
    obtain ⟨c, hac, hcw, hfrom, hend⟩ := exists_end hpa haw
    have hjob : served runs j a c ≤ C j := by
      have hle := h.served_job hj hreleased hfrom (by omega) (by omega)
      rwa [Nat.sub_add_cancel (by omega)] at hle
    have hfirst : served runs j b a = 0 := hidle b a (by omega) hbefore
    have hbc := served_add runs j hba (le_of_lt hac)
    rcases Nat.lt_or_ge (max c (a + T j)) (b + w) with hlt | hge
    · -- the rest of the window begins with the next period, or with the end of the job
      generalize he : max c (a + T j) = e at hlt
      have hce : c ≤ e := by omega
      have hquiet : ∀ s, c ≤ s → s < e → pending s j = false := by
        intro s hs hse
        rcases hend with rfl | hrest
        · omega
        · exact h.quiet hj hreleased hac hrest hs (by omega) (by omega)
      have hrestclean : pending e j = true → Released pending j e := by
        intro hpe
        rcases Nat.lt_or_ge c e with hce' | hec
        · exact ⟨hpe, .inr (hquiet (e - 1) (by omega) (by omega))⟩
        · obtain rfl : e = c := by omega
          rcases hend with rfl | hrest
          · omega
          · rw [hrest] at hpe
            cases hpe
      have hrest := ih (b + w - e) (by omega) e hrestclean (by omega)
      rw [Nat.add_sub_cancel' (by omega)] at hrest
      have hgap : served runs j c e = 0 := hidle c e (by omega) hquiet
      have hbe := served_add runs j (by omega : b ≤ c) hce
      have hall := served_add runs j (by omega : b ≤ e) (by omega : e ≤ b + w)
      have hceil : (b + w - e) ⌈/⌉ T j + 1 ≤ w ⌈/⌉ T j := by
        rw [Nat.ceilDiv_eq_add_pred_div, Nat.ceilDiv_eq_add_pred_div, ← Nat.add_div_right _ hT]
        apply Nat.div_le_div_right
        omega
      calc served runs j b (b + w) ≤ ((b + w - e) ⌈/⌉ T j) * C j + C j := by omega
        _ = ((b + w - e) ⌈/⌉ T j + 1) * C j := by rw [Nat.add_mul, Nat.one_mul]
        _ ≤ (w ⌈/⌉ T j) * C j := Nat.mul_le_mul_right _ hceil
    · -- the period of the job lasts for the rest of the window
      have hgap : served runs j c (b + w) = 0 := by
        apply hidle c (b + w) hbw
        intro s hs hsw
        rcases hend with rfl | hrest
        · omega
        · exact h.quiet hj hreleased hac hrest hs (by omega) (by omega)
      have hall := served_add runs j (by omega : b ≤ c) hcw
      have hceil : 1 ≤ w ⌈/⌉ T j := by
        rw [Nat.ceilDiv_eq_add_pred_div]
        apply (Nat.one_le_div_iff hT).mpr
        omega
      calc served runs j b (b + w) ≤ 1 * C j := by omega
        _ ≤ (w ⌈/⌉ T j) * C j := Nat.mul_le_mul_right _ hceil

/-- **Response times.**  A job is pending for fewer slots than any window that holds the demand of its task and
of those before it. -/
theorem response_lt (horder : order = higher ++ i :: lower) (hT : ∀ j ∈ higher, 0 < T j)
    (hw : demand C T higher i w ≤ w) (ha : Released pending i a) (hfrom : PendingFrom pending i a t) (hat : a ≤ t)
    (ht : t < H) : t < a + w := by
  by_contra hlong
  have hmem : ∀ j ∈ higher, j ∈ order := fun j hj => horder ▸ List.mem_append_left _ hj
  have hi : i ∈ order := horder ▸ List.mem_append_right _ List.mem_cons_self
  have horder' : order = (higher ++ [i]) ++ lower := by rw [horder, List.append_assoc, List.singleton_append]
  have hnd : (higher ++ [i]).Nodup := (List.nodup_append.mp (horder' ▸ h.nodup)).1
  have hnot : i ∉ higher := by
    intro hmem
    exact (List.nodup_append.mp hnd).2.2 i hmem i List.mem_cons_self rfl
  obtain ⟨t₀, hle, hstretch, hstart⟩ := exists_start pending higher a
  have hslots : ∀ s, t₀ ≤ s → s < t₀ + w → ∃ r ∈ higher ++ [i], runs s = some r := by
    intro s hs hs'
    rcases Nat.lt_or_ge s a with hlt | hge
    · obtain ⟨j, hj, hpending⟩ := hstretch s hs hlt
      exact h.runs_in horder' (by omega) (List.mem_append_left _ hj) hpending
    · exact h.runs_in horder' (by omega) (List.mem_append_right _ List.mem_cons_self) (hfrom s hge (by omega))
  have hsum := sum_served hnd (by omega : t₀ ≤ t₀ + w) hslots
  rw [List.map_append, List.sum_append, List.map_singleton, List.sum_singleton, Nat.add_sub_cancel_left] at hsum
  have hothers : (higher.map fun j => served runs j t₀ (t₀ + w)).sum ≤
      (higher.map fun j => (w ⌈/⌉ T j) * C j).sum := by
    apply List.sum_le_sum
    intro j hj
    apply h.served_window (hmem j hj) (hT j hj) w t₀ _ (by omega)
    intro hpending
    refine ⟨hpending, ?_⟩
    rcases hstart with hzero | hrest
    · exact .inl hzero
    · exact .inr (hrest j hj)
  have hown : served runs i t₀ (t₀ + w) < C i := by
    have hbefore : served runs i t₀ a = 0 := by
      apply served_eq_zero
      intro s hs hsa hrun
      obtain ⟨j, hj, hpending⟩ := hstretch s hs hsa
      obtain ⟨r, hr, hrun'⟩ := h.runs_in horder (by omega) hj hpending
      obtain rfl : r = i := Option.some.inj (hrun'.symm.trans hrun)
      exact hnot hr
    have hjob := h.budget i hi a t ha hfrom hat ht
    have hupto := served_add runs i hle hat
    have hmore := served_add runs i (by omega : t₀ ≤ t₀ + w) (by omega : t₀ + w ≤ t)
    omega
  unfold demand at hw
  omega

end PrioritySchedule

end BusyWindow
