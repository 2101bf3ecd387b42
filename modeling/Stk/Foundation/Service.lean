import Stk.Foundation.ClosedLoop
import Mathlib.Data.Finset.Card

/-!
# Bounded bypass in a closed loop

A sequence of operations on a `ClosedLoop` serves one member at each `advance`.
`KeepsTurns t S r ops` says that no operation of `ops`, run from `r`, lets a member of `S` or
one served since stand before `t` again:

* `unlink x` removes another member that stands before `t`, or one behind which no member was
  served (the removal moves the cursor back to the predecessor of `x`, so the members behind
  `x` are served again);
* `linkBack x` only brings back a member that was not served yet, unless `t` is
  met before the tail, so that `x` comes behind it.

`KeepsTurns.served` is the bound: as many `advance` steps as there are members that take part
serve `t`.  A machine whose calls act on a loop by such operations inherits the bound:
`served_along`.
-/

set_option autoImplicit false

variable {α : Type} [DecidableEq α]

namespace ClosedLoop

/-- The members served before `t`. -/
def ahead (r : ClosedLoop α) (t : α) : List α :=
  r.upcoming.takeWhile (fun y => decide (y ≠ t))

/-- The members served after `x`, up to the cursor. -/
def behind (r : ClosedLoop α) (x : α) : List α :=
  (r.upcoming.dropWhile (fun y => decide (y ≠ x))).tail

/-- The members between the cursor and the tail of the list. -/
def beforeTail (r : ClosedLoop α) : List α :=
  match r.cursor with
  | none => []
  | some c => (r.members.dropWhile (fun y => decide (y ≠ c))).tail

/-- What can happen to a closed loop. -/
inductive Op (α : Type) where
  | advance
  | unlink (x : α)
  | linkBack (x : α)
deriving DecidableEq

/-- The loop after an operation. -/
def Op.apply (r : ClosedLoop α) : Op α → ClosedLoop α
  | .advance => r.advance.2
  | .unlink x => r.unlink x
  | .linkBack x => r.linkBack x

/-- The member an operation serves. -/
def Op.served (r : ClosedLoop α) : Op α → List α
  | .advance => r.advance.1.toList
  | .unlink _ => []
  | .linkBack _ => []

/-- The members served by a sequence of operations, in order. -/
def service (r : ClosedLoop α) : List (Op α) → List α
  | [] => []
  | op :: ops => op.served r ++ service (op.apply r) ops

/-- The members named by an operation take part, on the right side of the loop. -/
def Op.Admissible (U : Finset α) (r : ClosedLoop α) : Op α → Prop
  | .advance => True
  | .unlink x => x ∈ r.members
  | .linkBack x => x ∉ r.members ∧ x ∈ U

/-- The operation does not let a member of `S` stand before `t`. -/
def Op.KeepsTurn (t : α) (S : List α) (r : ClosedLoop α) : Op α → Prop
  | .advance => True
  | .unlink x => x ≠ t ∧ (x ∈ r.ahead t ∨ ∀ y ∈ r.behind x, y ∉ S)
  | .linkBack x => x ∉ S ∨ t ∈ r.beforeTail

instance (t : α) (S : List α) (r : ClosedLoop α) : (op : Op α) → Decidable (op.KeepsTurn t S r)
  | .advance => isTrue trivial
  | .unlink _ => inferInstanceAs (Decidable (_ ∧ (_ ∨ _)))
  | .linkBack _ => inferInstanceAs (Decidable (_ ∨ _))

/-- Every operation of a sequence is admissible. -/
def Admissibles (U : Finset α) : ClosedLoop α → List (Op α) → Prop
  | _, [] => True
  | r, op :: ops => op.Admissible U r ∧ Admissibles U (op.apply r) ops

/-- Every operation of a sequence keeps the turn of `t`. -/
def KeepsTurns (t : α) : List α → ClosedLoop α → List (Op α) → Prop
  | _, _, [] => True
  | S, r, op :: ops => op.KeepsTurn t S r ∧ KeepsTurns t (S ++ op.served r) (op.apply r) ops

instance decidableKeepsTurns (t : α) : (S : List α) → (r : ClosedLoop α) → (ops : List (Op α)) →
    Decidable (KeepsTurns t S r ops)
  | _, _, [] => isTrue trivial
  | S, r, op :: ops =>
    have := decidableKeepsTurns t (S ++ op.served r) (op.apply r) ops
    inferInstanceAs (Decidable (_ ∧ _))

/-- The number of `advance` steps. -/
def advances (ops : List (Op α)) : ℕ :=
  ops.countP (fun op => decide (op = .advance))

theorem Op.Admissible.wf {U : Finset α} {r : ClosedLoop α} (h : r.Wf) {op : Op α}
    (hop : op.Admissible U r) : (op.apply r).Wf := by
  cases op with
  | advance => exact h.advance
  | unlink x => exact h.unlink hop
  | linkBack x => exact h.linkBack hop.1

theorem ahead_append_cons {r : ClosedLoop α} {p q : List α} {t : α}
    (hup : r.upcoming = p ++ t :: q) (ht : t ∉ p) : r.ahead t = p := by
  unfold ahead
  rw [hup, takeWhile_ne_append_cons q ht]

theorem upcoming_nodup {r : ClosedLoop α} (h : r.Wf) : r.upcoming.Nodup :=
  (upcoming_perm h).nodup_iff.mpr h.nodup

/-- The order of service cut at `t`: what stands before it and what stands behind. -/
theorem exists_upcoming_cut {r : ClosedLoop α} (h : r.Wf) {t : α} (ht : t ∈ r.members) :
    ∃ p q, r.upcoming = p ++ t :: q ∧ t ∉ p ∧ t ∉ q ∧ r.ahead t = p := by
  obtain ⟨p, q, hup, hp, hq⟩ := exists_cut ((mem_upcoming h).mpr ht) (upcoming_nodup h)
  exact ⟨p, q, hup, hp, hq, ahead_append_cons hup hp⟩

/-- Serving another member takes it out of the way of `t`. -/
theorem ahead_advance {r : ClosedLoop α} (h : r.Wf) {t x : α} (ht : t ∈ r.members)
    (hx : r.advance.1 = some x) (hne : x ≠ t) :
    r.ahead t = x :: r.advance.2.ahead t := by
  obtain ⟨p, q, hup, hp, -, hahead⟩ := exists_upcoming_cut h ht
  rw [advance_fst, hup] at hx
  cases p with
  | nil => exact absurd (by simpa using hx.symm) hne
  | cons y p' =>
    obtain rfl : y = x := by simpa using hx
    have hup' := upcoming_advance h (x := y) (t := p' ++ t :: q) (by simpa using hup)
    have hcut : r.advance.2.upcoming = p' ++ t :: (q ++ [y]) := by simpa using hup'
    rw [hahead, ahead_append_cons hcut (fun hmem => hp (List.mem_cons_of_mem y hmem))]

/-- Removing a member that stands before `t` puts nobody before `t`; removing another one puts
those behind it there. -/
theorem mem_ahead_unlink {r : ClosedLoop α} (h : r.Wf) {t x y : α} (ht : t ∈ r.members)
    (hx : x ∈ r.members) (hne : x ≠ t) (hy : y ∈ (r.unlink x).ahead t) :
    y ∈ r.ahead t ∨ (x ∉ r.ahead t ∧ y ∈ r.behind x) := by
  obtain ⟨p, q, hup, hp, -, hahead⟩ := exists_upcoming_cut h ht
  rw [hahead]
  have hmem : x ∈ p ++ t :: q := hup ▸ (mem_upcoming h).mpr hx
  by_cases hxp : x ∈ p
  · obtain ⟨p₁, p₂, rfl⟩ := List.append_of_mem hxp
    have hcut : r.upcoming = p₁ ++ x :: (p₂ ++ t :: q) := by simp [hup]
    have hnew := upcoming_unlink_cut h hcut
    have hp₂ : t ∉ p₂ := fun hmem => hp (by simp [hmem])
    rw [ahead_append_cons (p := p₂) (q := q ++ p₁) (by simpa using hnew) hp₂] at hy
    exact Or.inl (by simp [hy])
  · have hxq : x ∈ q := by simpa [hxp, hne] using hmem
    have hndq : q.Nodup := by
      have hnd := upcoming_nodup h
      rw [hup] at hnd
      exact (List.nodup_cons.mp (List.Nodup.of_append_right hnd)).2
    obtain ⟨q₁, q₂, rfl, hxq₁, -⟩ := exists_cut hxq hndq
    have hcut : r.upcoming = (p ++ t :: q₁) ++ x :: q₂ := by simp [hup]
    have hbefore : x ∉ p ++ t :: q₁ := by simp [hxp, hne, hxq₁]
    have hbehind : r.behind x = q₂ := by
      unfold behind
      rw [hcut, dropWhile_ne_append_cons q₂ hbefore, List.tail_cons]
    have hnew := upcoming_unlink_cut h hcut
    have hnd := upcoming_nodup h
    have htq₂ : t ∉ q₂ := by
      intro hmem
      rw [hcut] at hnd
      exact (List.disjoint_of_nodup_append hnd) (by simp : t ∈ p ++ t :: q₁)
        (List.mem_cons_of_mem x hmem)
    rw [ahead_append_cons (p := q₂ ++ p) (q := q₁) (by simpa using hnew)
      (by simp [htq₂, hp])] at hy
    rw [hbehind]
    rcases List.mem_append.mp hy with hy | hy
    · exact Or.inr ⟨hxp, hy⟩
    · exact Or.inl hy

/-- An appended member comes before `t` only if `t` is not met before the tail. -/
theorem ahead_linkBack {r : ClosedLoop α} (h : r.Wf) {t x : α} (ht : t ∈ r.members)
    (hne : x ≠ t) :
    (r.linkBack x).ahead t ⊆ x :: r.ahead t ∧
      (t ∈ r.beforeTail → (r.linkBack x).ahead t = r.ahead t) := by
  obtain ⟨l, cur⟩ := r
  cases cur with
  | none =>
    have hnil : l = [] := h.cursor_none rfl
    exact absurd ht (by simp [hnil])
  | some c =>
    obtain ⟨a, b, rfl, ha, -⟩ := exists_cut (h.cursor_mem c rfl) h.nodup
    have hold : (⟨a ++ c :: b, some c⟩ : ClosedLoop α).upcoming = b ++ (a ++ [c]) := by
      simp only [upcoming, after_append_cons b ha, List.append_assoc]
    have hnew : (ClosedLoop.linkBack ⟨a ++ c :: b, some c⟩ x).upcoming = b ++ x :: (a ++ [c]) := by
      rw [upcoming_linkBack x rfl ha, List.append_assoc, List.cons_append]
    have htail : (⟨a ++ c :: b, some c⟩ : ClosedLoop α).beforeTail = b := by
      simp only [beforeTail, dropWhile_ne_append_cons b ha, List.tail_cons]
    rw [htail]
    unfold ahead
    rw [hold, hnew]
    by_cases hb : t ∈ b
    · obtain ⟨b₁, b₂, rfl, hb₁⟩ := List.eq_append_cons_of_mem hb
      simp only [List.append_assoc, List.cons_append, takeWhile_ne_append_cons _ hb₁]
      exact ⟨fun y hy => List.mem_cons_of_mem x hy, fun _ => trivial⟩
    · have hpos : ∀ y ∈ b, decide (y ≠ t) = true := by
        intro y hy
        have hyt : y ≠ t := fun e => hb (e ▸ hy)
        simpa using hyt
      rw [List.takeWhile_append_of_pos hpos, List.takeWhile_append_of_pos hpos,
        List.takeWhile_cons_of_pos (by simpa using hne)]
      refine ⟨?_, fun hmem => absurd hmem hb⟩
      intro y hy
      simp only [List.mem_append, List.mem_cons] at hy ⊢
      tauto

/-- One step of a window: whoever stands before `t` afterwards was not served yet. -/
theorem Op.KeepsTurn.ahead_step {U : Finset α} {r : ClosedLoop α} (h : r.Wf) {t : α}
    {S : List α} {op : Op α} (ht : t ∈ r.members)
    (hadm : op.Admissible U r) (hturn : op.KeepsTurn t S r) (hserved : t ∉ op.served r)
    (hS : ∀ y ∈ r.ahead t, y ∉ S) :
    ∀ y ∈ (op.apply r).ahead t, y ∉ S ++ op.served r := by
  intro y hy
  cases op with
  | advance =>
    obtain ⟨x, hx⟩ : ∃ x, r.advance.1 = some x := by
      rw [advance_fst]
      obtain ⟨p, q, hup, -⟩ := exists_upcoming_cut h ht
      cases p <;> simp [hup]
    have hne : x ≠ t := by
      rintro rfl
      exact hserved (by simp [Op.served, hx])
    have hcons := ahead_advance h ht hx hne
    have hnd : (r.ahead t).Nodup := (upcoming_nodup h).sublist (List.takeWhile_sublist _)
    rw [hcons, List.nodup_cons] at hnd
    have hyS : y ∉ S := hS y (by rw [hcons]; exact List.mem_cons_of_mem x hy)
    have hyx : y ≠ x := fun e => hnd.1 (e ▸ hy)
    simp [Op.served, hx, hyS, hyx]
  | unlink x =>
    simp only [Op.served, List.append_nil]
    rcases mem_ahead_unlink h ht hadm hturn.1 hy with hold | ⟨hnot, hbehind⟩
    · exact hS y hold
    · exact hturn.2.resolve_left hnot y hbehind
  | linkBack x =>
    have hne : x ≠ t := fun e => hadm.1 (e ▸ ht)
    obtain ⟨hsub, htail⟩ := ahead_linkBack h ht hne
    simp only [Op.served, List.append_nil]
    by_cases hbt : t ∈ r.beforeTail
    · exact hS y (htail hbt ▸ hy)
    · rcases List.mem_cons.mp (hsub hy) with rfl | hmem
      · exact hturn.resolve_right hbt
      · exact hS y hmem

theorem Op.KeepsTurn.mem {t : α} {S : List α} {r : ClosedLoop α} {op : Op α}
    (h : op.KeepsTurn t S r) (ht : t ∈ r.members) : t ∈ (op.apply r).members := by
  cases op with
  | advance =>
    simp only [Op.apply, ClosedLoop.advance]
    cases r.cursor <;> exact ht
  | unlink x => exact (List.mem_erase_of_ne (Ne.symm h.1)).mpr ht
  | linkBack x => exact List.mem_append_left _ ht

theorem Op.Admissible.subset {U : Finset α} {r : ClosedLoop α} {op : Op α} (hop : op.Admissible U r)
    (hU : ∀ y ∈ r.members, y ∈ U) : ∀ y ∈ (op.apply r).members, y ∈ U := by
  intro y hy
  cases op with
  | advance =>
    simp only [Op.apply, ClosedLoop.advance] at hy
    cases hc : r.cursor <;> rw [hc] at hy <;> exact hU y hy
  | unlink x => exact hU y (List.mem_of_mem_erase hy)
  | linkBack x =>
    rcases List.mem_append.mp hy with hy | hy
    · exact hU y hy
    · rw [List.mem_singleton.mp hy]
      exact hop.2

theorem served_mem {r : ClosedLoop α} (h : r.Wf) {op : Op α} {y : α}
    (hy : y ∈ op.served r) : y ∈ r.members := by
  cases op with
  | advance =>
    simp only [Op.served, Option.mem_toList, advance_fst] at hy
    exact (mem_upcoming h).mp (List.mem_of_head? hy)
  | unlink x => simp [Op.served] at hy
  | linkBack x => simp [Op.served] at hy

/-- An `advance` on a loop with a member serves exactly one member. -/
theorem length_served {r : ClosedLoop α} (h : r.Wf) {t : α} (ht : t ∈ r.members) (op : Op α) :
    (op.served r).length = if op = .advance then 1 else 0 := by
  cases op with
  | advance =>
    obtain ⟨p, q, hup, -⟩ := exists_upcoming_cut h ht
    cases p <;> simp [Op.served, advance_fst, hup]
  | unlink x => simp [Op.served]
  | linkBack x => simp [Op.served]

/-- INTERNAL: the bound with the members `S` served so far.  Those are distinct, differ
from `t` and never stand before it, so at most `|U| - 1` members are served before `t`. -/
theorem KeepsTurns.served_aux {U : Finset α} {t : α} {ops : List (Op α)} :
    ∀ {S : List α} {r : ClosedLoop α}, r.Wf → (∀ y ∈ r.members, y ∈ U) → t ∈ r.members →
      Admissibles U r ops → KeepsTurns t S r ops →
      S.Nodup → (∀ y ∈ S, y ∈ U ∧ y ≠ t) → (∀ y ∈ r.ahead t, y ∉ S) →
      U.card ≤ S.length + advances ops → t ∈ service r ops := by
  induction ops with
  | nil =>
    intro S r h hU ht _ _ hnd hS _ hcard
    -- `S` would have as many members as `U`, which also holds `t`
    have hsub : S.toFinset ⊆ U.erase t := by
      intro y hy
      have := hS y (List.mem_toFinset.mp hy)
      exact Finset.mem_erase.mpr ⟨this.2, this.1⟩
    have hle := Finset.card_le_card hsub
    rw [List.toFinset_card_of_nodup hnd, Finset.card_erase_of_mem (hU t ht)] at hle
    have hpos : 0 < U.card := Finset.card_pos.mpr ⟨t, hU t ht⟩
    simp only [advances, List.countP_nil, Nat.add_zero] at hcard
    omega
  | cons op ops ih =>
    intro S r h hU ht hadms hturns hnd hS hahead hcard
    obtain ⟨hadm, hadms⟩ := hadms
    obtain ⟨hturn, hturns⟩ := hturns
    by_cases hserved : t ∈ op.served r
    · exact List.mem_append_left _ hserved
    · apply List.mem_append_right
      have hnew := Op.KeepsTurn.ahead_step h ht hadm hturn hserved hahead
      refine ih (hadm.wf h) (hadm.subset hU) (hturn.mem ht) hadms hturns ?_ ?_ hnew ?_
      · -- the member served now stood before `t`, so it is new
        refine List.nodup_append.mpr ⟨hnd, ?_, ?_⟩
        · cases op <;> simp only [Op.served, List.nodup_nil]
          cases r.advance.1 <;> simp
        · intro y hy z hz hyz
          subst hyz
          cases op with
          | advance =>
            simp only [Op.served, Option.mem_toList] at hz
            have hne : y ≠ t := (hS y hy).2
            have hcons := ahead_advance h ht hz hne
            exact hahead y (by rw [hcons]; exact List.mem_cons_self) hy
          | unlink x => simp [Op.served] at hz
          | linkBack x => simp [Op.served] at hz
      · intro y hy
        rcases List.mem_append.mp hy with hy | hy
        · exact hS y hy
        · exact ⟨hU y (served_mem h hy), fun e => hserved (e ▸ hy)⟩
      · have hlen := length_served h ht op
        rw [List.length_append, hlen]
        simp only [advances, List.countP_cons, decide_eq_true_eq] at hcard ⊢
        omega

/-- **Bounded bypass.**  Among as many `advance` steps as there are members that take part,
`t` is served. -/
theorem KeepsTurns.served {U : Finset α} {t : α} {r : ClosedLoop α} {ops : List (Op α)}
    (hturns : KeepsTurns t [] r ops) (h : r.Wf) (hU : ∀ y ∈ r.members, y ∈ U) (ht : t ∈ r.members)
    (hadms : Admissibles U r ops) (hcard : U.card ≤ advances ops) : t ∈ service r ops :=
  KeepsTurns.served_aux h hU ht hadms hturns List.nodup_nil (by simp) (by simp)
    (by simpa using hcard)

/-! ## Machines that act on a loop -/

theorem service_append (r : ClosedLoop α) (ops ops' : List (Op α)) :
    service r (ops ++ ops') = service r ops ++ service (ops.foldl Op.apply r) ops' := by
  induction ops generalizing r with
  | nil => rfl
  | cons op ops ih => simp [service, ih]

theorem Admissibles.append {U : Finset α} {r : ClosedLoop α} {ops ops' : List (Op α)}
    (h : Admissibles U r ops) (h' : Admissibles U (ops.foldl Op.apply r) ops') :
    Admissibles U r (ops ++ ops') := by
  induction ops generalizing r with
  | nil => exact h'
  | cons op ops ih => exact ⟨h.1, ih h.2 h'⟩

theorem KeepsTurns.append {t : α} {S : List α} {r : ClosedLoop α} {ops ops' : List (Op α)}
    (h : KeepsTurns t S r ops) (h' : KeepsTurns t (S ++ service r ops) (ops.foldl Op.apply r) ops') :
    KeepsTurns t S r (ops ++ ops') := by
  induction ops generalizing r S with
  | nil => simpa [service] using h'
  | cons op ops ih => exact ⟨h.1, ih h.2 (by simpa [service] using h')⟩

section Machine

variable {σ C : Type} (loop : σ → ClosedLoop α) (ops : σ → C → List (Op α)) (step : σ → C → σ)

/-- The operations on a loop that the calls `cs` of a machine make, where `ops s c` are those of
the call `c` in state `s`. -/
def opsAlong : σ → List C → List (Op α)
  | _, [] => []
  | s, c :: cs => ops s c ++ opsAlong (step s c) cs

/-- `t` is a member of the loop before each call and after the last one. -/
def StaysMember (t : α) : σ → List C → Prop
  | s, [] => t ∈ (loop s).members
  | s, c :: cs => t ∈ (loop s).members ∧ StaysMember t (step s c) cs

/-- No call puts a member that was served since the first call before `t`. -/
def TurnsKept (t : α) : List α → σ → List C → Prop
  | _, _, [] => True
  | S, s, c :: cs => KeepsTurns t S (loop s) (ops s c) ∧
      TurnsKept t (S ++ service (loop s) (ops s c)) (step s c) cs

instance decidableStaysMember (t : α) : (s : σ) → (cs : List C) →
    Decidable (StaysMember loop step t s cs)
  | _, [] => inferInstanceAs (Decidable (_ ∈ _))
  | s, c :: cs =>
    have := decidableStaysMember t (step s c) cs
    inferInstanceAs (Decidable (_ ∧ _))

instance decidableTurnsKept (t : α) : (S : List α) → (s : σ) → (cs : List C) →
    Decidable (TurnsKept loop ops step t S s cs)
  | _, _, [] => isTrue trivial
  | S, s, c :: cs =>
    have := decidableTurnsKept t (S ++ service (loop s) (ops s c)) (step s c) cs
    inferInstanceAs (Decidable (_ ∧ _))

variable {loop ops step}

omit [DecidableEq α] in
theorem StaysMember.mem {t : α} {s : σ} {cs : List C} (h : StaysMember loop step t s cs) :
    t ∈ (loop s).members := by
  cases cs with
  | nil => exact h
  | cons c cs => exact h.1

/-- **Bounded bypass of a machine.**  `I` is an invariant of the calls that meet `P`. -/
theorem served_along {I : σ → Prop} {P : C → Prop} {U : Finset α} {t : α}
    (hI : ∀ s c, I s → P c → I (step s c))
    (hloop : ∀ s c, I s → P c → loop (step s c) = (ops s c).foldl Op.apply (loop s))
    (hadm : ∀ s c, I s → P c → Admissibles U (loop s) (ops s c))
    {s : σ} {cs : List C} (hs : I s) (hwf : (loop s).Wf) (hU : ∀ y ∈ (loop s).members, y ∈ U)
    (hP : ∀ c ∈ cs, P c) (hstay : StaysMember loop step t s cs)
    (hturn : TurnsKept loop ops step t [] s cs)
    (hcard : U.card ≤ advances (opsAlong ops step s cs)) :
    t ∈ service (loop s) (opsAlong ops step s cs) := by
  suffices hwindow : ∀ (cs : List C) (S : List α) (s : σ), I s → (∀ c ∈ cs, P c) →
      TurnsKept loop ops step t S s cs →
      Admissibles U (loop s) (opsAlong ops step s cs) ∧
        KeepsTurns t S (loop s) (opsAlong ops step s cs) from
    (hwindow cs [] s hs hP hturn).2.served hwf hU hstay.mem (hwindow cs [] s hs hP hturn).1 hcard
  intro cs
  induction cs with
  | nil => exact fun S s _ _ _ => ⟨trivial, trivial⟩
  | cons c cs ih =>
    intro S s hs hP hturn
    have hc := hP c List.mem_cons_self
    obtain ⟨hadms, hturns⟩ := ih (S ++ service (loop s) (ops s c)) (step s c) (hI s c hs hc)
      (fun d hd => hP d (List.mem_cons_of_mem c hd)) hturn.2
    rw [hloop s c hs hc] at hadms hturns
    exact ⟨(hadm s c hs hc).append hadms, hturn.1.append hturns⟩

end Machine

end ClosedLoop
