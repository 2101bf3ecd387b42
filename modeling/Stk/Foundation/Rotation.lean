import Stk.Foundation.ClosedLoop

/-!
# What a machine draws

A machine `next` hands out a member, or none, and goes on.  `drawn next n s` are the members handed
out by `n` steps from `s`; `DrawsWithout next x s s'` says that the whole sequence handed out from
`s'` is the one handed out from `s` with `x` deleted.

A closed loop draws its order of service over and over (`drawn_rounds`).  Taking `x` out of the
loop by `unlink` therefore deletes `x` from the sequence exactly when `x` is served next or was
served last (`unlink_drawsWithout`): from any other place, the removal goes on behind `x` and
leaves out the members that were to come before it.
-/

set_option autoImplicit false

namespace Rotation

section Machine

variable {σ τ β : Type}

/-- The members handed out by `n` steps. -/
def drawn (next : σ → Option β × σ) : ℕ → σ → List β
  | 0, _ => []
  | n + 1, s => (next s).1.toList ++ drawn next n (next s).2

theorem drawn_add (next : σ → Option β × σ) (m n : ℕ) (s : σ) :
    drawn next (m + n) s = drawn next m s ++ drawn next n ((fun s => (next s).2)^[m] s) := by
  induction m generalizing s with
  | zero => simp [drawn]
  | succ m ih =>
    rw [Nat.succ_add, drawn, ih, drawn, List.append_assoc, Function.iterate_succ_apply]

theorem drawn_prefix (next : σ → Option β × σ) {m n : ℕ} (h : m ≤ n) (s : σ) :
    drawn next m s <+: drawn next n s := by
  obtain ⟨k, rfl⟩ := Nat.exists_eq_add_of_le h
  rw [drawn_add]
  exact List.prefix_append _ _

/-- A machine draws what its image under `f` draws, as long as `I` holds. -/
theorem drawn_map {next : σ → Option β × σ} {next' : τ → Option β × τ} {f : σ → τ} {I : σ → Prop}
    (hstep : ∀ s, I s → (next s).1 = (next' (f s)).1 ∧ f (next s).2 = (next' (f s)).2 ∧ I (next s).2)
    {s : σ} (hs : I s) (n : ℕ) : drawn next n s = drawn next' n (f s) := by
  induction n generalizing s with
  | zero => rfl
  | succ n ih =>
    obtain ⟨hout, hnext, hI⟩ := hstep s hs
    rw [drawn, drawn, hout, ih hI, hnext]

variable [DecidableEq β]

/-- The sequence drawn from `s'` is the one drawn from `s` without `x`. -/
def DrawsWithout (next : σ → Option β × σ) (x : β) (s s' : σ) : Prop :=
  (∀ n, ∃ m, (drawn next n s).filter (fun y => decide (y ≠ x)) <+: drawn next m s') ∧
    ∀ m, ∃ n, drawn next m s' <+: (drawn next n s).filter (fun y => decide (y ≠ x))

theorem drawsWithout_congr {next : σ → Option β × σ} {next' : τ → Option β × τ} {f : σ → τ}
    {s s' : σ} {x : β} (hs : ∀ n, drawn next n s = drawn next' n (f s))
    (hs' : ∀ n, drawn next n s' = drawn next' n (f s')) :
    DrawsWithout next x s s' ↔ DrawsWithout next' x (f s) (f s') := by
  unfold DrawsWithout
  simp only [hs, hs']

end Machine

end Rotation

namespace ClosedLoop

open Rotation

variable {α : Type} [DecidableEq α]

/-- Drawing the front of the order of service turns the loop by it. -/
theorem drawn_cut {r : ClosedLoop α} (h : r.Wf) {u v : List α} (hup : r.upcoming = u ++ v) :
    drawn advance u.length r = u ∧ ((fun r : ClosedLoop α => r.advance.2)^[u.length] r).Wf ∧
      ((fun r : ClosedLoop α => r.advance.2)^[u.length] r).upcoming = v ++ u := by
  induction u generalizing r v with
  | nil =>
    rw [List.nil_append] at hup
    exact ⟨rfl, h, by rw [List.append_nil]; exact hup⟩
  | cons x u ih =>
    have hfirst : r.advance.1 = some x := by
      rw [advance_fst, hup]
      rfl
    have hnext : r.advance.2.upcoming = u ++ (v ++ [x]) := by
      have hmoved : r.advance.2.upcoming = (u ++ v) ++ [x] := upcoming_advance h hup
      rw [hmoved, List.append_assoc]
    obtain ⟨hdrawn, hwf, hend⟩ := ih h.advance hnext
    rw [List.length_cons, Function.iterate_succ_apply, drawn, hfirst, hdrawn]
    refine ⟨rfl, hwf, ?_⟩
    rw [hend, List.append_assoc]
    rfl

/-- Round after round, the loop draws its order of service. -/
theorem drawn_rounds {r : ClosedLoop α} (h : r.Wf) (k : ℕ) :
    drawn advance (k * r.upcoming.length) r = (List.replicate k r.upcoming).flatten := by
  induction k generalizing r with
  | zero =>
    rw [Nat.zero_mul]
    rfl
  | succ k ih =>
    obtain ⟨hdrawn, hwf, hend⟩ := drawn_cut h (List.append_nil r.upcoming).symm
    rw [List.nil_append] at hend
    have hrest := ih hwf
    rw [hend] at hrest
    rw [Nat.succ_mul, Nat.add_comm, drawn_add, hdrawn, hrest, List.replicate_succ, List.flatten_cons]

/-- A loop that serves nobody draws nothing. -/
theorem drawn_nil {r : ClosedLoop α} (h : r.Wf) (hup : r.upcoming = []) (n : ℕ) :
    drawn advance n r = [] := by
  induction n generalizing r with
  | zero => rfl
  | succ n ih =>
    have hnone : r.advance = (none, r) := by
      have hcursor : r.cursor = none := by
        cases hc : r.cursor with
        | none => rfl
        | some c => simp [upcoming, hc] at hup
      simp [advance, hcursor]
    rw [drawn, hnone, ih h hup]
    rfl

/-- Whatever is drawn is a front of some number of rounds. -/
theorem drawn_prefix_rounds {r : ClosedLoop α} (h : r.Wf) (n : ℕ) :
    drawn advance n r <+: (List.replicate n r.upcoming).flatten := by
  by_cases hup : r.upcoming = []
  · rw [drawn_nil h hup n]
    exact List.nil_prefix
  · rw [← drawn_rounds h n]
    have hpos : 0 < r.upcoming.length := List.length_pos_iff.mpr hup
    exact drawn_prefix advance (Nat.le_mul_of_pos_right n hpos) r

omit [DecidableEq α] in
theorem filter_replicate_flatten (p : α → Bool) (k : ℕ) (l : List α) :
    (List.replicate k l).flatten.filter p = (List.replicate k (l.filter p)).flatten := by
  rw [List.filter_flatten, List.map_replicate]

/-- If the order of service is the old one without `x`, so is the whole sequence. -/
theorem drawsWithout_of_upcoming {r r' : ClosedLoop α} {x : α} (h : r.Wf) (h' : r'.Wf)
    (hup : r'.upcoming = r.upcoming.filter (fun y => decide (y ≠ x))) : DrawsWithout advance x r r' := by
  constructor
  · intro n
    refine ⟨n * r'.upcoming.length, ?_⟩
    rw [drawn_rounds h', hup, ← filter_replicate_flatten]
    exact (drawn_prefix_rounds h n).filter _
  · intro m
    refine ⟨m * r.upcoming.length, ?_⟩
    rw [drawn_rounds h, filter_replicate_flatten, ← hup]
    exact drawn_prefix_rounds h' m

/-- Two loops that draw the same but for `x` agree on the first of the others. -/
theorem drawsWithout_head {r r' : ClosedLoop α} {x y z : α} {s t : List α} (h : r.Wf) (h' : r'.Wf)
    (hd : DrawsWithout advance x r r') (hup : r.upcoming = y :: s) (hy : y ≠ x)
    (hup' : r'.upcoming = z :: t) : y = z := by
  obtain ⟨m, hm⟩ := hd.1 1
  have hone : drawn advance 1 r = [y] := (drawn_cut (u := [y]) h hup).1
  rw [hone, List.filter_cons_of_pos (by simpa using hy), List.filter_nil] at hm
  have hrounds := hm.trans (drawn_prefix_rounds h' m)
  rw [hup'] at hrounds
  cases m with
  | zero => simp at hrounds
  | succ m =>
    rw [List.replicate_succ, List.flatten_cons, List.cons_append, List.cons_prefix_cons] at hrounds
    exact hrounds.1

/-- The member stands at the cursor or right behind it: it was served last or is served next. -/
def AtCursor (r : ClosedLoop α) (x : α) : Prop :=
  ∃ c, r.cursor = some c ∧ (x = c ∨ x = succ r.members c)

instance (r : ClosedLoop α) (x : α) : Decidable (r.AtCursor x) :=
  decidable_of_iff (∃ c ∈ r.cursor, x = c ∨ x = succ r.members c) Iff.rfl

/-- A member at the cursor is the last or the first in the order of service. -/
theorem atCursor_iff {r : ClosedLoop α} {x : α} {u v : List α} (hup : r.upcoming = u ++ x :: v)
    (hu : x ∉ u) (hv : x ∉ v) : r.AtCursor x ↔ v = [] ∨ u = [] := by
  cases hc : r.cursor with
  | none => simp [upcoming, hc] at hup
  | some c =>
    have htour : after r.members c ++ [c] = u ++ x :: v := by
      rw [← hup, upcoming, hc]
    have hlast : x = c ↔ v = [] := by
      rcases List.eq_nil_or_concat v with rfl | ⟨w, z, rfl⟩
      · have hends := congrArg List.getLast? htour
        simp only [List.getLast?_append, List.getLast?_singleton, Option.some_or, Option.some.injEq] at hends
        exact ⟨fun _ => rfl, fun _ => hends.symm⟩
      · rw [List.concat_eq_append] at htour hv ⊢
        have hends := congrArg List.getLast? htour
        have hz : c = z := by simpa [List.getLast?_append, List.getLast?_cons] using hends
        constructor
        · intro hx
          exact absurd (by simp [hx, hz]) hv
        · intro hnil
          simp at hnil
    have hfirst : x = succ r.members c ↔ u = [] := by
      have hhead : (after r.members c ++ [c]).head? = some (succ r.members c) := by
        unfold succ
        cases after r.members c <;> rfl
      rw [htour] at hhead
      cases u with
      | nil =>
        have hx : x = succ r.members c := by simpa using hhead
        exact ⟨fun _ => rfl, fun _ => hx⟩
      | cons y u =>
        have hy : y = succ r.members c := by simpa using hhead
        constructor
        · intro hx
          exact absurd (by simp [hx, hy]) hu
        · intro hnil
          cases hnil
    rw [← hlast, ← hfirst]
    constructor
    · rintro ⟨d, hd, hx⟩
      obtain rfl : c = d := Option.some.inj (hc.symm.trans hd)
      exact hx
    · intro hx
      exact ⟨c, hc, hx⟩

/-- **Taking a member out of the rotation.**  The others go on in their order exactly when the member
was served last or is served next. -/
theorem unlink_drawsWithout {r : ClosedLoop α} (h : r.Wf) {x : α} (hx : x ∈ r.members) :
    DrawsWithout advance x r (r.unlink x) ↔ r.AtCursor x := by
  have hnd : r.upcoming.Nodup := (upcoming_perm h).nodup_iff.mpr h.nodup
  obtain ⟨u, v, hup, hu, hv⟩ := exists_cut ((mem_upcoming h).mpr hx) hnd
  have hnew : (r.unlink x).upcoming = v ++ u := upcoming_unlink_cut h hup
  have hdeleted : r.upcoming.filter (fun y => decide (y ≠ x)) = u ++ v := by
    have hkeep : ∀ l : List α, x ∉ l → l.filter (fun y => decide (y ≠ x)) = l := by
      intro l hl
      rw [List.filter_eq_self]
      intro y hy
      have hne : y ≠ x := fun e => hl (e ▸ hy)
      simpa using hne
    rw [hup, List.filter_append, List.filter_cons_of_neg (by simp), hkeep u hu, hkeep v hv]
  rw [atCursor_iff hup hu hv]
  constructor
  · intro hd
    cases u with
    | nil => exact Or.inr rfl
    | cons y u =>
      cases v with
      | nil => exact Or.inl rfl
      | cons z v =>
        -- service goes on with `z`, but `y` was to come first
        have hyx : y ≠ x := fun e => hu (e ▸ List.mem_cons_self)
        have hyz : y = z := drawsWithout_head h (h.unlink hx) hd hup hyx hnew
        rw [hup] at hnd
        have hy : y ∈ y :: u := List.mem_cons_self
        exact absurd (List.mem_cons_of_mem x (hyz ▸ List.mem_cons_self)) (List.disjoint_of_nodup_append hnd hy)
  · intro hends
    refine drawsWithout_of_upcoming h (h.unlink hx) ?_
    rw [hnew, hdeleted]
    rcases hends with rfl | rfl
    · rw [List.append_nil, List.nil_append]
    · rw [List.append_nil, List.nil_append]

end ClosedLoop
