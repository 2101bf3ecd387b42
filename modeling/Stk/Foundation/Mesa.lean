import Mathlib.Algebra.Order.BigOperators.Group.Finset
import Mathlib.Data.Fintype.BigOperators

/-!
# Monitors with Mesa-style condition variables

Tasks `ι` share a state `μ` and run one at a time.  A call goes in stretches: a stretch runs
without interruption from the entry of the call, or from the end of a wait, to the next wait or
to the return.  On its way it may notify condition variables `κ`.  A notified task is not resumed
at once, so that other tasks may run before it and the condition it waited for may not hold any
more; nor is a task whose wait has expired.

`Step` is one step of such a system and `tally` sums a weight over the statuses of all tasks.  The
lemmas say what a step does to the tallies of the blocked, the notified and the expired tasks.
-/

set_option autoImplicit false

namespace Mesa

variable {ι κ μ φ ρ α : Type}

/-- A notification of one waiter or of all waiters of a condition variable. -/
inductive Notify (κ : Type) where
  | one (cv : κ)
  | all (cv : κ)
deriving DecidableEq

/-- The condition variable that is notified. -/
def Notify.cv : Notify κ → κ
  | .one c | .all c => c

/-- The end of a stretch: a wait, with all that the call has to remember, or the return. -/
inductive Next (φ ρ : Type) where
  | wait (frame : φ)
  | done (result : ρ)

/-- What a task does between two waits: the new state, the notifications and how it ends. -/
structure Stretch (κ μ φ ρ : Type) where
  state : μ
  notify : List (Notify κ)
  next : Next φ ρ

/-- The condition variable a frame waits for, the stretches of a fresh call, and those of a call
whose wait was notified (`true`) or has expired (`false`). -/
structure Program (κ α μ φ ρ : Type) where
  cv : φ → κ
  call : μ → α → Stretch κ μ φ ρ → Prop
  resume : μ → φ → Bool → Stretch κ μ φ ρ → Prop

/-- Where a task is: outside, blocked in a wait, notified of it, or past its timeout. -/
inductive Status (φ : Type) where
  | idle
  | blocked (frame : φ)
  | notified (frame : φ)
  | expired (frame : φ)
deriving DecidableEq

/-- The frame of a task inside a call. -/
def Status.frame : Status φ → Option φ
  | .idle => none
  | .blocked f | .notified f | .expired f => some f

/-- The shared state and where each task is. -/
structure Config (ι μ φ : Type) where
  state : μ
  status : ι → Status φ

/-- A call by a task or from an interrupt, the resumption of a wait, or a step that runs no stretch. -/
inductive Event (ι α : Type) where
  | call (caller : ι) (op : α)
  | isr (op : α)
  | resume (caller : ι)
  | quiet

/-- `NotifyAll` of the condition variable `c` as one task sees it. -/
def Status.release [DecidableEq κ] (cv : φ → κ) (c : κ) : Status φ → Status φ
  | .blocked f => if cv f = c then .notified f else .blocked f
  | s => s

section Steps

variable [DecidableEq ι] [DecidableEq κ]

/-- One notification; `NotifyOne` picks any task that waits. -/
def Notifies (cv : φ → κ) : Notify κ → (ι → Status φ) → (ι → Status φ) → Prop
  | .one c, u, u' =>
    (u' = u ∧ ∀ i f, u i = .blocked f → cv f ≠ c) ∨
      ∃ i f, u i = .blocked f ∧ cv f = c ∧ u' = Function.update u i (.notified f)
  | .all c, u, u' => u' = fun i => (u i).release cv c

/-- A sequence of notifications. -/
def NotifiesAlong (cv : φ → κ) : List (Notify κ) → (ι → Status φ) → (ι → Status φ) → Prop
  | [], u, u' => u' = u
  | m :: ms, u, u' => ∃ u₁, Notifies cv m u u₁ ∧ NotifiesAlong cv ms u₁ u'

/-- The task `caller` has run the stretch `t`, from the statuses `u`. -/
def Follows (cv : φ → κ) (caller : Option ι) (t : Stretch κ μ φ ρ) (u : ι → Status φ)
    (r : Option ρ) (c' : Config ι μ φ) : Prop :=
  ∃ u₁, NotifiesAlong cv t.notify u u₁ ∧ c'.state = t.state ∧
    match t.next, caller with
    | .done result, _ => r = some result ∧ c'.status = u₁
    | .wait f, some i => r = none ∧ c'.status = Function.update u₁ i (.blocked f)
    | .wait _, none => False

/-- Waits expire. -/
def Expires (u u' : ι → Status φ) : Prop :=
  ∀ i, u' i = u i ∨ ∃ f, u i = .blocked f ∧ u' i = .expired f

/-- One step, with the result of a call that returns in it. -/
def Step (P : Program κ α μ φ ρ) (c : Config ι μ φ) :
    Event ι α → Option ρ → Config ι μ φ → Prop
  | .call i op, r, c' =>
    c.status i = .idle ∧ ∃ t, P.call c.state op t ∧ Follows P.cv (some i) t c.status r c'
  | .isr op, r, c' => ∃ t, P.call c.state op t ∧ Follows P.cv none t c.status r c'
  | .resume i, r, c' =>
    ∃ f b t, c.status i = (if b then .notified f else .expired f) ∧ P.resume c.state f b t ∧
      Follows P.cv (some i) t (Function.update c.status i .idle) r c'
  | .quiet, r, c' => r = none ∧ c'.state = c.state ∧ Expires c.status c'.status

end Steps

section Inversion

variable [DecidableEq ι] [DecidableEq κ] {cv : φ → κ} {caller : Option ι} {m : μ}
  {u : ι → Status φ} {r : Option ρ} {c' : Config ι μ φ}

/-- A stretch that returns. -/
theorem Follows.done {ms : List (Notify κ)} {result : ρ}
    (h : Follows cv caller ⟨m, ms, .done result⟩ u r c') :
    ∃ u₁, NotifiesAlong cv ms u u₁ ∧ r = some result ∧ c' = ⟨m, u₁⟩ := by
  obtain ⟨u₁, hms, hstate, hr, hstatus⟩ := h
  exact ⟨u₁, hms, hr, by cases c'; cases hstate; cases hstatus; rfl⟩

/-- A stretch that waits and has notified no task. -/
theorem Follows.wait {f : φ} (h : Follows cv caller ⟨m, [], .wait f⟩ u r c') :
    ∃ i, caller = some i ∧ r = none ∧ c' = ⟨m, Function.update u i (.blocked f)⟩ := by
  obtain ⟨u₁, rfl, hstate, hend⟩ := h
  cases caller with
  | none => exact hend.elim
  | some i => exact ⟨i, rfl, hend.1, by cases c'; cases hstate; cases hend.2; rfl⟩

end Inversion

/-! ## Tallies -/

section Tally

variable [Fintype ι]

/-- The sum of a weight over the statuses of all tasks. -/
def tally (w : Status φ → ℕ) (u : ι → Status φ) : ℕ := ∑ i, w (u i)

/-- Weights that pick out the tasks whose frame meets `p`. -/
def Status.blockedAt (p : φ → Bool) : Status φ → ℕ
  | .blocked f => if p f then 1 else 0
  | _ => 0

/-- 1 for a task that is notified in a frame of kind `p`. -/
def Status.notifiedAt (p : φ → Bool) : Status φ → ℕ
  | .notified f => if p f then 1 else 0
  | _ => 0

/-- 1 for a task whose wait in a frame of kind `p` has run out. -/
def Status.expiredAt (p : φ → Bool) : Status φ → ℕ
  | .expired f => if p f then 1 else 0
  | _ => 0

/-- The tasks that are blocked in a frame of kind `p`. -/
abbrev blocked (p : φ → Bool) (u : ι → Status φ) : ℕ := tally (Status.blockedAt p) u
/-- The tasks that are notified in a frame of kind `p`. -/
abbrev notified (p : φ → Bool) (u : ι → Status φ) : ℕ := tally (Status.notifiedAt p) u
/-- The tasks whose waits in frames of kind `p` have run out. -/
abbrev expired (p : φ → Bool) (u : ι → Status φ) : ℕ := tally (Status.expiredAt p) u

/-- INTERNAL: nothing is counted if no task counts. -/
theorem tally_eq_zero_iff {w : Status φ → ℕ} {u : ι → Status φ} :
    tally w u = 0 ↔ ∀ i, w (u i) = 0 := by
  simp [tally]

/-- INTERNAL: a blocked task is counted. -/
theorem blocked_pos {p : φ → Bool} {u : ι → Status φ} {i : ι} {f : φ} (hi : u i = .blocked f)
    (hf : p f = true) : 0 < blocked p u := by
  rw [Nat.pos_iff_ne_zero]
  intro hzero
  have := tally_eq_zero_iff.mp hzero i
  simp [hi, Status.blockedAt, hf] at this

/-- INTERNAL: no task is notified. -/
theorem notified_eq_zero {p : φ → Bool} {u : ι → Status φ} (h : ∀ i f, u i ≠ .notified f) :
    notified p u = 0 := by
  refine tally_eq_zero_iff.mpr (fun i => ?_)
  cases hi : u i with
  | notified f => exact absurd hi (h i f)
  | _ => rfl

/-- INTERNAL: counts grow with what each task counts for. -/
theorem tally_le {w : Status φ → ℕ} {u u' : ι → Status φ} (h : ∀ i, w (u' i) ≤ w (u i)) :
    tally w u' ≤ tally w u :=
  Finset.sum_le_sum (fun i _ => h i)

/-- INTERNAL: counts are equal if every task counts for the same. -/
theorem tally_congr {w : Status φ → ℕ} {u u' : ι → Status φ} (h : ∀ i, w (u' i) = w (u i)) :
    tally w u' = tally w u :=
  Finset.sum_congr rfl (fun i _ => h i)

/-- INTERNAL: more tasks are blocked in frames of a wider kind. -/
theorem blocked_mono {p q : φ → Bool} (hpq : ∀ f, p f = true → q f = true) (u : ι → Status φ) :
    blocked p u ≤ blocked q u := by
  refine Finset.sum_le_sum (fun i _ => ?_)
  cases hi : u i with
  | blocked f =>
    by_cases hf : p f = true
    · simp [Status.blockedAt, hf, hpq f hf]
    · simp [Status.blockedAt, hf]
  | _ => exact Nat.le_refl _

variable [DecidableEq ι]

/-- One task changes its status. -/
theorem tally_update (w : Status φ → ℕ) (u : ι → Status φ) (i : ι) (s : Status φ) :
    tally w (Function.update u i s) + w (u i) = tally w u + w s := by
  have hrest : ∑ j ∈ Finset.univ.erase i, w (Function.update u i s j) =
      ∑ j ∈ Finset.univ.erase i, w (u j) :=
    Finset.sum_congr rfl (fun j hj => by rw [Function.update_of_ne (Finset.ne_of_mem_erase hj)])
  unfold tally
  rw [← Finset.sum_erase_add _ _ (Finset.mem_univ i), hrest, Function.update_self, add_right_comm,
    Finset.sum_erase_add _ (fun j => w (u j)) (Finset.mem_univ i)]

/-- A task begins to wait. -/
theorem tallies_block {u : ι → Status φ} {i : ι} (hi : u i = .idle) (f : φ) (p : φ → Bool) :
    blocked p (Function.update u i (.blocked f)) = blocked p u + (if p f then 1 else 0) ∧
      notified p (Function.update u i (.blocked f)) = notified p u ∧
      expired p (Function.update u i (.blocked f)) = expired p u := by
  have hb := tally_update (Status.blockedAt p) u i (.blocked f)
  have hn := tally_update (Status.notifiedAt p) u i (.blocked f)
  have he := tally_update (Status.expiredAt p) u i (.blocked f)
  simp only [hi, Status.blockedAt, Status.notifiedAt, Status.expiredAt, Nat.add_zero] at hb hn he
  exact ⟨hb, hn, he⟩

/-- A notified task leaves its wait. -/
theorem tallies_leave_notified {u : ι → Status φ} {i : ι} {f : φ} (hi : u i = .notified f)
    (p : φ → Bool) :
    blocked p (Function.update u i .idle) = blocked p u ∧
      notified p (Function.update u i .idle) + (if p f then 1 else 0) = notified p u ∧
      expired p (Function.update u i .idle) = expired p u := by
  have hb := tally_update (Status.blockedAt p) u i .idle
  have hn := tally_update (Status.notifiedAt p) u i .idle
  have he := tally_update (Status.expiredAt p) u i .idle
  simp only [hi, Status.blockedAt, Status.notifiedAt, Status.expiredAt, Nat.add_zero] at hb hn he
  exact ⟨hb, hn, he⟩

/-- A task whose wait has expired leaves it. -/
theorem tallies_leave_expired {u : ι → Status φ} {i : ι} {f : φ} (hi : u i = .expired f)
    (p : φ → Bool) :
    blocked p (Function.update u i .idle) = blocked p u ∧
      notified p (Function.update u i .idle) = notified p u ∧
      expired p (Function.update u i .idle) + (if p f then 1 else 0) = expired p u := by
  have hb := tally_update (Status.blockedAt p) u i .idle
  have hn := tally_update (Status.notifiedAt p) u i .idle
  have he := tally_update (Status.expiredAt p) u i .idle
  simp only [hi, Status.blockedAt, Status.notifiedAt, Status.expiredAt, Nat.add_zero] at hb hn he
  exact ⟨hb, hn, he⟩

/-! ## What notifications and expiries do to the tallies -/

variable [DecidableEq κ] {cv : φ → κ} {u u' : ι → Status φ}

/-- Some of the tasks that are blocked with a frame in `R` are notified. -/
def Releases (R : φ → Prop) (u u' : ι → Status φ) : Prop :=
  ∀ i, u' i = u i ∨ ∃ f, R f ∧ u i = .blocked f ∧ u' i = .notified f

namespace Releases

variable {R : φ → Prop}

omit [Fintype ι] [DecidableEq ι] in
/-- INTERNAL: fewer tasks are released from a narrower kind of frame. -/
theorem mono {R' : φ → Prop} (h : Releases R u u') (hR : ∀ f, R f → R' f) : Releases R' u u' := by
  intro i
  rcases h i with hi | ⟨f, hf, hi⟩
  · exact Or.inl hi
  · exact Or.inr ⟨f, hR f hf, hi⟩

omit [Fintype ι] [DecidableEq ι] in
/-- INTERNAL: one release after another. -/
theorem trans {u'' : ι → Status φ} (h : Releases R u u') (h' : Releases R u' u'') :
    Releases R u u'' := by
  intro i
  rcases h' i with hi' | ⟨f, hf, hi', hi''⟩
  · rw [hi']
    exact h i
  · rcases h i with hi | ⟨f', -, -, hi⟩
    · exact Or.inr ⟨f, hf, hi ▸ hi', hi''⟩
    · rw [hi'] at hi
      cases hi

omit [DecidableEq ι] in
/-- A released task moves from the blocked to the notified ones. -/
theorem tallies (h : Releases R u u') (p : φ → Bool) :
    blocked p u' ≤ blocked p u ∧ blocked p u' + notified p u' = blocked p u + notified p u ∧
      expired p u' = expired p u := by
  refine ⟨tally_le (fun i => ?_), ?_, tally_congr (fun i => ?_)⟩
  · rcases h i with hi | ⟨f, -, -, hi⟩
    · rw [hi]
    · simp [hi, Status.blockedAt]
  · unfold notified blocked tally
    rw [← Finset.sum_add_distrib, ← Finset.sum_add_distrib]
    refine Finset.sum_congr rfl (fun i _ => ?_)
    rcases h i with hi | ⟨f, -, hi, hi'⟩
    · rw [hi]
    · simp [hi, hi', Status.blockedAt, Status.notifiedAt]
  · rcases h i with hi | ⟨f, -, hi, hi'⟩
    · rw [hi]
    · simp [hi, hi', Status.expiredAt]

omit [DecidableEq ι] in
/-- The tasks with other frames are left alone. -/
theorem blocked_other (h : Releases R u u') {p : φ → Bool} (hp : ∀ f, p f = true → ¬ R f) :
    blocked p u' = blocked p u := by
  refine tally_congr (fun i => ?_)
  rcases h i with hi | ⟨f, hf, hi, hi'⟩
  · rw [hi]
  · have : p f = false := by
      by_contra hpf
      exact hp f (by simpa using hpf) hf
    simp [hi, hi', Status.blockedAt, this]

omit [Fintype ι] [DecidableEq ι] in
/-- A blocked or notified task was one of the two before. -/
theorem frame (h : Releases R u u') {i : ι} {f : φ}
    (hi : u' i = .blocked f ∨ u' i = .notified f) : u i = .blocked f ∨ u i = .notified f := by
  rcases h i with heq | ⟨f', -, heq, heq'⟩
  · rwa [heq] at hi
  · rw [heq'] at hi
    rcases hi with hi | hi
    · cases hi
    · cases hi
      exact Or.inl heq

end Releases

omit [Fintype ι] in
/-- INTERNAL: a notification releases the waiters of its condition variable only. -/
theorem Notifies.releases {m : Notify κ} (h : Notifies cv m u u') :
    Releases (fun f => cv f = m.cv) u u' := by
  intro i
  cases m with
  | one c =>
    rcases h with ⟨rfl, -⟩ | ⟨j, f, hj, hf, rfl⟩
    · exact Or.inl rfl
    · by_cases hij : i = j
      · subst hij
        exact Or.inr ⟨f, hf, hj, Function.update_self _ _ _⟩
      · exact Or.inl (Function.update_of_ne hij _ _)
  | all c =>
    obtain rfl : u' = fun i => (u i).release cv c := h
    cases hi : u i with
    | blocked f =>
      by_cases hc : cv f = c
      · exact Or.inr ⟨f, hc, rfl, by simp [Status.release, hi, hc]⟩
      · exact Or.inl (by simp [Status.release, hi, hc])
    | _ => exact Or.inl (by simp [Status.release, hi])

omit [Fintype ι] in
/-- INTERNAL: notifications release the waiters of their condition variables only. -/
theorem NotifiesAlong.releases {ms : List (Notify κ)} (h : NotifiesAlong cv ms u u') :
    Releases (fun f => ∃ m ∈ ms, cv f = m.cv) u u' := by
  induction ms generalizing u with
  | nil => exact fun i => Or.inl (congrFun h i)
  | cons m ms ih =>
    obtain ⟨u₁, hm, hms⟩ := h
    refine (hm.releases.mono (fun f hf => ?_)).trans ((ih hms).mono (fun f hf => ?_))
    · exact ⟨m, List.mem_cons_self, hf⟩
    · obtain ⟨m', hm', hf⟩ := hf
      exact ⟨m', List.mem_cons_of_mem m hm', hf⟩

omit [Fintype ι] [DecidableEq ι] in
/-- A notification changes no frame. -/
theorem Releases.frame_eq {R : φ → Prop} (h : Releases R u u') (i : ι) :
    (u' i).frame = (u i).frame := by
  rcases h i with hi | ⟨f, -, hi, hi'⟩
  · rw [hi]
  · rw [hi, hi']
    rfl

omit [Fintype ι] [DecidableEq ι] [DecidableEq κ] in
/-- An expiry changes no frame. -/
theorem Expires.frame_eq (h : Expires u u') (i : ι) : (u' i).frame = (u i).frame := by
  rcases h i with hi | ⟨f, hi, hi'⟩
  · rw [hi]
  · rw [hi, hi']
    rfl

omit [Fintype ι] [DecidableEq ι] in
/-- INTERNAL: an idle task is not released. -/
theorem Releases.idle {R : φ → Prop} (h : Releases R u u') {i : ι} (hi : u i = .idle) :
    u' i = .idle := by
  rcases h i with heq | ⟨f, -, heq, -⟩
  · rw [heq, hi]
  · rw [hi] at heq
    cases heq

/-- The tallies at the end of a stretch: those after its notifications, and one more blocked task
if it ends with a wait. -/
theorem Follows.ends {caller : Option ι} {t : Stretch κ μ φ ρ} {r : Option ρ} {c' : Config ι μ φ}
    (h : Follows cv caller t u r c') (hidle : ∀ i, caller = some i → u i = .idle) :
    ∃ u₁, NotifiesAlong cv t.notify u u₁ ∧ c'.state = t.state ∧
      (c'.status = u₁ ∨ ∃ i f, t.next = .wait f ∧ c'.status = Function.update u₁ i (.blocked f) ∧
        ∀ p, blocked p c'.status = blocked p u₁ + (if p f then 1 else 0) ∧
          notified p c'.status = notified p u₁ ∧ expired p c'.status = expired p u₁) := by
  obtain ⟨u₁, hms, hstate, hend⟩ := h
  refine ⟨u₁, hms, hstate, ?_⟩
  cases hnext : t.next with
  | done result =>
    rw [hnext] at hend
    exact Or.inl hend.2
  | wait f =>
    cases caller with
    | none =>
      rw [hnext] at hend
      exact hend.elim
    | some i =>
      rw [hnext] at hend
      have hi := hms.releases.idle (hidle i rfl)
      refine Or.inr ⟨i, f, rfl, hend.2, fun p => ?_⟩
      rw [hend.2]
      exact tallies_block hi f p

omit [Fintype ι] in
/-- The frames of the blocked and the notified tasks at the end of a stretch. -/
theorem Follows.frames {caller : Option ι} {t : Stretch κ μ φ ρ} {r : Option ρ} {c' : Config ι μ φ}
    (h : Follows cv caller t u r c') {Q : φ → Prop}
    (hu : ∀ i f, u i = .blocked f ∨ u i = .notified f → Q f) (ht : ∀ f, t.next = .wait f → Q f)
    {i : ι} {f : φ} (hi : c'.status i = .blocked f ∨ c'.status i = .notified f) : Q f := by
  obtain ⟨u₁, hms, -, hend⟩ := h
  have hu₁ : ∀ i f, u₁ i = .blocked f ∨ u₁ i = .notified f → Q f :=
    fun i f hi => hu i f (hms.releases.frame hi)
  cases hnext : t.next with
  | done result =>
    rw [hnext] at hend
    exact hu₁ i f (hend.2 ▸ hi)
  | wait g =>
    cases caller with
    | none =>
      rw [hnext] at hend
      exact hend.elim
    | some j =>
      rw [hnext] at hend
      rw [hend.2] at hi
      by_cases hij : i = j
      · subst hij
        rw [Function.update_self] at hi
        rcases hi with hi | hi
        · cases hi
          exact ht f hnext
        · cases hi
      · rw [Function.update_of_ne hij] at hi
        exact hu₁ i f hi

/-- `NotifyOne` moves one task from the blocked to the notified ones, if there is one. -/
theorem Notifies.one_tally {c : κ} (h : Notifies cv (.one c) u u') {p : φ → Bool}
    (hp : ∀ f, p f = true ↔ cv f = c) :
    blocked p u' = 0 ∨ notified p u' = notified p u + 1 := by
  rcases h with ⟨rfl, hnone⟩ | ⟨i, f, hi, hf, rfl⟩
  · refine Or.inl (tally_eq_zero_iff.mpr (fun i => ?_))
    cases hi : u' i with
    | blocked f => simp [Status.blockedAt, mt (hp f).mp (hnone i f hi)]
    | _ => rfl
  · have hn := tally_update (Status.notifiedAt p) u i (.notified f)
    simp only [hi, Status.notifiedAt, (hp f).mpr hf, ↓reduceIte, Nat.add_zero] at hn
    exact Or.inr hn

/-- `NotifyAll` leaves no task blocked that waits for `c`. -/
theorem Notifies.all_tally {c : κ} (h : Notifies cv (.all c) u u') {p : φ → Bool}
    (hp : ∀ f, p f = true → cv f = c) : blocked p u' = 0 := by
  obtain rfl : u' = fun i => (u i).release cv c := h
  refine tally_eq_zero_iff.mpr (fun i => ?_)
  cases hi : u i with
  | blocked f =>
    by_cases hf : p f = true
    · simp [Status.release, Status.blockedAt, hp f hf]
    · by_cases hc : cv f = c <;> simp [Status.release, Status.blockedAt, hc, hf]
  | _ => rfl

/-- The notifications of a stretch after which `k` more tasks that wait for `c` may go on: none at
all, one `NotifyOne` for one task, or at least one `NotifyAll`. -/
inductive Announces (c : κ) : ℕ → List (Notify κ) → Prop
  | none : Announces c 0 []
  | one : Announces c 1 [.one c]
  | all {k : ℕ} {ms : List (Notify κ)} : ms ≠ [] → (∀ m ∈ ms, m = .all c) → Announces c k ms

namespace Announces

variable {c : κ} {k : ℕ} {ms : List (Notify κ)}

omit [DecidableEq κ] in
/-- INTERNAL: an announcement is made on its own condition variable. -/
theorem cv_eq (h : Announces c k ms) {m : Notify κ} (hm : m ∈ ms) : m.cv = c := by
  cases h with
  | none => cases hm
  | one =>
    obtain rfl := List.mem_singleton.mp hm
    rfl
  | all _ hall =>
    rw [hall m hm]
    rfl

/-- The tasks that wait for `c`: `k` of them are notified, or none is left blocked. -/
theorem tallies (h : Announces c k ms) (hms : NotifiesAlong cv ms u u') {p : φ → Bool}
    (hp : ∀ f, p f = true ↔ cv f = c) :
    blocked p u' = 0 ∨ notified p u + k ≤ notified p u' := by
  cases h with
  | none =>
    obtain rfl : u' = u := hms
    exact Or.inr (Nat.le_refl _)
  | one =>
    obtain ⟨u₁, hone, rfl⟩ := hms
    exact (hone.one_tally hp).imp_right (fun h => h.ge)
  | all hne hall =>
    cases ms with
    | nil => exact absurd rfl hne
    | cons m ms =>
      obtain ⟨u₁, hm, hrest⟩ := hms
      rw [hall m List.mem_cons_self] at hm
      have hzero := hm.all_tally (p := p) (fun f hf => (hp f).mp hf)
      have hle := (hrest.releases.tallies p).1
      exact Or.inl (by omega)

/-- The tasks that wait for another condition variable are left alone. -/
theorem other (h : Announces c k ms) (hms : NotifiesAlong cv ms u u') {p : φ → Bool}
    (hp : ∀ f, p f = true → cv f ≠ c) :
    blocked p u' = blocked p u ∧ notified p u' = notified p u := by
  have hblocked := hms.releases.blocked_other (p := p) (fun f hf hR => by
    obtain ⟨m, hm, hcv⟩ := hR
    exact hp f hf (hcv.trans (h.cv_eq hm)))
  have hsum := (hms.releases.tallies p).2.1
  exact ⟨hblocked, by omega⟩

end Announces

omit [DecidableEq ι] [DecidableEq κ] in
/-- An expiry moves tasks from the blocked to the expired ones. -/
theorem Expires.tallies (h : Expires u u') (p : φ → Bool) :
    blocked p u' ≤ blocked p u ∧ notified p u' = notified p u ∧
      expired p u' + blocked p u' = expired p u + blocked p u := by
  refine ⟨tally_le (fun i => ?_), tally_congr (fun i => ?_), ?_⟩
  · rcases h i with hi | ⟨f, -, hi⟩
    · rw [hi]
    · simp [hi, Status.blockedAt]
  · rcases h i with hi | ⟨f, hf, hi⟩
    · rw [hi]
    · simp [hi, hf, Status.notifiedAt]
  · unfold expired blocked tally
    rw [← Finset.sum_add_distrib, ← Finset.sum_add_distrib]
    refine Finset.sum_congr rfl (fun i _ => ?_)
    rcases h i with hi | ⟨f, hf, hi⟩
    · rw [hi]
    · simp [hi, hf, Status.expiredAt, Status.blockedAt]

end Tally

end Mesa
