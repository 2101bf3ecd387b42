import Stk.Foundation.Runs
import Stk.Analysis.FixedPriorityInvariant

/-!
# Runs of `SwitchStrategyFixedPriority`

The kernel owns the effective weights and the sleep counters of the tasks and calls
the strategy.  `Client` is that side of the interface: the weights, the sleep flags and
what the accepted calls have made of each task so far.  A call whose `STK_ASSERT`
fails stops a debug build, so it changes nothing here.
-/

set_option autoImplicit false

namespace Stk.Model.FixedPriority

variable {P : ℕ} {α : Type} [DecidableEq α]

/-- What the accepted calls have made of a task. -/
inductive Presence where
  | absent
  | runnable
  | asleep
deriving DecidableEq

/-- The strategy and what its caller holds. -/
structure Client (P : ℕ) (α : Type) where
  weight : α → ℤ
  sleeping : α → Bool
  presence : α → Presence
  strategy : FixedPriority P α

/-- The caller's actions.  `bind` gives a free slot its weight, `setSleeping` is any
change of the sleep counter, `onTaskWeightChange` is `SetCurrentWeight` and the call. -/
inductive Action (α : Type) where
  | bind (task : α) (weight : ℤ)
  | setSleeping (task : α) (sleeping : Bool)
  | addTask (task : α)
  | removeTask (task : α)
  | onTaskSleep (task : α)
  | onTaskWake (task : α)
  | onTaskWeightChange (task : α) (weight : ℤ)
  | getNext

namespace Client

/-- No task, and an empty strategy. -/
def initial : Client P α where
  weight := fun _ => noWeight
  sleeping := fun _ => false
  presence := fun _ => .absent
  strategy := ⟨fun _ => [], [], 0, fun _ => none⟩

/-- The tasks as the strategy sees them. -/
def view (c : Client P α) : TaskView α :=
  ⟨c.weight, fun _ => 0, c.sleeping, fun _ => 0, fun _ => 0⟩

/-- The client after a call on `task` with the given outcome. -/
def accept (c : Client P α) (task : α) (p : Presence) :
    Except Fault (FixedPriority P α) → Client P α
  | .ok s => { c with strategy := s, presence := Function.update c.presence task p }
  | .error _ => c

/-- INTERNAL: a refused call changes nothing. -/
@[simp] theorem accept_error (c : Client P α) (task : α) (p : Presence) (f : Fault) :
    c.accept task p (.error f) = c := rfl

/-- One action of the client. -/
def step (c : Client P α) : Action α → Client P α
  | .bind t w =>
    if c.presence t = .absent then { c with weight := Function.update c.weight t w } else c
  | .setSleeping t b => { c with sleeping := Function.update c.sleeping t b }
  | .addTask t => c.accept t .runnable (c.strategy.addTask c.view t)
  | .removeTask t => c.accept t .absent (c.strategy.removeTask c.view t)
  | .onTaskSleep t => c.accept t .asleep (c.strategy.onTaskSleep c.view t)
  | .onTaskWake t => c.accept t .runnable (c.strategy.onTaskWake c.view t)
  | .onTaskWeightChange t w =>
    let c' := { c with weight := Function.update c.weight t w }
    match c.strategy.onTaskWeightChange c'.view t (c.weight t) with
    | .ok s => { c' with strategy := s }
    | .error _ => c
  | .getNext =>
    match c.strategy.getNext with
    | .ok (_, s) => { c with strategy := s }
    | .error _ => c

/-- A run from the start. -/
def run (actions : List (Action α)) : Client P α :=
  actions.foldl step initial

end Client

/-- The weights an action hands to the strategy are priority levels. -/
def Action.InRange (P : ℕ) : Action α → Prop
  | .bind _ w => 0 ≤ w ∧ w < P
  | .onTaskWeightChange _ w => 0 ≤ w ∧ w < P
  | _ => True

namespace Client

/-- What every run keeps. -/
structure Inv (c : Client P α) : Prop where
  wf : c.strategy.Wf c.weight
  mem_tasks : ∀ t, (∃ p, t ∈ c.strategy.tasks p) ↔ c.presence t = .runnable
  mem_sleep : ∀ t, t ∈ c.strategy.sleep ↔ c.presence t = .asleep
  weight : ∀ t, c.weight t = noWeight ∨ (0 ≤ c.weight t ∧ c.weight t < P)
  level : ∀ t, c.presence t ≠ .absent → 0 ≤ c.weight t ∧ c.weight t < P

omit [DecidableEq α] in
/-- INTERNAL: the cast to `uint8_t` keeps a weight that is a priority level. -/
theorem priority_of_range (hP : P ≤ 32) {w : ℤ} (hw : 0 ≤ w ∧ w < P) :
    getTaskPriorityFromWeight w = w.toNat ∧ w.toNat < P := by
  have hmod : w % 256 = w := Int.emod_eq_of_lt hw.1 (by omega)
  unfold getTaskPriorityFromWeight
  rw [hmod]
  exact ⟨rfl, by omega⟩

omit [DecidableEq α] in
/-- INTERNAL: the strategy has the tasks that are present. -/
theorem linked_iff_present {c : Client P α} (h : c.Inv) (t : α) :
    c.strategy.linked t ↔ c.presence t ≠ .absent := by
  rw [linked_iff h.wf, h.mem_tasks, h.mem_sleep]
  cases c.presence t <;> simp

omit [DecidableEq α] in
/-- INTERNAL: the priority of a task that is present is within range. -/
theorem Inv.prio_lt (hP : P ≤ 32) {c : Client P α} (h : c.Inv) {t : α}
    (ht : c.presence t ≠ .absent) : getTaskPriorityFromWeight (c.weight t) < P := by
  obtain ⟨heq, hlt⟩ := priority_of_range hP (h.level t ht)
  omega

omit [DecidableEq α] in
/-- INTERNAL: no task is present. -/
theorem initial_inv : (initial : Client P α).Inv where
  wf := wf_empty _
  mem_tasks := by simp [initial]
  mem_sleep := by simp [initial]
  weight := by simp [initial]
  level := by simp [initial]

/-- INTERNAL: an accepted call that leaves the weights alone keeps the invariant if it
moves its task and no other. -/
theorem Inv.accept {c : Client P α} (h : c.Inv) {task : α} {p : Presence}
    {s : FixedPriority P α} (hwf : s.Wf c.weight)
    (hself : ((∃ q, task ∈ s.tasks q) ↔ p = .runnable) ∧ (task ∈ s.sleep ↔ p = .asleep))
    (hother : ∀ t, t ≠ task → ((∃ q, t ∈ s.tasks q) ↔ ∃ q, t ∈ c.strategy.tasks q) ∧
      (t ∈ s.sleep ↔ t ∈ c.strategy.sleep))
    (hlevel : p ≠ .absent → 0 ≤ c.weight task ∧ c.weight task < P) :
    (c.accept task p (.ok s)).Inv where
  wf := hwf
  mem_tasks t := by
    by_cases ht : t = task
    · subst ht; simpa [Client.accept] using hself.1
    · simpa [Client.accept, ht] using ((hother t ht).1.trans (h.mem_tasks t))
  mem_sleep t := by
    by_cases ht : t = task
    · subst ht; simpa [Client.accept] using hself.2
    · simpa [Client.accept, ht] using ((hother t ht).2.trans (h.mem_sleep t))
  weight := h.weight
  level t hp := by
    by_cases ht : t = task
    · subst ht; exact hlevel (by simpa [Client.accept] using hp)
    · exact h.level t (by simpa [Client.accept, ht] using hp)

/-- INTERNAL: a task is added. -/
theorem Inv.addTask (hP : P ≤ 32) {c : Client P α} (h : c.Inv) (t : α) :
    (c.step (.addTask t)).Inv := by
  show (c.accept t .runnable (c.strategy.addTask c.view t)).Inv
  by_cases hnew : c.strategy.linked t
  · simpa only [FixedPriority.addTask, hnew, ↓reduceIte, accept_error] using h
  · by_cases hprio : getTaskPriority c.view t < P
    · have hrange : 0 ≤ c.weight t ∧ c.weight t < P := by
        refine (h.weight t).resolve_left (fun hno => ?_)
        have hval : getTaskPriority c.view t = 255 := by
          show getTaskPriorityFromWeight (c.weight t) = 255
          rw [hno]; rfl
        omega
      obtain ⟨s', hok, hwf, hsleep, htasks⟩ := addTask_spec hP (v := c.view) h.wf hprio hnew
      rw [hok]
      have habsent : c.presence t = .absent := not_not.mp ((linked_iff_present h t).not.mp hnew)
      refine h.accept hwf ⟨?_, ?_⟩ ?_ (fun _ => hrange)
      · simp [htasks]
      · simp [hsleep, h.mem_sleep, habsent]
      · intro u hu
        simp [htasks, hsleep, hu]
    · simpa only [FixedPriority.addTask, hnew, hprio, not_false_eq_true, ↓reduceIte,
        accept_error] using h

/-- INTERNAL: a task is removed. -/
theorem Inv.removeTask {c : Client P α} (h : c.Inv) (t : α) : (c.step (.removeTask t)).Inv := by
  show (c.accept t .absent (c.strategy.removeTask c.view t)).Inv
  by_cases hlinked : c.strategy.linked t
  · obtain ⟨s', hok, hwf, hsleep, htasks⟩ := removeTask_spec (v := c.view) h.wf hlinked
    rw [hok]
    refine h.accept hwf ?_ ?_ (by simp)
    · simp [hsleep, htasks]
    · intro u hu
      simp [htasks, hsleep, hu]
  · have hnot := (linked_iff h.wf t).not.mp hlinked
    push Not at hnot
    simpa only [FixedPriority.removeTask, hnot.1, hnot.2, or_self, not_false_eq_true,
      ↓reduceIte, accept_error] using h

/-- INTERNAL: a task goes to sleep. -/
theorem Inv.onTaskSleep {c : Client P α} (h : c.Inv) (t : α) :
    (c.step (.onTaskSleep t)).Inv := by
  show (c.accept t .asleep (c.strategy.onTaskSleep c.view t)).Inv
  by_cases hs : c.view.sleeping t = true
  · by_cases hmem : t ∈ c.strategy.tasks (getTaskPriority c.view t)
    · obtain ⟨s', hok, hwf, hsleep, htasks⟩ := onTaskSleep_spec (v := c.view) h.wf hmem hs
      rw [hok]
      have hpresent : c.presence t ≠ .absent := by
        rw [(h.mem_tasks t).mp ⟨_, hmem⟩]; simp
      refine h.accept hwf ?_ ?_ (fun _ => h.level t hpresent)
      · simp [hsleep, htasks]
      · intro u hu
        simp [htasks, hsleep, hu]
    · simpa only [FixedPriority.onTaskSleep, hs, hmem, not_true_eq_false, not_false_eq_true,
        ↓reduceIte, accept_error] using h
  · simpa [FixedPriority.onTaskSleep, hs] using h

/-- INTERNAL: a task wakes up. -/
theorem Inv.onTaskWake (hP : P ≤ 32) {c : Client P α} (h : c.Inv) (t : α) :
    (c.step (.onTaskWake t)).Inv := by
  show (c.accept t .runnable (c.strategy.onTaskWake c.view t)).Inv
  by_cases hs : c.view.sleeping t = true
  · simpa only [FixedPriority.onTaskWake, hs, ↓reduceIte, accept_error] using h
  · by_cases hmem : t ∈ c.strategy.sleep
    · have hpresent : c.presence t ≠ .absent := by
        rw [(h.mem_sleep t).mp hmem]; simp
      obtain ⟨s', hok, hwf, hsleep, htasks⟩ := onTaskWake_spec hP (v := c.view) h.wf
        (h.prio_lt hP hpresent) hmem (by simpa using hs)
      rw [hok]
      refine h.accept hwf ?_ ?_ (fun _ => h.level t hpresent)
      · simp [hsleep, htasks]
      · intro u hu
        simp [htasks, hsleep, hu]
    · simpa only [FixedPriority.onTaskWake, hs, hmem, not_false_eq_true, ↓reduceIte,
        Bool.false_eq_true, accept_error] using h

/-- INTERNAL: a task moves to another priority. -/
theorem Inv.onTaskWeightChange (hP : P ≤ 32) {c : Client P α} (h : c.Inv) (t : α) {w : ℤ}
    (hw : 0 ≤ w ∧ w < P) : (c.step (.onTaskWeightChange t w)).Inv := by
  unfold step
  dsimp only
  cases hout : c.strategy.onTaskWeightChange
      { c with weight := Function.update c.weight t w : Client P α }.view t (c.weight t) with
  | error f => exact h
  | ok s =>
    by_cases hlinked : c.strategy.linked t
    · have hpresent := (linked_iff_present h t).mp hlinked
      have hprio : getTaskPriority { c with weight := Function.update c.weight t w :
          Client P α }.view t < P := by
        obtain ⟨heq, hlt⟩ := priority_of_range hP hw
        simpa [getTaskPriority, view, heq] using hlt
      obtain ⟨s', hok, hwf, hsleep, htasks⟩ := onTaskWeightChange_spec hP h.wf
        (v := { c with weight := Function.update c.weight t w : Client P α }.view)
        (fun u hu => by simp [view, hu]) hprio (h.prio_lt hP hpresent) hlinked
      obtain rfl : s' = s := Except.ok.inj (hok.symm.trans hout)
      have hweight : ∀ u, (Function.update c.weight t w) u = noWeight ∨
          (0 ≤ (Function.update c.weight t w) u ∧ (Function.update c.weight t w) u < P) := by
        intro u
        by_cases hu : u = t
        · subst hu; right; simpa using hw
        · simpa [hu] using h.weight u
      refine ⟨hwf, fun u => (htasks u).trans (h.mem_tasks u), fun u => ?_, hweight, fun u hu => ?_⟩
      · rw [hsleep]; exact h.mem_sleep u
      · by_cases hut : u = t
        · subst hut; simpa using hw
        · simpa [hut] using h.level u hu
    · -- the call is refused: the task is in no list
      have hnot := (linked_iff h.wf t).not.mp hlinked
      push Not at hnot
      simp only [FixedPriority.onTaskWeightChange, hnot.1, hnot.2, ↓reduceIte,
        not_false_eq_true] at hout
      split at hout
      · cases hout
      · split at hout <;> cases hout

/-- INTERNAL: one action keeps the invariant. -/
theorem Inv.step (hP : P ≤ 32) {c : Client P α} (h : c.Inv) {a : Action α}
    (ha : a.InRange P) : (c.step a).Inv := by
  cases a with
  | bind t w =>
    unfold Client.step
    dsimp only
    split
    · next habsent =>
      have hnot : ¬ c.strategy.linked t := by simp [linked_iff_present h, habsent]
      have hfree := (linked_iff h.wf t).not.mp hnot
      push Not at hfree
      refine ⟨h.wf.congr ?_, h.mem_tasks, h.mem_sleep, fun u => ?_, fun u hu => ?_⟩
      · intro p u hu
        refine Function.update_of_ne ?_ _ _
        rintro rfl
        exact hfree.2 p hu
      · by_cases hut : u = t
        · subst hut; right; simpa [Action.InRange] using ha
        · simpa [hut] using h.weight u
      · have hut : u ≠ t := by rintro rfl; exact hu habsent
        simpa [hut] using h.level u hu
    · exact h
  | setSleeping t b => exact ⟨h.wf, h.mem_tasks, h.mem_sleep, h.weight, h.level⟩
  | addTask t => exact h.addTask hP t
  | removeTask t => exact h.removeTask t
  | onTaskSleep t => exact h.onTaskSleep t
  | onTaskWake t => exact h.onTaskWake hP t
  | onTaskWeightChange t w => exact h.onTaskWeightChange hP t ha
  | getNext =>
    obtain ⟨r, s', hok, hwf, hsleep, htasks, -, -⟩ := getNext_spec h.wf
    unfold Client.step
    simp only [hok]
    refine ⟨hwf, ?_, ?_, h.weight, h.level⟩
    · rw [htasks]; exact h.mem_tasks
    · rw [hsleep]; exact h.mem_sleep

/-- INTERNAL: the invariant in every run. -/
theorem run_inv (hP : P ≤ 32) {actions : List (Action α)}
    (hactions : ∀ a ∈ actions, a.InRange P) : (run actions : Client P α).Inv := by
  exact Runs.foldl_keeps (fun c a ha h => h.step hP (hactions a ha)) initial_inv

omit [DecidableEq α] in
/-- INTERNAL: a task is in the list of its effective weight and in no other. -/
theorem Inv.mem_tasks_iff (hP : P ≤ 32) {c : Client P α} (h : c.Inv) (t : α) (p : ℕ) :
    t ∈ c.strategy.tasks p ↔ c.presence t = .runnable ∧ c.weight t = p := by
  constructor
  · intro ht
    have hrun := (h.mem_tasks t).mp ⟨p, ht⟩
    have hrange := h.level t (by rw [hrun]; simp)
    have hp := h.wf.prio p t ht
    rw [(priority_of_range hP hrange).1] at hp
    exact ⟨hrun, by omega⟩
  · rintro ⟨hrun, hp⟩
    obtain ⟨q, hq⟩ := (h.mem_tasks t).mpr hrun
    have hrange := h.level t (by rw [hrun]; simp)
    have hprio := h.wf.prio q t hq
    rw [(priority_of_range hP hrange).1] at hprio
    obtain rfl : q = p := by omega
    exact hq

omit [DecidableEq α] in
/-- INTERNAL: a priority without a cursor has no task. -/
theorem Inv.prev_eq_none_iff {c : Client P α} (h : c.Inv) (p : ℕ) :
    c.strategy.prev p = none ↔ c.strategy.tasks p = [] := by
  refine ⟨(h.wf.level p).cursor_none, fun hnil => ?_⟩
  by_contra hne
  obtain ⟨d, hd⟩ := Option.ne_none_iff_exists'.mp hne
  have hmem : d ∈ c.strategy.tasks p := (h.wf.level p).cursor_mem d hd
  simp [hnil] at hmem

/-- INTERNAL: the choice of `GetNext` under the invariant. -/
theorem Inv.getNext (hP : P ≤ 32) {c : Client P α} (h : c.Inv) :
    ∃ r s', c.strategy.getNext = .ok (r, s') ∧
      (∀ t, r = some t → c.presence t = .runnable ∧
        ∀ u, c.presence u = .runnable → c.weight u ≤ c.weight t) ∧
      (r = none ↔ ∀ t, c.presence t ≠ .runnable) := by
  obtain ⟨r, s', hok, -, -, -, hsome, hnone⟩ := getNext_spec h.wf
  refine ⟨r, s', hok, ?_, ?_⟩
  · intro t ht
    obtain ⟨p, hmem, hmax⟩ := hsome t ht
    obtain ⟨hrun, hweight⟩ := (h.mem_tasks_iff hP t p).mp hmem
    refine ⟨hrun, fun u hu => ?_⟩
    obtain ⟨q, hq⟩ := (h.mem_tasks u).mpr hu
    have hle := hmax q u hq
    have huw := ((h.mem_tasks_iff hP u q).mp hq).2
    omega
  · constructor
    · intro hr t hrun
      obtain ⟨p, hp⟩ := (h.mem_tasks t).mpr hrun
      simp [hnone hr p] at hp
    · intro hno
      cases r with
      | none => rfl
      | some t =>
        obtain ⟨p, hmem, -⟩ := hsome t rfl
        exact absurd ((h.mem_tasks t).mp ⟨p, hmem⟩) (hno t)

/-- Fixed-priority scheduling, after every sequence of calls with weights below
`MAX_PRIORITIES`: the bitmap and the cursors agree with the lists, every runnable task
is in the list of its effective weight and in no other list, and `GetNext` returns a
runnable task of the greatest effective weight, or null exactly when no task is
runnable. -/
theorem run_getNext_max (hP : P ≤ 32) (actions : List (Action α))
    (hactions : ∀ a ∈ actions, a.InRange P) :
    let c := (run actions : Client P α)
    (∀ i, c.strategy.readyBitmap.getLsbD i = true ↔ c.strategy.tasks i ≠ []) ∧
    (∀ i, c.strategy.prev i = none ↔ c.strategy.tasks i = []) ∧
    (∀ i t, c.strategy.prev i = some t → t ∈ c.strategy.tasks i) ∧
    (∀ i t, t ∈ c.strategy.tasks i ↔ c.presence t = .runnable ∧ c.weight t = i) ∧
    (∀ t, c.presence t = .runnable → ∃ i, i < P ∧ c.weight t = i) ∧
    ∃ r s', c.strategy.getNext = .ok (r, s') ∧
      (∀ t, r = some t → c.presence t = .runnable ∧
        ∀ u, c.presence u = .runnable → c.weight u ≤ c.weight t) ∧
      (r = none ↔ ∀ t, c.presence t ≠ .runnable) := by
  intro c
  have h : c.Inv := run_inv hP hactions
  refine ⟨h.wf.bit, h.prev_eq_none_iff, fun i => (h.wf.level i).cursor_mem,
    fun i t => h.mem_tasks_iff hP t i, fun t ht => ?_, h.getNext hP⟩
  have hrange := h.level t (by rw [ht]; simp)
  exact ⟨(c.weight t).toNat, (priority_of_range hP hrange).2, by omega⟩

/-- A run in which a sleep-pending task is boosted over another one: two levels, and the
task that was at level 0 is the one `GetNext` returns. -/
theorem run_getNext_max_boosted :
    let c := (run [.bind 0 0, .bind 1 1, .addTask 0, .addTask 1, .setSleeping 0 true,
      .onTaskWeightChange 0 2] : Client 3 ℕ)
    c.presence 0 = .runnable ∧ c.weight 0 = 2 ∧
      ∃ r s', c.strategy.getNext = .ok (r, s') ∧
        (∀ t, r = some t → c.presence t = .runnable ∧
          ∀ u, c.presence u = .runnable → c.weight u ≤ c.weight t) ∧
        (r = none ↔ ∀ t, c.presence t ≠ .runnable) := by
  intro c
  have h := run_getNext_max (P := 3) (α := ℕ) (by decide) [.bind 0 0, .bind 1 1, .addTask 0,
    .addTask 1, .setSleeping 0 true, .onTaskWeightChange 0 2] (by simp [Action.InRange])
  exact ⟨by decide, by decide, h.2.2.2.2.2⟩

end Client

end Stk.Model.FixedPriority
