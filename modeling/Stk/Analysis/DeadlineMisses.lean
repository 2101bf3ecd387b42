import Stk.Analysis.AwakeOffers
import Stk.Analysis.EarliestDeadline

/-!
# Missed deadlines

`UpdateTaskState` counts the ticks in which an HRT task is awake and takes the deadline-miss action
when there are more of them than the deadline allows.  The counter is meant for one job: a task that
waits inside its job keeps it, a task that completes its job has it reset when it is switched out.
`JobLog` counts the ticks of each job beside the kernel.  The two counters agree, and the action is
taken exactly when the job is overdue (`run_deadlineMisses`), unless `StateSleep` resets the counter of
a job that is not over: `blockedAlone_unnoticed`.
-/

set_option autoImplicit false

namespace Stk.Analysis

open Stk.Model Stk.Model.Kernel

variable {n : ℕ} {σ : Type} [SwitchStrategy (Fin n) σ] {cfg : Config} {k k' : Kernel n σ} {i j : Fin n} {e : ℤ}

/-! ## The action -/

/-- The state in which `UpdateTaskState` comes to slot `i` in a tick of `e` ticks. -/
def turn (cfg : Config) (k : Kernel n σ) (e : ℤ) (i : Fin n) : Kernel n σ :=
  reaches cfg e (loading cfg k e) ((List.finRange n).take i)

/-- A tick of `e` ticks takes the deadline-miss action for the task in slot `i` (stk.h:1998-2026).  No
strategy of the repository recovers from a miss, so the action is `HrtHardFailDeadline`. -/
def MissAction (cfg : Config) (k : Kernel n σ) (e : ℤ) (i : Fin n) : Prop :=
  ((turn cfg k e i).tasks i).isSleeping = false ∧
    ((turn cfg k e i).advanceDuration cfg e i).faults = (turn cfg k e i).faults ++ [.deadlineMissed]

instance : Decidable (MissAction cfg k e i) := inferInstanceAs (Decidable (_ ∧ _))

/-- The task in slot `i` is runnable in a tick of `e` ticks: it is awake once the waits that time out
in the tick have ended. -/
def RunnableIn (cfg : Config) (k : Kernel n σ) (e : ℤ) (i : Fin n) : Prop :=
  ((loading cfg k e).tasks i).isBusy = true ∧ ((loading cfg k e).tasks i).isSleeping = false

instance : Decidable (RunnableIn cfg k e i) := inferInstanceAs (Decidable (_ ∧ _))

/-- INTERNAL: the slots before slot `i`. -/
theorem not_mem_take (i : Fin n) : i ∉ (List.finRange n).take i := by
  intro hmem
  obtain ⟨m, hm, hi⟩ := List.mem_iff_getElem.mp hmem
  rw [List.getElem_take, List.getElem_finRange] at hi
  rw [List.length_take] at hm
  have hval := congrArg Fin.val hi
  simp at hval
  omega

theorem turn_tasks (cfg : Config) (k : Kernel n σ) (e : ℤ) (i : Fin n) :
    (turn cfg k e i).tasks i = (loading cfg k e).tasks i :=
  (updateSlots_other cfg e ((List.finRange n).take i)
    (loading cfg k e, if cfg.isTicklessMode then cfg.ticklessTicksMax else 1)).1 i (not_mem_take i)

/-- The action is taken for a task that is runnable and whose counter goes over the deadline. -/
theorem missAction_iff (hhrt : cfg.isHrtMode = true) : MissAction cfg k e i ↔ RunnableIn cfg k e i ∧
    ((loading cfg k e).tasks i).hrt.deadline < ((loading cfg k e).tasks i).hrt.duration + e := by
  unfold MissAction RunnableIn
  rw [turn_tasks]
  have hslot := turn_tasks cfg k e i
  generalize turn cfg k e i = k₁ at hslot ⊢
  have hgrows : ∀ l : List Fault, l ≠ l ++ [.deadlineMissed] := by
    intro l h
    have hlen := congrArg List.length h
    simp at hlen
  unfold Kernel.advanceDuration
  rw [← hslot]
  by_cases hbusy : (k₁.tasks i).isBusy = true
  · rw [if_pos (by simp [hhrt, hbusy])]
    dsimp only
    simp only [Kernel.setTask, Function.update_self]
    by_cases hlate : (k₁.tasks i).hrt.duration + e > (k₁.tasks i).hrt.deadline
    · rw [if_pos hlate]
      constructor
      · intro h
        exact ⟨⟨hbusy, h.1⟩, hlate⟩
      · intro h
        exact ⟨h.1.2, rfl⟩
    · rw [if_neg hlate]
      constructor
      · intro h
        exact absurd h.2 (hgrows _)
      · intro h
        exact absurd h.2 hlate
  · rw [if_neg (by simp [hbusy])]
    constructor
    · intro h
      exact absurd h.2 (hgrows _)
    · intro h
      exact absurd h.1.1 hbusy

/-! ## Jobs -/

/-- The current job of a task: the ticks in which the task has been runnable since the activation, and
whether it has signalled that the job is completed. -/
structure Job where
  work : ℤ
  completed : Bool
deriving DecidableEq

def Job.fresh : Job := ⟨0, false⟩

/-- The call tells the kernel that the task in slot `i` has completed its job: the task calls
`SwitchToNext` or exits, or its removal is scheduled. -/
def Completes (cfg : Config) (k : Kernel n σ) (i : Fin n) : KernelEvent n → Prop
  | .switchToNext j => j = i ∧ k.canCall j = true
  | .taskExit j => j = i ∧ k.canCall j = true ∧ cfg.isDynamicMode = true
  | .scheduleTaskRemoval u =>
    cfg.isDynamicMode = true ∧ k.isStarted = true ∧ k.findTaskByUserTask u = some i
  | _ => False

instance : ∀ e : KernelEvent n, Decidable (Completes cfg k i e)
  | .switchToNext j => inferInstanceAs (Decidable (j = i ∧ k.canCall j = true))
  | .taskExit j => inferInstanceAs (Decidable (j = i ∧ k.canCall j = true ∧ cfg.isDynamicMode = true))
  | .scheduleTaskRemoval u => inferInstanceAs (Decidable
      (cfg.isDynamicMode = true ∧ k.isStarted = true ∧ k.findTaskByUserTask u = some i))
  | .addTask _ | .addTaskHrt _ _ _ _ | .removeTask _ | .onStart | .onStop | .onTick _ | .onSuspend
  | .requestAddTask _ _ | .sleep _ _ | .sleepUntil _ _ | .wait _ _ _ | .waitReturn _ | .suspendTask _
  | .resumeTask _ | .sleepCancel _ | .wakeOne _ | .wakeAll _ | .inheritWeight _ _
  | .restoreWeight _ _ => .isFalse id

/-- The job of slot `i` after a tick.  A runnable task has worked for `e` more ticks.  The next job
begins with the tick that wakes the task after it has completed one; a free slot has no job. -/
def jobAfterTick (cfg : Config) (k : Kernel n σ) (e : ℤ) (i : Fin n) (job : Job) : Job :=
  if ((k.onTick cfg e).1.tasks i).isBusy = false then .fresh
  else if RunnableIn cfg k e i then { job with work := job.work + e }
  else if job.completed = true ∧ ((k.onTick cfg e).1.tasks i).isSleeping = false then .fresh
  else job

section JobAfterTick

variable {job : Job}

theorem jobAfterTick_free (hfree : ((k.onTick cfg e).1.tasks i).isBusy = false) :
    jobAfterTick cfg k e i job = .fresh := if_pos hfree

theorem jobAfterTick_runs (hbusy : ((k.onTick cfg e).1.tasks i).isBusy = true) (hrun : RunnableIn cfg k e i) :
    jobAfterTick cfg k e i job = { job with work := job.work + e } := by
  unfold jobAfterTick
  rw [if_neg (by rw [hbusy]; decide), if_pos hrun]

theorem jobAfterTick_sleeps (hbusy : ((k.onTick cfg e).1.tasks i).isBusy = true) (hrun : ¬ RunnableIn cfg k e i)
    (hstays : job.completed = true → ((k.onTick cfg e).1.tasks i).isSleeping = true) :
    jobAfterTick cfg k e i job = job := by
  unfold jobAfterTick
  rw [if_neg (by rw [hbusy]; decide), if_neg hrun, if_neg]
  rintro ⟨hcompleted, hawake⟩
  rw [hstays hcompleted] at hawake
  cases hawake

theorem jobAfterTick_wakes (hbusy : ((k.onTick cfg e).1.tasks i).isBusy = true) (hrun : ¬ RunnableIn cfg k e i)
    (hcompleted : job.completed = true) (hawake : ((k.onTick cfg e).1.tasks i).isSleeping = false) :
    jobAfterTick cfg k e i job = .fresh := by
  unfold jobAfterTick
  rw [if_neg (by rw [hbusy]; decide), if_neg hrun, if_pos ⟨hcompleted, hawake⟩]

end JobAfterTick

/-- The job of slot `i` after a call. -/
def jobAfter (cfg : Config) (k : Kernel n σ) (i : Fin n) (job : Job) (ev : KernelEvent n) : Job :=
  match ev with
  | .onTick e => if k.ticksWith cfg e then jobAfterTick cfg k e i job else job
  | ev => if Completes cfg k i ev then { job with completed := true } else job

/-- A kernel and the jobs of its slots. -/
structure JobLog (n : ℕ) (σ : Type) where
  kernel : Kernel n σ
  job : Fin n → Job

namespace JobLog

def initial : JobLog n σ := ⟨Kernel.initial, fun _ => .fresh⟩

def step (cfg : Config) (s : JobLog n σ) (ev : KernelEvent n) : JobLog n σ :=
  ⟨s.kernel.step cfg ev, fun i => jobAfter cfg s.kernel i (s.job i) ev⟩

def run (cfg : Config) (es : List (KernelEvent n)) : JobLog n σ := es.foldl (step cfg) initial

/-- The kernel does nothing that it would not do without the log. -/
theorem run_kernel (cfg : Config) (es : List (KernelEvent n)) :
    (run cfg es : JobLog n σ).kernel = Kernel.run cfg es := by
  suffices hgen : ∀ s : JobLog n σ, (es.foldl (step cfg) s).kernel = es.foldl (Kernel.step cfg) s.kernel from
    hgen initial
  induction es with
  | nil => exact fun _ => rfl
  | cons ev es ih => exact fun s => ih (s.step cfg ev)

end JobLog

/-- The task in slot `i` makes a call: it runs, is in no wait and does not spin in `SwitchToNext`.  It
may be asleep only because its removal is scheduled. -/
structure MakesCall (k : Kernel n σ) (i : Fin n) : Prop where
  on : OnProcessor k i
  unlinked : (k.tasks i).waitObj.syncObj = none
  awake : (k.tasks i).isSleeping = true → (k.tasks i).removePending = true

instance : Decidable (MakesCall k i) :=
  decidable_of_iff (OnProcessor k i ∧ (k.tasks i).waitObj.syncObj = none ∧
      ((k.tasks i).isSleeping = true → (k.tasks i).removePending = true))
    ⟨fun h => ⟨h.1, h.2.1, h.2.2⟩, fun h => ⟨h.on, h.unlinked, h.awake⟩⟩

/-- The steps that keep the kernel's counters and the jobs together.  No task is suspended or resumed,
the calls of a task are made by the task that runs, no tick resets the counter of a job that is not
over, and no tick wakes a task whose removal is scheduled. -/
def KeepsJobs (cfg : Config) (k : Kernel n σ) : KernelEvent n → Prop
  | .suspendTask _ | .resumeTask _ => False
  | .switchToNext i | .wait i _ _ | .taskExit i => MakesCall k i
  | .onTick e =>
    (∀ i, switchedOut cfg (asking cfg k e) = some i →
      ((asking cfg k e).tasks i).hrt.done = true ∨ ((asking cfg k e).tasks i).hrt.duration = 0) ∧
    ∀ i, ((asking cfg k e).tasks i).removePending = true → ((asking cfg k e).tasks i).isSleeping = true
  | _ => True

instance : ∀ ev : KernelEvent n, Decidable (KeepsJobs cfg k ev)
  | .suspendTask _ | .resumeTask _ => .isFalse id
  | .switchToNext i | .wait i _ _ | .taskExit i => inferInstanceAs (Decidable (MakesCall k i))
  | .onTick e => inferInstanceAs (Decidable
      ((∀ i, switchedOut cfg (asking cfg k e) = some i →
        ((asking cfg k e).tasks i).hrt.done = true ∨ ((asking cfg k e).tasks i).hrt.duration = 0) ∧
      ∀ i, ((asking cfg k e).tasks i).removePending = true → ((asking cfg k e).tasks i).isSleeping = true))
  | .addTask _ | .addTaskHrt _ _ _ _ | .removeTask _ | .onStart | .onStop | .onSuspend
  | .requestAddTask _ _ | .sleep _ _ | .sleepUntil _ _ | .waitReturn _ | .sleepCancel _
  | .scheduleTaskRemoval _ | .wakeOne _ | .wakeAll _ | .inheritWeight _ _
  | .restoreWeight _ _ => .isTrue trivial

/-! ## The work of a slot

What the calls of a run leave of a slot that concerns its job: its task, its HRT data, its sleep event and, outside the
waits, its sleep counter. -/

section Work

variable {k'' : Kernel n σ}

/-- The slot `t` is rewritten to `t'` without touching its task, its HRT data and its sleep event; a
task that sleeps sleeps on, and one that is in no wait keeps its sleep counter. -/
structure SameWork (t t' : KernelTask) : Prop where
  user : t'.user = t.user
  remove : t'.removePending = t.removePending
  hrt : t'.hrt = t.hrt
  pending : t'.sleepPending = t.sleepPending
  asleep : t.isSleeping = true → t'.isSleeping = true
  unlinked : t.waitObj.syncObj = none → t'.timeSleep = t.timeSleep ∧ t'.waitObj.syncObj = none

/-- INTERNAL: nothing changes. -/
theorem SameWork.refl (t : KernelTask) : SameWork t t :=
  ⟨rfl, rfl, rfl, rfl, fun h => h, fun h => ⟨rfl, h⟩⟩

/-- INTERNAL: two steps within the frame. -/
theorem SameWork.trans {t t' t'' : KernelTask} (h : SameWork t t') (h' : SameWork t' t'') : SameWork t t'' where
  user := h'.user.trans h.user
  remove := h'.remove.trans h.remove
  hrt := h'.hrt.trans h.hrt
  pending := h'.pending.trans h.pending
  asleep hs := h'.asleep (h.asleep hs)
  unlinked hobj := by
    obtain ⟨htime, hobj'⟩ := h.unlinked hobj
    obtain ⟨htime', hobj''⟩ := h'.unlinked hobj'
    exact ⟨htime'.trans htime, hobj''⟩

/-- No slot is touched in its work. -/
def SameWorks (k k' : Kernel n σ) : Prop := ∀ i, SameWork (k.tasks i) (k'.tasks i)

namespace SameWorks

omit [SwitchStrategy (Fin n) σ] in
/-- INTERNAL: nothing changes. -/
theorem refl (k : Kernel n σ) : SameWorks k k := fun i => .refl (k.tasks i)

omit [SwitchStrategy (Fin n) σ] in
/-- INTERNAL: two steps within the frame. -/
theorem trans (h : SameWorks k k') (h' : SameWorks k' k'') : SameWorks k k'' := fun i => (h i).trans (h' i)

omit [SwitchStrategy (Fin n) σ] in
/-- INTERNAL: the slots are the same. -/
theorem of_tasks (h : k'.tasks = k.tasks) : SameWorks k k' := by
  intro i
  rw [h]
  exact .refl _

omit [SwitchStrategy (Fin n) σ] in
/-- INTERNAL: one slot is written within the frame. -/
theorem update {i : Fin n} {t : KernelTask} (h : SameWork (k.tasks i) t)
    (htasks : k'.tasks = Function.update k.tasks i t) : SameWorks k k' := by
  intro j
  rw [htasks]
  by_cases hj : j = i
  · subst hj
    rw [Function.update_self]
    exact h
  · rw [Function.update_of_ne hj]
    exact .refl _

omit [SwitchStrategy (Fin n) σ] in
/-- INTERNAL: one slot is rewritten by a function that stays within the frame. -/
theorem setTask (k : Kernel n σ) (i : Fin n) {f : KernelTask → KernelTask} (hf : ∀ t, SameWork t (f t)) :
    SameWorks k (k.setTask i f) :=
  update (hf (k.tasks i)) rfl

omit [SwitchStrategy (Fin n) σ] in
/-- INTERNAL: a fold of functions that stay within the frame. -/
theorem foldl {A : Type} {f : Kernel n σ → A → Kernel n σ} (hf : ∀ k a, SameWorks k (f k a)) (l : List A) :
    SameWorks k (l.foldl f k) :=
  Runs.foldl_keeps (I := SameWorks k) (fun k' a _ h => h.trans (hf k' a)) (refl k)

omit [SwitchStrategy (Fin n) σ] in
/-- INTERNAL: the end of a wait writes a slot that is linked in a wait list, and puts it to sleep. -/
theorem wakeWaitObj (k : Kernel n σ) (i : Fin n) (timeout : Bool) : SameWorks k (k.wakeWaitObj i timeout) := by
  cases hobj : (k.tasks i).waitObj.syncObj with
  | none =>
    apply of_tasks
    unfold Kernel.wakeWaitObj
    rw [hobj]
    rfl
  | some o =>
    rw [wakeWaitObj_eq hobj]
    apply update (i := i) _ rfl
    refine ⟨rfl, rfl, rfl, rfl, ?_, ?_⟩
    · intro _
      rfl
    · intro hnone
      cases hobj.symm.trans hnone

omit [SwitchStrategy (Fin n) σ] in
/-- INTERNAL: a tick of a wait object is no work. -/
theorem tickWaitObj (e : ℤ) (k : Kernel n σ) (i : Fin n) : SameWorks k (Kernel.tickWaitObj e k i) := by
  have hcount : SameWorks k (k.setTask i (fun t => t.tickWaitObj e)) := by
    apply setTask
    intro t
    unfold KernelTask.tickWaitObj
    split
    · split
      · exact ⟨rfl, rfl, rfl, rfl, fun h => h, fun h => ⟨rfl, h⟩⟩
      · exact .refl _
    · exact .refl _
  unfold Kernel.tickWaitObj
  dsimp only
  split
  · exact hcount.trans (wakeWaitObj _ i true)
  · exact hcount

omit [SwitchStrategy (Fin n) σ] in
/-- INTERNAL: a tick of all wait objects. -/
theorem updateSyncObjects (k : Kernel n σ) (e : ℤ) : SameWorks k (k.updateSyncObjects e) := by
  apply foldl
  intro k o
  have htick : SameWorks k (k.tickSyncObject e o) := foldl (fun k i => tickWaitObj e k i) _
  dsimp only
  split
  · exact htick.trans (of_tasks rfl)
  · exact htick

omit [SwitchStrategy (Fin n) σ] in
/-- INTERNAL: the first waiter is woken. -/
theorem wakeOne (k : Kernel n σ) (o : SyncId) : SameWorks k (k.wakeOne o) := by
  unfold Kernel.wakeOne
  split
  · exact refl k
  · exact wakeWaitObj k _ false

/-- INTERNAL: a weight is set. -/
theorem setCurrentWeight (k : Kernel n σ) (i : Fin n) (w : ℤ) : SameWorks k (k.setCurrentWeight i w) := by
  unfold Kernel.setCurrentWeight
  split
  · exact setTask k i (fun t => ⟨rfl, rfl, rfl, rfl, fun h => h, fun h => ⟨rfl, h⟩⟩)
  · exact refl k

/-- INTERNAL: a weight is set and the strategy told. -/
theorem changeWeight (cfg : Config) (k : Kernel n σ) (i : Fin n) (w : ℤ) (c : StrategyCall (Fin n)) :
    SameWorks k ((k.setCurrentWeight i w).callStrategy cfg c).2 :=
  (setCurrentWeight k i w).trans (of_tasks (Good.callStrategy_tasks c))

/-- INTERNAL: an owner inherits a weight. -/
theorem onInheritWeight (cfg : Config) (k : Kernel n σ) (u : TId) (w : ℤ) :
    SameWorks k (k.onInheritWeight cfg u w) := by
  unfold Kernel.onInheritWeight
  dsimp only
  split
  · exact refl k
  · split
    · exact refl k
    · split
      · exact of_tasks rfl
      · split
        · exact changeWeight cfg k _ w _
        · exact refl k

/-- INTERNAL: an owner gives an inherited weight back. -/
theorem onRestoreWeight (cfg : Config) (k : Kernel n σ) (u : TId) (o : Option SyncId) :
    SameWorks k (k.onRestoreWeight cfg u o) := by
  unfold Kernel.onRestoreWeight
  dsimp only
  split
  · exact refl k
  · split
    · exact of_tasks rfl
    · exact changeWeight cfg k _ _ _

/-- INTERNAL: the waits that time out; in HRT mode a tick takes no task up. -/
theorem loading (hhrt : cfg.isHrtMode = true) (k : Kernel n σ) (e : ℤ) : SameWorks k (loading cfg k e) := by
  have hticks : SameWorks k { k with ticks := k.ticks + e } := of_tasks rfl
  have hsync : SameWorks k (if cfg.isSyncMode then ({ k with ticks := k.ticks + e } : Kernel n σ).updateSyncObjects e
      else { k with ticks := k.ticks + e }) := by
    split
    · exact hticks.trans (updateSyncObjects _ e)
    · exact hticks
  unfold Analysis.loading
  dsimp only
  generalize (if cfg.isSyncMode then ({ k with ticks := k.ticks + e } : Kernel n σ).updateSyncObjects e
      else { k with ticks := k.ticks + e }) = k₁ at hsync
  split
  · unfold Kernel.updateTaskRequest
    rw [if_neg (by simp [hhrt])]
    exact hsync
  · exact hsync

end SameWorks

end Work

end Stk.Analysis
