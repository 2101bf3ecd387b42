import Stk.Analysis.FsmStep
import Stk.Analysis.Suspension

/-!
# The period of a hard real-time task

An HRT task is activated when its sleep counter reaches zero, counts the ticks of its job in
`duration`, and completes the job with `SwitchToNext`.  The tick after that call finds the
task asleep, so it is not counted, and switches it out with `periodicity - duration` ticks to
sleep from then on.  That one tick comes on top of every period: `run_activations`.

The strategy is any that gives the FSM a runnable task whenever there is one (`Dispatches`),
as `FetchNextEvent` asserts.
-/

set_option autoImplicit false

namespace Stk.Analysis

open Stk.Model Stk.Model.Kernel

variable {n : ℕ} {σ : Type} [SwitchStrategy (Fin n) σ] {cfg : Config} {k : Kernel n σ} {i : Fin n}

/-! ## The frame of a job -/

/-- The slot `t` is rewritten to `t'` without touching its task, sleep counter, wait object and
HRT data. -/
structure SameJob (t t' : KernelTask) : Prop where
  user : t'.user = t.user
  remove : t'.removePending = t.removePending
  time : t'.timeSleep = t.timeSleep
  waitObj : t'.waitObj = t.waitObj
  hrt : t'.hrt = t.hrt

/-- Slot `i`, the current task, the FSM and the time are the same in both states. -/
structure SameTurn (i : Fin n) (k k' : Kernel n σ) : Prop where
  job : SameJob (k.tasks i) (k'.tasks i)
  now : k'.taskNow = k.taskNow
  fsm : k'.fsmState = k.fsmState
  ticks : k'.ticks = k.ticks

namespace SameJob

/-- INTERNAL: nothing changes. -/
@[refl] theorem refl (t : KernelTask) : SameJob t t := ⟨rfl, rfl, rfl, rfl, rfl⟩

/-- INTERNAL: two steps within the frame. -/
@[trans] theorem trans {t t' t'' : KernelTask} (h : SameJob t t') (h' : SameJob t' t'') :
    SameJob t t'' :=
  ⟨h'.user.trans h.user, h'.remove.trans h.remove, h'.time.trans h.time, h'.waitObj.trans h.waitObj,
    h'.hrt.trans h.hrt⟩

end SameJob

namespace SameTurn

variable {k' k'' : Kernel n σ}

omit [SwitchStrategy (Fin n) σ] in
/-- INTERNAL: nothing changes. -/
@[refl] theorem refl (i : Fin n) (k : Kernel n σ) : SameTurn i k k := ⟨.refl _, rfl, rfl, rfl⟩

omit [SwitchStrategy (Fin n) σ] in
/-- INTERNAL: two steps within the frame. -/
@[trans] theorem trans (h : SameTurn i k k') (h' : SameTurn i k' k'') : SameTurn i k k'' :=
  ⟨h.job.trans h'.job, h'.now.trans h.now, h'.fsm.trans h.fsm, h'.ticks.trans h.ticks⟩

omit [SwitchStrategy (Fin n) σ] in
/-- INTERNAL: a failed assertion is recorded and nothing else. -/
theorem fault (i : Fin n) (k : Kernel n σ) (f : Fault) : SameTurn i k (k.fault f) :=
  ⟨.refl _, rfl, rfl, rfl⟩

omit [SwitchStrategy (Fin n) σ] in
/-- INTERNAL: another slot is written. -/
theorem setTask_ne {j : Fin n} (hj : j ≠ i) (k : Kernel n σ) (f : KernelTask → KernelTask) :
    SameTurn i k (k.setTask j f) := by
  refine ⟨?_, rfl, rfl, rfl⟩
  simp only [Kernel.setTask, Function.update_of_ne hj.symm]
  exact .refl _

omit [SwitchStrategy (Fin n) σ] in
/-- INTERNAL: a slot is written within the frame. -/
theorem setTask (i j : Fin n) (k : Kernel n σ) {f : KernelTask → KernelTask}
    (hf : ∀ t, SameJob t (f t)) : SameTurn i k (k.setTask j f) := by
  by_cases hj : j = i
  · subst hj
    refine ⟨?_, rfl, rfl, rfl⟩
    simp only [Kernel.setTask, Function.update_self]
    exact hf _
  · exact setTask_ne hj k f

/-- INTERNAL: a call of the strategy. -/
theorem callStrategy (cfg : Config) (i : Fin n) (k : Kernel n σ) (c : StrategyCall (Fin n)) :
    SameTurn i k (k.callStrategy cfg c).2 := by
  unfold Kernel.callStrategy
  split <;> exact ⟨.refl _, rfl, rfl, rfl⟩

omit [SwitchStrategy (Fin n) σ] in
/-- INTERNAL: the sleep of another task ends. -/
theorem wakeTask_ne {j : Fin n} (hj : j ≠ i) (k : Kernel n σ) : SameTurn i k (k.wakeTask j) := by
  unfold Kernel.wakeTask
  dsimp only
  split
  · exact setTask_ne hj k _
  · exact (fault i k _).trans (setTask_ne hj _ _)

omit [SwitchStrategy (Fin n) σ] in
/-- INTERNAL: the wait of another task ends. -/
theorem wakeWaitObj_ne {j : Fin n} (hj : j ≠ i) (k : Kernel n σ) (timeout : Bool) :
    SameTurn i k (k.wakeWaitObj j timeout) := by
  unfold Kernel.wakeWaitObj
  split
  · exact fault i k _
  · dsimp only
    refine (setTask_ne hj k (fun t => { t with waitObj := ⟨none, timeout, 0⟩ })).trans
      (SameTurn.trans ?_ (wakeTask_ne hj _))
    exact ⟨.refl _, rfl, rfl, rfl⟩

omit [SwitchStrategy (Fin n) σ] in
/-- INTERNAL: a tick of the wait object of another task. -/
theorem tickWaitObj_ne {j : Fin n} (hj : j ≠ i) (e : ℤ) (k : Kernel n σ) :
    SameTurn i k (Kernel.tickWaitObj e k j) := by
  unfold Kernel.tickWaitObj
  dsimp only
  split
  · exact (setTask_ne hj k _).trans (wakeWaitObj_ne hj _ true)
  · exact setTask_ne hj k _

/-- INTERNAL: a weight is set. -/
theorem setCurrentWeight (i j : Fin n) (k : Kernel n σ) (w : ℤ) :
    SameTurn i k (k.setCurrentWeight j w) := by
  unfold Kernel.setCurrentWeight
  split
  · exact setTask i j k (fun _ => ⟨rfl, rfl, rfl, rfl, rfl⟩)
  · exact refl i k

/-- INTERNAL: an owner inherits a weight. -/
theorem onInheritWeight (cfg : Config) (i : Fin n) (k : Kernel n σ) (u : TId) (w : ℤ) :
    SameTurn i k (k.onInheritWeight cfg u w) := by
  unfold Kernel.onInheritWeight
  dsimp only
  split
  · exact refl i k
  · split
    · exact refl i k
    · split
      · exact fault i k _
      · split
        · exact (setCurrentWeight i _ k w).trans (callStrategy cfg i _ _)
        · exact refl i k

/-- INTERNAL: an owner gives an inherited weight back. -/
theorem onRestoreWeight (cfg : Config) (i : Fin n) (k : Kernel n σ) (u : TId) (o : Option SyncId) :
    SameTurn i k (k.onRestoreWeight cfg u o) := by
  unfold Kernel.onRestoreWeight
  dsimp only
  split
  · exact refl i k
  · split
    · exact fault i k _
    · exact (setCurrentWeight i _ k _).trans (callStrategy cfg i _ _)

omit [SwitchStrategy (Fin n) σ] in
/-- INTERNAL: the sync objects' part of a tick leaves a slot alone that is in no wait. -/
theorem updateSyncObjects (e : ℤ) (hk : Linked k) (hobj : (k.tasks i).waitObj.syncObj = none) :
    SameTurn i k (k.updateSyncObjects e) := by
  refine (Runs.foldl_keeps (I := fun k' => SameTurn i k k' ∧ Linked k') ?_ ⟨refl i k, hk⟩ : _ ∧ _).1
  intro k' o _ hk'
  refine ⟨?_, SameSlot.tickObject_linked hk'.2 e o⟩
  have hnotin : ∀ j ∈ k'.waitList o, j ≠ i := by
    rintro j hj rfl
    rw [← hk'.2.mem, hk'.1.job.waitObj, hobj] at hj
    cases hj
  have htick : SameTurn i k (k'.tickSyncObject e o) :=
    Runs.foldl_keeps (I := SameTurn i k) (fun k'' j hj h => h.trans (tickWaitObj_ne (hnotin j hj) e k''))
      hk'.1
  dsimp only
  split
  · exact htick.trans ⟨.refl _, rfl, rfl, rfl⟩
  · exact htick

/-- INTERNAL: the strategy is told of a sleep that has begun. -/
theorem deliverSleep (cfg : Config) (i j : Fin n) (k : Kernel n σ) :
    SameTurn i k (k.deliverSleep cfg j) := by
  unfold Kernel.deliverSleep
  split
  · refine SameTurn.trans ?_ (callStrategy cfg i _ _)
    exact setTask i j k (fun _ => ⟨rfl, rfl, rfl, rfl, rfl⟩)
  · exact refl i k

/-- INTERNAL: another task is removed. -/
theorem removeTask_ne (cfg : Config) {j : Fin n} (hj : j ≠ i) (k : Kernel n σ) :
    SameTurn i k (k.removeTask cfg j) := by
  obtain ⟨hother, -, -, hnow, hfsm⟩ := removeTask_frame cfg k j
  refine ⟨?_, hnow, hfsm, (SameWaits.removeTask cfg k j).ticks⟩
  rw [hother i hj.symm]

/-- INTERNAL: the work of a tick on another slot. -/
theorem updateSlot_ne (cfg : Config) (e : ℤ) {j : Fin n} (hj : j ≠ i) (acc : Kernel n σ × ℤ) :
    SameTurn i acc.1 (updateSlot cfg e acc j).1 := by
  unfold Kernel.updateSlot
  dsimp only
  split
  · exact removeTask_ne cfg hj _
  · split
    · refine (deliverSleep cfg i j acc.1).trans ?_
      unfold Kernel.advanceSleep
      dsimp only
      split
      · exact (setTask_ne hj _ _).trans (callStrategy cfg i _ _)
      · exact setTask_ne hj _ _
    · obtain ⟨hother, -, -, -, hnow, hfsm⟩ := advanceDuration_frame cfg acc.1 e j
      refine ⟨?_, hnow, hfsm, (SameTasks.advanceDuration cfg e acc.1 j).ticks⟩
      rw [hother i hj.symm]

end SameTurn

/-! ## One tick -/

/-- `UpdateTaskState` of one slot: a sleeping task has slept `e` more ticks, a task that is
awake has `e` more ticks of its job behind it. -/
def counted (e : ℤ) (t : KernelTask) : KernelTask :=
  if t.isSleeping then { t with timeSleep := t.timeSleep + e }
  else { t with hrt := { t.hrt with duration := t.hrt.duration + e } }

/-- INTERNAL: a counted tick is the same for both jobs. -/
theorem SameJob.counted {t t' : KernelTask} (e : ℤ) (h : SameJob t t') :
    SameJob (counted e t) (counted e t') := by
  have hsleep : t'.isSleeping = t.isSleeping := by simp only [KernelTask.isSleeping, h.time]
  unfold Stk.Analysis.counted
  rw [hsleep]
  split
  · exact ⟨h.user, h.remove, by simp only [h.time], h.waitObj, h.hrt⟩
  · exact ⟨h.user, h.remove, h.time, h.waitObj, by simp only [h.hrt]⟩

namespace SameTurn

variable {k' : Kernel n σ}

omit [SwitchStrategy (Fin n) σ] in
/-- INTERNAL: a counted tick is the same in both states. -/
theorem counted (e : ℤ) (h : SameTurn i k k') :
    SameTurn i (k.setTask i (counted e)) (k'.setTask i (counted e)) := by
  refine ⟨?_, h.now, h.fsm, h.ticks⟩
  simp only [Kernel.setTask, Function.update_self]
  exact h.job.counted e

/-- INTERNAL: the work of a tick on the slot itself is the counted tick. -/
theorem updateSlot_self (hhrt : cfg.isHrtMode = true) (e : ℤ) (hbusy : (k.tasks i).user ≠ none)
    (hlive : (k.tasks i).removePending = false) (t : ℤ) :
    SameTurn i (k.setTask i (Stk.Analysis.counted e)) (updateSlot cfg e (k, t) i).1 := by
  have hkeep : ((k.tasks i).isSleeping && k.isRemovable cfg i) ≠ true := by
    simp [Kernel.isRemovable, hlive]
  unfold Kernel.updateSlot
  dsimp only
  rw [if_neg hkeep]
  cases hs : (k.tasks i).isSleeping with
  | true =>
    have hset : k.setTask i (Stk.Analysis.counted e) =
        k.setTask i (fun t => { t with timeSleep := t.timeSleep + e }) := by
      simp [Kernel.setTask, Stk.Analysis.counted, hs]
    rw [if_pos rfl, hset]
    have hdeliver := deliverSleep cfg i i k
    have hadvance : SameTurn i (k.setTask i (fun t => { t with timeSleep := t.timeSleep + e }))
        ((k.deliverSleep cfg i).setTask i (fun t => { t with timeSleep := t.timeSleep + e })) := by
      refine ⟨?_, hdeliver.now, hdeliver.fsm, hdeliver.ticks⟩
      simp only [Kernel.setTask, Function.update_self]
      exact ⟨hdeliver.job.user, hdeliver.job.remove, by rw [hdeliver.job.time], hdeliver.job.waitObj,
        hdeliver.job.hrt⟩
    unfold Kernel.advanceSleep
    dsimp only
    split
    · exact hadvance.trans (callStrategy cfg i _ _)
    · exact hadvance
  | false =>
    have hset : k.setTask i (Stk.Analysis.counted e) = k.setTask i (fun t => { t with
        hrt := { t.hrt with duration := t.hrt.duration + e } }) := by
      simp [Kernel.setTask, Stk.Analysis.counted, hs]
    rw [if_neg Bool.false_ne_true, hset]
    unfold Kernel.advanceDuration
    rw [if_pos (by simp [hhrt, KernelTask.isBusy, Option.isSome_iff_ne_none, hbusy])]
    dsimp only
    split
    · exact fault i _ _
    · exact refl i _

/-- INTERNAL: what a tick does to a slot that is in no wait, before the FSM. -/
theorem updateTasks (hhrt : cfg.isHrtMode = true) (e : ℤ) (hk : Linked k)
    (hbusy : (k.tasks i).user ≠ none) (hlive : (k.tasks i).removePending = false)
    (hobj : (k.tasks i).waitObj.syncObj = none) :
    SameTurn i (k.setTask i (Stk.Analysis.counted e)) (k.updateTasks cfg e).1 := by
  have hsync : SameTurn i k (if cfg.isSyncMode then k.updateSyncObjects e else k) := by
    split
    · exact updateSyncObjects e hk hobj
    · exact refl i k
  unfold Kernel.updateTasks
  dsimp only
  generalize (if cfg.isSyncMode then k.updateSyncObjects e else k) = k₁ at hsync
  have hrequest : (if k₁.request then k₁.updateTaskRequest cfg else k₁) = k₁ := by
    split
    · simp [Kernel.updateTaskRequest, hhrt]
    · rfl
  rw [hrequest]
  have hother : ∀ (l : List (Fin n)) (acc : Kernel n σ × ℤ), i ∉ l →
      SameTurn i acc.1 (l.foldl (updateSlot cfg e) acc).1 := by
    intro l
    induction l with
    | nil => exact fun acc _ => refl i acc.1
    | cons j l ih =>
      intro acc hl
      obtain ⟨hj, hl⟩ := not_or.mp (mt List.mem_cons.mpr hl)
      exact (updateSlot_ne cfg e (Ne.symm hj) acc).trans (ih _ hl)
  obtain ⟨l₁, l₂, hl⟩ := List.append_of_mem (List.mem_finRange i)
  have hnd : (l₁ ++ i :: l₂).Nodup := hl ▸ List.nodup_finRange n
  obtain ⟨-, hnd₂, hdisj⟩ := List.nodup_append.mp hnd
  have hi₁ : i ∉ l₁ := fun hmem => hdisj i hmem i List.mem_cons_self rfl
  have hi₂ : i ∉ l₂ := (List.nodup_cons.mp hnd₂).1
  unfold Kernel.updateTaskState
  rw [hl, List.foldl_append, List.foldl_cons]
  have hbefore := hsync.trans
    (hother l₁ (k₁, if cfg.isTicklessMode then cfg.ticklessTicksMax else 1) hi₁)
  generalize l₁.foldl (updateSlot cfg e)
    (k₁, if cfg.isTicklessMode then cfg.ticklessTicksMax else 1) = acc at hbefore
  have hself := updateSlot_self (k := acc.1) hhrt e (by rw [hbefore.job.user]; exact hbusy)
    (by rw [hbefore.job.remove]; exact hlive) acc.2
  exact ((hbefore.counted e).trans hself).trans (hother l₂ _ hi₂)

end SameTurn

/-! ## The FSM -/

/-- What the FSM relies on in the strategy: the task it gets is awake, it gets none only if
every bound task sleeps and an exit only if no task is bound, and there is a first task to
stand for the sleep trap. -/
structure Dispatches (cfg : Config) (k : Kernel n σ) : Prop where
  awake : ∀ j, (k.fetchNextEvent cfg).2.1 = some j → (k.tasks j).isSleeping = false
  idle : (k.fetchNextEvent cfg).2.1 = none → ∀ j, (k.tasks j).isBusy = true → (k.tasks j).isSleeping = true
  exit : (k.fetchNextEvent cfg).1 = .exit → ∀ j, (k.tasks j).isBusy = false
  first : SwitchStrategy.getFirst (k.fetchNextEvent cfg).2.2.strategy ≠ none

instance : Decidable (Dispatches cfg k) :=
  decidable_of_iff
    ((∀ j, (k.fetchNextEvent cfg).2.1 = some j → (k.tasks j).isSleeping = false) ∧
      ((k.fetchNextEvent cfg).2.1 = none →
        ∀ j, (k.tasks j).isBusy = true → (k.tasks j).isSleeping = true) ∧
      ((k.fetchNextEvent cfg).1 = .exit → ∀ j, (k.tasks j).isBusy = false) ∧
      SwitchStrategy.getFirst (k.fetchNextEvent cfg).2.2.strategy ≠ none)
    ⟨fun h => ⟨h.1, h.2.1, h.2.2.1, h.2.2.2⟩, fun h => ⟨h.awake, h.idle, h.exit, h.first⟩⟩

/-- What the FSM of a running kernel does in one tick, `k` to `k'`: it switches to a task that
is awake, wakes up to one, goes to sleep when there is none, or sleeps on.  The slot it
switches out is re-armed. -/
inductive FsmMoves (cfg : Config) (k k' : Kernel n σ) : Prop where
  | switch (now next : Fin n) (hnow : k.taskNow = some now) (hawake : (k.tasks next).isSleeping = false)
      (hold : k.fsmState ≠ .sleeping) (hnew : k'.fsmState = .switching) (hnext : k'.taskNow = some next)
      (htasks : k'.tasks = if next ≠ now ∧ cfg.isHrtMode = true ∧ (k.tasks now).hrt.done = true then
        (k.hrtOnSwitchedOut now).tasks else k.tasks)
  | wake (next : Fin n) (hawake : (k.tasks next).isSleeping = false)
      (hold : k.fsmState = .sleeping) (hnew : k'.fsmState = .waking) (hnext : k'.taskNow = some next)
      (htasks : k'.tasks = k.tasks)
  | sleep (now first : Fin n) (hnow : k.taskNow = some now)
      (hidle : ∀ j, (k.tasks j).isBusy = true → (k.tasks j).isSleeping = true)
      (hold : k.fsmState ≠ .sleeping) (hnew : k'.fsmState = .sleeping) (hnext : k'.taskNow = some first)
      (htasks : k'.tasks = if cfg.isHrtMode = true ∧ (k.tasks now).removePending = false then
        (k.hrtOnSwitchedOut now).tasks else k.tasks)
  | stay (hidle : ∀ j, (k.tasks j).isBusy = true → (k.tasks j).isSleeping = true)
      (hold : k.fsmState = .sleeping) (hnew : k'.fsmState = .sleeping) (hnext : k'.taskNow = k.taskNow)
      (htasks : k'.tasks = k.tasks)

/-- INTERNAL: the state machine moves as `FsmMoves` lists it. -/
theorem updateFsmState_moves (hd : Dispatches cfg k) (hbusy : (k.tasks i).isBusy = true)
    (hstarted : k.taskNow ≠ none)
    (hfsm : k.fsmState = .switching ∨ k.fsmState = .waking ∨ k.fsmState = .sleeping) :
    FsmMoves cfg k (k.updateFsmState cfg).1 ∧ (k.updateFsmState cfg).1.ticks = k.ticks := by
  obtain ⟨now, hnow⟩ := Option.ne_none_iff_exists'.mp hstarted
  obtain ⟨hawake, hidle, hexit, hfirst⟩ := hd
  obtain ⟨htasks, hticks, hnow', hfsm', hsome, hnone⟩ := fetchNextEvent_frame cfg k
  unfold Kernel.updateFsmState
  dsimp only
  generalize k.fetchNextEvent cfg = f at *
  obtain ⟨event, next, k₁⟩ := f
  dsimp only at *
  cases next with
  | some j =>
    have hevent := hsome j rfl
    have hj := hawake j rfl
    by_cases hsleeping : k.fsmState = .sleeping
    · rw [if_pos hsleeping] at hevent
      subst hevent
      simp only [hsleeping, fsm, Kernel.stateWake]
      exact ⟨.wake j hj hsleeping rfl rfl htasks, hticks⟩
    · rw [if_neg hsleeping] at hevent
      subst hevent
      have hnew : fsm k.fsmState .switch = .switching := by
        rcases hfsm with h | h | h
        · rw [h]; rfl
        · rw [h]; rfl
        · exact absurd h hsleeping
      simp only [hnew, hnow, Kernel.stateSwitch]
      by_cases hne : j ≠ now
      · rw [if_pos hne]
        by_cases hdone : (cfg.isHrtMode && (k₁.tasks now).hrt.done) = true
        · have hdone' : cfg.isHrtMode = true ∧ (k.tasks now).hrt.done = true := by
            rw [← htasks]
            simpa using hdone
          rw [if_pos (by exact hdone)]
          refine ⟨.switch now j hnow hj hsleeping rfl rfl ?_, hticks⟩
          rw [if_pos ⟨hne, hdone'⟩]
          simp [Kernel.hrtOnSwitchedOut, Kernel.setTask, htasks]
        · have hdone' : ¬(cfg.isHrtMode = true ∧ (k.tasks now).hrt.done = true) := by
            rw [← htasks]
            simpa using hdone
          rw [if_neg (by exact hdone)]
          refine ⟨.switch now j hnow hj hsleeping rfl rfl ?_, hticks⟩
          rw [if_neg (fun h => hdone' h.2)]
          exact htasks
      · rw [if_neg hne]
        refine ⟨.switch now j hnow hj hsleeping rfl ?_ ?_, hticks⟩
        · rw [not_not.mp hne]
          exact hnow'.trans hnow
        · rw [if_neg (fun h => hne h.1)]
          exact htasks
  | none =>
    have hall := hidle rfl
    have hevent : event = .sleep := by
      refine (hnone rfl).resolve_left (fun he => ?_)
      have hfree := hexit he i
      rw [hbusy] at hfree
      cases hfree
    subst hevent
    by_cases hsleeping : k.fsmState = .sleeping
    · simp only [hsleeping, fsm]
      exact ⟨.stay hall hsleeping (hfsm'.trans hsleeping) hnow' htasks, hticks⟩
    · have hnew : fsm k.fsmState .sleep = .sleeping := by
        rcases hfsm with h | h | h
        · rw [h]; rfl
        · rw [h]; rfl
        · exact absurd h hsleeping
      obtain ⟨first, hfirst⟩ := Option.ne_none_iff_exists'.mp hfirst
      simp only [hnew, hnow, Kernel.stateSleep, hfirst]
      by_cases hlive : (cfg.isHrtMode && !(k₁.tasks now).removePending) = true
      · have hlive' : cfg.isHrtMode = true ∧ (k.tasks now).removePending = false := by
          rw [← htasks]
          simpa using hlive
        rw [if_pos (by exact hlive)]
        refine ⟨.sleep now first hnow hall hsleeping rfl rfl ?_, hticks⟩
        rw [if_pos hlive']
        simp [Kernel.hrtOnSwitchedOut, Kernel.setTask, htasks]
      · have hlive' : ¬(cfg.isHrtMode = true ∧ (k.tasks now).removePending = false) := by
          rw [← htasks]
          simpa using hlive
        rw [if_neg (by exact hlive)]
        refine ⟨.sleep now first hnow hall hsleeping rfl rfl ?_, hticks⟩
        rw [if_neg hlive']
        exact htasks

namespace FsmMoves

variable {k' : Kernel n σ}

/-- INTERNAL: a started scheduler stays started. -/
theorem running (h : FsmMoves cfg k k') (hstarted : k.taskNow ≠ none) : k'.taskNow ≠ none ∧
    (k'.fsmState = .switching ∨ k'.fsmState = .waking ∨ k'.fsmState = .sleeping) := by
  cases h with
  | switch now next _ _ _ hnew hnext _ => exact ⟨by rw [hnext]; exact Option.some_ne_none _, .inl hnew⟩
  | wake next _ _ hnew hnext _ => exact ⟨by rw [hnext]; exact Option.some_ne_none _, .inr (.inl hnew)⟩
  | sleep now first _ _ _ hnew hnext _ =>
    exact ⟨by rw [hnext]; exact Option.some_ne_none _, .inr (.inr hnew)⟩
  | stay _ _ hnew hnext _ => exact ⟨by rw [hnext]; exact hstarted, .inr (.inr hnew)⟩

/-- INTERNAL: a slot with an unfinished job that is awake or not the one running keeps its
state. -/
theorem tasks_eq (h : FsmMoves cfg k k') (hbusy : (k.tasks i).isBusy = true)
    (hdone : (k.tasks i).hrt.done = false)
    (hoff : (k.tasks i).isSleeping = false ∨ k.taskNow ≠ some i ∨ k.fsmState = .sleeping) :
    k'.tasks i = k.tasks i := by
  cases h with
  | switch now next hnow _ _ _ _ htasks =>
    rw [htasks]
    split
    · next hout =>
      have hne : i ≠ now := by
        rintro rfl
        rw [hdone] at hout
        exact Bool.false_ne_true hout.2.2
      simp [Kernel.hrtOnSwitchedOut, Kernel.setTask, hne]
    · rfl
  | wake _ _ _ _ _ htasks => rw [htasks]
  | sleep now _ hnow hidle hold _ _ htasks =>
    rw [htasks]
    split
    · have hne : i ≠ now := by
        rintro rfl
        rcases hoff with hawake | hnot | hsleeping
        · rw [hidle i hbusy] at hawake
          cases hawake
        · exact hnot hnow
        · exact hold hsleeping
      simp [Kernel.hrtOnSwitchedOut, Kernel.setTask, hne]
    · rfl
  | stay _ _ _ _ htasks => rw [htasks]

/-- INTERNAL: a slot that sleeps does not come up as the running one. -/
theorem off (h : FsmMoves cfg k k') (hs : (k.tasks i).isSleeping = true)
    : k'.taskNow ≠ some i ∨ k'.fsmState = .sleeping := by
  have hne : ∀ next, (k.tasks next).isSleeping = false → next ≠ i := by
    rintro next hawake rfl
    rw [hs] at hawake
    cases hawake
  cases h with
  | switch now next _ hawake _ _ hnext _ =>
    left
    rw [hnext]
    exact fun heq => hne next hawake (Option.some.inj heq)
  | wake next hawake _ _ hnext _ =>
    left
    rw [hnext]
    exact fun heq => hne next hawake (Option.some.inj heq)
  | sleep _ _ _ _ _ hnew _ _ => exact .inr hnew
  | stay _ _ hnew _ _ => exact .inr hnew

/-- INTERNAL: the running task, asleep after completing its job, is switched out and
re-armed. -/
theorem rearms (h : FsmMoves cfg k k') (hhrt : cfg.isHrtMode = true) (hnow : k.taskNow = some i)
    (hrunning : k.fsmState ≠ .sleeping) (hs : (k.tasks i).isSleeping = true)
    (hdone : (k.tasks i).hrt.done = true) (hlive : (k.tasks i).removePending = false) :
    k'.tasks i = (k.tasks i).hrtOnSwitchedOut (SwitchStrategy.sleepEventApi σ) := by
  cases h with
  | switch now next hnow' hawake _ _ _ htasks =>
    obtain rfl : now = i := Option.some.inj (hnow'.symm.trans hnow)
    have hne : next ≠ now := by
      rintro rfl
      rw [hs] at hawake
      cases hawake
    rw [htasks, if_pos ⟨hne, hhrt, hdone⟩]
    simp [Kernel.hrtOnSwitchedOut, Kernel.setTask]
  | wake _ _ hold _ _ _ => exact absurd hold hrunning
  | sleep now _ hnow' _ _ _ _ htasks =>
    obtain rfl : now = i := Option.some.inj (hnow'.symm.trans hnow)
    rw [htasks, if_pos ⟨hhrt, hlive⟩]
    simp [Kernel.hrtOnSwitchedOut, Kernel.setTask]
  | stay _ hold _ _ _ => exact absurd hold hrunning

end FsmMoves

/-! ## The cycle of a task -/

/-- Slot `i` holds a task of period `P` in a running kernel; the task is in no wait and not to
be removed. -/
structure Periodic (i : Fin n) (P : ℤ) (k : Kernel n σ) : Prop where
  busy : (k.tasks i).user ≠ none
  live : (k.tasks i).removePending = false
  unlinked : (k.tasks i).waitObj.syncObj = none
  period : (k.tasks i).hrt.periodicity = P
  started : k.taskNow ≠ none
  fsm : k.fsmState = .switching ∨ k.fsmState = .waking ∨ k.fsmState = .sleeping

/-- The task was activated at the tick count `act` and works on its job. -/
structure Working (i : Fin n) (P act : ℤ) (k : Kernel n σ) : Prop extends Periodic i P k where
  awake : (k.tasks i).isSleeping = false
  duration : (k.tasks i).hrt.duration = k.ticks - act
  done : (k.tasks i).hrt.done = false

/-- The task has completed its job and waits to be switched out. -/
structure Yielded (i : Fin n) (P act : ℤ) (k : Kernel n σ) : Prop extends Periodic i P k where
  time : (k.tasks i).timeSleep = -yieldTicks
  duration : (k.tasks i).hrt.duration = k.ticks - act
  inTime : (k.tasks i).hrt.duration ≤ P
  done : (k.tasks i).hrt.done = true
  now : k.taskNow = some i
  running : k.fsmState ≠ .sleeping

/-- The task sleeps until its next activation at the tick count `due`. -/
structure Resting (i : Fin n) (P due : ℤ) (k : Kernel n σ) : Prop extends Periodic i P k where
  time : (k.tasks i).timeSleep = k.ticks - due
  early : k.ticks < due
  duration : (k.tasks i).hrt.duration = 0
  done : (k.tasks i).hrt.done = false
  off : k.taskNow ≠ some i ∨ k.fsmState = .sleeping

/-- Where the task is, given its last activation. -/
def Cycle (i : Fin n) (P : ℤ) (last : Option ℤ) (k : Kernel n σ) : Prop :=
  (∃ act, last = some act ∧ (Working i P act k ∨ Yielded i P act k)) ∨
    ∃ due, Resting i P due k ∧ ∀ act, last = some act → due = act + P + 1 ∨ due = act + P + 2

section Frame

variable {P : ℤ} {k' : Kernel n σ}

omit [SwitchStrategy (Fin n) σ] in
/-- INTERNAL: the frame keeps the timing of the task. -/
theorem Periodic.frame (h : Periodic i P k) (hs : SameTurn i k k') : Periodic i P k' where
  busy := by rw [hs.job.user]; exact h.busy
  live := by rw [hs.job.remove]; exact h.live
  unlinked := by rw [hs.job.waitObj]; exact h.unlinked
  period := by rw [hs.job.hrt]; exact h.period
  started := by rw [hs.now]; exact h.started
  fsm := by rw [hs.fsm]; exact h.fsm

omit [SwitchStrategy (Fin n) σ] in
/-- INTERNAL: the frame keeps whether the task sleeps. -/
theorem SameTurn.isSleeping (hs : SameTurn i k k') :
    (k'.tasks i).isSleeping = (k.tasks i).isSleeping := by
  simp only [KernelTask.isSleeping, hs.job.time]

omit [SwitchStrategy (Fin n) σ] in
/-- INTERNAL: the frame keeps a job that works. -/
theorem Working.frame {act : ℤ} (h : Working i P act k) (hs : SameTurn i k k') : Working i P act k' where
  toPeriodic := h.toPeriodic.frame hs
  awake := by rw [hs.isSleeping]; exact h.awake
  duration := by rw [hs.job.hrt, hs.ticks]; exact h.duration
  done := by rw [hs.job.hrt]; exact h.done

omit [SwitchStrategy (Fin n) σ] in
/-- INTERNAL: the frame keeps a job that has yielded. -/
theorem Yielded.frame {act : ℤ} (h : Yielded i P act k) (hs : SameTurn i k k') : Yielded i P act k' where
  toPeriodic := h.toPeriodic.frame hs
  time := by rw [hs.job.time]; exact h.time
  duration := by rw [hs.job.hrt, hs.ticks]; exact h.duration
  inTime := by rw [hs.job.hrt]; exact h.inTime
  done := by rw [hs.job.hrt]; exact h.done
  now := by rw [hs.now]; exact h.now
  running := by rw [hs.fsm]; exact h.running

omit [SwitchStrategy (Fin n) σ] in
/-- INTERNAL: the frame keeps a task that rests. -/
theorem Resting.frame {due : ℤ} (h : Resting i P due k) (hs : SameTurn i k k') : Resting i P due k' where
  toPeriodic := h.toPeriodic.frame hs
  time := by rw [hs.job.time, hs.ticks]; exact h.time
  early := by rw [hs.ticks]; exact h.early
  duration := by rw [hs.job.hrt]; exact h.duration
  done := by rw [hs.job.hrt]; exact h.done
  off := by rw [hs.now, hs.fsm]; exact h.off

omit [SwitchStrategy (Fin n) σ] in
/-- INTERNAL: the frame keeps the phase of the cycle. -/
theorem Cycle.frame {last : Option ℤ} (h : Cycle i P last k) (hs : SameTurn i k k') :
    Cycle i P last k' := by
  rcases h with ⟨act, hlast, hwork | hyield⟩ | ⟨due, hrest, hdue⟩
  · exact .inl ⟨act, hlast, .inl (hwork.frame hs)⟩
  · exact .inl ⟨act, hlast, .inr (hyield.frame hs)⟩
  · exact .inr ⟨due, hrest.frame hs, hdue⟩

omit [SwitchStrategy (Fin n) σ] in
/-- INTERNAL: every phase of the cycle has the timing of the task. -/
theorem Cycle.periodic {last : Option ℤ} (h : Cycle i P last k) : Periodic i P k := by
  rcases h with ⟨act, -, hwork | hyield⟩ | ⟨due, hrest, -⟩
  · exact hwork.toPeriodic
  · exact hyield.toPeriodic
  · exact hrest.toPeriodic

end Frame

section Tick

variable {P : ℤ}

/-- INTERNAL: a tick is `UpdateTasks`, which counts it in the slot, and a move of the FSM. -/
theorem Periodic.onTick (h : Periodic i P k) (hhrt : cfg.isHrtMode = true) (hk : Linked k) (e : ℤ)
    (hd : Dispatches cfg (({ k with ticks := k.ticks + e } : Kernel n σ).updateTasks cfg e).1) :
    ∃ k₁ : Kernel n σ, SameTurn i (({ k with ticks := k.ticks + e } : Kernel n σ).setTask i (counted e)) k₁ ∧
      FsmMoves cfg k₁ (k.onTick cfg e).1 ∧ (k.onTick cfg e).1.ticks = k.ticks + e := by
  have hturn := SameTurn.updateTasks (k := { k with ticks := k.ticks + e }) hhrt e
    ⟨hk.mem, hk.nodup, hk.syncNodup, hk.registered⟩ h.busy h.live h.unlinked
  have hbusy : ((({ k with ticks := k.ticks + e } : Kernel n σ).updateTasks cfg e).1.tasks i).isBusy = true := by
    have huser : (counted e (k.tasks i)).user = (k.tasks i).user := by
      unfold counted
      split <;> rfl
    rw [KernelTask.isBusy, hturn.job.user]
    simp [Kernel.setTask, huser, Option.isSome_iff_ne_none, h.busy]
  obtain ⟨hmoves, hticks⟩ := updateFsmState_moves hd hbusy (by rw [hturn.now]; exact h.started)
    (by rw [hturn.fsm]; exact h.fsm)
  exact ⟨_, hturn, hmoves, hticks.trans hturn.ticks⟩

omit [SwitchStrategy (Fin n) σ] in
/-- INTERNAL: the part of `Periodic` that a tick can change is the FSM's. -/
theorem Periodic.counted (h : Periodic i P k) (e : ℤ) :
    Periodic i P (({ k with ticks := k.ticks + e } : Kernel n σ).setTask i (Stk.Analysis.counted e)) := by
  refine ⟨?_, ?_, ?_, ?_, h.started, h.fsm⟩ <;>
  · simp only [Kernel.setTask, Function.update_self, Stk.Analysis.counted]
    split
    · first | exact h.busy | exact h.live | exact h.unlinked | exact h.period
    · first | exact h.busy | exact h.live | exact h.unlinked | exact h.period

/-- INTERNAL: the state machine keeps the timing of a task whose slot it leaves. -/
theorem Periodic.moves {k' : Kernel n σ} (h : Periodic i P k) (hm : FsmMoves cfg k k')
    (hsame : k'.tasks i = k.tasks i) : Periodic i P k' :=
  ⟨by rw [hsame]; exact h.busy, by rw [hsame]; exact h.live, by rw [hsame]; exact h.unlinked,
    by rw [hsame]; exact h.period, (hm.running h.started).1, (hm.running h.started).2⟩

omit [SwitchStrategy (Fin n) σ] in
/-- INTERNAL: a periodic task has its slot. -/
theorem Periodic.isBusy (h : Periodic i P k) : (k.tasks i).isBusy = true := by
  exact KernelTask.isBusy_iff.mpr h.busy

/-- INTERNAL: a tick during the job counts in its duration. -/
theorem Working.onTick {act : ℤ} (h : Working i P act k) (hhrt : cfg.isHrtMode = true) (hk : Linked k)
    (e : ℤ) (hd : Dispatches cfg (({ k with ticks := k.ticks + e } : Kernel n σ).updateTasks cfg e).1) :
    Working i P act (k.onTick cfg e).1 := by
  obtain ⟨k₁, hturn, hmoves, hticks⟩ := h.toPeriodic.onTick hhrt hk e hd
  have hcounted : Working i P act
      (({ k with ticks := k.ticks + e } : Kernel n σ).setTask i (counted e)) := by
    have hduration := h.duration
    have heq : counted e (k.tasks i) = { k.tasks i with
        hrt := { (k.tasks i).hrt with duration := (k.tasks i).hrt.duration + e } } := by
      simp [counted, h.awake]
    refine ⟨h.toPeriodic.counted e, ?_, ?_, ?_⟩
    · simpa [Kernel.setTask, heq, KernelTask.isSleeping] using h.awake
    · simp only [Kernel.setTask, Function.update_self, heq]
      omega
    · simpa [Kernel.setTask, heq] using h.done
  have h₁ := hcounted.frame hturn
  have hsame := hmoves.tasks_eq h₁.isBusy h₁.done (.inl h₁.awake)
  have hticks₁ : k₁.ticks = k.ticks + e := hturn.ticks
  refine ⟨h₁.toPeriodic.moves hmoves hsame, by rw [hsame]; exact h₁.awake, ?_, by rw [hsame]; exact h₁.done⟩
  rw [hsame, hticks, ← hticks₁]
  exact h₁.duration

/-- INTERNAL: the tick after the job does not count; it switches the task out with the rest of
its period to sleep from here on. -/
theorem Yielded.onTick {act : ℤ} (h : Yielded i P act k) (hhrt : cfg.isHrtMode = true) (hk : Linked k)
    (hd : Dispatches cfg (({ k with ticks := k.ticks + 1 } : Kernel n σ).updateTasks cfg 1).1) :
    ∃ due, Resting i P due (k.onTick cfg 1).1 ∧ (due = act + P + 1 ∨ due = act + P + 2) := by
  obtain ⟨k₁, hturn, hmoves, hticks⟩ := h.toPeriodic.onTick hhrt hk 1 hd
  have hasleep : (k.tasks i).isSleeping = true := by
    simp [KernelTask.isSleeping, h.time, yieldTicks]
  have heq : counted 1 (k.tasks i) = { k.tasks i with timeSleep := (k.tasks i).timeSleep + 1 } := by
    simp [counted, hasleep]
  have h₁ := (h.toPeriodic.counted 1).frame hturn
  have htime : (k₁.tasks i).timeSleep = -1 := by
    rw [hturn.job.time]
    simp [Kernel.setTask, heq, h.time, yieldTicks]
  have hhrt₁ : (k₁.tasks i).hrt = (k.tasks i).hrt := by
    rw [hturn.job.hrt]
    simp [Kernel.setTask, heq]
  have hsleep₁ : (k₁.tasks i).isSleeping = true := by simp [KernelTask.isSleeping, htime]
  have hrearmed := hmoves.rearms hhrt (hturn.now.trans h.now) (by rw [hturn.fsm]; exact h.running)
    hsleep₁ (by rw [hhrt₁]; exact h.done) h₁.live
  have hoff := hmoves.off hsleep₁
  obtain ⟨hstarted, hfsm⟩ := hmoves.running h₁.started
  have hduration := h.duration
  have hperiod := h.period
  have hinTime := h.inTime
  by_cases hrest : (k₁.tasks i).hrt.periodicity - (k₁.tasks i).hrt.duration > 0
  · have hslot : (k.onTick cfg 1).1.tasks i = { (k₁.tasks i).scheduleSleep
        (SwitchStrategy.sleepEventApi σ) ((k₁.tasks i).hrt.periodicity - (k₁.tasks i).hrt.duration) with
          hrt := { (k₁.tasks i).hrt with duration := 0, done := false } } := by
      rw [hrearmed]
      simp only [KernelTask.hrtOnSwitchedOut, if_pos hrest]
      rfl
    refine ⟨act + P + 1, ⟨⟨?_, ?_, ?_, ?_, hstarted, hfsm⟩, ?_, ?_, ?_, ?_, hoff⟩, .inl rfl⟩
    · simpa [hslot, KernelTask.scheduleSleep] using h₁.busy
    · simpa [hslot, KernelTask.scheduleSleep] using h₁.live
    · simpa [hslot, KernelTask.scheduleSleep] using h₁.unlinked
    · simpa [hslot, KernelTask.scheduleSleep] using h₁.period
    · simp only [hslot, KernelTask.scheduleSleep, hticks, hhrt₁]
      omega
    · rw [hhrt₁] at hrest
      omega
    · simp [hslot]
    · simp [hslot]
  · -- the job took the whole period: nothing is left to sleep but the rest of the yield
    have hslot : (k.onTick cfg 1).1.tasks i = { k₁.tasks i with
        hrt := { (k₁.tasks i).hrt with duration := 0, done := false } } := by
      rw [hrearmed]
      simp only [KernelTask.hrtOnSwitchedOut, if_neg hrest]
    rw [hhrt₁] at hrest
    refine ⟨act + P + 2, ⟨⟨?_, ?_, ?_, ?_, hstarted, hfsm⟩, ?_, ?_, ?_, ?_, hoff⟩, .inr rfl⟩
    · simpa [hslot] using h₁.busy
    · simpa [hslot] using h₁.live
    · simpa [hslot] using h₁.unlinked
    · simpa [hslot] using h₁.period
    · simp only [hslot, htime, hticks]
      omega
    · omega
    · simp [hslot]
    · simp [hslot]

/-- INTERNAL: a tick between jobs brings the activation nearer. -/
theorem Resting.onTick {due : ℤ} (h : Resting i P due k) (hhrt : cfg.isHrtMode = true) (hk : Linked k)
    (hd : Dispatches cfg (({ k with ticks := k.ticks + 1 } : Kernel n σ).updateTasks cfg 1).1) :
    Resting i P due (k.onTick cfg 1).1 ∨
      ((k.onTick cfg 1).1.ticks = due ∧ Working i P due (k.onTick cfg 1).1) := by
  obtain ⟨k₁, hturn, hmoves, hticks⟩ := h.toPeriodic.onTick hhrt hk 1 hd
  have htime := h.time
  have hearly := h.early
  have hasleep : (k.tasks i).isSleeping = true := by
    rw [KernelTask.isSleeping_iff]
    omega
  have heq : counted 1 (k.tasks i) = { k.tasks i with timeSleep := (k.tasks i).timeSleep + 1 } := by
    simp [counted, hasleep]
  have h₁ := (h.toPeriodic.counted 1).frame hturn
  have htime₁ : (k₁.tasks i).timeSleep = k.ticks + 1 - due := by
    rw [hturn.job.time]
    simp only [Kernel.setTask, Function.update_self, heq]
    omega
  have hhrt₁ : (k₁.tasks i).hrt = (k.tasks i).hrt := by
    rw [hturn.job.hrt]
    simp [Kernel.setTask, heq]
  have hsame := hmoves.tasks_eq h₁.isBusy (by rw [hhrt₁]; exact h.done)
    (.inr (by rw [hturn.now, hturn.fsm]; exact h.off))
  have hperiodic := h₁.moves hmoves hsame
  by_cases hlt : k.ticks + 1 < due
  · left
    have hsleep₁ : (k₁.tasks i).isSleeping = true := by
      rw [KernelTask.isSleeping_iff]
      omega
    refine ⟨hperiodic, ?_, ?_, ?_, ?_, hmoves.off hsleep₁⟩
    · rw [hsame, htime₁, hticks]
    · rw [hticks]
      exact hlt
    · rw [hsame, hhrt₁]
      exact h.duration
    · rw [hsame, hhrt₁]
      exact h.done
  · right
    have hdue : k.ticks + 1 = due := by omega
    refine ⟨hticks.trans hdue, hperiodic, ?_, ?_, ?_⟩
    · rw [hsame, KernelTask.isSleeping_eq_false_iff]
      omega
    · rw [hsame, hhrt₁, h.duration, hticks]
      omega
    · rw [hsame, hhrt₁]
      exact h.done

end Tick

/-! ## Runs -/

/-- The steps of a run in which the task in slot `i` does nothing but its jobs.  It completes a
job with `SwitchToNext` while it is the running task and within `P` ticks of the activation;
it makes no other blocking call, and nobody suspends, resumes or removes it.  Everything else
is free: other tasks, other calls and every tick with a strategy that `Dispatches`. -/
def KeepsPeriod (cfg : Config) (i : Fin n) (P : ℤ) (k : Kernel n σ) : KernelEvent n → Prop
  | .switchToNext j => j = i → k.taskNow = some i ∧ k.fsmState ≠ .sleeping ∧
    (k.tasks i).isSleeping = false ∧ (k.tasks i).hrt.duration ≤ P
  | .wait j _ _ | .taskExit j => j ≠ i
  | .suspendTask u | .resumeTask u | .scheduleTaskRemoval u => k.findTaskByUserTask u ≠ some i
  | .onTick e => Dispatches cfg (({ k with ticks := k.ticks + e } : Kernel n σ).updateTasks cfg e).1
  | _ => True

instance {P : ℤ} : ∀ e : KernelEvent n, Decidable (KeepsPeriod cfg i P k e)
  | .switchToNext j => inferInstanceAs (Decidable (j = i → k.taskNow = some i ∧ k.fsmState ≠ .sleeping ∧
      (k.tasks i).isSleeping = false ∧ (k.tasks i).hrt.duration ≤ P))
  | .wait j _ _ | .taskExit j => inferInstanceAs (Decidable (j ≠ i))
  | .suspendTask u | .resumeTask u | .scheduleTaskRemoval u =>
    inferInstanceAs (Decidable (k.findTaskByUserTask u ≠ some i))
  | .onTick e => inferInstanceAs (Decidable
      (Dispatches cfg (({ k with ticks := k.ticks + e } : Kernel n σ).updateTasks cfg e).1))
  | .addTask _ | .addTaskHrt _ _ _ _ | .removeTask _ | .onStart | .onStop | .onSuspend
  | .requestAddTask _ _ | .sleep _ _ | .sleepUntil _ _ | .waitReturn _ | .sleepCancel _ | .wakeOne _
  | .wakeAll _ | .inheritWeight _ _ | .restoreWeight _ _ => .isTrue trivial

/-- INTERNAL: the calls of others. -/
theorem Periodic.step_sameTurn {P : ℤ} (h : Periodic i P k) (hhrt : cfg.isHrtMode = true)
    (htickless : cfg.isTicklessMode = false) (hk : Linked k) {e : KernelEvent n}
    (he : KeepsPeriod cfg i P k e) (htick : ∀ t, e ≠ .onTick t) (hown : e ≠ .switchToNext i) :
    SameTurn i k (k.step cfg e) := by
  have hstarted : k.isStarted = true := by
    simp [Kernel.isStarted, Option.isSome_iff_ne_none, h.started]
  have hexit : k.fsmState ≠ .exiting := by
    rcases h.fsm with hfsm | hfsm | hfsm <;> simp [hfsm]
  have hnotin : ∀ o, ∀ j ∈ k.waitList o, j ≠ i := by
    rintro o j hj rfl
    rw [← hk.mem, h.unlinked] at hj
    cases hj
  cases e with
  | addTask u =>
    simp only [Kernel.step, hhrt, Bool.not_true, Bool.false_and, Bool.false_eq_true, ↓reduceIte]
    exact .refl i k
  | addTaskHrt u p d s =>
    simp only [Kernel.step, hstarted, Bool.not_true, Bool.and_false, Bool.false_and, Bool.false_eq_true,
      ↓reduceIte]
    exact .refl i k
  | removeTask u =>
    simp only [Kernel.step, hstarted, Bool.not_true, Bool.and_false, Bool.false_eq_true, ↓reduceIte]
    exact .refl i k
  | onStart =>
    simp only [Kernel.step, hstarted, Bool.not_true, Bool.false_and, Bool.false_eq_true, ↓reduceIte]
    exact .refl i k
  | onStop =>
    simp only [Kernel.step, hexit, decide_false, Bool.and_false, Bool.false_eq_true, ↓reduceIte]
    exact .refl i k
  | onTick t => exact absurd rfl (htick t)
  | onSuspend =>
    simp only [Kernel.step, htickless, Bool.false_and, Bool.false_eq_true, ↓reduceIte]
    exact .refl i k
  | requestAddTask j u =>
    simp only [Kernel.step, hhrt, Bool.not_true, Bool.and_false, Bool.false_eq_true, ↓reduceIte]
    exact .refl i k
  | sleep j t =>
    simp only [Kernel.step, hhrt, Bool.not_true, Bool.and_false, Bool.false_and, Bool.false_eq_true,
      ↓reduceIte]
    exact .refl i k
  | sleepUntil j t =>
    simp only [Kernel.step, hhrt, Bool.not_true, Bool.and_false, Bool.false_eq_true, ↓reduceIte]
    exact .refl i k
  | sleepCancel u =>
    simp only [Kernel.step, hhrt, Bool.not_true, Bool.false_eq_true, ↓reduceIte]
    exact .refl i k
  | switchToNext j =>
    have hj : j ≠ i := fun heq => hown (by rw [heq])
    simp only [Kernel.step, Kernel.onTaskSleep, hhrt, ↓reduceIte]
    split
    · rw [if_pos (by decide)]
      exact (SameTurn.setTask_ne hj k _).trans (.setTask_ne hj _ _)
    · exact .refl i k
  | wait j o t =>
    simp only [Kernel.step, Kernel.onTaskWait]
    split
    · split
      · exact .fault i k _
      · split
        · exact .fault i k _
        · refine (SameTurn.setTask_ne he k (fun t' => { t' with waitObj := ⟨some o, false, t⟩ })).trans
            (SameTurn.trans ?_ (.setTask_ne he _ _))
          exact ⟨.refl _, rfl, rfl, rfl⟩
    · exact .refl i k
  | waitReturn j =>
    simp only [Kernel.step]
    split
    · exact .refl i k
    · exact ⟨.refl _, rfl, rfl, rfl⟩
  | taskExit j =>
    simp only [Kernel.step, Kernel.scheduleRemoval]
    split
    · exact .setTask_ne he k _
    · exact .refl i k
  | suspendTask u =>
    simp only [Kernel.step, Kernel.suspendTask]
    split
    · exact .fault i k _
    · next j hj =>
      have hne : j ≠ i := fun heq => he (by rw [hj, heq])
      split
      · exact .refl i k
      · exact .setTask_ne hne k _
  | resumeTask u =>
    simp only [Kernel.step, Kernel.resumeTask]
    split
    · exact .fault i k _
    · next j hj =>
      have hne : j ≠ i := fun heq => he (by rw [hj, heq])
      split
      · exact .wakeTask_ne hne k
      · exact .refl i k
  | scheduleTaskRemoval u =>
    simp only [Kernel.step, Kernel.scheduleRemoval]
    split
    · split
      · exact .refl i k
      · next j hj =>
        have hne : j ≠ i := fun heq => he (by rw [hj, heq])
        exact .setTask_ne hne k _
    · exact .refl i k
  | wakeOne o =>
    simp only [Kernel.step, Kernel.wakeOne]
    split
    · exact .refl i k
    · next j l hl => exact .wakeWaitObj_ne (hnotin o j (by rw [hl]; exact List.mem_cons_self)) k false
  | wakeAll o =>
    exact Runs.foldl_keeps (I := SameTurn i k)
      (fun k' j hj h' => h'.trans (.wakeWaitObj_ne (hnotin o j hj) k' false)) (.refl i k)
  | inheritWeight u w => exact .onInheritWeight cfg i k u w
  | restoreWeight u o => exact .onRestoreWeight cfg i k u o

/-- INTERNAL: the job ends with `SwitchToNext`. -/
theorem Working.switchToNext {P act : ℤ} (h : Working i P act k) (hhrt : cfg.isHrtMode = true)
    (he : KeepsPeriod cfg i P k (.switchToNext i)) :
    Working i P act (k.step cfg (.switchToNext i)) ∨ Yielded i P act (k.step cfg (.switchToNext i)) := by
  obtain ⟨hnow, hrunning, -, hinTime⟩ := he rfl
  simp only [Kernel.step]
  split
  · right
    have hslot : ((k.onTaskSleep cfg i yieldTicks).tasks i) = { k.tasks i with
        hrt := { (k.tasks i).hrt with done := true }
        sleepPending := (k.tasks i).sleepPending || (SwitchStrategy.sleepEventApi σ && !(k.tasks i).isSleeping)
        timeSleep := -yieldTicks } := by
      simp [Kernel.onTaskSleep, hhrt, yieldTicks, Kernel.scheduleSleep, Kernel.setTask,
        KernelTask.scheduleSleep, KernelTask.isSleeping]
    have hframe : (k.onTaskSleep cfg i yieldTicks).ticks = k.ticks ∧
        (k.onTaskSleep cfg i yieldTicks).taskNow = k.taskNow ∧
        (k.onTaskSleep cfg i yieldTicks).fsmState = k.fsmState := by
      simp [Kernel.onTaskSleep, hhrt, yieldTicks, Kernel.scheduleSleep, Kernel.setTask]
    obtain ⟨hticks, hnow', hfsm⟩ := hframe
    refine ⟨⟨?_, ?_, ?_, ?_, ?_, ?_⟩, ?_, ?_, ?_, ?_, ?_, ?_⟩
    · rw [hslot]; exact h.busy
    · rw [hslot]; exact h.live
    · rw [hslot]; exact h.unlinked
    · rw [hslot]; exact h.period
    · rw [hnow']; exact h.started
    · rw [hfsm]; exact h.fsm
    · rw [hslot]
    · rw [hslot, hticks]; exact h.duration
    · rw [hslot]; exact hinTime
    · rw [hslot]
    · rw [hnow']; exact hnow
    · rw [hfsm]; exact hrunning
  · exact .inl h

/-- The ticks at which the task in slot `i` becomes runnable in a run from `k`. -/
def activations (cfg : Config) (i : Fin n) : Kernel n σ → List (KernelEvent n) → List ℤ
  | _, [] => []
  | k, e :: es =>
    if (k.tasks i).isSleeping && !((k.step cfg e).tasks i).isSleeping then
      (k.step cfg e).ticks :: activations cfg i (k.step cfg e) es
    else activations cfg i (k.step cfg e) es

/-- Two activations, a period and one or two ticks apart. -/
def Drifts (P : ℤ) (a b : ℤ) : Prop := b = a + P + 1 ∨ b = a + P + 2

/-- INTERNAL: one step, with the activation it may be. -/
theorem Cycle.step {P : ℤ} {last : Option ℤ} (h : Cycle i P last k) (hhrt : cfg.isHrtMode = true)
    (htickless : cfg.isTicklessMode = false) (hk : Linked k) {e : KernelEvent n}
    (he : KeepsPeriod cfg i P k e) :
    (((k.tasks i).isSleeping && !((k.step cfg e).tasks i).isSleeping) = false ∧
        Cycle i P last (k.step cfg e)) ∨
      (((k.tasks i).isSleeping && !((k.step cfg e).tasks i).isSleeping) = true ∧
        Cycle i P (some (k.step cfg e).ticks) (k.step cfg e) ∧
        ∀ act, last = some act → Drifts P act (k.step cfg e).ticks) := by
  -- a step that does not wake the task
  have hquiet : Cycle i P last (k.step cfg e) →
      ((k.tasks i).isSleeping = true → ((k.step cfg e).tasks i).isSleeping = true) →
      (((k.tasks i).isSleeping && !((k.step cfg e).tasks i).isSleeping) = false ∧
        Cycle i P last (k.step cfg e)) := by
    intro hcycle hasleep
    refine ⟨?_, hcycle⟩
    cases hs : (k.tasks i).isSleeping with
    | false => rfl
    | true => rw [hasleep hs]; rfl
  have hyielded : ∀ {k' : Kernel n σ} {act : ℤ}, Yielded i P act k' → (k'.tasks i).isSleeping = true := by
    intro k' act hy
    simp [KernelTask.isSleeping, hy.time, yieldTicks]
  have hresting : ∀ {k' : Kernel n σ} {due : ℤ}, Resting i P due k' → (k'.tasks i).isSleeping = true := by
    intro k' due hr
    have htime := hr.time
    have hearly := hr.early
    rw [KernelTask.isSleeping_iff]
    omega
  by_cases htick : ∃ t, e = .onTick t
  · obtain ⟨t, rfl⟩ := htick
    by_cases hvalid : (k.isStarted && validElapsed cfg t) = true
    · have hone : t = 1 := by
        simp only [validElapsed, htickless, Bool.false_or, Bool.and_eq_true, decide_eq_true_eq] at hvalid
        exact hvalid.2.2
      subst hone
      have hstep : k.step cfg (.onTick 1) = (k.onTick cfg 1).1 := by
        simp only [Kernel.step, if_pos hvalid]
      rw [hstep] at hquiet ⊢
      rcases h with ⟨act, hlast, hwork | hyield⟩ | ⟨due, hrest, hdue⟩
      · have hnext := hwork.onTick hhrt hk 1 he
        refine .inl (hquiet (.inl ⟨act, hlast, .inl hnext⟩) (fun hs => ?_))
        rw [hwork.awake] at hs
        cases hs
      · obtain ⟨due, hrest, hdue⟩ := hyield.onTick hhrt hk he
        refine .inl (hquiet (.inr ⟨due, hrest, fun act' hact' => ?_⟩) (fun _ => hresting hrest))
        obtain rfl : act = act' := Option.some.inj (hlast.symm.trans hact')
        exact hdue
      · rcases hrest.onTick hhrt hk he with hnext | ⟨hticks, hwork⟩
        · exact .inl (hquiet (.inr ⟨due, hnext, hdue⟩) (fun _ => hresting hnext))
        · right
          rw [hticks]
          refine ⟨?_, .inl ⟨due, rfl, .inl hwork⟩, hdue⟩
          rw [hresting hrest, hwork.awake]
          rfl
    · have hstep : k.step cfg (.onTick t) = k := by
        simp only [Kernel.step]
        rw [if_neg hvalid]
      rw [hstep] at hquiet ⊢
      exact .inl (hquiet h id)
  · by_cases hown : e = .switchToNext i
    · subst hown
      obtain ⟨-, -, hawake, -⟩ := he rfl
      rcases h with ⟨act, hlast, hwork | hyield⟩ | ⟨due, hrest, hdue⟩
      · refine .inl (hquiet (.inl ⟨act, hlast, hwork.switchToNext hhrt he⟩) (fun hs => ?_))
        rw [hawake] at hs
        cases hs
      · rw [hyielded hyield] at hawake
        cases hawake
      · rw [hresting hrest] at hawake
        cases hawake
    · have hturn := h.periodic.step_sameTurn hhrt htickless hk he (fun t ht => htick ⟨t, ht⟩) hown
      exact .inl (hquiet (h.frame hturn) (fun hs => hturn.isSleeping.trans hs))

/-- INTERNAL: by induction on the run. -/
theorem Cycle.run {P : ℤ} (hhrt : cfg.isHrtMode = true) (htickless : cfg.isTicklessMode = false)
    (es : List (KernelEvent n)) :
    ∀ {last : Option ℤ} {k : Kernel n σ}, Cycle i P last k → Linked k →
      Runs.Along (Kernel.step cfg) (KeepsPeriod cfg i P) k es →
      (last.toList ++ activations cfg i k es).IsChain (Drifts P) := by
  induction es with
  | nil =>
    intro last k _ _ _
    cases last <;> simp [activations]
  | cons e es ih =>
    intro last k h hk hes
    have hk' := step_linked cfg hk e
    rcases h.step hhrt htickless hk hes.1 with ⟨hno, hcycle⟩ | ⟨hyes, hcycle, hdrift⟩
    · simp only [activations, hno, Bool.false_eq_true, ↓reduceIte]
      exact ih hcycle hk' hes.2
    · simp only [activations, hyes, ↓reduceIte]
      have hrest := ih hcycle hk' hes.2
      cases last with
      | none => exact hrest
      | some act => exact List.isChain_cons_cons.mpr ⟨hdrift act rfl, hrest⟩

/-- The task in slot `i`, of period `P`, is between its jobs or at the start of one: it has
worked on none and, if it is asleep, does not run. -/
structure BetweenJobs (i : Fin n) (P : ℤ) (k : Kernel n σ) : Prop extends Periodic i P k where
  duration : (k.tasks i).hrt.duration = 0
  done : (k.tasks i).hrt.done = false
  off : (k.tasks i).isSleeping = true → k.taskNow ≠ some i ∨ k.fsmState = .sleeping

/-- The activations of a run that begins between two jobs; if the task is awake there, the
first one is the beginning itself. -/
def activationTimes (cfg : Config) (i : Fin n) (k : Kernel n σ) (es : List (KernelEvent n)) : List ℤ :=
  (if (k.tasks i).isSleeping then none else some k.ticks).toList ++ activations cfg i k es

omit [SwitchStrategy (Fin n) σ] in
/-- INTERNAL: between two jobs a task rests or has just been activated. -/
theorem BetweenJobs.cycle {P : ℤ} (h : BetweenJobs i P k) :
    Cycle i P (if (k.tasks i).isSleeping then none else some k.ticks) k := by
  have hduration := h.duration
  cases hs : (k.tasks i).isSleeping with
  | true =>
    refine .inr ⟨k.ticks - (k.tasks i).timeSleep,
      ⟨h.toPeriodic, by omega, ?_, h.duration, h.done, h.off hs⟩, fun act hact => by cases hact⟩
    rw [KernelTask.isSleeping_iff] at hs
    omega
  | false => exact .inl ⟨k.ticks, rfl, .inl ⟨h.toPeriodic, hs, by omega, h.done⟩⟩

/-- **The period of a hard real-time task.**  Take any run of a `KERNEL_HRT` kernel and a point
of it at which a task of period `P` is between its jobs.  However the run goes on, with the
task completing every job within `P` ticks of its activation, consecutive activations are
`P + 1` or, if a job takes all `P` ticks, `P + 2` ticks apart; so as soon as there are two of
them they are not `P` ticks apart. -/
theorem run_activations (cfg : Config) (hhrt : cfg.isHrtMode = true)
    (htickless : cfg.isTicklessMode = false) (es₀ es : List (KernelEvent n)) (i : Fin n) (P : ℤ)
    (hstart : BetweenJobs i P (Kernel.run cfg es₀ : Kernel n σ))
    (hes : Runs.Along (Kernel.step cfg) (KeepsPeriod cfg i P) (Kernel.run cfg es₀ : Kernel n σ) es) :
    (activationTimes cfg i (Kernel.run cfg es₀ : Kernel n σ) es).IsChain (Drifts P) ∧
      (2 ≤ (activationTimes cfg i (Kernel.run cfg es₀ : Kernel n σ) es).length →
        ¬(activationTimes cfg i (Kernel.run cfg es₀ : Kernel n σ) es).IsChain (fun a b => b = a + P)) := by
  have hchain : (activationTimes cfg i (Kernel.run cfg es₀ : Kernel n σ) es).IsChain (Drifts P) :=
    hstart.cycle.run hhrt htickless es (run_linked cfg es₀) hes
  refine ⟨hchain, ?_⟩
  intro hlen hexact
  generalize activationTimes cfg i (Kernel.run cfg es₀ : Kernel n σ) es = acts at *
  match acts, hlen with
  | a :: b :: rest, _ =>
    have hdrift := (List.isChain_cons_cons.mp hchain).1
    have heq := (List.isChain_cons_cons.mp hexact).1
    unfold Drifts at hdrift
    omega

/-- A periodic task completes each of its first three jobs at once. -/
def threeJobs : List (KernelEvent 1) :=
  [.switchToNext 0, .onTick 1, .onTick 1, .onTick 1, .onTick 1,
    .switchToNext 0, .onTick 1, .onTick 1, .onTick 1, .onTick 1]

/-- The first three activations are a period apart. -/
theorem threeJobs_activations :
    BetweenJobs 0 3 (Kernel.run hrtConfig [.addTaskHrt 0 3 10 0, .onStart] : Kernel 1 (RoundRobin (Fin 1))) ∧
      (activationTimes hrtConfig 0 (Kernel.run hrtConfig [.addTaskHrt 0 3 10 0, .onStart] :
        Kernel 1 (RoundRobin (Fin 1))) threeJobs).IsChain (Drifts 3) := by
  have hstart : BetweenJobs 0 3
      (Kernel.run hrtConfig [.addTaskHrt 0 3 10 0, .onStart] : Kernel 1 (RoundRobin (Fin 1))) := by
    refine ⟨⟨?_, ?_, ?_, ?_, ?_, ?_⟩, ?_, ?_, ?_⟩ <;> decide
  exact ⟨hstart, (run_activations hrtConfig rfl rfl [.addTaskHrt 0 3 10 0, .onStart] threeJobs 0 3 hstart
    (by decide +kernel)).1⟩

/-- The three activations of a task of period 3 are 4 ticks apart; no deadline is missed. -/
theorem threeJobs_drift :
    activationTimes hrtConfig 0 (Kernel.run hrtConfig [.addTaskHrt 0 3 10 0, .onStart] :
        Kernel 1 (RoundRobin (Fin 1))) threeJobs = [0, 4, 8] ∧
      ¬(activationTimes hrtConfig 0 (Kernel.run hrtConfig [.addTaskHrt 0 3 10 0, .onStart] :
        Kernel 1 (RoundRobin (Fin 1))) threeJobs).IsChain (fun a b => b = a + 3) ∧
      (Kernel.run hrtConfig ([.addTaskHrt 0 3 10 0, .onStart] ++ threeJobs) :
        Kernel 1 (RoundRobin (Fin 1))).faults = [] := by
  have htimes : activationTimes hrtConfig 0 (Kernel.run hrtConfig [.addTaskHrt 0 3 10 0, .onStart] :
      Kernel 1 (RoundRobin (Fin 1))) threeJobs = [0, 4, 8] := by decide +kernel
  refine ⟨htimes, ?_, by decide +kernel⟩
  rw [htimes]
  decide

end Stk.Analysis
