import Stk.Analysis.KernelTick

/-!
# The frame of a slot

Most calls into the kernel write one slot.  `SameSlot i` says that a call leaves the sleep
counter, the wait object and the pending call of slot `i` alone; the lemmas here give it
for every kernel function, with the condition under which the function is about another
slot.  A tick advances the counter of a sleeping slot once or removes the task:
`SameSlot.onTick_or_removed`.
-/

set_option autoImplicit false

namespace Stk.Analysis

open Stk.Model Stk.Model.Kernel

variable {n : ℕ} {σ : Type} [SwitchStrategy (Fin n) σ] {cfg : Config} {k : Kernel n σ} {i : Fin n}

/-- Slot `i` has the same task, sleep counter, wait object and pending call in both states,
and the time is the same. -/
structure SameSlot (i : Fin n) (k k' : Kernel n σ) : Prop where
  user : (k'.tasks i).user = (k.tasks i).user
  remove : (k'.tasks i).removePending = (k.tasks i).removePending
  time : (k'.tasks i).timeSleep = (k.tasks i).timeSleep
  waitObj : (k'.tasks i).waitObj = (k.tasks i).waitObj
  call : k'.call i = k.call i
  ticks : k'.ticks = k.ticks

/-- The FSM gives the task in slot `i` the rest of its period to sleep: it calls
`HrtOnSwitchedOut` on the slot and there is a rest. -/
def Rearms (cfg : Config) (k : Kernel n σ) (i : Fin n) : Prop :=
  switchedOut cfg k = some i ∧ (k.tasks i).hrt.duration < (k.tasks i).hrt.periodicity

instance : Decidable (Rearms cfg k i) := inferInstanceAs (Decidable (_ ∧ _))

/-- INTERNAL: only periodic tasks are armed anew. -/
theorem not_rearms (hhrt : cfg.isHrtMode = false) (k : Kernel n σ) (i : Fin n) : ¬Rearms cfg k i := by
  intro h
  simp [Rearms, switchedOut, hhrt] at h

namespace SameSlot

variable {k' k'' : Kernel n σ}

omit [SwitchStrategy (Fin n) σ] in
/-- INTERNAL: nothing changes. -/
@[refl] theorem refl (i : Fin n) (k : Kernel n σ) : SameSlot i k k := ⟨rfl, rfl, rfl, rfl, rfl, rfl⟩

omit [SwitchStrategy (Fin n) σ] in
/-- INTERNAL: two steps within the frame. -/
@[trans] theorem trans (h : SameSlot i k k') (h' : SameSlot i k' k'') : SameSlot i k k'' :=
  ⟨h'.user.trans h.user, h'.remove.trans h.remove, h'.time.trans h.time, h'.waitObj.trans h.waitObj,
    h'.call.trans h.call, h'.ticks.trans h.ticks⟩

omit [SwitchStrategy (Fin n) σ] in
/-- INTERNAL: the frame has no direction. -/
@[symm] theorem symm (h : SameSlot i k k') : SameSlot i k' k :=
  ⟨h.user.symm, h.remove.symm, h.time.symm, h.waitObj.symm, h.call.symm, h.ticks.symm⟩

omit [SwitchStrategy (Fin n) σ] in
/-- INTERNAL: the slots are the same. -/
theorem of_tasks (htasks : k'.tasks i = k.tasks i) (hcall : k'.call i = k.call i)
    (hticks : k'.ticks = k.ticks) : SameSlot i k k' :=
  ⟨by rw [htasks], by rw [htasks], by rw [htasks], by rw [htasks], hcall, hticks⟩

omit [SwitchStrategy (Fin n) σ] in
/-- INTERNAL: a failed assertion is recorded and nothing else. -/
theorem fault (i : Fin n) (k : Kernel n σ) (f : Fault) : SameSlot i k (k.fault f) :=
  ⟨rfl, rfl, rfl, rfl, rfl, rfl⟩

omit [SwitchStrategy (Fin n) σ] in
/-- INTERNAL: another slot is written. -/
theorem setTask_ne {j : Fin n} (hj : j ≠ i) (k : Kernel n σ) (f : KernelTask → KernelTask) :
    SameSlot i k (k.setTask j f) :=
  of_tasks (by simp [Kernel.setTask, hj.symm]) rfl rfl

omit [SwitchStrategy (Fin n) σ] in
/-- INTERNAL: a slot is written within the frame. -/
theorem setTask (i j : Fin n) (k : Kernel n σ) {f : KernelTask → KernelTask}
    (huser : ∀ t, (f t).user = t.user) (hremove : ∀ t, (f t).removePending = t.removePending)
    (htime : ∀ t, (f t).timeSleep = t.timeSleep) (hobj : ∀ t, (f t).waitObj = t.waitObj) :
    SameSlot i k (k.setTask j f) := by
  by_cases hj : j = i
  · subst hj
    exact ⟨by simp [Kernel.setTask, huser], by simp [Kernel.setTask, hremove],
      by simp [Kernel.setTask, htime], by simp [Kernel.setTask, hobj], rfl, rfl⟩
  · exact setTask_ne hj k f

/-- INTERNAL: a call of the strategy. -/
theorem callStrategy (cfg : Config) (i : Fin n) (k : Kernel n σ) (c : StrategyCall (Fin n)) :
    SameSlot i k (k.callStrategy cfg c).2 := by
  unfold Kernel.callStrategy
  split <;> exact ⟨rfl, rfl, rfl, rfl, rfl, rfl⟩

omit [SwitchStrategy (Fin n) σ] in
/-- INTERNAL: a fold of functions that leave the slot alone. -/
theorem foldl {A : Type} {f : Kernel n σ → A → Kernel n σ} {l : List A}
    (hf : ∀ k, ∀ a ∈ l, SameSlot i k (f k a)) (k : Kernel n σ) : SameSlot i k (l.foldl f k) :=
  Runs.foldl_keeps (I := SameSlot i k) (fun k' a ha h => h.trans (hf k' a ha)) (refl i k)

omit [SwitchStrategy (Fin n) σ] in
/-- INTERNAL: the sleep of another task ends. -/
theorem wakeTask_ne {j : Fin n} (hj : j ≠ i) (k : Kernel n σ) : SameSlot i k (k.wakeTask j) := by
  unfold Kernel.wakeTask
  split
  · exact setTask_ne hj k _
  · exact (fault i k _).trans (setTask_ne hj _ _)

omit [SwitchStrategy (Fin n) σ] in
/-- INTERNAL: the wait of another task ends. -/
theorem wakeWaitObj_ne {j : Fin n} (hj : j ≠ i) (k : Kernel n σ) (timeout : Bool) :
    SameSlot i k (k.wakeWaitObj j timeout) := by
  unfold Kernel.wakeWaitObj
  split
  · exact fault i k _
  · next o _ =>
    dsimp only
    refine (setTask_ne hj k (fun t => { t with waitObj := ⟨none, timeout, 0⟩ })).trans
      (SameSlot.trans ?_ (wakeTask_ne hj _))
    exact of_tasks rfl (by simp [hj.symm]) rfl

/-- INTERNAL: a weight is set. -/
theorem setCurrentWeight (i j : Fin n) (k : Kernel n σ) (w : ℤ) :
    SameSlot i k (k.setCurrentWeight j w) := by
  unfold Kernel.setCurrentWeight
  split
  · exact setTask i j k (fun _ => rfl) (fun _ => rfl) (fun _ => rfl) (fun _ => rfl)
  · exact refl i k

/-- INTERNAL: an owner inherits a weight. -/
theorem onInheritWeight (cfg : Config) (i : Fin n) (k : Kernel n σ) (u : TId) (w : ℤ) :
    SameSlot i k (k.onInheritWeight cfg u w) := by
  unfold Kernel.onInheritWeight
  split
  · exact refl i k
  · split
    · exact refl i k
    · split
      · exact fault i k _
      · dsimp only
        split
        · exact (setCurrentWeight i _ k w).trans (callStrategy cfg i _ _)
        · exact refl i k

/-- INTERNAL: an owner gives an inherited weight back. -/
theorem onRestoreWeight (cfg : Config) (i : Fin n) (k : Kernel n σ) (u : TId) (o : Option SyncId) :
    SameSlot i k (k.onRestoreWeight cfg u o) := by
  unfold Kernel.onRestoreWeight
  split
  · exact refl i k
  · split
    · exact fault i k _
    · exact (setCurrentWeight i _ k _).trans (callStrategy cfg i _ _)

/-- INTERNAL: a new task gets a slot that was free. -/
theorem allocateNewTask (hbusy : (k.tasks i).user ≠ none) (u : TId) :
    SameSlot i k (k.allocateNewTask u).2 ∧ ∀ j, (k.allocateNewTask u).1 = some j → j ≠ i := by
  unfold Kernel.allocateNewTask
  have hk : SameSlot i k (if (k.findTaskByUserTask u).isSome then k.fault .taskCollision else k) := by
    split
    · exact fault i k _
    · exact refl i k
  rw [← hk.user] at hbusy
  generalize (if (k.findTaskByUserTask u).isSome then k.fault .taskCollision else k) = k₁ at hk hbusy
  dsimp only
  split
  · exact ⟨hk.trans (fault i k₁ _), by simp⟩
  · next j hj =>
    have hfree : (k₁.tasks j).user = none := by
      simpa [KernelTask.isBusy] using List.find?_some hj
    have hne : j ≠ i := fun heq => hbusy (heq ▸ hfree)
    have hbind := hk.trans (setTask_ne hne k₁ (fun t => { t with user := some u }))
    refine ⟨?_, fun j' hj' => by rw [← Option.some.inj hj']; exact hne⟩
    dsimp only
    split
    · exact hbind.trans (setCurrentWeight i j _ _)
    · exact hbind

/-- INTERNAL: a task is bound and the strategy told. -/
theorem allocateAndAddNewTask (cfg : Config) (hbusy : (k.tasks i).user ≠ none) (u : TId) :
    SameSlot i k (k.allocateAndAddNewTask cfg u) := by
  have halloc := allocateNewTask hbusy u
  unfold Kernel.allocateAndAddNewTask
  generalize k.allocateNewTask u = f at halloc
  obtain ⟨_ | j, k₁⟩ := f
  · exact halloc.1
  · exact halloc.1.trans (callStrategy cfg i k₁ _)

/-- INTERNAL: a periodic task is bound and the strategy told. -/
theorem hrtAllocateAndAddNewTask (cfg : Config) (hbusy : (k.tasks i).user ≠ none) (u : TId)
    (periodicity deadline startDelay : ℤ) :
    SameSlot i k (k.hrtAllocateAndAddNewTask cfg u periodicity deadline startDelay) := by
  have halloc := allocateNewTask hbusy u
  unfold Kernel.hrtAllocateAndAddNewTask
  generalize k.allocateNewTask u = f at halloc
  obtain ⟨_ | j, k₁⟩ := f
  · exact halloc.1
  · exact halloc.1.trans ((setTask_ne (halloc.2 j rfl) k₁ _).trans (callStrategy cfg i _ _))

/-- INTERNAL: requests are served. -/
theorem updateTaskRequest (cfg : Config) (hbusy : (k.tasks i).user ≠ none) :
    SameSlot i k (k.updateTaskRequest cfg) := by
  unfold Kernel.updateTaskRequest
  split
  · refine Runs.foldl_keeps (I := SameSlot i k) (fun k' j _ h => ?_) ⟨rfl, rfl, rfl, rfl, rfl, rfl⟩
    split
    · exact h
    · have hbusy' : (k'.tasks i).user ≠ none := by rw [h.user]; exact hbusy
      exact h.trans ((allocateAndAddNewTask cfg hbusy' _).trans
        (setTask i j _ (fun _ => rfl) (fun _ => rfl) (fun _ => rfl) (fun _ => rfl)))
  · exact refl i k

/-- INTERNAL: another task is removed. -/
theorem removeTask_ne (cfg : Config) {j : Fin n} (hj : j ≠ i) (k : Kernel n σ) :
    SameSlot i k (k.removeTask cfg j) := by
  obtain ⟨hother, -⟩ := removeTask_frame cfg k j
  have hcall := callStrategy cfg i { k with exits := k.exits ++ (k.tasks j).user.toList } (.removeTask j)
  refine of_tasks (hother i hj.symm) ?_ (SameWaits.removeTask cfg k j).ticks
  unfold Kernel.removeTask
  dsimp only
  rw [Function.update_of_ne hj.symm]
  split <;> exact hcall.call

/-- INTERNAL: the strategy is told of a sleep that has begun. -/
theorem deliverSleep (cfg : Config) (i j : Fin n) (k : Kernel n σ) :
    SameSlot i k (k.deliverSleep cfg j) := by
  unfold Kernel.deliverSleep
  split
  · refine SameSlot.trans ?_ (callStrategy cfg i _ _)
    exact setTask i j k (fun _ => rfl) (fun _ => rfl) (fun _ => rfl) (fun _ => rfl)
  · exact refl i k

/-- INTERNAL: a tick of the sleep of another task. -/
theorem advanceSleep_ne (cfg : Config) (e : ℤ) {j : Fin n} (hj : j ≠ i) (k : Kernel n σ) :
    SameSlot i k (k.advanceSleep cfg e j) := by
  unfold Kernel.advanceSleep
  dsimp only
  split
  · exact (setTask_ne hj k _).trans (callStrategy cfg i _ _)
  · exact setTask_ne hj k _

omit [SwitchStrategy (Fin n) σ] in
/-- INTERNAL: a tick of a job. -/
theorem advanceDuration (cfg : Config) (e : ℤ) (i j : Fin n) (k : Kernel n σ) :
    SameSlot i k (k.advanceDuration cfg e j) := by
  unfold Kernel.advanceDuration
  split
  · have hset := setTask i j k (f := fun t => { t with
      hrt := { t.hrt with duration := t.hrt.duration + e } }) (fun _ => rfl) (fun _ => rfl)
      (fun _ => rfl) (fun _ => rfl)
    dsimp only
    split
    · exact hset.trans (fault i _ _)
    · exact hset
  · exact refl i k

/-- INTERNAL: the work of a tick on another slot. -/
theorem updateSlot_ne (cfg : Config) (e : ℤ) {j : Fin n} (hj : j ≠ i) (acc : Kernel n σ × ℤ) :
    SameSlot i acc.1 (updateSlot cfg e acc j).1 := by
  unfold Kernel.updateSlot
  dsimp only
  split
  · exact removeTask_ne cfg hj _
  · split
    · exact (deliverSleep cfg i j _).trans (advanceSleep_ne cfg e hj _)
    · exact advanceDuration cfg e i j _

/-- INTERNAL: the strategy is asked for the next task. -/
theorem fetchNextEvent (cfg : Config) (i : Fin n) (k : Kernel n σ) :
    SameSlot i k (k.fetchNextEvent cfg).2.2 := by
  have hcall := callStrategy cfg i k .getNext
  unfold Kernel.fetchNextEvent
  generalize k.callStrategy cfg .getNext = f at hcall
  obtain ⟨_ | next, k₁⟩ := f
  · dsimp only
    split <;> exact hcall
  · dsimp only
    split
    · exact hcall.trans (fault i k₁ _)
    · exact hcall

/-- INTERNAL: the start of the scheduler. -/
theorem onStart (cfg : Config) (i : Fin n) (k : Kernel n σ) : SameSlot i k (k.onStart cfg) := by
  unfold Kernel.onStart
  have hloop : SameSlot i k ((List.finRange n).foldl (fun k j =>
      if (k.tasks j).isSleeping then k.deliverSleep cfg j else k) k) := by
    refine foldl (fun k j _ => ?_) k
    split
    · exact deliverSleep cfg i j k
    · exact refl i k
  dsimp only
  generalize (List.finRange n).foldl (fun k j =>
    if (k.tasks j).isSleeping then k.deliverSleep cfg j else k) k = k₁ at hloop
  have hswitch : SameSlot i k { k₁ with fsmState := .switching } :=
    hloop.trans ⟨rfl, rfl, rfl, rfl, rfl, rfl⟩
  have hfetch := hswitch.trans (fetchNextEvent cfg i _)
  generalize ({ k₁ with fsmState := .switching } : Kernel n σ).fetchNextEvent cfg = f at hfetch
  obtain ⟨event, next, k₂⟩ := f
  dsimp only at hfetch ⊢
  split
  · exact hfetch.trans ⟨rfl, rfl, rfl, rfl, rfl, rfl⟩
  · split
    · exact hfetch.trans ⟨rfl, rfl, rfl, rfl, rfl, rfl⟩
    · exact hfetch.trans ⟨rfl, rfl, rfl, rfl, rfl, rfl⟩
  · exact hfetch.trans ⟨rfl, rfl, rfl, rfl, rfl, rfl⟩

omit [SwitchStrategy (Fin n) σ] in
/-- INTERNAL: `WaitObject::Tick` does not count the time of an infinite wait. -/
theorem tickWaitObj (e : ℤ) {j : Fin n}
    (hj : j = i → (k.tasks i).waitObj.timeWait = waitInfinite ∧ (k.tasks i).waitObj.timeout = false) :
    SameSlot i k (Kernel.tickWaitObj e k j) := by
  unfold Kernel.tickWaitObj
  dsimp only
  by_cases hji : j = i
  · subst hji
    obtain ⟨hinf, htimeout⟩ := hj rfl
    have hid : (k.tasks j).tickWaitObj e = k.tasks j := by
      unfold KernelTask.tickWaitObj
      rw [if_neg (not_not.mpr hinf)]
    have hset : SameSlot j k (k.setTask j (fun t => t.tickWaitObj e)) :=
      of_tasks (by simp [Kernel.setTask, hid]) rfl rfl
    rw [if_neg (by simp [Kernel.setTask, hid, htimeout])]
    exact hset
  · split
    · exact (setTask_ne hji k _).trans (wakeWaitObj_ne hji _ true)
    · exact setTask_ne hji k _

omit [SwitchStrategy (Fin n) σ] in
/-- INTERNAL: a tick of one sync object keeps the wait lists consistent. -/
theorem tickObject_linked (hk : Linked k) (e : ℤ) (o : SyncId) : Linked (Good.tickObject e k o) := by
  have htick : Linked (k.tickSyncObject e o) :=
    Runs.foldl_keeps (fun k j _ hk => tickWaitObj_linked hk e j) hk
  unfold Good.tickObject
  dsimp only
  split
  · next hnil =>
    refine ⟨htick.mem, htick.nodup, htick.syncNodup.erase o, fun o' hne => ?_⟩
    have hne' : o' ≠ o := by
      rintro rfl
      exact hne hnil
    exact (List.mem_erase_of_ne hne').mpr (htick.registered o' hne)
  · exact htick

omit [SwitchStrategy (Fin n) σ] in
/-- INTERNAL: the tick of a sync object leaves a slot alone that is not in its list or waits
without a timeout. -/
theorem tickObject (e : ℤ) (hk : Linked k) {o : SyncId}
    (ho : (k.tasks i).waitObj.syncObj ≠ some o ∨
      ((k.tasks i).waitObj.timeWait = waitInfinite ∧ (k.tasks i).waitObj.timeout = false)) :
    SameSlot i k (Good.tickObject e k o) := by
  have htick : SameSlot i k (k.tickSyncObject e o) := by
    refine Runs.foldl_keeps (I := SameSlot i k) (fun k' j hj h => ?_) (refl i k)
    refine h.trans (tickWaitObj e (fun hji => ?_))
    rw [h.waitObj]
    refine ho.resolve_left (not_not.mpr ?_)
    rw [← hji]
    exact (hk.mem j o).mpr hj
  unfold Good.tickObject
  dsimp only
  split
  · exact htick.trans ⟨rfl, rfl, rfl, rfl, rfl, rfl⟩
  · exact htick

omit [SwitchStrategy (Fin n) σ] in
/-- INTERNAL: a part of the loop in `UpdateSyncObjects`. -/
theorem tickObjects (e : ℤ) (hk : Linked k) {l : List SyncId}
    (hl : ∀ o ∈ l, (k.tasks i).waitObj.syncObj ≠ some o ∨
      ((k.tasks i).waitObj.timeWait = waitInfinite ∧ (k.tasks i).waitObj.timeout = false)) :
    SameSlot i k (l.foldl (Good.tickObject e) k) ∧ Linked (l.foldl (Good.tickObject e) k) := by
  refine Runs.foldl_keeps (I := fun k' => SameSlot i k k' ∧ Linked k') ?_ ⟨refl i k, hk⟩
  intro k' o ho hk'
  refine ⟨hk'.1.trans (tickObject e hk'.2 ?_), tickObject_linked hk'.2 e o⟩
  rw [hk'.1.waitObj]
  exact hl o ho

omit [SwitchStrategy (Fin n) σ] in
/-- INTERNAL: the sync objects' part of the tick leaves a slot alone that is not linked or
in an infinite wait. -/
theorem updateSyncObjects (e : ℤ) (hk : Linked k)
    (hwait : (k.tasks i).waitObj.syncObj = none ∨
      ((k.tasks i).waitObj.timeWait = waitInfinite ∧ (k.tasks i).waitObj.timeout = false)) :
    SameSlot i k (k.updateSyncObjects e) := by
  refine (tickObjects e hk (l := k.syncList) (fun o _ => hwait.imp_left (fun hnone => ?_))).1
  rw [hnone]
  exact (Option.some_ne_none o).symm

omit [SwitchStrategy (Fin n) σ] in
/-- INTERNAL: the end of the wait is the same in both states. -/
theorem wakeWaitObj_congr (h : SameSlot i k k') (timeout : Bool) :
    SameSlot i (k.wakeWaitObj i timeout) (k'.wakeWaitObj i timeout) := by
  have hobj : (k'.tasks i).waitObj.syncObj = (k.tasks i).waitObj.syncObj := by rw [h.waitObj]
  cases ho : (k.tasks i).waitObj.syncObj with
  | none =>
    rw [ho] at hobj
    simp only [Kernel.wakeWaitObj, ho, hobj]
    exact (symm (fault i k _)).trans (h.trans (fault i k' _))
  | some o =>
    rw [ho] at hobj
    rw [wakeWaitObj_eq ho, wakeWaitObj_eq hobj]
    exact ⟨by simpa using h.user, by simpa using h.remove, by simp, by simp, by simp [h.call], h.ticks⟩

omit [SwitchStrategy (Fin n) σ] in
/-- INTERNAL: what `WaitObject::Tick` does to a slot depends on the slot only. -/
theorem tickWaitObj_congr (e : ℤ) (h : SameSlot i k k') :
    SameSlot i (Kernel.tickWaitObj e k i) (Kernel.tickWaitObj e k' i) := by
  have hset : SameSlot i (k.setTask i (fun t => t.tickWaitObj e))
      (k'.setTask i (fun t => t.tickWaitObj e)) := by
    have hframe : ∀ t : KernelTask, (t.tickWaitObj e).user = t.user ∧
        (t.tickWaitObj e).removePending = t.removePending ∧
        (t.tickWaitObj e).timeSleep = t.timeSleep := by
      intro t
      unfold KernelTask.tickWaitObj
      dsimp only
      split_ifs <;> exact ⟨rfl, rfl, rfl⟩
    have hobj : ((k'.tasks i).tickWaitObj e).waitObj = ((k.tasks i).tickWaitObj e).waitObj := by
      unfold KernelTask.tickWaitObj
      rw [h.waitObj]
      dsimp only
      split_ifs <;> first | rfl | exact h.waitObj
    exact ⟨by simpa [Kernel.setTask, hframe] using h.user,
      by simpa [Kernel.setTask, hframe] using h.remove, by simpa [Kernel.setTask, hframe] using h.time,
      by simpa [Kernel.setTask] using hobj, h.call, h.ticks⟩
  unfold Kernel.tickWaitObj
  dsimp only
  rw [hset.waitObj]
  split
  · exact wakeWaitObj_congr hset true
  · exact hset

omit [SwitchStrategy (Fin n) σ] in
/-- INTERNAL: `UpdateSyncObjects` ticks the wait object of a linked slot exactly once: its sync
object is in the kernel's list once, and the slot is once in the list of that object and in
no other list. -/
theorem updateSyncObjects_once (e : ℤ) (hk : Linked k) {o : SyncId}
    (ho : (k.tasks i).waitObj.syncObj = some o) :
    SameSlot i (Kernel.tickWaitObj e k i) (k.updateSyncObjects e) := by
  have hmem : i ∈ k.waitList o := (hk.mem i o).mp ho
  obtain ⟨l₁, l₂, hl⟩ := List.append_of_mem (hk.registered o (List.ne_nil_of_mem hmem))
  have hnd : (l₁ ++ o :: l₂).Nodup := hl ▸ hk.syncNodup
  obtain ⟨-, hnd₂, hdisj⟩ := List.nodup_append.mp hnd
  have ho₁ : ∀ o' ∈ l₁, o' ≠ o := fun o' ho' => hdisj o' ho' o List.mem_cons_self
  have ho₂ : ∀ o' ∈ l₂, o' ≠ o := by
    intro o' ho' heq
    exact (List.nodup_cons.mp hnd₂).1 (heq ▸ ho')
  show SameSlot i (Kernel.tickWaitObj e k i) (k.syncList.foldl (Good.tickObject e) k)
  rw [hl, List.foldl_append, List.foldl_cons]
  obtain ⟨hbefore, hlinked⟩ := tickObjects (i := i) e hk (l := l₁)
    (fun o' ho' => .inl (by rw [ho]; exact fun heq => ho₁ o' ho' (Option.some.inj heq).symm))
  generalize l₁.foldl (Good.tickObject e) k = k₁ at hbefore hlinked
  have hself : SameSlot i (Kernel.tickWaitObj e k i) (Good.tickObject e k₁ o) := by
    have hmem₁ : i ∈ k₁.waitList o := by
      rw [← hlinked.mem, hbefore.waitObj]
      exact ho
    obtain ⟨m₁, m₂, hm⟩ := List.append_of_mem hmem₁
    have hmnd : (m₁ ++ i :: m₂).Nodup := hm ▸ hlinked.nodup o
    obtain ⟨-, hmnd₂, hmdisj⟩ := List.nodup_append.mp hmnd
    have hi₁ : ∀ j ∈ m₁, j ≠ i := fun j hj => hmdisj j hj i List.mem_cons_self
    have hi₂ : ∀ j ∈ m₂, j ≠ i := by
      intro j hj heq
      exact (List.nodup_cons.mp hmnd₂).1 (heq ▸ hj)
    have htick : SameSlot i (Kernel.tickWaitObj e k i) (k₁.tickSyncObject e o) := by
      unfold Kernel.tickSyncObject
      rw [hm, List.foldl_append, List.foldl_cons]
      have hpre : SameSlot i k₁ (m₁.foldl (Kernel.tickWaitObj e) k₁) :=
        foldl (fun k' j hj => tickWaitObj e (fun heq => absurd heq (hi₁ j hj))) k₁
      exact (tickWaitObj_congr e (hbefore.trans hpre)).trans
        (foldl (fun k' j hj => tickWaitObj e (fun heq => absurd heq (hi₂ j hj))) _)
    unfold Good.tickObject
    dsimp only
    split
    · exact htick.trans ⟨rfl, rfl, rfl, rfl, rfl, rfl⟩
    · exact htick
  refine hself.trans (tickObjects e (tickObject_linked hlinked e o) (fun o' ho' => .inl ?_)).1
  have hset : ((k.setTask i (fun t => t.tickWaitObj e)).tasks i).waitObj.syncObj = some o := by
    simpa [Kernel.setTask, tickWaitObj_syncObj] using ho
  -- the slot is now linked to `o` or to nothing
  have hnow : ((Kernel.tickWaitObj e k i).tasks i).waitObj.syncObj = some o ∨
      ((Kernel.tickWaitObj e k i).tasks i).waitObj.syncObj = none := by
    unfold Kernel.tickWaitObj
    dsimp only
    split
    · right
      rw [wakeWaitObj_eq hset]
      simp
    · exact .inl hset
  rw [hself.waitObj]
  intro heq
  rw [heq] at hnow
  rcases hnow with hsame | hnone
  · exact ho₂ o' ho' (Option.some.inj hsame)
  · cases hnone

omit [SwitchStrategy (Fin n) σ] in
/-- INTERNAL: a period that is used up leaves nothing to sleep. -/
theorem hrtOnSwitchedOut_late (sleepEventApi : Bool) {t : KernelTask}
    (hlate : t.hrt.periodicity ≤ t.hrt.duration) :
    t.hrtOnSwitchedOut sleepEventApi = { t with hrt := { t.hrt with duration := 0, done := false } } := by
  unfold KernelTask.hrtOnSwitchedOut
  dsimp only
  rw [if_neg (by omega)]

/-- INTERNAL: `HrtOnSwitchedOut` of another slot, or of one whose period is used up. -/
theorem hrtOnSwitchedOut {j : Fin n}
    (hj : j = i → (k.tasks i).hrt.periodicity ≤ (k.tasks i).hrt.duration) :
    SameSlot i k (k.hrtOnSwitchedOut j) := by
  unfold Kernel.hrtOnSwitchedOut
  by_cases hji : j = i
  · subst hji
    have hlate := hrtOnSwitchedOut_late (SwitchStrategy.sleepEventApi σ) (hj rfl)
    exact ⟨by simp [Kernel.setTask, hlate], by simp [Kernel.setTask, hlate],
      by simp [Kernel.setTask, hlate], by simp [Kernel.setTask, hlate], rfl, rfl⟩
  · exact setTask_ne hji k _

/-- INTERNAL: the FSM writes only the slot whose period it re-arms. -/
theorem updateFsmState (cfg : Config) (hout : ¬Rearms cfg k i) :
    SameSlot i k (k.updateFsmState cfg).1 := by
  have hfetch := fetchNextEvent cfg i k
  have hrest : (k.fetchNextEvent cfg).2.2.tasks = k.tasks := by
    unfold Kernel.fetchNextEvent
    have hcall : (k.callStrategy cfg .getNext).2.tasks = k.tasks := Good.callStrategy_tasks _
    generalize k.callStrategy cfg .getNext = f at hcall
    obtain ⟨_ | next, k₁⟩ := f
    · dsimp only
      split <;> exact hcall
    · dsimp only
      split <;> exact hcall
  unfold Rearms switchedOut at hout
  unfold Kernel.updateFsmState
  dsimp only
  generalize k.fetchNextEvent cfg = f at *
  obtain ⟨event, next, k₁⟩ := f
  dsimp only at *
  cases hs : fsm k.fsmState event with
  | switching =>
    simp only
    cases hnow : k.taskNow with
    | none => exact hfetch.trans ⟨rfl, rfl, rfl, rfl, rfl, rfl⟩
    | some now =>
      cases next with
      | none => exact hfetch.trans ⟨rfl, rfl, rfl, rfl, rfl, rfl⟩
      | some next =>
        simp only [Kernel.stateSwitch]
        split
        · next hne =>
          have hswitch : SameSlot i k₁ { k₁ with taskNow := some next } := ⟨rfl, rfl, rfl, rfl, rfl, rfl⟩
          split
          · next hdone =>
            simp only [Bool.and_eq_true] at hdone
            have hdone' : (k.tasks now).hrt.done = true := by rw [← hrest]; exact hdone.2
            refine hfetch.trans (hswitch.trans (SameSlot.trans (hrtOnSwitchedOut (j := now) ?_)
              ⟨rfl, rfl, rfl, rfl, rfl, rfl⟩))
            intro hi
            subst hi
            rw [hrest]
            by_contra hearly
            exact hout ⟨by simp [hdone.1, hs, hnow, hne, hdone'], not_le.mp hearly⟩
          · exact hfetch.trans ⟨rfl, rfl, rfl, rfl, rfl, rfl⟩
        · exact hfetch.trans ⟨rfl, rfl, rfl, rfl, rfl, rfl⟩
  | sleeping =>
    simp only [Kernel.stateSleep]
    split
    · next now first hnow _ =>
      have hsleep : SameSlot i k₁ { k₁ with taskNow := some first } := ⟨rfl, rfl, rfl, rfl, rfl, rfl⟩
      dsimp only
      split
      · next hlive =>
        simp only [Bool.and_eq_true, Bool.not_eq_true'] at hlive
        have hlive' : (k.tasks now).removePending = false := by rw [← hrest]; exact hlive.2
        refine hfetch.trans (hsleep.trans (SameSlot.trans (hrtOnSwitchedOut (j := now) ?_)
          ⟨rfl, rfl, rfl, rfl, rfl, rfl⟩))
        intro hi
        subst hi
        rw [hrest]
        by_contra hearly
        exact hout ⟨by simp [hlive.1, hs, hnow, hlive'], not_le.mp hearly⟩
      · exact hfetch.trans ⟨rfl, rfl, rfl, rfl, rfl, rfl⟩
    · exact hfetch.trans ⟨rfl, rfl, rfl, rfl, rfl, rfl⟩
    · exact hfetch.trans ⟨rfl, rfl, rfl, rfl, rfl, rfl⟩
  | waking =>
    simp only [Kernel.stateWake]
    split <;> exact hfetch.trans ⟨rfl, rfl, rfl, rfl, rfl, rfl⟩
  | exiting =>
    simp only [Kernel.stateExit]
    split <;> exact hfetch.trans ⟨rfl, rfl, rfl, rfl, rfl, rfl⟩
  | none => exact hfetch

/-- INTERNAL: another task calls `Sleep`. -/
theorem onTaskSleep_ne (cfg : Config) {j : Fin n} (hj : j ≠ i) (k : Kernel n σ) (ticks : ℤ) :
    SameSlot i k (k.onTaskSleep cfg j ticks) := by
  unfold Kernel.onTaskSleep
  have hdone : SameSlot i k (if cfg.isHrtMode then
      k.setTask j (fun t => { t with hrt := { t.hrt with done := true } }) else k) := by
    split
    · exact setTask_ne hj k _
    · exact refl i k
  dsimp only
  split
  · exact hdone.trans (setTask_ne hj _ _)
  · exact hdone

/-- INTERNAL: the wait of another task begins. -/
theorem onTaskWait_ne {j : Fin n} (hj : j ≠ i) (k : Kernel n σ) (o : SyncId) (timeout : ℤ) :
    SameSlot i k (k.onTaskWait j o timeout) := by
  unfold Kernel.onTaskWait
  split
  · exact fault i k _
  · split
    · exact fault i k _
    · exact of_tasks (by simp [Kernel.scheduleSleep, Kernel.setTask, hj.symm])
        (by simp [Kernel.scheduleSleep, Kernel.setTask, hj.symm]) rfl

omit [SwitchStrategy (Fin n) σ] in
/-- INTERNAL: another task is resumed. -/
theorem resumeTask_ne {u : TId} (hu : ∀ j, k.findTaskByUserTask u = some j → j ≠ i) :
    SameSlot i k (k.resumeTask u) := by
  unfold Kernel.resumeTask
  split
  · exact fault i k _
  · next j hj =>
    split
    · exact wakeTask_ne (hu j hj) k
    · exact refl i k

/-! ### The slot's own part of the tick -/

/-- INTERNAL: the sleep counter of slot `i` after `e` more ticks. -/
def advanced (i : Fin n) (e : ℤ) (k : Kernel n σ) : Kernel n σ :=
  k.setTask i (fun t => { t with timeSleep := t.timeSleep + e })

omit [SwitchStrategy (Fin n) σ] in
/-- INTERNAL: a tick of the sleep is the same in both states. -/
theorem advanced_congr (e : ℤ) (h : SameSlot i k k') : SameSlot i (advanced i e k) (advanced i e k') :=
  ⟨by simpa [advanced, Kernel.setTask] using h.user, by simpa [advanced, Kernel.setTask] using h.remove,
    by simpa [advanced, Kernel.setTask] using h.time,
    by simpa [advanced, Kernel.setTask] using h.waitObj, h.call, h.ticks⟩

/-- INTERNAL: the loop body on the slot itself, which may find the task pending for removal. -/
theorem updateSlot_self (cfg : Config) (e : ℤ) (hs : (k.tasks i).timeSleep < 0) (t : ℤ) :
    SameSlot i (advanced i e k) (updateSlot cfg e (k, t) i).1 ∨
      ((k.tasks i).removePending = true ∧ ((updateSlot cfg e (k, t) i).1.tasks i).user = none) := by
  have hsleep : (k.tasks i).isSleeping = true := by simpa [KernelTask.isSleeping] using hs
  unfold Kernel.updateSlot
  dsimp only
  split
  · next hremove =>
    right
    simp only [Kernel.isRemovable, Bool.and_eq_true] at hremove
    exact ⟨hremove.2.1.2, (removeTask_frame cfg k i).2.2.1⟩
  · left
    refine (advanced_congr e (deliverSleep cfg i i k)).trans ?_
    unfold Kernel.advanceSleep
    dsimp only
    split
    · exact callStrategy cfg i _ _
    · exact refl i _

/-- INTERNAL: the turns of other slots. -/
theorem updateSlots_ne (cfg : Config) (e : ℤ) (l : List (Fin n)) :
    ∀ (acc : Kernel n σ × ℤ), i ∉ l → SameSlot i acc.1 (l.foldl (updateSlot cfg e) acc).1 := by
  induction l with
  | nil => exact fun acc _ => refl i acc.1
  | cons j l ih =>
    intro acc hl
    obtain ⟨hj, hl⟩ := not_or.mp (mt List.mem_cons.mpr hl)
    exact (updateSlot_ne cfg e (Ne.symm hj) acc).trans (ih _ hl)

/-- INTERNAL: in the loop of `UpdateTaskState` every slot has one turn. -/
theorem updateTaskState_turn (cfg : Config) (e : ℤ) (k : Kernel n σ) (i : Fin n) :
    ∃ acc : Kernel n σ × ℤ, SameSlot i k acc.1 ∧
      SameSlot i (updateSlot cfg e acc i).1 (k.updateTaskState cfg e).1 := by
  obtain ⟨l₁, l₂, hl⟩ := List.append_of_mem (List.mem_finRange i)
  have hnd : (l₁ ++ i :: l₂).Nodup := hl ▸ List.nodup_finRange n
  obtain ⟨-, hnd₂, hdisj⟩ := List.nodup_append.mp hnd
  have hi₁ : i ∉ l₁ := fun hmem => hdisj i hmem i List.mem_cons_self rfl
  have hi₂ : i ∉ l₂ := (List.nodup_cons.mp hnd₂).1
  unfold Kernel.updateTaskState
  rw [hl, List.foldl_append, List.foldl_cons]
  have hbefore := updateSlots_ne cfg e l₁ (k, if cfg.isTicklessMode then cfg.ticklessTicksMax else 1) hi₁
  exact ⟨_, hbefore, updateSlots_ne cfg e l₂ _ hi₂⟩

/-- INTERNAL: the loop of `UpdateTaskState` advances the counter of a sleeping slot once, or
removes the task. -/
theorem updateTaskState_or_removed (cfg : Config) (e : ℤ) (hs : (k.tasks i).timeSleep < 0) :
    SameSlot i (advanced i e k) (k.updateTaskState cfg e).1 ∨
      ((k.tasks i).removePending = true ∧ ((k.updateTaskState cfg e).1.tasks i).user = none) := by
  obtain ⟨acc, hbefore, hafter⟩ := updateTaskState_turn cfg e k i
  obtain hself | ⟨hremove, hnone⟩ :=
    updateSlot_self cfg e (by rw [hbefore.time]; exact hs) acc.2
  · exact .inl (((advanced_congr e hbefore).trans hself).trans hafter)
  · exact .inr ⟨by rw [← hbefore.remove]; exact hremove, hafter.user.trans hnone⟩

/-- INTERNAL: it leaves a slot alone that does not sleep. -/
theorem updateTaskState_awake (cfg : Config) (e : ℤ) (hs : ¬(k.tasks i).timeSleep < 0) :
    SameSlot i k (k.updateTaskState cfg e).1 := by
  obtain ⟨acc, hbefore, hafter⟩ := updateTaskState_turn cfg e k i
  have hawake : (acc.1.tasks i).isSleeping = false := by
    rw [KernelTask.isSleeping, hbefore.time]
    simpa using hs
  have hturn : SameSlot i acc.1 (updateSlot cfg e acc i).1 := by
    unfold Kernel.updateSlot
    dsimp only
    rw [hawake, Bool.false_and]
    exact advanceDuration cfg e i i acc.1
  exact (hbefore.trans hturn).trans hafter

/-- INTERNAL: the parts of a tick around the loop, for a slot that is as in `k'` after the sync
objects' part and that the FSM does not re-arm. -/
theorem onTick_frame (e : ℤ)
    (hsync : SameSlot i k' (if cfg.isSyncMode then
      ({ k with ticks := k.ticks + e } : Kernel n σ).updateSyncObjects e
      else ({ k with ticks := k.ticks + e } : Kernel n σ)))
    (hbusy : (k'.tasks i).user ≠ none)
    (hout : ¬Rearms cfg (({ k with ticks := k.ticks + e } : Kernel n σ).updateTasks cfg e).1 i) :
    ∃ k₂ : Kernel n σ, SameSlot i k' k₂ ∧ SameSlot i (k₂.updateTaskState cfg e).1 (k.onTick cfg e).1 := by
  have hfsm := updateFsmState cfg hout
  unfold Kernel.onTick
  unfold Kernel.updateTasks at hfsm ⊢
  dsimp only at hfsm ⊢
  generalize (if cfg.isSyncMode then ({ k with ticks := k.ticks + e } : Kernel n σ).updateSyncObjects e
    else ({ k with ticks := k.ticks + e } : Kernel n σ)) = k₁ at hsync hfsm ⊢
  have hrequest : SameSlot i k' (if k₁.request then k₁.updateTaskRequest cfg else k₁) := by
    split
    · exact hsync.trans (updateTaskRequest cfg (by rw [hsync.user]; exact hbusy))
    · exact hsync
  exact ⟨_, hrequest, hfsm⟩

/-- INTERNAL: a whole tick, for a slot that the sync objects' part leaves sleeping as it is in
`k'` and that the FSM does not re-arm. -/
theorem onTick_or_removed (e : ℤ)
    (hsync : SameSlot i k' (if cfg.isSyncMode then
      ({ k with ticks := k.ticks + e } : Kernel n σ).updateSyncObjects e
      else ({ k with ticks := k.ticks + e } : Kernel n σ)))
    (hbusy : (k'.tasks i).user ≠ none) (hs : (k'.tasks i).timeSleep < 0)
    (hout : ¬Rearms cfg (({ k with ticks := k.ticks + e } : Kernel n σ).updateTasks cfg e).1 i) :
    SameSlot i (advanced i e k') (k.onTick cfg e).1 ∨
      ((k'.tasks i).removePending = true ∧ ((k.onTick cfg e).1.tasks i).user = none) := by
  obtain ⟨k₂, hbefore, hafter⟩ := onTick_frame e hsync hbusy hout
  obtain hself | ⟨hremove, hnone⟩ :=
    updateTaskState_or_removed cfg e (k := k₂) (i := i) (by rw [hbefore.time]; exact hs)
  · exact .inl (((advanced_congr e hbefore).trans hself).trans hafter)
  · exact .inr ⟨by rw [← hbefore.remove]; exact hremove, hafter.user.trans hnone⟩

/-- INTERNAL: a whole tick, for a slot that the sync objects' part leaves awake. -/
theorem onTick_awake (e : ℤ)
    (hsync : SameSlot i k' (if cfg.isSyncMode then
      ({ k with ticks := k.ticks + e } : Kernel n σ).updateSyncObjects e
      else ({ k with ticks := k.ticks + e } : Kernel n σ)))
    (hbusy : (k'.tasks i).user ≠ none) (hs : ¬(k'.tasks i).timeSleep < 0)
    (hout : ¬Rearms cfg (({ k with ticks := k.ticks + e } : Kernel n σ).updateTasks cfg e).1 i) :
    SameSlot i k' (k.onTick cfg e).1 := by
  obtain ⟨k₂, hbefore, hafter⟩ := onTick_frame e hsync hbusy hout
  have hloop := updateTaskState_awake cfg e (k := k₂) (i := i) (by rw [hbefore.time]; exact hs)
  exact (hbefore.trans hloop).trans hafter

omit [SwitchStrategy (Fin n) σ] in
/-- INTERNAL: the sync objects' part of a tick, for a slot that is not in a finite wait. -/
theorem sync (cfg : Config) (e : ℤ) (hk : Linked k)
    (hwait : (k.tasks i).waitObj.syncObj = none ∨
      ((k.tasks i).waitObj.timeWait = waitInfinite ∧ (k.tasks i).waitObj.timeout = false)) :
    SameSlot i ({ k with ticks := k.ticks + e } : Kernel n σ) (if cfg.isSyncMode then
      ({ k with ticks := k.ticks + e } : Kernel n σ).updateSyncObjects e
      else ({ k with ticks := k.ticks + e } : Kernel n σ)) := by
  split
  · exact updateSyncObjects e ⟨hk.mem, hk.nodup, hk.syncNodup, hk.registered⟩ hwait
  · exact refl i _

/-- INTERNAL: a whole tick, for a sleeping slot that is not in a finite wait and that the FSM
does not switch out. -/
theorem onTick (hk : Linked k) (hbusy : (k.tasks i).user ≠ none) (hs : (k.tasks i).timeSleep < 0)
    (hlive : (k.tasks i).removePending = false)
    (hwait : (k.tasks i).waitObj.syncObj = none ∨
      ((k.tasks i).waitObj.timeWait = waitInfinite ∧ (k.tasks i).waitObj.timeout = false)) (e : ℤ)
    (hout : switchedOut cfg
      (({ k with ticks := k.ticks + e } : Kernel n σ).updateTasks cfg e).1 ≠ some i) :
    SameSlot i (advanced i e { k with ticks := k.ticks + e }) (k.onTick cfg e).1 := by
  obtain hself | ⟨hremove, -⟩ := onTick_or_removed e (sync cfg e hk hwait) hbusy hs
    (fun hre => hout hre.1)
  · exact hself
  · exact absurd (hlive.symm.trans hremove) Bool.false_ne_true

end SameSlot

end Stk.Analysis
