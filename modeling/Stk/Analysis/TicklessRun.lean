import Stk.Analysis.Tickless

/-!
# One call for several ticks

`run_tickless` is what the tick driver relies on when it suppresses ticks: one call of `OnTick`
for `m` of the returned ticks leaves the kernel as `m` calls for one tick do.

A kernel whose `OnTick` returned more than one tick has no task to run (`Idle`).  A tick short
of the interval only moves the counters (`Idle.passed`), so the wake-ups all fall on the last
tick, and `Idle.onTick_succ` compares a tick of `b + 1` with a tick of `b` after such a one.

A wait that times out is where the two differ: `WaitObject::Wake` leaves one tick to sleep, and
`UpdateTaskState` adds all the ticks to it.  The counter of a task that is awake is read for
its sign only, so the kernels are compared up to these counters (`Alike`).
-/

set_option autoImplicit false

namespace Stk.Analysis

open Stk.Model Stk.Model.Kernel

/-! ## Kernels up to the counters of awake tasks -/

/-- The two tasks agree in all fields but the sleep counter, and in the sleep counter as long
as one of them sleeps. -/
structure AlikeTask (t t' : KernelTask) : Prop where
  fields : { t' with timeSleep := t.timeSleep } = t
  time : t.timeSleep = t'.timeSleep ∨ (0 ≤ t.timeSleep ∧ 0 ≤ t'.timeSleep)

namespace AlikeTask

variable {t t' t'' : KernelTask}

/-- INTERNAL: a slot is like itself. -/
theorem refl (t : KernelTask) : AlikeTask t t := ⟨rfl, .inl rfl⟩

/-- INTERNAL: a chain of slots that are alike. -/
theorem trans (h : AlikeTask t t') (h' : AlikeTask t' t'') : AlikeTask t t'' := by
  constructor
  · rw [← h.fields, ← h'.fields]
  · have htime := h.time
    have htime' := h'.time
    omega

/-- INTERNAL: alike slots sleep alike. -/
theorem isSleeping (h : AlikeTask t t') : t'.isSleeping = t.isSleeping := by
  have htime := h.time
  unfold KernelTask.isSleeping
  rw [Bool.eq_iff_iff, decide_eq_true_eq, decide_eq_true_eq]
  omega

end AlikeTask

/-- The two tasks look the same to the strategy and to the loop of `UpdateTaskState`. -/
structure SeenAlike (t t' : KernelTask) : Prop where
  fields : { t' with timeSleep := t.timeSleep } = t
  isSleeping : t'.isSleeping = t.isSleeping

/-- INTERNAL: alike slots look alike to the strategy. -/
theorem AlikeTask.seen {t t' : KernelTask} (h : AlikeTask t t') : SeenAlike t t' :=
  ⟨h.fields, h.isSleeping⟩

variable {n : ℕ} {σ : Type} {cfg : Config} {k k' k'' : Kernel n σ} {i : Fin n} {e : ℤ}
  {R R' : Fin n → KernelTask → KernelTask → Prop}

/-- The two kernels agree in all that `OnTick` reads and writes, and their tasks are related
by `R`.  The calls made on the strategy are history and not compared. -/
structure SameUpTo (R : Fin n → KernelTask → KernelTask → Prop) (k k' : Kernel n σ) : Prop where
  tasks : ∀ i, R i (k.tasks i) (k'.tasks i)
  strategy : k'.strategy = k.strategy
  taskNow : k'.taskNow = k.taskNow
  fsmState : k'.fsmState = k.fsmState
  request : k'.request = k.request
  ticks : k'.ticks = k.ticks
  syncList : k'.syncList = k.syncList
  waitList : k'.waitList = k.waitList
  call : k'.call = k.call
  faults : k'.faults = k.faults
  exits : k'.exits = k.exits

/-- The two kernels agree up to the sleep counters of tasks that are awake in both. -/
def Alike (k k' : Kernel n σ) : Prop := SameUpTo (fun _ => AlikeTask) k k'

/-- INTERNAL: a state is like itself. -/
theorem Alike.refl (k : Kernel n σ) : Alike k k :=
  ⟨fun i => .refl (k.tasks i), rfl, rfl, rfl, rfl, rfl, rfl, rfl, rfl, rfl, rfl⟩

/-- INTERNAL: a chain of states that are alike. -/
theorem Alike.trans (h : Alike k k') (h' : Alike k' k'') : Alike k k'' where
  tasks i := (h.tasks i).trans (h'.tasks i)
  strategy := h'.strategy.trans h.strategy
  taskNow := h'.taskNow.trans h.taskNow
  fsmState := h'.fsmState.trans h.fsmState
  request := h'.request.trans h.request
  ticks := h'.ticks.trans h.ticks
  syncList := h'.syncList.trans h.syncList
  waitList := h'.waitList.trans h.waitList
  call := h'.call.trans h.call
  faults := h'.faults.trans h.faults
  exits := h'.exits.trans h.exits

namespace SameUpTo

/-- INTERNAL: only the relation between the tasks changes. -/
theorem retask (h : SameUpTo R k k') (hR : ∀ i, R' i (k.tasks i) (k'.tasks i)) : SameUpTo R' k k' where
  tasks := hR
  strategy := h.strategy
  taskNow := h.taskNow
  fsmState := h.fsmState
  request := h.request
  ticks := h.ticks
  syncList := h.syncList
  waitList := h.waitList
  call := h.call
  faults := h.faults
  exits := h.exits

/-- INTERNAL: writing one task on either side. -/
theorem setTask (h : SameUpTo R k k') (i : Fin n) {f f' : KernelTask → KernelTask}
    (hi : R' i (f (k.tasks i)) (f' (k'.tasks i)))
    (hother : ∀ j, j ≠ i → R' j (k.tasks j) (k'.tasks j)) :
    SameUpTo R' (k.setTask i f) (k'.setTask i f') where
  tasks j := by
    by_cases hj : j = i
    · subst hj
      simpa [Kernel.setTask] using hi
    · simpa [Kernel.setTask, hj] using hother j hj
  strategy := h.strategy
  taskNow := h.taskNow
  fsmState := h.fsmState
  request := h.request
  ticks := h.ticks
  syncList := h.syncList
  waitList := h.waitList
  call := h.call
  faults := h.faults
  exits := h.exits

/-- INTERNAL: the same assertion fails in both states. -/
theorem fault (h : SameUpTo R k k') (f : Fault) : SameUpTo R (k.fault f) (k'.fault f) where
  tasks := h.tasks
  strategy := h.strategy
  taskNow := h.taskNow
  fsmState := h.fsmState
  request := h.request
  ticks := h.ticks
  syncList := h.syncList
  waitList := h.waitList
  call := h.call
  faults := by
    unfold Kernel.fault
    rw [h.faults]
  exits := h.exits

/-- INTERNAL: the same task gets the processor in both states. -/
theorem setNow (h : SameUpTo R k k') (now : Option (Fin n)) :
    SameUpTo R { k with taskNow := now } { k' with taskNow := now } :=
  ⟨h.tasks, h.strategy, rfl, h.fsmState, h.request, h.ticks, h.syncList, h.waitList, h.call, h.faults,
    h.exits⟩

/-- INTERNAL: the machine goes to the same state in both. -/
theorem setState (h : SameUpTo R k k') (s : FsmState) :
    SameUpTo R { k with fsmState := s } { k' with fsmState := s } :=
  ⟨h.tasks, h.strategy, h.taskNow, rfl, h.request, h.ticks, h.syncList, h.waitList, h.call, h.faults,
    h.exits⟩

variable [SwitchStrategy (Fin n) σ]

/-- INTERNAL: the strategy sees the same. -/
theorem view_eq (h : SameUpTo R k k') (hR : ∀ i t t', R i t t' → SeenAlike t t') (cfg : Config) :
    k'.view cfg = k.view cfg := by
  have hseen := fun i => hR i _ _ (h.tasks i)
  unfold Kernel.view
  congr 1
  · funext i
    unfold Kernel.getWeight
    rw [← (hseen i).fields]
    rfl
  · funext i
    rw [← (hseen i).fields]
  · funext i
    exact (hseen i).isSleeping
  · funext i
    rw [← (hseen i).fields]
  · funext i
    rw [← (hseen i).fields]

/-- INTERNAL: a call on the strategy has the same answer and the same effect. -/
theorem callStrategy (h : SameUpTo R k k') (hR : ∀ i t t', R i t t' → SeenAlike t t') (cfg : Config)
    (c : StrategyCall (Fin n)) :
    (k'.callStrategy cfg c).1 = (k.callStrategy cfg c).1 ∧
      SameUpTo R (k.callStrategy cfg c).2 (k'.callStrategy cfg c).2 := by
  unfold Kernel.callStrategy
  rw [h.view_eq hR cfg, h.strategy]
  split
  · exact ⟨rfl, h.tasks, rfl, h.taskNow, h.fsmState, h.request, h.ticks, h.syncList, h.waitList,
      h.call, h.faults, h.exits⟩
  · exact ⟨rfl, h.fault _⟩

/-! ## The FSM -/

/-- INTERNAL: the strategy answers the same in both states. -/
theorem fetchNextEvent (h : SameUpTo R k k') (hR : ∀ i t t', R i t t' → SeenAlike t t') (cfg : Config) :
    (k'.fetchNextEvent cfg).1 = (k.fetchNextEvent cfg).1 ∧
      (k'.fetchNextEvent cfg).2.1 = (k.fetchNextEvent cfg).2.1 ∧
      SameUpTo R (k.fetchNextEvent cfg).2.2 (k'.fetchNextEvent cfg).2.2 := by
  obtain ⟨hanswer, hcall⟩ := h.callStrategy hR cfg .getNext
  unfold Kernel.fetchNextEvent
  generalize k.callStrategy cfg .getNext = c at hanswer hcall ⊢
  generalize k'.callStrategy cfg .getNext = c' at hanswer hcall ⊢
  obtain ⟨x, k₁⟩ := c
  obtain ⟨x', k₁'⟩ := c'
  obtain rfl : x' = x := hanswer
  dsimp only at hcall ⊢
  cases x' with
  | some next =>
    dsimp only
    rw [(hR next _ _ (hcall.tasks next)).isSleeping]
    split
    · have hfault := hcall.fault .nextSleeping
      exact ⟨by rw [hfault.fsmState], rfl, hfault⟩
    · exact ⟨by rw [hcall.fsmState], rfl, hcall⟩
  | none =>
    dsimp only
    rw [hcall.strategy]
    split
    · exact ⟨rfl, rfl, hcall⟩
    · exact ⟨rfl, rfl, hcall⟩

/-- INTERNAL: the same switch in both states. -/
theorem stateSwitch (h : SameUpTo R k k') (hhrt : cfg.isHrtMode = false) (now next : Option (Fin n)) :
    SameUpTo R (k.stateSwitch cfg now next).1 (k'.stateSwitch cfg now next).1 := by
  unfold Kernel.stateSwitch
  cases now with
  | none => exact h.fault .nullTask
  | some now =>
    cases next with
    | none => exact h.fault .nullTask
    | some next =>
      dsimp only
      split
      · simp only [hhrt, Bool.false_and, Bool.false_eq_true, if_false]
        exact h.setNow (some next)
      · exact h

/-- INTERNAL: the processor goes to sleep in both states. -/
theorem stateSleep (h : SameUpTo R k k') (hhrt : cfg.isHrtMode = false) (now : Option (Fin n)) :
    SameUpTo R (k.stateSleep cfg now).1 (k'.stateSleep cfg now).1 := by
  unfold Kernel.stateSleep
  rw [h.strategy]
  cases now with
  | none => exact h.fault .nullTask
  | some now =>
    cases SwitchStrategy.getFirst k.strategy with
    | none => exact h.fault .getFirstEmpty
    | some first =>
      simp only [hhrt, Bool.false_and, Bool.false_eq_true, if_false]
      have hset := h.setNow (some first)
      rw [h.strategy] at hset
      exact hset

omit [SwitchStrategy (Fin n) σ] in
/-- INTERNAL: the processor wakes in both states. -/
theorem stateWake (h : SameUpTo R k k') (next : Option (Fin n)) :
    SameUpTo R (k.stateWake next).1 (k'.stateWake next).1 := by
  unfold Kernel.stateWake
  cases next with
  | none => exact h.fault .nullTask
  | some next => exact h.setNow (some next)

omit [SwitchStrategy (Fin n) σ] in
/-- INTERNAL: the scheduler stops in both states. -/
theorem stateExit (h : SameUpTo R k k') (cfg : Config) :
    SameUpTo R (k.stateExit cfg).1 (k'.stateExit cfg).1 := by
  unfold Kernel.stateExit
  split
  · exact h.setNow none
  · exact h

/-- INTERNAL: outside `KERNEL_HRT` the FSM treats the two kernels the same way. -/
theorem updateFsmState (h : SameUpTo R k k') (hR : ∀ i t t', R i t t' → SeenAlike t t')
    (hhrt : cfg.isHrtMode = false) :
    SameUpTo R (k.updateFsmState cfg).1 (k'.updateFsmState cfg).1 := by
  obtain ⟨hevent, hnext, hfetch⟩ := h.fetchNextEvent hR cfg
  unfold Kernel.updateFsmState
  dsimp only
  rw [h.taskNow, h.fsmState]
  generalize k.fetchNextEvent cfg = f at hevent hnext hfetch ⊢
  generalize k'.fetchNextEvent cfg = f' at hevent hnext hfetch ⊢
  obtain ⟨event, next, k₁⟩ := f
  obtain ⟨event', next', k₁'⟩ := f'
  obtain rfl : event' = event := hevent
  obtain rfl : next' = next := hnext
  dsimp only at hfetch ⊢
  generalize k.taskNow = now
  cases fsm k.fsmState event' with
  | switching => exact (hfetch.stateSwitch hhrt now next').setState .switching
  | sleeping => exact (hfetch.stateSleep hhrt now).setState .sleeping
  | waking => exact (hfetch.stateWake next').setState .waking
  | exiting => exact (hfetch.stateExit cfg).setState .exiting
  | none => exact hfetch

end SameUpTo

/-! ## The loop of `UpdateTaskState` -/

section Loop

variable [SwitchStrategy (Fin n) σ]

/-- INTERNAL: the turn of a slot that is not about to be removed and has no event pending. -/
theorem updateSlot_live (hhrt : cfg.isHrtMode = false) {acc : Kernel n σ × ℤ}
    (hlive : (acc.1.tasks i).removePending = false) (hset : (acc.1.tasks i).sleepPending = false) :
    (updateSlot cfg e acc i).1 =
      if (acc.1.tasks i).isSleeping then acc.1.advanceSleep cfg e i else acc.1 := by
  have hkeep : acc.1.isRemovable cfg i = false := by simp [Kernel.isRemovable, hlive]
  have hdeliver : acc.1.deliverSleep cfg i = acc.1 := by simp [Kernel.deliverSleep, hset]
  have hduration : acc.1.advanceDuration cfg e i = acc.1 := by simp [Kernel.advanceDuration, hhrt]
  unfold Kernel.updateSlot
  simp only [hkeep, hdeliver, hduration, Bool.and_false, Bool.false_eq_true, if_false]

/-- `a` ticks charged to the one task come to the same as `b` ticks charged to the other. -/
structure Owes (a b : ℤ) (t t' : KernelTask) : Prop where
  fields : { t' with timeSleep := t.timeSleep } = t
  live : t.removePending = false
  settled : t.sleepPending = false
  time : (t.timeSleep < 0 ∧ t'.timeSleep < 0 ∧
      (t.timeSleep + a = t'.timeSleep + b ∨ (0 ≤ t.timeSleep + a ∧ 0 ≤ t'.timeSleep + b))) ∨
    (0 ≤ t.timeSleep ∧ t'.timeSleep = t.timeSleep)

namespace Owes

variable {a b : ℤ} {t t' : KernelTask}

/-- INTERNAL: what a slot owes is not seen by the strategy. -/
theorem seen (h : Owes a b t t') : SeenAlike t t' := by
  constructor
  · exact h.fields
  · have htime := h.time
    unfold KernelTask.isSleeping
    rw [Bool.eq_iff_iff, decide_eq_true_eq, decide_eq_true_eq]
    omega

/-- INTERNAL: a slot that owes ticks is not about to be removed. -/
theorem live' (h : Owes a b t t') : t'.removePending = false := by
  have hlive := h.live
  rw [← h.fields] at hlive
  exact hlive

/-- INTERNAL: a slot that owes ticks has its sleep reported. -/
theorem settled' (h : Owes a b t t') : t'.sleepPending = false := by
  have hset := h.settled
  rw [← h.fields] at hset
  exact hset

/-- INTERNAL: the tick is charged. -/
theorem paid (h : Owes a b t t') (hs : t.timeSleep < 0) :
    AlikeTask { t with timeSleep := t.timeSleep + a } { t' with timeSleep := t'.timeSleep + b } := by
  have htime := h.time
  constructor
  · rw [← h.fields]
  · dsimp only
    omega

/-- INTERNAL: a task that is awake owes nothing. -/
theorem awake (h : Owes a b t t') (hs : ¬t.timeSleep < 0) : AlikeTask t t' := by
  have htime := h.time
  exact ⟨h.fields, by omega⟩

end Owes

/-- The slots in `l` have still to be charged with the tick, the others have been. -/
def Charging (a b : ℤ) (l : List (Fin n)) (i : Fin n) (t t' : KernelTask) : Prop :=
  if i ∈ l then Owes a b t t' else AlikeTask t t'

/-- INTERNAL: what is charged so far is not seen by the strategy. -/
theorem Charging.seen {a b : ℤ} {l : List (Fin n)} {t t' : KernelTask} (h : Charging a b l i t t') :
    SeenAlike t t' := by
  unfold Charging at h
  split at h
  · exact h.seen
  · exact h.seen

/-- INTERNAL: the two loops side by side. -/
theorem updateSlots_charging {a b : ℤ} (hhrt : cfg.isHrtMode = false) (l : List (Fin n)) :
    ∀ {acc acc' : Kernel n σ × ℤ}, l.Nodup → SameUpTo (Charging a b l) acc.1 acc'.1 →
      Alike (l.foldl (updateSlot cfg a) acc).1 (l.foldl (updateSlot cfg b) acc').1 := by
  induction l with
  | nil =>
    intro acc acc' _ h
    exact h.retask (fun i => by simpa [Charging] using h.tasks i)
  | cons i l ih =>
    intro acc acc' hnd h
    obtain ⟨hnotin, hnd'⟩ := List.nodup_cons.mp hnd
    have hi : Owes a b (acc.1.tasks i) (acc'.1.tasks i) := by simpa [Charging] using h.tasks i
    have hother : ∀ j, j ≠ i → Charging a b l j (acc.1.tasks j) (acc'.1.tasks j) := by
      intro j hj
      simpa [Charging, hj] using h.tasks j
    rw [List.foldl_cons, List.foldl_cons]
    apply ih hnd'
    rw [updateSlot_live hhrt hi.live hi.settled, updateSlot_live hhrt hi.live' hi.settled',
      hi.seen.isSleeping]
    split
    · next hs =>
      have hpaid := hi.paid (by simpa [KernelTask.isSleeping] using hs)
      have hset : SameUpTo (Charging a b l)
          (acc.1.setTask i (fun t => { t with timeSleep := t.timeSleep + a }))
          (acc'.1.setTask i (fun t => { t with timeSleep := t.timeSleep + b })) :=
        h.setTask i (by simpa [Charging, hnotin] using hpaid) hother
      unfold Kernel.advanceSleep
      dsimp only
      rw [(hset.tasks i).seen.isSleeping]
      split
      · exact (hset.callStrategy (fun _ _ _ h => h.seen) cfg (.onTaskWake i)).2
      · exact hset
    · next hs =>
      apply h.retask
      intro j
      by_cases hj : j = i
      · subst hj
        have hawake := hi.awake (by simpa [KernelTask.isSleeping] using hs)
        simpa [Charging, hnotin] using hawake
      · exact hother j hj

end Loop

/-! ## A slot whose next timeout is `m` ticks away -/

/-- The slot is free, or its task has at least `m` ticks to sleep or to wait. -/
inductive Away (m : ℤ) (t : KernelTask) : Prop where
  | free (hobj : t.waitObj.syncObj = none) (htime : 0 ≤ t.timeSleep)
  | sleeps (hobj : t.waitObj.syncObj = none) (htime : t.timeSleep < 0) (hle : t.timeSleep + m ≤ 0)
  | waits (hobj : t.waitObj.syncObj ≠ none) (hfin : t.waitObj.timeWait < waitInfinite)
      (hle : m ≤ t.waitObj.timeWait) (htime : t.timeSleep + t.waitObj.timeWait < 0)
  | waitsForever (hobj : t.waitObj.syncObj ≠ none) (hinf : t.waitObj.timeWait = waitInfinite)
      (htime : t.timeSleep + m < 0)

section Elapse

variable {m : ℤ} {t : KernelTask}

namespace Away

/-- INTERNAL: a wait that is further away does not run out. -/
theorem not_expires (h : Away m t) (he : e < m) : expires e t = false := by
  cases h with
  | free hobj htime => simp [expires, KernelTask.isWaiting, hobj]
  | sleeps hobj htime hle => simp [expires, KernelTask.isWaiting, hobj]
  | waits hobj hfin hle htime =>
    simp only [expires, Bool.and_eq_false_iff, decide_eq_false_iff_not]
    omega
  | waitsForever hobj hinf htime => simp [expires, hinf]

/-- INTERNAL: a tick short of the timeout wakes neither a wait nor a sleep. -/
theorem stays (h : Away m t) (he : e < m) :
    (waited e t).timeSleep = t.timeSleep ∧ (t.timeSleep < 0 → t.timeSleep + e < 0) := by
  cases h with
  | free hobj htime =>
    rw [waited_of_not_waiting hobj]
    omega
  | sleeps hobj htime hle =>
    rw [waited_of_not_waiting hobj]
    omega
  | waits hobj hfin hle htime =>
    rw [waited_timed hobj hfin (by omega)]
    dsimp only
    omega
  | waitsForever hobj hinf htime =>
    rw [waited_untimed hinf]
    omega

/-- INTERNAL: after a tick the next timeout is one tick closer, and the rest of the interval
does to the slot what the whole interval would have done. -/
theorem elapse (h : Away m t) {b : ℤ} (hb : 0 < b) (hle : b + 1 ≤ m)
    (hlive : t.removePending = false) (hset : t.sleepPending = false) :
    Away (m - 1) (slept 1 (waited 1 t)) ∧ expires b (slept 1 (waited 1 t)) = expires (b + 1) t ∧
      Owes (b + 1) b (waited (b + 1) t) (waited b (slept 1 (waited 1 t))) := by
  cases h with
  | free hobj htime =>
    rw [waited_of_not_waiting hobj, slept_awake htime, waited_of_not_waiting hobj,
      waited_of_not_waiting hobj]
    have hnever : ∀ e, expires e t = false := by simp [expires, KernelTask.isWaiting, hobj]
    refine ⟨.free hobj htime, by rw [hnever, hnever], rfl, hlive, hset, ?_⟩
    omega
  | sleeps hobj htime hle =>
    rw [waited_of_not_waiting hobj, slept_asleep htime, waited_of_not_waiting hobj,
      waited_of_not_waiting (by exact hobj)]
    refine ⟨.sleeps hobj ?_ ?_, ?_, rfl, hlive, hset, ?_⟩
    · dsimp only
      omega
    · dsimp only
      omega
    · simp [expires, KernelTask.isWaiting, hobj]
    · dsimp only
      omega
  | waits hobj hfin hwait htime =>
    have hw : t.isWaiting = true := isWaiting_iff.mpr hobj
    have hs : t.timeSleep < 0 := by omega
    rw [waited_timed hobj hfin (by omega), slept_asleep (by exact hs)]
    refine ⟨.waits hobj ?_ ?_ ?_, ?_, ?_⟩
    · dsimp only
      omega
    · dsimp only
      omega
    · dsimp only
      omega
    · unfold expires KernelTask.isWaiting
      dsimp only
      congr 1
      · congr 1
        rw [Bool.eq_iff_iff, decide_eq_true_eq, decide_eq_true_eq]
        omega
      · rw [Bool.eq_iff_iff, decide_eq_true_eq, decide_eq_true_eq]
        omega
    · by_cases hend : t.waitObj.timeWait ≤ b + 1
      · rw [waited_expired hobj hfin hend, waited_expired (by exact hobj) (by dsimp only; omega)
          (by dsimp only; omega)]
        refine ⟨rfl, hlive, hset, ?_⟩
        dsimp only
        omega
      · rw [waited_timed hobj hfin (by omega), waited_timed (by exact hobj) (by dsimp only; omega)
          (by dsimp only; omega)]
        refine ⟨?_, hlive, hset, ?_⟩
        · dsimp only
          rw [show t.waitObj.timeWait - 1 - b = t.waitObj.timeWait - (b + 1) by omega]
        · dsimp only
          omega
  | waitsForever hobj hinf htime =>
    have hs : t.timeSleep < 0 := by omega
    rw [waited_untimed hinf, slept_asleep hs, waited_untimed hinf, waited_untimed (by exact hinf)]
    refine ⟨.waitsForever hobj hinf ?_, ?_, rfl, hlive, hset, ?_⟩
    · dsimp only
      omega
    · simp [expires, hinf]
    · dsimp only
      omega

end Away

end Elapse

/-! ## The kernel between two timeouts -/

section Idle

variable [SwitchStrategy (Fin n) σ] [StrategyLists (Fin n) σ] [SleepAware (Fin n) σ]

/-- A kernel that has no task to run and no timeout within `m` ticks. -/
structure Idle (cfg : Config) (m : ℤ) (k : Kernel n σ) : Prop where
  good : Good cfg (fun _ => 0) (fun _ => 0) k
  running : Running k
  started : k.taskNow ≠ none
  sleeping : k.fsmState = .sleeping
  settled : Settled k
  live : ∀ i, (k.tasks i).removePending = false
  busy : ∀ i, (k.tasks i).isBusy = true → (k.tasks i).isSleeping = true
  away : ∀ i, Away m (k.tasks i)
  requests : k.request = true → cfg.isDynamicMode = false

/-- INTERNAL: the wait objects of a kernel between two calls. -/
theorem Good.timely (h : Good cfg (fun _ => 0) (fun _ => 0) k) (l : List SyncId) (e : ℤ) :
    Timely l e k := by
  intro i hi
  obtain ⟨o, -, ho⟩ := linkedTo_iff.mp hi
  have hw := (h.slot i).waiting o ho
  have hs := (h.slot i).sleeping ho
  exact ⟨hw.fresh, fun _ => by simpa [KernelTask.isSleeping] using hs⟩

/-- The kernel after the first part of `UpdateTasks`. -/
def synced (cfg : Config) (e : ℤ) (k : Kernel n σ) : Kernel n σ :=
  { k with
    ticks := k.ticks + e
    tasks := fun j => waited e (k.tasks j)
    waitList := fun o => (k.waitList o).filter (fun j => !expires e (k.tasks j))
    call := fun j => answered e (k.tasks j) (k.call j)
    syncList := keptObjects cfg e k }

/-- INTERNAL: the first part of `UpdateTasks`. -/
theorem sync_eq (h : Good cfg (fun _ => 0) (fun _ => 0) k) (e : ℤ) :
    (if cfg.isSyncMode then ({ k with ticks := k.ticks + e } : Kernel n σ).updateSyncObjects e
      else { k with ticks := k.ticks + e }) = synced cfg e k := by
  have hlinked : Linked ({ k with ticks := k.ticks + e } : Kernel n σ) :=
    ⟨h.linked.mem, h.linked.nodup, h.linked.syncNodup, h.linked.registered⟩
  have htimely : Timely k.syncList e ({ k with ticks := k.ticks + e } : Kernel n σ) := h.timely _ e
  unfold synced keptObjects
  split
  · rw [updateSyncObjects_eq hlinked htimely]
  · next hsync =>
    -- without `KERNEL_SYNC` no slot waits
    have hnone := h.idle (.inr (by simpa using hsync))
    have hnever : ∀ j, expires e (k.tasks j) = false := by
      intro j
      simp [expires, KernelTask.isWaiting, hnone j]
    congr 1
    · funext j
      exact (waited_of_not_waiting (hnone j)).symm
    · funext o
      simp [hnever]
    · funext j
      simp [answered, hnever]

omit [StrategyLists (Fin n) σ] [SleepAware (Fin n) σ] in
/-- INTERNAL: a loop in which no task wakes up. -/
theorem updateSlots_quiet (hhrt : cfg.isHrtMode = false) (l : List (Fin n)) :
    ∀ {acc : Kernel n σ × ℤ}, l.Nodup →
      (∀ i ∈ l, (acc.1.tasks i).removePending = false ∧ (acc.1.tasks i).sleepPending = false ∧
        ((acc.1.tasks i).timeSleep < 0 → (acc.1.tasks i).timeSleep + e < 0)) →
      (l.foldl (updateSlot cfg e) acc).1 =
        { acc.1 with tasks := fun j => if j ∈ l then slept e (acc.1.tasks j) else acc.1.tasks j } := by
  induction l with
  | nil =>
    intro acc _ _
    simp
  | cons i l ih =>
    intro acc hnd h
    obtain ⟨hnotin, hnd'⟩ := List.nodup_cons.mp hnd
    obtain ⟨hlive, hset, htime⟩ := h i List.mem_cons_self
    have hturn : (updateSlot cfg e acc i).1 =
        { acc.1 with tasks := Function.update acc.1.tasks i (slept e (acc.1.tasks i)) } := by
      rw [updateSlot_live hhrt hlive hset]
      by_cases hs : (acc.1.tasks i).timeSleep < 0
      · rw [if_pos (by simpa [KernelTask.isSleeping] using hs), slept_asleep hs]
        unfold Kernel.advanceSleep
        dsimp only
        rw [if_neg]
        · rfl
        · simp [Kernel.setTask, KernelTask.isSleeping, htime hs]
      · rw [if_neg (by simpa [KernelTask.isSleeping] using hs), slept_awake (by omega)]
        simp
    have hrest : ∀ j ∈ l, ((updateSlot cfg e acc i).1.tasks j).removePending = false ∧
        ((updateSlot cfg e acc i).1.tasks j).sleepPending = false ∧
        (((updateSlot cfg e acc i).1.tasks j).timeSleep < 0 →
          ((updateSlot cfg e acc i).1.tasks j).timeSleep + e < 0) := by
      intro j hj
      have hne : j ≠ i := fun heq => hnotin (heq ▸ hj)
      rw [hturn]
      dsimp only
      rw [Function.update_of_ne hne]
      exact h j (List.mem_cons_of_mem i hj)
    rw [List.foldl_cons, ih hnd' hrest, hturn]
    dsimp only
    congr 1
    funext j
    by_cases hj : j = i
    · subst hj
      simp [hnotin]
    · simp [hj]

omit [StrategyLists (Fin n) σ] [SleepAware (Fin n) σ] in
/-- INTERNAL: `UpdateTaskRequest` has nothing to do. -/
theorem no_request (hk : k.request = true → cfg.isDynamicMode = false) :
    (if k.request then k.updateTaskRequest cfg else k) = k := by
  split
  · next hreq =>
    unfold Kernel.updateTaskRequest
    simp [hk hreq]
  · rfl

/-- INTERNAL: `UpdateTasks` of an idle kernel. -/
theorem Idle.updateTasks_eq {m : ℤ} (h : Idle cfg m k) (e : ℤ) :
    ({ k with ticks := k.ticks + e } : Kernel n σ).updateTasks cfg e =
      (synced cfg e k).updateTaskState cfg e := by
  have hreq : (synced cfg e k).request = true → cfg.isDynamicMode = false := h.requests
  unfold Kernel.updateTasks
  dsimp only
  rw [sync_eq h.good e, no_request hreq]

/-- INTERNAL: a kernel whose tasks all sleep has no runnable one. -/
theorem runnable_nil {r q : Fin n → ℤ} (h : Good cfg r q k) (hset : Settled k)
    (hbusy : ∀ i, (k.tasks i).user ≠ none → (k.tasks i).timeSleep < 0) : runnable k.strategy = [] := by
  rw [List.eq_nil_iff_forall_not_mem]
  intro i hi
  have hbound : (k.tasks i).user ≠ none := (h.listed.mem i).mp (.inl hi)
  exact h.awake_of_runnable hset hi (hbusy i hbound)

/-- INTERNAL: an idle system has no runnable task. -/
theorem Idle.runnable_nil {m : ℤ} (h : Idle cfg m k) : runnable k.strategy = [] := by
  apply Stk.Analysis.runnable_nil h.good h.settled
  intro i hi
  have hs := h.busy i (KernelTask.isBusy_iff.mpr hi)
  simpa [KernelTask.isSleeping] using hs

/-- INTERNAL: an idle system has tasks. -/
theorem Idle.getSize_ne_zero {m : ℤ} (h : Idle cfg m k) : SwitchStrategy.getSize k.strategy ≠ 0 := by
  obtain ⟨i, hi⟩ := Option.ne_none_iff_exists'.mp h.started
  have hmem := (h.good.listed.mem i).mpr (h.running.now i hi)
  rw [SleepAware.getSize_eq]
  rcases hmem with hmem | hmem
  · have := List.length_pos_of_mem hmem
    omega
  · have := List.length_pos_of_mem hmem
    omega

/-- A tick that only moves the counters. -/
structure Passed (cfg : Config) (k k' : Kernel n σ) : Prop where
  tasks : k'.tasks = fun j => slept 1 (waited 1 (k.tasks j))
  strategy : k'.strategy = k.strategy
  taskNow : k'.taskNow = k.taskNow
  fsmState : k'.fsmState = k.fsmState
  request : k'.request = k.request
  ticks : k'.ticks = k.ticks + 1
  syncList : k'.syncList = keptObjects cfg 1 k
  waitList : k'.waitList = k.waitList
  call : k'.call = k.call
  faults : k'.faults = k.faults
  exits : k'.exits = k.exits

omit [StrategyLists (Fin n) σ] [SleepAware (Fin n) σ] in
/-- INTERNAL: with nothing to run the FSM of a sleeping kernel does nothing. -/
theorem updateFsmState_idle (hsleeping : k.fsmState = .sleeping)
    (hnext : SwitchStrategy.getNext (k.view cfg) k.strategy = .ok (none, k.strategy))
    (hsize : SwitchStrategy.getSize k.strategy ≠ 0) :
    (k.updateFsmState cfg).1 = { k with calls := k.calls ++ [(k.view cfg, .getNext)] } := by
  have hcall : k.callStrategy cfg .getNext =
      (none, { k with calls := k.calls ++ [(k.view cfg, .getNext)] }) := by
    unfold Kernel.callStrategy StrategyCall.apply
    rw [hnext]
  have hfetch : k.fetchNextEvent cfg =
      (.sleep, none, { k with calls := k.calls ++ [(k.view cfg, .getNext)] }) := by
    unfold Kernel.fetchNextEvent
    rw [hcall]
    simp [hsize]
  unfold Kernel.updateFsmState
  rw [hfetch, hsleeping]
  simp [fsm]

variable [IdleAware (Fin n) σ]

/-- INTERNAL: a tick short of the interval wakes no task, and the FSM stays where it is. -/
theorem Idle.passed {m : ℤ} (h : Idle cfg m k) (hhrt : cfg.isHrtMode = false) (hm : 1 < m) :
    Passed cfg k (k.onTick cfg 1).1 := by
  have hslot : ∀ i, ((synced cfg 1 k).tasks i).removePending = false ∧
      ((synced cfg 1 k).tasks i).sleepPending = false ∧
      (((synced cfg 1 k).tasks i).timeSleep < 0 → ((synced cfg 1 k).tasks i).timeSleep + 1 < 0) := by
    intro i
    obtain ⟨-, hlive, hset, -⟩ := waited_fields 1 (k.tasks i)
    refine ⟨hlive.trans (h.live i), hset.trans (h.settled i), ?_⟩
    obtain ⟨htime, hstays⟩ := (h.away i).stays hm
    show (waited 1 (k.tasks i)).timeSleep < 0 → (waited 1 (k.tasks i)).timeSleep + 1 < 0
    rw [htime]
    exact hstays
  have htasks : (({ k with ticks := k.ticks + 1 } : Kernel n σ).updateTasks cfg 1).1 =
      { synced cfg 1 k with tasks := fun j => slept 1 (waited 1 (k.tasks j)) } := by
    rw [h.updateTasks_eq 1]
    unfold Kernel.updateTaskState
    rw [updateSlots_quiet hhrt (List.finRange n) (List.nodup_finRange n) (fun i _ => hslot i)]
    simp [synced]
  have hlists : (synced cfg 1 k).waitList = k.waitList := by
    funext o
    have hnot : ∀ j, expires 1 (k.tasks j) = false := fun j => (h.away j).not_expires hm
    simp [synced, hnot]
  have hcalls : (synced cfg 1 k).call = k.call := by
    funext j
    have hnot : expires 1 (k.tasks j) = false := (h.away j).not_expires hm
    simp [synced, answered, hnot]
  have hweight : (({ synced cfg 1 k with tasks := fun j => slept 1 (waited 1 (k.tasks j)) } :
      Kernel n σ).view cfg).weight = weights σ cfg k.tasks := by
    funext j
    obtain ⟨huser, -, -, hrt, -⟩ := waited_fields 1 (k.tasks j)
    obtain ⟨huser', -, -, hrt'⟩ := slept_fields 1 (waited 1 (k.tasks j))
    simp only [Kernel.view, Kernel.getWeight, weights, KernelTask.getWeight, huser', huser, hrt', hrt]
  unfold Kernel.onTick
  dsimp only
  rw [htasks, updateFsmState_idle]
  · exact ⟨rfl, rfl, rfl, rfl, rfl, rfl, rfl, hlists, hcalls, rfl, rfl⟩
  · exact h.sleeping
  · apply IdleAware.getNext_idle
    · rw [hweight]
      exact h.good.listed.wf
    · exact h.runnable_nil
  · exact h.getSize_ne_zero

/-- INTERNAL: a tick brings an idle system nearer to its next event. -/
theorem Idle.elapse {m : ℤ} (h : Idle cfg m k) (hcfg : WeightsOk σ cfg) (hhrt : cfg.isHrtMode = false)
    (hm : 1 < m) : Idle cfg (m - 1) (k.onTick cfg 1).1 := by
  have hp := h.passed hhrt hm
  obtain ⟨hgood, hrun⟩ := onTick_good hcfg h.good h.running h.started (e := 1) (by omega)
    (by
      intro i hobj hinf
      cases h.away i with
      | free hnone _ => exact absurd hnone hobj
      | sleeps hnone _ _ => exact absurd hnone hobj
      | waits _ hfin _ _ => omega
      | waitsForever _ _ htime => omega)
    (by
      intro i hi
      simp [switchedOut, hhrt] at hi)
  have hslot : ∀ i, Away (m - 1) (slept 1 (waited 1 (k.tasks i))) := fun i =>
    ((h.away i).elapse (b := 1) (by omega) (by omega) (h.live i) (h.settled i)).1
  constructor
  · exact hgood
  · exact hrun
  · rw [hp.taskNow]
    exact h.started
  · rw [hp.fsmState]
    exact h.sleeping
  · intro i
    rw [hp.tasks]
    dsimp only
    rw [(slept_fields 1 _).2.2.1, (waited_fields 1 _).2.2.1]
    exact h.settled i
  · intro i
    rw [hp.tasks]
    dsimp only
    rw [(slept_fields 1 _).2.1, (waited_fields 1 _).2.1]
    exact h.live i
  · intro i hbusy
    rw [hp.tasks] at hbusy ⊢
    have huser : (k.tasks i).isBusy = true := by
      rw [KernelTask.isBusy, ← (waited_fields 1 (k.tasks i)).1, ← (slept_fields 1 _).1]
      exact hbusy
    have hs : (k.tasks i).timeSleep < 0 := by simpa [KernelTask.isSleeping] using h.busy i huser
    obtain ⟨htime, hstays⟩ := (h.away i).stays hm
    dsimp only
    rw [slept_asleep (by rw [htime]; exact hs)]
    simpa [KernelTask.isSleeping, htime] using hstays hs
  · intro i
    rw [hp.tasks]
    exact hslot i
  · rw [hp.request]
    exact h.requests

/-- INTERNAL: one tick of `b + 1` against one tick and another of `b`. -/
theorem Idle.onTick_succ {m : ℤ} (h : Idle cfg m k) (hcfg : WeightsOk σ cfg)
    (hhrt : cfg.isHrtMode = false) {b : ℤ} (hb : 0 < b) (hle : b + 1 ≤ m) :
    Alike (k.onTick cfg (b + 1)).1 ((k.onTick cfg 1).1.onTick cfg b).1 := by
  have hp := h.passed hhrt (by omega)
  have h' := h.elapse hcfg hhrt (by omega)
  have hslot := fun i => (h.away i).elapse hb hle (h.live i) (h.settled i)
  have hexpires : ∀ j, expires b ((k.onTick cfg 1).1.tasks j) = expires (b + 1) (k.tasks j) := by
    intro j
    rw [hp.tasks]
    exact (hslot j).2.1
  -- an object that loses its last wait at the end has waits after the first tick
  have hobjects : keptObjects cfg b (k.onTick cfg 1).1 = keptObjects cfg (b + 1) k := by
    have hnot : ∀ j, expires 1 (k.tasks j) = false := fun j => (h.away j).not_expires (by omega)
    unfold keptObjects
    rw [hp.syncList, hp.waitList]
    simp only [hexpires]
    split
    · next hsync =>
      unfold keptObjects
      rw [if_pos hsync, List.filter_filter]
      apply List.filter_congr
      intro o _
      cases k.waitList o with
      | nil => simp
      | cons j l => simp [hnot]
    · next hsync =>
      unfold keptObjects
      rw [if_neg hsync]
  have hsynced : SameUpTo (Charging (b + 1) b (List.finRange n)) (synced cfg (b + 1) k)
      (synced cfg b (k.onTick cfg 1).1) := by
    constructor
    · intro i
      unfold Charging synced
      rw [if_pos (List.mem_finRange i), hp.tasks]
      exact (hslot i).2.2
    · exact hp.strategy
    · exact hp.taskNow
    · exact hp.fsmState
    · exact hp.request
    · show (k.onTick cfg 1).1.ticks + b = k.ticks + (b + 1)
      rw [hp.ticks]
      omega
    · exact hobjects
    · funext o
      show ((k.onTick cfg 1).1.waitList o).filter _ = (k.waitList o).filter _
      rw [hp.waitList]
      simp only [hexpires]
    · funext j
      show answered b ((k.onTick cfg 1).1.tasks j) _ = answered (b + 1) (k.tasks j) (k.call j)
      unfold answered
      rw [hexpires j, hp.call]
    · exact hp.faults
    · exact hp.exits
  have htasks : Alike (({ k with ticks := k.ticks + (b + 1) } : Kernel n σ).updateTasks cfg (b + 1)).1
      (({ (k.onTick cfg 1).1 with ticks := (k.onTick cfg 1).1.ticks + b } : Kernel n σ).updateTasks cfg b).1 := by
    rw [h.updateTasks_eq (b + 1), h'.updateTasks_eq b]
    exact updateSlots_charging hhrt (List.finRange n) (List.nodup_finRange n) hsynced
  exact htasks.updateFsmState (fun _ _ _ h => h.seen) hhrt

omit [StrategyLists (Fin n) σ] [SleepAware (Fin n) σ] [IdleAware (Fin n) σ] in
/-- INTERNAL: a tick of a started kernel that the kernel takes. -/
theorem step_onTick (htickless : cfg.isTicklessMode = true) (hstarted : k.taskNow ≠ none) (hpos : 0 < e)
    (hle : e ≤ waitInfinite) : k.step cfg (.onTick e) = (k.onTick cfg e).1 := by
  have hon : k.isStarted = true := by
    simpa [Kernel.isStarted, Option.isSome_iff_ne_none] using hstarted
  simp [Kernel.step, hon, validElapsed, hpos, hle, htickless]

/-- INTERNAL: one tick of `c` against `c` ticks of one. -/
theorem Idle.ones (hcfg : WeightsOk σ cfg) (htickless : cfg.isTicklessMode = true)
    (hhrt : cfg.isHrtMode = false) (c : ℕ) :
    ∀ {m : ℤ} {k : Kernel n σ}, Idle cfg m k → (c : ℤ) + 1 ≤ m → m ≤ waitInfinite →
      Alike (k.step cfg (.onTick (c + 1)))
        ((List.replicate (c + 1) (.onTick 1)).foldl (Kernel.step cfg) k) := by
  induction c with
  | zero =>
    intro m k h _ _
    exact .refl _
  | succ c ih =>
    intro m k h hle hmax
    have hone : k.step cfg (.onTick 1) = (k.onTick cfg 1).1 :=
      step_onTick htickless h.started (by omega) (by simp [waitInfinite])
    have h' := h.elapse hcfg hhrt (by omega)
    have hsucc := h.onTick_succ hcfg hhrt (b := c + 1) (by omega) (by push_cast at hle; omega)
    have hrest := ih h' (by push_cast at hle; omega) (by omega)
    rw [step_onTick htickless h'.started (by omega) (by push_cast at hle; omega)] at hrest
    rw [step_onTick htickless h.started (by omega) (by push_cast at hle ⊢; omega)]
    rw [List.replicate_succ, List.foldl_cons, hone]
    exact hsucc.trans hrest

end Idle

/-! ## After a tick -/

section Request

variable [SwitchStrategy (Fin n) σ]

omit [SwitchStrategy (Fin n) σ] in
/-- INTERNAL: a slot is written, and no one asks for a task. -/
theorem setTask_request (k : Kernel n σ) (i : Fin n) (f : KernelTask → KernelTask) :
    (k.setTask i f).request = k.request := rfl

/-- INTERNAL: a call of the strategy leaves the request flag. -/
theorem callStrategy_request (cfg : Config) (k : Kernel n σ) (c : StrategyCall (Fin n)) :
    (k.callStrategy cfg c).2.request = k.request := by
  unfold Kernel.callStrategy
  split
  · rfl
  · rfl

/-- INTERNAL: a new task leaves the request flag. -/
theorem allocateAndAddNewTask_request (cfg : Config) (k : Kernel n σ) (u : TId) :
    (k.allocateAndAddNewTask cfg u).request = k.request := by
  have halloc : (k.allocateNewTask u).2.request = k.request := by
    unfold Kernel.allocateNewTask
    have hcheck : (if (k.findTaskByUserTask u).isSome then k.fault .taskCollision else k).request =
        k.request := by
      split
      · rfl
      · rfl
    generalize (if (k.findTaskByUserTask u).isSome then k.fault .taskCollision else k) = k₁ at hcheck ⊢
    dsimp only
    split
    · exact hcheck
    · dsimp only
      split
      · unfold Kernel.setCurrentWeight
        split
        · exact hcheck
        · exact hcheck
      · exact hcheck
  unfold Kernel.allocateAndAddNewTask
  split
  · next heq =>
    rw [heq] at halloc
    exact halloc
  · next heq =>
    rw [heq] at halloc
    rw [callStrategy_request]
    exact halloc

/-- INTERNAL: `UpdateTaskRequest` serves the requests in `KERNEL_DYNAMIC` mode. -/
theorem updateTaskRequest_served (hhrt : cfg.isHrtMode = false) (hdyn : cfg.isDynamicMode = true) :
    (if k.request then k.updateTaskRequest cfg else k).request = false := by
  split
  · unfold Kernel.updateTaskRequest
    rw [if_pos (by simp [hdyn, hhrt])]
    apply Runs.foldl_keeps (I := fun k : Kernel n σ => k.request = false)
    · intro k i _ h
      split
      · exact h
      · rw [setTask_request, allocateAndAddNewTask_request]
        exact h
    · rfl
  · next h => simpa using h

/-- INTERNAL: the work on a slot leaves the request flag. -/
theorem updateSlot_request (cfg : Config) (e : ℤ) (acc : Kernel n σ × ℤ) (i : Fin n) :
    (updateSlot cfg e acc i).1.request = acc.1.request := by
  unfold Kernel.updateSlot
  dsimp only
  split
  · unfold Kernel.removeTask
    dsimp only
    rw [setTask_request]
    split
    · exact callStrategy_request cfg _ _
    · exact callStrategy_request cfg _ _
  · dsimp only
    split
    · have hdeliver : (acc.1.deliverSleep cfg i).request = acc.1.request := by
        unfold Kernel.deliverSleep
        split
        · exact callStrategy_request cfg _ _
        · rfl
      unfold Kernel.advanceSleep
      dsimp only
      split
      · exact (callStrategy_request cfg _ _).trans hdeliver
      · exact hdeliver
    · unfold Kernel.advanceDuration
      split
      · dsimp only
        split
        · rfl
        · rfl
      · rfl

/-- INTERNAL: no request is left after `UpdateTasks`. -/
theorem updateTasks_served (hhrt : cfg.isHrtMode = false) (k : Kernel n σ) (e : ℤ)
    (h : (k.updateTasks cfg e).1.request = true) : cfg.isDynamicMode = false := by
  by_contra hdyn
  unfold Kernel.updateTasks at h
  dsimp only at h
  have hserved := updateTaskRequest_served (k := if cfg.isSyncMode then k.updateSyncObjects e else k) hhrt
    (by simpa using hdyn)
  generalize (if (if cfg.isSyncMode then k.updateSyncObjects e else k).request then
    (if cfg.isSyncMode then k.updateSyncObjects e else k).updateTaskRequest cfg
    else if cfg.isSyncMode then k.updateSyncObjects e else k) = k₁ at hserved h
  have hkeep : (k₁.updateTaskState cfg e).1.request = false := by
    unfold Kernel.updateTaskState
    apply Runs.foldl_keeps (I := fun acc : Kernel n σ × ℤ => acc.1.request = false)
    · intro acc i _ hacc
      rw [updateSlot_request]
      exact hacc
    · exact hserved
  rw [hkeep] at h
  cases h

/-- INTERNAL: with nothing to run a kernel that goes on is put to sleep. -/
theorem updateFsmState_sleeps (hhrt : cfg.isHrtMode = false)
    (hnext : SwitchStrategy.getNext (k.view cfg) k.strategy = .ok (none, k.strategy))
    (hfsm : k.fsmState ≠ .none ∧ k.fsmState ≠ .exiting)
    (hstarted : (k.updateFsmState cfg).1.taskNow ≠ none) :
    (k.updateFsmState cfg).1.tasks = k.tasks ∧ (k.updateFsmState cfg).1.fsmState = .sleeping ∧
      (k.updateFsmState cfg).1.request = k.request := by
  have hcall : k.callStrategy cfg .getNext =
      (none, { k with calls := k.calls ++ [(k.view cfg, .getNext)] }) := by
    unfold Kernel.callStrategy StrategyCall.apply
    rw [hnext]
  unfold Kernel.updateFsmState Kernel.fetchNextEvent at hstarted ⊢
  rw [hcall] at hstarted ⊢
  dsimp only at hstarted ⊢
  by_cases hexit : cfg.isDynamicMode = true ∧ SwitchStrategy.getSize k.strategy = 0
  · -- the exit event would leave no current task
    exfalso
    rw [if_pos (by simp [hexit])] at hstarted
    have hstate : fsm k.fsmState .exit = .exiting := by
      revert hfsm
      cases k.fsmState <;> simp [fsm]
    dsimp only at hstarted
    rw [hstate] at hstarted
    simp [Kernel.stateExit, hexit.1] at hstarted
  · rw [if_neg (by simpa using hexit)]
    dsimp only
    have hstate : fsm k.fsmState .sleep = .sleeping ∨
        (fsm k.fsmState .sleep = .none ∧ k.fsmState = .sleeping) := by
      revert hfsm
      cases k.fsmState <;> simp [fsm]
    rcases hstate with hstate | ⟨hstate, hsleeping⟩
    · rw [hstate]
      unfold Kernel.stateSleep
      dsimp only
      cases k.taskNow with
      | none => exact ⟨rfl, rfl, rfl⟩
      | some now =>
        cases SwitchStrategy.getFirst k.strategy with
        | none => exact ⟨rfl, rfl, rfl⟩
        | some first => simp [hhrt]
    · rw [hstate]
      exact ⟨rfl, hsleeping, rfl⟩

end Request

section AfterTick

variable [SwitchStrategy (Fin n) σ] [StrategyLists (Fin n) σ] [SleepAware (Fin n) σ]

/-- INTERNAL: `UpdateTasks` leaves only waits with time to go. -/
theorem updateTasks_timed (h : Good cfg (fun _ => 0) (fun _ => 0) k) {u : Kernel n σ × ℤ}
    (hu : ({ k with ticks := k.ticks + e } : Kernel n σ).updateTasks cfg e = u)
    (hobj : (u.1.tasks i).waitObj.syncObj ≠ none) (hfin : (u.1.tasks i).waitObj.timeWait ≠ waitInfinite) :
    0 < (u.1.tasks i).waitObj.timeWait := by
  have hsame : SameWaits (synced cfg e k) u.1 := by
    rw [← hu]
    unfold Kernel.updateTasks
    dsimp only
    rw [sync_eq h e]
    have hreq : SameWaits (synced cfg e k) (if (synced cfg e k).request then
        (synced cfg e k).updateTaskRequest cfg else synced cfg e k) := by
      split
      · exact .updateTaskRequest cfg _
      · exact .refl _
    exact hreq.trans (.updateTaskState cfg _ e)
  rw [hsame.waitObj i] at hobj hfin ⊢
  unfold synced at hobj hfin ⊢
  dsimp only at hobj hfin ⊢
  by_cases hlinked : (k.tasks i).waitObj.syncObj = none
  · rw [waited_of_not_waiting hlinked] at hobj
    exact absurd hlinked hobj
  · by_cases hinf : (k.tasks i).waitObj.timeWait = waitInfinite
    · rw [waited_untimed hinf] at hfin
      exact absurd hinf hfin
    · have hlt : (k.tasks i).waitObj.timeWait < waitInfinite := by
        obtain ⟨o, ho⟩ := Option.ne_none_iff_exists'.mp hlinked
        have hbound := ((h.slot i).waiting o ho).bound
        omega
      by_cases hend : (k.tasks i).waitObj.timeWait ≤ e
      · rw [waited_expired hlinked hlt hend] at hobj
        exact absurd rfl hobj
      · rw [waited_timed hlinked hlt (by omega)]
        dsimp only
        omega

/-- INTERNAL: a wait that a tick leaves has time left. -/
theorem onTick_timed (hhrt : cfg.isHrtMode = false) (h : Good cfg (fun _ => 0) (fun _ => 0) k)
    (hobj : ((k.onTick cfg e).1.tasks i).waitObj.syncObj ≠ none)
    (hfin : ((k.onTick cfg e).1.tasks i).waitObj.timeWait ≠ waitInfinite) :
    0 < ((k.onTick cfg e).1.tasks i).waitObj.timeWait := by
  have hsame := SameSlot.updateFsmState cfg
    (not_rearms hhrt (({ k with ticks := k.ticks + e } : Kernel n σ).updateTasks cfg e).1 i)
  have hobj₁ : ((k.onTick cfg e).1.tasks i).waitObj =
      ((({ k with ticks := k.ticks + e } : Kernel n σ).updateTasks cfg e).1.tasks i).waitObj :=
    hsame.waitObj
  rw [hobj₁] at hobj hfin ⊢
  exact updateTasks_timed h rfl hobj hfin

variable [IdleAware (Fin n) σ]

/-- INTERNAL: a kernel that may skip a tick is idle. -/
theorem idle_onTick (hcfg : WeightsOk σ cfg) (htickless : cfg.isTicklessMode = true)
    (hhrt : cfg.isHrtMode = false) (hmax : 1 ≤ cfg.ticklessTicksMax)
    (h : Good cfg (fun _ => 0) (fun _ => 0) k) (hrun : Running k) (hstarted : k.taskNow ≠ none)
    (he : 0 < e)
    (hinf : ∀ i, (k.tasks i).waitObj.syncObj ≠ none → (k.tasks i).waitObj.timeWait = waitInfinite →
      (k.tasks i).timeSleep + e < 0)
    {m : ℤ} (hm : 1 < m) (hle : m ≤ (k.onTick cfg e).2.ticks)
    (hgo : (k.onTick cfg e).1.taskNow ≠ none)
    (hlive : ∀ i, ((k.onTick cfg e).1.tasks i).removePending = false)
    (huntimed : ∀ i, ((k.onTick cfg e).1.tasks i).waitObj.syncObj ≠ none →
      ((k.onTick cfg e).1.tasks i).waitObj.timeWait = waitInfinite →
      ((k.onTick cfg e).1.tasks i).timeSleep + m < 0) :
    Idle cfg m (k.onTick cfg e).1 := by
  obtain ⟨-, -, hwithin⟩ := onTick_interval htickless hhrt hmax k e
  obtain ⟨hgood, hrunning⟩ := onTick_good hcfg h hrun hstarted he hinf (by
    intro i hi
    simp [switchedOut, hhrt] at hi)
  obtain ⟨hgood₁, hset₁, -, hnow₁, hfsm₁⟩ := updateTasks_good hcfg h hrun he hinf
  have htimed := fun i => onTick_timed hhrt h (e := e) (i := i)
  have htick : (k.onTick cfg e).1 =
      ((({ k with ticks := k.ticks + e } : Kernel n σ).updateTasks cfg e).1.updateFsmState cfg).1 := rfl
  have hrequest := updateTasks_served hhrt ({ k with ticks := k.ticks + e } : Kernel n σ) e
  -- every bound task sleeps, for more than a tick
  have hsleep : ∀ i, ((k.onTick cfg e).1.tasks i).user ≠ none →
      ((k.onTick cfg e).1.tasks i).timeSleep < 0 ∧
      (((k.onTick cfg e).1.tasks i).waitObj.syncObj = none →
        ((k.onTick cfg e).1.tasks i).timeSleep + m ≤ 0) := by
    intro i hi
    have hbusy : ((k.onTick cfg e).1.tasks i).isBusy = true := by
      simpa [KernelTask.isBusy, Option.isSome_iff_ne_none] using hi
    by_cases hobj : ((k.onTick cfg e).1.tasks i).waitObj.syncObj = none
    · have hbound := (hwithin i hbusy).sleep (by simp [KernelTask.isWaiting, hobj])
      omega
    · obtain ⟨o, ho⟩ := Option.ne_none_iff_exists'.mp hobj
      exact ⟨(hgood.slot i).sleeping ho, fun hnone => absurd hnone hobj⟩
  have hsame := fun i => SameSlot.updateFsmState cfg
    (not_rearms hhrt (({ k with ticks := k.ticks + e } : Kernel n σ).updateTasks cfg e).1 i)
  rw [htick] at hgo hwithin hgood hrunning hlive huntimed hsleep htimed ⊢
  generalize hu : ({ k with ticks := k.ticks + e } : Kernel n σ).updateTasks cfg e = u at *
  have hnil : runnable u.1.strategy = [] := by
    apply runnable_nil hgood₁ hset₁
    intro i hi
    rw [← (hsame i).time]
    apply (hsleep i _).1
    rw [(hsame i).user]
    exact hi
  obtain ⟨htasks, hsleeping, hreq⟩ := updateFsmState_sleeps hhrt
    (IdleAware.getNext_idle hgood₁.listed.wf hnil) (by rw [hfsm₁]; exact hrun.fsm hstarted) hgo
  constructor
  · exact hgood
  · exact hrunning
  · exact hgo
  · exact hsleeping
  · intro i
    rw [htasks]
    exact hset₁ i
  · exact hlive
  · intro i hbusy
    have hi := (hsleep i (KernelTask.isBusy_iff.mp hbusy)).1
    simpa [KernelTask.isSleeping] using hi
  · intro i
    by_cases hobj : ((u.1.updateFsmState cfg).1.tasks i).waitObj.syncObj = none
    · by_cases huser : ((u.1.updateFsmState cfg).1.tasks i).user = none
      · exact .free hobj ((hgood.slot i).free huser).1
      · obtain ⟨hs, hrest⟩ := hsleep i huser
        exact .sleeps hobj hs (hrest hobj)
    · obtain ⟨o, ho⟩ := Option.ne_none_iff_exists'.mp hobj
      have hw := (hgood.slot i).waiting o ho
      by_cases hforever : ((u.1.updateFsmState cfg).1.tasks i).waitObj.timeWait = waitInfinite
      · exact .waitsForever hobj hforever (huntimed i hobj hforever)
      · have hpos := htimed i hobj hforever
        have hbound : ((u.1.updateFsmState cfg).1.tasks i).waitObj.timeWait ≤ waitInfinite := hw.bound
        have hfinite := hw.finite hforever
        have huser : ((u.1.updateFsmState cfg).1.tasks i).user ≠ none :=
          (hgood.slot i).busy_of_sleeping ((hgood.slot i).sleeping ho)
        have hsync : cfg.isSyncMode = true := by
          by_contra hsync
          exact hobj (hgood.idle (.inr (by simpa using hsync)) i)
        have hwait := (hwithin i (KernelTask.isBusy_iff.mpr huser)).wait
          (by simp [hsync, KernelTask.isWaiting, ho]) hpos
        apply Away.waits hobj
        · omega
        · omega
        · simpa using hfinite
  · intro hreq'
    rw [hreq] at hreq'
    exact hrequest hreq'

/-- `r` is at most the rest of the sleep or of the timed wait of every bound task. -/
def BeforeTimeouts (r : ℤ) (k : Kernel n σ) : Prop :=
  ∀ i, (k.tasks i).isBusy = true →
    ((k.tasks i).isWaiting = false → (k.tasks i).isSleeping = true → r ≤ -(k.tasks i).timeSleep) ∧
    ((k.tasks i).isWaiting = true → (k.tasks i).waitObj.timeWait ≠ waitInfinite →
      r ≤ (k.tasks i).waitObj.timeWait)

/-- The sleep counters of the infinite waits do not run out within `m` ticks. -/
def Outlast (m : ℤ) (k : Kernel n σ) : Prop :=
  ∀ i, (k.tasks i).isWaiting = true → (k.tasks i).waitObj.timeWait = waitInfinite →
    (k.tasks i).timeSleep + m < 0

omit [IdleAware (Fin n) σ] in
/-- INTERNAL: the interval that a tick returns ends before the next timeout. -/
theorem beforeTimeouts_onTick (htickless : cfg.isTicklessMode = true) (hhrt : cfg.isHrtMode = false)
    (hmax : 1 ≤ cfg.ticklessTicksMax) (h : Good cfg (fun _ => 0) (fun _ => 0) k)
    (hgood : Good cfg (fun _ => 0) (fun _ => 0) (k.onTick cfg e).1) :
    BeforeTimeouts (k.onTick cfg e).2.ticks (k.onTick cfg e).1 := by
  intro i hbusy
  obtain ⟨-, -, hwithin⟩ := onTick_interval htickless hhrt hmax k e
  constructor
  · intro hnot hs
    have hle := (hwithin i hbusy).sleep (by simp [hnot])
    have htime : ((k.onTick cfg e).1.tasks i).timeSleep < 0 := by simpa [KernelTask.isSleeping] using hs
    omega
  · intro hw hfin
    have hobj := isWaiting_iff.mp hw
    have hsync : cfg.isSyncMode = true := by
      by_contra hsync
      exact hobj (hgood.idle (.inr (by simpa using hsync)) i)
    exact (hwithin i hbusy).wait (by simp [hsync, hw]) (onTick_timed hhrt h hobj hfin)

/-- What holds after a tick that returned `r`. -/
structure Suppressible (cfg : Config) (r : ℤ) (k : Kernel n σ) : Prop where
  one_le : 1 ≤ r
  le_max : r ≤ cfg.ticklessTicksMax
  timeouts : BeforeTimeouts r k
  merge : ∀ m : ℕ, 1 ≤ m → (m : ℤ) ≤ r → Outlast m k →
    Alike (k.step cfg (.onTick m)) ((List.replicate m (.onTick 1)).foldl (Kernel.step cfg) k)

/-- After every run of careful steps, a tick that leaves no task pending removal returns an
interval whose ticks may be taken in one call. -/
def TicklessRuns (n : ℕ) (σ : Type) [SwitchStrategy (Fin n) σ] [StrategyLists (Fin n) σ]
    [SleepAware (Fin n) σ] : Prop :=
  ∀ (cfg : Config) (es : List (KernelEvent n)) (e : ℤ), WeightsOk σ cfg →
    cfg.isTicklessMode = true → cfg.isHrtMode = false →
    1 ≤ cfg.ticklessTicksMax → cfg.ticklessTicksMax ≤ 100000 →
    Runs.Along (Kernel.step cfg) (Careful cfg) (initial : Kernel n σ) (es ++ [.onTick e]) →
    (Kernel.run cfg es : Kernel n σ).isStarted = true → validElapsed cfg e = true →
    (∀ i, ((Kernel.run cfg (es ++ [.onTick e]) : Kernel n σ).tasks i).removePending = false) →
    Suppressible cfg ((Kernel.run cfg es : Kernel n σ).onTick cfg e).2.ticks
      (Kernel.run cfg (es ++ [.onTick e]) : Kernel n σ)

/-- INTERNAL: a long tick is as many short ones, in every run. -/
theorem ticklessRuns : TicklessRuns n σ := by
  intro cfg es e hcfg htickless hhrt hmax hmax' hes hstarted he hlive
  obtain ⟨hbefore, hcareful, -⟩ := Runs.along_append.mp hes
  have hrest : Rest cfg (Kernel.run cfg es : Kernel n σ) :=
    hbefore.invariant (I := Rest cfg) (fun k e h he => step_rest hcfg h he) rest_initial
  have hnow : (Kernel.run cfg es : Kernel n σ).taskNow ≠ none := by
    simpa [Kernel.isStarted, Option.isSome_iff_ne_none] using hstarted
  have hpos : 0 < e := by
    simp only [validElapsed, Bool.and_eq_true, decide_eq_true_eq] at he
    exact he.1.1
  have hrun : (Kernel.run cfg (es ++ [.onTick e]) : Kernel n σ) = ((Kernel.run cfg es).onTick cfg e).1 := by
    rw [run_append, List.foldl_cons, List.foldl_nil]
    simp [Kernel.step, hstarted, he]
  rw [hrun] at hlive ⊢
  have hinf := hcareful.1
  change ∀ i, ((Kernel.run cfg es : Kernel n σ).tasks i).waitObj.syncObj ≠ none →
    ((Kernel.run cfg es : Kernel n σ).tasks i).waitObj.timeWait = waitInfinite →
      ((Kernel.run cfg es : Kernel n σ).tasks i).timeSleep + e < 0 at hinf
  generalize (Kernel.run cfg es : Kernel n σ) = k at hrest hnow hlive hinf ⊢
  obtain ⟨hone, hle, -⟩ := onTick_interval htickless hhrt hmax k e
  obtain ⟨hgood, -⟩ := onTick_good hcfg hrest.1 hrest.2 hnow hpos hinf (by
    intro i hi
    simp [switchedOut, hhrt] at hi)
  refine ⟨hone, hle, beforeTimeouts_onTick htickless hhrt hmax hrest.1 hgood, ?_⟩
  intro m hm hmr hout
  by_cases hgo : (k.onTick cfg e).1.taskNow = none
  · -- a kernel that has exited takes no tick
    have hoff : ∀ e', (k.onTick cfg e).1.step cfg (.onTick e') = (k.onTick cfg e).1 := by
      intro e'
      simp [Kernel.step, Kernel.isStarted, hgo]
    have hall : ∀ c : ℕ, (List.replicate c (.onTick 1)).foldl (Kernel.step cfg) (k.onTick cfg e).1 =
        (k.onTick cfg e).1 := by
      intro c
      induction c with
      | zero => rfl
      | succ c ih => rw [List.replicate_succ, List.foldl_cons, hoff, ih]
    rw [hoff, hall]
    exact .refl _
  · obtain ⟨c, rfl⟩ : ∃ c, m = c + 1 := ⟨m - 1, by omega⟩
    by_cases hc : c = 0
    · subst hc
      exact .refl _
    · have hidle := idle_onTick hcfg htickless hhrt hmax hrest.1 hrest.2 hnow hpos hinf
        (m := ((c + 1 : ℕ) : ℤ)) (by push_cast; omega) hmr hgo hlive
        (fun i hobj => hout i (isWaiting_iff.mpr hobj))
      have hones := Idle.ones hcfg htickless hhrt c hidle (by push_cast; omega) (by
        have : waitInfinite = 2147483647 := rfl
        omega)
      exact hones

end AfterTick

/-- **Suppressed ticks.**  Under each of the four strategies that a kernel without
`KERNEL_HRT` can have, after every run of careful steps: the interval that a tick returns is
positive, at most the configured maximum and at most the rest of every timed sleep or wait,
and one call for `m` of these ticks leaves the kernel as `m` calls for one tick do, up to the
sleep counters of tasks that are awake. -/
theorem run_tickless (n P : ℕ) [Fact (P ≤ 32)] :
    TicklessRuns n (RoundRobin (Fin n)) ∧ TicklessRuns n (FixedPriority P (Fin n)) ∧
      TicklessRuns n (SmoothWeightedRoundRobin (Fin n)) ∧
      TicklessRuns n (EarliestDeadlineFirst (Fin n)) :=
  ⟨ticklessRuns, ticklessRuns, ticklessRuns, ticklessRuns⟩

section Runs

/-- A static tickless kernel with synchronization. -/
def ticklessConfig : Config where
  isDynamicMode := false
  isHrtMode := false
  isSyncMode := true
  isTicklessMode := true
  ticklessTicksMax := 1000
  weight := fun _ => 1

/-- The only task waits for at most four ticks. -/
def onlyWait : List (KernelEvent 1) :=
  [.addTask 0, .onStart, .wait 0 (.object 0) 4]

/-- An idle system with one waiting task. -/
theorem onlyWait_suppressible :
    Runs.Along (Kernel.step ticklessConfig) (Careful ticklessConfig)
        (initial : Kernel 1 (RoundRobin (Fin 1))) (onlyWait ++ [.onTick 1]) ∧
      Suppressible ticklessConfig 3
        (Kernel.run ticklessConfig (onlyWait ++ [.onTick 1]) : Kernel 1 (RoundRobin (Fin 1))) := by
  have hcareful : Runs.Along (Kernel.step ticklessConfig) (Careful ticklessConfig)
      (initial : Kernel 1 (RoundRobin (Fin 1))) (onlyWait ++ [.onTick 1]) := by
    refine ⟨trivial, trivial, rfl, ⟨?_, ?_⟩, trivial⟩
    all_goals decide
  have hticks : ((Kernel.run ticklessConfig onlyWait : Kernel 1 (RoundRobin (Fin 1))).onTick
      ticklessConfig 1).2.ticks = 3 := by decide
  have : Fact (32 ≤ 32) := ⟨le_rfl⟩
  have hrun := (run_tickless 1 32).1 ticklessConfig onlyWait 1 (fun _ => trivial) rfl rfl (by decide)
    (by decide) hcareful (by decide) (by decide) (by decide)
  rw [hticks] at hrun
  exact ⟨hcareful, hrun⟩

/-- Two tasks wait and are resumed before their time. -/
def twoResumed : List (KernelEvent 2) :=
  [.addTask 0, .addTask 1, .onStart, .onTick 1, .wait 0 (.object 0) 9, .onTick 1,
    .wait 1 (.object 0) 9, .onTick 1, .resumeTask 0, .resumeTask 1]

/-- The only task waits without a timeout, and two ticks short of the longest sleep pass. -/
def lastTicks : List (KernelEvent 1) :=
  [.addTask 0, .onStart, .wait 0 (.object 0) waitInfinite]

/-- Three ticks after the tick of `onlyWait` the wait times out: in one call the sleep counter
ends at two, in three calls at zero.

With waits that are resumed, or that outlast the sleep counter, more is different: `GetSleepTicks`
does not look at the sleep counter of a waiting task, so the interval goes past its end. -/
theorem onlyWait_counters :
    (((Kernel.run ticklessConfig onlyWait : Kernel 1 (RoundRobin (Fin 1))).onTick
        ticklessConfig 1).2.ticks = 3 ∧
      ((Kernel.run ticklessConfig (onlyWait ++ [.onTick 1, .onTick 3]) :
        Kernel 1 (RoundRobin (Fin 1))).tasks 0).timeSleep = 2 ∧
      ((Kernel.run ticklessConfig (onlyWait ++ [.onTick 1, .onTick 1, .onTick 1, .onTick 1]) :
        Kernel 1 (RoundRobin (Fin 1))).tasks 0).timeSleep = 0) ∧
    (((Kernel.run ticklessConfig twoResumed : Kernel 2 (RoundRobin (Fin 2))).onTick
        ticklessConfig 1).2.ticks = 6 ∧
      (Kernel.run ticklessConfig (twoResumed ++ [.onTick 1, .onTick 2]) :
        Kernel 2 (RoundRobin (Fin 2))).taskNow = some 0 ∧
      (Kernel.run ticklessConfig (twoResumed ++ [.onTick 1, .onTick 1, .onTick 1]) :
        Kernel 2 (RoundRobin (Fin 2))).taskNow = some 1) ∧
    (((Kernel.run ticklessConfig lastTicks : Kernel 1 (RoundRobin (Fin 1))).onTick
        ticklessConfig (waitInfinite - 2)).2.ticks = 1000 ∧
      (Kernel.run ticklessConfig (lastTicks ++ [.onTick (waitInfinite - 2), .onTick 3]) :
        Kernel 1 (RoundRobin (Fin 1))).fsmState = .waking ∧
      (Kernel.run ticklessConfig (lastTicks ++ [.onTick (waitInfinite - 2), .onTick 1, .onTick 1, .onTick 1]) :
        Kernel 1 (RoundRobin (Fin 1))).fsmState = .switching) := by
  decide +kernel

end Runs

end Stk.Analysis
