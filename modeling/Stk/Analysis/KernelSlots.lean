import Stk.Analysis.SleepAware
import Stk.Analysis.WaitLists

/-!
# The slots of the kernel and the lists of its strategy

`Good cfg r q k` is what holds between the steps of the kernel's functions, also in the
middle of a tick.  A tick of `e` ticks is charged to a slot in two places: the wait
object counts down in `UpdateSyncObjects`, the sleep counter counts up in
`UpdateTaskState`.  `r i` and `q i` are the ticks of the present tick that slot `i` has
still to be charged with there; between ticks both are zero.
-/

set_option autoImplicit false

namespace Stk.Analysis

open Stk.Model Stk.Model.Kernel

/-- The sleep event of the slot has been delivered: it belongs into the sleep list. -/
def Delivered (t : KernelTask) : Prop :=
  t.timeSleep < 0 ∧ t.sleepPending = false

/-- A slot that waits for `o` sleeps until its wait object wakes it: a finite wait ends
before the sleep counter runs out, and the call that made it is still pending. -/
structure WaitOk (ticks r q : ℤ) (t : KernelTask) (c : Option WaitCall) (o : SyncId) : Prop where
  live : t.removePending = false
  fresh : t.waitObj.timeout = false
  bound : t.waitObj.timeWait ≤ waitInfinite
  asleep : t.timeSleep + (q - r) < 0
  finite : t.waitObj.timeWait ≠ waitInfinite → t.timeSleep + q + (t.waitObj.timeWait - r) < 0
  infinite : t.waitObj.timeWait = waitInfinite → t.timeSleep + q < 0
  call : ∃ w, c = some w ∧ w.syncObj = o ∧ w.woken = none ∧
    (t.waitObj.timeWait ≠ waitInfinite → t.waitObj.timeWait - r = w.timeout - (ticks - w.since))

/-- What holds of one slot and the `Wait` it may be in. -/
structure SlotOk (ticks r q : ℤ) (t : KernelTask) (c : Option WaitCall) : Prop where
  pending : t.sleepPending = true → t.timeSleep < 0
  free : t.user = none → 0 ≤ t.timeSleep ∧ t.waitObj.syncObj = none
  waiting : ∀ o, t.waitObj.syncObj = some o → WaitOk ticks r q t c o
  returned : t.waitObj.syncObj = none → ∀ w, c = some w →
    w.woken = some t.waitObj.timeout ∧ (t.waitObj.timeout = true → w.timeout ≤ ticks - w.since)

namespace SlotOk

variable {ticks r q : ℤ} {t : KernelTask} {c : Option WaitCall}

/-- INTERNAL: a free slot. -/
theorem unbound : SlotOk ticks r q KernelTask.unbound none where
  pending := by simp [KernelTask.unbound]
  free := by simp [KernelTask.unbound, noWait]
  waiting := by simp [KernelTask.unbound]
  returned := by simp

/-- INTERNAL: a slot in a wait sleeps. -/
theorem sleeping (h : SlotOk ticks r r t c) {o : SyncId} (ho : t.waitObj.syncObj = some o) :
    t.timeSleep < 0 := by
  have := (h.waiting o ho).asleep
  omega

/-- INTERNAL: a slot that sleeps has a task. -/
theorem busy_of_sleeping (h : SlotOk ticks r q t c) (hs : t.timeSleep < 0) : t.user ≠ none := by
  intro hu
  have := (h.free hu).1
  omega

/-- INTERNAL: a task that may make calls waits for nothing. -/
theorem not_waiting_of_call (h : SlotOk ticks r q t none) : t.waitObj.syncObj = none := by
  cases ho : t.waitObj.syncObj with
  | none => rfl
  | some o =>
    obtain ⟨w, hw, -⟩ := (h.waiting o ho).call
    cases hw

/-- INTERNAL: fields that no part of the invariant reads may change. -/
theorem frame (h : SlotOk ticks r q t c) {t' : KernelTask} (huser : t'.user = t.user)
    (hremove : t'.removePending = t.removePending) (hpending : t'.sleepPending = t.sleepPending)
    (htime : t'.timeSleep = t.timeSleep) (hobj : t'.waitObj = t.waitObj) :
    SlotOk ticks r q t' c where
  pending := by rw [hpending, htime]; exact h.pending
  free := by rw [huser, htime, hobj]; exact h.free
  waiting o := by
    rw [hobj]
    intro ho
    have hw := h.waiting o ho
    exact ⟨hremove ▸ hw.live, hobj ▸ hw.fresh, hobj ▸ hw.bound, htime ▸ hw.asleep,
      by rw [htime, hobj]; exact hw.finite, by rw [htime, hobj]; exact hw.infinite,
      by rw [hobj]; exact hw.call⟩
  returned := by rw [hobj]; exact h.returned

/-- INTERNAL: a slot in no wait depends neither on the ticks to come nor on the time. -/
theorem rest (h : SlotOk ticks r q t c) (hobj : t.waitObj.syncObj = none)
    {ticks' r' q' : ℤ} (hticks : ticks ≤ ticks') : SlotOk ticks' r' q' t c where
  pending := h.pending
  free := h.free
  waiting o ho := by rw [hobj] at ho; cases ho
  returned ho w hw := by
    obtain ⟨hwoken, htime⟩ := h.returned ho w hw
    refine ⟨hwoken, fun ht => ?_⟩
    have := htime ht
    omega

/-- INTERNAL: writing the sleep state of a bound slot that is in no wait. -/
theorem setSleep (h : SlotOk ticks r q t c) (hbusy : t.user ≠ none)
    (hobj : t.waitObj.syncObj = none) {t' : KernelTask} (huser : t'.user = t.user)
    (hwait : t'.waitObj = t.waitObj) (hpending : t'.sleepPending = true → t'.timeSleep < 0) :
    SlotOk ticks r q t' c where
  pending := hpending
  free hu := absurd (huser ▸ hu) hbusy
  waiting o ho := by rw [hwait, hobj] at ho; cases ho
  returned := by rw [hwait]; exact h.returned

/-- INTERNAL: `WaitObject::Wake`. -/
theorem wake (h : SlotOk ticks r q t c) {o : SyncId} (ho : t.waitObj.syncObj = some o)
    (timeout : Bool) (htime : timeout = true → ∀ w, c = some w → w.timeout ≤ ticks - w.since)
    {r' q' : ℤ} :
    SlotOk ticks r' q' { t with waitObj := ⟨none, timeout, 0⟩, timeSleep := -1 }
      (c.map (fun w : WaitCall => { w with woken := some timeout })) where
  pending _ := by simp
  free hu := by
    have := (h.free hu).2
    rw [ho] at this
    cases this
  waiting o ho := by cases ho
  returned _ w hw := by
    obtain ⟨w', hw', -⟩ := (h.waiting o ho).call
    subst hw'
    obtain rfl := Option.some.inj hw
    exact ⟨rfl, fun ht => htime ht w' rfl⟩

/-- INTERNAL: `SetupWait` and the infinite sleep of `OnTaskWait`. -/
theorem setupWait (hbusy : t.user ≠ none) (hlive : t.removePending = false) {timeout : ℤ}
    (hle : timeout ≤ waitInfinite) (o : SyncId) :
    SlotOk ticks 0 0
      ({ t with waitObj := ⟨some o, false, timeout⟩ }.scheduleSleep true waitInfinite)
      (some ⟨o, timeout, ticks, none⟩) where
  pending _ := by simp [KernelTask.scheduleSleep, waitInfinite]
  free hu := absurd hu hbusy
  waiting o' ho' := by
    obtain rfl : o = o' := by simpa [KernelTask.scheduleSleep] using ho'
    refine ⟨hlive, rfl, hle, ?_, ?_, ?_, ⟨_, rfl, rfl, rfl, fun _ => ?_⟩⟩
    · simp [KernelTask.scheduleSleep, waitInfinite]
    · intro hne
      simp only [KernelTask.scheduleSleep] at hne ⊢
      omega
    · intro _
      simp [KernelTask.scheduleSleep, waitInfinite]
    · simp [KernelTask.scheduleSleep]
  returned ho := by simp [KernelTask.scheduleSleep] at ho

end SlotOk

/-! ## The lists -/

variable {n : ℕ} {σ : Type} [SwitchStrategy (Fin n) σ] [StrategyLists (Fin n) σ]

/-- The effective weights of the slots. -/
def weights (σ : Type) {n : ℕ} [SwitchStrategy (Fin n) σ] (cfg : Config)
    (tasks : Fin n → KernelTask) (i : Fin n) : ℤ :=
  (tasks i).getWeight cfg (SwitchStrategy.weightApi σ) (SwitchStrategy.priorityInheritanceApi σ)

/-- The strategy holds every bound slot in exactly one of its lists, the sleep list
holds those whose sleep event has been delivered, and the effective weights are such as
the strategy accepts. -/
structure Listed [SleepAware (Fin n) σ] (cfg : Config) (tasks : Fin n → KernelTask) (s : σ) :
    Prop where
  wf : SleepAware.Wf (weights σ cfg tasks) s
  mem : ∀ i, (i ∈ runnable s ∨ i ∈ asleep s) ↔ (tasks i).user ≠ none
  asleep : ∀ i, i ∈ asleep s ↔ Delivered (tasks i)
  weight : ∀ i, (tasks i).user ≠ none → SleepAware.WeightOk σ (weights σ cfg tasks i)

namespace Listed

variable [SleepAware (Fin n) σ] {cfg : Config} {tasks : Fin n → KernelTask} {s : σ}

omit [SleepAware (Fin n) σ] [StrategyLists (Fin n) σ] in
/-- INTERNAL: a slot is written beside the weights of the others. -/
theorem weights_update_ne {i j : Fin n} (hj : j ≠ i) (t : KernelTask) :
    weights σ cfg (Function.update tasks i t) j = weights σ cfg tasks j := by
  simp [weights, hj]

/-- INTERNAL: one slot changes and the strategy moves it and no other. -/
theorem move (h : Listed cfg tasks s) {i : Fin n} {t : KernelTask} {s' : σ}
    (hwf : SleepAware.Wf (weights σ cfg (Function.update tasks i t)) s')
    (hmem : (i ∈ runnable s' ∨ i ∈ Analysis.asleep s') ↔ t.user ≠ none)
    (hasleep : i ∈ Analysis.asleep s' ↔ Delivered t)
    (hother : ∀ j, j ≠ i → (j ∈ runnable s' ↔ j ∈ runnable s) ∧
      (j ∈ Analysis.asleep s' ↔ j ∈ Analysis.asleep s))
    (hweight : t.user ≠ none →
      SleepAware.WeightOk σ (weights σ cfg (Function.update tasks i t) i)) :
    Listed cfg (Function.update tasks i t) s' where
  wf := hwf
  mem j := by
    by_cases hj : j = i
    · subst hj; simpa using hmem
    · rw [(hother j hj).1, (hother j hj).2, Function.update_of_ne hj]
      exact h.mem j
  asleep j := by
    by_cases hj : j = i
    · subst hj; simpa using hasleep
    · rw [(hother j hj).2, Function.update_of_ne hj]
      exact h.asleep j
  weight j := by
    by_cases hj : j = i
    · subst hj; simpa using hweight
    · rw [Function.update_of_ne hj, weights_update_ne hj]
      exact h.weight j

/-- INTERNAL: a slot changes in a way that concerns no list. -/
theorem frame (h : Listed cfg tasks s) {i : Fin n} {t : KernelTask}
    (huser : t.user = (tasks i).user) (hrt : t.rtWeight = (tasks i).rtWeight)
    (hdelivered : Delivered t ↔ Delivered (tasks i)) :
    Listed cfg (Function.update tasks i t) s := by
  have hsame : weights σ cfg (Function.update tasks i t) = weights σ cfg tasks := by
    funext j
    by_cases hj : j = i
    · subst hj; simp [weights, KernelTask.getWeight, huser, hrt]
    · exact weights_update_ne hj t
  refine h.move (hsame ▸ h.wf) ?_ ?_ (fun j _ => ⟨Iff.rfl, Iff.rfl⟩) ?_
  · rw [huser]; exact h.mem i
  · rw [hdelivered]; exact h.asleep i
  · rw [huser, hsame]; exact h.weight i

end Listed

/-! ## The kernel -/

/-- The assertions on the strategy's lists and on the sleep state of a task. -/
def ofLists : Fault → Bool
  | .addTaskHead | .removeTaskHead | .onTaskSleepAwake | .onTaskSleepHead | .onTaskWakeSleeping
  | .onTaskWakeHead | .weightChangeHead | .relativeDeadlineSleeping | .nextSleeping
  | .wakeNotSleeping => true
  | _ => false

/-- What holds of the kernel while a tick still owes `r i` and `q i` to slot `i`. -/
structure Good [SleepAware (Fin n) σ] (cfg : Config) (r q : Fin n → ℤ) (k : Kernel n σ) :
    Prop where
  listed : Listed cfg k.tasks k.strategy
  linked : Linked k
  slot : ∀ i, SlotOk k.ticks (r i) (q i) (k.tasks i) (k.call i)
  idle : k.taskNow = none ∨ cfg.isSyncMode = false → ∀ i, (k.tasks i).waitObj.syncObj = none
  clean : ∀ f ∈ k.faults, ofLists f = false

/-- The static weights are such as the strategy accepts. -/
def WeightsOk (σ : Type) {n : ℕ} [SwitchStrategy (Fin n) σ] [StrategyLists (Fin n) σ]
    [SleepAware (Fin n) σ] (cfg : Config) : Prop :=
  ∀ u, SleepAware.WeightOk σ
    (if SwitchStrategy.weightApi σ then cfg.weight u else defaultWeight)

namespace Good

variable [SleepAware (Fin n) σ] {cfg : Config} {r q : Fin n → ℤ} {k : Kernel n σ}

/-- INTERNAL: a new kernel. -/
theorem initial : Good cfg r q (initial : Kernel n σ) where
  listed := by
    refine ⟨SleepAware.wf_empty _, ?_, ?_, ?_⟩
    · simp [Kernel.initial, SleepAware.runnable_empty, SleepAware.asleep_empty, KernelTask.unbound]
    · simp [Kernel.initial, SleepAware.asleep_empty, KernelTask.unbound, Delivered, noWait]
    · simp [Kernel.initial, KernelTask.unbound]
  linked := Linked.initial
  slot _ := SlotOk.unbound
  idle _ _ := rfl
  clean := by simp [Kernel.initial]

/-- INTERNAL: an assertion that is not of the lists fails. -/
theorem fault (h : Good cfg r q k) {f : Fault} (hf : ofLists f = false) :
    Good cfg r q (k.fault f) where
  listed := h.listed
  linked := (SameTasks.fault k f).linked h.linked
  slot := h.slot
  idle := h.idle
  clean g hg := by
    rcases List.mem_append.mp hg with hg | hg
    · exact h.clean g hg
    · rw [List.mem_singleton.mp hg]; exact hf

/-- INTERNAL: the slot invariants after one slot has changed. -/
theorem slots_update (h : Good cfg r q k) {i : Fin n} {t : KernelTask} {r' q' : Fin n → ℤ}
    (hrq : ∀ j, j ≠ i → r' j = r j ∧ q' j = q j)
    (ht : SlotOk k.ticks (r' i) (q' i) t (k.call i)) (j : Fin n) :
    SlotOk k.ticks (r' j) (q' j) (Function.update k.tasks i t j) (k.call j) := by
  by_cases hj : j = i
  · subst hj; simpa using ht
  · rw [(hrq j hj).1, (hrq j hj).2]
    simpa [hj] using h.slot j

/-- INTERNAL: a slot changes in a way that concerns neither the lists nor its wait. -/
theorem setTask_charge (h : Good cfg r q k) {i : Fin n} {f : KernelTask → KernelTask}
    {r' q' : Fin n → ℤ} (hrq : ∀ j, j ≠ i → r' j = r j ∧ q' j = q j)
    (huser : (f (k.tasks i)).user = (k.tasks i).user)
    (hrt : (f (k.tasks i)).rtWeight = (k.tasks i).rtWeight)
    (hobj : (f (k.tasks i)).waitObj.syncObj = (k.tasks i).waitObj.syncObj)
    (hdelivered : Delivered (f (k.tasks i)) ↔ Delivered (k.tasks i))
    (hslot : SlotOk k.ticks (r' i) (q' i) (f (k.tasks i)) (k.call i)) :
    Good cfg r' q' (k.setTask i f) where
  listed := h.listed.frame huser hrt hdelivered
  linked := setTask_linked h.linked hobj
  slot := h.slots_update hrq hslot
  idle hnow j := (setTask_syncObj hobj j).trans (h.idle hnow j)
  clean := h.clean

/-- INTERNAL: the same when nothing is charged to the slot. -/
theorem setTask (h : Good cfg r q k) {i : Fin n} {f : KernelTask → KernelTask}
    (huser : (f (k.tasks i)).user = (k.tasks i).user)
    (hrt : (f (k.tasks i)).rtWeight = (k.tasks i).rtWeight)
    (hobj : (f (k.tasks i)).waitObj.syncObj = (k.tasks i).waitObj.syncObj)
    (hdelivered : Delivered (f (k.tasks i)) ↔ Delivered (k.tasks i))
    (hslot : SlotOk k.ticks (r i) (q i) (f (k.tasks i)) (k.call i)) :
    Good cfg r q (k.setTask i f) :=
  h.setTask_charge (fun _ _ => ⟨rfl, rfl⟩) huser hrt hobj hdelivered hslot

/-- INTERNAL: a slot changes in a way that concerns neither the lists nor its wait, the
strategy is told and moves the slot and no other. -/
theorem setTask_call (h : Good cfg r q k) {i : Fin n} {f : KernelTask → KernelTask}
    {r' q' : Fin n → ℤ} (hrq : ∀ j, j ≠ i → r' j = r j ∧ q' j = q j) {c : StrategyCall (Fin n)}
    {out : Except Fault σ} {run slp : Fin n → Prop}
    (hc : c.apply ((k.setTask i f).view cfg) k.strategy = out.map (none, ·))
    (hout : Outcome (SleepAware.Wf ((k.setTask i f).getWeight cfg)) out run slp)
    (hobj : (f (k.tasks i)).waitObj.syncObj = (k.tasks i).waitObj.syncObj)
    (hmem : run i ∨ slp i ↔ (f (k.tasks i)).user ≠ none)
    (hasleep : slp i ↔ Delivered (f (k.tasks i)))
    (hother : ∀ j, j ≠ i → (run j ↔ j ∈ runnable k.strategy) ∧ (slp j ↔ j ∈ asleep k.strategy))
    (hweight : (f (k.tasks i)).user ≠ none → SleepAware.WeightOk σ ((k.setTask i f).getWeight cfg i))
    (hslot : SlotOk k.ticks (r' i) (q' i) (f (k.tasks i)) (k.call i)) :
    Good cfg r' q' ((k.setTask i f).callStrategy cfg c).2 := by
  obtain ⟨s, rfl, hwf, hrun, hslp⟩ := hout
  have hresult : ((k.setTask i f).callStrategy cfg c).2 = { k.setTask i f with
      strategy := s, calls := k.calls ++ [((k.setTask i f).view cfg, c)] } := by
    unfold Kernel.callStrategy
    rw [show (k.setTask i f).strategy = k.strategy from rfl, hc]
    rfl
  rw [hresult]
  have hlinks := setTask_linked h.linked hobj
  refine ⟨h.listed.move hwf ?_ ?_ (fun j hj => ?_) hweight,
    ⟨hlinks.mem, hlinks.nodup, hlinks.syncNodup, hlinks.registered⟩, h.slots_update hrq hslot,
    fun hnow j => (setTask_syncObj hobj j).trans (h.idle hnow j), h.clean⟩
  · rw [hrun, hslp]; exact hmem
  · rw [hslp]; exact hasleep
  · rw [hrun, hslp]; exact hother j hj

/-! ## Sleeping and waking -/

/-- INTERNAL: a task that waits for nothing goes to sleep. -/
theorem scheduleSleep (h : Good cfg r q k) {i : Fin n} {ticks : ℤ} (hticks : 0 < ticks)
    (hbusy : (k.tasks i).user ≠ none) (hobj : (k.tasks i).waitObj.syncObj = none) :
    Good cfg r q (k.scheduleSleep i ticks) := by
  have hapi : SwitchStrategy.sleepEventApi σ = true := SleepAware.sleepEventApi_eq
  refine h.setTask rfl rfl rfl ?_ ((h.slot i).setSleep hbusy hobj rfl rfl ?_)
  · simp only [KernelTask.scheduleSleep, Delivered, KernelTask.isSleeping, hapi, Bool.true_and,
      Bool.or_eq_false_iff, Bool.not_eq_false', decide_eq_true_eq]
    constructor
    · exact fun hd => ⟨hd.2.2, hd.2.1⟩
    · exact fun hd => ⟨by omega, hd.2, hd.1⟩
  · intro _
    simp only [KernelTask.scheduleSleep]
    omega

omit [SleepAware (Fin n) σ] [StrategyLists (Fin n) σ] [SwitchStrategy (Fin n) σ] in
/-- INTERNAL: `Wake` of a task that sleeps. -/
theorem wakeTask_eq {i : Fin n} (hs : (k.tasks i).timeSleep < 0) :
    k.wakeTask i = k.setTask i (fun t => { t with timeSleep := -1 }) := by
  unfold Kernel.wakeTask
  rw [if_pos (by simpa [KernelTask.isSleeping] using hs)]

/-- INTERNAL: `Wake` of a task that waits for nothing. -/
theorem wakeTask (h : Good cfg r q k) {i : Fin n} (hs : (k.tasks i).timeSleep < 0)
    (hobj : (k.tasks i).waitObj.syncObj = none) : Good cfg r q (k.wakeTask i) := by
  rw [wakeTask_eq hs]
  refine h.setTask rfl rfl rfl ?_
    ((h.slot i).setSleep ((h.slot i).busy_of_sleeping hs) hobj rfl rfl (fun _ => by simp))
  simp [Delivered, hs]

/-- INTERNAL: the call history may be updated together with the slot. -/
theorem wakeWaitObj (h : Good cfg r q k) {i : Fin n} {o : SyncId}
    (ho : (k.tasks i).waitObj.syncObj = some o) (hs : (k.tasks i).timeSleep < 0) (timeout : Bool)
    (htime : timeout = true → ∀ w, k.call i = some w → w.timeout ≤ k.ticks - w.since) :
    Good cfg r q (k.wakeWaitObj i timeout) := by
  have hlinks := wakeWaitObj_linked h.linked i timeout
  rw [wakeWaitObj_eq ho, if_pos (by simpa [KernelTask.isSleeping] using hs)] at hlinks ⊢
  refine ⟨h.listed.frame rfl rfl ?_, hlinks, fun j => ?_, fun hnow j => ?_, h.clean⟩
  · simp [Delivered, hs]
  · by_cases hj : j = i
    · subst hj
      simpa using (h.slot j).wake ho timeout htime
    · simpa [hj] using h.slot j
  · by_cases hj : j = i
    · subst hj; simp
    · simpa [hj] using h.idle hnow j

/-- INTERNAL: a wait begins. -/
theorem onTaskWait (h : Good cfg r q k) {i : Fin n} {timeout : ℤ} (hbusy : (k.tasks i).user ≠ none)
    (hlive : (k.tasks i).removePending = false) (hle : timeout ≤ waitInfinite)
    (hidle : ¬ (k.taskNow = none ∨ cfg.isSyncMode = false)) (hr : r i = 0) (hq : q i = 0)
    (o : SyncId) : Good cfg r q (k.onTaskWait i o timeout) := by
  by_cases htime : timeout = 0
  · unfold Kernel.onTaskWait
    rw [if_pos htime]
    exact h.fault rfl
  cases hobj : (k.tasks i).waitObj.syncObj with
  | some o' =>
    unfold Kernel.onTaskWait
    rw [if_neg htime, if_pos (by simp [KernelTask.isWaiting, hobj])]
    exact h.fault rfl
  | none =>
    have hlinks := onTaskWait_linked h.linked i o timeout
    have hapi : SwitchStrategy.sleepEventApi σ = true := SleepAware.sleepEventApi_eq
    rw [onTaskWait_eq htime hobj, hapi] at hlinks ⊢
    refine ⟨h.listed.frame rfl rfl ?_, hlinks, fun j => ?_, fun hnow => absurd hnow hidle,
      h.clean⟩
    · simp only [KernelTask.scheduleSleep, Delivered, KernelTask.isSleeping, Bool.true_and,
        Bool.or_eq_false_iff, Bool.not_eq_false', decide_eq_true_eq, waitInfinite]
      constructor
      · exact fun hd => ⟨hd.2.2, hd.2.1⟩
      · exact fun hd => ⟨by omega, hd.2, hd.1⟩
    · by_cases hj : j = i
      · subst hj
        simpa [hr, hq] using SlotOk.setupWait hbusy hlive hle o
      · simpa [hj] using h.slot j

/-! ## Weights -/

omit [SwitchStrategy (Fin n) σ] [StrategyLists (Fin n) σ] [SleepAware (Fin n) σ] in
/-- INTERNAL: the slot found for a task is the one it has. -/
theorem findTaskByUserTask_busy {u : TId} {i : Fin n} (hu : k.findTaskByUserTask u = some i) :
    (k.tasks i).user = some u := by
  have := List.find?_some hu
  simpa using this

/-- INTERNAL: a new run-time weight of a bound slot, with the strategy told. -/
theorem setCurrentWeight_call (h : Good cfg r q k) {i : Fin n} {w : ℤ}
    (hbusy : (k.tasks i).user ≠ none) (hpi : SwitchStrategy.priorityInheritanceApi σ = true)
    (hw : SleepAware.WeightOk σ ((k.setCurrentWeight i w).getWeight cfg i)) :
    Good cfg r q
      ((k.setCurrentWeight i w).callStrategy cfg (.onTaskWeightChange i (k.getWeight cfg i))).2 := by
  have hapi := SleepAware.weightApi_of_inheritance (σ := σ) hpi
  have hset : k.setCurrentWeight i w = k.setTask i (fun t => { t with rtWeight := w }) := by
    unfold Kernel.setCurrentWeight
    rw [if_pos hapi]
  rw [hset] at hw ⊢
  have hlaw := SleepAware.onTaskWeightChange_law (σ := σ) (t := i)
    (v := (k.setTask i (fun t => { t with rtWeight := w })).view cfg) h.listed.wf
    (fun j hj => by
      show weights σ cfg (Function.update k.tasks i _) j = weights σ cfg k.tasks j
      exact Listed.weights_update_ne hj _) hw (h.listed.weight i hbusy) ((h.listed.mem i).mpr hbusy)
  refine h.setTask_call (fun _ _ => ⟨rfl, rfl⟩) rfl hlaw rfl ?_ ?_ (fun j _ => ⟨Iff.rfl, Iff.rfl⟩) (fun _ => hw)
    ((h.slot i).frame rfl rfl rfl rfl rfl)
  · exact h.listed.mem i
  · exact h.listed.asleep i

omit [StrategyLists (Fin n) σ] [SleepAware (Fin n) σ] in
/-- INTERNAL: the effective weight of a slot whose run-time weight has been written. -/
theorem getWeight_setCurrentWeight (hpi : SwitchStrategy.priorityInheritanceApi σ = true)
    (hapi : SwitchStrategy.weightApi σ = true) {i : Fin n} {u : TId}
    (hu : (k.tasks i).user = some u) (w : ℤ) :
    (k.setCurrentWeight i w).getWeight cfg i = if w ≠ noWeight then w else cfg.weight u := by
  simp [Kernel.setCurrentWeight, Kernel.setTask, Kernel.getWeight, KernelTask.getWeight, hpi, hapi,
    hu]

omit [StrategyLists (Fin n) σ] [SleepAware (Fin n) σ] [SwitchStrategy (Fin n) σ] in
/-- INTERNAL: `FindWeightHigherThan` returns the weight of a waiting task, or none. -/
theorem findWeightHigherThan_cases (o : SyncId) (comp : ℤ) :
    k.findWeightHigherThan cfg o comp = noWeight ∨
      ∃ u, k.findWeightHigherThan cfg o comp = cfg.weight u := by
  unfold Kernel.findWeightHigherThan
  dsimp only
  split
  · refine Runs.foldl_keeps (I := fun a => a = noWeight ∨ ∃ u, a = cfg.weight u)
      (fun a i _ ha => ?_) (Or.inl rfl)
    split
    · cases (k.tasks i).user with
      | none => exact Or.inl rfl
      | some u => exact Or.inr ⟨u, rfl⟩
    · exact ha
  · exact Or.inl rfl

/-- INTERNAL: an owner inherits a weight. -/
theorem onInheritWeight (h : Good cfg r q k) (u : TId) {w : ℤ}
    (hw : w ≠ noWeight → SleepAware.WeightOk σ w) : Good cfg r q (k.onInheritWeight cfg u w) := by
  unfold Kernel.onInheritWeight
  split
  · exact h
  · next hpi =>
    have hpi : SwitchStrategy.priorityInheritanceApi σ = true := by simpa using hpi
    split
    · exact h
    · next hne =>
      split
      · exact h.fault rfl
      · next i hi =>
        have hu := findTaskByUserTask_busy hi
        dsimp only
        split
        · refine h.setCurrentWeight_call (by simp [hu]) hpi ?_
          rw [getWeight_setCurrentWeight hpi (SleepAware.weightApi_of_inheritance hpi) hu, if_pos hne]
          exact hw hne
        · exact h

/-- INTERNAL: an owner gives an inherited weight back. -/
theorem onRestoreWeight (h : Good cfg r q k) (hcfg : WeightsOk σ cfg) (u : TId)
    (o : Option SyncId) : Good cfg r q (k.onRestoreWeight cfg u o) := by
  unfold Kernel.onRestoreWeight
  split
  · exact h
  · next hpi =>
    have hpi : SwitchStrategy.priorityInheritanceApi σ = true := by simpa using hpi
    have hapi := SleepAware.weightApi_of_inheritance (σ := σ) hpi
    have hstatic : ∀ u, SleepAware.WeightOk σ (cfg.weight u) := by
      intro u
      simpa [hapi] using hcfg u
    split
    · exact h.fault rfl
    · next i hi =>
      have hu := findTaskByUserTask_busy hi
      refine h.setCurrentWeight_call (by simp [hu]) hpi ?_
      rw [getWeight_setCurrentWeight hpi hapi hu]
      have hw : ∀ w, (w = noWeight ∨ ∃ u', w = cfg.weight u') →
          SleepAware.WeightOk σ (if w ≠ noWeight then w else cfg.weight u) := by
        rintro w (rfl | ⟨u', rfl⟩)
        · exact hstatic u
        · split
          · exact hstatic u'
          · exact hstatic u
      cases o with
      | none => exact hw _ (Or.inl rfl)
      | some o => exact hw _ (findWeightHigherThan_cases o _)

/-! ## Slots -/

/-- `Bind` of a slot. -/
def bind (σ : Type) [SwitchStrategy (Fin n) σ] (u : TId) (t : KernelTask) : KernelTask :=
  { t with
    user := some u
    rtWeight := if SwitchStrategy.priorityInheritanceApi σ then noWeight else t.rtWeight }

/-- INTERNAL: `AllocateNewTask` binds a free slot or reports that there is none. -/
theorem allocateNewTask_cases (h : Good cfg r q k) (u : TId) :
    ∃ k', Good cfg r q k' ∧ ((k.allocateNewTask u = (none, k')) ∨
      ∃ i, (k'.tasks i).user = none ∧
        k.allocateNewTask u = (some i, k'.setTask i (bind σ u))) := by
  unfold Kernel.allocateNewTask
  have hk : Good cfg r q (if (k.findTaskByUserTask u).isSome then k.fault .taskCollision else k) := by
    split
    · exact h.fault rfl
    · exact h
  generalize (if (k.findTaskByUserTask u).isSome then k.fault .taskCollision else k) = k₁ at hk
  dsimp only
  cases hfind : (List.finRange n).find? (fun i => !(k₁.tasks i).isBusy) with
  | none => exact ⟨_, hk.fault (f := .noFreeSlot) rfl, Or.inl rfl⟩
  | some i =>
    have hfree : (k₁.tasks i).user = none := by
      simpa [KernelTask.isBusy] using List.find?_some hfind
    refine ⟨k₁, hk, Or.inr ⟨i, hfree, ?_⟩⟩
    by_cases hpi : SwitchStrategy.priorityInheritanceApi σ = true
    · have hapi := SleepAware.weightApi_of_inheritance (σ := σ) hpi
      simp [hpi, Kernel.setCurrentWeight, hapi, Kernel.setTask, bind]
    · simp only [hpi, Bool.false_eq_true, ↓reduceIte, Kernel.setTask, bind]

/-- INTERNAL: a free slot is bound, possibly put to sleep, and handed to the strategy. -/
theorem addTask_call (h : Good cfg r q k) (hcfg : WeightsOk σ cfg) {i : Fin n} {u : TId}
    (hfree : (k.tasks i).user = none) {f : KernelTask → KernelTask}
    (huser : (f (k.tasks i)).user = some u)
    (hrt : SwitchStrategy.priorityInheritanceApi σ = true → (f (k.tasks i)).rtWeight = noWeight)
    (hobj : (f (k.tasks i)).waitObj = (k.tasks i).waitObj)
    (hpending : (f (k.tasks i)).timeSleep < 0 ↔ (f (k.tasks i)).sleepPending = true) :
    Good cfg r q ((k.setTask i f).callStrategy cfg (.addTask i)).2 := by
  have hnew : ¬ (i ∈ runnable k.strategy ∨ i ∈ asleep k.strategy) := by
    rw [h.listed.mem i]
    exact not_not.mpr hfree
  have hstatic : (k.setTask i f).getWeight cfg i =
      if SwitchStrategy.weightApi σ then cfg.weight u else defaultWeight := by
    simp only [Kernel.getWeight, Kernel.setTask, Function.update_self, KernelTask.getWeight, huser,
      Option.map_some, Option.getD_some]
    split
    · next hpi => simp [hrt hpi]
    · rfl
  have hwf : SleepAware.Wf ((k.setTask i f).getWeight cfg) k.strategy := by
    refine SleepAware.congr h.listed.wf (fun j hj => ?_)
    refine Listed.weights_update_ne ?_ _
    rintro rfl
    exact hnew (Or.inl hj)
  have hw : SleepAware.WeightOk σ ((k.setTask i f).getWeight cfg i) := by
    rw [hstatic]; exact hcfg u
  have hlaw := SleepAware.addTask_law (v := (k.setTask i f).view cfg) hwf hw
    (fun hmem => hnew (Or.inl hmem)) (fun hmem => hnew (Or.inr hmem))
  have hnone : (k.tasks i).waitObj.syncObj = none := ((h.slot i).free hfree).2
  refine h.setTask_call (fun _ _ => ⟨rfl, rfl⟩) rfl hlaw (by rw [hobj]) ?_ ?_ (fun j hj => ?_) (fun _ => hw) ?_
  · simp [huser]
  · refine ⟨fun hmem => absurd (Or.inr hmem) hnew, fun hd => ?_⟩
    have := hpending.mp hd.1
    rw [hd.2] at this
    cases this
  · simp [hj]
  · refine ⟨hpending.mpr, fun hu => ?_, fun o ho => ?_, ?_⟩
    · rw [huser] at hu; cases hu
    · rw [hobj, hnone] at ho; cases ho
    · rw [hobj]; exact (h.slot i).returned

/-- INTERNAL: a task is bound and the strategy told. -/
theorem allocateAndAddNewTask (h : Good cfg r q k) (hcfg : WeightsOk σ cfg) (u : TId) :
    Good cfg r q (k.allocateAndAddNewTask cfg u) := by
  unfold Kernel.allocateAndAddNewTask
  obtain ⟨k', hk', heq | ⟨i, hfree, heq⟩⟩ := h.allocateNewTask_cases u
  · rw [heq]; exact hk'
  · rw [heq]
    refine hk'.addTask_call hcfg hfree rfl (fun hpi => by simp [bind, hpi]) rfl ?_
    have hslot := hk'.slot i
    have hpos := (hslot.free hfree).1
    refine ⟨fun hs => ?_, hslot.pending⟩
    have : (k'.tasks i).timeSleep < 0 := hs
    omega

/-- INTERNAL: a periodic task is bound and the strategy told. -/
theorem hrtAllocateAndAddNewTask (h : Good cfg r q k) (hcfg : WeightsOk σ cfg) (u : TId)
    (periodicity deadline startDelay : ℤ) :
    Good cfg r q (k.hrtAllocateAndAddNewTask cfg u periodicity deadline startDelay) := by
  have hapi : SwitchStrategy.sleepEventApi σ = true := SleepAware.sleepEventApi_eq
  unfold Kernel.hrtAllocateAndAddNewTask
  obtain ⟨k', hk', heq | ⟨i, hfree, heq⟩⟩ := h.allocateNewTask_cases u
  · rw [heq]; exact hk'
  · rw [heq]
    have hpos := ((hk'.slot i).free hfree).1
    have hnotpending : (k'.tasks i).sleepPending = false := by
      by_contra hp
      have := (hk'.slot i).pending (by simpa using hp)
      omega
    have htwice : (k'.setTask i (bind σ u)).setTask i
        (fun t => t.hrtInit (SwitchStrategy.sleepEventApi σ) periodicity deadline startDelay) =
        k'.setTask i (fun t => (bind σ u t).hrtInit true periodicity deadline startDelay) := by
      simp [Kernel.setTask, hapi]
    dsimp only
    rw [htwice]
    refine hk'.addTask_call (u := u) hcfg hfree ?_ (fun hpi => ?_) ?_ ?_
    · unfold KernelTask.hrtInit
      dsimp only
      split <;> rfl
    · unfold KernelTask.hrtInit
      dsimp only
      split <;> simp [bind, hpi, KernelTask.scheduleSleep]
    · unfold KernelTask.hrtInit
      dsimp only
      split <;> rfl
    · unfold KernelTask.hrtInit
      dsimp only
      split
      · next hd =>
        have hawake : ¬ (k'.tasks i).timeSleep < 0 := by omega
        simp [KernelTask.scheduleSleep, bind, KernelTask.isSleeping, hawake, hd]
      · simp [bind, hnotpending, hpos]

/-- INTERNAL: `RemoveTask` of a bound slot that is in no wait. -/
theorem removeTask (h : Good cfg r q k) {i : Fin n} (hbusy : (k.tasks i).user ≠ none)
    (hobj : (k.tasks i).waitObj.syncObj = none) : Good cfg r q (k.removeTask cfg i) := by
  have hlinks := (SameWaits.removeTask cfg k i).linked h.linked
  have hlaw := SleepAware.removeTask_law (σ := σ)
    (v := ({ k with exits := k.exits ++ (k.tasks i).user.toList } : Kernel n σ).view cfg)
    (s := k.strategy) (t := i) h.listed.wf ((h.listed.mem i).mpr hbusy)
  obtain ⟨s, hok, hwf, hrun, hslp⟩ := hlaw
  have hcall : (({ k with exits := k.exits ++ (k.tasks i).user.toList } : Kernel n σ).callStrategy
      cfg (.removeTask i)).2 = { k with
        exits := k.exits ++ (k.tasks i).user.toList
        strategy := s
        calls := k.calls ++
          [(({ k with exits := k.exits ++ (k.tasks i).user.toList } : Kernel n σ).view cfg,
            .removeTask i)] } := by
    unfold Kernel.callStrategy StrategyCall.apply
    dsimp only
    rw [hok]
    rfl
  have hunbind : (KernelTask.unbind cfg (k.tasks i)).user = none ∧
      (KernelTask.unbind cfg (k.tasks i)).timeSleep = 0 ∧
      (KernelTask.unbind cfg (k.tasks i)).sleepPending = false ∧
      (KernelTask.unbind cfg (k.tasks i)).waitObj = (k.tasks i).waitObj := by
    unfold KernelTask.unbind
    dsimp only
    split <;> exact ⟨rfl, rfl, rfl, rfl⟩
  obtain ⟨huser, htime, hpend, hwait⟩ := hunbind
  have hgone : i ∉ runnable s ∧ i ∉ asleep s := by simp [hrun, hslp]
  have hresult : k.removeTask cfg i = { k with
      exits := k.exits ++ (k.tasks i).user.toList
      strategy := s
      calls := k.calls ++
        [(({ k with exits := k.exits ++ (k.tasks i).user.toList } : Kernel n σ).view cfg,
          .removeTask i)]
      tasks := Function.update k.tasks i (KernelTask.unbind cfg (k.tasks i))
      call := Function.update k.call i none } := by
    unfold Kernel.removeTask
    dsimp only
    rw [hcall]
    simp [KernelTask.isWaiting, hobj, Kernel.setTask]
  rw [hresult] at hlinks ⊢
  refine ⟨h.listed.move ?_ ?_ ?_ (fun j hj => ?_) (fun hne => absurd huser hne), hlinks,
    fun j => ?_, fun hnow j => ?_, h.clean⟩
  · refine SleepAware.congr hwf (fun j hj => ?_)
    refine Listed.weights_update_ne ?_ _
    rintro rfl
    exact hgone.1 hj
  · simp [hgone, huser]
  · simp [hgone, Delivered, htime]
  · simp [hrun, hslp, hj]
  · by_cases hj : j = i
    · subst hj
      simp only [Function.update_self]
      refine ⟨by simp [hpend], fun _ => ⟨by omega, by rw [hwait]; exact hobj⟩, fun o ho => ?_,
        by simp⟩
      rw [hwait, hobj] at ho
      cases ho
    · simpa [hj] using h.slot j
  · by_cases hj : j = i
    · subst hj; simp [hwait, hobj]
    · simpa [hj] using h.idle hnow j

end Good

end Stk.Analysis
