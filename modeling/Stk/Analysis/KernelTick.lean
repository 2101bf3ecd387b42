import Stk.Analysis.KernelSlots

/-!
# The tick

`OnTick` in four phases: the tick is charged to every slot (`Good.charge`), the wait
objects pay it in `UpdateSyncObjects`, the sleep counters pay it in `UpdateTaskState`,
and the FSM picks the next task when no sleep event is left to deliver.
-/

set_option autoImplicit false

namespace Stk.Analysis

open Stk.Model Stk.Model.Kernel

namespace SlotOk

variable {ticks r q e : ℤ} {t : KernelTask} {c : Option WaitCall}

/-- INTERNAL: a tick of `e` ticks is charged to a slot; an infinite wait must outlive it. -/
theorem charge (h : SlotOk ticks 0 0 t c) (he : 0 ≤ e)
    (hinf : t.waitObj.syncObj ≠ none → t.waitObj.timeWait = waitInfinite → t.timeSleep + e < 0) :
    SlotOk (ticks + e) e e t c where
  pending := h.pending
  free := h.free
  waiting o ho := by
    have hw := h.waiting o ho
    obtain ⟨w, hc, hobj, hwoken, htime⟩ := hw.call
    refine ⟨hw.live, hw.fresh, hw.bound, ?_, fun hne => ?_, hinf (by simp [ho]),
      ⟨w, hc, hobj, hwoken, fun hne => ?_⟩⟩
    · have := hw.asleep
      omega
    · have := hw.finite hne
      omega
    · have := htime hne
      omega
  returned ho w hw := by
    obtain ⟨hwoken, htime⟩ := h.returned ho w hw
    refine ⟨hwoken, fun ht => ?_⟩
    have := htime ht
    omega

/-- INTERNAL: a wait object that has counted down and not run out. -/
theorem paidWait (h : SlotOk ticks e e t c) (he : 0 ≤ e) {o : SyncId}
    (ho : t.waitObj.syncObj = some o)
    (hout : t.waitObj.timeWait ≠ waitInfinite → 0 < t.waitObj.timeWait - e) :
    SlotOk ticks 0 e { t with waitObj := { t.waitObj with
      timeWait := if t.waitObj.timeWait = waitInfinite then t.waitObj.timeWait
        else t.waitObj.timeWait - e } } c where
  pending := h.pending
  free hu := h.free hu
  waiting o' ho' := by
    obtain rfl : o = o' := Option.some.inj (ho.symm.trans ho')
    have hw := h.waiting o ho
    obtain ⟨w, hc, hobj, hwoken, htime⟩ := hw.call
    have hbound := hw.bound
    have hasleep := hw.asleep
    by_cases hinf : t.waitObj.timeWait = waitInfinite
    · have hlong := hw.infinite hinf
      refine ⟨hw.live, hw.fresh, by simp [hinf], by simpa using hlong, ?_, fun _ => hlong,
        ⟨w, hc, hobj, hwoken, ?_⟩⟩
      · intro hne; simp [hinf] at hne
      · intro hne; simp [hinf] at hne
    · have hfin := hw.finite hinf
      have hleft := hout hinf
      have hcall := htime hinf
      refine ⟨hw.live, hw.fresh, ?_, ?_, fun _ => ?_, fun heq => ?_, ⟨w, hc, hobj, hwoken, fun _ => ?_⟩⟩
      · simp only [hinf, ↓reduceIte]; omega
      · dsimp only; omega
      · simp only [hinf, ↓reduceIte]; omega
      · simp only [hinf, ↓reduceIte] at heq
        omega
      · simp only [hinf, ↓reduceIte]; omega
  returned hnone := by
    rw [ho] at hnone
    cases hnone

/-- INTERNAL: a sleep counter that has counted up, its sleep event delivered. -/
theorem paidSleep (h : SlotOk ticks 0 e t c) (hs : t.timeSleep < 0)
    (hpending : t.sleepPending = false) :
    SlotOk ticks 0 0 { t with timeSleep := t.timeSleep + e } c where
  pending hp := by rw [hpending] at hp; cases hp
  free hu := by
    have := (h.free hu).1
    omega
  waiting o ho := by
    have hw := h.waiting o ho
    refine ⟨hw.live, hw.fresh, hw.bound, ?_, fun hne => ?_, fun heq => ?_, hw.call⟩
    · have := hw.asleep
      dsimp only
      omega
    · have := hw.finite hne
      dsimp only
      omega
    · have := hw.infinite heq
      dsimp only
      omega
  returned := h.returned

end SlotOk

variable {n : ℕ} {σ : Type} [SwitchStrategy (Fin n) σ] [StrategyLists (Fin n) σ]
  [SleepAware (Fin n) σ] {cfg : Config} {r q : Fin n → ℤ} {k : Kernel n σ} {e : ℤ}

namespace Good

/-- INTERNAL: only the slots depend on what is charged to them. -/
theorem reslot (h : Good cfg r q k) {r' q' : Fin n → ℤ}
    (hslot : ∀ i, SlotOk k.ticks (r' i) (q' i) (k.tasks i) (k.call i)) : Good cfg r' q' k :=
  ⟨h.listed, h.linked, hslot, h.idle, h.clean⟩

/-- INTERNAL: the tick is charged to the sleeps and the waits before any of them is advanced. -/
theorem charge (h : Good cfg (fun _ => 0) (fun _ => 0) k) (he : 0 ≤ e)
    (hinf : ∀ i, (k.tasks i).waitObj.syncObj ≠ none →
      (k.tasks i).waitObj.timeWait = waitInfinite → (k.tasks i).timeSleep + e < 0) :
    Good cfg (fun _ => e) (fun _ => e) { k with ticks := k.ticks + e } where
  listed := h.listed
  linked := ⟨h.linked.mem, h.linked.nodup, h.linked.syncNodup, h.linked.registered⟩
  slot i := (h.slot i).charge he (hinf i)
  idle := h.idle
  clean := h.clean

/-! ## Sync objects -/

omit [SwitchStrategy (Fin n) σ] [StrategyLists (Fin n) σ] [SleepAware (Fin n) σ] in
/-- INTERNAL: one wait object in `ISyncObject::Tick`: it times out, or it counts down. -/
theorem tickWaitObj_eq {i : Fin n} {o : SyncId} (ho : (k.tasks i).waitObj.syncObj = some o)
    (hfresh : (k.tasks i).waitObj.timeout = false) :
    Kernel.tickWaitObj e k i =
      if (k.tasks i).waitObj.timeWait ≠ waitInfinite ∧ (k.tasks i).waitObj.timeWait - e ≤ 0 then
        k.wakeWaitObj i true
      else k.setTask i (fun t => { t with waitObj := { t.waitObj with
        timeWait := if t.waitObj.timeWait = waitInfinite then t.waitObj.timeWait
          else t.waitObj.timeWait - e } }) := by
  by_cases hinf : (k.tasks i).waitObj.timeWait = waitInfinite
  · have htick : (k.tasks i).tickWaitObj e = k.tasks i := by
      simp [KernelTask.tickWaitObj, hinf]
    rw [if_neg (by simp [hinf])]
    unfold Kernel.tickWaitObj
    dsimp only
    rw [if_neg (by simp [Kernel.setTask, htick, hfresh])]
    simp only [Kernel.setTask, htick, if_pos hinf]
  · have htick : (k.tasks i).tickWaitObj e = { k.tasks i with waitObj := { (k.tasks i).waitObj with
        timeWait := (k.tasks i).waitObj.timeWait - e
        timeout := decide ((k.tasks i).waitObj.timeWait - e ≤ 0) } } := by
      simp only [KernelTask.tickWaitObj, hinf, hfresh, ne_eq, not_false_eq_true, ↓reduceIte,
        Bool.not_false]
      split
      · next hout => simp [hout]
      · next hout => simp [hout]
    by_cases hout : (k.tasks i).waitObj.timeWait - e ≤ 0
    · rw [if_pos ⟨hinf, hout⟩, wakeWaitObj_eq ho]
      unfold Kernel.tickWaitObj
      dsimp only
      rw [if_pos (by simp [Kernel.setTask, htick, hout])]
      rw [wakeWaitObj_eq (o := o) (by simp [Kernel.setTask, htick, ho])]
      simp [Kernel.setTask, htick, KernelTask.isSleeping]
    · rw [if_neg (fun hc => hout hc.2)]
      unfold Kernel.tickWaitObj
      dsimp only
      rw [if_neg (by simp only [Kernel.setTask, htick, Function.update_self]; simpa using hout)]
      simp only [Kernel.setTask, htick, hinf, ↓reduceIte, hfresh]
      simp [hout]

/-- INTERNAL: ticking one wait object pays its share of the tick. -/
theorem tickWaitObj (h : Good cfg r (fun _ => e) k) (he : 0 ≤ e) {i : Fin n} {o : SyncId}
    (ho : (k.tasks i).waitObj.syncObj = some o) (hr : r i = e) :
    Good cfg (Function.update r i 0) (fun _ => e) (Kernel.tickWaitObj e k i) := by
  have hslot := h.slot i
  rw [hr] at hslot
  have hw := hslot.waiting o ho
  have hrq : ∀ j, j ≠ i → Function.update r i 0 j = r j ∧ e = e :=
    fun j hj => ⟨Function.update_of_ne hj _ _, rfl⟩
  rw [tickWaitObj_eq ho hw.fresh]
  split
  · next hout =>
    have hwake : Good cfg r (fun _ => e) (k.wakeWaitObj i true) := by
      refine h.wakeWaitObj ho (hslot.sleeping ho) true (fun _ w hcall => ?_)
      obtain ⟨w', hw', -, -, htime⟩ := hw.call
      obtain rfl : w' = w := Option.some.inj (hw'.symm.trans hcall)
      have := htime hout.1
      omega
    refine hwake.reslot (fun j => ?_)
    by_cases hj : j = i
    · subst hj
      refine (hwake.slot j).rest ?_ le_rfl
      rw [wakeWaitObj_eq ho]
      simp
    · rw [Function.update_of_ne hj]
      exact hwake.slot j
  · next hout =>
    refine h.setTask_charge hrq rfl rfl rfl Iff.rfl ?_
    rw [Function.update_self]
    refine hslot.paidWait he ho (fun hne => ?_)
    by_contra hle
    exact hout ⟨hne, by omega⟩

omit [SwitchStrategy (Fin n) σ] [StrategyLists (Fin n) σ] [SleepAware (Fin n) σ] in
/-- INTERNAL: ticking a wait object of `o` changes no other slot's wait object and no
other list. -/
theorem tickWaitObj_frame {i : Fin n} {o : SyncId} (ho : (k.tasks i).waitObj.syncObj = some o)
    (hfresh : (k.tasks i).waitObj.timeout = false) :
    (∀ j, j ≠ i → (Kernel.tickWaitObj e k i).tasks j = k.tasks j) ∧
    (∀ o', o' ≠ o → (Kernel.tickWaitObj e k i).waitList o' = k.waitList o') ∧
    (∀ j ∈ (Kernel.tickWaitObj e k i).waitList o, j ∈ k.waitList o) ∧
    (Kernel.tickWaitObj e k i).syncList = k.syncList := by
  rw [tickWaitObj_eq ho hfresh]
  split
  · rw [wakeWaitObj_eq ho]
    refine ⟨fun j hj => by simp [hj], fun o' ho' => by simp [ho'], fun j hj => ?_, rfl⟩
    simp only [Function.update_self] at hj
    exact List.mem_of_mem_erase hj
  · exact ⟨fun j hj => by simp [Kernel.setTask, hj], fun _ _ => rfl, fun _ hj => hj, rfl⟩

/-- INTERNAL: the loop of `ISyncObject::Tick` over wait objects of `o`. -/
theorem tickWaitObjs (he : 0 ≤ e) (o : SyncId) (l : List (Fin n)) :
    ∀ {r : Fin n → ℤ} {k : Kernel n σ}, Good cfg r (fun _ => e) k → l.Nodup →
      (∀ i ∈ l, (k.tasks i).waitObj.syncObj = some o ∧ r i = e) →
      Good cfg (fun j => if j ∈ l then 0 else r j) (fun _ => e) (l.foldl (Kernel.tickWaitObj e) k) ∧
        (∀ o', o' ≠ o → (l.foldl (Kernel.tickWaitObj e) k).waitList o' = k.waitList o') ∧
        (∀ j ∈ (l.foldl (Kernel.tickWaitObj e) k).waitList o, j ∈ k.waitList o) := by
  induction l with
  | nil =>
    intro r k h _ _
    exact ⟨h.reslot (by simpa using h.slot), fun _ _ => rfl, fun _ hj => hj⟩
  | cons i l ih =>
    intro r k h hnd hl
    obtain ⟨hnotin, hnd'⟩ := List.nodup_cons.mp hnd
    obtain ⟨ho, hr⟩ := hl i List.mem_cons_self
    have hslot := h.slot i
    rw [hr] at hslot
    obtain ⟨htasks, hlists, hsub, -⟩ := tickWaitObj_frame (e := e) ho (hslot.waiting o ho).fresh
    have hrest : ∀ j ∈ l, ((Kernel.tickWaitObj e k i).tasks j).waitObj.syncObj = some o ∧
        Function.update r i 0 j = e := by
      intro j hj
      have hne : j ≠ i := fun heq => hnotin (heq ▸ hj)
      rw [htasks j hne, Function.update_of_ne hne]
      exact hl j (List.mem_cons_of_mem i hj)
    obtain ⟨hgood, hlists', hsub'⟩ := ih (h.tickWaitObj he ho hr) hnd' hrest
    refine ⟨hgood.reslot (fun j => ?_), fun o' ho' => (hlists' o' ho').trans (hlists o' ho'),
      fun j hj => hsub j (hsub' j hj)⟩
    have hj := hgood.slot j
    by_cases hji : j = i
    · subst hji
      simpa [hnotin] using hj
    · by_cases hjl : j ∈ l
      · simpa [hjl] using hj
      · simpa [hjl, hji] using hj

/-- INTERNAL: an object without waiters is taken off the kernel's list. -/
theorem dropSync (h : Good cfg r q k) {o : SyncId} (hnil : k.waitList o = []) :
    Good cfg r q { k with syncList := k.syncList.erase o } := by
  refine ⟨h.listed, ⟨h.linked.mem, h.linked.nodup, h.linked.syncNodup.erase o, fun o' hne => ?_⟩,
    h.slot, h.idle, h.clean⟩
  have hne' : o' ≠ o := by
    rintro rfl
    exact hne hnil
  exact (List.mem_erase_of_ne hne').mpr (h.linked.registered o' hne)

/-- One object of the loop in `UpdateSyncObjects`. -/
def tickObject (e : ℤ) (k : Kernel n σ) (o : SyncId) : Kernel n σ :=
  let k := tickSyncObject e k o
  if k.waitList o = [] then { k with syncList := k.syncList.erase o } else k

/-- INTERNAL: the loop of `UpdateSyncObjects` over a part of the kernel's list. -/
theorem tickSyncObjects (he : 0 ≤ e) (l : List SyncId) :
    ∀ {r : Fin n → ℤ} {k : Kernel n σ}, Good cfg r (fun _ => e) k → l.Nodup →
      (∀ o ∈ l, ∀ i ∈ k.waitList o, r i = e) →
      ∃ r', Good cfg r' (fun _ => e) (l.foldl (tickObject e) k) ∧
        ∀ o i, i ∈ (l.foldl (tickObject e) k).waitList o →
          (o ∈ l → r' i = 0) ∧ (o ∉ l → i ∈ k.waitList o ∧ r' i = r i) := by
  induction l with
  | nil =>
    intro r k h _ _
    exact ⟨r, h, fun o i hi => ⟨by simp, fun _ => ⟨hi, rfl⟩⟩⟩
  | cons o l ih =>
    intro r k h hnd hl
    obtain ⟨hnotin, hnd'⟩ := List.nodup_cons.mp hnd
    have hwaiters : ∀ i ∈ k.waitList o, (k.tasks i).waitObj.syncObj = some o ∧ r i = e :=
      fun i hi => ⟨(h.linked.mem i o).mpr hi, hl o List.mem_cons_self i hi⟩
    obtain ⟨hgood, hlists, hsub⟩ := tickWaitObjs he o _ h (h.linked.nodup o) hwaiters
    -- a slot in another list is not in the list of `o`
    have hapart : ∀ o' i, o' ≠ o → i ∈ k.waitList o' → i ∉ k.waitList o := by
      intro o' i hne hi hmem
      rw [← h.linked.mem] at hi hmem
      exact hne (Option.some.inj (hi.symm.trans hmem))
    have hstep : Good cfg (fun j => if j ∈ k.waitList o then 0 else r j) (fun _ => e)
        (tickObject e k o) ∧ (tickObject e k o).waitList = (tickSyncObject e k o).waitList := by
      unfold tickObject
      dsimp only
      split
      · next hnil => exact ⟨dropSync hgood hnil, rfl⟩
      · exact ⟨hgood, rfl⟩
    have hother : ∀ o', o' ≠ o → (tickObject e k o).waitList o' = k.waitList o' := by
      intro o' hne
      rw [hstep.2]
      exact hlists o' hne
    obtain ⟨r', hgood', hr'⟩ := ih hstep.1 hnd' (fun o' ho' i hi => by
      have hne : o' ≠ o := fun heq => hnotin (heq ▸ ho')
      rw [hother o' hne] at hi
      rw [if_neg (hapart o' i hne hi)]
      exact hl o' (List.mem_cons_of_mem o ho') i hi)
    refine ⟨r', hgood', fun o' i hi => ?_⟩
    obtain ⟨hin, hout⟩ := hr' o' i hi
    constructor
    · intro hmem
      by_cases hl' : o' ∈ l
      · exact hin hl'
      · obtain rfl : o' = o := (List.mem_cons.mp hmem).resolve_right hl'
        obtain ⟨hi', heq⟩ := hout hl'
        rw [hstep.2] at hi'
        rw [heq, if_pos (hsub i hi')]
    · intro hmem
      obtain ⟨hne, hl'⟩ := not_or.mp (List.mem_cons.not.mp hmem)
      obtain ⟨hi', heq⟩ := hout hl'
      rw [hother o' hne] at hi'
      rw [if_neg (hapart o' i hne hi')] at heq
      exact ⟨hi', heq⟩

/-- INTERNAL: after `UpdateSyncObjects` every wait object has paid. -/
theorem updateSyncObjects (h : Good cfg (fun _ => e) (fun _ => e) k) (he : 0 ≤ e) :
    Good cfg (fun _ => 0) (fun _ => e) (k.updateSyncObjects e) := by
  obtain ⟨r', hgood, hr'⟩ := tickSyncObjects he k.syncList h h.linked.syncNodup (fun _ _ _ _ => rfl)
  refine Good.reslot (k := k.updateSyncObjects e) hgood (fun i => ?_)
  have hslot := hgood.slot i
  show SlotOk (k.syncList.foldl (tickObject e) k).ticks 0 e
    ((k.syncList.foldl (tickObject e) k).tasks i) ((k.syncList.foldl (tickObject e) k).call i)
  cases ho : ((k.syncList.foldl (tickObject e) k).tasks i).waitObj.syncObj with
  | none => exact hslot.rest ho le_rfl
  | some o =>
    obtain ⟨hin, hout⟩ := hr' o i ((hgood.linked.mem i o).mp ho)
    by_cases hmem : o ∈ k.syncList
    · rw [hin hmem] at hslot
      exact hslot
    · obtain ⟨hi, -⟩ := hout hmem
      exact absurd (h.linked.registered o (List.ne_nil_of_mem hi)) hmem

/-! ## Requests and slots -/

/-- INTERNAL: requests are served. -/
theorem updateTaskRequest (h : Good cfg r q k) (hcfg : WeightsOk σ cfg) :
    Good cfg r q (k.updateTaskRequest cfg) := by
  unfold Kernel.updateTaskRequest
  split
  · refine Runs.foldl_keeps (I := Good cfg r q) (fun k i _ h => ?_)
      ⟨h.listed, ⟨h.linked.mem, h.linked.nodup, h.linked.syncNodup, h.linked.registered⟩, h.slot,
        h.idle, h.clean⟩
    split
    · exact h
    · next u _ =>
      have hadd := h.allocateAndAddNewTask hcfg u
      exact hadd.setTask rfl rfl rfl Iff.rfl ((hadd.slot i).frame rfl rfl rfl rfl rfl)
  · exact h

/-- INTERNAL: the strategy is told of a sleep that has begun. -/
theorem deliverSleep (h : Good cfg r q k) {i : Fin n} (hs : (k.tasks i).timeSleep < 0) :
    Good cfg r q (k.deliverSleep cfg i) := by
  have hapi : SwitchStrategy.sleepEventApi σ = true := SleepAware.sleepEventApi_eq
  unfold Kernel.deliverSleep
  by_cases hp : (k.tasks i).sleepPending = true
  · rw [if_pos (by simp [hapi, hp])]
    have hbusy := (h.slot i).busy_of_sleeping hs
    have hnot : i ∉ asleep k.strategy := by
      rw [h.listed.asleep i]
      rintro ⟨-, hpf⟩
      rw [hp] at hpf
      cases hpf
    have hrun := ((h.listed.mem i).mpr hbusy).resolve_right hnot
    have hwf : SleepAware.Wf
        ((k.setTask i (fun t => { t with sleepPending := false })).getWeight cfg) k.strategy := by
      refine SleepAware.congr h.listed.wf (fun j _ => ?_)
      by_cases hj : j = i
      · subst hj
        simp [Kernel.getWeight, Kernel.setTask, KernelTask.getWeight, weights]
      · exact Listed.weights_update_ne hj _
    have hlaw := SleepAware.onTaskSleep_law
      (v := (k.setTask i (fun t => { t with sleepPending := false })).view cfg) hwf hrun (by
        simpa [Kernel.view, Kernel.setTask, KernelTask.isSleeping] using hs)
    refine h.setTask_call (fun _ _ => ⟨rfl, rfl⟩) rfl hlaw rfl ?_ ?_ (fun j hj => ?_)
      (fun _ => ?_) ?_
    · simp [hbusy]
    · simp [Delivered, hs]
    · simp [hj]
    · have := h.listed.weight i hbusy
      simpa [Kernel.getWeight, Kernel.setTask, KernelTask.getWeight, weights] using this
    · refine ⟨by simp, (h.slot i).free, fun o ho => ?_, (h.slot i).returned⟩
      have hw := (h.slot i).waiting o ho
      exact ⟨hw.live, hw.fresh, hw.bound, hw.asleep, hw.finite, hw.infinite, hw.call⟩
  · rw [if_neg (by simp [hp])]
    exact h

omit [SleepAware (Fin n) σ] [StrategyLists (Fin n) σ] in
/-- INTERNAL: a strategy call writes neither slots nor the FSM. -/
@[simp] theorem callStrategy_tasks (c : StrategyCall (Fin n)) :
    (k.callStrategy cfg c).2.tasks = k.tasks := by
  unfold Kernel.callStrategy
  split <;> rfl

omit [SleepAware (Fin n) σ] [StrategyLists (Fin n) σ] in
/-- INTERNAL: a call of the strategy leaves `m_task_now`. -/
@[simp] theorem callStrategy_taskNow (c : StrategyCall (Fin n)) :
    (k.callStrategy cfg c).2.taskNow = k.taskNow := by
  unfold Kernel.callStrategy
  split <;> rfl

omit [SleepAware (Fin n) σ] [StrategyLists (Fin n) σ] in
/-- INTERNAL: a call of the strategy leaves the state of the machine. -/
@[simp] theorem callStrategy_fsmState (c : StrategyCall (Fin n)) :
    (k.callStrategy cfg c).2.fsmState = k.fsmState := by
  unfold Kernel.callStrategy
  split <;> rfl

/-- INTERNAL: the slots after `deliverSleep`. -/
theorem deliverSleep_tasks (cfg : Config) (k : Kernel n σ) (i : Fin n) :
    (k.deliverSleep cfg i).tasks =
      Function.update k.tasks i { k.tasks i with sleepPending := false } := by
  have hapi : SwitchStrategy.sleepEventApi σ = true := SleepAware.sleepEventApi_eq
  unfold Kernel.deliverSleep
  by_cases hp : (k.tasks i).sleepPending = true
  · rw [if_pos (by simp [hapi, hp])]
    simp [Kernel.setTask]
  · rw [if_neg (by simp [hp])]
    have hfalse : (k.tasks i).sleepPending = false := by simpa using hp
    rw [← hfalse]
    exact (Function.update_eq_self i k.tasks).symm

/-- INTERNAL: a tick of a sleep. -/
theorem advanceSleep (h : Good cfg (fun _ => 0) q k) {i : Fin n} (hq : q i = e)
    (hs : (k.tasks i).timeSleep < 0) (hp : (k.tasks i).sleepPending = false) :
    Good cfg (fun _ => 0) (Function.update q i 0) (k.advanceSleep cfg e i) := by
  have hapi : SwitchStrategy.sleepEventApi σ = true := SleepAware.sleepEventApi_eq
  have hbusy := (h.slot i).busy_of_sleeping hs
  have hrq : ∀ j, j ≠ i → (0 : ℤ) = 0 ∧ Function.update q i 0 j = q j :=
    fun j hj => ⟨rfl, Function.update_of_ne hj _ _⟩
  have hslot : SlotOk k.ticks 0 (Function.update q i 0 i)
      { k.tasks i with timeSleep := (k.tasks i).timeSleep + e } (k.call i) := by
    rw [Function.update_self]
    exact (hq ▸ h.slot i).paidSleep hs hp
  have hweights : (k.setTask i (fun t => { t with timeSleep := t.timeSleep + e })).getWeight cfg =
      weights σ cfg k.tasks := by
    funext j
    by_cases hj : j = i
    · subst hj
      simp [Kernel.getWeight, Kernel.setTask, KernelTask.getWeight, weights]
    · exact Listed.weights_update_ne hj _
  unfold Kernel.advanceSleep
  dsimp only
  by_cases hstill : (k.tasks i).timeSleep + e < 0
  · rw [if_neg (by simp [Kernel.setTask, KernelTask.isSleeping, hstill])]
    refine h.setTask_charge hrq rfl rfl rfl ?_ hslot
    simp [Delivered, hs, hp, hstill]
  · rw [if_pos (by simpa [Kernel.setTask, KernelTask.isSleeping, hapi] using hstill)]
    have hasleep : i ∈ asleep k.strategy := (h.listed.asleep i).mpr ⟨hs, hp⟩
    have hlaw := SleepAware.onTaskWake_law
      (v := (k.setTask i (fun t => { t with timeSleep := t.timeSleep + e })).view cfg)
      (s := k.strategy) (t := i) (show SleepAware.Wf
        ((k.setTask i (fun t => { t with timeSleep := t.timeSleep + e })).getWeight cfg) k.strategy by
          rw [hweights]; exact h.listed.wf) hasleep
      (show SleepAware.WeightOk σ
        ((k.setTask i (fun t => { t with timeSleep := t.timeSleep + e })).getWeight cfg i) by
          rw [hweights]; exact h.listed.weight i hbusy)
      (by simpa [Kernel.view, Kernel.setTask, KernelTask.isSleeping] using hstill)
    refine h.setTask_call hrq rfl hlaw rfl ?_ ?_ (fun j hj => ?_) (fun _ => ?_) hslot
    · simp [hbusy]
    · simp [Delivered, hstill]
    · simp [hj]
    · rw [hweights]; exact h.listed.weight i hbusy

omit [SleepAware (Fin n) σ] [StrategyLists (Fin n) σ] in
/-- INTERNAL: the slots after `advanceSleep`. -/
theorem advanceSleep_tasks (cfg : Config) (k : Kernel n σ) (e : ℤ) (i : Fin n) :
    (k.advanceSleep cfg e i).tasks =
      Function.update k.tasks i { k.tasks i with timeSleep := (k.tasks i).timeSleep + e } := by
  unfold Kernel.advanceSleep
  dsimp only
  split
  · simp [Kernel.setTask]
  · rfl

/-- INTERNAL: a tick of a job. -/
theorem advanceDuration (h : Good cfg r q k) (i : Fin n) :
    Good cfg r q (k.advanceDuration cfg e i) := by
  unfold Kernel.advanceDuration
  split
  · have hset := h.setTask (i := i)
      (f := fun t => { t with hrt := { t.hrt with duration := t.hrt.duration + e } })
      rfl rfl rfl Iff.rfl ((h.slot i).frame rfl rfl rfl rfl rfl)
    dsimp only
    split
    · exact hset.fault rfl
    · exact hset
  · exact h

end Good

/-! ## `UpdateTaskState` -/

/-- What one iteration of the loop in `UpdateTaskState` leaves behind: it writes slot `i`
only, delivers its sleep event, and unbinds it only if it is not the current task or is
the last one left. -/
structure SlotUpdate (cfg : Config) (i : Fin n) (k k' : Kernel n σ) : Prop where
  other : ∀ j, j ≠ i → k'.tasks j = k.tasks j
  delivered : (k'.tasks i).sleepPending = false
  taskNow : k'.taskNow = k.taskNow
  fsmState : k'.fsmState = k.fsmState
  user : (k'.tasks i).user = (k.tasks i).user ∨
    ((k'.tasks i).user = none ∧ cfg.isDynamicMode = true ∧
      (k.taskNow ≠ some i ∨ SwitchStrategy.getSize k.strategy = 1))

omit [SleepAware (Fin n) σ] [StrategyLists (Fin n) σ] in
/-- INTERNAL: `RemoveTask` unbinds its slot and writes no other. -/
theorem removeTask_frame (cfg : Config) (k : Kernel n σ) (i : Fin n) :
    (∀ j, j ≠ i → (k.removeTask cfg i).tasks j = k.tasks j) ∧
      ((k.removeTask cfg i).tasks i).sleepPending = false ∧
      ((k.removeTask cfg i).tasks i).user = none ∧
      (k.removeTask cfg i).taskNow = k.taskNow ∧ (k.removeTask cfg i).fsmState = k.fsmState := by
  have hunbind : ∀ t : KernelTask, (t.unbind cfg).sleepPending = false ∧ (t.unbind cfg).user = none := by
    intro t
    unfold KernelTask.unbind
    dsimp only
    split <;> exact ⟨rfl, rfl⟩
  unfold Kernel.removeTask
  dsimp only
  split
  · exact ⟨fun j hj => by simp [Kernel.setTask, Kernel.fault, hj],
      by simp [Kernel.setTask, Kernel.fault, hunbind], by simp [Kernel.setTask, Kernel.fault, hunbind],
      by simp [Kernel.setTask, Kernel.fault], by simp [Kernel.setTask, Kernel.fault]⟩
  · exact ⟨fun j hj => by simp [Kernel.setTask, hj], by simp [Kernel.setTask, hunbind],
      by simp [Kernel.setTask, hunbind], by simp [Kernel.setTask], by simp [Kernel.setTask]⟩

omit [SleepAware (Fin n) σ] [StrategyLists (Fin n) σ] in
/-- INTERNAL: a report of a sleep leaves the state machine alone. -/
theorem deliverSleep_fsm (i : Fin n) :
    (k.deliverSleep cfg i).taskNow = k.taskNow ∧ (k.deliverSleep cfg i).fsmState = k.fsmState := by
  unfold Kernel.deliverSleep
  split
  · simp [Kernel.setTask]
  · exact ⟨rfl, rfl⟩

omit [SleepAware (Fin n) σ] [StrategyLists (Fin n) σ] in
/-- INTERNAL: a tick of a sleep leaves the state machine alone. -/
theorem advanceSleep_fsm (i : Fin n) :
    (k.advanceSleep cfg e i).taskNow = k.taskNow ∧ (k.advanceSleep cfg e i).fsmState = k.fsmState := by
  unfold Kernel.advanceSleep
  dsimp only
  split
  · simp [Kernel.setTask]
  · exact ⟨rfl, rfl⟩

omit [SleepAware (Fin n) σ] [StrategyLists (Fin n) σ] [SwitchStrategy (Fin n) σ] in
/-- INTERNAL: a tick of a job leaves the other slots, the binding and the state machine. -/
theorem advanceDuration_frame (cfg : Config) (k : Kernel n σ) (e : ℤ) (i : Fin n) :
    (∀ j, j ≠ i → (k.advanceDuration cfg e i).tasks j = k.tasks j) ∧
      ((k.advanceDuration cfg e i).tasks i).sleepPending = (k.tasks i).sleepPending ∧
      ((k.advanceDuration cfg e i).tasks i).user = (k.tasks i).user ∧
      ((k.advanceDuration cfg e i).tasks i).waitObj = (k.tasks i).waitObj ∧
      (k.advanceDuration cfg e i).taskNow = k.taskNow ∧
      (k.advanceDuration cfg e i).fsmState = k.fsmState := by
  unfold Kernel.advanceDuration
  split
  · dsimp only
    split
    · exact ⟨fun j hj => by simp [Kernel.setTask, Kernel.fault, hj], by simp [Kernel.setTask, Kernel.fault],
        by simp [Kernel.setTask, Kernel.fault], by simp [Kernel.setTask, Kernel.fault], rfl, rfl⟩
    · exact ⟨fun j hj => by simp [Kernel.setTask, hj], by simp [Kernel.setTask],
        by simp [Kernel.setTask], by simp [Kernel.setTask], rfl, rfl⟩
  · exact ⟨fun _ _ => rfl, rfl, rfl, rfl, rfl, rfl⟩

/-- INTERNAL: one iteration of the loop in `UpdateTaskState` (stk.h:1950-2036). -/
theorem updateSlot_good (h : Good cfg (fun _ => 0) q k) (he : 0 < e) {i : Fin n} (hq : q i = e)
    (t : ℤ) :
    Good cfg (fun _ => 0) (Function.update q i 0) (updateSlot cfg e (k, t) i).1 ∧
      SlotUpdate cfg i k (updateSlot cfg e (k, t) i).1 := by
  have hslot := h.slot i
  rw [hq] at hslot
  have hawake : ¬ (k.tasks i).timeSleep < 0 → (k.tasks i).waitObj.syncObj = none := by
    intro hs
    cases ho : (k.tasks i).waitObj.syncObj with
    | none => rfl
    | some o =>
      have := (hslot.waiting o ho).asleep
      omega
  unfold updateSlot
  dsimp only
  by_cases hs : (k.tasks i).timeSleep < 0
  · have hsleeping : (k.tasks i).isSleeping = true := by simpa [KernelTask.isSleeping] using hs
    by_cases hrem : k.isRemovable cfg i = true
    · -- the slot is removed
      rw [if_pos (by simp [hsleeping, hrem])]
      have hcond : cfg.isDynamicMode = true ∧ (k.tasks i).removePending = true ∧
          (k.taskNow ≠ some i ∨ SwitchStrategy.getSize k.strategy = 1) := by
        simp only [isRemovable, Bool.and_eq_true, Bool.or_eq_true, decide_eq_true_eq] at hrem
        exact ⟨hrem.1.1, hrem.1.2, hrem.2.imp_right (fun hc => hc.1)⟩
      have hobj : (k.tasks i).waitObj.syncObj = none := by
        cases ho : (k.tasks i).waitObj.syncObj with
        | none => rfl
        | some o =>
          have := (hslot.waiting o ho).live
          rw [hcond.2.1] at this
          cases this
      have hgood := h.removeTask (hslot.busy_of_sleeping hs) hobj
      obtain ⟨hother, hpend, huser, hnow, hfsm⟩ := removeTask_frame cfg k i
      have hobj' : ((k.removeTask cfg i).tasks i).waitObj.syncObj = none := by
        rw [(SameWaits.removeTask cfg k i).waitObj i]; exact hobj
      refine ⟨hgood.reslot (fun j => ?_), hother, hpend, hnow, hfsm,
        Or.inr ⟨huser, hcond.1, hcond.2.2⟩⟩
      by_cases hj : j = i
      · subst hj; exact (hgood.slot j).rest hobj' le_rfl
      · rw [Function.update_of_ne hj]; exact hgood.slot j
    · -- the slot sleeps on or wakes up
      rw [if_neg (by simp [hrem]), if_pos hsleeping]
      have hdel := h.deliverSleep hs
      have htasks := Good.deliverSleep_tasks cfg k i
      have hadv := hdel.advanceSleep hq (by simpa [htasks] using hs) (by simp [htasks])
      have htasks' := Good.advanceSleep_tasks cfg (k.deliverSleep cfg i) e i
      rw [htasks] at htasks'
      refine ⟨hadv, fun j hj => ?_, ?_, ?_, ?_, Or.inl ?_⟩
      · simp [htasks', hj]
      · simp [htasks']
      · rw [(advanceSleep_fsm i).1, (deliverSleep_fsm i).1]
      · rw [(advanceSleep_fsm i).2, (deliverSleep_fsm i).2]
      · simp [htasks']
  · -- the slot does not sleep
    have hsleeping : (k.tasks i).isSleeping = false := by simpa [KernelTask.isSleeping] using hs
    rw [if_neg (by simp [hsleeping]), if_neg (by simp [hsleeping])]
    have hgood := h.advanceDuration (e := e) i
    obtain ⟨hother, hpend, huser, hwait, hnow, hfsm⟩ :=
      advanceDuration_frame cfg k e i
    have hfalse : (k.tasks i).sleepPending = false := by
      by_contra hp
      exact hs (hslot.pending (by simpa using hp))
    refine ⟨hgood.reslot (fun j => ?_), hother, hpend.trans hfalse, hnow, hfsm, Or.inl huser⟩
    by_cases hj : j = i
    · subst hj
      exact (hgood.slot j).rest (by rw [hwait]; exact hawake hs) le_rfl
    · rw [Function.update_of_ne hj]; exact hgood.slot j

/-- The current task is bound, or the last task has been removed in a dynamic kernel. -/
def Live (cfg : Config) (k : Kernel n σ) : Prop :=
  (∀ i, k.taskNow = some i → (k.tasks i).user ≠ none) ∨
    (cfg.isDynamicMode = true ∧ ∀ j, (k.tasks j).user = none)

/-- INTERNAL: removing the last member of the strategy's lists leaves no bound slot. -/
theorem Good.eq_of_getSize_one (h : Good cfg r q k)
    (hsize : SwitchStrategy.getSize k.strategy = 1) {i j : Fin n}
    (hi : (k.tasks i).user ≠ none) (hj : (k.tasks j).user ≠ none) : j = i := by
  rw [SleepAware.getSize_eq, ← List.length_append, List.length_eq_one_iff] at hsize
  obtain ⟨a, ha⟩ := hsize
  have hmem : ∀ x, (k.tasks x).user ≠ none → x = a := by
    intro x hx
    have : x ∈ runnable k.strategy ++ asleep k.strategy :=
      List.mem_append.mpr ((h.listed.mem x).mpr hx)
    rw [ha] at this
    exact List.mem_singleton.mp this
  exact (hmem j hj).trans (hmem i hi).symm

/-- INTERNAL: the work on a slot removes no task that is live. -/
theorem SlotUpdate.live {k' : Kernel n σ} {i : Fin n} (hu : SlotUpdate cfg i k k')
    (h : Good cfg r q k) (hlive : Live cfg k) : Live cfg k' := by
  have huser : ∀ j, j ≠ i → (k'.tasks j).user = (k.tasks j).user :=
    fun j hj => by rw [hu.other j hj]
  rcases hu.user with hsame | ⟨hnone, hdyn, hcond⟩
  · have hall : ∀ j, (k'.tasks j).user = (k.tasks j).user := by
      intro j
      by_cases hj : j = i
      · subst hj; exact hsame
      · exact huser j hj
    rcases hlive with hl | ⟨hd, hl⟩
    · refine Or.inl (fun j hj => ?_)
      rw [hall j]
      exact hl j (hu.taskNow ▸ hj)
    · exact Or.inr ⟨hd, fun j => (hall j).trans (hl j)⟩
  · rcases hlive with hl | ⟨hd, hl⟩
    · by_cases hnow : k.taskNow = some i
      · have hsize := hcond.resolve_left (not_not.mpr hnow)
        refine Or.inr ⟨hdyn, fun j => ?_⟩
        by_cases hj : j = i
        · subst hj; exact hnone
        · by_contra hbusy
          rw [huser j hj] at hbusy
          exact hj (h.eq_of_getSize_one hsize (hl i hnow) hbusy)
      · refine Or.inl (fun j hj => ?_)
        rw [hu.taskNow] at hj
        have hji : j ≠ i := by rintro rfl; exact hnow hj
        rw [huser j hji]
        exact hl j hj
    · refine Or.inr ⟨hd, fun j => ?_⟩
      by_cases hj : j = i
      · subst hj; exact hnone
      · exact (huser j hj).trans (hl j)

/-- INTERNAL: the loop of `UpdateTaskState`.  Slots in `l` owe the tick, the others have
paid it and have no sleep event left to deliver. -/
theorem updateSlots (he : 0 < e) (l : List (Fin n)) :
    ∀ {q : Fin n → ℤ} {k : Kernel n σ} {t : ℤ}, Good cfg (fun _ => 0) q k → l.Nodup →
      (∀ i ∈ l, q i = e) → (∀ i, i ∉ l → q i = 0 ∧ (k.tasks i).sleepPending = false) →
      Live cfg k →
      Good cfg (fun _ => 0) (fun _ => 0) (l.foldl (updateSlot cfg e) (k, t)).1 ∧
        (∀ i, ((l.foldl (updateSlot cfg e) (k, t)).1.tasks i).sleepPending = false) ∧
        Live cfg (l.foldl (updateSlot cfg e) (k, t)).1 ∧
        (l.foldl (updateSlot cfg e) (k, t)).1.taskNow = k.taskNow ∧
        (l.foldl (updateSlot cfg e) (k, t)).1.fsmState = k.fsmState := by
  induction l with
  | nil =>
    intro q k t h _ _ hdone hlive
    refine ⟨h.reslot (fun i => ?_), fun i => (hdone i (by simp)).2, hlive, rfl, rfl⟩
    have := h.slot i
    rwa [(hdone i (by simp)).1] at this
  | cons i l ih =>
    intro q k t h hnd hl hdone hlive
    obtain ⟨hnotin, hnd'⟩ := List.nodup_cons.mp hnd
    obtain ⟨hgood, hupd⟩ := updateSlot_good h he (hl i List.mem_cons_self) t
    have hrest : ∀ j ∈ l, Function.update q i 0 j = e := by
      intro j hj
      have hji : j ≠ i := fun heq => hnotin (heq ▸ hj)
      rw [Function.update_of_ne hji]
      exact hl j (List.mem_cons_of_mem i hj)
    have hdone' : ∀ j, j ∉ l → Function.update q i 0 j = 0 ∧
        ((updateSlot cfg e (k, t) i).1.tasks j).sleepPending = false := by
      intro j hj
      by_cases hji : j = i
      · subst hji
        exact ⟨Function.update_self _ _ _, hupd.delivered⟩
      · rw [Function.update_of_ne hji, hupd.other j hji]
        exact hdone j (by simp [hji, hj])
    obtain ⟨hg, hp, hlive', hnow, hfsm⟩ :=
      ih (t := (updateSlot cfg e (k, t) i).2) hgood hnd' hrest hdone' (hupd.live h hlive)
    exact ⟨hg, hp, hlive', hnow.trans hupd.taskNow, hfsm.trans hupd.fsmState⟩

/-! ## The FSM -/

/-- The current task of a kernel is bound. -/
def NowBound (k : Kernel n σ) : Prop :=
  ∀ i, k.taskNow = some i → (k.tasks i).user ≠ none

/-- A started kernel has a bound current task and an FSM that runs. -/
structure Running (k : Kernel n σ) : Prop where
  now : NowBound k
  fsm : k.taskNow ≠ none → k.fsmState ≠ .none ∧ k.fsmState ≠ .exiting

/-- No sleep event is left to deliver. -/
def Settled (k : Kernel n σ) : Prop :=
  ∀ i, (k.tasks i).sleepPending = false

/-- INTERNAL: a runnable slot does not sleep once all sleep events are delivered. -/
theorem Good.awake_of_runnable (h : Good cfg r q k) (hset : Settled k) {i : Fin n}
    (hi : i ∈ runnable k.strategy) : ¬ (k.tasks i).timeSleep < 0 := by
  intro hs
  have hmem : i ∈ asleep k.strategy := (h.listed.asleep i).mpr ⟨hs, hset i⟩
  exact List.disjoint_of_nodup_append (SleepAware.nodup h.listed.wf) hi hmem

/-- INTERNAL: `FetchNextEvent` picks a runnable slot that does not sleep; it reports an
exit only when no slot is bound (stk.h:2094-2126). -/
theorem Good.fetchNextEvent (h : Good cfg r q k) (hset : Settled k) :
    let f := k.fetchNextEvent cfg
    Good cfg r q f.2.2 ∧ f.2.2.tasks = k.tasks ∧ f.2.2.taskNow = k.taskNow ∧
      f.2.2.fsmState = k.fsmState ∧
      (∀ i, f.2.1 = some i → (k.tasks i).user ≠ none ∧ ¬ (k.tasks i).timeSleep < 0) ∧
      (f.1 = .exit → cfg.isDynamicMode = true ∧ ∀ i, (k.tasks i).user = none) ∧
      ((cfg.isDynamicMode = true ∧ ∀ i, (k.tasks i).user = none) → f.1 = .exit) := by
  intro f
  have hawake : ∀ i ∈ runnable k.strategy, (k.view cfg).sleeping i = false := by
    intro i hi
    simpa [Kernel.view, KernelTask.isSleeping] using h.awake_of_runnable hset hi
  have hlaw := SleepAware.getNext_law (v := k.view cfg) (s := k.strategy) h.listed.wf hawake
  -- the strategy's answer and the kernel after the call
  obtain ⟨x, k', hcall, hgood, htasks, hnow, hfsm, hmem, hsize⟩ :
      ∃ x k', k.callStrategy cfg .getNext = (x, k') ∧ Good cfg r q k' ∧ k'.tasks = k.tasks ∧
        k'.taskNow = k.taskNow ∧ k'.fsmState = k.fsmState ∧
        (∀ i, x = some i → i ∈ runnable k.strategy) ∧
        (SwitchStrategy.getSize k'.strategy = 0 ↔ ∀ i, (k.tasks i).user = none) := by
    have hfree : ∀ s : σ, (∀ i, (i ∈ runnable s ∨ i ∈ asleep s) ↔ (k.tasks i).user ≠ none) →
        (SwitchStrategy.getSize s = 0 ↔ ∀ i, (k.tasks i).user = none) := by
      intro s hs
      rw [SleepAware.getSize_eq, ← List.length_append, List.length_eq_zero_iff,
        List.eq_nil_iff_forall_not_mem]
      refine forall_congr' (fun i => ?_)
      rw [List.mem_append, hs i, not_not]
    rcases hlaw with ⟨x, s, hok, hwf, hrun, hslp, hmem⟩ | herr
    · have hlisted : Listed cfg k.tasks s := by
        refine ⟨hwf, fun i => ?_, fun i => ?_, h.listed.weight⟩
        · rw [hrun, hslp]; exact h.listed.mem i
        · rw [hslp]; exact h.listed.asleep i
      refine ⟨x, { k with strategy := s, calls := k.calls ++ [(k.view cfg, .getNext)] }, ?_, ?_, rfl,
        rfl, rfl, hmem, hfree s hlisted.mem⟩
      · unfold Kernel.callStrategy StrategyCall.apply
        rw [hok]
      · exact ⟨hlisted, ⟨h.linked.mem, h.linked.nodup, h.linked.syncNodup, h.linked.registered⟩,
          h.slot, h.idle, h.clean⟩
    · refine ⟨none, k.fault .nullCursor, ?_, h.fault rfl, rfl, rfl, rfl, by simp,
        hfree k.strategy h.listed.mem⟩
      unfold Kernel.callStrategy StrategyCall.apply
      rw [herr]
  show Good cfg r q (k.fetchNextEvent cfg).2.2 ∧ _
  unfold f Kernel.fetchNextEvent
  rw [hcall]
  cases x with
  | some next =>
    have hrun := hmem next rfl
    have hbusy := (h.listed.mem next).mp (Or.inl hrun)
    have hs := h.awake_of_runnable hset hrun
    dsimp only
    rw [if_neg (by rw [htasks]; simpa [KernelTask.isSleeping] using hs)]
    refine ⟨hgood, htasks, hnow, hfsm, ?_, ?_, ?_⟩
    · rintro i hi
      obtain rfl : next = i := Option.some.inj hi
      exact ⟨hbusy, hs⟩
    · split <;> simp
    · rintro ⟨-, hall⟩
      exact absurd (hall next) hbusy
  | none =>
    dsimp only
    by_cases hexit : cfg.isDynamicMode = true ∧ SwitchStrategy.getSize k'.strategy = 0
    · rw [if_pos (by simp [hexit])]
      exact ⟨hgood, htasks, hnow, hfsm, by simp, fun _ => ⟨hexit.1, hsize.mp hexit.2⟩, fun _ => rfl⟩
    · rw [if_neg (by simpa using hexit)]
      refine ⟨hgood, htasks, hnow, hfsm, by simp, by simp, ?_⟩
      rintro ⟨hdyn, hall⟩
      exact absurd ⟨hdyn, hsize.mpr hall⟩ hexit

/-- The slot on which the FSM calls `HrtOnSwitchedOut`, if it does. -/
def switchedOut (cfg : Config) (k : Kernel n σ) : Option (Fin n) :=
  if cfg.isHrtMode then
    match fsm k.fsmState (k.fetchNextEvent cfg).1, k.taskNow with
    | .switching, some now =>
      if (k.fetchNextEvent cfg).2.1 ≠ some now ∧ (k.tasks now).hrt.done = true then some now else none
    | .sleeping, some now => if (k.tasks now).removePending then none else some now
    | _, _ => none
  else none

/-- INTERNAL: a job that is done starts anew. -/
theorem Good.hrtOnSwitchedOut (h : Good cfg r q k) {i : Fin n} (hbusy : (k.tasks i).user ≠ none)
    (hobj : (k.tasks i).waitObj.syncObj = none) : Good cfg r q (k.hrtOnSwitchedOut i) := by
  have hapi : SwitchStrategy.sleepEventApi σ = true := SleepAware.sleepEventApi_eq
  unfold Kernel.hrtOnSwitchedOut
  rw [hapi]
  by_cases hsleep : (k.tasks i).hrt.periodicity - (k.tasks i).hrt.duration > 0
  · have heq : ∀ t : KernelTask, t = k.tasks i → t.hrtOnSwitchedOut true =
        { t.scheduleSleep true (t.hrt.periodicity - t.hrt.duration) with
          hrt := { t.hrt with duration := 0, done := false } } := by
      rintro t rfl
      simp only [KernelTask.hrtOnSwitchedOut, if_pos hsleep]
      rfl
    refine h.setTask ?_ ?_ ?_ ?_ ((h.slot i).setSleep hbusy hobj ?_ ?_ ?_)
    all_goals rw [heq _ rfl]
    · rfl
    · rfl
    · rfl
    · simp only [KernelTask.scheduleSleep, Delivered, KernelTask.isSleeping, Bool.true_and,
        Bool.or_eq_false_iff, Bool.not_eq_false', decide_eq_true_eq]
      constructor
      · exact fun hd => ⟨hd.2.2, hd.2.1⟩
      · exact fun hd => ⟨by omega, hd.2, hd.1⟩
    · rfl
    · rfl
    · intro _
      simp only [KernelTask.scheduleSleep]
      omega
  · have heq : ∀ t : KernelTask, t = k.tasks i → t.hrtOnSwitchedOut true =
        { t with hrt := { t.hrt with duration := 0, done := false } } := by
      rintro t rfl
      simp only [KernelTask.hrtOnSwitchedOut, if_neg hsleep]
    refine h.setTask ?_ ?_ ?_ ?_ ((h.slot i).frame ?_ ?_ ?_ ?_ ?_)
    all_goals rw [heq _ rfl]
    · exact Iff.rfl

/-- INTERNAL: the fields that no part of the invariant reads may change with the current
task, as long as nobody waits when there is none. -/
theorem Good.setNow (h : Good cfg r q k) (now : Option (Fin n)) {s : FsmState}
    (hnow : now = none → ∀ i, (k.tasks i).waitObj.syncObj = none) :
    Good cfg r q { k with taskNow := now, fsmState := s } :=
  ⟨h.listed, ⟨h.linked.mem, h.linked.nodup, h.linked.syncNodup, h.linked.registered⟩, h.slot,
    fun hidle => hidle.elim hnow (fun hsync => h.idle (Or.inr hsync)), h.clean⟩

omit [StrategyLists (Fin n) σ] [SleepAware (Fin n) σ] in
/-- INTERNAL: a job that starts anew leaves the bindings and `m_task_now`. -/
theorem hrtOnSwitchedOut_frame (i j : Fin n) :
    ((k.hrtOnSwitchedOut i).tasks j).user = (k.tasks j).user ∧
      (k.hrtOnSwitchedOut i).taskNow = k.taskNow := by
  refine ⟨?_, rfl⟩
  by_cases hj : j = i
  · subst hj
    simp only [Kernel.hrtOnSwitchedOut, Kernel.setTask, Function.update_self,
      KernelTask.hrtOnSwitchedOut]
    split <;> rfl
  · simp [Kernel.hrtOnSwitchedOut, Kernel.setTask, hj]

/-- INTERNAL: a task that leaves the processor keeps the invariant. -/
theorem Good.switchOut (h : Good cfg r q k) (hb : NowBound k) {i : Fin n}
    (hbusy : (k.tasks i).user ≠ none) (hobj : (k.tasks i).waitObj.syncObj = none) :
    Good cfg r q (k.hrtOnSwitchedOut i) ∧ NowBound (k.hrtOnSwitchedOut i) := by
  refine ⟨h.hrtOnSwitchedOut hbusy hobj, fun j hj => ?_⟩
  rw [(hrtOnSwitchedOut_frame i j).1]
  exact hb j hj

/-- INTERNAL: a switch. -/
theorem Good.stateSwitch (h : Good cfg r q k) (hb : NowBound k) {now : Fin n}
    {next : Option (Fin n)} (hnow : (k.tasks now).user ≠ none)
    (hnext : ∀ i, next = some i → (k.tasks i).user ≠ none)
    (hout : cfg.isHrtMode = true → next ≠ some now → (k.tasks now).hrt.done = true →
      (k.tasks now).waitObj.syncObj = none) :
    Good cfg r q (k.stateSwitch cfg (some now) next).1 ∧
      NowBound (k.stateSwitch cfg (some now) next).1 := by
  unfold Kernel.stateSwitch
  cases next with
  | none => exact ⟨h.fault rfl, hb⟩
  | some next =>
    dsimp only
    split
    · next hne =>
      have hset : Good cfg r q { k with taskNow := some next } ∧
          NowBound ({ k with taskNow := some next } : Kernel n σ) := by
        refine ⟨h.setNow _ (s := k.fsmState) (by simp), fun i hi => hnext i ?_⟩
        exact hi
      dsimp only
      split
      · next hdone =>
        rw [Bool.and_eq_true] at hdone
        exact hset.1.switchOut hset.2 hnow
          (hout hdone.1 (fun heq => hne (Option.some.inj heq)) hdone.2)
      · exact hset
    · exact ⟨h, hb⟩

/-- INTERNAL: the processor goes to sleep. -/
theorem Good.stateSleep (h : Good cfg r q k) (hb : NowBound k) {now : Fin n}
    (hnow : (k.tasks now).user ≠ none)
    (hout : cfg.isHrtMode = true → (k.tasks now).removePending = false →
      (k.tasks now).waitObj.syncObj = none) :
    Good cfg r q (k.stateSleep cfg (some now)).1 ∧ NowBound (k.stateSleep cfg (some now)).1 := by
  unfold Kernel.stateSleep
  cases hfirst : SwitchStrategy.getFirst k.strategy with
  | none => exact ⟨h.fault rfl, hb⟩
  | some first =>
    have hset : Good cfg r q { k with taskNow := some first } ∧
        NowBound ({ k with taskNow := some first } : Kernel n σ) := by
      refine ⟨h.setNow _ (s := k.fsmState) (by simp), fun i hi => ?_⟩
      obtain rfl : first = i := Option.some.inj hi
      exact (h.listed.mem first).mp (SleepAware.getFirst_mem h.listed.wf hfirst)
    dsimp only
    split
    · next hdone =>
      rw [Bool.and_eq_true, Bool.not_eq_true'] at hdone
      exact hset.1.switchOut hset.2 hnow (hout hdone.1 hdone.2)
    · exact hset

/-- INTERNAL: the processor wakes to a task. -/
theorem Good.stateWake (h : Good cfg r q k) (hb : NowBound k) {next : Option (Fin n)}
    (hnext : ∀ i, next = some i → (k.tasks i).user ≠ none) :
    Good cfg r q (k.stateWake next).1 ∧ NowBound (k.stateWake next).1 := by
  unfold Kernel.stateWake
  cases next with
  | none => exact ⟨h.fault rfl, hb⟩
  | some next =>
    refine ⟨h.setNow _ (s := k.fsmState) (by simp), fun i hi => hnext i ?_⟩
    exact hi

/-- INTERNAL: the FSM step of the tick (stk.h:2147-2332). -/
theorem updateFsmState_good (h : Good cfg r q k) (hset : Settled k) (hlive : Live cfg k)
    (hstarted : k.taskNow ≠ none) (hfsm : k.fsmState ≠ .none ∧ k.fsmState ≠ .exiting)
    (hout : ∀ i, switchedOut cfg k = some i → (k.tasks i).waitObj.syncObj = none) :
    Good cfg r q (k.updateFsmState cfg).1 ∧ Running (k.updateFsmState cfg).1 := by
  obtain ⟨hgood, htasks, hnow, hstate, hnext, hexit, hexit'⟩ := h.fetchNextEvent hset
  obtain ⟨now, hnowsome⟩ := Option.ne_none_iff_exists'.mp hstarted
  unfold switchedOut at hout
  unfold Kernel.updateFsmState
  dsimp only
  rw [hnowsome] at hout ⊢
  generalize k.fetchNextEvent cfg = f at *
  obtain ⟨event, next, k₁⟩ := f
  dsimp only at *
  by_cases hev : event = .exit
  · subst hev
    obtain ⟨hdyn, hall⟩ := hexit rfl
    have hstate' : fsm k.fsmState .exit = .exiting := by
      cases hk : k.fsmState <;> simp_all [fsm]
    simp only [hstate', Kernel.stateExit, hdyn, ↓reduceIte]
    refine ⟨hgood.setNow _ (fun _ i => ?_), fun i hi => ?_, by simp⟩
    · exact ((hgood.slot i).free (by rw [htasks]; exact hall i)).2
    · cases hi
  · -- the current task is bound
    have hbusy : (k₁.tasks now).user ≠ none := by
      rw [htasks]
      rcases hlive with hl | hr
      · exact hl now hnowsome
      · exact absurd (hexit' hr) hev
    have hb : NowBound k₁ := by
      intro i hi
      rw [hnow, hnowsome] at hi
      obtain rfl : now = i := Option.some.inj hi
      exact hbusy
    have hnext' : ∀ i, next = some i → (k₁.tasks i).user ≠ none := by
      intro i hi
      rw [htasks]
      exact (hnext i hi).1
    have hrun : ∀ {k₂ : Kernel n σ} {s : FsmState}, Good cfg r q k₂ ∧ NowBound k₂ →
        s ≠ .none ∧ s ≠ .exiting → Good cfg r q { k₂ with fsmState := s } ∧
          Running { k₂ with fsmState := s } := by
      intro k₂ s hk₂ hs
      exact ⟨hk₂.1.setNow k₂.taskNow (fun hn => hk₂.1.idle (Or.inl hn)), hk₂.2, fun _ => hs⟩
    cases hk : fsm k.fsmState event with
    | switching =>
      refine hrun (hgood.stateSwitch hb hbusy hnext' (fun hhrt hne hdone => ?_)) (by simp)
      rw [htasks] at hdone ⊢
      exact hout now (by simp [hhrt, hk, hne, hdone])
    | sleeping =>
      refine hrun (hgood.stateSleep hb hbusy (fun hhrt hlive => ?_)) (by simp)
      rw [htasks] at hlive ⊢
      exact hout now (by simp [hhrt, hk, hlive])
    | waking => exact hrun (hgood.stateWake hb hnext') (by simp)
    | exiting =>
      cases hks : k.fsmState <;> cases event <;> simp_all [fsm]
    | none =>
      refine ⟨hgood, hb, fun _ => ?_⟩
      rw [hstate]
      exact hfsm

/-! ## `OnTick` and `OnStart` -/

omit [SleepAware (Fin n) σ] [StrategyLists (Fin n) σ] [SwitchStrategy (Fin n) σ] in
/-- INTERNAL: the end of a wait leaves the state machine and the bindings. -/
theorem wakeWaitObj_fsm (i : Fin n) (timeout : Bool) :
    (k.wakeWaitObj i timeout).taskNow = k.taskNow ∧
      (k.wakeWaitObj i timeout).fsmState = k.fsmState ∧
      ∀ j, ((k.wakeWaitObj i timeout).tasks j).user = (k.tasks j).user := by
  cases ho : (k.tasks i).waitObj.syncObj with
  | none =>
    unfold Kernel.wakeWaitObj
    simp [ho, Kernel.fault]
  | some o =>
    rw [wakeWaitObj_eq ho]
    refine ⟨rfl, rfl, fun j => ?_⟩
    by_cases hj : j = i
    · subst hj; simp
    · simp [hj]

/-- The current task, the FSM and the bindings of the slots are the same in both states. -/
def SameFsm (k k' : Kernel n σ) : Prop :=
  k'.taskNow = k.taskNow ∧ k'.fsmState = k.fsmState ∧ ∀ j, (k'.tasks j).user = (k.tasks j).user

omit [SleepAware (Fin n) σ] [StrategyLists (Fin n) σ] [SwitchStrategy (Fin n) σ] in
/-- INTERNAL: two steps within the frame. -/
theorem SameFsm.trans {k' k'' : Kernel n σ} (h : SameFsm k k') (h' : SameFsm k' k'') :
    SameFsm k k'' :=
  ⟨h'.1.trans h.1, h'.2.1.trans h.2.1, fun j => (h'.2.2 j).trans (h.2.2 j)⟩

omit [SleepAware (Fin n) σ] [StrategyLists (Fin n) σ] [SwitchStrategy (Fin n) σ] in
/-- INTERNAL: a tick of one wait object leaves the state machine alone. -/
theorem tickWaitObj_fsm (i : Fin n) : SameFsm k (Kernel.tickWaitObj e k i) := by
  have hset : SameFsm k (k.setTask i (fun t => t.tickWaitObj e)) := by
    refine ⟨rfl, rfl, fun j => ?_⟩
    by_cases hj : j = i
    · subst hj
      simp only [Kernel.setTask, Function.update_self, KernelTask.tickWaitObj]
      split
      · split <;> rfl
      · rfl
    · simp [Kernel.setTask, hj]
  unfold Kernel.tickWaitObj
  dsimp only
  split
  · exact hset.trans (wakeWaitObj_fsm i true)
  · exact hset

omit [SleepAware (Fin n) σ] [StrategyLists (Fin n) σ] [SwitchStrategy (Fin n) σ] in
/-- INTERNAL: a tick of all wait objects leaves the state machine alone. -/
theorem updateSyncObjects_fsm : SameFsm k (k.updateSyncObjects e) := by
  refine Runs.foldl_keeps (I := SameFsm k) (fun k' o _ h => ?_) ⟨rfl, rfl, fun _ => rfl⟩
  have htick : SameFsm k' (k'.tickSyncObject e o) :=
    Runs.foldl_keeps (I := SameFsm k') (fun k'' i _ h' => h'.trans (tickWaitObj_fsm i))
      ⟨rfl, rfl, fun _ => rfl⟩
  have h' := h.trans htick
  dsimp only
  split
  · exact ⟨h'.1, h'.2.1, h'.2.2⟩
  · exact h'

/-- INTERNAL: the current task and the FSM are the same in both states and no slot has lost
its task. -/
def KeepsBound (k k' : Kernel n σ) : Prop :=
  k'.taskNow = k.taskNow ∧ k'.fsmState = k.fsmState ∧
    ∀ j, (k.tasks j).user ≠ none → (k'.tasks j).user ≠ none

omit [SleepAware (Fin n) σ] [StrategyLists (Fin n) σ] [SwitchStrategy (Fin n) σ] in
/-- INTERNAL: what leaves the state machine alone keeps a bound task bound. -/
theorem SameFsm.keepsBound {k' : Kernel n σ} (h : SameFsm k k') : KeepsBound k k' :=
  ⟨h.1, h.2.1, fun j hj => by rw [h.2.2 j]; exact hj⟩

namespace KeepsBound

omit [SleepAware (Fin n) σ] [StrategyLists (Fin n) σ] [SwitchStrategy (Fin n) σ] in
/-- INTERNAL: two steps within the frame. -/
theorem trans {k' k'' : Kernel n σ} (h : KeepsBound k k') (h' : KeepsBound k' k'') :
    KeepsBound k k'' :=
  ⟨h'.1.trans h.1, h'.2.1.trans h.2.1, fun j hj => h'.2.2 j (h.2.2 j hj)⟩

omit [SleepAware (Fin n) σ] [StrategyLists (Fin n) σ] [SwitchStrategy (Fin n) σ] in
/-- INTERNAL: a slot is written within the frame. -/
theorem setTask (k : Kernel n σ) (i : Fin n) {f : KernelTask → KernelTask}
    (hf : ∀ t, t.user ≠ none → (f t).user ≠ none) : KeepsBound k (k.setTask i f) := by
  refine ⟨rfl, rfl, fun j hj => ?_⟩
  by_cases hji : j = i
  · subst hji; simpa [Kernel.setTask] using hf _ hj
  · simpa [Kernel.setTask, hji] using hj

omit [SleepAware (Fin n) σ] [StrategyLists (Fin n) σ] in
/-- INTERNAL: a call of the strategy. -/
theorem callStrategy (cfg : Config) (k : Kernel n σ) (c : StrategyCall (Fin n)) :
    KeepsBound k (k.callStrategy cfg c).2 :=
  ⟨Good.callStrategy_taskNow c, Good.callStrategy_fsmState c, fun j hj => by simpa using hj⟩

omit [SleepAware (Fin n) σ] [StrategyLists (Fin n) σ] in
/-- INTERNAL: a weight is set. -/
theorem setCurrentWeight (k : Kernel n σ) (i : Fin n) (w : ℤ) :
    KeepsBound k (k.setCurrentWeight i w) := by
  unfold Kernel.setCurrentWeight
  split
  · exact setTask k i (fun _ ht => ht)
  · exact ⟨rfl, rfl, fun _ hj => hj⟩

omit [SleepAware (Fin n) σ] [StrategyLists (Fin n) σ] in
/-- INTERNAL: a slot is bound. -/
theorem allocateNewTask (k : Kernel n σ) (u : TId) : KeepsBound k (k.allocateNewTask u).2 := by
  unfold Kernel.allocateNewTask
  have hk : KeepsBound k (if (k.findTaskByUserTask u).isSome then k.fault .taskCollision else k) := by
    split <;> exact ⟨rfl, rfl, fun _ hj => hj⟩
  refine hk.trans ?_
  generalize (if (k.findTaskByUserTask u).isSome then k.fault .taskCollision else k) = k₁
  dsimp only
  split
  · exact ⟨rfl, rfl, fun _ hj => hj⟩
  · next i _ =>
    have hset : KeepsBound k₁ (k₁.setTask i (fun t => { t with user := some u })) :=
      setTask k₁ i (fun _ _ => by simp)
    dsimp only
    split
    · exact hset.trans (setCurrentWeight _ i noWeight)
    · exact hset

omit [SleepAware (Fin n) σ] [StrategyLists (Fin n) σ] in
/-- INTERNAL: a task is bound and the strategy told. -/
theorem allocateAndAddNewTask (cfg : Config) (k : Kernel n σ) (u : TId) :
    KeepsBound k (k.allocateAndAddNewTask cfg u) := by
  have halloc := allocateNewTask k u
  unfold Kernel.allocateAndAddNewTask
  generalize k.allocateNewTask u = f at halloc
  obtain ⟨_ | i, k₁⟩ := f
  · exact halloc
  · exact halloc.trans (callStrategy cfg k₁ _)

omit [SleepAware (Fin n) σ] [StrategyLists (Fin n) σ] in
/-- INTERNAL: a periodic task is bound and the strategy told. -/
theorem hrtAllocateAndAddNewTask (cfg : Config) (k : Kernel n σ) (u : TId)
    (periodicity deadline startDelay : ℤ) :
    KeepsBound k (k.hrtAllocateAndAddNewTask cfg u periodicity deadline startDelay) := by
  have halloc := allocateNewTask k u
  unfold Kernel.hrtAllocateAndAddNewTask
  generalize k.allocateNewTask u = f at halloc
  obtain ⟨_ | i, k₁⟩ := f
  · exact halloc
  · refine halloc.trans ((setTask k₁ i (fun t ht => ?_)).trans (callStrategy cfg _ _))
    unfold KernelTask.hrtInit
    dsimp only
    split <;> exact ht

omit [SleepAware (Fin n) σ] [StrategyLists (Fin n) σ] in
/-- INTERNAL: requests are served. -/
theorem updateTaskRequest (cfg : Config) (k : Kernel n σ) :
    KeepsBound k (k.updateTaskRequest cfg) := by
  unfold Kernel.updateTaskRequest
  split
  · refine Runs.foldl_keeps (I := fun k' : Kernel n σ => KeepsBound k k') (fun k' i _ h => ?_)
      ⟨rfl, rfl, fun _ hj => hj⟩
    split
    · exact h
    · exact h.trans ((allocateAndAddNewTask cfg k' _).trans (setTask _ i (fun _ ht => ht)))
  · exact ⟨rfl, rfl, fun _ hj => hj⟩

omit [SleepAware (Fin n) σ] [StrategyLists (Fin n) σ] in
/-- INTERNAL: an owner inherits a weight. -/
theorem onInheritWeight (cfg : Config) (k : Kernel n σ) (u : TId) (w : ℤ) :
    KeepsBound k (k.onInheritWeight cfg u w) := by
  unfold Kernel.onInheritWeight
  split
  · exact ⟨rfl, rfl, fun _ hj => hj⟩
  · split
    · exact ⟨rfl, rfl, fun _ hj => hj⟩
    · split
      · exact ⟨rfl, rfl, fun _ hj => hj⟩
      · dsimp only
        split
        · exact (setCurrentWeight k _ _).trans (callStrategy cfg _ _)
        · exact ⟨rfl, rfl, fun _ hj => hj⟩

omit [SleepAware (Fin n) σ] [StrategyLists (Fin n) σ] in
/-- INTERNAL: an owner gives an inherited weight back. -/
theorem onRestoreWeight (cfg : Config) (k : Kernel n σ) (u : TId) (o : Option SyncId) :
    KeepsBound k (k.onRestoreWeight cfg u o) := by
  unfold Kernel.onRestoreWeight
  split
  · exact ⟨rfl, rfl, fun _ hj => hj⟩
  · split
    · exact ⟨rfl, rfl, fun _ hj => hj⟩
    · exact (setCurrentWeight k _ _).trans (callStrategy cfg _ _)

end KeepsBound

/-- INTERNAL: `UpdateTasks` (stk.h:1921-1935), provided that no infinite wait runs out of its
sleep counter. -/
theorem updateTasks_good (hcfg : WeightsOk σ cfg) (h : Good cfg (fun _ => 0) (fun _ => 0) k)
    (hrun : Running k) (he : 0 < e)
    (hinf : ∀ i, (k.tasks i).waitObj.syncObj ≠ none →
      (k.tasks i).waitObj.timeWait = waitInfinite → (k.tasks i).timeSleep + e < 0) :
    Good cfg (fun _ => 0) (fun _ => 0)
        (({ k with ticks := k.ticks + e } : Kernel n σ).updateTasks cfg e).1 ∧
      Settled (({ k with ticks := k.ticks + e } : Kernel n σ).updateTasks cfg e).1 ∧
      Live cfg (({ k with ticks := k.ticks + e } : Kernel n σ).updateTasks cfg e).1 ∧
      (({ k with ticks := k.ticks + e } : Kernel n σ).updateTasks cfg e).1.taskNow = k.taskNow ∧
      (({ k with ticks := k.ticks + e } : Kernel n σ).updateTasks cfg e).1.fsmState = k.fsmState := by
  unfold Kernel.updateTasks
  dsimp only
  have h₀ := h.charge (le_of_lt he) hinf
  have hb₀ : NowBound ({ k with ticks := k.ticks + e } : Kernel n σ) ∧
      ({ k with ticks := k.ticks + e } : Kernel n σ).taskNow = k.taskNow ∧
      ({ k with ticks := k.ticks + e } : Kernel n σ).fsmState = k.fsmState :=
    ⟨hrun.now, rfl, rfl⟩
  generalize ({ k with ticks := k.ticks + e } : Kernel n σ) = k₀ at h₀ hb₀
  -- the wait objects pay
  have h₁ : Good cfg (fun _ => 0) (fun _ => e)
      (if cfg.isSyncMode then k₀.updateSyncObjects e else k₀) := by
    split
    · exact h₀.updateSyncObjects (le_of_lt he)
    · next hsync =>
      refine h₀.reslot (fun i => (h₀.slot i).rest (h₀.idle (Or.inr (by simpa using hsync)) i) le_rfl)
  have hb₁ : NowBound (if cfg.isSyncMode then k₀.updateSyncObjects e else k₀) ∧
      (if cfg.isSyncMode then k₀.updateSyncObjects e else k₀).taskNow = k₀.taskNow ∧
      (if cfg.isSyncMode then k₀.updateSyncObjects e else k₀).fsmState = k₀.fsmState := by
    split
    · obtain ⟨hnow, hfsm, huser⟩ := updateSyncObjects_fsm (k := k₀) (e := e)
      refine ⟨fun i hi => ?_, hnow, hfsm⟩
      rw [huser i]
      exact hb₀.1 i (hnow ▸ hi)
    · exact ⟨hb₀.1, rfl, rfl⟩
  generalize (if cfg.isSyncMode then k₀.updateSyncObjects e else k₀) = k₁ at h₁ hb₁
  -- requests
  have h₂ : Good cfg (fun _ => 0) (fun _ => e)
      (if k₁.request then k₁.updateTaskRequest cfg else k₁) := by
    split
    · exact h₁.updateTaskRequest hcfg
    · exact h₁
  have hb₂ : NowBound (if k₁.request then k₁.updateTaskRequest cfg else k₁) ∧
      (if k₁.request then k₁.updateTaskRequest cfg else k₁).taskNow = k₁.taskNow ∧
      (if k₁.request then k₁.updateTaskRequest cfg else k₁).fsmState = k₁.fsmState := by
    split
    · obtain ⟨hnow, hfsm, huser⟩ := KeepsBound.updateTaskRequest cfg k₁
      exact ⟨fun i hi => huser i (hb₁.1 i (hnow ▸ hi)), hnow, hfsm⟩
    · exact ⟨hb₁.1, rfl, rfl⟩
  generalize (if k₁.request then k₁.updateTaskRequest cfg else k₁) = k₂ at h₂ hb₂
  -- the sleep counters pay
  obtain ⟨h₃, hset, hlive, hnow, hfsm⟩ := updateSlots
    (t := if cfg.isTicklessMode then cfg.ticklessTicksMax else 1) he (List.finRange n) h₂
    (List.nodup_finRange n) (fun _ _ => rfl) (fun i hi => absurd (List.mem_finRange i) hi)
    (Or.inl hb₂.1)
  exact ⟨h₃, hset, hlive, hnow.trans (hb₂.2.1.trans (hb₁.2.1.trans hb₀.2.1)),
    hfsm.trans (hb₂.2.2.trans (hb₁.2.2.trans hb₀.2.2))⟩

/-- INTERNAL: one tick (stk.h:1691-1716), provided that no infinite wait runs out of its
sleep counter and no waiting task is switched out in HRT mode. -/
theorem onTick_good (hcfg : WeightsOk σ cfg) (h : Good cfg (fun _ => 0) (fun _ => 0) k)
    (hrun : Running k) (hstarted : k.taskNow ≠ none) (he : 0 < e)
    (hinf : ∀ i, (k.tasks i).waitObj.syncObj ≠ none →
      (k.tasks i).waitObj.timeWait = waitInfinite → (k.tasks i).timeSleep + e < 0)
    (hout : ∀ i, switchedOut cfg
        (({ k with ticks := k.ticks + e } : Kernel n σ).updateTasks cfg e).1 = some i →
      ((({ k with ticks := k.ticks + e } : Kernel n σ).updateTasks cfg e).1.tasks i).waitObj.syncObj =
        none) :
    Good cfg (fun _ => 0) (fun _ => 0) (k.onTick cfg e).1 ∧ Running (k.onTick cfg e).1 := by
  obtain ⟨hgood, hset, hlive, hnow, hfsm⟩ := updateTasks_good hcfg h hrun he hinf
  refine updateFsmState_good hgood hset hlive ?_ ?_ hout
  · rw [hnow]
    exact hstarted
  · rw [hfsm]
    exact hrun.fsm hstarted

/-- INTERNAL: the loop of `OnStart` delivers the sleep events of its slots. -/
theorem deliverSlots (cfg : Config) (l : List (Fin n)) :
    ∀ {k : Kernel n σ}, Good cfg r q k → (∀ i, i ∉ l → (k.tasks i).sleepPending = false) →
      Good cfg r q (l.foldl (fun k i =>
        if (k.tasks i).isSleeping then k.deliverSleep cfg i else k) k) ∧
      Settled (l.foldl (fun k i =>
        if (k.tasks i).isSleeping then k.deliverSleep cfg i else k) k) ∧
      (l.foldl (fun k i =>
        if (k.tasks i).isSleeping then k.deliverSleep cfg i else k) k).taskNow = k.taskNow := by
  induction l with
  | nil => exact fun h hdone => ⟨h, fun i => hdone i (by simp), rfl⟩
  | cons i l ih =>
    intro k h hdone
    have hstep : Good cfg r q (if (k.tasks i).isSleeping then k.deliverSleep cfg i else k) ∧
        (∀ j, j ∉ l → ((if (k.tasks i).isSleeping then k.deliverSleep cfg i else k).tasks j).sleepPending
          = false) ∧
        (if (k.tasks i).isSleeping then k.deliverSleep cfg i else k).taskNow = k.taskNow := by
      split
      · next hs =>
        refine ⟨h.deliverSleep (by simpa [KernelTask.isSleeping] using hs), fun j hj => ?_,
          (deliverSleep_fsm i).1⟩
        rw [Good.deliverSleep_tasks]
        by_cases hji : j = i
        · subst hji; simp
        · simpa [hji] using hdone j (by simp [hji, hj])
      · next hs =>
        refine ⟨h, fun j hj => ?_, rfl⟩
        by_cases hji : j = i
        · subst hji
          by_contra hp
          have := (h.slot j).pending (by simpa using hp)
          exact hs (by simpa [KernelTask.isSleeping] using this)
        · exact hdone j (by simp [hji, hj])
    obtain ⟨hg, hset, hnow⟩ := ih hstep.1 hstep.2.1
    exact ⟨hg, hset, hnow.trans hstep.2.2⟩

/-- INTERNAL: the start of the scheduler. -/
theorem onStart_good (h : Good cfg r q k) (hidle : k.taskNow = none) :
    Good cfg r q (k.onStart cfg) ∧ Running (k.onStart cfg) := by
  obtain ⟨hgood, hset, hnow⟩ := deliverSlots cfg (List.finRange n) h
    (fun i hi => absurd (List.mem_finRange i) hi)
  have hnone := h.idle (Or.inl hidle)
  unfold Kernel.onStart
  dsimp only
  generalize (List.finRange n).foldl (fun k i =>
    if (k.tasks i).isSleeping then k.deliverSleep cfg i else k) k = k₁ at hgood hset hnow
  have hswitch : Good cfg r q { k₁ with fsmState := .switching } :=
    hgood.setNow k₁.taskNow (fun hn => hgood.idle (Or.inl hn))
  obtain ⟨hfetch, htasks, hnow', -, hnext, -, -⟩ := hswitch.fetchNextEvent hset
  generalize ({ k₁ with fsmState := .switching } : Kernel n σ).fetchNextEvent cfg = f at *
  obtain ⟨event, next, k₂⟩ := f
  dsimp only at *
  have hidle₂ : k₂.taskNow = none := by rw [hnow', hnow, hidle]
  split
  · next first _ =>
    refine ⟨hfetch.setNow _ (by simp), fun i hi => ?_, by simp⟩
    obtain rfl : first = i := Option.some.inj hi
    show (k₂.tasks first).user ≠ none
    rw [htasks]
    exact (hnext first rfl).1
  · split
    · next first hfirst =>
      refine ⟨hfetch.setNow _ (by simp), fun i hi => ?_, by simp⟩
      obtain rfl : first = i := Option.some.inj hi
      exact (hfetch.listed.mem first).mp (SleepAware.getFirst_mem hfetch.listed.wf hfirst)
    · refine ⟨(hfetch.setNow k₂.taskNow (fun hn => hfetch.idle (Or.inl hn))).fault rfl,
        fun i hi => ?_, fun hn => absurd hidle₂ hn⟩
      cases hidle₂.symm.trans hi
  · refine ⟨(hfetch.setNow k₂.taskNow (fun hn => hfetch.idle (Or.inl hn))).fault rfl,
      fun i hi => ?_, fun hn => absurd hidle₂ hn⟩
    cases hidle₂.symm.trans hi

end Stk.Analysis
