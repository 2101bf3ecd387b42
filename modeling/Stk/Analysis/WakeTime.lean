import Stk.Analysis.RelockFrame
import Stk.Analysis.StrategyMembers
import Stk.Analysis.Suspension

/-!
# The time of a wake-up

A timed sleep is one counter, which `UpdateTaskState` advances.  A timed wait is two: the
wait object counts down in `UpdateSyncObjects` and wakes the task, whose own counter stands
for an infinite sleep, so that the rest of the same tick makes it runnable.  Both end in the
tick in which the elapsed ticks reach the timeout: `run_wakeTime`.  The flag that the timeout leaves
in the wait object stays there until the task reads it, unless the task has to wait for the mutex that it
handed to `Wait`.
-/

set_option autoImplicit false

namespace Stk.Analysis

open Stk.Model Stk.Model.Kernel

variable {n : ℕ} {σ : Type} [SwitchStrategy (Fin n) σ] {cfg : Config} {k : Kernel n σ} {i : Fin n}
  {due : ℤ}

/-! ## The two counters -/

/-- Slot `i` sleeps until the tick count `due` and is in no wait. -/
structure SleepsUntil (i : Fin n) (due : ℤ) (k : Kernel n σ) : Prop where
  busy : (k.tasks i).user ≠ none
  live : (k.tasks i).removePending = false
  unlinked : (k.tasks i).waitObj.syncObj = none
  clock : (k.tasks i).timeSleep = k.ticks - due

/-- Slot `i` is in a wait that times out at the tick count `due`; its sleep counter runs
longer. -/
structure WaitsUntil (i : Fin n) (due : ℤ) (k : Kernel n σ) : Prop where
  busy : (k.tasks i).user ≠ none
  live : (k.tasks i).removePending = false
  linked : (k.tasks i).waitObj.syncObj ≠ none
  fresh : (k.tasks i).waitObj.timeout = false
  left : (k.tasks i).waitObj.timeWait = due - k.ticks
  soon : due - k.ticks < waitInfinite
  clock : (k.tasks i).timeSleep < k.ticks - due
  call : k.call i ≠ none

/-- The wait of slot `i` timed out at `due`, and its task is runnable. -/
structure TimedOut (i : Fin n) (due : ℤ) (k : Kernel n σ) : Prop where
  past : due ≤ k.ticks
  awake : (k.tasks i).isSleeping = false
  unlinked : (k.tasks i).waitObj.syncObj = none
  result : k.waitResult i = some .timeout

/-- The steps that do not end the sleep of slot `i` themselves: they neither wake nor remove
it, are no call of its own task, and re-arm no period of it. -/
def NotWoken (cfg : Config) (i : Fin n) (k : Kernel n σ) : KernelEvent n → Prop
  | .onTick e => ¬Rearms cfg (({ k with ticks := k.ticks + e } : Kernel n σ).updateTasks cfg e).1 i
  | e => Undisturbed cfg i k e

/-- INTERNAL: an event other than a tick that does not wake the task. -/
theorem NotWoken.undisturbed {e : KernelEvent n} (he : NotWoken cfg i k e)
    (htick : ∀ t, e ≠ .onTick t) : Undisturbed cfg i k e := by
  cases e with
  | onTick t => exact absurd rfl (htick t)
  | _ => exact he

namespace SleepsUntil

omit [SwitchStrategy (Fin n) σ] in
/-- INTERNAL: the task sleeps as long as its time has not come. -/
theorem isSleeping_iff (h : SleepsUntil i due k) : (k.tasks i).isSleeping = true ↔ k.ticks < due := by
  rw [KernelTask.isSleeping_iff, h.clock]
  omega

omit [SwitchStrategy (Fin n) σ] in
/-- INTERNAL: the frame keeps the sleep. -/
theorem frame {k' : Kernel n σ} (h : SleepsUntil i due k) (hs : SameSlot i k k') :
    SleepsUntil i due k' where
  busy := by rw [hs.user]; exact h.busy
  live := by rw [hs.remove]; exact h.live
  unlinked := by rw [hs.waitObj]; exact h.unlinked
  clock := by rw [hs.time, hs.ticks]; exact h.clock

/-- INTERNAL: a tick brings the end nearer. -/
theorem onTick (h : SleepsUntil i due k) (hk : Linked k) (hlt : k.ticks < due) {e : ℤ}
    (hout : ¬Rearms cfg (({ k with ticks := k.ticks + e } : Kernel n σ).updateTasks cfg e).1 i) :
    SleepsUntil i due (k.onTick cfg e).1 := by
  have hclock := h.clock
  obtain hself | ⟨hremove, -⟩ := SameSlot.onTick_or_removed e
    (SameSlot.sync cfg e hk (.inl h.unlinked)) h.busy (show (k.tasks i).timeSleep < 0 by omega) hout
  · refine frame (k := SameSlot.advanced i e { k with ticks := k.ticks + e }) ⟨?_, ?_, ?_, ?_⟩ hself
    · simpa [SameSlot.advanced, Kernel.setTask] using h.busy
    · simpa [SameSlot.advanced, Kernel.setTask] using h.live
    · simpa [SameSlot.advanced, Kernel.setTask] using h.unlinked
    · simp only [SameSlot.advanced, Kernel.setTask, Function.update_self]
      omega
  · exact absurd (h.live.symm.trans hremove) Bool.false_ne_true

/-- INTERNAL: a sleep of `t` ticks ends after `t` ticks. -/
theorem scheduleSleep (hbusy : (k.tasks i).user ≠ none) (hlive : (k.tasks i).removePending = false)
    (hobj : (k.tasks i).waitObj.syncObj = none) (t : ℤ) :
    SleepsUntil i (k.ticks + t) (k.scheduleSleep i t) := by
  refine ⟨?_, ?_, ?_, ?_⟩
  · simpa [Kernel.scheduleSleep, Kernel.setTask, KernelTask.scheduleSleep] using hbusy
  · simpa [Kernel.scheduleSleep, Kernel.setTask, KernelTask.scheduleSleep] using hlive
  · simpa [Kernel.scheduleSleep, Kernel.setTask, KernelTask.scheduleSleep] using hobj
  · simp only [Kernel.scheduleSleep, Kernel.setTask, KernelTask.scheduleSleep, Function.update_self]
    omega

/-- `SleepUntil(now + t)`. -/
theorem sleepUntil {t : ℤ} (hhrt : cfg.isHrtMode = false) (hcall : k.canCall i = true)
    (hobj : (k.tasks i).waitObj.syncObj = none) (hlive : (k.tasks i).removePending = false) (hpos : 0 < t)
    (ht : t ≤ waitInfinite) : SleepsUntil i (k.ticks + t) (k.step cfg (.sleepUntil i (k.ticks + t))) := by
  have hstep : k.step cfg (.sleepUntil i (k.ticks + t)) = k.scheduleSleep i t := by
    have hdelta : k.ticks + t - k.ticks = t := by omega
    simp only [Kernel.step, Kernel.onTaskSleepUntil, hcall, hhrt, hdelta, min_eq_left ht]
    simp [hpos]
  rw [hstep]
  exact .scheduleSleep (canCall_iff.mp hcall).2.1 hlive hobj _

end SleepsUntil

namespace WaitsUntil

omit [SwitchStrategy (Fin n) σ] in
/-- INTERNAL: the task sleeps as long as its time has not come. -/
theorem isSleeping (h : WaitsUntil i due k) (hlt : k.ticks < due) : (k.tasks i).isSleeping = true := by
  have hclock := h.clock
  rw [KernelTask.isSleeping_iff]
  omega

omit [SwitchStrategy (Fin n) σ] in
/-- INTERNAL: the frame keeps the wait. -/
theorem frame {k' : Kernel n σ} (h : WaitsUntil i due k) (hs : SameSlot i k k') :
    WaitsUntil i due k' where
  busy := by rw [hs.user]; exact h.busy
  live := by rw [hs.remove]; exact h.live
  linked := by rw [hs.waitObj]; exact h.linked
  fresh := by rw [hs.waitObj]; exact h.fresh
  left := by rw [hs.waitObj, hs.ticks]; exact h.left
  soon := by rw [hs.ticks]; exact h.soon
  clock := by rw [hs.time, hs.ticks]; exact h.clock
  call := by rw [hs.call]; exact h.call

omit [SwitchStrategy (Fin n) σ] in
/-- INTERNAL: the sync objects' part of a tick counts the wait down, and ends it when its time
is over. -/
theorem tickWaitObj (h : WaitsUntil i due k) (e : ℤ) :
    Kernel.tickWaitObj e { k with ticks := k.ticks + e } i =
      if due ≤ k.ticks + e then ({ k with ticks := k.ticks + e } : Kernel n σ).wakeWaitObj i true
      else ({ k with ticks := k.ticks + e } : Kernel n σ).setTask i (fun t =>
        { t with waitObj := { t.waitObj with timeWait := t.waitObj.timeWait - e } }) := by
  obtain ⟨o, ho⟩ := Option.ne_none_iff_exists'.mp h.linked
  have hleft := h.left
  have hsoon := h.soon
  have hne : (k.tasks i).waitObj.timeWait ≠ waitInfinite := by omega
  rw [Good.tickWaitObj_eq (k := { k with ticks := k.ticks + e }) ho h.fresh]
  by_cases hout : due ≤ k.ticks + e
  · rw [if_pos hout, if_pos ⟨hne, by show (k.tasks i).waitObj.timeWait - e ≤ 0; omega⟩]
  · rw [if_neg hout, if_neg (fun hcond => hout (by
      have htime : (k.tasks i).waitObj.timeWait - e ≤ 0 := hcond.2
      omega))]
    simp only [Kernel.setTask, if_neg hne]

omit [SwitchStrategy (Fin n) σ] in
/-- INTERNAL: the sync objects' part leaves the task in the slot asleep. -/
theorem tickWaitObj_slot (h : WaitsUntil i due k) {e : ℤ} (he : 0 < e) :
    ((Kernel.tickWaitObj e { k with ticks := k.ticks + e } i).tasks i).user = (k.tasks i).user ∧
      ((Kernel.tickWaitObj e { k with ticks := k.ticks + e } i).tasks i).removePending = false ∧
      ((Kernel.tickWaitObj e { k with ticks := k.ticks + e } i).tasks i).timeSleep < 0 := by
  obtain ⟨o, ho⟩ := Option.ne_none_iff_exists'.mp h.linked
  have hlive := h.live
  have hclock := h.clock
  rw [h.tickWaitObj]
  split
  · rw [wakeWaitObj_eq (k := { k with ticks := k.ticks + e }) ho]
    simpa using hlive
  · next hlt =>
    refine ⟨?_, ?_, ?_⟩
    · simp [Kernel.setTask]
    · simpa [Kernel.setTask] using hlive
    · simp only [Kernel.setTask, Function.update_self]
      omega

/-- INTERNAL: a tick, as the waiting task sees it. -/
theorem onTick_slot (h : WaitsUntil i due k) (hk : Linked k) (hsync : cfg.isSyncMode = true) {e : ℤ} (he : 0 < e)
    (hout : ¬Rearms cfg (({ k with ticks := k.ticks + e } : Kernel n σ).updateTasks cfg e).1 i) :
    SameSlot i (SameSlot.advanced i e (Kernel.tickWaitObj e { k with ticks := k.ticks + e } i))
      (k.onTick cfg e).1 := by
  obtain ⟨o, ho⟩ := Option.ne_none_iff_exists'.mp h.linked
  obtain ⟨huser, hlive, hs⟩ := h.tickWaitObj_slot he
  have honce := SameSlot.updateSyncObjects_once (k := { k with ticks := k.ticks + e }) e
    ⟨hk.mem, hk.nodup, hk.syncNodup, hk.registered⟩ ho
  obtain hself | ⟨hremove, -⟩ := SameSlot.onTick_or_removed e (honce.trans (by rw [if_pos hsync]))
    (by rw [huser]; exact h.busy) hs hout
  · exact hself
  · exact absurd (hlive.symm.trans hremove) Bool.false_ne_true

/-- INTERNAL: a tick before the end of the wait. -/
theorem onTick_before (h : WaitsUntil i due k) (hk : Linked k) (hsync : cfg.isSyncMode = true) {e : ℤ}
    (hlt : k.ticks + e < due) (he : 0 < e)
    (hout : ¬Rearms cfg (({ k with ticks := k.ticks + e } : Kernel n σ).updateTasks cfg e).1 i) :
    WaitsUntil i due (k.onTick cfg e).1 := by
  have hclock := h.clock
  have hleft := h.left
  have hsoon := h.soon
  have hself := h.onTick_slot hk hsync he hout
  rw [h.tickWaitObj, if_neg (not_le.mpr hlt)] at hself
  refine frame ⟨?_, ?_, ?_, ?_, ?_, ?_, ?_, ?_⟩ hself
  · simpa [SameSlot.advanced, Kernel.setTask] using h.busy
  · simpa [SameSlot.advanced, Kernel.setTask] using h.live
  · simpa [SameSlot.advanced, Kernel.setTask] using h.linked
  · simpa [SameSlot.advanced, Kernel.setTask] using h.fresh
  · simp only [SameSlot.advanced, Kernel.setTask, Function.update_self]
    omega
  · show due - (k.ticks + e) < waitInfinite
    omega
  · simp only [SameSlot.advanced, Kernel.setTask, Function.update_self]
    omega
  · exact h.call

/-- INTERNAL: the tick that ends the wait.  The sync object wakes the task with one tick left
to sleep, and `UpdateTaskState` takes it in the same tick. -/
theorem onTick_last (h : WaitsUntil i due k) (hk : Linked k) (hsync : cfg.isSyncMode = true) {e : ℤ}
    (hle : due ≤ k.ticks + e) (he : 0 < e)
    (hout : ¬Rearms cfg (({ k with ticks := k.ticks + e } : Kernel n σ).updateTasks cfg e).1 i) :
    TimedOut i due (k.onTick cfg e).1 := by
  obtain ⟨o, ho⟩ := Option.ne_none_iff_exists'.mp h.linked
  have hself := h.onTick_slot hk hsync he hout
  rw [h.tickWaitObj, if_pos hle, wakeWaitObj_eq (k := { k with ticks := k.ticks + e }) ho] at hself
  have hawake : ((k.onTick cfg e).1.tasks i).isSleeping = false := by
    rw [KernelTask.isSleeping, hself.time]
    simp only [SameSlot.advanced, Kernel.setTask, Function.update_self, decide_eq_false_iff_not]
    omega
  refine ⟨?_, hawake, ?_, ?_⟩
  · rw [hself.ticks]
    exact hle
  · rw [hself.waitObj]
    simp [SameSlot.advanced, Kernel.setTask]
  · obtain ⟨c, hc⟩ := Option.ne_none_iff_exists'.mp h.call
    have hcall : (k.onTick cfg e).1.call i = some { c with woken := some true } := by
      rw [hself.call]
      simp [SameSlot.advanced, Kernel.setTask, hc]
    have hobj : ((k.onTick cfg e).1.tasks i).waitObj.timeout = true := by
      rw [hself.waitObj]
      simp [SameSlot.advanced, Kernel.setTask]
    simp [Kernel.waitResult, hcall, hawake, hobj]

/-- INTERNAL: the call that begins the wait. -/
theorem onTaskWait {t : ℤ} (hpos : 0 < t) (ht : t < waitInfinite) (hbusy : (k.tasks i).user ≠ none)
    (hlive : (k.tasks i).removePending = false) (hobj : (k.tasks i).waitObj.syncObj = none) (o : SyncId) :
    WaitsUntil i (k.ticks + t) (k.onTaskWait i o t) := by
  rw [onTaskWait_eq hpos.ne' hobj]
  refine ⟨?_, ?_, ?_, ?_, ?_, ?_, ?_, ?_⟩
  · simpa [KernelTask.scheduleSleep] using hbusy
  · simpa [KernelTask.scheduleSleep] using hlive
  · simp [KernelTask.scheduleSleep]
  · simp [KernelTask.scheduleSleep]
  · simp only [KernelTask.scheduleSleep, Function.update_self]
    omega
  · show k.ticks + t - k.ticks < waitInfinite
    omega
  · simp only [KernelTask.scheduleSleep, Function.update_self]
    omega
  · simp

end WaitsUntil

/-! ## Runs -/

/-- The call puts the task in slot `i` to sleep for `t` ticks: `Sleep(t)`, `SleepUntil(now + t)` or a `Wait` with
timeout `t`, made by the task itself, by a `TimedLock` or with a mutex.  The task is not linked in a wait list and not
scheduled for removal. -/
def SleepsFor (cfg : Config) (s : WaitSystem n σ) (i : Fin n) (t : ℤ) (e : WaitEvent n) : Prop :=
  s.system.panic = false ∧ s.system.kernel.canCall i = true ∧
    (s.system.kernel.tasks i).waitObj.syncObj = none ∧ (s.system.kernel.tasks i).removePending = false ∧
    match e with
    | .system (.kernel (.sleep j ticks)) => j = i ∧ ticks = t ∧ cfg.isHrtMode = false
    | .system (.kernel (.sleepUntil j timestamp)) =>
      j = i ∧ timestamp = s.system.kernel.ticks + t ∧ cfg.isHrtMode = false
    | .system (.kernel (.wait j o timeout)) => j = i ∧ timeout = t ∧ cfg.isSyncMode = true ∧ o.isObject = true
    | .system (.timedLock j m timeout) => j = i ∧ timeout = t ∧ cfg.isSyncMode = true ∧ Contended s.system i m
    | .wait j o m timeout => j = i ∧ timeout = t ∧ cfg.isSyncMode = true ∧ o.isObject = true ∧
      (s.system.mutex m).ownerTid = (s.system.kernel.tasks i).user ∧ (s.system.mutex m).recursionCount ≠ 0
    | _ => False

/-- The call waits. -/
def isWait : WaitEvent n → Bool
  | .system (.kernel (.wait _ _ _)) | .system (.timedLock _ _ _) | .wait _ _ _ _ => true
  | _ => false

/-- The events that do not end the sleep of slot `i` themselves. -/
def NotWokenBy (cfg : Config) (i : Fin n) (s : WaitSystem n σ) : WaitEvent n → Prop
  | .system (.kernel e) => NotWoken cfg i s.system.kernel e
  | .system (.timedLock j _ _) | .system (.lockReturn j) | .waitReturn j | .relockReturn j => j ≠ i
  | .system (.unlock _ m) => (s.system.kernel.waitList (.mutex m)).head? ≠ some i
  | .wait j _ m _ => j ≠ i ∧ (s.system.kernel.waitList (.mutex m)).head? ≠ some i

/-- The sleep that a call began, a wait or not, is under way or over, as the time says. -/
def Dozes (cfg : Config) (i : Fin n) (due : ℤ) (wait : Bool) (k : Kernel n σ) : Prop :=
  if wait then cfg.isSyncMode = true ∧ (k.ticks < due ∧ WaitsUntil i due k ∨ TimedOut i due k)
  else SleepsUntil i due k

omit [SwitchStrategy (Fin n) σ] in
/-- INTERNAL: a wait that begins. -/
theorem Dozes.of_waitsUntil {t : ℤ} (hpos : 0 < t) (hsync : cfg.isSyncMode = true) {k' : Kernel n σ}
    (h : WaitsUntil i (k.ticks + t) k') (hticks : k'.ticks = k.ticks) : Dozes cfg i (k.ticks + t) true k' := by
  unfold Dozes
  rw [if_pos rfl]
  exact ⟨hsync, .inl ⟨by omega, h⟩⟩

omit [SwitchStrategy (Fin n) σ] in
/-- INTERNAL: the waiters of a mutex wait for nothing else. -/
theorem head_ne (hk : Linked k) {o : SyncId} (ho : (k.tasks i).waitObj.syncObj = some o) {m : ℕ} (hne : o ≠ .mutex m) :
    (k.waitList (.mutex m)).head? ≠ some i := by
  intro hhead
  obtain ⟨rest, hw⟩ := List.head?_eq_some_iff.mp hhead
  have hmem : i ∈ k.waitList (.mutex m) := by
    rw [hw]
    exact List.mem_cons_self
  rw [← hk.mem, ho] at hmem
  exact hne (Option.some.inj hmem)

/-- INTERNAL: the call that begins the sleep. -/
theorem SleepsFor.dozes {s : WaitSystem n σ} (hk : Linked s.system.kernel) {e₀ : WaitEvent n} {t : ℤ} (hpos : 0 < t)
    (ht : t < waitInfinite) (h : SleepsFor cfg s i t e₀) :
    Dozes cfg i (s.system.kernel.ticks + t) (isWait e₀) (s.step cfg e₀).system.kernel := by
  obtain ⟨hpanic, hcall, hobj, hlive, h⟩ := h
  obtain ⟨-, hbusy, -⟩ := canCall_iff.mp hcall
  have hkernel : ∀ c : KernelEvent n, (∀ j, c ≠ .waitReturn j) → c.isDirect = true →
      (s.step cfg (.system (.kernel c))).system.kernel = s.system.kernel.step cfg c := by
    intro c hc hdirect
    have hhands : s.handsMutex (.kernel c) = false := by
      cases c with
      | waitReturn j => exact absurd rfl (hc j)
      | _ => rfl
    simp only [WaitSystem.step, WaitSystem.stepResult, hhands, Bool.false_eq_true, if_false]
    show (s.system.step cfg (.kernel c)).kernel = _
    rw [step_kernel cfg s.system hc, hpanic, hdirect]
    rfl
  split at h
  · next j ticks =>
    obtain ⟨rfl, rfl, hhrt⟩ := h
    have hstep : s.system.kernel.step cfg (.sleep j ticks) = s.system.kernel.scheduleSleep j ticks := by
      simp [Kernel.step, Kernel.onTaskSleep, hcall, hhrt, hpos, hpos.le, ht.le]
    rw [hkernel _ (by simp) rfl, hstep]
    exact SleepsUntil.scheduleSleep hbusy hlive hobj _
  · next j timestamp =>
    obtain ⟨rfl, rfl, hhrt⟩ := h
    rw [hkernel _ (by simp) rfl]
    exact SleepsUntil.sleepUntil hhrt hcall hobj hlive hpos ht.le
  · next j o timeout =>
    obtain ⟨rfl, rfl, hsync, ho⟩ := h
    have hstep : s.system.kernel.step cfg (.wait j o timeout) = s.system.kernel.onTaskWait j o timeout := by
      simp [Kernel.step, hcall, hsync, ht.le]
    have hdirect : (KernelEvent.wait j o timeout).isDirect = true := by
      cases o with
      | mutex m => cases ho
      | object c => rfl
    rw [hkernel _ (by simp) hdirect, hstep]
    exact .of_waitsUntil hpos hsync (.onTaskWait hpos ht hbusy hlive hobj o) (by rw [onTaskWait_eq hpos.ne' hobj])
  · next j m timeout =>
    obtain ⟨rfl, rfl, hsync, hcount, howner⟩ := h
    obtain ⟨tid, huser⟩ := Option.ne_none_iff_exists'.mp hbusy
    have hsame := SameSlot.inheritWeight cfg j s.system.kernel (s.system.mutex m).ownerTid (cfg.weight tid)
    have hstep : (s.step cfg (.system (.timedLock j m timeout))).system.kernel =
        (s.system.kernel.inheritWeight cfg (s.system.mutex m).ownerTid (cfg.weight tid)).onTaskWait j (.mutex m)
          timeout := by
      show (s.system.step cfg (.timedLock j m timeout)).kernel = _
      simp only [System.step, System.stepResult, huser, hpanic, hcall, ht.le, Bool.not_false, Bool.true_and, decide_true,
        if_true]
      unfold System.timedLock
      dsimp only
      rw [if_neg (fun hown => howner (hown.2.trans huser.symm)), if_neg hcount, if_pos hpos.ne', if_pos hsync]
      split
      · rfl
      · rfl
    have hwaits : WaitsUntil j _ _ := .onTaskWait hpos ht (k := s.system.kernel.inheritWeight cfg
      (s.system.mutex m).ownerTid (cfg.weight tid)) (by rw [hsame.user]; exact hbusy) (by rw [hsame.remove]; exact hlive)
      (by rw [hsame.waitObj]; exact hobj) (.mutex m)
    rw [hsame.ticks] at hwaits
    rw [hstep]
    refine .of_waitsUntil hpos hsync hwaits ?_
    rw [onTaskWait_eq hpos.ne' (by rw [hsame.waitObj]; exact hobj)]
    exact hsame.ticks
  · next j o m timeout =>
    obtain ⟨rfl, rfl, hsync, ho, howner, hcount⟩ := h
    obtain ⟨tid, huser⟩ := Option.ne_none_iff_exists'.mp hbusy
    have hidle : (s.system.kernel.tasks j).isWaiting = false := by simp [KernelTask.isWaiting, hobj]
    have hstep : (s.step cfg (.wait j o m timeout)).system.kernel =
        (System.unlock cfg { s.system with kernel := s.system.kernel.onTaskWait j o timeout } tid m).kernel := by
      simp only [WaitSystem.step, WaitSystem.stepResult, huser]
      rw [if_pos (by simp [hpanic, hcall, hsync, hidle, ho, howner.trans huser, hpos.ne', ht.le, hcount])]
      rfl
    have hwaits := WaitsUntil.onTaskWait hpos ht hbusy hlive hobj o
    have hsame : SameSlot j (s.system.kernel.onTaskWait j o timeout) _ :=
      unlock_sameSlot (s := { s.system with kernel := s.system.kernel.onTaskWait j o timeout }) cfg tid (m := m)
        (head_ne (onTaskWait_linked hk j o timeout) (o := o)
          (by rw [onTaskWait_eq hpos.ne' hobj]; simp [KernelTask.scheduleSleep])
          (by rintro rfl; cases ho))
    rw [hstep]
    refine .of_waitsUntil hpos hsync (hwaits.frame hsame) (hsame.ticks.trans ?_)
    rw [onTaskWait_eq hpos.ne' hobj]
  · exact h.elim

omit [SwitchStrategy (Fin n) σ] in
/-- INTERNAL: the task sleeps as long as its time has not come. -/
theorem Dozes.isSleeping_iff {wait : Bool} (h : Dozes cfg i due wait k) :
    (k.tasks i).isSleeping = true ↔ k.ticks < due := by
  unfold Dozes at h
  split at h
  · rcases h.2 with ⟨hlt, hwait⟩ | hout
    · exact iff_of_true (hwait.isSleeping hlt) hlt
    · have hpast := hout.past
      exact iff_of_false (by rw [hout.awake]; exact Bool.false_ne_true) (by omega)
  · exact h.isSleeping_iff

/-- INTERNAL: one step before the end of a sleep. -/
theorem SleepsUntil.step {e : KernelEvent n} (h : SleepsUntil i due k) (hk : Linked k)
    (hlt : k.ticks < due) (he : NotWoken cfg i k e) : SleepsUntil i due (k.step cfg e) := by
  by_cases htick : ∀ t, e ≠ .onTick t
  · exact h.frame (step_sameSlot h.busy (h.isSleeping_iff.mpr hlt) (he.undisturbed htick) htick)
  · obtain ⟨t, rfl⟩ := not_forall_not.mp htick
    simp only [Kernel.step]
    split
    · exact h.onTick hk hlt he
    · exact h

/-- A sleep that no step ends before its time. -/
theorem SleepsUntil.run (h : SleepsUntil i due k) (hk : Linked k) {es : List (KernelEvent n)}
    (hes : Runs.Along (Kernel.step cfg) (fun k e => k.ticks < due ∧ NotWoken cfg i k e) k es) :
    SleepsUntil i due (es.foldl (Kernel.step cfg) k) := by
  have hend := hes.invariant (I := fun k => SleepsUntil i due k ∧ Linked k)
    (fun k e hk he => ⟨hk.1.step hk.2 he.1 he.2, step_linked cfg hk.2 e⟩) ⟨h, hk⟩
  exact hend.1

/-- INTERNAL: one step before the end of a wait. -/
theorem WaitsUntil.step {e : KernelEvent n} (h : WaitsUntil i due k) (hk : Linked k)
    (hsync : cfg.isSyncMode = true) (hlt : k.ticks < due) (he : NotWoken cfg i k e) :
    (k.step cfg e).ticks < due ∧ WaitsUntil i due (k.step cfg e) ∨ TimedOut i due (k.step cfg e) := by
  by_cases htick : ∀ t, e ≠ .onTick t
  · have hsame := step_sameSlot h.busy (h.isSleeping hlt) (he.undisturbed htick) htick
    left
    rw [hsame.ticks]
    exact ⟨hlt, h.frame hsame⟩
  · obtain ⟨t, rfl⟩ := not_forall_not.mp htick
    simp only [Kernel.step]
    split
    · next hvalid =>
      simp only [validElapsed, Bool.and_eq_true, decide_eq_true_eq] at hvalid
      have hpos : 0 < t := hvalid.2.1.1
      by_cases hend : due ≤ k.ticks + t
      · exact .inr (h.onTick_last hk hsync hend hpos he)
      · left
        rw [onTick_ticks]
        exact ⟨not_le.mp hend, h.onTick_before hk hsync (not_le.mp hend) hpos he⟩
    · exact .inl ⟨hlt, h⟩

namespace Dozes

/-- INTERNAL: an event that does not wake the task. -/
theorem step {wait : Bool} {e : KernelEvent n} (h : Dozes cfg i due wait k) (hk : Linked k)
    (hlt : k.ticks < due) (he : NotWoken cfg i k e) : Dozes cfg i due wait (k.step cfg e) := by
  unfold Dozes at h ⊢
  by_cases hwait : wait = true
  · rw [if_pos hwait] at h ⊢
    obtain ⟨hsync, ⟨-, hwaits⟩ | hout⟩ := h
    · exact ⟨hsync, hwaits.step hk hsync hlt he⟩
    · exact absurd hlt (not_lt.mpr hout.past)
  · rw [if_neg hwait] at h ⊢
    exact h.step hk hlt he


omit [SwitchStrategy (Fin n) σ] in
/-- INTERNAL: the frame keeps the sleep. -/
theorem frame {wait : Bool} {k' : Kernel n σ} (h : Dozes cfg i due wait k) (hlt : k.ticks < due)
    (hs : SameSlot i k k') : Dozes cfg i due wait k' := by
  unfold Dozes at h ⊢
  by_cases hwait : wait = true
  · rw [if_pos hwait] at h ⊢
    obtain ⟨hsync, ⟨-, hwaits⟩ | hout⟩ := h
    · exact ⟨hsync, .inl ⟨by rw [hs.ticks]; exact hlt, hwaits.frame hs⟩⟩
    · exact absurd hlt (not_lt.mpr hout.past)
  · rw [if_neg hwait] at h ⊢
    exact h.frame hs

omit [SwitchStrategy (Fin n) σ] in
/-- INTERNAL: a wait is over when its time has come. -/
theorem timedOut (h : Dozes cfg i due true k) (hle : due ≤ k.ticks) : TimedOut i due k := by
  unfold Dozes at h
  rw [if_pos rfl] at h
  rcases h.2 with ⟨hlt, -⟩ | hout
  · exact absurd hlt (not_lt.mpr hle)
  · exact hout

end Dozes

section Waits

variable {s : WaitSystem n σ}

/-- INTERNAL: an event that does not wake the task is one kernel call that does not, or leaves its slot alone. -/
theorem NotWokenBy.passes {e : WaitEvent n} (he : NotWokenBy cfg i s e) :
    (∃ c, NotWoken cfg i s.system.kernel c ∧ (s.step cfg e).system.kernel = s.system.kernel.step cfg c) ∨
      SameSlot i s.system.kernel (s.step cfg e).system.kernel := by
  cases e with
  | system e =>
    simp only [WaitSystem.step, WaitSystem.stepResult]
    split
    · exact .inr (.refl i _)
    · show (∃ c, _ ∧ (s.system.step cfg e).kernel = _) ∨ SameSlot i s.system.kernel (s.system.step cfg e).kernel
      cases e with
      | timedLock j m timeout =>
        right
        refine system_sameSlot (by simp) (fun m' t' heq => ?_) (by simp) (by simp)
        cases heq
        exact he rfl
      | lockReturn j =>
        right
        refine system_sameSlot (by simp) (by simp) (fun heq => ?_) (by simp)
        cases heq
        exact he rfl
      | unlock j m =>
        right
        refine system_sameSlot (by simp) (by simp) (by simp) (fun j' m' heq => ?_)
        cases heq
        exact he
      | kernel c =>
        by_cases hreturn : ∃ j, c = .waitReturn j
        · obtain ⟨j, rfl⟩ := hreturn
          simp only [System.step, System.stepResult]
          split
          · exact .inl ⟨.waitReturn j, he, rfl⟩
          · exact .inr (.refl i _)
        · rw [step_kernel cfg s.system (fun j hj => hreturn ⟨j, hj⟩)]
          split
          · exact .inl ⟨c, he, rfl⟩
          · exact .inr (.refl i _)
  | wait j o m timeout =>
    right
    simp only [WaitSystem.step, WaitSystem.stepResult]
    split
    · exact .refl i _
    · next tid _ =>
      split
      · next hmade =>
        simp only [Bool.and_eq_true, decide_eq_true_eq, Bool.not_eq_true'] at hmade
        have hobj : (s.system.kernel.tasks j).waitObj.syncObj = none := by
          simpa [KernelTask.isWaiting] using hmade.1.1.1.2
        have hlist : (s.system.kernel.onTaskWait j o timeout).waitList (.mutex m) =
            s.system.kernel.waitList (.mutex m) := by
          rw [onTaskWait_eq hmade.1.1.1.1.1.2 hobj]
          refine Function.update_of_ne ?_ _ _
          rintro rfl
          cases hmade.1.1.2
        exact (SameSlot.onTaskWait_ne he.1 _ o timeout).trans (unlock_sameSlot
          (s := { s.system with kernel := s.system.kernel.onTaskWait j o timeout }) cfg tid
          (by rw [hlist]; exact he.2))
      · exact .refl i _
  | waitReturn j =>
    right
    simp only [WaitSystem.step, WaitSystem.stepResult]
    split
    · split
      · split
        · exact relock_sameSlot he _ _
        · exact relock_sameSlot he _ _
      · exact .refl i _
    · exact .refl i _
  | relockReturn j =>
    right
    obtain heq | heq := relockReturn_kernel cfg s j
    · rw [heq]
    · rw [heq]
      refine system_sameSlot (by simp) (by simp) (fun hj => ?_) (by simp)
      cases hj
      exact he rfl

/-- INTERNAL: an event of the whole system that does not wake the task. -/
theorem Dozes.stepBy {wait : Bool} {e : WaitEvent n} (h : Dozes cfg i due wait s.system.kernel)
    (hk : Linked s.system.kernel) (hlt : s.system.kernel.ticks < due) (he : NotWokenBy cfg i s e) :
    Dozes cfg i due wait (s.step cfg e).system.kernel := by
  obtain ⟨c, hc, heq⟩ | hsame := he.passes
  · rw [heq]
    exact h.step hk hlt hc
  · exact h.frame hlt hsame

/-! ### After the wake-up -/

/-- The task in slot `i` is still inside its `Wait` after the event. -/
def StaysInside (cfg : Config) (i : Fin n) (s : WaitSystem n σ) (e : WaitEvent n) : Prop :=
  e ≠ .waitReturn i ∧ (s.step cfg e).system.kernel.call i ≠ none

/-- The mutex is free, or locked by the task in slot `i` itself. -/
def AtOnce (s : System n σ) (i : Fin n) (m : ℕ) : Prop :=
  s.mutex m = ⟨none, 0⟩ ∨ (s.mutex m).ownerTid = (s.kernel.tasks i).user ∧ (s.mutex m).recursionCount ≠ 0 ∧
    (s.mutex m).recursionCount < recursionMax

/-- The task in slot `i` leaves its spin, and its `Wait` returns at once. -/
def LeavesWait (i : Fin n) (s : WaitSystem n σ) : WaitEvent n → Prop
  | .system e => e.returns = some i ∧ s.handsMutex e = false ∧ s.system.ends e = true
  | .waitReturn j => j = i ∧ s.system.panic = false ∧ s.system.kernel.isStarted = true ∧
    ∃ tid m, (s.system.kernel.tasks i).user = some tid ∧ s.waiting i = some m ∧ AtOnce s.system i m
  | _ => False

/-- The wait of slot `i` has timed out, and its task has not looked at it yet. -/
structure Expired (i : Fin n) (k : Kernel n σ) : Prop where
  unlinked : (k.tasks i).waitObj.syncObj = none
  flag : (k.tasks i).waitObj.timeout = true
  inside : k.call i ≠ none

omit [SwitchStrategy (Fin n) σ] in
/-- INTERNAL: a wait that has run out. -/
theorem TimedOut.expired (h : TimedOut i due k) : Expired i k := by
  refine ⟨h.unlinked, waitResult_flag h.result, ?_⟩
  intro hnone
  have hresult := h.result
  simp [Kernel.waitResult, hnone] at hresult

/-- INTERNAL: a wait that has run out stays so until the task leaves. -/
theorem Expired.step (h : Expired i s.system.kernel) (hk : Linked s.system.kernel) {e : WaitEvent n}
    (he : StaysInside cfg i s e) : Expired i (s.step cfg e).system.kernel := by
  have hobj := (relock_signalled cfg hk (.inl h.unlinked) h.inside he.1).unlinked h.unlinked
  exact ⟨by rw [hobj]; exact h.unlinked, by rw [hobj]; exact h.flag, he.2⟩

/-- INTERNAL: a lock that is to be had at once. -/
theorem AtOnce.relock (cfg : Config) {tid : TId} {m : ℕ} (h : AtOnce s.system i m) (hi : (s.system.kernel.tasks i).user = some tid) :
    (s.relock cfg i tid m).2 = some true := by
  unfold WaitSystem.relock System.timedLock
  dsimp only
  rcases h with hfree | ⟨howner, hcount, hmax⟩
  · rw [hfree]
    rfl
  · rw [if_pos ⟨hcount, howner.trans hi⟩, if_pos hmax]

/-- INTERNAL: what the task finds in its wait object is what it returns. -/
theorem Expired.returns (h : Expired i s.system.kernel) (hawake : (s.system.kernel.tasks i).isSleeping = false)
    {e : WaitEvent n} (he : LeavesWait i s e) : (s.stepResult cfg e).2.map Prod.snd = some .timeout := by
  obtain ⟨w, hw⟩ := Option.ne_none_iff_exists'.mp h.inside
  have hresult : s.system.kernel.waitResult i = some .timeout := by
    simp [Kernel.waitResult, hw, hawake, h.flag]
  cases e with
  | system e =>
    obtain ⟨hreturns, hhands, hends⟩ := he
    simp only [WaitSystem.stepResult, hhands, Bool.false_eq_true, if_false]
    show (s.system.waitReturned e).map Prod.snd = some .timeout
    simp only [System.waitReturned, hreturns, hw, hresult, hends, if_true]
    rfl
  | waitReturn j =>
    obtain ⟨rfl, hpanic, hstarted, tid, m, huser, hm, hlock⟩ := he
    have hlocked := hlock.relock cfg huser
    simp only [WaitSystem.stepResult, huser, hm, hw, hresult, hpanic, hstarted, Bool.not_false, Bool.and_self, if_true,
      hlocked]
    obtain ⟨-, hobj⟩ | ⟨-, hwaits⟩ := relock_cases cfg j tid m huser
    · show some ((s.relock cfg j tid m).1.kernel.tasks j).waitOutcome = some .timeout
      rw [waitOutcome_congr (hobj j), waitOutcome_eq hresult]
    · rw [hlocked] at hwaits
      cases hwaits
  | wait j o m timeout => exact he.elim
  | relockReturn j => exact he.elim

end Waits

/-- **The time of a wake-up.**  A task that calls `Sleep(t)`, `SleepUntil(now + t)` or a `Wait` with timeout `t`, at any
point of any run in which no assertion on the lists fails, and that no event wakes, removes or re-arms, sleeps exactly as
long as fewer than `t` ticks have elapsed: it is runnable after the tick that makes them `t` or more, whatever the single
ticks were.  However long it takes the task to leave its spin then, the wait returns `WAIT_RESULT_TIMEOUT` if the mutex
handed to it is to be had at once.  In every state a sync object with waiters is in the kernel's list. -/
theorem run_wakeTime (cfg : Config) (es₀ : List (WaitEvent n)) (e₀ : WaitEvent n) (es : List (WaitEvent n))
    (i : Fin n) (t : ℤ) (hpos : 0 < t) (ht : t < waitInfinite)
    (hcall : SleepsFor cfg (WaitSystem.run cfg es₀ : WaitSystem n σ) i t e₀)
    (hes : Runs.Along (WaitSystem.step cfg)
      (fun s e => s.system.kernel.ticks - (WaitSystem.run cfg es₀ : WaitSystem n σ).system.kernel.ticks < t ∧
        NotWokenBy cfg i s e)
      ((WaitSystem.run cfg es₀ : WaitSystem n σ).step cfg e₀) es) :
    let start := (WaitSystem.run cfg es₀ : WaitSystem n σ).system.kernel.ticks
    let s : WaitSystem n σ := WaitSystem.run cfg (es₀ ++ e₀ :: es)
    (ListsSound s.system.kernel →
      ((s.system.kernel.tasks i).isSleeping = true ↔ s.system.kernel.ticks - start < t)) ∧
    (isWait e₀ = true → t ≤ s.system.kernel.ticks - start →
      ∀ fs e, Runs.Along (WaitSystem.step cfg) (StaysInside cfg i) s fs →
        let s' := fs.foldl (WaitSystem.step cfg) s
        ListsSound s'.system.kernel → (s'.system.kernel.tasks i).isSleeping = false → LeavesWait i s' e →
        (s'.stepResult cfg e).2.map Prod.snd = some .timeout) ∧
    ∀ fs o, let s' : WaitSystem n σ := WaitSystem.run cfg fs
      ListsSound s'.system.kernel → s'.system.kernel.waitList o ≠ [] → o ∈ s'.system.kernel.syncList := by
  intro start s
  have hlinked : ∀ fs, Linked (WaitSystem.run cfg fs : WaitSystem n σ).system.kernel := by
    intro fs
    exact (Runs.along_of_forall (P := fun _ _ => True) (fun _ _ => trivial) _ fs).invariant
      (I := fun s : WaitSystem n σ => Linked s.system.kernel) (fun _ e h _ => relock_linked h e) Linked.initial
  have hs : s = es.foldl (WaitSystem.step cfg) ((WaitSystem.run cfg es₀ : WaitSystem n σ).step cfg e₀) := by
    show WaitSystem.run cfg (es₀ ++ e₀ :: es) = _
    unfold WaitSystem.run
    rw [List.foldl_append, List.foldl_cons]
  have hend : Dozes cfg i (start + t) (isWait e₀) s.system.kernel ∧ Linked s.system.kernel := by
    rw [hs]
    apply hes.invariant (I := fun s : WaitSystem n σ =>
      Dozes cfg i (start + t) (isWait e₀) s.system.kernel ∧ Linked s.system.kernel)
    · intro s e hk he
      exact ⟨hk.1.stepBy hk.2 (by omega) he.2, relock_linked hk.2 e⟩
    · exact ⟨hcall.dozes (hlinked es₀) hpos ht, relock_linked (hlinked es₀) e₀⟩
  refine ⟨fun _ => hend.1.isSleeping_iff.trans (by omega), ?_, fun fs o _ => (hlinked fs).registered o⟩
  intro hwait hle fs e hfs s' _ hawake he
  have hdozes := hend.1
  rw [hwait] at hdozes
  have hexpired := hfs.invariant (I := fun s : WaitSystem n σ => Expired i s.system.kernel ∧ Linked s.system.kernel)
    (fun s e hk he => ⟨hk.1.step hk.2 he, relock_linked hk.2 e⟩) ⟨(hdozes.timedOut (by omega)).expired, hend.2⟩
  exact hexpired.1.returns hawake he

/-- Task 0 locks mutex 0. -/
def mutexLocked : List (WaitEvent 2) :=
  [.system (.kernel (.addTask 0)), .system (.kernel (.addTask 1)), .system (.kernel .onStart),
    .system (.timedLock 0 0 waitInfinite)]

/-- Two ticks, and task 1 has the mutex for a while. -/
def twoTicks : List (WaitEvent 2) :=
  [.system (.kernel (.onTick 1)), .system (.timedLock 1 0 waitInfinite), .system (.kernel (.onTick 1))]

theorem timedWait_two_ticks :
    SleepsFor syncConfig (WaitSystem.run syncConfig mutexLocked : WaitSystem 2 (RoundRobin (Fin 2))) 0 2
        (.wait 0 (.object 0) 0 2) ∧
      ((([.system (.unlock 1 0)] : List (WaitEvent 2)).foldl (WaitSystem.step syncConfig)
        (WaitSystem.run syncConfig (mutexLocked ++ .wait 0 (.object 0) 0 2 :: twoTicks) :
          WaitSystem 2 (RoundRobin (Fin 2)))).stepResult syncConfig (.waitReturn 0)).2.map Prod.snd =
        some .timeout := by
  have hcall : SleepsFor syncConfig (WaitSystem.run syncConfig mutexLocked : WaitSystem 2 (RoundRobin (Fin 2))) 0 2
      (.wait 0 (.object 0) 0 2) := by
    refine ⟨rfl, ?_, ?_, ?_, rfl, rfl, rfl, rfl, ?_, ?_⟩ <;> decide
  refine ⟨hcall, (run_wakeTime syncConfig mutexLocked (.wait 0 (.object 0) 0 2) twoTicks 0 2
    (by decide) (by decide) hcall ⟨⟨?_, ?_⟩, ⟨?_, ?_⟩, ⟨?_, ?_⟩, trivial⟩).2.1 rfl ?_ [.system (.unlock 1 0)]
      (.waitReturn 0) ⟨⟨?_, ?_⟩, trivial⟩ ?_ ?_ ⟨rfl, ?_, ?_, 0, 0, ?_, ?_, .inl ?_⟩⟩
  · decide
  · simp [NotWokenBy, NotWoken, Rearms, switchedOut, syncConfig]
  · decide
  · simp [NotWokenBy]
  · decide
  · simp [NotWokenBy, NotWoken, Rearms, switchedOut, syncConfig]
  all_goals decide +kernel

/-- A single periodic task waits ten ticks for an object that nobody signals.  The next tick
finds no runnable task, and `StateSleep` gives the waiting task the rest of its period to
sleep: after four ticks it runs, and `Wait` reports a signal. -/
theorem periodicWait_wakes_early :
    let es₀ : List (WaitEvent 1) := [.system (.kernel (.addTaskHrt 0 3 10 0)), .system (.kernel .onStart)]
    let e₀ : WaitEvent 1 := .system (.kernel (.wait 0 (.object 0) 10))
    let s : WaitSystem 1 (RoundRobin (Fin 1)) :=
      WaitSystem.run hrtConfig (es₀ ++ e₀ :: List.replicate 4 (.system (.kernel (.onTick 1))))
    SleepsFor hrtConfig (WaitSystem.run hrtConfig es₀ : WaitSystem 1 (RoundRobin (Fin 1))) 0 10 e₀ ∧
      (s.system.kernel.tasks 0).isSleeping = false ∧ s.system.kernel.ticks = 4 ∧ ListsSound s.system.kernel ∧
      (s.stepResult hrtConfig (.system (.kernel (.waitReturn 0)))).2.map Prod.snd = some .signal := by
  refine ⟨⟨rfl, ?_, ?_, ?_, rfl, rfl, rfl, rfl⟩, ?_, ?_, ?_, ?_⟩ <;> decide +kernel

end Stk.Analysis
