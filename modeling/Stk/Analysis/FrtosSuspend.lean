import Stk.Analysis.ParkedTask

/-!
# `vTaskSuspend` and `vTaskResume`

`SuspendTask` gives an awake task the infinite sleep and leaves a sleeping one alone, `m_state` says
`Suspended` only once `SuspendTask` has returned, and `vTaskResume` does nothing before that and wakes the task
from whatever it sleeps for after it.  `SuspendOk` says that the two records of a suspension agree; along
`FrtosOrderly` steps, which suspend awake tasks only and let no resumption fall between the two halves of a
`vTaskSuspend`, it is an invariant.
-/

set_option autoImplicit false

namespace Stk.Analysis

open Stk.Model Stk.Model.Kernel

variable {n : ℕ} {σ : Type} {cfg : Config} {k : Kernel n σ}
  {s s' : FrtosKernel n σ} {i : Fin n} {u : TId} {e : KernelEvent n}

/-! ## The two records of a suspension -/

/-- INTERNAL: some caller is inside `vTaskSuspend` of the task. -/
theorem inSuspend_iff : s.inSuspend u = true ↔ ∃ c call, s.suspending c = some call ∧ call.user = u := by
  simp [FrtosKernel.inSuspend, Option.map_eq_some_iff]

/-- A `vTaskSuspend` of the task has reached the kernel and no resumption has followed, or the task is gone. -/
def Held (s : FrtosKernel n σ) (u : TId) : Prop :=
  s.state u ≠ none ∧ (s.state u = some .ready → s.inSuspend u = true)

instance (s : FrtosKernel n σ) (u : TId) : Decidable (Held s u) := inferInstanceAs (Decidable (_ ∧ (_ → _)))

/-- What a suspension is worth: the slot of the task sleeps for nothing else, the task has the CPU only in a
`vTaskSuspend` of its own that has yet to be switched out, and it will get no second slot. -/
structure HeldOk (s : FrtosKernel n σ) (u : TId) : Prop where
  parked : ∀ i, (s.kernel.tasks i).user = some u → Parked i s.kernel
  spins : ∀ i, (s.kernel.tasks i).user = some u → s.kernel.running = some i →
    ∃ call, s.suspending (some i) = some call ∧ call.self = true
  notAsked : ∀ j, (s.kernel.tasks j).addTaskReq ≠ some u

/-- INTERNAL: what is not done by name to a `FrtosTask`. -/
theorem allows_ne {v : TId} (hv : s.isFresh v = true ∨ (s.state v).isNone = true) (hu : s.state u ≠ none) :
    v ≠ u := by
  rintro rfl
  rcases hv with hv | hv
  · simp only [FrtosKernel.isFresh, Bool.and_eq_true] at hv
    exact hu (Option.isNone_iff_eq_none.mp hv.1.1)
  · exact hu (Option.isNone_iff_eq_none.mp hv)

/-- INTERNAL: a suspended task makes no call. -/
theorem HeldOk.caller_ne (h : HeldOk s u) (hi : (s.kernel.tasks i).user = some u) {j : Fin n}
    (hcall : s.mayCall (some j) = true) : j ≠ i := by
  rintro rfl
  simp only [FrtosKernel.mayCall, Bool.and_eq_true, decide_eq_true_eq] at hcall
  obtain ⟨call, hcalls, -⟩ := h.spins j hi hcall.1.1
  rw [hcalls] at hcall
  exact absurd hcall.2 Bool.false_ne_true

/-- INTERNAL: the calls of the rest of the system spare the slot of a suspended task. -/
theorem HeldOk.spares (h : HeldOk s u) (hu : s.state u ≠ none) (hallows : s.allows e = true)
    (htick : ∀ t, e = .onTick t → ∀ i, (s.kernel.tasks i).user = some u → (s.kernel.tasks i).timeSleep + t < 0)
    (hi : (s.kernel.tasks i).user = some u) : Spares s.kernel i e := by
  cases e with
  | removeTask v => exact findTaskByUserTask_ne hi (allows_ne (.inr hallows) hu)
  | resumeTask v => exact findTaskByUserTask_ne hi (allows_ne (.inr hallows) hu)
  | sleepCancel v => exact findTaskByUserTask_ne hi (allows_ne (.inr hallows) hu)
  | sleep j t => exact h.caller_ne hi hallows
  | sleepUntil j t => exact h.caller_ne hi hallows
  | switchToNext j => exact h.caller_ne hi hallows
  | wait j o t => exact h.caller_ne hi hallows
  | taskExit j => exact h.caller_ne hi hallows
  | onTick t => exact htick t rfl i hi
  | _ => exact trivial

/-- INTERNAL: a task that is added is new. -/
theorem adds_fresh (hallows : s.allows e = true) {v : TId} (hadd : KernelEvent.adds e = some v) :
    s.isFresh v = true := by
  cases e with
  | addTask w =>
    cases hadd
    simp only [FrtosKernel.allows, Bool.and_eq_true] at hallows
    exact hallows.2
  | requestAddTask j w =>
    cases hadd
    simp only [FrtosKernel.allows, Bool.and_eq_true] at hallows
    exact hallows.2
  | addTaskHrt _ _ _ _ => cases hallows
  | _ => cases hadd

/-- INTERNAL: an unknown task is not held. -/
theorem Unknown.heldOk (h : Unknown u s.kernel) : HeldOk s u :=
  ⟨fun i hi => absurd hi (h i).1, fun i hi => absurd hi (h i).1, fun j => (h j).2⟩

/-- INTERNAL: the kernel does not know a new task. -/
theorem fresh_unknown (h : s.isFresh u = true) : Unknown u s.kernel := by
  simp only [FrtosKernel.isFresh, Kernel.knows, Bool.and_eq_true, Bool.not_eq_true', decide_eq_false_iff_not,
    not_exists, not_or] at h
  exact h.1.2

/-- INTERNAL: nothing else decides on it. -/
theorem Held.congr (h : Held s u) (hstate : s'.state u = s.state u) (hsuspending : s'.suspending = s.suspending) :
    Held s' u := by
  unfold Held FrtosKernel.inSuspend at h ⊢
  rw [hstate, hsuspending]
  exact h

/-- INTERNAL: a suspended task is held. -/
theorem held_of_suspended (h : s.state u = some .suspended) : Held s u := by
  unfold Held
  rw [h]
  exact ⟨Option.some_ne_none _, nofun⟩

/-- INTERNAL: a task that may call is in no `vTaskSuspend`. -/
theorem mayCall_free {c : Option (Fin n)} (h : s.mayCall c = true) : s.suspending c = none := by
  cases c with
  | none =>
    simp only [FrtosKernel.mayCall, Bool.and_eq_true] at h
    exact Option.isNone_iff_eq_none.mp h.2
  | some i =>
    simp only [FrtosKernel.mayCall, Bool.and_eq_true] at h
    exact Option.isNone_iff_eq_none.mp h.2

variable [SwitchStrategy (Fin n) σ]

/-- INTERNAL: a call of `vTaskSuspend` leaves those under way alone. -/
theorem suspending_kept {c c' : Option (Fin n)} {v : TId} {call : SuspendCall} (hcall : s.mayCall c = true)
    (h : s.suspending c' = some call) : (s.vTaskSuspend c v).suspending c' = some call := by
  have hne : c' ≠ c := by
    rintro rfl
    rw [mayCall_free hcall] at h
    cases h
  exact (Function.update_of_ne hne _ _).trans h

/-! ## Who is suspended after a step -/

namespace Held

/-- INTERNAL: a task that is held after `xTaskCreate` was held before. -/
theorem of_xTaskCreate {c : Option (Fin n)} {v : TId} (hfresh : s.isFresh v = true)
    (h : Held (s.xTaskCreate cfg c v) u) : Held s u := by
  have hne : u ≠ v := by
    rintro rfl
    have hcall : s.inSuspend u = true := h.2 (Function.update_self _ _ _)
    simp only [FrtosKernel.isFresh, hcall, Bool.and_eq_true] at hfresh
    exact absurd hfresh.2 Bool.false_ne_true
  exact h.congr (Function.update_of_ne hne _ _).symm rfl

/-- INTERNAL: a task that is held after `vTaskDelete` was held before. -/
theorem of_vTaskDelete {v : TId} (h : Held (s.vTaskDelete cfg v) u) : Held s u := by
  have hne : u ≠ v := by
    rintro rfl
    exact h.1 (Function.update_self _ _ _)
  exact h.congr (Function.update_of_ne hne _ _).symm rfl

/-- INTERNAL: a task that is held after `vTaskSuspend` was held before, or is suspended by it. -/
theorem of_vTaskSuspend {c : Option (Fin n)} {v : TId} (h : Held (s.vTaskSuspend c v) u) : Held s u ∨ u = v := by
  by_cases hne : u = v
  · exact .inr hne
  · refine .inl ⟨h.1, fun hready => ?_⟩
    obtain ⟨c', call, hc', hcu⟩ := inSuspend_iff.mp (h.2 hready)
    refine inSuspend_iff.mpr ⟨c', call, ?_, hcu⟩
    by_cases hcc : c' = c
    · subst hcc
      simp only [FrtosKernel.vTaskSuspend, Function.update_self, Option.some.injEq] at hc'
      rw [← hc'] at hcu
      exact absurd hcu.symm hne
    · exact (Function.update_of_ne hcc _ _).symm.trans hc'

omit [SwitchStrategy (Fin n) σ] in
/-- INTERNAL: a task that is held after the return of `vTaskSuspend` was held before. -/
theorem of_vTaskSuspendReturn {c : Option (Fin n)} (h : Held (s.vTaskSuspendReturn c) u) : Held s u := by
  unfold FrtosKernel.vTaskSuspendReturn at h
  split at h
  · exact h
  · next call hcall =>
    split at h
    · by_cases hself : u = call.user
      · subst hself
        refine ⟨fun hnone => h.1 (by simp [hnone]), fun _ => ?_⟩
        exact inSuspend_iff.mpr ⟨c, call, hcall, rfl⟩
      · have hstate : Function.update s.state call.user ((s.state call.user).map fun _ => .suspended) u =
            s.state u := Function.update_of_ne hself _ _
        refine ⟨fun hnone => h.1 (hstate.trans hnone), fun hready => ?_⟩
        obtain ⟨c', call', hc', hcu⟩ := inSuspend_iff.mp (h.2 (hstate.trans hready))
        refine inSuspend_iff.mpr ⟨c', call', ?_, hcu⟩
        by_cases hcc : c' = c
        · subst hcc
          simp at hc'
        · simpa [hcc] using hc'
    · exact h

omit [SwitchStrategy (Fin n) σ] in
/-- INTERNAL: a task that is held after `vTaskResume` was held before. -/
theorem of_vTaskResume {v : TId} (hidle : s.inSuspend v = false) (h : Held (s.vTaskResume v).1 u) :
    Held s u := by
  unfold FrtosKernel.vTaskResume at h
  split at h
  · exact h
  · have hne : u ≠ v := by
      rintro rfl
      have hcall : s.inSuspend u = true := h.2 (Function.update_self _ _ _)
      rw [hidle] at hcall
      cases hcall
    exact h.congr (Function.update_of_ne hne _ _).symm rfl

/-- INTERNAL: a task that is held after `xTaskAbortDelay` was held before. -/
theorem of_xTaskAbortDelay {v : TId} (h : Held (s.xTaskAbortDelay cfg v) u) : Held s u := by
  unfold FrtosKernel.xTaskAbortDelay at h
  split at h
  · exact h
  · exact h

/-- INTERNAL: the object is the same, and so is its state unless `OnExit` has run. -/
theorem of_kernelCall (h : Held (s.kernelCall cfg e) u) : Held s u ∨
    (s.state u ≠ none ∧ u ∈ (s.kernel.step cfg e).exits.drop s.kernel.exits.length) := by
  by_cases hexit : u ∈ (s.kernel.step cfg e).exits.drop s.kernel.exits.length
  · have hstate : (s.kernelCall cfg e).state u = (s.state u).map fun _ => .deleted := if_pos hexit
    refine .inr ⟨fun hnone => h.1 ?_, hexit⟩
    rw [hstate, hnone]
    rfl
  · have hstate : (s.kernelCall cfg e).state u = s.state u := if_neg hexit
    exact .inl (h.congr hstate.symm rfl)

end Held

/-! ## The invariant -/

variable [StrategyLists (Fin n) σ] [SleepAware (Fin n) σ]

/-- The invariant. -/
structure SuspendOk (cfg : Config) (s : FrtosKernel n σ) : Prop where
  rest : Rest cfg s.kernel
  single : Single s.kernel
  gone : ∀ u, s.state u = some .deleted → Unknown u s.kernel
  held : ∀ u, Held s u → HeldOk s u

/-- The steps that keep the two records of a suspension in agreement:

* only a task that is awake, or suspended already, is suspended;
* no resumption, and no `xTaskAbortDelay`, of a task falls between the two halves of a `vTaskSuspend` of it;
* no tick runs out the sleep counter of a suspended task;
* the calls into the kernel are careful, those of `xTaskAbortDelay` and `vTaskDelete` too. -/
def FrtosOrderly (cfg : Config) (s : FrtosKernel n σ) : FrtosEvent n → Prop
  | .xTaskCreate _ _ | .vTaskSuspendReturn _ => True
  | .vTaskDelete u => NotWaiting s.kernel u
  | .vTaskSuspend _ u => Held s u ∨
    ∃ i, s.kernel.findTaskByUserTask u = some i ∧ (s.kernel.tasks i).isSleeping = false
  | .vTaskResume u => s.inSuspend u = false
  | .xTaskAbortDelay u => s.inSuspend u = false ∧ NotWaiting s.kernel u
  | .kernel e => Careful cfg s.kernel e ∧ ∀ t, e = .onTick t → ∀ i, ∀ u ∈ (s.kernel.tasks i).user,
    Held s u → (s.kernel.tasks i).timeSleep + t < 0

/-- INTERNAL: a call into the kernel that spares the slot of the task. -/
theorem HeldOk.kernelStep (hcfg : WeightsOk σ cfg) (hhrt : cfg.isHrtMode = false) (h : HeldOk s u)
    (hok : SuspendOk cfg s) (hcareful : Careful cfg s.kernel e)
    (hspares : ∀ i, (s.kernel.tasks i).user = some u → Spares s.kernel i e)
    (hadds : KernelEvent.adds e ≠ some u) (hkernel : s'.kernel = s.kernel.step cfg e)
    (hcalls : ∀ i call, s.suspending (some i) = some call → s'.suspending (some i) = some call) :
    HeldOk s' u := by
  have hdormant : Dormant u (s.kernel.step cfg e) :=
    (Dormant.mk h.parked h.notAsked).step hok.rest.1.linked hhrt hspares hadds
  refine ⟨fun i hi => ?_, fun i hi hrun => ?_, fun j hj => ?_⟩
  · rw [hkernel] at hi ⊢
    exact hdormant.parked i hi
  · rw [hkernel] at hi hrun
    obtain ⟨hold, -⟩ := hdormant.running_before hcfg hhrt hok.rest hcareful hi hrun
    obtain ⟨call, hcall, hself⟩ := h.spins i (user_before hok.rest.1.linked h.notAsked hadds hi) hold
    exact ⟨call, hcalls i call hcall, hself⟩
  · rw [hkernel] at hj
    exact hdormant.notAsked j hj

/-! ## The steps -/

namespace SuspendOk

/-- INTERNAL: a step that makes the call `e` into the kernel. -/
theorem of_step (hcfg : WeightsOk σ cfg) (hhrt : cfg.isHrtMode = false) (hok : SuspendOk cfg s)
    (hcareful : Careful cfg s.kernel e) (hnew : ∀ v, KernelEvent.adds e = some v → s.isFresh v = true)
    (hkernel : s'.kernel = s.kernel.step cfg e)
    (hcalls : ∀ i call, s.suspending (some i) = some call → s'.suspending (some i) = some call)
    (hgone : ∀ u, s'.state u = some .deleted → s.state u = some .deleted ∨ Unknown u s'.kernel)
    (hheld : ∀ u, Held s' u → Held s u ∨ HeldOk s' u)
    (hspares : ∀ u i, Held s u → Held s' u → (s.kernel.tasks i).user = some u → Spares s.kernel i e) :
    SuspendOk cfg s' := by
  have hadds : ∀ u, s.state u ≠ none → KernelEvent.adds e ≠ some u := by
    intro u hu hadd
    exact allows_ne (.inl (hnew u hadd)) hu rfl
  refine ⟨?_, ?_, fun u hu => ?_, fun u hu => ?_⟩
  · rw [hkernel]
    exact step_rest hcfg hok.rest hcareful
  · rw [hkernel]
    exact hok.single.step hok.rest.1.linked (fun v hv => fresh_unknown (hnew v hv))
  · obtain hold | hunknown := hgone u hu
    · rw [hkernel]
      exact (hok.gone u hold).step hok.rest.1.linked (hadds u (by rw [hold]; exact Option.some_ne_none _))
    · exact hunknown
  · obtain hold | hnewly := hheld u hu
    · exact (hok.held u hold).kernelStep hcfg hhrt hok hcareful (fun i hi => hspares u i hold hu hi)
        (hadds u hold.1) hkernel hcalls
    · exact hnewly

/-- INTERNAL: `AddTask` of a new task. -/
theorem xTaskCreate (hcfg : WeightsOk σ cfg) (hhrt : cfg.isHrtMode = false) (hok : SuspendOk cfg s)
    (c : Option (Fin n)) {v : TId} (hfresh : s.isFresh v = true) : SuspendOk cfg (s.xTaskCreate cfg c v) := by
  obtain ⟨e, he, hadds, hcareful, hspares⟩ : ∃ e : KernelEvent n,
      (s.xTaskCreate cfg c v).kernel = s.kernel.step cfg e ∧ KernelEvent.adds e = some v ∧
        Careful cfg s.kernel e ∧ ∀ i, Spares s.kernel i e := by
    cases c with
    | none => exact ⟨.addTask v, rfl, rfl, trivial, fun _ => trivial⟩
    | some i => exact ⟨.requestAddTask i v, rfl, rfl, trivial, fun _ => trivial⟩
  refine hok.of_step hcfg hhrt hcareful (fun w hw => ?_) he (fun _ _ h => h) (fun u hu => ?_)
    (fun u hu => .inl (hu.of_xTaskCreate hfresh)) (fun _ i _ _ _ => hspares i)
  · rw [hadds] at hw
    obtain rfl := Option.some.inj hw
    exact hfresh
  · left
    have hne : u ≠ v := by
      rintro rfl
      have hself : (s.xTaskCreate cfg c u).state u = some .ready := Function.update_self _ _ _
      rw [hself] at hu
      cases hu
    exact (Function.update_of_ne hne _ _).symm.trans hu

/-- INTERNAL: `ScheduleTaskRemoval`, after which the object is freed. -/
theorem vTaskDelete (hcfg : WeightsOk σ cfg) (hhrt : cfg.isHrtMode = false) (hok : SuspendOk cfg s) {v : TId}
    (hwait : NotWaiting s.kernel v) : SuspendOk cfg (s.vTaskDelete cfg v) := by
  refine hok.of_step (e := .scheduleTaskRemoval v) hcfg hhrt (fun _ => hwait) nofun rfl (fun _ _ h => h)
    (fun u hu => ?_) (fun u hu => .inl hu.of_vTaskDelete) (fun _ _ _ _ _ => trivial)
  left
  have hne : u ≠ v := by
    rintro rfl
    have hself : (s.vTaskDelete cfg u).state u = none := Function.update_self _ _ _
    rw [hself] at hu
    cases hu
  exact (Function.update_of_ne hne _ _).symm.trans hu

/-- INTERNAL: an awake task gets the infinite sleep. -/
theorem newlySuspended (hok : SuspendOk cfg s) {c : Option (Fin n)} {v : TId} (hcall : s.mayCall c = true)
    (hfind : s.kernel.findTaskByUserTask v = some i) (hawake : (s.kernel.tasks i).isSleeping = false) :
    HeldOk (s.vTaskSuspend c v) v := by
  have hbound := Good.findTaskByUserTask_busy hfind
  have hkernel : (s.vTaskSuspend c v).kernel = s.kernel.scheduleSleep i waitInfinite := by
    simp [FrtosKernel.vTaskSuspend, Kernel.suspendTask, hfind, hawake]
  have hsame : SameTasks s.kernel (s.vTaskSuspend c v).kernel := .suspendTask s.kernel v
  have honly : ∀ j, ((s.vTaskSuspend c v).kernel.tasks j).user = some v → j = i := by
    intro j hj
    rw [hsame.user] at hj
    exact hok.single.bound j i v hj hbound
  have hunlinked : (s.kernel.tasks i).waitObj.syncObj = none := by
    by_contra hlinked
    obtain ⟨o, ho⟩ := Option.ne_none_iff_exists'.mp hlinked
    have hasleep := (hok.rest.1.slot i).sleeping ho
    rw [KernelTask.isSleeping_eq_false_iff] at hawake
    exact hawake.not_gt hasleep
  refine ⟨fun j hj => ?_, fun j hj hrun => ?_, fun j hj => ?_⟩
  · obtain rfl := honly j hj
    rw [hkernel]
    refine ⟨?_, ?_⟩
    · have hneg : -waitInfinite < 0 := by decide
      simpa [Kernel.scheduleSleep, Kernel.setTask, KernelTask.scheduleSleep] using hneg
    · simpa [Kernel.scheduleSleep, Kernel.setTask, KernelTask.scheduleSleep] using hunlinked
  · -- the task runs, so it is the caller
    obtain rfl := honly j hj
    rw [hkernel] at hrun
    have hrun' : s.kernel.running = some j := hrun
    have hnow := running_taskNow hrun'
    cases c with
    | none => simp [FrtosKernel.mayCall, Kernel.isStarted, hnow] at hcall
    | some i' =>
      simp only [FrtosKernel.mayCall, Bool.and_eq_true, decide_eq_true_eq] at hcall
      obtain rfl : j = i' := Option.some.inj (hrun'.symm.trans hcall.1.1)
      refine ⟨_, Function.update_self _ _ _, ?_⟩
      simp [hfind, hawake, hnow]
  · rw [hsame.request] at hj
    exact hok.single.apart i j v hbound hj

/-- INTERNAL: the critical section of `SuspendTask`. -/
theorem vTaskSuspend (hcfg : WeightsOk σ cfg) (hhrt : cfg.isHrtMode = false) (hok : SuspendOk cfg s)
    {c : Option (Fin n)} {v : TId} (hcall : s.mayCall c = true) (he : FrtosOrderly cfg s (.vTaskSuspend c v)) :
    SuspendOk cfg (s.vTaskSuspend c v) := by
  refine hok.of_step (e := .suspendTask v) hcfg hhrt trivial nofun rfl (fun i call h => ?_)
    (fun u hu => .inl hu) (fun u hu => ?_) (fun _ _ _ _ _ => trivial)
  · exact suspending_kept hcall h
  · obtain hold | rfl := hu.of_vTaskSuspend
    · exact .inl hold
    · obtain hheld | ⟨i, hfind, hawake⟩ := he
      · exact .inl hheld
      · exact .inr (newlySuspended hok hcall hfind hawake)

/-- INTERNAL: the write of `m_state`. -/
theorem vTaskSuspendReturn (hok : SuspendOk cfg s) (c : Option (Fin n)) :
    SuspendOk cfg (s.vTaskSuspendReturn c) := by
  have hbefore : ∀ u, Held (s.vTaskSuspendReturn c) u → Held s u := fun u hu => hu.of_vTaskSuspendReturn
  unfold FrtosKernel.vTaskSuspendReturn at hbefore ⊢
  split
  · exact hok
  · next call hcall =>
    rw [hcall] at hbefore
    dsimp only at hbefore
    split
    · next hended =>
      rw [if_pos hended] at hbefore
      refine ⟨hok.rest, hok.single, fun u hu => hok.gone u ?_, fun u hu => ?_⟩
      · by_cases hself : u = call.user
        · subst hself
          simp at hu
        · simpa [hself] using hu
      · have hheld := hok.held u (hbefore u hu)
        refine ⟨hheld.parked, fun i hi hrun => ?_, hheld.notAsked⟩
        -- a task that has yet to be switched out is still in the spin
        obtain ⟨call', hcall', hspin⟩ := hheld.spins i hi hrun
        have hne : some i ≠ c := by
          rintro rfl
          obtain rfl := Option.some.inj (hcall.symm.trans hcall')
          have hasleep := (hheld.parked i hi).isSleeping
          simp [FrtosKernel.spinEnded, hspin, hasleep] at hended
        exact ⟨call', (Function.update_of_ne hne _ _).trans hcall', hspin⟩
    · exact hok

/-- INTERNAL: `vTaskResume`. -/
theorem vTaskResume (hcfg : WeightsOk σ cfg) (hhrt : cfg.isHrtMode = false) (hok : SuspendOk cfg s) {v : TId}
    (hidle : s.inSuspend v = false) : SuspendOk cfg (s.vTaskResume v).1 := by
  have hbefore : ∀ u, Held (s.vTaskResume v).1 u → Held s u := fun u hu => hu.of_vTaskResume hidle
  unfold FrtosKernel.vTaskResume at hbefore ⊢
  split
  · exact hok
  · next hstate =>
    rw [if_neg hstate] at hbefore
    have hwait : NotWaiting s.kernel v := by
      intro i hi
      exact ((hok.held v (held_of_suspended (not_not.mp hstate))).parked i (Good.findTaskByUserTask_busy hi)).unlinked
    refine hok.of_step (e := .resumeTask v) hcfg hhrt hwait nofun rfl (fun _ _ h => h) (fun u hu => ?_)
      (fun u hu => .inl (hbefore u hu)) (fun u i _ hu hi => ?_)
    · left
      have hne : u ≠ v := by
        rintro rfl
        simp at hu
      exact (Function.update_of_ne hne _ _).symm.trans hu
    · refine findTaskByUserTask_ne hi ?_
      rintro rfl
      have hcall : s.inSuspend v = true := hu.2 (Function.update_self _ _ _)
      rw [hidle] at hcall
      cases hcall

/-- INTERNAL: `xTaskAbortDelay`. -/
theorem xTaskAbortDelay (hcfg : WeightsOk σ cfg) (hhrt : cfg.isHrtMode = false) (hok : SuspendOk cfg s) {v : TId}
    (hidle : s.inSuspend v = false) (hwait : NotWaiting s.kernel v) :
    SuspendOk cfg (s.xTaskAbortDelay cfg v) := by
  unfold FrtosKernel.xTaskAbortDelay
  split
  · exact hok
  · next hstate =>
    refine hok.of_step (e := .sleepCancel v) hcfg hhrt (fun _ => hwait) nofun rfl (fun _ _ h => h)
      (fun u hu => .inl hu) (fun u hu => .inl hu) (fun u i hu _ hi => ?_)
    refine findTaskByUserTask_ne hi ?_
    rintro rfl
    have hcall := hu.2 (not_not.mp hstate)
    rw [hidle] at hcall
    cases hcall

/-- INTERNAL: a `FrtosTask` for which a call has run `OnExit` is unknown to the kernel. -/
theorem exited_unknown (hok : SuspendOk cfg s) (hallows : s.allows e = true) (hu : s.state u ≠ none)
    (hexit : u ∈ (s.kernel.step cfg e).exits.drop s.kernel.exits.length) :
    Unknown u (s.kernel.step cfg e) := by
  refine exits_unknown hok.rest.1.linked hok.single ?_ hexit
  -- `RemoveTask` is called for no `FrtosTask`
  rintro rfl
  exact allows_ne (.inr hallows) hu rfl

/-- INTERNAL: a call of the kernel itself. -/
theorem kernelCall (hcfg : WeightsOk σ cfg) (hhrt : cfg.isHrtMode = false) (hok : SuspendOk cfg s)
    (hallows : s.allows e = true) (he : FrtosOrderly cfg s (.kernel e)) : SuspendOk cfg (s.kernelCall cfg e) := by
  refine hok.of_step hcfg hhrt he.1 (fun v hv => adds_fresh hallows hv) rfl (fun _ _ h => h) (fun u hu => ?_)
    (fun u hu => ?_) (fun u i hu _ hi => ?_)
  · by_cases hexit : u ∈ (s.kernel.step cfg e).exits.drop s.kernel.exits.length
    · right
      refine exited_unknown hok hallows (fun hnone => ?_) hexit
      have hstate : (s.kernelCall cfg e).state u = (s.state u).map fun _ => .deleted := if_pos hexit
      rw [hstate, hnone] at hu
      cases hu
    · left
      have hstate : (s.kernelCall cfg e).state u = s.state u := if_neg hexit
      rw [← hstate]
      exact hu
  · obtain hold | ⟨hobject, hexit⟩ := hu.of_kernelCall
    · exact .inl hold
    · exact .inr (exited_unknown hok hallows hobject hexit).heldOk
  · exact (hok.held u hu).spares hu.1 hallows (fun t ht j hj => he.2 t ht j u hj hu) hi

/-- An orderly step keeps the invariant. -/
theorem step (hcfg : WeightsOk σ cfg) (hhrt : cfg.isHrtMode = false) (hok : SuspendOk cfg s) {ev : FrtosEvent n}
    (he : FrtosOrderly cfg s ev) : SuspendOk cfg (s.step cfg ev) := by
  cases ev with
  | xTaskCreate c v =>
    simp only [FrtosKernel.step]
    split
    · next hcall => exact hok.xTaskCreate hcfg hhrt c (Bool.and_eq_true_iff.mp hcall).2
    · exact hok
  | vTaskDelete v =>
    simp only [FrtosKernel.step]
    split
    · exact hok.vTaskDelete hcfg hhrt he
    · exact hok
  | vTaskSuspend c v =>
    simp only [FrtosKernel.step]
    split
    · next hcall => exact hok.vTaskSuspend hcfg hhrt (Bool.and_eq_true_iff.mp hcall).1 he
    · exact hok
  | vTaskSuspendReturn c => exact hok.vTaskSuspendReturn c
  | vTaskResume v => exact hok.vTaskResume hcfg hhrt he
  | xTaskAbortDelay v => exact hok.xTaskAbortDelay hcfg hhrt he.1 he.2
  | kernel e =>
    simp only [FrtosKernel.step]
    split
    · next hallows => exact hok.kernelCall hcfg hhrt hallows he
    · exact hok

/-- INTERNAL: a new kernel. -/
theorem initial : SuspendOk cfg (FrtosKernel.initial : FrtosKernel n σ) where
  rest := rest_initial
  single := ⟨nofun, nofun, nofun⟩
  gone u hu := by cases hu
  held u hu := absurd rfl hu.1

/-- INTERNAL: the invariant in every orderly run. -/
theorem run (hcfg : WeightsOk σ cfg) (hhrt : cfg.isHrtMode = false) {es : List (FrtosEvent n)}
    (hes : Runs.Along (FrtosKernel.step cfg) (FrtosOrderly cfg) (FrtosKernel.initial : FrtosKernel n σ) es) :
    SuspendOk cfg (FrtosKernel.run cfg es : FrtosKernel n σ) :=
  hes.invariant (I := SuspendOk cfg) (fun _ _ hok he => hok.step hcfg hhrt he) initial

end SuspendOk

end Stk.Analysis
