import Stk.Analysis.CmsisSuspendRun
import Stk.Analysis.FrtosSuspendRun
import Stk.Analysis.TimerStep
import Stk.Model.ControlBlocks

/-!
# References to destroyed control blocks

`vTaskDelete` destroys the block of a task that still has its slot, and the deletion of an active timer destroys
its block behind the `CMD_STOP` it has queued.  The tasks are safe exactly in the runs in which only tasks that
the kernel has let go are deleted; a timer that is destroyed when nothing refers to it any more is never
referred to again.
-/

set_option autoImplicit false

namespace Stk.Analysis

open Stk.Model Stk.Model.TimerSystem

variable {n : ℕ} {σ τ ι : Type} {threads : ℕ}

/-! ## Tasks -/

section Tasks

variable [SwitchStrategy (Fin n) σ] [StrategyLists (Fin n) σ] {cfg : Config} {u : TId} {s : TaskBlocks n σ}
  {ev : FrtosEvent n}

/-- No bound slot and no request for a slot has the task, and no member of a strategy list or of a wait list. -/
structure NoSlotRefers (u : TId) (k : Kernel n σ) : Prop where
  bound : ∀ i, (k.tasks i).user ≠ some u
  requested : ∀ i, (k.tasks i).addTaskReq ≠ some u
  listed : ∀ i ∈ runnable k.strategy ++ asleep k.strategy, (k.tasks i).user ≠ some u
  waiting : ∀ o, ∀ i ∈ k.waitList o, (k.tasks i).user ≠ some u

/-- No slot refers to a task that has been destroyed. -/
def TasksIntact (s : TaskBlocks n σ) : Prop := ∀ u, s.destroyed u = true → NoSlotRefers u s.tasks.kernel

omit [StrategyLists (Fin n) σ] in
/-- Only a task that the kernel has let go is deleted. -/
def DeletesReleased (s : TaskBlocks n σ) : FrtosEvent n → Prop
  | .vTaskDelete u => s.tasks.state u ≠ none → Unknown u s.tasks.kernel
  | _ => True

instance (s : TaskBlocks n σ) (e : FrtosEvent n) : Decidable (DeletesReleased s e) :=
  match e with
  | .vTaskDelete _ => inferInstanceAs (Decidable (_ → _))
  | .xTaskCreate _ _ | .vTaskSuspend _ _ | .vTaskSuspendReturn _ | .vTaskResume _ | .xTaskAbortDelay _ | .kernel _ =>
    .isTrue trivial

omit [SwitchStrategy (Fin n) σ] in
/-- INTERNAL: a task that no slot refers to is unknown to the kernel. -/
theorem noSlotRefers_iff {k : Kernel n σ} : NoSlotRefers u k ↔ Unknown u k := by
  constructor
  · exact fun h i => ⟨h.bound i, h.requested i⟩
  · exact fun h => ⟨fun i => (h i).1, fun i => (h i).2, fun i _ => (h i).1, fun _ i _ => (h i).1⟩

omit [StrategyLists (Fin n) σ] in
/-- INTERNAL: a step makes at most one call into the kernel, and adds no task that has been destroyed. -/
theorem task_kernel_step (cfg : Config) (s : TaskBlocks n σ) (ev : FrtosEvent n) :
    (s.step cfg ev).tasks.kernel = s.tasks.kernel ∨
      ∃ e, (s.step cfg ev).tasks.kernel = s.tasks.kernel.step cfg e ∧
        ∀ v, KernelEvent.adds e = some v → (s.step cfg ev).destroyed v = false := by
  unfold TaskBlocks.step
  split
  · next hpermits =>
    dsimp only
    cases ev with
    | xTaskCreate c v =>
      simp only [TaskBlocks.permits, Bool.not_eq_true'] at hpermits
      simp only [FrtosKernel.step]
      have hlive : ∀ w, some v = some w → s.destroyed w = false := by
        intro w hw
        rw [← Option.some.inj hw]
        exact hpermits
      split
      · cases c with
        | none => exact .inr ⟨.addTask v, rfl, hlive⟩
        | some j => exact .inr ⟨.requestAddTask j v, rfl, hlive⟩
      · exact .inl rfl
    | vTaskDelete v =>
      simp only [FrtosKernel.step]
      split
      · exact .inr ⟨.scheduleTaskRemoval v, rfl, fun _ hadds => by cases hadds⟩
      · exact .inl rfl
    | vTaskSuspend c v =>
      simp only [FrtosKernel.step]
      split
      · exact .inr ⟨.suspendTask v, rfl, fun _ hadds => by cases hadds⟩
      · exact .inl rfl
    | vTaskSuspendReturn c =>
      left
      simp only [FrtosKernel.step, FrtosKernel.vTaskSuspendReturn]
      split
      · rfl
      · split <;> rfl
    | vTaskResume v =>
      simp only [FrtosKernel.step, FrtosKernel.vTaskResume]
      split
      · exact .inl rfl
      · exact .inr ⟨.resumeTask v, rfl, fun _ hadds => by cases hadds⟩
    | xTaskAbortDelay v =>
      simp only [FrtosKernel.step, FrtosKernel.xTaskAbortDelay]
      split
      · exact .inl rfl
      · exact .inr ⟨.sleepCancel v, rfl, fun _ hadds => by cases hadds⟩
    | kernel e =>
      simp only [FrtosKernel.step]
      split
      · next hallows =>
        refine .inr ⟨e, rfl, fun v hv => ?_⟩
        cases e with
        | addTask w =>
          cases hv
          simpa [TaskBlocks.permits] using hpermits
        | requestAddTask j w =>
          cases hv
          simpa [TaskBlocks.permits] using hpermits
        | addTaskHrt _ _ _ _ => cases hallows
        | _ => cases hv
      · exact .inl rfl
  · exact .inl rfl

/-- INTERNAL: the invariant of the tasks. -/
structure TaskBlocksOk (s : TaskBlocks n σ) : Prop where
  linked : Linked s.tasks.kernel
  unknown : ∀ u, s.destroyed u = true → Unknown u s.tasks.kernel

omit [StrategyLists (Fin n) σ] in
/-- INTERNAL: a destroyed task was destroyed before the step, or the step is its `vTaskDelete`. -/
theorem destroyed_before (h : (s.step cfg ev).destroyed u = true) :
    s.destroyed u = true ∨ (ev = .vTaskDelete u ∧ s.tasks.state u ≠ none) := by
  unfold TaskBlocks.step at h
  split at h
  · dsimp only at h
    cases ev with
    | vTaskDelete v =>
      dsimp only at h
      split at h
      · next hstate =>
        by_cases hne : u = v
        · subst hne
          exact .inr ⟨rfl, Option.isSome_iff_ne_none.mp hstate⟩
        · rw [Function.update_of_ne hne] at h
          exact .inl h
      · exact .inl h
    | _ => exact .inl h
  · exact .inl h

omit [StrategyLists (Fin n) σ] in
/-- INTERNAL: an event that deletes no task in use keeps the blocks of the tasks. -/
theorem TaskBlocksOk.step (h : TaskBlocksOk s) (hev : DeletesReleased s ev) : TaskBlocksOk (s.step cfg ev) := by
  have hdestroyed : ∀ u, (s.step cfg ev).destroyed u = true → Unknown u s.tasks.kernel := by
    intro u hu
    obtain hold | ⟨rfl, hstate⟩ := destroyed_before hu
    · exact h.unknown u hold
    · exact hev hstate
  obtain hsame | ⟨e, hkernel, hadds⟩ := task_kernel_step cfg s ev
  · refine ⟨?_, fun u hu => ?_⟩
    · rw [hsame]
      exact h.linked
    · rw [hsame]
      exact hdestroyed u hu
  · refine ⟨?_, fun u hu => ?_⟩
    · rw [hkernel]
      exact step_linked cfg h.linked e
    · rw [hkernel]
      refine (hdestroyed u hu).step h.linked fun hadd => ?_
      have hlive := hadds u hadd
      rw [hu] at hlive
      cases hlive

omit [StrategyLists (Fin n) σ] in
/-- INTERNAL: no block is in use. -/
theorem TaskBlocksOk.initial : TaskBlocksOk (TaskBlocks.initial : TaskBlocks n σ) where
  linked := Linked.initial
  unknown := nofun

end Tasks

/-! ## Timers -/

section Timers

variable {h : TimerHost τ} {t : τ} {s : TimerSystem τ ι threads}

/-- The timer is in no list or pipe of the host. -/
structure Unlisted (t : τ) (h : TimerHost τ) : Prop where
  active : t ∉ h.active
  commands : ∀ cmd ∈ h.commands, cmd.timer ≠ some t
  queue : some t ∉ h.queue

/-- The timers that the tick task has yet to visit, and the one that it is about to push. -/
def yetToVisit : TickTask τ → List τ
  | .walking _ _ rest => rest
  | .writing u _ _ _ _ rest => u :: rest
  | _ => []

/-- The command of a call in `PushCommand`. -/
def pushed : Push τ → TimerCommand τ
  | .tested cmd | .writing cmd => cmd

/-- Nothing has the timer: no list or pipe, no call in `PushCommand`, and not the tick task. -/
structure Unreferenced (t : τ) (s : TimerSystem τ ι threads) : Prop extends Unlisted t s.host where
  pushes : ∀ i, ∀ push ∈ s.caller i, (pushed push).timer ≠ some t
  visits : t ∉ yetToVisit s.tickTask

/-- No list or pipe of the host has a timer that has been destroyed. -/
def TimersIntact (s : TimerBlocks τ ι threads) : Prop := ∀ t, s.destroyed t = true → Unlisted t s.timers.host

/-- A timer is destroyed when nothing has it any more. -/
def DestroysUnreferenced (api : TimerApi) (s : TimerBlocks τ ι threads) : TimerBlockEvent τ ι threads → Prop
  | .destroy i => ∀ d ∈ s.deleting i, TimerBlocks.destroys api d = true → Unreferenced d.timer s.timers
  | _ => True

instance [DecidableEq τ] (t : τ) (h : TimerHost τ) : Decidable (Unlisted t h) :=
  decidable_of_iff (t ∉ h.active ∧ (∀ cmd ∈ h.commands, cmd.timer ≠ some t) ∧ some t ∉ h.queue)
    ⟨fun ⟨h₁, h₂, h₃⟩ => ⟨h₁, h₂, h₃⟩, fun h => ⟨h.active, h.commands, h.queue⟩⟩

instance [DecidableEq τ] [Fintype ι] (t : τ) (s : TimerSystem τ ι threads) : Decidable (Unreferenced t s) :=
  decidable_of_iff (Unlisted t s.host ∧ (∀ i, ∀ push ∈ s.caller i, (pushed push).timer ≠ some t) ∧
      t ∉ yetToVisit s.tickTask)
    ⟨fun ⟨h₁, h₂, h₃⟩ => ⟨h₁, h₂, h₃⟩, fun h => ⟨h.toUnlisted, h.pushes, h.visits⟩⟩

instance [DecidableEq τ] [Fintype ι] (api : TimerApi) (s : TimerBlocks τ ι threads)
    (e : TimerBlockEvent τ ι threads) : Decidable (DestroysUnreferenced api s e) :=
  match e with
  | .destroy i => inferInstanceAs (Decidable (∀ d ∈ s.deleting i, _ → _))
  | .timer _ | .delete _ _ => .isTrue trivial

/-- INTERNAL: where a timer can be, carried to the next state. -/
theorem Unreferenced.congr {s' : TimerSystem τ ι threads} (h : Unreferenced t s)
    (hactive : t ∈ s'.host.active → t ∈ s.host.active)
    (hcommands : ∀ cmd ∈ s'.host.commands, cmd.timer = some t → cmd ∈ s.host.commands)
    (hqueue : some t ∈ s'.host.queue → some t ∈ s.host.queue)
    (hcaller : s'.caller = s.caller) (hvisits : t ∈ yetToVisit s'.tickTask → t ∈ yetToVisit s.tickTask) :
    Unreferenced t s' where
  active := fun hmem => h.active (hactive hmem)
  commands := fun cmd hmem ht => h.commands cmd (hcommands cmd hmem ht) ht
  queue := fun hmem => h.queue (hqueue hmem)
  pushes := by
    rw [hcaller]
    exact h.pushes
  visits := fun hmem => h.visits (hvisits hmem)

/-- INTERNAL: the command of a request is for the timer of the request. -/
theorem request_timer {u : τ} {ticks : ℤ} {request : TimerRequest} {cmd : TimerCommand τ}
    (hsite : h.request u ticks request = .pushes cmd) : cmd.timer = some u := by
  cases request <;> simp only [TimerHost.request, TimerHost.start, TimerHost.stop, TimerHost.reset,
    TimerHost.restart, TimerHost.startOrReset, TimerHost.setPeriod] at hsite <;> (try split at hsite) <;>
    cases hsite <;> rfl

/-- INTERNAL: the command that is pushed. -/
theorem pushed_of_pushTest {cmd : TimerCommand τ} {push : Push τ} (hpush : h.pushTest cmd = some push) :
    pushed push = cmd := by
  unfold TimerHost.pushTest at hpush
  split at hpush
  · split at hpush <;> cases hpush
    rfl
  · cases hpush
    rfl

variable [DecidableEq τ]

/-- A command links its own timer alone. -/
theorem mem_linkedBy {cmd : TimerCommand τ} (hcmd : cmd.timer ≠ some t) (hmem : t ∈ h.linkedBy cmd) :
    t ∈ h.active := by
  have hback : ∀ u : τ, some u ≠ some t → ∀ l : List τ, t ∈ l ++ [u] → t ∈ l := by
    intro u hu l hl
    obtain hl | hl := List.mem_append.mp hl
    · exact hl
    · exact absurd (congrArg some (List.mem_singleton.mp hl).symm) hu
  cases cmd with
  | start u _ _ _ =>
    simp only [TimerHost.linkedBy] at hmem
    split at hmem
    · exact hback u hcmd _ hmem
    · exact hmem
  | stop u => exact List.mem_of_mem_erase hmem
  | restart u _ _ _ => exact List.mem_of_mem_erase (hback u hcmd _ hmem)
  | startOrReset u _ _ _ =>
    simp only [TimerHost.linkedBy] at hmem
    split at hmem
    · exact hback u hcmd _ hmem
    · exact hmem
  | shutdown => exact hmem
  | reset _ _ => exact hmem
  | setPeriod _ _ => exact hmem

variable [DecidableEq ι]

/-- **Only a call on a timer refers to it anew.** -/
theorem Unreferenced.step (countMax : ℕ) {e : TimerEvent τ ι threads} (h : Unreferenced t s)
    (hcall : ∀ i request, e ≠ .call i t request) : Unreferenced t (s.step countMax e) := by
  have hcallers : ∀ {host : TimerHost τ} {i : ι} {p : Option (Push τ)}, host.active = s.host.active →
      (∀ cmd ∈ host.commands, cmd.timer = some t → cmd ∈ s.host.commands) → host.queue = s.host.queue →
      (∀ push ∈ p, (pushed push).timer ≠ some t) →
      Unreferenced t { s with host := host, caller := Function.update s.caller i p } := by
    intro host i p hactive hcommands hqueue hp
    refine ⟨⟨?_, fun cmd hmem ht => h.commands cmd (hcommands cmd hmem ht) ht, ?_⟩, ?_, h.visits⟩
    · rw [hactive]
      exact h.active
    · rw [hqueue]
      exact h.queue
    · intro j push hpush
      dsimp only at hpush
      by_cases hj : j = i
      · subst hj
        rw [Function.update_self] at hpush
        exact hp push hpush
      · rw [Function.update_of_ne hj] at hpush
        exact h.pushes j push hpush
  have htransition := step_transition countMax s e
  generalize s.step countMax e = s' at htransition
  cases htransition with
  | stay => exact h
  | tick => exact h.congr id (fun _ hmem _ => hmem) id rfl id
  | @call i u request cmd push hfree hsite hpush =>
    refine hcallers rfl (fun _ hmem _ => hmem) rfl fun push' hpush' => ?_
    cases hpush'
    rw [pushed_of_pushTest hpush, request_timer hsite]
    intro hu
    cases hu
    exact hcall i request rfl
  | callShutdown =>
    refine hcallers rfl (fun _ hmem _ => hmem) rfl fun push' hpush' => ?_
    cases hpush'
    exact nofun
  | @setRearming i cmd hcaller =>
    refine hcallers (TimerHost.setRearming_active _ _ _) ?_ (TimerHost.setRearming_queue _ _ _) fun push' hpush' => ?_
    · rw [TimerHost.setRearming_commands]
      exact fun _ hmem _ => hmem
    · cases hpush'
      have hold := h.pushes i _ hcaller
      exact hold
  | @written i cmd hcaller hroom =>
    refine hcallers rfl ?_ rfl nofun
    intro cmd' hmem ht
    obtain hmem | hmem := List.mem_append.mp hmem
    · exact hmem
    · rw [List.mem_singleton.mp hmem] at ht
      exact absurd ht (h.pushes i _ hcaller)
  | full =>
    refine hcallers (TimerHost.setRearming_active _ _ _) ?_ (TimerHost.setRearming_queue _ _ _) nofun
    dsimp only
    rw [TimerHost.setRearming_commands]
    exact fun _ hmem _ => hmem
  | @take nextSleep cmd commands hread hcommands hcmd =>
    have htimer : cmd.timer ≠ some t := h.commands cmd (hcommands ▸ List.mem_cons_self)
    have hpipes := TimerHost.processCommand_pipes { s.host with commands := commands } nextSleep cmd
    refine h.congr (fun hmem => ?_) (fun cmd' hmem _ => ?_) (fun hmem => ?_) rfl (fun hmem => nomatch hmem)
    · dsimp only at hmem
      rw [TimerHost.processCommand_active] at hmem
      exact mem_linkedBy htimer hmem
    · dsimp only at hmem
      rw [hpipes.1] at hmem
      rw [hcommands]
      exact List.mem_cons_of_mem _ hmem
    · dsimp only at hmem
      rw [hpipes.2] at hmem
      exact hmem
  | takeShutdown hread hcommands =>
    refine h.congr id (fun cmd hmem _ => ?_) id rfl (fun hmem => nomatch hmem)
    rw [hcommands]
    exact List.mem_cons_of_mem _ hmem
  | block => exact h.congr id (fun _ hmem _ => hmem) id rfl (fun hmem => nomatch hmem)
  | empty => exact ⟨⟨h.active, h.commands, h.queue⟩, h.pushes, h.active⟩
  | readTimeout => exact ⟨⟨h.active, h.commands, h.queue⟩, h.pushes, h.active⟩
  | @due now nextSleep u rest htask =>
    refine h.congr (fun hmem => ?_) (fun cmd hmem _ => ?_) (fun hmem => ?_) rfl (fun hmem => ?_)
    · dsimp only at hmem
      rw [expire_active] at hmem
      split at hmem
      · exact List.mem_of_mem_erase hmem
      · exact hmem
    · dsimp only at hmem
      rwa [expire_commands] at hmem
    · dsimp only at hmem
      rwa [expire_queue] at hmem
    · rw [htask]
      exact hmem
  | @notDue now nextSleep u rest htask =>
    refine h.congr (fun hmem => ?_) (fun cmd hmem _ => ?_) (fun hmem => ?_) (endVisit_caller _ _ _ _ _ _) fun hmem => ?_
    · rwa [endVisit_active] at hmem
    · rwa [endVisit_commands] at hmem
    · rwa [endVisit_queue] at hmem
    · rw [endVisit_tickTask] at hmem
      rw [htask]
      exact List.mem_cons_of_mem _ hmem
  | skip htask =>
    refine h.congr id (fun _ hmem _ => hmem) id rfl fun hmem => ?_
    rw [htask]
    exact List.mem_cons_of_mem _ hmem
  | stopped htask =>
    refine h.congr List.mem_of_mem_erase (fun _ hmem _ => hmem) id rfl fun hmem => ?_
    rw [htask]
    exact List.mem_cons_of_mem _ hmem
  | walked => exact h.congr id (fun _ hmem _ => hmem) id rfl (fun hmem => nomatch hmem)
  | @pushed u oneShot since now nextSleep rest htask hroom =>
    have hne : t ≠ u := by
      rintro rfl
      exact h.visits (htask ▸ List.mem_cons_self)
    refine h.congr (fun hmem => ?_) (fun cmd hmem _ => ?_) (fun hmem => ?_) (endVisit_caller _ _ _ _ _ _) fun hmem => ?_
    · rwa [endVisit_active] at hmem
    · rwa [endVisit_commands] at hmem
    · rw [endVisit_queue] at hmem
      obtain hmem | hmem := List.mem_append.mp hmem
      · exact hmem
      · exact absurd (Option.some.inj (List.mem_singleton.mp hmem)) hne
    · rw [endVisit_tickTask] at hmem
      rw [htask]
      exact List.mem_cons_of_mem _ hmem
  | lost htask =>
    refine h.congr (fun hmem => ?_) (fun cmd hmem _ => ?_) (fun hmem => ?_) (endVisit_caller _ _ _ _ _ _) fun hmem => ?_
    · rwa [endVisit_active] at hmem
    · rwa [endVisit_commands] at hmem
    · rwa [endVisit_queue] at hmem
    · rw [endVisit_tickTask] at hmem
      rw [htask]
      exact List.mem_cons_of_mem _ hmem
  | sentinel htask =>
    refine h.congr id (fun _ hmem _ => hmem) (fun hmem => ?_) rfl (fun hmem => nomatch hmem)
    obtain hmem | hmem := List.mem_append.mp hmem
    · exact hmem
    · exact nomatch List.mem_singleton.mp hmem
  | sentinelLost => exact h.congr id (fun _ hmem _ => hmem) id rfl (fun hmem => nomatch hmem)
  | drain => exact h.congr (fun hmem => nomatch hmem) (fun _ hmem _ => hmem) id rfl (fun hmem => nomatch hmem)
  | onExpired hhandler hqueue =>
    refine h.congr id (fun _ hmem _ => hmem) (fun hmem => ?_) rfl id
    rw [hqueue]
    exact List.mem_cons_of_mem _ hmem
  | stale hhandler hqueue =>
    refine h.congr id (fun _ hmem _ => hmem) (fun hmem => ?_) rfl id
    rw [hqueue]
    exact List.mem_cons_of_mem _ hmem
  | takeSentinel hhandler hqueue =>
    refine h.congr id (fun _ hmem _ => hmem) (fun hmem => ?_) rfl id
    rw [hqueue]
    exact List.mem_cons_of_mem _ hmem
  | handlerBlock => exact h.congr id (fun _ hmem _ => hmem) id rfl id
  | handlerTimeout => exact h.congr id (fun _ hmem _ => hmem) id rfl id

/-- INTERNAL: the invariant of the timers. -/
def TimerBlocksOk (s : TimerBlocks τ ι threads) : Prop := ∀ t, s.destroyed t = true → Unreferenced t s.timers

omit [DecidableEq τ] [DecidableEq ι] in
/-- INTERNAL: the timers are intact, from the invariant. -/
theorem TimerBlocksOk.intact {s : TimerBlocks τ ι threads} (h : TimerBlocksOk s) : TimersIntact s :=
  fun t ht => (h t ht).toUnlisted

omit [DecidableEq τ] [DecidableEq ι] in
/-- INTERNAL: no timer is deleted. -/
theorem TimerBlocksOk.initial : TimerBlocksOk (TimerBlocks.initial : TimerBlocks τ ι threads) := nofun

/-- INTERNAL: an event that destroys no timer in use keeps the blocks of the timers. -/
theorem TimerBlocksOk.step (api : TimerApi) (countMax : ℕ) {s : TimerBlocks τ ι threads}
    {e : TimerBlockEvent τ ι threads} (h : TimerBlocksOk s) (he : DestroysUnreferenced api s e) :
    TimerBlocksOk (s.step api countMax e) := by
  unfold TimerBlocks.step
  cases e with
  | timer e =>
    dsimp only
    split
    · next hpermits =>
      intro t ht
      refine (h t ht).step countMax ?_
      rintro i request rfl
      simp only [TimerBlocks.permits, Bool.and_eq_true, Bool.not_eq_true'] at hpermits
      change s.destroyed t = true at ht
      rw [hpermits.2] at ht
      cases ht
    · exact h
  | delete i u =>
    dsimp only
    split
    · next hfree =>
      simp only [Bool.and_eq_true, Bool.not_eq_true', Option.isNone_iff_eq_none] at hfree
      intro t ht
      unfold TimerBlocks.delete
      dsimp only
      split
      · -- `Stop` is a call on a timer that has not been destroyed
        have hstop : (s.timers.callAt i (s.timers.host.stop u)).1 = s.timers.step countMax (.call i u .stop) := by
          unfold TimerSystem.step stepResult
          dsimp only
          rw [if_pos hfree.1.1]
          rfl
        rw [hstop]
        refine (h t ht).step countMax ?_
        rintro j request hcall
        cases hcall
        have hlive := hfree.2
        change s.destroyed u = true at ht
        rw [hlive] at ht
        cases ht
      · exact h t ht
    · exact h
  | destroy i =>
    dsimp only
    split
    · unfold TimerBlocks.destroy
      split
      · exact h
      · next d hd =>
        intro t ht
        dsimp only at ht ⊢
        split at ht
        · next hdestroys =>
          by_cases hne : t = d.timer
          · subst hne
            exact he d hd hdestroys
          · rw [Function.update_of_ne hne] at ht
            exact h t ht
        · exact h t ht
    · exact h

end Timers

/-! ## Runs -/

section Runs

variable [DecidableEq τ] [DecidableEq ι] [SwitchStrategy (Fin n) σ] [StrategyLists (Fin n) σ]

/-- No reference to a control block that has been destroyed. -/
structure BlocksIntact (s : ControlBlocks n σ τ ι threads) : Prop where
  tasks : TasksIntact s.tasks
  timers : TimersIntact s.timers

omit [StrategyLists (Fin n) σ] [DecidableEq τ] [DecidableEq ι] [SwitchStrategy (Fin n) σ] in
/-- A block is destroyed when nothing refers to it any more. -/
def DestroysLoose (api : TimerApi) (s : ControlBlocks n σ τ ι threads) : BlockEvent n τ ι threads → Prop
  | .task e => DeletesReleased s.tasks e
  | .timer e => DestroysUnreferenced api s.timers e

instance [Fintype ι] (api : TimerApi) (s : ControlBlocks n σ τ ι threads)
    (e : BlockEvent n τ ι threads) : Decidable (DestroysLoose api s e) :=
  match e with
  | .task e => inferInstanceAs (Decidable (DeletesReleased s.tasks e))
  | .timer e => inferInstanceAs (Decidable (DestroysUnreferenced api s.timers e))

/-- INTERNAL: the invariant. -/
structure BlocksOk (s : ControlBlocks n σ τ ι threads) : Prop where
  tasks : TaskBlocksOk s.tasks
  timers : TimerBlocksOk s.timers

omit [StrategyLists (Fin n) σ] in
/-- INTERNAL: an event of either kind. -/
theorem BlocksOk.step (cfg : Config) (api : TimerApi) (countMax : ℕ) {s : ControlBlocks n σ τ ι threads}
    {e : BlockEvent n τ ι threads} (h : BlocksOk s) (he : DestroysLoose api s e) :
    BlocksOk (s.step cfg api countMax e) := by
  cases e with
  | task e => exact ⟨h.tasks.step he, h.timers⟩
  | timer e => exact ⟨h.tasks, h.timers.step api countMax he⟩

omit [DecidableEq τ] [DecidableEq ι] [SwitchStrategy (Fin n) σ] in
/-- INTERNAL: all blocks are intact, from the invariants. -/
theorem BlocksOk.intact {s : ControlBlocks n σ τ ι threads} (h : BlocksOk s) : BlocksIntact s where
  tasks := fun u hu => noSlotRefers_iff.mpr (h.tasks.unknown u hu)
  timers := h.timers.intact

/-- **No reference to a destroyed control block**, in the runs that destroy a block only when nothing refers to
it any more. -/
theorem run_destroyedBlocks (cfg : Config) (api : TimerApi) (countMax : ℕ) {es : List (BlockEvent n τ ι threads)}
    (hes : Runs.Along (ControlBlocks.step cfg api countMax) (DestroysLoose api)
      (ControlBlocks.initial : ControlBlocks n σ τ ι threads) es) :
    ∀ ds, ds <+: es → BlocksIntact (ControlBlocks.run cfg api countMax ds : ControlBlocks n σ τ ι threads) := by
  rintro ds ⟨rest, rfl⟩
  have hds := (Runs.along_append.mp hes).1
  have hok := Runs.Along.invariant (I := BlocksOk) (fun s e h he => h.step cfg api countMax he)
    ⟨TaskBlocksOk.initial, TimerBlocksOk.initial⟩ hds
  exact hok.intact

end Runs

/-- The steps of the tasks of a system of two tasks and one timer. -/
def taskSteps (es : List (FrtosEvent 2)) : List (BlockEvent 2 Unit Unit 1) := es.map .task

/-- Events of the timer service. -/
def timerSteps (es : List (TimerEvent Unit Unit 1)) : List (BlockEvent 2 Unit Unit 1) := es.map fun e => .timer (.timer e)

/-- The timer is deleted. -/
def deleteTimer : List (BlockEvent 2 Unit Unit 1) := [.timer (.delete () ()), .timer (.destroy ())]

/-- Task 0 exits, and task 1 deletes it once it has been removed; a timer is stopped and deleted once the tick
task has processed `CMD_STOP`. -/
def lateDeletes : List (BlockEvent 2 Unit Unit 1) :=
  taskSteps (startedTasks ++ [.kernel (.taskExit 0), .kernel (.onTick 1), .kernel (.onTick 1), .vTaskDelete 0]) ++
    timerSteps [.call () () (.start 1 5), .write (), .update, .call () () .stop, .write (), .update] ++ deleteTimer

theorem lateDeletes_intact :
    let s : ControlBlocks 2 (FixedPriority 32 (Fin 2)) Unit Unit 1 :=
      ControlBlocks.run frtosConfig.kernel .freertos 8 lateDeletes
    s.tasks.destroyed 0 = true ∧ s.timers.destroyed () = true ∧ BlocksIntact s := by
  have hloose : Runs.Along (ControlBlocks.step frtosConfig.kernel .freertos 8) (DestroysLoose .freertos)
      (ControlBlocks.initial : ControlBlocks 2 (FixedPriority 32 (Fin 2)) Unit Unit 1) lateDeletes := by
    decide +kernel
  refine ⟨?_, ?_, run_destroyedBlocks frtosConfig.kernel .freertos 8 hloose lateDeletes List.prefix_rfl⟩
  · decide +kernel
  · decide +kernel

/-- An active timer. -/
def startTimer : List (BlockEvent 2 Unit Unit 1) := timerSteps [.call () () (.start 1 5), .write (), .update]

/-- A task that deletes itself has its slot until the next tick; the timer is destroyed behind the `CMD_STOP`
that `Stop` has queued. -/
theorem deletes_dangle :
    ¬BlocksIntact (ControlBlocks.run frtosConfig.kernel .freertos 8 (taskSteps (startedTasks ++ [.vTaskDelete 0])) :
        ControlBlocks 2 (FixedPriority 32 (Fin 2)) Unit Unit 1) ∧
      ∀ api, ¬BlocksIntact (ControlBlocks.run frtosConfig.kernel api 8
        (startTimer ++ [.timer (.delete () ()), .timer (.timer (.write ())), .timer (.destroy ())]) :
        ControlBlocks 2 (FixedPriority 32 (Fin 2)) Unit Unit 1) := by
  refine ⟨fun h => ?_, fun api h => ?_⟩
  · have hbound := (h.tasks 0 (by decide +kernel)).bound 0
    revert hbound
    decide +kernel
  · have hlisted := (h.timers () (by cases api <;> decide +kernel)).active
    clear h
    revert hlisted
    cases api <;> decide +kernel

end Stk.Analysis
