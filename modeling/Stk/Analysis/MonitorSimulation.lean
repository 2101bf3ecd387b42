import Stk.Analysis.WaitFrame
import Stk.Model.Monitor

/-!
# A class with condition variables is a Mesa monitor

`abstract` reads off a `MonitorSystem` what a Mesa monitor is about: the state of the object and,
for each slot, whether its task is outside, blocked, notified or expired.  In a steady run every
event is a step of the monitor (`step_simulates`), so that what every step of the monitor keeps
holds after every such run (`run_invariant`).
-/

set_option autoImplicit false

namespace Stk.Analysis

open Stk.Model Stk.Model.Kernel

variable {n : ℕ} {σ : Type} [SwitchStrategy (Fin n) σ] {cfg : Config} {k k' k'' : Kernel n σ}

/-! ## Kernel calls from outside -/

/-- The effect of a kernel call from outside on the slots in `L`, whose tasks wait for objects in
`O`; the other slots may be bound and removed. -/
structure Outside (O : SyncId → Prop) (L : Fin n → Prop) (k k' : Kernel n σ) : Prop where
  call : ∀ i, L i → (k'.call i).map WaitCall.syncObj = (k.call i).map WaitCall.syncObj
  remove : ∀ i, L i → (k'.tasks i).removePending = (k.tasks i).removePending
  slot : ∀ i, L i → WaitKept (k.tasks i).waitObj (k'.tasks i).waitObj
  other : ∀ i o, O o → (k'.tasks i).waitObj.syncObj = some o → (k.tasks i).waitObj.syncObj = some o
  list : ∀ o, O o → (k'.waitList o).Sublist (k.waitList o)

namespace Outside

variable {O : SyncId → Prop} {L : Fin n → Prop}

omit [SwitchStrategy (Fin n) σ] in
/-- INTERNAL: a neutral step is outside. -/
theorem of_neutral (h : Neutral O L k k') : Outside O L k k' :=
  ⟨h.call, fun i _ => h.remove i, h.slot, h.other, h.list⟩

omit [SwitchStrategy (Fin n) σ] in
/-- INTERNAL: a step that keeps the waits, the calls and the removals of the tasks inside. -/
theorem of_sameWaits (h : SameWaits k k') (hcall : ∀ i, L i → k'.call i = k.call i)
    (hremove : ∀ i, L i → (k'.tasks i).removePending = (k.tasks i).removePending) :
    Outside O L k k' where
  call i hi := by rw [hcall i hi]
  remove := hremove
  slot i _ := Or.inl (by rw [h.waitObj]; exact ⟨rfl, rfl⟩)
  other i o _ ho := by rw [← h.waitObj]; exact ho
  list o _ := by rw [h.waitList]

omit [SwitchStrategy (Fin n) σ] in
/-- INTERNAL: a step that keeps the waits and the calls. -/
theorem of_sameCalls (h : SameCalls k k') : Outside O L k k' :=
  of_sameWaits h.toSameWaits (fun i _ => by rw [h.call]) (fun i _ => h.remove i)

omit [SwitchStrategy (Fin n) σ] in
/-- INTERNAL: nothing changes. -/
@[refl] theorem refl (k : Kernel n σ) : Outside O L k k := of_neutral (.refl k)

omit [SwitchStrategy (Fin n) σ] in
/-- INTERNAL: two steps within the frame. -/
@[trans] theorem trans (h : Outside O L k k') (h' : Outside O L k' k'') : Outside O L k k'' where
  call i hi := (h'.call i hi).trans (h.call i hi)
  remove i hi := (h'.remove i hi).trans (h.remove i hi)
  slot i hi := WaitKept.trans (h.slot i hi) (h'.slot i hi)
  other i o hO ho := h.other i o hO (h'.other i o hO ho)
  list o hO := (h'.list o hO).trans (h.list o hO)

/-- INTERNAL: a slot is bound. -/
theorem binds {u : TId} (h : Binds u k k') : Outside O L k k' :=
  of_sameWaits h.toSameWaits (fun i _ => by rw [h.call]) (fun i _ => h.remove i)

omit [SwitchStrategy (Fin n) σ] in
/-- INTERNAL: a slot outside `L` is written, its wait object apart. -/
theorem setTask {j : Fin n} (hj : ¬ L j) {f : KernelTask → KernelTask}
    (hf : ∀ t, (f t).waitObj = t.waitObj) : Outside O L k (k.setTask j f) := by
  refine of_sameWaits (.setTask k j hf) (fun _ _ => rfl) (fun i hi => ?_)
  have hij : i ≠ j := fun heq => hj (heq ▸ hi)
  simp [Kernel.setTask, hij]

/-- INTERNAL: a task outside is removed. -/
theorem removeTask (cfg : Config) {j : Fin n} (hj : ¬ L j) : Outside O L k (k.removeTask cfg j) := by
  refine of_sameWaits (.removeTask cfg k j) (fun i hi => ?_) (fun i hi => ?_)
  · have hij : i ≠ j := fun heq => hj (heq ▸ hi)
    unfold Kernel.removeTask
    dsimp only
    rw [Function.update_of_ne hij]
    have hcall := (SameTasks.callStrategy cfg
      ({ k with exits := k.exits ++ (k.tasks j).user.toList } : Kernel n σ) (.removeTask j)).call
    split
    · exact congrFun hcall i
    · exact congrFun hcall i
  · have hij : i ≠ j := fun heq => hj (heq ▸ hi)
    unfold Kernel.removeTask
    dsimp only
    have hremove := (SameTasks.callStrategy cfg
      ({ k with exits := k.exits ++ (k.tasks j).user.toList } : Kernel n σ) (.removeTask j)).remove i
    split
    · simpa [Kernel.setTask, Kernel.fault, hij] using hremove
    · simpa [Kernel.setTask, hij] using hremove

/-- INTERNAL: the removal of a task outside is scheduled. -/
theorem scheduleRemoval (cfg : Config) {j : Fin n} (hj : ¬ L j) :
    Outside O L k (k.scheduleRemoval cfg j) := by
  refine setTask hj (fun t => ?_)
  unfold KernelTask.scheduleRemoval
  dsimp only
  split <;> rfl

/-- INTERNAL: requests are served. -/
theorem updateTaskRequest (cfg : Config) : Outside O L k (k.updateTaskRequest cfg) := by
  unfold Kernel.updateTaskRequest
  split
  · refine Runs.foldl_keeps (I := fun k' : Kernel n σ => Outside O L k k') (fun k' i _ h => ?_)
      (of_sameWaits ⟨fun _ => rfl, rfl, rfl, rfl⟩ (fun _ _ => rfl) (fun _ _ => rfl))
    split
    · exact h
    · next u _ =>
      refine (h.trans (binds (.allocateAndAddNewTask cfg k' u))).trans
        (of_sameWaits (.setTask _ i (fun _ => rfl)) (fun _ _ => rfl) (fun j _ => ?_))
      by_cases hj : j = i
      · subst hj; simp [Kernel.setTask]
      · simp [Kernel.setTask, hj]
  · exact refl k

/-- INTERNAL: a tick removes no task inside. -/
theorem updateTaskState (cfg : Config) (e : ℤ) (hlive : ∀ i, L i → (k.tasks i).removePending = false) :
    Outside O L k (k.updateTaskState cfg e).1 := by
  refine Runs.foldl_keeps (I := fun acc : Kernel n σ × ℤ => Outside O L k acc.1) (fun acc i _ h => ?_)
    (refl k)
  refine h.trans ?_
  by_cases hi : (acc.1.tasks i).removePending = true
  · -- the slot may be removed, but then no task waits in it
    have hL : ¬ L i := fun hL => by
      have := h.remove i hL
      rw [hi, hlive i hL] at this
      cases this
    unfold Kernel.updateSlot
    dsimp only
    split
    · exact removeTask cfg hL
    · split
      · exact of_neutral (.of_sameTasks ((SameTasks.deliverSleep cfg _ i).trans (.advanceSleep cfg e _ i)))
      · exact of_neutral (.of_sameTasks (.advanceDuration cfg e _ i))
  · exact of_neutral (.of_sameTasks (.updateSlot cfg e (by simpa using hi)))

/-- INTERNAL: the handler of a tick. -/
theorem onTick (cfg : Config) (e : ℤ) (hk : Linked k)
    (hlive : ∀ i, L i → (k.tasks i).removePending = false) : Outside O L k (k.onTick cfg e).1 := by
  unfold Kernel.onTick Kernel.updateTasks
  dsimp only
  have h₀ : Outside O L k ({ k with ticks := k.ticks + e } : Kernel n σ) :=
    ⟨fun _ _ => rfl, fun _ _ => rfl, fun _ _ => Or.inl ⟨rfl, rfl⟩, fun _ _ _ ho => ho,
      fun _ _ => List.Sublist.refl _⟩
  have hk₀ : Linked ({ k with ticks := k.ticks + e } : Kernel n σ) :=
    ⟨hk.mem, hk.nodup, hk.syncNodup, hk.registered⟩
  generalize ({ k with ticks := k.ticks + e } : Kernel n σ) = k₀ at h₀ hk₀
  have h₁ : Outside O L k (if cfg.isSyncMode then k₀.updateSyncObjects e else k₀) := by
    split
    · exact h₀.trans (of_neutral (.updateSyncObjects e hk₀))
    · exact h₀
  generalize (if cfg.isSyncMode then k₀.updateSyncObjects e else k₀) = k₁ at h₁
  have h₂ : Outside O L k (if k₁.request then k₁.updateTaskRequest cfg else k₁) := by
    split
    · exact h₁.trans (updateTaskRequest cfg)
    · exact h₁
  generalize (if k₁.request then k₁.updateTaskRequest cfg else k₁) = k₂ at h₂
  have h₃ := h₂.trans (updateTaskState cfg e (fun i hi => by rw [h₂.remove i hi]; exact hlive i hi))
  exact h₃.trans (of_sameCalls (SameTasks.updateFsmState cfg _).toSameCalls)

end Outside

/-- The call names no task in `L` for removal. -/
def KernelEvent.Spares (L : Fin n → Prop) (k : Kernel n σ) : KernelEvent n → Prop
  | .removeTask u | .scheduleTaskRemoval u => ∀ i, L i → (k.tasks i).user ≠ some u
  | _ => True

instance {L : Fin n → Prop} [DecidablePred L] :
    ∀ e : KernelEvent n, Decidable (KernelEvent.Spares L k e)
  | .removeTask u | .scheduleTaskRemoval u =>
    inferInstanceAs (Decidable (∀ i, L i → (k.tasks i).user ≠ some u))
  | .addTask _ | .addTaskHrt _ _ _ _ | .onStart | .onStop | .onTick _ | .onSuspend
  | .requestAddTask _ _ | .sleep _ _ | .sleepUntil _ _ | .switchToNext _ | .wait _ _ _ | .waitReturn _
  | .taskExit _ | .suspendTask _ | .resumeTask _ | .sleepCancel _ | .wakeOne _ | .wakeAll _
  | .inheritWeight _ _ | .restoreWeight _ _ => .isTrue trivial

omit [SwitchStrategy (Fin n) σ] in
/-- INTERNAL: the slot found for a task is the one it has. -/
theorem findTaskByUserTask_user {u : TId} {i : Fin n} (h : k.findTaskByUserTask u = some i) :
    (k.tasks i).user = some u := by
  have := List.find?_some h
  simpa using this

/-- INTERNAL: every kernel call from outside. -/
theorem step_outside {owns : SyncId → Bool} {L : Fin n → Prop} {e : KernelEvent n} (hk : Linked k)
    (hlive : ∀ i, L i → (k.tasks i).removePending = false) (hcall : ∀ i, L i → k.call i ≠ none)
    (hobj : ∀ i o, L i → (k.tasks i).waitObj.syncObj = some o → owns o = true)
    (hleaves : e.leavesTo owns = true) (hspares : KernelEvent.Spares L k e)
    (hreturn : ∀ i, e = .waitReturn i → ¬ L i) :
    Outside (fun o => owns o = true) L k (k.step cfg e) := by
  have hneutral : KernelEvent.Avoids (fun o => owns o = true) e → KernelEvent.keepsTasks e = true →
      (∀ d, e ≠ .onTick d) → Outside (fun o => owns o = true) L k (k.step cfg e) :=
    fun ha hkeeps htick =>
    .of_neutral (step_neutral_of_ne_onTick hk htick hcall hobj ha hkeeps hreturn)
  have htask : ∀ u i, (∀ i, L i → (k.tasks i).user ≠ some u) → k.findTaskByUserTask u = some i →
      ¬ L i := fun u i h hu hL => h i hL (findTaskByUserTask_user hu)
  cases e with
  | onTick d =>
    simp only [Kernel.step]
    split
    · exact .onTick cfg d hk hlive
    · exact .refl k
  | addTask u =>
    simp only [Kernel.step]
    split
    · exact .binds (.allocateAndAddNewTask cfg k u)
    · exact .refl k
  | addTaskHrt u p d s =>
    simp only [Kernel.step]
    split
    · exact .binds (.hrtAllocateAndAddNewTask cfg k u p d s)
    · exact .refl k
  | removeTask u =>
    simp only [Kernel.step]
    split
    · split
      · exact .refl k
      · next i hi => exact .removeTask cfg (htask u i hspares hi)
    · exact .refl k
  | requestAddTask i u =>
    simp only [Kernel.step]
    split
    · have hset := SameWaits.setTask k i (f := fun t => { t with addTaskReq := some u }) (fun _ => rfl)
      refine .of_sameWaits ⟨hset.waitObj, rfl, rfl, rfl⟩ (fun _ _ => rfl) (fun j _ => ?_)
      by_cases hj : j = i
      · subst hj; simp [Kernel.setTask]
      · simp [Kernel.setTask, hj]
    · exact .refl k
  | taskExit i =>
    simp only [Kernel.step]
    split
    · next hmode =>
      simp only [Kernel.canCall, Bool.and_eq_true, decide_eq_true_eq] at hmode
      exact .scheduleRemoval cfg (fun hL => hcall i hL hmode.1.2)
    · exact .refl k
  | scheduleTaskRemoval u =>
    simp only [Kernel.step]
    split
    · split
      · exact .refl k
      · next i hi => exact .scheduleRemoval cfg (htask u i hspares hi)
    · exact .refl k
  | inheritWeight u w => exact .of_sameCalls (.onInheritWeight cfg k u w)
  | restoreWeight u o => exact .of_sameCalls (.onRestoreWeight cfg k u o)
  | wait i o t => exact hneutral (by simpa [KernelEvent.leavesTo, KernelEvent.Avoids] using hleaves) rfl (by simp)
  | wakeOne o => exact hneutral (by simpa [KernelEvent.leavesTo, KernelEvent.Avoids] using hleaves) rfl (by simp)
  | wakeAll o => exact hneutral (by simpa [KernelEvent.leavesTo, KernelEvent.Avoids] using hleaves) rfl (by simp)
  | _ => exact hneutral trivial rfl (by simp)

/-- Wait objects are unlinked, none is linked. -/
structure Frees (k k' : Kernel n σ) : Prop where
  syncObj : ∀ i, (k.tasks i).waitObj.syncObj = none → (k'.tasks i).waitObj.syncObj = none
  remove : ∀ i, (k'.tasks i).removePending = (k.tasks i).removePending

namespace Frees

omit [SwitchStrategy (Fin n) σ] in
/-- INTERNAL: nothing changes. -/
theorem refl (k : Kernel n σ) : Frees k k := ⟨fun _ h => h, fun _ => rfl⟩

omit [SwitchStrategy (Fin n) σ] in
/-- INTERNAL: two steps within the frame. -/
theorem trans (h : Frees k k') (h' : Frees k' k'') : Frees k k'' :=
  ⟨fun i hi => h'.syncObj i (h.syncObj i hi), fun i => (h'.remove i).trans (h.remove i)⟩

omit [SwitchStrategy (Fin n) σ] in
/-- INTERNAL: a wait ends. -/
theorem wakeWaitObj (k : Kernel n σ) (j : Fin n) (timeout : Bool) :
    Frees k (k.wakeWaitObj j timeout) := by
  cases ho : (k.tasks j).waitObj.syncObj with
  | none =>
    unfold Kernel.wakeWaitObj
    rw [ho]
    exact ⟨fun i hi => hi, fun i => rfl⟩
  | some o =>
    rw [wakeWaitObj_eq ho]
    refine ⟨fun i hi => ?_, fun i => ?_⟩
    · by_cases hij : i = j
      · subst hij; simp
      · simpa [hij] using hi
    · by_cases hij : i = j
      · subst hij; simp
      · simp [hij]

omit [SwitchStrategy (Fin n) σ] in
/-- INTERNAL: a notification ends waits. -/
theorem notify (k : Kernel n σ) (m : Mesa.Notify SyncId) : Frees k (k.notify m) := by
  cases m with
  | one o =>
    unfold Kernel.notify Kernel.wakeOne
    dsimp only
    split
    · exact refl k
    · exact wakeWaitObj k _ false
  | all o =>
    exact Runs.foldl_keeps (I := fun k' : Kernel n σ => Frees k k')
      (fun k' i _ h => h.trans (wakeWaitObj k' i false)) (refl k)

end Frees

/-! ## The system and its monitor -/

variable {μ α φ ρ : Type} {s : MonitorSystem n μ φ σ}

/-- The status of the task in slot `i`. -/
def status (s : MonitorSystem n μ φ σ) (i : Fin n) : Mesa.Status φ :=
  match s.pending i with
  | none => .idle
  | some f =>
    if (s.kernel.tasks i).isWaiting then .blocked f
    else if (s.kernel.tasks i).waitObj.timeout then .expired f
    else .notified f

/-- No notified task is on its way. -/
def Quiescent (s : MonitorSystem n μ φ σ) : Prop :=
  ∀ i, s.pending i ≠ none →
    (s.kernel.tasks i).isWaiting = true ∨ (s.kernel.tasks i).waitObj.timeout = true

instance : Decidable (Quiescent s) := inferInstanceAs (Decidable (∀ i, s.pending i ≠ none →
  (s.kernel.tasks i).isWaiting = true ∨ (s.kernel.tasks i).waitObj.timeout = true))

omit [SwitchStrategy (Fin n) σ] in
/-- INTERNAL: no wake-up is on its way. -/
theorem Quiescent.not_notified (h : Quiescent s) (i : Fin n) (f : φ) : status s i ≠ .notified f := by
  intro hi
  unfold status at hi
  split at hi
  · cases hi
  · next f' hf =>
    rcases h i (by rw [hf]; exact Option.some_ne_none f') with hw | ht
    · simp [hw] at hi
    · rw [ht] at hi
      split at hi <;> simp at hi

/-- The monitor as the library sees it: its state and where each task is. -/
def abstract (s : MonitorSystem n μ φ σ) : Mesa.Config (Fin n) μ φ := ⟨s.state, status s⟩

variable [Monitor μ α φ ρ]

/-- The stretches of the class, at any tick count. -/
def program (μ : Type) {α φ ρ : Type} [Monitor μ α φ ρ] : Mesa.Program SyncId α μ φ ρ where
  cv := Monitor.waitsFor μ
  call m op t := ∃ ticks, t = Monitor.call ticks m op
  resume m f b t := ∃ ticks, t = Monitor.resume ticks m f (if b then .signal else .timeout)

/-- The event as the library sees it; the kernel's own events are quiet. -/
def abstractEvent : MonitorEvent n α → Mesa.Event (Fin n) α
  | .call i op => .call i op
  | .resume i => .resume i
  | .isr op => .isr op
  | .kernel _ => .quiet

/-- The calls inside `Wait` agree with the kernel's wait objects. -/
structure MonitorOk (s : MonitorSystem n μ φ σ) : Prop where
  linked : Linked s.kernel
  live : ∀ i f, s.pending i = some f → (s.kernel.tasks i).removePending = false
  call : ∀ i f, s.pending i = some f →
    (s.kernel.call i).map WaitCall.syncObj = some (Monitor.waitsFor μ f)
  waiting : ∀ i f, s.pending i = some f →
    ((s.kernel.tasks i).waitObj.syncObj = some (Monitor.waitsFor μ f) ∧
      (s.kernel.tasks i).waitObj.timeout = false) ∨ (s.kernel.tasks i).waitObj.syncObj = none
  idle : ∀ i o, Monitor.owns μ o = true → (s.kernel.tasks i).waitObj.syncObj = some o →
    ∃ f, s.pending i = some f ∧ Monitor.waitsFor μ f = o

/-- What the rest of the system promises: a task that is still linked to a sync object or about to
be removed makes no call, a task leaves `Wait` once its wait is over, and no task is removed while
it is inside a call. -/
def Orderly (s : MonitorSystem n μ φ σ) : MonitorEvent n α → Prop
  | .call i _ =>
    (s.kernel.tasks i).isWaiting = false ∧ (s.kernel.tasks i).removePending = false
  | .resume i => (s.kernel.tasks i).isWaiting = false
  | .isr _ => True
  | .kernel e => KernelEvent.Spares (fun i => s.pending i ≠ none) s.kernel e

instance : ∀ e : MonitorEvent n α, Decidable (Orderly s e)
  | .call i _ => inferInstanceAs (Decidable
      ((s.kernel.tasks i).isWaiting = false ∧ (s.kernel.tasks i).removePending = false))
  | .resume i => inferInstanceAs (Decidable ((s.kernel.tasks i).isWaiting = false))
  | .isr _ => .isTrue trivial
  | .kernel e => inferInstanceAs (Decidable
      (KernelEvent.Spares (fun i => s.pending i ≠ none) s.kernel e))

namespace MonitorOk

omit [SwitchStrategy (Fin n) σ] in
/-- INTERNAL: a linked wait object belongs to a blocked task. -/
theorem status_of_isWaiting {i : Fin n} {f : φ} (hi : s.pending i = some f)
    (hw : (s.kernel.tasks i).isWaiting = true) : status s i = .blocked f := by
  simp [status, hi, hw]

omit [SwitchStrategy (Fin n) σ] in
/-- INTERNAL: a wait that is over has run out or was notified. -/
theorem status_of_unlinked {i : Fin n} {f : φ} (hi : s.pending i = some f)
    (hnone : (s.kernel.tasks i).waitObj.syncObj = none) :
    status s i = if (s.kernel.tasks i).waitObj.timeout then .expired f else .notified f := by
  simp [status, hi, KernelTask.isWaiting, hnone]

omit [SwitchStrategy (Fin n) σ] in
/-- INTERNAL: a task that is woken by one of the object's condition variables was blocked there. -/
theorem linked_cases (h : MonitorOk s) {i : Fin n} {o : SyncId}
    (ho : (s.kernel.tasks i).waitObj.syncObj = some o) :
    (s.pending i = none ∧ Monitor.owns μ o = false) ∨
      ∃ f, s.pending i = some f ∧ Monitor.waitsFor μ f = o ∧ status s i = .blocked f := by
  cases hi : s.pending i with
  | none =>
    refine Or.inl ⟨rfl, ?_⟩
    by_contra howns
    obtain ⟨f, hf, -⟩ := h.idle i o (by simpa using howns) ho
    rw [hi] at hf
    cases hf
  | some f =>
    rcases h.waiting i f hi with ⟨ho', -⟩ | hnone
    · rw [ho] at ho'
      exact Or.inr ⟨f, rfl, (Option.some.inj ho').symm,
        status_of_isWaiting hi (by simp [KernelTask.isWaiting, ho])⟩
    · rw [ho] at hnone
      cases hnone

omit [SwitchStrategy (Fin n) σ] in
/-- INTERNAL: a wait list without blocked tasks is empty. -/
theorem waitList_eq_nil (h : MonitorOk s) {o : SyncId} (howns : Monitor.owns μ o = true)
    (hnone : ∀ i f, status s i = .blocked f → Monitor.waitsFor μ f ≠ o) :
    s.kernel.waitList o = [] := by
  refine List.eq_nil_iff_forall_not_mem.mpr (fun i hi => ?_)
  rcases h.linked_cases ((h.linked.mem i o).mpr hi) with ⟨-, hnot⟩ | ⟨f, -, hf, hblocked⟩
  · rw [howns] at hnot
    cases hnot
  · exact hnone i f hblocked hf

/-- The status of a task once it has been notified. -/
def released (s : MonitorSystem n μ φ σ) (i : Fin n) : Mesa.Status φ :=
  match s.pending i with
  | none => .idle
  | some f => .notified f

omit [SwitchStrategy (Fin n) σ] in
/-- INTERNAL: `WaitObject::Wake` of a linked wait object by its sync object. -/
theorem wake (h : MonitorOk s) {i : Fin n} {o : SyncId}
    (ho : (s.kernel.tasks i).waitObj.syncObj = some o) :
    MonitorOk { s with kernel := s.kernel.wakeWaitObj i false } ∧
      status { s with kernel := s.kernel.wakeWaitObj i false } =
        Function.update (status s) i (released s i) := by
  have hlinked := wakeWaitObj_linked h.linked i false
  rw [wakeWaitObj_eq ho] at hlinked ⊢
  refine ⟨⟨hlinked, fun j f hj => ?_, fun j f hj => ?_, fun j f hj => ?_, fun j o' howns hj => ?_⟩, ?_⟩
  · by_cases hji : j = i
    · subst hji; simpa using h.live j f hj
    · simpa [hji] using h.live j f hj
  · by_cases hji : j = i
    · subst hji
      have hcall := h.call j f hj
      simp only [Function.update_self, Option.map_map]
      rw [← hcall]
      cases s.kernel.call j <;> rfl
    · simpa [hji] using h.call j f hj
  · by_cases hji : j = i
    · subst hji; exact Or.inr (by simp)
    · simpa [hji] using h.waiting j f hj
  · by_cases hji : j = i
    · subst hji; simp at hj
    · exact h.idle j o' howns (by simpa [hji] using hj)
  · funext j
    by_cases hji : j = i
    · subst hji
      rw [Function.update_self]
      simp [status, released, KernelTask.isWaiting]
    · rw [Function.update_of_ne hji]
      simp [status, hji]

omit [SwitchStrategy (Fin n) σ] in
/-- INTERNAL: `WakeAll`, as far as it has come through the wait list. -/
theorem wakeList (o : SyncId) (l : List (Fin n)) (hl : l.Nodup) :
    ∀ s : MonitorSystem n μ φ σ, MonitorOk s →
      (∀ i ∈ l, (s.kernel.tasks i).waitObj.syncObj = some o) →
      let s' := { s with kernel := l.foldl (fun k i => k.wakeWaitObj i false) s.kernel }
      MonitorOk s' ∧ ∀ i, status s' i = if i ∈ l then released s i else status s i := by
  induction l with
  | nil => exact fun s h _ => ⟨h, fun i => by simp⟩
  | cons j l ih =>
    intro s h hmem
    obtain ⟨hnotin, hnd⟩ := List.nodup_cons.mp hl
    have hj := hmem j List.mem_cons_self
    obtain ⟨hok, hstatus⟩ := h.wake hj
    have hrest : ∀ i ∈ l,
        (({ s with kernel := s.kernel.wakeWaitObj j false } : MonitorSystem n μ φ σ).kernel.tasks
          i).waitObj.syncObj = some o := by
      intro i hi
      have hij : i ≠ j := fun heq => hnotin (heq ▸ hi)
      have := hmem i (List.mem_cons_of_mem j hi)
      rw [wakeWaitObj_eq hj]
      simpa [hij] using this
    obtain ⟨hok', hstatus'⟩ := ih hnd _ hok hrest
    refine ⟨hok', fun i => ?_⟩
    rw [List.foldl_cons, hstatus' i, hstatus]
    by_cases hij : i = j
    · subst hij
      simp [hnotin]
    · simp [hij, released]

omit [SwitchStrategy (Fin n) σ] in
/-- INTERNAL: `WakeOne` keeps the invariant. -/
theorem wakeOne (h : MonitorOk s) (o : SyncId) :
    MonitorOk { s with kernel := s.kernel.wakeOne o } ∧
      Mesa.Notifies (Monitor.waitsFor μ) (.one o) (status s)
        (status { s with kernel := s.kernel.wakeOne o }) := by
  unfold Kernel.wakeOne
  cases hl : s.kernel.waitList o with
  | nil =>
    refine ⟨h, Or.inl ⟨rfl, fun i f hi hf => ?_⟩⟩
    -- a blocked task is linked to the condition variable of its frame
    cases hp : s.pending i with
    | none => simp [status, hp] at hi
    | some f' =>
      rcases h.waiting i f' hp with ⟨ho, -⟩ | hnone
      · have hw : (s.kernel.tasks i).isWaiting = true := by simp [KernelTask.isWaiting, ho]
        rw [status_of_isWaiting hp hw] at hi
        obtain rfl : f' = f := Mesa.Status.blocked.inj hi
        rw [hf, h.linked.mem, hl] at ho
        cases ho
      · rw [status_of_unlinked hp hnone] at hi
        split at hi <;> cases hi
  | cons i l =>
    have ho : (s.kernel.tasks i).waitObj.syncObj = some o :=
      (h.linked.mem i o).mpr (by rw [hl]; exact List.mem_cons_self)
    obtain ⟨hok, hstatus⟩ := h.wake ho
    refine ⟨hok, ?_⟩
    rcases h.linked_cases ho with ⟨hi, howns⟩ | ⟨f, hi, hf, hblocked⟩
    · -- the condition variable belongs to someone else
      refine Or.inl ⟨?_, fun j f _ hf => ?_⟩
      · rw [hstatus]
        exact Function.update_eq_self_iff.mpr (by simp [released, status, hi])
      · have := Monitor.owns_waitsFor (μ := μ) f
        rw [hf, howns] at this
        cases this
    · refine Or.inr ⟨i, f, hblocked, hf, ?_⟩
      rw [hstatus]
      simp [released, hi]

omit [SwitchStrategy (Fin n) σ] in
/-- INTERNAL: `WakeAll` keeps the invariant. -/
theorem wakeAll (h : MonitorOk s) (o : SyncId) :
    MonitorOk { s with kernel := s.kernel.wakeAll o } ∧
      Mesa.Notifies (Monitor.waitsFor μ) (.all o) (status s)
        (status { s with kernel := s.kernel.wakeAll o }) := by
  obtain ⟨hok, hstatus⟩ := wakeList o (s.kernel.waitList o) (h.linked.nodup o) s h
    (fun i hi => (h.linked.mem i o).mpr hi)
  refine ⟨hok, funext (fun i => (hstatus i).trans ?_)⟩
  cases hp : s.pending i with
  | none => simp [released, status, hp, Mesa.Status.release]
  | some f =>
    by_cases hi : i ∈ s.kernel.waitList o
    · rcases h.linked_cases ((h.linked.mem i o).mpr hi) with ⟨hnone, -⟩ | ⟨f', hf', hcv, hblocked⟩
      · rw [hp] at hnone
        cases hnone
      · rw [hp] at hf'
        obtain rfl : f = f' := Option.some.inj hf'
        simp [hi, released, hp, hblocked, Mesa.Status.release, hcv]
    · rw [if_neg hi]
      rcases h.waiting i f hp with ⟨ho, -⟩ | hnone
      · have hne : Monitor.waitsFor μ f ≠ o := by
          rintro rfl
          exact hi ((h.linked.mem i _).mp ho)
        rw [status_of_isWaiting hp (by simp [KernelTask.isWaiting, ho])]
        simp [Mesa.Status.release, hne]
      · rw [status_of_unlinked hp hnone]
        split <;> rfl

omit [SwitchStrategy (Fin n) σ] in
/-- INTERNAL: a notification keeps the invariant. -/
theorem notify (h : MonitorOk s) (m : Mesa.Notify SyncId) :
    MonitorOk { s with kernel := s.kernel.notify m } ∧
      Mesa.Notifies (Monitor.waitsFor μ) m (status s)
        (status { s with kernel := s.kernel.notify m }) := by
  cases m with
  | one o => exact h.wakeOne o
  | all o => exact h.wakeAll o

omit [SwitchStrategy (Fin n) σ] in
/-- INTERNAL: the notifications of a stretch. -/
theorem notifyAlong (h : MonitorOk s) (ms : List (Mesa.Notify SyncId)) :
    MonitorOk { s with kernel := ms.foldl Kernel.notify s.kernel } ∧
      Mesa.NotifiesAlong (Monitor.waitsFor μ) ms (status s)
        (status { s with kernel := ms.foldl Kernel.notify s.kernel }) ∧
      Frees s.kernel (ms.foldl Kernel.notify s.kernel) := by
  induction ms generalizing s with
  | nil => exact ⟨h, rfl, .refl _⟩
  | cons m ms ih =>
    obtain ⟨hok, hnotifies⟩ := h.notify m
    obtain ⟨hok', hrest, hfrees⟩ := ih hok
    exact ⟨hok', ⟨_, hnotifies, hrest⟩, (Frees.notify s.kernel m).trans hfrees⟩

/-- INTERNAL: a task that is in no call blocks. -/
theorem block (h : MonitorOk s) {i : Fin n} (hi : s.pending i = none)
    (hwait : (s.kernel.tasks i).waitObj.syncObj = none)
    (hlive : (s.kernel.tasks i).removePending = false) {f : φ} (htime : Monitor.timeout μ f ≠ 0) :
    MonitorOk { s with
        kernel := s.kernel.onTaskWait i (Monitor.waitsFor μ f) (Monitor.timeout μ f)
        pending := Function.update s.pending i (some f) } ∧
      status { s with
        kernel := s.kernel.onTaskWait i (Monitor.waitsFor μ f) (Monitor.timeout μ f)
        pending := Function.update s.pending i (some f) } =
      Function.update (status s) i (.blocked f) := by
  have hlinked := onTaskWait_linked h.linked i (Monitor.waitsFor μ f) (Monitor.timeout μ f)
  rw [onTaskWait_eq htime hwait] at hlinked ⊢
  refine ⟨⟨hlinked, fun j f' hj => ?_, fun j f' hj => ?_, fun j f' hj => ?_,
    fun j o howns hj => ?_⟩, ?_⟩
  · by_cases hji : j = i
    · subst hji; simpa [KernelTask.scheduleSleep] using hlive
    · simpa [hji] using h.live j f' (by simpa [hji] using hj)
  · by_cases hji : j = i
    · subst hji
      obtain rfl : f = f' := by simpa using hj
      simp
    · simpa [hji] using h.call j f' (by simpa [hji] using hj)
  · by_cases hji : j = i
    · subst hji
      obtain rfl : f = f' := by simpa using hj
      exact Or.inl (by simp [KernelTask.scheduleSleep])
    · simpa [hji] using h.waiting j f' (by simpa [hji] using hj)
  · by_cases hji : j = i
    · subst hji
      exact ⟨f, by simp, by simpa [KernelTask.scheduleSleep] using hj⟩
    · obtain ⟨f', hf', hcv⟩ := h.idle j o howns (by simpa [hji] using hj)
      exact ⟨f', by simpa [hji] using hf', hcv⟩
  · funext j
    by_cases hji : j = i
    · subst hji
      simp [status, KernelTask.isWaiting, KernelTask.scheduleSleep]
    · simp [status, hji]

/-- INTERNAL: a task that is in no call runs a stretch. -/
theorem follow (h : MonitorOk s) {i : Fin n} (hi : s.pending i = none)
    (hwait : (s.kernel.tasks i).waitObj.syncObj = none)
    (hlive : (s.kernel.tasks i).removePending = false) {t : Mesa.Stretch SyncId μ φ ρ}
    (ht : ∀ f, t.next = .wait f → Monitor.timeout μ f ≠ 0) :
    MonitorOk (s.follow i t).1 ∧ Mesa.Follows (Monitor.waitsFor μ) (some i) t (status s)
      (s.follow i t).2 (abstract (s.follow i t).1) := by
  obtain ⟨hok, hnotifies, hfrees⟩ := h.notifyAlong t.notify
  have hwait' := hfrees.syncObj i hwait
  have hlive' := (hfrees.remove i).trans hlive
  unfold MonitorSystem.follow
  dsimp only
  cases hnext : t.next with
  | done r =>
    have hpending : Function.update s.pending i none = s.pending :=
      Function.update_eq_self_iff.mpr hi.symm
    simp only [hpending]
    exact ⟨⟨hok.linked, hok.live, hok.call, hok.waiting, hok.idle⟩, _, hnotifies, rfl, by
      rw [hnext]; exact ⟨rfl, rfl⟩⟩
  | wait f =>
    obtain ⟨hblock, hstatus⟩ := hok.block hi hwait' hlive' (ht f hnext)
    dsimp only
    rw [if_neg (by simp [KernelTask.isWaiting, hwait'])]
    refine ⟨⟨hblock.linked, hblock.live, hblock.call, hblock.waiting, hblock.idle⟩, _, hnotifies, rfl, ?_⟩
    rw [hnext]
    exact ⟨rfl, hstatus⟩

omit [SwitchStrategy (Fin n) σ] in
/-- INTERNAL: a task leaves its `Wait`. -/
theorem leave (h : MonitorOk s) {i : Fin n} (hwait : (s.kernel.tasks i).waitObj.syncObj = none) :
    MonitorOk { s with
        kernel := { s.kernel with call := Function.update s.kernel.call i none }
        pending := Function.update s.pending i none } ∧
      status { s with
        kernel := { s.kernel with call := Function.update s.kernel.call i none }
        pending := Function.update s.pending i none } = Function.update (status s) i .idle := by
  refine ⟨⟨⟨h.linked.mem, h.linked.nodup, h.linked.syncNodup, h.linked.registered⟩, fun j f hj => ?_,
    fun j f hj => ?_, fun j f hj => ?_, fun j o howns hj => ?_⟩, ?_⟩
  · by_cases hji : j = i
    · subst hji; simp at hj
    · exact h.live j f (by simpa [hji] using hj)
  · by_cases hji : j = i
    · subst hji; simp at hj
    · simpa [hji] using h.call j f (by simpa [hji] using hj)
  · by_cases hji : j = i
    · subst hji; simp at hj
    · exact h.waiting j f (by simpa [hji] using hj)
  · by_cases hji : j = i
    · subst hji
      rw [hwait] at hj
      cases hj
    · simpa [hji] using h.idle j o howns hj
  · funext j
    by_cases hji : j = i
    · subst hji; simp [status]
    · simp [status, hji]

/-- INTERNAL: the slots inside a call under a kernel call from outside. -/
theorem outside (cfg : Config) (h : MonitorOk s) {e : KernelEvent n}
    (hleaves : e.leavesTo (Monitor.owns μ) = true)
    (hspares : KernelEvent.Spares (fun i => s.pending i ≠ none) s.kernel e)
    (hreturn : ∀ i, e = .waitReturn i → s.pending i = none) :
    Outside (fun o => Monitor.owns μ o = true) (fun i => s.pending i ≠ none) s.kernel
      (s.kernel.step cfg e) := by
  refine step_outside h.linked (fun i hi => ?_) (fun i hi hnone => ?_) (fun i o hi ho => ?_) hleaves
    hspares (fun i hi hne => hne (hreturn i hi))
  · obtain ⟨f, hf⟩ := Option.ne_none_iff_exists'.mp hi
    exact h.live i f hf
  · obtain ⟨f, hf⟩ := Option.ne_none_iff_exists'.mp hi
    have := h.call i f hf
    rw [hnone] at this
    cases this
  · rcases h.linked_cases ho with ⟨hnone, -⟩ | ⟨f, -, rfl, -⟩
    · exact absurd hnone hi
    · exact Monitor.owns_waitsFor f

/-- INTERNAL: a kernel call from outside ends no call. -/
theorem kernelStep_eq (cfg : Config) (h : MonitorOk s) {e : KernelEvent n}
    (hleaves : e.leavesTo (Monitor.owns μ) = true)
    (hspares : KernelEvent.Spares (fun i => s.pending i ≠ none) s.kernel e)
    (hreturn : ∀ i, e = .waitReturn i → s.pending i = none) :
    s.kernelStep cfg e = { s with kernel := s.kernel.step cfg e } := by
  have hout := h.outside cfg hleaves hspares hreturn
  have hpending : (s.kernelStep cfg e).pending = s.pending := by
    funext i
    unfold MonitorSystem.kernelStep
    dsimp only
    cases hi : s.pending i with
    | none => split <;> rfl
    | some f =>
      have hcall := (hout.call i (by rw [hi]; exact Option.some_ne_none f)).trans (h.call i f hi)
      obtain ⟨c, hc, -⟩ := Option.map_eq_some_iff.mp hcall
      rw [hc]
      rfl
  rw [← hpending]
  rfl

/-- INTERNAL: a kernel call from outside lets waits expire. -/
theorem kernelStep (cfg : Config) (h : MonitorOk s) {e : KernelEvent n}
    (hleaves : e.leavesTo (Monitor.owns μ) = true)
    (hspares : KernelEvent.Spares (fun i => s.pending i ≠ none) s.kernel e)
    (hreturn : ∀ i, e = .waitReturn i → s.pending i = none) :
    MonitorOk (s.kernelStep cfg e) ∧ Mesa.Expires (status s) (status (s.kernelStep cfg e)) := by
  have hlinked := step_linked cfg h.linked e
  have hout := h.outside cfg hleaves hspares hreturn
  have hcall : ∀ {i f}, s.pending i = some f →
      ((s.kernel.step cfg e).call i).map WaitCall.syncObj = some (Monitor.waitsFor μ f) :=
    fun {i f} hi => (hout.call i (by rw [hi]; exact Option.some_ne_none f)).trans (h.call i f hi)
  rw [h.kernelStep_eq cfg hleaves hspares hreturn]
  have hne : ∀ {i f}, s.pending i = some f → s.pending i ≠ none :=
    fun {i f} hi => by rw [hi]; exact Option.some_ne_none f
  refine ⟨⟨hlinked, fun i f hi => ?_, fun i f hi => hcall hi, fun i f hi => ?_,
    fun i o howns hi => ?_⟩, fun i => ?_⟩
  · exact (hout.remove i (hne hi)).trans (h.live i f hi)
  · rcases hout.slot i (hne hi) with ⟨ho, ht⟩ | ⟨-, ho, -⟩
    · dsimp only
      rw [ho, ht]
      exact h.waiting i f hi
    · exact Or.inr ho
  · exact h.idle i o howns (hout.other i o howns hi)
  · cases hp : s.pending i with
    | none => exact Or.inl (by simp [status, hp])
    | some f =>
      rcases hout.slot i (hne hp) with ⟨ho, ht⟩ | ⟨ho, ho', ht⟩
      · exact Or.inl (by unfold status KernelTask.isWaiting; rw [ho, ht])
      · refine Or.inr ⟨f, status_of_isWaiting hp ?_, ?_⟩
        · exact Option.isSome_iff_ne_none.mpr ho
        · rw [status_of_unlinked (s := { s with kernel := s.kernel.step cfg e }) hp ho']
          simp [ht]

end MonitorOk

/-! ## Events -/

omit [SwitchStrategy (Fin n) σ] in
/-- INTERNAL: the stretch of a call. -/
theorem stretch_call {i : Fin n} {op : α} {t : Mesa.Stretch SyncId μ φ ρ}
    (h : s.stretch cfg (.call i op) = some t) :
    s.kernel.canCall i = true ∧ t = Monitor.call s.kernel.ticks s.state op := by
  simp only [MonitorSystem.stretch] at h
  split at h
  · next hmode =>
    simp only [Bool.and_eq_true] at hmode
    exact ⟨hmode.2, (Option.some.inj h).symm⟩
  · cases h

omit [SwitchStrategy (Fin n) σ] in
/-- INTERNAL: the stretch of a resumption. -/
theorem stretch_resume {i : Fin n} {t : Mesa.Stretch SyncId μ φ ρ}
    (h : s.stretch cfg (.resume i) = some t) :
    ∃ f r, s.pending i = some f ∧ s.kernel.waitResult i = some r ∧
      t = Monitor.resume s.kernel.ticks s.state f r := by
  simp only [MonitorSystem.stretch] at h
  split at h
  · next f r hf hr => exact ⟨f, r, hf, hr, (Option.some.inj h).symm⟩
  · cases h

omit [SwitchStrategy (Fin n) σ] in
/-- INTERNAL: the stretch of an interrupt handler, which does not wait. -/
theorem stretch_isr {op : α} {t : Mesa.Stretch SyncId μ φ ρ}
    (h : s.stretch cfg (.isr op) = some t) :
    t = Monitor.call s.kernel.ticks s.state op ∧ ∃ r, t.next = .done r := by
  simp only [MonitorSystem.stretch] at h
  split at h
  · next r hr =>
    split at h
    · obtain rfl := Option.some.inj h
      exact ⟨rfl, r, hr⟩
    · cases h
  · cases h

/-- INTERNAL: an event without a stretch does nothing. -/
theorem stepResult_none {e : MonitorEvent n α} (he : ∀ k, e ≠ .kernel k)
    (h : s.stretch cfg e = none) : s.stepResult cfg e = (s, none) := by
  cases e with
  | kernel k => exact absurd rfl (he k)
  | _ =>
    unfold MonitorSystem.stepResult
    rw [h]

/-- INTERNAL: a call follows its stretch. -/
theorem stepResult_call {i : Fin n} {op : α} {t : Mesa.Stretch SyncId μ φ ρ}
    (h : s.stretch cfg (.call i op) = some t) : s.stepResult cfg (.call i op) = s.follow i t := by
  unfold MonitorSystem.stepResult
  rw [h]

/-- INTERNAL: a resumption ends the pending call and follows its stretch. -/
theorem stepResult_resume {i : Fin n} {t : Mesa.Stretch SyncId μ φ ρ}
    (h : s.stretch cfg (.resume i) = some t) :
    s.stepResult cfg (.resume i) = MonitorSystem.follow
      { s with kernel := { s.kernel with call := Function.update s.kernel.call i none } } i t := by
  unfold MonitorSystem.stepResult
  rw [h]

/-- INTERNAL: an interrupt handler follows its stretch and does not wait. -/
theorem stepResult_isr {op : α} {t : Mesa.Stretch SyncId μ φ ρ} {r : ρ}
    (h : s.stretch cfg (.isr op) = some t) (hr : t.next = .done r) :
    s.stepResult cfg (.isr op) =
      ({ s with kernel := t.notify.foldl Kernel.notify s.kernel, state := t.state }, some r) := by
  unfold MonitorSystem.stepResult
  rw [h]
  dsimp only
  rw [hr]

/-- INTERNAL: an event of the kernel is a kernel call from outside, or it is ignored. -/
theorem stepResult_kernel (cfg : Config) (s : MonitorSystem n μ φ σ) (e : KernelEvent n) :
    s.stepResult cfg (.kernel e) = (s, none) ∨
      s.stepResult cfg (.kernel e) = (s.kernelStep cfg e, none) ∧
        e.leavesTo (Monitor.owns μ) = true ∧ ∀ i, e = .waitReturn i → s.pending i = none := by
  by_cases hret : ∃ i, e = .waitReturn i
  · obtain ⟨i, rfl⟩ := hret
    unfold MonitorSystem.stepResult
    dsimp only
    split
    · next hnone =>
      refine Or.inr ⟨rfl, rfl, fun j hj => ?_⟩
      cases hj
      exact Option.isNone_iff_eq_none.mp hnone
    · exact Or.inl rfl
  · have hstep : s.stepResult cfg (.kernel e) = if e.leavesTo (Monitor.owns μ) then
        (s.kernelStep cfg e, none) else (s, none) := by
      cases e with
      | waitReturn i => exact absurd ⟨i, rfl⟩ hret
      | _ => rfl
    rw [hstep]
    split
    · next hleaves => exact Or.inr ⟨rfl, hleaves, fun i hi => absurd ⟨i, hi⟩ hret⟩
    · exact Or.inl rfl

/-- The task that runs in an event; an interrupt handler is none. -/
def MonitorEvent.caller : MonitorEvent n α → Option (Fin n)
  | .call i _ | .resume i => some i
  | .isr _ | .kernel _ => none

/-- INTERNAL: what following a stretch does to the monitor, the result and the pending calls. -/
theorem follow_cases (s : MonitorSystem n μ φ σ) (i : Fin n) (t : Mesa.Stretch SyncId μ φ ρ) :
    (s.follow i t).1.state = t.state ∧ (∀ r, (s.follow i t).2 = some r ↔ t.next = .done r) ∧
      ∀ j f, (s.follow i t).1.pending j = some f →
        (j ≠ i ∧ s.pending j = some f) ∨ (j = i ∧ t.next = .wait f) := by
  unfold MonitorSystem.follow
  dsimp only
  cases hnext : t.next with
  | done r =>
    refine ⟨rfl, fun r' => by simp, fun j f hj => ?_⟩
    by_cases hji : j = i
    · subst hji; simp at hj
    · exact Or.inl ⟨hji, by simpa [hji] using hj⟩
  | wait f =>
    refine ⟨rfl, fun r' => by simp, fun j f' hj => ?_⟩
    by_cases hji : j = i
    · subst hji
      simp only [Function.update_self] at hj
      split at hj
      · cases hj
      · exact Or.inr ⟨rfl, by rw [Option.some.inj hj]⟩
    · exact Or.inl ⟨hji, by simpa [hji] using hj⟩

/-- INTERNAL: an event in which a stretch is run. -/
theorem stepResult_some {e : MonitorEvent n α} {t : Mesa.Stretch SyncId μ φ ρ}
    (h : s.stretch cfg e = some t) :
    (s.step cfg e).state = t.state ∧ (∀ r, (s.stepResult cfg e).2 = some r ↔ t.next = .done r) ∧
      ∀ j f, (s.step cfg e).pending j = some f →
        (MonitorEvent.caller e ≠ some j ∧ s.pending j = some f) ∨
          (MonitorEvent.caller e = some j ∧ t.next = .wait f) := by
  have hcaller : ∀ {i j : Fin n}, j ≠ i → some i ≠ some j := fun h heq => h (Option.some.inj heq).symm
  unfold MonitorSystem.step
  cases e with
  | call i op =>
    obtain ⟨hstate, hresult, hpending⟩ := follow_cases s i t
    rw [stepResult_call h]
    refine ⟨hstate, hresult, fun j f hj => ?_⟩
    rcases hpending j f hj with ⟨hji, hf⟩ | ⟨rfl, hf⟩
    · exact Or.inl ⟨hcaller hji, hf⟩
    · exact Or.inr ⟨rfl, hf⟩
  | resume i =>
    obtain ⟨hstate, hresult, hpending⟩ := follow_cases { s with
      kernel := { s.kernel with call := Function.update s.kernel.call i none } } i t
    rw [stepResult_resume h]
    refine ⟨hstate, hresult, fun j f hj => ?_⟩
    rcases hpending j f hj with ⟨hji, hf⟩ | ⟨rfl, hf⟩
    · exact Or.inl ⟨hcaller hji, hf⟩
    · exact Or.inr ⟨rfl, hf⟩
  | isr op =>
    obtain ⟨-, r, hr⟩ := stretch_isr h
    rw [stepResult_isr h hr]
    exact ⟨rfl, fun r' => by simp [hr], fun j f hj => Or.inl ⟨by simp [MonitorEvent.caller], hj⟩⟩
  | kernel e => cases h

/-- INTERNAL: an event in which no stretch is run. -/
theorem stepResult_of_none {e : MonitorEvent n α} (h : s.stretch cfg e = none) :
    (s.step cfg e).state = s.state ∧ (s.stepResult cfg e).2 = none ∧
      ∀ j f, (s.step cfg e).pending j = some f → s.pending j = some f := by
  unfold MonitorSystem.step
  cases e with
  | kernel e =>
    rcases stepResult_kernel cfg s e with hstep | ⟨hstep, -, -⟩
    · rw [hstep]
      exact ⟨rfl, rfl, fun _ _ hj => hj⟩
    · rw [hstep]
      refine ⟨rfl, rfl, fun j f hj => ?_⟩
      simp only [MonitorSystem.kernelStep] at hj
      split at hj
      · exact hj
      · cases hj
  | _ =>
    rw [stepResult_none (by simp) h]
    exact ⟨rfl, rfl, fun _ _ hj => hj⟩

omit [Monitor μ α φ ρ] in
/-- INTERNAL: an event that is ignored. -/
theorem quiet (P : Mesa.Program SyncId α μ φ ρ) (c : Mesa.Config (Fin n) μ φ) :
    Mesa.Step P c .quiet none c :=
  ⟨rfl, rfl, fun _ => Or.inl rfl⟩

/-- INTERNAL: a task that is outside calls a method, or the call is ignored. -/
theorem call_follows (cfg : Config) (h : MonitorOk s) {i : Fin n} {op : α} (he : Orderly s (.call i op)) :
    s.stepResult cfg (.call i op) = (s, none) ∨
      MonitorOk (s.step cfg (.call i op)) ∧ status s i = .idle ∧
        Mesa.Follows (Monitor.waitsFor μ) (some i) (Monitor.call s.kernel.ticks s.state op) (status s)
          (s.stepResult cfg (.call i op)).2 (abstract (s.step cfg (.call i op))) := by
  unfold MonitorSystem.step
  cases ht : s.stretch cfg (.call i op) with
  | none => exact Or.inl (stepResult_none (by simp) ht)
  | some t =>
    right
    obtain ⟨hcall, rfl⟩ := stretch_call ht
    rw [stepResult_call ht]
    simp only [Kernel.canCall, Bool.and_eq_true, decide_eq_true_eq] at hcall
    have hi : s.pending i = none := by
      by_contra hne
      obtain ⟨f, hf⟩ := Option.ne_none_iff_exists'.mp hne
      have := h.call i f hf
      rw [hcall.2] at this
      cases this
    obtain ⟨hok, hfollows⟩ := h.follow hi (by simpa [KernelTask.isWaiting] using he.1) he.2
      (t := Monitor.call s.kernel.ticks s.state op) (fun f hf => Monitor.call_wait hf)
    exact ⟨hok, by simp [status, hi], hfollows⟩

/-- INTERNAL: a task whose wait is over goes on, or it is not its turn. -/
theorem resume_follows (cfg : Config) (h : MonitorOk s) {i : Fin n}
    (he : Orderly s (.resume i : MonitorEvent n α)) :
    s.stepResult cfg (.resume i) = (s, none) ∨
      MonitorOk (s.step cfg (.resume i)) ∧ ∃ f, ∃ b : Bool, status s i = (if b then .notified f else .expired f) ∧
        Mesa.Follows (Monitor.waitsFor μ) (some i)
          (Monitor.resume s.kernel.ticks s.state f (if b then .signal else .timeout))
          (Function.update (status s) i .idle)
          (s.stepResult cfg (.resume i)).2 (abstract (s.step cfg (.resume i))) := by
  unfold MonitorSystem.step
  cases ht : s.stretch cfg (.resume i) with
  | none => exact Or.inl (stepResult_none (by simp) ht)
  | some t =>
    right
    obtain ⟨f, r, hi, hr, rfl⟩ := stretch_resume ht
    have hnone : (s.kernel.tasks i).waitObj.syncObj = none := by
      have : (s.kernel.tasks i).isWaiting = false := he
      simpa [KernelTask.isWaiting] using this
    obtain ⟨hok, hstatus⟩ := h.leave hnone
    obtain ⟨hok', hfollows⟩ := hok.follow (i := i) (by simp) hnone (h.live i f hi)
      (t := Monitor.resume s.kernel.ticks s.state f r) (fun f hf => Monitor.resume_wait hf)
    rw [hstatus] at hfollows
    have hfollow : MonitorSystem.follow { s with
          kernel := { s.kernel with call := Function.update s.kernel.call i none }
          pending := Function.update s.pending i none } i
          (Monitor.resume s.kernel.ticks s.state f r) =
        s.stepResult cfg (.resume i) := by
      rw [stepResult_resume ht]
      simp only [MonitorSystem.follow, Function.update_idem]
    rw [hfollow] at hok' hfollows
    have hresult : (if decide (r = .signal) then WaitResult.signal else .timeout) = r := by
      cases r <;> rfl
    refine ⟨hok', f, decide (r = .signal), ?_, ?_⟩
    · -- the result of `Wait` is the timeout flag of the wait object
      have hflag : r = if (s.kernel.tasks i).waitObj.timeout then .timeout else .signal := by
        unfold Kernel.waitResult at hr
        split at hr
        · cases hr
        · split at hr
          · cases hr
          · exact (Option.some.inj hr).symm
      rw [MonitorOk.status_of_unlinked hi hnone, hflag]
      split <;> simp
    · rw [hresult]
      exact hfollows

/-- **Simulation.**  Every orderly event is a step of the Mesa monitor with the same result, or
it is none for the monitor. -/
theorem step_simulates (cfg : Config) (h : MonitorOk s) {e : MonitorEvent n α} (he : Orderly s e) :
    MonitorOk (s.step cfg e) ∧
      (Mesa.Step (program μ) (abstract s) (abstractEvent e) (s.stepResult cfg e).2
          (abstract (s.step cfg e)) ∨
        Mesa.Step (program μ) (abstract s) .quiet (s.stepResult cfg e).2 (abstract (s.step cfg e))) := by
  have hignored : s.stepResult cfg e = (s, none) → MonitorOk (s.step cfg e) ∧
      (Mesa.Step (program μ) (abstract s) (abstractEvent e) (s.stepResult cfg e).2
          (abstract (s.step cfg e)) ∨
        Mesa.Step (program μ) (abstract s) .quiet (s.stepResult cfg e).2 (abstract (s.step cfg e))) := by
    intro hsame
    unfold MonitorSystem.step
    rw [hsame]
    exact ⟨h, Or.inr (quiet _ _)⟩
  cases e with
  | call i op =>
    rcases call_follows cfg h he with hsame | ⟨hok, hidle, hfollows⟩
    · exact hignored hsame
    · exact ⟨hok, Or.inl ⟨hidle, _, ⟨_, rfl⟩, hfollows⟩⟩
  | resume i =>
    rcases resume_follows cfg h he with hsame | ⟨hok, f, b, hstatus, hfollows⟩
    · exact hignored hsame
    · exact ⟨hok, Or.inl ⟨f, b, _, hstatus, ⟨_, rfl⟩, hfollows⟩⟩
  | isr op =>
    cases ht : s.stretch cfg (.isr op) with
    | none => exact hignored (stepResult_none (by simp) ht)
    | some t =>
      unfold MonitorSystem.step
      obtain ⟨rfl, r, hr⟩ := stretch_isr ht
      rw [stepResult_isr ht hr]
      obtain ⟨hok, hnotifies, -⟩ := h.notifyAlong (Monitor.call s.kernel.ticks s.state op).notify
      refine ⟨⟨hok.linked, hok.live, hok.call, hok.waiting, hok.idle⟩, Or.inl
        ⟨Monitor.call s.kernel.ticks s.state op, ⟨_, rfl⟩, _, hnotifies, rfl, ?_⟩⟩
      rw [hr]
      exact ⟨rfl, rfl⟩
  | kernel e =>
    rcases stepResult_kernel cfg s e with hstep | ⟨hstep, hleaves, hreturn⟩
    · exact hignored hstep
    · unfold MonitorSystem.step
      rw [hstep]
      obtain ⟨hok, hexpires⟩ := h.kernelStep cfg hleaves he hreturn
      exact ⟨hok, Or.inl ⟨rfl, rfl, hexpires⟩⟩

/-- INTERNAL: a new monitor. -/
theorem monitorOk_initial (state : μ) :
    MonitorOk (MonitorSystem.initial state : MonitorSystem n μ φ σ) where
  linked := Linked.initial
  live := by simp [MonitorSystem.initial]
  call := by simp [MonitorSystem.initial]
  waiting := by simp [MonitorSystem.initial]
  idle := by simp [MonitorSystem.initial, Kernel.initial, KernelTask.unbound]

/-- **The invariant rule for classes with condition variables.**  What holds of the object at
first and is kept by every step of its monitor that meets `C` holds after every orderly run whose
steps meet `C`. -/
theorem run_invariant {I : Mesa.Config (Fin n) μ φ → Prop}
    {C : Mesa.Config (Fin n) μ φ → Mesa.Event (Fin n) α → Prop} (state : μ)
    (hinit : I ⟨state, fun _ => .idle⟩)
    (hquiet : ∀ c r c', I c → Mesa.Step (program μ) c .quiet r c' → I c')
    (hstep : ∀ c e r c', I c → C c e → Mesa.Step (program μ) c e r c' → I c')
    {es : List (MonitorEvent n α)}
    (hes : Runs.Along (MonitorSystem.step cfg)
      (fun s e => Orderly s e ∧ C (abstract s) (abstractEvent e))
      (MonitorSystem.initial state : MonitorSystem n μ φ σ) es) :
    MonitorOk (MonitorSystem.run cfg state es : MonitorSystem n μ φ σ) ∧
      I (abstract (MonitorSystem.run cfg state es : MonitorSystem n μ φ σ)) := by
  refine hes.invariant (I := fun s : MonitorSystem n μ φ σ => MonitorOk s ∧ I (abstract s))
    (fun s e h he => ?_) ⟨monitorOk_initial state, hinit⟩
  obtain ⟨hok, hsim⟩ := step_simulates cfg h.1 he.1
  refine ⟨hok, ?_⟩
  rcases hsim with hsim | hsim
  · exact hstep _ _ _ _ h.2 he.2 hsim
  · exact hquiet _ _ _ h.2 hsim

end Stk.Analysis
