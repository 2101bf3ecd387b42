import Stk.Analysis.WaitLists
import Stk.Model.KernelRun

/-!
# What a kernel call does to the waits for a group of sync objects

`O` holds of the sync objects that a part of the system keeps to itself (the mutexes, the
condition variables of a queue) and `L` of the slots whose task waits inside a call of that part.
`Neutral O L` is what every kernel call from outside may do: the wait of a slot in `L` may time
out, and nothing else happens to it.
-/

set_option autoImplicit false

namespace Stk.Analysis

open Stk.Model Stk.Model.Kernel

variable {n : ℕ} {σ : Type} [SwitchStrategy (Fin n) σ] {cfg : Config} {k k' k'' : Kernel n σ}

namespace SameTasks

theorem updateSlot (cfg : Config) (e : ℤ) {acc : Kernel n σ × ℤ} {i : Fin n}
    (hlive : (acc.1.tasks i).removePending = false) :
    SameTasks acc.1 (Kernel.updateSlot cfg e acc i).1 := by
  unfold Kernel.updateSlot
  dsimp only
  rw [if_neg (by simp [Kernel.isRemovable, hlive])]
  split
  · exact (deliverSleep cfg _ i).trans (advanceSleep cfg e _ i)
  · exact advanceDuration cfg e _ i

theorem updateTaskState (cfg : Config) (e : ℤ) (hlive : ∀ i, (k.tasks i).removePending = false) :
    SameTasks k (k.updateTaskState cfg e).1 := by
  refine Runs.foldl_keeps (I := fun acc : Kernel n σ × ℤ => SameTasks k acc.1) (fun acc i _ h => ?_)
    (refl k)
  exact h.trans (updateSlot cfg e (by rw [h.remove]; exact hlive i))

theorem updateTaskRequest (cfg : Config) (hreq : ∀ i, (k.tasks i).addTaskReq = none) :
    SameTasks k (k.updateTaskRequest cfg) := by
  unfold Kernel.updateTaskRequest
  split
  · refine Runs.foldl_keeps (I := fun k' : Kernel n σ => SameTasks k k') (fun k' i _ h => ?_)
      (of_tasks rfl rfl rfl rfl rfl)
    have hnone : (k'.tasks i).addTaskReq = none := by rw [h.request]; exact hreq i
    rw [hnone]
    exact h
  · exact refl k

end SameTasks

/-- A wait goes on, or it times out. -/
def WaitKept (w w' : WaitObject) : Prop :=
  (w'.syncObj = w.syncObj ∧ w'.timeout = w.timeout) ∨
    (w.syncObj ≠ none ∧ w'.syncObj = none ∧ w'.timeout = true)

theorem WaitKept.trans {w w' w'' : WaitObject} (h : WaitKept w w') (h' : WaitKept w' w'') :
    WaitKept w w'' := by
  rcases h with ⟨ho, ht⟩ | ⟨ho, ho', ht⟩
  · rcases h' with ⟨ho₂, ht₂⟩ | ⟨hne, ho₂, ht₂⟩
    · exact Or.inl ⟨ho₂.trans ho, ht₂.trans ht⟩
    · exact Or.inr ⟨by rw [← ho]; exact hne, ho₂, ht₂⟩
  · rcases h' with ⟨ho₂, ht₂⟩ | ⟨hne, -, -⟩
    · exact Or.inr ⟨ho, ho₂.trans ho', ht₂.trans ht⟩
    · exact absurd ho' hne

/-- The effect of a kernel call from outside on the waits for the objects in `O`. -/
structure Neutral (O : SyncId → Prop) (L : Fin n → Prop) (k k' : Kernel n σ) : Prop where
  user : ∀ i, (k'.tasks i).user = (k.tasks i).user
  weight : ∀ i, (k'.tasks i).rtWeight = (k.tasks i).rtWeight
  remove : ∀ i, (k'.tasks i).removePending = (k.tasks i).removePending
  request : ∀ i, (k'.tasks i).addTaskReq = (k.tasks i).addTaskReq
  call : ∀ i, L i → (k'.call i).map WaitCall.syncObj = (k.call i).map WaitCall.syncObj
  slot : ∀ i, L i → WaitKept (k.tasks i).waitObj (k'.tasks i).waitObj
  other : ∀ i o, O o → (k'.tasks i).waitObj.syncObj = some o → (k.tasks i).waitObj.syncObj = some o
  list : ∀ o, O o → (k'.waitList o).Sublist (k.waitList o)

namespace Neutral

variable {O : SyncId → Prop} {L : Fin n → Prop}

omit [SwitchStrategy (Fin n) σ] in
theorem of_sameTasks (h : SameTasks k k') : Neutral O L k k' where
  user := h.user
  weight := h.weight
  remove := h.remove
  request := h.request
  call i _ := by rw [h.call]
  slot i _ := Or.inl (by rw [h.waitObj]; exact ⟨rfl, rfl⟩)
  other i o _ ho := by rw [← h.waitObj]; exact ho
  list o _ := by rw [h.waitList]

omit [SwitchStrategy (Fin n) σ] in
@[refl] theorem refl (k : Kernel n σ) : Neutral O L k k := of_sameTasks (.refl k)

omit [SwitchStrategy (Fin n) σ] in
@[trans] theorem trans (h : Neutral O L k k') (h' : Neutral O L k' k'') : Neutral O L k k'' where
  user i := (h'.user i).trans (h.user i)
  weight i := (h'.weight i).trans (h.weight i)
  remove i := (h'.remove i).trans (h.remove i)
  request i := (h'.request i).trans (h.request i)
  call i hi := (h'.call i hi).trans (h.call i hi)
  slot i hi := WaitKept.trans (h.slot i hi) (h'.slot i hi)
  other i o hO ho := h.other i o hO (h'.other i o hO ho)
  list o hO := (h'.list o hO).trans (h.list o hO)

omit [SwitchStrategy (Fin n) σ] in
/-- INTERNAL: a wait object is woken by a timeout or by a sync object that is no mutex. -/
theorem wakeWaitObj {j : Fin n} {timeout : Bool} (hj : L j → timeout = true) :
    Neutral O L k (k.wakeWaitObj j timeout) := by
  cases ho : (k.tasks j).waitObj.syncObj with
  | none =>
    unfold Kernel.wakeWaitObj
    rw [ho]
    exact of_sameTasks (.fault k _)
  | some o =>
    rw [wakeWaitObj_eq ho]
    refine ⟨fun i => ?_, fun i => ?_, fun i => ?_, fun i => ?_, fun i hi => ?_, fun i hi => ?_,
      fun i o' _ ho' => ?_, fun o' _ => ?_⟩
    · by_cases hij : i = j <;> simp [hij]
    · by_cases hij : i = j <;> simp [hij]
    · by_cases hij : i = j <;> simp [hij]
    · by_cases hij : i = j <;> simp [hij]
    · by_cases hij : i = j
      · subst hij
        simp only [Function.update_self, Option.map_map]
        cases k.call i <;> rfl
      · simp [hij]
    · by_cases hij : i = j
      · subst hij
        exact Or.inr ⟨by simp [ho], by simp, by simp [hj hi]⟩
      · exact Or.inl (by simp [hij])
    · by_cases hij : i = j
      · subst hij; simp at ho'
      · simpa [hij] using ho'
    · by_cases hoo : o' = o
      · subst hoo
        simpa using List.erase_sublist
      · simp [hoo]

omit [SwitchStrategy (Fin n) σ] in
/-- INTERNAL: `WaitObject::Tick` writes the time and the timeout flag of a wait object, and
never clears the flag. -/
theorem tickWaitObj_task (e : ℤ) (t : KernelTask) :
    (t.tickWaitObj e).user = t.user ∧ (t.tickWaitObj e).rtWeight = t.rtWeight ∧
      (t.tickWaitObj e).removePending = t.removePending ∧
      (t.tickWaitObj e).addTaskReq = t.addTaskReq ∧
      (t.tickWaitObj e).waitObj.syncObj = t.waitObj.syncObj ∧
      ((t.tickWaitObj e).waitObj.timeout = false → t.waitObj.timeout = false) := by
  unfold KernelTask.tickWaitObj
  split
  · split
    · next h => exact ⟨rfl, rfl, rfl, rfl, rfl, fun _ => by simpa using h⟩
    · exact ⟨rfl, rfl, rfl, rfl, rfl, id⟩
  · exact ⟨rfl, rfl, rfl, rfl, rfl, id⟩

omit [SwitchStrategy (Fin n) σ] in
/-- INTERNAL: one wait object in `ISyncObject::Tick`. -/
theorem tickWaitObj (e : ℤ) {j : Fin n} {o : SyncId} (ho : (k.tasks j).waitObj.syncObj = some o) :
    Neutral O L k (Kernel.tickWaitObj e k j) := by
  obtain ⟨huser, hweight, hremove, hrequest, hobj, htimeout⟩ := tickWaitObj_task e (k.tasks j)
  unfold Kernel.tickWaitObj
  dsimp only
  have htick : ((k.setTask j (fun t => t.tickWaitObj e)).tasks j) = (k.tasks j).tickWaitObj e := by
    simp [Kernel.setTask]
  have hother : ∀ i, i ≠ j → (k.setTask j (fun t => t.tickWaitObj e)).tasks i = k.tasks i := by
    intro i hi
    simp [Kernel.setTask, hi]
  -- apart from the wait object of `j` the state before the wake is the old one
  split
  · have ho₁ : ((k.setTask j (fun t => t.tickWaitObj e)).tasks j).waitObj.syncObj = some o := by
      rw [htick, hobj, ho]
    have hwake : Neutral O L (k.setTask j (fun t => t.tickWaitObj e))
        ((k.setTask j (fun t => t.tickWaitObj e)).wakeWaitObj j true) := wakeWaitObj (fun _ => rfl)
    refine ⟨fun i => ?_, fun i => ?_, fun i => ?_, fun i => ?_, hwake.call, fun i hi => ?_,
      fun i o' hO hobj' => ?_, hwake.list⟩
    · rw [hwake.user]
      by_cases hij : i = j
      · subst hij; rw [htick, huser]
      · rw [hother i hij]
    · rw [hwake.weight]
      by_cases hij : i = j
      · subst hij; rw [htick, hweight]
      · rw [hother i hij]
    · rw [hwake.remove]
      by_cases hij : i = j
      · subst hij; rw [htick, hremove]
      · rw [hother i hij]
    · rw [hwake.request]
      by_cases hij : i = j
      · subst hij; rw [htick, hrequest]
      · rw [hother i hij]
    · by_cases hij : i = j
      · subst hij
        rw [wakeWaitObj_eq ho₁]
        exact Or.inr ⟨by simp [ho], by simp, by simp⟩
      · have hslot := hwake.slot i hi
        rwa [hother i hij] at hslot
    · have hold := hwake.other i o' hO hobj'
      by_cases hij : i = j
      · subst hij; rw [htick, hobj] at hold; exact hold
      · rwa [hother i hij] at hold
  · next hgo =>
    have hgo' : ((k.tasks j).tickWaitObj e).waitObj.timeout = false := by
      rw [htick] at hgo
      simpa using hgo
    have hslot : ∀ i, ((k.setTask j (fun t => t.tickWaitObj e)).tasks i).user = (k.tasks i).user ∧
        ((k.setTask j (fun t => t.tickWaitObj e)).tasks i).rtWeight = (k.tasks i).rtWeight ∧
        ((k.setTask j (fun t => t.tickWaitObj e)).tasks i).removePending = (k.tasks i).removePending ∧
        ((k.setTask j (fun t => t.tickWaitObj e)).tasks i).addTaskReq = (k.tasks i).addTaskReq ∧
        ((k.setTask j (fun t => t.tickWaitObj e)).tasks i).waitObj.syncObj =
          (k.tasks i).waitObj.syncObj ∧
        ((k.setTask j (fun t => t.tickWaitObj e)).tasks i).waitObj.timeout =
          (k.tasks i).waitObj.timeout := by
      intro i
      by_cases hij : i = j
      · subst hij
        rw [htick]
        exact ⟨huser, hweight, hremove, hrequest, hobj, hgo'.trans (htimeout hgo').symm⟩
      · rw [hother i hij]
        exact ⟨rfl, rfl, rfl, rfl, rfl, rfl⟩
    exact ⟨fun i => (hslot i).1, fun i => (hslot i).2.1, fun i => (hslot i).2.2.1,
      fun i => (hslot i).2.2.2.1, fun i _ => rfl, fun i _ => Or.inl (hslot i).2.2.2.2,
      fun i o' _ ho' => by rw [← (hslot i).2.2.2.2.1]; exact ho', fun _ _ => List.Sublist.refl _⟩

omit [SwitchStrategy (Fin n) σ] in
/-- INTERNAL: a tick of a wait object writes no other slot. -/
theorem tickWaitObj_other (e : ℤ) {i j : Fin n} (hij : i ≠ j) :
    (Kernel.tickWaitObj e k j).tasks i = k.tasks i := by
  have hset : (k.setTask j (fun t => t.tickWaitObj e)).tasks i = k.tasks i := by
    simp [Kernel.setTask, hij]
  unfold Kernel.tickWaitObj
  dsimp only
  split
  · unfold Kernel.wakeWaitObj
    split
    · exact hset
    · unfold Kernel.wakeTask
      dsimp only
      split <;> simp [Kernel.setTask, Kernel.fault, hij]
  · exact hset

omit [SwitchStrategy (Fin n) σ] in
theorem tickSyncObject (e : ℤ) (hk : Linked k) (o : SyncId) :
    Neutral O L k (k.tickSyncObject e o) := by
  suffices hgen : ∀ (l : List (Fin n)) (k : Kernel n σ), l.Nodup →
      (∀ j ∈ l, (k.tasks j).waitObj.syncObj = some o) →
      Neutral O L k (l.foldl (Kernel.tickWaitObj e) k) from
    hgen _ k (hk.nodup o) (fun j hj => (hk.mem j o).mpr hj)
  intro l
  induction l with
  | nil => exact fun k _ _ => refl k
  | cons j l ih =>
    intro k hnd hl
    obtain ⟨hnotin, hnd'⟩ := List.nodup_cons.mp hnd
    refine (tickWaitObj e (hl j List.mem_cons_self)).trans (ih _ hnd' (fun i hi => ?_))
    have hij : i ≠ j := fun heq => hnotin (heq ▸ hi)
    rw [tickWaitObj_other e hij]
    exact hl i (List.mem_cons_of_mem j hi)

omit [SwitchStrategy (Fin n) σ] in
theorem updateSyncObjects (e : ℤ) (hk : Linked k) : Neutral O L k (k.updateSyncObjects e) := by
  refine (Runs.foldl_keeps (I := fun k' : Kernel n σ => Linked k' ∧ Neutral O L k k')
    (fun k' o _ h => ?_) ⟨hk, refl k⟩ : _ ∧ _).2
  have hlinked : Linked (k'.tickSyncObject e o) :=
    Runs.foldl_keeps (fun k i _ hk => tickWaitObj_linked hk e i) h.1
  have hneutral := h.2.trans (tickSyncObject e h.1 o)
  dsimp only
  split
  · next hnil =>
    refine ⟨⟨hlinked.mem, hlinked.nodup, hlinked.syncNodup.erase o, fun o' hne => ?_⟩,
      ⟨hneutral.user, hneutral.weight, hneutral.remove, hneutral.request, hneutral.call,
        hneutral.slot, hneutral.other, hneutral.list⟩⟩
    have hne' : o' ≠ o := by
      rintro rfl
      exact hne hnil
    exact (List.mem_erase_of_ne hne').mpr (hlinked.registered o' hne)
  · exact ⟨hlinked, hneutral⟩

theorem onTick (cfg : Config) (e : ℤ) (hk : Linked k) (hlive : ∀ i, (k.tasks i).removePending = false)
    (hreq : ∀ i, (k.tasks i).addTaskReq = none) : Neutral O L k (k.onTick cfg e).1 := by
  unfold Kernel.onTick Kernel.updateTasks
  dsimp only
  have h₀ : Neutral O L k { k with ticks := k.ticks + e } := by
    refine ⟨fun _ => rfl, fun _ => rfl, fun _ => rfl, fun _ => rfl, fun _ _ => rfl,
      fun _ _ => Or.inl ⟨rfl, rfl⟩, fun _ _ _ ho => ho, fun _ _ => List.Sublist.refl _⟩
  have hk₀ : Linked ({ k with ticks := k.ticks + e } : Kernel n σ) :=
    ⟨hk.mem, hk.nodup, hk.syncNodup, hk.registered⟩
  generalize ({ k with ticks := k.ticks + e } : Kernel n σ) = k₀ at h₀ hk₀
  have h₁ : Neutral O L k (if cfg.isSyncMode then k₀.updateSyncObjects e else k₀) := by
    split
    · exact h₀.trans (updateSyncObjects e hk₀)
    · exact h₀
  generalize (if cfg.isSyncMode then k₀.updateSyncObjects e else k₀) = k₁ at h₁
  have h₂ : Neutral O L k (if k₁.request then k₁.updateTaskRequest cfg else k₁) := by
    split
    · exact h₁.trans (of_sameTasks (.updateTaskRequest cfg (fun i => by rw [h₁.request]; exact hreq i)))
    · exact h₁
  generalize (if k₁.request then k₁.updateTaskRequest cfg else k₁) = k₂ at h₂
  have hstate : SameTasks k₂ (k₂.updateTaskState cfg e).1 :=
    .updateTaskState cfg e (fun i => by rw [h₂.remove]; exact hlive i)
  exact h₂.trans (of_sameTasks (hstate.trans (.updateFsmState cfg _)))

omit [SwitchStrategy (Fin n) σ] in
/-- INTERNAL: a pending call of a slot outside `L` changes. -/
theorem setCall {j : Fin n} (hj : ¬ L j) (c : Option WaitCall) :
    Neutral O L k { k with call := Function.update k.call j c } := by
  refine ⟨fun _ => rfl, fun _ => rfl, fun _ => rfl, fun _ => rfl, fun i hi => ?_,
    fun _ _ => Or.inl ⟨rfl, rfl⟩, fun _ _ _ ho => ho, fun _ _ => List.Sublist.refl _⟩
  have hij : i ≠ j := fun heq => hj (heq ▸ hi)
  simp [hij]

/-- INTERNAL: a task outside `L` starts to wait for a sync object outside `O`. -/
theorem onTaskWait {j : Fin n} (hj : ¬ L j) {o : SyncId} (ho : ¬ O o) (timeout : ℤ) :
    Neutral O L k (k.onTaskWait j o timeout) := by
  unfold Kernel.onTaskWait
  split
  · exact of_sameTasks (.fault k _)
  · split
    · exact of_sameTasks (.fault k _)
    · refine ⟨fun i => ?_, fun i => ?_, fun i => ?_, fun i => ?_, fun i hi => ?_, fun i hi => ?_,
        fun i o' hO hobj => ?_, fun o' hO => ?_⟩
      · by_cases hij : i = j <;>
          simp [Kernel.scheduleSleep, Kernel.setTask, KernelTask.scheduleSleep, hij]
      · by_cases hij : i = j <;>
          simp [Kernel.scheduleSleep, Kernel.setTask, KernelTask.scheduleSleep, hij]
      · by_cases hij : i = j <;>
          simp [Kernel.scheduleSleep, Kernel.setTask, KernelTask.scheduleSleep, hij]
      · by_cases hij : i = j <;>
          simp [Kernel.scheduleSleep, Kernel.setTask, KernelTask.scheduleSleep, hij]
      · have hij : i ≠ j := fun heq => hj (heq ▸ hi)
        simp [Kernel.scheduleSleep, Kernel.setTask, hij]
      · have hij : i ≠ j := fun heq => hj (heq ▸ hi)
        exact Or.inl (by simp [Kernel.scheduleSleep, Kernel.setTask, hij])
      · by_cases hij : i = j
        · obtain rfl : o = o' := by
            simpa [Kernel.scheduleSleep, Kernel.setTask, KernelTask.scheduleSleep, hij] using hobj
          exact absurd hO ho
        · simpa [Kernel.scheduleSleep, Kernel.setTask, hij] using hobj
      · have hne : o' ≠ o := by
          rintro rfl
          exact ho hO
        simp [Kernel.scheduleSleep, Kernel.setTask, hne]

end Neutral

/-- The calls that neither bind nor remove a task. -/
def KernelEvent.keepsTasks : KernelEvent n → Bool
  | .addTask _ | .addTaskHrt _ _ _ _ | .removeTask _ | .requestAddTask _ _ | .taskExit _
  | .scheduleTaskRemoval _ => false
  | _ => true

/-- The calls that name no object in `O` and change no weight. -/
def KernelEvent.Avoids (O : SyncId → Prop) : KernelEvent n → Prop
  | .wait _ o _ | .wakeOne o | .wakeAll o => ¬ O o
  | .inheritWeight _ _ | .restoreWeight _ _ => False
  | _ => True

/-- INTERNAL: every kernel call from outside that keeps the tasks, other than a tick. -/
theorem step_neutral_of_ne_onTick {O : SyncId → Prop} {L : Fin n → Prop} {e : KernelEvent n}
    (hk : Linked k) (htick : ∀ d, e ≠ .onTick d) (hcall : ∀ i, L i → k.call i ≠ none)
    (hobj : ∀ i o, L i → (k.tasks i).waitObj.syncObj = some o → O o)
    (havoids : KernelEvent.Avoids O e) (hkeeps : KernelEvent.keepsTasks e = true)
    (hreturn : ∀ i, e = .waitReturn i → ¬ L i) : Neutral O L k (k.step cfg e) := by
  have hfree : ∀ {i}, k.canCall i = true → ¬ L i := by
    intro i hi hL
    simp only [Kernel.canCall, Bool.and_eq_true, decide_eq_true_eq] at hi
    exact hcall i hL hi.2
  have hwaiter : ∀ {o i}, ¬ O o → i ∈ k.waitList o → ¬ L i :=
    fun ho hi hL => ho (hobj _ _ hL ((hk.mem _ _).mpr hi))
  cases e with
  | addTask _ | addTaskHrt _ _ _ _ | removeTask _ | requestAddTask _ _ | taskExit _
  | scheduleTaskRemoval _ => cases hkeeps
  | inheritWeight _ _ | restoreWeight _ _ => exact havoids.elim
  | onStart =>
    simp only [Kernel.step]
    split
    · exact .of_sameTasks (.onStart cfg k)
    · exact .refl k
  | onStop =>
    simp only [Kernel.step]
    split
    · exact .of_sameTasks (.of_tasks rfl rfl rfl rfl rfl)
    · exact .refl k
  | onTick d => exact absurd rfl (htick d)
  | onSuspend =>
    simp only [Kernel.step]
    split
    · exact .of_sameTasks (.onSuspend k)
    · exact .refl k
  | sleep i ticks =>
    simp only [Kernel.step]
    split
    · exact .of_sameTasks (.onTaskSleep cfg k i ticks)
    · exact .refl k
  | sleepUntil i timestamp =>
    simp only [Kernel.step]
    split
    · exact .of_sameTasks (.onTaskSleepUntil k i timestamp)
    · exact .refl k
  | switchToNext i =>
    simp only [Kernel.step]
    split
    · exact .of_sameTasks (.onTaskSleep cfg k i _)
    · exact .refl k
  | wait i o timeout =>
    simp only [Kernel.step]
    split
    · next hmode =>
      simp only [Bool.and_eq_true] at hmode
      exact .onTaskWait (hfree hmode.1.1) havoids timeout
    · exact .refl k
  | waitReturn i =>
    simp only [Kernel.step]
    split
    · exact .refl k
    · exact .setCall (hreturn i rfl) none
  | suspendTask u => exact .of_sameTasks (.suspendTask k u)
  | resumeTask u => exact .of_sameTasks (.resumeTask k u)
  | sleepCancel u =>
    simp only [Kernel.step]
    split
    · exact .of_sameTasks (.resumeTask k u)
    · exact .refl k
  | wakeOne o =>
    simp only [Kernel.step, Kernel.wakeOne]
    split
    · exact .refl k
    · next i l hl =>
      have hi : i ∈ k.waitList o := by rw [hl]; exact List.mem_cons_self
      exact .wakeWaitObj (fun hL => absurd hL (hwaiter havoids hi))
  | wakeAll o =>
    refine Runs.foldl_keeps (I := fun k' : Kernel n σ => Neutral O L k k') (fun k' i hi h => ?_)
      (.refl k)
    exact h.trans (.wakeWaitObj (fun hL => absurd hL (hwaiter havoids hi)))

/-- INTERNAL: every kernel call from outside that keeps the tasks. -/
theorem step_neutral {O : SyncId → Prop} {L : Fin n → Prop} {e : KernelEvent n} (hk : Linked k)
    (hlive : ∀ i, (k.tasks i).removePending = false) (hreq : ∀ i, (k.tasks i).addTaskReq = none)
    (hcall : ∀ i, L i → k.call i ≠ none)
    (hobj : ∀ i o, L i → (k.tasks i).waitObj.syncObj = some o → O o)
    (havoids : KernelEvent.Avoids O e) (hkeeps : KernelEvent.keepsTasks e = true)
    (hreturn : ∀ i, e = .waitReturn i → ¬ L i) : Neutral O L k (k.step cfg e) := by
  by_cases htick : ∃ d, e = .onTick d
  · obtain ⟨d, rfl⟩ := htick
    simp only [Kernel.step]
    split
    · exact .onTick cfg d hk hlive hreq
    · exact .refl k
  · exact step_neutral_of_ne_onTick hk (fun d hd => htick ⟨d, hd⟩) hcall hobj havoids hkeeps hreturn

end Stk.Analysis
