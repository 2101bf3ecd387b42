import Stk.Analysis.SlotRelease
import Stk.Analysis.WaitFrame

/-!
# The slot of a task

`AllocateNewTask` asserts that the kernel does not have the task already.  `Single` says so of tasks in slots
and of tasks that a call of `AddTask` has asked for: when nobody adds a task that the kernel knows, every step
keeps it, the ticks that serve requests included.
-/

set_option autoImplicit false

namespace Stk.Analysis

open Stk.Model Stk.Model.Kernel

variable {n : ℕ} {σ : Type} {cfg : Config} {k k' k'' : Kernel n σ} {i : Fin n} {u : TId}

/-- No task is in two slots, asked for twice, or in a slot and asked for. -/
structure Single (k : Kernel n σ) : Prop where
  bound : ∀ i j u, (k.tasks i).user = some u → (k.tasks j).user = some u → i = j
  requested : ∀ i j u, (k.tasks i).addTaskReq = some u → (k.tasks j).addTaskReq = some u → i = j
  apart : ∀ i j u, (k.tasks i).user = some u → (k.tasks j).addTaskReq ≠ some u

/-- INTERNAL: the only slot of a task is the one that is found. -/
theorem Single.find (h : Single k) (hi : (k.tasks i).user = some u) : k.findTaskByUserTask u = some i := by
  cases hfind : k.findTaskByUserTask u with
  | none =>
    have hnone := List.find?_eq_none.mp hfind i (List.mem_finRange i)
    simp [hi] at hnone
  | some j =>
    have hj : (k.tasks j).user = some u := by simpa using List.find?_some hfind
    rw [h.bound j i u hj hi]

/-- A slot has the task it had or one that was asked for, and no request is new. -/
structure Serves (k k' : Kernel n σ) : Prop where
  user : ∀ i u, (k'.tasks i).user = some u →
    (k.tasks i).user = some u ∨ ∃ j, (k.tasks j).addTaskReq = some u
  request : ∀ i u, (k'.tasks i).addTaskReq = some u → (k.tasks i).addTaskReq = some u
  single : Single k → Single k'

namespace Serves

/-- INTERNAL: two steps within the frame. -/
theorem trans (h : Serves k k') (h' : Serves k' k'') : Serves k k'' where
  user i u hu := by
    obtain hkept | ⟨j, hj⟩ := h'.user i u hu
    · exact h.user i u hkept
    · exact .inr ⟨j, h.request j u hj⟩
  request i u hu := h.request i u (h'.request i u hu)
  single hs := h'.single (h.single hs)

/-- INTERNAL: the slots keep their tasks and requests or lose them. -/
theorem of_slots (huser : ∀ i, (k'.tasks i).user = (k.tasks i).user ∨ (k'.tasks i).user = none)
    (hrequest : ∀ i, (k'.tasks i).addTaskReq = (k.tasks i).addTaskReq ∨ (k'.tasks i).addTaskReq = none) :
    Serves k k' := by
  have hu : ∀ i u, (k'.tasks i).user = some u → (k.tasks i).user = some u := by
    intro i u h
    rcases huser i with hsame | hnone
    · rw [← hsame]
      exact h
    · rw [hnone] at h
      cases h
  have hr : ∀ i u, (k'.tasks i).addTaskReq = some u → (k.tasks i).addTaskReq = some u := by
    intro i u h
    rcases hrequest i with hsame | hnone
    · rw [← hsame]
      exact h
    · rw [hnone] at h
      cases h
  refine ⟨fun i u h => .inl (hu i u h), hr, fun hs => ⟨?_, ?_, ?_⟩⟩
  · intro i j u hi hj
    exact hs.bound i j u (hu i u hi) (hu j u hj)
  · intro i j u hi hj
    exact hs.requested i j u (hr i u hi) (hr j u hj)
  · intro i j u hi hj
    exact hs.apart i j u (hu i u hi) (hr j u hj)

/-- INTERNAL: nothing changes. -/
theorem refl (k : Kernel n σ) : Serves k k := of_slots (fun _ => .inl rfl) (fun _ => .inl rfl)

/-- INTERNAL: the tasks and the requests stay. -/
theorem of_sameCalls (h : SameCalls k k') : Serves k k' :=
  of_slots (fun i => .inl (h.user i)) (fun i => .inl (h.request i))

/-- INTERNAL: the tasks and the requests stay. -/
theorem of_sameTasks (h : SameTasks k k') : Serves k k' := of_sameCalls h.toSameCalls

/-- INTERNAL: the tasks and the requests stay. -/
theorem of_neutral {O : SyncId → Prop} {L : Fin n → Prop} (h : Neutral O L k k') : Serves k k' :=
  of_slots (fun i => .inl (h.user i)) (fun i => .inl (h.request i))

/-- INTERNAL: a fold of functions that serve requests. -/
theorem foldl {A : Type} {f : Kernel n σ → A → Kernel n σ} (hf : ∀ k a, Serves k (f k a)) (l : List A)
    (k : Kernel n σ) : Serves k (l.foldl f k) :=
  Runs.foldl_keeps (I := Serves k) (fun k' a _ h => h.trans (hf k' a)) (refl k)

/-- INTERNAL: a slot is written, and freed at most. -/
theorem setTask (k : Kernel n σ) (i : Fin n) {f : KernelTask → KernelTask}
    (huser : ∀ t, (f t).user = t.user ∨ (f t).user = none)
    (hrequest : ∀ t, (f t).addTaskReq = t.addTaskReq ∨ (f t).addTaskReq = none) :
    Serves k (k.setTask i f) := by
  apply of_slots
  · intro j
    by_cases hj : j = i
    · subst hj
      simpa [Kernel.setTask] using huser (k.tasks j)
    · simp [Kernel.setTask, hj]
  · intro j
    by_cases hj : j = i
    · subst hj
      simpa [Kernel.setTask] using hrequest (k.tasks j)
    · simp [Kernel.setTask, hj]

end Serves

variable [SwitchStrategy (Fin n) σ]

/-- INTERNAL: a slot with a task had it before or is the only one whose task is new. -/
theorem Binds.kept_or_new {j : Fin n} {v : TId} (h : Binds u k k') (hv : (k'.tasks j).user = some v) :
    (k.tasks j).user = some v ∨ (v = u ∧ ∀ j', j' ≠ j → (k'.tasks j').user = (k.tasks j').user) := by
  rcases h.user with hsame | ⟨b, -, hb, -, hother⟩
  · left
    rw [← (hsame j).1]
    exact hv
  · by_cases hj : j = b
    · subst hj
      rw [hb] at hv
      exact .inr ⟨(Option.some.inj hv).symm, fun j' hj' => (hother j' hj').1⟩
    · left
      rw [← (hother j hj).1]
      exact hv

namespace Serves

/-- INTERNAL: the slots after a request of slot `i` has been served. -/
theorem served (h : Binds u k k') (hi : (k.tasks i).addTaskReq = some u) :
    Serves k (k'.setTask i (fun t => { t with addTaskReq := none })) := by
  have huser : ∀ j, ((k'.setTask i (fun t => { t with addTaskReq := none })).tasks j).user =
      (k'.tasks j).user := by
    intro j
    by_cases hj : j = i
    · subst hj
      simp [Kernel.setTask]
    · simp [Kernel.setTask, hj]
  have hrequest : ∀ j v, ((k'.setTask i (fun t => { t with addTaskReq := none })).tasks j).addTaskReq =
      some v → j ≠ i ∧ (k.tasks j).addTaskReq = some v := by
    intro j v hv
    by_cases hj : j = i
    · subst hj
      simp [Kernel.setTask] at hv
    · rw [← h.request j]
      exact ⟨hj, by simpa [Kernel.setTask, hj] using hv⟩
  refine ⟨fun j v hv => ?_, fun j v hv => (hrequest j v hv).2, fun hs => ⟨?_, ?_, ?_⟩⟩
  · rw [huser] at hv
    obtain hkept | ⟨rfl, -⟩ := h.kept_or_new hv
    · exact .inl hkept
    · exact .inr ⟨i, hi⟩
  · -- the new slot has a task that no other slot had
    intro j j' v hj hj'
    rw [huser] at hj hj'
    obtain hkept | ⟨rfl, hother⟩ := h.kept_or_new hj
    · obtain hkept' | ⟨rfl, -⟩ := h.kept_or_new hj'
      · exact hs.bound j j' v hkept hkept'
      · exact absurd hi (hs.apart j i v hkept)
    · by_contra hne
      rw [hother j' (Ne.symm hne)] at hj'
      exact hs.apart j' i v hj' hi
  · intro j j' v hj hj'
    exact hs.requested j j' v (hrequest j v hj).2 (hrequest j' v hj').2
  · intro j j' v hj hj'
    rw [huser] at hj
    obtain ⟨hne, hold⟩ := hrequest j' v hj'
    obtain hkept | ⟨rfl, -⟩ := h.kept_or_new hj
    · exact hs.apart j j' v hkept hold
    · exact hne (hs.requested j' i v hold hi)

/-- INTERNAL: requests are served, each by a slot. -/
theorem updateTaskRequest (cfg : Config) (k : Kernel n σ) : Serves k (k.updateTaskRequest cfg) := by
  unfold Kernel.updateTaskRequest
  split
  · have hclear : Serves k ({ k with request := false } : Kernel n σ) :=
      of_slots (fun _ => .inl rfl) (fun _ => .inl rfl)
    refine hclear.trans (foldl (fun k i => ?_) _ _)
    split
    · exact refl k
    · next u hu => exact served (.allocateAndAddNewTask cfg k u) hu
  · exact refl k

/-- INTERNAL: a slot is freed. -/
theorem removeTask (cfg : Config) (k : Kernel n σ) (i : Fin n) : Serves k (k.removeTask cfg i) := by
  have hunbind : ∀ t : KernelTask, ((t.unbind cfg).user = t.user ∨ (t.unbind cfg).user = none) ∧
      ((t.unbind cfg).addTaskReq = t.addTaskReq ∨ (t.unbind cfg).addTaskReq = none) := by
    intro t
    unfold KernelTask.unbind
    dsimp only
    split
    · exact ⟨.inr rfl, .inl rfl⟩
    · exact ⟨.inr rfl, .inr rfl⟩
  unfold Kernel.removeTask
  dsimp only
  have hexit : SameTasks k ({ k with exits := k.exits ++ (k.tasks i).user.toList } : Kernel n σ) :=
    .of_tasks rfl rfl rfl rfl rfl
  have hcall := hexit.trans (.callStrategy cfg _ (.removeTask i))
  generalize (({ k with exits := k.exits ++ (k.tasks i).user.toList } : Kernel n σ).callStrategy
      cfg (.removeTask i)).2 = k₁ at hcall
  have hfault : SameTasks k₁ (if (k₁.tasks i).isWaiting then k₁.fault .unbindWaiting else k₁) := by
    split
    · exact .fault k₁ _
    · exact .refl k₁
  generalize (if (k₁.tasks i).isWaiting then k₁.fault .unbindWaiting else k₁) = k₂ at hfault
  refine ((of_sameTasks hcall).trans (of_sameTasks hfault)).trans ((setTask k₂ i (fun t => (hunbind t).1)
    (fun t => (hunbind t).2)).trans ?_)
  exact of_slots (fun _ => .inl rfl) (fun _ => .inl rfl)

/-- INTERNAL: the work of a tick on one slot. -/
theorem updateSlot (cfg : Config) (e : ℤ) (acc : Kernel n σ × ℤ) (i : Fin n) :
    Serves acc.1 (Kernel.updateSlot cfg e acc i).1 := by
  unfold Kernel.updateSlot
  dsimp only
  split
  · exact removeTask cfg _ i
  · split
    · exact of_sameTasks ((SameTasks.deliverSleep cfg _ i).trans (.advanceSleep cfg e _ i))
    · exact of_sameTasks (.advanceDuration cfg e _ i)

/-- INTERNAL: the part of a tick before the removals. -/
theorem loading (cfg : Config) (hk : Linked k) (e : ℤ) : Serves k (loading cfg k e) := by
  unfold Analysis.loading
  dsimp only
  have htime : Serves k ({ k with ticks := k.ticks + e } : Kernel n σ) :=
    of_slots (fun _ => .inl rfl) (fun _ => .inl rfl)
  have hlinked : Linked ({ k with ticks := k.ticks + e } : Kernel n σ) :=
    ⟨hk.mem, hk.nodup, hk.syncNodup, hk.registered⟩
  generalize ({ k with ticks := k.ticks + e } : Kernel n σ) = k₀ at htime hlinked
  have hsync : Serves k₀ (if cfg.isSyncMode then k₀.updateSyncObjects e else k₀) := by
    split
    · exact of_neutral (Neutral.updateSyncObjects (O := fun _ => False) (L := fun _ => False) e hlinked)
    · exact refl k₀
  generalize (if cfg.isSyncMode then k₀.updateSyncObjects e else k₀) = k₁ at hsync
  split
  · exact (htime.trans hsync).trans (updateTaskRequest cfg k₁)
  · exact htime.trans hsync

/-- INTERNAL: the handler of a tick. -/
theorem onTick (cfg : Config) (hk : Linked k) (e : ℤ) : Serves k (k.onTick cfg e).1 := by
  have hstate : Serves (Analysis.loading cfg k e) (asking cfg k e) :=
    Runs.foldl_keeps (I := fun acc : Kernel n σ × ℤ => Serves (Analysis.loading cfg k e) acc.1)
      (fun acc i _ h => h.trans (updateSlot cfg e acc i)) (refl _)
  exact (loading cfg hk e).trans (hstate.trans (of_sameTasks (.updateFsmState cfg (asking cfg k e))))

end Serves

/-- The task that a call adds or asks for. -/
def KernelEvent.adds : KernelEvent n → Option TId
  | .addTask u | .addTaskHrt u _ _ _ | .requestAddTask _ u => some u
  | _ => none

/-- INTERNAL: every event but a call of `AddTask` binds requested tasks only. -/
theorem step_serves (hk : Linked k) {e : KernelEvent n} (he : KernelEvent.adds e = none) :
    Serves k (k.step cfg e) := by
  have hmark : ∀ i, Serves k (k.scheduleRemoval cfg i) := by
    intro i
    refine Serves.setTask k i (fun t => ?_) (fun t => ?_)
    · unfold KernelTask.scheduleRemoval
      dsimp only
      split <;> exact .inl rfl
    · unfold KernelTask.scheduleRemoval
      dsimp only
      split <;> exact .inl rfl
  cases e with
  | addTask _ | addTaskHrt _ _ _ _ | requestAddTask _ _ => cases he
  | onTick t =>
    simp only [Kernel.step]
    split
    · exact .onTick cfg hk t
    · exact .refl k
  | removeTask v =>
    simp only [Kernel.step]
    split
    · split
      · exact .refl k
      · exact .removeTask cfg k _
    · exact .refl k
  | taskExit i =>
    simp only [Kernel.step]
    split
    · exact hmark i
    · exact .refl k
  | scheduleTaskRemoval v =>
    simp only [Kernel.step]
    split
    · split
      · exact .refl k
      · exact hmark _
    · exact .refl k
  | inheritWeight v w => exact .of_sameCalls (.onInheritWeight cfg k v w)
  | restoreWeight v o => exact .of_sameCalls (.onRestoreWeight cfg k v o)
  | _ =>
    exact .of_neutral (step_neutral_of_ne_onTick (O := fun _ => False) (L := fun _ => False) hk (by simp)
      (fun _ h => h.elim) (fun _ _ h => h.elim) (by simp [KernelEvent.Avoids]) rfl (fun _ _ h => h.elim))

/-- INTERNAL: a task gets a slot. -/
theorem binds_single (h : Binds u k k') (hs : Single k)
    (hnew : ∀ j, (k.tasks j).user ≠ some u ∧ (k.tasks j).addTaskReq ≠ some u) : Single k' := by
  refine ⟨?_, ?_, ?_⟩
  · intro j j' v hj hj'
    obtain hkept | ⟨rfl, hother⟩ := h.kept_or_new hj
    · obtain hkept' | ⟨rfl, -⟩ := h.kept_or_new hj'
      · exact hs.bound j j' v hkept hkept'
      · exact absurd hkept (hnew j).1
    · by_contra hne
      rw [hother j' (Ne.symm hne)] at hj'
      exact (hnew j').1 hj'
  · intro j j' v hj hj'
    rw [h.request] at hj hj'
    exact hs.requested j j' v hj hj'
  · intro j j' v hj hj'
    rw [h.request] at hj'
    obtain hkept | ⟨rfl, -⟩ := h.kept_or_new hj
    · exact hs.apart j j' v hkept hj'
    · exact (hnew j').2 hj'

/-- What a call that adds `u` does: no other task gets a slot or is asked for. -/
structure Adds (u : TId) (k k' : Kernel n σ) : Prop where
  user : ∀ i v, v ≠ u → (k'.tasks i).user = some v → (k.tasks i).user = some v
  request : ∀ i v, v ≠ u → (k'.tasks i).addTaskReq = some v → (k.tasks i).addTaskReq = some v
  single : Single k → (∀ j, (k.tasks j).user ≠ some u ∧ (k.tasks j).addTaskReq ≠ some u) → Single k'

omit [SwitchStrategy (Fin n) σ] in
/-- INTERNAL: nothing changes. -/
theorem Adds.refl (u : TId) (k : Kernel n σ) : Adds u k k :=
  ⟨fun _ _ _ h => h, fun _ _ _ h => h, fun hs _ => hs⟩

/-- INTERNAL: a bound slot has the added task. -/
theorem Binds.adds (h : Binds u k k') : Adds u k k' where
  user i v hv hi := by
    obtain hkept | ⟨rfl, -⟩ := h.kept_or_new hi
    · exact hkept
    · exact absurd rfl hv
  request i v _ hi := by
    rw [← h.request]
    exact hi
  single := binds_single h

omit [SwitchStrategy (Fin n) σ] in
/-- INTERNAL: `RequestAddTask` stores its request in the slot of the caller. -/
theorem request_adds (k : Kernel n σ) (i : Fin n) (u : TId) :
    Adds u k ({ k.setTask i (fun t => { t with addTaskReq := some u }) with request := true }) := by
  have huser : ∀ j, ((k.setTask i (fun t => { t with addTaskReq := some u })).tasks j).user =
      (k.tasks j).user := by
    intro j
    by_cases hj : j = i
    · subst hj
      simp [Kernel.setTask]
    · simp [Kernel.setTask, hj]
  have hrequest : ∀ j v, ((k.setTask i (fun t => { t with addTaskReq := some u })).tasks j).addTaskReq = some v →
      (j = i ∧ v = u) ∨ (k.tasks j).addTaskReq = some v := by
    intro j v hv
    by_cases hj : j = i
    · subst hj
      left
      simpa [Kernel.setTask, eq_comm] using hv
    · right
      simpa [Kernel.setTask, hj] using hv
  refine ⟨fun j v _ hj => (huser j).symm.trans hj, fun j v hv hj => ?_, fun hs hnew => ⟨?_, ?_, ?_⟩⟩
  · obtain ⟨-, rfl⟩ | hold := hrequest j v hj
    · exact absurd rfl hv
    · exact hold
  · intro j j' v hj hj'
    exact hs.bound j j' v ((huser j).symm.trans hj) ((huser j').symm.trans hj')
  · intro j j' v hj hj'
    obtain ⟨rfl, rfl⟩ | hold := hrequest j v hj
    · obtain ⟨rfl, -⟩ | hold' := hrequest j' v hj'
      · rfl
      · exact absurd hold' (hnew j').2
    · obtain ⟨-, rfl⟩ | hold' := hrequest j' v hj'
      · exact absurd hold (hnew j).2
      · exact hs.requested j j' v hold hold'
  · intro j j' v hj hj'
    have hbound := (huser j).symm.trans hj
    obtain ⟨-, rfl⟩ | hold := hrequest j' v hj'
    · exact (hnew j).1 hbound
    · exact hs.apart j j' v hbound hold

/-- INTERNAL: a call of `AddTask` binds its own task. -/
theorem step_adds {e : KernelEvent n} (he : KernelEvent.adds e = some u) : Adds u k (k.step cfg e) := by
  cases e with
  | addTask v =>
    cases he
    simp only [Kernel.step]
    split
    · exact (Binds.allocateAndAddNewTask cfg k u).adds
    · exact .refl u k
  | addTaskHrt v p d s =>
    cases he
    simp only [Kernel.step]
    split
    · exact (Binds.hrtAllocateAndAddNewTask cfg k u p d s).adds
    · exact .refl u k
  | requestAddTask i v =>
    cases he
    simp only [Kernel.step]
    split
    · exact request_adds k i u
    · exact .refl u k
  | _ => cases he

/-! ## Tasks that have been removed -/

/-- The tasks for which the call has run `OnExit` are in no slot and not asked for. -/
def ExitsLeave (k k' : Kernel n σ) : Prop :=
  ∃ xs, k'.exits = k.exits ++ xs ∧
    ∀ u ∈ xs, (∀ i, (k'.tasks i).user ≠ some u) ∧ ∀ j, (k'.tasks j).addTaskReq ≠ some u

omit [SwitchStrategy (Fin n) σ] in
/-- INTERNAL: no task leaves. -/
theorem ExitsLeave.of_eq (h : k'.exits = k.exits) : ExitsLeave k k' :=
  ⟨[], by rw [h, List.append_nil], nofun⟩

/-- INTERNAL: one slot of the loop in `UpdateTaskState`. -/
theorem updateSlot_exitsLeave (cfg : Config) (e : ℤ) (acc : Kernel n σ × ℤ) (i : Fin n) (hs : Single acc.1)
    (h : ExitsLeave k acc.1) : ExitsLeave k (Kernel.updateSlot cfg e acc i).1 := by
  have hserves := Serves.updateSlot cfg e acc i
  have hticked := updateSlot_ticked cfg e acc i
  obtain ⟨xs, hexits, hgone⟩ := h
  have hold : ∀ u ∈ xs, (∀ j, ((Kernel.updateSlot cfg e acc i).1.tasks j).user ≠ some u) ∧
      ∀ j, ((Kernel.updateSlot cfg e acc i).1.tasks j).addTaskReq ≠ some u := by
    intro u hu
    obtain ⟨huser, hrequest⟩ := hgone u hu
    refine ⟨fun j hj => ?_, fun j hj => hrequest j (hserves.request j u hj)⟩
    obtain hkept | ⟨j', hj'⟩ := hserves.user j u hj
    · exact huser j hkept
    · exact hrequest j' hj'
  by_cases hremoved : ((acc.1.tasks i).isSleeping && acc.1.isRemovable cfg i) = true
  · refine ⟨xs ++ (acc.1.tasks i).user.toList, ?_, fun u hu => ?_⟩
    · rw [hticked.exits, if_pos hremoved, hexits, List.append_assoc]
    · obtain hmem | hmem := List.mem_append.mp hu
      · exact hold u hmem
      · -- the task of the slot was in no other and not asked for
        have hbound : (acc.1.tasks i).user = some u := Option.mem_toList.mp hmem
        have hfree := updatedSlot_marked cfg (SwitchStrategy.sleepEventApi σ) (acc.1.isRemovable cfg i) e
          (acc.1.tasks i)
        rw [if_pos hremoved, ← hticked.self] at hfree
        refine ⟨fun j hj => ?_, fun j hj => hs.apart i j u hbound (hserves.request j u hj)⟩
        obtain hkept | ⟨j', hj'⟩ := hserves.user j u hj
        · obtain rfl := hs.bound j i u hkept hbound
          rw [hfree.1] at hj
          cases hj
        · exact hs.apart i j' u hbound hj'
  · refine ⟨xs, ?_, hold⟩
    rw [hticked.exits, if_neg hremoved, hexits]

/-- INTERNAL: a tick leaves the tasks that are gone unbound. -/
theorem onTick_exitsLeave (cfg : Config) (hk : Linked k) (hs : Single k) (e : ℤ) :
    ExitsLeave k (k.onTick cfg e).1 := by
  obtain ⟨hkept, -⟩ := loading_kept cfg k e
  obtain ⟨-, hstate⟩ : Single (asking cfg k e) ∧ ExitsLeave k (asking cfg k e) :=
    Runs.foldl_keeps (I := fun acc : Kernel n σ × ℤ => Single acc.1 ∧ ExitsLeave k acc.1)
      (fun acc i _ h => ⟨(Serves.updateSlot cfg e acc i).single h.1, updateSlot_exitsLeave cfg e acc i h.1 h.2⟩)
      ⟨(Serves.loading cfg hk e).single hs, .of_eq hkept.exits⟩
  obtain ⟨xs, hexits, hgone⟩ := hstate
  have hfsm := SameTasks.updateFsmState cfg (asking cfg k e)
  refine ⟨xs, (updateFsmState_log cfg (asking cfg k e)).1.trans hexits, fun u hu => ?_⟩
  obtain ⟨huser, hrequest⟩ := hgone u hu
  refine ⟨fun i hi => huser i ((hfsm.user i).symm.trans hi), fun j hj => hrequest j ((hfsm.request j).symm.trans hj)⟩

/-- INTERNAL: the task of a freed slot has left. -/
theorem removeTask_exits (cfg : Config) (k : Kernel n σ) (i : Fin n) :
    (k.removeTask cfg i).exits = k.exits ++ (k.tasks i).user.toList := by
  have hcall := (callStrategy_frame cfg { k with exits := k.exits ++ (k.tasks i).user.toList }
    (.removeTask i)).2.1
  unfold Kernel.removeTask
  dsimp only
  generalize (({ k with exits := k.exits ++ (k.tasks i).user.toList } : Kernel n σ).callStrategy cfg
    (.removeTask i)).2 = k₁ at hcall
  split
  · exact hcall
  · exact hcall

/-- INTERNAL: the start of the scheduler removes no task. -/
theorem onStart_exits (cfg : Config) (k : Kernel n σ) : (k.onStart cfg).exits = k.exits := by
  have hcall : ∀ (k : Kernel n σ) c, (k.callStrategy cfg c).2.exits = k.exits :=
    fun k c => (callStrategy_frame cfg k c).2.1
  have hloop : ((List.finRange n).foldl (fun k i =>
      if (k.tasks i).isSleeping then k.deliverSleep cfg i else k) k).exits = k.exits := by
    refine Runs.foldl_keeps (I := fun k' : Kernel n σ => k'.exits = k.exits) (fun k' i _ h => ?_) rfl
    split
    · unfold Kernel.deliverSleep
      split
      · exact (hcall _ _).trans h
      · exact h
    · exact h
  unfold Kernel.onStart
  dsimp only
  generalize (List.finRange n).foldl (fun k i =>
      if (k.tasks i).isSleeping then k.deliverSleep cfg i else k) k = k₁ at hloop
  have hfetch : (({ k₁ with fsmState := .switching } : Kernel n σ).fetchNextEvent cfg).2.2.exits = k₁.exits := by
    have hget := hcall ({ k₁ with fsmState := .switching } : Kernel n σ) .getNext
    unfold Kernel.fetchNextEvent
    generalize ({ k₁ with fsmState := .switching } : Kernel n σ).callStrategy cfg .getNext = f at hget
    obtain ⟨_ | next, k₂⟩ := f
    · dsimp only
      split <;> exact hget
    · dsimp only
      split <;> exact hget
  generalize ({ k₁ with fsmState := .switching } : Kernel n σ).fetchNextEvent cfg = f at hfetch
  obtain ⟨event, next, k₂⟩ := f
  dsimp only at hfetch ⊢
  split
  · exact hfetch.trans hloop
  · split <;> exact hfetch.trans hloop
  · exact hfetch.trans hloop

/-- INTERNAL: only a tick and `RemoveTask` run `OnExit`. -/
theorem step_exits {e : KernelEvent n} (htick : ∀ t, e ≠ .onTick t) (hremove : ∀ u, e ≠ .removeTask u) :
    (k.step cfg e).exits = k.exits := by
  have hcall : ∀ (k : Kernel n σ) c, (k.callStrategy cfg c).2.exits = k.exits :=
    fun k c => (callStrategy_frame cfg k c).2.1
  have hweight : ∀ (k : Kernel n σ) i w, (k.setCurrentWeight i w).exits = k.exits := by
    intro k i w
    unfold Kernel.setCurrentWeight
    split <;> rfl
  have hresume : ∀ u, (k.resumeTask u).exits = k.exits := by
    intro u
    unfold Kernel.resumeTask
    split
    · rfl
    · split
      · exact (Kept.wakeTask k _).exits
      · rfl
  have hsleep : ∀ i ticks, (k.onTaskSleep cfg i ticks).exits = k.exits := by
    intro i ticks
    unfold Kernel.onTaskSleep
    dsimp only
    split <;> split <;> rfl
  cases e with
  | onTick t => exact absurd rfl (htick t)
  | removeTask u => exact absurd rfl (hremove u)
  | addTask u =>
    simp only [Kernel.step]
    split
    · exact (Kept.allocateAndAddNewTask cfg k u).exits
    · rfl
  | addTaskHrt u p d s =>
    simp only [Kernel.step]
    split
    · have halloc := (Kept.allocateNewTask k u).exits
      unfold Kernel.hrtAllocateAndAddNewTask
      generalize k.allocateNewTask u = f at halloc
      obtain ⟨_ | i, k₁⟩ := f
      · exact halloc
      · exact (hcall _ _).trans halloc
    · rfl
  | onStart =>
    simp only [Kernel.step]
    split
    · exact onStart_exits cfg k
    · rfl
  | onStop =>
    simp only [Kernel.step]
    split <;> rfl
  | onSuspend =>
    simp only [Kernel.step, Kernel.onSuspend]
    split
    · split
      · rfl
      · split <;> rfl
    · rfl
  | requestAddTask i u =>
    simp only [Kernel.step]
    split <;> rfl
  | sleep i ticks =>
    simp only [Kernel.step]
    split
    · exact hsleep i ticks
    · rfl
  | sleepUntil i timestamp =>
    simp only [Kernel.step, Kernel.onTaskSleepUntil]
    split
    · split <;> rfl
    · rfl
  | switchToNext i =>
    simp only [Kernel.step]
    split
    · exact hsleep i yieldTicks
    · rfl
  | wait i o timeout =>
    simp only [Kernel.step, Kernel.onTaskWait]
    split
    · split
      · rfl
      · split <;> rfl
    · rfl
  | waitReturn i =>
    simp only [Kernel.step]
    split <;> rfl
  | taskExit i =>
    simp only [Kernel.step]
    split <;> rfl
  | suspendTask u =>
    simp only [Kernel.step, Kernel.suspendTask]
    split
    · rfl
    · split <;> rfl
  | resumeTask u => exact hresume u
  | sleepCancel u =>
    simp only [Kernel.step]
    split
    · exact hresume u
    · rfl
  | scheduleTaskRemoval u =>
    simp only [Kernel.step]
    split
    · split <;> rfl
    · rfl
  | wakeOne o =>
    simp only [Kernel.step, Kernel.wakeOne]
    split
    · rfl
    · exact (Kept.wakeWaitObj k _ false).exits
  | wakeAll o => exact (Kept.foldl (fun k i => .wakeWaitObj k i false) (k.waitList o) (k := k)).exits
  | inheritWeight u w =>
    simp only [Kernel.step, Kernel.onInheritWeight]
    split
    · rfl
    · split
      · rfl
      · split
        · rfl
        · split
          · exact (hcall _ _).trans (hweight _ _ _)
          · rfl
  | restoreWeight u o =>
    simp only [Kernel.step, Kernel.onRestoreWeight]
    split
    · rfl
    · split
      · rfl
      · exact (hcall _ _).trans (hweight _ _ _)

end Stk.Analysis
