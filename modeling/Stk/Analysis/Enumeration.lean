import Stk.Analysis.DispatchRun
import Stk.Model.KernelRun

/-!
# What an enumeration finds

The loop of `EnumerateKernelTasks` and `EnumerateTasks` stops at slot `Min(view size, TASKS_MAX)`, so
it finds the busy slots below that index: as many as the view can take only when no busy slot
lies beyond it or all those before it are busy (`run_enumeration`).  The entries are distinct because
no user task is in two slots, as `AllocateNewTask` asserts (`run_unshared`).
-/

set_option autoImplicit false

namespace Stk.Analysis

open Stk.Model Stk.Model.Kernel

variable {n : ℕ} {σ β : Type} {cfg : Config} {k k' k'' : Kernel n σ} {i : Fin n} {u : TId}

/-! ## No user task is in two slots -/

/-- Unless the assertion of `AllocateNewTask` has failed, no user task is in two slots. -/
def Unshared (k : Kernel n σ) : Prop :=
  .taskCollision ∉ k.faults → ∀ i j u, (k.tasks i).user = some u → (k.tasks j).user = some u → i = j

/-- No slot gets a task, and no failed assertion is forgotten. -/
structure Sheds (k k' : Kernel n σ) : Prop where
  user : ∀ i, (k'.tasks i).user = (k.tasks i).user ∨ (k'.tasks i).user = none
  faults : .taskCollision ∈ k.faults → .taskCollision ∈ k'.faults

/-- INTERNAL: no slot shares its task if none is bound. -/
theorem Unshared.sheds (h : Unshared k) (hk : Sheds k k') : Unshared k' := by
  intro hclean i j u hi hj
  have hkept : ∀ i, (k'.tasks i).user = some u → (k.tasks i).user = some u := by
    intro i hi
    rcases hk.user i with hsame | hnone
    · rw [← hsame]
      exact hi
    · rw [hnone] at hi
      cases hi
  exact h (fun hf => hclean (hk.faults hf)) i j u (hkept i hi) (hkept j hj)

namespace Sheds

/-- INTERNAL: the tasks and the failed assertions stay. -/
theorem of_fields (huser : ∀ i, (k'.tasks i).user = (k.tasks i).user) (hf : k'.faults = k.faults) : Sheds k k' := by
  refine ⟨fun i => .inl (huser i), fun h => ?_⟩
  rw [hf]
  exact h

/-- INTERNAL: a calm step binds no slot. -/
theorem of_calm (h : Calm k k') : Sheds k k' := ⟨fun i => .inl (h.slot i).user, h.collided⟩

/-- INTERNAL: nothing changes. -/
theorem refl (k : Kernel n σ) : Sheds k k := of_fields (fun _ => rfl) rfl

/-- INTERNAL: two steps within the frame. -/
theorem trans (h : Sheds k k') (h' : Sheds k' k'') : Sheds k k'' where
  user i := by
    rcases h'.user i with hsame | hnone
    · rw [hsame]
      exact h.user i
    · exact .inr hnone
  faults hf := h'.faults (h.faults hf)

/-- INTERNAL: a failed assertion is recorded and nothing else. -/
theorem fault (k : Kernel n σ) (f : Fault) : Sheds k (k.fault f) :=
  ⟨fun _ => .inl rfl, fun h => List.mem_append_left _ h⟩

/-- INTERNAL: a slot is written within the frame. -/
theorem setTask (k : Kernel n σ) (i : Fin n) {f : KernelTask → KernelTask}
    (hf : (f (k.tasks i)).user = (k.tasks i).user ∨ (f (k.tasks i)).user = none) : Sheds k (k.setTask i f) := by
  refine ⟨fun j => ?_, fun h => h⟩
  by_cases hj : j = i
  · subst hj
    simpa [Kernel.setTask] using hf
  · simp [Kernel.setTask, hj]

/-- INTERNAL: a fold of functions that stay within the frame. -/
theorem foldl {A : Type} {f : Kernel n σ → A → Kernel n σ} (hf : ∀ k a, Sheds k (f k a)) (l : List A) :
    Sheds k (l.foldl f k) :=
  Runs.foldl_keeps (fun k' a _ h => h.trans (hf k' a)) (refl k)

variable [SwitchStrategy (Fin n) σ]

/-- INTERNAL: a call of the strategy. -/
theorem callStrategy (cfg : Config) (k : Kernel n σ) (c : StrategyCall (Fin n)) :
    Sheds k (k.callStrategy cfg c).2 := by
  unfold Kernel.callStrategy
  split
  · exact of_fields (fun _ => rfl) rfl
  · exact fault k _

/-- INTERNAL: the strategy is told of a sleep that has begun. -/
theorem deliverSleep (cfg : Config) (k : Kernel n σ) (i : Fin n) : Sheds k (k.deliverSleep cfg i) := by
  unfold Kernel.deliverSleep
  split
  · exact (setTask k i (.inl rfl)).trans (callStrategy cfg _ _)
  · exact refl k

/-- INTERNAL: a tick of a sleep. -/
theorem advanceSleep (cfg : Config) (e : ℤ) (k : Kernel n σ) (i : Fin n) : Sheds k (k.advanceSleep cfg e i) := by
  unfold Kernel.advanceSleep
  dsimp only
  split
  · exact (setTask k i (.inl rfl)).trans (callStrategy cfg _ _)
  · exact setTask k i (.inl rfl)

/-- INTERNAL: a task is removed. -/
theorem removeTask (cfg : Config) (k : Kernel n σ) (i : Fin n) : Sheds k (k.removeTask cfg i) := by
  have hexit : Sheds k ({ k with exits := k.exits ++ (k.tasks i).user.toList } : Kernel n σ) :=
    of_fields (fun _ => rfl) rfl
  have hunbind : ∀ k : Kernel n σ, Sheds k
      ({ k.setTask i (KernelTask.unbind cfg) with call := Function.update k.call i none } : Kernel n σ) := by
    intro k
    refine (setTask k i (f := KernelTask.unbind cfg) (.inr ?_)).trans (of_fields (fun _ => rfl) rfl)
    unfold KernelTask.unbind
    dsimp only
    split <;> rfl
  unfold Kernel.removeTask
  dsimp only
  have hcall := hexit.trans (callStrategy cfg _ (.removeTask i))
  generalize (({ k with exits := k.exits ++ (k.tasks i).user.toList } : Kernel n σ).callStrategy
    cfg (.removeTask i)).2 = k₁ at hcall
  split
  · exact (hcall.trans (fault k₁ _)).trans (hunbind _)
  · exact hcall.trans (hunbind _)

/-- INTERNAL: the work of a tick on all slots. -/
theorem updateTaskState (cfg : Config) (k : Kernel n σ) (e : ℤ) : Sheds k (k.updateTaskState cfg e).1 := by
  refine Runs.foldl_keeps (I := fun acc : Kernel n σ × ℤ => Sheds k acc.1) (fun acc i _ h => ?_) (refl k)
  unfold Kernel.updateSlot
  dsimp only
  split
  · exact h.trans (removeTask cfg _ i)
  · dsimp only
    split
    · exact h.trans ((deliverSleep cfg _ i).trans (advanceSleep cfg e _ i))
    · exact h.trans (of_calm (.advanceDuration cfg e _ i))

/-- INTERNAL: the strategy is asked for the next task. -/
theorem fetchNextEvent (cfg : Config) (k : Kernel n σ) : Sheds k (k.fetchNextEvent cfg).2.2 := by
  have hcall := callStrategy cfg k .getNext
  unfold Kernel.fetchNextEvent
  split
  · next heq =>
    rw [heq] at hcall
    dsimp only
    split
    · exact hcall.trans (fault _ _)
    · exact hcall
  · next heq =>
    rw [heq] at hcall
    split <;> exact hcall

/-- INTERNAL: the state machine. -/
theorem updateFsmState (cfg : Config) (k : Kernel n σ) : Sheds k (k.updateFsmState cfg).1 := by
  have hout : ∀ (k : Kernel n σ) (i : Fin n), Sheds k (k.hrtOnSwitchedOut i) := by
    intro k i
    exact of_calm (.hrtOnSwitchedOut k i)
  have hfetch := fetchNextEvent cfg k
  unfold Kernel.updateFsmState
  dsimp only
  generalize k.fetchNextEvent cfg = f at hfetch
  obtain ⟨event, next, k₁⟩ := f
  dsimp only at hfetch ⊢
  have hnow : ∀ next, Sheds k₁ ({ k₁ with taskNow := next } : Kernel n σ) := fun _ => of_fields (fun _ => rfl) rfl
  have hfsm : ∀ (k₂ : Kernel n σ) state, Sheds k₁ k₂ → Sheds k ({ k₂ with fsmState := state } : Kernel n σ) :=
    fun _ _ h => hfetch.trans (h.trans (of_fields (fun _ => rfl) rfl))
  split
  · refine hfsm _ _ ?_
    unfold Kernel.stateSwitch
    split
    · split
      · dsimp only
        split
        · exact (hnow _).trans (hout _ _)
        · exact hnow _
      · exact refl k₁
    · exact fault k₁ _
  · refine hfsm _ _ ?_
    unfold Kernel.stateSleep
    split
    · dsimp only
      split
      · exact (hnow _).trans (hout _ _)
      · exact hnow _
    · exact fault k₁ _
    · exact fault k₁ _
  · refine hfsm _ _ ?_
    unfold Kernel.stateWake
    split
    · exact hnow _
    · exact fault k₁ _
  · refine hfsm _ _ ?_
    unfold Kernel.stateExit
    split
    · exact hnow _
    · exact refl k₁
  · exact hfetch

/-- INTERNAL: the start of the scheduler. -/
theorem onStart (cfg : Config) (k : Kernel n σ) : Sheds k (k.onStart cfg) := by
  have hall : Sheds k ((List.finRange n).foldl (fun k i =>
      if (k.tasks i).isSleeping then k.deliverSleep cfg i else k) k) := by
    refine foldl (fun k i => ?_) _
    split
    · exact deliverSleep cfg k i
    · exact refl k
  unfold Kernel.onStart
  dsimp only
  generalize (List.finRange n).foldl (fun k i =>
    if (k.tasks i).isSleeping then k.deliverSleep cfg i else k) k = k₁ at hall
  have hswitch : Sheds k₁ ({ k₁ with fsmState := .switching } : Kernel n σ) := of_fields (fun _ => rfl) rfl
  have hfetch := (hall.trans hswitch).trans (fetchNextEvent cfg _)
  generalize ({ k₁ with fsmState := .switching } : Kernel n σ).fetchNextEvent cfg = f at hfetch
  obtain ⟨event, next, k₂⟩ := f
  dsimp only at hfetch ⊢
  have hfsm : ∀ state now, Sheds k ({ k₂ with fsmState := state, taskNow := now } : Kernel n σ) :=
    fun _ _ => hfetch.trans (of_fields (fun _ => rfl) rfl)
  split
  · exact hfsm _ _
  · split
    · exact hfsm _ _
    · exact (hfsm _ k₂.taskNow).trans (fault _ _)
  · exact (hfsm _ k₂.taskNow).trans (fault _ _)

/-- INTERNAL: a weight is set. -/
theorem setCurrentWeight (k : Kernel n σ) (i : Fin n) (w : ℤ) : Sheds k (k.setCurrentWeight i w) := by
  unfold Kernel.setCurrentWeight
  split
  · exact setTask k i (.inl rfl)
  · exact refl k

/-- INTERNAL: an owner inherits a weight. -/
theorem onInheritWeight (cfg : Config) (k : Kernel n σ) (u : TId) (w : ℤ) :
    Sheds k (k.onInheritWeight cfg u w) := by
  unfold Kernel.onInheritWeight
  split
  · exact refl k
  · split
    · exact refl k
    · split
      · exact fault k _
      · dsimp only
        split
        · exact (setCurrentWeight k _ w).trans (callStrategy cfg _ _)
        · exact refl k

/-- INTERNAL: an owner gives an inherited weight back. -/
theorem onRestoreWeight (cfg : Config) (k : Kernel n σ) (u : TId) (o : Option SyncId) :
    Sheds k (k.onRestoreWeight cfg u o) := by
  unfold Kernel.onRestoreWeight
  split
  · exact refl k
  · split
    · exact fault k _
    · exact (setCurrentWeight k _ _).trans (callStrategy cfg _ _)

end Sheds

namespace Unshared

variable [SwitchStrategy (Fin n) σ]

/-- INTERNAL: a slot is bound to a task that no slot has, or the assertion fails. -/
theorem allocateNewTask (h : Unshared k) (u : TId) : Unshared (k.allocateNewTask u).2 := by
  have hcheck : Unshared (if (k.findTaskByUserTask u).isSome then k.fault .taskCollision else k) ∧
      (.taskCollision ∉ (if (k.findTaskByUserTask u).isSome then k.fault .taskCollision else k).faults →
        ∀ j, ((if (k.findTaskByUserTask u).isSome then k.fault .taskCollision else k).tasks j).user ≠ some u) := by
    split
    · refine ⟨h.sheds (.fault k _), fun hclean => absurd ?_ hclean⟩
      exact List.mem_append_right _ List.mem_cons_self
    · next hnone =>
      refine ⟨h, fun _ j hj => hnone ?_⟩
      exact List.find?_isSome.mpr ⟨j, List.mem_finRange j, by simpa using hj⟩
  unfold Kernel.allocateNewTask
  dsimp only
  generalize (if (k.findTaskByUserTask u).isSome then k.fault .taskCollision else k) = k₁ at hcheck
  obtain ⟨hfirst, hnew⟩ := hcheck
  split
  · exact hfirst.sheds (.fault k₁ _)
  · next b _ =>
    have hbound : Unshared (k₁.setTask b (fun t => { t with user := some u })) := by
      intro hclean i j v hi hj
      have huser : ∀ j, j ≠ b →
          (((k₁.setTask b (fun t => { t with user := some u })).tasks j).user) = (k₁.tasks j).user := by
        intro j hj
        simp [Kernel.setTask, hj]
      have hself : ((k₁.setTask b (fun t => { t with user := some u })).tasks b).user = some u := by
        simp [Kernel.setTask]
      by_cases hib : i = b
      · by_cases hjb : j = b
        · rw [hib, hjb]
        · rw [hib, hself] at hi
          rw [huser j hjb, ← hi] at hj
          exact absurd hj (hnew hclean j)
      · by_cases hjb : j = b
        · rw [hjb, hself] at hj
          rw [huser i hib, ← hj] at hi
          exact absurd hi (hnew hclean i)
        · rw [huser i hib] at hi
          rw [huser j hjb] at hj
          exact hfirst hclean i j v hi hj
    dsimp only
    split
    · exact hbound.sheds (.setCurrentWeight _ b _)
    · exact hbound

/-- INTERNAL: a task is bound and the strategy told. -/
theorem allocateAndAddNewTask (h : Unshared k) (cfg : Config) (u : TId) :
    Unshared (k.allocateAndAddNewTask cfg u) := by
  have halloc := h.allocateNewTask u
  unfold Kernel.allocateAndAddNewTask
  split
  · next heq =>
    rw [heq] at halloc
    exact halloc
  · next heq =>
    rw [heq] at halloc
    exact halloc.sheds (.callStrategy cfg _ _)

/-- INTERNAL: a periodic task is bound and the strategy told. -/
theorem hrtAllocateAndAddNewTask (h : Unshared k) (cfg : Config) (u : TId) (p d t : ℤ) :
    Unshared (k.hrtAllocateAndAddNewTask cfg u p d t) := by
  have halloc := h.allocateNewTask u
  unfold Kernel.hrtAllocateAndAddNewTask
  split
  · next heq =>
    rw [heq] at halloc
    exact halloc
  · next heq =>
    rw [heq] at halloc
    refine (halloc.sheds (.setTask _ _ (.inl ?_))).sheds (.callStrategy cfg _ _)
    unfold KernelTask.hrtInit
    dsimp only
    split <;> rfl

/-- INTERNAL: requests are served. -/
theorem updateTaskRequest (h : Unshared k) (cfg : Config) : Unshared (k.updateTaskRequest cfg) := by
  unfold Kernel.updateTaskRequest
  split
  · refine Runs.foldl_keeps (I := Unshared) (fun k i _ h => ?_) (h.sheds (.of_fields (fun _ => rfl) rfl))
    split
    · exact h
    · exact (h.allocateAndAddNewTask cfg _).sheds (.setTask _ _ (.inl rfl))
  · exact h

/-- INTERNAL: the handler of a tick. -/
theorem onTick (h : Unshared k) (cfg : Config) (e : ℤ) : Unshared (k.onTick cfg e).1 := by
  unfold Kernel.onTick Kernel.updateTasks
  dsimp only
  have htime : Unshared ({ k with ticks := k.ticks + e } : Kernel n σ) := h.sheds (.of_fields (fun _ => rfl) rfl)
  generalize ({ k with ticks := k.ticks + e } : Kernel n σ) = k₀ at htime
  have hsync : Unshared (if cfg.isSyncMode then k₀.updateSyncObjects e else k₀) := by
    split
    · exact htime.sheds (.of_calm (.updateSyncObjects k₀ e))
    · exact htime
  generalize (if cfg.isSyncMode then k₀.updateSyncObjects e else k₀) = k₁ at hsync
  have hserved : Unshared (if k₁.request then k₁.updateTaskRequest cfg else k₁) := by
    split
    · exact hsync.updateTaskRequest cfg
    · exact hsync
  exact (hserved.sheds (.updateTaskState cfg _ e)).sheds (.updateFsmState cfg _)

/-- INTERNAL: one call into the kernel. -/
theorem step (h : Unshared k) (cfg : Config) (e : KernelEvent n) : Unshared (k.step cfg e) := by
  by_cases hcalm : KernelEvent.rebinds e = false
  · exact h.sheds (.of_calm (step_calm cfg k hcalm))
  have hmark : ∀ i, Unshared (k.scheduleRemoval cfg i) := by
    intro i
    refine h.sheds (.setTask k i (.inl ?_))
    unfold KernelTask.scheduleRemoval
    dsimp only
    split <;> rfl
  cases e with
  | addTask u =>
    simp only [Kernel.step]
    split
    · exact h.allocateAndAddNewTask cfg u
    · exact h
  | addTaskHrt u p d t =>
    simp only [Kernel.step]
    split
    · exact h.hrtAllocateAndAddNewTask cfg u p d t
    · exact h
  | removeTask u =>
    simp only [Kernel.step]
    split
    · split
      · exact h
      · exact h.sheds (.removeTask cfg k _)
    · exact h
  | onStart =>
    simp only [Kernel.step]
    split
    · exact h.sheds (.onStart cfg k)
    · exact h
  | onStop =>
    simp only [Kernel.step]
    split
    · exact h.sheds (.of_fields (fun _ => rfl) rfl)
    · exact h
  | onTick e =>
    simp only [Kernel.step]
    split
    · exact h.onTick cfg e
    · exact h
  | taskExit i =>
    simp only [Kernel.step]
    split
    · exact hmark i
    · exact h
  | scheduleTaskRemoval u =>
    simp only [Kernel.step]
    split
    · split
      · exact h
      · exact hmark _
    · exact h
  | inheritWeight u w => exact h.sheds (.onInheritWeight cfg k u w)
  | restoreWeight u o => exact h.sheds (.onRestoreWeight cfg k u o)
  | _ => exact absurd rfl hcalm

end Unshared

/-- INTERNAL: two slots never have the same task. -/
theorem run_unshared [SwitchStrategy (Fin n) σ] (cfg : Config) (es : List (KernelEvent n)) :
    Unshared (Kernel.run cfg es : Kernel n σ) := by
  refine Runs.foldl_keeps (fun _ e _ h => h.step cfg e) ?_
  intro _ i j u hi
  cases hi

/-! ## The loop -/

/-- The busy slots among those below `limit`. -/
def busyBelow (k : Kernel n σ) (limit : ℕ) : List (Fin n) :=
  ((List.finRange n).take limit).filter (fun i => (k.tasks i).isBusy)

/-- The busy slots. -/
def busySlots (k : Kernel n σ) : List (Fin n) :=
  (List.finRange n).filter (fun i => (k.tasks i).isBusy)

/-- INTERNAL: the loop over the slots of `l` appends their entries to those written before. -/
theorem enumerate_loop (entry : Fin n → β) (k : Kernel n σ) (l : List (Fin n)) (done : List β) {view : List β}
    (hroom : done.length + l.length ≤ view.length) :
    l.foldl (fun acc i => if (k.tasks i).isBusy then (acc.1 + 1, acc.2.set acc.1 (entry i)) else acc)
        (done.length, done ++ view.drop done.length) =
      let all := done ++ (l.filter (fun i => (k.tasks i).isBusy)).map entry
      (all.length, all ++ view.drop all.length) := by
  induction l generalizing done with
  | nil => simp
  | cons i l ih =>
    rw [List.length_cons] at hroom
    rw [List.foldl_cons]
    by_cases hbusy : (k.tasks i).isBusy = true
    · have hwrite : (done ++ view.drop done.length).set done.length (entry i) =
          (done ++ [entry i]) ++ view.drop (done ++ [entry i]).length := by
        have hlt : done.length < view.length := by omega
        have hcut : view.drop done.length = view.get ⟨done.length, hlt⟩ :: view.drop (done.length + 1) :=
          List.drop_eq_getElem_cons hlt
        rw [List.set_append_right _ _ (le_refl _), Nat.sub_self, hcut, List.set_cons_zero]
        simp
      have hnext := ih (done ++ [entry i]) (by simp only [List.length_append, List.length_singleton]; omega)
      rw [if_pos hbusy, List.filter_cons_of_pos (p := fun i => (k.tasks i).isBusy) hbusy, List.map_cons]
      dsimp only
      rw [hwrite]
      rw [List.length_append, List.length_singleton] at hnext ⊢
      rw [hnext]
      simp only [List.append_assoc, List.singleton_append]
    · rw [if_neg hbusy, List.filter_cons_of_neg (p := fun i => (k.tasks i).isBusy) hbusy]
      exact ih done (by omega)

/-- The loop writes the entries of the busy slots below `Min(view size, TASKS_MAX)` and returns their
number. -/
theorem enumerate_eq (entry : Fin n → β) (k : Kernel n σ) (view : List β) :
    k.enumerate entry view =
      ((busyBelow k (min view.length n)).length,
        (busyBelow k (min view.length n)).map entry ++ view.drop (busyBelow k (min view.length n)).length) := by
  have hroom : ([] : List β).length + ((List.finRange n).take (min view.length n)).length ≤ view.length := by
    rw [List.length_nil, List.length_take, List.length_finRange]
    omega
  have hloop := enumerate_loop entry k _ [] hroom
  simp only [List.length_nil, List.nil_append, List.drop_zero, List.length_map] at hloop
  exact hloop

/-- The view takes all busy slots it meets: none lies beyond it, or all before its end are busy. -/
def Reached (k : Kernel n σ) (size : ℕ) : Prop :=
  (∀ i : Fin n, (k.tasks i).isBusy → i.val < size) ∨ ∀ i : Fin n, i.val < size → (k.tasks i).isBusy

instance (k : Kernel n σ) (size : ℕ) : Decidable (Reached k size) :=
  inferInstanceAs (Decidable (_ ∨ _))

/-- INTERNAL: the first slots. -/
theorem mem_take_finRange {m : ℕ} {i : Fin n} : i ∈ (List.finRange n).take m ↔ i.val < m := by
  rw [List.mem_take_iff_getElem]
  constructor
  · rintro ⟨j, hj, rfl⟩
    rw [List.getElem_finRange]
    simp only [Fin.val_cast]
    omega
  · intro hi
    have hlen : i.val < min m (List.finRange n).length := by
      rw [List.length_finRange]
      omega
    exact ⟨i.val, hlen, by rw [List.getElem_finRange]; rfl⟩

/-- INTERNAL: the number of busy slots the loop meets. -/
theorem busyBelow_length (k : Kernel n σ) (size : ℕ) :
    (busyBelow k (min size n)).length = min size (busySlots k).length ↔ Reached k size := by
  have hsplit : (busySlots k).length = (busyBelow k (min size n)).length +
      (((List.finRange n).drop (min size n)).filter (fun i => (k.tasks i).isBusy)).length := by
    rw [← List.length_append, busyBelow, ← List.filter_append, List.take_append_drop]
    rfl
  have hbelow : (busyBelow k (min size n)).length ≤ min size n := by
    have hle := List.length_filter_le (fun i => (k.tasks i).isBusy) ((List.finRange n).take (min size n))
    rw [List.length_take, List.length_finRange] at hle
    unfold busyBelow
    omega
  have hbeyond := List.length_filter_le (fun i => (k.tasks i).isBusy) ((List.finRange n).drop (min size n))
  rw [List.length_drop, List.length_finRange] at hbeyond
  have hnone : (((List.finRange n).drop (min size n)).filter (fun i => (k.tasks i).isBusy)).length = 0 ↔
      ∀ i : Fin n, (k.tasks i).isBusy → i.val < size := by
    have hmem : ∀ i : Fin n, i ∈ (List.finRange n).drop (min size n) ↔ ¬ i.val < min size n := by
      intro i
      have hall := List.take_append_drop (min size n) (List.finRange n)
      have hnd : ((List.finRange n).take (min size n) ++ (List.finRange n).drop (min size n)).Nodup := by
        rw [hall]
        exact List.nodup_finRange n
      have hin : i ∈ (List.finRange n).take (min size n) ++ (List.finRange n).drop (min size n) := by
        rw [hall]
        exact List.mem_finRange i
      rw [← mem_take_finRange]
      constructor
      · intro hdrop htake
        exact List.disjoint_of_nodup_append hnd htake hdrop
      · intro hnot
        exact (List.mem_append.mp hin).resolve_left hnot
    rw [List.length_eq_zero_iff, List.filter_eq_nil_iff]
    constructor
    · intro hfree i hi
      by_contra hge
      have hlt := i.isLt
      exact hfree i ((hmem i).mpr (by omega)) hi
    · intro hbusy i hi hib
      have hlt := i.isLt
      have hsize := hbusy i hib
      exact (hmem i).mp hi (by omega)
  have hfull : (busyBelow k (min size n)).length = min size n ↔
      ∀ i : Fin n, i.val < size → (k.tasks i).isBusy := by
    have hlen : ((List.finRange n).take (min size n)).length = min size n := by
      rw [List.length_take, List.length_finRange]
      omega
    have hiff : (busyBelow k (min size n)).length = ((List.finRange n).take (min size n)).length ↔
        ∀ i ∈ (List.finRange n).take (min size n), (k.tasks i).isBusy = true :=
      List.length_filter_eq_length_iff
    rw [hlen] at hiff
    rw [hiff]
    constructor
    · intro hall i hi
      have hlt := i.isLt
      exact hall i (mem_take_finRange.mpr (by omega))
    · intro hall i hi
      have hlt := mem_take_finRange.mp hi
      exact hall i (by omega)
  unfold Reached
  rw [← hnone, ← hfull]
  omega

/-! ## Complete enumerations -/

/-- The call returns `Min(view size, number of busy slots)` and has filled as many entries of the view with
distinct bound tasks. -/
structure Enumerated (k : Kernel n σ) (bound : β → Prop) (view : List β) (r : ℕ × List β) : Prop where
  count : r.1 = min view.length (busySlots k).length
  size : r.2.length = view.length
  distinct : (r.2.take r.1).Nodup
  bound : ∀ x ∈ r.2.take r.1, bound x

/-- INTERNAL: with distinct entries, only the number can be wrong. -/
theorem enumerated_iff {entry : Fin n → β} {bound : β → Prop}
    (hinj : ∀ i j, (k.tasks i).isBusy → (k.tasks j).isBusy → entry i = entry j → i = j)
    (hbound : ∀ i, (k.tasks i).isBusy → bound (entry i)) (view : List β) :
    Enumerated k bound view (k.enumerate entry view) ↔ Reached k view.length := by
  rw [← busyBelow_length, enumerate_eq]
  have hbusy : ∀ i ∈ busyBelow k (min view.length n), (k.tasks i).isBusy = true := by
    intro i hi
    exact (List.mem_filter.mp hi).2
  have hnd : (busyBelow k (min view.length n)).Nodup :=
    ((List.nodup_finRange n).sublist (List.take_sublist _ _)).filter _
  have hle : (busyBelow k (min view.length n)).length ≤ view.length := by
    have hfilter := List.length_filter_le (fun i => (k.tasks i).isBusy) ((List.finRange n).take (min view.length n))
    rw [List.length_take] at hfilter
    unfold busyBelow
    omega
  constructor
  · intro h
    exact h.count
  · intro hcount
    have hfilled : ((busyBelow k (min view.length n)).map entry ++
        view.drop (busyBelow k (min view.length n)).length).take (busyBelow k (min view.length n)).length =
          (busyBelow k (min view.length n)).map entry :=
      List.take_left' (List.length_map _)
    refine ⟨hcount, ?_, ?_, ?_⟩
    · rw [List.length_append, List.length_map, List.length_drop]
      omega
    · rw [hfilled]
      exact hnd.map_on (fun i hi j hj heq => hinj i j (hbusy i hi) (hbusy j hj) heq)
    · rw [hfilled]
      intro x hx
      obtain ⟨i, hi, rfl⟩ := List.mem_map.mp hx
      exact hbound i (hbusy i hi)

/-- The entry is a busy slot. -/
def IsKernelTask (k : Kernel n σ) (x : Option (Fin n)) : Prop :=
  ∃ i, x = some i ∧ (k.tasks i).isBusy

/-- The entry is the user task of a busy slot. -/
def IsUserTask (k : Kernel n σ) (x : Option TId) : Prop :=
  ∃ i u, x = some u ∧ (k.tasks i).user = some u

/-- **The enumerations.**  After every run of the kernel, `EnumerateKernelTasks` is complete for a view
exactly when no busy slot lies beyond the size of the view or all slots before it are busy.  Unless a user
task was added twice, the same holds of `EnumerateTasks`. -/
theorem run_enumeration [SwitchStrategy (Fin n) σ] (cfg : Config) (es : List (KernelEvent n)) :
    let k : Kernel n σ := Kernel.run cfg es
    (∀ view, Enumerated k (IsKernelTask k) view (k.enumerateKernelTasks view) ↔ Reached k view.length) ∧
      (.taskCollision ∉ k.faults →
        ∀ view, Enumerated k (IsUserTask k) view (k.enumerateTasks view) ↔ Reached k view.length) := by
  intro k
  refine ⟨fun view => ?_, fun hclean view => ?_⟩
  · apply enumerated_iff
    · intro i j _ _ heq
      exact Option.some.inj heq
    · intro i hi
      exact ⟨i, rfl, hi⟩
  · apply enumerated_iff
    · intro i j hi _ heq
      obtain ⟨u, hu⟩ := Option.isSome_iff_exists.mp hi
      exact run_unshared cfg es hclean i j u hu (heq.symm.trans hu)
    · intro i hi
      obtain ⟨u, hu⟩ := Option.isSome_iff_exists.mp hi
      exact ⟨i, u, hu, hu⟩

section Runs

/-- Two tasks are added and the first one is removed again. -/
def fragmented : List (KernelEvent 2) := [.addTask 7, .addTask 8, .removeTask 7]

/-- A view of two entries takes the task that is left. -/
theorem fragmented_complete :
    let k : Kernel 2 (RoundRobin (Fin 2)) := Kernel.run dynamicConfig fragmented
    Enumerated k (IsUserTask k) [none, none] (k.enumerateTasks [none, none]) ∧
      k.enumerateTasks [none, none] = (1, [some 8, none]) := by
  intro k
  have hrun := run_enumeration (σ := RoundRobin (Fin 2)) dynamicConfig fragmented
  exact ⟨(hrun.2 (by decide) [none, none]).mpr (by decide), by decide⟩

/-- A view of one entry stays empty although a slot is busy. -/
theorem fragmented_missed :
    let k : Kernel 2 (RoundRobin (Fin 2)) := Kernel.run dynamicConfig fragmented
    k.enumerateTasks [none] = (0, [none]) ∧ k.enumerateKernelTasks [none] = (0, [none]) ∧
      (busySlots k).length = 1 ∧ ¬ Enumerated k (IsUserTask k) [none] (k.enumerateTasks [none]) ∧
      ¬ Enumerated k (IsKernelTask k) [none] (k.enumerateKernelTasks [none]) := by
  intro k
  have husers : k.enumerateTasks [none] = (0, [none]) := by decide
  have hslots : k.enumerateKernelTasks [none] = (0, [none]) := by decide
  have hbusy : (busySlots k).length = 1 := by decide
  refine ⟨husers, hslots, hbusy, fun h => ?_, fun h => ?_⟩
  · have hcount := h.count
    rw [husers, hbusy] at hcount
    exact absurd hcount (by decide)
  · have hcount := h.count
    rw [hslots, hbusy] at hcount
    exact absurd hcount (by decide)

end Runs

end Stk.Analysis
