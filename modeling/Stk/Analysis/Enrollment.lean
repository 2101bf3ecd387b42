import Stk.Analysis.StrategyMembers
import Stk.Analysis.SlotTick

/-!
# The bound slots are the tasks of the strategy

`Enrolled` says that the strategy holds the bound slots and no other, under any sequence of calls
and whichever assertions fail on the way.  Most calls into the kernel are `Calm`: they write neither
bindings, weights nor removal marks, leave the FSM alone and make no call on the strategy.
-/

set_option autoImplicit false

namespace Stk.Analysis

open Stk.Model Stk.Model.Kernel

variable {n : ℕ} {σ : Type} {cfg : Config} {k k' k'' : Kernel n σ} {i : Fin n}

/-- The fields of a slot that decide on its membership. -/
structure SameBinding (t t' : KernelTask) : Prop where
  user : t'.user = t.user
  rtWeight : t'.rtWeight = t.rtWeight
  removePending : t'.removePending = t.removePending

/-- INTERNAL: nothing changes. -/
theorem SameBinding.rfl {t : KernelTask} : SameBinding t t := ⟨Eq.refl _, Eq.refl _, Eq.refl _⟩

/-- INTERNAL: two steps within the frame. -/
theorem SameBinding.trans {t t' t'' : KernelTask} (h : SameBinding t t') (h' : SameBinding t' t'') :
    SameBinding t t'' :=
  ⟨h'.user.trans h.user, h'.rtWeight.trans h.rtWeight, h'.removePending.trans h.removePending⟩

/-- The step concerns neither the strategy nor the FSM. -/
structure Calm (k k' : Kernel n σ) : Prop where
  slot : ∀ j, SameBinding (k.tasks j) (k'.tasks j)
  strategy : k'.strategy = k.strategy
  taskNow : k'.taskNow = k.taskNow
  fsmState : k'.fsmState = k.fsmState
  sane : .badState ∈ k'.faults → .badState ∈ k.faults
  collided : .taskCollision ∈ k.faults → .taskCollision ∈ k'.faults

namespace Calm

/-- INTERNAL: nothing changes. -/
theorem refl (k : Kernel n σ) : Calm k k := ⟨fun _ => .rfl, rfl, rfl, rfl, fun h => h, fun h => h⟩

/-- INTERNAL: fields that the relation does not read. -/
theorem congr (h : Calm k k') (htasks : k''.tasks = k'.tasks) (hs : k''.strategy = k'.strategy)
    (hnow : k''.taskNow = k'.taskNow) (hfsm : k''.fsmState = k'.fsmState) (hf : k''.faults = k'.faults) :
    Calm k k'' where
  slot := by
    rw [htasks]
    exact h.slot
  strategy := hs.trans h.strategy
  taskNow := hnow.trans h.taskNow
  fsmState := hfsm.trans h.fsmState
  sane := by
    rw [hf]
    exact h.sane
  collided := by
    rw [hf]
    exact h.collided

/-- INTERNAL: two steps within the frame. -/
theorem trans (h : Calm k k') (h' : Calm k' k'') : Calm k k'' where
  slot j := (h.slot j).trans (h'.slot j)
  strategy := h'.strategy.trans h.strategy
  taskNow := h'.taskNow.trans h.taskNow
  fsmState := h'.fsmState.trans h.fsmState
  sane hf := h.sane (h'.sane hf)
  collided hf := h'.collided (h.collided hf)

/-- INTERNAL: a failed assertion is recorded and nothing else. -/
theorem fault (k : Kernel n σ) {f : Fault} (hf : f ≠ .badState) : Calm k (k.fault f) where
  slot _ := .rfl
  strategy := rfl
  taskNow := rfl
  fsmState := rfl
  sane h := by
    rcases List.mem_append.mp h with h | h
    · exact h
    · exact absurd (List.mem_singleton.mp h).symm hf
  collided := List.mem_append_left _

/-- INTERNAL: a slot is written within the frame. -/
theorem setTask (k : Kernel n σ) (i : Fin n) {f : KernelTask → KernelTask}
    (hf : SameBinding (k.tasks i) (f (k.tasks i))) : Calm k (k.setTask i f) where
  slot j := by
    by_cases hj : j = i
    · subst hj
      simpa [Kernel.setTask] using hf
    · simpa [Kernel.setTask, hj] using SameBinding.rfl
  strategy := rfl
  taskNow := rfl
  fsmState := rfl
  sane h := h
  collided h := h

/-- INTERNAL: a fold of functions that stay within the frame. -/
theorem foldl {A : Type} {f : Kernel n σ → A → Kernel n σ} (hf : ∀ k a, Calm k (f k a)) (l : List A) :
    Calm k (l.foldl f k) :=
  Runs.foldl_keeps (fun k' a _ h => h.trans (hf k' a)) (refl k)

/-- INTERNAL: a sleep ends. -/
theorem wakeTask (k : Kernel n σ) (i : Fin n) : Calm k (k.wakeTask i) := by
  unfold Kernel.wakeTask
  dsimp only
  split
  · exact setTask k i ⟨rfl, rfl, rfl⟩
  · exact (fault k (f := .wakeNotSleeping) (by decide)).trans (setTask _ i ⟨rfl, rfl, rfl⟩)

/-- INTERNAL: a wait ends. -/
theorem wakeWaitObj (k : Kernel n σ) (i : Fin n) (timeout : Bool) : Calm k (k.wakeWaitObj i timeout) := by
  unfold Kernel.wakeWaitObj
  split
  · exact fault k (by decide)
  · refine trans ?_ (wakeTask _ i)
    have hset := setTask k i (f := fun t => { t with waitObj := ⟨none, timeout, 0⟩ }) ⟨rfl, rfl, rfl⟩
    exact hset.congr rfl rfl rfl rfl rfl

/-- INTERNAL: a tick of one wait object. -/
theorem tickWaitObj (e : ℤ) (k : Kernel n σ) (i : Fin n) : Calm k (Kernel.tickWaitObj e k i) := by
  have hset : Calm k (k.setTask i (fun t => t.tickWaitObj e)) := by
    refine setTask k i ?_
    unfold KernelTask.tickWaitObj
    split
    · split
      · exact ⟨rfl, rfl, rfl⟩
      · exact .rfl
    · exact .rfl
  unfold Kernel.tickWaitObj
  dsimp only
  split
  · exact hset.trans (wakeWaitObj _ i true)
  · exact hset

/-- INTERNAL: a tick of all wait objects. -/
theorem updateSyncObjects (k : Kernel n σ) (e : ℤ) : Calm k (k.updateSyncObjects e) := by
  refine foldl (fun k o => ?_) k.syncList
  have htick : Calm k (k.tickSyncObject e o) := foldl (fun k i => tickWaitObj e k i) _
  dsimp only
  split
  · exact htick.congr rfl rfl rfl rfl rfl
  · exact htick

variable [SwitchStrategy (Fin n) σ]

/-- INTERNAL: a sleep is scheduled. -/
theorem scheduleSleep (k : Kernel n σ) (i : Fin n) (ticks : ℤ) : Calm k (k.scheduleSleep i ticks) :=
  setTask k i ⟨rfl, rfl, rfl⟩

/-- INTERNAL: `Sleep`. -/
theorem onTaskSleep (cfg : Config) (k : Kernel n σ) (i : Fin n) (ticks : ℤ) :
    Calm k (k.onTaskSleep cfg i ticks) := by
  have hdone : Calm k (if cfg.isHrtMode then
      k.setTask i (fun t => { t with hrt := { t.hrt with done := true } }) else k) := by
    split
    · exact setTask k i ⟨rfl, rfl, rfl⟩
    · exact refl k
  unfold Kernel.onTaskSleep
  dsimp only
  split
  · exact hdone.trans (scheduleSleep _ i ticks)
  · exact hdone

/-- INTERNAL: a wait begins. -/
theorem onTaskWait (k : Kernel n σ) (i : Fin n) (o : SyncId) (timeout : ℤ) :
    Calm k (k.onTaskWait i o timeout) := by
  unfold Kernel.onTaskWait
  split
  · exact fault k (by decide)
  · split
    · exact fault k (by decide)
    · refine trans ?_ (scheduleSleep _ i waitInfinite)
      have hset := setTask k i (f := fun t => { t with waitObj := ⟨some o, false, timeout⟩ }) ⟨rfl, rfl, rfl⟩
      exact hset.congr rfl rfl rfl rfl rfl

omit [SwitchStrategy (Fin n) σ] in
/-- INTERNAL: a task is resumed. -/
theorem resumeTask (k : Kernel n σ) (u : TId) : Calm k (k.resumeTask u) := by
  unfold Kernel.resumeTask
  split
  · exact fault k (by decide)
  · split
    · exact wakeTask k _
    · exact refl k

omit [SwitchStrategy (Fin n) σ] in
/-- INTERNAL: a tick of a job. -/
theorem advanceDuration (cfg : Config) (e : ℤ) (k : Kernel n σ) (i : Fin n) :
    Calm k (k.advanceDuration cfg e i) := by
  unfold Kernel.advanceDuration
  split
  · refine (setTask k i (f := fun t => { t with hrt := { t.hrt with duration := t.hrt.duration + e } })
      ⟨rfl, rfl, rfl⟩).trans ?_
    dsimp only
    split
    · exact fault _ (by decide)
    · exact refl _
  · exact refl k

/-- INTERNAL: a job that is done starts anew. -/
theorem hrtOnSwitchedOut (k : Kernel n σ) (i : Fin n) : Calm k (k.hrtOnSwitchedOut i) := by
  refine setTask k i ?_
  unfold KernelTask.hrtOnSwitchedOut
  dsimp only
  split
  · exact ⟨rfl, rfl, rfl⟩
  · exact ⟨rfl, rfl, rfl⟩

end Calm

variable [SwitchStrategy (Fin n) σ] [StrategyMembers (Fin n) σ]

/-- The strategy holds the bound slots, all of a weight it accepts; only a bound slot is marked for
removal; no user task is in two slots, as `AllocateNewTask` asserts; and the kernel has not panicked
on a bad state. -/
structure Enrolled (cfg : Config) (k : Kernel n σ) : Prop where
  wf : StrategyMembers.Wf (k.getWeight cfg) k.strategy
  mem : ∀ i, i ∈ StrategyMembers.members k.strategy ↔ (k.tasks i).user ≠ none
  weight : ∀ i, (k.tasks i).user ≠ none → StrategyMembers.WeightOk σ (k.getWeight cfg i)
  pending : ∀ i, (k.tasks i).removePending = true → (k.tasks i).user ≠ none
  distinct : .taskCollision ∉ k.faults →
    ∀ i j, (k.tasks i).user ≠ none → (k.tasks i).user = (k.tasks j).user → i = j
  sane : .badState ∉ k.faults

/-- The strategy accepts every static weight. -/
def AcceptsStatic (σ : Type) {n : ℕ} [SwitchStrategy (Fin n) σ] [StrategyMembers (Fin n) σ]
    (cfg : Config) : Prop :=
  ∀ u, StrategyMembers.WeightOk σ (if SwitchStrategy.weightApi σ then cfg.weight u else defaultWeight)

omit [StrategyMembers (Fin n) σ] in
/-- INTERNAL: the effective weight follows from the binding. -/
theorem getWeight_binding (cfg : Config) {j : Fin n} (h : SameBinding (k.tasks j) (k'.tasks j)) :
    k'.getWeight cfg j = k.getWeight cfg j := by
  unfold Kernel.getWeight KernelTask.getWeight
  rw [h.user, h.rtWeight]

omit [StrategyMembers (Fin n) σ] in
/-- INTERNAL: a call on the strategy. -/
theorem callStrategy_cases (cfg : Config) (k : Kernel n σ) (c : StrategyCall (Fin n)) :
    (∃ r s, c.apply (k.view cfg) k.strategy = .ok (r, s) ∧ k.callStrategy cfg c =
      (r, { k with strategy := s, calls := k.calls ++ [(k.view cfg, c)] })) ∨
    ∃ f, c.apply (k.view cfg) k.strategy = .error f ∧ k.callStrategy cfg c = (none, k.fault f) := by
  unfold Kernel.callStrategy
  cases c.apply (k.view cfg) k.strategy with
  | ok rs => exact .inl ⟨rs.1, rs.2, rfl, rfl⟩
  | error f => exact .inr ⟨f, rfl, rfl⟩

omit [StrategyMembers (Fin n) σ] in
/-- INTERNAL: a call other than `GetNext` that succeeds. -/
theorem callStrategy_ok {c : StrategyCall (Fin n)} {out : Except Fault σ} {s : σ}
    (hc : c.apply (k.view cfg) k.strategy = out.map (none, ·)) (hout : out = .ok s) :
    (k.callStrategy cfg c).2 = { k with strategy := s, calls := k.calls ++ [(k.view cfg, c)] } := by
  unfold Kernel.callStrategy
  rw [hc, hout]
  rfl

namespace Enrolled

/-- INTERNAL: a new kernel has no task. -/
theorem initial : Enrolled cfg (initial : Kernel n σ) where
  wf := StrategyMembers.wf_empty _
  mem i := by simp [Kernel.initial, KernelTask.unbound, StrategyMembers.members_empty]
  weight i hi := by simp [Kernel.initial, KernelTask.unbound] at hi
  pending i hi := by simp [Kernel.initial, KernelTask.unbound] at hi
  distinct _ i _ hi := by simp [Kernel.initial, KernelTask.unbound] at hi
  sane := by simp [Kernel.initial]

/-- INTERNAL: a calm step keeps the enrolled tasks. -/
theorem calm (h : Enrolled cfg k) (hk : Calm k k') : Enrolled cfg k' where
  wf := by
    have hweight : k'.getWeight cfg = k.getWeight cfg :=
      funext (fun j => getWeight_binding cfg (hk.slot j))
    rw [hk.strategy, hweight]
    exact h.wf
  mem j := by
    rw [hk.strategy, (hk.slot j).user]
    exact h.mem j
  weight j hj := by
    rw [(hk.slot j).user] at hj
    rw [getWeight_binding cfg (hk.slot j)]
    exact h.weight j hj
  pending j hj := by
    rw [(hk.slot j).removePending] at hj
    rw [(hk.slot j).user]
    exact h.pending j hj
  distinct hf j j' := by
    rw [(hk.slot j).user, (hk.slot j').user]
    exact h.distinct (fun hmem => hf (hk.collided hmem)) j j'
  sane hf := h.sane (hk.sane hf)

/-- INTERNAL: fields that no part of the invariant reads. -/
theorem congr (h : Enrolled cfg k) (htasks : k'.tasks = k.tasks) (hs : k'.strategy = k.strategy)
    (hf : k'.faults = k.faults) : Enrolled cfg k' where
  wf := by
    have hweight : k'.getWeight cfg = k.getWeight cfg := by
      funext j
      exact getWeight_binding cfg (htasks ▸ .rfl)
    rw [hs, hweight]
    exact h.wf
  mem j := by
    rw [hs, htasks]
    exact h.mem j
  weight j hj := by
    rw [htasks] at hj
    rw [getWeight_binding cfg (k := k) (htasks ▸ .rfl)]
    exact h.weight j hj
  pending j hj := by
    rw [htasks] at hj ⊢
    exact h.pending j hj
  distinct hmem := by
    rw [htasks]
    exact h.distinct (hf ▸ hmem)
  sane hmem := h.sane (hf ▸ hmem)

/-- INTERNAL: a failed assertion is recorded and nothing else. -/
theorem fault (h : Enrolled cfg k) {f : Fault} (hf : f ≠ .badState) : Enrolled cfg (k.fault f) :=
  h.calm (.fault k hf)

/-- INTERNAL: a strategy's assertion is no panic of the kernel. -/
theorem strategy_fault (h : Enrolled cfg k) {v : TaskView (Fin n)} {s : σ} {c : StrategyCall (Fin n)}
    {f : Fault} (hc : c.apply v s = .error f) : Enrolled cfg (k.fault f) := by
  refine h.fault ?_
  rintro rfl
  exact absurd (StrategyMembers.error_law hc) (by decide)

/-- INTERNAL: a call that leaves the members alone. -/
theorem call (h : Enrolled cfg k) {c : StrategyCall (Fin n)}
    (hc : ∀ r s, c.apply (k.view cfg) k.strategy = .ok (r, s) → StrategyMembers.Wf (k.getWeight cfg) s ∧
      ∀ u, u ∈ StrategyMembers.members s ↔ u ∈ StrategyMembers.members k.strategy) :
    Enrolled cfg (k.callStrategy cfg c).2 := by
  rcases callStrategy_cases cfg k c with ⟨r, s, hok, heq⟩ | ⟨f, herr, heq⟩
  · rw [heq]
    obtain ⟨hwf, hmem⟩ := hc r s hok
    exact ⟨hwf, fun j => (hmem j).trans (h.mem j), h.weight, h.pending, h.distinct, h.sane⟩
  · rw [heq]
    exact h.strategy_fault herr

omit [SwitchStrategy (Fin n) σ] [StrategyMembers (Fin n) σ] in
/-- INTERNAL: the state a successful call leaves. -/
theorem ok_of_map {out : Except Fault σ} {r : Option (Fin n)} {s : σ}
    (h : out.map (fun s => ((none : Option (Fin n)), s)) = .ok (r, s)) : out = .ok s := by
  cases out with
  | ok s' =>
    obtain ⟨-, rfl⟩ := Prod.mk.inj (Except.ok.inj h)
    rfl
  | error f => cases h

/-- INTERNAL: a strategy that is told of a sleep keeps its members. -/
theorem onTaskSleep_call (h : Enrolled cfg k) (i : Fin n) :
    Enrolled cfg (k.callStrategy cfg (.onTaskSleep i)).2 :=
  h.call (fun _ _ hok => StrategyMembers.onTaskSleep_law (v := k.view cfg) h.wf (ok_of_map hok))

/-- INTERNAL: a strategy that is told of a wake-up keeps its members. -/
theorem onTaskWake_call (h : Enrolled cfg k) (i : Fin n) :
    Enrolled cfg (k.callStrategy cfg (.onTaskWake i)).2 :=
  h.call (fun _ _ hok => StrategyMembers.onTaskWake_law (v := k.view cfg) h.wf
    (fun hi => h.weight i ((h.mem i).mp hi)) (ok_of_map hok))

/-- INTERNAL: the strategy is told of a sleep that has begun. -/
theorem deliverSleep (h : Enrolled cfg k) (i : Fin n) : Enrolled cfg (k.deliverSleep cfg i) := by
  unfold Kernel.deliverSleep
  split
  · exact (h.calm (.setTask k i ⟨rfl, rfl, rfl⟩)).onTaskSleep_call i
  · exact h

/-- INTERNAL: a tick of a sleep. -/
theorem advanceSleep (h : Enrolled cfg k) (e : ℤ) (i : Fin n) : Enrolled cfg (k.advanceSleep cfg e i) := by
  have hset : Enrolled cfg (k.setTask i (fun t => { t with timeSleep := t.timeSleep + e })) :=
    h.calm (.setTask k i ⟨rfl, rfl, rfl⟩)
  unfold Kernel.advanceSleep
  dsimp only
  split
  · exact hset.onTaskWake_call i
  · exact hset

/-! ## Binding and unbinding -/

/-- INTERNAL: one slot is written and the strategy told, so that membership follows the binding. -/
theorem rebind (h : Enrolled cfg k) {s : σ} (hother : ∀ j, j ≠ i → SameBinding (k.tasks j) (k'.tasks j))
    (hs : k'.strategy = s) (hwf : StrategyMembers.Wf (k'.getWeight cfg) s)
    (hmem : ∀ j, j ∈ StrategyMembers.members s ↔
      if j = i then (k'.tasks i).user ≠ none else j ∈ StrategyMembers.members k.strategy)
    (hweight : (k'.tasks i).user ≠ none → StrategyMembers.WeightOk σ (k'.getWeight cfg i))
    (hpending : (k'.tasks i).removePending = true → (k'.tasks i).user ≠ none)
    (hcollided : .taskCollision ∈ k.faults → .taskCollision ∈ k'.faults)
    (hdistinct : .taskCollision ∉ k'.faults → (k'.tasks i).user ≠ none →
      ∀ j, j ≠ i → (k'.tasks i).user ≠ (k.tasks j).user)
    (hsane : .badState ∉ k'.faults) : Enrolled cfg k' where
  wf := hs ▸ hwf
  mem j := by
    rw [hs, hmem j]
    by_cases hj : j = i
    · subst hj
      rw [if_pos rfl]
    · rw [if_neg hj, (hother j hj).user]
      exact h.mem j
  weight j hj := by
    by_cases hji : j = i
    · subst hji
      exact hweight hj
    · rw [(hother j hji).user] at hj
      rw [getWeight_binding cfg (hother j hji)]
      exact h.weight j hj
  pending j hj := by
    by_cases hji : j = i
    · subst hji
      exact hpending hj
    · rw [(hother j hji).removePending] at hj
      rw [(hother j hji).user]
      exact h.pending j hj
  distinct hf j j' hj heq := by
    by_cases hji : j = i
    · subst hji
      by_contra hne
      have hj' : j' ≠ j := fun h => hne h.symm
      rw [(hother j' hj').user] at heq
      exact hdistinct hf hj j' hj' heq
    · rw [(hother j hji).user] at hj heq
      by_cases hji' : j' = i
      · subst hji'
        refine absurd heq.symm (hdistinct hf ?_ j hji)
        rw [← heq]
        exact hj
      · rw [(hother j' hji').user] at heq
        exact h.distinct (fun hmem => hf (hcollided hmem)) j j' hj heq
  sane := hsane

/-- INTERNAL: a slot that is bound anew may be handed to the strategy. -/
theorem addTask_ready (h : Enrolled cfg k) (hcfg : AcceptsStatic σ cfg) {u : TId}
    (hfree : (k.tasks i).user = none) {f : KernelTask → KernelTask} (huser : (f (k.tasks i)).user = some u)
    (hrt : SwitchStrategy.priorityInheritanceApi σ = true → (f (k.tasks i)).rtWeight = noWeight) :
    StrategyMembers.Wf ((k.setTask i f).getWeight cfg) k.strategy ∧
      StrategyMembers.WeightOk σ ((k.setTask i f).getWeight cfg i) ∧ i ∉ StrategyMembers.members k.strategy := by
  have hnew : i ∉ StrategyMembers.members k.strategy := by
    rw [h.mem i]
    exact not_not.mpr hfree
  have hself : (k.setTask i f).tasks i = f (k.tasks i) := Function.update_self _ _ _
  have hstatic : (k.setTask i f).getWeight cfg i =
      if SwitchStrategy.weightApi σ then cfg.weight u else defaultWeight := by
    unfold Kernel.getWeight KernelTask.getWeight
    rw [hself, huser]
    dsimp only [Option.map_some, Option.getD_some]
    split
    · next hpi => rw [hrt hpi, if_neg (not_not.mpr rfl)]
    · rfl
  refine ⟨StrategyMembers.congr h.wf (fun j hj => ?_), ?_, hnew⟩
  · have hji : j ≠ i := by
      rintro rfl
      exact hnew hj
    refine getWeight_binding cfg ?_
    rw [show (k.setTask i f).tasks j = k.tasks j from Function.update_of_ne hji _ _]
    exact .rfl
  · rw [hstatic]
    exact hcfg u

/-- INTERNAL: a free slot is bound and handed to the strategy. -/
theorem addTask_call (h : Enrolled cfg k) (hcfg : AcceptsStatic σ cfg) {u : TId}
    (hfree : (k.tasks i).user = none) {f : KernelTask → KernelTask} (huser : (f (k.tasks i)).user = some u)
    (hfresh : .taskCollision ∉ k.faults → ∀ j, (k.tasks j).user ≠ some u)
    (hrt : SwitchStrategy.priorityInheritanceApi σ = true → (f (k.tasks i)).rtWeight = noWeight) :
    Enrolled cfg ((k.setTask i f).callStrategy cfg (.addTask i)).2 := by
  obtain ⟨hwf, hw, hnew⟩ := h.addTask_ready hcfg hfree huser hrt
  have hself : (k.setTask i f).tasks i = f (k.tasks i) := Function.update_self _ _ _
  have hother : ∀ j, j ≠ i → SameBinding (k.tasks j) ((k.setTask i f).tasks j) := by
    intro j hj
    rw [show (k.setTask i f).tasks j = k.tasks j from Function.update_of_ne hj _ _]
    exact .rfl
  obtain ⟨s, hok, hwf', hmem⟩ := StrategyMembers.addTask_law (v := (k.setTask i f).view cfg) hwf hw hnew
  rw [callStrategy_ok (c := .addTask i) rfl hok]
  refine h.rebind (i := i) hother rfl hwf' (fun j => ?_) (fun _ => hw) ?_ (fun hf => hf) ?_ h.sane
  · rw [hmem j]
    by_cases hj : j = i
    · subst hj
      rw [if_pos rfl, hself, huser]
      simp
    · simp [hj]
  · intro _
    dsimp only
    rw [hself, huser]
    simp
  · intro hf _ j _
    dsimp only at hf ⊢
    rw [hself, huser]
    exact (hfresh hf j).symm

/-- INTERNAL: `AllocateNewTask` binds a free slot or reports that there is none. -/
theorem allocateNewTask_cases (h : Enrolled cfg k) (u : TId) :
    ∃ k', Enrolled cfg k' ∧ Calm k k' ∧ ((k.allocateNewTask u = (none, k')) ∨
      ∃ i, (k'.tasks i).user = none ∧ (.taskCollision ∉ k'.faults → ∀ j, (k'.tasks j).user ≠ some u) ∧
        k.allocateNewTask u = (some i, k'.setTask i (Good.bind σ u))) := by
  have hk : Calm k (if (k.findTaskByUserTask u).isSome then k.fault .taskCollision else k) := by
    split
    · exact .fault k (by decide)
    · exact .refl k
  have hfresh : .taskCollision ∉ (if (k.findTaskByUserTask u).isSome then k.fault .taskCollision else k).faults →
      ∀ j, (k.tasks j).user ≠ some u := by
    by_cases hfound : (k.findTaskByUserTask u).isSome = true
    · rw [if_pos hfound]
      intro hf
      exact absurd (List.mem_append_right _ (List.mem_singleton.mpr rfl)) hf
    · intro _ j hj
      simp only [Option.isSome_iff_ne_none, ne_eq, not_not, Kernel.findTaskByUserTask,
        List.find?_eq_none, decide_eq_true_eq] at hfound
      exact hfound j (List.mem_finRange j) hj
  unfold Kernel.allocateNewTask
  generalize (if (k.findTaskByUserTask u).isSome then k.fault .taskCollision else k) = k₁ at hk hfresh
  dsimp only
  cases hfind : (List.finRange n).find? (fun i => !(k₁.tasks i).isBusy) with
  | none =>
    have hfull : Calm k (k₁.fault .noFreeSlot) := hk.trans (.fault k₁ (by decide))
    exact ⟨_, h.calm hfull, hfull, .inl rfl⟩
  | some i =>
    have hfree : (k₁.tasks i).user = none := by
      simpa [KernelTask.isBusy] using List.find?_some hfind
    have hfresh₁ : .taskCollision ∉ k₁.faults → ∀ j, (k₁.tasks j).user ≠ some u := by
      intro hf j
      rw [(hk.slot j).user]
      exact hfresh hf j
    refine ⟨k₁, h.calm hk, hk, .inr ⟨i, hfree, hfresh₁, ?_⟩⟩
    by_cases hpi : SwitchStrategy.priorityInheritanceApi σ = true
    · have hapi := StrategyMembers.weightApi_of_inheritance (σ := σ) hpi
      simp [hpi, Kernel.setCurrentWeight, hapi, Kernel.setTask, Good.bind]
    · simp only [hpi, Bool.false_eq_true, ↓reduceIte, Kernel.setTask, Good.bind]

/-- INTERNAL: a task is bound and the strategy told. -/
theorem allocateAndAddNewTask (h : Enrolled cfg k) (hcfg : AcceptsStatic σ cfg) (u : TId) :
    Enrolled cfg (k.allocateAndAddNewTask cfg u) := by
  unfold Kernel.allocateAndAddNewTask
  obtain ⟨k', hk', -, heq | ⟨i, hfree, hfresh, heq⟩⟩ := h.allocateNewTask_cases u
  · rw [heq]
    exact hk'
  · rw [heq]
    exact hk'.addTask_call hcfg hfree rfl hfresh (fun hpi => by simp [Good.bind, hpi])

/-- INTERNAL: a periodic task is bound and the strategy told. -/
theorem hrtAllocateAndAddNewTask (h : Enrolled cfg k) (hcfg : AcceptsStatic σ cfg) (u : TId)
    (periodicity deadline startDelay : ℤ) :
    Enrolled cfg (k.hrtAllocateAndAddNewTask cfg u periodicity deadline startDelay) := by
  unfold Kernel.hrtAllocateAndAddNewTask
  obtain ⟨k', hk', -, heq | ⟨i, hfree, hfresh, heq⟩⟩ := h.allocateNewTask_cases u
  · rw [heq]
    exact hk'
  · rw [heq]
    have htwice : (k'.setTask i (Good.bind σ u)).setTask i
        (fun t => t.hrtInit (SwitchStrategy.sleepEventApi σ) periodicity deadline startDelay) =
        k'.setTask i (fun t => (Good.bind σ u t).hrtInit (SwitchStrategy.sleepEventApi σ) periodicity
          deadline startDelay) := by
      simp [Kernel.setTask]
    dsimp only
    rw [htwice]
    refine hk'.addTask_call (u := u) hcfg hfree ?_ hfresh (fun hpi => ?_)
    · unfold KernelTask.hrtInit
      dsimp only
      split
      · rfl
      · rfl
    · unfold KernelTask.hrtInit
      dsimp only
      split
      · simp [Good.bind, hpi, KernelTask.scheduleSleep]
      · simp [Good.bind, hpi]

/-- INTERNAL: requests are served. -/
theorem updateTaskRequest (h : Enrolled cfg k) (hcfg : AcceptsStatic σ cfg) :
    Enrolled cfg (k.updateTaskRequest cfg) := by
  unfold Kernel.updateTaskRequest
  split
  · refine Runs.foldl_keeps (I := Enrolled cfg) (fun k i _ h => ?_) (h.congr rfl rfl rfl)
    split
    · exact h
    · next u _ => exact (h.allocateAndAddNewTask hcfg u).calm (.setTask _ i ⟨rfl, rfl, rfl⟩)
  · exact h

omit [SwitchStrategy (Fin n) σ] [StrategyMembers (Fin n) σ] in
/-- INTERNAL: `Unbind` frees the slot and clears its removal mark. -/
theorem unbind_free (cfg : Config) (t : KernelTask) :
    (t.unbind cfg).user = none ∧ (t.unbind cfg).removePending = false := by
  unfold KernelTask.unbind
  dsimp only
  split
  · exact ⟨rfl, rfl⟩
  · exact ⟨rfl, rfl⟩

/-- INTERNAL: `RemoveTask` of a bound slot, and what it makes of the members. -/
theorem removeTask_members (h : Enrolled cfg k) (hbusy : (k.tasks i).user ≠ none) :
    Enrolled cfg (k.removeTask cfg i) ∧ ∀ j, j ∈ StrategyMembers.members (k.removeTask cfg i).strategy ↔
      j ∈ StrategyMembers.members k.strategy ∧ j ≠ i := by
  obtain ⟨s, hok, hwf, hmem⟩ := StrategyMembers.removeTask_law (v := k.view cfg) h.wf ((h.mem i).mpr hbusy)
  have hcall : (({ k with exits := k.exits ++ (k.tasks i).user.toList } : Kernel n σ).callStrategy cfg
      (.removeTask i)).2 = _ := callStrategy_ok rfl hok
  obtain ⟨hother, -, hfree, -, -⟩ := removeTask_frame cfg k i
  have hother' : ∀ j, j ≠ i → SameBinding (k.tasks j) ((k.removeTask cfg i).tasks j) := by
    intro j hj
    rw [hother j hj]
    exact .rfl
  have hremoved : (k.removeTask cfg i).strategy = s ∧ ((k.removeTask cfg i).tasks i).removePending = false ∧
      .badState ∉ (k.removeTask cfg i).faults ∧
      (.taskCollision ∈ k.faults → .taskCollision ∈ (k.removeTask cfg i).faults) := by
    unfold Kernel.removeTask
    dsimp only
    rw [hcall]
    split
    · refine ⟨rfl, ?_, (h.fault (f := .unbindWaiting) (by decide)).sane, List.mem_append_left _⟩
      simpa [Kernel.setTask, Kernel.fault] using (unbind_free cfg _).2
    · refine ⟨rfl, ?_, h.sane, fun hf => hf⟩
      simpa [Kernel.setTask] using (unbind_free cfg _).2
  obtain ⟨hs, hmark, hsane, hcollided⟩ := hremoved
  have hgone : i ∉ StrategyMembers.members s := fun hi => ((hmem i).mp hi).2 rfl
  refine ⟨h.rebind (i := i) hother' hs ?_ (fun j => ?_) (fun hne => absurd hfree hne) ?_ hcollided
    (fun _ hne => absurd hfree hne) hsane, fun j => ?_⟩
  · refine StrategyMembers.congr hwf (fun j hj => getWeight_binding cfg (hother' j ?_))
    rintro rfl
    exact hgone hj
  · rw [hmem j]
    by_cases hj : j = i
    · simp [hj, hfree]
    · simp [hj]
  · intro hp
    rw [hmark] at hp
    cases hp
  · rw [hs]
    exact hmem j

/-! ## Weights -/

/-- INTERNAL: a new run-time weight of a bound slot, with the strategy told. -/
theorem setCurrentWeight_call (h : Enrolled cfg k) {w : ℤ} (hbusy : (k.tasks i).user ≠ none)
    (hpi : SwitchStrategy.priorityInheritanceApi σ = true)
    (hw : StrategyMembers.WeightOk σ ((k.setCurrentWeight i w).getWeight cfg i)) :
    Enrolled cfg
      ((k.setCurrentWeight i w).callStrategy cfg (.onTaskWeightChange i (k.getWeight cfg i))).2 := by
  have hapi := StrategyMembers.weightApi_of_inheritance (σ := σ) hpi
  have hset : k.setCurrentWeight i w = k.setTask i (fun t => { t with rtWeight := w }) := by
    unfold Kernel.setCurrentWeight
    rw [if_pos hapi]
  rw [hset] at hw ⊢
  have hother : ∀ j, j ≠ i → SameBinding (k.tasks j)
      ((k.setTask i (fun t => { t with rtWeight := w })).tasks j) := by
    intro j hj
    rw [show (k.setTask i (fun t => { t with rtWeight := w })).tasks j = k.tasks j from
      Function.update_of_ne hj _ _]
    exact .rfl
  obtain ⟨s, hok, hwf, hmem⟩ := StrategyMembers.onTaskWeightChange_law (σ := σ) (t := i)
    (v := (k.setTask i (fun t => { t with rtWeight := w })).view cfg) h.wf
    (fun j hj => getWeight_binding cfg (hother j hj)) hw (h.weight i hbusy) ((h.mem i).mpr hbusy)
  have hself : (k.setTask i (fun t => { t with rtWeight := w })).tasks i = { k.tasks i with rtWeight := w } :=
    Function.update_self _ _ _
  rw [callStrategy_ok (c := .onTaskWeightChange i (k.getWeight cfg i)) rfl hok]
  refine h.rebind (i := i) hother rfl hwf (fun j => ?_) (fun _ => hw) (fun hp => ?_) (fun hf => hf)
    (fun hf _ j hj heq => ?_) h.sane
  · rw [hmem j]
    by_cases hj : j = i
    · subst hj
      rw [if_pos rfl, h.mem j]
      dsimp only
      rw [hself]
    · rw [if_neg hj]
  · dsimp only at hp ⊢
    rw [hself] at hp ⊢
    exact h.pending i hp
  · dsimp only at heq
    rw [hself] at heq
    exact hj (h.distinct hf i j hbusy heq).symm

/-- INTERNAL: an owner inherits a weight. -/
theorem onInheritWeight (h : Enrolled cfg k) (u : TId) {w : ℤ}
    (hw : w ≠ noWeight → StrategyMembers.WeightOk σ w) : Enrolled cfg (k.onInheritWeight cfg u w) := by
  unfold Kernel.onInheritWeight
  split
  · exact h
  · next hpi =>
    have hpi : SwitchStrategy.priorityInheritanceApi σ = true := by simpa using hpi
    split
    · exact h
    · next hne =>
      split
      · exact h.fault (by decide)
      · next i hi =>
        have hu := Good.findTaskByUserTask_busy hi
        dsimp only
        split
        · refine h.setCurrentWeight_call (by simp [hu]) hpi ?_
          rw [Good.getWeight_setCurrentWeight hpi (StrategyMembers.weightApi_of_inheritance hpi) hu,
            if_pos hne]
          exact hw hne
        · exact h

/-- INTERNAL: an owner gives an inherited weight back. -/
theorem onRestoreWeight (h : Enrolled cfg k) (hcfg : AcceptsStatic σ cfg) (u : TId) (o : Option SyncId) :
    Enrolled cfg (k.onRestoreWeight cfg u o) := by
  unfold Kernel.onRestoreWeight
  split
  · exact h
  · next hpi =>
    have hpi : SwitchStrategy.priorityInheritanceApi σ = true := by simpa using hpi
    have hapi := StrategyMembers.weightApi_of_inheritance (σ := σ) hpi
    have hstatic : ∀ u, StrategyMembers.WeightOk σ (cfg.weight u) := by
      intro u
      simpa [hapi] using hcfg u
    split
    · exact h.fault (by decide)
    · next i hi =>
      have hu := Good.findTaskByUserTask_busy hi
      have hw : ∀ w, (w = noWeight ∨ ∃ u', w = cfg.weight u') →
          StrategyMembers.WeightOk σ (if w ≠ noWeight then w else cfg.weight u) := by
        rintro w (rfl | ⟨u', rfl⟩)
        · exact hstatic u
        · split
          · exact hstatic u'
          · exact hstatic u
      refine h.setCurrentWeight_call (by simp [hu]) hpi ?_
      rw [Good.getWeight_setCurrentWeight hpi hapi hu]
      cases o with
      | none => exact hw _ (.inl rfl)
      | some o => exact hw _ (Good.findWeightHigherThan_cases o _)

end Enrolled

end Stk.Analysis
