import Stk.Analysis.StrategyListInvariant
import Stk.Model.TaskPriority

/-!
# Priorities set at run time

`SwitchStrategyFixedPriority` finds the list of a task by its weight, so that a priority written while the task
is in the list of the old one leaves it where no later call looks for it.  Along runs that set the priority of
no such task, every runnable task is in the list of its priority.
-/

set_option autoImplicit false

namespace Stk.Analysis

open Stk.Model Stk.Model.Kernel

variable {n : ℕ} {cfg : Config} {configMaxPriorities : ℕ}

/-! ## What is promised -/

/-- The priority by which the strategy places the slot. -/
def priorityOf {σ : Type} [SwitchStrategy (Fin n) σ] (cfg : Config) (k : Kernel n σ) (i : Fin n) : ℕ :=
  getTaskPriorityFromWeight (k.getWeight cfg i)

/-- The slot has a task that does not sleep, as the strategy knows it. -/
def Ready (t : KernelTask) : Prop := t.isBusy = true ∧ ¬(t.isSleeping = true ∧ t.sleepPending = false)

instance (t : KernelTask) : Decidable (Ready t) := inferInstanceAs (Decidable (_ ∧ _))

/-- Every ready task is in the list of its priority and in no other, `GetNext` gives one of the highest
priority, and no assertion on the lists has failed. -/
structure InPriorityOrder {P : ℕ} (cfg : Config) (k : Kernel n (FixedPriority P (Fin n))) : Prop where
  level : ∀ i, Ready (k.tasks i) → ∀ p, i ∈ k.strategy.tasks p ↔ p = priorityOf cfg k i
  next : ∃ r s, k.strategy.getNext = .ok (r, s) ∧
    (∀ i, r = some i → Ready (k.tasks i) ∧ ∀ j, Ready (k.tasks j) → priorityOf cfg k j ≤ priorityOf cfg k i) ∧
    (r = none ↔ ∀ i, ¬Ready (k.tasks i))
  asserts : ∀ f ∈ k.faults, ofLists f = false

/-- The task may be given the priority: it is in no list of a level, or it has an inherited priority, or the
priority is the one it has. -/
def MaySet {σ : Type} (s : PriorityKernel n σ) (u : TId) (w : ℤ) : Prop :=
  ∀ i, (s.kernel.tasks i).user = some u →
    ¬Ready (s.kernel.tasks i) ∨ (s.kernel.tasks i).rtWeight ≠ noWeight ∨ w = s.weight u

/-- The steps of a run that keeps the lists: the calls into the kernel are careful, and priorities are set of
tasks that may be given them. -/
def PriorityCareful {P : ℕ} [Fact (P ≤ 32)] (cfg : Config) (configMaxPriorities : ℕ)
    (s : PriorityKernel n (FixedPriority P (Fin n))) : PriorityEvent n → Prop
  | .kernel e => Careful (cfg.withWeight s.weight) s.kernel e
  | e => ∀ u w, PriorityKernel.written configMaxPriorities e = some (u, w) → MaySet s u w

/-- Every state of the run is in priority order, and so is the kernel of a tick when it calls `GetNext`. -/
def KeepsPriorityOrder {P : ℕ} [Fact (P ≤ 32)] (cfg : Config) (s : PriorityKernel n (FixedPriority P (Fin n))) :
    Prop :=
  InPriorityOrder (cfg.withWeight s.weight) s.kernel ∧
    ∀ e, s.kernel.isStarted = true → validElapsed cfg e = true →
      Careful (cfg.withWeight s.weight) s.kernel (.onTick e) →
        InPriorityOrder (cfg.withWeight s.weight)
          (({ s.kernel with ticks := s.kernel.ticks + e } : Kernel n (FixedPriority P (Fin n))).updateTasks
            (cfg.withWeight s.weight) e).1

/-! ## The order of the lists -/

section Order

variable {P : ℕ} [Fact (P ≤ 32)] {k : Kernel n (FixedPriority P (Fin n))} {r q : Fin n → ℤ}
  {s : PriorityKernel n (FixedPriority P (Fin n))} {weight : TId → ℤ}

/-- The ready tasks are those of the run lists. -/
theorem Good.ready_iff (h : Good cfg r q k) (i : Fin n) : Ready (k.tasks i) ↔ ∃ p, i ∈ k.strategy.tasks p := by
  have hmem := h.listed.mem i
  have hasleep := h.listed.asleep i
  have hlists := mem_runnable_fixedPriority h.listed.wf i
  have hbusy : (k.tasks i).isBusy = true ↔ (k.tasks i).user ≠ none := by
    simp [KernelTask.isBusy, Option.isSome_iff_ne_none]
  have hdelivered : Delivered (k.tasks i) ↔
      (k.tasks i).isSleeping = true ∧ (k.tasks i).sleepPending = false := by
    simp [Delivered, KernelTask.isSleeping]
  unfold Ready
  rw [hbusy, ← hdelivered, ← hasleep, ← hmem, ← hlists]
  constructor
  · rintro ⟨hin, hnot⟩
    exact hin.resolve_right hnot
  · intro hin
    refine ⟨.inl hin, fun hsleep => ?_⟩
    exact List.disjoint_of_nodup_append (SleepAware.nodup h.listed.wf) hin hsleep

theorem Good.inPriorityOrder (h : Good cfg r q k) : InPriorityOrder cfg k where
  level i hi p := by
    have hwf : k.strategy.Wf (weights (FixedPriority P (Fin n)) cfg k.tasks) := h.listed.wf
    obtain ⟨level, hlevel⟩ := (h.ready_iff i).mp hi
    have hprio : priorityOf cfg k i = level := hwf.prio level i hlevel
    constructor
    · intro hp
      exact (hwf.prio p i hp).symm
    · rintro rfl
      rwa [hprio]
  next := by
    have hwf : k.strategy.Wf (weights (FixedPriority P (Fin n)) cfg k.tasks) := h.listed.wf
    obtain ⟨r, s, hnext, -, -, -, hsome, hnone⟩ := FixedPriority.getNext_spec hwf
    refine ⟨r, s, hnext, ?_, ?_⟩
    · intro i hi
      obtain ⟨p, hp, hmax⟩ := hsome i hi
      refine ⟨(h.ready_iff i).mpr ⟨p, hp⟩, fun j hj => ?_⟩
      obtain ⟨level, hlevel⟩ := (h.ready_iff j).mp hj
      have hle := hmax level j hlevel
      have hpi : priorityOf cfg k i = p := hwf.prio p i hp
      have hpj : priorityOf cfg k j = level := hwf.prio level j hlevel
      omega
    · constructor
      · intro hr i hi
        obtain ⟨p, hp⟩ := (h.ready_iff i).mp hi
        rw [hnone hr p] at hp
        exact absurd hp List.not_mem_nil
      · intro hno
        cases r with
        | none => rfl
        | some i =>
          obtain ⟨p, hp, -⟩ := hsome i rfl
          exact absurd ((h.ready_iff i).mpr ⟨p, hp⟩) (hno i)
  asserts := h.clean

/-! ## Setting a priority -/

omit [Fact (P ≤ 32)] in
/-- INTERNAL: the effective weights with one priority written. -/
theorem getWeight_update {u : TId} {w : ℤ} (hset : MaySet s u w) {i : Fin n} (hi : Ready (s.kernel.tasks i)) :
    s.kernel.getWeight (cfg.withWeight (Function.update s.weight u w)) i =
      s.kernel.getWeight (cfg.withWeight s.weight) i := by
  have hapi : SwitchStrategy.priorityInheritanceApi (FixedPriority P (Fin n)) = true := rfl
  unfold Kernel.getWeight KernelTask.getWeight Config.withWeight
  rw [hapi]
  simp only [if_true]
  by_cases hrt : (s.kernel.tasks i).rtWeight = noWeight
  · rw [if_neg (not_not.mpr hrt), if_neg (not_not.mpr hrt)]
    congr 2
    cases huser : (s.kernel.tasks i).user with
    | none => rfl
    | some v =>
      rw [Option.map_some, Option.map_some]
      congr 1
      by_cases hv : v = u
      · subst hv
        rw [Function.update_self]
        obtain hready | hinherits | hsame := hset i huser
        · exact absurd hi hready
        · exact absurd hrt hinherits
        · exact hsame
      · exact Function.update_of_ne hv _ _
  · rw [if_pos hrt, if_pos hrt]

omit [Fact (P ≤ 32)] in
/-- INTERNAL: an effective weight is an inherited one or a priority of a task. -/
theorem getWeight_ok (hweight : ∀ u, getTaskPriorityFromWeight (weight u) < P) {t : KernelTask}
    {weight' : TId → ℤ} (huser : t.user ≠ none)
    (hold : getTaskPriorityFromWeight (t.getWeight (cfg.withWeight weight') true true) < P) :
    getTaskPriorityFromWeight (t.getWeight (cfg.withWeight weight) true true) < P := by
  unfold KernelTask.getWeight Config.withWeight at hold ⊢
  simp only [if_true] at hold ⊢
  by_cases hrt : t.rtWeight = noWeight
  · rw [if_neg (not_not.mpr hrt)]
    obtain ⟨u, hu⟩ := Option.ne_none_iff_exists'.mp huser
    rw [hu, Option.map_some, Option.getD_some]
    exact hweight u
  · rwa [if_pos hrt] at hold ⊢

/-- The kernel with priorities that its ready tasks have, or do not use. -/
theorem Good.withWeight {weight' : TId → ℤ} (h : Good (cfg.withWeight weight) r q k)
    (hweight : ∀ u, getTaskPriorityFromWeight (weight' u) < P)
    (hsame : ∀ i, Ready (k.tasks i) →
      k.getWeight (cfg.withWeight weight') i = k.getWeight (cfg.withWeight weight) i) :
    Good (cfg.withWeight weight') r q k where
  listed := by
    refine ⟨SleepAware.congr h.listed.wf fun i hi => ?_, h.listed.mem, h.listed.asleep, fun i hi => ?_⟩
    · exact hsame i ((h.ready_iff i).mpr ((mem_runnable_fixedPriority h.listed.wf i).mp hi))
    · exact getWeight_ok hweight hi (h.listed.weight i hi)
  linked := h.linked
  slot := h.slot
  idle := h.idle
  clean := h.clean

/-- What holds between the steps. -/
structure PriorityOk (cfg : Config) (s : PriorityKernel n (FixedPriority P (Fin n))) : Prop where
  rest : Rest (cfg.withWeight s.weight) s.kernel
  weight : ∀ u, getTaskPriorityFromWeight (s.weight u) < P

theorem PriorityOk.set (h : PriorityOk cfg s) {u : TId} {w : ℤ} (hset : MaySet s u w)
    (hw : getTaskPriorityFromWeight w < P) :
    PriorityOk cfg { s with weight := Function.update s.weight u w } := by
  have hweight : ∀ v, getTaskPriorityFromWeight (Function.update s.weight u w v) < P := by
    intro v
    by_cases hv : v = u
    · subst hv
      rwa [Function.update_self]
    · rw [Function.update_of_ne hv]
      exact h.weight v
  exact ⟨⟨h.rest.1.withWeight hweight fun i hi => getWeight_update hset hi, h.rest.2⟩, hweight⟩

theorem PriorityOk.weightsOk (h : PriorityOk cfg s) :
    WeightsOk (FixedPriority P (Fin n)) (cfg.withWeight s.weight) :=
  h.weight

theorem PriorityOk.keepsPriorityOrder (h : PriorityOk cfg s) : KeepsPriorityOrder cfg s := by
  refine ⟨h.rest.1.inPriorityOrder, ?_⟩
  intro e hstarted hvalid hcareful
  have hpos : 0 < e := by
    simp only [validElapsed, Bool.and_eq_true, decide_eq_true_eq] at hvalid
    exact hvalid.1.1
  obtain ⟨hgood, -⟩ := updateTasks_good h.weightsOk h.rest.1 h.rest.2 hpos hcareful.1
  exact hgood.inPriorityOrder

end Order

theorem level_of_range {w : ℤ} (hw : 0 ≤ w ∧ w < 32) : getTaskPriorityFromWeight w < 32 := by
  unfold getTaskPriorityFromWeight
  omega

/-- A priority written is one of the 32 levels. -/
theorem written_range (hmax : 0 < configMaxPriorities ∧ configMaxPriorities ≤ 32) {e : PriorityEvent n} {u : TId}
    {w : ℤ} (hw : PriorityKernel.written configMaxPriorities e = some (u, w)) : 0 ≤ w ∧ w < 32 := by
  cases e with
  | vTaskPrioritySet v p =>
    obtain ⟨-, rfl⟩ := Prod.mk.inj (Option.some.inj hw)
    unfold frtosPrioToStkWeight
    split <;> omega
  | osThreadSetPriority v p =>
    unfold PriorityKernel.written at hw
    dsimp only at hw
    split at hw
    · exact nomatch hw
    · obtain ⟨-, rfl⟩ := Prod.mk.inj (Option.some.inj hw)
      unfold cmsisPrioToStk osPriorityIdle osPriorityIsr
      split
      · omega
      · split <;> omega
  | kernel e => exact nomatch hw

section Runs

variable {s : PriorityKernel n (FixedPriority 32 (Fin n))}

/-- **One step.** -/
theorem PriorityOk.step (hmax : 0 < configMaxPriorities ∧ configMaxPriorities ≤ 32) (h : PriorityOk cfg s)
    {e : PriorityEvent n} (he : PriorityCareful cfg configMaxPriorities s e) :
    PriorityOk cfg (s.step cfg configMaxPriorities e) := by
  have hwrite {u : TId} {w : ℤ} (hw : PriorityKernel.written configMaxPriorities e = some (u, w))
      (hset : MaySet s u w) : PriorityOk cfg { s with weight := Function.update s.weight u w } :=
    h.set hset (level_of_range (written_range hmax hw))
  cases e with
  | vTaskPrioritySet u p =>
    simp only [PriorityKernel.step]
    split
    · next v w hw => exact hwrite hw (he v w hw)
    · exact h
  | osThreadSetPriority u p =>
    simp only [PriorityKernel.step]
    split
    · next v w hw => exact hwrite hw (he v w hw)
    · exact h
  | kernel e => exact ⟨step_rest h.weightsOk h.rest he, h.weight⟩

/-- **Priorities set at run time.**  In every run of a fixed-priority kernel whose calls are careful, and which
sets the priority of a ready task only if the task has inherited another or the priority is the one it has, every
ready task is in the list of its priority, no assertion on the lists fails, and `GetNext` gives a task of the
highest priority. -/
theorem run_prioritySetting (cfg : Config) (hmax : 0 < configMaxPriorities ∧ configMaxPriorities ≤ 32)
    (hcfg : ∀ u, 0 ≤ cfg.weight u ∧ cfg.weight u < 32) {es : List (PriorityEvent n)}
    (hes : Runs.Along (PriorityKernel.step cfg configMaxPriorities) (PriorityCareful cfg configMaxPriorities)
      (PriorityKernel.initial cfg : PriorityKernel n (FixedPriority 32 (Fin n))) es) :
    KeepsPriorityOrder cfg
      (PriorityKernel.run cfg configMaxPriorities es : PriorityKernel n (FixedPriority 32 (Fin n))) := by
  have hinit : PriorityOk cfg (PriorityKernel.initial cfg : PriorityKernel n (FixedPriority 32 (Fin n))) :=
    ⟨rest_initial, fun u => level_of_range (hcfg u)⟩
  have hok : PriorityOk cfg
      (PriorityKernel.run cfg configMaxPriorities es : PriorityKernel n (FixedPriority 32 (Fin n))) :=
    hes.invariant (I := fun s => PriorityOk cfg s) (fun s e h he => h.step hmax he) hinit
  exact hok.keepsPriorityOrder

/-- Two tasks of priority 1 are added and the scheduler is started; task 0 runs. -/
def twoEqualTasks : List (PriorityEvent 2) := [.kernel (.addTask 0), .kernel (.addTask 1), .kernel .onStart]

/-- Task 0 is given a higher priority while it sleeps. -/
def sleeperRaised : List (PriorityEvent 2) :=
  twoEqualTasks ++ [.kernel (.sleep 0 3), .kernel (.onTick 1), .vTaskPrioritySet 0 5, .kernel (.onTick 1)]

theorem sleeperRaised_kept :
    KeepsPriorityOrder syncConfig
      (PriorityKernel.run syncConfig 32 sleeperRaised : PriorityKernel 2 (FixedPriority 32 (Fin 2))) := by
  apply run_prioritySetting syncConfig (by decide) (fun _ => (by decide : (0 : ℤ) ≤ 1 ∧ (1 : ℤ) < 32))
  refine ⟨trivial, trivial, trivial, trivial, ⟨?_, ?_⟩, ?_, ⟨?_, ?_⟩, trivial⟩
  · decide +kernel
  · decide +kernel
  · rintro u w ⟨⟩ i huser
    left
    revert huser
    revert i
    decide +kernel
  · decide +kernel
  · decide +kernel

/-- A ready task that is given a higher priority takes turns with one of lower priority all the same; and the
running task cannot be put to sleep after its priority has been set. -/
theorem readyRaised_misplaced :
    ¬KeepsPriorityOrder syncConfig
        (PriorityKernel.run syncConfig 32 (twoEqualTasks ++ [.vTaskPrioritySet 1 5, .kernel (.onTick 1)]) :
          PriorityKernel 2 (FixedPriority 32 (Fin 2))) ∧
      Fault.onTaskSleepHead ∈
        (PriorityKernel.run syncConfig 32
          (twoEqualTasks ++ [.osThreadSetPriority 0 24, .kernel (.sleep 0 3), .kernel (.onTick 1)]) :
          PriorityKernel 2 (FixedPriority 32 (Fin 2))).kernel.faults := by
  constructor
  · rintro ⟨⟨-, ⟨r, s, hnext, hmax, -⟩, -⟩, -⟩
    have hzero : r = some 0 := by
      have hgiven : (PriorityKernel.run syncConfig 32
          (twoEqualTasks ++ [.vTaskPrioritySet 1 5, .kernel (.onTick 1)]) :
          PriorityKernel 2 (FixedPriority 32 (Fin 2))).kernel.strategy.getNext.toOption.map Prod.fst =
            some (some 0) := by decide +kernel
      rw [hnext] at hgiven
      exact Option.some.inj hgiven
    have hlower := (hmax 0 hzero).2 1
    revert hlower
    decide +kernel
  · decide +kernel

end Runs

end Stk.Analysis
