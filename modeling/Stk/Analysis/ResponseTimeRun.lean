import Stk.Analysis.AbsoluteDelays
import Stk.Analysis.JobSlices
import Stk.Analysis.ResponseTime

/-!
# Response times in a run

The test of `CalculateWCRT` is about numbers; this module is about the runs of a `KERNEL_HRT` kernel under
`SwitchStrategyMonotonic` from the first `AddTask` on.  The windows that the test finds are windows of the
slices, so a job is over before the response time that the test reports.
-/

set_option autoImplicit false

namespace Stk.Analysis

open Stk.Model Stk.Model.Kernel Stk.Model.SchedulabilityCheck BusyWindow

/-- A kernel under `SwitchStrategyMonotonic`. -/
abbrev MonotonicKernel (type : MonotonicType) (n : ℕ) : Type := Kernel n (Monotonic type (Fin n))

section Runs

variable {n : ℕ} {type : MonotonicType} {cfg : Config} {order : List (Fin n)} {C T W : Fin n → ℕ} {i : Fin n}

/-! ## Start -/

/-- What holds of a kernel to which tasks have been added and nothing else. -/
structure OnlyAdded (k : MonotonicKernel type n) : Prop where
  stopped : k.taskNow = none
  idle : k.fsmState = .none
  clock : k.ticks = 0
  live : ∀ i, (k.tasks i).removePending = false
  unlinked : ∀ i, (k.tasks i).waitObj.syncObj = none
  duration : ∀ i, (k.tasks i).hrt.duration = 0
  done : ∀ i, (k.tasks i).hrt.done = false
  delay : ∀ i, (k.tasks i).timeSleep ≤ 0
  period : ∀ i, (k.tasks i).user ≠ none →
    0 < (k.tasks i).hrt.periodicity ∧ (k.tasks i).hrt.periodicity < waitInfinite
  deadline : ∀ i, (k.tasks i).user ≠ none → 0 < (k.tasks i).hrt.deadline ∧ (k.tasks i).hrt.deadline < waitInfinite

namespace OnlyAdded

variable {k : Kernel n (Monotonic type (Fin n))}

theorem initial : OnlyAdded (Kernel.initial : MonotonicKernel type n) where
  stopped := rfl
  idle := rfl
  clock := rfl
  live _ := rfl
  unlinked _ := rfl
  duration _ := rfl
  done _ := rfl
  delay _ := le_rfl
  period _ hbusy := absurd rfl hbusy
  deadline _ hbusy := absurd rfl hbusy

/-- INTERNAL: `AddTask` in HRT mode writes at most one slot. -/
theorem added (cfg : Config) (k : MonotonicKernel type n) (u : TId) (p d t : ℤ) :
    (k.hrtAllocateAndAddNewTask cfg u p d t).taskNow = k.taskNow ∧
      (k.hrtAllocateAndAddNewTask cfg u p d t).fsmState = k.fsmState ∧
      (k.hrtAllocateAndAddNewTask cfg u p d t).ticks = k.ticks ∧
      ((k.hrtAllocateAndAddNewTask cfg u p d t).tasks = k.tasks ∨
        ∃ i, (k.hrtAllocateAndAddNewTask cfg u p d t).tasks =
          Function.update k.tasks i (({ k.tasks i with user := some u }).hrtInit false p d t)) := by
  have hcall : ∀ (k' : MonotonicKernel type n) (i : Fin n),
      (k'.callStrategy cfg (.addTask i)).2.taskNow = k'.taskNow ∧
        (k'.callStrategy cfg (.addTask i)).2.fsmState = k'.fsmState ∧
        (k'.callStrategy cfg (.addTask i)).2.ticks = k'.ticks ∧
        (k'.callStrategy cfg (.addTask i)).2.tasks = k'.tasks := by
    intro k' i
    unfold Kernel.callStrategy
    split
    · exact ⟨rfl, rfl, rfl, rfl⟩
    · exact ⟨rfl, rfl, rfl, rfl⟩
  unfold Kernel.hrtAllocateAndAddNewTask Kernel.allocateNewTask
  dsimp only
  generalize hk : (if (k.findTaskByUserTask u).isSome then k.fault .taskCollision else k) = k₁
  have hsame : k₁.taskNow = k.taskNow ∧ k₁.fsmState = k.fsmState ∧ k₁.ticks = k.ticks ∧ k₁.tasks = k.tasks := by
    rw [← hk]
    split
    · exact ⟨rfl, rfl, rfl, rfl⟩
    · exact ⟨rfl, rfl, rfl, rfl⟩
  obtain ⟨hnow, hfsm, hticks, htasks⟩ := hsame
  cases (List.finRange n).find? (fun i => !(k₁.tasks i).isBusy) with
  | none => exact ⟨hnow, hfsm, hticks, .inl htasks⟩
  | some i =>
    have hpi : SwitchStrategy.priorityInheritanceApi (Monotonic type (Fin n)) = false := rfl
    dsimp only
    rw [if_neg (by rw [hpi]; exact Bool.false_ne_true)]
    obtain ⟨hnow', hfsm', hticks', htasks'⟩ := hcall ((k₁.setTask i (fun t => { t with user := some u })).setTask i
      (fun t' => t'.hrtInit (SwitchStrategy.sleepEventApi (Monotonic type (Fin n))) p d t)) i
    refine ⟨hnow'.trans hnow, hfsm'.trans hfsm, hticks'.trans hticks, .inr ⟨i, ?_⟩⟩
    rw [htasks', ← htasks]
    simp only [Kernel.setTask, Function.update_self, Function.update_idem]
    rfl

/-- INTERNAL: one more task. -/
theorem addTaskHrt (h : OnlyAdded k) (u : TId) (p d t : ℤ) : OnlyAdded (k.step cfg (.addTaskHrt u p d t)) := by
  simp only [Kernel.step]
  split
  · next hadmit =>
    simp only [Bool.and_eq_true, validHrt, decide_eq_true_eq] at hadmit
    obtain ⟨-, ⟨⟨⟨⟨hp, hp'⟩, hd⟩, hd'⟩, -⟩, -⟩ := hadmit
    obtain ⟨hnow, hfsm, hticks, htasks⟩ := added cfg k u p d t
    have hrest : ∀ P : KernelTask → Prop, (∀ j, P (k.tasks j)) →
        (∀ s : KernelTask, P s → P (({ s with user := some u }).hrtInit false p d t)) →
        ∀ j, P ((k.hrtAllocateAndAddNewTask cfg u p d t).tasks j) := by
      intro P hall hinit j
      rcases htasks with hsame | ⟨i, hi⟩
      · rw [hsame]
        exact hall j
      · rw [hi]
        by_cases hj : j = i
        · subst hj
          rw [Function.update_self]
          exact hinit _ (hall j)
        · rw [Function.update_of_ne hj]
          exact hall j
    refine ⟨hnow.trans h.stopped, hfsm.trans h.idle, hticks.trans h.clock, ?_, ?_, ?_, ?_, ?_, ?_, ?_⟩
    · exact hrest (fun s => s.removePending = false) h.live
        (fun s hs => by unfold KernelTask.hrtInit; dsimp only; split <;> exact hs)
    · exact hrest (fun s => s.waitObj.syncObj = none) h.unlinked
        (fun s hs => by unfold KernelTask.hrtInit; dsimp only; split <;> exact hs)
    · exact hrest (fun s => s.hrt.duration = 0) h.duration
        (fun s hs => by unfold KernelTask.hrtInit; dsimp only; split <;> exact hs)
    · exact hrest (fun s => s.hrt.done = false) h.done
        (fun s hs => by unfold KernelTask.hrtInit; dsimp only; split <;> exact hs)
    · refine hrest (fun s => s.timeSleep ≤ 0) h.delay ?_
      intro s hs
      unfold KernelTask.hrtInit
      dsimp only
      split
      · simp only [KernelTask.scheduleSleep]
        omega
      · exact hs
    · refine hrest (fun s => s.user ≠ none → 0 < s.hrt.periodicity ∧ s.hrt.periodicity < waitInfinite) h.period ?_
      intro s _ _
      unfold KernelTask.hrtInit
      dsimp only
      split
      · exact ⟨hp, hp'⟩
      · exact ⟨hp, hp'⟩
    · refine hrest (fun s => s.user ≠ none → 0 < s.hrt.deadline ∧ s.hrt.deadline < waitInfinite) h.deadline ?_
      intro s _ _
      unfold KernelTask.hrtInit
      dsimp only
      split
      · exact ⟨hd, hd'⟩
      · exact ⟨hd, hd'⟩
  · exact h

theorem run {adds : List (KernelEvent n)} (hadds : ∀ ev ∈ adds, ∃ u p d t, ev = .addTaskHrt u p d t) :
    OnlyAdded (Kernel.run cfg adds : MonotonicKernel type n) := by
  unfold Kernel.run
  refine Runs.foldl_keeps (I := OnlyAdded) ?_ initial
  intro k ev hev h
  obtain ⟨u, p, d, t, rfl⟩ := hadds ev hev
  exact h.addTaskHrt u p d t

/-- INTERNAL: `OnStart` begins the first slice. -/
theorem start (h : OnlyAdded k) (henrolled : Enrolled cfg k) (hlinked : Linked k)
    (horder : k.strategy.tasks = order) (hne : order ≠ [])
    (hT : ∀ i ∈ order, (T i : ℤ) = (k.tasks i).hrt.periodicity)
    (hC : ∀ i ∈ order, 0 < C i) : TimelineOk cfg order C T (Timeline.start cfg k) := by
  have hstarts : k.starts = true := by
    have hsize : SwitchStrategy.getSize k.strategy ≠ 0 := by
      show k.strategy.tasks.length ≠ 0
      rw [horder]
      exact mt List.length_eq_zero_iff.mp hne
    simp [Kernel.starts, Kernel.isStarted, h.stopped, h.idle, hsize]
  have hstep : k.step cfg .onStart = k.onStart cfg := if_pos hstarts
  obtain ⟨first, hfirst⟩ := List.exists_mem_of_ne_nil order hne
  have hbusy : ∀ i ∈ order, (k.tasks i).user ≠ none := by
    intro i hi
    apply (henrolled.mem i).mp
    show i ∈ k.strategy.tasks
    rw [horder]
    exact hi
  obtain ⟨henrolled', hsound', hstarted⟩ := onStart_sound henrolled (hbusy first hfirst) none
  obtain ⟨htasks, hstrategy, hticks, hrunner⟩ := onStart_first henrolled (hbusy first hfirst)
  have hlinked' := step_linked cfg hlinked .onStart
  unfold Timeline.start
  rw [hstep] at hlinked' ⊢
  have hpending : ∀ i, pendingIn [k.onStart cfg] 0 i = !(k.tasks i).isSleeping := by
    intro i
    simp [pendingIn, htasks]
  refine ⟨henrolled', ⟨_, hsound'⟩, hlinked', ?_, hstarted, Nat.one_pos, ?_, rfl, ⟨?_, ?_, ?_, ?_⟩, ?_⟩
  · rw [hstrategy]
    exact horder
  · show (k.onStart cfg).ticks + 1 = ((1 : ℕ) : ℤ)
    rw [hticks, h.clock]
    rfl
  · rw [← horder]
    exact henrolled.wf
  · intro s hs
    obtain rfl : s = 0 := Nat.lt_one_iff.mp hs
    have hfun : pendingIn [k.onStart cfg] 0 = fun i => !(k.tasks i).isSleeping := funext hpending
    show runner (k.onStart cfg) = _
    rw [hrunner, hfun, ← horder]
    rfl
  · intro j hj a t _ _ hat ht
    obtain rfl : t = 0 := Nat.lt_one_iff.mp ht
    obtain rfl : a = 0 := Nat.le_zero.mp hat
    rw [served_self]
    exact hC j hj
  · intro j _ a b _ _ hab hb
    have hb' : b < 1 := hb
    omega
  · intro i hi
    have hperiodic : Periodic i (T i) (k.onStart cfg) := by
      refine ⟨?_, ?_, ?_, ?_, hstarted, hsound'.started hstarted⟩
      · rw [htasks]
        exact hbusy i hi
      · rw [htasks]
        exact h.live i
      · rw [htasks]
        exact h.unlinked i
      · rw [htasks, hT i hi]
    have hclock : (k.onStart cfg).ticks = 0 := hticks.trans h.clock
    cases hs : (k.tasks i).isSleeping with
    | false =>
      have hpending₀ : pendingIn [k.onStart cfg] 0 i = true := by rw [hpending, hs]; rfl
      refine .working 0 Nat.one_pos ⟨hperiodic, ?_, ?_, ?_⟩ ⟨hpending₀, .inl rfl⟩ ?_
      · rw [htasks]
        exact hs
      · rw [htasks, h.duration, hclock]
        rfl
      · rw [htasks]
        exact h.done i
      · intro s _ hs'
        obtain rfl : s = 0 := Nat.le_zero.mp hs'
        exact hpending₀
    | true =>
      have hpending₀ : pendingIn [k.onStart cfg] 0 i = false := by rw [hpending, hs]; rfl
      have hasleep := KernelTask.isSleeping_iff.mp hs
      refine .resting (-(k.tasks i).timeSleep) ⟨hperiodic, ?_, ?_, ?_, ?_, ?_⟩ hpending₀ ?_
      · rw [htasks, hclock]
        omega
      · rw [hclock]
        omega
      · rw [htasks]
        exact h.duration i
      · rw [htasks]
        exact h.done i
      · by_cases hsl : (k.onStart cfg).fsmState = .sleeping
        · exact .inr hsl
        · left
          intro hnow
          have hon : runner (k.onStart cfg) = some i := runner_eq_some.mpr ⟨hnow, hsl⟩
          rw [hrunner] at hon
          have hawake := List.find?_some hon
          rw [hs] at hawake
          cases hawake
      · intro b hb hreleased
        obtain rfl : b = 0 := Nat.lt_one_iff.mp hb
        rw [hreleased.1] at hpending₀
        cases hpending₀

end OnlyAdded

/-- INTERNAL: the strategy after the calls of `AddTask`. -/
theorem enrolled_adds (cfg : Config) {adds : List (KernelEvent n)}
    (hadds : ∀ ev ∈ adds, ∃ u p d t, ev = .addTaskHrt u p d t) :
    Enrolled cfg (Kernel.run cfg adds : MonotonicKernel type n) := by
  unfold Kernel.run
  refine Runs.foldl_keeps (I := Enrolled cfg) ?_ Enrolled.initial
  intro k ev hev h
  obtain ⟨u, p, d, t, rfl⟩ := hadds ev hev
  have hweight : WeightAccepted (Monotonic type (Fin n)) (KernelEvent.addTaskHrt u p d t : KernelEvent n) := trivial
  exact (step_enrolled (fun _ => trivial) h hweight rfl).1

/-- INTERNAL: a run within budgets, from the first `AddTask` on. -/
theorem timelineOk_run (hhrt : cfg.isHrtMode = true) (htickless : cfg.isTicklessMode = false)
    {adds : List (KernelEvent n)} (hadds : ∀ ev ∈ adds, ∃ u p d t, ev = .addTaskHrt u p d t)
    (horder : (Kernel.run cfg adds : MonotonicKernel type n).strategy.tasks = order) (hne : order ≠ [])
    (hT : ∀ i ∈ order, (T i : ℤ) = ((Kernel.run cfg adds : MonotonicKernel type n).tasks i).hrt.periodicity)
    (htested : TestedSet order C T W) {es : List (KernelEvent n)}
    (hes : Runs.Along (Timeline.step cfg) (WithinBudget cfg C)
      (Timeline.start cfg (Kernel.run cfg adds : MonotonicKernel type n)) es) :
    TimelineOk cfg order C T
      (es.foldl (Timeline.step cfg) (Timeline.start cfg (Kernel.run cfg adds : MonotonicKernel type n))) := by
  have hstart := (OnlyAdded.run hadds).start (C := C) (enrolled_adds cfg hadds) (run_linked cfg adds) horder hne hT
    htested.budget_pos
  exact hes.invariant (fun s ev h hev => h.step htested hhrt htickless hev) hstart

end Runs

/-! ## The test -/

section Test

variable {higher lower tasks : List TaskTiming} {task : TaskTiming}
  {ws : List UInt32}

theorem ForEach.of_mem {P : List TaskTiming → TaskTiming → Prop}
    (h : ForEach P higher (tasks ++ task :: lower)) : P (higher ++ tasks) task := by
  induction tasks generalizing higher with
  | nil =>
    rw [List.append_nil]
    exact h.1
  | cons t tasks ih =>
    have hrest := ih h.2
    rwa [List.append_assoc, List.singleton_append] at hrest

theorem Reported.of_mem (h : Reported higher (tasks ++ task :: lower) ws) :
    ∃ w, ws[tasks.length]? = some w ∧ IsResponseTime (higher ++ tasks) task w.toNat := by
  induction tasks generalizing higher ws with
  | nil =>
    cases ws with
    | nil => cases h
    | cons w ws =>
      rw [List.append_nil]
      exact ⟨w, rfl, h.1⟩
  | cons t tasks ih =>
    cases ws with
    | nil => cases h
    | cons w ws =>
      obtain ⟨w', hw', hresponse⟩ := ih h.2
      rw [List.append_assoc, List.singleton_append] at hresponse
      exact ⟨w', hw', hresponse⟩

variable {fuel : ℕ} {first : TaskTiming}

/-- INTERNAL: what the test has found when it passes. -/
theorem reported_of_passes (hadmitted : ∀ t ∈ first :: tasks, Admitted t) (hfits : ForEach Fits [first] tasks)
    (hsingle : tasks = [] → first.duration ≤ first.period)
    (htest : calculateWCRT fuel first tasks = some (true, ws)) :
    ForEach Schedulable [] (first :: tasks) ∧ Reported [] (first :: tasks) ws := by
  obtain ⟨r, hr, heq⟩ := Option.map_eq_some_iff.mp htest
  obtain ⟨htrue, rfl⟩ := Prod.mk.inj heq
  obtain ⟨fuel', r', hr', hall, hreport⟩ := wcrtLoop_spec hfits
  have hsame : r = r' := by
    have h := wcrtLoop_mono (le_max_left fuel fuel') hr
    rw [wcrtLoop_mono (le_max_right fuel fuel') hr'] at h
    exact (Option.some.inj h).symm
  subst hsame
  have hrest := hall.mp htrue
  refine ⟨⟨schedulable_first.mpr ?_, hrest⟩, isResponseTime_first.mpr rfl, hreport htrue⟩
  cases tasks with
  | nil => exact hsingle rfl
  | cons task tasks =>
    by_contra hlong
    rw [UInt32.not_le] at hlong
    have hbelow := not_schedulable_below (hadmitted first (by simp)) (hadmitted task (by simp))
      (UInt32.le_of_lt hlong)
    exact hbelow hrest.1

end Test

section Runs

variable {n : ℕ} {type : MonotonicType} {cfg : Config} {order : List (Fin n)} {i : Fin n} {fuel : ℕ}
  {timing : Fin n → TaskTiming} {first : TaskTiming}
  {rest : List TaskTiming} {ws : List UInt32}

theorem demandOf_map (timing : Fin n → TaskTiming) (higher : List (Fin n)) (i : Fin n) (w : ℕ) :
    demandOf (higher.map timing) (timing i).duration.toNat w =
      BusyWindow.demand (fun j => (timing j).duration.toNat) (fun j => (timing j).period.toNat) higher i w := by
  unfold demandOf BusyWindow.demand
  rw [List.map_map]
  rfl

/-- INTERNAL: a set of tasks that passes the test, with the windows it reports. -/
theorem testedSet_of_passes (hnd : order.Nodup) (hset : order.map timing = first :: rest)
    (hadmitted : ∀ t ∈ first :: rest, Admitted t) (hfits : ForEach Fits [first] rest)
    (hsingle : rest = [] → first.duration ≤ first.period)
    (htest : calculateWCRT fuel first rest = some (true, ws)) :
    TestedSet order (fun i => (timing i).duration.toNat) (fun i => (timing i).period.toNat)
      (fun i => (ws[order.idxOf i]?.getD 0).toNat) := by
  obtain ⟨hall, hreport⟩ := reported_of_passes hadmitted hfits hsingle htest
  rw [← hset] at hall hreport hadmitted
  have hmem : ∀ i ∈ order, Admitted (timing i) := fun i hi => hadmitted _ (List.mem_map_of_mem hi)
  -- the response time of a task, with those before it
  have hresponse : ∀ higher i lower, order = higher ++ i :: lower →
      IsResponseTime (higher.map timing) (timing i) (ws[order.idxOf i]?.getD 0).toNat ∧
        Schedulable (higher.map timing) (timing i) := by
    intro higher i lower horder
    have hnot : i ∉ higher := by
      intro hi
      rw [horder] at hnd
      exact (List.nodup_append.mp hnd).2.2 i hi i List.mem_cons_self rfl
    have hidx : order.idxOf i = (higher.map timing).length := by
      rw [horder, List.idxOf_append_of_notMem hnot, List.idxOf_cons_self, List.length_map, Nat.add_zero]
    have hsplit : order.map timing = higher.map timing ++ timing i :: lower.map timing := by
      rw [horder, List.map_append, List.map_cons]
    rw [hsplit] at hall hreport
    obtain ⟨w, hw, hleast⟩ := hreport.of_mem
    rw [hidx, hw]
    exact ⟨hleast, hall.of_mem⟩
  refine ⟨fun i hi => (hmem i hi).duration_pos, fun i hi => (hmem i hi).period_pos, ?_, ?_⟩
  · intro higher i lower horder
    have hfixed := (hresponse higher i lower horder).1.1
    rw [Set.mem_ofPred_eq, demandOf_map] at hfixed
    exact hfixed.le
  · intro i hi
    obtain ⟨higher, lower, horder⟩ := List.append_of_mem hi
    obtain ⟨hleast, w, hw, hle⟩ := hresponse higher i lower horder
    rw [hleast.unique hw]
    exact hle

end Runs

/-! ## What the test promises -/

section Promise

variable {n : ℕ} {σ : Type} [SwitchStrategy (Fin n) σ] {cfg : Config} {k : Kernel n σ} {i : Fin n} {e : ℤ}

/-- The job of the task in slot `i`, if there is one, has been pending for less than `w` ticks, and a tick does
not find it late if the deadline of the task is no shorter than that. -/
structure RespondsIn (cfg : Config) (k : Kernel n σ) (i : Fin n) (w : ℕ) : Prop where
  response : (k.tasks i).isSleeping = false → (k.tasks i).hrt.duration < w
  inTime : (w : ℤ) ≤ (k.tasks i).hrt.deadline → ∀ e, k.ticksWith cfg e = true → ¬ MissAction cfg k e i

/-- INTERNAL: a slot that is in no wait, when `UpdateTaskState` begins. -/
theorem SameTurn.loading (hhrt : cfg.isHrtMode = true) (hk : Linked k) (hobj : (k.tasks i).waitObj.syncObj = none)
    (e : ℤ) : SameTurn i ({ k with ticks := k.ticks + e } : Kernel n σ) (Stk.Analysis.loading cfg k e) := by
  have hsync : SameTurn i ({ k with ticks := k.ticks + e } : Kernel n σ)
      (if cfg.isSyncMode then ({ k with ticks := k.ticks + e } : Kernel n σ).updateSyncObjects e
        else { k with ticks := k.ticks + e }) := by
    split
    · exact SameTurn.updateSyncObjects e ⟨hk.mem, hk.nodup, hk.syncNodup, hk.registered⟩ hobj
    · exact .refl i _
  unfold Stk.Analysis.loading
  dsimp only
  generalize (if cfg.isSyncMode then ({ k with ticks := k.ticks + e } : Kernel n σ).updateSyncObjects e
      else { k with ticks := k.ticks + e }) = k₁ at hsync
  split
  · have hnone : k₁.updateTaskRequest cfg = k₁ := by simp [Kernel.updateTaskRequest, hhrt]
    rw [hnone]
    exact hsync
  · exact hsync

/-- INTERNAL: the deadline is checked against the ticks since the activation. -/
theorem respondsIn_of_lt (hhrt : cfg.isHrtMode = true) (htickless : cfg.isTicklessMode = false) (hk : Linked k)
    (hobj : (k.tasks i).waitObj.syncObj = none) {w : ℕ}
    (hlt : (k.tasks i).isSleeping = false → (k.tasks i).hrt.duration < w) : RespondsIn cfg k i w := by
  refine ⟨hlt, ?_⟩
  intro hle e hticks hmiss
  obtain ⟨⟨-, hawake⟩, hlate⟩ := (missAction_iff hhrt).mp hmiss
  have hload := SameTurn.loading hhrt hk hobj e
  rw [hload.isSleeping] at hawake
  rw [hload.job.hrt] at hlate
  have hone : e = 1 := by
    have hvalid := (Bool.and_eq_true_iff.mp hticks).2
    simp only [validElapsed, htickless, Bool.false_or, Bool.and_eq_true, decide_eq_true_eq] at hvalid
    exact hvalid.2
  have hduration := hlt hawake
  dsimp only at hlate
  omega

end Promise

section Theorems

variable {n : ℕ} {type : MonotonicType} {cfg : Config} {order : List (Fin n)} {C T W : Fin n → ℕ} {i : Fin n}

theorem TimelineOk.respondsIn {s : Timeline n (Monotonic type (Fin n))} (h : TimelineOk cfg order C T s)
    (htested : TestedSet order C T W) (hhrt : cfg.isHrtMode = true) (htickless : cfg.isTicklessMode = false)
    (hi : i ∈ order) : RespondsIn cfg s.kernel i (W i) :=
  respondsIn_of_lt hhrt htickless h.linked (h.stands i hi).periodic.unlinked (h.response_lt htested hi)

/-- The timing of the task in slot `i` with an execution time of `C i`. -/
def timingOf {σ : Type} (C : Fin n → UInt32) (k : Kernel n σ) (i : Fin n) : TaskTiming :=
  ⟨C i, UInt32.ofInt (k.tasks i).hrt.periodicity⟩

/-- INTERNAL: a period or a deadline that `HrtInit` admits, as a 32-bit number. -/
theorem toNat_ofInt_of_lt {x : ℤ} (hpos : 0 < x) (hlt : x < waitInfinite) : ((UInt32.ofInt x).toNat : ℤ) = x := by
  unfold waitInfinite at hlt
  rw [toNat_ofInt]
  omega

/-- INTERNAL: the run of a set of tasks that passes the test. -/
theorem respondsIn_run (hhrt : cfg.isHrtMode = true) (htickless : cfg.isTicklessMode = false)
    {adds : List (KernelEvent n)} (hadds : ∀ ev ∈ adds, ∃ u p d t, ev = .addTaskHrt u p d t) {C : Fin n → UInt32}
    {fuel : ℕ} {first : TaskTiming} {rest : List TaskTiming} {ws : List UInt32}
    (hset : (Kernel.run cfg adds : MonotonicKernel type n).strategy.tasks.map
      (timingOf C (Kernel.run cfg adds : MonotonicKernel type n)) = first :: rest)
    (hadmitted : ∀ t ∈ first :: rest, Admitted t) (hfits : ForEach Fits [first] rest)
    (hsingle : rest = [] → first.duration ≤ first.period)
    (htest : calculateWCRT fuel first rest = some (true, ws)) {es : List (KernelEvent n)}
    (hes : Runs.Along (Timeline.step cfg) (WithinBudget cfg fun i => (C i).toNat)
      (Timeline.start cfg (Kernel.run cfg adds : MonotonicKernel type n)) es)
    {m : ℕ} {w : UInt32}
    (hi : (Kernel.run cfg adds : MonotonicKernel type n).strategy.tasks[m]? = some i)
    (hw : ws[m]? = some w) :
    RespondsIn cfg (Kernel.run cfg (adds ++ .onStart :: es) : MonotonicKernel type n) i w.toNat ∧
      (w.toNat : ℤ) ≤
        ((Kernel.run cfg (adds ++ .onStart :: es) : MonotonicKernel type n).tasks i).hrt.periodicity := by
  have hadded : OnlyAdded (Kernel.run cfg adds : MonotonicKernel type n) := .run hadds
  have henrolled : Enrolled cfg (Kernel.run cfg adds : MonotonicKernel type n) := enrolled_adds cfg hadds
  have hkernel : (es.foldl (Timeline.step cfg)
      (Timeline.start cfg (Kernel.run cfg adds : MonotonicKernel type n))).kernel =
        Kernel.run cfg (adds ++ .onStart :: es) := by
    rw [Timeline.foldl_kernel, Kernel.run_append]
    rfl
  generalize hk₀ : (Kernel.run cfg adds : MonotonicKernel type n) = k₀ at *
  have hmem := List.mem_of_getElem? hi
  have htested := testedSet_of_passes henrolled.wf hset hadmitted hfits hsingle htest
  have hne : k₀.strategy.tasks ≠ [] := List.ne_nil_of_mem hmem
  have hT : ∀ j ∈ k₀.strategy.tasks,
      ((timingOf C k₀ j).period.toNat : ℤ) = (k₀.tasks j).hrt.periodicity := by
    intro j hj
    obtain ⟨hpos, hlt⟩ := hadded.period j ((henrolled.mem j).mp hj)
    exact toNat_ofInt_of_lt hpos hlt
  have h : TimelineOk cfg k₀.strategy.tasks (fun i => (C i).toNat) (fun i => (timingOf C k₀ i).period.toNat)
      (es.foldl (Timeline.step cfg) (Timeline.start cfg k₀)) := by
    subst hk₀
    exact timelineOk_run hhrt htickless hadds rfl hne hT htested hes
  have hidx : (ws[k₀.strategy.tasks.idxOf i]?.getD 0) = w := by
    obtain ⟨hm, rfl⟩ := List.getElem?_eq_some_iff.mp hi
    rw [henrolled.wf.idxOf_getElem, hw, Option.getD_some]
  have hresponds := h.respondsIn htested hhrt htickless hmem
  have hperiod := (h.stands i hmem).periodic.period
  have hle := htested.inPeriod i hmem
  rw [hidx] at hresponds hle
  rw [hkernel] at hresponds hperiod
  refine ⟨hresponds, ?_⟩
  rw [hperiod]
  exact_mod_cast hle

/-- **The response-time test is sound for the kernel.**  Add any tasks to a `KERNEL_HRT` kernel under
`SwitchStrategyMonotonic` and give each a budget of ticks for its jobs.  If `CalculateWCRT` passes the budgets and
the periods, then in every run in which the tasks keep to their budgets, and whatever the start delays are, no job
of a task is pending for as long as the response time reported for the task, and no deadline that is not shorter
than it is ever missed. -/
theorem run_responseTimes (type : MonotonicType) (cfg : Config) (hhrt : cfg.isHrtMode = true)
    (htickless : cfg.isTicklessMode = false) (adds : List (KernelEvent n))
    (hadds : ∀ ev ∈ adds, ∃ u p d t, ev = .addTaskHrt u p d t) (C : Fin n → UInt32) (fuel : ℕ)
    (first : TaskTiming) (rest : List TaskTiming) (ws : List UInt32)
    (hset : (Kernel.run cfg adds : MonotonicKernel type n).strategy.tasks.map
      (timingOf C (Kernel.run cfg adds : MonotonicKernel type n)) = first :: rest)
    (hadmitted : ∀ t ∈ first :: rest, Admitted t) (hfits : ForEach Fits [first] rest)
    (hsingle : rest = [] → first.duration ≤ first.period)
    (htest : calculateWCRT fuel first rest = some (true, ws)) (es : List (KernelEvent n))
    (hes : Runs.Along (Timeline.step cfg) (WithinBudget cfg fun i => (C i).toNat)
      (Timeline.start cfg (Kernel.run cfg adds : MonotonicKernel type n)) es) :
    ∀ (m : ℕ) (i : Fin n) (w : UInt32),
      (Kernel.run cfg adds : MonotonicKernel type n).strategy.tasks[m]? = some i → ws[m]? = some w →
      RespondsIn cfg (Kernel.run cfg (adds ++ .onStart :: es) : MonotonicKernel type n) i w.toNat := by
  intro m i w hi hw
  exact (respondsIn_run hhrt htickless hadds hset hadmitted hfits hsingle htest hes hi hw).1

/-- Two tasks of periods 4 and 6; the second one needs two ticks and begins its job when the first one does. -/
def twoPeriods : List (KernelEvent 2) := [.addTaskHrt 0 4 4 0, .addTaskHrt 1 6 3 0]

/-- The first task gives up the processor at once, and the second one is in the last slice of its budget. -/
def firstJobs : List (KernelEvent 2) := [.switchToNext 0, .onTick 1, .onTick 1]

theorem firstJobs_respond : RespondsIn hrtConfig
    (Kernel.run hrtConfig (twoPeriods ++ .onStart :: firstJobs) : Kernel 2 (Monotonic .rate (Fin 2))) 1 3 := by
  refine run_responseTimes .rate hrtConfig rfl rfl twoPeriods ?_ (fun i => if i = 0 then 1 else 2) 5 ⟨1, 4⟩ [⟨2, 6⟩]
    [1, 3] (by decide +kernel) ?_ ⟨fits_of_demandOf (by decide), trivial⟩ ?_ (by decide +kernel) firstJobs
    (by decide +kernel) 1 1 3 (by decide +kernel) rfl
  · intro ev hev
    obtain rfl | rfl : ev = .addTaskHrt 0 4 4 0 ∨ ev = .addTaskHrt 1 6 3 0 := by simpa [twoPeriods] using hev
    · exact ⟨0, 4, 4, 0, rfl⟩
    · exact ⟨1, 6, 3, 0, rfl⟩
  · intro t ht
    obtain rfl | rfl : t = ⟨1, 4⟩ ∨ t = ⟨2, 6⟩ := by simpa using ht
    · exact ⟨by decide, by decide, by decide, by decide⟩
    · exact ⟨by decide, by decide, by decide, by decide⟩
  · intro hrest
    cases hrest

/-- INTERNAL: the values that `HrtInit` admits, as the test sees them. -/
theorem admitted_of_added {k : Kernel n (Monotonic type (Fin n))} (h : OnlyAdded k) (henrolled : Enrolled cfg k)
    (hi : i ∈ k.strategy.tasks) : Admitted (taskTiming (k.view cfg) i) := by
  have hbusy := (henrolled.mem i).mp hi
  obtain ⟨hp, hp'⟩ := h.period i hbusy
  obtain ⟨hd, hd'⟩ := h.deadline i hbusy
  have hperiod : (((taskTiming (k.view cfg) i).period.toNat : ℕ) : ℤ) = (k.tasks i).hrt.periodicity :=
    toNat_ofInt_of_lt hp hp'
  have hduration : (((taskTiming (k.view cfg) i).duration.toNat : ℕ) : ℤ) = (k.tasks i).hrt.deadline :=
    toNat_ofInt_of_lt hd hd'
  unfold waitInfinite at hp' hd'
  refine ⟨?_, ?_, ?_, ?_⟩
  · omega
  · omega
  · omega
  · omega

/-- **What `IsSchedulable` promises.**  `IsSchedulableWCRT` takes the deadlines for execution times.  If it reports
the tasks of a `KERNEL_HRT` kernel schedulable, then in every run in which no job gets more ticks of the processor
than its deadline, every job is over within the response time reported for its task, and so before the next one
is due. -/
theorem run_isSchedulable (type : MonotonicType) (cfg : Config) (hhrt : cfg.isHrtMode = true)
    (htickless : cfg.isTicklessMode = false) (adds : List (KernelEvent n))
    (hadds : ∀ ev ∈ adds, ∃ u p d t, ev = .addTaskHrt u p d t) (fuel : ℕ)
    (first : TaskTiming) (rest : List TaskTiming)
    (hset : (Kernel.run cfg adds : MonotonicKernel type n).strategy.tasks.map
      (taskTiming ((Kernel.run cfg adds : MonotonicKernel type n).view cfg)) =
        first :: rest)
    (hfits : ForEach Fits [first] rest) (hsingle : rest = [] → first.duration ≤ first.period)
    (result : SchedulabilityCheckResult)
    (htest : isSchedulableWCRT fuel
      ((Kernel.run cfg adds : MonotonicKernel type n).view cfg)
      (Kernel.run cfg adds : MonotonicKernel type n).strategy = some result)
    (hpass : result.schedulable = true) (es : List (KernelEvent n))
    (hes : Runs.Along (Timeline.step cfg) (WithinBudget cfg fun i => (taskTiming
        ((Kernel.run cfg adds : MonotonicKernel type n).view cfg) i).duration.toNat)
      (Timeline.start cfg (Kernel.run cfg adds : MonotonicKernel type n)) es) :
    ∀ (m : ℕ) (i : Fin n) (info : TaskInfo),
      (Kernel.run cfg adds : MonotonicKernel type n).strategy.tasks[m]? = some i →
      result.info[m]? = some info →
      let t := (Kernel.run cfg (adds ++ .onStart :: es) : MonotonicKernel type n).tasks i
      (t.isSleeping = false → t.hrt.duration < info.wcrt.toNat) ∧ (info.wcrt.toNat : ℤ) ≤ t.hrt.periodicity := by
  intro m i info hi hinfo
  have hadmitted : ∀ t ∈ first :: rest, Admitted t := by
    intro t ht
    rw [← hset] at ht
    obtain ⟨j, hj, rfl⟩ := List.mem_map.mp ht
    exact admitted_of_added (.run hadds) (enrolled_adds cfg hadds) hj
  unfold isSchedulableWCRT at htest
  rw [hset] at htest
  obtain ⟨r, hr, rfl⟩ := Option.map_eq_some_iff.mp htest
  obtain ⟨passed, ws⟩ := r
  dsimp only at hpass hinfo
  subst hpass
  obtain ⟨load, w, -, hw, rfl⟩ := List.getElem?_zipWith_eq_some.mp hinfo
  obtain ⟨hresponds, hperiod⟩ := respondsIn_run
    (C := fun i => UInt32.ofInt ((Kernel.run cfg adds : MonotonicKernel type n).tasks i).hrt.deadline)
    hhrt htickless hadds hset hadmitted hfits hsingle hr hes hi hw
  exact ⟨hresponds.response, hperiod⟩

/-- Two tasks that `IsSchedulable` accepts: the second one has a response time of 7 and a deadline of 3. -/
def shortDeadline : List (KernelEvent 2) := [.addTaskHrt 0 4 2 0, .addTaskHrt 1 8 3 0]

/-- The first task works for two ticks, the second one for one. -/
def overtaken : List (KernelEvent 2) := [.onTick 1, .switchToNext 0, .onTick 1, .onTick 1]

/-- The second task keeps within its budget and its response time, and misses its deadline. -/
theorem overtaken_late :
    let k : Kernel 2 (Monotonic .rate (Fin 2)) := Kernel.run hrtConfig (shortDeadline ++ .onStart :: overtaken)
    (((k.tasks 1).isSleeping = false → (k.tasks 1).hrt.duration < 7) ∧ 7 ≤ (k.tasks 1).hrt.periodicity) ∧
      k.ticksWith hrtConfig 1 = true ∧ MissAction hrtConfig k 1 1 := by
  refine ⟨?_, by decide +kernel, by decide +kernel⟩
  refine run_isSchedulable .rate hrtConfig rfl rfl shortDeadline ?_ 5 ⟨2, 4⟩ [⟨3, 8⟩] (by decide +kernel)
    ⟨fits_of_demandOf (by decide), trivial⟩ ?_ ⟨true, [⟨⟨50, 50⟩, 2⟩, ⟨⟨37, 87⟩, 7⟩]⟩ (by decide +kernel) rfl
    overtaken (by decide +kernel) 1 1 ⟨⟨37, 87⟩, 7⟩ (by decide +kernel) rfl
  · intro ev hev
    obtain rfl | rfl : ev = .addTaskHrt 0 4 2 0 ∨ ev = .addTaskHrt 1 8 3 0 := by simpa [shortDeadline] using hev
    · exact ⟨0, 4, 2, 0, rfl⟩
    · exact ⟨1, 8, 3, 0, rfl⟩
  · intro hrest
    cases hrest

end Theorems

end Stk.Analysis
