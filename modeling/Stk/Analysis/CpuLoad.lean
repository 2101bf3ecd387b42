import Stk.Analysis.ResponseTime

/-!
# CPU loads

`GetTaskCpuLoad` multiplies in 32 bits and adds up in 16.  The loads and their running sums are exact
where neither overflows, and nowhere else (`cpuLoads_exact`).
-/

set_option autoImplicit false

namespace Stk.Analysis

open Stk.Model Stk.Model.SchedulabilityCheck

variable {task : TaskTiming} {tasks : List TaskTiming}

/-- The load of a task in percent, rounded down. -/
def loadOf (task : TaskTiming) : ℕ := 100 * task.duration.toNat / task.period.toNat

/-- Each task is reported with its load, and with the sum of the loads up to it. -/
def LoadsExact : ℕ → List TaskTiming → List TaskCpuLoad → Prop
  | _, [], [] => True
  | total, task :: tasks, load :: loads =>
    load.task.toNat = loadOf task ∧ load.total.toNat = total + loadOf task ∧
      LoadsExact (total + loadOf task) tasks loads
  | _, _, _ => False

/-- INTERNAL: the load as it is computed. -/
theorem taskLoad_toNat (task : TaskTiming) : ((task.duration * 100 / task.period).toUInt16).toNat =
    100 * task.duration.toNat % 2 ^ 32 / task.period.toNat % 2 ^ 16 := by
  rw [UInt32.toNat_toUInt16, UInt32.toNat_div, UInt32.toNat_mul, Nat.mul_comm]
  rfl

/-- INTERNAL: a product that overflows loses at least one period, and so at least one percent. -/
theorem taskLoad_exact (h : Admitted task) : ((task.duration * 100 / task.period).toUInt16).toNat = loadOf task ↔
    100 * task.duration.toNat < 2 ^ 32 ∧ loadOf task < 2 ^ 16 := by
  have hpos := h.period_pos
  have hperiod := h.period_lt
  rw [taskLoad_toNat]
  unfold loadOf
  constructor
  · intro heq
    have hsmall : 100 * task.duration.toNat / task.period.toNat < 2 ^ 16 := by
      rw [← heq]
      exact Nat.mod_lt _ (by decide)
    refine ⟨?_, hsmall⟩
    by_contra hover
    have hle : 100 * task.duration.toNat % 2 ^ 32 + task.period.toNat ≤ 100 * task.duration.toNat := by
      have hdiv := Nat.div_add_mod (100 * task.duration.toNat) (2 ^ 32)
      have hone : 1 ≤ 100 * task.duration.toNat / 2 ^ 32 :=
        (Nat.one_le_div_iff (by decide)).mpr (Nat.le_of_not_lt hover)
      omega
    have hless : 100 * task.duration.toNat % 2 ^ 32 / task.period.toNat + 1 ≤
        100 * task.duration.toNat / task.period.toNat := by
      rw [← Nat.add_div_right _ hpos]
      exact Nat.div_le_div_right hle
    have hmod := Nat.mod_le (100 * task.duration.toNat % 2 ^ 32 / task.period.toNat) (2 ^ 16)
    omega
  · rintro ⟨hproduct, hload⟩
    rw [Nat.mod_eq_of_lt hproduct, Nat.mod_eq_of_lt hload]

/-- INTERNAL: the rest of the report, from the sum of the tasks before. -/
theorem loadsExact_iff (h : ∀ t ∈ tasks, Admitted t) (total : UInt16) :
    LoadsExact total.toNat tasks (getTaskCpuLoad total tasks) ↔
      (∀ t ∈ tasks, 100 * t.duration.toNat < 2 ^ 32) ∧ total.toNat + (tasks.map loadOf).sum < 2 ^ 16 := by
  induction tasks generalizing total with
  | nil =>
    have hlt := total.toNat_lt
    constructor
    · intro _
      exact ⟨fun _ ht => absurd ht List.not_mem_nil, hlt⟩
    · intro _
      trivial
  | cons task tasks ih =>
    rw [List.forall_mem_cons] at h
    have hexact := taskLoad_exact h.1
    rw [List.forall_mem_cons, List.map_cons, List.sum_cons]
    unfold getTaskCpuLoad
    dsimp only
    generalize (task.duration * 100 / task.period).toUInt16 = load at hexact ⊢
    have hsum : (total + load).toNat = (total.toNat + load.toNat) % 2 ^ 16 := UInt16.toNat_add total load
    constructor
    · rintro ⟨hload, htotal, hrest⟩
      rw [← htotal, ih h.2] at hrest
      refine ⟨⟨(hexact.mp hload).1, hrest.1⟩, ?_⟩
      have hlast := hrest.2
      rw [htotal] at hlast
      omega
    · rintro ⟨⟨hproduct, hproducts⟩, hlast⟩
      have hload : load.toNat = loadOf task := hexact.mpr ⟨hproduct, by omega⟩
      have htotal : (total + load).toNat = total.toNat + loadOf task := by
        rw [hsum, hload]
        exact Nat.mod_eq_of_lt (by omega)
      refine ⟨hload, htotal, ?_⟩
      rw [← htotal, ih h.2, htotal]
      exact ⟨hproducts, by omega⟩

/-- INTERNAL: the report of `IsSchedulableWCRT` has one entry for each task. -/
theorem wcrtLoop_length {fuel : ℕ} {higher : List TaskTiming} {r : Bool × List UInt32}
    (h : wcrtLoop fuel higher tasks = some r) : r.2.length = tasks.length := by
  induction tasks generalizing higher r with
  | nil =>
    obtain rfl := (Option.some.inj h).symm
    rfl
  | cons task tasks ih =>
    unfold wcrtLoop at h
    split at h
    · cases h
    · obtain ⟨r', hr', rfl⟩ := Option.map_eq_some_iff.mp h
      rw [List.length_cons, List.length_cons, ih hr']

theorem getTaskCpuLoad_length (total : UInt16) (tasks : List TaskTiming) :
    (getTaskCpuLoad total tasks).length = tasks.length := by
  induction tasks generalizing total with
  | nil => rfl
  | cons task tasks ih =>
    unfold getTaskCpuLoad
    rw [List.length_cons, List.length_cons, ih]

/-- **CPU loads.**  For tasks that `HrtInit` admits, each load that `GetTaskCpuLoad` reports is
`100 * C / T` rounded down and each total the sum of the loads up to it, exactly if `100 * C` of every task
fits in 32 bits and the sum of all loads in 16.  `IsSchedulableWCRT` reports these loads. -/
theorem cpuLoads_exact (tasks : List TaskTiming) (h : ∀ t ∈ tasks, Admitted t) :
    (LoadsExact 0 tasks (getTaskCpuLoad 0 tasks) ↔
      (∀ t ∈ tasks, 100 * t.duration.toNat < 2 ^ 32) ∧ (tasks.map loadOf).sum < 2 ^ 16) ∧
    ∀ {type : MonotonicType} {α : Type} (fuel : ℕ) (v : TaskView α) (s : Monotonic type α)
      (r : SchedulabilityCheckResult), s.tasks.map (taskTiming v) = tasks →
      isSchedulableWCRT fuel v s = some r → r.info.map TaskInfo.cpuLoad = getTaskCpuLoad 0 tasks := by
  constructor
  · have hloads := loadsExact_iff h 0
    simp only [UInt16.toNat_zero, Nat.zero_add] at hloads
    exact hloads
  · intro type α fuel v s r htasks hr
    unfold isSchedulableWCRT at hr
    rw [htasks] at hr
    cases tasks with
    | nil => cases hr
    | cons first tasks =>
      obtain ⟨r', hr', rfl⟩ := Option.map_eq_some_iff.mp hr
      obtain ⟨r'', hr'', rfl⟩ := Option.map_eq_some_iff.mp hr'
      have hlength := wcrtLoop_length hr''
      have hle : (getTaskCpuLoad 0 (first :: tasks)).length ≤ (first.duration :: r''.2).length := by
        rw [getTaskCpuLoad_length, List.length_cons, List.length_cons, hlength]
      have hfirst := List.map_fst_zip hle
      rw [List.zip, List.map_zipWith] at hfirst
      dsimp only
      rw [List.map_zipWith]
      exact hfirst

/-- Half and a third of the processor. -/
theorem twoLoads_exact : LoadsExact 0 [⟨1, 2⟩, ⟨2, 6⟩] (getTaskCpuLoad 0 [⟨1, 2⟩, ⟨2, 6⟩]) := by
  refine (cpuLoads_exact [⟨1, 2⟩, ⟨2, 6⟩] ?_).1.mpr (by decide)
  intro t ht
  obtain rfl | rfl : t = ⟨1, 2⟩ ∨ t = ⟨2, 6⟩ := by simpa using ht
  · exact ⟨by decide, by decide, by decide, by decide⟩
  · exact ⟨by decide, by decide, by decide, by decide⟩

/-- A task that needs all of its period of 42949673 ticks is reported with no load. -/
theorem fullLoad_reported_zero :
    Admitted ⟨42949673, 42949673⟩ ∧ getTaskCpuLoad 0 [⟨42949673, 42949673⟩] = [⟨0, 0⟩] ∧
      ¬ LoadsExact 0 [⟨42949673, 42949673⟩] (getTaskCpuLoad 0 [⟨42949673, 42949673⟩]) := by
  have hreport : getTaskCpuLoad 0 [⟨42949673, 42949673⟩] = [⟨0, 0⟩] := by decide
  refine ⟨⟨by decide, by decide, by decide, by decide⟩, hreport, ?_⟩
  rw [hreport]
  rintro ⟨hload, -⟩
  revert hload
  decide

end Stk.Analysis
