import Mathlib.Algebra.BigOperators.Group.List.Basic
import Mathlib.Algebra.Order.BigOperators.Group.List
import Mathlib.Algebra.Order.Floor.Div
import Mathlib.Algebra.Order.Group.Nat
import Mathlib.GroupTheory.GroupAction.Ring
import Mathlib.Tactic.IntervalCases
import Stk.Foundation.FixedPointSearch
import Stk.Model.SchedulabilityCheck

/-!
# Response times

The test of `CalculateWCRT` against the least fixed points of the recurrence over the natural numbers.  The two
agree where the 32-bit sums do not wrap, except that the first task is not tested; where they wrap, the loop
need not even end.
-/

set_option autoImplicit false

namespace Stk.Analysis

open Stk.Model.SchedulabilityCheck FixedPointSearch

variable {higher lower tasks : List TaskTiming} {first task : TaskTiming} {fuel : ℕ}

/-! ## The recurrence -/

/-- What the tasks of higher priority and the task itself need of `w` ticks. -/
def demandOf (higher : List TaskTiming) (c w : ℕ) : ℕ :=
  c + (higher.map fun t => (w ⌈/⌉ t.period.toNat) * t.duration.toNat).sum

/-- The least fixed point of the recurrence. -/
def IsResponseTime (higher : List TaskTiming) (task : TaskTiming) (w : ℕ) : Prop :=
  IsLeast {w | demandOf higher task.duration.toNat w = w} w

/-- The task has a response time, and it is at most its period. -/
def Schedulable (higher : List TaskTiming) (task : TaskTiming) : Prop :=
  ∃ w, IsResponseTime higher task w ∧ w ≤ task.period.toNat

/-- `P` of each task, with the tasks before it. -/
def ForEach (P : List TaskTiming → TaskTiming → Prop) : List TaskTiming → List TaskTiming → Prop
  | _, [] => True
  | higher, task :: tasks => P higher task ∧ ForEach P (higher ++ [task]) tasks

/-- The values are the response times of the tasks. -/
def Reported : List TaskTiming → List TaskTiming → List UInt32 → Prop
  | _, [], [] => True
  | higher, task :: tasks, w :: ws => IsResponseTime higher task w.toNat ∧ Reported (higher ++ [task]) tasks ws
  | _, _, _ => False

/-- `CalculateWCRT` ends. -/
def Terminates (first : TaskTiming) (tasks : List TaskTiming) : Prop :=
  ∃ fuel r, calculateWCRT fuel first tasks = some r

/-- `CalculateWCRT` reports `schedulable` exactly if every task is, and then their response times. -/
def Exact (first : TaskTiming) (tasks : List TaskTiming) : Prop :=
  ∃ fuel r, calculateWCRT fuel first tasks = some r ∧
    (r.1 = true ↔ ForEach Schedulable [] (first :: tasks)) ∧
      (r.1 = true → Reported [] (first :: tasks) r.2)

/-- The iterates from the execution time, up to the first beyond the period, are 32-bit values. -/
def Fits (higher : List TaskTiming) (task : TaskTiming) : Prop :=
  ∀ k, (∀ j < k, (demandOf higher task.duration.toNat)^[j + 1] task.duration.toNat ≤ task.period.toNat) →
    (demandOf higher task.duration.toNat)^[k + 1] task.duration.toNat < 2 ^ 32

/-- The values that `HrtInit` admits. -/
structure Admitted (t : TaskTiming) : Prop where
  duration_pos : 0 < t.duration.toNat
  duration_lt : t.duration.toNat < 2147483647
  period_pos : 0 < t.period.toNat
  period_lt : t.period.toNat < 2147483647

theorem demandOf_mono (higher : List TaskTiming) (c : ℕ) : Monotone (demandOf higher c) := by
  intro w w' hw
  apply Nat.add_le_add_left
  apply List.sum_le_sum
  intro t _
  apply Nat.mul_le_mul_right
  rw [Nat.ceilDiv_eq_add_pred_div, Nat.ceilDiv_eq_add_pred_div]
  exact Nat.div_le_div_right (by omega)

theorem le_demandOf (higher : List TaskTiming) (c w : ℕ) : c ≤ demandOf higher c w :=
  Nat.le_add_right _ _

/-! ## The words -/

theorem idivCeil_toNat (x y : UInt32) : (idivCeil x y).toNat = x.toNat ⌈/⌉ y.toNat := by
  have hx := x.toNat_lt
  rw [Nat.ceilDiv_eq_add_pred_div]
  unfold idivCeil
  by_cases hy : y = 0
  · subst hy
    simp
  · have hy' : 0 < y.toNat := Nat.pos_of_ne_zero fun h => hy (UInt32.toNat_inj.mp h)
    have hdiv := Nat.div_add_mod x.toNat y.toNat
    have hlt := Nat.mod_lt x.toNat hy'
    rw [if_pos hy]
    have hsplit : x.toNat + y.toNat - 1 = y.toNat * (x.toNat / y.toNat) + (x.toNat % y.toNat + y.toNat - 1) := by
      omega
    rw [hsplit, Nat.mul_add_div hy']
    split
    · next hmod =>
      have hmod' : 0 < x.toNat % y.toNat := by simpa [UInt32.lt_iff_toNat_lt] using hmod
      have hone : (x.toNat % y.toNat + y.toNat - 1) / y.toNat = 1 := by
        apply Nat.div_eq_of_lt_le <;> omega
      have htwo : 2 ≤ y.toNat := by omega
      have hhalf : x.toNat / y.toNat ≤ x.toNat / 2 := Nat.div_le_div_left htwo (by omega)
      rw [hone, UInt32.toNat_add, UInt32.toNat_div]
      apply Nat.mod_eq_of_lt
      show x.toNat / y.toNat + 1 < 2 ^ 32
      omega
    · next hmod =>
      have hmod' : x.toNat % y.toNat = 0 := by
        simpa [UInt32.lt_iff_toNat_lt] using hmod
      have hzero : (x.toNat % y.toNat + y.toNat - 1) / y.toNat = 0 := by
        apply Nat.div_eq_of_lt
        omega
      rw [hzero, UInt32.toNat_div, Nat.add_zero]

/-- The sum is taken modulo 2^32. -/
theorem demand_toNat (higher : List TaskTiming) (c w : UInt32) :
    (demand higher c w).toNat = demandOf higher c.toNat w.toNat % 2 ^ 32 := by
  have hc := c.toNat_lt
  induction higher generalizing c with
  | nil =>
    show c.toNat = (c.toNat + 0) % 2 ^ 32
    omega
  | cons t higher ih =>
    have hstep : demand (t :: higher) c w = demand higher (c + idivCeil w t.period * t.duration) w := rfl
    rw [hstep, ih _ (UInt32.toNat_lt _)]
    simp only [demandOf, List.map_cons, List.sum_cons, UInt32.toNat_add, UInt32.toNat_mul, idivCeil_toNat]
    omega

theorem nextItr_eq_search (higher : List TaskTiming) (c t : UInt32) (fuel : ℕ) (w : UInt32) :
    nextItr higher c t fuel w = search (demand higher c) t fuel w := by
  induction fuel generalizing w with
  | zero => rfl
  | succ fuel ih =>
    unfold nextItr search
    dsimp only
    rw [ih]

/-! ## One task -/

/-- The sums fit if the one for the longer of the execution time and the period does. -/
theorem fits_of_demandOf (h : demandOf higher task.duration.toNat (max task.duration.toNat task.period.toNat) < 2 ^ 32) :
    Fits higher task := by
  intro k hbefore
  have hle : (demandOf higher task.duration.toNat)^[k] task.duration.toNat ≤
      max task.duration.toNat task.period.toNat := by
    cases k with
    | zero => exact le_max_left _ _
    | succ k => exact (hbefore k (Nat.lt_succ_self k)).trans (le_max_right _ _)
  rw [Function.iterate_succ_apply']
  exact (demandOf_mono higher _ hle).trans_lt h

theorem nextItr_toNat (hfits : Fits higher task) (fuel : ℕ) :
    (nextItr higher task.duration task.period fuel task.duration).map UInt32.toNat =
      search (demandOf higher task.duration.toNat) task.period.toNat fuel task.duration.toNat := by
  rw [nextItr_eq_search]
  apply search_map (fun _ _ => UInt32.toNat_inj.mp) (fun _ _ => UInt32.le_iff_toNat_le.symm)
  intro k hbefore z hz
  have hlt := hfits k fun j hj => by
    rw [Function.iterate_succ_apply']
    exact (hbefore j hj).2
  rw [Function.iterate_succ_apply'] at hlt
  rw [demand_toNat, hz]
  exact Nat.mod_eq_of_lt hlt

theorem nextItr_mono {fuel' : ℕ} {c t w0 w : UInt32} (hle : fuel ≤ fuel')
    (h : nextItr higher c t fuel w0 = some w) : nextItr higher c t fuel' w0 = some w := by
  rw [nextItr_eq_search] at h ⊢
  exact search_mono hle h

/-- The fixed points are at least the execution time. -/
theorem isResponseTime_iff {w : ℕ} : IsResponseTime higher task w ↔
    IsLeast {z | task.duration.toNat ≤ z ∧ demandOf higher task.duration.toNat z = z} w := by
  have hset : {z | demandOf higher task.duration.toNat z = z} =
      {z | task.duration.toNat ≤ z ∧ demandOf higher task.duration.toNat z = z} := by
    ext z
    constructor
    · intro hz
      exact ⟨(le_demandOf higher _ z).trans_eq hz, hz⟩
    · intro hz
      exact hz.2
  unfold IsResponseTime
  rw [hset]

/-- Where the sums fit, the search for the response time of a task is exact. -/
theorem nextItr_spec (hfits : Fits higher task) :
    ∃ fuel w, nextItr higher task.duration task.period fuel task.duration = some w ∧
      (w ≤ task.period ↔ Schedulable higher task) ∧ (w ≤ task.period → IsResponseTime higher task w.toNat) := by
  have hmono := demandOf_mono higher task.duration.toNat
  have hstart := le_demandOf higher task.duration.toNat task.duration.toNat
  obtain ⟨fuel, y, hy⟩ : Ends (demandOf higher task.duration.toNat) task.period.toNat task.duration.toNat :=
    ends_of_monotone hmono hstart
  have hspec := search_spec hmono hstart hy
  rw [← nextItr_toNat hfits, Option.map_eq_some_iff] at hy
  obtain ⟨w, hw, rfl⟩ := hy
  have hle : w ≤ task.period ↔ w.toNat ≤ task.period.toNat := UInt32.le_iff_toNat_le
  have hresponse : w ≤ task.period → IsResponseTime higher task w.toNat := by
    intro h
    rw [if_pos (hle.mp h)] at hspec
    exact isResponseTime_iff.mpr hspec
  refine ⟨fuel, w, hw, ⟨fun h => ⟨w.toNat, hresponse h, hle.mp h⟩, ?_⟩, hresponse⟩
  rintro ⟨v, hv, hvt⟩
  by_contra hgt
  rw [if_neg (mt hle.mpr hgt)] at hspec
  have hleast := (isResponseTime_iff.mp hv).1
  exact absurd (hspec v hleast.1 hleast.2) (not_lt.mpr hvt)

/-! ## All tasks -/

theorem ForEach.congr {P Q : List TaskTiming → TaskTiming → Prop} (h : ∀ higher task, P higher task ↔ Q higher task) :
    ForEach P higher tasks ↔ ForEach Q higher tasks := by
  induction tasks generalizing higher with
  | nil => exact Iff.rfl
  | cons task tasks ih => exact and_congr (h higher task) ih

theorem wcrtLoop_mono {fuel' : ℕ} {r : Bool × List UInt32} (hle : fuel ≤ fuel')
    (h : wcrtLoop fuel higher tasks = some r) : wcrtLoop fuel' higher tasks = some r := by
  induction tasks generalizing higher r with
  | nil => exact h
  | cons task tasks ih =>
    unfold wcrtLoop at h ⊢
    cases hw : nextItr higher task.duration task.period fuel task.duration with
    | none => rw [hw] at h; exact nomatch h
    | some w =>
      rw [hw] at h
      obtain ⟨r', hr', hr⟩ := Option.map_eq_some_iff.mp h
      rw [nextItr_mono hle hw]
      dsimp only
      rw [ih hr', Option.map_some, hr]

/-- INTERNAL: the loop over the tasks, in one more step. -/
theorem wcrtLoop_cons {fuel' : ℕ} {w : UInt32} {r : Bool × List UInt32}
    (hw : nextItr higher task.duration task.period fuel task.duration = some w)
    (hr : wcrtLoop fuel' (higher ++ [task]) tasks = some r) :
    wcrtLoop (max fuel fuel') higher (task :: tasks) = some (decide (w ≤ task.period) && r.1, w :: r.2) := by
  unfold wcrtLoop
  rw [nextItr_mono (le_max_left _ _) hw]
  dsimp only
  rw [wcrtLoop_mono (le_max_right _ _) hr, Option.map_some]

theorem wcrtLoop_spec (hfits : ForEach Fits higher tasks) :
    ∃ fuel r, wcrtLoop fuel higher tasks = some r ∧ (r.1 = true ↔ ForEach Schedulable higher tasks) ∧
      (r.1 = true → Reported higher tasks r.2) := by
  induction tasks generalizing higher with
  | nil => exact ⟨0, (true, []), rfl, ⟨fun _ => trivial, fun _ => rfl⟩, fun _ => trivial⟩
  | cons task tasks ih =>
    obtain ⟨hone, hrest⟩ := hfits
    obtain ⟨fuel, w, hw, hsched, hresponse⟩ := nextItr_spec hone
    obtain ⟨fuel', r, hr, hall, hreport⟩ := ih hrest
    refine ⟨max fuel fuel', _, wcrtLoop_cons hw hr, ?_, ?_⟩
    · rw [Bool.and_eq_true, decide_eq_true_iff, hsched, hall]
      rfl
    · intro h
      obtain ⟨hle, hr₁⟩ := Bool.and_eq_true_iff.mp h
      exact ⟨hresponse (of_decide_eq_true hle), hreport hr₁⟩

theorem wcrtLoop_ends_iff : (∃ fuel r, wcrtLoop fuel higher tasks = some r) ↔
    ForEach (fun higher task => Ends (demand higher task.duration) task.period task.duration) higher tasks := by
  induction tasks generalizing higher with
  | nil => exact ⟨fun _ => trivial, fun _ => ⟨0, (true, []), rfl⟩⟩
  | cons task tasks ih =>
    constructor
    · rintro ⟨fuel, r, h⟩
      unfold wcrtLoop at h
      cases hw : nextItr higher task.duration task.period fuel task.duration with
      | none => rw [hw] at h; exact nomatch h
      | some w =>
        rw [hw] at h
        obtain ⟨r', hr', -⟩ := Option.map_eq_some_iff.mp h
        rw [nextItr_eq_search] at hw
        exact ⟨⟨fuel, w, hw⟩, ih.mp ⟨fuel, r', hr'⟩⟩
    · rintro ⟨⟨fuel, w, hw⟩, hrest⟩
      obtain ⟨fuel', r, hr⟩ := ih.mpr hrest
      rw [← nextItr_eq_search] at hw
      exact ⟨_, _, wcrtLoop_cons hw hr⟩

/-! ## The first task -/

/-- Without a task of higher priority the response time is the execution time. -/
theorem isResponseTime_first {w : ℕ} : IsResponseTime [] task w ↔ w = task.duration.toNat := by
  have hset : {z | demandOf [] task.duration.toNat z = z} = {task.duration.toNat} := by
    ext z
    exact eq_comm
  unfold IsResponseTime
  rw [hset]
  constructor
  · intro h
    exact h.1
  · rintro rfl
    exact isLeast_singleton

theorem schedulable_first : Schedulable [] first ↔ first.duration ≤ first.period := by
  rw [UInt32.le_iff_toNat_le]
  constructor
  · rintro ⟨w, hw, hle⟩
    rwa [isResponseTime_first.mp hw] at hle
  · intro hle
    exact ⟨first.duration.toNat, isResponseTime_first.mpr rfl, hle⟩

/-- A task below one that needs its whole period gets no time. -/
theorem not_schedulable_below (hfirst : Admitted first) (htask : Admitted task)
    (hle : first.period ≤ first.duration) : ¬Schedulable [first] task := by
  rintro ⟨w, hw, -⟩
  have hfixed : demandOf [first] task.duration.toNat w = w := hw.1
  have hceil : w ≤ first.period.toNat * (w ⌈/⌉ first.period.toNat) :=
    (ceilDiv_le_iff_le_mul hfirst.period_pos).mp le_rfl
  have hmul := Nat.mul_le_mul_right (w ⌈/⌉ first.period.toNat) (UInt32.le_iff_toNat_le.mp hle)
  have hpos := htask.duration_pos
  unfold demandOf at hfixed
  rw [List.map_singleton, List.sum_singleton, Nat.mul_comm (w ⌈/⌉ _)] at hfixed
  omega

/-! ## The test -/

/-- **The response-time test.**  Where the sums of all tasks fit in 32 bits, `CalculateWCRT` ends and is exact,
if and only if it is not asked about a single task whose execution time is longer than its period. -/
theorem calculateWCRT_exact (first : TaskTiming) (tasks : List TaskTiming)
    (hadmitted : ∀ t ∈ first :: tasks, Admitted t) (hfits : ForEach Fits [first] tasks) :
    Exact first tasks ↔ (tasks = [] → first.duration ≤ first.period) := by
  obtain ⟨fuel, r, hr, hall, hreport⟩ := wcrtLoop_spec hfits
  have hcalculate : calculateWCRT fuel first tasks = some (r.1, first.duration :: r.2) := by
    unfold calculateWCRT
    rw [hr, Option.map_some]
  constructor
  · rintro ⟨fuel', r', hr', hall', -⟩ rfl
    obtain rfl : r' = (true, [first.duration]) := (Option.some.inj hr').symm
    exact schedulable_first.mp (hall'.mp rfl).1
  · intro hfirst
    refine ⟨fuel, _, hcalculate, ?_, ?_⟩
    · constructor
      · intro h
        have hrest := hall.mp h
        refine ⟨?_, hrest⟩
        cases tasks with
        | nil => exact schedulable_first.mpr (hfirst rfl)
        | cons task tasks =>
          by_contra hnot
          rw [schedulable_first, UInt32.not_le] at hnot
          apply not_schedulable_below (hadmitted first (by simp)) (hadmitted task (by simp)) _ hrest.1
          exact UInt32.le_of_lt hnot
      · intro h
        exact hall.mpr h.2
    · intro h
      exact ⟨isResponseTime_first.mpr rfl, hreport h⟩

theorem twoTasks_exact : Exact ⟨1, 4⟩ [⟨2, 6⟩] ↔ (([⟨2, 6⟩] : List TaskTiming) = [] → (1 : UInt32) ≤ 4) := by
  apply calculateWCRT_exact ⟨1, 4⟩ [⟨2, 6⟩]
  · intro t ht
    obtain rfl | rfl : t = ⟨1, 4⟩ ∨ t = ⟨2, 6⟩ := by simpa using ht
    · exact ⟨by decide, by decide, by decide, by decide⟩
    · exact ⟨by decide, by decide, by decide, by decide⟩
  · exact ⟨fits_of_demandOf (by decide), trivial⟩

/-- INTERNAL: a test that passes with the first task not schedulable. -/
theorem not_exact_of_passes {ws : List UInt32} (hpass : calculateWCRT fuel first tasks = some (true, ws))
    (hlong : first.period < first.duration) : ¬Exact first tasks := by
  rintro ⟨fuel', r', hr', hall, -⟩
  obtain ⟨r, hr, hpair⟩ := Option.map_eq_some_iff.mp hpass
  obtain ⟨r'', hr'', hpair'⟩ := Option.map_eq_some_iff.mp hr'
  have hsame := (wcrtLoop_mono (le_max_left fuel fuel') hr).symm.trans (wcrtLoop_mono (le_max_right fuel fuel') hr'')
  obtain rfl : r = r'' := Option.some.inj hsame
  obtain rfl : r' = (true, ws) := hpair'.symm.trans hpair
  have hfirst := schedulable_first.mp (hall.mp rfl).1
  exact absurd hlong (UInt32.not_lt.mpr hfirst)

/-- A task whose execution time is longer than its period passes the test alone, and above a task whose sum
wraps. -/
theorem overlongTasks_pass :
    (¬∀ first, Admitted first → Exact first []) ∧
      ¬∀ first task, Admitted first → Admitted task → Exact first [task] := by
  constructor
  · intro h
    have hpass : calculateWCRT 0 ⟨2, 1⟩ [] = some (true, [2]) := rfl
    apply not_exact_of_passes hpass (by decide)
    exact h _ ⟨by decide, by decide, by decide, by decide⟩
  · intro h
    have hpass : calculateWCRT 2 ⟨1073741824, 268435456⟩ [⟨1, 2147483646⟩] =
        some (true, [1073741824, 1073741825]) := by decide
    apply not_exact_of_passes hpass (by decide)
    exact h _ _ ⟨by decide, by decide, by decide, by decide⟩ ⟨by decide, by decide, by decide, by decide⟩

/-! ## The end of the loop -/

instance finiteUInt32 : Finite UInt32 := Finite.of_injective UInt32.toFin fun _ _ => UInt32.toFin_inj.mp

/-- **The end of the loop.**  `CalculateWCRT` ends if and only if no 32-bit sum that moves and is at most the
period is met twice; sums that do not wrap are not. -/
theorem calculateWCRT_terminates (first : TaskTiming) (tasks : List TaskTiming) :
    (Terminates first tasks ↔
      ForEach (fun higher task => ¬ComesBack (demand higher task.duration) task.period task.duration)
        [first] tasks) ∧
      (ForEach Fits [first] tasks → Terminates first tasks) := by
  have hloop : Terminates first tasks ↔ ∃ fuel r, wcrtLoop fuel [first] tasks = some r := by
    constructor
    · rintro ⟨fuel, r, h⟩
      obtain ⟨r', hr', -⟩ := Option.map_eq_some_iff.mp h
      exact ⟨fuel, r', hr'⟩
    · rintro ⟨fuel, r, h⟩
      refine ⟨fuel, (r.1, first.duration :: r.2), ?_⟩
      unfold calculateWCRT
      rw [h, Option.map_some]
  constructor
  · rw [hloop, wcrtLoop_ends_iff]
    apply ForEach.congr
    intro higher task
    exact ends_iff_not_comesBack
  · intro hfits
    obtain ⟨fuel, r, h, -⟩ := wcrtLoop_spec hfits
    exact hloop.mpr ⟨fuel, r, h⟩

/-- Four times the execution time of the first task is 2^32: the sums of the second task are in turn
2^30 + 1 and 1. -/
theorem overload_runs_on : ¬∀ first tasks, (∀ t ∈ first :: tasks, Admitted t) → Terminates first tasks := by
  intro h
  obtain ⟨fuel, r, hr⟩ := h ⟨1073741824, 335544320⟩ [⟨1, 2147483646⟩] fun t ht => by
    obtain rfl | rfl : t = ⟨1073741824, 335544320⟩ ∨ t = ⟨1, 2147483646⟩ := by simpa using ht
    · exact ⟨by decide, by decide, by decide, by decide⟩
    · exact ⟨by decide, by decide, by decide, by decide⟩
  obtain ⟨r', hr', -⟩ := Option.map_eq_some_iff.mp hr
  have hends := (wcrtLoop_ends_iff.mp ⟨fuel, r', hr'⟩).1
  apply ends_iff_not_comesBack.mp hends
  refine ⟨0, 2, by decide, by decide, by decide, ?_⟩
  intro k hk
  interval_cases k
  · decide
  · decide

end Stk.Analysis
