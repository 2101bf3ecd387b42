import Mathlib.Data.Finset.Max
import Stk.Analysis.SleepAware
import Stk.Analysis.StrategyCalls
import Stk.Foundation.GreedyShares

/-!
# The shares of smooth weighted round robin

`GetNext` of `SwitchStrategySmoothWeightedRoundRobin` is a round of `GreedyShares`: every task of
`m_tasks` earns its weight, and the task that is returned pays `m_total_weight`
(`getNext_round`).  With a fixed set of tasks the shares are therefore exact
(`run_proportionalShare`).

The current weights are `int32_t`.  They go further than `m_total_weight` does, up to the number
of tasks times the largest weight, so that it is this product and not the sum of the weights that
has to fit (`manyTasks_overflow`).
-/

set_option autoImplicit false

namespace Stk.Analysis

open Stk.Model GreedyShares
open SmoothWeightedRoundRobin (scanStep Scan)

variable {α : Type} [DecidableEq α] {v : TaskView α} {s s' : SmoothWeightedRoundRobin α}

/-! ## The scan -/

/-- INTERNAL: the weights after the scan of `GetNext` over tasks that are visited once. -/
theorem scan_currentWeight (v : TaskView α) (l : List α) (hl : l.Nodup) (c : Scan α) (a : α) :
    (l.foldl (scanStep v) c).currentWeight a =
      if a ∈ l then c.currentWeight a + v.weight a else c.currentWeight a := by
  have hstep : ∀ (c : Scan α) (b : α), (scanStep v c b).currentWeight =
      Function.update c.currentWeight b (c.currentWeight b + v.weight b) := by
    intro c b
    unfold scanStep
    dsimp only
    split
    · rfl
    · rfl
  induction l generalizing c with
  | nil => simp
  | cons b l ih =>
    obtain ⟨hb, hrest⟩ := List.nodup_cons.mp hl
    rw [List.foldl_cons, ih hrest, hstep]
    by_cases hab : a = b
    · subst hab
      simp [hb]
    · simp [hab]

/-- INTERNAL: the maximum of the scan and the task that has it. -/
theorem scan_max (v : TaskView α) (l : List α) (hl : l.Nodup) (c : Scan α) :
    (∀ a ∈ l, c.currentWeight a + v.weight a ≤ (l.foldl (scanStep v) c).maxWeight) ∧
      c.maxWeight ≤ (l.foldl (scanStep v) c).maxWeight ∧
      (((l.foldl (scanStep v) c).next = c.next ∧ (l.foldl (scanStep v) c).maxWeight = c.maxWeight) ∨
        ∃ x ∈ l, (l.foldl (scanStep v) c).next = some x ∧
          (l.foldl (scanStep v) c).maxWeight = c.currentWeight x + v.weight x) := by
  induction l generalizing c with
  | nil => simp
  | cons b l ih =>
    obtain ⟨hb, hrest⟩ := List.nodup_cons.mp hl
    obtain ⟨hmax, hle, hnext⟩ := ih hrest (scanStep v c b)
    have hother : ∀ a ∈ l, (scanStep v c b).currentWeight a = c.currentWeight a := by
      intro a ha
      have hab : a ≠ b := by
        rintro rfl
        exact hb ha
      simpa [hab] using scan_currentWeight v [b] (List.nodup_singleton b) c a
    have hfirst : c.currentWeight b + v.weight b ≤ (scanStep v c b).maxWeight ∧
        c.maxWeight ≤ (scanStep v c b).maxWeight ∧
        (((scanStep v c b).next = c.next ∧ (scanStep v c b).maxWeight = c.maxWeight) ∨
          ((scanStep v c b).next = some b ∧
            (scanStep v c b).maxWeight = c.currentWeight b + v.weight b)) := by
      unfold scanStep
      dsimp only
      split
      · next hgt => exact ⟨le_rfl, hgt.le, .inr ⟨rfl, rfl⟩⟩
      · next hle => exact ⟨not_lt.mp hle, le_rfl, .inl ⟨rfl, rfl⟩⟩
    rw [List.foldl_cons]
    refine ⟨?_, hfirst.2.1.trans hle, ?_⟩
    · intro a ha
      rcases List.mem_cons.mp ha with rfl | ha
      · exact hfirst.1.trans hle
      · rw [← hother a ha]
        exact hmax a ha
    · rcases hnext with ⟨hsame, hweight⟩ | ⟨x, hx, hsome, hweight⟩
      · rcases hfirst.2.2 with ⟨hfst, hfw⟩ | ⟨hfst, hfw⟩
        · exact .inl ⟨hsame.trans hfst, hweight.trans hfw⟩
        · exact .inr ⟨b, List.mem_cons_self, hsame.trans hfst, hweight.trans hfw⟩
      · rw [hother x hx] at hweight
        exact .inr ⟨x, List.mem_cons_of_mem b hx, hsome, hweight⟩

/-- INTERNAL: `GetNext` is a round on the runnable tasks.  It fails only when no task has more than
`INT32_MIN`. -/
theorem getNext_round (hnodup : s.tasks.Nodup) (hne : s.tasks ≠ [])
    (htotal : s.totalWeight = ∑ t ∈ s.tasks.toFinset, v.weight t) :
    (s.getNext v = .error .nullCursor ∧ ∀ t ∈ s.tasks, s.currentWeight t + v.weight t ≤ int32Min) ∨
    ∃ x s', s.getNext v = .ok (some x, s') ∧ x ∈ s.tasks ∧
      Round v.weight s.tasks.toFinset s.currentWeight s'.currentWeight x ∧
      s'.tasks = s.tasks ∧ s'.sleep = s.sleep ∧ s'.totalWeight = s.totalWeight := by
  obtain ⟨hmax, -, hnext⟩ := scan_max v s.tasks hnodup ⟨s.currentWeight, int32Min, none⟩
  have hweights := scan_currentWeight v s.tasks hnodup ⟨s.currentWeight, int32Min, none⟩
  unfold SmoothWeightedRoundRobin.getNext
  rw [if_neg hne]
  generalize s.tasks.foldl (scanStep v) ⟨s.currentWeight, int32Min, none⟩ = c at hmax hnext hweights
  dsimp only at hmax hnext hweights ⊢
  rcases hnext with ⟨hnone, hmin⟩ | ⟨x, hx, hsome, hweight⟩
  · left
    rw [hnone]
    refine ⟨rfl, ?_⟩
    intro t ht
    rw [← hmin]
    exact hmax t ht
  · right
    rw [hsome]
    refine ⟨x, _, rfl, hx, ?_, rfl, rfl, rfl⟩
    constructor
    · exact List.mem_toFinset.mpr hx
    · intro a ha
      rw [← hweight]
      exact hmax a (List.mem_toFinset.mp ha)
    · simp [SmoothWeightedRoundRobin.setCurrentWeight, hweight, htotal]
    · intro a ha hax
      have hmem := List.mem_toFinset.mp ha
      simp [SmoothWeightedRoundRobin.setCurrentWeight, hax, hweights, hmem]

/-! ## A fixed set of tasks -/

/-- A fresh strategy to which the tasks of `l` have been added, in this order. -/
def added (v : TaskView α) (l : List α) : SmoothWeightedRoundRobin α :=
  replay (l.map (fun t => (v, .addTask t)))

/-- `k` calls of `GetNext`. -/
def nextCalls (v : TaskView α) (k : ℕ) : List (TaskView α × StrategyCall α) :=
  List.replicate k (v, .getNext)

omit [DecidableEq α] in
theorem nextCalls_add (v : TaskView α) (j k : ℕ) : nextCalls v (j + k) = nextCalls v j ++ nextCalls v k :=
  List.replicate_add j k _

/-- The strategy of `added` after `k` calls of `GetNext`. -/
def afterNext (v : TaskView α) (l : List α) (k : ℕ) : SmoothWeightedRoundRobin α :=
  (nextCalls v k).foldl stepCall (added v l)

/-- `INT32_MAX`. -/
def int32Max : ℤ := 2147483647

/-- The additions in the next call of `GetNext` stay inside `int32_t`. -/
def FitsInt32 (v : TaskView α) (s : SmoothWeightedRoundRobin α) : Prop :=
  ∀ t ∈ s.tasks, int32Min ≤ s.currentWeight t ∧ s.currentWeight t + v.weight t ≤ int32Max

/-- The tasks of `l` may be added. -/
structure Addable (v : TaskView α) (l : List α) : Prop where
  ne_nil : l ≠ []
  nodup : l.Nodup
  weight : ∀ t ∈ l, 0 < v.weight t ∧ v.weight t ≤ 0x7FFFFF

/-- INTERNAL: the strategy after the calls of `AddTask`. -/
theorem added_eq {l : List α} (h : l.Nodup) (hw : ∀ t ∈ l, 0 < v.weight t ∧ v.weight t ≤ 0x7FFFFF) :
    (added v l).tasks = l ∧ (added v l).sleep = [] ∧
      (added v l).totalWeight = ∑ t ∈ l.toFinset, v.weight t ∧ ∀ t ∈ l, (added v l).currentWeight t = noWeight := by
  induction l using List.reverseRecOn with
  | nil => exact ⟨rfl, rfl, rfl, fun t ht => nomatch ht⟩
  | append_singleton l x ih =>
    obtain ⟨hl, -, hdisj⟩ := List.nodup_append.mp h
    have hx : x ∉ l := by
      intro hmem
      exact hdisj x hmem x (List.mem_singleton.mpr rfl) rfl
    obtain ⟨htasks, hsleep, htotal, hcurrent⟩ := ih hl (fun t ht => hw t (List.mem_append_left [x] ht))
    have hstep : added v (l ++ [x]) = ((added v l).setCurrentWeight x noWeight).addActive v x := by
      have hadd : (added v l).addTask v x = .ok (((added v l).setCurrentWeight x noWeight).addActive v x) := by
        unfold SmoothWeightedRoundRobin.addTask
        rw [if_neg (not_not.mpr (hw x (by simp))), if_neg (by simp [htasks, hsleep, hx])]
      unfold added replay
      rw [List.map_append, List.foldl_append]
      exact stepCall_ok (c := .addTask x) rfl hadd
    rw [hstep]
    refine ⟨?_, hsleep, ?_, ?_⟩
    · simp [SmoothWeightedRoundRobin.addActive, SmoothWeightedRoundRobin.setCurrentWeight, htasks]
    · have hnot : x ∉ l.toFinset := by simpa using hx
      have hset : (l ++ [x]).toFinset = insert x l.toFinset := by
        ext t
        simp
      rw [hset, Finset.sum_insert hnot]
      simp only [SmoothWeightedRoundRobin.addActive, SmoothWeightedRoundRobin.setCurrentWeight, htotal]
      ring
    · intro t ht
      rcases List.mem_append.mp ht with hold | hnew
      · have htx : t ≠ x := by
          rintro rfl
          exact hx hold
        simpa [SmoothWeightedRoundRobin.addActive, SmoothWeightedRoundRobin.setCurrentWeight, htx]
          using hcurrent t hold
      · obtain rfl : t = x := by simpa using hnew
        simp [SmoothWeightedRoundRobin.addActive, SmoothWeightedRoundRobin.setCurrentWeight]

/-- A state of the strategy with the tasks of `l`, all of them runnable. -/
structure Members (v : TaskView α) (l : List α) (s : SmoothWeightedRoundRobin α) : Prop where
  tasks : s.tasks = l
  sleep : s.sleep = []
  total : s.totalWeight = ∑ t ∈ l.toFinset, v.weight t

/-- INTERNAL: calls of `GetNext` are rounds as long as the weights fit. -/
theorem nextCalls_rounds {l : List α} (hl : l.Nodup) (hne : l ≠ []) {k : ℕ} :
    ∀ {s : SmoothWeightedRoundRobin α}, Members v l s →
      (∀ j < k, ∃ t ∈ l, int32Min < ((nextCalls v j).foldl stepCall s).currentWeight t + v.weight t) →
      Members v l ((nextCalls v k).foldl stepCall s) ∧ (returns s (nextCalls v k)).length = k ∧
        Rounds v.weight l.toFinset s.currentWeight (returns s (nextCalls v k))
          ((nextCalls v k).foldl stepCall s).currentWeight := by
  induction k with
  | zero =>
    intro s hs _
    exact ⟨hs, rfl, .nil _⟩
  | succ k ih =>
    intro s hs hfit
    obtain ⟨t, ht, hgt⟩ := hfit 0 (Nat.succ_pos k)
    have hround := getNext_round (v := v) (s := s) (by rw [hs.tasks]; exact hl) (by rw [hs.tasks]; exact hne)
      (by rw [hs.tasks]; exact hs.total)
    rw [hs.tasks] at hround
    rcases hround with ⟨-, hlow⟩ | ⟨x, s', hok, -, hround, htasks, hsleep, htotal⟩
    · have hle := hlow t ht
      have hgt' : int32Min < s.currentWeight t + v.weight t := hgt
      omega
    · have hcall : StrategyCall.getNext.apply v s = .ok (some x, s') := hok
      have hstep : stepCall s (v, .getNext) = s' := by simp only [stepCall, hcall]
      have hreturned : returned s (v, .getNext) = [x] := by simp only [returned, hcall, Option.toList_some]
      have hs' : Members v l s' := ⟨htasks, hsleep.trans hs.sleep, htotal.trans hs.total⟩
      obtain ⟨hend, hlength, hrounds⟩ := ih hs' (by
        intro j hj
        have hlater := hfit (j + 1) (Nat.succ_lt_succ hj)
        rw [nextCalls, List.replicate_succ, List.foldl_cons, hstep] at hlater
        exact hlater)
      rw [nextCalls, List.replicate_succ, List.foldl_cons, hstep, returns, hreturned, hstep]
      refine ⟨hend, ?_, .cons hround hrounds⟩
      rw [List.singleton_append, List.length_cons]
      exact congrArg (· + 1) hlength

/-- INTERNAL: a state of equal current weights, from which calls of `GetNext` never fail. -/
theorem Members.rounds {l : List α} (hs : Members v l s) (hadd : Addable v l)
    (hsum : ∑ t ∈ l.toFinset, v.weight t ≤ int32Max) (hequal : ∀ t ∈ l, s.currentWeight t = noWeight) (k : ℕ) :
    Members v l ((nextCalls v k).foldl stepCall s) ∧ (returns s (nextCalls v k)).length = k ∧
      Rounds v.weight l.toFinset s.currentWeight (returns s (nextCalls v k))
        ((nextCalls v k).foldl stepCall s).currentWeight := by
  have hpos : ∀ t ∈ l.toFinset, 0 < v.weight t := fun t ht => (hadd.weight t (List.mem_toFinset.mp ht)).1
  have hequal' : ∀ t ∈ l.toFinset, s.currentWeight t = noWeight :=
    fun t ht => hequal t (List.mem_toFinset.mp ht)
  obtain ⟨t, ht⟩ := List.exists_mem_of_ne_nil l hadd.ne_nil
  apply nextCalls_rounds hadd.nodup hadd.ne_nil hs
  induction k with
  | zero =>
    intro j hj
    omega
  | succ k ih =>
    intro j hj
    rcases Nat.lt_succ_iff_lt_or_eq.mp hj with hlt | rfl
    · exact ih j hlt
    · obtain ⟨-, -, hrounds⟩ := nextCalls_rounds hadd.nodup hadd.ne_nil hs ih
      have hlow := hrounds.lt_balance hequal' hpos (List.mem_toFinset.mpr ht)
      have hweight := (hadd.weight t ht).1
      refine ⟨t, ht, ?_⟩
      unfold int32Max at hsum
      unfold noWeight at hlow
      unfold int32Min
      omega

/-- The sum of the weights of the tasks of `l`. -/
def weightSum (v : TaskView α) (l : List α) : ℕ := (∑ t ∈ l.toFinset, v.weight t).toNat

/-- Proportional share, with exact arithmetic in every call:

* every call returns a task, and its additions stay inside `int32_t`;
* after `k` calls, the number of times a task was returned differs from its share by less than the
  number of tasks;
* each window of as many calls as the weights add up to returns each task as often as its weight
  says, and starts with the current weights of the fresh strategy. -/
def ProportionalShare (v : TaskView α) (l : List α) : Prop :=
  (∀ k, FitsInt32 v (afterNext v l k) ∧ (returns (added v l) (nextCalls v k)).length = k ∧
    ∀ t ∈ l, |(weightSum v l : ℤ) * (returns (added v l) (nextCalls v k)).count t - k * v.weight t| <
      l.length * weightSum v l) ∧
  ∀ q, ∀ t ∈ l, (afterNext v l (q * weightSum v l)).currentWeight t = (added v l).currentWeight t ∧
    ((returns (afterNext v l (q * weightSum v l)) (nextCalls v (weightSum v l))).count t : ℤ) = v.weight t

/-- INTERNAL: the sum of the weights is at most the number of tasks times the largest weight. -/
theorem sum_weight_le {l : List α} (hadd : Addable v l) {B : ℤ}
    (hB : ∀ t ∈ l, l.length * v.weight t ≤ B) : ∑ t ∈ l.toFinset, v.weight t ≤ B := by
  have hcard : l.toFinset.card = l.length := List.toFinset_card_of_nodup hadd.nodup
  obtain ⟨t, ht, hmax⟩ := Finset.exists_max_image l.toFinset v.weight
    (List.toFinset_nonempty_iff l |>.mpr hadd.ne_nil)
  calc ∑ t ∈ l.toFinset, v.weight t ≤ l.toFinset.card • v.weight t := Finset.sum_le_card_nsmul _ _ _ hmax
    _ = l.length * v.weight t := by rw [hcard, nsmul_eq_mul]
    _ ≤ B := hB t (List.mem_toFinset.mp ht)

/-- **Exact proportional share.**  Tasks whose number times the largest weight fits an `int32_t`, such
as any 256 tasks. -/
theorem run_proportionalShare {l : List α} (hadd : Addable v l)
    (hfit : ∀ t ∈ l, l.length * v.weight t ≤ int32Max) : ProportionalShare v l := by
  have hsum := sum_weight_le hadd hfit
  have hcard : (l.toFinset.card : ℤ) = l.length := by rw [List.toFinset_card_of_nodup hadd.nodup]
  have hpos : ∀ t ∈ l.toFinset, 0 < v.weight t := fun t ht => (hadd.weight t (List.mem_toFinset.mp ht)).1
  obtain ⟨htasks, hsleep, htotal, hequal⟩ := added_eq hadd.nodup hadd.weight
  have hholds : Members v l (added v l) := ⟨htasks, hsleep, htotal⟩
  have hequal' : ∀ t ∈ l.toFinset, (added v l).currentWeight t = noWeight :=
    fun t ht => hequal t (List.mem_toFinset.mp ht)
  have hW : (weightSum v l : ℤ) = ∑ t ∈ l.toFinset, v.weight t :=
    Int.toNat_of_nonneg (Finset.sum_nonneg (fun t ht => (hpos t ht).le))
  refine ⟨?_, ?_⟩
  · intro k
    obtain ⟨hend, hlength, hrounds⟩ := hholds.rounds hadd hsum hequal k
    refine ⟨?_, hlength, ?_⟩
    · intro t ht
      have hmem : t ∈ l := by rw [← hend.tasks]; exact ht
      have hmem' := List.mem_toFinset.mpr hmem
      have hlow := hrounds.lt_balance hequal' hpos hmem'
      -- the largest weight bounds how far ahead a task can be
      obtain ⟨u, hu, hmax⟩ := Finset.exists_max_image l.toFinset v.weight ⟨t, hmem'⟩
      have hhigh := hrounds.balance_le_mul hequal' (M := v.weight u)
        (fun a ha => ⟨(hpos a ha).le, hmax a ha⟩) hmem'
      have hbound := hfit u (List.mem_toFinset.mp hu)
      have hle := hmax t hmem'
      rw [hcard] at hhigh
      unfold int32Max at hsum hbound
      unfold noWeight at hlow hhigh
      unfold int32Min int32Max
      rw [show afterNext v l k = (nextCalls v k).foldl stepCall (added v l) from rfl]
      constructor
      · linarith
      · linarith
    · intro t ht
      have hmem' := List.mem_toFinset.mpr ht
      have hlow := hrounds.lt_balance hequal' hpos hmem'
      have hhigh := hrounds.balance_le hequal' hpos hmem'
      have hbalance := hrounds.balance hmem'
      rw [hequal' t hmem', hlength] at hbalance
      rw [hcard] at hhigh
      have hone : (1 : ℤ) ≤ l.length := by
        have := List.length_pos_of_mem ht
        omega
      have hWpos : 0 < ∑ t ∈ l.toFinset, v.weight t := Finset.sum_pos hpos ⟨t, hmem'⟩
      have hmul : ∑ t ∈ l.toFinset, v.weight t ≤ l.length * ∑ t ∈ l.toFinset, v.weight t :=
        le_mul_of_one_le_left hWpos.le hone
      rw [hW, abs_lt]
      constructor
      · linarith
      · linarith
  · intro q t ht
    have hmem' := List.mem_toFinset.mpr ht
    obtain ⟨hend, hlength, hrounds⟩ := hholds.rounds hadd hsum hequal (q * weightSum v l)
    have hback : ∀ u ∈ l, (afterNext v l (q * weightSum v l)).currentWeight u = noWeight := by
      intro u hu
      apply (hrounds.count_eq hequal' hpos (q := q) _ (List.mem_toFinset.mpr hu)).2
      rw [hlength]
      push_cast
      rw [hW]
    obtain ⟨-, hlength', hrounds'⟩ := hend.rounds hadd hsum hback (weightSum v l)
    refine ⟨(hback t ht).trans (hequal t ht).symm, ?_⟩
    have hexact := (hrounds'.count_eq (fun u hu => hback u (List.mem_toFinset.mp hu)) hpos (q := 1)
      (by rw [hlength', hW]; push_cast; ring) hmem').1
    rw [Nat.cast_one, one_mul] at hexact
    exact hexact

/-- Two tasks of weights 2 and 1. -/
def twoWeights : TaskView ℕ := ⟨fun t => if t = 0 then 2 else 1, fun _ => 0, fun _ => false, fun _ => 0, fun _ => 0⟩

theorem twoWeights_share : Addable twoWeights [0, 1] ∧
    (∀ t ∈ [0, 1], ([0, 1] : List ℕ).length * twoWeights.weight t ≤ int32Max) ∧
    ProportionalShare twoWeights [0, 1] ∧ returns (added twoWeights [0, 1]) (nextCalls twoWeights 6) = [0, 1, 0, 0, 1, 0] := by
  have hadd : Addable twoWeights [0, 1] := ⟨by decide, by decide, by decide⟩
  have hfit : ∀ t ∈ [0, 1], ([0, 1] : List ℕ).length * twoWeights.weight t ≤ int32Max := by decide
  exact ⟨hadd, hfit, run_proportionalShare hadd hfit, by decide +kernel⟩

/-- 255 tasks of the largest weight, and two tasks of a smaller one. -/
def manyTasks : TaskView ℕ :=
  ⟨fun t => if t < 255 then 0x7FFFFF else 1000000, fun _ => 0, fun _ => false, fun _ => 0, fun _ => 0⟩

/-- INTERNAL: one of the two light tasks is returned by then. -/
theorem manyTasks_light {s : SmoothWeightedRoundRobin ℕ} {xs : List ℕ} {y' : ℕ → ℤ}
    (hequal : ∀ t ∈ Finset.range 257, s.currentWeight t = noWeight) (hlength : xs.length = 257)
    (hrounds : Rounds manyTasks.weight (Finset.range 257) s.currentWeight xs y') :
    2 ≤ xs.count 255 + xs.count 256 := by
  by_contra hless
  have hsum := hrounds.sum_count
  have hW : ∑ t ∈ Finset.range 257, manyTasks.weight t = 2141094785 := by decide +kernel
  -- a light task that was never returned lets every other task pass once
  obtain ⟨a, ha, haw, hxs⟩ : ∃ a ∈ Finset.range 257, manyTasks.weight a = 1000000 ∧ a ∉ xs := by
    by_cases h255 : xs.count 255 = 0
    · exact ⟨255, by simp, rfl, List.count_eq_zero.mp h255⟩
    · exact ⟨256, by simp, rfl, List.count_eq_zero.mp (by omega)⟩
  have honce : ∀ b ∈ Finset.range 255, xs.count b ≤ 1 := by
    intro b hb
    have hlt := Finset.mem_range.mp hb
    have hbw : manyTasks.weight b = 0x7FFFFF := if_pos hlt
    have hb' : b ∈ Finset.range 257 := Finset.mem_range.mpr (by omega)
    apply hrounds.count_le_one ha hb' hxs
    · rw [haw, hbw]
      decide
    · rw [hequal a ha, hequal b hb', hlength, haw, hbw, hW]
      decide
  have hheavy : ∑ b ∈ Finset.range 255, xs.count b ≤ 255 := by
    have hle := Finset.sum_le_card_nsmul _ _ 1 honce
    simpa using hle
  rw [Finset.sum_range_succ, Finset.sum_range_succ, hlength] at hsum
  omega

/-- INTERNAL: fewer than 510 of 511 calls are left for the 255 heavy tasks. -/
theorem manyTasks_heavy {y y' : ℕ → ℤ} {xs : List ℕ} (hlength : xs.length = 511)
    (hrounds : Rounds manyTasks.weight (Finset.range 257) y xs y') (hlight : 2 ≤ xs.count 255 + xs.count 256) :
    ∃ b ∈ Finset.range 255, xs.count b ≤ 1 := by
  have hcount := hrounds.sum_count
  rw [Finset.sum_range_succ, Finset.sum_range_succ, hlength] at hcount
  by_contra hall
  have htwice : ∀ b ∈ Finset.range 255, 2 ≤ xs.count b := by
    intro b hb
    by_contra hlt
    exact hall ⟨b, hb, by omega⟩
  have hle := Finset.card_nsmul_le_sum _ _ 2 htwice
  rw [Finset.card_range, nsmul_eq_mul] at hle
  push_cast at hle
  omega

/-- **The sum of the weights fits, the current weights do not.**  After 511 calls some task of the
largest weight has been returned once, and the next call adds its weight past `INT32_MAX`. -/
theorem manyTasks_overflow : Addable manyTasks (List.range 257) ∧
    (weightSum manyTasks (List.range 257) : ℤ) ≤ int32Max ∧
    ¬ProportionalShare manyTasks (List.range 257) := by
  have hset : (List.range 257).toFinset = Finset.range 257 := by
    ext t
    simp
  have hW : ∑ t ∈ Finset.range 257, manyTasks.weight t = 2141094785 := by decide +kernel
  have hadd : Addable manyTasks (List.range 257) := by
    refine ⟨by decide, List.nodup_range, ?_⟩
    intro t _
    unfold manyTasks
    dsimp only
    split
    · decide
    · decide
  have hsum : ∑ t ∈ (List.range 257).toFinset, manyTasks.weight t ≤ int32Max := by
    rw [hset, hW]
    decide
  refine ⟨hadd, ?_, ?_⟩
  · rw [weightSum, hset, hW]
    decide
  · intro hshare
    obtain ⟨htasks, hsleep, htotal, hequal⟩ := added_eq hadd.nodup hadd.weight
    have hholds : Members manyTasks (List.range 257) (added manyTasks (List.range 257)) := ⟨htasks, hsleep, htotal⟩
    have hequal' : ∀ t ∈ Finset.range 257, (added manyTasks (List.range 257)).currentWeight t = noWeight :=
      fun t ht => hequal t (List.mem_range.mpr (Finset.mem_range.mp ht))
    obtain ⟨-, hlength, hrounds⟩ := hholds.rounds hadd hsum hequal 257
    obtain ⟨hend, hlength', hrounds'⟩ := hholds.rounds hadd hsum hequal 511
    rw [hset] at hrounds hrounds'
    have hlight := manyTasks_light hequal' hlength hrounds
    have hbegins : returns (added manyTasks (List.range 257)) (nextCalls manyTasks 511) =
        returns (added manyTasks (List.range 257)) (nextCalls manyTasks 257) ++
          returns (afterNext manyTasks (List.range 257) 257) (nextCalls manyTasks 254) := by
      rw [afterNext, ← returns_append, ← nextCalls_add]
    have hmore : ∀ t, (returns (added manyTasks (List.range 257)) (nextCalls manyTasks 257)).count t ≤
        (returns (added manyTasks (List.range 257)) (nextCalls manyTasks 511)).count t := by
      intro t
      rw [hbegins, List.count_append]
      exact Nat.le_add_right _ _
    obtain ⟨b, hb, hone⟩ := manyTasks_heavy hlength' hrounds'
      (hlight.trans (Nat.add_le_add (hmore 255) (hmore 256)))
    have hlt := Finset.mem_range.mp hb
    have hb' : b ∈ Finset.range 257 := Finset.mem_range.mpr (by omega)
    have hbw : manyTasks.weight b = 0x7FFFFF := if_pos hlt
    have hbalance := hrounds'.balance hb'
    rw [hequal' b hb', hlength', hW, hbw] at hbalance
    have hfits := ((hshare.1 511).1 b (by
      rw [show (afterNext manyTasks (List.range 257) 511).tasks = List.range 257 from hend.tasks]
      exact List.mem_range.mpr (Finset.mem_range.mp hb'))).2
    rw [show afterNext manyTasks (List.range 257) 511 = (nextCalls manyTasks 511).foldl stepCall
      (added manyTasks (List.range 257)) from rfl, hbalance, hbw] at hfits
    unfold noWeight int32Max at hfits
    have hcast : ((returns (added manyTasks (List.range 257)) (nextCalls manyTasks 511)).count b : ℤ) ≤ 1 := by
      exact_mod_cast hone
    omega

end Stk.Analysis
