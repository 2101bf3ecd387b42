import Stk.Analysis.SmoothShares

/-!
# No starvation with smooth weighted round robin

Tasks that sleep and wake up again come back with `m_total_weight` as their current weight.  The
current weights of the runnable tasks nevertheless stay within a bound that depends only on the
weights (`Shares`, by `GreedyShares.Spread`), and a task that is not returned gets its weight in
every call.  It is therefore returned before it leaves the bound, as long as the bound is one that
an `int32_t` can hold (`run_noStarvation`).  Heavier tasks can reach the initial maximum of the scan
in `GetNext`, which then finds no task (`largeWeights_starve`).
-/

set_option autoImplicit false

namespace Stk.Analysis

open Stk.Model GreedyShares

variable {α : Type} [DecidableEq α] {w : α → ℤ} {U : Finset α} {s : SmoothWeightedRoundRobin α}
  {c : TaskView α × StrategyCall α}

/-- A call that sees the weights `w` and adds no task that is not in `U`. -/
structure Over (w : α → ℤ) (U : Finset α) (c : TaskView α × StrategyCall α) : Prop where
  weight : ∀ t ∈ U, c.1.weight t = w t
  add : ∀ t, c.2 = .addTask t → t ∈ U

/-- The invariant of runs over the tasks of `U`. -/
structure Shares (w : α → ℤ) (U : Finset α) (s : SmoothWeightedRoundRobin α) : Prop where
  nodup : (s.tasks ++ s.sleep).Nodup
  subset : ∀ t ∈ s.tasks ++ s.sleep, t ∈ U
  total : s.totalWeight = ∑ t ∈ s.tasks.toFinset, w t
  spread : Spread (∑ t ∈ U, w t) U.card s.tasks.toFinset s.currentWeight

namespace Shares

/-- INTERNAL: the runnable tasks are among those of the run. -/
theorem toFinset_subset (h : Shares w U s) : s.tasks.toFinset ⊆ U := by
  intro t ht
  exact h.subset t (List.mem_append_left _ (List.mem_toFinset.mp ht))

/-- INTERNAL: the total weight is bounded by that of all tasks of the run. -/
theorem total_le (h : Shares w U s) (hw : ∀ t ∈ U, 0 < w t) : 0 ≤ s.totalWeight ∧ s.totalWeight ≤ ∑ t ∈ U, w t := by
  rw [h.total]
  constructor
  · exact Finset.sum_nonneg (fun t ht => (hw t (h.toFinset_subset ht)).le)
  · exact Finset.sum_le_sum_of_subset_of_nonneg h.toFinset_subset (fun t ht _ => (hw t ht).le)

/-- INTERNAL: a task joins the runnable tasks. -/
theorem join (h : Shares w U s) {t : α} {b : ℤ} {slp : List α} (ht : t ∈ U) (htasks : t ∉ s.tasks)
    (hslp : ∀ u ∈ slp, u ∈ s.sleep ∧ u ≠ t) (hnodup : slp.Nodup) (hb : |b| ≤ ∑ u ∈ U, w u) :
    Shares w U ⟨s.tasks ++ [t], slp, s.totalWeight + w t, Function.update s.currentWeight t b⟩ := by
  have hnot : t ∉ s.tasks.toFinset := by simpa using htasks
  have hset : (s.tasks ++ [t]).toFinset = insert t s.tasks.toFinset := by
    ext u
    simp
  have hinsert : insert t s.tasks.toFinset ⊆ U := Finset.insert_subset ht h.toFinset_subset
  constructor
  · rw [List.nodup_append]
    refine ⟨?_, hnodup, ?_⟩
    · rw [List.nodup_append]
      refine ⟨(List.nodup_append.mp h.nodup).1, List.nodup_singleton t, ?_⟩
      intro a ha b hb
      obtain rfl : b = t := by simpa using hb
      rintro rfl
      exact htasks ha
    · intro a ha b hb
      obtain ⟨hsleep, hbt⟩ := hslp b hb
      rcases List.mem_append.mp ha with ha | ha
      · exact (List.nodup_append.mp h.nodup).2.2 a ha b hsleep
      · obtain rfl : a = t := by simpa using ha
        exact hbt.symm
  · intro u hu
    rcases List.mem_append.mp hu with hu | hu
    · rcases List.mem_append.mp hu with hu | hu
      · exact h.subset u (List.mem_append_left _ hu)
      · obtain rfl : u = t := by simpa using hu
        exact ht
    · exact h.subset u (List.mem_append_right _ (hslp u hu).1)
  · dsimp only
    rw [hset, Finset.sum_insert hnot, h.total]
    ring
  · dsimp only
    rw [hset]
    have hcard : s.tasks.toFinset.card + 1 ≤ U.card := by
      rw [← Finset.card_insert_of_notMem hnot]
      exact Finset.card_le_card hinsert
    apply Spread.insert _ _ hcard
    · apply h.spread.congr
      intro u hu
      have hut : u ≠ t := by
        rintro rfl
        exact hnot hu
      rw [Function.update_of_ne hut]
    · rw [Function.update_self]
      exact hb

/-- INTERNAL: a task leaves the runnable tasks. -/
theorem leave (h : Shares w U s) {t : α} {slp : List α} (ht : t ∈ s.tasks)
    (hslp : slp = s.sleep ∨ slp = s.sleep ++ [t]) :
    Shares w U { s with tasks := s.tasks.erase t, sleep := slp, totalWeight := s.totalWeight - w t } := by
  obtain ⟨htasks, hsleep, hdisj⟩ := List.nodup_append.mp h.nodup
  have hmem : t ∈ s.tasks.toFinset := List.mem_toFinset.mpr ht
  have hset : (s.tasks.erase t).toFinset = s.tasks.toFinset.erase t := by
    ext u
    simp [htasks.mem_erase_iff]
  have hin : ∀ u ∈ slp, u ∈ s.sleep ∨ u = t := by
    rcases hslp with rfl | rfl
    · exact fun u hu => .inl hu
    · intro u hu
      simpa using hu
  constructor
  · rw [List.nodup_append]
    refine ⟨htasks.erase t, ?_, ?_⟩
    · rcases hslp with rfl | rfl
      · exact hsleep
      · rw [List.nodup_append]
        refine ⟨hsleep, List.nodup_singleton t, ?_⟩
        intro a ha b hb
        obtain rfl : b = t := by simpa using hb
        exact (hdisj b ht a ha).symm
    · intro a ha b hb
      obtain ⟨hat, hmem⟩ := htasks.mem_erase_iff.mp ha
      rcases hin b hb with hb | rfl
      · exact hdisj a hmem b hb
      · exact hat
  · intro u hu
    rcases List.mem_append.mp hu with hu | hu
    · exact h.subset u (List.mem_append_left _ (List.mem_of_mem_erase hu))
    · rcases hin u hu with hu | rfl
      · exact h.subset u (List.mem_append_right _ hu)
      · exact h.subset u (List.mem_append_left _ ht)
  · dsimp only
    rw [hset, h.total, ← Finset.add_sum_erase _ w hmem]
    ring
  · dsimp only
    rw [hset]
    exact h.spread.subset (Finset.erase_subset t _)

end Shares

/-- What a call does to the runnable tasks: it keeps the invariant, and a task that it does not
return gets its weight if it returns another one. -/
structure Turn (w : α → ℤ) (U : Finset α) (s : SmoothWeightedRoundRobin α)
    (c : TaskView α × StrategyCall α) : Prop where
  shares : Shares w U (stepCall s c)
  earned : ∀ t ∈ s.tasks, t ∉ returned s c →
    (stepCall s c).currentWeight t = s.currentWeight t + (returned s c).length * w t

namespace Shares

/-- INTERNAL: a call that fails. -/
theorem failed (h : Shares w U s) {f : Fault} (hcall : c.2.apply c.1 s = .error f) : Turn w U s c := by
  have hstep : stepCall s c = s := by simp only [stepCall, hcall]
  have hnone : returned s c = [] := by simp only [returned, hcall]
  constructor
  · rw [hstep]
    exact h
  · intro t _ _
    rw [hstep, hnone]
    simp

/-- INTERNAL: a call other than `GetNext` that succeeds. -/
theorem done {s' : SmoothWeightedRoundRobin α} (hcall : c.2.apply c.1 s = .ok (none, s'))
    (h' : Shares w U s') (hsame : ∀ t ∈ s.tasks, s'.currentWeight t = s.currentWeight t) : Turn w U s c := by
  have hstep : stepCall s c = s' := by simp only [stepCall, hcall]
  have hnone : returned s c = [] := by simp only [returned, hcall, Option.toList_none]
  constructor
  · rw [hstep]
    exact h'
  · intro t ht _
    rw [hstep, hnone, hsame t ht]
    simp

/-- INTERNAL: `AddTask` over the tasks of the run. -/
theorem addTask (h : Shares w U s) (hw : ∀ t ∈ U, 0 < w t) {v : TaskView α} {t : α}
    (hc : Over w U (v, .addTask t)) : Turn w U s (v, .addTask t) := by
  have ht : t ∈ U := hc.add t rfl
  by_cases hrange : ¬ (0 < v.weight t ∧ v.weight t ≤ 0x7FFFFF)
  · apply h.failed (f := .weightRange)
    show (s.addTask v t).map _ = _
    rw [SmoothWeightedRoundRobin.addTask, if_pos hrange]
    rfl
  · by_cases hmem : t ∈ s.tasks ∨ t ∈ s.sleep
    · apply h.failed (f := .addTaskHead)
      show (s.addTask v t).map _ = _
      rw [SmoothWeightedRoundRobin.addTask, if_neg hrange, if_pos hmem]
      rfl
    · obtain ⟨htasks, hsleep⟩ := not_or.mp hmem
      have hok : StrategyCall.apply v s (.addTask t) =
          .ok (none, (s.setCurrentWeight t noWeight).addActive v t) := by
        show (s.addTask v t).map _ = _
        rw [SmoothWeightedRoundRobin.addTask, if_neg hrange, if_neg hmem]
        rfl
      apply done hok
      · have hbound : |noWeight| ≤ ∑ u ∈ U, w u := by
          have hsingle := Finset.single_le_sum (fun u hu => (hw u hu).le) ht
          have hpos := hw t ht
          have habs : |noWeight| = 1 := rfl
          omega
        rw [SmoothWeightedRoundRobin.addActive, hc.weight t ht]
        apply h.join ht htasks _ (List.nodup_append.mp h.nodup).2.1 hbound
        intro u hu
        refine ⟨hu, ?_⟩
        rintro rfl
        exact hsleep hu
      · intro u hu
        have hut : u ≠ t := by
          rintro rfl
          exact htasks hu
        simp [SmoothWeightedRoundRobin.addActive, SmoothWeightedRoundRobin.setCurrentWeight, hut]

/-- INTERNAL: `RemoveTask` over the tasks of the run. -/
theorem removeTask (h : Shares w U s) {v : TaskView α} {t : α} (hc : Over w U (v, .removeTask t)) :
    Turn w U s (v, .removeTask t) := by
  by_cases htasks : t ∈ s.tasks
  · have hok : StrategyCall.apply v s (.removeTask t) = .ok (none, s.removeActive v t) := by
      show (s.removeTask v t).map _ = _
      rw [SmoothWeightedRoundRobin.removeTask, if_pos htasks]
      rfl
    apply done hok
    · rw [SmoothWeightedRoundRobin.removeActive, hc.weight t (h.subset t (List.mem_append_left _ htasks))]
      exact h.leave htasks (.inl rfl)
    · exact fun _ _ => rfl
  · by_cases hsleep : t ∈ s.sleep
    · have hok : StrategyCall.apply v s (.removeTask t) = .ok (none, { s with sleep := s.sleep.erase t }) := by
        show (s.removeTask v t).map _ = _
        rw [SmoothWeightedRoundRobin.removeTask, if_neg htasks, if_pos hsleep]
        rfl
      apply done hok
      · refine ⟨nodup_erase_sleep h.nodup, ?_, h.total, h.spread⟩
        intro u hu
        apply h.subset u
        rcases List.mem_append.mp hu with hu | hu
        · exact List.mem_append_left _ hu
        · exact List.mem_append_right _ (List.mem_of_mem_erase hu)
      · exact fun _ _ => rfl
    · apply h.failed (f := .removeTaskHead)
      show (s.removeTask v t).map _ = _
      rw [SmoothWeightedRoundRobin.removeTask, if_neg htasks, if_neg hsleep]
      rfl

/-- INTERNAL: `OnTaskSleep` over the tasks of the run. -/
theorem onTaskSleep (h : Shares w U s) {v : TaskView α} {t : α} (hc : Over w U (v, .onTaskSleep t)) :
    Turn w U s (v, .onTaskSleep t) := by
  by_cases hawake : ¬ v.sleeping t
  · apply h.failed (f := .onTaskSleepAwake)
    show (s.onTaskSleep v t).map _ = _
    rw [SmoothWeightedRoundRobin.onTaskSleep, if_pos hawake]
    rfl
  · by_cases htasks : t ∉ s.tasks
    · apply h.failed (f := .onTaskSleepHead)
      show (s.onTaskSleep v t).map _ = _
      rw [SmoothWeightedRoundRobin.onTaskSleep, if_neg hawake, if_pos htasks]
      rfl
    · have hmem : t ∈ s.tasks := not_not.mp htasks
      have hok : StrategyCall.apply v s (.onTaskSleep t) =
          .ok (none, { s.removeActive v t with sleep := s.sleep ++ [t] }) := by
        show (s.onTaskSleep v t).map _ = _
        rw [SmoothWeightedRoundRobin.onTaskSleep, if_neg hawake, if_neg htasks]
        rfl
      apply done hok
      · rw [SmoothWeightedRoundRobin.removeActive, hc.weight t (h.subset t (List.mem_append_left _ hmem))]
        exact h.leave hmem (.inr rfl)
      · exact fun _ _ => rfl

/-- INTERNAL: `OnTaskWake` over the tasks of the run. -/
theorem onTaskWake (h : Shares w U s) (hw : ∀ t ∈ U, 0 < w t) {v : TaskView α} {t : α}
    (hc : Over w U (v, .onTaskWake t)) : Turn w U s (v, .onTaskWake t) := by
  by_cases hsleeping : v.sleeping t
  · apply h.failed (f := .onTaskWakeSleeping)
    show (s.onTaskWake v t).map _ = _
    rw [SmoothWeightedRoundRobin.onTaskWake, if_pos hsleeping]
    rfl
  · by_cases hsleep : t ∉ s.sleep
    · apply h.failed (f := .onTaskWakeHead)
      show (s.onTaskWake v t).map _ = _
      rw [SmoothWeightedRoundRobin.onTaskWake, if_neg hsleeping, if_pos hsleep]
      rfl
    · have hmem : t ∈ s.sleep := not_not.mp hsleep
      have ht : t ∈ U := h.subset t (List.mem_append_right _ hmem)
      obtain ⟨-, hnodup, hdisj⟩ := List.nodup_append.mp h.nodup
      have htasks : t ∉ s.tasks := fun hin => hdisj t hin t hmem rfl
      have hok : StrategyCall.apply v s (.onTaskWake t) =
          .ok (none, ({ s with sleep := s.sleep.erase t }.setCurrentWeight t s.totalWeight).addActive v t) := by
        show (s.onTaskWake v t).map _ = _
        rw [SmoothWeightedRoundRobin.onTaskWake, if_neg hsleeping, if_neg hsleep]
        rfl
      apply done hok
      · obtain ⟨hzero, hle⟩ := h.total_le hw
        rw [SmoothWeightedRoundRobin.addActive, hc.weight t ht]
        apply h.join ht htasks _ (hnodup.erase t)
        · rw [abs_of_nonneg hzero]
          exact hle
        · intro u hu
          obtain ⟨hut, hin⟩ := hnodup.mem_erase_iff.mp hu
          exact ⟨hin, hut⟩
      · intro u hu
        have hut : u ≠ t := by
          rintro rfl
          exact htasks hu
        simp [SmoothWeightedRoundRobin.addActive, SmoothWeightedRoundRobin.setCurrentWeight, hut]

/-- INTERNAL: `GetNext`, which returns a task unless none has more than `INT32_MIN`. -/
theorem getNext (h : Shares w U s) (hw : ∀ t ∈ U, 0 < w t) {v : TaskView α} (hc : Over w U (v, .getNext)) :
    Turn w U s (v, .getNext) ∧ ((∃ t ∈ s.tasks, int32Min < s.currentWeight t + w t) →
      (returned s (v, .getNext)).length = 1) := by
  have hweight : ∀ t ∈ s.tasks.toFinset, v.weight t = w t := fun t ht => hc.weight t (h.toFinset_subset ht)
  by_cases hnil : s.tasks = []
  · have hok : StrategyCall.apply v s .getNext = .ok (none, s) := by
      show s.getNext v = _
      rw [SmoothWeightedRoundRobin.getNext, if_pos hnil]
    refine ⟨done hok h (fun _ _ => rfl), ?_⟩
    rintro ⟨t, ht, -⟩
    rw [hnil] at ht
    cases ht
  · have htotal : s.totalWeight = ∑ t ∈ s.tasks.toFinset, v.weight t := by
      rw [h.total, Finset.sum_congr rfl hweight]
    rcases getNext_round (List.nodup_append.mp h.nodup).1 hnil htotal with
      ⟨herror, hlow⟩ | ⟨x, s', hok, hx, hround, htasks, hsleep, htotal'⟩
    · refine ⟨h.failed herror, ?_⟩
      rintro ⟨t, ht, hgt⟩
      have hle := hlow t ht
      rw [hweight t (List.mem_toFinset.mpr ht)] at hle
      omega
    · have hcall : StrategyCall.apply v s .getNext = .ok (some x, s') := hok
      have hstep : stepCall s (v, .getNext) = s' := by simp only [stepCall, hcall]
      have hreturned : returned s (v, .getNext) = [x] := by simp only [returned, hcall, Option.toList_some]
      have hround' : GreedyShares.Round w s.tasks.toFinset s.currentWeight s'.currentWeight x :=
        hround.congr (fun t ht => (hweight t ht).symm)
      rw [hreturned]
      refine ⟨⟨?_, ?_⟩, fun _ => rfl⟩
      · rw [hstep]
        constructor
        · rw [htasks, hsleep]
          exact h.nodup
        · rw [htasks, hsleep]
          exact h.subset
        · rw [htasks, htotal', h.total]
        · rw [htasks]
          apply h.spread.round hround'
          · exact fun t ht => (hw t (h.toFinset_subset ht)).le
          · exact h.total ▸ (h.total_le hw).2
      · intro t ht hnot
        rw [hreturned] at hnot ⊢
        have htx : t ≠ x := by simpa using hnot
        rw [hstep, hround'.earned t (List.mem_toFinset.mpr ht) htx]
        simp

/-- INTERNAL: every call over the tasks of the run. -/
theorem turn (h : Shares w U s) (hw : ∀ t ∈ U, 0 < w t) (hc : Over w U c) : Turn w U s c := by
  obtain ⟨v, call⟩ := c
  cases call with
  | addTask t => exact h.addTask hw hc
  | removeTask t => exact h.removeTask hc
  | getNext => exact (h.getNext hw hc).1
  | onTaskSleep t => exact h.onTaskSleep hc
  | onTaskWake t => exact h.onTaskWake hw hc
  | onTaskWeightChange t old => exact done rfl h (fun _ _ => rfl)

end Shares

/-! ## Runs -/

/-- The call is a `GetNext`. -/
def isGetNext (c : TaskView α × StrategyCall α) : Bool :=
  match c.2 with
  | .getNext => true
  | _ => false

/-- The task is runnable before each call of the window and after the last one. -/
def StaysRunnable (t : α) : SmoothWeightedRoundRobin α → List (TaskView α × StrategyCall α) → Prop
  | s, [] => t ∈ s.tasks
  | s, c :: win => t ∈ s.tasks ∧ StaysRunnable t (stepCall s c) win

instance decidableStaysRunnable (t : α) : (s : SmoothWeightedRoundRobin α) →
    (win : List (TaskView α × StrategyCall α)) → Decidable (StaysRunnable t s win)
  | s, [] => inferInstanceAs (Decidable (t ∈ s.tasks))
  | s, c :: win =>
    have := decidableStaysRunnable t (stepCall s c) win
    inferInstanceAs (Decidable (_ ∧ _))

/-- INTERNAL: a task that stays runnable is so at both ends. -/
theorem StaysRunnable.mem {t : α} {win : List (TaskView α × StrategyCall α)} (h : StaysRunnable t s win) :
    t ∈ s.tasks ∧ t ∈ (win.foldl stepCall s).tasks := by
  induction win generalizing s with
  | nil => exact ⟨h, h⟩
  | cons c win ih => exact ⟨h.1, (ih h.2).2⟩

/-- The bound on a current weight. -/
def weightBound (w : α → ℤ) (U : Finset α) : ℤ := (∑ t ∈ U, w t) * (2 * U.card - 1)

/-- The number of returned tasks in which a runnable task has its turn. -/
def turnBound (w : α → ℤ) (U : Finset α) : ℕ := (2 * weightBound w U + 1).toNat

/-- INTERNAL: an empty strategy. -/
theorem shares_empty (w : α → ℤ) (U : Finset α) :
    Shares w U (SwitchStrategy.empty : SmoothWeightedRoundRobin α) := by
  refine ⟨List.nodup_nil, (fun t ht => nomatch ht), rfl, ?_⟩
  intro A hA
  obtain rfl : A = ∅ := Finset.subset_empty.mp hA
  simp

/-- INTERNAL: the invariant after every history. -/
theorem run_shares (hw : ∀ t ∈ U, 0 < w t) {cs : List (TaskView α × StrategyCall α)}
    (hcs : ∀ c ∈ cs, Over w U c) : Shares w U (replay cs : SmoothWeightedRoundRobin α) :=
  Runs.foldl_keeps (fun _ c hc h => (h.turn hw (hcs c hc)).shares) (shares_empty w U)

/-- INTERNAL: a runnable task that is not returned gets its weight for every task that is. -/
theorem Shares.earned_along (h : Shares w U s) (hw : ∀ t ∈ U, 0 < w t) {t : α}
    {win : List (TaskView α × StrategyCall α)} (hwin : ∀ c ∈ win, Over w U c)
    (hstays : StaysRunnable t s win) (hnot : t ∉ returns s win) :
    Shares w U (win.foldl stepCall s) ∧
      (win.foldl stepCall s).currentWeight t = s.currentWeight t + (returns s win).length * w t := by
  induction win generalizing s with
  | nil => exact ⟨h, by simp [returns]⟩
  | cons c win ih =>
    have hturn := h.turn hw (hwin c List.mem_cons_self)
    rw [returns, List.mem_append, not_or] at hnot
    obtain ⟨hend, hweight⟩ := ih hturn.shares (fun d hd => hwin d (List.mem_cons_of_mem c hd)) hstays.2 hnot.2
    refine ⟨hend, ?_⟩
    rw [List.foldl_cons, hweight, hturn.earned t hstays.1 hnot.1, returns, List.length_append]
    push_cast
    ring

/-- The weights of the tasks of `U` are so small that an `int32_t` holds every current weight. -/
def NarrowWeights (w : α → ℤ) (U : Finset α) : Prop := 2 * U.card * ∑ t ∈ U, w t ≤ int32Max

instance decidableNarrowWeights (w : α → ℤ) (U : Finset α) : Decidable (NarrowWeights w U) :=
  inferInstanceAs (Decidable (_ ≤ _))

omit [DecidableEq α] in
/-- INTERNAL: narrow weights fit, with the bound on the current weights. -/
theorem NarrowWeights.bound (h : NarrowWeights w U) :
    weightBound w U + ∑ t ∈ U, w t ≤ int32Max := by
  have hsplit : weightBound w U + ∑ t ∈ U, w t = 2 * U.card * ∑ t ∈ U, w t := by
    unfold weightBound
    ring
  rw [hsplit]
  exact h

/-- INTERNAL: the arithmetic of `GetNext` and of `OnTaskWake` stays inside `int32_t`. -/
theorem Shares.fits (h : Shares w U s) (hw : ∀ t ∈ U, 0 < w t) (hnarrow : NarrowWeights w U) {v : TaskView α}
    (hv : ∀ t ∈ U, v.weight t = w t) : FitsInt32 v s := by
  intro t ht
  have hU : t ∈ U := h.subset t (List.mem_append_left _ ht)
  obtain ⟨hlow, hhigh⟩ := abs_le.mp (h.spread.abs_le_mul (List.mem_toFinset.mpr ht))
  have hsingle := Finset.single_le_sum (fun u hu => (hw u hu).le) hU
  have hbound := hnarrow.bound
  unfold weightBound int32Max at hbound
  unfold int32Min int32Max
  rw [hv t hU]
  have hpos := hw t hU
  constructor <;> linarith

/-- INTERNAL: `m_total_weight` stays inside `int32_t`. -/
theorem Shares.total_fits (h : Shares w U s) (hw : ∀ t ∈ U, 0 < w t) (hnarrow : NarrowWeights w U) :
    s.totalWeight ≤ int32Max := by
  have hle := (h.total_le hw).2
  have hcard : U.card = 0 ∨ 1 ≤ U.card := by omega
  rcases hcard with hzero | hone
  · obtain rfl := Finset.card_eq_zero.mp hzero
    rw [Finset.sum_empty] at hle
    exact hle.trans (by decide)
  · have hnonneg : 0 ≤ ∑ t ∈ U, w t := Finset.sum_nonneg (fun t ht => (hw t ht).le)
    have hscale : ∑ t ∈ U, w t ≤ 2 * U.card * ∑ t ∈ U, w t := by
      apply le_mul_of_one_le_left hnonneg
      have hcast : (1 : ℤ) ≤ U.card := by exact_mod_cast hone
      linarith
    exact hle.trans (hscale.trans hnarrow)

/-- INTERNAL: with weights that fit, every `GetNext` returns a task while one is runnable. -/
theorem Shares.returns_length (h : Shares w U s) (hw : ∀ t ∈ U, 0 < w t) {t : α}
    {win : List (TaskView α × StrategyCall α)} (hwin : ∀ c ∈ win, Over w U c)
    (hstays : StaysRunnable t s win) (hnarrow : NarrowWeights w U) :
    (returns s win).length = win.countP isGetNext := by
  induction win generalizing s with
  | nil => rfl
  | cons c win ih =>
    have hc := hwin c List.mem_cons_self
    have hrest := ih (h.turn hw hc).shares (fun d hd => hwin d (List.mem_cons_of_mem c hd)) hstays.2
    have ht : t ∈ s.tasks := hstays.1
    have hone : (returned s c).length = if isGetNext c then 1 else 0 := by
      have hnone : ∀ out : Except Fault (SmoothWeightedRoundRobin α), c.2.apply c.1 s = out.map (none, ·) →
          (returned s c).length = 0 := by
        intro out hout
        cases out with
        | error f => simp only [returned, hout, Except.map, List.length_nil]
        | ok s' => simp only [returned, hout, Except.map, Option.toList_none, List.length_nil]
      obtain ⟨v, call⟩ := c
      cases call with
      | getNext =>
        have hpos := hw t (h.subset t (List.mem_append_left _ ht))
        apply (h.getNext hw hc).2
        refine ⟨t, ht, ?_⟩
        have hfits := (h.fits hw hnarrow hc.weight t ht).1
        omega
      | addTask u => exact hnone (s.addTask v u) rfl
      | removeTask u => exact hnone (s.removeTask v u) rfl
      | onTaskSleep u => exact hnone (s.onTaskSleep v u) rfl
      | onTaskWake u => exact hnone (s.onTaskWake v u) rfl
      | onTaskWeightChange u old => exact hnone (.ok s) rfl
    rw [returns, List.length_append, hrest, hone, List.countP_cons]
    exact Nat.add_comm _ _

/-- INTERNAL: a task that stays runnable is returned before `turnBound` others are. -/
theorem Shares.mem_returns (h : Shares w U s) (hw : ∀ t ∈ U, 0 < w t) {t : α}
    {win : List (TaskView α × StrategyCall α)} (hwin : ∀ c ∈ win, Over w U c) (hstays : StaysRunnable t s win)
    (hlong : turnBound w U ≤ (returns s win).length) : t ∈ returns s win := by
  by_contra hnot
  obtain ⟨hend, hweight⟩ := h.earned_along hw hwin hstays hnot
  obtain ⟨hbefore, hafter⟩ := hstays.mem
  have hlow := (abs_le.mp (h.spread.abs_le_mul (List.mem_toFinset.mpr hbefore))).1
  have hhigh := (abs_le.mp (hend.spread.abs_le_mul (List.mem_toFinset.mpr hafter))).2
  have hpos : 1 ≤ w t := hw t (h.subset t (List.mem_append_left _ hbefore))
  have hcount : 2 * weightBound w U + 1 ≤ (returns s win).length := Int.toNat_le.mp hlong
  have hearned : ((returns s win).length : ℤ) ≤ (returns s win).length * w t :=
    le_mul_of_one_le_right (by positivity) hpos
  unfold weightBound at hcount
  linarith

/-- **No starvation.**  In every run of calls over tasks with positive weights that are narrow enough,
`m_total_weight` is the sum of the weights of the runnable tasks, every current weight and every sum that
`GetNext` computes is in the range of an `int32_t`, and a task that stays runnable is returned in every window
of calls with `turnBound` calls of `GetNext`. -/
theorem run_noStarvation (hw : ∀ t ∈ U, 0 < w t) (hnarrow : NarrowWeights w U)
    {cs win : List (TaskView α × StrategyCall α)} (hcs : ∀ c ∈ cs ++ win, Over w U c) :
    let s : SmoothWeightedRoundRobin α := replay cs
    s.totalWeight = ∑ t ∈ s.tasks.toFinset, w t ∧ s.totalWeight ≤ int32Max ∧
      (∀ v : TaskView α, (∀ t ∈ U, v.weight t = w t) → FitsInt32 v s) ∧
      ∀ t, StaysRunnable t s win → turnBound w U ≤ win.countP isGetNext → t ∈ returns s win := by
  intro s
  have h : Shares w U s := run_shares hw (fun c hc => hcs c (List.mem_append_left win hc))
  have hwin : ∀ c ∈ win, Over w U c := fun c hc => hcs c (List.mem_append_right cs hc)
  refine ⟨h.total, h.total_fits hw hnarrow, fun v hv => h.fits hw hnarrow hv, ?_⟩
  intro t hstays hlong
  apply h.mem_returns hw hwin hstays
  rw [h.returns_length hw hwin hstays hnarrow]
  exact hlong

section Runs

/-- Two tasks of weight 1. -/
def equalWeights (sleeping : Bool) : TaskView ℕ := ⟨fun _ => 1, fun _ => 0, fun _ => sleeping, fun _ => 0, fun _ => 0⟩

/-- Both tasks are added. -/
def bothAdded : List (TaskView ℕ × StrategyCall ℕ) :=
  [(equalWeights false, .addTask 0), (equalWeights false, .addTask 1)]

/-- Thirteen times, task 1 sleeps and wakes up before the next task is chosen. -/
def nervousTask : List (TaskView ℕ × StrategyCall ℕ) :=
  (List.replicate 13 [(equalWeights true, .onTaskSleep 1), (equalWeights false, .onTaskWake 1),
    (equalWeights false, .getNext)]).flatten

/-- Task 0 has its turn. -/
theorem nervousTask_turn :
    turnBound (fun _ : ℕ => 1) {0, 1} = 13 ∧ nervousTask.countP isGetNext = 13 ∧
      0 ∈ returns (replay bothAdded : SmoothWeightedRoundRobin ℕ) nervousTask := by
  have hcs : ∀ c ∈ bothAdded ++ nervousTask, Over (fun _ => 1) {0, 1} c := by
    intro c hc
    simp only [bothAdded, nervousTask, List.mem_append, List.mem_cons, List.mem_flatten, List.mem_replicate,
      List.not_mem_nil, or_false] at hc
    rcases hc with (rfl | rfl) | ⟨_, ⟨-, rfl⟩, hc⟩
    · exact ⟨fun _ _ => rfl, by simp⟩
    · exact ⟨fun _ _ => rfl, by simp⟩
    · simp only [List.mem_cons, List.not_mem_nil, or_false] at hc
      rcases hc with rfl | rfl | rfl
      · exact ⟨fun _ _ => rfl, by simp⟩
      · exact ⟨fun _ _ => rfl, by simp⟩
      · exact ⟨fun _ _ => rfl, by simp⟩
  have hrun := run_noStarvation (w := fun _ : ℕ => 1) (U := {0, 1}) (fun _ _ => Int.one_pos) (by decide) hcs
  have hbound : turnBound (fun _ : ℕ => 1) {0, 1} = 13 := by decide
  have hcount : nervousTask.countP isGetNext = 13 := by decide
  refine ⟨hbound, hcount, ?_⟩
  apply hrun.2.2.2 0 (by decide +kernel)
  rw [hbound, hcount]

/-- One task of the largest weight, 257 tasks of the next smaller one and a light one; those in `asleep` sleep. -/
def largeWeights (asleep : List ℕ) : TaskView ℕ :=
  ⟨fun t => if t = 0 then 0x7FFFFF else if t = 258 then 512 else 0x7FFFFE, fun _ => 0, fun t => decide (t ∈ asleep),
    fun _ => 0, fun _ => 0⟩

/-- All tasks are added, `GetNext` is called once, and all but task 0 go to sleep. -/
def firstAlone : List (TaskView ℕ × StrategyCall ℕ) :=
  (List.range 259).map (fun t => (largeWeights [], .addTask t)) ++ [(largeWeights [], .getNext)] ++
    (List.range' 1 258).map fun t => (largeWeights (List.range' 1 258), .onTaskSleep t)

/-- INTERNAL: all tasks behind the first one go to sleep. -/
theorem sleep_all {v : TaskView ℕ} {x : ℕ} (l : List ℕ) (hv : ∀ t ∈ l, v.sleeping t = true) (hx : x ∉ l) :
    ∀ s : SmoothWeightedRoundRobin ℕ, s.tasks = x :: l →
      ((l.map fun t => (v, StrategyCall.onTaskSleep t)).foldl stepCall s).tasks = [x] ∧
        ((l.map fun t => (v, StrategyCall.onTaskSleep t)).foldl stepCall s).currentWeight = s.currentWeight := by
  induction l with
  | nil => exact fun s hs => ⟨hs, rfl⟩
  | cons t l ih =>
    intro s hs
    obtain ⟨hxt, hxl⟩ := not_or.mp (List.mem_cons.not.mp hx)
    have hok : s.onTaskSleep v t = .ok { s.removeActive v t with sleep := s.sleep ++ [t] } := by
      unfold SmoothWeightedRoundRobin.onTaskSleep
      rw [if_neg (by simpa using hv t List.mem_cons_self), if_neg (by simp [hs])]
      rfl
    have hstep : stepCall s (v, .onTaskSleep t) = { s.removeActive v t with sleep := s.sleep ++ [t] } :=
      stepCall_ok (c := .onTaskSleep t) rfl hok
    rw [List.map_cons, List.foldl_cons, hstep]
    apply ih (fun u hu => hv u (List.mem_cons_of_mem t hu)) hxl
    show s.tasks.erase t = x :: l
    rw [hs, List.erase_cons_tail (by simpa using hxt), List.erase_cons_head]

/-- INTERNAL: the weights are accepted, and that of task 0 is the largest. -/
theorem largeWeights_range (asleep : List ℕ) (t : ℕ) :
    0 < (largeWeights asleep).weight t ∧ (largeWeights asleep).weight t ≤ 0x7FFFFF ∧
      (t ≠ 0 → (largeWeights asleep).weight t < 0x7FFFFF) := by
  unfold largeWeights
  dsimp only
  split_ifs with hzero hlast
  · exact ⟨by decide, by decide, fun hne => absurd hzero hne⟩
  · exact ⟨by decide, by decide, fun _ => by decide⟩
  · exact ⟨by decide, by decide, fun _ => by decide⟩

/-- INTERNAL: task 0 is selected once and left with a current weight that no call of `GetNext` selects. -/
theorem firstAlone_sleeps {s : SmoothWeightedRoundRobin ℕ} (htasks : s.tasks = List.range 259)
    (htotal : s.totalWeight = ∑ t ∈ Finset.range 259, (largeWeights []).weight t)
    (hcurrent : ∀ t ∈ List.range 259, s.currentWeight t = noWeight) :
    let s₂ := ((List.range' 1 258).map fun t => (largeWeights (List.range' 1 258), StrategyCall.onTaskSleep t)).foldl
      stepCall (stepCall s (largeWeights [], .getNext))
    s₂.tasks = [0] ∧ s₂.currentWeight 0 + 0x7FFFFF = int32Min := by
  have hset : (List.range 259).toFinset = Finset.range 259 := by
    ext t
    simp
  have hsum : ∑ t ∈ Finset.range 259, (largeWeights []).weight t = 2164260861 := by decide +kernel
  have hcons : List.range 259 = 0 :: List.range' 1 258 := by
    rw [List.range_eq_range', List.range'_succ]
  have hzero : s.currentWeight 0 = noWeight := hcurrent 0 (by simp)
  have hround := getNext_round (v := largeWeights []) (s := s) (by rw [htasks]; exact List.nodup_range)
    (by rw [htasks, hcons]; exact List.cons_ne_nil _ _) (by rw [htasks, hset]; exact htotal)
  rcases hround with ⟨-, hlow⟩ | ⟨x, s', hok, hx, hround, htasks', -, -⟩
  · have hle := hlow 0 (by rw [htasks]; simp)
    rw [hzero] at hle
    exact absurd hle (by decide)
  · -- task 0 alone has the largest weight
    have hfirst : x = 0 := by
      by_contra hne
      have hmax := hround.max 0 (by rw [htasks]; simp)
      rw [htasks] at hx
      rw [hzero, hcurrent x hx] at hmax
      have hless := (largeWeights_range [] x).2.2 hne
      have hheavy : (largeWeights []).weight 0 = 0x7FFFFF := rfl
      omega
    subst hfirst
    have hcall : StrategyCall.getNext.apply (largeWeights []) s = .ok (some 0, s') := hok
    have hstep : stepCall s (largeWeights [], .getNext) = s' := by simp only [stepCall, hcall]
    rw [hstep]
    obtain ⟨hleft, hkept⟩ := sleep_all (v := largeWeights (List.range' 1 258)) (x := 0) (List.range' 1 258)
      (fun t ht => decide_eq_true ht) (by simp) s' (htasks'.trans (htasks.trans hcons))
    refine ⟨hleft, ?_⟩
    have hpaid := hround.paid
    rw [hzero, htasks, hset, hsum] at hpaid
    rw [hkept, hpaid]
    decide

/-- INTERNAL: the state that the calls reach. -/
theorem firstAlone_state : (replay firstAlone : SmoothWeightedRoundRobin ℕ).tasks = [0] ∧
    (replay firstAlone : SmoothWeightedRoundRobin ℕ).currentWeight 0 + 0x7FFFFF = int32Min := by
  have hadded := added_eq (v := largeWeights []) (List.nodup_range (n := 259))
    (fun t _ => ⟨(largeWeights_range [] t).1, (largeWeights_range [] t).2.1⟩)
  have hset : (List.range 259).toFinset = Finset.range 259 := by
    ext t
    simp
  have hreplay : (replay firstAlone : SmoothWeightedRoundRobin ℕ) =
      ((List.range' 1 258).map fun t => (largeWeights (List.range' 1 258), StrategyCall.onTaskSleep t)).foldl
        stepCall (stepCall (added (largeWeights []) (List.range 259)) (largeWeights [], .getNext)) := by
    unfold firstAlone added replay
    rw [List.foldl_append, List.foldl_append, List.foldl_cons, List.foldl_nil]
  obtain ⟨htasks, -, htotal, hcurrent⟩ := hadded
  rw [hset] at htotal
  rw [hreplay]
  generalize added (largeWeights []) (List.range 259) = s at htasks htotal hcurrent
  exact firstAlone_sleeps htasks htotal hcurrent

/-- INTERNAL: nothing changes any more. -/
theorem getNext_fails {v : TaskView ℕ} {x : ℕ} {s : SmoothWeightedRoundRobin ℕ} (htasks : s.tasks = [x])
    (hlow : s.currentWeight x + v.weight x = int32Min) (K : ℕ) :
    StaysRunnable x s (nextCalls v K) ∧ returns s (nextCalls v K) = [] := by
  have hcall : StrategyCall.getNext.apply v s = .error .nullCursor := by
    show s.getNext v = _
    unfold SmoothWeightedRoundRobin.getNext
    rw [if_neg (by rw [htasks]; exact List.cons_ne_nil _ _), htasks]
    simp [SmoothWeightedRoundRobin.scanStep, hlow]
  have hstep : stepCall s (v, .getNext) = s := by simp only [stepCall, hcall]
  have hnone : returned s (v, .getNext) = [] := by simp only [returned, hcall]
  have hmem : x ∈ s.tasks := by
    rw [htasks]
    exact List.mem_singleton_self x
  induction K with
  | zero => exact ⟨hmem, rfl⟩
  | succ K ih =>
    obtain ⟨hstays, hreturns⟩ := ih
    unfold nextCalls at hstays hreturns ⊢
    rw [List.replicate_succ, returns, hstep, hnone, hreturns]
    refine ⟨⟨hmem, ?_⟩, rfl⟩
    rw [hstep]
    exact hstays

/-- **Heavy tasks starve.**  After the calls of `firstAlone` task 0 is the only runnable task, and the scan of
`GetNext` raises its current weight to `INT32_MIN` (also with `int32_t` arithmetic), which is not greater than the
initial maximum: no call of `GetNext` returns it any more. -/
theorem largeWeights_starve : (∀ t ∈ Finset.range 259, 0 < (largeWeights []).weight t) ∧
    ¬ ∃ K : ℕ, ∀ cs win : List (TaskView ℕ × StrategyCall ℕ),
      (∀ c ∈ cs ++ win, Over (largeWeights []).weight (Finset.range 259) c) →
        ∀ t, StaysRunnable t (replay cs : SmoothWeightedRoundRobin ℕ) win → K ≤ win.countP isGetNext →
          t ∈ returns (replay cs : SmoothWeightedRoundRobin ℕ) win := by
  refine ⟨fun t _ => (largeWeights_range [] t).1, ?_⟩
  rintro ⟨K, hK⟩
  obtain ⟨htasks, hlow⟩ := firstAlone_state
  obtain ⟨hstays, hreturns⟩ := getNext_fails (v := largeWeights []) htasks hlow K
  have hover : ∀ c ∈ firstAlone ++ nextCalls (largeWeights []) K,
      Over (largeWeights []).weight (Finset.range 259) c := by
    intro c hc
    simp only [firstAlone, nextCalls, List.mem_append, List.mem_map, List.mem_range, List.mem_cons,
      List.not_mem_nil, or_false, List.mem_replicate] at hc
    rcases hc with ((⟨t, ht, rfl⟩ | rfl) | ⟨t, -, rfl⟩) | ⟨-, rfl⟩
    · refine ⟨fun _ _ => rfl, ?_⟩
      rintro _ ⟨⟩
      exact Finset.mem_range.mpr ht
    · exact ⟨fun _ _ => rfl, fun _ hadd => by cases hadd⟩
    · exact ⟨fun _ _ => rfl, fun _ hadd => by cases hadd⟩
    · exact ⟨fun _ _ => rfl, fun _ hadd => by cases hadd⟩
  have hcount : (nextCalls (largeWeights []) K).countP isGetNext = K := by
    simp [nextCalls, List.countP_replicate, isGetNext]
  have hmem := hK firstAlone (nextCalls (largeWeights []) K) hover 0 hstays hcount.ge
  rw [hreturns] at hmem
  cases hmem

end Runs

end Stk.Analysis
