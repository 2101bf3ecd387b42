import Stk.Analysis.SmoothStarvation

/-!
# The wake-up boost of smooth weighted round robin

A task that wakes up gets `m_total_weight` as its current weight, and `GetNext` returns the first of the tasks
with the largest current weight plus weight.  The boost does not look at what the runnable tasks have gathered:
the task is returned when none of them has gathered more (`run_wakeBoost`).
-/

set_option autoImplicit false

namespace Stk.Analysis

open Stk.Model
open SmoothWeightedRoundRobin (scanStep Scan)

variable {α : Type} [DecidableEq α]

/-! ## The first of the largest -/

section Scan

variable {v : TaskView α} {y : α → ℤ} {x : α}

/-- INTERNAL: a task that has no more than the maximum so far does not become the next one. -/
theorem scan_stays (v : TaskView α) {l : List α} (hl : l.Nodup) {c : Scan α}
    (hle : ∀ a ∈ l, c.currentWeight a + v.weight a ≤ c.maxWeight) :
    (l.foldl (scanStep v) c).next = c.next ∧ (l.foldl (scanStep v) c).maxWeight = c.maxWeight := by
  induction l generalizing c with
  | nil => exact ⟨rfl, rfl⟩
  | cons b l ih =>
    obtain ⟨hb, hrest⟩ := List.nodup_cons.mp hl
    have hstep : scanStep v c b =
        { c with currentWeight := Function.update c.currentWeight b (c.currentWeight b + v.weight b) } := by
      unfold scanStep
      dsimp only
      rw [if_neg (not_lt.mpr (hle b List.mem_cons_self))]
    rw [List.foldl_cons, hstep]
    apply ih hrest
    intro a ha
    have hab : a ≠ b := by
      rintro rfl
      exact hb ha
    dsimp only
    rw [Function.update_of_ne hab]
    exact hle a (List.mem_cons_of_mem b ha)

/-- **Selection.**  The scan ends with `x` if no task before it has as much and none behind it has more. -/
theorem scan_next_iff {l₁ l₂ : List α} (hl : (l₁ ++ x :: l₂).Nodup) (hmin : int32Min < y x + v.weight x) :
    ((l₁ ++ x :: l₂).foldl (scanStep v) ⟨y, int32Min, none⟩).next = some x ↔
      (∀ a ∈ l₁, y a + v.weight a < y x + v.weight x) ∧ ∀ a ∈ l₂, y a + v.weight a ≤ y x + v.weight x := by
  obtain ⟨hl₁, hcons, hdisj⟩ := List.nodup_append.mp hl
  obtain ⟨hx, hl₂⟩ := List.nodup_cons.mp hcons
  have hx₁ : x ∉ l₁ := fun hmem => hdisj x hmem x List.mem_cons_self rfl
  obtain ⟨hmax₁, -, hnext₁⟩ := scan_max v l₁ hl₁ ⟨y, int32Min, none⟩
  have hweight₁ := scan_currentWeight v l₁ hl₁ ⟨y, int32Min, none⟩
  rw [List.foldl_append, List.foldl_cons]
  generalize l₁.foldl (scanStep v) ⟨y, int32Min, none⟩ = c at *
  have hsame : c.currentWeight x = y x := by
    rw [hweight₁, if_neg hx₁]
  have hother : ∀ a ∈ l₂, (scanStep v c x).currentWeight a = y a := by
    intro a ha
    have hax : a ≠ x := by
      rintro rfl
      exact hx ha
    have ha₁ : a ∉ l₁ := fun hmem => hdisj a hmem a (List.mem_cons_of_mem x ha) rfl
    have hone := scan_currentWeight v [x] (List.nodup_singleton x) c a
    rw [if_neg (by simpa using hax), hweight₁, if_neg ha₁] at hone
    exact hone
  obtain ⟨hmax₂, -, hnext₂⟩ := scan_max v l₂ hl₂ (scanStep v c x)
  have hwins : c.maxWeight < c.currentWeight x + v.weight x →
      (scanStep v c x).next = some x ∧ (scanStep v c x).maxWeight = y x + v.weight x := by
    intro hgt
    unfold scanStep
    dsimp only
    rw [if_pos hgt, hsame]
    exact ⟨rfl, rfl⟩
  constructor
  · intro hnext
    have hlast : (l₂.foldl (scanStep v) (scanStep v c x)).next = (scanStep v c x).next ∧
        (l₂.foldl (scanStep v) (scanStep v c x)).maxWeight = (scanStep v c x).maxWeight := by
      rcases hnext₂ with hkept | ⟨z, hz, hsome, -⟩
      · exact hkept
      · rw [hnext] at hsome
        obtain rfl := Option.some.inj hsome
        exact absurd hz hx
    have hgt : c.maxWeight < c.currentWeight x + v.weight x := by
      by_contra hle
      -- the task found before `x` stays the next one
      have hstep : (scanStep v c x).next = c.next := by
        unfold scanStep
        dsimp only
        rw [if_neg hle]
      rw [hlast.1, hstep] at hnext
      rcases hnext₁ with ⟨hnone, -⟩ | ⟨a, ha, hsome, -⟩
      · rw [hnone] at hnext
        cases hnext
      · rw [hsome] at hnext
        obtain rfl := Option.some.inj hnext
        exact hx₁ ha
    rw [hlast.2, (hwins hgt).2] at hmax₂
    constructor
    · intro a ha
      have hle := hmax₁ a ha
      dsimp only at hle
      omega
    · intro a ha
      rw [← hother a ha]
      exact hmax₂ a ha
  · rintro ⟨hbefore, hbehind⟩
    have hgt : c.maxWeight < c.currentWeight x + v.weight x := by
      rw [hsame]
      rcases hnext₁ with ⟨-, hmin'⟩ | ⟨a, ha, -, hmax⟩
      · rw [hmin']
        exact hmin
      · rw [hmax]
        exact hbefore a ha
    obtain ⟨hsome, hmax⟩ := hwins hgt
    rw [← hsome]
    apply (scan_stays v hl₂ _).1
    intro a ha
    rw [hother a ha, hmax]
    exact hbehind a ha

/-- `GetNext` returns `x`. -/
theorem returned_getNext {s : SmoothWeightedRoundRobin α} {l₁ l₂ : List α} (htasks : s.tasks = l₁ ++ x :: l₂)
    (hl : s.tasks.Nodup) (hmin : int32Min < s.currentWeight x + v.weight x) :
    returned s (v, .getNext) = [x] ↔
      (∀ a ∈ l₁, s.currentWeight a + v.weight a < s.currentWeight x + v.weight x) ∧
        ∀ a ∈ l₂, s.currentWeight a + v.weight a ≤ s.currentWeight x + v.weight x := by
  rw [htasks] at hl
  rw [← scan_next_iff hl hmin, ← htasks]
  have hne : s.tasks ≠ [] := by
    rw [htasks]
    simp
  have hcall : StrategyCall.apply v s .getNext = s.getNext v := rfl
  simp only [returned, hcall, SmoothWeightedRoundRobin.getNext]
  rw [if_neg hne]
  generalize (s.tasks.foldl (scanStep v) ⟨s.currentWeight, int32Min, none⟩).next = next
  cases next with
  | none => simp
  | some z => simp

end Scan

/-! ## Between the wake-up and `GetNext` -/

section Between

variable {w : α → ℤ} {U : Finset α} {s s₂ : SmoothWeightedRoundRobin α} {x y : α}
  {c : TaskView α × StrategyCall α} {post : List (TaskView α × StrategyCall α)}

/-- The call neither selects a task nor wakes one. -/
def isBetween (c : TaskView α × StrategyCall α) : Bool :=
  match c.2 with
  | .getNext => false
  | .onTaskWake _ => false
  | _ => true

/-- What such a call does to the lists and to the current weights. -/
inductive Between (s : SmoothWeightedRoundRobin α) (c : TaskView α × StrategyCall α)
    (s' : SmoothWeightedRoundRobin α) : Prop where
  | idle (same : s' = s) (removes : ∀ t, c.2 = .removeTask t → t ∉ s.tasks ∧ t ∉ s.sleep)
  | adds (t : α) (call : c.2 = .addTask t) (tasks : t ∉ s.tasks) (sleep : t ∉ s.sleep)
      (queue : s'.tasks = s.tasks ++ [t]) (asleep : s'.sleep = s.sleep)
      (weight : s'.currentWeight = Function.update s.currentWeight t noWeight)
  | leaves (t : α) (call : c.2 = .removeTask t) (tasks : t ∈ s.tasks) (queue : s'.tasks = s.tasks.erase t)
      (asleep : s'.sleep = s.sleep) (weight : s'.currentWeight = s.currentWeight)
  | forgets (t : α) (call : c.2 = .removeTask t) (tasks : t ∉ s.tasks) (queue : s'.tasks = s.tasks)
      (asleep : s'.sleep = s.sleep.erase t) (weight : s'.currentWeight = s.currentWeight)
  | sleeps (t : α) (call : c.2 = .onTaskSleep t) (tasks : t ∈ s.tasks) (queue : s'.tasks = s.tasks.erase t)
      (asleep : s'.sleep = s.sleep ++ [t]) (weight : s'.currentWeight = s.currentWeight)

theorem stepCall_between (s : SmoothWeightedRoundRobin α) (hc : isBetween c = true) : Between s c (stepCall s c) := by
  obtain ⟨v, call⟩ := c
  cases call with
  | addTask t =>
    have hcall : StrategyCall.apply v s (.addTask t) = (s.addTask v t).map (none, ·) := rfl
    unfold SmoothWeightedRoundRobin.addTask at hcall
    split at hcall
    · exact .idle (stepCall_error hcall rfl) (fun _ h => nomatch h)
    · split at hcall
      · exact .idle (stepCall_error hcall rfl) (fun _ h => nomatch h)
      · next hmem =>
        obtain ⟨htasks, hsleep⟩ := not_or.mp hmem
        rw [stepCall_ok hcall rfl]
        exact .adds t rfl htasks hsleep rfl rfl rfl
  | removeTask t =>
    have hcall : StrategyCall.apply v s (.removeTask t) = (s.removeTask v t).map (none, ·) := rfl
    unfold SmoothWeightedRoundRobin.removeTask at hcall
    split at hcall
    · next htasks =>
      rw [stepCall_ok hcall rfl]
      exact .leaves t rfl htasks rfl rfl rfl
    · next htasks =>
      split at hcall
      · rw [stepCall_ok hcall rfl]
        exact .forgets t rfl htasks rfl rfl rfl
      · next hsleep =>
        refine .idle (stepCall_error hcall rfl) ?_
        rintro _ ⟨⟩
        exact ⟨htasks, hsleep⟩
  | onTaskSleep t =>
    have hcall : StrategyCall.apply v s (.onTaskSleep t) = (s.onTaskSleep v t).map (none, ·) := rfl
    unfold SmoothWeightedRoundRobin.onTaskSleep at hcall
    split at hcall
    · exact .idle (stepCall_error hcall rfl) (fun _ h => nomatch h)
    · split at hcall
      · exact .idle (stepCall_error hcall rfl) (fun _ h => nomatch h)
      · next htasks =>
        rw [stepCall_ok hcall rfl]
        exact .sleeps t rfl (not_not.mp htasks) rfl rfl rfl
  | onTaskWeightChange t old => exact .idle rfl (fun _ h => nomatch h)
  | getNext => cases hc
  | onTaskWake t => cases hc

/-- Task `y` was runnable before the wake-up and has not been removed since. -/
def KeptSince (s : SmoothWeightedRoundRobin α) (post : List (TaskView α × StrategyCall α)) (y : α) : Prop :=
  y ∈ s.tasks ∧ ∀ c ∈ post, c.2 ≠ .removeTask y

omit [DecidableEq α] in
theorem keptSince_append : KeptSince s (post ++ [c]) y ↔ KeptSince s post y ∧ c.2 ≠ .removeTask y := by
  unfold KeptSince
  simp only [List.mem_append, List.mem_singleton]
  constructor
  · rintro ⟨hy, hall⟩
    exact ⟨⟨hy, fun d hd => hall d (.inl hd)⟩, hall c (.inr rfl)⟩
  · rintro ⟨⟨hy, hall⟩, hlast⟩
    refine ⟨hy, ?_⟩
    rintro d (hd | rfl)
    · exact hall d hd
    · exact hlast

/-- The state `s₂` after the calls `post` that follow the wake-up of `x` in the state `s`: the tasks that were
runnable stand before `x` with the weights they had, and new ones behind it. -/
structure Boosted (s : SmoothWeightedRoundRobin α) (x : α) (post : List (TaskView α × StrategyCall α))
    (s₂ : SmoothWeightedRoundRobin α) : Prop where
  queue : ∃ l₁ l₂, s₂.tasks = l₁ ++ x :: l₂ ∧
    (∀ y ∈ l₁, KeptSince s post y ∧ s₂.currentWeight y = s.currentWeight y) ∧
      ∀ y ∈ l₂, ¬ KeptSince s post y ∧ s₂.currentWeight y = noWeight
  boost : s₂.currentWeight x = s.totalWeight
  members : ∀ y, KeptSince s post y → y ∈ s₂.tasks ∨ y ∈ s₂.sleep

omit [DecidableEq α] in
/-- INTERNAL: no task joins the queue. -/
theorem Boosted.shrink {s₃ : SmoothWeightedRoundRobin α} (h : Boosted s x post s₂)
    (hsplit : ∀ l₁ l₂, s₂.tasks = l₁ ++ x :: l₂ → ∃ l₁' l₂', s₃.tasks = l₁' ++ x :: l₂' ∧ l₁' ⊆ l₁ ∧ l₂' ⊆ l₂)
    (hweight : s₃.currentWeight = s₂.currentWeight) (hspared : ∀ y ∈ s₃.tasks, c.2 ≠ .removeTask y)
    (hmembers : ∀ y, c.2 ≠ .removeTask y → y ∈ s₂.tasks ∨ y ∈ s₂.sleep → y ∈ s₃.tasks ∨ y ∈ s₃.sleep) :
    Boosted s x (post ++ [c]) s₃ := by
  obtain ⟨l₁, l₂, heq, hbefore, hbehind⟩ := h.queue
  obtain ⟨l₁', l₂', heq', hl₁, hl₂⟩ := hsplit l₁ l₂ heq
  refine ⟨⟨l₁', l₂', heq', ?_, ?_⟩, ?_, ?_⟩
  · intro y hy
    have hin : y ∈ s₃.tasks := by
      rw [heq']
      exact List.mem_append_left _ hy
    obtain ⟨hkept, hsame⟩ := hbefore y (hl₁ hy)
    rw [hweight]
    exact ⟨keptSince_append.mpr ⟨hkept, hspared y hin⟩, hsame⟩
  · intro y hy
    obtain ⟨hnot, hnew⟩ := hbehind y (hl₂ hy)
    rw [hweight]
    exact ⟨fun hkept => hnot (keptSince_append.mp hkept).1, hnew⟩
  · rw [hweight]
    exact h.boost
  · intro y hy
    obtain ⟨hkept, hne⟩ := keptSince_append.mp hy
    exact hmembers y hne (h.members y hkept)

theorem erase_split {l l₁ l₂ : List α} {t : α} (htx : t ≠ x) (heq : l = l₁ ++ x :: l₂) :
    ∃ l₁' l₂', l.erase t = l₁' ++ x :: l₂' ∧ l₁' ⊆ l₁ ∧ l₂' ⊆ l₂ := by
  rw [heq]
  by_cases hmem : t ∈ l₁
  · rw [List.erase_append_left _ hmem]
    exact ⟨_, l₂, rfl, List.erase_subset, List.Subset.refl l₂⟩
  · rw [List.erase_append_right _ hmem, List.erase_cons_tail (by simpa using htx.symm)]
    exact ⟨l₁, _, rfl, List.Subset.refl l₁, List.erase_subset⟩

/-- INTERNAL: a call between the wake-up and `GetNext` that leaves `x` runnable. -/
theorem Boosted.step (h : Boosted s x post s₂) (hnodup : (s₂.tasks ++ s₂.sleep).Nodup) (hc : isBetween c = true)
    (hx : x ∈ (stepCall s₂ c).tasks) : Boosted s x (post ++ [c]) (stepCall s₂ c) := by
  obtain ⟨htasks₂, -, hdisj⟩ := List.nodup_append.mp hnodup
  have hbetween := stepCall_between s₂ hc
  generalize stepCall s₂ c = s₃ at *
  cases hbetween with
  | idle same removes =>
    obtain rfl := same
    refine h.shrink (fun l₁ l₂ heq => ⟨l₁, l₂, heq, List.Subset.refl l₁, List.Subset.refl l₂⟩) rfl ?_ (fun _ _ hy => hy)
    intro y hy hcall
    exact (removes y hcall).1 hy
  | adds t call tasks sleep queue asleep weight =>
    obtain ⟨l₁, l₂, heq, hbefore, hbehind⟩ := h.queue
    have hother : ∀ y ∈ s₂.tasks, s₃.currentWeight y = s₂.currentWeight y := by
      intro y hy
      have hyt : y ≠ t := by
        rintro rfl
        exact tasks hy
      rw [weight, Function.update_of_ne hyt]
    have hkept : ∀ y, KeptSince s (post ++ [c]) y ↔ KeptSince s post y := by
      intro y
      rw [keptSince_append, call]
      simp
    rw [heq] at hother
    refine ⟨⟨l₁, l₂ ++ [t], ?_, ?_, ?_⟩, ?_, ?_⟩
    · rw [queue, heq, List.append_assoc, List.cons_append]
    · intro y hy
      rw [hkept, hother y (List.mem_append_left _ hy)]
      exact hbefore y hy
    · intro y hy
      rw [hkept]
      rcases List.mem_append.mp hy with hold | hnew
      · rw [hother y (List.mem_append_right _ (List.mem_cons_of_mem x hold))]
        exact hbehind y hold
      · obtain rfl : y = t := by simpa using hnew
        refine ⟨?_, ?_⟩
        · intro hin
          rcases h.members y hin with hin | hin
          · exact tasks hin
          · exact sleep hin
        · rw [weight, Function.update_self]
    · rw [hother x (by simp)]
      exact h.boost
    · intro y hy
      rw [queue, asleep]
      rcases h.members y ((hkept y).mp hy) with hin | hin
      · exact .inl (List.mem_append_left _ hin)
      · exact .inr hin
  | leaves t call tasks queue asleep weight =>
    have htx : t ≠ x := by
      rintro rfl
      rw [queue, htasks₂.mem_erase_iff] at hx
      exact hx.1 rfl
    refine h.shrink (fun l₁ l₂ heq => queue ▸ erase_split htx heq) weight ?_ ?_
    · intro y hy
      rw [queue, htasks₂.mem_erase_iff] at hy
      rw [call]
      simpa using hy.1.symm
    · intro y hne hy
      have hyt : y ≠ t := by
        rintro rfl
        exact hne call
      rw [queue, asleep, List.mem_erase_of_ne hyt]
      exact hy
  | forgets t call tasks queue asleep weight =>
    refine h.shrink (fun l₁ l₂ heq => ⟨l₁, l₂, queue.trans heq, List.Subset.refl l₁, List.Subset.refl l₂⟩) weight ?_ ?_
    · intro y hy hcall
      rw [call] at hcall
      cases hcall
      rw [queue] at hy
      exact tasks hy
    · intro y hne hy
      have hyt : y ≠ t := by
        rintro rfl
        exact hne call
      rw [queue, asleep, List.mem_erase_of_ne hyt]
      exact hy
  | sleeps t call tasks queue asleep weight =>
    have htx : t ≠ x := by
      rintro rfl
      rw [queue, htasks₂.mem_erase_iff] at hx
      exact hx.1 rfl
    refine h.shrink (fun l₁ l₂ heq => queue ▸ erase_split htx heq) weight ?_ ?_
    · intro y _
      rw [call]
      simp
    · intro y _ hy
      rw [queue, asleep, List.mem_append, List.mem_singleton]
      by_cases hyt : y = t
      · exact .inr (.inr hyt)
      · rw [List.mem_erase_of_ne hyt]
        rcases hy with hin | hin
        · exact .inl hin
        · exact .inr (.inl hin)

/-- INTERNAL: the wake-up itself. -/
theorem Boosted.woken {v : TaskView α} (hawake : v.sleeping x = false) (hsleep : x ∈ s.sleep) (htasks : x ∉ s.tasks) :
    Boosted s x [] (stepCall s (v, .onTaskWake x)) := by
  have hcall : StrategyCall.apply v s (.onTaskWake x) = (s.onTaskWake v x).map (none, ·) := rfl
  unfold SmoothWeightedRoundRobin.onTaskWake at hcall
  rw [if_neg (by rw [hawake]; simp), if_neg (not_not.mpr hsleep)] at hcall
  rw [stepCall_ok hcall rfl]
  refine ⟨⟨s.tasks, [], rfl, ?_, fun y hy => nomatch hy⟩, ?_, ?_⟩
  · intro y hy
    have hyx : y ≠ x := by
      rintro rfl
      exact htasks hy
    refine ⟨⟨hy, fun c hc => nomatch hc⟩, ?_⟩
    simp [SmoothWeightedRoundRobin.addActive, SmoothWeightedRoundRobin.setCurrentWeight, hyx]
  · simp [SmoothWeightedRoundRobin.addActive, SmoothWeightedRoundRobin.setCurrentWeight]
  · intro y hy
    left
    simp [SmoothWeightedRoundRobin.addActive, SmoothWeightedRoundRobin.setCurrentWeight, hy.1]

/-- INTERNAL: the calls between the wake-up and `GetNext`. -/
theorem Boosted.along (hw : ∀ t ∈ U, 0 < w t) {pre : List (TaskView α × StrategyCall α)} (h : Boosted s x pre s₂)
    (hshares : Shares w U s₂) (hover : ∀ c ∈ post, Over w U c) (hpost : ∀ c ∈ post, isBetween c = true)
    (hstays : StaysRunnable x s₂ post) : Boosted s x (pre ++ post) (post.foldl stepCall s₂) := by
  induction post generalizing pre s₂ with
  | nil =>
    rw [List.append_nil]
    exact h
  | cons c post ih =>
    have hnext := h.step hshares.nodup (hpost c List.mem_cons_self) hstays.2.mem.1
    have hkeep := (hshares.turn hw (hover c List.mem_cons_self)).shares
    have hrest := ih hnext hkeep (fun d hd => hover d (List.mem_cons_of_mem c hd))
      (fun d hd => hpost d (List.mem_cons_of_mem c hd)) hstays.2
    rw [List.append_assoc, List.singleton_append] at hrest
    exact hrest

/-- No task that is runnable in the state `s₂` is ahead of `x`, which woke up in the state `s`: none that was
runnable then had gathered as much, and none that was added since has a larger weight by more than one. -/
def Unrivalled (w : α → ℤ) (s : SmoothWeightedRoundRobin α) (x : α) (post : List (TaskView α × StrategyCall α))
    (s₂ : SmoothWeightedRoundRobin α) : Prop :=
  ∀ y ∈ s₂.tasks, y ≠ x →
    (KeptSince s post y → s.currentWeight y + w y < s.totalWeight + w x) ∧
      (¬ KeptSince s post y → w y ≤ s.totalWeight + w x + 1)

/-- INTERNAL: the selection in a state after the wake-up. -/
theorem Boosted.selected (h : Boosted s x post s₂) (hw : ∀ t ∈ U, 0 < w t) (hshares : Shares w U s₂) {v : TaskView α}
    (hv : ∀ t ∈ U, v.weight t = w t) (htotal : 0 ≤ s.totalWeight) :
    returned s₂ (v, .getNext) = [x] ↔ Unrivalled w s x post s₂ := by
  obtain ⟨l₁, l₂, heq, hbefore, hbehind⟩ := h.queue
  have hnodup : s₂.tasks.Nodup := (List.nodup_append.mp hshares.nodup).1
  have hin : ∀ y ∈ s₂.tasks, v.weight y = w y := by
    intro y hy
    exact hv y (hshares.subset y (List.mem_append_left _ hy))
  have hx : x ∈ s₂.tasks := by
    rw [heq]
    simp
  have hpos : 0 < w x := hw x (hshares.subset x (List.mem_append_left _ hx))
  have hmin : int32Min < s₂.currentWeight x + v.weight x := by
    rw [hin x hx, h.boost]
    unfold int32Min
    omega
  have hl₁ : ∀ y ∈ l₁, y ∈ s₂.tasks := by
    intro y hy
    rw [heq]
    exact List.mem_append_left _ hy
  have hl₂ : ∀ y ∈ l₂, y ∈ s₂.tasks := by
    intro y hy
    rw [heq]
    exact List.mem_append_right _ (List.mem_cons_of_mem x hy)
  rw [returned_getNext heq hnodup hmin, hin x hx, h.boost]
  constructor
  · rintro ⟨hless, hle⟩ y hy hyx
    rw [heq] at hy
    rcases List.mem_append.mp hy with hy₁ | hy₂
    · obtain ⟨hkept, hsame⟩ := hbefore y hy₁
      have hlt := hless y hy₁
      rw [hin y (hl₁ y hy₁), hsame] at hlt
      exact ⟨fun _ => hlt, fun hnot => absurd hkept hnot⟩
    · rcases List.mem_cons.mp hy₂ with rfl | hy₂
      · exact absurd rfl hyx
      · obtain ⟨hnot, hnew⟩ := hbehind y hy₂
        have hle' := hle y hy₂
        rw [hin y (hl₂ y hy₂), hnew] at hle'
        unfold noWeight at hle'
        exact ⟨fun hkept => absurd hkept hnot, fun _ => by omega⟩
  · intro hrivals
    rw [heq] at hnodup
    obtain ⟨-, hcons, hdisj⟩ := List.nodup_append.mp hnodup
    constructor
    · intro y hy
      obtain ⟨hkept, hsame⟩ := hbefore y hy
      have hyx : y ≠ x := hdisj y hy x List.mem_cons_self
      rw [hin y (hl₁ y hy), hsame]
      exact (hrivals y (hl₁ y hy) hyx).1 hkept
    · intro y hy
      obtain ⟨hnot, hnew⟩ := hbehind y hy
      have hyx : y ≠ x := by
        rintro rfl
        exact (List.nodup_cons.mp hcons).1 hy
      have hle := (hrivals y (hl₂ y hy) hyx).2 hnot
      rw [hin y (hl₂ y hy), hnew]
      unfold noWeight
      omega

/-- INTERNAL: a task that is not runnable is not returned. -/
theorem returned_mem (hshares : Shares w U s) {v : TaskView α} (hv : ∀ t ∈ U, v.weight t = w t)
    (h : returned s (v, .getNext) = [x]) : x ∈ s.tasks := by
  have hcall : StrategyCall.apply v s .getNext = s.getNext v := rfl
  simp only [returned, hcall] at h
  by_cases hnil : s.tasks = []
  · simp [SmoothWeightedRoundRobin.getNext, hnil] at h
  · have hweight : ∀ t ∈ s.tasks.toFinset, v.weight t = w t := fun t ht => hv t (hshares.toFinset_subset ht)
    have htotal : s.totalWeight = ∑ t ∈ s.tasks.toFinset, v.weight t := by
      rw [hshares.total, Finset.sum_congr rfl hweight]
    rcases getNext_round (List.nodup_append.mp hshares.nodup).1 hnil htotal with
      ⟨herror, -⟩ | ⟨z, s', hok, hz, -⟩
    · rw [herror] at h
      cases h
    · rw [hok] at h
      obtain rfl : z = x := by simpa using h
      exact hz

end Between

/-! ## Results -/

section Results

variable {w : α → ℤ} {U : Finset α}

/-- **Wake-up boost.**  After any run of calls over tasks with positive weights that are narrow enough a sleeping
task `x` wakes up, and no other task does before the next `GetNext`.  If `x` is still runnable then, `GetNext`
returns it just when it is unrivalled.  The boost and the sums of the `GetNext` are in the range of an `int32_t`. -/
theorem run_wakeBoost (hw : ∀ t ∈ U, 0 < w t) (hnarrow : NarrowWeights w U) {cs post : List (TaskView α × StrategyCall α)}
    (hcs : ∀ c ∈ cs ++ post, Over w U c) (hpost : ∀ c ∈ post, isBetween c = true) {v v' : TaskView α} {x : α}
    (hv : ∀ t ∈ U, v.weight t = w t) (hv' : ∀ t ∈ U, v'.weight t = w t)
    (hsleep : x ∈ (replay cs : SmoothWeightedRoundRobin α).sleep) (hawake : v.sleeping x = false) :
    let s : SmoothWeightedRoundRobin α := replay cs
    let s₂ := post.foldl stepCall (stepCall s (v, .onTaskWake x))
    (s.totalWeight ≤ int32Max ∧ s₂.totalWeight ≤ int32Max ∧ FitsInt32 v' s₂) ∧
    (StaysRunnable x (stepCall s (v, .onTaskWake x)) post →
      (returned s₂ (v', .getNext) = [x] ↔ Unrivalled w s x post s₂)) ∧
    (x ∉ s₂.tasks → returned s₂ (v', .getNext) ≠ [x]) := by
  intro s s₂
  have hshares : Shares w U s := run_shares hw (fun c hc => hcs c (List.mem_append_left post hc))
  have hover : ∀ c ∈ post, Over w U c := fun c hc => hcs c (List.mem_append_right cs hc)
  have hwake : Over w U (v, .onTaskWake x) := ⟨hv, fun t h => nomatch h⟩
  have hwoken : Shares w U (stepCall s (v, .onTaskWake x)) := (hshares.turn hw hwake).shares
  have hshares₂ : Shares w U s₂ := Runs.foldl_keeps (fun _ c hc h => (h.turn hw (hover c hc)).shares) hwoken
  refine ⟨⟨hshares.total_fits hw hnarrow, hshares₂.total_fits hw hnarrow, hshares₂.fits hw hnarrow hv'⟩, ?_, ?_⟩
  · intro hstays
    have htasks : x ∉ s.tasks := fun hin => (List.nodup_append.mp hshares.nodup).2.2 x hin x hsleep rfl
    have hboosted := (Boosted.woken hawake hsleep htasks).along hw hwoken hover hpost hstays
    exact hboosted.selected hw hshares₂ hv' (hshares.total_le hw).1
  · intro hgone hreturned
    exact hgone (returned_mem hshares₂ hv' hreturned)

end Results

section Runs

/-- Task 0 has the weight 10, the others have the weight 1; the tasks of `asleep` sleep. -/
def heavyAndLight (asleep : List ℕ) : TaskView ℕ :=
  ⟨fun t => if t = 0 then 10 else 1, fun _ => 0, fun t => decide (t ∈ asleep), fun _ => 0, fun _ => 0⟩

/-- Three tasks, of which task 2 sleeps, and `k` calls of `GetNext`. -/
def lightSleeps (k : ℕ) : List (TaskView ℕ × StrategyCall ℕ) :=
  [(heavyAndLight [], .addTask 0), (heavyAndLight [], .addTask 1), (heavyAndLight [], .addTask 2),
    (heavyAndLight [2], .onTaskSleep 2)] ++ List.replicate k (heavyAndLight [2], .getNext)

/-- Task 2 wakes up after one call of `GetNext` and is returned by the next. -/
theorem lightSleeps_boosted :
    returned (stepCall (replay (lightSleeps 1) : SmoothWeightedRoundRobin ℕ) (heavyAndLight [], .onTaskWake 2))
      (heavyAndLight [], .getNext) = [2] := by
  have hcs : ∀ c ∈ lightSleeps 1 ++ [], Over (fun t => if t = 0 then 10 else 1) {0, 1, 2} c := by
    intro c hc
    simp only [lightSleeps, List.replicate, List.append_nil, List.cons_append, List.nil_append, List.mem_cons,
      List.not_mem_nil, or_false] at hc
    rcases hc with rfl | rfl | rfl | rfl | rfl
    · exact ⟨fun _ _ => rfl, by simp⟩
    · exact ⟨fun _ _ => rfl, by simp⟩
    · exact ⟨fun _ _ => rfl, by simp⟩
    · exact ⟨fun _ _ => rfl, by simp⟩
    · exact ⟨fun _ _ => rfl, by simp⟩
  have hboost := @run_wakeBoost ℕ _ (fun t => if t = 0 then 10 else 1) {0, 1, 2} (by decide) (by decide) (lightSleeps 1) [] hcs
    (fun c hc => nomatch hc) (heavyAndLight []) (heavyAndLight []) 2 (fun _ _ => rfl) (fun _ _ => rfl)
    (by decide +kernel) rfl
  apply (hboost.2.1 (by decide +kernel)).mpr
  have htasks : (stepCall (replay (lightSleeps 1) : SmoothWeightedRoundRobin ℕ)
      (heavyAndLight [], .onTaskWake 2)).tasks = [0, 1, 2] := by decide +kernel
  intro y hy hne
  rw [List.foldl_nil, htasks] at hy
  simp only [List.mem_cons, List.not_mem_nil, or_false] at hy
  rcases hy with rfl | rfl | rfl
  · exact ⟨fun _ => by decide +kernel, fun _ => by decide +kernel⟩
  · exact ⟨fun _ => by decide +kernel, fun _ => by decide +kernel⟩
  · exact absurd rfl hne

/-- After three calls of `GetNext` task 1 has gathered 2.  The heavy task sleeps, and task 2 wakes up: its boost
is 1, and the next `GetNext` returns task 1. -/
theorem lightSleeps_outweighed :
    2 ∈ (replay (lightSleeps 3 ++ [(heavyAndLight [0, 2], .onTaskSleep 0)]) : SmoothWeightedRoundRobin ℕ).sleep ∧
      returned (stepCall (replay (lightSleeps 3 ++ [(heavyAndLight [0, 2], .onTaskSleep 0)]) :
        SmoothWeightedRoundRobin ℕ) (heavyAndLight [0], .onTaskWake 2)) (heavyAndLight [0], .getNext) = [1] ∧
      ¬ returned (stepCall (replay (lightSleeps 3 ++ [(heavyAndLight [0, 2], .onTaskSleep 0)]) :
        SmoothWeightedRoundRobin ℕ) (heavyAndLight [0], .onTaskWake 2)) (heavyAndLight [0], .getNext) = [2] := by
  decide +kernel

end Runs

end Stk.Analysis
