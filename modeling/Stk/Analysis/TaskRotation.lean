import Stk.Analysis.BoundedBypass
import Stk.Foundation.Rotation

/-!
# The rotation of the tasks that stay

`RemoveActive` of `SwitchStrategyRoundRobin`, and of one level of `SwitchStrategyFixedPriority`,
puts `m_prev` on the predecessor of the task that follows the removed one.  What `GetNext` returns
from then on is the old sequence without that task exactly when the task stood at `m_prev` or right
behind it (`run_rotation`).  A task taken out anywhere else takes the turn of the tasks between
`m_prev` and itself along.
-/

set_option autoImplicit false

namespace Stk.Analysis

open Stk.Model ClosedLoop Rotation

variable {α : Type} [DecidableEq α]

/-- `OnTaskSleep(x)` or `RemoveTask(x)` leads from `s` to `s'`. -/
def TakesOut {σ : Type} [SwitchStrategy α σ] (v : TaskView α) (x : α) (s s' : σ) : Prop :=
  SwitchStrategy.onTaskSleep v s x = .ok s' ∨ SwitchStrategy.removeTask v s x = .ok s'

/-! ## Round robin -/

/-- INTERNAL: a runnable task is taken out by `RemoveActive`. -/
theorem roundRobin_takesOut {v : TaskView α} {x : α} {s s' : RoundRobin α} (hx : x ∈ s.tasks)
    (hout : TakesOut v x s s') : roundRobinLoop s' = (roundRobinLoop s).unlink x := by
  rcases hout with hsleep | hremove
  · replace hsleep : s.onTaskSleep v x = .ok s' := hsleep
    unfold RoundRobin.onTaskSleep at hsleep
    split at hsleep
    · cases hsleep
    · cases hsleep
      rfl
  · replace hremove : s.removeTask x = .ok s' := hremove
    unfold RoundRobin.removeTask at hremove
    rw [if_pos hx] at hremove
    cases hremove
    rfl

/-- Taking `x` out deletes it from what `GetNext` returns exactly when it stands at the cursor. -/
theorem roundRobin_rotation (cs : List (TaskView α × StrategyCall α)) {v : TaskView α} {x : α}
    {s' : RoundRobin α} (hx : x ∈ (replay cs : RoundRobin α).tasks) (hout : TakesOut v x (replay cs) s') :
    DrawsWithout RoundRobin.getNext x (replay cs) s' ↔ (roundRobinLoop (replay cs : RoundRobin α)).AtCursor x := by
  have hwf := roundRobinWf_replay cs
  generalize (replay cs : RoundRobin α) = s at hx hout hwf ⊢
  have hdrawn : ∀ (s : RoundRobin α) (n : ℕ),
      drawn RoundRobin.getNext n s = drawn ClosedLoop.advance n (roundRobinLoop s) := by
    intro s n
    refine drawn_map (I := fun _ => True) (fun s _ => ?_) trivial n
    rw [roundRobinLoop_advance s]
    exact ⟨rfl, rfl, trivial⟩
  rw [drawsWithout_congr (hdrawn s) (hdrawn s'), roundRobin_takesOut hx hout]
  exact unlink_drawsWithout hwf.loop hx

/-! ## One level of fixed priority -/

section FixedPriority

variable {P : ℕ}

/-- `GetNext` on level `p` (stk_strategy_fpriority.h:172-180). -/
def levelNext (p : ℕ) (s : FixedPriority P α) : Option α × FixedPriority P α :=
  match s.prev p with
  | none => (none, s)
  | some prev =>
    (some (succ (s.tasks p) prev), { s with prev := Function.update s.prev p (some (succ (s.tasks p) prev)) })

/-- `OnTaskWeightChange` moves `x` from level `p` to another one. -/
def MovesAway (v : TaskView α) (x : α) (p : ℕ) (s s' : FixedPriority P α) : Prop :=
  FixedPriority.getTaskPriority v x ≠ p ∧ ∃ oldWeight, s.onTaskWeightChange v x oldWeight = .ok s'

/-- INTERNAL: `GetNext` is `levelNext` of the level it selects. -/
theorem getNext_levelNext {p : ℕ} {s : FixedPriority P α} (h : LevelsWf s) (hsel : SelectsLevel p s)
    (hready : s.tasks p ≠ []) : s.getNext = .ok (levelNext p s) := by
  obtain ⟨hbits, rfl⟩ := hsel
  unfold FixedPriority.getNext levelNext
  rw [if_pos hbits]
  cases hprev : s.prev (getHighestReadyPriority s.readyBitmap) with
  | none => exact absurd ((h.level _).cursor_none hprev) hready
  | some prev => simp only [hprev]

/-- INTERNAL: `levelNext` advances the loop of the level. -/
theorem levelNext_advance (p : ℕ) (s : FixedPriority P α) :
    (levelNext p s).1 = (s.level p).advance.1 ∧ (levelNext p s).2.level p = (s.level p).advance.2 := by
  unfold levelNext ClosedLoop.advance FixedPriority.level
  cases hprev : s.prev p with
  | none => simp [hprev]
  | some c => simp

/-- INTERNAL: a task of level `p` is taken out of it by `RemoveActive`. -/
theorem level_takesOut {p : ℕ} {v : TaskView α} {x : α} {s s' : FixedPriority P α} (h : LevelsWf s)
    (hx : x ∈ s.tasks p) (hout : TakesOut v x s s' ∨ MovesAway v x p s s') :
    s'.level p = (s.level p).unlink x := by
  have hunlink : ∀ {q : ℕ}, x ∈ s.tasks q → (s.removeActive x q).level p = (s.level p).unlink x := by
    intro q hq
    rw [FixedPriority.removeActive_level, if_pos (h.unique p q x hx hq)]
  rcases hout with (hsleep | hremove) | ⟨haway, old, hchange⟩
  · replace hsleep : s.onTaskSleep v x = .ok s' := hsleep
    unfold FixedPriority.onTaskSleep at hsleep
    dsimp only at hsleep
    split at hsleep
    · cases hsleep
    · split at hsleep
      · cases hsleep
      · next hmem =>
        cases hsleep
        exact hunlink (not_not.mp hmem)
  · replace hremove : s.removeTask v x = .ok s' := hremove
    unfold FixedPriority.removeTask at hremove
    dsimp only at hremove
    split at hremove
    · cases hremove
    · next hmem =>
      have hsleep : x ∉ s.sleep := h.disjoint p x hx
      rw [if_neg hsleep] at hremove
      cases hremove
      exact hunlink ((not_not.mp hmem).resolve_right hsleep)
  · unfold FixedPriority.onTaskWeightChange at hchange
    dsimp only at hchange
    split at hchange
    · cases hchange
    · split at hchange
      · cases hchange
      · rw [if_neg (h.disjoint p x hx)] at hchange
        split at hchange
        · cases hchange
        · next hmem =>
          cases hchange
          have hold := not_not.mp hmem
          rw [FixedPriority.addActive_level ((h.removeActive hold).level _), if_neg (Ne.symm haway)]
          exact hunlink hold

/-- Taking `x` out of level `p` deletes it from what the level's `GetNext` returns exactly when it
stands at the cursor of the level. -/
theorem level_rotation {cs : List (TaskView α × StrategyCall α)} (hrange : ∀ c ∈ cs, WakesInRange P c)
    {v : TaskView α} {x : α} {p : ℕ} {s' : FixedPriority P α} (hx : x ∈ (replay cs : FixedPriority P α).tasks p)
    (hout : TakesOut v x (replay cs) s' ∨ MovesAway v x p (replay cs) s') :
    (SelectsLevel p (replay cs : FixedPriority P α) →
      (replay cs : FixedPriority P α).getNext = .ok (levelNext p (replay cs))) ∧
    (DrawsWithout (levelNext p) x (replay cs) s' ↔ ((replay cs : FixedPriority P α).level p).AtCursor x) := by
  have hwf := levelsWf_replay hrange
  generalize (replay cs : FixedPriority P α) = s at hx hout hwf ⊢
  refine ⟨fun hsel => getNext_levelNext hwf hsel (List.ne_nil_of_mem hx), ?_⟩
  have hdrawn : ∀ (s : FixedPriority P α) (n : ℕ),
      drawn (levelNext p) n s = drawn ClosedLoop.advance n (s.level p) := by
    intro s n
    refine drawn_map (f := fun s : FixedPriority P α => s.level p) (I := fun _ => True) (fun s _ => ?_) trivial n
    obtain ⟨hfst, hsnd⟩ := levelNext_advance p s
    exact ⟨hfst, hsnd, trivial⟩
  rw [drawsWithout_congr (f := fun s : FixedPriority P α => s.level p) (hdrawn s) (hdrawn s'),
    level_takesOut hwf hx hout]
  exact unlink_drawsWithout (hwf.level p) hx

end FixedPriority

/-- **The rotation of the tasks that stay.**  After every history of calls, taking a runnable task out
of the round robin, by `OnTaskSleep` or `RemoveTask`, leaves the sequence of the later `GetNext`
calls as it would have been without that task exactly when the task is the one at `m_prev` or the
one right behind it.  The same holds of each level of fixed priority, where moving the task to another
level takes it out, too. -/
theorem run_rotation (cs : List (TaskView α × StrategyCall α)) (v : TaskView α) (x : α) :
    (x ∈ (replay cs : RoundRobin α).tasks → ∀ s', TakesOut v x (replay cs) s' →
      (DrawsWithout RoundRobin.getNext x (replay cs) s' ↔
        (roundRobinLoop (replay cs : RoundRobin α)).AtCursor x)) ∧
    ∀ P p, (∀ c ∈ cs, WakesInRange P c) → x ∈ (replay cs : FixedPriority P α).tasks p →
      ∀ s' : FixedPriority P α, TakesOut v x (replay cs) s' ∨ MovesAway v x p (replay cs) s' →
        (SelectsLevel p (replay cs : FixedPriority P α) →
          (replay cs : FixedPriority P α).getNext = .ok (levelNext p (replay cs))) ∧
        (DrawsWithout (levelNext p) x (replay cs) s' ↔
          ((replay cs : FixedPriority P α).level p).AtCursor x) :=
  ⟨fun hx _ hout => roundRobin_rotation cs hx hout, fun _ _ hrange hx _ hout => level_rotation hrange hx hout⟩

section Runs

/-- Tasks of priority 0 of which those in `slept` sleep. -/
def sleepingView (slept : List ℕ) : TaskView ℕ :=
  ⟨fun _ => 0, fun _ => 0, fun t => decide (t ∈ slept), fun _ => 0, fun _ => 0⟩

/-- Tasks 0, 1 and 2 are added and `GetNext` is called once. -/
def threeTasks : List (TaskView ℕ × StrategyCall ℕ) :=
  [(sleepingView [], .addTask 0), (sleepingView [], .addTask 1), (sleepingView [], .addTask 2),
    (sleepingView [], .getNext)]

/-- Task 1, which is next, goes to sleep: tasks 2 and 0 go on in turn. -/
theorem threeTasks_next :
    ∃ s' : RoundRobin ℕ, TakesOut (sleepingView [1]) 1 (replay threeTasks) s' ∧
      DrawsWithout RoundRobin.getNext 1 (replay threeTasks) s' ∧
      drawn RoundRobin.getNext 4 (replay threeTasks) = [1, 2, 0, 1] ∧
      drawn RoundRobin.getNext 4 s' = [2, 0, 2, 0] := by
  have hout : TakesOut (sleepingView [1]) 1 (replay threeTasks) (⟨[0, 2], [1], some 0⟩ : RoundRobin ℕ) :=
    Or.inl (by decide)
  have hrot := (run_rotation threeTasks (sleepingView [1]) 1).1 (by decide) _ hout
  exact ⟨_, hout, hrot.mpr (by decide), by decide, by decide⟩

/-- `GetNext` has just returned task 0; when task 2 goes to sleep, it returns task 0 again and leaves
out the turn of task 1. -/
theorem threeTasks_skipped :
    returns (SwitchStrategy.empty : RoundRobin ℕ) threeTasks = [0] ∧
      2 ∈ (replay threeTasks : RoundRobin ℕ).tasks ∧
      ∃ s' : RoundRobin ℕ, TakesOut (sleepingView [2]) 2 (replay threeTasks) s' ∧
        drawn RoundRobin.getNext 4 (replay threeTasks) = [1, 2, 0, 1] ∧
        drawn RoundRobin.getNext 4 s' = [0, 1, 0, 1] ∧
        ¬ DrawsWithout RoundRobin.getNext 2 (replay threeTasks) s' := by
  have hout : TakesOut (sleepingView [2]) 2 (replay threeTasks) (⟨[0, 1], [2], some 1⟩ : RoundRobin ℕ) :=
    Or.inl (by decide)
  have hrun : 2 ∈ (replay threeTasks : RoundRobin ℕ).tasks := by decide
  refine ⟨by decide, hrun, _, hout, by decide, by decide, ?_⟩
  rw [roundRobin_rotation threeTasks hrun hout]
  decide

end Runs

end Stk.Analysis
