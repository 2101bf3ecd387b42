import Stk.Analysis.InfiniteSleep

/-!
# Suspended tasks

`SuspendTask` puts a task to an infinite sleep.  In the modes without `KERNEL_HRT` only a
wake-up ends it.  In `KERNEL_HRT` the FSM gives the task it switches out the rest of its
period to sleep, whatever the task sleeps for: `run_suspended` has the condition that no tick
does that to the suspended task, `lastSuspended_wakes` is a run where one does.
-/

set_option autoImplicit false

namespace Stk.Analysis

open Stk.Model Stk.Model.Kernel

variable {n : ℕ} {σ : Type} [SwitchStrategy (Fin n) σ] {cfg : Config} {k : Kernel n σ} {i : Fin n}
  {u : TId} {since : ℤ}

/-- `SuspendTask` of `u`, bound to slot `i`, reports `suspended = true` (stk.h:1158-1159).  The
task is not linked in a wait list, as every task that is awake is unless it was resumed out
of its wait. -/
structure Suspends (k : Kernel n σ) (u : TId) (i : Fin n) : Prop where
  bound : k.findTaskByUserTask u = some i
  awake : (k.tasks i).isSleeping = false
  unlinked : (k.tasks i).waitObj.syncObj = none

/-- Slot `i` holds the task `u`, asleep since the tick count `since` with the infinite
timeout.  A removal scheduled meanwhile starts the infinite sleep anew. -/
structure Suspended (u : TId) (i : Fin n) (since : ℤ) (k : Kernel n σ) : Prop where
  user : (k.tasks i).user = some u
  past : since ≤ k.ticks
  clock : (k.tasks i).timeSleep ≤ k.ticks - since - waitInfinite
  unlinked : (k.tasks i).waitObj.syncObj = none

/-- The steps that leave the suspended task `u` in slot `i` alone: nobody resumes it, it makes
no call of its own that rewrites its sleep counter, and no tick re-arms its period. -/
def LeavesSuspended (cfg : Config) (u : TId) (i : Fin n) (k : Kernel n σ) : KernelEvent n → Prop
  | .resumeTask v | .sleepCancel v => v ≠ u
  | .sleep j _ | .sleepUntil j _ | .switchToNext j | .wait j _ _ => j ≠ i
  | .onTick e => ¬Rearms cfg (({ k with ticks := k.ticks + e } : Kernel n σ).updateTasks cfg e).1 i
  | _ => True

instance : ∀ e : KernelEvent n, Decidable (LeavesSuspended cfg u i k e)
  | .resumeTask v | .sleepCancel v => inferInstanceAs (Decidable (v ≠ u))
  | .sleep j _ | .sleepUntil j _ | .switchToNext j | .wait j _ _ => inferInstanceAs (Decidable (j ≠ i))
  | .onTick e => inferInstanceAs (Decidable
      (¬Rearms cfg (({ k with ticks := k.ticks + e } : Kernel n σ).updateTasks cfg e).1 i))
  | .addTask _ | .addTaskHrt _ _ _ _ | .removeTask _ | .onStart | .onStop | .onSuspend
  | .requestAddTask _ _ | .waitReturn _ | .taskExit _ | .suspendTask _ | .scheduleTaskRemoval _
  | .wakeOne _ | .wakeAll _ | .inheritWeight _ _ | .restoreWeight _ _ => .isTrue trivial

namespace Suspended

omit [SwitchStrategy (Fin n) σ] in
theorem isSleeping (h : Suspended u i since k) (hlt : k.ticks - since < waitInfinite) :
    (k.tasks i).isSleeping = true := by
  have hclock := h.clock
  rw [KernelTask.isSleeping_iff]
  omega

omit [SwitchStrategy (Fin n) σ] in
theorem busy (h : Suspended u i since k) : (k.tasks i).user ≠ none := by
  rw [h.user]
  exact Option.some_ne_none u

omit [SwitchStrategy (Fin n) σ] in
theorem frame {k' : Kernel n σ} (h : Suspended u i since k) (hs : SameSlot i k k') :
    Suspended u i since k' where
  user := by rw [hs.user]; exact h.user
  past := by rw [hs.ticks]; exact h.past
  clock := by rw [hs.time, hs.ticks]; exact h.clock
  unlinked := by rw [hs.waitObj]; exact h.unlinked

omit [SwitchStrategy (Fin n) σ] in
/-- INTERNAL: the slot that `FindTaskByUserTask` finds for another task is another slot. -/
theorem find_ne (h : Suspended u i since k) {v : TId} (hv : v ≠ u) :
    k.findTaskByUserTask v ≠ some i := by
  intro hfind
  have hbound : (k.tasks i).user = some v := by
    simpa [Kernel.findTaskByUserTask] using List.find?_some hfind
  rw [h.user] at hbound
  exact hv (Option.some.inj hbound).symm

theorem scheduleRemoval (h : Suspended u i since k) : Suspended u i since (k.scheduleRemoval cfg i) := by
  have hpast := h.past
  refine ⟨?_, h.past, ?_, ?_⟩
  · unfold Kernel.scheduleRemoval KernelTask.scheduleRemoval
    dsimp only [Kernel.setTask]
    rw [Function.update_self]
    split <;> exact h.user
  · have htime : ((k.scheduleRemoval cfg i).tasks i).timeSleep = -waitInfinite := by
      unfold Kernel.scheduleRemoval KernelTask.scheduleRemoval
      dsimp only [Kernel.setTask]
      rw [Function.update_self]
      split <;> rfl
    rw [htime]
    show -waitInfinite ≤ k.ticks - since - waitInfinite
    omega
  · unfold Kernel.scheduleRemoval KernelTask.scheduleRemoval
    dsimp only [Kernel.setTask]
    rw [Function.update_self]
    split <;> exact h.unlinked

/-- INTERNAL: a tick advances the counter or removes the task. -/
theorem onTick (h : Suspended u i since k) (hk : Linked k) (hlt : k.ticks - since < waitInfinite)
    {e : ℤ} (he : 0 ≤ e)
    (hout : ¬Rearms cfg (({ k with ticks := k.ticks + e } : Kernel n σ).updateTasks cfg e).1 i) :
    Suspended u i since (k.onTick cfg e).1 ∨ ((k.onTick cfg e).1.tasks i).user = none := by
  have hclock := h.clock
  have hpast := h.past
  have hneg : (k.tasks i).timeSleep < 0 := by omega
  obtain hself | ⟨-, hnone⟩ := SameSlot.onTick_or_removed e
    (SameSlot.sync cfg e hk (.inl h.unlinked)) h.busy hneg hout
  · left
    refine frame (k := SameSlot.advanced i e { k with ticks := k.ticks + e }) ⟨?_, ?_, ?_, ?_⟩ hself
    · simpa [SameSlot.advanced, Kernel.setTask] using h.user
    · show since ≤ k.ticks + e
      omega
    · simp only [SameSlot.advanced, Kernel.setTask, Function.update_self]
      omega
    · simpa [SameSlot.advanced, Kernel.setTask] using h.unlinked
  · exact .inr hnone

/-- INTERNAL: a call other than a tick leaves the suspended task alone, schedules its removal
or removes it. -/
theorem step_call (h : Suspended u i since k) (hk : Linked k)
    (hlt : k.ticks - since < waitInfinite) {e : KernelEvent n} (he : LeavesSuspended cfg u i k e)
    (htick : ∀ t, e ≠ .onTick t) :
    Suspended u i since (k.step cfg e) ∨ ((k.step cfg e).tasks i).user = none := by
  have hsame : Undisturbed cfg i k e →
      Suspended u i since (k.step cfg e) ∨ ((k.step cfg e).tasks i).user = none :=
    fun hun => .inl (h.frame (step_sameSlot h.busy (h.isSleeping hlt) hun htick))
  have hnotin : ∀ o, i ∉ k.waitList o := by
    intro o hmem
    have hlinked := (hk.mem i o).mpr hmem
    rw [h.unlinked] at hlinked
    cases hlinked
  cases e with
  | onTick t => exact absurd rfl (htick t)
  | removeTask v =>
    by_cases hv : k.findTaskByUserTask v = some i
    · simp only [Kernel.step, hv]
      split
      · exact .inr (removeTask_frame cfg k i).2.2.1
      · exact .inl h
    · exact hsame hv
  | scheduleTaskRemoval v =>
    by_cases hv : k.findTaskByUserTask v = some i
    · simp only [Kernel.step, hv]
      split
      · exact .inl h.scheduleRemoval
      · exact .inl h
    · exact hsame hv
  | taskExit j =>
    by_cases hj : j = i
    · subst hj
      simp only [Kernel.step]
      split
      · exact .inl h.scheduleRemoval
      · exact .inl h
    · exact hsame hj
  | resumeTask v => exact hsame (h.find_ne he)
  | sleepCancel v => exact hsame (h.find_ne he)
  | wakeOne o => exact hsame (hnotin o)
  | wakeAll o => exact hsame (hnotin o)
  | sleep j t => exact hsame he
  | sleepUntil j t => exact hsame he
  | switchToNext j => exact hsame he
  | wait j o t => exact hsame he
  | _ => exact hsame trivial

theorem step (h : Suspended u i since k) (hk : Linked k) (hlt : k.ticks - since < waitInfinite)
    {e : KernelEvent n} (he : LeavesSuspended cfg u i k e) :
    Suspended u i since (k.step cfg e) ∨ ((k.step cfg e).tasks i).user = none := by
  by_cases htick : ∀ t, e ≠ .onTick t
  · exact h.step_call hk hlt he htick
  · obtain ⟨t, rfl⟩ := not_forall_not.mp htick
    simp only [Kernel.step]
    split
    · next hvalid =>
      simp only [validElapsed, Bool.and_eq_true, decide_eq_true_eq] at hvalid
      exact h.onTick hk hlt hvalid.2.1.1.le he
    · exact .inl h

/-- INTERNAL: by induction on the run, as long as the task stays in its slot. -/
theorem run {es : List (KernelEvent n)} (h : Suspended u i since k) (hk : Linked k)
    (hes : Runs.Along (Kernel.step cfg) (LeavesSuspended cfg u i) k es)
    (hlt : (es.foldl (Kernel.step cfg) k).ticks - since < waitInfinite)
    (hbound : ∀ fs, fs <+: es → ((fs.foldl (Kernel.step cfg) k).tasks i).user = some u) :
    Suspended u i since (es.foldl (Kernel.step cfg) k) := by
  induction es generalizing k with
  | nil => exact h
  | cons e es ih =>
    have hmono := run_ticks_le cfg k (e :: es)
    have huser : ((k.step cfg e).tasks i).user = some u :=
      hbound [e] ((List.cons_prefix_cons).mpr ⟨rfl, List.nil_prefix⟩)
    obtain hnext | hnone := h.step hk (by omega) hes.1
    · apply ih hnext (step_linked cfg hk e) hes.2 hlt
      intro fs hfs
      exact hbound (e :: fs) ((List.cons_prefix_cons).mpr ⟨rfl, hfs⟩)
    · rw [huser] at hnone
      cases hnone

end Suspended

theorem Suspends.suspended (cfg : Config) (h : Suspends k u i) :
    Suspended u i k.ticks (k.step cfg (.suspendTask u)) := by
  have huser : (k.tasks i).user = some u := by
    simpa [Kernel.findTaskByUserTask] using List.find?_some h.bound
  have hstep : k.step cfg (.suspendTask u) = k.scheduleSleep i waitInfinite := by
    simp [Kernel.step, Kernel.suspendTask, h.bound, h.awake]
  rw [hstep]
  refine ⟨?_, le_rfl, ?_, ?_⟩
  · simpa [Kernel.scheduleSleep, Kernel.setTask, KernelTask.scheduleSleep] using huser
  · simp [Kernel.scheduleSleep, Kernel.setTask, KernelTask.scheduleSleep]
  · simpa [Kernel.scheduleSleep, Kernel.setTask, KernelTask.scheduleSleep] using h.unlinked

/-- **Suspended tasks.**  In every mode and under every strategy, a task for which
`SuspendTask` reports `suspended = true` at any point of any run stays asleep while fewer than
`WAIT_INFINITE` ticks elapse, until it is removed, if nobody resumes it, it makes no sleeping
call itself and no tick re-arms its period. -/
theorem run_suspended (cfg : Config) (es₀ es : List (KernelEvent n)) (u : TId) (i : Fin n)
    (hsuspend : Suspends (Kernel.run cfg es₀ : Kernel n σ) u i)
    (hes : Runs.Along (Kernel.step cfg) (LeavesSuspended cfg u i)
      (Kernel.run cfg (es₀ ++ [.suspendTask u]) : Kernel n σ) es) :
    ∀ fs, fs <+: es →
      (Kernel.run cfg (es₀ ++ [.suspendTask u] ++ fs) : Kernel n σ).ticks -
          (Kernel.run cfg es₀ : Kernel n σ).ticks < waitInfinite →
      (∀ gs, gs <+: fs → ((Kernel.run cfg (es₀ ++ [.suspendTask u] ++ gs) :
        Kernel n σ).tasks i).user = some u) →
      ((Kernel.run cfg (es₀ ++ [.suspendTask u] ++ fs) : Kernel n σ).tasks i).isSleeping = true := by
  have hput : Suspended u i (Kernel.run cfg es₀ : Kernel n σ).ticks
      (Kernel.run cfg (es₀ ++ [.suspendTask u]) : Kernel n σ) := by
    rw [run_append]
    exact hsuspend.suspended cfg
  intro fs hfs hlt hbound
  obtain ⟨gs, rfl⟩ := hfs
  simp only [run_append cfg (es₀ ++ [.suspendTask u])] at hlt hbound ⊢
  have hend := hput.run (run_linked cfg _) (Runs.along_append.mp hes).1 hlt hbound
  exact hend.isSleeping hlt

/-- A static kernel with hard real-time tasks. -/
def hrtConfig : Config where
  isDynamicMode := false
  isHrtMode := true
  isSyncMode := true
  isTicklessMode := false
  ticklessTicksMax := 1
  weight := fun _ => defaultWeight

/-- Two periodic tasks are started; task 0 runs. -/
def twoPeriodic : List (KernelEvent 2) :=
  [.addTaskHrt 0 4 10 0, .addTaskHrt 1 4 10 0, .onStart]

theorem otherSuspended_stays :
    Suspends (Kernel.run hrtConfig twoPeriodic : Kernel 2 (RoundRobin (Fin 2))) 1 1 ∧
      ((Kernel.run hrtConfig (twoPeriodic ++ [.suspendTask 1] ++ [.onTick 1, .switchToNext 0, .onTick 1]) :
        Kernel 2 (RoundRobin (Fin 2))).tasks 1).isSleeping = true := by
  have hsuspend : Suspends (Kernel.run hrtConfig twoPeriodic : Kernel 2 (RoundRobin (Fin 2))) 1 1 := by
    constructor <;> decide
  refine ⟨hsuspend, run_suspended hrtConfig twoPeriodic [.onTick 1, .switchToNext 0, .onTick 1] 1 1
    hsuspend (by decide +kernel) _ (List.prefix_refl _) (by decide) ?_⟩
  intro gs hgs
  rw [← List.mem_inits] at hgs
  revert gs
  decide +kernel

/-- A single periodic task suspends itself.  The next tick finds no runnable task, and
`StateSleep` gives the task the rest of its period to sleep: two ticks later it runs again. -/
theorem lastSuspended_wakes :
    Suspends (Kernel.run hrtConfig [.addTaskHrt 0 2 10 0, .onStart] : Kernel 1 (RoundRobin (Fin 1))) 0 0 ∧
      ((Kernel.run hrtConfig ([.addTaskHrt 0 2 10 0, .onStart] ++ [.suspendTask 0] ++
        [.onTick 1, .onTick 1, .onTick 1]) : Kernel 1 (RoundRobin (Fin 1))).tasks 0).isSleeping = false ∧
      (Kernel.run hrtConfig ([.addTaskHrt 0 2 10 0, .onStart] ++ [.suspendTask 0] ++
        [.onTick 1, .onTick 1, .onTick 1]) : Kernel 1 (RoundRobin (Fin 1))).ticks = 3 := by
  refine ⟨?_, ?_, ?_⟩
  · constructor <;> decide
  · decide
  · decide

end Stk.Analysis
