import Stk.Analysis.InfiniteSleep
import Stk.Model.Monitor

/-!
# Ticks in which nothing happens

While one task runs, the others sleep and nobody's wait is limited, a tick counts the sleep counters up and
asks the strategy for the task that runs already.  `restsFor` is the kernel after a number of such ticks, so
that a run of any length up to the end of a sleep can be written down (`Uneventful.ticks`).
-/

set_option autoImplicit false

namespace Stk.Analysis

open Stk.Model Stk.Model.Kernel

variable {n : ℕ} {σ : Type} [SwitchStrategy (Fin n) σ] {cfg : Config} {k : Kernel n σ} {c : Fin n} {e : ℤ} {m : ℕ}

/-- The slot `e` ticks later, if it sleeps on. -/
def sleptOn (e : ℤ) (t : KernelTask) : KernelTask :=
  if t.isSleeping then { t with timeSleep := t.timeSleep + e } else t

/-- The kernel at the time `t`, when its tasks have slept on for `e` ticks. -/
def sleptKernel (k : Kernel n σ) (t e : ℤ) (calls : List (TaskView (Fin n) × StrategyCall (Fin n))) : Kernel n σ :=
  { k with
    ticks := t
    tasks := fun i => sleptOn e (k.tasks i)
    calls := calls }

/-- The kernel after `m` ticks in which nothing has happened. -/
def restsFor (cfg : Config) (k : Kernel n σ) (m : ℕ) : Kernel n σ :=
  sleptKernel k (k.ticks + m) m (k.calls ++ List.replicate m (k.view cfg, .getNext))

/-- Slot `c` runs, and every other task sleeps or waits for more than `m` ticks. -/
structure Uneventful (cfg : Config) (k : Kernel n σ) (c : Fin n) (m : ℕ) : Prop where
  hrt : cfg.isHrtMode = false
  request : k.request = false
  now : k.taskNow = some c
  state : k.fsmState = .switching
  awake : (k.tasks c).isSleeping = false
  next : SwitchStrategy.getNext (k.view cfg) k.strategy = .ok (some c, k.strategy)
  asleep : ∀ i, (k.tasks i).isSleeping = true → (k.tasks i).timeSleep + m < 0 ∧
    (k.tasks i).sleepPending = false ∧ (k.tasks i).removePending = false
  listed : ∀ o ∈ k.syncList, k.waitList o ≠ []
  endless : ∀ o ∈ k.syncList, ∀ i ∈ k.waitList o,
    (k.tasks i).waitObj.timeWait = waitInfinite ∧ (k.tasks i).waitObj.timeout = false

/-! ## The parts of a tick -/

@[simp] theorem sleptOn_waitObj (t : KernelTask) : (sleptOn e t).waitObj = t.waitObj := by
  unfold sleptOn
  split
  · rfl
  · rfl

@[simp] theorem sleptOn_zero (t : KernelTask) : sleptOn 0 t = t := by
  unfold sleptOn
  split
  · rw [Int.add_zero]
  · rfl

/-- A task that sleeps for more than `e` ticks still sleeps after them. -/
theorem sleptOn_isSleeping {t : KernelTask} (h : t.isSleeping = true → t.timeSleep + e < 0) :
    (sleptOn e t).isSleeping = t.isSleeping := by
  unfold sleptOn
  split
  · next hs =>
    rw [hs, KernelTask.isSleeping_iff]
    exact h hs
  · rfl

theorem sleptOn_sleptOn {t : KernelTask} {e' : ℤ} (h : t.isSleeping = true → t.timeSleep + e < 0) :
    sleptOn e' (sleptOn e t) = sleptOn (e + e') t := by
  have hs := sleptOn_isSleeping h
  unfold sleptOn at hs ⊢
  by_cases hsleep : t.isSleeping = true
  · rw [if_pos hsleep] at hs ⊢
    rw [if_pos (hs.trans hsleep), if_pos hsleep, Int.add_assoc]
  · rw [if_neg hsleep, if_neg hsleep, if_neg hsleep]

omit [SwitchStrategy (Fin n) σ] in
/-- INTERNAL: nobody's wait is counted down. -/
theorem updateSyncObjects_endless (hlisted : ∀ o ∈ k.syncList, k.waitList o ≠ [])
    (hendless : ∀ o ∈ k.syncList, ∀ i ∈ k.waitList o,
      (k.tasks i).waitObj.timeWait = waitInfinite ∧ (k.tasks i).waitObj.timeout = false) :
    k.updateSyncObjects e = k := by
  have hobj : ∀ o ∈ k.syncList, ∀ i ∈ k.waitList o, Kernel.tickWaitObj e k i = k := by
    intro o ho i hi
    obtain ⟨htime, hflag⟩ := hendless o ho i hi
    have htask : (k.tasks i).tickWaitObj e = k.tasks i := by
      unfold KernelTask.tickWaitObj
      rw [if_neg (not_not.mpr htime)]
    have hset : k.setTask i (fun t => t.tickWaitObj e) = k := by
      unfold Kernel.setTask
      simp only [htask, Function.update_eq_self]
    unfold Kernel.tickWaitObj
    simp only [hset, hflag]
    rfl
  unfold Kernel.updateSyncObjects
  refine Runs.foldl_keeps (I := fun k' => k' = k) ?_ rfl
  rintro k' o ho rfl
  have htick : Kernel.tickSyncObject e k' o = k' :=
    Runs.foldl_keeps (I := fun k'' => k'' = k') (fun k'' i hi heq => by rw [heq]; exact hobj o ho i hi) rfl
  dsimp only
  rw [htick, if_neg (hlisted o ho)]

/-- INTERNAL: one slot of `UpdateTaskState`. -/
theorem updateSlot_rests (hhrt : cfg.isHrtMode = false) {i : Fin n} (acc : Kernel n σ × ℤ)
    (hasleep : (acc.1.tasks i).isSleeping = true → (acc.1.tasks i).timeSleep + e < 0 ∧
      (acc.1.tasks i).sleepPending = false ∧ (acc.1.tasks i).removePending = false) :
    (updateSlot cfg e acc i).1 = acc.1.setTask i (sleptOn e) := by
  unfold updateSlot
  by_cases hs : (acc.1.tasks i).isSleeping = true
  · obtain ⟨hlt, hpending, hremove⟩ := hasleep hs
    have hkeep : acc.1.isRemovable cfg i = false := by
      simp [Kernel.isRemovable, hremove]
    have hdeliver : acc.1.deliverSleep cfg i = acc.1 := by
      unfold Kernel.deliverSleep
      rw [hpending, Bool.and_false, if_neg (by decide)]
    have hslot : sleptOn e (acc.1.tasks i) = { acc.1.tasks i with timeSleep := (acc.1.tasks i).timeSleep + e } :=
      if_pos hs
    have hstill : (sleptOn e (acc.1.tasks i)).isSleeping = true := by
      rw [sleptOn_isSleeping (fun _ => hlt), hs]
    simp only [hs, hkeep, Bool.and_false, Bool.false_eq_true, if_false, if_true, hdeliver]
    unfold Kernel.advanceSleep Kernel.setTask
    simp only [Function.update_self, ← hslot, hstill, Bool.not_true, Bool.and_false, Bool.false_eq_true, if_false]
  · have hslot : sleptOn e (acc.1.tasks i) = acc.1.tasks i := if_neg hs
    have hset : acc.1.setTask i (sleptOn e) = acc.1 := by
      unfold Kernel.setTask
      rw [hslot, Function.update_eq_self]
    rw [hset, if_neg (by simp [hs])]
    dsimp only
    rw [if_neg hs]
    unfold Kernel.advanceDuration
    rw [hhrt, Bool.false_and, if_neg (by decide)]

/-- INTERNAL: the slots one after the other. -/
theorem foldl_updateSlot_rests (hhrt : cfg.isHrtMode = false) (l : List (Fin n)) (hl : l.Nodup) (acc : Kernel n σ × ℤ)
    (hasleep : ∀ i ∈ l, (acc.1.tasks i).isSleeping = true → (acc.1.tasks i).timeSleep + e < 0 ∧
      (acc.1.tasks i).sleepPending = false ∧ (acc.1.tasks i).removePending = false) :
    (l.foldl (updateSlot cfg e) acc).1 =
      { acc.1 with tasks := fun i => if i ∈ l then sleptOn e (acc.1.tasks i) else acc.1.tasks i } := by
  induction l generalizing acc with
  | nil => simp
  | cons i l ih =>
    obtain ⟨hi, hl⟩ := List.nodup_cons.mp hl
    have hone := updateSlot_rests hhrt acc (hasleep i List.mem_cons_self)
    have hother : ∀ j ∈ l, (updateSlot cfg e acc i).1.tasks j = acc.1.tasks j := by
      intro j hj
      have hne : j ≠ i := fun heq => hi (heq ▸ hj)
      rw [hone]
      simp [Kernel.setTask, hne]
    rw [List.foldl_cons, ih hl _ (fun j hj => by rw [hother j hj]; exact hasleep j (List.mem_cons_of_mem _ hj)), hone]
    have htasks : (fun j => if j ∈ l then sleptOn e ((acc.1.setTask i (sleptOn e)).tasks j)
        else (acc.1.setTask i (sleptOn e)).tasks j) =
        fun j => if j ∈ i :: l then sleptOn e (acc.1.tasks j) else acc.1.tasks j := by
      funext j
      by_cases hj : j = i
      · subst hj
        simp [Kernel.setTask, hi]
      · simp [Kernel.setTask, hj]
    rw [htasks]
    rfl

/-! ## A tick -/

namespace Uneventful

theorem mono {m' : ℕ} (h : Uneventful cfg k c m) (hle : m' ≤ m) : Uneventful cfg k c m' := by
  refine { h with asleep := ?_ }
  intro i hi
  obtain ⟨hlt, hrest⟩ := h.asleep i hi
  exact ⟨by omega, hrest⟩

/-- INTERNAL: the strategy sees the same tasks. -/
theorem view_eq (h : Uneventful cfg k c m) (t : ℤ) (calls : List (TaskView (Fin n) × StrategyCall (Fin n))) :
    (sleptKernel k t m calls).view cfg = k.view cfg := by
  have hs : ∀ i, (sleptOn m (k.tasks i)).isSleeping = (k.tasks i).isSleeping :=
    fun i => sleptOn_isSleeping (fun hi => (h.asleep i hi).1)
  have hrest : ∀ i, (sleptOn m (k.tasks i)).user = (k.tasks i).user ∧
      (sleptOn m (k.tasks i)).rtWeight = (k.tasks i).rtWeight ∧ (sleptOn m (k.tasks i)).hrt = (k.tasks i).hrt := by
    intro i
    unfold sleptOn
    split
    · exact ⟨rfl, rfl, rfl⟩
    · exact ⟨rfl, rfl, rfl⟩
  have hhrt := fun i => (hrest i).2.2
  have hweight : (sleptKernel k t m calls).getWeight cfg = k.getWeight cfg := by
    funext i
    obtain ⟨huser, hrt, -⟩ := hrest i
    simp only [Kernel.getWeight, KernelTask.getWeight, sleptKernel, huser, hrt]
  unfold Kernel.view
  rw [hweight]
  simp only [sleptKernel, hs, hhrt]

/-- INTERNAL: the slots after one more tick. -/
theorem updateTasks_eq (h : Uneventful cfg k c (m + 1)) (t : ℤ)
    (calls : List (TaskView (Fin n) × StrategyCall (Fin n))) :
    ((sleptKernel k t m calls).updateTasks cfg 1).1 = sleptKernel k t ((m : ℤ) + 1) calls := by
  have hasleep : ∀ i, (k.tasks i).isSleeping = true → (k.tasks i).timeSleep + m < 0 := by
    intro i hi
    have hlt := (h.asleep i hi).1
    omega
  have hsync : (sleptKernel k t m calls).updateSyncObjects 1 = sleptKernel k t m calls := by
    apply updateSyncObjects_endless (k := sleptKernel k t m calls) h.listed
    intro o ho i hi
    show (sleptOn m (k.tasks i)).waitObj.timeWait = _ ∧ (sleptOn m (k.tasks i)).waitObj.timeout = _
    rw [sleptOn_waitObj]
    exact h.endless o ho i hi
  have hrequest : (sleptKernel k t m calls).request = false := h.request
  unfold Kernel.updateTasks
  simp only [hsync, ite_self, hrequest, Bool.false_eq_true, if_false]
  unfold Kernel.updateTaskState
  rw [foldl_updateSlot_rests h.hrt _ (List.nodup_finRange n)]
  · have htasks : (fun i => if i ∈ List.finRange n then sleptOn 1 ((sleptKernel k t m calls).tasks i)
        else (sleptKernel k t m calls).tasks i) = fun i => sleptOn ((m : ℤ) + 1) (k.tasks i) := by
      funext i
      rw [if_pos (List.mem_finRange i)]
      exact sleptOn_sleptOn (hasleep i)
    dsimp only
    rw [htasks]
    rfl
  · intro i _ hi
    have hs : (k.tasks i).isSleeping = true := by
      rw [← sleptOn_isSleeping (hasleep i)]
      exact hi
    obtain ⟨hlt, hpending, hremove⟩ := h.asleep i hs
    have hslot : (sleptKernel k t m calls).tasks i = { k.tasks i with timeSleep := (k.tasks i).timeSleep + m } :=
      if_pos hs
    dsimp only
    rw [hslot]
    refine ⟨?_, hpending, hremove⟩
    dsimp only
    push_cast at hlt
    omega

/-- INTERNAL: the strategy names the task that runs. -/
theorem fetchNextEvent_eq (h : Uneventful cfg k c m) (t : ℤ) (calls : List (TaskView (Fin n) × StrategyCall (Fin n))) :
    (sleptKernel k t m calls).fetchNextEvent cfg =
      (.switch, some c, sleptKernel k t m (calls ++ [(k.view cfg, .getNext)])) := by
  have happly : (StrategyCall.getNext : StrategyCall (Fin n)).apply (k.view cfg) k.strategy =
      .ok (some c, k.strategy) := h.next
  have hcall : (sleptKernel k t m calls).callStrategy cfg .getNext =
      (some c, sleptKernel k t m (calls ++ [(k.view cfg, .getNext)])) := by
    have hstrategy : (sleptKernel k t m calls).strategy = k.strategy := rfl
    unfold Kernel.callStrategy
    rw [h.view_eq, hstrategy, happly]
    rfl
  have hawake : ((sleptKernel k t m (calls ++ [(k.view cfg, .getNext)])).tasks c).isSleeping = false :=
    (sleptOn_isSleeping (fun hc => (h.asleep c hc).1)).trans h.awake
  have hstate : (sleptKernel k t m (calls ++ [(k.view cfg, .getNext)])).fsmState = .switching := h.state
  unfold Kernel.fetchNextEvent
  rw [hcall]
  simp only [hawake, hstate, Bool.false_eq_true, if_false, reduceCtorEq]

/-- A tick in which nothing happens. -/
theorem onTick (h : Uneventful cfg k c (m + 1)) : ((restsFor cfg k m).onTick cfg 1).1 = restsFor cfg k (m + 1) := by
  have htasks := h.updateTasks_eq (k.ticks + m + 1) (k.calls ++ List.replicate m (k.view cfg, .getNext))
  have hfetch := h.fetchNextEvent_eq (k.ticks + m + 1) (k.calls ++ List.replicate m (k.view cfg, .getNext))
  have hnext : sleptKernel k (k.ticks + m + 1) ((m + 1 : ℕ) : ℤ) (k.calls ++ List.replicate m (k.view cfg, .getNext) ++
      [(k.view cfg, .getNext)]) = restsFor cfg k (m + 1) := by
    unfold restsFor
    rw [List.append_assoc, ← List.replicate_succ']
    push_cast
    rw [Int.add_assoc]
  have hstate : (restsFor cfg k (m + 1)).fsmState = .switching := h.state
  have hnow : (sleptKernel k (k.ticks + m + 1) ((m + 1 : ℕ) : ℤ) (k.calls ++ List.replicate m
      (k.view cfg, .getNext))).taskNow = some c := h.now
  have hstate' : (sleptKernel k (k.ticks + m + 1) ((m + 1 : ℕ) : ℤ) (k.calls ++ List.replicate m
      (k.view cfg, .getNext))).fsmState = .switching := h.state
  rw [hnext] at hfetch
  have hstart : ({ restsFor cfg k m with ticks := (restsFor cfg k m).ticks + 1 } : Kernel n σ) =
      sleptKernel k (k.ticks + m + 1) m (k.calls ++ List.replicate m (k.view cfg, .getNext)) := rfl
  unfold Kernel.onTick
  dsimp only
  rw [hstart, htasks]
  push_cast at hfetch hnow hstate'
  unfold Kernel.updateFsmState
  simp only [hfetch, hnow, hstate', fsm, Kernel.stateSwitch, ne_eq, not_true_eq_false, if_false]
  rw [← hstate]

/-- `m` ticks in which nothing happens. -/
theorem ticks (h : Uneventful cfg k c m) :
    (List.replicate m (.onTick 1)).foldl (Kernel.step cfg) k = restsFor cfg k m := by
  induction m with
  | zero => simp [restsFor, sleptKernel]
  | succ m ih =>
    have hvalid : validElapsed cfg 1 = true := by
      simp [validElapsed, waitInfinite]
    have hstarted : (restsFor cfg k m).isStarted = true := by
      show k.taskNow.isSome = true
      rw [h.now]
      rfl
    rw [List.replicate_succ', List.foldl_append, ih (h.mono (Nat.le_succ m))]
    simp only [List.foldl_cons, List.foldl_nil, Kernel.step, hstarted, hvalid, Bool.and_self, if_true]
    exact h.onTick

end Uneventful

/-- Ticks in which nothing happens, with an object of a class. -/
theorem MonitorSystem.idle_ticks {μ α φ ρ : Type} [Monitor μ α φ ρ] {s : MonitorSystem n μ φ σ}
    (h : Uneventful cfg s.kernel c m) (hcalls : ∀ i, s.pending i ≠ none → (s.kernel.call i).isSome = true) :
    (List.replicate m (.kernel (.onTick 1))).foldl (MonitorSystem.step cfg) s =
      { s with kernel := restsFor cfg s.kernel m } := by
  induction m with
  | zero => simp [restsFor, sleptKernel]
  | succ m ih =>
    have hone : (restsFor cfg s.kernel m).step cfg (.onTick 1) = restsFor cfg s.kernel (m + 1) := by
      have hmore := h.ticks
      rw [List.replicate_succ', List.foldl_append, (h.mono (Nat.le_succ m)).ticks] at hmore
      exact hmore
    have hpending : (fun i => if ((restsFor cfg s.kernel (m + 1)).call i).isSome then s.pending i else none) =
        s.pending := by
      funext i
      have hsame : (restsFor cfg s.kernel (m + 1)).call = s.kernel.call := rfl
      rw [hsame]
      by_cases hi : s.pending i = none
      · rw [hi, ite_self]
      · rw [if_pos (hcalls i hi)]
    rw [List.replicate_succ', List.foldl_append, ih (h.mono (Nat.le_succ m))]
    show (⟨(restsFor cfg s.kernel m).step cfg (.onTick 1), s.state,
      fun i => if (((restsFor cfg s.kernel m).step cfg (.onTick 1)).call i).isSome then s.pending i else none⟩ :
      MonitorSystem n μ φ σ) = _
    rw [hone, hpending]

end Stk.Analysis
