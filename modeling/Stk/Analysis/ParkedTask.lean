import Stk.Analysis.RunningTask

/-!
# Tasks that sleep on

A task that sleeps, and not for a sync object, sleeps on under every call into the kernel that is not about
it, as long as no tick runs out its counter: `Parked` says so of a slot.  `Dormant` says it of a task, whatever
slot it has, and `Unknown` of a task that has none.
-/

set_option autoImplicit false

namespace Stk.Analysis

open Stk.Model Stk.Model.Kernel

variable {n : ℕ} {σ : Type} {cfg : Config} {k : Kernel n σ} {i : Fin n} {u : TId} {e : KernelEvent n}

/-! ## A parked slot -/

/-- The task in slot `i` sleeps, and not for a sync object. -/
structure Parked (i : Fin n) (k : Kernel n σ) : Prop where
  asleep : (k.tasks i).timeSleep < 0
  unlinked : (k.tasks i).waitObj.syncObj = none

/-- The calls that do not end the sleep of slot `i`. -/
def Spares (k : Kernel n σ) (i : Fin n) : KernelEvent n → Prop
  | .removeTask v | .resumeTask v | .sleepCancel v => k.findTaskByUserTask v ≠ some i
  | .sleep j _ | .sleepUntil j _ | .switchToNext j | .wait j _ _ | .taskExit j => j ≠ i
  | .onTick t => (k.tasks i).timeSleep + t < 0
  | _ => True

theorem findTaskByUserTask_ne {v : TId} (hu : (k.tasks i).user = some u) (hne : v ≠ u) :
    k.findTaskByUserTask v ≠ some i := by
  intro hfind
  have hv := Good.findTaskByUserTask_busy hfind
  rw [hu] at hv
  exact hne (Option.some.inj hv).symm

theorem Parked.isSleeping (h : Parked i k) : (k.tasks i).isSleeping = true := by
  simpa [KernelTask.isSleeping] using h.asleep

theorem Parked.frame {k' : Kernel n σ} (h : Parked i k) (hs : SameSlot i k k') : Parked i k' where
  asleep := by rw [hs.time]; exact h.asleep
  unlinked := by rw [hs.waitObj]; exact h.unlinked

variable [SwitchStrategy (Fin n) σ]

/-- INTERNAL: a removal mark does not end a sleep. -/
theorem Parked.scheduleRemoval (h : Parked i k) : Parked i (k.scheduleRemoval cfg i) := by
  unfold Kernel.scheduleRemoval KernelTask.scheduleRemoval
  refine ⟨?_, ?_⟩
  · dsimp only [Kernel.setTask]
    rw [Function.update_self]
    have hneg : -waitInfinite < 0 := by decide
    split <;> exact hneg
  · dsimp only [Kernel.setTask]
    rw [Function.update_self]
    split <;> exact h.unlinked

/-- A call that spares a parked slot leaves it parked or removes its task. -/
theorem Parked.step (h : Parked i k) (hk : Linked k) (hhrt : cfg.isHrtMode = false)
    (hbusy : (k.tasks i).user ≠ none) (he : Spares k i e) :
    ((k.step cfg e).tasks i).user = none ∨ Parked i (k.step cfg e) := by
  by_cases htick : ∀ t, e ≠ .onTick t
  · have hnotin : ∀ o, i ∉ k.waitList o := by
      intro o hmem
      have hlinked := (hk.mem i o).mpr hmem
      rw [h.unlinked] at hlinked
      cases hlinked
    have hsame : Undisturbed cfg i k e → Parked i (k.step cfg e) :=
      fun hun => h.frame (step_sameSlot hbusy h.isSleeping hun htick)
    right
    cases e with
    | onTick t => exact absurd rfl (htick t)
    | scheduleTaskRemoval v =>
      by_cases hv : k.findTaskByUserTask v = some i
      · simp only [Kernel.step, hv]
        split
        · exact h.scheduleRemoval
        · exact h
      · exact hsame hv
    | wakeOne o => exact hsame (hnotin o)
    | wakeAll o => exact hsame (hnotin o)
    | removeTask v => exact hsame he
    | resumeTask v => exact hsame he
    | sleepCancel v => exact hsame he
    | sleep j t => exact hsame he
    | sleepUntil j t => exact hsame he
    | switchToNext j => exact hsame he
    | wait j o t => exact hsame he
    | taskExit j => exact hsame he
    | _ => exact hsame trivial
  · obtain ⟨t, rfl⟩ := not_forall_not.mp htick
    simp only [Kernel.step]
    split
    · obtain hself | ⟨-, hnone⟩ := SameSlot.onTick_or_removed t (SameSlot.sync cfg t hk (.inl h.unlinked)) hbusy
        h.asleep (not_rearms hhrt _ i)
      · right
        refine Parked.frame (k := SameSlot.advanced i t { k with ticks := k.ticks + t }) ⟨?_, ?_⟩ hself
        · have hlate : (k.tasks i).timeSleep + t < 0 := he
          simpa [SameSlot.advanced, Kernel.setTask] using hlate
        · simpa [SameSlot.advanced, Kernel.setTask] using h.unlinked
      · exact .inl hnone
    · exact .inr h

/-! ## A task and its slot -/

/-- No slot has the task, and nobody has asked for it. -/
def Unknown (u : TId) (k : Kernel n σ) : Prop :=
  ∀ i, (k.tasks i).user ≠ some u ∧ (k.tasks i).addTaskReq ≠ some u

instance (u : TId) (k : Kernel n σ) : Decidable (Unknown u k) := inferInstanceAs (Decidable (∀ _, _ ∧ _))

/-- INTERNAL: a slot with the task had it before. -/
theorem user_before (hk : Linked k) (hnot : ∀ j, (k.tasks j).addTaskReq ≠ some u)
    (hadds : KernelEvent.adds e ≠ some u) (hi : ((k.step cfg e).tasks i).user = some u) :
    (k.tasks i).user = some u := by
  cases hadd : KernelEvent.adds e with
  | none =>
    obtain hkept | ⟨j, hj⟩ := (step_serves hk hadd).user i u hi
    · exact hkept
    · exact absurd hj (hnot j)
  | some v =>
    rw [hadd] at hadds
    exact (step_adds hadd).user i u (fun heq => hadds (congrArg some heq.symm)) hi

/-- INTERNAL: a request for the task was there before. -/
theorem request_before (hk : Linked k) (hadds : KernelEvent.adds e ≠ some u)
    (hi : ((k.step cfg e).tasks i).addTaskReq = some u) : (k.tasks i).addTaskReq = some u := by
  cases hadd : KernelEvent.adds e with
  | none => exact (step_serves hk hadd).request i u hi
  | some v =>
    rw [hadd] at hadds
    exact (step_adds hadd).request i u (fun heq => hadds (congrArg some heq.symm)) hi

omit [SwitchStrategy (Fin n) σ] in
/-- INTERNAL: serving requests makes no unknown task known. -/
theorem Serves.unknown {k' : Kernel n σ} (h : Serves k k') (hun : Unknown u k) : Unknown u k' := by
  intro i
  refine ⟨fun hi => ?_, fun hi => (hun i).2 (h.request i u hi)⟩
  obtain hkept | ⟨j, hj⟩ := h.user i u hi
  · exact (hun i).1 hkept
  · exact (hun j).2 hj

/-- A task stays unknown until it is added. -/
theorem Unknown.step (h : Unknown u k) (hk : Linked k) (hadds : KernelEvent.adds e ≠ some u) :
    Unknown u (k.step cfg e) := by
  intro i
  refine ⟨fun hi => (h i).1 (user_before hk (fun j => (h j).2) hadds hi), fun hi => ?_⟩
  exact (h i).2 (request_before hk hadds hi)

/-- INTERNAL: a tick runs `OnExit` for no task that is unknown. -/
theorem Unknown.onTick_exits (h : Unknown u k) (hk : Linked k) (cfg : Config) (t : ℤ) :
    ∃ xs, (k.onTick cfg t).1.exits = k.exits ++ xs ∧ u ∉ xs := by
  have hload : Unknown u (loading cfg k t) := (Serves.loading cfg hk t).unknown h
  obtain ⟨hkept, -⟩ := loading_kept cfg k t
  obtain ⟨-, xs, hexits, hnot⟩ : Unknown u (asking cfg k t) ∧ ∃ xs, (asking cfg k t).exits = k.exits ++ xs ∧ u ∉ xs := by
    refine Runs.foldl_keeps (I := fun acc : Kernel n σ × ℤ => Unknown u acc.1 ∧
      ∃ xs, acc.1.exits = k.exits ++ xs ∧ u ∉ xs) (fun acc i _ hacc => ?_) ⟨hload, [], ?_, by simp⟩
    · obtain ⟨hun, xs, hexits, hnot⟩ := hacc
      refine ⟨(Serves.updateSlot cfg t acc i).unknown hun, ?_⟩
      rw [(updateSlot_ticked cfg t acc i).exits]
      split
      · refine ⟨xs ++ (acc.1.tasks i).user.toList, by rw [hexits, List.append_assoc], fun hmem => ?_⟩
        obtain hold | hnew := List.mem_append.mp hmem
        · exact hnot hold
        · exact (hun i).1 (Option.mem_toList.mp hnew)
      · exact ⟨xs, hexits, hnot⟩
    · rw [List.append_nil]
      exact hkept.exits
  exact ⟨xs, (updateFsmState_log cfg (asking cfg k t)).1.trans hexits, hnot⟩

/-- No call runs `OnExit` for a task that is unknown. -/
theorem Unknown.not_exits (h : Unknown u k) (hk : Linked k) (cfg : Config) (e : KernelEvent n) :
    u ∉ (k.step cfg e).exits.drop k.exits.length := by
  intro hexit
  by_cases htick : ∃ t, e = .onTick t
  · obtain ⟨t, rfl⟩ := htick
    simp only [Kernel.step] at hexit
    split at hexit
    · obtain ⟨xs, hexits, hnot⟩ := h.onTick_exits hk cfg t
      rw [hexits, List.drop_left] at hexit
      exact hnot hexit
    · rw [List.drop_length] at hexit
      cases hexit
  · by_cases hother : ∃ v, e = .removeTask v
    · obtain ⟨v, rfl⟩ := hother
      simp only [Kernel.step] at hexit
      split at hexit
      · split at hexit
        · rw [List.drop_length] at hexit
          cases hexit
        · next i hi =>
          have hlog : (k.removeTask cfg i).exits = k.exits ++ (k.tasks i).user.toList := removeTask_exits cfg k i
          rw [hlog, List.drop_left] at hexit
          exact (h i).1 (Option.mem_toList.mp hexit)
      · rw [List.drop_length] at hexit
        cases hexit
    · rw [step_exits (fun t ht => htick ⟨t, ht⟩) (fun v hv => hother ⟨v, hv⟩), List.drop_length] at hexit
      cases hexit

/-- Every bound task, and every task there is a request for, is so once. -/
theorem Single.step (h : Single k) (hk : Linked k) (hnew : ∀ v, KernelEvent.adds e = some v → Unknown v k) :
    Single (k.step cfg e) := by
  cases hadd : KernelEvent.adds e with
  | none => exact (step_serves hk hadd).single h
  | some v => exact (step_adds hadd).single h (hnew v hadd)

/-- A task for which a call has run `OnExit` is unknown to the kernel. -/
theorem exits_unknown (hk : Linked k) (hs : Single k) (hremove : e ≠ .removeTask u)
    (hexit : u ∈ (k.step cfg e).exits.drop k.exits.length) : Unknown u (k.step cfg e) := by
  have hquiet : (k.step cfg e).exits ≠ k.exits := by
    intro hsame
    rw [hsame, List.drop_length] at hexit
    cases hexit
  by_cases htick : ∃ t, e = .onTick t
  · obtain ⟨t, rfl⟩ := htick
    simp only [Kernel.step] at hexit hquiet ⊢
    split at hexit
    · next hvalid =>
      rw [if_pos hvalid]
      obtain ⟨xs, hexits, hleft⟩ := onTick_exitsLeave cfg hk hs t
      rw [hexits, List.drop_left] at hexit
      exact fun i => ⟨(hleft u hexit).1 i, (hleft u hexit).2 i⟩
    · next hvalid =>
      rw [if_neg hvalid] at hquiet
      exact absurd rfl hquiet
  · by_cases hother : ∃ v, e = .removeTask v
    · obtain ⟨v, rfl⟩ := hother
      have hne : v ≠ u := fun heq => hremove (congrArg _ heq)
      simp only [Kernel.step] at hexit hquiet
      split at hexit
      · next hmode =>
        rw [if_pos hmode] at hquiet
        split at hexit
        · next hnone =>
          rw [hnone] at hquiet
          exact absurd rfl hquiet
        · next i hi =>
          have hlog : (k.removeTask cfg i).exits = k.exits ++ (k.tasks i).user.toList := removeTask_exits cfg k i
          rw [hlog, List.drop_left, Good.findTaskByUserTask_busy hi] at hexit
          exact absurd (List.mem_singleton.mp hexit).symm hne
      · next hmode =>
        rw [if_neg hmode] at hquiet
        exact absurd rfl hquiet
    · exact absurd (step_exits (fun t ht => htick ⟨t, ht⟩) (fun v hv => hother ⟨v, hv⟩)) hquiet

/-! ## A dormant task -/

/-- The task sleeps in the slot it has, if any, and will get no other. -/
structure Dormant (u : TId) (k : Kernel n σ) : Prop where
  parked : ∀ i, (k.tasks i).user = some u → Parked i k
  notAsked : ∀ j, (k.tasks j).addTaskReq ≠ some u

omit [SwitchStrategy (Fin n) σ] in
theorem Dormant.notWaiting (h : Dormant u k) : NotWaiting k u :=
  fun i hi => (h.parked i (Good.findTaskByUserTask_busy hi)).unlinked

/-- The tick after its resumption ends the sleep of a dormant task, unless it removes the task. -/
theorem Dormant.resumed (h : Dormant u k) (hk : Linked k) (hs : Single k) (hhrt : cfg.isHrtMode = false)
    (hi : (k.tasks i).user = some u) {t : ℤ} (ht : 0 < t) :
    (((k.resumeTask u).onTick cfg t).1.tasks i).isSleeping = false ∨
      (((k.resumeTask u).onTick cfg t).1.tasks i).user = none := by
  have hparked := h.parked i hi
  have hkernel : k.resumeTask u = k.wakeTask i := by
    simp [Kernel.resumeTask, hs.find hi, hparked.isSleeping]
  rw [hkernel]
  have hwoken : ((k.wakeTask i).tasks i) = { k.tasks i with timeSleep := -1 } := by
    simp [Kernel.wakeTask, Kernel.setTask, hparked.isSleeping]
  have hlinked : Linked (k.wakeTask i) := (SameTasks.wakeTask k i).linked hk
  have hbusy : ((k.wakeTask i).tasks i).user ≠ none := by
    rw [hwoken]
    simp [hi]
  have hwaking : ((k.wakeTask i).tasks i).timeSleep < 0 := by
    rw [hwoken]
    have hneg : (-1 : ℤ) < 0 := by decide
    exact hneg
  have hunlinked : ((k.wakeTask i).tasks i).waitObj.syncObj = none := by
    rw [hwoken]
    exact hparked.unlinked
  obtain hself | ⟨-, hnone⟩ := SameSlot.onTick_or_removed t (SameSlot.sync cfg t hlinked (.inl hunlinked)) hbusy
    hwaking (not_rearms hhrt _ i)
  · left
    have htime : (((k.wakeTask i).onTick cfg t).1.tasks i).timeSleep = -1 + t := by
      rw [hself.time]
      simp [SameSlot.advanced, Kernel.setTask, hwoken]
    simp only [KernelTask.isSleeping, htime, decide_eq_false_iff_not]
    omega
  · exact .inr hnone

theorem Dormant.step (h : Dormant u k) (hk : Linked k) (hhrt : cfg.isHrtMode = false)
    (hspares : ∀ i, (k.tasks i).user = some u → Spares k i e) (hadds : KernelEvent.adds e ≠ some u) :
    Dormant u (k.step cfg e) := by
  refine ⟨fun i hi => ?_, fun j hj => h.notAsked j (request_before hk hadds hj)⟩
  have hu := user_before hk h.notAsked hadds hi
  have hbusy : (k.tasks i).user ≠ none := by
    rw [hu]
    exact Option.some_ne_none u
  obtain hnone | hnext := (h.parked i hu).step hk hhrt hbusy (hspares i hu)
  · rw [hnone] at hi
    cases hi
  · exact hnext

variable [StrategyLists (Fin n) σ] [SleepAware (Fin n) σ]

/-- A dormant task that runs after a call ran before it, and the call is no tick. -/
theorem Dormant.running_before (h : Dormant u (k.step cfg e)) (hcfg : WeightsOk σ cfg)
    (hhrt : cfg.isHrtMode = false) (hrest : Rest cfg k) (hcareful : Careful cfg k e)
    (hi : ((k.step cfg e).tasks i).user = some u) (hrun : (k.step cfg e).running = some i) :
    k.running = some i ∧ (k.step cfg e).ticks = k.ticks := by
  have hasleep := (h.parked i hi).isSleeping
  refine ⟨(step_running hcfg hhrt hrest hcareful hrun).resolve_right (by simp [hasleep]), ?_⟩
  by_cases htick : ∀ t, e ≠ .onTick t
  · exact step_ticks cfg k htick
  · obtain ⟨t, rfl⟩ := not_forall_not.mp htick
    simp only [Kernel.step] at hrun hasleep ⊢
    split at hrun
    · next hvalid =>
      rw [if_pos hvalid] at hasleep
      simp only [Bool.and_eq_true, validElapsed, decide_eq_true_eq] at hvalid
      have hawake := onTick_running hcfg hhrt hrest hvalid.2.1.1 hcareful
        (Option.isSome_iff_ne_none.mp hvalid.1) hrun
      rw [hasleep] at hawake
      cases hawake
    · next hvalid => rw [if_neg hvalid]

end Stk.Analysis
