import Stk.Analysis.MonitorSimulation
import Stk.Analysis.Periodicity
import Stk.Analysis.SlotTick
import Stk.Analysis.StrategyListInvariant

/-!
# The tick under earliest deadline first

A tick of a `KERNEL_HRT` kernel with `SwitchStrategyEDF`, in four parts: the counters that the
deadline scan reads, the update of the tasks up to the question for the next task (`asking`), the
answer (`scan_firstMinimum`), and the FSM that acts on it and resets the counter of the task that
it switches out.  `JobsOk` is what the tick keeps.
-/

set_option autoImplicit false

namespace Stk.Analysis

open Stk.Model Stk.Model.Kernel

/-! ## The scan -/

/-- The first task of `l` with the smallest key `d`. -/
def FirstMinimum {α : Type} (d : α → ℤ) (l : List α) (t : α) : Prop :=
  ∃ before after, l = before ++ t :: after ∧ (∀ j ∈ before, d t < d j) ∧ ∀ j ∈ after, d t ≤ d j

theorem FirstMinimum.le {α : Type} {d : α → ℤ} {l : List α} {t : α} (h : FirstMinimum d l t) {j : α}
    (hj : j ∈ l) : d t ≤ d j := by
  obtain ⟨before, after, rfl, hbefore, hafter⟩ := h
  rcases List.mem_append.mp hj with hj | hj
  · exact (hbefore j hj).le
  · rcases List.mem_cons.mp hj with rfl | hj
    · exact le_rfl
    · exact hafter j hj

/-- The scan of `GetNext` (stk_strategy_edf.h:138-162) returns the first minimum. -/
theorem scan_firstMinimum {α : Type} (d : α → ℤ) (l : List α) (a : α) :
    FirstMinimum d (a :: l) (l.foldl (fun next itr => if d itr < d next then itr else next) a) := by
  induction l generalizing a with
  | nil => exact ⟨[], [], rfl, (fun _ hj => nomatch hj), (fun _ hj => nomatch hj)⟩
  | cons b l ih =>
    rw [List.foldl_cons]
    by_cases hlt : d b < d a
    · rw [if_pos hlt]
      have hmin := ih b
      generalize l.foldl (fun next itr => if d itr < d next then itr else next) b = r at hmin
      have hrb : d r ≤ d b := hmin.le List.mem_cons_self
      obtain ⟨before, after, heq, hbefore, hafter⟩ := hmin
      refine ⟨a :: before, after, by rw [heq]; rfl, ?_, hafter⟩
      intro j hj
      rcases List.mem_cons.mp hj with rfl | hj
      · omega
      · exact hbefore j hj
    · rw [if_neg hlt]
      obtain ⟨before, after, heq, hbefore, hafter⟩ := ih a
      generalize l.foldl (fun next itr => if d itr < d next then itr else next) a = r at *
      cases before with
      | nil =>
        -- the first task is still the minimum
        obtain ⟨rfl, rfl⟩ := List.cons.inj heq
        refine ⟨[], b :: l, rfl, (fun _ hj => nomatch hj), ?_⟩
        intro j hj
        rcases List.mem_cons.mp hj with rfl | hj
        · omega
        · exact hafter j hj
      | cons c before =>
        obtain ⟨rfl, hl⟩ := List.cons.inj heq
        have hra := hbefore a List.mem_cons_self
        refine ⟨a :: b :: before, after, by rw [hl]; rfl, ?_, hafter⟩
        intro j hj
        rcases List.mem_cons.mp hj with rfl | hj
        · exact hra
        · rcases List.mem_cons.mp hj with rfl | hj
          · omega
          · exact hbefore j (List.mem_cons_of_mem a hj)

/-! ## Activations -/

section Activations

variable {n : ℕ} {σ : Type}

/-- The processor runs the task in slot `i`. -/
def OnProcessor (k : Kernel n σ) (i : Fin n) : Prop := k.taskNow = some i ∧ k.fsmState ≠ .sleeping

instance (k : Kernel n σ) (i : Fin n) : Decidable (OnProcessor k i) :=
  inferInstanceAs (Decidable (k.taskNow = some i ∧ k.fsmState ≠ .sleeping))

/-- The steps of a run in which no task is suspended, resumed or waits; a task ends its job or exits
while it runs. -/
def JobEvent (k : Kernel n σ) : KernelEvent n → Prop
  | .suspendTask _ | .resumeTask _ | .wait _ _ _ => False
  | .switchToNext i | .taskExit i => OnProcessor k i
  | _ => True

instance (k : Kernel n σ) : ∀ e : KernelEvent n, Decidable (JobEvent k e)
  | .suspendTask _ | .resumeTask _ | .wait _ _ _ => .isFalse id
  | .switchToNext i | .taskExit i => inferInstanceAs (Decidable (OnProcessor k i))
  | .addTask _ | .addTaskHrt _ _ _ _ | .removeTask _ | .onStart | .onStop | .onTick _ | .onSuspend
  | .requestAddTask _ _ | .sleep _ _ | .sleepUntil _ _ | .waitReturn _ | .sleepCancel _
  | .scheduleTaskRemoval _ | .wakeOne _ | .wakeAll _ | .inheritWeight _ _ | .restoreWeight _ _ => .isTrue trivial

/-- The ticks of the activations when a tick has woken the tasks: a task that was asleep before it is
activated in it. -/
def activated (k : Kernel n σ) (act : Fin n → ℤ) (e : ℤ) (i : Fin n) : ℤ :=
  if (k.tasks i).isSleeping then k.ticks + e else act i

variable [SwitchStrategy (Fin n) σ]

/-- The ticks of the activations after an event.  `Start` activates the tasks without a start delay;
a task that is switched out at the end of a job begins with the next one. -/
def nextActivation (cfg : Config) (k : Kernel n σ) (act : Fin n → ℤ) : KernelEvent n → Fin n → ℤ
  | .onStart, i => if k.isStarted then act i else k.ticks
  | .onTick e, i =>
    if k.isStarted && validElapsed cfg e then
      if switchedOut cfg (asking cfg k e) = some i then k.ticks + e else activated k act e i
    else act i
  | _, i => act i

end Activations

/-- A kernel and the ticks at which its tasks have been activated. -/
structure JobClock (n : ℕ) where
  kernel : Kernel n (EarliestDeadlineFirst (Fin n))
  activation : Fin n → ℤ

namespace JobClock

variable {n : ℕ}

def initial : JobClock n := ⟨Kernel.initial, fun _ => 0⟩

def step (cfg : Config) (s : JobClock n) (e : KernelEvent n) : JobClock n :=
  ⟨s.kernel.step cfg e, nextActivation cfg s.kernel s.activation e⟩

def run (cfg : Config) (es : List (KernelEvent n)) : JobClock n := es.foldl (step cfg) initial

end JobClock

/-! ## What holds of the counters -/

section Counters

variable {n : ℕ} {cfg : Config} {act : Fin n → ℤ} {k : Kernel n (EarliestDeadlineFirst (Fin n))} {i : Fin n}

/-- The slot is removed in the next tick. -/
def Removes (k : Kernel n (EarliestDeadlineFirst (Fin n))) (i : Fin n) : Prop :=
  (k.tasks i).removePending = true ∧
    (k.taskNow ≠ some i ∨ (k.fsmState = .sleeping ∧ ∀ j, (k.tasks j).user ≠ none → j = i))

/-- The job of a bound slot in a started kernel.  The job of a task that sleeps has ended, unless the
next tick switches the task out or removes it. -/
structure JobOk (cfg : Config) (act : Fin n → ℤ) (k : Kernel n (EarliestDeadlineFirst (Fin n))) (i : Fin n) :
    Prop where
  remove : (k.tasks i).removePending = true → cfg.isDynamicMode = true
  done : (k.tasks i).hrt.done = true →
    (k.tasks i).removePending = true ∨ (OnProcessor k i ∧ (k.tasks i).timeSleep < 0)
  awake : ¬ (k.tasks i).timeSleep < 0 → (k.tasks i).hrt.duration = k.ticks - act i
  asleep : (k.tasks i).timeSleep < 0 → (k.tasks i).hrt.duration = 0 ∨ OnProcessor k i ∨ Removes k i
  leaving : OnProcessor k i → (k.tasks i).timeSleep < 0 → (k.tasks i).timeSleep < -1 ∧
    (k.tasks i).sleepPending = true ∧ (k.tasks i).hrt.done = true
  pending : (k.tasks i).sleepPending = true → OnProcessor k i ∨ (k.tasks i).removePending = true

/-- A slot without a job. -/
structure NoJob (t : KernelTask) : Prop where
  duration : t.hrt.duration = 0
  done : t.hrt.done = false
  remove : t.removePending = false

/-- What holds between the calls of a run of `JobEvent`s. -/
structure JobsOk (cfg : Config) (act : Fin n → ℤ) (k : Kernel n (EarliestDeadlineFirst (Fin n))) : Prop where
  rest : Rest cfg k
  waits : ∀ i, (k.tasks i).waitObj.syncObj = none
  free : ∀ i, (k.tasks i).user = none → NoJob (k.tasks i)
  stopped : k.taskNow = none → ∀ i, NoJob (k.tasks i)
  slot : k.taskNow ≠ none → ∀ i, (k.tasks i).user ≠ none → JobOk cfg act k i
  idle : k.taskNow ≠ none → k.fsmState = .sleeping → ∀ i, (k.tasks i).user ≠ none → (k.tasks i).timeSleep < 0

/-- INTERNAL: when nobody waits all wait lists are empty. -/
theorem waitList_nil {σ : Type} {k : Kernel n σ} (hk : Linked k)
    (hwaits : ∀ i, (k.tasks i).waitObj.syncObj = none) (o : SyncId) : k.waitList o = [] := by
  apply List.eq_nil_iff_forall_not_mem.mpr
  intro i hi
  have hlinked := (hk.mem i o).mpr hi
  rw [hwaits i] at hlinked
  cases hlinked

/-- INTERNAL: when nobody waits `UpdateSyncObjects` only drops the objects it has come to know. -/
theorem updateSyncObjects_idle {σ : Type} {k : Kernel n σ} (hk : Linked k)
    (hwaits : ∀ i, (k.tasks i).waitObj.syncObj = none) (e : ℤ) :
    ∃ l : List SyncId, l.Nodup ∧ k.updateSyncObjects e = { k with syncList := l } := by
  refine Runs.foldl_keeps
    (I := fun k' : Kernel n σ => ∃ l : List SyncId, l.Nodup ∧ k' = { k with syncList := l }) ?_
    ⟨k.syncList, hk.syncNodup, rfl⟩
  rintro _ o - ⟨l, hnd, rfl⟩
  have htick : Kernel.tickSyncObject e { k with syncList := l } o = { k with syncList := l } := by
    unfold Kernel.tickSyncObject
    dsimp only
    rw [waitList_nil hk hwaits o]
    rfl
  dsimp only
  rw [htick]
  split
  · exact ⟨_, hnd.erase o, rfl⟩
  · exact ⟨l, hnd, rfl⟩

/-- INTERNAL: in HRT mode a tick with nobody waiting is `UpdateTaskState` and the FSM. -/
theorem asking_eq (h : JobsOk cfg act k) (hhrt : cfg.isHrtMode = true) (e : ℤ) :
    ∃ l : List SyncId, l.Nodup ∧ asking cfg k e =
      (({ k with ticks := k.ticks + e, syncList := l } : Kernel n (EarliestDeadlineFirst (Fin n))).updateTaskState
        cfg e).1 := by
  obtain ⟨l, hnd, hl⟩ : ∃ l : List SyncId, l.Nodup ∧ (if cfg.isSyncMode then
      ({ k with ticks := k.ticks + e } : Kernel n (EarliestDeadlineFirst (Fin n))).updateSyncObjects e
      else { k with ticks := k.ticks + e }) = { k with ticks := k.ticks + e, syncList := l } := by
    split
    · have hlinked := h.rest.1.linked
      exact updateSyncObjects_idle (k := { k with ticks := k.ticks + e })
        ⟨hlinked.mem, hlinked.nodup, hlinked.syncNodup, hlinked.registered⟩ h.waits e
    · exact ⟨k.syncList, h.rest.1.linked.syncNodup, rfl⟩
  refine ⟨l, hnd, ?_⟩
  unfold asking Kernel.updateTasks
  dsimp only
  rw [hl]
  have hrequest : ∀ k' : Kernel n (EarliestDeadlineFirst (Fin n)),
      (if k'.request then k'.updateTaskRequest cfg else k') = k' := by
    intro k'
    split
    · simp [Kernel.updateTaskRequest, hhrt]
    · rfl
  rw [hrequest]

/-- INTERNAL: `UpdateTaskState` up to a slot. -/
theorem reaches_good {σ : Type} [SwitchStrategy (Fin n) σ] [StrategyLists (Fin n) σ] [SleepAware (Fin n) σ]
    {e : ℤ} (he : 0 < e) (l : List (Fin n)) (hnd : l.Nodup) :
    ∀ {k : Kernel n σ} {t : ℤ} {q : Fin n → ℤ}, Good cfg (fun _ => 0) q k → (∀ i ∈ l, q i = e) →
      ∃ q', Good cfg (fun _ => 0) q' (l.foldl (updateSlot cfg e) (k, t)).1 := by
  induction l with
  | nil => exact fun h _ => ⟨_, h⟩
  | cons j l ih =>
    intro k t q h hq
    obtain ⟨hnotin, hnd'⟩ := List.nodup_cons.mp hnd
    have hstep := (updateSlot_good h he (hq j List.mem_cons_self) t).1
    apply ih hnd' hstep
    intro i hi
    have hij : i ≠ j := fun heq => hnotin (heq ▸ hi)
    rw [Function.update_of_ne hij]
    exact hq i (List.mem_cons_of_mem j hi)

end Counters

/-! ## The tick up to `GetNext` -/

section Asking

variable {n : ℕ} {cfg : Config} {act : Fin n → ℤ} {k : Kernel n (EarliestDeadlineFirst (Fin n))} {i : Fin n}

/-- INTERNAL: the only task of the strategy. -/
theorem Good.getSize_alone {σ : Type} [SwitchStrategy (Fin n) σ] [StrategyLists (Fin n) σ] [SleepAware (Fin n) σ]
    {k : Kernel n σ} {r q : Fin n → ℤ} (h : Good cfg r q k) (hi : (k.tasks i).user ≠ none)
    (halone : ∀ j, (k.tasks j).user ≠ none → j = i) : SwitchStrategy.getSize k.strategy = 1 := by
  have hmem : ∀ j, j ∈ runnable k.strategy ++ asleep k.strategy ↔ j = i := by
    intro j
    rw [List.mem_append, h.listed.mem j]
    constructor
    · exact halone j
    · rintro rfl
      exact hi
  have hperm : (runnable k.strategy ++ asleep k.strategy).Perm [i] := by
    apply (List.perm_ext_iff_of_nodup (SleepAware.nodup h.listed.wf) (List.nodup_singleton i)).mpr
    intro j
    rw [hmem j, List.mem_singleton]
  rw [SleepAware.getSize_eq, ← List.length_append, hperm.length_eq]
  rfl

theorem ticked_user (cfg : Config) (api : Bool) (e : ℤ) (gone : Bool) (t : KernelTask) :
    (updatedSlot cfg api e gone t).user = none ∨ (updatedSlot cfg api e gone t).user = t.user := by
  unfold updatedSlot
  split
  · split
    · left
      unfold KernelTask.unbind
      dsimp only
      split
      · rfl
      · rfl
    · exact .inr rfl
  · split
    · exact .inr rfl
    · exact .inr rfl

/-- INTERNAL: `UpdateTaskState` binds no slot. -/
theorem updateSlots_user {σ : Type} [SwitchStrategy (Fin n) σ] (cfg : Config) (e : ℤ) (l : List (Fin n))
    (acc : Kernel n σ × ℤ) (j : Fin n) (hj : ((l.foldl (updateSlot cfg e) acc).1.tasks j).user ≠ none) :
    (acc.1.tasks j).user ≠ none := by
  induction l generalizing acc with
  | nil => exact hj
  | cons i l ih =>
    have hstep := updateSlot_ticked cfg e acc i
    have hnext := ih (updateSlot cfg e acc i) hj
    by_cases hji : j = i
    · subst hji
      rw [hstep.self] at hnext
      rcases ticked_user cfg (SwitchStrategy.sleepEventApi σ) e (acc.1.isRemovable cfg j) (acc.1.tasks j) with
        hnone | hsame
      · exact absurd hnone hnext
      · rw [← hsame]
        exact hnext
    · rw [hstep.other j hji] at hnext
      exact hnext

/-- INTERNAL: the state of the loop before any slot is charged with the tick. -/
theorem JobsOk.charged (h : JobsOk cfg act k) {l : List SyncId} (hl : l.Nodup) {e : ℤ} (he : 0 < e) :
    Good cfg (fun _ => 0) (fun _ => e) { k with ticks := k.ticks + e, syncList := l } := by
  have hgood := h.rest.1
  refine ⟨hgood.listed, ⟨hgood.linked.mem, hgood.linked.nodup, hl, ?_⟩, ?_, fun _ => h.waits, hgood.clean⟩
  · intro o hne
    obtain ⟨j, hj⟩ := List.exists_mem_of_ne_nil _ hne
    have hlinked := (hgood.linked.mem j o).mpr hj
    rw [h.waits j] at hlinked
    cases hlinked
  · intro j
    exact (hgood.slot j).rest (h.waits j) (by show k.ticks ≤ k.ticks + e; omega)

theorem asking_frame (h : JobsOk cfg act k) (hhrt : cfg.isHrtMode = true) (e : ℤ) :
    (asking cfg k e).taskNow = k.taskNow ∧ (asking cfg k e).fsmState = k.fsmState ∧
      (asking cfg k e).ticks = k.ticks + e := by
  obtain ⟨l, -, hl⟩ := asking_eq h hhrt e
  rw [hl]
  obtain ⟨hnow, hfsm, hticks, -⟩ := updateTaskState_frame cfg ({ k with ticks := k.ticks + e, syncList := l }) e
  exact ⟨hnow, hfsm, hticks⟩

/-- INTERNAL: what a tick does to slot `i` before `GetNext`. -/
theorem asking_slot (h : JobsOk cfg act k) (hhrt : cfg.isHrtMode = true) (i : Fin n) :
    ∃ gone, (asking cfg k 1).tasks i = updatedSlot cfg true 1 gone (k.tasks i) ∧
      (gone = true → (k.tasks i).removePending = true ∧ ¬ OnProcessor k i) ∧
      (Removes k i → cfg.isDynamicMode = true → (k.tasks i).user ≠ none → gone = true) := by
  obtain ⟨l, hnd, hl⟩ := asking_eq h hhrt 1
  obtain ⟨l₁, l₂, hsplit, h₁, h₂⟩ := finRange_split i
  have hticked := updateTaskState_ticked cfg
    ({ k with ticks := k.ticks + 1, syncList := l } : Kernel n (EarliestDeadlineFirst (Fin n))) 1 hsplit h₁ h₂
  have hnd₁ : l₁.Nodup := (List.nodup_append.mp (hsplit ▸ List.nodup_finRange n)).1
  obtain ⟨q, hgood⟩ := reaches_good (t := if cfg.isTicklessMode then cfg.ticklessTicksMax else 1)
    Int.one_pos l₁ hnd₁ (h.charged hnd Int.one_pos) (fun _ _ => rfl)
  obtain ⟨hother, hnow, hfsm, -⟩ := updateSlots_other cfg 1 l₁
    (({ k with ticks := k.ticks + 1, syncList := l } : Kernel n (EarliestDeadlineFirst (Fin n))),
      if cfg.isTicklessMode then cfg.ticklessTicksMax else 1)
  have hbusy := updateSlots_user cfg 1 l₁
    (({ k with ticks := k.ticks + 1, syncList := l } : Kernel n (EarliestDeadlineFirst (Fin n))),
      if cfg.isTicklessMode then cfg.ticklessTicksMax else 1)
  have hself := hother i h₁
  rw [← hl] at hticked
  unfold reaches at hticked
  refine ⟨_, hticked, ?_, ?_⟩
  · intro hgone
    unfold Kernel.isRemovable at hgone
    rw [hself, hnow, hfsm] at hgone
    simp only [Bool.and_eq_true, Bool.or_eq_true, decide_eq_true_eq] at hgone
    obtain ⟨⟨-, hremove⟩, hcase⟩ := hgone
    refine ⟨hremove, ?_⟩
    rintro ⟨hcurrent, hrunning⟩
    rcases hcase with hne | ⟨-, hsleeping⟩
    · exact hne hcurrent
    · exact hrunning hsleeping
  · rintro ⟨hremove, hcase⟩ hdyn huser
    unfold Kernel.isRemovable
    rw [hself, hnow, hfsm]
    simp only [Bool.and_eq_true, Bool.or_eq_true, decide_eq_true_eq]
    refine ⟨⟨hdyn, hremove⟩, ?_⟩
    rcases hcase with hne | ⟨hsleeping, halone⟩
    · exact .inl hne
    · refine .inr ⟨?_, hsleeping⟩
      apply hgood.getSize_alone (i := i)
      · rw [hself]
        exact huser
      · intro j hj
        exact halone j (hbusy j hj)

end Asking

section AskedJobs

variable {n : ℕ} {cfg : Config} {act : Fin n → ℤ} {k : Kernel n (EarliestDeadlineFirst (Fin n))} {i : Fin n}

/-- The job of a slot that is bound when the strategy is asked; `act` has the activations of the tick. -/
structure AskedJob (cfg : Config) (act : Fin n → ℤ) (k : Kernel n (EarliestDeadlineFirst (Fin n))) (i : Fin n) :
    Prop where
  remove : (k.tasks i).removePending = true → cfg.isDynamicMode = true
  done : (k.tasks i).hrt.done = true →
    (k.tasks i).removePending = true ∨ (OnProcessor k i ∧ (k.tasks i).timeSleep < 0)
  awake : ¬ (k.tasks i).timeSleep < 0 → (k.tasks i).hrt.duration = k.ticks - act i
  asleep : (k.tasks i).timeSleep < 0 → (k.tasks i).hrt.duration = 0 ∨ OnProcessor k i
  leaving : OnProcessor k i → (k.tasks i).timeSleep < 0 → (k.tasks i).hrt.done = true

/-- INTERNAL: a slot of a started kernel when the strategy is asked. -/
theorem asking_job (h : JobsOk cfg act k) (hhrt : cfg.isHrtMode = true) (hstarted : k.taskNow ≠ none)
    (hbusy : ((asking cfg k 1).tasks i).user ≠ none) : AskedJob cfg (activated k act 1) (asking cfg k 1) i := by
  obtain ⟨gone, hslot, hkeeps, hremoves⟩ := asking_slot h hhrt i
  obtain ⟨hnow, hfsm, hticks⟩ := asking_frame h hhrt 1
  have honproc : OnProcessor (asking cfg k 1) i ↔ OnProcessor k i := by
    unfold OnProcessor
    rw [hnow, hfsm]
  by_cases hs : (k.tasks i).timeSleep < 0
  · have hsleeping : (k.tasks i).isSleeping = true := by simpa [KernelTask.isSleeping] using hs
    cases gone with
    | true =>
      exfalso
      apply hbusy
      rw [hslot]
      unfold updatedSlot KernelTask.unbind
      simp [hsleeping, hhrt]
    | false =>
      have hstays : (asking cfg k 1).tasks i = { k.tasks i with
          sleepPending := false, timeSleep := (k.tasks i).timeSleep + 1 } := by
        rw [hslot]
        simp [updatedSlot, hsleeping]
      have huser : (k.tasks i).user ≠ none := by
        rw [hstays] at hbusy
        exact hbusy
      have hjob := h.slot hstarted i huser
      have hnot : ¬ Removes k i := by
        intro hrem
        have := hremoves hrem (hjob.remove hrem.1) huser
        cases this
      rw [← honproc] at hkeeps
      refine ⟨?_, ?_, ?_, ?_, ?_⟩
      · rw [hstays]
        exact hjob.remove
      · rw [hstays, honproc]
        intro hdone
        rcases hjob.done hdone with hrem | ⟨hproc, -⟩
        · exact .inl hrem
        · have hlong := (hjob.leaving hproc hs).1
          refine .inr ⟨hproc, ?_⟩
          show (k.tasks i).timeSleep + 1 < 0
          omega
      · rw [hticks, hstays]
        intro hawake
        unfold activated
        rw [if_pos hsleeping]
        dsimp only at hawake ⊢
        rcases hjob.asleep hs with hzero | hproc | hrem
        · omega
        · have hlong := (hjob.leaving hproc hs).1
          omega
        · exact absurd hrem hnot
      · rw [honproc, hstays]
        intro _
        rcases hjob.asleep hs with hzero | hproc | hrem
        · exact .inl hzero
        · exact .inr hproc
        · exact absurd hrem hnot
      · rw [honproc, hstays]
        intro hproc _
        exact (hjob.leaving hproc hs).2.2
  · have hsleeping : (k.tasks i).isSleeping = false := by simpa [KernelTask.isSleeping] using hs
    have huser : (k.tasks i).user ≠ none := by
      rcases ticked_user cfg true 1 gone (k.tasks i) with hnone | hsame
      · rw [hslot] at hbusy
        exact absurd hnone hbusy
      · rw [hslot, hsame] at hbusy
        exact hbusy
    have hcounts : (asking cfg k 1).tasks i = { k.tasks i with
        hrt := { (k.tasks i).hrt with duration := (k.tasks i).hrt.duration + 1 } } := by
      rw [hslot]
      simp [updatedSlot, hsleeping, hhrt, KernelTask.isBusy, Option.isSome_iff_ne_none, huser]
    have hjob := h.slot hstarted i huser
    refine ⟨?_, ?_, ?_, ?_, ?_⟩
    · rw [hcounts]
      exact hjob.remove
    · rw [hcounts, honproc]
      exact hjob.done
    · rw [hticks, hcounts]
      intro _
      have hduration := hjob.awake hs
      unfold activated
      rw [if_neg (by rw [hsleeping]; exact Bool.false_ne_true)]
      dsimp only
      omega
    · rw [hcounts]
      intro hlt
      exact absurd hlt hs
    · rw [hcounts]
      intro _ hlt
      exact absurd hlt hs

end AskedJobs

/-! ## The order of the sleep list -/

section SleepOrder

variable {n : ℕ} {cfg : Config} {act : Fin n → ℤ} {k : Kernel n (EarliestDeadlineFirst (Fin n))} {i j : Fin n}

/-- Slot `i` is the last in the sleep list. -/
def LastAsleep (i : Fin n) (s : EarliestDeadlineFirst (Fin n)) : Prop := ∃ l, s.sleep = l ++ [i]

/-- INTERNAL: another slot leaves the sleep list. -/
theorem LastAsleep.erase {s : EarliestDeadlineFirst (Fin n)} (h : LastAsleep i s) (hj : j ≠ i) (tasks : List (Fin n)) :
    LastAsleep i ⟨tasks, s.sleep.erase j⟩ := by
  obtain ⟨l, hl⟩ := h
  rw [hl]
  by_cases hmem : j ∈ l
  · exact ⟨l.erase j, List.erase_append_left [i] hmem⟩
  · refine ⟨l, ?_⟩
    show (l ++ [i]).erase j = l ++ [i]
    apply List.erase_of_not_mem
    simp [hmem, hj]

/-- INTERNAL: another slot is removed. -/
theorem removeTask_last (hj : j ≠ i) (h : LastAsleep i k.strategy) :
    LastAsleep i (k.callStrategy cfg (.removeTask j)).2.strategy := by
  unfold Kernel.callStrategy
  split
  · next r s hok =>
    replace hok : (k.strategy.removeTask j).map (none, ·) = .ok (r, s) := hok
    unfold EarliestDeadlineFirst.removeTask at hok
    split at hok
    · obtain ⟨-, rfl⟩ := Prod.mk.inj (Except.ok.inj hok)
      exact h
    · split at hok
      · obtain ⟨-, rfl⟩ := Prod.mk.inj (Except.ok.inj hok)
        exact h.erase hj _
      · cases hok
  · exact h

/-- INTERNAL: another slot wakes up. -/
theorem onTaskWake_last (hj : j ≠ i) (h : LastAsleep i k.strategy) :
    LastAsleep i (k.callStrategy cfg (.onTaskWake j)).2.strategy := by
  unfold Kernel.callStrategy
  split
  · next r s hok =>
    replace hok : (k.strategy.onTaskWake (k.view cfg) j).map (none, ·) = .ok (r, s) := hok
    unfold EarliestDeadlineFirst.onTaskWake at hok
    split at hok
    · cases hok
    · split at hok
      · cases hok
      · obtain ⟨-, rfl⟩ := Prod.mk.inj (Except.ok.inj hok)
        exact h.erase hj _
  · exact h

/-- INTERNAL: the loop of `UpdateTaskState` at another slot, whose sleep event is not pending unless it
is removed. -/
theorem updateSlot_last {acc : Kernel n (EarliestDeadlineFirst (Fin n)) × ℤ} {e : ℤ} (hj : j ≠ i)
    (hpending : (acc.1.tasks j).sleepPending = true → acc.1.isRemovable cfg j = true)
    (h : LastAsleep i acc.1.strategy) : LastAsleep i (updateSlot cfg e acc j).1.strategy := by
  obtain ⟨k, t⟩ := acc
  unfold Kernel.updateSlot
  dsimp only at hpending h ⊢
  split
  · have hremoved : LastAsleep i (({ k with exits := k.exits ++ (k.tasks j).user.toList } :
        Kernel n (EarliestDeadlineFirst (Fin n))).callStrategy cfg (.removeTask j)).2.strategy :=
      removeTask_last hj h
    unfold Kernel.removeTask
    dsimp only
    split
    · exact hremoved
    · exact hremoved
  · next hstays =>
    dsimp only
    split
    · next hs =>
      have hnot : (k.tasks j).sleepPending = false := by
        by_contra hp
        have := hpending (by simpa using hp)
        simp [hs, this] at hstays
      have hdeliver : k.deliverSleep cfg j = k := by
        unfold Kernel.deliverSleep
        rw [if_neg (by simp [hnot])]
      rw [hdeliver]
      unfold Kernel.advanceSleep
      dsimp only
      split
      · exact onTaskWake_last (k := k.setTask j (fun t => { t with timeSleep := t.timeSleep + e })) hj h
      · exact h
    · unfold Kernel.advanceDuration
      dsimp only
      split
      · split
        · exact h
        · exact h
      · exact h

/-- INTERNAL: the rest of the loop, when slot `i` has the current task. -/
theorem updateSlots_last {e : ℤ} (l : List (Fin n)) :
    ∀ acc : Kernel n (EarliestDeadlineFirst (Fin n)) × ℤ, l.Nodup → i ∉ l → acc.1.taskNow = some i →
      (∀ j ∈ l, (acc.1.tasks j).sleepPending = true →
        (acc.1.tasks j).removePending = true ∧ cfg.isDynamicMode = true) →
      LastAsleep i acc.1.strategy → LastAsleep i (l.foldl (updateSlot cfg e) acc).1.strategy := by
  induction l with
  | nil =>
    intro acc _ _ _ _ h
    exact h
  | cons j l ih =>
    intro acc hnd hil hnow hpending h
    obtain ⟨hnotin, hnd'⟩ := List.nodup_cons.mp hnd
    obtain ⟨hij, hil'⟩ := not_or.mp (mt List.mem_cons.mpr hil)
    have hstep := updateSlot_ticked cfg e acc j
    apply ih _ hnd' hil' (hstep.taskNow.trans hnow)
    · intro j' hj'
      have hne : j' ≠ j := fun heq => hnotin (heq ▸ hj')
      rw [hstep.other j' hne]
      exact hpending j' (List.mem_cons_of_mem j hj')
    · apply updateSlot_last (Ne.symm hij) _ h
      intro hp
      obtain ⟨hremove, hdyn⟩ := hpending j List.mem_cons_self hp
      unfold Kernel.isRemovable
      rw [hnow]
      simp [hremove, hdyn, hij]

/-- INTERNAL: the loop at the slot whose task has fallen asleep. -/
theorem updateSlot_falls {acc : Kernel n (EarliestDeadlineFirst (Fin n)) × ℤ} {r q : Fin n → ℤ}
    (hgood : Good cfg r q acc.1) (hkept : acc.1.isRemovable cfg i = false) (hbusy : (acc.1.tasks i).user ≠ none)
    (hs : (acc.1.tasks i).timeSleep < -1) (hp : (acc.1.tasks i).sleepPending = true) :
    LastAsleep i (updateSlot cfg 1 acc i).1.strategy := by
  obtain ⟨k, t⟩ := acc
  dsimp only at hgood hkept hbusy hs hp
  have hsleeping : (k.tasks i).isSleeping = true := by
    rw [KernelTask.isSleeping_iff]
    omega
  have hrun : i ∈ k.strategy.tasks := by
    have hmem := (hgood.listed.mem i).mpr hbusy
    rw [runnable_edf, asleep_edf] at hmem
    refine hmem.resolve_right ?_
    intro hslp
    have hdelivered := (hgood.listed.asleep i).mp hslp
    rw [Delivered, hp] at hdelivered
    cases hdelivered.2
  have hdeliver : (k.deliverSleep cfg i).strategy = ⟨k.strategy.tasks.erase i, k.strategy.sleep ++ [i]⟩ ∧
      ((k.deliverSleep cfg i).tasks i).timeSleep = (k.tasks i).timeSleep := by
    refine ⟨?_, ?_⟩
    · unfold Kernel.deliverSleep
      rw [if_pos (by rw [hp]; rfl)]
      have hview : ((k.setTask i (fun t => { t with sleepPending := false })).view cfg).sleeping i = true := by
        simpa [Kernel.view, Kernel.setTask, KernelTask.isSleeping] using hsleeping
      have happly : (StrategyCall.onTaskSleep i).apply
          ((k.setTask i (fun t => { t with sleepPending := false })).view cfg) k.strategy =
            .ok (none, ⟨k.strategy.tasks.erase i, k.strategy.sleep ++ [i]⟩) := by
        show (k.strategy.onTaskSleep _ i).map (none, ·) = _
        unfold EarliestDeadlineFirst.onTaskSleep
        rw [if_neg (not_not.mpr hview), if_neg (not_not.mpr hrun)]
        rfl
      unfold Kernel.callStrategy
      rw [show (k.setTask i (fun t => { t with sleepPending := false })).strategy = k.strategy from rfl, happly]
    · rw [Good.deliverSleep_tasks]
      simp
  have hupdate : (updateSlot cfg 1 (k, t) i).1 = (k.deliverSleep cfg i).advanceSleep cfg 1 i := by
    unfold Kernel.updateSlot
    dsimp only
    rw [if_neg (by simp [hkept]), if_pos hsleeping]
  rw [hupdate]
  unfold Kernel.advanceSleep
  dsimp only
  rw [if_neg]
  · exact ⟨_, congrArg EarliestDeadlineFirst.sleep hdeliver.1⟩
  · simp only [Kernel.setTask, Function.update_self, KernelTask.isSleeping, hdeliver.2, Bool.and_eq_true,
      Bool.not_eq_true', decide_eq_false_iff_not, not_and, not_not]
    intro _
    omega

/-- INTERNAL: the running task is the last one to fall asleep in its tick. -/
theorem asking_last (h : JobsOk cfg act k) (hhrt : cfg.isHrtMode = true) (hproc : OnProcessor k i)
    (hs : (k.tasks i).timeSleep < 0) : LastAsleep i (asking cfg k 1).strategy := by
  have hstarted : k.taskNow ≠ none := by
    rw [hproc.1]
    exact Option.some_ne_none i
  have hbusy : (k.tasks i).user ≠ none := h.rest.2.now i hproc.1
  have hleaving := (h.slot hstarted i hbusy).leaving hproc hs
  obtain ⟨l, hnd, hl⟩ := asking_eq h hhrt 1
  obtain ⟨l₁, l₂, hsplit, h₁, h₂⟩ := finRange_split i
  have hall : (l₁ ++ i :: l₂).Nodup := hsplit ▸ List.nodup_finRange n
  obtain ⟨hnd₁, hnd₂, hdisj⟩ := List.nodup_append.mp hall
  obtain ⟨q, hgood⟩ := reaches_good (t := if cfg.isTicklessMode then cfg.ticklessTicksMax else 1)
    Int.one_pos l₁ hnd₁ (h.charged hnd Int.one_pos) (fun _ _ => rfl)
  obtain ⟨hother, hnow, hfsm, -⟩ := updateSlots_other cfg 1 l₁
    (({ k with ticks := k.ticks + 1, syncList := l } : Kernel n (EarliestDeadlineFirst (Fin n))),
      if cfg.isTicklessMode then cfg.ticklessTicksMax else 1)
  rw [hl]
  unfold Kernel.updateTaskState
  rw [hsplit, List.foldl_append, List.foldl_cons]
  generalize l₁.foldl (updateSlot cfg 1)
    (({ k with ticks := k.ticks + 1, syncList := l } : Kernel n (EarliestDeadlineFirst (Fin n))),
      if cfg.isTicklessMode then cfg.ticklessTicksMax else 1) = acc at hgood hother hnow hfsm
  have hself : acc.1.tasks i = k.tasks i := hother i h₁
  have hkept : acc.1.isRemovable cfg i = false := by
    unfold Kernel.isRemovable
    rw [hnow, hfsm]
    simp [hproc.1, hproc.2]
  have hstep := updateSlot_ticked cfg 1 acc i
  apply updateSlots_last l₂ _ (List.nodup_cons.mp hnd₂).2 h₂
  · rw [hstep.taskNow, hnow]
    exact hproc.1
  · intro j hj
    have hji : j ≠ i := fun heq => h₂ (heq ▸ hj)
    have hj₁ : j ∉ l₁ := fun hmem => hdisj j hmem j (List.mem_cons_of_mem i hj) rfl
    rw [hstep.other j hji, hother j hj₁]
    intro hp
    -- a sleep event of another slot can only come from its removal
    have hbusyj : (k.tasks j).user ≠ none := by
      intro hnone
      have hpending := (h.rest.1.slot j).pending hp
      have hfree := ((h.rest.1.slot j).free hnone).1
      omega
    have hjob := h.slot hstarted j hbusyj
    rcases hjob.pending hp with hprocj | hremove
    · exact absurd (Option.some.inj (hproc.1.symm.trans hprocj.1)) (Ne.symm hji)
    · exact ⟨hremove, hjob.remove hremove⟩
  · apply updateSlot_falls hgood hkept
    · rw [hself]
      exact hbusy
    · rw [hself]
      exact hleaving.1
    · rw [hself]
      exact hleaving.2.1

end SleepOrder

/-! ## The answer of the strategy -/

section Answer

variable {n : ℕ} {cfg : Config} {k : Kernel n (EarliestDeadlineFirst (Fin n))} {r q : Fin n → ℤ}

/-- INTERNAL: the run list when all sleep events are delivered. -/
theorem mem_tasks (h : Good cfg r q k) (hset : Settled k) (j : Fin n) :
    j ∈ k.strategy.tasks ↔ (k.tasks j).user ≠ none ∧ ¬ (k.tasks j).timeSleep < 0 := by
  constructor
  · intro hj
    have hrun : j ∈ runnable k.strategy := by
      rw [runnable_edf]
      exact hj
    exact ⟨(h.listed.mem j).mp (.inl hrun), h.awake_of_runnable hset hrun⟩
  · rintro ⟨huser, hawake⟩
    have hmem := (h.listed.mem j).mpr huser
    rw [runnable_edf] at hmem
    refine hmem.resolve_right ?_
    intro hslp
    exact hawake ((h.listed.asleep j).mp hslp).1

/-- INTERNAL: `GetNext` in a kernel whose sleep events are delivered. -/
theorem fetchNextEvent_edf (h : Good cfg r q k) (hset : Settled k) :
    (k.fetchNextEvent cfg).2.2.strategy = k.strategy ∧
      ((k.fetchNextEvent cfg).2.1 = none → k.strategy.tasks = []) ∧
      ∀ next, (k.fetchNextEvent cfg).2.1 = some next →
        FirstMinimum (fun j => (k.tasks j).hrt.deadline - (k.tasks j).hrt.duration) k.strategy.tasks next := by
  have hcall : ∃ x, k.callStrategy cfg .getNext = (x, { k with calls := k.calls ++ [(k.view cfg, .getNext)] }) ∧
      (x = none → k.strategy.tasks = []) ∧ ∀ next, x = some next →
        FirstMinimum (fun j => (k.tasks j).hrt.deadline - (k.tasks j).hrt.duration) k.strategy.tasks next := by
    unfold Kernel.callStrategy
    rw [show StrategyCall.getNext.apply (k.view cfg) k.strategy = k.strategy.getNext (k.view cfg) from rfl]
    unfold EarliestDeadlineFirst.getNext
    cases hl : k.strategy.tasks with
    | nil => exact ⟨none, rfl, fun _ => rfl, (fun _ hnext => by contradiction)⟩
    | cons first l =>
      have hawake : ¬ (first :: l).any (k.view cfg).sleeping = true := by
        rw [List.any_eq_true]
        rintro ⟨j, hj, hs⟩
        rw [← hl] at hj
        have hnot := ((mem_tasks h hset j).mp hj).2
        simp only [Kernel.view, KernelTask.isSleeping, decide_eq_true_eq] at hs
        exact hnot hs
      dsimp only
      rw [if_neg hawake]
      refine ⟨_, rfl, (fun hnone => by contradiction), ?_⟩
      intro next hnext
      obtain rfl := Option.some.inj hnext
      have hmin := scan_firstMinimum (fun j => (k.tasks j).hrt.deadline - (k.tasks j).hrt.duration) l first
      have hself : ¬ (k.view cfg).relativeDeadline first < (k.view cfg).relativeDeadline first := lt_irrefl _
      rw [List.foldl_cons, if_neg hself]
      exact hmin
  obtain ⟨x, heq, hnone, hsome⟩ := hcall
  unfold Kernel.fetchNextEvent
  rw [heq]
  cases x with
  | none =>
    dsimp only
    split
    · exact ⟨rfl, hnone, (fun _ hnext => by contradiction)⟩
    · exact ⟨rfl, hnone, (fun _ hnext => by contradiction)⟩
  | some next =>
    dsimp only
    refine ⟨?_, (fun hnext => by contradiction), hsome⟩
    split
    · rfl
    · rfl

end Answer

/-! ## The FSM -/

section Fsm

variable {n : ℕ} {cfg : Config}

/-- INTERNAL: `HrtOnSwitchedOut` of a slot, field by field. -/
theorem hrtOnSwitchedOut_fields (api : Bool) (t : KernelTask) : (t.hrtOnSwitchedOut api).user = t.user ∧
    (t.hrtOnSwitchedOut api).removePending = t.removePending ∧ (t.hrtOnSwitchedOut api).hrt.duration = 0 ∧
    (t.hrtOnSwitchedOut api).hrt.done = false ∧
    (t.timeSleep < 0 → (t.hrtOnSwitchedOut api).timeSleep < 0 ∧
      (t.hrtOnSwitchedOut api).sleepPending = t.sleepPending) := by
  unfold KernelTask.hrtOnSwitchedOut
  dsimp only
  split
  · next hpos =>
    refine ⟨rfl, rfl, rfl, rfl, ?_⟩
    intro hs
    simp only [KernelTask.scheduleSleep, KernelTask.isSleeping, hs, decide_true, Bool.not_true, Bool.and_false,
      Bool.or_false, and_true]
    omega
  · exact ⟨rfl, rfl, rfl, rfl, fun hs => ⟨hs, rfl⟩⟩

variable {act : Fin n → ℤ} {k k' : Kernel n (EarliestDeadlineFirst (Fin n))} {now : Fin n} {i : Fin n}

/-- INTERNAL: a slot that the FSM does not rewrite, with its sleep event delivered. -/
theorem AskedJob.frame {act' : Fin n → ℤ} (hjob : AskedJob cfg act k i) (hsame : k'.tasks i = k.tasks i) (hticks : k'.ticks = k.ticks)
    (hset : (k.tasks i).sleepPending = false) (hproc : ¬ (OnProcessor k i ∧ (k.tasks i).timeSleep < 0))
    (hnew : OnProcessor k' i → ¬ (k.tasks i).timeSleep < 0) (hact : act' i = act i) : JobOk cfg act' k' i := by
  refine ⟨?_, ?_, ?_, ?_, ?_, ?_⟩
  · rw [hsame]
    exact hjob.remove
  · rw [hsame]
    intro hdone
    exact .inl ((hjob.done hdone).resolve_right hproc)
  · rw [hsame, hticks, hact]
    exact hjob.awake
  · rw [hsame]
    intro hs
    rcases hjob.asleep hs with hzero | hon
    · exact .inl hzero
    · exact absurd ⟨hon, hs⟩ hproc
  · rw [hsame]
    intro hon hs
    exact absurd hs (hnew hon)
  · rw [hsame, hset]
    intro hp
    cases hp

/-- INTERNAL: a slot that is switched out at the end of its job. -/
theorem AskedJob.rearmed {act' : Fin n → ℤ} (hjob : AskedJob cfg act k i)
    (hout : k'.tasks i = (k.tasks i).hrtOnSwitchedOut true) (hset : (k.tasks i).sleepPending = false)
    (hact : act' i = k'.ticks) (hoff : ¬ OnProcessor k' i)
    (hawake : ¬ (k.tasks i).timeSleep < 0 → (k.tasks i).removePending = true) : JobOk cfg act' k' i := by
  obtain ⟨-, hremove, hduration, hdone, hasleep⟩ := hrtOnSwitchedOut_fields true (k.tasks i)
  refine ⟨?_, ?_, ?_, ?_, ?_, ?_⟩
  · rw [hout, hremove]
    exact hjob.remove
  · rw [hout, hdone]
    intro hfalse
    cases hfalse
  · rw [hout, hduration, hact]
    intro _
    omega
  · rw [hout, hduration]
    intro _
    exact .inl rfl
  · intro hon
    exact absurd hon hoff
  · rw [hout, hremove]
    intro hp
    right
    by_cases hs : (k.tasks i).timeSleep < 0
    · rw [(hasleep hs).2, hset] at hp
      cases hp
    · exact hawake hs

/-- What the FSM leaves behind, for the state `k` in which it has asked the strategy. -/
structure FsmJobs (cfg : Config) (act : Fin n → ℤ) (k k' : Kernel n (EarliestDeadlineFirst (Fin n))) : Prop where
  slot : k'.taskNow ≠ none → ∀ i, (k'.tasks i).user ≠ none → JobOk cfg act k' i
  idle : k'.taskNow ≠ none → k'.fsmState = .sleeping → ∀ i, (k'.tasks i).user ≠ none → (k'.tasks i).timeSleep < 0
  user : ∀ i, (k'.tasks i).user = (k.tasks i).user
  free : ∀ i, (k.tasks i).user = none → k'.tasks i = k.tasks i
  stopped : k'.taskNow = none → ∀ i, (k.tasks i).user = none

variable {r q : Fin n → ℤ}

/-- INTERNAL: a kernel with a bound slot has a first task. -/
theorem getFirst_ne_none (h : Good cfg r q k) (hbusy : (k.tasks i).user ≠ none) :
    SwitchStrategy.getFirst k.strategy ≠ none := by
  have hmem := (h.listed.mem i).mpr hbusy
  rw [runnable_edf, asleep_edf] at hmem
  show k.strategy.getFirst ≠ none
  unfold EarliestDeadlineFirst.getFirst
  split
  · next hne =>
    rw [ne_eq, List.head?_eq_none_iff]
    exact hne
  · next hnil =>
    rw [not_not] at hnil
    rw [hnil] at hmem
    rw [ne_eq, List.head?_eq_none_iff]
    rintro hempty
    rw [hempty] at hmem
    simp at hmem

/-- INTERNAL: the last in the sleep list is its first only if it is alone. -/
theorem alone_of_first (h : Good cfg r q k) (hlast : LastAsleep i k.strategy) (hidle : k.strategy.tasks = [])
    (hfirst : SwitchStrategy.getFirst k.strategy = some i) : ∀ j, (k.tasks j).user ≠ none → j = i := by
  obtain ⟨l, hl⟩ := hlast
  have hhead : k.strategy.sleep.head? = some i := by
    rw [← hfirst]
    show _ = k.strategy.getFirst
    unfold EarliestDeadlineFirst.getFirst
    rw [if_neg (not_not.mpr hidle)]
  have hnd : k.strategy.sleep.Nodup := by
    have := SleepAware.nodup h.listed.wf
    rw [runnable_edf, asleep_edf, hidle] at this
    exact this
  have hnil : l = [] := by
    cases l with
    | nil => rfl
    | cons a l =>
      rw [hl] at hhead hnd
      obtain rfl : a = i := by simpa using hhead
      simp at hnd
  intro j hj
  have hmem := (h.listed.mem j).mpr hj
  rw [runnable_edf, asleep_edf, hidle, hl, hnil] at hmem
  simpa using hmem

/-- INTERNAL: a step of the FSM that rewrites no slot. -/
theorem FsmJobs.same (hset : Settled k) (hjobs : ∀ i, (k.tasks i).user ≠ none → AskedJob cfg act k i)
    {act' : Fin n → ℤ} (hact : ∀ i, act' i = act i) (htasks : k'.tasks = k.tasks) (hticks : k'.ticks = k.ticks)
    (hstarted : k'.taskNow ≠ none) (hproc : ∀ i, ¬ (OnProcessor k i ∧ (k.tasks i).timeSleep < 0))
    (hnew : ∀ i, OnProcessor k' i → ¬ (k.tasks i).timeSleep < 0)
    (hidle : k'.fsmState = .sleeping → ∀ i, (k.tasks i).user ≠ none → (k.tasks i).timeSleep < 0) :
    FsmJobs cfg act' k k' := by
  have hsame : ∀ i, k'.tasks i = k.tasks i := fun i => by rw [htasks]
  refine ⟨?_, ?_, ?_, ?_, ?_⟩
  · intro _ i hi
    rw [hsame i] at hi
    exact (hjobs i hi).frame (hsame i) hticks (hset i) (hproc i) (hnew i) (hact i)
  · intro _ hs i hi
    rw [hsame i] at hi ⊢
    exact hidle hs i hi
  · intro i
    rw [hsame i]
  · intro i _
    exact hsame i
  · intro hnone
    exact absurd hnone hstarted

/-- INTERNAL: a step of the FSM that switches a task out at the end of its job. -/
theorem FsmJobs.out (hset : Settled k) (hnow : k.taskNow = some now) (hbusy : (k.tasks now).user ≠ none)
    (hjobs : ∀ i, (k.tasks i).user ≠ none → AskedJob cfg act k i)
    {act' : Fin n → ℤ} (hact : ∀ i, i ≠ now → act' i = act i) (hactnow : act' now = k.ticks)
    (htasks : k'.tasks = Function.update k.tasks now ((k.tasks now).hrtOnSwitchedOut true))
    (hticks : k'.ticks = k.ticks) (hstarted : k'.taskNow ≠ none)
    (hawake : ¬ (k.tasks now).timeSleep < 0 → (k.tasks now).removePending = true)
    (hoff : ¬ OnProcessor k' now) (hnew : ∀ i, OnProcessor k' i → ¬ (k.tasks i).timeSleep < 0)
    (hidle : k'.fsmState = .sleeping → ∀ i, (k.tasks i).user ≠ none → (k.tasks i).timeSleep < 0) :
    FsmJobs cfg act' k k' := by
  have hself : k'.tasks now = (k.tasks now).hrtOnSwitchedOut true := by rw [htasks, Function.update_self]
  have hother : ∀ i, i ≠ now → k'.tasks i = k.tasks i := fun i hi => by rw [htasks, Function.update_of_ne hi]
  have huser : ∀ i, (k'.tasks i).user = (k.tasks i).user := by
    intro i
    by_cases hi : i = now
    · subst hi
      rw [hself]
      exact (hrtOnSwitchedOut_fields true (k.tasks i)).1
    · rw [hother i hi]
  have hnotnow : ∀ i, i ≠ now → ¬ (OnProcessor k i ∧ (k.tasks i).timeSleep < 0) := by
    rintro i hi ⟨hon, -⟩
    exact hi (Option.some.inj (hon.1.symm.trans hnow))
  refine ⟨?_, ?_, huser, ?_, fun hnone => absurd hnone hstarted⟩
  · intro _ i hi
    rw [huser i] at hi
    by_cases hinow : i = now
    · subst hinow
      exact (hjobs i hi).rearmed hself (hset i) (hactnow.trans hticks.symm) hoff hawake
    · exact (hjobs i hi).frame (hother i hinow) hticks (hset i) (hnotnow i hinow) (hnew i) (hact i hinow)
  · intro _ hs i hi
    rw [huser i] at hi
    by_cases hinow : i = now
    · subst hinow
      rw [hself]
      exact ((hrtOnSwitchedOut_fields true (k.tasks i)).2.2.2.2 (hidle hs i hi)).1
    · rw [hother i hinow]
      exact hidle hs i hi
  · intro i hi
    apply hother
    rintro rfl
    exact hbusy hi

/-- INTERNAL: the exiting task stays where it is when the kernel goes to sleep; the next tick removes
it. -/
theorem AskedJob.exiting {act' : Fin n → ℤ} (hjob : AskedJob cfg act k i) (hsame : k'.tasks i = k.tasks i)
    (hset : (k.tasks i).sleepPending = false) (hs : (k.tasks i).timeSleep < 0)
    (hremove : (k.tasks i).removePending = true) (hoff : k'.fsmState = .sleeping)
    (hcase : k'.taskNow ≠ some i ∨ ∀ j, (k'.tasks j).user ≠ none → j = i) : JobOk cfg act' k' i := by
  have hnot : ¬ OnProcessor k' i := fun hon => hon.2 hoff
  refine ⟨?_, ?_, ?_, ?_, fun hon => absurd hon hnot, ?_⟩
  · rw [hsame]
    exact hjob.remove
  · rw [hsame]
    intro _
    exact .inl hremove
  · rw [hsame]
    intro hawake
    exact absurd hs hawake
  · intro _
    refine .inr (.inr ⟨by rw [hsame]; exact hremove, ?_⟩)
    rcases hcase with hne | halone
    · exact .inl hne
    · exact .inr ⟨hoff, halone⟩
  · rw [hsame, hset]
    intro hp
    cases hp

theorem fsm_jobs (hhrt : cfg.isHrtMode = true) (hgood : Good cfg r q k) (hset : Settled k)
    (hnow : k.taskNow = some now) (hfsm : Dispatching k)
    (hlive : (k.fetchNextEvent cfg).1 ≠ .exit → (k.tasks now).user ≠ none)
    (hjobs : ∀ i, (k.tasks i).user ≠ none → AskedJob cfg act k i)
    (hlast : OnProcessor k now → (k.tasks now).timeSleep < 0 → LastAsleep now k.strategy) :
    FsmJobs cfg (fun i => if switchedOut cfg k = some i then k.ticks else act i) k (k.updateFsmState cfg).1 := by
  obtain ⟨htasks, hticks, hnow', -, hevents, -⟩ := fetchNextEvent_frame cfg k
  obtain ⟨-, -, -, -, hawake, hexit, -⟩ := hgood.fetchNextEvent hset
  obtain ⟨hstrategy, hempty, -⟩ := fetchNextEvent_edf hgood hset
  have hstep : FsmStep cfg k now (k.updateFsmState cfg) := by
    apply updateFsmState_step hnow hfsm
    intro hevent _
    rw [hstrategy]
    exact getFirst_ne_none hgood (hlive (by rw [hevent]; exact fun he => nomatch he))
  have hallasleep : (k.fetchNextEvent cfg).2.1 = none → ∀ i, (k.tasks i).user ≠ none → (k.tasks i).timeSleep < 0 := by
    intro hnone i hi
    by_contra hs
    have hmem := (mem_tasks hgood hset i).mpr ⟨hi, hs⟩
    rw [hempty hnone] at hmem
    cases hmem
  have honly : ∀ {k' : Kernel n (EarliestDeadlineFirst (Fin n))} {next : Fin n},
      (k.fetchNextEvent cfg).2.1 = some next → k'.taskNow = some next →
        ∀ i, OnProcessor k' i → ¬ (k.tasks i).timeSleep < 0 := by
    rintro k' next hnext hnow' i ⟨hi, -⟩
    obtain rfl : next = i := Option.some.inj (hnow'.symm.trans hi)
    exact (hawake next hnext).2
  have hcurrent : ∀ i, OnProcessor k i → i = now := fun i hon => Option.some.inj (hon.1.symm.trans hnow)
  generalize k.updateFsmState cfg = res at hstep
  cases hstep with
  | keep hnext hrunning =>
    have hout := switchedOut_some hhrt hnow hfsm hrunning hnext
    rw [if_neg (fun h => h.1 rfl)] at hout
    refine FsmJobs.same hset hjobs ?_ htasks hticks ?_ ?_ ?_ ?_
    · intro i
      simp [hout]
    · rw [hnow', hnow]
      exact Option.some_ne_none now
    · rintro i ⟨hon, hs⟩
      obtain rfl := hcurrent i hon
      exact (hawake i hnext).2 hs
    · exact honly hnext (hnow'.trans hnow)
    · intro hs
      cases hs
  | switch next hnext hne hrunning =>
    have hout := switchedOut_some hhrt hnow hfsm hrunning hnext
    by_cases hdone : (k.tasks now).hrt.done = true
    · rw [if_pos ⟨hne, hdone⟩] at hout
      have hbusy : (k.tasks now).user ≠ none := by
        apply hlive
        rw [hevents next hnext, if_neg hrunning]
        exact fun he => nomatch he
      have hrearms : (cfg.isHrtMode && (k.tasks now).hrt.done) = true := by simp [hhrt, hdone]
      refine FsmJobs.out hset hnow hbusy hjobs ?_ ?_ ?_ ?_ ?_ ?_ ?_ ?_ ?_
      · intro i hi
        simp [hout, Ne.symm hi]
      · simp [hout]
      · rw [if_pos hrearms]
        show Function.update (k.fetchNextEvent cfg).2.2.tasks now _ = _
        rw [htasks]
        rfl
      · rw [if_pos hrearms]
        exact hticks
      · exact Option.some_ne_none next
      · intro hs
        exact ((hjobs now hbusy).done hdone).resolve_right (fun h => hs h.2)
      · intro hon
        exact hne (Option.some.inj hon.1)
      · exact honly hnext rfl
      · intro hs
        cases hs
    · rw [if_neg (fun h => hdone h.2)] at hout
      have hkeeps : ¬ (cfg.isHrtMode && (k.tasks now).hrt.done) = true := by simp [hdone]
      refine FsmJobs.same hset hjobs ?_ ?_ ?_ ?_ ?_ ?_ ?_
      · intro i
        simp [hout]
      · rw [if_neg hkeeps]
        exact htasks
      · rw [if_neg hkeeps]
        exact hticks
      · exact Option.some_ne_none next
      · rintro i ⟨hon, hs⟩
        obtain rfl := hcurrent i hon
        have hbusy := (hgood.slot i).busy_of_sleeping hs
        exact hdone ((hjobs i hbusy).leaving hon hs)
      · exact honly hnext rfl
      · intro hs
        cases hs
  | wake next hnext hsleeping =>
    have hout : switchedOut cfg k = none := switchedOut_sleeping hsleeping
    refine FsmJobs.same hset hjobs ?_ htasks hticks ?_ ?_ ?_ ?_
    · intro i
      simp [hout]
    · exact Option.some_ne_none next
    · rintro i ⟨hon, -⟩
      exact hon.2 hsleeping
    · exact honly hnext rfl
    · intro hs
      cases hs
  | sleep first hnext hevent hfirst hrunning =>
    have hout := switchedOut_none hhrt hnow hfsm hrunning hevent
    have hbusy : (k.tasks now).user ≠ none := hlive (by rw [hevent]; exact fun he => nomatch he)
    have hs := hallasleep hnext now hbusy
    cases hremove : (k.tasks now).removePending with
    | false =>
      rw [hremove, if_neg Bool.false_ne_true] at hout
      have hrearms : (cfg.isHrtMode && !(k.tasks now).removePending) = true := by simp [hhrt, hremove]
      refine FsmJobs.out hset hnow hbusy hjobs ?_ ?_ ?_ ?_ ?_ ?_ ?_ ?_ ?_
      · intro i hi
        simp [hout, Ne.symm hi]
      · simp [hout]
      · rw [hremove] at hrearms
        rw [if_pos hrearms]
        show Function.update (k.fetchNextEvent cfg).2.2.tasks now _ = _
        rw [htasks]
        rfl
      · rw [hremove] at hrearms
        rw [if_pos hrearms]
        exact hticks
      · exact Option.some_ne_none first
      · intro hawake
        exact absurd hs hawake
      · intro hon
        exact hon.2 rfl
      · intro i hon
        exact absurd rfl hon.2
      · intro _
        exact hallasleep hnext
    | true =>
      rw [hremove, if_pos rfl] at hout
      have hkeeps : ¬ (cfg.isHrtMode && !true) = true := by simp
      rw [if_neg hkeeps]
      refine ⟨?_, ?_, ?_, ?_, ?_⟩
      · intro _ i hi
        replace hi : (k.tasks i).user ≠ none := by
          rw [← htasks]
          exact hi
        by_cases hinow : i = now
        · subst hinow
          refine (hjobs i hi).exiting (congrFun htasks i) (hset i) hs hremove rfl ?_
          by_cases hself : first = i
          · right
            subst hself
            intro j hj
            rw [hstrategy] at hfirst
            have halone := alone_of_first hgood (hlast ⟨hnow, hrunning⟩ hs) (hempty hnext) hfirst
            apply halone j
            rw [← htasks]
            exact hj
          · left
            exact fun heq => hself (Option.some.inj heq)
        · refine (hjobs i hi).frame (congrFun htasks i) hticks (hset i) ?_ ?_ ?_
          · rintro ⟨hon, -⟩
            exact hinow (hcurrent i hon)
          · intro hon
            exact absurd rfl hon.2
          · simp [hout]
      · intro _ _ i hi
        show ((k.fetchNextEvent cfg).2.2.tasks i).timeSleep < 0
        rw [htasks]
        apply hallasleep hnext
        rw [← htasks]
        exact hi
      · intro i
        exact congrArg KernelTask.user (congrFun htasks i)
      · intro i _
        exact congrFun htasks i
      · intro hnone
        cases hnone
  | rest hnext hevent hsleeping =>
    have hout : switchedOut cfg k = none := switchedOut_sleeping hsleeping
    refine FsmJobs.same hset hjobs ?_ htasks hticks ?_ ?_ ?_ ?_
    · intro i
      simp [hout]
    · show (k.fetchNextEvent cfg).2.2.taskNow ≠ none
      rw [hnow', hnow]
      exact Option.some_ne_none now
    · rintro i ⟨hon, -⟩
      exact hon.2 hsleeping
    · rintro i ⟨-, hfsm'⟩
      obtain ⟨-, -, -, hstate, -, -⟩ := fetchNextEvent_frame cfg k
      exact absurd (hstate.trans hsleeping) hfsm'
    · intro _
      exact hallasleep hnext
  | exit hnext hevent =>
    have hfree := (hexit hevent).2
    refine ⟨?_, ?_, ?_, ?_, ?_⟩
    · intro hstarted
      exact absurd rfl hstarted
    · intro hstarted
      exact absurd rfl hstarted
    · intro i
      exact congrArg KernelTask.user (congrFun htasks i)
    · intro i _
      exact congrFun htasks i
    · intro _
      exact hfree

end Fsm

/-! ## Ticks and starts -/

section Ticks

variable {n : ℕ} {cfg : Config} {act : Fin n → ℤ} {k : Kernel n (EarliestDeadlineFirst (Fin n))} {i : Fin n}

theorem unbind_noJob (hhrt : cfg.isHrtMode = true) (t : KernelTask) : NoJob (t.unbind cfg) := by
  unfold KernelTask.unbind
  rw [if_pos hhrt]
  exact ⟨rfl, rfl, rfl⟩

/-- INTERNAL: a slot that is free when the strategy is asked. -/
theorem asking_free (h : JobsOk cfg act k) (hhrt : cfg.isHrtMode = true)
    (hfree : ((asking cfg k 1).tasks i).user = none) : NoJob ((asking cfg k 1).tasks i) := by
  obtain ⟨gone, hslot, -, -⟩ := asking_slot h hhrt i
  rw [hslot] at hfree ⊢
  unfold updatedSlot at hfree ⊢
  split at hfree
  · next hs =>
    rw [if_pos hs]
    cases gone with
    | true =>
      rw [if_pos rfl]
      exact unbind_noJob hhrt _
    | false =>
      rw [if_neg Bool.false_ne_true] at hfree
      have hpos := ((h.rest.1.slot i).free hfree).1
      rw [KernelTask.isSleeping_iff] at hs
      omega
  · next hs =>
    rw [if_neg hs]
    split at hfree
    · next hbusy =>
      simp only [KernelTask.isBusy, Bool.and_eq_true] at hbusy
      rw [hfree] at hbusy
      cases hbusy.2
    · next hbusy =>
      rw [if_neg hbusy]
      exact h.free i hfree

/-- INTERNAL: nobody waits when the strategy is asked. -/
theorem asking_waits (h : JobsOk cfg act k) (hhrt : cfg.isHrtMode = true) (i : Fin n) :
    ((asking cfg k 1).tasks i).waitObj.syncObj = none := by
  obtain ⟨gone, hslot, -, -⟩ := asking_slot h hhrt i
  rw [hslot, ← h.waits i]
  unfold updatedSlot
  split
  · split
    · unfold KernelTask.unbind
      dsimp only
      split
      · rfl
      · rfl
    · rfl
  · split
    · rfl
    · rfl

theorem JobsOk.onTick (h : JobsOk cfg act k) (hhrt : cfg.isHrtMode = true) (hstarted : k.taskNow ≠ none)
    (hwaits : ∀ i, ((k.onTick cfg 1).1.tasks i).waitObj.syncObj = none) :
    JobsOk cfg (fun i => if switchedOut cfg (asking cfg k 1) = some i then k.ticks + 1 else activated k act 1 i)
      (k.onTick cfg 1).1 := by
  have hinf : ∀ i, (k.tasks i).waitObj.syncObj ≠ none →
      (k.tasks i).waitObj.timeWait = waitInfinite → (k.tasks i).timeSleep + 1 < 0 :=
    fun i hne => absurd (h.waits i) hne
  obtain ⟨hgood, hset, hlive, hnow, hfsm⟩ :=
    updateTasks_good (fun _ => trivial) h.rest.1 h.rest.2 Int.one_pos hinf
  have hrest : Rest cfg (k.onTick cfg 1).1 := onTick_good (fun _ => trivial) h.rest.1 h.rest.2 hstarted Int.one_pos
    hinf (fun i _ => asking_waits h hhrt i)
  obtain ⟨now, hcurrent⟩ := Option.ne_none_iff_exists'.mp hstarted
  have hdispatching : Dispatching (asking cfg k 1) := by
    have hstate := h.rest.2.fsm hstarted
    unfold Dispatching asking
    rw [hfsm]
    cases hk : k.fsmState with
    | none => exact absurd hk hstate.1
    | exiting => exact absurd hk hstate.2
    | switching => exact .inl rfl
    | waking => exact .inr (.inl rfl)
    | sleeping => exact .inr (.inr rfl)
  have hticks := (asking_frame h hhrt 1).2.2
  have hjobs : FsmJobs cfg (fun i => if switchedOut cfg (asking cfg k 1) = some i then (asking cfg k 1).ticks
      else activated k act 1 i) (asking cfg k 1) ((asking cfg k 1).updateFsmState cfg).1 := by
    refine fsm_jobs hhrt hgood hset (hnow.trans hcurrent) hdispatching ?_
      (fun i hi => asking_job h hhrt hstarted hi) ?_
    · intro hexit
      rcases hlive with hbound | hnobody
      · exact hbound now (hnow.trans hcurrent)
      · obtain ⟨-, -, -, -, -, -, hexits⟩ := hgood.fetchNextEvent hset
        exact absurd (hexits hnobody) hexit
    · rintro hon hs
      apply asking_last h hhrt
      · exact ⟨hnow.symm.trans hon.1, fun hstate => hon.2 (hfsm.trans hstate)⟩
      · by_contra hawake
        -- a task that is awake before the loop is awake after it
        obtain ⟨gone, hslot, -, -⟩ := asking_slot h hhrt now
        rw [hslot] at hs
        unfold updatedSlot at hs
        rw [if_neg (by simpa [KernelTask.isSleeping] using hawake)] at hs
        split at hs
        · exact hawake hs
        · exact hawake hs
  rw [hticks] at hjobs
  refine ⟨hrest, hwaits, ?_, ?_, hjobs.slot, hjobs.idle⟩
  · intro i hi
    have hfree : ((asking cfg k 1).tasks i).user = none := (hjobs.user i).symm.trans hi
    have hsame : (k.onTick cfg 1).1.tasks i = (asking cfg k 1).tasks i := hjobs.free i hfree
    rw [hsame]
    exact asking_free h hhrt hfree
  · intro hnone i
    have hfree := hjobs.stopped hnone i
    have hsame : (k.onTick cfg 1).1.tasks i = (asking cfg k 1).tasks i := hjobs.free i hfree
    rw [hsame]
    exact asking_free h hhrt hfree

/-- INTERNAL: the loop of `OnStart` over the slots. -/
theorem deliver_frame {σ : Type} [SwitchStrategy (Fin n) σ] (cfg : Config) (l : List (Fin n)) :
    ∀ k : Kernel n σ,
      (∀ i, ((l.foldl (fun k i => if (k.tasks i).isSleeping then k.deliverSleep cfg i else k) k).tasks i).hrt =
        (k.tasks i).hrt) ∧
      (l.foldl (fun k i => if (k.tasks i).isSleeping then k.deliverSleep cfg i else k) k).ticks = k.ticks := by
  induction l with
  | nil => exact fun k => ⟨fun _ => rfl, rfl⟩
  | cons j l ih =>
    intro k
    have hstep : (∀ i, ((if (k.tasks j).isSleeping then k.deliverSleep cfg j else k).tasks i).hrt = (k.tasks i).hrt) ∧
        (if (k.tasks j).isSleeping then k.deliverSleep cfg j else k).ticks = k.ticks := by
      split
      · unfold Kernel.deliverSleep
        split
        · refine ⟨fun i => ?_, (callStrategy_frame cfg _ _).1⟩
          by_cases hij : i = j
          · subst hij
            simp [Kernel.setTask]
          · simp [Kernel.setTask, hij]
        · exact ⟨fun _ => rfl, rfl⟩
      · exact ⟨fun _ => rfl, rfl⟩
    obtain ⟨hhrt, hticks⟩ := ih (if (k.tasks j).isSleeping then k.deliverSleep cfg j else k)
    exact ⟨fun i => (hhrt i).trans (hstep.1 i), hticks.trans hstep.2⟩

/-- INTERNAL: what `OnStart` leaves behind. -/
theorem onStart_edf (h : Good cfg (fun _ => 0) (fun _ => 0) k) (hidle : k.taskNow = none) :
    (∀ i, ((k.onStart cfg).tasks i).hrt = (k.tasks i).hrt) ∧ (k.onStart cfg).ticks = k.ticks ∧
      Settled (k.onStart cfg) ∧
      (∀ i, OnProcessor (k.onStart cfg) i → ¬ ((k.onStart cfg).tasks i).timeSleep < 0) ∧
      ((k.onStart cfg).taskNow ≠ none → (k.onStart cfg).fsmState = .sleeping →
        ∀ i, ((k.onStart cfg).tasks i).user ≠ none → ((k.onStart cfg).tasks i).timeSleep < 0) := by
  obtain ⟨hgood, hset, hnow⟩ := deliverSlots cfg (List.finRange n) h
    (fun i hi => absurd (List.mem_finRange i) hi)
  obtain ⟨hhrt, hticks⟩ := deliver_frame cfg (List.finRange n) k
  unfold Kernel.onStart
  dsimp only
  generalize (List.finRange n).foldl (fun k i =>
    if (k.tasks i).isSleeping then k.deliverSleep cfg i else k) k = k₁ at hgood hset hnow hhrt hticks
  have hswitch : Good cfg (fun _ => 0) (fun _ => 0) { k₁ with fsmState := .switching } :=
    hgood.setNow k₁.taskNow (fun hn => hgood.idle (Or.inl hn))
  obtain ⟨-, -, -, -, hnext, -, -⟩ := hswitch.fetchNextEvent hset
  obtain ⟨-, hempty, -⟩ := fetchNextEvent_edf hswitch hset
  obtain ⟨htasks, hticks', hnow', -, hsome, hnone⟩ :=
    fetchNextEvent_frame cfg ({ k₁ with fsmState := .switching } : Kernel n (EarliestDeadlineFirst (Fin n)))
  have hallasleep : (({ k₁ with fsmState := .switching } : Kernel n (EarliestDeadlineFirst (Fin n))).fetchNextEvent
      cfg).2.1 = none → ∀ i, (k₁.tasks i).user ≠ none → (k₁.tasks i).timeSleep < 0 := by
    intro hnone i hi
    by_contra hs
    have hmem := (mem_tasks hswitch hset i).mpr ⟨hi, hs⟩
    rw [hempty hnone] at hmem
    cases hmem
  generalize ({ k₁ with fsmState := .switching } : Kernel n (EarliestDeadlineFirst (Fin n))).fetchNextEvent cfg = f
    at hnext htasks hticks' hnow' hsome hnone hallasleep
  obtain ⟨event, next, k₂⟩ := f
  dsimp only at hnext htasks hticks' hnow' hsome hnone hallasleep ⊢
  have hhrt₂ : ∀ i, (k₂.tasks i).hrt = (k.tasks i).hrt := by
    intro i
    rw [htasks]
    exact hhrt i
  have hset₂ : ∀ i, (k₂.tasks i).sleepPending = false := by
    intro i
    rw [htasks]
    exact hset i
  have hstopped : k₂.taskNow = none := hnow'.trans (hnow.trans hidle)
  have hfault : ∀ k₃ : Kernel n (EarliestDeadlineFirst (Fin n)), k₃.tasks = k₂.tasks → k₃.ticks = k₂.ticks →
      k₃.taskNow = none → (∀ i, (k₃.tasks i).hrt = (k.tasks i).hrt) ∧ k₃.ticks = k.ticks ∧ Settled k₃ ∧
      (∀ i, OnProcessor k₃ i → ¬ (k₃.tasks i).timeSleep < 0) ∧
      (k₃.taskNow ≠ none → k₃.fsmState = .sleeping → ∀ i, (k₃.tasks i).user ≠ none → (k₃.tasks i).timeSleep < 0) := by
    intro k₃ htasks₃ hticks₃ hnow₃
    refine ⟨?_, hticks₃.trans (hticks'.trans hticks), ?_, ?_, fun hne => absurd hnow₃ hne⟩
    · rw [htasks₃]
      exact hhrt₂
    · intro i
      rw [htasks₃]
      exact hset₂ i
    · rintro i ⟨hi, -⟩
      cases hnow₃.symm.trans hi
  cases next with
  | some j =>
    have hevent := hsome j rfl
    rw [if_neg (fun h => nomatch h)] at hevent
    subst hevent
    refine ⟨hhrt₂, hticks'.trans hticks, hset₂, ?_, ?_⟩
    · rintro i ⟨hi, -⟩
      obtain rfl : j = i := Option.some.inj hi
      show ¬ (k₂.tasks j).timeSleep < 0
      rw [htasks]
      exact (hnext j rfl).2
    · intro _ hs
      cases hs
  | none =>
    rcases hnone rfl with hevent | hevent
    · subst hevent
      exact hfault _ rfl rfl hstopped
    · subst hevent
      show _ ∧ _
      dsimp only [fsm]
      cases hfirst : SwitchStrategy.getFirst k₂.strategy with
      | none => exact hfault _ rfl rfl hstopped
      | some first =>
        refine ⟨hhrt₂, hticks'.trans hticks, hset₂, ?_, ?_⟩
        · rintro i ⟨-, hfsm⟩
          exact absurd rfl hfsm
        · intro _ _ i hi
          show (k₂.tasks i).timeSleep < 0
          rw [htasks]
          apply hallasleep rfl
          rw [← congrArg KernelTask.user (congrFun htasks i)]
          exact hi

theorem JobsOk.onStart (h : JobsOk cfg act k) (hidle : k.taskNow = none) :
    JobsOk cfg (fun _ => k.ticks) (k.onStart cfg) := by
  obtain ⟨hhrt, hticks, hset, hrunning, hasleep⟩ := onStart_edf h.rest.1 hidle
  have hsame : ∀ i, SameSlot i k (k.onStart cfg) := fun i => SameSlot.onStart cfg i k
  have hjob : ∀ i, NoJob ((k.onStart cfg).tasks i) := by
    intro i
    have hnone := h.stopped hidle i
    refine ⟨?_, ?_, ?_⟩
    · rw [hhrt i]
      exact hnone.duration
    · rw [hhrt i]
      exact hnone.done
    · rw [(hsame i).remove]
      exact hnone.remove
  refine ⟨onStart_good h.rest.1 hidle, ?_, fun i _ => hjob i, fun _ => hjob, ?_, hasleep⟩
  · intro i
    rw [(hsame i).waitObj]
    exact h.waits i
  · intro _ i _
    refine ⟨?_, ?_, ?_, ?_, ?_, ?_⟩
    · rw [(hjob i).remove]
      intro hfalse
      cases hfalse
    · rw [(hjob i).done]
      intro hfalse
      cases hfalse
    · intro _
      rw [(hjob i).duration, hticks]
      omega
    · intro _
      exact .inl (hjob i).duration
    · intro hon hs
      exact absurd hs (hrunning i hon)
    · rw [hset i]
      intro hfalse
      cases hfalse

end Ticks

end Stk.Analysis
