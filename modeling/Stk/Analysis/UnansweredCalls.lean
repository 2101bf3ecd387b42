import Stk.Analysis.WakeTime

/-!
# Calls that nobody answers

A call of a task that has gone to sleep, in any system over the kernel, along steps that do not touch the task:
`BlocksUntil` follows from what the call left in the wait object (`Armed.blocksUntil`, `Armed.stays`).
-/

set_option autoImplicit false

namespace Stk.Analysis

open Stk.Model Stk.Model.Kernel

variable {n : ℕ} {σ : Type} [SwitchStrategy (Fin n) σ] {cfg : Config} {k k' : Kernel n σ} {i : Fin n}
  {S E F : Type}

/-! ## The steps of others -/

/-- A step that leaves slot `i` as it is, or a tick. -/
def PassesBy (cfg : Config) (i : Fin n) (k k' : Kernel n σ) : Prop :=
  SameSlot i k k' ∨ ∃ e, validElapsed cfg e = true ∧ k' = (k.onTick cfg e).1

/-- The tick counter has not reached `due` before any step of the run, and every step passes by slot `i`. -/
def Unanswered (cfg : Config) (step : S → E → S) (kern : S → Kernel n σ) (i : Fin n) (due : ℤ) (s : S)
    (es : List E) : Prop :=
  Runs.Along step (fun s e => (kern s).ticks < due ∧ PassesBy cfg i (kern s) (kern (step s e))) s es

/-- As long as nobody answers, the task in slot `i` is blocked exactly as long as the tick counter is below `due`;
then its call is over, as `ends` has it. -/
def EndsAt (cfg : Config) (step : S → E → S) (kern : S → Kernel n σ) (i : Fin n) (due : ℤ) (ends : S → Prop)
    (s : S) : Prop :=
  ∀ es, Unanswered cfg step kern i due s es →
    (((kern (es.foldl step s)).tasks i).isSleeping = true ↔ (kern (es.foldl step s)).ticks < due) ∧
      (due ≤ (kern (es.foldl step s)).ticks → ends (es.foldl step s))

/-- As long as nobody answers and the tick counter is below `due`, the task in slot `i` is blocked. -/
def StaysUntil (cfg : Config) (step : S → E → S) (kern : S → Kernel n σ) (i : Fin n) (due : ℤ) (s : S) : Prop :=
  ∀ es, Unanswered cfg step kern i due s es → (kern (es.foldl step s)).ticks < due →
    ((kern (es.foldl step s)).tasks i).isSleeping = true

/-- A system over a kernel, as a call of the task in slot `i` inside `Wait` depends on it: its invariant, and what
it remembers of the call. -/
structure Hosts (cfg : Config) (i : Fin n) (step : S → E → S) (kern : S → Kernel n σ) (inv : S → Prop)
    (frame : S → F) : Prop where
  keeps : ∀ {s} (e : E), inv s → inv (step s e)
  linked : ∀ {s}, inv s → Linked (kern s)
  framed : ∀ {s} (e : E), inv s → (kern s).call i ≠ none → (kern s).waitResult i = none →
    (kern (step s e)).call i ≠ none → frame (step s e) = frame s

/-- The task in slot `i` has called `Wait` with timeout `T` in the tick `start`. -/
structure Armed (i : Fin n) (T start : ℤ) (k : Kernel n σ) : Prop where
  busy : (k.tasks i).user ≠ none
  live : (k.tasks i).removePending = false
  linked : (k.tasks i).waitObj.syncObj ≠ none
  fresh : (k.tasks i).waitObj.timeout = false
  left : (k.tasks i).waitObj.timeWait = T
  clock : (k.tasks i).timeSleep = -waitInfinite
  call : ∃ c, k.call i = some c ∧ c.timeout = T
  now : k.ticks = start

theorem Armed.onTaskWait {T : ℤ} (hne : T ≠ 0) (hbusy : (k.tasks i).user ≠ none)
    (hlive : (k.tasks i).removePending = false) (hobj : (k.tasks i).waitObj.syncObj = none) (o : SyncId) :
    Armed i T k.ticks (k.onTaskWait i o T) := by
  rw [onTaskWait_eq hne hobj]
  refine ⟨?_, ?_, ?_, ?_, ?_, ?_, ⟨⟨o, T, k.ticks, none⟩, ?_, rfl⟩, rfl⟩
  · simpa [KernelTask.scheduleSleep] using hbusy
  · simpa [KernelTask.scheduleSleep] using hlive
  · simp [KernelTask.scheduleSleep]
  · simp [KernelTask.scheduleSleep]
  · simp [KernelTask.scheduleSleep]
  · simp [KernelTask.scheduleSleep]
  · simp

namespace Armed

variable {T start : ℤ}

omit [SwitchStrategy (Fin n) σ] in
theorem asleep (h : Armed i waitInfinite start k) : Asleep i start k := by
  have hnow := h.now
  have hclock := h.clock
  refine ⟨h.busy, h.live, ?_, .inr ⟨h.left, h.fresh⟩⟩
  omega

end Armed

/-- INTERNAL: a step that passes by a wait before its end. -/
theorem WaitsUntil.passedBy {due : ℤ} (h : WaitsUntil i due k) (hk : Linked k) (hsync : cfg.isSyncMode = true)
    (hhrt : cfg.isHrtMode = false) (hlt : k.ticks < due) (hpasses : PassesBy cfg i k k') :
    (k'.ticks < due ∧ WaitsUntil i due k' ∨ TimedOut i due k') ∧ (k'.tasks i).user ≠ none := by
  rcases hpasses with hsame | ⟨e, he, rfl⟩
  · have hnext := h.frame hsame
    rw [hsame.ticks]
    exact ⟨.inl ⟨hlt, hnext⟩, hnext.busy⟩
  · simp only [validElapsed, Bool.and_eq_true, decide_eq_true_eq] at he
    have hpos : 0 < e := he.1.1
    have hout := not_rearms hhrt (({ k with ticks := k.ticks + e } : Kernel n σ).updateTasks cfg e).1 i
    have huser : ((k.onTick cfg e).1.tasks i).user ≠ none := by
      rw [(h.onTick_slot hk hsync hpos hout).user]
      simpa [SameSlot.advanced, Kernel.setTask, (h.tickWaitObj_slot hpos).1] using h.busy
    refine ⟨?_, huser⟩
    by_cases hend : due ≤ k.ticks + e
    · exact .inr (h.onTick_last hk hsync hend hpos hout)
    · left
      rw [onTick_ticks]
      exact ⟨not_le.mp hend, h.onTick_before hk hsync (not_le.mp hend) hpos hout⟩

/-- INTERNAL: a step that passes by an infinite wait. -/
theorem Asleep.passedBy {since : ℤ} (h : Asleep i since k) (hk : Linked k) (hhrt : cfg.isHrtMode = false)
    (hlt : k.ticks - since < waitInfinite) (hpasses : PassesBy cfg i k k') : Asleep i since k' := by
  rcases hpasses with hsame | ⟨e, -, rfl⟩
  · exact h.frame hsame
  · exact (h.onTick hk hlt e (by simp [switchedOut, hhrt])).1

omit [SwitchStrategy (Fin n) σ] in
/-- INTERNAL: a wait that goes on has no result. -/
theorem WaitsUntil.waitResult {due : ℤ} (h : WaitsUntil i due k) (hlt : k.ticks < due) : k.waitResult i = none := by
  obtain ⟨c, hc⟩ := Option.ne_none_iff_exists'.mp h.call
  simp [Kernel.waitResult, hc, h.isSleeping hlt]

section Rule

variable {step : S → E → S} {kern : S → Kernel n σ} {inv : S → Prop} {frame : S → F} {s : S} {T start : ℤ}

/-- **An infinite wait that nobody answers.** -/
theorem Armed.stays (hhosts : Hosts cfg i step kern inv frame) (hhrt : cfg.isHrtMode = false) (hinv : inv s)
    (h : Armed i waitInfinite start (kern s)) : StaysUntil cfg step kern i (start + waitInfinite) s := by
  intro es hes hlt
  have hend := hes.invariant (I := fun s' : S => inv s' ∧ Asleep i start (kern s'))
    (by
      rintro s' e ⟨hinv', hasleep⟩ ⟨hbefore, hpasses⟩
      exact ⟨hhosts.keeps e hinv', hasleep.passedBy (hhosts.linked hinv') hhrt (by omega) hpasses⟩)
    ⟨hinv, h.asleep⟩
  exact (hend.2.stillAsleep_iff.mpr (by omega)).1

end Rule

/-! ## Sleeps -/

/-- INTERNAL: a step that passes by a sleep before its end. -/
theorem SleepsUntil.passedBy {due : ℤ} (h : SleepsUntil i due k) (hk : Linked k) (hhrt : cfg.isHrtMode = false)
    (hlt : k.ticks < due) (hpasses : PassesBy cfg i k k') : SleepsUntil i due k' := by
  rcases hpasses with hsame | ⟨e, -, rfl⟩
  · exact h.frame hsame
  · exact h.onTick hk hlt (not_rearms hhrt _ i)

end Stk.Analysis
