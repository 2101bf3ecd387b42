import Stk.Analysis.EventGroupBarrier
import Stk.Analysis.StrategyListInvariant

/-!
# Runs of `xEventGroupSync`

The invariant of the rendezvous over whole runs (`GroupOk.step`), and when the rendezvous is a barrier
(`run_eventGroupSync`): no task returns too early, but of two or more tasks one only returns.
-/

set_option autoImplicit false

namespace Stk.Analysis

open Stk.Model Stk.Model.Kernel EventFlags

variable {n : ℕ} {σ : Type} [SwitchStrategy (Fin n) σ] {cfg : Config} {S : Finset (Fin n)} {bits : Fin n → BitVec 32}
  {mask : BitVec 32} {g : EventGroup n σ}

/-- What the rest of the system promises, as in `Orderly`. -/
def GroupOrderly (g : EventGroup n σ) : EventGroupEvent n → Prop
  | .set i | .wait i _ =>
    (g.flags.kernel.tasks i).isWaiting = false ∧ (g.flags.kernel.tasks i).removePending = false
  | .resume i => (g.flags.kernel.tasks i).isWaiting = false
  | .kernel e => KernelEvent.Spares (fun i => g.flags.pending i ≠ none) g.flags.kernel e

instance : ∀ e : EventGroupEvent n, Decidable (GroupOrderly g e)
  | .set i | .wait i _ => inferInstanceAs (Decidable
      ((g.flags.kernel.tasks i).isWaiting = false ∧ (g.flags.kernel.tasks i).removePending = false))
  | .resume i => inferInstanceAs (Decidable ((g.flags.kernel.tasks i).isWaiting = false))
  | .kernel e => inferInstanceAs (Decidable
      (KernelEvent.Spares (fun i => g.flags.pending i ≠ none) g.flags.kernel e))

/-- All tasks have entered their `Wait`, and no woken task is left. -/
def Complete (S : Finset (Fin n)) (g : EventGroup n σ) : Prop :=
  (∀ i ∈ S, g.phase i ≠ .start ∧ g.phase i ≠ .set) ∧ Quiescent g.flags

instance : Decidable (Complete S g) :=
  inferInstanceAs (Decidable ((∀ i ∈ S, g.phase i ≠ .start ∧ g.phase i ≠ .set) ∧ Quiescent g.flags))

/-- The task in slot `i` has returned with all bits of the mask. -/
def GotThrough (mask : BitVec 32) (g : EventGroup n σ) (i : Fin n) : Prop :=
  ∃ r, g.phase i = .returned r ∧ r &&& mask = mask

/-- No task has returned before all tasks have set their bits, and none without all bits. -/
def NoneTooEarly (S : Finset (Fin n)) (mask : BitVec 32) (g : EventGroup n σ) : Prop :=
  ∀ i r, g.phase i = .returned r → r &&& mask = mask ∧ ∀ j ∈ S, g.phase j ≠ .start

/-! ## The invariant -/

/-- What is carried along a run. -/
structure GroupOk (S : Finset (Fin n)) (bits : Fin n → BitVec 32) (mask : BitVec 32) (g : EventGroup n σ) : Prop where
  monitor : MonitorOk g.flags
  untimed : UntimedWaits g.flags
  barrier : BarrierOk S bits mask (abstract g.flags) g.phase

omit [SwitchStrategy (Fin n) σ] in
theorem status_frame (s : MonitorSystem n EventFlags FlagsFrame σ) (i : Fin n) :
    (status s i).frame = s.pending i := by
  unfold status
  split
  · next h => rw [h]; rfl
  · next f h =>
    rw [h]
    split
    · rfl
    · split <;> rfl

namespace GroupOk

theorem initial : GroupOk S bits mask (EventGroup.initial : EventGroup n σ) where
  monitor := monitorOk_initial _
  untimed i f hi := nomatch hi
  barrier := by
    refine ⟨(fun i f hf => nomatch hf), (fun i hi => nomatch hi), (fun i hi => absurd rfl hi), .inl ⟨?_, ?_⟩, ?_⟩
    · intro i r hi
      exact nomatch hi
    · intro b
      have hzero : (0 : BitVec 32).getLsbD b = false := BitVec.getLsbD_zero
      constructor
      · intro hb
        have hfalse : (0 : BitVec 32).getLsbD b = true := hb
        rw [hzero] at hfalse
        exact nomatch hfalse
      · rintro ⟨i, -, hi, -⟩
        exact absurd rfl hi
    · intro _ _ i f hi
      exact nomatch hi

omit [SwitchStrategy (Fin n) σ] in
/-- INTERNAL: the flags are no error. -/
theorem no_error (h : GroupOk S bits mask g) (hr : Rendezvous S bits mask) {i : Fin n} (hi : i ∈ S) :
    isError (g.flags.state.flags ||| bits i) = false := by
  unfold isError
  rw [decide_eq_false_iff_not, not_not]
  apply and_eq_zero_iff.mpr
  intro b hb
  rw [BitVec.getLsbD_or, Bool.or_eq_true] at hb
  have hbit : ∃ j ∈ S, (bits j).getLsbD b = true := by
    rcases hb with hold | hnew
    · rcases h.barrier.flags with hg | ⟨-, hzero, -⟩
      · obtain ⟨j, hj, -, hjb⟩ := (hg.2 b).mp hold
        exact ⟨j, hj, hjb⟩
      · have hflags : g.flags.state.flags = 0 := hzero
        rw [hflags] at hold
        simp at hold
    · exact ⟨i, hi, hnew⟩
  obtain ⟨j, hj, hjb⟩ := hbit
  exact and_eq_zero_iff.mp (hr.valid j hj) b hjb

omit [SwitchStrategy (Fin n) σ] in
theorem syncCalls_some {i : Fin n} {c : SyncCall} (hc : syncCalls S bits mask i = some c) :
    i ∈ S ∧ c = ⟨bits i, mask, portMaxDelay⟩ := by
  unfold syncCalls at hc
  split at hc
  · next hi => exact ⟨hi, (Option.some.inj hc).symm⟩
  · cases hc

/-- INTERNAL: the `Set` of a task. -/
theorem set (h : GroupOk S bits mask g) (hr : Rendezvous S bits mask) {i : Fin n} (he : GroupOrderly g (.set i)) :
    GroupOk S bits mask (g.step cfg (syncCalls S bits mask) (.set i)) := by
  unfold EventGroup.step
  dsimp only
  split
  · next c hc hphase =>
    obtain ⟨hiS, rfl⟩ := syncCalls_some hc
    dsimp only
    rw [if_neg (hr.mask_ne hiS), if_pos (hr.nonempty i hiS)]
    have hset : Orderly g.flags (.call i (FlagsOp.set (bits i))) := he
    rcases call_follows cfg h.monitor hset with hsame | ⟨hok, -, hfollows⟩
    · rw [hsame]
      exact h
    · have hvalid : isValid (bits i) = true := by
        unfold isValid
        rw [decide_eq_true (hr.nonempty i hiS), decide_eq_true (hr.valid i hiS)]
        rfl
      obtain ⟨hresult, hbarrier⟩ := h.barrier.set hiS hphase hvalid (fun _ => rfl) hfollows
      have hstep : g.flags.stepResult cfg (.call i (.set (bits i))) =
          (g.flags.step cfg (.call i (.set (bits i))), some (g.flags.state.flags ||| bits i)) :=
        Prod.ext rfl hresult
      rw [hstep]
      dsimp only
      rw [h.no_error hr hiS]
      exact ⟨hok, h.untimed.step h.monitor cfg _, hbarrier⟩
  · exact h

/-- INTERNAL: a stretch of `Wait` that returns the mask or waits. -/
theorem afterWait (h : GroupOk S bits mask g) (hr : Rendezvous S bits mask) {i : Fin n} {e : MonitorEvent n FlagsOp}
    (hok : MonitorOk (g.flags.step cfg e))
    (hwait : ((g.flags.stepResult cfg e).2 = some mask ∧
        BarrierOk S bits mask (abstract (g.flags.step cfg e)) (Function.update g.phase i (.returned mask))) ∨
      ((g.flags.stepResult cfg e).2 = none ∧
        BarrierOk S bits mask (abstract (g.flags.step cfg e)) (Function.update g.phase i .waiting)))
    {next : SyncPhase} (hnext : ((g.flags.step cfg e).pending i).isSome = true → next = .waiting) :
    GroupOk S bits mask (EventGroup.afterWait i next (g.flags.stepResult cfg e) g.phase) := by
  have huntimed := h.untimed.step h.monitor cfg e
  rcases hwait with ⟨hresult, hbarrier⟩ | ⟨hresult, hbarrier⟩
  · have hstep : g.flags.stepResult cfg e = (g.flags.step cfg e, some mask) := Prod.ext rfl hresult
    have hmask : stkFlagsToFrtos mask 0 = mask := by
      unfold stkFlagsToFrtos
      rw [hr.mask_ok]
      rfl
    rw [hstep]
    unfold EventGroup.afterWait
    dsimp only
    rw [hmask]
    exact ⟨hok, huntimed, hbarrier⟩
  · have hstep : g.flags.stepResult cfg e = (g.flags.step cfg e, none) := Prod.ext rfl hresult
    have hpending : ((g.flags.step cfg e).pending i).isSome = true := by
      rw [← status_frame, Option.isSome_iff_ne_none]
      exact hbarrier.waiting i (Function.update_self ..)
    rw [hstep, hnext hpending]
    exact ⟨hok, huntimed, hbarrier⟩

/-- INTERNAL: the `Wait` of a task that has set its bits. -/
theorem wait (h : GroupOk S bits mask g) (hr : Rendezvous S bits mask) {i : Fin n} {started : ℤ}
    (he : GroupOrderly g (.wait i started)) :
    GroupOk S bits mask (g.step cfg (syncCalls S bits mask) (.wait i started)) := by
  unfold EventGroup.step
  dsimp only
  split
  · next c hc hphase =>
    obtain ⟨hiS, rfl⟩ := syncCalls_some hc
    have hidle : status g.flags i = .idle := h.barrier.status_idle (by simp [hphase])
    dsimp only
    generalize hop : FlagsOp.wait false mask optWaitAll (frtosTimeoutToStk portMaxDelay) started = op
    have hwait : Orderly g.flags (.call i op) := he
    rcases call_follows cfg h.monitor hwait with hsame | ⟨hok, -, hfollows⟩
    · have hpending : g.flags.pending i = none := by
        rw [← status_frame, hidle]
        rfl
      rw [hsame]
      dsimp only [EventGroup.afterWait]
      rw [hpending, ← hphase]
      simpa using h
    · have hstretch : Monitor.call g.flags.kernel.ticks g.flags.state op =
          g.flags.state.waitFrom g.flags.kernel.ticks mask optWaitAll false waitInfinite := by
        subst hop
        exact wait_mask g.flags.state (hr.mask_valid hiS) started
      rw [hstretch] at hfollows
      apply h.afterWait hr hok (h.barrier.wait hr hphase hfollows)
      intro hpending
      exact if_pos hpending
  · exact h

/-- INTERNAL: a woken task looks at the flags again. -/
theorem resume (h : GroupOk S bits mask g) (hr : Rendezvous S bits mask) {i : Fin n}
    (he : GroupOrderly g (.resume i)) :
    GroupOk S bits mask (g.step cfg (syncCalls S bits mask) (.resume i)) := by
  unfold EventGroup.step
  dsimp only
  split
  · next hphase =>
    have hiS : i ∈ S := h.barrier.member i (by simp [hphase])
    rcases resume_follows cfg h.monitor he with hsame | ⟨hok, f, b, hstatus, hfollows⟩
    · rw [hsame]
      dsimp only [EventGroup.afterWait]
      rw [← hphase]
      simpa using h
    · have hframe : f = syncFrame mask := by
        refine (h.barrier.frame i f ?_).1
        change (status g.flags i).frame = some f
        rw [hstatus]
        cases b <;> rfl
      have hpending : ∀ f', g.flags.pending i = some f' → Monitor.timeout EventFlags f' = waitInfinite := by
        intro f' hf'
        rw [← status_frame] at hf'
        rw [(h.barrier.frame i f' hf').1]
        rfl
      have hb : b = true := by
        cases b with
        | true => rfl
        | false => exact absurd hstatus (h.untimed.not_expired hpending)
      subst hframe
      subst hb
      have hleft := h.barrier.leave hphase
      have hwait := hleft.wait hr (Function.update_self ..) hfollows
      rw [Function.update_idem, Function.update_idem] at hwait
      exact h.afterWait hr hok hwait (fun _ => rfl)
  · exact h

theorem step (h : GroupOk S bits mask g) (hr : Rendezvous S bits mask) {e : EventGroupEvent n}
    (he : GroupOrderly g e) : GroupOk S bits mask (g.step cfg (syncCalls S bits mask) e) := by
  cases e with
  | set i => exact h.set hr he
  | wait i started => exact h.wait hr he
  | resume i => exact h.resume hr he
  | kernel e =>
    obtain ⟨hok, hsim⟩ := step_simulates cfg h.monitor (e := (.kernel e : MonitorEvent n FlagsOp)) he
    have hquiet : Mesa.Step (program EventFlags) (abstract g.flags) (.quiet : Mesa.Event (Fin n) FlagsOp)
        (g.flags.stepResult cfg (.kernel e)).2 (abstract (g.flags.step cfg (.kernel e))) := by
      rcases hsim with hsim | hsim
      · exact hsim
      · exact hsim
    exact ⟨hok, h.untimed.step h.monitor cfg _, h.barrier.quiet hquiet.2.1 hquiet.2.2⟩

/-! ## Results -/

omit [SwitchStrategy (Fin n) σ] in
theorem noneTooEarly (h : GroupOk S bits mask g) : NoneTooEarly S mask g := by
  intro i r hi
  rcases h.barrier.flags with hg | ⟨hall, -, j, -, hj, hone⟩
  · exact absurd hi (hg.1 i r)
  · refine ⟨?_, hall⟩
    obtain rfl := hone i r hi
    rw [hj] at hi
    obtain rfl := SyncPhase.returned.inj hi
    exact BitVec.and_self

omit [SwitchStrategy (Fin n) σ] in
/-- Of the tasks of a rendezvous that is complete, exactly one has returned. -/
theorem one_returns (h : GroupOk S bits mask g) (hdone : Complete S g) {i : Fin n} (hi : i ∈ S) :
    ∃ j ∈ S, g.phase j = .returned mask ∧ ∀ k r, g.phase k = .returned r → k = j := by
  rcases h.barrier.flags with hg | ⟨-, -, hone⟩
  · -- the tasks have been woken and have yet to look
    exfalso
    have hawake := h.barrier.awake hg fun j hj => (hdone.1 j hj).1
    have hwaiting : g.phase i = .waiting := by
      have hphase := hdone.1 i hi
      cases hp : g.phase i with
      | waiting => rfl
      | start => exact absurd hp hphase.1
      | set => exact absurd hp hphase.2
      | returned r => exact absurd hp (hg.1 i r)
    have hframe := h.barrier.waiting i hwaiting
    have hexpired : ∀ f, status g.flags i ≠ .expired f := by
      intro f
      apply h.untimed.not_expired
      intro f' hf'
      rw [← status_frame] at hf'
      rw [(h.barrier.frame i f' hf').1]
      rfl
    cases hs : status g.flags i with
    | idle =>
      change (status g.flags i).frame ≠ none at hframe
      rw [hs] at hframe
      exact hframe rfl
    | blocked f => exact hawake i f hs
    | notified f => exact hdone.2.not_notified i f hs
    | expired f => exact hexpired f hs
  · exact hone

end GroupOk

/-- **`xEventGroupSync`.**  In every orderly run in which the tasks of `S` call it with disjoint bits, the
common mask and no timeout: it is a barrier if and only if the run is not complete or there is one task at
most. -/
theorem run_eventGroupSync (hr : Rendezvous S bits mask) {es : List (EventGroupEvent n)}
    (hes : Runs.Along (EventGroup.step cfg (syncCalls S bits mask)) GroupOrderly
      (EventGroup.initial : EventGroup n σ) es) :
    let g : EventGroup n σ := es.foldl (EventGroup.step cfg (syncCalls S bits mask)) EventGroup.initial
    NoneTooEarly S mask g ∧ (Complete S g → ∀ i ∈ S, GotThrough mask g i) ↔ (Complete S g → S.card ≤ 1) := by
  intro g
  have hok : GroupOk S bits mask g := hes.invariant (fun g e h he => h.step hr he) .initial
  constructor
  · rintro ⟨-, hall⟩ hdone
    apply Finset.card_le_one.mpr
    intro i hi j hj
    obtain ⟨k, -, -, hone⟩ := hok.one_returns hdone hi
    obtain ⟨r, hir, -⟩ := hall hdone i hi
    obtain ⟨r', hjr, -⟩ := hall hdone j hj
    rw [hone i r hir, hone j r' hjr]
  · intro hcard
    refine ⟨hok.noneTooEarly, ?_⟩
    intro hdone i hi
    obtain ⟨j, hj, hphase, -⟩ := hok.one_returns hdone hi
    obtain rfl := Finset.card_le_one.mp (hcard hdone) i hi j hj
    exact ⟨mask, hphase, BitVec.and_self⟩

/-! ## Two runs -/

def twoBits (i : Fin 2) : BitVec 32 := if i = 0 then 1 else 2

theorem rendezvous_one : Rendezvous ({0} : Finset (Fin 2)) twoBits 1 where
  nonempty := by decide
  valid := by decide
  disjoint := by decide
  union b := by simp [twoBits]

theorem rendezvous_two : Rendezvous (Finset.univ : Finset (Fin 2)) twoBits 3 where
  nonempty := by decide
  valid := by decide
  disjoint := by decide
  union b := by
    have hmask : (3 : BitVec 32) = 1 ||| 2 := by decide
    rw [hmask, BitVec.getLsbD_or, Bool.or_eq_true]
    simp [twoBits, Fin.exists_fin_two]

/-- One task, which gets through. -/
def syncAlone : List (EventGroupEvent 2) :=
  [.kernel (.addTask 0), .kernel .onStart, .set 0, .wait 0 0]

theorem syncAlone_returns :
    let calls := syncCalls ({0} : Finset (Fin 2)) twoBits 1
    let g : EventGroup 2 (RoundRobin (Fin 2)) := syncAlone.foldl (EventGroup.step syncConfig calls) EventGroup.initial
    Complete {0} g ∧ GotThrough 1 g 0 := by
  intro calls g
  have hdone : Complete {0} g := by decide +kernel
  have hes : Runs.Along (EventGroup.step syncConfig calls) GroupOrderly
      (EventGroup.initial : EventGroup 2 (RoundRobin (Fin 2))) syncAlone := by decide +kernel
  have hcard : Complete {0} g → ({0} : Finset (Fin 2)).card ≤ 1 := by
    intro _
    decide
  exact ⟨hdone, ((run_eventGroupSync rendezvous_one hes).mpr hcard).2 hdone 0 (by decide)⟩

/-- Task 0 waits for task 1, which finds all bits and clears them; then task 0 is woken and waits again. -/
def syncTwo : List (EventGroupEvent 2) :=
  [.kernel (.addTask 0), .kernel (.addTask 1), .kernel .onStart, .set 0, .wait 0 0, .kernel (.onTick 1), .set 1,
    .wait 1 1, .kernel (.onTick 1), .resume 0, .kernel (.onTick 1)]

/-- The second task never returns. -/
theorem syncTwo_blocks :
    Rendezvous (Finset.univ : Finset (Fin 2)) twoBits 3 ∧
    let calls := syncCalls (Finset.univ : Finset (Fin 2)) twoBits 3
    let g : EventGroup 2 (RoundRobin (Fin 2)) := syncTwo.foldl (EventGroup.step syncConfig calls) EventGroup.initial
    Runs.Along (EventGroup.step syncConfig calls) GroupOrderly
      (EventGroup.initial : EventGroup 2 (RoundRobin (Fin 2))) syncTwo ∧
    Complete Finset.univ g ∧ g.phase 1 = .returned 3 ∧ ¬ GotThrough 3 g 0 ∧
    g.flags.kernel.waitList cvFlags = [0] := by
  refine ⟨rendezvous_two, by decide +kernel, by decide +kernel, by decide +kernel, ?_, by decide +kernel⟩
  rintro ⟨r, hphase, -⟩
  have hwaiting : (syncTwo.foldl (EventGroup.step syncConfig (syncCalls (Finset.univ : Finset (Fin 2)) twoBits 3))
      (EventGroup.initial : EventGroup 2 (RoundRobin (Fin 2)))).phase 0 = .waiting := by decide +kernel
  rw [hwaiting] at hphase
  exact nomatch hphase

end Stk.Analysis
