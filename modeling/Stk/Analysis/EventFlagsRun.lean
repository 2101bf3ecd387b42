import Stk.Analysis.BlockedCalls
import Stk.Model.EventFlags

/-!
# Event flags: who waits, and what a wait returns

A task is linked to `m_cv` only while its predicate is unsatisfied: `Set` unlinks all tasks, and
nothing else sets a bit.  A `Wait` that returns flags has found them set, and takes them away unless
it was told not to; what has been taken is not there for the next one (`run_eventFlags`).  This is so as long
as a task leaves its wait only when it has been notified or has timed out: in a release build a task that is still
linked and waits again hides the waiters behind it from `Set` (`rewait_hidesWaiter`).
-/

set_option autoImplicit false

namespace Stk.Analysis

open Stk.Model Stk.Model.Kernel EventFlags

/-! ## The stretches -/

section Stretches

variable {m m' : EventFlags} {flags options : BitVec 32} {ticks : ℤ}

/-- INTERNAL: a predicate that holds with fewer flags holds. -/
theorem isSatisfied_of_and {x : BitVec 32} (hm : m'.flags = m.flags &&& x)
    (h : m'.isSatisfied flags options = true) : m.isSatisfied flags options = true := by
  unfold EventFlags.isSatisfied at h ⊢
  rw [hm] at h
  split at h
  · next hall =>
    rw [if_pos hall]
    rw [decide_eq_true_eq] at h ⊢
    calc m.flags &&& flags = m.flags &&& (m.flags &&& x &&& flags) := by rw [h]
      _ = m.flags &&& m.flags &&& x &&& flags := by simp only [BitVec.and_assoc]
      _ = m.flags &&& x &&& flags := by rw [BitVec.and_self]
      _ = flags := h
  · next hany =>
    rw [if_neg hany]
    rw [decide_eq_true_eq] at h ⊢
    intro hzero
    apply h
    calc m.flags &&& x &&& flags = (m.flags &&& flags) &&& x := by
          rw [BitVec.and_assoc, BitVec.and_comm x, ← BitVec.and_assoc]
      _ = 0 := by rw [hzero]; simp

/-- What a stretch does to the flags: it sets some and wakes all tasks, or it sets none. -/
structure FlagsStretchOk (m : EventFlags) (t : FlagsStretch) : Prop where
  notify : (t.notify = [.all cvFlags] ∧ ∃ r, t.next = .done r) ∨
    (t.notify = [] ∧ ∃ x, t.state.flags = m.flags &&& x)
  wait : ∀ f, t.next = .wait f → t.state = m ∧ m.isSatisfied f.flags f.options = false ∧ isValid f.flags = true

/-- INTERNAL: the flags are a part of themselves. -/
theorem flags_and (m : EventFlags) : ∃ x, m.flags = m.flags &&& x :=
  ⟨m.flags, BitVec.and_self.symm⟩

/-- INTERNAL: a stretch that returns at once and changes nothing. -/
theorem FlagsStretchOk.keep (m : EventFlags) (r : BitVec 32) : FlagsStretchOk m ⟨m, [], .done r⟩ := by
  refine ⟨.inr ⟨rfl, flags_and m⟩, ?_⟩
  intro f hf
  cases hf

/-- INTERNAL: the loop of `Wait` with an unsatisfied predicate changes nothing, and returns a timeout if
it returns. -/
theorem waitFrom_unsatisfied (hno : m.isSatisfied flags options = false) (timedWait : Bool) (deadline : ℤ) :
    ∃ next, m.waitFrom ticks flags options timedWait deadline = ⟨m, [], next⟩ ∧
      ∀ r, next = .done r → r = errorTimeout := by
  unfold waitFrom
  rw [if_neg (by simp [hno])]
  dsimp only
  generalize (if timedWait then if toInt32 ticks ≥ deadline then 0 else toInt32 (deadline - toInt32 ticks)
    else deadline) = remaining
  split
  · refine ⟨_, rfl, ?_⟩
    intro r hr
    cases hr
  · refine ⟨_, rfl, ?_⟩
    intro r hr
    exact (Mesa.Next.done.inj hr).symm

theorem waitFrom_ok (m : EventFlags) (hvalid : isValid flags = true) (timedWait : Bool) (deadline : ℤ) :
    FlagsStretchOk m (m.waitFrom ticks flags options timedWait deadline) := by
  by_cases hsat : m.isSatisfied flags options = true
  · have hunfold : m.waitFrom ticks flags options timedWait deadline = m.satisfied flags options := by
      unfold waitFrom
      rw [if_pos hsat]
    rw [hunfold]
    refine ⟨.inr ⟨rfl, ?_⟩, ?_⟩
    · unfold satisfied
      dsimp only
      split
      · exact ⟨_, rfl⟩
      · exact flags_and m
    · intro f hf
      exact absurd hf (satisfied_next m flags options f)
  · have hno : m.isSatisfied flags options = false := by simpa using hsat
    obtain ⟨next, heq, -⟩ := waitFrom_unsatisfied hno timedWait deadline
    refine ⟨.inr ?_, ?_⟩
    · rw [heq]
      exact ⟨rfl, flags_and m⟩
    · intro f hf
      obtain ⟨hflags, hoptions, -, -⟩ := waitFrom_wait hf
      rw [heq, hflags, hoptions]
      exact ⟨rfl, hno, hvalid⟩

theorem flagsCall_ok (m : EventFlags) (op : FlagsOp) : FlagsStretchOk m (m.call ticks op) := by
  cases op with
  | set flags =>
    simp only [EventFlags.call, EventFlags.set]
    split
    · refine ⟨.inl ⟨rfl, _, rfl⟩, ?_⟩
      intro f hf
      cases hf
    · exact .keep m _
  | clear flags =>
    simp only [EventFlags.call, EventFlags.clear]
    split
    · refine ⟨.inr ⟨rfl, _, rfl⟩, ?_⟩
      intro f hf
      cases hf
    · exact .keep m _
  | get => exact .keep m _
  | wait insideIsr flags options timeout started =>
    simp only [EventFlags.call, EventFlags.wait]
    split
    · exact .keep m _
    · next hvalid =>
      split
      · exact .keep m _
      · exact waitFrom_ok m (by simpa using hvalid) _ _

theorem flagsResume_ok (m : EventFlags) {f : FlagsFrame} (hvalid : isValid f.flags = true) (r : WaitResult) :
    FlagsStretchOk m (m.resume ticks f r) := by
  cases r with
  | signal => exact waitFrom_ok m hvalid _ _
  | timeout => exact .keep m _

/-- INTERNAL: the loop of `Wait` notifies no task. -/
theorem waitFrom_notify (m : EventFlags) (flags options : BitVec 32) (timedWait : Bool) (deadline : ℤ) :
    (m.waitFrom ticks flags options timedWait deadline).notify = [] := by
  by_cases hsat : m.isSatisfied flags options = true
  · unfold waitFrom
    rw [if_pos hsat]
    rfl
  · obtain ⟨next, heq, -⟩ := waitFrom_unsatisfied (by simpa using hsat) timedWait deadline
    rw [heq]

theorem flagsCall_notify {op : FlagsOp} (hop : ∀ flags, op ≠ .set flags) : (m.call ticks op).notify = [] := by
  cases op with
  | set flags => exact absurd rfl (hop flags)
  | clear flags =>
    simp only [EventFlags.call, EventFlags.clear]
    split
    · rfl
    · rfl
  | get => rfl
  | wait insideIsr flags options timeout started =>
    simp only [EventFlags.call, EventFlags.wait]
    split
    · rfl
    · split
      · rfl
      · exact waitFrom_notify m flags options _ _

theorem flagsResume_notify (m : EventFlags) (f : FlagsFrame) (r : WaitResult) : (m.resume ticks f r).notify = [] := by
  cases r with
  | signal => exact waitFrom_notify m _ _ _ _
  | timeout => rfl

/-- The flags a `Wait` may return, and what is left of the flags. -/
structure Matched32 (m : EventFlags) (mask options r : BitVec 32) (m' : EventFlags) : Prop where
  ne_zero : r ≠ 0
  within : r &&& mask = r
  present : r &&& m.flags = r
  all : waitsForAll options = true → r = mask
  rest : m'.flags = if options &&& optNoClear = 0 then m.flags &&& ~~~r else m.flags

/-- What a `Wait` for `mask` returns: an error that changes nothing, or flags. -/
def Answers (m : EventFlags) (mask options : BitVec 32) (t : FlagsStretch) : Prop :=
  ∀ r, t.next = .done r → (isError r = true ∧ t.state = m) ∨ (isError r = false ∧ Matched32 m mask options r t.state)

theorem satisfied_answers (hvalid : isValid flags = true) (hsat : m.isSatisfied flags options = true) :
    Answers m flags options (m.satisfied flags options) := by
  intro r hr
  obtain rfl := Mesa.Next.done.inj hr
  simp only [isValid, Bool.and_eq_true, decide_eq_true_eq] at hvalid
  unfold EventFlags.isSatisfied at hsat
  have hrest : (m.satisfied flags options).state.flags = if options &&& optNoClear = 0 then
      m.flags &&& ~~~(if waitsForAll options then flags else m.flags &&& flags) else m.flags := by
    unfold satisfied
    dsimp only
    split
    · rfl
    · rfl
  right
  by_cases hall : waitsForAll options = true
  · rw [if_pos hall] at hsat hrest ⊢
    rw [decide_eq_true_eq] at hsat
    refine ⟨by simp [isError, hvalid.2], hvalid.1, BitVec.and_self, ?_, fun _ => rfl, hrest⟩
    rw [BitVec.and_comm]
    exact hsat
  · rw [if_neg hall] at hsat hrest ⊢
    rw [decide_eq_true_eq] at hsat
    refine ⟨?_, hsat, ?_, ?_, fun h => absurd h hall, hrest⟩
    · have hmask : m.flags &&& flags &&& errorMask = 0 := by
        rw [BitVec.and_assoc, hvalid.2]
        simp
      simp [isError, hmask]
    · rw [BitVec.and_assoc, BitVec.and_self]
    · rw [BitVec.and_comm, ← BitVec.and_assoc, BitVec.and_self]

theorem waitFrom_answers (hvalid : isValid flags = true) (timedWait : Bool) (deadline : ℤ) :
    Answers m flags options (m.waitFrom ticks flags options timedWait deadline) := by
  by_cases hsat : m.isSatisfied flags options = true
  · unfold waitFrom
    rw [if_pos hsat]
    exact satisfied_answers hvalid hsat
  · obtain ⟨next, heq, hdone⟩ := waitFrom_unsatisfied (by simpa using hsat) timedWait deadline
    rw [heq]
    intro r hr
    rw [hdone r hr]
    exact .inl ⟨rfl, rfl⟩

theorem wait_answers (m : EventFlags) (insideIsr : Bool) (flags options : BitVec 32) (timeout started : ℤ) :
    Answers m flags options (m.wait ticks insideIsr flags options timeout started) := by
  unfold EventFlags.wait
  split
  · intro r hr
    obtain rfl := Mesa.Next.done.inj hr
    exact .inl ⟨rfl, rfl⟩
  · next hvalid =>
    split
    · intro r hr
      obtain rfl := Mesa.Next.done.inj hr
      exact .inl ⟨rfl, rfl⟩
    · exact waitFrom_answers (by simpa using hvalid) _ _

theorem resume_answers (m : EventFlags) {f : FlagsFrame} (hvalid : isValid f.flags = true) (r : WaitResult) :
    Answers m f.flags f.options (m.resume ticks f r) := by
  cases r with
  | signal => exact waitFrom_answers hvalid _ _
  | timeout =>
    intro r hr
    obtain rfl := Mesa.Next.done.inj hr
    exact .inl ⟨rfl, rfl⟩

end Stretches

/-! ## The system -/

section System

variable {n : ℕ} {σ : Type} [SwitchStrategy (Fin n) σ] {cfg : Config} {s : MonitorSystem n EventFlags FlagsFrame σ}

/-- What holds between two calls. -/
structure FlagsOk (s : MonitorSystem n EventFlags FlagsFrame σ) : Prop where
  linked : Linked s.kernel
  unsatisfied : ∀ i f, s.pending i = some f → (s.kernel.tasks i).waitObj.syncObj = some cvFlags →
    s.state.isSatisfied f.flags f.options = false
  valid : ∀ i f, s.pending i = some f → isValid f.flags = true

namespace FlagsOk

omit [SwitchStrategy (Fin n) σ] in
/-- INTERNAL: the tasks that wait, after the notifications of a stretch. -/
theorem notified (h : FlagsOk s) {t : FlagsStretch} (ht : FlagsStretchOk s.state t) :
    FlagsOk { s with kernel := t.notify.foldl Kernel.notify s.kernel, state := t.state } := by
  rcases ht.notify with ⟨hall, -⟩ | ⟨hnone, x, hx⟩
  · have hlinked : Linked (s.kernel.wakeAll cvFlags) :=
      Runs.foldl_keeps (fun k i _ hk => wakeWaitObj_linked hk i false) h.linked
    rw [hall]
    refine ⟨hlinked, ?_, h.valid⟩
    · intro i f hf ho
      exact absurd ho (wakeAll_unlinks h.linked cvFlags i)
  · rw [hnone]
    refine ⟨h.linked, ?_, h.valid⟩
    intro i f hf ho
    by_contra hsat
    have hbefore := isSatisfied_of_and hx (by simpa using hsat)
    rw [h.unsatisfied i f hf ho] at hbefore
    cases hbefore

/-- INTERNAL: a stretch, up to the spin or the return. -/
theorem follow (h : FlagsOk s) (i : Fin n) {t : FlagsStretch} (ht : FlagsStretchOk s.state t) :
    FlagsOk (s.follow i t).1 := by
  have hnotified := h.notified ht
  obtain ⟨hstate, -, hpending⟩ := follow_cases s i t
  cases hnext : t.next with
  | done r =>
    unfold MonitorSystem.follow at hpending ⊢
    rw [hnext] at hpending ⊢
    refine ⟨hnotified.linked, ?_, ?_⟩
    · intro j f hj ho
      rcases hpending j f hj with ⟨-, hf⟩ | ⟨-, hf⟩
      · exact hnotified.unsatisfied j f hf ho
      · cases hf
    · intro j f hj
      rcases hpending j f hj with ⟨-, hf⟩ | ⟨-, hf⟩
      · exact h.valid j f hf
      · cases hf
  | wait f =>
    obtain ⟨hsame, hunsat, hvalid⟩ := ht.wait f hnext
    unfold MonitorSystem.follow at hpending ⊢
    rw [hnext] at hpending ⊢
    refine ⟨onTaskWait_linked hnotified.linked i _ _, ?_, ?_⟩
    · intro j f' hj ho
      rcases hpending j f' hj with ⟨hji, hf⟩ | ⟨rfl, hf⟩
      · -- the other tasks keep their wait objects
        have hslot := SameSlot.onTaskWait_ne hji.symm (t.notify.foldl Kernel.notify s.kernel)
          (Monitor.waitsFor EventFlags f) (Monitor.timeout EventFlags f)
        dsimp only at ho
        rw [hslot.waitObj] at ho
        exact hnotified.unsatisfied j f' hf ho
      · cases hf
        dsimp only
        rw [hsame]
        exact hunsat
    · intro j f' hj
      rcases hpending j f' hj with ⟨-, hf⟩ | ⟨-, hf⟩
      · exact h.valid j f' hf
      · cases hf
        exact hvalid

/-- INTERNAL: a kernel call from outside links no task to `m_cv`. -/
theorem kernelStep (h : FlagsOk s) {e : KernelEvent n} (hleaves : e.leavesTo (Monitor.owns EventFlags) = true) :
    FlagsOk (s.kernelStep cfg e) := by
  have hspares : KernelEvent.Spares (fun _ => False) s.kernel e := by
    cases e with
    | removeTask u => exact fun _ hfalse => hfalse.elim
    | scheduleTaskRemoval u => exact fun _ hfalse => hfalse.elim
    | _ => trivial
  have hout : Outside (fun o => Monitor.owns EventFlags o = true) (fun _ => False) s.kernel (s.kernel.step cfg e) :=
    step_outside h.linked (fun _ hfalse => hfalse.elim) (fun _ hfalse => hfalse.elim)
      (fun _ _ hfalse => hfalse.elim) hleaves hspares (fun _ _ hfalse => hfalse)
  have hpending : ∀ i f, (s.kernelStep cfg e).pending i = some f → s.pending i = some f := by
    intro i f hf
    simp only [MonitorSystem.kernelStep] at hf
    split at hf
    · exact hf
    · cases hf
  refine ⟨step_linked cfg h.linked e, ?_, fun i f hf => h.valid i f (hpending i f hf)⟩
  intro i f hf ho
  exact h.unsatisfied i f (hpending i f hf) (hout.other i cvFlags rfl ho)

omit [SwitchStrategy (Fin n) σ] in
/-- INTERNAL: the stretch of an event. -/
theorem stretchOk (h : FlagsOk s) {e : MonitorEvent n FlagsOp} {t : FlagsStretch}
    (ht : s.stretch cfg e = some t) : FlagsStretchOk s.state t := by
  cases e with
  | call i op =>
    obtain ⟨-, rfl⟩ := stretch_call ht
    exact flagsCall_ok s.state op
  | resume i =>
    obtain ⟨f, r, hf, -, rfl⟩ := stretch_resume ht
    exact flagsResume_ok s.state (h.valid i f hf) r
  | isr op =>
    obtain ⟨rfl, -⟩ := stretch_isr ht
    exact flagsCall_ok s.state op
  | kernel e => cases ht

theorem step (h : FlagsOk s) (e : MonitorEvent n FlagsOp) : FlagsOk (s.step cfg e) := by
  unfold MonitorSystem.step
  cases ht : s.stretch cfg e with
  | none =>
    cases e with
    | kernel e =>
      rcases stepResult_kernel cfg s e with heq | ⟨heq, hleaves, -⟩
      · rw [heq]
        exact h
      · rw [heq]
        exact h.kernelStep hleaves
    | _ =>
      rw [stepResult_none (by simp) ht]
      exact h
  | some t =>
    have hok := h.stretchOk ht
    cases e with
    | call i op =>
      rw [stepResult_call ht]
      exact h.follow i hok
    | resume i =>
      rw [stepResult_resume ht]
      have hleft : FlagsOk { s with
          kernel := { s.kernel with call := Function.update s.kernel.call i none } } :=
        ⟨⟨h.linked.mem, h.linked.nodup, h.linked.syncNodup, h.linked.registered⟩, h.unsatisfied, h.valid⟩
      exact hleft.follow i hok
    | isr op =>
      obtain ⟨-, r, hr⟩ := stretch_isr ht
      rw [stepResult_isr ht hr]
      exact h.notified hok
    | kernel e => cases ht

theorem initial (state : EventFlags) :
    FlagsOk (MonitorSystem.initial state : MonitorSystem n EventFlags FlagsFrame σ) :=
  ⟨Linked.initial, (fun _ _ hf => nomatch hf), (fun _ _ hf => nomatch hf)⟩

end FlagsOk

end System

/-! ## Results -/

section Results

variable {n : ℕ} {σ : Type} [SwitchStrategy (Fin n) σ] {cfg : Config} {s : MonitorSystem n EventFlags FlagsFrame σ}

/-- The flags and options of the `Wait` that runs in an event. -/
def request (s : MonitorSystem n EventFlags FlagsFrame σ) : MonitorEvent n FlagsOp → Option (BitVec 32 × BitVec 32)
  | .call _ (.wait _ flags options _ _) | .isr (.wait _ flags options _ _) => some (flags, options)
  | .resume i => (s.pending i).map (fun f => (f.flags, f.options))
  | _ => none

omit [SwitchStrategy (Fin n) σ] in
/-- INTERNAL: the stretch of a `Wait`. -/
theorem request_answers (h : FlagsOk s) {e : MonitorEvent n FlagsOp} {mask options : BitVec 32} {t : FlagsStretch}
    (he : request s e = some (mask, options)) (ht : s.stretch cfg e = some t) :
    Answers s.state mask options t := by
  cases e with
  | call i op =>
    obtain ⟨-, rfl⟩ := stretch_call ht
    cases op with
    | wait insideIsr flags options timeout started =>
      cases he
      exact wait_answers s.state insideIsr _ _ timeout started
    | _ => cases he
  | resume i =>
    obtain ⟨f, r, hf, -, rfl⟩ := stretch_resume ht
    simp only [request, hf, Option.map_some, Option.some.injEq, Prod.mk.injEq] at he
    obtain ⟨rfl, rfl⟩ := he
    exact resume_answers s.state (h.valid i f hf) r
  | isr op =>
    obtain ⟨rfl, -⟩ := stretch_isr ht
    cases op with
    | wait insideIsr flags options timeout started =>
      cases he
      exact wait_answers s.state insideIsr _ _ timeout started
    | _ => cases he
  | kernel e => cases ht

/-- INTERNAL: what a `Wait` that returns has found and left. -/
theorem result_answers (h : FlagsOk s) {e : MonitorEvent n FlagsOp} {mask options r : BitVec 32}
    (he : request s e = some (mask, options)) (hr : (s.stepResult cfg e).2 = some r) :
    (isError r = true ∧ (s.step cfg e).state = s.state) ∨
      (isError r = false ∧ Matched32 s.state mask options r (s.step cfg e).state) := by
  cases ht : s.stretch cfg e with
  | none =>
    obtain ⟨-, hnone, -⟩ := stepResult_of_none ht
    rw [hnone] at hr
    cases hr
  | some t =>
    obtain ⟨hstate, hresult, -⟩ := stepResult_some ht
    rw [hstate]
    exact request_answers h he ht r ((hresult r).mp hr)

/-! ## What has been consumed -/

/-- Bit `b` of the flags, as a number. -/
def bitCount (b : ℕ) (s : MonitorSystem n EventFlags FlagsFrame σ) : ℕ := (s.state.flags.getLsbD b).toNat

/-- A `Wait` returns bit `b` and takes it away. -/
def consumed (cfg : Config) (b : ℕ) (s : MonitorSystem n EventFlags FlagsFrame σ) (e : MonitorEvent n FlagsOp) : ℕ :=
  match request s e, (s.stepResult cfg e).2 with
  | some (_, options), some r => (!isError r && decide (options &&& optNoClear = 0) && r.getLsbD b).toNat
  | _, _ => 0

def MonitorEvent.isSet : MonitorEvent n FlagsOp → Bool
  | .call _ (.set _) | .isr (.set _) => true
  | _ => false

/-- A `Set` sets bit `b`, which was clear. -/
def setting (cfg : Config) (b : ℕ) (s : MonitorSystem n EventFlags FlagsFrame σ) (e : MonitorEvent n FlagsOp) : ℕ :=
  (MonitorEvent.isSet e && !s.state.flags.getLsbD b && (s.step cfg e).state.flags.getLsbD b).toNat

omit [SwitchStrategy (Fin n) σ] in
/-- INTERNAL: only `Set` notifies. -/
theorem stretch_notify {e : MonitorEvent n FlagsOp} {t : FlagsStretch} (ht : s.stretch cfg e = some t)
    (hset : MonitorEvent.isSet e = false) : t.notify = [] := by
  cases e with
  | call i op =>
    obtain ⟨-, rfl⟩ := stretch_call ht
    apply flagsCall_notify
    rintro flags rfl
    cases hset
  | resume i =>
    obtain ⟨f, r, -, -, rfl⟩ := stretch_resume ht
    exact flagsResume_notify s.state f r
  | isr op =>
    obtain ⟨rfl, -⟩ := stretch_isr ht
    apply flagsCall_notify
    rintro flags rfl
    cases hset
  | kernel e => cases ht

/-- INTERNAL: bits are set by `Set` only. -/
theorem bitCount_le (h : FlagsOk s) (b : ℕ) (e : MonitorEvent n FlagsOp) :
    bitCount b (s.step cfg e) ≤ bitCount b s + setting cfg b s e := by
  have hmono : ∀ {x y z : BitVec 32}, y = x &&& z → (y.getLsbD b).toNat ≤ (x.getLsbD b).toNat := by
    intro x y z hy
    rw [hy, BitVec.getLsbD_and]
    exact Bool.toNat_le_toNat (Bool.and_le_left _ _)
  unfold bitCount setting
  by_cases hset : MonitorEvent.isSet e = true
  · rw [hset]
    cases s.state.flags.getLsbD b <;> cases (s.step cfg e).state.flags.getLsbD b <;> simp
  · apply le_trans _ (Nat.le_add_right _ _)
    cases ht : s.stretch cfg e with
    | none =>
      obtain ⟨hstate, -, -⟩ := stepResult_of_none ht
      rw [hstate]
    | some t =>
      obtain ⟨hstate, -, -⟩ := stepResult_some ht
      rw [hstate]
      rcases (h.stretchOk ht).notify with ⟨hall, -⟩ | ⟨-, x, hx⟩
      · rw [stretch_notify ht (by simpa using hset)] at hall
        cases hall
      · exact hmono hx

/-- **The bits are accounted for.** -/
theorem bitCount_step (h : FlagsOk s) (b : ℕ) (e : MonitorEvent n FlagsOp) :
    bitCount b (s.step cfg e) + consumed cfg b s e ≤ bitCount b s + setting cfg b s e := by
  have hbits : ∀ x y z : Bool, (y && x) = y →
      (x && (z && !y)).toNat + (!false && true && y).toNat ≤ x.toNat := by decide
  unfold consumed
  split
  · next mask options r he hr =>
    rcases result_answers h he hr with ⟨herror, -⟩ | ⟨hok, hmatched⟩
    · simpa [herror] using bitCount_le h b e
    · apply le_trans _ (Nat.le_add_right _ _)
      have hrest := congrArg (fun x : BitVec 32 => x.getLsbD b) hmatched.rest
      have hpresent := congrArg (fun x : BitVec 32 => x.getLsbD b) hmatched.present
      unfold bitCount
      by_cases hclear : options &&& optNoClear = 0
      · simp only [if_pos hclear, BitVec.getLsbD_and, BitVec.getLsbD_not] at hrest hpresent
        rw [hrest, hok, decide_eq_true hclear]
        exact hbits _ _ _ hpresent
      · simp only [if_neg hclear] at hrest
        rw [hrest, decide_eq_false hclear]
        simp
  · exact bitCount_le h b e

/-- **Event flags.**  After every orderly run, from any initial flags: a task linked to `m_cv` is inside a `Wait` for
what is not there; a `Wait` that returns no error has found what it returns, and takes it away unless it has
`NO_CLEAR`; and from here on no bit is consumed more often than it is set, a bit that is there now counted
once. -/
theorem run_eventFlags (cfg : Config) (state : EventFlags) {es : List (MonitorEvent n FlagsOp)}
    (hes : Runs.Along (MonitorSystem.step cfg) Orderly
      (MonitorSystem.initial state : MonitorSystem n EventFlags FlagsFrame σ) es) :
    let s : MonitorSystem n EventFlags FlagsFrame σ := MonitorSystem.run cfg state es
    (∀ i ∈ s.kernel.waitList cvFlags, ∃ f, s.pending i = some f ∧ s.state.isSatisfied f.flags f.options = false) ∧
    (∀ e mask options r, Orderly s e → request s e = some (mask, options) → (s.stepResult cfg e).2 = some r →
      (isError r = true ∧ (s.step cfg e).state = s.state) ∨
        (isError r = false ∧ Matched32 s.state mask options r (s.step cfg e).state)) ∧
    ∀ b fs, Runs.Along (MonitorSystem.step cfg) Orderly s fs →
      bitCount b (fs.foldl (MonitorSystem.step cfg) s) +
          Runs.total (MonitorSystem.step cfg) (consumed cfg b) s fs ≤
        bitCount b s + Runs.total (MonitorSystem.step cfg) (setting cfg b) s fs := by
  intro s
  have hok : FlagsOk s := Runs.foldl_keeps (fun s e _ h => h.step e) (.initial state)
  refine ⟨?_, ?_, ?_⟩
  · intro i hi
    have hmonitor : MonitorOk s :=
      hes.invariant (fun s e h he => (step_simulates cfg h he).1) (monitorOk_initial state)
    have hlinked := (hok.linked.mem i cvFlags).mpr hi
    obtain ⟨f, hf, -⟩ := hmonitor.idle i cvFlags rfl hlinked
    exact ⟨f, hf, hok.unsatisfied i f hf hlinked⟩
  · intro e mask options r _ he hr
    exact result_answers hok he hr
  · intro b fs _
    exact Runs.total_le (fun _ e h => h.step e) (fun _ e h => bitCount_step h b e) hok fs

/-- Task 0 waits for flag 1 and task 1 for flag 2. -/
def twoFlagWaits : List (MonitorEvent 2 FlagsOp) :=
  [.kernel (.addTask 0), .kernel (.addTask 1), .kernel .onStart, .call 0 (.wait false 1 0 waitInfinite 0),
    .kernel (.onTick 1), .call 1 (.wait false 2 0 waitInfinite 1)]

/-- Flag 1 is set once, and only task 0 consumes it. -/
theorem twoFlagWaits_consumed :
    let s : MonitorSystem 2 EventFlags FlagsFrame (RoundRobin (Fin 2)) :=
      MonitorSystem.run syncConfig ⟨0⟩ twoFlagWaits
    s.kernel.waitList cvFlags = [0, 1] ∧
      Runs.total (MonitorSystem.step syncConfig) (consumed syncConfig 0) s
        [.isr (.set 1), .kernel (.onTick 1), .resume 0, .resume 1] ≤ 1 := by
  intro s
  have hes : Runs.Along (MonitorSystem.step syncConfig) Orderly
      (MonitorSystem.initial ⟨0⟩ : MonitorSystem 2 EventFlags FlagsFrame (RoundRobin (Fin 2))) twoFlagWaits := by
    decide +kernel
  have hfs : Runs.Along (MonitorSystem.step syncConfig) Orderly s
      [.isr (.set 1), .kernel (.onTick 1), .resume 0, .resume 1] := by
    decide +kernel
  refine ⟨by decide +kernel, ?_⟩
  have haccount : bitCount 0 _ + Runs.total (MonitorSystem.step syncConfig) (consumed syncConfig 0) s _ ≤ _ :=
    (run_eventFlags syncConfig ⟨0⟩ hes).2.2 0 _ hfs
  have hset : bitCount 0 s + Runs.total (MonitorSystem.step syncConfig) (setting syncConfig 0) s
      [.isr (.set 1), .kernel (.onTick 1), .resume 0, .resume 1] = 1 := by
    decide +kernel
  exact (Nat.le_add_left _ _).trans (haccount.trans hset.le)

end Results

end Stk.Analysis
