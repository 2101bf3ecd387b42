import Stk.Analysis.MonitorSimulation
import Stk.Analysis.StrategyListInvariant
import Stk.Foundation.BoundedBuffer
import Stk.Model.MessageQueue

/-!
# Wakeups of the message queue

The methods of `MessageQueue` are stretches of a monitor, and a `QueueSystem` steps as the
`MonitorSystem` of them does (`toMonitor_step`).  Every `Put` and `Get` notifies one waiter.
`Peek` and `PeekFront` wait for the same condition variable as `Get` and take no message: a peeker
that is woken by the only notification for a message leaves the other readers blocked.
-/

set_option autoImplicit false

namespace Stk.Analysis

open Stk.Model

variable {n capacity msgSize : ℕ}

/-! ## The queue as a monitor -/

/-- The calls of a queue, with their timeouts. -/
inductive QueueRequest (msgSize : ℕ) where
  | call (op : QueueOp msgSize) (timeout : ℤ)
  | reset

/-- The notifications at the end of a call. -/
def QueueOp.notices : QueueOp msgSize → List (Mesa.Notify SyncId)
  | .put _ | .putFront _ => [.one cvNotEmpty]
  | .get => [.one cvNotFull]
  | .peek | .peekFront => []

theorem QueueOp.foldl_notices {σ : Type} (op : QueueOp msgSize) (k : Kernel n σ) :
    (QueueOp.notices op).foldl Kernel.notify k = op.notify k := by
  cases op <;> rfl

/-- A stretch of a call of a queue. -/
abbrev QueueStretch (capacity msgSize : ℕ) :=
  Mesa.Stretch SyncId (MessageQueue capacity msgSize) (QueueCall msgSize) (QueueReturn msgSize)

/-- A call from the head of its wait loop. -/
def queueFrom (q : MessageQueue capacity msgSize) (op : QueueOp msgSize) (timeout : ℤ) :
    QueueStretch capacity msgSize :=
  if op.isBlocked q then
    if timeout ≠ 0 then ⟨q, [], .wait ⟨op, timeout⟩⟩ else ⟨q, [], .done ⟨false, none⟩⟩
  else ⟨(op.perform q).2, QueueOp.notices op, .done ⟨true, (op.perform q).1⟩⟩

theorem queueFrom_wait {q : MessageQueue capacity msgSize} {op : QueueOp msgSize} {timeout : ℤ}
    {f : QueueCall msgSize} (h : (queueFrom q op timeout).next = .wait f) :
    op.isBlocked q = true ∧ f = ⟨op, timeout⟩ ∧ timeout ≠ 0 := by
  unfold queueFrom at h
  split at h
  · next hblocked =>
    split at h
    · next hne => exact ⟨hblocked, (Mesa.Next.wait.inj h).symm, hne⟩
    · cases h
  · cases h

def queueCall (q : MessageQueue capacity msgSize) : QueueRequest msgSize → QueueStretch capacity msgSize
  | .call op timeout => queueFrom q op timeout
  | .reset => ⟨q.reset, [.all cvNotFull], .done ⟨true, none⟩⟩

def queueResume (q : MessageQueue capacity msgSize) (f : QueueCall msgSize) :
    WaitResult → QueueStretch capacity msgSize
  | .signal => queueFrom q f.op f.timeout
  | .timeout => ⟨q, [], .done ⟨false, none⟩⟩

instance : Monitor (MessageQueue capacity msgSize) (QueueRequest msgSize) (QueueCall msgSize)
    (QueueReturn msgSize) where
  call _ := queueCall
  resume _ := queueResume
  waitsFor f := f.op.waitsFor
  timeout := QueueCall.timeout
  owns o := decide (o = cvNotEmpty) || decide (o = cvNotFull)
  owns_waitsFor f := by
    obtain ⟨op, timeout⟩ := f
    cases op <;> rfl
  call_wait {ticks q op f} h := by
    cases op with
    | call op timeout =>
      obtain ⟨-, rfl, hne⟩ := queueFrom_wait h
      exact hne
    | reset => cases h
  resume_wait {ticks q f r f'} h := by
    cases r with
    | signal =>
      obtain ⟨-, rfl, hne⟩ := queueFrom_wait h
      exact hne
    | timeout => cases h

/-! ## Both systems step alike -/

variable {σ : Type}

def toMonitor (s : QueueSystem n capacity msgSize σ) :
    MonitorSystem n (MessageQueue capacity msgSize) (QueueCall msgSize) σ :=
  ⟨s.kernel, s.queue, s.pending⟩

/-- An interrupt handler calls with `NO_WAIT`. -/
def toMonitorEvent : QueueEvent n msgSize → MonitorEvent n (QueueRequest msgSize)
  | .call i op timeout => .call i (.call op timeout)
  | .resume i => .resume i
  | .isr op => .isr (.call op 0)
  | .reset => .isr .reset
  | .kernel e => .kernel e

variable [SwitchStrategy (Fin n) σ] {cfg : Config} {s : QueueSystem n capacity msgSize σ}

omit [SwitchStrategy (Fin n) σ] in
theorem isOutside_eq (e : KernelEvent n) :
    e.isOutside = e.leavesTo (Monitor.owns (MessageQueue capacity msgSize)) := by
  cases e <;> simp [KernelEvent.isOutside, KernelEvent.leavesTo, Monitor.owns, Bool.not_or]

/-- INTERNAL: a call of a task that is in no other one. -/
theorem toMonitor_enter (hmode : cfg.isSyncMode = true) {i : Fin n} (hi : s.pending i = none)
    (op : QueueOp msgSize) (timeout : ℤ) :
    toMonitor (s.enter cfg i op timeout).1 =
      ((toMonitor s).follow i (queueFrom s.queue op timeout)).1 := by
  have hpending : Function.update s.pending i none = s.pending :=
    Function.update_eq_self_iff.mpr hi.symm
  unfold QueueSystem.enter QueueSystem.attempt queueFrom MonitorSystem.follow
  by_cases hblocked : op.isBlocked s.queue = true
  · simp only [hblocked, hmode, ↓reduceIte]
    by_cases htimeout : timeout = 0
    · simp only [htimeout, ne_eq, not_true_eq_false, ↓reduceIte, toMonitor, List.foldl_nil, hpending]
    · simp only [htimeout, ne_eq, not_false_eq_true, ↓reduceIte, toMonitor, List.foldl_nil]
      split
      · simp only [hpending]
        rfl
      · rfl
  · simp only [hblocked, ↓reduceIte, toMonitor, Bool.false_eq_true, QueueOp.foldl_notices, hpending]

/-- **Simulation.**  In an orderly event the two systems take the same step, or the event is none
for the queue. -/
theorem toMonitor_step (hmode : cfg.isSyncMode = true) (hok : MonitorOk (toMonitor s))
    {e : QueueEvent n msgSize} (he : Orderly (toMonitor s) (toMonitorEvent e)) :
    toMonitor (s.step cfg e) = toMonitor s ∨
      toMonitor (s.step cfg e) = (toMonitor s).step cfg (toMonitorEvent e) := by
  unfold QueueSystem.step MonitorSystem.step
  cases e with
  | call i op timeout =>
    simp only [QueueSystem.stepResult, toMonitorEvent]
    split
    · next hcall =>
      simp only [Bool.and_eq_true] at hcall
      have ht : (toMonitor s).stretch cfg (.call i (.call op timeout)) =
          some (queueFrom s.queue op timeout) := by
        simp only [MonitorSystem.stretch, toMonitor, hmode, hcall.1, Bool.and_self, ↓reduceIte]
        rfl
      rw [stepResult_call ht]
      refine Or.inr (toMonitor_enter hmode ?_ op timeout)
      by_contra hne
      obtain ⟨f, hf⟩ := Option.ne_none_iff_exists'.mp hne
      have hnone := hok.call i f hf
      have hcall' := hcall.1
      simp only [Kernel.canCall, Bool.and_eq_true, decide_eq_true_eq] at hcall'
      rw [show (toMonitor s).kernel.call i = none from hcall'.2] at hnone
      cases hnone
    · exact Or.inl rfl
  | resume i =>
    simp only [QueueSystem.stepResult, toMonitorEvent]
    split
    · next f r hf hr =>
      have ht : (toMonitor s).stretch cfg (.resume i) = some (queueResume s.queue f r) := by
        simp only [MonitorSystem.stretch, toMonitor, hf, hr]
        rfl
      rw [stepResult_resume ht]
      have hleave : ∀ t : QueueStretch capacity msgSize, MonitorSystem.follow { toMonitor s with
            kernel := { s.kernel with call := Function.update s.kernel.call i none } } i t =
          MonitorSystem.follow { toMonitor s with
            kernel := { s.kernel with call := Function.update s.kernel.call i none }
            pending := Function.update s.pending i none } i t := by
        intro t
        simp only [MonitorSystem.follow, toMonitor, Function.update_idem]
      refine Or.inr (Eq.trans ?_ (congrArg Prod.fst (hleave _)).symm)
      cases r with
      | timeout => simp [QueueSystem.resume, queueResume, MonitorSystem.follow, toMonitor]
      | signal =>
        refine toMonitor_enter (s := { s with
            kernel := { s.kernel with call := Function.update s.kernel.call i none }
            pending := Function.update s.pending i none }) hmode ?_ f.op f.timeout
        exact Function.update_self _ _ _
    · exact Or.inl rfl
  | isr op =>
    simp only [QueueSystem.stepResult, toMonitorEvent, QueueSystem.attempt]
    by_cases hblocked : op.isBlocked s.queue = true
    · simp only [hblocked, ↓reduceIte, true_or]
    · have hstretch : Monitor.call (toMonitor s).kernel.ticks (toMonitor s).state
          (QueueRequest.call op 0) = ⟨(op.perform s.queue).2, QueueOp.notices op,
            .done ⟨true, (op.perform s.queue).1⟩⟩ := if_neg hblocked
      have ht : (toMonitor s).stretch cfg (.isr (.call op 0)) =
          some ⟨(op.perform s.queue).2, QueueOp.notices op,
            .done ⟨true, (op.perform s.queue).1⟩⟩ := by
        simp only [MonitorSystem.stretch, hstretch, hmode, ↓reduceIte]
      rw [stepResult_isr ht rfl]
      simp only [hblocked, Bool.false_eq_true, ↓reduceIte, QueueOp.foldl_notices]
      exact Or.inr rfl
  | reset =>
    have ht : (toMonitor s).stretch cfg (.isr .reset) =
        some ⟨s.queue.reset, [.all cvNotFull], .done ⟨true, none⟩⟩ := by
      simp only [MonitorSystem.stretch, Monitor.call, queueCall, hmode, ↓reduceIte]
      rfl
    simp only [QueueSystem.stepResult, toMonitorEvent]
    rw [stepResult_isr ht rfl]
    exact Or.inr rfl
  | kernel e =>
    by_cases hreturn : ∃ i, e = .waitReturn i
    · obtain ⟨i, rfl⟩ := hreturn
      by_cases hi : s.pending i = none
      · have heq := hok.kernelStep_eq cfg (e := .waitReturn i) rfl he (fun j hj => by cases hj; exact hi)
        simp only [QueueSystem.stepResult, MonitorSystem.stepResult, toMonitorEvent, toMonitor, hi,
          Option.isNone_none, ↓reduceIte]
        exact Or.inr heq.symm
      · simp only [QueueSystem.stepResult, hi, ↓reduceIte, true_or]
    · have hstep : s.stepResult cfg (.kernel e) = if e.isOutside then
          ({ s with kernel := s.kernel.step cfg e }, none) else (s, none) := by
        cases e with
        | waitReturn i => exact absurd ⟨i, rfl⟩ hreturn
        | _ => rfl
      have hstep' : (toMonitor s).stepResult cfg (.kernel e) =
          if e.leavesTo (Monitor.owns (MessageQueue capacity msgSize)) then
            ((toMonitor s).kernelStep cfg e, none) else (toMonitor s, none) := by
        cases e with
        | waitReturn i => exact absurd ⟨i, rfl⟩ hreturn
        | _ => rfl
      rw [hstep, toMonitorEvent, hstep', ← isOutside_eq]
      split
      · next houtside =>
        refine Or.inr (hok.kernelStep_eq cfg (by rw [← isOutside_eq]; exact houtside) he
          (fun i hi => absurd ⟨i, hi⟩ hreturn)).symm
      · exact Or.inl rfl

/-! ## The queue as a bounded buffer -/

/-- Every reader waits for one message. -/
def queueBuffer (capacity msgSize : ℕ) :
    Mesa.Buffer SyncId (MessageQueue capacity msgSize) (QueueCall msgSize) where
  capacity := capacity
  count := MessageQueue.count
  cv f := f.op.waitsFor
  notEmpty := cvNotEmpty
  notFull := cvNotFull
  eager f := decide (f.op.waitsFor = cvNotEmpty)
  ne := cvNotEmpty_ne_cvNotFull
  eager_cv _ hf := of_decide_eq_true hf

def isPeek : QueueOp msgSize → Bool
  | .peek | .peekFront => true
  | _ => false

variable {q : MessageQueue capacity msgSize}

omit [SwitchStrategy (Fin n) σ] in
/-- INTERNAL: `Put` and `PutFront` add a message or find the queue full. -/
theorem put_fills (hle : q.count ≤ capacity) {op : QueueOp msgSize} (hop : op.waitsFor = cvNotFull)
    (timeout : ℤ) : ∃ k, (queueBuffer capacity msgSize).Fills q (queueFrom q op timeout) k ∧
      (k ≠ 0 ∨ q.count = capacity) := by
  have hblocked : op.isBlocked q = decide (q.count = capacity) := by
    cases op <;> first | rfl | cases hop
  have hwait : ∀ f, (queueFrom q op timeout).next = .wait f → f.op.waitsFor = cvNotFull ∧
      (queueFrom q op timeout).state.count = capacity := by
    intro f hf
    obtain ⟨hb, rfl, hne⟩ := queueFrom_wait hf
    rw [queueFrom, if_pos hb, if_pos hne]
    rw [hblocked] at hb
    exact ⟨hop, of_decide_eq_true hb⟩
  by_cases hfull : q.count = capacity
  · have hstate : (queueFrom q op timeout).state = q ∧ (queueFrom q op timeout).notify = [] := by
      rw [queueFrom, if_pos (by rw [hblocked]; exact decide_eq_true hfull)]
      split <;> exact ⟨rfl, rfl⟩
    refine ⟨0, ⟨?_, ?_, ?_, hwait⟩, Or.inr hfull⟩
    · rw [hstate.1, Nat.add_zero]
    · rw [hstate.1]
      exact hle
    · rw [hstate.2]
      exact .none
  · have hnot : ¬ op.isBlocked q = true := by
      rw [hblocked]
      simpa using hfull
    have hcount : (op.perform q).2.count = q.count + 1 := by
      cases op <;> first | rfl | cases hop
    have hnotices : QueueOp.notices op = [.one cvNotEmpty] := by
      cases op <;> first | rfl | cases hop
    have ht : queueFrom q op timeout = _ := if_neg hnot
    refine ⟨1, ⟨?_, ?_, ?_, hwait⟩, Or.inl one_ne_zero⟩
    · rw [ht]
      exact hcount
    · rw [ht]
      change (op.perform q).2.count ≤ capacity
      omega
    · rw [ht]
      change Mesa.Announces cvNotEmpty 1 (QueueOp.notices op)
      rw [hnotices]
      exact .one

omit [SwitchStrategy (Fin n) σ] in
/-- INTERNAL: `Get` takes a message, `Peek` and `PeekFront` take none, or they find none. -/
theorem get_takes (hcap : 0 < capacity) {op : QueueOp msgSize} (hop : op.waitsFor = cvNotEmpty)
    (timeout : ℤ) : ∃ k, (queueBuffer capacity msgSize).Takes q (queueFrom q op timeout) k ∧
      (isPeek op = true ∨ k ≠ 0 ∨ q.count = 0) := by
  have hblocked : op.isBlocked q = decide (q.count = 0) := by
    cases op <;> first | rfl | cases hop
  have hwait : ∀ f, (queueFrom q op timeout).next = .wait f → f.op.waitsFor = cvNotEmpty ∧
      (queueFrom q op timeout).state.count = 0 := by
    intro f hf
    obtain ⟨hb, rfl, hne⟩ := queueFrom_wait hf
    rw [queueFrom, if_pos hb, if_pos hne]
    rw [hblocked] at hb
    exact ⟨hop, of_decide_eq_true hb⟩
  have hwait' : ∀ f, (queueFrom q op timeout).next = .wait f → f.op.waitsFor = cvNotEmpty ∧
      (decide (f.op.waitsFor = cvNotEmpty) = true → (queueFrom q op timeout).state.count = 0) ∧
      (queueFrom q op timeout).state.count ≠ capacity := by
    intro f hf
    obtain ⟨hcv, hzero⟩ := hwait f hf
    exact ⟨hcv, fun _ => hzero, by omega⟩
  by_cases hempty : q.count = 0
  · have hstate : (queueFrom q op timeout).state = q ∧ (queueFrom q op timeout).notify = [] := by
      rw [queueFrom, if_pos (by rw [hblocked]; exact decide_eq_true hempty)]
      split <;> exact ⟨rfl, rfl⟩
    refine ⟨0, ⟨?_, ?_, hwait'⟩, Or.inr (Or.inr hempty)⟩
    · rw [hstate.1, Nat.add_zero]
    · rw [hstate.2]
      exact .none
  · have ht : queueFrom q op timeout = _ := if_neg (by rw [hblocked]; simpa using hempty)
    cases op with
    | put msg => cases hop
    | putFront msg => cases hop
    | get =>
      refine ⟨1, ⟨?_, ?_, hwait'⟩, Or.inr (Or.inl one_ne_zero)⟩
      · rw [ht]
        change q.count - 1 + 1 = q.count
        omega
      · rw [ht]
        exact .one
    | peek =>
      refine ⟨0, ⟨?_, ?_, hwait'⟩, Or.inl rfl⟩
      · rw [ht]
        rfl
      · rw [ht]
        exact .none
    | peekFront =>
      refine ⟨0, ⟨?_, ?_, hwait'⟩, Or.inl rfl⟩
      · rw [ht]
        rfl
      · rw [ht]
        exact .none

/-! ## Steps -/

/-- The condition on the peeks of a run: a woken peeker that finds a message leaves enough notified
readers for the messages, if another reader is blocked. -/
def PeeksOk (c : Mesa.Config (Fin n) (MessageQueue capacity msgSize) (QueueCall msgSize)) :
    Mesa.Event (Fin n) (QueueRequest msgSize) → Prop
  | .resume i =>
    match c.status i with
    | .notified f => isPeek f.op = true → c.state.count ≠ 0 →
        Mesa.blocked (queueBuffer capacity msgSize).reader c.status ≠ 0 →
        c.state.count < Mesa.notified (queueBuffer capacity msgSize).reader c.status
    | _ => True
  | _ => True

variable {c c' : Mesa.Config (Fin n) (MessageQueue capacity msgSize) (QueueCall msgSize)}
  {r : Option (QueueReturn msgSize)}

/-- INTERNAL: what is carried along a run. -/
abbrev QueueWakeupsOk
    (c : Mesa.Config (Fin n) (MessageQueue capacity msgSize) (QueueCall msgSize)) : Prop :=
  (queueBuffer capacity msgSize).BufferOk c.state c.status

omit [SwitchStrategy (Fin n) σ] in
/-- INTERNAL: a fresh call. -/
theorem queueCall_moves (hcap : 0 < capacity) (hle : q.count ≤ capacity)
    (op : QueueRequest msgSize) :
    (∃ k, (queueBuffer capacity msgSize).Fills q (queueCall q op) k) ∨
      ∃ k, (queueBuffer capacity msgSize).Takes q (queueCall q op) k := by
  cases op with
  | call op timeout =>
    by_cases hop : op.waitsFor = cvNotFull
    · obtain ⟨k, ht, -⟩ := put_fills hle hop timeout
      exact Or.inl ⟨k, ht⟩
    · have hop' : op.waitsFor = cvNotEmpty := by
        cases op <;> first | rfl | exact absurd rfl hop
      obtain ⟨k, ht, -⟩ := get_takes hcap hop' timeout
      exact Or.inr ⟨k, ht⟩
  | reset =>
    refine Or.inr ⟨q.count, ?_, .all (by simp [queueCall]) (by simp [queueCall, queueBuffer]),
      by simp [queueCall]⟩
    change 0 + q.count = q.count
    omega

omit [SwitchStrategy (Fin n) σ] in
/-- INTERNAL: a notified call goes on. -/
theorem queueResume_notified (hcap : 0 < capacity) (h : QueueWakeupsOk c) {i : Fin n}
    {f : QueueCall msgSize} (hi : c.status i = .notified f) (hpeeks : PeeksOk c (.resume i))
    (hfollows : Mesa.Follows (queueBuffer capacity msgSize).cv (some i)
      (queueFrom c.state f.op f.timeout) (Function.update c.status i .idle) r c') :
    QueueWakeupsOk c' := by
  by_cases hop : f.op.waitsFor = cvNotFull
  · obtain ⟨k, ht, hk⟩ := put_fills h.count_le hop f.timeout
    exact h.resume_writer hi hop ht hk hfollows
  · have hop' : f.op.waitsFor = cvNotEmpty := by
      obtain ⟨op, timeout⟩ := f
      cases op <;> first | rfl | exact absurd rfl hop
    obtain ⟨k, ht, hk⟩ := get_takes hcap hop' f.timeout
    by_cases hpeek : isPeek f.op = true ∧ c.state.count ≠ 0
    · -- the peeker leaves with the notification
      simp only [PeeksOk, hi] at hpeeks
      have hothers := hpeeks hpeek.1 hpeek.2
      refine (h.leave_reader hi hop' (fun hb _ => hothers hb) (fun hfull hb => ?_)).follow
        (Or.inr ⟨k, ht⟩) hfollows (fun j hj => ?_)
      · have := hothers hb
        have hfull' : c.state.count = capacity := hfull
        omega
      · obtain rfl := Option.some.inj hj
        exact Function.update_self _ _ _
    · refine h.resume_reader hcap hi hop' ht ?_ hfollows
      rcases hk with hk | hk
      · by_contra hne
        exact hpeek ⟨hk, fun hzero => hne (Or.inr hzero)⟩
      · exact hk

omit [SwitchStrategy (Fin n) σ] in
/-- INTERNAL: every step that meets the condition on peeks. -/
theorem QueueWakeupsOk.step (hcap : 0 < capacity) (h : QueueWakeupsOk c)
    {e : Mesa.Event (Fin n) (QueueRequest msgSize)} (hpeeks : PeeksOk c e)
    (hstep : Mesa.Step (program (MessageQueue capacity msgSize)) c e r c') : QueueWakeupsOk c' := by
  cases e with
  | call i op =>
    obtain ⟨hidle, t, ⟨ticks, rfl⟩, hfollows⟩ := hstep
    refine h.follow (queueCall_moves hcap h.count_le op) hfollows (fun j hj => ?_)
    obtain rfl := Option.some.inj hj
    exact hidle
  | isr op =>
    obtain ⟨t, ⟨ticks, rfl⟩, hfollows⟩ := hstep
    exact h.follow (queueCall_moves hcap h.count_le op) hfollows (fun j hj => by cases hj)
  | resume i =>
    obtain ⟨f, b, t, hi, ⟨ticks, rfl⟩, hfollows⟩ := hstep
    cases b with
    | true => exact queueResume_notified hcap h hi hpeeks hfollows
    | false =>
      refine (h.leave_expired hi).follow (Or.inr ⟨0, rfl, .none, fun f hf => ?_⟩) hfollows
        (fun j hj => ?_)
      · cases hf
      · obtain rfl := Option.some.inj hj
        exact Function.update_self _ _ _
  | quiet =>
    obtain ⟨-, hstate, hexpires⟩ := hstep
    unfold QueueWakeupsOk
    rw [hstate]
    exact h.expires hexpires

/-! ## Runs -/

/-- **No lost wakeup.**  In every run that meets the condition on peeks, whenever no notified task is
on its way, no task waits for a message of a queue that has one, and none for a place in a queue
that has one. -/
theorem run_queueWakeups (hmode : cfg.isSyncMode = true) (hcap : 0 < capacity) (buffer : ℕ → UInt8)
    {es : List (QueueEvent n msgSize)}
    (hes : Runs.Along (QueueSystem.step cfg)
      (fun s e => Orderly (toMonitor s) (toMonitorEvent e) ∧
        PeeksOk (abstract (toMonitor s)) (abstractEvent (toMonitorEvent e)))
      (QueueSystem.initial buffer : QueueSystem n capacity msgSize σ) es) :
    let s := (QueueSystem.run cfg buffer es : QueueSystem n capacity msgSize σ)
    Quiescent (toMonitor s) →
      (0 < s.queue.count → s.kernel.waitList cvNotEmpty = []) ∧
      (s.queue.count < capacity → s.kernel.waitList cvNotFull = []) := by
  intro s hquiet
  have hinv : MonitorOk (toMonitor s) ∧ QueueWakeupsOk (abstract (toMonitor s)) := by
    refine hes.invariant (I := fun s : QueueSystem n capacity msgSize σ =>
      MonitorOk (toMonitor s) ∧ QueueWakeupsOk (abstract (toMonitor s))) (fun s e h he => ?_)
      ⟨monitorOk_initial _, Mesa.Buffer.bufferOk_idle rfl⟩
    rcases toMonitor_step hmode h.1 he.1 with hsame | hstep
    · rw [hsame]
      exact h
    · obtain ⟨hok, hsim⟩ := step_simulates cfg h.1 he.1
      rw [hstep]
      refine ⟨hok, ?_⟩
      rcases hsim with hsim | hsim
      · exact h.2.step hcap he.2 hsim
      · exact h.2.step (e := .quiet) hcap trivial hsim
  obtain ⟨hok, hwake⟩ := hinv
  obtain ⟨hreaders, hwriters, -⟩ := hwake.quiescent hquiet.not_notified
  refine ⟨fun hpos => hok.waitList_eq_nil rfl (fun i f hi hf => ?_),
    fun hlt => hok.waitList_eq_nil rfl (hwriters hlt)⟩
  exact of_decide_eq_false (hreaders hpos i f hi) hf

/-- Task 0 waits for a message and gets the one that task 1 puts. -/
def putWakesGet : List (QueueEvent 2 1) :=
  [.kernel (.addTask 0), .kernel (.addTask 1), .kernel .onStart, .call 0 .get waitInfinite,
    .kernel (.onTick 1), .call 1 (.put (fun _ => 1)) waitInfinite,
    .call 1 (.put (fun _ => 2)) waitInfinite, .kernel (.onTick 1), .resume 0]

theorem putWakesGet_wakeups :
    let s := (QueueSystem.run syncConfig (fun _ => 0) putWakesGet :
      QueueSystem 2 2 1 (RoundRobin (Fin 2)))
    Quiescent (toMonitor s) ∧ s.queue.count = 1 ∧ s.kernel.waitList cvNotEmpty = [] := by
  intro s
  have hquiet : Quiescent (toMonitor s) := by decide +kernel
  have hOrderly : Runs.Along (QueueSystem.step syncConfig)
      (fun s e => Orderly (toMonitor s) (toMonitorEvent e))
      (QueueSystem.initial (fun _ => 0) : QueueSystem 2 2 1 (RoundRobin (Fin 2))) putWakesGet := by
    decide +kernel
  have hPeeks : Runs.Along (QueueSystem.step syncConfig)
      (fun s e => PeeksOk (abstract (toMonitor s)) (abstractEvent (toMonitorEvent e)))
      (QueueSystem.initial (fun _ => 0) : QueueSystem 2 2 1 (RoundRobin (Fin 2))) putWakesGet := by
    refine ⟨trivial, trivial, trivial, trivial, trivial, trivial, trivial, trivial, ?_, trivial⟩
    simp only [toMonitorEvent, abstractEvent, PeeksOk]
    split
    · intro _ _ hblocked
      exact absurd (by decide +kernel) hblocked
    · trivial
  exact ⟨hquiet, by decide +kernel,
    (run_queueWakeups rfl (by decide) _ (hOrderly.and hPeeks) hquiet).1 (by decide +kernel)⟩

/-- Task 0 peeks and waits, then task 1 gets and waits.  Task 2 puts one message: its notification
goes to task 0, which leaves the message in the queue. -/
def peekAbsorbs : List (QueueEvent 3 1) :=
  [.kernel (.addTask 0), .kernel (.addTask 1), .kernel (.addTask 2), .kernel .onStart,
    .call 0 .peek waitInfinite, .kernel (.onTick 1), .call 1 .get waitInfinite, .kernel (.onTick 1),
    .call 2 (.put (fun _ => 1)) waitInfinite, .kernel (.onTick 1), .resume 0]

theorem peekAbsorbs_loses_wakeup :
    Runs.Along (QueueSystem.step syncConfig) (fun s e => Orderly (toMonitor s) (toMonitorEvent e))
        (QueueSystem.initial (fun _ => 0) : QueueSystem 3 2 1 (RoundRobin (Fin 3))) peekAbsorbs ∧
      let s := (QueueSystem.run syncConfig (fun _ => 0) peekAbsorbs :
        QueueSystem 3 2 1 (RoundRobin (Fin 3)))
      Quiescent (toMonitor s) ∧ s.queue.count = 1 ∧ s.kernel.waitList cvNotEmpty = [1] := by
  decide +kernel

end Stk.Analysis
