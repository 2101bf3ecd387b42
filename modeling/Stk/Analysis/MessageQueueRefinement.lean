import Stk.Model.MessageQueue
import Stk.Analysis.StrategyListInvariant

/-!
# A message queue is a bounded deque

`DequeStep` is what a message queue is for: a sequence of at most `capacity` messages, with one
action for each call that returns.  The queue keeps that sequence in a ring of slots in a flat
byte buffer; `contents` reads it off.  In every run, whatever the kernel does in between and in
whatever order blocked calls go on, the actions of the run are a run of the deque.
-/

set_option autoImplicit false

namespace Stk.Analysis

open Stk.Model

variable {n capacity msgSize : ℕ}

/-! ## The deque -/

/-- A call that has returned. -/
inductive QueueAction (msgSize : ℕ) where
  | returned (op : QueueOp msgSize) (result : QueueReturn msgSize)
  | reset

/-- What a successful call copies out and leaves behind. -/
def dequeApply (capacity : ℕ) (l : List (Message msgSize)) :
    QueueOp msgSize → Option (Option (Message msgSize) × List (Message msgSize))
  | .put msg => if l.length < capacity then some (none, l ++ [msg]) else none
  | .putFront msg => if l.length < capacity then some (none, msg :: l) else none
  | .get => l.head?.map (fun msg => (some msg, l.tail))
  | .peek | .peekFront => l.head?.map (fun msg => (some msg, l))

/-- One action of a bounded deque.  A call may also return `false`; that changes nothing. -/
def DequeStep (capacity : ℕ) (l : List (Message msgSize)) :
    QueueAction msgSize → List (Message msgSize) → Prop
  | .reset, l' => l' = []
  | .returned op r, l' =>
    if r.success then dequeApply capacity l op = some (r.msg, l') else r.msg = none ∧ l' = l

/-- A sequence of actions of a bounded deque. -/
def DequeRun (capacity : ℕ) :
    List (Message msgSize) → List (QueueAction msgSize) → List (Message msgSize) → Prop
  | l, [], l' => l' = l
  | l, a :: as, l' => ∃ l₁, DequeStep capacity l a l₁ ∧ DequeRun capacity l₁ as l'

theorem DequeRun.append {l l₁ l₂ : List (Message msgSize)} {as bs : List (QueueAction msgSize)}
    (h : DequeRun capacity l as l₁) (h' : DequeRun capacity l₁ bs l₂) :
    DequeRun capacity l (as ++ bs) l₂ := by
  induction as generalizing l with
  | nil =>
    obtain rfl : l₁ = l := h
    exact h'
  | cons a as ih =>
    obtain ⟨l₀, hstep, hrest⟩ := h
    exact ⟨l₀, hstep, ih hrest⟩

theorem DequeRun.single {l l' : List (Message msgSize)} {a : QueueAction msgSize}
    (h : DequeStep capacity l a l') : DequeRun capacity l [a] l' :=
  ⟨l', h, rfl⟩

/-! ## The queue -/

/-- The messages in the queue: `m_count` slots from `m_tail` on. -/
def contents (q : MessageQueue capacity msgSize) : List (Message msgSize) :=
  RingBuffer.contents capacity q.readSlot q.tail q.count

/-- The indices of a queue agree. -/
structure QueueWf (q : MessageQueue capacity msgSize) : Prop where
  count_le : q.count ≤ capacity
  tail_lt : q.tail < capacity
  head_eq : q.head = (q.tail + q.count) % capacity

@[simp] theorem length_contents (q : MessageQueue capacity msgSize) :
    (contents q).length = q.count := by
  simp [contents]

namespace QueueWf

variable {q : MessageQueue capacity msgSize}

theorem put (h : QueueWf q) (hc : q.count ≠ capacity) (msg : Message msgSize) :
    QueueWf (q.put msg) ∧ contents (q.put msg) = contents q ++ [msg] := by
  have hlt : q.count < capacity := lt_of_le_of_ne h.count_le hc
  refine ⟨⟨hlt, h.tail_lt, ?_⟩, ?_⟩
  · change (q.head + 1) % capacity = (q.tail + (q.count + 1)) % capacity
    rw [h.head_eq, Nat.mod_add_mod, Nat.add_assoc]
  · have hself : (q.put msg).readSlot ((q.tail + q.count) % capacity) = msg := by
      rw [← h.head_eq]
      exact RingBuffer.cellAt_copyTo_self q.buffer q.head msg
    have hother : ∀ i, i ≠ (q.tail + q.count) % capacity →
        (q.put msg).readSlot i = q.readSlot i := by
      intro i hi
      rw [← h.head_eq] at hi
      exact RingBuffer.cellAt_copyTo_ne q.buffer hi msg
    exact RingBuffer.contents_append hlt hself hother

/-- INTERNAL: `Prev` undoes `Next`. -/
theorem next_prev (h : QueueWf q) :
    q.prev q.tail < capacity ∧ (q.prev q.tail + 1) % capacity = q.tail := by
  have ht := h.tail_lt
  unfold MessageQueue.prev
  split
  · next hzero =>
    refine ⟨by omega, ?_⟩
    rw [Nat.sub_add_cancel (by omega), Nat.mod_self, hzero]
  · refine ⟨by omega, ?_⟩
    rw [Nat.sub_add_cancel (by omega), Nat.mod_eq_of_lt ht]

theorem putFront (h : QueueWf q) (hc : q.count ≠ capacity) (msg : Message msgSize) :
    QueueWf (q.putFront msg) ∧ contents (q.putFront msg) = msg :: contents q := by
  have hlt : q.count < capacity := lt_of_le_of_ne h.count_le hc
  obtain ⟨hprev, hnext⟩ := h.next_prev
  refine ⟨⟨hlt, hprev, ?_⟩, ?_⟩
  · -- the head stays where it is: one slot more, from one slot earlier on
    change q.head = (q.prev q.tail + (q.count + 1)) % capacity
    calc q.head = (q.tail + q.count) % capacity := h.head_eq
      _ = ((q.prev q.tail + 1) % capacity + q.count) % capacity := by rw [hnext]
      _ = (q.prev q.tail + 1 + q.count) % capacity := Nat.mod_add_mod _ _ _
      _ = (q.prev q.tail + (q.count + 1)) % capacity := by rw [Nat.add_assoc, Nat.add_comm 1]
  · refine RingBuffer.contents_prepend hlt hprev hnext ?_ (fun i hi => ?_)
    · exact RingBuffer.cellAt_copyTo_self q.buffer (q.prev q.tail) msg
    · exact RingBuffer.cellAt_copyTo_ne q.buffer hi msg

/-- INTERNAL: a queue that is not empty has its first message in the slot at `m_tail`. -/
theorem contents_eq_cons (h : QueueWf q) (hc : q.count ≠ 0) :
    contents q = q.readSlot q.tail :: contents q.get.2 := by
  obtain ⟨c, hcount⟩ := Nat.exists_eq_succ_of_ne_zero hc
  unfold contents
  rw [hcount, Nat.succ_eq_add_one, RingBuffer.contents_cons q.readSlot h.tail_lt]
  simp only [MessageQueue.get, hcount, Nat.succ_eq_add_one, Nat.add_sub_cancel]
  rfl

theorem get (h : QueueWf q) (hc : q.count ≠ 0) :
    QueueWf q.get.2 ∧ contents q = q.get.1 :: contents q.get.2 := by
  refine ⟨⟨?_, ?_, ?_⟩, h.contents_eq_cons hc⟩
  · have := h.count_le
    change q.count - 1 ≤ capacity
    omega
  · exact Nat.mod_lt _ (lt_of_le_of_lt (Nat.zero_le _) h.tail_lt)
  · change q.head = ((q.tail + 1) % capacity + (q.count - 1)) % capacity
    rw [h.head_eq, Nat.mod_add_mod]
    congr 1
    omega

theorem reset (hcap : 0 < capacity) (q : MessageQueue capacity msgSize) :
    QueueWf q.reset ∧ contents q.reset = [] :=
  ⟨⟨Nat.zero_le _, hcap, by simp [MessageQueue.reset]⟩, rfl⟩

/-- INTERNAL: a call writes no byte behind the buffer. -/
theorem perform_outside (h : QueueWf q) (op : QueueOp msgSize) {a : ℕ} (ha : capacity * msgSize ≤ a) :
    (op.perform q).2.buffer a = q.buffer a := by
  have hhead : q.head < capacity := by
    rw [h.head_eq]
    exact Nat.mod_lt _ (lt_of_le_of_lt (Nat.zero_le _) h.tail_lt)
  cases op with
  | put msg => exact RingBuffer.copyTo_outside q.buffer hhead msg ha
  | putFront msg => exact RingBuffer.copyTo_outside q.buffer h.next_prev.1 msg ha
  | get | peek | peekFront => rfl

/-- INTERNAL: a call that does not have to wait does what it does to the deque. -/
theorem perform (h : QueueWf q) {op : QueueOp msgSize} (hop : op.isBlocked q = false) :
    QueueWf (op.perform q).2 ∧
      dequeApply capacity (contents q) op = some ((op.perform q).1, contents (op.perform q).2) := by
  cases op with
  | put msg =>
    have hc : q.count ≠ capacity := by simpa [QueueOp.isBlocked] using hop
    obtain ⟨hwf, heq⟩ := h.put hc msg
    refine ⟨hwf, ?_⟩
    simp only [dequeApply, QueueOp.perform, length_contents, lt_of_le_of_ne h.count_le hc, ↓reduceIte,
      heq]
  | putFront msg =>
    have hc : q.count ≠ capacity := by simpa [QueueOp.isBlocked] using hop
    obtain ⟨hwf, heq⟩ := h.putFront hc msg
    refine ⟨hwf, ?_⟩
    simp only [dequeApply, QueueOp.perform, length_contents, lt_of_le_of_ne h.count_le hc, ↓reduceIte,
      heq]
  | get =>
    have hc : q.count ≠ 0 := by simpa [QueueOp.isBlocked] using hop
    obtain ⟨hwf, heq⟩ := h.get hc
    refine ⟨hwf, ?_⟩
    simp only [dequeApply, QueueOp.perform, heq, List.head?_cons, Option.map_some, List.tail_cons]
  | peek | peekFront =>
    have hc : q.count ≠ 0 := by simpa [QueueOp.isBlocked] using hop
    obtain ⟨-, heq⟩ := h.get hc
    refine ⟨h, ?_⟩
    simp only [dequeApply, QueueOp.perform]
    rw [heq]
    rfl

end QueueWf

/-! ## Runs -/

variable {σ : Type} [SwitchStrategy (Fin n) σ] {s : QueueSystem n capacity msgSize σ}

/-- The actions of the deque that an event completes. -/
def actions (cfg : Config) (s : QueueSystem n capacity msgSize σ) (e : QueueEvent n msgSize) :
    List (QueueAction msgSize) :=
  match e with
  | .reset => [.reset]
  | .kernel _ => []
  | .call _ op _ | .isr op => (s.stepResult cfg e).2.toList.map (.returned op)
  | .resume i =>
    match s.pending i with
    | some c => (s.stepResult cfg e).2.toList.map (.returned c.op)
    | none => []

/-- The actions of a run, in the order in which the calls return. -/
def actionsAlong (cfg : Config) :
    QueueSystem n capacity msgSize σ → List (QueueEvent n msgSize) → List (QueueAction msgSize)
  | _, [] => []
  | s, e :: es => actions cfg s e ++ actionsAlong cfg (s.step cfg e) es

/-- INTERNAL: the queue of `s'` is reached from that of `s` by actions of the deque. -/
structure Refines (s s' : QueueSystem n capacity msgSize σ) (as : List (QueueAction msgSize)) :
    Prop where
  wf : QueueWf s'.queue
  run : DequeRun capacity (contents s.queue) as (contents s'.queue)
  outside : ∀ a, capacity * msgSize ≤ a → s'.queue.buffer a = s.queue.buffer a

namespace Refines

omit [SwitchStrategy (Fin n) σ] in
@[trans] theorem trans {s₁ s₂ : QueueSystem n capacity msgSize σ} {as bs : List (QueueAction msgSize)}
    (h : Refines s s₁ as) (h' : Refines s₁ s₂ bs) : Refines s s₂ (as ++ bs) :=
  ⟨h'.wf, h.run.append h'.run, fun a ha => (h'.outside a ha).trans (h.outside a ha)⟩

omit [SwitchStrategy (Fin n) σ] in
/-- INTERNAL: the queue is left alone and no call returns `true`. -/
theorem idle (h : QueueWf s.queue) {s' : QueueSystem n capacity msgSize σ}
    (hq : s'.queue = s.queue) : Refines s s' [] :=
  ⟨hq ▸ h, by rw [hq]; rfl, fun a _ => by rw [hq]⟩

omit [SwitchStrategy (Fin n) σ] in
/-- INTERNAL: a call returns `false`. -/
theorem refused (h : QueueWf s.queue) {s' : QueueSystem n capacity msgSize σ}
    (hq : s'.queue = s.queue) (op : QueueOp msgSize) :
    Refines s s' [.returned op ⟨false, none⟩] :=
  ⟨hq ▸ h, .single (by rw [hq]; exact ⟨rfl, rfl⟩), fun a _ => by rw [hq]⟩

omit [SwitchStrategy (Fin n) σ] in
theorem attempt (h : QueueWf s.queue) {op : QueueOp msgSize} {s' : QueueSystem n capacity msgSize σ}
    {r : QueueReturn msgSize} (hs : s.attempt op = some (s', r)) : Refines s s' [.returned op r] := by
  unfold QueueSystem.attempt at hs
  split at hs
  · cases hs
  · next hblocked =>
    obtain ⟨rfl, rfl⟩ := Prod.mk.injEq _ _ _ _ ▸ Option.some.inj hs
    have hready : op.isBlocked s.queue = false := by simpa using hblocked
    obtain ⟨hwf, happly⟩ := h.perform hready
    exact ⟨hwf, .single happly, fun a ha => h.perform_outside op ha⟩

theorem enter (cfg : Config) (h : QueueWf s.queue) (i : Fin n) (op : QueueOp msgSize) (timeout : ℤ) :
    Refines s (s.enter cfg i op timeout).1
      ((s.enter cfg i op timeout).2.toList.map (.returned op)) := by
  unfold QueueSystem.enter
  split
  · next s' r hs => exact attempt h hs
  · split
    · split
      · dsimp only
        split <;> exact idle h rfl
      · exact idle h rfl
    · exact refused h rfl op

theorem resume (cfg : Config) (h : QueueWf s.queue) (i : Fin n) (c : QueueCall msgSize) (r : WaitResult) :
    Refines s (s.resume cfg i c r).1 ((s.resume cfg i c r).2.toList.map (.returned c.op)) := by
  unfold QueueSystem.resume
  cases r with
  | timeout => exact refused h (by rfl) c.op
  | signal =>
    have hq : QueueWf ({ s with
        kernel := { s.kernel with call := Function.update s.kernel.call i none }
        pending := Function.update s.pending i none } : QueueSystem n capacity msgSize σ).queue := h
    obtain ⟨hwf, hrun, hout⟩ := enter cfg hq i c.op c.timeout
    exact ⟨hwf, hrun, hout⟩

/-- INTERNAL: one call into the system. -/
theorem step (cfg : Config) (hcap : 0 < capacity) (h : QueueWf s.queue) (e : QueueEvent n msgSize) :
    Refines s (s.step cfg e) (actions cfg s e) := by
  cases e with
  | call i op timeout =>
    simp only [actions, QueueSystem.step, QueueSystem.stepResult]
    split
    · exact enter cfg h i op timeout
    · exact idle h rfl
  | resume i =>
    simp only [actions, QueueSystem.step, QueueSystem.stepResult]
    cases hc : s.pending i with
    | none => exact idle h rfl
    | some c =>
      cases hr : s.kernel.waitResult i with
      | none => exact idle h rfl
      | some r => exact resume cfg h i c r
  | isr op =>
    simp only [actions, QueueSystem.step, QueueSystem.stepResult]
    split
    · next s' r hs => exact attempt h hs
    · exact refused h rfl op
  | reset =>
    obtain ⟨hwf, hnil⟩ := QueueWf.reset hcap s.queue
    exact ⟨hwf, .single hnil, fun _ _ => rfl⟩
  | kernel e =>
    simp only [actions, QueueSystem.step]
    cases e with
    | waitReturn i =>
      simp only [QueueSystem.stepResult]
      split <;> exact idle h rfl
    | _ =>
      simp only [QueueSystem.stepResult]
      split <;> exact idle h rfl

end Refines

/-- **Refinement.**  In every run of tasks and interrupt handlers the indices of the queue agree
and its messages are those of a bounded deque after the calls that returned, in the order in
which they returned; no byte behind the buffer is written. -/
theorem run_refines_deque (hcap : 0 < capacity) (cfg : Config) (buffer : ℕ → UInt8)
    (es : List (QueueEvent n msgSize)) :
    QueueWf (QueueSystem.run cfg buffer es : QueueSystem n capacity msgSize σ).queue ∧
      DequeRun capacity []
        (actionsAlong cfg (QueueSystem.initial buffer : QueueSystem n capacity msgSize σ) es)
        (contents (QueueSystem.run cfg buffer es : QueueSystem n capacity msgSize σ).queue) ∧
      ∀ a, capacity * msgSize ≤ a →
        (QueueSystem.run cfg buffer es : QueueSystem n capacity msgSize σ).queue.buffer a =
          buffer a := by
  suffices hgen : ∀ (es : List (QueueEvent n msgSize)) (s : QueueSystem n capacity msgSize σ),
      QueueWf s.queue →
        Refines s (es.foldl (QueueSystem.step cfg) s) (actionsAlong cfg s es) by
    obtain ⟨hwf, hrun, hout⟩ := hgen es (QueueSystem.initial buffer)
      ⟨Nat.zero_le _, hcap, by simp [QueueSystem.initial, MessageQueue.initial]⟩
    exact ⟨hwf, hrun, hout⟩
  intro es
  induction es with
  | nil => exact fun s h => Refines.idle h rfl
  | cons e es ih =>
    intro s h
    have hstep := Refines.step cfg hcap h e
    exact hstep.trans (ih (s.step cfg e) hstep.wf)

/-- Task 0 waits for a message; task 1 puts two, the second one in front. -/
def queuedMessages : List (QueueEvent 2 1) :=
  [.kernel (.addTask 0), .kernel (.addTask 1), .kernel .onStart, .call 0 .get 10, .kernel (.onTick 1),
    .call 1 (.put (fun _ => 1)) waitInfinite, .call 1 (.putFront (fun _ => 2)) waitInfinite,
    .kernel (.onTick 1), .resume 0]

theorem queuedMessages_refines :
    DequeRun 2 [] (actionsAlong syncConfig
        (QueueSystem.initial (fun _ => 0) : QueueSystem 2 2 1 (RoundRobin (Fin 2))) queuedMessages)
      (contents (QueueSystem.run syncConfig (fun _ => 0) queuedMessages :
        QueueSystem 2 2 1 (RoundRobin (Fin 2))).queue) ∧
    contents (QueueSystem.run syncConfig (fun _ => 0) queuedMessages :
        QueueSystem 2 2 1 (RoundRobin (Fin 2))).queue = [fun _ => 1] :=
  ⟨(run_refines_deque (by decide) syncConfig (fun _ => 0) queuedMessages).2.1, by decide +kernel⟩

end Stk.Analysis
