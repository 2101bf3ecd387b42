import Mathlib.Tactic.SplitIfs
import Stk.Analysis.NotifySemaphore
import Stk.Analysis.StrategyListInvariant
import Stk.Foundation.Dialogue

/-!
# Task notifications against the notification of FreeRTOS

A notification that has been sent and not consumed is a `token`: on its way to the semaphore, in store, handed to
the owner, or acquired by it.  While there is one token at most, a Give is consumed by a Take and any other
notification by a Wait, and none comes between the end of a wait and the return of its call, the slot answers as
FreeRTOS does (`run_notify`).
-/

set_option autoImplicit false

namespace Stk.Analysis

open Stk.Model Stk.Model.Kernel

variable {n : ℕ} {σ : Type} [SwitchStrategy (Fin n) σ] {cfg : Config} {owner : Fin n} {s : NotifySystem n σ}
  {a : Notification}

/-- The token of a call that has acquired it. -/
def heldToken : OwnerCall → ℕ
  | .acquired _ => 1
  | _ => 0

/-- The notifications that have been sent and not consumed. -/
def tokens (s : NotifySystem n σ) : ℕ :=
  s.sem.state.count + (granted s.sem).card + heldToken s.call + s.notifying.length

/-- What the rest of the system promises, as in `SyncOrderly`. -/
def NotifyOrderly (owner : Fin n) (s : NotifySystem n σ) : NotifyEvent n → Prop
  | .give c | .signal c => SyncOrderly s.sem c.signal
  | .take _ _ | .wait | .stateClear => SyncOrderly s.sem (.call owner .signal : MonitorEvent n SemaphoreOp)
  | .resume => SyncOrderly s.sem (.resume owner : MonitorEvent n SemaphoreOp)
  | .kernel e => SyncOrderly s.sem (.kernel e : MonitorEvent n SemaphoreOp)
  | _ => True

/-- A Give is read by a Take, and another notification by a Wait. -/
def ReadsOwn (s : NotifySystem n σ) : OwnerCall → Prop
  | .acquired (.take clear) => s.gave = true ∧ (clear = true ∨ s.slot.value = 0)
  | .acquired (.wait _) => s.gave = false
  | .idle | .entered _ _ | .waiting _ => True

/-- A notification is sent when none is left, unless it is refused; a Give is consumed by a Take, and another
notification by a Wait or a StateClear; a Take finds the value zero or a Give; the owner does not look at the
semaphore between the two sections of a notifier; and when it runs on after its wait has timed out, no notification
has come. -/
def Disciplined (owner : Fin n) (s : NotifySystem n σ) : NotifyEvent n → Prop
  | .give _ => tokens s = 0
  | .notify _ _ action => tokens s = 0 ∨ (action = .setValueWithoutOverwrite ∧ s.slot.pending = true)
  | .take _ _ => s.notifying = [] ∧ if tokens s = 0 then s.slot.value = 0 else s.gave = true ∧ s.slot.value + 1 ≠ 0
  | .enterWait _ _ _ | .valueClear _ => tokens s = 0 ∨ s.gave = false
  | .wait => s.notifying = []
  | .resume => (s.sem.waits.kernel.tasks owner).waitObj.timeout = true → tokens s = 0
  | .read => ReadsOwn s s.call
  | .stateClear => s.notifying = [] ∧ (tokens s = 0 ∨ s.gave = false)
  | _ => True

instance {owner : Fin n} : ∀ e : NotifyEvent n, Decidable (NotifyOrderly owner s e)
  | .give c | .signal c => inferInstanceAs (Decidable (SyncOrderly s.sem c.signal))
  | .take _ _ | .wait | .stateClear =>
    inferInstanceAs (Decidable (SyncOrderly s.sem (.call owner .signal : MonitorEvent n SemaphoreOp)))
  | .resume => inferInstanceAs (Decidable (SyncOrderly s.sem (.resume owner : MonitorEvent n SemaphoreOp)))
  | .kernel e => inferInstanceAs (Decidable (SyncOrderly s.sem (.kernel e : MonitorEvent n SemaphoreOp)))
  | .notify _ _ _ | .enterWait _ _ _ | .read | .valueClear _ => .isTrue trivial

instance : ∀ call : OwnerCall, Decidable (ReadsOwn s call)
  | .acquired (.take clear) => inferInstanceAs (Decidable (s.gave = true ∧ (clear = true ∨ s.slot.value = 0)))
  | .acquired (.wait _) => inferInstanceAs (Decidable (s.gave = false))
  | .idle | .entered _ _ | .waiting _ => .isTrue trivial

instance {owner : Fin n} : ∀ e : NotifyEvent n, Decidable (Disciplined owner s e)
  | .give _ => inferInstanceAs (Decidable (tokens s = 0))
  | .notify _ _ action =>
    inferInstanceAs (Decidable (tokens s = 0 ∨ (action = .setValueWithoutOverwrite ∧ s.slot.pending = true)))
  | .take _ _ => inferInstanceAs (Decidable (s.notifying = [] ∧
      if tokens s = 0 then s.slot.value = 0 else s.gave = true ∧ s.slot.value + 1 ≠ 0))
  | .enterWait _ _ _ | .valueClear _ => inferInstanceAs (Decidable (tokens s = 0 ∨ s.gave = false))
  | .wait => inferInstanceAs (Decidable (s.notifying = []))
  | .resume =>
    inferInstanceAs (Decidable ((s.sem.waits.kernel.tasks owner).waitObj.timeout = true → tokens s = 0))
  | .stateClear => inferInstanceAs (Decidable (s.notifying = [] ∧ (tokens s = 0 ∨ s.gave = false)))
  | .read => inferInstanceAs (Decidable (ReadsOwn s s.call))
  | .signal _ | .kernel _ => .isTrue trivial

/-- The operation of FreeRTOS in an event; one that returns from `sem.Wait` answers if it has waited in vain. -/
def operation (s : NotifySystem n σ) : NotifyEvent n → Option NotificationOp
  | .give _ => some (.notify 0 .increment)
  | .notify _ ulValue action => some (.notify ulValue action)
  | .take _ _ => some (.begins true)
  | .enterWait bitsToClearOnEntry _ _ => some (.clearOnEntry bitsToClearOnEntry)
  | .wait => some (.begins false)
  | .resume =>
    match s.call with
    | .waiting reader => some (.read reader)
    | _ => none
  | .read =>
    match s.call with
    | .acquired reader => some (.read reader)
    | _ => none
  | .stateClear => some .stateClear
  | .valueClear bitsToClear => some (.valueClear bitsToClear)
  | .signal _ | .kernel _ => none

/-- The operation of FreeRTOS in a step, with the answer of the slot. -/
def answer (cfg : Config) (owner : Fin n) (s : NotifySystem n σ) (e : NotifyEvent n) :
    Option (NotificationOp × NotifyReply) :=
  match operation s e, (s.stepResult cfg owner e).2 with
  | some o, some r => some (o, r)
  | _, _ => none

/-- What relates the slot to the notification of FreeRTOS. -/
structure SlotAgrees (owner : Fin n) (s : NotifySystem n σ) (a : Notification) : Prop where
  sem : SemaphoreOk 1 s.sem
  inside : ∀ i f, s.sem.waits.pending i = some f → i = owner ∧ ∃ reader, s.call = .waiting reader
  tokens_le : tokens s ≤ 1
  /-- The token of a Give is not in the value word. -/
  value : a.value = if tokens s = 1 ∧ s.gave = true then s.slot.value + 1 else s.slot.value
  received : a.received = decide (tokens s = 1)
  flag : s.slot.pending = true → tokens s = 1 ∧ s.gave = false
  /-- A Take has begun to wait with the value word zero. -/
  empty : ∀ clear, s.call = .waiting (.take clear) → tokens s = 0 → s.slot.value = 0
  asserted : s.asserted = false

namespace SlotAgrees

theorem tokens_initial : tokens (NotifySystem.initial : NotifySystem n σ) = 0 := by
  have hgranted : granted (NotifySystem.initial : NotifySystem n σ).sem = ∅ := granted_initial _
  unfold tokens
  rw [hgranted]
  rfl

theorem initial : SlotAgrees owner (NotifySystem.initial : NotifySystem n σ) ⟨0, false⟩ where
  sem := SemaphoreOk.initial (x := ⟨0, 1⟩) (Nat.zero_le 1)
  inside i f hi := nomatch hi
  tokens_le := by
    rw [tokens_initial]
    exact Nat.zero_le 1
  value := by
    rw [tokens_initial]
    rfl
  received := by
    rw [tokens_initial]
    rfl
  flag h := nomatch h
  empty _ h := nomatch h
  asserted := rfl

/-! ## The semaphore -/

/-- INTERNAL: a notifier signals, and no token is in store. -/
theorem signal (h : SlotAgrees owner s a) {c : Notifier n} (hcan : s.canNotify cfg c = true)
    (he : SyncOrderly s.sem c.signal) (hcount : s.sem.state.count = 0) :
    s.signal cfg c = { s with sem := s.sem.step cfg c.signal } ∧ SemaphoreOk 1 (s.sem.step cfg c.signal) ∧
      (s.sem.step cfg c.signal).state.count + (granted (s.sem.step cfg c.signal)).card =
        s.sem.state.count + (granted s.sem).card + 1 ∧
      ∀ i f, (s.sem.step cfg c.signal).waits.pending i = some f → s.sem.waits.pending i = some f := by
  have hresult : (s.sem.stepResult cfg c.signal).2 = some .void := by
    apply signal_accepted h.sem _ hcount
    cases c with
    | task i => exact hcan
    | handler id => exact hcan
  have hbalance := h.sem.balance cfg he
  have hacquired : acquired cfg s.sem c.signal = 0 := by simp [acquired, hresult]
  have haccepted : accepted cfg s.sem c.signal = 1 := by simp [accepted, hresult]
  refine ⟨?_, h.sem.step cfg he, by omega, ?_⟩
  · have hsplit : s.sem.stepResult cfg c.signal = (s.sem.step cfg c.signal, some .void) := Prod.ext rfl hresult
    unfold NotifySystem.signal
    rw [hsplit]
  · intro i f hi
    rcases pending_step hi with hold | ⟨op, -, hnone⟩
    · exact hold
    · rw [hresult] at hnone
      cases hnone

omit [SwitchStrategy (Fin n) σ] in
/-- INTERNAL: while the owner is outside `sem.Wait`, no token is on its way to it. -/
theorem not_granted (h : SlotAgrees owner s a) (hcall : ∀ reader, s.call ≠ .waiting reader) :
    granted s.sem = ∅ := by
  apply granted_empty
  intro i
  cases hi : s.sem.waits.pending i with
  | none => rfl
  | some f =>
    obtain ⟨-, reader, hreader⟩ := h.inside i f hi
    exact absurd hreader (hcall reader)

/-- INTERNAL: the owner calls `sem.Wait`, and finds a token if there is one. -/
theorem waitSem (h : SlotAgrees owner s a) (hcan : s.canNotify cfg (.task owner) = true)
    (he : SyncOrderly s.sem (.call owner .signal : MonitorEvent n SemaphoreOp))
    (hcall : ∀ reader, s.call ≠ .waiting reader) (hheld : heldToken s.call = 0) (hnotifying : s.notifying = [])
    (reader : Reader) (hempty : ∀ clear, reader = .take clear → tokens s = 0 → s.slot.value = 0) (ticksToWait : ℤ) :
    ∃ s', s.waitSem cfg owner reader ticksToWait = (s', .ready (decide (tokens s = 1))) ∧ SlotAgrees owner s' a := by
  have hgranted := h.not_granted hcall
  have htokens : tokens s = s.sem.state.count := by
    unfold tokens
    rw [hgranted, hheld, hnotifying]
    rfl
  have hle := h.tokens_le
  generalize htimeout : frtosTimeoutToStk ticksToWait = timeout
  have horderly : SyncOrderly s.sem (.call owner (.wait timeout) : MonitorEvent n SemaphoreOp) := he
  have hresult := wait_result timeout hcan
  have hbalance := h.sem.balance cfg horderly
  have hok := h.sem.step cfg horderly
  -- nobody but the owner gets inside, and only if it blocks
  have hinside : ∀ i f, (s.sem.step cfg (.call owner (.wait timeout))).waits.pending i = some f →
      i = owner ∧ (s.sem.stepResult cfg (.call owner (.wait timeout))).2 = none := by
    intro i f hi
    rcases pending_step hi with hold | ⟨op, hcaller, hnone⟩
    · obtain ⟨-, reader, hreader⟩ := h.inside i f hold
      exact absurd hreader (hcall reader)
    · cases hcaller
      exact ⟨rfl, hnone⟩
  have hagrees : ∀ call', heldToken call' = acquired cfg s.sem (.call owner (.wait timeout)) →
      accepted cfg s.sem (.call owner (.wait timeout)) = 0 →
      ((s.sem.stepResult cfg (.call owner (.wait timeout))).2 = none → ∃ reader, call' = .waiting reader) →
      (∀ clear, call' = .waiting (.take clear) → reader = .take clear) →
      SlotAgrees owner { s with sem := s.sem.step cfg (.call owner (.wait timeout)), call := call' } a := by
    intro call' hheld' haccepted hblocks hreads
    have hsame : tokens { s with sem := s.sem.step cfg (.call owner (.wait timeout)), call := call' } = tokens s := by
      unfold tokens
      dsimp only
      rw [hheld', hheld]
      omega
    refine ⟨hok, ?_, hsame ▸ hle, ?_, ?_, ?_, ?_, h.asserted⟩
    · intro i f hi
      obtain ⟨rfl, hnone⟩ := hinside i f hi
      exact ⟨rfl, hblocks hnone⟩
    · rw [hsame]
      exact h.value
    · rw [hsame]
      exact h.received
    · rw [hsame]
      exact h.flag
    · intro clear hwaits
      rw [hsame]
      exact hempty clear (hreads clear hwaits)
  have hsplit : ∀ r, (s.sem.stepResult cfg (.call owner (.wait timeout))).2 = r →
      s.sem.stepResult cfg (.call owner (.wait timeout)) = (s.sem.step cfg (.call owner (.wait timeout)), r) := by
    intro r hr
    exact Prod.ext rfl hr
  unfold NotifySystem.waitSem
  rw [htimeout]
  by_cases hcount : s.sem.state.count ≠ 0
  · rw [if_pos hcount] at hresult
    rw [hsplit _ hresult, decide_eq_true (by omega : tokens s = 1)]
    refine ⟨_, rfl, hagrees (.acquired reader) ?_ ?_ ?_ ?_⟩
    · simp [heldToken, acquired, hresult]
    · simp [accepted, hresult]
    · intro hnone
      rw [hresult] at hnone
      cases hnone
    · intro clear hwaits
      cases hwaits
  · rw [if_neg hcount] at hresult
    rw [decide_eq_false (by omega : ¬ tokens s = 1)]
    by_cases hblocks : timeout ≠ 0
    · rw [if_pos hblocks] at hresult
      rw [hsplit _ hresult]
      refine ⟨_, rfl, hagrees (.waiting reader) ?_ ?_ ?_ ?_⟩
      · simp [heldToken, acquired, hresult]
      · simp [accepted, hresult]
      · intro _
        exact ⟨reader, rfl⟩
      · intro clear hwaits
        exact OwnerCall.waiting.inj hwaits
    · rw [if_neg hblocks] at hresult
      rw [hsplit _ hresult]
      refine ⟨_, rfl, hagrees .idle ?_ ?_ ?_ ?_⟩
      · simp [heldToken, acquired, hresult]
      · simp [accepted, hresult]
      · intro hnone
        rw [hresult] at hnone
        cases hnone
      · intro clear hwaits
        cases hwaits

/-! ## The sections -/

/-- INTERNAL: a step with an answer. -/
theorem answers {e : NotifyEvent n} {s' : NotifySystem n σ} {o : NotificationOp} {r : NotifyReply}
    (hstep : s.stepResult cfg owner e = (s', some r)) (ho : operation s e = some o) (hr : (a.step o).2 = r)
    (hagrees : SlotAgrees owner s' (a.step o).1) :
    Runs.Simulates Notification.step (SlotAgrees owner) (s.step cfg owner e) a (answer cfg owner s e) := by
  unfold answer NotifySystem.step
  rw [hstep, ho]
  exact ⟨hr, hagrees⟩

/-- INTERNAL: a step without an answer. -/
theorem silent {e : NotifyEvent n} {s' : NotifySystem n σ} (hstep : s.stepResult cfg owner e = (s', none))
    (hagrees : SlotAgrees owner s' a) :
    Runs.Simulates Notification.step (SlotAgrees owner) (s.step cfg owner e) a (answer cfg owner s e) := by
  unfold answer NotifySystem.step
  rw [hstep]
  cases operation s e with
  | none => exact hagrees
  | some o => exact hagrees

/-- INTERNAL: `xTaskNotifyGive`. -/
theorem give (h : SlotAgrees owner s a) {c : Notifier n} (he : NotifyOrderly owner s (.give c))
    (hd : Disciplined owner s (.give c)) :
    Runs.Simulates Notification.step (SlotAgrees owner) (s.step cfg owner (.give c)) a
      (answer cfg owner s (.give c)) := by
  have htokens : tokens s = 0 := hd
  by_cases hguard : (s.canNotify cfg c && s.isFree owner c) = true
  · have hcan := (Bool.and_eq_true _ _).mp hguard
    have hcount : s.sem.state.count = 0 := by
      unfold tokens at htokens
      omega
    obtain ⟨hsignal, hok, hbalance, hpending⟩ := h.signal hcan.1 he hcount
    have hstep : s.stepResult cfg owner (.give c) =
        ({ s with sem := s.sem.step cfg c.signal, gave := true }, some (.notified true s.slot.value)) := by
      unfold NotifySystem.stepResult
      dsimp only
      rw [if_pos hguard, hsignal]
    have hone : tokens { s with sem := s.sem.step cfg c.signal, gave := true } = 1 := by
      unfold tokens at htokens ⊢
      dsimp only
      omega
    have hvalue : a.value = s.slot.value := by
      rw [h.value, htokens]
      rfl
    have hop : a.step (.notify 0 .increment) = (⟨a.value + 1, true⟩, .notified true a.value) := rfl
    refine answers hstep rfl ?_ ?_
    · rw [hop, hvalue]
    · rw [hop]
      refine ⟨hok, ?_, ?_, ?_, ?_, ?_, ?_, h.asserted⟩
      · intro i f hi
        exact h.inside i f (hpending i f hi)
      · rw [hone]
      · rw [hone, hvalue]
        rfl
      · rw [hone]
        rfl
      · intro hflag
        have htoken := (h.flag hflag).1
        omega
      · intro clear _ hzero
        rw [hone] at hzero
        cases hzero
  · refine silent ?_ h
    unfold NotifySystem.stepResult
    dsimp only
    rw [if_neg hguard]

omit [SwitchStrategy (Fin n) σ] in
/-- INTERNAL: an action is applied to a slot whose flag is clear. -/
theorem applied (slot : NotifySlot) (ulValue : BitVec 32) (action : NotifyAction) (hpending : slot.pending = false) :
    ∃ pending, notifyApplyAction slot ulValue action =
      (⟨Notification.written slot.value ulValue action, pending⟩, true) := by
  cases action with
  | setValueWithoutOverwrite =>
    refine ⟨true, ?_⟩
    simp [notifyApplyAction, hpending, Notification.written]
  | _ => exact ⟨slot.pending, rfl⟩

/-- INTERNAL: the first section of `xTaskNotify`. -/
theorem notify (h : SlotAgrees owner s a) {c : Notifier n} {ulValue : BitVec 32} {action : NotifyAction}
    (hd : Disciplined owner s (.notify c ulValue action)) :
    Runs.Simulates Notification.step (SlotAgrees owner) (s.step cfg owner (.notify c ulValue action)) a
      (answer cfg owner s (.notify c ulValue action)) := by
  by_cases hguard : (s.canNotify cfg c && s.isFree owner c) = true
  · rcases hd with htokens | ⟨haction, hflag⟩
    · have hclear : s.slot.pending = false := by
        cases hpending : s.slot.pending with
        | false => rfl
        | true =>
          have htoken := (h.flag hpending).1
          omega
      obtain ⟨pending, happly⟩ := applied s.slot ulValue action hclear
      have hvalue : a.value = s.slot.value := by
        rw [h.value, htokens]
        rfl
      have hreceived : a.received = false := by
        rw [h.received, htokens]
        rfl
      have hstep : s.stepResult cfg owner (.notify c ulValue action) =
          ({ s with
              slot := ⟨Notification.written s.slot.value ulValue action, pending⟩
              notifying := c :: s.notifying
              gave := false }, some (.notified true s.slot.value)) := by
        unfold NotifySystem.stepResult
        dsimp only
        rw [if_pos hguard, happly]
        rfl
      have hop : a.step (.notify ulValue action) =
          (⟨Notification.written a.value ulValue action, true⟩, .notified true a.value) := by
        unfold Notification.step
        dsimp only
        rw [hreceived, if_neg (by simp)]
      have hone : tokens { s with
          slot := ⟨Notification.written s.slot.value ulValue action, pending⟩
          notifying := c :: s.notifying
          gave := false } = 1 := by
        unfold tokens at htokens ⊢
        dsimp only
        rw [List.length_cons]
        omega
      refine answers hstep rfl ?_ ?_
      · rw [hop, hvalue]
      · rw [hop]
        refine ⟨h.sem, h.inside, ?_, ?_, ?_, ?_, ?_, h.asserted⟩
        · rw [hone]
        · rw [hone, hvalue]
          rfl
        · rw [hone]
          rfl
        · intro _
          exact ⟨hone, rfl⟩
        · intro clear _ hzero
          rw [hone] at hzero
          cases hzero
    · -- the value has not been consumed
      obtain ⟨htoken, hgave⟩ := h.flag hflag
      have hvalue : a.value = s.slot.value := by
        rw [h.value, hgave, if_neg (by simp)]
      have hreceived : a.received = true := by
        rw [h.received, htoken]
        rfl
      subst haction
      have hstep : s.stepResult cfg owner (.notify c ulValue .setValueWithoutOverwrite) =
          (s, some (.notified false s.slot.value)) := by
        unfold NotifySystem.stepResult
        dsimp only
        rw [if_pos hguard]
        simp [notifyApplyAction, hflag]
      have hop : a.step (.notify ulValue .setValueWithoutOverwrite) = (a, .notified false a.value) := by
        unfold Notification.step
        dsimp only
        rw [hreceived, if_pos ⟨rfl, rfl⟩]
      refine answers hstep rfl ?_ ?_
      · rw [hop, hvalue]
      · rw [hop]
        exact h
  · refine silent ?_ h
    unfold NotifySystem.stepResult
    dsimp only
    rw [if_neg hguard]

/-- INTERNAL: the second section of a notifier: the token is on its way before and in store or handed over after. -/
theorem signalled (h : SlotAgrees owner s a) {c : Notifier n} (he : NotifyOrderly owner s (.signal c)) :
    Runs.Simulates Notification.step (SlotAgrees owner) (s.step cfg owner (.signal c)) a
      (answer cfg owner s (.signal c)) := by
  by_cases hguard : (s.canNotify cfg c && decide (c ∈ s.notifying)) = true
  · obtain ⟨hcan, hmem⟩ := (Bool.and_eq_true _ _).mp hguard
    have hmem : c ∈ s.notifying := of_decide_eq_true hmem
    have hle := h.tokens_le
    have hlength := List.length_erase_of_mem hmem
    have hpos := List.length_pos_of_mem hmem
    have hcount : s.sem.state.count = 0 := by
      unfold tokens at hle
      omega
    obtain ⟨hsignal, hok, hbalance, hpending⟩ := h.signal hcan he hcount
    have hsame : tokens { s with sem := s.sem.step cfg c.signal, notifying := s.notifying.erase c } = tokens s := by
      unfold tokens
      dsimp only
      omega
    have hstep : s.stepResult cfg owner (.signal c) =
        ({ s with sem := s.sem.step cfg c.signal, notifying := s.notifying.erase c }, none) := by
      unfold NotifySystem.stepResult
      dsimp only
      rw [if_pos hguard, hsignal]
    refine silent hstep ⟨hok, ?_, ?_, ?_, ?_, ?_, ?_, h.asserted⟩
    · intro i f hi
      exact h.inside i f (hpending i f hi)
    · rw [hsame]
      exact hle
    · rw [hsame]
      exact h.value
    · rw [hsame]
      exact h.received
    · rw [hsame]
      exact h.flag
    · rw [hsame]
      exact h.empty
  · refine silent ?_ h
    unfold NotifySystem.stepResult
    dsimp only
    rw [if_neg hguard]

/-- INTERNAL: `ulTaskNotifyTake` up to `sem.Wait`. -/
theorem take (h : SlotAgrees owner s a) {clear : Bool} {ticks : ℤ} (he : NotifyOrderly owner s (.take clear ticks))
    (hd : Disciplined owner s (.take clear ticks)) :
    Runs.Simulates Notification.step (SlotAgrees owner) (s.step cfg owner (.take clear ticks)) a
      (answer cfg owner s (.take clear ticks)) := by
  obtain ⟨hnotifying, hvalue⟩ := hd
  by_cases hguard : (s.canRead cfg owner && decide (s.call = .idle)) = true
  · obtain ⟨hread, hidle⟩ := (Bool.and_eq_true _ _).mp hguard
    have hidle : s.call = .idle := of_decide_eq_true hidle
    have hcan := ((Bool.and_eq_true _ _).mp hread).1
    have hempty : ∀ clear', Reader.take clear = .take clear' → tokens s = 0 → s.slot.value = 0 := by
      intro clear' _ hzero
      rwa [if_pos hzero] at hvalue
    obtain ⟨s', hwait, hagrees⟩ := h.waitSem hcan he (by simp [hidle]) (by rw [hidle]; rfl) hnotifying (.take clear) hempty
      ticks
    have hstep : s.stepResult cfg owner (.take clear ticks) = (s', some (.ready (decide (tokens s = 1)))) := by
      unfold NotifySystem.stepResult
      dsimp only
      rw [if_pos hguard, hwait]
    have hfound : decide (a.value ≠ 0) = decide (tokens s = 1) := by
      have hle := h.tokens_le
      by_cases htokens : tokens s = 0
      · rw [if_pos htokens] at hvalue
        rw [h.value, htokens]
        simp [hvalue]
      · rw [if_neg htokens] at hvalue
        have hone : tokens s = 1 := by omega
        rw [h.value, hone, if_pos ⟨rfl, hvalue.1⟩]
        rw [decide_eq_true hvalue.2]
        rfl
    refine answers hstep rfl ?_ hagrees
    have hop : (a.step (.begins true)).2 = .ready (decide (a.value ≠ 0)) := rfl
    rw [hop, hfound]
  · refine silent ?_ h
    unfold NotifySystem.stepResult
    dsimp only
    rw [if_neg hguard]

/-- INTERNAL: `sem.Wait` of `xTaskNotifyWait`. -/
theorem wait (h : SlotAgrees owner s a) (he : NotifyOrderly owner s .wait) (hd : Disciplined owner s .wait) :
    Runs.Simulates Notification.step (SlotAgrees owner) (s.step cfg owner .wait) a (answer cfg owner s .wait) := by
  have hnotifying : s.notifying = [] := hd
  cases hcall : s.call with
  | entered bits ticks =>
    by_cases hread : s.canRead cfg owner = true
    · have hcan := ((Bool.and_eq_true _ _).mp hread).1
      have hempty : ∀ clear, Reader.wait bits = .take clear → tokens s = 0 → s.slot.value = 0 := by
        intro clear hreader
        cases hreader
      obtain ⟨s', hwait, hagrees⟩ := h.waitSem hcan he (by simp [hcall]) (by rw [hcall]; rfl) hnotifying (.wait bits)
        hempty ticks
      have hstep : s.stepResult cfg owner .wait = (s', some (.ready (decide (tokens s = 1)))) := by
        unfold NotifySystem.stepResult
        dsimp only
        rw [hcall]
        dsimp only
        rw [if_pos hread, hwait]
      refine answers hstep rfl ?_ hagrees
      have hop : (a.step (.begins false)).2 = .ready a.received := rfl
      rw [hop, h.received]
    · refine silent ?_ h
      unfold NotifySystem.stepResult
      dsimp only
      rw [hcall]
      dsimp only
      rw [if_neg hread]
  | _ =>
    refine silent ?_ h
    unfold NotifySystem.stepResult
    dsimp only
    rw [hcall]

omit [SwitchStrategy (Fin n) σ] in
/-- INTERNAL: bits of the value are cleared, and the owner stays outside `sem.Wait`. -/
theorem clearBits (h : SlotAgrees owner s a) (hd : tokens s = 0 ∨ s.gave = false) (hidle : s.call = .idle)
    (bits : BitVec 32) (call' : OwnerCall) (hheld : heldToken call' = 0) (hoff : ∀ reader, call' ≠ .waiting reader) :
    a.value = s.slot.value ∧
      SlotAgrees owner { s with slot := { s.slot with value := s.slot.value &&& ~~~bits }, call := call' }
        { a with value := a.value &&& ~~~bits } := by
  have hvalue : a.value = s.slot.value := by
    rw [h.value]
    rcases hd with htokens | hgave
    · rw [htokens, if_neg (by simp)]
    · rw [hgave, if_neg (by simp)]
  have hsame : tokens { s with slot := { s.slot with value := s.slot.value &&& ~~~bits }, call := call' } =
      tokens s := by
    unfold tokens
    dsimp only
    rw [hheld, hidle]
    rfl
  refine ⟨hvalue, h.sem, ?_, ?_, ?_, ?_, ?_, fun clear hwaits => absurd hwaits (hoff _), h.asserted⟩
  · intro i f hi
    obtain ⟨-, reader, hreader⟩ := h.inside i f hi
    rw [hidle] at hreader
    cases hreader
  · rw [hsame]
    exact h.tokens_le
  · rw [hsame, hvalue]
    dsimp only
    rcases hd with htokens | hgave
    · rw [htokens, if_neg (by simp)]
    · rw [hgave, if_neg (by simp)]
  · rw [hsame]
    exact h.received
  · rw [hsame]
    exact h.flag

/-- INTERNAL: the first section of `xTaskNotifyWait`. -/
theorem enterWait (h : SlotAgrees owner s a) {entry exit : BitVec 32} {ticks : ℤ}
    (hd : Disciplined owner s (.enterWait entry exit ticks)) :
    Runs.Simulates Notification.step (SlotAgrees owner) (s.step cfg owner (.enterWait entry exit ticks)) a
      (answer cfg owner s (.enterWait entry exit ticks)) := by
  by_cases hguard : (s.canRead cfg owner && decide (s.call = .idle)) = true
  · have hidle : s.call = .idle := of_decide_eq_true ((Bool.and_eq_true _ _).mp hguard).2
    obtain ⟨-, hagrees⟩ := h.clearBits hd hidle entry (.entered exit ticks) rfl (by simp)
    have hstep : s.stepResult cfg owner (.enterWait entry exit ticks) =
        ({ s with slot := { s.slot with value := s.slot.value &&& ~~~entry }, call := .entered exit ticks },
          some .void) := by
      unfold NotifySystem.stepResult
      dsimp only
      rw [if_pos hguard]
    exact answers (o := .clearOnEntry entry) hstep rfl rfl hagrees
  · refine silent ?_ h
    unfold NotifySystem.stepResult
    dsimp only
    rw [if_neg hguard]

/-- INTERNAL: `ulTaskNotifyValueClear`. -/
theorem valueClear (h : SlotAgrees owner s a) {bits : BitVec 32} (hd : Disciplined owner s (.valueClear bits)) :
    Runs.Simulates Notification.step (SlotAgrees owner) (s.step cfg owner (.valueClear bits)) a
      (answer cfg owner s (.valueClear bits)) := by
  by_cases hguard : (s.canRead cfg owner && decide (s.call = .idle)) = true
  · have hidle : s.call = .idle := of_decide_eq_true ((Bool.and_eq_true _ _).mp hguard).2
    obtain ⟨hvalue, hagrees⟩ := h.clearBits hd hidle bits .idle rfl (by simp)
    rw [← hidle] at hagrees
    have hstep : s.stepResult cfg owner (.valueClear bits) =
        ({ s with slot := { s.slot with value := s.slot.value &&& ~~~bits } }, some (.value s.slot.value)) := by
      unfold NotifySystem.stepResult
      dsimp only
      rw [if_pos hguard]
    have hop : (a.step (.valueClear bits)).2 = .value a.value := rfl
    exact answers hstep rfl (by rw [hop, hvalue]) hagrees
  · refine silent ?_ h
    unfold NotifySystem.stepResult
    dsimp only
    rw [if_neg hguard]

omit [SwitchStrategy (Fin n) σ] in
/-- INTERNAL: where no notification has come, FreeRTOS gives up too. -/
theorem refuses (h : SlotAgrees owner s a) {reader : Reader} (hcall : s.call = .waiting reader) (hzero : tokens s = 0) :
    a.step (.read reader) = (a, reader.refused) := by
  have hreceived : a.received = false := by
    rw [h.received, hzero]
    rfl
  obtain ⟨value, received⟩ := a
  obtain rfl : received = false := hreceived
  cases reader with
  | take clear =>
    have hvalue : value = s.slot.value := by
      have hagrees := h.value
      rw [hzero] at hagrees
      exact hagrees
    rw [h.empty clear hcall hzero] at hvalue
    subst hvalue
    rfl
  | wait bits => rfl

/-- INTERNAL: `sem.Wait` returns to the owner. -/
theorem resume (h : SlotAgrees owner s a) (he : NotifyOrderly owner s .resume) (hd : Disciplined owner s .resume) :
    Runs.Simulates Notification.step (SlotAgrees owner) (s.step cfg owner .resume) a
      (answer cfg owner s .resume) := by
  have hlate : (s.sem.waits.kernel.tasks owner).waitObj.timeout = true → tokens s = 0 := hd
  cases hcall : s.call with
  | waiting reader =>
    have horderly : SyncOrderly s.sem (.resume owner : MonitorEvent n SemaphoreOp) := he
    have hbalance := h.sem.balance cfg horderly
    have hok := h.sem.step cfg horderly
    cases hresult : (s.sem.stepResult cfg (.resume owner)).2 with
    | none =>
      have hsplit : s.sem.stepResult cfg (.resume owner) = (s.sem.step cfg (.resume owner), none) :=
        Prod.ext rfl hresult
      refine silent ?_ h
      unfold NotifySystem.stepResult
      dsimp only
      rw [hcall, hsplit]
    | some r =>
      have hsplit : s.sem.stepResult cfg (.resume owner) = (s.sem.step cfg (.resume owner), some r) :=
        Prod.ext rfl hresult
      have hmap : (s.sem.stepResult cfg (.resume owner)).2 =
          (s.sem.waits.stepResult cfg (.resume owner)).2.map (fun r => MethodResult.bool (decide (r = .signal))) := rfl
      rw [hresult] at hmap
      obtain ⟨w, hw, rfl⟩ := Option.map_eq_some_iff.mp hmap.symm
      have haccepted : accepted cfg s.sem (.resume owner) = 0 := by simp [accepted, hresult]
      -- the owner is no longer inside
      have hinside : ∀ i f, (s.sem.step cfg (.resume owner)).waits.pending i ≠ some f := by
        intro i f hi
        rcases pending_step hi with hold | ⟨op, hcaller, -⟩
        · obtain ⟨rfl, -⟩ := h.inside i f hold
          rw [resume_pending hresult] at hi
          cases hi
        · cases hcaller
      have hagrees : ∀ call', heldToken call' = acquired cfg s.sem (.resume owner) →
          (∀ reader, call' ≠ .waiting reader) →
          SlotAgrees owner { s with sem := s.sem.step cfg (.resume owner), call := call' } a := by
        intro call' hheld hoff
        have hheld₀ : heldToken s.call = 0 := by rw [hcall]; rfl
        have hsame : tokens { s with sem := s.sem.step cfg (.resume owner), call := call' } = tokens s := by
          unfold tokens
          dsimp only
          rw [hheld, hheld₀]
          omega
        refine ⟨hok, fun i f hi => absurd hi (hinside i f), ?_, ?_, ?_, ?_, fun clear hwaits => absurd hwaits (hoff _),
          h.asserted⟩
        · rw [hsame]
          exact h.tokens_le
        · rw [hsame]
          exact h.value
        · rw [hsame]
          exact h.received
        · rw [hsame]
          exact h.flag
      cases w with
      | signal =>
        refine silent ?_ (hagrees (.acquired reader) (by simp [heldToken, acquired, hresult]) (by simp))
        unfold NotifySystem.stepResult
        dsimp only
        rw [hcall, hsplit]
        rfl
      | timeout =>
        have hzero := hlate (timeout_of_resume hw)
        have hop : operation s .resume = some (.read reader) := by
          unfold operation
          rw [hcall]
        have hstep : s.stepResult cfg owner .resume =
            ({ s with sem := s.sem.step cfg (.resume owner), call := .idle }, some reader.refused) := by
          unfold NotifySystem.stepResult
          dsimp only
          rw [hcall, hsplit]
          rfl
        refine answers hstep hop ?_ ?_
        · rw [h.refuses hcall hzero]
        · rw [h.refuses hcall hzero]
          exact hagrees .idle (by simp [heldToken, acquired, hresult]) (by simp)
  | _ =>
    refine silent ?_ h
    unfold NotifySystem.stepResult
    dsimp only
    rw [hcall]

omit [SwitchStrategy (Fin n) σ] in
/-- INTERNAL: the token is consumed. -/
theorem consumed (h : SlotAgrees owner s a) {reader : Reader} (hcall : s.call = .acquired reader) (slot' : NotifySlot)
    (hflag : slot'.pending = false) :
    tokens s = 1 ∧ SlotAgrees owner { s with slot := slot', call := .idle } ⟨slot'.value, false⟩ := by
  have hle := h.tokens_le
  have hheld : heldToken s.call = 1 := by rw [hcall]; rfl
  have hone : tokens s = 1 := by
    unfold tokens at hle ⊢
    omega
  have hzero : tokens { s with slot := slot', call := .idle } = 0 := by
    unfold tokens at hle ⊢
    dsimp only [heldToken]
    omega
  refine ⟨hone, h.sem, ?_, ?_, ?_, ?_, ?_, ?_, h.asserted⟩
  · intro i f hi
    obtain ⟨-, reader', hreader⟩ := h.inside i f hi
    rw [hcall] at hreader
    cases hreader
  · rw [hzero]
    exact Nat.zero_le 1
  · rw [hzero, if_neg (by simp)]
  · rw [hzero]
    rfl
  · intro hpending
    have hfalse : slot'.pending = true := hpending
    rw [hflag] at hfalse
    cases hfalse
  · intro clear hwaits
    cases hwaits

/-- INTERNAL: the owner reads the value. -/
theorem read (h : SlotAgrees owner s a) (hd : Disciplined owner s .read) :
    Runs.Simulates Notification.step (SlotAgrees owner) (s.step cfg owner .read) a (answer cfg owner s .read) := by
  replace hd : ReadsOwn s s.call := hd
  cases hcall : s.call with
  | acquired reader =>
    rw [hcall] at hd
    by_cases hread : s.canRead cfg owner = true
    · have hop : operation s .read = some (.read reader) := by
        unfold operation
        rw [hcall]
      have hstep : s.stepResult cfg owner .read = ((s.read reader).1, some (s.read reader).2) := by
        unfold NotifySystem.stepResult
        dsimp only
        rw [hcall]
        dsimp only
        rw [if_pos hread]
      cases reader with
      | take clear =>
        obtain ⟨hgave, hclear⟩ : s.gave = true ∧ (clear = true ∨ s.slot.value = 0) := hd
        have hflag : s.slot.pending = false := by
          cases hpending : s.slot.pending with
          | false => rfl
          | true =>
            have hother := (h.flag hpending).2
            rw [hgave] at hother
            cases hother
        obtain ⟨hone, hagrees⟩ := h.consumed hcall
          { s.slot with value := if clear then 0 else if s.slot.value ≠ 0 then s.slot.value - 1 else s.slot.value } hflag
        have hvalue : a.value = s.slot.value + 1 := by
          rw [h.value, if_pos ⟨hone, hgave⟩]
        have hnext : (if a.value = 0 then 0 else if clear then 0 else a.value - 1) =
            if clear then 0 else if s.slot.value ≠ 0 then s.slot.value - 1 else s.slot.value := by
          rcases hclear with rfl | hzero
          · simp
          · rw [hvalue, hzero]
            simp
        have hstep' : (a.step (.read (.take clear))) =
            (⟨if a.value = 0 then 0 else if clear then 0 else a.value - 1, false⟩, .value a.value) := rfl
        refine answers hstep hop ?_ ?_
        · rw [hstep', hvalue]
          rfl
        · rw [hstep', hnext]
          exact hagrees
      | wait bits =>
        have hgave : s.gave = false := hd
        obtain ⟨hone, hagrees⟩ := h.consumed hcall ⟨s.slot.value &&& ~~~bits, false⟩ rfl
        have hvalue : a.value = s.slot.value := by
          rw [h.value, hgave, if_neg (by simp)]
        have hreceived : a.received = true := by
          rw [h.received, hone]
          rfl
        have hstep' : (a.step (.read (.wait bits))) = (⟨a.value &&& ~~~bits, false⟩, .received a.value) := by
          unfold Notification.step
          dsimp only
          rw [if_pos hreceived]
        refine answers hstep hop ?_ ?_
        · rw [hstep', hvalue]
          rfl
        · rw [hstep', hvalue]
          exact hagrees
    · refine silent ?_ h
      unfold NotifySystem.stepResult
      dsimp only
      rw [hcall]
      dsimp only
      rw [if_neg hread]
  | _ =>
    refine silent ?_ h
    unfold NotifySystem.stepResult
    dsimp only
    rw [hcall]

/-- INTERNAL: `xTaskNotifyStateClear`. -/
theorem stateClear (h : SlotAgrees owner s a) (he : NotifyOrderly owner s .stateClear)
    (hd : Disciplined owner s .stateClear) :
    Runs.Simulates Notification.step (SlotAgrees owner) (s.step cfg owner .stateClear) a
      (answer cfg owner s .stateClear) := by
  obtain ⟨hnotifying, hgave⟩ := hd
  by_cases hguard : (s.canRead cfg owner && decide (s.call = .idle)) = true
  · obtain ⟨hread, hidle⟩ := (Bool.and_eq_true _ _).mp hguard
    have hidle : s.call = .idle := of_decide_eq_true hidle
    have hcan := ((Bool.and_eq_true _ _).mp hread).1
    have hheld : heldToken s.call = 0 := by rw [hidle]; rfl
    have hgranted := h.not_granted (by simp [hidle])
    have htokens : tokens s = s.sem.state.count := by
      unfold tokens
      rw [hgranted, hheld, hnotifying]
      rfl
    have hle := h.tokens_le
    have hop : a.step .stateClear = ({ a with received := false }, .cleared a.received) := rfl
    have hstep : s.stepResult cfg owner .stateClear =
        ((s.stateClear cfg owner).1, some (s.stateClear cfg owner).2) := by
      unfold NotifySystem.stepResult
      dsimp only
      rw [if_pos hguard]
    by_cases hcount : s.sem.state.count ≠ 0
    · -- the token is drained
      have horderly : SyncOrderly s.sem (.call owner (.wait 0) : MonitorEvent n SemaphoreOp) := he
      have hresult := wait_result 0 hcan
      rw [if_pos hcount] at hresult
      have hbalance := h.sem.balance cfg horderly
      have hacquired : acquired cfg s.sem (.call owner (.wait 0)) = 1 := by simp [acquired, hresult]
      have haccepted : accepted cfg s.sem (.call owner (.wait 0)) = 0 := by simp [accepted, hresult]
      have hclear : s.stateClear cfg owner =
          ({ s with sem := s.sem.step cfg (.call owner (.wait 0)), slot := { s.slot with pending := false } },
            .cleared true) := by
        unfold NotifySystem.stateClear
        simp [hcount]
      have hone : tokens s = 1 := by omega
      have hzero : tokens { s with
          sem := s.sem.step cfg (.call owner (.wait 0)), slot := { s.slot with pending := false } } = 0 := by
        unfold tokens at hone ⊢
        dsimp only
        omega
      have hvalue : a.value = s.slot.value := by
        rw [h.value, hgave.resolve_left (by omega), if_neg (by simp)]
      rw [hclear] at hstep
      refine answers hstep rfl ?_ ?_
      · rw [hop, h.received, hone]
        rfl
      · rw [hop]
        refine ⟨h.sem.step cfg horderly, ?_, ?_, ?_, ?_, ?_, ?_, h.asserted⟩
        · intro i f hi
          rcases pending_step hi with hold | ⟨op, -, hnone⟩
          · exact h.inside i f hold
          · rw [hresult] at hnone
            cases hnone
        · rw [hzero]
          exact Nat.zero_le 1
        · rw [hzero, if_neg (by simp)]
          exact hvalue
        · rw [hzero]
          rfl
        · intro hpending
          cases hpending
        · intro clear hwaits
          rw [hidle] at hwaits
          cases hwaits
    · have hflag : s.slot.pending = false := by
        cases hpending : s.slot.pending with
        | false => rfl
        | true =>
          have htoken := (h.flag hpending).1
          omega
      have hreceived : a.received = false := by
        rw [h.received, decide_eq_false (by omega)]
      have hclear : s.stateClear cfg owner = (s, .cleared false) := by
        unfold NotifySystem.stateClear
        simp [hcount, hflag]
      rw [hclear] at hstep
      refine answers hstep rfl ?_ ?_
      · rw [hop, hreceived]
      · rw [hop, ← hreceived]
        exact h
  · refine silent ?_ h
    unfold NotifySystem.stepResult
    dsimp only
    rw [if_neg hguard]

/-- INTERNAL: a kernel call. -/
theorem kernel (h : SlotAgrees owner s a) {e : KernelEvent n} (he : NotifyOrderly owner s (.kernel e)) :
    Runs.Simulates Notification.step (SlotAgrees owner) (s.step cfg owner (.kernel e)) a
      (answer cfg owner s (.kernel e)) := by
  have horderly : SyncOrderly s.sem (.kernel e : MonitorEvent n SemaphoreOp) := he
  have hbalance := h.sem.balance cfg horderly
  have hresult : (s.sem.stepResult cfg (.kernel e)).2 = none := rfl
  have hacquired : acquired cfg s.sem (.kernel e) = 0 := by simp [acquired, hresult]
  have haccepted : accepted cfg s.sem (.kernel e) = 0 := by simp [accepted, hresult]
  have hsame : tokens { s with sem := s.sem.step cfg (.kernel e) } = tokens s := by
    unfold tokens
    dsimp only
    omega
  refine silent rfl ?_
  refine ⟨h.sem.step cfg horderly, ?_, ?_, ?_, ?_, ?_, ?_, h.asserted⟩
  · intro i f hi
    rcases pending_step hi with hold | ⟨op, hcaller, -⟩
    · exact h.inside i f hold
    · cases hcaller
  · rw [hsame]
    exact h.tokens_le
  · rw [hsame]
    exact h.value
  · rw [hsame]
    exact h.received
  · rw [hsame]
    exact h.flag
  · rw [hsame]
    exact h.empty

/-- **Simulation.**  A disciplined step is answered as FreeRTOS answers it. -/
theorem step (h : SlotAgrees owner s a) {e : NotifyEvent n} (he : NotifyOrderly owner s e) (hd : Disciplined owner s e) :
    Runs.Simulates Notification.step (SlotAgrees owner) (s.step cfg owner e) a (answer cfg owner s e) := by
  cases e with
  | give c => exact h.give he hd
  | notify c ulValue action => exact h.notify hd
  | signal c => exact h.signalled he
  | take clear ticks => exact h.take he hd
  | enterWait entry exit ticks => exact h.enterWait hd
  | wait => exact h.wait he hd
  | resume => exact h.resume he hd
  | read => exact h.read hd
  | stateClear => exact h.stateClear he hd
  | valueClear bits => exact h.valueClear hd
  | kernel e => exact h.kernel he

end SlotAgrees

end Stk.Analysis
