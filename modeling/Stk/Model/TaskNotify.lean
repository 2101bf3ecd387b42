import Stk.Model.EventGroup
import Stk.Model.Semaphore

/-!
# Task notifications of the FreeRTOS interface

One notification slot of one task (freertos_stk.cpp:482-494, 3232-3374, 3560-3640): a value word, a flag for
`eSetValueWithoutOverwrite` and a binary semaphore.  Every critical section is a step of its own: the
notifiers apply their action in one and signal the semaphore in another, the owner waits for the semaphore in
one and reads the value in another.
-/

set_option autoImplicit false

namespace Stk.Model

/-- `eNotifyAction`. -/
inductive NotifyAction where
  | noAction
  | setBits
  | increment
  | setValueWithOverwrite
  | setValueWithoutOverwrite
deriving DecidableEq

/-- `NotifySlot::value` and `NotifySlot::pending`. -/
structure NotifySlot where
  value : BitVec 32
  pending : Bool
deriving DecidableEq

/-- `NotifyApplyAction`; the result is `pdPASS` or `pdFAIL`. -/
def notifyApplyAction (slot : NotifySlot) (ulValue : BitVec 32) : NotifyAction → NotifySlot × Bool
  | .noAction => (slot, true)
  | .setBits => ({ slot with value := slot.value ||| ulValue }, true)
  | .increment => ({ slot with value := slot.value + 1 }, true)
  | .setValueWithOverwrite => ({ slot with value := ulValue }, true)
  | .setValueWithoutOverwrite => if slot.pending then (slot, false) else (⟨ulValue, true⟩, true)

/-- Who notifies: a task, or an interrupt handler through the `FromISR` functions. -/
inductive Notifier (n : ℕ) where
  | task (i : Fin n)
  | handler (id : ℕ)
deriving DecidableEq

/-- `sem.Signal()`. -/
def Notifier.signal {n : ℕ} : Notifier n → MonitorEvent n SemaphoreOp
  | .task i => .call i .signal
  | .handler _ => .isr .signal

/-- The last critical section of a call of the owner: `ulTaskNotifyTake`, or `xTaskNotifyWait` with the bits to
clear on exit. -/
inductive Reader where
  | take (clearCountOnExit : Bool)
  | wait (bitsToClearOnExit : BitVec 32)
deriving DecidableEq

/-- Where the owner is. -/
inductive OwnerCall where
  | idle
  /-- In `xTaskNotifyWait`, before `sem.Wait`. -/
  | entered (bitsToClearOnExit : BitVec 32) (ticksToWait : ℤ)
  /-- In `sem.Wait`. -/
  | waiting (reader : Reader)
  /-- `sem.Wait` has returned `true`. -/
  | acquired (reader : Reader)
deriving DecidableEq

/-- A kernel with one slot; `notifying` holds the notifiers that have applied their action and not yet
signalled.  `gave` (the last notification was a Give) is history. -/
structure NotifySystem (n : ℕ) (σ : Type) where
  sem : SyncSystem n Semaphore σ
  slot : NotifySlot
  call : OwnerCall
  notifying : List (Notifier n)
  /-- The assertion of `Signal` has failed. -/
  asserted : Bool
  gave : Bool

inductive NotifyEvent (n : ℕ) where
  /-- `xTaskNotifyGive`. -/
  | give (notifier : Notifier n)
  /-- The first section of `xTaskNotify` and `xTaskNotifyAndQuery`. -/
  | notify (notifier : Notifier n) (ulValue : BitVec 32) (action : NotifyAction)
  /-- The second section. -/
  | signal (notifier : Notifier n)
  /-- `sem.Wait` of `ulTaskNotifyTake`. -/
  | take (clearCountOnExit : Bool) (ticksToWait : ℤ)
  /-- The first section of `xTaskNotifyWait`. -/
  | enterWait (bitsToClearOnEntry bitsToClearOnExit : BitVec 32) (ticksToWait : ℤ)
  /-- `sem.Wait` of `xTaskNotifyWait`. -/
  | wait
  /-- `sem.Wait` returns to the owner. -/
  | resume
  /-- The last section of both. -/
  | read
  | stateClear
  | valueClear (bitsToClear : BitVec 32)
  | kernel (event : KernelEvent n)

/-- What a section tells its caller. -/
inductive NotifyReply where
  | void
  /-- `pdPASS` or `pdFAIL`, and the value before the action. -/
  | notified (pass : Bool) (previous : BitVec 32)
  /-- Has `sem.Wait` found a token?  A call that does not and does not block returns as one that has waited in
  vain. -/
  | ready (found : Bool)
  /-- `pdPASS`, and the value. -/
  | received (value : BitVec 32)
  /-- `pdFAIL` of `xTaskNotifyWait`. -/
  | timedOut
  | value (value : BitVec 32)
  | cleared (wasPending : Bool)
deriving DecidableEq

/-- What a call returns that has waited in vain. -/
def Reader.refused : Reader → NotifyReply
  | .take _ => .value 0
  | .wait _ => .timedOut

namespace NotifySystem

variable {n : ℕ} {σ : Type} [SwitchStrategy (Fin n) σ]

/-- The slot as constructed: the semaphore has no token and a maximum of one. -/
def initial : NotifySystem n σ where
  sem := SyncSystem.initial ⟨0, 1⟩
  slot := ⟨0, false⟩
  call := .idle
  notifying := []
  asserted := false
  gave := false

/-- The notifier can enter a critical section. -/
def canNotify (cfg : Config) (s : NotifySystem n σ) : Notifier n → Bool
  | .task i => cfg.isSyncMode && s.sem.waits.kernel.canCall i
  | .handler _ => cfg.isSyncMode

/-- The notifier is in no call. -/
def isFree (owner : Fin n) (s : NotifySystem n σ) (c : Notifier n) : Bool :=
  decide (c ∉ s.notifying) && (decide (c ≠ .task owner) || decide (s.call = .idle))

/-- The owner can enter a critical section. -/
def canRead (cfg : Config) (owner : Fin n) (s : NotifySystem n σ) : Bool :=
  s.canNotify cfg (.task owner) && decide (.task owner ∉ s.notifying)

/-- `sem.Signal()` by a notifier that can make it. -/
def signal (cfg : Config) (s : NotifySystem n σ) (c : Notifier n) : NotifySystem n σ :=
  match s.sem.stepResult cfg c.signal with
  | (sem, some _) => { s with sem := sem }
  | (_, none) => { s with asserted := true }

/-- `sem.Wait(timeout)` up to its end, or up to the spin. -/
def waitSem (cfg : Config) (owner : Fin n) (s : NotifySystem n σ) (reader : Reader) (ticksToWait : ℤ) :
    NotifySystem n σ × NotifyReply :=
  match s.sem.stepResult cfg (.call owner (.wait (frtosTimeoutToStk ticksToWait))) with
  | (sem, some (.bool true)) => ({ s with sem := sem, call := .acquired reader }, .ready true)
  | (sem, some _) => ({ s with sem := sem, call := .idle }, .ready false)
  | (sem, none) => ({ s with sem := sem, call := .waiting reader }, .ready false)

/-- The last section of `ulTaskNotifyTake` and of `xTaskNotifyWait`. -/
def read (s : NotifySystem n σ) : Reader → NotifySystem n σ × NotifyReply
  | .take clearCountOnExit =>
    let val := s.slot.value
    let value := if clearCountOnExit then 0 else if val ≠ 0 then val - 1 else val
    ({ s with slot := { s.slot with value := value }, call := .idle }, .value (val + 1))
  | .wait bitsToClearOnExit =>
    ({ s with slot := ⟨s.slot.value &&& ~~~bitsToClearOnExit, false⟩, call := .idle }, .received s.slot.value)

/-- `xTaskNotifyStateClear`; `TryWait` runs in the same critical section. -/
def stateClear (cfg : Config) (owner : Fin n) (s : NotifySystem n σ) : NotifySystem n σ × NotifyReply :=
  let wasPending := decide (s.sem.state.count ≠ 0) || s.slot.pending
  if wasPending then
    ({ s with sem := s.sem.step cfg (.call owner (.wait 0)), slot := { s.slot with pending := false } }, .cleared true)
  else (s, .cleared false)

/-- One critical section, or one kernel call; a section that cannot be run gives no reply. -/
def stepResult (cfg : Config) (owner : Fin n) (s : NotifySystem n σ) :
    NotifyEvent n → NotifySystem n σ × Option NotifyReply
  | .give c =>
    if s.canNotify cfg c && s.isFree owner c then
      ({ s.signal cfg c with gave := true }, some (.notified true s.slot.value))
    else (s, none)
  | .notify c ulValue action =>
    if s.canNotify cfg c && s.isFree owner c then
      let r := notifyApplyAction s.slot ulValue action
      if r.2 then
        ({ s with slot := r.1, notifying := c :: s.notifying, gave := false }, some (.notified true s.slot.value))
      else (s, some (.notified false s.slot.value))
    else (s, none)
  | .signal c =>
    if s.canNotify cfg c && decide (c ∈ s.notifying) then
      ({ s.signal cfg c with notifying := s.notifying.erase c }, none)
    else (s, none)
  | .take clearCountOnExit ticksToWait =>
    if s.canRead cfg owner && decide (s.call = .idle) then
      let r := s.waitSem cfg owner (.take clearCountOnExit) ticksToWait
      (r.1, some r.2)
    else (s, none)
  | .enterWait bitsToClearOnEntry bitsToClearOnExit ticksToWait =>
    if s.canRead cfg owner && decide (s.call = .idle) then
      ({ s with
          slot := { s.slot with value := s.slot.value &&& ~~~bitsToClearOnEntry }
          call := .entered bitsToClearOnExit ticksToWait }, some .void)
    else (s, none)
  | .wait =>
    match s.call with
    | .entered bitsToClearOnExit ticksToWait =>
      if s.canRead cfg owner then
        let r := s.waitSem cfg owner (.wait bitsToClearOnExit) ticksToWait
        (r.1, some r.2)
      else (s, none)
    | _ => (s, none)
  | .resume =>
    match s.call, s.sem.stepResult cfg (.resume owner) with
    | .waiting reader, (sem, some (.bool true)) => ({ s with sem := sem, call := .acquired reader }, none)
    | .waiting reader, (sem, some _) => ({ s with sem := sem, call := .idle }, some reader.refused)
    | _, _ => (s, none)
  | .read =>
    match s.call with
    | .acquired reader =>
      if s.canRead cfg owner then
        let r := s.read reader
        (r.1, some r.2)
      else (s, none)
    | _ => (s, none)
  | .stateClear =>
    if s.canRead cfg owner && decide (s.call = .idle) then
      let r := s.stateClear cfg owner
      (r.1, some r.2)
    else (s, none)
  | .valueClear bitsToClear =>
    if s.canRead cfg owner && decide (s.call = .idle) then
      ({ s with slot := { s.slot with value := s.slot.value &&& ~~~bitsToClear } }, some (.value s.slot.value))
    else (s, none)
  | .kernel e => ({ s with sem := s.sem.step cfg (.kernel e) }, none)

def step (cfg : Config) (owner : Fin n) (s : NotifySystem n σ) (e : NotifyEvent n) : NotifySystem n σ :=
  (s.stepResult cfg owner e).1

end NotifySystem

/-! ## The notification of FreeRTOS -/

/-- `ulNotifiedValue`, and whether `ucNotifyState` is `taskNOTIFICATION_RECEIVED` (tasks.c). -/
structure Notification where
  value : BitVec 32
  received : Bool
deriving DecidableEq

inductive NotificationOp where
  | notify (ulValue : BitVec 32) (action : NotifyAction)
  | clearOnEntry (bits : BitVec 32)
  /-- Does a `Take` or a `Wait` go on without blocking? -/
  | begins (isTake : Bool)
  | read (reader : Reader)
  | stateClear
  | valueClear (bits : BitVec 32)
deriving DecidableEq

namespace Notification

/-- The action of a notification that is not refused. -/
def written (value ulValue : BitVec 32) : NotifyAction → BitVec 32
  | .noAction => value
  | .setBits => value ||| ulValue
  | .increment => value + 1
  | .setValueWithOverwrite | .setValueWithoutOverwrite => ulValue

/-- One operation (tasks.c:7691-8410); the bits on entry are cleared before the check, as task.h has it.  A call
that has waited in vain runs its last section too (tasks.c:7756-7781, 7864-7895); the value that `xTaskNotifyWait`
then stores through its pointer is left out. -/
def step (a : Notification) : NotificationOp → Notification × NotifyReply
  | .notify ulValue action =>
    if action = .setValueWithoutOverwrite ∧ a.received = true then (a, .notified false a.value)
    else (⟨written a.value ulValue action, true⟩, .notified true a.value)
  | .clearOnEntry bits => ({ a with value := a.value &&& ~~~bits }, .void)
  | .begins isTake => (a, .ready (if isTake then decide (a.value ≠ 0) else a.received))
  | .read (.take clear) =>
    (⟨if a.value = 0 then 0 else if clear then 0 else a.value - 1, false⟩, .value a.value)
  | .read (.wait bits) =>
    if a.received then (⟨a.value &&& ~~~bits, false⟩, .received a.value) else ({ a with received := false }, .timedOut)
  | .stateClear => ({ a with received := false }, .cleared a.received)
  | .valueClear bits => ({ a with value := a.value &&& ~~~bits }, .value a.value)

end Notification

end Stk.Model
