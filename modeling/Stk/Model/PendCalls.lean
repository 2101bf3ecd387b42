import Stk.Model.TimerHost

/-!
# Deferred calls of the FreeRTOS interface

`xTimerPendFunctionCall` and `xTimerPendFunctionCallFromISR` (freertos_stk.cpp:2834-2891) write a record to
`g_PendCallPipe` and re-arm a periodic timer, whose `OnExpired` calls the functions of the records and then
stops the timer (freertos_stk.cpp:841-885).  The pipe is a list with a capacity, and a call of `Write` that does not
block is one step; so are a look at `g_PendDrainer`, the test of `m_rearming`, the write of the flag, a read of
the pipe, a call of a function, and the test and the `Write` of `Stop`.  The host has been created, and the
wrapper does not shut it down.
-/

set_option autoImplicit false

namespace Stk.Model

/-- `PendCall`; `func` is an address, and 0 is the null pointer. -/
structure PendCall where
  func : ℕ
  param1 : ℕ
  param2 : UInt32
deriving DecidableEq

/-- Where a call of `xTimerPendFunctionCall` or `xTimerPendFunctionCallFromISR` is, once its record is in the
pipe. -/
inductive PendStage where
  /-- About to look at `g_PendDrainer`. -/
  | written (fromIsr : Bool)
  /-- It has found no drainer. -/
  | constructing
  /-- About to call `Restart`. -/
  | kicking
  /-- In `PushCommand`. -/
  | restarting
deriving DecidableEq

/-- Where a handler task is in `FrtosPendDrainer::OnExpired`. -/
inductive DrainStage where
  /-- About to call `TryRead`. -/
  | reading
  /-- About to call the function. -/
  | calling (call : PendCall)
  /-- It has found the pipe empty, and is about to call `Stop`. -/
  | emptied
  /-- In `PushCommand`. -/
  | stopping
deriving DecidableEq

/-- The host with the tasks and interrupt handlers `ι`, and the deferred calls.  A handler task calls the API of
the host in `OnExpired` only. -/
structure PendSystem (τ ι : Type) (threads : ℕ) where
  timers : TimerSystem τ (ι ⊕ Fin threads) threads
  /-- `g_PendDrainer` is set. -/
  constructed : Bool
  pipe : List PendCall
  pending : ι → Option PendStage
  draining : Fin threads → Option DrainStage

inductive PendEvent (τ ι : Type) (threads : ℕ) where
  | timer (e : TimerEvent τ (ι ⊕ Fin threads) threads)
  | xTimerPendFunctionCall (i : ι) (call : PendCall)
  | xTimerPendFunctionCallFromISR (i : ι) (call : PendCall)
  /-- A call of these goes on. -/
  | proceed (i : ι)
  /-- A handler task goes on in `OnExpired` of the drainer. -/
  | drain (j : Fin threads)
deriving DecidableEq

namespace PendSystem

variable {τ ι : Type} {threads : ℕ} [DecidableEq τ] [DecidableEq ι]

/-- `drainer` is the storage of `g_PendDrainerBuf`. -/
def initial : PendSystem τ ι threads := ⟨.initial, false, [], fun _ => none, fun _ => none⟩

/-- What the rest of the system does with the host.  A task in a deferred call and a handler task in `OnExpired`
do nothing else, and only the deferred calls have the drainer. -/
def permits (drainer : τ) (s : PendSystem τ ι threads) : TimerEvent τ (ι ⊕ Fin threads) threads → Bool
  | .tick | .update | .updateTimeout => true
  | .call (.inl i) t _ => (s.pending i).isNone && decide (t ≠ drainer)
  | .setRearming (.inl i) | .write (.inl i) => (s.pending i).isNone
  | .handle j | .handleTimeout j => (s.draining j).isNone
  | .call (.inr _) _ _ | .setRearming (.inr _) | .write (.inr _) | .shutdown _ => false

/-- A step of the host; a handler task that finds the drainer expired enters its `OnExpired`. -/
def timerStep (drainer : τ) (countMax : ℕ) (s : PendSystem τ ι threads)
    (e : TimerEvent τ (ι ⊕ Fin threads) threads) : PendSystem τ ι threads :=
  { s with
    timers := s.timers.step countMax e
    draining := match e with
      | .handle j =>
        if s.timers.onExpired e = some drainer then Function.update s.draining j (some .reading) else s.draining
      | _ => s.draining }

/-- The two functions, up to `Write` or `TryWrite`. -/
def pend (capacity : ℕ) (s : PendSystem τ ι threads) (i : ι) (fromIsr : Bool) (call : PendCall) :
    PendSystem τ ι threads :=
  if s.pending i = none ∧ s.timers.caller (.inl i) = none ∧ call.func ≠ 0 ∧ s.pipe.length < capacity then
    { s with pipe := s.pipe ++ [call], pending := Function.update s.pending i (some (.written fromIsr)) }
  else s

/-- `EnsurePendDrainer` and `KickPendDrainerFromISR`. -/
def proceed (drainer : τ) (countMax : ℕ) (s : PendSystem τ ι threads) (i : ι) : PendSystem τ ι threads :=
  match s.pending i with
  | none => s
  | some (.written fromIsr) =>
    if s.constructed then { s with pending := Function.update s.pending i (some .kicking) }
    else if fromIsr then { s with pending := Function.update s.pending i none }
    else { s with pending := Function.update s.pending i (some .constructing) }
  | some .constructing =>
    { s with
      timers := { s.timers with host := s.timers.host.setTimer drainer .initial }
      constructed := true
      pending := Function.update s.pending i (some .kicking) }
  | some .kicking =>
    let r := s.timers.stepResult countMax (.call (.inl i) drainer (.restart 1 1))
    { s with
      timers := r.1
      pending := Function.update s.pending i (if r.2.isSome then none else some .restarting) }
  | some .restarting =>
    match s.timers.caller (.inl i) with
    | some (.tested _) => { s with timers := s.timers.step countMax (.setRearming (.inl i)) }
    | _ =>
      { s with
        timers := s.timers.step countMax (.write (.inl i))
        pending := Function.update s.pending i none }

/-- `FrtosPendDrainer::OnExpired`. -/
def drain (drainer : τ) (countMax : ℕ) (s : PendSystem τ ι threads) (j : Fin threads) : PendSystem τ ι threads :=
  match s.draining j with
  | none => s
  | some .reading =>
    match s.pipe with
    | call :: pipe => { s with pipe := pipe, draining := Function.update s.draining j (some (.calling call)) }
    | [] => { s with draining := Function.update s.draining j (some .emptied) }
  | some (.calling _) => { s with draining := Function.update s.draining j (some .reading) }
  | some .emptied =>
    let r := s.timers.stepResult countMax (.call (.inr j) drainer .stop)
    { s with
      timers := r.1
      draining := Function.update s.draining j (if r.2.isSome then none else some .stopping) }
  | some .stopping =>
    { s with
      timers := s.timers.step countMax (.write (.inr j))
      draining := Function.update s.draining j none }

/-- One step; a step that cannot be taken changes nothing. -/
def step (drainer : τ) (capacity countMax : ℕ) (s : PendSystem τ ι threads) :
    PendEvent τ ι threads → PendSystem τ ι threads
  | .timer e => if s.permits drainer e then s.timerStep drainer countMax e else s
  | .xTimerPendFunctionCall i call => s.pend capacity i false call
  | .xTimerPendFunctionCallFromISR i call => s.pend capacity i true call
  | .proceed i => s.proceed drainer countMax i
  | .drain j => s.drain drainer countMax j

def run (drainer : τ) (capacity countMax : ℕ) (s : PendSystem τ ι threads) (es : List (PendEvent τ ι threads)) :
    PendSystem τ ι threads :=
  es.foldl (step drainer capacity countMax) s

/-! ## What is accepted and executed -/

/-- The call that a step accepts. -/
def accepted (capacity : ℕ) (s : PendSystem τ ι threads) : PendEvent τ ι threads → Option PendCall
  | .xTimerPendFunctionCall i call | .xTimerPendFunctionCallFromISR i call =>
    if s.pending i = none ∧ s.timers.caller (.inl i) = none ∧ call.func ≠ 0 ∧ s.pipe.length < capacity then some call
    else none
  | _ => none

/-- The call whose function a step calls. -/
def executed (s : PendSystem τ ι threads) : PendEvent τ ι threads → Option PendCall
  | .drain j =>
    match s.draining j with
    | some (.calling call) => some call
    | _ => none
  | _ => none

end PendSystem

end Stk.Model
