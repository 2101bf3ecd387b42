import Mathlib.Logic.Function.Basic
import Stk.Model.Pipe

/-!
# Software timers

`TimerHost` (stk_time_timer.h): the callers of the API push commands to the tick task, the tick task keeps the
list of active timers and pushes expired timers to the handler tasks, and the handler tasks call
`OnExpired`.  The two pipes are lists with a capacity, and a call of `Write` or `Read` that does not block is
one step.  A call of the API is a step up to the test of `m_rearming`, one for the write of the flag and one
for `Write`; an iteration of a handler task is one step.
-/

set_option autoImplicit false

namespace Stk.Model

/-- `TimerHost::Timer`. -/
structure Timer where
  deadline : ℤ
  timestamp : ℤ
  period : ℕ
  active : Bool
  pending : Bool
  rearming : Bool
deriving DecidableEq

/-- `TimerCommand`: each command with the fields that its branch of `ProcessCommands` reads. -/
inductive TimerCommand (τ : Type) where
  | shutdown
  | start (timer : τ) (timestamp : ℤ) (delay period : ℕ)
  | stop (timer : τ)
  | reset (timer : τ) (timestamp : ℤ)
  | restart (timer : τ) (timestamp : ℤ) (delay period : ℕ)
  | startOrReset (timer : τ) (timestamp : ℤ) (delay period : ℕ)
  | setPeriod (timer : τ) (period : ℕ)
deriving DecidableEq

/-- A call of the API on a timer. -/
inductive TimerRequest where
  | start (delay period : ℕ)
  | stop
  | reset
  | restart (delay period : ℕ)
  | startOrReset (delay period : ℕ)
  | setPeriod (period : ℕ)
deriving DecidableEq

/-- What a method of the API does: it returns, or it calls `PushCommand`. -/
inductive CallSite (τ : Type) where
  | returns (success : Bool)
  | pushes (cmd : TimerCommand τ)

/-- Where a caller is in `PushCommand`. -/
inductive Push (τ : Type) where
  /-- It has found `m_rearming` clear and is about to set it. -/
  | tested (cmd : TimerCommand τ)
  /-- It is about to call `Write`. -/
  | writing (cmd : TimerCommand τ)
deriving DecidableEq

/-- The assertions of `stk_time_timer.h` that can fail. -/
inductive TimerFault where
  /-- `STK_ASSERT(!tmr->IsLinked())`. -/
  | linked
  /-- `STK_ASSERT(tmr->GetHead() == &m_active)`. -/
  | unlinked
  /-- `STK_ASSERT(next_deadline > 0)`. -/
  | lateDeadline
  /-- `STK_ASSERT(false)` of `PushCommand`. -/
  | queueFull
deriving DecidableEq

/-- `TimerHost`; `none` in `queue` is the shutdown sentinel.  `faults` are the assertions that have failed. -/
structure TimerHost (τ : Type) where
  timer : τ → Timer
  active : List τ
  queue : List (Option τ)
  commands : List (TimerCommand τ)
  now : ℤ
  faults : List TimerFault

namespace Timer

/-- The constructor (stk_time_timer.h:143-146). -/
def initial : Timer := ⟨0, 0, 0, false, false, false⟩

/-- The timer starts with these parameters. -/
def arm (tmr : Timer) (deadline : ℤ) (period : ℕ) : Timer :=
  { tmr with deadline := deadline, period := period, active := true, pending := false }

/-- An active timer whose deadline has passed at `now` (stk_time_timer.h:717-740). -/
def expire (tmr : Timer) (now : ℤ) : Timer :=
  let diff := now - tmr.deadline
  if tmr.period ≠ 0 then
    { tmr with timestamp := now, pending := true, deadline := now + tmr.period - diff }
  else { tmr with timestamp := now, pending := true, active := false }

end Timer

namespace TimerCommand

variable {τ : Type}

/-- `cmd.timer`. -/
def timer : TimerCommand τ → Option τ
  | .shutdown => none
  | .start t _ _ _ => some t
  | .stop t => some t
  | .reset t _ => some t
  | .restart t _ _ _ => some t
  | .startOrReset t _ _ _ => some t
  | .setPeriod t _ => some t

/-- The timer of a command with `is_rearm`. -/
def rearms : TimerCommand τ → Option τ
  | .restart t _ _ _ => some t
  | .startOrReset t _ _ _ => some t
  | _ => none

end TimerCommand

namespace TimerHost

variable {τ : Type}

/-- The constructor. -/
def initial : TimerHost τ := ⟨fun _ => .initial, [], [], [], 0, []⟩

/-! ## The API, up to `PushCommand` -/

def start (h : TimerHost τ) (tmr : τ) (ticks : ℤ) (delay period : ℕ) : CallSite τ :=
  if !(h.timer tmr).active then .pushes (.start tmr ticks delay period) else .returns true

def stop (h : TimerHost τ) (tmr : τ) : CallSite τ :=
  if (h.timer tmr).active then .pushes (.stop tmr) else .returns true

def reset (h : TimerHost τ) (tmr : τ) (ticks : ℤ) : CallSite τ :=
  if (h.timer tmr).active && decide ((h.timer tmr).period ≠ 0) then .pushes (.reset tmr ticks)
  else .returns false

def restart (tmr : τ) (ticks : ℤ) (delay period : ℕ) : CallSite τ := .pushes (.restart tmr ticks delay period)

def startOrReset (tmr : τ) (ticks : ℤ) (delay period : ℕ) : CallSite τ :=
  .pushes (.startOrReset tmr ticks delay period)

def setPeriod (h : TimerHost τ) (tmr : τ) (period : ℕ) : CallSite τ :=
  if (h.timer tmr).active && decide ((h.timer tmr).period ≠ 0) && decide (period ≠ 0) &&
      decide ((period : ℤ) ≤ waitInfinite) then
    .pushes (.setPeriod tmr period)
  else .returns false

/-- The method called at the tick `ticks`. -/
def request (h : TimerHost τ) (tmr : τ) (ticks : ℤ) : TimerRequest → CallSite τ
  | .start delay period => h.start tmr ticks delay period
  | .stop => h.stop tmr
  | .reset => h.reset tmr ticks
  | .restart delay period => restart tmr ticks delay period
  | .startOrReset delay period => startOrReset tmr ticks delay period
  | .setPeriod period => h.setPeriod tmr period

/-! ## `PushCommand` -/

/-- `PushCommand` up to the write of the flag; `none` if the command is coalesced. -/
def pushTest (h : TimerHost τ) (cmd : TimerCommand τ) : Option (Push τ) :=
  match cmd.rearms with
  | some t => if (h.timer t).rearming then none else some (.tested cmd)
  | none => some (.writing cmd)

section

variable [DecidableEq τ]

def setTimer (h : TimerHost τ) (t : τ) (tmr : Timer) : TimerHost τ :=
  { h with timer := Function.update h.timer t tmr }

/-- `cmd.timer->m_rearming = value`, for a command with `is_rearm`. -/
def setRearming (h : TimerHost τ) (cmd : TimerCommand τ) (value : Bool) : TimerHost τ :=
  match cmd.rearms with
  | some t => h.setTimer t { h.timer t with rearming := value }
  | none => h

/-- `Write(cmd, NO_WAIT)` and what follows it in `PushCommand`. -/
def pushWrite (countMax : ℕ) (h : TimerHost τ) (cmd : TimerCommand τ) : TimerHost τ × Bool :=
  if h.commands.length < countMax then ({ h with commands := h.commands ++ [cmd] }, true)
  else ({ h.setRearming cmd false with faults := .queueFull :: h.faults }, false)

/-! ## `ProcessCommands` -/

/-- `STK_ASSERT(ok)`. -/
def check (h : TimerHost τ) (fault : TimerFault) (ok : Bool) : TimerHost τ :=
  if ok then h else { h with faults := fault :: h.faults }

def linkBack (h : TimerHost τ) (t : τ) : TimerHost τ := { h with active := h.active ++ [t] }

def unlink (h : TimerHost τ) (t : τ) : TimerHost τ := { h with active := h.active.erase t }

/-- One command of the loop, except `CMD_SHUTDOWN`; the second component is `next_sleep`. -/
def processCommand (h : TimerHost τ) (nextSleep : ℤ) : TimerCommand τ → TimerHost τ × ℤ
  | .shutdown => (h, nextSleep)
  | .start t timestamp delay period =>
    if !(h.timer t).active then
      let h := h.check .linked (decide (t ∉ h.active))
      ((h.setTimer t ((h.timer t).arm (timestamp + delay) period)).linkBack t, noWait)
    else (h, nextSleep)
  | .stop t =>
    let h := h.setTimer t { h.timer t with active := false, pending := false }
    (if t ∈ h.active then h.unlink t else h, nextSleep)
  | .reset t timestamp =>
    if (h.timer t).active && decide ((h.timer t).period ≠ 0) then
      let h := h.check .unlinked (decide (t ∈ h.active))
      (h.setTimer t { h.timer t with deadline := timestamp + (h.timer t).period, pending := false }, noWait)
    else (h, nextSleep)
  | .restart t timestamp delay period =>
    let h := if t ∈ h.active then h.unlink t else h
    ((h.setTimer t { (h.timer t).arm (timestamp + delay) period with rearming := false }).linkBack t, noWait)
  | .startOrReset t timestamp delay period =>
    if !(h.timer t).active then
      let h := h.check .linked (decide (t ∉ h.active))
      ((h.setTimer t { (h.timer t).arm (timestamp + delay) period with rearming := false }).linkBack t, noWait)
    else if (h.timer t).period ≠ 0 then
      let h := h.check .unlinked (decide (t ∈ h.active))
      (h.setTimer t { h.timer t with deadline := timestamp + (h.timer t).period, pending := false }, noWait)
    else (h, noWait)
  | .setPeriod t period =>
    if (h.timer t).active && decide ((h.timer t).period ≠ 0) then
      let h := h.check .unlinked (decide (t ∈ h.active))
      (h.setTimer t { h.timer t with period := period }, nextSleep)
    else (h, nextSleep)

end

end TimerHost

/-! ## The tasks -/

/-- Where the tick task is. -/
inductive TickTask (τ : Type) where
  /-- In `ProcessCommands`, about to call `Read(cmd, next_sleep)`. -/
  | looping (nextSleep : ℤ)
  /-- In `Read`, blocked at the tick `since`. -/
  | reading (nextSleep since : ℤ)
  /-- In `UpdateTime`, with the timers not yet visited. -/
  | walking (now nextSleep : ℤ) (rest : List τ)
  /-- In `m_queue.Write(tmr)`. -/
  | writing (tmr : τ) (oneShot : Bool) (since now nextSleep : ℤ) (rest : List τ)
  /-- In the branch of `CMD_SHUTDOWN`, with the sentinels not yet written. -/
  | stopping (remaining : ℕ)
  /-- `UpdateTime` has returned. -/
  | finished
deriving DecidableEq

/-- Where a handler task is. -/
inductive Handler where
  /-- About to call `Read(tmr)`. -/
  | looping
  /-- In `Read`, blocked at the tick `since`. -/
  | reading (since : ℤ)
  /-- `ProcessTimers` has returned. -/
  | finished
deriving DecidableEq

/-- A host with its tasks and the callers `ι` of its API. -/
structure TimerSystem (τ ι : Type) (threads : ℕ) where
  host : TimerHost τ
  ticks : ℤ
  tickTask : TickTask τ
  handler : Fin threads → Handler
  caller : ι → Option (Push τ)

inductive TimerEvent (τ ι : Type) (threads : ℕ) where
  /-- A tick passes. -/
  | tick
  | call (i : ι) (tmr : τ) (request : TimerRequest)
  | shutdown (i : ι)
  /-- A caller sets `m_rearming`. -/
  | setRearming (i : ι)
  /-- A caller calls `Write`. -/
  | write (i : ι)
  /-- The tick task goes on. -/
  | update
  /-- The wait of the tick task runs out. -/
  | updateTimeout
  /-- A handler task goes on. -/
  | handle (j : Fin threads)
  /-- The wait of a handler task runs out. -/
  | handleTimeout (j : Fin threads)
deriving DecidableEq

namespace TimerSystem

variable {τ ι : Type} {threads : ℕ}

/-- After `Initialize`. -/
def initial : TimerSystem τ ι threads :=
  ⟨.initial, 0, .looping waitInfinite, fun _ => .looping, fun _ => none⟩

/-! ## The tick task -/

/-- The tick task calls `ProcessCommands(next_sleep)`. -/
def enterCommands (s : TimerSystem τ ι threads) (nextSleep : ℤ) : TimerSystem τ ι threads :=
  { s with tickTask := .looping (if s.host.active = [] then waitInfinite else nextSleep) }

/-- `ProcessCommands` has returned `true`. -/
def enterWalk (s : TimerSystem τ ι threads) : TimerSystem τ ι threads :=
  { s with
    host := { s.host with now := s.ticks }
    tickTask := .walking s.ticks waitInfinite s.host.active }

/-- `next_sleep` after the visit of a timer that stays active. -/
def nextSleepAfter (deadline now nextSleep : ℤ) : ℤ :=
  let nextDeadline := toTimeout (deadline - now)
  if 0 < nextDeadline ∧ nextDeadline < nextSleep then nextDeadline else nextSleep

section

variable [DecidableEq τ]

/-- `Read` has returned the first command. -/
def takeCommand (s : TimerSystem τ ι threads) (nextSleep : ℤ) (cmd : TimerCommand τ)
    (commands : List (TimerCommand τ)) : TimerSystem τ ι threads :=
  match cmd with
  | .shutdown => { s with host := { s.host with commands := commands }, tickTask := .stopping threads }
  | cmd =>
    let r := TimerHost.processCommand { s.host with commands := commands } nextSleep cmd
    { s with host := r.1, tickTask := .looping r.2 }

/-- The end of the visit of a timer (stk_time_timer.h:749-758). -/
def endVisit (s : TimerSystem τ ι threads) (tmr : τ) (oneShot : Bool) (now nextSleep : ℤ) (rest : List τ) :
    TimerSystem τ ι threads :=
  if oneShot then { s with tickTask := .walking now nextSleep rest }
  else
    let deadline := (s.host.timer tmr).deadline
    { s with
      host := s.host.check .lateDeadline (decide (0 < toTimeout (deadline - now)))
      tickTask := .walking now (nextSleepAfter deadline now nextSleep) rest }

/-- The visit of a timer by the loop of `UpdateTime`, up to `m_queue.Write`. -/
def visit (s : TimerSystem τ ι threads) (tmr : τ) (now nextSleep : ℤ) (rest : List τ) :
    TimerSystem τ ι threads :=
  if (s.host.timer tmr).active then
    if !(s.host.timer tmr).pending then
      if now - (s.host.timer tmr).deadline ≥ 0 then
        let oneShot := decide ((s.host.timer tmr).period = 0)
        let host := s.host.setTimer tmr ((s.host.timer tmr).expire now)
        { s with
          host := if oneShot then host.unlink tmr else host
          tickTask := .writing tmr oneShot s.ticks now nextSleep rest }
      else s.endVisit tmr false now nextSleep rest
    else { s with tickTask := .walking now nextSleep rest }
  else { s with host := s.host.unlink tmr, tickTask := .walking now nextSleep rest }

/-- The tick task goes on up to its next critical section. -/
def update (countMax : ℕ) (s : TimerSystem τ ι threads) : TimerSystem τ ι threads :=
  match s.tickTask with
  | .looping nextSleep =>
    match s.host.commands with
    | cmd :: commands => s.takeCommand nextSleep cmd commands
    | [] => if nextSleep = noWait then s.enterWalk else { s with tickTask := .reading nextSleep s.ticks }
  | .reading nextSleep _ =>
    match s.host.commands with
    | cmd :: commands => s.takeCommand nextSleep cmd commands
    | [] => s
  | .walking now nextSleep (tmr :: rest) => s.visit tmr now nextSleep rest
  | .walking _ nextSleep [] => s.enterCommands nextSleep
  | .writing tmr oneShot _ now nextSleep rest =>
    if s.host.queue.length < countMax then
      endVisit { s with host := { s.host with queue := s.host.queue ++ [some tmr] } } tmr oneShot now nextSleep rest
    else s
  | .stopping (remaining + 1) =>
    { s with
      host := if s.host.queue.length < countMax then { s.host with queue := s.host.queue ++ [none] } else s.host
      tickTask := .stopping remaining }
  | .stopping 0 => { s with host := { s.host with active := [] }, tickTask := .finished }
  | .finished => s

/-- `Read` or `Write` of the tick task returns `false`. -/
def updateTimeout (s : TimerSystem τ ι threads) : TimerSystem τ ι threads :=
  match s.tickTask with
  | .reading nextSleep since => if since + nextSleep ≤ s.ticks then s.enterWalk else s
  | .writing tmr oneShot since now nextSleep rest =>
    if since + waitInfinite ≤ s.ticks then s.endVisit tmr oneShot now nextSleep rest else s
  | _ => s

/-! ## The handler tasks -/

/-- `Read` has returned the first pointer (stk_time_timer.h:791-804). -/
def takePointer (s : TimerSystem τ ι threads) (j : Fin threads) (ptr : Option τ) (queue : List (Option τ)) :
    TimerSystem τ ι threads :=
  let s : TimerSystem τ ι threads := { s with host := { s.host with queue := queue } }
  match ptr with
  | none => { s with handler := Function.update s.handler j .finished }
  | some t =>
    { s with
      host := if (s.host.timer t).pending then s.host.setTimer t { s.host.timer t with pending := false } else s.host
      handler := Function.update s.handler j .looping }

/-- A handler task goes on up to its next `Read`. -/
def handle (s : TimerSystem τ ι threads) (j : Fin threads) : TimerSystem τ ι threads :=
  match s.handler j, s.host.queue with
  | .finished, _ => s
  | .looping, [] => { s with handler := Function.update s.handler j (.reading s.ticks) }
  | .reading _, [] => s
  | _, ptr :: queue => s.takePointer j ptr queue

/-- `Read` of a handler task returns `false`. -/
def handleTimeout (s : TimerSystem τ ι threads) (j : Fin threads) : TimerSystem τ ι threads :=
  match s.handler j with
  | .reading since =>
    if since + waitInfinite ≤ s.ticks then { s with handler := Function.update s.handler j .finished } else s
  | _ => s

/-- The timer whose `OnExpired` a handler task calls in a step. -/
def onExpired (s : TimerSystem τ ι threads) : TimerEvent τ ι threads → Option τ
  | .handle j =>
    match s.handler j, s.host.queue with
    | .finished, _ => none
    | _, some t :: _ => if (s.host.timer t).pending then some t else none
    | _, _ => none
  | _ => none

/-! ## The callers -/

variable [DecidableEq ι]

/-- A caller runs a method up to its first write; the result is what the method returns, if it does. -/
def callAt (s : TimerSystem τ ι threads) (i : ι) : CallSite τ → TimerSystem τ ι threads × Option Bool
  | .returns success => (s, some success)
  | .pushes cmd =>
    match s.host.pushTest cmd with
    | some push => ({ s with caller := Function.update s.caller i (some push) }, none)
    | none => (s, some true)

/-- One step; a step that cannot be taken changes nothing.  The result is what a call of the API returns. -/
def stepResult (countMax : ℕ) (s : TimerSystem τ ι threads) :
    TimerEvent τ ι threads → TimerSystem τ ι threads × Option Bool
  | .tick => ({ s with ticks := s.ticks + 1 }, none)
  | .call i tmr request => if s.caller i = none then s.callAt i (s.host.request tmr s.ticks request) else (s, none)
  | .shutdown i => if s.caller i = none then s.callAt i (.pushes .shutdown) else (s, none)
  | .setRearming i =>
    match s.caller i with
    | some (.tested cmd) =>
      ({ s with
          host := s.host.setRearming cmd true
          caller := Function.update s.caller i (some (.writing cmd)) }, none)
    | _ => (s, none)
  | .write i =>
    match s.caller i with
    | some (.writing cmd) =>
      let r := s.host.pushWrite countMax cmd
      ({ s with host := r.1, caller := Function.update s.caller i none }, some r.2)
    | _ => (s, none)
  | .update => (s.update countMax, none)
  | .updateTimeout => (s.updateTimeout, none)
  | .handle j => (s.handle j, none)
  | .handleTimeout j => (s.handleTimeout j, none)

def step (countMax : ℕ) (s : TimerSystem τ ι threads) (e : TimerEvent τ ι threads) : TimerSystem τ ι threads :=
  (s.stepResult countMax e).1

def run (countMax : ℕ) (s : TimerSystem τ ι threads) (es : List (TimerEvent τ ι threads)) :
    TimerSystem τ ι threads :=
  es.foldl (step countMax) s

end

end TimerSystem

end Stk.Model
