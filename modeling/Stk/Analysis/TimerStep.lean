import Stk.Model.TimerHost

/-!
# The steps of a timer host

What a command does with its timer is a function of the timer and the command (`Timer.apply`).
`TimerSystem.Transition` lists what a step can do, and `step_transition` says that a step does one of
these; the invariants are proved from that list.
-/

set_option autoImplicit false

namespace Stk.Model

/-- What `ProcessCommands` does with the timer of a command. -/
def Timer.apply {τ : Type} (tmr : Timer) : TimerCommand τ → Timer
  | .shutdown => tmr
  | .start _ timestamp delay period => if !tmr.active then tmr.arm (timestamp + delay) period else tmr
  | .stop _ => { tmr with active := false, pending := false }
  | .reset _ timestamp =>
    if tmr.active && decide (tmr.period ≠ 0) then
      { tmr with deadline := timestamp + tmr.period, pending := false }
    else tmr
  | .restart _ timestamp delay period => { tmr.arm (timestamp + delay) period with rearming := false }
  | .startOrReset _ timestamp delay period =>
    if !tmr.active then { tmr.arm (timestamp + delay) period with rearming := false }
    else if tmr.period ≠ 0 then { tmr with deadline := timestamp + tmr.period, pending := false }
    else tmr
  | .setPeriod _ period => if tmr.active && decide (tmr.period ≠ 0) then { tmr with period := period } else tmr

/-- INTERNAL: an expiry keeps `m_rearming`. -/
@[simp] theorem Timer.expire_rearming (tmr : Timer) (now : ℤ) : (tmr.expire now).rearming = tmr.rearming := by
  unfold Timer.expire
  split <;> rfl

/-- INTERNAL: an expiry keeps the period. -/
@[simp] theorem Timer.expire_period (tmr : Timer) (now : ℤ) : (tmr.expire now).period = tmr.period := by
  unfold Timer.expire
  split <;> rfl

/-- INTERNAL: an expired timer is pending. -/
@[simp] theorem Timer.expire_pending (tmr : Timer) (now : ℤ) : (tmr.expire now).pending = true := by
  unfold Timer.expire
  split <;> rfl

/-- INTERNAL: a one-shot timer is active no longer. -/
theorem Timer.expire_active (tmr : Timer) (now : ℤ) (hactive : tmr.active = true) :
    (tmr.expire now).active = decide (tmr.period ≠ 0) := by
  unfold Timer.expire
  split
  · rename_i hperiod
    exact hactive.trans (decide_eq_true hperiod).symm
  · rename_i hperiod
    exact (decide_eq_false hperiod).symm

/-- The reload is exact: the time by which the tick task is late drops out. -/
theorem Timer.expire_deadline (tmr : Timer) (now : ℤ) :
    (tmr.expire now).deadline = tmr.deadline + tmr.period := by
  unfold Timer.expire
  split
  · dsimp only
    omega
  · rename_i hperiod
    have hzero : tmr.period = 0 := not_not.mp hperiod
    simp [hzero]

namespace TimerHost

variable {τ : Type} [DecidableEq τ] (h : TimerHost τ)

omit [DecidableEq τ] in
/-- INTERNAL: an assertion changes no timer. -/
@[simp] theorem check_timer (f : TimerFault) (ok : Bool) : (h.check f ok).timer = h.timer := by
  unfold check
  split <;> rfl

omit [DecidableEq τ] in
/-- INTERNAL: an assertion changes no list. -/
@[simp] theorem check_active (f : TimerFault) (ok : Bool) : (h.check f ok).active = h.active := by
  unfold check
  split <;> rfl

omit [DecidableEq τ] in
/-- INTERNAL: an assertion leaves the queue. -/
@[simp] theorem check_queue (f : TimerFault) (ok : Bool) : (h.check f ok).queue = h.queue := by
  unfold check
  split <;> rfl

omit [DecidableEq τ] in
/-- INTERNAL: an assertion leaves the commands. -/
@[simp] theorem check_commands (f : TimerFault) (ok : Bool) : (h.check f ok).commands = h.commands := by
  unfold check
  split <;> rfl

/-- INTERNAL: the flag of the timer that the command rearms, and no other. -/
theorem setRearming_timer (cmd : TimerCommand τ) (value : Bool) (t : τ) :
    (h.setRearming cmd value).timer t =
      if cmd.rearms = some t then { h.timer t with rearming := value } else h.timer t := by
  unfold setRearming
  split
  · rename_i u hu
    by_cases ht : t = u
    · subst ht
      rw [if_pos hu]
      exact Function.update_self _ _ _
    · rw [if_neg (fun heq => ht (Option.some.inj (heq.symm.trans hu)))]
      exact Function.update_of_ne ht _ _
  · rename_i hnone
    rw [hnone]
    exact (if_neg (fun heq => by contradiction)).symm

/-- INTERNAL: the flag is not in the queue. -/
@[simp] theorem setRearming_queue (cmd : TimerCommand τ) (value : Bool) :
    (h.setRearming cmd value).queue = h.queue := by
  unfold setRearming
  split <;> rfl

/-- INTERNAL: the flag is not in the list. -/
@[simp] theorem setRearming_active (cmd : TimerCommand τ) (value : Bool) :
    (h.setRearming cmd value).active = h.active := by
  unfold setRearming
  split <;> rfl

/-- INTERNAL: the flag is not in the commands. -/
@[simp] theorem setRearming_commands (cmd : TimerCommand τ) (value : Bool) :
    (h.setRearming cmd value).commands = h.commands := by
  unfold setRearming
  split <;> rfl

/-- INTERNAL: the flag does not read the clock. -/
@[simp] theorem setRearming_now (cmd : TimerCommand τ) (value : Bool) : (h.setRearming cmd value).now = h.now := by
  unfold setRearming
  split <;> rfl

/-- A command changes its timer alone. -/
theorem processCommand_timer (nextSleep : ℤ) (cmd : TimerCommand τ) (t : τ) :
    (h.processCommand nextSleep cmd).1.timer t =
      if cmd.timer = some t then (h.timer t).apply cmd else h.timer t := by
  have hupdate : ∀ (u : τ) (tmr : Timer), (h.timer u).apply cmd = tmr → cmd.timer = some u →
      Function.update h.timer u tmr t = if cmd.timer = some t then (h.timer t).apply cmd else h.timer t := by
    intro u tmr happly htimer
    by_cases hu : t = u
    · rw [hu, Function.update_self, if_pos htimer, happly]
    · rw [Function.update_of_ne hu, if_neg (fun heq => hu (Option.some.inj (heq.symm.trans htimer)))]
  have hsame : ∀ u : τ, (h.timer u).apply cmd = h.timer u → cmd.timer = some u →
      h.timer t = if cmd.timer = some t then (h.timer t).apply cmd else h.timer t := by
    intro u happly htimer
    have := hupdate u _ happly htimer
    rwa [Function.update_eq_self] at this
  cases cmd with
  | shutdown => exact rfl
  | start u timestamp delay period =>
    unfold processCommand
    dsimp only
    split
    · rename_i hactive
      simp only [linkBack, setTimer, check_timer]
      exact hupdate u _ (by simp only [Timer.apply, if_pos hactive]) rfl
    · rename_i hactive
      exact hsame u (by simp only [Timer.apply, if_neg hactive]) rfl
  | stop u =>
    have hfields : (h.processCommand nextSleep (.stop u)).1.timer =
        Function.update h.timer u { h.timer u with active := false, pending := false } := by
      unfold processCommand
      dsimp only
      split <;> rfl
    rw [hfields]
    exact hupdate u _ rfl rfl
  | reset u timestamp =>
    unfold processCommand
    dsimp only
    split
    · rename_i hactive
      simp only [setTimer, check_timer]
      exact hupdate u _ (by simp only [Timer.apply, if_pos hactive]) rfl
    · rename_i hactive
      exact hsame u (by simp only [Timer.apply, if_neg hactive]) rfl
  | restart u timestamp delay period =>
    have hfields : (h.processCommand nextSleep (.restart u timestamp delay period)).1.timer =
        Function.update h.timer u { (h.timer u).arm (timestamp + delay) period with rearming := false } := by
      unfold processCommand
      dsimp only
      split <;> rfl
    rw [hfields]
    exact hupdate u _ rfl rfl
  | startOrReset u timestamp delay period =>
    unfold processCommand
    dsimp only
    split
    · rename_i hactive
      simp only [linkBack, setTimer, check_timer]
      exact hupdate u _ (by simp only [Timer.apply, if_pos hactive]) rfl
    · rename_i hactive
      split
      · rename_i hperiod
        simp only [setTimer, check_timer]
        exact hupdate u _ (by simp only [Timer.apply, if_neg hactive, if_pos hperiod]) rfl
      · rename_i hperiod
        exact hsame u (by simp only [Timer.apply, if_neg hactive, if_neg hperiod]) rfl
  | setPeriod u period =>
    unfold processCommand
    dsimp only
    split
    · rename_i hactive
      simp only [setTimer, check_timer]
      exact hupdate u _ (by simp only [Timer.apply, if_pos hactive]) rfl
    · rename_i hactive
      exact hsame u (by simp only [Timer.apply, if_neg hactive]) rfl

/-- A command leaves the two pipes alone. -/
theorem processCommand_pipes (nextSleep : ℤ) (cmd : TimerCommand τ) :
    (h.processCommand nextSleep cmd).1.commands = h.commands ∧
      (h.processCommand nextSleep cmd).1.queue = h.queue := by
  cases cmd <;> unfold processCommand <;> (try dsimp only) <;> (repeat' split) <;>
    simp only [linkBack, unlink, setTimer, check_commands, check_queue, and_self]

/-- The list after a command. -/
def linkedBy (cmd : TimerCommand τ) : List τ :=
  match cmd with
  | .start t _ _ _ => if !(h.timer t).active then h.active ++ [t] else h.active
  | .stop t => h.active.erase t
  | .restart t _ _ _ => h.active.erase t ++ [t]
  | .startOrReset t _ _ _ => if !(h.timer t).active then h.active ++ [t] else h.active
  | _ => h.active

/-- INTERNAL: the active timers after a command. -/
theorem processCommand_active (nextSleep : ℤ) (cmd : TimerCommand τ) :
    (h.processCommand nextSleep cmd).1.active = h.linkedBy cmd := by
  have herase : ∀ t : τ, t ∉ h.active → h.active = h.active.erase t := fun t ht =>
    (List.erase_of_not_mem ht).symm
  cases cmd with
  | shutdown => exact rfl
  | start t timestamp delay period =>
    unfold processCommand linkedBy
    dsimp only
    split
    · simp only [linkBack, setTimer, check_active]
    · exact rfl
  | stop t =>
    unfold processCommand linkedBy
    dsimp only
    split
    · exact rfl
    · rename_i ht
      exact herase t ht
  | reset t timestamp =>
    unfold processCommand linkedBy
    dsimp only
    split
    · simp only [setTimer, check_active]
    · exact rfl
  | restart t timestamp delay period =>
    unfold processCommand linkedBy
    dsimp only
    split
    · exact rfl
    · rename_i ht
      exact congrArg (· ++ [t]) (herase t ht)
  | startOrReset t timestamp delay period =>
    unfold processCommand linkedBy
    dsimp only
    split
    · simp only [linkBack, setTimer, check_active]
    · split
      · simp only [setTimer, check_active]
      · exact rfl
  | setPeriod t period =>
    unfold processCommand linkedBy
    dsimp only
    split
    · simp only [setTimer, check_active]
    · exact rfl

end TimerHost

namespace TimerSystem

variable {τ ι : Type} {threads : ℕ}

/-- INTERNAL: the end of a visit writes no timer. -/
@[simp] theorem endVisit_timer (s : TimerSystem τ ι threads) (t : τ) (oneShot : Bool) (now nextSleep : ℤ)
    (rest : List τ) : (s.endVisit t oneShot now nextSleep rest).host.timer = s.host.timer := by
  unfold endVisit
  split
  · exact rfl
  · exact TimerHost.check_timer _ _ _

/-- INTERNAL: the end of a visit leaves the list. -/
@[simp] theorem endVisit_active (s : TimerSystem τ ι threads) (t : τ) (oneShot : Bool) (now nextSleep : ℤ)
    (rest : List τ) : (s.endVisit t oneShot now nextSleep rest).host.active = s.host.active := by
  unfold endVisit
  split
  · exact rfl
  · exact TimerHost.check_active _ _ _

/-- INTERNAL: the end of a visit leaves the queue. -/
@[simp] theorem endVisit_queue (s : TimerSystem τ ι threads) (t : τ) (oneShot : Bool) (now nextSleep : ℤ)
    (rest : List τ) : (s.endVisit t oneShot now nextSleep rest).host.queue = s.host.queue := by
  unfold endVisit
  split
  · exact rfl
  · exact TimerHost.check_queue _ _ _

/-- INTERNAL: the end of a visit leaves the commands. -/
@[simp] theorem endVisit_commands (s : TimerSystem τ ι threads) (t : τ) (oneShot : Bool) (now nextSleep : ℤ)
    (rest : List τ) : (s.endVisit t oneShot now nextSleep rest).host.commands = s.host.commands := by
  unfold endVisit
  split
  · exact rfl
  · exact TimerHost.check_commands _ _ _

/-- INTERNAL: the end of a visit takes no time. -/
@[simp] theorem endVisit_ticks (s : TimerSystem τ ι threads) (t : τ) (oneShot : Bool) (now nextSleep : ℤ)
    (rest : List τ) : (s.endVisit t oneShot now nextSleep rest).ticks = s.ticks := by
  unfold endVisit
  split <;> rfl

/-- INTERNAL: the end of a visit is of no concern to the handlers. -/
@[simp] theorem endVisit_handler (s : TimerSystem τ ι threads) (t : τ) (oneShot : Bool) (now nextSleep : ℤ)
    (rest : List τ) : (s.endVisit t oneShot now nextSleep rest).handler = s.handler := by
  unfold endVisit
  split <;> rfl

/-- INTERNAL: the end of a visit is of no concern to the callers. -/
@[simp] theorem endVisit_caller (s : TimerSystem τ ι threads) (t : τ) (oneShot : Bool) (now nextSleep : ℤ)
    (rest : List τ) : (s.endVisit t oneShot now nextSleep rest).caller = s.caller := by
  unfold endVisit
  split <;> rfl

/-- The tick task goes on with its walk. -/
theorem endVisit_tickTask (s : TimerSystem τ ι threads) (t : τ) (oneShot : Bool) (now nextSleep : ℤ)
    (rest : List τ) : (s.endVisit t oneShot now nextSleep rest).tickTask =
      .walking now (if oneShot then nextSleep else nextSleepAfter (s.host.timer t).deadline now nextSleep) rest := by
  cases oneShot <;> rfl

/-- The tick task is in `Read(cmd, next_sleep)`. -/
def InRead (task : TickTask τ) (nextSleep : ℤ) : Prop :=
  task = .looping nextSleep ∨ ∃ since, task = .reading nextSleep since

/-- The command that the tick task takes in a step. -/
def taken (s : TimerSystem τ ι threads) : TimerEvent τ ι threads → Option (TimerCommand τ)
  | .update =>
    match s.tickTask with
    | .looping _ | .reading _ _ => s.host.commands.head?
    | _ => none
  | _ => none

/-- The timer that the tick task visits in a step, and the tick at which the walk began. -/
def visited (s : TimerSystem τ ι threads) : TimerEvent τ ι threads → Option (τ × ℤ)
  | .update =>
    match s.tickTask with
    | .walking now _ (tmr :: _) => some (tmr, now)
    | _ => none
  | _ => none

/-- INTERNAL: the tick task takes the oldest command where it reads. -/
theorem taken_of_read {s : TimerSystem τ ι threads} {nextSleep : ℤ} (hread : InRead s.tickTask nextSleep) :
    s.taken .update = s.host.commands.head? := by
  unfold taken
  rcases hread with htask | ⟨since, htask⟩ <;> rw [htask]

/-- INTERNAL: the tick task visits no timer where it reads. -/
theorem visited_of_read {s : TimerSystem τ ι threads} {nextSleep : ℤ} (hread : InRead s.tickTask nextSleep) :
    s.visited .update = none := by
  unfold visited
  rcases hread with htask | ⟨since, htask⟩ <;> rw [htask]

variable [DecidableEq τ]

/-- The host once an active timer has expired. -/
def expire (h : TimerHost τ) (t : τ) (now : ℤ) : TimerHost τ :=
  let host := h.setTimer t ((h.timer t).expire now)
  if (h.timer t).period = 0 then host.unlink t else host

/-- INTERNAL: an expiry writes its own timer. -/
@[simp] theorem expire_timer (h : TimerHost τ) (t : τ) (now : ℤ) :
    (expire h t now).timer = Function.update h.timer t ((h.timer t).expire now) := by
  unfold expire
  dsimp only
  split <;> rfl

/-- INTERNAL: an expiry is queued later. -/
@[simp] theorem expire_queue (h : TimerHost τ) (t : τ) (now : ℤ) : (expire h t now).queue = h.queue := by
  unfold expire
  dsimp only
  split <;> rfl

/-- INTERNAL: an expiry leaves the commands. -/
@[simp] theorem expire_commands (h : TimerHost τ) (t : τ) (now : ℤ) :
    (expire h t now).commands = h.commands := by
  unfold expire
  dsimp only
  split <;> rfl

/-- INTERNAL: an expiry reads the clock only. -/
@[simp] theorem expire_now (h : TimerHost τ) (t : τ) (now : ℤ) : (expire h t now).now = h.now := by
  unfold expire
  dsimp only
  split <;> rfl

/-- INTERNAL: a one-shot timer leaves the list. -/
theorem expire_active (h : TimerHost τ) (t : τ) (now : ℤ) :
    (expire h t now).active = if (h.timer t).period = 0 then h.active.erase t else h.active := by
  unfold expire
  dsimp only
  split <;> rfl

variable [DecidableEq ι]

/-- What a step can do: the callers, the tick task and the handler tasks, in this order. -/
inductive Transition (countMax : ℕ) (s : TimerSystem τ ι threads) :
    TimerEvent τ ι threads → TimerSystem τ ι threads → Prop where
  | stay {e : TimerEvent τ ι threads} (htaken : s.taken e = none) (hvisited : s.visited e = none)
      (hexpired : s.onExpired e = none) : Transition countMax s e s
  | tick : Transition countMax s .tick { s with ticks := s.ticks + 1 }
  | call {i : ι} {tmr : τ} {request : TimerRequest} {cmd : TimerCommand τ} {push : Push τ}
      (hfree : s.caller i = none) (hsite : s.host.request tmr s.ticks request = .pushes cmd)
      (hpush : s.host.pushTest cmd = some push) :
      Transition countMax s (.call i tmr request) { s with caller := Function.update s.caller i (some push) }
  | callShutdown {i : ι} (hfree : s.caller i = none) :
      Transition countMax s (.shutdown i)
        { s with caller := Function.update s.caller i (some (.writing .shutdown)) }
  | setRearming {i : ι} {cmd : TimerCommand τ} (hcaller : s.caller i = some (.tested cmd)) :
      Transition countMax s (.setRearming i)
        { s with
          host := s.host.setRearming cmd true
          caller := Function.update s.caller i (some (.writing cmd)) }
  | written {i : ι} {cmd : TimerCommand τ} (hcaller : s.caller i = some (.writing cmd))
      (hroom : s.host.commands.length < countMax) :
      Transition countMax s (.write i)
        { s with
          host := { s.host with commands := s.host.commands ++ [cmd] }
          caller := Function.update s.caller i none }
  | full {i : ι} {cmd : TimerCommand τ} (hcaller : s.caller i = some (.writing cmd))
      (hfull : ¬s.host.commands.length < countMax) :
      Transition countMax s (.write i)
        { s with
          host := { s.host.setRearming cmd false with faults := .queueFull :: s.host.faults }
          caller := Function.update s.caller i none }
  | take {nextSleep : ℤ} {cmd : TimerCommand τ} {commands : List (TimerCommand τ)}
      (hread : InRead s.tickTask nextSleep) (hcommands : s.host.commands = cmd :: commands)
      (hcmd : cmd ≠ .shutdown) :
      Transition countMax s .update
        { s with
          host := (TimerHost.processCommand { s.host with commands := commands } nextSleep cmd).1
          tickTask := .looping (TimerHost.processCommand { s.host with commands := commands } nextSleep cmd).2 }
  | takeShutdown {nextSleep : ℤ} {commands : List (TimerCommand τ)} (hread : InRead s.tickTask nextSleep)
      (hcommands : s.host.commands = .shutdown :: commands) :
      Transition countMax s .update
        { s with host := { s.host with commands := commands }, tickTask := .stopping threads }
  | block {nextSleep : ℤ} (htask : s.tickTask = .looping nextSleep) (hcommands : s.host.commands = [])
      (hsleep : nextSleep ≠ noWait) :
      Transition countMax s .update { s with tickTask := .reading nextSleep s.ticks }
  | empty (htask : s.tickTask = .looping noWait) (hcommands : s.host.commands = []) :
      Transition countMax s .update s.enterWalk
  | readTimeout {nextSleep since : ℤ} (htask : s.tickTask = .reading nextSleep since)
      (hsince : since + nextSleep ≤ s.ticks) : Transition countMax s .updateTimeout s.enterWalk
  | due {now nextSleep : ℤ} {tmr : τ} {rest : List τ} (htask : s.tickTask = .walking now nextSleep (tmr :: rest))
      (hactive : (s.host.timer tmr).active = true) (hpending : (s.host.timer tmr).pending = false)
      (hdue : (s.host.timer tmr).deadline ≤ now) :
      Transition countMax s .update
        { s with
          host := expire s.host tmr now
          tickTask := .writing tmr (decide ((s.host.timer tmr).period = 0)) s.ticks now nextSleep rest }
  | notDue {now nextSleep : ℤ} {tmr : τ} {rest : List τ}
      (htask : s.tickTask = .walking now nextSleep (tmr :: rest)) (hactive : (s.host.timer tmr).active = true)
      (hpending : (s.host.timer tmr).pending = false) (hdue : now < (s.host.timer tmr).deadline) :
      Transition countMax s .update (s.endVisit tmr false now nextSleep rest)
  | skip {now nextSleep : ℤ} {tmr : τ} {rest : List τ}
      (htask : s.tickTask = .walking now nextSleep (tmr :: rest)) (hactive : (s.host.timer tmr).active = true)
      (hpending : (s.host.timer tmr).pending = true) :
      Transition countMax s .update { s with tickTask := .walking now nextSleep rest }
  | stopped {now nextSleep : ℤ} {tmr : τ} {rest : List τ}
      (htask : s.tickTask = .walking now nextSleep (tmr :: rest)) (hactive : (s.host.timer tmr).active = false) :
      Transition countMax s .update
        { s with host := s.host.unlink tmr, tickTask := .walking now nextSleep rest }
  | walked {now nextSleep : ℤ} (htask : s.tickTask = .walking now nextSleep []) :
      Transition countMax s .update (s.enterCommands nextSleep)
  | pushed {tmr : τ} {oneShot : Bool} {since now nextSleep : ℤ} {rest : List τ}
      (htask : s.tickTask = .writing tmr oneShot since now nextSleep rest)
      (hroom : s.host.queue.length < countMax) :
      Transition countMax s .update
        (endVisit { s with host := { s.host with queue := s.host.queue ++ [some tmr] } } tmr oneShot now
          nextSleep rest)
  | lost {tmr : τ} {oneShot : Bool} {since now nextSleep : ℤ} {rest : List τ}
      (htask : s.tickTask = .writing tmr oneShot since now nextSleep rest) :
      Transition countMax s .updateTimeout (s.endVisit tmr oneShot now nextSleep rest)
  | sentinel {remaining : ℕ} (htask : s.tickTask = .stopping (remaining + 1))
      (hroom : s.host.queue.length < countMax) :
      Transition countMax s .update
        { s with host := { s.host with queue := s.host.queue ++ [none] }, tickTask := .stopping remaining }
  | sentinelLost {remaining : ℕ} (htask : s.tickTask = .stopping (remaining + 1))
      (hfull : ¬s.host.queue.length < countMax) :
      Transition countMax s .update { s with tickTask := .stopping remaining }
  | drain (htask : s.tickTask = .stopping 0) :
      Transition countMax s .update { s with host := { s.host with active := [] }, tickTask := .finished }
  | onExpired {j : Fin threads} {t : τ} {queue : List (Option τ)} (hhandler : s.handler j ≠ .finished)
      (hqueue : s.host.queue = some t :: queue) (hpending : (s.host.timer t).pending = true) :
      Transition countMax s (.handle j)
        { s with
          host := TimerHost.setTimer { s.host with queue := queue } t { s.host.timer t with pending := false }
          handler := Function.update s.handler j .looping }
  | stale {j : Fin threads} {t : τ} {queue : List (Option τ)} (hhandler : s.handler j ≠ .finished)
      (hqueue : s.host.queue = some t :: queue) (hpending : (s.host.timer t).pending = false) :
      Transition countMax s (.handle j)
        { s with host := { s.host with queue := queue }, handler := Function.update s.handler j .looping }
  | takeSentinel {j : Fin threads} {queue : List (Option τ)} (hhandler : s.handler j ≠ .finished)
      (hqueue : s.host.queue = none :: queue) :
      Transition countMax s (.handle j)
        { s with host := { s.host with queue := queue }, handler := Function.update s.handler j .finished }
  | handlerBlock {j : Fin threads} (hhandler : s.handler j = .looping) (hqueue : s.host.queue = []) :
      Transition countMax s (.handle j) { s with handler := Function.update s.handler j (.reading s.ticks) }
  | handlerTimeout {j : Fin threads} {since : ℤ} (hhandler : s.handler j = .reading since) :
      Transition countMax s (.handleTimeout j) { s with handler := Function.update s.handler j .finished }

/-- INTERNAL: the first command of the queue is taken. -/
theorem takeCommand_transition {countMax : ℕ} {s : TimerSystem τ ι threads} {nextSleep : ℤ} {cmd : TimerCommand τ}
    {commands : List (TimerCommand τ)} (hread : InRead s.tickTask nextSleep)
    (hcommands : s.host.commands = cmd :: commands) :
    Transition countMax s .update (s.takeCommand nextSleep cmd commands) := by
  cases cmd with
  | shutdown => exact .takeShutdown hread hcommands
  | _ => exact .take hread hcommands (fun he => nomatch he)

/-- INTERNAL: a timer is visited. -/
theorem visit_transition {countMax : ℕ} {s : TimerSystem τ ι threads} {now nextSleep : ℤ} {tmr : τ} {rest : List τ}
    (htask : s.tickTask = .walking now nextSleep (tmr :: rest)) :
    Transition countMax s .update (s.visit tmr now nextSleep rest) := by
  unfold visit
  split
  · rename_i hactive
    split
    · rename_i hpending
      rw [Bool.not_eq_true'] at hpending
      split
      · rename_i hdue
        have hhost : (if decide ((s.host.timer tmr).period = 0) then
            (s.host.setTimer tmr ((s.host.timer tmr).expire now)).unlink tmr
            else s.host.setTimer tmr ((s.host.timer tmr).expire now)) = expire s.host tmr now := by
          unfold expire
          simp only [decide_eq_true_eq]
        dsimp only
        rw [hhost]
        exact .due htask hactive hpending (by omega)
      · rename_i hdue
        exact .notDue htask hactive hpending (by omega)
    · rename_i hpending
      exact .skip htask hactive (by simpa using hpending)
  · rename_i hactive
    exact .stopped htask (by simpa using hactive)

/-- INTERNAL: a step of the tick task. -/
theorem update_transition (countMax : ℕ) (s : TimerSystem τ ι threads) :
    Transition countMax s .update (s.update countMax) := by
  unfold update
  split
  · rename_i nextSleep htask
    split
    · rename_i cmd commands hcommands
      exact takeCommand_transition (.inl htask) hcommands
    · rename_i hcommands
      split
      · rename_i hsleep
        rw [hsleep] at htask
        exact .empty htask hcommands
      · rename_i hsleep
        exact .block htask hcommands hsleep
  · rename_i nextSleep since htask
    split
    · rename_i cmd commands hcommands
      exact takeCommand_transition (.inr ⟨since, htask⟩) hcommands
    · rename_i hcommands
      have hread : InRead s.tickTask nextSleep := .inr ⟨since, htask⟩
      exact .stay ((taken_of_read hread).trans (by rw [hcommands]; rfl)) (visited_of_read hread) rfl
  · rename_i htask
    exact visit_transition htask
  · rename_i htask
    exact .walked htask
  · rename_i htask
    split
    · rename_i hroom
      exact .pushed htask hroom
    · exact .stay (by simp only [taken, htask]) (by simp only [visited, htask]) rfl
  · rename_i htask
    by_cases hroom : s.host.queue.length < countMax
    · rw [if_pos hroom]
      exact .sentinel htask hroom
    · rw [if_neg hroom]
      exact .sentinelLost htask hroom
  · rename_i htask
    exact .drain htask
  · rename_i htask
    exact .stay (by simp only [taken, htask]) (by simp only [visited, htask]) rfl

/-- INTERNAL: the tick task gives up reading. -/
theorem updateTimeout_transition (countMax : ℕ) (s : TimerSystem τ ι threads) :
    Transition countMax s .updateTimeout s.updateTimeout := by
  unfold updateTimeout
  split
  · rename_i htask
    split
    · rename_i hsince
      exact .readTimeout htask hsince
    · exact .stay rfl rfl rfl
  · rename_i htask
    split
    · exact .lost htask
    · exact .stay rfl rfl rfl
  · exact .stay rfl rfl rfl

/-- INTERNAL: a step of a handler task. -/
theorem handle_transition (countMax : ℕ) (s : TimerSystem τ ι threads) (j : Fin threads) :
    Transition countMax s (.handle j) (s.handle j) := by
  have htake : ∀ {ptr : Option τ} {queue : List (Option τ)}, s.handler j ≠ .finished →
      s.host.queue = ptr :: queue → Transition countMax s (.handle j) (s.takePointer j ptr queue) := by
    intro ptr queue hhandler hqueue
    cases ptr with
    | none => exact .takeSentinel hhandler hqueue
    | some t =>
      unfold takePointer
      dsimp only
      by_cases hpending : (s.host.timer t).pending = true
      · rw [if_pos hpending]
        exact .onExpired hhandler hqueue hpending
      · rw [if_neg hpending]
        exact .stale hhandler hqueue (by simpa using hpending)
  unfold handle
  split
  · rename_i hhandler
    exact .stay rfl rfl (by simp only [onExpired, hhandler])
  · rename_i hhandler hqueue
    exact .handlerBlock hhandler hqueue
  · rename_i hhandler hqueue
    exact .stay rfl rfl (by simp only [onExpired, hhandler, hqueue])
  · rename_i ptr queue hqueue hhandler
    exact htake hhandler hqueue

/-- INTERNAL: a handler task gives up waiting. -/
theorem handleTimeout_transition (countMax : ℕ) (s : TimerSystem τ ι threads) (j : Fin threads) :
    Transition countMax s (.handleTimeout j) (s.handleTimeout j) := by
  unfold handleTimeout
  split
  · rename_i hhandler
    split
    · exact .handlerTimeout hhandler
    · exact .stay rfl rfl rfl
  · exact .stay rfl rfl rfl

/-- **The step lemma.** -/
theorem step_transition (countMax : ℕ) (s : TimerSystem τ ι threads) (e : TimerEvent τ ι threads) :
    Transition countMax s e (s.step countMax e) := by
  cases e with
  | tick => exact .tick
  | call i tmr request =>
    unfold step stepResult
    dsimp only
    split
    · rename_i hfree
      unfold callAt
      split
      · exact .stay rfl rfl rfl
      · rename_i cmd hsite
        split
        · rename_i push hpush
          exact .call hfree hsite hpush
        · exact .stay rfl rfl rfl
    · exact .stay rfl rfl rfl
  | shutdown i =>
    unfold step stepResult
    dsimp only
    split
    · rename_i hfree
      exact .callShutdown hfree
    · exact .stay rfl rfl rfl
  | setRearming i =>
    unfold step stepResult
    dsimp only
    split
    · rename_i cmd hcaller
      exact .setRearming hcaller
    · exact .stay rfl rfl rfl
  | write i =>
    unfold step stepResult
    dsimp only
    split
    · rename_i cmd hcaller
      unfold TimerHost.pushWrite
      split
      · rename_i hroom
        exact .written hcaller hroom
      · rename_i hfull
        exact .full hcaller hfull
    · exact .stay rfl rfl rfl
  | update => exact update_transition countMax s
  | updateTimeout => exact updateTimeout_transition countMax s
  | handle j => exact handle_transition countMax s j
  | handleTimeout j => exact handleTimeout_transition countMax s j

/-! ## One timer -/

/-- The deadline at which a timer expires in a step, and the tick at which the walk began. -/
def expiry (t : τ) (s : TimerSystem τ ι threads) (e : TimerEvent τ ι threads) : Option (ℤ × ℤ) :=
  match s.visited e with
  | some (u, now) =>
    let tmr := s.host.timer t
    if u = t ∧ tmr.active = true ∧ tmr.pending = false ∧ tmr.deadline ≤ now then some (tmr.deadline, now) else none
  | none => none

/-- The step takes no command for the timer, the timer does not expire, and it is not handled. -/
structure Quiet (t : τ) (s : TimerSystem τ ι threads) (e : TimerEvent τ ι threads) : Prop where
  taken : ∀ cmd, s.taken e = some cmd → cmd.timer ≠ some t
  expiry : expiry t s e = none
  onExpired : s.onExpired e ≠ some t

/-- What a step can do to a timer. -/
inductive TimerStep (t : τ) (s : TimerSystem τ ι threads) (e : TimerEvent τ ι threads) : Timer → Prop where
  | command {cmd : TimerCommand τ} (htaken : s.taken e = some cmd) (ht : cmd.timer = some t) :
      TimerStep t s e ((s.host.timer t).apply cmd)
  | expires {now : ℤ} (hvisited : s.visited e = some (t, now)) (hactive : (s.host.timer t).active = true)
      (hpending : (s.host.timer t).pending = false) (hdue : (s.host.timer t).deadline ≤ now) :
      TimerStep t s e ((s.host.timer t).expire now)
  | handled (hexpired : s.onExpired e = some t) (hpending : (s.host.timer t).pending = true) :
      TimerStep t s e { s.host.timer t with pending := false }
  | quiet (hquiet : Quiet t s e) (rearming : Bool) :
      TimerStep t s e { s.host.timer t with rearming := rearming }

omit [DecidableEq ι] in
/-- INTERNAL: an event that neither takes a command, nor visits a timer, nor runs the handler of `t`. -/
theorem quiet_of_none {t : τ} {s : TimerSystem τ ι threads} {e : TimerEvent τ ι threads} (htaken : s.taken e = none)
    (hvisited : s.visited e = none) (hexpired : s.onExpired e ≠ some t) : Quiet t s e := by
  refine ⟨fun cmd hcmd => ?_, ?_, hexpired⟩
  · rw [htaken] at hcmd
    exact nomatch hcmd
  · unfold expiry
    rw [hvisited]

omit [DecidableEq τ] [DecidableEq ι] in
/-- INTERNAL: the handler runs for the timer at the head of the queue if it is still pending. -/
theorem onExpired_handle {s : TimerSystem τ ι threads} {j : Fin threads} {ptr : Option τ} {queue : List (Option τ)}
    (hhandler : s.handler j ≠ .finished) (hqueue : s.host.queue = ptr :: queue) :
    s.onExpired (.handle j) = ptr.filter fun t => (s.host.timer t).pending := by
  unfold onExpired
  dsimp only
  rw [hqueue]
  cases hj : s.handler j with
  | finished => exact absurd hj hhandler
  | looping => cases ptr <;> simp [Option.filter]
  | reading since => cases ptr <;> simp [Option.filter]

/-- **What a step does to a timer.** -/
theorem timer_step (countMax : ℕ) (t : τ) (s : TimerSystem τ ι threads) (e : TimerEvent τ ι threads) :
    TimerStep t s e ((s.step countMax e).host.timer t) := by
  have hnone : none ≠ some t := (Option.some_ne_none t).symm
  have hsame : Quiet t s e → TimerStep t s e (s.host.timer t) := fun hquiet =>
    .quiet hquiet (s.host.timer t).rearming
  have hrearm : ∀ (cmd : TimerCommand τ) (value : Bool), Quiet t s e →
      TimerStep t s e ((s.host.setRearming cmd value).timer t) := by
    intro cmd value hquiet
    rw [TimerHost.setRearming_timer]
    split
    · exact .quiet hquiet value
    · exact hsame hquiet
  have htransition := step_transition countMax s e
  generalize s.step countMax e = s' at htransition
  cases htransition with
  | stay htaken hvisited hexpired => exact hsame (quiet_of_none htaken hvisited (by rw [hexpired]; exact hnone))
  | tick | call | callShutdown | written => exact hsame (quiet_of_none rfl rfl hnone)
  | setRearming => exact hrearm _ _ (quiet_of_none rfl rfl hnone)
  | full => exact hrearm _ _ (quiet_of_none rfl rfl hnone)
  | @take nextSleep cmd commands hin hcommands hcmd =>
    have htaken : s.taken .update = some cmd := by
      rw [taken_of_read hin, hcommands]
      rfl
    have htimer := TimerHost.processCommand_timer { s.host with commands := commands } nextSleep cmd t
    change TimerStep t s .update ((TimerHost.processCommand { s.host with commands := commands } nextSleep cmd).1.timer t)
    rw [htimer]
    by_cases ht : cmd.timer = some t
    · rw [if_pos ht]
      exact .command htaken ht
    · rw [if_neg ht]
      refine hsame ⟨fun cmd' hcmd' => ?_, ?_, hnone⟩
      · rw [htaken] at hcmd'
        cases hcmd'
        exact ht
      · unfold expiry
        rw [visited_of_read hin]
  | @takeShutdown nextSleep commands hin hcommands =>
    refine hsame ⟨fun cmd hcmd => ?_, ?_, hnone⟩
    · rw [taken_of_read hin, hcommands] at hcmd
      cases hcmd
      exact hnone
    · unfold expiry
      rw [visited_of_read hin]
  | block htask hcommands =>
    refine hsame (quiet_of_none ?_ (visited_of_read (.inl htask)) hnone)
    rw [taken_of_read (.inl htask), hcommands]
    rfl
  | empty htask hcommands =>
    refine hsame (quiet_of_none ?_ (visited_of_read (.inl htask)) hnone)
    rw [taken_of_read (.inl htask), hcommands]
    rfl
  | readTimeout => exact hsame (quiet_of_none rfl rfl hnone)
  | @due now nextSleep u rest htask hactive hpending hdue =>
    have hvisited : s.visited .update = some (u, now) := by simp only [visited, htask]
    change TimerStep t s .update ((TimerSystem.expire s.host u now).timer t)
    rw [expire_timer]
    by_cases ht : t = u
    · subst ht
      rw [Function.update_self]
      exact .expires hvisited hactive hpending hdue
    · rw [Function.update_of_ne ht]
      refine hsame ⟨fun cmd hcmd => ?_, ?_, hnone⟩
      · simp only [taken, htask] at hcmd
        contradiction
      · simp only [expiry, hvisited, Ne.symm ht, false_and, if_false]
  | @notDue now nextSleep u rest htask hactive hpending hdue =>
    rw [endVisit_timer]
    refine hsame ⟨fun cmd hcmd => ?_, ?_, hnone⟩
    · simp only [taken, htask] at hcmd
      contradiction
    · simp only [expiry, visited, htask]
      refine if_neg (fun h => ?_)
      obtain ⟨rfl, -, -, hdue'⟩ := h
      omega
  | @skip now nextSleep u rest htask hactive hpending =>
    refine hsame ⟨fun cmd hcmd => ?_, ?_, hnone⟩
    · simp only [taken, htask] at hcmd
      contradiction
    · simp only [expiry, visited, htask]
      refine if_neg (fun h => ?_)
      obtain ⟨rfl, -, hclear, -⟩ := h
      rw [hpending] at hclear
      contradiction
  | @stopped now nextSleep u rest htask hactive =>
    refine hsame ⟨fun cmd hcmd => ?_, ?_, hnone⟩
    · simp only [taken, htask] at hcmd
      contradiction
    · simp only [expiry, visited, htask]
      refine if_neg (fun h => ?_)
      obtain ⟨rfl, hset, -⟩ := h
      rw [hactive] at hset
      contradiction
  | walked htask | sentinel htask | sentinelLost htask | drain htask =>
    exact hsame (quiet_of_none (by simp only [taken, htask]) (by simp only [visited, htask]) hnone)
  | pushed htask =>
    rw [endVisit_timer]
    exact hsame (quiet_of_none (by simp only [taken, htask]) (by simp only [visited, htask]) hnone)
  | lost =>
    rw [endVisit_timer]
    exact hsame (quiet_of_none rfl rfl hnone)
  | @onExpired j u queue hhandler hqueue hpending =>
    have hexpired : s.onExpired (.handle j) = some u := by
      rw [onExpired_handle hhandler hqueue]
      exact if_pos hpending
    change TimerStep t s (.handle j) (Function.update s.host.timer u { s.host.timer u with pending := false } t)
    by_cases ht : t = u
    · subst ht
      rw [Function.update_self]
      exact .handled hexpired hpending
    · rw [Function.update_of_ne ht]
      refine hsame (quiet_of_none rfl rfl ?_)
      rw [hexpired]
      exact fun heq => ht (Option.some.inj heq).symm
  | @stale j u queue hhandler hqueue hpending =>
    refine hsame (quiet_of_none rfl rfl ?_)
    rw [onExpired_handle hhandler hqueue]
    simp only [Option.filter, hpending]
    exact hnone
  | @takeSentinel j queue hhandler hqueue =>
    refine hsame (quiet_of_none rfl rfl ?_)
    rw [onExpired_handle hhandler hqueue]
    exact hnone
  | @handlerBlock j hhandler hqueue =>
    refine hsame (quiet_of_none rfl rfl ?_)
    simp [TimerSystem.onExpired, hhandler, hqueue]
  | handlerTimeout => exact hsame (quiet_of_none rfl rfl hnone)

omit [DecidableEq τ] [DecidableEq ι] in
/-- A step that takes a command visits and handles no timer. -/
theorem of_taken {s : TimerSystem τ ι threads} {e : TimerEvent τ ι threads} {cmd : TimerCommand τ}
    (htaken : s.taken e = some cmd) : s.visited e = none ∧ s.onExpired e = none := by
  cases e with
  | update =>
    refine ⟨?_, rfl⟩
    unfold taken at htaken
    unfold visited
    dsimp only at htaken ⊢
    split at htaken
    · rename_i htask
      rw [htask]
    · rename_i htask
      rw [htask]
    · exact nomatch htaken
  | _ => exact nomatch htaken

omit [DecidableEq τ] [DecidableEq ι] in
/-- INTERNAL: a handler task visits no timer. -/
theorem visited_of_onExpired {s : TimerSystem τ ι threads} {e : TimerEvent τ ι threads} {t : τ}
    (hexpired : s.onExpired e = some t) : s.visited e = none := by
  cases e with
  | update => exact nomatch hexpired
  | _ => rfl

/-- The timer of a command that is taken. -/
theorem timer_taken (countMax : ℕ) {t : τ} {s : TimerSystem τ ι threads} {e : TimerEvent τ ι threads}
    {cmd : TimerCommand τ} (htaken : s.taken e = some cmd) (ht : cmd.timer = some t) :
    (s.step countMax e).host.timer t = (s.host.timer t).apply cmd := by
  obtain ⟨hvisited, hexpired⟩ := of_taken htaken
  have htimer := timer_step countMax t s e
  generalize (s.step countMax e).host.timer t = tmr' at htimer
  cases htimer with
  | command htaken' ht' =>
    rw [htaken] at htaken'
    cases htaken'
    rfl
  | expires hvisited' => exact absurd (hvisited.symm.trans hvisited') (by simp)
  | handled hexpired' => exact absurd (hexpired.symm.trans hexpired') (by simp)
  | quiet hquiet => exact absurd ht (hquiet.taken cmd htaken)

end TimerSystem

end Stk.Model
