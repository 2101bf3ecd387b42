import Stk.Analysis.TimerStep
import Stk.Foundation.Runs

/-!
# The order of the commands for a timer

The calls of one task for a timer are compared with the same calls taking effect at once.  What the timer will be
once the queue is drained (`settled`) is what the calls with immediate effect make it (`Settles`), as long as
no call that the call site ignores or coalesces would have changed it.
-/

set_option autoImplicit false

namespace Stk.Analysis

open Stk.Model Stk.Model.TimerSystem

/-- What the API tells of a timer: whether it is active, its period and its deadline. -/
structure Setting where
  active : Bool
  period : ℕ
  deadline : ℤ
deriving DecidableEq

namespace Setting

/-- The setting of a timer that starts. -/
def armed (deadline : ℤ) (period : ℕ) : Setting := ⟨true, period, deadline⟩

/-- A call at the tick `ticks` that takes effect at once. -/
def immediate (x : Setting) (ticks : ℤ) : TimerRequest → Setting
  | .start delay period => if x.active then x else armed (ticks + delay) period
  | .stop => { x with active := false }
  | .reset => if x.active && decide (x.period ≠ 0) then { x with deadline := ticks + x.period } else x
  | .restart delay period => armed (ticks + delay) period
  | .startOrReset delay period =>
    if !x.active then armed (ticks + delay) period
    else if x.period ≠ 0 then { x with deadline := ticks + x.period }
    else x
  | .setPeriod period =>
    if x.active && decide (x.period ≠ 0) && decide (period ≠ 0) && decide ((period : ℤ) ≤ waitInfinite) then
      { x with period := period }
    else x

/-- What a command does with the setting of its timer. -/
def apply {τ : Type} (x : Setting) : TimerCommand τ → Setting
  | .shutdown => x
  | .start _ timestamp delay period => if x.active then x else armed (timestamp + delay) period
  | .stop _ => { x with active := false }
  | .reset _ timestamp =>
    if x.active && decide (x.period ≠ 0) then { x with deadline := timestamp + x.period } else x
  | .restart _ timestamp delay period => armed (timestamp + delay) period
  | .startOrReset _ timestamp delay period =>
    if !x.active then armed (timestamp + delay) period
    else if x.period ≠ 0 then { x with deadline := timestamp + x.period }
    else x
  | .setPeriod _ period => if x.active && decide (x.period ≠ 0) then { x with period := period } else x

end Setting

/-- The setting of a timer. -/
def settingOf (tmr : Timer) : Setting := ⟨tmr.active, tmr.period, tmr.deadline⟩

theorem settingOf_apply {τ : Type} (tmr : Timer) (cmd : TimerCommand τ) :
    settingOf (tmr.apply cmd) = (settingOf tmr).apply cmd := by
  cases hactive : tmr.active <;> by_cases hperiod : tmr.period = 0 <;> cases cmd <;>
    simp [Timer.apply, Setting.apply, settingOf, Timer.arm, Setting.armed, hactive, hperiod]

variable {τ ι : Type} {threads : ℕ} [DecidableEq τ]

omit [DecidableEq τ] in
/-- The command of a request does, when it is taken, what the call does at once. -/
theorem apply_request {h : TimerHost τ} {t : τ} {ticks : ℤ} {request : TimerRequest} {cmd : TimerCommand τ}
    (hsite : h.request t ticks request = .pushes cmd) (x : Setting) :
    cmd.timer = some t ∧ x.apply cmd = x.immediate ticks request := by
  cases request with
  | start delay period =>
    simp only [TimerHost.request, TimerHost.start] at hsite
    split at hsite <;> cases hsite
    exact ⟨rfl, rfl⟩
  | stop =>
    simp only [TimerHost.request, TimerHost.stop] at hsite
    split at hsite <;> cases hsite
    exact ⟨rfl, rfl⟩
  | reset =>
    simp only [TimerHost.request, TimerHost.reset] at hsite
    split at hsite <;> cases hsite
    exact ⟨rfl, rfl⟩
  | restart delay period =>
    cases hsite
    exact ⟨rfl, rfl⟩
  | startOrReset delay period =>
    cases hsite
    exact ⟨rfl, rfl⟩
  | setPeriod period =>
    simp only [TimerHost.request, TimerHost.setPeriod] at hsite
    split at hsite <;> cases hsite
    rename_i hcond
    simp only [Bool.and_eq_true] at hcond
    refine ⟨rfl, ?_⟩
    simp only [Setting.apply, Setting.immediate, hcond.1.2, hcond.2, Bool.and_true]

/-- The commands for a timer. -/
def commandsFor (t : τ) (commands : List (TimerCommand τ)) : List (TimerCommand τ) :=
  commands.filter fun cmd => decide (cmd.timer = some t)

/-- The command for a timer that a caller has under way. -/
def underWay (t : τ) : Option (Push τ) → List (TimerCommand τ)
  | some (.tested cmd) | some (.writing cmd) => commandsFor t [cmd]
  | none => []

/-- What a timer will be once the commands in the queue have been taken. -/
def settled (h : TimerHost τ) (t : τ) : Setting := (commandsFor t h.commands).foldl Setting.apply (settingOf (h.timer t))

variable [DecidableEq ι]

/-! ## The calls of one task -/

/-- The calls for the timer are calls of the task `i`, they all return `true`, and the timer does not expire. -/
def CallsOf (countMax : ℕ) (i : ι) (t : τ) (s : TimerSystem τ ι threads) (e : TimerEvent τ ι threads) : Prop :=
  expiry t s e = none ∧
    match e with
    | .call j u _ => u = t → j = i ∧ (s.stepResult countMax e).2 ≠ some false
    | .write j => underWay t (s.caller j) ≠ [] → (s.stepResult countMax e).2 ≠ some false
    | _ => True

/-- The call site tells what the queued commands leave: a `Start` for an active timer finds that they leave it active,
a `Stop` for an inactive timer that they leave it inactive, and a `Restart` or a `StartOrReset` finds `m_rearming`
clear. -/
def CallAgrees (h : TimerHost τ) (t : τ) : TimerRequest → Prop
  | .start _ _ => (h.timer t).active = true → (settled h t).active = true
  | .stop => (h.timer t).active = false → (settled h t).active = false
  | .restart _ _ | .startOrReset _ _ => (h.timer t).rearming = false
  | .reset | .setPeriod _ => True

/-- Every call for the timer is made when the call site tells what the queued commands leave. -/
def Heard (t : τ) (s : TimerSystem τ ι threads) : TimerEvent τ ι threads → Prop
  | .call _ u request => u = t → CallAgrees s.host t request
  | _ => True

instance {countMax : ℕ} {i : ι} {t : τ} {s : TimerSystem τ ι threads} : ∀ e, Decidable (CallsOf countMax i t s e)
  | .call j u request => inferInstanceAs (Decidable (expiry t s (.call j u request) = none ∧
      (u = t → j = i ∧ (s.stepResult countMax (.call j u request)).2 ≠ some false)))
  | .write j => inferInstanceAs (Decidable (expiry t s (.write j) = none ∧
      (underWay t (s.caller j) ≠ [] → (s.stepResult countMax (.write j)).2 ≠ some false)))
  | .tick => inferInstanceAs (Decidable (expiry t s .tick = none ∧ True))
  | .shutdown j => inferInstanceAs (Decidable (expiry t s (.shutdown j) = none ∧ True))
  | .setRearming j => inferInstanceAs (Decidable (expiry t s (.setRearming j) = none ∧ True))
  | .update => inferInstanceAs (Decidable (expiry t s .update = none ∧ True))
  | .updateTimeout => inferInstanceAs (Decidable (expiry t s .updateTimeout = none ∧ True))
  | .handle j => inferInstanceAs (Decidable (expiry t s (.handle j) = none ∧ True))
  | .handleTimeout j => inferInstanceAs (Decidable (expiry t s (.handleTimeout j) = none ∧ True))

instance {h : TimerHost τ} {t : τ} : ∀ request, Decidable (CallAgrees h t request)
  | .start _ _ => inferInstanceAs (Decidable ((h.timer t).active = true → (settled h t).active = true))
  | .stop => inferInstanceAs (Decidable ((h.timer t).active = false → (settled h t).active = false))
  | .restart _ _ | .startOrReset _ _ => inferInstanceAs (Decidable ((h.timer t).rearming = false))
  | .reset | .setPeriod _ => .isTrue trivial

instance {t : τ} {s : TimerSystem τ ι threads} : ∀ e, Decidable (Heard t s e)
  | .call _ u request => inferInstanceAs (Decidable (u = t → CallAgrees s.host t request))
  | .tick | .shutdown _ | .setRearming _ | .write _ | .update | .updateTimeout | .handle _ | .handleTimeout _ =>
    .isTrue trivial

/-- The setting that the calls for the timer give it at once, after one more step. -/
def immediateStep (t : τ) (x : Setting) (s : TimerSystem τ ι threads) : TimerEvent τ ι threads → Setting
  | .call j u request => if u = t ∧ s.caller j = none then x.immediate s.ticks request else x
  | _ => x

/-- The setting that the calls for the timer in a run give it at once. -/
def immediately (countMax : ℕ) (t : τ) : Setting → TimerSystem τ ι threads → List (TimerEvent τ ι threads) → Setting
  | x, _, [] => x
  | x, s, e :: es => immediately countMax t (immediateStep t x s e) (s.step countMax e) es

/-- Once the queue is drained, and the call that `i` has under way, the timer has the setting `x`. -/
structure Settles (i : ι) (t : τ) (x : Setting) (s : TimerSystem τ ι threads) : Prop where
  settles : (underWay t (s.caller i)).foldl Setting.apply (settled s.host t) = x
  others : ∀ j, j ≠ i → underWay t (s.caller j) = []

variable {s : TimerSystem τ ι threads} {e : TimerEvent τ ι threads} {i : ι} {t : τ} {x : Setting}

omit [DecidableEq ι] in
theorem settled_congr {h h' : TimerHost τ} (htimer : settingOf (h'.timer t) = settingOf (h.timer t))
    (hcommands : commandsFor t h'.commands = commandsFor t h.commands) : settled h' t = settled h t := by
  unfold settled
  rw [htimer, hcommands]

omit [DecidableEq ι] in
/-- What `Settles` depends on. -/
theorem Settles.congr {s' : TimerSystem τ ι threads} (hok : Settles i t x s)
    (htimer : settingOf (s'.host.timer t) = settingOf (s.host.timer t))
    (hcommands : commandsFor t s'.host.commands = commandsFor t s.host.commands)
    (hcaller : ∀ j, underWay t (s'.caller j) = underWay t (s.caller j)) : Settles i t x s' := by
  refine ⟨?_, fun j hj => ?_⟩
  · rw [hcaller i, settled_congr htimer hcommands]
    exact hok.settles
  · rw [hcaller j]
    exact hok.others j hj

omit [DecidableEq ι] in
/-- A call that the call site ignores would have changed nothing. -/
theorem immediate_of_returns {h : TimerHost τ} {ticks : ℤ} {request : TimerRequest}
    (hsite : h.request t ticks request = .returns true) (hagrees : CallAgrees h t request) :
    (settled h t).immediate ticks request = settled h t := by
  cases request with
  | start delay period =>
    simp only [TimerHost.request, TimerHost.start] at hsite
    split at hsite
    · contradiction
    · rename_i hactive
      exact if_pos (hagrees (by simpa using hactive))
  | stop =>
    simp only [TimerHost.request, TimerHost.stop] at hsite
    split at hsite
    · contradiction
    · rename_i hactive
      have hsettled : (settled h t).active = false := hagrees (by simpa using hactive)
      simp only [Setting.immediate]
      rw [← hsettled]
  | reset =>
    simp only [TimerHost.request, TimerHost.reset] at hsite
    split at hsite <;> cases hsite
  | restart delay period => contradiction
  | startOrReset delay period => contradiction
  | setPeriod period =>
    simp only [TimerHost.request, TimerHost.setPeriod] at hsite
    split at hsite <;> cases hsite

omit [DecidableEq ι] in
/-- A call for the timer is not coalesced. -/
theorem pushTest_isSome {h : TimerHost τ} {ticks : ℤ} {request : TimerRequest} {cmd : TimerCommand τ}
    (hsite : h.request t ticks request = .pushes cmd) (hagrees : CallAgrees h t request) :
    h.pushTest cmd ≠ none := by
  unfold TimerHost.pushTest
  split
  · rename_i u hu
    cases request with
    | restart delay period | startOrReset delay period =>
      cases hsite
      cases hu
      have hclear : (h.timer t).rearming = false := hagrees
      rw [hclear]
      exact nofun
    | start delay period =>
      simp only [TimerHost.request, TimerHost.start] at hsite
      split at hsite <;> cases hsite
      exact nomatch hu
    | stop =>
      simp only [TimerHost.request, TimerHost.stop] at hsite
      split at hsite <;> cases hsite
      exact nomatch hu
    | reset =>
      simp only [TimerHost.request, TimerHost.reset] at hsite
      split at hsite <;> cases hsite
      exact nomatch hu
    | setPeriod period =>
      simp only [TimerHost.request, TimerHost.setPeriod] at hsite
      split at hsite <;> cases hsite
      exact nomatch hu
  · exact nofun

omit [DecidableEq ι] in
theorem underWay_push {h : TimerHost τ} {cmd : TimerCommand τ} {push : Push τ} (hpush : h.pushTest cmd = some push) :
    underWay t (some push) = commandsFor t [cmd] := by
  unfold TimerHost.pushTest at hpush
  split at hpush
  · split at hpush
    · exact nomatch hpush
    · cases hpush
      rfl
  · cases hpush
    rfl

/-- INTERNAL: a call. -/
theorem Settles.call {countMax : ℕ} {j : ι} {u : τ} {request : TimerRequest} (hok : Settles i t x s)
    (hcalls : CallsOf countMax i t s (.call j u request)) (hheard : Heard t s (.call j u request)) :
    Settles i t (immediateStep t x s (.call j u request)) (s.step countMax (.call j u request)) := by
  have himmediate : immediateStep t x s (.call j u request) =
      if u = t ∧ s.caller j = none then x.immediate s.ticks request else x := rfl
  rw [himmediate]
  by_cases hfree : s.caller j = none
  · have hstep : s.stepResult countMax (.call j u request) = s.callAt j (s.host.request u s.ticks request) := if_pos hfree
    have hx : j = i → x = settled s.host t := by
      rintro rfl
      have hsettles := hok.settles
      rw [hfree] at hsettles
      exact hsettles.symm
    cases hsite : s.host.request u s.ticks request with
    | returns success =>
      have hcall : s.stepResult countMax (.call j u request) = (s, some success) := by
        rw [hstep, hsite]
        rfl
      have hsame : s.step countMax (.call j u request) = s := congrArg Prod.fst hcall
      rw [hsame]
      by_cases hu : u = t
      · subst hu
        obtain ⟨hji, hreply⟩ := hcalls.2 rfl
        rw [if_pos ⟨rfl, hfree⟩]
        have hsuccess : success = true := by
          rw [hcall] at hreply
          cases success
          · exact absurd rfl hreply
          · rfl
        rw [hsuccess] at hsite
        rw [hx hji, immediate_of_returns hsite (hheard rfl), ← hx hji]
        exact hok
      · rw [if_neg (fun h => hu h.1)]
        exact hok
    | pushes cmd =>
      obtain ⟨htimer, happly⟩ := apply_request hsite x
      cases hpush : s.host.pushTest cmd with
      | none =>
        have hcall : s.stepResult countMax (.call j u request) = (s, some true) := by
          rw [hstep, hsite]
          simp only [callAt, hpush]
        have hsame : s.step countMax (.call j u request) = s := congrArg Prod.fst hcall
        rw [hsame]
        by_cases hu : u = t
        · subst hu
          exact absurd hpush (pushTest_isSome hsite (hheard rfl))
        · rw [if_neg (fun h => hu h.1)]
          exact hok
      | some push =>
        have hcall : s.stepResult countMax (.call j u request) =
            ({ s with caller := Function.update s.caller j (some push) }, none) := by
          rw [hstep, hsite]
          simp only [callAt, hpush]
        have hnext : s.step countMax (.call j u request) =
            { s with caller := Function.update s.caller j (some push) } := congrArg Prod.fst hcall
        rw [hnext]
        by_cases hu : u = t
        · subst hu
          obtain ⟨hji, -⟩ := hcalls.2 rfl
          subst hji
          rw [if_pos ⟨rfl, hfree⟩]
          have hone : commandsFor u [cmd] = [cmd] := by simp [commandsFor, htimer]
          refine ⟨?_, fun k hk => ?_⟩
          · dsimp only
            rw [Function.update_self, underWay_push hpush, hone, ← happly, hx rfl]
            rfl
          · dsimp only
            rw [Function.update_of_ne hk]
            exact hok.others k hk
        · rw [if_neg (fun h => hu h.1)]
          refine hok.congr rfl rfl (fun k => ?_)
          by_cases hk : k = j
          · subst hk
            dsimp only
            rw [Function.update_self, underWay_push hpush, hfree]
            simp [commandsFor, underWay, htimer, hu]
          · dsimp only
            rw [Function.update_of_ne hk]
  · have hsame : s.step countMax (.call j u request) = s := congrArg Prod.fst (if_neg hfree)
    rw [hsame, if_neg (fun h => hfree h.2)]
    exact hok

omit [DecidableEq ι] in
theorem commandsFor_append (cmds cmds' : List (TimerCommand τ)) :
    commandsFor t (cmds ++ cmds') = commandsFor t cmds ++ commandsFor t cmds' := List.filter_append _ _

omit [DecidableEq ι] in
theorem settingOf_setRearming (h : TimerHost τ) (cmd : TimerCommand τ) (value : Bool) :
    settingOf ((h.setRearming cmd value).timer t) = settingOf (h.timer t) := by
  rw [TimerHost.setRearming_timer]
  split <;> rfl

/-- INTERNAL: a caller writes its command, or finds the queue full. -/
theorem Settles.write {countMax : ℕ} {j : ι} {cmd : TimerCommand τ} (hok : Settles i t x s)
    (hcalls : CallsOf countMax i t s (.write j)) (hcaller : s.caller j = some (.writing cmd)) :
    Settles i t x (s.step countMax (.write j)) := by
  have hstep : s.stepResult countMax (.write j) =
      ({ s with host := (s.host.pushWrite countMax cmd).1, caller := Function.update s.caller j none },
        some (s.host.pushWrite countMax cmd).2) := by
    simp only [stepResult, hcaller]
  have hnext : s.step countMax (.write j) = _ := congrArg Prod.fst hstep
  have hother : j ≠ i → commandsFor t [cmd] = [] := by
    intro hj
    have hnone := hok.others j hj
    rwa [hcaller] at hnone
  have hgone : ∀ k, underWay t (Function.update s.caller j none k) = if k = j then [] else underWay t (s.caller k) := by
    intro k
    by_cases hk : k = j
    · rw [hk, Function.update_self, if_pos rfl]
      rfl
    · rw [Function.update_of_ne hk, if_neg hk]
  rw [hnext]
  by_cases hroom : s.host.commands.length < countMax
  · have hwrite : s.host.pushWrite countMax cmd = ({ s.host with commands := s.host.commands ++ [cmd] }, true) :=
      if_pos hroom
    rw [hwrite]
    refine ⟨?_, fun k hk => ?_⟩
    · dsimp only
      rw [hgone]
      by_cases hij : i = j
      · subst hij
        rw [if_pos rfl]
        have hsettles := hok.settles
        rw [hcaller] at hsettles
        simp only [settled, commandsFor_append, List.foldl_append] at hsettles ⊢
        exact hsettles
      · rw [if_neg hij]
        have hsame : settled { s.host with commands := s.host.commands ++ [cmd] } t = settled s.host t := by
          refine settled_congr rfl ?_
          dsimp only
          rw [commandsFor_append, hother (Ne.symm hij), List.append_nil]
        rw [hsame]
        exact hok.settles
    · dsimp only
      rw [hgone]
      split
      · rfl
      · exact hok.others k hk
  · have hwrite : s.host.pushWrite countMax cmd =
        ({ s.host.setRearming cmd false with faults := .queueFull :: s.host.faults }, false) := if_neg hroom
    have hnone : commandsFor t [cmd] = [] := by
      by_contra hne
      refine hcalls.2 ?_ ?_
      · rw [hcaller]
        exact hne
      · rw [hstep, hwrite]
    rw [hwrite]
    refine hok.congr ?_ ?_ (fun k => ?_)
    · exact settingOf_setRearming _ _ _
    · exact congrArg (commandsFor t) (TimerHost.setRearming_commands _ _ _)
    · dsimp only
      rw [hgone]
      split
      · rename_i hk
        rw [hk, hcaller]
        exact hnone.symm
      · rfl

/-- INTERNAL: the steps other than a call. -/
theorem Settles.other {countMax : ℕ} (hok : Settles i t x s) (hcalls : CallsOf countMax i t s e)
    (hcall : ∀ j u request, e ≠ .call j u request) : Settles i t x (s.step countMax e) := by
  have hexpiry := hcalls.1
  have hwrite : ∀ (u : τ) (tmr : Timer), (u = t → settingOf tmr = settingOf (s.host.timer t)) →
      settingOf (Function.update s.host.timer u tmr t) = settingOf (s.host.timer t) := by
    intro u tmr htmr
    by_cases hu : t = u
    · rw [← hu, Function.update_self]
      exact htmr hu.symm
    · rw [Function.update_of_ne hu]
  have htransition := step_transition countMax s e
  generalize hs' : s.step countMax e = s' at htransition
  cases htransition with
  | stay | tick | block | empty | readTimeout | skip | stopped | walked | sentinel | sentinelLost | drain | stale
  | takeSentinel | handlerBlock | handlerTimeout => exact hok.congr rfl rfl (fun j => rfl)
  | call => exact absurd rfl (hcall _ _ _)
  | @callShutdown j hfree =>
    refine hok.congr rfl rfl (fun k => ?_)
    by_cases hk : k = j
    · subst hk
      dsimp only
      rw [Function.update_self, hfree]
      rfl
    · dsimp only
      rw [Function.update_of_ne hk]
  | @setRearming j cmd hcaller =>
    refine hok.congr (settingOf_setRearming _ _ _) (congrArg (commandsFor t) (TimerHost.setRearming_commands _ _ _)) (fun k => ?_)
    by_cases hk : k = j
    · subst hk
      dsimp only
      rw [Function.update_self, hcaller]
      rfl
    · dsimp only
      rw [Function.update_of_ne hk]
  | written hcaller =>
    rw [← hs']
    exact hok.write hcalls hcaller
  | full hcaller =>
    rw [← hs']
    exact hok.write hcalls hcaller
  | @take nextSleep cmd commands hin hcommands hcmd =>
    have htimer := TimerHost.processCommand_timer { s.host with commands := commands } nextSleep cmd t
    have hpipes := (TimerHost.processCommand_pipes { s.host with commands := commands } nextSleep cmd).1
    by_cases ht : cmd.timer = some t
    · refine ⟨?_, hok.others⟩
      have hsettles := hok.settles
      rw [if_pos ht] at htimer
      have hhead : commandsFor t s.host.commands = cmd :: commandsFor t commands := by
        rw [hcommands]
        exact List.filter_cons_of_pos (decide_eq_true ht)
      simp only [settled, hhead, List.foldl_cons] at hsettles
      simp only [settled, htimer, hpipes, settingOf_apply]
      exact hsettles
    · rw [if_neg ht] at htimer
      refine hok.congr (congrArg settingOf htimer) ?_ (fun j => rfl)
      refine (congrArg (commandsFor t) hpipes).trans ?_
      rw [hcommands]
      exact (List.filter_cons_of_neg (by simpa using ht)).symm
  | @takeShutdown nextSleep commands hin hcommands =>
    refine hok.congr rfl ?_ (fun j => rfl)
    rw [hcommands]
    rfl
  | @due now nextSleep u rest htask hactive hpending hdue =>
    refine hok.congr ?_ (congrArg (commandsFor t) (expire_commands _ _ _)) (fun j => rfl)
    rw [expire_timer]
    refine hwrite _ _ (fun hu => ?_)
    subst hu
    have hexpires : expiry u s .update = some ((s.host.timer u).deadline, now) := by
      unfold expiry
      simp only [visited, htask]
      exact if_pos ⟨trivial, hactive, hpending, hdue⟩
    have hclash := hexpiry.symm.trans hexpires
    contradiction
  | notDue | lost | pushed =>
    exact hok.congr (by rw [endVisit_timer]) (by rw [endVisit_commands]) (fun j => by rw [endVisit_caller])
  | onExpired => exact hok.congr (hwrite _ _ (fun hu => by subst hu; rfl)) rfl (fun j => rfl)

/-- **The step lemma.** -/
theorem Settles.step {countMax : ℕ} (hok : Settles i t x s) (hcalls : CallsOf countMax i t s e) (hheard : Heard t s e) :
    Settles i t (immediateStep t x s e) (s.step countMax e) := by
  cases e with
  | call j u request => exact hok.call hcalls hheard
  | _ => exact hok.other hcalls nofun

theorem Settles.run {countMax : ℕ} {es : List (TimerEvent τ ι threads)} :
    ∀ {s : TimerSystem τ ι threads} {x : Setting}, Settles i t x s →
      Runs.Along (TimerSystem.step countMax) (CallsOf countMax i t) s es →
      Runs.Along (TimerSystem.step countMax) (Heard t) s es →
      Settles i t (immediately countMax t x s es) (s.run countMax es) := by
  induction es with
  | nil => exact fun hok _ _ => hok
  | cons e es ih => exact fun hok hcalls hheard => ih (hok.step hcalls.1 hheard.1) hcalls.2 hheard.2

/-- **The commands are taken in the order of the calls.**  In a run from any state with no command for the timer on its
way, in which the calls for the timer are calls of one task and return `true` and the timer does not expire, once the
commands have been taken the timer has the setting that the calls give it at once, if each call was made when the
call site told what the queued commands would leave. -/
theorem run_timerOrder (countMax : ℕ) (i : ι) (t : τ) {s₀ : TimerSystem τ ι threads} {es : List (TimerEvent τ ι threads)}
    (hstart : commandsFor t s₀.host.commands = [] ∧ ∀ j, underWay t (s₀.caller j) = [])
    (hcalls : Runs.Along (TimerSystem.step countMax) (CallsOf countMax i t) s₀ es)
    (hheard : Runs.Along (TimerSystem.step countMax) (Heard t) s₀ es) :
    let s := run countMax s₀ es
    commandsFor t s.host.commands = [] → underWay t (s.caller i) = [] →
      settingOf (s.host.timer t) = immediately countMax t (settingOf (s₀.host.timer t)) s₀ es := by
  intro s hdrained hreturned
  have hinitial : Settles i t (settingOf (s₀.host.timer t)) s₀ := by
    refine ⟨?_, fun j _ => hstart.2 j⟩
    rw [hstart.2 i, settled, hstart.1]
    rfl
  have hsettles := (hinitial.run hcalls hheard).settles
  rw [hreturned, settled, hdrained] at hsettles
  exact hsettles

/-- Start, and then Reset, SetPeriod and Stop with their commands in the queue together, and a Start once they have been
taken. -/
def callsInOrder : List (TimerEvent Unit Unit 1) :=
  [.call () () (.start 5 5), .write (), .update, .tick, .call () () .reset, .write (), .call () () (.setPeriod 7),
    .write (), .call () () .stop, .write (), .update, .update, .update, .call () () (.start 2 0), .write (), .update]

theorem callsInOrder_heard :
    Runs.Along (TimerSystem.step 32) (CallsOf 32 () ()) (TimerSystem.initial : TimerSystem Unit Unit 1) callsInOrder ∧
      Runs.Along (TimerSystem.step 32) (Heard ()) (TimerSystem.initial : TimerSystem Unit Unit 1) callsInOrder := by
  constructor
  · decide +kernel
  · decide +kernel

theorem callsInOrder_settle :
    let s₀ : TimerSystem Unit Unit 1 := TimerSystem.initial
    settingOf ((run 32 s₀ callsInOrder).host.timer ()) = immediately 32 () (settingOf (s₀.host.timer ())) s₀ callsInOrder ∧
      settingOf ((run 32 s₀ callsInOrder).host.timer ()) = ⟨true, 0, 3⟩ := by
  intro s₀
  refine ⟨?_, by decide +kernel⟩
  exact run_timerOrder 32 () () ⟨rfl, fun _ => rfl⟩ callsInOrder_heard.1 callsInOrder_heard.2 (by decide +kernel)
    (by decide +kernel)

/-- Start and Stop, Stop and Start, and two Restarts, with no command taken in between. -/
def startStop : List (TimerEvent Unit Unit 1) :=
  [.call () () (.start 5 5), .write (), .call () () .stop, .write (), .update, .update]

def stopStart : List (TimerEvent Unit Unit 1) :=
  [.call () () (.start 5 5), .write (), .update, .call () () .stop, .write (), .call () () (.start 7 7), .write (),
    .update, .update]

def restarts : List (TimerEvent Unit Unit 1) :=
  [.call () () (.restart 5 5), .setRearming (), .write (), .call () () (.restart 7 7), .setRearming (), .write (),
    .update, .update]

/-- All calls return `true` and the queue is drained: Start and Stop leave the timer running, Stop and Start leave it
stopped, and of two Restarts the first wins. -/
theorem calls_differ :
    let s₀ : TimerSystem Unit Unit 1 := TimerSystem.initial
    let x₀ := settingOf (s₀.host.timer ())
    (∀ es ∈ [startStop, stopStart, restarts], Runs.Along (TimerSystem.step 32) (CallsOf 32 () ()) s₀ es ∧
      (run 32 s₀ es).host.commands = [] ∧ (run 32 s₀ es).caller () = none) ∧
    (settingOf ((run 32 s₀ startStop).host.timer ()) = ⟨true, 5, 5⟩ ∧
      immediately 32 () x₀ s₀ startStop = ⟨false, 5, 5⟩) ∧
    (settingOf ((run 32 s₀ stopStart).host.timer ()) = ⟨false, 5, 5⟩ ∧
      immediately 32 () x₀ s₀ stopStart = ⟨true, 7, 7⟩) ∧
    settingOf ((run 32 s₀ restarts).host.timer ()) = ⟨true, 5, 5⟩ ∧
      immediately 32 () x₀ s₀ restarts = ⟨true, 7, 7⟩ := by
  intro s₀ x₀
  refine ⟨?_, ?_, ?_, ?_⟩
  · decide +kernel
  · decide +kernel
  · decide +kernel
  · decide +kernel

end Stk.Analysis
