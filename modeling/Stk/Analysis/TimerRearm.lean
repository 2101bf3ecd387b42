import Stk.Analysis.TimerStep
import Stk.Foundation.Runs

/-!
# The re-arm flag of a timer

`m_rearming` is set while a `CMD_RESTART` or `CMD_START_OR_RESET` for the timer is on its way (`RearmOk`): one
caller is writing it, or it is in the queue.  `CMD_START_OR_RESET` clears the flag of an inactive timer only,
and the test of the flag and its write are two steps.
-/

set_option autoImplicit false

namespace Stk.Analysis

open Stk.Model Stk.Model.TimerSystem

variable {τ ι : Type} {threads : ℕ}

/-- The timer whose flag a caller has found clear and is about to set. -/
def tests : Option (Push τ) → Option τ
  | some (.tested cmd) => cmd.rearms
  | _ => none

/-- The timer of the re-arm command that a caller is writing. -/
def writes : Option (Push τ) → Option τ
  | some (.writing cmd) => cmd.rearms
  | _ => none

section

variable [DecidableEq τ] {s : TimerSystem τ ι threads} {t : τ}

/-- The re-arm commands for a timer in the queue. -/
def queued (commands : List (TimerCommand τ)) (t : τ) : ℕ := commands.countP fun cmd => decide (cmd.rearms = some t)

/-- A re-arm command for the timer is in the queue or being written. -/
def Rearming (s : TimerSystem τ ι threads) (t : τ) : Prop :=
  (∃ cmd ∈ s.host.commands, cmd.rearms = some t) ∨ ∃ i, writes (s.caller i) = some t

/-- One re-arm command for the timer is on its way if the flag is set, and none if it is clear. -/
structure RearmOk (s : TimerSystem τ ι threads) (t : τ) : Prop where
  flag : (s.host.timer t).rearming = true ↔ queued s.host.commands t ≠ 0 ∨ ∃ i, writes (s.caller i) = some t
  queued_le : queued s.host.commands t ≤ 1
  writer : ∀ i, writes (s.caller i) = some t → queued s.host.commands t = 0
  writers : ∀ i j, writes (s.caller i) = some t → writes (s.caller j) = some t → i = j
  tester : ∀ i, tests (s.caller i) = some t → (s.host.timer t).rearming = false
  testers : ∀ i j, tests (s.caller i) = some t → tests (s.caller j) = some t → i = j

theorem queued_pos_iff {commands : List (TimerCommand τ)} :
    queued commands t ≠ 0 ↔ ∃ cmd ∈ commands, cmd.rearms = some t := by
  unfold queued
  rw [Ne, List.countP_eq_zero]
  simp

theorem RearmOk.iff (hok : RearmOk s t) : (s.host.timer t).rearming = true ↔ Rearming s t :=
  hok.flag.trans (or_congr_left queued_pos_iff)

/-- What `RearmOk` depends on. -/
theorem RearmOk.congr {s' : TimerSystem τ ι threads} (hok : RearmOk s t)
    (hflag : (s'.host.timer t).rearming = (s.host.timer t).rearming)
    (hqueued : queued s'.host.commands t = queued s.host.commands t)
    (hwrites : ∀ i, writes (s'.caller i) = some t ↔ writes (s.caller i) = some t)
    (htests : ∀ i, tests (s'.caller i) = some t ↔ tests (s.caller i) = some t) : RearmOk s' t := by
  refine ⟨?_, ?_, fun i hi => ?_, fun i j hi hj => ?_, fun i hi => ?_, fun i j hi hj => ?_⟩
  · rw [hflag, hqueued]
    simpa only [hwrites] using hok.flag
  · rw [hqueued]
    exact hok.queued_le
  · rw [hqueued]
    exact hok.writer i ((hwrites i).mp hi)
  · exact hok.writers i j ((hwrites i).mp hi) ((hwrites j).mp hj)
  · rw [hflag]
    exact hok.tester i ((htests i).mp hi)
  · exact hok.testers i j ((htests i).mp hi) ((htests j).mp hj)

/-- A step of the tick task or of a handler task that leaves the queue alone. -/
theorem RearmOk.frame {s' : TimerSystem τ ι threads} (hok : RearmOk s t)
    (hflag : (s'.host.timer t).rearming = (s.host.timer t).rearming)
    (hcommands : s'.host.commands = s.host.commands) (hcaller : s'.caller = s.caller) : RearmOk s' t := by
  refine hok.congr hflag ?_ (fun i => ?_) (fun i => ?_)
  · rw [hcommands]
  · rw [hcaller]
  · rw [hcaller]

end

/-- The commands other than the re-arm commands leave the flag alone. -/
theorem apply_rearming (tmr : Timer) (cmd : TimerCommand τ) (hcmd : cmd.rearms = none) :
    (tmr.apply cmd).rearming = tmr.rearming := by
  cases cmd with
  | shutdown => exact rfl
  | start u timestamp delay period => simp only [Timer.apply]; split <;> rfl
  | stop u => exact rfl
  | reset u timestamp => simp only [Timer.apply]; split <;> rfl
  | restart u timestamp delay period => contradiction
  | startOrReset u timestamp delay period => contradiction
  | setPeriod u period => simp only [Timer.apply]; split <;> rfl

theorem timer_of_rearms {cmd : TimerCommand τ} {t : τ} (hcmd : cmd.rearms = some t) : cmd.timer = some t := by
  cases cmd with
  | restart | startOrReset => exact hcmd
  | _ => exact nomatch hcmd

/-- `is_rearm` of the command of a request. -/
def isRearm : TimerRequest → Bool
  | .restart _ _ | .startOrReset _ _ => true
  | _ => false

theorem request_rearms {h : TimerHost τ} {tmr : τ} {ticks : ℤ} {request : TimerRequest} {cmd : TimerCommand τ}
    (hsite : h.request tmr ticks request = .pushes cmd) :
    cmd.rearms = if isRearm request then some tmr else none := by
  cases request with
  | start delay period =>
    simp only [TimerHost.request, TimerHost.start] at hsite
    split at hsite <;> cases hsite
    rfl
  | stop =>
    simp only [TimerHost.request, TimerHost.stop] at hsite
    split at hsite <;> cases hsite
    rfl
  | reset =>
    simp only [TimerHost.request, TimerHost.reset] at hsite
    split at hsite <;> cases hsite
    rfl
  | restart delay period =>
    cases hsite
    rfl
  | startOrReset delay period =>
    cases hsite
    rfl
  | setPeriod period =>
    simp only [TimerHost.request, TimerHost.setPeriod] at hsite
    split at hsite <;> cases hsite
    rfl

/-! ## Steps -/

/-- The next command is no `CMD_START_OR_RESET` for an active timer. -/
def ClearsFlag (h : TimerHost τ) : List (TimerCommand τ) → Prop
  | .startOrReset t _ _ _ :: _ => (h.timer t).active = false
  | _ => True

/-- The tick task takes no `CMD_START_OR_RESET` for an active timer. -/
def TakesCleared (h : TimerHost τ) : TickTask τ → Prop
  | .looping _ | .reading _ _ => ClearsFlag h h.commands
  | _ => True

/-- No caller tests the flag of a timer while another one is between the test and the write of that flag, and the tick
task takes no `CMD_START_OR_RESET` for an active timer. -/
def RearmsApart (s : TimerSystem τ ι threads) : TimerEvent τ ι threads → Prop
  | .call _ t request => isRearm request = true → ∀ j, tests (s.caller j) ≠ some t
  | .update => TakesCleared s.host s.tickTask
  | _ => True

instance {h : TimerHost τ} : ∀ commands, Decidable (ClearsFlag h commands)
  | .startOrReset t _ _ _ :: _ => inferInstanceAs (Decidable ((h.timer t).active = false))
  | [] | .shutdown :: _ | .start _ _ _ _ :: _ | .stop _ :: _ | .reset _ _ :: _ | .restart _ _ _ _ :: _
  | .setPeriod _ _ :: _ => .isTrue trivial

instance {h : TimerHost τ} : ∀ task, Decidable (TakesCleared h task)
  | .looping _ | .reading _ _ => inferInstanceAs (Decidable (ClearsFlag h h.commands))
  | .walking _ _ _ | .writing _ _ _ _ _ _ | .stopping _ | .finished => .isTrue trivial

instance [DecidableEq τ] [Fintype ι] {s : TimerSystem τ ι threads} : ∀ e, Decidable (RearmsApart s e)
  | .call _ t request => inferInstanceAs (Decidable (isRearm request = true → ∀ j, tests (s.caller j) ≠ some t))
  | .update => inferInstanceAs (Decidable (TakesCleared s.host s.tickTask))
  | .tick | .shutdown _ | .setRearming _ | .write _ | .updateTimeout | .handle _ | .handleTimeout _ => .isTrue trivial

variable [DecidableEq τ] [DecidableEq ι] {s : TimerSystem τ ι threads} {t : τ}

omit [DecidableEq τ] in
theorem update_iff {f : Option (Push τ) → Option τ} {i : ι} {p : Option (Push τ)}
    (hp : f p = some t ↔ f (s.caller i) = some t) (k : ι) :
    f (Function.update s.caller i p k) = some t ↔ f (s.caller k) = some t := by
  by_cases hk : k = i
  · rw [hk, Function.update_self]
    exact hp
  · rw [Function.update_of_ne hk]

omit [DecidableEq ι] in
theorem setRearming_flag (h : TimerHost τ) (cmd : TimerCommand τ) (value : Bool) :
    ((h.setRearming cmd value).timer t).rearming =
      if cmd.rearms = some t then value else (h.timer t).rearming := by
  rw [TimerHost.setRearming_timer]
  split <;> rfl

/-- INTERNAL: a caller has found the flag clear. -/
theorem RearmOk.tested {i : ι} {cmd : TimerCommand τ} (hok : RearmOk s t) (hfree : s.caller i = none)
    (hclear : cmd.rearms = some t → (s.host.timer t).rearming = false)
    (hapart : cmd.rearms = some t → ∀ j, tests (s.caller j) ≠ some t) :
    RearmOk { s with caller := Function.update s.caller i (some (.tested cmd)) } t := by
  have hwrites : ∀ k, writes (Function.update s.caller i (some (.tested cmd)) k) = some t ↔
      writes (s.caller k) = some t := update_iff (by rw [hfree]; simp [writes])
  by_cases hcmd : cmd.rearms = some t
  · have hone : ∀ k, tests (Function.update s.caller i (some (.tested cmd)) k) = some t → k = i := by
      intro k hk
      by_contra hne
      rw [Function.update_of_ne hne] at hk
      exact hapart hcmd k hk
    refine ⟨?_, hok.queued_le, fun k hk => hok.writer k ((hwrites k).mp hk), fun k l hk hl => ?_, fun k _ => hclear hcmd,
      fun k l hk hl => (hone k hk).trans (hone l hl).symm⟩
    · simpa only [hwrites] using hok.flag
    · exact hok.writers k l ((hwrites k).mp hk) ((hwrites l).mp hl)
  · refine hok.congr rfl rfl hwrites (update_iff ?_)
    rw [hfree]
    simp [tests, hcmd]

/-- INTERNAL: a caller sets the flag. -/
theorem RearmOk.setRearming {i : ι} {cmd : TimerCommand τ} (hok : RearmOk s t)
    (hcaller : s.caller i = some (.tested cmd)) :
    RearmOk { s with
      host := s.host.setRearming cmd true
      caller := Function.update s.caller i (some (.writing cmd)) } t := by
  by_cases hcmd : cmd.rearms = some t
  · have htest : tests (s.caller i) = some t := by
      rw [hcaller]
      exact hcmd
    have hclear := hok.tester i htest
    have hnone : ¬(queued s.host.commands t ≠ 0 ∨ ∃ j, writes (s.caller j) = some t) := by
      rw [← hok.flag, hclear]
      decide
    rw [not_or, not_not] at hnone
    have hwriter : ∀ k, writes (Function.update s.caller i (some (.writing cmd)) k) = some t → k = i := by
      intro k hk
      by_contra hne
      rw [Function.update_of_ne hne] at hk
      exact hnone.2 ⟨k, hk⟩
    have htester : ∀ k, tests (Function.update s.caller i (some (.writing cmd)) k) ≠ some t := by
      intro k hk
      by_cases hne : k = i
      · rw [hne, Function.update_self] at hk
        exact nomatch hk
      · rw [Function.update_of_ne hne] at hk
        exact hne (hok.testers k i hk htest)
    have hzero : queued (s.host.setRearming cmd true).commands t = 0 := by
      rw [TimerHost.setRearming_commands]
      exact hnone.1
    refine ⟨?_, ?_, fun k hk => hzero, fun k l hk hl => (hwriter k hk).trans (hwriter l hl).symm,
      fun k hk => absurd hk (htester k), fun k l hk => absurd hk (htester k)⟩
    · rw [setRearming_flag, if_pos hcmd]
      refine iff_of_true rfl (.inr ⟨i, ?_⟩)
      dsimp only
      rw [Function.update_self]
      exact hcmd
    · dsimp only
      omega
  · refine hok.congr ?_ ?_ (update_iff ?_) (update_iff ?_)
    · rw [setRearming_flag, if_neg hcmd]
    · rw [TimerHost.setRearming_commands]
    · rw [hcaller]
      simp [writes, hcmd]
    · rw [hcaller]
      simp [tests, hcmd]

/-- INTERNAL: a caller has written its command, or the queue was full; then the flag is cleared again. -/
theorem RearmOk.written {i : ι} {cmd : TimerCommand τ} {s' : TimerSystem τ ι threads} (hok : RearmOk s t)
    (hcaller : s.caller i = some (.writing cmd)) (hs' : s'.caller = Function.update s.caller i none)
    (hother : cmd.rearms ≠ some t → queued s'.host.commands t = queued s.host.commands t ∧
      (s'.host.timer t).rearming = (s.host.timer t).rearming)
    (hown : cmd.rearms = some t → queued s.host.commands t = 0 → queued s'.host.commands t ≤ 1 ∧
      ((s'.host.timer t).rearming = true ↔ queued s'.host.commands t ≠ 0)) : RearmOk s' t := by
  by_cases hcmd : cmd.rearms = some t
  · have hwrite : writes (s.caller i) = some t := by
      rw [hcaller]
      exact hcmd
    have hzero := hok.writer i hwrite
    have hset : (s.host.timer t).rearming = true := hok.flag.mpr (.inr ⟨i, hwrite⟩)
    obtain ⟨hle, hflag⟩ := hown hcmd hzero
    have hwriter : ∀ k, writes (s'.caller k) ≠ some t := by
      intro k hk
      rw [hs'] at hk
      by_cases hne : k = i
      · rw [hne, Function.update_self] at hk
        exact nomatch hk
      · rw [Function.update_of_ne hne] at hk
        exact hne (hok.writers k i hk hwrite)
    have htester : ∀ k, tests (s'.caller k) ≠ some t := by
      intro k hk
      rw [hs'] at hk
      by_cases hne : k = i
      · rw [hne, Function.update_self] at hk
        exact nomatch hk
      · rw [Function.update_of_ne hne] at hk
        rw [hok.tester k hk] at hset
        exact nomatch hset
    refine ⟨hflag.trans ?_, hle, fun k hk => absurd hk (hwriter k), fun k l hk => absurd hk (hwriter k),
      fun k hk => absurd hk (htester k), fun k l hk => absurd hk (htester k)⟩
    rw [or_iff_left (fun ⟨k, hk⟩ => hwriter k hk)]
  · obtain ⟨hqueued, hflag⟩ := hother hcmd
    refine hok.congr hflag hqueued ?_ ?_
    · rw [hs']
      refine update_iff ?_
      rw [hcaller]
      simp [writes, hcmd]
    · rw [hs']
      refine update_iff ?_
      rw [hcaller]
      simp [tests]

omit [DecidableEq ι] in
/-- INTERNAL: the tick task takes a command. -/
theorem RearmOk.take {s' : TimerSystem τ ι threads} {nextSleep : ℤ} {cmd : TimerCommand τ}
    {commands : List (TimerCommand τ)} (hok : RearmOk s t) (hcommands : s.host.commands = cmd :: commands)
    (hclears : ClearsFlag s.host s.host.commands) (hcaller : s'.caller = s.caller)
    (hs' : s'.host = (TimerHost.processCommand { s.host with commands := commands } nextSleep cmd).1) :
    RearmOk s' t := by
  have hqueue : s'.host.commands = commands := by
    rw [hs']
    exact (TimerHost.processCommand_pipes _ _ _).1
  have htimer := TimerHost.processCommand_timer { s.host with commands := commands } nextSleep cmd t
  rw [← hs'] at htimer
  by_cases hcmd : cmd.rearms = some t
  · have hone : queued s.host.commands t = queued commands t + 1 := by
      rw [hcommands]
      exact List.countP_cons_of_pos (decide_eq_true hcmd)
    have hle := hok.queued_le
    have hnone : ∀ i, writes (s.caller i) ≠ some t := by
      intro i hi
      have := hok.writer i hi
      omega
    have hset : (s.host.timer t).rearming = true := hok.flag.mpr (.inl (by omega))
    have hclear : (s'.host.timer t).rearming = false := by
      rw [htimer, if_pos (timer_of_rearms hcmd)]
      cases cmd with
      | restart u timestamp delay period => exact rfl
      | startOrReset u timestamp delay period =>
        rw [hcommands] at hclears
        cases hcmd
        have hinactive : (s.host.timer t).active = false := hclears
        simp [Timer.apply, hinactive]
      | _ => contradiction
    have hzero : queued s'.host.commands t = 0 := by
      rw [hqueue]
      omega
    refine ⟨?_, by omega, fun i _ => hzero, ?_, fun i _ => hclear, ?_⟩
    · rw [hclear, hzero, hcaller]
      refine iff_of_false (by decide) ?_
      rintro (h | ⟨i, hi⟩)
      · exact h rfl
      · exact hnone i hi
    · rw [hcaller]
      exact hok.writers
    · rw [hcaller]
      exact hok.testers
  · refine hok.congr ?_ ?_ (fun i => by rw [hcaller]) (fun i => by rw [hcaller])
    · rw [htimer]
      by_cases hown : cmd.timer = some t
      · rw [if_pos hown]
        apply apply_rearming
        cases hrearms : cmd.rearms with
        | none => rfl
        | some u =>
          rw [timer_of_rearms hrearms] at hown
          rw [hrearms] at hcmd
          exact absurd hown hcmd
      · rw [if_neg hown]
    · rw [hqueue, hcommands]
      exact (List.countP_cons_of_neg (by simpa using hcmd)).symm

/-- **The step lemma.** -/
theorem RearmOk.step (countMax : ℕ) {e : TimerEvent τ ι threads} (hok : RearmOk s t) (hapart : RearmsApart s e) :
    RearmOk (s.step countMax e) t := by
  have hwrite : ∀ (u : τ) (tmr : Timer), tmr.rearming = (s.host.timer u).rearming →
      (Function.update s.host.timer u tmr t).rearming = (s.host.timer t).rearming := by
    intro u tmr htmr
    by_cases hu : t = u
    · rw [hu, Function.update_self]
      exact htmr
    · rw [Function.update_of_ne hu]
  have htransition := step_transition countMax s e
  generalize s.step countMax e = s' at htransition
  cases htransition with
  | stay => exact hok
  | tick => exact hok.frame rfl rfl rfl
  | @call i tmr request cmd push hfree hsite hpush =>
    have hrearms := request_rearms hsite
    unfold TimerHost.pushTest at hpush
    split at hpush
    · rename_i u hu
      split at hpush
      · exact nomatch hpush
      · rename_i hclear
        cases hpush
        have hown : cmd.rearms = some t → u = t := fun h => Option.some.inj (hu.symm.trans h)
        refine hok.tested hfree (fun h => ?_) (fun h => ?_)
        · rw [← hown h]
          exact Bool.eq_false_iff.mpr hclear
        · rw [h] at hrearms
          by_cases hre : isRearm request = true
          · rw [if_pos hre] at hrearms
            rw [Option.some.inj hrearms]
            exact hapart hre
          · rw [if_neg hre] at hrearms
            exact nomatch hrearms
    · rename_i hnone
      cases hpush
      refine hok.congr rfl rfl (update_iff ?_) (update_iff ?_)
      · rw [hfree]
        simp [writes, hnone]
      · rw [hfree]
        simp [tests]
  | callShutdown hfree =>
    refine hok.congr rfl rfl (update_iff ?_) (update_iff ?_)
    · rw [hfree]
      simp [writes, TimerCommand.rearms]
    · rw [hfree]
      simp [tests]
  | setRearming hcaller => exact hok.setRearming hcaller
  | @written i cmd hcaller hroom =>
    have hcount : queued (s.host.commands ++ [cmd]) t =
        queued s.host.commands t + if cmd.rearms = some t then 1 else 0 := by
      simp [queued, List.countP_append, List.countP_singleton]
    refine hok.written hcaller rfl (fun hcmd => ⟨?_, rfl⟩) (fun hcmd hzero => ⟨?_, ?_⟩)
    · rw [hcount, if_neg hcmd]
      rfl
    · rw [hcount, if_pos hcmd]
      omega
    · rw [hcount, if_pos hcmd]
      refine iff_of_true (hok.flag.mpr (.inr ⟨i, ?_⟩)) (by omega)
      rw [hcaller]
      exact hcmd
  | full hcaller hfull =>
    refine hok.written hcaller rfl (fun hcmd => ⟨?_, ?_⟩) (fun hcmd hzero => ?_)
    · exact congrArg (queued · t) (TimerHost.setRearming_commands _ _ _)
    · exact (setRearming_flag _ _ _).trans (if_neg hcmd)
    · dsimp only
      rw [TimerHost.setRearming_commands, setRearming_flag, if_pos hcmd, hzero]
      exact ⟨by omega, by simp⟩
  | take hin hcommands hcmd =>
    refine hok.take hcommands ?_ rfl rfl
    rcases hin with htask | ⟨since, htask⟩ <;> simpa only [RearmsApart, htask, TakesCleared] using hapart
  | takeShutdown hin hcommands =>
    refine hok.congr rfl ?_ (fun i => Iff.rfl) (fun i => Iff.rfl)
    rw [hcommands]
    exact (List.countP_cons_of_neg (by simp [TimerCommand.rearms])).symm
  | block | empty | readTimeout | skip | stopped | walked | sentinel | sentinelLost | drain | stale | takeSentinel
  | handlerBlock | handlerTimeout => exact hok.frame rfl rfl rfl
  | due =>
    refine hok.frame ?_ (expire_commands _ _ _) rfl
    rw [expire_timer]
    exact hwrite _ _ (Timer.expire_rearming _ _)
  | notDue => exact hok.frame (by rw [endVisit_timer]) (endVisit_commands _ _ _ _ _ _) (endVisit_caller _ _ _ _ _ _)
  | lost => exact hok.frame (by rw [endVisit_timer]) (endVisit_commands _ _ _ _ _ _) (endVisit_caller _ _ _ _ _ _)
  | pushed => exact hok.frame (by rw [endVisit_timer]) (endVisit_commands _ _ _ _ _ _) (endVisit_caller _ _ _ _ _ _)
  | onExpired => exact hok.frame (hwrite _ _ rfl) rfl rfl

/-! ## Runs -/

omit [DecidableEq ι] in
theorem RearmOk.initial : RearmOk (TimerSystem.initial : TimerSystem τ ι threads) t := by
  refine ⟨?_, Nat.zero_le _, fun i hi => (nomatch hi), fun i j hi => (nomatch hi), fun i hi => (nomatch hi),
    fun i j hi => (nomatch hi)⟩
  refine iff_of_false (by simp [TimerSystem.initial, TimerHost.initial, Timer.initial]) ?_
  rintro (h | ⟨i, hi⟩)
  · exact h rfl
  · exact nomatch hi

theorem RearmOk.run (countMax : ℕ) {es : List (TimerEvent τ ι threads)}
    (hes : Runs.Along (TimerSystem.step countMax) RearmsApart s es) (hok : RearmOk s t) :
    RearmOk (s.run countMax es) t :=
  hes.invariant (I := fun s => RearmOk s t) (fun _ _ hs hapart => hs.step countMax hapart) hok

/-- A call of `Restart` or `StartOrReset` that finds the flag clear writes its command, if there is room. -/
theorem run_call (countMax : ℕ) {i : ι} {request : TimerRequest} {cmd : TimerCommand τ}
    (hfree : s.caller i = none) (hsite : s.host.request t s.ticks request = .pushes cmd)
    (hrearm : isRearm request = true) (hclear : (s.host.timer t).rearming = false)
    (hroom : s.host.commands.length < countMax) :
    (s.run countMax [.call i t request, .setRearming i, .write i]).host.commands = s.host.commands ++ [cmd] := by
  have hcmd := request_rearms hsite
  rw [if_pos hrearm] at hcmd
  have hcall : s.step countMax (.call i t request) =
      { s with caller := Function.update s.caller i (some (.tested cmd)) } := by
    simp [TimerSystem.step, stepResult, hfree, hsite, callAt, TimerHost.pushTest, hcmd, hclear]
  simp only [TimerSystem.run, List.foldl_cons, List.foldl_nil, hcall]
  simp [TimerSystem.step, stepResult, TimerHost.pushWrite, TimerHost.setRearming_commands, hroom]

/-- **The flag tells of a re-arm command on its way.**  In every state of a run whose calls test and set the flag of a
timer one at a time, and in which `CMD_START_OR_RESET` is taken for inactive timers only, the flag is set just if a
re-arm command for the timer is in the queue or being written; so a `Restart` or `StartOrReset` with none on its way
is put into the queue. -/
theorem run_rearming (countMax : ℕ) {es : List (TimerEvent τ ι threads)}
    (hes : Runs.Along (step countMax) RearmsApart TimerSystem.initial es) (t : τ) :
    let s : TimerSystem τ ι threads := run countMax TimerSystem.initial es
    ((s.host.timer t).rearming = true ↔ Rearming s t) ∧
      ∀ (i : ι) (request : TimerRequest) (cmd : TimerCommand τ), ¬Rearming s t → s.caller i = none →
        isRearm request = true → s.host.request t s.ticks request = .pushes cmd →
        s.host.commands.length < countMax →
        (s.run countMax [.call i t request, .setRearming i, .write i]).host.commands = s.host.commands ++ [cmd] := by
  intro s
  have hok : RearmOk s t := RearmOk.run countMax hes .initial
  refine ⟨hok.iff, fun i request cmd hnone hfree hrearm hsite hroom => ?_⟩
  have hclear : (s.host.timer t).rearming = false := Bool.eq_false_iff.mpr (fun hset => hnone (hok.iff.mp hset))
  exact run_call countMax hfree hsite hrearm hclear hroom

/-- A Restart of an inactive timer, once with the command taken and once without. -/
def restartTwice : List (TimerEvent Unit Unit 1) :=
  [.call () () (.restart 5 5), .setRearming (), .write (), .update, .call () () (.restart 7 7), .setRearming (), .write ()]

theorem restartTwice_apart :
    Runs.Along (TimerSystem.step 32) RearmsApart (TimerSystem.initial : TimerSystem Unit Unit 1) restartTwice := by
  decide +kernel

theorem restartTwice_rearming :
    let s : TimerSystem Unit Unit 1 := run 32 TimerSystem.initial restartTwice
    Rearming s () ∧ (s.host.timer ()).rearming = true := by
  intro s
  have hset : (s.host.timer ()).rearming = true := by decide +kernel
  exact ⟨(run_rearming 32 restartTwice_apart ()).1.mp hset, hset⟩

/-- A `StartOrReset` for an active periodic timer. -/
def resetActive : List (TimerEvent Unit Unit 1) :=
  [.call () () (.start 5 5), .write (), .update, .call () () (.startOrReset 5 5), .setRearming (), .write (), .update]

/-- The queue is empty and no call is under way, and the flag is set: a `Restart` returns `true` and its command is
not put into the queue. -/
theorem resetActive_drops :
    let s : TimerSystem Unit Unit 1 := run 32 TimerSystem.initial resetActive
    s.host.commands = [] ∧ s.caller () = none ∧ ¬Rearming s () ∧ (s.host.timer ()).rearming = true ∧
      (s.stepResult 32 (.call () () (.restart 9 9))).2 = some true ∧
      (s.run 32 [.call () () (.restart 9 9), .setRearming (), .write ()]).host.commands = [] := by
  intro s
  have hcommands : s.host.commands = [] := by decide +kernel
  have hcaller : s.caller () = none := by decide +kernel
  refine ⟨hcommands, hcaller, ?_, by decide +kernel, by decide +kernel, by decide +kernel⟩
  rintro (⟨cmd, hmem, -⟩ | ⟨i, hi⟩)
  · rw [hcommands] at hmem
    exact List.not_mem_nil hmem
  · rw [hcaller] at hi
    exact nomatch hi

end Stk.Analysis
