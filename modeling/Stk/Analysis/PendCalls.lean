import Stk.Analysis.DestroyedBlocks
import Stk.Analysis.TimerRearm
import Stk.Model.PendCalls

/-!
# The commands for the drainer

A timer is served if it is active, or will be, once the queue of commands has been processed.  Only a command that stops
the timer changes that.  The steps of the host are sorted by what they do with the queue (`Traffic`), and the
commands for the drainer are those of the deferred calls and of its `OnExpired`.
-/

set_option autoImplicit false

namespace Stk.Analysis

open Stk.Model Stk.Model.TimerSystem

variable {τ ι : Type} {threads : ℕ}

/-! ## Timers that are served -/

/-- The timer is active with no `CMD_STOP` for it in the queue, or a command in the queue re-arms it and no
`CMD_STOP` for it is behind that. -/
def Served (t : τ) (h : TimerHost τ) : Prop :=
  ((h.timer t).active = true ∧ .stop t ∉ h.commands) ∨
    ∃ before cmd after, h.commands = before ++ cmd :: after ∧ cmd.rearms = some t ∧ .stop t ∉ after

variable [DecidableEq τ]

/-- What is left of `active` once the commands have been processed. -/
def armedAfter (t : τ) (active : Bool) (commands : List (TimerCommand τ)) : Bool :=
  commands.foldl (fun armed cmd =>
    if cmd = .stop t then false else if cmd.rearms = some t then true else armed) active

/-- The last command of the queue that is for the timer. -/
def lastFor (t : τ) (commands : List (TimerCommand τ)) : Option (TimerCommand τ) :=
  (commands.filter fun cmd => decide (cmd.timer = some t)).getLast?

section Served

variable {t : τ} {cmd : TimerCommand τ} {commands : List (TimerCommand τ)} {h : TimerHost τ}

/-- INTERNAL: `Served`, from the front of the queue. -/
theorem armedAfter_iff (active : Bool) :
    armedAfter t active commands = true ↔ (active = true ∧ .stop t ∉ commands) ∨
      ∃ before cmd after, commands = before ++ cmd :: after ∧ cmd.rearms = some t ∧ .stop t ∉ after := by
  induction commands generalizing active with
  | nil => simp [armedAfter]
  | cons head rest ih =>
    have hsplit : (∃ before cmd after, head :: rest = before ++ cmd :: after ∧ cmd.rearms = some t ∧ .stop t ∉ after) ↔
        (head.rearms = some t ∧ .stop t ∉ rest) ∨
          ∃ before cmd after, rest = before ++ cmd :: after ∧ cmd.rearms = some t ∧ .stop t ∉ after := by
      constructor
      · rintro ⟨before, cmd, after, hcommands, hrearms, hstop⟩
        obtain ⟨rfl, htail⟩ | ⟨before', rfl, htail⟩ := List.cons_eq_append_iff.mp hcommands
        · cases htail
          exact .inl ⟨hrearms, hstop⟩
        · exact .inr ⟨before', cmd, after, htail, hrearms, hstop⟩
      · rintro (⟨hrearms, hstop⟩ | ⟨before, cmd, after, rfl, hrearms, hstop⟩)
        · exact ⟨[], head, rest, rfl, hrearms, hstop⟩
        · exact ⟨head :: before, cmd, after, rfl, hrearms, hstop⟩
    rw [hsplit]
    unfold armedAfter at ih ⊢
    rw [List.foldl_cons, ih, List.mem_cons, not_or]
    by_cases hhead : head = .stop t
    · subst hhead
      simp [TimerCommand.rearms]
    · rw [if_neg hhead]
      have hne : ¬.stop t = head := fun heq => hhead heq.symm
      by_cases hrearms : head.rearms = some t
      · rw [if_pos hrearms, and_iff_right rfl, and_iff_right hrearms]
        refine (or_iff_right_of_imp fun hactive => ?_).symm
        exact .inl hactive.2.2
      · rw [if_neg hrearms, and_iff_right hne]
        exact or_congr_right (or_iff_right fun hfalse => hrearms hfalse.1).symm

theorem served_iff : Served t h ↔ armedAfter t (h.timer t).active h.commands = true := (armedAfter_iff _).symm

instance (t : τ) (h : TimerHost τ) : Decidable (Served t h) := decidable_of_iff _ served_iff.symm

theorem armedAfter_append (active : Bool) :
    armedAfter t active (commands ++ [cmd]) =
      if cmd = .stop t then false else if cmd.rearms = some t then true else armedAfter t active commands := by
  unfold armedAfter
  rw [List.foldl_append]
  rfl

theorem armedAfter_mono {a b : Bool} (hab : a = true → b = true) (ha : armedAfter t a commands = true) :
    armedAfter t b commands = true := by
  rw [armedAfter_iff] at ha ⊢
  obtain ⟨htrue, hstop⟩ | hrearmed := ha
  · exact .inl ⟨hab htrue, hstop⟩
  · exact .inr hrearmed

/-- INTERNAL: a timer that a command leaves armed is active. -/
theorem active_of_armed {tmr : Timer}
    (harmed : (if cmd = .stop t then false else if cmd.rearms = some t then true else tmr.active) = true) :
    (if cmd.timer = some t then tmr.apply cmd else tmr).active = true := by
  split at harmed
  · cases harmed
  · next hstop =>
    by_cases ht : cmd.timer = some t
    · rw [if_pos ht]
      cases cmd with
      | shutdown => cases ht
      | start u _ _ _ =>
        have hactive : tmr.active = true := harmed
        simp [Timer.apply, hactive]
      | stop u =>
        cases ht
        exact absurd rfl hstop
      | reset u _ =>
        have hactive : tmr.active = true := harmed
        simp only [Timer.apply]
        split <;> exact hactive
      | restart => rfl
      | startOrReset u _ _ _ =>
        simp only [Timer.apply]
        split
        · rfl
        · next hactive =>
          have hactive' : tmr.active = true := by simpa using hactive
          split <;> exact hactive'
      | setPeriod u _ =>
        have hactive : tmr.active = true := harmed
        simp only [Timer.apply]
        split <;> exact hactive
    · rw [if_neg (fun hr => ht (timer_of_rearms hr))] at harmed
      rw [if_neg ht]
      exact harmed

/-- A command that is not `CMD_STOP` takes nothing away. -/
theorem Served.append {h' : TimerHost τ} (hserved : Served t h) (cmd : TimerCommand τ) (hcmd : cmd ≠ .stop t)
    (hactive : (h'.timer t).active = (h.timer t).active) (hcommands : h'.commands = h.commands ++ [cmd]) :
    Served t h' := by
  rw [served_iff] at hserved ⊢
  rw [hcommands, hactive, armedAfter_append, if_neg hcmd, hserved]
  exact ite_self true

omit [DecidableEq τ] in
/-- A command that re-arms the timer serves it. -/
theorem served_of_rearms {h' : TimerHost τ} (hcmd : cmd.rearms = some t) (hcommands : h'.commands = h.commands ++ [cmd]) :
    Served t h' := by
  refine .inr ⟨h.commands, cmd, [], hcommands, hcmd, ?_⟩
  exact List.not_mem_nil

/-- The timer is served if commands for it are in the queue, all of them stop or re-arm it, and the last does
not stop it. -/
theorem served_of_lastFor (hcommands : ∀ cmd ∈ h.commands, cmd.timer = some t → cmd = .stop t ∨ cmd.rearms = some t)
    (hmem : ∃ cmd ∈ h.commands, cmd.timer = some t) (hlast : lastFor t h.commands ≠ some (.stop t)) : Served t h := by
  rw [served_iff]
  generalize (h.timer t).active = active
  generalize h.commands = commands at hcommands hmem hlast
  induction commands using List.reverseRecOn with
  | nil =>
    obtain ⟨cmd, hnil, -⟩ := hmem
    cases hnil
  | append_singleton commands last ih =>
    rw [armedAfter_append]
    by_cases htimer : last.timer = some t
    · have heq : lastFor t (commands ++ [last]) = some last := by
        simp [lastFor, htimer]
      have hne : last ≠ .stop t := by
        rintro rfl
        exact hlast heq
      have hrearms := (hcommands last (by simp) htimer).resolve_left hne
      rw [if_neg hne, if_pos hrearms]
    · have hne : last ≠ .stop t := by
        rintro rfl
        exact htimer rfl
      have hrearms : last.rearms ≠ some t := fun hr => htimer (timer_of_rearms hr)
      have heq : lastFor t (commands ++ [last]) = lastFor t commands := by
        simp [lastFor, htimer]
      rw [if_neg hne, if_neg hrearms]
      apply ih
      · intro cmd hcmd
        exact hcommands cmd (List.mem_append_left _ hcmd)
      · obtain ⟨cmd, hcmd, ht⟩ := hmem
        obtain hcmd | hcmd := List.mem_append.mp hcmd
        · exact ⟨cmd, hcmd, ht⟩
        · rw [List.mem_singleton.mp hcmd] at ht
          exact absurd ht htimer
      · rwa [heq] at hlast

end Served

/-! ## The steps of the host -/

section Traffic

variable [DecidableEq ι] {t : τ} {s : TimerSystem τ ι threads}

/-- What a step can do with the queue of commands, the callers and a timer. -/
inductive Traffic (t : τ) (s : TimerSystem τ ι threads) : TimerEvent τ ι threads → TimerSystem τ ι threads → Prop where
  /-- Nothing. -/
  | calm {e : TimerEvent τ ι threads} {s' : TimerSystem τ ι threads} (hcommands : s'.host.commands = s.host.commands)
      (hcaller : s'.caller = s.caller) (hactive : (s'.host.timer t).active = (s.host.timer t).active)
      (hperiod : (s'.host.timer t).period = (s.host.timer t).period)
      (hrearming : (s'.host.timer t).rearming = (s.host.timer t).rearming) : Traffic t s e s'
  /-- A call enters `PushCommand`. -/
  | enters {e : TimerEvent τ ι threads} {i : ι} {push : Push τ} (hfree : s.caller i = none)
      (hcall : (pushed push).timer = some t → ∃ request, e = .call i t request ∧
        s.host.request t s.ticks request = .pushes (pushed push)) :
      Traffic t s e { s with caller := Function.update s.caller i (some push) }
  | raises {i : ι} {cmd : TimerCommand τ} (hcaller : s.caller i = some (.tested cmd)) :
      Traffic t s (.setRearming i)
        { s with
          host := s.host.setRearming cmd true
          caller := Function.update s.caller i (some (.writing cmd)) }
  | written {i : ι} {cmd : TimerCommand τ} (hcaller : s.caller i = some (.writing cmd)) :
      Traffic t s (.write i)
        { s with
          host := { s.host with commands := s.host.commands ++ [cmd] }
          caller := Function.update s.caller i none }
  | refused {i : ι} {cmd : TimerCommand τ} {countMax : ℕ} (hcaller : s.caller i = some (.writing cmd))
      (hfull : ¬s.host.commands.length < countMax) :
      Traffic t s (.write i)
        { s with
          host := { s.host.setRearming cmd false with faults := .queueFull :: s.host.faults }
          caller := Function.update s.caller i none }
  /-- The tick task takes a command. -/
  | taken {e : TimerEvent τ ι threads} {s' : TimerSystem τ ι threads} {cmd : TimerCommand τ}
      {commands : List (TimerCommand τ)} (hcommands : s.host.commands = cmd :: commands)
      (hrest : s'.host.commands = commands) (hcaller : s'.caller = s.caller)
      (htimer : s'.host.timer t = if cmd.timer = some t then (s.host.timer t).apply cmd else s.host.timer t) :
      Traffic t s e s'

/-- **The step lemma.**  A timer that is periodic stays active when it expires. -/
theorem step_traffic (countMax : ℕ) (e : TimerEvent τ ι threads)
    (hperiodic : (s.host.timer t).active = true → (s.host.timer t).period ≠ 0) :
    Traffic t s e (s.step countMax e) := by
  have hupdate : ∀ (u : τ) (tmr : Timer), tmr.rearming = (s.host.timer u).rearming →
      tmr.period = (s.host.timer u).period → (u = t → tmr.active = (s.host.timer u).active) →
      (Function.update s.host.timer u tmr t).active = (s.host.timer t).active ∧
        (Function.update s.host.timer u tmr t).period = (s.host.timer t).period ∧
        (Function.update s.host.timer u tmr t).rearming = (s.host.timer t).rearming := by
    intro u tmr hrearming hperiod hactive
    by_cases hu : t = u
    · subst hu
      rw [Function.update_self]
      exact ⟨hactive rfl, hperiod, hrearming⟩
    · rw [Function.update_of_ne hu]
      exact ⟨rfl, rfl, rfl⟩
  have htransition := step_transition countMax s e
  generalize s.step countMax e = s' at htransition
  cases htransition with
  | stay | tick | block | empty | readTimeout | skip | stopped | walked | sentinel | sentinelLost | drain | stale
  | takeSentinel | handlerBlock | handlerTimeout => exact .calm rfl rfl rfl rfl rfl
  | @call i u request cmd push hfree hsite hpush =>
    refine .enters hfree fun ht => ?_
    rw [pushed_of_pushTest hpush] at ht ⊢
    rw [request_timer hsite] at ht
    cases ht
    exact ⟨request, rfl, hsite⟩
  | callShutdown hfree => exact .enters hfree nofun
  | setRearming hcaller => exact .raises hcaller
  | written hcaller => exact .written hcaller
  | full hcaller hfull => exact .refused hcaller hfull
  | @take nextSleep cmd commands hread hcommands =>
    have hpipes := TimerHost.processCommand_pipes { s.host with commands := commands } nextSleep cmd
    exact .taken hcommands hpipes.1 rfl (TimerHost.processCommand_timer _ nextSleep cmd t)
  | takeShutdown hread hcommands => exact .taken hcommands rfl rfl rfl
  | @due now nextSleep u rest htask hactive hpending hdue =>
    have hexpire : u = t → ((s.host.timer u).expire now).active = (s.host.timer u).active := by
      rintro rfl
      rw [Timer.expire_active _ _ hactive, hactive]
      exact decide_eq_true (hperiodic hactive)
    obtain ⟨ha, hp, hr⟩ := hupdate u _ (Timer.expire_rearming _ now) (Timer.expire_period _ now) hexpire
    refine .calm (expire_commands _ _ _) rfl ?_ ?_ ?_ <;> dsimp only <;> rw [expire_timer] <;> assumption
  | notDue => exact .calm (by simp) (by simp) (by simp) (by simp) (by simp)
  | pushed => exact .calm (by simp) (by simp) (by simp) (by simp) (by simp)
  | lost => exact .calm (by simp) (by simp) (by simp) (by simp) (by simp)
  | @onExpired j u queue =>
    obtain ⟨ha, hp, hr⟩ := hupdate u { s.host.timer u with pending := false } rfl rfl (fun _ => rfl)
    exact .calm rfl rfl ha hp hr

/-- **A step leaves a timer served** unless it writes a `CMD_STOP` for it. -/
theorem Served.step (countMax : ℕ) {e : TimerEvent τ ι threads} (hserved : Served t s.host)
    (hperiodic : (s.host.timer t).active = true → (s.host.timer t).period ≠ 0)
    (hwrite : ∀ i, e = .write i → s.caller i ≠ some (.writing (.stop t))) :
    Served t (s.step countMax e).host := by
  have htraffic := step_traffic countMax e hperiodic
  generalize s.step countMax e = s' at htraffic
  cases htraffic with
  | calm hcommands hcaller hactive =>
    rw [served_iff] at hserved ⊢
    rwa [hcommands, hactive]
  | enters => exact hserved
  | raises hcaller =>
    rw [served_iff] at hserved ⊢
    dsimp only
    rw [TimerHost.setRearming_commands, TimerHost.setRearming_timer]
    split <;> exact hserved
  | @written i cmd hcaller =>
    refine hserved.append cmd ?_ rfl rfl
    rintro rfl
    exact hwrite i rfl hcaller
  | refused hcaller =>
    rw [served_iff] at hserved ⊢
    dsimp only
    rw [TimerHost.setRearming_commands, TimerHost.setRearming_timer]
    split <;> exact hserved
  | @taken _ _ cmd commands hcommands hrest hcaller htimer =>
    rw [served_iff] at hserved ⊢
    rw [hcommands] at hserved
    rw [hrest]
    refine armedAfter_mono (fun harmed => ?_) hserved
    rw [htimer]
    exact active_of_armed harmed

/-- What a step can do to the push of a caller. -/
inductive CallerStep (s : TimerSystem τ ι threads) (e : TimerEvent τ ι threads) (c : ι) : Option (Push τ) → Prop where
  | same : CallerStep s e c (s.caller c)
  | enters {u : τ} {request : TimerRequest} {push : Push τ} (he : e = .call c u request)
      (hsite : s.host.request u s.ticks request = .pushes (pushed push)) : CallerStep s e c (some push)
  | shutdown (he : e = .shutdown c) : CallerStep s e c (some (.writing .shutdown))
  | raises {cmd : TimerCommand τ} (he : e = .setRearming c) (hcaller : s.caller c = some (.tested cmd)) :
      CallerStep s e c (some (.writing cmd))
  | written {cmd : TimerCommand τ} (he : e = .write c) (hcaller : s.caller c = some (.writing cmd)) :
      CallerStep s e c none

theorem caller_step (countMax : ℕ) (s : TimerSystem τ ι threads) (e : TimerEvent τ ι threads) (c : ι) :
    CallerStep s e c ((s.step countMax e).caller c) := by
  have hupdate : ∀ (i : ι) (push : Option (Push τ)), (c = i → CallerStep s e c push) →
      CallerStep s e c (Function.update s.caller i push c) := by
    intro i push hown
    by_cases hc : c = i
    · have hpush := hown hc
      subst hc
      rwa [Function.update_self]
    · rw [Function.update_of_ne hc]
      exact .same
  have htransition := step_transition countMax s e
  generalize s.step countMax e = s' at htransition
  cases htransition with
  | @call i u request cmd push hfree hsite hpush =>
    apply hupdate
    rintro rfl
    rw [← pushed_of_pushTest hpush] at hsite
    exact .enters rfl hsite
  | callShutdown =>
    apply hupdate
    rintro rfl
    exact .shutdown rfl
  | setRearming hcaller =>
    apply hupdate
    rintro rfl
    exact .raises rfl hcaller
  | written hcaller =>
    apply hupdate
    rintro rfl
    exact .written rfl hcaller
  | full hcaller =>
    apply hupdate
    rintro rfl
    exact .written rfl hcaller
  | notDue | pushed | lost =>
    rw [endVisit_caller]
    exact .same
  | _ => exact .same

/-- The caller whose step it is. -/
def actor : TimerEvent τ ι threads → Option ι
  | .call i _ _ | .shutdown i | .setRearming i | .write i => some i
  | _ => none

theorem caller_of_actor (countMax : ℕ) {e : TimerEvent τ ι threads} {c : ι} (hc : actor e ≠ some c) :
    (s.step countMax e).caller c = s.caller c := by
  have hcaller := caller_step countMax s e c
  generalize (s.step countMax e).caller c = push at hcaller
  cases hcaller with
  | same => rfl
  | enters he | shutdown he | raises he | written he =>
    subst he
    exact absurd rfl hc

end Traffic

/-! ## The commands -/

section Orders

variable {d : τ} {s : TimerSystem τ ι threads}

/-- A command for the drainer: `CMD_STOP`, or the `CMD_RESTART` of a deferred call. -/
def IsOrder (d : τ) (cmd : TimerCommand τ) : Prop := cmd = .stop d ∨ ∃ ticks, cmd = .restart d ticks 1 1

/-- The host and the drainer. -/
structure OrdersOk (d : τ) (s : TimerSystem τ ι threads) : Prop where
  orders : ∀ cmd ∈ s.host.commands, cmd.timer = some d → IsOrder d cmd
  period : (s.host.timer d).active = true → (s.host.timer d).period ≠ 0
  flag : (s.host.timer d).rearming = true → Rearming s d

omit [DecidableEq τ] in
theorem IsOrder.rearms {cmd : TimerCommand τ} (h : IsOrder d cmd) (hcmd : cmd ≠ .stop d) : cmd.rearms = some d := by
  obtain rfl | ⟨ticks, rfl⟩ := h
  · exact absurd rfl hcmd
  · rfl

/-- The drainer is served if its flag is set by a command in the queue and the last command for it does not stop
it. -/
theorem OrdersOk.served (h : OrdersOk d s) (hqueued : ∃ cmd ∈ s.host.commands, cmd.rearms = some d)
    (hlast : lastFor d s.host.commands ≠ some (.stop d)) : Served d s.host := by
  refine served_of_lastFor ?_ ?_ hlast
  · intro cmd hmem ht
    have horder := h.orders cmd hmem ht
    by_cases hcmd : cmd = .stop d
    · exact .inl hcmd
    · exact .inr (horder.rearms hcmd)
  · obtain ⟨cmd, hmem, hrearms⟩ := hqueued
    exact ⟨cmd, hmem, timer_of_rearms hrearms⟩

variable [DecidableEq ι]

/-- **The step lemma.** -/
theorem OrdersOk.step (countMax : ℕ) (h : OrdersOk d s) (e : TimerEvent τ ι threads)
    (hpushes : ∀ c push, s.caller c = some push → (pushed push).timer = some d → IsOrder d (pushed push)) :
    OrdersOk d (s.step countMax e) := by
  have htraffic := step_traffic countMax e h.period
  generalize s.step countMax e = s' at htraffic
  cases htraffic with
  | calm hcommands hcaller hactive hperiod hrearming =>
    refine ⟨?_, ?_, ?_⟩
    · rw [hcommands]
      exact h.orders
    · rw [hactive, hperiod]
      exact h.period
    · rw [hrearming]
      unfold Rearming
      rw [hcommands, hcaller]
      exact h.flag
  | @enters _ i push hfree =>
    refine ⟨h.orders, h.period, fun hset => ?_⟩
    obtain hqueued | ⟨c, hc⟩ := h.flag hset
    · exact .inl hqueued
    · refine .inr ⟨c, ?_⟩
      have hne : c ≠ i := by
        rintro rfl
        rw [hfree] at hc
        cases hc
      dsimp only
      rw [Function.update_of_ne hne]
      exact hc
  | @raises i cmd hcaller =>
    refine ⟨?_, ?_, fun hset => ?_⟩
    · dsimp only
      rw [TimerHost.setRearming_commands]
      exact h.orders
    · dsimp only
      rw [TimerHost.setRearming_timer]
      split <;> exact h.period
    · dsimp only at hset
      rw [setRearming_flag] at hset
      unfold Rearming
      dsimp only
      rw [TimerHost.setRearming_commands]
      by_cases hcmd : cmd.rearms = some d
      · refine .inr ⟨i, ?_⟩
        rw [Function.update_self]
        exact hcmd
      · rw [if_neg hcmd] at hset
        obtain hqueued | ⟨c, hc⟩ := h.flag hset
        · exact .inl hqueued
        · refine .inr ⟨c, ?_⟩
          have hne : c ≠ i := by
            rintro rfl
            rw [hcaller] at hc
            cases hc
          rw [Function.update_of_ne hne]
          exact hc
  | @written i cmd hcaller =>
    refine ⟨?_, h.period, fun hset => ?_⟩
    · intro cmd' hmem ht
      obtain hmem | hmem := List.mem_append.mp hmem
      · exact h.orders cmd' hmem ht
      · rw [List.mem_singleton.mp hmem] at ht ⊢
        exact hpushes i _ hcaller ht
    · obtain ⟨cmd', hmem, hrearms⟩ | ⟨c, hc⟩ := h.flag hset
      · exact .inl ⟨cmd', List.mem_append_left _ hmem, hrearms⟩
      · by_cases hne : c = i
        · subst hne
          rw [hcaller] at hc
          exact .inl ⟨cmd, by simp, hc⟩
        · refine .inr ⟨c, ?_⟩
          dsimp only
          rw [Function.update_of_ne hne]
          exact hc
  | @refused i cmd _ hcaller =>
    refine ⟨?_, ?_, fun hset => ?_⟩
    · dsimp only
      rw [TimerHost.setRearming_commands]
      exact h.orders
    · dsimp only
      rw [TimerHost.setRearming_timer]
      split <;> exact h.period
    · dsimp only at hset
      rw [setRearming_flag] at hset
      split at hset
      · cases hset
      · next hcmd =>
        unfold Rearming
        dsimp only
        rw [TimerHost.setRearming_commands]
        obtain hqueued | ⟨c, hc⟩ := h.flag hset
        · exact .inl hqueued
        · refine .inr ⟨c, ?_⟩
          have hne : c ≠ i := by
            rintro rfl
            rw [hcaller] at hc
            exact hcmd hc
          rw [Function.update_of_ne hne]
          exact hc
  | @taken _ _ cmd commands hcommands hrest hcaller htimer =>
    have horder : cmd.timer = some d → IsOrder d cmd := fun ht =>
      h.orders cmd (hcommands ▸ List.mem_cons_self) ht
    refine ⟨?_, ?_, ?_⟩
    · rw [hrest]
      intro cmd' hmem
      exact h.orders cmd' (hcommands ▸ List.mem_cons_of_mem _ hmem)
    · rw [htimer]
      by_cases ht : cmd.timer = some d
      · rw [if_pos ht]
        obtain rfl | ⟨ticks, rfl⟩ := horder ht
        · exact nofun
        · exact fun _ => one_ne_zero
      · rw [if_neg ht]
        exact h.period
    · rw [htimer]
      intro hset
      have hkept : cmd.rearms ≠ some d ∧ (s.host.timer d).rearming = true := by
        by_cases ht : cmd.timer = some d
        · rw [if_pos ht] at hset
          obtain rfl | ⟨ticks, rfl⟩ := horder ht
          · exact ⟨nofun, hset⟩
          · cases hset
        · rw [if_neg ht] at hset
          exact ⟨fun hr => ht (timer_of_rearms hr), hset⟩
      unfold Rearming
      rw [hrest, hcaller]
      obtain ⟨cmd', hmem, hrearms⟩ | hwriting := h.flag hkept.2
      · rw [hcommands] at hmem
        obtain rfl | hmem := List.mem_cons.mp hmem
        · exact absurd hrearms hkept.1
        · exact .inl ⟨cmd', hmem, hrearms⟩
      · exact .inr hwriting

end Orders

end Stk.Analysis
