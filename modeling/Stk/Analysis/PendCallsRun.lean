import Stk.Analysis.PendCalls
import Stk.Foundation.Runs

/-!
# No deferred call is stranded

A call that is accepted is not stranded in a run in which the drainer queues no `CMD_STOP` behind the last re-arm
while there are calls left in the pipe, and no `Restart` of a deferred call is coalesced with a command that has
such a `CMD_STOP` behind it.  With one handler task the calls are executed in the order of acceptance, in every run.
-/

set_option autoImplicit false

namespace Stk.Analysis

open Stk.Model Stk.Model.TimerSystem

variable {τ ι : Type} {threads : ℕ}

/-! ## What attends to the pipe -/

/-- A handler task in `OnExpired` that will read the pipe again. -/
def AtWork : Option DrainStage → Prop
  | some .reading | some (.calling _) => True
  | _ => False

instance (stage : Option DrainStage) : Decidable (AtWork stage) := by
  unfold AtWork
  split <;> infer_instance

/-- A deferred call is under way, or a handler task will read the pipe again. -/
def Attending (s : PendSystem τ ι threads) : Prop :=
  (∃ i, s.pending i ≠ none) ∨ ∃ j, AtWork (s.draining j)

/-- The pipe is empty, or attended to by others than `i`. -/
def Spared (s : PendSystem τ ι threads) (i : ι) : Prop :=
  s.pipe = [] ∨ (∃ k, k ≠ i ∧ s.pending k ≠ none) ∨ ∃ j, AtWork (s.draining j)

instance [Fintype ι] (s : PendSystem τ ι threads) : Decidable (Attending s) :=
  inferInstanceAs (Decidable ((∃ i, s.pending i ≠ none) ∨ ∃ j, AtWork (s.draining j)))

instance [Fintype ι] [DecidableEq ι] (s : PendSystem τ ι threads) (i : ι) : Decidable (Spared s i) :=
  inferInstanceAs (Decidable (s.pipe = [] ∨ (∃ k, k ≠ i ∧ s.pending k ≠ none) ∨ ∃ j, AtWork (s.draining j)))

theorem Spared.attending {s : PendSystem τ ι threads} {i : ι} (h : Spared s i) (hpipe : s.pipe ≠ []) :
    (∃ k, k ≠ i ∧ s.pending k ≠ none) ∨ ∃ j, AtWork (s.draining j) := h.resolve_left hpipe

variable [DecidableEq τ] [DecidableEq ι]

/-- The steps that leave a call to nobody: an interrupt handler that finds no drainer, a second construction of the
drainer, a `Restart` that is coalesced although a `CMD_STOP` is last in the queue, one that finds the queue full, and a
`CMD_STOP` that is queued although there are calls in the pipe. -/
def KeepsDrainer (d : τ) (countMax : ℕ) (s : PendSystem τ ι threads) : PendEvent τ ι threads → Prop
  | .proceed i =>
    match s.pending i with
    | some (.written true) => s.constructed = true ∨ Spared s i
    | some .constructing => s.constructed = false
    | some .kicking =>
      (s.timers.host.timer d).rearming = true → lastFor d s.timers.host.commands ≠ some (.stop d) ∨ Spared s i
    | some .restarting => s.timers.host.commands.length < countMax
    | _ => True
  | .drain j => s.draining j = some .stopping → s.pipe = [] ∨ Attending s
  | _ => True

instance [Fintype ι] (d : τ) (countMax : ℕ) (s : PendSystem τ ι threads) (e : PendEvent τ ι threads) :
    Decidable (KeepsDrainer d countMax s e) := by
  unfold KeepsDrainer
  split
  · split <;> infer_instance
  · infer_instance
  · infer_instance

/-! ## The callers -/

/-- The push of a task or interrupt handler, given where it is in a deferred call. -/
def CallerOk (d : τ) (stage : Option PendStage) (push : Option (Push τ)) : Prop :=
  match stage with
  | some .restarting => ∃ p ticks, push = some p ∧ pushed p = .restart d ticks 1 1
  | some _ => push = none
  | none => ∀ p ∈ push, (pushed p).timer ≠ some d

/-- INTERNAL: the invariant. -/
structure PendOk (d : τ) (s : PendSystem τ ι threads) : Prop where
  orders : OrdersOk d s.timers
  callers : ∀ i, CallerOk d (s.pending i) (s.timers.caller (.inl i))
  stops : ∀ j, ∀ p ∈ s.timers.caller (.inr j), pushed p = .stop d
  attended : s.pipe ≠ [] → Attending s ∨ Served d s.timers.host

section Step

variable {d : τ} {s : PendSystem τ ι threads} {capacity countMax : ℕ}

omit [DecidableEq τ] [DecidableEq ι] in
/-- INTERNAL: a caller pushes a command of the draining timer for a restart only. -/
theorem CallerOk.isOrder {stage : Option PendStage} {p : Push τ} (h : CallerOk d stage (some p))
    (ht : (pushed p).timer = some d) : stage = some .restarting ∧ IsOrder d (pushed p) := by
  unfold CallerOk at h
  split at h
  · obtain ⟨p', ticks, hp, hpushed⟩ := h
    cases hp
    exact ⟨rfl, .inr ⟨ticks, hpushed⟩⟩
  · cases h
  · exact absurd ht (h p rfl)

omit [DecidableEq τ] [DecidableEq ι] in
/-- INTERNAL: what is pushed for the drainer. -/
theorem PendOk.pushes (h : PendOk d s) (c : ι ⊕ Fin threads) (p : Push τ) (hc : s.timers.caller c = some p)
    (ht : (pushed p).timer = some d) : IsOrder d (pushed p) := by
  cases c with
  | inl i =>
    have hcaller := h.callers i
    rw [hc] at hcaller
    exact (hcaller.isOrder ht).2
  | inr j => exact .inl (h.stops j p hc)

omit [DecidableEq τ] [DecidableEq ι] in
/-- INTERNAL: no task or interrupt handler pushes a `CMD_STOP` for the drainer. -/
theorem PendOk.not_stop (h : PendOk d s) (i : ι) : s.timers.caller (.inl i) ≠ some (.writing (.stop d)) := by
  intro hi
  have hcaller := h.callers i
  rw [hi] at hcaller
  unfold CallerOk at hcaller
  split at hcaller
  · obtain ⟨p, ticks, hp, hpushed⟩ := hcaller
    cases hp
    cases hpushed
  · cases hcaller
  · exact hcaller _ rfl rfl

omit [DecidableEq τ] [DecidableEq ι] in
/-- INTERNAL: a re-arm command for the drainer is written by a deferred call. -/
theorem PendOk.writer (h : PendOk d s) {c : ι ⊕ Fin threads} (hc : writes (s.timers.caller c) = some d) :
    ∃ k, s.pending k = some .restarting := by
  cases hpush : s.timers.caller c with
  | none =>
    rw [hpush] at hc
    cases hc
  | some push =>
    rw [hpush] at hc
    cases push with
    | tested cmd => cases hc
    | writing cmd =>
      have hrearms : cmd.rearms = some d := hc
      cases c with
      | inl k =>
        have hcaller := h.callers k
        rw [hpush] at hcaller
        exact ⟨k, (hcaller.isOrder (timer_of_rearms hrearms)).1⟩
      | inr j =>
        have hstop : cmd = .stop d := h.stops j _ hpush
        rw [hstop] at hrearms
        cases hrearms

/-- INTERNAL: a step of the rest of the system. -/
theorem PendOk.timerStep {e : TimerEvent τ (ι ⊕ Fin threads) threads} (h : PendOk d s)
    (hpermits : s.permits d e = true) : PendOk d (s.timerStep d countMax e) := by
  have hidle : ∀ i, actor e = some (.inl i) → s.pending i = none := by
    intro i hi
    cases e with
    | call c u request =>
      cases hi
      simp only [PendSystem.permits, Bool.and_eq_true] at hpermits
      exact Option.isNone_iff_eq_none.mp hpermits.1
    | setRearming c | write c =>
      cases hi
      exact Option.isNone_iff_eq_none.mp hpermits
    | shutdown c => cases hpermits
    | _ => cases hi
  have hhandler : ∀ j, actor e ≠ some (.inr j) := by
    rintro j hj
    cases e with
    | call c | setRearming c | write c | shutdown c =>
      cases hj
      cases hpermits
    | _ => cases hj
  refine ⟨h.orders.step countMax e h.pushes, fun i => ?_, fun j => ?_, fun hpipe => ?_⟩
  · have hstep := caller_step countMax s.timers e (.inl i)
    change CallerOk d (s.pending i) ((s.timers.step countMax e).caller (.inl i))
    generalize (s.timers.step countMax e).caller (.inl i) = push at hstep
    cases hstep with
    | same => exact h.callers i
    | @enters u request push he hsite =>
      rw [hidle i (he ▸ rfl)]
      rintro p ⟨⟩
      rw [request_timer hsite]
      rintro ⟨⟩
      rw [he] at hpermits
      simp [PendSystem.permits] at hpermits
    | shutdown he =>
      rw [he] at hpermits
      cases hpermits
    | @raises cmd he hcaller =>
      have hold := h.callers i
      rw [hidle i (he ▸ rfl)] at hold ⊢
      rintro p ⟨⟩
      have hcmd := hold _ hcaller
      exact hcmd
    | written he =>
      rw [hidle i (he ▸ rfl)]
      exact nofun
  · change ∀ p ∈ (s.timers.step countMax e).caller (.inr j), pushed p = .stop d
    rw [caller_of_actor countMax (hhandler j)]
    exact h.stops j
  · obtain hpending | ⟨j, hj⟩ | hserved := (or_assoc.mp (h.attended hpipe))
    · exact .inl (.inl hpending)
    · refine .inl (.inr ⟨j, ?_⟩)
      unfold PendSystem.timerStep
      dsimp only
      split
      · next k =>
        split
        · by_cases hne : j = k
          · rw [hne, Function.update_self]
            trivial
          · rw [Function.update_of_ne hne]
            exact hj
        · exact hj
      · exact hj
    · right
      refine hserved.step countMax h.orders.period fun c he => ?_
      cases c with
      | inl i => exact h.not_stop i
      | inr j =>
        subst he
        exact absurd rfl (hhandler j)

/-- INTERNAL: a step of the deferred call of `i`, which leads to `stage`. -/
theorem PendOk.act {s' : PendSystem τ ι threads} {e : TimerEvent τ (ι ⊕ Fin threads) threads} {i : ι}
    {stage : Option PendStage} (h : PendOk d s) (hactor : actor e = some (.inl i))
    (htimers : s'.timers = s.timers.step countMax e) (hpending : s'.pending = Function.update s.pending i stage)
    (hown : CallerOk d stage (s'.timers.caller (.inl i)))
    (hattended : s'.pipe ≠ [] → Attending s' ∨ Served d s'.timers.host) : PendOk d s' := by
  refine ⟨?_, fun k => ?_, fun j => ?_, hattended⟩
  · rw [htimers]
    exact h.orders.step countMax e h.pushes
  · rw [hpending]
    by_cases hk : k = i
    · subst hk
      rwa [Function.update_self]
    · rw [Function.update_of_ne hk, htimers, caller_of_actor countMax]
      · exact h.callers k
      · rw [hactor]
        rintro ⟨⟩
        exact hk rfl
  · rw [htimers, caller_of_actor countMax]
    · exact h.stops j
    · rw [hactor]
      exact nofun

omit [DecidableEq τ] in
/-- INTERNAL: a deferred call that has more to do attends to the pipe. -/
theorem attending_update {s' : PendSystem τ ι threads} {i : ι} {stage : PendStage}
    (hpending : s'.pending = Function.update s.pending i (some stage)) : Attending s' := by
  refine .inl ⟨i, ?_⟩
  rw [hpending, Function.update_self]
  exact nofun

omit [DecidableEq τ] in
/-- INTERNAL: the others attend to the pipe when the deferred call of `i` ends. -/
theorem attending_end {s' : PendSystem τ ι threads} {i : ι} {stage : Option PendStage}
    (hpending : s'.pending = Function.update s.pending i stage) (hdraining : s'.draining = s.draining)
    (hothers : (∃ k, k ≠ i ∧ s.pending k ≠ none) ∨ ∃ j, AtWork (s.draining j)) : Attending s' := by
  obtain ⟨k, hk, hstage⟩ | hwork := hothers
  · refine .inl ⟨k, ?_⟩
    rwa [hpending, Function.update_of_ne hk]
  · refine .inr ?_
    rwa [hdraining]

omit [DecidableEq τ] in
/-- INTERNAL: a deferred call goes on without the host. -/
theorem PendOk.move {s' : PendSystem τ ι threads} {i : ι} {stage : Option PendStage} (h : PendOk d s)
    (htimers : s'.timers = s.timers) (hpending : s'.pending = Function.update s.pending i stage)
    (hown : CallerOk d stage (s.timers.caller (.inl i)))
    (hattended : s'.pipe ≠ [] → Attending s' ∨ Served d s'.timers.host) : PendOk d s' := by
  refine ⟨?_, fun k => ?_, ?_, hattended⟩
  · rw [htimers]
    exact h.orders
  · rw [hpending, htimers]
    by_cases hk : k = i
    · subst hk
      rwa [Function.update_self]
    · rw [Function.update_of_ne hk]
      exact h.callers k
  · rw [htimers]
    exact h.stops

omit [DecidableEq τ] in
/-- INTERNAL: a call is put into the pipe, and its caller goes on to the timer. -/
theorem PendOk.pend (h : PendOk d s) (i : ι) (fromIsr : Bool) (call : PendCall) :
    PendOk d (s.pend capacity i fromIsr call) := by
  unfold PendSystem.pend
  split
  · next hcond =>
    exact h.move rfl rfl hcond.2.1 fun _ => .inl (attending_update rfl)
  · exact h

/-- What the call of `Restart` does. -/
theorem stepResult_restart (d : τ) (countMax : ℕ) {c : ι} {s : TimerSystem τ ι threads} (hfree : s.caller c = none) :
    ((s.host.timer d).rearming = true ∧ s.stepResult countMax (.call c d (.restart 1 1)) = (s, some true)) ∨
      s.stepResult countMax (.call c d (.restart 1 1)) =
        ({ s with caller := Function.update s.caller c (some (.tested (.restart d s.ticks 1 1))) }, none) := by
  cases hflag : (s.host.timer d).rearming with
  | true =>
    left
    simp [stepResult, hfree, TimerHost.request, TimerHost.restart, callAt, TimerHost.pushTest, TimerCommand.rearms, hflag]
  | false =>
    right
    simp [stepResult, hfree, TimerHost.request, TimerHost.restart, callAt, TimerHost.pushTest, TimerCommand.rearms, hflag]

/-- INTERNAL: a deferred call constructs the drainer. -/
theorem PendOk.construct {i : ι} (h : PendOk d s) (hstage : s.pending i = some .constructing) :
    PendOk d { s with
      timers := { s.timers with host := s.timers.host.setTimer d .initial }
      constructed := true
      pending := Function.update s.pending i (some .kicking) } := by
  have hcaller := h.callers i
  rw [hstage] at hcaller
  have hself : (s.timers.host.setTimer d .initial).timer d = .initial := Function.update_self ..
  refine ⟨⟨h.orders.orders, fun hactive => ?_, fun hset => ?_⟩, fun k => ?_, h.stops, fun _ => ?_⟩
  · dsimp only at hactive
    rw [hself] at hactive
    cases hactive
  · dsimp only at hset
    rw [hself] at hset
    cases hset
  · dsimp only
    by_cases hk : k = i
    · subst hk
      rw [Function.update_self]
      exact hcaller
    · rw [Function.update_of_ne hk]
      exact h.callers k
  · exact .inl (attending_update rfl)

/-- INTERNAL: a deferred call calls `Restart`. -/
theorem PendOk.kick {i : ι} (h : PendOk d s) (hstage : s.pending i = some .kicking)
    (hkeeps : (s.timers.host.timer d).rearming = true →
      lastFor d s.timers.host.commands ≠ some (.stop d) ∨ Spared s i) :
    PendOk d (s.proceed d countMax i) := by
  have hfree : s.timers.caller (.inl i) = none := by
    have hcaller := h.callers i
    rwa [hstage] at hcaller
  unfold PendSystem.proceed
  rw [hstage]
  dsimp only
  obtain ⟨hset, hresult⟩ | hresult := stepResult_restart d countMax hfree
  · rw [hresult]
    refine h.move rfl rfl (hfree ▸ nofun) fun hpipe => ?_
    by_cases hlast : lastFor d s.timers.host.commands = some (.stop d)
    · have hspared := (hkeeps hset).resolve_left (fun hne => hne hlast)
      exact .inl (attending_end rfl rfl (hspared.attending hpipe))
    · obtain hqueued | ⟨c, hc⟩ := h.orders.flag hset
      · exact .inr (h.orders.served hqueued hlast)
      · obtain ⟨k, hrestarting⟩ := h.writer hc
        refine .inl (attending_end rfl rfl (.inl ⟨k, ?_, ?_⟩))
        · rintro rfl
          rw [hstage] at hrestarting
          cases hrestarting
        · rw [hrestarting]
          exact nofun
  · have hstep := (congrArg Prod.fst hresult).symm
    rw [hresult]
    refine h.act (e := .call (.inl i) d (.restart 1 1)) rfl hstep
      (show _ = Function.update s.pending i (some .restarting) from rfl) ?_ fun _ => .inl (attending_update rfl)
    refine ⟨.tested (.restart d s.timers.ticks 1 1), s.timers.ticks, ?_, rfl⟩
    exact Function.update_self ..

/-- INTERNAL: a deferred call goes on in `PushCommand`. -/
theorem PendOk.push {i : ι} (h : PendOk d s) (hstage : s.pending i = some .restarting)
    (hroom : s.timers.host.commands.length < countMax) : PendOk d (s.proceed d countMax i) := by
  have hcaller := h.callers i
  rw [hstage] at hcaller
  obtain ⟨push, ticks, hpush, hpushed⟩ := hcaller
  unfold PendSystem.proceed
  rw [hstage]
  dsimp only
  rw [hpush]
  cases push with
  | tested cmd =>
    change cmd = _ at hpushed
    subst hpushed
    dsimp only
    refine h.act (e := .setRearming (.inl i)) rfl rfl
      (show _ = Function.update s.pending i (some .restarting) from ?_) ?_ fun _ => .inl (.inl ⟨i, ?_⟩)
    · rw [← hstage, Function.update_eq_self]
    · refine ⟨.writing (.restart d ticks 1 1), ticks, ?_, rfl⟩
      simp [TimerSystem.step, stepResult, hpush]
    · dsimp only
      rw [hstage]
      exact Option.some_ne_none _
  | writing cmd =>
    change cmd = _ at hpushed
    subst hpushed
    dsimp only
    have hwritten : s.timers.step countMax (.write (.inl i)) =
        { s.timers with
          host := { s.timers.host with commands := s.timers.host.commands ++ [.restart d ticks 1 1] }
          caller := Function.update s.timers.caller (.inl i) none } := by
      simp [TimerSystem.step, stepResult, hpush, TimerHost.pushWrite, hroom]
    refine h.act (e := .write (.inl i)) rfl rfl rfl ?_ fun _ => .inr ?_
    · dsimp only
      rw [hwritten]
      dsimp only
      rw [Function.update_self]
      intro cmd hcmd
      cases hcmd
    · dsimp only
      rw [hwritten]
      exact served_of_rearms rfl rfl

/-- INTERNAL: a step of a deferred call. -/
theorem PendOk.proceed (h : PendOk d s) (i : ι) (hkeeps : KeepsDrainer d countMax s (.proceed i)) :
    PendOk d (s.proceed d countMax i) := by
  have hcaller := h.callers i
  simp only [KeepsDrainer] at hkeeps
  cases hstage : s.pending i with
  | none =>
    unfold PendSystem.proceed
    rw [hstage]
    exact h
  | some stage =>
    rw [hstage] at hkeeps hcaller
    cases stage with
    | written fromIsr =>
      unfold PendSystem.proceed
      rw [hstage]
      dsimp only
      split
      · exact h.move rfl rfl hcaller fun _ => .inl (attending_update rfl)
      · next hnone =>
        split
        · next hisr =>
          subst hisr
          have hspared : Spared s i := hkeeps.resolve_left hnone
          refine h.move rfl rfl ?_ fun hpipe => .inl (attending_end rfl rfl (hspared.attending hpipe))
          have hfree : s.timers.caller (.inl i) = none := hcaller
          rw [hfree]
          exact nofun
        · exact h.move rfl rfl hcaller fun _ => .inl (attending_update rfl)
    | constructing =>
      unfold PendSystem.proceed
      rw [hstage]
      exact h.construct hstage
    | kicking => exact h.kick hstage hkeeps
    | restarting => exact h.push hstage hkeeps

/-- INTERNAL: a step of a handler task in `Stop`. -/
theorem PendOk.stop {s' : PendSystem τ ι threads} {e : TimerEvent τ (ι ⊕ Fin threads) threads} {j : Fin threads}
    (h : PendOk d s) (he : e = .call (.inr j) d .stop ∨ e = .write (.inr j))
    (htimers : s'.timers = s.timers.step countMax e) (hpending : s'.pending = s.pending)
    (hattended : s'.pipe ≠ [] → Attending s' ∨ Served d s'.timers.host) : PendOk d s' := by
  have hactor : actor e = some (.inr j) := by
    obtain rfl | rfl := he <;> rfl
  refine ⟨?_, fun i => ?_, fun k p hp => ?_, hattended⟩
  · rw [htimers]
    exact h.orders.step countMax e h.pushes
  · rw [hpending, htimers, caller_of_actor countMax]
    · exact h.callers i
    · rw [hactor]
      exact nofun
  · rw [htimers] at hp
    have hstep := caller_step countMax s.timers e (.inr k)
    generalize (s.timers.step countMax e).caller (.inr k) = push at hstep hp
    cases hstep with
    | same => exact h.stops k p hp
    | @enters u request push he' hsite =>
      cases hp
      subst he'
      obtain heq | heq := he
      · cases heq
        simp only [TimerHost.request, TimerHost.stop] at hsite
        split at hsite
        · exact (CallSite.pushes.inj hsite).symm
        · cases hsite
      · cases heq
    | shutdown he' =>
      subst he'
      obtain heq | heq := he <;> cases heq
    | raises he' =>
      subst he'
      obtain heq | heq := he <;> cases heq
    | written => cases hp

omit [DecidableEq τ] [DecidableEq ι] in
/-- INTERNAL: what attends to the pipe, when a handler task that does not moves on. -/
theorem Attending.moves {s' : PendSystem τ ι threads} {j : Fin threads} {stage : Option DrainStage} (h : Attending s)
    (hidle : ¬AtWork (s.draining j)) (hpending : s'.pending = s.pending)
    (hdraining : s'.draining = Function.update s.draining j stage) : Attending s' := by
  obtain ⟨i, hi⟩ | ⟨k, hk⟩ := h
  · refine .inl ⟨i, ?_⟩
    rwa [hpending]
  · refine .inr ⟨k, ?_⟩
    have hne : k ≠ j := by
      rintro rfl
      exact hidle hk
    rwa [hdraining, Function.update_of_ne hne]

/-- INTERNAL: a step of a handler task in `OnExpired`. -/
theorem PendOk.drain (h : PendOk d s) (j : Fin threads) (hkeeps : KeepsDrainer d countMax s (.drain j)) :
    PendOk d (s.drain d countMax j) := by
  unfold PendSystem.drain
  cases hstage : s.draining j with
  | none => exact h
  | some stage =>
    cases stage with
    | reading =>
      dsimp only
      split
      · refine ⟨h.orders, h.callers, h.stops, fun _ => .inl (.inr ⟨j, ?_⟩)⟩
        dsimp only
        rw [Function.update_self]
        trivial
      · next hempty => exact ⟨h.orders, h.callers, h.stops, fun hpipe => absurd hempty hpipe⟩
    | calling call =>
      refine ⟨h.orders, h.callers, h.stops, fun _ => .inl (.inr ⟨j, ?_⟩)⟩
      dsimp only
      rw [Function.update_self]
      trivial
    | emptied =>
      have hidle : ¬AtWork (s.draining j) := by
        rw [hstage]
        exact id
      refine h.stop (e := .call (.inr j) d .stop) (.inl rfl) rfl rfl fun hpipe => ?_
      obtain hattending | hserved := h.attended hpipe
      · exact .inl (hattending.moves hidle rfl rfl)
      · exact .inr (hserved.step countMax h.orders.period nofun)
    | stopping =>
      have hidle : ¬AtWork (s.draining j) := by
        rw [hstage]
        exact id
      refine h.stop (e := .write (.inr j)) (.inr rfl) rfl rfl fun hpipe => ?_
      have hattending := (hkeeps hstage).resolve_left hpipe
      exact .inl (hattending.moves hidle rfl rfl)

/-- **The step lemma.** -/
theorem PendOk.step (h : PendOk d s) {e : PendEvent τ ι threads} (hkeeps : KeepsDrainer d countMax s e) :
    PendOk d (s.step d capacity countMax e) := by
  cases e with
  | timer e =>
    simp only [PendSystem.step]
    split
    · next hpermits => exact h.timerStep hpermits
    · exact h
  | xTimerPendFunctionCall i call => exact h.pend i false call
  | xTimerPendFunctionCallFromISR i call => exact h.pend i true call
  | proceed i => exact h.proceed i hkeeps
  | drain j => exact h.drain j hkeeps

omit [DecidableEq τ] [DecidableEq ι] in
/-- INTERNAL: a new system. -/
theorem PendOk.initial : PendOk d (PendSystem.initial : PendSystem τ ι threads) where
  orders := ⟨nofun, nofun, nofun⟩
  callers := fun _ => nofun
  stops := nofun
  attended := fun hpipe => absurd rfl hpipe

end Step

/-! ## The order of the calls -/

section Order

variable {capacity countMax : ℕ} {d : τ} {s : PendSystem τ ι threads}

/-- The call that a handler task has read from the pipe and not yet made. -/
def heldCall : Option DrainStage → Option PendCall
  | some (.calling call) => some call
  | _ => none

/-- The calls that the handler tasks have read from the pipe and not yet made. -/
def inHand (s : PendSystem τ ι threads) : List PendCall :=
  (List.finRange threads).filterMap fun j => heldCall (s.draining j)

/-- What a step can do with the calls. -/
inductive Passage (capacity : ℕ) (s : PendSystem τ ι threads) (e : PendEvent τ ι threads) :
    PendSystem τ ι threads → Prop where
  | accepts {s' : PendSystem τ ι threads} {call : PendCall} (haccepted : s.accepted capacity e = some call)
      (hexecuted : s.executed e = none) (hpipe : s'.pipe = s.pipe ++ [call])
      (hheld : ∀ j, heldCall (s'.draining j) = heldCall (s.draining j)) : Passage capacity s e s'
  | takes {s' : PendSystem τ ι threads} {j : Fin threads} {call : PendCall}
      (haccepted : s.accepted capacity e = none) (hexecuted : s.executed e = none) (hpipe : s.pipe = call :: s'.pipe)
      (hj : heldCall (s.draining j) = none)
      (hheld : s'.draining = Function.update s.draining j (some (.calling call))) : Passage capacity s e s'
  | executes {s' : PendSystem τ ι threads} {j : Fin threads} {call : PendCall}
      (haccepted : s.accepted capacity e = none) (hexecuted : s.executed e = some call) (hpipe : s'.pipe = s.pipe)
      (hj : s.draining j = some (.calling call))
      (hheld : s'.draining = Function.update s.draining j (some .reading)) : Passage capacity s e s'
  | stays {s' : PendSystem τ ι threads} (haccepted : s.accepted capacity e = none) (hexecuted : s.executed e = none)
      (hpipe : s'.pipe = s.pipe) (hheld : ∀ j, heldCall (s'.draining j) = heldCall (s.draining j)) :
      Passage capacity s e s'

omit [DecidableEq τ] [DecidableEq ι] in
/-- INTERNAL: a handler task that holds no call goes on. -/
theorem heldCall_update {j : Fin threads} {stage : Option DrainStage} (hold : heldCall (s.draining j) = none)
    (hnew : heldCall stage = none) (k : Fin threads) :
    heldCall (Function.update s.draining j stage k) = heldCall (s.draining k) := by
  by_cases hk : k = j
  · subst hk
    rw [Function.update_self, hnew, hold]
  · rw [Function.update_of_ne hk]

/-- INTERNAL: where each event moves the calls. -/
theorem step_passage (d : τ) (capacity countMax : ℕ) (s : PendSystem τ ι threads) (e : PendEvent τ ι threads) :
    Passage capacity s e (s.step d capacity countMax e) := by
  have hpend : ∀ (i : ι) (fromIsr : Bool) (call : PendCall), s.accepted capacity e =
      (if s.pending i = none ∧ s.timers.caller (.inl i) = none ∧ call.func ≠ 0 ∧ s.pipe.length < capacity then
        some call else none) → s.executed e = none → Passage capacity s e (s.pend capacity i fromIsr call) := by
    intro i fromIsr call haccepted hexecuted
    unfold PendSystem.pend
    split
    · next hcond =>
      rw [if_pos hcond] at haccepted
      exact .accepts haccepted hexecuted rfl (fun _ => rfl)
    · next hcond =>
      rw [if_neg hcond] at haccepted
      exact .stays haccepted hexecuted rfl (fun _ => rfl)
  cases e with
  | timer e =>
    simp only [PendSystem.step]
    split
    · next hpermits =>
      refine .stays rfl rfl rfl fun k => ?_
      unfold PendSystem.timerStep
      dsimp only
      split
      · next j =>
        split
        · have hnone : s.draining j = none := Option.isNone_iff_eq_none.mp hpermits
          refine heldCall_update ?_ rfl k
          rw [hnone]
          rfl
        · rfl
      · rfl
    · exact .stays rfl rfl rfl (fun _ => rfl)
  | xTimerPendFunctionCall i call => exact hpend i false call rfl rfl
  | xTimerPendFunctionCallFromISR i call => exact hpend i true call rfl rfl
  | proceed i =>
    have hsame : (s.proceed d countMax i).pipe = s.pipe ∧ (s.proceed d countMax i).draining = s.draining := by
      unfold PendSystem.proceed
      split
      · exact ⟨rfl, rfl⟩
      · split
        · exact ⟨rfl, rfl⟩
        · split <;> exact ⟨rfl, rfl⟩
      · exact ⟨rfl, rfl⟩
      · exact ⟨rfl, rfl⟩
      · split <;> exact ⟨rfl, rfl⟩
    refine .stays rfl rfl hsame.1 fun j => ?_
    exact congrArg (fun draining => heldCall (draining j)) hsame.2
  | drain j =>
    simp only [PendSystem.step, PendSystem.drain]
    cases hstage : s.draining j with
    | none => exact .stays rfl (by simp [PendSystem.executed, hstage]) rfl (fun _ => rfl)
    | some stage =>
      have hidle : (∀ call, stage ≠ .calling call) → heldCall (s.draining j) = none ∧ s.executed (.drain j) = none := by
        intro hcalling
        simp only [PendSystem.executed]
        rw [hstage]
        cases stage with
        | calling call => exact absurd rfl (hcalling call)
        | _ => exact ⟨rfl, rfl⟩
      cases stage with
      | reading =>
        obtain ⟨hheld, hexecuted⟩ := hidle nofun
        dsimp only
        split
        · next call pipe hpipe => exact .takes rfl hexecuted hpipe hheld rfl
        · exact .stays rfl hexecuted rfl (heldCall_update hheld rfl)
      | calling call => exact .executes rfl (by simp [PendSystem.executed, hstage]) rfl hstage rfl
      | emptied =>
        obtain ⟨hheld, hexecuted⟩ := hidle nofun
        refine .stays rfl hexecuted rfl (heldCall_update hheld ?_)
        split <;> rfl
      | stopping =>
        obtain ⟨hheld, hexecuted⟩ := hidle nofun
        exact .stays rfl hexecuted rfl (heldCall_update hheld rfl)

omit [DecidableEq τ] [DecidableEq ι] in
/-- INTERNAL: the calls in hand are those of the handler tasks. -/
theorem inHand_congr {s' : PendSystem τ ι threads} (h : ∀ j, heldCall (s'.draining j) = heldCall (s.draining j)) :
    inHand s' = inHand s := by
  unfold inHand
  rw [funext h]

/-- INTERNAL: a handler task takes a call in hand. -/
theorem inHand_update (draining : Fin threads → Option DrainStage) (j : Fin threads) (call : PendCall)
    (stage : Option DrainStage) (hcalling : draining j = some (.calling call)) (hstage : heldCall stage = none) :
    ((List.finRange threads).filterMap fun k => heldCall (draining k)).Perm
      (call :: (List.finRange threads).filterMap fun k => heldCall (Function.update draining j stage k)) := by
  obtain ⟨l₁, l₂, hl, h₁, h₂⟩ := finRange_split j
  have hothers : ∀ l : List (Fin threads), j ∉ l → (l.filterMap fun k => heldCall (Function.update draining j stage k)) =
      l.filterMap fun k => heldCall (draining k) := by
    intro l hj
    apply List.filterMap_congr
    intro k hk
    have hne : k ≠ j := by
      rintro rfl
      exact hj hk
    rw [Function.update_of_ne hne]
  have hself : heldCall (draining j) = some call := by
    rw [hcalling]
    rfl
  have hnone : heldCall (Function.update draining j stage j) = none := by
    rw [Function.update_self]
    exact hstage
  rw [hl]
  simp only [List.filterMap_append, List.filterMap_cons, hself, hnone, hothers l₁ h₁, hothers l₂ h₂]
  exact List.perm_middle

/-- The calls that have been accepted and not yet made, the oldest first if there is one handler task. -/
def unmade (s : PendSystem τ ι threads) : List PendCall := inHand s ++ s.pipe

/-- INTERNAL: a step, for any number of handler tasks. -/
theorem unmade_step (d : τ) (capacity countMax : ℕ) (s : PendSystem τ ι threads) (e : PendEvent τ ι threads) :
    (unmade s ++ (s.accepted capacity e).toList).Perm
      ((s.executed e).toList ++ unmade (s.step d capacity countMax e)) := by
  have hpassage := step_passage d capacity countMax s e
  generalize s.step d capacity countMax e = s' at hpassage
  unfold unmade
  cases hpassage with
  | accepts haccepted hexecuted hpipe hheld =>
    rw [haccepted, hexecuted, hpipe, inHand_congr hheld]
    exact .of_eq (List.append_assoc ..)
  | @takes j call haccepted hexecuted hpipe hj hheld =>
    have hcalling : s'.draining j = some (.calling call) := by
      rw [hheld, Function.update_self]
    have hold : Function.update s'.draining j (s.draining j) = s.draining := by
      rw [hheld, Function.update_idem, Function.update_eq_self]
    have hone : (inHand s').Perm (call :: inHand s) := by
      have hupdate := inHand_update s'.draining j call (s.draining j) hcalling hj
      rwa [hold] at hupdate
    rw [haccepted, hexecuted, hpipe]
    have htaken : (inHand s ++ call :: s'.pipe).Perm (inHand s' ++ s'.pipe) :=
      List.perm_middle.trans (hone.append_right s'.pipe).symm
    simpa using htaken
  | @executes j call haccepted hexecuted hpipe hj hheld =>
    have hone : (inHand s).Perm (call :: inHand s') := by
      have hupdate := inHand_update s.draining j call (some .reading) hj rfl
      rwa [← hheld] at hupdate
    rw [haccepted, hexecuted, hpipe]
    simpa using hone.append_right s.pipe
  | stays haccepted hexecuted hpipe hheld =>
    rw [haccepted, hexecuted, hpipe, inHand_congr hheld]
    exact .of_eq (List.append_nil _)

/-- INTERNAL: a step, with one handler task. -/
theorem unmade_step_one (d : τ) (capacity countMax : ℕ) (s : PendSystem τ ι 1) (e : PendEvent τ ι 1) :
    unmade s ++ (s.accepted capacity e).toList =
      (s.executed e).toList ++ unmade (s.step d capacity countMax e) := by
  have hone : ∀ s : PendSystem τ ι 1, inHand s = (heldCall (s.draining 0)).toList := by
    intro s
    unfold inHand
    cases hheld : heldCall (s.draining 0) <;> simp [List.finRange_succ, hheld]
  have hpassage := step_passage d capacity countMax s e
  generalize s.step d capacity countMax e = s' at hpassage
  unfold unmade
  cases hpassage with
  | accepts haccepted hexecuted hpipe hheld =>
    rw [haccepted, hexecuted, hpipe, inHand_congr hheld]
    exact List.append_assoc ..
  | @takes j call haccepted hexecuted hpipe hj hheld =>
    have hzero : j = 0 := Subsingleton.elim j 0
    subst hzero
    rw [haccepted, hexecuted, hpipe, hone, hone, hheld, hj, Function.update_self]
    simp [heldCall]
  | @executes j call haccepted hexecuted hpipe hj hheld =>
    have hzero : j = 0 := Subsingleton.elim j 0
    subst hzero
    rw [haccepted, hexecuted, hpipe, hone, hone, hheld, hj, Function.update_self]
    simp [heldCall]
  | stays haccepted hexecuted hpipe hheld =>
    rw [haccepted, hexecuted, hpipe, inHand_congr hheld]
    exact List.append_nil _

omit [DecidableEq τ] [DecidableEq ι] in
/-- INTERNAL: no call is unmade. -/
theorem unmade_initial : unmade (PendSystem.initial : PendSystem τ ι threads) = [] := by
  simp [unmade, inHand, PendSystem.initial, heldCall]

/-- The calls that a run accepts. -/
def acceptedCalls (d : τ) (capacity countMax : ℕ) (es : List (PendEvent τ ι threads)) : List PendCall :=
  Runs.observed (PendSystem.step d capacity countMax) (PendSystem.accepted capacity) .initial es

/-- The calls whose functions a run calls. -/
def executedCalls (d : τ) (capacity countMax : ℕ) (es : List (PendEvent τ ι threads)) : List PendCall :=
  Runs.observed (PendSystem.step d capacity countMax) PendSystem.executed .initial es

/-- **No call is lost or made twice.** -/
theorem run_conserves (d : τ) (capacity countMax : ℕ) (es : List (PendEvent τ ι threads)) :
    (acceptedCalls d capacity countMax es).Perm
      (executedCalls d capacity countMax es ++ unmade (PendSystem.run d capacity countMax .initial es)) := by
  have hflow := Runs.observed_perm (unmade_step d capacity countMax) (.initial : PendSystem τ ι threads) es
  rwa [unmade_initial] at hflow

/-- **One handler task makes the calls in the order of acceptance.** -/
theorem run_inOrder (d : τ) (capacity countMax : ℕ) (es : List (PendEvent τ ι 1)) :
    acceptedCalls d capacity countMax es =
      executedCalls d capacity countMax es ++ unmade (PendSystem.run d capacity countMax .initial es) := by
  have halong : Runs.Along (PendSystem.step d capacity countMax) (fun _ _ => True)
      (.initial : PendSystem τ ι 1) es := Runs.along_of_forall (fun _ _ => trivial) _ es
  have hstep : ∀ (s : PendSystem τ ι 1) (e : PendEvent τ ι 1) (l : List PendCall), l = unmade s → True →
      ∃ l', l' = unmade (s.step d capacity countMax e) ∧
        l ++ (s.accepted capacity e).toList = (s.executed e).toList ++ l' := by
    rintro s e l rfl -
    exact ⟨_, rfl, unmade_step_one d capacity countMax s e⟩
  obtain ⟨l', rfl, hflow⟩ := halong.flows hstep rfl
  rwa [unmade_initial] at hflow

end Order

/-! ## Runs -/

/-- No deferred call and no `OnExpired` of the drainer is under way. -/
def AtRest (s : PendSystem τ ι threads) : Prop := (∀ i, s.pending i = none) ∧ ∀ j, s.draining j = none

omit [DecidableEq τ] [DecidableEq ι] in
/-- INTERNAL: nobody attends to the pipe at rest. -/
theorem AtRest.not_attending {s : PendSystem τ ι threads} (h : AtRest s) : ¬Attending s := by
  rintro (⟨i, hi⟩ | ⟨j, hj⟩)
  · exact hi (h.1 i)
  · rw [h.2 j] at hj
    exact hj

instance [Fintype ι] (s : PendSystem τ ι threads) : Decidable (AtRest s) :=
  inferInstanceAs (Decidable ((∀ i, s.pending i = none) ∧ ∀ j, s.draining j = none))

/-- **No deferred call is stranded** in a run in which nothing leaves the pipe to nobody; and a call that is accepted is
made at most once, in the order of acceptance if there is one handler task. -/
theorem run_pendCalls (d : τ) (capacity countMax : ℕ) {es : List (PendEvent τ ι threads)}
    (hes : Runs.Along (PendSystem.step d capacity countMax) (KeepsDrainer d countMax) .initial es) :
    let s : PendSystem τ ι threads := PendSystem.run d capacity countMax .initial es
    (AtRest s → s.pipe ≠ [] → Served d s.timers.host) ∧
      (acceptedCalls d capacity countMax es).Perm (executedCalls d capacity countMax es ++ unmade s) ∧
      (threads = 1 → executedCalls d capacity countMax es ++ unmade s = acceptedCalls d capacity countMax es) := by
  intro s
  have hok : PendOk d s := hes.invariant (I := PendOk d) (fun _ _ hs hkeeps => hs.step hkeeps) .initial
  refine ⟨fun hrest hpipe => ?_, run_conserves d capacity countMax es, ?_⟩
  · exact (hok.attended hpipe).resolve_left hrest.not_attending
  · rintro rfl
    exact (run_inOrder d capacity countMax es).symm

/-- The record of a call of the function at the address `func`. -/
def record (func : ℕ) : PendCall := ⟨func, 0, 0⟩

/-- A task pends the first call, up to the `Write` of `Restart`; the drainer is constructed. -/
def firstPend : List (PendEvent Unit Bool 1) :=
  [.xTimerPendFunctionCall false (record 1), .proceed false, .proceed false, .proceed false, .proceed false,
    .proceed false]

/-- The tick task starts the drainer, a tick passes, and the handler task makes the first call and finds the pipe
empty. -/
def firstDrain : List (PendEvent Unit Bool 1) :=
  [.timer .update, .timer .tick, .timer .update, .timer .update, .timer .update, .timer (.handle 0), .drain 0, .drain 0,
    .drain 0]

/-- Another task pends a call. -/
def secondPend : List (PendEvent Unit Bool 1) :=
  [.xTimerPendFunctionCall true (record 2), .proceed true, .proceed true, .proceed true, .proceed true]

/-- The handler task stops the drainer. -/
def stopDrainer : List (PendEvent Unit Bool 1) := [.drain 0, .drain 0]

/-- The second call is pended once the drainer is stopped. -/
def pendAfterStop : List (PendEvent Unit Bool 1) := firstPend ++ firstDrain ++ stopDrainer ++ secondPend

theorem pendAfterStop_keeps :
    Runs.Along (PendSystem.step () 8 32) (KeepsDrainer () 32) (PendSystem.initial : PendSystem Unit Bool 1)
      pendAfterStop := by
  decide +kernel

theorem pendAfterStop_served :
    let s : PendSystem Unit Bool 1 := PendSystem.run () 8 32 .initial pendAfterStop
    s.pipe = [record 2] ∧ Served () s.timers.host ∧
      executedCalls () 8 32 pendAfterStop ++ unmade s = [record 1, record 2] := by
  intro s
  obtain ⟨hserved, -, horder⟩ := run_pendCalls () 8 32 pendAfterStop_keeps
  have hrest : AtRest s := by decide +kernel
  have hpipe : s.pipe = [record 2] := by decide +kernel
  have haccepted : acceptedCalls () 8 32 pendAfterStop = [record 1, record 2] := by decide +kernel
  refine ⟨hpipe, ?_, (horder rfl).trans haccepted⟩
  apply hserved hrest
  rw [hpipe]
  exact List.cons_ne_nil _ _

/-- The second call is pended after the handler task has found the pipe empty and before it stops the drainer. -/
def pendBeforeStop : List (PendEvent Unit Bool 1) := firstPend ++ firstDrain ++ secondPend ++ stopDrainer

/-- A third call is pended before the tick task has processed the commands. -/
def pendBehindStop : List (PendEvent Unit Bool 1) :=
  pendBeforeStop ++ [.xTimerPendFunctionCall false (record 3), .proceed false, .proceed false]

/-- The first call is pended by an interrupt handler. -/
def pendFromIsr : List (PendEvent Unit Bool 1) :=
  [.xTimerPendFunctionCallFromISR true (record 1), .proceed true]

/-- A run ends with no call and no `OnExpired` under way, no command has been lost, calls are left in the pipe, and the
drainer is not served. -/
def Strands (es : List (PendEvent Unit Bool 1)) (left : List PendCall) : Prop :=
  let s : PendSystem Unit Bool 1 := PendSystem.run () 8 32 .initial es
  AtRest s ∧ s.timers.host.faults = [] ∧ s.pipe = left ∧ ¬Served () s.timers.host

instance (es : List (PendEvent Unit Bool 1)) (left : List PendCall) : Decidable (Strands es left) :=
  inferInstanceAs (Decidable (_ ∧ _ ∧ _ ∧ ¬_))

/-- The `Restart` of the second call is queued before the `Stop` of the drainer, that of the third is coalesced with it,
and a first call from an interrupt handler finds no drainer. -/
theorem pendCalls_strand :
    Strands pendBeforeStop [record 2] ∧ Strands pendBehindStop [record 2, record 3] ∧
      Strands pendFromIsr [record 1] := by
  decide +kernel

end Stk.Analysis
