import Stk.Analysis.TimerList

/-!
# The sleep of the tick task

The tick task blocks until the earliest deadline that its last walk has seen.  While it walks, each active timer is
still to be visited or is later than `next_sleep` (`SleepOk`); the walk leaves out a timer that is pending and one whose
new deadline has passed, and `next_sleep` counts from the tick at which the walk began.
-/

set_option autoImplicit false

namespace Stk.Analysis

open Stk.Model Stk.Model.TimerSystem

variable {τ ι : Type} {threads : ℕ}

/-- Each active timer that is not in `rest` expires no earlier than `nextSleep` ticks after `now`. -/
def CoveredBut (h : TimerHost τ) (rest : List τ) (now nextSleep : ℤ) : Prop :=
  ∀ t, (h.timer t).active = true → t ∈ rest ∨ nextSleep ≤ (h.timer t).deadline - now

/-- What `next_sleep` covers, by where the tick task is. -/
def SleepOk (h : TimerHost τ) : TickTask τ → Prop
  | .looping nextSleep | .reading nextSleep _ => nextSleep = noWait ∨ CoveredBut h [] h.now nextSleep
  | .walking now nextSleep rest => now = h.now ∧ nextSleep ≤ waitInfinite ∧ CoveredBut h rest now nextSleep
  | .writing tmr oneShot _ now nextSleep rest => now = h.now ∧ nextSleep ≤ waitInfinite ∧
      if oneShot then CoveredBut h rest now nextSleep
      else now < (h.timer tmr).deadline ∧ CoveredBut h (tmr :: rest) now nextSleep
  | .stopping _ | .finished => True

/-- What `SleepOk` depends on. -/
theorem SleepOk.congr {h h' : TimerHost τ} {task : TickTask τ} (hok : SleepOk h task) (hnow : h'.now = h.now)
    (hactive : ∀ t, (h'.timer t).active = (h.timer t).active)
    (hdeadline : ∀ t, (h'.timer t).deadline = (h.timer t).deadline) : SleepOk h' task := by
  have hcovered : ∀ {rest : List τ} {now nextSleep : ℤ}, CoveredBut h rest now nextSleep →
      CoveredBut h' rest now nextSleep := by
    intro rest now nextSleep hcov t ht
    rw [hactive] at ht
    rw [hdeadline]
    exact hcov t ht
  cases task with
  | looping nextSleep =>
    refine hok.imp_right (fun hcov => ?_)
    rw [hnow]
    exact hcovered hcov
  | reading nextSleep since =>
    refine hok.imp_right (fun hcov => ?_)
    rw [hnow]
    exact hcovered hcov
  | walking now nextSleep rest =>
    obtain ⟨hbegan, hle, hcov⟩ := hok
    exact ⟨hbegan.trans hnow.symm, hle, hcovered hcov⟩
  | writing tmr oneShot since now nextSleep rest =>
    obtain ⟨hbegan, hle, hcov⟩ := hok
    refine ⟨hbegan.trans hnow.symm, hle, ?_⟩
    cases oneShot with
    | true => exact hcovered hcov
    | false =>
      refine ⟨?_, hcovered hcov.2⟩
      rw [hdeadline]
      exact hcov.1
  | stopping | finished => trivial

/-- `next_sleep` is at most what it was, and at most the time to a deadline ahead. -/
theorem nextSleepAfter_le {deadline now nextSleep : ℤ} (hle : nextSleep ≤ waitInfinite) (hahead : now < deadline) :
    nextSleepAfter deadline now nextSleep ≤ nextSleep ∧ nextSleepAfter deadline now nextSleep ≤ deadline - now := by
  unfold nextSleepAfter
  dsimp only
  by_cases hsmall : deadline - now ≤ waitInfinite
  · have hcast : toTimeout (deadline - now) = deadline - now := by
      unfold toTimeout
      unfold waitInfinite at hsmall
      apply Int.bmod_eq_of_le <;> omega
    rw [hcast]
    split <;> omega
  · split <;> omega

/-- INTERNAL: the visit of a timer with a deadline ahead ends. -/
theorem SleepOk.endVisit {s : TimerSystem τ ι threads} {tmr : τ} {oneShot : Bool} {now nextSleep : ℤ} {rest : List τ}
    (hbegan : now = s.host.now) (hle : nextSleep ≤ waitInfinite)
    (hcovered : if oneShot then CoveredBut s.host rest now nextSleep
      else now < (s.host.timer tmr).deadline ∧ CoveredBut s.host (tmr :: rest) now nextSleep) :
    SleepOk (s.endVisit tmr oneShot now nextSleep rest).host (s.endVisit tmr oneShot now nextSleep rest).tickTask := by
  rw [endVisit_tickTask]
  have hnow : (s.endVisit tmr oneShot now nextSleep rest).host.now = s.host.now := by
    unfold TimerSystem.endVisit TimerHost.check
    split
    · rfl
    · dsimp only
      split <;> rfl
  refine SleepOk.congr (h := s.host) ?_ hnow (fun t => by rw [endVisit_timer]) (fun t => by rw [endVisit_timer])
  cases oneShot with
  | true => exact ⟨hbegan, hle, hcovered⟩
  | false =>
    obtain ⟨hahead, hcov⟩ := hcovered
    obtain ⟨hless, htime⟩ := nextSleepAfter_le hle hahead
    refine ⟨hbegan, Int.le_trans hless hle, fun t ht => ?_⟩
    simp only [Bool.false_eq_true, if_false]
    rcases hcov t ht with hmem | hlater
    · rcases List.mem_cons.mp hmem with rfl | hmem
      · exact .inr htime
      · exact .inl hmem
    · exact .inr (Int.le_trans hless hlater)

variable [DecidableEq τ]

theorem processCommand_now (h : TimerHost τ) (nextSleep : ℤ) (cmd : TimerCommand τ) :
    (h.processCommand nextSleep cmd).1.now = h.now := by
  cases cmd <;> unfold TimerHost.processCommand <;> (try dsimp only) <;> (repeat' split) <;>
    simp only [TimerHost.linkBack, TimerHost.unlink, TimerHost.setTimer, TimerHost.check] <;> (try split) <;> rfl

/-- A command sets `next_sleep` to `NO_WAIT`, or it leaves `next_sleep` and brings no deadline nearer. -/
theorem processCommand_sleep (h : TimerHost τ) (nextSleep : ℤ) (cmd : TimerCommand τ) :
    (h.processCommand nextSleep cmd).2 = noWait ∨ ((h.processCommand nextSleep cmd).2 = nextSleep ∧
      ∀ t, cmd.timer = some t → ((h.timer t).apply cmd).active = true →
        (h.timer t).active = true ∧ ((h.timer t).apply cmd).deadline = (h.timer t).deadline) := by
  cases cmd with
  | shutdown => exact .inr ⟨rfl, fun t ht => by cases ht⟩
  | start u timestamp delay period =>
    unfold TimerHost.processCommand
    dsimp only
    split
    · exact .inl rfl
    · rename_i hactive
      refine .inr ⟨rfl, fun t ht hset => ?_⟩
      cases ht
      simp only [Timer.apply, if_neg hactive] at hset ⊢
      exact ⟨hset, trivial⟩
  | stop u => exact .inr ⟨rfl, fun t ht hset => by contradiction⟩
  | reset u timestamp =>
    unfold TimerHost.processCommand
    dsimp only
    split
    · exact .inl rfl
    · rename_i hactive
      refine .inr ⟨rfl, fun t ht hset => ?_⟩
      cases ht
      simp only [Timer.apply, if_neg hactive] at hset ⊢
      exact ⟨hset, trivial⟩
  | restart u timestamp delay period => exact .inl rfl
  | startOrReset u timestamp delay period =>
    refine .inl ?_
    unfold TimerHost.processCommand
    dsimp only
    split
    · rfl
    · split <;> rfl
  | setPeriod u period =>
    have hsleep : (h.processCommand nextSleep (.setPeriod u period)).2 = nextSleep := by
      unfold TimerHost.processCommand
      dsimp only
      split <;> rfl
    refine .inr ⟨hsleep, fun t ht hset => ?_⟩
    simp only [Timer.apply] at hset ⊢
    split at hset
    · rename_i hcond
      rw [if_pos hcond]
      exact ⟨hset, rfl⟩
    · rename_i hcond
      rw [if_neg hcond]
      exact ⟨hset, rfl⟩

/-! ## Runs -/

/-- The visit of an active timer finds it handled, and not late by a whole period; `Read` is called with a finite
`next_sleep` in the tick in which the last walk began. -/
def WalkInTime (s : TimerSystem τ ι threads) : TickTask τ → Prop
  | .walking now _ (tmr :: _) => (s.host.timer tmr).active = true → (s.host.timer tmr).pending = false ∧
      ((s.host.timer tmr).period ≠ 0 → now < (s.host.timer tmr).deadline + (s.host.timer tmr).period)
  | .looping nextSleep => nextSleep ≠ noWait → s.host.active ≠ [] → s.host.now = s.ticks
  | _ => True

def InTime (s : TimerSystem τ ι threads) : TimerEvent τ ι threads → Prop
  | .update => WalkInTime s s.tickTask
  | _ => True

/-- `Read` is called with a timeout that ends no later than any active timer expires. -/
def ReadsInTime (s : TimerSystem τ ι threads) : TickTask τ → Prop
  | .looping nextSleep => s.host.active ≠ [] → ∀ t, (s.host.timer t).active = true →
      nextSleep ≤ max noWait ((s.host.timer t).deadline - s.ticks)
  | _ => True

def NeverOversleeps (s : TimerSystem τ ι threads) : TimerEvent τ ι threads → Prop
  | .update => ReadsInTime s s.tickTask
  | _ => True

instance {s : TimerSystem τ ι threads} : ∀ task, Decidable (WalkInTime s task)
  | .walking now _ (tmr :: _) => inferInstanceAs (Decidable ((s.host.timer tmr).active = true →
      (s.host.timer tmr).pending = false ∧
        ((s.host.timer tmr).period ≠ 0 → now < (s.host.timer tmr).deadline + (s.host.timer tmr).period)))
  | .looping nextSleep =>
    inferInstanceAs (Decidable (nextSleep ≠ noWait → s.host.active ≠ [] → s.host.now = s.ticks))
  | .walking _ _ [] | .reading _ _ | .writing _ _ _ _ _ _ | .stopping _ | .finished => .isTrue trivial

instance {s : TimerSystem τ ι threads} : ∀ e, Decidable (InTime s e)
  | .update => inferInstanceAs (Decidable (WalkInTime s s.tickTask))
  | .tick | .call _ _ _ | .shutdown _ | .setRearming _ | .write _ | .updateTimeout | .handle _ | .handleTimeout _ =>
    .isTrue trivial

variable [DecidableEq ι] {s : TimerSystem τ ι threads} {e : TimerEvent τ ι threads}

/-- **The step lemma.** -/
theorem SleepOk.step (countMax : ℕ) (hok : SleepOk s.host s.tickTask) (hlist : s.tickTask ≠ .finished → ListOk s.host)
    (htime : InTime s e) : SleepOk (s.step countMax e).host (s.step countMax e).tickTask := by
  have hwrite : ∀ (u : τ) (tmr : Timer) (t : τ), tmr.active = (s.host.timer u).active →
      tmr.deadline = (s.host.timer u).deadline →
      (Function.update s.host.timer u tmr t).active = (s.host.timer t).active ∧
        (Function.update s.host.timer u tmr t).deadline = (s.host.timer t).deadline := by
    intro u tmr t hactive hdeadline
    by_cases hu : t = u
    · subst hu
      rw [Function.update_self]
      exact ⟨hactive, hdeadline⟩
    · rw [Function.update_of_ne hu]
      exact ⟨rfl, rfl⟩
  have hwalk : ∀ {s' : TimerSystem τ ι threads}, s.tickTask ≠ .finished → s' = s.enterWalk →
      SleepOk s'.host s'.tickTask := by
    rintro s' hne rfl
    exact ⟨rfl, Int.le_refl _, fun t ht => .inl (((hlist hne).linked t).mp ht)⟩
  have htransition := step_transition countMax s e
  generalize s.step countMax e = s' at htransition
  cases htransition with
  | stay | tick | call | callShutdown | handlerBlock | handlerTimeout => exact hok
  | written | stale | takeSentinel => exact hok.congr rfl (fun t => rfl) (fun t => rfl)
  | setRearming | full =>
    refine hok.congr (TimerHost.setRearming_now _ _ _) (fun t => ?_) (fun t => ?_)
    · dsimp only
      rw [TimerHost.setRearming_timer]
      split <;> rfl
    · dsimp only
      rw [TimerHost.setRearming_timer]
      split <;> rfl
  | @take nextSleep cmd commands hin hcommands hcmd =>
    have hbefore : nextSleep = noWait ∨ CoveredBut s.host [] s.host.now nextSleep := by
      rcases hin with htask | ⟨since, htask⟩ <;> rw [htask] at hok <;> exact hok
    have hsleep := processCommand_sleep { s.host with commands := commands } nextSleep cmd
    have htimer := TimerHost.processCommand_timer { s.host with commands := commands } nextSleep cmd
    have hnow := processCommand_now { s.host with commands := commands } nextSleep cmd
    rcases hsleep with hzero | ⟨hsame, hlater⟩
    · exact .inl hzero
    · rcases hbefore with hzero | hcov
      · exact .inl (hsame.trans hzero)
      · refine .inr (fun t ht => ?_)
        dsimp only at ht ⊢
        rw [htimer] at ht ⊢
        rw [hsame, hnow]
        split at ht
        · rename_i hcmd
          obtain ⟨hactive, hdeadline⟩ := hlater t hcmd ht
          rw [if_pos hcmd, hdeadline]
          exact hcov t hactive
        · rename_i hcmd
          rw [if_neg hcmd]
          exact hcov t ht
  | takeShutdown | sentinel | sentinelLost | drain => trivial
  | block htask hcommands hsleep =>
    rw [htask] at hok
    exact hok
  | empty htask => exact hwalk (by rw [htask]; exact nofun) rfl
  | readTimeout htask => exact hwalk (by rw [htask]; exact nofun) rfl
  | @due now nextSleep tmr rest htask hactive hpending hdue =>
    rw [htask] at hok
    obtain ⟨hbegan, hle, hcov⟩ := hok
    simp only [InTime, htask, WalkInTime] at htime
    have hother : ∀ t, t ≠ tmr → ((TimerSystem.expire s.host tmr now).timer t) = s.host.timer t := by
      intro t ht
      rw [expire_timer, Function.update_of_ne ht]
    have hself : (TimerSystem.expire s.host tmr now).timer tmr = (s.host.timer tmr).expire now := by
      rw [expire_timer, Function.update_self]
    refine ⟨hbegan.trans (expire_now _ _ _).symm, hle, ?_⟩
    dsimp only
    by_cases hperiod : (s.host.timer tmr).period = 0
    · rw [decide_eq_true hperiod, if_pos rfl]
      intro t ht
      have hne : t ≠ tmr := by
        rintro rfl
        rw [hself, Timer.expire_active _ _ hactive, hperiod] at ht
        exact nomatch ht
      rw [hother t hne] at ht ⊢
      exact (hcov t ht).imp_left (fun hmem => (List.mem_cons.mp hmem).resolve_left hne)
    · rw [decide_eq_false hperiod, if_neg (by decide)]
      refine ⟨?_, fun t ht => ?_⟩
      · rw [hself, Timer.expire_deadline]
        exact (htime hactive).2 hperiod
      · by_cases hne : t = tmr
        · exact .inl (hne ▸ List.mem_cons_self)
        · rw [hother t hne] at ht ⊢
          exact hcov t ht
  | @notDue now nextSleep tmr rest htask hactive hpending hdue =>
    rw [htask] at hok
    obtain ⟨hbegan, hle, hcov⟩ := hok
    exact SleepOk.endVisit hbegan hle ⟨hdue, hcov⟩
  | @skip now nextSleep tmr rest htask hactive hpending =>
    simp only [InTime, htask, WalkInTime] at htime
    exact nomatch hpending.symm.trans (htime hactive).1
  | @stopped now nextSleep tmr rest htask hactive =>
    rw [htask] at hok
    obtain ⟨hbegan, hle, hcov⟩ := hok
    refine ⟨hbegan, hle, fun t ht => ?_⟩
    have hne : t ≠ tmr := by
      rintro rfl
      exact nomatch hactive.symm.trans ht
    exact (hcov t ht).imp_left (fun hmem => (List.mem_cons.mp hmem).resolve_left hne)
  | @walked now nextSleep htask =>
    rw [htask] at hok
    obtain ⟨hbegan, hle, hcov⟩ := hok
    refine .inr (fun t ht => .inr ?_)
    have hne : s.host.active ≠ [] := List.ne_nil_of_mem (((hlist (by rw [htask]; exact nofun)).linked t).mp ht)
    rw [if_neg hne]
    dsimp only [enterCommands]
    rw [← hbegan]
    exact (hcov t ht).resolve_left List.not_mem_nil
  | @pushed tmr oneShot since now nextSleep rest htask =>
    rw [htask] at hok
    obtain ⟨hbegan, hle, hcov⟩ := hok
    exact SleepOk.endVisit hbegan hle hcov
  | @lost tmr oneShot since now nextSleep rest htask =>
    rw [htask] at hok
    obtain ⟨hbegan, hle, hcov⟩ := hok
    exact SleepOk.endVisit hbegan hle hcov
  | @onExpired j u queue =>
    have hpointer := fun t => hwrite u { s.host.timer u with pending := false } t rfl rfl
    exact hok.congr rfl (fun t => (hpointer t).1) (fun t => (hpointer t).2)

/-- **The tick task does not oversleep.**  In a run whose walks find each active timer handled and not late by a whole
period, and whose calls of `Read` with a finite timeout come in the tick of the walk before, `Read` is never called
with a timeout that ends later than an active timer expires. -/
theorem run_neverOversleeps (countMax : ℕ) {es : List (TimerEvent τ ι threads)}
    (hes : Runs.Along (step countMax) InTime TimerSystem.initial es) :
    Runs.Along (step countMax) NeverOversleeps (TimerSystem.initial : TimerSystem τ ι threads) es := by
  refine hes.along (I := fun s => SleepOk s.host s.tickTask ∧ (s.tickTask ≠ .finished → ListOk s.host)) ?_ ?_
  · rintro s e ⟨hok, hlist⟩ htime
    refine ⟨⟨hok.step countMax hlist htime, listOk_step countMax hlist⟩, ?_⟩
    cases e with
    | update =>
      cases htask : s.tickTask with
      | looping nextSleep =>
        simp only [InTime, htask, WalkInTime] at htime
        simp only [NeverOversleeps, htask, ReadsInTime]
        intro hne t ht
        rw [htask] at hok
        by_cases hzero : nextSleep = noWait
        · rw [hzero]
          exact Int.le_max_left _ _
        · have hcovered := (hok.resolve_left hzero t ht).resolve_left List.not_mem_nil
          rw [htime hzero hne] at hcovered
          exact Int.le_trans hcovered (Int.le_max_right _ _)
      | _ => simp only [NeverOversleeps, htask, ReadsInTime]
    | _ => trivial
  · exact ⟨.inr nofun, fun _ => ListOk.initial⟩

/-- A timer expires, is handled before the next walk, and expires again. -/
def handledInTime : List (TimerEvent Unit Unit 1) :=
  [.call () () (.start 2 3), .write (), .update, .update, .update, .update, .update, .tick, .tick, .updateTimeout, .update,
    .update, .handle 0, .update, .update, .tick, .tick, .tick, .updateTimeout, .update, .update, .update, .update]

theorem handledInTime_sleeps :
    Runs.Along (TimerSystem.step 32) NeverOversleeps (TimerSystem.initial : TimerSystem Unit Unit 1) handledInTime :=
  run_neverOversleeps 32 (by decide +kernel)

omit [DecidableEq τ] [DecidableEq ι] in
/-- INTERNAL: `Read` is called with a timeout that is too long. -/
theorem oversleeps {s : TimerSystem τ ι threads} {nextSleep : ℤ} {t : τ} (htask : s.tickTask = .looping nextSleep)
    (hne : s.host.active ≠ []) (hactive : (s.host.timer t).active = true)
    (hlong : max noWait ((s.host.timer t).deadline - s.ticks) < nextSleep) : ¬NeverOversleeps s .update := by
  intro h
  simp only [NeverOversleeps, htask, ReadsInTime] at h
  exact absurd (h hne t hactive) (Int.not_le.mpr hlong)

/-- A timer of the period 5 has expired and is not handled for a whole period. -/
def slowHandler : List (TimerEvent Unit Unit 1) :=
  [.call () () (.start 0 5), .write (), .update, .update, .update, .update, .update, .update, .tick, .tick, .tick, .tick,
    .tick, .updateTimeout, .update, .update]

/-- The tick task takes the command of a timer of the period 1 when two ticks have passed. -/
def lateTickTask : List (TimerEvent Unit Unit 1) :=
  [.call () () (.start 0 1), .write (), .tick, .tick, .update, .update, .update, .update, .handle 0, .update]

/-- A command that does not re-arm wakes the tick task three ticks before the deadline. -/
def setPeriodAsleep : List (TimerEvent Unit Unit 1) :=
  [.call () () (.start 5 5), .write (), .update, .update, .update, .update, .update, .tick, .tick, .tick,
    .call () () (.setPeriod 7), .write (), .update]

/-- In each of the three the tick task goes to sleep past the deadline of an active timer. -/
theorem tickTask_oversleeps :
    ¬NeverOversleeps (run 32 (TimerSystem.initial : TimerSystem Unit Unit 1) slowHandler) .update ∧
    ¬NeverOversleeps (run 32 (TimerSystem.initial : TimerSystem Unit Unit 1) lateTickTask) .update ∧
    ¬NeverOversleeps (run 32 (TimerSystem.initial : TimerSystem Unit Unit 1) setPeriodAsleep) .update := by
  refine ⟨?_, ?_, ?_⟩
  · have htask : (run 32 (TimerSystem.initial : TimerSystem Unit Unit 1) slowHandler).tickTask =
        .looping waitInfinite := by decide +kernel
    exact oversleeps (t := ()) htask (by decide +kernel) (by decide +kernel) (by decide +kernel)
  · have htask : (run 32 (TimerSystem.initial : TimerSystem Unit Unit 1) lateTickTask).tickTask =
        .looping waitInfinite := by decide +kernel
    exact oversleeps (t := ()) htask (by decide +kernel) (by decide +kernel) (by decide +kernel)
  · have htask : (run 32 (TimerSystem.initial : TimerSystem Unit Unit 1) setPeriodAsleep).tickTask =
        .looping 5 := by decide +kernel
    exact oversleeps (t := ()) htask (by decide +kernel) (by decide +kernel) (by decide +kernel)

end Stk.Analysis
