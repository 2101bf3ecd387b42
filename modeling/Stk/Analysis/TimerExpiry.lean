import Mathlib.Tactic.Ring
import Stk.Analysis.TimerStep
import Stk.Foundation.Runs

/-!
# The expiries of a timer

A periodic timer that is left alone expires at its deadline `D` and every period after it, however late the tick
task is, and `OnExpired` is called for an expiry once at most (`Scheduled`).  A pointer in the queue that
outlives a stop is told by `m_pending`: the flag is set by an expiry alone, and an expiry follows a start
(`DueOk`).
-/

set_option autoImplicit false

namespace Stk.Analysis

open Stk.Model Stk.Model.TimerSystem

variable {τ ι : Type} {threads : ℕ}

/-- The tick at which the walk under way began. -/
def walkBegan : TickTask τ → Option ℤ
  | .walking now _ _ => some now
  | .writing _ _ _ now _ _ => some now
  | _ => none

/-- The walk under way has not begun in the future. -/
def Clock (s : TimerSystem τ ι threads) : Prop := ∀ now, walkBegan s.tickTask = some now → now ≤ s.ticks

/-- The deadline and the period with which a command starts a timer, if it does. -/
def starts (tmr : Timer) : TimerCommand τ → Option (ℤ × ℕ)
  | .start _ timestamp delay period => if tmr.active then none else some (timestamp + delay, period)
  | .restart _ timestamp delay period => some (timestamp + delay, period)
  | .startOrReset _ timestamp delay period => if tmr.active then none else some (timestamp + delay, period)
  | _ => none

/-- The deadline that commands have given a timer since it was started, after one more command. -/
def armedBy (tmr : Timer) (d : Option ℤ) : TimerCommand τ → Option ℤ
  | .stop _ => none
  | .start _ timestamp delay _ => if tmr.active then d else some (timestamp + delay)
  | .restart _ timestamp delay _ => some (timestamp + delay)
  | .reset _ timestamp => if tmr.active && decide (tmr.period ≠ 0) then some (timestamp + tmr.period) else d
  | .startOrReset _ timestamp delay _ =>
    if !tmr.active then some (timestamp + delay)
    else if tmr.period ≠ 0 then some (timestamp + tmr.period)
    else d
  | .setPeriod _ _ | .shutdown => d

/-- The timer that a command starts. -/
theorem apply_starts {tmr : Timer} {cmd : TimerCommand τ} {D : ℤ} {p : ℕ} (hstarts : starts tmr cmd = some (D, p)) :
    (tmr.apply cmd).active = true ∧ (tmr.apply cmd).period = p ∧ (tmr.apply cmd).deadline = D ∧
      (tmr.apply cmd).pending = false := by
  cases cmd with
  | start u timestamp delay period | startOrReset u timestamp delay period =>
    unfold starts at hstarts
    cases hactive : tmr.active with
    | true => simp [hactive] at hstarts
    | false =>
      simp only [hactive, Bool.false_eq_true, if_false, Option.some.injEq, Prod.mk.injEq] at hstarts
      simp [Timer.apply, Timer.arm, hactive, hstarts]
  | restart u timestamp delay period =>
    simp only [starts, Option.some.injEq, Prod.mk.injEq] at hstarts
    simp [Timer.apply, Timer.arm, hstarts]
  | _ => contradiction

variable [DecidableEq τ] [DecidableEq ι] {s : TimerSystem τ ι threads} {e : TimerEvent τ ι threads} {t : τ}

/-! ## The clock -/

theorem ticks_le_step (countMax : ℕ) (s : TimerSystem τ ι threads) (e : TimerEvent τ ι threads) :
    s.ticks ≤ (s.step countMax e).ticks := by
  have htransition := step_transition countMax s e
  generalize s.step countMax e = s' at htransition
  cases htransition with
  | tick => exact Int.le_add_one (Int.le_refl _)
  | notDue | pushed | lost => rw [endVisit_ticks]
  | _ => exact Int.le_refl _

theorem Clock.step (countMax : ℕ) (hclock : Clock s) : Clock (s.step countMax e) := by
  have hticks := ticks_le_step countMax s e
  have hwalk : ∀ {task : TickTask τ} {now : ℤ}, s.tickTask = task → walkBegan task = some now → now ≤ s.ticks := by
    intro task now htask hnow
    exact hclock now (by rw [htask, hnow])
  have htransition := step_transition countMax s e
  generalize s.step countMax e = s' at htransition hticks
  intro now hnow
  cases htransition with
  | stay | call | callShutdown | setRearming | written | full | onExpired | stale | takeSentinel | handlerBlock
  | handlerTimeout => exact hclock now hnow
  | tick => exact Int.le_trans (hclock now hnow) hticks
  | take | takeShutdown | block | walked | sentinel | sentinelLost | drain => exact nomatch hnow
  | empty | readTimeout =>
    cases hnow
    exact Int.le_refl _
  | due htask | skip htask | stopped htask =>
    cases hnow
    exact hwalk htask rfl
  | notDue htask | pushed htask | lost htask =>
    rw [endVisit_tickTask] at hnow
    cases hnow
    rw [endVisit_ticks]
    exact hwalk htask rfl

theorem Clock.run (countMax : ℕ) (es : List (TimerEvent τ ι threads)) (hclock : Clock s) :
    Clock (s.run countMax es) := by
  induction es generalizing s with
  | nil => exact hclock
  | cons e es ih => exact ih (hclock.step countMax)

omit [DecidableEq τ] [DecidableEq ι] in
theorem visited_le (hclock : Clock s) {now : ℤ} (hvisited : s.visited e = some (t, now)) : now ≤ s.ticks := by
  unfold visited at hvisited
  split at hvisited
  · split at hvisited
    · rename_i htask
      cases hvisited
      exact hclock _ (by rw [htask]; rfl)
    · exact nomatch hvisited
  · exact nomatch hvisited

/-! ## A timer that is left alone -/

/-- The tick of a call of `OnExpired` for the timer. -/
def handling (t : τ) (s : TimerSystem τ ι threads) (e : TimerEvent τ ι threads) : Option ℤ :=
  if s.onExpired e = some t then some s.ticks else none

/-- The step takes no command for the timer. -/
def Uncommanded (t : τ) (s : TimerSystem τ ι threads) (e : TimerEvent τ ι threads) : Prop :=
  (s.taken e).bind TimerCommand.timer ≠ some t

instance : Decidable (Uncommanded t s e) :=
  inferInstanceAs (Decidable ((s.taken e).bind TimerCommand.timer ≠ some t))

/-- A timer with the first deadline `D` and the period `p` that has expired `k` times and been handled `c` times. -/
structure Scheduled (t : τ) (D : ℤ) (p k c : ℕ) (s : TimerSystem τ ι threads) : Prop where
  active : (s.host.timer t).active = true
  period : (s.host.timer t).period = p
  deadline : (s.host.timer t).deadline = D + k * p
  handled : c + (if (s.host.timer t).pending = true then 1 else 0) = k
  passed : ∀ i < k, D + i * p ≤ s.ticks
  clock : Clock s

/-- **The step lemma.** -/
theorem Scheduled.step (countMax : ℕ) {D : ℤ} {p k c : ℕ} (hp : 0 < p) (hok : Scheduled t D p k c s)
    (halone : Uncommanded t s e) :
    (expiry t s e = none ∧ handling t s e = none ∧ Scheduled t D p k c (s.step countMax e)) ∨
    (∃ now, expiry t s e = some (D + k * p, now) ∧ D + k * p ≤ now ∧ handling t s e = none ∧
      Scheduled t D p (k + 1) c (s.step countMax e)) ∨
    (expiry t s e = none ∧ handling t s e = some s.ticks ∧ D + c * p ≤ s.ticks ∧
      Scheduled t D p k (c + 1) (s.step countMax e)) := by
  have hticks := ticks_le_step countMax s e
  have hclock := hok.clock.step (e := e) countMax
  have htimer := timer_step countMax t s e
  generalize s.step countMax e = s' at hticks hclock htimer
  generalize htmr' : s'.host.timer t = tmr' at htimer
  have hpassed : ∀ i < k, D + i * p ≤ s'.ticks := fun i hi => Int.le_trans (hok.passed i hi) hticks
  have hhandled := hok.handled
  cases htimer with
  | command htaken ht =>
    refine absurd ?_ halone
    rw [htaken]
    exact ht
  | quiet hquiet b =>
    refine .inl ⟨hquiet.expiry, if_neg hquiet.onExpired, ?_⟩
    refine ⟨?_, ?_, ?_, ?_, hpassed, hclock⟩
    · rw [htmr']
      exact hok.active
    · rw [htmr']
      exact hok.period
    · rw [htmr']
      exact hok.deadline
    · rw [htmr']
      exact hhandled
  | @expires now hvisited hactive hpending hdue =>
    have hnow := visited_le hok.clock hvisited
    have hexpiry : expiry t s e = some (D + k * p, now) := by
      unfold expiry
      rw [hvisited, ← hok.deadline]
      exact if_pos ⟨rfl, hactive, hpending, hdue⟩
    have hnone : handling t s e = none := by
      refine if_neg (fun hexpired => ?_)
      rw [visited_of_onExpired hexpired] at hvisited
      exact nomatch hvisited
    rw [hok.deadline] at hdue
    refine .inr (.inl ⟨now, hexpiry, hdue, hnone, ?_⟩)
    have hperiod := hok.period
    refine ⟨?_, ?_, ?_, ?_, fun i hi => ?_, hclock⟩
    · rw [htmr', Timer.expire_active _ _ hactive, hperiod]
      exact decide_eq_true (by omega)
    · rw [htmr', Timer.expire_period, hperiod]
    · rw [htmr', Timer.expire_deadline, hok.deadline, hperiod]
      push_cast
      ring
    · rw [htmr', Timer.expire_pending, if_pos rfl]
      rw [hpending] at hhandled
      simpa using hhandled
    · rcases Nat.lt_succ_iff_lt_or_eq.mp hi with hlt | rfl
      · exact hpassed i hlt
      · omega
  | handled hexpired hpending =>
    have hnone : expiry t s e = none := by
      unfold expiry
      rw [visited_of_onExpired hexpired]
    rw [hpending, if_pos rfl] at hhandled
    refine .inr (.inr ⟨hnone, if_pos hexpired, hok.passed c (by omega), ?_⟩)
    refine ⟨?_, ?_, ?_, ?_, hpassed, hclock⟩
    · rw [htmr']
      exact hok.active
    · rw [htmr']
      exact hok.period
    · rw [htmr']
      exact hok.deadline
    · rw [htmr']
      simpa using hhandled

/-- INTERNAL: what holds of the members of a list by their index. -/
theorem getElem?_cons_shift {X : Type} {P : ℕ → X → Prop} {x : X} {l : List X} (hx : P 0 x)
    (hl : ∀ i y, l[i]? = some y → P (i + 1) y) : ∀ i y, (x :: l)[i]? = some y → P i y := by
  intro i y hy
  cases i with
  | zero =>
    cases hy
    exact hx
  | succ i => exact hl i y (by simpa using hy)

/-- **The run lemma.** -/
theorem Scheduled.run (countMax : ℕ) {D : ℤ} {p : ℕ} (hp : 0 < p) {es : List (TimerEvent τ ι threads)} :
    ∀ {s : TimerSystem τ ι threads} {k c : ℕ}, Scheduled t D p k c s →
      Runs.Along (TimerSystem.step countMax) (Uncommanded t) s es →
      let expiries := Runs.observed (TimerSystem.step countMax) (expiry t) s es
      let calls := Runs.observed (TimerSystem.step countMax) (handling t) s es
      (∀ i x, expiries[i]? = some x → x.1 = D + (k + i : ℕ) * p ∧ x.1 ≤ x.2) ∧
        (∀ i x, calls[i]? = some x → D + (c + i : ℕ) * p ≤ x) ∧
        Scheduled t D p (k + expiries.length) (c + calls.length) (s.run countMax es) := by
  induction es with
  | nil =>
    intro s k c hok _
    exact ⟨nofun, nofun, hok⟩
  | cons e es ih =>
    intro s k c hok hes
    dsimp only
    rcases hok.step countMax hp hes.1 with ⟨hexpiry, hhandling, hok'⟩ | ⟨now, hexpiry, hdue, hhandling, hok'⟩ |
      ⟨hexpiry, hhandling, hdue, hok'⟩
    · rw [Runs.observed_cons_none es hexpiry, Runs.observed_cons_none es hhandling]
      exact ih hok' hes.2
    · rw [Runs.observed_cons_some es hexpiry, Runs.observed_cons_none es hhandling]
      obtain ⟨hexpiries, hcalls, hend⟩ := ih hok' hes.2
      refine ⟨getElem?_cons_shift ⟨rfl, hdue⟩ (fun i x hx => ?_), hcalls, ?_⟩
      · have hx' := hexpiries i x hx
        rwa [Nat.add_assoc, Nat.add_comm 1] at hx'
      · rw [List.length_cons, Nat.add_comm _ 1, ← Nat.add_assoc]
        exact hend
    · rw [Runs.observed_cons_none es hexpiry, Runs.observed_cons_some es hhandling]
      obtain ⟨hexpiries, hcalls, hend⟩ := ih hok' hes.2
      refine ⟨hexpiries, getElem?_cons_shift hdue (fun i x hx => ?_), ?_⟩
      · have hx' := hcalls i x hx
        rwa [Nat.add_assoc, Nat.add_comm 1] at hx'
      · rw [List.length_cons, Nat.add_comm _ 1, ← Nat.add_assoc]
        exact hend

/-! ## A timer that has been stopped -/

/-- The deadline that commands have given a timer since it was started, after one more step. -/
def armedIn (t : τ) (d : Option ℤ) (s : TimerSystem τ ι threads) (e : TimerEvent τ ι threads) : Option ℤ :=
  match s.taken e with
  | some cmd => if cmd.timer = some t then armedBy (s.host.timer t) d cmd else d
  | none => d

/-- The deadline that commands have given a timer since it was started, after a run; `none` if it has not been
started, or has been stopped again. -/
def armedDeadline (countMax : ℕ) (t : τ) : Option ℤ → TimerSystem τ ι threads → List (TimerEvent τ ι threads) → Option ℤ
  | d, _, [] => d
  | d, s, e :: es => armedDeadline countMax t (armedIn t d s e) (s.step countMax e) es

/-- An active timer has been started, and a pending one has reached the deadline that it was given. -/
structure DueOk (t : τ) (d : Option ℤ) (s : TimerSystem τ ι threads) : Prop where
  active : (s.host.timer t).active = true → ∃ D, d = some D ∧ D ≤ (s.host.timer t).deadline
  pending : (s.host.timer t).pending = true → ∃ D, d = some D ∧ D ≤ s.ticks
  clock : Clock s

omit [DecidableEq τ] in
theorem armedBy_active {tmr : Timer} {d : Option ℤ} {cmd : TimerCommand τ}
    (hactive : tmr.active = true → ∃ D, d = some D ∧ D ≤ tmr.deadline) :
    (tmr.apply cmd).active = true → ∃ D, armedBy tmr d cmd = some D ∧ D ≤ (tmr.apply cmd).deadline := by
  intro h
  cases cmd with
  | shutdown => exact hactive h
  | start u timestamp delay period =>
    unfold Timer.apply armedBy at *
    dsimp only at h ⊢
    by_cases hset : tmr.active = true
    · simp only [hset, Bool.not_true, Bool.false_eq_true, if_false, if_true]
      exact hactive hset
    · simp only [hset]
      exact ⟨_, rfl, Int.le_refl _⟩
  | stop u => exact nomatch h
  | reset u timestamp =>
    unfold Timer.apply armedBy at *
    dsimp only at h ⊢
    split at h
    · rename_i hcond
      rw [if_pos hcond, if_pos hcond]
      exact ⟨_, rfl, Int.le_refl _⟩
    · rename_i hcond
      rw [if_neg hcond, if_neg hcond]
      exact hactive h
  | restart u timestamp delay period => exact ⟨_, rfl, Int.le_refl _⟩
  | startOrReset u timestamp delay period =>
    unfold Timer.apply armedBy at *
    dsimp only at h ⊢
    split at h
    · rename_i hcond
      rw [if_pos hcond, if_pos hcond]
      exact ⟨_, rfl, Int.le_refl _⟩
    · rename_i hcond
      rw [if_neg hcond, if_neg hcond]
      split at h
      · rename_i hperiod
        rw [if_pos hperiod, if_pos hperiod]
        exact ⟨_, rfl, Int.le_refl _⟩
      · rename_i hperiod
        rw [if_neg hperiod, if_neg hperiod]
        exact hactive h
  | setPeriod u period =>
    unfold Timer.apply armedBy at *
    dsimp only at h ⊢
    split at h
    · rename_i hcond
      rw [if_pos hcond]
      exact hactive h
    · rename_i hcond
      rw [if_neg hcond]
      exact hactive h

omit [DecidableEq τ] in
/-- A command that gives a deadline, or stops the timer, clears `m_pending`. -/
theorem armedBy_pending {tmr : Timer} {d : Option ℤ} {cmd : TimerCommand τ} :
    (tmr.apply cmd).pending = true → tmr.pending = true ∧ armedBy tmr d cmd = d := by
  intro h
  cases cmd with
  | shutdown => exact ⟨h, rfl⟩
  | start u timestamp delay period =>
    unfold Timer.apply armedBy at *
    dsimp only at h ⊢
    split at h
    · exact nomatch h
    · rename_i hcond
      exact ⟨h, if_pos (by simpa using hcond)⟩
  | stop u => exact nomatch h
  | reset u timestamp =>
    unfold Timer.apply armedBy at *
    dsimp only at h ⊢
    split at h
    · exact nomatch h
    · rename_i hcond
      exact ⟨h, if_neg hcond⟩
  | restart u timestamp delay period => exact nomatch h
  | startOrReset u timestamp delay period =>
    unfold Timer.apply armedBy at *
    dsimp only at h ⊢
    split at h
    · exact nomatch h
    · rename_i hcond
      rw [if_neg hcond]
      split at h
      · exact nomatch h
      · rename_i hperiod
        exact ⟨h, if_neg hperiod⟩
  | setPeriod u period =>
    unfold Timer.apply armedBy at *
    dsimp only at h ⊢
    split at h
    · exact ⟨h, rfl⟩
    · exact ⟨h, rfl⟩

/-- **The step lemma.** -/
theorem DueOk.step (countMax : ℕ) {d : Option ℤ} (hok : DueOk t d s) :
    DueOk t (armedIn t d s e) (s.step countMax e) := by
  have hticks := ticks_le_step countMax s e
  have hclock := hok.clock.step (e := e) countMax
  have htimer := timer_step countMax t s e
  generalize s.step countMax e = s' at hticks hclock htimer
  generalize htmr' : s'.host.timer t = tmr' at htimer
  have hlater : (s.host.timer t).pending = true → ∃ D, d = some D ∧ D ≤ s'.ticks := by
    intro hpending
    obtain ⟨D, hd, hle⟩ := hok.pending hpending
    exact ⟨D, hd, Int.le_trans hle hticks⟩
  have hother : (∀ cmd, s.taken e = some cmd → cmd.timer ≠ some t) → armedIn t d s e = d := by
    intro hnone
    unfold armedIn
    split
    · rename_i cmd hcmd
      exact if_neg (hnone cmd hcmd)
    · exact rfl
  cases htimer with
  | @command cmd htaken ht =>
    have harmed : armedIn t d s e = armedBy (s.host.timer t) d cmd := by
      unfold armedIn
      rw [htaken]
      exact if_pos ht
    rw [harmed]
    refine ⟨?_, ?_, hclock⟩
    · rw [htmr']
      exact armedBy_active hok.active
    · rw [htmr']
      intro hpending
      obtain ⟨hbefore, hsame⟩ := armedBy_pending (d := d) hpending
      rw [hsame]
      exact hlater hbefore
  | @expires now hvisited hactive hpending hdue =>
    have hnow := visited_le hok.clock hvisited
    obtain ⟨D, hd, hle⟩ := hok.active hactive
    have hsame : armedIn t d s e = d := by
      apply hother
      intro cmd hcmd
      have hclash := (of_taken hcmd).1.symm.trans hvisited
      contradiction
    rw [hsame]
    refine ⟨fun _ => ⟨D, hd, ?_⟩, fun _ => ⟨D, hd, by omega⟩, hclock⟩
    rw [htmr', Timer.expire_deadline]
    omega
  | handled hexpired hpending =>
    have hsame : armedIn t d s e = d := by
      apply hother
      intro cmd hcmd
      have hclash := (of_taken hcmd).2.symm.trans hexpired
      contradiction
    rw [hsame]
    refine ⟨?_, ?_, hclock⟩
    · rw [htmr']
      exact hok.active
    · rw [htmr']
      simp
  | quiet hquiet b =>
    rw [hother hquiet.taken]
    refine ⟨?_, ?_, hclock⟩
    · rw [htmr']
      exact hok.active
    · rw [htmr']
      exact hlater

theorem DueOk.run (countMax : ℕ) {es : List (TimerEvent τ ι threads)} :
    ∀ {s : TimerSystem τ ι threads} {d : Option ℤ}, DueOk t d s →
      DueOk t (armedDeadline countMax t d s es) (s.run countMax es) := by
  induction es with
  | nil => exact fun hok => hok
  | cons e es ih => exact fun hok => ih (hok.step countMax)

omit [DecidableEq τ] [DecidableEq ι] in
theorem Clock.initial : Clock (TimerSystem.initial : TimerSystem τ ι threads) := nofun

/-- **The accounts of a timer.**  In every run, from the step in which a timer is started with the deadline `D` and
the period `p` on, and as long as no other command for it is taken, its `i`-th expiry is at the deadline `D + i * p`
and not before it, and the `i`-th call of `OnExpired` is not before that deadline either and comes after the expiry.
From the step in which a timer is stopped on, `OnExpired` is called only once the timer has been started again and has
reached the deadline that it was given. -/
theorem run_timerExpiry (countMax : ℕ) (es : List (TimerEvent τ ι threads)) (t : τ) :
    let s : TimerSystem τ ι threads := run countMax TimerSystem.initial es
    (∀ e cmd D p, s.taken e = some cmd → cmd.timer = some t → starts (s.host.timer t) cmd = some (D, p) → 0 < p →
      ∀ fs, Runs.Along (TimerSystem.step countMax) (Uncommanded t) (s.step countMax e) fs →
        let expiries := Runs.observed (TimerSystem.step countMax) (expiry t) (s.step countMax e) fs
        let calls := Runs.observed (TimerSystem.step countMax) (handling t) (s.step countMax e) fs
        let s' := run countMax (s.step countMax e) fs
        (∀ (i : ℕ) x, expiries[i]? = some x → x.1 = D + i * p ∧ x.1 ≤ x.2) ∧
        (∀ (i : ℕ) x, calls[i]? = some x → D + i * p ≤ x) ∧ calls.length ≤ expiries.length ∧
        (s'.host.timer t).active = true ∧ (s'.host.timer t).deadline = D + expiries.length * p) ∧
    (∀ e, s.taken e = some (.stop t) → ∀ fs f,
      (run countMax (s.step countMax e) fs).onExpired f = some t →
        ∃ D, armedDeadline countMax t none (s.step countMax e) fs = some D ∧
          D ≤ (run countMax (s.step countMax e) fs).ticks) := by
  intro s
  have hclock : Clock s := Clock.run countMax es Clock.initial
  constructor
  · intro e cmd D p htaken ht hstarts hp fs hfs
    have hstart : Scheduled t D p 0 0 (s.step countMax e) := by
      have htimer := timer_taken countMax htaken ht
      obtain ⟨hactive, hperiod, hdeadline, hpending⟩ := apply_starts hstarts
      rw [← htimer] at hactive hperiod hdeadline hpending
      exact ⟨hactive, hperiod, by simpa using hdeadline, by simp [hpending], (by simp), hclock.step countMax⟩
    obtain ⟨hexpiries, hcalls, hend⟩ := hstart.run countMax hp hfs
    simp only [Nat.zero_add] at hexpiries hcalls hend
    refine ⟨hexpiries, hcalls, ?_, hend.active, hend.deadline⟩
    have hhandled := hend.handled
    omega
  · intro e htaken fs f hexpired
    have hstop : DueOk t none (s.step countMax e) := by
      have htimer := timer_taken countMax htaken rfl
      refine ⟨?_, ?_, hclock.step countMax⟩
      · rw [htimer]
        simp [Timer.apply]
      · rw [htimer]
        simp [Timer.apply]
    have hend : DueOk t (armedDeadline countMax t none (s.step countMax e) fs) (run countMax (s.step countMax e) fs) :=
      hstop.run countMax
    have htimer := timer_step countMax t (run countMax (s.step countMax e) fs) f
    generalize (TimerSystem.step countMax (run countMax (s.step countMax e) fs) f).host.timer t = tmr' at htimer
    cases htimer with
    | command htaken' => exact absurd ((of_taken htaken').2.symm.trans hexpired) (by simp)
    | expires hvisited => exact absurd ((visited_of_onExpired hexpired).symm.trans hvisited) (by simp)
    | handled _ hpending => exact hend.pending hpending
    | quiet hquiet => exact absurd hexpired hquiet.onExpired

/-- A periodic timer is started; then the tick task takes the command. -/
def startEvents : List (TimerEvent Unit Unit 1) := [.call () () (.start 2 3), .write ()]

/-- Two ticks pass, and the timer expires. -/
def expireEvents : List (TimerEvent Unit Unit 1) :=
  [.update, .update, .update, .update, .tick, .tick, .updateTimeout, .update, .update, .update]

/-- The timer is stopped with its pointer in the queue; then the tick task takes the command. -/
def stopEvents : List (TimerEvent Unit Unit 1) :=
  startEvents ++ [.update] ++ expireEvents ++ [.call () () .stop, .write ()]

/-- The timer is started again, and expires before the pointer is taken. -/
def againEvents : List (TimerEvent Unit Unit 1) :=
  [.call () () (.start 1 1), .write (), .update, .update, .update, .update, .update, .tick, .updateTimeout, .update]

theorem stopEvents_accounts :
    let s : TimerSystem Unit Unit 1 := (run 32 TimerSystem.initial startEvents).step 32 .update
    let s' : TimerSystem Unit Unit 1 := (run 32 TimerSystem.initial stopEvents).step 32 .update
    ((run 32 s (expireEvents ++ [.handle 0])).host.timer ()).deadline = 2 +
        (Runs.observed (TimerSystem.step 32) (expiry ()) s (expireEvents ++ [.handle 0])).length * (3 : ℕ) ∧
      Runs.observed (TimerSystem.step 32) (handling ()) s (expireEvents ++ [.handle 0]) = [2] ∧
      ∃ D, armedDeadline 32 () none s' againEvents = some D ∧ D ≤ (run 32 s' againEvents).ticks := by
  intro s s'
  have hschedule := (run_timerExpiry 32 startEvents ()).1 .update (.start () 0 2 3) 2 3 (by decide +kernel) rfl
    (by decide +kernel) (by decide) (expireEvents ++ [.handle 0]) (by decide +kernel)
  have hstop := (run_timerExpiry 32 stopEvents ()).2 .update (by decide +kernel) againEvents (.handle 0)
    (by decide +kernel)
  obtain ⟨-, -, -, -, hdeadline⟩ := hschedule
  refine ⟨?_, ?_, ?_⟩
  · subst s
    exact hdeadline
  · decide +kernel
  · exact hstop

end Stk.Analysis
