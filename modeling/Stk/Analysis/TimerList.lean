import Mathlib.Data.Fintype.Card
import Stk.Analysis.TimerStep
import Stk.Foundation.Runs

/-!
# The active list of a timer host

`m_active` and the list agree (`ListOk`) in every state of a run up to the end of `UpdateTime`, which unlinks the
timers and leaves their flags.  A handler task ends on a sentinel, and there are as many sentinels as
running handler tasks if each found a place in the queue.
-/

set_option autoImplicit false

namespace Stk.Analysis

open Stk.Model Stk.Model.TimerSystem

variable {τ ι : Type} {threads : ℕ} [DecidableEq τ] {h : TimerHost τ}

/-- The active timers are the linked ones, and none is linked twice. -/
structure ListOk (h : TimerHost τ) : Prop where
  nodup : h.active.Nodup
  linked : ∀ t, (h.timer t).active = true ↔ t ∈ h.active

omit [DecidableEq τ] in
/-- What `ListOk` depends on. -/
theorem ListOk.congr {h' : TimerHost τ} (hok : ListOk h) (hlist : h'.active = h.active)
    (hflags : ∀ t, (h'.timer t).active = (h.timer t).active) : ListOk h' := by
  refine ⟨?_, fun t => ?_⟩
  · rw [hlist]
    exact hok.nodup
  · rw [hlist, hflags t]
    exact hok.linked t

/-- The flag of one timer changes, and so does its link. -/
theorem ListOk.setTimer (hok : ListOk h) {t : τ} {tmr : Timer} {l : List τ} (hnodup : l.Nodup)
    (ht : tmr.active = true ↔ t ∈ l) (hother : ∀ u, u ≠ t → (u ∈ l ↔ u ∈ h.active)) :
    ListOk { h.setTimer t tmr with active := l } := by
  refine ⟨hnodup, fun u => ?_⟩
  by_cases hu : u = t
  · subst hu
    simp only [TimerHost.setTimer, Function.update_self]
    exact ht
  · simp only [TimerHost.setTimer, Function.update_of_ne hu]
    rw [hother u hu]
    exact hok.linked u

/-- The timer is linked at the back, wherever it was. -/
theorem ListOk.linkBack (hok : ListOk h) {t : τ} {tmr : Timer} (hactive : tmr.active = true) :
    ListOk { h.setTimer t tmr with active := h.active.erase t ++ [t] } := by
  have hnot : t ∉ h.active.erase t := hok.nodup.not_mem_erase
  refine hok.setTimer ?_ ?_ (fun u hu => ?_)
  · exact List.nodup_append.mpr ⟨hok.nodup.erase t, List.nodup_singleton t, by
      intro a ha b hb hab
      rw [List.mem_singleton.mp hb] at hab
      exact hnot (hab ▸ ha)⟩
  · simp [hactive]
  · simp [List.mem_erase_of_ne hu, hu]

/-- The timer is unlinked. -/
theorem ListOk.unlink (hok : ListOk h) {t : τ} {tmr : Timer} (hactive : tmr.active = false) :
    ListOk { h.setTimer t tmr with active := h.active.erase t } := by
  refine hok.setTimer (hok.nodup.erase t) ?_ (fun u hu => List.mem_erase_of_ne hu)
  simp [hactive, hok.nodup.not_mem_erase]

/-- A write that leaves the flag alone. -/
theorem ListOk.setSame (hok : ListOk h) {t : τ} {tmr : Timer} (hactive : tmr.active = (h.timer t).active) :
    ListOk (h.setTimer t tmr) := by
  refine hok.congr rfl (fun u => ?_)
  by_cases hu : u = t
  · rw [hu]
    simpa [TimerHost.setTimer] using hactive
  · simp [TimerHost.setTimer, Function.update_of_ne hu]

theorem ListOk.processCommand (hok : ListOk h) (nextSleep : ℤ) (cmd : TimerCommand τ) :
    ListOk (h.processCommand nextSleep cmd).1 := by
  have hlist := h.processCommand_active nextSleep cmd
  have hwrite : ∀ t, cmd.timer = some t → (h.processCommand nextSleep cmd).1.timer =
      Function.update h.timer t ((h.timer t).apply cmd) := by
    intro t ht
    funext u
    rw [TimerHost.processCommand_timer, ht]
    by_cases hu : u = t
    · rw [hu, Function.update_self, if_pos rfl]
    · rw [Function.update_of_ne hu, if_neg (fun heq => hu (Option.some.inj heq).symm)]
  have hsame : ∀ t, cmd.timer = some t → h.linkedBy cmd = h.active →
      ((h.timer t).apply cmd).active = (h.timer t).active → ListOk (h.processCommand nextSleep cmd).1 := by
    intro t ht hl hactive
    refine (hok.setSame hactive).congr (hlist.trans hl) (fun u => ?_)
    rw [hwrite t ht]
    exact rfl
  have hback : ∀ t, cmd.timer = some t → h.linkedBy cmd = h.active.erase t ++ [t] →
      ((h.timer t).apply cmd).active = true → ListOk (h.processCommand nextSleep cmd).1 := by
    intro t ht hl hactive
    refine (hok.linkBack hactive).congr (hlist.trans hl) (fun u => ?_)
    rw [hwrite t ht]
    exact rfl
  have hfree : ∀ t, (h.timer t).active = false → h.active.erase t = h.active := by
    intro t ht
    apply List.erase_of_not_mem
    intro hmem
    rw [(hok.linked t).mpr hmem] at ht
    exact absurd ht (by decide)
  cases cmd with
  | shutdown => exact hok
  | start t timestamp delay period =>
    cases hactive : (h.timer t).active with
    | true => exact hsame t rfl (by simp [TimerHost.linkedBy, hactive]) (by simp [Timer.apply, hactive])
    | false =>
      exact hback t rfl (by simp [TimerHost.linkedBy, hactive, hfree t hactive])
        (by simp [Timer.apply, Timer.arm, hactive])
  | stop t =>
    have hinactive : ((h.timer t).apply (.stop t)).active = false := rfl
    refine (hok.unlink (t := t) hinactive).congr hlist (fun u => ?_)
    rw [hwrite t rfl]
    exact rfl
  | reset t timestamp => exact hsame t rfl rfl (by simp only [Timer.apply]; split <;> rfl)
  | restart t timestamp delay period => exact hback t rfl rfl rfl
  | startOrReset t timestamp delay period =>
    cases hactive : (h.timer t).active with
    | true =>
      refine hsame t rfl (by simp [TimerHost.linkedBy, hactive]) ?_
      simp only [Timer.apply, hactive, Bool.not_true, Bool.false_eq_true, if_false]
      split
      · exact rfl
      · exact hactive
    | false =>
      exact hback t rfl (by simp [TimerHost.linkedBy, hactive, hfree t hactive])
        (by simp [Timer.apply, Timer.arm, hactive])
  | setPeriod t period => exact hsame t rfl rfl (by simp only [Timer.apply]; split <;> rfl)

theorem ListOk.expire (hok : ListOk h) {t : τ} (hactive : (h.timer t).active = true) (now : ℤ) :
    ListOk (TimerSystem.expire h t now) := by
  have hflag := Timer.expire_active (h.timer t) now hactive
  by_cases hperiod : (h.timer t).period = 0
  · have hinactive : ((h.timer t).expire now).active = false := by
      rw [hflag]
      simp [hperiod]
    refine (hok.unlink (t := t) hinactive).congr ?_ (fun u => ?_)
    · rw [expire_active, if_pos hperiod]
    · rw [expire_timer]
      exact rfl
  · have hsame : ((h.timer t).expire now).active = (h.timer t).active := by
      rw [hflag]
      simp [hperiod, hactive]
    refine (hok.setSame hsame).congr ?_ (fun u => ?_)
    · rw [expire_active, if_neg hperiod]
      exact rfl
    · rw [expire_timer]
      exact rfl

theorem ListOk.setRearming (hok : ListOk h) (cmd : TimerCommand τ) (value : Bool) :
    ListOk (h.setRearming cmd value) := by
  unfold TimerHost.setRearming
  split
  · exact hok.setSame rfl
  · exact hok

section

variable [DecidableEq ι]

/-- **The step lemma.** -/
theorem ListOk.step (countMax : ℕ) {s : TimerSystem τ ι threads} {e : TimerEvent τ ι threads} (hok : ListOk s.host)
    (hdrain : e = .update → s.tickTask = .stopping 0 → s.host.active = []) : ListOk (s.step countMax e).host := by
  have htransition := step_transition countMax s e
  generalize s.step countMax e = s' at htransition
  cases htransition with
  | stay | tick | call | callShutdown | block | skip | walked | sentinelLost | handlerBlock | handlerTimeout => exact hok
  | written | takeShutdown | empty | readTimeout | sentinel | stale | takeSentinel =>
    exact hok.congr rfl (fun t => rfl)
  | setRearming => exact hok.setRearming _ _
  | full => exact (hok.setRearming _ false).congr rfl (fun t => rfl)
  | @take nextSleep cmd commands =>
    have hpopped : ListOk { s.host with commands := commands } := hok.congr rfl (fun t => rfl)
    exact hpopped.processCommand nextSleep cmd
  | due htask hactive => exact hok.expire hactive _
  | notDue | pushed | lost => exact hok.congr (endVisit_active _ _ _ _ _ _) (fun t => by rw [endVisit_timer])
  | stopped htask hactive =>
    refine hok.congr ?_ (fun t => rfl)
    apply List.erase_of_not_mem
    intro hmem
    rw [(hok.linked _).mpr hmem] at hactive
    exact absurd hactive (by decide)
  | drain htask => exact hok.congr (hdrain rfl htask).symm (fun t => rfl)
  | @onExpired j t queue =>
    have hpopped : ListOk { s.host with queue := queue } := hok.congr rfl (fun t => rfl)
    exact hpopped.setSame rfl

/-- `UpdateTime` that has returned has returned for good. -/
theorem finished_step (countMax : ℕ) {s : TimerSystem τ ι threads} {e : TimerEvent τ ι threads}
    (htask : s.tickTask = .finished) : (s.step countMax e).tickTask = .finished := by
  have hread : ∀ {nextSleep : ℤ}, ¬InRead s.tickTask nextSleep := by
    rintro nextSleep (hin | ⟨since, hin⟩) <;> exact nomatch htask.symm.trans hin
  have htransition := step_transition countMax s e
  generalize s.step countMax e = s' at htransition
  cases htransition with
  | take hin | takeShutdown hin => exact absurd hin hread
  | block hin | empty hin | readTimeout hin | due hin | notDue hin | skip hin | stopped hin | walked hin | pushed hin
  | lost hin | sentinel hin | sentinelLost hin | drain hin => exact nomatch htask.symm.trans hin
  | _ => exact htask

/-- The list and the flags agree up to the end of `UpdateTime`. -/
theorem listOk_step (countMax : ℕ) {s : TimerSystem τ ι threads} {e : TimerEvent τ ι threads}
    (hok : s.tickTask ≠ .finished → ListOk s.host) (hrunning : (s.step countMax e).tickTask ≠ .finished) :
    ListOk (s.step countMax e).host := by
  refine (hok (fun htask => hrunning (finished_step countMax htask))).step countMax ?_
  rintro rfl htask
  refine absurd ?_ hrunning
  simp only [TimerSystem.step, stepResult, TimerSystem.update, htask]

end

/-! ## The handler tasks -/

/-- The handler tasks that have not ended. -/
def running (s : TimerSystem τ ι threads) : ℕ := (Finset.univ.filter fun j => s.handler j ≠ .finished).card

/-- The sentinels that the tick task has still to write. -/
def owed (threads : ℕ) : TickTask τ → ℕ
  | .stopping remaining => remaining
  | .finished => 0
  | _ => threads

/-- The sentinels in the queue. -/
def sentinels (queue : List (Option τ)) : ℕ := queue.countP Option.isNone

omit [DecidableEq τ] in
/-- A handler task that is running, and stays so or ends. -/
theorem running_update {s s' : TimerSystem τ ι threads} {j : Fin threads} {x : Handler}
    (hhandler : s.handler j ≠ .finished) (hs' : s'.handler = Function.update s.handler j x) :
    running s' + (if x = .finished then 1 else 0) = running s := by
  unfold running
  rw [hs']
  by_cases hx : x = .finished
  · have herase : (Finset.univ.filter fun k => Function.update s.handler j x k ≠ .finished) =
        (Finset.univ.filter fun k => s.handler k ≠ .finished).erase j := by
      ext k
      by_cases hk : k = j
      · rw [hk]
        simp [hx]
      · simp [hk]
    rw [if_pos hx, herase]
    exact Finset.card_erase_add_one (by simpa using hhandler)
  · rw [if_neg hx, Nat.add_zero]
    congr 1
    ext k
    by_cases hk : k = j
    · rw [hk]
      simpa [hx] using hhandler
    · simp [Function.update_of_ne hk]

/-! ## The invariant -/

/-- A sentinel finds a place in the queue, and when the timers are unlinked there is none. -/
def StopFits (countMax : ℕ) (h : TimerHost τ) : TickTask τ → Prop
  | .stopping (_ + 1) => h.queue.length < countMax
  | .stopping 0 => h.active = []
  | _ => True

instance {countMax : ℕ} : ∀ task : TickTask τ, Decidable (StopFits countMax h task)
  | .stopping (_ + 1) => inferInstanceAs (Decidable (h.queue.length < countMax))
  | .stopping 0 => inferInstanceAs (Decidable (h.active = []))
  | .looping _ | .reading _ _ | .walking _ _ _ | .writing _ _ _ _ _ _ | .finished => .isTrue trivial

/-- On shutdown each sentinel finds a place in the queue, and no timer is linked. -/
def ShutdownFits (countMax : ℕ) (s : TimerSystem τ ι threads) : TimerEvent τ ι threads → Prop
  | .update => StopFits countMax s.host s.tickTask
  | _ => True

instance {countMax : ℕ} {s : TimerSystem τ ι threads} :
    ∀ e : TimerEvent τ ι threads, Decidable (ShutdownFits countMax s e)
  | .update => inferInstanceAs (Decidable (StopFits countMax s.host s.tickTask))
  | .tick | .call _ _ _ | .shutdown _ | .setRearming _ | .write _ | .updateTimeout | .handle _ | .handleTimeout _ =>
    .isTrue trivial

/-- What holds in every state of a run. -/
structure HostOk (s : TimerSystem τ ι threads) : Prop where
  list : ListOk s.host
  /-- There is a sentinel for each running handler task, once all are written. -/
  handlers : running s ≤ owed threads s.tickTask + sentinels s.host.queue
  /-- After `UpdateTime` has returned no timer is linked. -/
  unlinked : s.tickTask = .finished → s.host.active = []

omit [DecidableEq τ] in
theorem ListOk.initial : ListOk (TimerHost.initial : TimerHost τ) :=
  ⟨List.nodup_nil, fun t => by simp [TimerHost.initial, Timer.initial]⟩

omit [DecidableEq τ] in
theorem HostOk.initial : HostOk (TimerSystem.initial : TimerSystem τ ι threads) := by
  refine ⟨ListOk.initial, ?_, fun h => nomatch h⟩
  have hcard : running (TimerSystem.initial : TimerSystem τ ι threads) ≤ (Finset.univ : Finset (Fin threads)).card :=
    Finset.card_le_card (Finset.filter_subset _ _)
  rw [Finset.card_fin] at hcard
  exact Nat.le_trans hcard (Nat.le_add_right _ _)

omit [DecidableEq τ] in
/-- INTERNAL: a step that leaves the handler tasks, the sentinels and the end of `UpdateTime` alone. -/
theorem HostOk.congr {s s' : TimerSystem τ ι threads} (hok : HostOk s) (hlist : ListOk s'.host)
    (hhandler : s'.handler = s.handler) (hqueue : sentinels s'.host.queue = sentinels s.host.queue)
    (howed : owed threads s'.tickTask = owed threads s.tickTask)
    (hend : s'.tickTask = .finished → s'.host.active = []) : HostOk s' := by
  refine ⟨hlist, ?_, hend⟩
  have hrunning : running s' = running s := by
    unfold running
    rw [hhandler]
  rw [hrunning, hqueue, howed]
  exact hok.handlers

omit [DecidableEq τ] in
/-- INTERNAL: a handler task goes on, with the sentinel if it ends. -/
theorem HostOk.handle {s s' : TimerSystem τ ι threads} {j : Fin threads} {x : Handler} (hok : HostOk s)
    (hlist : ListOk s'.host) (hhandler : s.handler j ≠ .finished)
    (hs' : s'.handler = Function.update s.handler j x)
    (hqueue : sentinels s.host.queue ≤ sentinels s'.host.queue + if x = .finished then 1 else 0)
    (htask : s'.tickTask = s.tickTask) (hactive : s'.host.active = s.host.active) : HostOk s' := by
  have hrunning := running_update hhandler hs'
  have hhandlers := hok.handlers
  refine ⟨hlist, ?_, fun hend => ?_⟩
  · rw [htask]
    omega
  · rw [hactive]
    exact hok.unlinked (htask.symm.trans hend)

omit [DecidableEq τ] in
/-- INTERNAL: the tick task ends the visit of a timer. -/
theorem HostOk.endVisit {s : TimerSystem τ ι threads} {t : τ} {oneShot : Bool} {now nextSleep : ℤ} {rest : List τ}
    (hok : HostOk s) (htask : owed threads s.tickTask = threads) :
    HostOk (s.endVisit t oneShot now nextSleep rest) := by
  refine hok.congr (hok.list.congr (endVisit_active _ _ _ _ _ _) fun u => ?_) (endVisit_handler _ _ _ _ _ _) ?_ ?_ ?_
  · rw [endVisit_timer]
  · rw [endVisit_queue]
  · rw [endVisit_tickTask, htask]
    exact rfl
  · rw [endVisit_tickTask]
    exact fun hend => nomatch hend

variable [DecidableEq ι] {s : TimerSystem τ ι threads} {e : TimerEvent τ ι threads}

/-- **The step lemma.** -/
theorem HostOk.step (countMax : ℕ) (hok : HostOk s) (hfits : ShutdownFits countMax s e) :
    HostOk (s.step countMax e) := by
  have hlist : ListOk (s.step countMax e).host := by
    refine hok.list.step countMax ?_
    rintro rfl htask
    simpa only [ShutdownFits, htask, StopFits] using hfits
  have hread : ∀ {nextSleep : ℤ}, InRead s.tickTask nextSleep → owed threads s.tickTask = threads := by
    rintro nextSleep (htask | ⟨since, htask⟩) <;> rw [htask] <;> rfl
  have hsentinels : ∀ t : τ, sentinels (s.host.queue ++ [some t]) = sentinels s.host.queue := by
    intro t
    simp [sentinels, List.countP_append]
  have htransition := step_transition countMax s e
  generalize s.step countMax e = s' at htransition hlist
  cases htransition with
  | stay => exact hok
  | tick | call | callShutdown | written => exact hok.congr hlist rfl rfl rfl hok.unlinked
  | setRearming | full =>
    refine hok.congr hlist rfl ?_ rfl (fun hend => ?_)
    · exact congrArg sentinels (TimerHost.setRearming_queue _ _ _)
    · exact (TimerHost.setRearming_active _ _ _).trans (hok.unlinked hend)
  | take hin hcommands hcmd =>
    refine hok.congr hlist rfl ?_ (hread hin).symm (fun hend => by contradiction)
    exact congrArg sentinels (TimerHost.processCommand_pipes _ _ _).2
  | takeShutdown hin => exact hok.congr hlist rfl rfl (hread hin).symm (fun hend => by contradiction)
  | block htask | empty htask =>
    exact hok.congr hlist rfl rfl (hread (.inl htask)).symm (fun hend => by contradiction)
  | readTimeout htask => exact hok.congr hlist rfl rfl (hread (.inr ⟨_, htask⟩)).symm (fun hend => by contradiction)
  | due htask =>
    refine hok.congr hlist rfl ?_ (by rw [htask]; rfl) (fun hend => by contradiction)
    exact congrArg sentinels (expire_queue _ _ _)
  | notDue htask | lost htask => exact hok.endVisit (by rw [htask]; rfl)
  | skip htask | stopped htask | walked htask =>
    exact hok.congr hlist rfl rfl (by rw [htask]; rfl) (fun hend => by contradiction)
  | pushed htask hroom =>
    refine HostOk.endVisit (hok.congr (hok.list.congr rfl fun t => rfl) rfl (hsentinels _) rfl ?_) (by rw [htask]; rfl)
    intro hend
    rw [htask] at hend
    contradiction
  | sentinel htask hroom =>
    refine ⟨hlist, ?_, fun hend => by contradiction⟩
    have hhandlers := hok.handlers
    have hmore : sentinels (s.host.queue ++ [none]) = sentinels s.host.queue + 1 := by
      simp [sentinels, List.countP_append]
    rw [htask] at hhandlers
    simp only [owed, hmore] at hhandlers ⊢
    exact Nat.le_trans hhandlers (by omega)
  | sentinelLost htask hfull =>
    simp only [ShutdownFits, htask, StopFits] at hfits
    exact absurd hfits hfull
  | drain htask => exact hok.congr hlist rfl rfl (by rw [htask]; rfl) (fun _ => rfl)
  | onExpired hhandler hqueue | stale hhandler hqueue =>
    refine hok.handle (x := Handler.looping) hlist hhandler rfl ?_ rfl rfl
    rw [hqueue]
    simp [sentinels, TimerHost.setTimer]
  | takeSentinel hhandler hqueue =>
    refine hok.handle (x := Handler.finished) hlist hhandler rfl ?_ rfl rfl
    rw [hqueue]
    simp [sentinels]
  | handlerBlock hhandler hqueue =>
    refine hok.handle (x := .reading s.ticks) hlist ?_ rfl (Nat.le_add_right _ _) rfl rfl
    rw [hhandler]
    intro he
    contradiction
  | handlerTimeout hhandler =>
    refine hok.handle (x := Handler.finished) hlist ?_ rfl (Nat.le_add_right _ _) rfl rfl
    rw [hhandler]
    intro he
    contradiction

/-! ## After `UpdateTime` has returned -/

/-- INTERNAL: once `UpdateTime` has returned, nothing is put into the queue, and a handler task that has ended
has ended for good. -/
theorem step_finished (countMax : ℕ) (htask : s.tickTask = .finished) :
    (s.step countMax e).tickTask = .finished ∧
      (s.step countMax e).host.queue.length ≤ s.host.queue.length ∧
      ∀ j, s.handler j = .finished → (s.step countMax e).handler j = .finished := by
  have hother : ∀ (j : Fin threads) (x : Handler), s.handler j ≠ .finished → ∀ k, s.handler k = .finished →
      Function.update s.handler j x k = .finished := by
    intro j x hj k hk
    have hne : k ≠ j := by
      rintro rfl
      exact hj hk
    rw [Function.update_of_ne hne]
    exact hk
  have hread : ∀ {nextSleep : ℤ}, ¬InRead s.tickTask nextSleep := by
    rintro nextSleep (hin | ⟨since, hin⟩) <;> exact nomatch htask.symm.trans hin
  have htransition := step_transition countMax s e
  generalize s.step countMax e = s' at htransition
  cases htransition with
  | stay | tick | call | callShutdown | written => exact ⟨htask, Nat.le_refl _, fun j hj => hj⟩
  | setRearming | full => exact ⟨htask, by simp only [TimerHost.setRearming_queue, Nat.le_refl], fun j hj => hj⟩
  | take hin | takeShutdown hin => exact absurd hin hread
  | block hin | empty hin | readTimeout hin | due hin | notDue hin | skip hin | stopped hin | walked hin | pushed hin
  | lost hin | sentinel hin | sentinelLost hin | drain hin => exact nomatch htask.symm.trans hin
  | onExpired hhandler hqueue | stale hhandler hqueue | takeSentinel hhandler hqueue =>
    refine ⟨htask, ?_, hother _ _ hhandler⟩
    rw [hqueue]
    exact Nat.le_succ _
  | handlerBlock hhandler =>
    refine ⟨htask, Nat.le_refl _, hother _ _ ?_⟩
    rw [hhandler]
    exact fun he => nomatch he
  | handlerTimeout hhandler =>
    refine ⟨htask, Nat.le_refl _, hother _ _ ?_⟩
    rw [hhandler]
    exact fun he => nomatch he

/-- An iteration of a running handler task takes a pointer, if there is one. -/
theorem handle_takes (countMax : ℕ) {j : Fin threads} (hhandler : s.handler j ≠ .finished)
    (hqueue : s.host.queue ≠ []) : (s.step countMax (.handle j)).host.queue = s.host.queue.tail := by
  obtain ⟨ptr, queue, hcons⟩ := List.exists_cons_of_ne_nil hqueue
  have htake : s.step countMax (.handle j) = s.takePointer j ptr queue := by
    change s.handle j = _
    unfold handle
    split
    · rename_i hended
      exact absurd hended hhandler
    · rename_i hnil
      exact absurd hnil hqueue
    · rename_i hnil
      exact absurd hnil hqueue
    · rename_i ptr' queue' hcons' _
      rw [hcons] at hcons'
      cases hcons'
      rfl
  rw [htake, hcons]
  unfold takePointer
  dsimp only [List.tail_cons]
  cases ptr with
  | none => exact rfl
  | some t =>
    dsimp only
    split <;> rfl

/-- Every handler task ends: it goes on no more often than there are pointers in the queue. -/
def HandlersEnd (countMax : ℕ) (s : TimerSystem τ ι threads) : Prop :=
  ∀ (es : List (TimerEvent τ ι threads)) (j : Fin threads), s.host.queue.length < es.count (.handle j) →
    (s.run countMax es).handler j = .finished

theorem run_handler_finished (countMax : ℕ) {es : List (TimerEvent τ ι threads)} (htask : s.tickTask = .finished)
    {j : Fin threads} (hhandler : s.handler j = .finished) : (s.run countMax es).handler j = .finished := by
  induction es generalizing s with
  | nil => exact hhandler
  | cons e es ih =>
    obtain ⟨htask', -, hstays⟩ := step_finished (e := e) countMax htask
    exact ih htask' (hstays j hhandler)

theorem HostOk.handlersEnd (countMax : ℕ) (hok : HostOk s) (htask : s.tickTask = .finished) :
    HandlersEnd countMax s := by
  intro es j
  -- each time a running handler goes on, the queue is one pointer shorter
  induction es generalizing s with
  | nil => exact fun hcount => absurd hcount (Nat.not_lt_zero _)
  | cons e es ih =>
    intro hcount
    obtain ⟨htask', hlength, -⟩ := step_finished (e := e) countMax htask
    have hfits : ShutdownFits countMax s e := by
      cases e with
      | update => simp only [ShutdownFits, htask, StopFits]
      | _ => trivial
    have hok' := hok.step countMax hfits
    by_cases hended : s.handler j = .finished
    · exact run_handler_finished countMax htask hended
    · by_cases he : e = .handle j
      · subst he
        have hqueue : s.host.queue ≠ [] := by
          intro hempty
          have hpos : 0 < running s := Finset.card_pos.mpr ⟨j, by simpa using hended⟩
          have hhandlers := hok.handlers
          rw [htask, hempty] at hhandlers
          exact absurd hpos (Nat.not_lt.mpr hhandlers)
        have htail := handle_takes countMax hended hqueue
        have hpos := List.length_pos_of_ne_nil hqueue
        apply ih hok' htask'
        rw [htail, List.length_tail]
        rw [List.count_cons_self] at hcount
        omega
      · apply ih hok' htask'
        rw [List.count_cons_of_ne he] at hcount
        omega

/-! ## Runs -/

theorem HostOk.run (countMax : ℕ) {es : List (TimerEvent τ ι threads)}
    (hes : Runs.Along (TimerSystem.step countMax) (ShutdownFits countMax) s es) (hok : HostOk s) :
    HostOk (s.run countMax es) :=
  hes.invariant (fun _ _ hs hfits => hs.step countMax hfits) hok

/-- **The list and the flags agree.**  In every state of a run whose shutdown finds room for the sentinels and no
linked timer, the active timers are the linked ones and none is linked twice; after `UpdateTime` has returned no
timer is active, and every handler task ends. -/
theorem run_timerList (countMax : ℕ) {es : List (TimerEvent τ ι threads)}
    (hes : Runs.Along (step countMax) (ShutdownFits countMax) TimerSystem.initial es) :
    let s : TimerSystem τ ι threads := run countMax TimerSystem.initial es
    ListOk s.host ∧
      (s.tickTask = .finished → (∀ t, (s.host.timer t).active = false) ∧ HandlersEnd countMax s) := by
  intro s
  have hok : HostOk s := HostOk.run countMax hes .initial
  refine ⟨hok.list, fun htask => ⟨fun t => ?_, hok.handlersEnd countMax htask⟩⟩
  have hnot : t ∉ s.host.active := by
    rw [hok.unlinked htask]
    exact List.not_mem_nil
  exact Bool.eq_false_iff.mpr (fun hactive => hnot ((hok.list.linked t).mp hactive))

/-- A timer is stopped, and the host is shut down. -/
def stopThenShutdown : List (TimerEvent Unit Unit 1) :=
  [.call () () (.start 5 0), .write (), .update, .call () () .stop, .write (), .update, .shutdown (), .write (),
    .update, .update, .update, .update]

theorem stopThenShutdown_fits :
    Runs.Along (step 1) (ShutdownFits 1) (TimerSystem.initial : TimerSystem Unit Unit 1) stopThenShutdown := by
  decide +kernel

theorem stopThenShutdown_ends :
    let s : TimerSystem Unit Unit 1 := run 1 TimerSystem.initial stopThenShutdown
    s.tickTask = .finished ∧ ListOk s.host ∧ HandlersEnd 1 s := by
  intro s
  obtain ⟨hlist, hend⟩ := run_timerList 1 stopThenShutdown_fits
  have htask : s.tickTask = .finished := by decide +kernel
  exact ⟨htask, hlist, (hend htask).2⟩

/-- A periodic timer has expired and not been handled when the host is shut down. -/
def expireThenShutdown : List (TimerEvent Unit Unit 1) :=
  [.call () () (.start 0 1), .write (), .update, .update, .update, .update, .update, .shutdown (), .write (),
    .update, .update, .update]

/-- The timer is active and not linked, and the handler task waits for good: the queue had no place for its
sentinel. -/
theorem expireThenShutdown_strands :
    let s : TimerSystem Unit Unit 1 := run 1 TimerSystem.initial expireThenShutdown
    s.tickTask = .finished ∧ (s.host.timer ()).active = true ∧ ¬ListOk s.host ∧ ¬HandlersEnd 1 s := by
  intro s
  refine ⟨by decide +kernel, by decide +kernel, fun hlist => ?_, fun hend => ?_⟩
  · have hactive : (s.host.timer ()).active = true := by decide +kernel
    have hempty : s.host.active = [] := by decide +kernel
    have hlinked := (hlist.linked ()).mp hactive
    rw [hempty] at hlinked
    exact List.not_mem_nil hlinked
  · have hhandler := hend [.handle 0, .handle 0, .handle 0] 0 (by decide +kernel)
    exact absurd hhandler (by decide +kernel)

end Stk.Analysis
