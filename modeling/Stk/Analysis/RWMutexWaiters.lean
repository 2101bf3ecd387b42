import Stk.Analysis.RWMutexInvariant

/-!
# Waiters of the reader-writer lock

A reader waits for the end of the writers, active and waiting ones; a writer waits for the end of
the active readers and writer.  Every transition that opens the lock notifies someone, but for one:
a writer that times out withdraws from the waiting writers and wakes no reader that waits only for
it.
-/

set_option autoImplicit false

namespace Stk.Analysis

open Stk.Model

variable {n : ℕ} {c c' : RWConfig n} {e : Mesa.Event (Fin n) RWOp} {r : Option RWReturn}

/-- The condition on the timeouts of a run: the last waiting writer withdraws only if no reader is
blocked or a writer holds the lock.  The calls keep to the limit of the class. -/
def WithdrawalsOk (c : RWConfig n) : Mesa.Event (Fin n) RWOp → Prop
  | .resume i =>
    match c.status i with
    | .expired (.timedLock _) => Mesa.blocked isReader c.status ≠ 0 →
        c.state.writerActive = true ∨ 1 < c.state.writersWaiting
    | _ => True
  | e => WritersOk c.state e

/-- INTERNAL: what is carried along a run. -/
structure WaitersOk (c : RWConfig n) : Prop where
  counted : Counted c.state c.status 0
  frames : ∀ i timeout, c.status i = .blocked (.timedLock timeout) ∨
    c.status i = .notified (.timedLock timeout) → timeout ≠ 0
  readers : Mesa.blocked isReader c.status ≠ 0 →
    c.state.writerActive = true ∨ c.state.writersWaiting ≠ 0
  writers : Mesa.blocked isWriter c.status ≠ 0 →
    c.state.writerActive = true ∨ c.state.readers ≠ 0 ∨ Mesa.notified isWriter c.status ≠ 0

theorem isReader_iff (f : RWFrame) : isReader f = true ↔ f.waitsFor = cvReaders := by
  cases f <;> simp [isReader, isWriter, RWFrame.waitsFor, cvReaders, cvWriters]

theorem isWriter_iff (f : RWFrame) : isWriter f = true ↔ f.waitsFor = cvWriters := by
  cases f <;> simp [isWriter, RWFrame.waitsFor, cvReaders, cvWriters]

namespace WaitersOk

variable {m : RWMutex} {u : Fin n → Mesa.Status RWFrame} {caller : Option (Fin n)}

/-- INTERNAL: a task that begins to wait. -/
theorem frames_block {i : Fin n} {g : RWFrame}
    (hu : ∀ j timeout, u j = .blocked (.timedLock timeout) ∨ u j = .notified (.timedLock timeout) →
      timeout ≠ 0) (hg : ∀ timeout, g = .timedLock timeout → timeout ≠ 0) (j : Fin n) (timeout : ℤ)
    (hj : Function.update u i (.blocked g) j = .blocked (.timedLock timeout) ∨
      Function.update u i (.blocked g) j = .notified (.timedLock timeout)) : timeout ≠ 0 := by
  by_cases hji : j = i
  · subst hji
    rw [Function.update_self] at hj
    rcases hj with hj | hj
    · exact hg timeout (Mesa.Status.blocked.inj hj)
    · cases hj
  · rw [Function.update_of_ne hji] at hj
    exact hu j timeout hj

theorem frames_leave (h : WaitersOk c) (i : Fin n) (j : Fin n) (timeout : ℤ)
    (hj : Function.update c.status i .idle j = .blocked (.timedLock timeout) ∨
      Function.update c.status i .idle j = .notified (.timedLock timeout)) : timeout ≠ 0 := by
  by_cases hji : j = i
  · subst hji
    simp at hj
  · rw [Function.update_of_ne hji] at hj
    exact h.frames j timeout hj

/-- INTERNAL: `TimedReadLock`, once its caller has left its wait. -/
theorem readLocks (hcounted : Counted m u 0) (hcounted' : Counted c'.state c'.status 0)
    (hidle : ∀ i, caller = some i → u i = .idle)
    (hframes : ∀ j timeout, u j = .blocked (.timedLock timeout) ∨
      u j = .notified (.timedLock timeout) → timeout ≠ 0)
    (hreaders : Mesa.blocked isReader u ≠ 0 → m.writerActive = true ∨ m.writersWaiting ≠ 0)
    (hwriters : Mesa.blocked isWriter u ≠ 0 →
      m.writerActive = true ∨ m.readers ≠ 0 ∨ Mesa.notified isWriter u ≠ 0)
    (hstep : ReadLocks caller m u r c') : WaitersOk c' := by
  cases hstep with
  | granted hactive hzero =>
    -- no writer waits, so that none is blocked
    have hnone : Mesa.blocked isWriter u = 0 := by
      have := hcounted.eq
      unfold writersInside at this
      omega
    exact ⟨hcounted', hframes, hreaders, fun hw => absurd hnone hw⟩
  | refused => exact ⟨hcounted', hframes, hreaders, hwriters⟩
  | waits hcaller hclosed =>
    obtain ⟨hbw, hnw, -⟩ := Mesa.tallies_block (hidle _ hcaller) (.timedReadLock _) isWriter
    refine ⟨hcounted', frames_block hframes (fun _ hg => by cases hg), fun _ => hclosed, fun hw => ?_⟩
    dsimp only at hw ⊢
    rw [hnw]
    exact hwriters (by rwa [hbw] at hw)

/-- INTERNAL: `TimedLock`, once its caller has left its wait. -/
theorem locks {timeout : ℤ} (hcounted : Counted m u 1) (hcounted' : Counted c'.state c'.status 0)
    (hframes : ∀ j t, u j = .blocked (.timedLock t) ∨ u j = .notified (.timedLock t) → t ≠ 0)
    (hrefused : timeout = 0 → WaitersOk ⟨{ m with
      writersWaiting := RWMutex.decrement m.writersWaiting }, u⟩)
    (hstep : Locks caller m u timeout r c') : WaitersOk c' := by
  cases hstep with
  | granted _ _ => exact ⟨hcounted', hframes, fun _ => Or.inl rfl, fun _ => Or.inl rfl⟩
  | refused hzero => exact hrefused hzero
  | waits hcaller hne hclosed =>
    refine ⟨hcounted', frames_block hframes (fun t ht => ?_), fun _ => Or.inr ?_, fun _ => ?_⟩
    · cases ht
      exact hne
    · have := hcounted.eq
      dsimp only
      omega
    · rcases hclosed with hactive | hreaders
      · exact Or.inl hactive
      · exact Or.inr (Or.inl hreaders)

/-- INTERNAL: `NotifyOne` for the writers. -/
theorem notifyOne_writers {u₁ : Fin n → Mesa.Status RWFrame}
    (h : Mesa.NotifiesAlong RWFrame.waitsFor [.one cvWriters] u u₁)
    (hw : Mesa.blocked isWriter u₁ ≠ 0) : Mesa.notified isWriter u₁ ≠ 0 := by
  obtain ⟨u₂, hone, rfl⟩ := h
  rcases hone.one_tally isWriter_iff with hzero | hmore
  · exact absurd hzero hw
  · omega

/-- INTERNAL: a call that returns with a notification. -/
theorem notify (h : WaitersOk c) (hcounted : Counted c'.state c'.status 0)
    {ms : List (Mesa.Notify SyncId)} (hms : Mesa.NotifiesAlong RWFrame.waitsFor ms c.status u)
    (hstatus : c'.status = u)
    (hreaders : Mesa.blocked isReader c.status ≠ 0 →
      c'.state.writerActive = true ∨ c'.state.writersWaiting ≠ 0)
    (hwriters : Mesa.blocked isWriter u ≠ 0 →
      c'.state.writerActive = true ∨ c'.state.readers ≠ 0 ∨ Mesa.notified isWriter u ≠ 0) :
    WaitersOk c' := by
  obtain ⟨hle, -, -⟩ := hms.releases.tallies isReader
  subst hstatus
  exact ⟨hcounted, fun i t hi => h.frames i t (hms.releases.frame hi),
    fun hr => hreaders (by omega), hwriters⟩

/-- INTERNAL: every step that meets the condition on timeouts. -/
theorem step (h : WaitersOk c) (hok : WithdrawalsOk c e) (hstep : RWStep c e r c') : WaitersOk c' := by
  have hwritersOk : WritersOk c.state e := by
    cases e with
    | resume i => trivial
    | _ => exact hok
  have hcounted := h.counted.step hwritersOk hstep
  cases hstep with
  | readLock henter hlock =>
    exact readLocks h.counted hcounted henter.idle h.frames h.readers h.writers hlock
  | readUnlock henter hms hnotifies =>
    refine h.notify hcounted hnotifies rfl (fun hr => h.readers hr) (fun hw => ?_)
    rw [hms] at hnotifies
    by_cases hlast : RWMutex.decrement c.state.readers = 0
    · rw [if_pos hlast] at hnotifies
      exact Or.inr (Or.inr (notifyOne_writers hnotifies hw))
    · exact Or.inr (Or.inl hlast)
  | lock henter hlock =>
    have henter' := h.counted.enter (henter.writersOk hwritersOk)
    refine locks henter' hcounted h.frames (fun hzero => ?_) hlock
    -- a refused writer leaves the count as it was
    have hsame : RWMutex.decrement (RWMutex.increment c.state.writersWaiting) =
        c.state.writersWaiting := by
      rw [increment_of_lt ((henter.writersOk hwritersOk).trans (by decide)), decrement_succ]
    dsimp only
    rw [hsame]
    exact h
  | @unlock _ _ _ u henter hms hnotifies =>
    by_cases hzero : c.state.writersWaiting = 0
    · rw [if_neg (not_not.mpr hzero)] at hms
      rw [hms] at hnotifies
      have hall : Mesa.Notifies RWFrame.waitsFor (.all cvReaders) c.status u := by
        obtain ⟨u₁, hall, rfl⟩ := hnotifies
        exact hall
      have hnone : Mesa.blocked isReader u = 0 := hall.all_tally (fun f hf => (isReader_iff f).mp hf)
      have hwriters : Mesa.blocked isWriter u = 0 := by
        have := hcounted.eq
        unfold writersInside at this
        dsimp only at this
        omega
      exact ⟨hcounted, fun i t hi => h.frames i t (hall.releases.frame hi),
        fun hr => absurd hnone hr, fun hw => absurd hwriters hw⟩
    · rw [if_pos hzero] at hms
      rw [hms] at hnotifies
      exact h.notify hcounted hnotifies rfl (fun _ => Or.inr hzero)
        (fun hw => Or.inr (Or.inr (notifyOne_writers hnotifies hw)))
  | @resumeReadLock i timeout r c' hi hlock =>
    have hleave : Counted c.state (Function.update c.status i .idle) 0 := by
      refine ⟨?_, h.counted.le⟩
      rw [h.counted.eq, ← writersInside_leave (b := true) hi]
      simp [isWriter]
    obtain ⟨hbr, -, -⟩ := Mesa.tallies_leave_notified hi isReader
    obtain ⟨hbw, hnw, -⟩ := Mesa.tallies_leave_notified hi isWriter
    refine readLocks hleave hcounted (idle_after_leave c.status i) (h.frames_leave i) ?_ ?_ hlock
    · rw [hbr]
      exact h.readers
    · rw [hbw, show Mesa.notified isWriter (Function.update c.status i .idle) = _ from hnw]
      exact h.writers
  | @readLockExpired i timeout hi =>
    obtain ⟨hbr, -, -⟩ := Mesa.tallies_leave_expired hi isReader
    obtain ⟨hbw, hnw, -⟩ := Mesa.tallies_leave_expired hi isWriter
    refine ⟨hcounted, h.frames_leave i, ?_, ?_⟩
    · dsimp only
      rw [hbr]
      exact h.readers
    · dsimp only
      rw [hbw, hnw]
      exact h.writers
  | @resumeLock i timeout r c' hi hlock =>
    have hleave : Counted c.state (Function.update c.status i .idle) 1 := by
      refine ⟨?_, h.counted.le⟩
      rw [h.counted.eq, ← writersInside_leave (b := true) hi]
      simp [isWriter]
    exact locks hleave hcounted (h.frames_leave i)
      (fun hzero => absurd hzero (h.frames i timeout (Or.inr hi))) hlock
  | @lockExpired i timeout hi =>
    obtain ⟨hbr, -, -⟩ := Mesa.tallies_leave_expired hi isReader
    obtain ⟨hbw, hnw, -⟩ := Mesa.tallies_leave_expired hi isWriter
    simp only [WithdrawalsOk, hi] at hok
    refine ⟨hcounted, h.frames_leave i, fun hr => ?_, ?_⟩
    · dsimp only at hr ⊢
      rw [hbr] at hr
      rcases hok hr with hactive | hmore
      · exact Or.inl hactive
      · refine Or.inr ?_
        unfold RWMutex.decrement
        split <;> omega
    · dsimp only
      rw [hbw, hnw]
      exact h.writers
  | quiet hexpires =>
    obtain ⟨hbr, -, -⟩ := hexpires.tallies isReader
    obtain ⟨hbw, hnw, -⟩ := hexpires.tallies isWriter
    refine ⟨hcounted, fun i t hi => h.frames i t ?_, fun hr => h.readers ?_, fun hw => ?_⟩
    · dsimp only at hi
      rcases hexpires i with heq | ⟨f, -, heq⟩
      · rwa [heq] at hi
      · simp [heq] at hi
    · dsimp only at hr
      omega
    · dsimp only at hw ⊢
      rw [hnw]
      exact h.writers (by omega)

end WaitersOk

/-! ## Runs -/

variable {σ : Type} [SwitchStrategy (Fin n) σ] {cfg : Config}

/-- **No stuck waiter.**  In every run that meets the condition on timeouts, whenever no notified
task is on its way, a task is blocked in `TimedReadLock` only if a writer holds the lock or waits for
it, and in `TimedLock` only if a writer or a reader holds the lock. -/
theorem run_noStuckWaiter {es : List (MonitorEvent n RWOp)}
    (hes : Runs.Along (MonitorSystem.step cfg)
      (fun s e => Orderly s e ∧ WithdrawalsOk (abstract s) (abstractEvent e))
      (MonitorSystem.initial RWMutex.initial : MonitorSystem n RWMutex RWFrame σ) es) :
    let s := (MonitorSystem.run cfg RWMutex.initial es : MonitorSystem n RWMutex RWFrame σ)
    Quiescent s →
      (s.kernel.waitList cvReaders ≠ [] →
        s.state.writerActive = true ∨ s.state.writersWaiting ≠ 0) ∧
      (s.kernel.waitList cvWriters ≠ [] → s.state.writerActive = true ∨ s.state.readers ≠ 0) := by
  intro s hquiet
  have hzero : ∀ p, Mesa.blocked p (fun _ : Fin n => (.idle : Mesa.Status RWFrame)) = 0 := fun p =>
    Mesa.tally_eq_zero_iff.mpr (fun _ => rfl)
  have hinit : WaitersOk (⟨RWMutex.initial, fun _ => .idle⟩ : RWConfig n) := by
    refine ⟨⟨by rw [writersInside_idle]; rfl, Nat.zero_le _⟩, fun i t hi => ?_,
      fun h => absurd (hzero _) h, fun h => absurd (hzero _) h⟩
    rcases hi with hi | hi <;> cases hi
  obtain ⟨hok, hwaiters⟩ := run_invariant (I := WaitersOk) (C := WithdrawalsOk) RWMutex.initial hinit
    (fun c r c' h hstep => h.step (e := .quiet) trivial (rwStep_of_step hstep))
    (fun c e r c' h he hstep => h.step he (rwStep_of_step hstep)) hes
  have hblocked : ∀ o, Monitor.owns RWMutex o = true → s.kernel.waitList o ≠ [] →
      ∃ i f, status s i = .blocked f ∧ RWFrame.waitsFor f = o := by
    intro o howns hne
    by_contra hnone
    exact hne (hok.waitList_eq_nil howns (fun i f hi hf => hnone ⟨i, f, hi, hf⟩))
  refine ⟨fun hne => ?_, fun hne => ?_⟩
  · obtain ⟨i, f, hi, hf⟩ := hblocked cvReaders rfl hne
    have hpos := Mesa.blocked_pos (p := isReader) hi ((isReader_iff f).mpr hf)
    exact hwaiters.readers (Nat.pos_iff_ne_zero.mp hpos)
  · obtain ⟨i, f, hi, hf⟩ := hblocked cvWriters rfl hne
    have hpos := Mesa.blocked_pos (p := isWriter) hi ((isWriter_iff f).mpr hf)
    have hnotified : Mesa.notified isWriter (status s) = 0 :=
      Mesa.notified_eq_zero hquiet.not_notified
    rcases hwaiters.writers (Nat.pos_iff_ne_zero.mp hpos) with hactive | hreaders | hn
    · exact Or.inl hactive
    · exact Or.inr hreaders
    · exact absurd hnotified hn

/-- Task 1 wants to write while task 0 reads, and takes the lock over. -/
def writerTakesOver : List (MonitorEvent 2 RWOp) :=
  [.kernel (.addTask 0), .kernel (.addTask 1), .kernel .onStart, .call 0 (.timedReadLock waitInfinite),
    .kernel (.onTick 1), .call 1 (.timedLock waitInfinite), .kernel (.onTick 1), .call 0 .readUnlock,
    .kernel (.onTick 1), .resume 1, .kernel (.onTick 1), .call 0 (.timedReadLock waitInfinite)]

theorem writerTakesOver_noStuckWaiter :
    let s := (MonitorSystem.run syncConfig RWMutex.initial writerTakesOver :
      MonitorSystem 2 RWMutex RWFrame (RoundRobin (Fin 2)))
    Quiescent s ∧ s.kernel.waitList cvReaders = [0] ∧
      (s.state.writerActive = true ∨ s.state.writersWaiting ≠ 0) := by
  intro s
  have hquiet : Quiescent s := by decide +kernel
  have hlist : s.kernel.waitList cvReaders = [0] := by decide +kernel
  have hOrderly : Runs.Along (MonitorSystem.step syncConfig) Orderly
      (MonitorSystem.initial RWMutex.initial :
        MonitorSystem 2 RWMutex RWFrame (RoundRobin (Fin 2))) writerTakesOver := by
    decide +kernel
  have hWithdrawals : Runs.Along (MonitorSystem.step syncConfig)
      (fun s e => WithdrawalsOk (abstract s) (abstractEvent e))
      (MonitorSystem.initial RWMutex.initial :
        MonitorSystem 2 RWMutex RWFrame (RoundRobin (Fin 2))) writerTakesOver := by
    refine ⟨trivial, trivial, trivial, trivial, trivial, ?_, trivial, trivial, trivial, ?_, trivial,
      trivial, trivial⟩
    · exact (by decide +kernel : (0 : ℕ) < RWMutex.writersMax)
    · simp only [abstractEvent, WithdrawalsOk]
      split
      · intro hblocked
        exact absurd (by decide +kernel) hblocked
      · trivial
  refine ⟨hquiet, hlist, (run_noStuckWaiter (hOrderly.and hWithdrawals) hquiet).1 ?_⟩
  rw [hlist]
  exact List.cons_ne_nil _ _

/-- Task 0 reads.  Task 1 wants to write and waits for two ticks, task 2 wants to read and waits for
task 1; then task 1 times out. -/
def writerWithdraws : List (MonitorEvent 3 RWOp) :=
  [.kernel (.addTask 0), .kernel (.addTask 1), .kernel (.addTask 2), .kernel .onStart,
    .call 0 (.timedReadLock waitInfinite), .kernel (.onTick 1), .call 1 (.timedLock 2),
    .kernel (.onTick 1), .call 2 (.timedReadLock waitInfinite), .kernel (.onTick 1),
    .kernel (.onTick 1), .resume 1]

/-- Task 2 stays blocked with no writer left; the reader's `ReadUnlock` does not wake it, either. -/
theorem writerWithdraws_sticks :
    Runs.Along (MonitorSystem.step syncConfig) Orderly
        (MonitorSystem.initial RWMutex.initial :
          MonitorSystem 3 RWMutex RWFrame (RoundRobin (Fin 3))) writerWithdraws ∧
      let s := (MonitorSystem.run syncConfig RWMutex.initial writerWithdraws :
        MonitorSystem 3 RWMutex RWFrame (RoundRobin (Fin 3)))
      Quiescent s ∧ s.kernel.waitList cvReaders = [2] ∧ s.state.writerActive = false ∧
        s.state.writersWaiting = 0 ∧
        (s.step syncConfig (.call 0 .readUnlock)).kernel.waitList cvReaders = [2] := by
  decide +kernel

end Stk.Analysis
