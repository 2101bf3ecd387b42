import Stk.Analysis.ReleaseFrames
import Stk.Analysis.StrategyListInvariant
import Stk.Model.RWMutex

/-!
# Readers and writers

`ReadLocks` and `Locks` say what a stretch of `TimedReadLock` and of `TimedLock` can do.  The count
of waiting writers is exact in every run (`Counted`).  With the locks that the tasks hold as a ghost
state, the lock is exclusive in every run in which each task unlocks what it has locked, and also in a
release build whose wait lists may be broken (`run_exclusive`).
-/

set_option autoImplicit false

namespace Stk.Analysis

open Stk.Model

variable {n : ℕ}

/-- A configuration of the monitor. -/
abbrev RWConfig (n : ℕ) := Mesa.Config (Fin n) RWMutex RWFrame

/-- A writer is waiting in `TimedLock`. -/
def isWriter : RWFrame → Bool
  | .timedLock _ => true
  | .timedReadLock _ => false

/-- A reader is waiting in `TimedReadLock`. -/
def isReader (f : RWFrame) : Bool := !isWriter f

/-- The tasks inside `TimedLock`. -/
def writersInside (u : Fin n → Mesa.Status RWFrame) : ℕ :=
  Mesa.blocked isWriter u + Mesa.notified isWriter u + Mesa.expired isWriter u

/-! ## What a stretch can do -/

/-- `TimedReadLock` from the head of its wait loop, on the statuses `u`. -/
inductive ReadLocks (caller : Option (Fin n)) (m : RWMutex) (u : Fin n → Mesa.Status RWFrame) :
    Option RWReturn → RWConfig n → Prop
  | granted : m.writerActive = false → m.writersWaiting = 0 →
      ReadLocks caller m u (some (.locked true)) ⟨{ m with readers := RWMutex.increment m.readers }, u⟩
  | refused : ReadLocks caller m u (some (.locked false)) ⟨m, u⟩
  | waits {i : Fin n} {timeout : ℤ} : caller = some i → m.writerActive = true ∨ m.writersWaiting ≠ 0 →
      ReadLocks caller m u none ⟨m, Function.update u i (.blocked (.timedReadLock timeout))⟩

/-- `TimedLock` from the head of its wait loop, on the statuses `u`; the caller is among the waiting
writers of `m`. -/
inductive Locks (caller : Option (Fin n)) (m : RWMutex) (u : Fin n → Mesa.Status RWFrame)
    (timeout : ℤ) : Option RWReturn → RWConfig n → Prop
  | granted : m.writerActive = false → m.readers = 0 →
      Locks caller m u timeout (some (.locked true))
        ⟨{ m with writersWaiting := RWMutex.decrement m.writersWaiting, writerActive := true }, u⟩
  | refused : timeout = 0 →
      Locks caller m u timeout (some (.locked false))
        ⟨{ m with writersWaiting := RWMutex.decrement m.writersWaiting }, u⟩
  | waits {i : Fin n} : caller = some i → timeout ≠ 0 → m.writerActive = true ∨ m.readers ≠ 0 →
      Locks caller m u timeout none ⟨m, Function.update u i (.blocked (.timedLock timeout))⟩

section Stretches

variable {caller : Option (Fin n)} {m : RWMutex} {u : Fin n → Mesa.Status RWFrame}
  {r : Option RWReturn} {c' : RWConfig n}

/-- INTERNAL: the loop of `TimedReadLock` is a stretch of the abstract lock. -/
theorem readLockFrom_readLocks {timeout : ℤ}
    (h : Mesa.Follows RWFrame.waitsFor caller (m.readLockFrom timeout) u r c') :
    ReadLocks caller m u r c' := by
  unfold RWMutex.readLockFrom at h
  split at h
  · next hclosed =>
    split at h
    · obtain ⟨i, hi, rfl, rfl⟩ := h.wait
      exact .waits hi (by simpa using hclosed)
    · obtain ⟨u₁, rfl, rfl, rfl⟩ := h.done
      exact .refused
  · next hopen =>
    obtain ⟨u₁, rfl, rfl, rfl⟩ := h.done
    simp only [Bool.or_eq_true, decide_eq_true_eq, not_or, Bool.not_eq_true, not_not] at hopen
    exact .granted hopen.1 hopen.2

/-- The panic branch is not reached: the condition of the loop has just been false. -/
theorem lockFrom_locks {timeout : ℤ}
    (h : Mesa.Follows RWFrame.waitsFor caller (m.lockFrom timeout) u r c') :
    Locks caller m u timeout r c' := by
  unfold RWMutex.lockFrom at h
  split at h
  · next hclosed =>
    split at h
    · next hne =>
      obtain ⟨i, hi, rfl, rfl⟩ := h.wait
      exact .waits hi hne (by simpa using hclosed)
    · next hzero =>
      obtain ⟨u₁, rfl, rfl, rfl⟩ := Mesa.Follows.done h
      exact .refused (by simpa using hzero)
  · next hopen =>
    simp only [Bool.or_eq_true, decide_eq_true_eq, not_or, Bool.not_eq_true, not_not] at hopen
    simp only [hopen.1, hopen.2, ne_eq, not_true_eq_false, decide_false, Bool.or_self,
      Bool.false_eq_true, ↓reduceIte] at h
    obtain ⟨u₁, rfl, rfl, rfl⟩ := h.done
    have hgranted : Locks caller m u₁ timeout _ _ := .granted hopen.1 hopen.2
    rw [hopen.2] at hgranted
    exact hgranted

end Stretches

/-- A task or an interrupt handler enters a call. -/
inductive Enters (c : RWConfig n) : Mesa.Event (Fin n) RWOp → Option (Fin n) → RWOp → Prop
  | call {i : Fin n} {op : RWOp} : c.status i = .idle → Enters c (.call i op) (some i) op
  | isr {op : RWOp} : Enters c (.isr op) none op

/-- One step of the monitor. -/
inductive RWStep (c : RWConfig n) : Mesa.Event (Fin n) RWOp → Option RWReturn → RWConfig n → Prop
  | readLock {e : Mesa.Event (Fin n) RWOp} {caller : Option (Fin n)} {timeout : ℤ}
      {r : Option RWReturn} {c' : RWConfig n} : Enters c e caller (.timedReadLock timeout) →
      ReadLocks caller c.state c.status r c' → RWStep c e r c'
  | readUnlock {e : Mesa.Event (Fin n) RWOp} {caller : Option (Fin n)}
      {ms : List (Mesa.Notify SyncId)} {u : Fin n → Mesa.Status RWFrame} :
      Enters c e caller .readUnlock →
      ms = (if RWMutex.decrement c.state.readers = 0 then [.one cvWriters] else []) →
      Mesa.NotifiesAlong RWFrame.waitsFor ms c.status u →
      RWStep c e (some .unlocked) ⟨{ c.state with readers := RWMutex.decrement c.state.readers }, u⟩
  | lock {e : Mesa.Event (Fin n) RWOp} {caller : Option (Fin n)} {timeout : ℤ}
      {r : Option RWReturn} {c' : RWConfig n} : Enters c e caller (.timedLock timeout) →
      Locks caller { c.state with writersWaiting := RWMutex.increment c.state.writersWaiting } c.status
        timeout r c' → RWStep c e r c'
  | unlock {e : Mesa.Event (Fin n) RWOp} {caller : Option (Fin n)}
      {ms : List (Mesa.Notify SyncId)} {u : Fin n → Mesa.Status RWFrame} :
      Enters c e caller .unlock →
      ms = (if c.state.writersWaiting ≠ 0 then [.one cvWriters] else [.all cvReaders]) →
      Mesa.NotifiesAlong RWFrame.waitsFor ms c.status u →
      RWStep c e (some .unlocked) ⟨{ c.state with writerActive := false }, u⟩
  | resumeReadLock {i : Fin n} {timeout : ℤ} {r : Option RWReturn} {c' : RWConfig n} :
      c.status i = .notified (.timedReadLock timeout) →
      ReadLocks (some i) c.state (Function.update c.status i .idle) r c' → RWStep c (.resume i) r c'
  | readLockExpired {i : Fin n} {timeout : ℤ} : c.status i = .expired (.timedReadLock timeout) →
      RWStep c (.resume i) (some (.locked false)) ⟨c.state, Function.update c.status i .idle⟩
  | resumeLock {i : Fin n} {timeout : ℤ} {r : Option RWReturn} {c' : RWConfig n} :
      c.status i = .notified (.timedLock timeout) →
      Locks (some i) c.state (Function.update c.status i .idle) timeout r c' → RWStep c (.resume i) r c'
  | lockExpired {i : Fin n} {timeout : ℤ} : c.status i = .expired (.timedLock timeout) →
      RWStep c (.resume i) (some (.locked false))
        ⟨{ c.state with writersWaiting := RWMutex.decrement c.state.writersWaiting },
          Function.update c.status i .idle⟩
  | quiet {u : Fin n → Mesa.Status RWFrame} : Mesa.Expires c.status u →
      RWStep c .quiet none ⟨c.state, u⟩

/-- INTERNAL: a task that enters was idle. -/
theorem Enters.idle {c : RWConfig n} {e : Mesa.Event (Fin n) RWOp} {caller : Option (Fin n)} {op : RWOp}
    (h : Enters c e caller op) (i : Fin n) (hi : caller = some i) : c.status i = .idle := by
  cases h with
  | call hidle =>
    obtain rfl := Option.some.inj hi
    exact hidle
  | isr => cases hi

/-- INTERNAL: the stretch of a call that is entered. -/
theorem rwStep_of_call {c c' : RWConfig n} {e : Mesa.Event (Fin n) RWOp} {caller : Option (Fin n)}
    {op : RWOp} {r : Option RWReturn} (he : Enters c e caller op)
    (h : Mesa.Follows RWFrame.waitsFor caller (c.state.call op) c.status r c') : RWStep c e r c' := by
  cases op with
  | timedReadLock timeout => exact .readLock he (readLockFrom_readLocks h)
  | readUnlock =>
    obtain ⟨u, hms, rfl, rfl⟩ := Mesa.Follows.done h
    exact .readUnlock he rfl hms
  | timedLock timeout => exact .lock he (lockFrom_locks h)
  | unlock =>
    obtain ⟨u, hms, rfl, rfl⟩ := Mesa.Follows.done h
    exact .unlock he rfl hms

/-- **Inversion.**  Every step of the monitor is one of those above. -/
theorem rwStep_of_step {c c' : RWConfig n} {e : Mesa.Event (Fin n) RWOp} {r : Option RWReturn}
    (h : Mesa.Step (program RWMutex) c e r c') : RWStep c e r c' := by
  cases e with
  | call i op =>
    obtain ⟨hidle, t, ⟨ticks, rfl⟩, hfollows⟩ := h
    exact rwStep_of_call (.call hidle) hfollows
  | isr op =>
    obtain ⟨t, ⟨ticks, rfl⟩, hfollows⟩ := h
    exact rwStep_of_call .isr hfollows
  | resume i =>
    obtain ⟨f, b, t, hi, ⟨ticks, rfl⟩, hfollows⟩ := h
    cases f with
    | timedReadLock timeout =>
      cases b with
      | true => exact .resumeReadLock hi (readLockFrom_readLocks hfollows)
      | false =>
        obtain ⟨u, rfl, rfl, rfl⟩ := Mesa.Follows.done hfollows
        exact .readLockExpired hi
    | timedLock timeout =>
      cases b with
      | true => exact .resumeLock hi (lockFrom_locks hfollows)
      | false =>
        obtain ⟨u, rfl, rfl, rfl⟩ := Mesa.Follows.done hfollows
        exact .lockExpired hi
  | quiet =>
    obtain ⟨rfl, hstate, hexpires⟩ := h
    obtain ⟨m, u⟩ := c'
    obtain rfl : m = c.state := hstate
    exact .quiet hexpires

/-! ## The waiting writers -/

/-- INTERNAL: the waiting writers are the tasks inside `TimedLock` and `k` more. -/
structure Counted (m : RWMutex) (u : Fin n → Mesa.Status RWFrame) (k : ℕ) : Prop where
  eq : m.writersWaiting = writersInside u + k
  le : m.writersWaiting ≤ RWMutex.writersMax

/-- INTERNAL: no task has called, so no writer is inside. -/
theorem writersInside_idle :
    writersInside (fun _ : Fin n => (.idle : Mesa.Status RWFrame)) = 0 := by
  simp [writersInside, Mesa.tally, Mesa.Status.blockedAt, Mesa.Status.notifiedAt,
    Mesa.Status.expiredAt]

/-- INTERNAL: a task that begins to wait is one writer more inside, or one reader. -/
theorem writersInside_update {u : Fin n → Mesa.Status RWFrame} {i : Fin n} (hi : u i = .idle)
    (f : RWFrame) :
    writersInside (Function.update u i (.blocked f)) =
      writersInside u + (if isWriter f then 1 else 0) := by
  obtain ⟨hb, hn, he⟩ := Mesa.tallies_block hi f isWriter
  unfold writersInside
  omega

/-- INTERNAL: a notified writer is still inside. -/
theorem writersInside_notify {u u₁ : Fin n → Mesa.Status RWFrame} {ms : List (Mesa.Notify SyncId)}
    (h : Mesa.NotifiesAlong RWFrame.waitsFor ms u u₁) : writersInside u₁ = writersInside u := by
  obtain ⟨-, hsum, hexpired⟩ := h.releases.tallies isWriter
  unfold writersInside
  omega

/-- INTERNAL: a writer whose wait has run out is still inside. -/
theorem writersInside_expires {u u₁ : Fin n → Mesa.Status RWFrame} (h : Mesa.Expires u u₁) :
    writersInside u₁ = writersInside u := by
  obtain ⟨-, hnotified, hsum⟩ := h.tallies isWriter
  unfold writersInside
  omega

/-- INTERNAL: a task leaves its wait. -/
theorem writersInside_leave {u : Fin n → Mesa.Status RWFrame} {i : Fin n} {f : RWFrame} {b : Bool}
    (hi : u i = if b then .notified f else .expired f) :
    writersInside (Function.update u i .idle) + (if isWriter f then 1 else 0) = writersInside u := by
  unfold writersInside
  cases b with
  | true =>
    obtain ⟨hb, hn, he⟩ := Mesa.tallies_leave_notified hi isWriter
    omega
  | false =>
    obtain ⟨hb, hn, he⟩ := Mesa.tallies_leave_expired hi isWriter
    omega

/-- INTERNAL: the wrap-around does not happen. -/
@[simp] theorem decrement_succ (x : ℕ) : RWMutex.decrement (x + 1) = x := by
  simp [RWMutex.decrement]

/-- INTERNAL: the wrap-around does not happen. -/
theorem increment_of_lt {x : ℕ} (hx : x < 65535) : RWMutex.increment x = x + 1 := by
  unfold RWMutex.increment
  rw [if_neg (by omega)]

namespace Counted

variable {caller : Option (Fin n)} {m : RWMutex} {u : Fin n → Mesa.Status RWFrame}
  {r : Option RWReturn} {c' : RWConfig n}

/-- INTERNAL: a read lock keeps the count of writers. -/
theorem readLocks (h : Counted m u 0) (hidle : ∀ i, caller = some i → u i = .idle)
    (hstep : ReadLocks caller m u r c') : Counted c'.state c'.status 0 := by
  cases hstep with
  | granted _ _ => exact ⟨h.eq, h.le⟩
  | refused => exact h
  | waits hi _ =>
    refine ⟨?_, h.le⟩
    rw [h.eq, writersInside_update (hidle _ hi)]
    simp [isWriter]

/-- INTERNAL: a write lock, already counted, keeps the count of writers. -/
theorem locks (h : Counted m u 1) (hidle : ∀ i, caller = some i → u i = .idle)
    {timeout : ℤ} (hstep : Locks caller m u timeout r c') : Counted c'.state c'.status 0 := by
  have hle := h.le
  rw [h.eq] at hle
  have hdecrement : RWMutex.decrement m.writersWaiting = writersInside u := by
    rw [h.eq, decrement_succ]
  cases hstep with
  | granted _ _ => exact ⟨hdecrement, by dsimp only; omega⟩
  | refused _ => exact ⟨hdecrement, by dsimp only; omega⟩
  | waits hi _ _ =>
    refine ⟨?_, h.le⟩
    rw [h.eq, writersInside_update (hidle _ hi)]
    simp [isWriter]

/-- INTERNAL: a writer announces itself. -/
theorem enter (h : Counted m u 0) (hlt : m.writersWaiting < RWMutex.writersMax) :
    Counted { m with writersWaiting := RWMutex.increment m.writersWaiting } u 1 := by
  have heq : RWMutex.increment m.writersWaiting = m.writersWaiting + 1 :=
    increment_of_lt (hlt.trans (by decide))
  have := h.eq
  exact ⟨by dsimp only; omega, by dsimp only; omega⟩

end Counted

/-- The contract of `TimedLock`: there are fewer than `WRITERS_MAX` waiting writers. -/
def WritersOk (m : RWMutex) : Mesa.Event (Fin n) RWOp → Prop
  | .call _ (.timedLock _) | .isr (.timedLock _) => m.writersWaiting < RWMutex.writersMax
  | _ => True

/-- INTERNAL: the condition bounds the writers where one enters. -/
theorem Enters.writersOk {c : RWConfig n} {e : Mesa.Event (Fin n) RWOp} {caller : Option (Fin n)}
    {timeout : ℤ} (h : Enters c e caller (.timedLock timeout)) (he : WritersOk c.state e) :
    c.state.writersWaiting < RWMutex.writersMax := by
  cases h with
  | call _ => exact he
  | isr => exact he

/-- INTERNAL: a task that has left its wait. -/
theorem idle_after_leave (u : Fin n → Mesa.Status RWFrame) (i j : Fin n) (hj : some i = some j) :
    Function.update u i .idle j = .idle := by
  obtain rfl := Option.some.inj hj
  exact Function.update_self _ _ _

/-- INTERNAL: the count of the waiting writers is exact. -/
theorem Counted.step {c c' : RWConfig n} {e : Mesa.Event (Fin n) RWOp} {r : Option RWReturn}
    (h : Counted c.state c.status 0) (he : WritersOk c.state e) (hstep : RWStep c e r c') :
    Counted c'.state c'.status 0 := by
  cases hstep with
  | readLock henter hlock => exact h.readLocks henter.idle hlock
  | readUnlock henter _ hms => exact ⟨by rw [writersInside_notify hms]; exact h.eq, h.le⟩
  | lock henter hlock => exact (h.enter (henter.writersOk he)).locks henter.idle hlock
  | unlock henter _ hms => exact ⟨by rw [writersInside_notify hms]; exact h.eq, h.le⟩
  | resumeReadLock hi hlock =>
    refine Counted.readLocks ⟨?_, h.le⟩ (idle_after_leave c.status _) hlock
    rw [h.eq, ← writersInside_leave (b := true) hi]
    simp [isWriter]
  | readLockExpired hi =>
    refine ⟨?_, h.le⟩
    rw [h.eq, ← writersInside_leave (b := false) hi]
    simp [isWriter]
  | resumeLock hi hlock =>
    refine Counted.locks ⟨?_, h.le⟩ (idle_after_leave c.status _) hlock
    rw [h.eq, ← writersInside_leave (b := true) hi]
    simp [isWriter]
  | lockExpired hi =>
    have hle := h.le
    have heq := h.eq
    rw [← writersInside_leave (b := false) hi] at heq
    simp only [isWriter, ↓reduceIte, Nat.add_zero] at heq
    rw [heq] at hle
    refine ⟨?_, ?_⟩
    · dsimp only
      rw [heq, decrement_succ, Nat.add_zero]
    · dsimp only
      rw [heq, decrement_succ]
      omega
  | quiet hexpires => exact ⟨by rw [writersInside_expires hexpires]; exact h.eq, h.le⟩

/-! ## The locks the tasks hold -/

/-- The locks that the tasks hold. -/
structure Holds (n : ℕ) where
  reads : Fin n → Bool
  writes : Fin n → Bool

namespace Holds

/-- Nobody holds the lock. -/
def none : Holds n := ⟨fun _ => false, fun _ => false⟩

/-- Task `i` takes or returns a read lock. -/
def setRead (h : Holds n) (i : Fin n) (b : Bool) : Holds n :=
  { h with reads := Function.update h.reads i b }

/-- Task `i` takes or returns the write lock. -/
def setWrite (h : Holds n) (i : Fin n) (b : Bool) : Holds n :=
  { h with writes := Function.update h.writes i b }

/-- The number of tasks that hold the read lock. -/
def readCount (h : Holds n) : ℕ := (Finset.univ.filter (fun i => h.reads i = true)).card

/-- INTERNAL: one reader more. -/
theorem readCount_setRead_true (h : Holds n) {i : Fin n} (hi : h.reads i = false) :
    (h.setRead i true).readCount = h.readCount + 1 := by
  have hset : Finset.univ.filter (fun j => (h.setRead i true).reads j = true) =
      insert i (Finset.univ.filter (fun j => h.reads j = true)) := by
    ext j
    simp only [Finset.mem_filter, Finset.mem_univ, true_and, Finset.mem_insert]
    by_cases hj : j = i
    · subst hj; simp [setRead]
    · simp [setRead, hj]
  unfold readCount
  rw [hset, Finset.card_insert_of_notMem (by simp [hi])]

/-- INTERNAL: one reader less. -/
theorem readCount_setRead_false (h : Holds n) {i : Fin n} (hi : h.reads i = true) :
    (h.setRead i false).readCount + 1 = h.readCount := by
  have hset : Finset.univ.filter (fun j => (h.setRead i false).reads j = true) =
      (Finset.univ.filter (fun j => h.reads j = true)).erase i := by
    ext j
    simp only [Finset.mem_filter, Finset.mem_univ, true_and, Finset.mem_erase]
    by_cases hj : j = i
    · subst hj; simp [setRead]
    · simp [setRead, hj]
  unfold readCount
  rw [hset, Finset.card_erase_add_one (by simp [hi])]

end Holds

/-- The holders after a step with result `r`. -/
def holdsStep (c : RWConfig n) (h : Holds n) :
    Mesa.Event (Fin n) RWOp → Option RWReturn → Holds n
  | .call i (.timedReadLock _), some (.locked true) => h.setRead i true
  | .call i (.timedLock _), some (.locked true) => h.setWrite i true
  | .call i .readUnlock, some .unlocked => h.setRead i false
  | .call i .unlock, some .unlocked => h.setWrite i false
  | .resume i, some (.locked true) =>
    match (c.status i).frame with
    | some (.timedReadLock _) => h.setRead i true
    | some (.timedLock _) => h.setWrite i true
    | none => h
  | _, _ => h

/-- INTERNAL: a read lock is held from the call that gets it. -/
theorem holdsStep_readLock (c : RWConfig n) (h : Holds n) (i : Fin n) (timeout : ℤ)
    (r : Option RWReturn) : holdsStep c h (.call i (.timedReadLock timeout)) r =
      if r = some (.locked true) then h.setRead i true else h := by
  rcases r with _ | (_ | _) | _ | _ <;> rfl

/-- INTERNAL: a write lock is held from the call that gets it. -/
theorem holdsStep_lock (c : RWConfig n) (h : Holds n) (i : Fin n) (timeout : ℤ)
    (r : Option RWReturn) : holdsStep c h (.call i (.timedLock timeout)) r =
      if r = some (.locked true) then h.setWrite i true else h := by
  rcases r with _ | (_ | _) | _ | _ <;> rfl

/-- INTERNAL: a reader that waited holds the lock from its return. -/
theorem holdsStep_resume_readLock {c : RWConfig n} {i : Fin n} {timeout : ℤ}
    (hi : (c.status i).frame = some (.timedReadLock timeout)) (h : Holds n) (r : Option RWReturn) :
    holdsStep c h (.resume i) r = if r = some (.locked true) then h.setRead i true else h := by
  rcases r with _ | (_ | _) | _ | _ <;> simp [holdsStep, hi]

/-- INTERNAL: a writer that waited holds the lock from its return. -/
theorem holdsStep_resume_lock {c : RWConfig n} {i : Fin n} {timeout : ℤ}
    (hi : (c.status i).frame = some (.timedLock timeout)) (h : Holds n) (r : Option RWReturn) :
    holdsStep c h (.resume i) r = if r = some (.locked true) then h.setWrite i true else h := by
  rcases r with _ | (_ | _) | _ | _ <;> simp [holdsStep, hi]

/-- The contract of `TimedReadLock`: where the lock is granted there are fewer than `READERS_MAX`
readers. -/
def ReadersOk (m : RWMutex) : Prop :=
  m.writerActive = false → m.writersWaiting = 0 → m.readers < RWMutex.readersMax

/-- The calls are matched: a task unlocks what it holds and takes the read lock only once.  The
calls are those of tasks, and they keep to the limits of the class. -/
def Matched (c : RWConfig n) (h : Holds n) : Mesa.Event (Fin n) RWOp → Prop
  | .call i (.timedReadLock _) => h.reads i = false ∧ ReadersOk c.state
  | .call i .readUnlock => h.reads i = true
  | .call _ (.timedLock _) => c.state.writersWaiting < RWMutex.writersMax
  | .call i .unlock => h.writes i = true
  | .resume _ => ReadersOk c.state
  | .isr _ => False
  | .quiet => True

instance (m : RWMutex) : Decidable (ReadersOk m) := inferInstanceAs (Decidable
  (m.writerActive = false → m.writersWaiting = 0 → m.readers < RWMutex.readersMax))

instance (c : RWConfig n) (h : Holds n) : ∀ e, Decidable (Matched c h e)
  | .call i (.timedReadLock _) =>
    inferInstanceAs (Decidable (h.reads i = false ∧ ReadersOk c.state))
  | .call i .readUnlock => inferInstanceAs (Decidable (h.reads i = true))
  | .call _ (.timedLock _) =>
    inferInstanceAs (Decidable (c.state.writersWaiting < RWMutex.writersMax))
  | .call i .unlock => inferInstanceAs (Decidable (h.writes i = true))
  | .resume _ => inferInstanceAs (Decidable (ReadersOk c.state))
  | .isr _ => .isFalse id
  | .quiet => .isTrue trivial

/-- INTERNAL: what is carried along a run. -/
structure RWOk (c : RWConfig n) (h : Holds n) : Prop where
  counted : Counted c.state c.status 0
  readers : c.state.readers = h.readCount
  active : c.state.writerActive = true ↔ ∃ i, h.writes i = true
  unique : ∀ i j, h.writes i = true → h.writes j = true → i = j
  exclusive : c.state.writerActive = true → c.state.readers = 0
  waiting : ∀ i f, (c.status i).frame = some f → isReader f = true → h.reads i = false

/-- The tasks inside `TimedLock` are those with a frame of it. -/
theorem writersInside_eq (u : Fin n → Mesa.Status RWFrame) :
    writersInside u = (Finset.univ.filter (fun i => (u i).frame.map isWriter = some true)).card := by
  unfold writersInside Mesa.blocked Mesa.notified Mesa.expired Mesa.tally
  rw [Finset.card_filter, ← Finset.sum_add_distrib, ← Finset.sum_add_distrib]
  refine Finset.sum_congr rfl (fun i _ => ?_)
  cases u i <;>
    simp [Mesa.Status.frame, Mesa.Status.blockedAt, Mesa.Status.notifiedAt, Mesa.Status.expiredAt]

/-- INTERNAL: the condition reads the state of the lock and the holders. -/
theorem Matched.congr {c c' : RWConfig n} {h : Holds n} {e : Mesa.Event (Fin n) RWOp} (hm : Matched c h e)
    (hstate : c'.state = c.state) : Matched c' h e := by
  cases e with
  | call i op =>
    cases op with
    | timedReadLock timeout => exact ⟨hm.1, hstate ▸ hm.2⟩
    | readUnlock => exact hm
    | timedLock timeout =>
      show c'.state.writersWaiting < RWMutex.writersMax
      rw [hstate]
      exact hm
    | unlock => exact hm
  | resume i =>
    show ReadersOk c'.state
    rw [hstate]
    exact hm
  | isr op => exact hm.elim
  | quiet => trivial

/-- INTERNAL: what the tasks hold depends on the calls alone. -/
theorem holdsStep_congr {c c' : RWConfig n} (hframe : ∀ j, (c'.status j).frame = (c.status j).frame) (h : Holds n)
    (e : Mesa.Event (Fin n) RWOp) (r : Option RWReturn) : holdsStep c' h e r = holdsStep c h e r := by
  unfold holdsStep
  simp only [hframe]

namespace RWOk

variable {c c' : RWConfig n} {h : Holds n} {m : RWMutex} {u : Fin n → Mesa.Status RWFrame}
  {i : Fin n} {r : Option RWReturn}

/-- The same calls, in other parts of their `Wait`. -/
theorem reframe (hok : RWOk c h) (hstate : c'.state = c.state)
    (hframe : ∀ j, (c'.status j).frame = (c.status j).frame) : RWOk c' h := by
  have hinside : writersInside c'.status = writersInside c.status := by
    rw [writersInside_eq, writersInside_eq]
    simp only [hframe]
  refine ⟨⟨?_, ?_⟩, ?_, ?_, hok.unique, ?_, ?_⟩
  · rw [hstate, hinside]
    exact hok.counted.eq
  · rw [hstate]
    exact hok.counted.le
  · rw [hstate]
    exact hok.readers
  · rw [hstate]
    exact hok.active
  · rw [hstate]
    exact hok.exclusive
  · intro j f hj
    rw [hframe j] at hj
    exact hok.waiting j f hj

/-- INTERNAL: a granted read lock. -/
theorem readGranted (hok : RWOk c h) (hcounted : Counted c.state u 0)
    (hwaiting : ∀ j f, (u j).frame = some f → isReader f = true → j ≠ i ∧ h.reads j = false)
    (hi : h.reads i = false) (hlimit : ReadersOk c.state) (hactive : c.state.writerActive = false)
    (hzero : c.state.writersWaiting = 0) :
    RWOk ⟨{ c.state with readers := RWMutex.increment c.state.readers }, u⟩ (h.setRead i true) := by
  have hlt := hlimit hactive hzero
  have hinc : RWMutex.increment c.state.readers = c.state.readers + 1 :=
    increment_of_lt (hlt.trans (by decide))
  refine ⟨⟨hcounted.eq, hcounted.le⟩, ?_, hok.active, hok.unique, fun ha => ?_, fun j f hj hf => ?_⟩
  · dsimp only
    rw [hinc, hok.readers, h.readCount_setRead_true hi]
  · rw [hactive] at ha
    cases ha
  · obtain ⟨hne, hread⟩ := hwaiting j f hj hf
    simpa [Holds.setRead, hne] using hread

/-- INTERNAL: a granted write lock. -/
theorem writeGranted (hok : RWOk c h) (hcounted : Counted c'.state c'.status 0)
    (hreaders : c'.state.readers = c.state.readers) (hactive' : c'.state.writerActive = true)
    (hactive : c.state.writerActive = false) (hzero : c.state.readers = 0) (i : Fin n)
    (hwaiting : ∀ j f, (c'.status j).frame = some f → isReader f = true → h.reads j = false) :
    RWOk c' (h.setWrite i true) := by
  have hnone : ∀ j, h.writes j ≠ true := fun j hj => by
    rw [hok.active.mpr ⟨j, hj⟩] at hactive
    cases hactive
  have heq : ∀ j, (h.setWrite i true).writes j = true → j = i := by
    intro j hj
    by_contra hne
    exact hnone j (by simpa [Holds.setWrite, hne] using hj)
  refine ⟨hcounted, hreaders.trans hok.readers, ?_, fun j k hj hk => ?_, fun _ => ?_, hwaiting⟩
  · exact ⟨fun _ => ⟨i, by simp [Holds.setWrite]⟩, fun _ => hactive'⟩
  · rw [heq j hj, heq k hk]
  · rw [hreaders, hzero]

/-- INTERNAL: a step that changes neither the holders nor what they hold. -/
theorem keep (hok : RWOk c h) (hcounted : Counted c'.state c'.status 0)
    (hreaders : c'.state.readers = c.state.readers)
    (hactive : c'.state.writerActive = c.state.writerActive)
    (hwaiting : ∀ j f, (c'.status j).frame = some f → isReader f = true → h.reads j = false) :
    RWOk c' h :=
  ⟨hcounted, hreaders.trans hok.readers, by rw [hactive]; exact hok.active, hok.unique,
    by rw [hactive, hreaders]; exact hok.exclusive, hwaiting⟩

/-- INTERNAL: the frames of the tasks other than `i`, which is in no call. -/
def Others (h : Holds n) (i : Fin n) (u : Fin n → Mesa.Status RWFrame) : Prop :=
  ∀ j f, (u j).frame = some f → isReader f = true → j ≠ i ∧ h.reads j = false

/-- INTERNAL: an idle task is neither inside nor waits. -/
theorem others_idle (hok : RWOk c h) (hi : c.status i = .idle) : Others h i c.status := by
  intro j f hj hf
  refine ⟨?_, hok.waiting j f hj hf⟩
  rintro rfl
  rw [hi] at hj
  cases hj

/-- INTERNAL: the other tasks, as one of them leaves. -/
theorem others_leave (hok : RWOk c h) (i : Fin n) : Others h i (Function.update c.status i .idle) := by
  intro j f hj hf
  by_cases hji : j = i
  · subst hji
    rw [Function.update_self] at hj
    cases hj
  · rw [Function.update_of_ne hji] at hj
    exact ⟨hji, hok.waiting j f hj hf⟩

/-- INTERNAL: the task `i` begins to wait. -/
theorem waiting_block (hothers : Others h i u) {g : RWFrame} (hg : isReader g = true → h.reads i = false)
    (j : Fin n) (f : RWFrame) (hj : (Function.update u i (.blocked g) j).frame = some f)
    (hf : isReader f = true) : h.reads j = false := by
  by_cases hji : j = i
  · subst hji
    rw [Function.update_self] at hj
    obtain rfl := Option.some.inj hj
    exact hg hf
  · rw [Function.update_of_ne hji] at hj
    exact (hothers j f hj hf).2

/-- INTERNAL: `TimedReadLock` of a task that does not hold the read lock. -/
theorem readLocks (hok : RWOk c h) (hcounted : Counted c.state u 0)
    (hcounted' : Counted c'.state c'.status 0) (hothers : Others h i u) (hi : h.reads i = false)
    (hlimit : ReadersOk c.state) (hstep : ReadLocks (some i) c.state u r c') :
    RWOk c' (if r = some (.locked true) then h.setRead i true else h) := by
  cases hstep with
  | granted hactive hzero => exact hok.readGranted hcounted hothers hi hlimit hactive hzero
  | refused => exact hok.keep hcounted' rfl rfl (fun j f hj hf => (hothers j f hj hf).2)
  | waits hcaller _ =>
    obtain rfl := Option.some.inj hcaller
    exact hok.keep hcounted' rfl rfl (waiting_block hothers (fun _ => hi))

/-- INTERNAL: `TimedLock`. -/
theorem locks (hok : RWOk c h) {timeout : ℤ} (hstep : Locks (some i) m u timeout r c')
    (hreaders : m.readers = c.state.readers) (hactive : m.writerActive = c.state.writerActive)
    (hcounted' : Counted c'.state c'.status 0) (hothers : Others h i u) :
    RWOk c' (if r = some (.locked true) then h.setWrite i true else h) := by
  cases hstep with
  | granted hfree hzero =>
    exact hok.writeGranted hcounted' hreaders rfl (hactive ▸ hfree) (hreaders ▸ hzero) i
      (fun j f hj hf => (hothers j f hj hf).2)
  | refused _ => exact hok.keep hcounted' hreaders hactive (fun j f hj hf => (hothers j f hj hf).2)
  | waits hcaller _ _ =>
    obtain rfl := Option.some.inj hcaller
    exact hok.keep hcounted' hreaders hactive (waiting_block hothers (fun hg => by cases hg))

/-- INTERNAL: every matched step. -/
theorem step {e : Mesa.Event (Fin n) RWOp} (hok : RWOk c h) (hmatched : Matched c h e)
    (hstep : RWStep c e r c') : RWOk c' (holdsStep c h e r) := by
  have hwriters : WritersOk c.state e := by
    cases e with
    | call i op =>
      cases op with
      | timedLock timeout => exact hmatched
      | _ => trivial
    | isr op => exact hmatched.elim
    | _ => trivial
  have hcounted := hok.counted.step hwriters hstep
  cases hstep with
  | readLock henter hlock =>
    cases henter with
    | @call i op hidle =>
      have := hok.readLocks hok.counted hcounted (hok.others_idle hidle) hmatched.1 hmatched.2 hlock
      rwa [← holdsStep_readLock] at this
    | isr => exact hmatched.elim
  | readUnlock henter _ hms =>
    cases henter with
    | @call i op hidle =>
      have hread : h.reads i = true := hmatched
      have hcount := h.readCount_setRead_false hread
      have hreaders : c.state.readers = (h.setRead i false).readCount + 1 := by
        rw [hcount, hok.readers]
      refine ⟨hcounted, ?_, hok.active, hok.unique, fun ha => ?_, fun j f hj hf => ?_⟩
      · dsimp only
        rw [hreaders, decrement_succ]
        rfl
      · have := hok.exclusive ha
        omega
      · rw [hms.releases.frame_eq] at hj
        obtain ⟨hne, hother⟩ := hok.others_idle hidle j f hj hf
        simpa [holdsStep, Holds.setRead, hne] using hother
    | isr => exact hmatched.elim
  | lock henter hlock =>
    cases henter with
    | @call i op hidle =>
      have := hok.locks hlock rfl rfl hcounted (hok.others_idle hidle)
      rwa [← holdsStep_lock] at this
    | isr => exact hmatched.elim
  | unlock henter _ hms =>
    cases henter with
    | @call i op hidle =>
      have hnone : ∀ j, (h.setWrite i false).writes j ≠ true := by
        intro j hj
        by_cases hji : j = i
        · subst hji
          simp [Holds.setWrite] at hj
        · exact hji (hok.unique j i (by simpa [Holds.setWrite, hji] using hj) hmatched)
      refine ⟨hcounted, hok.readers, ?_, fun j _ hj => absurd hj (hnone j), fun ha => ?_,
        fun j f hj hf => ?_⟩
      · exact ⟨fun ha => (nomatch ha), fun ⟨j, hj⟩ => absurd hj (hnone j)⟩
      · cases ha
      · rw [hms.releases.frame_eq] at hj
        exact hok.waiting j f hj hf
    | isr => exact hmatched.elim
  | @resumeReadLock i timeout r c' hi hlock =>
    have hleave : Counted c.state (Function.update c.status i .idle) 0 := by
      refine ⟨?_, hok.counted.le⟩
      rw [hok.counted.eq, ← writersInside_leave (b := true) hi]
      simp [isWriter]
    have hread : h.reads i = false := hok.waiting i _ (by rw [hi]; rfl) rfl
    have := hok.readLocks hleave hcounted (hok.others_leave i) hread hmatched hlock
    rwa [← holdsStep_resume_readLock (by rw [hi]; rfl)] at this
  | readLockExpired hi =>
    exact hok.keep hcounted rfl rfl (fun j f hj hf => (hok.others_leave _ j f hj hf).2)
  | @resumeLock i timeout r c' hi hlock =>
    have := hok.locks hlock rfl rfl hcounted (hok.others_leave i)
    rwa [← holdsStep_resume_lock (by rw [hi]; rfl)] at this
  | lockExpired hi =>
    exact hok.keep hcounted rfl rfl (fun j f hj hf => (hok.others_leave _ j f hj hf).2)
  | quiet hexpires =>
    refine hok.keep hcounted rfl rfl (fun j f hj hf => ?_)
    rw [hexpires.frame_eq] at hj
    exact hok.waiting j f hj hf

end RWOk

/-! ## Runs -/

variable {σ : Type} [SwitchStrategy (Fin n) σ] {cfg : Config}

/-- A kernel with an `RWMutex`, and the locks its tasks hold. -/
structure HeldSystem (n : ℕ) (σ : Type) where
  system : MonitorSystem n RWMutex RWFrame σ
  holds : Holds n

namespace HeldSystem

/-- A new lock. -/
def initial : HeldSystem n σ := ⟨MonitorSystem.initial RWMutex.initial, Holds.none⟩

/-- One event of the system, with its effect on the holders. -/
def step (cfg : Config) (s : HeldSystem n σ) (e : MonitorEvent n RWOp) : HeldSystem n σ where
  system := s.system.step cfg e
  holds := holdsStep (abstract s.system) s.holds (abstractEvent e) (s.system.stepResult cfg e).2

end HeldSystem

/-- A release build with an `RWMutex`, and the locks its tasks hold. -/
structure ReleaseHeld (n : ℕ) where
  system : ReleaseSystem n RWMutex RWFrame
  holds : Holds n

namespace ReleaseHeld

/-- A new lock. -/
def initial : ReleaseHeld n := ⟨ReleaseSystem.initial RWMutex.initial, Holds.none⟩

/-- One event; an event in which a null pointer is dereferenced or a loop does not end is none. -/
def step (s : ReleaseHeld n) (e : ReleaseEvent n RWOp) : ReleaseHeld n :=
  match s.system.stepResult e with
  | none => s
  | some (s', r) => ⟨s', holdsStep (leaving s.system) s.holds (monitorEvent e) r⟩

end ReleaseHeld

omit [SwitchStrategy (Fin n) σ] in
/-- INTERNAL: the frame of the abstract status is the pending call. -/
theorem frame_status {μ φ : Type} (s : MonitorSystem n μ φ σ) (i : Fin n) :
    (status s i).frame = s.pending i := by
  unfold status
  cases s.pending i with
  | none => rfl
  | some f =>
    dsimp only
    split
    · rfl
    · split <;> rfl

/-- INTERNAL: what a result says about the state before the stretch. -/
theorem readLockFrom_locked {m : RWMutex} {timeout : ℤ}
    (h : (m.readLockFrom timeout).next = .done (.locked true)) : m.writersWaiting = 0 := by
  unfold RWMutex.readLockFrom at h
  split at h
  · split at h
    · cases h
    · cases h
  · next hopen =>
    simp only [Bool.or_eq_true, decide_eq_true_eq, not_or, not_not] at hopen
    exact hopen.2

/-- INTERNAL: `TimedReadLock` does not panic. -/
theorem readLockFrom_ne_panic (m : RWMutex) (timeout : ℤ) :
    (m.readLockFrom timeout).next ≠ .done .panic := by
  unfold RWMutex.readLockFrom
  split
  · split <;> simp
  · simp

/-- INTERNAL: `TimedLock` does not panic. -/
theorem lockFrom_ne_panic (m : RWMutex) (timeout : ℤ) :
    (m.lockFrom timeout).next ≠ .done .panic := by
  unfold RWMutex.lockFrom
  split
  · split <;> simp [RWMutex.withdraw]
  · next hopen =>
    simp only [Bool.or_eq_true, decide_eq_true_eq, not_or, Bool.not_eq_true, not_not] at hopen
    simp [hopen.1, hopen.2]

/-- INTERNAL: no call panics. -/
theorem call_ne_panic (m : RWMutex) (op : RWOp) : (m.call op).next ≠ .done .panic := by
  cases op with
  | timedReadLock timeout => exact readLockFrom_ne_panic m timeout
  | timedLock timeout => exact lockFrom_ne_panic _ timeout
  | readUnlock => simp [RWMutex.call, RWMutex.readUnlock]
  | unlock => simp [RWMutex.call, RWMutex.unlock]

/-- INTERNAL: no resumption panics. -/
theorem resume_ne_panic (m : RWMutex) (f : RWFrame) (r : WaitResult) :
    (m.resume f r).next ≠ .done .panic := by
  cases f with
  | timedReadLock timeout =>
    cases r with
    | signal => exact readLockFrom_ne_panic m timeout
    | timeout => simp [RWMutex.resume]
  | timedLock timeout =>
    cases r with
    | signal => exact lockFrom_ne_panic m timeout
    | timeout => simp [RWMutex.resume, RWMutex.withdraw]

/-- The events in which the read lock is asked for, of tasks with the calls `pending`. -/
def readRequest (pending : Fin n → Option RWFrame) : Mesa.Event (Fin n) RWOp → Bool
  | .call _ (.timedReadLock _) | .isr (.timedReadLock _) => true
  | .resume i => (pending i).map isReader == some true
  | _ => false

/-- What the class promises of its counters and of the holders. -/
structure LockExact (m : RWMutex) (pending : Fin n → Option RWFrame) (h : Holds n) : Prop where
  readers_zero : m.writerActive = true → m.readers = 0
  writer_unique : ∀ i j, h.writes i = true → h.writes j = true → i = j
  writer_active : m.writerActive = true ↔ ∃ i, h.writes i = true
  readers_eq : m.readers = h.readCount
  /-- The waiting writers are the tasks inside `TimedLock`. -/
  waiting_eq : m.writersWaiting = (Finset.univ.filter (fun i => (pending i).map isWriter = some true)).card

/-- What the class promises in a state of the system. -/
structure Exclusive (cfg : Config) (s : HeldSystem n σ) : Prop
    extends LockExact s.system.state s.system.pending s.holds where
  /-- A reader is admitted only if no writer waits. -/
  admitted : ∀ e, readRequest s.system.pending (abstractEvent e) = true →
    (s.system.stepResult cfg e).2 = some (.locked true) → s.system.state.writersWaiting = 0
  no_panic : ∀ e, (s.system.stepResult cfg e).2 ≠ some .panic

/-- What the class promises in a state of a release build. -/
structure ReleaseExclusive (s : ReleaseHeld n) : Prop
    extends LockExact s.system.state s.system.pending s.holds where
  admitted : ∀ e s', readRequest s.system.pending (monitorEvent e) = true →
    s.system.stepResult e = some (s', some (.locked true)) → s.system.state.writersWaiting = 0
  no_panic : ∀ e s', s.system.stepResult e ≠ some (s', some .panic)

/-- INTERNAL: the counters are exact, from the invariant. -/
theorem RWOk.lockExact {c : RWConfig n} {h : Holds n} (hok : RWOk c h) {pending : Fin n → Option RWFrame}
    (hframe : ∀ i, (c.status i).frame = pending i) : LockExact c.state pending h := by
  refine ⟨hok.exclusive, hok.unique, hok.active, hok.readers, ?_⟩
  have heq := hok.counted.eq
  rw [writersInside_eq] at heq
  simp only [hframe] at heq
  exact heq

/-- INTERNAL: the stretch of a step that returns. -/
theorem stretch_of_result {s : MonitorSystem n RWMutex RWFrame σ} {e : MonitorEvent n RWOp}
    {r : RWReturn} (hr : (s.stepResult cfg e).2 = some r) :
    ∃ t, s.stretch cfg e = some t ∧ t.next = .done r := by
  cases ht : s.stretch cfg e with
  | none =>
    rw [(stepResult_of_none ht).2.1] at hr
    cases hr
  | some t => exact ⟨t, rfl, ((stepResult_some ht).2.1 r).mp hr⟩

/-- INTERNAL: no event panics. -/
theorem stepResult_ne_panic (cfg : Config) (s : MonitorSystem n RWMutex RWFrame σ)
    (e : MonitorEvent n RWOp) : (s.stepResult cfg e).2 ≠ some .panic := by
  intro hr
  obtain ⟨t, ht, hnext⟩ := stretch_of_result hr
  cases e with
  | call i op =>
    obtain ⟨-, rfl⟩ := stretch_call ht
    exact call_ne_panic _ op hnext
  | resume i =>
    obtain ⟨f, result, -, -, rfl⟩ := stretch_resume ht
    exact resume_ne_panic _ f result hnext
  | isr op =>
    obtain ⟨rfl, -⟩ := stretch_isr ht
    exact call_ne_panic _ op hnext
  | kernel e => cases ht

/-- INTERNAL: a reader is let in only where no writer waits. -/
theorem stepResult_admitted (cfg : Config) (s : MonitorSystem n RWMutex RWFrame σ)
    (e : MonitorEvent n RWOp) (he : readRequest s.pending (abstractEvent e) = true)
    (hr : (s.stepResult cfg e).2 = some (.locked true)) : s.state.writersWaiting = 0 := by
  obtain ⟨t, ht, hnext⟩ := stretch_of_result hr
  cases e with
  | call i op =>
    obtain ⟨-, rfl⟩ := stretch_call ht
    cases op with
    | timedReadLock timeout => exact readLockFrom_locked hnext
    | _ => cases he
  | resume i =>
    obtain ⟨f, result, hf, -, rfl⟩ := stretch_resume ht
    simp only [abstractEvent, readRequest, hf, Option.map_some] at he
    cases f with
    | timedLock timeout => cases he
    | timedReadLock timeout =>
      cases result with
      | signal => exact readLockFrom_locked hnext
      | timeout => cases hnext
  | isr op =>
    obtain ⟨rfl, -⟩ := stretch_isr ht
    cases op with
    | timedReadLock timeout => exact readLockFrom_locked hnext
    | _ => cases he
  | kernel e => cases ht

/-- INTERNAL: an event without a call moves no holder. -/
theorem holdsStep_quiet (c : RWConfig n) (h : Holds n) (r : Option RWReturn) :
    holdsStep c h .quiet r = h := rfl

/-- INTERNAL: a call that does not return moves no holder. -/
theorem holdsStep_none (c : RWConfig n) (h : Holds n) (e : Mesa.Event (Fin n) RWOp) :
    holdsStep c h e none = h := by
  cases e with
  | call i op => cases op <;> rfl
  | _ => rfl

/-- INTERNAL: a new lock. -/
theorem rwOk_initial : RWOk (⟨RWMutex.initial, fun _ => .idle⟩ : RWConfig n) Holds.none := by
  refine ⟨⟨by rw [writersInside_idle]; rfl, Nat.zero_le _⟩, ?_, ?_, ?_, ?_, fun _ _ _ _ => rfl⟩
  · simp [Holds.readCount, Holds.none, RWMutex.initial]
  · simp [Holds.none, RWMutex.initial]
  · simp [Holds.none]
  · simp [RWMutex.initial]

/-! ## Runs of a release build -/

/-- INTERNAL: a read lock is granted where no writer waits. -/
theorem RWStep.admitted {c c' : RWConfig n} {e : Mesa.Event (Fin n) RWOp} {pending : Fin n → Option RWFrame}
    (hstep : RWStep c e (some (.locked true)) c') (hframe : ∀ i, (c.status i).frame = pending i)
    (he : readRequest pending e = true) : c.state.writersWaiting = 0 := by
  cases hstep with
  | readLock henter hlock =>
    cases hlock with
    | granted _ hzero => exact hzero
  | lock henter hlock =>
    cases henter with
    | call hidle => cases he
    | isr => cases he
  | resumeReadLock hi hlock =>
    cases hlock with
    | granted _ hzero => exact hzero
  | @resumeLock i timeout _ _ hi hlock =>
    have hwriter : pending i = some (.timedLock timeout) := by
      rw [← hframe i, hi]
      rfl
    simp [readRequest, hwriter, isReader, isWriter] at he

/-- INTERNAL: the panic branches are not reached. -/
theorem RWStep.no_panic {c c' : RWConfig n} {e : Mesa.Event (Fin n) RWOp} (hstep : RWStep c e (some .panic) c') :
    False := by
  cases hstep with
  | readLock henter hlock => cases hlock
  | lock henter hlock => cases hlock
  | resumeReadLock hi hlock => cases hlock
  | resumeLock hi hlock => cases hlock

/-- INTERNAL: a step of the release build that returns is one of the monitor. -/
theorem release_returns {s s' : ReleaseSystem n RWMutex RWFrame} {e : ReleaseEvent n RWOp} {result : RWReturn}
    (h : s.stepResult e = some (s', some result)) :
    ∃ c c', Framed s c ∧ RWStep c (monitorEvent e) (some result) c' := by
  rcases stepResult_framed h with ⟨-, -, hnone⟩ | ⟨c, c', hframed, -, hstep⟩
  · cases hnone
  · exact ⟨c, c', hframed, rwStep_of_step hstep⟩

/-- INTERNAL: every matched step of a release build. -/
theorem RWOk.release {s : ReleaseHeld n} (hok : RWOk (leaving s.system) s.holds) {e : ReleaseEvent n RWOp}
    (hmatched : Matched (leaving s.system) s.holds (monitorEvent e)) :
    RWOk (leaving (s.step e).system) (s.step e).holds := by
  unfold ReleaseHeld.step
  split
  · exact hok
  · next s' r hresult =>
    have hbefore := framed_leaving s.system
    have hafter := framed_leaving s'
    dsimp only
    rcases stepResult_framed hresult with ⟨hstate, hpending, rfl⟩ | ⟨c, c', hc, hc', hstep⟩
    · rw [holdsStep_none]
      refine hok.reframe ?_ ?_
      · rw [hafter.state, hbefore.state, hstate]
      · intro j
        rw [hafter.frame j, hbefore.frame j, hpending]
    · have hframe : ∀ j, (c.status j).frame = ((leaving s.system).status j).frame := by
        intro j
        rw [hc.frame j, hbefore.frame j]
      have hstate : c.state = (leaving s.system).state := by rw [hc.state, hbefore.state]
      have hnext := (hok.reframe hstate hframe).step (hmatched.congr hstate) (rwStep_of_step hstep)
      rw [holdsStep_congr hframe] at hnext
      refine hnext.reframe ?_ ?_
      · rw [hafter.state, hc'.state]
      · intro j
        rw [hafter.frame j, hc'.frame j]

/-- **Exclusion.**  In every run in which the tasks unlock what they have locked, the lock excludes
readers and other writers, and its counters are exact.  In a release build they do so whatever becomes of the lists
of waiting tasks: a wait may run out or be cut short while its task is still linked, and be entered again. -/
theorem run_exclusive :
    (∀ es : List (MonitorEvent n RWOp), Runs.Along (HeldSystem.step cfg)
      (fun s e => Orderly s.system e ∧ Matched (abstract s.system) s.holds (abstractEvent e))
      (HeldSystem.initial : HeldSystem n σ) es →
      Exclusive cfg (es.foldl (HeldSystem.step cfg) (HeldSystem.initial : HeldSystem n σ))) ∧
    ∀ es : List (ReleaseEvent n RWOp), Runs.Along ReleaseHeld.step
      (fun s e => Matched (leaving s.system) s.holds (monitorEvent e)) ReleaseHeld.initial es →
      ReleaseExclusive (es.foldl ReleaseHeld.step ReleaseHeld.initial) := by
  refine ⟨fun es hes => ?_, fun es hes => ?_⟩
  · have hinv := hes.invariant (I := fun s : HeldSystem n σ =>
      MonitorOk s.system ∧ RWOk (abstract s.system) s.holds) (fun s e h he => ?_) ?_
    · obtain ⟨-, hok⟩ := hinv
      exact ⟨hok.lockExact (frame_status _), stepResult_admitted cfg _, stepResult_ne_panic cfg _⟩
    · obtain ⟨hmonitor, hsim⟩ := step_simulates cfg h.1 he.1
      refine ⟨hmonitor, ?_⟩
      rcases hsim with hsim | hsim
      · exact h.2.step he.2 (rwStep_of_step hsim)
      · -- the event was none for the lock
        have hnone : (s.system.stepResult cfg e).2 = none := hsim.1
        have hquiet := h.2.step (e := .quiet) trivial (rwStep_of_step hsim)
        rw [holdsStep_quiet] at hquiet
        change RWOk _ (holdsStep _ _ _ (s.system.stepResult cfg e).2)
        rw [hnone, holdsStep_none]
        exact hquiet
    · exact ⟨monitorOk_initial _, rwOk_initial⟩
  · have hok := hes.invariant (I := fun s : ReleaseHeld n => RWOk (leaving s.system) s.holds)
      (fun s e h he => h.release he) rwOk_initial
    have hframed := framed_leaving (es.foldl ReleaseHeld.step ReleaseHeld.initial).system
    refine ⟨?_, ?_, ?_⟩
    · have hexact := hok.lockExact hframed.frame
      rwa [hframed.state] at hexact
    · intro e s' he hresult
      obtain ⟨c, c', hc, hstep⟩ := release_returns hresult
      have hzero := hstep.admitted hc.frame he
      rwa [hc.state] at hzero
    · intro e s' hresult
      obtain ⟨c, c', -, hstep⟩ := release_returns hresult
      exact hstep.no_panic

/-- Task 0 reads, task 1 wants to write and waits, then takes the lock over. -/
def writerWaits : List (MonitorEvent 2 RWOp) :=
  [.kernel (.addTask 0), .kernel (.addTask 1), .kernel .onStart, .call 0 (.timedReadLock waitInfinite),
    .kernel (.onTick 1), .call 1 (.timedLock waitInfinite), .kernel (.onTick 1), .call 0 .readUnlock,
    .kernel (.onTick 1), .resume 1]

/-- Task 0 reads, tasks 1 and 2 want to write; task 1 is resumed, and waits again while it is linked. -/
def writerRewaits : List (ReleaseEvent 3 RWOp) :=
  [.call 0 (.timedReadLock waitInfinite), .onTick 1, .call 1 (.timedLock waitInfinite), .onTick 1,
    .call 2 (.timedLock waitInfinite), .wakeTask 1, .onTick 1, .resume 1, .onTick 1, .call 0 .readUnlock, .onTick 1,
    .resume 1]

/-- A writer waits until the readers are out. -/
theorem writerWaits_exclusive :
    (let s := writerWaits.foldl (HeldSystem.step syncConfig)
      (HeldSystem.initial : HeldSystem 2 (RoundRobin (Fin 2)))
     s.holds.writes 1 = true ∧ s.system.state.readers = 0) ∧
    (let s := writerRewaits.foldl ReleaseHeld.step (ReleaseHeld.initial : ReleaseHeld 3)
     s.holds.writes 1 = true ∧ s.system.state.readers = 0) := by
  constructor
  · intro s
    have hwrites : s.holds.writes 1 = true := by decide +kernel
    have hes : Runs.Along (HeldSystem.step syncConfig)
        (fun s e => Orderly s.system e ∧ Matched (abstract s.system) s.holds (abstractEvent e))
        (HeldSystem.initial : HeldSystem 2 (RoundRobin (Fin 2))) writerWaits := by
      decide +kernel
    have hex := run_exclusive.1 _ hes
    exact ⟨hwrites, hex.readers_zero (hex.writer_active.mpr ⟨1, hwrites⟩)⟩
  · intro s
    have hwrites : s.holds.writes 1 = true := by decide +kernel
    have hes : Runs.Along ReleaseHeld.step (fun s e => Matched (leaving s.system) s.holds (monitorEvent e))
        (ReleaseHeld.initial : ReleaseHeld 3) writerRewaits := by
      decide +kernel
    have hex := (@run_exclusive 3 (RoundRobin (Fin 3)) _ syncConfig).2 _ hes
    exact ⟨hwrites, hex.readers_zero (hex.writer_active.mpr ⟨1, hwrites⟩)⟩

end Stk.Analysis
