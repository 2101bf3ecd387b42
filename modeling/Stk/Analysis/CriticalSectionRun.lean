import Stk.Foundation.Runs
import Stk.Model.CriticalSection

/-!
# The critical section among activations and cores

What a core shows is a function of where its running activation stands (`OnCore`); an activation that waits
for its core has entered nothing.  The one activation that holds the global lock keeps its core until it has
released it (`run_criticalSection`), provided that the mask of `SVC_ENTER_CRITICAL` covers every exception of
the core; it does so for four priority bits and no other number (`excludes_iff`).
-/

set_option autoImplicit false

namespace Stk.Analysis

open Stk.Model CsuPlatform

variable {κ α : Type} {cfg : CsuPlatform κ α} {a b : α} {p : CsuPoint} {held wanted : ℕ} {c : CsuCore}
  {isLocked : Bool}

/-! ## Places in the code -/

/-- The activation has masked its core. -/
def isMasking : CsuPoint → ℕ → Bool
  | .nestingCheck _, _ | .spinLock _ _, _ | .csuStore _, _ | .nestingUp, _ | .panicked _, _ => true
  | _, held => decide (held ≠ 0)

/-- The activation holds the global lock. -/
def isHolding : CsuPoint → ℕ → Bool
  | .csuStore _, _ | .nestingUp, _ | .panicked .nestingOverflow, _ => true
  | .maskRestore _, _ => false
  | _, held => decide (held ≠ 0)

/-- The nesting that the context shows. -/
def shownNesting : CsuPoint → ℕ → ℕ
  | .exitCheck, held | .csuRead, held | .lockCheck _, held | .lockClear _, held | .maskRestore _, held => held - 1
  | .panicked .nestingOverflow, held => held + 1
  | _, held => held

/-- The session value has been stored. -/
def isStored (p : CsuPoint) (held : ℕ) : Bool :=
  match p with
  | .csuStore _ => false
  | _ => isHolding p held

/-- The session value of the outermost `Enter`. -/
def session (cfg : CsuPlatform κ α) (a : α) (wanted : ℕ) : ℕ := if cfg.isPrivileged a then wanted else 0

/-- Where activation `a` can stand. -/
def CsuPointOk (cfg : CsuPlatform κ α) (a : α) (held wanted : ℕ) : CsuPoint → Prop
  | .idle | .nestingUp => True
  | .primaskRead => cfg.isPrivileged a = true
  | .interruptsDisable ses => cfg.isPrivileged a = true ∧ (held = 0 → ses = session cfg a wanted)
  | .svcEnter => cfg.isPrivileged a = false
  | .nestingCheck ses => held = 0 → ses = session cfg a wanted
  | .spinLock ses _ | .csuStore ses => held = 0 ∧ ses = session cfg a wanted
  | .exitAssert | .nestingDown | .exitCheck => held ≠ 0
  | .csuRead => held = 1
  | .lockCheck ses | .lockClear ses | .maskRestore ses => held = 1 ∧ ses = session cfg a wanted
  | .panicked .nestingOverflow => held = cfg.nestingsMax
  | .panicked .spinLockTimeout => held = 0
  | .panicked _ => False

/-- What core `c` shows while activation `a` has it. -/
structure OnCore (cfg : CsuPlatform κ α) (a : α) (p : CsuPoint) (held wanted : ℕ) (c : CsuCore) : Prop where
  point : CsuPointOk cfg a held wanted p
  depth : held ≤ cfg.nestingsMax
  primask : c.primask = if cfg.isPrivileged a && isMasking p held then 1 else wanted
  basepri : c.basepri = if !cfg.isPrivileged a && isMasking p held then cfg.svcMask else 0
  nesting : c.csuNesting = shownNesting p held
  csu : isStored p held = true → c.csu = session cfg a wanted

/-- An activation that waits for its core has entered nothing. -/
structure Preempted (cfg : CsuPlatform κ α) (a : α) (p : CsuPoint) (held : ℕ) : Prop where
  held : held = 0
  point : p = .idle ∨ (p = .primaskRead ∨ p = .interruptsDisable 0) ∧ cfg.isPrivileged a = true ∨
    p = .svcEnter ∧ cfg.isPrivileged a = false

/-! ## Steps of the running activation -/

/-- What a step does to the global lock: nothing, or it takes it, or it releases its own. -/
inductive LockStep (held : ℕ) (p : CsuPoint) (isLocked : Bool) (r : CsuStep) : Prop where
  | keeps (hlock : r.isLocked = isLocked)
      (hsame : isHolding r.point (CsuSystem.heldAfter held r.result) = isHolding p held)
  | takes (hfree : isLocked = false) (hlock : r.isLocked = true)
      (hhold : isHolding r.point (CsuSystem.heldAfter held r.result) = true)
  | releases (hheld : isHolding p held = true) (hlock : r.isLocked = false)
      (hdrop : isHolding r.point (CsuSystem.heldAfter held r.result) = false)

/-- INTERNAL: what a step of the running activation leaves. -/
structure StepOk (cfg : CsuPlatform κ α) (a : α) (held wanted : ℕ) (p : CsuPoint) (isLocked : Bool)
    (r : CsuStep) : Prop where
  running : OnCore cfg a r.point (CsuSystem.heldAfter held r.result) wanted r.core
  lock : LockStep held p isLocked r
  fault : ∀ f ∈ r.fault, r.point = .panicked f

theorem basepriWrite_zero : cfg.basepriWrite 0 = 0 := by
  unfold basepriWrite
  rw [Nat.zero_mod, Nat.zero_div, Nat.zero_mul]

/-- **A step of the running activation.** -/
theorem advance_running (hmax : cfg.nestingsMax < 255) (h : OnCore cfg a p held wanted c)
    (hlock : isHolding p held = true → isLocked = true) :
    StepOk cfg a held wanted p isLocked (cfg.advance a c isLocked p) := by
  obtain ⟨hpoint, hdepth, hprimask, hbasepri, hnesting, hcsu⟩ := h
  cases p with
  | idle => exact ⟨⟨hpoint, hdepth, hprimask, hbasepri, hnesting, hcsu⟩, .keeps rfl rfl, by simp [advance]⟩
  | primaskRead =>
    have hpriv : cfg.isPrivileged a = true := hpoint
    have hread : held = 0 → c.primask = session cfg a wanted := by
      intro hzero
      rw [hprimask, session, hpriv]
      simp [isMasking, hzero]
    exact ⟨⟨⟨hpriv, hread⟩, hdepth, hprimask, hbasepri, hnesting, hcsu⟩, .keeps rfl rfl, by simp [advance]⟩
  | interruptsDisable ses =>
    obtain ⟨hpriv, hses⟩ := hpoint
    refine ⟨⟨hses, hdepth, ?_, ?_, hnesting, hcsu⟩, .keeps rfl rfl, by simp [advance]⟩
    · simp [advance, hpriv, isMasking]
    · simpa [advance, hpriv] using hbasepri
  | svcEnter =>
    have hpriv : cfg.isPrivileged a = false := hpoint
    have hread : held = 0 → c.basepri = session cfg a wanted := by
      intro hzero
      rw [hbasepri, session, hpriv]
      simp [isMasking, hzero]
    refine ⟨⟨hread, hdepth, ?_, ?_, hnesting, hcsu⟩, .keeps rfl rfl, by simp [advance]⟩
    · simpa [advance, hpriv] using hprimask
    · simp [advance, hpriv, isMasking]
  | nestingCheck ses =>
    by_cases hzero : held = 0
    · have hstep : cfg.advance a c isLocked (.nestingCheck ses) =
          ⟨.spinLock ses spinTimeout, c, isLocked, none, none⟩ := by
        simp [advance, hnesting, shownNesting, hzero]
      rw [hstep]
      exact ⟨⟨⟨hzero, hpoint hzero⟩, hdepth, hprimask, hbasepri, hnesting, hcsu⟩, .keeps rfl rfl, by simp⟩
    · have hstep : cfg.advance a c isLocked (.nestingCheck ses) = ⟨.nestingUp, c, isLocked, none, none⟩ := by
        simp [advance, hnesting, shownNesting, hzero]
      have hheld : isHolding (.nestingCheck ses) held = true := decide_eq_true hzero
      rw [hstep]
      exact ⟨⟨trivial, hdepth, hprimask, hbasepri, hnesting, fun _ => hcsu hheld⟩, .keeps rfl hheld.symm, by simp⟩
  | spinLock ses timeout =>
    obtain ⟨hzero, hses⟩ := hpoint
    have hfalse : isHolding (.spinLock ses timeout) held = false := by simp [isHolding, hzero]
    cases isLocked with
    | false =>
      exact ⟨⟨⟨hzero, hses⟩, hdepth, hprimask, hbasepri, hnesting, fun h => by cases h⟩, .takes rfl rfl rfl,
        by simp [advance]⟩
    | true =>
      by_cases hlast : timeout - 1 = 0
      · have hstep : cfg.advance a c true (.spinLock ses timeout) =
            ⟨.panicked .spinLockTimeout, c, true, none, some .spinLockTimeout⟩ := by
          simp [advance, hlast]
        rw [hstep]
        exact ⟨⟨hzero, hdepth, hprimask, hbasepri, hnesting, hcsu⟩, .keeps rfl rfl, by simp⟩
      · have hstep : cfg.advance a c true (.spinLock ses timeout) =
            ⟨.spinLock ses (timeout - 1), c, true, none, none⟩ := by
          simp [advance, hlast]
        rw [hstep]
        exact ⟨⟨⟨hzero, hses⟩, hdepth, hprimask, hbasepri, hnesting, hcsu⟩, .keeps rfl rfl, by simp⟩
  | csuStore ses =>
    obtain ⟨hzero, hses⟩ := hpoint
    exact ⟨⟨trivial, hdepth, hprimask, hbasepri, hnesting, fun _ => hses⟩, .keeps rfl rfl, by simp [advance]⟩
  | nestingUp =>
    have hup : (c.csuNesting + 1) % 256 = held + 1 := by
      rw [hnesting]
      simp only [shownNesting]
      omega
    by_cases hover : held + 1 > cfg.nestingsMax
    · have hstep : cfg.advance a c isLocked .nestingUp =
          ⟨.panicked .nestingOverflow, { c with csuNesting := held + 1 }, isLocked, none,
            some .nestingOverflow⟩ := by
        simp only [advance, hup, if_pos hover]
      rw [hstep]
      exact ⟨⟨by simp only [CsuPointOk, CsuSystem.heldAfter]; omega, hdepth, hprimask, hbasepri, rfl, hcsu⟩,
        .keeps rfl rfl, by simp⟩
    · have hstep : cfg.advance a c isLocked .nestingUp =
          ⟨.idle, { c with csuNesting := held + 1 }, isLocked, some .enter, none⟩ := by
        simp only [advance, hup, if_neg hover]
      rw [hstep]
      refine ⟨⟨trivial, by simp only [CsuSystem.heldAfter]; omega, ?_, ?_, rfl, fun _ => hcsu rfl⟩, .keeps rfl ?_,
        by simp⟩
      · simpa [isMasking, CsuSystem.heldAfter] using hprimask
      · simpa [isMasking, CsuSystem.heldAfter] using hbasepri
      · simp [isHolding, CsuSystem.heldAfter]
  | exitAssert =>
    have hne : c.csuNesting ≠ 0 := by
      rw [hnesting]
      exact hpoint
    refine ⟨⟨hpoint, hdepth, hprimask, hbasepri, hnesting, hcsu⟩, .keeps rfl rfl, ?_⟩
    simp [advance, hne]
  | nestingDown =>
    have hne : held ≠ 0 := hpoint
    have hdown : (c.csuNesting + 255) % 256 = held - 1 := by
      rw [hnesting]
      simp only [shownNesting]
      omega
    exact ⟨⟨hpoint, hdepth, hprimask, hbasepri, hdown, hcsu⟩, .keeps rfl rfl, by simp [advance]⟩
  | exitCheck =>
    have hne : held ≠ 0 := hpoint
    have hheld : isHolding .exitCheck held = true := decide_eq_true hne
    by_cases hone : held = 1
    · have hstep : cfg.advance a c isLocked .exitCheck = ⟨.csuRead, c, isLocked, none, none⟩ := by
        simp [advance, hnesting, shownNesting, hone]
      rw [hstep]
      exact ⟨⟨hone, hdepth, hprimask, hbasepri, hnesting, hcsu⟩, .keeps rfl rfl, by simp⟩
    · have hpos : held - 1 ≠ 0 := by omega
      have hstep : cfg.advance a c isLocked .exitCheck = ⟨.idle, c, isLocked, some .exit, none⟩ := by
        simp [advance, hnesting, shownNesting, hpos]
      rw [hstep]
      refine ⟨⟨trivial, by simp only [CsuSystem.heldAfter]; omega, ?_, ?_, hnesting, fun _ => hcsu hheld⟩,
        .keeps rfl ?_, by simp⟩
      · simpa [isMasking, CsuSystem.heldAfter, hne, hpos] using hprimask
      · simpa [isMasking, CsuSystem.heldAfter, hne, hpos] using hbasepri
      · simp [isHolding, CsuSystem.heldAfter, hne, hpos]
  | csuRead =>
    have hone : held = 1 := hpoint
    have hses : c.csu = session cfg a wanted := hcsu (by simp [isStored, isHolding, hone])
    exact ⟨⟨⟨hone, hses⟩, hdepth, hprimask, hbasepri, hnesting, hcsu⟩, .keeps rfl rfl, by simp [advance]⟩
  | lockCheck ses =>
    -- the lock is the activation's own
    obtain rfl : isLocked = true := hlock (by simp [isHolding, hpoint.1])
    exact ⟨⟨hpoint, hdepth, hprimask, hbasepri, hnesting, hcsu⟩, .keeps rfl rfl, by simp [advance]⟩
  | lockClear ses =>
    have hheld : isHolding (.lockClear ses) held = true := by simp [isHolding, hpoint.1]
    exact ⟨⟨hpoint, hdepth, hprimask, hbasepri, hnesting, fun h => by cases h⟩, .releases hheld rfl rfl,
      by simp [advance]⟩
  | maskRestore ses =>
    obtain ⟨rfl, hses⟩ := hpoint
    cases hpriv : cfg.isPrivileged a with
    | true =>
      have hstep : cfg.advance a c isLocked (.maskRestore ses) =
          ⟨.idle, { c with primask := ses }, isLocked, some .exit, none⟩ := by
        simp [advance, hpriv]
      rw [hstep]
      refine ⟨⟨trivial, Nat.zero_le _, ?_, ?_, hnesting, fun h => by cases h⟩, .keeps rfl rfl, by simp⟩
      · simp [isMasking, CsuSystem.heldAfter, hses, session, hpriv]
      · simpa [hpriv] using hbasepri
    | false =>
      have hstep : cfg.advance a c isLocked (.maskRestore ses) =
          ⟨.idle, { c with basepri := cfg.basepriWrite ses }, isLocked, some .exit, none⟩ := by
        simp [advance, hpriv]
      rw [hstep]
      refine ⟨⟨trivial, Nat.zero_le _, ?_, ?_, hnesting, fun h => by cases h⟩, .keeps rfl rfl, by simp⟩
      · simpa [hpriv] using hprimask
      · simp [isMasking, CsuSystem.heldAfter, hses, session, hpriv, basepriWrite_zero]
  | panicked fault =>
    exact ⟨⟨hpoint, hdepth, hprimask, hbasepri, hnesting, hcsu⟩, .keeps rfl rfl, by simp [advance]⟩

/-! ## Runs -/

section Runs

variable [DecidableEq κ] [DecidableEq α] {s : CsuSystem κ α} {k : κ} {es : List (CsuEvent κ α)}

/-- The mask that an unprivileged activation writes covers every exception of its core. -/
def Covers (cfg : CsuPlatform κ α) : Prop :=
  ∀ a b, cfg.isPrivileged a = false → cfg.core b = cfg.core a →
    cfg.svcMask ≠ 0 ∧ cfg.svcMask ≤ cfg.level b * 2 ^ (8 - cfg.prioBits)

/-- Activation `a` is in its critical section: it holds the global lock. -/
def InSection (s : CsuSystem κ α) (a : α) : Prop := isHolding (s.point a) (s.held a) = true

/-- The global lock is taken while an activation is in its critical section, and only one is. -/
structure CsuLockOk (s : CsuSystem κ α) : Prop where
  free : s.isLocked = false → ∀ a, ¬ InSection s a
  taken : s.isLocked = true → ∃ a, InSection s a
  unique : ∀ a b, InSection s a → InSection s b → a = b

/-- INTERNAL: what holds between any two steps. -/
structure CsuOk (cfg : CsuPlatform κ α) (s : CsuSystem κ α) : Prop where
  own : ∀ k, cfg.core (s.current k) = k
  running : ∀ k, OnCore cfg (s.current k) (s.point (s.current k)) (s.held (s.current k)) (s.wanted k) (s.core k)
  waiting : ∀ a, s.current (cfg.core a) ≠ a → Preempted cfg a (s.point a) (s.held a)
  lock : CsuLockOk s
  faults : ∀ f ∈ s.faults, ∃ a, s.point a = .panicked f

omit [DecidableEq κ] [DecidableEq α] in
theorem Preempted.not_inSection (h : Preempted cfg a (s.point a) (s.held a)) : ¬ InSection s a := by
  unfold InSection
  rw [h.held]
  rcases h.point with hp | ⟨hp | hp, -⟩ | ⟨hp, -⟩
  · simp [hp, isHolding]
  · simp [hp, isHolding]
  · simp [hp, isHolding]
  · simp [hp, isHolding]

omit [DecidableEq κ] [DecidableEq α] in
theorem CsuOk.current_of_inSection (h : CsuOk cfg s) (ha : InSection s a) : s.current (cfg.core a) = a := by
  by_contra hne
  exact (h.waiting a hne).not_inSection ha

omit [DecidableEq κ] [DecidableEq α] in
theorem CsuOk.runningOf (h : CsuOk cfg s) (ha : s.current (cfg.core a) = a) :
    OnCore cfg a (s.point a) (s.held a) (s.wanted (cfg.core a)) (s.core (cfg.core a)) := by
  have hrun := h.running (cfg.core a)
  rwa [ha] at hrun

omit [DecidableEq κ] [DecidableEq α] in
theorem CsuOk.locked_of_inSection (h : CsuOk cfg s) (ha : InSection s a) : s.isLocked = true := by
  cases hlock : s.isLocked with
  | true => rfl
  | false => exact absurd ha (h.lock.free hlock a)

omit [DecidableEq κ] [DecidableEq α] in
/-- A core whose running activation has masked it takes no exception. -/
theorem OnCore.isMasked (h : OnCore cfg a p held wanted c) (hcover : Covers cfg) (hmask : isMasking p held = true)
    (hcore : cfg.core b = cfg.core a) : cfg.isMasked c (cfg.level b) = true := by
  unfold CsuPlatform.isMasked
  apply decide_eq_true
  cases hpriv : cfg.isPrivileged a with
  | true =>
    left
    rw [h.primask, hpriv, hmask]
    rfl
  | false =>
    right
    have hset : c.basepri = cfg.svcMask := by
      rw [h.basepri, hpriv, hmask]
      rfl
    rw [hset]
    exact hcover a b hpriv hcore

theorem isMasking_of_isHolding (h : isHolding p held = true) : isMasking p held = true := by
  cases p with
  | nestingCheck | spinLock | csuStore | nestingUp | panicked => rfl
  | maskRestore ses => cases h
  | _ => exact h

omit [DecidableEq κ] [DecidableEq α] in
/-- An activation that has not masked its core can be preempted while `PRIMASK` is clear. -/
theorem OnCore.preempted (h : OnCore cfg a p held 0 c) (hmask : isMasking p held = false) :
    Preempted cfg a p held := by
  have hpoint := h.point
  cases p with
  | nestingCheck | spinLock | csuStore | nestingUp | panicked => cases hmask
  | idle => exact ⟨by simpa [isMasking] using hmask, .inl rfl⟩
  | primaskRead => exact ⟨by simpa [isMasking] using hmask, .inr (.inl ⟨.inl rfl, hpoint⟩)⟩
  | interruptsDisable ses =>
    have hzero : held = 0 := by simpa [isMasking] using hmask
    have hses : ses = 0 := by
      rw [hpoint.2 hzero, session, hpoint.1]
      rfl
    exact ⟨hzero, .inr (.inl ⟨.inr (by rw [hses]), hpoint.1⟩)⟩
  | svcEnter => exact ⟨by simpa [isMasking] using hmask, .inr (.inr ⟨rfl, hpoint⟩)⟩
  | exitAssert | nestingDown | exitCheck => exact absurd (by simpa [isMasking] using hmask) hpoint
  | csuRead => simp [isMasking, show held = 1 from hpoint] at hmask
  | lockCheck | lockClear | maskRestore => simp [isMasking, hpoint.1] at hmask

omit [DecidableEq κ] [DecidableEq α] in
/-- A preempted activation finds its core as it left it. -/
theorem Preempted.running (h : Preempted cfg a p held) (hprimask : c.primask = 0) (hbasepri : c.basepri = 0)
    (hnesting : c.csuNesting = 0) : OnCore cfg a p held 0 c := by
  obtain ⟨rfl, hpoint⟩ := h
  rcases hpoint with rfl | ⟨rfl | rfl, hpriv⟩ | ⟨rfl, hpriv⟩
  · exact ⟨trivial, Nat.zero_le _, by simp [hprimask, isMasking], by simp [hbasepri, isMasking], hnesting,
      fun h => by cases h⟩
  · exact ⟨hpriv, Nat.zero_le _, by simp [hprimask, isMasking], by simp [hbasepri, isMasking], hnesting,
      fun h => by cases h⟩
  · exact ⟨⟨hpriv, fun _ => by simp [session]⟩, Nat.zero_le _, by simp [hprimask, isMasking],
      by simp [hbasepri, isMasking], hnesting, fun h => by cases h⟩
  · exact ⟨hpriv, Nat.zero_le _, by simp [hprimask, hpriv], by simp [hbasepri, isMasking], hnesting,
      fun h => by cases h⟩

omit [DecidableEq κ] [DecidableEq α] in
theorem CsuOk.initial (current : κ → α) (hcurrent : ∀ k, cfg.core (current k) = k) :
    CsuOk cfg (CsuSystem.initial current) where
  own := hcurrent
  running k := Preempted.running ⟨rfl, .inl rfl⟩ rfl rfl rfl
  waiting a _ := ⟨rfl, .inl rfl⟩
  lock := ⟨fun _ a ha => (by cases ha), fun h => (by cases h), fun a b ha => by cases ha⟩
  faults := fun f hf => by cases hf

omit [DecidableEq κ] [DecidableEq α] in
/-- INTERNAL: an event that leaves the lock and what each activation holds. -/
theorem CsuLockOk.of_eq (h : CsuLockOk s) (s' : CsuSystem κ α) (hlock : s'.isLocked = s.isLocked)
    (hin : ∀ a, InSection s' a ↔ InSection s a) : CsuLockOk s' := by
  refine ⟨?_, ?_, ?_⟩
  · intro hfree a ha
    rw [hlock] at hfree
    exact h.free hfree a ((hin a).mp ha)
  · intro htaken
    rw [hlock] at htaken
    obtain ⟨a, ha⟩ := h.taken htaken
    exact ⟨a, (hin a).mpr ha⟩
  · intro a b ha hb
    exact h.unique a b ((hin a).mp ha) ((hin b).mp hb)

/-- INTERNAL: a call begins. -/
theorem CsuOk.call (h : CsuOk cfg s) (a : α) (op : CsuOp) : CsuOk cfg (s.step cfg (.call a op)) := by
  simp only [CsuSystem.step]
  split
  · next hmade =>
    obtain ⟨hcurrent, hidle, hexit⟩ := hmade
    have hsame : isMasking (cfg.begin a op) (s.held a) = isMasking .idle (s.held a) ∧
        isHolding (cfg.begin a op) (s.held a) = isHolding .idle (s.held a) ∧
        isStored (cfg.begin a op) (s.held a) = isStored .idle (s.held a) ∧
        shownNesting (cfg.begin a op) (s.held a) = shownNesting .idle (s.held a) := by
      cases op with
      | exit => exact ⟨rfl, rfl, rfl, rfl⟩
      | enter =>
        cases hpriv : cfg.isPrivileged a with
        | _ => simp [begin, hpriv, isMasking, isHolding, isStored, shownNesting]
    have hpoint : CsuPointOk cfg a (s.held a) (s.wanted (cfg.core a)) (cfg.begin a op) := by
      cases op with
      | exit => exact hexit rfl
      | enter =>
        cases hpriv : cfg.isPrivileged a with
        | _ => simp [begin, hpriv, CsuPointOk]
    have hrun := h.runningOf hcurrent
    rw [hidle] at hrun
    have hin : ∀ b, InSection { s with point := Function.update s.point a (cfg.begin a op) } b ↔ InSection s b := by
      intro b
      unfold InSection
      dsimp only
      by_cases hb : b = a
      · rw [hb, Function.update_self, hidle, hsame.2.1]
      · rw [Function.update_of_ne hb]
    refine ⟨h.own, ?_, ?_, h.lock.of_eq _ rfl hin, ?_⟩
    · intro k
      dsimp only
      by_cases hk : s.current k = a
      · have hcore : k = cfg.core a := by rw [← hk, h.own k]
        rw [hk, Function.update_self, hcore]
        exact ⟨hpoint, hrun.depth, by rw [hsame.1]; exact hrun.primask, by rw [hsame.1]; exact hrun.basepri,
          by rw [hsame.2.2.2]; exact hrun.nesting, fun hst => hrun.csu (by rwa [hsame.2.2.1] at hst)⟩
      · rw [Function.update_of_ne hk]
        exact h.running k
    · intro b hb
      have hne : b ≠ a := by
        rintro rfl
        exact hb hcurrent
      dsimp only
      rw [Function.update_of_ne hne]
      exact h.waiting b hb
    · intro f hf
      obtain ⟨b, hb⟩ := h.faults f hf
      have hne : b ≠ a := by
        rintro rfl
        rw [hidle] at hb
        cases hb
      refine ⟨b, ?_⟩
      dsimp only
      rw [Function.update_of_ne hne, hb]
  · exact h

/-- INTERNAL: `PRIMASK` is set outside a critical section. -/
theorem CsuOk.primaskSet (h : CsuOk cfg s) (a : α) (disabled : Bool) :
    CsuOk cfg (s.step cfg (.primaskSet a disabled)) := by
  simp only [CsuSystem.step]
  split
  · next hmade =>
    obtain ⟨hcurrent, hpriv, hidle, hzero⟩ := hmade
    have hrun := h.runningOf hcurrent
    rw [hidle, hzero] at hrun
    refine ⟨h.own, ?_, h.waiting, h.lock.of_eq _ rfl fun _ => .rfl, h.faults⟩
    intro k
    dsimp only
    by_cases hk : k = cfg.core a
    · rw [hk, hcurrent, Function.update_self, Function.update_self, hidle, hzero]
      exact ⟨trivial, Nat.zero_le _, by simp [isMasking], hrun.basepri, hrun.nesting, fun hst => by cases hst⟩
    · rw [Function.update_of_ne hk, Function.update_of_ne hk]
      exact h.running k
  · exact h

/-- INTERNAL: another activation gets the core. -/
theorem CsuOk.preempt (h : CsuOk cfg s) (hcover : Covers cfg) (hwanted : ∀ k, s.wanted k ≤ 1) (a : α) :
    CsuOk cfg (s.step cfg (.preempt a)) := by
  simp only [CsuSystem.step]
  split
  · exact h
  · next hfree =>
    by_cases hsame : s.current (cfg.core a) = a
    · have hid : Function.update s.current (cfg.core a) a = s.current := by
        rw [Function.update_eq_self_iff, hsame]
      rw [hid]
      exact h
    · -- the activation that loses the core had not masked it
      have hrun := h.running (cfg.core a)
      have hown := h.own (cfg.core a)
      set b := s.current (cfg.core a) with hb
      have hmask : isMasking (s.point b) (s.held b) = false := by
        cases hmask : isMasking (s.point b) (s.held b) with
        | false => rfl
        | true => exact absurd (hrun.isMasked hcover hmask hown.symm) hfree
      have hprimask : (s.core (cfg.core a)).primask = s.wanted (cfg.core a) := by
        rw [hrun.primask, hmask, Bool.and_false]
        rfl
      have hbasepri : (s.core (cfg.core a)).basepri = 0 := by
        rw [hrun.basepri, hmask, Bool.and_false]
        rfl
      have hclear : s.wanted (cfg.core a) = 0 := by
        have hle := hwanted (cfg.core a)
        have hodd : ¬ (s.core (cfg.core a)).primask % 2 = 1 := by
          intro hodd
          exact hfree (decide_eq_true (.inl hodd))
        omega
      rw [hclear] at hrun
      have hlost := hrun.preempted hmask
      have hnesting : (s.core (cfg.core a)).csuNesting = 0 := by
        rw [hrun.nesting]
        have hheld := hlost.held
        rcases hlost.point with hp | ⟨hp | hp, -⟩ | ⟨hp, -⟩
        · rw [hp, hheld]; rfl
        · rw [hp, hheld]; rfl
        · rw [hp, hheld]; rfl
        · rw [hp, hheld]; rfl
      refine ⟨?_, ?_, ?_, h.lock.of_eq _ rfl fun _ => .rfl, h.faults⟩
      · intro k
        dsimp only
        by_cases hk : k = cfg.core a
        · rw [hk, Function.update_self]
        · rw [Function.update_of_ne hk]
          exact h.own k
      · intro k
        dsimp only
        by_cases hk : k = cfg.core a
        · rw [hk, Function.update_self, hclear]
          exact (h.waiting a hsame).running (by rw [hprimask, hclear]) hbasepri hnesting
        · rw [Function.update_of_ne hk]
          exact h.running k
      · intro d hd
        dsimp only at hd ⊢
        by_cases hdb : d = b
        · rw [hdb]
          exact hlost
        · apply h.waiting d
          intro hcur
          by_cases hk : cfg.core d = cfg.core a
          · rw [hk, ← hb] at hcur
            exact hdb hcur.symm
          · rw [Function.update_of_ne hk] at hd
            exact hd hcur

/-- INTERNAL: the running activation takes a step. -/
theorem CsuOk.run (h : CsuOk cfg s) (hmax : cfg.nestingsMax < 255) (a : α) : CsuOk cfg (s.step cfg (.run a)) := by
  simp only [CsuSystem.step]
  split
  · next hcurrent =>
    have hbefore := h.runningOf hcurrent
    obtain ⟨hafter, hlock, hfault⟩ :=
      advance_running hmax hbefore fun hhold => h.locked_of_inSection hhold
    generalize hr : cfg.advance a (s.core (cfg.core a)) s.isLocked (s.point a) = r at hafter hlock hfault
    set s' : CsuSystem κ α :=
      { s with
        core := Function.update s.core (cfg.core a) r.core
        isLocked := r.isLocked
        point := Function.update s.point a r.point
        held := Function.update s.held a (CsuSystem.heldAfter (s.held a) r.result)
        faults := s.faults ++ r.fault.toList } with hs'
    have hself : InSection s' a ↔ isHolding r.point (CsuSystem.heldAfter (s.held a) r.result) = true := by
      simp only [InSection, hs', Function.update_self]
    have hother : ∀ b, b ≠ a → (InSection s' b ↔ InSection s b) := by
      intro b hb
      simp only [InSection, hs', Function.update_of_ne hb]
    have hlocks : CsuLockOk s' := by
      cases hlock with
      | keeps hkept hsame =>
        apply h.lock.of_eq s' hkept
        intro b
        by_cases hb : b = a
        · rw [hb, hself, hsame]
          exact Iff.rfl
        · exact hother b hb
      | takes hfree htaken hhold =>
        have hnobody := h.lock.free hfree
        have honly : ∀ b, InSection s' b → b = a := by
          intro b hb
          by_contra hne
          exact hnobody b ((hother b hne).mp hb)
        refine ⟨?_, ?_, ?_⟩
        · intro hlocked
          rw [show s'.isLocked = true from htaken] at hlocked
          cases hlocked
        · intro _
          exact ⟨a, hself.mpr hhold⟩
        · intro b d hb hd
          rw [honly b hb, honly d hd]
      | releases hheld hfree hdrop =>
        have hnone : ∀ b, ¬ InSection s' b := by
          intro b hb
          by_cases hba : b = a
          · rw [hba, hself, hdrop] at hb
            cases hb
          · exact hba (h.lock.unique b a ((hother b hba).mp hb) hheld)
        refine ⟨fun _ => hnone, ?_, fun b _ hb => absurd hb (hnone b)⟩
        intro hlocked
        rw [show s'.isLocked = false from hfree] at hlocked
        cases hlocked
    refine ⟨h.own, ?_, ?_, hlocks, ?_⟩
    · intro k
      rw [hs']
      dsimp only
      by_cases hk : k = cfg.core a
      · rw [hk, hcurrent, Function.update_self, Function.update_self, Function.update_self]
        exact hafter
      · have hne : s.current k ≠ a := by
          intro heq
          apply hk
          rw [← heq, h.own k]
        rw [Function.update_of_ne hk, Function.update_of_ne hne, Function.update_of_ne hne]
        exact h.running k
    · intro b hb
      have hne : b ≠ a := by
        rintro rfl
        exact hb hcurrent
      rw [hs']
      dsimp only
      rw [Function.update_of_ne hne, Function.update_of_ne hne]
      exact h.waiting b hb
    · intro f hf
      rw [hs'] at hf ⊢
      dsimp only at hf ⊢
      rw [List.mem_append, Option.mem_toList] at hf
      rcases hf with hold | hnew
      · obtain ⟨b, hb⟩ := h.faults f hold
        refine ⟨b, ?_⟩
        by_cases hba : b = a
        · -- a panicked activation stays where it is
          have hstays : r.point = .panicked f := by
            rw [← hr, ← hba, hb]
            rfl
          rw [hba, Function.update_self, hstays]
        · rw [Function.update_of_ne hba, hb]
      · exact ⟨a, by rw [Function.update_self, hfault f hnew]⟩
  · exact h

/-- INTERNAL: code sets `PRIMASK` to 0 or 1. -/
theorem wanted_step (h : ∀ k, s.wanted k ≤ 1) (e : CsuEvent κ α) (k : κ) : (s.step cfg e).wanted k ≤ 1 := by
  cases e with
  | primaskSet a disabled =>
    simp only [CsuSystem.step]
    split
    · dsimp only
      by_cases hk : k = cfg.core a
      · rw [hk, Function.update_self]
        exact Bool.toNat_le disabled
      · rw [Function.update_of_ne hk]
        exact h k
    · exact h k
  | call a op =>
    simp only [CsuSystem.step]
    split
    · exact h k
    · exact h k
  | run a =>
    simp only [CsuSystem.step]
    split
    · exact h k
    · exact h k
  | preempt a =>
    simp only [CsuSystem.step]
    split
    · exact h k
    · exact h k

/-- **A step of the system.** -/
theorem CsuOk.step (h : CsuOk cfg s) (hwanted : ∀ k, s.wanted k ≤ 1) (hmax : cfg.nestingsMax < 255)
    (hcover : Covers cfg) (e : CsuEvent κ α) : CsuOk cfg (s.step cfg e) := by
  cases e with
  | call a op => exact h.call a op
  | run a => exact h.run hmax a
  | primaskSet a disabled => exact h.primaskSet a disabled
  | preempt a => exact h.preempt hcover hwanted a

/-- INTERNAL: the invariant of every run. -/
theorem csuOk_run (hmax : cfg.nestingsMax < 255) (hcover : Covers cfg) {current : κ → α}
    (hcurrent : ∀ k, cfg.core (current k) = k) (es : List (CsuEvent κ α)) :
    CsuOk cfg (CsuSystem.run cfg current es) ∧ ∀ k, (CsuSystem.run cfg current es).wanted k ≤ 1 := by
  apply (Runs.along_of_forall (P := fun _ _ => True) (fun _ _ => trivial) _ es).invariant
    (I := fun s => CsuOk cfg s ∧ ∀ k, s.wanted k ≤ 1)
  · intro s e h _
    exact ⟨h.1.step h.2 hmax hcover e, wanted_step h.2 e⟩
  · exact ⟨.initial current hcurrent, fun _ => Nat.zero_le 1⟩

/-- **The critical section excludes.**  In every run over any number of cores, threads and handlers, at most
one activation is in its critical section, nothing takes its core from it, the nesting of a core counts the
open calls of its running activation, outside the mask registers are as the code outside has set them, and
only a call beyond the maximum nesting and a spin lock that stays taken over the whole countdown panic. -/
theorem run_criticalSection (cfg : CsuPlatform κ α) (hmax : cfg.nestingsMax < 255) (hcover : Covers cfg)
    (current : κ → α) (hcurrent : ∀ k, cfg.core (current k) = k) (es : List (CsuEvent κ α)) :
    let s := CsuSystem.run cfg current es
    (∀ a b, InSection s a → InSection s b → a = b) ∧
    (∀ a, InSection s a → s.isLocked = true ∧ s.current (cfg.core a) = a ∧
      ∀ e, (s.step cfg e).current (cfg.core a) = a) ∧
    (s.isLocked = true → ∃ a, InSection s a) ∧
    (∀ a, s.current (cfg.core a) = a → s.point a = .idle →
      (s.core (cfg.core a)).csuNesting = s.held a ∧
      (s.held a = 0 → (s.core (cfg.core a)).primask = s.wanted (cfg.core a) ∧ (s.core (cfg.core a)).basepri = 0)) ∧
    ∀ f ∈ s.faults, ∃ a, s.point a = .panicked f ∧
      (f = .nestingOverflow ∧ s.held a = cfg.nestingsMax ∨ f = .spinLockTimeout ∧ s.held a = 0) := by
  intro s
  have h : CsuOk cfg s := (csuOk_run hmax hcover hcurrent es).1
  refine ⟨h.lock.unique, ?_, h.lock.taken, ?_, ?_⟩
  · intro a ha
    have hown := h.current_of_inSection ha
    refine ⟨h.locked_of_inSection ha, hown, ?_⟩
    have hkeep : ∀ b, cfg.core b = cfg.core a → cfg.isMasked (s.core (cfg.core a)) (cfg.level b) = true :=
      fun b hb => (h.runningOf hown).isMasked hcover (isMasking_of_isHolding ha) hb
    intro e
    cases e with
    | call b op =>
      simp only [CsuSystem.step]
      split
      · exact hown
      · exact hown
    | run b =>
      simp only [CsuSystem.step]
      split
      · exact hown
      · exact hown
    | primaskSet b disabled =>
      simp only [CsuSystem.step]
      split
      · exact hown
      · exact hown
    | preempt b =>
      simp only [CsuSystem.step]
      split
      · exact hown
      · next hfree =>
        have hne : cfg.core a ≠ cfg.core b := by
          intro hcore
          apply hfree
          rw [← hcore]
          exact hkeep b hcore.symm
        dsimp only
        rw [Function.update_of_ne hne]
        exact hown
  · intro a ha hidle
    have hrun := h.runningOf ha
    rw [hidle] at hrun
    refine ⟨hrun.nesting, ?_⟩
    intro hzero
    rw [hzero] at hrun
    have hprimask := hrun.primask
    have hbasepri := hrun.basepri
    simp only [isMasking, ne_eq, not_true, decide_false, Bool.and_false] at hprimask hbasepri
    exact ⟨hprimask, hbasepri⟩
  · intro f hf
    obtain ⟨a, ha⟩ := h.faults f hf
    have hcur : s.current (cfg.core a) = a := by
      by_contra hne
      have hpoint := (h.waiting a hne).point
      simp [ha] at hpoint
    have hpoint := (h.runningOf hcur).point
    rw [ha] at hpoint
    refine ⟨a, ha, ?_⟩
    cases f with
    | nestingOverflow => exact .inl ⟨rfl, hpoint⟩
    | spinLockTimeout => exact .inr ⟨rfl, hpoint⟩
    | unownedRelease => exact hpoint.elim
    | nestingZero => exact hpoint.elim

end Runs

/-! ## The number of priority bits -/

/-- With four priority bits the mask covers every configurable level but 0, at which nothing can be masked. -/
theorem covers_of_four (hbits : cfg.prioBits = 4) (hlevel : ∀ a, 1 ≤ cfg.level a) : Covers cfg := by
  intro a b _ _
  have hmask : cfg.svcMask = 16 := by
    unfold svcMask basepriWrite
    rw [hbits]
    rfl
  have hb := hlevel b
  rw [hmask, hbits]
  omega

/-- Two cores, each with an unprivileged thread and a handler of level 1. -/
def twoCores : CsuPlatform Bool (Bool × Bool) := ⟨Prod.fst, Prod.snd, fun _ => 1, 4, 16⟩

/-- A thread enters; a handler of its core is held off, one of the other core finds the lock taken. -/
def twoCoresRun : List (CsuEvent Bool (Bool × Bool)) :=
  [.call (false, false) .enter] ++ List.replicate 5 (.run (false, false)) ++
    [.preempt (false, true), .call (true, true) .enter] ++ List.replicate 4 (.run (true, true))

theorem twoCores_excluded :
    InSection (CsuSystem.run twoCores (fun k => (k, k)) twoCoresRun) (false, false) ∧
    ∀ a, InSection (CsuSystem.run twoCores (fun k => (k, k)) twoCoresRun) a → a = (false, false) := by
  have hin : InSection (CsuSystem.run twoCores (fun k => (k, k)) twoCoresRun) (false, false) := by
    unfold InSection
    decide +kernel
  have hcover : Covers twoCores := covers_of_four rfl fun _ => le_rfl
  have hrun := run_criticalSection twoCores (by decide) hcover (fun k => (k, k)) (fun _ => rfl) twoCoresRun
  exact ⟨hin, fun a ha => hrun.1 a (false, false) ha hin⟩

/-- On every platform with `prioBits` priority bits, in every run, critical sections exclude each other. -/
def Excludes (prioBits : ℕ) : Prop :=
  ∀ (κ α : Type) [DecidableEq κ] [DecidableEq α] (cfg : CsuPlatform κ α) (current : κ → α)
    (es : List (CsuEvent κ α)), cfg.prioBits = prioBits → cfg.nestingsMax < 255 → (∀ a, 1 ≤ cfg.level a) →
    (∀ k, cfg.core (current k) = k) →
    ∀ a b, InSection (CsuSystem.run cfg current es) a → InSection (CsuSystem.run cfg current es) b → a = b

/-- One core with an unprivileged thread and a handler of level 1. -/
def oneCore (prioBits : ℕ) : CsuPlatform Unit Bool := ⟨fun _ => (), id, fun _ => 1, prioBits, 16⟩

/-- The thread is in its critical section when the handler enters its own. -/
def nestedEnter : List (CsuEvent Unit Bool) :=
  [.call false .enter] ++ List.replicate 5 (.run false) ++ [.preempt true, .call true .enter] ++
    List.replicate 3 (.run true)

/-- **Unprivileged critical sections need four priority bits.**  With any other number of bits that the
architecture allows, the mask that `SVC_ENTER_CRITICAL` writes lets a handler in. -/
theorem excludes_iff (prioBits : ℕ) (hlow : 3 ≤ prioBits) (hhigh : prioBits ≤ 8) :
    Excludes prioBits ↔ prioBits = 4 := by
  constructor
  · intro h
    have hmax : (oneCore prioBits).nestingsMax < 255 := by
      change 16 < 255
      omega
    have hone := h Unit Bool (oneCore prioBits) (fun _ => false) nestedEnter rfl hmax (fun _ => le_rfl)
      (fun _ => rfl) false true
    unfold InSection at hone
    by_contra hne
    have hcases : prioBits = 3 ∨ prioBits = 5 ∨ prioBits = 6 ∨ prioBits = 7 ∨ prioBits = 8 := by omega
    rcases hcases with rfl | rfl | rfl | rfl | rfl
    · exact absurd (hone (by decide +kernel) (by decide +kernel)) (by decide)
    · exact absurd (hone (by decide +kernel) (by decide +kernel)) (by decide)
    · exact absurd (hone (by decide +kernel) (by decide +kernel)) (by decide)
    · exact absurd (hone (by decide +kernel) (by decide +kernel)) (by decide)
    · exact absurd (hone (by decide +kernel) (by decide +kernel)) (by decide)
  · rintro rfl κ α _ _ cfg current es hbits hmax hlevel hcurrent
    exact (csuOk_run hmax (covers_of_four hbits hlevel) hcurrent es).1.lock.unique

theorem threeBits_not_excluding : ¬ Excludes 3 ∧ Excludes 4 := by
  constructor
  · rw [excludes_iff 3 (by decide) (by decide)]
    decide
  · rw [excludes_iff 4 (by decide) (by decide)]

end Stk.Analysis
