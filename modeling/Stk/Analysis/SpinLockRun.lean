import Stk.Foundation.Runs
import Stk.Model.SpinLock

/-!
# The recursive spin lock among its tasks

What the fields of a `SpinLock` show is a function of where the one task inside it stands (`lockOf`).  A step
of that task keeps it so, and a step of another changes nothing (`run_spinLock`).
-/

set_option autoImplicit false

namespace Stk.Analysis

open Stk.Model SpinLock

variable {τ : Type} [DecidableEq τ] {t u : τ} {p : SpinPoint} {held : ℕ} {m : SpinLock τ}

/-! ## Places in the code -/

/-- The low-level lock is taken, and the acquisition has not returned. -/
def isAcquiring : SpinPoint → Bool
  | .ownerPanic _ | .countPanic _ | .ownerSet _ | .countSet _ => true
  | _ => false

/-- The low-level lock is taken, and the owner is not recorded yet or no longer. -/
def isUnrecorded : SpinPoint → Bool
  | .ownerPanic _ | .countPanic _ | .ownerSet _ | .lowUnlock => true
  | _ => false

/-- The count has been cleared, and `Unlock` has not returned. -/
def isCleared : SpinPoint → Bool
  | .ownerClear | .lowUnlock => true
  | _ => false

/-- A task that holds the low-level lock. -/
def isInside (p : SpinPoint) (held : ℕ) : Bool := isAcquiring p || decide (held ≠ 0)

theorem isInside_of_ne (p : SpinPoint) (h : held ≠ 0) : isInside p held = true := by
  unfold isInside
  rw [decide_eq_true h, Bool.or_true]

/-- What the lock shows while task `t` is inside. -/
def lockOf (t : τ) (p : SpinPoint) (held : ℕ) : SpinLock τ :=
  ⟨if isUnrecorded p then none else some t, if isCleared p then 0 else held, true⟩

/-- Where a task with `held` acquisitions can stand. -/
def PointOk (held : ℕ) : SpinPoint → Prop
  | .idle => held ≤ SpinLock.recursionMax
  | .ownerCheck _ => held < SpinLock.recursionMax
  | .countCheck _ | .maxAssert _ | .countRead _ => held ≠ 0 ∧ held < SpinLock.recursionMax
  | .countWrite _ count => count = held ∧ held ≠ 0 ∧ held < SpinLock.recursionMax
  | .lowLock _ | .ownerPanic _ | .countPanic _ | .ownerSet _ | .countSet _ => held = 0
  | .ownerAssert | .countAssert | .countReadDown => held ≠ 0 ∧ held ≤ SpinLock.recursionMax
  | .countWriteDown count => count = held ∧ held ≠ 0 ∧ held ≤ SpinLock.recursionMax
  | .ownerClear | .lowUnlock => held = 1

/-! ## Steps of one task -/

section Steps

/-- INTERNAL: what a step leaves. -/
structure Leaves (held : ℕ) (r : SpinStep τ) : Prop where
  point : PointOk (SpinSystem.heldAfter held r.result) r.point
  sound : r.fault = none

omit [DecidableEq τ] in
theorem up_eq (h : held < SpinLock.recursionMax) : up held = held + 1 := by
  have hmax : SpinLock.recursionMax = 65534 := rfl
  unfold up
  omega

theorem down_eq (hpos : held ≠ 0) (h : held ≤ SpinLock.recursionMax) : down held = held - 1 := by
  have hmax : SpinLock.recursionMax = 65534 := rfl
  unfold down
  omega

/-- What the task inside leaves: the lock as it shows the task, or free. -/
def LeavesLock (t : τ) (held : ℕ) (r : SpinStep τ) : Prop :=
  Leaves held r ∧
    if isInside r.point (SpinSystem.heldAfter held r.result) then
      r.lock = lockOf t r.point (SpinSystem.heldAfter held r.result)
    else r.lock = .initial

omit [DecidableEq τ] in
/-- INTERNAL: a step after which the task is still inside. -/
theorem LeavesLock.stays {p' : SpinPoint} {held' : ℕ} {result : Option SpinReturn}
    (hheld : SpinSystem.heldAfter held result = held') (hok : PointOk held' p') (hin : isInside p' held' = true) :
    LeavesLock t held ⟨p', lockOf t p' held', result, none⟩ := by
  obtain rfl := hheld
  refine ⟨⟨hok, rfl⟩, ?_⟩
  rw [if_pos hin]

/-- **A step of the task inside.** -/
theorem advance_inside (hok : PointOk held p) (hin : isInside p held = true) :
    LeavesLock t held (SpinLock.advance t (lockOf t p held) p) := by
  have hacquired : ∀ tries, SpinSystem.heldAfter held (some (acquired tries)) = held + 1 := by
    intro tries
    cases tries with
    | true => rfl
    | false => rfl
  cases p with
  | idle => exact .stays rfl hok hin
  | ownerCheck tries =>
    have hheld : held ≠ 0 := by simpa [isInside, isAcquiring] using hin
    have hstep : SpinLock.advance t (lockOf t (.ownerCheck tries) held) (.ownerCheck tries) =
        ⟨.countCheck tries, lockOf t (.countCheck tries) held, none, none⟩ := by
      simp [SpinLock.advance, lockOf, isUnrecorded, isCleared]
    rw [hstep]
    exact .stays rfl ⟨hheld, hok⟩ hin
  | countCheck tries =>
    have hstep : SpinLock.advance t (lockOf t (.countCheck tries) held) (.countCheck tries) =
        ⟨.maxAssert tries, lockOf t (.maxAssert tries) held, none, none⟩ := by
      simp [SpinLock.advance, lockOf, isUnrecorded, isCleared, hok.1]
    rw [hstep]
    exact .stays rfl hok hin
  | maxAssert tries =>
    have hstep : SpinLock.advance t (lockOf t (.maxAssert tries) held) (.maxAssert tries) =
        ⟨.countRead tries, lockOf t (.countRead tries) held, none, none⟩ := by
      have hlt : held < SpinLock.recursionMax := hok.2
      simp [SpinLock.advance, lockOf, isUnrecorded, isCleared, hlt]
    rw [hstep]
    exact .stays rfl hok hin
  | countRead tries => exact .stays rfl ⟨rfl, hok⟩ hin
  | countWrite tries count =>
    obtain ⟨rfl, hpos, hlt⟩ := hok
    have hstep : SpinLock.advance t (lockOf t (.countWrite tries count) count) (.countWrite tries count) =
        ⟨.idle, lockOf t .idle (count + 1), some (acquired tries), none⟩ := by
      simp [SpinLock.advance, lockOf, isUnrecorded, isCleared, up_eq hlt]
    rw [hstep]
    exact .stays (hacquired tries) (by simp only [PointOk]; omega) (isInside_of_ne _ (by omega))
  | lowLock tries =>
    -- a task that waits for the low-level lock holds nothing
    have hzero : held = 0 := hok
    simp [isInside, isAcquiring, hzero] at hin
  | ownerPanic tries => exact .stays rfl hok hin
  | countPanic tries =>
    have hzero : held = 0 := hok
    have hstep : SpinLock.advance t (lockOf t (.countPanic tries) held) (.countPanic tries) =
        ⟨.ownerSet tries, lockOf t (.ownerSet tries) held, none, none⟩ := by
      simp [SpinLock.advance, lockOf, isUnrecorded, isCleared, hzero]
    rw [hstep]
    exact .stays rfl hok hin
  | ownerSet tries => exact .stays rfl hok hin
  | countSet tries =>
    have hzero : held = 0 := hok
    have hstep : SpinLock.advance t (lockOf t (.countSet tries) held) (.countSet tries) =
        ⟨.idle, lockOf t .idle (held + 1), some (acquired tries), none⟩ := by
      simp [SpinLock.advance, lockOf, isUnrecorded, isCleared, hzero]
    rw [hstep]
    have hmax : SpinLock.recursionMax = 65534 := rfl
    exact .stays (hacquired tries) (by simp only [PointOk]; omega) (isInside_of_ne _ (by omega))
  | ownerAssert =>
    have hstep : SpinLock.advance t (lockOf t .ownerAssert held) .ownerAssert =
        ⟨.countAssert, lockOf t .countAssert held, none, none⟩ := by
      simp [SpinLock.advance, lockOf, isUnrecorded, isCleared]
    rw [hstep]
    exact .stays rfl hok hin
  | countAssert =>
    have hstep : SpinLock.advance t (lockOf t .countAssert held) .countAssert =
        ⟨.countReadDown, lockOf t .countReadDown held, none, none⟩ := by
      simp [SpinLock.advance, lockOf, isUnrecorded, isCleared, hok.1]
    rw [hstep]
    exact .stays rfl hok hin
  | countReadDown => exact .stays rfl ⟨rfl, hok⟩ hin
  | countWriteDown count =>
    obtain ⟨rfl, hpos, hle⟩ := hok
    by_cases hone : count = 1
    · have hstep : SpinLock.advance t (lockOf t (.countWriteDown count) count) (.countWriteDown count) =
          ⟨.ownerClear, lockOf t .ownerClear count, none, none⟩ := by
        simp [SpinLock.advance, lockOf, isUnrecorded, isCleared, hone, down]
      rw [hstep]
      exact .stays rfl hone (isInside_of_ne _ hpos)
    · have hne : count - 1 ≠ 0 := by omega
      have hstep : SpinLock.advance t (lockOf t (.countWriteDown count) count) (.countWriteDown count) =
          ⟨.idle, lockOf t .idle (count - 1), some .unlock, none⟩ := by
        simp [SpinLock.advance, lockOf, isUnrecorded, isCleared, down_eq hpos hle, hne]
      rw [hstep]
      exact .stays rfl (by simp only [PointOk]; omega) (isInside_of_ne _ hne)
  | ownerClear => exact .stays rfl hok hin
  | lowUnlock =>
    have hone : held = 1 := hok
    have hstep : SpinLock.advance t (lockOf t .lowUnlock held) .lowUnlock =
        ⟨.idle, .initial, some .unlock, none⟩ := rfl
    rw [hstep]
    refine ⟨⟨?_, rfl⟩, ?_⟩
    · simp [SpinSystem.heldAfter, PointOk, hone]
    · simp [SpinSystem.heldAfter, isInside, isAcquiring, hone]

/-- **A step of a task that is not inside.**  It changes the lock only by taking the low-level lock. -/
theorem advance_outside (hok : PointOk held p) (hout : isInside p held = false) (howner : m.owner ≠ some t) :
    let r := SpinLock.advance t m p
    Leaves held r ∧
      ((r.lock = m ∧ isInside r.point (SpinSystem.heldAfter held r.result) = false) ∨
        (m.isLocked = false ∧ r.lock = { m with isLocked := true } ∧ r.result = none ∧
          ∃ tries, p = .lowLock tries ∧ r.point = .ownerPanic tries)) := by
  simp only [isInside, Bool.or_eq_false_iff, decide_eq_false_iff_not, not_not] at hout
  obtain ⟨hacquiring, rfl⟩ := hout
  cases p with
  | idle => exact ⟨⟨hok, rfl⟩, .inl ⟨rfl, rfl⟩⟩
  | ownerCheck tries =>
    have hstep : SpinLock.advance t m (.ownerCheck tries) = ⟨.lowLock tries, m, none, none⟩ := by
      simp [SpinLock.advance, howner]
    rw [hstep]
    exact ⟨⟨rfl, rfl⟩, .inl ⟨rfl, rfl⟩⟩
  | lowLock tries =>
    cases hlocked : m.isLocked with
    | true =>
      cases tries with
      | true =>
        have hstep : SpinLock.advance t m (.lowLock true) = ⟨.idle, m, some (.tryLock false), none⟩ := by
          simp [SpinLock.advance, hlocked]
        rw [hstep]
        exact ⟨⟨Nat.zero_le _, rfl⟩, .inl ⟨rfl, rfl⟩⟩
      | false =>
        have hstep : SpinLock.advance t m (.lowLock false) = ⟨.lowLock false, m, none, none⟩ := by
          simp [SpinLock.advance, hlocked]
        rw [hstep]
        exact ⟨⟨rfl, rfl⟩, .inl ⟨rfl, rfl⟩⟩
    | false =>
      have hstep : SpinLock.advance t m (.lowLock tries) =
          ⟨.ownerPanic tries, { m with isLocked := true }, none, none⟩ := by
        simp [SpinLock.advance, hlocked]
      rw [hstep]
      exact ⟨⟨rfl, rfl⟩, .inr ⟨rfl, rfl, rfl, tries, rfl, rfl⟩⟩
  | ownerPanic | countPanic | ownerSet | countSet => cases hacquiring
  | ownerClear | lowUnlock => cases hok
  | countWrite tries count => exact absurd rfl hok.2.1
  | countWriteDown count => exact absurd rfl hok.2.1
  | countCheck | maxAssert | countRead | ownerAssert | countAssert | countReadDown => exact absurd rfl hok.1

end Steps

/-! ## Runs -/

section Runs

variable {s : SpinSystem τ} {es : List (SpinEvent τ)}

/-- Task `t` is inside: it has an acquisition, or is about to have its first. -/
def Inside (s : SpinSystem τ) (t : τ) : Prop := isInside (s.point t) (s.held t) = true

/-- No task asks for more than the maximum nesting depth. -/
def WithinDepth (s : SpinSystem τ) : SpinEvent τ → Prop
  | .call t op => op ≠ .unlock → s.held t < SpinLock.recursionMax
  | .run _ => True

instance (s : SpinSystem τ) (e : SpinEvent τ) : Decidable (WithinDepth s e) := by
  unfold WithinDepth
  split
  · infer_instance
  · infer_instance

/-- The only task inside, as the lock shows it. -/
structure Holder (s : SpinSystem τ) (t : τ) : Prop where
  inside : Inside s t
  shown : s.lock = lockOf t (s.point t) (s.held t)
  alone : ∀ u, u ≠ t → ¬ Inside s u

/-- INTERNAL: what holds between any two steps. -/
structure SpinOk (s : SpinSystem τ) : Prop where
  points : ∀ t, PointOk (s.held t) (s.point t)
  holder : (s.lock = .initial ∧ ∀ t, ¬ Inside s t) ∨ ∃ t, Holder s t
  sound : s.faults = []

omit [DecidableEq τ] in
theorem Holder.eq (h : Holder s t) (hu : Inside s u) : u = t := by
  by_contra hne
  exact h.alone u hne hu

/-- INTERNAL: the other tasks stay where they are. -/
theorem step_other (s : SpinSystem τ) {e : SpinEvent τ} (hne : u ≠ e.task) :
    (s.step e).point u = s.point u ∧ (s.step e).held u = s.held u := by
  cases e with
  | call t op =>
    simp only [SpinSystem.step, SpinSystem.stepResult]
    split
    · exact ⟨Function.update_of_ne hne _ _, rfl⟩
    · exact ⟨rfl, rfl⟩
  | run t => exact ⟨Function.update_of_ne hne _ _, Function.update_of_ne hne _ _⟩

theorem inside_other (s : SpinSystem τ) {e : SpinEvent τ} (hne : u ≠ e.task) :
    Inside (s.step e) u ↔ Inside s u := by
  obtain ⟨hpoint, hheld⟩ := step_other s hne
  unfold Inside
  rw [hpoint, hheld]

/-- INTERNAL: a call begins. -/
theorem SpinOk.call (h : SpinOk s) (op : SpinOp) (hdepth : WithinDepth s (.call t op)) :
    SpinOk (s.step (.call t op)) := by
  simp only [SpinSystem.step, SpinSystem.stepResult]
  split
  · next hmade =>
    obtain ⟨hidle, hunlock⟩ := hmade
    have hpoint := h.points t
    rw [hidle] at hpoint
    have hsame : isAcquiring (SpinLock.enter op) = false ∧ isUnrecorded (SpinLock.enter op) = false ∧
        isCleared (SpinLock.enter op) = false := by
      cases op with
      | _ => exact ⟨rfl, rfl, rfl⟩
    have hinside : ∀ u, Inside { s with point := Function.update s.point t (SpinLock.enter op) } u ↔
        Inside s u := by
      intro u
      unfold Inside isInside
      dsimp only
      by_cases hu : u = t
      · rw [hu, Function.update_self, hidle, hsame.1]
        rfl
      · rw [Function.update_of_ne hu]
    refine ⟨?_, ?_, h.sound⟩
    · intro u
      by_cases hu : u = t
      · rw [hu]
        dsimp only
        rw [Function.update_self]
        cases op with
        | lock => exact hdepth (by decide)
        | tryLock => exact hdepth (by decide)
        | unlock => exact ⟨hunlock rfl, hpoint⟩
      · dsimp only
        rw [Function.update_of_ne hu]
        exact h.points u
    · rcases h.holder with ⟨hfree, hnobody⟩ | ⟨w, hin, hshown, halone⟩
      · exact .inl ⟨hfree, fun u hu => hnobody u ((hinside u).mp hu)⟩
      · refine .inr ⟨w, (hinside w).mpr hin, ?_, fun u hne hu => halone u hne ((hinside u).mp hu)⟩
        dsimp only
        rw [hshown]
        by_cases hw : w = t
        · rw [hw, Function.update_self, hidle]
          unfold lockOf
          rw [hsame.2.1, hsame.2.2]
          rfl
        · rw [Function.update_of_ne hw]
  · exact h

/-- INTERNAL: what the next step of task `t` does to the system. -/
theorem step_run (s : SpinSystem τ) (t : τ) :
    let r := s.lock.advance t (s.point t)
    (s.step (.run t)).lock = r.lock ∧ (s.step (.run t)).point t = r.point ∧
      (s.step (.run t)).held t = SpinSystem.heldAfter (s.held t) r.result ∧
      (s.step (.run t)).faults = s.faults ++ r.fault.toList :=
  ⟨rfl, Function.update_self .., Function.update_self .., rfl⟩

omit [DecidableEq τ] in
/-- INTERNAL: a task that is not inside is not recorded. -/
theorem SpinOk.owner_ne (h : SpinOk s) (hout : ¬ Inside s t) : s.lock.owner ≠ some t := by
  rcases h.holder with ⟨hfree, -⟩ | ⟨w, hin, hshown, -⟩
  · rw [hfree]
    intro hnone
    cases hnone
  · rw [hshown]
    unfold lockOf
    dsimp only
    split
    · intro hnone
      cases hnone
    · intro heq
      obtain rfl := Option.some.inj heq
      exact hout hin

/-- INTERNAL: the points and the faults, from what the task that runs leaves. -/
theorem SpinOk.leaves (h : SpinOk s) (hl : Leaves (s.held t) (s.lock.advance t (s.point t))) :
    (∀ u, PointOk ((s.step (.run t)).held u) ((s.step (.run t)).point u)) ∧ (s.step (.run t)).faults = [] := by
  obtain ⟨-, hpoint, hheld, hfaults⟩ := step_run s t
  constructor
  · intro u
    by_cases hu : u = t
    · rw [hu, hpoint, hheld]
      exact hl.point
    · obtain ⟨hp, hh⟩ := step_other s (show u ≠ (SpinEvent.run t).task from hu)
      rw [hp, hh]
      exact h.points u
  · rw [hfaults, hl.sound, h.sound]
    rfl

/-- INTERNAL: a step of the task inside. -/
theorem SpinOk.run_inside (h : SpinOk s) (hholder : Holder s t) : SpinOk (s.step (.run t)) := by
  obtain ⟨hlock, hpoint, hheld, -⟩ := step_run s t
  have hstep : LeavesLock t (s.held t) (s.lock.advance t (s.point t)) := by
    rw [hholder.shown]
    exact advance_inside (h.points t) hholder.inside
  obtain ⟨hl, hshown⟩ := hstep
  obtain ⟨hpoints, hsound⟩ := h.leaves hl
  rw [← hpoint, ← hheld, ← hlock] at hshown
  have halone : ∀ u, u ≠ t → ¬ Inside (s.step (.run t)) u := by
    intro u hne hu
    exact hholder.alone u hne ((inside_other s (e := .run t) hne).mp hu)
  refine ⟨hpoints, ?_, hsound⟩
  split at hshown
  · next hstill => exact .inr ⟨t, hstill, hshown, halone⟩
  · next hleft =>
    refine .inl ⟨hshown, ?_⟩
    intro u hu
    by_cases hut : u = t
    · rw [hut] at hu
      exact hleft hu
    · exact halone u hut hu

/-- INTERNAL: a step of another task. -/
theorem SpinOk.run_outside (h : SpinOk s) (hout : ¬ Inside s t) : SpinOk (s.step (.run t)) := by
  obtain ⟨hlock, hpoint, hheld, -⟩ := step_run s t
  have hother : ∀ u, u ≠ t → (Inside (s.step (.run t)) u ↔ Inside s u) := by
    intro u hne
    exact inside_other s (e := .run t) hne
  have hfalse : isInside (s.point t) (s.held t) = false := by simpa [Inside] using hout
  obtain ⟨hl, hcases⟩ := advance_outside (h.points t) hfalse (h.owner_ne hout)
  obtain ⟨hpoints, hsound⟩ := h.leaves hl
  refine ⟨hpoints, ?_, hsound⟩
  rcases hcases with ⟨hsame, hstill⟩ | ⟨hfree, htaken, hresult, tries, hlow, hnext⟩
  · rw [← hpoint, ← hheld] at hstill
    rw [hlock, hsame]
    rcases h.holder with ⟨hinitial, hnobody⟩ | ⟨w, hw, hshown, halone⟩
    · refine .inl ⟨hinitial, ?_⟩
      intro u hu
      by_cases hut : u = t
      · rw [hut, Inside, hstill] at hu
        cases hu
      · exact hnobody u ((hother u hut).mp hu)
    · have hne : w ≠ t := fun heq => hout (heq ▸ hw)
      obtain ⟨hp, hh⟩ := step_other s (show w ≠ (SpinEvent.run t).task from hne)
      refine .inr ⟨w, (hother w hne).mpr hw, ?_, ?_⟩
      · rw [hlock, hsame, hp, hh]
        exact hshown
      · intro u huw hu
        by_cases hut : u = t
        · rw [hut, Inside, hstill] at hu
          cases hu
        · exact halone u huw ((hother u hut).mp hu)
  · -- it takes the low-level lock
    obtain ⟨hinitial, hnobody⟩ : s.lock = .initial ∧ ∀ u, ¬ Inside s u := by
      rcases h.holder with hfreed | ⟨w, -, hshown, -⟩
      · exact hfreed
      · rw [hshown] at hfree
        cases hfree
    have hzero : SpinSystem.heldAfter (s.held t) none = 0 := by
      have hp := h.points t
      rw [hlow] at hp
      exact hp
    rw [hresult, hzero] at hheld
    rw [hnext] at hpoint
    refine .inr ⟨t, ?_, ?_, fun u hne hu => hnobody u ((hother u hne).mp hu)⟩
    · rw [Inside, hpoint]
      rfl
    · rw [hlock, htaken, hpoint, hheld, hinitial]
      rfl

/-- INTERNAL: a step of a call. -/
theorem SpinOk.runStep (h : SpinOk s) (t : τ) : SpinOk (s.step (.run t)) := by
  by_cases hin : Inside s t
  · rcases h.holder with ⟨-, hnobody⟩ | ⟨w, hw⟩
    · exact absurd hin (hnobody t)
    · obtain rfl := hw.eq hin
      exact h.run_inside hw
  · exact h.run_outside hin

theorem SpinOk.step (h : SpinOk s) (e : SpinEvent τ) (hdepth : WithinDepth s e) : SpinOk (s.step e) := by
  cases e with
  | call t op => exact h.call op hdepth
  | run t => exact h.runStep t

omit [DecidableEq τ] in
theorem SpinOk.initial : SpinOk (SpinSystem.initial : SpinSystem τ) := by
  refine ⟨fun _ => Nat.zero_le _, .inl ⟨rfl, ?_⟩, rfl⟩
  intro t ht
  cases ht

theorem SpinOk.run (hdepth : Runs.Along SpinSystem.step WithinDepth (SpinSystem.initial : SpinSystem τ) es) :
    SpinOk (SpinSystem.run es) :=
  Runs.Along.invariant (fun _ e h hdepth => h.step e hdepth) .initial hdepth

/-! ## Results -/

/-- The fields of a spin lock and the tasks agree. -/
structure SpinSound (s : SpinSystem τ) : Prop where
  -- the owner is recorded just after the low-level lock is taken and cleared just before it is released
  recorded : s.lock.owner ≠ none ↔ s.lock.isLocked = true ∧ ∀ t, isUnrecorded (s.point t) = false
  owned : ∀ t, s.lock.owner = some t → Inside s t
  -- the count is cleared just before the owner
  counted : ∀ t, s.lock.owner = some t → s.point t ≠ .ownerClear → s.lock.recursionCount = s.held t
  exclusive : ∀ t u, Inside s t → Inside s u → t = u
  undisturbed : ∀ t e, Inside s t → e.task ≠ t → (s.step e).lock = s.lock
  sound : s.faults = []

/-- `TryLock` of a task that runs into another inside returns `false` and has not changed the lock.  `ds` and
`fs` are what the other tasks do between the three events of the call. -/
def RefusesOthers (es : List (SpinEvent τ)) : Prop :=
  ∀ pre ds fs t u, es = pre ++ .call u .tryLock :: (ds ++ .run u :: fs) →
    (SpinSystem.run pre : SpinSystem τ).point u = .idle → (∀ e ∈ ds ++ fs, e.task ≠ u) →
    Inside (SpinSystem.run es) t → t ≠ u →
      ((SpinSystem.run es).stepResult (.run u)).2 = some (.tryLock false) ∧
        (SpinSystem.run (pre ++ [.call u .tryLock])).lock = (SpinSystem.run pre).lock ∧
        (SpinSystem.run (pre ++ .call u .tryLock :: (ds ++ [.run u]))).lock =
          (SpinSystem.run (pre ++ .call u .tryLock :: ds)).lock ∧
        (SpinSystem.run (es ++ [.run u])).lock = (SpinSystem.run es).lock

theorem SpinOk.spinSound (h : SpinOk s) : SpinSound s := by
  have hunrecorded : ∀ t, isUnrecorded (s.point t) = true → Inside s t := by
    intro t ht
    have hp := h.points t
    unfold Inside
    cases hpoint : s.point t with
    | ownerPanic | countPanic | ownerSet => rfl
    | lowUnlock =>
      rw [hpoint] at hp
      have hone : s.held t = 1 := hp
      exact isInside_of_ne _ (by omega)
    | _ =>
      rw [hpoint] at ht
      cases ht
  rcases h.holder with ⟨hfree, hnobody⟩ | ⟨w, hw⟩
  · refine ⟨?_, ?_, ?_, fun t u ht => absurd ht (hnobody t), fun t e ht => absurd ht (hnobody t), h.sound⟩
    · rw [hfree]
      constructor
      · intro hne
        exact absurd rfl hne
      · rintro ⟨hlocked, -⟩
        cases hlocked
    · intro t ht
      rw [hfree] at ht
      cases ht
    · intro t ht
      rw [hfree] at ht
      cases ht
  · have hshown := hw.shown
    unfold lockOf at hshown
    refine ⟨?_, ?_, ?_, ?_, ?_, h.sound⟩
    · rw [hshown]
      dsimp only
      constructor
      · intro hne
        refine ⟨rfl, ?_⟩
        intro t
        by_contra ht
        have htrue : isUnrecorded (s.point t) = true := by simpa using ht
        obtain rfl := hw.eq (hunrecorded t htrue)
        rw [if_pos htrue] at hne
        exact hne rfl
      · rintro ⟨-, hall⟩
        rw [hall w]
        simp
    · intro t ht
      by_contra hout
      exact h.owner_ne hout ht
    · intro t ht hpoint
      obtain rfl : t = w := by
        by_contra hne
        exact h.owner_ne (hw.alone t hne) ht
      rw [hshown] at ht ⊢
      dsimp only at ht ⊢
      have hcleared : isCleared (s.point t) = false := by
        cases heq : s.point t with
        | ownerClear => exact absurd heq hpoint
        | lowUnlock =>
          rw [heq] at ht
          cases ht
        | _ => rfl
      rw [hcleared]
      rfl
    · intro t u ht hu
      rw [hw.eq ht, hw.eq hu]
    · intro t e ht hne
      obtain rfl := hw.eq ht
      cases e with
      | call u op =>
        simp only [SpinSystem.step, SpinSystem.stepResult]
        split
        · rfl
        · rfl
      | run u =>
        have hout : ¬ Inside s u := hw.alone u hne
        have hfalse : isInside (s.point u) (s.held u) = false := by simpa [Inside] using hout
        obtain ⟨-, ⟨hsame, -⟩ | ⟨hfree, -⟩⟩ := advance_outside (h.points u) hfalse (h.owner_ne hout)
        · exact hsame
        · rw [hshown] at hfree
          cases hfree

/-- INTERNAL: events of others leave a task where it is. -/
theorem foldl_other (s : SpinSystem τ) {ds : List (SpinEvent τ)} (hother : ∀ e ∈ ds, e.task ≠ u) :
    (ds.foldl SpinSystem.step s).point u = s.point u ∧ (ds.foldl SpinSystem.step s).held u = s.held u := by
  induction ds generalizing s with
  | nil => exact ⟨rfl, rfl⟩
  | cons e ds ih =>
    obtain ⟨hpoint, hheld⟩ := step_other s (hother e List.mem_cons_self).symm
    rw [List.foldl_cons, ← hpoint, ← hheld]
    exact ih (s.step e) fun e' he' => hother e' (List.mem_cons_of_mem e he')

/-- INTERNAL: a call of `TryLock` up to its `m_lock.TryLock()`. -/
theorem tryLock_point {ds fs : List (SpinEvent τ)} (hidle : s.point u = .idle)
    (hds : ∀ e ∈ ds, e.task ≠ u) (hfs : ∀ e ∈ fs, e.task ≠ u) :
    let s₂ := ds.foldl SpinSystem.step (s.step (.call u .tryLock))
    let s₄ := fs.foldl SpinSystem.step (s₂.step (.run u))
    s₂.point u = .ownerCheck true ∧ s₄.held u = s₂.held u ∧ (s₂.step (.run u)).lock = s₂.lock ∧
      (s₂.lock.owner ≠ some u → s₄.point u = .lowLock true) := by
  intro s₂ s₄
  have hcalled : (s.step (.call u .tryLock)).point u = .ownerCheck true := by
    simp only [SpinSystem.step, SpinSystem.stepResult]
    rw [if_pos ⟨hidle, fun h => by contradiction⟩]
    exact Function.update_self ..
  have hpoint : s₂.point u = .ownerCheck true := (foldl_other _ hds).1.trans hcalled
  obtain ⟨hlock, hnext, hheld, -⟩ := step_run s₂ u
  obtain ⟨hpoint₄, hheld₄⟩ := foldl_other (s₂.step (.run u)) hfs
  rw [hpoint] at hlock hnext hheld
  refine ⟨hpoint, hheld₄.trans hheld, hlock, ?_⟩
  intro howner
  rw [hpoint₄, hnext]
  exact if_neg howner

theorem SpinOk.refusesOthers (hdepth : Runs.Along SpinSystem.step WithinDepth (SpinSystem.initial : SpinSystem τ) es) :
    RefusesOthers es := by
  rintro pre ds fs t u rfl hidle hothers hin hne
  have hds : ∀ e ∈ ds, e.task ≠ u := fun e he => hothers e (List.mem_append_left fs he)
  have hfs : ∀ e ∈ fs, e.task ≠ u := fun e he => hothers e (List.mem_append_right ds he)
  have hend := SpinOk.run hdepth
  have hlock := hend.spinSound.undisturbed t (.run u) hin (Ne.symm hne)
  -- the states before the second step of the call and at its end
  have hsplit : pre ++ .call u .tryLock :: (ds ++ .run u :: fs) =
      (pre ++ .call u .tryLock :: ds) ++ .run u :: fs := by simp
  have hmiddle : SpinOk (SpinSystem.run (pre ++ .call u .tryLock :: ds)) := by
    rw [hsplit, Runs.along_append] at hdepth
    exact .run hdepth.1
  have hrun : SpinSystem.run (pre ++ .call u .tryLock :: ds) =
      ds.foldl SpinSystem.step ((SpinSystem.run pre).step (.call u .tryLock)) := by
    simp [SpinSystem.run]
  have hrunEnd : SpinSystem.run (pre ++ .call u .tryLock :: (ds ++ .run u :: fs)) =
      fs.foldl SpinSystem.step ((SpinSystem.run (pre ++ .call u .tryLock :: ds)).step (.run u)) := by
    simp [SpinSystem.run]
  obtain ⟨hpoint, hheld, hsame, hnext⟩ := tryLock_point (s := SpinSystem.run pre) hidle hds hfs
  rw [← hrun] at hpoint hheld hsame hnext
  rw [← hrunEnd] at hheld hnext
  -- a task that is not inside at the end was not inside in the middle
  have hout : ¬ Inside (SpinSystem.run (pre ++ .call u .tryLock :: ds)) u := by
    intro hinside
    unfold Inside at hinside
    rw [hpoint, ← hheld] at hinside
    have hpos : (SpinSystem.run (pre ++ .call u .tryLock :: (ds ++ .run u :: fs))).held u ≠ 0 := by
      simpa [isInside, isAcquiring] using hinside
    exact hne (hend.spinSound.exclusive t u hin (isInside_of_ne _ hpos))
  have hlow := hnext (hmiddle.owner_ne hout)
  refine ⟨?_, ?_, ?_, ?_⟩
  · rcases hend.holder with ⟨-, hnobody⟩ | ⟨w, -, hshown, -⟩
    · exact absurd hin (hnobody t)
    · simp only [SpinSystem.stepResult]
      rw [hlow, hshown]
      rfl
  · simp only [SpinSystem.run, List.foldl_append, List.foldl_cons, List.foldl_nil, SpinSystem.step,
      SpinSystem.stepResult]
    split
    · rfl
    · rfl
  · rw [← List.cons_append, ← List.append_assoc]
    have happ : SpinSystem.run ((pre ++ .call u .tryLock :: ds) ++ [.run u]) =
        (SpinSystem.run (pre ++ .call u .tryLock :: ds)).step (.run u) := by
      simp [SpinSystem.run]
    rw [happ]
    exact hsame
  · rw [← hlock]
    simp [SpinSystem.run]

/-- **Recursive spin lock.**  In every interleaving of the steps of any number of tasks, none of which nests more
than `0xFFFE` acquisitions, the lock and its tasks agree between any two steps, and `TryLock` refuses the tasks
that are not inside. -/
theorem run_spinLock (hdepth : Runs.Along SpinSystem.step WithinDepth (SpinSystem.initial : SpinSystem τ) es) :
    SpinSound (SpinSystem.run es) ∧ RefusesOthers es := by
  constructor
  · exact (SpinOk.run hdepth).spinSound
  · exact SpinOk.refusesOthers hdepth

/-- Task 0 locks. -/
def zeroLocks : List (SpinEvent (Fin 2)) := .call 0 .lock :: List.replicate 6 (.run 0)

/-- `TryLock` of task 1 is refused. -/
theorem zeroLocks_refuses :
    ((SpinSystem.run (zeroLocks ++ [.call 1 .tryLock, .run 1])).stepResult (.run 1)).2 = some (.tryLock false) := by
  have hspin := @run_spinLock (Fin 2) _ (zeroLocks ++ [.call 1 .tryLock, .run 1]) (by decide +kernel)
  refine (hspin.2 zeroLocks [] [] 0 1 rfl (by decide +kernel) ?_ (by unfold Inside; decide +kernel) (by decide)).1
  intro e he
  cases he

/-- The only task has locked `k` times. -/
def nested (k : ℕ) (faults : List SpinFault) : SpinSystem Unit :=
  ⟨⟨some (), k % 65536, true⟩, fun _ => .idle, fun _ => k, faults⟩

/-- One more `Lock` of the owner. -/
def relock : List (SpinEvent Unit) := .call () .lock :: List.replicate 5 (.run ())

theorem relock_nested {k : ℕ} (hk : k % 65536 ≠ 0) (faults : List SpinFault) :
    ∃ faults', relock.foldl SpinSystem.step (nested k faults) = nested (k + 1) faults' := by
  have hsame : ∀ {α : Type} (x y : α), Function.update (fun _ : Unit => x) () y = fun _ => y := by
    intro α x y
    funext u
    exact Function.update_self ..
  refine ⟨faults ++ (if k % 65536 < SpinLock.recursionMax then none else some .recursionMax).toList, ?_⟩
  simp [relock, nested, SpinSystem.step, SpinSystem.stepResult, SpinLock.advance, SpinLock.enter, hk, hsame,
    SpinSystem.heldAfter, acquired, up]

/-- The only task locks `k + 1` times. -/
def nesting (k : ℕ) : List (SpinEvent Unit) :=
  .call () .lock :: List.replicate 6 (.run ()) ++ (List.replicate k relock).flatten

theorem nesting_run {k : ℕ} (hk : k < 65536) : ∃ faults, SpinSystem.run (nesting k) = nested (k + 1) faults := by
  induction k with
  | zero =>
    have hsame : ∀ {α : Type} (x y : α), Function.update (fun _ : Unit => x) () y = fun _ => y := by
      intro α x y
      funext u
      exact Function.update_self ..
    refine ⟨[], ?_⟩
    simp [nesting, nested, SpinSystem.run, SpinSystem.initial, SpinSystem.step, SpinSystem.stepResult,
      SpinLock.initial, SpinLock.advance, SpinLock.enter, hsame, SpinSystem.heldAfter, acquired]
  | succ k ih =>
    obtain ⟨faults, hrun⟩ := ih (by omega)
    have hnonzero : (k + 1) % 65536 ≠ 0 := by omega
    obtain ⟨faults', hrelock⟩ := relock_nested hnonzero faults
    refine ⟨faults', ?_⟩
    have hsnoc : nesting (k + 1) = nesting k ++ relock := by
      simp [nesting, List.replicate_succ']
    unfold SpinSystem.run at hrun ⊢
    rw [hsnoc, List.foldl_append, hrun]
    exact hrelock

/-- Just after `m_lock.Lock()` the low-level lock is taken and no owner is recorded; and the count of `65536`
nested acquisitions is 0. -/
theorem spinLock_disagrees :
    ((SpinSystem.run [.call 0 .lock, .run 0, .run 0] : SpinSystem (Fin 2)).lock = ⟨none, 0, true⟩ ∧
      ¬ ((SpinSystem.run [.call 0 .lock, .run 0, .run 0] : SpinSystem (Fin 2)).lock.owner ≠ none ↔
        (SpinSystem.run [.call 0 .lock, .run 0, .run 0] : SpinSystem (Fin 2)).lock.isLocked = true)) ∧
    (SpinSystem.run (nesting 65535)).lock.owner = some () ∧
      (SpinSystem.run (nesting 65535)).held () = 65536 ∧
      (SpinSystem.run (nesting 65535)).lock.recursionCount ≠ (SpinSystem.run (nesting 65535)).held () := by
  have hlock : (SpinSystem.run [.call 0 .lock, .run 0, .run 0] : SpinSystem (Fin 2)).lock = ⟨none, 0, true⟩ := by
    decide +kernel
  obtain ⟨faults, hrun⟩ := nesting_run (k := 65535) (by decide)
  rw [hlock, hrun]
  refine ⟨⟨rfl, ?_⟩, rfl, rfl, ?_⟩
  · simp
  · simp [nested]

end Runs

end Stk.Analysis
