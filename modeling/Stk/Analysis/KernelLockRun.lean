import Mathlib.Algebra.Order.Ring.Nat
import Stk.Model.KernelLock

/-!
# Saving and restoring the kernel lock

`osKernelLock` and `osKernelUnlock` both return 0, and `osKernelRestoreLock(0)` unlocks.  It undoes
`osKernelLock` and goes on where `osKernelUnlock` left off: every unlock pair of a program takes the depth
down by two, as far as there is any (`LockProgram.run_spec`).
-/

set_option autoImplicit false

namespace Stk.Analysis

open Stk.Model KernelLock LockProgram

variable {nestingsMax : ℕ} {s s' : KernelLock} {r lock : ℤ}

/-- Every lock is an entry into the critical section, and the limit on the entries has been kept. -/
structure LockOk (nestingsMax : ℕ) (s : KernelLock) : Prop where
  locked_le : s.locked.toNat ≤ s.nesting.toNat
  nesting_le : s.nesting.toNat ≤ nestingsMax

/-- The depth goes from that of `s` to `depth`, and the critical section with it. -/
structure LockMoves (nestingsMax : ℕ) (s : KernelLock) (depth : ℕ) (s' : KernelLock) : Prop where
  ok : LockOk nestingsMax s'
  depth : s'.locked.toNat = depth
  nesting : s'.nesting.toNat + s.locked.toNat = s.nesting.toNat + s'.locked.toNat

theorem LockMoves.refl (h : LockOk nestingsMax s) : LockMoves nestingsMax s s.locked.toNat s := ⟨h, rfl, rfl⟩

theorem LockMoves.trans {s'' : KernelLock} {depth depth' : ℕ} (h : LockMoves nestingsMax s depth s')
    (h' : LockMoves nestingsMax s' depth' s'') : LockMoves nestingsMax s depth' s'' := by
  have hfirst := h.nesting
  have hsecond := h'.nesting
  exact ⟨h'.ok, h'.depth, by omega⟩

/-- The depth decides whether the lock is as before. -/
theorem LockMoves.eq_iff {depth : ℕ} (h : LockMoves nestingsMax s depth s') : s' = s ↔ depth = s.locked.toNat := by
  have hdepth := h.depth
  have hnesting := h.nesting
  constructor
  · rintro rfl
    exact hdepth.symm
  · intro hsame
    cases s with
    | mk locked nesting =>
      cases s' with
      | mk locked' nesting' =>
        dsimp only at *
        obtain rfl : locked' = locked := UInt32.toNat_inj.mp (hdepth.trans hsame)
        obtain rfl : nesting' = nesting := UInt8.toNat_inj.mp (by omega)
        rfl

/-! ## The three functions -/

/-- INTERNAL: an entry into the critical section that the limit allows. -/
theorem enterCriticalSection_spec (hmax : nestingsMax < 255) (h : LockOk nestingsMax s) :
    (s.enterCriticalSection nestingsMax).isSome = true ↔ s.nesting.toNat < nestingsMax := by
  have hle := h.nesting_le
  have hnext : (s.nesting + 1).toNat = s.nesting.toNat + 1 := by
    rw [UInt8.toNat_add]
    exact Nat.mod_eq_of_lt (by
      change s.nesting.toNat + 1 < 256
      omega)
  unfold enterCriticalSection
  rw [hnext]
  split
  · next hpanic =>
    simp only [Option.isSome_none, Bool.false_eq_true, false_iff]
    omega
  · next hok =>
    simp only [Option.isSome_some, true_iff]
    omega

theorem osKernelLock_isSome (hmax : nestingsMax < 255) (h : LockOk nestingsMax s) :
    (s.osKernelLock nestingsMax false).isSome = true ↔ s.nesting.toNat < nestingsMax := by
  unfold osKernelLock
  rw [if_neg Bool.false_ne_true, Option.isSome_map]
  exact enterCriticalSection_spec hmax h

/-- `osKernelLock` returns 0. -/
theorem osKernelLock_spec (hmax : nestingsMax < 255) (h : LockOk nestingsMax s)
    (hr : s.osKernelLock nestingsMax false = some (r, s')) :
    r = 0 ∧ LockMoves nestingsMax s (s.locked.toNat + 1) s' := by
  have hlt : s.nesting.toNat < nestingsMax := (osKernelLock_isSome hmax h).mp (by rw [hr]; rfl)
  have hle := h.locked_le
  unfold osKernelLock enterCriticalSection at hr
  rw [if_neg Bool.false_ne_true] at hr
  split at hr
  · cases hr
  · simp only [Option.map_some, Option.some.injEq, Prod.mk.injEq] at hr
    obtain ⟨rfl, rfl⟩ := hr
    have hlocked : (s.locked + 1).toNat = s.locked.toNat + 1 := by
      rw [UInt32.toNat_add]
      exact Nat.mod_eq_of_lt (by
        change s.locked.toNat + 1 < 4294967296
        omega)
    have hnesting : (s.nesting + 1).toNat = s.nesting.toNat + 1 := by
      rw [UInt8.toNat_add]
      exact Nat.mod_eq_of_lt (by
        change s.nesting.toNat + 1 < 256
        omega)
    refine ⟨rfl, ⟨⟨?_, ?_⟩, hlocked, ?_⟩⟩
    · dsimp only
      omega
    · dsimp only
      omega
    · dsimp only
      omega

/-- INTERNAL: the depth goes down by one. -/
theorem unlocked_moves (h : LockOk nestingsMax s) (hlocked : s.locked ≠ 0) :
    LockMoves nestingsMax s (s.locked.toNat - 1)
      ({ s with locked := s.locked - 1 } : KernelLock).exitCriticalSection := by
  have hle := h.locked_le
  have hmax := h.nesting_le
  have hpos : 0 < s.locked.toNat := by
    apply Nat.pos_of_ne_zero
    intro hzero
    exact hlocked (UInt32.toNat_inj.mp hzero)
  have hone : (s.locked - 1).toNat = s.locked.toNat - 1 := by
    apply UInt32.toNat_sub_of_le
    rw [UInt32.le_iff_toNat_le]
    exact hpos
  have hexit : (s.nesting - 1).toNat = s.nesting.toNat - 1 := by
    apply UInt8.toNat_sub_of_le
    rw [UInt8.le_iff_toNat_le]
    exact hpos.trans_le hle
  unfold exitCriticalSection
  refine ⟨⟨?_, ?_⟩, hone, ?_⟩
  · dsimp only
    omega
  · dsimp only
    omega
  · dsimp only
    omega

/-- `osKernelUnlock` never returns 1. -/
theorem osKernelUnlock_spec (h : LockOk nestingsMax s) :
    (s.osKernelUnlock false).1 ≠ 1 ∧ LockMoves nestingsMax s (s.locked.toNat - 1) (s.osKernelUnlock false).2 := by
  unfold osKernelUnlock
  rw [if_neg Bool.false_ne_true]
  split
  · next hzero =>
    have hne : osErrorResource ≠ 1 := by decide
    refine ⟨hne, h, ?_, rfl⟩
    rw [hzero]
    rfl
  · next hlocked => exact ⟨zero_ne_one, unlocked_moves h hlocked⟩

/-- `osKernelRestoreLock` of what the other two return unlocks. -/
theorem osKernelRestoreLock_spec (h : LockOk nestingsMax s) (hlock : lock ≠ 1) :
    ∃ r s', s.osKernelRestoreLock nestingsMax false lock = some (r, s') ∧
      LockMoves nestingsMax s (s.locked.toNat - 1) s' := by
  unfold osKernelRestoreLock
  rw [if_neg Bool.false_ne_true, if_neg hlock]
  split
  · next hzero =>
    refine ⟨_, _, rfl, h, ?_, rfl⟩
    rw [hzero]
    rfl
  · next hlocked => exact ⟨_, _, rfl, unlocked_moves h hlocked⟩

/-! ## Programs -/

namespace LockProgram

/-- A program that returns has unlocked twice for each unlock pair. -/
theorem run_spec (hmax : nestingsMax < 255) (program : LockProgram) (h : LockOk nestingsMax s)
    (hrun : program.run nestingsMax false s = some s') :
    LockMoves nestingsMax s (s.locked.toNat - 2 * program.unlocks) s' := by
  induction program generalizing s s' with
  | skip =>
    obtain rfl := Option.some.inj hrun
    exact .refl h
  | seq first second ihFirst ihSecond =>
    obtain ⟨s₁, hfirst, hsecond⟩ := Option.bind_eq_some_iff.mp hrun
    have hone := ihFirst h hfirst
    have htwo := hone.trans (ihSecond hone.ok hsecond)
    have hdepth := hone.depth
    have hsum : s₁.locked.toNat - 2 * second.unlocks =
        s.locked.toNat - 2 * (first.unlocks + second.unlocks) := by omega
    rw [hsum] at htwo
    exact htwo
  | lock body ih =>
    obtain ⟨⟨saved, s₁⟩, hlock, hrest⟩ := Option.bind_eq_some_iff.mp hrun
    obtain ⟨s₂, hbody, hrestore⟩ := Option.bind_eq_some_iff.mp hrest
    obtain ⟨rfl, hfirst⟩ := osKernelLock_spec hmax h hlock
    have hsecond := ih hfirst.ok hbody
    obtain ⟨r, s₃, heq, hthird⟩ := osKernelRestoreLock_spec hsecond.ok (zero_ne_one (α := ℤ))
    rw [heq] at hrestore
    obtain rfl : s₃ = s' := Option.some.inj hrestore
    have hall := (hfirst.trans hsecond).trans hthird
    have hdepth := hfirst.depth
    have hdepth' := hsecond.depth
    have hsum : s₂.locked.toNat - 1 = s.locked.toNat - 2 * body.unlocks := by omega
    rw [hsum] at hall
    exact hall
  | unlock body ih =>
    obtain ⟨s₂, hbody, hrestore⟩ := Option.bind_eq_some_iff.mp hrun
    obtain ⟨hne, hfirst⟩ := osKernelUnlock_spec h
    have hsecond := ih hfirst.ok hbody
    obtain ⟨r, s₃, heq, hthird⟩ := osKernelRestoreLock_spec hsecond.ok hne
    rw [heq] at hrestore
    obtain rfl : s₃ = s' := Option.some.inj hrestore
    have hall := (hfirst.trans hsecond).trans hthird
    have hdepth := hfirst.depth
    have hdepth' := hsecond.depth
    have hsum : s₂.locked.toNat - 1 = s.locked.toNat - 2 * (body.unlocks + 1) := by omega
    rw [hsum] at hall
    exact hall

/-- A program of lock pairs returns unless it is nested too deep. -/
theorem run_isSome (hmax : nestingsMax < 255) (program : LockProgram) (h : LockOk nestingsMax s)
    (hpairs : program.unlocks = 0) :
    (program.run nestingsMax false s).isSome = true ↔ s.nesting.toNat + program.height ≤ nestingsMax := by
  induction program generalizing s with
  | skip =>
    have hle := h.nesting_le
    simp only [LockProgram.run, Option.isSome_some, LockProgram.height, true_iff]
    omega
  | seq first second ihFirst ihSecond =>
    have hzero : first.unlocks = 0 ∧ second.unlocks = 0 := Nat.add_eq_zero_iff.mp hpairs
    have hfirst := ihFirst h hzero.1
    simp only [LockProgram.run, LockProgram.height]
    cases hrun : first.run nestingsMax false s with
    | none =>
      rw [hrun] at hfirst
      simp only [Option.isSome_none, Bool.false_eq_true, false_iff] at hfirst
      simp only [Option.bind_none, Option.isSome_none, Bool.false_eq_true, false_iff]
      omega
    | some s₁ =>
      rw [hrun] at hfirst
      simp only [Option.isSome_some, true_iff] at hfirst
      have hmoves := run_spec hmax first h hrun
      rw [hzero.1] at hmoves
      obtain rfl : s₁ = s := hmoves.eq_iff.mpr rfl
      rw [Option.bind_some, ihSecond h hzero.2]
      omega
  | lock body ih =>
    simp only [LockProgram.run, LockProgram.height]
    have hlock := osKernelLock_isSome hmax h
    cases hrun : s.osKernelLock nestingsMax false with
    | none =>
      rw [hrun] at hlock
      simp only [Option.isSome_none, Bool.false_eq_true, false_iff] at hlock
      simp only [Option.bind_none, Option.isSome_none, Bool.false_eq_true, false_iff]
      omega
    | some saved =>
      obtain ⟨r, s₁⟩ := saved
      obtain ⟨rfl, hfirst⟩ := osKernelLock_spec hmax h hrun
      have hbody := ih hfirst.ok hpairs
      have hnesting := hfirst.nesting
      have hdepth := hfirst.depth
      rw [Option.bind_some]
      cases hrun' : body.run nestingsMax false s₁ with
      | none =>
        rw [hrun'] at hbody
        simp only [Option.isSome_none, Bool.false_eq_true, false_iff] at hbody
        simp only [Option.bind_none, Option.isSome_none, Bool.false_eq_true, false_iff]
        omega
      | some s₂ =>
        rw [hrun'] at hbody
        simp only [Option.isSome_some, true_iff] at hbody
        obtain ⟨r, s₃, heq, -⟩ := osKernelRestoreLock_spec (run_spec hmax body hfirst.ok hrun').ok
          (zero_ne_one (α := ℤ))
        rw [Option.bind_some, heq, Option.map_some]
        simp only [Option.isSome_some, true_iff]
        omega
  | unlock body => cases hpairs

/-- INTERNAL: in an interrupt handler the functions do nothing. -/
theorem run_irq (program : LockProgram) (s : KernelLock) : program.run nestingsMax true s = some s := by
  induction program generalizing s with
  | skip => rfl
  | seq first second ihFirst ihSecond =>
    unfold LockProgram.run
    rw [ihFirst, Option.bind_some, ihSecond]
  | lock body ih =>
    unfold LockProgram.run osKernelLock
    rw [if_pos rfl, Option.bind_some, ih, Option.bind_some]
    rfl
  | unlock body ih =>
    unfold LockProgram.run osKernelUnlock
    rw [if_pos rfl]
    dsimp only
    rw [ih, Option.bind_some]
    rfl

end LockProgram

/-- **Saving and restoring the kernel lock.**  A program of lock and unlock pairs that returns leaves the depth
and the nesting of the critical section as they were exactly if it has no unlock pair, or starts with the
kernel unlocked, or runs in an interrupt handler.  One without unlock pairs returns unless its nesting goes
over the limit. -/
theorem run_kernelLock (irq : Bool) (program : LockProgram) (hmax : nestingsMax < 255)
    (h : LockOk nestingsMax s) :
    (∀ s', program.run nestingsMax irq s = some s' →
      (s' = s ↔ program.unlocks = 0 ∨ s.locked = 0 ∨ irq = true)) ∧
    (program.unlocks = 0 → irq = false →
      ((∃ s', program.run nestingsMax irq s = some s') ↔ s.nesting.toNat + program.height ≤ nestingsMax)) := by
  constructor
  · intro s' hrun
    cases irq with
    | true =>
      rw [LockProgram.run_irq] at hrun
      obtain rfl := Option.some.inj hrun
      exact iff_of_true rfl (.inr (.inr rfl))
    | false =>
      have hmoves := LockProgram.run_spec hmax program h hrun
      have hzero : s.locked = 0 ↔ s.locked.toNat = 0 := UInt32.toNat_inj.symm
      rw [hmoves.eq_iff, hzero]
      simp only [Bool.false_eq_true, or_false]
      omega
  · rintro hpairs rfl
    rw [← LockProgram.run_isSome hmax program h hpairs, Option.isSome_iff_exists]

/-- Nested lock pairs, started with the kernel locked once. -/
theorem nestedLocks_restored : (LockProgram.lock (.seq (.lock .skip) (.lock .skip))).run 16 false ⟨1, 1⟩ =
    some ⟨1, 1⟩ := by
  have hrun := run_kernelLock (s := ⟨1, 1⟩) false (.lock (.seq (.lock .skip) (.lock .skip)))
    (by decide : 16 < 255) ⟨by decide, by decide⟩
  obtain ⟨s', hs'⟩ := (hrun.2 rfl rfl).mpr (by decide)
  rw [hs', (hrun.1 s' hs').mpr (.inl rfl)]

/-- The lock is gone after an unlock pair. -/
theorem unlockPair_unlocks :
    (LockProgram.unlock .skip).Admissible 1 ∧ LockOk 16 ⟨1, 1⟩ ∧
      (LockProgram.unlock .skip).run 16 false ⟨1, 1⟩ = some ⟨0, 0⟩ := by
  refine ⟨⟨by decide, trivial⟩, ⟨by decide, by decide⟩, ?_⟩
  decide

end Stk.Analysis
