import Stk.Analysis.IntrusiveListRun
import Stk.Analysis.WaitLists
import Stk.Model.EventFlags
import Stk.Model.ReleaseWait

/-!
# A wait object that is linked twice

While no task waits that is linked, the lists of a release build are the sequences of the kernel's model
(`follow_agrees`).  A task whose infinite wait has run out is still linked to its sync object.  If it waits again, a release build links
it a second time, at the end of the list: it becomes the last entry while it still is the first, with no next one.
A `Set` then finds a list of this one entry, and the tasks behind it are woken no more (`rewait_hidesWaiter`).
-/

set_option autoImplicit false

namespace Stk.Analysis

open Stk.Model

/-! ## Where no assertion fails -/

section Agreement

variable {n : ℕ} {σ : Type} {r : ReleaseWaits n} {k : Kernel n σ} {i : Fin n} {o : SyncId}

variable {μ α φ ρ : Type} [SwitchStrategy (Fin n) σ] [Monitor μ α φ ρ] {s : ReleaseSystem n μ φ}
  {m : MonitorSystem n μ φ σ}

end Agreement

end Stk.Analysis

/-! ## A task that waits again while it is linked -/

namespace Stk.Model.ReleaseWaits

variable {n : ℕ} {k : ReleaseWaits n}

/-- The wait objects and lists of `k` at the time `t`, with the sleep counters `f`. -/
def sleeping (k : ReleaseWaits n) (t : ℤ) (f : Fin n → ℤ) : ReleaseWaits n :=
  { k with ticks := t, timeSleep := f }

/-- The counters `m` ticks later, up to the end of the first sleep. -/
def sleptFor (m : ℕ) (f : Fin n → ℤ) (i : Fin n) : ℤ := if f i < 0 then f i + m else f i

/-- INTERNAL: `ISyncObject::Tick` goes past a wait without a timeout. -/
theorem tickFrom_endless {e : ℤ} {i : Fin n} (htime : (k.waitObj i).timeWait = waitInfinite)
    (hflag : (k.waitObj i).timeout = false) (fuel : ℕ) :
    tickFrom e (fuel + 1) (some i) k = tickFrom e fuel (k.lists.entry i).next k := by
  have hobj : tickWaitObj (k.waitObj i) e = k.waitObj i := by
    unfold tickWaitObj
    rw [if_neg (not_not.mpr htime)]
  rw [tickFrom]
  simp only [hobj, Function.update_eq_self, hflag, Bool.false_eq_true, if_false]

/-- Ticks that find no wait to count down, up to the end of the first sleep. -/
theorem sleeping_ticks
    (hsync : ∀ t f, updateSyncObjects 1 k.syncList (k.sleeping t f) = some (k.sleeping t f)) (t : ℤ) (f : Fin n → ℤ)
    {m : ℕ} (hf : ∀ i, f i < 0 → f i + m ≤ 0) :
    (List.replicate m 1).foldlM onTick (k.sleeping t f) = some (k.sleeping (t + m) (sleptFor m f)) := by
  induction m with
  | zero =>
    have hzero : sleptFor 0 f = f := by
      funext i
      simp [sleptFor]
    simp [hzero]
  | succ m ih =>
    have hlast : (k.sleeping (t + m) (sleptFor m f)).onTick 1 =
        some (k.sleeping (t + (m + 1 : ℕ)) (sleptFor (m + 1) f)) := by
      have htick := hsync (t + m + 1) (sleptFor m f)
      have hcounters : (fun i => if sleptFor m f i < 0 then sleptFor m f i + 1 else sleptFor m f i) =
          sleptFor (m + 1) f := by
        funext i
        have hi := hf i
        unfold sleptFor
        push_cast at hi ⊢
        split
        · split
          · omega
          · omega
        · rfl
      show (updateSyncObjects 1 k.syncList (k.sleeping (t + m + 1) (sleptFor m f))).map _ = _
      rw [htick, Option.map_some, ← hcounters]
      push_cast
      rw [← Int.add_assoc]
      rfl
    have hbefore : ∀ i, f i < 0 → f i + m ≤ 0 := by
      intro i hi
      have hlt := hf i hi
      push_cast at hlt
      omega
    rw [List.replicate_succ', List.foldlM_append, ih hbefore]
    show ((k.sleeping (t + m) (sleptFor m f)).onTick 1).bind (fun k => some k) = _
    rw [hlast, Option.bind_some]

end Stk.Model.ReleaseWaits

namespace Stk.Analysis

open Stk.Model

/-- Task 0 waits for flag 1 and, a tick later, task 1 too, both without a timeout. -/
def twoFlagWaiters : List (ReleaseEvent 2 FlagsOp) :=
  [.call 0 (.wait false 1 0 waitInfinite 0), .onTick 1, .call 1 (.wait false 1 0 waitInfinite 1)]

/-- The two of them after `m` ticks more. -/
def blockedFlagWaiters (m : ℕ) : Option (ReleaseSystem 2 EventFlags FlagsFrame) :=
  (ReleaseSystem.run ⟨0⟩ twoFlagWaiters).map fun s =>
    { s with waits := s.waits.sleeping (s.waits.ticks + m) (ReleaseWaits.sleptFor m s.waits.timeSleep) }

/-- INTERNAL: ticks of the system. -/
theorem foldlM_ticks {n : ℕ} {μ α φ ρ : Type} [Monitor μ α φ ρ] (s : ReleaseSystem n μ φ) (m : ℕ) :
    (List.replicate m (.onTick 1)).foldlM ReleaseSystem.step s =
      ((List.replicate m 1).foldlM ReleaseWaits.onTick s.waits).map fun k => { s with waits := k } := by
  induction m generalizing s with
  | zero => rfl
  | succ m ih =>
    rw [List.replicate_succ, List.replicate_succ, List.foldlM_cons, List.foldlM_cons]
    show (((s.waits.onTick 1).map fun k => ({ s with waits := k }, none)).map Prod.fst).bind _ =
      ((s.waits.onTick 1).bind _).map _
    cases s.waits.onTick 1 with
    | none => rfl
    | some k => exact ih { s with waits := k }

/-- INTERNAL: nothing is counted down for two waiters without a timeout. -/
theorem sync_twoEndless {k : ReleaseWaits 2} (hlist : k.syncList = [cvFlags])
    (hhead : k.lists.head cvFlags = ⟨2, some 0, some 1⟩) (hfirst : (k.lists.entry 0).next = some 1)
    (hlast : (k.lists.entry 1).next = none)
    (hendless : ∀ i, (k.waitObj i).timeWait = waitInfinite ∧ (k.waitObj i).timeout = false) :
    ReleaseWaits.updateSyncObjects 1 k.syncList k = some k := by
  have htick : ReleaseWaits.tickFrom 1 (k.lists.head cvFlags).count (k.lists.head cvFlags).first k = some k := by
    rw [hhead]
    dsimp only
    rw [ReleaseWaits.tickFrom_endless (hendless 0).1 (hendless 0).2, hfirst,
      ReleaseWaits.tickFrom_endless (hendless 1).1 (hendless 1).2, hlast]
    rfl
  rw [hlist]
  unfold ReleaseWaits.updateSyncObjects
  rw [htick, Option.bind_some, if_neg (by rw [hhead]; decide)]
  rfl

theorem blockedFlagWaiters_run {m : ℕ} (hm : m ≤ 2147483646) (es : List (ReleaseEvent 2 FlagsOp)) :
    ReleaseSystem.run ⟨0⟩ (twoFlagWaiters ++ (List.replicate m (.onTick 1) ++ es)) =
      (blockedFlagWaiters m).bind fun s => es.foldlM ReleaseSystem.step s := by
  have hstate : (ReleaseSystem.run ⟨0⟩ twoFlagWaiters : Option (ReleaseSystem 2 EventFlags FlagsFrame)).map (fun s =>
      ((s.waits.timeSleep 0, s.waits.timeSleep 1), s.waits.syncList, s.waits.lists.head cvFlags,
        s.waits.lists.entry 0, s.waits.lists.entry 1, s.waits.waitObj 0, s.waits.waitObj 1)) =
      some ((-2147483646, -2147483647), [cvFlags], ⟨2, some 0, some 1⟩, ⟨some cvFlags, some 1, none⟩,
        ⟨some cvFlags, none, some 0⟩, ⟨some cvFlags, false, waitInfinite⟩, ⟨some cvFlags, false, waitInfinite⟩) := by
    rfl
  unfold blockedFlagWaiters
  unfold ReleaseSystem.run at hstate ⊢
  rw [List.foldlM_append]
  cases hs : twoFlagWaiters.foldlM ReleaseSystem.step (ReleaseSystem.initial (⟨0⟩ : EventFlags)) with
  | none =>
    rw [hs] at hstate
    cases hstate
  | some s =>
    rw [hs] at hstate
    simp only [Option.map_some, Option.some.injEq, Prod.mk.injEq] at hstate
    obtain ⟨⟨hzero, hone⟩, hlist, hhead, hentry₀, hentry₁, hobj₀, hobj₁⟩ := hstate
    have hsync : ∀ t f, ReleaseWaits.updateSyncObjects 1 s.waits.syncList (s.waits.sleeping t f) =
        some (s.waits.sleeping t f) := by
      intro t f
      refine sync_twoEndless (k := s.waits.sleeping t f) hlist hhead (congrArg DListEntry.next hentry₀)
        (congrArg DListEntry.next hentry₁) ?_
      intro i
      rcases Fin.exists_fin_two.mp ⟨i, rfl⟩ with rfl | rfl
      · exact ⟨congrArg WaitObject.timeWait hobj₀, congrArg WaitObject.timeout hobj₀⟩
      · exact ⟨congrArg WaitObject.timeWait hobj₁, congrArg WaitObject.timeout hobj₁⟩
    have hcounters : ∀ i, s.waits.timeSleep i < 0 → s.waits.timeSleep i + m ≤ 0 := by
      intro i _
      rcases Fin.exists_fin_two.mp ⟨i, rfl⟩ with rfl | rfl
      · omega
      · omega
    have hticks := ReleaseWaits.sleeping_ticks hsync s.waits.ticks s.waits.timeSleep hcounters
    have hblocked := foldlM_ticks s m
    have hsame : s.waits.sleeping s.waits.ticks s.waits.timeSleep = s.waits := rfl
    rw [hsame] at hticks
    rw [hticks, Option.map_some] at hblocked
    show (List.foldlM ReleaseSystem.step s (List.replicate m (.onTick 1) ++ es)) = _
    rw [List.foldlM_append, hblocked]
    rfl

/-- After `INT32_MAX` ticks the wait of task 0 has run out; it waits again.  Then flag 1 is set: task 1 stays linked
to `m_cv` with its predicate satisfied. -/
theorem rewait_hidesWaiter :
    ∃ s : ReleaseSystem 2 EventFlags FlagsFrame,
      ReleaseSystem.run ⟨0⟩ (twoFlagWaiters ++ (List.replicate 2147483646 (.onTick 1) ++
        [.resume 0, .isr (.set 1)])) = some s ∧
      ¬ ∀ i f, s.pending i = some f → (s.waits.waitObj i).syncObj = some cvFlags →
        s.state.isSatisfied f.flags f.options = false := by
  rw [blockedFlagWaiters_run le_rfl]
  have hstate : ((blockedFlagWaiters 2147483646).bind fun s =>
      [.resume 0, .isr (.set 1)].foldlM ReleaseSystem.step s).map (fun s => ((s.waits.waitObj 1).syncObj,
        (s.pending 1).map fun f => s.state.isSatisfied f.flags f.options)) = some (some cvFlags, some true) := by
    decide +kernel
  cases hs : (blockedFlagWaiters 2147483646).bind fun s =>
      [.resume 0, .isr (.set 1)].foldlM ReleaseSystem.step s with
  | none =>
    rw [hs] at hstate
    cases hstate
  | some s =>
    rw [hs] at hstate
    obtain ⟨hlinked, hframe⟩ := Prod.mk.inj (Option.some.inj hstate)
    obtain ⟨f, hf, hsat⟩ := Option.map_eq_some_iff.mp hframe
    refine ⟨s, rfl, ?_⟩
    intro hunsatisfied
    rw [hunsatisfied 1 f hf hlinked] at hsat
    cases hsat

end Stk.Analysis
