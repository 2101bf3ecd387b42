import Stk.Analysis.BlockedCalls

/-!
# Calls that wait in a loop

A method with a wait loop may be woken and blocked many times before it returns.  `blockedTicks`
counts the ticks that one call is blocked in all, and `WaitLoop.keeps` is the invariant rule for the
wait object of such a call along a run.
-/

set_option autoImplicit false

namespace Stk.Analysis

open Stk.Model Stk.Model.Kernel

variable {n : ℕ} {μ α φ ρ σ : Type} [SwitchStrategy (Fin n) σ] [Monitor μ α φ ρ] {cfg : Config}
  {s : MonitorSystem n μ φ σ} {i : Fin n}

/-- The ticks of an event in which the task in slot `i` is blocked. -/
def blockedIn (cfg : Config) (i : Fin n) (s : MonitorSystem n μ φ σ) (e : MonitorEvent n α) : ℕ :=
  if (s.kernel.tasks i).isWaiting then ((s.step cfg e).kernel.ticks - s.kernel.ticks).toNat else 0

/-- The ticks that the task in slot `i` is blocked along a run. -/
def blockedTicks (cfg : Config) (i : Fin n) (s : MonitorSystem n μ φ σ) (es : List (MonitorEvent n α)) : ℕ :=
  Runs.total (MonitorSystem.step cfg) (blockedIn cfg i) s es

/-- The call of slot `i` is not over before any event of the run. -/
def InCall (cfg : Config) (i : Fin n) (s : MonitorSystem n μ φ σ) (es : List (MonitorEvent n α)) : Prop :=
  Runs.Along (MonitorSystem.step cfg) (fun s _ => s.pending i ≠ none) s es

theorem blockedTicks_append (es : List (MonitorEvent n α)) (e : MonitorEvent n α) :
    blockedTicks cfg i s (es ++ [e]) =
      blockedTicks cfg i s es + blockedIn cfg i (es.foldl (MonitorSystem.step cfg) s) e := by
  unfold blockedTicks
  rw [Runs.total_append]
  rfl

/-- INTERNAL: without `KERNEL_TICKLESS` an event takes one tick at most. -/
theorem system_ticks_le (htickless : cfg.isTicklessMode = false) (s : MonitorSystem n μ φ σ) (e : MonitorEvent n α) :
    (s.step cfg e).kernel.ticks ≤ s.kernel.ticks + 1 := by
  cases ht : s.stretch cfg e with
  | some t =>
    rw [stretch_ticks ht]
    omega
  | none =>
    unfold MonitorSystem.step
    cases e with
    | kernel e =>
      rcases stepResult_kernel cfg s e with heq | ⟨heq, -, -⟩
      · rw [heq]
        dsimp only
        omega
      · rw [heq]
        show (s.kernel.step cfg e).ticks ≤ s.kernel.ticks + 1
        by_cases htick : ∀ d, e ≠ .onTick d
        · rw [step_ticks cfg s.kernel htick]
          omega
        · obtain ⟨d, rfl⟩ := not_forall_not.mp htick
          simp only [Kernel.step]
          split
          · next hvalid =>
            simp only [validElapsed, htickless, Bool.false_or, Bool.and_eq_true, decide_eq_true_eq] at hvalid
            rw [onTick_ticks, hvalid.2.2]
          · omega
    | _ =>
      rw [stepResult_none (by simp) ht]
      dsimp only
      omega

/-- A method with a wait loop, called as `op` at the time `start`: its frames, the timeout it computes for a
wait at a given time, and the condition of its loop. -/
structure WaitLoop (μ : Type) {α φ ρ : Type} [Monitor μ α φ ρ] (op : α) (start : ℤ) (frames : φ → Prop)
    (left : ℤ → ℤ) (taken : μ → Bool) : Prop where
  begins : ∀ {m : μ} {g}, (Monitor.call start m op).next = .wait g → frames g ∧ Monitor.timeout μ g = left start
  again : ∀ {ticks} {m : μ} {f g}, frames f → (Monitor.resume ticks m f .signal).next = .wait g →
    frames g ∧ Monitor.timeout μ g = left ticks ∧ taken m = true
  ends : ∀ {ticks} {m : μ} {f g}, frames f → (Monitor.resume ticks m f .timeout).next ≠ .wait g

namespace WaitLoop

variable {op : α} {start : ℤ} {frames : φ → Prop} {left : ℤ → ℤ} {taken : μ → Bool}

/-- **The invariant rule for wait loops.**  `W` is about the wait object of the call, the time and the ticks
the call has been blocked.  It is kept by every step of others, and `Q`, which holds of each resumption, makes
a new wait meet it. -/
theorem keeps (h : WaitLoop μ op start frames left taken) (hsync : cfg.isSyncMode = true)
    {Q : MonitorSystem n μ φ σ → ℕ → Prop} {W : WaitObject → ℤ → ℕ → Prop}
    (hstep : ∀ {k k' : Kernel n σ} {b : ℕ}, WaitStep i k k' →
      (cfg.isTicklessMode = false → k'.ticks ≤ k.ticks + 1) → W (k.tasks i).waitObj k.ticks b →
        W (k'.tasks i).waitObj k'.ticks
          (b + if (k.tasks i).isWaiting then (k'.ticks - k.ticks).toNat else 0))
    (hagain : ∀ {s : MonitorSystem n μ φ σ} {b : ℕ}, Q s b → s.kernel.waitResult i = some .signal →
      taken s.state = true → W (s.kernel.tasks i).waitObj s.kernel.ticks b →
        ∀ o, W ⟨some o, false, left s.kernel.ticks⟩ s.kernel.ticks b)
    (hblocked : Blocked s)
    (hfirst : ∀ f, s.pending i = some f → frames f ∧ W (s.kernel.tasks i).waitObj s.kernel.ticks 0)
    {es : List (MonitorEvent n α)} (hcall : InCall cfg i s es)
    (hQ : ∀ ds fs, es = ds ++ .resume i :: fs → Q (ds.foldl (MonitorSystem.step cfg) s) (blockedTicks cfg i s ds)) :
    let s' := es.foldl (MonitorSystem.step cfg) s
    Blocked s' ∧
      (∀ f, s'.pending i = some f →
        frames f ∧ W (s'.kernel.tasks i).waitObj s'.kernel.ticks (blockedTicks cfg i s es)) ∧
      (blockedTicks cfg i s es = 0 ∨ ∃ w t, W w t (blockedTicks cfg i s es)) := by
  induction es using List.reverseRecOn with
  | nil => exact ⟨hblocked, hfirst, .inl rfl⟩
  | append_singleton ds e ih =>
    unfold InCall at hcall
    rw [Runs.along_append] at hcall
    obtain ⟨hb, hkept, -⟩ := ih hcall.1 (fun ds' fs heq => hQ ds' (fs ++ [e]) (by rw [heq]; simp))
    obtain ⟨f, hf⟩ := Option.ne_none_iff_exists'.mp hcall.2.1
    obtain ⟨hframe, hW⟩ := hkept f hf
    rw [List.foldl_append, blockedTicks_append]
    have hresumed : e = .resume i →
        Q (ds.foldl (MonitorSystem.step cfg) s) (blockedTicks cfg i s ds) := by
      rintro rfl
      exact hQ ds [] rfl
    simp only [List.foldl_cons, List.foldl_nil]
    generalize ds.foldl (MonitorSystem.step cfg) s = s₁ at *
    generalize blockedTicks cfg i s ds = b at *
    have hb' := hb.step hsync e
    by_cases hother : e = .resume i → s₁.stretch cfg e = none
    · obtain ⟨hwait, hsame⟩ := hb.waitStep hsync hf hother
      have hW' := hstep hwait (fun htickless => system_ticks_le htickless s₁ e) hW
      refine ⟨hb', ?_, .inr ⟨_, _, hW'⟩⟩
      intro f' hf'
      obtain rfl := hsame f' hf'
      exact ⟨hframe, hW'⟩
    · -- the call's own next stretch takes no time
      obtain ⟨rfl, hran⟩ := Classical.not_imp.mp hother
      obtain ⟨t, ht⟩ := Option.ne_none_iff_exists'.mp hran
      have hticks := stretch_ticks ht
      have hzero : blockedIn cfg i s₁ (.resume i) = 0 := by
        unfold blockedIn
        rw [hticks, sub_self]
        split
        · rfl
        · rfl
      rw [hzero, Nat.add_zero]
      refine ⟨hb', ?_, .inr ⟨_, _, hW⟩⟩
      intro g hg
      obtain ⟨hnext, hobj⟩ := stretch_begins ht rfl hg
      obtain ⟨f', r, hf', hr, rfl⟩ := stretch_resume ht
      obtain rfl : f' = f := by
        rw [hf] at hf'
        exact (Option.some.inj hf').symm
      cases r with
      | timeout => exact absurd hnext (h.ends hframe)
      | signal =>
        obtain ⟨hframes, htimeout, htaken⟩ := h.again hframe hnext
        refine ⟨hframes, ?_⟩
        rw [hobj, htimeout, hticks]
        exact hagain (hresumed rfl) hr htaken hW _

end WaitLoop

end Stk.Analysis
