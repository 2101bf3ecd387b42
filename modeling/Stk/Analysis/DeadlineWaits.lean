import Stk.Analysis.PipeRefinement
import Stk.Analysis.TimeoutReport
import Stk.Analysis.WaitLoops
import Stk.Foundation.WrappedClock

/-!
# Wait loops with an absolute deadline

`EventFlags::Wait` and the bulk methods of the pipes add the timeout to the time of the call and keep the low
32 bits of the sum; before each wait they compare them with the low 32 bits of the time.  A call is right
about its timeout when the 32-bit time does not wrap around between the call and the deadline, and gives up
at once when it does (`run_deadlines`).
-/

set_option autoImplicit false

namespace Stk.Analysis

open Stk.Model Stk.Model.Kernel WrappedClock

/-- The values of the 32-bit time. -/
def clockRange : ℕ := 4294967296

/-- The 32-bit time does not wrap around from `t₀` on for `T` ticks: it passes no odd multiple of `2 ^ 31`. -/
def SameRound (t₀ T : ℤ) : Prop := t₀.bdiv clockRange = (t₀ + T).bdiv clockRange

/-! ## The rule -/

section Rule

variable {n : ℕ} {μ α φ ρ σ : Type} [SwitchStrategy (Fin n) σ] [Monitor μ α φ ρ] {cfg : Config}
  {i : Fin n} {t₀ T t : ℤ}

/-- A time less than half a round of the 32-bit time after the deadline `t₀ + T`.  With `KERNEL_TICKLESS`, where
one tick may take off `m_time_wait` what brings a negative one around, the 32-bit time has not wrapped around
since `t₀` either. -/
def WithinRound (cfg : Config) (t₀ T t : ℤ) : Prop :=
  t < t₀ + T + 2147483648 ∧ (cfg.isTicklessMode = true → t₀ + T ≤ t → SameRound t₀ (t - t₀))

/-- The task runs in time after its deadline. -/
def Prompt (cfg : Config) (t₀ T : ℤ) (s : MonitorSystem n μ φ σ) : Prop := WithinRound cfg t₀ T s.kernel.ticks

/-- A call of `op`, in any orderly run in which its task is never kept from running for long: it gives up only when
`T` ticks have elapsed since `t₀`; while it is blocked it has been blocked for fewer than `T` ticks, and without
`KERNEL_TICKLESS` it is blocked for `T` ticks at most. -/
def KeepsDeadline (n : ℕ) (σ : Type) [SwitchStrategy (Fin n) σ] (cfg : Config) (m₀ : μ) (op : α) (t₀ T : ℤ)
    (calledAt : ℤ → Prop) (gaveUp : ρ → Prop) : Prop :=
  ∀ (pre : List (MonitorEvent n α)) (i : Fin n) (es : List (MonitorEvent n α)),
    let s : MonitorSystem n μ φ σ := MonitorSystem.run cfg m₀ pre
    let s₁ := s.step cfg (.call i op)
    let s₂ := es.foldl (MonitorSystem.step cfg) s₁
    Runs.Along (MonitorSystem.step cfg) Orderly (MonitorSystem.initial m₀ : MonitorSystem n μ φ σ)
        (pre ++ .call i op :: es) →
      s.stretch cfg (.call i op) ≠ none → calledAt s.kernel.ticks → InCall cfg i s₁ es →
      (∀ ds fs, es = ds ++ .resume i :: fs → Prompt cfg t₀ T (ds.foldl (MonitorSystem.step cfg) s₁)) →
      (∀ r, gaveUp r → (s.stepResult cfg (.call i op)).2 = some r → T ≤ s.kernel.ticks - t₀) ∧
        (∀ r, gaveUp r → s₂.pending i ≠ none → Orderly s₂ (.resume i : MonitorEvent n α) → Prompt cfg t₀ T s₂ →
          (s₂.stepResult cfg (.resume i)).2 = some r → T ≤ s₂.kernel.ticks - t₀) ∧
        (s₂.pending i ≠ none → (s₂.kernel.tasks i).isWaiting = true → (blockedTicks cfg i s₁ es : ℤ) < T) ∧
        (cfg.isTicklessMode = false → (blockedTicks cfg i s₁ es : ℤ) ≤ T)

/-- A call of `op` at the time `t₀` that finds its condition unmet gives up before any tick. -/
def GivesUpAtOnce (n : ℕ) (σ : Type) [SwitchStrategy (Fin n) σ] (cfg : Config) (m₀ : μ) (op : α) (t₀ : ℤ)
    (unmet : μ → Bool) (gaveUp : ρ → Prop) : Prop :=
  ∀ (pre : List (MonitorEvent n α)) (i : Fin n),
    let s : MonitorSystem n μ φ σ := MonitorSystem.run cfg m₀ pre
    s.stretch cfg (.call i op) ≠ none → s.kernel.ticks = t₀ → unmet s.state = true →
      ∃ r, gaveUp r ∧ (s.stepResult cfg (.call i op)).2 = some r

/-- A call with a timeout keeps it if the 32-bit time does not wrap around, and gives up at once if it does. -/
def DeadlineByRound (n : ℕ) (σ : Type) [SwitchStrategy (Fin n) σ] (cfg : Config) (m₀ : μ) (op : α) (t₀ T : ℤ)
    (calledAt : ℤ → Prop) (unmet : μ → Bool) (gaveUp : ρ → Prop) : Prop :=
  (SameRound t₀ T → KeepsDeadline n σ cfg m₀ op t₀ T calledAt gaveUp) ∧
    (¬ SameRound t₀ T → GivesUpAtOnce n σ cfg m₀ op t₀ unmet gaveUp)

/-- INTERNAL: the first round begins with the whole timeout. -/
theorem WithinRound.start (hpos : 0 < T) : WithinRound cfg t₀ T t₀ := by
  refine ⟨by omega, ?_⟩
  intro _ hle
  omega

/-- When the method gives up: with nothing left of its timeout. -/
structure GivesUp (μ : Type) {α φ ρ : Type} [Monitor μ α φ ρ] (ok : μ → Prop) (op : α) (start : ℤ)
    (frames : φ → Prop) (left : ℤ → ℤ) (unmet : μ → Bool) (gaveUp : ρ → Prop) : Prop where
  call : ∀ {m : μ} {r}, ok m → (Monitor.call start m op).next = .done r → gaveUp r → left start = 0
  signal : ∀ {ticks} {m : μ} {f r}, ok m → frames f → (Monitor.resume ticks m f .signal).next = .done r →
    gaveUp r → left ticks = 0
  early : ∀ {m : μ}, ok m → unmet m = true → left start = 0 → ∃ r, gaveUp r ∧ (Monitor.call start m op).next = .done r

/-- What is left of a deadline, up to half a round after it. -/
theorem remaining_spec (hT : T < waitInfinite) (hround : SameRound t₀ T) (hstart : t₀ ≤ t)
    (hend : t ≤ t₀ + T + 2147483648) :
    (t < t₀ + T → remaining clockRange (t₀ + T) t = t₀ + T - t) ∧
      (t₀ + T ≤ t → remaining clockRange (t₀ + T) t ≤ 0) := by
  have hinf : waitInfinite = 2147483647 := rfl
  have hrange : (clockRange : ℤ) = 4294967296 := rfl
  have hN : 0 < clockRange := by decide
  constructor
  · intro hlt
    exact remaining_before (bdiv_between hN hround hstart hlt.le) hlt (by omega)
  · intro hle
    exact remaining_after hN hle (by omega)

/-- The wait object of a call with a deadline, at the time `t` and after `b` blocked ticks. -/
structure OnDeadline (cfg : Config) (t₀ T : ℤ) (w : WaitObject) (t : ℤ) (b : ℕ) : Prop where
  elapsed : (b : ℤ) ≤ t - t₀
  -- a wait that is begun after the deadline ends with the next tick
  linked : w.syncObj ≠ none → (w.timeWait = t₀ + T - t ∧ 0 < t₀ + T - t) ∨
    (w.timeWait ≤ 0 ∧ t₀ + T ≤ t ∧ (b : ℤ) < T)
  signalled : w.syncObj = none → w.timeout = false → (b : ℤ) < T
  expired : w.syncObj = none → w.timeout = true → t₀ + T ≤ t
  spent : cfg.isTicklessMode = false → (b : ℤ) ≤ T

/-- INTERNAL: a wait that goes on has not lasted as long as the timeout. -/
theorem OnDeadline.blocked_lt {w : WaitObject} {b : ℕ} (h : OnDeadline cfg t₀ T w t b) (hl : w.syncObj ≠ none) :
    (b : ℤ) < T := by
  have helapsed := h.elapsed
  rcases h.linked hl with ⟨-, hleft⟩ | ⟨-, -, hlt⟩
  · omega
  · exact hlt

/-- INTERNAL: a wait that is just begun. -/
theorem OnDeadline.fresh {b : ℕ} (hT : T < waitInfinite) (hround : SameRound t₀ T)
    (hend : t ≤ t₀ + T + 2147483648) (helapsed : (b : ℤ) ≤ t - t₀) (hlt : (b : ℤ) < T) (o : SyncId) :
    OnDeadline cfg t₀ T ⟨some o, false, remaining clockRange (t₀ + T) t⟩ t b := by
  obtain ⟨hbefore, hafter⟩ := remaining_spec hT hround (show t₀ ≤ t by omega) hend
  refine ⟨helapsed, ?_, ?_, ?_, fun _ => hlt.le⟩
  · intro _
    by_cases hdue : t < t₀ + T
    · exact .inl ⟨hbefore hdue, by omega⟩
    · exact .inr ⟨hafter (not_lt.mp hdue), not_lt.mp hdue, hlt⟩
  · intro hnone
    cases hnone
  · intro hnone
    cases hnone

omit [SwitchStrategy (Fin n) σ] in
/-- INTERNAL: a step of others. -/
theorem OnDeadline.step (hT : T < waitInfinite) {k k' : Kernel n σ} {b : ℕ} (hwait : WaitStep i k k')
    (hone : cfg.isTicklessMode = false → k'.ticks ≤ k.ticks + 1)
    (h : OnDeadline cfg t₀ T (k.tasks i).waitObj k.ticks b) :
    OnDeadline cfg t₀ T (k'.tasks i).waitObj k'.ticks
      (b + if (k.tasks i).isWaiting then (k'.ticks - k.ticks).toNat else 0) := by
  have hlinked : (k.tasks i).isWaiting = true ↔ (k.tasks i).waitObj.syncObj ≠ none := Option.isSome_iff_ne_none
  have helapsed := h.elapsed
  cases hwait with
  | kept hobj hle hticks =>
    rw [hobj]
    by_cases hl : (k.tasks i).waitObj.syncObj ≠ none
    · have hsame : k'.ticks = k.ticks := by
        rcases hticks with hsame | hnone | hinf
        · exact hsame
        · exact absurd hnone hl
        · have hinfinite : waitInfinite = 2147483647 := rfl
          rcases h.linked hl with ⟨htime, -⟩ | ⟨htime, -, -⟩
          · omega
          · omega
      rw [hsame, sub_self, if_pos (hlinked.mpr hl)]
      exact h
    · rw [if_neg (fun hw => hl (hlinked.mp hw)), Nat.add_zero]
      refine ⟨by omega, fun hne => absurd hne hl, h.signalled, ?_, h.spent⟩
      intro hnone hflag
      exact (h.expired hnone hflag).trans hle
  | counted e hpos hticks hl _ hleft hobj =>
    have hlt := h.blocked_lt hl
    rw [hobj, if_pos (hlinked.mpr hl)]
    rcases h.linked hl with ⟨htime, hrest⟩ | ⟨htime, -, -⟩
    · refine ⟨by omega, ?_, fun hnone => absurd hnone hl, fun hnone => absurd hnone hl, fun _ => by omega⟩
      intro _
      left
      dsimp only
      omega
    · omega
  | expired e hpos hticks hl _ hover hobj =>
    have hlt := h.blocked_lt hl
    rw [hobj, if_pos (hlinked.mpr hl)]
    refine ⟨by omega, fun hne => absurd rfl hne, ?_, ?_, ?_⟩
    · intro _ hflag
      cases hflag
    · intro _ _
      rcases h.linked hl with ⟨htime, -⟩ | ⟨-, hdue, -⟩
      · omega
      · omega
    · intro htickless
      have hle := hone htickless
      omega
  | signalled hticks hl hobj =>
    have hlt := h.blocked_lt hl
    rw [hobj, hticks, sub_self, if_pos (hlinked.mpr hl)]
    refine ⟨helapsed, fun hne => absurd rfl hne, fun _ _ => hlt, ?_, h.spent⟩
    intro _ hflag
    cases hflag

/-- A method that computes its deadline in 32 bits, in a run that does not cross a round. -/
theorem WaitLoop.keepsDeadline {op : α} {frames : φ → Prop} {unmet : μ → Bool} {calledAt : ℤ → Prop}
    {gaveUp : ρ → Prop} {ok : μ → Prop} {m₀ : μ}
    (hloop : ∀ start, calledAt start →
      WaitLoop μ op start frames (remaining clockRange (t₀ + T)) (fun _ => true))
    (hgives : ∀ start, calledAt start →
      GivesUp μ ok op start frames (remaining clockRange (t₀ + T)) unmet gaveUp)
    (hok : ∀ es : List (MonitorEvent n α), ok (MonitorSystem.run cfg m₀ es : MonitorSystem n μ φ σ).state)
    (hcalledAt : ∀ t, calledAt t → t₀ ≤ t ∧ WithinRound cfg t₀ T t) (hsync : cfg.isSyncMode = true)
    (hpos : 0 < T) (hT : T < waitInfinite) (hround : SameRound t₀ T) :
    KeepsDeadline n σ cfg m₀ op t₀ T calledAt gaveUp := by
  intro pre i es s s₁ s₂ _ hmade hcalled hcall hprompt
  obtain ⟨t, ht⟩ := Option.ne_none_iff_exists'.mp hmade
  have hblocked : Blocked s := .run hsync m₀ pre
  obtain ⟨hstart, hend, -⟩ := hcalledAt _ hcalled
  have hfirst : ∀ f, s₁.pending i = some f →
      frames f ∧ OnDeadline cfg t₀ T (s₁.kernel.tasks i).waitObj s₁.kernel.ticks 0 := by
    intro f hf
    obtain ⟨hnext, hobj⟩ := stretch_begins ht rfl hf
    have hticks := stretch_ticks ht
    obtain ⟨-, rfl⟩ := stretch_call ht
    obtain ⟨hframe, htimeout⟩ := (hloop _ hcalled).begins hnext
    rw [hobj, htimeout, hticks]
    exact ⟨hframe, .fresh hT hround hend.le (by omega) (by omega) _⟩
  have hkeeps := (hloop _ hcalled).keeps hsync (W := OnDeadline cfg t₀ T) (Q := fun s _ => Prompt cfg t₀ T s)
    (fun hwait hone hW => hW.step hT hwait hone)
    (fun {s b} hQ hsignal _ hW o => by
      have hflag : (s.kernel.tasks i).waitObj.timeout = false := waitResult_flag hsignal
      have hlt : (b : ℤ) < T := by
        by_cases hl : (s.kernel.tasks i).waitObj.syncObj ≠ none
        · exact hW.blocked_lt hl
        · exact hW.signalled (not_not.mp hl) hflag
      exact .fresh hT hround hQ.1.le hW.elapsed hlt o)
    (hblocked.step hsync _) hfirst hcall hprompt
  obtain ⟨hb₂, hW, hspent⟩ := hkeeps
  -- nothing is left of the timeout from the deadline on only
  have hzero : ∀ t, t₀ ≤ t → t ≤ t₀ + T + 2147483648 → remaining clockRange (t₀ + T) t = 0 → T ≤ t - t₀ := by
    intro t hfrom hupto hnothing
    by_contra hlt
    have hbefore := (remaining_spec hT hround hfrom hupto).1 (by omega)
    omega
  refine ⟨?_, ?_, ?_, ?_⟩
  · intro r hr hresult
    have hnext := ((stepResult_some ht).2.1 r).mp hresult
    obtain ⟨-, rfl⟩ := stretch_call ht
    exact hzero _ hstart hend.le ((hgives _ hcalled).call (hok pre) hnext hr)
  · intro r hr hpending _ hprompt₂ hresult
    obtain ⟨f, hf⟩ := Option.ne_none_iff_exists'.mp hpending
    obtain ⟨hframe, hon⟩ := hW f hf
    have helapsed : ((blockedTicks cfg i s₁ es : ℕ) : ℤ) ≤ s₂.kernel.ticks - t₀ := hon.elapsed
    cases ht₂ : s₂.stretch cfg (.resume i) with
    | none =>
      rw [(stepResult_of_none ht₂).2.1] at hresult
      cases hresult
    | some t₂ =>
      have hnext := ((stepResult_some ht₂).2.1 r).mp hresult
      obtain ⟨f', result, hf', hwait, rfl⟩ := stretch_resume ht₂
      obtain rfl : f' = f := by
        rw [hf] at hf'
        exact (Option.some.inj hf').symm
      cases result with
      | timeout =>
        have hflag : (s₂.kernel.tasks i).waitObj.timeout = true := waitResult_flag hwait
        have hunlinked : (s₂.kernel.tasks i).waitObj.syncObj = none := by
          by_contra hl
          rw [(hb₂.armed i f' hf hl).2] at hflag
          cases hflag
        have hdue : t₀ + T ≤ s₂.kernel.ticks := hon.expired hunlinked hflag
        omega
      | signal =>
        have hok₂ : ok s₂.state := by
          have hrun : s₂ = MonitorSystem.run cfg m₀ (pre ++ .call i op :: es) := by
            unfold MonitorSystem.run
            rw [List.foldl_append]
            rfl
          rw [hrun]
          exact hok _
        apply hzero _ _ hprompt₂.1.le ((hgives _ hcalled).signal hok₂ hframe hnext hr)
        omega
  · intro hpending hwaiting
    obtain ⟨f, hf⟩ := Option.ne_none_iff_exists'.mp hpending
    exact (hW f hf).2.blocked_lt (Option.isSome_iff_ne_none.mp hwaiting)
  · intro htickless
    rcases hspent with hzero | ⟨w, t, hon⟩
    · rw [hzero]
      omega
    · exact hon.spent htickless

/-- The same method across a round. -/
theorem GivesUp.atOnce {op : α} {frames : φ → Prop} {unmet : μ → Bool} {gaveUp : ρ → Prop} {ok : μ → Prop}
    (h : GivesUp μ ok op t₀ frames (remaining clockRange (t₀ + T)) unmet gaveUp) (hpos : 0 < T)
    (hT : T < waitInfinite) (hround : ¬ SameRound t₀ T) {m₀ : μ}
    (hok : ∀ es : List (MonitorEvent n α), ok (MonitorSystem.run cfg m₀ es : MonitorSystem n μ φ σ).state) :
    GivesUpAtOnce n σ cfg m₀ op t₀ unmet gaveUp := by
  intro pre i s hmade hticks hunmet
  have hinf : waitInfinite = 2147483647 := rfl
  have hrange : (clockRange : ℤ) = 4294967296 := rfl
  have hN : 0 < clockRange := by decide
  have hacross : remaining clockRange (t₀ + T) t₀ = 0 := by
    have hle : t₀.bdiv clockRange ≤ (t₀ + T).bdiv clockRange := bdiv_mono hN (by omega)
    exact remaining_across hN (lt_of_le_of_ne hle hround) (by omega)
  obtain ⟨r, hr, hnext⟩ := h.early (hok pre) hunmet hacross
  obtain ⟨t, ht⟩ := Option.ne_none_iff_exists'.mp hmade
  refine ⟨r, hr, ((stepResult_some ht).2.1 r).mpr ?_⟩
  obtain ⟨-, rfl⟩ := stretch_call ht
  rw [hticks]
  exact hnext

/-- INTERNAL: giving up at once is giving up too early. -/
theorem GivesUpAtOnce.not_keepsDeadline {op : α} {unmet : μ → Bool} {calledAt : ℤ → Prop} {gaveUp : ρ → Prop}
    {m₀ : μ} (h : GivesUpAtOnce n σ cfg m₀ op t₀ unmet gaveUp) (hpos : 0 < T) (hcalled : calledAt t₀)
    {pre : List (MonitorEvent n α)} {i : Fin n}
    (horderly : Runs.Along (MonitorSystem.step cfg) Orderly (MonitorSystem.initial m₀ : MonitorSystem n μ φ σ)
      (pre ++ [.call i op]))
    (hmade : (MonitorSystem.run cfg m₀ pre : MonitorSystem n μ φ σ).stretch cfg (.call i op) ≠ none)
    (hticks : (MonitorSystem.run cfg m₀ pre : MonitorSystem n μ φ σ).kernel.ticks = t₀)
    (hunmet : unmet (MonitorSystem.run cfg m₀ pre : MonitorSystem n μ φ σ).state = true) :
    ¬ KeepsDeadline n σ cfg m₀ op t₀ T calledAt gaveUp := by
  intro hkeeps
  obtain ⟨r, hr, hresult⟩ := h pre i hmade hticks hunmet
  have hnothing := hkeeps pre i [] horderly hmade (by rw [hticks]; exact hcalled) trivial (by simp)
  have helapsed := hnothing.1 r hr hresult
  rw [hticks] at helapsed
  omega

/-- A method that computes its deadline in 32 bits, in any run. -/
theorem DeadlineByRound.of_loop {op : α} {frames : φ → Prop} {unmet : μ → Bool} {calledAt : ℤ → Prop}
    {gaveUp : ρ → Prop} {ok : μ → Prop} {m₀ : μ}
    (hloop : ∀ start, calledAt start →
      WaitLoop μ op start frames (remaining clockRange (t₀ + T)) (fun _ => true))
    (hgives : ∀ start, calledAt start →
      GivesUp μ ok op start frames (remaining clockRange (t₀ + T)) unmet gaveUp)
    (hok : ∀ es : List (MonitorEvent n α), ok (MonitorSystem.run cfg m₀ es : MonitorSystem n μ φ σ).state)
    (hstart : calledAt t₀) (hcalledAt : ∀ t, calledAt t → t₀ ≤ t ∧ WithinRound cfg t₀ T t)
    (hsync : cfg.isSyncMode = true) (hpos : 0 < T) (hT : T < waitInfinite) :
    DeadlineByRound n σ cfg m₀ op t₀ T calledAt unmet gaveUp := by
  constructor
  · intro hround
    exact WaitLoop.keepsDeadline hloop hgives hok hcalledAt hsync hpos hT hround
  · intro hround
    exact (hgives t₀ hstart).atOnce hpos hT hround hok

end Rule

/-! ## Event flags -/

section Flags

open EventFlags

variable {T t₀ start : ℤ} {m : EventFlags} {flags options : BitVec 32}

/-- INTERNAL: the head of the loop of `Wait`, with a deadline. -/
theorem waitFrom_deadline (ticks deadline : ℤ) (hno : m.isSatisfied flags options = false) :
    m.waitFrom ticks flags options true (toInt32 deadline) =
      if remaining clockRange deadline ticks ≠ 0 then
        ⟨m, [], .wait ⟨flags, options, true, toInt32 deadline, remaining clockRange deadline ticks⟩⟩
      else ⟨m, [], .done errorTimeout⟩ := by
  unfold waitFrom
  rw [if_neg (by rw [hno]; simp)]
  rfl

/-- INTERNAL: a call with a finite timeout captures its deadline. -/
theorem wait_timed (hne : T ≠ 0) (hinf : T ≠ waitInfinite) (hvalid : isValid flags = true) (ticks : ℤ)
    (m : EventFlags) :
    m.wait ticks false flags options T t₀ = m.waitFrom ticks flags options true (toInt32 (t₀ + T)) := by
  have htimed : (decide (T ≠ waitInfinite) && decide (T ≠ 0)) = true := by
    simp only [Bool.and_eq_true, decide_eq_true_eq]
    exact ⟨hinf, hne⟩
  simp only [wait, hvalid, htimed, Bool.not_true, Bool.false_and, if_true]
  rfl

/-- INTERNAL: a finite timeout is a deadline. -/
theorem wait_deadline (hpos : 0 < T) (hT : T < waitInfinite) (hvalid : isValid flags = true) (ticks : ℤ)
    (m : EventFlags) :
    m.wait ticks false flags options T t₀ = m.waitFrom ticks flags options true (toInt32 (t₀ + T)) :=
  wait_timed hpos.ne' hT.ne hvalid ticks m

/-- The frames of a call of `Wait` with the deadline `t₀ + T`. -/
def FlagsFrames (flags options : BitVec 32) (t₀ T : ℤ) (f : FlagsFrame) : Prop :=
  isValid flags = true ∧ f = ⟨flags, options, true, toInt32 (t₀ + T), f.remaining⟩

/-- A call of `Wait` that is valid and finds its predicate unsatisfied. -/
def flagsUnmet (insideIsr : Bool) (flags options : BitVec 32) (m : EventFlags) : Bool :=
  isValid flags && !insideIsr && !m.isSatisfied flags options

/-- INTERNAL: a round of the loop waits for the rest of the time. -/
theorem waitFrom_wait_deadline {ticks deadline : ℤ} {g : FlagsFrame}
    (h : (m.waitFrom ticks flags options true (toInt32 deadline)).next = .wait g) :
    g = ⟨flags, options, true, toInt32 deadline, remaining clockRange deadline ticks⟩ := by
  obtain ⟨-, -, hno, -⟩ := waitFrom_wait h
  rw [waitFrom_deadline ticks deadline hno] at h
  split at h
  · exact (Mesa.Next.wait.inj h).symm
  · cases h

/-- INTERNAL: the loop gives up where no time is left. -/
theorem waitFrom_gives_up {ticks deadline : ℤ} (hvalid : isValid flags = true)
    (h : (m.waitFrom ticks flags options true (toInt32 deadline)).next = .done errorTimeout) :
    remaining clockRange deadline ticks = 0 := by
  cases hsat : m.isSatisfied flags options with
  | true =>
    unfold waitFrom at h
    rw [if_pos hsat] at h
    exact absurd h (satisfied_not_timeout hvalid)
  | false =>
    rw [waitFrom_deadline ticks deadline hsat] at h
    split at h
    · cases h
    · next hzero => exact not_not.mp hzero

/-- INTERNAL: a call that does not return at once is a valid one of a task. -/
theorem wait_cases (hpos : 0 < T) (t₀ : ℤ) (insideIsr : Bool) (ticks : ℤ) (m : EventFlags) :
    (∃ r, r ≠ errorTimeout ∧ m.wait ticks insideIsr flags options T t₀ = ⟨m, [], .done r⟩) ∨
      (isValid flags = true ∧ insideIsr = false) := by
  cases hvalid : isValid flags with
  | false =>
    refine .inl ⟨errorParameter, by decide, ?_⟩
    simp [wait, hvalid]
  | true =>
    cases insideIsr with
    | false => exact .inr ⟨rfl, rfl⟩
    | true =>
      refine .inl ⟨errorIsr, by decide, ?_⟩
      have hne : T ≠ 0 := by omega
      simp [wait, hvalid, hne]

/-- `Wait` of event flags is a loop with a deadline. -/
theorem flagsWait_loop (hpos : 0 < T) (hT : T < waitInfinite) (insideIsr : Bool) :
    WaitLoop EventFlags (.wait insideIsr flags options T t₀) start (FlagsFrames flags options t₀ T)
      (remaining clockRange (t₀ + T)) (fun _ => true) where
  begins {m g} h := by
    change (m.wait start insideIsr flags options T t₀).next = .wait g at h
    rcases wait_cases hpos t₀ insideIsr start m with ⟨r, -, hr⟩ | ⟨hvalid, rfl⟩
    · rw [hr] at h
      cases h
    · rw [wait_deadline hpos hT hvalid] at h
      obtain rfl := waitFrom_wait_deadline h
      exact ⟨⟨hvalid, rfl⟩, rfl⟩
  again {ticks m f g} hframe h := by
    obtain ⟨hvalid, hf⟩ := hframe
    rw [hf] at h
    obtain rfl := waitFrom_wait_deadline h
    exact ⟨⟨hvalid, rfl⟩, rfl, rfl⟩
  ends _ h := by cases h

/-- `Wait` of event flags gives up only where its flags are not set. -/
theorem flagsWait_gives_up (hpos : 0 < T) (hT : T < waitInfinite) (insideIsr : Bool) :
    GivesUp EventFlags (fun _ => True) (.wait insideIsr flags options T t₀) start
      (FlagsFrames flags options t₀ T) (remaining clockRange (t₀ + T)) (flagsUnmet insideIsr flags options) (· = errorTimeout) where
  call {m r} _ h hr := by
    obtain rfl := hr
    change (m.wait start insideIsr flags options T t₀).next = .done errorTimeout at h
    rcases wait_cases hpos t₀ insideIsr start m with ⟨r, hne, hr⟩ | ⟨hvalid, rfl⟩
    · rw [hr] at h
      exact absurd (Mesa.Next.done.inj h) hne
    · rw [wait_deadline hpos hT hvalid] at h
      exact waitFrom_gives_up hvalid h
  signal {ticks m f r} _ hframe h hr := by
    obtain rfl := hr
    obtain ⟨hvalid, hf⟩ := hframe
    rw [hf] at h
    exact waitFrom_gives_up hvalid h
  early {m} _ hunmet hzero := by
    simp only [flagsUnmet, Bool.and_eq_true, Bool.not_eq_true'] at hunmet
    obtain ⟨⟨hvalid, rfl⟩, hno⟩ := hunmet
    refine ⟨_, rfl, ?_⟩
    change (m.wait start false flags options T t₀).next = .done errorTimeout
    rw [wait_deadline hpos hT hvalid, waitFrom_deadline _ _ hno, if_neg (not_not.mpr hzero)]

end Flags

/-! ## Pipes -/

section Pipes

open PipeStorage

variable {μ E V X : Type} [PipeStorage μ E V X] {T t₀ ticks : ℤ} {m : μ} {src dst : ℕ → V}
  {count written readCount trigger maxCount fuel : ℕ} {ms : List (Mesa.Notify SyncId)}

/-- INTERNAL: what is left of a captured deadline. -/
theorem capture_remaining (hpos : 0 < T) (hT : T < waitInfinite) (t : ℤ) :
    (Deadline.capture t₀ T).remaining t = remaining clockRange (t₀ + T) t := by
  have htimed : (decide (T ≠ waitInfinite) && decide (T ≠ noWait)) = true := by
    have hzero : noWait = 0 := rfl
    simp only [Bool.and_eq_true, decide_eq_true_eq]
    omega
  unfold Deadline.capture Deadline.remaining
  rw [htimed]
  rfl

/-- INTERNAL: a round of `WriteBulk` waits for the rest of the time. -/
theorem writeBulkFrom_frame {d : Deadline} {g : PipeFrame E V X}
    (h : (writeBulkFrom ticks src count d fuel m written ms : PipeStorage.Stretch μ E V X).next = .wait g) :
    ∃ w, g = .writeBulk src count d w (d.remaining ticks) := by
  induction fuel generalizing m written ms with
  | zero => cases h
  | succ fuel ih =>
    unfold writeBulkFrom at h
    split at h
    · split at h
      · obtain ⟨rfl, -⟩ := waitOr_wait h
        exact ⟨written, rfl⟩
      · exact ih h
    · cases h

/-- INTERNAL: a round of `ReadBulk` waits for the rest of the time. -/
theorem readBulkFrom_frame {d : Deadline} {g : PipeFrame E V X}
    (h : (readBulkFrom ticks count d fuel m dst readCount ms : PipeStorage.Stretch μ E V X).next = .wait g) :
    ∃ dst' k, g = .readBulk dst' count d k (d.remaining ticks) := by
  induction fuel generalizing m dst readCount ms with
  | zero => cases h
  | succ fuel ih =>
    unfold readBulkFrom at h
    split at h
    · split at h
      · obtain ⟨rfl, -⟩ := waitOr_wait h
        exact ⟨dst, readCount, rfl⟩
      · exact ih h
    · cases h

/-- INTERNAL: a round of `ReadBulkTriggered` waits for the rest of the time. -/
theorem readBulkTriggeredFrom_frame {d : Deadline} {has : X} {g : PipeFrame E V X}
    (h : (readBulkTriggeredFrom ticks has m dst trigger maxCount d).next = .wait g) :
    g = .readBulkTriggered has dst trigger maxCount d (d.remaining ticks) := by
  unfold readBulkTriggeredFrom at h
  split at h
  · dsimp only at h
    split at h
    · cases h
    · exact (Mesa.Next.wait.inj h).symm
  · cases h

omit [PipeStorage μ E V X] in
/-- INTERNAL: a `Wait` returns at once with `NO_WAIT` only. -/
theorem waitOr_done {frame : PipeFrame E V X} {r r' : PipeReturn E V}
    (h : (waitOr m ms frame r).next = .done r') : frame.timeout = 0 ∧ r' = r := by
  unfold waitOr at h
  split at h
  · next hzero => exact ⟨hzero, (Mesa.Next.done.inj h).symm⟩
  · cases h

variable [FifoStorage μ E V X]

/-- INTERNAL: `WriteBulk` falls short only with nothing left of its timeout. -/
theorem writeBulkFrom_gives_up {d : Deadline} {r : PipeReturn E V} (hwf : FifoStorage.Wf m)
    (hfuel : count ≤ written + fuel)
    (h : (writeBulkFrom ticks src count d fuel m written ms : PipeStorage.Stretch μ E V X).next = .done r)
    (hshort : PipeReturn.moved r < count) : d.remaining ticks = 0 := by
  induction fuel generalizing m written ms with
  | zero =>
    obtain rfl := Mesa.Next.done.inj h
    simp only [PipeReturn.moved] at hshort
    omega
  | succ fuel ih =>
    unfold writeBulkFrom at h
    split at h
    · split at h
      · exact (waitOr_done h).1
      · next hfull =>
        have hroom : PipeStorage.count m ≠ capacity μ := by simpa [isFull] using hfull
        have hle := FifoStorage.count_le hwf
        obtain ⟨hwf', hlen, -⟩ := FifoStorage.fill hwf src written (count - written)
        exact ih hwf' (by omega) h
    · obtain rfl := Mesa.Next.done.inj h
      simp only [PipeReturn.moved] at hshort
      omega

/-- INTERNAL: `ReadBulk` falls short only with nothing left of its timeout. -/
theorem readBulkFrom_gives_up {d : Deadline} {r : PipeReturn E V} (hwf : FifoStorage.Wf m)
    (hfuel : count ≤ readCount + fuel)
    (h : (readBulkFrom ticks count d fuel m dst readCount ms : PipeStorage.Stretch μ E V X).next = .done r)
    (hshort : PipeReturn.moved r < count) : d.remaining ticks = 0 := by
  induction fuel generalizing m dst readCount ms with
  | zero =>
    obtain rfl := Mesa.Next.done.inj h
    simp only [PipeReturn.moved] at hshort
    omega
  | succ fuel ih =>
    unfold readBulkFrom at h
    split at h
    · split at h
      · exact (waitOr_done h).1
      · next hempty =>
        have hany : PipeStorage.count m ≠ 0 := by simpa [isEmpty] using hempty
        obtain ⟨hwf', hlen, -⟩ := FifoStorage.drain hwf dst readCount (count - readCount)
        exact ih hwf' (by omega) h
    · obtain rfl := Mesa.Next.done.inj h
      simp only [PipeReturn.moved] at hshort
      omega

/-- INTERNAL: `ReadBulkTriggered` returns fewer elements than its trigger only with nothing left of its
timeout. -/
theorem readBulkTriggeredFrom_gives_up {d : Deadline} {has : X} {r : PipeReturn E V} (hwf : FifoStorage.Wf m)
    (hclamped : trigger ≤ maxCount)
    (h : (readBulkTriggeredFrom ticks has m dst trigger maxCount d).next = .done r)
    (hshort : PipeReturn.moved r < trigger) : d.remaining ticks = 0 := by
  unfold readBulkTriggeredFrom at h
  split at h
  · dsimp only at h
    split at h
    · next hzero => exact hzero
    · cases h
  · next hready =>
    obtain rfl := Mesa.Next.done.inj h
    obtain ⟨-, hlen, -⟩ := FifoStorage.drain hwf dst 0 maxCount
    simp only [PipeReturn.moved] at hshort
    omega

/-- INTERNAL: the trigger level is no more than the count. -/
theorem clampTrigger_le (trigger maxCount : ℕ) : clampTrigger trigger maxCount ≤ maxCount := by
  unfold clampTrigger
  dsimp only
  generalize (if trigger = 0 then 1 else trigger) = t
  split
  · exact le_rfl
  · omega

/-- A bulk call that moves fewer elements than it has to. -/
def FallsShort (E V : Type) (required : ℕ) (r : PipeReturn E V) : Prop := PipeReturn.moved r < required

omit [FifoStorage μ E V X] in
/-- `WriteBulk` is a loop with a deadline. -/
theorem writeBulk_loop (hpos : 0 < T) (hT : T < waitInfinite) {start : ℤ} (hstart : start = t₀) :
    WaitLoop μ (.writeBulk (some src) count T) start
      (fun f => ∃ w t, f = .writeBulk src count (.capture t₀ T) w t) (remaining clockRange (t₀ + T))
      (fun _ => true) where
  begins {m g} h := by
    obtain rfl := hstart
    simp only [Monitor.call, PipeStorage.call] at h
    split at h
    · obtain ⟨w, rfl⟩ := writeBulkFrom_frame h
      exact ⟨⟨w, _, rfl⟩, capture_remaining hpos hT start⟩
    · cases h
  again {ticks m f g} hframe h := by
    obtain ⟨w, t, rfl⟩ := hframe
    obtain ⟨w', rfl⟩ := writeBulkFrom_frame h
    exact ⟨⟨w', _, rfl⟩, capture_remaining hpos hT ticks, rfl⟩
  ends {ticks m f g} hframe h := by
    obtain ⟨w, t, rfl⟩ := hframe
    cases h

omit [FifoStorage μ E V X] in
/-- `ReadBulk` is a loop with a deadline. -/
theorem readBulk_loop (hpos : 0 < T) (hT : T < waitInfinite) {start : ℤ} (hstart : start = t₀) :
    WaitLoop μ (.readBulk (some dst) count T) start
      (fun f => ∃ dst' k t, f = .readBulk dst' count (.capture t₀ T) k t) (remaining clockRange (t₀ + T))
      (fun _ => true) where
  begins {m g} h := by
    obtain rfl := hstart
    simp only [Monitor.call, PipeStorage.call] at h
    split at h
    · obtain ⟨dst', k, rfl⟩ := readBulkFrom_frame h
      exact ⟨⟨dst', k, _, rfl⟩, capture_remaining hpos hT start⟩
    · cases h
  again {ticks m f g} hframe h := by
    obtain ⟨dst', k, t, rfl⟩ := hframe
    obtain ⟨dst'', k', rfl⟩ := readBulkFrom_frame h
    exact ⟨⟨dst'', k', _, rfl⟩, capture_remaining hpos hT ticks, rfl⟩
  ends {ticks m f g} hframe h := by
    obtain ⟨dst', k, t, rfl⟩ := hframe
    cases h

omit [FifoStorage μ E V X] in
/-- `ReadBulkTriggered` is a loop with a deadline. -/
theorem readBulkTriggered_loop (hpos : 0 < T) (hT : T < waitInfinite) (has : X) {start : ℤ} (hstart : start = t₀) :
    WaitLoop μ (.readBulkTriggered has (some dst) trigger maxCount T) start
      (fun f => ∃ t, f = .readBulkTriggered has dst (clampTrigger trigger maxCount) maxCount (.capture t₀ T) t)
      (remaining clockRange (t₀ + T)) (fun _ => true) where
  begins {m g} h := by
    obtain rfl := hstart
    simp only [Monitor.call, PipeStorage.call] at h
    split at h
    · obtain rfl := readBulkTriggeredFrom_frame h
      exact ⟨⟨_, rfl⟩, capture_remaining hpos hT start⟩
    · cases h
  again {ticks m f g} hframe h := by
    obtain ⟨t, rfl⟩ := hframe
    obtain rfl := readBulkTriggeredFrom_frame h
    exact ⟨⟨_, rfl⟩, capture_remaining hpos hT ticks, rfl⟩
  ends {ticks m f g} hframe h := by
    obtain ⟨t, rfl⟩ := hframe
    cases h

/-- The bulk calls that would have to wait. -/
def writeBulkUnmet (count : ℕ) (m : μ) : Bool := decide (count ≠ 0) && isFull m

/-- There is nothing to read. -/
def readBulkUnmet (count : ℕ) (m : μ) : Bool := decide (count ≠ 0) && isEmpty m

/-- There is less to read than the trigger level. -/
def readBulkTriggeredUnmet (trigger maxCount : ℕ) (m : μ) : Bool :=
  decide (maxCount ≠ 0) && decide (PipeStorage.count m < clampTrigger trigger maxCount)

/-- `WriteBulk` gives up only where the pipe is full. -/
theorem writeBulk_gives_up (hpos : 0 < T) (hT : T < waitInfinite) {start : ℤ} (hstart : start = t₀) :
    GivesUp μ FifoStorage.Wf (.writeBulk (some src) count T) start
      (fun f => ∃ w t, f = .writeBulk src count (.capture t₀ T) w t) (remaining clockRange (t₀ + T))
      (writeBulkUnmet count) (FallsShort E V count) where
  call {m r} hwf h hshort := by
    obtain rfl := hstart
    rw [← capture_remaining hpos hT]
    simp only [Monitor.call, PipeStorage.call] at h
    split at h
    · exact writeBulkFrom_gives_up hwf (by omega) h hshort
    · next hzero =>
      simp only [FallsShort] at hshort
      omega
  signal {ticks m f r} hwf hframe h hshort := by
    obtain ⟨w, t, rfl⟩ := hframe
    rw [← capture_remaining hpos hT]
    exact writeBulkFrom_gives_up hwf (by omega) h hshort
  early {m} _ hunmet hzero := by
    obtain rfl := hstart
    simp only [writeBulkUnmet, Bool.and_eq_true, decide_eq_true_eq] at hunmet
    obtain ⟨hcount, hfull⟩ := hunmet
    rw [← capture_remaining hpos hT] at hzero
    refine ⟨.writeBulk 0, Nat.pos_of_ne_zero hcount, ?_⟩
    obtain ⟨c, rfl⟩ := Nat.exists_eq_succ_of_ne_zero hcount
    simp [Monitor.call, PipeStorage.call, writeBulkFrom, hfull, waitOr, PipeFrame.timeout, hzero, noWait]

/-- `ReadBulk` gives up only where the pipe is empty. -/
theorem readBulk_gives_up (hpos : 0 < T) (hT : T < waitInfinite) {start : ℤ} (hstart : start = t₀) :
    GivesUp μ FifoStorage.Wf (.readBulk (some dst) count T) start
      (fun f => ∃ dst' k t, f = .readBulk dst' count (.capture t₀ T) k t) (remaining clockRange (t₀ + T))
      (readBulkUnmet count) (FallsShort E V count) where
  call {m r} hwf h hshort := by
    obtain rfl := hstart
    rw [← capture_remaining hpos hT]
    simp only [Monitor.call, PipeStorage.call] at h
    split at h
    · exact readBulkFrom_gives_up hwf (by omega) h hshort
    · next hzero =>
      simp only [FallsShort] at hshort
      omega
  signal {ticks m f r} hwf hframe h hshort := by
    obtain ⟨dst', k, t, rfl⟩ := hframe
    rw [← capture_remaining hpos hT]
    exact readBulkFrom_gives_up hwf (by omega) h hshort
  early {m} _ hunmet hzero := by
    obtain rfl := hstart
    simp only [readBulkUnmet, Bool.and_eq_true, decide_eq_true_eq] at hunmet
    obtain ⟨hcount, hempty⟩ := hunmet
    rw [← capture_remaining hpos hT] at hzero
    refine ⟨.readBulk 0 (some dst), Nat.pos_of_ne_zero hcount, ?_⟩
    obtain ⟨c, rfl⟩ := Nat.exists_eq_succ_of_ne_zero hcount
    simp [Monitor.call, PipeStorage.call, readBulkFrom, hempty, waitOr, PipeFrame.timeout, hzero, noWait]

/-- `ReadBulkTriggered` gives up only below the trigger level. -/
theorem readBulkTriggered_gives_up (hpos : 0 < T) (hT : T < waitInfinite) (has : X) {start : ℤ}
    (hstart : start = t₀) :
    GivesUp μ FifoStorage.Wf (.readBulkTriggered has (some dst) trigger maxCount T) start
      (fun f => ∃ t, f = .readBulkTriggered has dst (clampTrigger trigger maxCount) maxCount (.capture t₀ T) t)
      (remaining clockRange (t₀ + T)) (readBulkTriggeredUnmet trigger maxCount)
      (FallsShort E V (clampTrigger trigger maxCount)) where
  call {m r} hwf h hshort := by
    obtain rfl := hstart
    rw [← capture_remaining hpos hT]
    simp only [Monitor.call, PipeStorage.call] at h
    split at h
    · exact readBulkTriggeredFrom_gives_up hwf (clampTrigger_le _ _) h hshort
    · next hzero =>
      have hle := clampTrigger_le trigger maxCount
      simp only [FallsShort] at hshort
      omega
  signal {ticks m f r} hwf hframe h hshort := by
    obtain ⟨t, rfl⟩ := hframe
    rw [← capture_remaining hpos hT]
    exact readBulkTriggeredFrom_gives_up hwf (clampTrigger_le _ _) h hshort
  early {m} hwf hunmet hzero := by
    obtain rfl := hstart
    simp only [readBulkTriggeredUnmet, Bool.and_eq_true, decide_eq_true_eq] at hunmet
    obtain ⟨hmax, hshort⟩ := hunmet
    rw [← capture_remaining hpos hT] at hzero
    obtain ⟨-, hlen, -⟩ := FifoStorage.drain hwf dst 0 maxCount
    have hle := clampTrigger_le trigger maxCount
    refine ⟨.readBulk (drain m dst 0 maxCount).1 (some (drain m dst 0 maxCount).2.1), ?_, ?_⟩
    · simp only [FallsShort, PipeReturn.moved]
      omega
    · simp [Monitor.call, PipeStorage.call, readBulkTriggeredFrom, hmax, hshort, hzero, noWait, drainAll]

/-- INTERNAL: the bulk methods of either class. -/
theorem bulk_deadlines {n : ℕ} {σ : Type} [SwitchStrategy (Fin n) σ] {cfg : Config} (hsync : cfg.isSyncMode = true)
    (hpos : 0 < T) (hT : T < waitInfinite) {m₀ : μ} (hwf : FifoStorage.Wf m₀) :
    (∀ (src : ℕ → V) (count : ℕ), DeadlineByRound n σ cfg m₀ (.writeBulk (some src) count T) t₀ T (· = t₀)
      (writeBulkUnmet count) (FallsShort E V count)) ∧
    (∀ (dst : ℕ → V) (count : ℕ), DeadlineByRound n σ cfg m₀ (.readBulk (some dst) count T) t₀ T (· = t₀)
      (readBulkUnmet count) (FallsShort E V count)) ∧
    ∀ (has : X) (dst : ℕ → V) (trigger maxCount : ℕ),
      DeadlineByRound n σ cfg m₀ (.readBulkTriggered has (some dst) trigger maxCount T) t₀ T (· = t₀)
        (readBulkTriggeredUnmet trigger maxCount) (FallsShort E V (clampTrigger trigger maxCount)) := by
  have hok : ∀ es : List (MonitorEvent n (PipeOp E V X)),
      FifoStorage.Wf (MonitorSystem.run cfg m₀ es : MonitorSystem n μ (PipeFrame E V X) σ).state := by
    intro es
    have hinitial : PipeOk (MonitorSystem.initial m₀ : MonitorSystem n μ (PipeFrame E V X) σ) (fun _ => []) :=
      ⟨hwf, fun i f hi => nomatch hi⟩
    exact (hinitial.run cfg es).1.wf
  have hcalledAt : ∀ t, t = t₀ → t₀ ≤ t ∧ WithinRound cfg t₀ T t := by
    intro t ht
    obtain rfl := ht
    exact ⟨le_rfl, .start hpos⟩
  refine ⟨?_, ?_, ?_⟩
  · intro src count
    exact .of_loop (fun _ => writeBulk_loop hpos hT) (fun _ => writeBulk_gives_up hpos hT) hok rfl hcalledAt
      hsync hpos hT
  · intro dst count
    exact .of_loop (fun _ => readBulk_loop hpos hT) (fun _ => readBulk_gives_up hpos hT) hok rfl hcalledAt
      hsync hpos hT
  · intro has dst trigger maxCount
    exact .of_loop (fun _ => readBulkTriggered_loop hpos hT has) (fun _ => readBulkTriggered_gives_up hpos hT has) hok rfl hcalledAt
      hsync hpos hT

end Pipes

/-! ## Results -/

section Results

variable {n : ℕ} {σ : Type} [SwitchStrategy (Fin n) σ] {cfg : Config} {T : ℤ}

/-- **Absolute deadlines.**  A call of `EventFlags::Wait` or of a bulk method of a pipe keeps its timeout of `T`
ticks, however often it is woken, in every orderly run, when the 32-bit time does not wrap around between the
call and the deadline, and gives up before any tick when it does. -/
theorem run_deadlines (hsync : cfg.isSyncMode = true) (hpos : 0 < T) (hT : T < waitInfinite) (t₀ : ℤ) :
    (∀ (m₀ : EventFlags) (insideIsr : Bool) (flags options : BitVec 32),
      DeadlineByRound n σ cfg m₀ (.wait insideIsr flags options T t₀) t₀ T
        (fun t => t₀ ≤ t ∧ WithinRound cfg t₀ T t) (flagsUnmet insideIsr flags options)
        (· = EventFlags.errorTimeout)) ∧
    (∀ (capacity elementSize : ℕ) (buffer : ℕ → UInt8), 0 < capacity →
      let p₀ : Pipe capacity elementSize := Pipe.initial buffer
      (∀ src count, DeadlineByRound n σ cfg p₀ (.writeBulk (some src) count T) t₀ T (· = t₀)
        (writeBulkUnmet count) (FallsShort _ _ count)) ∧
      (∀ dst count, DeadlineByRound n σ cfg p₀ (.readBulk (some dst) count T) t₀ T (· = t₀)
        (readBulkUnmet count) (FallsShort _ _ count)) ∧
      ∀ dst trigger maxCount,
        DeadlineByRound n σ cfg p₀ (.readBulkTriggered () (some dst) trigger maxCount T) t₀ T (· = t₀)
          (readBulkTriggeredUnmet trigger maxCount) (FallsShort _ _ (PipeStorage.clampTrigger trigger maxCount))) ∧
    ∀ (E : Type) (capacity : ℕ) (isScalar : Bool) (buffer : ℕ → E), 0 < capacity →
      let p₀ : PipeT E capacity isScalar := PipeT.initial buffer
      (∀ src count, DeadlineByRound n σ cfg p₀ (.writeBulk (some src) count T) t₀ T (· = t₀)
        (writeBulkUnmet count) (FallsShort _ _ count)) ∧
      ∀ dst count, DeadlineByRound n σ cfg p₀ (.readBulk (some dst) count T) t₀ T (· = t₀)
        (readBulkUnmet count) (FallsShort _ _ count) := by
  refine ⟨?_, ?_, ?_⟩
  · intro m₀ insideIsr flags options
    exact .of_loop (fun _ _ => flagsWait_loop hpos hT insideIsr) (fun _ _ => flagsWait_gives_up hpos hT insideIsr)
      (fun _ => trivial) ⟨le_rfl, .start hpos⟩ (fun _ ht => ht) hsync hpos hT
  · intro capacity elementSize buffer hcap p₀
    have hwf : FifoStorage.Wf p₀ := (⟨Nat.zero_le _, hcap, by simp⟩ : RingWf capacity 0 0 0)
    obtain ⟨hwrite, hread, htriggered⟩ := bulk_deadlines (n := n) (σ := σ) hsync hpos hT hwf
    exact ⟨hwrite, hread, htriggered ()⟩
  · intro E capacity isScalar buffer hcap p₀
    have hwf : FifoStorage.Wf p₀ := (⟨Nat.zero_le _, hcap, by simp⟩ : RingWf capacity 0 0 0)
    obtain ⟨hwrite, hread, -⟩ := bulk_deadlines (n := n) (σ := σ) hsync hpos hT hwf
    exact ⟨hwrite, hread⟩

end Results

section Runs

open EventFlags

/-- Task 0 waits one tick for flag 1, and the tick passes. -/
theorem oneTickWait_keeps :
    let s : MonitorSystem 2 EventFlags FlagsFrame (RoundRobin (Fin 2)) :=
      MonitorSystem.run syncConfig ⟨0⟩ (twoTasks.map .kernel)
    let s₁ := s.step syncConfig (.call 0 (.wait false 1 0 1 1))
    let s₂ := s₁.step syncConfig (.kernel (.onTick 1))
    1 ≤ s₂.kernel.ticks - 1 ∧ (blockedTicks syncConfig 0 s₁ [.kernel (.onTick 1)] : ℤ) ≤ 1 := by
  intro s s₁ s₂
  have hdeadlines := (@run_deadlines 2 (RoundRobin (Fin 2)) _ syncConfig 1 rfl (by decide) (by decide) 1).1
    ⟨0⟩ false 1 0
  have hprompt : ∀ ds fs, [.kernel (.onTick 1)] = ds ++ .resume 0 :: fs →
      Prompt syncConfig 1 1 (ds.foldl (MonitorSystem.step syncConfig) s₁) := by
    intro ds fs heq
    have hmem : (.resume 0 : MonitorEvent 2 FlagsOp) ∈ [.kernel (.onTick 1)] := by
      rw [heq]
      simp
    simp at hmem
  obtain ⟨-, hgives, -, hblocked⟩ := hdeadlines.1 (by unfold SameRound; decide) (twoTasks.map .kernel) 0
    [.kernel (.onTick 1)] (by decide +kernel) (by decide +kernel)
    (by unfold WithinRound SameRound; decide +kernel) (by unfold InCall; decide +kernel) hprompt
  refine ⟨?_, hblocked rfl⟩
  apply hgives errorTimeout rfl
  · decide +kernel
  · decide +kernel
  · unfold Prompt WithinRound SameRound
    decide +kernel
  · decide +kernel

/-- The only task of a kernel runs at the time `t`. -/
def alone (t : ℤ) (calls : List (TaskView (Fin 1) × StrategyCall (Fin 1))) : Kernel 1 (RoundRobin (Fin 1)) :=
  { (Kernel.run syncConfig [.addTask 0, .onStart] : Kernel 1 (RoundRobin (Fin 1))) with
    ticks := t
    calls := calls }

/-- INTERNAL: a tick of a kernel with one task that never sleeps. -/
theorem alone_onTick (t : ℤ) (calls : List (TaskView (Fin 1) × StrategyCall (Fin 1))) :
    ∃ calls', ((alone t calls).onTick syncConfig 1).1 = alone (t + 1) calls' := by
  have htasks : ((alone t calls).onTick syncConfig 1).1.tasks = (alone (t + 1) calls).tasks := by
    funext i
    obtain rfl : i = 0 := Subsingleton.elim _ _
    rfl
  have hrest : ((alone t calls).onTick syncConfig 1).1 =
      { alone (t + 1) ((alone t calls).onTick syncConfig 1).1.calls with
        tasks := ((alone t calls).onTick syncConfig 1).1.tasks } := rfl
  rw [htasks] at hrest
  exact ⟨_, hrest⟩

/-- The only task runs from the start on, for `ticks` ticks. -/
def aloneFor (ticks : ℕ) : List (MonitorEvent 1 FlagsOp) :=
  .kernel (.addTask 0) :: .kernel .onStart :: List.replicate ticks (.kernel (.onTick 1))

/-- INTERNAL: a run of ticks of a kernel with one task that never sleeps. -/
theorem aloneFor_run (ticks : ℕ) : ∃ calls,
    (MonitorSystem.run syncConfig ⟨0⟩ (aloneFor ticks) : MonitorSystem 1 EventFlags FlagsFrame
      (RoundRobin (Fin 1))) = ⟨alone ticks calls, ⟨0⟩, fun _ => none⟩ := by
  induction ticks with
  | zero => exact ⟨_, rfl⟩
  | succ ticks ih =>
    obtain ⟨calls, hrun⟩ := ih
    obtain ⟨calls', htick⟩ := alone_onTick ticks calls
    have hstep : (alone ticks calls).step syncConfig (.onTick 1) = alone (ticks + 1) calls' := htick
    refine ⟨calls', ?_⟩
    unfold aloneFor MonitorSystem.run at hrun ⊢
    rw [List.replicate_succ', ← List.cons_append, ← List.cons_append, List.foldl_append, hrun]
    show (⟨(alone ticks calls).step syncConfig (.onTick 1), ⟨0⟩, fun _ => none⟩ :
      MonitorSystem 1 EventFlags FlagsFrame (RoundRobin (Fin 1))) = _
    rw [hstep]
    rfl

/-- The run in which the task then calls `Wait` is orderly. -/
theorem aloneFor_orderly (ticks : ℕ) :
    Runs.Along (MonitorSystem.step syncConfig) Orderly
      (MonitorSystem.initial ⟨0⟩ : MonitorSystem 1 EventFlags FlagsFrame (RoundRobin (Fin 1)))
      (aloneFor ticks ++ [.call 0 (.wait false 1 0 1 2147483647)]) := by
  rw [Runs.along_append]
  constructor
  · refine Runs.Along.mono (P := fun _ e => e ∈ aloneFor ticks) ?_ (Runs.along_of_mem (fun _ he => he) _)
    intro s e he
    simp only [aloneFor, List.mem_cons, List.mem_replicate] at he
    rcases he with rfl | rfl | ⟨-, rfl⟩
    · trivial
    · trivial
    · trivial
  · obtain ⟨calls, hrun⟩ := aloneFor_run ticks
    unfold MonitorSystem.run at hrun
    rw [hrun]
    exact ⟨⟨rfl, rfl⟩, trivial⟩

/-- Just before the 32-bit time wraps around, a call with a timeout of one tick gives up with no tick elapsed. -/
theorem aloneFor_gives_up :
    ((MonitorSystem.run syncConfig ⟨0⟩ (aloneFor 2147483647) : MonitorSystem 1 EventFlags FlagsFrame
        (RoundRobin (Fin 1))).stepResult syncConfig (.call 0 (.wait false 1 0 1 2147483647))).2 =
      some errorTimeout ∧
    ¬ KeepsDeadline 1 (RoundRobin (Fin 1)) syncConfig (⟨0⟩ : EventFlags) (.wait false 1 0 1 2147483647) 2147483647 1
      (fun t => 2147483647 ≤ t ∧ WithinRound syncConfig 2147483647 1 t) (· = errorTimeout) := by
  obtain ⟨calls, hrun⟩ := aloneFor_run 2147483647
  have hticks : (MonitorSystem.run syncConfig ⟨0⟩ (aloneFor 2147483647) : MonitorSystem 1 EventFlags FlagsFrame
      (RoundRobin (Fin 1))).kernel.ticks = 2147483647 := by
    rw [hrun]
    rfl
  have hmade : (MonitorSystem.run syncConfig ⟨0⟩ (aloneFor 2147483647) : MonitorSystem 1 EventFlags FlagsFrame
      (RoundRobin (Fin 1))).stretch syncConfig (.call 0 (.wait false 1 0 1 2147483647)) ≠ none := by
    rw [hrun]
    intro hnone
    cases hnone
  have hunmet : flagsUnmet false 1 0 (MonitorSystem.run syncConfig ⟨0⟩ (aloneFor 2147483647) :
      MonitorSystem 1 EventFlags FlagsFrame (RoundRobin (Fin 1))).state = true := by
    rw [hrun]
    dsimp only
    decide
  have honce : GivesUpAtOnce 1 (RoundRobin (Fin 1)) syncConfig (⟨0⟩ : EventFlags) (.wait false 1 0 1 2147483647)
      2147483647 (flagsUnmet false 1 0) (· = errorTimeout) :=
    (flagsWait_gives_up (by decide) (by decide) false).atOnce (by decide) (by decide)
      (by unfold SameRound; decide) (fun _ => trivial)
  constructor
  · obtain ⟨r, rfl, hresult⟩ := honce _ 0 hmade hticks hunmet
    exact hresult
  · apply honce.not_keepsDeadline (by decide) ⟨le_rfl, .start (by decide)⟩ _ hmade hticks hunmet
    exact aloneFor_orderly 2147483647

end Runs

end Stk.Analysis
