import Stk.Analysis.SemaphoreRun
import Stk.Model.CountingSemaphore

/-!
# The bound of a counting semaphore

The maximum is looked at by the create function, the constructor, the guard of a give and `Signal`.  In the
FreeRTOS wrapper they agree when the maximum is the largest that a semaphore has and the initial count is below
it; in the CMSIS wrapper, where a release has no guard, they never do (`wrappers_semaphoreBound`).
-/

set_option autoImplicit false

namespace Stk.Analysis

open Stk.Model Stk.Model.Kernel

variable {n : ℕ} {σ : Type} [SwitchStrategy (Fin n) σ] {cfg : Config} {api : WrapperApi}

/-! ## The property -/

/-- The call gives the semaphore, and its caller can make it. -/
def IsGive (s : CountingSemaphore n σ) (e : MonitorEvent n SemaphoreCall) : Prop :=
  e = .isr .give ∨ ∃ i, e = .call i .give ∧ s.sem.waits.kernel.canCall i = true

/-- In the state `s` no assertion has failed, the count is within the bound, and a give that finds it there
fails and leaves it. -/
structure WithinBound (cfg : Config) (api : WrapperApi) (bound : ℕ) (s : CountingSemaphore n σ) : Prop where
  safe : s.failed = false
  le : s.sem.state.count ≤ bound
  full : s.sem.state.count = bound → ∀ e, IsGive s e →
    (s.stepResult cfg api e).2 = some false ∧ (s.step cfg api e).sem.state.count = s.sem.state.count

/-- A create function called with the maximum `m` and the initial count `i`: the constructor's assertion holds, the
count starts at `i`, and every sequence of calls keeps it within `m`, both cut to `COUNT_MAX`. -/
structure SemaphoreBounded (n : ℕ) (σ : Type) [SwitchStrategy (Fin n) σ] (cfg : Config) (api : WrapperApi) (m i : ℕ)
    (created : SemaphoreCreation) : Prop where
  sound : created ≠ .assertFails
  starts : ∀ x, created = .semaphore x → x.count = min i semaphoreCountMax
  runs : ∀ x, created = .semaphore x → ∀ es : List (MonitorEvent n SemaphoreCall),
    WithinBound cfg api (min m semaphoreCountMax) (CountingSemaphore.run cfg api x es : CountingSemaphore n σ)

/-! ## One step of the semaphore -/

omit [SwitchStrategy (Fin n) σ] in
/-- INTERNAL: the wake-ups of a critical section leave the count alone. -/
theorem enter_state {s : SyncSystem n Semaphore σ} {t : CriticalSection Semaphore} (ht : t.finish = id) :
    (s.enter t).state = t.state := by
  unfold SyncSystem.enter
  rw [ht]
  cases t.wakes with
  | none => rfl
  | one => exact removeWaitObjects_semaphore _ false
  | all => exact removeWaitObjects_semaphore _ false

/-- INTERNAL: what a step makes of the object when a method is called. -/
theorem ends_state {s : SyncSystem n Semaphore σ} {e : MonitorEvent n SemaphoreOp} {op : SemaphoreOp}
    {t : CriticalSection Semaphore} (h : Ends cfg s e op t) (ht : t.finish = id) :
    (s.step cfg e).state = t.state := by
  unfold SyncSystem.step
  cases h with
  | returns r hr hstep =>
    rw [hstep]
    exact enter_state ht
  | waits i timeout he hwaits hsync hcan hstep =>
    rw [hstep]
    exact enter_state ht

/-- `Wait` takes a permit or leaves the count. -/
theorem wait_count (cfg : Config) {s : SyncSystem n Semaphore σ} {e : MonitorEvent n SemaphoreOp} {timeout : ℤ}
    (he : e = .isr (.wait timeout) ∨ ∃ i, e = .call i (.wait timeout)) :
    (s.step cfg e).state.countMax = s.state.countMax ∧ (s.step cfg e).state.count ≤ s.state.count := by
  have hends : s.stepResult cfg e = (s, none) ∨ ∃ t, _ ∧ Ends cfg s e _ t := stepResult_method he
  rcases hends with hnone | ⟨t, hmethod, hends⟩
  · unfold SyncSystem.step
    rw [hnone]
    exact ⟨rfl, Nat.le_refl _⟩
  · have ht : s.state.wait timeout = t := Option.some.inj hmethod
    unfold Semaphore.wait at ht
    split_ifs at ht
    · subst ht
      rw [ends_state hends rfl]
      exact ⟨rfl, Nat.sub_le _ _⟩
    · subst ht
      rw [ends_state hends rfl]
      exact ⟨rfl, Nat.le_refl _⟩
    · subst ht
      rw [ends_state hends rfl]
      exact ⟨rfl, Nat.le_refl _⟩

/-- `Signal` stores a permit below the maximum or leaves the count. -/
theorem signal_count (cfg : Config) {s : SyncSystem n Semaphore σ} {e : MonitorEvent n SemaphoreOp}
    (he : e = .isr .signal ∨ ∃ i, e = .call i .signal) :
    (s.step cfg e).state.countMax = s.state.countMax ∧
      (s.state.count ≤ s.state.countMax → (s.step cfg e).state.count ≤ s.state.countMax) := by
  have hends : s.stepResult cfg e = (s, none) ∨ ∃ t, _ ∧ Ends cfg s e _ t := stepResult_method he
  rcases hends with hnone | ⟨t, hmethod, hends⟩
  · unfold SyncSystem.step
    rw [hnone]
    exact ⟨rfl, id⟩
  · have ht : s.state.signal s.waitList.isEmpty = some t := hmethod
    unfold Semaphore.signal at ht
    split_ifs at ht with hempty hlt
    · obtain rfl := Option.some.inj ht
      rw [ends_state hends rfl]
      exact ⟨rfl, fun _ => hlt⟩
    · obtain rfl := Option.some.inj ht
      rw [ends_state hends rfl]
      exact ⟨rfl, id⟩

/-! ## The guard of the FreeRTOS wrapper -/

/-- What the guard keeps, for a semaphore with the largest maximum. -/
structure Guarded (s : CountingSemaphore n σ) : Prop where
  safe : s.failed = false
  countMax_eq : s.sem.state.countMax = semaphoreCountMax
  le : s.sem.state.count ≤ semaphoreCountMax

namespace Guarded

variable {s : CountingSemaphore n σ}

theorem give (h : Guarded s) {e : MonitorEvent n SemaphoreOp} (he : e = .isr .signal ∨ ∃ i, e = .call i .signal) :
    Guarded (s.xSemaphoreGive cfg e).1 := by
  unfold CountingSemaphore.xSemaphoreGive
  split_ifs with hfull
  · exact h
  · have hlt : s.sem.state.count < s.sem.state.countMax := by
      rw [h.countMax_eq]
      omega
    obtain ⟨hmax, hcount⟩ := signal_count cfg (s := s.sem) he
    constructor
    · change (s.failed || (s.sem.state.signal s.sem.waitList.isEmpty).isNone) = false
      have hsome : (s.sem.state.signal s.sem.waitList.isEmpty).isNone = false := by
        unfold Semaphore.signal
        split_ifs
        · rfl
        · rfl
      rw [h.safe, hsome]
      rfl
    · exact hmax.trans h.countMax_eq
    · have hle := hcount (by omega)
      rw [h.countMax_eq] at hle
      exact hle

omit [SwitchStrategy (Fin n) σ] in
/-- INTERNAL: a step that keeps the maximum and does not raise the count. -/
theorem of_count (h : Guarded s) {sem : SyncSystem n Semaphore σ}
    (hmax : sem.state.countMax = s.sem.state.countMax) (hcount : sem.state.count ≤ s.sem.state.count) :
    Guarded ({ s with sem := sem } : CountingSemaphore n σ) where
  safe := h.safe
  countMax_eq := hmax.trans h.countMax_eq
  le := hcount.trans h.le

theorem step (h : Guarded s) (e : MonitorEvent n SemaphoreCall) : Guarded (s.step cfg .freertos e) := by
  unfold CountingSemaphore.step
  cases e with
  | call i c =>
    cases c with
    | give =>
      unfold CountingSemaphore.stepResult
      dsimp only
      split_ifs
      · exact h.give (.inr ⟨i, rfl⟩)
      · exact h
    | take ticksToWait =>
      obtain ⟨hmax, hcount⟩ := wait_count cfg (s := s.sem)
        (e := .call i (.wait (frtosTimeoutToStk ticksToWait))) (.inr ⟨i, rfl⟩)
      exact h.of_count hmax hcount
  | isr c =>
    cases c with
    | give =>
      unfold CountingSemaphore.stepResult
      dsimp only
      split_ifs
      · exact h.give (.inl rfl)
      · exact h
    | take ticksToWait =>
      unfold CountingSemaphore.stepResult
      dsimp only
      split_ifs
      · exact h
      · obtain ⟨hmax, hcount⟩ := wait_count cfg (s := s.sem)
          (e := .isr (.wait (frtosTimeoutToStk ticksToWait))) (.inl rfl)
        exact h.of_count hmax hcount
  | resume i => exact h.of_count rfl (Nat.le_refl _)
  | kernel e =>
    have hstate : (s.sem.step cfg (.kernel e)).state = s.sem.state := removeWaitObjects_semaphore _ true
    apply h.of_count
    · rw [hstate]
    · rw [hstate]

theorem run {x : Semaphore} (hmax : x.countMax = semaphoreCountMax) (hle : x.count ≤ semaphoreCountMax)
    (es : List (MonitorEvent n SemaphoreCall)) :
    Guarded (CountingSemaphore.run cfg .freertos x es : CountingSemaphore n σ) := by
  unfold CountingSemaphore.run
  induction es using List.reverseRecOn with
  | nil => exact ⟨rfl, hmax, hle⟩
  | append_singleton es e ih =>
    rw [List.foldl_append]
    exact ih.step e

theorem withinBound (h : Guarded s) (hsync : cfg.isSyncMode = true) :
    WithinBound cfg .freertos semaphoreCountMax s where
  safe := h.safe
  le := h.le
  full := by
    intro hfull e he
    have hgive : s.stepResult cfg .freertos e = (s, some false) := by
      rcases he with rfl | ⟨i, rfl, hcan⟩
      · unfold CountingSemaphore.stepResult CountingSemaphore.give CountingSemaphore.xSemaphoreGive
        dsimp only
        rw [if_pos hsync, if_pos hfull.ge]
      · unfold CountingSemaphore.stepResult CountingSemaphore.give CountingSemaphore.xSemaphoreGive
        dsimp only
        rw [hsync, hcan, if_pos (Bool.and_self true), if_pos hfull.ge]
    unfold CountingSemaphore.step
    rw [hgive]
    exact ⟨rfl, rfl⟩

end Guarded

/-! ## Giving until the bound -/

/-- INTERNAL: a signal of an interrupt handler when no task waits. -/
theorem signal_initial (hsync : cfg.isSyncMode = true) {x : Semaphore} (hlt : x.count < x.countMax) :
    ((CountingSemaphore.initial x : CountingSemaphore n σ).signal cfg (.isr .signal)) =
      CountingSemaphore.initial { x with count := x.count + 1 } := by
  have hsignal : x.signal true = some ⟨{ x with count := x.count + 1 }, .none, id, .returns .void⟩ := by
    unfold Semaphore.signal
    rw [if_pos rfl, if_pos hlt]
  have hmethod : SyncObject.method (SyncSystem.initial x : SyncSystem n Semaphore σ).state
      (SyncSystem.initial x : SyncSystem n Semaphore σ).waitList.isEmpty SemaphoreOp.signal =
        some ⟨{ x with count := x.count + 1 }, .none, id, .returns .void⟩ := hsignal
  unfold CountingSemaphore.signal
  have hstep : (SyncSystem.initial x : SyncSystem n Semaphore σ).step cfg (.isr .signal) =
      SyncSystem.initial { x with count := x.count + 1 } := by
    unfold SyncSystem.step SyncSystem.stepResult
    simp only [hsync, hmethod]
    rfl
  have hok : ((CountingSemaphore.initial x : CountingSemaphore n σ).failed ||
      (x.signal true).isNone) = false := by
    rw [hsignal]
    rfl
  change CountingSemaphore.mk _ (_ || (x.signal true).isNone) = _
  rw [hok]
  exact congrArg (fun sem => CountingSemaphore.mk sem false) hstep

/-- INTERNAL: a give of an interrupt handler that `Signal` accepts. -/
theorem give_initial (hsync : cfg.isSyncMode = true) {x : Semaphore} (hlt : x.count < x.countMax)
    (hmax : x.countMax ≤ semaphoreCountMax) :
    (CountingSemaphore.initial x : CountingSemaphore n σ).step cfg api (.isr .give) =
      CountingSemaphore.initial { x with count := x.count + 1 } := by
  unfold CountingSemaphore.step CountingSemaphore.stepResult
  dsimp only
  rw [if_pos hsync]
  cases api with
  | freertos =>
    unfold CountingSemaphore.give CountingSemaphore.xSemaphoreGive
    have hguard : ¬ (CountingSemaphore.initial x : CountingSemaphore n σ).sem.state.count ≥ semaphoreCountMax := by
      change ¬ x.count ≥ semaphoreCountMax
      omega
    dsimp only
    rw [if_neg hguard]
    exact signal_initial hsync hlt
  | cmsis => exact signal_initial hsync hlt

/-- `j` gives raise the count by `j`, up to the maximum. -/
theorem run_gives (hsync : cfg.isSyncMode = true) {x : Semaphore} (hmax : x.countMax ≤ semaphoreCountMax) (j : ℕ)
    (hj : x.count + j ≤ x.countMax) :
    (CountingSemaphore.run cfg api x (List.replicate j (.isr .give)) : CountingSemaphore n σ) =
      CountingSemaphore.initial { x with count := x.count + j } := by
  unfold CountingSemaphore.run
  induction j with
  | zero => rfl
  | succ j ih =>
    rw [List.replicate_succ', List.foldl_append, ih (by omega)]
    exact give_initial (x := { x with count := x.count + j }) hsync (show x.count + j < x.countMax by omega) hmax

/-- A semaphore that is filled and given once more, unless the guard holds it: the assertion of `Signal` fails. -/
theorem run_overflows (hsync : cfg.isSyncMode = true) {x : Semaphore} (hle : x.count ≤ x.countMax)
    (hmax : x.countMax ≤ semaphoreCountMax) (hguard : api = .freertos → x.countMax < semaphoreCountMax) :
    (CountingSemaphore.run cfg api x (List.replicate (x.countMax - x.count) (.isr .give) ++ [.isr .give]) :
      CountingSemaphore n σ).failed = true := by
  have hsum : x.count + (x.countMax - x.count) = x.countMax := by omega
  have hfill : (CountingSemaphore.run cfg api x (List.replicate (x.countMax - x.count) (.isr .give)) :
      CountingSemaphore n σ) = CountingSemaphore.initial { x with count := x.count + (x.countMax - x.count) } :=
    run_gives hsync hmax (x.countMax - x.count) (by omega)
  rw [hsum] at hfill
  unfold CountingSemaphore.run at hfill ⊢
  rw [List.foldl_append, hfill]
  have hrejected : (Semaphore.signal { x with count := x.countMax } true) = none := by
    unfold Semaphore.signal
    rw [if_pos rfl]
    exact if_neg (Nat.lt_irrefl x.countMax)
  have hfailed : ((CountingSemaphore.initial { x with count := x.countMax } : CountingSemaphore n σ).signal cfg
      (.isr .signal)).failed = true := by
    change (false || (Semaphore.signal { x with count := x.countMax } true).isNone) = true
    rw [hrejected]
    rfl
  rw [List.foldl_cons, List.foldl_nil]
  unfold CountingSemaphore.step CountingSemaphore.stepResult
  dsimp only
  rw [if_pos hsync]
  cases api with
  | freertos =>
    unfold CountingSemaphore.give CountingSemaphore.xSemaphoreGive
    have hlt := hguard rfl
    have hbelow : ¬ (CountingSemaphore.initial { x with count := x.countMax } :
        CountingSemaphore n σ).sem.state.count ≥ semaphoreCountMax := by
      change ¬ x.countMax ≥ semaphoreCountMax
      omega
    dsimp only
    rw [if_neg hbelow]
    exact hfailed
  | cmsis => exact hfailed

/-! ## The create functions -/

/-- A null handle has no bound to keep. -/
theorem SemaphoreBounded.null (m i : ℕ) : SemaphoreBounded n σ cfg api m i .null := by
  constructor
  · intro hfails
    cases hfails
  · intro x hx
    cases hx
  · intro x hx
    cases hx

/-- INTERNAL: a semaphore that no guard holds at its maximum. -/
theorem SemaphoreBounded.not_unguarded (hsync : cfg.isSyncMode = true) {m i initialCount maxCount : ℕ}
    (hmax : maxCount ≤ semaphoreCountMax) (hguard : api = .freertos → maxCount < semaphoreCountMax) :
    ¬ SemaphoreBounded n σ cfg api m i (Semaphore.construct initialCount maxCount) := by
  intro hbounded
  have hlt : initialCount < maxCount := by
    by_contra hge
    apply hbounded.sound
    unfold Semaphore.construct
    rw [if_neg hge]
  have hcreated : Semaphore.construct initialCount maxCount = .semaphore ⟨initialCount, maxCount⟩ := if_pos hlt
  have hover := run_overflows (n := n) (σ := σ) (x := ⟨initialCount, maxCount⟩) hsync (Nat.le_of_lt hlt) hmax hguard
  rw [(hbounded.runs _ hcreated _).safe] at hover
  cases hover

/-- `xSemaphoreCreateCounting` keeps the bound when the maximum is the largest there is and the initial count is
below it. -/
theorem xSemaphoreCreateCounting_bounded (hsync : cfg.isSyncMode = true) {m i : ℕ} (hm : 0 < m) (hi : i ≤ m) :
    (∀ allocates, SemaphoreBounded n σ cfg .freertos m i (xSemaphoreCreateCounting allocates m i)) ↔
      semaphoreCountMax ≤ m ∧ i < semaphoreCountMax := by
  have hlimit : semaphoreCountMax = 65534 := rfl
  have hargs : ¬ (m = 0 ∨ i > m) := by omega
  constructor
  · intro hbounded
    have hthis := hbounded true
    unfold xSemaphoreCreateCounting at hthis
    rw [if_neg hargs] at hthis
    dsimp only at hthis
    rw [if_pos rfl] at hthis
    have hlarge : semaphoreCountMax ≤ m := by
      by_contra hsmall
      rw [if_neg (by omega), Nat.mod_eq_of_lt (show m < 2 ^ 16 by omega)] at hthis
      exact SemaphoreBounded.not_unguarded hsync (by omega) (fun _ => by omega) hthis
    refine ⟨hlarge, ?_⟩
    by_contra hfull
    have hmax : (if m > semaphoreCountMax then semaphoreCountMax else m) = semaphoreCountMax := by
      split_ifs <;> omega
    rw [hmax, Nat.mod_eq_of_lt (show semaphoreCountMax < 2 ^ 16 by omega)] at hthis
    have hlt : i % 2 ^ 16 < semaphoreCountMax := by
      by_contra hge
      apply hthis.sound
      unfold Semaphore.construct
      rw [if_neg hge]
    have hstarts := hthis.starts ⟨i % 2 ^ 16, semaphoreCountMax⟩ (if_pos hlt)
    dsimp only at hstarts
    omega
  · rintro ⟨hlarge, hlt⟩ allocates
    unfold xSemaphoreCreateCounting
    rw [if_neg hargs]
    have hmax : (if m > semaphoreCountMax then semaphoreCountMax else m) = semaphoreCountMax := by
      split_ifs <;> omega
    dsimp only
    rw [hmax, Nat.mod_eq_of_lt (show semaphoreCountMax < 2 ^ 16 by omega),
      Nat.mod_eq_of_lt (show i < 2 ^ 16 by omega)]
    have hcreated : Semaphore.construct i semaphoreCountMax = .semaphore ⟨i, semaphoreCountMax⟩ := if_pos hlt
    rw [hcreated]
    cases allocates with
    | false => exact .null m i
    | true =>
      constructor
      · intro hfails
        cases hfails
      · intro x hx
        obtain rfl := SemaphoreCreation.semaphore.inj hx
        exact (min_eq_left hlt.le).symm
      · intro x hx es
        obtain rfl := SemaphoreCreation.semaphore.inj hx
        rw [min_eq_right hlarge]
        exact (Guarded.run rfl hlt.le es).withinBound hsync

/-- `osSemaphoreNew` keeps the bound for no arguments. -/
theorem osSemaphoreNew_unbounded (hsync : cfg.isSyncMode = true) {m i : ℕ} (hm : 0 < m) (hi : i ≤ m) :
    ¬ SemaphoreBounded n σ cfg .cmsis m i (osSemaphoreNew false true m i) := by
  have hlimit : semaphoreCountMax = 65534 := rfl
  have hargs : ¬ ((false : Bool) = true ∨ m = 0 ∨ i > m) := by
    simp only [Bool.false_eq_true, false_or]
    omega
  unfold osSemaphoreNew
  rw [if_neg hargs]
  dsimp only
  rw [if_pos rfl]
  have hword : min m semaphoreCountMax % 2 ^ 16 ≤ semaphoreCountMax := (Nat.mod_le _ _).trans (min_le_right _ _)
  exact SemaphoreBounded.not_unguarded hsync hword (fun h => nomatch h)

/-- **The bound of a counting semaphore.**  For every accepted maximum and initial count: in the FreeRTOS wrapper
no assertion fails, the count starts right and no sequence of gives and takes takes it above the maximum, where a
give fails, if and only if the maximum is at least `COUNT_MAX` and the initial count below it; in the CMSIS
wrapper never. -/
theorem wrappers_semaphoreBound (hsync : cfg.isSyncMode = true) {m i : ℕ} (hm : 0 < m) (hi : i ≤ m) :
    ((∀ allocates, SemaphoreBounded n σ cfg .freertos m i (xSemaphoreCreateCounting allocates m i)) ↔
      semaphoreCountMax ≤ m ∧ i < semaphoreCountMax) ∧
    ((∀ allocates buffer,
        SemaphoreBounded n σ cfg .freertos m i (xSemaphoreCreateCountingStatic allocates m i buffer)) ↔
      semaphoreCountMax ≤ m ∧ i < semaphoreCountMax) ∧
    ¬ ∀ irqContext allocates, SemaphoreBounded n σ cfg .cmsis m i (osSemaphoreNew irqContext allocates m i) := by
  have hdynamic := xSemaphoreCreateCounting_bounded (n := n) (σ := σ) hsync hm hi
  refine ⟨hdynamic, ?_, fun hbounded => osSemaphoreNew_unbounded hsync hm hi (hbounded false true)⟩
  rw [← hdynamic]
  constructor
  · intro hbounded allocates
    exact hbounded allocates 1
  · intro hbounded allocates buffer
    unfold xSemaphoreCreateCountingStatic
    split_ifs
    · exact .null m i
    · exact hbounded allocates

/-- A maximum of `2 ^ 20` and an initial count of ten. -/
theorem largeMaximum_bounded :
    SemaphoreBounded 2 (RoundRobin (Fin 2)) syncConfig .freertos (2 ^ 20) 10
      (xSemaphoreCreateCounting true (2 ^ 20) 10) :=
  (@wrappers_semaphoreBound 2 (RoundRobin (Fin 2)) _ syncConfig rfl (2 ^ 20) 10 (by decide) (by decide)).1.mpr
    (by decide) true

/-- A maximum of two: a third give is not refused, and fails the assertion of `Signal`; so does it in the CMSIS
wrapper.  An initial count of two fails that of the constructor, and one of `2 ^ 16` becomes zero. -/
theorem smallMaximum_overflows :
    let gives : List (MonitorEvent 2 SemaphoreCall) := [.isr .give, .isr .give, .isr .give]
    xSemaphoreCreateCounting true 2 0 = .semaphore ⟨0, 2⟩ ∧
      (CountingSemaphore.run syncConfig .freertos ⟨0, 2⟩ gives :
        CountingSemaphore 2 (RoundRobin (Fin 2))).failed = true ∧
      osSemaphoreNew false true 2 0 = .semaphore ⟨0, 2⟩ ∧
      (CountingSemaphore.run syncConfig .cmsis ⟨0, 2⟩ gives :
        CountingSemaphore 2 (RoundRobin (Fin 2))).failed = true ∧
      ¬ SemaphoreBounded 2 (RoundRobin (Fin 2)) syncConfig .freertos 2 0 (xSemaphoreCreateCounting true 2 0) ∧
      ¬ SemaphoreBounded 2 (RoundRobin (Fin 2)) syncConfig .cmsis 2 0 (osSemaphoreNew false true 2 0) ∧
      xSemaphoreCreateCounting true 2 2 = .assertFails ∧
      xSemaphoreCreateCounting true (2 ^ 20) (2 ^ 16) = .semaphore ⟨0, semaphoreCountMax⟩ := by
  intro gives
  have hfrtos : (CountingSemaphore.run syncConfig .freertos ⟨0, 2⟩ gives :
      CountingSemaphore 2 (RoundRobin (Fin 2))).failed = true := by decide +kernel
  have hcmsis : (CountingSemaphore.run syncConfig .cmsis ⟨0, 2⟩ gives :
      CountingSemaphore 2 (RoundRobin (Fin 2))).failed = true := by decide +kernel
  refine ⟨by decide, hfrtos, by decide, hcmsis, ?_, ?_, by decide, by decide⟩
  · intro hbounded
    have hsafe := (hbounded.runs ⟨0, 2⟩ (by decide) gives).safe
    rw [hfrtos] at hsafe
    cases hsafe
  · intro hbounded
    have hsafe := (hbounded.runs ⟨0, 2⟩ (by decide) gives).safe
    rw [hcmsis] at hsafe
    cases hsafe

end Stk.Analysis
