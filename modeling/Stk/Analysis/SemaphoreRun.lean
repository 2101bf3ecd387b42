import Stk.Analysis.InfiniteSleep
import Stk.Analysis.SyncSystemInvariant
import Stk.Foundation.HandOff
import Stk.Model.Semaphore

/-!
# The permits of a semaphore

`permits` reads off a semaphore what the hand-over of permits is about: `m_count`, the wait list and
the tasks that `Signal` has woken.  Every orderly event is a move there (`permits_step`), so that no
permit is lost or made up in a run (`run_semaphore`).  A `Wait` that returns while its task is still
linked to the semaphore makes one up (`infiniteSemaphoreWait_unpaid`).
-/

set_option autoImplicit false

namespace Stk.Analysis

open Stk.Model Stk.Model.Kernel

variable {n : ℕ} {σ : Type} [SwitchStrategy (Fin n) σ] {cfg : Config} {s : SyncSystem n Semaphore σ}

omit [SwitchStrategy (Fin n) σ] in
/-- The permits of a semaphore. -/
def permits (s : SyncSystem n Semaphore σ) : HandOff.State (Fin n) :=
  ⟨s.state.count, s.waitList, granted s⟩

/-- A `Wait` returns `true` in the step; no other method returns a value. -/
def acquired (cfg : Config) (s : SyncSystem n Semaphore σ) (e : MonitorEvent n SemaphoreOp) : ℕ :=
  if (s.stepResult cfg e).2 = some (.bool true) then 1 else 0

/-- A `Signal` is accepted in the step; no other method returns without a value. -/
def accepted (cfg : Config) (s : SyncSystem n Semaphore σ) (e : MonitorEvent n SemaphoreOp) : ℕ :=
  if (s.stepResult cfg e).2 = some .void then 1 else 0

/-- The step is the move `m` of the permits. -/
structure PermitMove (cfg : Config) (s : SyncSystem n Semaphore σ) (e : MonitorEvent n SemaphoreOp)
    (m : HandOff.Move (Fin n)) : Prop where
  step : HandOff.Step s.state.countMax (permits s) m (permits (s.step cfg e))
  countMax : (s.step cfg e).state.countMax = s.state.countMax
  taken : m.taken = acquired cfg s e
  posted : m.posted = accepted cfg s e
  cancelled : m.cancelled (permits s) = 0
  refused : (s.stepResult cfg e).2 = some (.bool false) → permits (s.step cfg e) = permits s

/-- INTERNAL: a step, read off its result. -/
theorem PermitMove.of_result {e : MonitorEvent n SemaphoreOp} {s' : SyncSystem n Semaphore σ} {r : Option MethodResult}
    {m : HandOff.Move (Fin n)} (h : s.stepResult cfg e = (s', r))
    (hstep : HandOff.Step s.state.countMax (permits s) m (permits s'))
    (hmax : s'.state.countMax = s.state.countMax) (htaken : m.taken = if r = some (.bool true) then 1 else 0)
    (hposted : m.posted = if r = some .void then 1 else 0) (hcancelled : m.cancelled (permits s) = 0)
    (hrefused : r = some (.bool false) → permits s' = permits s) : PermitMove cfg s e m := by
  have heq : s.step cfg e = s' := by
    unfold SyncSystem.step
    rw [h]
  refine ⟨by rw [heq]; exact hstep, by rw [heq]; exact hmax, ?_, ?_, hcancelled, ?_⟩
  · unfold acquired
    rw [h]
    exact htaken
  · unfold accepted
    rw [h]
    exact hposted
  · rw [h, heq]
    exact hrefused

/-- INTERNAL: an event that is ignored, or a `Wait` with `NO_WAIT` that finds no permit. -/
theorem PermitMove.stay {e : MonitorEvent n SemaphoreOp} {r : Option MethodResult}
    (h : s.stepResult cfg e = (s, r)) (hr : r = none ∨ r = some (.bool false)) : PermitMove cfg s e .giveUp := by
  refine .of_result h (.giveUp (List.Sublist.refl _)) rfl ?_ ?_ rfl (fun _ => rfl)
  · rcases hr with rfl | rfl
    · rfl
    · rfl
  · rcases hr with rfl | rfl
    · rfl
    · rfl

/-- INTERNAL: a call of `Wait`, by a task or by an interrupt handler. -/
theorem permits_wait (h : SyncOk s) {e : MonitorEvent n SemaphoreOp} {timeout : ℤ}
    (he : e = .isr (.wait timeout) ∨ ∃ i, e = .call i (.wait timeout)) (horderly : SyncOrderly s e) :
    SyncOk (s.step cfg e) ∧ ∃ m, PermitMove cfg s e m := by
  have hmethod : s.stepResult cfg e = (s, none) ∨
      ∃ t, SyncObject.method s.state s.waitList.isEmpty (.wait timeout) = some t ∧ Ends cfg s e (.wait timeout) t :=
    stepResult_method he
  unfold SyncSystem.step
  rcases hmethod with hstep | ⟨t, ht, hcases⟩
  · rw [hstep]
    exact ⟨h, .giveUp, .stay hstep (.inl rfl)⟩
  · replace ht : s.state.wait timeout = t := Option.some.inj ht
    unfold Semaphore.wait at ht
    split at ht
    · -- a permit is in store
      next hcount =>
      subst ht
      rcases hcases with ⟨r, hr, hstep⟩ | ⟨_, _, _, hwaits⟩
      · cases hr
        rw [enter_none rfl] at hstep
        rw [hstep]
        refine ⟨h.setState _, .take, .of_result hstep ?_ rfl rfl rfl rfl (fun hfalse => nomatch hfalse)⟩
        exact .take (Nat.succ_pred_eq_of_ne_zero hcount).symm
      · cases hwaits
    · next hcount =>
      have hzero : s.state.count = 0 := by simpa using hcount
      split at ht
      · -- the caller blocks
        next htimeout =>
        subst ht
        rcases hcases with ⟨r, hr, -⟩ | ⟨i, timeout', hcall, hwaits, hsync, hcan, hstep⟩
        · cases hr
        · cases hwaits
          rw [enter_none rfl] at hstep
          subst hcall
          obtain ⟨hok, hlist, hgranted, hnot, hnotin⟩ := h.block hsync hcan horderly.1 horderly.2 htimeout
          rw [hstep]
          refine ⟨hok, .join i, .of_result hstep ?_ rfl rfl rfl rfl (fun hfalse => nomatch hfalse)⟩
          have hpermits : permits (s.block cfg i timeout) = ⟨s.state.count, s.waitList ++ [i], granted s⟩ := by
            unfold permits
            rw [hlist, hgranted]
            rfl
          exact hpermits ▸ .join hzero hnotin hnot
      · -- `NO_WAIT`
        subst ht
        rcases hcases with ⟨r, hr, hstep⟩ | ⟨_, _, _, hwaits⟩
        · cases hr
          rw [enter_none rfl] at hstep
          rw [hstep]
          exact ⟨h, .giveUp, .stay hstep (.inr rfl)⟩
        · cases hwaits

/-- INTERNAL: a call of `Signal`, by a task or by an interrupt handler. -/
theorem permits_signal (h : SyncOk s) {e : MonitorEvent n SemaphoreOp}
    (he : e = .isr .signal ∨ ∃ i, e = .call i .signal) :
    SyncOk (s.step cfg e) ∧ ∃ m, PermitMove cfg s e m := by
  have hmethod : s.stepResult cfg e = (s, none) ∨
      ∃ t, SyncObject.method s.state s.waitList.isEmpty .signal = some t ∧ Ends cfg s e .signal t :=
    stepResult_method he
  unfold SyncSystem.step
  rcases hmethod with hstep | ⟨t, ht, hcases⟩
  · rw [hstep]
    exact ⟨h, .giveUp, .stay hstep (.inl rfl)⟩
  · replace ht : s.state.signal s.waitList.isEmpty = some t := ht
    unfold Semaphore.signal at ht
    cases hl : s.waitList with
    | nil =>
      rw [hl, List.isEmpty_nil, if_pos rfl] at ht
      split at ht
      · -- nobody waits: the permit is stored
        next hlt =>
        cases ht
        rcases hcases with ⟨r, hr, hstep⟩ | ⟨_, _, _, hwaits⟩
        · cases hr
          rw [enter_none rfl] at hstep
          rw [hstep]
          refine ⟨h.setState _, .post, .of_result hstep ?_ rfl rfl rfl rfl (fun hfalse => nomatch hfalse)⟩
          exact .store hl hlt
        · cases hwaits
      · cases ht
    | cons i l =>
      -- the permit is handed to the first waiter
      rw [hl, List.isEmpty_cons, if_neg Bool.false_ne_true] at ht
      cases ht
      rcases hcases with ⟨r, hr, hstep⟩ | ⟨_, _, _, hwaits⟩
      · cases hr
        replace hstep : s.stepResult cfg e = (s.wakeUp .one, some .void) := hstep
        obtain ⟨hok, hlist, hgranted, hstate⟩ := h.wakeUp_one hl
        replace hstate : (s.wakeUp .one).state = s.state := hstate
        rw [hstep]
        refine ⟨hok, .post, .of_result hstep ?_ (by rw [hstate]) rfl rfl rfl (fun hfalse => nomatch hfalse)⟩
        have hpermits : permits (s.wakeUp .one) = ⟨s.state.count, l, insert i (granted s)⟩ := by
          unfold permits
          rw [hlist, hgranted, hstate]
        exact hpermits ▸ .grant hl
      · cases hwaits

omit [SwitchStrategy (Fin n) σ] in
/-- INTERNAL: ticks take nothing from a semaphore. -/
theorem removeWaitObjects_semaphore (l : List (Fin n)) (timeout : Bool) :
    s.removeWaitObjects l timeout = s.state := by
  unfold SyncSystem.removeWaitObjects
  induction l with
  | nil => rfl
  | cons i l ih => exact ih

/-- **Simulation.**  Every orderly event is a move of the permits. -/
theorem permits_step (cfg : Config) (h : SyncOk s) {e : MonitorEvent n SemaphoreOp} (he : SyncOrderly s e) :
    SyncOk (s.step cfg e) ∧ ∃ m, PermitMove cfg s e m := by
  cases e with
  | call i op =>
    cases op with
    | wait timeout => exact permits_wait h (.inr ⟨i, rfl⟩) he
    | signal => exact permits_signal h (.inr ⟨i, rfl⟩)
  | isr op =>
    cases op with
    | wait timeout => exact permits_wait h (.inl rfl) he
    | signal => exact permits_signal h (.inl rfl)
  | resume i =>
    rcases h.resume he with hstep | ⟨hok, hlist, hstate, hresult⟩
    · unfold SyncSystem.step
      rw [hstep]
      exact ⟨h, .giveUp, .stay hstep (.inl rfl)⟩
    · refine ⟨hok, ?_⟩
      have hsplit : ∀ r, (s.stepResult cfg (.resume i)).2 = r →
          s.stepResult cfg (.resume i) = (s.step cfg (.resume i), r) := by
        intro r hr
        rw [← hr]
        rfl
      rcases hresult with ⟨hr, hmem, hgranted⟩ | ⟨hr, -, hgranted⟩
      · refine ⟨.collect i, ?_⟩
        refine .of_result (hsplit _ hr) ?_ (by rw [hstate]) rfl rfl rfl (fun hfalse => nomatch hfalse)
        have hpermits : permits (s.step cfg (.resume i)) = ⟨s.state.count, s.waitList, (granted s).erase i⟩ := by
          unfold permits
          rw [hlist, hgranted, hstate]
        exact hpermits ▸ .collect hmem
      · have hpermits : permits (s.step cfg (.resume i)) = permits s := by
          unfold permits
          rw [hlist, hgranted, hstate]
        refine ⟨.giveUp, .of_result (hsplit _ hr) ?_ (by rw [hstate]) rfl rfl rfl (fun _ => hpermits)⟩
        rw [hpermits]
        exact .giveUp (List.Sublist.refl _)
  | kernel e =>
    obtain ⟨hok, hsub, hgranted⟩ := h.kernelStep cfg he
    have hstate : (s.kernelStep cfg e).state = s.state := removeWaitObjects_semaphore _ true
    refine ⟨hok, .giveUp, .of_result rfl ?_ (by rw [hstate]) rfl rfl rfl (fun hfalse => nomatch hfalse)⟩
    have hpermits : permits (s.kernelStep cfg e) = ⟨s.state.count, (s.kernelStep cfg e).waitList, granted s⟩ := by
      unfold permits
      rw [hgranted, hstate]
    rw [hpermits]
    exact .giveUp hsub

/-- What every orderly step keeps, for a semaphore with the maximum `countMax`. -/
structure SemaphoreOk (countMax : ℕ) (s : SyncSystem n Semaphore σ) : Prop where
  sync : SyncOk s
  countMax_eq : s.state.countMax = countMax
  sound : HandOff.Sound countMax (permits s)

theorem SemaphoreOk.initial {x : Semaphore} (hx : x.count ≤ x.countMax) :
    SemaphoreOk x.countMax (SyncSystem.initial x : SyncSystem n Semaphore σ) :=
  ⟨.initial x, rfl, hx, fun _ => rfl, List.nodup_nil, fun _ hi => nomatch hi⟩

theorem SemaphoreOk.step {countMax : ℕ} (h : SemaphoreOk countMax s) (cfg : Config) {e : MonitorEvent n SemaphoreOp}
    (he : SyncOrderly s e) : SemaphoreOk countMax (s.step cfg e) := by
  obtain ⟨hok, m, hmoves⟩ := permits_step cfg h.sync he
  have hstep := hmoves.step
  rw [h.countMax_eq] at hstep
  exact ⟨hok, hmoves.countMax.trans h.countMax_eq, hstep.sound h.sound⟩

/-- INTERNAL: the balance of a step. -/
theorem SemaphoreOk.balance {countMax : ℕ} (h : SemaphoreOk countMax s) (cfg : Config) {e : MonitorEvent n SemaphoreOp}
    (he : SyncOrderly s e) :
    (s.step cfg e).state.count + (granted (s.step cfg e)).card + acquired cfg s e =
      s.state.count + (granted s).card + accepted cfg s e := by
  obtain ⟨-, m, hmoves⟩ := permits_step cfg h.sync he
  have hsound := h.sound
  rw [← h.countMax_eq] at hsound
  have hbalance := hmoves.step.conserves hsound
  rw [hmoves.cancelled, hmoves.taken, hmoves.posted, Nat.add_zero] at hbalance
  exact hbalance

/-- **Conservation of permits.**  In every run in which a `Wait` returns only when its task is not linked to
the semaphore any more: no permit is lost or made up, none is in store while a task waits, and there
are never more than the maximum.  Whoever is released has waited longest; a `Wait` that returns `true`
and did not find a permit in store has been released; and neither a tick nor a `Wait` that returns
`false` takes a permit. -/
theorem run_semaphore (cfg : Config) (x : Semaphore) (hx : x.count ≤ x.countMax)
    (es : List (MonitorEvent n SemaphoreOp))
    (hes : Runs.Along (SyncSystem.step cfg) SyncOrderly (SyncSystem.initial x : SyncSystem n Semaphore σ) es) :
    let s₀ : SyncSystem n Semaphore σ := SyncSystem.initial x
    let s : SyncSystem n Semaphore σ := SyncSystem.run cfg x es
    s.state.count + (granted s).card + Runs.total (SyncSystem.step cfg) (acquired cfg) s₀ es =
        x.count + Runs.total (SyncSystem.step cfg) (accepted cfg) s₀ es ∧
      (0 < s.state.count → s.waitList = []) ∧ s.state.count ≤ x.countMax ∧
      ∀ e, SyncOrderly s e →
        (∀ i ∈ granted (s.step cfg e), i ∉ granted s →
          i ∈ s.waitList ∧ ∀ j ∈ s.waitList, s.arrival i ≤ s.arrival j) ∧
        (∀ i, e = .resume i → (s.stepResult cfg e).2 = some (.bool true) → i ∈ granted s) ∧
        (∀ d, e = .kernel d → (s.step cfg e).state = s.state ∧ granted (s.step cfg e) = granted s) ∧
        ((s.stepResult cfg e).2 = some (.bool false) →
          (s.step cfg e).state.count = s.state.count ∧ (s.step cfg e).waitList = s.waitList ∧
            granted (s.step cfg e) = granted s) := by
  intro s₀ s
  have hok : SemaphoreOk x.countMax s :=
    hes.invariant (fun _ _ h he => h.step cfg he) (.initial hx)
  have htotal := hes.total_eq (g := fun s : SyncSystem n Semaphore σ => s.state.count + (granted s).card)
    (fun _ _ h he => SemaphoreOk.step h cfg he) (fun _ _ h he => SemaphoreOk.balance h cfg he) (.initial hx)
  have hnone : granted s₀ = ∅ := granted_initial x
  refine ⟨?_, hok.sound.queue_nil, hok.sound.stored_le, ?_⟩
  · rw [hnone, Finset.card_empty, Nat.add_zero] at htotal
    exact htotal
  · intro e he
    obtain ⟨-, m, hmoves⟩ := permits_step cfg hok.sync he
    refine ⟨?_, ?_, ?_, ?_⟩
    · intro i hi hnot
      obtain ⟨l, hl⟩ := hmoves.step.fifo hi hnot
      replace hl : s.waitList = i :: l := hl
      refine ⟨?_, hok.sync.first_arrived hl⟩
      rw [hl]
      exact List.mem_cons_self
    · rintro i rfl hr
      rcases hok.sync.resume he with hstep | ⟨-, -, -, ⟨-, hmem, -⟩ | ⟨hfalse, -, -⟩⟩
      · rw [hstep] at hr
        cases hr
      · exact hmem
      · rw [hfalse] at hr
        cases hr
    · rintro d rfl
      obtain ⟨-, -, hgranted⟩ := hok.sync.kernelStep cfg he
      exact ⟨removeWaitObjects_semaphore _ true, hgranted⟩
    · intro hfalse
      have hsame := hmoves.refused hfalse
      exact ⟨congrArg HandOff.State.stored hsame, congrArg HandOff.State.queue hsame,
        congrArg HandOff.State.granted hsame⟩

/-- Both tasks wait, task 1 times out, and an interrupt handler signals twice. -/
def handedPermit : List (MonitorEvent 2 SemaphoreOp) :=
  twoTasks.map .kernel ++ [.call 0 (.wait waitInfinite), .kernel (.onTick 1), .call 1 (.wait 1),
    .kernel (.onTick 1), .isr .signal, .isr .signal, .kernel (.onTick 1), .resume 0]

theorem handedPermit_conserved :
    Runs.Along (SyncSystem.step syncConfig) SyncOrderly
        (SyncSystem.initial ⟨0, 2⟩ : SyncSystem 2 Semaphore (RoundRobin (Fin 2))) handedPermit ∧
      (let s₀ : SyncSystem 2 Semaphore (RoundRobin (Fin 2)) := SyncSystem.initial ⟨0, 2⟩
       let s : SyncSystem 2 Semaphore (RoundRobin (Fin 2)) := SyncSystem.run syncConfig ⟨0, 2⟩ handedPermit
       s.state.count + (granted s).card +
           Runs.total (SyncSystem.step syncConfig) (acquired syncConfig) s₀ handedPermit =
         0 + Runs.total (SyncSystem.step syncConfig) (accepted syncConfig) s₀ handedPermit) ∧
      Runs.total (SyncSystem.step syncConfig) (accepted syncConfig)
        (SyncSystem.initial ⟨0, 2⟩ : SyncSystem 2 Semaphore (RoundRobin (Fin 2))) handedPermit = 2 := by
  have hrun : Runs.Along (SyncSystem.step syncConfig) SyncOrderly
      (SyncSystem.initial ⟨0, 2⟩ : SyncSystem 2 Semaphore (RoundRobin (Fin 2))) handedPermit := by decide +kernel
  exact ⟨hrun, (run_semaphore syncConfig ⟨0, 2⟩ (by decide) handedPermit hrun).1, by decide +kernel⟩

/-! ## A wait that runs out -/

/-- Task 0 waits for a permit. -/
def waitsForPermit : List (MonitorEvent 2 SemaphoreOp) :=
  twoTasks.map .kernel ++ [.call 0 (.wait waitInfinite)]

/-- INTERNAL: kernel calls accept no permits. -/
theorem accepted_ticks (m : ℕ) (s : SyncSystem n Semaphore σ) :
    Runs.total (SyncSystem.step cfg) (accepted cfg) s (tickEvents m) = 0 := by
  induction m generalizing s with
  | zero => rfl
  | succ m ih =>
    unfold tickEvents
    rw [List.replicate_succ, Runs.total]
    exact (Nat.zero_add _).trans (ih _)

/-- Nobody signals, and after `INT32_MAX` ticks `Wait` returns `true`: the balance is out by one permit. -/
theorem infiniteSemaphoreWait_unpaid :
    let s₀ : SyncSystem 2 Semaphore (RoundRobin (Fin 2)) := SyncSystem.initial ⟨0, 1⟩
    let es : List (MonitorEvent 2 SemaphoreOp) := waitsForPermit ++ tickEvents 2147483647 ++ [.resume 0]
    let s : SyncSystem 2 Semaphore (RoundRobin (Fin 2)) := SyncSystem.run syncConfig ⟨0, 1⟩ es
    s.state.count + (granted s).card + Runs.total (SyncSystem.step syncConfig) (acquired syncConfig) s₀ es ≠
      0 + Runs.total (SyncSystem.step syncConfig) (accepted syncConfig) s₀ es := by
  intro s₀ es s
  let s₁ : SyncSystem 2 Semaphore (RoundRobin (Fin 2)) := SyncSystem.run syncConfig ⟨0, 1⟩ waitsForPermit
  have hasleep : Asleep 0 s₁.waits.kernel.ticks s₁.waits.kernel := by
    refine ⟨?_, ?_, ?_, .inr ⟨?_, ?_⟩⟩ <;> decide +kernel
  have hok : SyncOk s₁ := by
    have hrun : Runs.Along (SyncSystem.step syncConfig) SyncOrderly s₀ waitsForPermit := by decide +kernel
    have hinit : SemaphoreOk (⟨0, 1⟩ : Semaphore).countMax s₀ := .initial (Nat.zero_le 1)
    have hsemaphore : SemaphoreOk (⟨0, 1⟩ : Semaphore).countMax s₁ :=
      hrun.invariant (fun _ _ h he => SemaphoreOk.step h syncConfig he) hinit
    exact hsemaphore.sync
  have hresume : (((tickEvents 2147483647).foldl (SyncSystem.step syncConfig) s₁).stepResult syncConfig
      (.resume 0)).2 = some (.bool true) :=
    SyncSystem.resume_ticks rfl rfl hasleep hok.waits.linked (by decide +kernel)
      (show s₁.waits.pending 0 = some waitInfinite by decide +kernel) (by decide +kernel) (by decide +kernel)
  have hlast : (waitsForPermit ++ tickEvents 2147483647).foldl (SyncSystem.step syncConfig) s₀ =
      (tickEvents 2147483647).foldl (SyncSystem.step syncConfig) s₁ := List.foldl_append
  have hacquired : 1 ≤ Runs.total (SyncSystem.step syncConfig) (acquired syncConfig) s₀ es := by
    rw [Runs.total_append, hlast, Runs.total]
    unfold acquired
    rw [hresume]
    simp
  have haccepted : Runs.total (SyncSystem.step syncConfig) (accepted syncConfig) s₀ es = 0 := by
    rw [Runs.total_append, Runs.total_append, accepted_ticks, hlast]
    have hfirst : Runs.total (SyncSystem.step syncConfig) (accepted syncConfig) s₀ waitsForPermit = 0 := by
      decide +kernel
    rw [hfirst, Runs.total]
    unfold accepted
    rw [hresume]
    rfl
  omega

end Stk.Analysis
