import Stk.Analysis.MonotonicTick
import Stk.Foundation.BusyWindow

/-!
# The slices of a run

A run of a `KERNEL_HRT` kernel under `SwitchStrategyMonotonic`, cut into slices, one from each tick to the next.
In a slice the first task of the strategy that is awake has the processor; a task that has got the slices of its
budget calls `SwitchToNext` in the last of them.  A slice that a task begins awake is one in which its job is
pending, so the slices are a schedule by priority.
-/

set_option autoImplicit false

namespace Stk.Analysis

open Stk.Model Stk.Model.Kernel BusyWindow

/-! ## Slices -/

section Slices

variable {n : ℕ} {σ : Type}

/-- The task `i` begins slice `s` awake. -/
def pendingIn (slices : List (Kernel n σ)) (s : ℕ) (i : Fin n) : Bool :=
  (slices[s]?).any fun k => !(k.tasks i).isSleeping

/-- The task that has the processor in slice `s`. -/
def runsIn (slices : List (Kernel n σ)) (s : ℕ) : Option (Fin n) := (slices[s]?).bind runner

/-- A kernel and what it was like at the beginning of each slice, after `OnStart` and after each tick. -/
structure Timeline (n : ℕ) (σ : Type) where
  kernel : Kernel n σ
  slices : List (Kernel n σ)

namespace Timeline

/-- The slices of its job that task `i` has got, with the current one. -/
def spent (s : Timeline n σ) (i : Fin n) : ℕ :=
  (s.slices.drop (s.slices.length - ((s.kernel.tasks i).hrt.duration.toNat + 1))).countP
    fun k => decide (runner k = some i)

variable [SwitchStrategy (Fin n) σ]

/-- The scheduler starts. -/
def start (cfg : Config) (k : Kernel n σ) : Timeline n σ := ⟨k.step cfg .onStart, [k.step cfg .onStart]⟩

/-- A tick ends a slice and begins the next one. -/
def step (cfg : Config) (s : Timeline n σ) (ev : KernelEvent n) : Timeline n σ :=
  ⟨s.kernel.step cfg ev,
    match ev with
    | .onTick t =>
      if s.kernel.ticksWith cfg t then s.slices ++ [s.kernel.step cfg (.onTick t)] else s.slices
    | _ => s.slices⟩

theorem foldl_kernel (cfg : Config) (s : Timeline n σ) (es : List (KernelEvent n)) :
    (es.foldl (step cfg) s).kernel = es.foldl (Kernel.step cfg) s.kernel := by
  induction es generalizing s with
  | nil => rfl
  | cons ev es ih => exact ih (s.step cfg ev)

end Timeline

/-- The steps of a run in which the tasks do nothing but their jobs, each with at most the slices of its budget
`C`: a task completes a job with `SwitchToNext` while it runs, no later than in the last slice of its budget; no
task waits, exits, is suspended, resumed or removed. -/
def WithinBudget (cfg : Config) (C : Fin n → ℕ) (s : Timeline n σ) : KernelEvent n → Prop
  | .onTick t => s.kernel.ticksWith cfg t = true →
    ∀ i, OnProcessor s.kernel i → (s.kernel.tasks i).isSleeping = false → s.spent i < C i
  | .switchToNext i => OnProcessor s.kernel i ∧ (s.kernel.tasks i).isSleeping = false
  | .wait _ _ _ | .taskExit _ | .suspendTask _ | .resumeTask _ | .scheduleTaskRemoval _ => False
  | _ => True

instance decidableWithinBudget (cfg : Config) (C : Fin n → ℕ) (s : Timeline n σ) :
    ∀ ev : KernelEvent n, Decidable (WithinBudget cfg C s ev)
  | .onTick t => inferInstanceAs (Decidable (s.kernel.ticksWith cfg t = true →
      ∀ i, OnProcessor s.kernel i → (s.kernel.tasks i).isSleeping = false → s.spent i < C i))
  | .switchToNext i => inferInstanceAs (Decidable (OnProcessor s.kernel i ∧ (s.kernel.tasks i).isSleeping = false))
  | .wait _ _ _ | .taskExit _ | .suspendTask _ | .resumeTask _ | .scheduleTaskRemoval _ => .isFalse id
  | .addTask _ | .addTaskHrt _ _ _ _ | .removeTask _ | .onStart | .onStop | .onSuspend
  | .requestAddTask _ _ | .sleep _ _ | .sleepUntil _ _ | .waitReturn _ | .sleepCancel _
  | .wakeOne _ | .wakeAll _ | .inheritWeight _ _ | .restoreWeight _ _ => .isTrue trivial

/-! ## One more slice -/

variable {slices : List (Kernel n σ)} {k k' : Kernel n σ} {i : Fin n} {s : ℕ}

theorem pendingIn_concat_lt (hs : s < slices.length) : pendingIn (slices ++ [k]) s = pendingIn slices s := by
  unfold pendingIn
  rw [List.getElem?_append_left hs]

theorem pendingIn_concat_length : pendingIn (slices ++ [k]) slices.length i = !(k.tasks i).isSleeping := by
  simp [pendingIn]

theorem runsIn_concat_lt (hs : s < slices.length) : runsIn (slices ++ [k]) s = runsIn slices s := by
  unfold runsIn
  rw [List.getElem?_append_left hs]

theorem runsIn_concat_length : runsIn (slices ++ [k]) slices.length = runner k := by
  simp [runsIn]

/-- INTERNAL: the slices that a task has got, counted over the list. -/
theorem served_eq_countP (slices : List (Kernel n σ)) (i : Fin n) {a : ℕ} (ha : a ≤ slices.length) :
    served (runsIn slices) i a slices.length = (slices.drop a).countP fun k => decide (runner k = some i) := by
  induction slices using List.reverseRecOn with
  | nil =>
    obtain rfl : a = 0 := Nat.le_zero.mp ha
    simp [served]
  | append_singleton slices k ih =>
    rw [List.length_append, List.length_singleton] at ha ⊢
    by_cases hlast : a = slices.length + 1
    · subst hlast
      have hnil : (slices ++ [k]).drop (slices.length + 1) = [] := by
        apply List.drop_of_length_le
        simp
      rw [served_self, hnil]
      rfl
    · have ha' : a ≤ slices.length := by omega
      rw [served_succ _ _ ha', served_congr (fun s _ hs => runsIn_concat_lt hs), ih ha', runsIn_concat_length,
        List.drop_append_of_le_length ha', List.countP_append]
      congr 1
      by_cases hrun : runner k = some i
      · simp [hrun]
      · simp [hrun]

end Slices

/-! ## Where a task stands -/

section Stands

variable {n : ℕ} {σ : Type} {pending pending' : ℕ → Fin n → Bool} {H P : ℕ} {i : Fin n} {k k' : Kernel n σ}

/-- Where the task in slot `i`, of period `P`, stands when `H` slices have begun. -/
inductive Stands (pending : ℕ → Fin n → Bool) (H : ℕ) (i : Fin n) (P : ℕ) (k : Kernel n σ) : Prop where
  | working (act : ℕ) (hact : act < H) (hwork : Working i P act k) (hreleased : Released pending i act)
      (hfrom : PendingFrom pending i act (H - 1))
  | yielded (act : ℕ) (hact : act < H) (hyield : Yielded i P act k) (hreleased : Released pending i act)
      (hfrom : PendingFrom pending i act (H - 1))
  | resting (due : ℤ) (hrest : Resting i P due k) (hoff : pending (H - 1) i = false)
      (hlast : ∀ b < H, Released pending i b → (b : ℤ) + P ≤ due)

theorem Stands.frame (h : Stands pending H i P k) (hs : SameTurn i k k') : Stands pending H i P k' := by
  cases h with
  | working act hact hwork hreleased hfrom => exact .working act hact (hwork.frame hs) hreleased hfrom
  | yielded act hact hyield hreleased hfrom => exact .yielded act hact (hyield.frame hs) hreleased hfrom
  | resting due hrest hoff hlast => exact .resting due (hrest.frame hs) hoff hlast

theorem Stands.periodic (h : Stands pending H i P k) : Periodic i P k := by
  cases h with
  | working _ _ hwork _ _ => exact hwork.toPeriodic
  | yielded _ _ hyield _ _ => exact hyield.toPeriodic
  | resting _ hrest _ _ => exact hrest.toPeriodic

theorem Yielded.isSleeping {act : ℤ} (h : Yielded i P act k) : (k.tasks i).isSleeping = true := by
  simp [KernelTask.isSleeping, h.time, yieldTicks]

theorem Resting.isSleeping {due : ℤ} (h : Resting i P due k) : (k.tasks i).isSleeping = true := by
  have htime := h.time
  have hearly := h.early
  rw [KernelTask.isSleeping_iff]
  omega

/-- INTERNAL: a task that is awake works on a job. -/
theorem Stands.awake (h : Stands pending H i P k) (hawake : (k.tasks i).isSleeping = false) :
    ∃ act < H, Working i P act k ∧ Released pending i act ∧ PendingFrom pending i act (H - 1) := by
  cases h with
  | working act hact hwork hreleased hfrom => exact ⟨act, hact, hwork, hreleased, hfrom⟩
  | yielded act _ hyield _ _ =>
    rw [hyield.isSleeping] at hawake
    cases hawake
  | resting due hrest _ _ =>
    rw [hrest.isSleeping] at hawake
    cases hawake

variable [SwitchStrategy (Fin n) σ] {cfg : Config}

/-- INTERNAL: a slot that is done is asleep when the tick asks for the next task. -/
theorem Stands.done_asleep (h : Stands pending H i P k) (hhrt : cfg.isHrtMode = true) (hk : Linked k)
    (hdone : ((asking cfg k 1).tasks i).hrt.done = true) : ((asking cfg k 1).tasks i).isSleeping = true := by
  have hp := h.periodic
  have hturn : SameTurn i (({ k with ticks := k.ticks + 1 } : Kernel n σ).setTask i (counted 1)) (asking cfg k 1) :=
    SameTurn.updateTasks (k := { k with ticks := k.ticks + 1 }) hhrt 1
      ⟨hk.mem, hk.nodup, hk.syncNodup, hk.registered⟩ hp.busy hp.live hp.unlinked
  have hcounted : (counted 1 (k.tasks i)).hrt.done = (k.tasks i).hrt.done := by
    unfold counted
    split
    · rfl
    · rfl
  rw [hturn.job.hrt] at hdone
  simp only [Kernel.setTask, Function.update_self, hcounted] at hdone
  cases h with
  | working act _ hwork _ _ =>
    rw [hwork.done] at hdone
    cases hdone
  | yielded act _ hyield _ _ =>
    rw [KernelTask.isSleeping_iff, hturn.job.time]
    simp [Kernel.setTask, counted, hyield.isSleeping, hyield.time, yieldTicks]
  | resting due hrest _ _ =>
    rw [hrest.done] at hdone
    cases hdone

/-- INTERNAL: a tick, with the slice that it begins. -/
theorem Stands.onTick (h : Stands pending H i P k) (hhrt : cfg.isHrtMode = true) (hk : Linked k)
    (hd : Dispatches cfg (asking cfg k 1)) (hH : k.ticks + 1 = H)
    (hsep : ∀ a b, Released pending i a → Released pending i b → a < b → b < H → a + P ≤ b)
    (hsame : ∀ s < H, pending' s = pending s) (hnew : pending' H i = !((k.onTick cfg 1).1.tasks i).isSleeping) :
    Stands pending' (H + 1) i P (k.onTick cfg 1).1 ∧
      ∀ a < H, Released pending i a → Released pending' i H → a + P ≤ H := by
  have hforth : ∀ {a}, a < H → Released pending i a → Released pending' i a := by
    intro a ha hreleased
    exact hreleased.congr fun s hs => congrFun (hsame s (by omega)) i
  have hback : ∀ {a}, a < H → Released pending' i a → Released pending i a := by
    intro a ha hreleased
    exact hreleased.congr fun s hs => (congrFun (hsame s (by omega)) i).symm
  cases h with
  | working act hact hwork hreleased hfrom =>
    have hnext := hwork.onTick hhrt hk 1 hd
    rw [hnext.awake] at hnew
    refine ⟨.working act (by omega) hnext (hforth hact hreleased) ?_, ?_⟩
    · intro s hs hs'
      rcases Nat.lt_or_ge s H with hlt | hge
      · rw [hsame s hlt]
        exact hfrom s hs (by omega)
      · obtain rfl : s = H := by omega
        exact hnew
    · intro a _ _ hlate
      rcases hlate.2 with hzero | hbefore
      · omega
      · rw [hsame (H - 1) (by omega), hfrom (H - 1) (by omega) le_rfl] at hbefore
        cases hbefore
  | yielded act hact hyield hreleased hfrom =>
    obtain ⟨due, hrest, hdue⟩ := hyield.onTick hhrt hk hd
    rw [hrest.isSleeping] at hnew
    refine ⟨.resting due hrest (by simpa using hnew) ?_, ?_⟩
    · intro b hb hb'
      rcases Nat.lt_or_ge b H with hlt | hge
      · have hle : b ≤ act := by
          by_contra hlater
          rcases (hback hlt hb').2 with hzero | hbefore
          · omega
          · rw [hfrom (b - 1) (by omega) (by omega)] at hbefore
            cases hbefore
        rcases Nat.lt_or_ge b act with hearlier | hlast
        · have := hsep b act (hback hlt hb') hreleased hearlier hact
          omega
        · omega
      · obtain rfl : b = H := by omega
        rw [hb'.1] at hnew
        cases hnew
    · intro a _ _ hlate
      rw [hlate.1] at hnew
      cases hnew
  | resting due hrest hoff hlast =>
    rcases hrest.onTick hhrt hk hd with hnext | ⟨hticks, hwork⟩
    · rw [hnext.isSleeping] at hnew
      refine ⟨.resting due hnext (by simpa using hnew) ?_, ?_⟩
      · intro b hb hb'
        rcases Nat.lt_or_ge b H with hlt | hge
        · exact hlast b hlt (hback hlt hb')
        · obtain rfl : b = H := by omega
          rw [hb'.1] at hnew
          cases hnew
      · intro a _ _ hlate
        rw [hlate.1] at hnew
        cases hnew
    · rw [hwork.awake] at hnew
      have hdue : due = H := by
        obtain ⟨-, -, -, hnow⟩ := hrest.toPeriodic.onTick hhrt hk 1 hd
        rw [← hticks, hnow]
        exact hH
      subst hdue
      refine ⟨.working H (Nat.lt_succ_self H) hwork ⟨hnew, ?_⟩ ?_, ?_⟩
      · rcases Nat.eq_zero_or_pos H with hzero | hpos
        · exact .inl hzero
        · rw [hsame (H - 1) (by omega)]
          exact .inr hoff
      · intro s hs hs'
        obtain rfl : s = H := by omega
        exact hnew
      · intro a ha hreleased _
        have := hlast a ha hreleased
        omega

end Stands

/-! ## Runs -/

section Runs

variable {n : ℕ} {type : MonotonicType} {cfg : Config} {order : List (Fin n)} {C T W : Fin n → ℕ} {i : Fin n}

/-- The tasks `order` of budgets `C` and periods `T` are schedulable, with the windows `W`. -/
structure TestedSet (order : List (Fin n)) (C T W : Fin n → ℕ) : Prop where
  budget_pos : ∀ i ∈ order, 0 < C i
  period_pos : ∀ i ∈ order, 0 < T i
  window : ∀ higher i lower, order = higher ++ i :: lower → demand C T higher i (W i) ≤ W i
  inPeriod : ∀ i ∈ order, W i ≤ T i

/-- What holds between the calls of a run within budgets. -/
structure TimelineOk (cfg : Config) (order : List (Fin n)) (C T : Fin n → ℕ)
    (s : Timeline n (Monotonic type (Fin n))) : Prop where
  enrolled : Enrolled cfg s.kernel
  sound : ∃ active, Sound cfg s.kernel active
  linked : Linked s.kernel
  order_eq : s.kernel.strategy.tasks = order
  started : s.kernel.taskNow ≠ none
  begun : 0 < s.slices.length
  clock : s.kernel.ticks + 1 = s.slices.length
  latest : runsIn s.slices (s.slices.length - 1) = runner s.kernel
  schedule : PrioritySchedule order C T s.slices.length (pendingIn s.slices) (runsIn s.slices)
  stands : ∀ i ∈ order, Stands (pendingIn s.slices) s.slices.length i (T i) s.kernel

namespace TimelineOk

variable {s : Timeline n (Monotonic type (Fin n))} (h : TimelineOk cfg order C T s)
include h

theorem busy (hi : i ∈ order) : (s.kernel.tasks i).user ≠ none := by
  apply (h.enrolled.mem i).mp
  show i ∈ s.kernel.strategy.tasks
  rw [h.order_eq]
  exact hi

theorem mem_order (hbusy : (s.kernel.tasks i).user ≠ none) : i ∈ order := by
  rw [← h.order_eq]
  exact (h.enrolled.mem i).mpr hbusy

theorem live (i : Fin n) : (s.kernel.tasks i).removePending = false := by
  by_contra hpending
  have hbusy := h.enrolled.pending i (by simpa using hpending)
  exact hpending (h.stands i (h.mem_order hbusy)).periodic.live

/-- A job that is not over has been pending for less than its window. -/
theorem response_lt (htested : TestedSet order C T W) (hi : i ∈ order)
    (hawake : (s.kernel.tasks i).isSleeping = false) : (s.kernel.tasks i).hrt.duration < W i := by
  obtain ⟨act, hact, hwork, hreleased, hfrom⟩ := (h.stands i hi).awake hawake
  obtain ⟨higher, lower, horder⟩ := List.append_of_mem hi
  have hlt := h.schedule.response_lt horder (fun j hj => htested.period_pos j (horder ▸ List.mem_append_left _ hj))
    (htested.window higher i lower horder) hreleased hfrom (by omega) (by omega)
  have hclock := h.clock
  have hduration := hwork.duration
  omega

/-- INTERNAL: what a task that is awake has got of its job is what the schedule counts. -/
theorem spent_eq {act : ℕ} (hact : act < s.slices.length) (hwork : Working i (T i) act s.kernel) :
    s.spent i = served (runsIn s.slices) i act s.slices.length := by
  have hclock := h.clock
  have hduration := hwork.duration
  have hdrop : s.slices.length - ((s.kernel.tasks i).hrt.duration.toNat + 1) = act := by omega
  unfold Timeline.spent
  rw [hdrop, served_eq_countP s.slices i (le_of_lt hact)]

/-- INTERNAL: the slice before the tick is within the budget of the task that had it. -/
theorem served_lt (hi : i ∈ order)
    (hbudget : ∀ i, OnProcessor s.kernel i → (s.kernel.tasks i).isSleeping = false → s.spent i < C i) {act : ℕ}
    (hact : act < s.slices.length) (hwork : Working i (T i) act s.kernel)
    (hreleased : Released (pendingIn s.slices) i act)
    (hfrom : PendingFrom (pendingIn s.slices) i act (s.slices.length - 1)) :
    served (runsIn s.slices) i act s.slices.length < C i := by
  by_cases hon : OnProcessor s.kernel i
  · rw [← h.spent_eq hact hwork]
    exact hbudget i hon hwork.awake
  · have hbefore := h.schedule.budget i hi act (s.slices.length - 1) hreleased hfrom (by omega) (by omega)
    have hlast := served_succ (runsIn s.slices) i (by omega : act ≤ s.slices.length - 1)
    rw [Nat.sub_add_cancel (by omega), if_neg] at hlast
    · omega
    · rw [h.latest]
      intro hrun
      exact hon (runner_eq_some.mp hrun)

/-- INTERNAL: a tick that ends a slice within budgets. -/
theorem onTick (htested : TestedSet order C T W) (hhrt : cfg.isHrtMode = true)
    (hbudget : ∀ i, OnProcessor s.kernel i → (s.kernel.tasks i).isSleeping = false → s.spent i < C i) :
    TimelineOk cfg order C T ⟨(s.kernel.onTick cfg 1).1, s.slices ++ [(s.kernel.onTick cfg 1).1]⟩ := by
  obtain ⟨active, hsound⟩ := h.sound
  obtain ⟨now, hnow⟩ := Option.ne_none_iff_exists'.mp h.started
  have hcfg : AcceptsStatic (Monotonic type (Fin n)) cfg := fun _ => trivial
  have hbegun := h.begun
  have hnowin := h.mem_order (hsound.bound now hnow)
  obtain ⟨henrolled, hsound', -⟩ := onTick_sound h.enrolled hcfg hsound hnow 1
  obtain ⟨hasking, -⟩ := h.enrolled.asking hcfg hsound.bound 1
  have hbusyask : ((asking cfg s.kernel 1).tasks now).user ≠ none := by
    rw [(asking_monotonic hhrt h.live 1).2 now]
    exact h.busy hnowin
  have hd := hasking.dispatches hbusyask
  have hdone : ∀ j, ((asking cfg s.kernel 1).tasks j).user ≠ none →
      ((asking cfg s.kernel 1).tasks j).hrt.done = true → ((asking cfg s.kernel 1).tasks j).isSleeping = true := by
    intro j hj
    rw [(asking_monotonic hhrt h.live 1).2 j] at hj
    exact (h.stands j (h.mem_order hj)).done_asleep hhrt h.linked
  obtain ⟨hstrategy, hfirst⟩ := onTick_first h.enrolled hcfg hsound h.started hhrt h.live 1 hdone
  have hticks : (s.kernel.onTick cfg 1).1.ticks = s.kernel.ticks + 1 := by
    obtain ⟨-, -, -, hticks⟩ := (h.stands now hnowin).periodic.onTick hhrt h.linked 1 hd
    exact hticks
  have hstep : ∀ i ∈ order,
      Stands (pendingIn (s.slices ++ [(s.kernel.onTick cfg 1).1])) (s.slices.length + 1) i (T i)
          (s.kernel.onTick cfg 1).1 ∧
        ∀ a < s.slices.length, Released (pendingIn s.slices) i a →
          Released (pendingIn (s.slices ++ [(s.kernel.onTick cfg 1).1])) i s.slices.length →
            a + T i ≤ s.slices.length := by
    intro i hi
    exact (h.stands i hi).onTick hhrt h.linked hd h.clock (h.schedule.separated i hi)
      (fun _ hs => pendingIn_concat_lt hs) pendingIn_concat_length
  refine ⟨henrolled, ⟨_, hsound'⟩, onTick_linked cfg h.linked 1, ?_, ?_, ?_, ?_, ?_, ?_, ?_⟩
  · rw [hstrategy]
    exact h.order_eq
  · exact (hstep now hnowin).1.periodic.started
  · simp
  · have hclock := h.clock
    simp only [List.length_append, List.length_singleton]
    omega
  · rw [List.length_append, List.length_singleton, Nat.add_sub_cancel, runsIn_concat_length]
  · rw [List.length_append, List.length_singleton]
    refine h.schedule.extend (fun _ hs => pendingIn_concat_lt hs) (fun _ hs => runsIn_concat_lt hs) ?_ ?_ ?_
    · rw [runsIn_concat_length, hfirst]
      unfold firstAwake
      rw [hstrategy, h.order_eq]
      congr 1
      funext i
      exact pendingIn_concat_length.symm
    · intro j hj a hreleased hfrom ha
      rw [served_congr (fun s _ hs => runsIn_concat_lt hs)]
      rcases Nat.lt_or_ge a s.slices.length with hlt | hge
      · have hfrom' : PendingFrom (pendingIn s.slices) j a (s.slices.length - 1) := by
          intro t hs hs'
          rw [← pendingIn_concat_lt (k := (s.kernel.onTick cfg 1).1) (by omega)]
          exact hfrom t hs (by omega)
        have hreleased' : Released (pendingIn s.slices) j a :=
          hreleased.congr fun t ht => (congrFun (pendingIn_concat_lt (by omega)) j).symm
        have hstill := hfrom s.slices.length ha le_rfl
        rw [pendingIn_concat_length] at hstill
        obtain ⟨act, hact, hwork, hreleased'', hfrom''⟩ :
            ∃ act < s.slices.length, Working j (T j) act s.kernel ∧ Released (pendingIn s.slices) j act ∧
              PendingFrom (pendingIn s.slices) j act (s.slices.length - 1) := by
          cases h.stands j hj with
          | working act hact hwork hr hf => exact ⟨act, hact, hwork, hr, hf⟩
          | yielded act _ hyield _ _ =>
            obtain ⟨due, hrest, -⟩ := hyield.onTick hhrt h.linked hd
            rw [hrest.isSleeping] at hstill
            cases hstill
          | resting due _ hoff _ =>
            rw [hfrom' (s.slices.length - 1) (by omega) le_rfl] at hoff
            cases hoff
        obtain rfl : a = act := hreleased'.unique hfrom' hreleased'' hfrom'' (by omega) (by omega)
        exact h.served_lt hj hbudget hact hwork hreleased'' hfrom''
      · obtain rfl : a = s.slices.length := by omega
        rw [served_self]
        exact htested.budget_pos j hj
    · intro j hj
      exact (hstep j hj).2
  · intro i hi
    rw [List.length_append, List.length_singleton]
    exact (hstep i hi).1

/-- INTERNAL: a call that leaves the slices alone. -/
theorem frame {k' : Kernel n (Monotonic type (Fin n))} (henrolled : Enrolled cfg k') (hlinked : Linked k')
    (hcalm : Calm s.kernel k') (hticks : k'.ticks = s.kernel.ticks)
    (hstands : ∀ i ∈ order, Stands (pendingIn s.slices) s.slices.length i (T i) k') :
    TimelineOk cfg order C T ⟨k', s.slices⟩ := by
  obtain ⟨active, hsound⟩ := h.sound
  have hrunner : runner k' = runner s.kernel := by
    unfold runner
    rw [hcalm.taskNow, hcalm.fsmState]
  refine ⟨henrolled, ⟨active, hsound.keep hcalm.keepsBound henrolled.sane⟩, hlinked, ?_, ?_, h.begun, ?_, ?_,
    h.schedule, hstands⟩
  · rw [hcalm.strategy]
    exact h.order_eq
  · rw [hcalm.taskNow]
    exact h.started
  · rw [hticks]
    exact h.clock
  · rw [hrunner]
    exact h.latest

/-- INTERNAL: the calls of a run within budgets that are not ticks do not concern the scheduler. -/
theorem calm {ev : KernelEvent n} (hev : WithinBudget cfg C s ev)
    (htick : ∀ t, ev ≠ .onTick t) : Calm s.kernel (s.kernel.step cfg ev) := by
  have hstarted : s.kernel.isStarted = true := Option.isSome_iff_ne_none.mpr h.started
  have hexit : s.kernel.fsmState ≠ .exiting := by
    obtain ⟨active, hsound⟩ := h.sound
    intro hexit
    rcases hsound.started h.started with hs | hw | hsl
    · cases hs.symm.trans hexit
    · cases hw.symm.trans hexit
    · cases hsl.symm.trans hexit
  cases ev with
  | onTick t => exact absurd rfl (htick t)
  | addTask u =>
    have hsame : s.kernel.step cfg (.addTask u) = s.kernel := by simp [Kernel.step, hstarted]
    rw [hsame]
    exact .refl _
  | addTaskHrt u p d t =>
    have hsame : s.kernel.step cfg (.addTaskHrt u p d t) = s.kernel := by simp [Kernel.step, hstarted]
    rw [hsame]
    exact .refl _
  | removeTask u =>
    have hsame : s.kernel.step cfg (.removeTask u) = s.kernel := by simp [Kernel.step, hstarted]
    rw [hsame]
    exact .refl _
  | onStart =>
    have hsame : s.kernel.step cfg .onStart = s.kernel := by simp [Kernel.step, hstarted]
    rw [hsame]
    exact .refl _
  | onStop =>
    have hsame : s.kernel.step cfg .onStop = s.kernel := by simp [Kernel.step, hexit]
    rw [hsame]
    exact .refl _
  | inheritWeight u w => exact .refl _
  | restoreWeight u o => exact .refl _
  | taskExit _ | scheduleTaskRemoval _ => cases hev
  | _ => exact step_calm cfg s.kernel rfl

/-- INTERNAL: a task of a tested set keeps its period. -/
theorem keepsPeriod (htested : TestedSet order C T W) (hi : i ∈ order) {ev : KernelEvent n}
    (hev : WithinBudget cfg C s ev) (htick : ∀ t, ev ≠ .onTick t) : KeepsPeriod cfg i (T i) s.kernel ev := by
  cases ev with
  | onTick t => exact absurd rfl (htick t)
  | switchToNext j =>
    rintro rfl
    have hlt := h.response_lt htested hi hev.2
    have hle := htested.inPeriod j hi
    exact ⟨hev.1.1, hev.1.2, hev.2, by omega⟩
  | wait _ _ _ | taskExit _ | suspendTask _ | resumeTask _ | scheduleTaskRemoval _ => cases hev
  | _ => trivial

/-- INTERNAL: one step. -/
theorem step (htested : TestedSet order C T W) (hhrt : cfg.isHrtMode = true)
    (htickless : cfg.isTicklessMode = false) {ev : KernelEvent n} (hev : WithinBudget cfg C s ev) :
    TimelineOk cfg order C T (s.step cfg ev) := by
  by_cases htick : ∃ t, ev = .onTick t
  · obtain ⟨t, rfl⟩ := htick
    by_cases hticks : s.kernel.ticksWith cfg t = true
    · obtain rfl : t = 1 := by
        have hvalid := (Bool.and_eq_true_iff.mp hticks).2
        simp only [validElapsed, htickless, Bool.false_or, Bool.and_eq_true, decide_eq_true_eq] at hvalid
        exact hvalid.2
      have hstep : s.kernel.step cfg (.onTick 1) = (s.kernel.onTick cfg 1).1 := if_pos hticks
      have hnext := h.onTick htested hhrt (hev hticks)
      rw [← hstep] at hnext
      simpa only [Timeline.step, if_pos hticks] using hnext
    · have hstep : s.kernel.step cfg (.onTick t) = s.kernel := if_neg hticks
      simpa only [Timeline.step, if_neg hticks, hstep] using h
  · have htick' : ∀ t, ev ≠ .onTick t := fun t heq => htick ⟨t, heq⟩
    have hslices : s.step cfg ev = ⟨s.kernel.step cfg ev, s.slices⟩ := by
      cases ev with
      | onTick t => exact absurd rfl (htick' t)
      | _ => rfl
    have hcalm := h.calm hev htick'
    rw [hslices]
    refine h.frame (h.enrolled.calm hcalm) (step_linked cfg h.linked ev) hcalm (step_ticks cfg s.kernel htick') ?_
    intro i hi
    have hkeeps := h.keepsPeriod htested hi hev htick'
    by_cases hown : ev = .switchToNext i
    · subst hown
      obtain ⟨act, hact, hwork, hreleased, hfrom⟩ := (h.stands i hi).awake hev.2
      rcases hwork.switchToNext hhrt hkeeps with hwork' | hyield
      · exact .working act hact hwork' hreleased hfrom
      · exact .yielded act hact hyield hreleased hfrom
    · exact (h.stands i hi).frame
        ((h.stands i hi).periodic.step_sameTurn hhrt htickless h.linked hkeeps htick' hown)

end TimelineOk

end Runs

end Stk.Analysis
