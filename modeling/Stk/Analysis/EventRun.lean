import Stk.Analysis.SyncSystemInvariant
import Stk.Foundation.HandOff
import Stk.Model.Event

/-!
# The signals of an event

`EventStep` lists what a step can do to an event, to its wait list and to the tasks that it has
released.  Each orderly event of the system is one of them (`event_step`).  The signals of an
auto-reset event are permits: at most one is in store, and every `Set` that returns `true` brings one
in (`run_event`).
-/

set_option autoImplicit false

namespace Stk.Analysis

open Stk.Model Stk.Model.Kernel

/-! ## Steps of an event -/

section Steps

/-- An event, the tasks that wait for it and those that it has released. -/
structure EventView (n : ℕ) where
  event : Event
  queue : List (Fin n)
  granted : Finset (Fin n)

variable {n : ℕ} {v v' : EventView n} {e : MonitorEvent n EventOp} {r : Option MethodResult}

/-- The tasks that `Set` and `Pulse` release. -/
def EventView.released (v : EventView n) : List (Fin n) :=
  if v.event.manualReset then v.queue else v.queue.take 1

/-- The tasks that go on waiting. -/
def EventView.left (v : EventView n) : List (Fin n) :=
  if v.event.manualReset then [] else v.queue.drop 1

/-- The method is called by a task or by an interrupt handler. -/
def CallOf {α : Type} (op : α) (e : MonitorEvent n α) : Prop :=
  e = .isr op ∨ ∃ i, e = .call i op

/-- The method that is called in the step. -/
def calledOp {α : Type} : MonitorEvent n α → Option α
  | .call _ op | .isr op => some op
  | .resume _ | .kernel _ => none

theorem CallOf.calledOp {α : Type} {op : α} {e : MonitorEvent n α} (h : CallOf op e) : calledOp e = some op := by
  rcases h with rfl | ⟨i, rfl⟩
  · rfl
  · rfl

/-- `Wait` and `TryWait`. -/
def isWaitOp : EventOp → Bool
  | .wait _ | .tryWait => true
  | _ => false

/-- What a step does to an event, with the result of a method that returns in it. -/
inductive EventStep (v : EventView n) : MonitorEvent n EventOp → Option MethodResult → EventView n → Prop
  | ignored {e : MonitorEvent n EventOp} : EventStep v e none v
  | expire {e : KernelEvent n} {l : List (Fin n)} (hsub : l.Sublist v.queue) :
    EventStep v (.kernel e) none ⟨v.event, l, v.granted⟩
  | collect {i : Fin n} (hi : i ∈ v.granted) :
    EventStep v (.resume i) (some (.bool true)) ⟨v.event, v.queue, v.granted.erase i⟩
  | timedOut {i : Fin n} (hi : i ∉ v.granted) : EventStep v (.resume i) (some (.bool false)) v
  | block {i : Fin n} {timeout : ℤ} (hoff : v.event.signaled = false) (hqueue : i ∉ v.queue)
    (hgranted : i ∉ v.granted) :
    EventStep v (.call i (.wait timeout)) none ⟨v.event, v.queue ++ [i], v.granted⟩
  | take {e : MonitorEvent n EventOp} {op : EventOp} (he : CallOf op e) (hop : isWaitOp op = true)
    (hon : v.event.signaled = true) :
    EventStep v e (some (.bool true)) ⟨{ v.event with signaled := v.event.manualReset }, v.queue, v.granted⟩
  | refuse {e : MonitorEvent n EventOp} {op : EventOp} (he : CallOf op e) (hop : isWaitOp op = true)
    (hoff : v.event.signaled = false) : EventStep v e (some (.bool false)) v
  | setAgain {e : MonitorEvent n EventOp} (he : CallOf .set e) (hon : v.event.signaled = true) :
    EventStep v e (some (.bool false)) v
  | set {e : MonitorEvent n EventOp} (he : CallOf .set e) (hoff : v.event.signaled = false) :
    EventStep v e (some (.bool true)) ⟨{ v.event with signaled := v.event.manualReset || v.queue.isEmpty },
      v.left, v.granted ∪ v.released.toFinset⟩
  | pulse {e : MonitorEvent n EventOp} (he : CallOf .pulse e) :
    EventStep v e (some .void) ⟨{ v.event with signaled := false }, v.left, v.granted ∪ v.released.toFinset⟩
  | reset {e : MonitorEvent n EventOp} (he : CallOf .reset e) :
    EventStep v e (some (.bool v.event.signaled)) ⟨{ v.event with signaled := false }, v.queue, v.granted⟩

/-- What every step keeps. -/
structure EventSound (v : EventView n) : Prop where
  queue_nil : v.event.signaled = true → v.queue = []
  nodup : v.queue.Nodup
  disjoint : ∀ i ∈ v.queue, i ∉ v.granted

theorem EventStep.manualReset (h : EventStep v e r v') : v'.event.manualReset = v.event.manualReset := by
  cases h with
  | _ => rfl

/-- INTERNAL: the tasks that are left have waited before. -/
theorem EventView.left_sublist (v : EventView n) : v.left.Sublist v.queue := by
  unfold EventView.left
  split
  · exact List.nil_sublist _
  · exact List.drop_sublist 1 v.queue

/-- INTERNAL: a task is released or left, not both. -/
theorem EventSound.left_disjoint (h : EventSound v) {i : Fin n} (hi : i ∈ v.left) :
    i ∉ v.granted ∪ v.released.toFinset := by
  rw [Finset.mem_union, List.mem_toFinset]
  rintro (hgranted | hreleased)
  · exact h.disjoint i (v.left_sublist.subset hi) hgranted
  · unfold EventView.left at hi
    unfold EventView.released at hreleased
    split at hi
    · cases hi
    · next hauto =>
      rw [if_neg hauto] at hreleased
      have hnodup := h.nodup
      rw [← List.take_append_drop 1 v.queue] at hnodup
      exact (List.nodup_append.mp hnodup).2.2 i hreleased i hi rfl

theorem EventStep.sound (h : EventStep v e r v') (hv : EventSound v) : EventSound v' := by
  cases h with
  | ignored => exact hv
  | expire hsub =>
    refine ⟨?_, hv.nodup.sublist hsub, fun i hi => hv.disjoint i (hsub.subset hi)⟩
    intro hon
    apply List.eq_nil_of_sublist_nil
    rw [← hv.queue_nil hon]
    exact hsub
  | collect => exact ⟨hv.queue_nil, hv.nodup, fun j hj hmem => hv.disjoint j hj (Finset.mem_of_mem_erase hmem)⟩
  | timedOut => exact hv
  | @block i timeout hoff hqueue hgranted =>
    refine ⟨?_, ?_, ?_⟩
    · intro hon
      rw [hoff] at hon
      cases hon
    · apply List.nodup_append.mpr
      refine ⟨hv.nodup, List.nodup_singleton i, ?_⟩
      intro j hj j' hj' heq
      rw [heq, List.mem_singleton.mp hj'] at hj
      exact hqueue hj
    · intro j hj
      rcases List.mem_append.mp hj with hj | hj
      · exact hv.disjoint j hj
      · rw [List.mem_singleton.mp hj]
        exact hgranted
  | take he hop hon => exact ⟨fun _ => hv.queue_nil hon, hv.nodup, hv.disjoint⟩
  | refuse => exact hv
  | setAgain => exact hv
  | set he hoff =>
    refine ⟨?_, hv.nodup.sublist v.left_sublist, fun i hi => hv.left_disjoint hi⟩
    -- an auto-reset event stays signaled only if nobody waits
    intro hon
    rcases Bool.or_eq_true_iff.mp hon with hmanual | hempty
    · exact if_pos hmanual
    · have hnil : v.queue = [] := List.isEmpty_iff.mp hempty
      apply List.eq_nil_of_sublist_nil
      rw [← hnil]
      exact v.left_sublist
  | pulse he => exact ⟨(fun hon => nomatch hon), hv.nodup.sublist v.left_sublist, fun i hi => hv.left_disjoint hi⟩
  | reset he => exact ⟨(fun hon => nomatch hon), hv.nodup, hv.disjoint⟩

/-! ## Signals as permits -/

/-- `Wait` or `TryWait` returns in the step, if a method does. -/
def waits : MonitorEvent n EventOp → Bool
  | .call _ op | .isr op => isWaitOp op
  | .resume _ => true
  | .kernel _ => false

theorem CallOf.waits {op : EventOp} (h : CallOf op e) : waits e = isWaitOp op := by
  rcases h with rfl | ⟨i, rfl⟩
  · rfl
  · rfl

/-- A `Wait` or `TryWait` returns `true`. -/
def signalTaken (e : MonitorEvent n EventOp) (r : Option MethodResult) : ℕ :=
  if waits e = true ∧ r = some (.bool true) then 1 else 0

/-- A `Set` returns `true`. -/
def raised (e : MonitorEvent n EventOp) (r : Option MethodResult) : ℕ :=
  if calledOp e = some .set ∧ r = some (.bool true) then 1 else 0

/-- A `Pulse` returns. -/
def pulsed (e : MonitorEvent n EventOp) (r : Option MethodResult) : ℕ :=
  if calledOp e = some .pulse ∧ r = some .void then 1 else 0

/-- A `Pulse` returns that has released a task. -/
def pulseReleased (v : EventView n) (e : MonitorEvent n EventOp) (r : Option MethodResult) : ℕ :=
  if v.queue = [] then 0 else pulsed e r

/-- A `Reset` or `Pulse` returns that has found the event signaled. -/
def revoked (v : EventView n) (e : MonitorEvent n EventOp) (r : Option MethodResult) : ℕ :=
  if (calledOp e = some .reset ∨ calledOp e = some .pulse) ∧ r ≠ none then v.event.signaled.toNat else 0

/-- The signals of an auto-reset event. -/
def signals (v : EventView n) : HandOff.State (Fin n) := ⟨v.event.signaled.toNat, v.queue, v.granted⟩

theorem EventSound.signals (h : EventSound v) : HandOff.Sound 1 (signals v) := by
  refine ⟨Bool.toNat_le _, ?_, h.nodup, h.disjoint⟩
  intro hpos
  apply h.queue_nil
  cases hon : v.event.signaled with
  | true => rfl
  | false =>
    replace hpos : 0 < v.event.signaled.toNat := hpos
    rw [hon] at hpos
    cases hpos

/-- The step is the move `m` of the signals. -/
structure SignalMove (v : EventView n) (e : MonitorEvent n EventOp) (r : Option MethodResult) (v' : EventView n)
    (m : HandOff.Move (Fin n)) : Prop where
  step : HandOff.Step 1 (signals v) m (signals v')
  taken : m.taken = signalTaken e r
  posted : m.posted = raised e r + pulseReleased v e r
  cancelled : m.cancelled (signals v) = revoked v e r

/-- INTERNAL: a step in which no signal moves. -/
theorem SignalMove.giveUp {l : List (Fin n)} (hsub : l.Sublist v.queue) (htaken : signalTaken e r = 0)
    (hraised : raised e r = 0) (hpulsed : pulsed e r = 0) (hrevoked : revoked v e r = 0) :
    SignalMove v e r ⟨v.event, l, v.granted⟩ .giveUp := by
  refine ⟨.giveUp hsub, htaken.symm, ?_, hrevoked.symm⟩
  unfold pulseReleased
  rw [hraised, hpulsed]
  simp [HandOff.Move.posted]

/-- INTERNAL: `Set` and `Pulse` of an auto-reset event hand the signal to the first waiter. -/
theorem releases_cons (hauto : v.event.manualReset = false) {i : Fin n} {l : List (Fin n)} (hl : v.queue = i :: l) :
    v.left = l ∧ v.granted ∪ v.released.toFinset = insert i v.granted := by
  unfold EventView.left EventView.released
  rw [hauto, if_neg Bool.false_ne_true, if_neg Bool.false_ne_true, hl]
  refine ⟨rfl, ?_⟩
  rw [Finset.insert_eq, Finset.union_comm]
  simp

/-- INTERNAL: nobody is released if nobody waits. -/
theorem releases_nil (hl : v.queue = []) : v.left = v.queue ∧ v.granted ∪ v.released.toFinset = v.granted := by
  unfold EventView.left EventView.released
  rw [hl]
  simp

/-- **Every step of an auto-reset event is a move of its signals.** -/
theorem EventStep.signalMove (h : EventStep v e r v') (hauto : v.event.manualReset = false) (hv : EventSound v) :
    ∃ m, SignalMove v e r v' m := by
  cases h with
  | ignored =>
    exact ⟨.giveUp, .giveUp (List.Sublist.refl _) (by simp [signalTaken]) (by simp [raised]) (by simp [pulsed])
      (by simp [revoked])⟩
  | expire hsub =>
    exact ⟨.giveUp, .giveUp hsub (by simp [signalTaken]) (by simp [raised]) (by simp [pulsed]) (by simp [revoked])⟩
  | @collect i hi =>
    refine ⟨.collect i, .collect hi, ?_, ?_, ?_⟩
    · simp [signalTaken, waits, HandOff.Move.taken]
    · simp [raised, pulseReleased, pulsed, calledOp, HandOff.Move.posted]
    · simp [revoked, calledOp, HandOff.Move.cancelled]
  | timedOut =>
    exact ⟨.giveUp, .giveUp (List.Sublist.refl _) (by simp [signalTaken]) (by simp [raised]) (by simp [pulsed])
      (by simp [revoked, calledOp])⟩
  | @block i timeout hoff hqueue hgranted =>
    have hzero : (signals v).stored = 0 := by simp [signals, hoff]
    refine ⟨.join i, .join hzero hqueue hgranted, ?_, ?_, ?_⟩
    · simp [signalTaken, HandOff.Move.taken]
    · simp [raised, pulseReleased, pulsed, HandOff.Move.posted]
    · simp [revoked, HandOff.Move.cancelled]
  | @take _ op he hop hon =>
    have hone : (signals v).stored = 0 + 1 := by simp [signals, hon]
    have hnone : calledOp e ≠ some .set ∧ calledOp e ≠ some .pulse ∧ calledOp e ≠ some .reset := by
      rw [he.calledOp]
      refine ⟨?_, ?_, ?_⟩ <;> rintro heq <;> cases heq <;> cases hop
    refine ⟨.take, ?_, ?_, ?_, ?_⟩
    · have hafter : signals ⟨{ v.event with signaled := v.event.manualReset }, v.queue, v.granted⟩ =
          ⟨0, v.queue, v.granted⟩ := by simp [signals, hauto]
      rw [hafter]
      exact .take hone
    · simp [signalTaken, he.waits, hop, HandOff.Move.taken]
    · simp [raised, pulseReleased, pulsed, hnone, HandOff.Move.posted]
    · simp [revoked, hnone, HandOff.Move.cancelled]
  | @refuse _ op he hop hoff =>
    exact ⟨.giveUp, .giveUp (List.Sublist.refl _) (by simp [signalTaken]) (by simp [raised]) (by simp [pulsed])
      (by simp [revoked, hoff])⟩
  | setAgain he hon =>
    exact ⟨.giveUp, .giveUp (List.Sublist.refl _) (by simp [signalTaken]) (by simp [raised]) (by simp [pulsed])
      (by simp [revoked, he.calledOp])⟩
  | set he hoff =>
    refine ⟨.post, ?_, ?_, ?_, ?_⟩
    · cases hl : v.queue with
      | nil =>
        obtain ⟨hleft, hgranted⟩ := releases_nil hl
        rw [hleft, hgranted]
        have hafter : signals ⟨{ v.event with signaled := v.event.manualReset || v.queue.isEmpty }, v.queue,
            v.granted⟩ = ⟨(signals v).stored + 1, v.queue, v.granted⟩ := by simp [signals, hl, hoff]
        rw [← hl, hafter]
        exact .store hl (by simp [signals, hoff])
      | cons i l =>
        obtain ⟨hleft, hgranted⟩ := releases_cons hauto hl
        rw [hleft, hgranted]
        have hafter : signals ⟨{ v.event with signaled := v.event.manualReset || (i :: l).isEmpty }, l,
            insert i v.granted⟩ = ⟨(signals v).stored, l, insert i v.granted⟩ := by simp [signals, hoff, hauto]
        rw [hafter]
        exact .grant hl
    · simp [signalTaken, he.waits, isWaitOp, HandOff.Move.taken]
    · simp [raised, pulseReleased, pulsed, he.calledOp, HandOff.Move.posted]
    · simp [revoked, he.calledOp, HandOff.Move.cancelled]
  | pulse he =>
    cases hl : v.queue with
    | nil =>
      obtain ⟨hleft, hgranted⟩ := releases_nil hl
      rw [hleft, hgranted]
      refine ⟨.cancel, .cancel, ?_, ?_, ?_⟩
      · simp [signalTaken, HandOff.Move.taken]
      · simp [raised, pulseReleased, hl, HandOff.Move.posted]
      · simp [revoked, he.calledOp, signals, HandOff.Move.cancelled]
    | cons i l =>
      have hoff : v.event.signaled = false := by
        by_contra hon
        have hnil := hv.queue_nil (by simpa using hon)
        rw [hl] at hnil
        cases hnil
      obtain ⟨hleft, hgranted⟩ := releases_cons hauto hl
      rw [hleft, hgranted]
      have hafter : signals ⟨{ v.event with signaled := false }, l, insert i v.granted⟩ =
          ⟨(signals v).stored, l, insert i v.granted⟩ := by simp [signals, hoff]
      refine ⟨.post, ?_, ?_, ?_, ?_⟩
      · rw [hafter]
        exact .grant hl
      · simp [signalTaken, HandOff.Move.taken]
      · simp [raised, pulseReleased, pulsed, he.calledOp, hl, HandOff.Move.posted]
      · simp [revoked, hoff, HandOff.Move.cancelled]
  | reset he =>
    refine ⟨.cancel, .cancel, ?_, ?_, ?_⟩
    · simp [signalTaken, he.waits, isWaitOp, HandOff.Move.taken]
    · simp [raised, pulseReleased, pulsed, he.calledOp, HandOff.Move.posted]
    · simp [revoked, he.calledOp, signals, HandOff.Move.cancelled]

/-! ## What a step owes -/

/-- What is claimed of one step, for the event, its waiters and the released tasks before and after it. -/
structure EventContract (v : EventView n) (e : MonitorEvent n EventOp) (r : Option MethodResult)
    (v' : EventView n) : Prop where
  /-- A `Set` that returns `true` releases the first waiter, or it stores its signal. -/
  set_auto : v.event.manualReset = false → calledOp e = some .set → r = some (.bool true) →
    (v.queue = [] ∧ v'.event.signaled = true ∧ v'.queue = [] ∧ v'.granted = v.granted) ∨
      ∃ i l, v.queue = i :: l ∧ v'.event.signaled = false ∧ v'.queue = l ∧ v'.granted = insert i v.granted
  /-- A stored signal goes to one `Wait` or `TryWait`, or it is revoked. -/
  stored : v.event.manualReset = false → v.event.signaled = true → v'.event.signaled = false →
    v'.granted = v.granted ∧ (signalTaken e r = 1 ∨ revoked v e r = 1)
  /-- `Set` and `Pulse` of a manual-reset event release every waiter. -/
  release_manual : v.event.manualReset = true → calledOp e = some .set ∨ calledOp e = some .pulse → r ≠ none →
    v'.queue = [] ∧ v'.granted = v.granted ∪ v.queue.toFinset
  pulse : calledOp e = some .pulse → r ≠ none → v'.event.signaled = false
  /-- A wait object that is timed out by a tick consumes nothing. -/
  tick : ∀ d, e = .kernel d → v'.event = v.event ∧ v'.granted = v.granted
  /-- A `Wait` that returns `false` has consumed nothing. -/
  timedOut : waits e = true → r = some (.bool false) → v' = v
  /-- A task that resumes with `true` has been released, and is so no more. -/
  resume : ∀ i, e = .resume i → r = some (.bool true) → i ∈ v.granted ∧ v'.granted = v.granted.erase i

theorem EventStep.contract (h : EventStep v e r v') (hv : EventSound v) : EventContract v e r v' := by
  refine ⟨?_, ?_, ?_, ?_, ?_, ?_, ?_⟩
  · intro hauto hset hr
    cases h with
    | set he hoff =>
      cases hl : v.queue with
      | nil =>
        obtain ⟨hleft, hgranted⟩ := releases_nil hl
        exact .inl ⟨rfl, by simp, hleft.trans hl, hgranted⟩
      | cons i l =>
        obtain ⟨hleft, hgranted⟩ := releases_cons hauto hl
        exact .inr ⟨i, l, rfl, by simp [hauto], hleft, hgranted⟩
    | take he hop hon =>
      rw [he.calledOp] at hset
      cases hset
      cases hop
    | collect => cases hset
    | reset he =>
      rw [he.calledOp] at hset
      cases hset
    | _ => cases hr
  · intro hauto hon hoff
    cases h with
    | take he hop hon =>
      refine ⟨rfl, .inl ?_⟩
      simp [signalTaken, he.waits, hop]
    | pulse he =>
      refine ⟨(releases_nil (hv.queue_nil hon)).2, .inr ?_⟩
      simp [revoked, he.calledOp, hon]
    | reset he =>
      refine ⟨rfl, .inr ?_⟩
      simp [revoked, he.calledOp, hon]
    | set he hoff' =>
      rw [hon] at hoff'
      cases hoff'
    | _ =>
      rw [hon] at hoff
      cases hoff
  · intro hmanual hop hr
    have hreleased : v.left = [] ∧ v.released = v.queue := ⟨if_pos hmanual, if_pos hmanual⟩
    cases h with
    | set he hoff => exact ⟨hreleased.1, by rw [hreleased.2]⟩
    | pulse he => exact ⟨hreleased.1, by rw [hreleased.2]⟩
    | setAgain he hon =>
      have hnil := hv.queue_nil hon
      refine ⟨hnil, ?_⟩
      rw [hnil]
      simp
    | ignored => exact absurd rfl hr
    | expire => exact absurd rfl hr
    | block => exact absurd rfl hr
    | collect => rcases hop with hop | hop <;> cases hop
    | timedOut => rcases hop with hop | hop <;> cases hop
    | take he hwait =>
      rw [he.calledOp] at hop
      rcases hop with hop | hop <;> cases hop <;> cases hwait
    | refuse he hwait =>
      rw [he.calledOp] at hop
      rcases hop with hop | hop <;> cases hop <;> cases hwait
    | reset he =>
      rw [he.calledOp] at hop
      rcases hop with hop | hop <;> cases hop
  · intro hop hr
    cases h with
    | pulse he => rfl
    | reset he => rfl
    | ignored => exact absurd rfl hr
    | expire => exact absurd rfl hr
    | block => exact absurd rfl hr
    | collect => cases hop
    | timedOut => cases hop
    | refuse he hwait hoff => exact hoff
    | take he hwait =>
      rw [he.calledOp] at hop
      cases hop
      cases hwait
    | set he =>
      rw [he.calledOp] at hop
      cases hop
    | setAgain he =>
      rw [he.calledOp] at hop
      cases hop
  · rintro d rfl
    have hnone : ∀ op, ¬ CallOf op (MonitorEvent.kernel d : MonitorEvent n EventOp) := by
      intro op hop
      cases hop.calledOp
    cases h with
    | ignored => exact ⟨rfl, rfl⟩
    | expire => exact ⟨rfl, rfl⟩
    | take he => exact absurd he (hnone _)
    | refuse he => exact absurd he (hnone _)
    | setAgain he => exact absurd he (hnone _)
    | set he => exact absurd he (hnone _)
    | pulse he => exact absurd he (hnone _)
    | reset he => exact absurd he (hnone _)
  · intro hwaits hr
    cases h with
    | timedOut => rfl
    | refuse => rfl
    | setAgain => rfl
    | reset he =>
      rw [he.waits] at hwaits
      cases hwaits
    | _ => cases hr
  · rintro i rfl hr
    have hnone : ∀ op, ¬ CallOf op (MonitorEvent.resume i : MonitorEvent n EventOp) := by
      intro op hop
      cases hop.calledOp
    cases h with
    | collect hi => exact ⟨hi, rfl⟩
    | ignored => cases hr
    | timedOut => cases hr
    | take he => exact absurd he (hnone _)
    | refuse he => exact absurd he (hnone _)
    | setAgain he => exact absurd he (hnone _)
    | set he => exact absurd he (hnone _)
    | pulse he => exact absurd he (hnone _)
    | reset he => exact absurd he (hnone _)

end Steps

/-! ## Every event of the system is a step -/

section Simulation

variable {n : ℕ} {σ : Type} {cfg : Config} {s : SyncSystem n Event σ} {e : MonitorEvent n EventOp}

/-- The event, its waiters and the tasks it has released. -/
def view (s : SyncSystem n Event σ) : EventView n := ⟨s.state, s.waitList, granted s⟩

/-- INTERNAL: a timeout leaves the event alone. -/
theorem removeWaitObject_timeout (x : Event) : SyncObject.removeWaitObject x true = x := by
  show x.removeWaitObject true = x
  unfold Event.removeWaitObject
  split
  · rfl
  · rfl

/-- INTERNAL: a signal resets an auto-reset event. -/
theorem removeWaitObject_signal {x : Event} (hauto : x.manualReset = false) :
    SyncObject.removeWaitObject x false = { x with signaled := false } := by
  show x.removeWaitObject false = _
  unfold Event.removeWaitObject
  cases x with
  | mk manualReset signaled =>
    cases signaled
    · simp
    · replace hauto : manualReset = false := hauto
      simp [hauto]

/-- INTERNAL: wait objects that are removed leave a manual-reset event alone. -/
theorem removeWaitObjects_manual (hmanual : s.state.manualReset = true) (l : List (Fin n)) (timeout : Bool) :
    s.removeWaitObjects l timeout = s.state := by
  unfold SyncSystem.removeWaitObjects
  have hone : SyncObject.removeWaitObject s.state timeout = s.state := by
    show s.state.removeWaitObject timeout = s.state
    unfold Event.removeWaitObject
    rw [hmanual]
    rfl
  induction l with
  | nil => rfl
  | cons i l ih =>
    rw [List.foldl_cons, hone]
    exact ih

/-- INTERNAL: wait objects that time out leave the event alone. -/
theorem removeWaitObjects_timeout (l : List (Fin n)) : s.removeWaitObjects l true = s.state := by
  unfold SyncSystem.removeWaitObjects
  induction l with
  | nil => rfl
  | cons i l ih =>
    rw [List.foldl_cons, removeWaitObject_timeout]
    exact ih

/-- INTERNAL: the wake-ups of `Set` and `Pulse`. -/
theorem wakeUp_releases (h : SyncOk s) {w : WakeUps} (hw : w = if s.state.manualReset then .all else .one) :
    SyncOk (s.wakeUp w) ∧ (s.wakeUp w).waitList = (view s).left ∧
      granted (s.wakeUp w) = granted s ∪ (view s).released.toFinset ∧
      (s.wakeUp w).state = { s.state with
        signaled := s.state.signaled && (s.state.manualReset || s.waitList.isEmpty) } := by
  subst hw
  cases hmode : s.state.manualReset with
  | true =>
    obtain ⟨hok, hlist, hgranted, hstate⟩ := h.wakeUp_all
    rw [removeWaitObjects_manual hmode] at hstate
    refine ⟨hok, hlist.trans (if_pos hmode).symm, ?_, ?_⟩
    · have hreleased : (view s).released = s.waitList := if_pos hmode
      rw [hreleased]
      exact hgranted
    · rw [if_pos rfl, hstate]
      simp
  | false =>
    have hreleased : (view s).released = s.waitList.take 1 := if_neg (by simp [view, hmode])
    have hleft : (view s).left = s.waitList.drop 1 := if_neg (by simp [view, hmode])
    rw [hreleased, hleft, if_neg Bool.false_ne_true]
    cases hl : s.waitList with
    | nil =>
      rw [SyncOk.wakeUp_one_nil hl]
      exact ⟨h, hl, by simp, by simp⟩
    | cons i l =>
      obtain ⟨hok, hlist, hgranted, hstate⟩ := h.wakeUp_one hl
      refine ⟨hok, hlist, ?_, ?_⟩
      · rw [hgranted, Finset.insert_eq, Finset.union_comm]
        simp
      · rw [hstate, removeWaitObject_signal hmode]
        simp

/-- INTERNAL: the critical section of `Set` and `Pulse` for an event that is to wake tasks. -/
theorem enter_releases (h : SyncOk s) {t : CriticalSection Event}
    (hstate : t.state = { s.state with signaled := true })
    (hw : t.wakes = if s.state.manualReset then .all else .one) :
    SyncOk (s.enter t) ∧ view (s.enter t) =
      ⟨t.finish { s.state with signaled := s.state.manualReset || s.waitList.isEmpty }, (view s).left,
        granted s ∪ (view s).released.toFinset⟩ := by
  have hs : SyncOk ({ s with state := t.state } : SyncSystem n Event σ) := h.setState t.state
  have hw' : t.wakes = if ({ s with state := t.state } : SyncSystem n Event σ).state.manualReset then .all
      else .one := by
    rw [hw]
    dsimp only
    rw [hstate]
  obtain ⟨hok, hlist, hgranted, hafter⟩ := wakeUp_releases hs hw'
  have hview : (view ({ s with state := t.state } : SyncSystem n Event σ)).left = (view s).left ∧
      (view ({ s with state := t.state } : SyncSystem n Event σ)).released = (view s).released := by
    rw [hstate]
    exact ⟨rfl, rfl⟩
  rw [hview.1] at hlist
  rw [hview.2] at hgranted
  refine ⟨hok.setState _, ?_⟩
  show EventView.mk (t.finish (({ s with state := t.state } : SyncSystem n Event σ).wakeUp t.wakes).state)
    (({ s with state := t.state } : SyncSystem n Event σ).wakeUp t.wakes).waitList
    (granted (({ s with state := t.state } : SyncSystem n Event σ).wakeUp t.wakes)) = _
  rw [hlist, hgranted, hafter]
  dsimp only
  rw [hstate]
  rfl

variable [SwitchStrategy (Fin n) σ]

/-- INTERNAL: a step, read off its result. -/
theorem eventStep_of {s' : SyncSystem n Event σ} {r : Option MethodResult} (h : s.stepResult cfg e = (s', r))
    (hok : SyncOk s') (hstep : EventStep (view s) e r (view s')) :
    SyncOk (s.step cfg e) ∧ EventStep (view s) e (s.stepResult cfg e).2 (view (s.step cfg e)) := by
  unfold SyncSystem.step
  rw [h]
  exact ⟨hok, hstep⟩

theorem event_set (h : SyncOk s) (he : CallOf .set e) :
    SyncOk (s.step cfg e) ∧ EventStep (view s) e (s.stepResult cfg e).2 (view (s.step cfg e)) := by
  have hmethod : s.stepResult cfg e = (s, none) ∨
      ∃ t, SyncObject.method s.state s.waitList.isEmpty .set = some t ∧ Ends cfg s e .set t :=
    stepResult_method he
  rcases hmethod with hstep | ⟨t, ht, hcases⟩
  · exact eventStep_of hstep h .ignored
  · replace ht : s.state.set = t := Option.some.inj ht
    unfold Event.set at ht
    split at ht
    · next hon =>
      subst ht
      rcases hcases with ⟨r, hr, hstep⟩ | ⟨_, _, _, hwaits⟩
      · cases hr
        rw [enter_none rfl] at hstep
        exact eventStep_of hstep h (.setAgain he hon)
      · cases hwaits
    · next hoff =>
      obtain ⟨hok, hview⟩ := enter_releases h (congrArg CriticalSection.state ht.symm)
        (congrArg CriticalSection.wakes ht.symm)
      have hfinish : t.finish = id := congrArg CriticalSection.finish ht.symm
      rcases hcases with ⟨r, hr, hstep⟩ | ⟨_, _, _, hwaits⟩
      · have houtcome : t.outcome = .returns (.bool true) := congrArg CriticalSection.outcome ht.symm
        rw [houtcome] at hr
        cases hr
        refine eventStep_of hstep hok ?_
        rw [hview, hfinish]
        have hoff' : s.state.signaled = false := by simpa using hoff
        exact .set he hoff'
      · rw [← ht] at hwaits
        cases hwaits

theorem event_pulse (h : SyncOk s) (he : CallOf .pulse e) :
    SyncOk (s.step cfg e) ∧ EventStep (view s) e (s.stepResult cfg e).2 (view (s.step cfg e)) := by
  have hmethod : s.stepResult cfg e = (s, none) ∨
      ∃ t, SyncObject.method s.state s.waitList.isEmpty .pulse = some t ∧ Ends cfg s e .pulse t :=
    stepResult_method he
  rcases hmethod with hstep | ⟨t, ht, hcases⟩
  · exact eventStep_of hstep h .ignored
  · replace ht : s.state.pulse s.waitList.isEmpty = t := Option.some.inj ht
    unfold Event.pulse at ht
    rcases hcases with ⟨r, hr, hstep⟩ | ⟨_, _, _, hwaits⟩
    · have houtcome : t.outcome = .returns .void := congrArg CriticalSection.outcome ht.symm
      rw [houtcome] at hr
      cases hr
      cases hempty : s.waitList.isEmpty with
      | true =>
        have hnil : s.waitList = [] := List.isEmpty_iff.mp hempty
        rw [hempty] at ht
        subst ht
        rw [enter_none rfl] at hstep
        refine eventStep_of hstep (h.setState _) ?_
        -- nobody waits, so that nobody is released
        have hview : view ({ s with state := { s.state with signaled := false } } : SyncSystem n Event σ) =
            ⟨{ s.state with signaled := false }, (view s).left, granted s ∪ (view s).released.toFinset⟩ := by
          have hleft : (view s).left = [] := List.eq_nil_of_sublist_nil (hnil ▸ (view s).left_sublist)
          have hreleased : (view s).released = [] := by
            unfold EventView.released
            split
            · exact hnil
            · exact (congrArg (List.take 1) hnil).trans List.take_nil
          show EventView.mk _ s.waitList (granted s) = _
          rw [hleft, hreleased, hnil]
          simp
        exact hview ▸ .pulse he
      | false =>
        rw [hempty] at ht
        obtain ⟨hok, hview⟩ := enter_releases h (congrArg CriticalSection.state ht.symm)
          (congrArg CriticalSection.wakes ht.symm)
        have hfinish : t.finish = fun x => { x with signaled := false } := congrArg CriticalSection.finish ht.symm
        refine eventStep_of hstep hok ?_
        rw [hview, hfinish]
        exact .pulse he
    · rw [← ht] at hwaits
      cases hwaits

theorem event_reset (h : SyncOk s) (he : CallOf .reset e) :
    SyncOk (s.step cfg e) ∧ EventStep (view s) e (s.stepResult cfg e).2 (view (s.step cfg e)) := by
  have hmethod : s.stepResult cfg e = (s, none) ∨
      ∃ t, SyncObject.method s.state s.waitList.isEmpty .reset = some t ∧ Ends cfg s e .reset t :=
    stepResult_method he
  rcases hmethod with hstep | ⟨t, ht, hcases⟩
  · exact eventStep_of hstep h .ignored
  · replace ht : s.state.reset = t := Option.some.inj ht
    subst ht
    rcases hcases with ⟨r, hr, hstep⟩ | ⟨_, _, _, hwaits⟩
    · cases hr
      rw [enter_none rfl] at hstep
      exact eventStep_of hstep (h.setState _) (.reset he)
    · cases hwaits

/-- INTERNAL: `Wait` and `TryWait` find the event signaled. -/
theorem event_take (h : SyncOk s) {op : EventOp} (he : CallOf op e) (hop : isWaitOp op = true)
    (hon : s.state.signaled = true)
    (hstep : s.stepResult cfg e = ({ s with
      state := if !s.state.manualReset then { s.state with signaled := false } else s.state },
        some (.bool true))) :
    SyncOk (s.step cfg e) ∧ EventStep (view s) e (s.stepResult cfg e).2 (view (s.step cfg e)) := by
  refine eventStep_of hstep (h.setState _) ?_
  have hstate : (if !s.state.manualReset then { s.state with signaled := false } else s.state : Event) =
      { s.state with signaled := s.state.manualReset } := by
    cases hmode : s.state.manualReset with
    | true =>
      rw [if_neg (by simp), ← hmode, hmode, ← hon]
    | false => rfl
  have hview : view ({ s with state := if !s.state.manualReset then { s.state with signaled := false }
        else s.state } : SyncSystem n Event σ) =
      ⟨{ s.state with signaled := s.state.manualReset }, s.waitList, granted s⟩ := by
    rw [hstate]
    rfl
  exact hview ▸ .take he hop hon

theorem event_wait (h : SyncOk s) {timeout : ℤ} (he : CallOf (.wait timeout) e) (horderly : SyncOrderly s e) :
    SyncOk (s.step cfg e) ∧ EventStep (view s) e (s.stepResult cfg e).2 (view (s.step cfg e)) := by
  have hmethod : s.stepResult cfg e = (s, none) ∨
      ∃ t, SyncObject.method s.state s.waitList.isEmpty (.wait timeout) = some t ∧ Ends cfg s e (.wait timeout) t :=
    stepResult_method he
  rcases hmethod with hstep | ⟨t, ht, hcases⟩
  · exact eventStep_of hstep h .ignored
  · replace ht : s.state.wait timeout = t := Option.some.inj ht
    unfold Event.wait at ht
    split at ht
    · next hon =>
      subst ht
      rcases hcases with ⟨r, hr, hstep⟩ | ⟨_, _, _, hwaits⟩
      · cases hr
        rw [enter_none rfl] at hstep
        exact event_take h he rfl hon hstep
      · cases hwaits
    · next hnot =>
      have hoff : s.state.signaled = false := by simpa using hnot
      split at ht
      · -- the caller blocks
        next htimeout =>
        subst ht
        rcases hcases with ⟨r, hr, -⟩ | ⟨i, timeout', hcall, hwaits, hsync, hcan, hstep⟩
        · cases hr
        · cases hwaits
          rw [enter_none rfl] at hstep
          subst hcall
          obtain ⟨hok, hlist, hgranted, hnew, hnotin⟩ := h.block hsync hcan horderly.1 horderly.2 htimeout
          refine eventStep_of hstep hok ?_
          have hview : view (s.block cfg i timeout) = ⟨s.state, s.waitList ++ [i], granted s⟩ := by
            unfold view
            rw [hlist, hgranted]
            rfl
          exact hview ▸ .block hoff hnotin hnew
      · -- `NO_WAIT`
        subst ht
        rcases hcases with ⟨r, hr, hstep⟩ | ⟨_, _, _, hwaits⟩
        · cases hr
          rw [enter_none rfl] at hstep
          exact eventStep_of hstep h (.refuse he rfl hoff)
        · cases hwaits

theorem event_tryWait (h : SyncOk s) (he : CallOf .tryWait e) :
    SyncOk (s.step cfg e) ∧ EventStep (view s) e (s.stepResult cfg e).2 (view (s.step cfg e)) := by
  have hmethod : s.stepResult cfg e = (s, none) ∨
      ∃ t, SyncObject.method s.state s.waitList.isEmpty .tryWait = some t ∧ Ends cfg s e .tryWait t :=
    stepResult_method he
  rcases hmethod with hstep | ⟨t, ht, hcases⟩
  · exact eventStep_of hstep h .ignored
  · replace ht : s.state.tryWait = t := Option.some.inj ht
    unfold Event.tryWait at ht
    split at ht
    · next hon =>
      subst ht
      rcases hcases with ⟨r, hr, hstep⟩ | ⟨_, _, _, hwaits⟩
      · cases hr
        rw [enter_none rfl] at hstep
        exact event_take h he rfl hon hstep
      · cases hwaits
    · next hnot =>
      have hoff : s.state.signaled = false := by simpa using hnot
      subst ht
      rcases hcases with ⟨r, hr, hstep⟩ | ⟨_, _, _, hwaits⟩
      · cases hr
        rw [enter_none rfl] at hstep
        exact eventStep_of hstep h (.refuse he rfl hoff)
      · cases hwaits

/-- **Simulation.**  Every orderly event is a step of the event object. -/
theorem event_step (cfg : Config) (h : SyncOk s) (he : SyncOrderly s e) :
    SyncOk (s.step cfg e) ∧ EventStep (view s) e (s.stepResult cfg e).2 (view (s.step cfg e)) := by
  have hcall : ∀ op, CallOf op e →
      SyncOk (s.step cfg e) ∧ EventStep (view s) e (s.stepResult cfg e).2 (view (s.step cfg e)) := by
    intro op hop
    cases op with
    | set => exact event_set h hop
    | reset => exact event_reset h hop
    | pulse => exact event_pulse h hop
    | wait timeout => exact event_wait h hop he
    | tryWait => exact event_tryWait h hop
  cases e with
  | call i op => exact hcall op (.inr ⟨i, rfl⟩)
  | isr op => exact hcall op (.inl rfl)
  | resume i =>
    rcases h.resume he with hstep | ⟨hok, hlist, hstate, hresult⟩
    · exact eventStep_of hstep h .ignored
    · refine ⟨hok, ?_⟩
      rcases hresult with ⟨hr, hmem, hgranted⟩ | ⟨hr, hnot, hgranted⟩
      · have hview : view (s.step cfg (.resume i)) = ⟨s.state, s.waitList, (granted s).erase i⟩ := by
          unfold view
          rw [hlist, hstate, hgranted]
        rw [hr, hview]
        exact .collect hmem
      · have hview : view (s.step cfg (.resume i)) = view s := by
          unfold view
          rw [hlist, hstate, hgranted]
        rw [hr, hview]
        exact .timedOut hnot
  | kernel e =>
    obtain ⟨hok, hsub, hgranted⟩ := h.kernelStep cfg he
    refine eventStep_of rfl hok ?_
    have hview : view (s.kernelStep cfg e) = ⟨s.state, (s.kernelStep cfg e).waitList, granted s⟩ := by
      unfold view
      rw [hgranted]
      congr 1
      exact removeWaitObjects_timeout _
    rw [hview]
    exact .expire hsub

end Simulation

/-! ## Runs -/

section Runs

variable {n : ℕ} {σ : Type} [SwitchStrategy (Fin n) σ] {cfg : Config} {s : SyncSystem n Event σ}

/-- What every orderly step keeps. -/
structure EventOk (manualReset : Bool) (s : SyncSystem n Event σ) : Prop where
  sync : SyncOk s
  mode : s.state.manualReset = manualReset
  sound : EventSound (view s)

theorem EventOk.initial (x : Event) : EventOk x.manualReset (SyncSystem.initial x : SyncSystem n Event σ) :=
  ⟨.initial x, rfl, fun _ => rfl, List.nodup_nil, fun _ hi => nomatch hi⟩

theorem EventOk.step {manualReset : Bool} (h : EventOk manualReset s) {e : MonitorEvent n EventOp}
    (he : SyncOrderly s e) : EventOk manualReset (s.step cfg e) := by
  obtain ⟨hok, hstep⟩ := event_step cfg h.sync he
  exact ⟨hok, hstep.manualReset.trans h.mode, hstep.sound h.sound⟩

/-- INTERNAL: the balance of a step of an auto-reset event. -/
theorem EventOk.balance (h : EventOk false s) {e : MonitorEvent n EventOp} (he : SyncOrderly s e) :
    (s.step cfg e).state.signaled.toNat + (granted (s.step cfg e)).card +
        (signalTaken e (s.stepResult cfg e).2 + revoked (view s) e (s.stepResult cfg e).2) =
      s.state.signaled.toNat + (granted s).card +
        (raised e (s.stepResult cfg e).2 + pulseReleased (view s) e (s.stepResult cfg e).2) := by
  obtain ⟨-, hstep⟩ := event_step cfg h.sync he
  obtain ⟨m, hmove⟩ := hstep.signalMove h.mode h.sound
  have hbalance := hmove.step.conserves h.sound.signals
  rw [hmove.taken, hmove.posted, hmove.cancelled] at hbalance
  exact hbalance

/-- **Event semantics.**  In every run in which a `Wait` returns only when its task is not linked to the
event any more: a signaled event has no waiters; every step meets its contract; and the signals of an
auto-reset event add up, so that no more waits succeed than signals were raised. -/
theorem run_event (cfg : Config) (x : Event) (es : List (MonitorEvent n EventOp))
    (hes : Runs.Along (SyncSystem.step cfg) SyncOrderly (SyncSystem.initial x : SyncSystem n Event σ) es) :
    let s₀ : SyncSystem n Event σ := SyncSystem.initial x
    let s : SyncSystem n Event σ := SyncSystem.run cfg x es
    let total (f : EventView n → MonitorEvent n EventOp → Option MethodResult → ℕ) : ℕ :=
      Runs.total (SyncSystem.step cfg) (fun s e => f (view s) e (s.stepResult cfg e).2) s₀ es
    (s.state.signaled = true → s.waitList = []) ∧
      (∀ e, SyncOrderly s e → EventContract (view s) e (s.stepResult cfg e).2 (view (s.step cfg e))) ∧
      (x.manualReset = false →
        s.state.signaled.toNat + (granted s).card + (total (fun _ => signalTaken) + total revoked) =
          x.signaled.toNat + (total (fun _ => raised) + total pulseReleased) ∧
        (granted s).card + total (fun _ => signalTaken) ≤
          x.signaled.toNat + total (fun _ => raised) + total (fun _ => pulsed)) := by
  intro s₀ s total
  have hok : EventOk x.manualReset s := hes.invariant (fun _ _ h he => h.step he) (.initial x)
  refine ⟨hok.sound.queue_nil, ?_, ?_⟩
  · intro e he
    obtain ⟨-, hstep⟩ := event_step cfg hok.sync he
    exact hstep.contract hok.sound
  · intro hauto
    have hinit : EventOk false s₀ := hauto ▸ .initial x
    have htotal := hes.total_eq
      (g := fun s : SyncSystem n Event σ => s.state.signaled.toNat + (granted s).card)
      (fun _ _ h he => EventOk.step h he) (fun _ _ h he => EventOk.balance h he) hinit
    rw [Runs.total_add, Runs.total_add] at htotal
    have hnone : granted s₀ = ∅ := granted_initial x
    rw [hnone, Finset.card_empty, Nat.add_zero] at htotal
    have hbalance : s.state.signaled.toNat + (granted s).card + (total (fun _ => signalTaken) + total revoked) =
        x.signaled.toNat + (total (fun _ => raised) + total pulseReleased) := htotal
    have hpulses : total pulseReleased ≤ total (fun _ => pulsed) := by
      apply Runs.total_mono
      intro s e
      unfold pulseReleased
      split
      · exact Nat.zero_le _
      · exact Nat.le_refl _
    exact ⟨hbalance, by omega⟩

/-- Task 0 and task 1 wait, `Set` releases task 0, a second `Set` releases task 1, a third is stored. -/
def threeSets : List (MonitorEvent 2 EventOp) :=
  twoTasks.map .kernel ++ [.call 0 (.wait waitInfinite), .kernel (.onTick 1), .call 1 (.wait 5),
    .kernel (.onTick 1), .isr .set, .kernel (.onTick 1), .resume 0, .isr .set, .isr .set]

theorem threeSets_stored :
    Runs.Along (SyncSystem.step syncConfig) SyncOrderly
        (SyncSystem.initial ⟨false, false⟩ : SyncSystem 2 Event (RoundRobin (Fin 2))) threeSets ∧
      (let s : SyncSystem 2 Event (RoundRobin (Fin 2)) := SyncSystem.run syncConfig ⟨false, false⟩ threeSets
       s.state.signaled = true ∧ granted s = {1} ∧ s.waitList = []) := by
  have hrun : Runs.Along (SyncSystem.step syncConfig) SyncOrderly
      (SyncSystem.initial ⟨false, false⟩ : SyncSystem 2 Event (RoundRobin (Fin 2))) threeSets := by decide +kernel
  have hon : (SyncSystem.run syncConfig ⟨false, false⟩ threeSets :
      SyncSystem 2 Event (RoundRobin (Fin 2))).state.signaled = true := by decide +kernel
  exact ⟨hrun, hon, by decide +kernel, (run_event syncConfig ⟨false, false⟩ threeSets hrun).1 hon⟩

/-! ## A wait that runs out -/

/-- Task 0 waits for the event. -/
def waitsForEvent : List (MonitorEvent 2 EventOp) :=
  twoTasks.map .kernel ++ [.call 0 (.wait waitInfinite)]

/-- INTERNAL: kernel calls raise no signals. -/
theorem raised_ticks (m : ℕ) (s : SyncSystem n Event σ) :
    Runs.total (SyncSystem.step cfg) (fun s e => raised e (s.stepResult cfg e).2) s (tickEvents m) = 0 ∧
      Runs.total (SyncSystem.step cfg) (fun s e => pulsed e (s.stepResult cfg e).2) s (tickEvents m) = 0 := by
  induction m generalizing s with
  | zero => exact ⟨rfl, rfl⟩
  | succ m ih =>
    unfold tickEvents
    rw [List.replicate_succ, Runs.total, Runs.total]
    exact ⟨(Nat.zero_add _).trans (ih _).1, (Nat.zero_add _).trans (ih _).2⟩

/-- Nobody sets or pulses the event, and after `INT32_MAX` ticks `Wait` returns `true`. -/
theorem infiniteEventWait_unsignaled :
    let s₀ : SyncSystem 2 Event (RoundRobin (Fin 2)) := SyncSystem.initial ⟨false, false⟩
    let es : List (MonitorEvent 2 EventOp) := waitsForEvent ++ tickEvents 2147483647 ++ [.resume 0]
    ¬ Runs.total (SyncSystem.step syncConfig) (fun s e => signalTaken e (s.stepResult syncConfig e).2) s₀ es ≤
      Runs.total (SyncSystem.step syncConfig) (fun s e => raised e (s.stepResult syncConfig e).2) s₀ es +
        Runs.total (SyncSystem.step syncConfig) (fun s e => pulsed e (s.stepResult syncConfig e).2) s₀ es := by
  intro s₀ es
  let s₁ : SyncSystem 2 Event (RoundRobin (Fin 2)) := SyncSystem.run syncConfig ⟨false, false⟩ waitsForEvent
  have hasleep : Asleep 0 s₁.waits.kernel.ticks s₁.waits.kernel := by
    refine ⟨?_, ?_, ?_, .inr ⟨?_, ?_⟩⟩ <;> decide +kernel
  have hok : EventOk false s₁ := by
    have hrun : Runs.Along (SyncSystem.step syncConfig) SyncOrderly s₀ waitsForEvent := by decide +kernel
    have hinit : EventOk (⟨false, false⟩ : Event).manualReset s₀ := .initial ⟨false, false⟩
    exact hrun.invariant (fun _ _ h he => EventOk.step h he) hinit
  have hresume : (((tickEvents 2147483647).foldl (SyncSystem.step syncConfig) s₁).stepResult syncConfig
      (.resume 0)).2 = some (.bool true) :=
    SyncSystem.resume_ticks rfl rfl hasleep hok.sync.waits.linked (by decide +kernel)
      (show s₁.waits.pending 0 = some waitInfinite by decide +kernel) (by decide +kernel) (by decide +kernel)
  have hlast : (waitsForEvent ++ tickEvents 2147483647).foldl (SyncSystem.step syncConfig) s₀ =
      (tickEvents 2147483647).foldl (SyncSystem.step syncConfig) s₁ := List.foldl_append
  have htaken : 1 ≤ Runs.total (SyncSystem.step syncConfig)
      (fun s e => signalTaken e (s.stepResult syncConfig e).2) s₀ es := by
    rw [Runs.total_append, hlast, Runs.total, hresume]
    simp [signalTaken, waits]
  have hfirst : Runs.total (SyncSystem.step syncConfig)
        (fun s e => raised e (s.stepResult syncConfig e).2) s₀ waitsForEvent = 0 ∧
      Runs.total (SyncSystem.step syncConfig)
        (fun s e => pulsed e (s.stepResult syncConfig e).2) s₀ waitsForEvent = 0 := by decide +kernel
  have hraised : Runs.total (SyncSystem.step syncConfig)
      (fun s e => raised e (s.stepResult syncConfig e).2) s₀ es = 0 := by
    rw [Runs.total_append, Runs.total_append, hfirst.1, (raised_ticks _ _).1, Runs.total]
    rfl
  have hpulsed : Runs.total (SyncSystem.step syncConfig)
      (fun s e => pulsed e (s.stepResult syncConfig e).2) s₀ es = 0 := by
    rw [Runs.total_append, Runs.total_append, hfirst.2, (raised_ticks _ _).2, Runs.total]
    rfl
  omega

end Runs

end Stk.Analysis
