import Mathlib.Data.Fintype.Basic
import Stk.Analysis.InfiniteSleep
import Stk.Analysis.MonitorSimulation
import Stk.Model.SyncObject

/-!
# The waiters of an object that hands its signals over

The tasks inside `IKernelService::Wait` are those of a Mesa monitor, so that what the kernel does to
them is known from there: a task in the wait list is blocked, a task that has been signalled and has
not resumed is `granted`.  Each part of a method, each resumption and each kernel call has one lemma
that says what it does to the wait list, to the granted tasks and to the object.
-/

set_option autoImplicit false

namespace Stk.Analysis

open Stk.Model Stk.Model.Kernel

variable {n : ℕ} {ω α σ : Type} {cfg : Config} {s : SyncSystem n ω σ} {i : Fin n}

/-- The tasks that have been woken by a signal and have not resumed. -/
def granted (s : SyncSystem n ω σ) : Finset (Fin n) :=
  Finset.univ.filter (fun i => (s.waits.pending i).isSome = true ∧
    (s.waits.kernel.tasks i).isWaiting = false ∧ (s.waits.kernel.tasks i).waitObj.timeout = false)

theorem mem_granted : i ∈ granted s ↔ ∃ f, status s.waits i = .notified f := by
  unfold granted status
  rw [Finset.mem_filter]
  cases s.waits.pending i with
  | none => simp
  | some f =>
    cases hwaiting : (s.waits.kernel.tasks i).isWaiting <;>
      cases htimeout : (s.waits.kernel.tasks i).waitObj.timeout <;> simp

/-- INTERNAL: the granted tasks are read off the statuses. -/
theorem granted_congr {s' : SyncSystem n ω σ}
    (h : ∀ j, (∃ f, status s'.waits j = .notified f) ↔ ∃ f, status s.waits j = .notified f) :
    granted s' = granted s := by
  ext j
  rw [mem_granted, mem_granted]
  exact h j

variable [SwitchStrategy (Fin n) σ]

/-- What the rest of the system promises: a task that is still linked to a sync object or about to
be removed makes no call, a task leaves `Wait` once its wait is over, and no task is removed while
it is inside `Wait`. -/
def SyncOrderly (s : SyncSystem n ω σ) : MonitorEvent n α → Prop
  | .call i _ =>
    (s.waits.kernel.tasks i).isWaiting = false ∧ (s.waits.kernel.tasks i).removePending = false
  | .resume i => (s.waits.kernel.tasks i).isWaiting = false
  | .isr _ => True
  | .kernel e => KernelEvent.Spares (fun i => s.waits.pending i ≠ none) s.waits.kernel e

instance : ∀ e : MonitorEvent n α, Decidable (SyncOrderly s e)
  | .call i _ => inferInstanceAs (Decidable
      ((s.waits.kernel.tasks i).isWaiting = false ∧ (s.waits.kernel.tasks i).removePending = false))
  | .resume i => inferInstanceAs (Decidable ((s.waits.kernel.tasks i).isWaiting = false))
  | .isr _ => .isTrue trivial
  | .kernel e => inferInstanceAs (Decidable
      (KernelEvent.Spares (fun i => s.waits.pending i ≠ none) s.waits.kernel e))

/-- The wait list agrees with the calls inside `Wait`, and is in the order of arrival. -/
structure SyncOk (s : SyncSystem n ω σ) : Prop where
  waits : MonitorOk s.waits
  order : s.waitList.Pairwise (fun i j => s.arrival i < s.arrival j)
  past : ∀ i ∈ s.waitList, s.arrival i < s.arrivals

namespace SyncOk

omit [SwitchStrategy (Fin n) σ] in
theorem mem_waitList (h : SyncOk s) : i ∈ s.waitList ↔ ∃ f, status s.waits i = .blocked f := by
  unfold SyncSystem.waitList
  rw [← h.waits.linked.mem]
  constructor
  · intro hlinked
    rcases h.waits.linked_cases hlinked with ⟨-, hother⟩ | ⟨f, -, -, hblocked⟩
    · simp [Monitor.owns] at hother
    · exact ⟨f, hblocked⟩
  · rintro ⟨f, hblocked⟩
    cases hpending : s.waits.pending i with
    | none => simp [status, hpending] at hblocked
    | some f' =>
      rcases h.waits.waiting i f' hpending with ⟨hlinked, -⟩ | hnone
      · exact hlinked
      · rw [MonitorOk.status_of_unlinked hpending hnone] at hblocked
        split at hblocked
        · cases hblocked
        · cases hblocked

omit [SwitchStrategy (Fin n) σ] in
/-- INTERNAL: a task that queued up before the others is the first in the list. -/
theorem first_arrived (h : SyncOk s) {l : List (Fin n)} (hl : s.waitList = i :: l) :
    ∀ j ∈ s.waitList, s.arrival i ≤ s.arrival j := by
  have horder := h.order
  rw [hl] at horder ⊢
  intro j hj
  rcases List.mem_cons.mp hj with rfl | hj
  · exact le_refl _
  · exact ((List.pairwise_cons.mp horder).1 j hj).le

omit [SwitchStrategy (Fin n) σ] in
/-- INTERNAL: what the object is does not matter to the waiters. -/
theorem setState (h : SyncOk s) (x : ω) : SyncOk ({ s with state := x } : SyncSystem n ω σ) :=
  ⟨h.waits, h.order, h.past⟩

omit [SwitchStrategy (Fin n) σ] in
/-- INTERNAL: tasks leave the wait list. -/
theorem leave (h : SyncOk s) {w : MonitorSystem n WaitQueue ℤ σ} (hok : MonitorOk w) (x : ω)
    (hlist : (w.kernel.waitList WaitQueue.id).Sublist s.waitList) :
    SyncOk ({ s with waits := w, state := x } : SyncSystem n ω σ) :=
  ⟨hok, h.order.sublist hlist, fun i hi => h.past i (hlist.subset hi)⟩

/-! ## Wake-ups -/

variable [SyncObject ω α]

omit [SwitchStrategy (Fin n) σ] in
theorem wakeUp_one_nil (hl : s.waitList = []) : s.wakeUp .one = s := by
  have hnil : s.waits.kernel.waitList WaitQueue.id = [] := hl
  have hwake : s.waits.kernel.wakeOne WaitQueue.id = s.waits.kernel := by
    unfold Kernel.wakeOne
    rw [hnil]
  unfold SyncSystem.wakeUp
  dsimp only
  rw [hwake, hl]
  rfl

omit [SwitchStrategy (Fin n) σ] in
/-- **`WakeOne`** hands the signal to the task that has waited longest. -/
theorem wakeUp_one (h : SyncOk s) {l : List (Fin n)} (hl : s.waitList = i :: l) :
    SyncOk (s.wakeUp .one) ∧ (s.wakeUp .one).waitList = l ∧ granted (s.wakeUp .one) = insert i (granted s) ∧
      (s.wakeUp .one).state = SyncObject.removeWaitObject s.state false := by
  have hmem : i ∈ s.waitList := by
    rw [hl]
    exact List.mem_cons_self
  have hlinked : (s.waits.kernel.tasks i).waitObj.syncObj = some WaitQueue.id :=
    (h.waits.linked.mem i _).mpr hmem
  have hwake : s.waits.kernel.wakeOne WaitQueue.id = s.waits.kernel.wakeWaitObj i false := by
    have hcons : s.waits.kernel.waitList WaitQueue.id = i :: l := hl
    unfold Kernel.wakeOne
    rw [hcons]
  have hlist : (s.waits.kernel.wakeWaitObj i false).waitList WaitQueue.id = l := by
    have hcons : s.waits.kernel.waitList WaitQueue.id = i :: l := hl
    rw [wakeWaitObj_eq hlinked]
    simp [hcons]
  obtain ⟨hok, hstatus⟩ := h.waits.wake hlinked
  have heq : s.wakeUp .one = { s with
      waits := { s.waits with kernel := s.waits.kernel.wakeWaitObj i false }
      state := SyncObject.removeWaitObject s.state false } := by
    unfold SyncSystem.wakeUp
    dsimp only
    rw [hwake, hl]
    rfl
  rw [heq]
  refine ⟨h.leave hok _ ?_, hlist, ?_, rfl⟩
  · show ((s.waits.kernel.wakeWaitObj i false).waitList WaitQueue.id).Sublist s.waitList
    rw [hlist, hl]
    exact List.sublist_cons_self i l
  · -- the woken task was inside its call
    have hreleased : ∃ f, MonitorOk.released s.waits i = .notified f := by
      rcases h.waits.linked_cases hlinked with ⟨-, hother⟩ | ⟨f, hpending, -, -⟩
      · simp [Monitor.owns] at hother
      · exact ⟨f, by simp [MonitorOk.released, hpending]⟩
    ext j
    rw [Finset.mem_insert, mem_granted, mem_granted, hstatus]
    by_cases hji : j = i
    · subst hji
      simpa using hreleased
    · simp [hji]

omit [SwitchStrategy (Fin n) σ] in
/-- **`WakeAll`** signals every task that waits. -/
theorem wakeUp_all (h : SyncOk s) :
    SyncOk (s.wakeUp .all) ∧ (s.wakeUp .all).waitList = [] ∧
      granted (s.wakeUp .all) = granted s ∪ s.waitList.toFinset ∧
      (s.wakeUp .all).state = s.removeWaitObjects s.waitList false := by
  have hlinked : ∀ j ∈ s.waitList, (s.waits.kernel.tasks j).waitObj.syncObj = some WaitQueue.id :=
    fun j hj => (h.waits.linked.mem j _).mpr hj
  obtain ⟨hok, hstatus⟩ :=
    MonitorOk.wakeList WaitQueue.id s.waitList (h.waits.linked.nodup _) s.waits h.waits hlinked
  have hreleased : ∀ j ∈ s.waitList, ∃ f, MonitorOk.released s.waits j = .notified f := by
    intro j hj
    rcases h.waits.linked_cases (hlinked j hj) with ⟨-, hother⟩ | ⟨f, hpending, -, -⟩
    · simp [Monitor.owns] at hother
    · exact ⟨f, by simp [MonitorOk.released, hpending]⟩
  have hgranted : granted (s.wakeUp .all) = granted s ∪ s.waitList.toFinset := by
    ext j
    rw [Finset.mem_union, List.mem_toFinset, mem_granted, mem_granted]
    show (∃ f, status { s.waits with kernel := s.waits.kernel.wakeAll WaitQueue.id } j = .notified f) ↔ _
    have hj := hstatus j
    unfold Kernel.wakeAll
    change status { s.waits with kernel := s.waitList.foldl (fun k i => k.wakeWaitObj i false) s.waits.kernel } j =
      _ at hj
    rw [show s.waits.kernel.waitList WaitQueue.id = s.waitList from rfl, hj]
    by_cases hmem : j ∈ s.waitList
    · rw [if_pos hmem]
      exact ⟨fun _ => .inr hmem, fun _ => hreleased j hmem⟩
    · rw [if_neg hmem]
      simp [hmem]
  -- nobody is blocked any more
  have hnil : (s.wakeUp .all).waitList = [] := by
    apply List.eq_nil_iff_forall_not_mem.mpr
    intro j hj
    have hok' : MonitorOk (s.wakeUp .all).waits := hok
    have hlinked' := (hok'.linked.mem j WaitQueue.id).mpr hj
    rcases hok'.linked_cases hlinked' with ⟨-, hother⟩ | ⟨f, -, -, hblocked⟩
    · simp [Monitor.owns] at hother
    · have hj' : status (s.wakeUp .all).waits j =
          if j ∈ s.waitList then MonitorOk.released s.waits j else status s.waits j := hstatus j
      rw [hblocked] at hj'
      by_cases hmem : j ∈ s.waitList
      · obtain ⟨f', hf'⟩ := hreleased j hmem
        rw [if_pos hmem, hf'] at hj'
        cases hj'
      · rw [if_neg hmem] at hj'
        exact hmem (h.mem_waitList.mpr ⟨f, hj'.symm⟩)
  refine ⟨⟨hok, ?_, ?_⟩, hnil, hgranted, rfl⟩
  · rw [hnil]
    exact List.Pairwise.nil
  · intro j hj
    rw [hnil] at hj
    cases hj

/-! ## Blocking, resuming and kernel calls -/

omit [SwitchStrategy (Fin n) σ] in
/-- INTERNAL: a task that makes a call is in no other. -/
theorem pending_none (h : SyncOk s) (hcall : s.waits.kernel.canCall i = true) : s.waits.pending i = none := by
  simp only [Kernel.canCall, Bool.and_eq_true, decide_eq_true_eq] at hcall
  by_contra hne
  obtain ⟨f, hf⟩ := Option.ne_none_iff_exists'.mp hne
  have hsome := h.waits.call i f hf
  rw [hcall.2] at hsome
  cases hsome

/-- **`Wait`** puts its caller at the end of the list. -/
theorem block (h : SyncOk s) (hsync : cfg.isSyncMode = true) (hcall : s.waits.kernel.canCall i = true)
    (hwaiting : (s.waits.kernel.tasks i).isWaiting = false)
    (hlive : (s.waits.kernel.tasks i).removePending = false) {timeout : ℤ} (htimeout : timeout ≠ 0) :
    SyncOk (s.block cfg i timeout) ∧ (s.block cfg i timeout).waitList = s.waitList ++ [i] ∧
      granted (s.block cfg i timeout) = granted s ∧ i ∉ granted s ∧ i ∉ s.waitList := by
  have hpending := h.pending_none hcall
  have hnone : (s.waits.kernel.tasks i).waitObj.syncObj = none := by simpa [KernelTask.isWaiting] using hwaiting
  obtain ⟨hok, hstatus⟩ := h.waits.block hpending hnone hlive (f := timeout) htimeout
  have hidle : status s.waits i = .idle := by simp [status, hpending]
  have hnotin : i ∉ s.waitList := by
    rw [h.mem_waitList, hidle]
    rintro ⟨f, hf⟩
    cases hf
  -- the step of the kernel is the one of `IKernelService::Wait`
  have hstep : s.waits.step cfg (.call i timeout) =
      { s.waits with
        kernel := s.waits.kernel.onTaskWait i WaitQueue.id timeout
        pending := Function.update s.waits.pending i (some timeout) } := by
    have hstretch : s.waits.stretch cfg (.call i timeout) =
        some ⟨s.waits.state, [], .wait timeout⟩ := by
      simp only [MonitorSystem.stretch, hsync, hcall, Bool.and_self, if_true, Monitor.call, if_neg htimeout]
    unfold MonitorSystem.step
    rw [stepResult_call hstretch]
    simp only [MonitorSystem.follow, List.foldl_nil, hwaiting, Bool.false_eq_true, if_false]
    rfl
  have hlist : (s.block cfg i timeout).waitList = s.waitList ++ [i] := by
    unfold SyncSystem.block SyncSystem.waitList
    dsimp only
    rw [hstep]
    dsimp only
    rw [onTaskWait_eq htimeout hnone]
    simp
  have hstatus' : status (s.block cfg i timeout).waits = Function.update (status s.waits) i (.blocked timeout) := by
    unfold SyncSystem.block
    dsimp only
    rw [hstep]
    exact hstatus
  refine ⟨⟨?_, ?_, ?_⟩, hlist, ?_, ?_, hnotin⟩
  · unfold SyncSystem.block
    dsimp only
    rw [hstep]
    exact hok
  · rw [hlist]
    have hsame : ∀ j ∈ s.waitList, (s.block cfg i timeout).arrival j = s.arrival j := by
      intro j hj
      have hji : j ≠ i := fun heq => hnotin (heq ▸ hj)
      simp [SyncSystem.block, hji]
    have hlast : (s.block cfg i timeout).arrival i = s.arrivals := by simp [SyncSystem.block]
    apply List.pairwise_append.mpr
    refine ⟨?_, List.pairwise_singleton _ _, ?_⟩
    · apply h.order.imp_of_mem
      intro j j' hj hj' hlt
      rw [hsame j hj, hsame j' hj']
      exact hlt
    · intro j hj j' hj'
      rw [List.mem_singleton.mp hj', hsame j hj, hlast]
      exact h.past j hj
  · intro j hj
    show (s.block cfg i timeout).arrival j < s.arrivals + 1
    rw [hlist] at hj
    by_cases hji : j = i
    · subst hji
      simp [SyncSystem.block]
    · have hold : j ∈ s.waitList := by simpa [hji] using hj
      have hlt := h.past j hold
      simp only [SyncSystem.block, Function.update_of_ne hji]
      omega
  · apply granted_congr
    intro j
    rw [hstatus']
    by_cases hji : j = i
    · subst hji
      simp [hidle]
    · simp [hji]
  · rw [mem_granted, hidle]
    rintro ⟨f, hf⟩
    cases hf

/-- **`Wait` returns**: `true` to a task that has been granted its signal, and then the grant is used
up; `false` to one whose wait has timed out. -/
theorem resume (h : SyncOk s) (hwaiting : (s.waits.kernel.tasks i).isWaiting = false) :
    (s.stepResult cfg (.resume i) = (s, none)) ∨
    (SyncOk (s.step cfg (.resume i)) ∧ (s.step cfg (.resume i)).waitList = s.waitList ∧
      (s.step cfg (.resume i)).state = s.state ∧
      ((s.stepResult cfg (.resume i)).2 = some (.bool true) ∧ i ∈ granted s ∧
          granted (s.step cfg (.resume i)) = (granted s).erase i ∨
        (s.stepResult cfg (.resume i)).2 = some (.bool false) ∧ i ∉ granted s ∧
          granted (s.step cfg (.resume i)) = granted s)) := by
  cases hstretch : s.waits.stretch cfg (.resume i) with
  | none =>
    refine .inl ?_
    have hnone := stepResult_none (by simp) hstretch
    unfold SyncSystem.stepResult
    dsimp only
    rw [hnone]
    rfl
  | some t =>
    refine .inr ?_
    obtain ⟨f, r, hpending, hresult, rfl⟩ := stretch_resume hstretch
    have hnone : (s.waits.kernel.tasks i).waitObj.syncObj = none := by simpa [KernelTask.isWaiting] using hwaiting
    obtain ⟨hok, hstatus⟩ := h.waits.leave hnone
    have hstep : s.waits.stepResult cfg (.resume i) =
        ({ s.waits with
            kernel := { s.waits.kernel with call := Function.update s.waits.kernel.call i none }
            pending := Function.update s.waits.pending i none }, some r) := by
      rw [stepResult_resume hstretch]
      rfl
    have hr : r = if (s.waits.kernel.tasks i).waitObj.timeout then .timeout else .signal := by
      unfold Kernel.waitResult at hresult
      split at hresult
      · cases hresult
      · split at hresult
        · cases hresult
        · exact (Option.some.inj hresult).symm
    have heq : s.stepResult cfg (.resume i) =
        ({ s with waits := { s.waits with
            kernel := { s.waits.kernel with call := Function.update s.waits.kernel.call i none }
            pending := Function.update s.waits.pending i none } }, some (.bool (decide (r = .signal)))) := by
      unfold SyncSystem.stepResult
      dsimp only
      rw [hstep]
      rfl
    have hgranted : granted (s.step cfg (.resume i)) = (granted s).erase i := by
      unfold SyncSystem.step
      rw [heq]
      ext j
      rw [Finset.mem_erase, mem_granted, mem_granted, hstatus]
      by_cases hji : j = i
      · subst hji
        simp
      · simp [hji]
    refine ⟨?_, ?_, ?_, ?_⟩
    · unfold SyncSystem.step
      rw [heq]
      exact h.leave hok s.state (List.Sublist.refl _)
    · unfold SyncSystem.step
      rw [heq]
      rfl
    · unfold SyncSystem.step
      rw [heq]
    · rw [heq, hgranted, hr]
      have hcases := MonitorOk.status_of_unlinked hpending hnone
      cases htimeout : (s.waits.kernel.tasks i).waitObj.timeout with
      | false =>
        refine .inl ⟨rfl, mem_granted.mpr ⟨f, ?_⟩, rfl⟩
        rw [hcases, htimeout]
        rfl
      | true =>
        have hnot : i ∉ granted s := by
          rw [mem_granted, hcases, htimeout]
          rintro ⟨f', hf'⟩
          cases hf'
        exact .inr ⟨rfl, hnot, Finset.erase_eq_of_notMem hnot⟩

/-- **A kernel call** lets tasks leave the wait list; it grants nothing and takes no grant away. -/
theorem kernelStep (cfg : Config) (h : SyncOk s) {e : KernelEvent n}
    (hspares : KernelEvent.Spares (fun i => s.waits.pending i ≠ none) s.waits.kernel e) :
    SyncOk (s.kernelStep cfg e) ∧ (s.kernelStep cfg e).waitList.Sublist s.waitList ∧
      granted (s.kernelStep cfg e) = granted s := by
  have hcalls : MonitorOk (s.waits.step cfg (.kernel e)) ∧
      ((s.waits.step cfg (.kernel e)).kernel.waitList WaitQueue.id).Sublist s.waitList ∧
      Mesa.Expires (status s.waits) (status (s.waits.step cfg (.kernel e))) := by
    unfold MonitorSystem.step
    rcases stepResult_kernel cfg s.waits e with hignored | ⟨hstep, hleaves, hreturn⟩
    · rw [hignored]
      exact ⟨h.waits, List.Sublist.refl _, fun _ => .inl rfl⟩
    · obtain ⟨hok, hexpires⟩ := h.waits.kernelStep cfg hleaves hspares hreturn
      have hout := h.waits.outside cfg hleaves hspares hreturn
      rw [hstep]
      exact ⟨hok, hout.list WaitQueue.id rfl, hexpires⟩
  obtain ⟨hok, hsub, hexpires⟩ := hcalls
  refine ⟨h.leave hok _ hsub, hsub, ?_⟩
  apply granted_congr
  intro j
  show (∃ f, status (s.waits.step cfg (.kernel e)) j = .notified f) ↔ _
  rcases hexpires j with hsame | ⟨f, hblocked, hexpired⟩
  · rw [hsame]
  · rw [hblocked, hexpired]
    simp

end SyncOk

/-! ## Methods -/

/-- INTERNAL: nobody waits for a new object. -/
theorem SyncOk.initial (x : ω) : SyncOk (SyncSystem.initial x : SyncSystem n ω σ) :=
  ⟨monitorOk_initial _, List.Pairwise.nil, fun _ hi => nomatch hi⟩

/-- INTERNAL: nobody has been granted anything by a new object. -/
theorem granted_initial (x : ω) : granted (SyncSystem.initial x : SyncSystem n ω σ) = ∅ := by
  simp [granted, SyncSystem.initial, MonitorSystem.initial]

variable [SyncObject ω α]

omit [SwitchStrategy (Fin n) σ] in
/-- INTERNAL: a method without wake-ups. -/
theorem enter_none {t : CriticalSection ω} (ht : t.wakes = .none) :
    s.enter t = { s with state := t.finish t.state } := by
  unfold SyncSystem.enter SyncSystem.wakeUp
  rw [ht]

/-- The method `op` that is called in `e` runs the critical section `t`, and returns or blocks its caller. -/
inductive Ends (cfg : Config) (s : SyncSystem n ω σ) (e : MonitorEvent n α) (op : α)
    (t : CriticalSection ω) : Prop
  | returns (r : MethodResult) (hr : t.outcome = .returns r) (hstep : s.stepResult cfg e = (s.enter t, some r))
  | waits (i : Fin n) (timeout : ℤ) (he : e = .call i op) (hwaits : t.outcome = .waits timeout)
    (hsync : cfg.isSyncMode = true) (hcan : s.waits.kernel.canCall i = true)
    (hstep : s.stepResult cfg e = ((s.enter t).block cfg i timeout, none))

/-- INTERNAL: a call of a method is ignored, or it returns, or it blocks its caller. -/
theorem stepResult_method {e : MonitorEvent n α} {op : α} (he : e = .isr op ∨ ∃ i, e = .call i op) :
    s.stepResult cfg e = (s, none) ∨
      ∃ t, SyncObject.method s.state s.waitList.isEmpty op = some t ∧ Ends cfg s e op t := by
  rcases he with rfl | ⟨i, rfl⟩
  · cases hmode : cfg.isSyncMode && SyncObject.isrSafe ω op with
    | false => exact .inl (by simp only [SyncSystem.stepResult, hmode, Bool.false_eq_true, if_false])
    | true =>
      cases hmethod : SyncObject.method s.state s.waitList.isEmpty op with
      | none => exact .inl (by simp only [SyncSystem.stepResult, hmode, if_true, hmethod])
      | some t =>
        cases houtcome : t.outcome with
        | returns r =>
          refine .inr ⟨t, rfl, .returns r houtcome ?_⟩
          simp only [SyncSystem.stepResult, hmode, if_true, hmethod, houtcome]
        | waits timeout => exact .inl (by simp only [SyncSystem.stepResult, hmode, if_true, hmethod, houtcome])
  · cases hmode : cfg.isSyncMode && s.waits.kernel.canCall i with
    | false => exact .inl (by simp only [SyncSystem.stepResult, hmode, Bool.false_eq_true, if_false])
    | true =>
      cases hmethod : SyncObject.method s.state s.waitList.isEmpty op with
      | none => exact .inl (by simp only [SyncSystem.stepResult, hmode, if_true, hmethod])
      | some t =>
        refine .inr ⟨t, rfl, ?_⟩
        have hboth : cfg.isSyncMode = true ∧ s.waits.kernel.canCall i = true := by simpa using hmode
        cases houtcome : t.outcome with
        | returns r =>
          refine .returns r houtcome ?_
          simp only [SyncSystem.stepResult, hmode, if_true, hmethod, houtcome]
        | waits timeout =>
          refine .waits i timeout rfl houtcome hboth.1 hboth.2 ?_
          simp only [SyncSystem.stepResult, hmode, if_true, hmethod, houtcome]

/-! ## A wait that runs out -/

/-- `m` ticks. -/
def tickEvents (m : ℕ) : List (MonitorEvent n α) := List.replicate m (.kernel (.onTick 1))

/-- INTERNAL: a task that waits for ever goes through `m` ticks. -/
theorem SyncSystem.foldl_ticks {since timeout : ℤ} (hstatic : cfg.isDynamicMode = false)
    (hhrt : cfg.isHrtMode = false) (hasleep : Asleep i since s.waits.kernel) (hlinked : Linked s.waits.kernel)
    (hstarted : s.waits.kernel.isStarted = true) (hpending : s.waits.pending i = some timeout)
    (hcall : s.waits.kernel.call i ≠ none) (m : ℕ) (hm : s.waits.kernel.ticks + m - since ≤ waitInfinite) :
    ∃ s' : SyncSystem n ω σ, (tickEvents m).foldl (SyncSystem.step cfg) s = s' ∧
      s'.waits.kernel = (List.replicate m (.onTick 1)).foldl (Kernel.step cfg) s.waits.kernel ∧
      s'.waits.pending i = some timeout := by
  induction m with
  | zero => exact ⟨s, rfl, rfl, hpending⟩
  | succ m ih =>
    obtain ⟨s', heq, hkernel, hpending'⟩ := ih (by push_cast at hm; omega)
    refine ⟨s'.step cfg (.kernel (.onTick 1)), ?_, ?_, ?_⟩
    · unfold tickEvents
      rw [List.replicate_succ', List.foldl_append]
      exact congrArg (fun s => SyncSystem.step cfg s (.kernel (.onTick 1))) heq
    · rw [List.replicate_succ', List.foldl_append, ← hkernel]
      rfl
    · obtain ⟨k', hk', -, -, -, hwait, -⟩ := hasleep.ticks hstatic hhrt hlinked hstarted (m + 1) hm
      -- the call is still pending in the kernel
      have hcall' : (s'.waits.kernel.step cfg (.onTick 1)).call i = s.waits.kernel.call i := by
        rw [← hwait.1, ← hk', List.replicate_succ', List.foldl_append, ← hkernel]
        rfl
      show (if ((s'.waits.kernel.step cfg (.onTick 1)).call i).isSome then s'.waits.pending i else none) = _
      rw [hcall', if_pos (Option.isSome_iff_ne_none.mpr hcall), hpending']

/-- A `Wait` with `WAIT_INFINITE` returns `true` after `INT32_MAX` ticks, whatever the object. -/
theorem SyncSystem.resume_ticks {timeout : ℤ} (hstatic : cfg.isDynamicMode = false) (hhrt : cfg.isHrtMode = false)
    (hasleep : Asleep i s.waits.kernel.ticks s.waits.kernel) (hlinked : Linked s.waits.kernel)
    (hstarted : s.waits.kernel.isStarted = true) (hpending : s.waits.pending i = some timeout)
    (hcall : s.waits.kernel.call i ≠ none) (hsignal : (s.waits.kernel.tasks i).waitObj.timeout = false) :
    (((tickEvents 2147483647).foldl (SyncSystem.step cfg) s).stepResult cfg (.resume i)).2 = some (.bool true) := by
  have hm : s.waits.kernel.ticks + (2147483647 : ℕ) - s.waits.kernel.ticks ≤ waitInfinite := by
    unfold waitInfinite
    omega
  obtain ⟨s', heq, hkernel, hpending'⟩ :=
    SyncSystem.foldl_ticks hstatic hhrt hasleep hlinked hstarted hpending hcall 2147483647 hm
  obtain ⟨k', hk', hasleep', -, -, hwait, hticks⟩ := hasleep.ticks hstatic hhrt hlinked hstarted 2147483647 hm
  rw [hk'] at hkernel
  have hawake : (k'.tasks i).isSleeping = false := by
    rw [KernelTask.isSleeping, hasleep'.clock, hticks]
    unfold waitInfinite
    simp
  obtain ⟨c, hc⟩ := Option.ne_none_iff_exists'.mp hcall
  have hresult : s'.waits.kernel.waitResult i = some .signal := by
    rw [hkernel]
    simp [Kernel.waitResult, hwait.1, hc, hawake, hwait.2, hsignal]
  have hstretch : s'.waits.stretch cfg (.resume i) = some ⟨s'.waits.state, [], .done .signal⟩ := by
    simp only [MonitorSystem.stretch, hpending', hresult, Monitor.resume]
  rw [heq]
  unfold SyncSystem.stepResult
  dsimp only
  rw [stepResult_resume hstretch]
  rfl

end Stk.Analysis
