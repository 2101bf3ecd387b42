import Stk.Analysis.MutexInvariant
import Stk.Analysis.SyncTick
import Stk.Model.ConditionVariable

/-!
# Waiting on a condition variable, step by step

`WaitsOk` is what holds of the kernel between the single steps of `OnTaskWait`.  A task that
waits sleeps, with one exception: between `SetupWait` and `ScheduleSleep` its wait object is
linked and it is awake.  The invariant survives every event that does not meet a wait at the
wrong moment (`Undivided`): a tick neither expires the wait of such a task nor comes between
`ScheduleSleep` and `Unlock`, and a notification does not hit such a task.
-/

set_option autoImplicit false

namespace Stk.Analysis

open Stk.Model Stk.Model.Kernel

/-- The wait object is linked and `ScheduleSleep` has yet to be called. -/
def CvWait.early (w : CvWait) : Bool :=
  decide (w.stage = .linked) || decide (w.stage = .registered)

/-- A slot whose wait object is linked.  `early` says that its task is on the way into its
sleep. -/
structure WaiterOk (early : Bool) (t : KernelTask) (c : Option WaitCall) : Prop where
  busy : t.user ≠ none
  call : c ≠ none
  fresh : t.waitObj.timeout = false
  bound : t.waitObj.timeWait ≤ waitInfinite
  awake : early = true → 0 ≤ t.timeSleep
  asleep : early = false → t.timeSleep < 0
  finite : early = false → t.waitObj.timeWait ≠ waitInfinite → t.timeSleep + t.waitObj.timeWait < 0

/-- A slot whose task is inside `ConditionVariable::Wait`: its wait object is linked, or the
wait has been ended and the sleep ends with the next tick. -/
structure InsideOk (w : CvWait) (t : KernelTask) (c : Option WaitCall) : Prop where
  busy : t.user ≠ none
  call : c ≠ none
  place : t.waitObj.syncObj = some (.object w.cv) ∨
    (CvWait.early w = false ∧ t.waitObj.syncObj = none ∧ -1 ≤ t.timeSleep)

section SameSlot

variable {n : ℕ} {σ : Type} {k k' : Kernel n σ} {i : Fin n}

theorem WaiterOk.sameSlot {early : Bool} (h : WaiterOk early (k.tasks i) (k.call i)) (hs : SameSlot i k k') :
    WaiterOk early (k'.tasks i) (k'.call i) where
  busy := by rw [hs.user]; exact h.busy
  call := by rw [hs.call]; exact h.call
  fresh := by rw [hs.waitObj]; exact h.fresh
  bound := by rw [hs.waitObj]; exact h.bound
  awake := by rw [hs.time]; exact h.awake
  asleep := by rw [hs.time]; exact h.asleep
  finite := by rw [hs.time, hs.waitObj]; exact h.finite

theorem InsideOk.sameSlot {w : CvWait} (h : InsideOk w (k.tasks i) (k.call i)) (hs : SameSlot i k k') :
    InsideOk w (k'.tasks i) (k'.call i) where
  busy := by rw [hs.user]; exact h.busy
  call := by rw [hs.call]; exact h.call
  place := by rw [hs.waitObj, hs.time]; exact h.place

end SameSlot

/-- INTERNAL: a tick counts the wait down that it does not end. -/
theorem WaiterOk.tick {early : Bool} {t : KernelTask} {c : Option WaitCall} {e : ℤ} (h : WaiterOk early t c)
    (he : 0 < e) (hobj : t.waitObj.syncObj ≠ none) (hlater : expires e t = false)
    (hinf : early = false → t.waitObj.timeWait = waitInfinite → t.timeSleep + e < 0) :
    WaiterOk early (slept e (waited e t)) c := by
  obtain ⟨hbusy, hcall, hfresh, hbound, hawake, hasleep, hfinite⟩ := h
  by_cases hforever : t.waitObj.timeWait = waitInfinite
  · rw [waited_untimed hforever]
    cases early with
    | true =>
      rw [slept_awake (hawake rfl)]
      exact ⟨hbusy, hcall, hfresh, hbound, hawake, hasleep, hfinite⟩
    | false =>
      rw [slept_asleep (hasleep rfl)]
      exact ⟨hbusy, hcall, hfresh, hbound, (fun he => by contradiction), fun he => hinf he hforever,
        fun _ hfin => absurd hforever hfin⟩
  · have hlt : e < t.waitObj.timeWait := by
      simp only [expires, isWaiting_iff.mpr hobj, Bool.true_and, Bool.and_eq_false_iff,
        decide_eq_false_iff_not] at hlater
      omega
    rw [waited_timed hobj (by omega) hlt]
    cases early with
    | true =>
      rw [slept_awake (by exact hawake rfl)]
      refine ⟨hbusy, hcall, hfresh, ?_, hawake, hasleep, (fun he => by contradiction)⟩
      dsimp only
      omega
    | false =>
      have hs := hasleep rfl
      have hsum := hfinite rfl hforever
      rw [slept_asleep (by exact hs)]
      refine ⟨hbusy, hcall, hfresh, ?_, (fun he => by contradiction), ?_, ?_⟩
      · dsimp only
        omega
      · intro _
        dsimp only
        omega
      · intro _ _
        dsimp only
        omega

variable {n : ℕ} {σ : Type} {cfg : Config} {waiting waiting' : Fin n → Option CvWait}
  {k k' : Kernel n σ} {i : Fin n} {e : ℤ}

/-- What holds of the kernel between the steps of the tasks inside `Wait`. -/
structure WaitsOk (cfg : Config) (waiting : Fin n → Option CvWait) (k : Kernel n σ) : Prop where
  queued : Queued k
  sync : ∀ i, (k.tasks i).waitObj.syncObj ≠ none → cfg.isSyncMode = true
  registered : ∀ i o, (k.tasks i).waitObj.syncObj = some o →
    o ∈ k.syncList ∨ (waiting i).map CvWait.stage = some .linked
  distinct : ∀ i j u, (k.tasks i).user = some u → (k.tasks j).user = some u → i = j
  live : ∀ i, (k.tasks i).removePending = false
  noRequest : ∀ i, (k.tasks i).addTaskReq = none
  waiter : ∀ i, (k.tasks i).waitObj.syncObj ≠ none →
    WaiterOk ((waiting i).any CvWait.early) (k.tasks i) (k.call i)
  inside : ∀ i w, waiting i = some w → InsideOk w (k.tasks i) (k.call i)

/-! ## The wait lists -/

namespace Queued

theorem same (h : Queued k) (hobj : ∀ j, (k'.tasks j).waitObj.syncObj = (k.tasks j).waitObj.syncObj)
    (hlist : k'.waitList = k.waitList) (hsync : k'.syncList.Nodup) : Queued k' where
  mem j o := by rw [hobj, hlist]; exact h.mem j o
  nodup o := by rw [hlist]; exact h.nodup o
  syncNodup := hsync

/-- INTERNAL: slot `i` joins the list of `o`. -/
theorem link (h : Queued k) {o : SyncId} (hnone : (k.tasks i).waitObj.syncObj = none)
    (hother : ∀ j, j ≠ i → k'.tasks j = k.tasks j) (hi : (k'.tasks i).waitObj.syncObj = some o)
    (hlist : k'.waitList = Function.update k.waitList o (k.waitList o ++ [i]))
    (hsync : k'.syncList.Nodup) : Queued k' := by
  have hnew : ∀ o', i ∉ k.waitList o' := by
    intro o' hmem
    rw [← h.mem, hnone] at hmem
    cases hmem
  constructor
  · intro j o'
    rw [hlist]
    by_cases hj : j = i
    · subst hj
      rw [hi]
      by_cases ho : o' = o
      · subst ho
        simp
      · rw [Function.update_of_ne ho]
        exact iff_of_false (fun heq => ho (Option.some.inj heq).symm) (hnew o')
    · rw [hother j hj, h.mem]
      by_cases ho : o' = o
      · subst ho
        simp [hj]
      · rw [Function.update_of_ne ho]
  · intro o'
    rw [hlist]
    by_cases ho : o' = o
    · subst ho
      rw [Function.update_self, List.nodup_append]
      refine ⟨h.nodup o', List.nodup_singleton i, ?_⟩
      intro j hj j' hj'
      obtain rfl : j' = i := by simpa using hj'
      rintro rfl
      exact hnew o' hj
    · rw [Function.update_of_ne ho]
      exact h.nodup o'
  · exact hsync

/-- INTERNAL: slot `i` leaves the list of `o`. -/
theorem unlink (h : Queued k) {o : SyncId} (ho : (k.tasks i).waitObj.syncObj = some o)
    (hother : ∀ j, j ≠ i → k'.tasks j = k.tasks j) (hi : (k'.tasks i).waitObj.syncObj = none)
    (hlist : k'.waitList = Function.update k.waitList o ((k.waitList o).erase i))
    (hsync : k'.syncList.Nodup) : Queued k' := by
  constructor
  · intro j o'
    rw [hlist]
    by_cases hj : j = i
    · subst hj
      rw [hi]
      by_cases hne : o' = o
      · subst hne
        rw [Function.update_self]
        exact iff_of_false (fun heq => nomatch heq) (h.nodup o').not_mem_erase
      · rw [Function.update_of_ne hne, ← h.mem, ho]
        exact iff_of_false (fun heq => nomatch heq) (fun heq => hne (Option.some.inj heq).symm)
    · rw [hother j hj, h.mem]
      by_cases hne : o' = o
      · subst hne
        rw [Function.update_self, List.mem_erase_of_ne hj]
      · rw [Function.update_of_ne hne]
  · intro o'
    rw [hlist]
    by_cases hne : o' = o
    · subst hne
      rw [Function.update_self]
      exact (h.nodup o').erase i
    · rw [Function.update_of_ne hne]
      exact h.nodup o'
  · exact hsync

end Queued

namespace WaitsOk

/-- INTERNAL: one slot changes. -/
theorem update (h : WaitsOk cfg waiting k) (i : Fin n) (hqueued : Queued k')
    (htasks : ∀ j, j ≠ i → k'.tasks j = k.tasks j) (hcall : ∀ j, j ≠ i → k'.call j = k.call j)
    (hwaiting : ∀ j, j ≠ i → waiting' j = waiting j) (hsync : ∀ o ∈ k.syncList, o ∈ k'.syncList)
    (huser : (k'.tasks i).user = (k.tasks i).user)
    (hremove : (k'.tasks i).removePending = (k.tasks i).removePending)
    (hrequest : (k'.tasks i).addTaskReq = (k.tasks i).addTaskReq)
    (hlinked : ∀ o, (k'.tasks i).waitObj.syncObj = some o → cfg.isSyncMode = true ∧
      (o ∈ k'.syncList ∨ (waiting' i).map CvWait.stage = some .linked) ∧
      WaiterOk ((waiting' i).any CvWait.early) (k'.tasks i) (k'.call i))
    (hinside : ∀ w, waiting' i = some w → InsideOk w (k'.tasks i) (k'.call i)) :
    WaitsOk cfg waiting' k' := by
  have husers : ∀ j, (k'.tasks j).user = (k.tasks j).user := by
    intro j
    by_cases hj : j = i
    · subst hj
      exact huser
    · rw [htasks j hj]
  constructor
  · exact hqueued
  · intro j hj
    by_cases hji : j = i
    · subst hji
      obtain ⟨o, ho⟩ := Option.ne_none_iff_exists'.mp hj
      exact (hlinked o ho).1
    · rw [htasks j hji] at hj
      exact h.sync j hj
  · intro j o hj
    by_cases hji : j = i
    · subst hji
      exact (hlinked o hj).2.1
    · rw [htasks j hji] at hj
      rw [hwaiting j hji]
      exact (h.registered j o hj).imp (hsync o) id
  · intro j j' u hj hj'
    rw [husers] at hj hj'
    exact h.distinct j j' u hj hj'
  · intro j
    by_cases hji : j = i
    · subst hji
      rw [hremove]
      exact h.live j
    · rw [htasks j hji]
      exact h.live j
  · intro j
    by_cases hji : j = i
    · subst hji
      rw [hrequest]
      exact h.noRequest j
    · rw [htasks j hji]
      exact h.noRequest j
  · intro j hj
    by_cases hji : j = i
    · subst hji
      obtain ⟨o, ho⟩ := Option.ne_none_iff_exists'.mp hj
      exact (hlinked o ho).2.2
    · rw [htasks j hji] at hj ⊢
      rw [hcall j hji, hwaiting j hji]
      exact h.waiter j hj
  · intro j w hj
    by_cases hji : j = i
    · subst hji
      exact hinside w hj
    · rw [hwaiting j hji] at hj
      rw [htasks j hji, hcall j hji]
      exact h.inside j w hj

/-- INTERNAL: a task that may make calls is neither in a wait nor inside `Wait`. -/
theorem of_call_none (h : WaitsOk cfg waiting k) (hcall : k.call i = none) :
    (k.tasks i).waitObj.syncObj = none ∧ waiting i = none := by
  constructor
  · by_contra hobj
    exact (h.waiter i hobj).call hcall
  · by_contra hne
    obtain ⟨w, hw⟩ := Option.ne_none_iff_exists'.mp hne
    exact (h.inside i w hw).call hcall

/-- INTERNAL: the slots and the lists are the same. -/
theorem frame (h : WaitsOk cfg waiting k) (hslot : ∀ i, SameSlot i k k')
    (hrequest : ∀ i, (k'.tasks i).addTaskReq = (k.tasks i).addTaskReq)
    (hlist : k'.waitList = k.waitList) (hsync : k'.syncList = k.syncList) : WaitsOk cfg waiting k' where
  queued := h.queued.same (fun j => by rw [(hslot j).waitObj]) hlist (by rw [hsync]; exact h.queued.syncNodup)
  sync i hi := by
    rw [(hslot i).waitObj] at hi
    exact h.sync i hi
  registered i o hi := by
    rw [(hslot i).waitObj] at hi
    rw [hsync]
    exact h.registered i o hi
  distinct i j u hi hj := by
    rw [(hslot i).user] at hi
    rw [(hslot j).user] at hj
    exact h.distinct i j u hi hj
  live i := by rw [(hslot i).remove]; exact h.live i
  noRequest i := by rw [hrequest]; exact h.noRequest i
  waiter i hi := by
    rw [(hslot i).waitObj] at hi
    exact (h.waiter i hi).sameSlot (hslot i)
  inside i w hi := (h.inside i w hi).sameSlot (hslot i)

variable [SwitchStrategy (Fin n) σ]

/-! ## The steps of `OnTaskWait` -/

omit [SwitchStrategy (Fin n) σ] in
/-- INTERNAL: `SetupWait`. -/
theorem setupWait (h : WaitsOk cfg waiting k) (hsync : cfg.isSyncMode = true) (hcall : k.call i = none)
    (hbusy : (k.tasks i).user ≠ none) (hs : (k.tasks i).isSleeping = false) {cv m : ℕ} {timeout : ℤ}
    (hle : timeout ≤ waitInfinite) :
    WaitsOk cfg (Function.update waiting i (some ⟨cv, m, .linked⟩)) (k.setupWait i (.object cv) timeout) := by
  obtain ⟨hobj, -⟩ := h.of_call_none hcall
  have hawake : 0 ≤ (k.tasks i).timeSleep := by simpa [KernelTask.isSleeping] using hs
  apply h.update i
  · apply h.queued.link (o := .object cv) hobj
    · intro j hj
      simp [Kernel.setupWait, Kernel.setTask, hj]
    · simp [Kernel.setupWait, Kernel.setTask]
    · rfl
    · exact h.queued.syncNodup
  · intro j hj
    simp [Kernel.setupWait, Kernel.setTask, hj]
  · intro j hj
    simp [Kernel.setupWait, Kernel.setTask, hj]
  · intro j hj
    exact Function.update_of_ne hj _ _
  · exact fun o ho => ho
  · simp [Kernel.setupWait, Kernel.setTask]
  · simp [Kernel.setupWait, Kernel.setTask]
  · simp [Kernel.setupWait, Kernel.setTask]
  · intro o _
    refine ⟨hsync, .inr (by simp), ?_⟩
    simp only [Kernel.setupWait, Kernel.setTask, Function.update_self]
    exact ⟨hbusy, Option.some_ne_none _, rfl, hle, fun _ => hawake,
      (fun he => by contradiction), (fun he => by contradiction)⟩
  · intro w hw
    rw [Function.update_self] at hw
    obtain rfl := Option.some.inj hw
    simp only [Kernel.setupWait, Kernel.setTask, Function.update_self]
    exact ⟨hbusy, Option.some_ne_none _, .inl rfl⟩

omit [SwitchStrategy (Fin n) σ] in
/-- INTERNAL: the registration of the sync object. -/
theorem registerSync (h : WaitsOk cfg waiting k) {w : CvWait} (hw : waiting i = some w)
    (hstage : w.stage = .linked) :
    WaitsOk cfg (Function.update waiting i (some { w with stage := .registered }))
      (k.registerSync (.object w.cv)) := by
  have hin := h.inside i w hw
  have hearly : (waiting i).any CvWait.early = true := by simp [hw, CvWait.early, hstage]
  have hobj : (k.tasks i).waitObj.syncObj = some (.object w.cv) := by
    rcases hin.place with hobj | ⟨hlate, -⟩
    · exact hobj
    · simp [CvWait.early, hstage] at hlate
  have hmem : SyncId.object w.cv ∈ (k.registerSync (.object w.cv)).syncList := by
    unfold Kernel.registerSync
    dsimp only
    split
    · next hmem => exact hmem
    · simp
  apply h.update i
  · apply h.queued.same
    · exact fun _ => rfl
    · rfl
    · unfold Kernel.registerSync
      dsimp only
      split
      · exact h.queued.syncNodup
      · next hnot =>
        rw [List.nodup_append]
        refine ⟨h.queued.syncNodup, List.nodup_singleton _, ?_⟩
        intro o ho o' ho'
        obtain rfl : o' = .object w.cv := by simpa using ho'
        rintro rfl
        exact hnot ho
  · exact fun _ _ => rfl
  · exact fun _ _ => rfl
  · exact fun j hj => Function.update_of_ne hj _ _
  · intro o ho
    unfold Kernel.registerSync
    dsimp only
    split
    · exact ho
    · exact List.mem_append_left _ ho
  · rfl
  · rfl
  · rfl
  · intro o ho
    obtain rfl : SyncId.object w.cv = o := Option.some.inj (hobj.symm.trans ho)
    have hwaiter := h.waiter i (by rw [hobj]; exact Option.some_ne_none _)
    rw [hearly] at hwaiter
    refine ⟨h.sync i (by rw [hobj]; exact Option.some_ne_none _), .inl hmem, ?_⟩
    rw [Function.update_self]
    exact hwaiter
  · intro w' hw'
    rw [Function.update_self] at hw'
    obtain rfl := Option.some.inj hw'
    exact ⟨hin.busy, hin.call, .inl hobj⟩

/-- INTERNAL: `ScheduleSleep`. -/
theorem scheduleSleep (h : WaitsOk cfg waiting k) {w : CvWait} (hw : waiting i = some w)
    (hstage : w.stage = .registered) :
    WaitsOk cfg (Function.update waiting i (some { w with stage := .scheduled }))
      (k.scheduleSleep i waitInfinite) := by
  have hin := h.inside i w hw
  have hobj : (k.tasks i).waitObj.syncObj = some (.object w.cv) := by
    rcases hin.place with hobj | ⟨hlate, -⟩
    · exact hobj
    · simp [CvWait.early, hstage] at hlate
  have hwaiter := h.waiter i (by rw [hobj]; exact Option.some_ne_none _)
  have hslot : (k.scheduleSleep i waitInfinite).tasks i =
      (k.tasks i).scheduleSleep (SwitchStrategy.sleepEventApi σ) waitInfinite := by
    simp [Kernel.scheduleSleep, Kernel.setTask]
  have hother : ∀ j, j ≠ i → (k.scheduleSleep i waitInfinite).tasks j = k.tasks j := by
    intro j hj
    simp [Kernel.scheduleSleep, Kernel.setTask, hj]
  apply h.update i
  · apply h.queued.same
    · intro j
      by_cases hj : j = i
      · subst hj
        rw [hslot]
        rfl
      · rw [hother j hj]
    · rfl
    · exact h.queued.syncNodup
  · exact hother
  · exact fun _ _ => rfl
  · exact fun j hj => Function.update_of_ne hj _ _
  · exact fun o ho => ho
  · rw [hslot]
    rfl
  · rw [hslot]
    rfl
  · rw [hslot]
    rfl
  · intro o ho
    rw [hslot] at ho ⊢
    have ho' : (k.tasks i).waitObj.syncObj = some o := ho
    refine ⟨h.sync i (by rw [hobj]; exact Option.some_ne_none _), ?_, ?_⟩
    · rcases h.registered i o ho' with hmem | hlinked
      · exact .inl hmem
      · rw [hw] at hlinked
        simp [hstage] at hlinked
    · rw [Function.update_self]
      have hbound := hwaiter.bound
      refine ⟨hwaiter.busy, hwaiter.call, hwaiter.fresh, hbound, (fun he => by contradiction), ?_, ?_⟩
      · intro _
        simp [KernelTask.scheduleSleep, waitInfinite]
      · intro _ hfin
        simp only [KernelTask.scheduleSleep] at hfin ⊢
        omega
  · intro w' hw'
    rw [Function.update_self] at hw'
    obtain rfl := Option.some.inj hw'
    rw [hslot]
    exact ⟨hin.busy, hin.call, .inl hobj⟩

/-! ## The other events -/

omit [SwitchStrategy (Fin n) σ] in
/-- INTERNAL: `WaitObject::Wake` of a task that sleeps. -/
theorem wakeWaitObj (h : WaitsOk cfg waiting k) {o : SyncId} (ho : (k.tasks i).waitObj.syncObj = some o)
    (hlate : (waiting i).any CvWait.early = false) (timeout : Bool) :
    WaitsOk cfg waiting (k.wakeWaitObj i timeout) ∧ (k.wakeWaitObj i timeout).faults = k.faults := by
  have hwaiter := h.waiter i (by rw [ho]; exact Option.some_ne_none _)
  have hs : (k.tasks i).isSleeping = true := by
    simpa [KernelTask.isSleeping] using hwaiter.asleep hlate
  rw [wakeWaitObj_eq ho, if_pos hs]
  refine ⟨?_, rfl⟩
  have hother : ∀ j, j ≠ i → Function.update k.tasks i
      { k.tasks i with waitObj := ⟨none, timeout, 0⟩, timeSleep := -1 } j = k.tasks j :=
    fun j hj => Function.update_of_ne hj _ _
  apply h.update i
  · apply h.queued.unlink ho hother
    · simp
    · rfl
    · exact h.queued.syncNodup
  · exact hother
  · exact fun j hj => Function.update_of_ne hj _ _
  · exact fun _ _ => rfl
  · exact fun o ho => ho
  · simp
  · simp
  · simp
  · intro o' ho'
    simp at ho'
  · intro w hw
    have hin := h.inside i w hw
    simp only [Function.update_self]
    refine ⟨hin.busy, ?_, .inr ⟨?_, rfl, le_rfl⟩⟩
    · simpa using hin.call
    · simpa [hw] using hlate

/-- INTERNAL: a task that may make calls starts to wait in the atomic way. -/
theorem onTaskWait (h : WaitsOk cfg waiting k) (hsync : cfg.isSyncMode = true) (hcall : k.call i = none)
    (hbusy : (k.tasks i).user ≠ none) {o : SyncId} {timeout : ℤ} (htime : timeout ≠ 0)
    (hle : timeout ≤ waitInfinite) : WaitsOk cfg waiting (k.onTaskWait i o timeout) := by
  obtain ⟨hobj, hout⟩ := h.of_call_none hcall
  rw [onTaskWait_eq htime hobj]
  have hother : ∀ j, j ≠ i → Function.update k.tasks i
      ({ k.tasks i with waitObj := ⟨some o, false, timeout⟩ }.scheduleSleep
        (SwitchStrategy.sleepEventApi σ) waitInfinite) j = k.tasks j :=
    fun j hj => Function.update_of_ne hj _ _
  have hmem : o ∈ if o ∈ k.syncList then k.syncList else k.syncList ++ [o] := by
    split
    · next hmem => exact hmem
    · simp
  apply h.update i
  · apply h.queued.link (o := o) hobj hother
    · simp [KernelTask.scheduleSleep]
    · rfl
    · dsimp only
      split
      · exact h.queued.syncNodup
      · next hnot =>
        rw [List.nodup_append]
        refine ⟨h.queued.syncNodup, List.nodup_singleton _, ?_⟩
        intro o₁ ho₁ o₂ ho₂
        obtain rfl : o₂ = o := by simpa using ho₂
        rintro rfl
        exact hnot ho₁
  · exact hother
  · exact fun j hj => Function.update_of_ne hj _ _
  · exact fun _ _ => rfl
  · intro o' ho'
    dsimp only
    split
    · exact ho'
    · exact List.mem_append_left _ ho'
  · simp [KernelTask.scheduleSleep]
  · simp [KernelTask.scheduleSleep]
  · simp [KernelTask.scheduleSleep]
  · intro o' ho'
    simp only [Function.update_self] at ho' ⊢
    obtain rfl : o = o' := by simpa [KernelTask.scheduleSleep] using ho'
    refine ⟨hsync, .inl hmem, ?_⟩
    refine ⟨hbusy, Option.some_ne_none _, rfl, hle, ?_, ?_, ?_⟩
    · intro he
      rw [hout] at he
      cases he
    · intro _
      simp [KernelTask.scheduleSleep, waitInfinite]
    · intro _ hfin
      simp only [KernelTask.scheduleSleep] at hfin ⊢
      omega
  · intro w hw
    rw [hout] at hw
    cases hw

omit [SwitchStrategy (Fin n) σ] in
/-- INTERNAL: a task that is in no wait any more leaves `Wait`. -/
theorem leave (h : WaitsOk cfg waiting k) (hobj : (k.tasks i).waitObj.syncObj = none) :
    WaitsOk cfg (Function.update waiting i none) { k with call := Function.update k.call i none } := by
  apply h.update i
  · exact h.queued.same (fun _ => rfl) rfl h.queued.syncNodup
  · exact fun _ _ => rfl
  · exact fun j hj => Function.update_of_ne hj _ _
  · exact fun j hj => Function.update_of_ne hj _ _
  · exact fun o ho => ho
  · rfl
  · rfl
  · rfl
  · intro o ho
    have ho' : (k.tasks i).waitObj.syncObj = some o := ho
    rw [hobj] at ho'
    cases ho'
  · intro w hw
    rw [Function.update_self] at hw
    cases hw

/-- INTERNAL: a task that may make calls goes to sleep. -/
theorem sleep (h : WaitsOk cfg waiting k) (hcall : k.call i = none) (ticks : ℤ) :
    WaitsOk cfg waiting (k.scheduleSleep i ticks) := by
  obtain ⟨hobj, hout⟩ := h.of_call_none hcall
  have hslot : (k.scheduleSleep i ticks).tasks i =
      (k.tasks i).scheduleSleep (SwitchStrategy.sleepEventApi σ) ticks := by
    simp [Kernel.scheduleSleep, Kernel.setTask]
  have hother : ∀ j, j ≠ i → (k.scheduleSleep i ticks).tasks j = k.tasks j := by
    intro j hj
    simp [Kernel.scheduleSleep, Kernel.setTask, hj]
  apply h.update i
  · apply h.queued.same
    · intro j
      by_cases hj : j = i
      · subst hj
        rw [hslot]
        rfl
      · rw [hother j hj]
    · rfl
    · exact h.queued.syncNodup
  · exact hother
  · exact fun _ _ => rfl
  · exact fun _ _ => rfl
  · exact fun o ho => ho
  · rw [hslot]
    rfl
  · rw [hslot]
    rfl
  · rw [hslot]
    rfl
  · intro o ho
    rw [hslot] at ho
    have ho' : (k.tasks i).waitObj.syncObj = some o := ho
    rw [hobj] at ho'
    cases ho'
  · intro w hw
    rw [hout] at hw
    cases hw

end WaitsOk

/-! ## The tick -/

section Tick

variable [SwitchStrategy (Fin n) σ]

/-- The ticks that do not meet a wait at the wrong moment:

* no registered wait expires before its task has called `ScheduleSleep`;
* no task is between `ScheduleSleep` and `Unlock`, unless its wait has been ended;
* no infinite wait runs out of its sleep counter, and no period of a task in a wait is
  re-armed. -/
structure TickOk (cfg : Config) (waiting : Fin n → Option CvWait) (e : ℤ) (k : Kernel n σ) : Prop where
  early : ∀ i w, waiting i = some w → CvWait.early w = true → SyncId.object w.cv ∈ k.syncList →
    expires e (k.tasks i) = false
  scheduled : ∀ i w, waiting i = some w → w.stage = .scheduled → (k.tasks i).waitObj.syncObj = none
  infinite : ∀ i, (k.tasks i).waitObj.syncObj ≠ none → (waiting i).any CvWait.early = false →
    (k.tasks i).waitObj.timeWait = waitInfinite → (k.tasks i).timeSleep + e < 0
  period : ∀ i, (k.tasks i).waitObj.syncObj ≠ none ∨ waiting i ≠ none →
    ¬Rearms cfg (({ k with ticks := k.ticks + e } : Kernel n σ).updateTasks cfg e).1 i

namespace WaitsOk

theorem timely (h : WaitsOk cfg waiting k) (ht : TickOk cfg waiting e k) : Timely k.syncList e k := by
  intro i hi
  obtain ⟨o, ho, hobj⟩ := linkedTo_iff.mp hi
  have hwaiter := h.waiter i (by rw [hobj]; exact Option.some_ne_none o)
  refine ⟨hwaiter.fresh, ?_⟩
  intro hexp
  cases hearly : (waiting i).any CvWait.early with
  | false => simpa [KernelTask.isSleeping] using hwaiter.asleep hearly
  | true =>
    obtain ⟨w, hw, hwe⟩ := (Option.any_eq_true _ _).mp hearly
    have hcv : o = .object w.cv := by
      rcases (h.inside i w hw).place with hplace | ⟨hlate, -⟩
      · exact Option.some.inj (hobj.symm.trans hplace)
      · rw [hwe] at hlate
        cases hlate
    subst hcv
    rw [ht.early i w hw hwe ho] at hexp
    cases hexp

omit [SwitchStrategy (Fin n) σ] in
/-- INTERNAL: the waits that a tick does not end. -/
theorem countedDown_linked {o : SyncId}
    (ho : ((countedDown cfg e k).tasks i).waitObj.syncObj = some o) :
    (k.tasks i).waitObj.syncObj = some o ∧ (counts cfg k i = true → expires e (k.tasks i) = false) := by
  unfold countedDown at ho
  dsimp only at ho
  by_cases hcounts : counts cfg k i = true
  · rw [if_pos hcounts] at ho
    unfold waited at ho
    split at ho
    · cases ho
    · next hexp =>
      refine ⟨?_, fun _ => by simpa using hexp⟩
      split at ho
      · exact ho
      · exact ho
  · rw [if_neg hcounts] at ho
    exact ⟨ho, fun hc => absurd hc hcounts⟩

/-- INTERNAL: a waiting task after a tick that its wait outlasts. -/
theorem waiter_onTick (h : WaitsOk cfg waiting k) (ht : TickOk cfg waiting e k) (he : 0 < e) {o : SyncId}
    (hobj : (k.tasks i).waitObj.syncObj = some o)
    (hlater : counts cfg k i = true → expires e (k.tasks i) = false) :
    WaiterOk ((waiting i).any CvWait.early) ((tickedSlots cfg e k).tasks i) ((tickedSlots cfg e k).call i) := by
  have hlinked : (k.tasks i).waitObj.syncObj ≠ none := by
    rw [hobj]
    exact Option.some_ne_none o
  have hwaiter := h.waiter i hlinked
  unfold tickedSlots countedDown
  dsimp only
  by_cases hcounts : counts cfg k i = true
  · rw [if_pos hcounts, if_pos hcounts]
    have hexp := hlater hcounts
    unfold answered
    rw [if_neg (by simp [hexp])]
    exact hwaiter.tick he hlinked hexp (ht.infinite i hlinked)
  · rw [if_neg hcounts, if_neg hcounts]
    -- a wait that no tick counts is not registered yet, and its task is awake
    have hstage : (waiting i).map CvWait.stage = some .linked := by
      rcases h.registered i o hobj with hmem | hstage
      · exact absurd (by simp [counts, h.sync i hlinked, linkedTo, hobj, hmem]) hcounts
      · exact hstage
    obtain ⟨w, hw, hlink⟩ := Option.map_eq_some_iff.mp hstage
    have hearly : (waiting i).any CvWait.early = true := by simp [hw, CvWait.early, hlink]
    rw [slept_awake (hwaiter.awake hearly)]
    exact hwaiter

/-- INTERNAL: a task inside `Wait` after a tick.  Its wait goes on, or it is over and the task
is awake. -/
theorem inside_onTick (h : WaitsOk cfg waiting k) (ht : TickOk cfg waiting e k) (he : 0 < e) {w : CvWait}
    (hw : waiting i = some w) :
    InsideOk w ((tickedSlots cfg e k).tasks i) ((tickedSlots cfg e k).call i) ∧
      (((tickedSlots cfg e k).tasks i).waitObj.syncObj = none →
        ((tickedSlots cfg e k).tasks i).isSleeping = false) := by
  obtain ⟨hbusy, hcall, hplace⟩ := h.inside i w hw
  rcases hplace with hobj | ⟨hlate, hnone, htime⟩
  · have hlinked : (k.tasks i).waitObj.syncObj ≠ none := by
      rw [hobj]
      exact Option.some_ne_none _
    by_cases hend : counts cfg k i = true ∧ expires e (k.tasks i) = true
    · obtain ⟨hcounts, hexp⟩ := hend
      have hlate : CvWait.early w = false := by
        by_contra hearly
        have hmem : SyncId.object w.cv ∈ k.syncList := by
          simp only [counts, Bool.and_eq_true] at hcounts
          obtain ⟨o, ho, heq⟩ := linkedTo_iff.mp hcounts.2
          rw [hobj] at heq
          exact Option.some.inj heq ▸ ho
        rw [ht.early i w hw (by simpa using hearly) hmem] at hexp
        cases hexp
      have hslot : (tickedSlots cfg e k).tasks i =
          { k.tasks i with waitObj := ⟨none, true, 0⟩, timeSleep := -1 + e } := by
        unfold tickedSlots countedDown waited
        dsimp only
        rw [if_pos hcounts, if_pos hexp, slept_asleep (by simp)]
      rw [hslot]
      refine ⟨⟨hbusy, ?_, .inr ⟨hlate, rfl, ?_⟩⟩, fun _ => ?_⟩
      · unfold tickedSlots countedDown answered
        dsimp only
        rw [if_pos hcounts, if_pos hexp]
        simpa using hcall
      · dsimp only
        omega
      · rw [KernelTask.isSleeping_eq_false_iff]
        dsimp only
        omega
    · have hwaiter := h.waiter_onTick ht he hobj (fun hc => by
        by_contra hexp
        exact hend ⟨hc, by simpa using hexp⟩)
      have hkeep : ((tickedSlots cfg e k).tasks i).waitObj.syncObj = some (.object w.cv) := by
        unfold tickedSlots countedDown
        dsimp only
        rw [slept_waitObj]
        split
        · next hcounts =>
          unfold waited
          rw [if_neg (fun hexp => hend ⟨hcounts, hexp⟩)]
          split
          · exact hobj
          · exact hobj
        · exact hobj
      refine ⟨⟨hwaiter.busy, hwaiter.call, .inl hkeep⟩, ?_⟩
      intro hnone
      rw [hkeep] at hnone
      cases hnone
  · have hcounts : counts cfg k i = false := by simp [counts, linkedTo, hnone]
    have hslot : (tickedSlots cfg e k).tasks i = slept e (k.tasks i) := by
      simp [tickedSlots, countedDown, hcounts]
    have hcall' : (tickedSlots cfg e k).call i = k.call i := by
      simp [tickedSlots, countedDown, hcounts]
    rw [hslot, hcall']
    by_cases hs : (k.tasks i).timeSleep < 0
    · rw [slept_asleep hs]
      refine ⟨⟨hbusy, hcall, .inr ⟨hlate, hnone, ?_⟩⟩, fun _ => ?_⟩
      · dsimp only
        omega
      · rw [KernelTask.isSleeping_eq_false_iff]
        dsimp only
        omega
    · rw [slept_awake (not_lt.mp hs)]
      refine ⟨⟨hbusy, hcall, .inr ⟨hlate, hnone, htime⟩⟩, fun _ => ?_⟩
      simpa [KernelTask.isSleeping] using hs

/-- INTERNAL: a tick that meets no wait at the wrong moment. -/
theorem onTick (h : WaitsOk cfg waiting k) (ht : TickOk cfg waiting e k) (he : 0 < e) :
    WaitsOk cfg waiting (k.onTick cfg e).1 := by
  have htimely := h.timely ht
  have hsame := onTick_sameTasks cfg h.queued htimely h.live h.noRequest
  have hfields := countedDown_fields cfg e k
  have hqueued := h.queued.ticked e (counts cfg k)
  -- a slot that waits after the tick has waited before, and the tick has not ended its wait
  have hbefore : ∀ i o, ((k.onTick cfg e).1.tasks i).waitObj.syncObj = some o →
      (k.tasks i).waitObj.syncObj = some o ∧ (counts cfg k i = true → expires e (k.tasks i) = false) := by
    intro i o ho
    rw [hsame.waitObj i] at ho
    exact countedDown_linked ho
  have hslot : ∀ i, (k.tasks i).user ≠ none → (k.tasks i).waitObj.syncObj ≠ none ∨ waiting i ≠ none →
      SameSlot i (tickedSlots cfg e k) (k.onTick cfg e).1 :=
    fun i hbusy hi => onTick_slot h.queued htimely hbusy (h.live i) (ht.period i hi)
  constructor
  · apply hqueued.same
    · exact fun i => congrArg WaitObject.syncObj (hsame.waitObj i)
    · exact hsame.waitList
    · rw [hsame.syncList]
      show (keptObjects cfg e k).Nodup
      unfold keptObjects
      split
      · exact h.queued.syncNodup.filter _
      · exact h.queued.syncNodup
  · intro i hi
    obtain ⟨o, ho⟩ := Option.ne_none_iff_exists'.mp hi
    apply h.sync i
    rw [(hbefore i o ho).1]
    exact Option.some_ne_none o
  · intro i o hi
    obtain ⟨hobj, hlater⟩ := hbefore i o hi
    have hsync := h.sync i (by rw [hobj]; exact Option.some_ne_none o)
    rcases h.registered i o hobj with hmem | hstage
    · left
      rw [hsame.syncList]
      show o ∈ keptObjects cfg e k
      have hexp : expires e (k.tasks i) = false := by
        apply hlater
        simp [counts, hsync, linkedTo, hobj, hmem]
      have hi' : i ∈ (k.waitList o).filter (fun j => !expires e (k.tasks j)) := by
        simp [hexp, ← h.queued.mem, hobj]
      unfold keptObjects
      rw [if_pos hsync, List.mem_filter]
      refine ⟨hmem, ?_⟩
      simpa using List.ne_nil_of_mem hi'
    · exact .inr hstage
  · intro i j u hi hj
    rw [hsame.user] at hi hj
    exact h.distinct i j u ((hfields i).1.symm.trans hi) ((hfields j).1.symm.trans hj)
  · intro i
    rw [hsame.remove]
    exact (hfields i).2.1.trans (h.live i)
  · intro i
    rw [hsame.request]
    exact (hfields i).2.2.trans (h.noRequest i)
  · intro i hi
    obtain ⟨o, ho⟩ := Option.ne_none_iff_exists'.mp hi
    obtain ⟨hobj, hlater⟩ := hbefore i o ho
    have hlinked : (k.tasks i).waitObj.syncObj ≠ none := by
      rw [hobj]
      exact Option.some_ne_none o
    have hs := hslot i (h.waiter i hlinked).busy (.inl hlinked)
    exact (h.waiter_onTick ht he hobj hlater).sameSlot hs
  · intro i w hw
    have hs := hslot i (h.inside i w hw).busy (.inr (by rw [hw]; exact Option.some_ne_none w))
    exact (h.inside_onTick ht he hw).1.sameSlot hs

/-- INTERNAL: a task inside `Wait` whose wait is over wakes up with the next tick. -/
theorem ended_onTick (h : WaitsOk cfg waiting k) (ht : TickOk cfg waiting e k) (he : 0 < e) {w : CvWait}
    (hw : waiting i = some w) (hnone : (k.tasks i).waitObj.syncObj = none) :
    ((k.onTick cfg e).1.tasks i).isSleeping = false := by
  have hcounts : counts cfg k i = false := by simp [counts, linkedTo, hnone]
  have hslot : (tickedSlots cfg e k).tasks i = slept e (k.tasks i) := by
    simp [tickedSlots, countedDown, hcounts]
  have hs : SameSlot i (tickedSlots cfg e k) (k.onTick cfg e).1 := by
    apply onTick_slot h.queued (h.timely ht) (h.inside i w hw).busy (h.live i)
    apply ht.period i
    right
    rw [hw]
    exact Option.some_ne_none w
  rw [KernelTask.isSleeping, hs.time]
  apply (h.inside_onTick ht he hw).2
  rw [hslot, slept_waitObj]
  exact hnone

end WaitsOk

end Tick

end Stk.Analysis
