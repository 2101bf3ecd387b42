import Stk.Analysis.SlotFrame
import Stk.Analysis.WaitFrame

/-!
# What the tick of the sync objects computes

`UpdateSyncObjects` walks over the linked sync objects and each of them over its wait list,
while both lists change under the walk.  Since a slot is in one wait list only, the result is
slot by slot: every wait object counts down, and those that come to their end are woken and
leave their list.  `updateSyncObjects_ticked` says so in one equation.
-/

set_option autoImplicit false

namespace Stk.Analysis

open Stk.Model Stk.Model.Kernel

variable {n : ℕ} {σ : Type} {k : Kernel n σ} {e : ℤ}

/-- The wait of the slot ends in a tick of `e` ticks. -/
def expires (e : ℤ) (t : KernelTask) : Bool :=
  t.isWaiting && decide (t.waitObj.timeWait ≠ waitInfinite) && decide (t.waitObj.timeWait - e ≤ 0)

/-- A slot after `WaitObject::Tick` and the `Wake` it may lead to. -/
def waited (e : ℤ) (t : KernelTask) : KernelTask :=
  if expires e t then { t with waitObj := ⟨none, true, 0⟩, timeSleep := -1 }
  else if t.isWaiting then { t with waitObj := { t.waitObj with
    timeWait := if t.waitObj.timeWait = waitInfinite then t.waitObj.timeWait
      else t.waitObj.timeWait - e } }
  else t

/-- The pending call of a slot after that. -/
def answered (e : ℤ) (t : KernelTask) (c : Option WaitCall) : Option WaitCall :=
  if expires e t then c.map (fun c : WaitCall => { c with woken := some true }) else c

/-- The slots that `p` picks have been ticked. -/
def ticked (e : ℤ) (p : Fin n → Bool) (k : Kernel n σ) : Kernel n σ :=
  { k with
    tasks := fun j => if p j then waited e (k.tasks j) else k.tasks j
    waitList := fun o => (k.waitList o).filter (fun j => !(p j && expires e (k.tasks j)))
    call := fun j => if p j then answered e (k.tasks j) (k.call j) else k.call j }

/-- The wait objects agree with the wait lists; a sync object with waiters may still have to be
registered. -/
structure Queued (k : Kernel n σ) : Prop where
  mem : ∀ i o, (k.tasks i).waitObj.syncObj = some o ↔ i ∈ k.waitList o
  nodup : ∀ o, (k.waitList o).Nodup
  syncNodup : k.syncList.Nodup

theorem Linked.queued (h : Linked k) : Queued k := ⟨h.mem, h.nodup, h.syncNodup⟩

/-- The slot is linked to one of the objects in `l`. -/
def linkedTo (l : List SyncId) (t : KernelTask) : Bool :=
  match t.waitObj.syncObj with
  | none => false
  | some o => decide (o ∈ l)

theorem linkedTo_iff {l : List SyncId} {t : KernelTask} :
    linkedTo l t = true ↔ ∃ o ∈ l, t.waitObj.syncObj = some o := by
  unfold linkedTo
  split
  · next h => simp [h]
  · next o h => simp [h]

/-- No wait for an object in `l` has timed out yet, and those that do in the next `e` ticks
belong to tasks that sleep. -/
def Timely (l : List SyncId) (e : ℤ) (k : Kernel n σ) : Prop :=
  ∀ i, linkedTo l (k.tasks i) = true → (k.tasks i).waitObj.timeout = false ∧
    (expires e (k.tasks i) = true → (k.tasks i).isSleeping = true)

theorem isWaiting_iff {t : KernelTask} : t.isWaiting = true ↔ t.waitObj.syncObj ≠ none := by
  simp [KernelTask.isWaiting, Option.isSome_iff_ne_none]

theorem waited_of_not_waiting {t : KernelTask} (h : t.waitObj.syncObj = none) : waited e t = t := by
  simp [waited, expires, KernelTask.isWaiting, h]

/-- INTERNAL: the tick of one wait object. -/
theorem tickWaitObj_ticked (hk : Queued k) {i : Fin n} {o : SyncId}
    (ho : (k.tasks i).waitObj.syncObj = some o) (hfresh : (k.tasks i).waitObj.timeout = false)
    (hs : expires e (k.tasks i) = true → (k.tasks i).isSleeping = true) :
    Kernel.tickWaitObj e k i = ticked e (fun j => decide (j = i)) k := by
  have hwaiting : (k.tasks i).isWaiting = true := isWaiting_iff.mpr (by rw [ho]; exact Option.some_ne_none o)
  -- the filter on a list without `i` does nothing
  have hother : ∀ o', o' ≠ o →
      (k.waitList o').filter (fun j => !(decide (j = i) && expires e (k.tasks j))) = k.waitList o' := by
    intro o' hne
    apply List.filter_eq_self.mpr
    intro j hj
    have hji : j ≠ i := by
      rintro rfl
      rw [← hk.mem, ho] at hj
      exact hne (Option.some.inj hj).symm
    simp [hji]
  rw [Good.tickWaitObj_eq ho hfresh]
  by_cases hout : (k.tasks i).waitObj.timeWait ≠ waitInfinite ∧ (k.tasks i).waitObj.timeWait - e ≤ 0
  · have hexpires : expires e (k.tasks i) = true := by simp [expires, hwaiting, hout]
    rw [if_pos hout, wakeWaitObj_eq ho, if_pos (hs hexpires)]
    unfold ticked
    congr 1
    · funext j
      by_cases hj : j = i
      · subst hj
        simp [waited, hexpires]
      · simp [hj]
    · funext o'
      by_cases hne : o' = o
      · subst hne
        rw [Function.update_self, (hk.nodup o').erase_eq_filter]
        apply List.filter_congr
        intro j _
        by_cases hj : j = i
        · subst hj
          simp [hexpires]
        · simp [hj]
      · rw [Function.update_of_ne hne, hother o' hne]
    · funext j
      by_cases hj : j = i
      · subst hj
        simp [answered, hexpires]
      · simp [hj]
  · have hexpires : expires e (k.tasks i) = false := by
      simpa [expires, hwaiting] using hout
    rw [if_neg hout]
    unfold ticked Kernel.setTask
    congr 1
    · funext j
      by_cases hj : j = i
      · subst hj
        simp [waited, hexpires, hwaiting]
      · simp [hj]
    · funext o'
      symm
      apply List.filter_eq_self.mpr
      intro j _
      by_cases hj : j = i
      · subst hj
        simp [hexpires]
      · simp [hj]
    · funext j
      by_cases hj : j = i
      · subst hj
        simp [answered, hexpires]
      · simp [hj]

/-- INTERNAL: the wait lists still agree with the wait objects. -/
theorem Queued.ticked (hk : Queued k) (e : ℤ) (p : Fin n → Bool) : Queued (ticked e p k) where
  mem i o := by
    simp only [Stk.Analysis.ticked, List.mem_filter, ← hk.mem]
    cases hp : p i with
    | false => simp
    | true =>
      simp only [if_true, Bool.true_and]
      unfold waited
      by_cases hexp : expires e (k.tasks i) = true
      · simp [hexp]
      · rw [if_neg hexp]
        split
        · simp [hexp]
        · simp [hexp]
  nodup o := (hk.nodup o).filter _
  syncNodup := hk.syncNodup

/-- INTERNAL: ticking one set of slots after another. -/
theorem ticked_ticked {p q : Fin n → Bool} (hpq : ∀ j, p j = true → q j = false) (k : Kernel n σ) :
    ticked e q (ticked e p k) = ticked e (fun j => p j || q j) k := by
  unfold ticked
  congr 1
  · funext j
    cases hp : p j with
    | true => simp [hp, hpq j hp]
    | false => simp [hp]
  · funext o
    rw [List.filter_filter]
    apply List.filter_congr
    intro j _
    cases hp : p j with
    | true => simp [hp, hpq j hp]
    | false => simp [hp]
  · funext j
    cases hp : p j with
    | true => simp [hp, hpq j hp]
    | false => simp [hp]

/-- INTERNAL: the loop of `ISyncObject::Tick`. -/
theorem tickWaitObjs_ticked {o : SyncId} (l : List (Fin n)) :
    ∀ {k : Kernel n σ}, Queued k → l.Nodup →
      (∀ i ∈ l, (k.tasks i).waitObj.syncObj = some o ∧ (k.tasks i).waitObj.timeout = false ∧
        (expires e (k.tasks i) = true → (k.tasks i).isSleeping = true)) →
      l.foldl (Kernel.tickWaitObj e) k = ticked e (fun j => decide (j ∈ l)) k := by
  induction l with
  | nil =>
    intro k _ _ _
    simp [ticked]
  | cons i l ih =>
    intro k hk hnd hl
    obtain ⟨hnotin, hnd'⟩ := List.nodup_cons.mp hnd
    obtain ⟨ho, hfresh, hs⟩ := hl i List.mem_cons_self
    have hone := tickWaitObj_ticked hk ho hfresh hs
    have hqueued : Queued (Kernel.tickWaitObj e k i) := by
      rw [hone]
      exact hk.ticked e _
    have hrest : ∀ j ∈ l, ((Kernel.tickWaitObj e k i).tasks j).waitObj.syncObj = some o ∧
        ((Kernel.tickWaitObj e k i).tasks j).waitObj.timeout = false ∧
        (expires e ((Kernel.tickWaitObj e k i).tasks j) = true →
          ((Kernel.tickWaitObj e k i).tasks j).isSleeping = true) := by
      intro j hj
      have hne : j ≠ i := fun heq => hnotin (heq ▸ hj)
      have hsame : (Kernel.tickWaitObj e k i).tasks j = k.tasks j := by
        rw [hone]
        simp [ticked, hne]
      rw [hsame]
      exact hl j (List.mem_cons_of_mem i hj)
    rw [List.foldl_cons, ih hqueued hnd' hrest, hone, ticked_ticked]
    · congr 1
      funext j
      simp
    · intro j hj
      obtain rfl : j = i := by simpa using hj
      simpa using hnotin

/-- INTERNAL: the tick of one object. -/
theorem tickObject_ticked (hk : Queued k) {o : SyncId} (htimely : Timely [o] e k) :
    Good.tickObject e k o = { ticked e (fun j => linkedTo [o] (k.tasks j)) k with
      syncList := if (k.waitList o).filter (fun j => !expires e (k.tasks j)) = [] then k.syncList.erase o
        else k.syncList } := by
  have hmem : (fun j => decide (j ∈ k.waitList o)) = fun j => linkedTo [o] (k.tasks j) := by
    funext j
    rw [Bool.eq_iff_iff, linkedTo_iff, decide_eq_true_eq, ← hk.mem]
    simp
  have htick : k.tickSyncObject e o = ticked e (fun j => linkedTo [o] (k.tasks j)) k := by
    rw [← hmem]
    apply tickWaitObjs_ticked (o := o) (k.waitList o) hk (hk.nodup o)
    intro i hi
    have ho := (hk.mem i o).mpr hi
    exact ⟨ho, htimely i (linkedTo_iff.mpr ⟨o, by simp, ho⟩)⟩
  have hlist : (ticked e (fun j => linkedTo [o] (k.tasks j)) k).waitList o =
      (k.waitList o).filter (fun j => !expires e (k.tasks j)) := by
    apply List.filter_congr
    intro j hj
    have hlinked : linkedTo [o] (k.tasks j) = true := linkedTo_iff.mpr ⟨o, by simp, (hk.mem j o).mpr hj⟩
    simp [hlinked]
  unfold Good.tickObject
  rw [htick]
  dsimp only
  rw [hlist]
  split <;> rfl

/-- INTERNAL: what an object's tick leaves to the objects after it. -/
theorem ticked_linkedTo {l : List SyncId} {o : SyncId} (ho : o ∉ l) (e : ℤ) (k : Kernel n σ) (j : Fin n) :
    linkedTo l ((ticked e (fun j => linkedTo [o] (k.tasks j)) k).tasks j) = linkedTo l (k.tasks j) := by
  unfold ticked
  dsimp only
  split
  · next hlinked =>
    obtain ⟨o', ho', hobj⟩ := linkedTo_iff.mp hlinked
    obtain rfl : o' = o := by simpa using ho'
    have hold : linkedTo l (k.tasks j) = false := by simp [linkedTo, hobj, ho]
    rw [hold]
    have hnew : (waited e (k.tasks j)).waitObj.syncObj = none ∨
        (waited e (k.tasks j)).waitObj.syncObj = some o' := by
      unfold waited
      split
      · exact .inl rfl
      · split
        · exact .inr hobj
        · exact .inr hobj
    rcases hnew with hnew | hnew
    · simp [linkedTo, hnew]
    · simp [linkedTo, hnew, ho]
  · rfl

/-- INTERNAL: the loop of `UpdateSyncObjects`. -/
theorem tickObjects_ticked (l : List SyncId) :
    ∀ {k : Kernel n σ}, Queued k → Timely l e k → l.Nodup →
      l.foldl (Good.tickObject e) k = { ticked e (fun j => linkedTo l (k.tasks j)) k with
        syncList := k.syncList.filter (fun o => !(decide (o ∈ l) &&
          ((k.waitList o).filter (fun j => !expires e (k.tasks j))).isEmpty)) } := by
  induction l with
  | nil =>
    intro k _ _ _
    have hnone : ∀ j, linkedTo [] (k.tasks j) = false := by
      intro j
      simp only [linkedTo]
      split <;> simp
    simp [ticked, hnone]
  | cons o l ih =>
    intro k hk htimely hnd
    obtain ⟨hnotin, hnd'⟩ := List.nodup_cons.mp hnd
    have hnow : Timely [o] e k := by
      intro i hi
      obtain ⟨o', ho', hobj⟩ := linkedTo_iff.mp hi
      obtain rfl : o' = o := by simpa using ho'
      exact htimely i (linkedTo_iff.mpr ⟨o', List.mem_cons_self, hobj⟩)
    have hone := tickObject_ticked hk hnow
    have htasks : (Good.tickObject e k o).tasks =
        (ticked e (fun j => linkedTo [o] (k.tasks j)) k).tasks := by rw [hone]
    have hlists : (Good.tickObject e k o).waitList =
        (ticked e (fun j => linkedTo [o] (k.tasks j)) k).waitList := by rw [hone]
    have hqueued : Queued (Good.tickObject e k o) := by
      obtain ⟨hmem, hnodup, -⟩ := hk.ticked e (fun j => linkedTo [o] (k.tasks j))
      rw [hone]
      constructor
      · exact hmem
      · exact hnodup
      · dsimp only
        split
        · exact hk.syncNodup.erase o
        · exact hk.syncNodup
    -- a slot linked to a later object has not been touched
    have huntouched : ∀ j, linkedTo l (k.tasks j) = true →
        (Good.tickObject e k o).tasks j = k.tasks j := by
      intro j hj
      obtain ⟨o', ho', hobj⟩ := linkedTo_iff.mp hj
      have hne : o' ≠ o := fun heq => hnotin (heq ▸ ho')
      have hnot : linkedTo [o] (k.tasks j) = false := by simp [linkedTo, hobj, hne]
      rw [htasks]
      simp [ticked, hnot]
    have hpick : (fun j => linkedTo l ((Good.tickObject e k o).tasks j)) = fun j => linkedTo l (k.tasks j) := by
      funext j
      rw [htasks]
      exact ticked_linkedTo hnotin e k j
    have htimely' : Timely l e (Good.tickObject e k o) := by
      intro i hi
      have hi' : linkedTo l (k.tasks i) = true := (congrFun hpick i).symm.trans hi
      rw [huntouched i hi']
      obtain ⟨o', ho', hobj⟩ := linkedTo_iff.mp hi'
      exact htimely i (linkedTo_iff.mpr ⟨o', List.mem_cons_of_mem o ho', hobj⟩)
    have hlater : ∀ o', o' ≠ o → (Good.tickObject e k o).waitList o' = k.waitList o' := by
      intro o' hne
      rw [hlists]
      apply List.filter_eq_self.mpr
      intro j hj
      have hobj := (hk.mem j o').mpr hj
      have hnot : linkedTo [o] (k.tasks j) = false := by simp [linkedTo, hobj, hne]
      simp [hnot]
    rw [List.foldl_cons, ih hqueued htimely' hnd', hpick]
    have hsync : (Good.tickObject e k o).syncList.filter (fun o' => !(decide (o' ∈ l) &&
        (((Good.tickObject e k o).waitList o').filter
          (fun j => !expires e ((Good.tickObject e k o).tasks j))).isEmpty)) =
        k.syncList.filter (fun o' => !(decide (o' ∈ o :: l) &&
          ((k.waitList o').filter (fun j => !expires e (k.tasks j))).isEmpty)) := by
      have hkeep : ∀ o' ∈ k.syncList, o' ≠ o → (!(decide (o' ∈ l) &&
          (((Good.tickObject e k o).waitList o').filter
            (fun j => !expires e ((Good.tickObject e k o).tasks j))).isEmpty)) =
          (!(decide (o' ∈ o :: l) &&
            ((k.waitList o').filter (fun j => !expires e (k.tasks j))).isEmpty)) := by
        intro o' _ hne
        by_cases hl : o' ∈ l
        · have hsame : ((Good.tickObject e k o).waitList o').filter
              (fun j => !expires e ((Good.tickObject e k o).tasks j)) =
              (k.waitList o').filter (fun j => !expires e (k.tasks j)) := by
            rw [hlater o' hne]
            apply List.filter_congr
            intro j hj
            rw [huntouched j (linkedTo_iff.mpr ⟨o', hl, (hk.mem j o').mpr hj⟩)]
          simp [hl, hsame]
        · simp [hl, hne]
      rw [hone]
      rw [hone] at hkeep
      dsimp only at hkeep ⊢
      split
      · next hnil =>
        rw [hk.syncNodup.erase_eq_filter, List.filter_filter]
        apply List.filter_congr
        intro o' ho'
        by_cases hne : o' = o
        · subst hne
          simp [hnil]
        · rw [hkeep o' ho' hne]
          simp [hne]
      · next hnil =>
        apply List.filter_congr
        intro o' ho'
        by_cases hne : o' = o
        · subst hne
          simp [hnotin, hnil]
        · exact hkeep o' ho' hne
    rw [hsync]
    have hdisj : ∀ j, linkedTo [o] (k.tasks j) = true → linkedTo l (k.tasks j) = false := by
      intro j hj
      obtain ⟨o', ho', hobj⟩ := linkedTo_iff.mp hj
      obtain rfl : o' = o := by simpa using ho'
      simp [linkedTo, hobj, hnotin]
    have hor : (fun j => linkedTo [o] (k.tasks j) || linkedTo l (k.tasks j)) =
        fun j => linkedTo (o :: l) (k.tasks j) := by
      funext j
      unfold linkedTo
      split
      · rfl
      · simp
    have hcompose := ticked_ticked (e := e) hdisj k
    rw [hor] at hcompose
    rw [← hcompose, hone]
    rfl

/-- **What `UpdateSyncObjects` computes** (stk.h:2043-2058), for wait lists that agree with the
wait objects. -/
theorem updateSyncObjects_ticked (hk : Queued k) (htimely : Timely k.syncList e k) :
    k.updateSyncObjects e = { ticked e (fun j => linkedTo k.syncList (k.tasks j)) k with
      syncList := k.syncList.filter (fun o =>
        !((k.waitList o).filter (fun j => !expires e (k.tasks j))).isEmpty) } := by
  show k.syncList.foldl (Good.tickObject e) k = _
  have hkept : k.syncList.filter (fun o => !(decide (o ∈ k.syncList) &&
        ((k.waitList o).filter (fun j => !expires e (k.tasks j))).isEmpty)) =
      k.syncList.filter (fun o => !((k.waitList o).filter (fun j => !expires e (k.tasks j))).isEmpty) := by
    apply List.filter_congr
    intro o ho
    simp [ho]
  rw [tickObjects_ticked k.syncList hk htimely hk.syncNodup, hkept]

/-- INTERNAL: the same when every sync object with waiters is registered. -/
theorem updateSyncObjects_eq (hk : Linked k) (htimely : Timely k.syncList e k) :
    k.updateSyncObjects e = { k with
      tasks := fun j => waited e (k.tasks j)
      waitList := fun o => (k.waitList o).filter (fun j => !expires e (k.tasks j))
      call := fun j => answered e (k.tasks j) (k.call j)
      syncList := k.syncList.filter (fun o =>
        !((k.waitList o).filter (fun j => !expires e (k.tasks j))).isEmpty) } := by
  have hpick : (fun j => linkedTo k.syncList (k.tasks j)) = fun j => (k.tasks j).isWaiting := by
    funext j
    rw [Bool.eq_iff_iff, linkedTo_iff, isWaiting_iff]
    constructor
    · rintro ⟨o, -, ho⟩
      rw [ho]
      exact Option.some_ne_none o
    · intro hne
      obtain ⟨o, ho⟩ := Option.ne_none_iff_exists'.mp hne
      exact ⟨o, hk.registered o (List.ne_nil_of_mem ((hk.mem j o).mp ho)), ho⟩
  rw [updateSyncObjects_ticked hk.queued htimely, hpick]
  unfold ticked
  dsimp only
  congr 1
  · funext j
    split
    · rfl
    · next hw =>
      have hnone : (k.tasks j).waitObj.syncObj = none := by simpa [KernelTask.isWaiting] using hw
      exact (waited_of_not_waiting hnone).symm
  · funext o
    apply List.filter_congr
    intro j hj
    have hw : (k.tasks j).isWaiting = true := by
      rw [isWaiting_iff, (hk.mem j o).mpr hj]
      exact Option.some_ne_none o
    simp [hw]
  · funext j
    split
    · rfl
    · next hw => simp [answered, expires, hw]

/-! ## One slot -/

/-- A task after its turn in the loop of `UpdateTaskState`, when it is not removed. -/
def slept (e : ℤ) (t : KernelTask) : KernelTask :=
  if t.isSleeping then { t with timeSleep := t.timeSleep + e } else t

section Slot

variable {t : KernelTask}

theorem slept_awake (h : 0 ≤ t.timeSleep) : slept e t = t := by
  unfold slept
  rw [if_neg]
  simpa [KernelTask.isSleeping] using h

theorem slept_asleep (h : t.timeSleep < 0) : slept e t = { t with timeSleep := t.timeSleep + e } := by
  unfold slept
  rw [if_pos]
  simpa [KernelTask.isSleeping] using h

theorem slept_waitObj (e : ℤ) (t : KernelTask) : (slept e t).waitObj = t.waitObj := by
  unfold slept
  split
  · rfl
  · rfl

/-- INTERNAL: a wait that ends in the tick. -/
theorem waited_expired (hobj : t.waitObj.syncObj ≠ none) (hfin : t.waitObj.timeWait < waitInfinite)
    (hle : t.waitObj.timeWait ≤ e) : waited e t = { t with waitObj := ⟨none, true, 0⟩, timeSleep := -1 } := by
  have hw : t.isWaiting = true := isWaiting_iff.mpr hobj
  unfold waited
  rw [if_pos]
  simp only [expires, hw, Bool.true_and, Bool.and_eq_true, decide_eq_true_eq]
  omega

/-- INTERNAL: a wait that lasts longer than the tick. -/
theorem waited_timed (hobj : t.waitObj.syncObj ≠ none) (hfin : t.waitObj.timeWait < waitInfinite)
    (hlt : e < t.waitObj.timeWait) :
    waited e t = { t with waitObj := { t.waitObj with timeWait := t.waitObj.timeWait - e } } := by
  have hw : t.isWaiting = true := isWaiting_iff.mpr hobj
  have hlater : expires e t = false := by
    simp only [expires, hw, Bool.true_and, Bool.and_eq_false_iff, decide_eq_false_iff_not]
    omega
  unfold waited
  rw [if_neg (by simp [hlater]), if_pos hw, if_neg (by omega)]

theorem waited_untimed (hinf : t.waitObj.timeWait = waitInfinite) : waited e t = t := by
  have hnever : expires e t = false := by simp [expires, hinf]
  unfold waited
  rw [if_neg (by simp [hnever]), if_pos hinf]
  split
  · rfl
  · rfl

theorem waited_fields (e : ℤ) (t : KernelTask) : (waited e t).user = t.user ∧
    (waited e t).removePending = t.removePending ∧ (waited e t).sleepPending = t.sleepPending ∧
    (waited e t).rtWeight = t.rtWeight ∧ (waited e t).addTaskReq = t.addTaskReq := by
  unfold waited
  split
  · exact ⟨rfl, rfl, rfl, rfl, rfl⟩
  · split
    · exact ⟨rfl, rfl, rfl, rfl, rfl⟩
    · exact ⟨rfl, rfl, rfl, rfl, rfl⟩

theorem slept_fields (e : ℤ) (t : KernelTask) : (slept e t).user = t.user ∧
    (slept e t).removePending = t.removePending ∧ (slept e t).sleepPending = t.sleepPending ∧
    (slept e t).rtWeight = t.rtWeight := by
  unfold slept
  split
  · exact ⟨rfl, rfl, rfl, rfl⟩
  · exact ⟨rfl, rfl, rfl, rfl⟩

end Slot

section Tick

variable [SwitchStrategy (Fin n) σ] {cfg : Config} {i : Fin n}

/-- The wait of the slot is counted down by a tick. -/
def counts (cfg : Config) (k : Kernel n σ) (i : Fin n) : Bool :=
  cfg.isSyncMode && linkedTo k.syncList (k.tasks i)

/-- The kernel with all slots as the sync objects' part of a tick leaves them. -/
def countedDown (cfg : Config) (e : ℤ) (k : Kernel n σ) : Kernel n σ :=
  { k with
    ticks := k.ticks + e
    tasks := fun j => if counts cfg k j then waited e (k.tasks j) else k.tasks j
    call := fun j => if counts cfg k j then answered e (k.tasks j) (k.call j) else k.call j }

/-- The kernel with all slots as a tick leaves them. -/
def tickedSlots (cfg : Config) (e : ℤ) (k : Kernel n σ) : Kernel n σ :=
  { countedDown cfg e k with tasks := fun j => slept e ((countedDown cfg e k).tasks j) }

omit [SwitchStrategy (Fin n) σ] in
theorem countedDown_fields (cfg : Config) (e : ℤ) (k : Kernel n σ) (j : Fin n) :
    ((countedDown cfg e k).tasks j).user = (k.tasks j).user ∧
      ((countedDown cfg e k).tasks j).removePending = (k.tasks j).removePending ∧
      ((countedDown cfg e k).tasks j).addTaskReq = (k.tasks j).addTaskReq := by
  unfold countedDown
  dsimp only
  split
  · obtain ⟨huser, hremove, -, -, hrequest⟩ := waited_fields e (k.tasks j)
    exact ⟨huser, hremove, hrequest⟩
  · exact ⟨rfl, rfl, rfl⟩

omit [SwitchStrategy (Fin n) σ] in
/-- INTERNAL: a tick starts and ends no call. -/
theorem countedDown_call {j : Fin n} : (countedDown cfg e k).call j = none ↔ k.call j = none := by
  unfold countedDown answered
  dsimp only
  split
  · split
    · exact Option.map_eq_none_iff
    · exact Iff.rfl
  · exact Iff.rfl

/-- The sync objects that keep a waiter in a tick. -/
def keptObjects (cfg : Config) (e : ℤ) (k : Kernel n σ) : List SyncId :=
  if cfg.isSyncMode then
    k.syncList.filter (fun o => !((k.waitList o).filter (fun j => !expires e (k.tasks j))).isEmpty)
  else k.syncList

omit [SwitchStrategy (Fin n) σ] in
/-- INTERNAL: the first part of the tick. -/
theorem sync_countedDown (cfg : Config) (hk : Queued k) (htimely : Timely k.syncList e k) :
    (if cfg.isSyncMode then ({ k with ticks := k.ticks + e } : Kernel n σ).updateSyncObjects e
      else ({ k with ticks := k.ticks + e } : Kernel n σ)) = { countedDown cfg e k with
        waitList := fun o => (k.waitList o).filter (fun j => !(counts cfg k j && expires e (k.tasks j)))
        syncList := keptObjects cfg e k } := by
  unfold keptObjects countedDown
  split
  · next hsync =>
    rw [updateSyncObjects_ticked (k := { k with ticks := k.ticks + e }) ⟨hk.mem, hk.nodup, hk.syncNodup⟩ htimely]
    simp [ticked, counts, hsync]
  · next hsync => simp [counts, hsync]

/-- **What a tick does to a slot** whose task is not removed and not re-armed. -/
theorem onTick_slot (hk : Queued k) (htimely : Timely k.syncList e k) (hbusy : (k.tasks i).user ≠ none)
    (hlive : (k.tasks i).removePending = false)
    (hout : ¬Rearms cfg (({ k with ticks := k.ticks + e } : Kernel n σ).updateTasks cfg e).1 i) :
    SameSlot i (tickedSlots cfg e k) (k.onTick cfg e).1 := by
  obtain ⟨huser, hremove, -⟩ := countedDown_fields cfg e k i
  have hbusy' : ((countedDown cfg e k).tasks i).user ≠ none := by
    rw [huser]
    exact hbusy
  have hsync : SameSlot i (countedDown cfg e k) (if cfg.isSyncMode then
      ({ k with ticks := k.ticks + e } : Kernel n σ).updateSyncObjects e
      else ({ k with ticks := k.ticks + e } : Kernel n σ)) := by
    rw [sync_countedDown cfg hk htimely]
    exact SameSlot.of_tasks rfl rfl rfl
  by_cases hs : ((countedDown cfg e k).tasks i).timeSleep < 0
  · have hslept : SameSlot i (tickedSlots cfg e k) (SameSlot.advanced i e (countedDown cfg e k)) := by
      apply SameSlot.of_tasks
      · simp [tickedSlots, SameSlot.advanced, Kernel.setTask, slept_asleep hs]
      · rfl
      · rfl
    obtain hself | ⟨hpending, -⟩ := SameSlot.onTick_or_removed e hsync hbusy' hs hout
    · exact hslept.trans hself
    · rw [hremove, hlive] at hpending
      cases hpending
  · have hslept : SameSlot i (tickedSlots cfg e k) (countedDown cfg e k) := by
      apply SameSlot.of_tasks
      · simp [tickedSlots, slept_awake (not_lt.mp hs)]
      · rfl
      · rfl
    exact hslept.trans (SameSlot.onTick_awake e hsync hbusy' hs hout)

/-- INTERNAL: what the rest of a tick leaves alone in all slots. -/
theorem onTick_sameTasks (cfg : Config) (hk : Queued k) (htimely : Timely k.syncList e k)
    (hlive : ∀ i, (k.tasks i).removePending = false) (hreq : ∀ i, (k.tasks i).addTaskReq = none) :
    SameTasks { countedDown cfg e k with
      waitList := fun o => (k.waitList o).filter (fun j => !(counts cfg k j && expires e (k.tasks j)))
      syncList := keptObjects cfg e k } (k.onTick cfg e).1 := by
  have hfields : ∀ j, ((countedDown cfg e k).tasks j).removePending = false ∧
      ((countedDown cfg e k).tasks j).addTaskReq = none := by
    intro j
    refine ⟨(countedDown_fields cfg e k j).2.1.trans (hlive j), ?_⟩
    exact (countedDown_fields cfg e k j).2.2.trans (hreq j)
  unfold Kernel.onTick Kernel.updateTasks
  dsimp only
  rw [sync_countedDown cfg hk htimely]
  generalize hk₁ : ({ countedDown cfg e k with
      waitList := fun o => (k.waitList o).filter (fun j => !(counts cfg k j && expires e (k.tasks j)))
      syncList := keptObjects cfg e k } : Kernel n σ) = k₁
  have htasks : k₁.tasks = (countedDown cfg e k).tasks := by rw [← hk₁]
  have hrequest : SameTasks k₁ (if k₁.request then k₁.updateTaskRequest cfg else k₁) := by
    split
    · apply SameTasks.updateTaskRequest
      intro j
      rw [htasks]
      exact (hfields j).2
    · exact .refl k₁
  apply hrequest.trans
  generalize (if k₁.request then k₁.updateTaskRequest cfg else k₁) = k₂ at hrequest ⊢
  have hstate : SameTasks k₂ (k₂.updateTaskState cfg e).1 := by
    apply SameTasks.updateTaskState
    intro j
    rw [hrequest.remove, htasks]
    exact (hfields j).1
  exact hstate.trans (.updateFsmState cfg _)

end Tick

end Stk.Analysis
