import Stk.Analysis.SlotFrame
import Stk.Analysis.WaitFrame
import Stk.Model.Mutex

/-!
# The state of the mutexes

`MutexOk` ties the owner and the recursion count of every mutex to its wait list, to the
`TimedLock` calls inside `Wait` and to the locks its tasks have been granted.  Ownership is
handed over inside `Unlock` while the new owner still sleeps: `Handed`.  The invariant needs
no condition on `ResumeTask` or `SleepCancel`: a task that comes back from `Wait` without
having been handed the mutex stops the system in `TimedLock`'s last check.
-/

set_option autoImplicit false

namespace Stk.Analysis

open Stk.Model Stk.Model.Kernel

variable {n : ℕ} {σ : Type} [SwitchStrategy (Fin n) σ] {cfg : Config} {s : System n σ}

/-- The sync objects that the mutexes keep to themselves. -/
def IsMutex (o : SyncId) : Prop := ∃ m, o = .mutex m

theorem KernelEvent.isDirect_avoids {e : KernelEvent n} (h : e.isDirect = true) :
    KernelEvent.Avoids IsMutex e := by
  have hobject : ∀ id, ¬ IsMutex (.object id) := by
    rintro id ⟨m, hm⟩
    cases hm
  cases e with
  | wait i o timeout =>
    cases o with
    | mutex m => cases h
    | object id => exact hobject id
  | wakeOne o | wakeAll o =>
    cases o with
    | mutex m => cases h
    | object id => exact hobject id
  | inheritWeight u w | restoreWeight u o => cases h
  | _ => exact trivial

/-- The task in slot `i` has been handed mutex `m` and its `TimedLock` has yet to return. -/
def Handed (s : System n σ) (m : ℕ) (i : Fin n) : Prop :=
  (s.lock i).map LockCall.mutex = some m ∧ (s.kernel.tasks i).waitObj.syncObj = none ∧
    (s.kernel.tasks i).waitObj.timeout = false

instance (s : System n σ) (m : ℕ) (i : Fin n) : Decidable (Handed s m i) :=
  inferInstanceAs (Decidable (_ ∧ _ ∧ _))

/-- The number of locks of `m` that task `u` has been granted by a hand-over and that its
`TimedLock` has yet to return. -/
def handedTo (s : System n σ) (m : ℕ) (u : TId) : ℤ :=
  if ∃ i, (s.kernel.tasks i).user = some u ∧ Handed s m i then 1 else 0

/-- The wait object of a task inside `TimedLock` of `m`, which is in state `x`: the task is
queued and is not the owner, or it has timed out, or it has been handed the mutex. -/
def LockWait (m : ℕ) (x : Mutex) (t : KernelTask) : Prop :=
  (t.waitObj.syncObj = some (.mutex m) ∧ t.waitObj.timeout = false ∧ x.ownerTid ≠ t.user) ∨
    (t.waitObj.syncObj = none ∧ t.waitObj.timeout = true ∧ x.ownerTid ≠ t.user) ∨
    (t.waitObj.syncObj = none ∧ t.waitObj.timeout = false ∧ x.ownerTid = t.user ∧
      x.recursionCount = 1)

/-- The mutexes agree with the kernel's wait lists and with the calls of the tasks. -/
structure MutexOk (s : System n σ) : Prop where
  linked : Linked s.kernel
  distinct : ∀ i j u, (s.kernel.tasks i).user = some u → (s.kernel.tasks j).user = some u → i = j
  live : ∀ i, (s.kernel.tasks i).removePending = false
  noRequest : ∀ i, (s.kernel.tasks i).addTaskReq = none
  free : ∀ m, (s.mutex m).recursionCount = 0 ↔ (s.mutex m).ownerTid = none
  call : ∀ i c, s.lock i = some c → (s.kernel.tasks i).user ≠ none ∧
    (s.kernel.call i).map WaitCall.syncObj = some (.mutex c.mutex)
  waiting : ∀ i c, s.lock i = some c → LockWait c.mutex (s.mutex c.mutex) (s.kernel.tasks i)
  idle : ∀ i m, (s.kernel.tasks i).waitObj.syncObj = some (.mutex m) →
    (s.lock i).map LockCall.mutex = some m
  owned : ∀ m, s.kernel.waitList (.mutex m) ≠ [] → (s.mutex m).ownerTid ≠ none
  ledger : ∀ m u, s.held m u =
    if (s.mutex m).ownerTid = some u then (s.mutex m).recursionCount - handedTo s m u else 0
  order : ∀ m, (s.kernel.waitList (.mutex m)).Pairwise (fun i j => s.arrival i < s.arrival j)
  past : ∀ m, ∀ i ∈ s.kernel.waitList (.mutex m), s.arrival i < s.arrivals

namespace MutexOk

omit [SwitchStrategy (Fin n) σ] in
/-- INTERNAL: what is handed over does not change when the waits of the tasks inside
`TimedLock` go on or time out. -/
theorem handedTo_congr (s s' : System n σ) (hlock : s'.lock = s.lock)
    (huser : ∀ i, s.lock i ≠ none → (s'.kernel.tasks i).user = (s.kernel.tasks i).user)
    (hslot : ∀ i, s.lock i ≠ none →
      WaitKept (s.kernel.tasks i).waitObj (s'.kernel.tasks i).waitObj) (m : ℕ) (u : TId) :
    handedTo s' m u = handedTo s m u := by
  have hiff : ∀ i, ((s'.kernel.tasks i).user = some u ∧ Handed s' m i) ↔
      ((s.kernel.tasks i).user = some u ∧ Handed s m i) := by
    intro i
    unfold Handed
    rw [hlock]
    by_cases hi : s.lock i = none
    · simp [hi]
    · rw [huser i hi]
      rcases hslot i hi with ⟨ho, ht⟩ | ⟨ho, ho', ht⟩
      · rw [ho, ht]
      · simp [ho, ho', ht]
  unfold handedTo
  simp only [hiff]

omit [SwitchStrategy (Fin n) σ] in
/-- INTERNAL: a kernel call within the frame of `Neutral`. -/
theorem neutral (h : MutexOk s) {k : Kernel n σ} (hk : Linked k)
    (hn : Neutral IsMutex (fun i => s.lock i ≠ none) s.kernel k) : MutexOk { s with kernel := k } where
  linked := hk
  distinct i j u hi hj := by
    rw [hn.user] at hi hj
    exact h.distinct i j u hi hj
  live i := by rw [hn.remove]; exact h.live i
  noRequest i := by rw [hn.request]; exact h.noRequest i
  free := h.free
  call i c hc := by
    rw [hn.user, hn.call i (Option.ne_none_iff_exists'.mpr ⟨c, hc⟩)]
    exact h.call i c hc
  waiting i c hc := by
    rcases hn.slot i (Option.ne_none_iff_exists'.mpr ⟨c, hc⟩) with ⟨ho, ht⟩ | ⟨hne, ho, ht⟩
    · rw [LockWait, ho, ht, hn.user]
      exact h.waiting i c hc
    · refine Or.inr (Or.inl ⟨ho, ht, ?_⟩)
      rw [hn.user]
      rcases h.waiting i c hc with ⟨-, -, hown⟩ | ⟨hnone, -⟩ | ⟨hnone, -⟩
      · exact hown
      · exact absurd hnone hne
      · exact absurd hnone hne
  idle i m hm := h.idle i m (hn.other i _ ⟨m, rfl⟩ hm)
  owned m hne := h.owned m (fun hnil => hne (List.eq_nil_of_sublist_nil (hnil ▸ hn.list _ ⟨m, rfl⟩)))
  ledger m u := by
    rw [handedTo_congr s { s with kernel := k } rfl (fun i _ => hn.user i) hn.slot]
    exact h.ledger m u
  order m := (h.order m).sublist (hn.list _ ⟨m, rfl⟩)
  past m i hi := h.past m i ((hn.list _ ⟨m, rfl⟩).mem hi)

/-- INTERNAL: a new task, whose id is not in use. -/
theorem binds (h : MutexOk s) {k : Kernel n σ} {u : TId} (hb : Binds u s.kernel k)
    (hu : ∀ i, (s.kernel.tasks i).user ≠ some u) : MutexOk { s with kernel := k } := by
  have huser : ∀ i, (s.kernel.tasks i).user ≠ none → (k.tasks i).user = (s.kernel.tasks i).user := by
    intro i hi
    rcases hb.user with hsame | ⟨j, hfree, -, -, hother⟩
    · exact (hsame i).1
    · exact (hother i (fun heq => hi (heq ▸ hfree))).1
  have hbound : ∀ i, s.lock i ≠ none → (k.tasks i).user = (s.kernel.tasks i).user := by
    intro i hi
    obtain ⟨c, hc⟩ := Option.ne_none_iff_exists'.mp hi
    exact huser i (h.call i c hc).1
  refine ⟨hb.toSameWaits.linked h.linked, fun i j v hi hj => ?_, fun i => ?_, fun i => ?_, h.free,
    fun i c hc => ?_, fun i c hc => ?_, fun i m hm => ?_, fun m => ?_, fun m v => ?_, fun m => ?_,
    fun m => ?_⟩
  · rcases hb.user with hsame | ⟨l, hfree, hl, -, hother⟩
    · rw [(hsame _).1] at hi hj
      exact h.distinct i j v hi hj
    · by_cases hil : i = l
      · by_cases hjl : j = l
        · rw [hil, hjl]
        · rw [(hother j hjl).1] at hj
          rw [hil, hl] at hi
          exact absurd (hj.trans hi.symm) (hu j)
      · rw [(hother i hil).1] at hi
        by_cases hjl : j = l
        · rw [hjl, hl] at hj
          exact absurd (hi.trans hj.symm) (hu i)
        · rw [(hother j hjl).1] at hj
          exact h.distinct i j v hi hj
  · rw [hb.remove]; exact h.live i
  · rw [hb.request]; exact h.noRequest i
  · rw [hbound i (Option.ne_none_iff_exists'.mpr ⟨c, hc⟩), hb.call]
    exact h.call i c hc
  · rw [LockWait, hbound i (Option.ne_none_iff_exists'.mpr ⟨c, hc⟩), hb.waitObj]
    exact h.waiting i c hc
  · rw [hb.waitObj] at hm
    exact h.idle i m hm
  · rw [hb.waitList]; exact h.owned m
  · rw [handedTo_congr s { s with kernel := k } rfl hbound
      (fun i _ => Or.inl (by rw [hb.waitObj]; exact ⟨rfl, rfl⟩))]
    exact h.ledger m v
  · rw [hb.waitList]; exact h.order m
  · rw [hb.waitList]; exact h.past m

omit [SwitchStrategy (Fin n) σ] in
/-- INTERNAL: a change of weights. -/
theorem sameCalls (h : MutexOk s) {k : Kernel n σ} (hk : SameCalls s.kernel k) :
    MutexOk { s with kernel := k } where
  linked := hk.linked h.linked
  distinct i j u hi hj := by
    rw [hk.user] at hi hj
    exact h.distinct i j u hi hj
  live i := by rw [hk.remove]; exact h.live i
  noRequest i := by rw [hk.request]; exact h.noRequest i
  free := h.free
  call i c hc := by
    rw [hk.user, hk.call]
    exact h.call i c hc
  waiting i c hc := by
    rw [LockWait, hk.user, hk.waitObj]
    exact h.waiting i c hc
  idle i m hm := h.idle i m (by rw [← hk.waitObj]; exact hm)
  owned m := by rw [hk.waitList]; exact h.owned m
  ledger m u := by
    rw [handedTo_congr s { s with kernel := k } rfl (fun i _ => hk.user i)
      (fun i _ => Or.inl (by rw [hk.waitObj]; exact ⟨rfl, rfl⟩))]
    exact h.ledger m u
  order m := by rw [hk.waitList]; exact h.order m
  past m := by rw [hk.waitList]; exact h.past m

omit [SwitchStrategy (Fin n) σ] in
theorem lock_none (h : MutexOk s) {i : Fin n} (hi : s.kernel.canCall i = true) : s.lock i = none := by
  simp only [Kernel.canCall, Bool.and_eq_true, decide_eq_true_eq] at hi
  cases hc : s.lock i with
  | none => rfl
  | some c =>
    have hcall := (h.call i c hc).2
    rw [hi.2] at hcall
    cases hcall

omit [SwitchStrategy (Fin n) σ] in
/-- INTERNAL: nothing is handed to the task of a slot outside `TimedLock`. -/
theorem handedTo_eq_zero (h : MutexOk s) {i : Fin n} {tid : TId}
    (hi : (s.kernel.tasks i).user = some tid) (hlock : s.lock i = none) (m : ℕ) :
    handedTo s m tid = 0 := by
  unfold handedTo
  rw [if_neg]
  rintro ⟨j, hj, hhanded⟩
  obtain rfl := h.distinct i j tid hi hj
  rw [Handed, hlock] at hhanded
  cases hhanded.1

omit [SwitchStrategy (Fin n) σ] in
/-- INTERNAL: a mutex whose owner is outside `TimedLock` has been handed to nobody. -/
theorem not_handed (h : MutexOk s) {i j : Fin n} {tid : TId}
    (hi : (s.kernel.tasks i).user = some tid) (hlock : s.lock i = none) {c : LockCall}
    (hc : s.lock j = some c) (howner : (s.mutex c.mutex).ownerTid = some tid) :
    (s.mutex c.mutex).ownerTid ≠ (s.kernel.tasks j).user := by
  intro heq
  obtain rfl := h.distinct i j tid hi (heq.symm.trans howner)
  rw [hlock] at hc
  cases hc

omit [SwitchStrategy (Fin n) σ] in
/-- INTERNAL: a mutex and its locks change, the kernel and the calls do not. -/
theorem update (h : MutexOk s) {m : ℕ} {x : Mutex} {held : TId → ℤ}
    (hfree : x.recursionCount = 0 ↔ x.ownerTid = none)
    (hwait : ∀ i c, s.lock i = some c → c.mutex = m → LockWait m x (s.kernel.tasks i))
    (howned : s.kernel.waitList (.mutex m) ≠ [] → x.ownerTid ≠ none)
    (hledger : ∀ u, held u = if x.ownerTid = some u then x.recursionCount - handedTo s m u else 0) :
    MutexOk { s with mutex := Function.update s.mutex m x, held := Function.update s.held m held } where
  linked := h.linked
  distinct := h.distinct
  live := h.live
  noRequest := h.noRequest
  free m' := by
    by_cases hm : m' = m
    · subst hm; simpa using hfree
    · simpa [hm] using h.free m'
  call := h.call
  waiting i c hc := by
    by_cases hm : c.mutex = m
    · have := hwait i c hc hm
      simpa [hm] using this
    · simpa [hm] using h.waiting i c hc
  idle := h.idle
  owned m' hne := by
    by_cases hm : m' = m
    · subst hm; simpa using howned hne
    · simpa [hm] using h.owned m' hne
  ledger m' u := by
    have hsame := handedTo_congr s { s with mutex := Function.update s.mutex m x, held := Function.update s.held m held } rfl
      (fun _ _ => rfl) (fun _ _ => Or.inl ⟨rfl, rfl⟩) m' u
    rw [hsame]
    by_cases hm : m' = m
    · subst hm; simpa using hledger u
    · simpa [hm] using h.ledger m' u
  order := h.order
  past := h.past

omit [SwitchStrategy (Fin n) σ] in
/-- INTERNAL: the recursive path of `TimedLock`. -/
theorem recursiveLock (h : MutexOk s) {i : Fin n} {tid : TId} {m : ℕ}
    (hi : (s.kernel.tasks i).user = some tid) (hlock : s.lock i = none)
    (howner : (s.mutex m).ownerTid = some tid) :
    MutexOk ((s.setMutex m { s.mutex m with recursionCount := (s.mutex m).recursionCount + 1 }).book
      m tid 1) := by
  refine h.update (by simp [howner]) (fun j c hc hm => ?_) (by simp [howner]) (fun u => ?_)
  · subst hm
    have hne := h.not_handed hi hlock hc howner
    rcases h.waiting j c hc with hw | hw | ⟨-, -, heq, -⟩
    · exact Or.inl hw
    · exact Or.inr (Or.inl hw)
    · exact absurd heq hne
  · have hl := h.ledger m u
    have hz := h.handedTo_eq_zero hi hlock m
    simp only [howner, Option.some.injEq] at hl ⊢
    by_cases hu : tid = u
    · subst hu
      simp only [↓reduceIte, System.setMutex, Function.update_self] at hl ⊢
      push_cast
      omega
    · simp only [hu, ↓reduceIte, System.setMutex] at hl ⊢
      rw [Function.update_of_ne (Ne.symm hu)]
      exact hl

omit [SwitchStrategy (Fin n) σ] in
/-- INTERNAL: the fast path of `TimedLock`. -/
theorem fastLock (h : MutexOk s) {i : Fin n} {tid : TId} {m : ℕ}
    (hi : (s.kernel.tasks i).user = some tid) (hlock : s.lock i = none)
    (hfree : (s.mutex m).ownerTid = none) :
    MutexOk ((s.setMutex m ⟨some tid, 1⟩).book m tid 1) := by
  refine h.update (by simp) (fun j c hc hm => ?_) (by simp) (fun u => ?_)
  · subst hm
    rcases h.waiting j c hc with ⟨ho, -, -⟩ | ⟨ho, ht, -⟩ | ⟨-, -, heq, -⟩
    · have hmem := (h.linked.mem j _).mp ho
      exact absurd hfree (h.owned c.mutex (List.ne_nil_of_mem hmem))
    · refine Or.inr (Or.inl ⟨ho, ht, fun heq => ?_⟩)
      obtain rfl := h.distinct i j tid hi heq.symm
      rw [hlock] at hc
      cases hc
    · exact absurd (heq.symm.trans hfree) (h.call j c hc).1
  · have hl := h.ledger m u
    have hz := h.handedTo_eq_zero hi hlock m
    simp only [hfree, reduceCtorEq, ↓reduceIte] at hl
    by_cases hu : tid = u
    · subst hu
      simp [System.setMutex, hl, hz]
    · simp only [Option.some.injEq, hu, ↓reduceIte, System.setMutex]
      rw [Function.update_of_ne (Ne.symm hu)]
      exact hl

/-- INTERNAL: the slow path of `TimedLock` once the owner has inherited the weight. -/
theorem slowLock (h : MutexOk s) {i : Fin n} {tid : TId} {m : ℕ} {timeout : ℤ}
    (hi : (s.kernel.tasks i).user = some tid) (hlock : s.lock i = none)
    (hobj : (s.kernel.tasks i).waitObj.syncObj = none) (htime : timeout ≠ 0)
    (hcount : (s.mutex m).recursionCount ≠ 0) (howner : (s.mutex m).ownerTid ≠ some tid)
    (x : Option TId) :
    MutexOk { s with
      kernel := s.kernel.onTaskWait i (.mutex m) timeout
      lock := Function.update s.lock i (some ⟨m, x⟩)
      arrival := Function.update s.arrival i s.arrivals
      arrivals := s.arrivals + 1 } := by
  have hlinked := onTaskWait_linked h.linked i (.mutex m) timeout
  have hnotin : ∀ m', i ∉ s.kernel.waitList (.mutex m') := by
    intro m' hmem
    have := (h.linked.mem i _).mpr hmem
    rw [hobj] at this
    cases this
  have hkeep : ∀ j, j ≠ i → (s.kernel.onTaskWait i (.mutex m) timeout).tasks j = s.kernel.tasks j := by
    intro j hj
    rw [onTaskWait_eq htime hobj]
    simp [hj]
  have huser : ∀ j, ((s.kernel.onTaskWait i (.mutex m) timeout).tasks j).user =
      (s.kernel.tasks j).user := by
    intro j
    by_cases hj : j = i
    · subst hj
      rw [onTaskWait_eq htime hobj]
      simp [KernelTask.scheduleSleep]
    · rw [hkeep j hj]
  refine ⟨hlinked, fun j l u hj hl => ?_, fun j => ?_, fun j => ?_, h.free, fun j c hc => ?_,
    fun j c hc => ?_, fun j m' hm => ?_, fun m' hne => ?_, fun m' u => ?_, fun m' => ?_,
    fun m' j hj => ?_⟩
  · rw [huser] at hj hl
    exact h.distinct j l u hj hl
  · by_cases hj : j = i
    · subst hj
      rw [onTaskWait_eq htime hobj]
      simpa [KernelTask.scheduleSleep] using h.live j
    · rw [hkeep j hj]; exact h.live j
  · by_cases hj : j = i
    · subst hj
      rw [onTaskWait_eq htime hobj]
      simpa [KernelTask.scheduleSleep] using h.noRequest j
    · rw [hkeep j hj]; exact h.noRequest j
  · rw [huser]
    by_cases hj : j = i
    · subst hj
      obtain rfl : ⟨m, x⟩ = c := by simpa using hc
      refine ⟨by simp [hi], ?_⟩
      rw [onTaskWait_eq htime hobj]
      simp
    · have hc' : s.lock j = some c := by simpa [hj] using hc
      rw [onTaskWait_eq htime hobj]
      simpa [hj] using h.call j c hc'
  · by_cases hj : j = i
    · subst hj
      obtain rfl : ⟨m, x⟩ = c := by simpa using hc
      refine Or.inl ⟨?_, ?_, ?_⟩
      · rw [onTaskWait_eq htime hobj]
        simp [KernelTask.scheduleSleep]
      · rw [onTaskWait_eq htime hobj]
        simp [KernelTask.scheduleSleep]
      · rw [huser, hi]
        exact howner
    · have hc' : s.lock j = some c := by simpa [hj] using hc
      rw [hkeep j hj]
      exact h.waiting j c hc'
  · by_cases hj : j = i
    · subst hj
      rw [onTaskWait_eq htime hobj] at hm
      obtain rfl : m = m' := by simpa [KernelTask.scheduleSleep] using hm
      simp
    · rw [hkeep j hj] at hm
      simpa [hj] using h.idle j m' hm
  · by_cases hm : m' = m
    · subst hm
      exact fun hnone => hcount ((h.free m').mpr hnone)
    · refine h.owned m' ?_
      rw [onTaskWait_eq htime hobj] at hne
      simpa [hm] using hne
  · -- the new waiter is linked, so nothing has been handed to it
    have hhanded : ∀ j, Handed { s with
        kernel := s.kernel.onTaskWait i (.mutex m) timeout
        lock := Function.update s.lock i (some ⟨m, x⟩)
        arrival := Function.update s.arrival i s.arrivals
        arrivals := s.arrivals + 1 } m' j ↔ Handed s m' j := by
      intro j
      unfold Handed
      by_cases hj : j = i
      · subst hj
        rw [onTaskWait_eq htime hobj]
        simp [hlock, KernelTask.scheduleSleep]
      · rw [hkeep j hj]
        simp [hj]
    unfold handedTo
    simp only [hhanded, huser]
    exact h.ledger m' u
  · have hlist : ((s.kernel.onTaskWait i (.mutex m) timeout).waitList (.mutex m')) =
        if m' = m then s.kernel.waitList (.mutex m') ++ [i] else s.kernel.waitList (.mutex m') := by
      rw [onTaskWait_eq htime hobj]
      by_cases hm : m' = m
      · subst hm; simp
      · simp [hm]
    have hold : (s.kernel.waitList (.mutex m')).Pairwise (fun j l =>
        Function.update s.arrival i s.arrivals j < Function.update s.arrival i s.arrivals l) := by
      refine (h.order m').imp_of_mem (fun {j l} hj hl hlt => ?_)
      have hji : j ≠ i := fun heq => hnotin m' (heq ▸ hj)
      have hli : l ≠ i := fun heq => hnotin m' (heq ▸ hl)
      simpa [hji, hli] using hlt
    rw [hlist]
    split
    · refine List.pairwise_append.mpr ⟨hold, by simp, fun j hj l hl => ?_⟩
      obtain rfl : l = i := by simpa using hl
      have hji : j ≠ l := fun heq => hnotin m' (heq ▸ hj)
      simpa [hji] using h.past m' j hj
    · exact hold
  · by_cases hji : j = i
    · subst hji; simp
    · have hmem : j ∈ s.kernel.waitList (.mutex m') := by
        rw [onTaskWait_eq htime hobj] at hj
        by_cases hm : m' = m
        · subst hm; simpa [hji] using hj
        · simpa [hm] using hj
      have := h.past m' j hmem
      simp only [ne_eq, hji, not_false_eq_true, Function.update_of_ne]
      omega

omit [SwitchStrategy (Fin n) σ] in
/-- INTERNAL: a `TimedLock` of slot `i` returns; unless it was handed the mutex, that is all. -/
theorem endLock (h : MutexOk s) {i : Fin n} (hobj : (s.kernel.tasks i).waitObj.syncObj = none)
    (hnot : ∀ m, ¬ Handed s m i) :
    MutexOk { s with
      kernel := { s.kernel with call := Function.update s.kernel.call i none }
      lock := Function.update s.lock i none } := by
  refine ⟨⟨h.linked.mem, h.linked.nodup, h.linked.syncNodup, h.linked.registered⟩, h.distinct, h.live,
    h.noRequest, h.free, fun j c hc => ?_, fun j c hc => ?_, fun j m hm => ?_, h.owned, fun m u => ?_,
    h.order, h.past⟩
  · have hj : j ≠ i := by
      rintro rfl
      simp at hc
    have hc' : s.lock j = some c := by simpa [hj] using hc
    simpa [hj] using h.call j c hc'
  · have hj : j ≠ i := by
      rintro rfl
      simp at hc
    exact h.waiting j c (by simpa [hj] using hc)
  · have hj : j ≠ i := by
      rintro rfl
      rw [hobj] at hm
      cases hm
    simpa [hj] using h.idle j m hm
  · have hhanded : ∀ j, Handed { s with
        kernel := { s.kernel with call := Function.update s.kernel.call i none }
        lock := Function.update s.lock i none } m j ↔ Handed s m j := by
      intro j
      by_cases hj : j = i
      · subst hj
        exact ⟨fun hh => by simp [Handed] at hh, fun hh => absurd hh (hnot m)⟩
      · simp [Handed, hj]
    unfold handedTo
    simp only [hhanded]
    exact h.ledger m u

omit [SwitchStrategy (Fin n) σ] in
/-- INTERNAL: a `TimedLock` that was handed its mutex returns. -/
theorem returnHanded (h : MutexOk s) {i : Fin n} {tid : TId} {m : ℕ}
    (hi : (s.kernel.tasks i).user = some tid) (hhanded : Handed s m i)
    (howner : (s.mutex m).ownerTid = some tid) :
    MutexOk (System.book { s with
      kernel := { s.kernel with call := Function.update s.kernel.call i none }
      lock := Function.update s.lock i none } m tid 1) := by
  obtain ⟨hlock, hobj, htimeout⟩ := hhanded
  refine ⟨⟨h.linked.mem, h.linked.nodup, h.linked.syncNodup, h.linked.registered⟩, h.distinct, h.live,
    h.noRequest, h.free, fun j c hc => ?_, fun j c hc => ?_, fun j m' hm => ?_, h.owned, fun m' u => ?_,
    h.order, h.past⟩
  · have hj : j ≠ i := by
      rintro rfl
      simp [System.book] at hc
    have hc' : s.lock j = some c := by simpa [System.book, hj] using hc
    simpa [System.book, hj] using h.call j c hc'
  · have hj : j ≠ i := by
      rintro rfl
      simp [System.book] at hc
    exact h.waiting j c (by simpa [System.book, hj] using hc)
  · have hm' : (s.kernel.tasks j).waitObj.syncObj = some (.mutex m') := hm
    have hj : j ≠ i := by
      rintro rfl
      rw [hobj] at hm'
      cases hm'
    simpa [System.book, hj] using h.idle j m' hm'
  · have hl := h.ledger m' u
    have hbefore : handedTo s m tid = 1 := if_pos ⟨i, hi, hlock, hobj, htimeout⟩
    have hafter : handedTo (System.book { s with
        kernel := { s.kernel with call := Function.update s.kernel.call i none }
        lock := Function.update s.lock i none } m tid 1) m' u =
        if m' = m ∧ u = tid then 0 else handedTo s m' u := by
      split
      · next hmu =>
        obtain ⟨rfl, rfl⟩ := hmu
        refine if_neg ?_
        rintro ⟨j, hj, hh⟩
        obtain rfl := h.distinct i j u hi hj
        simp [Handed, System.book] at hh
      · next hmu =>
        refine if_congr (exists_congr (fun j => ?_)) rfl rfl
        by_cases hj : j = i
        · subst hj
          refine ⟨fun hh => by simp [Handed, System.book] at hh, fun hh => ?_⟩
          obtain ⟨hu, hh, -⟩ := hh
          exact absurd ⟨Option.some.inj (hh.symm.trans hlock),
            Option.some.inj (hu.symm.trans hi)⟩ hmu
        · simp [Handed, System.book, hj]
    rw [hafter]
    by_cases hm : m' = m
    · subst hm
      by_cases hu : u = tid
      · subst hu
        simp only [howner, ↓reduceIte, hbefore] at hl
        simp [System.book, howner, hl]
      · have hne : ¬ tid = u := fun heq => hu heq.symm
        simp only [howner, Option.some.injEq, hne, ↓reduceIte] at hl
        simp [System.book, howner, hne, hu, hl]
    · simp only [System.book, Function.update_of_ne hm, hm, false_and, ↓reduceIte]
      exact hl

omit [SwitchStrategy (Fin n) σ] in
/-- INTERNAL: an `Unlock` that leaves the mutex to its owner. -/
theorem unlockOnce (h : MutexOk s) {i : Fin n} {tid : TId} {m : ℕ}
    (hi : (s.kernel.tasks i).user = some tid) (hlock : s.lock i = none)
    (howner : (s.mutex m).ownerTid = some tid) (hcount : 1 < (s.mutex m).recursionCount) :
    MutexOk ((s.setMutex m { s.mutex m with recursionCount := (s.mutex m).recursionCount - 1 }).book
      m tid (-1)) := by
  refine h.update (by simp [howner]; omega) (fun j c hc hm => ?_) (by simp [howner]) (fun u => ?_)
  · subst hm
    have hne := h.not_handed hi hlock hc howner
    rcases h.waiting j c hc with hw | hw | ⟨-, -, heq, -⟩
    · exact Or.inl hw
    · exact Or.inr (Or.inl hw)
    · exact absurd heq hne
  · have hl := h.ledger m u
    have hz := h.handedTo_eq_zero hi hlock m
    simp only [howner, Option.some.injEq] at hl ⊢
    by_cases hu : tid = u
    · subst hu
      simp only [↓reduceIte, System.setMutex, Function.update_self] at hl ⊢
      omega
    · simp only [hu, ↓reduceIte, System.setMutex] at hl ⊢
      rw [Function.update_of_ne (Ne.symm hu)]
      exact hl

omit [SwitchStrategy (Fin n) σ] in
/-- INTERNAL: the last `Unlock` of a mutex that nobody waits for. -/
theorem release (h : MutexOk s) {i : Fin n} {tid : TId} {m : ℕ}
    (hi : (s.kernel.tasks i).user = some tid) (hlock : s.lock i = none)
    (howner : (s.mutex m).ownerTid = some tid) (hcount : (s.mutex m).recursionCount = 1)
    (hnil : s.kernel.waitList (.mutex m) = []) :
    MutexOk { s with
      mutex := Function.update s.mutex m ⟨none, 0⟩
      held := Function.update s.held m (Function.update (s.held m) tid (s.held m tid + -1)) } := by
  refine h.update (by simp) (fun j c hc hm => ?_) (fun hne => absurd hnil hne) (fun u => ?_)
  · subst hm
    have hne := h.not_handed hi hlock hc howner
    rcases h.waiting j c hc with ⟨ho, -, -⟩ | ⟨ho, ht, -⟩ | ⟨-, -, heq, -⟩
    · have hmem := (h.linked.mem j _).mp ho
      rw [hnil] at hmem
      cases hmem
    · exact Or.inr (Or.inl ⟨ho, ht, fun heq => (h.call j c hc).1 heq.symm⟩)
    · exact absurd heq hne
  · have hl := h.ledger m u
    have hz := h.handedTo_eq_zero hi hlock m
    simp only [howner, Option.some.injEq, hcount] at hl
    by_cases hu : tid = u
    · subst hu
      simp only [↓reduceIte] at hl
      simp [hl, hz]
    · simp only [hu, ↓reduceIte] at hl
      simp [Ne.symm hu, hl]

omit [SwitchStrategy (Fin n) σ] in
/-- INTERNAL: the last `Unlock` of a mutex that is handed to the first waiter `w`. -/
theorem handOver (h : MutexOk s) {i w : Fin n} {rest : List (Fin n)} {tid : TId} {m : ℕ}
    (hi : (s.kernel.tasks i).user = some tid) (hlock : s.lock i = none)
    (howner : (s.mutex m).ownerTid = some tid) (hcount : (s.mutex m).recursionCount = 1)
    (hw : s.kernel.waitList (.mutex m) = w :: rest) :
    MutexOk { s with
      kernel := s.kernel.wakeWaitObj w false
      mutex := Function.update s.mutex m ⟨(s.kernel.tasks w).user, 1⟩
      held := Function.update s.held m (Function.update (s.held m) tid (s.held m tid + -1)) } := by
  have hobj : (s.kernel.tasks w).waitObj.syncObj = some (.mutex m) :=
    (h.linked.mem w _).mpr (by rw [hw]; exact List.mem_cons_self)
  obtain ⟨cw, hcw, hcm⟩ := Option.map_eq_some_iff.mp (h.idle w m hobj)
  have hbound := (h.call w cw hcw).1
  obtain ⟨u', hu'⟩ := Option.ne_none_iff_exists'.mp hbound
  have hlinked := wakeWaitObj_linked h.linked w false
  have hkeep : ∀ j, j ≠ w → (s.kernel.wakeWaitObj w false).tasks j = s.kernel.tasks j := by
    intro j hj
    rw [wakeWaitObj_eq hobj]
    simp [hj]
  have hself : (s.kernel.wakeWaitObj w false).tasks w =
      { s.kernel.tasks w with waitObj := ⟨none, false, 0⟩, timeSleep := -1 } := by
    rw [wakeWaitObj_eq hobj]
    simp
  have huser : ∀ j, ((s.kernel.wakeWaitObj w false).tasks j).user = (s.kernel.tasks j).user := by
    intro j
    by_cases hj : j = w
    · subst hj; rw [hself]
    · rw [hkeep j hj]
  have hlist : ∀ m', (s.kernel.wakeWaitObj w false).waitList (.mutex m') =
      if m' = m then rest else s.kernel.waitList (.mutex m') := by
    intro m'
    rw [wakeWaitObj_eq hobj]
    by_cases hm : m' = m
    · subst hm; simp [hw]
    · simp [hm]
  refine ⟨hlinked, fun j l u hj hl => ?_, fun j => ?_, fun j => ?_, fun m' => ?_, fun j c hc => ?_,
    fun j c hc => ?_, fun j m' hm => ?_, fun m' hne => ?_, fun m' u => ?_, fun m' => ?_,
    fun m' j hj => ?_⟩
  · rw [huser] at hj hl
    exact h.distinct j l u hj hl
  · by_cases hj : j = w
    · subst hj; rw [hself]; exact h.live j
    · rw [hkeep j hj]; exact h.live j
  · by_cases hj : j = w
    · subst hj; rw [hself]; exact h.noRequest j
    · rw [hkeep j hj]; exact h.noRequest j
  · by_cases hm : m' = m
    · subst hm; simpa using hbound
    · simpa [hm] using h.free m'
  · rw [huser]
    refine ⟨(h.call j c hc).1, ?_⟩
    rw [← (h.call j c hc).2, wakeWaitObj_eq hobj]
    by_cases hj : j = w
    · subst hj
      simp only [Function.update_self, Option.map_map]
      cases s.kernel.call j <;> rfl
    · simp [hj]
  · by_cases hj : j = w
    · subst hj
      obtain rfl : cw = c := Option.some.inj (hcw.symm.trans hc)
      rw [hself]
      exact Or.inr (Or.inr ⟨rfl, rfl, by simp [hcm]⟩)
    · rw [hkeep j hj]
      by_cases hm : c.mutex = m
      · subst hm
        have hne := h.not_handed hi hlock hc howner
        simp only [Function.update_self]
        have hother : (s.kernel.tasks w).user ≠ (s.kernel.tasks j).user := fun heq =>
          hj (h.distinct j w u' (heq.symm.trans hu') hu')
        rcases h.waiting j c hc with ⟨ho, ht, -⟩ | ⟨ho, ht, -⟩ | ⟨-, -, heq, -⟩
        · exact Or.inl ⟨ho, ht, hother⟩
        · exact Or.inr (Or.inl ⟨ho, ht, hother⟩)
        · exact absurd heq hne
      · simpa [hm] using h.waiting j c hc
  · by_cases hj : j = w
    · subst hj
      rw [hself] at hm
      cases hm
    · rw [hkeep j hj] at hm
      exact h.idle j m' hm
  · by_cases hm : m' = m
    · subst hm; simpa using hbound
    · rw [hlist, if_neg hm] at hne
      simpa [hm] using h.owned m' hne
  · have hl := h.ledger m' u
    by_cases hm : m' = m
    · subst hm
      have hz := h.handedTo_eq_zero hi hlock m'
      have hone : handedTo { s with
          kernel := s.kernel.wakeWaitObj w false
          mutex := Function.update s.mutex m' ⟨(s.kernel.tasks w).user, 1⟩
          held := Function.update s.held m' (Function.update (s.held m') tid (s.held m' tid + -1)) }
          m' u' = 1 := by
        refine if_pos ⟨w, by rw [huser]; exact hu', ?_, ?_, ?_⟩
        · simp [hcw, hcm]
        · rw [hself]
        · rw [hself]
      -- the former owner is left with no lock, and nobody else had one
      have hzero : Function.update (s.held m') tid (s.held m' tid + -1) u = 0 := by
        have htid := h.ledger m' tid
        simp only [howner, ↓reduceIte, hcount, hz] at htid
        by_cases hu : u = tid
        · subst hu
          simp [htid]
        · simp only [howner, Option.some.injEq, Ne.symm hu, ↓reduceIte] at hl
          simp [hu, hl]
      simp only [Function.update_self, hzero, hu', Option.some.injEq]
      split
      · next heq =>
        subst heq
        simp only [hu'] at hone
        rw [hone]
        simp
      · rfl
    · have hsame : handedTo { s with
          kernel := s.kernel.wakeWaitObj w false
          mutex := Function.update s.mutex m ⟨(s.kernel.tasks w).user, 1⟩
          held := Function.update s.held m (Function.update (s.held m) tid (s.held m tid + -1)) }
          m' u = handedTo s m' u := by
        refine if_congr (exists_congr (fun j => ?_)) rfl rfl
        rw [huser]
        by_cases hj : j = w
        · subst hj
          have hne : ¬ m = m' := fun heq => hm heq.symm
          simp [Handed, hcw, hcm, hne]
        · simp [Handed, hkeep j hj]
      rw [hsame]
      simpa [hm] using hl
  · rw [hlist]
    split
    · next hm =>
      subst hm
      have := h.order m'
      rw [hw] at this
      exact (List.pairwise_cons.mp this).2
    · exact h.order m'
  · rw [hlist] at hj
    split at hj
    · next hm =>
      subst hm
      exact h.past m' j (by rw [hw]; exact List.mem_cons_of_mem w hj)
    · exact h.past m' j hj

end MutexOk

/-! ## Runs -/

/-- The calls that remove no task and bind only tasks that are not bound yet. -/
def Steady (s : System n σ) : SystemEvent n → Prop
  | .kernel (.addTask u) | .kernel (.addTaskHrt u _ _ _) => s.kernel.findTaskByUserTask u = none
  | .kernel e => KernelEvent.keepsTasks e = true
  | _ => True

theorem step_kernel (cfg : Config) (s : System n σ) {e : KernelEvent n} (he : ∀ i, e ≠ .waitReturn i) :
    s.step cfg (.kernel e) =
      if !s.panic && e.isDirect then { s with kernel := s.kernel.step cfg e } else s := by
  have hresult : s.stepResult cfg (.kernel e) = if !s.panic && e.isDirect then
      ({ s with kernel := s.kernel.step cfg e }, none) else (s, none) := by
    cases e with
    | waitReturn i => exact absurd rfl (he i)
    | _ => rfl
  rw [System.step, hresult]
  split <;> rfl

omit [SwitchStrategy (Fin n) σ] in
theorem findTaskByUserTask_eq_none {k : Kernel n σ} {u : TId} (h : k.findTaskByUserTask u = none)
    (i : Fin n) : (k.tasks i).user ≠ some u := by
  have := List.find?_eq_none.mp h i (List.mem_finRange i)
  simpa using this

omit [SwitchStrategy (Fin n) σ] in
/-- INTERNAL: the frame of the kernel calls, at the tasks inside `TimedLock`. -/
theorem MutexOk.kernelStep [SwitchStrategy (Fin n) σ] (cfg : Config) (h : MutexOk s) {e : KernelEvent n}
    (hdirect : e.isDirect = true) (hkeeps : KernelEvent.keepsTasks e = true)
    (hreturn : ∀ i, e = .waitReturn i → s.lock i = none) :
    Neutral IsMutex (fun i => s.lock i ≠ none) s.kernel (s.kernel.step cfg e) := by
  refine step_neutral h.linked h.live h.noRequest (fun i hi hnone => ?_) (fun i o hi ho => ?_)
    (KernelEvent.isDirect_avoids hdirect) hkeeps (fun i hi hne => hne (hreturn i hi))
  · obtain ⟨c, hc⟩ := Option.ne_none_iff_exists'.mp hi
    have := (h.call i c hc).2
    rw [hnone] at this
    cases this
  · obtain ⟨c, hc⟩ := Option.ne_none_iff_exists'.mp hi
    rcases h.waiting i c hc with ⟨ho', -⟩ | ⟨ho', -⟩ | ⟨ho', -⟩
    · rw [ho'] at ho
      exact ⟨c.mutex, (Option.some.inj ho).symm⟩
    · rw [ho'] at ho
      cases ho
    · rw [ho'] at ho
      cases ho

theorem SameCalls.inheritWeight (cfg : Config) (k : Kernel n σ) (tid : Option TId) (w : ℤ) :
    SameCalls k (k.inheritWeight cfg tid w) := by
  cases tid with
  | none => exact .refl k
  | some u => exact .onInheritWeight cfg k u w

theorem SameCalls.restoreWeight (cfg : Config) (k : Kernel n σ) (tid : Option TId)
    (o : Option SyncId) : SameCalls k (k.restoreWeight cfg tid o) := by
  cases tid with
  | none => exact .refl k
  | some u => exact .onRestoreWeight cfg k u o

theorem MutexOk.timedLock (h : MutexOk s) {i : Fin n} {tid : TId} {m : ℕ} {timeout : ℤ}
    (hi : (s.kernel.tasks i).user = some tid) (hcall : s.kernel.canCall i = true) :
    MutexOk (s.timedLock cfg i tid m timeout).1 := by
  have hlock := h.lock_none hcall
  unfold System.timedLock
  dsimp only
  split
  · next hrec =>
    split
    · exact h.recursiveLock hi hlock hrec.2
    · exact h
  · next hrec =>
    split
    · next hzero =>
      split
      · exact ⟨h.linked, h.distinct, h.live, h.noRequest, h.free, h.call, h.waiting, h.idle, h.owned,
          h.ledger, h.order, h.past⟩
      · next hnone => exact h.fastLock hi hlock (by simpa using hnone)
    · next hcount =>
      split
      · next htime =>
        split
        · have hk := SameCalls.inheritWeight cfg s.kernel (s.mutex m).ownerTid (cfg.weight tid)
          generalize s.kernel.inheritWeight cfg (s.mutex m).ownerTid (cfg.weight tid) = k at hk
          have hs := h.sameCalls hk
          split
          · next hwait =>
            refine hs.sameCalls (SameTasks.toSameCalls ?_)
            unfold Kernel.onTaskWait
            rw [if_neg htime, if_pos hwait]
            exact .fault k _
          · next hwait =>
            have hobj : (k.tasks i).waitObj.syncObj = none := by
              simpa [KernelTask.isWaiting] using hwait
            exact hs.slowLock (by rw [hk.user]; exact hi) hlock hobj htime hcount
              (fun heq => hrec ⟨hcount, heq⟩) _
        · exact h
      · exact h

theorem MutexOk.lockReturn (h : MutexOk s) {i : Fin n} {tid : TId} {c : LockCall} {r : WaitResult}
    (hi : (s.kernel.tasks i).user = some tid) (hc : s.lock i = some c)
    (hr : s.kernel.waitResult i = some r) : MutexOk (s.lockReturn cfg i tid c r).1 := by
  have hflag := waitResult_flag hr
  unfold System.lockReturn
  dsimp only
  cases r with
  | timeout =>
    have ht : (s.kernel.tasks i).waitObj.timeout = true := by simpa using hflag
    have hobj : (s.kernel.tasks i).waitObj.syncObj = none := by
      rcases h.waiting i c hc with ⟨-, ht', -⟩ | ⟨ho, -⟩ | ⟨ho, -⟩
      · rw [ht] at ht'
        cases ht'
      · exact ho
      · exact ho
    have hend := h.endLock hobj (fun m hh => by rw [Handed, ht] at hh; cases hh.2.2)
    dsimp only
    split
    · exact hend.sameCalls (.restoreWeight cfg _ c.ownerTid _)
    · exact hend
  | signal =>
    have ht : (s.kernel.tasks i).waitObj.timeout = false := by simpa using hflag
    dsimp only
    split
    · exact ⟨h.linked, h.distinct, h.live, h.noRequest, h.free, h.call, h.waiting, h.idle, h.owned,
        h.ledger, h.order, h.past⟩
    · next hok =>
      obtain ⟨howner, -⟩ := not_or.mp hok
      have howner' : (s.mutex c.mutex).ownerTid = some tid := not_not.mp howner
      have hobj : (s.kernel.tasks i).waitObj.syncObj = none := by
        rcases h.waiting i c hc with ⟨-, -, hne⟩ | ⟨ho, -⟩ | ⟨ho, -⟩
        · exact absurd (howner'.trans hi.symm) hne
        · exact ho
        · exact ho
      exact h.returnHanded hi ⟨by simp [hc], hobj, ht⟩ howner'

/-- INTERNAL: what `Unlock` does, by the number of locks left and the wait list. -/
theorem unlock_cases (cfg : Config) (s : System n σ) (tid : TId) (m : ℕ) :
    ((s.mutex m).recursionCount - 1 ≠ 0 ∧ s.unlock cfg tid m =
      (s.setMutex m { s.mutex m with recursionCount := (s.mutex m).recursionCount - 1 }).book
        m tid (-1)) ∨
    ((s.mutex m).recursionCount - 1 = 0 ∧ s.kernel.waitList (.mutex m) = [] ∧
      s.unlock cfg tid m = { s with
        kernel := s.kernel.restoreWeight cfg (some tid) none
        mutex := Function.update s.mutex m ⟨none, 0⟩
        held := Function.update s.held m (Function.update (s.held m) tid (s.held m tid + -1)) }) ∨
    ∃ w rest, (s.mutex m).recursionCount - 1 = 0 ∧ s.kernel.waitList (.mutex m) = w :: rest ∧
      s.unlock cfg tid m = { s with
        kernel := (s.kernel.restoreWeight cfg (some tid) none).handOver cfg m w
        mutex := Function.update s.mutex m ⟨(s.kernel.tasks w).user, 1⟩
        held := Function.update s.held m (Function.update (s.held m) tid (s.held m tid + -1)) } := by
  have hk := SameCalls.restoreWeight cfg s.kernel (some tid) none
  unfold System.unlock
  dsimp only
  by_cases hcount : (s.mutex m).recursionCount - 1 = 0
  · rw [if_pos hcount]
    have heq : ((s.setMutex m { s.mutex m with recursionCount := (s.mutex m).recursionCount - 1 }).book
      m tid (-1)).kernel = s.kernel := rfl
    rw [heq, hk.waitList]
    cases hl : s.kernel.waitList (.mutex m) with
    | nil =>
      refine Or.inr (Or.inl ⟨hcount, rfl, ?_⟩)
      simp [System.setMutex, System.book, Function.update_idem]
    | cons w rest =>
      refine Or.inr (Or.inr ⟨w, rest, hcount, rfl, ?_⟩)
      simp [System.setMutex, System.book, Function.update_idem, hk.user]
  · rw [if_neg hcount]
    exact Or.inl ⟨hcount, rfl⟩

theorem MutexOk.unlock (h : MutexOk s) {i : Fin n} {tid : TId} {m : ℕ}
    (hi : (s.kernel.tasks i).user = some tid) (hlock : s.lock i = none)
    (howner : (s.mutex m).ownerTid = some tid) : MutexOk (s.unlock cfg tid m) := by
  have hpos : (s.mutex m).recursionCount ≠ 0 := fun hz => by
    rw [(h.free m).mp hz] at howner
    cases howner
  have hk := SameCalls.restoreWeight cfg s.kernel (some tid) none
  obtain ⟨hcount, heq⟩ | ⟨hcount, hnil, heq⟩ | ⟨w, rest, hcount, hw, heq⟩ := unlock_cases cfg s tid m
  · rw [heq]
    exact h.unlockOnce hi hlock howner (by omega)
  · rw [heq]
    have hone : (s.mutex m).recursionCount = 1 := by omega
    exact (h.sameCalls hk).release (by rw [hk.user]; exact hi) hlock howner hone
      (by rw [hk.waitList]; exact hnil)
  · rw [heq]
    have hone : (s.mutex m).recursionCount = 1 := by omega
    have hover := (h.sameCalls hk).handOver (by rw [hk.user]; exact hi) hlock howner hone
      (by rw [hk.waitList]; exact hw)
    rw [hk.user] at hover
    exact hover.sameCalls (.inheritWeight cfg _ _ _)

/-- INTERNAL: one call into the system keeps the mutexes in order. -/
theorem step_mutexOk (h : MutexOk s) {e : SystemEvent n} (he : Steady s e) :
    MutexOk (s.step cfg e) := by
  cases e with
  | timedLock i m timeout =>
    simp only [System.step, System.stepResult]
    cases hi : (s.kernel.tasks i).user with
    | none => exact h
    | some tid =>
      dsimp only
      split
      · next hmode =>
        simp only [Bool.and_eq_true] at hmode
        exact h.timedLock hi hmode.1.2
      · exact h
  | lockReturn i =>
    simp only [System.step, System.stepResult]
    split
    · next tid c r hi hc hr =>
      split
      · exact h.lockReturn hi hc hr
      · exact h
    · exact h
  | unlock i m =>
    simp only [System.step, System.stepResult]
    cases hi : (s.kernel.tasks i).user with
    | none => exact h
    | some tid =>
      dsimp only
      split
      · next hmode =>
        simp only [Bool.and_eq_true, decide_eq_true_eq] at hmode
        exact h.unlock hi (h.lock_none hmode.1.1.2) hmode.1.2
      · exact h
  | kernel e =>
    by_cases hret : ∃ i, e = .waitReturn i
    · obtain ⟨i, rfl⟩ := hret
      simp only [System.step, System.stepResult]
      split
      · next hmode =>
        simp only [Bool.and_eq_true, decide_eq_true_eq] at hmode
        refine h.neutral (step_linked cfg h.linked _) (h.kernelStep cfg rfl rfl (fun j hj => ?_))
        obtain rfl : i = j := by simpa using hj
        exact hmode.2
      · exact h
    · rw [step_kernel cfg s (fun i hi => hret ⟨i, hi⟩)]
      split
      · next hmode =>
        simp only [Bool.and_eq_true] at hmode
        have hreturn : ∀ i, e = .waitReturn i → s.lock i = none := fun i hi => absurd ⟨i, hi⟩ hret
        cases e with
        | addTask u =>
          simp only [Kernel.step]
          split
          · exact h.binds (.allocateAndAddNewTask cfg s.kernel u) (findTaskByUserTask_eq_none he)
          · exact h
        | addTaskHrt u p d t =>
          simp only [Kernel.step]
          split
          · exact h.binds (.hrtAllocateAndAddNewTask cfg s.kernel u p d t)
              (findTaskByUserTask_eq_none he)
          · exact h
        | _ => exact h.neutral (step_linked cfg h.linked _) (h.kernelStep cfg hmode.2 he hreturn)
      · exact h

theorem mutexOk_initial : MutexOk (System.initial : System n σ) where
  linked := Linked.initial
  distinct := by simp [System.initial, Kernel.initial, KernelTask.unbound]
  live := by simp [System.initial, Kernel.initial, KernelTask.unbound]
  noRequest := by simp [System.initial, Kernel.initial, KernelTask.unbound]
  free := by simp [System.initial]
  call := by simp [System.initial]
  waiting := by simp [System.initial]
  idle := by simp [System.initial, Kernel.initial, KernelTask.unbound]
  owned := by simp [System.initial, Kernel.initial]
  ledger := by simp [System.initial]
  order := by simp [System.initial, Kernel.initial]
  past := by simp [System.initial, Kernel.initial]

theorem run_mutexOk {es : List (SystemEvent n)}
    (hes : Runs.Along (System.step cfg) Steady (System.initial : System n σ) es) :
    MutexOk (System.run cfg es : System n σ) :=
  hes.invariant (I := MutexOk) (fun _ _ h he => step_mutexOk h he) mutexOk_initial

end Stk.Analysis
