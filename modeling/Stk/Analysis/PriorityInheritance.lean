import Stk.Analysis.MutexContract
import Stk.Model.FixedPriority

/-!
# Priority inheritance

With `SwitchStrategyFixedPriority` a task that blocks on a mutex lends its weight to the owner.
The one field `m_rt_weight` of the owner holds the weight lent by the waiters of all its
mutexes, and `RestoreWeight` drops it as a whole, at an `Unlock` and when a waiter times out.
`KeepsBoost` is what these two calls need for the weight of the owner to be right afterwards.
-/

set_option autoImplicit false

namespace Stk.Analysis

open Stk.Model Stk.Model.Kernel

variable {n P : ℕ} {cfg : Config} {k k' : Kernel n (FixedPriority P (Fin n))}
  {s : System n (FixedPriority P (Fin n))}

/-- `ITask::GetWeight` of the task in slot `i`. -/
def staticWeight (cfg : Config) (k : Kernel n (FixedPriority P (Fin n))) (i : Fin n) : ℤ :=
  ((k.tasks i).user.map cfg.weight).getD noWeight

/-! ## Weights of the slots -/

/-- INTERNAL: the effective weight is the run-time weight, if there is one. -/
theorem getWeight_eq (cfg : Config) (k : Kernel n (FixedPriority P (Fin n))) {i : Fin n} {u : TId}
    (hi : (k.tasks i).user = some u) : k.getWeight cfg i =
      if (k.tasks i).rtWeight ≠ noWeight then (k.tasks i).rtWeight else cfg.weight u := by
  simp [Kernel.getWeight, KernelTask.getWeight, SwitchStrategy.weightApi,
    SwitchStrategy.priorityInheritanceApi, hi]

theorem getWeight_congr {i : Fin n} (huser : (k'.tasks i).user = (k.tasks i).user)
    (hweight : (k'.tasks i).rtWeight = (k.tasks i).rtWeight) :
    k'.getWeight cfg i = k.getWeight cfg i := by
  simp [Kernel.getWeight, KernelTask.getWeight, huser, hweight]

theorem staticWeight_congr {i : Fin n} (huser : (k'.tasks i).user = (k.tasks i).user) :
    staticWeight cfg k' i = staticWeight cfg k i := by
  rw [staticWeight, staticWeight, huser]

theorem findTaskByUserTask_eq {σ : Type} {k : Kernel n σ} {i : Fin n} {u : TId}
    (hdistinct : ∀ i j u, (k.tasks i).user = some u → (k.tasks j).user = some u → i = j)
    (hi : (k.tasks i).user = some u) : k.findTaskByUserTask u = some i := by
  cases hfind : k.findTaskByUserTask u with
  | none => exact absurd hi (findTaskByUserTask_eq_none hfind i)
  | some j =>
    have hj := List.find?_some hfind
    rw [hdistinct i j u hi (by simpa using hj)]

/-- INTERNAL: `SetCurrentWeight` and the notification of the strategy. -/
theorem changeWeight (cfg : Config) (k : Kernel n (FixedPriority P (Fin n))) {i : Fin n} {u : TId}
    (hi : (k.tasks i).user = some u) (w prev : ℤ) :
    (((k.setCurrentWeight i w).callStrategy cfg (.onTaskWeightChange i prev)).2.getWeight cfg i =
      if w ≠ noWeight then w else cfg.weight u) ∧
    ∀ j, j ≠ i → ((k.setCurrentWeight i w).callStrategy cfg (.onTaskWeightChange i prev)).2.getWeight
      cfg j = k.getWeight cfg j := by
  have hsame := SameTasks.callStrategy cfg (k.setCurrentWeight i w) (.onTaskWeightChange i prev)
  have hset : (k.setCurrentWeight i w).tasks =
      Function.update k.tasks i { k.tasks i with rtWeight := w } := by
    simp [Kernel.setCurrentWeight, SwitchStrategy.weightApi, Kernel.setTask]
  refine ⟨?_, fun j hj => ?_⟩
  · rw [getWeight_congr (hsame.user i) (hsame.weight i),
      getWeight_eq cfg _ (u := u) (by rw [hset]; simpa using hi), hset]
    simp
  · rw [getWeight_congr (hsame.user j) (hsame.weight j)]
    refine getWeight_congr ?_ ?_ <;> rw [hset] <;> simp [hj]

/-- INTERNAL: `InheritWeight` lowers no weight and gives the task at least the weight `w`. -/
theorem inheritWeight_spec (cfg : Config)
    (hdistinct : ∀ i j u, (k.tasks i).user = some u → (k.tasks j).user = some u → i = j)
    (tid : Option TId) (w : ℤ) :
    (∀ j, k.getWeight cfg j ≤ (k.inheritWeight cfg tid w).getWeight cfg j) ∧
    ∀ i u, tid = some u → (k.tasks i).user = some u → w ≠ noWeight →
      w ≤ (k.inheritWeight cfg tid w).getWeight cfg i := by
  cases tid with
  | none => exact ⟨fun j => le_refl _, fun i u hu => by cases hu⟩
  | some u =>
    by_cases hw : w = noWeight
    · have heq : k.inheritWeight cfg (some u) w = k := by
        simp [Kernel.inheritWeight, Kernel.onInheritWeight, hw]
      rw [heq]
      exact ⟨fun j => le_refl _, fun i v _ _ hne => absurd hw hne⟩
    · cases hfind : k.findTaskByUserTask u with
      | none =>
        have heq : (k.inheritWeight cfg (some u) w).tasks = k.tasks := by
          simp [Kernel.inheritWeight, Kernel.onInheritWeight, hw, hfind,
            SwitchStrategy.priorityInheritanceApi, Kernel.fault]
        refine ⟨fun j => ?_, fun i v hv hi => ?_⟩
        · exact le_of_eq (getWeight_congr (by rw [heq]) (by rw [heq])).symm
        · obtain rfl := Option.some.inj hv
          exact absurd hi (findTaskByUserTask_eq_none hfind i)
      | some i =>
        have hi : (k.tasks i).user = some u := by simpa using List.find?_some hfind
        have hstep : k.inheritWeight cfg (some u) w =
            if k.getWeight cfg i < w then ((k.setCurrentWeight i w).callStrategy cfg
              (.onTaskWeightChange i (k.getWeight cfg i))).2 else k := by
          simp [Kernel.inheritWeight, Kernel.onInheritWeight, hw, hfind,
            SwitchStrategy.priorityInheritanceApi]
        obtain ⟨hself, hother⟩ := changeWeight cfg k hi w (k.getWeight cfg i)
        rw [if_pos hw] at hself
        rw [hstep]
        by_cases hlt : k.getWeight cfg i < w
        · rw [if_pos hlt]
          refine ⟨fun j => ?_, fun j v hv hj _ => ?_⟩
          · by_cases hij : j = i
            · subst hij
              rw [hself]
              exact le_of_lt hlt
            · rw [hother j hij]
          · obtain rfl := Option.some.inj hv
            obtain rfl := hdistinct i j u hi hj
            rw [hself]
        · rw [if_neg hlt]
          refine ⟨fun j => le_refl _, fun j v hv hj _ => ?_⟩
          obtain rfl := Option.some.inj hv
          obtain rfl := hdistinct i j u hi hj
          exact not_lt.mp hlt

/-- INTERNAL: the scan of `FindWeightHigherThan`. -/
theorem foldl_weight_le {α : Type} (f : α → ℤ) (l : List α) (a b : ℤ) :
    l.foldl (fun m x => if f x > m then f x else m) a ≤ b ↔ a ≤ b ∧ ∀ x ∈ l, f x ≤ b := by
  induction l generalizing a with
  | nil => simp
  | cons x l ih =>
    rw [List.foldl_cons, ih, List.forall_mem_cons, ← and_assoc]
    refine and_congr_left (fun _ => ?_)
    split <;> omega

/-- INTERNAL: `FindWeightHigherThan` finds nothing when no waiter has more than `comp`, and
otherwise the highest weight of the waiters. -/
theorem findWeightHigherThan_spec (cfg : Config) (k : Kernel n (FixedPriority P (Fin n)))
    (o : SyncId) (comp : ℤ) :
    (k.findWeightHigherThan cfg o comp = noWeight ∧
      ∀ j ∈ k.waitList o, staticWeight cfg k j ≤ comp) ∨
    (comp < k.findWeightHigherThan cfg o comp ∧
      ∀ j ∈ k.waitList o, staticWeight cfg k j ≤ k.findWeightHigherThan cfg o comp) := by
  have hle := foldl_weight_le (staticWeight cfg k) (k.waitList o) noWeight
  have heq : k.findWeightHigherThan cfg o comp =
      if (k.waitList o).foldl (fun m i => if staticWeight cfg k i > m then staticWeight cfg k i else m)
        noWeight > comp then (k.waitList o).foldl
        (fun m i => if staticWeight cfg k i > m then staticWeight cfg k i else m) noWeight
      else noWeight := rfl
  generalize (k.waitList o).foldl
    (fun m i => if staticWeight cfg k i > m then staticWeight cfg k i else m) noWeight = top at hle heq
  rw [heq]
  split
  · next hgt => exact Or.inr ⟨hgt, ((hle top).mp (le_refl top)).2⟩
  · next hgt => exact Or.inl ⟨rfl, ((hle comp).mp (not_lt.mp hgt)).2⟩

/-- INTERNAL: `RestoreWeight` takes a task back to its static weight, unless the sync object has
a waiter with more than the weight it had. -/
theorem restoreWeight_spec (cfg : Config)
    (hdistinct : ∀ i j u, (k.tasks i).user = some u → (k.tasks j).user = some u → i = j)
    {i : Fin n} {u : TId} (hi : (k.tasks i).user = some u) (o : Option SyncId)
    (hprev : noWeight ≤ k.getWeight cfg i)
    (ho : ∀ o', o = some o' → ∀ j ∈ k.waitList o', staticWeight cfg k j ≤ k.getWeight cfg i) :
    (k.restoreWeight cfg (some u) o).getWeight cfg i = cfg.weight u ∧
    ∀ j, j ≠ i → (k.restoreWeight cfg (some u) o).getWeight cfg j = k.getWeight cfg j := by
  have hfind := findTaskByUserTask_eq hdistinct hi
  have hstep : k.restoreWeight cfg (some u) o = ((k.setCurrentWeight i noWeight).callStrategy cfg
      (.onTaskWeightChange i (k.getWeight cfg i))).2 := by
    cases o with
    | none => simp [Kernel.restoreWeight, Kernel.onRestoreWeight, SwitchStrategy.priorityInheritanceApi, hfind]
    | some o =>
      have hnone : k.findWeightHigherThan cfg o (k.getWeight cfg i) = noWeight := by
        have hle := foldl_weight_le (staticWeight cfg k) (k.waitList o) noWeight (k.getWeight cfg i)
        exact if_neg (not_lt.mpr (hle.mpr ⟨hprev, ho o rfl⟩))
      simp [Kernel.restoreWeight, Kernel.onRestoreWeight, SwitchStrategy.priorityInheritanceApi, hfind,
        hnone]
  rw [hstep]
  exact changeWeight cfg k hi noWeight (k.getWeight cfg i)

/-! ## Owners and waiters -/

/-- The owner of every mutex has at least the static weight of each task that waits for it. -/
def OwnersBoosted (cfg : Config) (owner : ℕ → Option TId) (k : Kernel n (FixedPriority P (Fin n))) :
    Prop :=
  ∀ m u, owner m = some u → ∃ i, (k.tasks i).user = some u ∧
    ∀ j ∈ k.waitList (.mutex m), staticWeight cfg k j ≤ k.getWeight cfg i

/-- The owners are boosted, and no task is below its own static weight. -/
structure Inherited (cfg : Config) (owner : ℕ → Option TId)
    (k : Kernel n (FixedPriority P (Fin n))) : Prop where
  floor : ∀ i u, (k.tasks i).user = some u → cfg.weight u ≤ k.getWeight cfg i
  boosted : OwnersBoosted cfg owner k

namespace Inherited

variable {owner : ℕ → Option TId}

/-- INTERNAL: no weight falls and no task starts to wait for a mutex. -/
theorem raise (h : Inherited cfg owner k) (huser : ∀ i, (k'.tasks i).user = (k.tasks i).user)
    (hlist : ∀ m, (k'.waitList (.mutex m)).Sublist (k.waitList (.mutex m)))
    (hweight : ∀ i, k.getWeight cfg i ≤ k'.getWeight cfg i) : Inherited cfg owner k' where
  floor i u hi := by
    rw [huser] at hi
    exact (h.floor i u hi).trans (hweight i)
  boosted m u hm := by
    obtain ⟨i, hi, hle⟩ := h.boosted m u hm
    refine ⟨i, by rw [huser]; exact hi, fun j hj => ?_⟩
    rw [staticWeight_congr (huser j)]
    exact (hle j ((hlist m).mem hj)).trans (hweight i)

theorem neutral {L : Fin n → Prop} (h : Inherited cfg owner k) (hn : Neutral IsMutex L k k') :
    Inherited cfg owner k' :=
  h.raise hn.user (fun m => hn.list _ ⟨m, rfl⟩) (fun i => le_of_eq (getWeight_congr (hn.user i) (hn.weight i)).symm)

/-- INTERNAL: a new task starts at its static weight. -/
theorem binds (h : Inherited cfg owner k) {u : TId} (hb : Binds u k k')
    (hwait : ∀ m, ∀ j ∈ k.waitList (.mutex m), (k.tasks j).user ≠ none) :
    Inherited cfg owner k' := by
  rcases hb.user with hsame | ⟨l, hfree, hl, hrt, hother⟩
  · exact h.raise (fun i => (hsame i).1) (fun m => by rw [hb.waitList])
      (fun i => le_of_eq (getWeight_congr (hsame i).1 (hsame i).2).symm)
  · refine ⟨fun i v hi => ?_, fun m v hm => ?_⟩
    · by_cases hil : i = l
      · subst hil
        obtain rfl := Option.some.inj (hl.symm.trans hi)
        rw [getWeight_eq cfg k' hl, if_neg (by simp [hrt rfl rfl])]
      · obtain ⟨huser, hweight⟩ := hother i hil
        rw [getWeight_congr huser hweight]
        exact h.floor i v (by rw [← huser]; exact hi)
    · obtain ⟨i, hi, hle⟩ := h.boosted m v hm
      have hil : i ≠ l := by
        rintro rfl
        rw [hfree] at hi
        cases hi
      obtain ⟨huser, hweight⟩ := hother i hil
      refine ⟨i, by rw [huser]; exact hi, fun j hj => ?_⟩
      rw [hb.waitList] at hj
      have hjl : j ≠ l := by
        rintro rfl
        exact hwait m j hj hfree
      rw [getWeight_congr huser hweight, staticWeight_congr (hother j hjl).1]
      exact hle j hj

/-- INTERNAL: mutex `m` changes hands. -/
theorem setOwner (h : Inherited cfg owner k) (m : ℕ) (x : Option TId)
    (hx : ∀ u, x = some u → ∃ i, (k.tasks i).user = some u ∧
      ∀ j ∈ k.waitList (.mutex m), staticWeight cfg k j ≤ k.getWeight cfg i) :
    Inherited cfg (Function.update owner m x) k where
  floor := h.floor
  boosted m' u hm := by
    by_cases heq : m' = m
    · subst heq
      exact hx u (by simpa using hm)
    · exact h.boosted m' u (by simpa [heq] using hm)

theorem inheritWeight (h : Inherited cfg owner k)
    (hdistinct : ∀ i j u, (k.tasks i).user = some u → (k.tasks j).user = some u → i = j)
    (tid : Option TId) (w : ℤ) : Inherited cfg owner (k.inheritWeight cfg tid w) := by
  have hsame := SameCalls.inheritWeight cfg k tid w
  exact h.raise hsame.user (fun m => by rw [hsame.waitList]) (inheritWeight_spec cfg hdistinct tid w).1

/-- INTERNAL: a task that owns no mutex with a heavier waiter goes back to its static weight. -/
theorem restoreWeight (h : Inherited cfg owner k) (hw : ∀ u, 0 ≤ cfg.weight u)
    (hdistinct : ∀ i j u, (k.tasks i).user = some u → (k.tasks j).user = some u → i = j)
    {i : Fin n} {u : TId} (hi : (k.tasks i).user = some u) (o : Option SyncId)
    (ho : ∀ o', o = some o' → ∀ j ∈ k.waitList o', staticWeight cfg k j ≤ k.getWeight cfg i)
    (hlend : ∀ m, owner m = some u → ∀ j ∈ k.waitList (.mutex m),
      staticWeight cfg k j ≤ cfg.weight u) :
    Inherited cfg owner (k.restoreWeight cfg (some u) o) := by
  have hsame := SameCalls.restoreWeight cfg k (some u) o
  have hprev : noWeight ≤ k.getWeight cfg i := by
    have := h.floor i u hi
    have := hw u
    simp only [noWeight]
    omega
  obtain ⟨hself, hother⟩ := restoreWeight_spec cfg hdistinct hi o hprev ho
  refine ⟨fun j v hj => ?_, fun m v hm => ?_⟩
  · rw [hsame.user] at hj
    by_cases hij : j = i
    · subst hij
      obtain rfl := Option.some.inj (hi.symm.trans hj)
      rw [hself]
    · rw [hother j hij]
      exact h.floor j v hj
  · obtain ⟨l, hl, hle⟩ := h.boosted m v hm
    refine ⟨l, by rw [hsame.user]; exact hl, fun j hj => ?_⟩
    rw [hsame.waitList] at hj
    rw [staticWeight_congr (hsame.user j)]
    by_cases hil : l = i
    · subst hil
      obtain rfl := Option.some.inj (hi.symm.trans hl)
      rw [hself]
      exact hlend m hm j hj
    · rw [hother l hil]
      exact hle j hj

/-- INTERNAL: the task in slot `i` starts to wait for a mutex whose owner has at least its
weight. -/
theorem onTaskWait (h : Inherited cfg owner k) {i : Fin n} {m : ℕ} {timeout : ℤ}
    (htime : timeout ≠ 0) (hobj : (k.tasks i).waitObj.syncObj = none)
    (hrank : ∀ l u, owner m = some u → (k.tasks l).user = some u →
      staticWeight cfg k i ≤ k.getWeight cfg l) :
    Inherited cfg owner (k.onTaskWait i (.mutex m) timeout) := by
  have hkeep : ∀ j, ((k.onTaskWait i (.mutex m) timeout).tasks j).user = (k.tasks j).user ∧
      ((k.onTaskWait i (.mutex m) timeout).tasks j).rtWeight = (k.tasks j).rtWeight := by
    intro j
    rw [onTaskWait_eq htime hobj]
    by_cases hj : j = i
    · subst hj; simp [KernelTask.scheduleSleep]
    · simp [hj]
  refine ⟨fun j u hj => ?_, fun m' u hm => ?_⟩
  · rw [getWeight_congr (hkeep j).1 (hkeep j).2]
    exact h.floor j u (by rw [← (hkeep j).1]; exact hj)
  · obtain ⟨l, hl, hle⟩ := h.boosted m' u hm
    refine ⟨l, by rw [(hkeep l).1]; exact hl, fun j hj => ?_⟩
    rw [staticWeight_congr (hkeep j).1, getWeight_congr (hkeep l).1 (hkeep l).2]
    rw [onTaskWait_eq htime hobj] at hj
    by_cases hmm : m' = m
    · subst hmm
      have hmem : j ∈ k.waitList (.mutex m') ∨ j = i := by simpa using hj
      rcases hmem with hold | rfl
      · exact hle j hold
      · exact hrank l u hm hl
    · exact hle j (by simpa [hmm] using hj)

/-- INTERNAL: the hand-over of a mutex that nobody owns any more to its first waiter. -/
theorem handOver (h : Inherited cfg owner k) (hw : ∀ u, 0 ≤ cfg.weight u)
    (hdistinct : ∀ i j u, (k.tasks i).user = some u → (k.tasks j).user = some u → i = j)
    (m : ℕ) {w : Fin n} {u : TId} (hu : (k.tasks w).user = some u) :
    Inherited cfg (Function.update owner m (some u)) (k.handOver cfg m w) := by
  have hwake : Neutral IsMutex (fun _ => False) k (k.wakeWaitObj w false) := .wakeWaitObj False.elim
  have h₁ := h.neutral hwake
  have hdistinct₁ : ∀ i j v, ((k.wakeWaitObj w false).tasks i).user = some v →
      ((k.wakeWaitObj w false).tasks j).user = some v → i = j := by
    intro i j v hi hj
    rw [hwake.user] at hi hj
    exact hdistinct i j v hi hj
  have hu₁ : ((k.wakeWaitObj w false).tasks w).user = some u := by rw [hwake.user]; exact hu
  have heq : k.handOver cfg m w = (k.wakeWaitObj w false).inheritWeight cfg (some u)
      ((k.wakeWaitObj w false).findWeightHigherThan cfg (.mutex m) (cfg.weight u)) := by
    simp only [Kernel.handOver, hu]
    rfl
  rw [heq]
  generalize k.wakeWaitObj w false = k₁ at h₁ hdistinct₁ hu₁
  have hfloor := h₁.floor w u hu₁
  have hscan := findWeightHigherThan_spec cfg k₁ (.mutex m) (cfg.weight u)
  generalize k₁.findWeightHigherThan cfg (.mutex m) (cfg.weight u) = top at hscan
  have hsame := SameCalls.inheritWeight cfg k₁ (some u) top
  obtain ⟨hmono, htarget⟩ := inheritWeight_spec cfg hdistinct₁ (some u) top
  refine (h₁.inheritWeight hdistinct₁ (some u) top).setOwner m (some u) (fun v hv => ?_)
  obtain rfl := Option.some.inj hv
  refine ⟨w, by rw [hsame.user]; exact hu₁, fun j hj => ?_⟩
  rw [hsame.waitList] at hj
  rw [staticWeight_congr (hsame.user j)]
  have hself := hmono w
  rcases hscan with ⟨-, hle⟩ | ⟨hgt, hle⟩
  · have := hle j hj
    omega
  · have := hle j hj
    have htop : top ≠ noWeight := by
      have := hw u
      simp only [noWeight]
      omega
    exact this.trans (htarget w u rfl hu₁ htop)

end Inherited

/-! ## Runs -/

/-- The tasks that wait for mutex `m` have no higher weight than `u`. -/
def LendsNothing (cfg : Config) (s : System n (FixedPriority P (Fin n))) (u : TId) (m : ℕ) : Prop :=
  ∀ j ∈ s.kernel.waitList (.mutex m), staticWeight cfg s.kernel j ≤ cfg.weight u

/-- Where a weight is restored, none of the mutexes the task goes on to own has a waiter with a
higher weight than the task's own: at the last `Unlock` of a mutex for the other mutexes of the
caller, at a timeout in `TimedLock` for all mutexes of the owner. -/
def KeepsBoost (cfg : Config) (s : System n (FixedPriority P (Fin n))) : SystemEvent n → Prop
  | .unlock i m => s.kernel.canCall i = true → (s.mutex m).recursionCount = 1 →
      ∀ u, (s.kernel.tasks i).user = some u → (s.mutex m).ownerTid = some u →
        ∀ m', m' ≠ m → (s.mutex m').ownerTid = some u → LendsNothing cfg s u m'
  | .lockReturn i => s.kernel.waitResult i = some .timeout →
      ∀ c u, s.lock i = some c → c.ownerTid = some u → (s.mutex c.mutex).ownerTid = some u →
        ∀ m', (s.mutex m').ownerTid = some u → LendsNothing cfg s u m'
  | _ => True

/-- The owners of the mutexes of a system. -/
def ownerOf (s : System n (FixedPriority P (Fin n))) (m : ℕ) : Option TId :=
  (s.mutex m).ownerTid

theorem ownerOf_update (s : System n (FixedPriority P (Fin n))) (m : ℕ) (x : Mutex) :
    (fun m' => (Function.update s.mutex m x m').ownerTid) =
      Function.update (ownerOf s) m x.ownerTid := by
  funext m'
  by_cases heq : m' = m
  · subst heq; simp
  · simp [heq, ownerOf]

theorem MutexOk.waiter_bound (h : MutexOk s) {m : ℕ} {j : Fin n}
    (hj : j ∈ s.kernel.waitList (.mutex m)) : (s.kernel.tasks j).user ≠ none := by
  obtain ⟨c, hc, -⟩ := Option.map_eq_some_iff.mp (h.idle j m ((h.linked.mem j _).mpr hj))
  exact (h.call j c hc).1

namespace Inherited

/-- INTERNAL: the owner of mutex `m` stays the same. -/
theorem sameOwner (h : Inherited cfg (ownerOf s) k) {m : ℕ} {x : Mutex}
    (hx : x.ownerTid = (s.mutex m).ownerTid) :
    Inherited cfg (fun m' => (Function.update s.mutex m x m').ownerTid) k := by
  rw [ownerOf_update, hx]
  exact h.setOwner m _ (fun u hu => h.boosted m u hu)

theorem timedLock (h : Inherited cfg (ownerOf s) s.kernel) (hok : MutexOk s)
    (hw : ∀ u, 0 ≤ cfg.weight u) {i : Fin n} {tid : TId} {m : ℕ} {timeout : ℤ}
    (hi : (s.kernel.tasks i).user = some tid) :
    Inherited cfg (ownerOf (s.timedLock cfg i tid m timeout).1)
      (s.timedLock cfg i tid m timeout).1.kernel := by
  unfold System.timedLock
  dsimp only
  split
  · split
    · exact h.sameOwner rfl
    · exact h
  · split
    · split
      · exact h
      · next hnone =>
        have hnil : s.kernel.waitList (.mutex m) = [] := by
          by_contra hne
          exact hnone (hok.owned m hne)
        have hset := h.setOwner m (some tid) (fun u hu => ⟨i, by rw [hi, hu], fun j hj => by
          rw [hnil] at hj
          cases hj⟩)
        rw [← ownerOf_update s m ⟨some tid, 1⟩] at hset
        exact hset
    · split
      · next htime =>
        split
        · have hsame := SameCalls.inheritWeight cfg s.kernel (s.mutex m).ownerTid (cfg.weight tid)
          have hraised := h.inheritWeight hok.distinct (s.mutex m).ownerTid (cfg.weight tid)
          obtain ⟨-, htarget⟩ :=
            inheritWeight_spec cfg hok.distinct (s.mutex m).ownerTid (cfg.weight tid)
          generalize s.kernel.inheritWeight cfg (s.mutex m).ownerTid (cfg.weight tid) = k₁ at hsame hraised htarget
          split
          · next hwait =>
            have hrefused : k₁.onTaskWait i (.mutex m) timeout = k₁.fault .setupWaitWaiting := by
              unfold Kernel.onTaskWait
              rw [if_neg htime, if_pos hwait]
            exact hraised.neutral (L := fun _ => False) (.of_sameTasks (hrefused ▸ .fault k₁ _))
          · next hwait =>
            have hobj : (k₁.tasks i).waitObj.syncObj = none := by
              simpa [KernelTask.isWaiting] using hwait
            refine hraised.onTaskWait htime hobj (fun l u hm hl => ?_)
            have hstatic : staticWeight cfg k₁ i = cfg.weight tid := by
              simp [staticWeight, hsame.user, hi]
            have hne : cfg.weight tid ≠ noWeight := by
              have := hw tid
              simp only [noWeight]
              omega
            rw [hstatic]
            exact htarget l u hm (by rw [← hsame.user]; exact hl) hne
        · exact h
      · exact h

theorem lockReturn (h : Inherited cfg (ownerOf s) s.kernel) (hok : MutexOk s)
    (hw : ∀ u, 0 ≤ cfg.weight u) {i : Fin n} {tid : TId} {c : LockCall} {r : WaitResult}
    (hc : s.lock i = some c) (hr : s.kernel.waitResult i = some r)
    (hkeeps : KeepsBoost cfg s (.lockReturn i)) :
    Inherited cfg (ownerOf (s.lockReturn cfg i tid c r).1) (s.lockReturn cfg i tid c r).1.kernel := by
  have hcall : ∀ x, Inherited cfg (ownerOf s) { s.kernel with call := x } := fun x =>
    h.raise (fun _ => rfl) (fun _ => List.Sublist.refl _) (fun _ => le_refl _)
  unfold System.lockReturn
  dsimp only
  cases r with
  | timeout =>
    dsimp only
    split
    · next hsame =>
      cases hu : c.ownerTid with
      | none => exact hcall _
      | some u =>
        have hown : (s.mutex c.mutex).ownerTid = some u := hsame.symm.trans hu
        obtain ⟨l, hl, hle⟩ := h.boosted c.mutex u hown
        refine (hcall (Function.update s.kernel.call i none)).restoreWeight hw hok.distinct hl _ (fun o ho => ?_)
          (hkeeps hr c u hc hu hown)
        obtain rfl := Option.some.inj ho
        exact hle
    · exact hcall _
  | signal =>
    dsimp only
    split
    · exact h
    · exact hcall _

theorem unlock (h : Inherited cfg (ownerOf s) s.kernel) (hok : MutexOk s)
    (hw : ∀ u, 0 ≤ cfg.weight u) {i : Fin n} {tid : TId} {m : ℕ}
    (hi : (s.kernel.tasks i).user = some tid) (hcall : s.kernel.canCall i = true)
    (howner : (s.mutex m).ownerTid = some tid) (hcount : (s.mutex m).recursionCount ≠ 0)
    (hkeeps : KeepsBoost cfg s (.unlock i m)) :
    Inherited cfg (ownerOf (s.unlock cfg tid m)) (s.unlock cfg tid m).kernel := by
  -- once the mutex is given up, the caller's static weight is enough for its other mutexes
  have hrestored : (s.mutex m).recursionCount = 1 → Inherited cfg (Function.update (ownerOf s) m none)
      (s.kernel.restoreWeight cfg (some tid) none) := by
    intro hone
    have hreleased := h.setOwner m none (fun u hu => by cases hu)
    refine hreleased.restoreWeight hw hok.distinct hi none (fun o ho => by cases ho)
      (fun m' hm' => ?_)
    by_cases heq : m' = m
    · subst heq
      simp at hm'
    · exact hkeeps hcall hone tid hi howner m' heq (by simpa [heq, ownerOf] using hm')
  have hk := SameCalls.restoreWeight cfg s.kernel (some tid) none
  obtain ⟨-, heq⟩ | ⟨hz, -, heq⟩ | ⟨w, rest, hz, hlist, heq⟩ := unlock_cases cfg s tid m
  · rw [heq]
    exact h.sameOwner rfl
  · rw [heq]
    have := hrestored (by omega)
    rw [← ownerOf_update s m ⟨none, 0⟩] at this
    exact this
  · rw [heq]
    have hmem : w ∈ s.kernel.waitList (.mutex m) := by rw [hlist]; exact List.mem_cons_self
    obtain ⟨u, hu⟩ := Option.ne_none_iff_exists'.mp (hok.waiter_bound hmem)
    have hover := (hrestored (by omega)).handOver hw
      (fun i j v hi hj => hok.distinct i j v (by rw [← hk.user]; exact hi) (by rw [← hk.user]; exact hj))
      m (w := w) (by rw [hk.user]; exact hu)
    rw [Function.update_idem, ← ownerOf_update s m ⟨some u, 1⟩] at hover
    rw [hu]
    exact hover

end Inherited

/-- INTERNAL: one call into the system keeps the weights of the owners. -/
theorem step_inherited (hw : ∀ u, 0 ≤ cfg.weight u) (h : Inherited cfg (ownerOf s) s.kernel)
    (hok : MutexOk s) {e : SystemEvent n} (he : Steady s e) (hkeeps : KeepsBoost cfg s e) :
    Inherited cfg (ownerOf (s.step cfg e)) (s.step cfg e).kernel := by
  cases e with
  | timedLock i m timeout =>
    simp only [System.step, System.stepResult]
    cases hi : (s.kernel.tasks i).user with
    | none => exact h
    | some tid =>
      dsimp only
      split
      · exact h.timedLock hok hw hi
      · exact h
  | lockReturn i =>
    simp only [System.step, System.stepResult]
    split
    · next tid c r hi hc hr =>
      split
      · exact h.lockReturn hok hw hc hr hkeeps
      · exact h
    · exact h
  | unlock i m =>
    simp only [System.step, System.stepResult]
    cases hi : (s.kernel.tasks i).user with
    | none => exact h
    | some tid =>
      dsimp only
      split
      · next hmode =>
        simp only [Bool.and_eq_true, decide_eq_true_eq] at hmode
        exact h.unlock hok hw hi hmode.1.1.2 hmode.1.2 hmode.2 hkeeps
      · exact h
  | kernel e =>
    by_cases hret : ∃ i, e = .waitReturn i
    · obtain ⟨i, rfl⟩ := hret
      simp only [System.step, System.stepResult]
      split
      · next hmode =>
        simp only [Bool.and_eq_true, decide_eq_true_eq] at hmode
        refine h.neutral (hok.kernelStep cfg (e := .waitReturn i) rfl rfl (fun j hj => ?_))
        obtain rfl : i = j := by simpa using hj
        exact hmode.2
      · exact h
    · rw [step_kernel cfg s (fun i hi => hret ⟨i, hi⟩)]
      have hwait : ∀ m, ∀ j ∈ s.kernel.waitList (.mutex m), (s.kernel.tasks j).user ≠ none :=
        fun m j hj => hok.waiter_bound hj
      split
      · next hmode =>
        simp only [Bool.and_eq_true] at hmode
        have hreturn : ∀ i, e = .waitReturn i → s.lock i = none := fun i hi => absurd ⟨i, hi⟩ hret
        cases e with
        | addTask u =>
          simp only [Kernel.step]
          split
          · exact h.binds (.allocateAndAddNewTask cfg s.kernel u) hwait
          · exact h
        | addTaskHrt u p d t =>
          simp only [Kernel.step]
          split
          · exact h.binds (.hrtAllocateAndAddNewTask cfg s.kernel u p d t) hwait
          · exact h
        | _ => exact h.neutral (hok.kernelStep cfg hmode.2 he hreturn)
      · exact h

/-- **Priority inheritance.**  In every run whose steps all keep the boosts, with weights in
the range the strategy asserts, the owner of every mutex has at least the static weight of
every task that waits for it. -/
theorem run_ownersBoosted (cfg : Config) (hw : ∀ u, 0 ≤ cfg.weight u) (es : List (SystemEvent n))
    (hes : Runs.Along (System.step cfg) (fun s e => Steady s e ∧ KeepsBoost cfg s e)
      (System.initial : System n (FixedPriority P (Fin n))) es) :
    OwnersBoosted cfg (ownerOf (System.run cfg es : System n (FixedPriority P (Fin n))))
      (System.run cfg es : System n (FixedPriority P (Fin n))).kernel := by
  have hrun : MutexOk (System.run cfg es : System n (FixedPriority P (Fin n))) ∧
      Inherited cfg (ownerOf (System.run cfg es : System n (FixedPriority P (Fin n))))
        (System.run cfg es : System n (FixedPriority P (Fin n))).kernel :=
    hes.invariant (I := fun s => MutexOk s ∧ Inherited cfg (ownerOf s) s.kernel)
      (fun _ _ h he => ⟨step_mutexOk h.1 he.1, step_inherited hw h.2 h.1 he.1 he.2⟩)
      ⟨mutexOk_initial, by simp [System.initial, Kernel.initial, KernelTask.unbound],
        by simp [OwnersBoosted, ownerOf, System.initial]⟩
  exact hrun.2.boosted

/-- Task 1 has a higher priority than task 0. -/
def nestedConfig : Config :=
  { syncConfig with weight := fun u => if u = 1 then 5 else 1 }

/-- While task 1 sleeps, task 0 locks two mutexes; task 1 then queues up for the first one. -/
def nestedLocks : List (SystemEvent 2) :=
  [.kernel (.addTask 0), .kernel (.addTask 1), .kernel .onStart, .kernel (.sleep 1 2),
    .kernel (.onTick 1), .timedLock 0 0 waitInfinite, .timedLock 0 1 waitInfinite,
    .kernel (.onTick 1), .timedLock 1 0 waitInfinite, .kernel (.onTick 1)]

theorem nestedLocks_boosted :
    Runs.Along (System.step nestedConfig) (fun s e => Steady s e ∧ KeepsBoost nestedConfig s e)
        (System.initial : System 2 (FixedPriority 32 (Fin 2))) nestedLocks ∧
      OwnersBoosted nestedConfig
        (ownerOf (System.run nestedConfig nestedLocks : System 2 (FixedPriority 32 (Fin 2))))
        (System.run nestedConfig nestedLocks : System 2 (FixedPriority 32 (Fin 2))).kernel ∧
      (System.run nestedConfig nestedLocks : System 2 (FixedPriority 32 (Fin 2))).kernel.getWeight
        nestedConfig 0 = 5 := by
  have hes : Runs.Along (System.step nestedConfig) (fun s e => Steady s e ∧ KeepsBoost nestedConfig s e)
      (System.initial : System 2 (FixedPriority 32 (Fin 2))) nestedLocks :=
    ⟨⟨rfl, trivial⟩, ⟨rfl, trivial⟩, ⟨rfl, trivial⟩, ⟨rfl, trivial⟩, ⟨rfl, trivial⟩,
      ⟨trivial, trivial⟩, ⟨trivial, trivial⟩, ⟨rfl, trivial⟩, ⟨trivial, trivial⟩, ⟨rfl, trivial⟩,
      trivial⟩
  have hw : ∀ u, 0 ≤ nestedConfig.weight u := by
    intro u
    simp only [nestedConfig]
    split <;> decide
  exact ⟨hes, run_ownersBoosted nestedConfig hw nestedLocks hes, by decide +kernel⟩

/-- Task 0 unlocks its second mutex while task 1 waits for the first one: the weight it was lent
is gone. -/
theorem nestedLocks_unlock_drops_boost :
    ¬ OwnersBoosted nestedConfig
      (ownerOf (System.run nestedConfig (nestedLocks ++ [.unlock 0 1]) :
        System 2 (FixedPriority 32 (Fin 2))))
      (System.run nestedConfig (nestedLocks ++ [.unlock 0 1]) :
        System 2 (FixedPriority 32 (Fin 2))).kernel := by
  intro h
  obtain ⟨i, hi, hle⟩ := h 0 0 (by decide +kernel)
  have hlow := hle 1 (by decide +kernel)
  revert hi hlow
  revert i
  decide +kernel

end Stk.Analysis
