import Stk.Model.FixedPriority

/-!
# The levels of `SwitchStrategyFixedPriority`

Each level is a closed loop of tasks with its cursor `m_prev[p]`, and bit `p` of
`m_ready_bitmap` says whether the loop has a member.  `FixedPriority.Wf w s` collects
what the operations keep, for tasks of effective weight `w`; `addActive_wf` and
`removeActive_wf` are the two steps every operation is made of.
-/

set_option autoImplicit false

namespace Stk.Model.FixedPriority

open ClosedLoop (succ pred succ_mem)

variable {P : ℕ} {α : Type}

/-- `m_tasks[p]` with its cursor `m_prev[p]`. -/
def level (s : FixedPriority P α) (p : ℕ) : ClosedLoop α :=
  ⟨s.tasks p, s.prev p⟩

/-- What holds of the lists, the bitmap and the cursors between calls, when the task
`t` has the effective weight `w t`. -/
structure Wf (w : α → ℤ) (s : FixedPriority P α) : Prop where
  level : ∀ p, (s.level p).Wf
  bit : ∀ p, s.readyBitmap.getLsbD p = true ↔ s.tasks p ≠ []
  prio : ∀ p t, t ∈ s.tasks p → getTaskPriorityFromWeight (w t) = p
  bound : ∀ p t, t ∈ s.tasks p → p < P
  sleep_nodup : s.sleep.Nodup
  disjoint : ∀ p t, t ∈ s.tasks p → t ∉ s.sleep

/-! ## The bitmap -/

/-- INTERNAL: setting the ready bit of `prio` changes no other bit. -/
theorem getLsbD_setBit (b : BitVec 32) {prio : ℕ} (hp : prio < 32) (q : ℕ) :
    (b ||| (1#32 <<< prio)).getLsbD q = (b.getLsbD q || decide (q = prio)) := by
  simp only [BitVec.getLsbD_or, BitVec.getLsbD_shiftLeft, BitVec.getLsbD_one]
  congr 1
  by_cases hq : q = prio
  · subst hq; simp [hp]
  · by_cases hlt : q < prio
    · simp [hlt, hq]
    · have : q - prio ≠ 0 := by omega
      simp [this, hq]

/-- INTERNAL: clearing the ready bit of `prio` changes no other bit. -/
theorem getLsbD_clearBit (b : BitVec 32) (prio q : ℕ) :
    (b &&& ~~~(1#32 <<< prio)).getLsbD q = (b.getLsbD q && !decide (q = prio)) := by
  simp only [BitVec.getLsbD_and, BitVec.getLsbD_not, BitVec.getLsbD_shiftLeft, BitVec.getLsbD_one]
  by_cases hw : q < 32
  · congr 1
    by_cases hq : q = prio
    · subst hq; simp [hw]
    · by_cases hlt : q < prio
      · simp [hlt, hq, hw]
      · have : q - prio ≠ 0 := by omega
        simp [this, hq, hw]
  · simp [BitVec.getLsbD_of_ge b q (by omega)]

/-- INTERNAL: `31 - clz` is the highest bit of a bitmap that is not zero
(stk_strategy_fpriority.h:378-391). -/
theorem getHighestReadyPriority_spec {b : BitVec 32} (hb : b ≠ 0) :
    b.getLsbD (getHighestReadyPriority b) = true ∧
      ∀ q, getHighestReadyPriority b < q → b.getLsbD q = false := by
  have hclz : b.clz.toNat < 32 := by
    have := BitVec.clz_lt_iff_ne_zero.mpr hb
    simpa [BitVec.lt_def] using this
  refine ⟨BitVec.getLsbD_true_clz_of_ne_zero (by decide) hb, ?_⟩
  intro q hq
  have hlt := BitVec.toNat_lt_two_pow_sub_clz (x := b)
  rw [← BitVec.testBit_toNat]
  apply Nat.testBit_lt_two_pow
  refine lt_of_lt_of_le hlt (Nat.pow_le_pow_right (by decide) ?_)
  unfold getHighestReadyPriority at hq
  omega

/-! ## Taking a task into a level and out of it -/

theorem Wf.nodup {w : α → ℤ} {s : FixedPriority P α} (h : s.Wf w) (p : ℕ) :
    (s.tasks p).Nodup :=
  (h.level p).nodup

theorem addActive_tasks (v : TaskView α) (s : FixedPriority P α) (task : α) :
    (s.addActive v task).tasks = Function.update s.tasks (getTaskPriority v task)
      (s.tasks (getTaskPriority v task) ++ [task]) := by
  unfold addActive
  dsimp only
  split <;> rfl

@[simp] theorem addActive_sleep (v : TaskView α) (s : FixedPriority P α) (task : α) :
    (s.addActive v task).sleep = s.sleep := by
  unfold addActive
  dsimp only
  split <;> rfl

theorem mem_addActive {v : TaskView α} {s : FixedPriority P α} {task t : α} {p : ℕ} :
    t ∈ (s.addActive v task).tasks p ↔
      t ∈ s.tasks p ∨ (t = task ∧ p = getTaskPriority v task) := by
  rw [addActive_tasks]
  by_cases hp : p = getTaskPriority v task
  · subst hp; simp
  · simp [hp]

/-- INTERNAL: `AddActive` appends to the level's closed loop and leaves its cursor
alone unless it was empty. -/
theorem addActive_level {s : FixedPriority P α} {v : TaskView α} {task : α}
    (h : (s.level (getTaskPriority v task)).Wf) (p : ℕ) :
    (s.addActive v task).level p =
      if p = getTaskPriority v task then (s.level p).linkBack task else s.level p := by
  unfold addActive level
  dsimp only
  by_cases hp : p = getTaskPriority v task
  · subst hp
    simp only [Function.update_self, List.length_append, List.length_singleton,
      Nat.add_eq_right, List.length_eq_zero_iff, ↓reduceIte, ClosedLoop.linkBack]
    cases hc : s.prev (getTaskPriority v task) with
    | none =>
      have hnil : s.tasks (getTaskPriority v task) = [] := h.cursor_none hc
      simp [hnil]
    | some c =>
      have hne : s.tasks (getTaskPriority v task) ≠ [] :=
        List.ne_nil_of_mem (h.cursor_mem c hc)
      simp [hne, hc]
  · split <;> simp [hp]

theorem addActive_bit {w : α → ℤ} {s : FixedPriority P α} (h : s.Wf w) {v : TaskView α}
    {task : α} (hprio : getTaskPriority v task < 32) (p : ℕ) :
    (s.addActive v task).readyBitmap.getLsbD p = true ↔ (s.addActive v task).tasks p ≠ [] := by
  rw [addActive_tasks]
  unfold addActive
  dsimp only
  simp only [Function.update_self, List.length_append, List.length_singleton,
    Nat.add_eq_right, List.length_eq_zero_iff]
  by_cases hp : p = getTaskPriority v task
  · subst hp
    split
    · simp [getLsbD_setBit _ hprio]
    · next hne => simpa [(h.bit (getTaskPriority v task))] using hne
  · rw [Function.update_of_ne hp, ← h.bit p]
    split
    · simp [getLsbD_setBit _ hprio, hp]
    · rfl

/-- INTERNAL: a task of a level below `P` that is in no list may join its level. -/
theorem addActive_wf (hP : P ≤ 32) {v : TaskView α} {s : FixedPriority P α} (h : s.Wf v.weight)
    {task : α} (hprio : getTaskPriority v task < P) (hnew : ∀ p, task ∉ s.tasks p)
    (hsleep : task ∉ s.sleep) : (s.addActive v task).Wf v.weight where
  level p := by
    rw [addActive_level (h.level _)]
    split
    · exact (h.level p).linkBack (hnew p)
    · exact h.level p
  bit := addActive_bit h (by omega)
  prio p t ht := by
    rcases mem_addActive.mp ht with ht | ⟨rfl, rfl⟩
    · exact h.prio p t ht
    · rfl
  bound p t ht := by
    rcases mem_addActive.mp ht with ht | ⟨-, rfl⟩
    · exact h.bound p t ht
    · exact hprio
  sleep_nodup := by simpa using h.sleep_nodup
  disjoint p t ht := by
    rw [addActive_sleep]
    rcases mem_addActive.mp ht with ht | ⟨rfl, -⟩
    · exact h.disjoint p t ht
    · exact hsleep

/-- INTERNAL: the cursor of a level may be put on any of its members. -/
theorem Wf.setPrev {w : α → ℤ} {s : FixedPriority P α} (h : s.Wf w) {prio : ℕ} {c : α}
    (hc : c ∈ s.tasks prio) :
    ({ s with prev := Function.update s.prev prio (some c) } : FixedPriority P α).Wf w where
  level p := by
    refine ⟨h.nodup p, ?_, ?_⟩
    · intro hnone
      by_cases hp : p = prio
      · subst hp; simp [FixedPriority.level] at hnone
      · exact (h.level p).cursor_none (by simpa [FixedPriority.level, hp] using hnone)
    · intro d hd
      by_cases hp : p = prio
      · subst hp
        obtain rfl : c = d := by simpa [FixedPriority.level] using hd
        exact hc
      · exact (h.level p).cursor_mem d (by simpa [FixedPriority.level, hp] using hd)
  bit := h.bit
  prio := h.prio
  bound := h.bound
  sleep_nodup := h.sleep_nodup
  disjoint := h.disjoint

/-- INTERNAL: only the weights of the runnable tasks matter. -/
theorem Wf.congr {w w' : α → ℤ} {s : FixedPriority P α} (h : s.Wf w)
    (hw : ∀ p, ∀ t ∈ s.tasks p, w' t = w t) : s.Wf w' where
  level := h.level
  bit := h.bit
  prio p t ht := by rw [hw p t ht]; exact h.prio p t ht
  bound := h.bound
  sleep_nodup := h.sleep_nodup
  disjoint := h.disjoint

/-- INTERNAL: the sleep list may change to any list of tasks that are not runnable. -/
theorem Wf.setSleep {w : α → ℤ} {s : FixedPriority P α} (h : s.Wf w) {l : List α}
    (hl : l.Nodup) (hdisj : ∀ p, ∀ t ∈ s.tasks p, t ∉ l) :
    ({ s with sleep := l } : FixedPriority P α).Wf w where
  level := h.level
  bit := h.bit
  prio := h.prio
  bound := h.bound
  sleep_nodup := hl
  disjoint := hdisj

theorem wf_empty (w : α → ℤ) :
    Wf w (⟨fun _ => [], [], 0, fun _ => none⟩ : FixedPriority P α) where
  level _ := ClosedLoop.Wf.empty
  bit := by simp
  prio := by simp
  bound := by simp
  sleep_nodup := List.nodup_nil
  disjoint := by simp

theorem linked_iff {w : α → ℤ} {s : FixedPriority P α} (h : s.Wf w) (t : α) :
    s.linked t ↔ t ∈ s.sleep ∨ ∃ p, t ∈ s.tasks p := by
  refine or_congr_right ⟨fun ⟨p, _, ht⟩ => ⟨p, ht⟩, fun ⟨p, ht⟩ => ⟨p, h.bound p t ht, ht⟩⟩

section

variable [DecidableEq α]

theorem removeActive_tasks (s : FixedPriority P α) (task : α) (prio : ℕ) :
    (s.removeActive task prio).tasks =
      Function.update s.tasks prio ((s.tasks prio).erase task) := by
  unfold removeActive
  dsimp only
  split <;> rfl

@[simp] theorem removeActive_sleep (s : FixedPriority P α) (task : α) (prio : ℕ) :
    (s.removeActive task prio).sleep = s.sleep := by
  unfold removeActive
  dsimp only
  split <;> rfl

theorem mem_removeActive {w : α → ℤ} {s : FixedPriority P α} (h : s.Wf w) {task t : α}
    {prio : ℕ} (htask : task ∈ s.tasks prio) {p : ℕ} :
    t ∈ (s.removeActive task prio).tasks p ↔ t ∈ s.tasks p ∧ t ≠ task := by
  rw [removeActive_tasks]
  by_cases hp : p = prio
  · subst hp
    rw [Function.update_self, (h.nodup p).mem_erase_iff, and_comm]
  · rw [Function.update_of_ne hp]
    refine ⟨fun ht => ⟨ht, ?_⟩, fun ht => ht.1⟩
    rintro rfl
    exact hp ((h.prio p t ht).symm.trans (h.prio prio t htask))

/-- INTERNAL: `RemoveActive` unlinks from the level's closed loop. -/
theorem removeActive_level (s : FixedPriority P α) (task : α) (prio p : ℕ) :
    (s.removeActive task prio).level p =
      if p = prio then (s.level p).unlink task else s.level p := by
  unfold removeActive level ClosedLoop.unlink
  dsimp only
  by_cases hp : p = prio
  · subst hp
    split <;> simp_all
  · split <;> simp [hp]

theorem removeActive_bit {w : α → ℤ} {s : FixedPriority P α} (h : s.Wf w) {task : α}
    {prio : ℕ} (htask : task ∈ s.tasks prio) (p : ℕ) :
    (s.removeActive task prio).readyBitmap.getLsbD p = true ↔
      (s.removeActive task prio).tasks p ≠ [] := by
  have hself := ClosedLoop.succ_eq_self_iff htask (h.nodup prio)
  rw [removeActive_tasks]
  unfold removeActive
  dsimp only
  by_cases hp : p = prio
  · subst hp
    rw [Function.update_self]
    split
    · next hne =>
      have hbit : s.readyBitmap.getLsbD p = true := (h.bit p).mpr (List.ne_nil_of_mem htask)
      have herase : (s.tasks p).erase task ≠ [] := fun e => hne (hself.mpr e)
      simp [hbit, herase]
    · next hne =>
      have herase : (s.tasks p).erase task = [] := hself.mp (not_not.mp hne)
      rw [getLsbD_clearBit]
      simp [herase]
  · rw [Function.update_of_ne hp, ← h.bit p]
    split
    · rfl
    · rw [getLsbD_clearBit]
      simp [hp]

theorem removeActive_wf {w : α → ℤ} {s : FixedPriority P α} (h : s.Wf w) {task : α}
    {prio : ℕ} (htask : task ∈ s.tasks prio) : (s.removeActive task prio).Wf w where
  level p := by
    rw [removeActive_level]
    split
    · next hp => exact (h.level p).unlink (hp ▸ htask)
    · exact h.level p
  bit := removeActive_bit h htask
  prio p t ht := h.prio p t ((mem_removeActive h htask).mp ht).1
  bound p t ht := h.bound p t ((mem_removeActive h htask).mp ht).1
  sleep_nodup := by simpa using h.sleep_nodup
  disjoint p t ht := by
    rw [removeActive_sleep]
    exact h.disjoint p t ((mem_removeActive h htask).mp ht).1

theorem removeActive_not_mem {w : α → ℤ} {s : FixedPriority P α} (h : s.Wf w) {task : α}
    {prio : ℕ} (htask : task ∈ s.tasks prio) (p : ℕ) :
    task ∉ (s.removeActive task prio).tasks p := by
  intro hmem
  exact ((mem_removeActive h htask).mp hmem).2 rfl

/-! ## The operations -/

/-- INTERNAL: `AddTask` of an unlinked task (stk_strategy_fpriority.h:117-134). -/
theorem addTask_spec (hP : P ≤ 32) {v : TaskView α} {s : FixedPriority P α} (h : s.Wf v.weight)
    {task : α} (hprio : getTaskPriority v task < P) (hnew : ¬ s.linked task) :
    ∃ s', s.addTask v task = .ok s' ∧ s'.Wf v.weight ∧ s'.sleep = s.sleep ∧
      ∀ p t, t ∈ s'.tasks p ↔ t ∈ s.tasks p ∨ (t = task ∧ p = getTaskPriority v task) := by
  have hnot := (not_congr (linked_iff h task)).mp hnew
  push Not at hnot
  have hwf := addActive_wf hP h hprio hnot.2 hnot.1
  refine ⟨_, by simp only [addTask, hnew, hprio, not_true_eq_false, ↓reduceIte]; rfl, ?_⟩
  have hmem : task ∈ (s.addActive v task).tasks (getTaskPriority v task) :=
    mem_addActive.mpr (Or.inr ⟨rfl, rfl⟩)
  split
  · exact ⟨hwf.setPrev hmem, addActive_sleep v s task, fun p t => mem_addActive⟩
  · exact ⟨hwf, addActive_sleep v s task, fun p t => mem_addActive⟩

/-- INTERNAL: `RemoveTask` of a linked task (stk_strategy_fpriority.h:144-158). -/
theorem removeTask_spec {v : TaskView α} {s : FixedPriority P α} (h : s.Wf v.weight) {task : α}
    (hlinked : s.linked task) :
    ∃ s', s.removeTask v task = .ok s' ∧ s'.Wf v.weight ∧
      (∀ t, t ∈ s'.sleep ↔ t ∈ s.sleep ∧ t ≠ task) ∧
      ∀ p t, t ∈ s'.tasks p ↔ t ∈ s.tasks p ∧ t ≠ task := by
  unfold removeTask
  dsimp only
  by_cases hsleep : task ∈ s.sleep
  · have hwf : ({ s with sleep := s.sleep.erase task } : FixedPriority P α).Wf v.weight :=
      h.setSleep (h.sleep_nodup.erase task)
        (fun p t ht hmem => h.disjoint p t ht (List.mem_of_mem_erase hmem))
    refine ⟨_, by simp only [hsleep, or_true, not_true_eq_false, ↓reduceIte], hwf, ?_, ?_⟩
    · intro t
      rw [h.sleep_nodup.mem_erase_iff, and_comm]
    · intro p t
      refine ⟨fun ht => ⟨ht, ?_⟩, fun ht => ht.1⟩
      rintro rfl
      exact h.disjoint p t ht hsleep
  · obtain ⟨p, hp⟩ := ((linked_iff h task).mp hlinked).resolve_left hsleep
    have hlevel : task ∈ s.tasks (getTaskPriority v task) := by
      rw [getTaskPriority, h.prio p task hp]; exact hp
    refine ⟨_, by simp only [hsleep, hlevel, or_false, not_true_eq_false, ↓reduceIte],
      removeActive_wf h hlevel, ?_, fun p t => mem_removeActive h hlevel⟩
    intro t
    rw [removeActive_sleep]
    refine ⟨fun ht => ⟨ht, ?_⟩, fun ht => ht.1⟩
    rintro rfl
    exact hsleep ht

/-- INTERNAL: `OnTaskSleep` of a runnable task (stk_strategy_fpriority.h:232-240). -/
theorem onTaskSleep_spec {v : TaskView α} {s : FixedPriority P α} (h : s.Wf v.weight) {task : α}
    {p : ℕ} (htask : task ∈ s.tasks p) (hsleeping : v.sleeping task = true) :
    ∃ s', s.onTaskSleep v task = .ok s' ∧ s'.Wf v.weight ∧
      (∀ t, t ∈ s'.sleep ↔ t ∈ s.sleep ∨ t = task) ∧
      ∀ p t, t ∈ s'.tasks p ↔ t ∈ s.tasks p ∧ t ≠ task := by
  have hlevel : task ∈ s.tasks (getTaskPriority v task) := by
    rw [getTaskPriority, h.prio p task htask]; exact htask
  have hwf := removeActive_wf h hlevel
  refine ⟨{ s.removeActive task (getTaskPriority v task) with
      sleep := (s.removeActive task (getTaskPriority v task)).sleep ++ [task] },
    by simp only [onTaskSleep, hsleeping, hlevel, not_true_eq_false, ↓reduceIte],
    ?_, by simp, fun p t => mem_removeActive h hlevel⟩
  refine hwf.setSleep ?_ ?_
  · rw [removeActive_sleep]
    exact List.nodup_append.mpr ⟨h.sleep_nodup, List.nodup_singleton task, by
      intro a ha b hb
      rw [List.mem_singleton.mp hb]
      rintro rfl
      exact h.disjoint _ a hlevel ha⟩
  · intro q t ht hmem
    obtain ⟨hold, hne⟩ := (mem_removeActive h hlevel).mp ht
    rcases List.mem_append.mp hmem with hmem | hmem
    · exact h.disjoint q t hold (by simpa using hmem)
    · exact hne (List.mem_singleton.mp hmem)

/-- INTERNAL: `OnTaskWake` of a task in the sleep list (stk_strategy_fpriority.h:251-259). -/
theorem onTaskWake_spec (hP : P ≤ 32) {v : TaskView α} {s : FixedPriority P α}
    (h : s.Wf v.weight) {task : α} (hprio : getTaskPriority v task < P) (htask : task ∈ s.sleep)
    (hawake : v.sleeping task = false) :
    ∃ s', s.onTaskWake v task = .ok s' ∧ s'.Wf v.weight ∧
      (∀ t, t ∈ s'.sleep ↔ t ∈ s.sleep ∧ t ≠ task) ∧
      ∀ p t, t ∈ s'.tasks p ↔ t ∈ s.tasks p ∨ (t = task ∧ p = getTaskPriority v task) := by
  have hwf : ({ s with sleep := s.sleep.erase task } : FixedPriority P α).Wf v.weight :=
    h.setSleep (h.sleep_nodup.erase task)
      (fun p t ht hmem => h.disjoint p t ht (List.mem_of_mem_erase hmem))
  refine ⟨_, by simp only [onTaskWake, hawake, htask, not_true_eq_false, ↓reduceIte,
      Bool.false_eq_true],
    addActive_wf hP hwf hprio (fun p hmem => h.disjoint p task hmem htask)
      (h.sleep_nodup.not_mem_erase), ?_, fun p t => mem_addActive⟩
  intro t
  rw [addActive_sleep, h.sleep_nodup.mem_erase_iff, and_comm]

/-- INTERNAL: `OnTaskWeightChange` of a linked task whose weight was `w task` when it
was last seen (stk_strategy_fpriority.h:270-287). -/
theorem onTaskWeightChange_spec (hP : P ≤ 32) {w : α → ℤ} {v : TaskView α}
    {s : FixedPriority P α} (h : s.Wf w) {task : α} (hother : ∀ t, t ≠ task → v.weight t = w t)
    (hprio : getTaskPriority v task < P) (hold : getTaskPriorityFromWeight (w task) < P)
    (hlinked : s.linked task) :
    ∃ s', s.onTaskWeightChange v task (w task) = .ok s' ∧ s'.Wf v.weight ∧ s'.sleep = s.sleep ∧
      ∀ t, (∃ p, t ∈ s'.tasks p) ↔ ∃ p, t ∈ s.tasks p := by
  unfold onTaskWeightChange
  dsimp only
  by_cases hsleep : task ∈ s.sleep
  · refine ⟨s, by simp only [hprio, hold, hsleep, not_true_eq_false, ↓reduceIte], ?_, rfl,
      fun t => Iff.rfl⟩
    refine h.congr (fun p t ht => hother t ?_)
    rintro rfl
    exact h.disjoint p t ht hsleep
  · obtain ⟨p, hp⟩ := ((linked_iff h task).mp hlinked).resolve_left hsleep
    have hlevel : task ∈ s.tasks (getTaskPriorityFromWeight (w task)) := by
      rw [h.prio p task hp]; exact hp
    have hwf : Wf v.weight (s.removeActive task (getTaskPriorityFromWeight (w task))) :=
      (removeActive_wf h hlevel).congr
        (fun q t ht => hother t ((mem_removeActive h hlevel).mp ht).2)
    refine ⟨_, by simp only [hprio, hold, hsleep, hlevel, not_true_eq_false, ↓reduceIte],
      addActive_wf hP hwf hprio (removeActive_not_mem h hlevel) (by simpa using hsleep), by simp, ?_⟩
    intro t
    simp only [mem_addActive, mem_removeActive h hlevel]
    constructor
    · rintro ⟨q, ⟨ht, -⟩ | ⟨rfl, -⟩⟩
      · exact ⟨q, ht⟩
      · exact ⟨p, hp⟩
    · rintro ⟨q, ht⟩
      by_cases hne : t = task
      · exact ⟨_, Or.inr ⟨hne, rfl⟩⟩
      · exact ⟨q, Or.inl ⟨ht, hne⟩⟩

/-- INTERNAL: `GetNext` returns a member of the highest level that has one, and null
when no level has (stk_strategy_fpriority.h:168-181). -/
theorem getNext_spec {w : α → ℤ} {s : FixedPriority P α} (h : s.Wf w) :
    ∃ r s', s.getNext = .ok (r, s') ∧ s'.Wf w ∧ s'.sleep = s.sleep ∧ s'.tasks = s.tasks ∧
      (∀ t, r = some t → ∃ p, t ∈ s.tasks p ∧ ∀ q u, u ∈ s.tasks q → q ≤ p) ∧
      (r = none → ∀ p, s.tasks p = []) := by
  unfold getNext
  by_cases hb : s.readyBitmap = 0
  · refine ⟨none, s, by simp [hb], h, rfl, rfl, by simp, fun _ p => ?_⟩
    by_contra hne
    have := (h.bit p).mpr hne
    rw [hb] at this
    simp at this
  · obtain ⟨hset, hclear⟩ := getHighestReadyPriority_spec hb
    have hne := (h.bit _).mp hset
    have hcursor : s.prev (getHighestReadyPriority s.readyBitmap) ≠ none :=
      fun hnone => hne ((h.level _).cursor_none hnone)
    obtain ⟨c, hc⟩ := Option.ne_none_iff_exists'.mp hcursor
    have hmem : succ (s.tasks (getHighestReadyPriority s.readyBitmap)) c ∈
        s.tasks (getHighestReadyPriority s.readyBitmap) :=
      succ_mem ((h.level _).cursor_mem c hc) (h.nodup _)
    refine ⟨some (succ (s.tasks (getHighestReadyPriority s.readyBitmap)) c), _,
      by simp only [hb, ne_eq, not_false_eq_true, ↓reduceIte, hc], h.setPrev hmem, rfl, rfl, ?_,
      by simp⟩
    rintro t ht
    obtain rfl : _ = t := Option.some.inj ht
    refine ⟨_, hmem, ?_⟩
    intro q u hu
    by_contra hlt
    have hfalse := hclear q (by omega)
    rw [(h.bit q).mpr (List.ne_nil_of_mem hu)] at hfalse
    exact Bool.noConfusion hfalse

end

end Stk.Model.FixedPriority
