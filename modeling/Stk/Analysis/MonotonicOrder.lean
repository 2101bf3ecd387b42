import Mathlib.Algebra.Order.Group.Int
import Stk.Analysis.IntrusiveListRun
import Stk.Foundation.StableOrder
import Stk.Model.MonotonicRing

/-!
# The order of a monotonic strategy

The calls on the ring of `SwitchStrategyMonotonic` do to the pointers what those of `Monotonic` do to its list,
so that after any calls the ring is the list of the tasks added and not removed, by period or by deadline, and
tasks with equal keys in the order of their addition.
-/

set_option autoImplicit false

namespace Stk.Analysis

open Stk.Model Stk.Model.DLists StableOrder

variable {α : Type} [DecidableEq α] {type : MonotonicType} {v : TaskView α} {s : DLists α Unit}
  {l a b : List α} {task itr start : α}

/-! ## One call -/

/-- The pointers are those of the list. -/
def RingHolds (s : DLists α Unit) (l : List α) : Prop := s.Represents true fun _ => l

omit [DecidableEq α] in
theorem update_unit (l l' : List α) : Function.update (fun _ : Unit => l) () l' = fun _ => l' := by
  funext u
  simp

omit [DecidableEq α] in
theorem RingHolds.head_eq_none (h : RingHolds s l) : (s.entry task).head = none ↔ task ∉ l := by
  rw [← h.owner () task]
  cases (s.entry task).head <;> simp

omit [DecidableEq α] in
theorem RingHolds.isEmpty (h : RingHolds s l) : MonotonicRing.isEmpty s = l.isEmpty := by
  have hsize := (h.list ()).size
  unfold MonotonicRing.isEmpty
  rw [hsize]
  cases l <;> rfl

omit [DecidableEq α] in
/-- INTERNAL: the pointer to the next task, which is the first again after the last. -/
theorem RingHolds.next (h : RingHolds s (a ++ itr :: b)) (hstart : (a ++ itr :: b).head? = some start) :
    (s.entry itr).next = some (b.headD start) := by
  rw [(h.list ()).next_eq]
  cases b with
  | nil => exact hstart
  | cons y b => rfl

omit [DecidableEq α] in
/-- INTERNAL: the scan is at the start only in the beginning. -/
theorem eq_start_iff (hnodup : (a ++ itr :: b).Nodup) (hstart : (a ++ itr :: b).head? = some start) :
    itr = start ↔ a = [] := by
  cases a with
  | nil =>
    have : itr = start := Option.some.inj hstart
    simp [this]
  | cons x a =>
    obtain rfl : x = start := Option.some.inj hstart
    have hne : itr ≠ x := by
      rintro rfl
      exact (List.nodup_cons.mp hnodup).1 (by simp)
    simp [hne]

theorem RingHolds.linkFront (h : RingHolds s l) (hnot : task ∉ l) :
    ∃ s', s.linkFront true () task = some s' ∧ RingHolds s' (task :: l) := by
  obtain ⟨s', hs', hrep⟩ := Represents.linkFront h (h.head_eq_none.mpr hnot)
  rw [update_unit] at hrep
  exact ⟨s', hs', hrep⟩

theorem RingHolds.linkBack (h : RingHolds s l) (hnot : task ∉ l) :
    ∃ s', s.linkBack true () task = some s' ∧ RingHolds s' (l ++ [task]) := by
  obtain ⟨s', hs', hrep⟩ := Represents.linkBack h (h.head_eq_none.mpr hnot)
  rw [update_unit] at hrep
  exact ⟨s', hs', hrep⟩

theorem RingHolds.linkBefore (h : RingHolds s (a ++ itr :: b)) (hnot : task ∉ a ++ itr :: b) (ha : a ≠ []) :
    ∃ s', s.linkBefore true () task itr = some s' ∧ RingHolds s' (a ++ task :: itr :: b) := by
  have hlist := h.list ()
  have hnodup := hlist.nodup
  rw [List.nodup_middle, List.nodup_cons, List.mem_append, not_or] at hnodup
  have hseam : ¬(true = true ∧ (s.head ()).first = some itr) := by
    rintro ⟨-, hfirst⟩
    obtain ⟨x, a, rfl⟩ := List.exists_cons_of_ne_nil ha
    rw [hlist.first] at hfirst
    obtain rfl : x = itr := Option.some.inj hfirst
    exact hnodup.1.1 List.mem_cons_self
  obtain ⟨s', hs', hrep⟩ := Represents.linkBefore h (h.head_eq_none.mpr hnot) ((h.owner () itr).mpr (by simp)) hseam
  refine ⟨s', hs', ?_⟩
  rw [update_unit, List.flatMap_append, List.flatMap_cons, flatMap_of_not_mem hnodup.1.1,
    flatMap_of_not_mem hnodup.1.2, if_pos rfl] at hrep
  exact hrep

/-- INTERNAL: the scan of `AddTask` from `itr` on. -/
theorem RingHolds.addLoop {n : ℕ} (hn : b.length < n) (h : RingHolds s (a ++ itr :: b)) (hnot : task ∉ a ++ itr :: b)
    (hstart : (a ++ itr :: b).head? = some start) :
    ∃ s', MonotonicRing.addLoop type v s task start n itr = some s' ∧
      RingHolds s' (a ++ Monotonic.link type v task (itr :: b)) := by
  induction n generalizing a itr b with
  | zero => exact absurd hn (Nat.not_lt_zero _)
  | succ n ih =>
    have hfirst := eq_start_iff (h.list ()).nodup hstart
    unfold MonotonicRing.addLoop Monotonic.link
    by_cases hhigher : Monotonic.higherPriority type v task itr = true
    · rw [if_pos hhigher, if_pos hhigher]
      by_cases ha : a = []
      · rw [if_pos (hfirst.mpr ha)]
        subst ha
        exact h.linkFront hnot
      · rw [if_neg (mt hfirst.mp ha)]
        exact h.linkBefore hnot ha
    · rw [if_neg hhigher, if_neg hhigher, h.next hstart]
      dsimp only
      cases b with
      | nil =>
        rw [if_pos (show ([] : List α).headD start = start from rfl)]
        obtain ⟨s', hs', hrep⟩ := h.linkBack hnot
        rw [List.append_assoc] at hrep
        exact ⟨s', hs', hrep⟩
      | cons y b =>
        have hassoc : a ++ itr :: y :: b = (a ++ [itr]) ++ y :: b := by simp
        rw [hassoc] at h hnot hstart
        have hnext := eq_start_iff (h.list ()).nodup hstart
        rw [List.headD_cons, if_neg (mt hnext.mp (by simp))]
        obtain ⟨s', hs', hrep⟩ := ih (Nat.lt_of_succ_lt_succ hn) h hnot hstart
        rw [List.append_assoc] at hrep
        exact ⟨s', hs', hrep⟩

/-- `AddTask` inserts the task in the list. -/
theorem RingHolds.addTask (h : RingHolds s l) (hnot : task ∉ l) :
    ∃ s', MonotonicRing.addTask type v s task = some s' ∧ RingHolds s' (Monotonic.link type v task l) := by
  have hlist := h.list ()
  unfold MonotonicRing.addTask
  rw [if_neg (not_not.mpr (h.head_eq_none.mpr hnot)), h.isEmpty]
  cases l with
  | nil => exact h.linkFront hnot
  | cons start l =>
    rw [if_neg (by simp), hlist.first]
    dsimp only [List.head?_cons]
    apply RingHolds.addLoop (a := []) _ h hnot rfl
    rw [hlist.size]
    exact Nat.lt_succ_self _

theorem RingHolds.addTask_linked (h : RingHolds s l) (hin : task ∈ l) : MonotonicRing.addTask type v s task = none := by
  unfold MonotonicRing.addTask
  exact if_pos (fun hnone => h.head_eq_none.mp hnone hin)

theorem RingHolds.removeTask (h : RingHolds s l) (hin : task ∈ l) :
    ∃ s', MonotonicRing.removeTask s task = some s' ∧ RingHolds s' (l.erase task) := by
  have hhead := (h.owner () task).mpr hin
  have hcount : (s.head ()).count ≠ 0 := by
    rw [(h.list ()).size]
    exact (List.length_pos_of_mem hin).ne'
  unfold MonotonicRing.removeTask
  rw [if_neg hcount, if_neg (not_not.mpr hhead)]
  obtain ⟨s', hs', hrep⟩ := Represents.unlinkEntry h hhead
  rw [update_unit] at hrep
  exact ⟨s', hs', hrep⟩

theorem RingHolds.removeTask_unlinked (h : RingHolds s l) (hnot : task ∉ l) : MonotonicRing.removeTask s task = none := by
  unfold MonotonicRing.removeTask
  split
  · rfl
  · rw [if_pos (fun hhead => hnot ((h.owner () task).mp hhead))]

/-- INTERNAL: the scan of `GetNext` from `itr` on. -/
theorem RingHolds.nextLoop {n : ℕ} {sleeping : α → Bool} (hn : b.length < n) (h : RingHolds s (a ++ itr :: b))
    (hstart : (a ++ itr :: b).head? = some start) :
    MonotonicRing.nextLoop sleeping s start n itr = some ((itr :: b).find? fun t => !sleeping t) := by
  induction n generalizing a itr b with
  | zero => exact absurd hn (Nat.not_lt_zero _)
  | succ n ih =>
    unfold MonotonicRing.nextLoop
    cases hasleep : sleeping itr with
    | false =>
      rw [List.find?_cons_of_pos (by simp [hasleep])]
      rfl
    | true =>
      rw [if_neg (by simp), h.next hstart, List.find?_cons_of_neg (by simp [hasleep])]
      dsimp only
      cases b with
      | nil => rw [if_pos (show ([] : List α).headD start = start from rfl), List.find?_nil]
      | cons y b =>
        have hassoc : a ++ itr :: y :: b = (a ++ [itr]) ++ y :: b := by simp
        rw [hassoc] at h hstart
        have hnext := eq_start_iff (h.list ()).nodup hstart
        rw [List.headD_cons, if_neg (mt hnext.mp (by simp))]
        exact ih (Nat.lt_of_succ_lt_succ hn) h hstart

/-- `GetNext` gives the first task of the list that does not sleep. -/
theorem RingHolds.getNext (h : RingHolds s l) (sleeping : α → Bool) :
    MonotonicRing.getNext sleeping s = some (l.find? fun t => !sleeping t) := by
  have hlist := h.list ()
  unfold MonotonicRing.getNext
  rw [h.isEmpty]
  cases l with
  | nil => rfl
  | cons start l =>
    rw [if_neg (by simp), hlist.first]
    dsimp only [List.head?_cons]
    apply RingHolds.nextLoop (a := []) _ h rfl
    rw [hlist.size]
    exact Nat.lt_succ_self _

/-! ## Runs -/

/-- A call of `AddTask` whose task has not been removed. -/
structure Registration (α : Type) where
  task : α
  periodicity : ℤ
  deadline : ℤ

/-- What the strategy sorts by. -/
def Registration.key (type : MonotonicType) (r : Registration α) : ℤ :=
  match type with
  | .rate => r.periodicity
  | .deadline => r.deadline

/-- One call: a task is added once, and removed when it has been added. -/
def register (reg : List (Registration α)) : MonotonicCall α → Option (List (Registration α))
  | .addTask task periodicity deadline =>
    if task ∈ reg.map Registration.task then none else some (reg ++ [⟨task, periodicity, deadline⟩])
  | .removeTask task =>
    if task ∈ reg.map Registration.task then some (reg.filter fun r => decide (r.task ≠ task)) else none

/-- The tasks added and not removed, in the order of their addition; `none` if a call is not allowed. -/
def registered (cs : List (MonotonicCall α)) : Option (List (Registration α)) := cs.foldlM register []

/-- The ring holds what is registered, in stable order, and the tasks have the timing they were added with. -/
structure RingOk (type : MonotonicType) (s : MonotonicRing α) (reg l : List (Registration α)) : Prop where
  order : StablySorted (Registration.key type) reg l
  holds : RingHolds s.tasks (l.map Registration.task)
  timing : ∀ r ∈ reg, s.hrtPeriodicity r.task = r.periodicity ∧ s.hrtDeadline r.task = r.deadline

variable {reg reg' m : List (Registration α)} {r : Registration α} {t : MonotonicRing α}

omit [DecidableEq α] in
/-- INTERNAL: `AddTask` inserts by the keys. -/
theorem link_map (hkey : ∀ x ∈ m,
    Monotonic.higherPriority type v r.task x.task = decide (r.key type < x.key type)) :
    Monotonic.link type v r.task (m.map Registration.task) =
      (StableOrder.insert (Registration.key type) r m).map Registration.task := by
  induction m with
  | nil => rfl
  | cons x m ih =>
    have hx := hkey x List.mem_cons_self
    rw [List.map_cons]
    unfold Monotonic.link StableOrder.insert
    by_cases hlt : r.key type < x.key type
    · rw [hx, if_pos (decide_eq_true hlt), if_pos hlt]
      rfl
    · rw [hx, if_neg (by simp [hlt]), if_neg hlt, List.map_cons]
      rw [ih fun y hy => hkey y (List.mem_cons_of_mem x hy)]

theorem filter_map_erase (hnodup : (m.map Registration.task).Nodup) (task : α) :
    (m.filter fun r => decide (r.task ≠ task)).map Registration.task = (m.map Registration.task).erase task := by
  rw [hnodup.erase_eq_filter, List.filter_map]
  congr 1
  apply List.filter_congr
  intro r _
  by_cases hr : r.task = task <;> simp [hr]

omit [DecidableEq α] in
theorem RingOk.mem_iff (h : RingOk type t reg m) {task : α} :
    task ∈ reg.map Registration.task ↔ task ∈ m.map Registration.task :=
  (h.order.perm.map _).mem_iff.symm

/-- INTERNAL: a task is added. -/
theorem RingOk.addTask (h : RingOk type t reg m) {task : α} (hnot : task ∉ m.map Registration.task) (p d : ℤ) :
    ∃ t' m', t.step type (.addTask task p d) = some t' ∧ RingOk type t' (reg ++ [⟨task, p, d⟩]) m' := by
  have hne : ∀ r ∈ reg, r.task ≠ task := by
    rintro r hr rfl
    exact hnot (h.mem_iff.mp (List.mem_map_of_mem hr))
  have htiming : ∀ r ∈ reg ++ [⟨task, p, d⟩], (t.hrtInit task p d).hrtPeriodicity r.task = r.periodicity ∧
      (t.hrtInit task p d).hrtDeadline r.task = r.deadline := by
    intro r hr
    unfold MonotonicRing.hrtInit
    dsimp only
    rcases List.mem_append.mp hr with hold | hnew
    · rw [Function.update_of_ne (hne r hold), Function.update_of_ne (hne r hold)]
      exact h.timing r hold
    · obtain rfl := List.mem_singleton.mp hnew
      exact ⟨Function.update_self _ _ _, Function.update_self _ _ _⟩
  have hnew := htiming ⟨task, p, d⟩ (by simp)
  have hkey : ∀ x ∈ m, Monotonic.higherPriority type (t.hrtInit task p d).view task x.task =
      decide ((⟨task, p, d⟩ : Registration α).key type < x.key type) := by
    intro x hx
    have hold := htiming x (List.mem_append_left _ (h.order.perm.mem_iff.mp hx))
    unfold Monotonic.higherPriority MonotonicRing.view Registration.key
    cases type with
    | rate =>
      dsimp only
      rw [decide_eq_decide, hold.1, hnew.1]
    | deadline =>
      dsimp only
      rw [decide_eq_decide, hold.2, hnew.2]
  obtain ⟨s', hs', hholds⟩ : ∃ s', MonotonicRing.addTask type (t.hrtInit task p d).view t.tasks task = some s' ∧
      RingHolds s' (Monotonic.link type (t.hrtInit task p d).view task (m.map Registration.task)) :=
    h.holds.addTask hnot
  have hlink := link_map (r := ⟨task, p, d⟩) hkey
  rw [hlink] at hholds
  refine ⟨{ t.hrtInit task p d with tasks := s' }, _, ?_, h.order.insert _, hholds, htiming⟩
  unfold MonotonicRing.step
  dsimp only
  have htasks : (t.hrtInit task p d).tasks = t.tasks := rfl
  rw [htasks, hs', Option.map_some]

/-- INTERNAL: a task is removed. -/
theorem RingOk.removeTask (h : RingOk type t reg m) {task : α} (hin : task ∈ m.map Registration.task) :
    ∃ t' m', t.step type (.removeTask task) = some t' ∧
      RingOk type t' (reg.filter fun r => decide (r.task ≠ task)) m' := by
  obtain ⟨s', hs', hholds⟩ := h.holds.removeTask hin
  rw [← filter_map_erase (h.holds.list ()).nodup] at hholds
  refine ⟨{ t with tasks := s' }, _, ?_, h.order.filter _, hholds, ?_⟩
  · unfold MonotonicRing.step
    dsimp only
    rw [hs', Option.map_some]
  · intro r hr
    exact h.timing r (List.mem_of_mem_filter hr)

/-- **One call.** -/
theorem RingOk.step (h : RingOk type t reg m) (c : MonotonicCall α) :
    match register reg c with
    | none => t.step type c = none
    | some reg' => ∃ t' m', t.step type c = some t' ∧ RingOk type t' reg' m' := by
  cases c with
  | addTask task p d =>
    unfold register
    dsimp only
    by_cases hin : task ∈ reg.map Registration.task
    · have htasks : (t.hrtInit task p d).tasks = t.tasks := rfl
      rw [if_pos hin]
      unfold MonotonicRing.step
      dsimp only
      rw [htasks, h.holds.addTask_linked (h.mem_iff.mp hin)]
      rfl
    · rw [if_neg hin]
      exact h.addTask (mt h.mem_iff.mpr hin) p d
  | removeTask task =>
    unfold register
    dsimp only
    by_cases hin : task ∈ reg.map Registration.task
    · rw [if_pos hin]
      exact h.removeTask (h.mem_iff.mp hin)
    · rw [if_neg hin]
      unfold MonotonicRing.step
      dsimp only
      rw [h.holds.removeTask_unlinked (mt h.mem_iff.mpr hin)]
      rfl

omit [DecidableEq α] in
theorem ringOk_initial : RingOk type (MonotonicRing.initial : MonotonicRing α) [] [] where
  order := stablySorted_nil
  holds := represents_initial
  timing _ hr := nomatch hr

/-- INTERNAL: a run from a state that is in order. -/
theorem RingOk.run (h : RingOk type t reg m) (cs : List (MonotonicCall α)) :
    match cs.foldlM register reg with
    | none => cs.foldlM (MonotonicRing.step type) t = none
    | some reg' => ∃ t' m', cs.foldlM (MonotonicRing.step type) t = some t' ∧ RingOk type t' reg' m' := by
  induction cs generalizing t reg m with
  | nil => exact ⟨t, m, rfl, h⟩
  | cons c cs ih =>
    have hone := h.step c
    rw [List.foldlM_cons, List.foldlM_cons]
    cases hreg : register reg c with
    | none =>
      rw [hreg] at hone
      dsimp only at hone
      rw [hone]
      rfl
    | some reg' =>
      rw [hreg] at hone
      obtain ⟨t', m', ht', hok⟩ := hone
      rw [ht']
      exact ih hok

/-- **The order of a monotonic strategy.**  Calls of `AddTask` and `RemoveTask` are carried out if and only if
they add tasks not in the list and remove tasks in it.  Then the ring is the list of the tasks added and not
removed, by their keys and equal keys in the order of addition; `GetNext` gives the first that does not sleep,
and `nullptr` exactly if all sleep. -/
theorem run_monotonicOrder (type : MonotonicType) (cs : List (MonotonicCall α)) :
    match registered cs with
    | none => MonotonicRing.run type cs = none
    | some reg => ∃ t, MonotonicRing.run type cs = some t ∧ ∃ l, StablySorted (Registration.key type) reg l ∧
        t.tasks.IsList true () (l.map Registration.task) ∧ ∀ sleeping : α → Bool,
          MonotonicRing.getNext sleeping t.tasks =
            some ((l.map Registration.task).find? fun task => !sleeping task) ∧
          (MonotonicRing.getNext sleeping t.tasks = some none ↔ ∀ r ∈ reg, sleeping r.task = true) := by
  have hinitial : RingOk type (MonotonicRing.initial : MonotonicRing α) [] [] := ringOk_initial
  have hrun := hinitial.run cs
  unfold registered MonotonicRing.run
  cases hreg : cs.foldlM register ([] : List (Registration α)) with
  | none =>
    rw [hreg] at hrun
    exact hrun
  | some reg =>
    rw [hreg] at hrun
    obtain ⟨t, l, ht, hok⟩ := hrun
    refine ⟨t, ht, l, hok.order, hok.holds.list (), fun sleeping => ⟨hok.holds.getNext sleeping, ?_⟩⟩
    rw [hok.holds.getNext sleeping, Option.some_inj, List.find?_eq_none]
    constructor
    · intro hall r hr
      have hmem : r.task ∈ l.map Registration.task := hok.mem_iff.mp (List.mem_map_of_mem hr)
      simpa using hall r.task hmem
    · intro hall task htask
      obtain ⟨r, hr, rfl⟩ := List.mem_map.mp (hok.mem_iff.mpr htask)
      simp [hall r hr]

end Stk.Analysis
