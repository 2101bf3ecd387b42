import Stk.Foundation.Service
import Stk.Analysis.SleepAware
import Stk.Analysis.StrategyCalls
import Stk.Analysis.StrategyListInvariant
import Stk.Analysis.StrategyMembers

/-!
# Bounded bypass

`m_tasks` of `SwitchStrategyRoundRobin`, and each `m_tasks[p]` of `SwitchStrategyFixedPriority`,
is a closed loop with the cursor `m_prev`; the calls of the kernel act on it by `advance`,
`unlink` and `linkBack`.  A task that stays in the loop is returned within as many `GetNext`
calls as there are tasks, as long as no call lets a task returned meanwhile get in before it:
`TurnsKept`.  A call whose assertion fails is left out here, where a release build moves the task
between the lists all the same, so the runs are those without one.  The other calls that take a task out (`RemoveActive`) or bring it back
(`AddActive`) can do that, and two tasks that yield in turn keep a third one from running.
-/

set_option autoImplicit false

namespace Stk.Analysis

open Stk.Model ClosedLoop

/-- In every segment of the calls made in `k` in which no task is added, a task that stays in the
loop and keeps its turn is returned, if the loop is advanced as often as there are tasks. -/
def ServedInTurn {n : ℕ} {σ : Type} [SwitchStrategy (Fin n) σ] (loop : σ → ClosedLoop (Fin n))
    (ops : σ → TaskView (Fin n) × StrategyCall (Fin n) → List (Op (Fin n))) (k : Kernel n σ) : Prop :=
  ∀ pre win post, k.calls = pre ++ win ++ post → (∀ c ∈ win, ¬ AddsTask c) →
    ∀ t, StaysMember loop stepCall t (replay pre) win →
      TurnsKept loop ops stepCall t [] (replay pre) win →
      SwitchStrategy.getSize (replay pre : σ) ≤ advances (opsAlong ops stepCall (replay pre) win) →
      t ∈ returns (replay pre : σ) win

section Generic

variable {α σ : Type} [DecidableEq α] [SwitchStrategy α σ] (loop : σ → ClosedLoop α)
  (ops : σ → TaskView α × StrategyCall α → List (Op α))

/-- INTERNAL: whoever is served by the loop is returned by `GetNext`. -/
theorem service_subset_returns {I : σ → Prop} {Q : TaskView α × StrategyCall α → Prop}
    (hI : ∀ s c, I s → Q c → I (stepCall s c))
    (hloop : ∀ s c, I s → Q c → loop (stepCall s c) = (ops s c).foldl Op.apply (loop s))
    (hret : ∀ s c, I s → Q c → service (loop s) (ops s c) ⊆ returned s c) :
    ∀ {cs : List (TaskView α × StrategyCall α)} {s : σ}, I s → (∀ c ∈ cs, Q c) →
      service (loop s) (opsAlong ops stepCall s cs) ⊆ returns s cs := by
  intro cs
  induction cs with
  | nil => exact fun _ _ => List.Subset.refl _
  | cons c cs ih =>
    intro s hs hQ
    have hc := hQ c List.mem_cons_self
    rw [opsAlong, service_append, ← hloop s c hs hc, returns]
    exact List.append_subset_of_subset_of_subset
      (List.subset_append_of_subset_left _ (hret s c hs hc))
      (List.subset_append_of_subset_right _
        (ih (hI s c hs hc) (fun d hd => hQ d (List.mem_cons_of_mem c hd))))

end Generic

/-! ## Round robin -/

section RoundRobin

variable {α : Type} [DecidableEq α]

/-- `m_tasks` and `m_prev`. -/
def roundRobinLoop (s : RoundRobin α) : ClosedLoop α :=
  ⟨s.tasks, s.prev⟩

/-- INTERNAL: `GetNext` advances the loop. -/
theorem roundRobinLoop_advance (s : RoundRobin α) :
    (roundRobinLoop s).advance = (s.getNext.1, roundRobinLoop s.getNext.2) := by
  unfold ClosedLoop.advance RoundRobin.getNext roundRobinLoop
  cases hprev : s.prev with
  | none => simp [hprev]
  | some c => rfl

/-- What a call that adds no task does to `m_tasks` and `m_prev`. -/
def roundRobinOps (s : RoundRobin α) (c : TaskView α × StrategyCall α) : List (Op α) :=
  match c.2 with
  | .getNext => [.advance]
  | .removeTask x => if x ∈ s.tasks then [.unlink x] else []
  | .onTaskSleep x => if c.1.sleeping x = true ∧ x ∈ s.tasks then [.unlink x] else []
  | .onTaskWake x => if c.1.sleeping x = false ∧ x ∈ s.sleep then [.linkBack x] else []
  | .addTask _ | .onTaskWeightChange _ _ => []

/-- The lists are well formed and hold only tasks of `U`. -/
def RoundRobinIn (U : Finset α) (s : RoundRobin α) : Prop :=
  RoundRobinWf s ∧ ∀ x, x ∈ s.tasks ∨ x ∈ s.sleep → x ∈ U

/-- INTERNAL: the call `c` keeps the lists in order and acts on the loop by `roundRobinOps`. -/
structure RoundRobinCall (U : Finset α) (s : RoundRobin α) (c : TaskView α × StrategyCall α) :
    Prop where
  keeps : RoundRobinIn U (stepCall s c)
  loop : roundRobinLoop (stepCall s c) = (roundRobinOps s c).foldl Op.apply (roundRobinLoop s)
  admissible : Admissibles U (roundRobinLoop s) (roundRobinOps s c)
  returned : service (roundRobinLoop s) (roundRobinOps s c) ⊆ Analysis.returned s c

namespace RoundRobinIn

variable {U : Finset α} {s : RoundRobin α} {v : TaskView α}

/-- INTERNAL: a call that returns no task and acts on the loop by `ops`. -/
theorem acts {c : StrategyCall α} {s' : RoundRobin α} {ops : List (Op α)}
    (hstep : stepCall s (v, c) = s') (hops : roundRobinOps s (v, c) = ops)
    (hin : RoundRobinIn U s') (hloop : roundRobinLoop s' = ops.foldl Op.apply (roundRobinLoop s))
    (hadm : Admissibles U (roundRobinLoop s) ops) (hserve : service (roundRobinLoop s) ops = []) :
    RoundRobinCall U s (v, c) where
  keeps := hstep ▸ hin
  loop := by rw [hstep, hops, hloop]
  admissible := by rw [hops]; exact hadm
  returned := by rw [hops, hserve]; exact List.nil_subset _

theorem getNext (h : RoundRobinIn U s) : RoundRobinCall U s (v, .getNext) := by
  obtain ⟨hwf, htasks, hsleep, -⟩ := roundRobin_getNext h.1
  have hstep : stepCall s (v, .getNext) = s.getNext.2 := rfl
  have hret : returned s (v, .getNext) = s.getNext.1.toList := rfl
  have hadvance := roundRobinLoop_advance s
  refine ⟨⟨hstep ▸ hwf, fun x hx => h.2 x ?_⟩, ?_, ?_, ?_⟩
  · rwa [hstep, htasks, hsleep] at hx
  · rw [hstep]
    simp [roundRobinOps, Op.apply, hadvance]
  · exact ⟨trivial, trivial⟩
  · rw [hret]
    simp [roundRobinOps, service, Op.served, hadvance]

theorem removeTask (h : RoundRobinIn U s) (x : α) : RoundRobinCall U s (v, .removeTask x) := by
  by_cases hrun : x ∈ s.tasks
  · have hok : s.removeTask x = .ok (s.removeActive x) := by rw [RoundRobin.removeTask, if_pos hrun]
    have hstep := stepCall_ok (v := v) (s := s) (c := .removeTask x) rfl hok
    exact acts hstep (if_pos hrun) ⟨⟨h.1.loop.unlink hrun, nodup_erase_run h.1.nodup⟩,
      fun y hy => h.2 y (hy.imp_left List.mem_of_mem_erase)⟩ rfl ⟨hrun, trivial⟩ rfl
  · by_cases hslp : x ∈ s.sleep
    · have hok : s.removeTask x = .ok { s with sleep := s.sleep.erase x } := by
        rw [RoundRobin.removeTask, if_neg hrun, if_pos hslp]
      have hstep := stepCall_ok (v := v) (s := s) (c := .removeTask x) rfl hok
      exact acts hstep (if_neg hrun) ⟨⟨h.1.loop, nodup_erase_sleep h.1.nodup⟩,
        fun y hy => h.2 y (hy.imp_right List.mem_of_mem_erase)⟩ rfl trivial rfl
    · have hfail : s.removeTask x = .error .removeTaskHead := by
        rw [RoundRobin.removeTask, if_neg hrun, if_neg hslp]
      have hstep := stepCall_error (v := v) (s := s) (c := .removeTask x) rfl hfail
      exact acts hstep (if_neg hrun) h rfl trivial rfl

theorem onTaskSleep (h : RoundRobinIn U s) (x : α) : RoundRobinCall U s (v, .onTaskSleep x) := by
  by_cases hcond : v.sleeping x = true ∧ x ∈ s.tasks
  · have hok : s.onTaskSleep v x =
        .ok { s.removeActive x with sleep := (s.removeActive x).sleep ++ [x] } := by
      rw [RoundRobin.onTaskSleep, if_neg (by simp [hcond.1]), if_neg (by simp [hcond.2])]
    have hstep := stepCall_ok (v := v) (s := s) (c := .onTaskSleep x) rfl hok
    refine acts hstep (if_pos hcond)
      ⟨⟨h.1.loop.unlink hcond.2, nodup_sleep h.1.nodup hcond.2⟩, fun y hy => h.2 y ?_⟩ rfl
      ⟨hcond.2, trivial⟩ rfl
    rcases hy with hy | hy
    · exact Or.inl (List.mem_of_mem_erase hy)
    · rcases List.mem_append.mp hy with hy | hy
      · exact Or.inr hy
      · exact Or.inl (List.mem_singleton.mp hy ▸ hcond.2)
  · have hfail : ∃ f, s.onTaskSleep v x = .error f := by
      unfold RoundRobin.onTaskSleep
      split
      · exact ⟨_, rfl⟩
      · next hs =>
        have hrun : x ∉ s.tasks := fun hrun => hcond ⟨by simpa using hs, hrun⟩
        exact ⟨_, if_pos hrun⟩
    obtain ⟨f, hfail⟩ := hfail
    have hstep := stepCall_error (v := v) (s := s) (c := .onTaskSleep x) rfl hfail
    exact acts hstep (if_neg hcond) h rfl trivial rfl

theorem onTaskWake (h : RoundRobinIn U s) (x : α) : RoundRobinCall U s (v, .onTaskWake x) := by
  by_cases hcond : v.sleeping x = false ∧ x ∈ s.sleep
  · have hrun : x ∉ s.tasks := fun hmem => List.disjoint_of_nodup_append h.1.nodup hmem hcond.2
    have hok : s.onTaskWake v x =
        .ok (RoundRobin.addActive { s with sleep := s.sleep.erase x } x) := by
      rw [RoundRobin.onTaskWake, if_neg (by simp [hcond.1]), if_neg (by simp [hcond.2])]
    have hloop : roundRobinLoop (RoundRobin.addActive { s with sleep := s.sleep.erase x } x) =
        (roundRobinLoop s).linkBack x := addActive_loop x
    have hwf : (roundRobinLoop (RoundRobin.addActive { s with sleep := s.sleep.erase x } x)).Wf := by
      rw [hloop]
      exact h.1.loop.linkBack hrun
    have hstep := stepCall_ok (v := v) (s := s) (c := .onTaskWake x) rfl hok
    refine acts hstep (if_pos hcond)
      ⟨⟨hwf, nodup_wake h.1.nodup hcond.2⟩, fun y hy => h.2 y ?_⟩ hloop
      ⟨⟨hrun, h.2 x (Or.inr hcond.2)⟩, trivial⟩ rfl
    rcases hy with hy | hy
    · rcases List.mem_append.mp hy with hy | hy
      · exact Or.inl hy
      · exact Or.inr (List.mem_singleton.mp hy ▸ hcond.2)
    · exact Or.inr (List.mem_of_mem_erase hy)
  · have hfail : ∃ f, s.onTaskWake v x = .error f := by
      unfold RoundRobin.onTaskWake
      split
      · exact ⟨_, rfl⟩
      · next hs =>
        have hslp : x ∉ s.sleep := fun hslp => hcond ⟨by simpa using hs, hslp⟩
        exact ⟨_, if_pos hslp⟩
    obtain ⟨f, hfail⟩ := hfail
    have hstep := stepCall_error (v := v) (s := s) (c := .onTaskWake x) rfl hfail
    exact acts hstep (if_neg hcond) h rfl trivial rfl

/-- INTERNAL: what a call that adds no task does. -/
theorem call (h : RoundRobinIn U s) {c : TaskView α × StrategyCall α} (hc : ¬ AddsTask c) :
    RoundRobinCall U s c := by
  obtain ⟨v, c⟩ := c
  cases c with
  | addTask x => exact absurd ⟨x, rfl⟩ hc
  | removeTask x => exact h.removeTask x
  | getNext => exact h.getNext
  | onTaskSleep x => exact h.onTaskSleep x
  | onTaskWake x => exact h.onTaskWake x
  | onTaskWeightChange x w => exact acts rfl rfl h rfl trivial rfl

end RoundRobinIn

/-- INTERNAL: every call keeps the lists well formed. -/
theorem roundRobinWf_stepCall {s : RoundRobin α} (h : RoundRobinWf s)
    (c : TaskView α × StrategyCall α) : RoundRobinWf (stepCall s c) := by
  by_cases hc : AddsTask c
  · obtain ⟨v, c⟩ := c
    obtain ⟨x, rfl⟩ : ∃ x, c = .addTask x := hc
    by_cases hnew : x ∈ s.tasks ∨ x ∈ s.sleep
    · have hfail : s.addTask x = .error .addTaskHead := if_pos hnew
      rw [stepCall_error (v := v) (c := .addTask x) rfl hfail]
      exact h
    · rw [not_or] at hnew
      obtain ⟨s', hok, hwf, -⟩ := roundRobin_addTask h hnew.1 hnew.2
      rw [stepCall_ok (v := v) (c := .addTask x) rfl hok]
      exact hwf
  · have hin : RoundRobinIn (s.tasks ++ s.sleep).toFinset s := ⟨h, fun x hx => by simpa using hx⟩
    exact (hin.call hc).keeps.1

/-- The lists are well formed after every history of calls. -/
theorem roundRobinWf_replay (cs : List (TaskView α × StrategyCall α)) :
    RoundRobinWf (replay cs : RoundRobin α) :=
  Runs.foldl_keeps (fun _ c _ h => roundRobinWf_stepCall h c) ⟨ClosedLoop.Wf.empty, List.nodup_nil⟩

end RoundRobin

/-- INTERNAL: the kernel with `SwitchStrategyRoundRobin`. -/
theorem roundRobin_servedInTurn {n : ℕ} (k : Kernel n (RoundRobin (Fin n))) :
    ServedInTurn roundRobinLoop roundRobinOps k := by
  intro pre win post _ hadd t hstay hturn hcard
  have hwf : RoundRobinWf (replay pre : RoundRobin (Fin n)) := roundRobinWf_replay pre
  generalize (replay pre : RoundRobin (Fin n)) = s at hwf hstay hturn hcard ⊢
  have hin : RoundRobinIn (s.tasks ++ s.sleep).toFinset s := ⟨hwf, fun x hx => by simpa using hx⟩
  have hsize : (s.tasks ++ s.sleep).toFinset.card ≤ SwitchStrategy.getSize s := by
    refine (List.toFinset_card_le _).trans (le_of_eq ?_)
    simp [SwitchStrategy.getSize, RoundRobin.getSize]
  refine service_subset_returns roundRobinLoop roundRobinOps
    (I := RoundRobinIn (s.tasks ++ s.sleep).toFinset) (fun s c h hc => (h.call hc).keeps) (fun s c h hc => (h.call hc).loop)
    (fun s c h hc => (h.call hc).returned) hin hadd ?_
  exact served_along (I := RoundRobinIn (s.tasks ++ s.sleep).toFinset)
    (fun s c h hc => (h.call hc).keeps) (fun s c h hc => (h.call hc).loop)
    (fun s c h hc => (h.call hc).admissible) hin hwf.loop (fun y hy => hin.2 y (Or.inl hy)) hadd hstay
    hturn (hsize.trans hcard)

/-! ## One level of fixed priority -/

section FixedPriority

variable {P : ℕ} {α : Type}

/-- The levels are closed loops, below `P`, and no task is in two lists. -/
structure LevelsWf (s : FixedPriority P α) : Prop where
  level : ∀ p, (s.level p).Wf
  bound : ∀ p t, t ∈ s.tasks p → p < P
  unique : ∀ p q t, t ∈ s.tasks p → t ∈ s.tasks q → p = q
  disjoint : ∀ p t, t ∈ s.tasks p → t ∉ s.sleep
  sleep_nodup : s.sleep.Nodup

namespace LevelsWf

variable {s : FixedPriority P α} {v : TaskView α} {x : α}

/-- INTERNAL: a task that is in no list joins a level below `P`. -/
theorem addActive (h : LevelsWf s) (hprio : FixedPriority.getTaskPriority v x < P)
    (hnew : ∀ p, x ∉ s.tasks p) (hsleep : x ∉ s.sleep) : LevelsWf (s.addActive v x) where
  level p := by
    rw [FixedPriority.addActive_level (h.level _)]
    split
    · exact (h.level p).linkBack (hnew p)
    · exact h.level p
  bound p t ht := by
    rcases FixedPriority.mem_addActive.mp ht with ht | ⟨-, rfl⟩
    · exact h.bound p t ht
    · exact hprio
  unique p q t hp hq := by
    rcases FixedPriority.mem_addActive.mp hp with hp' | ⟨rfl, rfl⟩
    · rcases FixedPriority.mem_addActive.mp hq with hq' | ⟨rfl, -⟩
      · exact h.unique p q t hp' hq'
      · exact absurd hp' (hnew p)
    · rcases FixedPriority.mem_addActive.mp hq with hq' | ⟨-, rfl⟩
      · exact absurd hq' (hnew q)
      · rfl
  disjoint p t ht := by
    rw [FixedPriority.addActive_sleep]
    rcases FixedPriority.mem_addActive.mp ht with ht | ⟨rfl, -⟩
    · exact h.disjoint p t ht
    · exact hsleep
  sleep_nodup := by
    rw [FixedPriority.addActive_sleep]
    exact h.sleep_nodup

theorem setSleep (h : LevelsWf s) {l : List α} (hl : l.Nodup) (hdisj : ∀ p t, t ∈ s.tasks p → t ∉ l) :
    LevelsWf ({ s with sleep := l } : FixedPriority P α) :=
  ⟨h.level, h.bound, h.unique, hdisj, hl⟩

/-- INTERNAL: the cursor of a level may be put on any of its members. -/
theorem setPrev (h : LevelsWf s) {prio : ℕ} {c : α} (hc : c ∈ s.tasks prio) :
    LevelsWf ({ s with prev := Function.update s.prev prio (some c) } : FixedPriority P α) where
  level p := by
    by_cases hp : p = prio
    · subst hp
      refine ⟨(h.level p).nodup, by simp [FixedPriority.level], fun d hd => ?_⟩
      obtain rfl : c = d := by simpa [FixedPriority.level] using hd
      exact hc
    · have hlevel := h.level p
      simpa [FixedPriority.level, hp] using hlevel
  bound := h.bound
  unique := h.unique
  disjoint := h.disjoint
  sleep_nodup := h.sleep_nodup

variable [DecidableEq α]

theorem mem_removeActive (h : LevelsWf s) {prio : ℕ} (hx : x ∈ s.tasks prio) {p : ℕ} {t : α} :
    t ∈ (s.removeActive x prio).tasks p ↔ t ∈ s.tasks p ∧ t ≠ x := by
  rw [FixedPriority.removeActive_tasks]
  by_cases hp : p = prio
  · subst hp
    have hnd : (s.tasks p).Nodup := (h.level p).nodup
    rw [Function.update_self, hnd.mem_erase_iff, and_comm]
  · rw [Function.update_of_ne hp]
    refine ⟨fun ht => ⟨ht, ?_⟩, fun ht => ht.1⟩
    rintro rfl
    exact hp (h.unique p prio t ht hx)

/-- INTERNAL: a task leaves its level. -/
theorem removeActive (h : LevelsWf s) {prio : ℕ} (hx : x ∈ s.tasks prio) :
    LevelsWf (s.removeActive x prio) where
  level p := by
    rw [FixedPriority.removeActive_level]
    split
    · next hp => exact (h.level p).unlink (hp ▸ hx)
    · exact h.level p
  bound p t ht := h.bound p t ((h.mem_removeActive hx).mp ht).1
  unique p q t hp hq :=
    h.unique p q t ((h.mem_removeActive hx).mp hp).1 ((h.mem_removeActive hx).mp hq).1
  disjoint p t ht := by
    rw [FixedPriority.removeActive_sleep]
    exact h.disjoint p t ((h.mem_removeActive hx).mp ht).1
  sleep_nodup := by
    rw [FixedPriority.removeActive_sleep]
    exact h.sleep_nodup

end LevelsWf

variable [DecidableEq α]

/-- `GetNext` selects level `p`. -/
def SelectsLevel (p : ℕ) (s : FixedPriority P α) : Prop :=
  s.readyBitmap ≠ 0 ∧ getHighestReadyPriority s.readyBitmap = p

instance (p : ℕ) (s : FixedPriority P α) : Decidable (SelectsLevel p s) :=
  inferInstanceAs (Decidable (_ ∧ _))

/-- `OnTaskWeightChange` of `x` succeeds and finds it runnable. -/
def MovesLevel (v : TaskView α) (s : FixedPriority P α) (x : α) (oldWeight : ℤ) : Prop :=
  FixedPriority.getTaskPriority v x < P ∧ getTaskPriorityFromWeight oldWeight < P ∧ x ∉ s.sleep ∧
    x ∈ s.tasks (getTaskPriorityFromWeight oldWeight)

instance (v : TaskView α) (s : FixedPriority P α) (x : α) (w : ℤ) : Decidable (MovesLevel v s x w) :=
  inferInstanceAs (Decidable (_ ∧ _ ∧ _ ∧ _))

/-- What a call that adds no task does to `m_tasks[p]` and `m_prev[p]`. -/
def levelOps (p : ℕ) (s : FixedPriority P α) (c : TaskView α × StrategyCall α) : List (Op α) :=
  match c.2 with
  | .getNext => if SelectsLevel p s then [.advance] else []
  | .removeTask x =>
    if x ∉ s.sleep ∧ FixedPriority.getTaskPriority c.1 x = p ∧ x ∈ s.tasks p then [.unlink x] else []
  | .onTaskSleep x =>
    if c.1.sleeping x = true ∧ FixedPriority.getTaskPriority c.1 x = p ∧ x ∈ s.tasks p then
      [.unlink x] else []
  | .onTaskWake x =>
    if c.1.sleeping x = false ∧ x ∈ s.sleep ∧ FixedPriority.getTaskPriority c.1 x = p then
      [.linkBack x] else []
  | .onTaskWeightChange x w =>
    if MovesLevel c.1 s x w then
      (if getTaskPriorityFromWeight w = p then [.unlink x] else []) ++
        (if FixedPriority.getTaskPriority c.1 x = p then [.linkBack x] else [])
    else []
  | .addTask _ => []

/-- The weight of a task that wakes up is one of the priorities, as `AddTask` and
`OnTaskWeightChange` assert. -/
def WakesInRange (P : ℕ) (c : TaskView α × StrategyCall α) : Prop :=
  ∀ x, c.2 = .onTaskWake x → FixedPriority.getTaskPriority c.1 x < P

/-- The lists are well formed and hold only tasks of `U`. -/
def LevelsIn (U : Finset α) (s : FixedPriority P α) : Prop :=
  LevelsWf s ∧ ∀ x, (∃ p, x ∈ s.tasks p) ∨ x ∈ s.sleep → x ∈ U

/-- INTERNAL: the call `c` keeps the lists in order and acts on level `p` by `levelOps`. -/
structure LevelCall (U : Finset α) (p : ℕ) (s : FixedPriority P α)
    (c : TaskView α × StrategyCall α) : Prop where
  keeps : LevelsIn U (stepCall s c)
  loop : (stepCall s c).level p = (levelOps p s c).foldl Op.apply (s.level p)
  admissible : Admissibles U (s.level p) (levelOps p s c)
  returned : service (s.level p) (levelOps p s c) ⊆ Analysis.returned s c

namespace LevelsIn

variable {U : Finset α} {p : ℕ} {s : FixedPriority P α} {v : TaskView α}

/-- INTERNAL: a call that returns no task and acts on the level by `ops`. -/
theorem acts {c : StrategyCall α} {s' : FixedPriority P α} {ops : List (Op α)}
    (hstep : stepCall s (v, c) = s') (hops : levelOps p s (v, c) = ops)
    (hin : LevelsIn U s') (hloop : s'.level p = ops.foldl Op.apply (s.level p))
    (hadm : Admissibles U (s.level p) ops) (hserve : service (s.level p) ops = []) :
    LevelCall U p s (v, c) where
  keeps := hstep ▸ hin
  loop := by rw [hstep, hops, hloop]
  admissible := by rw [hops]; exact hadm
  returned := by rw [hops, hserve]; exact List.nil_subset _

theorem removeActive (h : LevelsIn U s) {x : α} {prio : ℕ} (hx : x ∈ s.tasks prio) :
    LevelsIn U (s.removeActive x prio) := by
  refine ⟨h.1.removeActive hx, fun y hy => h.2 y ?_⟩
  rw [FixedPriority.removeActive_sleep] at hy
  exact hy.imp_left (fun ⟨q, hq⟩ => ⟨q, ((h.1.mem_removeActive hx).mp hq).1⟩)

/-- INTERNAL: `RemoveActive` seen from level `p`. -/
theorem unlinks (s : FixedPriority P α) (x : α) (prio : ℕ) (sleep : List α) :
    FixedPriority.level ({ s.removeActive x prio with sleep := sleep } : FixedPriority P α) p =
      (if prio = p then [Op.unlink x] else []).foldl Op.apply (s.level p) := by
  have hlevel := FixedPriority.removeActive_level s x prio p
  refine Eq.trans (b := (s.removeActive x prio).level p) rfl ?_
  rw [hlevel]
  by_cases hp : prio = p
  · rw [if_pos hp.symm, if_pos hp]
    rfl
  · rw [if_neg (Ne.symm hp), if_neg hp]
    rfl

/-- INTERNAL: `AddActive` seen from level `p`. -/
theorem linksBack (h : LevelsWf s) (v : TaskView α) (x : α) :
    (s.addActive v x).level p = (if FixedPriority.getTaskPriority v x = p then [Op.linkBack x]
      else []).foldl Op.apply (s.level p) := by
  rw [FixedPriority.addActive_level (h.level _) p]
  by_cases hp : FixedPriority.getTaskPriority v x = p
  · rw [if_pos hp.symm, if_pos hp]
    rfl
  · rw [if_neg (Ne.symm hp), if_neg hp]
    rfl

/-- INTERNAL: the level after `unlinks`, for a member, is an admissible step. -/
theorem unlink_admissible {x : α} {prio : ℕ} (hx : x ∈ s.tasks prio) :
    Admissibles U (s.level p) (if prio = p then [.unlink x] else []) ∧
      service (s.level p) (if prio = p then [.unlink x] else []) = [] := by
  by_cases hp : prio = p
  · subst hp
    rw [if_pos rfl]
    exact ⟨⟨hx, trivial⟩, rfl⟩
  · rw [if_neg hp]
    exact ⟨trivial, rfl⟩

theorem getNext (h : LevelsIn U s) : LevelCall U p s (v, .getNext) := by
  by_cases hready : s.readyBitmap = 0
  · have hok : s.getNext = .ok (none, s) := by simp [FixedPriority.getNext, hready]
    have hstep : stepCall s (v, .getNext) = s := by
      simp only [stepCall, StrategyCall.apply, SwitchStrategy.getNext, hok]
    exact acts hstep (if_neg (fun hsel => hsel.1 hready)) h rfl trivial rfl
  · obtain ⟨prio, hprio⟩ : ∃ prio, getHighestReadyPriority s.readyBitmap = prio := ⟨_, rfl⟩
    cases hprev : s.prev prio with
    | none =>
      have hfail : s.getNext = .error .nullCursor := by
        unfold FixedPriority.getNext
        rw [if_pos hready]
        simp only [hprio, hprev]
      have hstep : stepCall s (v, .getNext) = s := by
        simp only [stepCall, StrategyCall.apply, SwitchStrategy.getNext, hfail]
      by_cases hsel : SelectsLevel p s
      · obtain rfl := hprio.symm.trans hsel.2
        have hcursor : (s.level prio).cursor = none := hprev
        exact acts hstep (if_pos hsel) h (by simp [Op.apply, ClosedLoop.advance, hcursor])
          ⟨trivial, trivial⟩ (by simp [service, Op.served, ClosedLoop.advance, hcursor])
      · exact acts hstep (if_neg hsel) h rfl trivial rfl
    | some c =>
      have hnext : succ (s.tasks prio) c ∈ s.tasks prio :=
        ClosedLoop.succ_mem ((h.1.level prio).cursor_mem c hprev) (h.1.level prio).nodup
      have hok : s.getNext = .ok (some (succ (s.tasks prio) c),
          { s with prev := Function.update s.prev prio (some (succ (s.tasks prio) c)) }) := by
        unfold FixedPriority.getNext
        rw [if_pos hready]
        simp only [hprio, hprev]
      have hin := (⟨h.1.setPrev hnext, h.2⟩ : LevelsIn U ({ s with
        prev := Function.update s.prev prio (some (succ (s.tasks prio) c)) } : FixedPriority P α))
      have hstep : stepCall s (v, .getNext) =
          { s with prev := Function.update s.prev prio (some (succ (s.tasks prio) c)) } := by
        simp only [stepCall, StrategyCall.apply, SwitchStrategy.getNext, hok]
      by_cases hp : prio = p
      · subst hp
        have hops : levelOps prio s (v, .getNext) = [.advance] := if_pos ⟨hready, hprio⟩
        have hret : returned s (v, .getNext) = [succ (s.tasks prio) c] := by
          simp only [returned, StrategyCall.apply, SwitchStrategy.getNext, hok, Option.toList_some]
        have hadvance : (s.level prio).advance = (some (succ (s.tasks prio) c),
            ⟨s.tasks prio, some (succ (s.tasks prio) c)⟩) := by
          simp [ClosedLoop.advance, FixedPriority.level, hprev]
        refine ⟨hstep ▸ hin, ?_, ?_, ?_⟩
        · rw [hstep, hops, List.foldl_cons, List.foldl_nil, Op.apply, hadvance]
          simp [FixedPriority.level]
        · rw [hops]
          exact ⟨trivial, trivial⟩
        · rw [hops, hret]
          simp [service, Op.served, hadvance]
      · have hsel : ¬ SelectsLevel p s := fun hsel => hp (hprio.symm.trans hsel.2)
        refine acts hstep (if_neg hsel) hin ?_ trivial rfl
        have hne : p ≠ prio := Ne.symm hp
        simp [FixedPriority.level, hne]

theorem removeTask (h : LevelsIn U s) (x : α) : LevelCall U p s (v, .removeTask x) := by
  by_cases hslp : x ∈ s.sleep
  · have hok : s.removeTask v x = .ok { s with sleep := s.sleep.erase x } := by
      simp [FixedPriority.removeTask, hslp]
    have hstep := stepCall_ok (v := v) (s := s) (c := .removeTask x) rfl hok
    refine acts hstep (if_neg (fun hcond => hcond.1 hslp)) ⟨h.1.setSleep (h.1.sleep_nodup.erase x)
      (fun q t ht hmem => h.1.disjoint q t ht (List.mem_of_mem_erase hmem)), fun y hy => h.2 y ?_⟩ rfl
      trivial rfl
    exact hy.imp_right List.mem_of_mem_erase
  · by_cases hrun : x ∈ s.tasks (FixedPriority.getTaskPriority v x)
    · have hok : s.removeTask v x = .ok (s.removeActive x (FixedPriority.getTaskPriority v x)) := by
        simp [FixedPriority.removeTask, hslp, hrun]
      have hstep := stepCall_ok (v := v) (s := s) (c := .removeTask x) rfl hok
      have hops : levelOps p s (v, .removeTask x) =
          if FixedPriority.getTaskPriority v x = p then [.unlink x] else [] := by
        refine if_congr ⟨fun hcond => hcond.2.1, fun heq => ⟨hslp, heq, heq ▸ hrun⟩⟩ rfl rfl
      obtain ⟨hadm, hserve⟩ := unlink_admissible (U := U) (p := p) hrun
      have hloop := unlinks (p := p) s x (FixedPriority.getTaskPriority v x)
        (s.removeActive x (FixedPriority.getTaskPriority v x)).sleep
      exact acts hstep hops (h.removeActive hrun) hloop hadm hserve
    · have hfail : s.removeTask v x = .error .removeTaskHead := by
        simp [FixedPriority.removeTask, hslp, hrun]
      have hstep := stepCall_error (v := v) (s := s) (c := .removeTask x) rfl hfail
      have hops : levelOps p s (v, .removeTask x) = [] := by
        refine if_neg ?_
        rintro ⟨-, rfl, hmem⟩
        exact hrun hmem
      exact acts hstep hops h rfl trivial rfl

theorem onTaskSleep (h : LevelsIn U s) (x : α) : LevelCall U p s (v, .onTaskSleep x) := by
  by_cases hcond : v.sleeping x = true ∧ x ∈ s.tasks (FixedPriority.getTaskPriority v x)
  · obtain ⟨hs, hrun⟩ := hcond
    have hok : s.onTaskSleep v x = .ok { s.removeActive x (FixedPriority.getTaskPriority v x) with
        sleep := (s.removeActive x (FixedPriority.getTaskPriority v x)).sleep ++ [x] } := by
      simp [FixedPriority.onTaskSleep, hs, hrun]
    have hstep := stepCall_ok (v := v) (s := s) (c := .onTaskSleep x) rfl hok
    have hops : levelOps p s (v, .onTaskSleep x) =
        if FixedPriority.getTaskPriority v x = p then [.unlink x] else [] :=
      if_congr ⟨fun hcond => hcond.2.1, fun heq => ⟨hs, heq, heq ▸ hrun⟩⟩ rfl rfl
    obtain ⟨hadm, hserve⟩ := unlink_admissible (U := U) (p := p) hrun
    refine acts hstep hops ⟨(h.1.removeActive hrun).setSleep ?_ ?_, fun y hy => h.2 y ?_⟩
      (unlinks s x _ _) hadm hserve
    · rw [FixedPriority.removeActive_sleep]
      exact h.1.sleep_nodup.append (List.nodup_singleton x)
        (List.disjoint_singleton.mpr (h.1.disjoint _ x hrun))
    · intro q t ht hmem
      rw [FixedPriority.removeActive_sleep] at hmem
      obtain ⟨hold, hne⟩ := (h.1.mem_removeActive hrun).mp ht
      rcases List.mem_append.mp hmem with hmem | hmem
      · exact h.1.disjoint q t hold hmem
      · exact hne (List.mem_singleton.mp hmem)
    · rcases hy with ⟨q, hq⟩ | hy
      · exact Or.inl ⟨q, ((h.1.mem_removeActive hrun).mp hq).1⟩
      · rw [FixedPriority.removeActive_sleep] at hy
        rcases List.mem_append.mp hy with hy | hy
        · exact Or.inr hy
        · exact Or.inl ⟨_, List.mem_singleton.mp hy ▸ hrun⟩
  · have hfail : ∃ f, s.onTaskSleep v x = .error f := by
      unfold FixedPriority.onTaskSleep
      dsimp only
      split
      · exact ⟨_, rfl⟩
      · next hs =>
        have hrun : x ∉ s.tasks (FixedPriority.getTaskPriority v x) := fun hrun =>
          hcond ⟨by simpa using hs, hrun⟩
        exact ⟨_, if_pos hrun⟩
    obtain ⟨f, hfail⟩ := hfail
    have hstep := stepCall_error (v := v) (s := s) (c := .onTaskSleep x) rfl hfail
    have hops : levelOps p s (v, .onTaskSleep x) = [] := by
      refine if_neg ?_
      rintro ⟨hs, rfl, hmem⟩
      exact hcond ⟨hs, hmem⟩
    exact acts hstep hops h rfl trivial rfl

/-- INTERNAL: the level after `linksBack` of a task in no level is an admissible step. -/
theorem linkBack_admissible {x : α} (hnew : ∀ q, x ∉ s.tasks q) (hU : x ∈ U) :
    Admissibles U (s.level p)
      (if FixedPriority.getTaskPriority v x = p then [.linkBack x] else []) ∧
      service (s.level p) (if FixedPriority.getTaskPriority v x = p then [.linkBack x] else []) = [] := by
  split
  · exact ⟨⟨⟨hnew p, hU⟩, trivial⟩, rfl⟩
  · exact ⟨trivial, rfl⟩

theorem onTaskWake (h : LevelsIn U s) {x : α} (hrange : FixedPriority.getTaskPriority v x < P) :
    LevelCall U p s (v, .onTaskWake x) := by
  by_cases hcond : v.sleeping x = false ∧ x ∈ s.sleep
  · obtain ⟨hs, hslp⟩ := hcond
    have hnew : ∀ q, x ∉ s.tasks q := fun q hq => h.1.disjoint q x hq hslp
    have hok : s.onTaskWake v x =
        .ok (FixedPriority.addActive v { s with sleep := s.sleep.erase x } x) := by
      simp [FixedPriority.onTaskWake, hs, hslp]
    have hstep := stepCall_ok (v := v) (s := s) (c := .onTaskWake x) rfl hok
    have hout : LevelsWf ({ s with sleep := s.sleep.erase x } : FixedPriority P α) :=
      h.1.setSleep (h.1.sleep_nodup.erase x)
        (fun q t ht hmem => h.1.disjoint q t ht (List.mem_of_mem_erase hmem))
    have hops : levelOps p s (v, .onTaskWake x) =
        if FixedPriority.getTaskPriority v x = p then [.linkBack x] else [] :=
      if_congr ⟨fun hcond => hcond.2.2, fun heq => ⟨hs, hslp, heq⟩⟩ rfl rfl
    obtain ⟨hadm, hserve⟩ := linkBack_admissible (U := U) (p := p) (v := v) hnew (h.2 x (Or.inr hslp))
    refine acts hstep hops ⟨hout.addActive hrange hnew h.1.sleep_nodup.not_mem_erase, fun y hy => ?_⟩
      (linksBack hout v x) hadm hserve
    refine h.2 y ?_
    rcases hy with ⟨q, hq⟩ | hy
    · rcases FixedPriority.mem_addActive.mp hq with hq | ⟨rfl, -⟩
      · exact Or.inl ⟨q, hq⟩
      · exact Or.inr hslp
    · rw [FixedPriority.addActive_sleep] at hy
      exact Or.inr (List.mem_of_mem_erase hy)
  · have hfail : ∃ f, s.onTaskWake v x = .error f := by
      unfold FixedPriority.onTaskWake
      split
      · exact ⟨_, rfl⟩
      · next hs =>
        have hslp : x ∉ s.sleep := fun hslp => hcond ⟨by simpa using hs, hslp⟩
        exact ⟨_, if_pos hslp⟩
    obtain ⟨f, hfail⟩ := hfail
    have hstep := stepCall_error (v := v) (s := s) (c := .onTaskWake x) rfl hfail
    exact acts hstep (if_neg (fun hw => hcond ⟨hw.1, hw.2.1⟩)) h rfl trivial rfl

theorem onTaskWeightChange (h : LevelsIn U s) (x : α) (w : ℤ) :
    LevelCall U p s (v, .onTaskWeightChange x w) := by
  by_cases hmoves : MovesLevel v s x w
  · obtain ⟨hnew, hold, hslp, hrun⟩ := hmoves
    have hok : s.onTaskWeightChange v x w =
        .ok ((s.removeActive x (getTaskPriorityFromWeight w)).addActive v x) := by
      simp [FixedPriority.onTaskWeightChange, hnew, hold, hslp, hrun]
    have hstep := stepCall_ok (v := v) (s := s) (c := .onTaskWeightChange x w) rfl hok
    have hmid := h.removeActive hrun
    have hgone : ∀ q, x ∉ (s.removeActive x (getTaskPriorityFromWeight w)).tasks q :=
      fun q hq => ((h.1.mem_removeActive hrun).mp hq).2 rfl
    have hslp' : x ∉ (s.removeActive x (getTaskPriorityFromWeight w)).sleep := by
      rw [FixedPriority.removeActive_sleep]
      exact hslp
    have hloop := unlinks (p := p) s x (getTaskPriorityFromWeight w)
      (s.removeActive x (getTaskPriorityFromWeight w)).sleep
    obtain ⟨hadm, hserve⟩ := unlink_admissible (U := U) (p := p) hrun
    obtain ⟨hadm', hserve'⟩ := linkBack_admissible (U := U) (p := p) (v := v) hgone
      (h.2 x (Or.inl ⟨_, hrun⟩))
    refine acts hstep (if_pos ⟨hnew, hold, hslp, hrun⟩)
      ⟨hmid.1.addActive hnew hgone hslp', fun y hy => ?_⟩ ?_ (hadm.append (hloop ▸ hadm')) ?_
    · rcases hy with ⟨q, hq⟩ | hy
      · rcases FixedPriority.mem_addActive.mp hq with hq | ⟨rfl, -⟩
        · exact hmid.2 y (Or.inl ⟨q, hq⟩)
        · exact h.2 y (Or.inl ⟨_, hrun⟩)
      · rw [FixedPriority.addActive_sleep] at hy
        exact hmid.2 y (Or.inr hy)
    · rw [linksBack hmid.1 v x, List.foldl_append, ← hloop]
    · rw [service_append, hserve, ← hloop, List.nil_append]
      exact hserve'
  · have hsame : stepCall s (v, .onTaskWeightChange x w) = s := by
      unfold MovesLevel at hmoves
      simp only [stepCall, StrategyCall.apply, SwitchStrategy.onTaskWeightChange,
        FixedPriority.onTaskWeightChange]
      by_cases hnew : FixedPriority.getTaskPriority v x < P
      · by_cases hold : getTaskPriorityFromWeight w < P
        · by_cases hslp : x ∈ s.sleep
          · simp [hnew, hold, hslp, Except.map]
          · by_cases hrun : x ∈ s.tasks (getTaskPriorityFromWeight w)
            · exact absurd ⟨hnew, hold, hslp, hrun⟩ hmoves
            · simp [hnew, hold, hslp, hrun, Except.map]
        · simp [hnew, hold, Except.map]
      · simp [hnew, Except.map]
    exact acts hsame (if_neg hmoves) h rfl trivial rfl

/-- INTERNAL: what a call that adds no task does. -/
theorem call (h : LevelsIn U s) {c : TaskView α × StrategyCall α}
    (hc : ¬ AddsTask c ∧ WakesInRange P c) : LevelCall U p s c := by
  obtain ⟨v, c⟩ := c
  cases c with
  | addTask x => exact absurd ⟨x, rfl⟩ hc.1
  | removeTask x => exact h.removeTask x
  | getNext => exact h.getNext
  | onTaskSleep x => exact h.onTaskSleep x
  | onTaskWake x => exact h.onTaskWake (hc.2 x rfl)
  | onTaskWeightChange x w => exact h.onTaskWeightChange x w

end LevelsIn

/-- INTERNAL: the tasks that `GetSize` counts. -/
theorem LevelsWf.levelsIn {s : FixedPriority P α} (h : LevelsWf s) :
    LevelsIn (runnable s ++ asleep s).toFinset s := by
  refine ⟨h, fun x hx => ?_⟩
  rw [List.mem_toFinset, List.mem_append]
  refine hx.imp_left (fun ⟨p, hp⟩ => ?_)
  exact List.mem_flatten.mpr ⟨s.tasks p, List.mem_map.mpr ⟨p, List.mem_range.mpr (h.bound p x hp), rfl⟩,
    hp⟩

/-- INTERNAL: every call that wakes no task out of range keeps the lists well formed. -/
theorem levelsWf_stepCall {s : FixedPriority P α} (h : LevelsWf s) {c : TaskView α × StrategyCall α}
    (hc : WakesInRange P c) : LevelsWf (stepCall s c) := by
  by_cases hadd : AddsTask c
  · obtain ⟨v, c⟩ := c
    obtain ⟨x, rfl⟩ : ∃ x, c = .addTask x := hadd
    by_cases hlinked : s.linked x
    · have hfail : s.addTask v x = .error .addTaskHead := if_pos hlinked
      rw [stepCall_error (v := v) (c := .addTask x) rfl hfail]
      exact h
    · by_cases hprio : FixedPriority.getTaskPriority v x < P
      · obtain ⟨hslp, hrun⟩ := not_or.mp hlinked
        have hnew : ∀ p, x ∉ s.tasks p := fun p hp => hrun ⟨p, h.bound p x hp, hp⟩
        have hmem : x ∈ (s.addActive v x).tasks (FixedPriority.getTaskPriority v x) :=
          FixedPriority.mem_addActive.mpr (Or.inr ⟨rfl, rfl⟩)
        have hwf := h.addActive hprio hnew hslp
        obtain ⟨s', hok, hwf'⟩ : ∃ s', s.addTask v x = .ok s' ∧ LevelsWf s' := by
          refine ⟨_, by simp only [FixedPriority.addTask, hlinked, hprio, not_true_eq_false,
            ↓reduceIte]; rfl, ?_⟩
          split
          · exact hwf.setPrev hmem
          · exact hwf
        rw [stepCall_ok (v := v) (c := .addTask x) rfl hok]
        exact hwf'
      · have hfail : s.addTask v x = .error .weightRange := by
          simp [FixedPriority.addTask, hlinked, hprio]
        rw [stepCall_error (v := v) (c := .addTask x) rfl hfail]
        exact h
  · exact (h.levelsIn.call (p := 0) ⟨hadd, hc⟩).keeps.1

/-- The lists are well formed after every history of calls that wakes no task out of range. -/
theorem levelsWf_replay {cs : List (TaskView α × StrategyCall α)} (hcs : ∀ c ∈ cs, WakesInRange P c) :
    LevelsWf (replay cs : FixedPriority P α) := by
  refine Runs.foldl_keeps (fun s c hc h => levelsWf_stepCall h (hcs c hc)) ?_
  exact ⟨fun _ => ClosedLoop.Wf.empty, by simp [SwitchStrategy.empty], by simp [SwitchStrategy.empty],
    by simp [SwitchStrategy.empty], by simp [SwitchStrategy.empty]⟩

end FixedPriority

/-- INTERNAL: the kernel with `SwitchStrategyFixedPriority`, at one level. -/
theorem fixedPriority_servedInTurn {n P : ℕ} (k : Kernel n (FixedPriority P (Fin n)))
    (hrange : ∀ c ∈ k.calls, WakesInRange P c) (p : ℕ) :
    ServedInTurn (fun s : FixedPriority P (Fin n) => s.level p) (levelOps p) k := by
  intro pre win post hcalls hadd t hstay hturn hcard
  rw [hcalls] at hrange
  have hwf : LevelsWf (replay pre : FixedPriority P (Fin n)) :=
    levelsWf_replay (fun c hc => hrange c (by simp [hc]))
  have hwin : ∀ c ∈ win, ¬ AddsTask c ∧ WakesInRange P c :=
    fun c hc => ⟨hadd c hc, hrange c (by simp [hc])⟩
  generalize (replay pre : FixedPriority P (Fin n)) = s at hwf hstay hturn hcard ⊢
  have hin := hwf.levelsIn
  have hsize : (runnable s ++ asleep s).toFinset.card ≤ SwitchStrategy.getSize s := by
    refine (List.toFinset_card_le _).trans (le_of_eq ?_)
    rw [List.length_append]
    exact (fixedPriority_getSize s).symm
  refine service_subset_returns (fun s : FixedPriority P (Fin n) => s.level p) (levelOps p)
    (I := LevelsIn (runnable s ++ asleep s).toFinset)
    (fun s c h hc => (h.call (p := p) hc).keeps) (fun s c h hc => (h.call hc).loop)
    (fun s c h hc => (h.call hc).returned) hin hwin ?_
  exact served_along (I := LevelsIn (runnable s ++ asleep s).toFinset)
    (fun s c h hc => (h.call (p := p) hc).keeps) (fun s c h hc => (h.call hc).loop)
    (fun s c h hc => (h.call hc).admissible) hin (hwf.level p)
    (fun y hy => hin.2 y (Or.inl ⟨p, hy⟩)) hwin hstay hturn (hsize.trans hcard)

/-- **Bounded bypass.**  After every run of the kernel in which no assertion of the strategy has
failed, the history of the strategy's calls leads to its state, and in it a task that stays runnable
and keeps its turn is returned within as many `GetNext` calls as there are tasks: with round robin,
and with fixed priority within each level by the calls that select it. -/
theorem run_servedInTurn (n P : ℕ) (cfg : Config) (es : List (KernelEvent n)) :
    (StrategySound (Kernel.run cfg es : Kernel n (RoundRobin (Fin n))) →
      Replayed (Kernel.run cfg es : Kernel n (RoundRobin (Fin n))) ∧
        ServedInTurn roundRobinLoop roundRobinOps (Kernel.run cfg es : Kernel n (RoundRobin (Fin n)))) ∧
    (StrategySound (Kernel.run cfg es : Kernel n (FixedPriority P (Fin n))) →
      Replayed (Kernel.run cfg es : Kernel n (FixedPriority P (Fin n))) ∧
        ((∀ c ∈ (Kernel.run cfg es : Kernel n (FixedPriority P (Fin n))).calls, WakesInRange P c) →
          ∀ p, ServedInTurn (fun s : FixedPriority P (Fin n) => s.level p) (levelOps p)
            (Kernel.run cfg es : Kernel n (FixedPriority P (Fin n))))) := by
  constructor
  · intro _
    exact ⟨run_replayed cfg es, roundRobin_servedInTurn _⟩
  · intro _
    exact ⟨run_replayed cfg es, fun hrange p => fixedPriority_servedInTurn _ hrange p⟩

/-- Three tasks, of which the one in slot 1 sleeps for a while. -/
def sleepingTask : List (KernelEvent 3) :=
  [.addTask 0, .addTask 1, .addTask 2, .onStart, .onTick 1, .sleep 1 2, .onTick 1, .onTick 1,
    .onTick 1, .onTick 1]

/-- From the sleep of task 1 on, task 0 keeps its turn and is returned. -/
theorem sleepingTask_served :
    let k : Kernel 3 (RoundRobin (Fin 3)) := Kernel.run syncConfig sleepingTask
    StrategySound k ∧ TurnsKept roundRobinLoop roundRobinOps stepCall 0 [] (replay (k.calls.take 5)) (k.calls.drop 5) ∧
      0 ∈ returns (replay (k.calls.take 5) : RoundRobin (Fin 3)) (k.calls.drop 5) := by
  intro k
  have hturn : TurnsKept roundRobinLoop roundRobinOps stepCall 0 []
      (replay (k.calls.take 5)) (k.calls.drop 5) := by decide +kernel
  have hsound : StrategySound k := by decide +kernel
  refine ⟨hsound, hturn, ((run_servedInTurn 3 32 syncConfig sleepingTask).1 hsound).2 (k.calls.take 5) (k.calls.drop 5) []
    ?_ ?_ 0 ?_ hturn ?_⟩
  · rw [List.append_nil]
    exact (List.take_append_drop 5 _).symm
  · decide +kernel
  · decide +kernel
  · decide +kernel

/-- Three tasks; those in slots 1 and 2 yield whenever they run. -/
def yieldingTasks : List (KernelEvent 3) :=
  [.addTask 0, .addTask 1, .addTask 2, .onStart, .onTick 1, .switchToNext 1, .onTick 1,
    .switchToNext 2, .onTick 1, .switchToNext 1, .onTick 1, .switchToNext 2, .onTick 1]

/-- Task 0 stays runnable during five `GetNext` calls and none of them returns it. -/
theorem yieldingTasks_starve :
    let k : Kernel 3 (RoundRobin (Fin 3)) := Kernel.run syncConfig yieldingTasks
    ∃ pre win, k.calls = pre ++ win ∧ (∀ c ∈ win, ¬ AddsTask c) ∧
      StaysMember roundRobinLoop stepCall 0 (replay pre : RoundRobin (Fin 3)) win ∧
      SwitchStrategy.getSize (replay pre : RoundRobin (Fin 3)) = 3 ∧
      advances (opsAlong roundRobinOps stepCall (replay pre) win) = 5 ∧
      0 ∉ returns (replay pre : RoundRobin (Fin 3)) win := by
  intro k
  refine ⟨k.calls.take 4, k.calls.drop 4, (List.take_append_drop 4 _).symm, ?_, ?_, ?_, ?_, ?_⟩
  · decide +kernel
  · decide +kernel
  · decide +kernel
  · decide +kernel
  · decide +kernel

end Stk.Analysis
