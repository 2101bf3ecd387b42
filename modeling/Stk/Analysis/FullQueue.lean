import Stk.Analysis.StrategyListInvariant
import Stk.Model.Pipe

/-!
# Full queues and pipes

On a full buffer, `Put`, `PutFront`, `Write` and `WriteBulk` with `NO_WAIT` fail and change nothing.
The bound on `m_count` that the first three assert at their entry is one below `CAPACITY_MAX`, so
that with the largest capacity the constructor admits the assertion fails whenever the buffer is
full (`full_rejects`).
-/

set_option autoImplicit false

namespace Stk.Analysis

open Stk.Model

variable {n capacity msgSize elementSize : ℕ} {σ : Type} [SwitchStrategy (Fin n) σ] {cfg : Config}

/-- The call, by a task or in an interrupt handler, passes the assertion at its entry, fails and leaves
the queue and the kernel as they are. -/
def QueueRejects (cfg : Config) (s : QueueSystem n capacity msgSize σ) (op : QueueOp msgSize) : Prop :=
  op.entryAssert s.queue = true ∧ s.stepResult cfg (.isr op) = (s, some ⟨false, none⟩) ∧
    ∀ i, s.kernel.canCall i = true → s.stepResult cfg (.call i op noWait) = (s, some ⟨false, none⟩)

/-- The same of a call of a pipe that returns `r`. -/
def PipeRejects (cfg : Config)
    (s : MonitorSystem n (Pipe capacity elementSize) (PipeFrame (Element elementSize) UInt8 Unit) σ)
    (op : PipeOp (Element elementSize) UInt8 Unit) (r : PipeReturn (Element elementSize) UInt8) : Prop :=
  op.entryAssert s.state = true ∧ s.stepResult cfg (.isr op) = (s, some r) ∧
    ∀ i, s.kernel.canCall i = true → (s.stepResult cfg (.call i op)).2 = some r ∧
      (s.stepResult cfg (.call i op)).1.state = s.state ∧ (s.stepResult cfg (.call i op)).1.kernel = s.kernel

/-- INTERNAL: with `NO_WAIT`, a method that finds its condition unmet fails. -/
theorem queue_fails {s : QueueSystem n capacity msgSize σ} {op : QueueOp msgSize}
    (hblocked : op.isBlocked s.queue = true) :
    s.stepResult cfg (.isr op) = (s, some ⟨false, none⟩) ∧
      ∀ i, s.kernel.canCall i = true → s.stepResult cfg (.call i op noWait) = (s, some ⟨false, none⟩) := by
  have hattempt : s.attempt op = none := if_pos hblocked
  constructor
  · simp only [QueueSystem.stepResult, hattempt]
  · intro i hcall
    have hrun : (s.kernel.canCall i && decide (noWait ≤ waitInfinite)) = true := by
      rw [hcall]
      rfl
    have hzero : ¬ noWait ≠ 0 := fun hne => hne rfl
    simp only [QueueSystem.stepResult]
    rw [if_pos hrun]
    unfold QueueSystem.enter
    rw [hattempt]
    dsimp only
    rw [if_neg hzero]

/-- INTERNAL: a stretch of a pipe that only returns changes nothing. -/
theorem pipe_fails (hmode : cfg.isSyncMode = true)
    {s : MonitorSystem n (Pipe capacity elementSize) (PipeFrame (Element elementSize) UInt8 Unit) σ}
    {op : PipeOp (Element elementSize) UInt8 Unit} {r : PipeReturn (Element elementSize) UInt8}
    (hstretch : PipeStorage.call s.kernel.ticks s.state op = ⟨s.state, [], .done r⟩) :
    s.stepResult cfg (.isr op) = (s, some r) ∧
    ∀ i, s.kernel.canCall i = true → (s.stepResult cfg (.call i op)).2 = some r ∧
      (s.stepResult cfg (.call i op)).1.state = s.state ∧
      (s.stepResult cfg (.call i op)).1.kernel = s.kernel := by
  have hcall : Monitor.call s.kernel.ticks s.state op = ⟨s.state, [], .done r⟩ := hstretch
  constructor
  · have hisr : s.stretch cfg (.isr op) = some ⟨s.state, [], .done r⟩ := by
      simp only [MonitorSystem.stretch, hcall, hmode, if_true]
    simp only [MonitorSystem.stepResult, hisr]
    rfl
  · intro i hrun
    have htask : s.stretch cfg (.call i op) = some ⟨s.state, [], .done r⟩ := by
      simp only [MonitorSystem.stretch, hcall, hmode, hrun, Bool.and_self, if_true]
    simp only [MonitorSystem.stepResult, htask]
    exact ⟨rfl, rfl, rfl⟩

/-- INTERNAL: the bound the methods assert, on a full buffer. -/
theorem count_assert {count : ℕ} (hfull : count = capacity) :
    decide (count ≤ capacityMax - 1) = true ↔ capacity < capacityMax := by
  rw [decide_eq_true_eq, hfull]
  unfold capacityMax
  omega

/-- **Full buffers.**  In every state of a queue whose `m_count` is the capacity, `Put` and `PutFront` with
`NO_WAIT` fail, change nothing and meet their assertions exactly when the capacity is below
`CAPACITY_MAX`.  The same holds of `Write` on a full pipe, while `WriteBulk` always does. -/
theorem full_rejects (hmode : cfg.isSyncMode = true) :
    (∀ s : QueueSystem n capacity msgSize σ, s.queue.count = capacity → ∀ msg,
      (QueueRejects cfg s (.put msg) ↔ capacity < capacityMax) ∧
        (QueueRejects cfg s (.putFront msg) ↔ capacity < capacityMax)) ∧
    ∀ s : MonitorSystem n (Pipe capacity elementSize) (PipeFrame (Element elementSize) UInt8 Unit) σ,
      s.state.count = capacity →
        (∀ data, PipeRejects cfg s (.write data noWait) (.write false) ↔ capacity < capacityMax) ∧
          ∀ src count, PipeRejects cfg s (.writeBulk src count noWait) (.writeBulk 0) := by
  constructor
  · intro s hfull msg
    have hblocked : decide (s.queue.count = capacity) = true := decide_eq_true hfull
    constructor
    · constructor
      · intro h
        exact (count_assert hfull).mp h.1
      · intro hlt
        exact ⟨(count_assert hfull).mpr hlt, queue_fails hblocked⟩
    · constructor
      · intro h
        exact (count_assert hfull).mp h.1
      · intro hlt
        exact ⟨(count_assert hfull).mpr hlt, queue_fails hblocked⟩
  · intro s hfull
    have hisFull : PipeStorage.isFull s.state = true := decide_eq_true hfull
    constructor
    · intro data
      constructor
      · intro h
        exact (count_assert hfull).mp h.1
      · intro hlt
        refine ⟨(count_assert hfull).mpr hlt, pipe_fails hmode ?_⟩
        simp only [PipeStorage.call, PipeStorage.writeFrom, hisFull, if_true]
        rfl
    · intro src count
      refine ⟨rfl, pipe_fails hmode ?_⟩
      cases src with
      | none => rfl
      | some src =>
        cases count with
        | zero => rfl
        | succ count =>
          have hpos : 0 < count + 1 := Nat.succ_pos count
          simp only [PipeStorage.call, PipeStorage.writeBulkFrom, hisFull, if_true, hpos, ne_eq,
            Nat.succ_ne_zero, not_false_eq_true]
          rfl

section Runs

/-- INTERNAL: a message put by an interrupt handler while there is space. -/
theorem isr_put {s : QueueSystem n capacity msgSize σ} (hroom : s.queue.count < capacity) (msg : Message msgSize) :
    (s.step cfg (.isr (.put msg))).queue.count = s.queue.count + 1 := by
  have hnot : ¬ (QueueOp.put msg).isBlocked s.queue = true := by
    have hne : s.queue.count ≠ capacity := by omega
    simpa [QueueOp.isBlocked] using hne
  have hattempt : s.attempt (.put msg) = some
      ({ s with queue := s.queue.put msg, kernel := s.kernel.wakeOne cvNotEmpty }, ⟨true, none⟩) := if_neg hnot
  simp only [QueueSystem.step, QueueSystem.stepResult, hattempt]
  rfl

/-- INTERNAL: as many messages as the queue takes. -/
theorem isr_puts (cfg : Config) (buffer : ℕ → UInt8) (msg : Message msgSize) {k : ℕ} (hk : k ≤ capacity) :
    (QueueSystem.run cfg buffer (List.replicate k (.isr (.put msg))) :
      QueueSystem n capacity msgSize σ).queue.count = k := by
  induction k with
  | zero => rfl
  | succ k ih =>
    have hcount := ih (by omega)
    have hrun : (QueueSystem.run cfg buffer (List.replicate (k + 1) (.isr (.put msg))) :
        QueueSystem n capacity msgSize σ) = (QueueSystem.run cfg buffer
          (List.replicate k (.isr (.put msg)))).step cfg (.isr (.put msg)) := by
      rw [List.replicate_succ']
      exact List.foldl_append
    rw [hrun, isr_put (by omega), hcount]

/-- INTERNAL: an element written by an interrupt handler while there is space. -/
theorem isr_write (hmode : cfg.isSyncMode = true)
    {s : MonitorSystem n (Pipe capacity elementSize) (PipeFrame (Element elementSize) UInt8 Unit) σ}
    (hroom : s.state.count < capacity) (data : Element elementSize) :
    (s.step cfg (.isr (.write data noWait))).state.count = s.state.count + 1 := by
  have hnot : ¬ PipeStorage.isFull s.state = true := by
    intro hisFull
    have hfull : s.state.count = capacity := of_decide_eq_true hisFull
    omega
  have hcall : Monitor.call s.kernel.ticks s.state (PipeOp.write data noWait) =
      ⟨s.state.write data, [.one cvNotEmpty], .done (.write true)⟩ := if_neg hnot
  have hstretch : s.stretch cfg (.isr (.write data noWait)) =
      some ⟨s.state.write data, [.one cvNotEmpty], .done (.write true)⟩ := by
    simp only [MonitorSystem.stretch, hcall, hmode, if_true]
  simp only [MonitorSystem.step, MonitorSystem.stepResult, hstretch]
  rfl

/-- INTERNAL: as many elements as the pipe takes. -/
theorem isr_writes (cfg : Config) (hmode : cfg.isSyncMode = true) (buffer : ℕ → UInt8) (data : Element elementSize)
    {k : ℕ} (hk : k ≤ capacity) :
    (MonitorSystem.run cfg (Pipe.initial buffer) (List.replicate k (.isr (.write data noWait))) :
      MonitorSystem n (Pipe capacity elementSize) (PipeFrame (Element elementSize) UInt8 Unit) σ).state.count = k := by
  induction k with
  | zero => rfl
  | succ k ih =>
    have hcount := ih (by omega)
    have hrun : (MonitorSystem.run cfg (Pipe.initial buffer) (List.replicate (k + 1) (.isr (.write data noWait))) :
        MonitorSystem n (Pipe capacity elementSize) (PipeFrame (Element elementSize) UInt8 Unit) σ) =
        (MonitorSystem.run cfg (Pipe.initial buffer) (List.replicate k (.isr (.write data noWait)))).step cfg
          (.isr (.write data noWait)) := by
      rw [List.replicate_succ']
      exact List.foldl_append
    rw [hrun, isr_write hmode (by omega), hcount]

/-- A queue of two messages is filled by an interrupt handler and refuses a third one. -/
theorem twoMessages_full :
    QueueRejects syncConfig (QueueSystem.run syncConfig (fun _ => 0) (List.replicate 2 (.isr (.put (fun _ => 1)))) :
      QueueSystem 1 2 1 (RoundRobin (Fin 1))) (.put (fun _ => 2)) := by
  have hfull := isr_puts (n := 1) (σ := RoundRobin (Fin 1)) syncConfig (fun _ => 0)
    (fun _ : Fin 1 => 1) (le_refl 2)
  have hrejects := (@full_rejects 1 2 1 1 (RoundRobin (Fin 1)) _ syncConfig rfl).1 _ hfull (fun _ => 2)
  exact hrejects.1.mpr (by decide)

/-- An interrupt handler fills a queue of `CAPACITY_MAX` messages and a pipe of as many elements; the assertions
of the next `Put`, the next `PutFront` and the next `Write` fail. -/
theorem largestQueue_asserts :
    admitsCapacity capacityMax = true ∧
      (let s : QueueSystem 1 capacityMax 1 (RoundRobin (Fin 1)) :=
        QueueSystem.run syncConfig (fun _ => 0) (List.replicate capacityMax (.isr (.put (fun _ => 1))))
       s.queue.count = capacityMax ∧
        (∀ msg, (QueueOp.put msg).entryAssert s.queue = false ∧ (QueueOp.putFront msg).entryAssert s.queue = false) ∧
        ∀ msg, ¬ QueueRejects syncConfig s (.put msg) ∧ ¬ QueueRejects syncConfig s (.putFront msg)) ∧
      let s : MonitorSystem 1 (Pipe capacityMax 1) (PipeFrame (Element 1) UInt8 Unit) (RoundRobin (Fin 1)) :=
        MonitorSystem.run syncConfig (Pipe.initial (fun _ => 0))
          (List.replicate capacityMax (.isr (.write (fun _ => 1) noWait)))
      s.state.count = capacityMax ∧
        ∀ data : Element 1, (PipeOp.write data noWait : PipeOp (Element 1) UInt8 Unit).entryAssert s.state = false ∧
          ¬ PipeRejects syncConfig s (.write data noWait) (.write false) := by
  have hfull := isr_puts (n := 1) (σ := RoundRobin (Fin 1)) syncConfig (fun _ => 0)
    (fun _ : Fin 1 => 1) (le_refl capacityMax)
  have hpipe := isr_writes (n := 1) (σ := RoundRobin (Fin 1)) syncConfig rfl (fun _ => 0)
    (fun _ : Fin 1 => 1) (le_refl capacityMax)
  have hassert : decide (capacityMax ≤ capacityMax - 1) = false := by decide
  refine ⟨by decide, ⟨hfull, fun msg => ?_, fun msg => ?_⟩, hpipe, fun data => ?_⟩
  · simp only [QueueOp.entryAssert, hfull]
    exact ⟨hassert, hassert⟩
  · constructor
    · intro h
      exact absurd ((count_assert hfull).mp h.1) (lt_irrefl _)
    · intro h
      exact absurd ((count_assert hfull).mp h.1) (lt_irrefl _)
  · constructor
    · simp only [PipeOp.entryAssert, hpipe]
      exact hassert
    · intro h
      exact absurd ((count_assert hpipe).mp h.1) (lt_irrefl _)

end Runs

end Stk.Analysis
