import Stk.Analysis.IdleTicks
import Stk.Analysis.PipeRefinement
import Stk.Foundation.BoundedBuffer

/-!
# Wakeups of pipes

A pipe is a bounded buffer in the sense of `Mesa.Buffer`: what each method does to the count is
announced to the tasks that wait.  `PipeT` loses no wakeup as long as a task leaves its wait only when it has been
notified or has timed out; a `Read` that leaves an infinite wait after `INT32_MAX` ticks stays in the wait
list and takes the notification of another reader (`staleReader_losesWakeup`).  In `Pipe` a triggered reader may be
woken by the only notification for one element and go back to its wait without taking it; a wakeup
is lost there if another reader is blocked.
-/

set_option autoImplicit false

namespace Stk.Analysis

open Stk.Model

variable {n : ℕ} {μ E V X : Type} [PipeStorage μ E V X]

/-- `Read` and `ReadBulk` wait for one element. -/
def isPlainRead : PipeFrame E V X → Bool
  | .read _ | .readBulk _ _ _ _ _ => true
  | _ => false

/-- The pipe as a bounded buffer. -/
def pipeBuffer (μ : Type) {E V X : Type} [PipeStorage μ E V X] :
    Mesa.Buffer SyncId μ (PipeFrame E V X) where
  capacity := PipeStorage.capacity μ
  count := PipeStorage.count
  cv := PipeFrame.waitsFor
  notEmpty := cvNotEmpty
  notFull := cvNotFull
  eager := isPlainRead
  ne := cvNotEmpty_ne_cvNotFull
  eager_cv f hf := by
    cases f with
    | read timeout => rfl
    | readBulk dst count deadline readCount timeout => rfl
    | _ => cases hf

/-- What a blocked call has left to do. -/
def FrameOk (capacity : ℕ) : PipeFrame E V X → Prop
  | .writeBulk _ count _ written _ => written < count
  | .readBulk _ count _ readCount _ => readCount < count
  | .readBulkTriggered _ _ trigger maxCount _ _ => maxCount ≠ 0 ∧ trigger ≤ capacity
  | _ => True

/-- INTERNAL: a stretch adds elements, at least one unless the pipe is full. -/
def Writes (m : μ) (t : PipeStorage.Stretch μ E V X) : Prop :=
  ∃ k, (pipeBuffer μ).Fills m t k ∧ (k ≠ 0 ∨ PipeStorage.count m = PipeStorage.capacity μ) ∧
    ∀ f, t.next = .wait f → FrameOk (PipeStorage.capacity μ) f

/-- INTERNAL: a stretch takes elements, at least one unless the pipe is empty. -/
def Reads (m : μ) (t : PipeStorage.Stretch μ E V X) : Prop :=
  ∃ k, (pipeBuffer μ).Takes m t k ∧ (k ≠ 0 ∨ PipeStorage.count m = 0) ∧
    ∀ f, t.next = .wait f → FrameOk (PipeStorage.capacity μ) f

omit [PipeStorage μ E V X] in
theorem announces_all {c : SyncId} {k : ℕ} {ms : List (Mesa.Notify SyncId)}
    (hall : ∀ m ∈ ms, m = .all c) (hk : ms = [] → k = 0) : Mesa.Announces c k ms := by
  by_cases hms : ms = []
  · rw [hms, hk hms]
    exact .none
  · exact .all hms hall

variable [FifoStorage μ E V X] {m : μ}

theorem writeFrom_writes (hwf : FifoStorage.Wf m) (data : E) (timeout : ℤ) :
    Writes m (PipeStorage.writeFrom m data timeout : PipeStorage.Stretch μ E V X) := by
  unfold PipeStorage.writeFrom
  split
  · next hfull =>
    have hcap : PipeStorage.count m = PipeStorage.capacity μ := of_decide_eq_true hfull
    unfold PipeStorage.waitOr
    split
    · exact ⟨0, ⟨rfl, hcap.le, .none, by simp⟩, Or.inr hcap, by simp⟩
    · refine ⟨0, ⟨rfl, hcap.le, .none, fun f hf => ?_⟩, Or.inr hcap, fun f hf => ?_⟩
      · cases hf
        exact ⟨rfl, hcap⟩
      · cases hf
        trivial
  · next hfull =>
    have hcap : PipeStorage.count m ≠ PipeStorage.capacity μ := by
      simpa [PipeStorage.isFull] using hfull
    have hcount := FifoStorage.count_write hwf hcap data
    have hle := FifoStorage.count_le (FifoStorage.write (x := data) hwf hcap).1
    exact ⟨1, ⟨hcount, hle, .one, by simp⟩, Or.inl one_ne_zero, by simp⟩

theorem readFrom_reads (hcap : 0 < PipeStorage.capacity μ) (hwf : FifoStorage.Wf m) (timeout : ℤ) :
    Reads m (PipeStorage.readFrom m timeout : PipeStorage.Stretch μ E V X) := by
  unfold PipeStorage.readFrom
  split
  · next hempty =>
    have hzero : PipeStorage.count m = 0 := of_decide_eq_true hempty
    unfold PipeStorage.waitOr
    split
    · exact ⟨0, ⟨rfl, .none, by simp⟩, Or.inr hzero, by simp⟩
    · refine ⟨0, ⟨rfl, .none, fun f hf => ?_⟩, Or.inr hzero, fun f hf => ?_⟩
      · cases hf
        exact ⟨rfl, fun _ => hzero, fun hfull => by
          have : PipeStorage.count m = PipeStorage.capacity μ := hfull
          omega⟩
      · cases hf
        trivial
  · next hempty =>
    have hzero : PipeStorage.count m ≠ 0 := by simpa [PipeStorage.isEmpty] using hempty
    exact ⟨1, ⟨FifoStorage.count_read hwf hzero, .one, by simp⟩, Or.inl one_ne_zero, by simp⟩

/-- INTERNAL: the rounds of `WriteBulk`. -/
theorem writeBulkFrom_rounds (ticks : ℤ) (src : ℕ → V) (count : ℕ) (deadline : Deadline) (fuel : ℕ)
    (m : μ) (written : ℕ) (ms : List (Mesa.Notify SyncId)) (hwf : FifoStorage.Wf m) :
    let t := (PipeStorage.writeBulkFrom ticks src count deadline fuel m written ms :
      PipeStorage.Stretch μ E V X)
    ∃ k ms', t.notify = ms ++ ms' ∧ (∀ a ∈ ms', a = .all cvNotEmpty) ∧ (ms' = [] → k = 0) ∧
      PipeStorage.count t.state = PipeStorage.count m + k ∧
      PipeStorage.count t.state ≤ PipeStorage.capacity μ ∧
      (written < count → fuel ≠ 0 → k ≠ 0 ∨ PipeStorage.count m = PipeStorage.capacity μ) ∧
      ∀ f, t.next = .wait f → f.waitsFor = cvNotFull ∧
        PipeStorage.count t.state = PipeStorage.capacity μ ∧ FrameOk (PipeStorage.capacity μ) f := by
  have hle := FifoStorage.count_le hwf
  induction fuel generalizing m written ms with
  | zero => exact ⟨0, [], by simp [PipeStorage.writeBulkFrom, hle]⟩
  | succ fuel ih =>
    unfold PipeStorage.writeBulkFrom
    split
    · next hlt =>
      split
      · next hfull =>
        have hcap : PipeStorage.count m = PipeStorage.capacity μ := of_decide_eq_true hfull
        unfold PipeStorage.waitOr
        split
        · exact ⟨0, [], by simp [hcap]⟩
        · refine ⟨0, [], by simp, by simp, by simp, rfl, hle, by simp [hcap], fun f hf => ?_⟩
          cases hf
          exact ⟨rfl, hcap, hlt⟩
      · next hfull =>
        have hcap : PipeStorage.count m ≠ PipeStorage.capacity μ := by
          simpa [PipeStorage.isFull] using hfull
        obtain ⟨hwf', hlen, -⟩ := FifoStorage.fill hwf src written (count - written)
        have hcount := FifoStorage.count_fill hwf src written (count - written)
        obtain ⟨k, ms', hnotify, hall, -, hcount', hle', -, hwait⟩ := ih
          (PipeStorage.fill m src written (count - written)).2
          (written + (PipeStorage.fill m src written (count - written)).1)
          (ms ++ [.all cvNotEmpty]) hwf' (FifoStorage.count_le hwf')
        refine ⟨(PipeStorage.fill m src written (count - written)).1 + k, .all cvNotEmpty :: ms',
          ?_, ?_, by simp, by dsimp only; omega, hle', fun _ _ => Or.inl ?_, hwait⟩
        · dsimp only
          rw [hnotify, List.append_assoc]
          rfl
        · intro a ha
          rcases List.mem_cons.mp ha with rfl | ha
          · rfl
          · exact hall a ha
        · omega
    · next hge => exact ⟨0, [], by simp [hle, hge]⟩

/-- INTERNAL: the rounds of `ReadBulk`. -/
theorem readBulkFrom_rounds (ticks : ℤ) (count : ℕ) (deadline : Deadline) (fuel : ℕ) (m : μ)
    (dst : ℕ → V) (readCount : ℕ) (ms : List (Mesa.Notify SyncId)) (hwf : FifoStorage.Wf m) :
    let t := (PipeStorage.readBulkFrom ticks count deadline fuel m dst readCount ms :
      PipeStorage.Stretch μ E V X)
    ∃ k ms', t.notify = ms ++ ms' ∧ (∀ a ∈ ms', a = .all cvNotFull) ∧ (ms' = [] → k = 0) ∧
      PipeStorage.count t.state + k = PipeStorage.count m ∧
      (readCount < count → fuel ≠ 0 → k ≠ 0 ∨ PipeStorage.count m = 0) ∧
      ∀ f, t.next = .wait f → f.waitsFor = cvNotEmpty ∧ PipeStorage.count t.state = 0 ∧
        FrameOk (PipeStorage.capacity μ) f := by
  induction fuel generalizing m dst readCount ms with
  | zero => exact ⟨0, [], by simp [PipeStorage.readBulkFrom]⟩
  | succ fuel ih =>
    unfold PipeStorage.readBulkFrom
    split
    · next hlt =>
      split
      · next hempty =>
        have hzero : PipeStorage.count m = 0 := of_decide_eq_true hempty
        unfold PipeStorage.waitOr
        split
        · exact ⟨0, [], by simp [hzero]⟩
        · refine ⟨0, [], by simp, by simp, by simp, rfl, by simp [hzero], fun f hf => ?_⟩
          cases hf
          exact ⟨rfl, hzero, hlt⟩
      · next hempty =>
        have hzero : PipeStorage.count m ≠ 0 := by simpa [PipeStorage.isEmpty] using hempty
        obtain ⟨hwf', hlen, -, -⟩ := FifoStorage.drain hwf dst readCount (count - readCount)
        have hcount := FifoStorage.count_drain hwf dst readCount (count - readCount)
        obtain ⟨k, ms', hnotify, hall, -, hcount', -, hwait⟩ := ih
          (PipeStorage.drain m dst readCount (count - readCount)).2.2
          (PipeStorage.drain m dst readCount (count - readCount)).2.1
          (readCount + (PipeStorage.drain m dst readCount (count - readCount)).1)
          (ms ++ [.all cvNotFull]) hwf'
        refine ⟨(PipeStorage.drain m dst readCount (count - readCount)).1 + k, .all cvNotFull :: ms',
          ?_, ?_, by simp, by dsimp only; omega, fun _ _ => Or.inl ?_, hwait⟩
        · dsimp only
          rw [hnotify, List.append_assoc]
          rfl
        · intro a ha
          rcases List.mem_cons.mp ha with rfl | ha
          · rfl
          · exact hall a ha
        · omega
    · next hge => exact ⟨0, [], by simp [hge]⟩

theorem writeBulkFrom_writes (ticks : ℤ) (src : ℕ → V) {count : ℕ} (deadline : Deadline)
    (hwf : FifoStorage.Wf m) (written : ℕ) (hlt : written < count) :
    Writes m (PipeStorage.writeBulkFrom ticks src count deadline (count - written) m written [] :
      PipeStorage.Stretch μ E V X) := by
  obtain ⟨k, ms, hnotify, hall, hms, hcount, hle, hk, hwait⟩ :=
    writeBulkFrom_rounds (X := X) ticks src count deadline (count - written) m written [] hwf
  refine ⟨k, ⟨hcount, hle, ?_, fun f hf => ?_⟩, hk hlt (by omega), fun f hf => (hwait f hf).2.2⟩
  · rw [hnotify]
    exact announces_all hall hms
  · obtain ⟨hcv, hcap, -⟩ := hwait f hf
    exact ⟨hcv, hcap⟩

theorem readBulkFrom_reads (hcap : 0 < PipeStorage.capacity μ) (ticks : ℤ) {count : ℕ}
    (deadline : Deadline) (hwf : FifoStorage.Wf m) (dst : ℕ → V) (readCount : ℕ)
    (hlt : readCount < count) :
    Reads m (PipeStorage.readBulkFrom ticks count deadline (count - readCount) m dst readCount [] :
      PipeStorage.Stretch μ E V X) := by
  obtain ⟨k, ms, hnotify, hall, hms, hcount, hk, hwait⟩ :=
    readBulkFrom_rounds (X := X) ticks count deadline (count - readCount) m dst readCount [] hwf
  refine ⟨k, ⟨hcount, ?_, fun f hf => ?_⟩, hk hlt (by omega), fun f hf => (hwait f hf).2.2⟩
  · rw [hnotify]
    exact announces_all hall hms
  · obtain ⟨hcv, hzero, -⟩ := hwait f hf
    exact ⟨hcv, fun _ => hzero, fun hfull => hcap.ne (hzero.symm.trans hfull)⟩

/-- INTERNAL: the end of a triggered read. -/
theorem drainAll_reads (hwf : FifoStorage.Wf m) (dst : ℕ → V) {maxCount : ℕ} (hmax : maxCount ≠ 0) :
    Reads m (PipeStorage.drainAll m dst maxCount : PipeStorage.Stretch μ E V X) := by
  obtain ⟨-, hlen, -, -⟩ := FifoStorage.drain hwf dst 0 maxCount
  refine ⟨(PipeStorage.drain m dst 0 maxCount).1, ⟨FifoStorage.count_drain hwf dst 0 maxCount,
    .all (by simp [PipeStorage.drainAll]) (by simp [PipeStorage.drainAll, pipeBuffer]),
    by simp [PipeStorage.drainAll]⟩, ?_, by simp [PipeStorage.drainAll]⟩
  omega

/-- INTERNAL: a triggered read takes elements as others do, or it finds too few and waits. -/
theorem readBulkTriggeredFrom_cases (ticks : ℤ) (has : X) (hwf : FifoStorage.Wf m) (dst : ℕ → V)
    {trigger maxCount : ℕ} (deadline : Deadline) (hmax : maxCount ≠ 0) :
    let t := (PipeStorage.readBulkTriggeredFrom ticks has m dst trigger maxCount deadline :
      PipeStorage.Stretch μ E V X)
    Reads m t ∨ PipeStorage.count m < trigger ∧ ∃ timeout,
      t = ⟨m, [], .wait (.readBulkTriggered has dst trigger maxCount deadline timeout)⟩ := by
  unfold PipeStorage.readBulkTriggeredFrom
  split
  · next hlt =>
    dsimp only
    split
    · exact Or.inl (drainAll_reads hwf dst hmax)
    · exact Or.inr ⟨hlt, _, rfl⟩
  · exact Or.inl (drainAll_reads hwf dst hmax)

omit [FifoStorage μ E V X] in
/-- INTERNAL: a triggered read that goes to its wait takes nothing. -/
theorem triggeredWait_takes (has : X) (dst : ℕ → V) {trigger : ℕ} (maxCount : ℕ)
    (deadline : Deadline) (timeout : ℤ) (hlt : PipeStorage.count m < trigger) (htrigger : trigger ≤ PipeStorage.capacity μ) :
    (pipeBuffer μ).Takes m (⟨m, [], .wait (.readBulkTriggered has dst trigger maxCount deadline
      timeout)⟩ : PipeStorage.Stretch μ E V X) 0 := by
  refine ⟨rfl, .none, fun f hf => ?_⟩
  cases hf
  refine ⟨rfl, fun h => (nomatch h), fun hfull => ?_⟩
  have : PipeStorage.count m = PipeStorage.capacity μ := hfull
  omega

/-- INTERNAL: a stretch adds or takes elements, or leaves the pipe alone. -/
def Moves (m : μ) (t : PipeStorage.Stretch μ E V X) : Prop :=
  ((∃ k, (pipeBuffer μ).Fills m t k) ∨ ∃ k, (pipeBuffer μ).Takes m t k) ∧
    ∀ f, t.next = .wait f → FrameOk (PipeStorage.capacity μ) f

omit [FifoStorage μ E V X] in
theorem Writes.moves {t : PipeStorage.Stretch μ E V X} (h : Writes m t) : Moves m t := by
  obtain ⟨k, ht, -, hframes⟩ := h
  exact ⟨Or.inl ⟨k, ht⟩, hframes⟩

omit [FifoStorage μ E V X] in
theorem Reads.moves {t : PipeStorage.Stretch μ E V X} (h : Reads m t) : Moves m t := by
  obtain ⟨k, ht, -, hframes⟩ := h
  exact ⟨Or.inr ⟨k, ht⟩, hframes⟩

omit [FifoStorage μ E V X] in
theorem Moves.return (m : μ) (r : PipeReturn E V) :
    Moves m (⟨m, [], .done r⟩ : PipeStorage.Stretch μ E V X) :=
  ⟨Or.inr ⟨0, rfl, .none, by simp⟩, by simp⟩

/-- INTERNAL: a fresh call; a triggered read that waits has a level the pipe can reach. -/
theorem call_moves (hcap : 0 < PipeStorage.capacity μ) (ticks : ℤ) (hwf : FifoStorage.Wf m)
    (op : PipeOp E V X)
    (hop : ∀ has dst trigger maxCount timeout,
      op = .readBulkTriggered has (some dst) trigger maxCount timeout →
      PipeStorage.clampTrigger trigger maxCount ≤ PipeStorage.capacity μ ∨
        ∃ r, (PipeStorage.call ticks m op : PipeStorage.Stretch μ E V X).next = .done r) :
    Moves m (PipeStorage.call ticks m op : PipeStorage.Stretch μ E V X) := by
  cases op with
  | write data timeout => exact (writeFrom_writes hwf data timeout).moves
  | writeBulk src count timeout =>
    cases src with
    | none => exact .return m _
    | some src =>
      simp only [PipeStorage.call]
      split
      · next hne =>
        exact (writeBulkFrom_writes ticks src _ hwf 0 (Nat.pos_of_ne_zero hne)).moves
      · exact .return m _
  | read timeout => exact (readFrom_reads hcap hwf timeout).moves
  | readBulk dst count timeout =>
    cases dst with
    | none => exact .return m _
    | some dst =>
      simp only [PipeStorage.call]
      split
      · next hne =>
        exact (readBulkFrom_reads hcap ticks _ hwf dst 0 (Nat.pos_of_ne_zero hne)).moves
      · exact .return m _
  | readBulkTriggered has dst trigger maxCount timeout =>
    cases dst with
    | none => exact .return m _
    | some dst =>
      have hlevel := hop has dst trigger maxCount timeout rfl
      simp only [PipeStorage.call] at hlevel ⊢
      split
      · next hmax =>
        rw [if_pos hmax] at hlevel
        rcases readBulkTriggeredFrom_cases ticks has hwf dst (.capture ticks timeout) hmax with
          hreads | ⟨hlt, wait, ht⟩
        · exact hreads.moves
        · rw [ht] at hlevel ⊢
          rcases hlevel with hle | ⟨r, hr⟩
          · refine ⟨Or.inr ⟨0, triggeredWait_takes has dst maxCount _ wait hlt hle⟩, fun f hf => ?_⟩
            cases hf
            exact ⟨hmax, hle⟩
          · cases hr
      · exact .return m _
  | reset =>
    refine ⟨Or.inr ⟨PipeStorage.count m, ?_, .all (by simp [PipeStorage.call])
      (by simp [PipeStorage.call, pipeBuffer]), by simp [PipeStorage.call]⟩, by simp [PipeStorage.call]⟩
    have := FifoStorage.count_reset hwf
    change PipeStorage.count (PipeStorage.reset m) + PipeStorage.count m = PipeStorage.count m
    omega

/-- INTERNAL: a call whose wait has expired. -/
theorem resume_timeout_moves (ticks : ℤ) (hwf : FifoStorage.Wf m) (f : PipeFrame E V X) :
    Moves m (PipeStorage.resume ticks m f .timeout : PipeStorage.Stretch μ E V X) := by
  cases f with
  | readBulkTriggered has dst trigger maxCount deadline timeout =>
    refine ⟨Or.inr ⟨_, FifoStorage.count_drain hwf dst 0 maxCount,
      .all (by simp [PipeStorage.resume, PipeStorage.drainAll])
        (by simp [PipeStorage.resume, PipeStorage.drainAll, pipeBuffer]),
      by simp [PipeStorage.resume, PipeStorage.drainAll]⟩,
      by simp [PipeStorage.resume, PipeStorage.drainAll]⟩
  | _ => exact .return m _

/-! ## Steps -/

/-- INTERNAL: what is carried along a run. -/
structure WakeupsOk (c : Mesa.Config (Fin n) μ (PipeFrame E V X)) : Prop where
  wf : FifoStorage.Wf c.state
  frames : ∀ i f, c.status i = .blocked f ∨ c.status i = .notified f →
    FrameOk (PipeStorage.capacity μ) f
  buffer : (pipeBuffer μ).BufferOk c.state c.status

/-- The condition on the triggered reads of a run: none waits for more elements than the pipe can
hold, and none that has been woken with too few elements goes on while a plain reader is blocked,
unless there are enough other notified readers for the elements. -/
def TriggersOk (c : Mesa.Config (Fin n) μ (PipeFrame E V X)) :
    Mesa.Event (Fin n) (PipeOp E V X) → Prop
  | .call _ (.readBulkTriggered _ _ trigger maxCount _) =>
    PipeStorage.clampTrigger trigger maxCount ≤ PipeStorage.capacity μ
  | .resume i =>
    match c.status i with
    | .notified (.readBulkTriggered _ _ trigger _ _ _) =>
      0 < PipeStorage.count c.state → PipeStorage.count c.state < trigger →
        Mesa.blocked isPlainRead c.status ≠ 0 →
        PipeStorage.count c.state < Mesa.notified (pipeBuffer μ).reader c.status
    | _ => True
  | _ => True

variable {c c' : Mesa.Config (Fin n) μ (PipeFrame E V X)} {r : Option (PipeReturn E V)}

namespace WakeupsOk

/-- INTERNAL: the rest of the invariant follows a stretch. -/
theorem of_buffer {t : PipeStorage.Stretch μ E V X} {caller : Option (Fin n)}
    {u : Fin n → Mesa.Status (PipeFrame E V X)} (hwf : FifoStorage.Wf t.state)
    (hframes : ∀ i f, u i = .blocked f ∨ u i = .notified f → FrameOk (PipeStorage.capacity μ) f)
    (hwait : ∀ f, t.next = .wait f → FrameOk (PipeStorage.capacity μ) f)
    (hfollows : Mesa.Follows PipeFrame.waitsFor caller t u r c')
    (hbuffer : (pipeBuffer μ).BufferOk c'.state c'.status) : WakeupsOk c' := by
  refine ⟨?_, fun i f hi => hfollows.frames hframes hwait hi, hbuffer⟩
  obtain ⟨-, -, hstate, -⟩ := hfollows
  rw [hstate]
  exact hwf

/-- INTERNAL: a stretch of a call that was not waiting. -/
theorem follow (h : WakeupsOk c) {t : PipeStorage.Stretch μ E V X} {caller : Option (Fin n)}
    (hidle : ∀ i, caller = some i → c.status i = .idle) (hwf : FifoStorage.Wf t.state)
    (ht : Moves c.state t) (hfollows : Mesa.Follows PipeFrame.waitsFor caller t c.status r c') :
    WakeupsOk c' :=
  of_buffer hwf h.frames ht.2 hfollows (h.buffer.follow (B := pipeBuffer μ) ht.1 hfollows hidle)

/-- INTERNAL: the frames of the other tasks once a task has left its wait. -/
theorem frames_leave (h : WakeupsOk c) (i : Fin n) :
    ∀ j f, Function.update c.status i .idle j = .blocked f ∨
      Function.update c.status i .idle j = .notified f → FrameOk (PipeStorage.capacity μ) f := by
  intro j f hj
  by_cases hji : j = i
  · subst hji
    simp at hj
  · rw [Function.update_of_ne hji] at hj
    exact h.frames j f hj

/-- INTERNAL: a call whose wait has expired goes on. -/
theorem resume_expired (h : WakeupsOk c) {i : Fin n} {f : PipeFrame E V X}
    (hi : c.status i = .expired f) {ticks : ℤ}
    (hfollows : Mesa.Follows PipeFrame.waitsFor (some i)
      (PipeStorage.resume ticks c.state f .timeout : PipeStorage.Stretch μ E V X)
      (Function.update c.status i .idle) r c') : WakeupsOk c' := by
  have hmoves := resume_timeout_moves ticks h.wf f
  refine of_buffer (StretchOk.resume ticks h.wf f .timeout).wf (h.frames_leave i) hmoves.2 hfollows ?_
  refine (h.buffer.leave_expired hi).follow (B := pipeBuffer μ) hmoves.1 hfollows (fun j hj => ?_)
  obtain rfl := Option.some.inj hj
  exact Function.update_self _ _ _

/-- INTERNAL: a notified triggered read goes back to its wait. -/
theorem resume_triggered (h : WakeupsOk c) {i : Fin n} {has : X} {dst : ℕ → V} {trigger maxCount : ℕ}
    {deadline : Deadline} {timeout wait : ℤ}
    (hi : c.status i = .notified (.readBulkTriggered has dst trigger maxCount deadline timeout))
    (hframe : maxCount ≠ 0 ∧ trigger ≤ PipeStorage.capacity μ) (htriggers : TriggersOk c (.resume i))
    (hlt : PipeStorage.count c.state < trigger)
    (hfollows : Mesa.Follows PipeFrame.waitsFor (some i)
      (⟨c.state, [], .wait (.readBulkTriggered has dst trigger maxCount deadline wait)⟩ :
        PipeStorage.Stretch μ E V X) (Function.update c.status i .idle) r c') : WakeupsOk c' := by
  refine of_buffer h.wf (h.frames_leave i) (fun g hg => ?_) hfollows ?_
  · cases hg
    exact hframe
  · -- it keeps the notification: there must be others for the elements
    refine (h.buffer.leave_reader hi rfl (fun he hpos => ?_) (fun hfull => ?_)).follow
      (B := pipeBuffer μ) (Or.inr ⟨0, triggeredWait_takes has dst maxCount deadline wait hlt hframe.2⟩)
      hfollows (fun j hj => ?_)
    · simp only [TriggersOk, hi] at htriggers
      exact htriggers (Nat.pos_of_ne_zero hpos) hlt he
    · have : PipeStorage.count c.state = PipeStorage.capacity μ := hfull
      omega
    · obtain rfl := Option.some.inj hj
      exact Function.update_self _ _ _

/-- INTERNAL: a notified call goes on. -/
theorem resume_notified (hcap : 0 < PipeStorage.capacity μ) (h : WakeupsOk c) {i : Fin n}
    {f : PipeFrame E V X} (hi : c.status i = .notified f) (htriggers : TriggersOk c (.resume i))
    {ticks : ℤ}
    (hfollows : Mesa.Follows PipeFrame.waitsFor (some i)
      (PipeStorage.resume ticks c.state f .signal : PipeStorage.Stretch μ E V X)
      (Function.update c.status i .idle) r c') : WakeupsOk c' := by
  have hwf' := (StretchOk.resume ticks h.wf f .signal).wf
  have hframe := h.frames i f (Or.inr hi)
  have hwrites : PipeFrame.waitsFor f = cvNotFull →
      Writes c.state (PipeStorage.resume ticks c.state f .signal) → WakeupsOk c' := by
    rintro hcv ⟨k, ht, hk, hwait⟩
    exact of_buffer hwf' (h.frames_leave i) hwait hfollows
      (h.buffer.resume_writer hi hcv ht hk hfollows)
  have hreads : PipeFrame.waitsFor f = cvNotEmpty →
      Reads c.state (PipeStorage.resume ticks c.state f .signal) → WakeupsOk c' := by
    rintro hcv ⟨k, ht, hk, hwait⟩
    exact of_buffer hwf' (h.frames_leave i) hwait hfollows
      (h.buffer.resume_reader hcap hi hcv ht hk hfollows)
  cases f with
  | write data timeout => exact hwrites rfl (writeFrom_writes h.wf data timeout)
  | writeBulk src count deadline written timeout =>
    exact hwrites rfl (writeBulkFrom_writes ticks src deadline h.wf written hframe)
  | read timeout => exact hreads rfl (readFrom_reads hcap h.wf timeout)
  | readBulk dst count deadline readCount timeout =>
    exact hreads rfl (readBulkFrom_reads hcap ticks deadline h.wf dst readCount hframe)
  | readBulkTriggered has dst trigger maxCount deadline timeout =>
    rcases readBulkTriggeredFrom_cases ticks has h.wf dst deadline hframe.1 with hr | ⟨hlt, wait, ht⟩
    · exact hreads rfl hr
    · have hsame : PipeStorage.resume ticks c.state
          (.readBulkTriggered has dst trigger maxCount deadline timeout) .signal = _ := ht
      rw [hsame] at hfollows
      exact h.resume_triggered hi hframe htriggers hlt hfollows

theorem quiet (h : WakeupsOk c) (hstep : Mesa.Step (program μ) c .quiet r c') : WakeupsOk c' := by
  obtain ⟨-, hstate, hexpires⟩ := hstep
  refine ⟨by rw [hstate]; exact h.wf, fun i f hi => h.frames i f ?_, ?_⟩
  · rcases hexpires i with heq | ⟨f', -, heq⟩
    · rwa [heq] at hi
    · simp [heq] at hi
  · rw [hstate]
    exact h.buffer.expires hexpires

/-- INTERNAL: every step that meets the condition on triggered reads. -/
theorem step (hcap : 0 < PipeStorage.capacity μ) (h : WakeupsOk c)
    {e : Mesa.Event (Fin n) (PipeOp E V X)} (htriggers : TriggersOk c e)
    (hstep : Mesa.Step (program μ) c e r c') : WakeupsOk c' := by
  cases e with
  | call i op =>
    obtain ⟨hidle, t, ⟨ticks, rfl⟩, hfollows⟩ := hstep
    refine h.follow (fun j hj => ?_) (StretchOk.call ticks h.wf op).wf
      (call_moves hcap ticks h.wf op (fun has dst trigger maxCount timeout hop => ?_)) hfollows
    · obtain rfl := Option.some.inj hj
      exact hidle
    · subst hop
      exact Or.inl htriggers
  | isr op =>
    obtain ⟨t, ⟨ticks, rfl⟩, hfollows⟩ := hstep
    refine h.follow (fun j hj => ?_) (StretchOk.call ticks h.wf op).wf
      (call_moves hcap ticks h.wf op (fun has dst trigger maxCount timeout hop => ?_)) hfollows
    · cases hj
    · -- an interrupt handler does not wait
      obtain ⟨u₁, -, -, hend⟩ := hfollows
      refine Or.inr ?_
      revert hend
      change _ → ∃ r, (Monitor.call ticks c.state op).next = .done r
      cases (Monitor.call ticks c.state op).next with
      | done r => exact fun _ => ⟨r, rfl⟩
      | wait f => exact fun hend => hend.elim
  | resume i =>
    obtain ⟨f, b, t, hi, ⟨ticks, rfl⟩, hfollows⟩ := hstep
    cases b with
    | true => exact h.resume_notified hcap hi htriggers hfollows
    | false => exact h.resume_expired hi hfollows
  | quiet => exact h.quiet hstep

end WakeupsOk

/-! ## Runs -/

variable {σ : Type} [SwitchStrategy (Fin n) σ] {cfg : Config}

/-- INTERNAL: a run of either class. -/
theorem run_wakeupsOk (m₀ : μ) (hcap : 0 < PipeStorage.capacity μ) (hwf : FifoStorage.Wf m₀)
    (hempty : PipeStorage.count m₀ = 0) {es : List (MonitorEvent n (PipeOp E V X))}
    (hes : Runs.Along (MonitorSystem.step cfg)
      (fun s e => Orderly s e ∧ TriggersOk (abstract s) (abstractEvent e))
      (MonitorSystem.initial m₀ : MonitorSystem n μ (PipeFrame E V X) σ) es) :
    MonitorOk (MonitorSystem.run cfg m₀ es : MonitorSystem n μ (PipeFrame E V X) σ) ∧
      WakeupsOk (abstract (MonitorSystem.run cfg m₀ es : MonitorSystem n μ (PipeFrame E V X) σ)) := by
  refine run_invariant (I := WakeupsOk) m₀ ⟨hwf, fun i f hi => ?_, ?_⟩
    (fun c r c' h hstep => h.quiet hstep) (fun c e r c' h he hstep => h.step hcap he hstep) hes
  · rcases hi with hi | hi <;> cases hi
  · exact Mesa.Buffer.bufferOk_idle hempty

/-- **No lost wakeup.**  Whenever no notified task is on its way, no task waits for an element of a
`PipeT` that has one, and none for a place in a `PipeT` that has one. -/
theorem run_noLostWakeup {T : Type} {capacity : ℕ} {isScalar : Bool} (hcap : 0 < capacity)
    (buffer : ℕ → T) {es : List (MonitorEvent n (PipeOp T T Empty))}
    (hes : Runs.Along (MonitorSystem.step cfg) Orderly
      (MonitorSystem.initial (PipeT.initial buffer) :
        MonitorSystem n (PipeT T capacity isScalar) (PipeFrame T T Empty) σ) es) :
    let s := (MonitorSystem.run cfg (PipeT.initial buffer) es :
      MonitorSystem n (PipeT T capacity isScalar) (PipeFrame T T Empty) σ)
    Quiescent s →
      (0 < s.state.count → s.kernel.waitList cvNotEmpty = []) ∧
      (s.state.count < capacity → s.kernel.waitList cvNotFull = []) := by
  intro s hquiet
  have hes' := hes.mono (Q := fun s e => Orderly s e ∧ TriggersOk (abstract s) (abstractEvent e))
    (fun s e he => ⟨he, by
      -- there are no triggered reads
      cases e with
      | call i op =>
        cases op with
        | readBulkTriggered has dst trigger maxCount timeout => exact has.elim
        | _ => trivial
      | resume i =>
        simp only [abstractEvent, TriggersOk]
        split
        · next has _ _ _ _ _ _ => exact has.elim
        · trivial
      | _ => trivial⟩)
  obtain ⟨hok, hwake⟩ := run_wakeupsOk (PipeT.initial buffer) hcap
    (show RingWf capacity 0 0 0 from ⟨Nat.zero_le _, hcap, by simp⟩) rfl hes'
  obtain ⟨hreaders, hwriters, -⟩ := hwake.buffer.quiescent hquiet.not_notified
  refine ⟨fun hpos => hok.waitList_eq_nil rfl (fun i f hi hf => ?_),
    fun hlt => hok.waitList_eq_nil rfl (hwriters hlt)⟩
  have hplain : isPlainRead f = false := hreaders hpos i f hi
  cases f with
  | write data timeout => cases hf
  | writeBulk src count deadline written timeout => cases hf
  | read timeout => cases hplain
  | readBulk dst count deadline readCount timeout => cases hplain
  | readBulkTriggered has dst trigger maxCount deadline timeout => exact has.elim

/-- Task 0 reads and waits; task 1 writes two elements. -/
def twoWrites : List (MonitorEvent 2 (PipeOp ℕ ℕ Empty)) :=
  [.kernel (.addTask 0), .kernel (.addTask 1), .kernel .onStart, .call 0 (.read waitInfinite),
    .kernel (.onTick 1), .call 1 (.write 1 waitInfinite), .call 1 (.write 2 waitInfinite),
    .kernel (.onTick 1), .resume 0]

theorem twoWrites_noLostWakeup :
    let s := (MonitorSystem.run syncConfig (PipeT.initial (fun _ => 0)) twoWrites :
      MonitorSystem 2 (PipeT ℕ 2 true) (PipeFrame ℕ ℕ Empty) (RoundRobin (Fin 2)))
    Quiescent s ∧ s.state.count = 1 ∧ s.kernel.waitList cvNotEmpty = [] := by
  intro s
  have hquiet : Quiescent s := by decide +kernel
  have hes : Runs.Along (MonitorSystem.step syncConfig) Orderly
      (MonitorSystem.initial (PipeT.initial (fun _ => 0)) :
        MonitorSystem 2 (PipeT ℕ 2 true) (PipeFrame ℕ ℕ Empty) (RoundRobin (Fin 2))) twoWrites := by
    decide +kernel
  exact ⟨hquiet, by decide +kernel, (run_noLostWakeup (by decide) _ hes hquiet).1 (by decide +kernel)⟩

/-- Tasks 0 and 1 read and wait, without a timeout. -/
def twoPipeReaders : List (MonitorEvent 3 (PipeOp ℕ ℕ Empty)) :=
  [.kernel (.addTask 0), .kernel (.addTask 1), .kernel (.addTask 2), .kernel .onStart, .call 0 (.read waitInfinite),
    .kernel (.onTick 1), .call 1 (.read waitInfinite), .kernel (.onTick 1)]

/-- Task 0 is notified of an element, but task 1, whose wait has run out meanwhile, is the first to run and takes
it, still linked.  Task 0 waits again, behind it, and a second element comes. -/
def overtakes : List (MonitorEvent 3 (PipeOp ℕ ℕ Empty)) :=
  [.call 2 (.write 1 waitInfinite), .kernel (.onTick 1), .kernel (.onTick 1), .resume 1, .kernel (.onTick 1),
    .kernel (.onTick 1), .resume 0, .kernel (.onTick 1), .kernel (.onTick 1), .call 2 (.write 2 waitInfinite)]

/-- The two readers while nothing happens. -/
def blockedReaders (m : ℕ) : MonitorSystem 3 (PipeT ℕ 2 true) (PipeFrame ℕ ℕ Empty) (RoundRobin (Fin 3)) :=
  let s : MonitorSystem 3 (PipeT ℕ 2 true) (PipeFrame ℕ ℕ Empty) (RoundRobin (Fin 3)) :=
    MonitorSystem.run syncConfig (PipeT.initial (fun _ => 0)) twoPipeReaders
  { s with kernel := restsFor syncConfig s.kernel m }

theorem blockedReaders_run {m : ℕ} (hm : m < 2147483645) (es : List (MonitorEvent 3 (PipeOp ℕ ℕ Empty))) :
    MonitorSystem.run syncConfig (PipeT.initial (fun _ => 0))
        (twoPipeReaders ++ (List.replicate m (.kernel (.onTick 1)) ++ es)) =
      es.foldl (MonitorSystem.step syncConfig) (blockedReaders m) := by
  have hrests : Uneventful syncConfig (MonitorSystem.run syncConfig (PipeT.initial (fun _ => 0)) twoPipeReaders :
      MonitorSystem 3 (PipeT ℕ 2 true) (PipeFrame ℕ ℕ Empty) (RoundRobin (Fin 3))).kernel 2 2147483644 := by
    refine ⟨rfl, ?_, ?_, ?_, ?_, rfl, ?_, ?_, ?_⟩
    all_goals decide +kernel
  have hticks := MonitorSystem.idle_ticks (hrests.mono (Nat.le_of_lt_succ hm)) (by decide +kernel)
  unfold MonitorSystem.run at hticks ⊢
  rw [List.foldl_append, List.foldl_append, hticks]
  rfl

/-- After `INT32_MAX - 3` ticks the infinite wait of task 0 is about to run out, and a tick later that of task 1.
In the end task 0 is blocked with an element in the pipe, and no notified task is on its way. -/
theorem staleReader_losesWakeup :
    let s := (MonitorSystem.run syncConfig (PipeT.initial (fun _ => 0))
        (twoPipeReaders ++ (List.replicate 2147483644 (.kernel (.onTick 1)) ++ overtakes)) :
      MonitorSystem 3 (PipeT ℕ 2 true) (PipeFrame ℕ ℕ Empty) (RoundRobin (Fin 3)))
    Quiescent s ∧ ¬ (0 < s.state.count → s.kernel.waitList cvNotEmpty = []) := by
  rw [blockedReaders_run (by decide)]
  decide +kernel

/-- **Triggered reads.**  In every run that meets the condition on triggered reads, whenever no
notified task is on its way, a task is blocked in `Read` or `ReadBulk` on an empty `Pipe` only, and
no reader and writer are blocked together. -/
theorem run_pipeWakeups {capacity elementSize : ℕ} (hcap : 0 < capacity) (buffer : ℕ → UInt8)
    {es : List (MonitorEvent n (PipeOp (Element elementSize) UInt8 Unit))}
    (hes : Runs.Along (MonitorSystem.step cfg)
      (fun s e => Orderly s e ∧ TriggersOk (abstract s) (abstractEvent e))
      (MonitorSystem.initial (Pipe.initial buffer) :
        MonitorSystem n (Pipe capacity elementSize) _ σ) es) :
    let s := (MonitorSystem.run cfg (Pipe.initial buffer) es :
      MonitorSystem n (Pipe capacity elementSize) _ σ)
    Quiescent s →
      (∀ i f, s.pending i = some f → (s.kernel.tasks i).isWaiting = true → isPlainRead f = true →
        s.state.count = 0) ∧
      (s.kernel.waitList cvNotEmpty = [] ∨ s.kernel.waitList cvNotFull = []) := by
  intro s hquiet
  obtain ⟨hok, hwake⟩ := run_wakeupsOk (Pipe.initial buffer) hcap
    (show RingWf capacity 0 0 0 from ⟨Nat.zero_le _, hcap, by simp⟩) rfl hes
  obtain ⟨hreaders, -, hboth⟩ := hwake.buffer.quiescent hquiet.not_notified
  refine ⟨fun i f hi hw hf => ?_, ?_⟩
  · by_contra hne
    have := hreaders (Nat.pos_of_ne_zero hne) i f (MonitorOk.status_of_isWaiting hi hw)
    rw [show (pipeBuffer (Pipe capacity elementSize)).eager f = true from hf] at this
    cases this
  · by_cases hwriter : ∃ j g, status s j = .blocked g ∧ PipeFrame.waitsFor g = cvNotFull
    · obtain ⟨j, g, hj, hg⟩ := hwriter
      refine Or.inl (hok.waitList_eq_nil rfl (fun i f hi hf => hboth ⟨i, j, f, g, hi, hj, hf, hg⟩))
    · exact Or.inr (hok.waitList_eq_nil rfl (fun j g hj hg => hwriter ⟨j, g, hj, hg⟩))

/-- Task 0 waits for two elements, task 1 brings them one by one. -/
def triggeredRead : List (MonitorEvent 2 (PipeOp (Element 1) UInt8 Unit)) :=
  [.kernel (.addTask 0), .kernel (.addTask 1), .kernel .onStart,
    .call 0 (.readBulkTriggered () (some (fun _ => 0)) 2 4 waitInfinite), .kernel (.onTick 1),
    .call 1 (.write (fun _ => 1) waitInfinite), .call 1 (.write (fun _ => 2) waitInfinite),
    .kernel (.onTick 1), .resume 0]

theorem triggeredRead_wakeups :
    let s := (MonitorSystem.run syncConfig (Pipe.initial (fun _ => 0)) triggeredRead :
      MonitorSystem 2 (Pipe 4 1) _ (RoundRobin (Fin 2)))
    Quiescent s ∧ (s.kernel.waitList cvNotEmpty = [] ∨ s.kernel.waitList cvNotFull = []) := by
  intro s
  have hquiet : Quiescent s := by decide +kernel
  have hOrderly : Runs.Along (MonitorSystem.step syncConfig) Orderly
      (MonitorSystem.initial (Pipe.initial (fun _ => 0)) :
        MonitorSystem 2 (Pipe 4 1) _ (RoundRobin (Fin 2))) triggeredRead := by
    decide +kernel
  have hTriggers : Runs.Along (MonitorSystem.step syncConfig)
      (fun s e => TriggersOk (abstract s) (abstractEvent e))
      (MonitorSystem.initial (Pipe.initial (fun _ => 0)) :
        MonitorSystem 2 (Pipe 4 1) _ (RoundRobin (Fin 2))) triggeredRead := by
    refine ⟨trivial, trivial, trivial, ?_, trivial, trivial, trivial, trivial, ?_, trivial⟩
    · exact (by decide : PipeStorage.clampTrigger 2 4 ≤ 4)
    · simp only [abstractEvent, TriggersOk]
      split
      · intro _ _ hblocked
        exact absurd (by decide +kernel) hblocked
      · trivial
  exact ⟨hquiet, (run_pipeWakeups (by decide) _ (hOrderly.and hTriggers) hquiet).2⟩

/-- Task 0 waits for two elements, then task 1 for one.  Task 2 writes one: its notification goes to
task 0, which finds too few elements and waits again. -/
def absorbedNotification : List (MonitorEvent 3 (PipeOp (Element 1) UInt8 Unit)) :=
  [.kernel (.addTask 0), .kernel (.addTask 1), .kernel (.addTask 2), .kernel .onStart,
    .call 0 (.readBulkTriggered () (some (fun _ => 0)) 2 4 waitInfinite), .kernel (.onTick 1),
    .call 1 (.read waitInfinite), .kernel (.onTick 1), .call 2 (.write (fun _ => 1) waitInfinite),
    .kernel (.onTick 1), .resume 0]

/-- Task 0 waits for two elements of a pipe of capacity 1, task 1 for a place. -/
def triggerAboveCapacity : List (MonitorEvent 2 (PipeOp (Element 1) UInt8 Unit)) :=
  [.kernel (.addTask 0), .kernel (.addTask 1), .kernel .onStart,
    .call 0 (.readBulkTriggered () (some (fun _ => 0)) 2 2 waitInfinite), .kernel (.onTick 1),
    .call 1 (.write (fun _ => 1) waitInfinite), .kernel (.onTick 1), .resume 0, .kernel (.onTick 1),
    .call 1 (.write (fun _ => 2) waitInfinite)]

/-- A task stays blocked in `Read` with an element in the pipe, and a reader and a writer wait for
each other. -/
theorem absorbedNotification_blocks :
    (Runs.Along (MonitorSystem.step syncConfig) Orderly
        (MonitorSystem.initial (Pipe.initial (fun _ => 0)) :
          MonitorSystem 3 (Pipe 4 1) _ (RoundRobin (Fin 3))) absorbedNotification ∧
      let s := (MonitorSystem.run syncConfig (Pipe.initial (fun _ => 0)) absorbedNotification :
        MonitorSystem 3 (Pipe 4 1) _ (RoundRobin (Fin 3)))
      Quiescent s ∧
        ¬ ∀ i f, s.pending i = some f → (s.kernel.tasks i).isWaiting = true → isPlainRead f = true →
          s.state.count = 0) ∧
    (Runs.Along (MonitorSystem.step syncConfig) Orderly
        (MonitorSystem.initial (Pipe.initial (fun _ => 0)) :
          MonitorSystem 2 (Pipe 1 1) _ (RoundRobin (Fin 2))) triggerAboveCapacity ∧
      let s := (MonitorSystem.run syncConfig (Pipe.initial (fun _ => 0)) triggerAboveCapacity :
        MonitorSystem 2 (Pipe 1 1) _ (RoundRobin (Fin 2)))
      Quiescent s ∧ s.kernel.waitList cvNotEmpty = [0] ∧ s.kernel.waitList cvNotFull = [1]) := by
  refine ⟨⟨by decide +kernel, by decide +kernel, fun h => ?_⟩, by decide +kernel⟩
  obtain ⟨f, hf, hplain⟩ := Option.map_eq_some_iff.mp
    (by decide +kernel : ((MonitorSystem.run syncConfig (Pipe.initial (fun _ => 0))
      absorbedNotification : MonitorSystem 3 (Pipe 4 1) _ (RoundRobin (Fin 3))).pending 1).map
        isPlainRead = some true)
  exact absurd (h 1 f hf (by decide +kernel) hplain) (by decide +kernel)

end Stk.Analysis
