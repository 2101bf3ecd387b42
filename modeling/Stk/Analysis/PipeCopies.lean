import Stk.Analysis.PipeStorage
import Stk.Analysis.StrategyListInvariant

/-!
# The two ways to copy in `PipeT`

`WriteBulk` and `ReadBulk` of `PipeT` copy in blocks where the elements are scalar and in an element
loop where they are not.  Both write the same cells (`fillLoop_eq`, `drainLoop_eq`), so a pipe whose
elements are copied in blocks goes, under `toLoop`, through the states of one that uses the loop:
in every stretch of a method and in whole runs of the system (`run_copyPaths`).
-/

set_option autoImplicit false

namespace Stk.Analysis

open Stk.Model

variable {T : Type} {capacity : ℕ} {isScalar : Bool} {p : PipeT T capacity isScalar}

/-- The indices and the fill level are in range. -/
structure InRange (p : PipeT T capacity isScalar) : Prop where
  count_le : p.count ≤ capacity
  head_lt : p.head < capacity
  tail_lt : p.tail < capacity

namespace InRange

theorem initial (hcap : 0 < capacity) (buffer : ℕ → T) :
    InRange (PipeT.initial buffer : PipeT T capacity isScalar) :=
  ⟨Nat.zero_le _, hcap, hcap⟩

theorem write (h : InRange p) (hroom : p.count ≠ capacity) (x : T) : InRange (p.write x) := by
  have hle := h.count_le
  refine ⟨?_, Nat.mod_lt _ (lt_of_le_of_lt (Nat.zero_le _) h.head_lt), h.tail_lt⟩
  show p.count + 1 ≤ capacity
  omega

theorem read (h : InRange p) : InRange p.read.2 := by
  have hle := h.count_le
  refine ⟨?_, h.head_lt, Nat.mod_lt _ (lt_of_le_of_lt (Nat.zero_le _) h.tail_lt)⟩
  show p.count - 1 ≤ capacity
  omega

theorem fillBlock (h : InRange p) (src : ℕ → T) (i : ℕ) {len : ℕ} (hlen : len ≤ capacity - p.count) :
    InRange (p.fillBlock src i len) := by
  have hle := h.count_le
  refine ⟨?_, Nat.mod_lt _ (lt_of_le_of_lt (Nat.zero_le _) h.head_lt), h.tail_lt⟩
  show p.count + len ≤ capacity
  omega

theorem drainBlock (h : InRange p) (dst : ℕ → T) (i len : ℕ) : InRange (p.drainBlock dst i len).2 := by
  have hle := h.count_le
  refine ⟨?_, h.head_lt, Nat.mod_lt _ (lt_of_le_of_lt (Nat.zero_le _) h.tail_lt)⟩
  show p.count - len ≤ capacity
  omega

theorem reset (h : InRange p) : InRange p.reset :=
  ⟨Nat.zero_le _, lt_of_le_of_lt (Nat.zero_le _) h.head_lt, lt_of_le_of_lt (Nat.zero_le _) h.head_lt⟩

end InRange

/-! ## The element loops -/

/-- INTERNAL: the loop of `WriteBulk` writes `len` cells from the head on. -/
theorem fillLoop_cells (src : ℕ → T) {len : ℕ} (hlen : len ≤ capacity) (i : ℕ) (hhead : p.head < capacity) :
    (∀ m < len, (PipeT.fillLoop src len p i).buffer ((p.head + m) % capacity) = src (i + m)) ∧
      ∀ c, (∀ m < len, c ≠ (p.head + m) % capacity) → (PipeT.fillLoop src len p i).buffer c = p.buffer c := by
  induction len generalizing p i with
  | zero => exact ⟨fun m hm => absurd hm (Nat.not_lt_zero m), fun c _ => rfl⟩
  | succ len ih =>
    have hnext : (p.write (src i)).head < capacity := Nat.mod_lt _ (by omega)
    obtain ⟨hwritten, hother⟩ := ih (by omega) (i + 1) hnext
    have hindex : ∀ m, ((p.write (src i)).head + m) % capacity = (p.head + (m + 1)) % capacity := by
      intro m
      show ((p.head + 1) % capacity + m) % capacity = _
      rw [Nat.mod_add_mod]
      congr 1
      omega
    have hfirst : p.head = (p.head + 0) % capacity := (Nat.mod_eq_of_lt hhead).symm
    constructor
    · intro m hm
      cases m with
      | zero =>
        -- the rest of the loop does not come back to the first cell
        rw [← hfirst, Nat.add_zero, PipeT.fillLoop, hother p.head]
        · exact Function.update_self _ _ _
        · intro m hm
          rw [hindex, ← Nat.mod_eq_of_lt hhead, ← Nat.add_zero p.head, Nat.mod_add_mod, Nat.add_assoc, Nat.zero_add]
          exact RingBuffer.index_ne (by omega) (by omega) (by omega)
      | succ m =>
        have hcell := hwritten m (by omega)
        rw [hindex] at hcell
        rw [PipeT.fillLoop, hcell]
        congr 1
        omega
    · intro c hc
      have hne : c ≠ p.head := by
        rw [hfirst]
        exact hc 0 (by omega)
      rw [PipeT.fillLoop, hother c]
      · exact Function.update_of_ne hne _ _
      · intro m hm
        rw [hindex]
        exact hc (m + 1) (by omega)

/-- INTERNAL: the indices after the loop of `WriteBulk`. -/
theorem fillLoop_indices (src : ℕ → T) (len i : ℕ) (hhead : p.head < capacity) :
    (PipeT.fillLoop src len p i).head = (p.head + len) % capacity ∧
      (PipeT.fillLoop src len p i).count = p.count + len ∧ (PipeT.fillLoop src len p i).tail = p.tail := by
  induction len generalizing p i with
  | zero => exact ⟨(Nat.mod_eq_of_lt hhead).symm, rfl, rfl⟩
  | succ len ih =>
    have hnext : (p.write (src i)).head < capacity := Nat.mod_lt _ (by omega)
    obtain ⟨hh, hc, ht⟩ := ih (i + 1) hnext
    refine ⟨?_, ?_, ht⟩
    · rw [PipeT.fillLoop, hh]
      show ((p.head + 1) % capacity + len) % capacity = _
      rw [Nat.mod_add_mod]
      congr 1
      omega
    · rw [PipeT.fillLoop, hc]
      show p.count + 1 + len = _
      omega

/-- The loop of `WriteBulk` leaves what the block copy leaves. -/
theorem fillLoop_eq (src : ℕ → T) {len : ℕ} (hlen : len ≤ capacity) (i : ℕ) (hhead : p.head < capacity) :
    PipeT.fillLoop src len p i = p.fillBlock src i len := by
  obtain ⟨hh, hc, ht⟩ := fillLoop_indices src len i hhead
  obtain ⟨hwritten, hother⟩ := fillLoop_cells src hlen i hhead
  have hbuffer : (PipeT.fillLoop src len p i).buffer = RingBuffer.copyIn capacity 1 p.buffer p.head src i len := by
    funext c
    by_cases hcell : ∃ m < len, c = (p.head + m) % capacity
    · obtain ⟨m, hm, rfl⟩ := hcell
      rw [hwritten m hm, RingBuffer.copyIn_written hhead hlen p.buffer src i hm]
    · push Not at hcell
      rw [hother c hcell, RingBuffer.copyIn_other hhead hlen p.buffer src i hcell]
  generalize PipeT.fillLoop src len p i = q at hh hc ht hbuffer
  cases q
  dsimp only at hh hc ht hbuffer
  subst hh hc ht hbuffer
  rfl

/-- INTERNAL: the loop of `ReadBulk` reads `len` cells from the tail on. -/
theorem drainLoop_cells (dst : ℕ → T) (len i : ℕ) (htail : p.tail < capacity) :
    (∀ m < len, (PipeT.drainLoop len p dst i).1 (i + m) = p.buffer ((p.tail + m) % capacity)) ∧
      ∀ c, (c < i ∨ i + len ≤ c) → (PipeT.drainLoop len p dst i).1 c = dst c := by
  induction len generalizing p dst i with
  | zero => exact ⟨fun m hm => absurd hm (Nat.not_lt_zero m), fun c _ => rfl⟩
  | succ len ih =>
    have hnext : p.read.2.tail < capacity := Nat.mod_lt _ (by omega)
    obtain ⟨hread, hother⟩ := ih (Function.update dst i p.read.1) (i + 1) hnext
    constructor
    · intro m hm
      cases m with
      | zero =>
        show (PipeT.drainLoop len p.read.2 (Function.update dst i p.read.1) (i + 1)).1 i = p.buffer (p.tail % capacity)
        rw [hother i (Or.inl (by omega)), Nat.mod_eq_of_lt htail]
        exact Function.update_self _ _ _
      | succ m =>
        have hcell := hread m (by omega)
        have hindex : (p.read.2.tail + m) % capacity = (p.tail + (m + 1)) % capacity := by
          show ((p.tail + 1) % capacity + m) % capacity = _
          rw [Nat.mod_add_mod]
          congr 1
          omega
        rw [hindex, show i + 1 + m = i + (m + 1) by omega] at hcell
        exact hcell
    · intro c hc
      rw [PipeT.drainLoop, hother c (by omega)]
      exact Function.update_of_ne (by omega) _ _

/-- INTERNAL: the pipe after the loop of `ReadBulk`. -/
theorem drainLoop_indices (dst : ℕ → T) (len i : ℕ) (htail : p.tail < capacity) :
    (PipeT.drainLoop len p dst i).2 = { p with tail := (p.tail + len) % capacity, count := p.count - len } := by
  induction len generalizing p dst i with
  | zero =>
    rw [PipeT.drainLoop, Nat.add_zero, Nat.mod_eq_of_lt htail]
    rfl
  | succ len ih =>
    have hnext : p.read.2.tail < capacity := Nat.mod_lt _ (by omega)
    rw [PipeT.drainLoop, ih _ (i + 1) hnext]
    show ({ p with tail := ((p.tail + 1) % capacity + len) % capacity, count := p.count - 1 - len } :
      PipeT T capacity isScalar) = _
    rw [Nat.mod_add_mod, Nat.sub_sub, Nat.add_assoc, Nat.add_comm 1 len]

/-- The loop of `ReadBulk` leaves what the block copy leaves. -/
theorem drainLoop_eq (dst : ℕ → T) {len : ℕ} (hlen : len ≤ capacity) (i : ℕ) (htail : p.tail < capacity) :
    PipeT.drainLoop len p dst i = p.drainBlock dst i len := by
  obtain ⟨hread, hother⟩ := drainLoop_cells dst len i htail
  refine Prod.ext ?_ (drainLoop_indices dst len i htail)
  funext c
  show _ = RingBuffer.copyOut capacity 1 p.buffer p.tail dst i len c
  by_cases hin : i ≤ c ∧ c < i + len
  · obtain ⟨m, rfl⟩ := Nat.exists_eq_add_of_le hin.1
    rw [hread m (by omega), RingBuffer.copyOut_read htail hlen p.buffer dst i (by omega)]
  · have hout : c < i ∨ i + len ≤ c := by omega
    rw [hother c hout, RingBuffer.copyOut_other capacity p.tail p.buffer dst i hout]

/-! ## The pipe with the element loop -/

/-- The same pipe over elements that are not scalar. -/
def toLoop (p : PipeT T capacity isScalar) : PipeT T capacity false :=
  ⟨p.buffer, p.count, p.head, p.tail⟩

/-- INTERNAL: one round of `WriteBulk` is a block copy, whichever way it copies. -/
theorem fill_eq (h : InRange p) (src : ℕ → T) (i n : ℕ) :
    p.fill src i n = (min n (capacity - p.count), p.fillBlock src i (min n (capacity - p.count))) := by
  unfold PipeT.fill
  dsimp only
  rw [ite_lt_eq_min]
  split
  · rw [fillLoop_eq src (by omega) i h.head_lt]
  · rfl

/-- INTERNAL: one round of `ReadBulk` is a block copy, whichever way it copies. -/
theorem drain_eq (h : InRange p) (dst : ℕ → T) (i n : ℕ) :
    p.drain dst i n = (min n p.count, p.drainBlock dst i (min n p.count)) := by
  have hle := h.count_le
  unfold PipeT.drain
  dsimp only
  rw [ite_lt_eq_min]
  split
  · rw [drainLoop_eq dst (by omega) i h.tail_lt]
  · rfl

theorem InRange.toLoop (h : InRange p) : InRange (toLoop p) := ⟨h.count_le, h.head_lt, h.tail_lt⟩

theorem toLoop_fill (h : InRange p) (src : ℕ → T) (i n : ℕ) :
    (toLoop p).fill src i n = ((p.fill src i n).1, toLoop (p.fill src i n).2) ∧
      InRange (p.fill src i n).2 := by
  rw [fill_eq h, fill_eq h.toLoop]
  exact ⟨rfl, h.fillBlock src i (Nat.min_le_right _ _)⟩

theorem toLoop_drain (h : InRange p) (dst : ℕ → T) (i n : ℕ) :
    (toLoop p).drain dst i n =
        ((p.drain dst i n).1, (p.drain dst i n).2.1, toLoop (p.drain dst i n).2.2) ∧
      InRange (p.drain dst i n).2.2 := by
  rw [drain_eq h, drain_eq h.toLoop]
  exact ⟨rfl, h.drainBlock dst i _⟩

/-! ## Methods and runs -/

/-- The stretch with its pipe as one with the element loop. -/
def loopStretch (t : PipeStorage.Stretch (PipeT T capacity isScalar) T T Empty) :
    PipeStorage.Stretch (PipeT T capacity false) T T Empty :=
  ⟨toLoop t.state, t.notify, t.next⟩

/-- INTERNAL: the stretch leaves an in-range pipe, and the same stretch with the element loop is `t'`. -/
def Mirrors (t : PipeStorage.Stretch (PipeT T capacity isScalar) T T Empty)
    (t' : PipeStorage.Stretch (PipeT T capacity false) T T Empty) : Prop :=
  loopStretch t = t' ∧ InRange t.state

namespace Mirrors

theorem waitOr (h : InRange p) (ms : List (Mesa.Notify SyncId)) (frame : PipeFrame T T Empty)
    (r : PipeReturn T T) : Mirrors (PipeStorage.waitOr p ms frame r) (PipeStorage.waitOr (toLoop p) ms frame r) := by
  unfold PipeStorage.waitOr
  split
  · exact ⟨rfl, h⟩
  · exact ⟨rfl, h⟩

theorem writeFrom (h : InRange p) (data : T) (timeout : ℤ) :
    Mirrors (PipeStorage.writeFrom p data timeout) (PipeStorage.writeFrom (toLoop p) data timeout) := by
  unfold PipeStorage.writeFrom
  have hfull : PipeStorage.isFull (toLoop p) = PipeStorage.isFull p := rfl
  rw [hfull]
  split
  · exact waitOr h _ _ _
  · next hroom =>
    have hne : p.count ≠ capacity := by
      intro heq
      exact hroom (decide_eq_true heq)
    exact ⟨rfl, h.write hne data⟩

theorem readFrom (h : InRange p) (timeout : ℤ) :
    Mirrors (PipeStorage.readFrom p timeout) (PipeStorage.readFrom (toLoop p) timeout) := by
  unfold PipeStorage.readFrom
  have hempty : PipeStorage.isEmpty (toLoop p) = PipeStorage.isEmpty p := rfl
  rw [hempty]
  split
  · exact waitOr h _ _ _
  · exact ⟨rfl, h.read⟩

theorem writeBulkFrom (ticks : ℤ) (src : ℕ → T) (count : ℕ) (d : Deadline) (fuel : ℕ) (h : InRange p)
    (written : ℕ) (ms : List (Mesa.Notify SyncId)) :
    Mirrors (PipeStorage.writeBulkFrom ticks src count d fuel p written ms)
      (PipeStorage.writeBulkFrom ticks src count d fuel (toLoop p) written ms) := by
  induction fuel generalizing p written ms with
  | zero => exact ⟨rfl, h⟩
  | succ fuel ih =>
    unfold PipeStorage.writeBulkFrom
    have hfull : PipeStorage.isFull (toLoop p) = PipeStorage.isFull p := rfl
    rw [hfull]
    split
    · split
      · exact waitOr h _ _ _
      · obtain ⟨hsame, hin⟩ := toLoop_fill h src written (count - written)
        have hfill : PipeStorage.fill (toLoop p) src written (count - written) = _ := hsame
        rw [hfill]
        exact ih hin _ _
    · exact ⟨rfl, h⟩

theorem readBulkFrom (ticks : ℤ) (count : ℕ) (d : Deadline) (fuel : ℕ) (h : InRange p) (dst : ℕ → T)
    (readCount : ℕ) (ms : List (Mesa.Notify SyncId)) :
    Mirrors (PipeStorage.readBulkFrom ticks count d fuel p dst readCount ms)
      (PipeStorage.readBulkFrom ticks count d fuel (toLoop p) dst readCount ms) := by
  induction fuel generalizing p dst readCount ms with
  | zero => exact ⟨rfl, h⟩
  | succ fuel ih =>
    unfold PipeStorage.readBulkFrom
    have hempty : PipeStorage.isEmpty (toLoop p) = PipeStorage.isEmpty p := rfl
    rw [hempty]
    split
    · split
      · exact waitOr h _ _ _
      · obtain ⟨hsame, hin⟩ := toLoop_drain h dst readCount (count - readCount)
        have hdrain : PipeStorage.drain (toLoop p) dst readCount (count - readCount) = _ := hsame
        rw [hdrain]
        exact ih hin _ _ _
    · exact ⟨rfl, h⟩

/-- INTERNAL: the first stretch of a method. -/
theorem call (ticks : ℤ) (h : InRange p) (op : PipeOp T T Empty) :
    Mirrors (PipeStorage.call ticks p op) (PipeStorage.call ticks (toLoop p) op) := by
  cases op with
  | write data timeout => exact writeFrom h data timeout
  | writeBulk src count timeout =>
    cases src with
    | none => exact ⟨rfl, h⟩
    | some src =>
      simp only [PipeStorage.call]
      split
      · exact writeBulkFrom ticks src count _ count h 0 []
      · exact ⟨rfl, h⟩
  | read timeout => exact readFrom h timeout
  | readBulk dst count timeout =>
    cases dst with
    | none => exact ⟨rfl, h⟩
    | some dst =>
      simp only [PipeStorage.call]
      split
      · exact readBulkFrom ticks count _ count h dst 0 []
      · exact ⟨rfl, h⟩
  | readBulkTriggered has => exact has.elim
  | reset => exact ⟨rfl, h.reset⟩

/-- INTERNAL: the stretch of a method whose `Wait` has returned. -/
theorem resume (ticks : ℤ) (h : InRange p) (f : PipeFrame T T Empty) (r : WaitResult) :
    Mirrors (PipeStorage.resume ticks p f r) (PipeStorage.resume ticks (toLoop p) f r) := by
  cases r with
  | timeout =>
    cases f with
    | readBulkTriggered has => exact has.elim
    | _ => exact ⟨rfl, h⟩
  | signal =>
    cases f with
    | write data timeout => exact writeFrom h data timeout
    | writeBulk src count d written timeout => exact writeBulkFrom ticks src count d _ h written []
    | read timeout => exact readFrom h timeout
    | readBulk dst count d readCount timeout => exact readBulkFrom ticks count d _ h dst readCount []
    | readBulkTriggered has => exact has.elim

end Mirrors

section System

variable {n : ℕ} {σ : Type} [SwitchStrategy (Fin n) σ] {cfg : Config}

/-- The system with its pipe as one with the element loop. -/
def loopSystem (s : MonitorSystem n (PipeT T capacity isScalar) (PipeFrame T T Empty) σ) :
    MonitorSystem n (PipeT T capacity false) (PipeFrame T T Empty) σ :=
  ⟨s.kernel, toLoop s.state, s.pending⟩

omit [SwitchStrategy (Fin n) σ] in
/-- INTERNAL: both systems run the same stretch in an event. -/
theorem loopSystem_stretch {s : MonitorSystem n (PipeT T capacity isScalar) (PipeFrame T T Empty) σ}
    (h : InRange s.state) (e : MonitorEvent n (PipeOp T T Empty)) :
    (loopSystem s).stretch cfg e = (s.stretch cfg e).map loopStretch ∧
      ∀ t, s.stretch cfg e = some t → InRange t.state := by
  cases e with
  | call i op =>
    obtain ⟨hsame, hin⟩ := Mirrors.call s.kernel.ticks h op
    have hkernel : (loopSystem s).kernel = s.kernel := rfl
    have hstate : (loopSystem s).state = toLoop s.state := rfl
    simp only [MonitorSystem.stretch]
    rw [hkernel, hstate]
    by_cases hrun : (cfg.isSyncMode && s.kernel.canCall i) = true
    · rw [if_pos hrun, if_pos hrun]
      refine ⟨congrArg some hsame.symm, ?_⟩
      rintro t ⟨⟩
      exact hin
    · rw [if_neg hrun, if_neg hrun]
      exact ⟨rfl, nofun⟩
  | resume i =>
    simp only [MonitorSystem.stretch, loopSystem]
    cases s.pending i with
    | none => exact ⟨rfl, nofun⟩
    | some f =>
      cases s.kernel.waitResult i with
      | none => exact ⟨rfl, nofun⟩
      | some r =>
        obtain ⟨hsame, hin⟩ := Mirrors.resume s.kernel.ticks h f r
        refine ⟨congrArg some hsame.symm, ?_⟩
        rintro t ⟨⟩
        exact hin
  | isr op =>
    obtain ⟨hsame, hin⟩ := Mirrors.call s.kernel.ticks h op
    have hcall : Monitor.call s.kernel.ticks (toLoop s.state) op =
        loopStretch (Monitor.call s.kernel.ticks s.state op) := hsame.symm
    have hinr : InRange (Monitor.call s.kernel.ticks s.state op).state := hin
    simp only [MonitorSystem.stretch, loopSystem]
    rw [hcall]
    generalize Monitor.call s.kernel.ticks s.state op = t at hinr
    obtain ⟨m, ms, next⟩ := t
    cases next with
    | wait f => exact ⟨rfl, nofun⟩
    | done r =>
      simp only [loopStretch]
      split
      · refine ⟨rfl, ?_⟩
        rintro t ⟨⟩
        exact hinr
      · exact ⟨rfl, nofun⟩
  | kernel e => exact ⟨rfl, nofun⟩

/-- INTERNAL: a step of the system, with what the method that returns in it returns. -/
theorem loopSystem_step {s : MonitorSystem n (PipeT T capacity isScalar) (PipeFrame T T Empty) σ}
    (h : InRange s.state) (e : MonitorEvent n (PipeOp T T Empty)) :
    (loopSystem s).stepResult cfg e = (loopSystem (s.stepResult cfg e).1, (s.stepResult cfg e).2) ∧
      InRange (s.stepResult cfg e).1.state := by
  obtain ⟨hstretch, hin⟩ := loopSystem_stretch h e
  have hfollow : ∀ {s : MonitorSystem n (PipeT T capacity isScalar) (PipeFrame T T Empty) σ} (i : Fin n)
      {t : PipeStorage.Stretch (PipeT T capacity isScalar) T T Empty}, InRange t.state →
      (loopSystem s).follow i (loopStretch t) = (loopSystem (s.follow i t).1, (s.follow i t).2) ∧
        InRange (s.follow i t).1.state := by
    rintro s i ⟨m, ms, next⟩ hin
    cases next with
    | wait f => exact ⟨rfl, hin⟩
    | done r => exact ⟨rfl, hin⟩
  unfold MonitorSystem.stepResult
  rw [hstretch]
  generalize s.stretch cfg e = o at hin
  cases e with
  | call i op =>
    cases o with
    | none => exact ⟨rfl, h⟩
    | some t => exact hfollow i (hin t rfl)
  | resume i =>
    cases o with
    | none => exact ⟨rfl, h⟩
    | some t =>
      exact hfollow (s := { s with kernel := { s.kernel with call := Function.update s.kernel.call i none } }) i
        (hin t rfl)
  | isr op =>
    cases o with
    | none => exact ⟨rfl, h⟩
    | some t =>
      have hstate := hin t rfl
      obtain ⟨m, ms, next⟩ := t
      cases next with
      | wait f => exact ⟨rfl, hstate⟩
      | done r => exact ⟨rfl, hstate⟩
  | kernel e =>
    cases e with
    | waitReturn i =>
      have hpending : (loopSystem s).pending i = s.pending i := rfl
      dsimp only
      rw [hpending]
      split
      · exact ⟨rfl, h⟩
      · exact ⟨rfl, h⟩
    | _ =>
      have howns : (Monitor.owns (PipeT T capacity false) : SyncId → Bool) =
        Monitor.owns (PipeT T capacity isScalar) := rfl
      dsimp only
      rw [howns]
      split
      · exact ⟨rfl, h⟩
      · exact ⟨rfl, h⟩

/-- What the methods return in the course of a run. -/
def returnsAlong (cfg : Config) (s : MonitorSystem n (PipeT T capacity isScalar) (PipeFrame T T Empty) σ)
    (es : List (MonitorEvent n (PipeOp T T Empty))) : List (PipeReturn T T) :=
  Runs.observed (MonitorSystem.step cfg) (fun s e => (s.stepResult cfg e).2) s es

/-- INTERNAL: whole runs from an in-range pipe. -/
theorem loopSystem_along {s : MonitorSystem n (PipeT T capacity isScalar) (PipeFrame T T Empty) σ}
    (h : InRange s.state) (es : List (MonitorEvent n (PipeOp T T Empty))) :
    loopSystem (es.foldl (MonitorSystem.step cfg) s) = es.foldl (MonitorSystem.step cfg) (loopSystem s) ∧
      returnsAlong cfg s es = returnsAlong cfg (loopSystem s) es := by
  induction es generalizing s with
  | nil => exact ⟨rfl, rfl⟩
  | cons e es ih =>
    obtain ⟨hstep, hin⟩ := loopSystem_step h e
    have hnext : (loopSystem s).step cfg e = loopSystem (s.step cfg e) := congrArg Prod.fst hstep
    have hresult : ((loopSystem s).stepResult cfg e).2 = (s.stepResult cfg e).2 := congrArg Prod.snd hstep
    obtain ⟨hend, hreturns⟩ := ih hin
    refine ⟨?_, ?_⟩
    · rw [List.foldl_cons, List.foldl_cons, hnext]
      exact hend
    · unfold returnsAlong at hreturns ⊢
      rw [Runs.observed, Runs.observed, hresult, hnext]
      exact congrArg _ hreturns

/-- **Copies of `PipeT`.**  From every fill level and every position of the indices, each stretch of a
method leaves the same buffer, indices, count, caller's array and result with the block copy as with
the element loop, and so does every run of the system, however often its calls wait. -/
theorem run_copyPaths (hcap : 0 < capacity) (cfg : Config) :
    (∀ p : PipeT T capacity true, InRange p → ∀ ticks,
      (∀ op, loopStretch (PipeStorage.call ticks p op) = PipeStorage.call ticks (toLoop p) op) ∧
        ∀ f r, loopStretch (PipeStorage.resume ticks p f r) = PipeStorage.resume ticks (toLoop p) f r) ∧
    ∀ buffer (es : List (MonitorEvent n (PipeOp T T Empty))),
      let s : MonitorSystem n (PipeT T capacity true) (PipeFrame T T Empty) σ :=
        MonitorSystem.initial (PipeT.initial buffer)
      let s' : MonitorSystem n (PipeT T capacity false) (PipeFrame T T Empty) σ :=
        MonitorSystem.initial (PipeT.initial buffer)
      InRange (es.foldl (MonitorSystem.step cfg) s).state ∧
        loopSystem (es.foldl (MonitorSystem.step cfg) s) = es.foldl (MonitorSystem.step cfg) s' ∧
        returnsAlong cfg s es = returnsAlong cfg s' es := by
  constructor
  · intro p h ticks
    exact ⟨fun op => (Mirrors.call ticks h op).1, fun f r => (Mirrors.resume ticks h f r).1⟩
  · intro buffer es s s'
    have hin : InRange s.state := .initial hcap buffer
    refine ⟨?_, loopSystem_along hin es⟩
    exact Runs.foldl_keeps (I := fun s : MonitorSystem n (PipeT T capacity true) (PipeFrame T T Empty) σ =>
      InRange s.state) (fun s e _ h => (loopSystem_step h e).2) hin

end System

/-- A pipe of nine cells whose head is two cells before the end of the ring. -/
def wrappedPipe : PipeT ℕ 9 true := ⟨fun i => i, 4, 7, 3⟩

/-- Four elements are written over the end of the ring. -/
theorem wrappedPipe_copies :
    InRange wrappedPipe ∧
      loopStretch (PipeStorage.call 0 wrappedPipe (.writeBulk (some (fun i => 100 + i)) 4 0)) =
        PipeStorage.call 0 (toLoop wrappedPipe) (.writeBulk (some (fun i => 100 + i)) 4 0) ∧
      (PipeStorage.call 0 wrappedPipe (.writeBulk (some (fun i => 100 + i)) 4 0)).state.head = 2 := by
  have hin : InRange wrappedPipe := ⟨by decide, by decide, by decide⟩
  have hcopies := run_copyPaths (T := ℕ) (n := 1) (σ := RoundRobin (Fin 1)) (by decide : 0 < 9) syncConfig
  exact ⟨hin, (hcopies.1 wrappedPipe hin 0).1 _, by decide⟩

end Stk.Analysis
