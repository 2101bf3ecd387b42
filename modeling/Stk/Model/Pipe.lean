import Stk.Model.MessageQueue
import Stk.Model.Monitor

/-!
# Pipes

`sync::Pipe` over bytes with a run-time element size and `sync::PipeT<T, N>` over a type
(stk_sync_pipe.h).  The two classes have the same control flow and differ in how they store and copy
elements, and in `ReadBulkTriggered`, which only `Pipe` has.  `PipeStorage` is what they differ in;
the stretches of the methods are written once, over it.

The assertions of the pipes are on null pointers and on the count, `m_count <= CAPACITY_MAX - 1` at
the entry of `Write`; a release build compiles them out, and so does the model.
-/

set_option autoImplicit false

namespace Stk.Model

/-! ## Storage -/

/-- The storage of a pipe with elements `E`: `write` and `read` move one element, `fill` and `drain`
a chunk from or to an array of `V` at an offset in elements, as far as there is space or as there
are elements.  `X` is empty for a class without `ReadBulkTriggered`. -/
class PipeStorage (μ : Type) (E V X : outParam Type) where
  capacity : ℕ
  count : μ → ℕ
  write : μ → E → μ
  read : μ → E × μ
  fill : μ → (ℕ → V) → ℕ → ℕ → ℕ × μ
  drain : μ → (ℕ → V) → ℕ → ℕ → ℕ × (ℕ → V) × μ
  reset : μ → μ

/-- The bytes of one element. -/
abbrev Element (elementSize : ℕ) := Fin elementSize → UInt8

/-- `Pipe` (stk_sync_pipe.h:315-323). -/
structure Pipe (capacity elementSize : ℕ) where
  buffer : ℕ → UInt8
  count : ℕ
  head : ℕ
  tail : ℕ

namespace Pipe

variable {capacity elementSize : ℕ}

/-- The constructor (stk_sync_pipe.h:330-342). -/
def initial (buffer : ℕ → UInt8) : Pipe capacity elementSize := ⟨buffer, 0, 0, 0⟩

/-- `Next` (stk_sync_pipe.h:310). -/
def next (_ : Pipe capacity elementSize) (idx : ℕ) : ℕ := (idx + 1) % capacity

/-- `Write` once there is space (stk_sync_pipe.h:367-369). -/
def write (p : Pipe capacity elementSize) (data : Element elementSize) : Pipe capacity elementSize :=
  { p with
    buffer := RingBuffer.copyTo p.buffer p.head data
    head := p.next p.head
    count := p.count + 1 }

/-- `Read` once there is an element (stk_sync_pipe.h:472-474). -/
def read (p : Pipe capacity elementSize) : Element elementSize × Pipe capacity elementSize :=
  (RingBuffer.cellAt elementSize p.buffer p.tail,
    { p with tail := p.next p.tail, count := p.count - 1 })

/-- The copy of one round of `WriteBulk` (stk_sync_pipe.h:424-440). -/
def fill (p : Pipe capacity elementSize) (src : ℕ → UInt8) (written count : ℕ) :
    ℕ × Pipe capacity elementSize :=
  let available := capacity - p.count
  let toWrite := if count < available then count else available
  (toWrite, { p with
    buffer := RingBuffer.copyIn capacity elementSize p.buffer p.head src written toWrite
    head := (p.head + toWrite) % capacity
    count := p.count + toWrite })

/-- `DrainLocked` (stk_sync_pipe.h:487-503) at the element offset `readCount` of `dst`. -/
def drainLocked (p : Pipe capacity elementSize) (dst : ℕ → UInt8) (readCount count : ℕ) :
    ℕ × (ℕ → UInt8) × Pipe capacity elementSize :=
  let toRead := min count p.count
  (toRead, RingBuffer.copyOut capacity elementSize p.buffer p.tail dst readCount toRead,
    { p with tail := (p.tail + toRead) % capacity, count := p.count - toRead })

/-- The indices after `Reset` (stk_sync_pipe.h:618-620). -/
def reset (p : Pipe capacity elementSize) : Pipe capacity elementSize :=
  { p with count := 0, head := 0, tail := 0 }

instance : PipeStorage (Pipe capacity elementSize) (Element elementSize) UInt8 Unit where
  capacity := capacity
  count := Pipe.count
  write := write
  read := read
  fill := fill
  drain := drainLocked
  reset := reset

end Pipe

/-- `PipeT<T, N>` (stk_sync_pipe.h:671-1062), with `std::is_scalar<T>::value`. -/
structure PipeT (T : Type) (capacity : ℕ) (isScalar : Bool) where
  buffer : ℕ → T
  count : ℕ
  head : ℕ
  tail : ℕ

namespace PipeT

variable {T : Type} {capacity : ℕ} {isScalar : Bool}

/-- The constructor (stk_sync_pipe.h:676). -/
def initial (buffer : ℕ → T) : PipeT T capacity isScalar := ⟨buffer, 0, 0, 0⟩

/-- `Write` once there is space (stk_sync_pipe.h:705-707). -/
def write (p : PipeT T capacity isScalar) (data : T) : PipeT T capacity isScalar :=
  { p with
    buffer := Function.update p.buffer p.head data
    head := (p.head + 1) % capacity
    count := p.count + 1 }

/-- `Read` once there is an element (stk_sync_pipe.h:865-867). -/
def read (p : PipeT T capacity isScalar) : T × PipeT T capacity isScalar :=
  (p.buffer p.tail, { p with tail := (p.tail + 1) % capacity, count := p.count - 1 })

/-- The element loop of `WriteBulk` (stk_sync_pipe.h:795-800). -/
def fillLoop (src : ℕ → T) : ℕ → PipeT T capacity isScalar → ℕ → PipeT T capacity isScalar
  | 0, p, _ => p
  | i + 1, p, written => fillLoop src i (p.write (src written)) (written + 1)

/-- The block copy of `WriteBulk` (stk_sync_pipe.h:804-818). -/
def fillBlock (p : PipeT T capacity isScalar) (src : ℕ → T) (written toWrite : ℕ) :
    PipeT T capacity isScalar :=
  { p with
    buffer := RingBuffer.copyIn capacity 1 p.buffer p.head src written toWrite
    head := (p.head + toWrite) % capacity
    count := p.count + toWrite }

/-- The copy of one round of `WriteBulk` (stk_sync_pipe.h:787-819). -/
def fill (p : PipeT T capacity isScalar) (src : ℕ → T) (written count : ℕ) :
    ℕ × PipeT T capacity isScalar :=
  let available := capacity - p.count
  let toWrite := if count < available then count else available
  (toWrite, if !isScalar || decide (capacity < 8) then fillLoop src toWrite p written
    else p.fillBlock src written toWrite)

/-- The element loop of `ReadBulk` (stk_sync_pipe.h:956-961). -/
def drainLoop : ℕ → PipeT T capacity isScalar → (ℕ → T) → ℕ → (ℕ → T) × PipeT T capacity isScalar
  | 0, p, dst, _ => (dst, p)
  | i + 1, p, dst, readCount =>
    drainLoop i p.read.2 (Function.update dst readCount p.read.1) (readCount + 1)

/-- The block copy of `ReadBulk` (stk_sync_pipe.h:965-979). -/
def drainBlock (p : PipeT T capacity isScalar) (dst : ℕ → T) (readCount toRead : ℕ) :
    (ℕ → T) × PipeT T capacity isScalar :=
  (RingBuffer.copyOut capacity 1 p.buffer p.tail dst readCount toRead,
    { p with tail := (p.tail + toRead) % capacity, count := p.count - toRead })

/-- The copy of one round of `ReadBulk` (stk_sync_pipe.h:950-980). -/
def drain (p : PipeT T capacity isScalar) (dst : ℕ → T) (readCount count : ℕ) :
    ℕ × (ℕ → T) × PipeT T capacity isScalar :=
  let toRead := if count < p.count then count else p.count
  (toRead, if !isScalar || decide (capacity < 8) then drainLoop toRead p dst readCount
    else p.drainBlock dst readCount toRead)

/-- The indices after `Reset` (stk_sync_pipe.h:1010-1012). -/
def reset (p : PipeT T capacity isScalar) : PipeT T capacity isScalar :=
  { p with count := 0, head := 0, tail := 0 }

instance : PipeStorage (PipeT T capacity isScalar) T T Empty where
  capacity := capacity
  count := PipeT.count
  write := write
  read := read
  fill := fill
  drain := drain
  reset := reset

end PipeT

/-! ## Methods -/

/-- `static_cast<Timeout>` of a tick count keeps the low 32 bits. -/
def toTimeout (x : ℤ) : ℤ := Int.bmod x 4294967296

/-- `timed_wait` and `deadline` of the bulk methods (stk_sync_pipe.h:389-394). -/
structure Deadline where
  timedWait : Bool
  deadline : ℤ
deriving DecidableEq

namespace Deadline

def capture (ticks timeout : ℤ) : Deadline :=
  let timedWait := decide (timeout ≠ waitInfinite) && decide (timeout ≠ noWait)
  ⟨timedWait, if timedWait then toTimeout (ticks + timeout) else timeout⟩

/-- `remaining` (stk_sync_pipe.h:404-409); the difference of two `Timeout` values may leave the
range of the type. -/
def remaining (d : Deadline) (ticks : ℤ) : ℤ :=
  if d.timedWait then
    let now := toTimeout ticks
    if now ≥ d.deadline then noWait else toTimeout (d.deadline - now)
  else d.deadline

end Deadline

/-- The methods of a pipe; `src` and `dst` are `none` for a null pointer. -/
inductive PipeOp (E V X : Type) where
  | write (data : E) (timeout : ℤ)
  | writeBulk (src : Option (ℕ → V)) (count : ℕ) (timeout : ℤ)
  | read (timeout : ℤ)
  | readBulk (dst : Option (ℕ → V)) (count : ℕ) (timeout : ℤ)
  | readBulkTriggered (has : X) (dst : Option (ℕ → V)) (trigger maxCount : ℕ) (timeout : ℤ)
  | reset

/-- What a method inside `Wait` remembers, with the timeout of that `Wait`. -/
inductive PipeFrame (E V X : Type) where
  | write (data : E) (timeout : ℤ)
  | writeBulk (src : ℕ → V) (count : ℕ) (deadline : Deadline) (written : ℕ) (timeout : ℤ)
  | read (timeout : ℤ)
  | readBulk (dst : ℕ → V) (count : ℕ) (deadline : Deadline) (readCount : ℕ) (timeout : ℤ)
  | readBulkTriggered (has : X) (dst : ℕ → V) (trigger maxCount : ℕ) (deadline : Deadline) (timeout : ℤ)

/-- What a method returns, with what it has copied to its caller's memory. -/
inductive PipeReturn (E V : Type) where
  | write (success : Bool)
  | writeBulk (written : ℕ)
  | read (data : Option E)
  | readBulk (readCount : ℕ) (dst : Option (ℕ → V))
  | reset

namespace PipeFrame

variable {E V X : Type}

def waitsFor : PipeFrame E V X → SyncId
  | .write _ _ | .writeBulk _ _ _ _ _ => cvNotFull
  | .read _ | .readBulk _ _ _ _ _ | .readBulkTriggered _ _ _ _ _ _ => cvNotEmpty

def timeout : PipeFrame E V X → ℤ
  | .write _ t | .writeBulk _ _ _ _ t | .read t | .readBulk _ _ _ _ t
  | .readBulkTriggered _ _ _ _ _ t => t

end PipeFrame

namespace PipeStorage

variable {μ E V X : Type} [PipeStorage μ E V X]

/-- A stretch of a method of a pipe. -/
abbrev Stretch (μ E V X : Type) := Mesa.Stretch SyncId μ (PipeFrame E V X) (PipeReturn E V)

def isFull (m : μ) : Bool := decide (count m = capacity μ)

def isEmpty (m : μ) : Bool := decide (count m = 0)

/-- A `Wait` of `frame`, which fails at once with `NO_WAIT`. -/
def waitOr (m : μ) (ms : List (Mesa.Notify SyncId)) (frame : PipeFrame E V X) (r : PipeReturn E V) :
    Stretch μ E V X :=
  if frame.timeout = noWait then ⟨m, ms, .done r⟩ else ⟨m, ms, .wait frame⟩

/-- `Write` from the head of its wait loop (stk_sync_pipe.h:356-373, 694-711). -/
def writeFrom (m : μ) (data : E) (timeout : ℤ) : Stretch μ E V X :=
  if isFull m then waitOr m [] (.write data timeout) (.write false)
  else ⟨write m data, [.one cvNotEmpty], .done (.write true)⟩

/-- `Read` from the head of its wait loop (stk_sync_pipe.h:461-478, 854-871). -/
def readFrom (m : μ) (timeout : ℤ) : Stretch μ E V X :=
  if isEmpty m then waitOr m [] (.read timeout) (.read none)
  else ⟨(read m).2, [.one cvNotFull], .done (.read (some (read m).1))⟩

/-- The loop of `WriteBulk` (stk_sync_pipe.h:398-444, 760-823).  A round that does not wait writes
at least one element, so that `count - written` rounds are enough. -/
def writeBulkFrom (ticks : ℤ) (src : ℕ → V) (count : ℕ) (deadline : Deadline) :
    ℕ → μ → ℕ → List (Mesa.Notify SyncId) → Stretch μ E V X
  | 0, m, written, ms => ⟨m, ms, .done (.writeBulk written)⟩
  | fuel + 1, m, written, ms =>
    if written < count then
      if isFull m then
        waitOr m ms (.writeBulk src count deadline written (deadline.remaining ticks))
          (.writeBulk written)
      else
        let r := fill m src written (count - written)
        writeBulkFrom ticks src count deadline fuel r.2 (written + r.1) (ms ++ [.all cvNotEmpty])
    else ⟨m, ms, .done (.writeBulk written)⟩

/-- The loop of `ReadBulk` (stk_sync_pipe.h:529-557, 922-984). -/
def readBulkFrom (ticks : ℤ) (count : ℕ) (deadline : Deadline) :
    ℕ → μ → (ℕ → V) → ℕ → List (Mesa.Notify SyncId) → Stretch μ E V X
  | 0, m, dst, readCount, ms => ⟨m, ms, .done (.readBulk readCount (some dst))⟩
  | fuel + 1, m, dst, readCount, ms =>
    if readCount < count then
      if isEmpty m then
        waitOr m ms (.readBulk dst count deadline readCount (deadline.remaining ticks))
          (.readBulk readCount (some dst))
      else
        let r := drain m dst readCount (count - readCount)
        readBulkFrom ticks count deadline fuel r.2.2 r.2.1 (readCount + r.1) (ms ++ [.all cvNotFull])
    else ⟨m, ms, .done (.readBulk readCount (some dst))⟩

/-- The end of `ReadBulkTriggered` (stk_sync_pipe.h:604). -/
def drainAll (m : μ) (dst : ℕ → V) (maxCount : ℕ) : Stretch μ E V X :=
  let r := drain m dst 0 maxCount
  ⟨r.2.2, [.all cvNotFull], .done (.readBulk r.1 (some r.2.1))⟩

/-- `ReadBulkTriggered` from the head of its wait loop (stk_sync_pipe.h:587-604). -/
def readBulkTriggeredFrom (ticks : ℤ) (has : X) (m : μ) (dst : ℕ → V) (trigger maxCount : ℕ)
    (deadline : Deadline) : Stretch μ E V X :=
  if count m < trigger then
    let remaining := deadline.remaining ticks
    if remaining = noWait then drainAll m dst maxCount
    else ⟨m, [], .wait (.readBulkTriggered has dst trigger maxCount deadline remaining)⟩
  else drainAll m dst maxCount

/-- The clamping of `trigger` (stk_sync_pipe.h:574-575). -/
def clampTrigger (trigger maxCount : ℕ) : ℕ :=
  let trigger := if trigger = 0 then 1 else trigger
  if trigger > maxCount then maxCount else trigger

/-- The first stretch of a method. -/
def call (ticks : ℤ) (m : μ) : PipeOp E V X → Stretch μ E V X
  | .write data timeout => writeFrom m data timeout
  | .writeBulk (some src) count timeout =>
    if count ≠ 0 then
      writeBulkFrom ticks src count (.capture ticks timeout) count m 0 []
    else ⟨m, [], .done (.writeBulk 0)⟩
  | .writeBulk none _ _ => ⟨m, [], .done (.writeBulk 0)⟩
  | .read timeout => readFrom m timeout
  | .readBulk (some dst) count timeout =>
    if count ≠ 0 then readBulkFrom ticks count (.capture ticks timeout) count m dst 0 []
    else ⟨m, [], .done (.readBulk 0 (some dst))⟩
  | .readBulk none _ _ => ⟨m, [], .done (.readBulk 0 none)⟩
  | .readBulkTriggered has (some dst) trigger maxCount timeout =>
    if maxCount ≠ 0 then
      readBulkTriggeredFrom ticks has m dst (clampTrigger trigger maxCount) maxCount
        (.capture ticks timeout)
    else ⟨m, [], .done (.readBulk 0 (some dst))⟩
  | .readBulkTriggered _ none _ _ _ => ⟨m, [], .done (.readBulk 0 none)⟩
  | .reset => ⟨reset m, [.all cvNotFull], .done .reset⟩

/-- The stretch of a method whose `Wait` has returned. -/
def resume (ticks : ℤ) (m : μ) : PipeFrame E V X → WaitResult → Stretch μ E V X
  | .write data timeout, .signal => writeFrom m data timeout
  | .write _ _, .timeout => ⟨m, [], .done (.write false)⟩
  | .writeBulk src count deadline written _, .signal =>
    writeBulkFrom ticks src count deadline (count - written) m written []
  | .writeBulk _ _ _ written _, .timeout => ⟨m, [], .done (.writeBulk written)⟩
  | .read timeout, .signal => readFrom m timeout
  | .read _, .timeout => ⟨m, [], .done (.read none)⟩
  | .readBulk dst count deadline readCount _, .signal =>
    readBulkFrom ticks count deadline (count - readCount) m dst readCount []
  | .readBulk dst _ _ readCount _, .timeout => ⟨m, [], .done (.readBulk readCount (some dst))⟩
  | .readBulkTriggered has dst trigger maxCount deadline _, .signal =>
    readBulkTriggeredFrom ticks has m dst trigger maxCount deadline
  | .readBulkTriggered _ dst _ maxCount _ _, .timeout => drainAll m dst maxCount

/-! No method waits with `NO_WAIT`. -/

omit [PipeStorage μ E V X] in
theorem waitOr_wait {m : μ} {ms : List (Mesa.Notify SyncId)} {frame f : PipeFrame E V X}
    {r : PipeReturn E V} (h : (waitOr m ms frame r).next = .wait f) :
    f = frame ∧ frame.timeout ≠ 0 := by
  unfold waitOr at h
  split at h
  · cases h
  · next hne => exact ⟨(Mesa.Next.wait.inj h).symm, hne⟩

theorem writeFrom_wait {m : μ} {data : E} {timeout : ℤ} {f : PipeFrame E V X}
    (h : (writeFrom m data timeout).next = .wait f) : f.timeout ≠ 0 := by
  unfold writeFrom at h
  split at h
  · obtain ⟨rfl, hne⟩ := waitOr_wait h
    exact hne
  · cases h

theorem readFrom_wait {m : μ} {timeout : ℤ} {f : PipeFrame E V X}
    (h : (readFrom m timeout).next = .wait f) : f.timeout ≠ 0 := by
  unfold readFrom at h
  split at h
  · obtain ⟨rfl, hne⟩ := waitOr_wait h
    exact hne
  · cases h

theorem writeBulkFrom_wait {ticks : ℤ} {src : ℕ → V} {count : ℕ} {deadline : Deadline} {fuel : ℕ}
    {m : μ} {written : ℕ} {ms : List (Mesa.Notify SyncId)} {f : PipeFrame E V X}
    (h : (writeBulkFrom ticks src count deadline fuel m written ms).next = .wait f) :
    f.timeout ≠ 0 := by
  induction fuel generalizing m written ms with
  | zero => cases h
  | succ fuel ih =>
    unfold writeBulkFrom at h
    split at h
    · split at h
      · obtain ⟨rfl, hne⟩ := waitOr_wait h
        exact hne
      · exact ih h
    · cases h

theorem readBulkFrom_wait {ticks : ℤ} {count : ℕ} {deadline : Deadline} {fuel : ℕ} {m : μ}
    {dst : ℕ → V} {readCount : ℕ} {ms : List (Mesa.Notify SyncId)} {f : PipeFrame E V X}
    (h : (readBulkFrom ticks count deadline fuel m dst readCount ms).next = .wait f) :
    f.timeout ≠ 0 := by
  induction fuel generalizing m dst readCount ms with
  | zero => cases h
  | succ fuel ih =>
    unfold readBulkFrom at h
    split at h
    · split at h
      · obtain ⟨rfl, hne⟩ := waitOr_wait h
        exact hne
      · exact ih h
    · cases h

theorem readBulkTriggeredFrom_wait {ticks : ℤ} {has : X} {m : μ} {dst : ℕ → V}
    {trigger maxCount : ℕ} {deadline : Deadline} {f : PipeFrame E V X}
    (h : (readBulkTriggeredFrom ticks has m dst trigger maxCount deadline).next = .wait f) :
    f.timeout ≠ 0 := by
  unfold readBulkTriggeredFrom at h
  split at h
  · dsimp only at h
    split at h
    · cases h
    · next hne =>
      obtain rfl := Mesa.Next.wait.inj h
      exact hne
  · cases h

instance : Monitor μ (PipeOp E V X) (PipeFrame E V X) (PipeReturn E V) where
  call := call
  resume := resume
  waitsFor := PipeFrame.waitsFor
  timeout := PipeFrame.timeout
  owns o := decide (o = cvNotEmpty) || decide (o = cvNotFull)
  owns_waitsFor f := by cases f <;> rfl
  call_wait {ticks m op f} h := by
    cases op with
    | write data timeout => exact writeFrom_wait h
    | writeBulk src count timeout =>
      cases src with
      | none => cases h
      | some src =>
        simp only [call] at h
        split at h
        · exact writeBulkFrom_wait h
        · cases h
    | read timeout => exact readFrom_wait h
    | readBulk dst count timeout =>
      cases dst with
      | none => cases h
      | some dst =>
        simp only [call] at h
        split at h
        · exact readBulkFrom_wait h
        · cases h
    | readBulkTriggered has dst trigger maxCount timeout =>
      cases dst with
      | none => cases h
      | some dst =>
        simp only [call] at h
        split at h
        · exact readBulkTriggeredFrom_wait h
        · cases h
    | reset => cases h
  resume_wait {ticks m f r f'} h := by
    cases r with
    | timeout => cases f <;> cases h
    | signal =>
      cases f with
      | write data timeout => exact writeFrom_wait h
      | writeBulk src count deadline written timeout => exact writeBulkFrom_wait h
      | read timeout => exact readFrom_wait h
      | readBulk dst count deadline readCount timeout => exact readBulkFrom_wait h
      | readBulkTriggered has dst trigger maxCount deadline timeout =>
        exact readBulkTriggeredFrom_wait h

end PipeStorage

/-! ## The bound on the capacity

`MessageQueue` and `Pipe` have the same `CAPACITY_MAX`.  The constructors assert that the capacity does not exceed it;
`Put`, `PutFront` and `Write` assert a bound on `m_count` at their entry, before they test for a full buffer. -/

/-- `CAPACITY_MAX` (stk_sync_msgqueue.h:60, stk_sync_pipe.h:76). -/
def capacityMax : ℕ := 0xFFFE

/-- The assertions of the constructors on the capacity (stk_sync_msgqueue.h:313-314,
stk_sync_pipe.h:339-340). -/
def admitsCapacity (capacity : ℕ) : Bool := decide (1 ≤ capacity) && decide (capacity ≤ capacityMax)

/-- The assertion on `m_count` at the entry of a method of a queue (stk_sync_msgqueue.h:325, 358). -/
def QueueOp.entryAssert {capacity msgSize : ℕ} (q : MessageQueue capacity msgSize) : QueueOp msgSize → Bool
  | .put _ | .putFront _ => decide (q.count ≤ capacityMax - 1)
  | .get | .peek | .peekFront => true

/-- The assertion on `m_count` at the entry of a method of a pipe (stk_sync_pipe.h:351). -/
def PipeOp.entryAssert {capacity elementSize : ℕ} (p : Pipe capacity elementSize) {E V X : Type} :
    PipeOp E V X → Bool
  | .write _ _ => decide (p.count ≤ capacityMax - 1)
  | _ => true

end Stk.Model
