import Stk.Analysis.MonitorSimulation
import Stk.Analysis.PipeStorage
import Stk.Analysis.StrategyListInvariant

/-!
# A pipe is a bounded FIFO

A bulk method goes in several stretches, between which other tasks use the pipe, so that the FIFO
is not described by whole calls: `Report` is what a call has moved so far, as it reports it to its
caller, and `Advances` is one stretch of a call on a bounded FIFO.  In every run, whatever the
kernel does in between, the stretches of the run are a run of the FIFO (`FifoRun`) and a call that
returns reports what its own stretches have moved (`ledger`).
-/

set_option autoImplicit false

namespace Stk.Analysis

open Stk.Model

variable {n : ℕ} {μ E V X : Type}

/-! ## The FIFO -/

/-- The elements a call has written or read so far. -/
inductive Report (E : Type) where
  | wrote (xs : List E)
  | read (xs : List E)
  | reset

/-- The elements that a report is about. -/
def Report.elements : Report E → List E
  | .wrote xs | .read xs => xs
  | .reset => []

/-- A call goes on from one report to the next, on a FIFO of at most `capacity` elements. -/
def Advances (capacity : ℕ) (l : List E) : Report E → Report E → List E → Prop
  | .wrote xs, .wrote ys, l' => ∃ d, ys = xs ++ d ∧ l' = l ++ d ∧ l'.length ≤ capacity
  | .read xs, .read ys, l' => ∃ d, ys = xs ++ d ∧ l = d ++ l'
  | .reset, .reset, l' => l' = []
  | _, _, _ => False

/-- A sequence of stretches on a bounded FIFO. -/
def FifoRun (capacity : ℕ) : List E → List (Report E × Report E) → List E → Prop
  | l, [], l' => l' = l
  | l, a :: as, l' => ∃ l₁, Advances capacity l a.1 a.2 l₁ ∧ FifoRun capacity l₁ as l'

namespace Advances

variable {capacity : ℕ} {l l₁ l₂ : List E} {a b c : Report E}

/-- INTERNAL: one advance after another. -/
theorem trans (h : Advances capacity l a b l₁) (h' : Advances capacity l₁ b c l₂) :
    Advances capacity l a c l₂ := by
  cases a with
  | wrote xs =>
    cases b with
    | wrote ys =>
      cases c with
      | wrote zs =>
        obtain ⟨d, rfl, rfl, -⟩ := h
        obtain ⟨d', rfl, rfl, hle⟩ := h'
        exact ⟨d ++ d', by simp, by simp, hle⟩
      | _ => exact h'.elim
    | _ => exact h.elim
  | read xs =>
    cases b with
    | read ys =>
      cases c with
      | read zs =>
        obtain ⟨d, rfl, rfl⟩ := h
        obtain ⟨d', rfl, rfl⟩ := h'
        exact ⟨d ++ d', by simp, by simp⟩
      | _ => exact h'.elim
    | _ => exact h.elim
  | reset =>
    cases b with
    | reset =>
      cases c with
      | reset => exact h'
      | _ => exact h'.elim
    | _ => exact h.elim

/-- INTERNAL: a report only grows. -/
theorem prefix_elements (h : Advances capacity l a b l₁) : a.elements <+: b.elements := by
  cases a with
  | wrote xs =>
    cases b with
    | wrote ys =>
      obtain ⟨d, rfl, -, -⟩ := h
      exact ⟨d, rfl⟩
    | _ => exact h.elim
  | read xs =>
    cases b with
    | read ys =>
      obtain ⟨d, rfl, -⟩ := h
      exact ⟨d, rfl⟩
    | _ => exact h.elim
  | reset =>
    cases b with
    | reset => exact List.prefix_refl _
    | _ => exact h.elim

end Advances

/-- INTERNAL: one run after another. -/
theorem FifoRun.append {capacity : ℕ} {l l₁ l₂ : List E} {as bs : List (Report E × Report E)}
    (h : FifoRun capacity l as l₁) (h' : FifoRun capacity l₁ bs l₂) :
    FifoRun capacity l (as ++ bs) l₂ := by
  induction as generalizing l with
  | nil =>
    obtain rfl : l₁ = l := h
    exact h'
  | cons a as ih =>
    obtain ⟨l₀, hstep, hrest⟩ := h
    exact ⟨l₀, hstep, ih hrest⟩

/-! ## What a call reports -/

/-- A call as its caller sees it: the report and the array it writes from or reads to. -/
structure CallView (E : Type) where
  report : Report E
  source : Option (ℕ → E)
  dest : Option (ℕ → E)

/-- The first `k` elements of an array. -/
def firstOf (a : Option (ℕ → E)) (k : ℕ) : List E := (a.map (RingBuffer.slice · 0 k)).getD []

/-- The number of elements a call says it has moved. -/
def PipeReturn.moved : PipeReturn E V → ℕ
  | .write success => if success then 1 else 0
  | .writeBulk written => written
  | .read data => data.toList.length
  | .readBulk readCount _ => readCount
  | .reset => 0

variable [PipeStorage μ E V X] [FifoStorage μ E V X]

/-- A call that begins. -/
def viewOp (μ : Type) [PipeStorage μ E V X] [FifoStorage μ E V X] : PipeOp E V X → CallView E
  | .write data _ => ⟨.wrote [], some (fun _ => data), none⟩
  | .writeBulk src _ _ => ⟨.wrote [], src.map (FifoStorage.element μ), none⟩
  | .read _ => ⟨.read [], none, none⟩
  | .readBulk dst _ _ | .readBulkTriggered _ dst _ _ _ =>
    ⟨.read [], none, dst.map (FifoStorage.element μ)⟩
  | .reset => ⟨.reset, none, none⟩

/-- A call inside `Wait`. -/
def viewFrame (μ : Type) [PipeStorage μ E V X] [FifoStorage μ E V X] : PipeFrame E V X → CallView E
  | .write data _ => ⟨.wrote [], some (fun _ => data), none⟩
  | .writeBulk src _ _ written _ =>
    ⟨.wrote (RingBuffer.slice (FifoStorage.element μ src) 0 written), some (FifoStorage.element μ src),
      none⟩
  | .read _ => ⟨.read [], none, none⟩
  | .readBulk dst _ _ readCount _ =>
    ⟨.read (RingBuffer.slice (FifoStorage.element μ dst) 0 readCount), none,
      some (FifoStorage.element μ dst)⟩
  | .readBulkTriggered _ dst _ _ _ _ => ⟨.read [], none, some (FifoStorage.element μ dst)⟩

/-- A call that has returned. -/
def viewReturn (μ : Type) [PipeStorage μ E V X] [FifoStorage μ E V X] (v : CallView E) :
    PipeReturn E V → CallView E
  | .write success => ⟨.wrote (if success then firstOf v.source 1 else []), v.source, none⟩
  | .writeBulk written => ⟨.wrote (firstOf v.source written), v.source, none⟩
  | .read data => ⟨.read data.toList, v.source, none⟩
  | .readBulk readCount dst =>
    ⟨.read (firstOf (dst.map (FifoStorage.element μ)) readCount), v.source,
      dst.map (FifoStorage.element μ)⟩
  | .reset => ⟨.reset, v.source, none⟩

/-- A call at the end of a stretch. -/
def viewAfter (μ : Type) [PipeStorage μ E V X] [FifoStorage μ E V X] (v : CallView E) :
    Mesa.Next (PipeFrame E V X) (PipeReturn E V) → CallView E
  | .wait f => viewFrame μ f
  | .done r => viewReturn μ v r

/-- INTERNAL: a stretch of the call `v` does to the pipe what the call reports. -/
structure StretchOk (m : μ) (v : CallView E) (t : PipeStorage.Stretch μ E V X) : Prop where
  wf : FifoStorage.Wf t.state
  advances : Advances (PipeStorage.capacity μ) (FifoStorage.contents m) v.report
    (viewAfter μ v t.next).report (FifoStorage.contents t.state)
  source : (viewAfter μ v t.next).source = v.source
  dest : ∀ d, v.dest = some d → ∃ d', (viewAfter μ v t.next).dest = some d' ∧
    ∀ c, (viewAfter μ v t.next).report.elements.length ≤ c → d' c = d c
  moved : ∀ r, t.next = .done r → PipeReturn.moved r = (viewAfter μ v t.next).report.elements.length

/-- INTERNAL: a queue holds no more than its capacity. -/
theorem contents_length_le {m : μ} (h : FifoStorage.Wf m) :
    (FifoStorage.contents m).length ≤ PipeStorage.capacity μ := by
  rw [FifoStorage.length]
  exact FifoStorage.count_le h

omit [PipeStorage μ E V X] [FifoStorage μ E V X] in
/-- INTERNAL: no element moves. -/
theorem Advances.refl {capacity : ℕ} {l : List E} {a : Report E} (hle : l.length ≤ capacity)
    (ha : a ≠ .reset) : Advances capacity l a a l := by
  cases a with
  | wrote xs => exact ⟨[], by simp, by simp, hle⟩
  | read xs => exact ⟨[], by simp, by simp⟩
  | reset => exact absurd rfl ha

namespace StretchOk

variable {m m₁ : μ} {v v₁ : CallView E}

/-- INTERNAL: a stretch that goes on from a later report of the call. -/
theorem chain {t : PipeStorage.Stretch μ E V X} (h : StretchOk m₁ v₁ t)
    (hadv : Advances (PipeStorage.capacity μ) (FifoStorage.contents m) v.report v₁.report
      (FifoStorage.contents m₁)) (hsource : v₁.source = v.source)
    (hdest : ∀ d, v.dest = some d → ∃ d', v₁.dest = some d' ∧
      ∀ c, v₁.report.elements.length ≤ c → d' c = d c) : StretchOk m v t := by
  have hview : viewAfter μ v t.next = viewAfter μ v₁ t.next := by
    cases t.next with
    | wait f => rfl
    | done r => cases r <;> simp [viewAfter, viewReturn, hsource]
  refine ⟨h.wf, ?_, ?_, fun d hd => ?_, fun r hr => ?_⟩
  · rw [hview]
    exact hadv.trans h.advances
  · rw [hview, h.source, hsource]
  · obtain ⟨d₁, hd₁, heq₁⟩ := hdest d hd
    obtain ⟨d', hd', heq⟩ := h.dest d₁ hd₁
    rw [hview]
    have hle := h.advances.prefix_elements.length_le
    exact ⟨d', hd', fun c hc => (heq c hc).trans (heq₁ c (hle.trans hc))⟩
  · rw [hview]
    exact h.moved r hr

/-- INTERNAL: a stretch that moves nothing. -/
theorem stay (hwf : FifoStorage.Wf m) (hv : v.report ≠ .reset) {ms : List (Mesa.Notify SyncId)}
    {next : Mesa.Next (PipeFrame E V X) (PipeReturn E V)} (hview : viewAfter μ v next = v)
    (hmoved : ∀ r, next = .done r → PipeReturn.moved r = v.report.elements.length) :
    StretchOk m v ⟨m, ms, next⟩ := by
  refine ⟨hwf, ?_, ?_, fun d hd => ?_, fun r hr => ?_⟩
  · rw [hview]
    exact .refl (contents_length_le hwf) hv
  · rw [hview]
  · rw [hview]
    exact ⟨d, hd, fun _ _ => rfl⟩
  · rw [hview]
    exact hmoved r hr

/-- INTERNAL: a call that returns what it has reported before. -/
theorem finish (hwf : FifoStorage.Wf m) (hv : v.report ≠ .reset) {ms : List (Mesa.Notify SyncId)}
    {r : PipeReturn E V} (hreturn : viewReturn μ v r = v)
    (hmoved : PipeReturn.moved r = v.report.elements.length) :
    StretchOk m v (⟨m, ms, .done r⟩ : PipeStorage.Stretch μ E V X) := by
  refine stay hwf hv hreturn (fun r' hr' => ?_)
  obtain rfl := Mesa.Next.done.inj hr'
  exact hmoved

/-- INTERNAL: a `Wait`, or its failure with `NO_WAIT`. -/
theorem waitOr (hwf : FifoStorage.Wf m) (hv : v.report ≠ .reset) {ms : List (Mesa.Notify SyncId)}
    {f : PipeFrame E V X} {r : PipeReturn E V} (hframe : viewFrame μ f = v)
    (hreturn : viewReturn μ v r = v) (hmoved : PipeReturn.moved r = v.report.elements.length) :
    StretchOk m v (PipeStorage.waitOr m ms f r) := by
  unfold PipeStorage.waitOr
  split
  · exact finish hwf hv hreturn hmoved
  · refine stay hwf hv hframe (fun r' hr' => ?_)
    cases hr'

/-- INTERNAL: `Write` to a queue. -/
theorem writeFrom (hwf : FifoStorage.Wf m) (data : E) (timeout : ℤ) :
    StretchOk m ⟨.wrote [], some (fun _ => data), none⟩ (PipeStorage.writeFrom m data timeout) := by
  unfold PipeStorage.writeFrom
  split
  · exact waitOr hwf (by simp) rfl rfl rfl
  · next hfull =>
    obtain ⟨hwf', hcontents⟩ := FifoStorage.write (x := data) hwf
      (by simpa [PipeStorage.isFull] using hfull)
    refine ⟨hwf', ?_, rfl, by simp, fun r hr => ?_⟩
    · exact ⟨[data], rfl, hcontents, contents_length_le hwf'⟩
    · obtain rfl := Mesa.Next.done.inj hr
      rfl

/-- INTERNAL: `Read` from a queue. -/
theorem readFrom (hwf : FifoStorage.Wf m) (timeout : ℤ) :
    StretchOk m ⟨.read [], none, none⟩ (PipeStorage.readFrom m timeout) := by
  unfold PipeStorage.readFrom
  split
  · exact waitOr hwf (by simp) rfl rfl rfl
  · next hempty =>
    obtain ⟨hwf', hcontents⟩ := FifoStorage.read hwf (by simpa [PipeStorage.isEmpty] using hempty)
    refine ⟨hwf', ?_, rfl, by simp, fun r hr => ?_⟩
    · exact ⟨[_], rfl, hcontents⟩
    · obtain rfl := Mesa.Next.done.inj hr
      rfl

/-- INTERNAL: the rounds of `WriteBulk`. -/
theorem writeBulkFrom (ticks : ℤ) (src : ℕ → V) (count : ℕ) (deadline : Deadline) (fuel : ℕ) (m : μ)
    (written : ℕ) (ms : List (Mesa.Notify SyncId)) (hwf : FifoStorage.Wf m) :
    StretchOk m ⟨.wrote (RingBuffer.slice (FifoStorage.element μ src) 0 written),
        some (FifoStorage.element μ src), none⟩
      (PipeStorage.writeBulkFrom ticks src count deadline fuel m written ms) := by
  have hdone : ∀ {m : μ} {written : ℕ} {ms : List (Mesa.Notify SyncId)}, FifoStorage.Wf m →
      StretchOk m ⟨.wrote (RingBuffer.slice (FifoStorage.element μ src) 0 written),
        some (FifoStorage.element μ src), none⟩ ⟨m, ms, .done (.writeBulk written)⟩ := fun hwf =>
    finish hwf (by simp) rfl (by simp [PipeReturn.moved, Report.elements])
  induction fuel generalizing m written ms with
  | zero => exact hdone hwf
  | succ fuel ih =>
    unfold PipeStorage.writeBulkFrom
    split
    · split
      · refine waitOr hwf (by simp) rfl rfl ?_
        simp [PipeReturn.moved, Report.elements]
      · obtain ⟨hwf', -, hcontents⟩ := FifoStorage.fill hwf src written (count - written)
        have hrest := ih (PipeStorage.fill m src written (count - written)).2
          (written + (PipeStorage.fill m src written (count - written)).1)
          (ms ++ [.all cvNotEmpty]) hwf'
        refine hrest.chain ?_ rfl (by simp)
        refine ⟨_, ?_, hcontents, contents_length_le hwf'⟩
        rw [RingBuffer.slice_add, Nat.zero_add]
    · exact hdone hwf

/-- INTERNAL: one round of `ReadBulk`. -/
theorem drain_advances (hwf : FifoStorage.Wf m) (dst : ℕ → V) (readCount k : ℕ) :
    let r := PipeStorage.drain m dst readCount k
    RingBuffer.slice (FifoStorage.element μ r.2.1) 0 (readCount + r.1) =
        RingBuffer.slice (FifoStorage.element μ dst) 0 readCount ++
          RingBuffer.slice (FifoStorage.element μ r.2.1) readCount r.1 ∧
      Advances (PipeStorage.capacity μ) (FifoStorage.contents m)
        (.read (RingBuffer.slice (FifoStorage.element μ dst) 0 readCount))
        (.read (RingBuffer.slice (FifoStorage.element μ r.2.1) 0 (readCount + r.1)))
        (FifoStorage.contents r.2.2) := by
  obtain ⟨-, -, hcontents, hother⟩ := FifoStorage.drain hwf dst readCount k
  have hslice : RingBuffer.slice (FifoStorage.element μ (PipeStorage.drain m dst readCount k).2.1) 0
      (readCount + (PipeStorage.drain m dst readCount k).1) =
      RingBuffer.slice (FifoStorage.element μ dst) 0 readCount ++
        RingBuffer.slice (FifoStorage.element μ (PipeStorage.drain m dst readCount k).2.1) readCount
          (PipeStorage.drain m dst readCount k).1 := by
    rw [RingBuffer.slice_add, Nat.zero_add]
    congr 1
    refine RingBuffer.slice_congr (fun c hc => hother (0 + c) (Or.inl (by omega)))
  exact ⟨hslice, _, hslice, hcontents⟩

/-- INTERNAL: the rounds of `ReadBulk`. -/
theorem readBulkFrom (ticks : ℤ) (count : ℕ) (deadline : Deadline) (fuel : ℕ) (m : μ) (dst : ℕ → V)
    (readCount : ℕ) (ms : List (Mesa.Notify SyncId)) (hwf : FifoStorage.Wf m) :
    StretchOk m ⟨.read (RingBuffer.slice (FifoStorage.element μ dst) 0 readCount), none,
        some (FifoStorage.element μ dst)⟩
      (PipeStorage.readBulkFrom ticks count deadline fuel m dst readCount ms) := by
  have hdone : ∀ {m : μ} {dst : ℕ → V} {readCount : ℕ} {ms : List (Mesa.Notify SyncId)},
      FifoStorage.Wf m →
      StretchOk m ⟨.read (RingBuffer.slice (FifoStorage.element μ dst) 0 readCount), none,
        some (FifoStorage.element μ dst)⟩ ⟨m, ms, .done (.readBulk readCount (some dst))⟩ := fun hwf =>
    finish hwf (by simp) rfl (by simp [PipeReturn.moved, Report.elements])
  induction fuel generalizing m dst readCount ms with
  | zero => exact hdone hwf
  | succ fuel ih =>
    unfold PipeStorage.readBulkFrom
    split
    · split
      · refine waitOr hwf (by simp) rfl rfl ?_
        simp [PipeReturn.moved, Report.elements]
      · obtain ⟨hwf', -, -, hother⟩ := FifoStorage.drain hwf dst readCount (count - readCount)
        have hrest := ih (PipeStorage.drain m dst readCount (count - readCount)).2.2
          (PipeStorage.drain m dst readCount (count - readCount)).2.1
          (readCount + (PipeStorage.drain m dst readCount (count - readCount)).1)
          (ms ++ [.all cvNotFull]) hwf'
        refine hrest.chain (drain_advances hwf dst readCount (count - readCount)).2 rfl (fun d hd => ?_)
        obtain rfl := Option.some.inj hd
        refine ⟨_, rfl, fun c hc => hother c (Or.inr ?_)⟩
        simpa [Report.elements] using hc
    · exact hdone hwf

/-- INTERNAL: a read of all there is. -/
theorem drainAll (hwf : FifoStorage.Wf m) (dst : ℕ → V) (maxCount : ℕ) :
    StretchOk m ⟨.read [], none, some (FifoStorage.element μ dst)⟩
      (PipeStorage.drainAll m dst maxCount : PipeStorage.Stretch μ E V X) := by
  obtain ⟨hwf', -, -, hother⟩ := FifoStorage.drain hwf dst 0 maxCount
  have hadv := (drain_advances hwf dst 0 maxCount).2
  simp only [RingBuffer.slice_zero, Nat.zero_add] at hadv
  refine ⟨hwf', hadv, rfl, fun d hd => ?_, fun r hr => ?_⟩
  · obtain rfl := Option.some.inj hd
    refine ⟨_, rfl, fun c hc => hother c (Or.inr ?_)⟩
    simpa [PipeStorage.drainAll, viewAfter, viewReturn, firstOf, Report.elements] using hc
  · obtain rfl := Mesa.Next.done.inj hr
    simp [PipeStorage.drainAll, viewAfter, viewReturn, firstOf, Report.elements, PipeReturn.moved]

/-- INTERNAL: `ReadBulkTriggered` from a queue. -/
theorem readBulkTriggeredFrom (ticks : ℤ) (has : X) (hwf : FifoStorage.Wf m) (dst : ℕ → V)
    (trigger maxCount : ℕ) (deadline : Deadline) :
    StretchOk m ⟨.read [], none, some (FifoStorage.element μ dst)⟩
      (PipeStorage.readBulkTriggeredFrom ticks has m dst trigger maxCount deadline) := by
  unfold PipeStorage.readBulkTriggeredFrom
  split
  · dsimp only
    split
    · exact drainAll hwf dst maxCount
    · refine stay hwf (by simp) rfl (fun r hr => ?_)
      cases hr
  · exact drainAll hwf dst maxCount

/-- INTERNAL: a call. -/
theorem call (ticks : ℤ) (hwf : FifoStorage.Wf m) (op : PipeOp E V X) :
    StretchOk m (viewOp μ op) (PipeStorage.call ticks m op) := by
  cases op with
  | write data timeout => exact writeFrom hwf data timeout
  | writeBulk src count timeout =>
    cases src with
    | none => exact finish hwf (by simp [viewOp]) rfl rfl
    | some src =>
      simp only [PipeStorage.call]
      split
      · exact writeBulkFrom ticks src count _ count m 0 [] hwf
      · exact finish hwf (by simp [viewOp]) rfl rfl
  | read timeout => exact readFrom hwf timeout
  | readBulk dst count timeout =>
    cases dst with
    | none => exact finish hwf (by simp [viewOp]) rfl rfl
    | some dst =>
      simp only [PipeStorage.call]
      split
      · exact readBulkFrom ticks count _ count m dst 0 [] hwf
      · exact finish hwf (by simp [viewOp]) rfl rfl
  | readBulkTriggered has dst trigger maxCount timeout =>
    cases dst with
    | none => exact finish hwf (by simp [viewOp]) rfl rfl
    | some dst =>
      simp only [PipeStorage.call]
      split
      · exact readBulkTriggeredFrom ticks has hwf dst _ maxCount _
      · exact finish hwf (by simp [viewOp]) rfl rfl
  | reset =>
    obtain ⟨hwf', hnil⟩ := FifoStorage.reset hwf
    refine ⟨hwf', hnil, rfl, by simp [viewOp], fun r hr => ?_⟩
    obtain rfl := Mesa.Next.done.inj hr
    rfl

/-- INTERNAL: a call that goes on after its wait. -/
theorem resume (ticks : ℤ) (hwf : FifoStorage.Wf m) (f : PipeFrame E V X) (r : WaitResult) :
    StretchOk m (viewFrame μ f) (PipeStorage.resume ticks m f r) := by
  cases f with
  | write data timeout =>
    cases r with
    | signal => exact writeFrom hwf data timeout
    | timeout => exact finish hwf (by simp [viewFrame]) rfl rfl
  | writeBulk src count deadline written timeout =>
    cases r with
    | signal => exact writeBulkFrom ticks src count deadline (count - written) m written [] hwf
    | timeout =>
      exact finish hwf (by simp [viewFrame]) rfl (by simp [PipeReturn.moved, viewFrame, Report.elements])
  | read timeout =>
    cases r with
    | signal => exact readFrom hwf timeout
    | timeout => exact finish hwf (by simp [viewFrame]) rfl rfl
  | readBulk dst count deadline readCount timeout =>
    cases r with
    | signal => exact readBulkFrom ticks count deadline (count - readCount) m dst readCount [] hwf
    | timeout =>
      exact finish hwf (by simp [viewFrame]) rfl (by simp [PipeReturn.moved, viewFrame, Report.elements])
  | readBulkTriggered has dst trigger maxCount deadline timeout =>
    cases r with
    | signal => exact readBulkTriggeredFrom ticks has hwf dst trigger maxCount deadline
    | timeout => exact drainAll hwf dst maxCount

end StretchOk

/-! ## Runs -/

variable {σ : Type} [SwitchStrategy (Fin n) σ]

/-- The call that an event begins or goes on with. -/
def viewBefore (s : MonitorSystem n μ (PipeFrame E V X) σ) :
    MonitorEvent n (PipeOp E V X) → Option (CallView E)
  | .call _ op | .isr op => some (viewOp μ op)
  | .resume i => (s.pending i).map (viewFrame μ)
  | .kernel _ => none

/-- The reports before and after the stretch of an event. -/
def reports (cfg : Config) (s : MonitorSystem n μ (PipeFrame E V X) σ)
    (e : MonitorEvent n (PipeOp E V X)) : Option (Report E × Report E) :=
  match viewBefore s e, s.stretch cfg e with
  | some v, some t => some (v.report, (viewAfter μ v t.next).report)
  | _, _ => none

/-- What each event of a run reports, and what its call has reported so far. -/
def reportsAlong (cfg : Config) :
    MonitorSystem n μ (PipeFrame E V X) σ → List (MonitorEvent n (PipeOp E V X)) →
      List (Report E × Report E)
  | _, [] => []
  | s, e :: es => (reports cfg s e).toList ++ reportsAlong cfg (s.step cfg e) es

/-- What the current call of each caller has moved, counted stretch by stretch. -/
def ledgerStep (cfg : Config) (s : MonitorSystem n μ (PipeFrame E V X) σ)
    (ledger : Option (Fin n) → List E) (e : MonitorEvent n (PipeOp E V X)) :
    Option (Fin n) → List E :=
  match reports cfg s e with
  | none => ledger
  | some (a, b) =>
    let moved := b.elements.drop a.elements.length
    let before := match e with
      | .resume i => ledger (some i)
      | _ => []
    Function.update ledger (MonitorEvent.caller e) (before ++ moved)

/-- The elements that each caller has moved, over a run. -/
def ledgerAlong (cfg : Config) :
    MonitorSystem n μ (PipeFrame E V X) σ → (Option (Fin n) → List E) →
      List (MonitorEvent n (PipeOp E V X)) → Option (Fin n) → List E
  | _, ledger, [] => ledger
  | s, ledger, e :: es => ledgerAlong cfg (s.step cfg e) (ledgerStep cfg s ledger e) es

/-- INTERNAL: what is carried along a run: the calls inside `Wait` have moved what the ledger
says. -/
structure PipeOk (s : MonitorSystem n μ (PipeFrame E V X) σ) (ledger : Option (Fin n) → List E) :
    Prop where
  wf : FifoStorage.Wf s.state
  pending : ∀ i f, s.pending i = some f → (viewFrame μ f).report.elements = ledger (some i)

omit [SwitchStrategy (Fin n) σ] in
/-- INTERNAL: every stretch does what its call reports. -/
theorem stretchOk {cfg : Config} {s : MonitorSystem n μ (PipeFrame E V X) σ}
    {e : MonitorEvent n (PipeOp E V X)} (hwf : FifoStorage.Wf s.state)
    {t : PipeStorage.Stretch μ E V X} (ht : s.stretch cfg e = some t) :
    ∃ v, viewBefore s e = some v ∧ StretchOk s.state v t := by
  cases e with
  | call i op =>
    obtain ⟨-, rfl⟩ := stretch_call ht
    exact ⟨_, rfl, .call s.kernel.ticks hwf op⟩
  | resume i =>
    obtain ⟨f, r, hf, -, rfl⟩ := stretch_resume ht
    exact ⟨_, by simp [viewBefore, hf], .resume s.kernel.ticks hwf f r⟩
  | isr op =>
    obtain ⟨rfl, -⟩ := stretch_isr ht
    exact ⟨_, rfl, .call s.kernel.ticks hwf op⟩
  | kernel e => cases ht

/-- INTERNAL: an event in which a stretch is run. -/
theorem PipeOk.step_some {cfg : Config} {s : MonitorSystem n μ (PipeFrame E V X) σ}
    {ledger : Option (Fin n) → List E} (h : PipeOk s ledger) {e : MonitorEvent n (PipeOp E V X)}
    {v : CallView E} {t : PipeStorage.Stretch μ E V X} (hv : viewBefore s e = some v)
    (ht : s.stretch cfg e = some t) (hok : StretchOk s.state v t) :
    PipeOk (s.step cfg e) (ledgerStep cfg s ledger e) ∧
      ledgerStep cfg s ledger e (MonitorEvent.caller e) = (viewAfter μ v t.next).report.elements := by
  obtain ⟨hstate, -, hpending⟩ := stepResult_some ht
  have hreports : reports cfg s e = some (v.report, (viewAfter μ v t.next).report) := by
    simp [reports, hv, ht]
  -- the report of the call so far is in the ledger
  have hledger : ledgerStep cfg s ledger e (MonitorEvent.caller e) =
      (viewAfter μ v t.next).report.elements := by
    obtain ⟨d, hd⟩ := hok.advances.prefix_elements
    simp only [ledgerStep, hreports, Function.update_self]
    rw [← hd, List.drop_left]
    congr 1
    cases e with
    | call i op =>
      obtain rfl := Option.some.inj hv
      cases op <;> rfl
    | isr op =>
      obtain rfl := Option.some.inj hv
      cases op <;> rfl
    | resume i =>
      obtain ⟨f, hf, rfl⟩ := Option.map_eq_some_iff.mp hv
      exact (h.pending i f hf).symm
    | kernel e => cases hv
  refine ⟨⟨by rw [hstate]; exact hok.wf, fun j f hj => ?_⟩, hledger⟩
  rcases hpending j f hj with ⟨hne, hf⟩ | ⟨hcaller, hnext⟩
  · rw [h.pending j f hf]
    simp only [ledgerStep, hreports]
    rw [Function.update_of_ne (Ne.symm hne)]
  · rw [← hcaller, hledger, hnext]
    rfl

/-- INTERNAL: one event. -/
theorem PipeOk.step (cfg : Config) {s : MonitorSystem n μ (PipeFrame E V X) σ}
    {ledger : Option (Fin n) → List E} (h : PipeOk s ledger) (e : MonitorEvent n (PipeOp E V X)) :
    PipeOk (s.step cfg e) (ledgerStep cfg s ledger e) ∧
      FifoRun (PipeStorage.capacity μ) (FifoStorage.contents s.state) (reports cfg s e).toList
        (FifoStorage.contents (s.step cfg e).state) := by
  cases ht : s.stretch cfg e with
  | none =>
    obtain ⟨hstate, -, hpending⟩ := stepResult_of_none ht
    have hreports : reports cfg s e = none := by
      unfold reports
      rw [ht]
      split
      · next heq => cases heq
      · rfl
    simp only [ledgerStep, hreports]
    refine ⟨⟨by rw [hstate]; exact h.wf, fun j f hj => h.pending j f (hpending j f hj)⟩, ?_⟩
    rw [hstate]
    rfl
  | some t =>
    obtain ⟨v, hv, hok⟩ := stretchOk h.wf ht
    obtain ⟨hstate, -, -⟩ := stepResult_some ht
    refine ⟨(h.step_some hv ht hok).1, ?_⟩
    have hreports : reports cfg s e = some (v.report, (viewAfter μ v t.next).report) := by
      simp [reports, hv, ht]
    rw [hreports, hstate]
    exact ⟨_, hok.advances, rfl⟩

/-- INTERNAL: a whole run. -/
theorem PipeOk.run (cfg : Config) {s : MonitorSystem n μ (PipeFrame E V X) σ}
    {ledger : Option (Fin n) → List E} (h : PipeOk s ledger)
    (es : List (MonitorEvent n (PipeOp E V X))) :
    PipeOk (es.foldl (MonitorSystem.step cfg) s) (ledgerAlong cfg s ledger es) ∧
      FifoRun (PipeStorage.capacity μ) (FifoStorage.contents s.state) (reportsAlong cfg s es)
        (FifoStorage.contents (es.foldl (MonitorSystem.step cfg) s).state) := by
  induction es generalizing s ledger with
  | nil => exact ⟨h, rfl⟩
  | cons e es ih =>
    obtain ⟨hok, hstep⟩ := h.step cfg e
    obtain ⟨hok', hrest⟩ := ih hok
    exact ⟨hok', hstep.append hrest⟩

/-! ## Bulk calls with `NO_WAIT` -/

/-- INTERNAL: no time is left where none was given. -/
theorem remaining_noWait (ticks ticks' : ℤ) :
    (Deadline.capture ticks noWait).remaining ticks' = noWait := by
  simp [Deadline.capture, Deadline.remaining]

/-- INTERNAL: `WriteBulk` that does not wait writes what fits. -/
theorem writeBulkFrom_noWait {ticks : ℤ} (src : ℕ → V) (count : ℕ) {deadline : Deadline}
    (hd : deadline.remaining ticks = noWait) (fuel : ℕ) (m : μ) (written : ℕ)
    (ms : List (Mesa.Notify SyncId)) (hwf : FifoStorage.Wf m) (hfuel : count - written ≤ fuel) :
    (PipeStorage.writeBulkFrom ticks src count deadline fuel m written ms :
        PipeStorage.Stretch μ E V X).next =
      .done (.writeBulk (written + min (count - written)
        (PipeStorage.capacity μ - PipeStorage.count m))) := by
  have hle := FifoStorage.count_le hwf
  induction fuel generalizing m written ms with
  | zero =>
    simp only [PipeStorage.writeBulkFrom]
    congr 2
    omega
  | succ fuel ih =>
    unfold PipeStorage.writeBulkFrom
    split
    · next hlt =>
      split
      · next hfull =>
        have hfull' : PipeStorage.count m = PipeStorage.capacity μ := by
          simpa [PipeStorage.isFull] using hfull
        simp only [PipeStorage.waitOr, PipeFrame.timeout, hd, ↓reduceIte, hfull', Nat.sub_self,
          Nat.min_zero, Nat.add_zero]
      · next hfull =>
        have hfull' : PipeStorage.count m ≠ PipeStorage.capacity μ := by
          simpa [PipeStorage.isFull] using hfull
        obtain ⟨hwf', hlen, -⟩ := FifoStorage.fill hwf src written (count - written)
        have hcount := FifoStorage.count_fill hwf src written (count - written)
        dsimp only
        rw [ih _ _ _ hwf' (by omega) (FifoStorage.count_le hwf')]
        congr 2
        omega
    · dsimp only
      congr 2
      omega

/-- INTERNAL: `ReadBulk` that does not wait reads what is there. -/
theorem readBulkFrom_noWait {ticks : ℤ} (count : ℕ) {deadline : Deadline}
    (hd : deadline.remaining ticks = noWait) (fuel : ℕ) (m : μ) (dst : ℕ → V) (readCount : ℕ)
    (ms : List (Mesa.Notify SyncId)) (hwf : FifoStorage.Wf m) (hfuel : count - readCount ≤ fuel) :
    ∃ dst', (PipeStorage.readBulkFrom ticks count deadline fuel m dst readCount ms :
        PipeStorage.Stretch μ E V X).next =
      .done (.readBulk (readCount + min (count - readCount) (PipeStorage.count m)) (some dst')) := by
  induction fuel generalizing m dst readCount ms with
  | zero =>
    refine ⟨dst, ?_⟩
    simp only [PipeStorage.readBulkFrom]
    congr 2
    omega
  | succ fuel ih =>
    unfold PipeStorage.readBulkFrom
    split
    · next hlt =>
      split
      · next hempty =>
        have hempty' : PipeStorage.count m = 0 := by simpa [PipeStorage.isEmpty] using hempty
        refine ⟨dst, ?_⟩
        simp only [PipeStorage.waitOr, PipeFrame.timeout, hd, ↓reduceIte, hempty', Nat.min_zero,
          Nat.add_zero]
      · next hempty =>
        have hempty' : PipeStorage.count m ≠ 0 := by simpa [PipeStorage.isEmpty] using hempty
        obtain ⟨hwf', hlen, -, -⟩ := FifoStorage.drain hwf dst readCount (count - readCount)
        have hcount := FifoStorage.count_drain hwf dst readCount (count - readCount)
        obtain ⟨dst', hnext⟩ := ih (PipeStorage.drain m dst readCount (count - readCount)).2.2
          (PipeStorage.drain m dst readCount (count - readCount)).2.1
          (readCount + (PipeStorage.drain m dst readCount (count - readCount)).1)
          (ms ++ [.all cvNotFull]) hwf' (by omega)
        refine ⟨dst', hnext.trans ?_⟩
        congr 2
        omega
    · refine ⟨dst, ?_⟩
      dsimp only
      congr 2
      omega

/-- A task that can, or an interrupt handler, calls `op`. -/
def Calls (cfg : Config) (s : MonitorSystem n μ (PipeFrame E V X) σ) (op : PipeOp E V X)
    (e : MonitorEvent n (PipeOp E V X)) : Prop :=
  cfg.isSyncMode = true ∧ (e = .isr op ∨ ∃ i, e = .call i op ∧ s.kernel.canCall i = true)

omit [FifoStorage μ E V X] in
/-- INTERNAL: a call that does not wait returns in its event. -/
theorem Calls.result {cfg : Config} {s : MonitorSystem n μ (PipeFrame E V X) σ} {op : PipeOp E V X}
    {e : MonitorEvent n (PipeOp E V X)} (h : Calls cfg s op e) {r : PipeReturn E V}
    (hr : (PipeStorage.call s.kernel.ticks s.state op : PipeStorage.Stretch μ E V X).next = .done r) :
    (s.stepResult cfg e).2 = some r := by
  obtain ⟨hmode, rfl | ⟨i, rfl, hcall⟩⟩ := h
  · have ht : s.stretch cfg (.isr op) = some (PipeStorage.call s.kernel.ticks s.state op) := by
      have hr' : (Monitor.call s.kernel.ticks s.state op).next = .done r := hr
      simp only [MonitorSystem.stretch, hr', hmode, ↓reduceIte]
      rfl
    exact ((stepResult_some ht).2.1 r).mpr hr
  · have ht : s.stretch cfg (.call i op) = some (PipeStorage.call s.kernel.ticks s.state op) := by
      simp only [MonitorSystem.stretch, hmode, hcall, Bool.and_self, ↓reduceIte]
      rfl
    exact ((stepResult_some ht).2.1 r).mpr hr

/-- INTERNAL: what a bulk read without waiting has copied out. -/
theorem StretchOk.read_done {m : μ} {dst dst' : ℕ → V} {t : PipeStorage.Stretch μ E V X} {k : ℕ}
    (h : StretchOk m ⟨.read [], none, some (FifoStorage.element μ dst)⟩ t)
    (ht : t.next = .done (.readBulk k (some dst'))) :
    RingBuffer.slice (FifoStorage.element μ dst') 0 k = (FifoStorage.contents m).take k ∧
      ∀ c, k ≤ c → FifoStorage.element μ dst' c = FifoStorage.element μ dst c := by
  have hview : viewAfter μ ⟨.read [], none, some (FifoStorage.element μ dst)⟩ t.next =
      ⟨.read (RingBuffer.slice (FifoStorage.element μ dst') 0 k), none,
        some (FifoStorage.element μ dst')⟩ := by
    rw [ht]
    rfl
  obtain ⟨d, hd, hcontents⟩ := hview ▸ h.advances
  obtain ⟨d', hd', hother⟩ := h.dest _ rfl
  rw [hview] at hd' hother
  obtain rfl := Option.some.inj hd'
  refine ⟨?_, fun c hc => hother c (by simpa [Report.elements] using hc)⟩
  rw [List.nil_append] at hd
  rw [hcontents, ← hd]
  exact (List.take_left' (RingBuffer.length_slice _ 0 k)).symm

/-- INTERNAL: the result of a bulk read that does not wait. -/
theorem readNoWait_result {cfg : Config} {s : MonitorSystem n μ (PipeFrame E V X) σ}
    (hwf : FifoStorage.Wf s.state) {op : PipeOp E V X} {e : MonitorEvent n (PipeOp E V X)}
    (h : Calls cfg s op e) {dst : ℕ → V} {k : ℕ}
    (hview : viewOp μ op = ⟨.read [], none, some (FifoStorage.element μ dst)⟩)
    (hr : ∃ dst', (PipeStorage.call s.kernel.ticks s.state op : PipeStorage.Stretch μ E V X).next =
      .done (.readBulk k (some dst'))) :
    ∃ dst', (s.stepResult cfg e).2 = some (.readBulk k (some dst')) ∧
      RingBuffer.slice (FifoStorage.element μ dst') 0 k = (FifoStorage.contents s.state).take k ∧
      ∀ c, k ≤ c → FifoStorage.element μ dst' c = FifoStorage.element μ dst c := by
  obtain ⟨dst', hdone⟩ := hr
  have hok := StretchOk.call s.kernel.ticks hwf op
  rw [hview] at hok
  obtain ⟨hslice, hother⟩ := hok.read_done hdone
  exact ⟨dst', h.result hdone, hslice, hother⟩

/-- What the class `μ` promises in a state of the system with the given ledger, reached by stretches
with the given reports. -/
structure RefinesFifo (cfg : Config) (s : MonitorSystem n μ (PipeFrame E V X) σ)
    (ledger : Option (Fin n) → List E) (as : List (Report E × Report E)) : Prop where
  /-- The elements are those of a bounded FIFO after the stretches of the run. -/
  fifo : FifoRun (PipeStorage.capacity μ) [] as (FifoStorage.contents s.state)
  bounded : (FifoStorage.contents s.state).length ≤ PipeStorage.capacity μ
  /-- A call that returns reports what its stretches have moved, element by element. -/
  returns : ∀ e v r, viewBefore s e = some v → (s.stepResult cfg e).2 = some r →
    (viewReturn μ v r).report.elements = ledgerStep cfg s ledger e (MonitorEvent.caller e) ∧
      PipeReturn.moved r = (ledgerStep cfg s ledger e (MonitorEvent.caller e)).length
  /-- A call that returns has changed nothing else in the caller's array. -/
  rest : ∀ e v r d, viewBefore s e = some v → (s.stepResult cfg e).2 = some r → v.dest = some d →
    ∃ d', (viewReturn μ v r).dest = some d' ∧ ∀ c, PipeReturn.moved r ≤ c → d' c = d c
  writeBulkNoWait : ∀ e src count, Calls cfg s (.writeBulk (some src) count noWait) e →
    (s.stepResult cfg e).2 =
      some (.writeBulk (min count (PipeStorage.capacity μ - PipeStorage.count s.state)))
  readBulkNoWait : ∀ e dst count, Calls cfg s (.readBulk (some dst) count noWait) e →
    ∃ dst', (s.stepResult cfg e).2 =
        some (.readBulk (min count (PipeStorage.count s.state)) (some dst')) ∧
      RingBuffer.slice (FifoStorage.element μ dst') 0 (min count (PipeStorage.count s.state)) =
        (FifoStorage.contents s.state).take (min count (PipeStorage.count s.state)) ∧
      ∀ c, min count (PipeStorage.count s.state) ≤ c →
        FifoStorage.element μ dst' c = FifoStorage.element μ dst c
  readBulkTriggeredNoWait : ∀ e has dst trigger maxCount,
    Calls cfg s (.readBulkTriggered has (some dst) trigger maxCount noWait) e →
    ∃ dst', (s.stepResult cfg e).2 =
        some (.readBulk (min maxCount (PipeStorage.count s.state)) (some dst')) ∧
      RingBuffer.slice (FifoStorage.element μ dst') 0 (min maxCount (PipeStorage.count s.state)) =
        (FifoStorage.contents s.state).take (min maxCount (PipeStorage.count s.state)) ∧
      ∀ c, min maxCount (PipeStorage.count s.state) ≤ c →
        FifoStorage.element μ dst' c = FifoStorage.element μ dst c

/-- INTERNAL: every promise of the refinement, from the invariant. -/
theorem PipeOk.refinesFifo (cfg : Config) {s : MonitorSystem n μ (PipeFrame E V X) σ}
    {ledger : Option (Fin n) → List E} (h : PipeOk s ledger) {as : List (Report E × Report E)}
    (has : FifoRun (PipeStorage.capacity μ) [] as (FifoStorage.contents s.state)) :
    RefinesFifo cfg s ledger as := by
  have hreturn : ∀ e v r, viewBefore s e = some v → (s.stepResult cfg e).2 = some r →
      ∃ t, s.stretch cfg e = some t ∧ t.next = .done r ∧ StretchOk s.state v t := by
    intro e v r hv hr
    cases ht : s.stretch cfg e with
    | none =>
      rw [(stepResult_of_none ht).2.1] at hr
      cases hr
    | some t =>
      obtain ⟨v', hv', hok⟩ := stretchOk h.wf ht
      rw [hv] at hv'
      obtain rfl := Option.some.inj hv'
      exact ⟨t, rfl, ((stepResult_some ht).2.1 r).mp hr, hok⟩
  refine ⟨has, contents_length_le h.wf, fun e v r hv hr => ?_, fun e v r d hv hr hd => ?_,
    fun e src count he => ?_, fun e dst count he => ?_, fun e has dst trigger maxCount he => ?_⟩
  · obtain ⟨t, ht, hnext, hok⟩ := hreturn e v r hv hr
    have hledger := (h.step_some hv ht hok).2
    have hmoved := hok.moved r hnext
    rw [hnext] at hledger hmoved
    rw [hledger]
    exact ⟨rfl, hmoved⟩
  · obtain ⟨t, -, hnext, hok⟩ := hreturn e v r hv hr
    obtain ⟨d', hd', hother⟩ := hok.dest d hd
    have hmoved := hok.moved r hnext
    rw [hnext] at hd' hother hmoved
    exact ⟨d', hd', fun c hc => hother c (by rw [← hmoved]; exact hc)⟩
  · refine he.result ?_
    simp only [PipeStorage.call]
    split
    · have := writeBulkFrom_noWait src count
        (remaining_noWait s.kernel.ticks s.kernel.ticks) count s.state 0 [] h.wf (Nat.sub_le _ _)
      simpa using this
    · next hzero =>
      obtain rfl : count = 0 := by simpa using hzero
      simp
  · refine readNoWait_result h.wf he rfl ?_
    simp only [PipeStorage.call]
    split
    · have := readBulkFrom_noWait count (remaining_noWait s.kernel.ticks s.kernel.ticks)
        count s.state dst 0 [] h.wf (Nat.sub_le _ _)
      simpa using this
    · next hzero =>
      obtain rfl : count = 0 := by simpa using hzero
      exact ⟨dst, by simp⟩
  · refine readNoWait_result h.wf he rfl ?_
    obtain ⟨-, hlen, -, -⟩ := FifoStorage.drain h.wf dst 0 maxCount
    simp only [PipeStorage.call]
    split
    · refine ⟨(PipeStorage.drain s.state dst 0 maxCount).2.1, ?_⟩
      rw [← hlen]
      simp only [PipeStorage.readBulkTriggeredFrom, remaining_noWait, ↓reduceIte, ite_self]
      rfl
    · next hzero =>
      obtain rfl : maxCount = 0 := by simpa using hzero
      exact ⟨dst, by simp⟩

/-- INTERNAL: a run of either class. -/
theorem run_refinesFifo (cfg : Config) {m₀ : μ} (hwf : FifoStorage.Wf m₀)
    (hnil : FifoStorage.contents m₀ = []) (es : List (MonitorEvent n (PipeOp E V X))) :
    RefinesFifo cfg (MonitorSystem.run cfg m₀ es : MonitorSystem n μ (PipeFrame E V X) σ)
      (ledgerAlong cfg (MonitorSystem.initial m₀ : MonitorSystem n μ (PipeFrame E V X) σ)
        (fun _ => []) es)
      (reportsAlong cfg (MonitorSystem.initial m₀ : MonitorSystem n μ (PipeFrame E V X) σ) es) := by
  have h₀ : PipeOk (MonitorSystem.initial m₀ : MonitorSystem n μ (PipeFrame E V X) σ) (fun _ => []) :=
    ⟨hwf, fun i f hi => by cases hi⟩
  obtain ⟨hok, hrun⟩ := h₀.run cfg es
  refine hok.refinesFifo cfg ?_
  rw [← hnil]
  exact hrun

/-- **Refinement.**  In every run of tasks and interrupt handlers a `Pipe` and a `PipeT` of any
capacity are bounded FIFOs. -/
theorem run_refines_fifo (cfg : Config) :
    (∀ (capacity elementSize : ℕ) (buffer : ℕ → UInt8)
      (es : List (MonitorEvent n (PipeOp (Element elementSize) UInt8 Unit))), 0 < capacity →
      RefinesFifo cfg
        (MonitorSystem.run cfg (Pipe.initial buffer) es :
          MonitorSystem n (Pipe capacity elementSize) _ σ)
        (ledgerAlong cfg (MonitorSystem.initial (Pipe.initial buffer) :
          MonitorSystem n (Pipe capacity elementSize) _ σ) (fun _ => []) es)
        (reportsAlong cfg (MonitorSystem.initial (Pipe.initial buffer) :
          MonitorSystem n (Pipe capacity elementSize) _ σ) es)) ∧
    (∀ (T : Type) (capacity : ℕ) (isScalar : Bool) (buffer : ℕ → T)
      (es : List (MonitorEvent n (PipeOp T T Empty))), 0 < capacity →
      RefinesFifo cfg
        (MonitorSystem.run cfg (PipeT.initial buffer) es :
          MonitorSystem n (PipeT T capacity isScalar) _ σ)
        (ledgerAlong cfg (MonitorSystem.initial (PipeT.initial buffer) :
          MonitorSystem n (PipeT T capacity isScalar) _ σ) (fun _ => []) es)
        (reportsAlong cfg (MonitorSystem.initial (PipeT.initial buffer) :
          MonitorSystem n (PipeT T capacity isScalar) _ σ) es)) := by
  refine ⟨fun capacity elementSize buffer es hcap => ?_, fun T capacity isScalar buffer es hcap => ?_⟩
  · exact run_refinesFifo cfg (μ := Pipe capacity elementSize)
      (show RingWf capacity 0 0 0 from ⟨Nat.zero_le _, hcap, by simp⟩) rfl es
  · exact run_refinesFifo cfg (μ := PipeT T capacity isScalar)
      (show RingWf capacity 0 0 0 from ⟨Nat.zero_le _, hcap, by simp⟩) rfl es

/-- Task 0 asks a pipe of capacity 2 for three elements and waits; task 1 brings them in two
rounds. -/
def bulkTransfer : List (MonitorEvent 2 (PipeOp ℕ ℕ Empty)) :=
  [.kernel (.addTask 0), .kernel (.addTask 1), .kernel .onStart,
    .call 0 (.readBulk (some (fun _ => 0)) 3 waitInfinite), .kernel (.onTick 1),
    .call 1 (.writeBulk (some (fun i => i + 1)) 3 waitInfinite), .kernel (.onTick 1), .resume 0,
    .kernel (.onTick 1), .resume 1, .kernel (.onTick 1)]

theorem bulkTransfer_refines :
    FifoRun 2 [] (reportsAlong syncConfig (MonitorSystem.initial (PipeT.initial (fun _ => 0)) :
        MonitorSystem 2 (PipeT ℕ 2 true) _ (RoundRobin (Fin 2))) bulkTransfer)
      (FifoStorage.contents (MonitorSystem.run syncConfig (PipeT.initial (fun _ => 0)) bulkTransfer :
        MonitorSystem 2 (PipeT ℕ 2 true) _ (RoundRobin (Fin 2))).state) ∧
    FifoStorage.contents (MonitorSystem.run syncConfig (PipeT.initial (fun _ => 0)) bulkTransfer :
        MonitorSystem 2 (PipeT ℕ 2 true) _ (RoundRobin (Fin 2))).state = [3] :=
  ⟨((run_refines_fifo syncConfig).2 ℕ 2 true (fun _ => 0) bulkTransfer (by decide)).fifo,
    by decide +kernel⟩

end Stk.Analysis
