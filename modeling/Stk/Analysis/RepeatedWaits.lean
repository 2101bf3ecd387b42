import Stk.Analysis.MessageQueueWakeups
import Stk.Analysis.WaitLoops
import Stk.Model.BlockMemoryPool
import Stk.Model.Pipe
import Stk.Model.RWMutex

/-!
# Wait loops that start their timeout again

`Put` to `PeekFront`, `Write`, `Read`, `TimedLock`, `TimedReadLock` and `TimedAlloc` hand their timeout to
every `Wait` of their loop.  A call that is woken by a notification after some ticks, and then finds its
condition taken, waits for the whole timeout again.  A call to which this does not happen is blocked
for its timeout at most (`run_repeatedWaits`).
-/

set_option autoImplicit false

namespace Stk.Analysis

open Stk.Model Stk.Model.Kernel

/-! ## The rule -/

section Rule

variable {n : ℕ} {μ α φ ρ σ : Type} [SwitchStrategy (Fin n) σ] [Monitor μ α φ ρ] {cfg : Config}
  {i : Fin n}

/-- A task that is woken by a notification after it has been blocked for `b` ticks finds its condition free,
or `b` is zero. -/
def FindsFree (i : Fin n) (taken : μ → Bool) (s : MonitorSystem n μ φ σ) (b : ℕ) : Prop :=
  s.kernel.waitResult i = some .signal → taken s.state = true → b = 0

/-- A call of `op`, in any orderly run, that finds its condition free whenever it is notified: while it is blocked it
has been blocked for fewer than `T` ticks, and without `KERNEL_TICKLESS` it is blocked for `T` ticks at most. -/
def SpendsAtMost (n : ℕ) (σ : Type) [SwitchStrategy (Fin n) σ] (cfg : Config) (m₀ : μ) (op : α)
    (taken : μ → Bool) (T : ℤ) : Prop :=
  ∀ (pre : List (MonitorEvent n α)) (i : Fin n) (es : List (MonitorEvent n α)),
    let s : MonitorSystem n μ φ σ := MonitorSystem.run cfg m₀ pre
    let s₁ := s.step cfg (.call i op)
    let s₂ := es.foldl (MonitorSystem.step cfg) s₁
    Runs.Along (MonitorSystem.step cfg) Orderly (MonitorSystem.initial m₀ : MonitorSystem n μ φ σ)
        (pre ++ .call i op :: es) →
      s.stretch cfg (.call i op) ≠ none → InCall cfg i s₁ es →
      (∀ ds fs, es = ds ++ .resume i :: fs →
        FindsFree i taken (ds.foldl (MonitorSystem.step cfg) s₁) (blockedTicks cfg i s₁ ds)) →
      (s₂.pending i ≠ none → (s₂.kernel.tasks i).isWaiting = true → (blockedTicks cfg i s₁ es : ℤ) < T) ∧
        (cfg.isTicklessMode = false → (blockedTicks cfg i s₁ es : ℤ) ≤ T)

/-- A call of `op`, in any orderly run, that is notified after a tick, finds its condition taken and is then not notified
again until it times out has been blocked for more than `T` ticks. -/
def OverrunsWhenTaken (n : ℕ) (σ : Type) [SwitchStrategy (Fin n) σ] (cfg : Config) (m₀ : μ) (op : α)
    (taken : μ → Bool) (T : ℤ) : Prop :=
  ∀ (pre : List (MonitorEvent n α)) (i : Fin n) (ds fs : List (MonitorEvent n α)),
    let s : MonitorSystem n μ φ σ := MonitorSystem.run cfg m₀ pre
    let s₁ := s.step cfg (.call i op)
    let s₂ := (ds ++ .resume i :: fs).foldl (MonitorSystem.step cfg) s₁
    Runs.Along (MonitorSystem.step cfg) Orderly (MonitorSystem.initial m₀ : MonitorSystem n μ φ σ)
        (pre ++ .call i op :: (ds ++ .resume i :: fs)) →
      s.stretch cfg (.call i op) ≠ none → InCall cfg i s₁ (ds ++ .resume i :: fs) →
      ¬ FindsFree i taken (ds.foldl (MonitorSystem.step cfg) s₁) (blockedTicks cfg i s₁ ds) →
      .resume i ∉ fs → s₂.pending i ≠ none → (s₂.kernel.tasks i).waitObj.timeout = true →
      T < blockedTicks cfg i s₁ (ds ++ .resume i :: fs)

/-- What a call that waits for `T` ticks in all has in its wait object after `b` of them. -/
structure OneWait (cfg : Config) (T : ℤ) (w : WaitObject) (b : ℕ) : Prop where
  linked : w.syncObj ≠ none → w.timeWait = T - b ∧ (b : ℤ) < T
  spent : cfg.isTicklessMode = false → (b : ℤ) ≤ T

omit [SwitchStrategy (Fin n) σ] in
/-- INTERNAL: a step of others. -/
theorem OneWait.step {T : ℤ} (hT : T < waitInfinite) {k k' : Kernel n σ} {b : ℕ} (hwait : WaitStep i k k')
    (hone : cfg.isTicklessMode = false → k'.ticks ≤ k.ticks + 1) (h : OneWait cfg T (k.tasks i).waitObj b) :
    OneWait cfg T (k'.tasks i).waitObj
      (b + if (k.tasks i).isWaiting then (k'.ticks - k.ticks).toNat else 0) := by
  have hlinked : (k.tasks i).isWaiting = true ↔ (k.tasks i).waitObj.syncObj ≠ none := Option.isSome_iff_ne_none
  by_cases hl : (k.tasks i).waitObj.syncObj ≠ none
  · obtain ⟨htime, hlt⟩ := h.linked hl
    rw [if_pos (hlinked.mpr hl)]
    cases hwait with
    | kept hobj hle hticks =>
      have hsame : k'.ticks = k.ticks := by
        rcases hticks with hsame | hnone | hinf
        · exact hsame
        · exact absurd hnone hl
        · omega
      rw [hobj, hsame, sub_self]
      exact h
    | counted e hpos hticks _ _ hleft hobj =>
      rw [hobj]
      refine ⟨?_, ?_⟩
      · intro _
        dsimp only
        omega
      · intro _
        omega
    | expired e hpos hticks _ _ hover hobj =>
      rw [hobj]
      refine ⟨fun hne => absurd rfl hne, ?_⟩
      intro htickless
      have hle := hone htickless
      omega
    | signalled hticks _ hobj =>
      rw [hobj, hticks, sub_self]
      exact ⟨fun hne => absurd rfl hne, h.spent⟩
  · rw [if_neg (fun hw => hl (hlinked.mp hw)), Nat.add_zero]
    cases hwait with
    | kept hobj _ _ =>
      rw [hobj]
      exact h
    | counted _ _ _ hne _ _ _ => exact absurd hne hl
    | expired _ _ _ hne _ _ _ => exact absurd hne hl
    | signalled _ hne _ => exact absurd hne hl

/-- INTERNAL: a wait with the whole timeout, before the first tick. -/
theorem OneWait.whole {T : ℤ} (hpos : 0 < T) (o : SyncId) : OneWait cfg T ⟨some o, false, T⟩ 0 := by
  refine ⟨?_, ?_⟩
  · intro _
    dsimp only
    omega
  · intro _
    omega

/-- A method that hands its timeout to every wait of its loop. -/
theorem WaitLoop.spendsAtMost {op : α} {frames : φ → Prop} {taken : μ → Bool} {T : ℤ}
    (h : ∀ start, WaitLoop μ op start frames (fun _ => T) taken) (hsync : cfg.isSyncMode = true) (hpos : 0 < T)
    (hT : T < waitInfinite) (m₀ : μ) : SpendsAtMost n σ cfg m₀ op taken T := by
  intro pre i es s s₁ s₂ _ hmade hcall hfree
  obtain ⟨t, ht⟩ := Option.ne_none_iff_exists'.mp hmade
  have hblocked : Blocked s := .run hsync m₀ pre
  have hfirst : ∀ f, s₁.pending i = some f → frames f ∧ OneWait cfg T (s₁.kernel.tasks i).waitObj 0 := by
    intro f hf
    obtain ⟨hnext, hobj⟩ := stretch_begins ht rfl hf
    obtain ⟨-, rfl⟩ := stretch_call ht
    obtain ⟨hframe, htimeout⟩ := (h _).begins hnext
    rw [hobj, htimeout]
    exact ⟨hframe, .whole hpos _⟩
  have hkeeps := (h s.kernel.ticks).keeps hsync (W := fun w _ b => OneWait cfg T w b) (Q := FindsFree i taken)
    (fun hwait hone hW => hW.step hT hwait hone)
    (fun {s b} hQ hsignal htaken _ o => by
      obtain rfl := hQ hsignal htaken
      exact .whole hpos o)
    (hblocked.step hsync _) hfirst hcall hfree
  obtain ⟨-, hW, hspent⟩ := hkeeps
  constructor
  · intro hpending hwaiting
    obtain ⟨f, hf⟩ := Option.ne_none_iff_exists'.mp hpending
    exact ((hW f hf).2.linked (Option.isSome_iff_ne_none.mp hwaiting)).2
  · intro htickless
    rcases hspent with hzero | ⟨w, -, hone⟩
    · rw [hzero]
      omega
    · exact hone.spent htickless

/-- INTERNAL: a wait of `T` ticks, `b` of them gone, that nobody ends before its time. -/
def FullWait (T : ℤ) (w : WaitObject) (b : ℕ) : Prop :=
  (w.syncObj ≠ none → w.timeWait = T - b) ∧ (w.syncObj = none → w.timeout = true → T ≤ b)

omit [SwitchStrategy (Fin n) σ] in
/-- INTERNAL: a step of others. -/
theorem FullWait.step {T : ℤ} (hT : T < waitInfinite) {k k' : Kernel n σ} {b : ℕ} (hwait : WaitStep i k k')
    (h : FullWait T (k.tasks i).waitObj b) :
    FullWait T (k'.tasks i).waitObj
      (b + if (k.tasks i).isWaiting then (k'.ticks - k.ticks).toNat else 0) := by
  have hlinked : (k.tasks i).isWaiting = true ↔ (k.tasks i).waitObj.syncObj ≠ none := Option.isSome_iff_ne_none
  cases hwait with
  | kept hobj hle hticks =>
    rw [hobj]
    by_cases hl : (k.tasks i).waitObj.syncObj ≠ none
    · have htime := h.1 hl
      have hsame : k'.ticks = k.ticks := by
        rcases hticks with hsame | hnone | hinf
        · exact hsame
        · exact absurd hnone hl
        · omega
      rw [hsame, sub_self, if_pos (hlinked.mpr hl)]
      exact h
    · rw [if_neg (fun hw => hl (hlinked.mp hw))]
      exact h
  | counted e hpos hticks hl _ hleft hobj =>
    have htime := h.1 hl
    rw [hobj, if_pos (hlinked.mpr hl)]
    constructor
    · intro _
      dsimp only
      omega
    · intro hnone
      exact absurd hnone hl
  | expired e hpos hticks hl _ hover hobj =>
    have htime := h.1 hl
    rw [hobj, if_pos (hlinked.mpr hl)]
    constructor
    · intro hne
      exact absurd rfl hne
    · intro _ _
      omega
  | signalled hticks hl hobj =>
    rw [hobj]
    constructor
    · intro hne
      exact absurd rfl hne
    · intro _ hflag
      cases hflag

/-- A wait that is begun again has the whole timeout. -/
theorem WaitLoop.overruns {op : α} {frames : φ → Prop} {taken : μ → Bool} {T : ℤ}
    (h : ∀ start, WaitLoop μ op start frames (fun _ => T) taken) (hsync : cfg.isSyncMode = true)
    (hT : T < waitInfinite) (m₀ : μ) : OverrunsWhenTaken n σ cfg m₀ op taken T := by
  intro pre i ds fs s s₁ s₂ _ hmade hcall htaken hnot hpending hflag
  obtain ⟨t, ht⟩ := Option.ne_none_iff_exists'.mp hmade
  have hblocked : Blocked s := .run hsync m₀ pre
  have hfirst : ∀ f, s₁.pending i = some f → frames f ∧ True := by
    intro f hf
    obtain ⟨hnext, -⟩ := stretch_begins ht rfl hf
    obtain ⟨-, rfl⟩ := stretch_call ht
    exact ⟨((h _).begins hnext).1, trivial⟩
  unfold InCall at hcall
  rw [Runs.along_append] at hcall
  obtain ⟨hcall₁, hbefore, hcall₂⟩ := hcall
  -- the call is notified after `ds`, with a frame of the method
  have hds := (h s.kernel.ticks).keeps hsync (W := fun _ _ _ => True) (Q := fun _ _ => True)
    (fun _ _ _ => trivial) (fun _ _ _ _ _ => trivial) (hblocked.step hsync _) hfirst hcall₁ (fun _ _ _ => trivial)
  have htotal : blockedTicks cfg i s₁ (ds ++ .resume i :: fs) = blockedTicks cfg i s₁ ds +
      blockedTicks cfg i (ds.foldl (MonitorSystem.step cfg) s₁) (.resume i :: fs) := Runs.total_append s₁ ds _
  have hend : s₂ = fs.foldl (MonitorSystem.step cfg)
      ((ds.foldl (MonitorSystem.step cfg) s₁).step cfg (.resume i)) := List.foldl_append
  rw [hend] at hpending hflag
  rw [htotal]
  clear htotal hend
  generalize ds.foldl (MonitorSystem.step cfg) s₁ = s₃ at *
  generalize blockedTicks cfg i s₁ ds = b at *
  obtain ⟨hb₃, hframes, -⟩ := hds
  unfold FindsFree at htaken
  push Not at htaken
  obtain ⟨hsignal, htrue, hb⟩ := htaken
  obtain ⟨f, hf⟩ := Option.ne_none_iff_exists'.mp hbefore
  have hstretch : s₃.stretch cfg (.resume i) = some (Monitor.resume s₃.kernel.ticks s₃.state f .signal) := by
    simp only [MonitorSystem.stretch, hf, hsignal]
  -- the new wait is for the whole timeout
  have hagain : ∀ g, (s₃.step cfg (.resume i)).pending i = some g →
      frames g ∧ FullWait T ((s₃.step cfg (.resume i)).kernel.tasks i).waitObj 0 := by
    intro g hg
    obtain ⟨hnext, hobj⟩ := stretch_begins hstretch rfl hg
    obtain ⟨hframe, htimeout, -⟩ := (h 0).again (hframes f hf).1 hnext
    rw [hobj, htimeout]
    refine ⟨hframe, ?_, ?_⟩
    · intro _
      dsimp only
      omega
    · intro hnone
      cases hnone
  have hfs := (h 0).keeps hsync (W := fun w _ b => FullWait T w b) (Q := fun _ _ => False)
    (fun hwait _ hW => hW.step hT hwait) (fun hfalse _ _ _ _ => hfalse.elim) (hb₃.step hsync _) hagain hcall₂
    (fun ds' fs' heq => hnot (by rw [heq]; simp))
  obtain ⟨hb₄, hkept, -⟩ := hfs
  obtain ⟨g, hg⟩ := Option.ne_none_iff_exists'.mp hpending
  have hunlinked : ((fs.foldl (MonitorSystem.step cfg) (s₃.step cfg (.resume i))).kernel.tasks
      i).waitObj.syncObj = none := by
    by_contra hlinked
    rw [(hb₄.armed i g hg hlinked).2] at hflag
    cases hflag
  have hle := (hkept g hg).2.2 hunlinked hflag
  have hrest : blockedTicks cfg i s₃ (.resume i :: fs) =
      blockedIn cfg i s₃ (.resume i) + blockedTicks cfg i (s₃.step cfg (.resume i)) fs := rfl
  rw [hrest]
  omega

/-- The timeout of a call is kept where the condition is free at each notification, and overrun where it is
not. -/
def RestartsTimeout (n : ℕ) (σ : Type) [SwitchStrategy (Fin n) σ] (cfg : Config) (m₀ : μ) (op : α)
    (taken : μ → Bool) (T : ℤ) : Prop :=
  SpendsAtMost n σ cfg m₀ op taken T ∧ OverrunsWhenTaken n σ cfg m₀ op taken T

theorem WaitLoop.restarts {op : α} {frames : φ → Prop} {taken : μ → Bool} {T : ℤ}
    (h : ∀ start, WaitLoop μ op start frames (fun _ => T) taken) (hsync : cfg.isSyncMode = true) (hpos : 0 < T)
    (hT : T < waitInfinite) (m₀ : μ) : RestartsTimeout n σ cfg m₀ op taken T :=
  ⟨WaitLoop.spendsAtMost h hsync hpos hT m₀, WaitLoop.overruns h hsync hT m₀⟩

end Rule

/-! ## The classes -/

section Classes

variable {T start : ℤ}

theorem queue_loop {capacity msgSize : ℕ} (op : QueueOp msgSize) :
    WaitLoop (MessageQueue capacity msgSize) (.call op T) start (· = ⟨op, T⟩) (fun _ => T) op.isBlocked where
  begins h := by
    obtain ⟨-, rfl, -⟩ := queueFrom_wait h
    exact ⟨rfl, rfl⟩
  again hf h := by
    obtain rfl := hf
    obtain ⟨hblocked, rfl, -⟩ := queueFrom_wait h
    exact ⟨rfl, rfl, hblocked⟩
  ends _ h := by cases h

theorem write_loop {μ E V X : Type} [PipeStorage μ E V X] (data : E) :
    WaitLoop μ (.write data T) start (· = .write data T) (fun _ => T) PipeStorage.isFull := by
  have hloop : ∀ {m : μ} {g : PipeFrame E V X}, (PipeStorage.writeFrom m data T).next = .wait g →
      g = .write data T ∧ PipeStorage.isFull m = true := by
    intro m g h
    unfold PipeStorage.writeFrom at h
    split at h
    · next hfull => exact ⟨(PipeStorage.waitOr_wait h).1, hfull⟩
    · cases h
  refine ⟨?_, ?_, ?_⟩
  · intro m g h
    obtain ⟨rfl, -⟩ := hloop h
    exact ⟨rfl, rfl⟩
  · rintro ticks m f g rfl h
    obtain ⟨rfl, hfull⟩ := hloop h
    exact ⟨rfl, rfl, hfull⟩
  · rintro ticks m f g rfl h
    cases h

theorem read_loop {μ E V X : Type} [PipeStorage μ E V X] :
    WaitLoop μ (.read T) start (· = .read T) (fun _ => T) PipeStorage.isEmpty := by
  have hloop : ∀ {m : μ} {g : PipeFrame E V X}, (PipeStorage.readFrom m T).next = .wait g →
      g = .read T ∧ PipeStorage.isEmpty m = true := by
    intro m g h
    unfold PipeStorage.readFrom at h
    split at h
    · next hempty => exact ⟨(PipeStorage.waitOr_wait h).1, hempty⟩
    · cases h
  refine ⟨?_, ?_, ?_⟩
  · intro m g h
    obtain ⟨rfl, -⟩ := hloop h
    exact ⟨rfl, rfl⟩
  · rintro ticks m f g rfl h
    obtain ⟨rfl, hempty⟩ := hloop h
    exact ⟨rfl, rfl, hempty⟩
  · rintro ticks m f g rfl h
    cases h

/-- The conditions of the two wait loops of an `RWMutex`. -/
def readTaken (m : RWMutex) : Bool := m.writerActive || decide (m.writersWaiting ≠ 0)

def lockTaken (m : RWMutex) : Bool := m.writerActive || decide (m.readers ≠ 0)

theorem timedReadLock_loop :
    WaitLoop RWMutex (.timedReadLock T) start (· = .timedReadLock T) (fun _ => T) readTaken := by
  refine ⟨?_, ?_, ?_⟩
  · intro m g h
    obtain ⟨rfl, -⟩ := RWMutex.readLockFrom_wait h
    exact ⟨rfl, rfl⟩
  · rintro ticks m f g rfl h
    change (m.readLockFrom T).next = .wait g at h
    obtain ⟨rfl, -⟩ := RWMutex.readLockFrom_wait h
    refine ⟨rfl, rfl, ?_⟩
    unfold RWMutex.readLockFrom at h
    split at h
    · next htaken => exact htaken
    · cases h
  · rintro ticks m f g rfl h
    cases h

theorem timedLock_loop :
    WaitLoop RWMutex (.timedLock T) start (· = .timedLock T) (fun _ => T) lockTaken := by
  refine ⟨?_, ?_, ?_⟩
  · intro m g h
    obtain ⟨rfl, -⟩ := RWMutex.lockFrom_wait h
    exact ⟨rfl, rfl⟩
  · rintro ticks m f g rfl h
    change (m.lockFrom T).next = .wait g at h
    obtain ⟨rfl, -⟩ := RWMutex.lockFrom_wait h
    refine ⟨rfl, rfl, ?_⟩
    unfold RWMutex.lockFrom at h
    split at h
    · next htaken => exact htaken
    · dsimp only at h
      split at h
      · cases h
      · cases h
  · rintro ticks m f g rfl h
    cases h

/-- The condition of the wait loop of `TimedAlloc`. -/
def allocTaken {p : ℕ} (m : PoolInUse p) : Bool := decide (m.pool.freeList = 0)

theorem timedAlloc_loop {p : ℕ} (insideIsr : Bool) :
    WaitLoop (PoolInUse p) (.alloc insideIsr T) start (· = ⟨T⟩) (fun _ => T) allocTaken := by
  have hloop : ∀ {m : BlockMemoryPool p} {g : AllocFrame}, (m.allocFrom T).next = .wait g → g = ⟨T⟩ := by
    intro m g h
    unfold BlockMemoryPool.allocFrom at h
    split at h
    · split at h
      · exact (Mesa.Next.wait.inj h).symm
      · cases h
    · cases h
  refine ⟨?_, ?_, ?_⟩
  · intro m g h
    change (m.pool.timedAlloc insideIsr T).next = .wait g at h
    unfold BlockMemoryPool.timedAlloc at h
    split at h
    · obtain rfl := hloop h
      exact ⟨rfl, rfl⟩
    · cases h
  · rintro ticks m f g rfl h
    obtain ⟨-, hempty, -⟩ := PoolInUse.resume_wait h
    obtain rfl := hloop (m := m.pool) h
    exact ⟨rfl, rfl, decide_eq_true hempty⟩
  · rintro ticks m f g rfl h
    cases h

end Classes

/-! ## Results -/

section Results

variable {n : ℕ} {σ : Type} [SwitchStrategy (Fin n) σ] {cfg : Config} {T : ℤ}

/-- **Repeated waits.**  A call of `Put`, `PutFront`, `Get`, `Peek` or `PeekFront` of a message queue, of `Write`
or `Read` of a pipe, of `TimedReadLock` or `TimedLock`, or of `TimedAlloc`, with a timeout of `T` ticks, is blocked
for `T` ticks at most in every orderly run in which it finds its condition free whenever it is notified after a
tick.  Once it does not, it is blocked for more than `T` ticks if it then times out. -/
theorem run_repeatedWaits (hsync : cfg.isSyncMode = true) (hpos : 0 < T) (hT : T < waitInfinite) :
    (∀ (capacity msgSize : ℕ) (q₀ : MessageQueue capacity msgSize) (op : QueueOp msgSize),
      RestartsTimeout n σ cfg q₀ (.call op T) op.isBlocked T) ∧
    (∀ (capacity elementSize : ℕ) (p₀ : Pipe capacity elementSize),
      (∀ data, RestartsTimeout n σ cfg p₀ (.write data T) PipeStorage.isFull T) ∧
        RestartsTimeout n σ cfg p₀ (.read T) PipeStorage.isEmpty T) ∧
    (∀ (E : Type) (capacity : ℕ) (isScalar : Bool) (p₀ : PipeT E capacity isScalar),
      (∀ data, RestartsTimeout n σ cfg p₀ (.write data T) PipeStorage.isFull T) ∧
        RestartsTimeout n σ cfg p₀ (.read T) PipeStorage.isEmpty T) ∧
    (∀ m₀ : RWMutex, RestartsTimeout n σ cfg m₀ (.timedReadLock T) readTaken T ∧
      RestartsTimeout n σ cfg m₀ (.timedLock T) lockTaken T) ∧
    ∀ (p : ℕ) (m₀ : PoolInUse p) (insideIsr : Bool),
      RestartsTimeout n σ cfg m₀ (.alloc insideIsr T) allocTaken T := by
  refine ⟨?_, ?_, ?_, ?_, ?_⟩
  · intro capacity msgSize q₀ op
    exact WaitLoop.restarts (fun _ => queue_loop op) hsync hpos hT q₀
  · intro capacity elementSize p₀
    constructor
    · intro data
      exact WaitLoop.restarts (fun _ => write_loop data) hsync hpos hT p₀
    · exact WaitLoop.restarts (fun _ => read_loop) hsync hpos hT p₀
  · intro E capacity isScalar p₀
    constructor
    · intro data
      exact WaitLoop.restarts (fun _ => write_loop data) hsync hpos hT p₀
    · exact WaitLoop.restarts (fun _ => read_loop) hsync hpos hT p₀
  · intro m₀
    constructor
    · exact WaitLoop.restarts (fun _ => timedReadLock_loop) hsync hpos hT m₀
    · exact WaitLoop.restarts (fun _ => timedLock_loop) hsync hpos hT m₀
  · intro p m₀ insideIsr
    exact WaitLoop.restarts (fun _ => timedAlloc_loop insideIsr) hsync hpos hT m₀

end Results

section Runs

/-- An empty queue of one message, with a task that has called `Get` with a timeout of two ticks. -/
def waitingGet : MonitorSystem 2 (MessageQueue 1 1) (QueueCall 1) (RoundRobin (Fin 2)) :=
  (MonitorSystem.run syncConfig (MessageQueue.initial fun _ => 0) (twoTasks.map .kernel)).step syncConfig
    (.call 0 (.call .get 2))

/-- Nobody puts a message. -/
theorem waitingGet_spends :
    (blockedTicks syncConfig 0 waitingGet [.kernel (.onTick 1), .kernel (.onTick 1)] : ℤ) ≤ 2 := by
  have hspends := (@run_repeatedWaits 2 (RoundRobin (Fin 2)) _ syncConfig 2 rfl (by decide) (by decide)).1 1 1
    (MessageQueue.initial fun _ => 0) .get
  refine (hspends.1 (twoTasks.map .kernel) 0 [.kernel (.onTick 1), .kernel (.onTick 1)] ?_ ?_ ?_ ?_).2 rfl
  · decide +kernel
  · decide +kernel
  · unfold InCall
    decide +kernel
  · intro ds fs heq
    have hmem : (.resume 0 : MonitorEvent 2 (QueueRequest 1)) ∈
        [.kernel (.onTick 1), .kernel (.onTick 1)] := by
      rw [heq]
      simp
    simp at hmem

/-- A message is put after one tick and taken by another caller before the task runs: the task waits for two
more ticks, three in all, in an orderly run. -/
theorem waitingGet_bargedOut :
    let es : List (MonitorEvent 2 (QueueRequest 1)) :=
      [.kernel (.onTick 1), .isr (.call (.put fun _ => 7) 0), .isr (.call .get 0), .kernel (.onTick 1),
        .resume 0, .kernel (.onTick 1), .kernel (.onTick 1)]
    Runs.Along (MonitorSystem.step syncConfig) Orderly waitingGet es ∧
      InCall syncConfig 0 waitingGet es ∧ blockedTicks syncConfig 0 waitingGet es = 3 ∧
      ¬ (blockedTicks syncConfig 0 waitingGet es : ℤ) ≤ 2 := by
  intro es
  have hthree : blockedTicks syncConfig 0 waitingGet es = 3 := by decide +kernel
  refine ⟨?_, ?_, hthree, ?_⟩
  · decide +kernel
  · unfold InCall
    decide +kernel
  · rw [hthree]
    decide

end Runs

end Stk.Analysis
