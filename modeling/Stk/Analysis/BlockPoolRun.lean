import Stk.Analysis.BlockPool
import Stk.Analysis.IdleTicks
import Stk.Analysis.StrategyListInvariant

/-!
# Runs of a block memory pool

Every run of allocations and frees, the users' writes included, keeps the blocks apart and loses no
wakeup: while a task is blocked in `TimedAlloc`, there are at most as many free blocks as notified
tasks.  A task that leaves an infinite wait after `INT32_MAX` ticks stays in the wait list, and takes the
notification of another one (`staleAllocator_losesWakeup`).
-/

set_option autoImplicit false

namespace Stk.Analysis

open Stk.Model BlockMemoryPool

section Stretches

variable {p : ℕ} {m : PoolInUse p}

abbrev PoolStretch (p : ℕ) := Mesa.Stretch SyncId (PoolInUse p) AllocFrame PoolResult

/-- `GetFreeCount` (stk_memory_blockpool.h:285). -/
def freeCount (m : PoolInUse p) : ℕ := m.pool.capacity - m.pool.usedCount

/-- What a stretch that raises the number of free blocks by no more than `k` does. -/
structure PoolStretchOk (m : PoolInUse p) (t : PoolStretch p) (k : ℕ) : Prop where
  state : PoolOk t.state
  blocks : blocks t.state.pool = blocks m.pool
  announces : Mesa.Announces cvPool k t.notify
  free : freeCount t.state ≤ freeCount m + k
  wait : ∀ f, t.next = .wait f → freeCount t.state = 0

/-- What a stretch hands out was free. -/
def HandsOutFree (m : PoolInUse p) (t : PoolStretch p) : Prop :=
  ∀ b, t.next = .done (.block b) → b ≠ 0 →
    b ∈ Analysis.blocks m.pool ∧ b ∉ m.outstanding ∧ t.state.outstanding = b :: m.outstanding

theorem PoolOk.freeCount_eq_zero (h : PoolOk m) (hempty : m.pool.freeList = 0) : freeCount m = 0 := by
  have hused := h.exhausted_iff.mp hempty
  unfold freeCount
  omega

theorem PoolOk.keep (h : PoolOk m) {next : Mesa.Next AllocFrame PoolResult}
    (hnext : ∀ f, next = .wait f → freeCount m = 0) : PoolStretchOk m ⟨m, [], next⟩ 0 :=
  ⟨h, rfl, .none, le_rfl, hnext⟩

/-- A stretch of an allocation takes a block, if there is one. -/
theorem PoolOk.allocFrom (h : PoolOk m) (timeout : ℤ) :
    let t := m.follow 0 (m.pool.allocFrom timeout)
    PoolStretchOk m t 0 ∧ HandsOutFree m t ∧ (freeCount t.state < freeCount m ∨ freeCount m = 0) := by
  unfold BlockMemoryPool.allocFrom
  by_cases hempty : m.pool.freeList = 0
  · have hzero := h.freeCount_eq_zero hempty
    rw [if_pos hempty]
    split
    · refine ⟨h.keep (fun _ _ => hzero), ?_, Or.inr hzero⟩
      intro b hb
      exact nomatch hb
    · refine ⟨h.keep (fun _ _ => hzero), ?_, Or.inr hzero⟩
      intro b hb hne
      cases hb
      exact absurd rfl hne
  · obtain ⟨hok, hmem, hnot, hused⟩ := h.pop hempty
    have hpos : m.pool.popFreeList.1 ≠ 0 := hempty
    have hle := hok.length_le
    have hlt : m.pool.usedCount < m.pool.capacity := by
      have := hok.used
      rw [List.length_cons] at this hle
      change m.pool.popFreeList.2.usedCount = _ at this
      have hcapacity : m.pool.popFreeList.2.capacity = m.pool.capacity := rfl
      dsimp only at hle
      omega
    rw [if_neg hempty]
    have hstate : (m.follow 0 ⟨m.pool.popFreeList.2, [], .done (.block m.pool.popFreeList.1)⟩).state =
        ⟨m.pool.popFreeList.2, m.pool.popFreeList.1 :: m.outstanding⟩ := by
      simp [PoolInUse.follow, PoolInUse.outstandingAfter, hpos]
    have hfree : freeCount ⟨m.pool.popFreeList.2, m.pool.popFreeList.1 :: m.outstanding⟩ < freeCount m := by
      unfold freeCount
      dsimp only
      have hcapacity : m.pool.popFreeList.2.capacity = m.pool.capacity := rfl
      omega
    refine ⟨⟨hstate ▸ hok, ?_, .none, ?_, ?_⟩, ?_, Or.inl ?_⟩
    · rw [hstate]
      rfl
    · rw [hstate]
      omega
    · intro f hf
      exact nomatch hf
    · intro b hb _
      cases hb
      exact ⟨hmem, hnot, congrArg PoolInUse.outstanding hstate⟩
    · rw [hstate]
      exact hfree

/-- A block is freed by who has it. -/
def FreesOnce (m : PoolInUse p) : PoolOp → Prop
  | .free ptr => ptr ∈ Analysis.blocks m.pool → ptr ∈ m.outstanding
  | _ => True

instance : ∀ op : PoolOp, Decidable (FreesOnce m op)
  | .free ptr => inferInstanceAs (Decidable (ptr ∈ Analysis.blocks m.pool → ptr ∈ m.outstanding))
  | .alloc _ _ | .write _ => .isTrue trivial

theorem PoolOk.rejected (h : PoolOk m) {ptr : ℕ} (hptr : ptr ∉ Analysis.blocks m.pool) :
    m.call (.free ptr) = ⟨m, [], .done (.freed false)⟩ := by
  rw [PoolInUse.call, h.reject hptr]
  rfl

theorem PoolOk.call (h : PoolOk m) {op : PoolOp} (hop : FreesOnce m op) :
    ∃ k, PoolStretchOk m (m.call op) k := by
  cases op with
  | alloc insideIsr timeout =>
    unfold PoolInUse.call BlockMemoryPool.timedAlloc
    dsimp only
    split
    · exact ⟨0, (h.allocFrom timeout).1⟩
    · refine ⟨0, h.keep (fun f hf => ?_)⟩
      contradiction
  | free ptr =>
    by_cases hptr : ptr ∈ Analysis.blocks m.pool
    · obtain ⟨pool, hfree, hok, hused, hcapacity, hblocks⟩ := h.push (hop hptr)
      have hcall : m.call (.free ptr) =
          ⟨⟨pool, m.outstanding.erase ptr⟩, [.one cvPool], .done (.freed true)⟩ := by
        rw [PoolInUse.call, hfree]
        rfl
      rw [hcall]
      refine ⟨1, hok, hblocks, .one, ?_, fun f hf => by contradiction⟩
      unfold freeCount
      dsimp only
      omega
    · rw [h.rejected hptr]
      refine ⟨0, h.keep (fun f hf => ?_)⟩
      contradiction
  | write words =>
    refine ⟨0, h.write words, rfl, .none, le_rfl, fun f hf => ?_⟩
    contradiction

theorem PoolOk.call_handsOut (h : PoolOk m) (op : PoolOp) : HandsOutFree m (m.call op) := by
  have hnull : HandsOutFree m ⟨m, [], .done (.block 0)⟩ := by
    intro b hb hne
    cases hb
    exact absurd rfl hne
  cases op with
  | alloc insideIsr timeout =>
    unfold PoolInUse.call BlockMemoryPool.timedAlloc
    dsimp only
    split
    · exact (h.allocFrom timeout).2.1
    · exact hnull
  | free ptr =>
    intro b hb
    have hnext : (m.pool.free ptr).next = .done (.block b) := hb
    unfold BlockMemoryPool.free at hnext
    dsimp only at hnext
    split_ifs at hnext <;> cases hnext
  | write words =>
    intro b hb
    exact nomatch hb

theorem PoolOk.resume (h : PoolOk m) (f : AllocFrame) (r : WaitResult) :
    PoolStretchOk m (m.resume f r) 0 ∧ HandsOutFree m (m.resume f r) ∧
      (r = .signal → freeCount (m.resume f r).state < freeCount m ∨ freeCount m = 0) := by
  cases r with
  | signal =>
    obtain ⟨hok, hfree, htakes⟩ := h.allocFrom f.timeout
    exact ⟨hok, hfree, fun _ => htakes⟩
  | timeout =>
    refine ⟨h.keep (fun f hf => (nomatch hf)), ?_, fun hr => (nomatch hr)⟩
    intro b hb hne
    cases hb
    exact absurd rfl hne

end Stretches

/-! ## Wakeups -/

section Wakeups

variable {p : ℕ} {ι : Type} [Fintype ι] {m : PoolInUse p} {u : ι → Mesa.Status AllocFrame}

/-- Every blocked task waits for `m_cv`. -/
def anyFrame (_ : AllocFrame) : Bool := true

/-- While a task is blocked, there are at most as many free blocks as notified tasks. -/
def AllocsOk (m : PoolInUse p) (u : ι → Mesa.Status AllocFrame) : Prop :=
  Mesa.blocked anyFrame u ≠ 0 → freeCount m ≤ Mesa.notified anyFrame u

variable [DecidableEq ι] {t : PoolStretch p} {caller : Option ι} {r : Option PoolResult}
  {c' : Mesa.Config ι (PoolInUse p) AllocFrame} {k free : ℕ}

/-- INTERNAL: a stretch, with what is left of the notifications when it begins. -/
theorem PoolStretchOk.allocsOk (ht : PoolStretchOk m t k) (hfree : freeCount t.state ≤ free + k)
    (hu : Mesa.blocked anyFrame u ≠ 0 → free ≤ Mesa.notified anyFrame u)
    (hfollows : Mesa.Follows (fun _ => cvPool) caller t u r c')
    (hidle : ∀ i, caller = some i → u i = .idle) : AllocsOk c'.state c'.status := by
  obtain ⟨u₁, hms, hstate, hend⟩ := hfollows.ends hidle
  have hann := ht.announces.tallies hms (p := anyFrame) (fun f => by simp [anyFrame])
  have hle := (hms.releases.tallies anyFrame).1
  intro hblocked
  rw [hstate]
  rcases hend with heq | ⟨i, f, hnext, -, -⟩
  · rw [heq] at hblocked ⊢
    have := hu (by omega)
    omega
  · rw [ht.wait f hnext]
    exact Nat.zero_le _

end Wakeups

/-! ## Runs -/

section Runs

variable {p n : ℕ} {σ : Type} [SwitchStrategy (Fin n) σ] {cfg : Config}

/-- The frees of a run. -/
def FreesOnceIn (c : Mesa.Config (Fin n) (PoolInUse p) AllocFrame) : Mesa.Event (Fin n) PoolOp → Prop
  | .call _ op | .isr op => FreesOnce c.state op
  | _ => True

instance (c : Mesa.Config (Fin n) (PoolInUse p) AllocFrame) :
    ∀ e : Mesa.Event (Fin n) PoolOp, Decidable (FreesOnceIn c e)
  | .call _ op | .isr op => inferInstanceAs (Decidable (FreesOnce c.state op))
  | .resume _ | .quiet => .isTrue trivial

/-- INTERNAL: what is carried along a run. -/
structure PoolRunOk (pool : BlockMemoryPool p) (c : Mesa.Config (Fin n) (PoolInUse p) AllocFrame) : Prop where
  state : PoolOk c.state
  blocks : blocks c.state.pool = blocks pool
  allocs : AllocsOk c.state c.status

variable {pool : BlockMemoryPool p} {c c' : Mesa.Config (Fin n) (PoolInUse p) AllocFrame}
  {r : Option PoolResult}

theorem PoolRunOk.step (h : PoolRunOk pool c) {e : Mesa.Event (Fin n) PoolOp} (he : FreesOnceIn c e)
    (hstep : Mesa.Step (program (PoolInUse p)) c e r c') : PoolRunOk pool c' := by
  cases e with
  | call i op =>
    obtain ⟨hidle, t, ⟨ticks, rfl⟩, hfollows⟩ := hstep
    obtain ⟨k, ht⟩ := h.state.call he
    have hstate : c'.state = (c.state.call op).state := by
      obtain ⟨-, -, hstate, -⟩ := hfollows
      exact hstate
    refine ⟨hstate ▸ ht.state, hstate ▸ ht.blocks.trans h.blocks, ?_⟩
    apply ht.allocsOk ht.free h.allocs hfollows
    intro j hj
    obtain rfl := Option.some.inj hj
    exact hidle
  | isr op =>
    obtain ⟨t, ⟨ticks, rfl⟩, hfollows⟩ := hstep
    obtain ⟨k, ht⟩ := h.state.call he
    have hstate : c'.state = (c.state.call op).state := by
      obtain ⟨-, -, hstate, -⟩ := hfollows
      exact hstate
    refine ⟨hstate ▸ ht.state, hstate ▸ ht.blocks.trans h.blocks, ?_⟩
    apply ht.allocsOk ht.free h.allocs hfollows
    intro j hj
    exact nomatch hj
  | resume i =>
    obtain ⟨f, b, t, hi, ⟨ticks, rfl⟩, hfollows⟩ := hstep
    obtain ⟨ht, -, htakes⟩ := h.state.resume f (if b then .signal else .timeout)
    have hstate : c'.state = (c.state.resume f (if b then .signal else .timeout)).state := by
      obtain ⟨-, -, hstate, -⟩ := hfollows
      exact hstate
    refine ⟨hstate ▸ ht.state, hstate ▸ ht.blocks.trans h.blocks, ?_⟩
    have hidle : ∀ j, some i = some j → Function.update c.status i .idle j = .idle := by
      intro j hj
      obtain rfl := Option.some.inj hj
      exact Function.update_self _ _ _
    cases b with
    | true =>
      -- the task takes its notification and a block with it
      obtain ⟨hblocked, hnotified, -⟩ := Mesa.tallies_leave_notified hi anyFrame
      have hone : (if anyFrame f = true then 1 else 0) = 1 := rfl
      rw [hone] at hnotified
      have hfree := ht.free
      have hless := htakes rfl
      refine ht.allocsOk (?_ : _ ≤ freeCount c.state - 1 + _) ?_ hfollows hidle
      · omega
      · intro hne
        have := h.allocs (hblocked ▸ hne)
        omega
    | false =>
      obtain ⟨hblocked, hnotified, -⟩ := Mesa.tallies_leave_expired hi anyFrame
      apply ht.allocsOk ht.free _ hfollows hidle
      intro hne
      rw [hnotified]
      exact h.allocs (hblocked ▸ hne)
  | quiet =>
    obtain ⟨-, hstate, hexpires⟩ := hstep
    obtain ⟨hblocked, hnotified, -⟩ := hexpires.tallies anyFrame
    refine ⟨hstate ▸ h.state, hstate ▸ h.blocks, ?_⟩
    intro hne
    rw [hstate, hnotified]
    apply h.allocs
    omega

omit [SwitchStrategy (Fin n) σ] in
/-- INTERNAL: a stretch of the pool ends in an event that returns a block. -/
theorem stretch_handsOut {s : MonitorSystem n (PoolInUse p) AllocFrame σ} (h : PoolOk s.state)
    {e : MonitorEvent n PoolOp} {t : PoolStretch p} (ht : s.stretch cfg e = some t) : HandsOutFree s.state t := by
  cases e with
  | call i op =>
    obtain ⟨-, rfl⟩ := stretch_call ht
    exact h.call_handsOut op
  | resume i =>
    obtain ⟨f, r, -, -, rfl⟩ := stretch_resume ht
    exact (h.resume f r).2.1
  | isr op =>
    obtain ⟨rfl, -⟩ := stretch_isr ht
    exact h.call_handsOut op
  | kernel e => cases ht

/-- The event frees `ptr`. -/
def MonitorEvent.Frees (ptr : ℕ) (e : MonitorEvent n PoolOp) : Prop :=
  (∃ i, e = .call i (.free ptr)) ∨ e = .isr (.free ptr)

/-- INTERNAL: a rejected pointer. -/
theorem step_rejected {s : MonitorSystem n (PoolInUse p) AllocFrame σ} (hs : MonitorOk s) (h : PoolOk s.state)
    {ptr : ℕ} (hptr : ptr ∉ blocks s.state.pool) {e : MonitorEvent n PoolOp} (he : MonitorEvent.Frees ptr e) :
    s.step cfg e = s ∧ ∀ r, (s.stepResult cfg e).2 = some r → r = .freed false := by
  have hcall := h.rejected hptr
  unfold MonitorSystem.step
  obtain ⟨i, rfl⟩ | rfl := he
  · cases ht : s.stretch cfg (.call i (.free ptr)) with
    | none =>
      rw [stepResult_none (by simp) ht]
      exact ⟨rfl, fun r hr => by contradiction⟩
    | some t =>
      obtain ⟨hcan, rfl⟩ := stretch_call ht
      have ht' : Monitor.call s.kernel.ticks s.state (PoolOp.free ptr) = ⟨s.state, [], .done (.freed false)⟩ := hcall
      have hnone : s.pending i = none := by
        by_contra hne
        obtain ⟨f, hf⟩ := Option.ne_none_iff_exists'.mp hne
        have hwait := hs.call i f hf
        simp only [Kernel.canCall, Bool.and_eq_true, decide_eq_true_eq] at hcan
        rw [hcan.2] at hwait
        contradiction
      rw [stepResult_call ht, ht']
      refine ⟨?_, fun r hr => (Option.some.inj hr).symm⟩
      have hpending : Function.update s.pending i none = s.pending :=
        Function.update_eq_self_iff.mpr hnone.symm
      unfold MonitorSystem.follow
      dsimp only [List.foldl_nil]
      rw [hpending]
  · cases ht : s.stretch cfg (.isr (.free ptr)) with
    | none =>
      rw [stepResult_none (by simp) ht]
      exact ⟨rfl, fun r hr => by contradiction⟩
    | some t =>
      obtain ⟨rfl, -⟩ := stretch_isr ht
      have ht' : Monitor.call s.kernel.ticks s.state (PoolOp.free ptr) = ⟨s.state, [], .done (.freed false)⟩ := hcall
      rw [ht'] at ht
      rw [stepResult_isr ht rfl]
      exact ⟨rfl, fun r hr => (Option.some.inj hr).symm⟩

/-- **Block memory pools.**  After every run in which a block is freed by who has it: the free list
is a chain of blocks, each once, and together with the outstanding blocks it has every block of the
pool once; what an allocation returns was free; `Free` of what is no block returns `false` and changes
nothing; and when no notified task is on its way, no task waits while a block is free. -/
theorem run_blockPool (hpool : Constructed pool) {es : List (MonitorEvent n PoolOp)}
    (hes : Runs.Along (MonitorSystem.step cfg)
      (fun s e => Orderly s e ∧ FreesOnceIn (abstract s) (abstractEvent e))
      (MonitorSystem.initial ⟨pool, []⟩ : MonitorSystem n (PoolInUse p) AllocFrame σ) es) :
    let s := (MonitorSystem.run cfg ⟨pool, []⟩ es : MonitorSystem n (PoolInUse p) AllocFrame σ)
    (∃ l, FreeChain s.state.pool.memory s.state.pool.freeList l ∧ (l ++ s.state.outstanding).Nodup ∧
        (l ++ s.state.outstanding).Perm (blocks pool)) ∧
      (∀ e b, (s.stepResult cfg e).2 = some (.block b) → b ≠ 0 →
        b ∈ blocks pool ∧ b ∉ s.state.outstanding ∧ (s.step cfg e).state.outstanding = b :: s.state.outstanding) ∧
      (∀ ptr e, ptr ∉ blocks pool → MonitorEvent.Frees ptr e →
        s.step cfg e = s ∧ ∀ r, (s.stepResult cfg e).2 = some r → r = .freed false) ∧
      (Quiescent s → s.state.pool.freeList ≠ 0 → s.kernel.waitList cvPool = []) := by
  intro s
  obtain ⟨hok, hinv⟩ := run_invariant (I := PoolRunOk pool) (C := FreesOnceIn) (⟨pool, []⟩ : PoolInUse p)
    ⟨.constructed hpool, rfl, fun hne => absurd (Mesa.tally_eq_zero_iff.mpr fun _ => rfl) hne⟩
    (fun c r c' h hstep => h.step (e := .quiet) trivial hstep) (fun c e r c' h he hstep => h.step he hstep) hes
  have hstate : PoolOk s.state := hinv.state
  have hblocks : blocks s.state.pool = blocks pool := hinv.blocks
  refine ⟨?_, ?_, ?_, ?_⟩
  · obtain ⟨l, hchain, hperm⟩ := hstate.chain
    exact ⟨l, hchain, hperm.nodup_iff.mpr hstate.placed.nodup, hblocks ▸ hperm⟩
  · intro e b hb hne
    cases ht : s.stretch cfg e with
    | none =>
      obtain ⟨-, hnone, -⟩ := stepResult_of_none ht
      rw [hnone] at hb
      exact nomatch hb
    | some t =>
      obtain ⟨hnext, hresult, -⟩ := stepResult_some ht
      rw [hnext, ← hblocks]
      exact stretch_handsOut hstate ht b ((hresult _).mp hb) hne
  · intro ptr e hptr he
    exact step_rejected hok hstate (hblocks ▸ hptr) he
  · intro hquiet hfree
    have hcount : freeCount s.state ≠ 0 := by
      have hused := mt hstate.exhausted_iff.mpr hfree
      have hle := hstate.length_le
      have hlength := hstate.used
      unfold freeCount
      omega
    apply hok.waitList_eq_nil (o := cvPool) rfl
    intro i f hi _
    have hblocked : 0 < Mesa.blocked anyFrame (status s) := Mesa.blocked_pos hi rfl
    have hle : freeCount s.state ≤ Mesa.notified anyFrame (status s) := hinv.allocs (by
      change Mesa.blocked anyFrame (status s) ≠ 0
      omega)
    have hzero : Mesa.notified anyFrame (status s) = 0 := Mesa.notified_eq_zero hquiet.not_notified
    omega

end Runs

/-! ## A run -/

/-- A pool of two blocks of eight bytes in external storage, pointers of four bytes. -/
def smallPool : BlockMemoryPool 2 := external 2 5 64 16 (fun _ => 0)

theorem smallPool_constructed : Constructed smallPool := by
  apply Constructed.external
  all_goals decide

/-- Task 0 takes both blocks and waits for a third; task 1 frees a pointer into a block and then the
first block, and task 0 gets it and frees the other one. -/
def poolEvents : List (MonitorEvent 2 PoolOp) :=
  [.kernel (.addTask 0), .kernel (.addTask 1), .kernel .onStart, .call 0 (.alloc false waitInfinite),
    .call 0 (.alloc false 0), .call 0 (.write fun _ => 7), .call 0 (.alloc false waitInfinite),
    .kernel (.onTick 1), .call 1 (.free 65), .call 1 (.free 64), .kernel (.onTick 1), .resume 0,
    .call 0 (.free 72)]

theorem poolEvents_served :
    let s := (MonitorSystem.run syncConfig ⟨smallPool, []⟩ poolEvents :
      MonitorSystem 2 (PoolInUse 2) AllocFrame (RoundRobin (Fin 2)))
    Quiescent s ∧ s.state.outstanding = [64] ∧ s.state.pool.freeList = 72 ∧ s.kernel.waitList cvPool = [] := by
  intro s
  have hquiet : Quiescent s := by decide +kernel
  have hfree : s.state.pool.freeList = 72 := by decide +kernel
  have hes : Runs.Along (MonitorSystem.step syncConfig)
      (fun s e => Orderly s e ∧ FreesOnceIn (abstract s) (abstractEvent e))
      (MonitorSystem.initial ⟨smallPool, []⟩ :
        MonitorSystem 2 (PoolInUse 2) AllocFrame (RoundRobin (Fin 2))) poolEvents := by
    decide +kernel
  refine ⟨hquiet, by decide +kernel, hfree, ?_⟩
  apply (run_blockPool smallPool_constructed hes).2.2.2 hquiet
  rw [hfree]
  decide

/-! ## A wait that runs out -/

/-- Task 0 takes both blocks and waits for a third, and task 1 waits too, both without a timeout. -/
def twoAllocators : List (MonitorEvent 3 PoolOp) :=
  [.kernel (.addTask 0), .kernel (.addTask 1), .kernel (.addTask 2), .kernel .onStart, .call 0 (.alloc false 0),
    .call 0 (.alloc false 0), .call 0 (.alloc false waitInfinite), .kernel (.onTick 1),
    .call 1 (.alloc false waitInfinite), .kernel (.onTick 1)]

/-- Task 0 is notified of a free block, but task 1, whose wait has run out meanwhile, is the first to run and
takes it, still linked.  Task 0 waits again, behind it, and the second block is freed. -/
def overtakenFree : List (MonitorEvent 3 PoolOp) :=
  [.call 2 (.free 64), .kernel (.onTick 1), .kernel (.onTick 1), .resume 1, .kernel (.onTick 1),
    .kernel (.onTick 1), .resume 0, .kernel (.onTick 1), .kernel (.onTick 1), .call 2 (.free 72)]

/-- The two allocators while nothing happens. -/
def blockedAllocators (m : ℕ) : MonitorSystem 3 (PoolInUse 2) AllocFrame (RoundRobin (Fin 3)) :=
  let s : MonitorSystem 3 (PoolInUse 2) AllocFrame (RoundRobin (Fin 3)) :=
    MonitorSystem.run syncConfig ⟨smallPool, []⟩ twoAllocators
  { s with kernel := restsFor syncConfig s.kernel m }

theorem blockedAllocators_run {m : ℕ} (hm : m < 2147483645) (es : List (MonitorEvent 3 PoolOp)) :
    MonitorSystem.run syncConfig ⟨smallPool, []⟩
        (twoAllocators ++ (List.replicate m (.kernel (.onTick 1)) ++ es)) =
      es.foldl (MonitorSystem.step syncConfig) (blockedAllocators m) := by
  have hrests : Uneventful syncConfig (MonitorSystem.run syncConfig ⟨smallPool, []⟩ twoAllocators :
      MonitorSystem 3 (PoolInUse 2) AllocFrame (RoundRobin (Fin 3))).kernel 2 2147483644 := by
    refine ⟨rfl, ?_, ?_, ?_, ?_, rfl, ?_, ?_, ?_⟩
    all_goals decide +kernel
  have hticks := MonitorSystem.idle_ticks (hrests.mono (Nat.le_of_lt_succ hm)) (by decide +kernel)
  unfold MonitorSystem.run at hticks ⊢
  rw [List.foldl_append, List.foldl_append, hticks]
  rfl

/-- After `INT32_MAX - 3` ticks the infinite wait of task 0 is about to run out, and a tick later that of task 1.
In the end task 0 is blocked beside a free block, and no notified task is on its way. -/
theorem staleAllocator_losesWakeup :
    let s := (MonitorSystem.run syncConfig ⟨smallPool, []⟩
        (twoAllocators ++ (List.replicate 2147483644 (.kernel (.onTick 1)) ++ overtakenFree)) :
      MonitorSystem 3 (PoolInUse 2) AllocFrame (RoundRobin (Fin 3)))
    Quiescent s ∧ ¬ (s.state.pool.freeList ≠ 0 → s.kernel.waitList cvPool = []) := by
  rw [blockedAllocators_run (by decide)]
  decide +kernel

end Stk.Analysis
