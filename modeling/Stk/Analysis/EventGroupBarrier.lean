import Stk.Analysis.EventFlagsRun
import Stk.Analysis.UntimedWait
import Stk.Model.EventGroup

/-!
# `xEventGroupSync` as a barrier

Each task of a set sets its own bits and waits for the bits of all.  No task gets through before all
have set their bits.  But the first one to find them set clears them, and the others, which look at the
flags one after another, no longer find them: one task gets through.
-/

set_option autoImplicit false

namespace Stk.Analysis

open Stk.Model Stk.Model.Kernel EventFlags

variable {n : ℕ}

/-- The tasks of the rendezvous with their bits, and the mask they all wait for. -/
structure Rendezvous (S : Finset (Fin n)) (bits : Fin n → BitVec 32) (mask : BitVec 32) : Prop where
  nonempty : ∀ i ∈ S, bits i ≠ 0
  /-- Bit 31 is no bit of an event group. -/
  valid : ∀ i ∈ S, bits i &&& errorMask = 0
  disjoint : ∀ i ∈ S, ∀ j ∈ S, i ≠ j → bits i &&& bits j = 0
  union : ∀ b, mask.getLsbD b = true ↔ ∃ i ∈ S, (bits i).getLsbD b = true

/-- The call of each task. -/
def syncCalls (S : Finset (Fin n)) (bits : Fin n → BitVec 32) (mask : BitVec 32) (i : Fin n) : Option SyncCall :=
  if i ∈ S then some ⟨bits i, mask, portMaxDelay⟩ else none

/-- The frame of a call inside `Wait`. -/
def syncFrame (mask : BitVec 32) : FlagsFrame := ⟨mask, optWaitAll, false, waitInfinite, waitInfinite⟩

section Bits

variable {S : Finset (Fin n)} {bits : Fin n → BitVec 32} {mask : BitVec 32} {i : Fin n}

theorem exists_bit {x : BitVec 32} (hx : x ≠ 0) : ∃ b, x.getLsbD b = true := by
  by_contra hnone
  apply hx
  apply BitVec.eq_of_getLsbD_eq
  intro b _
  have hzero : (0 : BitVec 32).getLsbD b = false := BitVec.getLsbD_zero
  rw [hzero]
  exact Bool.eq_false_iff.mpr fun hb => hnone ⟨b, hb⟩

theorem and_eq_zero_iff {x y : BitVec 32} :
    x &&& y = 0 ↔ ∀ b, x.getLsbD b = true → y.getLsbD b = false := by
  constructor
  · intro h b hx
    have hb := congrArg (fun z : BitVec 32 => z.getLsbD b) h
    simpa [hx] using hb
  · intro h
    apply BitVec.eq_of_getLsbD_eq
    intro b _
    cases hx : x.getLsbD b with
    | false => simp [hx]
    | true => simp [hx, h b hx]

theorem and_eq_self_iff {x y : BitVec 32} :
    x &&& y = y ↔ ∀ b, y.getLsbD b = true → x.getLsbD b = true := by
  constructor
  · intro h b hy
    have hb := congrArg (fun z : BitVec 32 => z.getLsbD b) h
    simpa [hy] using hb
  · intro h
    apply BitVec.eq_of_getLsbD_eq
    intro b _
    cases hy : y.getLsbD b with
    | false => simp [hy]
    | true => simp [hy, h b hy]

namespace Rendezvous

theorem mask_ne (h : Rendezvous S bits mask) (hi : i ∈ S) : mask ≠ 0 := by
  obtain ⟨b, hb⟩ := exists_bit (h.nonempty i hi)
  intro hzero
  have hmask := (h.union b).mpr ⟨i, hi, hb⟩
  rw [hzero] at hmask
  simp at hmask

theorem mask_valid (h : Rendezvous S bits mask) (hi : i ∈ S) : isValid mask = true := by
  unfold isValid
  rw [Bool.and_eq_true, decide_eq_true_eq, decide_eq_true_eq]
  refine ⟨h.mask_ne hi, and_eq_zero_iff.mpr fun b hb => ?_⟩
  obtain ⟨j, hj, hjb⟩ := (h.union b).mp hb
  exact and_eq_zero_iff.mp (h.valid j hj) b hjb

theorem mask_ok (h : Rendezvous S bits mask) : isError mask = false := by
  unfold isError
  rw [decide_eq_false_iff_not, not_not]
  apply and_eq_zero_iff.mpr
  intro b hb
  obtain ⟨j, hj, hjb⟩ := (h.union b).mp hb
  exact and_eq_zero_iff.mp (h.valid j hj) b hjb

end Rendezvous

end Bits

/-! ## The stretches -/

section Stretches

variable {mask : BitVec 32} {m : EventFlags} {ticks : ℤ}

/-- `Wait` for all bits of the mask: it takes them, or it waits. -/
theorem waitFrom_mask (m : EventFlags) (mask : BitVec 32) :
    m.waitFrom ticks mask optWaitAll false waitInfinite =
      if m.flags &&& mask = mask then ⟨⟨m.flags &&& ~~~mask⟩, [], .done mask⟩
      else ⟨m, [], .wait (syncFrame mask)⟩ := by
  have hall : waitsForAll optWaitAll = true := by decide
  have hclear : optWaitAll &&& optNoClear = 0 := by decide
  unfold waitFrom EventFlags.isSatisfied EventFlags.satisfied
  rw [hall]
  simp only [if_true, decide_eq_true_eq, Bool.false_eq_true, if_false, hclear]
  split
  · rfl
  · rw [if_pos (by decide)]
    rfl

theorem wait_mask (m : EventFlags) (hvalid : isValid mask = true) (started : ℤ) :
    m.call ticks (.wait false mask optWaitAll (frtosTimeoutToStk portMaxDelay) started) =
      m.waitFrom ticks mask optWaitAll false waitInfinite := by
  have htimeout : frtosTimeoutToStk portMaxDelay = waitInfinite := by decide
  rw [htimeout]
  unfold EventFlags.call EventFlags.wait
  simp [hvalid]

end Stretches

/-! ## The invariant -/

section Invariant

variable {S : Finset (Fin n)} {bits : Fin n → BitVec 32} {mask : BitVec 32}
  {c c' : Mesa.Config (Fin n) EventFlags FlagsFrame} {phase : Fin n → SyncPhase}

/-- No task has got through; the flags are the bits of the tasks that have set them. -/
def Gathering (S : Finset (Fin n)) (bits : Fin n → BitVec 32) (m : EventFlags) (phase : Fin n → SyncPhase) : Prop :=
  (∀ i r, phase i ≠ .returned r) ∧
    ∀ b, m.flags.getLsbD b = true ↔ ∃ i ∈ S, phase i ≠ .start ∧ (bits i).getLsbD b = true

/-- All tasks have set their bits and one task has got through and cleared them. -/
def PassedOne (S : Finset (Fin n)) (mask : BitVec 32) (m : EventFlags) (phase : Fin n → SyncPhase) : Prop :=
  (∀ i ∈ S, phase i ≠ .start) ∧ m.flags = 0 ∧
    ∃ j ∈ S, phase j = .returned mask ∧ ∀ i r, phase i = .returned r → i = j

/-- What is carried along a run. -/
structure BarrierOk (S : Finset (Fin n)) (bits : Fin n → BitVec 32) (mask : BitVec 32)
    (c : Mesa.Config (Fin n) EventFlags FlagsFrame) (phase : Fin n → SyncPhase) : Prop where
  frame : ∀ i f, (c.status i).frame = some f → f = syncFrame mask ∧ phase i = .waiting
  waiting : ∀ i, phase i = .waiting → (c.status i).frame ≠ none
  member : ∀ i, phase i ≠ .start → i ∈ S
  flags : Gathering S bits c.state phase ∨ PassedOne S mask c.state phase
  /-- The last `Set` has woken all that had begun to wait, and later ones find the bits set. -/
  awake : Gathering S bits c.state phase → (∀ i ∈ S, phase i ≠ .start) → ∀ i f, c.status i ≠ .blocked f

/-- While no task has got through, the mask is set once all tasks have set their bits. -/
theorem Gathering.satisfied_iff (hr : Rendezvous S bits mask) {m : EventFlags} (h : Gathering S bits m phase) :
    m.flags &&& mask = mask ↔ ∀ i ∈ S, phase i ≠ .start := by
  rw [and_eq_self_iff]
  constructor
  · intro hset i hi
    obtain ⟨b, hb⟩ := exists_bit (hr.nonempty i hi)
    obtain ⟨j, hj, hphase, hjb⟩ := (h.2 b).mp (hset b ((hr.union b).mpr ⟨i, hi, hb⟩))
    by_cases hij : i = j
    · exact hij ▸ hphase
    · have hno := and_eq_zero_iff.mp (hr.disjoint i hi j hj hij) b hb
      rw [hjb] at hno
      exact nomatch hno
  · intro hall b hb
    obtain ⟨i, hi, hib⟩ := (hr.union b).mp hb
    exact (h.2 b).mpr ⟨i, hi, hall i hi, hib⟩

namespace BarrierOk

theorem status_idle (h : BarrierOk S bits mask c phase) {i : Fin n} (hi : phase i ≠ .waiting) :
    c.status i = .idle := by
  cases hs : c.status i with
  | idle => rfl
  | blocked f => exact absurd (h.frame i f (by rw [hs]; rfl)).2 hi
  | notified f => exact absurd (h.frame i f (by rw [hs]; rfl)).2 hi
  | expired f => exact absurd (h.frame i f (by rw [hs]; rfl)).2 hi

/-- INTERNAL: a task leaves its wait. -/
theorem leave (h : BarrierOk S bits mask c phase) {i : Fin n} (hi : phase i = .waiting) :
    BarrierOk S bits mask ⟨c.state, Function.update c.status i .idle⟩ (Function.update phase i .set) := by
  have hstart : ∀ j, Function.update phase i .set j ≠ .start ↔ phase j ≠ .start := by
    intro j
    by_cases hj : j = i
    · subst hj
      simp [hi]
    · rw [Function.update_of_ne hj]
  have hreturned : ∀ j r, Function.update phase i .set j = .returned r ↔ phase j = .returned r := by
    intro j r
    by_cases hj : j = i
    · subst hj
      simp [hi]
    · rw [Function.update_of_ne hj]
  have hgathering : Gathering S bits c.state (Function.update phase i .set) ↔ Gathering S bits c.state phase := by
    unfold Gathering
    simp only [ne_eq, hreturned, hstart]
  refine ⟨?_, ?_, ?_, ?_, ?_⟩
  · intro j f hf
    dsimp only at hf
    by_cases hj : j = i
    · subst hj
      rw [Function.update_self] at hf
      exact nomatch hf
    · rw [Function.update_of_ne hj] at hf ⊢
      exact h.frame j f hf
  · intro j hj
    by_cases hji : j = i
    · subst hji
      rw [Function.update_self] at hj
      exact nomatch hj
    · dsimp only
      rw [Function.update_of_ne hji] at hj ⊢
      exact h.waiting j hj
  · intro j hj
    exact h.member j ((hstart j).mp hj)
  · rcases h.flags with hg | ⟨hall, hzero, j, hj, hjr, hone⟩
    · exact Or.inl (hgathering.mpr hg)
    · refine Or.inr ⟨fun k hk => (hstart k).mpr (hall k hk), hzero, j, hj, (hreturned j mask).mpr hjr, ?_⟩
      intro k r hk
      exact hone k r ((hreturned k r).mp hk)
  · intro hg hall j f
    have hawake := h.awake (hgathering.mp hg) (fun k hk => (hstart k).mp (hall k hk))
    by_cases hj : j = i
    · subst hj
      simp
    · dsimp only
      rw [Function.update_of_ne hj]
      exact hawake j f

/-- **The `Wait`** of a task that has set its bits: it gets through and clears the mask, or it is blocked. -/
theorem wait (h : BarrierOk S bits mask c phase) (hr : Rendezvous S bits mask) {i : Fin n}
    (hi : phase i = .set) {ticks : ℤ} {cv : FlagsFrame → SyncId} {r : Option (BitVec 32)}
    (hfollows : Mesa.Follows cv (some i) (c.state.waitFrom ticks mask optWaitAll false waitInfinite) c.status r c') :
    (r = some mask ∧ BarrierOk S bits mask c' (Function.update phase i (.returned mask))) ∨
      (r = none ∧ BarrierOk S bits mask c' (Function.update phase i .waiting)) := by
  have hiS : i ∈ S := h.member i (by simp [hi])
  have hidle : c.status i = .idle := h.status_idle (by simp [hi])
  have hne := hr.mask_ne hiS
  rw [waitFrom_mask] at hfollows
  by_cases hset : c.state.flags &&& mask = mask
  · -- only the first one finds the mask
    have hg : Gathering S bits c.state phase := by
      refine h.flags.resolve_right ?_
      rintro ⟨-, hzero, -⟩
      rw [hzero] at hset
      exact hne (by simpa using hset.symm)
    have hall := (hg.satisfied_iff hr).mp hset
    rw [if_pos hset] at hfollows
    obtain ⟨u₁, hms, hresult, rfl⟩ := hfollows.done
    obtain rfl : u₁ = c.status := hms
    refine Or.inl ⟨hresult, ?_, ?_, ?_, Or.inr ⟨?_, ?_, i, hiS, Function.update_self _ _ _, ?_⟩, ?_⟩
    · intro j f hf
      have hj : j ≠ i := by
        rintro rfl
        rw [hidle] at hf
        exact nomatch hf
      rw [Function.update_of_ne hj]
      exact h.frame j f hf
    · intro j hj
      have hji : j ≠ i := by
        rintro rfl
        rw [Function.update_self] at hj
        exact nomatch hj
      rw [Function.update_of_ne hji] at hj
      exact h.waiting j hj
    · intro j hj
      by_cases hji : j = i
      · exact hji ▸ hiS
      · rw [Function.update_of_ne hji] at hj
        exact h.member j hj
    · intro j hj
      by_cases hji : j = i
      · subst hji
        simp
      · rw [Function.update_of_ne hji]
        exact hall j hj
    · apply and_eq_zero_iff.mpr
      intro b hb
      obtain ⟨j, hj, -, hjb⟩ := (hg.2 b).mp hb
      have hmask := (hr.union b).mpr ⟨j, hj, hjb⟩
      simp [hmask]
    · intro j r' hj
      by_contra hji
      rw [Function.update_of_ne hji] at hj
      exact hg.1 j r' hj
    · rintro ⟨hnone, -⟩
      exact absurd (Function.update_self i (.returned mask) phase) (hnone i mask)
  · rw [if_neg hset] at hfollows
    obtain ⟨j, hj, hresult, rfl⟩ := hfollows.wait
    obtain rfl := Option.some.inj hj
    have hstart : ∀ j, Function.update phase i .waiting j ≠ .start ↔ phase j ≠ .start := by
      intro j
      by_cases hj : j = i
      · subst hj
        simp [hi]
      · rw [Function.update_of_ne hj]
    have hreturned : ∀ j r, Function.update phase i .waiting j = .returned r ↔ phase j = .returned r := by
      intro j r
      by_cases hj : j = i
      · subst hj
        simp [hi]
      · rw [Function.update_of_ne hj]
    have hgathering : Gathering S bits c.state (Function.update phase i .waiting) ↔
        Gathering S bits c.state phase := by
      unfold Gathering
      simp only [ne_eq, hreturned, hstart]
    refine Or.inr ⟨hresult, ?_, ?_, ?_, ?_, ?_⟩
    · intro j f hf
      dsimp only at hf
      by_cases hji : j = i
      · subst hji
        rw [Function.update_self] at hf ⊢
        exact ⟨(Option.some.inj hf).symm, rfl⟩
      · rw [Function.update_of_ne hji] at hf ⊢
        exact h.frame j f hf
    · intro j hj
      dsimp only
      by_cases hji : j = i
      · subst hji
        rw [Function.update_self]
        exact Option.some_ne_none _
      · rw [Function.update_of_ne hji] at hj ⊢
        exact h.waiting j hj
    · intro j hj
      exact h.member j ((hstart j).mp hj)
    · rcases h.flags with hg | ⟨hall, hzero, k, hk, hkr, hone⟩
      · exact Or.inl (hgathering.mpr hg)
      · refine Or.inr ⟨fun l hl => (hstart l).mpr (hall l hl), hzero, k, hk, (hreturned k mask).mpr hkr, ?_⟩
        intro l r' hl
        exact hone l r' ((hreturned l r').mp hl)
    · intro hg hall
      exact absurd (((hgathering.mp hg).satisfied_iff hr).mpr fun k hk => (hstart k).mp (hall k hk)) hset

/-- **The `Set`** of a task wakes all that wait. -/
theorem set (h : BarrierOk S bits mask c phase) {i : Fin n} (hiS : i ∈ S) (hi : phase i = .start)
    (hvalid : isValid (bits i) = true) {cv : FlagsFrame → SyncId} (hcv : ∀ f, cv f = cvFlags)
    {r : Option (BitVec 32)}
    (hfollows : Mesa.Follows cv (some i) (c.state.set (bits i)) c.status r c') :
    r = some (c.state.flags ||| bits i) ∧ BarrierOk S bits mask c' (Function.update phase i .set) := by
  have hg : Gathering S bits c.state phase := by
    refine h.flags.resolve_right ?_
    rintro ⟨hall, -⟩
    exact hall i hiS hi
  unfold EventFlags.set at hfollows
  rw [if_pos hvalid] at hfollows
  obtain ⟨u₁, hms, hresult, rfl⟩ := hfollows.done
  obtain ⟨u₂, hall, rfl⟩ := hms
  have hframe : ∀ j, (u₁ j).frame = (c.status j).frame := fun j => hall.releases.frame_eq j
  refine ⟨hresult, ?_, ?_, ?_, Or.inl ⟨?_, ?_⟩, ?_⟩
  · intro j f hf
    rw [hframe] at hf
    have hj := h.frame j f hf
    have hji : j ≠ i := by
      rintro rfl
      rw [hi] at hj
      exact nomatch hj.2
    rwa [Function.update_of_ne hji]
  · intro j hj
    have hji : j ≠ i := by
      rintro rfl
      rw [Function.update_self] at hj
      exact nomatch hj
    rw [Function.update_of_ne hji] at hj
    rw [hframe]
    exact h.waiting j hj
  · intro j hj
    by_cases hji : j = i
    · exact hji ▸ hiS
    · rw [Function.update_of_ne hji] at hj
      exact h.member j hj
  · intro j r'
    by_cases hji : j = i
    · subst hji
      simp
    · rw [Function.update_of_ne hji]
      exact hg.1 j r'
  · intro b
    rw [BitVec.getLsbD_or, Bool.or_eq_true, hg.2 b]
    constructor
    · rintro (⟨j, hj, hphase, hjb⟩ | hib)
      · have hji : j ≠ i := by
          rintro rfl
          exact hphase hi
        exact ⟨j, hj, by rwa [Function.update_of_ne hji], hjb⟩
      · exact ⟨i, hiS, by simp, hib⟩
    · rintro ⟨j, hj, hphase, hjb⟩
      by_cases hji : j = i
      · exact Or.inr (hji ▸ hjb)
      · rw [Function.update_of_ne hji] at hphase
        exact Or.inl ⟨j, hj, hphase, hjb⟩
  · intro _ _ j f hblocked
    have hj : u₁ j = (c.status j).release cv cvFlags := congrFun hall j
    dsimp only at hblocked
    rw [hj] at hblocked
    cases hs : c.status j with
    | blocked g => simp [Mesa.Status.release, hs, hcv] at hblocked
    | _ => simp [Mesa.Status.release, hs] at hblocked

/-- INTERNAL: a kernel call from outside. -/
theorem quiet (h : BarrierOk S bits mask c phase) (hstate : c'.state = c.state)
    (hexpires : Mesa.Expires c.status c'.status) : BarrierOk S bits mask c' phase where
  frame i f hf := h.frame i f (hexpires.frame_eq i ▸ hf)
  waiting i hi := hexpires.frame_eq i ▸ h.waiting i hi
  member := h.member
  flags := hstate ▸ h.flags
  awake hg hall i f hblocked := by
    have hold := h.awake (hstate ▸ hg) hall i
    rcases hexpires i with hsame | ⟨g, -, hexpired⟩
    · exact hold f (hsame ▸ hblocked)
    · rw [hexpired] at hblocked
      exact nomatch hblocked

end BarrierOk

end Invariant

end Stk.Analysis
