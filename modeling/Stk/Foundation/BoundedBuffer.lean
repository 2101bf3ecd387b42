import Stk.Foundation.Mesa

/-!
# Bounded buffers under Mesa monitors

A buffer counts elements up to a capacity.  Tasks that wait for an element wait for `notEmpty` and
tasks that wait for a place wait for `notFull`; a stretch that adds or takes `k` elements announces
them (`Fills`, `Takes`).  `BufferOk` relates the blocked and the notified tasks to the count: while
an eager reader is blocked, there are at most as many elements as notified readers, and while a
writer is blocked, there are at most as many free places as notified writers.  With no task
notified it says that no wakeup is lost.

A notified task has to move an element, if there is one for it, or the notification is lost with
it.  The rules below ask for that of the stretch after a wait.
-/

set_option autoImplicit false

namespace Mesa

variable {ι κ μ φ ρ : Type}

/-- A buffer in the state `μ`.  The frames in `eager` wait for one element, the other frames that
wait for `notEmpty` may wait for more. -/
structure Buffer (κ μ φ : Type) where
  capacity : ℕ
  count : μ → ℕ
  cv : φ → κ
  notEmpty : κ
  notFull : κ
  eager : φ → Bool
  ne : notEmpty ≠ notFull
  eager_cv : ∀ f, eager f = true → cv f = notEmpty

namespace Buffer

variable [DecidableEq κ] (B : Buffer κ μ φ)

def reader (f : φ) : Bool := decide (B.cv f = B.notEmpty)

def writer (f : φ) : Bool := decide (B.cv f = B.notFull)

theorem reader_iff (f : φ) : B.reader f = true ↔ B.cv f = B.notEmpty := decide_eq_true_iff

theorem writer_iff (f : φ) : B.writer f = true ↔ B.cv f = B.notFull := decide_eq_true_iff

theorem eager_reader (f : φ) (hf : B.eager f = true) : B.reader f = true :=
  decide_eq_true (B.eager_cv f hf)

theorem writer_ne (f : φ) (hf : B.writer f = true) : B.cv f ≠ B.notEmpty := fun heq =>
  B.ne (heq.symm.trans (of_decide_eq_true hf))

theorem reader_ne (f : φ) (hf : B.reader f = true) : B.cv f ≠ B.notFull := fun heq =>
  B.ne ((of_decide_eq_true hf).symm.trans heq)

/-- The stretch `t` from `m` adds `k` elements. -/
structure Fills (m : μ) (t : Stretch κ μ φ ρ) (k : ℕ) : Prop where
  count_eq : B.count t.state = B.count m + k
  count_le : B.count t.state ≤ B.capacity
  announces : Announces B.notEmpty k t.notify
  wait : ∀ f, t.next = .wait f → B.cv f = B.notFull ∧ B.count t.state = B.capacity

/-- The stretch `t` from `m` takes `k` elements. -/
structure Takes (m : μ) (t : Stretch κ μ φ ρ) (k : ℕ) : Prop where
  count_eq : B.count t.state + k = B.count m
  announces : Announces B.notFull k t.notify
  wait : ∀ f, t.next = .wait f → B.cv f = B.notEmpty ∧
    (B.eager f = true → B.count t.state = 0) ∧ B.count t.state ≠ B.capacity

variable [Fintype ι]

structure BufferOk (m : μ) (u : ι → Status φ) : Prop where
  count_le : B.count m ≤ B.capacity
  readers : blocked B.eager u ≠ 0 → B.count m ≤ notified B.reader u
  writers : blocked B.writer u ≠ 0 → B.capacity - B.count m ≤ notified B.writer u
  /-- A full buffer has been announced to the readers that wait for more than one element, too. -/
  full : B.count m = B.capacity → blocked B.reader u ≠ 0 → notified B.reader u ≠ 0

variable {B} {m : μ} {u : ι → Status φ}

theorem bufferOk_idle (hm : B.count m = 0) : BufferOk B m (fun _ : ι => .idle) := by
  have hzero : ∀ p, blocked p (fun _ : ι => (.idle : Status φ)) = 0 := fun p =>
    tally_eq_zero_iff.mpr (fun _ => rfl)
  refine ⟨by omega, fun h => absurd (hzero _) h, fun h => absurd (hzero _) h, fun _ h => ?_⟩
  exact absurd (hzero _) h

/-! ## Rules for one stretch -/

section Rules

variable [DecidableEq ι] {t : Stretch κ μ φ ρ} {caller : Option ι} {r : Option ρ} {c' : Config ι μ φ}
  {k : ℕ}

/-- INTERNAL: a stretch that adds elements, once its caller has left its wait. -/
theorem Fills.keeps (h : Fills B m t k) (hfollows : Follows B.cv caller t u r c')
    (hidle : ∀ i, caller = some i → u i = .idle)
    (hreaders : blocked B.eager u ≠ 0 → B.count m ≤ notified B.reader u)
    (hwriters : blocked B.writer u ≠ 0 → B.capacity - (B.count m + k) ≤ notified B.writer u)
    (hfull : B.count m = B.capacity → blocked B.reader u ≠ 0 → notified B.reader u ≠ 0) :
    BufferOk B c'.state c'.status := by
  obtain ⟨u₁, hms, hstate, hend⟩ := hfollows.ends hidle
  have hcount := h.count_eq
  have hle := h.count_le
  have hreader := h.announces.tallies hms (p := B.reader) B.reader_iff
  have hwriter := h.announces.other hms (p := B.writer) B.writer_ne
  have hsum := (hms.releases.tallies B.reader)
  have heager := (hms.releases.tallies B.eager).1
  have hsub := blocked_mono B.eager_reader u₁
  have hu₁ : BufferOk B t.state u₁ := by
    refine ⟨hle, fun he => ?_, fun hw => ?_, fun hcap hr => ?_⟩
    · have := hreaders (by omega)
      omega
    · have := hwriters (by omega)
      omega
    · by_cases hk : k = 0
      · have := hfull (by omega) (by omega)
        omega
      · omega
  rw [hstate]
  rcases hend with heq | ⟨i, f, hnext, -, htallies⟩
  · rw [heq]
    exact hu₁
  · -- the caller waits for a place, so that the buffer is full
    obtain ⟨hcv, hcap⟩ := h.wait f hnext
    have hnotReader : B.reader f = false := decide_eq_false (fun heq => B.ne (heq.symm.trans hcv))
    have hnotEager : B.eager f = false := by
      by_contra hf
      exact B.ne ((B.eager_cv f (by simpa using hf)).symm.trans hcv)
    obtain ⟨hbe, -, -⟩ := htallies B.eager
    obtain ⟨hbr, hnr, -⟩ := htallies B.reader
    rw [hnotEager] at hbe
    rw [hnotReader] at hbr
    refine ⟨hle, fun he => ?_, fun hw => ?_, fun _ hr => ?_⟩
    · rw [hnr]
      exact hu₁.readers (by simpa [hbe] using he)
    · omega
    · rw [hnr]
      exact hu₁.full hcap (by simpa [hbr] using hr)

/-- INTERNAL: a stretch that takes elements, once its caller has left its wait. -/
theorem Takes.keeps (h : Takes B m t k) (hle : B.count m ≤ B.capacity)
    (hfollows : Follows B.cv caller t u r c') (hidle : ∀ i, caller = some i → u i = .idle)
    (hreaders : blocked B.eager u ≠ 0 → B.count m - k ≤ notified B.reader u)
    (hwriters : blocked B.writer u ≠ 0 → B.capacity - B.count m ≤ notified B.writer u)
    (hfull : k = 0 → B.count m = B.capacity → blocked B.reader u ≠ 0 → notified B.reader u ≠ 0) :
    BufferOk B c'.state c'.status := by
  obtain ⟨u₁, hms, hstate, hend⟩ := hfollows.ends hidle
  have hcount := h.count_eq
  have hwriter := h.announces.tallies hms (p := B.writer) B.writer_iff
  have hreader := h.announces.other hms (p := B.reader) B.reader_ne
  have heager := h.announces.other hms (p := B.eager) (fun f hf => B.reader_ne f (B.eager_reader f hf))
  have hsum := hms.releases.tallies B.writer
  have hu₁ : BufferOk B t.state u₁ := by
    refine ⟨by omega, fun he => ?_, fun hw => ?_, fun hcap hr => ?_⟩
    · have := hreaders (by omega)
      omega
    · have := hwriters (by omega)
      omega
    · have := hfull (by omega) (by omega) (by omega)
      omega
  rw [hstate]
  rcases hend with heq | ⟨i, f, hnext, -, htallies⟩
  · rw [heq]
    exact hu₁
  · -- the caller waits for an element
    obtain ⟨hcv, hempty, hcap⟩ := h.wait f hnext
    have hnotWriter : B.writer f = false := decide_eq_false (fun heq => B.ne (hcv.symm.trans heq))
    obtain ⟨hbe, -, -⟩ := htallies B.eager
    obtain ⟨hbw, hnw, -⟩ := htallies B.writer
    obtain ⟨-, hnr, -⟩ := htallies B.reader
    rw [hnotWriter] at hbw
    refine ⟨hu₁.count_le, fun he => ?_, fun hw => ?_, fun hc => absurd hc hcap⟩
    · by_cases hf : B.eager f = true
      · rw [hempty hf]
        exact Nat.zero_le _
      · rw [hnr]
        exact hu₁.readers (by simpa [hbe, hf] using he)
    · rw [hnw]
      exact hu₁.writers (by simpa [hbw] using hw)

namespace BufferOk

/-- A stretch whose caller was not waiting. -/
theorem follow (h : BufferOk B m u) (ht : (∃ k, Fills B m t k) ∨ ∃ k, Takes B m t k)
    (hfollows : Follows B.cv caller t u r c') (hidle : ∀ i, caller = some i → u i = .idle) :
    BufferOk B c'.state c'.status := by
  rcases ht with ⟨k, ht⟩ | ⟨k, ht⟩
  · refine ht.keeps hfollows hidle h.readers (fun hw => ?_) h.full
    have := h.writers hw
    omega
  · refine ht.keeps h.count_le hfollows hidle (fun hr => ?_) h.writers (fun _ => h.full)
    have := h.readers hr
    omega

theorem leave_expired (h : BufferOk B m u) {i : ι} {f : φ} (hi : u i = .expired f) :
    BufferOk B m (Function.update u i .idle) := by
  obtain ⟨hbe, -, -⟩ := tallies_leave_expired hi B.eager
  obtain ⟨hbr, hnr, -⟩ := tallies_leave_expired hi B.reader
  obtain ⟨hbw, hnw, -⟩ := tallies_leave_expired hi B.writer
  refine ⟨h.count_le, ?_, ?_, ?_⟩
  · rw [hbe, hnr]
    exact h.readers
  · rw [hbw, hnw]
    exact h.writers
  · rw [hbr, hnr]
    exact h.full

/-- A notified reader leaves its wait and takes no element: there have to be other notified readers
for the elements. -/
theorem leave_reader (h : BufferOk B m u) {i : ι} {f : φ} (hi : u i = .notified f)
    (hf : B.cv f = B.notEmpty)
    (hreaders : blocked B.eager u ≠ 0 → B.count m ≠ 0 → B.count m < notified B.reader u)
    (hfull : B.count m = B.capacity → blocked B.reader u ≠ 0 → 1 < notified B.reader u) :
    BufferOk B m (Function.update u i .idle) := by
  have hnotWriter : B.writer f = false := decide_eq_false (fun heq => B.ne (hf.symm.trans heq))
  have hreader : B.reader f = true := decide_eq_true hf
  obtain ⟨hbe, -, -⟩ := tallies_leave_notified hi B.eager
  obtain ⟨hbr, hnr, -⟩ := tallies_leave_notified hi B.reader
  obtain ⟨hbw, hnw, -⟩ := tallies_leave_notified hi B.writer
  simp only [hnotWriter, hreader, Bool.false_eq_true, ↓reduceIte, Nat.add_zero] at hnr hnw
  refine ⟨h.count_le, fun he => ?_, ?_, fun hc hr => ?_⟩
  · by_cases hzero : B.count m = 0
    · omega
    · have := hreaders (by omega) hzero
      omega
  · rw [hbw, hnw]
    exact h.writers
  · have := hfull hc (by omega)
    omega

/-- A notified writer adds an element, unless the buffer has become full again. -/
theorem resume_writer (h : BufferOk B m u) {i : ι} {f : φ} (hi : u i = .notified f)
    (hf : B.cv f = B.notFull) (ht : Fills B m t k) (hk : k ≠ 0 ∨ B.count m = B.capacity)
    (hfollows : Follows B.cv (some i) t (Function.update u i .idle) r c') :
    BufferOk B c'.state c'.status := by
  have hnotReader : B.reader f = false := decide_eq_false (fun heq => B.ne (heq.symm.trans hf))
  have hwriter : B.writer f = true := decide_eq_true hf
  obtain ⟨hbe, -, -⟩ := tallies_leave_notified hi B.eager
  obtain ⟨hbr, hnr, -⟩ := tallies_leave_notified hi B.reader
  obtain ⟨hbw, hnw, -⟩ := tallies_leave_notified hi B.writer
  simp only [hnotReader, hwriter, Bool.false_eq_true, ↓reduceIte, Nat.add_zero] at hnr hnw
  refine ht.keeps hfollows (fun j hj => ?_) ?_ (fun hw => ?_) ?_
  · obtain rfl := Option.some.inj hj
    exact Function.update_self _ _ _
  · rw [hbe, hnr]
    exact h.readers
  · have := h.writers (by omega)
    omega
  · rw [hbr, hnr]
    exact h.full

/-- A notified reader takes an element, unless the buffer has become empty again. -/
theorem resume_reader (h : BufferOk B m u) (hcap : 0 < B.capacity) {i : ι} {f : φ}
    (hi : u i = .notified f) (hf : B.cv f = B.notEmpty) (ht : Takes B m t k)
    (hk : k ≠ 0 ∨ B.count m = 0)
    (hfollows : Follows B.cv (some i) t (Function.update u i .idle) r c') :
    BufferOk B c'.state c'.status := by
  have hnotWriter : B.writer f = false := decide_eq_false (fun heq => B.ne (hf.symm.trans heq))
  have hreader : B.reader f = true := decide_eq_true hf
  obtain ⟨hbe, -, -⟩ := tallies_leave_notified hi B.eager
  obtain ⟨hbr, hnr, -⟩ := tallies_leave_notified hi B.reader
  obtain ⟨hbw, hnw, -⟩ := tallies_leave_notified hi B.writer
  simp only [hnotWriter, hreader, Bool.false_eq_true, ↓reduceIte, Nat.add_zero] at hnr hnw
  refine ht.keeps h.count_le hfollows (fun j hj => ?_) (fun hr => ?_) ?_ (fun hzero hfull _ => ?_)
  · obtain rfl := Option.some.inj hj
    exact Function.update_self _ _ _
  · have := h.readers (by omega)
    omega
  · rw [hbw, hnw]
    exact h.writers
  · omega

omit [DecidableEq ι] in
theorem expires (h : BufferOk B m u) {u' : ι → Status φ} (hu : Expires u u') : BufferOk B m u' := by
  obtain ⟨hbe, -, -⟩ := hu.tallies B.eager
  obtain ⟨hbr, hnr, -⟩ := hu.tallies B.reader
  obtain ⟨hbw, hnw, -⟩ := hu.tallies B.writer
  refine ⟨h.count_le, fun he => ?_, fun hw => ?_, fun hc hr => ?_⟩
  · rw [hnr]
    exact h.readers (by omega)
  · rw [hnw]
    exact h.writers (by omega)
  · rw [hnr]
    exact h.full hc (by omega)

omit [DecidableEq ι] in
/-- **No lost wakeup.**  With no task notified, an eager reader is blocked on an empty buffer only
and a writer on a full one only, and readers and writers are never blocked together. -/
theorem quiescent (h : BufferOk B m u) (hu : ∀ i f, u i ≠ .notified f) :
    (0 < B.count m → ∀ i f, u i = .blocked f → B.eager f = false) ∧
      (B.count m < B.capacity → ∀ i f, u i = .blocked f → B.cv f ≠ B.notFull) ∧
      ¬ ∃ i j f g, u i = .blocked f ∧ u j = .blocked g ∧ B.cv f = B.notEmpty ∧ B.cv g = B.notFull := by
  have hreader : notified B.reader u = 0 := notified_eq_zero hu
  have hwriter : notified B.writer u = 0 := notified_eq_zero hu
  have hwriters : ∀ j g, u j = .blocked g → B.cv g = B.notFull → B.count m = B.capacity := by
    intro j g hj hg
    have hpos := blocked_pos (p := B.writer) hj (decide_eq_true hg)
    have hle := h.count_le
    have := h.writers (by omega)
    omega
  refine ⟨fun hpos i f hi => ?_, fun hlt j g hj hg => ?_, fun hboth => ?_⟩
  · by_contra hf
    have hblocked := blocked_pos (p := B.eager) hi (by simpa using hf)
    have := h.readers (by omega)
    omega
  · have := hwriters j g hj hg
    omega
  · obtain ⟨i, j, f, g, hi, hj, hf, hg⟩ := hboth
    have hblocked := blocked_pos (p := B.reader) hi (decide_eq_true hf)
    exact h.full (hwriters j g hj hg) (by omega) hreader

end BufferOk

end Rules

end Buffer

end Mesa
