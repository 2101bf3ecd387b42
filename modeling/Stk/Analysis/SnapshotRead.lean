import Stk.Model.Volatile64

/-!
# What a 64-bit read returns

A value is current from the store of its high half on until the next value is completely stored.
`Observed` keeps beside the memory the value last completely stored and, for each reader, the values
that have been current since its read began.  A read returns the high half of the value whose store
was begun last and the low half of the one completed last when the low half was loaded.  It is whole
if these two values share a half, and torn otherwise unless a third value was current meanwhile.
-/

set_option autoImplicit false

namespace Stk.Analysis

open Stk.Model

theorem joinWords_halves (value : BitVec 64) : joinWords (hiWord value) (loWord value) = value := by
  unfold joinWords hiWord loWord
  apply BitVec.eq_of_getLsbD_eq
  intro i hi
  simp only [BitVec.getLsbD_or, BitVec.getLsbD_shiftLeft, BitVec.getLsbD_setWidth, BitVec.getLsbD_ushiftRight]
  by_cases hlow : i < 32
  · simp [hlow, hi]
  · have hsum : 32 + (i - 32) = i := by omega
    have hrest : i - 32 < 32 := by omega
    simp [hlow, hi, hsum, hrest]
    omega

theorem hiWord_joinWords (hi lo : BitVec 32) : hiWord (joinWords hi lo) = hi := by
  unfold joinWords hiWord
  apply BitVec.eq_of_getLsbD_eq
  intro i hi'
  have hlow : ¬ 32 + i < 32 := by omega
  have hsub : 32 + i - 32 = i := by omega
  have hlt : 32 + i < 64 := by omega
  simp only [BitVec.getLsbD_or, BitVec.getLsbD_shiftLeft, BitVec.getLsbD_setWidth, BitVec.getLsbD_ushiftRight]
  simp [hlow, hsub, hlt, hi']
  omega

theorem loWord_joinWords (hi lo : BitVec 32) : loWord (joinWords hi lo) = lo := by
  unfold joinWords loWord
  apply BitVec.eq_of_getLsbD_eq
  intro i hi'
  have hlt : i < 64 := by omega
  simp only [BitVec.getLsbD_or, BitVec.getLsbD_shiftLeft, BitVec.getLsbD_setWidth]
  simp [hi', hlt]

variable {ρ : Type} [DecidableEq ρ]

/-- The memory with what an observer of all accesses knows: the value last completely stored, the
values current since the read of `r` began, the value last completely stored when `r` loaded the low
half, and of each read that has returned the result and the values current during it. -/
structure Observed (ρ : Type) where
  mem : Volatile64 ρ
  value : BitVec 64
  seen : ρ → List (BitVec 64)
  atLo : ρ → BitVec 64
  returned : List (BitVec 64 × List (BitVec 64))

namespace Observed

omit [DecidableEq ρ] in
def holding (value : BitVec 64) : Observed ρ := ⟨.holding value, value, fun _ => [], fun _ => value, []⟩

/-- The value whose store was begun last. -/
def begun (h : Observed ρ) : BitVec 64 := h.mem.writing.getD h.value

/-- The values current at the moment: the one last completely stored, and the one being stored. -/
def current (h : Observed ρ) : List (BitVec 64) := h.value :: h.mem.writing.toList

def step (h : Observed ρ) (a : HalfAccess ρ) : Observed ρ :=
  let h' : Observed ρ := { h with mem := h.mem.step a }
  match a with
  | .storeHi value =>
    if h.mem.writing = none then { h' with seen := fun r => h.seen r ++ [value] } else h'
  | .storeLo => { h' with value := h.begun }
  | .loadHi r => if h.mem.reading r = .idle then { h' with seen := Function.update h.seen r h.current } else h'
  | .loadLo r =>
    match h.mem.reading r with
    | .hiLoaded _ => { h' with atLo := Function.update h.atLo r h.value }
    | _ => h'
  | .recheck r =>
    match h.mem.returns (.recheck r) with
    | some value => { h' with returned := h.returned ++ [(value, h.seen r)] }
    | none => h'

/-- Before the access that ends a read: the value whose store was begun last and the value that was
completely stored last when the low half was loaded share a half.  So it is if no other value was stored
meanwhile, or only values with the same high half. -/
def Agrees (h : Observed ρ) : HalfAccess ρ → Prop
  | .recheck r => h.mem.returns (.recheck r) ≠ none →
    hiWord h.begun = hiWord (h.atLo r) ∨ loWord h.begun = loWord (h.atLo r)
  | _ => True

instance decidableAgrees (h : Observed ρ) : ∀ a : HalfAccess ρ, Decidable (h.Agrees a)
  | .recheck r => inferInstanceAs (Decidable (h.mem.returns (.recheck r) ≠ none →
      hiWord h.begun = hiWord (h.atLo r) ∨ loWord h.begun = loWord (h.atLo r)))
  | .storeHi _ | .storeLo | .loadHi _ | .loadLo _ => .isTrue trivial

/-- The memory holds the halves of the values begun and completed last; a reader has seen both, and
the low half it has loaded is that of a value it has seen. -/
structure Faithful (h : Observed ρ) : Prop where
  hi : h.mem.hi = hiWord h.begun
  lo : h.mem.lo = loWord h.value
  value : ∀ r, h.mem.reading r ≠ .idle → h.value ∈ h.seen r
  begun : ∀ r, h.mem.reading r ≠ .idle → h.begun ∈ h.seen r
  loaded : ∀ r hi lo, h.mem.reading r = .loLoaded hi lo → lo = loWord (h.atLo r) ∧ h.atLo r ∈ h.seen r

omit [DecidableEq ρ] in
theorem faithful_holding (value : BitVec 64) : (holding value : Observed ρ).Faithful where
  hi := rfl
  lo := rfl
  value _ hr := absurd rfl hr
  begun _ hr := absurd rfl hr
  loaded _ _ _ hr := nomatch hr

/-- INTERNAL: only reader `r` moves, and it has seen what is current. -/
theorem Faithful.reader {h h' : Observed ρ} (hf : h.Faithful) (r : ρ) (hhi : h'.mem.hi = h.mem.hi)
    (hlo : h'.mem.lo = h.mem.lo) (hwriting : h'.mem.writing = h.mem.writing) (hvalue : h'.value = h.value)
    (hother : ∀ r', r' ≠ r → h'.mem.reading r' = h.mem.reading r' ∧ h'.seen r' = h.seen r' ∧
      h'.atLo r' = h.atLo r')
    (hseen : h'.mem.reading r ≠ .idle → h.value ∈ h'.seen r ∧ h.begun ∈ h'.seen r)
    (hloaded : ∀ hi lo, h'.mem.reading r = .loLoaded hi lo → lo = loWord (h'.atLo r) ∧ h'.atLo r ∈ h'.seen r) :
    h'.Faithful := by
  have hbegun : h'.begun = h.begun := by
    unfold Observed.begun
    rw [hwriting, hvalue]
  refine ⟨?_, ?_, fun r' hr' => ?_, fun r' hr' => ?_, fun r' hi lo hr' => ?_⟩
  · rw [hhi, hbegun]
    exact hf.hi
  · rw [hlo, hvalue]
    exact hf.lo
  all_goals by_cases heq : r' = r
  · subst heq
    rw [hvalue]
    exact (hseen hr').1
  · obtain ⟨hread, hsame, -⟩ := hother r' heq
    rw [hread] at hr'
    rw [hvalue, hsame]
    exact hf.value r' hr'
  · subst heq
    rw [hbegun]
    exact (hseen hr').2
  · obtain ⟨hread, hsame, -⟩ := hother r' heq
    rw [hread] at hr'
    rw [hbegun, hsame]
    exact hf.begun r' hr'
  · subst heq
    exact hloaded hi lo hr'
  · obtain ⟨hread, hsame, hat⟩ := hother r' heq
    rw [hread] at hr'
    rw [hsame, hat]
    exact hf.loaded r' hi lo hr'

theorem Faithful.step {h : Observed ρ} (hf : h.Faithful) (a : HalfAccess ρ) : (h.step a).Faithful := by
  cases a with
  | storeHi value =>
    cases hwriting : h.mem.writing with
    | some old =>
      have hidle : h.step (.storeHi value) = h := by
        simp [Observed.step, Volatile64.step, hwriting]
      rw [hidle]
      exact hf
    | none =>
      have hstep : h.step (.storeHi value) = { h with
          mem := { h.mem with hi := hiWord value, writing := some value }
          seen := fun r => h.seen r ++ [value] } := by
        simp [Observed.step, Volatile64.step, hwriting]
      rw [hstep]
      refine ⟨rfl, hf.lo, fun r hr => ?_, fun r _ => ?_, fun r hi lo hr => ?_⟩
      · exact List.mem_append_left _ (hf.value r hr)
      · exact List.mem_append_right _ (List.mem_singleton.mpr rfl)
      · obtain ⟨hlo, hmem⟩ := hf.loaded r hi lo hr
        exact ⟨hlo, List.mem_append_left _ hmem⟩
  | storeLo =>
    cases hwriting : h.mem.writing with
    | none =>
      have hidle : h.step .storeLo = h := by
        simp [Observed.step, Volatile64.step, hwriting, Observed.begun]
      rw [hidle]
      exact hf
    | some value =>
      have hbegun : h.begun = value := by simp [Observed.begun, hwriting]
      have hstep : h.step .storeLo = { h with
          mem := { h.mem with lo := loWord value, writing := none }
          value := value } := by
        simp [Observed.step, Volatile64.step, hwriting, hbegun]
      rw [hstep]
      refine ⟨hbegun ▸ hf.hi, rfl, fun r hr => ?_, fun r hr => ?_, hf.loaded⟩
      · exact hbegun ▸ hf.begun r hr
      · exact hbegun ▸ hf.begun r hr
  | loadHi r =>
    have hcurrent : h.value ∈ h.current ∧ h.begun ∈ h.current := by
      unfold Observed.current Observed.begun
      cases h.mem.writing <;> simp
    cases hread : h.mem.reading r with
    | idle =>
      have hstep : h.step (.loadHi r) = { h with
          mem := { h.mem with reading := Function.update h.mem.reading r (.hiLoaded h.mem.hi) }
          seen := Function.update h.seen r h.current } := by
        simp [Observed.step, Volatile64.step, hread]
      rw [hstep]
      refine hf.reader r rfl rfl rfl rfl (fun r' hr' => by simp [hr']) (fun _ => ?_) (fun hi lo hlo => ?_)
      · simpa using hcurrent
      · simp at hlo
    | retry =>
      have hactive : h.mem.reading r ≠ .idle := by
        rw [hread]
        decide
      have hstep : h.step (.loadHi r) = { h with
          mem := { h.mem with reading := Function.update h.mem.reading r (.hiLoaded h.mem.hi) } } := by
        simp [Observed.step, Volatile64.step, hread]
      rw [hstep]
      refine hf.reader r rfl rfl rfl rfl (fun r' hr' => by simp [hr']) (fun _ => ?_) (fun hi lo hlo => ?_)
      · exact ⟨hf.value r hactive, hf.begun r hactive⟩
      · simp at hlo
    | hiLoaded _ | loLoaded _ _ =>
      have hidle : h.step (.loadHi r) = h := by
        simp [Observed.step, Volatile64.step, hread]
      rw [hidle]
      exact hf
  | loadLo r =>
    cases hread : h.mem.reading r with
    | hiLoaded hi =>
      have hactive : h.mem.reading r ≠ .idle := by
        rw [hread]
        intro heq
        contradiction
      have hstep : h.step (.loadLo r) = { h with
          mem := { h.mem with reading := Function.update h.mem.reading r (.loLoaded hi h.mem.lo) }
          atLo := Function.update h.atLo r h.value } := by
        simp [Observed.step, Volatile64.step, hread]
      rw [hstep]
      refine hf.reader r rfl rfl rfl rfl (fun r' hr' => by simp [hr']) (fun _ => ?_) (fun hi' lo hlo => ?_)
      · exact ⟨hf.value r hactive, hf.begun r hactive⟩
      · simp only [Function.update_self, ReadPhase.loLoaded.injEq] at hlo ⊢
        exact ⟨hlo.2.symm.trans hf.lo, hf.value r hactive⟩
    | idle | retry | loLoaded _ _ =>
      have hidle : h.step (.loadLo r) = h := by
        simp [Observed.step, Volatile64.step, hread]
      rw [hidle]
      exact hf
  | recheck r =>
    cases hread : h.mem.reading r with
    | loLoaded hi lo =>
      have hactive : h.mem.reading r ≠ .idle := by
        rw [hread]
        intro heq
        contradiction
      have hseen := And.intro (hf.value r hactive) (hf.begun r hactive)
      by_cases hchanged : hi ≠ h.mem.hi
      · have hstep : h.step (.recheck r) = { h with
            mem := { h.mem with reading := Function.update h.mem.reading r .retry } } := by
          simp [Observed.step, Volatile64.step, Volatile64.returns, hread, hchanged]
        rw [hstep]
        exact hf.reader r rfl rfl rfl rfl (fun r' hr' => by simp [hr']) (fun _ => hseen) (fun hi' lo' hlo => by simp at hlo)
      · have hsame := not_not.mp hchanged
        have hstep : h.step (.recheck r) = { h with
            mem := { h.mem with reading := Function.update h.mem.reading r .idle }
            returned := h.returned ++ [(joinWords hi lo, h.seen r)] } := by
          simp [Observed.step, Volatile64.step, Volatile64.returns, hread, hsame]
        rw [hstep]
        exact hf.reader r rfl rfl rfl rfl (fun r' hr' => by simp [hr']) (fun _ => hseen) (fun hi' lo' hlo => by simp at hlo)
    | idle | retry | hiLoaded _ =>
      have hidle : h.step (.recheck r) = h := by
        simp [Observed.step, Volatile64.step, Volatile64.returns, hread]
      rw [hidle]
      exact hf

omit [DecidableEq ρ] in
/-- INTERNAL: the phase of a read that ends. -/
theorem loLoaded_of_returns {h : Observed ρ} {r : ρ} {result : BitVec 64}
    (hresult : h.mem.returns (.recheck r) = some result) : ∃ hi lo, h.mem.reading r = .loLoaded hi lo := by
  cases hread : h.mem.reading r with
  | loLoaded hi lo => exact ⟨hi, lo, rfl⟩
  | idle | retry | hiLoaded _ => simp [Volatile64.returns, hread] at hresult

omit [DecidableEq ρ] in
/-- INTERNAL: the result of a read. -/
theorem Faithful.returns {h : Observed ρ} (hf : h.Faithful) {r : ρ} {result : BitVec 64}
    (hresult : h.mem.returns (.recheck r) = some result) :
    result = joinWords (hiWord h.begun) (loWord (h.atLo r)) := by
  obtain ⟨hi, lo, hread⟩ := loLoaded_of_returns hresult
  simp only [Volatile64.returns, hread] at hresult
  split at hresult
  · cases hresult
  · next hsame =>
    obtain rfl := Option.some.inj hresult
    rw [not_not.mp hsame, hf.hi, (hf.loaded r hi lo hread).1]

omit [DecidableEq ρ] in
/-- INTERNAL: a read whose two values share a half returns one of them. -/
theorem Faithful.mem_seen {h : Observed ρ} (hf : h.Faithful) {r : ρ} {result : BitVec 64}
    (hresult : h.mem.returns (.recheck r) = some result) (hagrees : h.Agrees (.recheck r)) : result ∈ h.seen r := by
  have hwords := hf.returns hresult
  obtain ⟨hi, lo, hread⟩ := loLoaded_of_returns hresult
  have hactive : h.mem.reading r ≠ .idle := by
    rw [hread]
    intro heq
    contradiction
  have hsome : h.mem.returns (.recheck r) ≠ none := by
    rw [hresult]
    exact Option.some_ne_none result
  rcases hagrees hsome with hhi | hlo
  · rw [hhi, joinWords_halves] at hwords
    rw [hwords]
    exact (hf.loaded r hi lo hread).2
  · rw [← hlo, joinWords_halves] at hwords
    rw [hwords]
    exact hf.begun r hactive

omit [DecidableEq ρ] in
/-- INTERNAL: a read of two values that share no half returns neither. -/
theorem Faithful.agrees {h : Observed ρ} (hf : h.Faithful) {r : ρ} {result : BitVec 64}
    (hresult : h.mem.returns (.recheck r) = some result)
    (htwo : ∀ v ∈ h.seen r, v = h.begun ∨ v = h.atLo r) (hmem : result ∈ h.seen r) : h.Agrees (.recheck r) := by
  intro _
  have hwords := hf.returns hresult
  have hhi : hiWord result = hiWord h.begun := by rw [hwords, hiWord_joinWords]
  have hlo : loWord result = loWord (h.atLo r) := by rw [hwords, loWord_joinWords]
  rcases htwo result hmem with hbegun | hat
  · rw [hbegun] at hlo
    exact .inr hlo
  · rw [hat] at hhi
    exact .inl hhi.symm

/-- The memory after a run, as observed. -/
def run (value : BitVec 64) (as : List (HalfAccess ρ)) : Observed ρ := as.foldl step (holding value)

/-- INTERNAL: by induction on the run. -/
theorem Faithful.run {h : Observed ρ} (hf : h.Faithful) (as : List (HalfAccess ρ)) :
    (as.foldl Observed.step h).Faithful := by
  induction as generalizing h with
  | nil => exact hf
  | cons a as ih => exact ih (hf.step a)

/-- INTERNAL: one access, and the results so far. -/
theorem Faithful.returned_step {h : Observed ρ} (hf : h.Faithful) {a : HalfAccess ρ} (hagrees : h.Agrees a)
    (hall : ∀ read ∈ h.returned, read.1 ∈ read.2) : ∀ read ∈ (h.step a).returned, read.1 ∈ read.2 := by
  cases a with
  | recheck r =>
    cases hresult : h.mem.returns (.recheck r) with
    | none =>
      have hquiet : (h.step (.recheck r)).returned = h.returned := by simp [Observed.step, hresult]
      rw [hquiet]
      exact hall
    | some result =>
      have hlog : (h.step (.recheck r)).returned = h.returned ++ [(result, h.seen r)] := by
        simp [Observed.step, hresult]
      rw [hlog, List.forall_mem_append]
      exact ⟨hall, by simpa using hf.mem_seen hresult hagrees⟩
  | storeHi value =>
    have hquiet : (h.step (.storeHi value)).returned = h.returned := by
      simp only [Observed.step]
      split <;> rfl
    rw [hquiet]
    exact hall
  | storeLo => exact hall
  | loadHi r =>
    have hquiet : (h.step (.loadHi r)).returned = h.returned := by
      simp only [Observed.step]
      split <;> rfl
    rw [hquiet]
    exact hall
  | loadLo r =>
    have hquiet : (h.step (.loadLo r)).returned = h.returned := by
      simp only [Observed.step]
      split <;> rfl
    rw [hquiet]
    exact hall

end Observed

/-- **Snapshots of a 64-bit value.**  In a run of one writer and any number of readers every read returns
a value that was current during the read, if at each comparison that ends a read the value begun last and
the one that was completed last when the low half was loaded share a half.  A read during which no third
value was current returns such a value only then. -/
theorem run_snapshot (value : BitVec 64) (as : List (HalfAccess ρ)) :
    (Runs.Along Observed.step Observed.Agrees (Observed.holding value) as →
      ∀ read ∈ (Observed.run value as).returned, read.1 ∈ read.2) ∧
    ∀ (r : ρ) (result : BitVec 64), (Observed.run value as).mem.returns (.recheck r) = some result →
      (∀ v ∈ (Observed.run value as).seen r,
        v = (Observed.run value as).begun ∨ v = (Observed.run value as).atLo r) →
      (result ∈ (Observed.run value as).seen r ↔ (Observed.run value as).Agrees (.recheck r)) := by
  constructor
  · intro has
    have hinv := has.invariant
      (I := fun h : Observed ρ => h.Faithful ∧ ∀ read ∈ h.returned, read.1 ∈ read.2)
      (fun h a hh ha => ⟨hh.1.step a, hh.1.returned_step ha hh.2⟩)
      ⟨Observed.faithful_holding value, fun read hread => by cases hread⟩
    exact hinv.2
  · intro r result hresult htwo
    have hf : (Observed.run value as).Faithful := (Observed.faithful_holding value).run as
    exact ⟨hf.agrees hresult htwo, hf.mem_seen hresult⟩

section Runs

/-- The writer counts from `0xFFFFFFFE` to `0xFFFFFFFF`, and one read falls between its stores. -/
def countUp : List (HalfAccess Unit) :=
  [.storeHi 0xFFFFFFFF, .loadHi (), .loadLo (), .recheck (), .storeLo]

theorem countUp_whole : ∀ read ∈ (Observed.run 0xFFFFFFFE countUp).returned, read.1 ∈ read.2 :=
  (run_snapshot 0xFFFFFFFE countUp).1 (by decide)

/-- The writer counts from `0xFFFFFFFF` to `0x100000000`, and one read falls between its stores. -/
def carry : List (HalfAccess Unit) :=
  [.storeHi 0x100000000, .loadHi (), .loadLo (), .recheck (), .storeLo]

theorem carry_torn : ∃ read ∈ (Observed.run 0xFFFFFFFF carry).returned, read.1 ∉ read.2 ∧
    read = (0x1FFFFFFFF, [0xFFFFFFFF, 0x100000000]) := by
  decide

end Runs

end Stk.Analysis
