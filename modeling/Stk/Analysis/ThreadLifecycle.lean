import Stk.Analysis.MonitorSimulation
import Stk.Analysis.ParkedTask
import Stk.Model.CmsisJoin

/-!
# The stations of a joinable thread

`Lifecycle` lists the states that a thread, its joiner and its control block go through as long as nobody joins
or detaches the thread at the wrong moment: a join of a thread that has exited marks it joined again and waits
for an `OnExit` that has run already, `OnExit` takes the mark of a detached thread away, and a detachment
between the exit and the return of the joiner destroys the block under it.
-/

set_option autoImplicit false

namespace Stk.Analysis

open Stk.Model

variable {n : ℕ}

/-- The monitor of a thread. -/
abbrev ThreadConfig (n : ℕ) := Mesa.Config (Fin n) StkThread ThreadFrame

/-- Nobody is inside `osThreadJoin`. -/
def NoJoiner (u : Fin n → Mesa.Status ThreadFrame) : Prop := ∀ i, u i = .idle

/-- The task in slot `i` alone is inside `osThreadJoin`. -/
structure OneJoiner (u : Fin n → Mesa.Status ThreadFrame) (i : Fin n) : Prop where
  inside : u i ≠ .idle
  only : ∀ j, j ≠ i → u j = .idle

/-- An `osThreadJoin` of another thread has returned. -/
def HasReturned (rs : List ThreadReturn) : Prop := .osThreadJoin .osOK ∈ rs ∨ .osThreadJoin .osError ∈ rs

/-- How many calls have succeeded. -/
def joinsOk (rs : List ThreadReturn) : ℕ := rs.count (.osThreadJoin .osOK)

def detachesOk (rs : List ThreadReturn) : ℕ := rs.count (.osThreadDetach .osOK)

/-- The stations; the flag says whether `OnExit` has run. -/
inductive Lifecycle (rs : List ThreadReturn) : ThreadConfig n → Bool → Prop
  | running {u : Fin n → Mesa.Status ThreadFrame} (hidle : NoJoiner u) (hreturned : ¬HasReturned rs)
      (hdetached : detachesOk rs = 0) : Lifecycle rs ⟨⟨.joinable, 0⟩, u⟩ false
  | awaited {u : Fin n → Mesa.Status ThreadFrame} {i : Fin n} (hone : OneJoiner u i) (hjoined : joinsOk rs = 0)
      (hdetached : detachesOk rs = 0) : Lifecycle rs ⟨⟨.joined, 0⟩, u⟩ false
  | detached {u : Fin n → Mesa.Status ThreadFrame} (hidle : NoJoiner u) (hjoined : joinsOk rs = 0)
      (hdetached : detachesOk rs = 1) : Lifecycle rs ⟨⟨.detached, 0⟩, u⟩ false
  | exited {u : Fin n → Mesa.Status ThreadFrame} (hidle : NoJoiner u) (hreturned : ¬HasReturned rs)
      (hdetached : detachesOk rs = 0) : Lifecycle rs ⟨⟨.exited, 0⟩, u⟩ true
  | leaving {u : Fin n → Mesa.Status ThreadFrame} {i : Fin n} (hone : OneJoiner u i)
      (hreleased : ∀ f, u i ≠ .blocked f) (hjoined : joinsOk rs = 0) (hdetached : detachesOk rs = 0) :
      Lifecycle rs ⟨⟨.exited, 0⟩, u⟩ true
  | collected {u : Fin n → Mesa.Status ThreadFrame} (hidle : NoJoiner u) (hjoined : joinsOk rs = 1)
      (hdetached : detachesOk rs = 0) : Lifecycle rs ⟨⟨.exited, 1⟩, u⟩ true
  | disposed {u : Fin n → Mesa.Status ThreadFrame} (hidle : NoJoiner u) (hjoined : joinsOk rs = 0)
      (hdetached : detachesOk rs = 1) : Lifecycle rs ⟨⟨.detached, 1⟩, u⟩ true

variable {c c' : ThreadConfig n} {u u' : Fin n → Mesa.Status ThreadFrame} {i : Fin n} {r : Option ThreadReturn}
  {rs : List ThreadReturn} {exited : Bool}

/-! ## The returns -/

theorem joinsOk_append (rs rs' : List ThreadReturn) : joinsOk (rs ++ rs') = joinsOk rs + joinsOk rs' :=
  List.count_append

theorem detachesOk_append (rs rs' : List ThreadReturn) :
    detachesOk (rs ++ rs') = detachesOk rs + detachesOk rs' :=
  List.count_append

theorem hasReturned_append (rs : List ThreadReturn) (x : ThreadReturn) :
    HasReturned (rs ++ [x]) ↔ HasReturned rs ∨ x = .osThreadJoin .osOK ∨ x = .osThreadJoin .osError := by
  unfold HasReturned
  simp only [List.mem_append, List.mem_singleton]
  constructor
  · rintro ((h | h) | (h | h))
    · exact .inl (.inl h)
    · exact .inr (.inl h.symm)
    · exact .inl (.inr h)
    · exact .inr (.inr h.symm)
  · rintro ((h | h) | (h | h))
    · exact .inl (.inl h)
    · exact .inr (.inl h)
    · exact .inl (.inr h.symm)
    · exact .inr (.inr h.symm)

theorem joinsOk_of_not_hasReturned (h : ¬HasReturned rs) : joinsOk rs = 0 :=
  List.count_eq_zero.mpr fun hmem => h (.inl hmem)

/-- INTERNAL: a return that no station looks at. -/
theorem Lifecycle.returns {rs' : List ThreadReturn} (h : Lifecycle rs c exited) (hjoins : joinsOk rs' = joinsOk rs)
    (hdetaches : detachesOk rs' = detachesOk rs) (hreturned : HasReturned rs' → HasReturned rs) :
    Lifecycle rs' c exited := by
  cases h with
  | running hidle hret hd => exact .running hidle (fun h => hret (hreturned h)) (hdetaches.trans hd)
  | awaited hone hj hd => exact .awaited hone (hjoins.trans hj) (hdetaches.trans hd)
  | detached hidle hj hd => exact .detached hidle (hjoins.trans hj) (hdetaches.trans hd)
  | exited hidle hret hd => exact .exited hidle (fun h => hret (hreturned h)) (hdetaches.trans hd)
  | leaving hone hrel hj hd => exact .leaving hone hrel (hjoins.trans hj) (hdetaches.trans hd)
  | collected hidle hj hd => exact .collected hidle (hjoins.trans hj) (hdetaches.trans hd)
  | disposed hidle hj hd => exact .disposed hidle (hjoins.trans hj) (hdetaches.trans hd)

/-- INTERNAL: an unsuccessful return, but for a join of a thread that nobody has joined or detached. -/
theorem Lifecycle.refused (h : Lifecycle rs c exited) {x : ThreadReturn}
    (hx : x ≠ .osThreadJoin .osOK ∧ x ≠ .osThreadDetach .osOK)
    (hjoin : x = .osThreadJoin .osError → c.state.joinState = .joined ∨ c.state.joinState = .detached) :
    Lifecycle (rs ++ [x]) c exited := by
  have hj : joinsOk (rs ++ [x]) = joinsOk rs := by
    rw [joinsOk_append]
    simp [joinsOk, hx.1]
  have hd : detachesOk (rs ++ [x]) = detachesOk rs := by
    rw [detachesOk_append]
    simp [detachesOk, hx.2]
  by_cases herror : x = .osThreadJoin .osError
  · have hstate := hjoin herror
    cases h with
    | running => rcases hstate with h | h <;> cases h
    | awaited hone hj' hd' => exact .awaited hone (hj.trans hj') (hd.trans hd')
    | detached hidle hj' hd' => exact .detached hidle (hj.trans hj') (hd.trans hd')
    | exited => rcases hstate with h | h <;> cases h
    | leaving => rcases hstate with h | h <;> cases h
    | collected => rcases hstate with h | h <;> cases h
    | disposed hidle hj' hd' => exact .disposed hidle (hj.trans hj') (hd.trans hd')
  · refine h.returns hj hd fun hret => ?_
    rcases (hasReturned_append rs x).mp hret with hold | hok | herr
    · exact hold
    · exact absurd hok hx.1
    · exact absurd herr herror

/-! ## What the stations promise -/

theorem Lifecycle.joins_le (h : Lifecycle rs c exited) : joinsOk rs ≤ 1 := by
  cases h with
  | running _ hret _ => exact (joinsOk_of_not_hasReturned hret).le.trans (Nat.zero_le 1)
  | exited _ hret _ => exact (joinsOk_of_not_hasReturned hret).le.trans (Nat.zero_le 1)
  | awaited _ hj _ => omega
  | detached _ hj _ => omega
  | leaving _ _ hj _ => omega
  | collected _ hj _ => omega
  | disposed _ hj _ => omega

theorem Lifecycle.not_blocked (h : Lifecycle rs c true) (i : Fin n) (f : ThreadFrame) : c.status i ≠ .blocked f := by
  have hidle : ∀ {v : Fin n → Mesa.Status ThreadFrame}, NoJoiner v → v i ≠ .blocked f := by
    intro v hno hi
    rw [hno i] at hi
    cases hi
  cases h with
  | exited hno _ _ => exact hidle hno
  | collected hno _ _ => exact hidle hno
  | disposed hno _ _ => exact hidle hno
  | @leaving v j hone hrel _ _ =>
    intro hi
    by_cases hij : i = j
    · subst hij
      exact hrel f hi
    · have hidle := hone.only i hij
      rw [show v i = .blocked f from hi] at hidle
      cases hidle

theorem Lifecycle.one_ok (h : Lifecycle rs c true) (hdetached : detachesOk rs = 0) (hreturned : HasReturned rs)
    (hno : NoJoiner c.status) : joinsOk rs = 1 := by
  cases h with
  | exited _ hret _ => exact absurd hreturned hret
  | leaving hone _ _ _ => exact absurd (hno _) hone.inside
  | collected _ hj _ => exact hj
  | disposed _ _ hd =>
    rw [hd] at hdetached
    cases hdetached

theorem Lifecycle.destroyed_eq (h : Lifecycle rs c exited) :
    c.state.destroyed = if exited then joinsOk rs + detachesOk rs else 0 := by
  cases h with
  | running _ _ _ => rfl
  | awaited _ _ _ => rfl
  | detached _ _ _ => rfl
  | exited _ hret hd => rw [if_pos rfl, joinsOk_of_not_hasReturned hret, hd]
  | leaving _ _ hj hd => rw [if_pos rfl, hj, hd]
  | collected _ hj hd => rw [if_pos rfl, hj, hd]
  | disposed _ hj hd => rw [if_pos rfl, hj, hd]

theorem Lifecycle.destroyed_le (h : Lifecycle rs c exited) : c.state.destroyed ≤ 1 := by
  cases h with
  | collected _ _ _ => exact Nat.le_refl 1
  | disposed _ _ _ => exact Nat.le_refl 1
  | _ => exact Nat.zero_le 1

theorem Lifecycle.noJoiner (h : Lifecycle rs c exited) (hdestroyed : c.state.destroyed ≠ 0) : NoJoiner c.status := by
  cases h with
  | collected hno _ _ => exact hno
  | disposed hno _ _ => exact hno
  | _ => exact absurd rfl hdestroyed

/-! ## The steps of the monitor -/

/-- INTERNAL: a method that returns without a notification. -/
theorem follows_returns {caller : Option (Fin n)} {m : StkThread} {x : ThreadReturn}
    (h : Mesa.Follows (fun _ : ThreadFrame => joinCv) caller ⟨m, [], .done x⟩ u r c') :
    r = some x ∧ c' = ⟨m, u⟩ := by
  obtain ⟨u₁, rfl, hr, hc⟩ := h.done
  exact ⟨hr, hc⟩

/-- A detachment, not between the exit and the return of the joiner. -/
theorem Lifecycle.osThreadDetach (h : Lifecycle rs c exited) (hlive : c.state.destroyed = 0)
    (hidle : c.state.joinState = .exited → NoJoiner c.status)
    (hstep : Mesa.Follows (fun _ : ThreadFrame => joinCv) (some i) c.state.osThreadDetach c.status r c') :
    Lifecycle (rs ++ r.toList) c' exited := by
  have hok : ∀ {rs : List ThreadReturn}, joinsOk (rs ++ [.osThreadDetach .osOK]) = joinsOk rs ∧
      detachesOk (rs ++ [.osThreadDetach .osOK]) = detachesOk rs + 1 := by
    intro rs
    rw [joinsOk_append, detachesOk_append]
    exact ⟨rfl, rfl⟩
  unfold StkThread.osThreadDetach at hstep
  cases h with
  | running hno hret hd =>
    obtain ⟨rfl, rfl⟩ := follows_returns hstep
    refine .detached hno ?_ ?_
    · exact hok.1.trans (joinsOk_of_not_hasReturned hret)
    · rw [Option.toList_some, hok.2, hd]
  | awaited hone hj hd =>
    obtain ⟨rfl, rfl⟩ := follows_returns hstep
    exact (Lifecycle.awaited hone hj hd).refused ⟨nofun, nofun⟩ nofun
  | detached hno hj hd =>
    obtain ⟨rfl, rfl⟩ := follows_returns hstep
    exact (Lifecycle.detached hno hj hd).refused ⟨nofun, nofun⟩ nofun
  | exited hno hret hd =>
    obtain ⟨rfl, rfl⟩ := follows_returns hstep
    refine .disposed hno ?_ ?_
    · exact hok.1.trans (joinsOk_of_not_hasReturned hret)
    · rw [Option.toList_some, hok.2, hd]
  | leaving hone _ _ _ => exact absurd (hidle rfl _) hone.inside
  | collected => cases hlive
  | disposed => cases hlive

/-- A join of a thread that has not exited. -/
theorem Lifecycle.osThreadJoin (h : Lifecycle rs c exited) (hlive : c.state.destroyed = 0)
    (hnot : c.state.joinState ≠ .exited) (hi : c.status i = .idle)
    (hstep : Mesa.Follows (fun _ : ThreadFrame => joinCv) (some i) c.state.osThreadJoin c.status r c') :
    Lifecycle (rs ++ r.toList) c' exited := by
  unfold StkThread.osThreadJoin at hstep
  cases h with
  | running hno hret hd =>
    -- the caller is the joiner
    obtain ⟨j, hj, rfl, rfl⟩ := hstep.wait
    obtain rfl := Option.some.inj hj
    rw [Option.toList_none, List.append_nil]
    refine .awaited (i := i) ⟨?_, fun j hj => ?_⟩ (joinsOk_of_not_hasReturned hret) hd
    · rw [Function.update_self]
      nofun
    · rw [Function.update_of_ne hj]
      exact hno j
  | awaited hone hj hd =>
    obtain ⟨rfl, rfl⟩ := follows_returns hstep
    exact (Lifecycle.awaited hone hj hd).refused ⟨nofun, nofun⟩ fun _ => .inl rfl
  | detached hno hj hd =>
    obtain ⟨rfl, rfl⟩ := follows_returns hstep
    exact (Lifecycle.detached hno hj hd).refused ⟨nofun, nofun⟩ fun _ => .inr rfl
  | exited => exact absurd rfl hnot
  | leaving => exact absurd rfl hnot
  | collected => exact absurd rfl hnot
  | disposed => cases hlive

/-- The joiner after its wait. -/
theorem Lifecycle.joinFrom (h : Lifecycle rs c exited) (hi : c.status i ≠ .idle)
    (hstep : Mesa.Follows (fun _ : ThreadFrame => joinCv) (some i) c.state.joinFrom
      (Function.update c.status i .idle) r c') : Lifecycle (rs ++ r.toList) c' exited := by
  have hleft : ∀ {j : Fin n}, OneJoiner c.status j → NoJoiner (Function.update c.status i .idle) := by
    intro j hone k
    by_cases hk : k = i
    · rw [hk, Function.update_self]
    · rw [Function.update_of_ne hk]
      refine hone.only k fun hkj => hi (hone.only i fun hij => hk (hkj.trans hij.symm))
  unfold StkThread.joinFrom at hstep
  cases h with
  | running hno _ _ => exact absurd (hno i) hi
  | awaited hone hj hd =>
    -- a wait that has expired is entered again
    obtain ⟨j, hj', rfl, rfl⟩ := hstep.wait
    obtain rfl := Option.some.inj hj'
    rw [Option.toList_none, List.append_nil]
    refine .awaited (i := i) ⟨?_, fun k hk => ?_⟩ hj hd
    · rw [Function.update_self]
      nofun
    · rw [Function.update_of_ne hk]
      exact hleft hone k
  | detached hno _ _ => exact absurd (hno i) hi
  | exited hno _ _ => exact absurd (hno i) hi
  | leaving hone _ hj hd =>
    obtain ⟨rfl, rfl⟩ := follows_returns hstep
    refine .collected (hleft hone) ?_ ?_
    · rw [Option.toList_some, joinsOk_append, hj]
      rfl
    · rw [Option.toList_some, detachesOk_append, hd]
      rfl
  | collected hno _ _ => exact absurd (hno i) hi
  | disposed hno _ _ => exact absurd (hno i) hi

/-- `OnExit`, of a thread that is not detached. -/
theorem Lifecycle.onExit (h : Lifecycle rs c false) (hnot : c.state.joinState ≠ .detached)
    (hstep : Mesa.Follows (fun _ : ThreadFrame => joinCv) none c.state.onExit c.status r c') :
    Lifecycle rs c' true := by
  unfold StkThread.onExit at hstep
  obtain ⟨u₁, ⟨u₂, hall, rfl⟩, rfl, rfl⟩ := hstep.done
  have hall' : u₁ = fun i => (c.status i).release (fun _ : ThreadFrame => joinCv) joinCv := hall
  have hidle : ∀ j, c.status j = .idle → u₁ j = .idle := by
    intro j hj
    rw [hall']
    dsimp only
    rw [hj]
    rfl
  cases h with
  | running hno hret hd => exact .exited (fun j => hidle j (hno j)) hret hd
  | awaited hone hj hd =>
    refine .leaving ⟨?_, fun k hk => hidle k (hone.only k hk)⟩ ?_ hj hd
    · intro hi
      refine hone.inside ?_
      rw [hall'] at hi
      dsimp only at hi
      revert hi
      unfold Mesa.Status.release
      split
      · rw [if_pos rfl]
        nofun
      · exact id
    · intro f hi
      rw [hall'] at hi
      dsimp only at hi
      revert hi
      unfold Mesa.Status.release
      split
      · rw [if_pos rfl]
        nofun
      · next hnb =>
        intro hi
        exact hnb f hi
  | detached => exact absurd rfl hnot

/-- INTERNAL: a wait that expires. -/
theorem Lifecycle.expires (h : Lifecycle rs c exited) (hstep : Mesa.Expires c.status u') :
    Lifecycle rs ⟨c.state, u'⟩ exited := by
  have hidle : ∀ j, c.status j = .idle → u' j = .idle := by
    intro j hj
    rcases hstep j with hsame | ⟨f, hf, -⟩
    · rw [hsame]
      exact hj
    · rw [hj] at hf
      cases hf
  have hone : ∀ {j : Fin n}, OneJoiner c.status j → OneJoiner u' j := by
    intro j hone
    refine ⟨fun hj => hone.inside ?_, fun k hk => hidle k (hone.only k hk)⟩
    rcases hstep j with hsame | ⟨f, -, hf⟩
    · rw [← hsame]
      exact hj
    · rw [hj] at hf
      cases hf
  cases h with
  | running hno hret hd => exact .running (fun j => hidle j (hno j)) hret hd
  | awaited hj hjo hd => exact .awaited (hone hj) hjo hd
  | detached hno hj hd => exact .detached (fun j => hidle j (hno j)) hj hd
  | exited hno hret hd => exact .exited (fun j => hidle j (hno j)) hret hd
  | @leaving _ i hj hrel hjo hd =>
    refine .leaving (hone hj) (fun f hf => ?_) hjo hd
    rcases hstep i with hsame | ⟨g, -, hg⟩
    · rw [hsame] at hf
      exact hrel f hf
    · rw [hg] at hf
      cases hf
  | collected hno hj hd => exact .collected (fun j => hidle j (hno j)) hj hd
  | disposed hno hj hd => exact .disposed (fun j => hidle j (hno j)) hj hd

end Stk.Analysis
