import Stk.Analysis.MonitorSimulation
import Stk.Model.ReleaseWait

/-!
# The calls of a release build

Whatever has become of the lists, a task leaves its `Wait` inside the call that it made, with a signal or with a
timeout.  Every step of the system is a step of the monitor from some configuration that has the same calls
(`stepResult_framed`), so that what a class promises of its calls, whoever is woken, needs no assertion of the lists.
-/

set_option autoImplicit false

namespace Stk.Analysis

open Stk.Model

section Frames

variable {n : ℕ} {μ α φ ρ : Type} [Monitor μ α φ ρ] {s s' : ReleaseSystem n μ φ} {r : Option ρ} {i : Fin n}

/-- The event of the monitor. -/
def monitorEvent : ReleaseEvent n α → Mesa.Event (Fin n) α
  | .call i op => .call i op
  | .resume i => .resume i
  | .isr op => .isr op
  | .wakeTask _ | .onTick _ => .quiet

/-- The configuration has the calls of the system, in whatever part of their `Wait` they are. -/
structure Framed (s : ReleaseSystem n μ φ) (c : Mesa.Config (Fin n) μ φ) : Prop where
  state : c.state = s.state
  frame : ∀ j, (c.status j).frame = s.pending j

/-- INTERNAL: the calls, all of them free to leave their `Wait`. -/
def leaving (s : ReleaseSystem n μ φ) : Mesa.Config (Fin n) μ φ :=
  ⟨s.state, fun j => match s.pending j with
    | none => .idle
    | some f => if (s.waits.waitObj j).timeout then .expired f else .notified f⟩

omit [Monitor μ α φ ρ] in
theorem framed_leaving (s : ReleaseSystem n μ φ) : Framed s (leaving s) := by
  refine ⟨rfl, ?_⟩
  intro j
  unfold leaving
  dsimp only
  cases s.pending j with
  | none => rfl
  | some f =>
    dsimp only
    split
    · rfl
    · rfl

omit [Monitor μ α φ ρ] in
theorem leaving_not_blocked (s : ReleaseSystem n μ φ) (j : Fin n) (f : φ) : (leaving s).status j ≠ .blocked f := by
  unfold leaving
  dsimp only
  cases s.pending j with
  | none =>
    intro h
    cases h
  | some f =>
    dsimp only
    split
    · intro h
      cases h
    · intro h
      cases h

omit [Monitor μ α φ ρ] in
/-- INTERNAL: a notification changes nothing where no task is blocked. -/
theorem notifiesAlong_none {κ : Type} [DecidableEq κ] {cv : φ → κ} {u : Fin n → Mesa.Status φ}
    (hu : ∀ j f, u j ≠ .blocked f) (ms : List (Mesa.Notify κ)) : Mesa.NotifiesAlong cv ms u u := by
  induction ms with
  | nil => rfl
  | cons m ms ih =>
    refine ⟨u, ?_, ih⟩
    cases m with
    | one c => exact .inl ⟨rfl, fun j f hj => absurd hj (hu j f)⟩
    | all c =>
      funext j
      have hj := hu j
      unfold Mesa.Status.release
      split
      · next f heq => exact absurd heq (hj f)
      · rfl

omit [Monitor μ α φ ρ] in
/-- INTERNAL: a stretch that returns, where no task is blocked. -/
theorem follows_done {κ : Type} [DecidableEq κ] {cv : φ → κ} {caller : Option (Fin n)} {t : Mesa.Stretch κ μ φ ρ}
    {u : Fin n → Mesa.Status φ} {result : ρ} (hnext : t.next = .done result) (hu : ∀ j f, u j ≠ .blocked f) :
    Mesa.Follows cv caller t u (some result) ⟨t.state, u⟩ := by
  refine ⟨u, notifiesAlong_none hu t.notify, rfl, ?_⟩
  rw [hnext]
  exact ⟨rfl, rfl⟩

/-- INTERNAL: a stretch, where no task is blocked. -/
theorem follow_framed {t : Mesa.Stretch SyncId μ φ ρ} (h : s.follow i t = some (s', r))
    {u : Fin n → Mesa.Status φ} (hu : ∀ j f, u j ≠ .blocked f) (hi : u i = .idle)
    (hframe : ∀ j, j ≠ i → (u j).frame = s.pending j) :
    ∃ c', Mesa.Follows (Monitor.waitsFor μ) (some i) t u r c' ∧ Framed s' c' := by
  unfold ReleaseSystem.follow at h
  obtain ⟨k, -, h⟩ := Option.bind_eq_some_iff.mp h
  cases hnext : t.next with
  | done result =>
    rw [hnext] at h
    cases h
    refine ⟨⟨t.state, u⟩, follows_done hnext hu, rfl, ?_⟩
    intro j
    by_cases hj : j = i
    · subst hj
      simp [hi, Mesa.Status.frame]
    · simp [hj, hframe j hj]
  | wait f =>
    rw [hnext] at h
    obtain ⟨k', -, h⟩ := Option.map_eq_some_iff.mp h
    cases h
    refine ⟨⟨t.state, Function.update u i (.blocked f)⟩, ⟨u, notifiesAlong_none hu t.notify, rfl, ?_⟩, rfl, ?_⟩
    · rw [hnext]
      exact ⟨rfl, rfl⟩
    · intro j
      by_cases hj : j = i
      · subst hj
        simp [Mesa.Status.frame]
      · simp [hj, hframe j hj]

/-- **The release build, without its lists.**  Every step is one of the monitor from some configuration with the same
calls, or leaves the object and the calls alone. -/
theorem stepResult_framed {e : ReleaseEvent n α} (h : s.stepResult e = some (s', r)) :
    (s'.state = s.state ∧ s'.pending = s.pending ∧ r = none) ∨
      ∃ c c', Framed s c ∧ Framed s' c' ∧ Mesa.Step (program μ) c (monitorEvent e) r c' := by
  cases e with
  | call i op =>
    simp only [ReleaseSystem.stepResult] at h
    split at h
    · next hnone =>
      have hidle : (leaving s).status i = .idle := by
        unfold leaving
        dsimp only
        rw [hnone]
      obtain ⟨c', hfollows, hframed⟩ := follow_framed h (leaving_not_blocked s) hidle
        (fun j _ => (framed_leaving s).frame j)
      exact .inr ⟨_, c', framed_leaving s, hframed, hidle, _, ⟨_, rfl⟩, hfollows⟩
    · cases h
      exact .inl ⟨rfl, rfl, rfl⟩
  | resume i =>
    simp only [ReleaseSystem.stepResult] at h
    split at h
    · cases h
      exact .inl ⟨rfl, rfl, rfl⟩
    · next f hf =>
      split at h
      · cases h
        exact .inl ⟨rfl, rfl, rfl⟩
      · right
        have hstatus : (leaving s).status i = if (s.waits.waitObj i).timeout then .expired f else .notified f := by
          unfold leaving
          dsimp only
          rw [hf]
        have hleft : ∀ j f, Function.update (leaving s).status i .idle j ≠ .blocked f := by
          intro j f'
          by_cases hj : j = i
          · subst hj
            rw [Function.update_self]
            intro hblocked
            cases hblocked
          · rw [Function.update_of_ne hj]
            exact leaving_not_blocked s j f'
        have hframe : ∀ j, j ≠ i → (Function.update (leaving s).status i .idle j).frame = s.pending j := by
          intro j hj
          rw [Function.update_of_ne hj]
          exact (framed_leaving s).frame j
        obtain ⟨c', hfollows, hframed⟩ := follow_framed h hleft (Function.update_self _ _ _) hframe
        refine ⟨_, c', framed_leaving s, hframed, f, !(s.waits.waitObj i).timeout, _, ?_,
          ⟨s.waits.ticks, ?_⟩, hfollows⟩
        · rw [hstatus]
          cases (s.waits.waitObj i).timeout with
          | true => rfl
          | false => rfl
        · cases (s.waits.waitObj i).timeout with
          | true => rfl
          | false => rfl
  | isr op =>
    simp only [ReleaseSystem.stepResult] at h
    split at h
    · next result hnext =>
      obtain ⟨k, -, h⟩ := Option.map_eq_some_iff.mp h
      cases h
      exact .inr ⟨leaving s, ⟨_, (leaving s).status⟩, framed_leaving s, ⟨rfl, (framed_leaving s).frame⟩, _, ⟨_, rfl⟩,
        follows_done hnext (leaving_not_blocked s)⟩
    · cases h
      exact .inl ⟨rfl, rfl, rfl⟩
  | wakeTask i =>
    cases h
    exact .inl ⟨rfl, rfl, rfl⟩
  | onTick elapsed =>
    obtain ⟨k, -, h⟩ := Option.map_eq_some_iff.mp h
    cases h
    exact .inl ⟨rfl, rfl, rfl⟩

end Frames

end Stk.Analysis
