import Mathlib.Data.List.Basic
import Mathlib.Data.List.Induction
import Mathlib.Order.Bounds.Basic
import Mathlib.Order.MinMax

/-!
# Runs of a state machine

A machine is a step function `step : S → E → S`; a run is the fold of `step` over a list
of events.  `Along step P s es` says that every step of the run from `s` meets the
condition `P` on the state before the step and on its event.
-/

set_option autoImplicit false

namespace Runs

variable {S E : Type} {step : S → E → S}

/-- Every step of the run of `es` from `s` meets `P`. -/
def Along (step : S → E → S) (P : S → E → Prop) : S → List E → Prop
  | _, [] => True
  | s, e :: es => P s e ∧ Along step P (step s e) es

instance Along.decidable {P : S → E → Prop} [∀ s e, Decidable (P s e)] :
    ∀ (s : S) (es : List E), Decidable (Along step P s es)
  | _, [] => .isTrue trivial
  | s, e :: es =>
    have := Along.decidable (P := P) (step s e) es
    inferInstanceAs (Decidable (P s e ∧ Along step P (step s e) es))

@[simp] theorem along_nil {P : S → E → Prop} {s : S} : Along step P s [] := trivial

@[simp] theorem along_cons {P : S → E → Prop} {s : S} {e : E} {es : List E} :
    Along step P s (e :: es) ↔ P s e ∧ Along step P (step s e) es := Iff.rfl

theorem along_append {P : S → E → Prop} {s : S} {es fs : List E} :
    Along step P s (es ++ fs) ↔ Along step P s es ∧ Along step P (es.foldl step s) fs := by
  induction es generalizing s with
  | nil => simp
  | cons e es ih => simp [ih, and_assoc]

/-- The steps of a run are the ends of its prefixes. -/
theorem along_iff_prefix {P : S → E → Prop} {s : S} {es : List E} :
    Along step P s es ↔ ∀ ds e, ds ++ [e] <+: es → P (ds.foldl step s) e := by
  constructor
  · rintro h ds e ⟨rest, rfl⟩
    rw [along_append, along_append] at h
    exact h.1.2.1
  · intro h
    induction es generalizing s with
    | nil => trivial
    | cons e es ih =>
      refine ⟨h [] e (List.cons_prefix_cons.mpr ⟨rfl, List.nil_prefix⟩), ih fun ds e' hds => ?_⟩
      exact h (e :: ds) e' (List.cons_prefix_cons.mpr ⟨rfl, hds⟩)

theorem Along.mono {P Q : S → E → Prop} (hPQ : ∀ s e, P s e → Q s e) {s : S} {es : List E}
    (h : Along step P s es) : Along step Q s es := by
  induction es generalizing s with
  | nil => trivial
  | cons e es ih => exact ⟨hPQ s e h.1, ih h.2⟩

theorem Along.and {P Q : S → E → Prop} {s : S} {es : List E} (h : Along step P s es)
    (h' : Along step Q s es) : Along step (fun s e => P s e ∧ Q s e) s es := by
  induction es generalizing s with
  | nil => trivial
  | cons e es ih => exact ⟨⟨h.1, h'.1⟩, ih h.2 h'.2⟩

theorem along_of_forall {P : S → E → Prop} (hP : ∀ s e, P s e) (s : S) (es : List E) : Along step P s es := by
  induction es generalizing s with
  | nil => trivial
  | cons e es ih => exact ⟨hP s e, ih (step s e)⟩

/-- What holds of every event of a run, in whatever state it comes. -/
theorem along_of_mem {Q : E → Prop} {es : List E} (h : ∀ e ∈ es, Q e) (s : S) :
    Along step (fun _ e => Q e) s es := by
  induction es generalizing s with
  | nil => trivial
  | cons e es ih =>
    rw [List.forall_mem_cons] at h
    exact ⟨h.1, ih h.2 (step s e)⟩

/-- **The invariant rule.**  What holds at first and is kept by every step that meets `P`
holds after every run whose steps meet `P`. -/
theorem Along.invariant {P : S → E → Prop} {I : S → Prop} {s : S} {es : List E}
    (hstep : ∀ s e, I s → P s e → I (step s e)) (hs : I s) (h : Along step P s es) :
    I (es.foldl step s) := by
  induction es generalizing s with
  | nil => exact hs
  | cons e es ih => exact ih (hstep s e hs h.1) h.2

/-- **The invariant rule, for what holds of each step.** -/
theorem Along.along {P Q : S → E → Prop} {I : S → Prop} {s : S} {es : List E}
    (hstep : ∀ s e, I s → P s e → I (step s e) ∧ Q s e) (hs : I s) (h : Along step P s es) : Along step Q s es := by
  induction es generalizing s with
  | nil => trivial
  | cons e es ih =>
    obtain ⟨hnext, hQ⟩ := hstep s e hs h.1
    exact ⟨hQ, ih hnext h.2⟩

/-- **The watermark rule.**  A mark that each step lowers to the level it reaches is the least level of the
states passed. -/
theorem Along.isLeast {P : S → E → Prop} {I : S → Prop} (level low : S → ℕ)
    (hI : ∀ s e, I s → P s e → I (step s e))
    (hstep : ∀ s e, I s → P s e → low (step s e) = min (level (step s e)) (low s)) {s : S} (hs : I s)
    (hlow : low s = level s) {es : List E} (h : Along step P s es) :
    IsLeast {a | ∃ ds, ds <+: es ∧ level (ds.foldl step s) = a} (low (es.foldl step s)) := by
  induction es using List.reverseRecOn with
  | nil =>
    constructor
    · exact ⟨[], List.prefix_refl [], hlow.symm⟩
    · rintro a ⟨ds, hds, rfl⟩
      rw [List.prefix_nil.mp hds]
      exact hlow.le
  | append_singleton es e ih =>
    rw [along_append] at h
    obtain ⟨hattained, hleast⟩ := ih h.1
    have hone := hstep _ e (h.1.invariant hI hs) h.2.1
    rw [List.foldl_append, List.foldl_cons, List.foldl_nil, hone]
    constructor
    · rcases min_choice (level (step (es.foldl step s) e)) (low (es.foldl step s)) with hmin | hmin
      · rw [hmin]
        exact ⟨es ++ [e], List.prefix_refl _, by simp⟩
      · rw [hmin]
        obtain ⟨ds, hds, hlevel⟩ := hattained
        exact ⟨ds, hds.trans (List.prefix_append es [e]), hlevel⟩
    · rintro a ⟨ds, hds, rfl⟩
      rcases List.prefix_concat_iff.mp hds with hall | hbefore
      · apply (min_le_left _ _).trans
        simp [hall]
      · exact (min_le_right _ _).trans (hleast ⟨ds, hbefore, rfl⟩)

/-- What each step of a run contributes, summed up. -/
def total (step : S → E → S) (f : S → E → ℕ) : S → List E → ℕ
  | _, [] => 0
  | s, e :: es => f s e + total step f (step s e) es

@[simp] theorem total_nil {f : S → E → ℕ} {s : S} : total step f s [] = 0 := rfl

theorem total_append {f : S → E → ℕ} (s : S) (es fs : List E) :
    total step f s (es ++ fs) = total step f s es + total step f (es.foldl step s) fs := by
  induction es generalizing s with
  | nil => exact (Nat.zero_add _).symm
  | cons e es ih =>
    rw [List.cons_append, List.foldl_cons, total, total, ih, Nat.add_assoc]

theorem total_add (f h : S → E → ℕ) (s : S) (es : List E) :
    total step (fun s e => f s e + h s e) s es = total step f s es + total step h s es := by
  induction es generalizing s with
  | nil => exact rfl
  | cons e es ih =>
    simp only [total, ih]
    omega

/-- **The accounting rule.**  A measure that each step raises by no more than `h`, with `f` taken from
it, pays for the whole run. -/
theorem total_le {f h : S → E → ℕ} {g : S → ℕ} {I : S → Prop} (hI : ∀ s e, I s → I (step s e))
    (hstep : ∀ s e, I s → g (step s e) + f s e ≤ g s + h s e) {s : S} (hs : I s) (es : List E) :
    g (es.foldl step s) + total step f s es ≤ g s + total step h s es := by
  induction es generalizing s with
  | nil => exact Nat.le_refl _
  | cons e es ih =>
    have hone := hstep s e hs
    have hrest := ih (hI s e hs)
    simp only [List.foldl_cons, total]
    omega

/-- The accounting rule with equality, for runs whose steps meet `P`. -/
theorem Along.total_eq {P : S → E → Prop} {f h : S → E → ℕ} {g : S → ℕ} {I : S → Prop}
    (hI : ∀ s e, I s → P s e → I (step s e))
    (hstep : ∀ s e, I s → P s e → g (step s e) + f s e = g s + h s e) {s : S} (hs : I s) {es : List E}
    (hes : Along step P s es) : g (es.foldl step s) + total step f s es = g s + total step h s es := by
  induction es generalizing s with
  | nil => exact rfl
  | cons e es ih =>
    have hone := hstep s e hs hes.1
    have hrest := ih (hI s e hs hes.1) hes.2
    simp only [List.foldl_cons, total]
    omega

/-- A run that contributes no more in each step contributes no more in all. -/
theorem total_mono {f h : S → E → ℕ} (hfh : ∀ s e, f s e ≤ h s e) (s : S) (es : List E) :
    total step f s es ≤ total step h s es := by
  induction es generalizing s with
  | nil => exact Nat.le_refl _
  | cons e es ih => exact Nat.add_le_add (hfh s e) (ih (step s e))

/-- What an observer sees of a run. -/
def observed {X : Type} (step : S → E → S) (obs : S → E → Option X) : S → List E → List X
  | _, [] => []
  | s, e :: es => (obs s e).toList ++ observed step obs (step s e) es

@[simp] theorem observed_nil {X : Type} {obs : S → E → Option X} {s : S} : observed step obs s [] = [] := rfl

theorem observed_cons_none {X : Type} {obs : S → E → Option X} {s : S} {e : E} (es : List E) (h : obs s e = none) :
    observed step obs s (e :: es) = observed step obs (step s e) es := by
  rw [observed, h]
  rfl

theorem observed_cons_some {X : Type} {obs : S → E → Option X} {s : S} {e : E} {x : X} (es : List E)
    (h : obs s e = some x) : observed step obs s (e :: es) = x :: observed step obs (step s e) es := by
  rw [observed, h]
  rfl

/-- **The rule for what flows through.**  What each step lets in joins the end of `l`, and what it lets out
leaves its front. -/
theorem Along.flows {X : Type} {P : S → E → Prop} {R : S → List X → Prop} {enters leaves : S → E → Option X}
    (hstep : ∀ s e l, R s l → P s e →
      ∃ l', R (step s e) l' ∧ l ++ (enters s e).toList = (leaves s e).toList ++ l')
    {s : S} {es : List E} {l : List X} (hs : R s l) (h : Along step P s es) :
    ∃ l', R (es.foldl step s) l' ∧ l ++ observed step enters s es = observed step leaves s es ++ l' := by
  induction es generalizing s l with
  | nil => exact ⟨l, hs, List.append_nil l⟩
  | cons e es ih =>
    obtain ⟨l₁, hnext, hone⟩ := hstep s e l hs h.1
    obtain ⟨l', hend, hrest⟩ := ih hnext h.2
    refine ⟨l', hend, ?_⟩
    simp only [observed]
    rw [← List.append_assoc, hone, List.append_assoc, hrest, List.append_assoc]

/-- The rule for what flows through in any order: what each step lets in joins the bag, and what it lets out leaves it. -/
theorem observed_perm {X : Type} {enters leaves : S → E → Option X} {bag : S → List X}
    (hstep : ∀ s e, (bag s ++ (enters s e).toList).Perm ((leaves s e).toList ++ bag (step s e)))
    (s : S) (es : List E) :
    (bag s ++ observed step enters s es).Perm (observed step leaves s es ++ bag (es.foldl step s)) := by
  induction es generalizing s with
  | nil => exact .of_eq (List.append_nil _)
  | cons e es ih =>
    simp only [observed, List.foldl_cons]
    have hone := (hstep s e).append_right (observed step enters (step s e) es)
    have hrest := (ih (step s e)).append_left (leaves s e).toList
    simp only [List.append_assoc] at hone hrest ⊢
    exact hone.trans hrest

/-- The fold over a list keeps what each of its members keeps. -/
theorem foldl_keeps {A B : Type} {f : B → A → B} {I : B → Prop} {l : List A} {b : B}
    (hf : ∀ b, ∀ a ∈ l, I b → I (f b a)) (hb : I b) : I (l.foldl f b) := by
  induction l generalizing b with
  | nil => exact hb
  | cons a l ih =>
    exact ih (fun b c hc => hf b c (List.mem_cons_of_mem a hc)) (hf b a List.mem_cons_self hb)

end Runs
