import Stk.Foundation.Runs

/-!
# Refinement of a deterministic automaton

An automaton answers each operation; an implementation answers operations in some of its steps.  The
implementation refines the automaton if the automaton, asked the same operations in the same order, gives the
same answers.
-/

set_option autoImplicit false

namespace Runs

variable {S E A O R : Type} {step : S → E → S}

/-- The operations of a run, with their answers. -/
def dialogue (step : S → E → S) (reply : S → E → Option (O × R)) : S → List E → List (O × R)
  | _, [] => []
  | s, e :: es => (reply s e).toList ++ dialogue step reply (step s e) es

/-- The automaton gives these answers from `a`. -/
def Answered (next : A → O → A × R) : A → List (O × R) → Prop
  | _, [] => True
  | a, (o, r) :: l => (next a o).2 = r ∧ Answered next (next a o).1 l

instance Answered.decidable [DecidableEq R] {next : A → O → A × R} :
    ∀ (a : A) (l : List (O × R)), Decidable (Answered next a l)
  | _, [] => .isTrue trivial
  | a, (o, r) :: l =>
    have : Decidable (Answered next (next a o).1 l) := Answered.decidable (next a o).1 l
    inferInstanceAs (Decidable ((next a o).2 = r ∧ Answered next (next a o).1 l))

/-- A step of the implementation, as the automaton sees it. -/
def Simulates (next : A → O → A × R) (rel : S → A → Prop) (s' : S) (a : A) : Option (O × R) → Prop
  | none => rel s' a
  | some (o, r) => (next a o).2 = r ∧ rel s' (next a o).1

/-- **The refinement rule.**  If every step that meets `P` is simulated, the automaton gives the answers of every
run whose steps meet `P`, and what relates the two holds in its last state. -/
theorem Along.answered {next : A → O → A × R} {reply : S → E → Option (O × R)} {rel : S → A → Prop}
    {P : S → E → Prop} (hstep : ∀ s a e, rel s a → P s e → Simulates next rel (step s e) a (reply s e))
    {s : S} {a : A} (hs : rel s a) {es : List E} (hes : Along step P s es) :
    Answered next a (dialogue step reply s es) ∧ ∃ a', rel (es.foldl step s) a' := by
  induction es generalizing s a with
  | nil => exact ⟨trivial, a, hs⟩
  | cons e es ih =>
    have hone := hstep s a e hs hes.1
    unfold dialogue
    cases hreply : reply s e with
    | none =>
      rw [hreply] at hone
      exact ih hone hes.2
    | some p =>
      rw [hreply] at hone
      obtain ⟨hanswers, hrel⟩ := ih hone.2 hes.2
      exact ⟨⟨hone.1, hanswers⟩, hrel⟩

end Runs
