import Mathlib.Logic.Relation

/-! Runs of a labelled step relation whose steps satisfy a condition. -/

namespace Reach

variable {σ Λ : Type}

/-- A step that satisfies the condition `ok`. -/
def Move (step : σ → Λ → σ → Prop) (ok : σ → Λ → Prop) (s s' : σ) : Prop :=
  ∃ label, step s label s' ∧ ok s label

abbrev Run (step : σ → Λ → σ → Prop) (ok : σ → Λ → Prop) : σ → σ → Prop :=
  Relation.ReflTransGen (Move step ok)

/-- What each such step keeps holds along every run. -/
theorem Run.inv {step : σ → Λ → σ → Prop} {ok : σ → Λ → Prop} {s s' : σ} (run : Run step ok s s')
    {Inv : σ → Prop} (start : Inv s)
    (keeps : ∀ s label s', step s label s' → ok s label → Inv s → Inv s') : Inv s' := by
  induction run with
  | refl => exact start
  | tail _ move ih =>
    obtain ⟨label, step, ok⟩ := move
    exact keeps _ label _ step ok ih

end Reach
