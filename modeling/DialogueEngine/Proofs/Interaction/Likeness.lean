import DialogueEngine.Engine.Interaction

/-!
Interactions that cannot be told apart. Two interactions are alike if they ask questions that are
alike, and go on alike when both get one answer; wherever they give their states away these are
related, and so are the values in the end.
-/

namespace DialogueEngine

namespace Interaction

variable {σ Q : Type} {A : Q → Type} {α β γ δ : Type}

/-- Both end, or both ask; the answers that both get are one, though the questions need not be. -/
inductive Alike (keeps : σ → σ → Prop) (asks : Q → Q → Prop) (ends : α → β → Prop) :
    Interaction σ Q A α → Interaction σ Q A β → Prop
  | done {s s' : σ} {a : α} {b : β} (same : keeps s s') (agree : ends a b) :
      Alike keeps asks ends (.done s a) (.done s' b)
  | ask {s s' : σ} {q q' : Q} {resume : A q → σ → Interaction σ Q A α}
      {resume' : A q' → σ → Interaction σ Q A β} (same : keeps s s') (asked : asks q q')
      (goesOn : ∀ answer answer', HEq answer answer' → ∀ t t', keeps t t' →
        Alike keeps asks ends (resume answer t) (resume' answer' t')) :
      Alike keeps asks ends (.ask s q resume) (.ask s' q' resume')

variable {keeps : σ → σ → Prop} {asks : Q → Q → Prop}

theorem Alike.andThen {mid : α → β → Prop} {ends : γ → δ → Prop} {x : Interaction σ Q A α}
    {y : Interaction σ Q A β} {f : α → σ → Interaction σ Q A γ} {g : β → σ → Interaction σ Q A δ}
    (first : Alike keeps asks mid x y)
    (later : ∀ a b, mid a b → ∀ s s', keeps s s' → Alike keeps asks ends (f a s) (g b s')) :
    Alike keeps asks ends (x.andThen f) (y.andThen g) := by
  induction first with
  | done same agree => exact later _ _ agree _ _ same
  | ask same asked _ ih => exact .ask same asked ih

end Interaction

namespace Activity

variable {σ Q : Type} {A : Q → Type} {α β γ δ : Type} {keeps : σ → σ → Prop} {asks : Q → Q → Prop}

/-- Two activities are alike from states that are related. -/
def Alike (keeps : σ → σ → Prop) (asks : Q → Q → Prop) (ends : α → β → Prop)
    (x : Activity σ Q A α) (y : Activity σ Q A β) : Prop :=
  ∀ s s', keeps s s' → Interaction.Alike keeps asks ends (x s) (y s')

namespace Alike

variable {mid : α → β → Prop} {ends : γ → δ → Prop}

theorem pure {a : α} {b : β} (agree : mid a b) :
    Alike (A := A) keeps asks mid (Pure.pure a) (Pure.pure b) :=
  fun _ _ same => .done same agree

theorem bind {x : Activity σ Q A α} {y : Activity σ Q A β} {f : α → Activity σ Q A γ}
    {g : β → Activity σ Q A δ} (first : Alike keeps asks mid x y)
    (later : ∀ a b, mid a b → Alike keeps asks ends (f a) (g b)) :
    Alike keeps asks ends (x >>= f) (y >>= g) :=
  fun s s' same => (first s s' same).andThen later

end Alike

end Activity

end DialogueEngine
