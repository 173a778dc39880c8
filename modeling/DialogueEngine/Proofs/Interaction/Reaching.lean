import DialogueEngine.Proofs.Interaction.Guarantee

/-!
Where an interaction may come to. What is required of an interaction, whatever it is answered, holds
wherever it asks and where it ends.
-/

namespace DialogueEngine

namespace Interaction

variable {σ Q : Type} {A : Q → Type} {α β : Type}

/-- What is left of an interaction once some of its questions are answered, whatever the answers are
and whatever states they come with. -/
inductive Reaches : Interaction σ Q A α → Interaction σ Q A α → Prop
  | here (x : Interaction σ Q A α) : Reaches x x
  | answered {s : σ} {q : Q} {resume : A q → σ → Interaction σ Q A α} (answer : A q) (s' : σ)
      {y : Interaction σ Q A α} (later : Reaches (resume answer s') y) :
      Reaches (.ask s q resume) y

/-- A computation that is followed by another asks a question of its own, or ends first. -/
theorem Reaches.of_andThen {next : α → σ → Interaction σ Q A β} {s : σ} {q : Q}
    {resume : A q → σ → Interaction σ Q A β} {x : Interaction σ Q A α}
    (reaches : (x.andThen next).Reaches (.ask s q resume)) :
    (∃ own, x.Reaches (.ask s q own) ∧ resume = fun answer s => (own answer s).andThen next) ∨
      ∃ s' a, x.Reaches (.done s' a) ∧ (next a s').Reaches (.ask s q resume) := by
  induction x with
  | done s' a => exact .inr ⟨s', a, .here _, reaches⟩
  | ask s₁ q₁ resume₁ ih =>
    cases reaches with
    | here => exact .inl ⟨resume₁, .here _, rfl⟩
    | answered answer s' later =>
      rcases ih answer s' later with ⟨own, asks, same⟩ | ⟨s'', a, ends, asks⟩
      · exact .inl ⟨own, .answered answer s' asks, same⟩
      · exact .inr ⟨s'', a, .answered answer s' ends, asks⟩

/-- What is left meets what is required as well. -/
theorem Reaches.meets {asks : Q → Prop} {post : α → σ → Prop} {x y : Interaction σ Q A α}
    (reaches : x.Reaches y) (meets : x.Meets (fun _ => True) asks post) :
    y.Meets (fun _ => True) asks post := by
  induction reaches with
  | here x => exact meets
  | answered answer s' later ih => exact ih (meets.2.2 answer s' trivial)

end Interaction

namespace Activity

open Interaction (Reaches)

variable {σ Q : Type} {A : Q → Type} {α β : Type} {asks : Q → Prop}

/-- A question that the first computation does not ask is asked once it has ended. -/
theorem reaches_bind {mid : α → σ → Prop} {x : Activity σ Q A α} {f : α → Activity σ Q A β}
    {s s₁ : σ} {q : Q} {resume : A q → σ → Interaction σ Q A β}
    (first : (x s).Meets (fun _ => True) asks mid) (other : ¬ asks q)
    (reaches : ((x >>= f) s).Reaches (.ask s₁ q resume)) :
    ∃ a s', mid a s' ∧ (f a s').Reaches (.ask s₁ q resume) := by
  rcases reaches.of_andThen with ⟨own, asked, -⟩ | ⟨s', a, ended, later⟩
  · exact absurd (asked.meets first).2.1 other
  · exact ⟨a, s', ended.meets first, later⟩

end Activity

end DialogueEngine
