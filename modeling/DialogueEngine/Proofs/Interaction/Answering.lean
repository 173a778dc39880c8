import DialogueEngine.Proofs.Interaction.Stretches

/-!
Interactions that somebody answers. The one who answers has a memory of his own and may change the
shared state; what an interaction guarantees to others holds of what it comes to, provided that the
answers keep to what it relies on.
-/

namespace DialogueEngine

namespace Interaction

variable {σ Q ω : Type} {A : Q → Type} {α β : Type}

theorem answered_andThen (answer : (q : Q) → σ → ω → A q × σ × ω)
    (next : α → σ → Interaction σ Q A β) (x : Interaction σ Q A α) (w : ω) :
    (x.andThen next).answered answer w =
      (next (x.answered answer w).1 (x.answered answer w).2.1).answered answer
        (x.answered answer w).2.2 := by
  induction x generalizing w with
  | done s a => rfl
  | ask s q resume ih => exact ih _ _ _

/-- Where the answers keep to what is relied on, and they and the stretches in between keep an
invariant, what is promised for the end holds there. -/
theorem Abides.answered {rely guar : σ → σ → Prop} {asks : σ → Q → Prop}
    {post : σ → α → σ → Prop} {inv : σ → Prop} {since : σ} {x : Interaction σ Q A α}
    (abides : x.Abides rely guar asks post since) (holds : inv since)
    (kept : ∀ s s', guar s s' → inv s → inv s') {answer : (q : Q) → σ → ω → A q × σ × ω}
    (answers : ∀ q s w, inv s → rely s (answer q s w).2.1 ∧ inv (answer q s w).2.1) (w : ω) :
    ∃ since', inv since' ∧ post since' (x.answered answer w).1 (x.answered answer w).2.1 := by
  induction x generalizing since w with
  | done s a => exact ⟨since, holds, abides⟩
  | ask s q resume ih =>
    obtain ⟨changed, -, goesOn⟩ := abides
    obtain ⟨relied, still⟩ := answers q s w (kept since s changed holds)
    exact ih _ _ (goesOn _ _ relied) still _

end Interaction

namespace Activity

variable {σ Q ω : Type} {A : Q → Type} {α β : Type}

theorem answered_bind (answer : (q : Q) → σ → ω → A q × σ × ω) (x : Activity σ Q A α)
    (f : α → Activity σ Q A β) (s : σ) (w : ω) :
    ((x >>= f) s).answered answer w =
      (f ((x s).answered answer w).1 ((x s).answered answer w).2.1).answered answer
        ((x s).answered answer w).2.2 :=
  Interaction.answered_andThen answer f (x s) w

end Activity

end DialogueEngine
