import DialogueEngine.Proofs.Interaction.Guarantee

/-!
Interactions by their stretches. A stretch is the work from the moment at which an interaction is
answered, or begun, to its next question or its end. What an interaction does to the shared state
within a stretch relates the states at its two ends; what others may do to it in between relates the
state that is given away to the one that comes back.
-/

namespace DialogueEngine

namespace Interaction

variable {σ Q : Type} {A : Q → Type} {α β : Type}

/-- As long as others change the shared state as `rely` allows while an answer is awaited, each
stretch that stops at a question changes it as `guar` says and asks what `asks` allows, and in the
end `post` holds of the beginning of the last stretch, the value and the state. The state in front
is the one in which the stretch under way began. -/
def Abides (rely guar : σ → σ → Prop) (asks : σ → Q → Prop) (post : σ → α → σ → Prop) :
    σ → Interaction σ Q A α → Prop
  | since, .done s a => post since a s
  | since, .ask s q resume => guar since s ∧ asks s q ∧
      ∀ answer s', rely s s' → (resume answer s').Abides rely guar asks post s'

variable {rely guar : σ → σ → Prop} {asks : σ → Q → Prop} {since : σ}

theorem Abides.andThen {mid : σ → α → σ → Prop} {post : σ → β → σ → Prop}
    {x : Interaction σ Q A α} {next : α → σ → Interaction σ Q A β}
    (first : x.Abides rely guar asks mid since)
    (later : ∀ since a s, mid since a s → (next a s).Abides rely guar asks post since) :
    (x.andThen next).Abides rely guar asks post since := by
  induction x generalizing since with
  | done s a => exact later since a s first
  | ask s q resume ih =>
    obtain ⟨changed, asked, goesOn⟩ := first
    exact ⟨changed, asked, fun answer s' relied => ih answer s' (goesOn answer s' relied)⟩

/-- What holds in a narrower setting holds in a wider one. There a stretch may have begun earlier:
`span` relates its beginning to the one that was assumed, and to every state that is reached from
there. -/
theorem Abides.rebase {rely' guar' : σ → σ → Prop} {asks' : σ → Q → Prop}
    {post post' : σ → α → σ → Prop} {x : Interaction σ Q A α} {since' : σ}
    (span : σ → σ → Prop) (abides : x.Abides rely guar asks post since)
    (begun : span since' since)
    (reaches : ∀ early late s, span early late → guar late s → span early s)
    (stops : ∀ early s q, span early s → asks s q → guar' early s ∧ asks' s q)
    (resumes : ∀ early s s', span early s → rely' s s' → rely s s' ∧ span s' s')
    (ends : ∀ early late a s, span early late → post late a s → post' early a s) :
    x.Abides rely' guar' asks' post' since' := by
  induction x generalizing since since' with
  | done s a => exact ends since' since a s begun abides
  | ask s q resume ih =>
    obtain ⟨changed, asked, goesOn⟩ := abides
    have spanned := reaches since' since s begun changed
    obtain ⟨changed', asked'⟩ := stops since' s q spanned asked
    refine ⟨changed', asked', ?_⟩
    intro answer s' relied
    obtain ⟨relied', again⟩ := resumes since' s s' spanned relied
    exact ih answer s' (goesOn answer s' relied') again

theorem Abides.mono {asks' : σ → Q → Prop} {post post' : σ → α → σ → Prop}
    {x : Interaction σ Q A α} (abides : x.Abides rely guar asks post since)
    (more : ∀ s q, asks s q → asks' s q)
    (weaker : ∀ since a s, post since a s → post' since a s) :
    x.Abides rely guar asks' post' since := by
  induction x generalizing since with
  | done s a => exact weaker since a s abides
  | ask s q resume ih =>
    obtain ⟨changed, asked, goesOn⟩ := abides
    exact ⟨changed, more s q asked, fun answer s' relied => ih answer s' (goesOn answer s' relied)⟩

/-- Others who keep to more can be relied on for less. -/
theorem Abides.relying {rely' : σ → σ → Prop} {post : σ → α → σ → Prop} {x : Interaction σ Q A α}
    (abides : x.Abides rely guar asks post since) (more : ∀ s s', rely' s s' → rely s s') :
    x.Abides rely' guar asks post since := by
  induction x generalizing since with
  | done s a => exact abides
  | ask s q resume ih =>
    obtain ⟨changed, asked, goesOn⟩ := abides
    exact ⟨changed, asked, fun answer s' relied =>
      ih answer s' (goesOn answer s' (more s s' relied))⟩

/-- An invariant that others keep holds at the end as well. -/
theorem Abides.and_meets {inv : σ → Prop} {asked : Q → Prop} {post : σ → α → σ → Prop}
    {also : α → σ → Prop} {x : Interaction σ Q A α}
    (abides : x.Abides rely guar asks post since) (meets : x.Meets inv asked also)
    (kept : ∀ s s', inv s → rely s s' → inv s') :
    x.Abides rely guar asks (fun since a s => post since a s ∧ also a s) since := by
  induction x generalizing since with
  | done s a => exact ⟨abides, meets⟩
  | ask s q resume ih =>
    obtain ⟨changed, asked, goesOn⟩ := abides
    obtain ⟨holds, -, meets⟩ := meets
    refine ⟨changed, asked, ?_⟩
    intro answer s' relied
    exact ih answer s' (goesOn answer s' relied) (meets answer s' (kept s s' holds relied))

/-- What is kept to of two accounts of the same stretches is kept to at once. -/
theorem Abides.and {rely' guar' : σ → σ → Prop} {asks' : σ → Q → Prop}
    {post post' : σ → α → σ → Prop} {x : Interaction σ Q A α}
    (abides : x.Abides rely guar asks post since) (also : x.Abides rely' guar' asks' post' since) :
    x.Abides (fun s s' => rely s s' ∧ rely' s s') (fun s s' => guar s s' ∧ guar' s s')
      (fun s q => asks s q ∧ asks' s q) (fun since a s => post since a s ∧ post' since a s)
      since := by
  induction x generalizing since with
  | done s a => exact ⟨abides, also⟩
  | ask s q resume ih =>
    obtain ⟨changed, asked, goesOn⟩ := abides
    obtain ⟨changed', asked', goesOn'⟩ := also
    exact ⟨⟨changed, changed'⟩, ⟨asked, asked'⟩, fun answer s' relied =>
      ih answer s' (goesOn answer s' relied.1) (goesOn' answer s' relied.2)⟩

/-- What ends at once is one stretch. -/
theorem Ends.abides {post : α → σ → Prop} {post' : σ → α → σ → Prop} {x : Interaction σ Q A α}
    (ends : x.Ends post) (holds : ∀ a s, post a s → post' since a s) :
    x.Abides rely guar asks post' since := by
  cases x with
  | done s a => exact holds a s ends
  | ask s q resume => exact ends.1.elim

end Interaction

namespace Activity

variable {σ Q : Type} {A : Q → Type} {α β : Type} {rely guar : σ → σ → Prop}
  {asks : σ → Q → Prop} {since : σ}

theorem abides_bind {mid : σ → α → σ → Prop} {post : σ → β → σ → Prop} {x : Activity σ Q A α}
    {f : α → Activity σ Q A β} {s : σ} (first : (x s).Abides rely guar asks mid since)
    (later : ∀ since a s', mid since a s' → (f a s').Abides rely guar asks post since) :
    ((x >>= f) s).Abides rely guar asks post since :=
  first.andThen later

/-- What ends at once belongs to the stretch in which it begins. -/
theorem abides_bind_ends {mid : α → σ → Prop} {post : σ → β → σ → Prop} {x : Activity σ Q A α}
    {f : α → Activity σ Q A β} {s : σ} (first : (x s).Ends mid)
    (later : ∀ a s', mid a s' → (f a s').Abides rely guar asks post since) :
    ((x >>= f) s).Abides rely guar asks post since := by
  have stretch : (x s).Abides rely guar asks
      (fun since' a s' => since' = since ∧ mid a s') since :=
    first.abides fun a s' holds => ⟨rfl, holds⟩
  apply abides_bind stretch
  rintro _ a s' ⟨rfl, holds⟩
  exact later a s' holds

end Activity

end DialogueEngine
