import DialogueEngine.Proofs.Interaction.Course
import DialogueEngine.Proofs.Interaction.Stretches

/-!
Stretches of an interaction in the light of what was asked and answered before them. What may be
done and asked within a stretch can depend on the exchanges so far.
-/

namespace DialogueEngine

namespace Interaction

variable {σ Q : Type} {A : Q → Type} {α β : Type}

/-- As long as others change the shared state as `rely` allows while an answer is awaited, each
stretch that stops at a question changes it as `guar` says and asks what `asks` allows after the
exchanges so far, and in the end `post` holds of the exchanges, the beginning of the last stretch,
the value and the state. -/
def Chronicles (rely : σ → σ → Prop) (guar : List (Sigma A) → σ → σ → Prop)
    (asks : List (Sigma A) → Q → Prop) (post : List (Sigma A) → σ → α → σ → Prop) :
    List (Sigma A) → σ → Interaction σ Q A α → Prop
  | past, since, .done s a => post past since a s
  | past, since, .ask s q resume => guar past since s ∧ asks past q ∧
      ∀ answer s', rely s s' →
        (resume answer s').Chronicles rely guar asks post (past ++ [⟨q, answer⟩]) s'

variable {rely : σ → σ → Prop} {guar : List (Sigma A) → σ → σ → Prop}
  {asks : List (Sigma A) → Q → Prop} {past : List (Sigma A)} {since : σ}

theorem Chronicles.andThen {mid : List (Sigma A) → σ → α → σ → Prop}
    {post : List (Sigma A) → σ → β → σ → Prop} {x : Interaction σ Q A α}
    {next : α → σ → Interaction σ Q A β} (first : x.Chronicles rely guar asks mid past since)
    (later : ∀ past since a s, mid past since a s →
      (next a s).Chronicles rely guar asks post past since) :
    (x.andThen next).Chronicles rely guar asks post past since := by
  induction x generalizing past since with
  | done s a => exact later past since a s first
  | ask s q resume ih =>
    obtain ⟨changed, asked, goesOn⟩ := first
    exact ⟨changed, asked, fun answer s' relied => ih answer s' (goesOn answer s' relied)⟩

theorem Chronicles.mono {post post' : List (Sigma A) → σ → α → σ → Prop} {x : Interaction σ Q A α}
    (chronicles : x.Chronicles rely guar asks post past since)
    (weaker : ∀ past since a s, post past since a s → post' past since a s) :
    x.Chronicles rely guar asks post' past since := by
  induction x generalizing past since with
  | done s a => exact weaker past since a s chronicles
  | ask s q resume ih =>
    obtain ⟨changed, asked, goesOn⟩ := chronicles
    exact ⟨changed, asked, fun answer s' relied => ih answer s' (goesOn answer s' relied)⟩

/-- The exchanges only grow. -/
theorem Chronicles.grows {post : List (Sigma A) → σ → α → σ → Prop} {x : Interaction σ Q A α}
    (chronicles : x.Chronicles rely guar asks post past since) :
    x.Chronicles rely guar asks
      (fun past' since a s => past <+: past' ∧ post past' since a s) past since := by
  induction x generalizing past since with
  | done s a => exact ⟨List.prefix_rfl, chronicles⟩
  | ask s q resume ih =>
    obtain ⟨changed, asked, goesOn⟩ := chronicles
    refine ⟨changed, asked, fun answer s' relied => ?_⟩
    refine (ih answer s' (goesOn answer s' relied)).mono fun past' since' a s'' ⟨grown, holds⟩ => ?_
    exact ⟨(List.prefix_append past _).trans grown, holds⟩

/-- What holds of a value whatever is answered holds as well. -/
theorem Chronicles.and_meets {inv : σ → Prop} {asked : Q → Prop} {also : α → σ → Prop}
    {post : List (Sigma A) → σ → α → σ → Prop} {x : Interaction σ Q A α}
    (chronicles : x.Chronicles rely guar asks post past since) (meets : x.Meets inv asked also)
    (always : ∀ s, inv s) :
    x.Chronicles rely guar asks (fun past since a s => post past since a s ∧ also a s)
      past since := by
  induction x generalizing past since with
  | done s a => exact ⟨chronicles, meets⟩
  | ask s q resume ih =>
    obtain ⟨changed, asked, goesOn⟩ := chronicles
    exact ⟨changed, asked, fun answer s' relied =>
      ih answer s' (goesOn answer s' relied) (meets.2.2 answer s' (always s'))⟩

/-- What ends at once is one stretch. -/
theorem Ends.chronicles {mid : α → σ → Prop} {post : List (Sigma A) → σ → α → σ → Prop}
    {x : Interaction σ Q A α} (ends : x.Ends mid) (holds : ∀ a s, mid a s → post past since a s) :
    x.Chronicles rely guar asks post past since := by
  cases x with
  | done s a => exact holds a s ends
  | ask s q resume => exact ends.1.elim

/-- What is required of questions and values whatever is answered is a rule that does not look
back. -/
theorem Meets.follows {inv inv' : σ → Prop} {asked : Q → Prop} {post : α → σ → Prop}
    {x : Interaction σ Q A α} (meets : x.Meets inv asked post) (holds : ∀ s, inv' s → inv s) :
    x.Follows inv' (fun _ => asked) (fun _ => post) past := by
  induction x generalizing past with
  | done s a => exact meets
  | ask s q resume ih =>
    obtain ⟨-, obeys, goesOn⟩ := meets
    exact ⟨obeys, fun answer s' holds' => ih answer s' (goesOn answer s' (holds s' holds'))⟩

/-- What follows a rule from its beginning follows it with regard to earlier exchanges as well. -/
theorem Follows.shift {inv : σ → Prop} {rule rule' : List (Sigma A) → Q → Prop}
    {post post' : List (Sigma A) → α → σ → Prop} {x : Interaction σ Q A α}
    (follows : x.Follows inv rule post past) (before : List (Sigma A))
    (more : ∀ past q, rule past q → rule' (before ++ past) q)
    (weaker : ∀ past a s, post past a s → post' (before ++ past) a s) :
    x.Follows inv rule' post' (before ++ past) := by
  induction x generalizing past with
  | done s a => exact weaker past a s follows
  | ask s q resume ih =>
    obtain ⟨obeys, goesOn⟩ := follows
    refine ⟨more past q obeys, fun answer s' holds => ?_⟩
    rw [List.append_assoc]
    exact ih answer s' (goesOn answer s' holds)

/-- What is followed of two rules is followed of both. -/
theorem Follows.and {inv : σ → Prop} {rule rule' : List (Sigma A) → Q → Prop}
    {post post' : List (Sigma A) → α → σ → Prop} {x : Interaction σ Q A α}
    (follows : x.Follows inv rule post past) (also : x.Follows inv rule' post' past) :
    x.Follows inv (fun past q => rule past q ∧ rule' past q)
      (fun past a s => post past a s ∧ post' past a s) past := by
  induction x generalizing past with
  | done s a => exact ⟨follows, also⟩
  | ask s q resume ih =>
    exact ⟨⟨follows.1, also.1⟩, fun answer s' holds =>
      ih answer s' (follows.2 answer s' holds) (also.2 answer s' holds)⟩

end Interaction

namespace Activity

variable {σ Q : Type} {A : Q → Type} {α β : Type} {rely : σ → σ → Prop}
  {guar : List (Sigma A) → σ → σ → Prop} {asks : List (Sigma A) → Q → Prop}
  {past : List (Sigma A)} {since : σ}

theorem chronicles_bind {mid : List (Sigma A) → σ → α → σ → Prop}
    {post : List (Sigma A) → σ → β → σ → Prop} {x : Activity σ Q A α} {f : α → Activity σ Q A β}
    {s : σ} (first : (x s).Chronicles rely guar asks mid past since)
    (later : ∀ past since a s', mid past since a s' →
      (f a s').Chronicles rely guar asks post past since) :
    ((x >>= f) s).Chronicles rely guar asks post past since :=
  first.andThen later

end Activity

end DialogueEngine
