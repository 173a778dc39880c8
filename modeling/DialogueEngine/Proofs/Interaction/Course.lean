import DialogueEngine.Proofs.Interaction.Guarantee

/-!
The courses that an interaction can take. What may be asked depends on what was asked and answered
before; a rule for the questions therefore speaks of the exchanges so far.
-/

namespace DialogueEngine

namespace Interaction

variable {σ Q : Type} {A : Q → Type} {α β : Type}

/-- Whatever is answered, with states that satisfy `inv`, each question obeys `rule` after the
exchanges so far, and `post` holds in the end. -/
def Follows (inv : σ → Prop) (rule : List (Sigma A) → Q → Prop)
    (post : List (Sigma A) → α → σ → Prop) : List (Sigma A) → Interaction σ Q A α → Prop
  | past, .done s a => post past a s
  | past, .ask _ q resume => rule past q ∧
      ∀ answer s, inv s → (resume answer s).Follows inv rule post (past ++ [⟨q, answer⟩])

variable {inv : σ → Prop} {rule : List (Sigma A) → Q → Prop}

/-- Nothing is asserted of a course. -/
theorem follows_any (x : Interaction σ Q A α) (past : List (Sigma A)) :
    x.Follows inv (fun _ _ => True) (fun _ _ _ => True) past := by
  induction x generalizing past with
  | done s a => trivial
  | ask s q resume ih => exact ⟨trivial, fun answer s' _ => ih answer s' _⟩

theorem Follows.of_eq {post : List (Sigma A) → α → σ → Prop} {past : List (Sigma A)}
    {x y : Interaction σ Q A α} (same : x = y) (follows : y.Follows inv rule post past) :
    x.Follows inv rule post past :=
  same ▸ follows

theorem Follows.andThen {mid : List (Sigma A) → α → σ → Prop}
    {post : List (Sigma A) → β → σ → Prop} {past : List (Sigma A)} {x : Interaction σ Q A α}
    {next : α → σ → Interaction σ Q A β} (first : x.Follows inv rule mid past)
    (later : ∀ past a s, mid past a s → (next a s).Follows inv rule post past) :
    (x.andThen next).Follows inv rule post past := by
  induction x generalizing past with
  | done s a => exact later past a s first
  | ask s q resume ih =>
    obtain ⟨obeys, goesOn⟩ := first
    refine ⟨obeys, ?_⟩
    intro answer s' holds
    exact ih answer s' (goesOn answer s' holds)

theorem Follows.mono {rule' : List (Sigma A) → Q → Prop}
    {post post' : List (Sigma A) → α → σ → Prop} {past : List (Sigma A)}
    {x : Interaction σ Q A α} (follows : x.Follows inv rule post past)
    (more : ∀ past q, rule past q → rule' past q)
    (weaker : ∀ past a s, post past a s → post' past a s) :
    x.Follows inv rule' post' past := by
  induction x generalizing past with
  | done s a => exact weaker past a s follows
  | ask s q resume ih =>
    obtain ⟨obeys, goesOn⟩ := follows
    refine ⟨more past q obeys, ?_⟩
    intro answer s' holds
    exact ih answer s' (goesOn answer s' holds)

/-- With fewer states to reckon with the rule is followed as well. -/
theorem Follows.restrict {inv' : σ → Prop} {post : List (Sigma A) → α → σ → Prop}
    {past : List (Sigma A)} {x : Interaction σ Q A α} (follows : x.Follows inv rule post past)
    (fewer : ∀ s, inv' s → inv s) : x.Follows inv' rule post past := by
  induction x generalizing past with
  | done s a => exact follows
  | ask s q resume ih =>
    obtain ⟨obeys, goesOn⟩ := follows
    refine ⟨obeys, ?_⟩
    intro answer s' holds
    exact ih answer s' (goesOn answer s' (fewer s' holds))

/-- A rule that does not look back is a requirement of each question. -/
theorem Follows.meets {asks : Q → Prop} {post : List (Sigma A) → α → σ → Prop}
    {past : List (Sigma A)} {x : Interaction σ Q A α} (holds : ∀ s, inv s)
    (follows : x.Follows inv (fun _ => asks) post past) :
    x.Meets (fun _ => True) asks fun a s => ∃ past', post past' a s := by
  induction x generalizing past with
  | done s a => exact ⟨past, follows⟩
  | ask s q resume ih =>
    obtain ⟨obeys, goesOn⟩ := follows
    exact ⟨trivial, obeys, fun answer s' _ => ih answer s' (goesOn answer s' (holds s'))⟩

/-- The exchanges only grow. -/
theorem Follows.grows {post : List (Sigma A) → α → σ → Prop} {past : List (Sigma A)}
    {x : Interaction σ Q A α} (follows : x.Follows inv rule post past) :
    x.Follows inv rule (fun past' a s => past <+: past' ∧ post past' a s) past := by
  induction x generalizing past with
  | done s a => exact ⟨List.prefix_rfl, follows⟩
  | ask s q resume ih =>
    obtain ⟨obeys, goesOn⟩ := follows
    refine ⟨obeys, ?_⟩
    intro answer s' holds
    refine (ih answer s' (goesOn answer s' holds)).mono (fun _ _ obeys => obeys) ?_
    intro past' a s ⟨grown, holds⟩
    exact ⟨(List.prefix_append past _).trans grown, holds⟩

/-- The first exchanges when a function answers and leaves states alone. -/
def exchanges (f : (q : Q) → A q) : Nat → Interaction σ Q A α → List (Sigma A)
  | 0, _ => []
  | _ + 1, .done _ _ => []
  | n + 1, .ask s q resume => ⟨q, f q⟩ :: exchanges f n (resume (f q) s)

/-- Each of these questions obeys the rule after the exchanges before it. -/
theorem Follows.exchange {post : List (Sigma A) → α → σ → Prop} {past : List (Sigma A)}
    {x : Interaction σ Q A α} (follows : x.Follows inv rule post past) (holds : ∀ s, inv s)
    (f : (q : Q) → A q) {n i : Nat} {e : Sigma A} (found : (exchanges f n x)[i]? = some e) :
    rule (past ++ (exchanges f n x).take i) e.1 := by
  induction n generalizing past x i with
  | zero => cases found
  | succ n ih =>
    cases x with
    | done s a => cases found
    | ask s q resume =>
      obtain ⟨obeys, goesOn⟩ := follows
      cases i with
      | zero =>
        cases found
        rw [exchanges, List.take_zero, List.append_nil]
        exact obeys
      | succ i =>
        have later := ih (goesOn (f q) s (holds s)) found
        rwa [List.append_assoc, List.singleton_append] at later

/-- An interaction may end with a value and a state, if it is answered somehow and the states that
come with the answers satisfy `inv`. -/
inductive Comes (inv : σ → Prop) : Interaction σ Q A α → α → σ → Prop
  | done (s : σ) (a : α) : Comes inv (.done s a) a s
  | answered {s s' s'' : σ} {q : Q} {resume : A q → σ → Interaction σ Q A α} {a : α}
      (answer : A q) (holds : inv s') (later : Comes inv (resume answer s') a s'') :
      Comes inv (.ask s q resume) a s''

/-- What is true at the end of each course is true wherever the interaction may end. -/
theorem Follows.comes {post : List (Sigma A) → α → σ → Prop} {past : List (Sigma A)}
    {x : Interaction σ Q A α} {a : α} {s : σ} (follows : x.Follows inv rule post past)
    (comes : x.Comes inv a s) : ∃ past', post past' a s := by
  induction comes generalizing past with
  | done s a => exact ⟨past, follows⟩
  | answered answer holds later ih => exact ih (follows.2 answer _ holds)

end Interaction

end DialogueEngine
