import DialogueEngine.Engine.Interaction

/-!
What an interaction guarantees to those it shares its state with, and what it relies on. Whoever
answers may do anything to the shared state that keeps an invariant; in return the invariant holds
wherever the interaction gives the state away.
-/

namespace DialogueEngine

namespace Interaction

variable {σ Q : Type} {A : Q → Type} {α β : Type}

/-- As long as every answer comes with a state that satisfies `inv`, the state satisfies `inv`
wherever it is given away, each question satisfies `asks`, and value and state satisfy `post` in the
end. -/
def Meets (inv : σ → Prop) (asks : Q → Prop) (post : α → σ → Prop) :
    Interaction σ Q A α → Prop
  | .done s a => post a s
  | .ask s q resume =>
    inv s ∧ asks q ∧ ∀ answer s', inv s' → (resume answer s').Meets inv asks post

variable {inv : σ → Prop} {asks : Q → Prop}

theorem Meets.andThen {mid : α → σ → Prop} {post : β → σ → Prop} {x : Interaction σ Q A α}
    {next : α → σ → Interaction σ Q A β} (first : x.Meets inv asks mid)
    (later : ∀ a s, mid a s → (next a s).Meets inv asks post) :
    (x.andThen next).Meets inv asks post := by
  induction x with
  | done s a => exact later a s first
  | ask s q resume ih =>
    obtain ⟨kept, asked, goesOn⟩ := first
    exact ⟨kept, asked, fun answer s' kept' => ih answer s' (goesOn answer s' kept')⟩

theorem Meets.mono {asks' : Q → Prop} {post post' : α → σ → Prop} {x : Interaction σ Q A α}
    (meets : x.Meets inv asks post) (more : ∀ q, asks q → asks' q)
    (weaker : ∀ a s, post a s → post' a s) : x.Meets inv asks' post' := by
  induction x with
  | done s a => exact weaker a s meets
  | ask s q resume ih =>
    obtain ⟨kept, asked, goesOn⟩ := meets
    exact ⟨kept, more q asked, fun answer s' kept' => ih answer s' (goesOn answer s' kept')⟩

/-- The interaction asks nothing: value and state satisfy `post` at once. -/
abbrev Ends (post : α → σ → Prop) (x : Interaction σ Q A α) : Prop :=
  x.Meets (fun _ => False) (fun _ => False) post

/-- The interaction asks one question, at once, and nothing after it. -/
def AsksOnce (q : Q) : Interaction σ Q A α → Prop
  | .done _ _ => False
  | .ask _ q' resume => q' = q ∧ ∀ answer s, (resume answer s).Ends fun _ _ => True

theorem Meets.and_also {post also : α → σ → Prop} {x : Interaction σ Q A α}
    (meets : x.Meets inv asks post) (second : x.Meets (fun _ => True) (fun _ => True) also) :
    x.Meets inv asks fun a s => post a s ∧ also a s := by
  induction x with
  | done s a => exact ⟨meets, second⟩
  | ask s q resume ih =>
    obtain ⟨kept, asked, goesOn⟩ := meets
    exact ⟨kept, asked, fun answer s' kept' =>
      ih answer s' (goesOn answer s' kept') (second.2.2 answer s' trivial)⟩

/-- What asks nothing meets what is required of questions. -/
theorem Ends.meets {post : α → σ → Prop} {x : Interaction σ Q A α} (ends : x.Ends post) :
    x.Meets inv asks post := by
  cases x with
  | done s a => exact ends
  | ask s q resume => exact ends.1.elim

theorem Ends.eq_done {post : α → σ → Prop} {x : Interaction σ Q A α} (ends : x.Ends post) :
    ∃ s a, x = .done s a ∧ post a s := by
  cases x with
  | done s a => exact ⟨s, a, rfl, ends⟩
  | ask s q resume => exact ends.1.elim

theorem Ends.thenAsks {mid : α → σ → Prop} {q : Q} {x : Interaction σ Q A α}
    {next : α → σ → Interaction σ Q A β} (first : x.Ends mid)
    (later : ∀ a s, mid a s → (next a s).AsksOnce q) : (x.andThen next).AsksOnce q := by
  cases x with
  | done s a => exact later a s first
  | ask s q resume => exact first.1.elim

theorem AsksOnce.andThen {q : Q} {x : Interaction σ Q A α} {next : α → σ → Interaction σ Q A β}
    (first : x.AsksOnce q) (later : ∀ a s, (next a s).Ends fun _ _ => True) :
    (x.andThen next).AsksOnce q := by
  cases x with
  | done s a => exact first.elim
  | ask s q' resume =>
    obtain ⟨same, ends⟩ := first
    refine ⟨same, ?_⟩
    intro answer s'
    exact (ends answer s').andThen fun a s _ => later a s

theorem AsksOnce.resume {q : Q} {x : Interaction σ Q A α} (asks : x.AsksOnce q) :
    ∃ s resume, x = .ask s q resume ∧ ∀ answer s', (resume answer s').Ends fun _ _ => True := by
  cases x with
  | done s a => exact asks.elim
  | ask s q' resume =>
    obtain ⟨rfl, ends⟩ := asks
    exact ⟨s, resume, rfl, ends⟩

end Interaction

namespace Activity

variable {σ Q : Type} {A : Q → Type} {α β : Type} {inv : σ → Prop} {asks : Q → Prop}

/-- What ends at once is followed by what comes next. -/
theorem bind_of_done {x : Activity σ Q A α} {f : α → Activity σ Q A β} {s s' : σ} {a : α}
    (done : x s = .done s' a) : (x >>= f) s = f a s' := by
  rw [bind_run, done]
  rfl

theorem meets_bind {mid : α → σ → Prop} {post : β → σ → Prop} {x : Activity σ Q A α}
    {f : α → Activity σ Q A β} {s : σ} (first : (x s).Meets inv asks mid)
    (later : ∀ a s', mid a s' → (f a s').Meets inv asks post) :
    ((x >>= f) s).Meets inv asks post :=
  first.andThen later

theorem asksOnce_bind {mid : α → σ → Prop} {q : Q} {x : Activity σ Q A α}
    {f : α → Activity σ Q A β} {s : σ} (first : (x s).Ends mid)
    (later : ∀ a s', mid a s' → (f a s').AsksOnce q) : ((x >>= f) s).AsksOnce q :=
  first.thenAsks later

theorem asksOnce_bind_ends {q : Q} {x : Activity σ Q A α} {f : α → Activity σ Q A β} {s : σ}
    (first : (x s).AsksOnce q) (later : ∀ a s', (f a s').Ends fun _ _ => True) :
    ((x >>= f) s).AsksOnce q :=
  first.andThen later

/-- Whatever is answered and becomes of the state meanwhile, each question satisfies `asks` and the
value satisfies `post`. -/
def Yields (asks : Q → Prop) (x : Activity σ Q A α) (post : α → Prop) : Prop :=
  ∀ s, (x s).Meets (fun _ => True) asks fun a _ => post a

namespace Yields

variable {x : Activity σ Q A α} {post : α → Prop}

theorem pure {a : α} (holds : post a) : Yields asks (Pure.pure a : Activity σ Q A α) post :=
  fun _ => holds

theorem bind {f : α → Activity σ Q A β} {mid : α → Prop} {post : β → Prop}
    (first : Yields asks x mid) (later : ∀ a, mid a → Yields asks (f a) post) :
    Yields asks (x >>= f) post :=
  fun s => meets_bind (first s) fun a s' holds => later a holds s'

theorem of_ends (ends : ∀ s, (x s).Ends fun a _ => post a) : Yields asks x post :=
  fun s => (ends s).meets

theorem and {also : α → Prop} (first : Yields asks x post)
    (second : Yields (fun _ => True) x also) : Yields asks x fun a => post a ∧ also a :=
  fun s => (first s).and_also (second s)

/-- Of some computations nothing is required. -/
theorem always (x : Activity σ Q A α) : Yields (fun _ => True) x fun _ => True := by
  intro s
  induction x s with
  | done s' a => trivial
  | ask s' q resume ih => exact ⟨trivial, trivial, fun answer s'' _ => ih answer s''⟩

end Yields

end Activity

end DialogueEngine
