/-!
Computations that ask questions. An interaction works on a state that it shares with others; where
it asks a question it gives the state away, and goes on with the answer and with whatever the state
has become by then. What happens while it waits is for whoever answers to say.
-/

namespace DialogueEngine

/-- A computation over a shared state `σ` that asks questions `Q` and ends with a value. -/
inductive Interaction (σ Q : Type) (A : Q → Type) (α : Type) where
  | done (state : σ) (value : α)
  | ask (state : σ) (question : Q) (resume : A question → σ → Interaction σ Q A α)

namespace Interaction

variable {σ Q : Type} {A : Q → Type} {α β γ : Type}

def andThen (next : α → σ → Interaction σ Q A β) : Interaction σ Q A α → Interaction σ Q A β
  | .done s a => next a s
  | .ask s q resume => .ask s q fun answer s => andThen next (resume answer s)

@[simp] theorem andThen_done (next : α → σ → Interaction σ Q A β) (s : σ) (a : α) :
    andThen next (.done s a) = next a s := rfl

@[simp] theorem andThen_ask (next : α → σ → Interaction σ Q A β) (s : σ) (q : Q)
    (resume : A q → σ → Interaction σ Q A α) :
    andThen next (.ask s q resume) = .ask s q fun answer s => andThen next (resume answer s) := rfl

theorem andThen_assoc (f : α → σ → Interaction σ Q A β) (g : β → σ → Interaction σ Q A γ)
    (x : Interaction σ Q A α) :
    andThen g (andThen f x) = andThen (fun a s => andThen g (f a s)) x := by
  induction x with
  | done => rfl
  | ask s q resume ih => simp only [andThen_ask]; congr 1; funext answer s; exact ih answer s

theorem andThen_ended (x : Interaction σ Q A α) : andThen (fun a s => .done s a) x = x := by
  induction x with
  | done => rfl
  | ask s q resume ih => simp only [andThen_ask]; congr 1; funext answer s; exact ih answer s

/-- Answers every question, with a state `ω` of the one who answers; an answer may change the
shared state. -/
def answered {ω : Type} (answer : (q : Q) → σ → ω → A q × σ × ω) :
    Interaction σ Q A α → ω → α × σ × ω
  | .done s a, w => (a, s, w)
  | .ask s q resume, w =>
    let (reply, s, w) := answer q s w
    answered answer (resume reply s) w

/-- Asks the questions under other names, of someone who answers more than these. -/
def relayed {Q' : Type} {A' : Q' → Type} (name : Q → Q') (same : ∀ q, A' (name q) = A q) :
    Interaction σ Q A α → Interaction σ Q' A' α
  | .done s a => .done s a
  | .ask s q resume =>
    .ask s (name q) fun answer s => relayed name same (resume (same q ▸ answer) s)

/-- Answers every question by an interaction over a state `τ` of its own; the shared state comes
back with the value. -/
def through {τ Q' : Type} {A' : Q' → Type} (answer : (q : Q) → τ → Interaction τ Q' A' (A q)) :
    Interaction σ Q A α → τ → Interaction τ Q' A' (α × σ)
  | .done s a, t => .done t (a, s)
  | .ask s q resume, t => (answer q t).andThen fun reply t => through answer (resume reply s) t

end Interaction

/-- A computation that starts from the shared state. -/
def Activity (σ Q : Type) (A : Q → Type) (α : Type) := σ → Interaction σ Q A α

namespace Activity

variable {σ Q : Type} {A : Q → Type} {α β γ : Type}

instance : Monad (Activity σ Q A) where
  pure a := fun s => .done s a
  bind x f := fun s => (x s).andThen f

instance : LawfulMonad (Activity σ Q A) :=
  LawfulMonad.mk' _ (fun x => funext fun s => Interaction.andThen_ended (x s)) (fun _ _ => rfl)
    (fun x f g => funext fun s => Interaction.andThen_assoc f g (x s))

@[simp] theorem pure_run (a : α) (s : σ) : (pure a : Activity σ Q A α) s = .done s a := rfl

@[simp] theorem bind_run (x : Activity σ Q A α) (f : α → Activity σ Q A β) (s : σ) :
    (x >>= f) s = (x s).andThen f := rfl

def get : Activity σ Q A σ := fun s => .done s s

def modify (f : σ → σ) : Activity σ Q A Unit := fun s => .done (f s) ()

def ask (q : Q) : Activity σ Q A (A q) := fun s => .ask s q fun answer s => .done s answer

end Activity

end DialogueEngine
