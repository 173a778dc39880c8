import DialogueEngine.Proofs.Interaction.Course
import DialogueEngine.Proofs.Interaction.Stretches

/-!
Interactions that are interrupted. While an answer is awaited something may come up, and is up from
then on; what is asked afterwards, and what the interaction comes to, may depend on the exchanges up
to that moment.
-/

namespace DialogueEngine

namespace Interaction

variable {σ Q : Type} {A : Q → Type} {α β : Type}

/-- Whatever is answered: if an answer is the first to come with a state in which something is `up`,
and it stays up while later answers are awaited, then all that is asked afterwards satisfies `asks`,
and in the end `cut` holds of the exchanges up to that answer, the value and the state. If nothing
comes up, `post` holds in the end. -/
def BreaksOff (up : σ → Prop) (asks : Q → Prop) (cut post : List (Sigma A) → α → σ → Prop) :
    List (Sigma A) → Interaction σ Q A α → Prop
  | past, .done s a => post past a s
  | past, .ask _ q resume => ∀ answer s,
      (up s → (resume answer s).Meets up asks (cut (past ++ [⟨q, answer⟩]))) ∧
      (¬ up s → (resume answer s).BreaksOff up asks cut post (past ++ [⟨q, answer⟩]))

variable {up : σ → Prop} {asks : Q → Prop} {past : List (Sigma A)}

theorem BreaksOff.andThen {cut mid : List (Sigma A) → α → σ → Prop}
    {cut' post : List (Sigma A) → β → σ → Prop} {x : Interaction σ Q A α}
    {next : α → σ → Interaction σ Q A β} (first : x.BreaksOff up asks cut mid past)
    (interrupted : ∀ past a s, cut past a s → (next a s).Meets up asks (cut' past))
    (later : ∀ past a s, mid past a s → (next a s).BreaksOff up asks cut' post past) :
    (x.andThen next).BreaksOff up asks cut' post past := by
  induction x generalizing past with
  | done s a => exact later past a s first
  | ask s q resume ih =>
    intro answer s'
    obtain ⟨broken, goesOn⟩ := first answer s'
    exact ⟨fun comesUp => (broken comesUp).andThen (interrupted _),
      fun quiet => ih answer s' (goesOn quiet)⟩

theorem BreaksOff.mono {cut cut' post post' : List (Sigma A) → α → σ → Prop}
    {x : Interaction σ Q A α} (breaks : x.BreaksOff up asks cut post past)
    (sooner : ∀ past a s, cut past a s → cut' past a s)
    (weaker : ∀ past a s, post past a s → post' past a s) :
    x.BreaksOff up asks cut' post' past := by
  induction x generalizing past with
  | done s a => exact weaker past a s breaks
  | ask s q resume ih =>
    intro answer s'
    obtain ⟨broken, goesOn⟩ := breaks answer s'
    exact ⟨fun comesUp => (broken comesUp).mono (fun _ asked => asked) (sooner _),
      fun quiet => ih answer s' (goesOn quiet)⟩

/-- What asks nothing is not interrupted. -/
theorem Ends.breaksOff {mid : α → σ → Prop} {cut post : List (Sigma A) → α → σ → Prop}
    {x : Interaction σ Q A α} (ends : x.Ends mid) (holds : ∀ a s, mid a s → post past a s) :
    x.BreaksOff up asks cut post past := by
  cases x with
  | done s a => exact holds a s ends
  | ask s q resume => exact ends.1.elim

/-- What is required of every question holds after an interruption as well, and what is up stays up
where the stretches of the interaction leave it so. -/
theorem Meets.breaksOff {P : α → Prop} {R : σ → σ → Prop} {x : Interaction σ Q A α} {since : σ}
    (meets : x.Meets (fun _ => True) asks fun a _ => P a)
    (stays : x.Abides (fun _ _ => True) R (fun _ _ => True) (fun since _ s => R since s) since)
    (kept : ∀ s s', R s s' → (up s' ↔ up s)) (asked : ∀ e ∈ past, asks e.1) (calm : ¬ up since) :
    x.BreaksOff up asks
      (fun past a s => up s ∧ (∀ e ∈ past, asks e.1) ∧ P a)
      (fun past a s => ¬ up s ∧ (∀ e ∈ past, asks e.1) ∧ P a) past := by
  have more {past : List (Sigma A)} {q : Q} (obeys : asks q) (answer : A q)
      (asked : ∀ e ∈ past, asks e.1) : ∀ e ∈ past ++ [⟨q, answer⟩], asks e.1 := by
    intro e member
    rcases List.mem_append.1 member with old | new
    · exact asked e old
    · exact List.mem_singleton.1 new ▸ obeys
  have rest {y : Interaction σ Q A α} {since : σ}
      (meets : y.Meets (fun _ => True) asks fun a _ => P a)
      (stays : y.Abides (fun _ _ => True) R (fun _ _ => True) (fun since _ s => R since s) since)
      (comesUp : up since) : y.Meets up asks fun a s => up s ∧ P a := by
    induction y generalizing since with
    | done s a => exact ⟨(kept since s stays).2 comesUp, meets⟩
    | ask s q resume ih =>
      obtain ⟨changed, -, goesOn⟩ := stays
      obtain ⟨-, obeys, later⟩ := meets
      refine ⟨(kept since s changed).2 comesUp, obeys, fun answer s' still => ?_⟩
      exact ih answer s' (later answer s' trivial) (goesOn answer s' trivial) still
  induction x generalizing since past with
  | done s a => exact ⟨fun comesUp => calm ((kept since s stays).1 comesUp), asked, meets⟩
  | ask s q resume ih =>
    obtain ⟨-, -, goesOn⟩ := stays
    obtain ⟨-, obeys, later⟩ := meets
    intro answer s'
    refine ⟨fun comesUp => ?_, fun quiet => ?_⟩
    · have interrupted := rest (later answer s' trivial) (goesOn answer s' trivial) comesUp
      exact interrupted.mono (fun _ asked => asked)
        fun a s holds => ⟨holds.1, more obeys answer asked, holds.2⟩
    · exact ih answer s' (later answer s' trivial) (goesOn answer s' trivial)
        (more obeys answer asked) quiet

end Interaction

end DialogueEngine
