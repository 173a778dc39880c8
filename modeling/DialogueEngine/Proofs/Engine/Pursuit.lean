import DialogueEngine.Proofs.Engine.Offer
import DialogueEngine.Proofs.Engine.Stillness
import DialogueEngine.Proofs.Interaction.Chronicle

/-!
Computations and their courses as long as some condition holds. Others keep the condition while an
answer is awaited; the computation keeps it between its questions, asks by a rule that looks back at
the exchanges so far, and comes to a value that is accounted for by all of them.
-/

namespace DialogueEngine.Engine

open Situation (Still)

variable {α β : Type} {inv : Situation → Prop} {rule : List Exchange → Question → Prop}
  {past : List Exchange}

/-- After some exchanges, and as long as a condition holds, a computation goes on by a rule; its
value satisfies `post`. -/
def Pursues (inv : Situation → Prop) (rule : List Exchange → Question → Prop)
    (past : List Exchange) (x : Engine α) (post : List Exchange → α → Prop) : Prop :=
  ∀ s, inv s → (x s).Follows inv rule (fun past a s' => inv s' ∧ post past a) past

namespace Pursues

variable {x : Engine α} {post : List Exchange → α → Prop}

theorem pure {a : α} (holds : post past a) : Pursues inv rule past (Pure.pure a) post :=
  fun _ kept => ⟨kept, holds⟩

theorem bind {f : α → Engine β} {mid : List Exchange → α → Prop}
    {post : List Exchange → β → Prop} (first : Pursues inv rule past x mid)
    (later : ∀ past a, mid past a → Pursues inv rule past (f a) post) :
    Pursues inv rule past (x >>= f) post := by
  intro s kept
  apply (first s kept).andThen
  intro past a s' holds
  exact later past a holds.2 s' holds.1

theorem mono {post' : List Exchange → α → Prop} (pursues : Pursues inv rule past x post)
    (weaker : ∀ past a, post past a → post' past a) : Pursues inv rule past x post' :=
  fun s kept => (pursues s kept).mono (fun _ _ obeys => obeys)
    fun past a _ holds => ⟨holds.1, weaker past a holds.2⟩

end Pursues

theorem pursues_ask {q : Question} (obeys : rule past q) :
    Pursues inv rule past (ask q) fun past' answer => past' = past ++ [⟨q, answer⟩] :=
  fun _ _ => ⟨obeys, fun _ _ kept => ⟨kept, rfl⟩⟩

theorem pursues_situation :
    Pursues inv rule past situation fun past' s => past' = past ∧ inv s :=
  fun _ kept => ⟨kept, rfl, kept⟩

section Still

/-- A condition that is kept across the changes that the run of a node makes. -/
abbrev Enduring (inv : Situation → Prop) : Prop := Still fun s s' => inv s → inv s'

variable (enduring : Enduring inv)
include enduring

theorem pursues_publish {e : Event} (other : e.isStart = false) :
    Pursues inv rule past (publish e) fun past' _ => past' = past :=
  fun s kept => ⟨enduring.published s other kept, rfl⟩

theorem pursues_stamp : Pursues inv rule past stamp fun past' _ => past' = past :=
  fun s kept => ⟨enduring.ticked s kept, rfl⟩

theorem pursues_now : Pursues inv rule past now fun past' _ => past' = past :=
  (pursues_stamp enduring).bind fun _ _ same => .pure same

end Still

/-- What is left alone between questions is kept to the end. -/
theorem follows_of_stays {x : Interaction Situation Question Answer α} {since : Situation}
    (stays : x.Abides (fun _ _ => True) (fun s s' => inv s → inv s') (fun _ _ => True)
      (fun since _ s => inv since → inv s) since) (kept : inv since) :
    x.Follows inv (fun _ _ => True) (fun _ _ s => inv s) past := by
  induction x generalizing past since with
  | done s a => exact stays kept
  | ask s q resume ih =>
    exact ⟨trivial, fun answer s' kept' => ih answer s' (stays.2.2 answer s' trivial) kept'⟩

/-- What is asked is recorded. -/
theorem follows_of_meets {asks : Question → Prop} {post : α → Prop}
    {x : Interaction Situation Question Answer α} (before : List Exchange)
    (meets : x.Meets (fun _ => True) asks fun a _ => post a) (asked : ∀ e ∈ past, asks e.1)
    (allows : ∀ past q, asks q → rule past q) :
    x.Follows inv rule (fun past' a _ => (∃ more, past' = before ++ more ∧ ∀ e ∈ more, asks e.1) ∧
      post a) (before ++ past) := by
  induction x generalizing past with
  | done s a => exact ⟨⟨past, rfl, asked⟩, meets⟩
  | ask s q resume ih =>
    obtain ⟨-, obeys, goesOn⟩ := meets
    refine ⟨allows _ q obeys, fun answer s' _ => ?_⟩
    rw [List.append_assoc]
    refine ih answer s' (goesOn answer s' trivial) ?_
    intro e member
    rcases List.mem_append.1 member with old | new
    · exact asked e old
    · exact List.mem_singleton.1 new ▸ obeys

/-- What leaves the condition alone, and asks what a rule always allows, pursues the rule. -/
theorem pursues_of_yields {asks : Question → Prop} {post : α → Prop} {x : Engine α}
    (stays : Stays (fun s s' => inv s → inv s') x) (yields : Activity.Yields asks x post)
    (allows : ∀ past q, asks q → rule past q) : Pursues inv rule past x fun past' a =>
      (∃ more, past' = past ++ more ∧ ∀ e ∈ more, asks e.1) ∧ post a := by
  intro s kept
  have begins : ∀ e ∈ ([] : List Exchange), asks e.1 := fun e none => absurd none List.not_mem_nil
  have asked : (x s).Follows inv rule _ _ := follows_of_meets past (yields s) begins allows
  rw [List.append_nil] at asked
  refine ((follows_of_stays (stays s s id) kept).and asked).mono (fun _ _ obeys => obeys.2) ?_
  intro past' a s' holds
  exact holds

end DialogueEngine.Engine
