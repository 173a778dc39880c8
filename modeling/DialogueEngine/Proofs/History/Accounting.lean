import DialogueEngine.Proofs.History.Cancellation

/-!
Whether steps account for tool calls. Whoever takes steps has the conversation in custody from the
moment at which they begin, and if its calls were accounted for then, they are in the end, but for
one case: the write of what a node has made of the conversation is refused while calls wait for
approval. The step is given up then, and these calls are given up with it.
-/

namespace DialogueEngine

open Situation (Accounted Drops)

variable {history : List Happening} {id : String}

/-- What steps with a conversation leave of its account: nothing was done to it because it was
claimed, or it is as good as it was at the beginning, or calls were dropped in the last stretch. -/
def Undertaking.LeavesAccount (u : Undertaking) (id : String) (front : List Happening)
    (s : Situation) : Prop :=
  (∃ s₁, front.getLast? = some (.began u s₁) ∧ id ∈ s₁.claimed ∧
      s.store.backing = s₁.store.backing) ∨
    ∃ past s₁ during, front = past ++ .began u s₁ :: during ∧ id ∉ s₁.claimed ∧
      (∀ h ∈ during, id ∈ h.now.claimed) ∧
      (Accounted id s₁ → Accounted id s ∨ ∃ e, front.getLast? = some e ∧ Drops id e.now s)

/-- In every history of operations on stored conversations, whichever writes are refused, steps keep
the account of tool calls unless they drop calls that wait because a write was refused. -/
theorem Unfolds.steps_account {s₀ : Situation} {scene : Scene} (free : s₀.claimed = [])
    (sound : s₀.store.Sound) (coherent : s₀.store.Holds Conversation.Coherent)
    (unfolds : Unfolds (fun _ _ u => u.UsesStore) s₀ history scene) :
    ∀ front u reply s rest, history = front ++ .ended u reply s :: rest → u.Steps id →
      u.LeavesAccount id front s := by
  obtain ⟨each, -, -⟩ := unfolds.tended True free sound (fun _ => coherent)
    fun _ _ _ _ stored => stored
  intro front u reply s rest same steps
  obtain ⟨e, last, refused | attended⟩ :=
    (each front _ rest same).closes u reply s id rfl steps.named
  · exact .inl ⟨e.now, refused.began ▸ last, refused.busy, refused.quiet.backing⟩
  · obtain ⟨s₁, ⟨past, during, begun, unclaimed, held⟩, closes⟩ := attended.custody
    refine .inr ⟨past, s₁, during, begun, unclaimed, held, fun accounted => ?_⟩
    exact ((closes.steps steps).accounts trivial accounted).imp_right fun drops => ⟨e, last, drops⟩

/-- The write of a paused turn is refused, the one that gives the step up is not: the call that
waited for approval is neither answered nor pending any more. -/
theorem refused_write_drops_call : ∃ history scene,
    Unfolds (fun _ _ u => u.UsesStore)
        (.fresh cautious (.refusing [false, false, true]) default) history scene ∧
      ((scene.now.store.backing.get "c").toOption.join.map fun c =>
        (Transcript.asked c.messages, Transcript.answered c.messages, c.pending.map (·.id))) =
          some (["x"], [], []) ∧
      ∀ front u reply s rest, history = front ++ .ended u reply s :: rest → u.Steps "c" →
        u.LeavesAccount "c" front s := by
  have nothing : Unfolds (fun _ _ u => u.UsesStore)
      (.fresh cautious (.refusing [false, false, true]) default) []
      ⟨.fresh cautious (.refusing [false, false, true]) default, []⟩ := .start
  have registered := nothing.begin (.registration assistantFlow) trivial
  have started := registered.begin
    (.operation (.start (some "c") "assistant" (some "Hello"))) trivial
  have ran := started.begin (.operation (.run "c" 5)) trivial
  have paused := ran.answered (modelAnswering "" [⟨"x", "_-_-_search_-_-_find", .null⟩])
  have new : (Store.refusing [false, false, true]).IsNew := .inl rfl
  refine ⟨_, _, paused, ?_, paused.steps_account rfl new.sound (new.holds _)⟩
  decide +kernel

end DialogueEngine
