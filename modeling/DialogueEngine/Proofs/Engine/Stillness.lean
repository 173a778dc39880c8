import DialogueEngine.Proofs.Engine.Standing
import DialogueEngine.Proofs.Interaction.Stretches

/-!
What is left alone while a node is run. Between its questions a node publishes events, but never
that a node is run, and reads the clock; it does nothing else to what operations share. A relation
that holds across these changes therefore holds across each of its stretches, whatever others do
while it waits.
-/

namespace DialogueEngine

/-- A relation between earlier and later situations that holds across the changes that the run of a
node makes. -/
structure Situation.Still (R : Situation → Situation → Prop) : Prop where
  refl (s : Situation) : R s s
  trans {s s' s'' : Situation} (first : R s s') (second : R s' s'') : R s s''
  published (s : Situation) {e : Event} (other : e.isStart = false) :
    R s { s with published := s.published ++ [e] }
  ticked (s : Situation) : R s { s with clock := s.clock.tick.2 }

namespace Engine

open Situation (Still)

variable {α β : Type} {R : Situation → Situation → Prop}

/-- Within each of its stretches a computation keeps to a relation, whatever others do meanwhile. -/
def Stays (R : Situation → Situation → Prop) (x : Engine α) : Prop :=
  ∀ since s, R since s →
    (x s).Abides (fun _ _ => True) R (fun _ _ => True) (fun since _ s => R since s) since

namespace Stays

theorem pure (a : α) : Stays R (Pure.pure a : Engine α) := fun _ _ holds => holds

theorem bind {x : Engine α} {f : α → Engine β} (first : Stays R x) (later : ∀ a, Stays R (f a)) :
    Stays R (x >>= f) :=
  fun since s holds => Activity.abides_bind (first since s holds)
    fun since' a s' holds' => later a since' s' holds'

end Stays

theorem stays_situation : Stays R situation := fun _ _ holds => holds

theorem stays_isToBeCancelled (c : Conversation) : Stays R (isToBeCancelled c) := by
  unfold isToBeCancelled
  split
  · exact .pure _
  · exact stays_situation.bind fun _ => .pure _

section Still

variable (still : Still R)
include still

theorem stays_ask (q : Question) : Stays R (ask q) :=
  fun _ _ holds => ⟨holds, trivial, fun _ s' _ => still.refl s'⟩

theorem stays_publish {e : Event} (other : e.isStart = false) : Stays R (publish e) :=
  fun _ s holds => still.trans holds (still.published s other)

theorem stays_stamp : Stays R stamp := fun _ s holds => still.trans holds (still.ticked s)

theorem stays_now : Stays R now := (stays_stamp still).bind fun _ => .pure _

/-! ## Tools -/

theorem stays_fullListing (ref : ProviderRef) : Stays R (fullListing ref) := by
  have connects : Stays R (ensureConnected ref) := by
    apply (stays_ask still (.hasConnection _)).bind
    intro connected
    split
    · exact .pure _
    · exact stays_ask still (.connect ..)
  apply connects.bind
  intro connected
  split
  · exact (stays_publish still rfl).bind fun _ => .pure _
  · apply (stays_ask still (.listing _)).bind
    intro listing
    split <;> exact .pure _

theorem stays_toolsOf (c : Conversation) (ref : ProviderRef) : Stays R (toolsOf c ref) := by
  apply (stays_ask still (.revision _)).bind
  intro revision
  split
  · exact .pure _
  · apply (stays_fullListing still ref).bind
    intro listed
    split
    · exact .pure _
    · exact .pure _
    · exact (stays_now still).bind fun now => .pure _

theorem stays_toolsOfAll (c : Conversation) (refs : List ProviderRef) :
    Stays R (toolsOfAll c refs) := by
  induction refs generalizing c with
  | nil => exact .pure _
  | cons ref rest ih =>
    apply (stays_toolsOf still c ref).bind
    intro found
    split
    · exact .pure _
    · next c' tools =>
      apply (ih c').bind
      intro others
      split <;> exact .pure _

theorem stays_turnTools (p : TurnPlan) (c : Conversation) : Stays R (turnTools p c) := by
  apply (stays_toolsOfAll still c p.providerRefs).bind
  intro found
  split
  · exact .pure _
  · dsimp only
    split <;> exact .pure _

theorem stays_invoke (conversation : String) (call : ToolCall) :
    Stays R (invoke conversation call) := by
  unfold invoke
  split
  · exact .pure _
  · split
    · exact .pure _
    · apply (stays_publish still rfl).bind
      intro _
      apply (stays_ask still (.runTool ..)).bind
      intro answer
      exact (stays_publish still rfl).bind fun _ => .pure _

/-! ## Turns -/

theorem stays_answerCall (p : TurnPlan) (c : Conversation) (call : ToolCall)
    (result : ToolResult) : Stays R (answerCall p c call result) :=
  (stays_stamp still).bind fun _ => .pure _

theorem stays_handleCall (p : TurnPlan) (h : Handling) (call : ToolCall) :
    Stays R (handleCall p h call) := by
  have answers (result : ToolResult) (f : Conversation → Handling) :
      Stays R (do return f (← answerCall p h.conversation call result)) :=
    (stays_answerCall still p h.conversation call result).bind fun _ => .pure _
  apply (stays_isToBeCancelled h.conversation).bind
  intro cancel
  split
  · exact answers _ _
  split
  · split <;> exact answers _ _
  split
  · exact (stays_publish still rfl).bind fun _ => .pure _
  · apply (stays_invoke still h.conversation.id call).bind
    intro outcome
    split
    · exact .pure _
    · exact answers _ _

theorem stays_handleCalls (p : TurnPlan) (h : Handling) (calls : List ToolCall) :
    Stays R (handleCalls p h calls) := by
  induction calls generalizing h with
  | nil => exact .pure _
  | cons call rest ih => exact (stays_handleCall still p h call).bind fun h' => ih h'

theorem stays_transcript (systemPrompt : String) (c : Conversation) :
    Stays R (transcript systemPrompt c) := by
  unfold transcript
  split
  · exact .pure _
  · exact (stays_stamp still).bind fun _ => .pure _

theorem stays_converse (p : TurnPlan) (systemPrompt : String) (specs : List DeclaredTool)
    (most left calls : Nat) (c : Conversation) :
    Stays R (converse p systemPrompt specs most left calls c) := by
  induction left generalizing calls c with
  | zero =>
    apply (stays_isToBeCancelled c).bind
    intro cancel
    split <;> exact .pure _
  | succ left ih =>
    apply (stays_isToBeCancelled c).bind
    intro cancel
    split
    · exact .pure _
    apply (stays_transcript still systemPrompt c).bind
    intro messages
    apply (stays_ask still (.complete ..)).bind
    intro answer
    split
    · exact .pure _
    apply (stays_stamp still).bind
    intro s
    dsimp only
    split
    · exact .pure _
    apply (stays_handleCalls still p _ _).bind
    intro h
    split
    · exact (stays_now still).bind fun _ => .pure _
    split
    · exact .pure _
    · exact ih (calls + 1) h.conversation

theorem stays_runTurn (p : TurnPlan) (c : Conversation) : Stays R (runTurn p c) := by
  unfold runTurn
  dsimp only
  split
  · exact .pure _
  · apply (stays_turnTools still p _).bind
    intro found
    split
    · exact .pure _
    · apply stays_situation.bind
      intro s
      exact stays_converse still p _ _ _ _ _ _

/-! ## Nodes -/

theorem stays_runProcess (node : Node) (spec : ProcessSpec) (c : Conversation) :
    Stays R (runProcess node spec c) := by
  apply stays_situation.bind
  intro s
  split
  · exact .pure _
  next plan _ =>
  apply (stays_runTurn still plan c).bind
  intro result
  split <;> exact .pure _

theorem stays_runToolProvider (node : Node) (spec : ProviderSpec) (c : Conversation) :
    Stays R (runToolProvider node spec c) := by
  unfold runToolProvider
  split
  · exact .pure _
  · apply (stays_ask still (.revision _)).bind
    intro revision
    apply (stays_fullListing still _).bind
    intro listed
    split
    · exact .pure _
    · exact .pure _
    · exact (stays_now still).bind fun now => .pure _

theorem stays_visit (node : Node) (c : Conversation) : Stays R (visit node c) := by
  unfold visit
  split
  · exact (stays_now still).bind fun now => .pure _
  · exact stays_runProcess still node _ c
  · exact stays_runToolProvider still node _ c
  · exact (stays_now still).bind fun now => .pure _

end Still

end Engine

end DialogueEngine
