import DialogueEngine.Proofs.Conversation.Recall
import DialogueEngine.Proofs.Engine.Operation

/-!
What the model is asked to complete. As long as conversations can be written, each transcript that
the model gets is one that it accepts: whichever way the calls of a completion are answered, be it
by a later operation, none is left open and none is answered twice.
-/

namespace DialogueEngine

/-- Conversations account for the calls that are open, as long as everything is written. -/
def Regime.accounting (settings : Settings) : Regime where
  keeps := Conversation.Accountable
  sure := True
  gated := False
  settings
  durable := Conversation.durable_accountable
  fresh _ _ _ _ := ⟨.of_free rfl (by simp [Conversation.fresh]), .of_closed (.refl []) rfl⟩
  greeted _ _ _ _ _ role _ :=
    ⟨.of_free rfl (by simp [Conversation.fresh, Conversation.push]),
      .of_closed (.user role (.refl [])) rfl⟩
  moves kept moves := moves.accountable trivial kept

/-- The transcript that the model is asked to complete. -/
def Happening.transcript? : Happening → Option (List Message)
  | .asked _ (.complete _ messages _) _ => some messages
  | _ => none

/-- In every history of operations on stored conversations in which each write succeeds, the model
is only asked to complete transcripts that it accepts. -/
theorem Unfolds.transcripts_acceptable {settings : Settings} {store : Store} {clock : Clock}
    {history : List Happening} {scene : Scene} (new : store.IsNew) (accepts : store.Accepts)
    (unfolds : Unfolds (fun _ _ u => u.UsesStore) (.fresh settings store clock) history scene) :
    ∀ messages ∈ history.filterMap Happening.transcript?, Transcript.Acceptable messages := by
  have orderly : (Regime.accounting settings).Orderly (.fresh settings store clock) :=
    Regime.orderly_fresh _ new (fun _ => accepts) clock
  have past := (unfolds.keeps (Regime.accounting settings) orderly
    fun _ _ _ _ stored => stored.fits id).1
  intro messages asked
  obtain ⟨h, member, question⟩ := List.mem_filterMap.1 asked
  unfold Happening.transcript? at question
  split at question
  · next u model transcript tools s =>
    obtain rfl : transcript = messages := by simpa using question
    obtain ⟨c, front, added, kept, ready, rfl, system, leads⟩ := (past _ member).2
    have closed := kept.balanced.closed (kept.pauses.pending_eq_nil ready.not_awaiting)
    exact (closed.append leads).acceptable system
  · cases question

theorem answered_calls_acceptable : ∃ history scene,
    Unfolds (fun _ _ u => u.UsesStore) (.fresh .standard .memory default) history scene ∧
      (history.filterMap Happening.transcript?).map (fun messages => messages.map (·.role)) =
        [[.user], [.user, .assistant, .tool, .tool]] ∧
      ∀ messages ∈ history.filterMap Happening.transcript?, Transcript.Acceptable messages := by
  have nothing : Unfolds (fun _ _ u => u.UsesStore) (.fresh .standard .memory default) []
      ⟨.fresh .standard .memory default, []⟩ := .start
  have registered := nothing.begin (.registration assistantFlow) trivial
  have started := registered.begin
    (.operation (.start (some "c") "assistant" (some "Hello"))) trivial
  have ran := started.begin (.operation (.run "c" 5)) trivial
  -- two calls of one id, neither of which can be run
  have asked := ran.resumed
    (modelAnswering "" [⟨"x", "search", .null⟩, ⟨"x", "handoff_to_nowhere", .null⟩])
  have accepts : Store.memory.Accepts := by simp [Store.Accepts, Store.memory]
  refine ⟨_, _, asked, ?_, asked.transcripts_acceptable (.inl rfl) accepts⟩
  decide +kernel

end DialogueEngine
