import DialogueEngine.Proofs.Conversation.Recall
import DialogueEngine.Proofs.Engine.Operation

/-!
Whatever happens, every conversation stays coherent: the calls that are pending and the wait for
approval, the failure that is noted and the status of an error, the latest answer and completion
belong together. Reads and writes may be refused at any time, the model and the providers may answer
anything, and operations may be begun while others wait.
-/

namespace DialogueEngine

/-- Conversations are coherent, whether or not what is written is kept and calls are approved. -/
def Regime.coherence (settings : Settings) : Regime where
  keeps := Conversation.Coherent
  sure := False
  gated := False
  settings
  durable := Conversation.durable_coherent
  fresh _ _ _ _ := .of_running rfl rfl rfl
  greeted _ _ _ _ _ _ _ := .of_running rfl rfl rfl
  moves kept moves := moves.coherent kept

/-- In every history of operations on stored conversations, each conversation that the store holds
and each one that is given back is coherent. -/
theorem Unfolds.conversations_coherent {settings : Settings} {store : Store} {clock : Clock}
    {history : List Happening} {scene : Scene} (new : store.IsNew)
    (unfolds : Unfolds (fun _ _ u => u.UsesStore) (.fresh settings store clock) history scene) :
    scene.now.store.Holds Conversation.Coherent ∧
      ∀ h ∈ history, h.now.store.Holds Conversation.Coherent ∧
        ∀ u outcome s, h = .ended u (.ok outcome) s → outcome.Kept Conversation.Coherent := by
  have orderly : (Regime.coherence settings).Orderly (.fresh settings store clock) :=
    Regime.orderly_fresh _ new False.elim clock
  obtain ⟨past, present⟩ := unfolds.keeps (Regime.coherence settings) orderly
      fun _ _ _ _ stored => stored.fits id
  refine ⟨present.now.holds, fun h member => ⟨(past h member).inv_now.holds, ?_⟩⟩
  intro u outcome s same
  subst same
  exact (past _ member).2 outcome rfl

theorem completed_conversation_coherent : ∃ history scene,
    Unfolds (fun _ _ u => u.UsesStore) (.fresh .standard .memory default) history scene ∧
      (scene.now.store.backing.get "c").toOption.join.map (fun c => (c.status, c.lastResponse)) =
        some (.completed, some "Hi") ∧
      scene.now.store.Holds Conversation.Coherent ∧
      ∀ h ∈ history, h.now.store.Holds Conversation.Coherent ∧
        ∀ u outcome s, h = .ended u (.ok outcome) s → outcome.Kept Conversation.Coherent := by
  have nothing : Unfolds (fun _ _ u => u.UsesStore) (.fresh .standard .memory default) []
      ⟨.fresh .standard .memory default, []⟩ := .start
  have registered := nothing.begin (.registration assistantFlow) trivial
  have started := registered.begin
    (.operation (.start (some "c") "assistant" (some "Hello"))) trivial
  have ran := started.begin (.operation (.run "c" 5)) trivial
  have answered := ran.resumed (modelAnswering "Hi" [])
  refine ⟨_, _, answered, ?_, answered.conversations_coherent (.inl rfl)⟩
  decide +kernel

end DialogueEngine
