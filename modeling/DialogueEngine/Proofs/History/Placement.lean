import DialogueEngine.Proofs.Engine.Resumption
import DialogueEngine.Proofs.History.Footing

/-!
Conversations keep their place. As long as no flow that conversations have been started on is
registered again, every conversation that can be read stands within the graph that its flow is
registered as, whatever has happened; and a step goes on exactly there.
-/

namespace DialogueEngine

open Engine (Follows Proceeds Underway)

variable {history : List Happening} {scene : Scene} {flows : Table Graph} {s₀ s s' : Situation}
  {c : Conversation} {flow : String}

/-- A conversation stands within the graph that its flow is registered as. -/
def Conversation.Placed (flows : Table Graph) (c : Conversation) : Prop :=
  ∃ g, flows.get? c.flow = some g ∧ g.Formed ∧ c.Within g

/-- A conversation stands within its graph and is on a flow that will not be registered again. -/
structure Settled (s₀ : Situation) (history : List Happening) (s : Situation) (c : Conversation) :
    Prop where
  placed : c.Placed s.flows
  used : InUse s₀ history c.flow

/-- Conversations stand within their graphs. -/
def Footing.placed (settings : Settings) : Footing where
  settings
  keeps g c := c.Within g
  fresh g id flow now debugMode := Conversation.within_fresh g id flow now debugMode
  durable _ := .of_bare fun _ _ same within =>
    within.of_same (congrArg Conversation.next same :) (congrArg Conversation.current same :)
  amends within amended := amended.within within
  rewinds {_ _ m} within now _ := within.rewound m now
  visits {g c _ _} formed within ready same :=
    (Engine.visit_follows ready (fun _ same => same) _ same).mono (fun _ _ _ => trivial)
      fun _ _ _ visited => within.arrives formed (g.nodeAt_mem (c.next <|> c.current)) visited

namespace Chartering

variable {admits : List Happening → Situation → Undertaking → Prop}

/-- Where flows that are in use are not registered again, conversations keep their places. -/
theorem upheld_placed
    (once : ∀ history s f g, admits history s (.registration f) → f.toGraph = .ok g →
      ¬ InUse s₀ history f.id)
    (handed : ∀ history s c, admits history s (.stepWith c) →
      GivenBack history c ∨ Settled s₀ history s c)
    (formed : ∀ flow g, s₀.flows.get? flow = some g → g.Formed)
    (stored : s₀.store.Holds (Conversation.Placed s₀.flows)) :
    (footed (.placed s₀.settings) s₀).Upheld admits s₀ := by
  refine upheld_footed once (fun history s c admitted => ?_) rfl formed stored
  exact (handed history s c admitted).imp_right fun settled => ⟨settled.placed, settled.used⟩

end Chartering

/-! ## Where steps go on -/

/-- In every history in which flows that are in use are not registered again, what can be read of a
conversation stands within the graph of its flow. A step that runs a node with it, or with whatever
stands within the graph in its place later on, runs the one that the conversation names; and what is
stored then names the node that follows, whoever answers meanwhile. -/
theorem Unfolds.steps_resume_in_place
    {admits : List Happening → Situation → Undertaking → Prop}
    (free : s₀.claimed = []) (sound : s₀.store.Sound)
    (formed : ∀ flow g, s₀.flows.get? flow = some g → g.Formed)
    (stored : s₀.store.Holds (Conversation.Placed s₀.flows))
    (once : ∀ history s f g, admits history s (.registration f) → f.toGraph = .ok g →
      ¬ InUse s₀ history f.id)
    (handed : ∀ history s c, admits history s (.stepWith c) →
      GivenBack history c ∨ Settled s₀ history s c)
    (unfolds : Unfolds admits s₀ history scene) {id : String}
    (found : scene.now.store.backing.get id = .ok (some c)) :
    ∃ g, scene.now.flows.get? c.flow = some g ∧ g.Formed ∧ c.Within g ∧
      ((Engine.step id scene.now).Meets
        (Underway c (g.nodeAt (c.next <|> c.current)) scene.now) (fun _ => True)
        fun reply s => (∃ f, reply = .error f ∧ s.starts id = scene.now.starts id) ∨
          ∃ o, reply = .ok o ∧ Proceeds g c scene.now o s ∧ Follows g c o.conversation) ∧
      ∀ d s, Follows g c d → s.flows.get? d.flow = some g →
        (Engine.advance d s).Meets (Underway d (g.nodeAt (d.next <|> d.current)) s) (fun _ => True)
          fun o s' => Proceeds g d s o s' ∧ Follows g d o.conversation := by
  have upheld := Chartering.upheld_placed once handed formed stored
  obtain ⟨-, ⟨-, settled, -⟩, -⟩ := upheld.unfolds free sound unfolds
  have sound' := (unfolds.tended False free sound False.elim False.elim).2.1.sound
  have own := sound'.id_eq found
  obtain ⟨g, known, formed', within⟩ := (settled id c found).placed
  refine ⟨g, known, formed', within, Engine.step_proceeds found own known formed' within, ?_⟩
  intro d s follows known'
  exact Engine.advance_proceeds known' formed' follows.within rfl rfl

/-- Begins what uses the store, and registers no flow that conversations are on. -/
def Undertaking.Fresh (s₀ : Situation) (history : List Happening) (_ : Situation)
    (u : Undertaking) : Prop :=
  u.UsesStore ∧ ∀ f, u = .registration f → ¬ InUse s₀ history f.id

theorem found_of_map {α : Type} {x : Except Failure (Option Conversation)} {f : Conversation → α}
    {a : α} (mapped : x.map (·.map f) = .ok (some a)) : ∃ c, x = .ok (some c) ∧ f c = a := by
  rcases x with _ | _ | c
  · cases mapped
  · cases mapped
  · exact ⟨c, rfl, Option.some.inj (Except.ok.inj mapped)⟩

/-- A conversation that has left the start goes on at the agent. -/
theorem greeted_conversation_resumes_at_agent : ∃ history scene c g,
    Unfolds (Undertaking.Fresh (.fresh .standard .memory default))
        (.fresh .standard .memory default) history scene ∧
      scene.now.store.backing.get "c" = .ok (some c) ∧ c.next = some "agent" ∧
      scene.now.flows.get? c.flow = some g ∧ g.Formed ∧ c.Within g ∧
      ((Engine.step "c" scene.now).Meets
        (Underway c (g.nodeAt (c.next <|> c.current)) scene.now) (fun _ => True)
        fun reply s => (∃ f, reply = .error f ∧ s.starts "c" = scene.now.starts "c") ∨
          ∃ o, reply = .ok o ∧ Proceeds g c scene.now o s ∧ Follows g c o.conversation) ∧
      ∀ d s, Follows g c d → s.flows.get? d.flow = some g →
        (Engine.advance d s).Meets (Underway d (g.nodeAt (d.next <|> d.current)) s) (fun _ => True)
          fun o s' => Proceeds g d s o s' ∧ Follows g d o.conversation := by
  have new : Store.memory.IsNew := .inl rfl
  obtain ⟨history, scene, stepped, next⟩ : ∃ history scene,
      Unfolds (Undertaking.Fresh (.fresh .standard .memory default))
        (.fresh .standard .memory default) history scene ∧
      (scene.now.store.backing.get "c").map (·.map (·.next)) = .ok (some (some "agent")) := by
    have nothing : Unfolds (Undertaking.Fresh (.fresh .standard .memory default))
        (.fresh .standard .memory default) [] ⟨.fresh .standard .memory default, []⟩ := .start
    have unused : ¬ InUse (.fresh .standard .memory default) [] assistantFlow.id := by
      rintro (⟨id, c, found, -⟩ | ⟨chosen, message, outcome, s, ended⟩)
      · exact new.holds (fun _ => False) id c found
      · cases ended
    have registered := nothing.begin (.registration assistantFlow)
      ⟨trivial, fun f same => by cases same; exact unused⟩
    have started := registered.begin
      (.operation (.start (some "c") "assistant" (some "Hello"))) ⟨trivial, nofun⟩
    have stepped := started.begin (.operation (.step "c")) ⟨trivial, nofun⟩
    exact ⟨_, _, stepped, by decide +kernel⟩
  obtain ⟨c, found, next⟩ := found_of_map next
  obtain ⟨g, placed⟩ := stepped.steps_resume_in_place rfl new.sound
    (fun flow g known => by cases known) (new.holds _) (fun _ _ f _ admitted _ => admitted.2 f rfl)
    (fun _ _ _ admitted => admitted.1.elim) found
  exact ⟨history, scene, c, g, stepped, found, next, placed⟩

end DialogueEngine
