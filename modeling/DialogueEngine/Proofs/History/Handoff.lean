import DialogueEngine.Proofs.History.Pausing
import DialogueEngine.Proofs.History.Placement

/-!
Routes outlast pauses. A route that is chosen in a turn that pauses for approval is left to be taken
by the process that offers it, and as long as no flow that conversations have been started on is
registered again, it is left nowhere else; once the calls have been answered, the process is run
again and takes it.
-/

namespace DialogueEngine

open Engine (Awaits Biding Departs Serene)
open Exchange (completionsIn)

variable {history : List Happening} {scene : Scene} {s₀ : Situation} {c : Conversation}

/-- Routes that are left to be taken are offered where conversations stand. -/
def Footing.bound (settings : Settings) : Footing where
  settings
  keeps g c := c.Bound settings g
  fresh _ _ _ _ _ := .of_unrouted rfl
  durable g := Conversation.durable_bound settings g
  amends bound amended := bound.amends amended
  rewinds bound now needed := bound.rewound now needed
  visits {g c _ past} formed bound _ same := by
    have leaves := Engine.visit_leavesRoute (g.nodeAt (c.next <|> c.current)) c.leavePause same
    rw [← List.append_nil past]
    exact leaves.shift past (fun _ _ _ => trivial) fun _ _ _ leaves => bound.arrives formed leaves

/-- In every history in which flows that are in use are not registered again, a route that is left
to be taken by a conversation that can be read is offered by the process where the conversation
stands and goes on. Suppose that a step with a conversation of its flow gets a completion some of
whose calls have to wait for approval and some of whose calls name routes that are offered. Then the
step pauses for the former and leaves the first of the latter to be taken. Whatever is posted
meanwhile, in whatever order and whichever way the calls are decided about, and whoever records
steps, as long as the flow stays registered, nobody asks to cancel and the store refuses nothing:
the step after the last answer runs the process again and leaves along the first way out with the
label of that route, without asking anybody. -/
theorem Unfolds.routes_outlast_pauses
    {admits : List Happening → Situation → Undertaking → Prop}
    (free : s₀.claimed = []) (sound : s₀.store.Sound)
    (formed : ∀ flow g, s₀.flows.get? flow = some g → g.Formed)
    (stored : s₀.store.Holds ((Footing.bound s₀.settings).Holds s₀.flows))
    (once : ∀ history s f g, admits history s (.registration f) → f.toGraph = .ok g →
      ¬ InUse s₀ history f.id)
    (handed : ∀ history s c, admits history s (.stepWith c) →
      GivenBack history c ∨ (Footing.bound s₀.settings).Settles s₀ history s c)
    (unfolds : Unfolds admits s₀ history scene) {id : String}
    (found : scene.now.store.backing.get id = .ok (some c)) :
    ∃ g, scene.now.flows.get? c.flow = some g ∧ g.Formed ∧
      (∀ label, c.handoff = some label → ∃ node ∈ g.nodes,
        node.Offers s₀.settings label ∧ c.next = some node.id ∧ c.current = some node.id) ∧
      ∀ d s node spec p, Serene s₀.settings id c.flow g s → d.id = id → d.flow = c.flow →
        g.nodeAt (d.next <|> d.current) = node → node.spec = .process spec →
        TurnPlan.of s₀.settings node spec d = .ok p →
        (Engine.advance d s).Follows (Serene s₀.settings id c.flow g) (fun _ _ => True)
          (fun past o s₁ => ∀ completion ∈ completionsIn past,
            completion.toolCalls.filter p.gates ≠ [] →
            ∀ label, p.chosen completion.toolCalls = some label →
              Awaits s₀.settings id c.flow g node label
                (completion.toolCalls.filter p.gates) o s₁ ∧
              ∀ s₂ e, Biding s₀.settings id c.flow g s₁ s₂ → id ∉ s₂.claimed →
                s₂.store.backing.get id = .ok (some e) → e.pending = [] →
                (Engine.step id s₂).Ends fun reply s₃ =>
                  ∃ o', reply = .ok o' ∧ Departs id node label o' s₂ s₃) [] := by
  have upheld := Chartering.upheld_footed once handed rfl formed stored
  obtain ⟨-, ⟨-, settled, -⟩, -⟩ := upheld.unfolds free sound unfolds
  obtain ⟨g, known, formed', bound⟩ := (settled id c found).placed
  refine ⟨g, known, formed', fun label routed => (bound label routed).2, ?_⟩
  rintro d s node spec p serene named onFlow rfl kind planned
  refine (Engine.advance_awaits serene named onFlow kind planned).mono
    (fun _ _ obeys => obeys) ?_
  intro past o s₁ awaits completion member waits label chosen
  have awaits := awaits completion member waits label chosen
  refine ⟨awaits, fun s₂ e biding free' found' answered => ?_⟩
  have offers : (g.nodeAt (d.next <|> d.current)).Offers s₀.settings label := by
    obtain ⟨call, -, gated⟩ := List.exists_mem_of_ne_nil _ waits |>.imp fun call member =>
      List.mem_filter.1 member
    exact .of_plan kind planned ((TurnPlan.gates_iff call).1 gated).1
      (TurnPlan.offers_of_chosen chosen)
  exact Engine.step_departs (awaits.stands.bides biding) formed' (g.nodeAt_mem _) offers free'
    found' answered

/-- A flow whose agent has its calls approved and hands conversations off to two desks. -/
def deskFlow : AuthoredFlow where
  id := "desk"
  name := "Desk"
  nodes := [⟨"start", "Start", "start", .null⟩,
    ⟨"agent", "Agent", "process",
      .object [("boundModel", .string "m"), ("requireApproval", .bool true)]⟩,
    ⟨"billing", "Billing", "finish", .null⟩, ⟨"support", "Support", "finish", .null⟩]
  edges := [⟨"e1", "start", "agent", .routing, none⟩,
    ⟨"e2", "agent", "billing", .routing, some "bill"⟩,
    ⟨"e3", "agent", "support", .routing, some "help"⟩]

/-- A flow of the same name without the agent. -/
def deskClosed : AuthoredFlow where
  id := "desk"
  name := "Desk"
  nodes := [⟨"start", "Start", "start", .null⟩, ⟨"closed", "Closed", "finish", .null⟩]
  edges := [⟨"e1", "start", "closed", .routing, none⟩]

/-- A search that has to wait, and the choice of a route. -/
def deskCalls : List ToolCall :=
  [⟨"x", "_-_-_search_-_-_find", .null⟩, ⟨"y", "handoff_to_bill", .null⟩]

def deskSpec : ProcessSpec where
  promptTemplate := ""
  model := some "m"
  allowedTools := []
  providerRefs := []
  excludeModelPrompt := false
  excludeStartPrompt := false
  requireApproval := true

def deskAgent : Node :=
  ⟨"agent", "Agent", .process deskSpec, [⟨"bill", "billing"⟩, ⟨"help", "support"⟩]⟩

/-- What a turn of the agent is to do. -/
def deskPlan : TurnPlan where
  node := "agent"
  model := "m"
  template := ""
  startPrompt := none
  modelPrompt := none
  allowedTools := []
  providerRefs := []
  requireApproval := true
  handoffs := [⟨"handoff_to_bill", "bill"⟩, ⟨"handoff_to_help", "help"⟩]

/-- A conversation that goes on at the agent. -/
def deskVisitor : Conversation :=
  { Conversation.fresh "c" "desk" default with next := some "agent" }

/-- The agent pauses for the search and then leaves along the route that it has chosen. -/
theorem desk_route_outlasts_pause : ∃ history scene c g,
    Unfolds (Undertaking.Fresh (.fresh .standard .memory default))
        (.fresh .standard .memory default) history scene ∧
      scene.now.store.backing.get "c" = .ok (some c) ∧ c.handoff = some "bill" ∧
      scene.now.flows.get? c.flow = some g ∧
      (∃ node ∈ g.nodes, node.Offers .standard "bill" ∧ c.next = some node.id ∧
        c.current = some node.id) ∧
      deskCalls.filter deskPlan.gates = deskCalls.take 1 ∧
      deskPlan.chosen deskCalls = some "bill" ∧
      (Engine.advance deskVisitor scene.now).Follows (Serene .standard "c" c.flow g)
        (fun _ _ => True) (fun past o s₁ => ∀ completion ∈ completionsIn past,
          completion.toolCalls.filter deskPlan.gates ≠ [] →
          ∀ label, deskPlan.chosen completion.toolCalls = some label →
            Awaits .standard "c" c.flow g deskAgent label
              (completion.toolCalls.filter deskPlan.gates) o s₁ ∧
            ∀ s₂ e, Biding .standard "c" c.flow g s₁ s₂ → "c" ∉ s₂.claimed →
              s₂.store.backing.get "c" = .ok (some e) → e.pending = [] →
              (Engine.step "c" s₂).Ends fun reply s₃ =>
                ∃ o', reply = .ok o' ∧ Departs "c" deskAgent label o' s₂ s₃) [] := by
  have new : Store.memory.IsNew := .inl rfl
  obtain ⟨history, scene, paused, stored, placed, settings, calm, reads, writes⟩ :
      ∃ history scene,
        Unfolds (Undertaking.Fresh (.fresh .standard .memory default))
          (.fresh .standard .memory default) history scene ∧
        (scene.now.store.backing.get "c").map (·.map fun c => (c.flow, c.handoff)) =
          .ok (some ("desk", some "bill")) ∧
        ((scene.now.flows.get? "desk").map fun g => g.nodeAt (some "agent")) = some deskAgent ∧
        scene.now.settings = .standard ∧ "c" ∉ scene.now.cancelRequests ∧
        scene.now.store.readRefusals = [] ∧ scene.now.store.writeRefusals = [] := by
    have nothing : Unfolds (Undertaking.Fresh (.fresh .standard .memory default))
        (.fresh .standard .memory default) [] ⟨.fresh .standard .memory default, []⟩ := .start
    have unused : ¬ InUse (.fresh .standard .memory default) [] deskFlow.id := by
      rintro (⟨id, c, found, -⟩ | ⟨chosen, message, outcome, s, ended⟩)
      · exact new.holds (fun _ => False) id c found
      · cases ended
    have registered := nothing.begin (.registration deskFlow)
      ⟨trivial, fun f same => by cases same; exact unused⟩
    have started := registered.begin
      (.operation (.start (some "c") "desk" (some "Hello"))) ⟨trivial, nofun⟩
    have stepped := started.begin (.operation (.step "c")) ⟨trivial, nofun⟩
    have asked := stepped.begin (.operation (.step "c")) ⟨trivial, nofun⟩
    have paused := asked.resumed (modelAnswering "" deskCalls)
    exact ⟨_, _, paused, by decide +kernel, by decide +kernel, by decide +kernel,
      by decide +kernel, by decide +kernel, by decide +kernel⟩
  obtain ⟨c, found, routed⟩ := found_of_map stored
  obtain ⟨onFlow, routed⟩ := Prod.mk.inj routed
  obtain ⟨g, known, -, bound, outlasts⟩ := paused.routes_outlast_pauses rfl new.sound
    (fun flow g known => by cases known) (new.holds _) (fun _ _ f _ admitted _ => admitted.2 f rfl)
    (fun _ _ _ admitted => admitted.1.elim) found
  refine ⟨history, scene, c, g, paused, found, routed, known, bound "bill" routed,
    by decide +kernel, by decide +kernel, ?_⟩
  have agent : g.nodeAt (some "agent") = deskAgent := by
    rw [← onFlow, known] at placed
    exact Option.some.inj placed
  exact outlasts deskVisitor scene.now deskAgent deskSpec deskPlan
    ⟨settings, known, calm, reads, writes, fun _ => False.elim⟩ rfl onFlow.symm agent rfl rfl

/-- Where a flow that is in use is registered again without the agent, a route can be left to be
taken that the conversation is nowhere near. -/
theorem closed_desk_strands_route : ∃ history scene c,
    Unfolds (fun _ _ u => u.UsesStore) (.fresh .standard .memory default) history scene ∧
      scene.now.store.backing.get "c" = .ok (some c) ∧ c.handoff = some "bill" ∧
      c.next = some "closed" ∧ c.current = some "start" := by
  obtain ⟨history, scene, went, stored⟩ : ∃ history scene,
      Unfolds (fun _ _ u => u.UsesStore) (.fresh .standard .memory default) history scene ∧
        (scene.now.store.backing.get "c").map (·.map fun c => (c.handoff, c.next, c.current)) =
          .ok (some (some "bill", some "closed", some "start")) := by
    have nothing : Unfolds (fun _ _ u => u.UsesStore) (.fresh .standard .memory default) []
      ⟨.fresh .standard .memory default, []⟩ := .start
    have registered := nothing.begin (.registration deskFlow) trivial
    have started := registered.begin
      (.operation (.start (some "c") "desk" (some "Hello"))) trivial
    have stepped := started.begin (.operation (.step "c")) trivial
    have asked := stepped.begin (.operation (.step "c")) trivial
    have paused := asked.resumed (modelAnswering "" deskCalls)
    have refused := paused.begin (.operation (.resolve "c" "x" (.reject none))) trivial
    have replaced := refused.begin (.registration deskClosed) trivial
    have went := replaced.begin (.operation (.step "c")) trivial
    exact ⟨_, _, went, by decide +kernel⟩
  obtain ⟨c, found, facts⟩ := found_of_map stored
  obtain ⟨routed, places⟩ := Prod.mk.inj facts
  obtain ⟨next, current⟩ := Prod.mk.inj places
  exact ⟨history, scene, c, went, found, routed, next, current⟩

end DialogueEngine
