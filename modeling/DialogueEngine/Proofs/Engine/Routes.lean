import DialogueEngine.Proofs.Engine.Routing
import DialogueEngine.Proofs.Flow.Conversion
import DialogueEngine.Proofs.Interaction.Reaching
import DialogueEngine.Proofs.Tool.Clients

/-!
The routes that a process offers. Each way out of a node with several is offered to the model as a
tool; the names of these tools are made from the labels of the routes, and two labels may make the
same name.
-/

namespace DialogueEngine

/-! ## Names -/

namespace OfferedTool

/-- The names of distinct tools are distinct, and none has been seen. -/
theorem distinct_names (seen : List String) (tools : List OfferedTool) :
    ((distinct seen tools).map name).Nodup ∧ ∀ t ∈ distinct seen tools, t.name ∉ seen := by
  induction tools generalizing seen with
  | nil => exact ⟨List.nodup_nil, fun t member => absurd member List.not_mem_nil⟩
  | cons first rest ih =>
    unfold distinct
    split
    · exact ih seen
    · next new =>
      obtain ⟨nodup, fresh⟩ := ih (first.name :: seen)
      refine ⟨?_, ?_⟩
      · rw [List.map_cons, List.nodup_cons]
        refine ⟨?_, nodup⟩
        intro again
        obtain ⟨t, member, same⟩ := List.mem_map.1 again
        exact fresh t member (same ▸ List.mem_cons_self)
      · intro t member
        rcases List.mem_cons.1 member with rfl | later
        · simpa using new
        · exact fun inside => fresh t later (List.mem_cons_of_mem _ inside)

end OfferedTool

/-- The listings that a conversation keeps have their tools under the names that are made for
them. -/
def Conversation.Stocked (c : Conversation) : Prop :=
  ∀ provider tools, c.cache.get? provider = some tools →
    ∀ t ∈ tools, t.name = ToolName.ofTool provider t.listedName

theorem Listed.name {c : Conversation} (stocked : c.Stocked) {past : List Exchange}
    {provider : String} {listing : List OfferedTool} (listed : Listed c past provider listing)
    {t : OfferedTool} (member : t ∈ listing) :
    t.name = ToolName.ofTool provider t.listedName := by
  rcases listed with ⟨revision, kept⟩ | ⟨tools, -, rfl⟩
  · unfold Conversation.keptListing at kept
    split at kept
    · exact stocked provider listing kept t member
    · cases kept
  · obtain ⟨tool, -, rfl⟩ := OfferedTool.mem_ofListing member
    rfl

namespace TurnPlan

variable {p : TurnPlan} {c : Conversation} {past : List Exchange}

/-- No tool of a provider is offered under the name of a route. -/
theorem Offers.plain (stocked : c.Stocked) {t : OfferedTool} (offers : p.Offers c past t) :
    ToolName.isRoute t.name = false := by
  obtain ⟨r, -, -, listing, listed, inside⟩ := offers.bound
  rw [listed.name stocked inside]
  exact ToolName.isRoute_ofTool _ _

/-- The tools that a turn declares to the model. -/
structure Declares (p : TurnPlan) (c : Conversation) (past : List Exchange)
    (tools : List DeclaredTool) : Prop where
  advertises : p.Advertises c past tools
  distinct : ∃ specs, (specs.map DeclaredTool.name).Nodup ∧
    tools = specs ++ p.handoffs.map Handoff.declare

/-- Where the routes have names of their own, so has every tool that is declared. -/
theorem Declares.nodup {tools : List DeclaredTool} (declares : p.Declares c past tools)
    (stocked : c.Stocked)
    (routes : ∀ route ∈ p.handoffs, ToolName.isRoute route.toolName = true)
    (distinct : (p.handoffs.map Handoff.toolName).Nodup) :
    (tools.map DeclaredTool.name).Nodup := by
  obtain ⟨seen, specs, declared, rfl, offers⟩ := declares.advertises
  obtain ⟨specs', nodup, same⟩ := declares.distinct
  obtain rfl := List.append_cancel_right same
  have handoffs : (p.handoffs.map Handoff.declare).map DeclaredTool.name =
      p.handoffs.map Handoff.toolName := by
    rw [List.map_map]
    rfl
  rw [List.map_append, handoffs]
  refine List.nodup_append.2 ⟨nodup, distinct, ?_⟩
  rintro name tool _ handoff rfl
  obtain ⟨route, member, rfl⟩ := List.mem_map.1 handoff
  obtain ⟨d, inside, same⟩ := List.mem_map.1 tool
  obtain ⟨definition, listed, named⟩ := ListedTool.declareAll_names declared d inside
  obtain ⟨t, offered, rfl⟩ := List.mem_map.1 listed
  have plain : ToolName.isRoute d.name = false := named ▸ (offers t offered).plain stocked
  rw [same, routes route member] at plain
  cases plain

end TurnPlan

namespace Engine

variable {p : TurnPlan}

/-! ## What a turn declares -/

/-- The tools of providers that a turn finds have names of their own. -/
theorem turnTools_distinct (p : TurnPlan) (c : Conversation) :
    Activity.Yields (fun _ => True) (turnTools p c) fun found =>
      ∀ tools, found.2 = .ok tools → ∃ specs, (specs.map DeclaredTool.name).Nodup ∧
        tools = specs ++ p.handoffs.map Handoff.declare := by
  apply (Activity.Yields.always (toolsOfAll c p.providerRefs)).bind
  rintro ⟨c', found⟩ -
  match found with
  | .error f => exact .pure fun _ given => nomatch given
  | .ok tools =>
    have allowed : (p.allowed (OfferedTool.distinct [] tools)).Sublist
        (OfferedTool.distinct [] tools) := by
      unfold TurnPlan.allowed
      split
      · exact .refl _
      · exact List.filter_sublist
    dsimp only
    split
    · exact .pure fun _ given => nomatch given
    · next specs declared =>
      apply Activity.Yields.pure
      rintro all (- | -)
      refine ⟨specs, ?_, rfl⟩
      rw [ListedTool.declareAll_map_name declared, List.map_map]
      exact (OfferedTool.distinct_names [] tools).1.sublist (allowed.map _)

/-! ## Calls of a completion -/

theorem yields_invoke (conversation : String) (call : ToolCall) :
    Activity.Yields (fun q => q.isRun = true) (invoke conversation call) fun _ => True := by
  unfold invoke
  split
  · exact .pure trivial
  split
  · exact .pure trivial
  · exact fun s => ⟨trivial, rfl, fun answer s' _ => trivial⟩

/-- What is done for calls leaves the listings alone that the conversation keeps. -/
theorem yields_handleCall (p : TurnPlan) (h : Handling) (call : ToolCall) :
    Activity.Yields (fun q => q.isRun = true) (handleCall p h call) fun h' =>
      h'.conversation.shelf = h.conversation.shelf := by
  have answers (result : ToolResult) (route : Option String) :
      Activity.Yields (fun q => q.isRun = true)
        (do
          let c ← answerCall p h.conversation call result
          return ⟨c, h.gated, route⟩ : Engine Handling)
        fun h' => h'.conversation.shelf = h.conversation.shelf := fun _ => rfl
  have looks : Activity.Yields (fun q => q.isRun = true) (isToBeCancelled h.conversation)
      fun _ => True :=
    .of_ends fun s =>
      (isToBeCancelled_ends h.conversation s).mono (fun _ => id) fun _ _ _ => trivial
  apply looks.bind
  intro cancelled _
  split
  · exact answers _ _
  split
  · split <;> exact answers _ _
  split
  · exact fun _ => rfl
  · apply (yields_invoke h.conversation.id call).bind
    intro outcome _
    split
    · exact .pure rfl
    · exact answers _ _

theorem yields_handleCalls (p : TurnPlan) (h : Handling) (calls : List ToolCall) :
    Activity.Yields (fun q => q.isRun = true) (handleCalls p h calls) fun h' =>
      h'.conversation.shelf = h.conversation.shelf := by
  induction calls generalizing h with
  | nil => exact .pure rfl
  | cons call rest ih =>
    apply (yields_handleCall p h call).bind
    intro h' same
    rw [← same]
    exact ih h'

/-- A call of a route that is there chooses it, unless the conversation is to be cancelled. -/
theorem handleCall_route {h : Handling} {call : ToolCall} {route : Handoff} {s : Situation}
    (named : ToolName.isRoute call.name = true)
    (found : p.handoffs.find? (fun route => route.toolName = call.name) = some route)
    (live : h.conversation.cancelled = false)
    (calm : s.cancelRequests.contains h.conversation.id = false) :
    (handleCall p h call s).Ends fun h' _ =>
      h'.gated = h.gated ∧ h'.handoff = (h.handoff <|> some route.label) := by
  apply Activity.meets_bind (isToBeCancelled_ends h.conversation s)
  rintro cancelled s' ⟨rfl, same⟩
  rw [live, calm] at same
  rw [same, if_neg (by decide), if_pos named, found]
  exact ⟨rfl, rfl⟩

/-- A completion with one call, of a route that is there, makes a turn end on that route, unless the
conversation is to be cancelled by then. -/
def TakesRoutes (p : TurnPlan) (id : String)
    (goesOn : Except ModelFailure Completion → Situation →
      Interaction Situation Question Answer (Conversation × Except Failure TurnOutcome)) : Prop :=
  ∀ (route : Handoff) (content : String) (call : ToolCall) (s : Situation),
    ToolName.isRoute call.name = true →
    p.handoffs.find? (fun route => route.toolName = call.name) = some route →
    s.cancelRequests.contains id = false →
    (goesOn (.ok ⟨content, [call]⟩) s).Ends fun result _ =>
      ∃ calls, result.2 = .ok (.handoff route.label calls)

/-- Wherever a part of a turn asks the model, the tools are such as it may offer, and the answer may
take a route. -/
def Offering (p : TurnPlan) (id : String) (offers : List DeclaredTool → Prop)
    (x : Engine (Conversation × Except Failure TurnOutcome)) : Prop :=
  ∀ s s₁ model messages tools goesOn,
    (x s).Reaches (.ask s₁ (.complete model messages tools) goesOn) →
      offers tools ∧ TakesRoutes p id goesOn

namespace Offering

variable {α : Type} {id : String} {offers : List DeclaredTool → Prop}

theorem pure (result : Conversation × Except Failure TurnOutcome) :
    Offering p id offers (Pure.pure result) :=
  fun _ _ _ _ _ _ asked => nomatch asked

theorem bind {x : Engine α} {f : α → Engine (Conversation × Except Failure TurnOutcome)}
    {asks : Question → Prop} {mid : α → Prop} (first : Activity.Yields asks x mid)
    (silent : ∀ model messages tools, ¬ asks (.complete model messages tools))
    (later : ∀ a, mid a → Offering p id offers (f a)) : Offering p id offers (x >>= f) := by
  intro s s₁ model messages tools goesOn asked
  obtain ⟨a, s', holds, asked⟩ :=
    Activity.reaches_bind (first s) (silent model messages tools) asked
  exact later a holds s' s₁ model messages tools goesOn asked

theorem bind_ends {x : Engine α} {f : α → Engine (Conversation × Except Failure TurnOutcome)}
    {mid : α → Prop} (first : ∀ s, (x s).Ends fun a _ => mid a)
    (later : ∀ a, mid a → Offering p id offers (f a)) : Offering p id offers (x >>= f) :=
  bind (.of_ends first : Activity.Yields (fun _ => False) x mid) (fun _ _ _ => not_false) later

theorem complete {model : String} {messages : List Message} {tools : List DeclaredTool}
    {f : Except ModelFailure Completion → Engine (Conversation × Except Failure TurnOutcome)}
    (offered : offers tools) (takes : TakesRoutes p id f)
    (later : ∀ answer, Offering p id offers (f answer)) :
    Offering p id offers (ask (.complete model messages tools) >>= f) := by
  intro s s₁ model' messages' tools' goesOn asked
  cases asked with
  | here => exact ⟨offered, takes⟩
  | answered answer s' asked => exact later answer s' s₁ model' messages' tools' goesOn asked

end Offering

theorem offering_converse {offers : List DeclaredTool → Prop} {specs : List DeclaredTool}
    (offered : offers specs) (systemPrompt : String) (most left calls : Nat) (c : Conversation) :
    Offering p c.id offers (converse p systemPrompt specs most left calls c) := by
  have looks (c : Conversation) (s : Situation) : (isToBeCancelled c s).Ends fun cancelled _ =>
      cancelled = false → c.cancelled = false := by
    refine (isToBeCancelled_ends c s).mono (fun _ => id) ?_
    rintro cancelled s' ⟨-, rfl⟩ going
    exact (Bool.or_eq_false_iff.1 going).1
  have stamps (s : Situation) : (stamp s).Ends fun _ _ => True := trivial
  induction left generalizing calls c with
  | zero =>
    apply Offering.bind_ends (looks c)
    intro cancelled _
    split <;> exact .pure _
  | succ left ih =>
    apply Offering.bind_ends (looks c)
    intro cancelled live
    split
    · exact .pure _
    next goesOn =>
    have prompts (s : Situation) : (transcript systemPrompt c s).Ends fun _ _ => True := by
      unfold transcript
      split <;> trivial
    apply Offering.bind_ends prompts
    intro messages _
    apply Offering.complete offered
    · intro route content call s named found calm
      dsimp only
      have stamped : (stamp s).Ends fun _ s' => s'.cancelRequests = s.cancelRequests := rfl
      apply Activity.meets_bind stamped
      intro stamp s' same
      have treated : (handleCalls p ⟨c.push ((Message.assistant content [call] stamp).saidAt p.node)
          stamp.instant, [], none⟩ [call] s').Ends fun h _ =>
            h.gated = [] ∧ h.handoff = some route.label := by
        apply Activity.meets_bind (handleCall_route named found (live (eq_false_of_ne_true goesOn))
          (same ▸ calm))
        intro h s'' holds
        exact holds
      apply Activity.meets_bind treated
      rintro h s'' ⟨ungated, chosen⟩
      rw [ungated, chosen]
      exact ⟨calls + 1, rfl⟩
    · intro answer
      split
      · exact .pure _
      next completion =>
      apply Offering.bind_ends stamps
      intro stamp _
      split
      · exact .pure _
      apply Offering.bind (yields_handleCalls p _ completion.toolCalls)
        (fun _ _ _ => Bool.false_ne_true)
      intro h same
      split
      · have nows (s : Situation) : (now s).Ends fun _ _ => True := trivial
        exact Offering.bind_ends nows fun _ _ => .pure _
      split
      · exact .pure _
      · have later := ih (calls + 1) h.conversation
        have named : h.conversation.id = c.id := congrArg (·.1) same
        rwa [named] at later

/-- A turn finds its tools by asking about providers, and then declares them. -/
theorem yields_turnTools {c c' : Conversation} (knows : Knows c [] c') (p : TurnPlan) :
    Activity.Yields Question.IsAside (turnTools p c') fun found =>
      found.1.id = c.id ∧ ∀ tools, found.2 = .ok tools → ∃ past, p.Declares c past tools := by
  have allows : AllowsAsides fun _ => Question.IsAside := fun _ _ aside => aside
  have finds : Activity.Yields Question.IsAside (turnTools p c') fun found =>
      ∃ past, Knows c past found.1 ∧ ∀ tools, found.2 = .ok tools → p.Advertises c past tools := by
    intro s
    have calm (s : Situation) : Calm False c.id s := False.elim
    refine ((heeds_turnTools allows knows p s (calm s)).meets calm).mono (fun _ => id) ?_
    rintro found s' ⟨past, -, holds⟩
    exact ⟨past, holds⟩
  intro s
  refine (finds.and (turnTools_distinct p c') s).mono (fun _ => id) ?_
  rintro found s' ⟨⟨past, known, advertises⟩, distinct⟩
  exact ⟨known.id, fun tools given => ⟨past, advertises tools given, distinct tools given⟩⟩

theorem offering_runTurn (p : TurnPlan) (c : Conversation) :
    Offering p c.id (fun tools => ∃ past, p.Declares c past tools) (runTurn p c) := by
  unfold runTurn
  dsimp only
  split
  · exact .pure _
  · apply Offering.bind (yields_turnTools (.opening c none) p) fun _ _ _ => id
    rintro ⟨c', found⟩ ⟨same, declares⟩
    match found with
    | .error f => exact .pure _
    | .ok specs =>
      have looks (s : Situation) : (situation s).Ends fun _ _ => True := trivial
      apply Offering.bind_ends looks
      intro s _
      have named : c'.id = c.id := same
      rw [← named]
      exact offering_converse (declares specs rfl) _ _ _ 0 c'

/-! ## Ways out -/

/-- A chosen route leads along the way out that has its label, if no other has it. -/
theorem next_edge {node : Node} (distinct : (node.successors.map (·.label)).Nodup)
    {way : Successor} (member : way ∈ node.successors) :
    node.next (.edge way.label) = some way.target := by
  have found : node.successor? way.label = some way := find_of_distinct distinct member
  simp [Node.next, Action.runsAgain, Action.text, found]

theorem handoffs_of_plan {settings : Settings} {node : Node} {spec : ProcessSpec}
    {c : Conversation} (planned : TurnPlan.of settings node spec c = .ok p)
    (several : 1 < node.successors.length) :
    p.handoffs = node.successors.map Handoff.ofSuccessor := by
  unfold TurnPlan.of at planned
  split at planned
  · cases planned
  · cases planned
    exact if_pos several

/-- Every way out of a process with several can be chosen, if the labels make names of their own.
Wherever a turn of the process asks the model, the tools that it offers have names of their own, and
there is one for each way out: a completion that calls it alone makes the turn end with an action
that leads to the target of this way out, unless the conversation is to be cancelled by then. -/
theorem ways_out_choosable {f : AuthoredFlow} {g : Graph} (converted : f.toGraph = .ok g)
    {node : Node} (member : node ∈ g.nodes) {spec : ProcessSpec}
    (kind : node.spec = .process spec) (several : 1 < (f.waysOut node.id).length)
    (distinct : ((f.waysOut node.id).map fun e => ToolName.handoff e.label).Nodup)
    {c : Conversation} (stocked : c.Stocked) {s s₁ : Situation} {model : String}
    {messages : List Message} {tools : List DeclaredTool}
    {goesOn : Except ModelFailure Completion → Situation →
      Interaction Situation Question Answer (Conversation × Except Failure Visit)}
    (asked : (visit node c s).Reaches (.ask s₁ (.complete model messages tools) goesOn)) :
    (tools.map DeclaredTool.name).Nodup ∧
    ∀ e ∈ f.waysOut node.id,
      (Handoff.ofSuccessor ⟨e.label, e.target⟩).declare ∈ tools ∧
      ∀ (content : String) (call : ToolCall) (s₂ : Situation),
        call.name = ToolName.handoff e.label → s₂.cancelRequests.contains c.id = false →
        (goesOn (.ok ⟨content, [call]⟩) s₂).Ends fun result _ =>
          ∃ run, result.2 = .ok run ∧ node.next run.action = some e.target := by
  have ways := AuthoredFlow.successors_of_toGraph converted member
  have looks : situation s = .done s s := rfl
  have runs : visit node c = runProcess node spec c := by
    unfold visit
    rw [kind]
  rw [runs, runProcess, Activity.bind_of_done looks] at asked
  cases planned : TurnPlan.of s.settings node spec c with
  | error f =>
    rw [planned] at asked
    cases asked
  | ok p =>
  rw [planned] at asked
  rcases asked.of_andThen with ⟨own, asks, rfl⟩ | ⟨s', ⟨c', result⟩, -, asks⟩
  · obtain ⟨⟨past, declares⟩, takes⟩ := offering_runTurn p c s s₁ model messages tools own asks
    have handoffs := handoffs_of_plan planned (by rwa [ways, List.length_map])
    have names : p.handoffs.map Handoff.toolName =
        (f.waysOut node.id).map fun e => ToolName.handoff e.label := by
      rw [handoffs, ways, List.map_map, List.map_map]
      rfl
    have labels : (node.successors.map (·.label)).Nodup := by
      have named : ((node.successors.map (·.label)).map ToolName.handoff).Nodup := by
        rw [ways, List.map_map, List.map_map]
        exact distinct
      exact List.Pairwise.of_map _ (fun _ _ other same => other (congrArg _ same)) named
    refine ⟨declares.nodup stocked (TurnPlan.handoffs_are_routes planned) (names ▸ distinct), ?_⟩
    intro e leaves
    have way : (⟨e.label, e.target⟩ : Successor) ∈ node.successors := by
      rw [ways]
      exact List.mem_map_of_mem leaves
    have offered : Handoff.ofSuccessor ⟨e.label, e.target⟩ ∈ p.handoffs := by
      rw [handoffs]
      exact List.mem_map_of_mem way
    refine ⟨?_, ?_⟩
    · obtain ⟨specs, -, rfl⟩ := declares.distinct
      exact List.mem_append_right _ (List.mem_map_of_mem offered)
    · intro content call s₂ named calm
      have found : p.handoffs.find? (fun route => route.toolName = call.name) =
          some (Handoff.ofSuccessor ⟨e.label, e.target⟩) := by
        rw [named]
        exact find_of_distinct (names ▸ distinct) offered
      have route := takes _ content call s₂ (named ▸ ToolName.isRoute_handoff e.label) found calm
      apply route.andThen
      rintro ⟨c', result⟩ s₃ ⟨calls, chosen⟩
      obtain rfl : result = .ok (.handoff e.label calls) := chosen
      exact ⟨_, rfl, next_edge labels way⟩
  · cases result <;> cases asks

example : ToolName.handoff "done?" = ToolName.handoff "done!" := by decide

/-- A flow with a process that asks for consent. -/
def consentFlow : AuthoredFlow where
  id := "consent"
  name := "Consent"
  nodes := [⟨"start", "", "start", .null⟩,
    ⟨"agent", "", "process", .object [("boundModel", .string "m")]⟩, ⟨"yes", "", "finish", .null⟩,
    ⟨"no", "", "finish", .null⟩]
  edges := [⟨"e1", "start", "agent", .routing, none⟩, ⟨"e2", "agent", "yes", .routing, some "yes"⟩,
    ⟨"e3", "agent", "no", .routing, some "no"⟩]

/-- The process. -/
def consentNode : Node where
  id := "agent"
  label := ""
  spec := .process { (default : ProcessSpec) with model := some "m" }
  successors := [⟨"yes", "yes"⟩, ⟨"no", "no"⟩]

/-- Whether a computation asks the model first. -/
def asksModel {α : Type} : Interaction Situation Question Answer α → Bool
  | .ask _ (.complete ..) _ => true
  | _ => false

theorem consent_ways_out_choosable : ∃ g spec s₁ model messages tools goesOn,
    consentFlow.toGraph = .ok g ∧ consentNode ∈ g.nodes ∧ consentNode.spec = .process spec ∧
    1 < (consentFlow.waysOut "agent").length ∧
    ((consentFlow.waysOut "agent").map fun e => ToolName.handoff e.label).Nodup ∧
    (default : Conversation).Stocked ∧
    (visit consentNode default default).Reaches (.ask s₁ (.complete model messages tools) goesOn) ∧
    (tools.map DeclaredTool.name).Nodup ∧
    ∀ e ∈ consentFlow.waysOut "agent",
      (Handoff.ofSuccessor ⟨e.label, e.target⟩).declare ∈ tools ∧
      ∀ (content : String) (call : ToolCall) (s₂ : Situation),
        call.name = ToolName.handoff e.label →
        s₂.cancelRequests.contains (default : Conversation).id = false →
        (goesOn (.ok ⟨content, [call]⟩) s₂).Ends fun result _ =>
          ∃ run, result.2 = .ok run ∧ consentNode.next run.action = some e.target := by
  have inside : (consentFlow.toGraph.toOption.map fun g => g.nodes.contains consentNode) =
      some true := by decide +kernel
  have asks : asksModel (visit consentNode default default) = true := by decide +kernel
  cases converted : consentFlow.toGraph with
  | error cause =>
    rw [converted] at inside
    cases inside
  | ok g =>
  rw [converted] at inside
  have member : consentNode ∈ g.nodes := List.contains_iff_mem.1 (Option.some.inj inside)
  have stocked : (default : Conversation).Stocked := fun _ _ found => nomatch found
  have several : 1 < (consentFlow.waysOut "agent").length := by decide
  have distinct : ((consentFlow.waysOut "agent").map fun e => ToolName.handoff e.label).Nodup := by
    decide
  unfold asksModel at asks
  split at asks
  · next s₁ model messages tools goesOn turn =>
    have asked : (visit consentNode default default).Reaches
        (.ask s₁ (.complete model messages tools) goesOn) := turn ▸ .here _
    exact ⟨g, _, s₁, model, messages, tools, goesOn, rfl, member, rfl, several, distinct, stocked,
      asked, ways_out_choosable converted member rfl several distinct stocked asked⟩
  · cases asks

end Engine

end DialogueEngine
