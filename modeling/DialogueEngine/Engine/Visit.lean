import DialogueEngine.Engine.Turn

/-!
Running a node. Each kind of node is prepared, executed and brought to an action; what was prepared
and what came of it can be kept as values in the record of a step.
-/

namespace DialogueEngine

/-- What a node was prepared with. -/
inductive Prepared where
  | start (prompt : String)
  | process (plan : TurnPlan)
  | toolProvider (ref : ProviderRef)
  | finish
  deriving DecidableEq

/-- What came of executing a node. -/
inductive Executed where
  | start (prompt : String)
  | process (outcome : TurnOutcome)
  /-- The listing was passed over where `skipped` is set. -/
  | toolProvider (provider : String) (tools : List OfferedTool) (skipped : Bool)
  | finish
  deriving DecidableEq

namespace Prepared

def toJson : Prepared → Json
  | .start prompt => .object [("kind", .string "start"), ("prompt", .string prompt)]
  | .process plan => plan.toJson
  | .toolProvider ref =>
    .object [("kind", .string "tool_provider"), ("provider_ref", ref.toJson)]
  | .finish => .object [("kind", .string "finish")]

end Prepared

namespace Executed

def toJson : Executed → Json
  | .start prompt => .object [("kind", .string "start"), ("prompt", .string prompt)]
  | .process outcome => .object [("kind", .string "process"), ("outcome", outcome.toJson)]
  | .toolProvider provider tools skipped =>
    .object [("kind", .string "tool_provider"), ("provider", .string provider),
      ("skipped", .bool skipped), ("tools", .array (tools.map OfferedTool.toJson))]
  | .finish => .object [("kind", .string "finish")]

end Executed

/-- All that one run of a node produced. -/
structure Visit where
  action : Action
  prepared : Prepared
  executed : Executed
  deriving DecidableEq

namespace Conversation

/-- Keeps the prompt of a start, unless it is blank. -/
def withStartPrompt (c : Conversation) (prompt : String) (now : Instant) : Conversation :=
  { c with
    startPrompt := if Text.isBlankText prompt then none else some prompt
    updatedAt := now }

/-- Publishes the latest answer and completes the conversation. -/
def finish (c : Conversation) (now : Instant) : Conversation :=
  { c with
    lastResponse := (c.lastWithRole .assistant).map (·.content)
    status := .completed
    updatedAt := now }

end Conversation

namespace Engine

def runStart (node : Node) (spec : StartSpec) (c : Conversation) :
    Engine (Conversation × Except Failure Visit) := do
  let prompt := Prompt.render spec.promptTemplate c.templateValues
  return (c.withStartPrompt prompt (← now),
    .ok ⟨node.fallbackAction, .start prompt, .start prompt⟩)

def runProcess (node : Node) (spec : ProcessSpec) (c : Conversation) :
    Engine (Conversation × Except Failure Visit) := do
  match TurnPlan.of (← situation).settings node spec c with
  | .error f => return (c, .error (.node f))
  | .ok plan =>
    match ← runTurn plan c with
    | (c, .error f) => return (c, .error f)
    | (c, .ok outcome) => return (c, .ok ⟨outcome.action, .process plan, .process outcome⟩)

/-- Runs a provider of tools: its full listing is kept on the conversation. -/
def runToolProvider (node : Node) (spec : ProviderSpec) (c : Conversation) :
    Engine (Conversation × Except Failure Visit) := do
  match spec.require node.id with
  | .error f => return (c, .error (.node f))
  | .ok provider =>
    let ref : ProviderRef := ⟨node.id, provider, spec.enabledTools, spec.env⟩
    let revision ← ask (.revision provider)
    match ← fullListing ref with
    | .error f => return (c, .error (.provider f))
    | .ok none =>
      return (c, .ok ⟨node.fallbackAction, .toolProvider ref, .toolProvider provider [] true⟩)
    | .ok (some tools) =>
      return (c.keepListing provider tools revision (← now),
        .ok ⟨node.fallbackAction, .toolProvider ref,
          .toolProvider provider (ref.enabled tools) false⟩)

def runFinish (c : Conversation) : Engine (Conversation × Except Failure Visit) := do
  return (c.finish (← now), .ok ⟨.default, .finish, .finish⟩)

def visit (node : Node) (c : Conversation) : Engine (Conversation × Except Failure Visit) :=
  match node.spec with
  | .start spec => runStart node spec c
  | .process spec => runProcess node spec c
  | .toolProvider spec => runToolProvider node spec c
  | .finish => runFinish c

end Engine

end DialogueEngine
