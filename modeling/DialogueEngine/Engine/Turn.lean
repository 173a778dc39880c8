import DialogueEngine.Engine.Discovery
import DialogueEngine.Prompt.Composition
import DialogueEngine.Prompt.Variables
import DialogueEngine.Tool.Declaration

/-!
The turn of a process. The model is called, the tool calls it asks for are answered, and it is
called again, until it gives a plain answer, chooses a route, needs approval, is cancelled or has
been called as often as allowed. Each message is on the conversation as soon as it exists, so that
a pause or a failure keeps what was done.
-/

namespace DialogueEngine

/-- A route that is offered to the model as a tool. -/
structure Handoff where
  toolName : String
  label : String
  deriving DecidableEq

namespace Handoff

def ofSuccessor (s : Successor) : Handoff := ⟨ToolName.handoff s.label, s.label⟩

def declare (h : Handoff) : DeclaredTool :=
  .ofFunction h.toolName ("Hand the conversation off along the '" ++ h.label ++ "' route.")
    (.object [("properties", .object []), ("type", .string "object")])

def toJson (h : Handoff) : Json :=
  .object [("label", .string h.label), ("tool_name", .string h.toolName)]

end Handoff

/-- What a turn is to do. -/
structure TurnPlan where
  node : String
  model : String
  template : String
  /-- Left out where the node excludes it. -/
  startPrompt : Option String
  /-- Left out where the node excludes it. -/
  modelPrompt : Option String
  allowedTools : List String
  providerRefs : List ProviderRef
  requireApproval : Bool
  /-- The routes, which are offered only where there are several. -/
  handoffs : List Handoff
  deriving DecidableEq

namespace TurnPlan

/-- The plan of a node's turn; a model is needed. -/
def of (settings : Settings) (node : Node) (spec : ProcessSpec) (c : Conversation) :
    Except NodeFailure TurnPlan :=
  match given? spec.model with
  | none => .error (.missingProperty node.id "bound_model")
  | some model =>
    .ok {
      node := node.id
      model
      template := spec.promptTemplate
      startPrompt := if spec.excludeStartPrompt then none else c.startPrompt
      modelPrompt := if spec.excludeModelPrompt then none else settings.modelPrompt model
      allowedTools := spec.allowedTools
      providerRefs := spec.providerRefs
      requireApproval := spec.requireApproval || settings.approval.requireApproval
      handoffs := if 1 < node.successors.length then node.successors.map .ofSuccessor else [] }

/-- What the model is told by the system. -/
def systemPrompt (p : TurnPlan) (c : Conversation) : String :=
  Prompt.compose [p.startPrompt, p.modelPrompt, some (Prompt.render p.template c.templateValues)]

/-- The tools among those found that the model may see. -/
def allowed (p : TurnPlan) (tools : List OfferedTool) : List OfferedTool :=
  if p.allowedTools.isEmpty then tools
  else tools.filter fun t =>
    p.allowedTools.contains t.name || p.allowedTools.contains t.listedName

def toJson (p : TurnPlan) : Json :=
  .object [("allowed_tools", .ofTexts p.allowedTools),
    ("handoffs", .array (p.handoffs.map Handoff.toJson)), ("kind", .string "process"),
    ("model_id", .string p.model), ("model_prompt", .ofText? p.modelPrompt),
    ("node_id", .string p.node),
    ("provider_refs", .array (p.providerRefs.map ProviderRef.toJson)),
    ("require_approval", .bool p.requireApproval), ("start_prompt", .ofText? p.startPrompt),
    ("template", .string p.template)]

end TurnPlan

/-- How a turn ended, and after how many model calls. -/
inductive TurnOutcome where
  | finalResponse (content : String) (modelCalls : Nat)
  | handoff (label : String) (modelCalls : Nat)
  | awaitingApproval (pending modelCalls : Nat)
  | cancelled (modelCalls : Nat)
  deriving DecidableEq

namespace TurnOutcome

def action : TurnOutcome → Action
  | .finalResponse .. => .finalResponse
  | .handoff label _ => .edge label
  | .awaitingApproval .. => .toolCall
  | .cancelled _ => .stayOnNode

def toJson : TurnOutcome → Json
  | .finalResponse content calls =>
    .object [("content", .string content), ("model_calls", .ofNat calls),
      ("outcome", .string "final_response")]
  | .handoff label calls =>
    .object [("label", .string label), ("model_calls", .ofNat calls),
      ("outcome", .string "handoff")]
  | .awaitingApproval pending calls =>
    .object [("model_calls", .ofNat calls), ("outcome", .string "awaiting_approval"),
      ("pending", .ofNat pending)]
  | .cancelled calls =>
    .object [("model_calls", .ofNat calls), ("outcome", .string "cancelled")]

end TurnOutcome

/-- The answering of one completion's tool calls. -/
structure Handling where
  conversation : Conversation
  /-- The calls that wait for approval. -/
  gated : List ToolCall
  /-- The first route that was chosen. -/
  handoff : Option String

namespace Engine

/-- Answers a tool call with a result. -/
def answerCall (p : TurnPlan) (c : Conversation) (call : ToolCall) (result : ToolResult) :
    Engine Conversation := do
  let s ← stamp
  return c.push ((Message.answering call.id result s).saidAt p.node) s.instant

/-- Treats one tool call of a completion. Once the conversation is to be cancelled it is answered
without being run. -/
def handleCall (p : TurnPlan) (h : Handling) (call : ToolCall) : Engine Handling := do
  if ← isToBeCancelled h.conversation then
    let c ← answerCall p h.conversation call
      (.failure "Tool call skipped: conversation cancelled")
    return { h with conversation := c }
  else if ToolName.isRoute call.name then
    match p.handoffs.find? fun route => route.toolName = call.name with
    | some route =>
      let c ← answerCall p h.conversation call (.success ("Handing off to " ++ route.label))
      return { h with conversation := c, handoff := h.handoff <|> some route.label }
    | none =>
      let c ← answerCall p h.conversation call
        (.failure ("Unknown handoff target: " ++ call.name))
      return { h with conversation := c }
  else if p.requireApproval && (ToolName.split call.name).isOk then
    publish (.approvalRequested h.conversation.id call)
    return { h with gated := h.gated ++ [call] }
  else
    match ← invoke h.conversation.id call with
    | .handoff _ => return h
    | .completed result =>
      let c ← answerCall p h.conversation call result
      return { h with conversation := c }

def handleCalls (p : TurnPlan) (h : Handling) : List ToolCall → Engine Handling
  | [] => return h
  | call :: rest => do
    let h ← handleCall p h call
    handleCalls p h rest

/-- The transcript that the model gets. -/
def transcript (systemPrompt : String) (c : Conversation) : Engine (List Message) := do
  if systemPrompt = "" then return c.messages
  let s ← stamp
  return .system systemPrompt s :: c.messages

/-- Calls the model and treats the calls it asks for, as long as it may be called; `calls` have been
made. -/
def converse (p : TurnPlan) (systemPrompt : String) (specs : List DeclaredTool) (most : Nat) :
    Nat → Nat → Conversation → Engine (Conversation × Except Failure TurnOutcome)
  | left, calls, c => do
    if ← isToBeCancelled c then
      return ({ c with cancelled := true }, .ok (.cancelled calls))
    match left with
    | 0 => return (c, .error (.tooManyIterations most))
    | left + 1 =>
      let messages ← transcript systemPrompt c
      match ← ask (.complete p.model messages specs) with
      | .error f => return (c, .error (.model f))
      | .ok completion =>
        let s ← stamp
        let c := c.push
          ((Message.assistant completion.content completion.toolCalls s).saidAt p.node) s.instant
        if completion.toolCalls.isEmpty then
          return (c, .ok (.finalResponse completion.content (calls + 1)))
        let h ← handleCalls p ⟨c, [], none⟩ completion.toolCalls
        if !h.gated.isEmpty then
          let c := { h.conversation with handoff := h.handoff }.pauseFor h.gated (← now)
          return (c, .ok (.awaitingApproval h.gated.length (calls + 1)))
        match h.handoff with
        | some label => return (h.conversation, .ok (.handoff label (calls + 1)))
        | none => converse p systemPrompt specs most left (calls + 1) h.conversation

/-- Finds and declares the tools of a turn. -/
def turnTools (p : TurnPlan) (c : Conversation) :
    Engine (Conversation × Except Failure (List DeclaredTool)) := do
  match ← toolsOfAll c p.providerRefs with
  | (c, .error f) => return (c, .error (.provider f))
  | (c, .ok tools) =>
    let seen := p.allowed (OfferedTool.distinct [] tools)
    match ListedTool.declareAll (seen.map (·.definition)) with
    | .error f => return (c, .error (.tool f))
    | .ok specs => return (c, .ok (specs ++ p.handoffs.map Handoff.declare))

/-- Runs the turn of a process. A route chosen before a pause for approval is taken first, if it is
still offered. -/
def runTurn (p : TurnPlan) (c : Conversation) :
    Engine (Conversation × Except Failure TurnOutcome) := do
  let systemPrompt := p.systemPrompt c
  let chosen := c.handoff
  let c := { c with handoff := none }
  match chosen.filter fun label => p.handoffs.any fun route => route.label = label with
  | some label => return (c, .ok (.handoff label 0))
  | none =>
    match ← turnTools p c with
    | (c, .error f) => return (c, .error f)
    | (c, .ok specs) =>
      let most := (← situation).settings.engine.maxToolIterations
      converse p systemPrompt specs most most 0 c

end Engine

end DialogueEngine
