import DialogueEngine.Json.Reader
import DialogueEngine.Text.Pieces

/-!
What can go wrong, by the part of the engine that it belongs to. Each failure has a stable code
and a message; a summary of it can be kept on a conversation.
-/

namespace DialogueEngine

open Json (Reader)

inductive ModelFailure where
  | notFound (model : String)
  | keyResolution (model : String)
  | api (status : Option Nat) (errorType code param : Option String) (message : String)
  | unknown (message : String)
  deriving DecidableEq, Repr

/-- Failures while tool calls are prepared or run. -/
inductive ToolFailure where
  | invalidTool (detail : String)
  | preparation (detail : String)
  | processing (detail : String)
  | invalidName (name : String)
  deriving DecidableEq, Repr

inductive NodeFailure where
  | missingProperty (node property : String)
  | unknownKind (node kind : String)
  deriving DecidableEq, Repr

inductive ProviderFailure where
  | connection (provider message : String)
  | listing (provider message : String)
  | processing (message : String)
  deriving DecidableEq, Repr

inductive GraphFailure where
  | noStart
  | severalStarts (nodes : List String)
  | unknownKind (node kind : String)
  | danglingEdge (edge node : String)
  | invalidProperties (node message : String)
  deriving DecidableEq, Repr

/-- Any failure of the engine. -/
inductive Failure where
  | model (cause : ModelFailure)
  | tool (cause : ToolFailure)
  | node (cause : NodeFailure)
  | provider (cause : ProviderFailure)
  | graph (cause : GraphFailure)
  | flowNotFound (flow : String)
  | conversationNotFound (conversation : String)
  | missingConversationId
  | busy (conversation : String)
  | tooManyIterations (most : Nat)
  | notPending (conversation call : String)
  | execution (detail : String)
  | config (detail : String)
  | configNotFound (path : String)
  | database (detail : String)
  | io (detail : String)
  | document (fault : Json.Fault)
  deriving DecidableEq, Repr

namespace ModelFailure

def code : ModelFailure → String
  | .notFound _ => "model_not_found"
  | .keyResolution _ => "api_key_resolution_failed"
  | .api .. => "upstream_api_error"
  | .unknown _ => "unknown_model_error"

def message : ModelFailure → String
  | .notFound model => "Model not found: " ++ model
  | .keyResolution model => "API key resolution failed for model " ++ model
  | .api none _ _ _ detail => "Upstream API error: " ++ detail
  | .api (some status) _ _ _ detail =>
    "Upstream API error (" ++ toString status ++ "): " ++ detail
  | .unknown detail => "Model error: " ++ detail

end ModelFailure

namespace ToolFailure

def code : ToolFailure → String
  | .invalidTool _ => "invalid_tool"
  | .preparation _ => "tool_preparation_failed"
  | .processing _ => "tool_processing_failed"
  | .invalidName _ => "invalid_tool_name_format"

def message : ToolFailure → String
  | .invalidTool detail => "Invalid tool: " ++ detail
  | .preparation detail => "Tool preparation failed: " ++ detail
  | .processing detail => "Tool processing failed: " ++ detail
  | .invalidName name => "Invalid tool name format: " ++ name

end ToolFailure

namespace NodeFailure

def code : NodeFailure → String
  | .missingProperty .. => "missing_required_property"
  | .unknownKind .. => "unknown_node_kind"

def message : NodeFailure → String
  | .missingProperty node property =>
    "Node " ++ node ++ " is missing required property '" ++ property ++ "'"
  | .unknownKind node kind => "Unknown node kind '" ++ kind ++ "' on node " ++ node

/-- The failure as one of a graph. -/
def toGraph : NodeFailure → GraphFailure
  | .unknownKind node kind => .unknownKind node kind
  | .missingProperty node property => .invalidProperties node ("missing '" ++ property ++ "'")

end NodeFailure

namespace ProviderFailure

def code : ProviderFailure → String
  | .connection .. => "server_connection_failed"
  | .listing .. => "list_tools_failed"
  | .processing _ => "mcp_processing_failed"

def message : ProviderFailure → String
  | .connection provider detail =>
    "Connection to tool provider '" ++ provider ++ "' failed: " ++ detail
  | .listing provider detail => "Listing tools from '" ++ provider ++ "' failed: " ++ detail
  | .processing detail => "MCP processing failed: " ++ detail

end ProviderFailure

namespace GraphFailure

def code : GraphFailure → String
  | .noStart => "no_start_node"
  | .severalStarts _ => "multiple_start_nodes"
  | .unknownKind .. => "unknown_node_kind"
  | .danglingEdge .. => "dangling_edge"
  | .invalidProperties .. => "invalid_node_properties"

def message : GraphFailure → String
  | .noStart => "Flow has no start node"
  | .severalStarts nodes => "Flow has more than one start node: " ++ Text.join ", " nodes
  | .unknownKind node kind => "Unknown node kind '" ++ kind ++ "' on node " ++ node
  | .danglingEdge edge node => "Edge " ++ edge ++ " references unknown node " ++ node
  | .invalidProperties node detail => "Invalid properties on node " ++ node ++ ": " ++ detail

end GraphFailure

/-- The part of the engine that a failure belongs to. -/
inductive Layer where
  | model
  | tool
  | node
  | provider
  | graph
  | execution
  deriving DecidableEq, Repr

namespace Layer

def text : Layer → String
  | .model => "model"
  | .tool => "tool"
  | .node => "node"
  | .provider => "mcp"
  | .graph => "graph"
  | .execution => "execution"

def read : Reader Layer :=
  Reader.choice [(["model"], .model), (["tool"], .tool), (["node"], .node), (["mcp"], .provider),
    (["graph"], .graph), (["execution"], .execution)]

end Layer

namespace Failure

def layer : Failure → Layer
  | .model _ => .model
  | .tool _ => .tool
  | .node _ => .node
  | .provider _ => .provider
  | .graph _ => .graph
  | _ => .execution

def code : Failure → String
  | .model cause => cause.code
  | .tool cause => cause.code
  | .node cause => cause.code
  | .provider cause => cause.code
  | .graph cause => cause.code
  | .flowNotFound _ => "flow_not_found"
  | .conversationNotFound _ => "conversation_not_found"
  | .missingConversationId => "missing_conversation_id"
  | .busy _ => "conversation_busy"
  | .tooManyIterations _ => "max_iterations_exceeded"
  | .notPending .. => "tool_call_not_pending"
  | .execution _ => "execution_failed"
  | .config _ | .configNotFound _ => "config_error"
  | .database _ => "database_error"
  | .io _ => "io_error"
  | .document _ => "json_error"

/-- What a fault of a document says. -/
def faultText : Json.Fault → String
  | .mismatch detail => detail
  | .malformed => "expected value"
  | .truncated => "EOF while parsing a value"

def message : Failure → String
  | .model cause => cause.message
  | .tool cause => cause.message
  | .node cause => cause.message
  | .provider cause => cause.message
  | .graph cause => cause.message
  | .flowNotFound flow => "Flow not registered: " ++ flow
  | .conversationNotFound conversation => "Conversation not found: " ++ conversation
  | .missingConversationId => "Conversation id is required"
  | .busy conversation => "Conversation " ++ conversation ++ " already has a step in progress"
  | .tooManyIterations most =>
    "Process node exceeded max tool iterations (" ++ toString most ++ ")"
  | .notPending conversation call =>
    "Tool call " ++ call ++ " is not pending on conversation " ++ conversation
  | .execution detail => "Execution failed: " ++ detail
  | .config detail => "Config error: " ++ detail
  | .configNotFound path => "Config file not found: " ++ path
  | .database detail => "Database error: " ++ detail
  | .io detail => "I/O error: " ++ detail
  | .document fault => "JSON error: " ++ faultText fault

end Failure

/-- A failure as it is kept on a conversation. -/
structure FailureInfo where
  layer : Layer
  code : String
  message : String
  deriving DecidableEq, Repr

namespace FailureInfo

def ofFailure (f : Failure) : FailureInfo := ⟨f.layer, f.code, f.message⟩

def toJson (i : FailureInfo) : Json :=
  .object [("code", .string i.code), ("kind", .string i.layer.text), ("message", .string i.message)]

def read : Reader FailureInfo :=
  Json.Record.read "a failure" [["kind"], ["code"], ["message"]] fun r =>
    FailureInfo.mk <$> r.required "kind" Layer.read <*> r.required "code" Reader.text <*>
      r.required "message" Reader.text

end FailureInfo

end DialogueEngine
