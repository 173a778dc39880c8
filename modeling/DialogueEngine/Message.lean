import DialogueEngine.Json.Reader
import DialogueEngine.Instant.Written

/-!
Messages of a conversation, the tool calls that a model asks for, and what the model and the tools
answer.
-/

namespace DialogueEngine

open Json (Reader Record)

/-- Who speaks. -/
inductive Role where
  | system
  | user
  | assistant
  | tool
  deriving DecidableEq, Repr, Inhabited

namespace Role

def text : Role → String
  | .system => "system"
  | .user => "user"
  | .assistant => "assistant"
  | .tool => "tool"

def read : Reader Role :=
  Reader.choice [(["system"], .system), (["user"], .user), (["assistant"], .assistant),
    (["tool"], .tool)]

end Role

def Instant.read : Reader Instant := fun _ s => do
  let text ← match s with
    | .string text => text
    | _ => .error (s.refuse "an RFC 3339 formatted date and time string")
  match Instant.read? text with
  | some t => .ok t
  | none => .error (.mismatch "input contains invalid characters")

def Instant.toJson (t : Instant) : Json := .string t.written

/-- A tool invocation that the model asks for. -/
structure ToolCall where
  id : String
  name : String
  arguments : Json
  deriving DecidableEq, Repr, Inhabited

namespace ToolCall

def toJson (c : ToolCall) : Json :=
  .object [("arguments", c.arguments), ("id", .string c.id), ("name", .string c.name)]

def read : Reader ToolCall :=
  Record.read "a tool call" [["id"], ["name"], ["arguments"]] fun r =>
    ToolCall.mk <$> r.required "id" Reader.text <*> r.required "name" Reader.text <*>
      r.defaulted "arguments" .null Reader.json

end ToolCall

structure ToolResult where
  content : String
  isError : Bool
  deriving DecidableEq, Repr, Inhabited

namespace ToolResult

def success (content : String) : ToolResult := ⟨content, false⟩

/-- An answer that reports an error. -/
def failure (content : String) : ToolResult := ⟨content, true⟩

def toJson (r : ToolResult) : Json :=
  .object [("content", .string r.content), ("is_error", .bool r.isError)]

def read : Reader ToolResult :=
  Record.read "a result" [["content"], ["is_error"]] fun r =>
    ToolResult.mk <$> r.required "content" Reader.text <*> r.required "is_error" Reader.bool

end ToolResult

structure Completion where
  content : String
  toolCalls : List ToolCall
  deriving DecidableEq, Repr, Inhabited

namespace Completion

def toJson (c : Completion) : Json :=
  .object [("content", .string c.content), ("tool_calls", .array (c.toolCalls.map ToolCall.toJson))]

def read : Reader Completion :=
  Record.read "a completion" [["content"], ["tool_calls"]] fun r =>
    Completion.mk <$> r.required "content" Reader.text <*>
      r.defaulted "tool_calls" [] (Reader.list ToolCall.read)

end Completion

/-- The name and the instant that a new message gets. -/
structure Stamp where
  id : String
  instant : Instant
  deriving DecidableEq

structure Message where
  id : String
  role : Role
  content : String
  toolCalls : List ToolCall
  /-- The call that a tool's message answers. -/
  toolCallId : Option String
  isError : Bool
  /-- The node that produced the message. -/
  node : Option String
  createdAt : Instant
  deriving DecidableEq, Inhabited

namespace Message

/-- A message without calls and origin. -/
def plain (role : Role) (content : String) (stamp : Stamp) : Message :=
  ⟨stamp.id, role, content, [], none, false, none, stamp.instant⟩

def system (content : String) (stamp : Stamp) : Message := plain .system content stamp

def user (content : String) (stamp : Stamp) : Message := plain .user content stamp

def assistant (content : String) (calls : List ToolCall) (stamp : Stamp) : Message :=
  { plain .assistant content stamp with toolCalls := calls }

/-- The message that answers a call. -/
def answering (call : String) (result : ToolResult) (stamp : Stamp) : Message :=
  { plain .tool result.content stamp with toolCallId := some call, isError := result.isError }

def saidAt (m : Message) (node : String) : Message := { m with node := some node }

def asksForTools (m : Message) : Bool := !m.toolCalls.isEmpty

/-- A member that is left out where there is no value. -/
def member? (key : String) : Option Json → List (String × Json)
  | some v => [(key, v)]
  | none => []

/-- A message as a value; parts that are empty are left out. -/
def toJson (m : Message) : Json :=
  .object (
    [("content", .string m.content), ("created_at", m.createdAt.toJson), ("id", .string m.id)] ++
    member? "is_error" (if m.isError then some (.bool true) else none) ++
    member? "node_id" (m.node.map .string) ++
    [("role", .string m.role.text)] ++
    member? "tool_call_id" (m.toolCallId.map .string) ++
    member? "tool_calls"
      (if m.toolCalls.isEmpty then none else some (.array (m.toolCalls.map ToolCall.toJson))))

def read : Reader Message :=
  Record.read "a message"
    [["id"], ["role"], ["content"], ["tool_calls"], ["tool_call_id"], ["is_error"], ["node_id"],
      ["created_at"]] fun r =>
    Message.mk <$> r.required "id" Reader.text <*> r.required "role" Role.read <*>
      r.required "content" Reader.text <*>
      r.defaulted "tool_calls" [] (Reader.list ToolCall.read) <*>
      r.optional "tool_call_id" Reader.text <*> r.defaulted "is_error" false Reader.bool <*>
      r.optional "node_id" Reader.text <*> r.required "created_at" Instant.read

end Message

end DialogueEngine
