import DialogueEngine.Conversation.Basic

/-!
Events that the engine publishes while it works. A subscriber's feed holds the latest ones up to a
capacity; when more are published before it looks, the oldest are lost and it learns how many.
-/

namespace DialogueEngine

inductive Event where
  | stepStarted (conversation node : String)
  | stepCompleted (conversation node : String) (action : Action)
  | stepFailed (conversation : String) (error : FailureInfo)
  | toolStart (conversation name : String) (arguments : Json)
  | toolEnd (conversation name : String) (result : ToolResult)
  /-- A provider could not be connected and is passed over. -/
  | providerSkipped (provider reason : String)
  | approvalRequested (conversation : String) (call : ToolCall)
  | approvalResolved (conversation call : String) (approved : Bool)
  deriving DecidableEq

namespace Event

/-- How many events a feed holds. -/
def feedCapacity : Nat := 256

/-- What a subscriber sees of the events published since it last looked: how many are lost, and
the rest. -/
def feed (published : List Event) : Nat × List Event :=
  let lost := published.length - feedCapacity
  (lost, published.drop lost)

/-- An event as a value: a list of its name and its fields. -/
def toJson : Event → Json
  | .stepStarted conversation node => .ofTexts ["step_started", conversation, node]
  | .stepCompleted conversation node action =>
    .ofTexts ["step_completed", conversation, node, action.text]
  | .stepFailed conversation error =>
    .array [.string "step_failed", .string conversation, error.toJson]
  | .toolStart conversation name arguments =>
    .array [.string "tool_start", .string conversation, .string name, arguments]
  | .toolEnd conversation name result =>
    .array [.string "tool_end", .string conversation, .string name, result.toJson]
  | .providerSkipped provider reason => .ofTexts ["provider_skipped", provider, reason]
  | .approvalRequested conversation call =>
    .array [.string "approval_requested", .string conversation, call.toJson]
  | .approvalResolved conversation call approved =>
    .array [.string "approval_resolved", .string conversation, .string call, .bool approved]

end Event

end DialogueEngine
