import DialogueEngine.Conversation.Basic

/-!
The written form of conversations. Every part is written; a part that may be missing has a default
when it is read. A snapshot leaves out the records of steps, so that records do not nest.
-/

namespace DialogueEngine

open Json (Reader Record)

namespace StepRecord

def toJson (r : StepRecord) : Json :=
  .object [("action", r.action.toJson), ("exec_result", r.executed), ("index", .ofNat r.index),
    ("node_id", .string r.node), ("node_kind", .string r.nodeKind),
    ("node_name", .string r.nodeName), ("prep_result", r.prepared), ("state_after", r.after),
    ("state_before", r.before), ("timestamp", r.timestamp.toJson)]

def read : Reader StepRecord :=
  Record.read "a record of a step"
    [["index"], ["node_id"], ["node_kind"], ["node_name"], ["action"], ["prep_result"],
      ["exec_result"], ["state_before"], ["state_after"], ["timestamp"]] fun r =>
    StepRecord.mk <$> r.required "index" Reader.count <*> r.required "node_id" Reader.text <*>
      r.required "node_kind" Reader.text <*> r.required "node_name" Reader.text <*>
      r.required "action" Action.read <*> r.required "prep_result" Reader.json <*>
      r.required "exec_result" Reader.json <*> r.required "state_before" Reader.json <*>
      r.required "state_after" Reader.json <*> r.required "timestamp" Instant.read

end StepRecord

namespace Conversation

def membersBeforeTrace (c : Conversation) : List (String × Json) :=
  [("cancelled", .bool c.cancelled), ("created_at", c.createdAt.toJson),
    ("current_node_id", .ofText? c.current), ("debug_mode", .bool c.debugMode)]

def membersAfterTrace (c : Conversation) : List (String × Json) :=
  [("flow_id", .string c.flow), ("id", .string c.id),
    ("last_error", (c.lastError.map FailureInfo.toJson).getD .null),
    ("last_response", .ofText? c.lastResponse),
    ("messages", .array (c.messages.map Message.toJson)),
    ("next_node_id", .ofText? c.next), ("pending_handoff", .ofText? c.handoff),
    ("pending_tool_calls", .array (c.pending.map ToolCall.toJson)),
    ("start_prompt", .ofText? c.startPrompt), ("status", .string c.status.text),
    ("step_count", .ofNat c.steps),
    ("tool_cache",
      .object (c.cache.entries.map fun e => (e.1, .array (e.2.map OfferedTool.toJson)))),
    ("tool_cache_revisions", .object (c.cacheRevisions.entries.map fun e => (e.1, .ofNat e.2))),
    ("updated_at", c.updatedAt.toJson), ("variables", .object c.values.entries)]

def toJson (c : Conversation) : Json :=
  .object (c.membersBeforeTrace ++ ("debug_trace", .array (c.trace.map StepRecord.toJson)) ::
    c.membersAfterTrace)

/-- A conversation as a value, without its records. -/
def snapshot (c : Conversation) : Json :=
  .object (c.membersBeforeTrace ++ c.membersAfterTrace)

def read : Reader Conversation :=
  Record.read "a conversation"
    [["id"], ["flow_id"], ["messages"], ["current_node_id"], ["next_node_id"], ["status"],
      ["pending_tool_calls"], ["tool_cache"], ["tool_cache_revisions"], ["pending_handoff"],
      ["cancelled"], ["debug_mode"], ["debug_trace"], ["variables"], ["start_prompt"],
      ["last_response"], ["last_error"], ["step_count"], ["created_at"], ["updated_at"]] fun r =>
    Conversation.mk <$> r.required "id" Reader.text <*> r.required "flow_id" Reader.text <*>
      r.defaulted "messages" [] (Reader.list Message.read) <*>
      r.optional "current_node_id" Reader.text <*> r.optional "next_node_id" Reader.text <*>
      r.defaulted "status" .running Status.read <*>
      r.defaulted "pending_tool_calls" [] (Reader.list ToolCall.read) <*>
      r.defaulted "tool_cache" ∅ (Reader.table (Reader.list OfferedTool.read)) <*>
      r.defaulted "tool_cache_revisions" ∅ (Reader.table Reader.count) <*>
      r.optional "pending_handoff" Reader.text <*>
      r.defaulted "cancelled" false Reader.bool <*> r.defaulted "debug_mode" false Reader.bool <*>
      r.defaulted "debug_trace" [] (Reader.list StepRecord.read) <*>
      r.defaulted "variables" ∅ (Reader.table Reader.json) <*>
      r.optional "start_prompt" Reader.text <*> r.optional "last_response" Reader.text <*>
      r.optional "last_error" FailureInfo.read <*> r.defaulted "step_count" 0 Reader.count <*>
      r.required "created_at" Instant.read <*> r.required "updated_at" Instant.read

end Conversation

end DialogueEngine
