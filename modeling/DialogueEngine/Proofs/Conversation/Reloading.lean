import DialogueEngine.Proofs.Conversation.Recovery
import DialogueEngine.Proofs.Json.Spellings

/-!
Conversations that are read from the values they are written as. Every part comes back as it was but
for the actions of records: an action is written as a plain text, and an edge whose label is spelt
like a reserved text is read as the reserved action. What is written of the conversation that is
read is what was written before.
-/

namespace DialogueEngine

-- Powers are those of the core library, whatever else is imported.
attribute [local instance (high)] instPowNat

open Json (Reader lookup)
open Json.Reader (value?_bool value?_json value?_list_map value?_list_self value?_nullable
  value?_table value?_text value?_text?)

/-! ## Parts -/

theorem Role.reads (role : Role) : Role.read.value? (.string role.text) = some role := by
  cases role <;> rfl

theorem Status.reads (status : Status) :
    Status.read.value? (.string status.text) = some status := by
  cases status <;> rfl

theorem Layer.reads (layer : Layer) : Layer.read.value? (.string layer.text) = some layer := by
  cases layer <;> rfl

theorem Action.reads (a : Action) : Action.read.value? a.toJson = some (.ofText a.text) := rfl

/-- An action is read as it was unless it is an edge with the label of another. -/
theorem Action.ofText_text_iff (a : Action) : Action.ofText a.text = a ↔
    ∀ label, a = .edge label →
      label ∉ ["TOOL_CALL", "FINAL_RESPONSE", "ERROR", "STAY_ON_NODE", "default"] := by
  cases a with
  | edge label =>
    simp only [text, ofText, edge.injEq, forall_eq', List.mem_cons, List.not_mem_nil]
    grind
  | _ => simp [text, ofText]

theorem Instant.reads {t : Instant} (inRange : Instant.yearInRange t.year = true) :
    Instant.read.value? t.toJson = some t := by
  have found : Instant.read .value (.string (.ok t.written)) = .ok t := by
    simp [Instant.read, Instant.read?_written inRange, bind, Except.bind]
  rw [Reader.value?, Reader.ofJson, Instant.toJson, Json.Source.ofJson, found]
  rfl

theorem Json.reads_count {n : Nat} (held : (Json.ofNat n).Held) :
    Reader.count.value? (.ofNat n) = some n := by
  obtain ⟨-, most⟩ := held
  have fits : (0 : Int) ≤ n ∧ (n : Int) < 2 ^ 64 := by omega
  have found : Reader.count .value (.number (.ok (.int n))) = .ok n := by
    simp only [Reader.count]
    rw [if_pos fits, Int.toNat_natCast]
  rw [Reader.value?, Reader.ofJson, Json.ofNat, Json.Source.ofJson, found]
  rfl

/-! ## Calls and messages -/

theorem ToolCall.reads {call : ToolCall} (held : call.toJson.Held) :
    ToolCall.read.value? call.toJson = some call := by
  have argumentsHeld : call.arguments.Held := held.member "arguments" (by simp [lookup])
  refine Json.Written.value? ⟨by simp, by simp⟩ (by simp) fun r holds => ?_
  have id := holds.gives_required "id" (value?_text call.id) (by simp [lookup])
  have name := holds.gives_required "name" (value?_text call.name) (by simp [lookup])
  have arguments := holds.gives_defaulted "arguments" .null (value?_json argumentsHeld.sorted)
    (by simp [lookup])
  exact ((id.map _).seq name).seq arguments

theorem ToolCall.reads_list {calls : List ToolCall}
    (held : (Json.array (calls.map ToolCall.toJson)).Held) :
    (Reader.list ToolCall.read).value? (.array (calls.map ToolCall.toJson)) = some calls :=
  value?_list_self fun call member => ToolCall.reads (held.items call member)

theorem Message.written (m : Message) : Json.Written
    [["id"], ["role"], ["content"], ["tool_calls"], ["tool_call_id"], ["is_error"], ["node_id"],
      ["created_at"]] m.members where
  once := m.keys_sublist.nodup (by simp)
  named := fun key member => by
    have inside := m.keys_sublist.subset member
    simp at inside ⊢
    tauto

theorem Message.reads_callsGiven {m : Message} (held : m.toJson.Held) (v : Json)
    (given : m.callsGiven? = some v) :
    (Reader.list ToolCall.read).value? v = some m.toolCalls := by
  have member : lookup "tool_calls" m.members = m.callsGiven? := by
    simp [Message.members, lookup, Message.lookup_member?, Message.lookup_member?_last]
  rw [Message.toJson_eq] at held
  have calls : v.Held := held.member "tool_calls" (member.trans given)
  unfold callsGiven? at given
  split at given
  · cases given
  · cases given
    exact ToolCall.reads_list calls

theorem Message.reads_errorGiven (m : Message) (v : Json) (given : m.errorGiven? = some v) :
    Reader.bool.value? v = some m.isError := by
  unfold errorGiven? at given
  split at given
  · next failing =>
    cases given
    rw [failing]
    rfl
  · cases given

/-- A message is read as it was written; a part that was left out is empty. -/
theorem Message.reads {m : Message} (held : m.toJson.Held)
    (inRange : Instant.yearInRange m.createdAt.year = true) :
    Message.read.value? m.toJson = some m := by
  have callsGiven := m.reads_callsGiven held
  rw [Message.toJson_eq]
  refine m.written.value? (by simp) fun r holds => ?_
  have text? (s : Option String) (v : Json) (given : s.map Json.string = some v) :
      (Reader.nullable Reader.text).value? v = some s := by
    cases s with
    | none => cases given
    | some s => cases given; rfl
  have absent (s : Option String) (none : s.map Json.string = none) : Option.none = s := by
    cases s with
    | none => rfl
    | some s => cases none
  have id := holds.gives_required "id" (value?_text m.id) (by simp [Message.members, lookup])
  have role := holds.gives_required "role" m.role.reads
    (by simp [Message.members, lookup, Message.lookup_member?])
  have content := holds.gives_required "content" (value?_text m.content)
    (by simp [Message.members, lookup])
  have toolCalls := holds.gives_leftOut "tool_calls" callsGiven
    (fun none => by
      have nothing : m.toolCalls = [] := by simpa [callsGiven?] using none
      rw [nothing])
    (by simp [Message.members, lookup, Message.lookup_member?, Message.lookup_member?_last])
  have toolCallId := holds.gives_leftOut "tool_call_id" (text? m.toolCallId) (absent m.toolCallId)
    (by simp [Message.members, lookup, Message.lookup_member?, Message.lookup_member?_last])
  have isError := holds.gives_leftOut "is_error" m.reads_errorGiven
    (fun none => by
      have fine : m.isError = false := by simpa [errorGiven?] using none
      rw [fine])
    (by simp [Message.members, lookup, Message.lookup_member?, Message.lookup_member?_last])
  have node := holds.gives_leftOut "node_id" (text? m.node) (absent m.node)
    (by simp [Message.members, lookup, Message.lookup_member?, Message.lookup_member?_last])
  have createdAt := holds.gives_required "created_at" (Instant.reads inRange)
    (by simp [Message.members, lookup])
  exact (((((((id.map Message.mk).seq role).seq content).seq toolCalls).seq toolCallId).seq
    isError).seq node).seq createdAt

/-! ## Listings and records -/

theorem ListedTool.reads {t : ListedTool} (held : t.toJson.Held) :
    ListedTool.read.value? t.toJson = some t := by
  have schemaHeld : t.inputSchema.Held := held.member "input_schema" (by simp [lookup])
  refine Json.Written.value? ⟨by simp, by simp⟩ (by simp) fun r holds => ?_
  have name := holds.gives_required "name" (value?_text t.name) (by simp [lookup])
  have description := holds.gives_defaulted "description" "" (value?_text t.description)
    (by simp [lookup])
  have schema := holds.gives_required "input_schema" (value?_json schemaHeld.sorted)
    (by simp [lookup])
  exact ((name.map _).seq description).seq schema

theorem OfferedTool.reads {t : OfferedTool} (held : t.toJson.Held) :
    OfferedTool.read.value? t.toJson = some t := by
  have definitionHeld : t.definition.toJson.Held := held.member "definition" (by simp [lookup])
  refine Json.Written.value? ⟨by simp, by simp⟩ (by simp) fun r holds => ?_
  have provider := holds.gives_required "provider" (value?_text t.provider) (by simp [lookup])
  have listedName := holds.gives_required "original_name" (value?_text t.listedName)
    (by simp [lookup])
  have definition := holds.gives_required "definition" (ListedTool.reads definitionHeld)
    (by simp [lookup])
  exact ((provider.map _).seq listedName).seq definition

/-- A record with the action that its text says. -/
def StepRecord.reloaded (r : StepRecord) : StepRecord := { r with action := .ofText r.action.text }

theorem StepRecord.reads {r : StepRecord} (held : r.toJson.Held)
    (inRange : Instant.yearInRange r.timestamp.year = true) :
    StepRecord.read.value? r.toJson = some r.reloaded := by
  have indexHeld : (Json.ofNat r.index).Held := held.member "index" (by simp [lookup])
  have preparedHeld : r.prepared.Held := held.member "prep_result" (by simp [lookup])
  have executedHeld : r.executed.Held := held.member "exec_result" (by simp [lookup])
  have beforeHeld : r.before.Held := held.member "state_before" (by simp [lookup])
  have afterHeld : r.after.Held := held.member "state_after" (by simp [lookup])
  refine Json.Written.value? ⟨by simp, by simp⟩ (by simp) fun record holds => ?_
  have index := holds.gives_required "index" (Json.reads_count indexHeld) (by simp [lookup])
  have node := holds.gives_required "node_id" (value?_text r.node) (by simp [lookup])
  have nodeKind := holds.gives_required "node_kind" (value?_text r.nodeKind) (by simp [lookup])
  have nodeName := holds.gives_required "node_name" (value?_text r.nodeName) (by simp [lookup])
  have action := holds.gives_required "action" r.action.reads (by simp [lookup])
  have prepared := holds.gives_required "prep_result" (value?_json preparedHeld.sorted)
    (by simp [lookup])
  have executed := holds.gives_required "exec_result" (value?_json executedHeld.sorted)
    (by simp [lookup])
  have before := holds.gives_required "state_before" (value?_json beforeHeld.sorted)
    (by simp [lookup])
  have after := holds.gives_required "state_after" (value?_json afterHeld.sorted)
    (by simp [lookup])
  have timestamp := holds.gives_required "timestamp" (Instant.reads inRange) (by simp [lookup])
  exact (((((((((index.map StepRecord.mk).seq node).seq nodeKind).seq nodeName).seq action).seq
    prepared).seq executed).seq before).seq after).seq timestamp

theorem FailureInfo.reads (info : FailureInfo) :
    FailureInfo.read.value? info.toJson = some info := by
  refine Json.Written.value? ⟨by simp, by simp⟩ (by simp) fun r holds => ?_
  have layer := holds.gives_required "kind" info.layer.reads (by simp [lookup])
  have code := holds.gives_required "code" (value?_text info.code) (by simp [lookup])
  have message := holds.gives_required "message" (value?_text info.message) (by simp [lookup])
  exact ((layer.map _).seq code).seq message

theorem FailureInfo.reads? (info : Option FailureInfo) :
    (Reader.nullable FailureInfo.read).value? ((info.map FailureInfo.toJson).getD .null) =
      some info := by
  cases info with
  | none => rfl
  | some info =>
    refine (value?_nullable _ (by simp [FailureInfo.toJson])).trans ?_
    exact congrArg (Option.map some) (FailureInfo.reads info)

/-! ## Tables -/

theorem reads_cache {t : Table (List OfferedTool)} (held : (cacheToJson t).Held) :
    (Reader.table (Reader.list OfferedTool.read)).value? (cacheToJson t) = some t := by
  refine value?_table (f := fun tools : List OfferedTool =>
    .array (tools.map OfferedTool.toJson)) fun e member => ?_
  have entry := Json.Held.entries
    (f := fun tools : List OfferedTool => .array (tools.map OfferedTool.toJson)) held e member
  exact value?_list_self fun tool inside => OfferedTool.reads (entry.items tool inside)

theorem reads_revisions {t : Table Nat} (held : (revisionsToJson t).Held) :
    (Reader.table Reader.count).value? (revisionsToJson t) = some t :=
  value?_table fun e member => Json.reads_count (Json.Held.entries (f := .ofNat) held e member)

theorem reads_values {t : Table Json} (held : (Json.object t.entries).Held) :
    (Reader.table Reader.json).value? (.object t.entries) = some t := by
  have same : t.entries.map (fun e => (e.1, e.2)) = t.entries := List.map_id _
  rw [← same] at held ⊢
  exact value?_table (f := fun v => v) fun e member =>
    value?_json (Json.Held.entries (f := fun v => v) held e member).sorted

/-! ## Conversations -/

/-- A conversation with the actions of its records as their texts say. -/
def Conversation.reloaded (c : Conversation) : Conversation :=
  { c with trace := c.trace.map StepRecord.reloaded }

namespace Conversation

theorem written (c : Conversation) : Json.Written
    [["id"], ["flow_id"], ["messages"], ["current_node_id"], ["next_node_id"], ["status"],
      ["pending_tool_calls"], ["tool_cache"], ["tool_cache_revisions"], ["pending_handoff"],
      ["cancelled"], ["debug_mode"], ["debug_trace"], ["variables"], ["start_prompt"],
      ["last_response"], ["last_error"], ["step_count"], ["created_at"], ["updated_at"]]
    c.members where
  once := by simp [members, membersBeforeTrace, membersAfterTrace]
  named := by simp [members, membersBeforeTrace, membersAfterTrace]

/-- A conversation is read as it was written, but for the actions of its records. -/
theorem reads {c : Conversation} (held : c.Held) :
    Conversation.read.value? c.toJson = some c.reloaded := by
  have part (key : String) (v : Json) (found : lookup key c.members = some v) : v.Held :=
    held.value.member key found
  simp only [members, membersBeforeTrace, membersAfterTrace, List.cons_append,
    List.nil_append] at part
  have messagesHeld : (Json.array (c.messages.map Message.toJson)).Held :=
    part "messages" _ (by simp [lookup])
  have pendingHeld : (Json.array (c.pending.map ToolCall.toJson)).Held :=
    part "pending_tool_calls" _ (by simp [lookup])
  have cacheHeld : (cacheToJson c.cache).Held := part "tool_cache" _ (by simp [lookup, cacheToJson])
  have revisionsHeld : (revisionsToJson c.cacheRevisions).Held :=
    part "tool_cache_revisions" _ (by simp [lookup, revisionsToJson])
  have traceHeld : (Json.array (c.trace.map StepRecord.toJson)).Held :=
    part "debug_trace" _ (by simp [lookup])
  have valuesHeld : (Json.object c.values.entries).Held := part "variables" _ (by simp [lookup])
  have stepsHeld : (Json.ofNat c.steps).Held := part "step_count" _ (by simp [lookup])
  refine c.written.value? (by simp) fun r holds => ?_
  simp only [members, membersBeforeTrace, membersAfterTrace, List.cons_append,
    List.nil_append] at holds
  have id := holds.gives_required "id" (value?_text c.id) (by simp [lookup])
  have flow := holds.gives_required "flow_id" (value?_text c.flow) (by simp [lookup])
  have messages := holds.gives_defaulted "messages" [] (value?_list_self fun m member =>
    Message.reads (messagesHeld.items m member) (held.messages m member)) (by simp [lookup])
  have current := holds.gives_defaulted "current_node_id" none (value?_text? c.current)
    (by simp [lookup])
  have next := holds.gives_defaulted "next_node_id" none (value?_text? c.next) (by simp [lookup])
  have status := holds.gives_defaulted "status" .running c.status.reads (by simp [lookup])
  have pending := holds.gives_defaulted "pending_tool_calls" [] (ToolCall.reads_list pendingHeld)
    (by simp [lookup])
  have cache := holds.gives_defaulted "tool_cache" ∅ (reads_cache cacheHeld)
    (by simp [lookup, cacheToJson])
  have revisions := holds.gives_defaulted "tool_cache_revisions" ∅
    (reads_revisions revisionsHeld) (by simp [lookup, revisionsToJson])
  have handoff := holds.gives_defaulted "pending_handoff" none (value?_text? c.handoff)
    (by simp [lookup])
  have cancelled := holds.gives_defaulted "cancelled" false (value?_bool c.cancelled)
    (by simp [lookup])
  have debugMode := holds.gives_defaulted "debug_mode" false (value?_bool c.debugMode)
    (by simp [lookup])
  have trace := holds.gives_defaulted "debug_trace" [] (value?_list_map fun s member =>
    StepRecord.reads (traceHeld.items s member) (held.trace s member)) (by simp [lookup])
  have values := holds.gives_defaulted "variables" ∅ (reads_values valuesHeld) (by simp [lookup])
  have startPrompt := holds.gives_defaulted "start_prompt" none (value?_text? c.startPrompt)
    (by simp [lookup])
  have lastResponse := holds.gives_defaulted "last_response" none (value?_text? c.lastResponse)
    (by simp [lookup])
  have lastError := holds.gives_defaulted "last_error" none (FailureInfo.reads? c.lastError)
    (by simp [lookup])
  have steps := holds.gives_defaulted "step_count" 0 (Json.reads_count stepsHeld)
    (by simp [lookup])
  have createdAt := holds.gives_required "created_at" (Instant.reads held.created)
    (by simp [lookup])
  have updatedAt := holds.gives_required "updated_at" (Instant.reads held.updated)
    (by simp [lookup])
  exact (((((((((((((((((((id.map Conversation.mk).seq flow).seq messages).seq current).seq
    next).seq status).seq pending).seq cache).seq revisions).seq handoff).seq cancelled).seq
    debugMode).seq trace).seq values).seq startPrompt).seq lastResponse).seq lastError).seq
    steps).seq createdAt).seq updatedAt

/-- The conversation that is read is written as the one that was written before. -/
theorem reloaded_toJson (c : Conversation) : c.reloaded.toJson = c.toJson := by
  have records : (c.trace.map StepRecord.reloaded).map StepRecord.toJson =
      c.trace.map StepRecord.toJson := by
    rw [List.map_map]
    refine List.map_congr_left fun r _ => ?_
    simp [StepRecord.toJson, StepRecord.reloaded, Action.toJson]
  have members : c.reloaded.members = c.members := by
    simp only [Conversation.members, reloaded, membersBeforeTrace, membersAfterTrace, records]
  exact congrArg Json.object members

theorem reloaded_eq_iff (c : Conversation) :
    c.reloaded = c ↔ ∀ r ∈ c.trace, Action.ofText r.action.text = r.action := by
  have records : c.trace.map StepRecord.reloaded = c.trace ↔
      ∀ r ∈ c.trace, r.reloaded = r := by
    conv_lhs => rhs; rw [← List.map_id' c.trace]
    exact List.map_inj_left
  constructor
  · intro same r member
    exact congrArg StepRecord.action (records.1 (congrArg Conversation.trace same) r member)
  · intro kept
    rw [reloaded, records.2 fun r member => by rw [StepRecord.reloaded, kept r member]]

/-- A conversation whose only record ends with an edge. -/
def tried (label : String) : Conversation :=
  let now := Instant.ofNanos 0
  { Conversation.fresh "c" "f" now with
    trace := [⟨0, "n", "start", "N", .edge label, .null, .null, .null, .null, now⟩] }

end Conversation

end DialogueEngine
