import DialogueEngine.Proofs.Conversation.Recall
import DialogueEngine.Proofs.Instant.Written
import DialogueEngine.Proofs.Json.Fields
import DialogueEngine.Proofs.Json.Rereading

/-!
Conversations that are recovered from their texts. A conversation that a program can hold comes
back whole, with its doubles rounded, if its written form nests no deeper than a text may; a deeper
one is written all the same, and its text is then malformed for every reader.
-/

namespace DialogueEngine

-- Powers are those of the core library, whatever else is imported.
attribute [local instance (high)] instPowNat

open Json (Reader Record lookup depth depthMembers heldMembers_iff rounded)
open Json.Reader (Recovers)

/-! ## Held values -/

namespace Json

theorem mem_of_lookup {key : String} {v : Json} {ms : List (String × Json)}
    (found : lookup key ms = some v) : (key, v) ∈ ms := by
  induction ms with
  | nil => cases found
  | cons m rest ih =>
    obtain ⟨k, w⟩ := m
    rw [lookup] at found
    split at found
    · next same =>
      cases found
      rw [same]
      exact List.mem_cons_self
    · exact List.mem_cons_of_mem _ (ih found)

/-- A member of a value that is held is held. -/
theorem Held.member {v : Json} {ms : List (String × Json)} (held : (Json.object ms).Held)
    (key : String) (found : lookup key ms = some v) : v.Held :=
  heldMembers_iff.1 held.2 (key, v) (mem_of_lookup found)

theorem Held.items {α : Type} {f : α → Json} {xs : List α} (held : (Json.array (xs.map f)).Held) :
    ∀ x ∈ xs, (f x).Held :=
  fun x member => heldItems_iff.1 held (f x) (List.mem_map_of_mem member)

theorem Held.entries {α : Type} {f : α → Json} {t : Table α}
    (held : (Json.object (t.entries.map fun e => (e.1, f e.2))).Held) :
    ∀ e ∈ t.entries, (f e.2).Held :=
  fun e member => heldMembers_iff.1 held.2 (e.1, f e.2)
    (List.mem_map_of_mem (f := fun e : String × α => (e.1, f e.2)) member)

@[simp] theorem depth_string (s : String) : depth (.string s) = 0 := rfl

@[simp] theorem depth_bool (b : Bool) : depth (.bool b) = 0 := rfl

@[simp] theorem depth_ofNat (n : Nat) : depth (.ofNat n) = 0 := rfl

@[simp] theorem depth_ofText? (s : Option String) : depth (.ofText? s) = 0 := by
  cases s <;> rfl

@[simp] theorem rounded_ofText? (s : Option String) : rounded (.ofText? s) = .ofText? s := by
  cases s <;> rfl

@[simp] theorem rounded_ofNat (n : Nat) : rounded (.ofNat n) = .ofNat n := rfl

theorem recovers_json {v : Json} (held : v.Held) : Recovers Reader.json v v.rounded :=
  fun levels => readJson_scanned Number.rereads v levels held

theorem recovers_count {n : Nat} (held : (Json.ofNat n).Held) :
    Recovers Reader.count (.ofNat n) n := by
  refine .flat rfl fun m => ?_
  have reread := Number.rereads_int held
  obtain ⟨-, most⟩ := held
  rw [Number.Rereads, Number.rounded] at reread
  have fits : (0 : Int) ≤ n ∧ (n : Int) < 2 ^ 64 := by omega
  simp only [ofNat, scanned, reread, Reader.count]
  rw [if_pos fits, Int.toNat_natCast]

end Json

/-! ## Texts with a meaning -/

theorem Role.recovers (role : Role) : Recovers Role.read (.string role.text) role :=
  .flat rfl fun _ => by cases role <;> rfl

theorem Status.recovers (status : Status) : Recovers Status.read (.string status.text) status :=
  .flat rfl fun _ => by cases status <;> rfl

theorem Layer.recovers (layer : Layer) : Recovers Layer.read (.string layer.text) layer :=
  .flat rfl fun _ => by cases layer <;> rfl

theorem Action.recovers (a : Action) : Recovers Action.read a.toJson (.ofText a.text) :=
  .flat rfl fun _ => rfl

theorem Instant.recovers {t : Instant} (inRange : Instant.yearInRange t.year = true) :
    Recovers Instant.read t.toJson t := by
  refine .flat rfl fun m => ?_
  have found := Instant.read?_written inRange
  simp [Instant.toJson, Json.scanned, Instant.read, found, bind, Except.bind]

/-! ## Calls and messages -/

def ToolCall.rounded (call : ToolCall) : ToolCall :=
  { call with arguments := call.arguments.rounded }

theorem ToolCall.recovers {call : ToolCall} (held : call.toJson.Held) :
    Recovers ToolCall.read call.toJson call.rounded := by
  refine Record.recovers ["id", "name", "arguments"] (by simp) (by simp) ?_
  intro r levels inside reads
  have argumentsHeld : call.arguments.Held := held.member "arguments" (by simp [lookup])
  have id := reads.settles_required inside "id" (Reader.recovers_text call.id) (by simp)
    (by simp [lookup])
  have name := reads.settles_required inside "name" (Reader.recovers_text call.name) (by simp)
    (by simp [lookup])
  have arguments := reads.settles_defaulted inside "arguments" .null
    (Json.recovers_json argumentsHeld) (by simp) (by simp [lookup])
  exact (((id.map _).seq name).seq arguments).congr (by simp [depthMembers])

theorem ToolCall.recovers_list {calls : List ToolCall}
    (held : (Json.array (calls.map ToolCall.toJson)).Held) :
    Recovers (Reader.list ToolCall.read) (.array (calls.map ToolCall.toJson))
      (calls.map ToolCall.rounded) :=
  .list fun call member => ToolCall.recovers (held.items call member)

theorem ToolCall.rounded_toJson (call : ToolCall) : call.rounded.toJson = call.toJson.rounded := rfl

def Message.rounded (m : Message) : Message :=
  { m with toolCalls := m.toolCalls.map ToolCall.rounded }

theorem Message.member?_keys (key : String) (value : Option Json) :
    ((Message.member? key value).map (·.1)).Sublist [key] := by
  cases value <;> simp [Message.member?]

theorem Message.depthMembers_member? (key : String) (value : Option Json) :
    depthMembers (Message.member? key value) = (value.map depth).getD 0 := by
  cases value <;> simp [Message.member?, depthMembers]

/-- The calls of a message where it has any. -/
def Message.callsGiven? (m : Message) : Option Json :=
  if m.toolCalls.isEmpty then none else some (.array (m.toolCalls.map ToolCall.toJson))

/-- The mark of a message that reports an error. -/
def Message.errorGiven? (m : Message) : Option Json :=
  if m.isError then some (.bool true) else none

/-- The members of a message as they are written. -/
def Message.members (m : Message) : List (String × Json) :=
  [("content", .string m.content), ("created_at", m.createdAt.toJson), ("id", .string m.id)] ++
    (Message.member? "is_error" m.errorGiven? ++
    (Message.member? "node_id" (m.node.map .string) ++
    ([("role", .string m.role.text)] ++
    (Message.member? "tool_call_id" (m.toolCallId.map .string) ++
    Message.member? "tool_calls" m.callsGiven?))))

theorem Message.toJson_eq (m : Message) : m.toJson = .object m.members := by
  simp only [Message.toJson, Message.members, callsGiven?, errorGiven?, List.append_assoc]

theorem Message.keys_sublist (m : Message) : (m.members.map (·.1)).Sublist
    (["content", "created_at", "id"] ++ (["is_error"] ++ (["node_id"] ++ (["role"] ++
      (["tool_call_id"] ++ ["tool_calls"]))))) := by
  simp only [Message.members, List.map_append]
  exact (List.Sublist.refl _).append ((member?_keys _ _).append ((member?_keys _ _).append
    ((List.Sublist.refl _).append ((member?_keys _ _).append (member?_keys _ _)))))

theorem Message.recovers_callsGiven {m : Message} (held : m.toJson.Held) (v : Json)
    (given : m.callsGiven? = some v) :
    Recovers (Reader.list ToolCall.read) v (m.toolCalls.map ToolCall.rounded) := by
  have member : lookup "tool_calls" m.members = m.callsGiven? := by
    simp [Message.members, lookup, Message.lookup_member?, Message.lookup_member?_last]
  rw [Message.toJson_eq] at held
  have calls : v.Held := held.member "tool_calls" (member.trans given)
  unfold callsGiven? at given
  split at given
  · cases given
  · cases given
    exact ToolCall.recovers_list calls

theorem Message.recovers_errorGiven (m : Message) (v : Json) (given : m.errorGiven? = some v) :
    Recovers Reader.bool v m.isError := by
  unfold errorGiven? at given
  split at given
  · next failing =>
    cases given
    rw [failing]
    exact Reader.recovers_bool true
  · cases given

theorem Message.recovers {m : Message} (held : m.toJson.Held)
    (inRange : Instant.yearInRange m.createdAt.year = true) :
    Recovers Message.read m.toJson m.rounded := by
  have callsGiven := m.recovers_callsGiven held
  rw [Message.toJson_eq]
  refine Record.recovers ["id", "role", "content", "tool_calls", "tool_call_id", "is_error",
    "node_id", "created_at"] (m.keys_sublist.nodup (by simp))
    (fun key member => by
      have inside := m.keys_sublist.subset member
      simp at inside ⊢
      tauto) ?_
  intro r levels inside reads
  have text? (s : Option String) (v : Json) (given : s.map Json.string = some v) :
      Recovers (Reader.nullable Reader.text) v s := by
    cases s with
    | none => cases given
    | some s =>
      cases given
      exact Reader.recovers_text? (some s)
  have absent (s : Option String) (none : s.map Json.string = none) : Option.none = s := by
    cases s with
    | none => rfl
    | some s => cases none
  have id := reads.settles_required inside "id" (Reader.recovers_text m.id) (by simp)
    (by simp [Message.members, lookup])
  have role := reads.settles_required inside "role" m.role.recovers (by simp)
    (by simp [Message.members, lookup, Message.lookup_member?])
  have content := reads.settles_required inside "content" (Reader.recovers_text m.content)
    (by simp) (by simp [Message.members, lookup])
  have toolCalls := reads.settles_leftOut inside "tool_calls" callsGiven
    (fun none => by
      have nothing : m.toolCalls = [] := by simpa [callsGiven?] using none
      rw [nothing, List.map_nil])
    (by simp)
    (by simp [Message.members, lookup, Message.lookup_member?, Message.lookup_member?_last])
  have toolCallId := reads.settles_leftOut inside "tool_call_id" (text? m.toolCallId)
    (absent m.toolCallId) (by simp)
    (by simp [Message.members, lookup, Message.lookup_member?, Message.lookup_member?_last])
  have isError := reads.settles_leftOut inside "is_error" m.recovers_errorGiven
    (fun none => by
      have fine : m.isError = false := by simpa [errorGiven?] using none
      rw [fine])
    (by simp)
    (by simp [Message.members, lookup, Message.lookup_member?, Message.lookup_member?_last])
  have node := reads.settles_leftOut inside "node_id" (text? m.node) (absent m.node) (by simp)
    (by simp [Message.members, lookup, Message.lookup_member?, Message.lookup_member?_last])
  have createdAt := reads.settles_required inside "created_at" (Instant.recovers inRange) (by simp)
    (by simp [Message.members, lookup])
  refine ((((((((id.map Message.mk).seq role).seq content).seq toolCalls).seq toolCallId).seq
    isError).seq node).seq createdAt).congr ?_
  have error : (m.errorGiven?.map depth).getD 0 = 0 := by
    unfold errorGiven?
    split <;> rfl
  have texts (s : Option String) : ((s.map Json.string).map depth).getD 0 = 0 := by
    cases s <;> rfl
  simp only [Message.members, Json.depthMembers_append, Message.depthMembers_member?, depthMembers,
    error, texts, Instant.toJson, Json.depth_string]
  omega

theorem Message.roundedMembers_member? (key : String) (value : Option Json) :
    Json.roundedMembers (Message.member? key value) =
      Message.member? key (value.map Json.rounded) := by
  cases value <;> rfl

theorem rounded_list {α : Type} {f : α → Json} {g : α → α}
    (each : ∀ x, (g x |> f) = (f x).rounded) (xs : List α) :
    Json.array ((xs.map g).map f) = (Json.array (xs.map f)).rounded := by
  rw [Json.rounded, Json.roundedItems_eq_map, List.map_map, List.map_map]
  congr 2
  exact funext each

/-- What is written of a message with its doubles rounded is what was written, rounded. -/
theorem Message.rounded_toJson (m : Message) : m.rounded.toJson = m.toJson.rounded := by
  have calls : m.rounded.callsGiven? = m.callsGiven?.map Json.rounded := by
    unfold callsGiven? Message.rounded
    cases m.toolCalls with
    | nil => rfl
    | cons call rest => exact congrArg some (rounded_list ToolCall.rounded_toJson (call :: rest))
  have error : m.rounded.errorGiven? = m.errorGiven?.map Json.rounded := by
    unfold errorGiven? Message.rounded
    cases m.isError <;> rfl
  have texts (s : Option String) : s.map Json.string = (s.map Json.string).map Json.rounded := by
    cases s <;> rfl
  rw [Message.toJson_eq, Message.toJson_eq, Json.rounded]
  congr 1
  simp only [Message.members, Json.roundedMembers_append, roundedMembers_member?, calls, error]
  rw [← texts, ← texts]
  rfl

/-! ## Listings and records -/

def ListedTool.rounded (t : ListedTool) : ListedTool :=
  { t with inputSchema := t.inputSchema.rounded }

def OfferedTool.rounded (t : OfferedTool) : OfferedTool :=
  { t with definition := t.definition.rounded }

theorem ListedTool.recovers {t : ListedTool} (held : t.toJson.Held) :
    Recovers ListedTool.read t.toJson t.rounded := by
  refine Record.recovers ["name", "description", "input_schema"] (by simp) (by simp) ?_
  intro r levels inside reads
  have schemaHeld : t.inputSchema.Held := held.member "input_schema" (by simp [lookup])
  have name := reads.settles_required inside "name" (Reader.recovers_text t.name) (by simp)
    (by simp [lookup])
  have description := reads.settles_defaulted inside "description" ""
    (Reader.recovers_text t.description) (by simp) (by simp [lookup])
  have schema := reads.settles_required inside "input_schema" (Json.recovers_json schemaHeld)
    (by simp) (by simp [lookup])
  exact (((name.map _).seq description).seq schema).congr (by simp [depthMembers])

theorem OfferedTool.recovers {t : OfferedTool} (held : t.toJson.Held) :
    Recovers OfferedTool.read t.toJson t.rounded := by
  refine Record.recovers ["provider", "original_name", "definition"] (by simp) (by simp) ?_
  intro r levels inside reads
  have definitionHeld : t.definition.toJson.Held := held.member "definition" (by simp [lookup])
  have provider := reads.settles_required inside "provider" (Reader.recovers_text t.provider)
    (by simp) (by simp [lookup])
  have listedName := reads.settles_required inside "original_name"
    (Reader.recovers_text t.listedName) (by simp) (by simp [lookup])
  have definition := reads.settles_required inside "definition"
    (ListedTool.recovers definitionHeld) (by simp) (by simp [lookup])
  exact (((provider.map _).seq listedName).seq definition).congr (by simp [depthMembers])

theorem OfferedTool.rounded_toJson (t : OfferedTool) : t.rounded.toJson = t.toJson.rounded := rfl

/-- A record with its doubles rounded; the action is the one that its text says. -/
def StepRecord.rounded (r : StepRecord) : StepRecord :=
  { r with
    action := .ofText r.action.text
    prepared := r.prepared.rounded
    executed := r.executed.rounded
    before := r.before.rounded
    after := r.after.rounded }

theorem StepRecord.recovers {r : StepRecord} (held : r.toJson.Held)
    (inRange : Instant.yearInRange r.timestamp.year = true) :
    Recovers StepRecord.read r.toJson r.rounded := by
  refine Record.recovers ["index", "node_id", "node_kind", "node_name", "action", "prep_result",
    "exec_result", "state_before", "state_after", "timestamp"] (by simp) (by simp) ?_
  intro record levels inside reads
  have indexHeld : (Json.ofNat r.index).Held := held.member "index" (by simp [lookup])
  have preparedHeld : r.prepared.Held := held.member "prep_result" (by simp [lookup])
  have executedHeld : r.executed.Held := held.member "exec_result" (by simp [lookup])
  have beforeHeld : r.before.Held := held.member "state_before" (by simp [lookup])
  have afterHeld : r.after.Held := held.member "state_after" (by simp [lookup])
  have index := reads.settles_required inside "index" (Json.recovers_count indexHeld) (by simp)
    (by simp [lookup])
  have node := reads.settles_required inside "node_id" (Reader.recovers_text r.node) (by simp)
    (by simp [lookup])
  have nodeKind := reads.settles_required inside "node_kind" (Reader.recovers_text r.nodeKind)
    (by simp) (by simp [lookup])
  have nodeName := reads.settles_required inside "node_name" (Reader.recovers_text r.nodeName)
    (by simp) (by simp [lookup])
  have action := reads.settles_required inside "action" r.action.recovers (by simp)
    (by simp [lookup])
  have prepared := reads.settles_required inside "prep_result" (Json.recovers_json preparedHeld)
    (by simp) (by simp [lookup])
  have executed := reads.settles_required inside "exec_result" (Json.recovers_json executedHeld)
    (by simp) (by simp [lookup])
  have before := reads.settles_required inside "state_before" (Json.recovers_json beforeHeld)
    (by simp) (by simp [lookup])
  have after := reads.settles_required inside "state_after" (Json.recovers_json afterHeld)
    (by simp) (by simp [lookup])
  have timestamp := reads.settles_required inside "timestamp" (Instant.recovers inRange) (by simp)
    (by simp [lookup])
  refine ((((((((((index.map StepRecord.mk).seq node).seq nodeKind).seq nodeName).seq action).seq
    prepared).seq executed).seq before).seq after).seq timestamp).congr ?_
  simp only [depthMembers, Json.depth_string, Json.depth_ofNat, Action.toJson, Instant.toJson]
  omega

theorem StepRecord.rounded_toJson (r : StepRecord) : r.rounded.toJson = r.toJson.rounded := by
  simp [StepRecord.toJson, StepRecord.rounded, Json.rounded, Json.roundedMembers, Action.toJson,
    Instant.toJson]

theorem FailureInfo.recovers (info : FailureInfo) :
    Recovers FailureInfo.read info.toJson info := by
  refine Record.recovers ["kind", "code", "message"] (by simp) (by simp) ?_
  intro r levels inside reads
  have layer := reads.settles_required inside "kind" info.layer.recovers (by simp)
    (by simp [lookup])
  have code := reads.settles_required inside "code" (Reader.recovers_text info.code) (by simp)
    (by simp [lookup])
  have message := reads.settles_required inside "message" (Reader.recovers_text info.message)
    (by simp) (by simp [lookup])
  exact (((layer.map _).seq code).seq message).congr (by simp [depthMembers])

theorem FailureInfo.recovers_nullable (info : Option FailureInfo) :
    Recovers (Reader.nullable FailureInfo.read) ((info.map FailureInfo.toJson).getD .null)
      info := by
  cases info with
  | none => exact .flat rfl fun _ => rfl
  | some info => exact (FailureInfo.recovers info).nullable

/-! ## Tables -/

/-- The listings of providers as a value. -/
def cacheToJson (t : Table (List OfferedTool)) : Json :=
  .object (t.entries.map fun e => (e.1, .array (e.2.map OfferedTool.toJson)))

def revisionsToJson (t : Table Nat) : Json := .object (t.entries.map fun e => (e.1, .ofNat e.2))

theorem recovers_cache {t : Table (List OfferedTool)} (held : (cacheToJson t).Held) :
    Recovers (Reader.table (Reader.list OfferedTool.read)) (cacheToJson t)
      (t.mapValues (·.map OfferedTool.rounded)) := by
  have entries := Json.Held.entries
    (f := fun tools : List OfferedTool => .array (tools.map OfferedTool.toJson)) held
  exact .table (f := fun tools : List OfferedTool => .array (tools.map OfferedTool.toJson))
    fun e member => .list fun tool inside =>
      OfferedTool.recovers ((entries e member).items tool inside)

theorem recovers_revisions {t : Table Nat} (held : (revisionsToJson t).Held) :
    Recovers (Reader.table Reader.count) (revisionsToJson t) t := by
  have recovers : Recovers (Reader.table Reader.count) (revisionsToJson t)
      (t.mapValues fun n => n) :=
    .table fun e member => Json.recovers_count (Json.Held.entries (f := .ofNat) held e member)
  rwa [show t.mapValues (fun n => n) = t from Table.eq_of_entries (List.map_id _)] at recovers

theorem recovers_values {t : Table Json} (held : (Json.object t.entries).Held) :
    Recovers (Reader.table Reader.json) (.object t.entries) (t.mapValues Json.rounded) := by
  have same : t.entries.map (fun e => (e.1, e.2)) = t.entries := List.map_id _
  rw [← same] at held ⊢
  exact .table (f := fun v => v) fun e member =>
    Json.recovers_json (Json.Held.entries (f := fun v => v) held e member)

/-! ## Conversations -/

/-- A conversation as a program holds it: its counts fit 64 bits, values that are free in form are
held, and the years of its instants can be read. -/
structure Conversation.Held (c : Conversation) : Prop where
  value : c.toJson.Held
  created : Instant.yearInRange c.createdAt.year = true
  updated : Instant.yearInRange c.updatedAt.year = true
  messages : ∀ m ∈ c.messages, Instant.yearInRange m.createdAt.year = true
  trace : ∀ r ∈ c.trace, Instant.yearInRange r.timestamp.year = true

instance (c : Conversation) : Decidable c.Held :=
  decidable_of_iff (c.toJson.Held ∧ Instant.yearInRange c.createdAt.year = true ∧
      Instant.yearInRange c.updatedAt.year = true ∧
      (∀ m ∈ c.messages, Instant.yearInRange m.createdAt.year = true) ∧
      ∀ r ∈ c.trace, Instant.yearInRange r.timestamp.year = true)
    ⟨fun ⟨value, created, updated, messages, trace⟩ =>
      ⟨value, created, updated, messages, trace⟩,
    fun ⟨value, created, updated, messages, trace⟩ =>
      ⟨value, created, updated, messages, trace⟩⟩

/-- A conversation with its doubles rounded; the actions of its records are those that their texts
say. -/
def Conversation.rounded (c : Conversation) : Conversation :=
  { c with
    messages := c.messages.map Message.rounded
    pending := c.pending.map ToolCall.rounded
    cache := c.cache.mapValues (·.map OfferedTool.rounded)
    trace := c.trace.map StepRecord.rounded
    values := c.values.mapValues Json.rounded }

namespace Conversation

/-- The members of a conversation as they are written. -/
def members (c : Conversation) : List (String × Json) :=
  c.membersBeforeTrace ++ ("debug_trace", .array (c.trace.map StepRecord.toJson)) ::
    c.membersAfterTrace

/-- The text of a conversation that is held is read as the conversation with its doubles rounded,
or found malformed where it nests too deeply. -/
theorem recovers {c : Conversation} (held : c.Held) :
    Recovers Conversation.read c.toJson c.rounded := by
  have part (key : String) (v : Json) (found : lookup key c.members = some v) : v.Held :=
    held.value.member key found
  simp only [members, membersBeforeTrace, membersAfterTrace, List.cons_append,
    List.nil_append] at part
  have messagesHeld : (Json.array (c.messages.map Message.toJson)).Held :=
    part "messages" _ (by simp [lookup])
  have pendingHeld : (Json.array (c.pending.map ToolCall.toJson)).Held :=
    part "pending_tool_calls" _ (by simp [lookup])
  have cacheHeld : (cacheToJson c.cache).Held := part "tool_cache" _ (by simp [lookup, cacheToJson])
  have revisionsHeld : (revisionsToJson c.cacheRevisions).Held :=
    part "tool_cache_revisions" _ (by simp [lookup, revisionsToJson])
  have traceHeld : (Json.array (c.trace.map StepRecord.toJson)).Held :=
    part "debug_trace" _ (by simp [lookup])
  have valuesHeld : (Json.object c.values.entries).Held := part "variables" _ (by simp [lookup])
  have stepsHeld : (Json.ofNat c.steps).Held := part "step_count" _ (by simp [lookup])
  refine Record.recovers ["id", "flow_id", "messages", "current_node_id", "next_node_id", "status",
    "pending_tool_calls", "tool_cache", "tool_cache_revisions", "pending_handoff", "cancelled",
    "debug_mode", "debug_trace", "variables", "start_prompt", "last_response", "last_error",
    "step_count", "created_at", "updated_at"]
    (by simp [membersBeforeTrace, membersAfterTrace])
    (by simp [membersBeforeTrace, membersAfterTrace]) ?_
  intro r levels inside reads
  simp only [membersBeforeTrace, membersAfterTrace, List.cons_append, List.nil_append] at reads ⊢
  have id := reads.settles_required inside "id" (Reader.recovers_text c.id) (by simp)
    (by simp [lookup])
  have flow := reads.settles_required inside "flow_id" (Reader.recovers_text c.flow) (by simp)
    (by simp [lookup])
  have messages := reads.settles_defaulted inside "messages" []
    (Recovers.list (f := Message.toJson) (g := Message.rounded) fun m member =>
      Message.recovers (messagesHeld.items m member) (held.messages m member))
    (by simp) (by simp [lookup])
  have current := reads.settles_defaulted inside "current_node_id" none
    (Reader.recovers_text? c.current) (by simp) (by simp [lookup])
  have next := reads.settles_defaulted inside "next_node_id" none
    (Reader.recovers_text? c.next) (by simp) (by simp [lookup])
  have status := reads.settles_defaulted inside "status" .running c.status.recovers (by simp)
    (by simp [lookup])
  have pending := reads.settles_defaulted inside "pending_tool_calls" []
    (ToolCall.recovers_list pendingHeld) (by simp) (by simp [lookup])
  have cache := reads.settles_defaulted inside "tool_cache" ∅ (recovers_cache cacheHeld)
    (by simp) (by simp [lookup, cacheToJson])
  have revisions := reads.settles_defaulted inside "tool_cache_revisions" ∅
    (recovers_revisions revisionsHeld) (by simp) (by simp [lookup, revisionsToJson])
  have handoff := reads.settles_defaulted inside "pending_handoff" none
    (Reader.recovers_text? c.handoff) (by simp) (by simp [lookup])
  have cancelled := reads.settles_defaulted inside "cancelled" false
    (Reader.recovers_bool c.cancelled) (by simp) (by simp [lookup])
  have debugMode := reads.settles_defaulted inside "debug_mode" false
    (Reader.recovers_bool c.debugMode) (by simp) (by simp [lookup])
  have trace := reads.settles_defaulted inside "debug_trace" []
    (Recovers.list (f := StepRecord.toJson) (g := StepRecord.rounded) fun s member =>
      StepRecord.recovers (traceHeld.items s member) (held.trace s member))
    (by simp) (by simp [lookup])
  have values := reads.settles_defaulted inside "variables" ∅ (recovers_values valuesHeld)
    (by simp) (by simp [lookup])
  have startPrompt := reads.settles_defaulted inside "start_prompt" none
    (Reader.recovers_text? c.startPrompt) (by simp) (by simp [lookup])
  have lastResponse := reads.settles_defaulted inside "last_response" none
    (Reader.recovers_text? c.lastResponse) (by simp) (by simp [lookup])
  have lastError := reads.settles_defaulted inside "last_error" none
    (FailureInfo.recovers_nullable c.lastError) (by simp) (by simp [lookup])
  have steps := reads.settles_defaulted inside "step_count" 0 (Json.recovers_count stepsHeld)
    (by simp) (by simp [lookup])
  have createdAt := reads.settles_required inside "created_at" (Instant.recovers held.created)
    (by simp) (by simp [lookup])
  have updatedAt := reads.settles_required inside "updated_at" (Instant.recovers held.updated)
    (by simp) (by simp [lookup])
  refine ((((((((((((((((((((id.map Conversation.mk).seq flow).seq messages).seq current).seq
    next).seq status).seq pending).seq cache).seq revisions).seq handoff).seq cancelled).seq
    debugMode).seq trace).seq values).seq startPrompt).seq lastResponse).seq lastError).seq
    steps).seq createdAt).seq updatedAt).congr ?_
  simp only [depthMembers, Json.depth_string, Json.depth_bool, Json.depth_ofNat,
    Json.depth_ofText?, Instant.toJson, cacheToJson, revisionsToJson, Nat.max_le, Nat.zero_le,
    true_and, and_true]
  tauto

theorem rounded_table {α : Type} {f : α → Json} {g : α → α}
    (each : ∀ x, f (g x) = (f x).rounded) (t : Table α) :
    Json.object ((t.mapValues g).entries.map fun e => (e.1, f e.2)) =
      (Json.object (t.entries.map fun e => (e.1, f e.2))).rounded := by
  rw [Json.rounded, Json.roundedMembers_eq_map, Table.mapValues, List.map_map, List.map_map]
  congr 2
  exact funext fun e => by simp [each]

theorem rounded_cache (t : Table (List OfferedTool)) :
    cacheToJson (t.mapValues (·.map OfferedTool.rounded)) = (cacheToJson t).rounded :=
  rounded_table (f := fun tools : List OfferedTool => .array (tools.map OfferedTool.toJson))
    (fun tools => rounded_list OfferedTool.rounded_toJson tools) t

theorem rounded_revisions (t : Table Nat) : revisionsToJson t = (revisionsToJson t).rounded := by
  rw [revisionsToJson, Json.rounded, Json.roundedMembers_eq_map, List.map_map]
  rfl

theorem rounded_values (t : Table Json) :
    Json.object (t.mapValues Json.rounded).entries = (Json.object t.entries).rounded := by
  rw [Json.rounded, Json.roundedMembers_eq_map]
  rfl

theorem rounded_lastError (info : Option FailureInfo) :
    (info.map FailureInfo.toJson).getD .null =
      ((info.map FailureInfo.toJson).getD .null).rounded := by
  cases info <;> rfl

/-- What is written of a conversation with its doubles rounded is what was written, rounded. -/
theorem rounded_toJson (c : Conversation) : c.rounded.toJson = c.toJson.rounded := by
  have cache := rounded_cache c.cache
  have revisions := rounded_revisions c.cacheRevisions
  simp only [cacheToJson, revisionsToJson] at cache revisions
  have members : c.rounded.members = Json.roundedMembers c.members := by
    simp only [members, membersBeforeTrace, membersAfterTrace, List.cons_append, List.nil_append,
      Json.roundedMembers, Json.rounded_ofText?, Json.rounded_ofNat]
    rw [← rounded_list Message.rounded_toJson, ← rounded_list ToolCall.rounded_toJson,
      ← rounded_list StepRecord.rounded_toJson, ← rounded_lastError, ← rounded_values, ← cache,
      ← revisions]
    rfl
  exact congrArg Json.object members

/-- Reading what has been written gives the conversation with its doubles rounded, unless the text
nests deeper than a text may. -/
theorem read_written {c : Conversation} (held : c.Held) :
    Conversation.read.ofText c.toJson.write =
      if c.toJson.depth ≤ Json.textLevels then .ok c.rounded else .error .malformed := by
  rw [Reader.ofText_write, recovers held]

end Conversation

end DialogueEngine
