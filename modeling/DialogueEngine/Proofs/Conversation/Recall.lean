import DialogueEngine.Conversation.Written
import DialogueEngine.Proofs.Conversation.Pending
import DialogueEngine.Proofs.Json.Records
import DialogueEngine.Proofs.Store.Holding

/-!
Conversations that are written down and read again. What comes back agrees in everything but values
that are free in form and instants: roles and texts of messages, ids and names of calls, what is
pending, status and failure are as they were. So whatever depends on nothing else is durable.
-/

namespace DialogueEngine

open Json (Medium Reader Record lookup scanned)
open Json.Placed (map_eq_ok seq_eq_ok)

/-! ## What is recalled -/

/-- A call without its arguments. -/
def ToolCall.bare (call : ToolCall) : ToolCall := { call with arguments := .null }

/-- A message without the arguments of its calls and without its instant. -/
def Message.bare (m : Message) : Message :=
  { m with toolCalls := m.toolCalls.map ToolCall.bare, createdAt := default }

/-- A conversation without values that are free in form, listings, counts and instants. -/
def Conversation.bare (c : Conversation) : Conversation :=
  { c with
    messages := c.messages.map Message.bare
    pending := c.pending.map ToolCall.bare
    cache := ∅
    cacheRevisions := ∅
    trace := []
    values := ∅
    steps := 0
    createdAt := default
    updatedAt := default }

/-! ## Calls and messages -/

theorem ToolCall.bare_of_read {m : Medium} {call call' : ToolCall}
    (ok : ToolCall.read m (scanned call.toJson) = .ok call') : call'.bare = call.bare := by
  obtain ⟨r, -, made, reads⟩ := Record.read_scanned ["id", "name", "arguments"] ok
  obtain ⟨_, arguments, made2, -, rfl⟩ := seq_eq_ok made
  obtain ⟨_, name, made1, named, rfl⟩ := seq_eq_ok made2
  obtain ⟨id, identified, rfl⟩ := map_eq_ok made1
  have sameId : id = call.id := reads.text identified (by simp) (by simp [lookup])
  have sameName : name = call.name := reads.text named (by simp) (by simp [lookup])
  rw [sameId, sameName]
  rfl

theorem ToolCall.bare_of_readList {m : Medium} {calls calls' : List ToolCall}
    (ok : Reader.list ToolCall.read m (scanned (.array (calls.map ToolCall.toJson))) = .ok calls') :
    calls'.map ToolCall.bare = calls.map ToolCall.bare :=
  Reader.list_scanned (fun _ _ _ => ToolCall.bare_of_read) ok

theorem Role.eq_of_read {m : Medium} {role role' : Role}
    (ok : Role.read m (scanned (.string role.text)) = .ok role') : role' = role := by
  cases role <;> cases ok <;> rfl

/-- Where a value is missing nothing is written. -/
theorem Message.lookup_member? (key name : String) (value : Option Json)
    (rest : List (String × Json)) : lookup name (Message.member? key value ++ rest) =
      if key = name then value.or (lookup name rest) else lookup name rest := by
  cases value with
  | none => simp [Message.member?]
  | some v => by_cases same : key = name <;> simp [Message.member?, lookup, same]

theorem Message.lookup_member?_last (key name : String) (value : Option Json) :
    lookup name (Message.member? key value) = if key = name then value else none := by
  have last := Message.lookup_member? key name value []
  rw [List.append_nil] at last
  simpa [lookup] using last

theorem Message.bare_of_read {m : Medium} {message message' : Message}
    (ok : Message.read m (scanned message.toJson) = .ok message') :
    message'.bare = message.bare := by
  obtain ⟨r, -, made, reads⟩ := Record.read_scanned ["id", "role", "content", "tool_calls",
    "tool_call_id", "is_error", "node_id", "created_at"] ok
  obtain ⟨_, created, made7, -, rfl⟩ := seq_eq_ok made
  obtain ⟨_, node, made6, atNode, rfl⟩ := seq_eq_ok made7
  obtain ⟨_, isError, made5, failing, rfl⟩ := seq_eq_ok made6
  obtain ⟨_, toolCallId, made4, answering, rfl⟩ := seq_eq_ok made5
  obtain ⟨_, toolCalls, made3, asking, rfl⟩ := seq_eq_ok made4
  obtain ⟨_, content, made2, saying, rfl⟩ := seq_eq_ok made3
  obtain ⟨_, role, made1, speaking, rfl⟩ := seq_eq_ok made2
  obtain ⟨id, identified, rfl⟩ := map_eq_ok made1
  simp only [List.append_assoc, List.cons_append, List.nil_append] at reads
  have sameId : id = message.id := reads.text identified (by simp) (by simp [lookup])
  have sameContent : content = message.content := reads.text saying (by simp) (by simp [lookup])
  have sameRole : role = message.role := by
    refine Role.eq_of_read (reads.required speaking (by simp) ?_)
    simp [lookup, Message.lookup_member?]
  have sameNode : node = message.node := by
    apply reads.leftOut? atNode (by simp)
    simp [lookup, Message.lookup_member?, Message.lookup_member?_last]
  have sameAnswer : toolCallId = message.toolCallId := by
    apply reads.leftOut? answering (by simp)
    simp [lookup, Message.lookup_member?, Message.lookup_member?_last]
  have sameError : isError = message.isError := by
    cases given : message.isError with
    | true =>
      apply reads.bool failing (by simp)
      simp [lookup, Message.lookup_member?, given]
    | false =>
      apply reads.default failing (by simp)
      simp [lookup, Message.lookup_member?, Message.lookup_member?_last, given]
  have sameCalls : toolCalls.map ToolCall.bare = message.toolCalls.map ToolCall.bare := by
    by_cases none : message.toolCalls = []
    · rw [none, reads.default asking (by simp) (by
        simp [lookup, Message.lookup_member?, Message.lookup_member?_last, none])]
    · refine ToolCall.bare_of_readList (reads.defaulted asking (by simp) ?_)
      simp [lookup, Message.lookup_member?, Message.lookup_member?_last, none]
  rw [sameId, sameContent, sameRole, sameNode, sameAnswer, sameError]
  simp only [Message.bare, sameCalls]

/-! ## Conversations -/

theorem Status.eq_of_read {m : Medium} {status status' : Status}
    (ok : Status.read m (scanned (.string status.text)) = .ok status') : status' = status := by
  cases status <;> cases ok <;> rfl

theorem Layer.eq_of_read {m : Medium} {layer layer' : Layer}
    (ok : Layer.read m (scanned (.string layer.text)) = .ok layer') : layer' = layer := by
  cases layer <;> cases ok <;> rfl

theorem FailureInfo.eq_of_read {m : Medium} {info info' : FailureInfo}
    (ok : FailureInfo.read m (scanned info.toJson) = .ok info') : info' = info := by
  obtain ⟨r, -, made, reads⟩ := Record.read_scanned ["kind", "code", "message"] ok
  obtain ⟨_, text, made2, said, rfl⟩ := seq_eq_ok made
  obtain ⟨_, code, made1, coded, rfl⟩ := seq_eq_ok made2
  obtain ⟨layer, layered, rfl⟩ := map_eq_ok made1
  have sameText : text = info.message := reads.text said (by simp) (by simp [lookup])
  have sameCode : code = info.code := reads.text coded (by simp) (by simp [lookup])
  have sameLayer : layer = info.layer :=
    Layer.eq_of_read (reads.required layered (by simp) (by simp [lookup]))
  rw [sameText, sameCode, sameLayer]

theorem FailureInfo.eq_of_nullable {m : Medium} {info info' : Option FailureInfo}
    (ok : Reader.nullable FailureInfo.read m (scanned ((info.map FailureInfo.toJson).getD .null)) =
      .ok info') : info' = info := by
  cases info with
  | none =>
    cases ok
    rfl
  | some info =>
    have mapped : (FailureInfo.read m (scanned info.toJson)).map some = .ok info' := ok
    cases read : FailureInfo.read m (scanned info.toJson) with
    | error f =>
      rw [read] at mapped
      cases mapped
    | ok found =>
      rw [read] at mapped
      cases mapped
      rw [FailureInfo.eq_of_read read]

/-- What is read where a conversation has been written: texts and flags as they were, every other
field as it is read of its own written form. -/
structure Conversation.ReadBack (m : Medium) (c c' : Conversation) : Prop where
  id : c'.id = c.id
  flow : c'.flow = c.flow
  messages : Reader.list Message.read m (scanned (.array (c.messages.map Message.toJson))) =
    .ok c'.messages
  current : c'.current = c.current
  next : c'.next = c.next
  status : Status.read m (scanned (.string c.status.text)) = .ok c'.status
  pending : Reader.list ToolCall.read m (scanned (.array (c.pending.map ToolCall.toJson))) =
    .ok c'.pending
  cache : Reader.table (Reader.list OfferedTool.read) m (scanned (.object
    (c.cache.entries.map fun e => (e.1, .array (e.2.map OfferedTool.toJson))))) = .ok c'.cache
  cacheRevisions : Reader.table Reader.count m (scanned (.object
    (c.cacheRevisions.entries.map fun e => (e.1, .ofNat e.2)))) = .ok c'.cacheRevisions
  handoff : c'.handoff = c.handoff
  cancelled : c'.cancelled = c.cancelled
  debugMode : c'.debugMode = c.debugMode
  trace : Reader.list StepRecord.read m (scanned (.array (c.trace.map StepRecord.toJson))) =
    .ok c'.trace
  values : Reader.table Reader.json m (scanned (.object c.values.entries)) = .ok c'.values
  startPrompt : c'.startPrompt = c.startPrompt
  lastResponse : c'.lastResponse = c.lastResponse
  lastError : Reader.nullable FailureInfo.read m
    (scanned ((c.lastError.map FailureInfo.toJson).getD .null)) = .ok c'.lastError
  steps : Reader.count m (scanned (.ofNat c.steps)) = .ok c'.steps
  createdAt : Instant.read m (scanned c.createdAt.toJson) = .ok c'.createdAt
  updatedAt : Instant.read m (scanned c.updatedAt.toJson) = .ok c'.updatedAt

theorem Conversation.readBack {m : Medium} {c c' : Conversation}
    (ok : Conversation.read m (scanned c.toJson) = .ok c') :
    ∃ inside, m.enter = .ok inside ∧ ReadBack inside c c' := by
  obtain ⟨r, enters, made, reads⟩ := Record.read_scanned ["id", "flow_id", "messages",
    "current_node_id", "next_node_id", "status", "pending_tool_calls", "tool_cache",
    "tool_cache_revisions", "pending_handoff", "cancelled", "debug_mode", "debug_trace",
    "variables", "start_prompt", "last_response", "last_error", "step_count", "created_at",
    "updated_at"] ok
  obtain ⟨_, updatedAt, made19, changed, rfl⟩ := seq_eq_ok made
  obtain ⟨_, createdAt, made18, created, rfl⟩ := seq_eq_ok made19
  obtain ⟨_, steps, made17, counted, rfl⟩ := seq_eq_ok made18
  obtain ⟨_, lastError, made16, failed, rfl⟩ := seq_eq_ok made17
  obtain ⟨_, lastResponse, made15, responded, rfl⟩ := seq_eq_ok made16
  obtain ⟨_, startPrompt, made14, prompted, rfl⟩ := seq_eq_ok made15
  obtain ⟨_, values, made13, valued, rfl⟩ := seq_eq_ok made14
  obtain ⟨_, trace, made12, recorded, rfl⟩ := seq_eq_ok made13
  obtain ⟨_, debugMode, made11, debugging, rfl⟩ := seq_eq_ok made12
  obtain ⟨_, cancelled, made10, cancelling, rfl⟩ := seq_eq_ok made11
  obtain ⟨_, handoff, made9, handing, rfl⟩ := seq_eq_ok made10
  obtain ⟨_, revisions, made8, revised, rfl⟩ := seq_eq_ok made9
  obtain ⟨_, cache, made7, listed, rfl⟩ := seq_eq_ok made8
  obtain ⟨_, pending, made6, waiting, rfl⟩ := seq_eq_ok made7
  obtain ⟨_, status, made5, standing, rfl⟩ := seq_eq_ok made6
  obtain ⟨_, next, made4, following, rfl⟩ := seq_eq_ok made5
  obtain ⟨_, current, made3, latest, rfl⟩ := seq_eq_ok made4
  obtain ⟨_, messages, made2, said, rfl⟩ := seq_eq_ok made3
  obtain ⟨_, flow, made1, flowing, rfl⟩ := seq_eq_ok made2
  obtain ⟨id, identified, rfl⟩ := map_eq_ok made1
  simp only [membersBeforeTrace, membersAfterTrace, List.cons_append, List.nil_append] at reads
  exact ⟨r.inside, enters,
    { id := reads.text identified (by simp) (by simp [lookup])
      flow := reads.text flowing (by simp) (by simp [lookup])
      messages := reads.defaulted said (by simp) (by simp [lookup])
      current := reads.text? latest (by simp) (by simp [lookup])
      next := reads.text? following (by simp) (by simp [lookup])
      status := reads.defaulted standing (by simp) (by simp [lookup])
      pending := reads.defaulted waiting (by simp) (by simp [lookup])
      cache := reads.defaulted listed (by simp) (by simp [lookup])
      cacheRevisions := reads.defaulted revised (by simp) (by simp [lookup])
      handoff := reads.text? handing (by simp) (by simp [lookup])
      cancelled := reads.bool cancelling (by simp) (by simp [lookup])
      debugMode := reads.bool debugging (by simp) (by simp [lookup])
      trace := reads.defaulted recorded (by simp) (by simp [lookup])
      values := reads.defaulted valued (by simp) (by simp [lookup])
      startPrompt := reads.text? prompted (by simp) (by simp [lookup])
      lastResponse := reads.text? responded (by simp) (by simp [lookup])
      lastError := reads.defaulted failed (by simp) (by simp [lookup])
      steps := reads.defaulted counted (by simp) (by simp [lookup])
      createdAt := reads.required created (by simp) (by simp [lookup])
      updatedAt := reads.required changed (by simp) (by simp [lookup]) }⟩

/-- A conversation that has been read agrees with what was written in all but what is free in form,
listings, counts and instants. -/
theorem Conversation.bare_of_read {m : Medium} {c c' : Conversation}
    (ok : Conversation.read m (scanned c.toJson) = .ok c') : c'.bare = c.bare := by
  obtain ⟨inside, -, back⟩ := Conversation.readBack ok
  have messages : c'.messages.map Message.bare = c.messages.map Message.bare :=
    Reader.list_scanned (fun _ _ _ => Message.bare_of_read) back.messages
  have pending : c'.pending.map ToolCall.bare = c.pending.map ToolCall.bare :=
    ToolCall.bare_of_readList back.pending
  have status : c'.status = c.status := Status.eq_of_read back.status
  have error : c'.lastError = c.lastError := FailureInfo.eq_of_nullable back.lastError
  rw [bare, bare, messages, pending, status, error, back.id, back.flow, back.current, back.next,
    back.handoff, back.cancelled, back.debugMode, back.startPrompt, back.lastResponse]

/-- What depends on nothing but what is recalled survives being written down. -/
theorem Conversation.Durable.of_bare {P : Conversation → Prop}
    (congr : ∀ c c', Conversation.bare c' = c.bare → P c → P c') : Conversation.Durable P := by
  intro c c' holds ok
  rw [Reader.ofText_write] at ok
  exact congr c c' (bare_of_read ok) holds

/-! ## What is durable -/

namespace Conversation

open Transcript (Leads)

variable {c c' : Conversation}

theorem Pauses.of_bare (same : c'.bare = c.bare) (pauses : c.Pauses) : c'.Pauses := by
  have status : c'.status = c.status := (congrArg Conversation.status same :)
  have calls : c'.pending.map ToolCall.bare = c.pending.map ToolCall.bare :=
    (congrArg Conversation.pending same :)
  have nothing : c'.pending = [] ↔ c.pending = [] := by
    rw [← List.map_eq_nil_iff (f := ToolCall.bare), calls, List.map_eq_nil_iff]
  rw [Pauses, status, ne_eq, nothing]
  exact pauses

theorem lastWithRole_bare (c : Conversation) (role : Role) :
    (c.bare.lastWithRole role).map (·.content) = (c.lastWithRole role).map (·.content) := by
  simp only [lastWithRole, bare, ← List.map_reverse, List.find?_map, Option.map_map]
  rfl

theorem durable_coherent : Durable Coherent := by
  refine .of_bare fun c c' same coherent => ⟨coherent.pauses.of_bare same, ?_, ?_⟩
  · have status : c'.status = c.status := (congrArg Conversation.status same :)
    have error : c'.lastError = c.lastError := (congrArg Conversation.lastError same :)
    rw [status, error]
    exact coherent.fails
  · have status : c'.status = c.status := (congrArg Conversation.status same :)
    have response : c'.lastResponse = c.lastResponse := (congrArg Conversation.lastResponse same :)
    rw [status, response, ← lastWithRole_bare c', same, lastWithRole_bare]
    exact coherent.answers

theorem leads_bare {due left : List String} {messages : List Message} :
    Leads due (messages.map Message.bare) left ↔ Leads due messages left := by
  have ids (m : Message) : (m.bare).toolCalls.map (·.id) = m.toolCalls.map (·.id) := by
    simp only [Message.bare, List.map_map]
    rfl
  constructor
  · intro leads
    induction messages generalizing due with
    | nil => exact leads
    | cons m messages ih =>
      cases leads with
      | user role later => exact .user role (ih later)
      | assistant role later => exact .assistant role (ih (ids m ▸ later))
      | tool role answers opened later => exact .tool role answers opened (ih later)
  · intro leads
    induction leads with
    | none same => exact .none same
    | user role later ih => exact .user role ih
    | @assistant m rest left role later ih => exact .assistant role (by rw [ids m]; exact ih)
    | tool role answers opened later ih => exact .tool role answers opened ih

/-- The ids of the calls that are pending are recalled. -/
theorem pending_ids_of_bare (same : c'.bare = c.bare) :
    c'.pending.map (·.id) = c.pending.map (·.id) := by
  have calls : c'.pending.map ToolCall.bare = c.pending.map ToolCall.bare :=
    (congrArg Conversation.pending same :)
  have mapped := congrArg (List.map (·.id)) calls
  rw [List.map_map, List.map_map] at mapped
  exact mapped

theorem durable_accountable : Durable Accountable := by
  refine .of_bare fun c c' same accountable => ⟨accountable.pauses.of_bare same, ?_⟩
  have messages : c'.messages.map Message.bare = c.messages.map Message.bare :=
    (congrArg Conversation.messages same :)
  rw [Balanced, pending_ids_of_bare same, ← leads_bare, messages, leads_bare]
  exact accountable.balanced

theorem durable_guarded : Durable Guarded := by
  refine .of_bare fun c c' same guarded => ⟨guarded.pauses.of_bare same, fun call member => ?_⟩
  have calls : c'.pending.map ToolCall.bare = c.pending.map ToolCall.bare :=
    (congrArg Conversation.pending same :)
  have inside : call.bare ∈ c.pending.map ToolCall.bare := by
    rw [← calls]
    exact List.mem_map_of_mem member
  obtain ⟨former, held, alike⟩ := List.mem_map.1 inside
  have name : former.name = call.name := (congrArg ToolCall.name alike :)
  obtain ⟨notRoute, splits⟩ := guarded.approvable former held
  exact ⟨name ▸ notRoute, name ▸ splits⟩

end Conversation

end DialogueEngine
