import DialogueEngine.Proofs.Engine.Dispatch
import DialogueEngine.Proofs.Tool.Names

/-!
Where a call of a listed tool goes. The call knows the tool by the name that was made for it; what
is asked of whom is read off that name.
-/

namespace DialogueEngine

/-- What discovery makes of a listed tool. -/
theorem OfferedTool.mem_ofListing {provider : String} {listing : List ListedTool} {t : OfferedTool}
    (listed : t ∈ OfferedTool.ofListing provider listing) :
    ∃ tool ∈ listing, t = OfferedTool.ofListed provider tool := by
  obtain ⟨tool, member, same⟩ := List.mem_map.1 (Engine.mem_of_mem_distinct listed)
  exact ⟨tool, member, same.symm⟩

namespace Engine

variable {p : TurnPlan} {h : Handling} {call : ToolCall}

theorem isToBeCancelled_ends (c : Conversation) (s : Situation) :
    (isToBeCancelled c s).Ends fun cancelled s' => s' = s ∧
      cancelled = (c.cancelled || s.cancelRequests.contains c.id) := by
  unfold isToBeCancelled
  split
  · next cancelled =>
    rw [cancelled, Bool.true_or]
    exact ⟨rfl, rfl⟩
  · next live =>
    rw [eq_false_of_ne_true live, Bool.false_or]
    exact ⟨rfl, rfl⟩

/-- A message answers a call with an error. -/
structure ErrorFor (call : ToolCall) (m : Message) : Prop where
  role : m.role = .tool
  answers : m.toolCallId = some call.id
  error : m.isError = true

/-- A call is answered with an error, and nothing is asked for it. -/
def Rejects (h : Handling) (call : ToolCall)
    (x : Interaction Situation Question Answer Handling) : Prop :=
  x.Ends fun h' _ => ∃ m now, ErrorFor call m ∧
    h' = { h with conversation := h.conversation.push m now }

theorem answerCall_rejects {result : ToolResult} (error : result.isError = true) (s : Situation) :
    Rejects h call ((answerCall p h.conversation call result >>= fun c =>
      pure { h with conversation := c }) s) :=
  ⟨_, _, ⟨rfl, rfl, error⟩, rfl⟩

/-- A call that is not gated and names no route is run where its name says, or is answered with an
error. -/
theorem handleCall_asks (free : p.requireApproval = false)
    (plain : ToolName.isRoute call.name = false) (h : Handling) (s : Situation) :
    (∃ q, call.question = .ok q ∧ (handleCall p h call s).AsksOnce q) ∨
      Rejects h call (handleCall p h call s) := by
  obtain ⟨s', cancelled, looks, -, -⟩ := (isToBeCancelled_ends h.conversation s).eq_done
  unfold handleCall
  rw [Activity.bind_of_done looks]
  split
  · exact .inr (answerCall_rejects rfl s')
  rw [if_neg (ne_true_of_eq_false plain), free, Bool.false_and, if_neg Bool.false_ne_true]
  unfold invoke
  rw [if_neg (ne_true_of_eq_false plain), ToolCall.question]
  cases named : ToolName.split call.name with
  | error f => exact .inr (answerCall_rejects rfl s')
  | ok place => exact .inl ⟨_, rfl, rfl, fun answer s'' => trivial⟩

/-- What is asked when the model calls a tool by the name under which a provider's listing is
offered is read off that name. -/
theorem listed_tool_asked {provider : String} {listing : List ListedTool} {t : OfferedTool}
    (listed : t ∈ OfferedTool.ofListing provider listing) (free : p.requireApproval = false)
    (named : call.name = t.name) (h : Handling) (s : Situation) :
    (∃ asked tool, ToolName.split (ToolName.ofTool provider t.listedName) = .ok (asked, tool) ∧
      (handleCall p h call s).AsksOnce (.runTool asked tool call.arguments)) ∨
    Rejects h call (handleCall p h call s) := by
  obtain ⟨tool, -, rfl⟩ := OfferedTool.mem_ofListing listed
  have made : call.name = ToolName.ofTool provider tool.name := named
  have plain : ToolName.isRoute call.name = false := made ▸ ToolName.isRoute_ofTool _ _
  refine (handleCall_asks free plain h s).imp ?_ id
  rintro ⟨q, question, asks⟩
  rw [ToolCall.question, made] at question
  cases read : ToolName.split (ToolName.ofTool provider tool.name) with
  | error f =>
    rw [read] at question
    cases question
  | ok place =>
    rw [read] at question
    cases question
    exact ⟨place.1, place.2, read, asks⟩

/-- When the model calls a tool by the name under which a provider's listing is offered, and no
approval is required, the engine asks this provider to run this tool, and nothing else, or answers
with an error and asks nothing. The end of the provider's name must not make a marker with the
beginning of the marker behind it. -/
theorem listed_tool_routed {provider : String} {listing : List ListedTool} {t : OfferedTool}
    (listed : t ∈ OfferedTool.ofListing provider listing) (clear : ToolName.Clear provider)
    (free : p.requireApproval = false) (named : call.name = t.name) (h : Handling)
    (s : Situation) :
    (handleCall p h call s).AsksOnce (.runTool provider t.listedName call.arguments) ∨
      Rejects h call (handleCall p h call s) := by
  refine (listed_tool_asked listed free named h s).imp ?_ id
  rintro ⟨asked, tool, read, asks⟩
  obtain ⟨rfl, rfl⟩ := (ToolName.split_ofTool_iff read).2 clear
  exact asks

/-- A turn in which no approval is required. -/
def freePlan : TurnPlan where
  node := "agent"
  model := "m"
  template := ""
  startPrompt := none
  modelPrompt := none
  allowedTools := []
  providerRefs := []
  requireApproval := false
  handoffs := []

theorem listed_find_routed :
    OfferedTool.ofListed "search" ⟨"find", "", .object []⟩ ∈
      OfferedTool.ofListing "search" [⟨"find", "", .object []⟩] ∧
    ToolName.Clear "search" ∧ freePlan.requireApproval = false ∧
    ((handleCall freePlan ⟨default, [], none⟩ ⟨"x", "_-_-_search_-_-_find", .null⟩ default).AsksOnce
        (.runTool "search" "find" .null) ∨
      Rejects ⟨default, [], none⟩ ⟨"x", "_-_-_search_-_-_find", .null⟩
        (handleCall freePlan ⟨default, [], none⟩ ⟨"x", "_-_-_search_-_-_find", .null⟩ default)) := by
  have listed : OfferedTool.ofListed "search" ⟨"find", "", .object []⟩ ∈
      OfferedTool.ofListing "search" [⟨"find", "", .object []⟩] := by decide
  have clear : ToolName.Clear "search" := by decide
  exact ⟨listed, clear, rfl, listed_tool_routed listed clear rfl (by decide) _ _⟩

/-- Where the end of the provider's name and the marker behind it make a marker, the call does not
go to that provider: it is rejected, or another provider is asked to run another tool. -/
theorem unclear_tool_misrouted {provider : String} {listing : List ListedTool} {t : OfferedTool}
    (listed : t ∈ OfferedTool.ofListing provider listing) (unclear : ¬ ToolName.Clear provider)
    (free : p.requireApproval = false) (named : call.name = t.name) (h : Handling)
    (s : Situation) :
    (∃ asked tool, ((provider = asked ++ "_-" ∧ tool = "-_" ++ t.listedName) ∨
        (provider = asked ++ "_-_-" ∧ tool = "-_-_" ++ t.listedName)) ∧
      (handleCall p h call s).AsksOnce (.runTool asked tool call.arguments)) ∨
    Rejects h call (handleCall p h call s) := by
  refine (listed_tool_asked listed free named h s).imp ?_ id
  rintro ⟨asked, tool, read, asks⟩
  have other : ¬ (asked = provider ∧ tool = t.listedName) :=
    fun same => unclear ((ToolName.split_ofTool_iff read).1 same)
  exact ⟨asked, tool, (ToolName.split_ofTool read).resolve_left other, asks⟩

end Engine

end DialogueEngine
