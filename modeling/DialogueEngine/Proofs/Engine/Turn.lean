import DialogueEngine.Proofs.Engine.Regime

/-!
The turn of a process in a regime. Whatever the model answers, each of the calls that it asks for is
answered at once or waits for approval, so that the model is never called while one is open.
-/

namespace DialogueEngine.Engine

open Conversation (Engaged Passes)
open Transcript (Leads)

variable {r : Regime} {approves : Prop}

/-! ## Tools -/

theorem keeps_ensureConnected (ref : ProviderRef) :
    Keeps r approves (ensureConnected ref) fun _ => True := by
  apply (keeps_ask (.hasConnection _) trivial).bind
  intro connected _
  split
  · exact .pure trivial
  · exact keeps_ask (.connect ..) trivial

theorem keeps_fullListing (ref : ProviderRef) :
    Keeps r approves (fullListing ref) fun _ => True := by
  apply (keeps_ensureConnected ref).bind
  intro connected _
  split
  · exact (keeps_publish _).bind fun _ _ => .pure trivial
  · apply (keeps_ask (.listing _) trivial).bind
    intro listing _
    split <;> exact .pure trivial

/-- Finding tools changes nothing but the listings that are kept. -/
theorem keeps_toolsOf (c : Conversation) (ref : ProviderRef) :
    Keeps r approves (toolsOf c ref) fun found =>
      found.1.frame = c.frame ∧ found.1.messages = c.messages := by
  apply (keeps_ask (.revision _) trivial).bind
  intro revision _
  split
  · exact .pure ⟨rfl, rfl⟩
  · apply (keeps_fullListing ref).bind
    intro listed _
    split
    · exact .pure ⟨rfl, rfl⟩
    · exact .pure ⟨rfl, rfl⟩
    · exact keeps_now.bind fun now _ => .pure ⟨rfl, rfl⟩

theorem keeps_toolsOfAll (c : Conversation) (refs : List ProviderRef) :
    Keeps r approves (toolsOfAll c refs) fun found =>
      found.1.frame = c.frame ∧ found.1.messages = c.messages := by
  induction refs generalizing c with
  | nil => exact .pure ⟨rfl, rfl⟩
  | cons ref rest ih =>
    apply (keeps_toolsOf c ref).bind
    intro found same
    split
    · exact .pure same
    · next c' tools =>
      apply (ih c').bind
      intro others later
      split <;> exact .pure ⟨later.1.trans same.1, later.2.trans same.2⟩

theorem keeps_turnTools (p : TurnPlan) (c : Conversation) :
    Keeps r approves (turnTools p c) fun found =>
      found.1.frame = c.frame ∧ found.1.messages = c.messages := by
  apply (keeps_toolsOfAll c p.providerRefs).bind
  intro found same
  split
  · exact .pure same
  · dsimp only
    split <;> exact .pure same

/-- A call is run where its provider may be asked; only the name of a route is not answered. -/
theorem keeps_invoke (conversation : String) (call : ToolCall)
    (may : (ToolName.split call.name).isOk = true → r.gated → approves) :
    Keeps r approves (invoke conversation call) fun outcome =>
      ToolName.isRoute call.name = false → ∃ result, outcome = .completed result := by
  unfold invoke
  split
  · next route => exact .pure fun other => absurd (route.symm.trans other) (by simp)
  · split
    · exact .pure fun _ => ⟨_, rfl⟩
    · next provider tool split =>
      apply (keeps_publish _).bind
      intro _ _
      have asks : r.Poses approves (.runTool provider tool call.arguments) :=
        fun gated => may (by rw [split]; rfl) gated
      apply (keeps_ask _ asks).bind
      intro answer _
      exact (keeps_publish _).bind fun _ _ => .pure fun _ => ⟨_, rfl⟩

/-! ## Calls -/

/-- Where the answering of calls stands in a turn that began with `base`: what is to be done or
waits for approval is open, and nothing else. -/
structure Handles (base : Conversation) (h : Handling) (todo : List ToolCall) : Prop where
  engaged : Engaged base h.conversation ((h.gated ++ todo).map (·.id))
  approvable : ∀ call ∈ h.gated, call.Approvable

variable {base c : Conversation} {h : Handling} {call : ToolCall} {rest : List ToolCall}

theorem Handles.opened (handles : Handles base h (call :: rest)) :
    Engaged base h.conversation (call.id :: (h.gated ++ rest).map (·.id)) := by
  have same : (h.gated ++ call :: rest).Perm (call :: (h.gated ++ rest)) := List.perm_middle
  exact handles.engaged.perm (same.map _)

/-- The call is answered. -/
theorem Handles.answered (handles : Handles base h (call :: rest)) {route : Option String}
    (engaged : Engaged base c ((h.gated ++ rest).map (·.id))) :
    Handles base ⟨c, h.gated, route⟩ rest :=
  ⟨engaged, handles.approvable⟩

/-- The call waits for approval. -/
theorem Handles.gate (handles : Handles base h (call :: rest)) (approvable : call.Approvable) :
    Handles base { h with gated := h.gated ++ [call] } rest where
  engaged := by
    simpa only [List.append_assoc, List.singleton_append] using handles.engaged
  approvable := by
    intro other member
    rcases List.mem_append.1 member with old | new
    · exact handles.approvable other old
    · exact List.mem_singleton.1 new ▸ approvable

theorem keeps_answerCall {others : List String} (p : TurnPlan) (result : ToolResult)
    (engaged : Engaged base c (call.id :: others)) :
    Keeps r approves (answerCall p c call result) fun c' => Engaged base c' others := by
  refine keeps_stamp.bind fun s _ => .pure ?_
  exact engaged.push (.tool rfl rfl (.refl _) (.refl others)) s.instant

theorem keeps_handleCall {p : TurnPlan} (gate : r.gated → p.requireApproval = true)
    (handles : Handles base h (call :: rest)) :
    Keeps r approves (handleCall p h call) fun h' => Handles base h' rest := by
  have answers (result : ToolResult) : Keeps r approves (answerCall p h.conversation call result)
      fun c' => Engaged base c' ((h.gated ++ rest).map (·.id)) :=
    keeps_answerCall p result handles.opened
  apply (keeps_isToBeCancelled h.conversation).bind
  intro cancelled _
  split
  · exact (answers _).bind fun c' engaged => .pure (handles.answered engaged)
  split
  · split
    · exact (answers _).bind fun c' engaged => .pure (handles.answered engaged)
    · exact (answers _).bind fun c' engaged => .pure (handles.answered engaged)
  next other =>
  have plain : ToolName.isRoute call.name = false := by simpa using other
  split
  · next asks =>
    have splits : (ToolName.split call.name).isOk = true := (Bool.and_eq_true _ _ ▸ asks).2
    exact (keeps_publish _).bind fun _ _ => .pure (handles.gate ⟨plain, splits⟩)
  · next free =>
    have may : (ToolName.split call.name).isOk = true → r.gated → approves :=
      fun splits gated => absurd (by rw [gate gated, splits]; rfl) free
    apply (keeps_invoke _ call may).bind
    intro outcome completed
    obtain ⟨result, rfl⟩ := completed plain
    exact (answers _).bind fun c' engaged => .pure (handles.answered engaged)

theorem keeps_handleCalls {p : TurnPlan} (gate : r.gated → p.requireApproval = true)
    {calls : List ToolCall} (handles : Handles base h calls) :
    Keeps r approves (handleCalls p h calls) fun h' => Handles base h' [] := by
  induction calls generalizing h with
  | nil => exact .pure handles
  | cons call rest ih => exact (keeps_handleCall gate handles).bind fun h' handles' => ih handles'

/-! ## The conversation with the model -/

/-- A conversation that a node is run for. -/
def Launched (r : Regime) (base : Conversation) : Prop :=
  ∃ c, r.keeps c ∧ c.Ready ∧ base = c.leavePause

/-- How a turn that began with `base` ends. Only a pause leaves calls open. -/
inductive TurnEnds (base : Conversation) : Conversation × Except Failure TurnOutcome → Prop
  | failed {c : Conversation} (engaged : Engaged base c []) (f : Failure) :
      TurnEnds base (c, .error f)
  | spoke {c : Conversation} (engaged : Engaged base c []) (outcome : TurnOutcome) :
      TurnEnds base (c, .ok outcome)
  | paused {c : Conversation} {calls : List ToolCall}
      (engaged : Engaged base c (calls.map (·.id))) (some : calls ≠ [])
      (approvable : ∀ call ∈ calls, call.Approvable) (route : Option String) (now : Instant)
      (made : Nat) :
      TurnEnds base
        ({ c with handoff := route }.pauseFor calls now, .ok (.awaitingApproval calls.length made))

theorem keeps_transcript (systemPrompt : String) (c : Conversation) :
    Keeps r approves (transcript systemPrompt c) fun messages =>
      ∃ front, messages = front ++ c.messages ∧
        (front = [] ∨ ∃ m, front = [m] ∧ m.role = .system) := by
  unfold transcript
  split
  · exact .pure ⟨[], rfl, .inl rfl⟩
  · exact keeps_stamp.bind fun s _ => .pure ⟨[_], rfl, .inr ⟨_, rfl, rfl⟩⟩

/-- The model may be called as long as no call is open. -/
theorem Launched.poses (launched : Launched r base) (engaged : Engaged base c [])
    {front : List Message} (system : front = [] ∨ ∃ m, front = [m] ∧ m.role = .system)
    (model : String) (specs : List DeclaredTool) :
    r.Poses approves (.complete model (front ++ c.messages) specs) := by
  obtain ⟨origin, kept, ready, rfl⟩ := launched
  obtain ⟨added, grown, leads⟩ := engaged.grown
  rw [Conversation.leavePause_messages] at grown
  exact ⟨origin, front, added, kept, ready, by rw [grown], system, leads⟩

/-- The message of the model opens its calls. -/
theorem handles_completion (engaged : Engaged base c []) (completion : Completion)
    (stamp : Stamp) (node : String) :
    Handles base ⟨c.push ((Message.assistant completion.content completion.toolCalls stamp).saidAt
      node) stamp.instant, [], none⟩ completion.toolCalls where
  engaged := engaged.push (.assistant rfl (.refl _)) stamp.instant
  approvable := fun _ none => absurd none List.not_mem_nil

theorem keeps_converse {p : TurnPlan} (gate : r.gated → p.requireApproval = true)
    (launched : Launched r base) (systemPrompt : String) (specs : List DeclaredTool)
    (most left calls : Nat) (engaged : Engaged base c []) :
    Keeps r approves (converse p systemPrompt specs most left calls c) (TurnEnds base) := by
  induction left generalizing calls c with
  | zero =>
    apply (keeps_isToBeCancelled c).bind
    intro cancelled _
    split
    · have stopped : Engaged base { c with cancelled := true } [] := engaged.adjust rfl rfl
      exact .pure (.spoke stopped _)
    · exact .pure (.failed engaged _)
  | succ left ih =>
    apply (keeps_isToBeCancelled c).bind
    intro cancelled _
    split
    · have stopped : Engaged base { c with cancelled := true } [] := engaged.adjust rfl rfl
      exact .pure (.spoke stopped _)
    apply (keeps_transcript systemPrompt c).bind
    intro messages transcript
    obtain ⟨front, rfl, system⟩ := transcript
    apply (keeps_ask _ (launched.poses engaged system _ specs)).bind
    intro answer _
    split
    · exact .pure (.failed engaged _)
    next completion =>
    apply keeps_stamp.bind
    intro s _
    have opened := handles_completion engaged completion s p.node
    split
    · next silent =>
      have none : completion.toolCalls = [] := List.isEmpty_iff.1 silent
      have closed := opened.engaged
      rw [none] at closed
      exact .pure (.spoke (by rw [none]; exact closed) _)
    apply (keeps_handleCalls gate opened).bind
    intro h handled
    have waits := handled.engaged
    rw [List.append_nil] at waits
    split
    · next some =>
      have gated : h.gated ≠ [] := by simpa using some
      exact keeps_now.bind fun now _ => .pure (.paused waits gated handled.approvable _ now _)
    next none =>
    have settled : h.gated = [] := by simpa using none
    rw [settled] at waits
    split
    · exact .pure (.spoke waits _)
    · exact ih _ waits

theorem keeps_runTurn {p : TurnPlan} (gate : r.gated → p.requireApproval = true)
    (launched : Launched r base) : Keeps r approves (runTurn p base) (TurnEnds base) := by
  have engaged : Engaged base { base with handoff := none } [] :=
    (Engaged.refl base).adjust rfl rfl
  unfold runTurn
  dsimp only
  split
  · exact .pure (.spoke engaged _)
  · apply (keeps_turnTools p _).bind
    intro found same
    split
    · exact .pure (.failed (engaged.adjust same.1 same.2) _)
    · apply keeps_situation.bind
      intro s _
      exact keeps_converse gate launched _ _ _ _ _ (engaged.adjust same.1 same.2)

/-! ## Nodes -/

/-- What a visit of a node gives: what the node makes of the conversation, or a failure that leaves
no call open. -/
def Visits (node : Node) (base : Conversation) (result : Conversation × Except Failure Visit) :
    Prop :=
  match result with
  | (c, .ok run) => Passes node base c run.action
  | (c, .error _) => Engaged base c []

theorem requireApproval_of_plan {settings : Settings} {node : Node} {spec : ProcessSpec}
    {plan : TurnPlan} (planned : TurnPlan.of settings node spec c = .ok plan) :
    plan.requireApproval = (spec.requireApproval || settings.approval.requireApproval) := by
  unfold TurnPlan.of at planned
  split at planned
  · cases planned
  · cases planned
    rfl

theorem keeps_runProcess {node : Node} {spec : ProcessSpec} (kind : node.spec = .process spec)
    (gate : r.gated → r.settings.approval.requireApproval = true ∨ spec.requireApproval = true)
    (launched : Launched r base) :
    Keeps r approves (runProcess node spec base) (Visits node base) := by
  apply keeps_situation.bind
  intro s orderly
  split
  · exact .pure (Engaged.refl base)
  next plan planned =>
  have approval := requireApproval_of_plan planned
  rw [orderly.settings] at approval
  have gate' : r.gated → plan.requireApproval = true := by
    intro gated
    rcases gate gated with required | required <;> simp [approval, required]
  apply (keeps_runTurn gate' launched).bind
  intro result ends
  cases ends with
  | failed engaged f => exact .pure engaged
  | spoke engaged outcome => exact .pure (.turn kind engaged _)
  | paused engaged some approvable route now made =>
    exact .pure (.paused kind engaged some approvable route now)

theorem keeps_runToolProvider {node : Node} {spec : ProviderSpec}
    (kind : node.spec = .toolProvider spec) (base : Conversation) :
    Keeps r approves (runToolProvider node spec base) (Visits node base) := by
  unfold runToolProvider
  split
  · exact .pure (Engaged.refl base)
  · apply (keeps_ask (.revision _) trivial).bind
    intro revision _
    apply (keeps_fullListing _).bind
    intro listed _
    split
    · exact .pure (Engaged.refl base)
    · exact .pure (.listing kind (.refl base) rfl)
    · refine keeps_now.bind fun now _ => .pure ?_
      exact .listing kind ((Engaged.refl base).adjust rfl rfl) rfl

theorem keeps_visit {node : Node}
    (gate : r.gated → r.settings.approval.requireApproval = true ∨
      ∀ spec, node.spec = .process spec → spec.requireApproval = true)
    (launched : Launched r base) : Keeps r approves (visit node base) (Visits node base) := by
  unfold visit
  split
  · next spec kind => exact keeps_now.bind fun now _ => .pure (.start kind _ now)
  · next spec kind =>
    exact keeps_runProcess kind (fun gated => (gate gated).imp id fun all => all spec kind) launched
  · next spec kind => exact keeps_runToolProvider kind base
  · next kind => exact keeps_now.bind fun now _ => .pure (.finish kind now)

end DialogueEngine.Engine
