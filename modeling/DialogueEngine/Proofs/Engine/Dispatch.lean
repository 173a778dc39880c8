import DialogueEngine.Proofs.Engine.Approval
import DialogueEngine.Proofs.Engine.Offer

/-!
Which tools a turn runs. A call goes by its name alone: one that names a tool of a provider is run,
whether or not the tool was offered, unless it has to be approved or the conversation is to be
cancelled. One that names nothing, or a route that is not there, is answered with an error.
-/

namespace DialogueEngine

namespace Exchange

/-- The calls that a completion asks for. -/
def calls : Exchange → List ToolCall
  | ⟨.complete .., .ok completion⟩ => completion.toolCalls
  | _ => []

/-- The tool run that is asked for. -/
def run? (e : Exchange) : Option Question := if e.1.isRun then some e.1 else none

/-- The calls that the model has asked for. -/
def callsIn (past : List Exchange) : List ToolCall := past.flatMap calls

/-- The tool runs that have been asked for. -/
def runsIn (past : List Exchange) : List Question := past.filterMap run?

theorem callsIn_append (past more : List Exchange) :
    callsIn (past ++ more) = callsIn past ++ callsIn more :=
  List.flatMap_append

theorem runsIn_append (past more : List Exchange) :
    runsIn (past ++ more) = runsIn past ++ runsIn more :=
  List.filterMap_append

theorem callsIn_completed (model : String) (transcript : List Message)
    (tools : List DeclaredTool) (completion : Completion) :
    callsIn [⟨.complete model transcript tools, .ok completion⟩] = completion.toolCalls :=
  List.append_nil _

theorem callsIn_run {q : Question} (runs : q.isRun = true) (answer : Answer q) :
    callsIn [⟨q, answer⟩] = [] := by
  cases q with
  | runTool provider tool arguments => rfl
  | _ => cases runs

theorem runsIn_run {q : Question} (runs : q.isRun = true) (answer : Answer q) :
    runsIn [⟨q, answer⟩] = [q] := by
  simp [runsIn, run?, runs]

theorem mem_callsIn {past : List Exchange} {call : ToolCall} (member : call ∈ callsIn past) :
    ∃ model transcript tools completion,
      (⟨.complete model transcript tools, .ok completion⟩ : Exchange) ∈ past ∧
      call ∈ completion.toolCalls := by
  obtain ⟨e, exchanged, asks⟩ := List.mem_flatMap.1 member
  unfold calls at asks
  split at asks
  · next model transcript tools completion =>
    exact ⟨model, transcript, tools, completion, exchanged, asks⟩
  · cases asks

end Exchange

open Exchange (callsIn callsIn_append runsIn runsIn_append)

namespace TurnPlan

/-- What is asked for a call of the model: nothing where it names a route or no tool of a provider,
or has to be approved. -/
def dispatch (p : TurnPlan) (call : ToolCall) : Option Question :=
  if ToolName.isRoute call.name || p.requireApproval then none else call.question.toOption

/-- A call that names a route that is not there, or neither a route nor a tool of a provider. -/
def Refuses (p : TurnPlan) (call : ToolCall) : Prop :=
  if ToolName.isRoute call.name then ∀ route ∈ p.handoffs, route.toolName ≠ call.name
  else (ToolName.split call.name).isOk = false

/-- A message answers a call with an error. -/
def RefusedIn (messages : List Message) (call : ToolCall) : Prop :=
  ∃ m ∈ messages, m.role = .tool ∧ m.toolCallId = some call.id ∧ m.isError = true

/-- How the calls and the runs of a turn belong together, while some calls are still to be treated:
the runs are those of the calls, in their order, and none is left out where the turn is steady. -/
structure Settles (p : TurnPlan) (steady : Prop) (past : List Exchange) (messages : List Message)
    (todo : List ToolCall) : Prop where
  order : (runsIn past ++ todo.filterMap p.dispatch).Sublist ((callsIn past).filterMap p.dispatch)
  all : steady →
    runsIn past ++ todo.filterMap p.dispatch = (callsIn past).filterMap p.dispatch
  refused : ∀ call ∈ callsIn past, p.Refuses call → call ∈ todo ∨ RefusedIn messages call

variable {p : TurnPlan} {steady : Prop} {past : List Exchange} {messages : List Message}
  {call : ToolCall} {rest : List ToolCall}

theorem dispatch_route (route : ToolName.isRoute call.name = true) : p.dispatch call = none := by
  rw [dispatch, route, Bool.true_or, if_pos rfl]

theorem dispatch_gated (requires : p.requireApproval = true) : p.dispatch call = none := by
  rw [dispatch, requires, Bool.or_true, if_pos rfl]

theorem dispatch_free (plain : ToolName.isRoute call.name = false)
    (ungated : p.requireApproval = false) : p.dispatch call = call.question.toOption := by
  rw [dispatch, plain, ungated, Bool.or_false, if_neg Bool.false_ne_true]

/-- Only a call that names no route is run, and where no approval is required. -/
theorem question_of_dispatch {q : Question} (dispatched : p.dispatch call = some q) :
    ToolName.isRoute call.name = false ∧ call.question = .ok q := by
  cases route : ToolName.isRoute call.name with
  | true =>
    rw [dispatch_route route] at dispatched
    cases dispatched
  | false =>
    cases requires : p.requireApproval with
    | true =>
      rw [dispatch_gated requires] at dispatched
      cases dispatched
    | false =>
      rw [dispatch_free route requires] at dispatched
      cases question : call.question with
      | error f =>
        rw [question] at dispatched
        cases dispatched
      | ok q' =>
        rw [question] at dispatched
        cases dispatched
        exact ⟨rfl, rfl⟩

theorem isRun_of_dispatch {q : Question} (dispatched : p.dispatch call = some q) :
    q.isRun = true :=
  ToolCall.isRun_of_question (question_of_dispatch dispatched).2

theorem refuses_route (route : ToolName.isRoute call.name = true) :
    p.Refuses call ↔ ∀ route ∈ p.handoffs, route.toolName ≠ call.name := by
  rw [Refuses, if_pos route]

theorem refuses_plain (plain : ToolName.isRoute call.name = false) :
    p.Refuses call ↔ (ToolName.split call.name).isOk = false := by
  rw [Refuses, if_neg (ne_true_of_eq_false plain)]

theorem Settles.ofAsides (asides : ∀ e ∈ past, Engine.Question.IsAside e.1) :
    p.Settles steady past messages [] := by
  have silent : callsIn past = [] ∧ runsIn past = [] := by
    induction past with
    | nil => exact ⟨rfl, rfl⟩
    | cons e rest ih =>
      obtain ⟨calls, runs⟩ := ih fun e member => asides e (List.mem_cons_of_mem _ member)
      have aside := asides e List.mem_cons_self
      obtain ⟨q, answer⟩ := e
      cases q with
      | complete model messages tools => exact aside.elim
      | runTool provider tool arguments => exact aside.elim
      | _ => exact ⟨calls, runs⟩
  obtain ⟨calls, runs⟩ := silent
  refine ⟨?_, ?_, ?_⟩
  · rw [runs, calls]
    exact List.Sublist.refl _
  · intro _
    rw [runs, calls]
    rfl
  · intro call member
    rw [calls] at member
    cases member

theorem Settles.said {messages' : List Message} {todo : List ToolCall}
    (settles : p.Settles steady past messages todo) (more : ∀ m ∈ messages, m ∈ messages') :
    p.Settles steady past messages' todo := by
  refine ⟨settles.order, settles.all, ?_⟩
  intro call member refuses
  apply (settles.refused call member refuses).imp id
  rintro ⟨m, said, answers⟩
  exact ⟨m, more m said, answers⟩

/-- The calls of a completion are to be treated. -/
theorem Settles.completed (settles : p.Settles steady past messages []) {model : String}
    {transcript : List Message} {tools : List DeclaredTool}
    (answer : Except ModelFailure Completion) :
    p.Settles steady (past ++ [⟨.complete model transcript tools, answer⟩]) messages
      (callsIn [⟨.complete model transcript tools, answer⟩]) := by
  have runs : runsIn [⟨.complete model transcript tools, answer⟩] = [] := rfl
  refine ⟨?_, ?_, ?_⟩
  · rw [runsIn_append, runs, List.append_nil, callsIn_append, List.filterMap_append]
    have before := settles.order
    rw [List.filterMap_nil, List.append_nil] at before
    exact before.append_right _
  · intro still
    have before := settles.all still
    rw [List.filterMap_nil, List.append_nil] at before
    rw [runsIn_append, runs, List.append_nil, callsIn_append, List.filterMap_append, before]
  · intro call member refuses
    rw [callsIn_append] at member
    rcases List.mem_append.1 member with old | new
    · rcases settles.refused call old refuses with none | answered
      · cases none
      · exact .inr answered
    · exact .inl new

/-- A call is treated and nothing is run for it. -/
theorem Settles.pass (settles : p.Settles steady past messages (call :: rest))
    (unrun : p.dispatch call = none ∨ ¬ steady)
    (answered : p.Refuses call → RefusedIn messages call) :
    p.Settles steady past messages rest := by
  refine ⟨?_, ?_, ?_⟩
  · refine List.Sublist.trans ?_ settles.order
    refine List.Sublist.append_left (List.Sublist.filterMap _ (List.sublist_cons_self ..)) _
  · intro still
    have none := unrun.resolve_right (not_not_intro still)
    have before := settles.all still
    rwa [List.filterMap_cons_none none] at before
  · intro other member refuses
    rcases settles.refused other member refuses with (- | ⟨_, later⟩) | already
    · exact .inr (answered refuses)
    · exact .inl later
    · exact .inr already

/-- A call is treated and run. -/
theorem Settles.ran (settles : p.Settles steady past messages (call :: rest)) {q : Question}
    (dispatched : p.dispatch call = some q) (answer : Answer q)
    (accepts : ¬ p.Refuses call) :
    p.Settles steady (past ++ [⟨q, answer⟩]) messages rest := by
  have runs := isRun_of_dispatch dispatched
  have order := settles.order
  have all := settles.all
  rw [List.filterMap_cons_some dispatched, List.append_cons] at order all
  refine ⟨?_, ?_, ?_⟩
  · rw [runsIn_append, Exchange.runsIn_run runs, callsIn_append, Exchange.callsIn_run runs,
      List.append_nil]
    exact order
  · intro still
    rw [runsIn_append, Exchange.runsIn_run runs, callsIn_append, Exchange.callsIn_run runs,
      List.append_nil]
    exact all still
  · intro other member refuses
    rw [callsIn_append, Exchange.callsIn_run runs, List.append_nil] at member
    rcases settles.refused other member refuses with (- | ⟨_, later⟩) | already
    · exact absurd refuses accepts
    · exact .inl later
    · exact .inr already

/-- What is asked of a provider in a turn is the run of a call of a completion; if the call goes by
a name that the model was offered, this is the name of a tool that may be offered. -/
structure Runs (p : TurnPlan) (c : Conversation) (steady : Prop) (past : List Exchange)
    (q : Question) : Prop where
  called : ∃ model transcript tools completion call,
    (⟨.complete model transcript tools, .ok completion⟩ : Exchange) ∈ past ∧
    call ∈ completion.toolCalls ∧ p.dispatch call = some q ∧
    ∀ d ∈ tools, d.name = call.name → ∃ t, p.Offers c past t ∧ t.name = call.name
  order : (runsIn past ++ [q]).Sublist ((callsIn past).filterMap p.dispatch)
  all : steady → runsIn past ++ [q] <+: (callsIn past).filterMap p.dispatch

/-- What may be asked in a turn. -/
def Rule (p : TurnPlan) (c : Conversation) (steady : Prop) (past : List Exchange) :
    Question → Prop
  | .complete _ _ tools => p.Advertises c past tools
  | .runTool provider tool arguments => p.Runs c steady past (.runTool provider tool arguments)
  | _ => True

theorem allowsAsides (p : TurnPlan) (c : Conversation) (steady : Prop) :
    Engine.AllowsAsides (p.Rule c steady) := by
  intro past q aside
  cases q with
  | complete model transcript tools => exact aside.elim
  | runTool provider tool arguments => exact aside.elim
  | _ => trivial

/-- Where a turn stands that began with a conversation and offers some tools. -/
structure Progress (p : TurnPlan) (c : Conversation) (steady : Prop) (specs : List DeclaredTool)
    (past : List Exchange) (c' : Conversation) (todo : List ToolCall) : Prop where
  id : c'.id = c.id
  cancelled : c'.cancelled = c.cancelled
  advertises : p.Advertises c past specs
  asked : ∀ e ∈ past, ∀ model transcript tools, e.1 = .complete model transcript tools →
    tools = specs
  settles : p.Settles steady past c'.messages todo

variable {c c' : Conversation} {specs : List DeclaredTool} {todo : List ToolCall}

theorem Progress.push (progress : p.Progress c steady specs past c' todo) (m : Message)
    (now : Instant) : p.Progress c steady specs past (c'.push m now) todo where
  id := progress.id
  cancelled := progress.cancelled
  advertises := progress.advertises
  asked := progress.asked
  settles := progress.settles.said fun _ member => List.mem_append_left _ member

theorem Progress.pass (progress : p.Progress c steady specs past c' (call :: rest))
    (unrun : p.dispatch call = none ∨ ¬ steady)
    (answered : p.Refuses call → RefusedIn c'.messages call) :
    p.Progress c steady specs past c' rest :=
  { progress with settles := progress.settles.pass unrun answered }

/-- The next call may be run. -/
theorem Progress.runs (routes : ∀ route ∈ p.handoffs, ToolName.isRoute route.toolName = true)
    (progress : p.Progress c steady specs past c' (call :: rest)) {q : Question}
    (dispatched : p.dispatch call = some q) : p.Runs c steady past q := by
  have order := progress.settles.order
  have all := progress.settles.all
  rw [List.filterMap_cons_some dispatched, List.append_cons] at order all
  refine ⟨?_, (List.sublist_append_left ..).trans order, ?_⟩
  · have inside : q ∈ (callsIn past).filterMap p.dispatch :=
      order.subset (List.mem_append_left _ (List.mem_append_right _ List.mem_cons_self))
    obtain ⟨call, member, same⟩ := List.mem_filterMap.1 inside
    obtain ⟨model, transcript, tools, completion, exchanged, asks⟩ := Exchange.mem_callsIn member
    refine ⟨model, transcript, tools, completion, call, exchanged, asks, same, ?_⟩
    intro d offered named
    obtain rfl := progress.asked _ exchanged model transcript tools rfl
    have plain : ToolName.isRoute d.name = false := by
      rw [named]
      exact (question_of_dispatch same).1
    rw [← named]
    exact progress.advertises.offered routes offered plain
  · intro still
    exact all still ▸ List.prefix_append ..

theorem Progress.ran (progress : p.Progress c steady specs past c' (call :: rest)) {q : Question}
    (dispatched : p.dispatch call = some q) (answer : Answer q) (accepts : ¬ p.Refuses call) :
    p.Progress c steady specs (past ++ [⟨q, answer⟩]) c' rest where
  id := progress.id
  cancelled := progress.cancelled
  advertises := progress.advertises.later (List.prefix_append ..)
  asked := by
    intro e member model transcript tools asks
    rcases List.mem_append.1 member with old | new
    · exact progress.asked e old model transcript tools asks
    · obtain rfl := List.mem_singleton.1 new
      have runs := isRun_of_dispatch dispatched
      obtain rfl : q = _ := asks
      cases runs
  settles := progress.settles.ran dispatched answer accepts

/-- The model has been called. -/
theorem Progress.completed (progress : p.Progress c steady specs past c' []) {model : String}
    {transcript : List Message} (answer : Except ModelFailure Completion) :
    p.Progress c steady specs (past ++ [⟨.complete model transcript specs, answer⟩]) c'
      (callsIn [⟨.complete model transcript specs, answer⟩]) where
  id := progress.id
  cancelled := progress.cancelled
  advertises := progress.advertises.later (List.prefix_append ..)
  asked := by
    intro e member model' transcript' tools asks
    rcases List.mem_append.1 member with old | new
    · exact progress.asked e old model' transcript' tools asks
    · obtain rfl := List.mem_singleton.1 new
      cases asks
      rfl
  settles := progress.settles.completed answer

end TurnPlan

namespace Engine

variable {p : TurnPlan} {c c' : Conversation} {steady : Prop} {specs : List DeclaredTool}
  {past : List Exchange}

open TurnPlan (Progress RefusedIn Rule)

/-- A conversation is only to be cancelled where it is cancelled or a request is parked. -/
theorem heeds_isToBeCancelled (same : c'.id = c.id) :
    Heeds steady c.id (p.Rule c steady) past (isToBeCancelled c') fun past' cancelled =>
      past' = past ∧ (cancelled = false → c'.cancelled = false) ∧
      (cancelled = true → c'.cancelled = true ∨ ¬ steady) := by
  unfold isToBeCancelled
  split
  · next cancelled => exact .pure ⟨rfl, by simp, fun _ => .inl cancelled⟩
  · next live =>
    apply heeds_situation.bind
    intro past' s holds
    obtain ⟨rfl, calm⟩ := holds
    refine .pure ⟨rfl, fun _ => eq_false_of_ne_true live, ?_⟩
    intro parked
    refine .inr fun still => ?_
    rw [same, calm still] at parked
    cases parked

/-- An answer is added to the conversation. -/
theorem heeds_answerCall (call : ToolCall) (result : ToolResult) :
    Heeds steady c.id (p.Rule c steady) past (answerCall p c' call result) fun past' c'' =>
      past' = past ∧ ∃ m now, c'' = c'.push m now ∧
        (result.isError = true → RefusedIn c''.messages call) := by
  apply heeds_stamp.bind
  intro past' s same
  subst same
  refine .pure ⟨rfl, _, s.instant, rfl, ?_⟩
  intro error
  exact ⟨_, List.mem_append_right _ List.mem_cons_self, rfl, rfl, error⟩

/-- A call is run, unless it names nothing. -/
theorem heeds_invoke (routes : ∀ route ∈ p.handoffs, ToolName.isRoute route.toolName = true)
    {call : ToolCall} {rest : List ToolCall} (conversation : String)
    (plain : ToolName.isRoute call.name = false)
    (free : (p.requireApproval && (ToolName.split call.name).isOk) = false)
    (progress : p.Progress c steady specs past c' (call :: rest)) :
    Heeds steady c.id (p.Rule c steady) past (invoke conversation call) fun past' outcome =>
      ∃ result, outcome = .completed result ∧
        ((past' = past ∧ p.dispatch call = none ∧ result.isError = true) ∨
          p.Progress c steady specs past' c' rest) := by
  unfold invoke
  rw [if_neg (ne_true_of_eq_false plain)]
  split
  · next f unnamed =>
    have unrun : p.dispatch call = none := by
      cases requires : p.requireApproval with
      | true => exact TurnPlan.dispatch_gated requires
      | false =>
        rw [TurnPlan.dispatch_free plain requires, ToolCall.question, unnamed]
        rfl
    exact .pure ⟨_, rfl, .inl ⟨rfl, unrun, rfl⟩⟩
  · next provider tool named =>
    have ungated : p.requireApproval = false := by
      rw [named] at free
      simpa [Except.isOk, Except.toBool] using free
    have dispatched : p.dispatch call = some (.runTool provider tool call.arguments) := by
      rw [TurnPlan.dispatch_free plain ungated, ToolCall.question, named]
      rfl
    have accepts : ¬ p.Refuses call := by
      rw [TurnPlan.refuses_plain plain, named]
      exact Bool.noConfusion
    apply (heeds_publish _).bind
    intro past' _ same
    subst same
    have allowed : p.Rule c steady past' (.runTool provider tool call.arguments) :=
      progress.runs routes dispatched
    apply (heeds_ask allowed).bind
    intro past' answer same
    subst same
    apply (heeds_publish _).bind
    intro past' _ same
    subst same
    exact .pure ⟨_, rfl, .inr (progress.ran dispatched answer accepts)⟩

/-- Each call is answered, or waits for approval. -/
theorem heeds_handleCall (routes : ∀ route ∈ p.handoffs, ToolName.isRoute route.toolName = true)
    (live : c.cancelled = false) {h : Handling} {call : ToolCall} {rest : List ToolCall}
    (progress : p.Progress c steady specs past h.conversation (call :: rest)) :
    Heeds steady c.id (p.Rule c steady) past (handleCall p h call) fun past' h' =>
      p.Progress c steady specs past' h'.conversation rest := by
  apply (heeds_isToBeCancelled progress.id).bind
  intro past' cancelled holds
  obtain ⟨rfl, -, parked⟩ := holds
  split
  · next skipped =>
    have unsteady : ¬ steady := by
      apply (parked skipped).resolve_left
      rw [progress.cancelled, live]
      exact Bool.false_ne_true
    apply (heeds_answerCall call _).bind
    intro past' c'' holds
    obtain ⟨rfl, m, now, rfl, refused⟩ := holds
    exact .pure ((progress.push m now).pass (.inr unsteady) fun _ => refused rfl)
  split
  · next route =>
    have unrun : p.dispatch call = none := TurnPlan.dispatch_route route
    split
    · next known found =>
      apply (heeds_answerCall call _).bind
      intro past' c'' holds
      obtain ⟨rfl, m, now, rfl, -⟩ := holds
      refine .pure ((progress.push m now).pass (.inl unrun) ?_)
      intro refuses
      have unknown := (TurnPlan.refuses_route route).1 refuses
      exact absurd (by simpa using List.find?_some found)
        (unknown known (List.mem_of_find?_eq_some found))
    · apply (heeds_answerCall call _).bind
      intro past' c'' holds
      obtain ⟨rfl, m, now, rfl, refused⟩ := holds
      exact .pure ((progress.push m now).pass (.inl unrun) fun _ => refused rfl)
  next other =>
  have plain : ToolName.isRoute call.name = false := eq_false_of_ne_true other
  split
  · next gated =>
    obtain ⟨requires, named⟩ := Bool.and_eq_true_iff.1 gated
    have unrun : p.dispatch call = none := TurnPlan.dispatch_gated requires
    apply (heeds_publish _).bind
    intro past' _ same
    subst same
    refine .pure (progress.pass (.inl unrun) ?_)
    intro refuses
    rw [TurnPlan.refuses_plain plain, named] at refuses
    cases refuses
  · next free =>
    apply (heeds_invoke routes _ plain (eq_false_of_ne_true free) progress).bind
    intro past' outcome holds
    obtain ⟨result, rfl, treated⟩ := holds
    apply (heeds_answerCall call result).bind
    intro past'' c'' holds
    obtain ⟨rfl, m, now, rfl, refused⟩ := holds
    rcases treated with ⟨rfl, unrun, error⟩ | ran
    · exact .pure ((progress.push m now).pass (.inl unrun) fun _ => refused error)
    · exact .pure (ran.push m now)

theorem heeds_handleCalls (routes : ∀ route ∈ p.handoffs, ToolName.isRoute route.toolName = true)
    (live : c.cancelled = false) {h : Handling} {calls : List ToolCall}
    (progress : p.Progress c steady specs past h.conversation calls) :
    Heeds steady c.id (p.Rule c steady) past (handleCalls p h calls) fun past' h' =>
      p.Progress c steady specs past' h'.conversation [] := by
  induction calls generalizing past h with
  | nil => exact .pure progress
  | cons call rest ih =>
    apply (heeds_handleCall routes live progress).bind
    intro past' h' progress'
    exact ih progress'

theorem pauseFor_messages (c : Conversation) (calls : List ToolCall) (now : Instant) :
    (c.pauseFor calls now).messages = c.messages := by
  unfold Conversation.pauseFor
  split <;> rfl

/-- A turn that calls the model treats the calls of each completion before the next. -/
theorem heeds_converse (routes : ∀ route ∈ p.handoffs, ToolName.isRoute route.toolName = true)
    (systemPrompt : String) (most left calls : Nat)
    (progress : p.Progress c steady specs past c' []) :
    Heeds steady c.id (p.Rule c steady) past (converse p systemPrompt specs most left calls c')
      fun past' result => p.Settles steady past' result.1.messages [] := by
  induction left generalizing past c' calls with
  | zero =>
    apply (heeds_isToBeCancelled progress.id).bind
    intro past' cancelled holds
    obtain ⟨rfl, -, -⟩ := holds
    split <;> exact .pure progress.settles
  | succ left ih =>
    apply (heeds_isToBeCancelled progress.id).bind
    intro past' cancelled holds
    obtain ⟨rfl, otherwise, -⟩ := holds
    split
    · exact .pure progress.settles
    next goesOn =>
    have live : c.cancelled = false :=
      progress.cancelled.symm.trans (otherwise (eq_false_of_ne_true goesOn))
    have prompts : Heeds steady c.id (p.Rule c steady) past' (transcript systemPrompt c')
        fun past'' _ => past'' = past' := by
      unfold transcript
      split
      · exact .pure rfl
      · apply heeds_stamp.bind
        intro past'' s same
        subst same
        exact .pure rfl
    apply prompts.bind
    intro past'' messages same
    subst same
    have allowed : p.Rule c steady past'' (.complete p.model messages specs) := progress.advertises
    apply (heeds_ask allowed).bind
    intro past₁ answer same
    subst same
    have completed : p.Progress c steady specs
        (past'' ++ [⟨.complete p.model messages specs, answer⟩]) c'
        (callsIn [⟨.complete p.model messages specs, answer⟩]) := progress.completed answer
    split
    · exact .pure completed.settles
    next completion =>
    rw [Exchange.callsIn_completed] at completed
    apply heeds_stamp.bind
    intro past₂ s same
    subst same
    have opened := completed.push
      ((Message.assistant completion.content completion.toolCalls s).saidAt p.node) s.instant
    split
    · next none =>
      rw [List.isEmpty_iff.1 none] at completed
      exact .pure (completed.push _ s.instant).settles
    apply (heeds_handleCalls routes live (h := ⟨_, [], none⟩) opened).bind
    intro past₃ h treated
    split
    · apply heeds_now.bind
      intro past₄ now same
      subst same
      refine .pure (treated.settles.said ?_)
      intro m member
      rwa [pauseFor_messages]
    · split
      · exact .pure treated.settles
      · exact ih (calls + 1) treated

theorem heeds_runTurn (routes : ∀ route ∈ p.handoffs, ToolName.isRoute route.toolName = true)
    (c : Conversation) : Heeds steady c.id (p.Rule c steady) [] (runTurn p c)
      fun past result => p.Settles steady past result.1.messages [] := by
  unfold runTurn
  dsimp only
  split
  · exact .pure (.ofAsides fun e none => absurd none List.not_mem_nil)
  · apply (heeds_turnTools (p.allowsAsides c steady) (.opening c none) p).bind
    rintro past ⟨c', found⟩ ⟨knows, advertises⟩
    match found with
    | .error f => exact .pure (.ofAsides knows.asides)
    | .ok specs =>
      apply heeds_situation.bind
      intro past' s holds
      obtain ⟨rfl, -⟩ := holds
      refine heeds_converse routes _ _ _ 0 ⟨knows.id, knows.cancelled, advertises specs rfl, ?_,
        .ofAsides knows.asides⟩
      intro e member model transcript tools asks
      have aside := knows.asides e member
      rw [asks] at aside
      exact aside.elim

/-- Whether a run is that of a tool that the model was offered before. -/
def ofOfferedTool (past : List Exchange) : Question → Bool
  | .runTool provider tool _ => past.any fun e =>
    match e.1 with
    | .complete _ _ tools => tools.any fun d => d.name = ToolName.ofTool provider tool
    | _ => false
  | _ => true

/-- A process whose reference enables one of the tools of a provider. -/
def lookupOnly : ProcessSpec :=
  { (default : ProcessSpec) with
    model := some "m"
    providerRefs := [⟨"tools", "search", ["lookup"], ∅⟩] }

/-- A node with this process. -/
def lookupNode : Node := ⟨"agent", "", .process lookupOnly, []⟩

/-- A model that calls the other tool. -/
def callsDelete (q : Question) : Answer q :=
  match q with
  | .hasConnection _ => true
  | .listing _ => .ok [⟨"lookup", "", .object []⟩, ⟨"delete", "", .object []⟩]
  | .complete .. => .ok ⟨"", [⟨"x", "_-_-_search_-_-_delete", .null⟩]⟩
  | _ => default

end Engine

end DialogueEngine
