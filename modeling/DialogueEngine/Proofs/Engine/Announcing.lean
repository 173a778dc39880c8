import DialogueEngine.Proofs.Engine.Hearing
import DialogueEngine.Proofs.Engine.Resumption
import DialogueEngine.Proofs.Engine.Settling
import DialogueEngine.Proofs.Interaction.Chronicle

/-!
What is heard of a conversation while a node is run. Each call that waits for approval is told of,
and each tool that is run, when it starts and when it has ended; so what is heard is what is done,
in the order in which it is done, and what was done can be told from the messages that are added.
-/

namespace DialogueEngine

/-! ## What is heard -/

/-- The conversation that an event is about; a provider is passed over on behalf of none. -/
def Event.about? : Event → Option String
  | .stepStarted id _ | .stepCompleted id _ _ | .stepFailed id _ | .toolStart id _ _
  | .toolEnd id _ _ | .approvalRequested id _ | .approvalResolved id _ _ => some id
  | .providerSkipped _ _ => none

namespace Situation

variable {s s' s'' : Situation} {id : String}

/-- The events about a conversation. -/
def heard (id : String) (s : Situation) : List Event :=
  s.published.filter fun e => e.about? = some id

theorem heard_of_published (same : s'.published = s.published) (id : String) :
    s'.heard id = s.heard id := by
  rw [heard, same, heard]

theorem heard_append (id : String) (s : Situation) (e : Event) :
    ({ s with published := s.published ++ [e] } : Situation).heard id =
      s.heard id ++ if e.about? = some id then [e] else [] := by
  rw [heard, heard, List.filter_append]
  by_cases about : e.about? = some id <;> simp [about]

/-- Nothing is heard of any other conversation. -/
def Discreet (id : String) (s s' : Situation) : Prop :=
  ∀ other, other ≠ id → s'.heard other = s.heard other

theorem Discreet.of_published (same : s'.published = s.published) : Discreet id s s' :=
  fun other _ => heard_of_published same other

theorem Discreet.refl (id : String) (s : Situation) : Discreet id s s := .of_published rfl

theorem Discreet.trans (first : Discreet id s s') (second : Discreet id s' s'') :
    Discreet id s s'' :=
  fun other different => (second other different).trans (first other different)

end Situation

open Situation (Discreet)

/-! ## What is done -/

/-- What the run of a node does as far as it is told of: a message is added, approval of a call is
requested, or a tool is run and its result is added as a message. -/
inductive Doing where
  | said (m : Message)
  | requested (call : ToolCall)
  | ran (call : ToolCall) (provider tool : String)
      (names : ToolName.split call.name = .ok (provider, tool))
      (answer : Answer (.runTool provider tool call.arguments)) (s : Stamp)

namespace Doing

/-- What is heard of it. -/
def events (id : String) : Doing → List Event
  | .said _ => []
  | .requested call => [.approvalRequested id call]
  | .ran call _ _ _ answer _ => [.toolStart id call.name call.arguments,
      .toolEnd id call.name (Engine.ranResult answer)]

/-- The messages that a node adds. -/
def messages (node : String) : Doing → List Message
  | .said m => [m]
  | .requested _ => []
  | .ran call _ _ _ answer s =>
    [(Message.answering call.id (Engine.ranResult answer) s).saidAt node]

/-- The runs of tools that providers are asked for, with what they answer. -/
def runs : Doing → List Exchange
  | .ran call provider tool _ answer _ => [⟨.runTool provider tool call.arguments, answer⟩]
  | _ => []

/-- The calls that are to be approved. -/
def requests : Doing → List ToolCall
  | .requested call => [call]
  | _ => []

end Doing

namespace Exchange

/-- The runs of tools among some exchanges. -/
def toolRuns (past : List Exchange) : List Exchange := past.filter fun e => e.1.isRun

theorem toolRuns_append (past more : List Exchange) :
    toolRuns (past ++ more) = toolRuns past ++ toolRuns more :=
  List.filter_append ..

theorem toolRuns_aside {q : Question} (aside : q.isRun = false) (answer : Answer q) :
    toolRuns [⟨q, answer⟩] = [] := by
  simp [toolRuns, aside]

end Exchange

namespace Conversation

variable {c c' c'' : Conversation} {node : String} {doings more : List Doing}

/-- What some doings make of a conversation in the middle of a turn: messages are added. -/
structure Worked (node : String) (c : Conversation) (doings : List Doing) (c' : Conversation) :
    Prop where
  id : c'.id = c.id
  status : c'.status = c.status
  pending : c'.pending = c.pending
  messages : c'.messages = c.messages ++ doings.flatMap (Doing.messages node)

namespace Worked

/-- Nothing is said. -/
theorem silent (none : doings.flatMap (Doing.messages node) = []) : Worked node c doings c :=
  ⟨rfl, rfl, rfl, by rw [none, List.append_nil]⟩

/-- Listings are kept. -/
theorem of_unlisted (same : Engine.unlisted c' = Engine.unlisted c) : Worked node c [] c' where
  id := (congrArg Conversation.id same :)
  status := (congrArg Conversation.status same :)
  pending := (congrArg Conversation.pending same :)
  messages := by
    have messages : c'.messages = c.messages := (congrArg Conversation.messages same :)
    rw [messages, List.flatMap_nil, List.append_nil]

/-- One message is added. -/
theorem push {m : Message} (tells : doings.flatMap (Doing.messages node) = [m]) (now : Instant) :
    Worked node c doings (c.push m now) :=
  ⟨rfl, rfl, rfl, by rw [tells]; rfl⟩

theorem trans (first : Worked node c doings c') (second : Worked node c' more c'') :
    Worked node c (doings ++ more) c'' where
  id := second.id.trans first.id
  status := second.status.trans first.status
  pending := second.pending.trans first.pending
  messages := by rw [second.messages, first.messages, List.flatMap_append, List.append_assoc]

end Worked

/-- What the doings of a turn make of a conversation: it waits for approval of the calls that were
requested, or nothing was requested and it goes on, or is completed. -/
structure Turned (node : String) (c : Conversation) (doings : List Doing) (c' : Conversation) :
    Prop where
  id : c'.id = c.id
  messages : c'.messages = c.messages ++ doings.flatMap (Doing.messages node)
  ends : c'.status = .awaitingApproval ∧ c'.pending = doings.flatMap Doing.requests ∧
      c'.pending ≠ [] ∨
    (c'.status = c.status ∨ c'.status = .completed) ∧ c'.pending = c.pending ∧
      doings.flatMap Doing.requests = []

/-- Where nothing is requested the turn goes on. -/
theorem Worked.turned (worked : Worked node c doings c')
    (none : doings.flatMap Doing.requests = []) : Turned node c doings c' where
  id := worked.id
  messages := worked.messages
  ends := .inr ⟨.inl worked.status, worked.pending, none⟩

theorem Turned.after (worked : Worked node c doings c')
    (none : doings.flatMap Doing.requests = []) (turned : Turned node c' more c'') :
    Turned node c (doings ++ more) c'' where
  id := turned.id.trans worked.id
  messages := by rw [turned.messages, worked.messages, List.flatMap_append, List.append_assoc]
  ends := by
    rw [List.flatMap_append, none, List.nil_append, ← worked.status, ← worked.pending]
    exact turned.ends

end Conversation

open Conversation (Turned Worked)

/-! ## Telling of what is done -/

namespace Engine

variable {α β : Type} {id : String} {s s' : Situation}

/-- From a situation a computation lets nothing be heard of other conversations than its own. As
long as nobody else lets anything be heard of that while an answer is awaited, `post` holds in the
end of what has been heard and exchanged since, of the value and of the situation. -/
def Reports (id : String) (x : Engine α) (s : Situation)
    (post : List Event → List Exchange → α → Situation → Prop) : Prop :=
  ∀ past since, Discreet id since s →
    (x s).Chronicles (fun s s' => s'.heard id = s.heard id) (fun _ => Discreet id)
      (fun _ _ => True)
      (fun past' since' a s' => Discreet id since' s' ∧ ∃ told more,
        s'.heard id = s.heard id ++ told ∧ past' = past ++ more ∧ post told more a s')
      past since

namespace Reports

variable {x : Engine α} {post : List Event → List Exchange → α → Situation → Prop}

theorem mono {post' : List Event → List Exchange → α → Situation → Prop}
    (reports : Reports id x s post)
    (weaker : ∀ told more a s', post told more a s' → post' told more a s') :
    Reports id x s post' := by
  intro past since discreet
  refine (reports past since discreet).mono ?_
  rintro _ _ a s' ⟨discreet', told, more, heard, exchanged, holds⟩
  exact ⟨discreet', told, more, heard, exchanged, weaker told more a s' holds⟩

theorem pure {a : α} (holds : post [] [] a s) : Reports id (Pure.pure a) s post :=
  fun past _ discreet =>
    ⟨discreet, [], [], (List.append_nil _).symm, (List.append_nil past).symm, holds⟩

theorem bind {f : α → Engine β} {mid : List Event → List Exchange → α → Situation → Prop}
    {post : List Event → List Exchange → β → Situation → Prop} (first : Reports id x s mid)
    (later : ∀ told more a s', mid told more a s' → Reports id (f a) s'
      fun told' more' b s'' => post (told ++ told') (more ++ more') b s'') :
    Reports id (x >>= f) s post := by
  intro past since discreet
  apply Activity.chronicles_bind (first past since discreet)
  rintro _ since' a s' ⟨discreet', told, more, heard, rfl, holds⟩
  refine (later told more a s' holds (past ++ more) since' discreet').mono ?_
  rintro _ _ b s'' ⟨discreet'', told', more', heard', rfl, holds'⟩
  exact ⟨discreet'', told ++ told', more ++ more', by rw [heard', heard, List.append_assoc],
    List.append_assoc .., holds'⟩

/-- What asks nothing and publishes nothing. -/
theorem of_ends {mid : α → Situation → Prop}
    (ends : (x s).Ends fun a s' => s'.published = s.published ∧ mid a s') :
    Reports id x s fun told more a s' => told = [] ∧ more = [] ∧ mid a s' := by
  intro past since discreet
  refine ends.chronicles fun a s' ⟨same, holds⟩ => ?_
  exact ⟨discreet.trans (.of_published same), [], [],
    by rw [Situation.heard_of_published same, List.append_nil], (List.append_nil past).symm,
    rfl, rfl, holds⟩

end Reports

theorem reports_ask (q : Question) : Reports id (ask q) s
    fun told more answer _ => told = [] ∧ more = [⟨q, answer⟩] := by
  intro past since discreet
  refine ⟨discreet, trivial, fun answer s' same => ?_⟩
  exact ⟨.refl id s', [], [⟨q, answer⟩], by rw [same, List.append_nil], rfl, rfl, rfl⟩

/-- What is published about the conversation is heard. -/
theorem reports_publish {e : Event} (about : e.about? = some id) : Reports id (publish e) s
    fun told more _ s' => told = [e] ∧ more = [] ∧ s'.store = s.store := by
  intro past since discreet
  have tells (other : String) := Situation.heard_append other s e
  refine ⟨discreet.trans fun other different => ?_, [e], [], ?_, (List.append_nil past).symm,
    rfl, rfl, rfl⟩
  · have silent : ¬ e.about? = some other := by
      rw [about]
      exact fun same => different (Option.some.inj same).symm
    rw [tells, if_neg silent, List.append_nil]
  · rw [tells, if_pos about]

/-- What is published about no conversation is not heard of any. -/
theorem reports_publish_aside {e : Event} (aside : e.about? = none) : Reports id (publish e) s
    fun told more _ _ => told = [] ∧ more = [] := by
  intro past since discreet
  let s' : Situation := { s with published := s.published ++ [e] }
  have same (other : String) : s'.heard other = s.heard other := by
    rw [Situation.heard_append, aside, if_neg nofun, List.append_nil]
  exact ⟨discreet.trans fun other _ => same other, [], [], by rw [List.append_nil]; exact same id,
    (List.append_nil past).symm, rfl, rfl⟩

/-- A computation does some of what is done in the run of a node: it is what is heard of the
conversation, and tools are run for it alone. -/
def Does (id : String) (x : Engine α) (post : List Doing → α → Prop) : Prop :=
  ∀ s, Reports id x s fun told more a _ => ∃ doings : List Doing,
    told = doings.flatMap (Doing.events id) ∧
      Exchange.toolRuns more = doings.flatMap Doing.runs ∧ post doings a

namespace Does

variable {x : Engine α} {post : List Doing → α → Prop}

theorem mono {post' : List Doing → α → Prop} (does : Does id x post)
    (weaker : ∀ doings a, post doings a → post' doings a) : Does id x post' := by
  refine fun s => (does s).mono ?_
  rintro told more a _ ⟨doings, tells, runs, holds⟩
  exact ⟨doings, tells, runs, weaker doings a holds⟩

theorem pure {a : α} (holds : post [] a) : Does id (Pure.pure a) post :=
  fun _ => .pure ⟨[], rfl, rfl, holds⟩

theorem bind {f : α → Engine β} {mid : List Doing → α → Prop} {post : List Doing → β → Prop}
    (first : Does id x mid)
    (later : ∀ doings a, mid doings a → Does id (f a) fun doings' b => post (doings ++ doings') b) :
    Does id (x >>= f) post := by
  intro s
  apply (first s).bind
  rintro _ more a s' ⟨doings, rfl, runs, holds⟩
  refine (later doings a holds s').mono ?_
  rintro _ more' b _ ⟨doings', rfl, runs', holds'⟩
  exact ⟨doings ++ doings', List.flatMap_append.symm,
    by rw [Exchange.toolRuns_append, runs, runs', List.flatMap_append], holds'⟩

/-- What is told of nobody goes before. -/
theorem after {f : α → Engine β} {mid : α → Prop} {post : List Doing → β → Prop}
    (first : Does id x fun doings a => doings = [] ∧ mid a)
    (later : ∀ a, mid a → Does id (f a) post) : Does id (x >>= f) post := by
  apply first.bind
  rintro _ a ⟨rfl, holds⟩
  exact later a holds

/-- A message is added that nothing tells of. -/
theorem said (m : Message) (does : Does id x fun doings a => post (.said m :: doings) a) :
    Does id x post := by
  refine fun s => (does s).mono ?_
  rintro told more a _ ⟨doings, tells, runs, holds⟩
  exact ⟨.said m :: doings, tells, runs, holds⟩

theorem of_ends {mid : α → Prop}
    (ends : ∀ s, (x s).Ends fun a s' => s'.published = s.published ∧ mid a) :
    Does id x fun doings a => doings = [] ∧ mid a := by
  refine fun s => (Reports.of_ends (ends s)).mono ?_
  rintro _ _ a _ ⟨rfl, rfl, holds⟩
  exact ⟨[], rfl, rfl, rfl, holds⟩

theorem and_yields {also : α → Prop} (does : Does id x post)
    (yields : Activity.Yields (fun _ => True) x also) :
    Does id x fun doings a => post doings a ∧ also a := by
  intro s past since discreet
  refine ((does s past since discreet).and_meets (yields s) fun _ => trivial).mono ?_
  rintro _ _ a s' ⟨⟨discreet', told, more, heard, exchanged, doings, tells, runs, holds⟩, further⟩
  exact ⟨discreet', told, more, heard, exchanged, doings, tells, runs, holds, further⟩

end Does

/-! ## Asides -/

theorem does_situation : Does id situation fun doings _ => doings = [] ∧ True :=
  .of_ends fun _ => ⟨rfl, trivial⟩

theorem does_stamp : Does id stamp fun doings _ => doings = [] ∧ True :=
  .of_ends fun _ => ⟨rfl, trivial⟩

theorem does_now : Does id now fun doings _ => doings = [] ∧ True :=
  .of_ends fun _ => ⟨rfl, trivial⟩

theorem does_ask {q : Question} (aside : q.isRun = false) :
    Does id (ask q) fun doings _ => doings = [] ∧ True := by
  refine fun s => (reports_ask q).mono ?_
  rintro _ _ answer _ ⟨rfl, rfl⟩
  exact ⟨[], rfl, Exchange.toolRuns_aside aside answer, rfl, trivial⟩

theorem does_isToBeCancelled (c : Conversation) :
    Does id (isToBeCancelled c) fun doings _ => doings = [] ∧ True := by
  unfold isToBeCancelled
  split
  · exact .pure ⟨rfl, trivial⟩
  · exact does_situation.after fun _ _ => .pure ⟨rfl, trivial⟩

theorem does_fullListing (r : ProviderRef) :
    Does id (fullListing r) fun doings _ => doings = [] ∧ True := by
  have connects : Does id (ensureConnected r) fun doings _ => doings = [] ∧ True := by
    apply (does_ask rfl).after
    intro connected _
    split
    · exact .pure ⟨rfl, trivial⟩
    · exact does_ask rfl
  have skips (e : Event) (aside : e.about? = none) :
      Does id (publish e) fun doings _ => doings = [] ∧ True := by
    refine fun s => (reports_publish_aside aside).mono ?_
    rintro _ _ _ _ ⟨rfl, rfl⟩
    exact ⟨[], rfl, rfl, rfl, trivial⟩
  apply connects.after
  intro connected _
  split
  · exact (skips _ rfl).after fun _ _ => .pure ⟨rfl, trivial⟩
  · apply (does_ask rfl).after
    intro listing _
    split <;> exact .pure ⟨rfl, trivial⟩

theorem does_toolsOf (c : Conversation) (r : ProviderRef) :
    Does id (toolsOf c r) fun doings _ => doings = [] ∧ True := by
  apply (does_ask rfl).after
  intro revision _
  split
  · exact .pure ⟨rfl, trivial⟩
  · apply (does_fullListing r).after
    intro listed _
    split
    · exact .pure ⟨rfl, trivial⟩
    · exact .pure ⟨rfl, trivial⟩
    · exact does_now.after fun _ _ => .pure ⟨rfl, trivial⟩

theorem does_toolsOfAll (c : Conversation) (refs : List ProviderRef) :
    Does id (toolsOfAll c refs) fun doings _ => doings = [] ∧ True := by
  induction refs generalizing c with
  | nil => exact .pure ⟨rfl, trivial⟩
  | cons r rest ih =>
    apply (does_toolsOf c r).after
    intro found _
    split
    · exact .pure ⟨rfl, trivial⟩
    · next c' tools =>
      apply (ih c').after
      intro others _
      split <;> exact .pure ⟨rfl, trivial⟩

/-- Nothing is heard of the tools of a turn, and they change nothing but the listings. -/
theorem does_turnTools (p : TurnPlan) (c : Conversation) :
    Does id (turnTools p c) fun doings found => doings = [] ∧ unlisted found.1 = unlisted c := by
  have silent : Does id (turnTools p c) fun doings _ => doings = [] ∧ True := by
    apply (does_toolsOfAll c p.providerRefs).after
    intro found _
    split
    · exact .pure ⟨rfl, trivial⟩
    · dsimp only
      split <;> exact .pure ⟨rfl, trivial⟩
  refine (silent.and_yields (yields_turnTools_unlisted p c)).mono ?_
  rintro doings found ⟨⟨rfl, -⟩, same⟩
  exact ⟨rfl, same⟩

/-! ## Calls -/

variable {p : TurnPlan} {c : Conversation}

theorem reports_answerCall (p : TurnPlan) (c : Conversation) (call : ToolCall)
    (result : ToolResult) : Reports id (answerCall p c call result) s fun told more c' _ =>
      told = [] ∧ more = [] ∧
        ∃ t, c' = c.push ((Message.answering call.id result t).saidAt p.node) t.instant :=
  .of_ends ⟨rfl, _, rfl⟩

/-- A tool is run and its run is told of, or nothing is done because the name is that of no tool. -/
theorem reports_invoke (call : ToolCall) : Reports id (invoke id call) s fun told more outcome _ =>
    told = [] ∧ more = [] ∨
      ∃ provider tool, ToolName.split call.name = .ok (provider, tool) ∧
        ∃ answer : Answer (.runTool provider tool call.arguments),
          told = [.toolStart id call.name call.arguments,
            .toolEnd id call.name (ranResult answer)] ∧
          more = [⟨.runTool provider tool call.arguments, answer⟩] ∧
          outcome = .completed (ranResult answer) := by
  unfold invoke
  split
  · exact .pure (.inl ⟨rfl, rfl⟩)
  cases names : ToolName.split call.name with
  | error f => exact .pure (.inl ⟨rfl, rfl⟩)
  | ok place =>
    obtain ⟨provider, tool⟩ := place
    apply (reports_publish rfl).bind
    rintro _ _ _ s₁ ⟨rfl, rfl, -⟩
    apply (reports_ask (.runTool provider tool call.arguments)).bind
    rintro _ _ answer s₂ ⟨rfl, rfl⟩
    cases answer with
    | ok result =>
      apply (reports_publish rfl).bind
      rintro _ _ _ s₃ ⟨rfl, rfl, -⟩
      exact .pure (.inr ⟨provider, tool, rfl, .ok result, rfl, rfl, rfl⟩)
    | error f =>
      apply (reports_publish rfl).bind
      rintro _ _ _ s₃ ⟨rfl, rfl, -⟩
      exact .pure (.inr ⟨provider, tool, rfl, .error f, rfl, rfl, rfl⟩)

/-- What the treatment of calls has done, and the calls that wait for approval. -/
def Treats (node : String) (h : Handling) (doings : List Doing) (h' : Handling) : Prop :=
  Worked node h.conversation doings h'.conversation ∧
    h'.gated = h.gated ++ doings.flatMap Doing.requests

/-- A call is answered, run and answered, or set aside for approval. -/
theorem does_handleCall {h : Handling} (named : h.conversation.id = id) (call : ToolCall) :
    Does id (handleCall p h call) (Treats p.node h) := by
  have answers (result : ToolResult) {f : Conversation → Handling}
      (puts : ∀ c, (f c).conversation = c ∧ (f c).gated = h.gated) :
      Does id (do return f (← answerCall p h.conversation call result)) (Treats p.node h) := by
    intro s
    apply (reports_answerCall p h.conversation call result).bind
    rintro _ _ _ s' ⟨rfl, rfl, t, rfl⟩
    refine .pure ⟨[.said ((Message.answering call.id result t).saidAt p.node)], rfl, rfl, ?_, ?_⟩
    · rw [(puts _).1]
      exact .push rfl _
    · rw [(puts _).2]
      exact (List.append_nil _).symm
  apply (does_isToBeCancelled h.conversation).after
  intro cancel _
  split
  · exact answers _ fun _ => ⟨rfl, rfl⟩
  split
  · split <;> exact answers _ fun _ => ⟨rfl, rfl⟩
  subst named
  split
  · intro s
    apply (reports_publish rfl).bind
    rintro _ _ _ s' ⟨rfl, rfl, -⟩
    exact .pure ⟨[.requested call], rfl, rfl, .silent rfl, rfl⟩
  · intro s
    apply (reports_invoke call).bind
    rintro _ _ outcome s' (⟨rfl, rfl⟩ | ⟨provider, tool, names, answer, rfl, rfl, rfl⟩)
    · split
      · exact .pure ⟨[], rfl, rfl, .silent rfl, (List.append_nil _).symm⟩
      · exact answers _ (f := fun c => { h with conversation := c }) (fun _ => ⟨rfl, rfl⟩) s'
    · -- The message that answers the call carries the result that was told of.
      apply (reports_answerCall p h.conversation call (ranResult answer)).bind
      rintro _ _ _ s'' ⟨rfl, rfl, t, rfl⟩
      exact .pure ⟨[.ran call provider tool names answer t], rfl, rfl, .push rfl _,
        (List.append_nil _).symm⟩

theorem does_handleCalls {h : Handling} (named : h.conversation.id = id) (calls : List ToolCall) :
    Does id (handleCalls p h calls) (Treats p.node h) := by
  induction calls generalizing h with
  | nil => exact .pure ⟨.silent rfl, (List.append_nil _).symm⟩
  | cons call rest ih =>
    apply (does_handleCall named call).bind
    rintro doings h' ⟨worked, gated⟩
    refine (ih (worked.id.trans named)).mono ?_
    rintro doings' h'' ⟨worked', gated'⟩
    refine ⟨worked.trans worked', ?_⟩
    rw [gated', gated, List.flatMap_append, List.append_assoc]

/-! ## Turns -/

theorem does_transcript (systemPrompt : String) (c : Conversation) :
    Does id (transcript systemPrompt c) fun doings _ => doings = [] ∧ True := by
  unfold transcript
  split
  · exact .pure ⟨rfl, trivial⟩
  · exact does_stamp.after fun _ _ => .pure ⟨rfl, trivial⟩

/-- The calls that wait for approval when a turn pauses are those that were requested. -/
theorem turned_pauseFor {doings : List Doing} {d : Conversation} {calls : List ToolCall}
    (worked : Worked p.node c doings d) (gated : calls = doings.flatMap Doing.requests)
    (some : calls ≠ []) (route : Option String) (now : Instant) :
    Turned p.node c doings ({ d with handoff := route }.pauseFor calls now) := by
  have pauses : { d with handoff := route }.pauseFor calls now =
      { d with
        handoff := route, pending := calls, status := .awaitingApproval, updatedAt := now } := by
    unfold Conversation.pauseFor
    rw [if_neg (by simpa using some)]
  rw [pauses]
  exact ⟨worked.id, worked.messages, .inl ⟨rfl, gated, some⟩⟩

theorem does_converse (named : c.id = id) (systemPrompt : String) (specs : List DeclaredTool)
    (most left calls : Nat) : Does id (converse p systemPrompt specs most left calls c)
      fun doings result => Turned p.node c doings result.1 := by
  have stays (c : Conversation) : Turned p.node c [] c := (Worked.silent rfl).turned rfl
  have cancelled (c : Conversation) : Turned p.node c [] { c with cancelled := true } :=
    ⟨rfl, (stays c).messages, (stays c).ends⟩
  induction left generalizing calls c with
  | zero =>
    apply (does_isToBeCancelled c).after
    intro cancel _
    split
    · exact .pure (cancelled c)
    · exact .pure (stays c)
  | succ left ih =>
    apply (does_isToBeCancelled c).after
    intro cancel _
    split
    · exact .pure (cancelled c)
    apply (does_transcript systemPrompt c).after
    intro messages _
    apply (does_ask rfl).after
    intro answer _
    split
    · exact .pure (stays c)
    next completion =>
    apply does_stamp.after
    intro t _
    dsimp only
    generalize (Message.assistant completion.content completion.toolCalls t).saidAt p.node = m
    have spoken : Worked p.node c [.said m] (c.push m t.instant) := .push rfl _
    refine .said m ?_
    split
    · exact .pure (spoken.turned rfl)
    apply (does_handleCalls (h := ⟨c.push m t.instant, [], none⟩) named completion.toolCalls).bind
    rintro doings h ⟨worked, gated⟩
    have worked' := spoken.trans worked
    have requests : h.gated = (.said m :: doings).flatMap Doing.requests := gated
    split
    · next some =>
      apply does_now.after
      intro now _
      refine .pure ?_
      rw [List.append_nil]
      exact turned_pauseFor worked' requests (by simpa using some) _ _
    next none =>
    have none : h.gated = [] := by simpa using none
    split
    · refine .pure ?_
      rw [List.append_nil]
      exact worked'.turned (requests.symm.trans none)
    · refine (ih (worked'.id.trans named) (calls + 1)).mono fun doings' result turned => ?_
      exact turned.after worked' (requests.symm.trans none)

theorem does_runTurn (named : c.id = id) (p : TurnPlan) : Does id (runTurn p c)
    fun doings result => Turned p.node c doings result.1 := by
  have left (d : Conversation) (same : unlisted d = unlisted { c with handoff := none }) :
      Worked p.node c [] d :=
    have worked : Worked p.node { c with handoff := none } [] d := .of_unlisted same
    ⟨worked.id, worked.status, worked.pending, worked.messages⟩
  unfold runTurn
  dsimp only
  split
  · exact .pure ((left _ rfl).turned rfl)
  apply (does_turnTools p { c with handoff := none }).after
  rintro ⟨d, found⟩ same
  split
  · next c' f ends =>
    obtain ⟨rfl, rfl⟩ := Prod.mk.inj ends
    exact .pure ((left _ same).turned rfl)
  · next c' specs ends =>
    obtain ⟨rfl, rfl⟩ := Prod.mk.inj ends
    apply does_situation.after
    intro seen _
    refine (does_converse ((left _ same).id.trans named) _ _ _ _ _).mono ?_
    exact fun doings result turned => turned.after (left _ same) rfl

/-! ## Nodes -/

theorem does_runProcess (named : c.id = id) (node : Node) (spec : ProcessSpec) :
    Does id (runProcess node spec c) fun doings result => Turned node.id c doings result.1 := by
  apply does_situation.after
  intro seen _
  split
  · exact .pure ((Worked.silent rfl).turned rfl)
  next plan planned =>
  apply (does_runTurn named plan).bind
  rintro doings ⟨d, ended⟩ turned
  rw [plan_node planned] at turned
  have turned' : Turned node.id c (doings ++ []) d := by rwa [List.append_nil]
  cases ended with
  | error f => exact .pure turned'
  | ok outcome => exact .pure turned'

theorem does_runToolProvider (node : Node) (spec : ProviderSpec) (c : Conversation) :
    Does id (runToolProvider node spec c) fun doings result =>
      Turned node.id c doings result.1 := by
  have silent : Does id (runToolProvider node spec c) fun doings _ => doings = [] ∧ True := by
    unfold runToolProvider
    cases spec.require node.id with
    | error f => exact .pure ⟨rfl, trivial⟩
    | ok provider =>
      apply (does_ask rfl).after
      intro revision _
      apply (does_fullListing _).after
      intro listed _
      split
      · exact .pure ⟨rfl, trivial⟩
      · exact .pure ⟨rfl, trivial⟩
      · exact does_now.after fun _ _ => .pure ⟨rfl, trivial⟩
  refine (silent.and_yields (yields_runToolProvider_unlisted node spec c)).mono ?_
  rintro doings result ⟨⟨rfl, -⟩, same, -⟩
  exact (Worked.of_unlisted same).turned rfl

/-- What is heard of the run of a node is what it does, and what it does can be told from what it
makes of the conversation. -/
theorem does_visit (named : c.id = id) (node : Node) : Does id (visit node c)
    fun doings result => Turned node.id c doings result.1 ∧ Sound result := by
  refine Does.and_yields ?_ (sound_visit node c)
  have silent : c.messages ++ [] = c.messages := List.append_nil _
  unfold visit
  split
  · exact does_now.after fun now _ =>
      .pure ⟨rfl, silent.symm, .inr ⟨.inl rfl, rfl, rfl⟩⟩
  · exact does_runProcess named node _
  · exact does_runToolProvider node _ c
  · exact does_now.after fun now _ => .pure ⟨rfl, silent.symm, .inr ⟨.inr rfl, rfl, rfl⟩⟩

end Engine

end DialogueEngine
