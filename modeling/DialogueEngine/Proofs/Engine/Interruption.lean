import DialogueEngine.Proofs.Engine.Routing
import DialogueEngine.Proofs.Engine.Stillness
import DialogueEngine.Proofs.Interaction.Interruption

/-!
Turns that are cancelled on the way. A request to cancel a conversation may become visible while its
turn waits for an answer. The turn then asks neither the model nor a provider to run a tool again;
what it has obtained stays, each call that has not been treated is answered with an error, and how
the turn ends depends on the completion at hand and on the calls of it that were treated before.
-/

namespace DialogueEngine

/-- What the model gets to see of a run. -/
def ToolResult.ofRun : Except ProviderFailure ToolResult → ToolResult
  | .ok result => result
  | .error f => .failure f.message

namespace TurnPlan

variable (p : TurnPlan)

/-- The message that a completion becomes. -/
def spoken (completion : Completion) (s : Stamp) : Message :=
  (Message.assistant completion.content completion.toolCalls s).saidAt p.node

/-- The message that answers a call. -/
def answering (call : ToolCall) (result : ToolResult) (s : Stamp) : Message :=
  (Message.answering call.id result s).saidAt p.node

/-- A message tells that a call is skipped. -/
def Skips (call : ToolCall) (m : Message) : Prop :=
  ∃ s, m = p.answering call (.failure "Tool call skipped: conversation cancelled") s

/-- How the first calls of a completion are treated: the runs that are asked for, the messages that
answer calls, the calls that wait for approval and the route that is chosen. -/
inductive Treats : List ToolCall → List Exchange → List Message → List ToolCall →
    Option String → Prop
  | nothing : Treats [] [] [] [] none
  | route {done gated : List ToolCall} {ran : List Exchange} {said : List Message}
      {chosen : Option String} {call : ToolCall} {h : Handoff}
      (before : Treats done ran said gated chosen) (named : ToolName.isRoute call.name = true)
      (known : p.handoffs.find? (fun route => route.toolName = call.name) = some h) (s : Stamp) :
      Treats (done ++ [call]) ran
        (said ++ [p.answering call (.success ("Handing off to " ++ h.label)) s]) gated
        (chosen <|> some h.label)
  | noRoute {done gated : List ToolCall} {ran : List Exchange} {said : List Message}
      {chosen : Option String} {call : ToolCall} (before : Treats done ran said gated chosen)
      (named : ToolName.isRoute call.name = true)
      (unknown : p.handoffs.find? (fun route => route.toolName = call.name) = none) (s : Stamp) :
      Treats (done ++ [call]) ran
        (said ++ [p.answering call (.failure ("Unknown handoff target: " ++ call.name)) s]) gated
        chosen
  | gate {done gated : List ToolCall} {ran : List Exchange} {said : List Message}
      {chosen : Option String} {call : ToolCall} (before : Treats done ran said gated chosen)
      (approvable : call.Approvable) (required : p.requireApproval = true) :
      Treats (done ++ [call]) ran said (gated ++ [call]) chosen
  | unnamed {done gated : List ToolCall} {ran : List Exchange} {said : List Message}
      {chosen : Option String} {call : ToolCall} {f : ToolFailure}
      (before : Treats done ran said gated chosen) (plain : ToolName.isRoute call.name = false)
      (unsplit : ToolName.split call.name = .error f) (s : Stamp) :
      Treats (done ++ [call]) ran (said ++ [p.answering call (.failure f.message) s]) gated chosen
  | run {done gated : List ToolCall} {ran : List Exchange} {said : List Message}
      {chosen : Option String} {call : ToolCall} {provider tool : String}
      (before : Treats done ran said gated chosen) (plain : ToolName.isRoute call.name = false)
      (free : p.requireApproval = false)
      (names : ToolName.split call.name = .ok (provider, tool))
      (answer : Except ProviderFailure ToolResult) (s : Stamp) :
      Treats (done ++ [call]) (ran ++ [⟨.runTool provider tool call.arguments, answer⟩])
        (said ++ [p.answering call (.ofRun answer) s]) gated chosen

/-- The messages that a turn holds between two completions, with the exchanges that led there and
the number of completions. -/
inductive Holds (c : Conversation) : List Exchange → Nat → List Message → Prop
  | prepared {past : List Exchange} (asides : ∀ e ∈ past, Engine.Question.IsAside e.1) :
      Holds c past 0 c.messages
  | treated {past ran : List Exchange} {calls : Nat} {messages front said : List Message}
      {specs : List DeclaredTool} {completion : Completion} (before : Holds c past calls messages)
      (some : completion.toolCalls ≠ []) (s : Stamp)
      (treats : p.Treats completion.toolCalls ran said [] none) :
      Holds c (past ++ ⟨.complete p.model (front ++ messages) specs, .ok completion⟩ :: ran)
        (calls + 1) (messages ++ p.spoken completion s :: said)

/-- How a turn ends when the rest of a completion's calls is skipped. -/
def outcomeOf (gated : List ToolCall) (chosen : Option String) (calls : Nat) : TurnOutcome :=
  if gated.isEmpty then
    match chosen with
    | some label => .handoff label calls
    | none => .cancelled calls
  else .awaitingApproval gated.length calls

/-- What a turn leaves of the conversation: the calls wait that are to be approved, and it is
cancelled where the turn was. -/
structure Leaves (c : Conversation) (gated : List ToolCall) (outcome : TurnOutcome) : Prop where
  pending : gated ≠ [] → c.pending = gated ∧ c.status = .awaitingApproval
  cancelled : ∀ calls, outcome = .cancelled calls → c.cancelled = true

/-- What a turn comes to that is interrupted by a request to cancel its conversation, which became
visible while the last of these exchanges was under way. -/
inductive CutShort (c : Conversation) : List Exchange →
    Conversation × Except Failure TurnOutcome → Prop
  | preparing {past : List Exchange} {c' : Conversation}
      (asides : ∀ e ∈ past, Engine.Question.IsAside e.1) (same : c'.messages = c.messages)
      (leaves : Leaves c' [] (.cancelled 0)) : CutShort c past (c', .ok (.cancelled 0))
  | unprepared {past : List Exchange} {c' : Conversation} {f : Failure}
      (asides : ∀ e ∈ past, Engine.Question.IsAside e.1) (same : c'.messages = c.messages)
      (failed : (∃ cause, f = .provider cause) ∨ ∃ cause, f = .tool cause) :
      CutShort c past (c', .error f)
  | unanswered {past : List Exchange} {calls : Nat} {messages front : List Message}
      {specs : List DeclaredTool} {c' : Conversation} (holds : p.Holds c past calls messages)
      (same : c'.messages = messages) (f : ModelFailure) :
      CutShort c (past ++ [⟨.complete p.model (front ++ messages) specs, .error f⟩])
        (c', .error (.model f))
  | calling {past : List Exchange} {calls : Nat} {messages front skipped : List Message}
      {specs : List DeclaredTool} {completion : Completion} {c' : Conversation}
      {outcome : TurnOutcome} (holds : p.Holds c past calls messages) (s : Stamp)
      (skips : List.Forall₂ p.Skips completion.toolCalls skipped)
      (same : c'.messages = messages ++ p.spoken completion s :: skipped)
      (ends : outcome = if completion.toolCalls.isEmpty then
        .finalResponse completion.content (calls + 1) else .cancelled (calls + 1))
      (leaves : Leaves c' [] outcome) :
      CutShort c (past ++ [⟨.complete p.model (front ++ messages) specs, .ok completion⟩])
        (c', .ok outcome)
  | running {past ran : List Exchange} {calls : Nat} {messages front said skipped : List Message}
      {specs : List DeclaredTool} {completion : Completion} {done todo gated : List ToolCall}
      {call : ToolCall} {q : Question} {answer : Answer q} {chosen : Option String}
      {c' : Conversation} (holds : p.Holds c past calls messages) (s : Stamp)
      (divided : completion.toolCalls = done ++ call :: todo)
      (plain : ToolName.isRoute call.name = false) (question : call.question = .ok q)
      (treats : p.Treats (done ++ [call]) (ran ++ [⟨q, answer⟩]) said gated chosen)
      (skips : List.Forall₂ p.Skips todo skipped)
      (same : c'.messages = messages ++ p.spoken completion s :: (said ++ skipped))
      (leaves : Leaves c' gated (outcomeOf gated chosen (calls + 1))) :
      CutShort c (past ++ ⟨.complete p.model (front ++ messages) specs, .ok completion⟩ ::
        (ran ++ [⟨q, answer⟩])) (c', .ok (outcomeOf gated chosen (calls + 1)))

end TurnPlan

namespace Engine

open TurnPlan (CutShort Holds Skips Treats)

variable {α β : Type} {id : String} {past : List Exchange} {p : TurnPlan} {c c' : Conversation}

/-! ## Interruptions -/

/-- From where no request to cancel a conversation is parked a computation goes on, and breaks off
where one comes up: it asks neither the model nor for a run any more. -/
def Breaks (id : String) (past : List Exchange) (x : Engine α)
    (cut post : List Exchange → α → Prop) : Prop :=
  ∀ s, id ∉ s.cancelRequests → (x s).BreaksOff (id ∈ ·.cancelRequests) Question.IsAside
    (fun past a s => id ∈ s.cancelRequests ∧ cut past a)
    (fun past a s => id ∉ s.cancelRequests ∧ post past a) past

/-- From where such a request is parked, and as long as it is, neither is asked. -/
def Halts (id : String) (x : Engine α) (post : α → Prop) : Prop :=
  ∀ s, id ∈ s.cancelRequests → (x s).Meets (id ∈ ·.cancelRequests) Question.IsAside
    fun a s => id ∈ s.cancelRequests ∧ post a

namespace Halts

theorem pure {a : α} {post : α → Prop} (holds : post a) : Halts id (Pure.pure a) post :=
  fun _ parked => ⟨parked, holds⟩

theorem bind {x : Engine α} {f : α → Engine β} {mid : α → Prop} {post : β → Prop}
    (first : Halts id x mid) (later : ∀ a, mid a → Halts id (f a) post) :
    Halts id (x >>= f) post :=
  fun s parked => Activity.meets_bind (first s parked)
    fun a s' holds => later a holds.2 s' holds.1

theorem mono {x : Engine α} {post post' : α → Prop} (halts : Halts id x post)
    (weaker : ∀ a, post a → post' a) : Halts id x post' :=
  fun s parked => (halts s parked).mono (fun _ aside => aside)
    fun a _ holds => ⟨holds.1, weaker a holds.2⟩

/-- What asks nothing and leaves the requests alone. -/
theorem of_ends {x : Engine α} {post : α → Prop}
    (ends : ∀ s, (x s).Ends fun a s' => s'.cancelRequests = s.cancelRequests ∧ post a) :
    Halts id x post := by
  intro s parked
  obtain ⟨s', a, done, same, holds⟩ := (ends s).eq_done
  rw [done]
  exact ⟨same ▸ parked, holds⟩

end Halts

namespace Breaks

theorem pure {a : α} {cut post : List Exchange → α → Prop} (holds : post past a) :
    Breaks id past (Pure.pure a) cut post :=
  fun _ free => ⟨free, holds⟩

theorem bind {x : Engine α} {f : α → Engine β} {cut mid : List Exchange → α → Prop}
    {cut' post : List Exchange → β → Prop} (first : Breaks id past x cut mid)
    (interrupted : ∀ past a, cut past a → Halts id (f a) (cut' past))
    (later : ∀ past a, mid past a → Breaks id past (f a) cut' post) :
    Breaks id past (x >>= f) cut' post :=
  fun s free => (first s free).andThen
    (fun past a s' holds => interrupted past a holds.2 s' holds.1)
    fun past a s' holds => later past a holds.2 s' holds.1

/-- What asks nothing and leaves the requests alone is not interrupted. -/
theorem bind_ends {x : Engine α} {f : α → Engine β} {mid : α → Prop}
    {cut post : List Exchange → β → Prop}
    (first : ∀ s, id ∉ s.cancelRequests →
      (x s).Ends fun a s' => s'.cancelRequests = s.cancelRequests ∧ mid a)
    (later : ∀ a, mid a → Breaks id past (f a) cut post) :
    Breaks id past (x >>= f) cut post := by
  intro s free
  have ends : (x s).BreaksOff (id ∈ ·.cancelRequests) Question.IsAside (fun _ _ _ => False)
      (fun past' a s' => past' = past ∧ id ∉ s'.cancelRequests ∧ mid a) past :=
    (first s free).breaksOff fun a s' holds => ⟨rfl, holds.1 ▸ free, holds.2⟩
  apply ends.andThen fun _ _ _ never => never.elim
  rintro _ a s' ⟨rfl, free', holds⟩
  exact later a holds s' free'

end Breaks

theorem breaks_ask (q : Question) : Breaks id past (ask q)
    (fun past' answer => past' = past ++ [⟨q, answer⟩])
    (fun past' answer => past' = past ++ [⟨q, answer⟩]) :=
  fun _ _ _ _ => ⟨fun parked => ⟨parked, rfl⟩, fun free => ⟨free, rfl⟩⟩

theorem stamp_rests (s : Situation) : (stamp s).Ends fun _ s' =>
    s'.cancelRequests = s.cancelRequests ∧ True :=
  ⟨rfl, trivial⟩

theorem now_rests (s : Situation) : (now s).Ends fun _ s' =>
    s'.cancelRequests = s.cancelRequests ∧ True :=
  ⟨rfl, trivial⟩

theorem publish_rests (e : Event) (s : Situation) : (publish e s).Ends fun _ s' =>
    s'.cancelRequests = s.cancelRequests ∧ True :=
  ⟨rfl, trivial⟩

/-- A parked request is noticed. -/
theorem isToBeCancelled_halts (named : c.id = id) :
    Halts id (isToBeCancelled c) fun cancel => cancel = true := by
  intro s parked
  obtain ⟨s', cancel, done, rfl, rfl⟩ := (isToBeCancelled_ends c s).eq_done
  rw [done, named, List.contains_iff_mem.2 parked, Bool.or_true]
  exact ⟨parked, rfl⟩

theorem isToBeCancelled_rests (named : c.id = id) (s : Situation) (free : id ∉ s.cancelRequests) :
    (isToBeCancelled c s).Ends fun cancel s' =>
      s'.cancelRequests = s.cancelRequests ∧ cancel = c.cancelled := by
  refine (isToBeCancelled_ends c s).mono (fun _ none => none) ?_
  rintro cancel _ ⟨rfl, rfl⟩
  refine ⟨rfl, ?_⟩
  rw [named, Bool.eq_false_iff.2 fun parked => free (List.contains_iff_mem.1 parked), Bool.or_false]

theorem answerCall_rests (call : ToolCall) (result : ToolResult) (s : Situation) :
    (answerCall p c call result s).Ends fun c' s' => s'.cancelRequests = s.cancelRequests ∧
      ∃ stamp : Stamp, c' = c.push (p.answering call result stamp) stamp.instant :=
  ⟨rfl, _, rfl⟩

/-! ## Calls -/

/-- Calls are skipped: each is answered in turn, and nothing else becomes of the handling. -/
structure Skipped (p : TurnPlan) (h h' : Handling) (calls : List ToolCall) : Prop where
  gated : h'.gated = h.gated
  handoff : h'.handoff = h.handoff
  id : h'.conversation.id = h.conversation.id
  messages : ∃ skipped, List.Forall₂ p.Skips calls skipped ∧
    h'.conversation.messages = h.conversation.messages ++ skipped

theorem handleCall_halts {h : Handling} (named : h.conversation.id = id) (call : ToolCall) :
    Halts id (handleCall p h call) fun h' => Skipped p h h' [call] := by
  apply (isToBeCancelled_halts named).bind
  rintro _ rfl
  rw [if_pos rfl]
  apply (Halts.of_ends (answerCall_rests call _)).bind
  rintro _ ⟨s, rfl⟩
  exact .pure ⟨rfl, rfl, rfl, [_], .cons ⟨s, rfl⟩ .nil, rfl⟩

theorem handleCalls_halts {h : Handling} (named : h.conversation.id = id)
    (calls : List ToolCall) :
    Halts id (handleCalls p h calls) fun h' => Skipped p h h' calls := by
  induction calls generalizing h with
  | nil => exact .pure ⟨rfl, rfl, rfl, [], .nil, (List.append_nil _).symm⟩
  | cons call rest ih =>
    apply (handleCall_halts named call).bind
    intro h₁ first
    apply (ih (first.id.trans named)).mono
    intro h' later
    obtain ⟨one, skips, same⟩ := first.messages
    obtain ⟨others, skips', same'⟩ := later.messages
    refine ⟨later.gated.trans first.gated, later.handoff.trans first.handoff,
      later.id.trans first.id, one ++ others, List.rel_append skips skips', ?_⟩
    rw [same', same, List.append_assoc]

/-- Where the treatment of a completion's calls stands that began after some exchanges, with some
messages: the first of the calls are treated. -/
structure Treating (p : TurnPlan) (id : String) (before : List Exchange) (base : List Message)
    (done : List ToolCall) (past : List Exchange) (h : Handling) : Prop where
  id : h.conversation.id = id
  live : h.conversation.cancelled = false
  treats : ∃ ran said, past = before ++ ran ∧ p.Treats done ran said h.gated h.handoff ∧
    h.conversation.messages = base ++ said

/-- The treatment is interrupted while a call is run; the call is answered by its result. -/
structure Stopped (p : TurnPlan) (id : String) (before : List Exchange) (base : List Message)
    (done : List ToolCall) (call : ToolCall) (past : List Exchange) (h : Handling) : Prop where
  id : h.conversation.id = id
  plain : ToolName.isRoute call.name = false
  runs : ∃ (q : Question) (answer : Answer q) (ran : List Exchange) (said : List Message),
    call.question = .ok q ∧ past = before ++ (ran ++ [⟨q, answer⟩]) ∧
    p.Treats (done ++ [call]) (ran ++ [⟨q, answer⟩]) said h.gated h.handoff ∧
    h.conversation.messages = base ++ said

variable {before : List Exchange} {base : List Message} {done : List ToolCall} {h : Handling}
  {call : ToolCall}

/-- A call is answered without being run. -/
theorem Treating.breaks_answer (treating : Treating p id before base done past h)
    {result : ToolResult} {chosen : Option String}
    (treats : ∀ ran said s, p.Treats done ran said h.gated h.handoff →
      p.Treats (done ++ [call]) ran (said ++ [p.answering call result s]) h.gated chosen) :
    Breaks id past
      (do
        let c ← answerCall p h.conversation call result
        return { h with conversation := c, handoff := chosen })
      (Stopped p id before base done call) (Treating p id before base (done ++ [call])) := by
  apply Breaks.bind_ends fun s _ => answerCall_rests call result s
  rintro _ ⟨s, rfl⟩
  obtain ⟨ran, said, exchanged, treated, same⟩ := treating.treats
  refine .pure ⟨treating.id, treating.live, ran, _, exchanged, treats ran said s treated, ?_⟩
  rw [← List.append_assoc, ← same]
  rfl

/-- A call is answered by what it comes to when it is run. -/
theorem Treating.answered_run (treating : Treating p id before base done past h)
    {provider tool : String} (plain : ToolName.isRoute call.name = false)
    (free : p.requireApproval = false) (names : ToolName.split call.name = .ok (provider, tool))
    (answer : Except ProviderFailure ToolResult) (s : Stamp) :
    ∃ ran said, past = before ++ ran ∧
      p.Treats (done ++ [call]) (ran ++ [⟨.runTool provider tool call.arguments, answer⟩]) said
        h.gated h.handoff ∧
      (h.conversation.push (p.answering call (.ofRun answer) s) s.instant).messages =
        base ++ said := by
  obtain ⟨ran, said, exchanged, treated, same⟩ := treating.treats
  refine ⟨ran, _, exchanged, .run treated plain free names answer s, ?_⟩
  rw [← List.append_assoc, ← same]
  rfl

/-- A call that names a tool of a provider runs it, and nothing else. -/
theorem breaks_invoke {provider tool : String} (conversation : String)
    (plain : ToolName.isRoute call.name = false)
    (names : ToolName.split call.name = .ok (provider, tool)) :
    Breaks id past (invoke conversation call)
      (fun past' invoked => ∃ answer, invoked = .completed (.ofRun answer) ∧
        past' = past ++ [⟨.runTool provider tool call.arguments, answer⟩])
      (fun past' invoked => ∃ answer, invoked = .completed (.ofRun answer) ∧
        past' = past ++ [⟨.runTool provider tool call.arguments, answer⟩]) := by
  unfold invoke
  rw [if_neg (Bool.eq_false_iff.1 plain), names]
  apply Breaks.bind_ends fun s _ => publish_rests _ s
  intro _ _
  apply (breaks_ask _).bind
  · rintro _ answer rfl
    apply (Halts.of_ends (publish_rests _)).bind
    intro _ _
    exact .pure ⟨answer, by cases answer <;> rfl, rfl⟩
  · rintro _ answer rfl
    apply Breaks.bind_ends fun s _ => publish_rests _ s
    intro _ _
    exact .pure ⟨answer, by cases answer <;> rfl, rfl⟩

theorem Treating.breaks_handleCall (treating : Treating p id before base done past h) :
    Breaks id past (handleCall p h call) (Stopped p id before base done call)
      (Treating p id before base (done ++ [call])) := by
  unfold handleCall
  apply Breaks.bind_ends (isToBeCancelled_rests treating.id)
  rintro _ rfl
  rw [treating.live, if_neg Bool.false_ne_true]
  split
  · next named =>
    split
    · next route known =>
      exact treating.breaks_answer fun ran said s treated => .route treated named known s
    · next unknown =>
      exact treating.breaks_answer fun ran said s treated => .noRoute treated named unknown s
  next other =>
  have plain : ToolName.isRoute call.name = false := eq_false_of_ne_true other
  split
  · next gated =>
    obtain ⟨required, names⟩ := Bool.and_eq_true_iff.1 gated
    apply Breaks.bind_ends fun s _ => publish_rests _ s
    intro _ _
    obtain ⟨ran, said, exchanged, treated, same⟩ := treating.treats
    exact .pure ⟨treating.id, treating.live, ran, said, exchanged,
      .gate treated ⟨plain, names⟩ required, same⟩
  next direct =>
  cases names : ToolName.split call.name with
  | error f =>
    unfold invoke
    rw [if_neg other, names]
    exact treating.breaks_answer fun ran said s treated => .unnamed treated plain names s
  | ok place =>
    obtain ⟨provider, tool⟩ := place
    have free : p.requireApproval = false := by
      rw [names] at direct
      simpa [Except.isOk, Except.toBool] using direct
    have question : call.question = .ok (.runTool provider tool call.arguments) := by
      rw [ToolCall.question, names]
      rfl
    apply (breaks_invoke _ plain names).bind
    · rintro _ _ ⟨answer, rfl, rfl⟩
      apply (Halts.of_ends (answerCall_rests call _)).bind
      rintro _ ⟨s, rfl⟩
      obtain ⟨ran, said, rfl, treats, same⟩ := treating.answered_run plain free names answer s
      exact .pure ⟨treating.id, plain, _, answer, ran, said, question, List.append_assoc _ _ _,
        treats, same⟩
    · rintro _ _ ⟨answer, rfl, rfl⟩
      apply Breaks.bind_ends fun s _ => answerCall_rests call _ s
      rintro _ ⟨s, rfl⟩
      obtain ⟨ran, said, rfl, treats, same⟩ := treating.answered_run plain free names answer s
      exact .pure ⟨treating.id, treating.live, _, said, List.append_assoc _ _ _, treats, same⟩

/-- The calls are treated one after the other, until one of them is interrupted and the rest is
skipped. -/
theorem Treating.breaks_handleCalls {calls : List ToolCall}
    (treating : Treating p id before base done past h) :
    Breaks id past (handleCalls p h calls)
      (fun past h' => ∃ treated call todo h₁, calls = treated ++ call :: todo ∧
        Stopped p id before base (done ++ treated) call past h₁ ∧ Skipped p h₁ h' todo)
      (Treating p id before base (done ++ calls)) := by
  induction calls generalizing past done h with
  | nil => exact .pure (by rwa [List.append_nil])
  | cons call rest ih =>
    apply treating.breaks_handleCall.bind
    · intro past' h₁ stopped
      apply (handleCalls_halts stopped.id rest).mono
      intro h' skipped
      exact ⟨[], call, rest, h₁, rfl, by rwa [List.append_nil], skipped⟩
    · intro past' h₁ treating'
      have later := ih treating'
      intro s free
      refine (later s free).mono ?_ ?_
      · rintro past'' h' s' ⟨parked, treated, call', todo, h₂, rfl, stopped, skipped⟩
        rw [List.append_assoc] at stopped
        exact ⟨parked, call :: treated, call', todo, h₂, rfl, stopped, skipped⟩
      · rintro past'' h' s' ⟨free', treating''⟩
        rw [List.append_assoc] at treating''
        exact ⟨free', treating''⟩

/-! ## The conversation with the model -/

theorem transcript_rests (systemPrompt : String) (c : Conversation) (s : Situation) :
    (transcript systemPrompt c s).Ends fun messages s' =>
      s'.cancelRequests = s.cancelRequests ∧ ∃ front, messages = front ++ c.messages := by
  unfold transcript
  split
  · exact ⟨rfl, [], rfl⟩
  · apply Activity.meets_bind (stamp_rests s)
    rintro stamp s' ⟨same, -⟩
    exact ⟨same, [_], rfl⟩

/-- A turn that is to call the model again notices the request. -/
theorem converse_halts (named : c.id = id) (systemPrompt : String) (specs : List DeclaredTool)
    (most left calls : Nat) : Halts id (converse p systemPrompt specs most left calls c)
      fun result => result = ({ c with cancelled := true }, .ok (.cancelled calls)) := by
  unfold converse
  cases left <;>
  · apply (isToBeCancelled_halts named).bind
    rintro _ rfl
    exact .pure rfl

/-- How a turn goes on once the calls of a completion are treated. -/
def concluded (p : TurnPlan) (systemPrompt : String) (specs : List DeclaredTool)
    (most left calls : Nat) (h : Handling) :
    Engine (Conversation × Except Failure TurnOutcome) := do
  if !h.gated.isEmpty then
    let c := { h.conversation with handoff := h.handoff }.pauseFor h.gated (← now)
    return (c, .ok (.awaitingApproval h.gated.length (calls + 1)))
  match h.handoff with
  | some label => return (h.conversation, .ok (.handoff label (calls + 1)))
  | none => converse p systemPrompt specs most left (calls + 1) h.conversation

/-- It ends as the calls have it that were treated, and is cancelled otherwise. -/
theorem concluded_halts {h : Handling} (named : h.conversation.id = id) (systemPrompt : String)
    (specs : List DeclaredTool) (most left calls : Nat) :
    Halts id (concluded p systemPrompt specs most left calls h) fun result =>
      result.1.messages = h.conversation.messages ∧
      result.2 = .ok (TurnPlan.outcomeOf h.gated h.handoff (calls + 1)) ∧
      TurnPlan.Leaves result.1 h.gated (TurnPlan.outcomeOf h.gated h.handoff (calls + 1)) := by
  unfold concluded TurnPlan.outcomeOf
  cases gated : h.gated with
  | cons call rest =>
    apply (Halts.of_ends now_rests).bind
    intro now _
    exact .pure ⟨rfl, rfl, fun _ => ⟨rfl, rfl⟩, fun calls same => (by cases same)⟩
  | nil =>
    have none (never : ([] : List ToolCall) ≠ []) : False := never rfl
    cases h.handoff with
    | some label =>
      exact .pure ⟨rfl, rfl, fun never => (none never).elim, fun calls same => (by cases same)⟩
    | none =>
      apply (converse_halts named systemPrompt specs most left (calls + 1)).mono
      rintro _ rfl
      exact ⟨rfl, rfl, fun never => (none never).elim, fun _ _ => rfl⟩

/-- How a turn goes on with a completion. -/
def replied (p : TurnPlan) (systemPrompt : String) (specs : List DeclaredTool)
    (most left calls : Nat) (c : Conversation) (completion : Completion) :
    Engine (Conversation × Except Failure TurnOutcome) := do
  let s ← stamp
  let c := c.push (p.spoken completion s) s.instant
  if completion.toolCalls.isEmpty then
    return (c, .ok (.finalResponse completion.content (calls + 1)))
  let h ← handleCalls p ⟨c, [], none⟩ completion.toolCalls
  concluded p systemPrompt specs most left calls h

theorem converse_succ (systemPrompt : String) (specs : List DeclaredTool) (most left calls : Nat)
    (c : Conversation) : converse p systemPrompt specs most (left + 1) calls c =
      (do
        if ← isToBeCancelled c then
          return ({ c with cancelled := true }, .ok (.cancelled calls))
        let messages ← transcript systemPrompt c
        match ← ask (.complete p.model messages specs) with
        | .error f => return (c, .error (.model f))
        | .ok completion => replied p systemPrompt specs most left calls c completion) :=
  rfl

section Completion

variable {calls : Nat} {messages : List Message}

/-- A turn that was interrupted while the model was called skips all calls of the completion. -/
theorem replied_halts (systemPrompt : String) (specs : List DeclaredTool) (most left : Nat)
    (named : c'.id = id) (holds : p.Holds c past calls messages) (same : c'.messages = messages)
    (front : List Message) (completion : Completion) :
    Halts id (replied p systemPrompt specs most left calls c' completion)
      (p.CutShort c
        (past ++ [⟨.complete p.model (front ++ messages) specs, .ok completion⟩])) := by
  unfold replied
  apply (Halts.of_ends stamp_rests).bind
  intro s _
  have spoken : (c'.push (p.spoken completion s) s.instant).messages =
      messages ++ p.spoken completion s :: [] := by rw [← same]; rfl
  dsimp only
  split
  · next silent =>
    have nothing : List.Forall₂ p.Skips completion.toolCalls [] := by
      rw [List.isEmpty_iff.1 silent]
      exact .nil
    exact .pure (.calling holds s nothing spoken (if_pos silent).symm
      ⟨fun never => absurd rfl never, fun _ other => (by cases other)⟩)
  next some =>
  have begins : (⟨c'.push (p.spoken completion s) s.instant, [], none⟩ :
      Handling).conversation.id = id := named
  apply (handleCalls_halts begins completion.toolCalls).bind
  intro h skips
  obtain ⟨skipped, skipping, said⟩ := skips.messages
  apply (concluded_halts (skips.id.trans named) systemPrompt specs most left calls).mono
  rintro ⟨c'', outcome⟩ ⟨kept, rfl, leaves⟩
  rw [skips.gated, skips.handoff] at leaves ⊢
  refine .calling holds s skipping ?_ (if_neg some).symm leaves
  rw [kept, said, spoken, List.append_assoc]
  rfl

/-- A turn that is interrupted while it runs a call of a completion, or in a later round. -/
theorem breaks_replied (systemPrompt : String) (specs : List DeclaredTool) (most left : Nat)
    (named : c'.id = id) (live : c'.cancelled = false) (holds : p.Holds c past calls messages)
    (same : c'.messages = messages) (front : List Message) (completion : Completion)
    (next : ∀ {past c' messages}, c'.id = id → p.Holds c past (calls + 1) messages →
      c'.messages = messages →
      Breaks id past (converse p systemPrompt specs most left (calls + 1) c') (p.CutShort c)
        fun _ _ => True) :
    Breaks id (past ++ [⟨.complete p.model (front ++ messages) specs, .ok completion⟩])
      (replied p systemPrompt specs most left calls c' completion) (p.CutShort c)
      fun _ _ => True := by
  unfold replied
  apply Breaks.bind_ends fun s _ => stamp_rests s
  intro s _
  have spoken : (c'.push (p.spoken completion s) s.instant).messages =
      messages ++ p.spoken completion s :: [] := by rw [← same]; rfl
  dsimp only
  split
  · exact .pure trivial
  next some =>
  have calling : completion.toolCalls ≠ [] := by simpa using some
  have begins : Treating p id
      (past ++ [⟨.complete p.model (front ++ messages) specs, .ok completion⟩])
      (messages ++ [p.spoken completion s]) []
      (past ++ [⟨.complete p.model (front ++ messages) specs, .ok completion⟩])
      ⟨c'.push (p.spoken completion s) s.instant, [], none⟩ :=
    ⟨named, live, [], [], (List.append_nil _).symm, .nothing, by
      rw [List.append_nil]; exact spoken⟩
  apply begins.breaks_handleCalls.bind
  · rintro past' h ⟨treated, call, todo, h₁, divided, stopped, skips⟩
    obtain ⟨q, answer, ran, said, question, rfl, treats, kept⟩ := stopped.runs
    obtain ⟨skipped, skipping, more⟩ := skips.messages
    apply (concluded_halts (skips.id.trans stopped.id) systemPrompt specs most left calls).mono
    rintro ⟨c'', outcome⟩ ⟨kept', rfl, leaves⟩
    rw [skips.gated, skips.handoff] at leaves ⊢
    rw [List.append_assoc, List.singleton_append]
    refine .running holds s divided stopped.plain question treats skipping ?_ leaves
    rw [kept', more, kept, List.append_assoc, List.append_assoc]
    rfl
  · intro past' h treating
    obtain ⟨ran, said, rfl, treats, kept⟩ := treating.treats
    unfold concluded
    split
    · apply Breaks.bind_ends fun s _ => now_rests s
      intro _ _
      exact .pure trivial
    next settled =>
    have none : h.gated = [] := by simpa using settled
    split
    · exact .pure trivial
    next unrouted =>
    rw [none, unrouted] at treats
    rw [List.append_assoc, List.singleton_append]
    refine next treating.id (.treated holds calling s treats) ?_
    rw [kept, List.append_assoc]
    rfl

end Completion

/-- A turn that is interrupted while it calls the model, or while it runs a call of a completion. -/
theorem breaks_converse (systemPrompt : String) (specs : List DeclaredTool) (most left calls : Nat)
    (named : c'.id = id) {messages : List Message} (holds : p.Holds c past calls messages)
    (same : c'.messages = messages) :
    Breaks id past (converse p systemPrompt specs most left calls c') (p.CutShort c)
      fun _ _ => True := by
  induction left generalizing past calls c' messages with
  | zero =>
    unfold converse
    apply Breaks.bind_ends (isToBeCancelled_rests named)
    rintro _ rfl
    split <;> exact .pure trivial
  | succ left ih =>
    rw [converse_succ]
    apply Breaks.bind_ends (isToBeCancelled_rests named)
    rintro _ rfl
    split
    · exact .pure trivial
    next live =>
    apply Breaks.bind_ends fun s _ => transcript_rests systemPrompt c' s
    rintro _ ⟨front, rfl⟩
    rw [same]
    apply (breaks_ask _).bind
    · rintro _ answer rfl
      cases answer with
      | error f => exact .pure (.unanswered holds same f)
      | ok completion => exact replied_halts _ _ _ _ named holds same front completion
    · rintro _ answer rfl
      cases answer with
      | error f => exact .pure trivial
      | ok completion =>
        exact breaks_replied _ _ _ _ named (eq_false_of_ne_true live) holds same front completion
          fun named holds same => ih (calls + 1) named holds same

/-! ## Turns -/

theorem still_requests : Situation.Still fun s s' => s'.cancelRequests = s.cancelRequests where
  refl := fun _ => rfl
  trans := fun first second => second.trans first
  published := fun _ _ _ => rfl
  ticked := fun _ => rfl

/-- Preparing the tools of a turn asks about providers only and says nothing; it may fail for a
provider or for a tool that cannot be declared. -/
theorem yields_turnTools_found (p : TurnPlan) (c : Conversation) :
    Activity.Yields Question.IsAside (turnTools p c) fun found =>
      (found.1.id = c.id ∧ found.1.messages = c.messages) ∧
      ∀ f, found.2 = .error f → (∃ cause, f = .provider cause) ∨ ∃ cause, f = .tool cause := by
  have allows : AllowsAsides fun _ => Question.IsAside := fun _ _ aside => aside
  have finds : Activity.Yields Question.IsAside (toolsOfAll c p.providerRefs) fun found =>
      found.1.id = c.id ∧ found.1.messages = c.messages := by
    intro s
    have calm (s : Situation) : Calm False c.id s := False.elim
    have heeds := heeds_toolsOfAll allows (.opening c c.handoff) p.providerRefs s (calm s)
    refine (heeds.meets calm).mono (fun _ => id) ?_
    rintro found s' ⟨past, -, known, -⟩
    exact ⟨known.id, known.messages⟩
  apply finds.bind
  rintro ⟨c', found⟩ same
  cases found with
  | error f => exact .pure ⟨same, fun _ failed => by cases failed; exact .inl ⟨f, rfl⟩⟩
  | ok tools =>
    dsimp only
    split
    · next f _ => exact .pure ⟨same, fun _ failed => by cases failed; exact .inr ⟨f, rfl⟩⟩
    · exact .pure ⟨same, fun _ failed => by cases failed⟩

theorem breaks_turnTools (p : TurnPlan) (c : Conversation) :
    Breaks id [] (turnTools p c)
      (fun past found => (∀ e ∈ past, Question.IsAside e.1) ∧
        (found.1.id = c.id ∧ found.1.messages = c.messages) ∧
        ∀ f, found.2 = .error f → (∃ cause, f = .provider cause) ∨ ∃ cause, f = .tool cause)
      (fun past found => (∀ e ∈ past, Question.IsAside e.1) ∧
        (found.1.id = c.id ∧ found.1.messages = c.messages) ∧
        ∀ f, found.2 = .error f → (∃ cause, f = .provider cause) ∨ ∃ cause, f = .tool cause) := by
  intro s free
  refine (yields_turnTools_found p c s).breaksOff (stays_turnTools still_requests p c s s rfl)
    ?_ (fun e none => absurd none List.not_mem_nil) free
  intro s s' same
  rw [same]

theorem breaks_runTurn (p : TurnPlan) (named : c.id = id) :
    Breaks id [] (runTurn p c) (p.CutShort c) fun _ _ => True := by
  unfold runTurn
  dsimp only
  split
  · exact .pure trivial
  apply (breaks_turnTools p _).bind
  · rintro past ⟨c', found⟩ ⟨asides, same, fails⟩
    cases found with
    | error f => exact .pure (.unprepared asides same.2 (fails f rfl))
    | ok specs =>
      have looks (s : Situation) : (situation s).Ends fun _ s' =>
          s'.cancelRequests = s.cancelRequests ∧ True := ⟨rfl, trivial⟩
      apply (Halts.of_ends looks).bind
      intro s _
      apply (converse_halts (same.1.trans named) _ specs _ _ 0).mono
      rintro _ rfl
      exact .preparing asides same.2 ⟨fun never => absurd rfl never, fun _ _ => rfl⟩
  · rintro past ⟨c', found⟩ ⟨asides, same, -⟩
    cases found with
    | error f => exact .pure trivial
    | ok specs =>
      have looks (s : Situation) : (situation s).Ends fun _ s' =>
          s'.cancelRequests = s.cancelRequests ∧ True := ⟨rfl, trivial⟩
      apply Breaks.bind_ends fun s _ => looks s
      intro s _
      exact breaks_converse _ specs _ _ 0 (same.1.trans named) (.prepared asides) same.2

/-- A model that calls a tool twice, and a provider that finds something. -/
def callsTwice (q : Question) : Answer q :=
  match q with
  | .hasConnection _ => true
  | .listing _ => .ok [⟨"lookup", "", .object []⟩]
  | .complete .. =>
    .ok ⟨"", [⟨"x", "_-_-_search_-_-_lookup", .null⟩, ⟨"y", "_-_-_search_-_-_lookup", .null⟩]⟩
  | .runTool .. => .ok (.success "found")
  | _ => default

/-- Its conversation is asked to be cancelled while a tool is run. -/
def cancelledWhileRun (id : String) (q : Question) (s : Situation) (_ : Unit) :
    Answer q × Situation × Unit :=
  (callsTwice q, if q.isRun then { s with cancelRequests := [id] } else s, ())

end Engine

end DialogueEngine
