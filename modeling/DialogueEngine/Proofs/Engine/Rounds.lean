import DialogueEngine.Proofs.Engine.Interruption
import DialogueEngine.Proofs.Engine.Pursuit

/-!
The rounds of a turn. A round is a completion that asks for tool calls, with an answer to each of
them. A turn goes from round to round until a completion ends it or the model has been called as
often as allowed; what the rounds have added to the conversation stays on it however the turn
fails.
-/

namespace DialogueEngine

/-! ## Completions and rounds -/

namespace Exchange

/-- What the model has answered. -/
def reply? : Exchange → Option (Except ModelFailure Completion)
  | ⟨.complete .., answer⟩ => some answer
  | _ => none

/-- The answers of the model, one for each time it was called. -/
def repliesIn (past : List Exchange) : List (Except ModelFailure Completion) :=
  past.filterMap reply?

/-- The completions that the model has given. -/
def completionsIn (past : List Exchange) : List Completion :=
  (repliesIn past).filterMap Except.toOption

theorem repliesIn_append (past more : List Exchange) :
    repliesIn (past ++ more) = repliesIn past ++ repliesIn more :=
  List.filterMap_append

/-- What is asked about providers is no call of the model. -/
theorem repliesIn_asides {past : List Exchange}
    (asides : ∀ e ∈ past, Engine.Question.IsAside e.1) : repliesIn past = [] := by
  refine List.filterMap_eq_nil_iff.2 ?_
  rintro ⟨q, answer⟩ member
  have aside := asides _ member
  cases q with
  | complete model messages tools => exact aside.elim
  | _ => rfl

theorem completionsIn_of_ok {past : List Exchange} {completions : List Completion}
    (replies : repliesIn past = completions.map .ok) : completionsIn past = completions := by
  rw [completionsIn, replies, List.filterMap_map]
  exact List.filterMap_some

end Exchange

open Exchange (repliesIn repliesIn_append completionsIn)

/-- A node answers a call by a message. -/
def AnsweredAt (node : String) (call : ToolCall) (m : Message) : Prop :=
  ∃ result s, m = (Message.answering call.id result s).saidAt node

/-- The messages of a round: a completion, and an answer to each of its calls in their order. -/
def IsRound (node : String) (completion : Completion) (messages : List Message) : Prop :=
  ∃ s answers,
    messages = (Message.assistant completion.content completion.toolCalls s).saidAt node ::
      answers ∧
    List.Forall₂ (AnsweredAt node) completion.toolCalls answers

/-- The tools of a turn could not be found or could not be declared. -/
def Unprepared {α : Type} (result : Except Failure α) : Prop :=
  (∃ cause, result = .error (.provider cause)) ∨ ∃ cause, result = .error (.tool cause)

theorem map_eq_error_iff {α β : Type} {result : Except Failure α} {g : α → β} {f : Failure} :
    result.map g = .error f ↔ result = .error f := by
  cases result with
  | error f' => exact ⟨fun same => by cases same; rfl, fun same => by cases same; rfl⟩
  | ok a => exact ⟨nofun, nofun⟩

theorem unprepared_map {α β : Type} (result : Except Failure α) {g : α → β} :
    Unprepared (result.map g) ↔ Unprepared result := by
  unfold Unprepared
  simp only [map_eq_error_iff]

namespace TurnPlan

variable (p : TurnPlan)

/-- Whether a call has to wait for approval. -/
def gates (call : ToolCall) : Bool :=
  !ToolName.isRoute call.name && (p.requireApproval && (ToolName.split call.name).isOk)

/-- The offered route that a call names. -/
def route? (call : ToolCall) : Option Handoff :=
  if ToolName.isRoute call.name then p.handoffs.find? fun route => route.toolName = call.name
  else none

/-- The label of the first offered route that calls name. -/
def chosen (calls : List ToolCall) : Option String :=
  (calls.findSome? p.route?).map (·.label)

/-- A route with a label is offered. -/
def OffersLabel (label : String) : Prop := ∃ route ∈ p.handoffs, route.label = label

/-- A completion after which the model is called again: it asks for tools, and none of its calls
waits for approval or names an offered route. -/
structure GoesOn (completion : Completion) : Prop where
  calls : completion.toolCalls ≠ []
  ungated : ∀ call ∈ completion.toolCalls, ¬ (p.requireApproval = true ∧ call.Approvable)
  unrouted : ∀ call ∈ completion.toolCalls, ∀ route ∈ p.handoffs, route.toolName ≠ call.name

variable {p}

theorem gates_iff (call : ToolCall) :
    p.gates call = true ↔ p.requireApproval = true ∧ call.Approvable := by
  unfold gates
  rw [Bool.and_eq_true, Bool.and_eq_true, Bool.not_eq_true']
  constructor
  · rintro ⟨plain, required, splits⟩
    exact ⟨required, plain, splits⟩
  · rintro ⟨required, plain, splits⟩
    exact ⟨plain, required, splits⟩

/-- No call waits where a turn goes on. -/
theorem GoesOn.filter_eq_nil {completion : Completion} (on : p.GoesOn completion) :
    completion.toolCalls.filter p.gates = [] :=
  List.filter_eq_nil_iff.2 fun call member waits =>
    on.ungated call member ((gates_iff call).1 waits)

theorem chosen_cons (call : ToolCall) (rest : List ToolCall) :
    p.chosen (call :: rest) = ((p.route? call).map (·.label) <|> p.chosen rest) := by
  unfold chosen
  rw [List.findSome?_cons]
  cases p.route? call <;> rfl

theorem chosen_eq_none_iff (routes : ∀ route ∈ p.handoffs, ToolName.isRoute route.toolName = true)
    (calls : List ToolCall) : p.chosen calls = none ↔
      ∀ call ∈ calls, ∀ route ∈ p.handoffs, route.toolName ≠ call.name := by
  rw [chosen, Option.map_eq_none_iff, List.findSome?_eq_none_iff]
  refine forall₂_congr fun call _ => ?_
  unfold route?
  split
  · simp [List.find?_eq_none]
  · next plain =>
    refine ⟨?_, fun _ => rfl⟩
    rintro - route member named
    exact plain (named ▸ routes route member)

/-- Whether a turn goes on is read off the calls that wait and the route that is chosen. -/
theorem goesOn_iff (routes : ∀ route ∈ p.handoffs, ToolName.isRoute route.toolName = true)
    {completion : Completion} : p.GoesOn completion ↔ completion.toolCalls ≠ [] ∧
      completion.toolCalls.filter p.gates = [] ∧ p.chosen completion.toolCalls = none := by
  rw [chosen_eq_none_iff routes, List.filter_eq_nil_iff]
  simp only [gates_iff]
  exact ⟨fun on => ⟨on.calls, on.ungated, on.unrouted⟩, fun ⟨calls, ungated, unrouted⟩ =>
    ⟨calls, ungated, unrouted⟩⟩

end TurnPlan

namespace Engine

variable {p : TurnPlan} {c c' : Conversation} {settings : Settings} {steady : Prop} {id : String}
  {most : Nat} {past : List Exchange}

/-! ## What others leave alone -/

/-- While a turn waits others leave the settings as they are and, where it is to be steady, park no
request to cancel its conversation. -/
structure LeftAlone (settings : Settings) (steady : Prop) (id : String) (s : Situation) :
    Prop where
  settings : s.settings = settings
  calm : steady → id ∉ s.cancelRequests

theorem enduring_leftAlone : Enduring (LeftAlone settings steady id) where
  refl := fun _ kept => kept
  trans := fun first second => second ∘ first
  published := fun _ _ _ kept => ⟨kept.settings, kept.calm⟩
  ticked := fun _ kept => ⟨kept.settings, kept.calm⟩

/-- The model is called only as long as it has been called less often than allowed. -/
def Capped (most : Nat) (past : List Exchange) : Question → Prop
  | .complete .. => (repliesIn past).length < most
  | _ => True

theorem capped_aside (past : List Exchange) (q : Question) (aside : Question.IsAside q) :
    Capped most past q := by
  cases q with
  | complete model messages tools => exact aside.elim
  | _ => trivial

theorem pursues_isToBeCancelled (named : c.id = id) (live : steady → c.cancelled = false) :
    Pursues (LeftAlone settings steady id) (Capped most) past (isToBeCancelled c)
      fun past' cancel => past' = past ∧ (cancel = true → ¬ steady) := by
  unfold isToBeCancelled
  split
  · next cancelled =>
    refine .pure ⟨rfl, fun _ still => ?_⟩
    rw [live still] at cancelled
    cases cancelled
  · apply pursues_situation.bind
    rintro _ s ⟨rfl, kept⟩
    refine .pure ⟨rfl, fun parked still => kept.calm still ?_⟩
    rw [← named]
    exact List.contains_iff_mem.1 parked

/-! ## The calls of a completion -/

/-- What the treatment of calls makes of a handling. Each call waits for approval or is answered,
and where the turn is steady it waits exactly if it has to, and the first route that is named is
chosen. -/
structure Treated (p : TurnPlan) (steady : Prop) (calls : List ToolCall) (h h' : Handling) :
    Prop where
  frame : h'.conversation.frame = h.conversation.frame
  cancelled : h'.conversation.cancelled = h.conversation.cancelled
  kept : h'.conversation.handoff = h.conversation.handoff
  treated : ∃ gated said, h'.gated = h.gated ++ gated ∧ (∀ call ∈ gated, p.gates call = true) ∧
    h'.conversation.messages = h.conversation.messages ++ said ∧
    (gated = [] → List.Forall₂ (AnsweredAt p.node) calls said) ∧
    (steady → gated = calls.filter p.gates)
  offered : ∀ label, h'.handoff = some label → h.handoff = some label ∨ p.OffersLabel label
  chosen : steady → h'.handoff = (h.handoff <|> p.chosen calls)

namespace Treated

variable {h h₁ h' : Handling} {call : ToolCall} {calls : List ToolCall}

theorem same_id (treated : Treated p steady calls h h') : h'.conversation.id = h.conversation.id :=
  (congrArg Conversation.id treated.frame :)

theorem refl (p : TurnPlan) (steady : Prop) (h : Handling) : Treated p steady [] h h where
  frame := rfl
  cancelled := rfl
  kept := rfl
  treated := ⟨[], [], (List.append_nil _).symm, nofun, (List.append_nil _).symm, fun _ => .nil,
    fun _ => rfl⟩
  offered := fun _ => .inl
  chosen := fun _ => by cases h.handoff <;> rfl

theorem cons (first : Treated p steady [call] h h₁) (later : Treated p steady calls h₁ h') :
    Treated p steady (call :: calls) h h' where
  frame := later.frame.trans first.frame
  cancelled := later.cancelled.trans first.cancelled
  kept := later.kept.trans first.kept
  treated := by
    obtain ⟨gated, said, waits, gates, more, answered, exact⟩ := first.treated
    obtain ⟨gated', said', waits', gates', more', answered', exact'⟩ := later.treated
    refine ⟨gated ++ gated', said ++ said', ?_, ?_, ?_, ?_, ?_⟩
    · rw [waits', waits, List.append_assoc]
    · exact fun call member => (List.mem_append.1 member).elim (gates call) (gates' call)
    · rw [more', more, List.append_assoc]
    · intro none
      obtain ⟨none, none'⟩ := List.append_eq_nil_iff.1 none
      exact List.rel_append (answered none) (answered' none')
    · intro still
      rw [exact still, exact' still, ← List.filter_append]
      rfl
  offered := fun label routed =>
    (later.offered label routed).elim (first.offered label) .inr
  chosen := by
    intro still
    rw [later.chosen still, first.chosen still, p.chosen_cons call calls, p.chosen_cons call []]
    cases h.handoff <;> cases p.route? call <;> rfl

/-- A call is answered. -/
theorem answer (result : ToolResult) (s : Stamp) {route : Option String}
    (direct : steady → p.gates call = false)
    (offered : ∀ label, route = some label → h.handoff = some label ∨ p.OffersLabel label)
    (routed : steady → route = (h.handoff <|> p.chosen [call])) :
    Treated p steady [call] h
      { h with
        conversation := h.conversation.push (p.answering call result s) s.instant
        handoff := route } where
  frame := rfl
  cancelled := rfl
  kept := rfl
  treated := ⟨[], [p.answering call result s], (List.append_nil _).symm, nofun, rfl,
    fun _ => .cons ⟨result, s, rfl⟩ .nil, fun still => by rw [List.filter_cons, direct still]; rfl⟩
  offered := offered
  chosen := routed

end Treated

theorem pursues_answerCall (call : ToolCall) (result : ToolResult) :
    Pursues (LeftAlone settings steady id) (Capped most) past (answerCall p c call result)
      fun past' c' => past' = past ∧
        ∃ s : Stamp, c' = c.push (p.answering call result s) s.instant := by
  apply (pursues_stamp enduring_leftAlone).bind
  rintro _ s rfl
  exact .pure ⟨rfl, s, rfl⟩

/-- A call that names no route is answered by what it comes to when it is run, or by what is wrong
with its name. -/
theorem pursues_invoke (conversation : String) {call : ToolCall}
    (plain : ToolName.isRoute call.name = false) :
    Pursues (LeftAlone settings steady id) (Capped most) past (invoke conversation call)
      fun past' invoked => repliesIn past' = repliesIn past ∧
        ∃ result, invoked = .completed result := by
  unfold invoke
  rw [if_neg (Bool.eq_false_iff.1 plain)]
  split
  · exact .pure ⟨rfl, _, rfl⟩
  next provider tool names =>
  apply (pursues_publish enduring_leftAlone rfl).bind
  rintro _ - rfl
  apply (pursues_ask (by trivial)).bind
  rintro _ answer rfl
  apply (pursues_publish enduring_leftAlone rfl).bind
  rintro _ - rfl
  refine .pure ⟨?_, _, rfl⟩
  rw [repliesIn_append]
  exact List.append_nil _

theorem pursues_handleCall {h : Handling} (named : h.conversation.id = id)
    (live : steady → h.conversation.cancelled = false) (call : ToolCall) :
    Pursues (LeftAlone settings steady id) (Capped most) past (handleCall p h call)
      fun past' h' => repliesIn past' = repliesIn past ∧ Treated p steady [call] h h' := by
  apply (pursues_isToBeCancelled named live).bind
  rintro _ cancel ⟨rfl, unsteady⟩
  split
  · next skipped =>
    apply (pursues_answerCall call _).bind
    rintro _ _ ⟨rfl, s, rfl⟩
    exact .pure ⟨rfl, .answer _ s (fun still => absurd still (unsteady skipped)) (fun _ => .inl)
      fun still => absurd still (unsteady skipped)⟩
  split
  · next route =>
    have direct : p.gates call = false := by rw [TurnPlan.gates, route]; rfl
    have names : p.route? call = p.handoffs.find? fun route => route.toolName = call.name :=
      if_pos route
    split
    · next known found =>
      apply (pursues_answerCall call _).bind
      rintro _ _ ⟨rfl, s, rfl⟩
      refine .pure ⟨rfl, .answer _ s (fun _ => direct) (fun label routed => ?_) fun _ => ?_⟩
      · have offers : p.OffersLabel known.label := ⟨known, List.mem_of_find?_eq_some found, rfl⟩
        cases before : h.handoff with
        | some label' => exact .inl (by rwa [before] at routed)
        | none =>
          rw [before] at routed
          exact .inr (Option.some.inj routed ▸ offers)
      · rw [TurnPlan.chosen_cons, names, found]
        rfl
    · next unknown =>
      apply (pursues_answerCall call _).bind
      rintro _ _ ⟨rfl, s, rfl⟩
      refine .pure ⟨rfl, .answer _ s (fun _ => direct) (fun _ => .inl) fun _ => ?_⟩
      rw [TurnPlan.chosen_cons, names, unknown]
      cases h.handoff <;> rfl
  next other =>
  have plain : ToolName.isRoute call.name = false := eq_false_of_ne_true other
  have unrouted : h.handoff = (h.handoff <|> p.chosen [call]) := by
    rw [TurnPlan.chosen_cons, TurnPlan.route?, if_neg other]
    cases h.handoff <;> rfl
  split
  · next gated =>
    have waits : p.gates call = true := by rw [TurnPlan.gates, plain, gated]; rfl
    apply (pursues_publish enduring_leftAlone rfl).bind
    rintro _ - rfl
    refine .pure ⟨rfl, rfl, rfl, rfl, ⟨[call], [], rfl, ?_, (List.append_nil _).symm, ?_,
      fun _ => ?_⟩, fun _ => .inl, fun _ => unrouted⟩
    · exact fun other member => List.mem_singleton.1 member ▸ waits
    · intro none
      cases none
    · rw [List.filter_cons, if_pos waits]
      rfl
  · next free =>
    have direct : p.gates call = false := by
      rw [TurnPlan.gates, plain, eq_false_of_ne_true free]
      rfl
    apply (pursues_invoke _ plain).bind
    rintro past' _ ⟨replies, result, rfl⟩
    apply (pursues_answerCall call result).bind
    rintro _ _ ⟨rfl, s, rfl⟩
    exact .pure ⟨replies, .answer result s (fun _ => direct) (fun _ => .inl) fun _ => unrouted⟩

theorem pursues_handleCalls {h : Handling} (named : h.conversation.id = id)
    (live : steady → h.conversation.cancelled = false) (calls : List ToolCall) :
    Pursues (LeftAlone settings steady id) (Capped most) past (handleCalls p h calls)
      fun past' h' => repliesIn past' = repliesIn past ∧ Treated p steady calls h h' := by
  induction calls generalizing past h with
  | nil => exact .pure ⟨rfl, .refl p steady h⟩
  | cons call rest ih =>
    apply (pursues_handleCall named live call).bind
    rintro past' h₁ ⟨replies, first⟩
    have live' (still : steady) : h₁.conversation.cancelled = false :=
      first.cancelled.trans (live still)
    apply (ih (first.same_id.trans named) live').mono
    rintro past'' h' ⟨replies', later⟩
    exact ⟨replies'.trans replies, first.cons later⟩

/-! ## Rounds -/

/-- Where a turn stands that began with `c`, between two rounds: each completion so far has made it
go on. -/
structure Continues (p : TurnPlan) (c : Conversation) (steady : Prop)
    (completions : List Completion) (past : List Exchange) (c' : Conversation) : Prop where
  frame : c'.frame = c.frame
  cancelled : c'.cancelled = c.cancelled
  unrouted : c'.handoff = none
  replies : repliesIn past = completions.map .ok
  rounds : ∃ rounds, List.Forall₂ (IsRound p.node) completions rounds ∧
    c'.messages = c.messages ++ rounds.flatten
  goesOn : steady → ∀ completion ∈ completions, p.GoesOn completion

/-- A turn that began with `c` has ended in a pause for the approval of calls of a completion; the
first route that this names is left to be taken. -/
structure PausesFor (p : TurnPlan) (c : Conversation) (completion : Completion)
    (result : Conversation × Except Failure TurnOutcome) : Prop where
  outcome : ∃ waiting calls, result.2 = .ok (.awaitingApproval waiting calls)
  conversation : ∃ (c' : Conversation) (now : Instant),
    c'.frame = c.frame ∧ c'.cancelled = c.cancelled ∧
    result.1 = { c' with handoff := p.chosen completion.toolCalls }.pauseFor
      (completion.toolCalls.filter p.gates) now

/-- A route is left to be taken only where a turn pauses for calls that have to be approved, and
only if it is offered. -/
def LeavesOffered (p : TurnPlan) (result : Conversation × Except Failure TurnOutcome) : Prop :=
  ∀ label, result.1.handoff = some label → p.requireApproval = true ∧ p.OffersLabel label ∧
    result.1.status = .awaitingApproval ∧
    ∃ waiting calls, result.2 = .ok (.awaitingApproval waiting calls)

theorem LeavesOffered.of_unrouted {result : Conversation × Except Failure TurnOutcome}
    (unrouted : result.1.handoff = none) : LeavesOffered p result := by
  intro label routed
  rw [unrouted] at routed
  cases routed

/-- How a turn ends that may call the model so often: a failure keeps the rounds, and where the turn
is steady it fails for too many calls exactly if each call has made it go on, and pauses for the
calls of a completion that have to wait. -/
structure Capping (p : TurnPlan) (c : Conversation) (steady : Prop) (most : Nat)
    (past : List Exchange) (result : Conversation × Except Failure TurnOutcome) : Prop where
  within : (repliesIn past).length ≤ most
  kept : ∀ f, result.2 = .error f → ∃ rounds,
    List.Forall₂ (IsRound p.node) (completionsIn past) rounds ∧
    result.1.messages = c.messages ++ rounds.flatten
  unprepared : Unprepared result.2 → repliesIn past = []
  exact : steady → ¬ Unprepared result.2 →
    (result.2 = .error (.tooManyIterations most) ↔ (repliesIn past).length = most ∧
      ∀ reply ∈ repliesIn past, ∃ completion, reply = .ok completion ∧ p.GoesOn completion)
  pauses : steady → ∀ completion ∈ completionsIn past,
    completion.toolCalls.filter p.gates ≠ [] → PausesFor p c completion result
  left : LeavesOffered p result

variable {completions : List Completion}

theorem Continues.same_id (continues : Continues p c steady completions past c') : c'.id = c.id :=
  (congrArg Conversation.id continues.frame :)

theorem Continues.length (continues : Continues p c steady completions past c') :
    (repliesIn past).length = completions.length := by
  rw [continues.replies, List.length_map]

theorem Continues.leaves (continues : Continues p c steady completions past c')
    (result : Except Failure TurnOutcome) : LeavesOffered p (c', result) :=
  .of_unrouted continues.unrouted

/-- As long as a turn goes on nothing has to wait. -/
theorem Continues.ungated (continues : Continues p c steady completions past c') (still : steady) :
    ∀ completion ∈ completionsIn past, completion.toolCalls.filter p.gates = [] := by
  intro completion member
  rw [Exchange.completionsIn_of_ok continues.replies] at member
  exact (continues.goesOn still completion member).filter_eq_nil

/-- A turn that has called the model once more, and ends, has not ended for too many calls. -/
theorem Continues.ends (continues : Continues p c steady completions past c')
    {q : Exchange} (reply : Except ModelFailure Completion) (asked : repliesIn [q] = [reply])
    {past' : List Exchange} (same : repliesIn past' = repliesIn (past ++ [q]))
    (room : completions.length < most) {result : Conversation × Except Failure TurnOutcome}
    (kept : ∀ f, result.2 = .error f → ∃ cause, reply = .error cause ∧ f = .model cause ∧
      result.1 = c')
    (stops : steady → ∀ completion, reply = .ok completion → ¬ p.GoesOn completion)
    (pauses : steady → ∀ completion, reply = .ok completion →
      completion.toolCalls.filter p.gates ≠ [] → PausesFor p c completion result)
    (left : LeavesOffered p result) :
    Capping p c steady most past' result := by
  have replies : repliesIn past' = completions.map .ok ++ [reply] := by
    rw [same, repliesIn_append, continues.replies, asked]
  constructor
  case within =>
    rw [replies, List.length_append, List.length_map]
    exact room
  case kept =>
    intro f failed
    obtain ⟨cause, rfl, -, rfl⟩ := kept f failed
    obtain ⟨rounds, each, messages⟩ := continues.rounds
    refine ⟨rounds, ?_, messages⟩
    have completed : completionsIn past' = completions := by
      rw [completionsIn, replies, List.filterMap_append, List.filterMap_map]
      exact (List.append_nil _).trans List.filterMap_some
    rwa [completed]
  case unprepared =>
    rintro (⟨cause, failed⟩ | ⟨cause, failed⟩) <;>
    · obtain ⟨cause', -, other, -⟩ := kept _ failed
      cases other
  case exact =>
    intro still _
    constructor
    · intro failed
      obtain ⟨cause, -, other, -⟩ := kept _ failed
      cases other
    · rintro ⟨-, all⟩
      obtain ⟨completion, rfl, on⟩ :=
        all reply (replies ▸ List.mem_append_right _ List.mem_cons_self)
      exact absurd on (stops still completion rfl)
  case pauses =>
    intro still completion member waits
    rw [completionsIn, replies, List.filterMap_append] at member
    rcases List.mem_append.1 member with old | new
    · have before : completion ∈ completionsIn past := by
        rwa [completionsIn, continues.replies]
      exact absurd (continues.ungated still completion before) waits
    · cases reply with
      | error cause => cases new
      | ok other =>
        obtain rfl : completion = other := List.mem_singleton.1 new
        exact pauses still completion rfl waits
  case left => exact left

/-- A completion whose calls are all answered makes a round. -/
theorem Continues.round (continues : Continues p c steady completions past c')
    {q : Exchange} {completion : Completion} (asked : repliesIn [q] = [.ok completion]) (s : Stamp)
    {h : Handling} (handled : Treated p steady completion.toolCalls
      ⟨c'.push (p.spoken completion s) s.instant, [], none⟩ h) (answered : h.gated = [])
    {past' : List Exchange} (same : repliesIn past' = repliesIn (past ++ [q]))
    (on : steady → p.GoesOn completion) :
    Continues p c steady (completions ++ [completion]) past' h.conversation where
  frame := handled.frame.trans continues.frame
  cancelled := handled.cancelled.trans continues.cancelled
  unrouted := handled.kept.trans continues.unrouted
  replies := by
    rw [same, repliesIn_append, continues.replies, asked, List.map_append]
    rfl
  rounds := by
    obtain ⟨rounds, each, messages⟩ := continues.rounds
    obtain ⟨gated, said, waits, -, more, answers, -⟩ := handled.treated
    have none : gated = [] := by rw [← List.nil_append gated, ← waits, answered]
    have round : IsRound p.node completion (p.spoken completion s :: said) :=
      ⟨s, said, rfl, answers none⟩
    refine ⟨rounds ++ [p.spoken completion s :: said], List.rel_append each (.cons round .nil), ?_⟩
    have spoken : h.conversation.messages = c'.messages ++ [p.spoken completion s] ++ said := more
    rw [spoken, messages, List.flatten_append, List.flatten_singleton, List.append_assoc,
      List.append_assoc]
    rfl
  goesOn := by
    intro still other member
    rcases List.mem_append.1 member with old | new
    · exact continues.goesOn still other old
    · exact List.mem_singleton.1 new ▸ on still

/-- A turn that is to be cancelled ends between two rounds. -/
theorem Continues.breaksOff (continues : Continues p c steady completions past c') (calls : Nat)
    (within : (repliesIn past).length ≤ most) (unsteady : ¬ steady) :
    Capping p c steady most past ({ c' with cancelled := true }, .ok (.cancelled calls)) where
  within := within
  kept := by rintro _ ⟨⟩
  unprepared := by rintro (⟨_, ⟨⟩⟩ | ⟨_, ⟨⟩⟩)
  exact := fun still => absurd still unsteady
  pauses := fun still => absurd still unsteady
  left := continues.leaves _

/-- A turn that may not call the model again has gone on with each call that it made. -/
theorem Continues.runsOut (continues : Continues p c steady completions past c')
    (all : completions.length = most) :
    Capping p c steady most past (c', .error (.tooManyIterations most)) where
  within := (continues.length.trans all).le
  kept := by
    rintro _ -
    rw [Exchange.completionsIn_of_ok continues.replies]
    exact continues.rounds
  unprepared := by rintro (⟨_, ⟨⟩⟩ | ⟨_, ⟨⟩⟩)
  exact := by
    refine fun still _ => ⟨fun _ => ⟨continues.length.trans all, ?_⟩, fun _ => rfl⟩
    intro reply member
    rw [continues.replies] at member
    obtain ⟨completion, inside, rfl⟩ := List.mem_map.1 member
    exact ⟨completion, rfl, continues.goesOn still completion inside⟩
  pauses := fun still completion member waits =>
    absurd (continues.ungated still completion member) waits
  left := continues.leaves _

section Rounds

variable (routes : ∀ route ∈ p.handoffs, ToolName.isRoute route.toolName = true)
include routes

/-- Which calls wait and which route is chosen tells whether a steady turn goes on. -/
theorem Treated.goesOn_iff {completion : Completion} {h h' : Handling}
    (handled : Treated p steady completion.toolCalls h h') (start : h.gated = [])
    (unrouted : h.handoff = none) (calls : completion.toolCalls ≠ []) (still : steady) :
    p.GoesOn completion ↔ h'.gated = [] ∧ h'.handoff = none := by
  obtain ⟨gated, said, waits, -, -, -, exact⟩ := handled.treated
  have chosen := handled.chosen still
  rw [unrouted] at chosen
  rw [start, List.nil_append] at waits
  rw [TurnPlan.goesOn_iff routes, waits, exact still, chosen]
  exact and_iff_right calls

/-- Once the calls of a completion are treated, a turn pauses if some of them wait, is left if they
name a route, and goes on otherwise. -/
theorem pursues_concluded {systemPrompt : String} {specs : List DeclaredTool} {left calls : Nat}
    (continues : Continues p c steady completions past c') {q : Exchange} {completion : Completion}
    (asked : repliesIn [q] = [.ok completion]) (room : completions.length < most)
    (asks : completion.toolCalls ≠ []) (s : Stamp) {h : Handling}
    (handled : Treated p steady completion.toolCalls
      ⟨c'.push (p.spoken completion s) s.instant, [], none⟩ h)
    {past' : List Exchange} (same : repliesIn past' = repliesIn (past ++ [q]))
    (goesOn : Continues p c steady (completions ++ [completion]) past' h.conversation →
      Pursues (LeftAlone settings steady c.id) (Capped most) past'
        (converse p systemPrompt specs most left (calls + 1) h.conversation)
        (Capping p c steady most)) :
    Pursues (LeftAlone settings steady c.id) (Capped most) past'
      (concluded p systemPrompt specs most left calls h) (Capping p c steady most) := by
  have decides := handled.goesOn_iff routes rfl rfl asks
  obtain ⟨gated, said, waiting, gates, -, -, exact⟩ := handled.treated
  have waiting : h.gated = gated := waiting
  unfold concluded
  split
  · next waits =>
    apply (pursues_now enduring_leftAlone).bind
    rintro _ now rfl
    refine .pure (continues.ends (.ok completion) asked same room (by rintro _ ⟨⟩) ?_ ?_ ?_)
    · rintro still _ ⟨⟩ on
      rw [((decides still).1 on).1] at waits
      cases waits
    · rintro still _ ⟨⟩ -
      have chosen : h.handoff = p.chosen completion.toolCalls := handled.chosen still
      refine ⟨⟨_, _, rfl⟩, h.conversation, now, handled.frame.trans continues.frame,
        handled.cancelled.trans continues.cancelled, ?_⟩
      rw [chosen, waiting, exact still]
    · obtain ⟨call, member⟩ := List.exists_mem_of_ne_nil h.gated (by simpa using waits)
      have required := ((TurnPlan.gates_iff call).1 (gates call (waiting ▸ member))).1
      have pauses : h.gated.isEmpty = false := by simpa using waits
      intro label routed
      rw [Conversation.pauseFor, pauses] at routed ⊢
      have offered := (handled.offered label routed).resolve_left (by rintro ⟨⟩)
      exact ⟨required, offered, rfl, _, _, rfl⟩
  next free =>
  have none : h.gated = [] := by simpa using free
  split
  · next label routed =>
    refine .pure (continues.ends (.ok completion) asked same room (by rintro _ ⟨⟩) ?_ ?_
      (.of_unrouted (handled.kept.trans continues.unrouted)))
    · rintro still _ ⟨⟩ on
      rw [((decides still).1 on).2] at routed
      cases routed
    · rintro still _ ⟨⟩ waits
      rw [← exact still, ← waiting, none] at waits
      exact absurd rfl waits
  · next unrouted =>
    exact goesOn (continues.round asked s handled none same fun still =>
      (decides still).2 ⟨none, unrouted⟩)

/-- A completion that asks for no tools ends a turn, and otherwise its calls are treated. -/
theorem pursues_replied {systemPrompt : String} {specs : List DeclaredTool} {left calls : Nat}
    (live : steady → c'.cancelled = false)
    (continues : Continues p c steady completions past c') {q : Exchange} {completion : Completion}
    (asked : repliesIn [q] = [.ok completion]) (room : completions.length < most)
    (goesOn : ∀ past' c'', Continues p c steady (completions ++ [completion]) past' c'' →
      Pursues (LeftAlone settings steady c.id) (Capped most) past'
        (converse p systemPrompt specs most left (calls + 1) c'') (Capping p c steady most)) :
    Pursues (LeftAlone settings steady c.id) (Capped most) (past ++ [q])
      (replied p systemPrompt specs most left calls c' completion) (Capping p c steady most) := by
  unfold replied
  apply (pursues_stamp enduring_leftAlone).bind
  rintro past' s rfl
  dsimp only
  split
  · next silent =>
    have none := List.isEmpty_iff.1 silent
    refine .pure (continues.ends (.ok completion) asked rfl room (by rintro _ ⟨⟩) ?_ ?_
      (continues.leaves _))
    · rintro - _ ⟨⟩ on
      exact on.calls none
    · rintro - _ ⟨⟩ waits
      rw [none] at waits
      exact absurd rfl waits
  next asks =>
  have named : (c'.push (p.spoken completion s) s.instant).id = c.id := continues.same_id
  apply (pursues_handleCalls named live completion.toolCalls).bind
  rintro past' h ⟨same, handled⟩
  exact pursues_concluded routes continues asked room (by simpa using asks) s handled same
    (goesOn past' h.conversation)

/-- A turn that has called the model so often goes on from round to round, and ends by the last of
the calls that it may make. -/
theorem pursues_converse (systemPrompt : String) (specs : List DeclaredTool) (left calls : Nat)
    (live : steady → c.cancelled = false) {completions : List Completion}
    (continues : Continues p c steady completions past c') (made : completions.length = calls)
    (count : calls + left = most) :
    Pursues (LeftAlone settings steady c.id) (Capped most) past
      (converse p systemPrompt specs most left calls c') (Capping p c steady most) := by
  induction left generalizing calls past c' completions with
  | zero =>
    have live' (still : steady) : c'.cancelled = false := continues.cancelled.trans (live still)
    apply (pursues_isToBeCancelled continues.same_id live').bind
    rintro past cancel ⟨rfl, unsteady⟩
    have all : completions.length = most := made.trans count
    split
    · next cancelled =>
      exact .pure (continues.breaksOff calls (continues.length.trans all).le (unsteady cancelled))
    · exact .pure (continues.runsOut all)
  | succ left ih =>
    have live' (still : steady) : c'.cancelled = false := continues.cancelled.trans (live still)
    have room : completions.length < most := by omega
    have called : (repliesIn past).length < most := by rwa [continues.length]
    rw [converse_succ]
    apply (pursues_isToBeCancelled continues.same_id live').bind
    rintro past cancel ⟨rfl, unsteady⟩
    split
    · next cancelled => exact .pure (continues.breaksOff calls called.le (unsteady cancelled))
    have prompts : Pursues (LeftAlone settings steady c.id) (Capped most) past
        (transcript systemPrompt c') fun past' _ => past' = past := by
      unfold transcript
      split
      · exact .pure rfl
      · apply (pursues_stamp enduring_leftAlone).bind
        rintro _ s rfl
        exact .pure rfl
    apply prompts.bind
    rintro past messages rfl
    apply (pursues_ask (by exact called)).bind
    rintro past' answer rfl
    cases answer with
    | error cause =>
      refine .pure (continues.ends (.error cause) rfl rfl room ?_ nofun nofun
        (continues.leaves _))
      rintro _ ⟨⟩
      exact ⟨cause, rfl, rfl, rfl⟩
    | ok completion =>
      refine pursues_replied routes live' continues rfl room fun past' c'' next => ?_
      exact ih (calls + 1) next (by rw [List.length_append, made]; rfl) (by omega)

end Rounds

/-! ## Turns -/

/-- A conversation but for the listings that it keeps. -/
def unlisted (c : Conversation) : Conversation :=
  { c with cache := ∅, cacheRevisions := ∅, updatedAt := default }

/-- Finding tools changes nothing but the listings that are kept. -/
theorem yields_toolsOf_unlisted (c : Conversation) (r : ProviderRef) :
    Activity.Yields (fun _ => True) (toolsOf c r) fun found => unlisted found.1 = unlisted c := by
  apply (Activity.Yields.always _).bind
  intro revision _
  split
  · exact .pure rfl
  · apply (Activity.Yields.always _).bind
    intro listed _
    split
    · exact .pure rfl
    · exact .pure rfl
    · exact (Activity.Yields.always _).bind fun now _ => .pure rfl

theorem yields_toolsOfAll_unlisted (c : Conversation) (refs : List ProviderRef) :
    Activity.Yields (fun _ => True) (toolsOfAll c refs) fun found =>
      unlisted found.1 = unlisted c := by
  induction refs generalizing c with
  | nil => exact .pure rfl
  | cons r rest ih =>
    apply (yields_toolsOf_unlisted c r).bind
    intro found same
    split
    · exact .pure same
    · next c' tools =>
      apply (ih c').bind
      intro others later
      split <;> exact .pure (later.trans same)

theorem yields_turnTools_unlisted (p : TurnPlan) (c : Conversation) :
    Activity.Yields (fun _ => True) (turnTools p c) fun found =>
      unlisted found.1 = unlisted c := by
  apply (yields_toolsOfAll_unlisted c p.providerRefs).bind
  intro found same
  split
  · exact .pure same
  · dsimp only
    split <;> exact .pure same

/-- Preparing the tools of a turn is no call of the model; it may fail for a provider or for a tool
that cannot be declared. -/
theorem pursues_turnTools (p : TurnPlan) (c : Conversation) :
    Pursues (LeftAlone settings steady id) (Capped most) [] (turnTools p c) fun past found =>
      (∀ e ∈ past, Question.IsAside e.1) ∧ unlisted found.1 = unlisted c ∧
      ∀ f, found.2 = .error f → (∃ cause, f = .provider cause) ∨ ∃ cause, f = .tool cause := by
  have found := (yields_turnTools_found p c).and (yields_turnTools_unlisted p c)
  apply (pursues_of_yields (stays_turnTools enduring_leftAlone p c) found capped_aside).mono
  rintro past found ⟨⟨_, rfl, asides⟩, ⟨-, fails⟩, same⟩
  exact ⟨asides, same, fails⟩

/-- A turn prepares its tools before the first round; a route that is left to be taken, and is still
offered, ends it at once. -/
theorem pursues_runTurn (routes : ∀ route ∈ p.handoffs, ToolName.isRoute route.toolName = true)
    (live : steady → c.cancelled = false)
    (fresh : steady → ∀ label, c.handoff = some label → ∀ route ∈ p.handoffs,
      route.label ≠ label) :
    Pursues (LeftAlone settings steady c.id) (Capped settings.engine.maxToolIterations) []
      (runTurn p c) (Capping p c steady settings.engine.maxToolIterations) := by
  unfold runTurn
  dsimp only
  split
  · next label carried =>
    refine .pure ⟨Nat.zero_le _, nofun, fun _ => rfl, fun still => ?_, nofun, nofun⟩
    obtain ⟨left, offered⟩ := Option.filter_eq_some_iff.1 carried
    obtain ⟨route, member, named⟩ := List.any_eq_true.1 offered
    exact absurd (of_decide_eq_true named) (fresh still label left route member)
  apply (pursues_turnTools p { c with handoff := none }).bind
  rintro past ⟨c', tools⟩ ⟨asides, same, fails⟩
  have silent : repliesIn past = [] := Exchange.repliesIn_asides asides
  have start : Continues p c steady [] past c' :=
    ⟨(congrArg Conversation.frame same :), (congrArg Conversation.cancelled same :),
      (congrArg Conversation.handoff same :), silent,
      ⟨[], .nil, (congrArg Conversation.messages same :).trans (List.append_nil _).symm⟩,
      fun _ completion none => absurd none List.not_mem_nil⟩
  cases tools with
  | error f =>
    have unprepared : Unprepared (.error f : Except Failure TurnOutcome) :=
      (fails f rfl).imp (fun ⟨cause, same⟩ => ⟨cause, by rw [same]⟩)
        fun ⟨cause, same⟩ => ⟨cause, by rw [same]⟩
    refine .pure ⟨by rw [silent]; exact Nat.zero_le _, ?_, fun _ => silent, ?_, ?_, start.leaves _⟩
    · rintro _ -
      rw [Exchange.completionsIn_of_ok start.replies]
      exact start.rounds
    · exact fun _ prepared => absurd unprepared prepared
    · exact fun still completion member waits =>
        absurd (start.ungated still completion member) waits
  | ok specs =>
    apply pursues_situation.bind
    rintro past s ⟨rfl, kept⟩
    rw [kept.settings]
    exact pursues_converse routes _ specs _ 0 live start rfl (Nat.zero_add _)

theorem plan_node {node : Node} {spec : ProcessSpec}
    (planned : TurnPlan.of settings node spec c = .ok p) : p.node = node.id := by
  unfold TurnPlan.of at planned
  split at planned
  · cases planned
  · cases planned
    rfl

/-- The turn of a process that is planned, with its outcome as a visit of the node. -/
theorem runProcess_planned {node : Node} {spec : ProcessSpec} {s : Situation} (steady : Prop)
    (planned : TurnPlan.of s.settings node spec c = .ok p)
    (routes : ∀ route ∈ p.handoffs, ToolName.isRoute route.toolName = true)
    (live : steady → c.cancelled = false) (free : steady → c.id ∉ s.cancelRequests)
    (fresh : steady → ∀ label, c.handoff = some label → ∀ route ∈ p.handoffs,
      route.label ≠ label) :
    (runProcess node spec c s).Follows (LeftAlone s.settings steady c.id)
      (Capped s.settings.engine.maxToolIterations)
      (fun past result _ => ∃ ended,
        Capping p c steady s.settings.engine.maxToolIterations past (result.1, ended) ∧
        result.2 = ended.map fun outcome => ⟨outcome.action, .process p, .process outcome⟩) [] := by
  have looks : situation s = .done s s := rfl
  unfold runProcess
  rw [Activity.bind_of_done looks, planned]
  apply (pursues_runTurn routes live fresh s ⟨rfl, free⟩).andThen
  rintro past ⟨c', ended⟩ s' ⟨-, capping⟩
  cases ended with
  | error f => exact ⟨.error f, capping, rfl⟩
  | ok outcome => exact ⟨.ok outcome, capping, rfl⟩

/-- A situation in which a turn calls the model so often at most. -/
def cappedAt (most : Nat) : Situation :=
  .fresh { Settings.standard with engine := ⟨most, false⟩ } .memory default

end Engine

end DialogueEngine
