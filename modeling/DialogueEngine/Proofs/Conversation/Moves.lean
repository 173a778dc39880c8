import DialogueEngine.Engine.Decision
import DialogueEngine.Proofs.Transcript.Answered

/-!
What can become of a conversation. `Moves` lists everything that an operation may write in the place
of a conversation; whatever each of these moves keeps is true of all that is ever stored. Within a
step the conversation is visited by one node, and only the turn of a process adds messages.
-/

namespace DialogueEngine

/-- A call that has to be approved where approval is required: it names a tool of a provider. -/
structure ToolCall.Approvable (call : ToolCall) : Prop where
  not_route : ToolName.isRoute call.name = false
  splits : (ToolName.split call.name).isOk = true

namespace Conversation

open Transcript (Leads)

/-! ## Turns -/

/-- A conversation but for what a turn may change. -/
def frame (c : Conversation) : Conversation :=
  { c with
    messages := [], cache := ∅, cacheRevisions := ∅, handoff := none, cancelled := false
    updatedAt := default }

/-- A turn has come from `c` to `c'`, and some calls are not answered yet. -/
structure Engaged (c c' : Conversation) (left : List String) : Prop where
  frame : c'.frame = c.frame
  grown : ∃ added, c'.messages = c.messages ++ added ∧ Leads [] added left

namespace Engaged

variable {c c' c'' : Conversation} {left left' : List String}

theorem status (engaged : Engaged c c' left) : c'.status = c.status :=
  (congrArg Conversation.status engaged.frame :)

theorem pending (engaged : Engaged c c' left) : c'.pending = c.pending :=
  (congrArg Conversation.pending engaged.frame :)

theorem lastError (engaged : Engaged c c' left) : c'.lastError = c.lastError :=
  (congrArg Conversation.lastError engaged.frame :)

theorem refl (c : Conversation) : Engaged c c [] :=
  ⟨rfl, [], (List.append_nil _).symm, .refl []⟩

/-- What a turn changes apart from the messages. -/
theorem adjust (engaged : Engaged c c' left) (framed : c''.frame = c'.frame)
    (same : c''.messages = c'.messages) : Engaged c c'' left := by
  obtain ⟨added, grown, leads⟩ := engaged.grown
  exact ⟨framed.trans engaged.frame, added, same.trans grown, leads⟩

theorem extend (engaged : Engaged c c' left) {more : List Message} (framed : c''.frame = c'.frame)
    (longer : c''.messages = c'.messages ++ more) (leads : Leads left more left') :
    Engaged c c'' left' := by
  obtain ⟨added, grown, led⟩ := engaged.grown
  refine ⟨framed.trans engaged.frame, added ++ more, ?_, led.append leads⟩
  rw [longer, grown, List.append_assoc]

theorem push {m : Message} (engaged : Engaged c c' left) (leads : Leads left [m] left')
    (now : Instant) : Engaged c (c'.push m now) left' :=
  engaged.extend rfl rfl leads

theorem perm (engaged : Engaged c c' left) (same : left.Perm left') : Engaged c c' left' := by
  obtain ⟨added, grown, leads⟩ := engaged.grown
  exact ⟨engaged.frame, added, grown, leads.perm_right same⟩

end Engaged

/-! ## Steps -/

/-- Whether a step runs a node. -/
structure Ready (c : Conversation) : Prop where
  not_awaiting : c.status ≠ .awaitingApproval
  not_completed : c.status ≠ .completed
  not_cancelled : c.cancelled = false

/-- What comes of a conversation that a node is run for, and the action that this ends with. -/
inductive Passes (node : Node) (c : Conversation) : Conversation → Action → Prop
  | start {spec : StartSpec} (kind : node.spec = .start spec) (prompt : String) (now : Instant) :
      Passes node c (c.withStartPrompt prompt now) node.fallbackAction
  | turn {spec : ProcessSpec} {c' : Conversation} (kind : node.spec = .process spec)
      (engaged : Engaged c c' []) (action : Action) : Passes node c c' action
  | paused {spec : ProcessSpec} {c' : Conversation} {calls : List ToolCall}
      (kind : node.spec = .process spec) (engaged : Engaged c c' (calls.map (·.id)))
      (some : calls ≠ []) (approvable : ∀ call ∈ calls, call.Approvable)
      (route : Option String) (now : Instant) :
      Passes node c ({ c' with handoff := route }.pauseFor calls now) .toolCall
  | listing {spec : ProviderSpec} {c' : Conversation} (kind : node.spec = .toolProvider spec)
      (engaged : Engaged c c' []) (same : c'.messages = c.messages) :
      Passes node c c' node.fallbackAction
  | finish (kind : node.spec = .finish) (now : Instant) :
      Passes node c (c.finish now) .default

/-- A conversation that a node has been run for; a request to cancel it may have been found. -/
def arrive (c : Conversation) (node : Node) (cancel : Bool) : Conversation :=
  let c := { c with current := some node.id, steps := c.steps + 1 }
  if cancel then { c with cancelled := true } else c

/-- Records a step, if steps are recorded; a conversation that would go on pauses then. -/
def noteRun (c : Conversation) (node : Node) (run : Visit) (before : Option Json)
    (now : Instant) : Conversation :=
  match before with
  | none => c
  | some before =>
    let c := if c.status = .running then { c with status := .pausedDebug } else c
    c.record node run.action run.prepared.toJson run.executed.toJson before now

/-- What a step writes at its end. -/
def conclude (c : Conversation) (node : Node) (run : Visit) (before : Option Json)
    (noted now : Instant) : Conversation :=
  ({ c with next := node.next run.action }.noteRun node run before noted).touch now

/-- Records that a step has failed, if steps are recorded. -/
def noteFailure (c : Conversation) (node : Node) (before : Option Json) (f : Failure)
    (now : Instant) : Conversation :=
  match before with
  | none => c
  | some before =>
    c.record node .error .null (.object [("error", (FailureInfo.ofFailure f).toJson)]) before now

/-- Gives a step up on a failure. -/
def giveUp (c : Conversation) (f : Failure) (now : Instant) : Conversation :=
  { c with next := none }.fail (.ofFailure f) now

section Fields

variable (c : Conversation) (node : Node) (cancel : Bool) (run : Visit) (before : Option Json)
  (f : Failure) (noted now : Instant)

@[simp] theorem arrive_id : (c.arrive node cancel).id = c.id := by cases cancel <;> rfl

@[simp] theorem arrive_cancelled : (c.arrive node cancel).cancelled = (cancel || c.cancelled) := by
  cases cancel <;> rfl

@[simp] theorem arrive_messages : (c.arrive node cancel).messages = c.messages := by
  cases cancel <;> rfl

@[simp] theorem arrive_status : (c.arrive node cancel).status = c.status := by cases cancel <;> rfl

@[simp] theorem arrive_pending : (c.arrive node cancel).pending = c.pending := by
  cases cancel <;> rfl

@[simp] theorem arrive_lastError : (c.arrive node cancel).lastError = c.lastError := by
  cases cancel <;> rfl

@[simp] theorem arrive_lastResponse : (c.arrive node cancel).lastResponse = c.lastResponse := by
  cases cancel <;> rfl

@[simp] theorem conclude_id : (c.conclude node run before noted now).id = c.id := by
  cases before with
  | none => rfl
  | some before =>
    simp only [conclude, noteRun, record, touch]
    split <;> rfl

@[simp] theorem conclude_cancelled :
    (c.conclude node run before noted now).cancelled = c.cancelled := by
  cases before with
  | none => rfl
  | some before =>
    simp only [conclude, noteRun, record, touch]
    split <;> rfl

@[simp] theorem conclude_messages :
    (c.conclude node run before noted now).messages = c.messages := by
  cases before with
  | none => rfl
  | some before =>
    simp only [conclude, noteRun, record, touch]
    split <;> rfl

@[simp] theorem conclude_pending : (c.conclude node run before noted now).pending = c.pending := by
  cases before with
  | none => rfl
  | some before =>
    simp only [conclude, noteRun, record, touch]
    split <;> rfl

@[simp] theorem conclude_lastError :
    (c.conclude node run before noted now).lastError = c.lastError := by
  cases before with
  | none => rfl
  | some before =>
    simp only [conclude, noteRun, record, touch]
    split <;> rfl

@[simp] theorem conclude_lastResponse :
    (c.conclude node run before noted now).lastResponse = c.lastResponse := by
  cases before with
  | none => rfl
  | some before =>
    simp only [conclude, noteRun, record, touch]
    split <;> rfl

/-- A step that is recorded pauses where the conversation would go on. -/
theorem conclude_status : (c.conclude node run before noted now).status =
    if before.isSome ∧ c.status = .running then .pausedDebug else c.status := by
  cases before with
  | none => simp [conclude, noteRun, touch]
  | some before =>
    simp only [conclude, noteRun, record, touch]
    by_cases running : c.status = .running <;> simp [running]

@[simp] theorem noteFailure_id : (c.noteFailure node before f now).id = c.id := by
  cases before <;> rfl

@[simp] theorem noteFailure_cancelled :
    (c.noteFailure node before f now).cancelled = c.cancelled := by
  cases before <;> rfl

@[simp] theorem noteFailure_pending : (c.noteFailure node before f now).pending = c.pending := by
  cases before <;> rfl

@[simp] theorem noteFailure_messages : (c.noteFailure node before f now).messages = c.messages := by
  cases before <;> rfl

theorem leavePause_id : c.leavePause.id = c.id := by
  unfold leavePause
  split <;> rfl

theorem leavePause_messages : c.leavePause.messages = c.messages := by
  unfold leavePause
  split <;> rfl

theorem leavePause_pending : c.leavePause.pending = c.pending := by
  unfold leavePause
  split <;> rfl

end Fields

theorem Ready.leavePause_status {c : Conversation} (ready : c.Ready) :
    c.leavePause.status = .running := by
  unfold leavePause
  split
  · rfl
  · next other =>
    cases now : c.status with
    | running => rfl
    | awaitingApproval => exact absurd now ready.not_awaiting
    | pausedDebug => exact absurd (.inl now) other
    | completed => exact absurd now ready.not_completed
    | error => exact absurd (.inr now) other

/-! ## Operations -/

/-- Turns the recording of steps on or off. -/
def withRecording (c : Conversation) (enabled : Bool) (now : Instant) : Conversation :=
  let status := if !enabled && c.status = .pausedDebug then Status.running else c.status
  { c with debugMode := enabled, status }.touch now

/-- What operations may write in the place of a conversation. Where writing is `sure`, nothing is
given up because it could not be written. -/
inductive Moves (sure : Prop) (c : Conversation) : Conversation → Prop
  | cancelled (now : Instant) : Moves sure c ({ c with cancelled := true }.touch now)
  | recording (enabled : Bool) (now : Instant) : Moves sure c (c.withRecording enabled now)
  | posted (free : c.status ≠ .awaitingApproval) {m : Message} (role : m.role = .user)
      (now : Instant) (goesOn : (c.push m now).needsRewind = false) :
      Moves sure c (c.push m now).reopen
  | rewound (free : c.status ≠ .awaitingApproval) {m : Message} (role : m.role = .user)
      (now : Instant) (g : Graph) : Moves sure c ((c.push m now).rewind g).reopen
  | resolved {call : String} {taken : ToolCall} {rest : Conversation} {now : Instant}
      (found : c.takeCall call now = some (taken, rest)) {m : Message} (role : m.role = .tool)
      (answers : m.toolCallId = some taken.id) (later : Instant) : Moves sure c (rest.push m later)
  | lost (ready : c.Ready) (f : Failure) (now : Instant) : Moves sure c (c.giveUp f now)
  | stepped (ready : c.Ready) {node : Node} {run : Visit} {c' : Conversation}
      (passes : Passes node c.leavePause c' run.action) (cancel : Bool) (before : Option Json)
      (noted now : Instant) :
      Moves sure c ((c'.arrive node cancel).conclude node run before noted now)
  | failed (ready : c.Ready) {node : Node} {c' : Conversation}
      (engaged : Engaged c.leavePause c' []) (cancel : Bool) (before : Option Json)
      (f : Failure) (noted now : Instant) :
      Moves sure c (((c'.arrive node cancel).noteFailure node before f noted).giveUp f now)
  | unsaved (unsure : ¬ sure) (ready : c.Ready) {node : Node} {run : Visit} {c' : Conversation}
      (passes : Passes node c.leavePause c' run.action) (cancel : Bool) (before : Option Json)
      (f : Failure) (noted now later : Instant) :
      Moves sure c (((c'.arrive node cancel).conclude node run before noted now).giveUp f later)

/-! ## Pauses -/

/-- Calls are pending exactly while approval is awaited. -/
def Pauses (c : Conversation) : Prop := c.pending ≠ [] ↔ c.status = .awaitingApproval

/-- This is what a conversation is checked for. -/
theorem isCoherent_iff {c : Conversation} : c.isCoherent = true ↔ c.Pauses := by
  cases calls : c.pending <;> by_cases awaiting : c.status = .awaitingApproval <;>
    simp [isCoherent, Pauses, calls, awaiting]

theorem Pauses.pending_eq_nil {c : Conversation} (pauses : c.Pauses)
    (free : c.status ≠ .awaitingApproval) : c.pending = [] :=
  Decidable.byContradiction fun some => free (pauses.1 some)

theorem Pauses.of_free {c : Conversation} (none : c.pending = [])
    (free : c.status ≠ .awaitingApproval) : c.Pauses :=
  ⟨fun some => absurd none some, fun awaiting => absurd awaiting free⟩

end Conversation

end DialogueEngine
