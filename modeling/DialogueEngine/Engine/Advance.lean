import DialogueEngine.Engine.Visit
import DialogueEngine.Flow.Conversion

/-!
Advancing conversations. A step runs one node of a conversation that is claimed and writes what
came of it; a failure is kept on the conversation. A run takes steps until the flow halts, pauses,
fails or completes, or its budget is used up. The other operations here start a conversation, add
to it, cancel it and turn the recording of steps on and off.
-/

namespace DialogueEngine

/-- What came of a step. -/
structure StepResult where
  conversation : Conversation
  action : Action
  /-- The node that the next step runs. -/
  next : Option String

namespace StepResult

/-- Whether a run goes on. -/
def continues (o : StepResult) : Bool :=
  o.action ≠ .error && o.action ≠ .stayOnNode && o.conversation.status = .running &&
    !o.conversation.cancelled && o.next.isSome

end StepResult

namespace Conversation

def record (c : Conversation) (node : Node) (action : Action) (prepared executed before : Json)
    (now : Instant) : Conversation :=
  { c with
    trace := c.trace ++ [{
      index := c.trace.length
      node := node.id
      nodeKind := node.spec.kind.text
      nodeName := node.name
      action
      prepared
      executed
      before
      after := c.snapshot
      timestamp := now }] }

/-- A debug pause or an error is left behind when a node runs. -/
def leavePause (c : Conversation) : Conversation :=
  if c.status = .pausedDebug ∨ c.status = .error then
    { c with status := .running, lastError := none }
  else c

/-- Where an answer to a new message is to come from: the process that spoke last, or else the
start. -/
def answeringNode (c : Conversation) (g : Graph) : String :=
  let spoke := (c.messages.reverse.filter fun m => m.role = .assistant).filterMap (·.node)
  let nodes := (spoke ++ c.current.toList).filterMap g.node?
  ((nodes.find? fun n => n.spec.kind = .process).getD g.start).id

/-- A conversation that a message of the user is added to. -/
def withUserMessage (c : Conversation) (m : Message) (now : Instant) : Conversation :=
  c.push m now

/-- A conversation that goes on at its resume point if it is completed or stands nowhere. -/
def rewind (c : Conversation) (g : Graph) : Conversation :=
  { c with next := some (c.answeringNode g), lastResponse := none }

/-- Whether a new message makes a conversation go back to its resume point. -/
def needsRewind (c : Conversation) : Bool := c.status = .completed || c.next.isNone

/-- A conversation that is completed or has failed runs again. -/
def reopen (c : Conversation) : Conversation :=
  if c.status = .completed ∨ c.status = .error then
    { c with status := .running, lastError := none }
  else c

end Conversation

namespace Engine

/-! ## Flows -/

/-- Registers a flow in the place of one with its id. -/
def register (f : AuthoredFlow) : Engine (Except Failure Graph) := do
  match f.toGraph with
  | .error cause => return .error (.graph cause)
  | .ok g =>
    update fun r => { r with flows := r.flows.insert f.id g }
    return .ok g

/-! ## Steps -/

/-- Keeps a failure on the conversation, as far as it can be written. -/
def failStep (c : Conversation) (f : Failure) : Engine StepResult := do
  let info := FailureInfo.ofFailure f
  let c := { c with next := none }.fail info (← now)
  let _ ← write c
  publish (.stepFailed c.id info)
  return ⟨c, .error, none⟩

/-- Picks up a request to cancel that was parked before the step. -/
def pickUpCancel (c : Conversation) : Engine Conversation := do
  if (← takeCancel c.id) && !c.cancelled then
    let c := { c with cancelled := true }.touch (← now)
    let _ ← write c
    return c
  else return c

/-- Brings a run of a node to its end: writes the conversation and tells what came of it. -/
def completeStep (node : Node) (c : Conversation) (before : Option Json) (run : Visit) :
    Engine StepResult := do
  let next := node.next run.action
  let c := { c with next }
  let c ← match before with
    | none => pure c
    | some before =>
      let c := if c.status = .running then { c with status := .pausedDebug } else c
      pure (c.record node run.action run.prepared.toJson run.executed.toJson before (← now))
  let c := c.touch (← now)
  match ← write c with
  | .error f => failStep c f
  | .ok () =>
    publish (.stepCompleted c.id node.id run.action)
    return ⟨c, run.action, next⟩

def stepNode (node : Node) (c : Conversation) : Engine StepResult := do
  let c := c.leavePause
  let before := if c.debugMode then some c.snapshot else none
  publish (.stepStarted c.id node.id)
  let (c, result) ← visit node c
  let c := { c with current := some node.id, steps := c.steps + 1 }
  let c := if ← takeCancel c.id then { c with cancelled := true } else c
  match result with
  | .ok run => completeStep node c before run
  | .error f =>
    let c ← match before with
      | none => pure c
      | some before =>
        let info := FailureInfo.ofFailure f
        pure (c.record node .error .null (.object [("error", info.toJson)]) before (← now))
    failStep c f

/-- Takes one step with a conversation that is claimed. Nothing is run while approval is awaited,
nor once it is completed or cancelled. -/
def advance (c : Conversation) : Engine StepResult := do
  let c ← pickUpCancel c
  if c.status = .awaitingApproval then return ⟨c, .toolCall, c.next⟩
  else if c.status = .completed then return ⟨c, .default, none⟩
  else if c.cancelled then return ⟨c, .default, none⟩
  else
    match ← graph c.flow with
    | .error f => failStep c f
    | .ok g => stepNode (g.nodeAt (c.next <|> c.current)) c

/-- Takes a step with a conversation at hand. A blank id and a conversation that is claimed are
refused, and nothing is written then. -/
def stepWith (c : Conversation) : Engine StepResult := do
  let refused (f : Failure) : StepResult :=
    ⟨{ c with lastError := some (.ofFailure f) }, .error, none⟩
  if Text.isBlankText c.id then return refused .missingConversationId
  else if ← tryClaim c.id then
    let outcome ← advance c
    release c.id
    return outcome
  else return refused (.busy c.id)

/-- Takes a step with a stored conversation. -/
def step (id : String) : Engine (Except Failure StepResult) :=
  claiming id do
    match ← load id with
    | .error f => return .error f
    | .ok c => return .ok (← advance c)

/-- Takes up to `budget` further steps while the run goes on. -/
def keepGoing : Nat → StepResult → Engine StepResult
  | 0, o => return o
  | budget + 1, o => do
    if o.continues then
      let o ← advance o.conversation
      keepGoing budget o
    else return o

/-- Takes steps with a stored conversation, at least one and at most `most`. -/
def run (id : String) (most : Nat) : Engine (Except Failure StepResult) :=
  claiming id do
    match ← load id with
    | .error f => return .error f
    | .ok c =>
      let o ← advance c
      return .ok (← keepGoing (most - 1) o)

/-! ## Other operations on a conversation -/

def save (c : Conversation) : Engine (Except Failure Conversation) := do
  match ← write c with
  | .error f => return .error f
  | .ok () => return .ok c

/-- Starts a conversation on a registered flow; without an id it gets a new one. -/
def start (id : Option String) (flow : String) (message : Option String) :
    Engine (Except Failure Conversation) := do
  match ← graph flow with
  | .error f => return .error f
  | .ok _ =>
    let id ← match id with
      | some id => pure id
      | none => pure (← stamp).id
    if Text.isBlankText id then return .error .missingConversationId
    claiming id do
      match ← read id with
      | .error f => return .error f
      | .ok (some _) => return .error (.execution ("Conversation " ++ id ++ " already exists"))
      | .ok none =>
        let debug := (← situation).settings.engine.defaultDebugMode
        let c := { Conversation.fresh id flow (← now) with debugMode := debug }
        match message with
        | none => save c
        | some text =>
          let s ← stamp
          save (c.push (.user text s) s.instant)

def post (id text : String) : Engine (Except Failure Conversation) :=
  claiming id do
    match ← load id with
    | .error f => return .error f
    | .ok c =>
      if c.status = .awaitingApproval then
        return .error (.execution ("Conversation " ++ id ++ " has tool calls awaiting approval"))
      else if c.cancelled then
        return .error (.execution ("Conversation " ++ id ++ " was cancelled"))
      else
        let s ← stamp
        let c := c.push (.user text s) s.instant
        if c.needsRewind then
          match ← graph c.flow with
          | .error f => return .error f
          | .ok g => save (c.rewind g).reopen
        else save c.reopen

/-- Cancels a conversation: at once where it is free, and otherwise by a request that the operation
under way picks up. -/
def cancel (id : String) : Engine (Except Failure Unit) := do
  if ← tryClaim id then
    let result ← do
      match ← load id with
      | .error f => pure (.error f)
      | .ok c => write ({ c with cancelled := true }.touch (← now))
    release id
    return result
  else
    parkCancel id
    return .ok ()

/-- Turns the recording of steps on or off; turning it off ends a debug pause. -/
def setRecording (id : String) (enabled : Bool) : Engine (Except Failure Conversation) :=
  claiming id do
    match ← load id with
    | .error f => return .error f
    | .ok c =>
      let status := if !enabled && c.status = .pausedDebug then Status.running else c.status
      save ({ c with debugMode := enabled, status }.touch (← now))

end Engine

end DialogueEngine
