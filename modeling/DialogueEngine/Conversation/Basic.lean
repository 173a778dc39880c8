import DialogueEngine.Message
import DialogueEngine.Tool.Basic
import DialogueEngine.Action
import DialogueEngine.Failure
import DialogueEngine.Flow.NodeSpec

/-!
Conversations. A conversation holds everything that is needed to go on with it: its messages, where
it stands in its flow, the calls that wait for approval, the tools listed so far and, in debug mode,
a record of every step. The operations here keep two things together: calls are pending exactly
while approval is awaited, and a failure leaves nothing pending.
-/

namespace DialogueEngine

open Json (Reader Record)

/-- Where a conversation stands. -/
inductive Status where
  | running
  | awaitingApproval
  | pausedDebug
  | completed
  | error
  deriving DecidableEq, Repr, Inhabited

namespace Status

def text : Status → String
  | .running => "running"
  | .awaitingApproval => "awaiting_tool_approval"
  | .pausedDebug => "paused_debug"
  | .completed => "completed"
  | .error => "error"

def read : Reader Status :=
  Reader.choice [(["running"], .running), (["awaiting_tool_approval"], .awaitingApproval),
    (["paused_debug"], .pausedDebug), (["completed"], .completed), (["error"], .error)]

end Status

/-- The record of one step. -/
structure StepRecord where
  index : Nat
  node : String
  nodeKind : String
  nodeName : String
  action : Action
  prepared : Json
  executed : Json
  before : Json
  after : Json
  timestamp : Instant
  deriving DecidableEq, Inhabited

structure Conversation where
  id : String
  flow : String
  messages : List Message
  /-- The node that the latest step ran. -/
  current : Option String
  /-- The node that the next step runs. -/
  next : Option String
  status : Status
  /-- The calls that wait for approval. -/
  pending : List ToolCall
  /-- The full listing of each provider. -/
  cache : Table (List OfferedTool)
  /-- The revision that each listing was taken at. -/
  cacheRevisions : Table Nat
  /-- The route chosen in a turn that paused for approval. -/
  handoff : Option String
  cancelled : Bool
  debugMode : Bool
  trace : List StepRecord
  /-- Values that templates may use. -/
  values : Table Json
  startPrompt : Option String
  lastResponse : Option String
  lastError : Option FailureInfo
  steps : Nat
  createdAt : Instant
  updatedAt : Instant
  deriving DecidableEq, Inhabited

namespace Conversation

def fresh (id flow : String) (now : Instant) : Conversation :=
  { id, flow, messages := [], current := none, next := none, status := .running, pending := []
    cache := ∅, cacheRevisions := ∅, handoff := none, cancelled := false, debugMode := false
    trace := [], values := ∅, startPrompt := none, lastResponse := none, lastError := none
    steps := 0, createdAt := now, updatedAt := now }

def touch (c : Conversation) (now : Instant) : Conversation := { c with updatedAt := now }

def push (c : Conversation) (m : Message) (now : Instant) : Conversation :=
  { c with messages := c.messages ++ [m], updatedAt := now }

def lastWithRole (c : Conversation) (role : Role) : Option Message :=
  c.messages.reverse.find? fun m => m.role = role

def latestUserText (c : Conversation) : Option String := (c.lastWithRole .user).map (·.content)

/-- Pauses for the approval of calls; without any there is nothing to wait for. -/
def pauseFor (c : Conversation) (calls : List ToolCall) (now : Instant) : Conversation :=
  if calls.isEmpty then c
  else { c with pending := calls, status := .awaitingApproval, updatedAt := now }

/-- The first call with an id, and the calls without it. -/
def extract (id : String) : List ToolCall → Option (ToolCall × List ToolCall)
  | [] => none
  | call :: rest =>
    if call.id = id then some (call, rest)
    else (extract id rest).map fun (found, others) => (found, call :: others)

/-- Takes a call off the pending ones. With the last of them the wait for approval is over. -/
def takeCall (c : Conversation) (id : String) (now : Instant) :
    Option (ToolCall × Conversation) :=
  (extract id c.pending).map fun (call, rest) =>
    let status :=
      if rest.isEmpty ∧ c.status = .awaitingApproval then Status.running else c.status
    (call, { c with pending := rest, status, updatedAt := now })

/-- The listing of a provider, if it was taken at a revision. -/
def keptListing (c : Conversation) (provider : String) (revision : Nat) :
    Option (List OfferedTool) :=
  if (c.cacheRevisions.get? provider).getD 0 = revision then c.cache.get? provider else none

def keepListing (c : Conversation) (provider : String) (tools : List OfferedTool)
    (revision : Nat) (now : Instant) : Conversation :=
  { c with
    cache := c.cache.insert provider tools
    cacheRevisions := c.cacheRevisions.insert provider revision
    updatedAt := now }

/-- Notes a failure; what was pending is given up. -/
def fail (c : Conversation) (info : FailureInfo) (now : Instant) : Conversation :=
  { c with
    status := .error, pending := [], handoff := none, lastError := some info, updatedAt := now }

/-- Whether calls are pending exactly while approval is awaited. -/
def isCoherent (c : Conversation) : Bool :=
  c.pending.isEmpty != decide (c.status = .awaitingApproval)

end Conversation

end DialogueEngine
