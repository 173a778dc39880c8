import DialogueEngine.Engine.Advance

/-!
Approving and rejecting tool calls. Each resolution answers one pending call with one message; with
the last of them the conversation runs again.
-/

namespace DialogueEngine

/-- What a person decides about a tool call. -/
inductive Decision where
  | approve
  | reject (reason : Option String)
  deriving DecidableEq

namespace Engine

def pendingCalls (id : String) : Engine (Except Failure (List ToolCall)) := do
  match ← load id with
  | .error f => return .error f
  | .ok c => return .ok c.pending

/-- The one pending call whose id begins with a text. -/
def findPending (id front : String) : Engine (Except Failure ToolCall) := do
  match ← pendingCalls id with
  | .error f => return .error f
  | .ok calls =>
    match calls.filter fun call => Text.beginsWith front call.id with
    | [call] => return .ok call
    | [] => return .error (.notPending id front)
    | _ => return .error (.execution ("Tool call prefix '" ++ front ++ "' is ambiguous"))

/-- What the model is told about a rejection; a blank reason is left out. -/
def rejectionText (settings : Settings) (reason : Option String) : String :=
  let base := settings.approval.rejectionMessage
  match reason.filter fun r => !Text.isBlankText r with
  | some reason => base ++ " Reason: " ++ reason
  | none => base

/-- The result that answers a call. -/
def decide (c : Conversation) (call : ToolCall) : Decision → Engine ToolResult
  | .approve => do
    match ← invoke c.id call with
    | .completed result => return result
    | .handoff name => return .success ("Handoff acknowledged: " ++ name)
  | .reject reason => do
    return .failure (rejectionText (← situation).settings reason)

def resolve (id call : String) (decision : Decision) : Engine (Except Failure Conversation) :=
  claiming id do
    match ← load id with
    | .error f => return .error f
    | .ok c =>
      match c.takeCall call (← now) with
      | none => return .error (.notPending id call)
      | some (taken, c) =>
        let result ← decide c taken decision
        let s ← stamp
        let message := Message.answering taken.id result s
        let message := match c.next <|> c.current with
          | some node => message.saidAt node
          | none => message
        let c := c.push message s.instant
        match ← write c with
        | .error f => return .error f
        | .ok () =>
          publish (.approvalResolved c.id taken.id (decision = .approve))
          return .ok c

end Engine

end DialogueEngine
