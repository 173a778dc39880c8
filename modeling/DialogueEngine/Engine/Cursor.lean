import DialogueEngine.Engine.Advance

/-!
Looking through the records of a conversation. A cursor stands at one of them, at the latest unless
it was moved; going back never runs anything, and going forward runs one step only from the latest
record.
-/

namespace DialogueEngine.Engine

def trace (id : String) : Engine (Except Failure (List StepRecord)) := do
  match ← load id with
  | .error f => return .error f
  | .ok c => return .ok c.trace

/-- Where the cursor of a conversation stands among so many records. -/
def cursor (id : String) (size : Nat) : Engine (Option Nat) := do
  if size = 0 then return none
  return some (min (((← situation).cursors.get? id).getD (size - 1)) (size - 1))

def setCursor (id : String) (place : Nat) : Engine Unit :=
  update fun r => { r with cursors := r.cursors.insert id place }

/-- Lets the cursor of a conversation follow the latest record. -/
def dropCursor (id : String) : Engine Unit :=
  update fun r => { r with cursors := r.cursors.erase id }

def enableTrace (id : String) : Engine (Except Failure Conversation) := setRecording id true

/-- Records no further steps; what is recorded stays. -/
def resumeTrace (id : String) : Engine (Except Failure Conversation) := do
  dropCursor id
  setRecording id false

def currentRecord (id : String) : Engine (Except Failure (Option StepRecord)) := do
  match ← trace id with
  | .error f => return .error f
  | .ok records =>
    match ← cursor id records.length with
    | none => return .ok none
    | some place => return .ok records[place]?

def goBack (id : String) : Engine (Except Failure (Option StepRecord)) := do
  match ← trace id with
  | .error f => return .error f
  | .ok records =>
    match ← cursor id records.length with
    | none => return .ok none
    | some place =>
      setCursor id (place - 1)
      return .ok records[place - 1]?

/-- Runs a step from the latest record; the new record, if there is one. -/
def stepBeyond (id : String) (recorded : Nat) : Engine (Except Failure (Option StepRecord)) := do
  match ← step id with
  | .error f => return .error f
  | .ok outcome =>
    dropCursor id
    let records := outcome.conversation.trace
    return .ok (if records.length ≤ recorded then none else records.getLast?)

/-- Moves the cursor one record forward, or runs a step from the latest. -/
def goForward (id : String) : Engine (Except Failure (Option StepRecord)) := do
  match ← trace id with
  | .error f => return .error f
  | .ok records =>
    match ← cursor id records.length with
    | none => stepBeyond id records.length
    | some place =>
      if place + 1 < records.length then
        setCursor id (place + 1)
        return .ok records[place + 1]?
      else stepBeyond id records.length

end DialogueEngine.Engine
