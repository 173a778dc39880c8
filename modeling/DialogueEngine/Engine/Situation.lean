import DialogueEngine.Engine.Interaction
import DialogueEngine.Event
import DialogueEngine.Flow.Graph
import DialogueEngine.Settings.Basic
import DialogueEngine.Store.Basic

/-!
What the operations of the engine share, and the questions that they ask: of the completion model,
and of the client of the tool providers. A conversation that an operation works on is claimed; a
request to cancel it is parked until the operation picks it up.
-/

namespace DialogueEngine

-- Powers are those of the core library, whatever else is imported.
attribute [local instance (high)] instPowNat

/-- A question to the model or to the client of the tool providers. -/
inductive Question where
  /-- The next completion of a transcript. -/
  | complete (model : String) (messages : List Message) (tools : List DeclaredTool)
  | hasConnection (provider : String)
  | connect (provider : String) (env : Table String)
  | listing (provider : String)
  | revision (provider : String)
  | runTool (provider tool : String) (arguments : Json)

/-- What a question is answered with. -/
abbrev Answer : Question → Type
  | .complete .. => Except ModelFailure Completion
  | .hasConnection _ => Bool
  | .connect .. => Except ProviderFailure Unit
  | .listing _ => Except ProviderFailure (List ListedTool)
  | .revision _ => Nat
  | .runTool .. => Except ProviderFailure ToolResult

instance (q : Question) : Inhabited (Answer q) :=
  match q with
  | .complete .. => ⟨.error (.unknown "")⟩
  | .hasConnection _ => ⟨false⟩
  | .connect .. => ⟨.ok ()⟩
  | .listing _ => ⟨.ok []⟩
  | .revision _ => ⟨0⟩
  | .runTool .. => ⟨.error (.processing "")⟩

/-- Names and instants for what is new. -/
structure Clock where
  /-- Nanoseconds since the start of 1970 when the clock was set. -/
  origin : Nat
  /-- Tells apart the names of different clocks. -/
  seed : Nat
  /-- How often the clock was read. -/
  ticks : Nat
  deriving DecidableEq, Inhabited

namespace Clock

/-- So many hexadecimal digits of a number. -/
def hex (width n : Nat) : String :=
  String.ofList ((List.range width).reverse.map fun i => Json.hexDigit (n / 16 ^ i % 16))

/-- A name in the form of a random one. -/
def name (c : Clock) : String :=
  hex 8 c.seed ++ "-" ++ hex 4 (c.seed / 16 ^ (8 : Nat)) ++ "-4" ++
    hex 3 (c.seed / 16 ^ (12 : Nat)) ++ "-8" ++ hex 3 (c.seed / 16 ^ (15 : Nat)) ++ "-" ++
    hex 12 c.ticks

def tick (c : Clock) : Stamp × Clock :=
  let c := { c with ticks := c.ticks + 1 }
  (⟨c.name, .ofNanos (c.origin + c.ticks)⟩, c)

end Clock

/-- What the operations of the engine share. -/
structure Situation where
  settings : Settings
  flows : Table Graph
  store : Store
  /-- The conversations that an operation works on. -/
  claimed : List String
  /-- The conversations that are to be cancelled. -/
  cancelRequests : List String
  /-- The records that tracing stands at. -/
  cursors : Table Nat
  published : List Event
  clock : Clock

/-- What operations share before the first of them. -/
def Situation.fresh (settings : Settings) (store : Store) (clock : Clock) : Situation where
  settings
  flows := ∅
  store
  claimed := []
  cancelRequests := []
  cursors := ∅
  published := []
  clock

instance : Inhabited Situation := ⟨.fresh .standard .memory default⟩

/-- An operation of the engine. -/
abbrev Engine := Activity Situation Question Answer

namespace Engine

def situation : Engine Situation := Activity.get

def update (f : Situation → Situation) : Engine Unit := Activity.modify f

def ask (q : Question) : Engine (Answer q) := Activity.ask q

def publish (e : Event) : Engine Unit :=
  update fun r => { r with published := r.published ++ [e] }

/-- A name and an instant for something new. -/
def stamp : Engine Stamp := fun r =>
  let (s, clock) := r.clock.tick
  .done { r with clock } s

def now : Engine Instant := do
  let s ← stamp
  return s.instant

/-- Claims a conversation; whether it was free. -/
def tryClaim (id : String) : Engine Bool := fun r =>
  if r.claimed.contains id then .done r false
  else .done { r with claimed := id :: r.claimed } true

def release (id : String) : Engine Unit :=
  update fun r => { r with claimed := r.claimed.filter (· != id) }

def parkCancel (id : String) : Engine Unit :=
  update fun r =>
    if r.cancelRequests.contains id then r else { r with cancelRequests := id :: r.cancelRequests }

def cancelParked (id : String) : Engine Bool := do
  return (← situation).cancelRequests.contains id

/-- Takes a parked request to cancel a conversation; whether there was one. -/
def takeCancel (id : String) : Engine Bool := fun r =>
  .done { r with cancelRequests := r.cancelRequests.filter (· != id) }
    (r.cancelRequests.contains id)

/-- Whether a conversation is cancelled or is to be. -/
def isToBeCancelled (c : Conversation) : Engine Bool := do
  if c.cancelled then return true
  cancelParked c.id

def read (id : String) : Engine (Except Failure (Option Conversation)) := fun r =>
  let (found, store) := r.store.get id
  .done { r with store } found

def write (c : Conversation) : Engine (Except Failure Unit) := fun r =>
  let (written, store) := r.store.put c
  .done { r with store } written

/-- Reads a conversation that must be there. -/
def load (id : String) : Engine (Except Failure Conversation) := do
  match ← read id with
  | .error f => return .error f
  | .ok none => return .error (.conversationNotFound id)
  | .ok (some c) => return .ok c

def graph (flow : String) : Engine (Except Failure Graph) := do
  match (← situation).flows.get? flow with
  | some g => return .ok g
  | none => return .error (.flowNotFound flow)

def claiming {α : Type} (id : String) (body : Engine (Except Failure α)) :
    Engine (Except Failure α) := do
  if ← tryClaim id then
    let result ← body
    release id
    return result
  else return .error (.busy id)

end Engine

end DialogueEngine
