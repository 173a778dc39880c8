import DialogueEngine.Conversation.Written

/-!
Stores of conversations. One kind keeps the conversations themselves and lists them by id; the
other keeps a row of text for each and lists the rows newest first, as their texts compare. A plan
of refusals says which of the coming reads and writes fail.
-/

namespace DialogueEngine

/-- The row of a conversation in a table. -/
structure Row where
  id : String
  flow : String
  status : String
  document : String
  updatedAt : String
  deriving DecidableEq, Inhabited

namespace Row

def ofConversation (c : Conversation) : Row :=
  ⟨c.id, c.flow, c.status.text, c.toJson.write, c.updatedAt.rowText⟩

/-- Puts a row in the place of the one with its id, or behind all others. -/
def put (row : Row) : List Row → List Row
  | [] => [row]
  | r :: rest => if r.id = row.id then row :: rest else r :: put row rest

/-- The rows from the newest to the oldest; rows of one time stay in their order. -/
def newestFirst (rows : List Row) : List Row :=
  rows.mergeSort fun a b => decide (b.updatedAt ≤ a.updatedAt)

end Row

/-- How conversations are kept. -/
inductive Backing where
  | memory (conversations : Table Conversation)
  | table (rows : List Row)

namespace Backing

def get (id : String) : Backing → Except Failure (Option Conversation)
  | .memory conversations => .ok (conversations.get? id)
  | .table rows =>
    match rows.find? fun r => r.id = id with
    | none => .ok none
    | some row =>
      match Conversation.read.ofText row.document with
      | .ok c => .ok (some c)
      | .error fault => .error (.document fault)

def put (c : Conversation) : Backing → Backing
  | .memory conversations => .memory (conversations.insert c.id c)
  | .table rows => .table (Row.put (.ofConversation c) rows)

/-- Removes the conversation with an id; whether there was one. -/
def delete (id : String) : Backing → Bool × Backing
  | .memory conversations => (conversations.has id, .memory (conversations.erase id))
  | .table rows => (rows.any fun r => r.id = id, .table (rows.filter fun r => r.id != id))

def list : Backing → List String
  | .memory conversations => conversations.keys
  | .table rows => (Row.newestFirst rows).map (·.id)

end Backing

structure Store where
  backing : Backing
  /-- Whether each of the coming reads is refused; those not listed succeed. -/
  readRefusals : List Bool
  /-- Whether each of the coming writes is refused; those not listed succeed. -/
  writeRefusals : List Bool

namespace Store

/-- An empty store of the conversations themselves. -/
def memory : Store := ⟨.memory ∅, [], []⟩

/-- An empty store of rows. -/
def table : Store := ⟨.table [], [], []⟩

instance : Inhabited Store := ⟨memory⟩

/-- Whether the next of the planned accesses is refused, and the plan behind it. -/
def takeRefusal : List Bool → Bool × List Bool
  | [] => (false, [])
  | refused :: later => (refused, later)

def get (id : String) (s : Store) : Except Failure (Option Conversation) × Store :=
  let (refused, later) := takeRefusal s.readRefusals
  let s := { s with readRefusals := later }
  if refused then (.error (.database "get refused"), s) else (s.backing.get id, s)

def put (c : Conversation) (s : Store) : Except Failure Unit × Store :=
  let (refused, later) := takeRefusal s.writeRefusals
  let s := { s with writeRefusals := later }
  if refused then (.error (.database "put refused"), s)
  else (.ok (), { s with backing := s.backing.put c })

end Store

end DialogueEngine
