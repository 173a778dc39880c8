import DialogueEngine.Json.Value

/-!
A value as a reader meets it. A `Source` is a value whose text may break off or be faulty inside:
the fault sits where it is met, so that a reader reports whatever is wrong first in reading order,
be it a misspelt token or a member of the wrong shape. A part that is passed over is held to the
grammar alone, so each broken place carries the fault for reading, the one for skipping, and the
one where the name of a choice is due.
-/

namespace DialogueEngine.Json

/-- What can be wrong with a document. -/
inductive Fault where
  /-- It is well formed and has the wrong shape. -/
  | mismatch (message : String)
  /-- It is not well formed, or goes past a limit of the reader. -/
  | malformed
  /-- It ends too early. -/
  | truncated
  deriving DecidableEq, Repr, Inhabited

/-- How an array or object ends. -/
inductive Ending where
  | closed
  /-- It is whole, and written so that members could still be added elsewhere. -/
  | leftOpen
  | broken (fault : Fault)
  deriving DecidableEq, Repr

/-- The fault of an ending. -/
def Ending.fault? : Ending → Option Fault
  | .closed | .leftOpen => none
  | .broken f => some f

/-- A key as it is read; a faulty one is a fault only where its object is read. -/
structure Key where
  name : Except Fault String

/-- A value as a reader meets it. -/
inductive Source where
  | null
  | bool (value : Bool)
  | number (value : Except Fault Number)
  | string (value : Except Fault String)
  | array (items : List Source) (ending : Ending)
  | object (members : List (Key × Source)) (ending : Ending)
  | broken (whenRead whenSkipped whenNamed : Fault)
  deriving Inhabited

namespace Source

mutual

/-- A value that is whole. -/
def ofJson : Json → Source
  | .null => .null
  | .bool b => .bool b
  | .number n => .number (.ok n)
  | .string s => .string (.ok s)
  | .array items => .array (ofItems items) .closed
  | .object ms => .object (ofMembers ms) .closed

def ofItems : List Json → List Source
  | [] => []
  | v :: rest => ofJson v :: ofItems rest

def ofMembers : List (String × Json) → List (Key × Source)
  | [] => []
  | (k, v) :: rest => (⟨.ok k⟩, ofJson v) :: ofMembers rest

end

mutual

/-- The fault met when a value is passed over. -/
def skipFault? : Source → Option Fault
  | .array items ending => skipItems? items <|> ending.fault?
  | .object ms ending => skipMembers? ms <|> ending.fault?
  | .broken _ f _ => some f
  | _ => none

def skipItems? : List Source → Option Fault
  | [] => none
  | v :: rest => v.skipFault? <|> skipItems? rest

def skipMembers? : List (Key × Source) → Option Fault
  | [] => none
  | (_, v) :: rest => v.skipFault? <|> skipMembers? rest

end

end Source

end DialogueEngine.Json
