import DialogueEngine.Json.Source
import DialogueEngine.Toml.Value

/-!
TOML documents. A header opens a table, or adds a table to an array of them; the entries below it
belong to that table. No key gets a second value and no table a second header; a table that only
headers below it have made may still get its own.
-/

namespace DialogueEngine.Toml

/-- How a table came to be. -/
inductive Origin where
  /-- By its header. -/
  | header
  /-- By the header of a table inside it. -/
  | implied
  /-- By a dotted key. -/
  | dotted
  deriving DecidableEq, Repr

/-- What a key of a document stands for. -/
inductive Item where
  | value (v : Value)
  | table (origin : Origin) (entries : List (String × Item))
  /-- The tables of an array of tables, the last one first. -/
  | tables (reversed : List (List (String × Item)))

namespace Item

/-- The item of a key. -/
def find (key : String) (entries : List (String × Item)) : Option Item :=
  (entries.find? (·.1 = key)).map (·.2)

/-- Puts an item in the place of the one of a key. -/
def replace (key : String) (item : Item) (entries : List (String × Item)) :
    List (String × Item) :=
  entries.map fun e => if e.1 = key then (key, item) else e

/-- Changes the table at the end of the path of a header. -/
def underHeader (change : List (String × Item) → Option (List (String × Item))) :
    List String → List (String × Item) → Option (List (String × Item))
  | [], entries => change entries
  | key :: path, entries =>
    match find key entries with
    | none =>
      (underHeader change path []).map fun inner => entries ++ [(key, .table .implied inner)]
    | some (.table origin inner) =>
      (underHeader change path inner).map fun inner => replace key (.table origin inner) entries
    | some (.tables (last :: earlier)) =>
      (underHeader change path last).map fun last => replace key (.tables (last :: earlier)) entries
    | some _ => none

/-- Gives a dotted key its value: the tables on its way are made by dotted keys or, the last one
apart, at least not by a header of their own. -/
def define (v : Value) : List String → List (String × Item) → Option (List (String × Item))
  | [], _ => none
  | [key], entries =>
    if (find key entries).isSome then none else some (entries ++ [(key, .value v)])
  | key :: path, entries =>
    match find key entries with
    | none => (define v path []).map fun inner => entries ++ [(key, .table .dotted inner)]
    | some (.table origin inner) =>
      if origin = .dotted ∨ (origin = .implied ∧ 1 < path.length) then
        (define v path inner).map fun inner => replace key (.table origin inner) entries
      else none
    | some (.tables (last :: earlier)) =>
      if 1 < path.length then
        (define v path last).map fun last => replace key (.tables (last :: earlier)) entries
      else none
    | some _ => none

/-- Opens the table of a key. -/
def openTable (key : String) (entries : List (String × Item)) : Option (List (String × Item)) :=
  match find key entries with
  | none => some (entries ++ [(key, .table .header [])])
  | some (.table .implied inner) =>
    some (entries.filter (·.1 ≠ key) ++ [(key, .table .header inner)])
  | some _ => none

/-- Adds a table to the array of a key. -/
def addTable (key : String) (entries : List (String × Item)) : Option (List (String × Item)) :=
  match find key entries with
  | none => some (entries ++ [(key, .tables [[]])])
  | some (.tables reversed) => some (replace key (.tables ([] :: reversed)) entries)
  | some _ => none

end Item

/-- A document up to some line: its entries, and the path of the table that is open. -/
structure Draft where
  entries : List (String × Item)
  opened : List String

namespace Draft

/-- Takes a header. -/
def header (change : String → List (String × Item) → Option (List (String × Item)))
    (path : List String) (d : Draft) : Option Draft := do
  let key ← path.getLast?
  let entries ← Item.underHeader (change key) path.dropLast d.entries
  some ⟨entries, path⟩

/-- Takes an entry of the open table. -/
def entry (path : List String) (v : Value) (d : Draft) : Option Draft :=
  (Item.underHeader (Item.define v path) d.opened d.entries).map fun entries => { d with entries }

/-- Takes the first statement and gives what follows it. -/
def statement? (cs : List Char) (d : Draft) : Option (Draft × List Char) :=
  match cs with
  | '[' :: '[' :: cs => do
    let (path, cs) ← key? cs
    let cs ← mark? ']' (← mark? ']' cs)
    let cs ← finishLine cs
    some (← d.header Item.addTable path, cs)
  | '[' :: cs => do
    let (path, cs) ← key? cs
    let cs ← mark? ']' cs
    let cs ← finishLine cs
    some (← d.header Item.openTable path, cs)
  | '#' :: _ => (finishLine cs).map (d, ·)
  | _ => do
    let ((path, v), cs) ← entry? (value? levelLimit) cs
    let cs ← finishLine cs
    some (← d.entry path v, cs)

/-- Takes the statements of a text; `budget` bounds their number. -/
def statements? : Nat → Draft → List Char → Option Draft
  | 0, _, _ => none
  | budget + 1, d, cs =>
    match skipLines cs with
    | [] => some d
    | cs => do
      let (d, cs) ← d.statement? cs
      statements? budget d cs

end Draft

/-- The entries of a document. A mark of the byte order may stand in front of it. -/
def document? (cs : List Char) : Option (List (String × Item)) :=
  let cs := match cs with
    | '\ufeff' :: rest => rest
    | _ => cs
  (Draft.statements? (cs.length + 1) ⟨[], []⟩ cs).map (·.entries)

/-! ## As sources -/

/-- The key under which the text of a moment stands. -/
def momentKey : String := "$__toml_private_datetime"

mutual

/-- A value as a source. -/
def Value.source : Value → Json.Source
  | .string text => .string (.ok text)
  | .integer n => .number (.ok (.int n))
  | .float d => .number (.ok (.double d))
  | .bool b => .bool b
  | .moment m =>
    .object [(⟨.ok momentKey⟩, .string (.ok (String.ofList m.written)))] .closed
  | .array items => .array (Value.sources items) .closed
  | .table entries _ => .object (Value.members entries) .closed

def Value.sources : List Value → List Json.Source
  | [] => []
  | v :: rest => v.source :: Value.sources rest

/-- The entries of an inline table as members. -/
def Value.members : List (String × Value) → List (Json.Key × Json.Source)
  | [] => []
  | (key, v) :: rest => (⟨.ok key⟩, v.source) :: Value.members rest

end

mutual

/-- An item as a source. -/
def Item.source : Item → Json.Source
  | .value v => v.source
  | .table _ entries => .object (Item.members entries) .leftOpen
  | .tables reversed => .array (Item.tableSources reversed).reverse .closed

def Item.members : List (String × Item) → List (Json.Key × Json.Source)
  | [] => []
  | (key, item) :: rest => (⟨.ok key⟩, item.source) :: Item.members rest

def Item.tableSources : List (List (String × Item)) → List Json.Source
  | [] => []
  | entries :: rest => .object (Item.members entries) .leftOpen :: Item.tableSources rest

end

end DialogueEngine.Toml
