import DialogueEngine.Json.Document
import DialogueEngine.Json.Writer
import DialogueEngine.Text.Shown

/-!
Readers turn sources into typed values. A record is written as an object or as an array of its
fields in their order; of all that is wrong with it the fault met first is reported, where a member
given twice is met at its second place and a missing one behind the last. A text may nest 127
levels deep; a value at hand has no such limit.
-/

namespace DialogueEngine.Json

-- Powers are those of the core library, whatever else is imported.
attribute [local instance (high)] instPowNat

/-- Where a source comes from. -/
inductive Medium where
  | value
  /-- A text, with the levels of nesting that are left. -/
  | text (levels : Nat)
  /-- A document of settings, which has been read as a whole. -/
  | settings
  deriving DecidableEq, Repr

/-- The levels that a text may nest. -/
def textLevels : Nat := 127

def Medium.enter : Medium → Except Fault Medium
  | .value => .ok .value
  | .text 0 => .error .malformed
  | .text (n + 1) => .ok (.text n)
  | .settings => .ok .settings

/-- A reader of values of type `α`. -/
abbrev Reader (α : Type) := Medium → Source → Except Fault α

def Reader.ofJson {α : Type} (read : Reader α) (v : Json) : Except Fault α :=
  read .value (.ofJson v)

/-- Reads a text, which holds nothing but the value. -/
def Reader.ofText {α : Type} (read : Reader α) (text : String) : Except Fault α :=
  let document := Document.ofChars text.toList
  match read (.text textLevels) document.root with
  | .ok a => if document.complete then .ok a else .error .malformed
  | .error f => .error f

/-- A number as a message shows it. -/
def Number.shown : Number → String
  | .int n => "integer `" ++ String.ofList (intChars n) ++ "`"
  | .double d => "floating point `" ++ String.ofList (DialogueEngine.Number.shortText d) ++ "`"

/-- The fault of a source that is not what is due. A number or text is read before it is refused. -/
def Source.refuse (s : Source) (due : String) : Fault :=
  let wrong (shown : String) := Fault.mismatch ("invalid type: " ++ shown ++ ", expected " ++ due)
  match s with
  | .null => wrong "null"
  | .bool true => wrong "boolean `true`"
  | .bool false => wrong "boolean `false`"
  | .number (.ok n) => wrong n.shown
  | .number (.error f) => f
  | .string (.ok s) => wrong ("string " ++ Text.shown s)
  | .string (.error f) => f
  | .array _ _ => wrong "sequence"
  | .object _ _ => wrong "map"
  | .broken f _ _ => f

namespace Reader

def text : Reader String := fun _ s =>
  match s with
  | .string s => s
  | _ => .error (s.refuse "a string")

def bool : Reader Bool := fun _ s =>
  match s with
  | .bool b => .ok b
  | _ => .error (s.refuse "a boolean")

/-- Reads a count, which takes at most 64 bits. -/
def count : Reader Nat := fun _ s =>
  match s with
  | .number (.ok (.int n)) =>
    if 0 ≤ n ∧ n < 2 ^ (64 : Nat) then .ok n.toNat
    else .error (.mismatch ("invalid value: " ++ (Number.int n).shown ++ ", expected a count"))
  | _ => .error (s.refuse "a count")

def nullable {α : Type} (read : Reader α) : Reader (Option α) := fun m s =>
  match s with
  | .null => .ok none
  | _ => (read m s).map some

/-- The fault of an ending, if it has one. -/
def ended (ending : Ending) : Except Fault Unit :=
  match ending.fault? with
  | none => .ok ()
  | some f => .error f

def readItems {α : Type} (read : Source → Except Fault α) : List Source → Except Fault (List α)
  | [] => .ok []
  | s :: rest =>
    match read s with
    | .error f => .error f
    | .ok a => (readItems read rest).map (a :: ·)

def list {α : Type} (read : Reader α) : Reader (List α) := fun m s =>
  match s with
  | .array items ending => do
    let inside ← m.enter
    let values ← readItems (read inside) items
    ended ending
    return values
  | _ => .error (s.refuse "a sequence")

def readMembers {α : Type} (read : Source → Except Fault α) :
    List (Key × Source) → Except Fault (List (String × α))
  | [] => .ok []
  | (key, s) :: rest =>
    match key.name with
    | .error f => .error f
    | .ok k =>
      match read s with
      | .error f => .error f
      | .ok a => (readMembers read rest).map ((k, a) :: ·)

/-- Reads an object with any keys; its members stay as they are written. -/
def members {α : Type} (read : Reader α) : Reader (List (String × α)) := fun m s =>
  match s with
  | .object ms ending => do
    let inside ← m.enter
    let values ← readMembers (read inside) ms
    ended ending
    return values
  | _ => .error (s.refuse "a map")

end Reader

mutual

def readJson (m : Medium) : Source → Except Fault Json
  | .null => .ok .null
  | .bool b => .ok (.bool b)
  | .number n => n.map .number
  | .string s => s.map .string
  | .array items ending => do
    let inside ← m.enter
    let values ← readJsonItems inside items
    Reader.ended ending
    return .array values
  | .object ms ending => do
    let inside ← m.enter
    let values ← readJsonMembers inside ms
    Reader.ended ending
    return ofMembers values
  | .broken f _ _ => .error f

def readJsonItems (m : Medium) : List Source → Except Fault (List Json)
  | [] => .ok []
  | s :: rest => do
    let v ← readJson m s
    let values ← readJsonItems m rest
    return v :: values

def readJsonMembers (m : Medium) : List (Key × Source) → Except Fault (List (String × Json))
  | [] => .ok []
  | (key, s) :: rest => do
    let k ← key.name
    let v ← readJson m s
    let values ← readJsonMembers m rest
    return (k, v) :: values

end

def Reader.json : Reader Json := readJson

/-! ## Records -/

/-- A part that has been read, or the fault met in it and the place where it is met. -/
def Placed (α : Type) := Except (Nat × Fault) α

namespace Placed

/-- The parts of a record together; of two faults the one met first. -/
def both {α β : Type} (f : Placed (α → β)) (x : Placed α) : Placed β :=
  match f, x with
  | .ok f, .ok a => .ok (f a)
  | .error e, .ok _ => .error e
  | .ok _, .error e => .error e
  | .error e, .error e' => if e'.1 < e.1 then .error e' else .error e

instance : Functor Placed where
  map f x := match x with
    | .ok a => .ok (f a)
    | .error e => .error e

instance : Pure Placed := ⟨fun a => .ok a⟩

instance : Seq Placed := ⟨fun f x => both f (x ())⟩

/-- The value, or the fault without its place. -/
def result {α : Type} : Placed α → Except Fault α
  | .ok a => .ok a
  | .error e => .error e.2

end Placed

/-- A field of a record in a source. -/
structure Slot where
  /-- The name it is reported under. -/
  name : String
  /-- The other names it is accepted under. -/
  aliases : List String
  /-- Its place and value, where it is given. -/
  given : Option (Nat × Source)

/-- A record that is being read. -/
structure Record where
  /-- The medium of the fields. -/
  inside : Medium
  slots : List Slot
  /-- The place behind the last member. -/
  size : Nat
  /-- How a missing field is reported, by its name and its index. -/
  missing : String → Nat → String
  /-- What is wrong with the record itself. -/
  flaw : Placed Unit

namespace Record

/-- Whether a slot goes by a name. -/
def Slot.answers (s : Slot) (key : String) : Bool := s.name = key || s.aliases.contains key

/-- Fills the slot of a key: `none` where the key has no slot, and the name of the slot where it is
filled already. -/
def fill (key : String) (place : Nat) (value : Source) :
    List Slot → Option (Except String (List Slot))
  | [] => none
  | s :: rest =>
    if Slot.answers s key then
      match s.given with
      | some _ => some (.error s.name)
      | none => some (.ok ({ s with given := some (place, value) } :: rest))
    else
      match fill key place value rest with
      | none => none
      | some (.error name) => some (.error name)
      | some (.ok filled) => some (.ok (s :: filled))

/-- Puts the members of an object into the slots, up to the first flaw. -/
def sortOut (slots : List Slot) (place : Nat) (ending : Ending) :
    List (Key × Source) → List Slot × Placed Unit
  | [] =>
    match ending.fault? with
    | none => (slots, .ok ())
    | some f => (slots, .error (place, f))
  | (key, value) :: rest =>
    match key.name with
    | .error f => (slots, .error (place, f))
    | .ok k =>
      match fill k place value slots with
      | some (.ok filled) => sortOut filled (place + 1) ending rest
      | some (.error name) =>
        (slots, .error (place, .mismatch ("duplicate field `" ++ name ++ "`")))
      | none =>
        match value.skipFault? with
        | some f => (slots, .error (place, f))
        | none => sortOut slots (place + 1) ending rest

/-- Puts the items of an array into the slots in order; the items that are left over. -/
def lineUp (place : Nat) : List Slot → List Source → List Slot × List Source
  | [], items => ([], items)
  | slots, [] => (slots, [])
  | s :: slots, value :: items =>
    let (filled, left) := lineUp (place + 1) slots items
    ({ s with given := some (place, value) } :: filled, left)

/-- The slots of a layout, which lists for each field its name and then its other names. -/
def layout (fields : List (List String)) : List Slot :=
  fields.filterMap fun names => match names with
    | [] => none
    | name :: aliases => some ⟨name, aliases, none⟩

/-- The flaw of an array with items left over. -/
def surplus? (m : Medium) (length : Nat) : Option Fault :=
  match m with
  | .value =>
    some (.mismatch ("invalid length " ++ toString length ++ ", expected fewer elements in array"))
  | .text _ => some .malformed
  | .settings => none

/-- Takes a source for a record. -/
def start (title : String) (fields : List (List String)) (m : Medium) (s : Source) :
    Except Fault Record :=
  match s with
  | .object ms ending => do
    let inside ← m.enter
    let (slots, flaw) := sortOut (layout fields) 0 ending ms
    return {
      inside, slots, size := ms.length
      missing := fun name _ => "missing field `" ++ name ++ "`"
      flaw }
  | .array items ending => do
    let inside ← m.enter
    let (slots, left) := lineUp 0 (layout fields) items
    let flaw : Placed Unit :=
      if left.isEmpty then
        match ending.fault? with
        | none => .ok ()
        | some f => .error (items.length, f)
      else
        match surplus? m items.length with
        | none => .ok ()
        | some f => .error (fields.length, f)
    return {
      inside, slots, size := items.length
      missing := fun _ index => "invalid length " ++ toString index ++ ", expected " ++ title ++
        " with " ++ toString fields.length ++
        (if fields.length = 1 then " element" else " elements")
      flaw }
  | _ => .error (s.refuse title)

/-- The index and content of a slot. -/
def find (name : String) : List Slot → Nat → Option (Nat × Option (Nat × Source))
  | [], _ => none
  | s :: rest, index => if s.name = name then some (index, s.given) else find name rest (index + 1)

/-- Reads a field that is present; `absent` decides what a missing one, of the given index, is. -/
def field {α : Type} (r : Record) (name : String) (absent : Nat → Placed α) (read : Reader α) :
    Placed α :=
  match find name r.slots 0 with
  | some (_, some (place, value)) =>
    match read r.inside value with
    | .ok a => .ok a
    | .error f => .error (place, f)
  | some (index, none) => absent index
  | none => absent r.slots.length

def required {α : Type} (r : Record) (name : String) (read : Reader α) : Placed α :=
  r.field name (fun index => .error (r.size + 1 + index, .mismatch (r.missing name index))) read

def defaulted {α : Type} (r : Record) (name : String) (default : α) (read : Reader α) : Placed α :=
  r.field name (fun _ => .ok default) read

/-- A field that may be missing or null. -/
def optional {α : Type} (r : Record) (name : String) (read : Reader α) : Placed (Option α) :=
  r.defaulted name none (Reader.nullable read)

/-- Reads a record: `title` is what is due, `fields` lists the names of each field. -/
def read {α : Type} (title : String) (fields : List (List String)) (body : Record → Placed α) :
    Reader α := fun m s => do
  let r ← start title fields m s
  ((fun (a : α) (_ : Unit) => a) <$> body r <*> r.flaw).result

end Record

/-! ## Choices -/

namespace Reader

/-- The meaning of a name among choices, each of which has a list of names. -/
def choose {α : Type} (name : String) : List (List String × α) → Option α
  | [] => none
  | (names, a) :: rest => if names.contains name then some a else choose name rest

/-- The choice of a name, or the fault of an unknown one. -/
def named {α : Type} (choices : List (List String × α)) (name : String) : Except Fault α :=
  match choose name choices with
  | some a => .ok a
  | none => .error (.mismatch ("unknown variant `" ++ name ++ "`"))

/-- Reads what stands for nothing: null, or what is empty in a document of settings, which has no
null. -/
def nothing : Reader Unit := fun m s =>
  match m, s with
  | .settings, .array [] _ => .ok ()
  | .settings, .object [] _ => .ok ()
  | .settings, _ => .error (s.refuse "nothing")
  | _, .null => .ok ()
  | _, _ => .error (s.refuse "nothing")

/-- The fault of a choice that is no name and no object. -/
def unnamed (m : Medium) (s : Source) : Fault :=
  match m, s with
  | .value, _ | .settings, _ => s.refuse "string or map"
  | .text _, .broken _ _ f => f
  | .text _, _ => .malformed

/-- Whether an object that stands for a choice is refused at once when it has a second member. Of a
table that is left open in a document of settings only the first member counts. -/
def lonely (m : Medium) (ending : Ending) : Bool :=
  match m with
  | .value => true
  | .text _ => false
  | .settings => ending ≠ .leftOpen

/-- Reads one of several choices: its name, or an object that holds nothing under its name. -/
def choice {α : Type} (choices : List (List String × α)) : Reader α := fun m s =>
  match s with
  | .string name => name.bind (named choices)
  | .object [] ending =>
    match m with
    | .value | .settings => .error (.mismatch "invalid value: map, expected map with a single key")
    | .text 0 => .error .malformed
    | .text _ => .error (ending.fault?.getD .malformed)
  | .object ((key, value) :: more) ending =>
    if lonely m ending && !more.isEmpty then
      .error (.mismatch "invalid value: map, expected map with a single key")
    else do
      let inside ← m.enter
      let name ← key.name
      let a ← named choices name
      nothing inside value
      if more.isEmpty || m = .settings then
        ended ending
        return a
      else .error .malformed
  | _ => .error (unnamed m s)

end Reader

/-! ## Tagged records -/

/-- The tag of a record, found while all of it is read: in an object under its key, once. The rest
of the members come back without it. -/
def findTag {α : Type} (key : String) (tag : Reader α) (m : Medium) (found : Option α)
    (ending : Ending) : List (Key × Source) → Except Fault (Option α × List (Key × Source))
  | [] => do
    Reader.ended ending
    return (found, [])
  | (k, s) :: rest => do
    let name ← k.name
    if name = key then
      if found.isSome then .error (.mismatch ("duplicate field `" ++ key ++ "`"))
      else
        let a ← tag m s
        findTag key tag m (some a) ending rest
    else
      let _ ← readJson m s
      let (a, others) ← findTag key tag m found ending rest
      return (a, (k, s) :: others)

/-- Reads a record whose tag says how the rest is read: in an object the tag stands under its key,
in an array it comes first. The rest is read once all of it is at hand. -/
def tagged {α β : Type} (key title : String) (tag : Reader α) (body : α → Reader β) :
    Reader β := fun m s =>
  match s with
  | .object ms ending => do
    let inside ← m.enter
    let (found, others) ← findTag key tag inside none ending ms
    match found with
    | some a => body a .value (.object others .closed)
    | none => .error (.mismatch ("missing field `" ++ key ++ "`"))
  | .array items ending => do
    let inside ← m.enter
    match items with
    | [] =>
      Reader.ended ending
      .error (.mismatch ("missing field `" ++ key ++ "`"))
    | first :: others =>
      let a ← tag inside first
      let _ ← readJsonItems inside others
      Reader.ended ending
      body a .value (.array others .closed)
  | _ => .error (s.refuse title)

end DialogueEngine.Json
