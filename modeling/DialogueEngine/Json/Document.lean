import DialogueEngine.Json.Scanner

/-!
Written values as sources. A stack of open arrays and objects takes one token at a time; where a
token does not fit or the tokens end, the value being built is broken there and all that encloses
it is closed around it.
-/

namespace DialogueEngine.Json

/-- An array or object that is open, with what it holds so far in reverse. -/
inductive Frame where
  | array (items : List Source)
  /-- `key` is the key whose value is under way. -/
  | object (members : List (Key × Source)) (key : Key)

/-- What may come next. -/
inductive Expect where
  | value
  | firstItem
  | itemEnd
  | firstKey
  | key
  | colon
  | memberEnd

/-- Puts a value into the frames around it and closes all of them. -/
def closeAll (v : Source) : List Frame → Source
  | [] => v
  | .array items :: outer => closeAll (.array (v :: items).reverse .closed) outer
  | .object ms key :: outer => closeAll (.object ((key, v) :: ms).reverse .closed) outer

/-- A whole text: its value, and whether nothing follows it. -/
structure Document where
  root : Source
  complete : Bool

/-- The key of a frame before one has been read. -/
def noKey : Key := ⟨.ok ""⟩

/-- The document that breaks off inside `frames` with a fault behind the last item or member. -/
def breakOff (fault : Fault) : List Frame → Document
  | [] => ⟨.broken fault fault fault, true⟩
  | .array items :: outer => ⟨closeAll (.array items.reverse (.broken fault)) outer, true⟩
  | .object ms _ :: outer => ⟨closeAll (.object ms.reverse (.broken fault)) outer, true⟩

/-- The document whose next value is broken. -/
def breakValue (whenRead whenSkipped whenNamed : Fault) (frames : List Frame) : Document :=
  ⟨closeAll (.broken whenRead whenSkipped whenNamed) frames, true⟩

/-- The document whose next value is broken in one way for all. -/
def breakHere (fault : Fault) (frames : List Frame) : Document :=
  breakValue fault fault fault frames

def breakKey (whenRead whenSkipped : Fault) : List Frame → Document
  | .object ms _ :: outer =>
    breakValue whenRead whenSkipped whenRead (.object ms ⟨.error whenRead⟩ :: outer)
  | frames => breakHere whenRead frames

/-- Where building stands. -/
inductive Progress where
  | running (frames : List Frame) (expect : Expect)
  | whole (value : Source)
  | stopped (document : Document)

/-- Goes on behind a finished value. -/
def afterValue (v : Source) : List Frame → Progress
  | [] => .whole v
  | .array items :: outer => .running (.array (v :: items) :: outer) .itemEnd
  | .object ms key :: outer => .running (.object ((key, v) :: ms) noKey :: outer) .memberEnd

/-- A token where a value is due. -/
def takeValue (frames : List Frame) : Token → Progress
  | .null => afterValue .null frames
  | .bool b => afterValue (.bool b) frames
  | .number n => afterValue (.number n) frames
  | .string s => afterValue (.string s) frames
  | .openArray => .running (.array [] :: frames) .firstItem
  | .openObject => .running (.object [] noKey :: frames) .firstKey
  | .broken r s => .stopped (breakValue r s .malformed frames)
  | .brokenText r s => .stopped (breakValue r s r frames)
  | .closeArray | .closeObject | .comma | .colon => .stopped (breakHere .malformed frames)

def endArray : List Frame → Progress
  | .array items :: outer => afterValue (.array items.reverse .closed) outer
  | frames => .stopped (breakOff .malformed frames)

def endObject : List Frame → Progress
  | .object ms _ :: outer => afterValue (.object ms.reverse .closed) outer
  | frames => .stopped (breakOff .malformed frames)

/-- A token where a key is due. -/
def takeKey (frames : List Frame) (t : Token) : Progress :=
  match t, frames with
  | .string s, .object ms _ :: outer => .running (.object ms ⟨s⟩ :: outer) .colon
  | .brokenText r s, _ => .stopped (breakKey r s frames)
  | _, _ => .stopped (breakKey .malformed .malformed frames)

def takeToken (frames : List Frame) (expect : Expect) (t : Token) : Progress :=
  match expect with
  | .value => takeValue frames t
  | .firstItem => match t with
    | .closeArray => endArray frames
    | _ => takeValue frames t
  | .itemEnd => match t with
    | .comma => .running frames .value
    | .closeArray => endArray frames
    | _ => .stopped (breakOff .malformed frames)
  | .firstKey => match t with
    | .closeObject => endObject frames
    | _ => takeKey frames t
  | .key => takeKey frames t
  | .colon => match t with
    | .colon => .running frames .value
    | _ => .stopped (breakHere .malformed frames)
  | .memberEnd => match t with
    | .comma => .running frames .key
    | .closeObject => endObject frames
    | _ => .stopped (breakOff .malformed frames)

def atEnd (frames : List Frame) : Expect → Document
  | .value | .colon => breakHere .truncated frames
  | .key => breakKey .truncated .truncated frames
  | _ => breakOff .truncated frames

/-- Takes the tokens one by one. -/
def build : Progress → List Token → Document
  | .stopped document, _ => document
  | .whole v, ts => ⟨v, ts.isEmpty⟩
  | .running frames expect, [] => atEnd frames expect
  | .running frames expect, t :: ts => build (takeToken frames expect t) ts

def Document.ofChars (cs : List Char) : Document := build (.running [] .value) (tokens cs)

end DialogueEngine.Json
