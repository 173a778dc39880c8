import DialogueEngine.Toml.Number

/-!
Values of a TOML document: texts, numbers, truth values and moments, arrays over several lines, and
inline tables on one. A dotted key in an inline table makes the tables on its way, which only other
dotted keys may add to.
-/

namespace DialogueEngine.Toml

inductive Value where
  | string (text : String)
  | integer (n : Int)
  | float (d : Binary64)
  | bool (b : Bool)
  | moment (m : Moment)
  | array (items : List Value)
  /-- `dotted` tells that dotted keys made the table. -/
  | table (entries : List (String × Value)) (dotted : Bool)

namespace Value

/-- Gives a key of an inline table its value, unless it has one. -/
def define (v : Value) : List String → List (String × Value) → Option (List (String × Value))
  | [], _ => none
  | [key], entries =>
    if entries.any (·.1 = key) then none else some (entries ++ [(key, v)])
  | key :: path, entries =>
    match entries.find? (·.1 = key) with
    | none => (define v path []).map fun inner => entries ++ [(key, .table inner true)]
    | some (_, .table inner true) =>
      (define v path inner).map fun inner => entries.map fun e =>
        if e.1 = key then (key, .table inner true) else e
    | some _ => none

end Value

/-- Reads a value that holds no others. -/
def scalar? : Step Value := fun cs =>
  match cs with
  | '"' :: _ | '\'' :: _ =>
    (quoted? cs).map fun (text, rest) => (.string (String.ofList text), rest)
  | 't' :: 'r' :: 'u' :: 'e' :: rest => some (.bool true, rest)
  | 'f' :: 'a' :: 'l' :: 's' :: 'e' :: rest => some (.bool false, rest)
  | _ =>
    ((Moment.read? cs).map fun (m, rest) => (.moment m, rest)) <|>
      ((readFloat? cs).map fun (d, rest) => (.float d, rest)) <|>
      ((readInteger? cs).map fun (n, rest) => (.integer n, rest))

/-- Reads the rest of an array; `budget` bounds the number of items. -/
def arrayRest? (item : Step Value) : Nat → Step (List Value)
  | 0, _ => none
  | budget + 1, cs =>
    match skipLines cs with
    | ']' :: rest => some ([], rest)
    | cs => do
      let (v, cs) ← item cs
      match skipLines cs with
      | ',' :: rest => do
        let (more, rest) ← arrayRest? item budget rest
        some (v :: more, rest)
      | ']' :: rest => some ([v], rest)
      | _ => none

/-- Reads a key with its value; blanks may stand around both. -/
def entry? (value : Step Value) : Step (List String × Value) := fun cs => do
  let (path, cs) ← key? cs
  let cs ← mark? '=' cs
  let (v, cs) ← value (skipSpaces cs)
  some ((path, v), skipSpaces cs)

/-- Reads entries up to the end of an inline table; `budget` bounds their number. -/
def inlineEntries? (value : Step Value) : Nat → List (String × Value) → Step (List (String × Value))
  | 0, _, _ => none
  | budget + 1, entries, cs => do
    let ((path, v), cs) ← entry? value cs
    let entries ← v.define path entries
    match cs with
    | ',' :: rest => inlineEntries? value budget entries rest
    | '}' :: rest => some (entries, rest)
    | _ => none

/-- Reads the rest of an inline table. -/
def inlineRest? (value : Step Value) : Step (List (String × Value)) := fun cs =>
  match skipSpaces cs with
  | '}' :: rest => some ([], rest)
  | cs => inlineEntries? value cs.length [] cs

/-- Reads a value of at most so many levels. -/
def value? : Nat → Step Value
  | 0, cs => scalar? cs
  | levels + 1, cs =>
    match cs with
    | '[' :: rest =>
      (arrayRest? (value? levels) cs.length rest).map fun (items, rest) => (.array items, rest)
    | '{' :: rest =>
      (inlineRest? (value? levels) rest).map fun (entries, rest) => (.table entries false, rest)
    | _ => scalar? cs

end DialogueEngine.Toml
