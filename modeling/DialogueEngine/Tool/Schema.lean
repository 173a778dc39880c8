import DialogueEngine.Tool.Basic
import DialogueEngine.Failure

/-!
Schemas that the model accepts. A schema of texts may not name any format but two; another format
is taken out and mentioned in the description. The rule goes down into properties, items and
alternatives and leaves everything else as it is.
-/

namespace DialogueEngine.Schema

/-- The formats that may stay. -/
def acceptedFormats : List String := ["enum", "date-time"]

/-- The format that a schema has to lose. -/
def lostFormat? (ms : List (String × Json)) : Option String :=
  if Json.lookup "type" ms = some (.string "string") then
    match Json.lookup "format" ms with
    | some (.string format) => if acceptedFormats.contains format then none else some format
    | _ => none
  else none

/-- The description that mentions a format. -/
def mention (format : String) : Option Json → String
  | some (.string former) =>
    if former = "" then "format: " ++ format else former ++ " (format: " ++ format ++ ")"
  | _ => "format: " ++ format

/-- Moves a format that is not accepted into the description. -/
def moveFormat (ms : List (String × Json)) : List (String × Json) :=
  match lostFormat? ms with
  | some format =>
    let rest := Json.drop "format" ms
    Json.put "description" (.string (mention format (Json.lookup "description" rest))) rest
  | none => ms

/-- How the rule goes on below a key. -/
inductive Branch where
  /-- Every value of an object is a schema. -/
  | values
  /-- The value is a schema, or an array of schemas. -/
  | oneOrMany
  /-- The value is an array of schemas. -/
  | many
  /-- The value is not a schema. -/
  | other

/-- How the rule goes on below the keys of a schema. -/
def branch (key : String) : Branch :=
  if key = "properties" then .values
  else if key = "items" then .oneOrMany
  else if key = "oneOf" ∨ key = "anyOf" ∨ key = "allOf" then .many
  else .other

mutual

/-- Applies the rule to a schema. What it moves is a text, so it makes no difference that the parts
are treated first. -/
def sanitize : Json → Json
  | .object ms => .object (moveFormat (sanitizeMembers ms))
  | v => v

def sanitizeMembers : List (String × Json) → List (String × Json)
  | [] => []
  | (k, v) :: rest => (k, sanitizeBelow (branch k) v) :: sanitizeMembers rest

def sanitizeBelow : Branch → Json → Json
  | .values, .object ms => .object (sanitizeValues ms)
  | .oneOrMany, .array items => .array (sanitizeItems items)
  | .oneOrMany, .object ms => .object (moveFormat (sanitizeMembers ms))
  | .many, .array items => .array (sanitizeItems items)
  | _, v => v

def sanitizeValues : List (String × Json) → List (String × Json)
  | [] => []
  | (k, v) :: rest => (k, sanitize v) :: sanitizeValues rest

def sanitizeItems : List Json → List Json
  | [] => []
  | v :: rest => sanitize v :: sanitizeItems rest

end

end DialogueEngine.Schema
