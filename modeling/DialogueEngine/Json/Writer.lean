import DialogueEngine.Json.Value
import DialogueEngine.Number.Shortest

/-!
The written form of free-form values. `write` leaves out all blanks; `writeIndented` puts each item
and member on a line of its own. A text escapes quotes, backslashes and the controls below a space
and nothing else; a double has the fewest digits that read back.
-/

namespace DialogueEngine.Json

def hexDigit (n : Nat) : Char := Char.ofNat (if n < 10 then 48 + n else 87 + n)

/-- A character inside a written text. -/
def escapeChar (c : Char) : List Char :=
  if c = '"' then ['\\', '"']
  else if c = '\\' then ['\\', '\\']
  else if c.toNat < 32 then
    if c = '\x08' then ['\\', 'b']
    else if c = '\x0c' then ['\\', 'f']
    else if c = '\n' then ['\\', 'n']
    else if c = '\r' then ['\\', 'r']
    else if c = '\t' then ['\\', 't']
    else ['\\', 'u', '0', '0', hexDigit (c.toNat / 16), hexDigit (c.toNat % 16)]
  else [c]

/-- A text in quotes. -/
def quoted (s : String) : List Char := '"' :: (s.toList.flatMap escapeChar ++ ['"'])

def intChars (n : Int) : List Char :=
  if n < 0 then '-' :: Number.digitChars n.natAbs else Number.digitChars n.natAbs

def Number.chars : Number → List Char
  | .int n => intChars n
  | .double d => DialogueEngine.Number.shortText d

mutual

/-- The characters of a value, without blanks. -/
def chars : Json → List Char
  | .null => ['n', 'u', 'l', 'l']
  | .bool true => ['t', 'r', 'u', 'e']
  | .bool false => ['f', 'a', 'l', 's', 'e']
  | .number n => n.chars
  | .string s => quoted s
  | .array [] => ['[', ']']
  | .array (v :: rest) => '[' :: (v.chars ++ (charsItems rest ++ [']']))
  | .object [] => ['{', '}']
  | .object ((k, v) :: rest) =>
    '{' :: (quoted k ++ ':' :: (v.chars ++ (charsMembers rest ++ ['}'])))

/-- The items after the first, each behind a comma. -/
def charsItems : List Json → List Char
  | [] => []
  | v :: rest => ',' :: (v.chars ++ charsItems rest)

def charsMembers : List (String × Json) → List Char
  | [] => []
  | (k, v) :: rest => ',' :: (quoted k ++ ':' :: (v.chars ++ charsMembers rest))

end

def write (v : Json) : String := String.ofList v.chars

/-- A line break and the indentation of a level. -/
def lineBreak (level : Nat) : List Char := '\n' :: List.replicate (2 * level) ' '

mutual

/-- The characters of a value with one item or member a line. -/
def indented (level : Nat) : Json → List Char
  | .array (v :: rest) =>
    '[' :: (lineBreak (level + 1) ++ v.indented (level + 1) ++
      indentedItems (level + 1) rest ++ lineBreak level ++ [']'])
  | .object ((k, v) :: rest) =>
    '{' :: (lineBreak (level + 1) ++ quoted k ++ ':' :: ' ' :: v.indented (level + 1) ++
      indentedMembers (level + 1) rest ++ lineBreak level ++ ['}'])
  | .null => ['n', 'u', 'l', 'l']
  | .bool b => chars (.bool b)
  | .number n => n.chars
  | .string s => quoted s
  | .array [] => ['[', ']']
  | .object [] => ['{', '}']

/-- The items after the first. -/
def indentedItems (level : Nat) : List Json → List Char
  | [] => []
  | v :: rest => ',' :: (lineBreak level ++ v.indented level ++ indentedItems level rest)

def indentedMembers (level : Nat) : List (String × Json) → List Char
  | [] => []
  | (k, v) :: rest =>
    ',' :: (lineBreak level ++ quoted k ++ ':' :: ' ' :: v.indented level ++
      indentedMembers level rest)

end

def writeIndented (v : Json) : String := String.ofList (v.indented 0)

end DialogueEngine.Json
