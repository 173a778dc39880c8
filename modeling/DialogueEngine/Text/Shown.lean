import DialogueEngine.Text.Unseen

/-!
Texts as they stand in a message about a value: in quotes, with escapes for what would not show.
-/

namespace DialogueEngine.Text

/-- A character inside a shown text. Quotes and backslashes are marked, the usual controls have
their short names, and whatever else leaves no mark is spelt by its code point. -/
def shownChar (c : Char) : List Char :=
  if c = '"' then ['\\', '"']
  else if c = '\\' then ['\\', '\\']
  else if c = '\n' then ['\\', 'n']
  else if c = '\r' then ['\\', 'r']
  else if c = '\t' then ['\\', 't']
  else if c = '\x00' then ['\\', '0']
  else if isUnseen c then ['\\', 'u', '\x7b'] ++ Nat.toDigits 16 c.toNat ++ ['\x7d']
  else [c]

/-- A text as a message shows it. -/
def shown (s : String) : String := String.ofList ('"' :: (s.toList.flatMap shownChar ++ ['"']))

end DialogueEngine.Text
