import DialogueEngine.Text.Blank
import DialogueEngine.Table

/-!
Templates. A placeholder is a name between two pairs of braces, with blanks allowed around it; it
is replaced by the value of the name, which is not looked at again, or stays where the name has no
value.
-/

namespace DialogueEngine.Prompt

/-- Whether a character may stand in the name of a placeholder. -/
def isNameChar (c : Char) : Bool := c.isAlphanum || c = '_' || c = '.' || c = '-'

/-- The name of the placeholder that a text begins with, and what follows the placeholder. -/
def placeholder? : List Char → Option (List Char × List Char)
  | '{' :: '{' :: cs =>
    let inside := cs.dropWhile Text.isBlank
    let name := inside.takeWhile isNameChar
    match (inside.dropWhile isNameChar).dropWhile Text.isBlank with
    | '}' :: '}' :: rest => if name.isEmpty then none else some (name, rest)
    | _ => none
  | _ => none

theorem length_of_placeholder? {cs name rest : List Char}
    (found : placeholder? cs = some (name, rest)) : rest.length < cs.length := by
  unfold placeholder? at found
  split at found
  · next cs =>
    dsimp only at found
    split at found
    · next after closed =>
      split at found
      · exact absurd found (by simp)
      · obtain ⟨-, rfl⟩ := Prod.mk.inj (Option.some.inj found)
        have shrinks (p : Char → Bool) (xs : List Char) : (xs.dropWhile p).length ≤ xs.length :=
          (List.dropWhile_sublist p).length_le
        have first := shrinks Text.isBlank ((cs.dropWhile Text.isBlank).dropWhile isNameChar)
        have second := shrinks isNameChar (cs.dropWhile Text.isBlank)
        have third := shrinks Text.isBlank cs
        rw [closed] at first
        simp only [List.length_cons] at first ⊢
        omega
    · exact absurd found (by simp)
  · exact absurd found (by simp)

/-- What a placeholder stands for: the value of its name, or its own text. -/
def substitute (vars : Table String) (cs name rest : List Char) : List Char :=
  match vars.get? (String.ofList name) with
  | some value => value.toList
  | none => cs.take (cs.length - rest.length)

/-- Replaces the placeholders of a text from left to right. -/
def renderChars (vars : Table String) (cs : List Char) : List Char :=
  match cs with
  | [] => []
  | c :: after =>
    match _found : placeholder? (c :: after) with
    | some (name, rest) =>
      substitute vars (c :: after) name rest ++ renderChars vars rest
    | none => c :: renderChars vars after
  termination_by cs.length
  decreasing_by
    · exact length_of_placeholder? _found
    · simp

def render (template : String) (vars : Table String) : String :=
  String.ofList (renderChars vars template.toList)

end DialogueEngine.Prompt
