/-!
Cutting texts apart: a part in front taken off, a text split at every occurrence of a marker, and
pieces joined again.
-/

namespace DialogueEngine.Text

/-- What follows `front` in `cs`, when `cs` begins with it. -/
def dropFront? : List Char → List Char → Option (List Char)
  | [], cs => some cs
  | _ :: _, [] => none
  | f :: fs, c :: cs => if f = c then dropFront? fs cs else none

theorem dropFront?_eq_some_iff {front cs rest : List Char} :
    dropFront? front cs = some rest ↔ cs = front ++ rest := by
  induction front generalizing cs with
  | nil => simp [dropFront?, eq_comm]
  | cons f fs ih =>
    cases cs with
    | nil => simp [dropFront?]
    | cons c cs =>
      by_cases same : f = c
      · subst same; simp [dropFront?, ih]
      · simp [dropFront?, same, Ne.symm same]

theorem length_of_dropFront? {front cs rest : List Char} (nonempty : front ≠ [])
    (found : dropFront? front cs = some rest) : rest.length < cs.length := by
  rw [dropFront?_eq_some_iff.1 found, List.length_append]
  exact Nat.lt_add_of_pos_left (List.length_pos_iff.2 nonempty)

/-- Splits at the occurrences of a marker, found from left to right without overlap. `piece` is
what has been read of the current piece, in reverse. -/
def splitFrom (marker : List Char) (nonempty : marker ≠ []) (piece cs : List Char) :
    List (List Char) :=
  match cs with
  | [] => [piece.reverse]
  | c :: rest =>
    match _found : dropFront? marker (c :: rest) with
    | some after => piece.reverse :: splitFrom marker nonempty [] after
    | none => splitFrom marker nonempty (c :: piece) rest
  termination_by cs.length
  decreasing_by
    · exact length_of_dropFront? nonempty _found
    · simp

/-- The pieces between the occurrences of a marker, found from left to right. -/
def splitAtMarker (marker : List Char) (nonempty : marker ≠ []) (cs : List Char) :
    List (List Char) := splitFrom marker nonempty [] cs

/-- Whether `part` occurs in a text. -/
def contains (part : List Char) : List Char → Bool
  | [] => part.isEmpty
  | c :: cs => (dropFront? part (c :: cs)).isSome || contains part cs

def join (separator : String) : List String → String
  | [] => ""
  | [piece] => piece
  | piece :: more => piece ++ separator ++ join separator more

/-- Whether `s` begins with `front`. -/
def beginsWith (front s : String) : Bool := (dropFront? front.toList s.toList).isSome

end DialogueEngine.Text
