import DialogueEngine.Table

/-!
References to the environment. A text is cut into plain characters and references such as `${NAME}`;
expansion puts the value of a set variable in the place of its reference and writes any other
reference out again. A reference ends at the first closing brace. Main statement: the pieces hold
the text.
-/

namespace DialogueEngine

/-- The variables of a process. -/
abbrev Environment := Table String

namespace Environment

/-- The value of a variable. An entry counts as the text `key=value`, so that a name may reach over
the first `=` of it; no variable has the empty name. -/
def lookup (env : Environment) (name : List Char) : Option (List Char) :=
  if name.isEmpty || name.contains '\x00' then none
  else env.entries.findSome? fun e =>
    let entry := e.1.toList ++ '=' :: e.2.toList
    if (name ++ ['=']).isPrefixOf entry then some (entry.drop (name.length + 1)) else none

end Environment

/-- A piece of a text with references. -/
inductive Piece where
  | plain (c : Char)
  /-- A reference; one that is not closed reaches to the end of the text. -/
  | reference (name : List Char) (closed : Bool)
  deriving DecidableEq, Repr

namespace Piece

/-- A piece as it stands in the text. -/
def written : Piece → List Char
  | .plain c => [c]
  | .reference name closed => '$' :: '{' :: (name ++ if closed then ['}'] else [])

/-- A piece with the value of its variable; without one the reference is written out, closed. -/
def expanded (env : Environment) : Piece → List Char
  | .plain c => [c]
  | .reference name _ =>
    match env.lookup name with
    | some value => value
    | none => (Piece.reference name true).written

/-- Cuts a text into pieces. -/
def ofChars : List Char → List Piece
  | '$' :: '{' :: rest =>
    match _cut : rest.dropWhile (· ≠ '}') with
    | [] => [.reference rest false]
    | _ :: after => .reference (rest.takeWhile (· ≠ '}')) true :: ofChars after
  | c :: rest => .plain c :: ofChars rest
  | [] => []
  termination_by cs => cs.length
  decreasing_by
    · have := (List.dropWhile_sublist (l := rest) (· ≠ '}')).length_le
      rw [_cut] at this
      simp only [List.length_cons] at this ⊢
      omega
    · simp

/-- The pieces hold the text. -/
theorem flatMap_written (cs : List Char) : (ofChars cs).flatMap written = cs := by
  fun_induction ofChars cs with
  | case1 rest cut =>
    simp [written]
  | case2 rest head after cut ih =>
    have joined := List.takeWhile_append_dropWhile (p := (· ≠ '}')) (l := rest)
    have stop : head = '}' := by
      have := List.head_dropWhile_not (p := (· ≠ '}')) (l := rest) (by rw [cut]; simp)
      simp only [cut, List.head_cons] at this
      simpa using this
    rw [cut, stop] at joined
    simp only [List.flatMap_cons, ih, written]
    simpa using joined
  | case3 c rest _ ih => simp [written, ih]
  | case4 => rfl

end Piece

namespace Environment

def expand (env : Environment) (cs : List Char) : List Char :=
  (Piece.ofChars cs).flatMap (Piece.expanded env)

/-- Where a path leads: one that begins with `~/` leads to the home directory, if that is known. -/
def resolve (home : Option String) (path : String) : String :=
  match path.toList, home with
  | '~' :: '/' :: rest, some home =>
    if rest.head? = some '/' then String.ofList rest
    else if home.isEmpty || home.toList.getLast? = some '/' then home ++ String.ofList rest
    else home ++ "/" ++ String.ofList rest
  | _, _ => path

end Environment

end DialogueEngine
