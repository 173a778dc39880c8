/-!
Keys and quoted texts of a TOML document. Basic texts stand in double quotes and know escapes;
literal texts stand in single quotes and know none; three quotes of either kind enclose a text of
several lines, in which every line ends with a line feed.
-/

namespace DialogueEngine.Toml

/-- A reader of a part of a document: the part and what follows it. -/
abbrev Step (α : Type) := List Char → Option (α × List Char)

/-! ## Blanks, line ends and comments -/

/-- A blank inside a line. -/
def isSpace (c : Char) : Bool := c = ' ' || c = '\t'

/-- A character that may stand in a comment, a basic text or a literal text, the marks of these
apart. -/
def isPrintable (c : Char) : Bool := c = '\t' || (32 ≤ c.toNat && c.toNat ≠ 127)

/-- Drops the blanks in front. -/
def skipSpaces (cs : List Char) : List Char := cs.dropWhile isSpace

theorem length_skipSpaces_le (cs : List Char) : (skipSpaces cs).length ≤ cs.length :=
  (List.dropWhile_sublist _).length_le

def lineEnd? : List Char → Option (List Char)
  | '\n' :: cs => some cs
  | '\r' :: '\n' :: cs => some cs
  | _ => none

theorem length_of_lineEnd? {cs rest : List Char} (ended : lineEnd? cs = some rest) :
    rest.length < cs.length := by
  unfold lineEnd? at ended
  split at ended <;> simp at ended <;> subst ended <;> simp only [List.length_cons] <;> omega

/-- Drops a comment, if there is one. -/
def skipComment (cs : List Char) : List Char :=
  match cs with
  | '#' :: rest => rest.dropWhile isPrintable
  | _ => cs

theorem length_skipComment_le (cs : List Char) : (skipComment cs).length ≤ cs.length := by
  unfold skipComment
  split
  · exact Nat.le_trans (List.dropWhile_sublist _).length_le (Nat.le_succ _)
  · exact Nat.le_refl _

/-- The end of a statement: blanks and a comment up to the end of the line or of the document. -/
def finishLine (cs : List Char) : Option (List Char) :=
  match skipComment (skipSpaces cs) with
  | [] => some []
  | rest => lineEnd? rest

/-- Drops blanks, comments and line ends. -/
def skipLines (cs : List Char) : List Char :=
  match _ended : lineEnd? (skipComment (skipSpaces cs)) with
  | some rest => skipLines rest
  | none => skipSpaces cs
  termination_by cs.length
  decreasing_by
    have := length_skipComment_le (skipSpaces cs)
    have := length_skipSpaces_le cs
    have := length_of_lineEnd? _ended
    omega

/-! ## Quoted texts -/

def hexValue? (c : Char) : Option Nat :=
  if '0' ≤ c ∧ c ≤ '9' then some (c.toNat - 48)
  else if 'a' ≤ c ∧ c ≤ 'f' then some (c.toNat - 87)
  else if 'A' ≤ c ∧ c ≤ 'F' then some (c.toNat - 55)
  else none

/-- The character whose code the digits write. -/
def charOfHex? (digits : List Char) : Option Char := do
  let code ← digits.foldlM (fun n c => (hexValue? c).map (n * 16 + ·)) 0
  if h : code.isValidChar then some ⟨UInt32.ofNat code, by
    unfold Nat.isValidChar at h
    simp only [UInt32.isValidChar, UInt32.toNat_ofNat']
    rwa [Nat.mod_eq_of_lt (by omega)]⟩
  else none

/-- The character that an escape stands for; it follows the backslash. -/
def escape? : Step Char
  | 'b' :: cs => some ('\x08', cs)
  | 'f' :: cs => some ('\x0c', cs)
  | 'n' :: cs => some ('\n', cs)
  | 'r' :: cs => some ('\r', cs)
  | 't' :: cs => some ('\t', cs)
  | '\\' :: cs => some ('\\', cs)
  | '"' :: cs => some ('"', cs)
  | 'u' :: a :: b :: c :: d :: cs => (charOfHex? [a, b, c, d]).map (·, cs)
  | 'U' :: a :: b :: c :: d :: e :: f :: g :: h :: cs =>
    (charOfHex? [a, b, c, d, e, f, g, h]).map (·, cs)
  | _ => none

theorem length_of_escape? {cs rest : List Char} {c : Char} (found : escape? cs = some (c, rest)) :
    rest.length < cs.length := by
  unfold escape? at found
  split at found <;>
    simp only [Option.map_eq_some_iff, Option.some.injEq, Prod.mk.injEq, reduceCtorEq] at found
  -- The character is given by its code.
  case h_8 | h_9 =>
    obtain ⟨_, -, -, rfl⟩ := found
    simp only [List.length_cons]
    omega
  all_goals
    obtain ⟨-, rfl⟩ := found
    simp only [List.length_cons]
    omega

/-- The rest of a basic text of one line. -/
def basicRest (cs : List Char) : Option (List Char × List Char) :=
  match cs with
  | [] => none
  | '"' :: cs => some ([], cs)
  | '\\' :: cs =>
    match _found : escape? cs with
    | some (c, rest) => (basicRest rest).map fun (text, rest) => (c :: text, rest)
    | none => none
  | c :: cs =>
    if isPrintable c then (basicRest cs).map fun (text, rest) => (c :: text, rest) else none
  termination_by cs.length
  decreasing_by
    · have := length_of_escape? _found
      simp only [List.length_cons]; omega
    · simp

/-- The rest of a literal text of one line. -/
def literalRest : List Char → Option (List Char × List Char)
  | [] => none
  | '\'' :: cs => some ([], cs)
  | c :: cs =>
    if isPrintable c then (literalRest cs).map fun (text, rest) => (c :: text, rest) else none

/-- The quotes behind three closing ones: up to two of them belong to the text, in front. -/
def closing (quote : Char) : List Char → List Char × List Char
  | a :: b :: cs =>
    if a = quote then if b = quote then ([quote, quote], cs) else ([quote], b :: cs)
    else ([], a :: b :: cs)
  | [a] => if a = quote then ([quote], []) else ([], [a])
  | [] => ([], [])

/-- Drops blanks and line ends. -/
def skipBlankLines : List Char → List Char
  | '\r' :: '\n' :: cs => skipBlankLines cs
  | c :: cs => if isSpace c || c = '\n' then skipBlankLines cs else c :: cs
  | [] => []

theorem length_skipBlankLines_le (cs : List Char) : (skipBlankLines cs).length ≤ cs.length := by
  fun_induction skipBlankLines cs <;> simp_all <;> omega

/-- A backslash at the end of a line joins the line to the next text: what follows the blanks. -/
def joinLines? (cs : List Char) : Option (List Char) :=
  (lineEnd? (skipSpaces cs)).map skipBlankLines

theorem length_of_joinLines? {cs rest : List Char} (joined : joinLines? cs = some rest) :
    rest.length < cs.length := by
  obtain ⟨after, ended, rfl⟩ := Option.map_eq_some_iff.1 joined
  have := length_of_lineEnd? ended
  have := length_skipSpaces_le cs
  have := length_skipBlankLines_le after
  omega

/-- The rest of a basic text of several lines. -/
def basicLines (cs : List Char) : Option (List Char × List Char) :=
  match cs with
  | [] => none
  | '"' :: '"' :: '"' :: cs => some (closing '"' cs)
  | '\r' :: '\n' :: cs => (basicLines cs).map fun (text, rest) => ('\n' :: text, rest)
  | '\\' :: cs =>
    match _joined : joinLines? cs with
    | some rest => basicLines rest
    | none =>
      match _found : escape? cs with
      | some (c, rest) => (basicLines rest).map fun (text, rest) => (c :: text, rest)
      | none => none
  | c :: cs =>
    if isPrintable c || c = '\n' then (basicLines cs).map fun (text, rest) => (c :: text, rest)
    else none
  termination_by cs.length
  decreasing_by
    · simp only [List.length_cons]; omega
    · have := length_of_joinLines? _joined
      simp only [List.length_cons]; omega
    · have := length_of_escape? _found
      simp only [List.length_cons]; omega
    · simp

/-- The rest of a literal text of several lines. -/
def literalLines : List Char → Option (List Char × List Char)
  | [] => none
  | '\'' :: '\'' :: '\'' :: cs => some (closing '\'' cs)
  | '\r' :: '\n' :: cs => (literalLines cs).map fun (text, rest) => ('\n' :: text, rest)
  | c :: cs =>
    if isPrintable c || c = '\n' then (literalLines cs).map fun (text, rest) => (c :: text, rest)
    else none

/-- Drops the line end that may follow three opening quotes. -/
def skipFirstLineEnd (cs : List Char) : List Char := (lineEnd? cs).getD cs

def quoted? : Step (List Char)
  | '"' :: '"' :: '"' :: cs => basicLines (skipFirstLineEnd cs)
  | '"' :: cs => basicRest cs
  | '\'' :: '\'' :: '\'' :: cs => literalLines (skipFirstLineEnd cs)
  | '\'' :: cs => literalRest cs
  | _ => none

/-! ## Keys -/

/-- A character of a bare key. -/
def isBare (c : Char) : Bool := c.isAlphanum || c = '-' || c = '_'

/-- One part of a key. -/
def keyPart? (cs : List Char) : Option (String × List Char) :=
  match cs with
  | '"' :: rest => (basicRest rest).map fun (text, rest) => (String.ofList text, rest)
  | '\'' :: rest => (literalRest rest).map fun (text, rest) => (String.ofList text, rest)
  | _ =>
    let part := cs.takeWhile isBare
    if part.isEmpty then none else some (String.ofList part, cs.dropWhile isBare)

/-- The most parts of a key, and the most arrays and inline tables inside each other. -/
def levelLimit : Nat := 79

/-- A key of at most so many parts, which points stand between. -/
def keyParts? : Nat → Step (List String)
  | 0, _ => none
  | parts + 1, cs => do
    let (part, cs) ← keyPart? (skipSpaces cs)
    match skipSpaces cs with
    | '.' :: cs => do
      let (more, cs) ← keyParts? parts cs
      some (part :: more, cs)
    | cs => some ([part], cs)

def key? : Step (List String) := keyParts? levelLimit

end DialogueEngine.Toml
