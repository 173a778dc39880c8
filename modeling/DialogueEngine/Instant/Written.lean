import DialogueEngine.Instant.Basic
import DialogueEngine.Text.Blank

/-!
Instants as texts. They are written with a four-digit year, the letter `T` and no, three, six or
nine digits of the second, the fewest that are exact. Reading allows blanks around the parts, parts
of fewer digits, a small `t` or a space between date and time, and any offset below a day.
-/

namespace DialogueEngine.Instant

-- Powers are those of the core library, whatever else is imported.
attribute [local instance (high)] instPowNat

/-! ## Writing -/

/-- A number in at least `width` digits. -/
def padded (width n : Nat) : List Char :=
  let digits := Nat.toDigits 10 n
  List.replicate (width - digits.length) '0' ++ digits

/-- A year: four digits, or a sign and at least four. -/
def yearChars (year : Int) : List Char :=
  if 0 ≤ year ∧ year ≤ 9999 then padded 4 year.toNat
  else (if year < 0 then '-' else '+') :: padded 4 year.natAbs

/-- The digits behind the second, with their point: the fewest that are exact. -/
def fractionChars (nanos : Nat) : List Char :=
  if nanos = 0 then []
  else if nanos % 1000000 = 0 then '.' :: padded 3 (nanos / 1000000)
  else if nanos % 1000 = 0 then '.' :: padded 6 (nanos / 1000)
  else '.' :: padded 9 nanos

/-- An instant with a text for its zone. -/
def writtenChars (zone : List Char) (t : Instant) : List Char :=
  let day := t.day
  let second := t.secondOfDay
  let leap := 10 ^ (9 : Nat) ≤ t.nanos
  yearChars day.year ++ '-' :: padded 2 day.month ++ '-' :: padded 2 day.day ++
    'T' :: padded 2 (second / 3600) ++ ':' :: padded 2 (second / 60 % 60) ++
    ':' :: padded 2 (second % 60 + if leap then 1 else 0) ++
    fractionChars (if leap then t.nanos - 10 ^ (9 : Nat) else t.nanos) ++ zone

/-- An instant as it stands in a value. -/
def written (t : Instant) : String := String.ofList (t.writtenChars ['Z'])

/-- An instant as it stands in a row of a table: the zone is written as an offset. -/
def rowText (t : Instant) : String := String.ofList (t.writtenChars ['+', '0', '0', ':', '0', '0'])

/-! ## Reading -/

/-- Takes up to `most` digits, at least one. -/
def takeDigits (most : Nat) (cs : List Char) : Option (Nat × List Char) :=
  let digits := (cs.take most).takeWhile Char.isDigit
  if digits.isEmpty then none
  else some (digits.foldl (fun n c => n * 10 + (c.toNat - 48)) 0, cs.drop digits.length)

/-- Takes digits without a bound, at least one. -/
def takeAllDigits (cs : List Char) : Option (Nat × List Char) := takeDigits cs.length cs

/-- Takes a year: four digits at most unless it has a sign. -/
def takeYear (cs : List Char) : Option (Int × List Char) :=
  match Text.trimStart cs with
  | '-' :: rest => (takeAllDigits rest).map fun (n, rest) => (-(n : Int), rest)
  | '+' :: rest => (takeAllDigits rest).map fun (n, rest) => ((n : Int), rest)
  | rest => (takeDigits 4 rest).map fun (n, rest) => ((n : Int), rest)

/-- Takes a part of two digits at most, behind blanks, between bounds. -/
def takePart (low high : Nat) (cs : List Char) : Option (Nat × List Char) := do
  let (n, rest) ← takeDigits 2 (Text.trimStart cs)
  if low ≤ n ∧ n ≤ high then some (n, rest) else none

/-- Takes a mark, behind blanks. -/
def takeMark (mark : Char) (cs : List Char) : Option (List Char) :=
  match Text.trimStart cs with
  | c :: rest => if c = mark then some rest else none
  | [] => none

/-- Takes the digits behind a point, if there is one; digits past the ninth do not count. -/
def takeFraction (cs : List Char) : Option (Nat × List Char) :=
  match cs with
  | '.' :: rest => do
    let (n, after) ← takeDigits 9 rest
    let places := rest.length - after.length
    return (n * 10 ^ (9 - places), after.dropWhile Char.isDigit)
  | _ => some (0, cs)

def digit? (c : Char) : Option Nat := if c.isDigit then some (c.toNat - 48) else none

/-- Takes the hours and minutes of an offset, in seconds. -/
def takeOffsetTime (cs : List Char) : Option (Nat × List Char) := do
  match cs with
  | a :: b :: rest =>
    let a ← digit? a
    let b ← digit? b
    match rest.dropWhile (fun c => c = ':' || Text.isBlank c) with
    | c :: d :: rest =>
      let c ← digit? c
      let d ← digit? d
      if c < 6 then some ((a * 10 + b) * 3600 + (c * 10 + d) * 60, rest) else none
    | _ => none
  | _ => none

/-- Takes an offset in seconds. -/
def takeOffset (cs : List Char) : Option (Int × List Char) :=
  match cs with
  | 'Z' :: rest | 'z' :: rest => some (0, rest)
  | '+' :: rest => (takeOffsetTime rest).map fun (n, rest) => ((n : Int), rest)
  | '-' :: rest | '−' :: rest => (takeOffsetTime rest).map fun (n, rest) => (-(n : Int), rest)
  | a :: b :: c :: rest =>
    if a.toLower = 'u' ∧ b.toLower = 't' ∧ c.toLower = 'c' then some (0, rest) else none
  | _ => none

def yearInRange (year : Int) : Bool := -262143 ≤ year && year ≤ 262142

/-- Reads an instant. A sixtieth second is a leap second. -/
def readChars? (cs : List Char) : Option Instant := do
  let (year, cs) ← takeYear cs
  let cs ← takeMark '-' cs
  let (month, cs) ← takePart 1 12 cs
  let cs ← takeMark '-' cs
  let (day, cs) ← takePart 1 31 cs
  let cs ← match cs with
    | c :: rest => if c = 'T' ∨ c = 't' ∨ c = ' ' then some rest else none
    | [] => none
  let (hour, cs) ← takePart 0 23 cs
  let cs ← takeMark ':' cs
  let (minute, cs) ← takePart 0 59 cs
  let cs ← takeMark ':' cs
  let (second, cs) ← takePart 0 60 cs
  let (nanos, cs) ← takeFraction cs
  let (offset, cs) ← takeOffset (Text.trimStart cs)
  if cs.all Text.isBlank ∧ yearInRange year ∧ day ≤ monthLength year month ∧
      -86400 < offset ∧ offset < 86400 then
    let leap := second = 60
    let ofDay := hour * 3600 + minute * 60 + if leap then 59 else second
    let t ← of? ((Day.mk year month day).number * 86400 + ofDay - offset)
      (if leap then nanos + 10 ^ (9 : Nat) else nanos)
    if yearInRange t.year then some t else none
  else none

def read? (s : String) : Option Instant := readChars? s.toList

end DialogueEngine.Instant
