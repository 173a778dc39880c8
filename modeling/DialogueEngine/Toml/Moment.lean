import DialogueEngine.Toml.Quoted

/-!
Dates and times of a TOML document. A moment is a date, a time of day, or both, and then perhaps
with an offset from universal time; it is written back with upper-case marks and no more digits
behind the second than it needs.
-/

namespace DialogueEngine.Toml

-- Powers are those of the core library, whatever else is imported.
attribute [local instance (high)] instPowNat

structure Date where
  year : Nat
  month : Nat
  day : Nat
  deriving DecidableEq, Repr

structure TimeOfDay where
  hour : Nat
  minute : Nat
  second : Nat
  nanosecond : Nat
  deriving DecidableEq, Repr

inductive Offset where
  | universal
  | custom (west : Bool) (hours minutes : Nat)
  deriving DecidableEq, Repr

inductive Moment where
  | date (d : Date)
  | time (t : TimeOfDay)
  | both (d : Date) (t : TimeOfDay) (offset : Option Offset)
  deriving DecidableEq, Repr

def decimalValue? (c : Char) : Option Nat := if c.isDigit then some (c.toNat - 48) else none

/-- A number of exactly so many digits. -/
def digits? : Nat → Step Nat := fun width cs => go width 0 cs
where
  /-- Reads so many digits behind those read so far. -/
  go : Nat → Nat → Step Nat
    | 0, n, cs => some (n, cs)
    | _ + 1, _, [] => none
    | width + 1, n, c :: cs => do
      let d ← decimalValue? c
      go width (n * 10 + d) cs

/-- A number of two digits between two bounds. -/
def twoDigits? (least most : Nat) : Step Nat := fun cs => do
  let (n, cs) ← digits? 2 cs
  if least ≤ n ∧ n ≤ most then some (n, cs) else none

def mark? (mark : Char) : List Char → Option (List Char)
  | c :: cs => if c = mark then some cs else none
  | [] => none

namespace Date

def daysIn (year month : Nat) : Nat :=
  if month = 2 then if year % 4 = 0 ∧ (year % 100 ≠ 0 ∨ year % 400 = 0) then 29 else 28
  else if month = 4 ∨ month = 6 ∨ month = 9 ∨ month = 11 then 30
  else 31

def read? : Step Date := fun cs => do
  let (year, cs) ← digits? 4 cs
  let cs ← mark? '-' cs
  let (month, cs) ← twoDigits? 1 12 cs
  let cs ← mark? '-' cs
  let (day, cs) ← twoDigits? 1 (daysIn year month) cs
  some (⟨year, month, day⟩, cs)

end Date

/-- The digits of a number, filled up with zeros in front. -/
def padded (width n : Nat) : List Char :=
  let digits := Nat.toDigits 10 n
  List.replicate (width - digits.length) '0' ++ digits

namespace TimeOfDay

/-- The nanoseconds that the digits behind the point write; from the tenth on they are dropped. -/
def nanosecondsOf (digits : List Char) : Nat :=
  let kept := digits.take 9
  (kept.foldl (fun n c => n * 10 + (c.toNat - 48)) 0) * 10 ^ (9 - kept.length)

def read? : Step TimeOfDay := fun cs => do
  let (hour, cs) ← twoDigits? 0 23 cs
  let cs ← mark? ':' cs
  let (minute, cs) ← twoDigits? 0 59 cs
  let cs ← mark? ':' cs
  let (second, cs) ← twoDigits? 0 60 cs
  match cs with
  | '.' :: d :: rest =>
    if d.isDigit then
      some (⟨hour, minute, second, nanosecondsOf ((d :: rest).takeWhile Char.isDigit)⟩,
        rest.dropWhile Char.isDigit)
    else some (⟨hour, minute, second, 0⟩, cs)
  | _ => some (⟨hour, minute, second, 0⟩, cs)

def written (t : TimeOfDay) : List Char :=
  let whole := padded 2 t.hour ++ ':' :: padded 2 t.minute ++ ':' :: padded 2 t.second
  if t.nanosecond = 0 then whole
  else whole ++ '.' :: ((padded 9 t.nanosecond).reverse.dropWhile (· = '0')).reverse

end TimeOfDay

namespace Offset

def read? : Step Offset
  | 'Z' :: cs => some (.universal, cs)
  | 'z' :: cs => some (.universal, cs)
  | sign :: cs => do
    if sign = '+' ∨ sign = '-' then
      let (hours, cs) ← twoDigits? 0 23 cs
      let cs ← mark? ':' cs
      let (minutes, cs) ← twoDigits? 0 59 cs
      some (.custom (sign = '-') hours minutes, cs)
    else none
  | [] => none

/-- An offset as it is written; the offset zero is east. -/
def written : Offset → List Char
  | .universal => ['Z']
  | .custom west hours minutes =>
    (if west && (hours, minutes) ≠ (0, 0) then '-' else '+') ::
      (padded 2 hours ++ ':' :: padded 2 minutes)

end Offset

namespace Moment

/-- Reads the time of day behind a date, and its offset. -/
def readTime? : Step (TimeOfDay × Option Offset)
  | c :: cs => do
    if c = 'T' ∨ c = 't' ∨ c = ' ' then
      let (t, cs) ← TimeOfDay.read? cs
      match Offset.read? cs with
      | some (offset, rest) => some ((t, some offset), rest)
      | none => some ((t, none), cs)
    else none
  | [] => none

def read? : Step Moment := fun cs =>
  match Date.read? cs with
  | some (d, rest) =>
    match readTime? rest with
    | some ((t, offset), rest) => some (.both d t offset, rest)
    | none => some (.date d, rest)
  | none => (TimeOfDay.read? cs).map fun (t, rest) => (.time t, rest)

def writtenDate (d : Date) : List Char :=
  padded 4 d.year ++ '-' :: padded 2 d.month ++ '-' :: padded 2 d.day

def written : Moment → List Char
  | .date d => writtenDate d
  | .time t => t.written
  | .both d t offset =>
    writtenDate d ++ 'T' :: (t.written ++ (offset.map Offset.written).getD [])

end Moment

end DialogueEngine.Toml
