import DialogueEngine.Number.Binary64
import DialogueEngine.Toml.Moment

/-!
Numbers of a TOML document. An integer is decimal with an optional sign, or hexadecimal, octal or
binary behind a mark, and fits 64 bits; an underscore may stand between two digits. A float is
rounded to the nearest double; a positive one that is too large is refused, and a negative one
becomes infinite.
-/

namespace DialogueEngine.Toml

-- Powers are those of the core library, whatever else is imported.
attribute [local instance (high)] instPowNat

/-- The value of a digit in a base. -/
def digitIn? (base : Nat) (c : Char) : Option Nat := (hexValue? c).filter (· < base)

/-- The digits behind a first one, with single underscores between them. -/
def moreDigits (base : Nat) : List Char → List Char × List Char
  | '_' :: c :: cs =>
    if (digitIn? base c).isSome then
      let (more, rest) := moreDigits base cs
      (c :: more, rest)
    else ([], '_' :: c :: cs)
  | c :: cs =>
    if (digitIn? base c).isSome then
      let (more, rest) := moreDigits base cs
      (c :: more, rest)
    else ([], c :: cs)
  | [] => ([], [])

/-- Digits, at least one. -/
def digitRun? (base : Nat) : Step (List Char)
  | c :: cs =>
    if (digitIn? base c).isSome then
      let (more, rest) := moreDigits base cs
      some (c :: more, rest)
    else none
  | [] => none

/-- The number that digits write. -/
def natOfDigits (base : Nat) (digits : List Char) : Nat :=
  digits.foldl (fun n c => n * base + (hexValue? c).getD 0) 0

/-- An optional sign: whether it is a minus. -/
def sign (cs : List Char) : Bool × List Char :=
  match cs with
  | '-' :: rest => (true, rest)
  | '+' :: rest => (false, rest)
  | _ => (false, cs)

/-- The digits before the point: a zero alone, or digits that begin with another. -/
def wholePart? : Step (List Char)
  | '0' :: cs => some (['0'], cs)
  | cs => digitRun? 10 cs

/-- An integer of 64 bits. -/
def fitting? (n : Int) : Option Int :=
  if -(2 ^ (63 : Nat)) ≤ n ∧ n < 2 ^ (63 : Nat) then some n else none

def readInteger? : Step Int := fun cs =>
  let based (base : Nat) (cs : List Char) : Option (Int × List Char) := do
    let (digits, rest) ← digitRun? base cs
    (fitting? (natOfDigits base digits)).map (·, rest)
  match cs with
  | '0' :: 'x' :: rest => based 16 rest
  | '0' :: 'o' :: rest => based 8 rest
  | '0' :: 'b' :: rest => based 2 rest
  | _ => do
    let (minus, cs) := sign cs
    let (digits, rest) ← wholePart? cs
    let n : Int := natOfDigits 10 digits
    (fitting? (if minus then -n else n)).map (·, rest)

/-- The bits of the double nearest to `n * 10 ^ e`; those of infinity where it is too large. Far
outside the range of doubles the power is not computed. -/
def decimalBits (n : Nat) (e : Int) : Nat :=
  let place : Int := (Nat.toDigits 10 n).length + e
  if n = 0 ∨ place < -330 then 0
  else if 310 < place then Binary64.infinityBits
  else if 0 ≤ e then Binary64.nearestBits (n * 10 ^ e.toNat) 1
  else Binary64.nearestBits n (10 ^ (-e).toNat)

/-- A double of a sign and the bits of a magnitude. -/
def signed (minus : Bool) (magnitude : Nat) : Binary64 :=
  ⟨UInt64.ofNat (magnitude + if minus then 2 ^ (63 : Nat) else 0)⟩

/-- The digits behind a point, if there are any. -/
def fraction? : Step (List Char)
  | '.' :: cs => digitRun? 10 cs
  | _ => none

/-- An exponent, if there is one. -/
def exponent? : Step Int
  | c :: cs => do
    if c = 'e' ∨ c = 'E' then
      let (minus, cs) := sign cs
      let (digits, rest) ← digitRun? 10 cs
      let n : Int := natOfDigits 10 digits
      some (if minus then -n else n, rest)
    else none
  | [] => none

/-- A float with digits: a fraction, an exponent, or both follow the digits before the point. -/
def readDecimal? : Step Binary64 := fun cs => do
  let (minus, cs) := sign cs
  let (whole, cs) ← wholePart? cs
  let fraction := fraction? cs
  let (behind, cs) := fraction.getD ([], cs)
  let exponent := exponent? cs
  let (e, cs) := exponent.getD (0, cs)
  if fraction.isNone ∧ exponent.isNone then none
  let bits := decimalBits (natOfDigits 10 (whole ++ behind)) (e - behind.length)
  if bits < Binary64.infinityBits then some (signed minus bits, cs)
  else if minus then some (signed true Binary64.infinityBits, cs)
  else none

/-- The infinities and what is not a number, with an optional sign. -/
def readSpecial? : Step Binary64 := fun cs =>
  match sign cs with
  | (minus, 'i' :: 'n' :: 'f' :: rest) => some (signed minus Binary64.infinityBits, rest)
  | (minus, 'n' :: 'a' :: 'n' :: rest) =>
    some (signed minus (Binary64.infinityBits + 2 ^ (51 : Nat)), rest)
  | _ => none

def readFloat? : Step Binary64 := fun cs => readDecimal? cs <|> readSpecial? cs

end DialogueEngine.Toml
