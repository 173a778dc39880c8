import DialogueEngine.Number.Binary64

/-!
The fewest decimal digits that read back as a given double, and the two ways in which they are
written. For one digit, two digits and so on the two neighbours of the value on that decimal grid
are tested; the first grid with a neighbour inside the interval of numbers that round to the double
wins, and of two hits the nearer, a tie going to the even one.
-/

namespace DialogueEngine.Number

-- Powers are those of the core library, whatever else is imported.
attribute [local instance (high)] instPowNat

/-- A decimal `digits * 10 ^ exponent`. -/
structure Decimal where
  digits : Nat
  exponent : Int
  deriving DecidableEq, Repr

/-- The numbers that round to a double, in units of a quarter of its last place: the value, the
ends, and whether the ends count. -/
structure Interval where
  low : Nat
  value : Nat
  high : Nat
  closed : Bool
  /-- One unit is `2 ^ unit`. -/
  unit : Int
  deriving DecidableEq, Repr

/-- The interval of a magnitude. Below a power of two the doubles lie twice as close. -/
def Interval.ofScaled (s : Binary64.Scaled) : Interval :=
  let m := s.significand
  { value := 4 * m
    high := 4 * m + 2
    low := if m = 2 ^ (52 : Nat) ∧ s.exponent ≠ -1074 then 4 * m - 1 else 4 * m - 2
    closed := m % 2 = 0
    unit := s.exponent - 2 }

/-- The value `n` units of the interval, as a quotient in units of `10 ^ e`. -/
def Interval.quotient (i : Interval) (n : Nat) (e : Int) : Nat × Nat :=
  let twoUp := if 0 ≤ i.unit then 2 ^ i.unit.toNat else 1
  let twoDown := if 0 ≤ i.unit then 1 else 2 ^ (-i.unit).toNat
  let tenUp := if 0 ≤ e then 10 ^ e.toNat else 1
  let tenDown := if 0 ≤ e then 1 else 10 ^ (-e).toNat
  (n * twoUp * tenDown, twoDown * tenUp)

/-- Whether `digits * 10 ^ e` rounds to the double of the interval. -/
def Interval.holds (i : Interval) (digits : Nat) (e : Int) : Bool :=
  let (lowNum, lowDen) := i.quotient i.low e
  let (highNum, highDen) := i.quotient i.high e
  if i.closed then lowNum ≤ digits * lowDen && digits * highDen ≤ highNum
  else lowNum < digits * lowDen && digits * highDen < highNum

/-- The neighbour of the value on the grid of multiples of `10 ^ e` that reads back. -/
def Interval.neighbour? (i : Interval) (e : Int) : Option Nat :=
  let (num, den) := i.quotient i.value e
  let below := num / den
  let above := below + 1
  match i.holds below e && below != 0, i.holds above e with
  | true, true =>
    let twice := 2 * (num % den)
    if twice < den then some below
    else if den < twice then some above
    else if below % 2 = 0 then some below else some above
  | true, false => some below
  | false, true => some above
  | false, false => none

/-- The largest `k` up to `fuel` with `10 ^ k ≤ n`. -/
def logTen (fuel n : Nat) : Nat :=
  match fuel with
  | 0 => 0
  | fuel + 1 => if n < 10 then 0 else logTen fuel (n / 10) + 1

/-- The decimal exponent of the leading digit of the value. -/
def Interval.leading (i : Interval) : Int :=
  let (num, den) := i.quotient i.value 0
  if den ≤ num then (logTen (num / den) (num / den) : Int)
  else
    -- Scale a value below one up by `10 ^ k` until it is at least one.
    let k := logTen (den / num) (den / num)
    if den ≤ num * 10 ^ k then -(k : Int) else -((k : Int) + 1)

/-- Tries the grids from `e` down. -/
def Interval.search (i : Interval) : Nat → Int → Decimal
  | 0, e => ⟨0, e⟩
  | fuel + 1, e =>
    match i.neighbour? e with
    | some digits => ⟨digits, e⟩
    | none => i.search fuel (e - 1)

/-- Drops zeros at the end of the digits. -/
def Decimal.trim : Nat → Decimal → Decimal
  | 0, d => d
  | fuel + 1, d =>
    if d.digits ≠ 0 ∧ d.digits % 10 = 0 then Decimal.trim fuel ⟨d.digits / 10, d.exponent + 1⟩
    else d

/-- The shortest decimal that reads back as the magnitude of a nonzero double. -/
def shortest (d : Binary64) : Decimal :=
  let i := Interval.ofScaled d.scaled
  (i.search 20 (i.leading + 1)).trim 20

def digitChars (n : Nat) : List Char := Nat.toDigits 10 n

/-- Digits with the point set after the first `whole` of them, zeros filling up. -/
def positional (digits : List Char) (exponent : Int) : List Char :=
  if 0 ≤ exponent then digits ++ List.replicate exponent.toNat '0' ++ ['.', '0']
  else
    let places := (-exponent).toNat
    if places < digits.length then
      digits.take (digits.length - places) ++ '.' :: digits.drop (digits.length - places)
    else '0' :: '.' :: List.replicate (places - digits.length) '0' ++ digits

/-- Digits with one before the point and a power of ten, which has a sign. -/
def scientific (digits : List Char) (exponent : Int) : List Char :=
  let power := exponent + digits.length - 1
  let body := match digits with
    | [] => ['0']
    | [c] => [c]
    | c :: more => c :: '.' :: more
  body ++ 'e' :: (if power < 0 then '-' else '+') :: digitChars power.natAbs

/-- A double in the fewest digits: positional where the point falls within sixteen places to the
right or five to the left of the first digit, with a power of ten elsewhere. -/
def shortText (d : Binary64) : List Char :=
  let sign := if d.negative then ['-'] else []
  if d.isZero then sign ++ ['0', '.', '0']
  else
    let s := shortest d
    let digits := digitChars s.digits
    let point := s.exponent + digits.length
    sign ++ if -5 < point ∧ point ≤ 16 then positional digits s.exponent
      else scientific digits s.exponent

/-- A double in the fewest digits, always positional. -/
def plainText (d : Binary64) : List Char :=
  let sign := if d.negative then ['-'] else []
  if d.isZero then sign ++ ['0', '.', '0']
  else
    let s := shortest d
    sign ++ positional (digitChars s.digits) s.exponent

end DialogueEngine.Number
