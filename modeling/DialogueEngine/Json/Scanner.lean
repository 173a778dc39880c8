import DialogueEngine.Json.Source

/-!
Tokens of a written value. `tokens` cuts a text into brackets, marks, literals, numbers and texts,
and ends with a broken token where the text cannot be cut on. Numbers follow their own rule for
rounding: the digits that fit 64 bits make an integer, which is then scaled by one power of ten.
-/

namespace DialogueEngine.Json

-- Powers and zero are those of the core library, whatever else is imported.
attribute [local instance (high)] instPowNat Zero.ofOfNat0

inductive Token where
  | openArray
  | closeArray
  | openObject
  | closeObject
  | comma
  | colon
  | null
  | bool (value : Bool)
  | number (value : Except Fault Number)
  | string (value : Except Fault String)
  /-- A literal or number that is cut short or faulty. -/
  | broken (whenRead whenSkipped : Fault)
  /-- A text that does not end. -/
  | brokenText (whenRead whenSkipped : Fault)

/-! ## Numbers -/

/-- The largest integer of 64 bits. -/
def maxUnsigned : Nat := 2 ^ (64 : Nat) - 1

def digitValue (c : Char) : Nat := c.toNat - 48

/-- Takes digits into a significand while it fits 64 bits; with it the digits left over. -/
def gatherDigits : Nat → List Char → Nat × List Char
  | n, [] => (n, [])
  | n, c :: cs =>
    if n * 10 + digitValue c ≤ maxUnsigned then gatherDigits (n * 10 + digitValue c) cs
    else (n, c :: cs)

/-- The bits of the magnitude `10 ^ k`. -/
def powerBits (k : Nat) : Nat := Binary64.nearestBits (10 ^ k) 1

/-- Scales a magnitude by a power of ten: one product or quotient where the power is in the range
of doubles, and repeated quotients below it. -/
def scaleBits : Nat → Nat → Int → Option Nat
  | rounds, bits, e =>
    if e.natAbs ≤ 308 then
      if 0 ≤ e then
        let product := Binary64.mulBits bits (powerBits e.natAbs)
        if product < Binary64.infinityBits then some product else none
      else some (Binary64.divBits bits (powerBits e.natAbs))
    else if bits = 0 then some 0
    else if 0 ≤ e then none
    else
      match rounds with
      | 0 => some 0
      | rounds + 1 => scaleBits rounds (Binary64.divBits bits (powerBits 308)) (e + 308)

/-- A double from sign, significand and decimal exponent; a fault where it is too large. The
second quotient by the largest power is zero already, so four rounds are enough. -/
def doubleOfParts (negative : Bool) (significand : Nat) (e : Int) : Except Fault Number :=
  match scaleBits 4 (Binary64.nearestBits significand 1) e with
  | some bits =>
    match Binary64.ofBits? negative bits with
    | some d => .ok (.double d)
    | none => .error .malformed
  | none => .error .malformed

/-- The parts of a number as they are written. -/
structure NumberParts where
  negative : Bool
  whole : List Char
  fraction : Option (List Char)
  /-- Whether the exponent is negative, and its digits. -/
  power : Option (Bool × List Char)

/-- The value of digits without a bound. -/
def natOfDigits (cs : List Char) : Nat := cs.foldl (fun n c => n * 10 + digitValue c) 0

/-- The number that the parts denote. -/
def NumberParts.value (p : NumberParts) : Except Fault Number :=
  let (whole, beyond) := gatherDigits 0 p.whole
  let (significand, places) : Nat × Int := match p.fraction with
    | none => (whole, 0)
    | some f =>
      let (significand, left) := gatherDigits whole f
      (significand, (f.length : Int) - left.length)
  let start : Int := beyond.length - places
  match p.power with
  | some (down, digits) =>
    let power := natOfDigits digits
    if 2 ^ (31 : Nat) ≤ power then
      if significand ≠ 0 ∧ !down then .error .malformed
      else .ok (.double (Binary64.zero p.negative))
    else doubleOfParts p.negative significand (if down then start - power else start + power)
  | none =>
    if p.fraction.isSome ∨ beyond ≠ [] then doubleOfParts p.negative significand start
    else if !p.negative then .ok (.int significand)
    else if significand = 0 ∨ 2 ^ (63 : Nat) < significand then doubleOfParts true significand 0
    else .ok (.int (-significand))

/-- The digits in front of a text, and what follows. -/
def spanDigits (cs : List Char) : List Char × List Char :=
  (cs.takeWhile Char.isDigit, cs.dropWhile Char.isDigit)

inductive Scan (α : Type) where
  | found (value : α) (rest : List Char)
  | broken (whenRead whenSkipped : Fault)

/-- Where a digit is missing, the end of the text counts as an early end for a reader and as a
faulty number for one who skips. -/
def missingDigit {α : Type} : List Char → Scan α
  | [] => .broken .truncated .malformed
  | _ :: _ => .broken .malformed .malformed

/-- The exponent of a number, if one follows. -/
def scanPower : List Char → Scan (Option (Bool × List Char))
  | c :: cs =>
    if c = 'e' ∨ c = 'E' then
      let (down, digitsOn) : Bool × List Char := match cs with
        | '+' :: more => (false, more)
        | '-' :: more => (true, more)
        | _ => (false, cs)
      match spanDigits digitsOn with
      | ([], rest) => missingDigit rest
      | (digits, rest) => .found (some (down, digits)) rest
    else .found none (c :: cs)
  | [] => .found none []

/-- What follows the whole digits of a number. -/
def scanTail (negative : Bool) (whole : List Char) : List Char → Scan NumberParts
  | '.' :: cs =>
    match spanDigits cs with
    | ([], rest) => missingDigit rest
    | (fraction, rest) =>
      match scanPower rest with
      | .found power rest => .found ⟨negative, whole, some fraction, power⟩ rest
      | .broken r s => .broken r s
  | cs =>
    match scanPower cs with
    | .found power rest => .found ⟨negative, whole, none, power⟩ rest
    | .broken r s => .broken r s

/-- A number behind its sign. A zero in front stands alone. -/
def scanUnsigned (negative : Bool) (cs : List Char) : Scan NumberParts :=
  match spanDigits cs with
  | ([], rest) => missingDigit rest
  | ('0' :: _ :: _, _) => .broken .malformed .malformed
  | (whole, rest) => scanTail negative whole rest

def scanNumber : List Char → Scan NumberParts
  | '-' :: cs => scanUnsigned true cs
  | cs => scanUnsigned false cs

/-! ## Texts -/

/-- What has been read of a text: its characters in reverse and a leading surrogate that waits for
its partner, or the first fault. -/
abbrev Gathered := Except Fault (List Char × Option Nat)

/-- Adds a character. A surrogate that waits has no partner then. -/
def Gathered.push (g : Gathered) (c : Char) : Gathered :=
  match g with
  | .ok (read, none) => .ok (c :: read, none)
  | .ok (_, some _) => .error .malformed
  | .error f => .error f

/-- Adds a unit that was written in hexadecimal. -/
def Gathered.pushUnit (g : Gathered) (n : Nat) : Gathered :=
  match g with
  | .ok (read, none) =>
    if 0xDC00 ≤ n ∧ n ≤ 0xDFFF then .error .malformed
    else if 0xD800 ≤ n ∧ n ≤ 0xDBFF then .ok (read, some n)
    else .ok (Char.ofNat n :: read, none)
  | .ok (read, some lead) =>
    if 0xDC00 ≤ n ∧ n ≤ 0xDFFF then
      .ok (Char.ofNat (0x10000 + (lead - 0xD800) * 0x400 + (n - 0xDC00)) :: read, none)
    else .error .malformed
  | .error f => .error f

/-- The text at its closing quote. -/
def Gathered.finish : Gathered → Except Fault String
  | .ok (read, none) => .ok (String.ofList read.reverse)
  | .ok (_, some _) => .error .malformed
  | .error f => .error f

/-- The fault for a reader where the text breaks off with `f`. -/
def Gathered.fault (g : Gathered) (f : Fault) : Fault :=
  match g with
  | .ok _ => f
  | .error first => first

def hexValue? (c : Char) : Option Nat :=
  if '0' ≤ c ∧ c ≤ '9' then some (c.toNat - 48)
  else if 'a' ≤ c ∧ c ≤ 'f' then some (c.toNat - 87)
  else if 'A' ≤ c ∧ c ≤ 'F' then some (c.toNat - 55)
  else none

/-- The unit of four hexadecimal digits. -/
def hexUnit? (a b c d : Char) : Option Nat := do
  let a ← hexValue? a
  let b ← hexValue? b
  let c ← hexValue? c
  let d ← hexValue? d
  return ((a * 16 + b) * 16 + c) * 16 + d

/-- The character behind a backslash. -/
def simpleEscape? (c : Char) : Option Char :=
  if c = '"' ∨ c = '\\' ∨ c = '/' then some c
  else if c = 'b' then some '\x08'
  else if c = 'f' then some '\x0c'
  else if c = 'n' then some '\n'
  else if c = 'r' then some '\r'
  else if c = 't' then some '\t'
  else none

/-- The fault of a hexadecimal escape that is not four digits: too early an end where fewer than
four bytes are left. -/
def hexFault (cs : List Char) : Fault :=
  if (cs.map fun c => c.utf8Size).sum < 4 then .truncated else .malformed

/-- A text behind its opening quote. -/
def scanText (g : Gathered) : List Char → Scan (Except Fault String)
  | [] => .broken (g.fault .truncated) .truncated
  | '"' :: rest => .found g.finish rest
  | '\\' :: 'u' :: a :: b :: c :: d :: rest =>
    match hexUnit? a b c d with
    | some n => scanText (g.pushUnit n) rest
    | none =>
      let f := hexFault (a :: b :: c :: d :: rest)
      .broken (g.fault f) f
  | '\\' :: 'u' :: rest => .broken (g.fault (hexFault rest)) (hexFault rest)
  | '\\' :: c :: rest =>
    match simpleEscape? c with
    | some c => scanText (g.push c) rest
    | none => .broken (g.fault .malformed) .malformed
  | ['\\'] => .broken (g.fault .truncated) .truncated
  | c :: rest =>
    if c.toNat < 32 then .broken (g.fault .malformed) .malformed else scanText (g.push c) rest

/-! ## Tokens -/

def scanLiteral : List Char → List Char → Scan Unit
  | [], cs => .found () cs
  | _ :: _, [] => .broken .truncated .truncated
  | l :: ls, c :: cs => if l = c then scanLiteral ls cs else .broken .malformed .malformed

/-- Whether a character stands between tokens. -/
def isGap (c : Char) : Bool := c = ' ' || c = '\n' || c = '\t' || c = '\r'

/-- The first token of a text that begins with `c`, and what follows it. -/
def nextToken (c : Char) (cs : List Char) : Token × List Char :=
  if c = '[' then (.openArray, cs)
  else if c = ']' then (.closeArray, cs)
  else if c = '{' then (.openObject, cs)
  else if c = '}' then (.closeObject, cs)
  else if c = ',' then (.comma, cs)
  else if c = ':' then (.colon, cs)
  else if c = '"' then
    match scanText (.ok ([], none)) cs with
    | .found s rest => (.string s, rest)
    | .broken r s => (.brokenText r s, [])
  else if c = 'n' then
    match scanLiteral ['u', 'l', 'l'] cs with
    | .found () rest => (.null, rest)
    | .broken r s => (.broken r s, [])
  else if c = 't' then
    match scanLiteral ['r', 'u', 'e'] cs with
    | .found () rest => (.bool true, rest)
    | .broken r s => (.broken r s, [])
  else if c = 'f' then
    match scanLiteral ['a', 'l', 's', 'e'] cs with
    | .found () rest => (.bool false, rest)
    | .broken r s => (.broken r s, [])
  else if c = '-' ∨ c.isDigit then
    match scanNumber (c :: cs) with
    | .found parts rest => (.number parts.value, rest)
    | .broken r s => (.broken r s, [])
  else (.broken .malformed .malformed, [])

/-- The tokens of a text. Each step takes at least one character, so the length of the text bounds
their number. -/
def tokensWithin : Nat → List Char → List Token
  | 0, _ => []
  | _ + 1, [] => []
  | fuel + 1, c :: cs =>
    if isGap c then tokensWithin fuel cs
    else
      let (token, rest) := nextToken c cs
      token :: tokensWithin fuel rest

def tokens (cs : List Char) : List Token := tokensWithin cs.length cs

end DialogueEngine.Json
