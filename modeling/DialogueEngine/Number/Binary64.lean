/-!
Finite double-precision numbers, held as their 64 bits. A magnitude is rounded from a quotient of
natural numbers to the nearest double, a half going to the even neighbour; products and quotients
of doubles are exact quotients rounded once.
-/

namespace DialogueEngine

-- Powers are those of the core library, whatever else is imported.
attribute [local instance (high)] instPowNat instPowUInt64Nat

/-- A finite double-precision number. -/
structure Binary64 where
  bits : UInt64
  deriving DecidableEq, Repr, Inhabited

namespace Binary64

/-- The sign bit. -/
def negative (d : Binary64) : Bool := d.bits.toNat ≥ 2 ^ (63 : Nat)

/-- The bits below the sign. -/
def magnitudeBits (d : Binary64) : Nat := d.bits.toNat % 2 ^ (63 : Nat)

/-- The magnitude as `significand * 2 ^ exponent`. -/
structure Scaled where
  significand : Nat
  exponent : Int
  deriving DecidableEq, Repr

def scaledOfBits (magnitude : Nat) : Scaled :=
  let biased : Nat := magnitude / 2 ^ (52 : Nat)
  let fraction : Nat := magnitude % 2 ^ (52 : Nat)
  if biased = 0 then ⟨fraction, -1074⟩ else ⟨fraction + 2 ^ (52 : Nat), Int.ofNat biased - 1075⟩

def scaled (d : Binary64) : Scaled := scaledOfBits d.magnitudeBits

def isZero (d : Binary64) : Bool := d.magnitudeBits == 0

/-- The bits of the magnitude that infinity would have. -/
def infinityBits : Nat := 2047 * 2 ^ (52 : Nat)

/-- Rounds `num / den` to the nearest integer, a half to the even one. -/
def roundDiv (num den : Nat) : Nat :=
  let q := num / den
  let r := num % den
  if 2 * r < den then q
  else if den < 2 * r then q + 1
  else if q % 2 = 0 then q else q + 1

/-- Rounds `num / (den * 2 ^ e)` to the nearest integer. -/
def roundScaled (num den : Nat) (e : Int) : Nat :=
  if 0 ≤ e then roundDiv num (den * 2 ^ e.toNat) else roundDiv (num * 2 ^ (-e).toNat) den

/-- Whether `num / den` is less than `2 ^ e`. -/
def belowPower (num den : Nat) (e : Int) : Bool :=
  if 0 ≤ e then num < den * 2 ^ e.toNat else num * 2 ^ (-e).toNat < den

/-- The exponent at which `num / den` has a significand of 53 bits, held up to that of the
subnormal numbers. The difference of the logarithms is off by at most one, so one test decides. -/
def exponentOf (num den : Nat) : Int :=
  let guess : Int := (num.log2 : Int) - (den.log2 : Int)
  max ((if belowPower num den guess then guess - 1 else guess) - 52) (-1074)

/-- The bits of the double nearest to `num / den`; those of infinity and beyond where the quotient
is too large. -/
def nearestBits (num den : Nat) : Nat :=
  if num = 0 then 0
  else
    let e := exponentOf num den
    (e + 1074).toNat * 2 ^ (52 : Nat) + roundScaled num den e

/-- A double from its sign and the bits of its magnitude, unless the magnitude is infinite. -/
def ofBits? (negative : Bool) (magnitude : Nat) : Option Binary64 :=
  if magnitude < infinityBits then
    some ⟨UInt64.ofNat (magnitude + if negative then 2 ^ (63 : Nat) else 0)⟩
  else none

/-- The double nearest to `num / den` with the given sign, unless it is infinite. -/
def ofRatio? (negative : Bool) (num den : Nat) : Option Binary64 :=
  ofBits? negative (nearestBits num den)

def ofInt? (n : Int) : Option Binary64 := ofRatio? (n < 0) n.natAbs 1

def zero (negative : Bool) : Binary64 := ⟨if negative then 2 ^ (63 : Nat) else 0⟩

def Scaled.ratio (s : Scaled) : Nat × Nat :=
  if 0 ≤ s.exponent then (s.significand * 2 ^ s.exponent.toNat, 1)
  else (s.significand, 2 ^ (-s.exponent).toNat)

/-- The bits of the product of two magnitudes, rounded once. -/
def mulBits (a b : Nat) : Nat :=
  let (an, ad) := (scaledOfBits a).ratio
  let (bn, bd) := (scaledOfBits b).ratio
  nearestBits (an * bn) (ad * bd)

/-- The bits of the quotient of two magnitudes, rounded once; the divisor is not zero. -/
def divBits (a b : Nat) : Nat :=
  let (an, ad) := (scaledOfBits a).ratio
  let (bn, bd) := (scaledOfBits b).ratio
  nearestBits (an * bd) (ad * bn)

end Binary64

end DialogueEngine
