/-!
Instants in universal time and their calendar. An instant counts seconds from the start of 1970
and the nanoseconds within the second; a leap second is the last second of its minute with more
than a second's nanoseconds.
-/

namespace DialogueEngine

-- Powers are those of the core library, whatever else is imported.
attribute [local instance (high)] instPowNat

structure Instant where
  /-- Seconds since the start of 1970. -/
  seconds : Int
  nanos : Nat
  /-- Only the last second of a minute may be a leap second. -/
  proper : nanos < 10 ^ (9 : Nat) ∨ (nanos < 2 * 10 ^ (9 : Nat) ∧ seconds % 60 = 59)
  deriving DecidableEq

namespace Instant

/-- An instant, if its nanoseconds are proper. -/
def of? (seconds : Int) (nanos : Nat) : Option Instant :=
  if h : nanos < 10 ^ (9 : Nat) ∨ (nanos < 2 * 10 ^ (9 : Nat) ∧ seconds % 60 = 59) then
    some ⟨seconds, nanos, h⟩
  else none

/-- The instant so many nanoseconds after the start of 1970, which are counted without leap
seconds. -/
def ofNanos (n : Nat) : Instant :=
  ⟨(n / 10 ^ (9 : Nat) : Nat), n % 10 ^ (9 : Nat), .inl (Nat.mod_lt _ (by decide))⟩

instance : Inhabited Instant := ⟨ofNanos 0⟩

def before (a b : Instant) : Bool :=
  a.seconds < b.seconds || (a.seconds = b.seconds && a.nanos < b.nanos)

/-! ## Calendar -/

structure Day where
  year : Int
  month : Nat
  day : Nat
  deriving DecidableEq, Repr

def isLeapYear (year : Int) : Bool :=
  year % 4 = 0 && (year % 100 != 0 || year % 400 = 0)

def monthLength (year : Int) (month : Nat) : Nat :=
  if month = 2 then (if isLeapYear year then 29 else 28)
  else if month = 4 ∨ month = 6 ∨ month = 9 ∨ month = 11 then 30
  else 31

/-- The number of a day, counted from the start of 1970. Years are taken to begin in March, so that
the leap day comes last, and are grouped in cycles of 400. -/
def Day.number (d : Day) : Int :=
  let year := if d.month ≤ 2 then d.year - 1 else d.year
  let cycle := year / 400
  let inCycle := year - cycle * 400
  let fromMarch : Int := ((d.month + 9) % 12 : Nat)
  let dayOfYear := (153 * fromMarch + 2) / 5 + d.day - 1
  let dayOfCycle := inCycle * 365 + inCycle / 4 - inCycle / 100 + dayOfYear
  cycle * 146097 + dayOfCycle - 719468

def Day.ofNumber (n : Int) : Day :=
  let shifted := n + 719468
  let cycle := shifted / 146097
  let dayOfCycle := shifted - cycle * 146097
  let inCycle :=
    (dayOfCycle - dayOfCycle / 1460 + dayOfCycle / 36524 - dayOfCycle / 146096) / 365
  let dayOfYear := dayOfCycle - (365 * inCycle + inCycle / 4 - inCycle / 100)
  let fromMarch := (5 * dayOfYear + 2) / 153
  let day := dayOfYear - (153 * fromMarch + 2) / 5 + 1
  let month := if fromMarch < 10 then fromMarch + 3 else fromMarch - 9
  let year := inCycle + cycle * 400
  ⟨if month ≤ 2 then year + 1 else year, month.toNat, day.toNat⟩

def day (t : Instant) : Day := Day.ofNumber (t.seconds / 86400)

def secondOfDay (t : Instant) : Nat := (t.seconds % 86400).toNat

def year (t : Instant) : Int := t.day.year

end Instant

end DialogueEngine
