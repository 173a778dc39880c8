import DialogueEngine.Proofs.Json.Recovery
import DialogueEngine.Proofs.Number.Digits

/-!
Every number that a program holds is read back from its text. An integer of 64 bits comes back as
it is. A double comes back as a double: its digits fit 64 bits, so that they are scaled by their
power of ten, and even where that rounds twice no product is as large as infinity.
-/

namespace DialogueEngine.Json

-- Powers are those of the core library, whatever else is imported.
attribute [local instance (high)] instPowNat

open DialogueEngine.Number (digitChars shortText shortest shortest_spec shortest_digits Interval)
open Binary64 (divBits divBits_mono infinityBits mulBits mulBits_mono nearestBits nearestBits_mono
  ofMagnitude ofMagnitude_mono)

/-! ## Integers -/

theorem Number.rereads_int {n : Int} (held : (Number.int n).Held) : (Number.int n).Rereads := by
  obtain ⟨least, most⟩ := held
  have proper : (⟨decide (n < 0), digitChars n.natAbs, none, none⟩ : NumberParts).Proper :=
    ⟨whole_digitChars _, by simp, by simp⟩
  have written : (Number.int n).chars =
      (⟨decide (n < 0), digitChars n.natAbs, none, none⟩ : NumberParts).written := by
    by_cases negative : n < 0 <;>
      simp [Number.chars, intChars, negative, NumberParts.written, NumberParts.unsigned,
        NumberParts.fractionChars, NumberParts.powerChars]
  have found := scanNumber_written proper Ends.nil
  rw [List.append_nil, ← written] at found
  have digits : gatherDigits 0 (digitChars n.natAbs) = (n.natAbs, []) := by
    have fits : n.natAbs ≤ maxUnsigned := by
      unfold maxUnsigned
      omega
    have gathered : gatherDigits 0 (digitChars n.natAbs) =
        (0 * 10 ^ (digitChars n.natAbs).length + natOfDigits (digitChars n.natAbs), []) :=
      gatherDigits_fits (by rwa [Nat.zero_mul, Nat.zero_add, natOfDigits_digitChars])
    rwa [Nat.zero_mul, Nat.zero_add, natOfDigits_digitChars] at gathered
  rw [Number.Rereads, Number.reread, found, Number.rounded]
  simp only [NumberParts.value, digits]
  by_cases negative : n < 0
  · have some : ¬ (n.natAbs = 0 ∨ 2 ^ 63 < n.natAbs) := by omega
    have same : -(n.natAbs : Int) = n := by omega
    simp only [negative, decide_true, Option.isSome_none, Bool.false_eq_true, ne_eq,
      not_true_eq_false, or_self, if_false, Bool.not_true, if_neg some, same]
  · have same : (n.natAbs : Int) = n := by omega
    simp only [negative, decide_false, Option.isSome_none, Bool.false_eq_true, ne_eq,
      not_true_eq_false, or_self, if_false, Bool.not_false, if_true, same]

/-- No double is an integer. -/
theorem doubleOfParts_ne_int (negative : Bool) (s : Nat) (e n : Int) :
    doubleOfParts negative s e ≠ .ok (.int n) := by
  unfold doubleOfParts
  split
  · split <;> simp
  · simp

/-- A count that can be read is the one that was written. -/
theorem Reader.eq_of_count {m : Medium} {n n' : Nat}
    (ok : Reader.count m (Json.ofNat n).scanned = .ok n') : n' = n := by
  have proper : (⟨false, digitChars n, none, none⟩ : NumberParts).Proper :=
    ⟨whole_digitChars _, by simp, by simp⟩
  have written : (Number.int n).chars =
      (⟨false, digitChars n, none, none⟩ : NumberParts).written := by
    simp [Number.chars, intChars, NumberParts.written, NumberParts.unsigned,
      NumberParts.fractionChars, NumberParts.powerChars]
  have found := scanNumber_written proper Ends.nil
  rw [List.append_nil, ← written] at found
  rw [Json.ofNat, scanned, Number.reread, found] at ok
  simp only [NumberParts.value] at ok
  -- Digits that are too many for an integer make a double, which is no count.
  cases gathered : gatherDigits 0 (digitChars n) with
  | mk k beyond =>
    simp only [gathered] at ok
    cases beyond with
    | nil =>
      have same : k = n := by
        rw [eq_of_gatherDigits gathered, Nat.zero_mul, Nat.zero_add, natOfDigits_digitChars]
      subst same
      simp only [Reader.count, Option.isSome_none, Bool.false_eq_true, ne_eq, not_true_eq_false,
        or_self, if_false, Bool.not_false, if_true] at ok
      split at ok
      · cases ok
        rfl
      · cases ok
    | cons c cs =>
      simp only [Reader.count, Option.isSome_none, Bool.false_eq_true, ne_eq, reduceCtorEq,
        not_false_eq_true, or_true, if_true] at ok
      split at ok
      · next integer => exact absurd (Source.number.inj integer) (doubleOfParts_ne_int false k _ _)
      · cases ok

/-! ## Scaling -/

/-- A double other than infinity is found where the bits of its magnitude are. -/
theorem doubleOfParts_of_bits {negative : Bool} {s bits : Nat} {e : Int}
    (scaled : scaleBits 4 (nearestBits s 1) e = some bits) (finite : bits < infinityBits) :
    ∃ d, doubleOfParts negative s e = .ok (.double d) := by
  simp only [doubleOfParts, scaled, Binary64.ofBits?, if_pos finite]
  exact ⟨_, rfl⟩

theorem nearestBits_mono_nat {s s' : Nat} (le : s ≤ s') : nearestBits s 1 ≤ nearestBits s' 1 :=
  nearestBits_mono Nat.one_pos Nat.one_pos (by gcongr)

theorem powerBits_mono {k l : Nat} (le : k ≤ l) : powerBits k ≤ powerBits l :=
  nearestBits_mono_nat (Nat.pow_le_pow_right (by decide) le)

theorem powerBits_zero : powerBits 0 = 1023 * 2 ^ 52 := by decide +kernel

/-- The bits of the largest significand. -/
def mostBits : Nat := nearestBits (10 ^ 19) 1

theorem divBits_le_most {bits : Nat} (few : bits ≤ mostBits) (k : Nat) :
    divBits bits (powerBits k) ≤ mostBits := by
  have least : 0 < powerBits 0 := by
    rw [powerBits_zero]
    decide
  have grown := powerBits_mono (Nat.zero_le k)
  calc
    divBits bits (powerBits k) ≤ divBits mostBits (powerBits 0) :=
      divBits_mono (by omega) few grown least
    _ = mostBits := by decide +kernel

/-- Scaling down always comes to a double. -/
theorem scaleBits_down (rounds : Nat) {bits : Nat} {e : Int} (down : e < 0)
    (few : bits ≤ mostBits) : ∃ scaled, scaleBits rounds bits e = some scaled ∧
      scaled ≤ mostBits := by
  induction rounds generalizing bits e with
  | zero =>
    unfold scaleBits
    split
    · exact ⟨_, if_neg (by omega), divBits_le_most few _⟩
    · split
      · exact ⟨0, rfl, Nat.zero_le _⟩
      · exact ⟨0, if_neg (by omega), Nat.zero_le _⟩
  | succ rounds ih =>
    unfold scaleBits
    split
    · exact ⟨_, if_neg (by omega), divBits_le_most few _⟩
    · split
      · exact ⟨0, rfl, Nat.zero_le _⟩
      · rw [if_neg (by omega)]
        exact ih (by omega) (divBits_le_most few 308)

theorem doubleOfParts_down (negative : Bool) {s : Nat} {e : Int} (few : s ≤ 10 ^ 19)
    (down : e < 0) : ∃ d, doubleOfParts negative s e = .ok (.double d) := by
  obtain ⟨bits, scaled, most⟩ := scaleBits_down 4 down (nearestBits_mono_nat few)
  have finite : mostBits < infinityBits := by decide +kernel
  exact doubleOfParts_of_bits scaled (Nat.lt_of_le_of_lt most finite)

/-- The middle between the two doubles before the largest and the largest, a bound for what rounds
to any of the others. -/
def edge : Nat := (2 ^ 54 - 3) * 2 ^ 970

/-- Significands up to the edge are not scaled to infinity, though both they and the power of ten
are rounded and so is their product. -/
theorem edge_finite (k : Nat) (power : k < 309) :
    mulBits (nearestBits (min (10 ^ 19) (edge / 10 ^ k)) 1) (powerBits k) < infinityBits := by
  by_cases near : k < 289
  · -- Far from the edge the largest significand is small enough.
    have finite : mulBits mostBits (powerBits 288) < infinityBits := by decide +kernel
    exact Nat.lt_of_le_of_lt (mulBits_mono (nearestBits_mono_nat (min_le_left _ _))
      (powerBits_mono (Nat.le_of_lt_succ near))) finite
  · have last : ∀ j < 20, mulBits (nearestBits (min (10 ^ 19) (edge / 10 ^ (289 + j))) 1)
        (powerBits (289 + j)) < infinityBits := by decide +kernel
    have finite := last (k - 289) (by omega)
    rwa [Nat.add_sub_cancel' (Nat.le_of_not_lt near)] at finite

theorem doubleOfParts_up (negative : Bool) {s : Nat} {k : Nat} (some : 0 < s) (few : s ≤ 10 ^ 19)
    (inside : s * 10 ^ k ≤ edge) : ∃ d, doubleOfParts negative s k = .ok (.double d) := by
  have power : k < 309 := by
    have most : 10 ^ k ≤ edge := (Nat.le_mul_of_pos_left _ some).trans inside
    have beyond : edge < 10 ^ 309 := by decide +kernel
    generalize 309 = n at beyond ⊢
    exact (Nat.pow_lt_pow_iff_right (by decide)).1 (Nat.lt_of_le_of_lt most beyond)
  have significand : s ≤ min (10 ^ 19) (edge / 10 ^ k) :=
    le_min few ((Nat.le_div_iff_mul_le (Nat.pow_pos (by decide))).2 inside)
  have finite : mulBits (nearestBits s 1) (powerBits k) < infinityBits :=
    Nat.lt_of_le_of_lt (mulBits_mono (nearestBits_mono_nat significand) le_rfl)
      (edge_finite k power)
  refine doubleOfParts_of_bits ?_ finite
  unfold scaleBits
  simp only [Int.natAbs_natCast, if_pos (show k ≤ 308 by omega), if_pos (Int.natCast_nonneg k),
    if_pos finite]

/-! ## Doubles -/

/-- What rounds to a double is no more than half a unit of the largest place above it. -/
theorem high_le {d : Binary64} {bits : Nat} (finite : bits < infinityBits)
    (le : d.magnitudeBits ≤ bits) :
    ((Interval.ofScaled d.scaled).high : ℚ) * 2 ^ (Interval.ofScaled d.scaled).unit ≤
      ofMagnitude bits + 2 ^ 970 := by
  have value := ofMagnitude_mono le
  have exponent : d.scaled.exponent - 1 ≤ 970 := by
    unfold infinityBits at finite
    simp only [Binary64.scaled, Binary64.scaledOfBits]
    split <;> dsimp only [Int.ofNat_eq_natCast] <;> omega
  have half : (2 : ℚ) ^ (d.scaled.exponent - 1) ≤ 2 ^ (970 : Int) :=
    zpow_le_zpow_right₀ (by norm_num) exponent
  calc
    ((Interval.ofScaled d.scaled).high : ℚ) * 2 ^ (Interval.ofScaled d.scaled).unit
        = (4 * d.scaled.significand + 2) * 2 ^ (d.scaled.exponent - 2) := by
      simp [Interval.ofScaled]
    _ = d.scaled.significand * 2 ^ d.scaled.exponent + 2 ^ (d.scaled.exponent - 1) := by
      rw [zpow_sub₀ (by norm_num), zpow_sub₀ (by norm_num)]
      norm_num
      ring
    _ = ofMagnitude d.magnitudeBits + 2 ^ (d.scaled.exponent - 1) := rfl
    _ ≤ ofMagnitude bits + 2 ^ 970 := add_le_add value half

/-- A magnitude at the largest exponent, in halves of its last place. -/
theorem ofMagnitude_largest {bits m : Nat} (at_ : Binary64.scaledOfBits bits = ⟨m, 971⟩) :
    ofMagnitude bits = (2 * m : Nat) * 2 ^ 970 := by
  have split : (2 : ℚ) ^ (971 : Int) = 2 * 2 ^ 970 := by
    rw [show (971 : Int) = ((970 + 1 : Nat) : Int) by rfl, zpow_natCast, pow_succ, mul_comm]
  rw [ofMagnitude, at_, split]
  generalize (2 : ℚ) ^ 970 = unit
  push_cast
  ring

/-- All finite doubles but the largest round from below the edge. -/
theorem high_le_edge {d : Binary64} (inside : d.magnitudeBits < infinityBits - 1) :
    ((Interval.ofScaled d.scaled).high : ℚ) * 2 ^ (Interval.ofScaled d.scaled).unit ≤ edge := by
  have finite : infinityBits - 2 < infinityBits := by decide
  have next : Binary64.scaledOfBits (infinityBits - 2) = ⟨2 ^ 53 - 2, 971⟩ := by decide
  have most := high_le finite (show d.magnitudeBits ≤ infinityBits - 2 by omega)
  rw [ofMagnitude_largest next] at most
  rw [edge]
  generalize (970 : Nat) = k at most ⊢
  push_cast at most ⊢
  linarith

/-- The shortest digits of a finite double have no power past the range of doubles. -/
theorem shortest_exponent_lt {d : Binary64} (finite : d.magnitudeBits < infinityBits)
    (nonzero : d.isZero = false) : (shortest d).exponent < 309 := by
  obtain ⟨-, -, high⟩ := shortest_spec nonzero
  have largest : Binary64.scaledOfBits (infinityBits - 1) = ⟨2 ^ 53 - 1, 971⟩ := by decide
  have one : (1 : ℚ) ≤ (shortest d).digits := by
    exact_mod_cast Nat.pos_of_ne_zero (shortest_digits nonzero)
  have beyond : 2 ^ 1024 < 10 ^ 309 := by decide +kernel
  have power : (0 : ℚ) < 10 ^ (shortest d).exponent := by positivity
  have below : (10 : ℚ) ^ (shortest d).exponent < 10 ^ (309 : Int) := by
    calc
      (10 : ℚ) ^ (shortest d).exponent
          ≤ (shortest d).digits * 10 ^ (shortest d).exponent := le_mul_of_one_le_left power.le one
      _ ≤ ofMagnitude (infinityBits - 1) + 2 ^ 970 :=
        high.trans (high_le (by decide) (Nat.le_sub_one_of_lt finite))
      _ ≤ 2 ^ 1024 := by
        rw [ofMagnitude_largest largest, show 1024 = 54 + 970 by rfl, pow_add]
        have positive : (0 : ℚ) < 2 ^ 970 := by positivity
        generalize (2 : ℚ) ^ 970 = x at positive ⊢
        norm_num
        linarith
      _ < 10 ^ (309 : Int) := by exact_mod_cast beyond
  exact (zpow_lt_zpow_iff_right₀ (by norm_num)).1 below

/-- The shortest digits of a finite double are scaled to a double. -/
theorem doubleOfParts_shortest {d : Binary64} (finite : d.magnitudeBits < infinityBits)
    (nonzero : d.isZero = false) (negative : Bool) :
    ∃ d', doubleOfParts negative (shortest d).digits (shortest d).exponent = .ok (.double d') := by
  obtain ⟨few, -, high⟩ := shortest_spec nonzero
  rcases Nat.lt_or_eq_of_le (Nat.le_sub_one_of_lt finite) with inside | largest
  · rcases Int.lt_or_le (shortest d).exponent 0 with down | up
    · exact doubleOfParts_down negative few down
    · obtain ⟨k, power⟩ := Int.eq_ofNat_of_zero_le up
      rw [power]
      refine doubleOfParts_up negative (Nat.pos_of_ne_zero (shortest_digits nonzero)) few ?_
      have below := high.trans (high_le_edge inside)
      rw [power, zpow_natCast] at below
      exact_mod_cast below
  · -- The largest double is written in digits of its own.
    have scaled : d.scaled = Binary64.scaledOfBits (infinityBits - 1) := by
      rw [Binary64.scaled, largest]
    have digits : shortest d = ⟨17976931348623157, 292⟩ := by
      rw [shortest, scaled]
      decide +kernel
    rw [digits]
    have scaled : scaleBits 4 (nearestBits 17976931348623157 1) 292 = some (infinityBits - 1) := by
      decide +kernel
    exact doubleOfParts_of_bits scaled (by decide)

/-- A double whose parts denote what is scaled to a double is read back as one. -/
theorem Number.rereads_of_parts {d d' : Binary64} {p : NumberParts} {s : Nat} {e : Int}
    (proper : p.Proper) (written : (Number.double d).chars = p.written) (denotes : p.Denotes s e)
    (few : s ≤ 10 ^ 19)
    (power : ∀ down ds, p.power = some (down, ds) → natOfDigits ds < 2 ^ 31)
    (scaled : doubleOfParts p.negative s e = .ok (.double d')) : (Number.double d).Rereads := by
  have found := scanNumber_written proper Ends.nil
  rw [List.append_nil, ← written] at found
  have fits : s ≤ maxUnsigned := by
    unfold maxUnsigned
    omega
  have read : (Number.double d).reread = .ok (.double d') := by
    rw [Number.reread, found]
    exact (NumberParts.value_of_denotes denotes fits power).trans scaled
  rw [Number.Rereads, Number.rounded, read]

theorem Number.rereads_double {d : Binary64} (held : (Number.double d).Held) :
    (Number.double d).Rereads := by
  cases zero : d.isZero with
  | true =>
    have proper : (⟨d.negative, ['0'], some ['0'], none⟩ : NumberParts).Proper :=
      ⟨whole_zero, fun f same => by cases same; exact whole_zero.toDigits, by simp⟩
    have written : (Number.double d).chars =
        (⟨d.negative, ['0'], some ['0'], none⟩ : NumberParts).written := by
      rw [Number.chars, shortText, if_pos zero]
      cases d.negative <;> rfl
    have denotes : (⟨d.negative, ['0'], some ['0'], none⟩ : NumberParts).Denotes 0 (-1) :=
      ⟨by simp, rfl, by simp [NumberParts.ten]⟩
    obtain ⟨d', scaled⟩ := doubleOfParts_down d.negative (s := 0) (e := -1) (by decide) (by decide)
    exact rereads_of_parts proper written denotes (by decide) (by simp) scaled
  | false =>
    obtain ⟨p, proper, same, s, e, denotes, powers, digits⟩ := shortText_written zero
    obtain ⟨proper', signed⟩ := NumberParts.signed proper d.negative
    obtain ⟨few, least, -⟩ := shortest_spec zero
    have most := shortest_exponent_lt held zero
    have bounds : s ≤ 10 ^ 19 ∧ -600 ≤ e ∧ e < 309 := by
      rcases digits with ⟨short, rfl⟩ | ⟨rfl, rfl⟩
      · omega
      · exact ⟨few, least, most⟩
    have length : (digitChars s).length ≤ 20 :=
      (Nat.length_toDigits_le_iff (by decide) (by decide)).2 (by omega)
    have denotes' : { p with negative := d.negative }.Denotes s e :=
      ⟨denotes.marked, denotes.digits, denotes.exponent⟩
    have scaled : ∃ d', doubleOfParts d.negative s e = .ok (.double d') := by
      rcases digits with ⟨-, rfl⟩ | ⟨rfl, rfl⟩
      · exact doubleOfParts_down d.negative bounds.1 (by decide)
      · exact doubleOfParts_shortest held zero d.negative
    obtain ⟨d', scaled⟩ := scaled
    refine rereads_of_parts proper' (same.trans signed) denotes' bounds.1 ?_ scaled
    intro down ds given
    rw [powers down ds given]
    omega

/-- Every number that is held is read back with nothing but rounding. -/
theorem Number.rereads (n : Number) (held : n.Held) : n.Rereads := by
  cases n with
  | int n => exact Number.rereads_int held
  | double d => exact Number.rereads_double held

/-! ## What is read back is held -/

/-- A double that has bits of its own is not infinite. -/
theorem magnitudeBits_of_ofBits? {negative : Bool} {magnitude : Nat} {d : Binary64}
    (found : Binary64.ofBits? negative magnitude = some d) : d.magnitudeBits < infinityBits := by
  unfold Binary64.ofBits? at found
  split at found
  · next finite =>
    cases found
    unfold infinityBits at *
    simp only [Binary64.magnitudeBits]
    cases negative <;> simp <;> omega
  · cases found

/-- A double that a text denotes is not infinite. -/
theorem NumberParts.held_of_value {p : NumberParts} {d : Binary64}
    (ok : p.value = .ok (.double d)) : (Number.double d).Held := by
  have scaled {negative : Bool} {s : Nat} {e : Int}
      (found : doubleOfParts negative s e = .ok (.double d)) : (Number.double d).Held := by
    unfold doubleOfParts at found
    split at found
    · split at found
      · next finite =>
        cases found
        exact magnitudeBits_of_ofBits? finite
      · cases found
    · cases found
  have zero (negative : Bool) : (Number.double (Binary64.zero negative)).Held := by
    show (Binary64.zero negative).magnitudeBits < infinityBits
    cases negative <;> decide +kernel
  unfold NumberParts.value at ok
  dsimp only at ok
  repeat' split at ok
  all_goals first
    | exact scaled ok
    | cases ok
  all_goals exact zero p.negative

theorem Number.held_rounded {n : Number} (held : n.Held) : n.rounded.Held := by
  cases n with
  | int n => exact held
  | double d =>
    rw [Number.rounded]
    split
    · next d' read =>
      unfold Number.reread at read
      split at read
      · exact NumberParts.held_of_value read
      · cases read
    · exact held
mutual

/-- What is read back is held again. -/
theorem held_rounded : ∀ v : Json, v.Held → v.rounded.Held
  | .null, held => held
  | .bool _, held => held
  | .number _, held => Number.held_rounded held
  | .string _, held => held
  | .array items, held => heldItems_rounded items held
  | .object ms, held => by
    refine ⟨?_, heldMembers_rounded ms held.2⟩
    rw [roundedMembers_eq_map]
    exact List.pairwise_map.2 held.1

theorem heldItems_rounded : ∀ items : List Json, HeldItems items → HeldItems (roundedItems items)
  | [], held => held
  | v :: rest, held => ⟨held_rounded v held.1, heldItems_rounded rest held.2⟩

theorem heldMembers_rounded :
    ∀ ms : List (String × Json), HeldMembers ms → HeldMembers (roundedMembers ms)
  | [], held => held
  | (_, v) :: rest, held => ⟨held_rounded v held.1, heldMembers_rounded rest held.2⟩

end

end DialogueEngine.Json
