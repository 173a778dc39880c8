import DialogueEngine.Number.Shortest
import Mathlib.Algebra.Order.Field.Power
import Mathlib.Data.Rat.Cast.Order
import Mathlib.Tactic.FieldSimp
import Mathlib.Tactic.Linarith
import Mathlib.Tactic.NormNum
import Mathlib.Tactic.Positivity
import Mathlib.Tactic.Ring

/-!
The search for the shortest digits of a double always ends with a hit. Eighteen grids below the
leading digit the multiples lie closer together than the ends of the interval, so that one of them
is inside; and a hit is never zero.
-/

namespace DialogueEngine.Number

/-! ## The leading digit -/

theorem logTen_spec {fuel n : Nat} (positive : 0 < n) (enough : n ≤ fuel) :
    10 ^ logTen fuel n ≤ n ∧ n < 10 ^ (logTen fuel n + 1) := by
  induction fuel generalizing n with
  | zero => omega
  | succ fuel ih =>
    unfold logTen
    split
    · next small => exact ⟨by rwa [Nat.pow_zero], by simpa using small⟩
    · next large =>
      obtain ⟨low, high⟩ := ih (n := n / 10) (by omega) (by omega)
      rw [Nat.pow_succ] at high
      constructor
      · rw [Nat.pow_succ]
        omega
      · rw [Nat.pow_succ, Nat.pow_succ]
        omega

namespace Interval

variable {i : Interval}

/-- The factor of a value in units of the interval. -/
def up (i : Interval) (e : Int) : Nat :=
  (if 0 ≤ i.unit then 2 ^ i.unit.toNat else 1) * if 0 ≤ e then 1 else 10 ^ (-e).toNat

/-- The divisor of a value in units of the interval. -/
def down (i : Interval) (e : Int) : Nat :=
  (if 0 ≤ i.unit then 1 else 2 ^ (-i.unit).toNat) * if 0 ≤ e then 10 ^ e.toNat else 1

theorem quotient_eq (i : Interval) (n : Nat) (e : Int) :
    i.quotient n e = (n * i.up e, i.down e) := by
  simp only [quotient, up, down, Nat.mul_assoc]

theorem up_pos (i : Interval) (e : Int) : 0 < i.up e := by
  unfold up
  split <;> split <;> positivity

theorem down_pos (i : Interval) (e : Int) : 0 < i.down e := by
  unfold down
  split <;> split <;> positivity

theorem cast_power (b : Nat) (positive : 0 < b) (e : Int) :
    ((if 0 ≤ e then b ^ e.toNat else 1 : Nat) : ℚ) =
      (b : ℚ) ^ e * ((if 0 ≤ e then 1 else b ^ (-e).toNat : Nat) : ℚ) := by
  have nonzero : (b : ℚ) ≠ 0 := by exact_mod_cast positive.ne'
  split
  · next up =>
    obtain ⟨n, rfl⟩ := Int.eq_ofNat_of_zero_le up
    simp
  · next down =>
    obtain ⟨n, same⟩ := Int.eq_ofNat_of_zero_le (a := -e) (by omega)
    rw [same]
    obtain rfl : e = -(n : Int) := by omega
    simp [nonzero]

/-- One unit of the interval, measured in multiples of `10 ^ e`. -/
theorem up_div_down (i : Interval) (e : Int) :
    (i.up e : ℚ) * (10 : ℚ) ^ e = (i.down e : ℚ) * (2 : ℚ) ^ i.unit := by
  have two := cast_power 2 (by decide) i.unit
  have ten := cast_power 10 (by decide) e
  unfold up down
  push_cast at two ten ⊢
  rw [two, ten]
  ring

theorem down_le_up {e : Int} (fine : (10 : ℚ) ^ e ≤ 2 ^ i.unit) : i.down e ≤ i.up e := by
  have same := up_div_down i e
  have ten : (0 : ℚ) < 10 ^ e := by positivity
  have le : (i.down e : ℚ) * 10 ^ e ≤ i.up e * 10 ^ e := by
    rw [same]
    gcongr
  exact_mod_cast le_of_mul_le_mul_right le ten

/-- The value is at least the power of ten of its leading digit. -/
theorem leading_le (positive : 0 < i.value) :
    (10 : ℚ) ^ i.leading ≤ i.value * 2 ^ i.unit := by
  have unit := up_div_down i 0
  have down : (0 : ℚ) < i.down 0 := by exact_mod_cast i.down_pos 0
  have ten : (0 : ℚ) < 10 := by norm_num
  rw [zpow_zero, mul_one] at unit
  have num : 0 < i.value * i.up 0 := Nat.mul_pos positive (i.up_pos 0)
  -- All is compared over the divisor at the grid of ones.
  suffices scaled : (10 : ℚ) ^ i.leading * i.down 0 ≤ ((i.value * i.up 0 : Nat) : ℚ) by
    refine le_of_mul_le_mul_right ?_ down
    calc
      (10 : ℚ) ^ i.leading * i.down 0 ≤ i.value * (i.up 0 : ℚ) := by exact_mod_cast scaled
      _ = i.value * 2 ^ i.unit * i.down 0 := by
        rw [unit]
        ring
  simp only [leading, quotient_eq]
  split
  · next large =>
    have some : 0 < i.value * i.up 0 / i.down 0 := Nat.div_pos large (i.down_pos 0)
    have low := (logTen_spec some (Nat.le_refl _)).1
    have product := (Nat.le_div_iff_mul_le (i.down_pos 0)).1 low
    rw [zpow_natCast]
    exact_mod_cast product
  · next small =>
    have some : 0 < i.down 0 / (i.value * i.up 0) := Nat.div_pos (by omega) num
    have high := (logTen_spec some (Nat.le_refl _)).2
    have bound := (Nat.div_lt_iff_lt_mul num).1 high
    have inverse (k : Nat) (le : i.down 0 ≤ i.value * i.up 0 * 10 ^ k) :
        (10 : ℚ) ^ (-(k : Int)) * i.down 0 ≤ ((i.value * i.up 0 : Nat) : ℚ) := by
      have le' : (i.down 0 : ℚ) ≤ ((i.value * i.up 0 : Nat) : ℚ) * 10 ^ k := by exact_mod_cast le
      rw [zpow_neg, zpow_natCast, inv_mul_le_iff₀ (by positivity), mul_comm]
      exact le'
    split
    · next exact => exact inverse _ exact
    · have le := inverse _ (Nat.le_of_lt (by rwa [Nat.mul_comm] at bound))
      exact_mod_cast le

/-! ## Hits -/

theorem neighbour_ne_zero {e : Int} {digits : Nat} (hit : i.neighbour? e = some digits) :
    digits ≠ 0 := by
  simp only [neighbour?] at hit
  split at hit
  · next below above =>
    have some := (Bool.and_eq_true _ _ ▸ below).2
    split at hit
    · cases hit
      simpa using some
    · split at hit
      · cases hit
        exact Nat.succ_ne_zero _
      · split at hit <;> cases hit
        · simpa using some
        · exact Nat.succ_ne_zero _
  · next below above =>
    have some := (Bool.and_eq_true _ _ ▸ below).2
    cases hit
    simpa using some
  · cases hit
    exact Nat.succ_ne_zero _
  · cases hit

/-- Where the grid is finer than a unit, the multiple below the value is inside the interval. -/
theorem neighbour_isSome {e : Int} (fine : i.down e ≤ i.up e) (positive : 0 < i.value)
    (low : i.low < i.value) (high : i.value < i.high) : (i.neighbour? e).isSome = true := by
  have downPos := i.down_pos e
  have upPos := i.up_pos e
  have floor := Nat.div_add_mod (i.value * i.up e) (i.down e)
  have left := Nat.mod_lt (i.value * i.up e) downPos
  have below : i.low * i.up e < i.value * i.up e / i.down e * i.down e := by
    have step : (i.low + 1) * i.up e ≤ i.value * i.up e := Nat.mul_le_mul_right _ low
    rw [Nat.add_mul, Nat.one_mul] at step
    rw [Nat.mul_comm (_ / _)]
    omega
  have above : i.value * i.up e / i.down e * i.down e < i.high * i.up e :=
    Nat.lt_of_le_of_lt (Nat.div_mul_le_self _ _) (Nat.mul_lt_mul_of_pos_right high upPos)
  have some : i.value * i.up e / i.down e ≠ 0 := by
    have one : i.up e ≤ i.value * i.up e := Nat.le_mul_of_pos_left _ positive
    exact (Nat.div_pos (fine.trans one) downPos).ne'
  have holds : i.holds (i.value * i.up e / i.down e) e = true := by
    simp only [Interval.holds, quotient_eq]
    split <;> simp [below, above, below.le, above.le]
  have inside : (i.holds (i.value * i.up e / i.down e) e && i.value * i.up e / i.down e != 0) =
      true := by
    rw [holds]
    simpa using some
  simp only [neighbour?, quotient_eq, inside]
  cases i.holds (i.value * i.up e / i.down e + 1) e with
  | false => rfl
  | true =>
    dsimp only
    split
    · rfl
    · split
      · rfl
      · split <;> rfl

theorem search_digits {fuel : Nat} {e : Int} {k : Nat} (within : k < fuel)
    (hit : (i.neighbour? (e - k)).isSome = true) : (i.search fuel e).digits ≠ 0 := by
  induction fuel generalizing e k with
  | zero => omega
  | succ fuel ih =>
    unfold search
    split
    · next digits found => exact neighbour_ne_zero found
    · next missed =>
      cases k with
      | zero => simp [missed] at hit
      | succ k =>
        apply ih (k := k) (by omega)
        rw [show e - 1 - (k : Int) = e - ((k + 1 : Nat) : Int) by push_cast; ring]
        exact hit

/-- Within twenty grids the search hits. -/
theorem search_leading (positive : 0 < i.value) (bounded : i.value ≤ 10 ^ 17)
    (low : i.low < i.value) (high : i.value < i.high) :
    (i.search 20 (i.leading + 1)).digits ≠ 0 := by
  refine search_digits (k := 18) (by decide) (neighbour_isSome (down_le_up ?_) positive low high)
  have leading := leading_le positive
  have value : (i.value : ℚ) ≤ 10 ^ 17 := by exact_mod_cast bounded
  have unit : (0 : ℚ) < 2 ^ i.unit := by positivity
  calc
    (10 : ℚ) ^ (i.leading + 1 - ((18 : Nat) : Int)) = 10 ^ i.leading / 10 ^ 17 := by
      rw [show i.leading + 1 - ((18 : Nat) : Int) = i.leading - 17 by push_cast; ring,
        zpow_sub₀ (by norm_num)]
      norm_num
    _ ≤ i.value * 2 ^ i.unit / 10 ^ 17 := by gcongr
    _ ≤ 10 ^ 17 * 2 ^ i.unit / 10 ^ 17 := by gcongr
    _ = 2 ^ i.unit := by field_simp

end Interval

theorem Decimal.trim_digits {fuel : Nat} {d : Decimal} (some : d.digits ≠ 0) :
    (Decimal.trim fuel d).digits ≠ 0 := by
  induction fuel generalizing d with
  | zero => exact some
  | succ fuel ih =>
    unfold Decimal.trim
    split
    · next trailing =>
      apply ih
      dsimp only
      omega
    · exact some

/-- The shortest digits of a double that is not zero are not zero. -/
theorem shortest_digits {d : Binary64} (nonzero : d.isZero = false) : (shortest d).digits ≠ 0 := by
  apply Decimal.trim_digits
  have bits : d.magnitudeBits ≠ 0 := by simpa [Binary64.isZero] using nonzero
  have significand : 0 < d.scaled.significand ∧ d.scaled.significand < 2 ^ 53 := by
    simp only [Binary64.scaled, Binary64.scaledOfBits]
    split <;> dsimp only <;> omega
  have value : (Interval.ofScaled d.scaled).value = 4 * d.scaled.significand := rfl
  refine Interval.search_leading ?_ ?_ ?_ ?_
  · omega
  · rw [value]
    omega
  · simp only [Interval.ofScaled]
    split <;> omega
  · simp only [Interval.ofScaled]
    omega

end DialogueEngine.Number
