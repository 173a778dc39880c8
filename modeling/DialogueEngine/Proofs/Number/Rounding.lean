import DialogueEngine.Number.Binary64
import Mathlib.Algebra.Order.Field.Power
import Mathlib.Data.Rat.Cast.Order
import Mathlib.Tactic.FieldSimp
import Mathlib.Tactic.GCongr
import Mathlib.Tactic.Linarith
import Mathlib.Tactic.NormNum
import Mathlib.Tactic.Positivity
import Mathlib.Tactic.Ring

/-!
Rounding to doubles keeps the order. A quotient has an exponent that grows with it, and at one
exponent its significand grows with it; so the bits of the nearest double grow, and with them those
of products and quotients of doubles.
-/

namespace DialogueEngine.Binary64

/-! ## Integers -/

theorem roundDiv_mono {num den num' den' : Nat} (positive : 0 < den) (positive' : 0 < den')
    (le : num * den' ≤ num' * den) : roundDiv num den ≤ roundDiv num' den' := by
  have floor := Nat.div_add_mod num den
  have floor' := Nat.div_add_mod num' den'
  have quotients : num / den ≤ num' / den' := by
    rw [Nat.le_div_iff_mul_le positive']
    refine Nat.le_of_mul_le_mul_right ?_ positive
    calc
      num / den * den' * den = num / den * den * den' := by ring
      _ ≤ num * den' := Nat.mul_le_mul_right _ (Nat.div_mul_le_self num den)
      _ ≤ num' * den := le
  have up : roundDiv num den ≤ num / den + 1 := by
    simp only [roundDiv]
    split_ifs <;> omega
  have down : num' / den' ≤ roundDiv num' den' := by
    simp only [roundDiv]
    split_ifs <;> omega
  rcases Nat.lt_or_eq_of_le quotients with less | same
  · omega
  · have rests : num % den * den' ≤ num' % den' * den := by
      have left : num * den' = den * (num / den) * den' + num % den * den' := by
        rw [← Nat.add_mul, floor]
      have right : num' * den = den' * (num / den) * den + num' % den' * den := by
        rw [same, ← Nat.add_mul, floor']
      have common : den * (num / den) * den' = den' * (num / den) * den := by ring
      omega
    have above (half : den ≤ 2 * (num % den)) : den' ≤ 2 * (num' % den') := by
      refine Nat.le_of_mul_le_mul_right ?_ positive
      calc
        den' * den = den * den' := Nat.mul_comm _ _
        _ ≤ 2 * (num % den) * den' := Nat.mul_le_mul_right _ half
        _ = 2 * (num % den * den') := Nat.mul_assoc _ _ _
        _ ≤ 2 * (num' % den' * den) := Nat.mul_le_mul_left _ rests
        _ = 2 * (num' % den') * den := (Nat.mul_assoc _ _ _).symm
    have beyond (more : den < 2 * (num % den)) : den' < 2 * (num' % den') := by
      refine Nat.lt_of_mul_lt_mul_right (a := den) ?_
      calc
        den' * den = den * den' := Nat.mul_comm _ _
        _ < 2 * (num % den) * den' := Nat.mul_lt_mul_of_pos_right more positive'
        _ = 2 * (num % den * den') := Nat.mul_assoc _ _ _
        _ ≤ 2 * (num' % den' * den) := Nat.mul_le_mul_left _ rests
        _ = 2 * (num' % den') * den := (Nat.mul_assoc _ _ _).symm
    simp only [roundDiv, ← same]
    split_ifs <;> omega

theorem roundDiv_whole (n : Nat) : roundDiv n 1 = n := by
  simp [roundDiv, Nat.mod_one]

theorem roundDiv_le {num den most : Nat} (positive : 0 < den) (le : num ≤ most * den) :
    roundDiv num den ≤ most := by
  have mono := roundDiv_mono positive Nat.one_pos (by omega : num * 1 ≤ most * den)
  rwa [roundDiv_whole] at mono

theorem le_roundDiv {num den least : Nat} (positive : 0 < den) (le : least * den ≤ num) :
    least ≤ roundDiv num den := by
  have mono := roundDiv_mono Nat.one_pos positive (by omega : least * den ≤ num * 1)
  rwa [roundDiv_whole] at mono

/-! ## Quotients -/

theorem natPow_eq (k : Int) (up : 0 ≤ k) : ((2 ^ k.toNat : Nat) : ℚ) = 2 ^ k := by
  obtain ⟨n, rfl⟩ := Int.eq_ofNat_of_zero_le up
  simp

theorem natPow_neg (k : Int) (down : k < 0) : ((2 ^ (-k).toNat : Nat) : ℚ) * 2 ^ k = 1 := by
  rw [natPow_eq (-k) (by omega), ← zpow_add₀ (by norm_num)]
  simp

theorem belowPower_iff {num den : Nat} (positive : 0 < den) (k : Int) :
    belowPower num den k = true ↔ (num : ℚ) / den < 2 ^ k := by
  have den' : (0 : ℚ) < den := by exact_mod_cast positive
  rw [div_lt_iff₀ den', belowPower]
  split
  · next up =>
    rw [decide_eq_true_iff, ← natPow_eq k up, mul_comm, ← Nat.cast_mul, Nat.cast_lt]
  · next down =>
    have inverse := natPow_neg k (by omega)
    have power : (0 : ℚ) < 2 ^ k := by positivity
    rw [decide_eq_true_iff]
    constructor
    · intro less
      have cast : (num : ℚ) * (2 ^ (-k).toNat : Nat) < den := by exact_mod_cast less
      calc
        (num : ℚ) = num * (2 ^ (-k).toNat : Nat) * 2 ^ k := by rw [mul_assoc, inverse, mul_one]
        _ < den * 2 ^ k := mul_lt_mul_of_pos_right cast power
        _ = 2 ^ k * den := mul_comm _ _
    · intro less
      have cast : (num : ℚ) * (2 ^ (-k).toNat : Nat) < den := by
        refine lt_of_mul_lt_mul_right ?_ power.le
        calc
          (num : ℚ) * (2 ^ (-k).toNat : Nat) * 2 ^ k = num := by rw [mul_assoc, inverse, mul_one]
          _ < 2 ^ k * den := less
          _ = den * 2 ^ k := mul_comm _ _
      exact_mod_cast cast

/-- The logarithms of numerator and denominator enclose the quotient. -/
theorem quotient_bounds {num den : Nat} (some : 0 < num) (positive : 0 < den) :
    (2 : ℚ) ^ ((num.log2 : Int) - den.log2 - 1) ≤ (num : ℚ) / den ∧
      (num : ℚ) / den < 2 ^ ((num.log2 : Int) - den.log2 + 1) := by
  have bounds (n : Nat) (nonzero : 0 < n) : (2 : ℚ) ^ (n.log2 : Int) ≤ n ∧
      (n : ℚ) < 2 ^ ((n.log2 : Int) + 1) := by
    have low : 2 ^ n.log2 ≤ n := Nat.log2_self_le nonzero.ne'
    have high : n < 2 ^ (n.log2 + 1) := Nat.lt_log2_self
    exact ⟨by exact_mod_cast low, by exact_mod_cast high⟩
  obtain ⟨numLow, numHigh⟩ := bounds num some
  obtain ⟨denLow, denHigh⟩ := bounds den positive
  have den' : (0 : ℚ) < den := by exact_mod_cast positive
  constructor
  · rw [le_div_iff₀ den']
    calc
      (2 : ℚ) ^ ((num.log2 : Int) - den.log2 - 1) * den
          ≤ 2 ^ ((num.log2 : Int) - den.log2 - 1) * 2 ^ ((den.log2 : Int) + 1) := by gcongr
      _ = 2 ^ (num.log2 : Int) := by
        rw [← zpow_add₀ (by norm_num)]
        congr 1
        ring
      _ ≤ num := numLow
  · rw [div_lt_iff₀ den']
    calc
      (num : ℚ) < 2 ^ ((num.log2 : Int) + 1) := numHigh
      _ = 2 ^ ((num.log2 : Int) - den.log2 + 1) * 2 ^ (den.log2 : Int) := by
        rw [← zpow_add₀ (by norm_num)]
        congr 1
        ring
      _ ≤ 2 ^ ((num.log2 : Int) - den.log2 + 1) * den := by gcongr

/-- At its exponent a quotient has no more than 53 bits, and no fewer unless it is subnormal. -/
theorem exponentOf_spec {num den : Nat} (some : 0 < num) (positive : 0 < den) :
    -1074 ≤ exponentOf num den ∧ (num : ℚ) / den < 2 ^ (exponentOf num den + 53) ∧
      (exponentOf num den = -1074 ∨ (2 : ℚ) ^ (exponentOf num den + 52) ≤ (num : ℚ) / den) := by
  obtain ⟨low, high⟩ := quotient_bounds some positive
  have test := @belowPower_iff num den positive ((num.log2 : Int) - den.log2)
  have grow {k l : Int} (le : k ≤ l) : (2 : ℚ) ^ k ≤ 2 ^ l :=
    zpow_le_zpow_right₀ (by norm_num) le
  unfold exponentOf
  dsimp only
  by_cases below : belowPower num den ((num.log2 : Int) - den.log2) = true
  · rw [if_pos below]
    refine ⟨le_max_right _ _, (test.1 below).trans_le (grow (by omega)), ?_⟩
    rcases le_total ((num.log2 : Int) - den.log2 - 1 - 52) (-1074) with small | large
    · exact .inl (max_eq_right small)
    · exact .inr ((grow (by omega)).trans low)
  · rw [if_neg below]
    have least := not_lt.1 (below ∘ test.2)
    refine ⟨le_max_right _ _, high.trans_le (grow (by omega)), ?_⟩
    rcases le_total ((num.log2 : Int) - den.log2 - 52) (-1074) with small | large
    · exact .inl (max_eq_right small)
    · exact .inr ((grow (by omega)).trans least)

theorem exponentOf_mono {num den num' den' : Nat} (some : 0 < num) (positive : 0 < den)
    (some' : 0 < num') (positive' : 0 < den') (le : (num : ℚ) / den ≤ num' / den') :
    exponentOf num den ≤ exponentOf num' den' := by
  obtain ⟨-, -, low⟩ := exponentOf_spec some positive
  obtain ⟨least, high, -⟩ := exponentOf_spec some' positive'
  rcases low with subnormal | low
  · omega
  · by_contra more
    have step : (2 : ℚ) ^ (exponentOf num' den' + 53) ≤ 2 ^ (exponentOf num den + 52) :=
      zpow_le_zpow_right₀ (by norm_num) (by omega)
    linarith

theorem roundScaled_mono {num den num' den' : Nat} (positive : 0 < den) (positive' : 0 < den')
    (e : Int) (le : num * den' ≤ num' * den) :
    roundScaled num den e ≤ roundScaled num' den' e := by
  unfold roundScaled
  split
  · refine roundDiv_mono (by positivity) (by positivity) ?_
    calc
      num * (den' * 2 ^ e.toNat) = num * den' * 2 ^ e.toNat := by ring
      _ ≤ num' * den * 2 ^ e.toNat := Nat.mul_le_mul_right _ le
      _ = num' * (den * 2 ^ e.toNat) := by ring
  · refine roundDiv_mono positive positive' ?_
    calc
      num * 2 ^ (-e).toNat * den' = num * den' * 2 ^ (-e).toNat := by ring
      _ ≤ num' * den * 2 ^ (-e).toNat := Nat.mul_le_mul_right _ le
      _ = num' * 2 ^ (-e).toNat * den := by ring

/-- The multiple `c` of `2 ^ e` as a quotient. -/
theorem roundScaled_le {num den c : Nat} (positive : 0 < den) {e : Int}
    (le : (num : ℚ) / den ≤ c * 2 ^ e) : roundScaled num den e ≤ c := by
  have den' : (0 : ℚ) < den := by exact_mod_cast positive
  rw [div_le_iff₀ den'] at le
  unfold roundScaled
  split
  · next up =>
    rw [← natPow_eq e up] at le
    refine roundDiv_le (by positivity) ?_
    have product : num ≤ c * 2 ^ e.toNat * den := by exact_mod_cast le
    linarith
  · next down =>
    have inverse := natPow_neg e (by omega)
    refine roundDiv_le positive ?_
    have product : (num : ℚ) * (2 ^ (-e).toNat : Nat) ≤ c * den := by
      calc
        (num : ℚ) * (2 ^ (-e).toNat : Nat) ≤ c * 2 ^ e * den * (2 ^ (-e).toNat : Nat) := by gcongr
        _ = c * den * ((2 ^ (-e).toNat : Nat) * 2 ^ e) := by ring
        _ = c * den := by rw [inverse, mul_one]
    exact_mod_cast product

theorem le_roundScaled {num den c : Nat} (positive : 0 < den) {e : Int}
    (le : (c : ℚ) * 2 ^ e ≤ num / den) : c ≤ roundScaled num den e := by
  have den' : (0 : ℚ) < den := by exact_mod_cast positive
  rw [le_div_iff₀ den'] at le
  unfold roundScaled
  split
  · next up =>
    rw [← natPow_eq e up] at le
    refine le_roundDiv (by positivity) ?_
    have product : c * 2 ^ e.toNat * den ≤ num := by exact_mod_cast le
    linarith
  · next down =>
    have inverse := natPow_neg e (by omega)
    refine le_roundDiv positive ?_
    have product : (c : ℚ) * den ≤ num * (2 ^ (-e).toNat : Nat) := by
      calc
        (c : ℚ) * den = c * den * ((2 ^ (-e).toNat : Nat) * 2 ^ e) := by rw [inverse, mul_one]
        _ = c * 2 ^ e * den * (2 ^ (-e).toNat : Nat) := by ring
        _ ≤ num * (2 ^ (-e).toNat : Nat) := by gcongr
    exact_mod_cast product

/-- Of two quotients the greater has the greater bits. -/
theorem nearestBits_mono {num den num' den' : Nat} (positive : 0 < den) (positive' : 0 < den')
    (le : (num : ℚ) / den ≤ num' / den') : nearestBits num den ≤ nearestBits num' den' := by
  rcases Nat.eq_zero_or_pos num with rfl | some
  · simp [nearestBits]
  have product : num * den' ≤ num' * den := by
    have den₀ : (0 : ℚ) < den := by exact_mod_cast positive
    have den₁ : (0 : ℚ) < den' := by exact_mod_cast positive'
    rw [div_le_div_iff₀ den₀ den₁] at le
    exact_mod_cast le
  have some' : 0 < num' := Nat.pos_of_ne_zero fun none => by
    have : 0 < num * den' := Nat.mul_pos some positive'
    simp [none] at product
    omega
  have exponents := exponentOf_mono some positive some' positive' le
  obtain ⟨least, high, -⟩ := exponentOf_spec some positive
  obtain ⟨-, -, low'⟩ := exponentOf_spec some' positive'
  simp only [nearestBits, if_neg some.ne', if_neg some'.ne']
  rcases exponents.lt_or_eq with less | same
  · have most : roundScaled num den (exponentOf num den) ≤ 2 ^ 53 := by
      refine roundScaled_le positive (high.le.trans_eq ?_)
      rw [zpow_add₀ (by norm_num)]
      norm_num
      ring
    have fewest : 2 ^ 52 ≤ roundScaled num' den' (exponentOf num' den') := by
      refine le_roundScaled positive' (Eq.trans_le ?_ (low'.resolve_left (by omega)))
      rw [zpow_add₀ (by norm_num)]
      norm_num
      ring
    omega
  · rw [same]
    have significands := roundScaled_mono positive positive' (exponentOf num' den') product
    omega

/-! ## Products and quotients of doubles -/

/-- The value of the magnitude with such bits. -/
def ofMagnitude (bits : Nat) : ℚ :=
  (scaledOfBits bits).significand * 2 ^ (scaledOfBits bits).exponent

theorem ratio_den_pos (s : Scaled) : 0 < s.ratio.2 := by
  unfold Scaled.ratio
  split <;> positivity

theorem ratio_eq (bits : Nat) :
    ((scaledOfBits bits).ratio.1 : ℚ) / (scaledOfBits bits).ratio.2 = ofMagnitude bits := by
  unfold Scaled.ratio ofMagnitude
  split
  · next up => rw [Nat.cast_mul, natPow_eq _ up, Nat.cast_one, div_one]
  · next down =>
    have inverse := natPow_neg (scaledOfBits bits).exponent (by omega)
    have power : ((2 ^ (-(scaledOfBits bits).exponent).toNat : Nat) : ℚ) ≠ 0 := by positivity
    rw [div_eq_iff power, mul_assoc, mul_comm (2 ^ _), inverse, mul_one]

theorem ofMagnitude_nonneg (bits : Nat) : 0 ≤ ofMagnitude bits := by
  unfold ofMagnitude
  positivity

theorem ofMagnitude_mono {a b : Nat} (le : a ≤ b) : ofMagnitude a ≤ ofMagnitude b := by
  have grow {k l : Int} (le : k ≤ l) : (2 : ℚ) ^ k ≤ 2 ^ l :=
    zpow_le_zpow_right₀ (by norm_num) le
  have parts : a / 2 ^ 52 ≤ b / 2 ^ 52 := Nat.div_le_div_right le
  unfold ofMagnitude scaledOfBits
  dsimp only
  split
  · next subnormal =>
    have small : a % 2 ^ 52 ≤ 2 ^ 52 := (Nat.mod_lt _ (by positivity)).le
    split
    · next subnormal' =>
      have fractions : a % 2 ^ 52 ≤ b % 2 ^ 52 := by omega
      dsimp only
      gcongr
    · next normal' =>
      have fractions : a % 2 ^ 52 ≤ b % 2 ^ 52 + 2 ^ 52 := by omega
      have exponents : (-1074 : Int) ≤ Int.ofNat (b / 2 ^ 52) - 1075 := by
        simp only [Int.ofNat_eq_natCast]
        omega
      have := grow exponents
      dsimp only
      gcongr
  · next normal =>
    rw [if_neg (by omega : ¬ b / 2 ^ 52 = 0)]
    dsimp only
    rcases Nat.lt_or_eq_of_le parts with less | same
    · have small : a % 2 ^ 52 + 2 ^ 52 ≤ 2 ^ 53 := by
        have := Nat.mod_lt a (show 0 < 2 ^ 52 by positivity)
        omega
      have exponents : Int.ofNat (a / 2 ^ 52) - 1075 + 1 ≤ Int.ofNat (b / 2 ^ 52) - 1075 := by
        simp only [Int.ofNat_eq_natCast]
        omega
      have cast : ((a % 2 ^ 52 + 2 ^ 52 : Nat) : ℚ) ≤ 2 ^ 53 := by exact_mod_cast small
      have cast' : (2 : ℚ) ^ 52 ≤ ((b % 2 ^ 52 + 2 ^ 52 : Nat) : ℚ) := by
        exact_mod_cast Nat.le_add_left _ _
      calc
        ((a % 2 ^ 52 + 2 ^ 52 : Nat) : ℚ) * 2 ^ (Int.ofNat (a / 2 ^ 52) - 1075)
            ≤ 2 ^ 53 * 2 ^ (Int.ofNat (a / 2 ^ 52) - 1075) := by gcongr
        _ = 2 ^ 52 * 2 ^ (Int.ofNat (a / 2 ^ 52) - 1075 + 1) := by
          rw [zpow_add₀ (by norm_num : (2 : ℚ) ≠ 0)]
          ring
        _ ≤ 2 ^ 52 * 2 ^ (Int.ofNat (b / 2 ^ 52) - 1075) := by
          have := grow exponents
          gcongr
        _ ≤ ((b % 2 ^ 52 + 2 ^ 52 : Nat) : ℚ) * 2 ^ (Int.ofNat (b / 2 ^ 52) - 1075) := by gcongr
    · rw [same]
      have fractions : a % 2 ^ 52 ≤ b % 2 ^ 52 := by omega
      gcongr

theorem mulBits_eq (a b : Nat) : mulBits a b =
    nearestBits ((scaledOfBits a).ratio.1 * (scaledOfBits b).ratio.1)
      ((scaledOfBits a).ratio.2 * (scaledOfBits b).ratio.2) := rfl

theorem divBits_eq (a b : Nat) : divBits a b =
    nearestBits ((scaledOfBits a).ratio.1 * (scaledOfBits b).ratio.2)
      ((scaledOfBits a).ratio.2 * (scaledOfBits b).ratio.1) := rfl

theorem mulBits_mono {a b a' b' : Nat} (first : a ≤ a') (second : b ≤ b') :
    mulBits a b ≤ mulBits a' b' := by
  rw [mulBits_eq, mulBits_eq]
  refine nearestBits_mono (Nat.mul_pos (ratio_den_pos _) (ratio_den_pos _))
    (Nat.mul_pos (ratio_den_pos _) (ratio_den_pos _)) ?_
  rw [Nat.cast_mul, Nat.cast_mul, Nat.cast_mul, Nat.cast_mul, mul_div_mul_comm, mul_div_mul_comm,
    ratio_eq, ratio_eq, ratio_eq, ratio_eq]
  exact mul_le_mul (ofMagnitude_mono first) (ofMagnitude_mono second) (ofMagnitude_nonneg b)
    (ofMagnitude_nonneg a')

theorem ratio_num_pos {bits : Nat} (some : 0 < bits) : 0 < (scaledOfBits bits).ratio.1 := by
  have significand : 0 < (scaledOfBits bits).significand := by
    unfold scaledOfBits
    dsimp only
    split <;> dsimp only <;> omega
  unfold Scaled.ratio
  split <;> positivity

/-- A quotient grows with its dividend and falls with its divisor. -/
theorem divBits_mono {a b a' b' : Nat} (some : 0 < b) (first : a ≤ a') (second : b' ≤ b)
    (some' : 0 < b') : divBits a b ≤ divBits a' b' := by
  rw [divBits_eq, divBits_eq]
  refine nearestBits_mono (Nat.mul_pos (ratio_den_pos _) (ratio_num_pos some))
    (Nat.mul_pos (ratio_den_pos _) (ratio_num_pos some')) ?_
  have value (x y : Nat) : (((scaledOfBits x).ratio.1 * (scaledOfBits y).ratio.2 : Nat) : ℚ) /
      ((scaledOfBits x).ratio.2 * (scaledOfBits y).ratio.1 : Nat) =
        ofMagnitude x / ofMagnitude y := by
    rw [Nat.cast_mul, Nat.cast_mul, mul_div_mul_comm, ratio_eq, ← inv_div, ratio_eq,
      div_eq_mul_inv]
  have positive : 0 < ofMagnitude b' := by
    rw [← ratio_eq]
    have num : (0 : ℚ) < (scaledOfBits b').ratio.1 := by exact_mod_cast ratio_num_pos some'
    have den : (0 : ℚ) < (scaledOfBits b').ratio.2 := by exact_mod_cast ratio_den_pos _
    positivity
  have dividends := ofMagnitude_mono first
  have divisors := ofMagnitude_mono second
  have nonneg := ofMagnitude_nonneg a'
  rw [value, value]
  gcongr

end DialogueEngine.Binary64
