import DialogueEngine.Proofs.Number.Rounding
import DialogueEngine.Proofs.Number.Shortest

/-!
The size of the shortest digits. A hit lies inside the interval of its double and no more than
nineteen grids below the leading digit; so the digits fit 64 bits, and with their power of ten they
stay below the end of the interval.
-/

namespace DialogueEngine.Number

open Binary64 (ofMagnitude infinityBits)

namespace Interval

variable {i : Interval}

/-- The value is less than the power of ten beyond its leading digit. -/
theorem lt_leading (positive : 0 < i.value) :
    (i.value : ℚ) * 2 ^ i.unit < 10 ^ (i.leading + 1) := by
  have unit := up_div_down i 0
  have down : (0 : ℚ) < i.down 0 := by exact_mod_cast i.down_pos 0
  rw [zpow_zero, mul_one] at unit
  have num : 0 < i.value * i.up 0 := Nat.mul_pos positive (i.up_pos 0)
  suffices scaled : ((i.value * i.up 0 : Nat) : ℚ) < 10 ^ (i.leading + 1) * i.down 0 by
    refine lt_of_mul_lt_mul_right ?_ down.le
    calc
      (i.value : ℚ) * 2 ^ i.unit * i.down 0 = i.value * (i.up 0 : ℚ) := by
        rw [unit]
        ring
      _ < 10 ^ (i.leading + 1) * i.down 0 := by exact_mod_cast scaled
  simp only [leading, quotient_eq]
  split
  · next large =>
    have some : 0 < i.value * i.up 0 / i.down 0 := Nat.div_pos large (i.down_pos 0)
    have high := (logTen_spec some (Nat.le_refl _)).2
    have product := (Nat.div_lt_iff_lt_mul (i.down_pos 0)).1 high
    rw [← Nat.cast_add_one, zpow_natCast]
    exact_mod_cast product
  · next small =>
    have some : 0 < i.down 0 / (i.value * i.up 0) := Nat.div_pos (by omega) num
    have low := (logTen_spec some (Nat.le_refl _)).1
    have product := (Nat.le_div_iff_mul_le num).1 low
    generalize logTen (i.down 0 / (i.value * i.up 0)) (i.down 0 / (i.value * i.up 0)) = k at product
    have inverse : (10 : ℚ) ^ (-(k : Int)) * 10 ^ k = 1 := by
      rw [zpow_neg, zpow_natCast, inv_mul_cancel₀ (by positivity)]
    have fraction : (0 : ℚ) < 10 ^ (-(k : Int)) := by positivity
    have le : ((i.value * i.up 0 : Nat) : ℚ) ≤ 10 ^ (-(k : Int)) * i.down 0 := by
      calc
        ((i.value * i.up 0 : Nat) : ℚ)
            = 10 ^ (-(k : Int)) * ((10 ^ k * (i.value * i.up 0) : Nat) : ℚ) := by
          push_cast
          rw [← mul_assoc, inverse, one_mul]
        _ ≤ 10 ^ (-(k : Int)) * i.down 0 := by
          gcongr
    split
    · next exact =>
      have part : (0 : ℚ) < 10 ^ (-(k : Int)) * i.down 0 := by positivity
      rw [zpow_add₀ (by norm_num), zpow_one]
      linarith
    · next less =>
      rw [show -((k : Int) + 1) + 1 = -(k : Int) by ring]
      have strict : ((i.value * i.up 0 * 10 ^ k : Nat) : ℚ) < i.down 0 := by
        exact_mod_cast Nat.lt_of_not_le less
      calc
        ((i.value * i.up 0 : Nat) : ℚ)
            = 10 ^ (-(k : Int)) * ((i.value * i.up 0 * 10 ^ k : Nat) : ℚ) := by
          push_cast
          rw [mul_comm _ ((10 : ℚ) ^ k), ← mul_assoc, inverse, one_mul]
        _ < 10 ^ (-(k : Int)) * i.down 0 := by gcongr

/-! ## Hits -/

theorem holds_of_neighbour {e : Int} {digits : Nat} (hit : i.neighbour? e = some digits) :
    i.holds digits e = true := by
  simp only [neighbour?] at hit
  split at hit
  · next below above =>
    have inside := (Bool.and_eq_true _ _ ▸ below).1
    split at hit
    · cases hit
      exact inside
    · split at hit
      · cases hit
        exact above
      · split at hit <;> cases hit
        · exact inside
        · exact above
  · next below above =>
    cases hit
    exact (Bool.and_eq_true _ _ ▸ below).1
  · next below above =>
    cases hit
    exact above
  · cases hit

/-- A hit is the multiple below the value or the one above it. -/
theorem neighbour_le {e : Int} {digits : Nat} (hit : i.neighbour? e = some digits) :
    digits ≤ i.value * i.up e / i.down e + 1 := by
  simp only [neighbour?, quotient_eq] at hit
  repeat' split at hit
  all_goals cases hit <;> omega

/-- What holds is no more than the end of the interval. -/
theorem holds_le {e : Int} {digits : Nat} (holds : i.holds digits e = true) :
    (digits : ℚ) * 10 ^ e ≤ i.high * 2 ^ i.unit := by
  have product : digits * i.down e ≤ i.high * i.up e := by
    simp only [Interval.holds, quotient_eq] at holds
    split at holds
    · have most := (Bool.and_eq_true _ _ ▸ holds).2
      simpa only [decide_eq_true_eq] using most
    · have less := (Bool.and_eq_true _ _ ▸ holds).2
      simp only [decide_eq_true_eq] at less
      exact less.le
  have down : (0 : ℚ) < i.down e := by exact_mod_cast i.down_pos e
  have cast : (digits : ℚ) * i.down e ≤ i.high * i.up e := by exact_mod_cast product
  refine le_of_mul_le_mul_right ?_ down
  calc
    (digits : ℚ) * 10 ^ e * i.down e = digits * i.down e * 10 ^ e := by ring
    _ ≤ i.high * i.up e * 10 ^ e := by gcongr
    _ = i.high * 2 ^ i.unit * i.down e := by
      rw [mul_assoc, up_div_down]
      ring

/-- A search that comes to digits has hit on one of its grids. -/
theorem search_hit {fuel : Nat} {e : Int} (nonzero : (i.search fuel e).digits ≠ 0) :
    ∃ k < fuel, i.neighbour? (e - k) = some (i.search fuel e).digits ∧
      (i.search fuel e).exponent = e - k := by
  induction fuel generalizing e with
  | zero => exact absurd rfl nonzero
  | succ fuel ih =>
    unfold search at nonzero ⊢
    split at nonzero
    · next digits found => exact ⟨0, by omega, by simp [found], by simp⟩
    · next missed =>
      obtain ⟨k, within, hit, exponent⟩ := ih nonzero
      have step : e - 1 - (k : Int) = e - ((k + 1 : Nat) : Int) := by
        push_cast
        ring
      rw [step] at hit exponent
      exact ⟨k + 1, by omega, by simpa [missed] using hit, by simpa [missed] using exponent⟩

/-- No hit of twenty grids has more than nineteen digits behind the leading one. -/
theorem hit_bounded (positive : 0 < i.value) {k : Nat} (within : k < 20) {digits : Nat}
    (hit : i.neighbour? (i.leading + 1 - k) = some digits) : digits ≤ 10 ^ 19 := by
  have upper := lt_leading positive
  have unit := up_div_down i (i.leading + 1 - k)
  have ten : (0 : ℚ) < 10 ^ (i.leading + 1 - k) := by positivity
  have down : (0 : ℚ) < i.down (i.leading + 1 - k) := by
    exact_mod_cast i.down_pos (i.leading + 1 - k)
  have grids : (10 : ℚ) ^ (i.leading + 1) ≤ 10 ^ 19 * 10 ^ (i.leading + 1 - k) := by
    rw [← zpow_natCast, ← zpow_add₀ (by norm_num)]
    exact zpow_le_zpow_right₀ (by norm_num) (by push_cast; omega)
  have quotient : i.value * i.up (i.leading + 1 - k) / i.down (i.leading + 1 - k) < 10 ^ 19 := by
    rw [Nat.div_lt_iff_lt_mul (i.down_pos _)]
    have scaled : (i.value : ℚ) * i.up (i.leading + 1 - k) <
        10 ^ 19 * i.down (i.leading + 1 - k) := by
      refine lt_of_mul_lt_mul_right ?_ ten.le
      calc
        (i.value : ℚ) * i.up (i.leading + 1 - k) * 10 ^ (i.leading + 1 - k)
            = i.value * 2 ^ i.unit * i.down (i.leading + 1 - k) := by
          rw [mul_assoc, unit]
          ring
        _ < 10 ^ (i.leading + 1) * i.down (i.leading + 1 - k) :=
          mul_lt_mul_of_pos_right upper down
        _ ≤ 10 ^ 19 * 10 ^ (i.leading + 1 - k) * i.down (i.leading + 1 - k) := by gcongr
        _ = 10 ^ 19 * i.down (i.leading + 1 - k) * 10 ^ (i.leading + 1 - k) := by ring
    exact_mod_cast scaled
  have near := neighbour_le hit
  omega

end Interval

/-- Dropping zeros leaves the value as it is. -/
theorem Decimal.trim_spec (fuel : Nat) (d : Decimal) :
    (Decimal.trim fuel d).digits ≤ d.digits ∧ d.exponent ≤ (Decimal.trim fuel d).exponent ∧
      ((Decimal.trim fuel d).digits : ℚ) * 10 ^ (Decimal.trim fuel d).exponent =
        d.digits * 10 ^ d.exponent := by
  induction fuel generalizing d with
  | zero => exact ⟨le_rfl, le_rfl, rfl⟩
  | succ fuel ih =>
    unfold Decimal.trim
    split
    · next trailing =>
      obtain ⟨fewer, more, same⟩ := ih ⟨d.digits / 10, d.exponent + 1⟩
      dsimp only at fewer more same
      refine ⟨by omega, by omega, same.trans ?_⟩
      have whole : d.digits = d.digits / 10 * 10 := by omega
      calc
        ((d.digits / 10 : Nat) : ℚ) * 10 ^ (d.exponent + 1)
            = ((d.digits / 10 * 10 : Nat) : ℚ) * 10 ^ d.exponent := by
          rw [zpow_add₀ (by norm_num)]
          push_cast
          ring
        _ = d.digits * 10 ^ d.exponent := by rw [← whole]
    · exact ⟨le_rfl, le_rfl, rfl⟩

/-- The shortest digits fit 64 bits, their power is not very small, and together they are no more
than the end of the interval. -/
theorem shortest_spec {d : Binary64} (nonzero : d.isZero = false) :
    (shortest d).digits ≤ 10 ^ 19 ∧ -600 ≤ (shortest d).exponent ∧
      ((shortest d).digits : ℚ) * 10 ^ (shortest d).exponent ≤
        (Interval.ofScaled d.scaled).high * 2 ^ (Interval.ofScaled d.scaled).unit := by
  have bits : d.magnitudeBits ≠ 0 := by simpa [Binary64.isZero] using nonzero
  have scaled : 0 < d.scaled.significand ∧ -1074 ≤ d.scaled.exponent := by
    simp only [Binary64.scaled, Binary64.scaledOfBits]
    split <;> dsimp only [Int.ofNat_eq_natCast] <;> omega
  have positive : 0 < (Interval.ofScaled d.scaled).value := by
    simp only [Interval.ofScaled]
    omega
  have unit : -1080 ≤ (Interval.ofScaled d.scaled).unit := by
    simp only [Interval.ofScaled]
    omega
  have found : ((Interval.ofScaled d.scaled).search 20
      ((Interval.ofScaled d.scaled).leading + 1)).digits ≠ 0 := by
    intro zero
    have fewer := (Decimal.trim_spec 20 ((Interval.ofScaled d.scaled).search 20
      ((Interval.ofScaled d.scaled).leading + 1))).1
    exact shortest_digits nonzero (Nat.le_zero.1 (zero ▸ fewer))
  unfold shortest
  dsimp only
  generalize Interval.ofScaled d.scaled = i at *
  obtain ⟨k, within, hit, exponent⟩ := Interval.search_hit found
  obtain ⟨fewer, more, same⟩ := Decimal.trim_spec 20 (i.search 20 (i.leading + 1))
  refine ⟨fewer.trans (Interval.hit_bounded positive within hit), ?_, ?_⟩
  · have leading : -540 < i.leading + 1 := by
      have one : (1 : ℚ) ≤ i.value := by exact_mod_cast positive
      have small : (2 : ℚ) ^ (-1080 : Int) ≤ 2 ^ i.unit := zpow_le_zpow_right₀ (by norm_num) unit
      have power : (0 : ℚ) < 2 ^ i.unit := by positivity
      have least : (10 : ℚ) ^ (-540 : Int) < 2 ^ (-1080 : Int) := by
        rw [show (-540 : Int) = 4 * -135 by rfl, show (-1080 : Int) = 8 * -135 by rfl, zpow_mul,
          zpow_mul, zpow_neg, zpow_neg]
        exact inv_strictAnti₀ (by positivity)
          (pow_lt_pow_left₀ (by norm_num) (by norm_num) (by norm_num))
      have low : (10 : ℚ) ^ (-540 : Int) < 10 ^ (i.leading + 1) := by
        calc
          (10 : ℚ) ^ (-540 : Int) < 2 ^ (-1080 : Int) := least
          _ ≤ 2 ^ i.unit := small
          _ ≤ i.value * 2 ^ i.unit := le_mul_of_one_le_left power.le one
          _ < 10 ^ (i.leading + 1) := Interval.lt_leading positive
      exact (zpow_lt_zpow_iff_right₀ (by norm_num)).1 low
    omega
  · rw [same, exponent]
    exact Interval.holds_le (Interval.holds_of_neighbour hit)

end DialogueEngine.Number
