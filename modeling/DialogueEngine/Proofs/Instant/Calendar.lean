import DialogueEngine.Instant.Basic

/-!
Days by their numbers. A day is found in its cycle of 400 years, in that cycle's year and in that
year's month, where years begin in March; putting the parts together gives its number again, and
every day that is found is a day of its month. Days that follow each other are found in this order.
-/

namespace DialogueEngine.Instant

/-! ## Years of a cycle -/

/-- The year, from the start of its cycle, of a day from the start of the cycle. -/
def yearOfCycle (dayOfCycle : Int) : Int :=
  (dayOfCycle - dayOfCycle / 1460 + dayOfCycle / 36524 - dayOfCycle / 146096) / 365

/-- The day, from the start of its year, of a day from the start of the cycle. -/
def dayOfYear (dayOfCycle : Int) : Int :=
  dayOfCycle - (365 * yearOfCycle dayOfCycle + yearOfCycle dayOfCycle / 4 -
    yearOfCycle dayOfCycle / 100)

/-- A day of the cycle is found again from its year and its day in that year. -/
theorem dayOfYear_behind (dayOfCycle : Int) :
    yearOfCycle dayOfCycle * 365 + yearOfCycle dayOfCycle / 4 - yearOfCycle dayOfCycle / 100 +
      dayOfYear dayOfCycle = dayOfCycle := by
  unfold dayOfYear
  omega

/-- A day lies in a year of the cycle, and only a year whose last day falls in a leap year has a
366th day. -/
structure Placed (year day : Int) : Prop where
  first : 0 ≤ year
  last : year < 400
  start : 0 ≤ day
  finish : day ≤ 365
  leap : day = 365 → (year + 1) % 4 = 0 ∧ ((year + 1) % 100 ≠ 0 ∨ year + 1 = 400)

theorem placed {dayOfCycle : Int} (start : 0 ≤ dayOfCycle) (finish : dayOfCycle < 146097) :
    Placed (yearOfCycle dayOfCycle) (dayOfYear dayOfCycle) := by
  unfold dayOfYear
  generalize same : yearOfCycle dayOfCycle = year
  unfold yearOfCycle at same
  -- The last day of the cycle is the one that a fifth century would begin with.
  have century : dayOfCycle = 146096 ∨ dayOfCycle / 36524 = 0 ∨ dayOfCycle / 36524 = 1 ∨
      dayOfCycle / 36524 = 2 ∨ dayOfCycle / 36524 = 3 := by omega
  rcases century with rfl | century | century | century | century
  · obtain rfl : year = 399 := by omega
    exact ⟨by decide, by decide, by decide, by decide, by decide⟩
  all_goals
    have hundred : dayOfCycle / 146096 = 0 ∧ year / 100 = dayOfCycle / 36524 := by omega
    have before : year / 4 ≤ dayOfCycle / 1460 := by omega
    have behind : dayOfCycle / 1460 ≤ year / 4 + 1 := by omega
    refine ⟨by omega, by omega, by omega, by omega, fun full => ?_⟩
    have fourth : dayOfCycle / 1460 = year / 4 + 1 := by omega
    have third : 3 ≤ year - 4 * (year / 4) := by omega
    omega

/-! ## Days -/

theorem monthLength_le (year : Int) (month : Nat) : monthLength year month ≤ 31 := by
  unfold monthLength
  repeat' split
  all_goals omega

/-- The cycle of a day, and the day from the start of its cycle. -/
def dayOfCycle (n : Int) : Int := n + 719468 - (n + 719468) / 146097 * 146097

theorem dayOfCycle_bounds (n : Int) : 0 ≤ dayOfCycle n ∧ dayOfCycle n < 146097 := by
  unfold dayOfCycle
  omega

/-- The month of a day, counted from March. -/
def monthFromMarch (n : Int) : Int := (5 * dayOfYear (dayOfCycle n) + 2) / 153

theorem Day.ofNumber_eq (n : Int) : Day.ofNumber n =
    ⟨yearOfCycle (dayOfCycle n) + (n + 719468) / 146097 * 400 +
        (if monthFromMarch n < 10 then 0 else 1),
      (if monthFromMarch n < 10 then monthFromMarch n + 3 else monthFromMarch n - 9).toNat,
      (dayOfYear (dayOfCycle n) - (153 * monthFromMarch n + 2) / 5 + 1).toNat⟩ := by
  obtain ⟨low, high⟩ := dayOfCycle_bounds n
  have placed := placed low high
  have months : 0 ≤ monthFromMarch n ∧ monthFromMarch n ≤ 11 := by
    have start := placed.start
    have finish := placed.finish
    unfold monthFromMarch
    omega
  have folded : Day.ofNumber n =
      ⟨if (if monthFromMarch n < 10 then monthFromMarch n + 3 else monthFromMarch n - 9) ≤ 2 then
          yearOfCycle (dayOfCycle n) + (n + 719468) / 146097 * 400 + 1
        else yearOfCycle (dayOfCycle n) + (n + 719468) / 146097 * 400,
      (if monthFromMarch n < 10 then monthFromMarch n + 3 else monthFromMarch n - 9).toNat,
      (dayOfYear (dayOfCycle n) - (153 * monthFromMarch n + 2) / 5 + 1).toNat⟩ := rfl
  rw [folded]
  congr 1
  split <;> split <;> omega

/-- A day has the number that it is found under. -/
theorem Day.number_ofNumber (n : Int) : (Day.ofNumber n).number = n := by
  obtain ⟨low, high⟩ := dayOfCycle_bounds n
  obtain ⟨first, last, start, finish, -⟩ := placed low high
  have whole := dayOfYear_behind (dayOfCycle n)
  have cycle : (n + 719468) / 146097 * 146097 + dayOfCycle n - 719468 = n := by
    unfold dayOfCycle
    omega
  have months : 0 ≤ monthFromMarch n ∧ monthFromMarch n ≤ 11 ∧
      (153 * monthFromMarch n + 2) / 5 ≤ dayOfYear (dayOfCycle n) := by
    unfold monthFromMarch
    omega
  rw [Day.ofNumber_eq]
  unfold Day.number
  dsimp only
  generalize monthFromMarch n = month at *
  generalize dayOfYear (dayOfCycle n) = day at *
  generalize yearOfCycle (dayOfCycle n) = year at *
  generalize (n + 719468) / 146097 = cycles at *
  have same : (year + cycles * 400) / 400 = cycles := by omega
  have inside : year + cycles * 400 - cycles * 400 = year := by omega
  by_cases early : month < 10
  · have turned : (((month + 3).toNat + 9) % 12 : Nat) = month := by omega
    simp only [if_pos early, if_neg (show ¬ (month + 3).toNat ≤ 2 by omega), turned,
      Int.add_zero, same, inside]
    omega
  · have turned : (((month - 9).toNat + 9) % 12 : Nat) = month := by omega
    simp only [if_neg early, if_pos (show (month - 9).toNat ≤ 2 by omega), turned,
      Int.add_sub_cancel, same, inside]
    omega

/-- A day that is found is a day of its month. -/
theorem Day.ofNumber_proper (n : Int) :
    1 ≤ (Day.ofNumber n).month ∧ (Day.ofNumber n).month ≤ 12 ∧ 1 ≤ (Day.ofNumber n).day ∧
      (Day.ofNumber n).day ≤ monthLength (Day.ofNumber n).year (Day.ofNumber n).month := by
  obtain ⟨low, high⟩ := dayOfCycle_bounds n
  obtain ⟨first, last, start, finish, leap⟩ := placed low high
  have months : 0 ≤ monthFromMarch n ∧ monthFromMarch n ≤ 11 := by
    unfold monthFromMarch
    omega
  have within : (153 * monthFromMarch n + 2) / 5 ≤ dayOfYear (dayOfCycle n) ∧
      5 * dayOfYear (dayOfCycle n) + 2 < 153 * (monthFromMarch n + 1) := by
    unfold monthFromMarch
    omega
  rw [Day.ofNumber_eq]
  dsimp only
  generalize monthFromMarch n = month at *
  generalize dayOfYear (dayOfCycle n) = day at *
  generalize yearOfCycle (dayOfCycle n) = year at *
  generalize (n + 719468) / 146097 = cycles at *
  refine ⟨by split <;> omega, by split <;> omega, by omega, ?_⟩
  by_cases late : month = 11
  · subst late
    have leapDay (full : day = 365) : isLeapYear (year + cycles * 400 + 1) = true := by
      obtain ⟨fourth, hundredth⟩ := leap full
      simp only [isLeapYear, Bool.and_eq_true, Bool.or_eq_true, decide_eq_true_eq, bne_iff_ne]
      omega
    have february : monthLength (year + cycles * 400 + 1) 2 =
        if isLeapYear (year + cycles * 400 + 1) then 29 else 28 := rfl
    rw [if_neg (by decide), if_neg (by decide), show ((11 : Int) - 9).toNat = 2 by rfl, february]
    split
    · omega
    · next common =>
      have short : day ≠ 365 := common ∘ leapDay
      omega
  · have each : month = 0 ∨ month = 1 ∨ month = 2 ∨ month = 3 ∨ month = 4 ∨ month = 5 ∨
        month = 6 ∨ month = 7 ∨ month = 8 ∨ month = 9 ∨ month = 10 := by omega
    rcases each with rfl | rfl | rfl | rfl | rfl | rfl | rfl | rfl | rfl | rfl | rfl <;>
      simp +decide only [monthLength, if_true, if_false] <;> omega

/-! ## Order -/

/-- A day comes before another. -/
def Day.Precedes (d e : Day) : Prop :=
  d.year < e.year ∨
    d.year = e.year ∧ (d.month < e.month ∨ d.month = e.month ∧ d.day < e.day)

/-- The year of a day where years begin in March. -/
def yearFromMarch (n : Int) : Int :=
  yearOfCycle (dayOfCycle n) + (n + 719468) / 146097 * 400

/-- The years and days of a cycle are in the order of the days of the cycle. -/
theorem Placed.lt_of_lt {year day year' day' : Int} (placed : Placed year day)
    (placed' : Placed year' day')
    (less : year * 365 + year / 4 - year / 100 + day <
      year' * 365 + year' / 4 - year' / 100 + day') :
    year < year' ∨ year = year' ∧ day < day' := by
  obtain ⟨first, last, start, finish, leap⟩ := placed
  obtain ⟨first', last', start', finish', leap'⟩ := placed'
  by_cases same : year = year'
  · subst same
    exact .inr ⟨rfl, by omega⟩
  · refine .inl (Int.not_le.1 fun back => ?_)
    -- The earlier year, leap or not, ends before the first day of the later one.
    have next : year' + 1 ≤ year := by omega
    have whole : (year' + 1) * 365 + (year' + 1) / 4 - (year' + 1) / 100 ≤
        year * 365 + year / 4 - year / 100 := by omega
    by_cases full : day' = 365
    · obtain ⟨fourth, hundredth⟩ := leap' full
      omega
    · omega

theorem yearFromMarch_lt {n m : Int} (less : n < m) : yearFromMarch n < yearFromMarch m ∨
    yearFromMarch n = yearFromMarch m ∧
      dayOfYear (dayOfCycle n) < dayOfYear (dayOfCycle m) := by
  obtain ⟨low, high⟩ := dayOfCycle_bounds n
  obtain ⟨low', high'⟩ := dayOfCycle_bounds m
  have here := placed low high
  have there := placed low' high'
  have first := here.first
  have last := here.last
  have first' := there.first
  have last' := there.last
  have inside : (n + 719468) / 146097 = (m + 719468) / 146097 → dayOfCycle n < dayOfCycle m := by
    unfold dayOfCycle
    omega
  have cycles : (n + 719468) / 146097 ≤ (m + 719468) / 146097 := by omega
  unfold yearFromMarch
  rcases Int.lt_or_eq_of_le cycles with earlier | same
  · exact .inl (by omega)
  · have ordered := here.lt_of_lt there
      (by rw [dayOfYear_behind, dayOfYear_behind]; exact inside same)
    omega

/-- Days are in the order of their numbers. -/
theorem Day.ofNumber_precedes {n m : Int} (less : n < m) :
    (Day.ofNumber n).Precedes (Day.ofNumber m) := by
  have bounds (n : Int) : 0 ≤ dayOfYear (dayOfCycle n) ∧ dayOfYear (dayOfCycle n) ≤ 365 := by
    obtain ⟨low, high⟩ := dayOfCycle_bounds n
    exact ⟨(placed low high).start, (placed low high).finish⟩
  have ordered := yearFromMarch_lt less
  obtain ⟨start, finish⟩ := bounds n
  obtain ⟨start', finish'⟩ := bounds m
  rw [Day.ofNumber_eq, Day.ofNumber_eq]
  unfold Precedes
  dsimp only
  unfold monthFromMarch
  unfold yearFromMarch at ordered
  generalize yearOfCycle (dayOfCycle n) + (n + 719468) / 146097 * 400 = year at *
  generalize yearOfCycle (dayOfCycle m) + (m + 719468) / 146097 * 400 = year' at *
  generalize dayOfYear (dayOfCycle n) = day at *
  generalize dayOfYear (dayOfCycle m) = day' at *
  split <;> split <;> omega

end DialogueEngine.Instant
