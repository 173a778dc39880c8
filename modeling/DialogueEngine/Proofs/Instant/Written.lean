import DialogueEngine.Message
import DialogueEngine.Proofs.Instant.Calendar
import DialogueEngine.Proofs.Json.Numbers

/-!
Instants that are read where they have been written. Every part is written in as many digits as
are taken of it, and between the parts stand marks that no part takes; so an instant whose year can
be read comes back as it was.
-/

namespace DialogueEngine.Instant

-- Powers are those of the core library, whatever else is imported.
attribute [local instance (high)] instPowNat

open Json (Digits Stops natOfDigits natOfDigits_append natOfDigits_zeros natOfDigits_digitChars
  digits_digitChars isDigit_of_mem_zeros)

/-! ## Digits -/

theorem padded_digits (width n : Nat) : Digits (padded width n) where
  some := by simp [padded, Nat.toDigits_ne_nil]
  digits := by
    intro c member
    rcases List.mem_append.1 member with zero | digit
    · exact isDigit_of_mem_zeros zero
    · exact (digits_digitChars n).digits c digit

theorem natOfDigits_padded (width n : Nat) : natOfDigits (padded width n) = n := by
  have digits : natOfDigits (Nat.toDigits 10 n) = n := natOfDigits_digitChars n
  simp only [padded, natOfDigits_append, natOfDigits_zeros, digits]
  omega

theorem length_padded {width n : Nat} (some : 0 < width) (fits : n < 10 ^ width) :
    (padded width n).length = width := by
  have short : (Nat.toDigits 10 n).length ≤ width :=
    (Nat.length_toDigits_le_iff (by decide) some).2 fits
  simp only [padded, List.length_append, List.length_replicate]
  omega

theorem trimStart_solid {c : Char} (solid : Text.isBlank c = false) (cs : List Char) :
    Text.trimStart (c :: cs) = c :: cs := by
  simp [Text.trimStart, solid]

theorem trimStart_digits {ds : List Char} (digits : Digits ds) (rest : List Char) :
    Text.trimStart (ds ++ rest) = ds ++ rest := by
  cases ds with
  | nil => exact absurd rfl digits.some
  | cons c ds => exact trimStart_solid (Text.isBlank_of_isAlphanum
    (by simp [Char.isAlphanum, digits.digits c])) _

/-- Digits are taken whole up to where they stop. -/
theorem takeDigits_append {ds rest : List Char} {most : Nat} (digits : Digits ds)
    (fits : ds.length ≤ most) (stops : Stops rest) :
    takeDigits most (ds ++ rest) = some (natOfDigits ds, rest) := by
  have taken : ((ds ++ rest).take most).takeWhile Char.isDigit = ds := by
    rw [List.take_append, List.take_of_length_le fits, List.takeWhile_append_of_pos digits.digits]
    cases rest with
    | nil => simp
    | cons c cs =>
      cases most - ds.length with
      | zero => simp
      | succ n => simp [stops c cs rfl]
  have some : ds.isEmpty = false := by simp [digits.some]
  simp only [takeDigits, taken, some, Bool.false_eq_true, if_false, List.drop_left]
  rfl

theorem stops_mark {c : Char} (mark : c.isDigit = false) (cs : List Char) : Stops (c :: cs) := by
  intro d ds same
  cases same
  exact mark

theorem takeMark_self {c : Char} (solid : Text.isBlank c = false) (cs : List Char) :
    takeMark c (c :: cs) = some cs := by
  simp [takeMark, trimStart_solid solid]

/-- A part is taken where it is written between its bounds. -/
theorem takePart_padded {low high n : Nat} (least : low ≤ n) (most : n ≤ high) (fits : n < 100)
    {rest : List Char} (stops : Stops rest) :
    takePart low high (padded 2 n ++ rest) = some (n, rest) := by
  have digits := padded_digits 2 n
  have length : (padded 2 n).length = 2 := length_padded (by decide) fits
  simp only [takePart, trimStart_digits digits, takeDigits_append digits length.le stops,
    natOfDigits_padded, bind, Option.bind, least, most, and_self, if_true]

/-! ## Parts -/

theorem takeYear_yearChars (year : Int) (rest : List Char) :
    takeYear (yearChars year ++ '-' :: rest) = some (year, '-' :: rest) := by
  have digits := padded_digits 4 year.natAbs
  have stops := stops_mark (c := '-') rfl rest
  have all : takeAllDigits (padded 4 year.natAbs ++ '-' :: rest) =
      some (year.natAbs, '-' :: rest) := by
    rw [takeAllDigits, takeDigits_append digits (by simp) stops, natOfDigits_padded]
  unfold yearChars
  by_cases short : 0 ≤ year ∧ year ≤ 9999
  · have same : year.toNat = year.natAbs := by omega
    have length : (padded 4 year.natAbs).length = 4 := length_padded (by decide) (by omega)
    rw [if_pos short, same]
    have taken : takeDigits 4 (padded 4 year.natAbs ++ '-' :: rest) =
        some (year.natAbs, '-' :: rest) := by
      rw [takeDigits_append digits length.le stops, natOfDigits_padded]
    unfold takeYear
    rw [trimStart_digits digits]
    cases front : padded 4 year.natAbs with
    | nil => exact absurd front digits.some
    | cons c cs =>
      have digit : c.isDigit = true := digits.digits c (by simp [front])
      rw [front] at taken
      rw [List.cons_append] at taken ⊢
      split
      · next same =>
        obtain ⟨rfl, -⟩ := List.cons.inj same
        cases digit
      · next same =>
        obtain ⟨rfl, -⟩ := List.cons.inj same
        cases digit
      · have value : (year.natAbs : Int) = year := by omega
        simp [taken, value]
  · rw [if_neg short]
    by_cases negative : year < 0
    · rw [if_pos negative]
      simp only [List.cons_append, takeYear, trimStart_solid (c := '-') (by decide), all,
        Option.map_some]
      congr 2
      omega
    · rw [if_neg negative]
      simp only [List.cons_append, takeYear, trimStart_solid (c := '+') (by decide), all,
        Option.map_some]
      congr 2
      omega

theorem takeFraction_fractionChars {nanos : Nat} (fits : nanos < 10 ^ 9) (rest : List Char) :
    takeFraction (fractionChars nanos ++ 'Z' :: rest) = some (nanos, 'Z' :: rest) := by
  have stops := stops_mark (c := 'Z') rfl rest
  have part (width n : Nat) (some : 0 < width) (short : width ≤ 9) (small : n < 10 ^ width) :
      takeFraction ('.' :: padded width n ++ 'Z' :: rest) =
        Option.some (n * 10 ^ (9 - width), 'Z' :: rest) := by
    have length := length_padded some small
    have taken := takeDigits_append (padded_digits width n) (by omega : _ ≤ 9) stops
    simp only [List.cons_append, takeFraction, taken, natOfDigits_padded, bind, Option.bind, pure,
      List.length_append, length, Nat.add_sub_cancel]
    simp
  unfold fractionChars
  split
  · next none =>
    subst none
    rfl
  · split
    · next thousandths =>
      rw [part 3 _ (by decide) (by decide) (by omega)]
      congr 2
      omega
    · split
      · next millionths =>
        rw [part 6 _ (by decide) (by decide) (by omega)]
        congr 2
        omega
      · rw [part 9 _ (by decide) (by decide) fits]
        congr 2
        omega

/-! ## Instants -/

/-- The second that is written, sixty for a leap second. -/
def writtenSecond (t : Instant) : Nat := t.secondOfDay % 60 + if 10 ^ 9 ≤ t.nanos then 1 else 0

/-- The nanoseconds that are written. -/
def writtenNanos (t : Instant) : Nat := if 10 ^ 9 ≤ t.nanos then t.nanos - 10 ^ 9 else t.nanos

theorem writtenChars_eq (t : Instant) (zone : List Char) : t.writtenChars zone =
    yearChars t.year ++ '-' :: (padded 2 t.day.month ++ '-' :: (padded 2 t.day.day ++
      'T' :: (padded 2 (t.secondOfDay / 3600) ++ ':' :: (padded 2 (t.secondOfDay / 60 % 60) ++
        ':' :: (padded 2 t.writtenSecond ++ (fractionChars t.writtenNanos ++ zone)))))) := by
  simp only [writtenChars, writtenSecond, writtenNanos, year, List.append_assoc, List.cons_append]

theorem secondOfDay_lt (t : Instant) : t.secondOfDay < 86400 := by
  unfold secondOfDay
  omega

/-- A leap second is the last of its minute, and the nanoseconds of a second are fewer than all. -/
theorem written_bounds (t : Instant) : t.writtenNanos < 10 ^ 9 ∧ t.writtenSecond ≤ 60 ∧
    (t.writtenSecond = 60 ↔ 10 ^ 9 ≤ t.nanos) ∧
    (10 ^ 9 ≤ t.nanos → t.secondOfDay % 60 = 59) := by
  have proper := t.proper
  unfold writtenNanos writtenSecond secondOfDay
  split <;> omega

theorem stops_fraction (nanos : Nat) : Stops (fractionChars nanos ++ ['Z']) := by
  unfold fractionChars
  repeat' split
  all_goals exact stops_mark rfl _

/-- An instant whose year is in range is read as it was written. -/
theorem read?_written {t : Instant} (inRange : yearInRange t.year = true) :
    read? t.written = some t := by
  obtain ⟨few, most, sixty, last⟩ := written_bounds t
  obtain ⟨month, months, day, days⟩ : 1 ≤ t.day.month ∧ t.day.month ≤ 12 ∧ 1 ≤ t.day.day ∧
    t.day.day ≤ monthLength t.year t.day.month := Day.ofNumber_proper (t.seconds / 86400)
  have number : t.day.number = t.seconds / 86400 := Day.number_ofNumber _
  have short := secondOfDay_lt t
  have monthDays := monthLength_le t.year t.day.month
  have number' : Day.number ⟨t.year, t.day.month, t.day.day⟩ = t.seconds / 86400 := number
  have second : (if t.writtenSecond = 60 then 59 else t.writtenSecond) = t.secondOfDay % 60 ∧
      (if t.writtenSecond = 60 then t.writtenNanos + 10 ^ 9 else t.writtenNanos) = t.nanos := by
    by_cases leap : 10 ^ 9 ≤ t.nanos
    · rw [if_pos (sixty.2 leap), if_pos (sixty.2 leap), last leap, writtenNanos, if_pos leap]
      exact ⟨rfl, Nat.sub_add_cancel leap⟩
    · rw [if_neg (leap ∘ sixty.1), if_neg (leap ∘ sixty.1), writtenSecond, writtenNanos,
        if_neg leap, if_neg leap]
      exact ⟨rfl, rfl⟩
  have ofDay : t.secondOfDay / 3600 * 3600 + t.secondOfDay / 60 % 60 * 60 +
      t.secondOfDay % 60 = t.secondOfDay := by omega
  have seconds' : t.seconds / 86400 * 86400 + (t.secondOfDay : Int) - 0 = t.seconds := by
    unfold secondOfDay
    omega
  have whole : of? t.seconds t.nanos = some t := dif_pos t.proper
  have offset : takeOffset (Text.trimStart ['Z']) = some (0, []) := rfl
  have dash (cs : List Char) : takeMark '-' ('-' :: cs) = some cs := takeMark_self (by decide) cs
  have colon (cs : List Char) : takeMark ':' (':' :: cs) = some cs := takeMark_self (by decide) cs
  have monthTaken (cs : List Char) := takePart_padded month months
    (Nat.lt_of_le_of_lt months (by decide)) (stops_mark (c := '-') rfl cs)
  have dayTaken (cs : List Char) := takePart_padded (n := t.day.day) day (days.trans monthDays)
    (Nat.lt_of_le_of_lt (days.trans monthDays) (by decide)) (stops_mark (c := 'T') rfl cs)
  have hourTaken (cs : List Char) : takePart 0 23 (padded 2 (t.secondOfDay / 3600) ++ ':' :: cs) =
      some (t.secondOfDay / 3600, ':' :: cs) :=
    takePart_padded (by omega) (by omega) (by omega) (stops_mark rfl cs)
  have minuteTaken (cs : List Char) :
      takePart 0 59 (padded 2 (t.secondOfDay / 60 % 60) ++ ':' :: cs) =
        some (t.secondOfDay / 60 % 60, ':' :: cs) :=
    takePart_padded (by omega) (by omega) (by omega) (stops_mark rfl cs)
  have least : 0 ≤ t.writtenSecond := by omega
  have secondTaken := takePart_padded least most (by omega) (stops_fraction t.writtenNanos)
  have nanosTaken := takeFraction_fractionChars few []
  rw [read?, written, String.toList_ofList, writtenChars_eq, readChars?]
  simp only [bind, Option.bind, takeYear_yearChars, dash, colon, monthTaken, dayTaken, hourTaken,
    minuteTaken, secondTaken, nanosTaken, offset]
  simp only [true_or, if_true, second, ofDay, number', seconds', whole]
  simp [inRange, days]

end DialogueEngine.Instant
