import DialogueEngine.Proofs.Instant.Written
import Mathlib.Data.List.Lex

/-!
Instants in the order of their texts. Numbers of as many digits are in the order of their digits,
and a fraction may leave out zeros at its end, because the sign of the offset behind it comes before
the point and before every digit. So the texts of instants in a table compare as the instants do, as
characters and as bytes, as long as every year has four digits.
-/

namespace DialogueEngine.Json

-- Powers are those of the core library, whatever else is imported.
attribute [local instance (high)] instPowNat

/-! ## Digits -/

theorem toNat_of_isDigit {c : Char} (digit : c.isDigit = true) : c.toNat < 128 := by
  obtain ⟨-, high⟩ := Char.isDigit_iff_toNat.1 digit
  exact Nat.lt_of_le_of_lt high (by decide)

theorem digitValue_lt {c : Char} (digit : c.isDigit = true) : digitValue c < 10 := by
  obtain ⟨-, high⟩ := Char.isDigit_iff_toNat.1 digit
  have nine : '9'.toNat = 57 := rfl
  unfold digitValue
  omega

/-- Digits are in the order of their values. -/
theorem lt_of_digitValue_lt {c d : Char} (digit : c.isDigit = true)
    (less : digitValue c < digitValue d) : c < d := by
  obtain ⟨low, -⟩ := Char.isDigit_iff_toNat.1 digit
  have zero : '0'.toNat = 48 := rfl
  unfold digitValue at less
  have numbers : c.toNat < d.toNat := by omega
  exact Char.lt_def.2 (UInt32.lt_iff_toNat_lt.2 numbers)

theorem lt_of_lt_zero {c d : Char} (below : c < '0') (digit : d.isDigit = true) : c < d := by
  have least : '0' ≤ d := of_decide_eq_true (Bool.and_eq_true_iff.1 digit).1
  exact Char.lt_def.2 (UInt32.lt_of_lt_of_le (Char.lt_def.1 below) (Char.le_def.1 least))

theorem eq_of_digitValue_eq {c d : Char} (digit : c.isDigit = true) (digit' : d.isDigit = true)
    (same : digitValue c = digitValue d) : c = d := by
  obtain ⟨low, -⟩ := Char.isDigit_iff_toNat.1 digit
  obtain ⟨low', -⟩ := Char.isDigit_iff_toNat.1 digit'
  have zero : '0'.toNat = 48 := rfl
  unfold digitValue at same
  exact Char.toNat_inj.1 (by omega)

theorem natOfDigits_lt {ds : List Char} (digits : ∀ d ∈ ds, d.isDigit = true) :
    natOfDigits ds < 10 ^ ds.length := by
  induction ds with
  | nil => decide
  | cons d ds ih =>
    have first := digitValue_lt (digits d List.mem_cons_self)
    have rest := ih fun c member => digits c (List.mem_cons_of_mem d member)
    have most : digitValue d * 10 ^ ds.length ≤ 9 * 10 ^ ds.length :=
      Nat.mul_le_mul_right _ (Nat.le_of_lt_succ first)
    rw [natOfDigits_cons, List.length_cons, Nat.pow_succ]
    omega

/-- Digits of as many places are in the order of their numbers, whatever is written behind them.
Places may be left out at the end if what follows comes before every digit. -/
theorem append_lt_append {ds es rest rest' : List Char} {out out' : Nat}
    (digits : ∀ d ∈ ds, d.isDigit = true) (digits' : ∀ e ∈ es, e.isDigit = true)
    (places : ds.length + out = es.length + out')
    (ends : ds.length = es.length ∨ ∃ c cs, rest = c :: cs ∧ c < '0')
    (less : natOfDigits ds * 10 ^ out < natOfDigits es * 10 ^ out') :
    ds ++ rest < es ++ rest' := by
  induction ds generalizing es with
  | nil =>
    cases es with
    | nil => simp [natOfDigits] at less
    | cons e es =>
      obtain ⟨c, cs, rfl, below⟩ := ends.resolve_left (by simp)
      exact List.cons_lt_cons_iff.2 (.inl (lt_of_lt_zero below (digits' e List.mem_cons_self)))
  | cons d ds ih =>
    cases es with
    | nil => simp [natOfDigits] at less
    | cons e es =>
      have digit := digits d List.mem_cons_self
      have digit' := digits' e List.mem_cons_self
      have others := fun c member => digits c (List.mem_cons_of_mem d member)
      have others' := fun c member => digits' c (List.mem_cons_of_mem e member)
      simp only [List.length_cons] at places ends
      have places' : ds.length + out = es.length + out' := by omega
      have split : digitValue d * 10 ^ (ds.length + out) + natOfDigits ds * 10 ^ out <
          digitValue e * 10 ^ (ds.length + out) + natOfDigits es * 10 ^ out' := by
        rw [natOfDigits_cons, natOfDigits_cons, Nat.add_mul, Nat.add_mul, Nat.mul_assoc,
          Nat.mul_assoc, ← Nat.pow_add, ← Nat.pow_add, ← places'] at less
        exact less
      have short : natOfDigits es * 10 ^ out' < 10 ^ (ds.length + out) := by
        rw [places', Nat.pow_add]
        exact Nat.mul_lt_mul_of_pos_right (natOfDigits_lt others') (Nat.pow_pos (by decide))
      rw [List.cons_append, List.cons_append, List.cons_lt_cons_iff]
      rcases Nat.lt_trichotomy (digitValue d) (digitValue e) with first | first | first
      · exact .inl (lt_of_digitValue_lt digit first)
      · rw [first] at split
        have same := eq_of_digitValue_eq digit digit' first
        exact .inr ⟨same, ih others others' places' (ends.imp_left Nat.succ.inj)
          (Nat.lt_of_add_lt_add_left split)⟩
      · have more : (digitValue e + 1) * 10 ^ (ds.length + out) ≤
            digitValue d * 10 ^ (ds.length + out) := Nat.mul_le_mul_right _ first
        rw [Nat.succ_mul] at more
        omega

end DialogueEngine.Json

namespace DialogueEngine.Text

/-! ## Bytes -/

/-- The bytes of a text. -/
def bytes (text : String) : List UInt8 := text.toUTF8.data.toList

/-- A character of ASCII is one byte. -/
theorem bytes_ofList {cs : List Char} (ascii : ∀ c ∈ cs, c.toNat < 128) :
    bytes (String.ofList cs) = cs.map fun c => c.val.toUInt8 := by
  have encoded : cs.flatMap String.utf8EncodeChar = cs.map fun c => c.val.toUInt8 := by
    rw [List.map_eq_flatMap]
    refine List.flatMap_congr fun c member => ?_
    have single : c.val ≤ 127 := UInt32.le_iff_toNat_le.2 (Nat.le_of_lt_succ (ascii c member))
    exact String.utf8EncodeChar_eq_singleton (Char.utf8Size_eq_one_iff.2 single)
  rw [bytes, String.toUTF8, String.toByteArray_ofList, List.utf8Encode, encoded,
    List.toList_data_toByteArray]

theorem byte_lt {c d : Char} (ascii : c.toNat < 128) (ascii' : d.toNat < 128) (less : c < d) :
    c.val.toUInt8 < d.val.toUInt8 := by
  have numbers : c.toNat < d.toNat := UInt32.lt_iff_toNat_lt.1 (Char.lt_def.1 less)
  rw [UInt8.lt_iff_toNat_lt, UInt32.toNat_toUInt8, UInt32.toNat_toUInt8]
  show c.toNat % 256 < d.toNat % 256
  omega

/-- The bytes of ASCII are in the order of the characters. -/
theorem bytes_lt {cs ds : List Char} (ascii : ∀ c ∈ cs, c.toNat < 128)
    (ascii' : ∀ d ∈ ds, d.toNat < 128) (less : cs < ds) :
    bytes (String.ofList cs) < bytes (String.ofList ds) := by
  rw [bytes_ofList ascii, bytes_ofList ascii']
  induction cs generalizing ds with
  | nil =>
    cases ds with
    | nil => exact absurd less (List.lt_irrefl _)
    | cons d ds => exact List.nil_lt_cons _ _
  | cons c cs ih =>
    cases ds with
    | nil => exact absurd less (List.not_lt_nil _)
    | cons d ds =>
      obtain ⟨first, others⟩ := List.forall_mem_cons.1 ascii
      obtain ⟨first', others'⟩ := List.forall_mem_cons.1 ascii'
      rw [List.map_cons, List.map_cons, List.cons_lt_cons_iff]
      rcases List.cons_lt_cons_iff.1 less with lower | ⟨rfl, later⟩
      · exact .inl (byte_lt first first' lower)
      · exact .inr ⟨rfl, ih others others' later⟩

end DialogueEngine.Text

namespace DialogueEngine.Instant

attribute [local instance (high)] instPowNat

open Json (natOfDigits append_lt_append toNat_of_isDigit)
open Text (bytes bytes_lt)

/-! ## Fractions -/

/-- Digits behind a second that give its nanoseconds exactly: none, three, six or nine. -/
structure Fraction (nanos : Nat) (ds : List Char) : Prop where
  digits : ∀ d ∈ ds, d.isDigit = true
  places : ds.length = 0 ∨ ds.length = 3 ∨ ds.length = 6 ∨ ds.length = 9
  value : natOfDigits ds * 10 ^ (9 - ds.length) = nanos

/-- The fewest digits that give the nanoseconds of a second exactly. -/
structure ShortestFraction (nanos : Nat) (ds : List Char) : Prop extends Fraction nanos ds where
  fewest : ∀ es, Fraction nanos es → ds.length ≤ es.length

/-- Digits with the point in front of them, if there are any. -/
def pointed (ds : List Char) : List Char := if ds = [] then [] else '.' :: ds

theorem Fraction.eq_zero {nanos : Nat} (fraction : Fraction nanos []) : nanos = 0 := by
  have none : natOfDigits [] * 10 ^ 9 = nanos := fraction.value
  rw [← none]
  rfl

/-- Fewer than nine digits give a multiple of what the last of their places stands for. -/
theorem Fraction.divides {nanos : Nat} {ds : List Char} (fraction : Fraction nanos ds) :
    10 ^ (9 - ds.length) ∣ nanos :=
  Dvd.intro_left _ fraction.value

theorem fraction_padded {nanos width n : Nat} (places : width = 3 ∨ width = 6 ∨ width = 9)
    (small : n < 10 ^ width) (value : n * 10 ^ (9 - width) = nanos)
    (fewest : ∀ es, Fraction nanos es → width ≤ es.length) :
    ∃ ds, '.' :: padded width n = pointed ds ∧ ShortestFraction nanos ds := by
  have digits := padded_digits width n
  have length := length_padded (by omega) small
  refine ⟨_, (if_neg digits.some).symm, ⟨digits.digits, ?_, ?_⟩, ?_⟩
  · rw [length]
    exact .inr places
  · rw [length, natOfDigits_padded]
    exact value
  · rwa [length]

/-- The fraction of a second is written in the fewest digits that give it. -/
theorem fractionChars_shortest {nanos : Nat} (fits : nanos < 10 ^ 9) :
    ∃ ds, fractionChars nanos = pointed ds ∧ ShortestFraction nanos ds := by
  unfold fractionChars
  split
  · next none =>
    subst none
    exact ⟨[], rfl, ⟨nofun, .inl rfl, rfl⟩, fun es _ => Nat.zero_le es.length⟩
  · next some =>
    have three (es : List Char) (fraction : Fraction nanos es) : 3 ≤ es.length := by
      rcases fraction.places with zero | places
      · rw [List.length_eq_zero_iff.1 zero] at fraction
        exact absurd fraction.eq_zero some
      · omega
    split
    · exact fraction_padded (.inl rfl) (by omega) (by omega) three
    · next thousandths =>
      have six (es : List Char) (fraction : Fraction nanos es) : 6 ≤ es.length := by
        have least := three es fraction
        have divides := fraction.divides
        rcases fraction.places with zero | length | places
        · omega
        · rw [length] at divides
          exact absurd (Nat.mod_eq_zero_of_dvd divides) thousandths
        · omega
      split
      · exact fraction_padded (.inr (.inl rfl)) (by omega) (by omega) six
      · next millionths =>
        have nine (es : List Char) (fraction : Fraction nanos es) : 9 ≤ es.length := by
          have least := six es fraction
          have divides := fraction.divides
          rcases fraction.places with zero | length | length | length
          · omega
          · omega
          · rw [length] at divides
            exact absurd (Nat.mod_eq_zero_of_dvd divides) millionths
          · omega
        exact fraction_padded (.inr (.inr rfl)) fits (by omega) nine

/-- Fractions are in the order of what they give, as the sign behind them comes before the point and
before every digit. A letter for the zone would come behind them. -/
theorem fractionChars_lt {nanos nanos' : Nat} (less : nanos < nanos') (fits : nanos' < 10 ^ 9)
    (rest rest' : List Char) :
    fractionChars nanos ++ '+' :: rest < fractionChars nanos' ++ '+' :: rest' := by
  obtain ⟨ds, point, shortest⟩ := fractionChars_shortest (less.trans fits)
  obtain ⟨es, point', shortest'⟩ := fractionChars_shortest fits
  have some : es ≠ [] := by
    rintro rfl
    rw [shortest'.eq_zero] at less
    exact absurd less (Nat.not_lt_zero nanos)
  rw [point, point', pointed, pointed, if_neg some]
  split
  · exact List.cons_lt_cons_iff.2 (.inl (by decide))
  · refine List.cons_lt_cons_iff.2 (.inr ⟨rfl, ?_⟩)
    have places := shortest.places
    have places' := shortest'.places
    have whole : ds.length + (9 - ds.length) = es.length + (9 - es.length) := by omega
    refine append_lt_append shortest.digits shortest'.digits whole
      (.inr ⟨'+', rest, rfl, by decide⟩) ?_
    rwa [shortest.value, shortest'.value]

/-! ## Parts -/

/-- Parts of as many digits are in the order of their numbers, and then of what follows them. -/
theorem padded_lt {width n n' : Nat} {rest rest' : List Char} (some : 0 < width)
    (fits : n < 10 ^ width ∧ n' < 10 ^ width) (less : n < n' ∨ n = n' ∧ rest < rest') :
    padded width n ++ rest < padded width n' ++ rest' := by
  rcases less with less | ⟨rfl, less⟩
  · have length : (padded width n).length = (padded width n').length := by
      rw [length_padded some fits.1, length_padded some fits.2]
    have places : (padded width n).length + 0 = (padded width n').length + 0 := length
    refine append_lt_append (padded_digits width n).digits (padded_digits width n').digits places
      (.inl length) ?_
    simpa [natOfDigits_padded] using less
  · exact List.Lex.append_left _ less _

/-- The characters of a date in front of others. -/
def dateChars (d : Day) (rest : List Char) : List Char :=
  padded 4 d.year.toNat ++ '-' :: (padded 2 d.month ++ '-' :: (padded 2 d.day ++ 'T' :: rest))

/-- The characters of a time without its fraction in front of others. -/
def timeChars (t : Instant) (rest : List Char) : List Char :=
  padded 2 (t.secondOfDay / 3600) ++ ':' :: (padded 2 (t.secondOfDay / 60 % 60) ++
    ':' :: (padded 2 t.writtenSecond ++ rest))

theorem dateChars_lt {d e : Day} {rest rest' : List Char} (start : 0 ≤ d.year)
    (year : d.year.toNat < 10 ^ 4 ∧ e.year.toNat < 10 ^ 4)
    (month : d.month < 10 ^ 2 ∧ e.month < 10 ^ 2) (day : d.day < 10 ^ 2 ∧ e.day < 10 ^ 2)
    (less : d.year < e.year ∨ d.year = e.year ∧ (d.month < e.month ∨
      d.month = e.month ∧ (d.day < e.day ∨ d.day = e.day ∧ rest < rest'))) :
    dateChars d rest < dateChars e rest' := by
  have years : d.year.toNat < e.year.toNat ∨ d.year.toNat = e.year.toNat ∧ (d.month < e.month ∨
      d.month = e.month ∧ (d.day < e.day ∨ d.day = e.day ∧ rest < rest')) :=
    less.imp (by omega) (And.imp_left (congrArg Int.toNat))
  refine padded_lt (by decide) year (years.imp_right (And.imp_right fun less => ?_))
  refine List.cons_lt_cons_self.2 (padded_lt (by decide) month
    (less.imp_right (And.imp_right fun less => ?_)))
  refine List.cons_lt_cons_self.2 (padded_lt (by decide) day
    (less.imp_right (And.imp_right fun less => ?_)))
  exact List.cons_lt_cons_self.2 less

/-! ## Instants -/

theorem before_iff {t u : Instant} : t.before u = true ↔
    t.seconds < u.seconds ∨ t.seconds = u.seconds ∧ t.nanos < u.nanos := by
  simp [before]

theorem before_trichotomy (t u : Instant) : t.before u = true ∨ t = u ∨ u.before t = true := by
  rw [before_iff, before_iff]
  by_cases same : t.seconds = u.seconds ∧ t.nanos = u.nanos
  · obtain ⟨seconds, nanos, proper⟩ := t
    obtain ⟨rfl, rfl⟩ := same
    exact .inr (.inl rfl)
  · omega

/-- Within a day the parts of the time are in the order of the instants: a leap second is written
as the sixtieth, and so comes behind all others of its minute. -/
theorem time_lt {t u : Instant} (day : t.seconds / 86400 = u.seconds / 86400)
    (before : t.before u = true) :
    t.secondOfDay / 3600 < u.secondOfDay / 3600 ∨
      t.secondOfDay / 3600 = u.secondOfDay / 3600 ∧
        (t.secondOfDay / 60 % 60 < u.secondOfDay / 60 % 60 ∨
          t.secondOfDay / 60 % 60 = u.secondOfDay / 60 % 60 ∧
            (t.writtenSecond < u.writtenSecond ∨
              t.writtenSecond = u.writtenSecond ∧ t.writtenNanos < u.writtenNanos)) := by
  have proper := t.proper
  have proper' := u.proper
  rw [before_iff] at before
  unfold writtenNanos writtenSecond secondOfDay
  split <;> split <;> omega

theorem timeChars_lt {t u : Instant} (day : t.seconds / 86400 = u.seconds / 86400)
    (before : t.before u = true) (rest rest' : List Char) :
    t.timeChars (fractionChars t.writtenNanos ++ '+' :: rest) <
      u.timeChars (fractionChars u.writtenNanos ++ '+' :: rest') := by
  have bounds (t : Instant) : t.secondOfDay / 3600 < 10 ^ 2 ∧ t.secondOfDay / 60 % 60 < 10 ^ 2 ∧
      t.writtenSecond < 10 ^ 2 := by
    have short := secondOfDay_lt t
    have most := (written_bounds t).2.1
    omega
  obtain ⟨hour, minute, second⟩ := bounds t
  obtain ⟨hour', minute', second'⟩ := bounds u
  refine padded_lt (by decide) ⟨hour, hour'⟩
    ((time_lt day before).imp_right (And.imp_right fun less => ?_))
  refine List.cons_lt_cons_self.2 (padded_lt (by decide) ⟨minute, minute'⟩
    (less.imp_right (And.imp_right fun less => ?_)))
  refine List.cons_lt_cons_self.2 (padded_lt (by decide) ⟨second, second'⟩
    (less.imp_right (And.imp_right fun less => ?_)))
  exact fractionChars_lt less (written_bounds u).1 rest rest'

/-- The year is written in four digits, without a sign. -/
def HasPlainYear (t : Instant) : Prop := 0 ≤ t.year ∧ t.year ≤ 9999

theorem HasPlainYear.writtenChars_eq {t : Instant} (plain : t.HasPlainYear) (zone : List Char) :
    t.writtenChars zone =
      dateChars t.day (t.timeChars (fractionChars t.writtenNanos ++ zone)) := by
  have year : yearChars t.year = padded 4 t.day.year.toNat := if_pos plain
  rw [Instant.writtenChars_eq, year, dateChars, timeChars]

/-- Instants are in the order of their characters, if their years are written alike. -/
theorem writtenChars_lt {t u : Instant} (plain : t.HasPlainYear) (plain' : u.HasPlainYear)
    (before : t.before u = true) (rest : List Char) :
    t.writtenChars ('+' :: rest) < u.writtenChars ('+' :: rest) := by
  have short (t : Instant) (plain : t.HasPlainYear) :
      t.day.year.toNat < 10 ^ 4 ∧ t.day.month < 10 ^ 2 ∧ t.day.day < 10 ^ 2 := by
    obtain ⟨-, months, -, days⟩ : 1 ≤ t.day.month ∧ t.day.month ≤ 12 ∧ 1 ≤ t.day.day ∧
      t.day.day ≤ monthLength t.year t.day.month := Day.ofNumber_proper (t.seconds / 86400)
    have monthDays := monthLength_le t.year t.day.month
    have last : t.day.year ≤ 9999 := plain.2
    omega
  obtain ⟨year, month, day⟩ := short t plain
  obtain ⟨year', month', day'⟩ := short u plain'
  have days : t.seconds / 86400 < u.seconds / 86400 ∨ t.seconds / 86400 = u.seconds / 86400 := by
    rw [before_iff] at before
    omega
  rw [plain.writtenChars_eq, plain'.writtenChars_eq]
  refine dateChars_lt plain.1 ⟨year, year'⟩ ⟨month, month'⟩ ⟨day, day'⟩ ?_
  rcases days with earlier | same
  · have precedes : t.day.Precedes u.day := Day.ofNumber_precedes earlier
    exact precedes.imp_right (And.imp_right (Or.imp_right (And.imp_right .inl)))
  · have day : t.day = u.day := congrArg Day.ofNumber same
    rw [day]
    exact .inr ⟨rfl, .inr ⟨rfl, .inr ⟨rfl, timeChars_lt same before rest rest⟩⟩⟩

/-! ## Texts -/

theorem rowText_lt {t u : Instant} (plain : t.HasPlainYear) (plain' : u.HasPlainYear)
    (before : t.before u = true) : t.rowText < u.rowText := by
  show t.rowText.toList < u.rowText.toList
  rw [rowText, rowText, String.toList_ofList, String.toList_ofList]
  exact writtenChars_lt plain plain' before _

/-- A text of an instant in universal time: the date, the time, the fewest digits behind the second
that give its nanoseconds, and the zone as an offset. -/
def Stamps (t : Instant) (text : String) : Prop :=
  ∃ ds, ShortestFraction t.writtenNanos ds ∧ text = String.ofList
    (dateChars t.day (t.timeChars (pointed ds ++ ['+', '0', '0', ':', '0', '0'])))

theorem HasPlainYear.stamps_rowText {t : Instant} (plain : t.HasPlainYear) :
    t.Stamps t.rowText := by
  obtain ⟨ds, point, shortest⟩ := fractionChars_shortest (written_bounds t).1
  exact ⟨ds, shortest, by rw [rowText, plain.writtenChars_eq, point]⟩

example : rowText ⟨1483228799, 1500000000, by decide⟩ = "2016-12-31T23:59:60.500+00:00" := by
  decide

theorem HasPlainYear.ascii {t : Instant} (plain : t.HasPlainYear) :
    ∀ c ∈ t.writtenChars ['+', '0', '0', ':', '0', '0'], c.toNat < 128 := by
  obtain ⟨ds, point, shortest⟩ := fractionChars_shortest (written_bounds t).1
  have part (width n : Nat) : ∀ c ∈ padded width n, c.toNat < 128 :=
    fun c member => toNat_of_isDigit ((padded_digits width n).digits c member)
  have behind : ∀ c ∈ pointed ds, c.toNat < 128 := by
    unfold pointed
    split
    · simp
    · exact List.forall_mem_cons.2
        ⟨by decide, fun c member => toNat_of_isDigit (shortest.digits c member)⟩
  rw [plain.writtenChars_eq, point, dateChars, timeChars]
  simp only [List.forall_mem_append, List.forall_mem_cons]
  exact ⟨part _ _, by decide, part _ _, by decide, part _ _, by decide, part _ _, by decide,
    part _ _, by decide, part _ _, behind, by decide, by decide, by decide, by decide, by decide,
    by decide, List.forall_mem_nil _⟩

/-- The bytes of the texts of instants compare as the instants do. -/
theorem bytes_rowText_lt_iff {t u : Instant} (plain : t.HasPlainYear) (plain' : u.HasPlainYear) :
    bytes t.rowText < bytes u.rowText ↔ t.before u = true := by
  have forth {t u : Instant} (plain : t.HasPlainYear) (plain' : u.HasPlainYear)
      (before : t.before u = true) : bytes t.rowText < bytes u.rowText :=
    bytes_lt plain.ascii plain'.ascii (writtenChars_lt plain plain' before _)
  refine ⟨fun less => ?_, forth plain plain'⟩
  rcases before_trichotomy t u with before | rfl | behind
  · exact before
  · exact absurd less (List.lt_irrefl _)
  · exact absurd less (List.lt_asymm (forth plain' plain behind))

-- A year of five digits has a sign, which comes before all other years.
example : rowText ⟨253402300800, 0, by decide⟩ < rowText ⟨253402300799, 0, by decide⟩ := by decide

end DialogueEngine.Instant
