import DialogueEngine.Proofs.Json.Scanning
import DialogueEngine.Proofs.Number.Shortest

/-!
Scanning written numbers. A number is written in parts: whole digits without a zero in front, digits
behind a point, and a power of ten. The scanner finds the same parts where the text goes on with a
mark or ends.
-/

namespace DialogueEngine.Json

/-- Digits, at least one. -/
structure Digits (cs : List Char) : Prop where
  some : cs ≠ []
  digits : ∀ c ∈ cs, c.isDigit = true

/-- Digits without a zero in front of others. -/
structure Whole (cs : List Char) : Prop extends Digits cs where
  minimal : ∀ rest, cs = '0' :: rest → rest = []

namespace NumberParts

/-- The characters of the fraction. -/
def fractionChars (p : NumberParts) : List Char :=
  match p.fraction with
  | none => []
  | some f => '.' :: f

/-- The characters of the power of ten. -/
def powerChars (p : NumberParts) : List Char :=
  match p.power with
  | none => []
  | some (down, ds) => 'e' :: (if down then '-' else '+') :: ds

/-- The characters of the parts without the sign. -/
def unsigned (p : NumberParts) : List Char := p.whole ++ (p.fractionChars ++ p.powerChars)

/-- The characters of the parts. -/
def written (p : NumberParts) : List Char :=
  if p.negative then '-' :: p.unsigned else p.unsigned

/-- Parts that a number may be written in. -/
structure Proper (p : NumberParts) : Prop where
  whole : Whole p.whole
  fraction : ∀ f, p.fraction = some f → Digits f
  power : ∀ down ds, p.power = some (down, ds) → Digits ds

/-- The power of ten that is written. -/
def ten (p : NumberParts) : Int :=
  match p.power with
  | none => 0
  | some (true, ds) => -natOfDigits ds
  | some (false, ds) => natOfDigits ds

/-- Parts that show a fraction or a power and denote `s * 10 ^ e`. -/
structure Denotes (p : NumberParts) (s : Nat) (e : Int) : Prop where
  marked : p.fraction.isSome = true ∨ p.power.isSome = true
  digits : natOfDigits (p.whole ++ p.fraction.getD []) = s
  exponent : p.ten - (p.fraction.getD []).length = e

end NumberParts

/-- Where a value ends: the text ends too or goes on with a mark. -/
def Ends (rest : List Char) : Prop := ∀ c cs, rest = c :: cs → c = ',' ∨ c = ']' ∨ c = '}'

theorem Ends.nil : Ends [] := fun _ _ same => by cases same

theorem Ends.mark {c : Char} (mark : c = ',' ∨ c = ']' ∨ c = '}') (cs : List Char) :
    Ends (c :: cs) := by
  intro d ds same
  cases same
  exact mark

/-- Text that digits end in front of. -/
def Stops (rest : List Char) : Prop := ∀ c cs, rest = c :: cs → c.isDigit = false

theorem Ends.stops {rest : List Char} (ends : Ends rest) : Stops rest := by
  intro c cs same
  rcases ends c cs same with rfl | rfl | rfl <;> rfl

theorem spanDigits_append {ds rest : List Char} (digits : ∀ c ∈ ds, c.isDigit = true)
    (stops : Stops rest) : spanDigits (ds ++ rest) = (ds, rest) := by
  unfold spanDigits
  rw [List.takeWhile_append_of_pos digits, List.dropWhile_append_of_pos digits]
  cases rest with
  | nil => simp
  | cons c cs => simp [stops c cs rfl]

theorem scanPower_written {p : NumberParts} (proper : p.Proper) {rest : List Char}
    (ends : Ends rest) : scanPower (p.powerChars ++ rest) = .found p.power rest := by
  unfold NumberParts.powerChars
  cases power : p.power with
  | none =>
    cases rest with
    | nil => rfl
    | cons c cs =>
      rcases ends c cs rfl with rfl | rfl | rfl <;> rfl
  | some given =>
    obtain ⟨down, ds⟩ := given
    have digits := proper.power down ds power
    have split := spanDigits_append digits.digits ends.stops
    cases ds with
    | nil => exact absurd rfl digits.some
    | cons d ds =>
      rw [List.cons_append] at split
      cases down <;>
        simp only [List.cons_append, scanPower, split, Bool.false_eq_true, if_false, if_true,
          true_or]

theorem powerChars_stops {p : NumberParts} {rest : List Char} (ends : Ends rest) :
    Stops (p.powerChars ++ rest) := by
  unfold NumberParts.powerChars
  cases p.power with
  | none => exact ends.stops
  | some given =>
    intro c cs same
    cases same
    rfl

theorem scanTail_written {p : NumberParts} (proper : p.Proper) {rest : List Char}
    (ends : Ends rest) :
    scanTail p.negative p.whole (p.fractionChars ++ (p.powerChars ++ rest)) = .found p rest := by
  have power := scanPower_written proper ends
  unfold NumberParts.fractionChars
  cases fraction : p.fraction with
  | none =>
    rw [List.nil_append]
    unfold scanTail
    split
    · next cs same =>
      unfold NumberParts.powerChars at same
      cases given : p.power with
      | none =>
        rw [given] at same
        rcases ends '.' cs same with dot | dot | dot <;> cases dot
      | some ten =>
        rw [given] at same
        cases same
    · rw [power, ← fraction]
  | some f =>
    have digits := proper.fraction f fraction
    have split := spanDigits_append digits.digits (powerChars_stops (p := p) ends)
    cases f with
    | nil => exact absurd rfl digits.some
    | cons d ds =>
      rw [List.cons_append] at split
      simp only [List.cons_append, scanTail, split, power, ← fraction]

theorem scanUnsigned_written {p : NumberParts} (proper : p.Proper) {rest : List Char}
    (ends : Ends rest) : scanUnsigned p.negative (p.unsigned ++ rest) = .found p rest := by
  have stops : Stops (p.fractionChars ++ (p.powerChars ++ rest)) := by
    unfold NumberParts.fractionChars
    cases p.fraction with
    | none => exact powerChars_stops ends
    | some f =>
      intro c cs same
      cases same
      rfl
  have split := spanDigits_append proper.whole.digits stops
  have tail := scanTail_written proper ends
  rw [NumberParts.unsigned, List.append_assoc, List.append_assoc, scanUnsigned, split]
  cases whole : p.whole with
  | nil => exact absurd whole proper.whole.some
  | cons d ds =>
    rw [whole] at tail
    split
    · next same => cases same
    · next same =>
      cases same
      exact absurd (proper.whole.minimal _ whole) (by simp)
    · next same =>
      cases same
      exact tail

/-- The scanner finds the parts that were written. -/
theorem scanNumber_written {p : NumberParts} (proper : p.Proper) {rest : List Char}
    (ends : Ends rest) : scanNumber (p.written ++ rest) = .found p rest := by
  have unsigned := scanUnsigned_written proper ends
  unfold NumberParts.written
  cases negative : p.negative with
  | true =>
    rw [negative] at unsigned
    exact unsigned
  | false =>
    rw [negative] at unsigned
    simp only [Bool.false_eq_true, if_false]
    unfold scanNumber
    split
    · next cs same =>
      cases whole : p.whole with
      | nil => exact absurd whole proper.whole.some
      | cons d ds =>
        rw [NumberParts.unsigned, whole] at same
        cases same
        have sign := proper.whole.digits '-' (by simp [whole])
        cases sign
    · exact unsigned

/-! ## Digits as numbers -/

open DialogueEngine.Number (digitChars positional scientific shortText shortest_digits)

theorem foldl_digits (n : Nat) (cs : List Char) :
    cs.foldl (fun n c => n * 10 + digitValue c) n = n * 10 ^ cs.length + natOfDigits cs := by
  unfold natOfDigits
  induction cs generalizing n with
  | nil => simp
  | cons c cs ih =>
    rw [List.foldl_cons, List.foldl_cons, ih, ih (0 * 10 + digitValue c), List.length_cons,
      Nat.pow_succ]
    ring

theorem natOfDigits_append (cs ds : List Char) :
    natOfDigits (cs ++ ds) = natOfDigits cs * 10 ^ ds.length + natOfDigits ds := by
  rw [natOfDigits, List.foldl_append, foldl_digits]
  rfl

theorem natOfDigits_cons (c : Char) (cs : List Char) :
    natOfDigits (c :: cs) = digitValue c * 10 ^ cs.length + natOfDigits cs := by
  have split := natOfDigits_append [c] cs
  simpa [natOfDigits] using split

theorem natOfDigits_zeros (n : Nat) : natOfDigits (List.replicate n '0') = 0 := by
  induction n with
  | zero => rfl
  | succ n ih =>
    rw [List.replicate_succ, natOfDigits_cons, ih, show digitValue '0' = 0 by rfl, Nat.zero_mul]

theorem natOfDigits_digitChars (n : Nat) : natOfDigits (digitChars n) = n := by
  have single : ∀ n < 10, digitValue (Nat.digitChar n) = n := by decide
  induction n using Nat.strongRecOn with
  | ind n ih =>
    by_cases small : n < 10
    · rw [digitChars, Nat.toDigits_of_lt_base small, natOfDigits_cons, single n small]
      simp [natOfDigits]
    · have front := ih (n / 10) (by omega)
      rw [digitChars] at front ⊢
      rw [Nat.toDigits_of_base_le (by decide) (Nat.not_lt.1 small), natOfDigits_append, front,
        natOfDigits_cons, single (n % 10) (by omega)]
      simp [natOfDigits]
      omega

/-- Digits are gathered whole while the number they make fits 64 bits. -/
theorem gatherDigits_fits {n : Nat} {cs : List Char}
    (fits : n * 10 ^ cs.length + natOfDigits cs ≤ maxUnsigned) :
    gatherDigits n cs = (n * 10 ^ cs.length + natOfDigits cs, []) := by
  induction cs generalizing n with
  | nil => simp [gatherDigits, natOfDigits]
  | cons c cs ih =>
    have rest : (n * 10 + digitValue c) * 10 ^ cs.length + natOfDigits cs =
        n * 10 ^ (c :: cs).length + natOfDigits (c :: cs) := by
      rw [natOfDigits_cons, List.length_cons, Nat.pow_succ]
      ring
    have first : n * 10 + digitValue c ≤ maxUnsigned := by
      rw [← rest] at fits
      have power : 0 < 10 ^ cs.length := Nat.pow_pos (by decide)
      exact (Nat.le_mul_of_pos_right _ power).trans ((Nat.le_add_right _ _).trans fits)
    rw [gatherDigits, if_pos first, ih (rest ▸ fits), rest]

/-- Digits that are gathered whole make their number. -/
theorem eq_of_gatherDigits {n m : Nat} {cs : List Char} (whole : gatherDigits n cs = (m, [])) :
    m = n * 10 ^ cs.length + natOfDigits cs := by
  induction cs generalizing n with
  | nil =>
    cases whole
    simp [natOfDigits]
  | cons c cs ih =>
    rw [gatherDigits] at whole
    split at whole
    · rw [ih whole, natOfDigits_cons, List.length_cons, Nat.pow_succ]
      ring
    · cases whole

/-- What is denoted is read as a double, unless its digits or its power are too many. -/
theorem NumberParts.value_of_denotes {p : NumberParts} {s : Nat} {e : Int}
    (denotes : p.Denotes s e) (fits : s ≤ maxUnsigned)
    (power : ∀ down ds, p.power = some (down, ds) → natOfDigits ds < 2 ^ 31) :
    p.value = doubleOfParts p.negative s e := by
  obtain ⟨marked, digits, exponent⟩ := denotes
  obtain ⟨negative, whole, fraction, ten⟩ := p
  dsimp only at marked digits power exponent ⊢
  rw [natOfDigits_append] at digits
  have front : gatherDigits 0 whole = (natOfDigits whole, []) := by
    have positive : 0 < 10 ^ (fraction.getD []).length := Nat.pow_pos (by decide)
    have grown := Nat.le_mul_of_pos_right (natOfDigits whole) positive
    have gathered : gatherDigits 0 whole = (0 * 10 ^ whole.length + natOfDigits whole, []) :=
      gatherDigits_fits (by omega)
    rwa [Nat.zero_mul, Nat.zero_add] at gathered
  have powers (down : Bool) (ds : List Char) (given : ten = some (down, ds)) :
      ¬ 2 ^ 31 ≤ natOfDigits ds := Nat.not_le.2 (power down ds given)
  cases fraction with
  | none =>
    have same : natOfDigits whole = s := by simpa [natOfDigits] using digits
    cases ten with
    | none => simp at marked
    | some ten =>
      obtain ⟨down, ds⟩ := ten
      simp only [NumberParts.value, front, same, if_neg (powers down ds rfl), ← exponent]
      cases down <;> simp [NumberParts.ten]
  | some f =>
    rw [Option.getD_some] at digits exponent
    have rest : gatherDigits (natOfDigits whole) f =
        (natOfDigits whole * 10 ^ f.length + natOfDigits f, []) :=
      gatherDigits_fits (digits ▸ fits)
    rw [digits] at rest
    cases ten with
    | none =>
      simp only [NumberParts.value, front, rest, Option.isSome_some, true_or, if_true, ← exponent]
      simp [NumberParts.ten]
    | some ten =>
      obtain ⟨down, ds⟩ := ten
      simp only [NumberParts.value, front, rest, if_neg (powers down ds rfl), ← exponent]
      congr 1
      cases down <;> simp only [NumberParts.ten, if_true, Bool.false_eq_true, if_false,
        List.length_nil] <;> omega

/-! ## The writer -/

theorem digits_digitChars (n : Nat) : Digits (digitChars n) where
  some := Nat.toDigits_ne_nil
  digits := fun _ member => Nat.isDigit_of_mem_toDigits (by decide) (by decide) member

theorem digitChars_ne_zero_cons {n : Nat} (positive : 0 < n) (rest : List Char) :
    digitChars n ≠ '0' :: rest := by
  induction n using Nat.strongRecOn generalizing rest with
  | ind n ih =>
    by_cases small : n < 10
    · have all : ∀ n < 10, 0 < n → Nat.digitChar n ≠ '0' := by decide
      rw [digitChars, Nat.toDigits_of_lt_base small]
      intro same
      exact all n small positive (List.cons.inj same).1
    · rw [digitChars, Nat.toDigits_of_base_le (by decide) (Nat.not_lt.1 small)]
      cases front : Nat.toDigits 10 (n / 10) with
      | nil => exact absurd front Nat.toDigits_ne_nil
      | cons c cs =>
        intro same
        rw [List.cons_append] at same
        obtain ⟨rfl, -⟩ := List.cons.inj same
        exact ih (n / 10) (by omega) (by omega) cs front

theorem whole_digitChars (n : Nat) : Whole (digitChars n) where
  toDigits := digits_digitChars n
  minimal := by
    intro rest same
    rcases Nat.eq_zero_or_pos n with rfl | positive
    · rw [digitChars, Nat.toDigits_zero] at same
      exact (List.cons.inj same).2.symm
    · exact absurd same (digitChars_ne_zero_cons positive rest)

theorem whole_zero : Whole ['0'] where
  some := by simp
  digits := by simp
  minimal := fun rest same => (List.cons.inj same).2.symm

theorem Digits.append {cs ds : List Char} (first : Digits cs)
    (second : ∀ c ∈ ds, c.isDigit = true) : Digits (cs ++ ds) where
  some := by simp [first.some]
  digits := by
    intro c member
    rcases List.mem_append.1 member with left | right
    · exact first.digits c left
    · exact second c right

theorem isDigit_of_mem_zeros {n : Nat} {c : Char} (member : c ∈ List.replicate n '0') :
    c.isDigit = true := by
  rw [List.eq_of_mem_replicate member]
  rfl

/-- Digits that begin with a digit other than zero may stand in front of others. -/
theorem whole_of_front {cs ds : List Char} (first : Digits cs) (front : ∀ rest, cs ≠ '0' :: rest)
    (second : ∀ c ∈ ds, c.isDigit = true) : Whole (cs ++ ds) where
  toDigits := first.append second
  minimal := by
    intro rest same
    cases cs with
    | nil => exact absurd rfl first.some
    | cons c cs =>
      rw [List.cons_append] at same
      obtain ⟨rfl, -⟩ := List.cons.inj same
      exact absurd rfl (front cs)

theorem Digits.take {cs : List Char} (digits : Digits cs) {n : Nat} (positive : 0 < n) :
    Digits (cs.take n) where
  some := by
    rw [ne_eq, List.take_eq_nil_iff, not_or]
    exact ⟨by omega, digits.some⟩
  digits := fun c member => digits.digits c (List.mem_of_mem_take member)

theorem Digits.drop {cs : List Char} (digits : Digits cs) {n : Nat} (inside : n < cs.length) :
    Digits (cs.drop n) where
  some := by
    rw [ne_eq, List.drop_eq_nil_iff]
    omega
  digits := fun c member => digits.digits c (List.mem_of_mem_drop member)

theorem take_ne_zero_cons {cs : List Char} (front : ∀ rest, cs ≠ '0' :: rest) (n : Nat)
    (rest : List Char) : cs.take n ≠ '0' :: rest := by
  intro same
  apply front (rest ++ cs.drop n)
  rw [← List.cons_append, ← same, List.take_append_drop]

/-- Digits with the point set among or beside them are parts without a power. In front of a point
that stands behind all digits the zeros count, and one stands behind it. -/
theorem positional_written {digits : List Char} (digit : Digits digits)
    (front : ∀ rest, digits ≠ '0' :: rest) (e : Int) :
    ∃ p : NumberParts, p.Proper ∧ positional digits e = p.unsigned ∧ p.power = none ∧
      if 0 ≤ e then p.Denotes (natOfDigits digits * 10 ^ (e.toNat + 1)) (-1)
      else p.Denotes (natOfDigits digits) e := by
  have parts {whole fraction : List Char} (first : Whole whole) (second : Digits fraction) :
      ∃ p : NumberParts, p.Proper ∧ whole ++ '.' :: fraction = p.unsigned ∧ p.power = none ∧
        p.Denotes (natOfDigits (whole ++ fraction)) (-fraction.length) := by
    refine ⟨⟨false, whole, some fraction, none⟩, ⟨first, ?_, by simp⟩, ?_, rfl, ⟨by simp, rfl, ?_⟩⟩
    · intro f same
      cases same
      exact second
    · simp [NumberParts.unsigned, NumberParts.fractionChars, NumberParts.powerChars]
    · simp [NumberParts.ten]
  unfold positional
  by_cases up : 0 ≤ e
  · simp only [if_pos up]
    obtain ⟨p, proper, same, none, denotes⟩ := parts
      (whole_of_front digit front fun c => isDigit_of_mem_zeros (n := e.toNat)) whole_zero.toDigits
    have value : natOfDigits ((digits ++ List.replicate e.toNat '0') ++ ['0']) =
        natOfDigits digits * 10 ^ (e.toNat + 1) := by
      rw [List.append_assoc, ← List.replicate_succ', natOfDigits_append, natOfDigits_zeros,
        List.length_replicate, Nat.add_zero]
    rw [value] at denotes
    exact ⟨p, proper, same, none, denotes⟩
  · simp only [if_neg up]
    split
    · next inside =>
      have whole : Whole (digits.take (digits.length - (-e).toNat) ++ []) :=
        whole_of_front (digit.take (by omega)) (take_ne_zero_cons front _) (by simp)
      rw [List.append_nil] at whole
      obtain ⟨p, proper, same, none, denotes⟩ :=
        parts whole (digit.drop (n := digits.length - (-e).toNat) (by omega))
      have places : -((digits.drop (digits.length - (-e).toNat)).length : Int) = e := by
        rw [List.length_drop]
        omega
      rw [List.take_append_drop, places] at denotes
      exact ⟨p, proper, same, none, denotes⟩
    · next beside =>
      have zeros : Digits (List.replicate ((-e).toNat - digits.length) '0' ++ digits) :=
        { some := by simp [digit.some]
          digits := by
            intro c member
            rcases List.mem_append.1 member with left | right
            · exact isDigit_of_mem_zeros left
            · exact digit.digits c right }
      obtain ⟨p, proper, same, none, denotes⟩ := parts whole_zero zeros
      have value : natOfDigits (['0'] ++ (List.replicate ((-e).toNat - digits.length) '0' ++
          digits)) = natOfDigits digits := by
        rw [← List.append_assoc, show ['0'] = List.replicate 1 '0' by rfl,
          List.replicate_append_replicate, natOfDigits_append, natOfDigits_zeros, Nat.zero_mul,
          Nat.zero_add]
      have places : -((List.replicate ((-e).toNat - digits.length) '0' ++ digits).length : Int) =
          e := by
        rw [List.length_append, List.length_replicate]
        omega
      rw [value, places] at denotes
      exact ⟨p, proper, same, none, denotes⟩

/-- Digits with a power of ten are parts that have one whole digit. -/
theorem scientific_written {digits : List Char} (digit : Digits digits) (e : Int) :
    ∃ p : NumberParts, p.Proper ∧ scientific digits e = p.unsigned ∧
      (∀ down ds, p.power = some (down, ds) → natOfDigits ds = (e + digits.length - 1).natAbs) ∧
      p.Denotes (natOfDigits digits) e := by
  unfold scientific
  dsimp only
  have power (k : Int) : ∀ down ds, some (decide (k < 0), digitChars k.natAbs) = some (down, ds) →
      Digits ds ∧ natOfDigits ds = k.natAbs := by
    intro down ds same
    cases same
    exact ⟨digits_digitChars _, natOfDigits_digitChars _⟩
  have ten (whole : List Char) (fraction : Option (List Char)) (k : Int) :
      (⟨false, whole, fraction, some (decide (k < 0), digitChars k.natAbs)⟩ : NumberParts).ten =
        k := by
    by_cases down : k < 0 <;>
      simp only [NumberParts.ten, down, decide_true, decide_false, natOfDigits_digitChars] <;> omega
  have single (c : Char) (isDigit : c.isDigit = true) : Whole [c] :=
    { some := by simp
      digits := by simpa using isDigit
      minimal := fun rest same => (List.cons.inj same).2.symm }
  cases digits with
  | nil => exact absurd rfl digit.some
  | cons c more =>
    have first := single c (digit.digits c List.mem_cons_self)
    cases more with
    | nil =>
      have powers := power (e + [c].length - 1)
      refine ⟨⟨false, [c], none, some (_, _)⟩,
        ⟨first, by simp, fun down ds same => (powers down ds same).1⟩, ?_,
        fun down ds same => (powers down ds same).2, ⟨by simp, by simp, ?_⟩⟩
      · simp [NumberParts.unsigned, NumberParts.fractionChars, NumberParts.powerChars]
      · rw [ten]
        simp
    | cons d more =>
      have rest : Digits (d :: more) :=
        { some := by simp
          digits := fun x member => digit.digits x (List.mem_cons_of_mem _ member) }
      have powers := power (e + (c :: d :: more).length - 1)
      refine ⟨⟨false, [c], some (d :: more), some (_, _)⟩,
        ⟨first, fun f same => ?_, fun down ds same => (powers down ds same).1⟩, ?_,
        fun down ds same => (powers down ds same).2, ⟨by simp, by simp, ?_⟩⟩
      · cases same
        exact rest
      · simp [NumberParts.unsigned, NumberParts.fractionChars, NumberParts.powerChars]
      · rw [ten]
        simp only [Option.getD_some, List.length_cons]
        omega

/-- Parts go with either sign. -/
theorem NumberParts.signed {p : NumberParts} (proper : p.Proper) (negative : Bool) :
    { p with negative }.Proper ∧
      (if negative then ['-'] else []) ++ p.unsigned = { p with negative }.written := by
  refine ⟨⟨proper.whole, proper.fraction, proper.power⟩, ?_⟩
  cases negative <;> rfl

/-- A double other than zero is written in parts that denote its shortest digits or, where the
point stands behind all of them, its digits up to the point and one behind it. -/
theorem shortText_written {d : Binary64} (nonzero : d.isZero = false) :
    ∃ p : NumberParts, p.Proper ∧
      shortText d = (if d.negative then ['-'] else []) ++ p.unsigned ∧
      ∃ s e, p.Denotes s e ∧
        (∀ down ds, p.power = some (down, ds) →
          natOfDigits ds = (e + (digitChars s).length - 1).natAbs) ∧
        ((s < 10 ^ 17 ∧ e = -1) ∨
          (s = (DialogueEngine.Number.shortest d).digits ∧
            e = (DialogueEngine.Number.shortest d).exponent)) := by
  have positive := Nat.pos_of_ne_zero (shortest_digits nonzero)
  have digit := digits_digitChars (DialogueEngine.Number.shortest d).digits
  unfold shortText
  rw [if_neg (by simp [nonzero])]
  dsimp only
  generalize DialogueEngine.Number.shortest d = decimal at *
  obtain ⟨digits, e⟩ := decimal
  dsimp only at *
  by_cases near : -5 < e + (digitChars digits).length ∧ e + (digitChars digits).length ≤ 16
  · obtain ⟨p, proper, same, none, denotes⟩ := positional_written digit
      (digitChars_ne_zero_cons positive) e
    refine ⟨p, proper, by rw [if_pos near, same], ?_⟩
    rw [natOfDigits_digitChars] at denotes
    by_cases up : 0 ≤ e
    · rw [if_pos up] at denotes
      refine ⟨_, _, denotes, by simp [none], .inl ⟨?_, rfl⟩⟩
      have few : digits < 10 ^ (digitChars digits).length :=
        (Nat.length_toDigits_le_iff (by decide) Nat.length_toDigits_pos).1 le_rfl
      have total : (digitChars digits).length + (e.toNat + 1) ≤ 17 := by omega
      calc
        digits * 10 ^ (e.toNat + 1)
            < 10 ^ (digitChars digits).length * 10 ^ (e.toNat + 1) :=
          Nat.mul_lt_mul_of_pos_right few (Nat.pow_pos (by decide))
        _ = 10 ^ ((digitChars digits).length + (e.toNat + 1)) := (Nat.pow_add ..).symm
        _ ≤ 10 ^ 17 := Nat.pow_le_pow_right (by decide) total
    · rw [if_neg up] at denotes
      exact ⟨_, _, denotes, by simp [none], .inr ⟨rfl, rfl⟩⟩
  · obtain ⟨p, proper, same, powers, denotes⟩ := scientific_written digit e
    rw [natOfDigits_digitChars] at denotes
    exact ⟨p, proper, by rw [if_neg near, same], _, _, denotes, powers, .inr ⟨rfl, rfl⟩⟩

/-- Every number is written in proper parts. -/
theorem Number.chars_written (n : Number) : ∃ p : NumberParts, p.Proper ∧ n.chars = p.written := by
  cases n with
  | int n =>
    have proper : (⟨false, digitChars n.natAbs, none, none⟩ : NumberParts).Proper :=
      ⟨whole_digitChars _, by simp, by simp⟩
    obtain ⟨proper', same⟩ := NumberParts.signed proper (decide (n < 0))
    refine ⟨_, proper', ?_⟩
    rw [← same]
    by_cases negative : n < 0 <;>
      simp [Number.chars, intChars, negative, NumberParts.unsigned, NumberParts.fractionChars,
        NumberParts.powerChars]
  | double d =>
    have parts : ∃ p : NumberParts, p.Proper ∧
        shortText d = (if d.negative then ['-'] else []) ++ p.unsigned := by
      cases zero : d.isZero with
      | true =>
        have fraction (f : List Char) (same : some ['0'] = some f) : Digits f := by
          cases same
          exact whole_zero.toDigits
        refine ⟨⟨false, ['0'], some ['0'], none⟩, ⟨whole_zero, fraction, by simp⟩, ?_⟩
        rw [shortText, if_pos zero]
        rfl
      | false =>
        obtain ⟨p, proper, same, -⟩ := shortText_written zero
        exact ⟨p, proper, same⟩
    obtain ⟨p, proper, same⟩ := parts
    obtain ⟨proper', signed⟩ := NumberParts.signed proper d.negative
    exact ⟨_, proper', same.trans signed⟩

end DialogueEngine.Json
