import DialogueEngine.Json.Document
import DialogueEngine.Json.Writer

/-!
Scanning what has been written. Every token takes at least one character, so the tokens of a text
are its first token and those of the rest; and behind a written text or number the scanner stands
exactly where the writer stopped.
-/

namespace DialogueEngine.Json

/-! ## Progress -/

/-- A scan leaves no more than so many characters. -/
def Scan.Leaves {α : Type} (most : Nat) : Scan α → Prop
  | .found _ rest => rest.length ≤ most
  | .broken _ _ => True

theorem Scan.Leaves.mono {α : Type} {most more : Nat} {x : Scan α} (leaves : x.Leaves most)
    (le : most ≤ more) : x.Leaves more := by
  cases x with
  | found a rest => exact Nat.le_trans leaves le
  | broken r s => trivial

theorem scanText_leaves (g : Gathered) (cs : List Char) : (scanText g cs).Leaves cs.length := by
  fun_induction scanText g cs with
  | case2 g rest => exact Nat.le_succ rest.length
  | case3 g a b c d rest n unit ih =>
    exact ih.mono (by simp only [List.length_cons]; omega)
  | case6 g c rest _ _ d escape ih => exact ih.mono (by simp only [List.length_cons]; omega)
  | case10 g c rest _ _ _ _ _ _ ih => exact ih.mono (Nat.le_succ rest.length)
  | _ => trivial

theorem scanLiteral_leaves (ls cs : List Char) : (scanLiteral ls cs).Leaves cs.length := by
  fun_induction scanLiteral ls cs with
  | case1 cs => exact Nat.le_refl cs.length
  | case3 ls c cs ih => exact ih.mono (Nat.le_succ cs.length)
  | _ => trivial

theorem length_spanDigits (cs : List Char) :
    (spanDigits cs).1.length + (spanDigits cs).2.length = cs.length := by
  rw [← List.length_append, spanDigits, List.takeWhile_append_dropWhile]

theorem missingDigit_leaves {α : Type} (cs : List Char) (most : Nat) :
    (missingDigit cs : Scan α).Leaves most := by
  cases cs <;> trivial

/-- The digits of a power behind its sign. -/
theorem signed_leaves (down : Bool) {ds : List Char} {most : Nat} (le : ds.length ≤ most) :
    (match spanDigits ds with
      | ([], rest) => missingDigit rest
      | (digits, rest) => Scan.found (some (down, digits)) rest).Leaves most := by
  have total := length_spanDigits ds
  split
  · exact missingDigit_leaves _ _
  · next digits rest _ split =>
    rw [split] at total
    simp only [Scan.Leaves] at total ⊢
    omega

theorem scanPower_leaves (cs : List Char) : (scanPower cs).Leaves cs.length := by
  cases cs with
  | nil => exact Nat.le_refl 0
  | cons c cs =>
    simp only [scanPower]
    split
    · apply signed_leaves
      split <;> simp only [List.length_cons] <;> omega
    · exact Nat.le_refl _

theorem scanTail_leaves (negative : Bool) (whole cs : List Char) :
    (scanTail negative whole cs).Leaves cs.length := by
  unfold scanTail
  split
  · next cs =>
    have total := length_spanDigits cs
    split
    · exact missingDigit_leaves _ _
    · next fraction rest _ split =>
      rw [split] at total
      have power := scanPower_leaves rest
      split
      · next found =>
        rw [found] at power
        simp only [Scan.Leaves, List.length_cons] at power total ⊢
        omega
      · trivial
  · have power := scanPower_leaves cs
    split
    · next found =>
      rw [found] at power
      exact power
    · trivial

theorem scanUnsigned_leaves (negative : Bool) (c : Char) (cs : List Char) :
    (scanUnsigned negative (c :: cs)).Leaves cs.length := by
  unfold scanUnsigned
  have total := length_spanDigits (c :: cs)
  split
  · exact missingDigit_leaves _ _
  · trivial
  · next whole rest some _ split =>
    rw [split] at total
    apply (scanTail_leaves negative whole rest).mono
    have digits : 0 < whole.length := List.length_pos_iff.2 fun none => by simp_all
    simp only [List.length_cons] at total
    omega

theorem scanNumber_leaves (c : Char) (cs : List Char) :
    (scanNumber (c :: cs)).Leaves cs.length := by
  unfold scanNumber
  split
  · next same =>
    cases same
    cases cs with
    | nil => trivial
    | cons d ds => exact (scanUnsigned_leaves true d ds).mono (Nat.le_succ _)
  · exact scanUnsigned_leaves false c cs

theorem ite_leaves {most : Nat} {p : Prop} [Decidable p] {a b : Token × List Char}
    (yes : a.2.length ≤ most) (no : b.2.length ≤ most) :
    (if p then a else b).2.length ≤ most := by
  split
  · exact yes
  · exact no

theorem literal_leaves (ls cs : List Char) (t : Token) : (match scanLiteral ls cs with
    | .found () rest => (t, rest)
    | .broken r s => (.broken r s, [])).2.length ≤ cs.length := by
  have left := scanLiteral_leaves ls cs
  split
  · next found =>
    rw [found] at left
    exact left
  · exact Nat.zero_le _

theorem nextToken_leaves (c : Char) (cs : List Char) : (nextToken c cs).2.length ≤ cs.length := by
  have same : cs.length ≤ cs.length := Nat.le_refl _
  have literal (ls : List Char) (t : Token) := literal_leaves ls cs t
  unfold nextToken
  refine ite_leaves same (ite_leaves same (ite_leaves same (ite_leaves same
    (ite_leaves same (ite_leaves same (ite_leaves ?text ?_))))))
  case text =>
    have left := scanText_leaves (.ok ([], none)) cs
    split
    · next found =>
      rw [found] at left
      exact left
    · exact Nat.zero_le _
  refine ite_leaves (literal _ _) (ite_leaves (literal _ _) (ite_leaves (literal _ _)
    (ite_leaves ?number (Nat.zero_le _))))
  have left := scanNumber_leaves c cs
  split
  · next found =>
    rw [found] at left
    exact left
  · exact Nat.zero_le _

/-! ## Tokens -/

theorem tokensWithin_eq {fuel : Nat} {cs : List Char} (enough : cs.length ≤ fuel) :
    tokensWithin fuel cs = tokens cs := by
  suffices every : ∀ n (cs : List Char), cs.length ≤ n → ∀ fuel, cs.length ≤ fuel →
      tokensWithin fuel cs = tokensWithin n cs from every _ cs (Nat.le_refl _) _ enough
  intro n
  induction n with
  | zero =>
    intro cs small fuel enough
    obtain rfl := List.eq_nil_of_length_eq_zero (Nat.le_zero.1 small)
    cases fuel <;> rfl
  | succ n ih =>
    intro cs small fuel enough
    cases cs with
    | nil => cases fuel <;> rfl
    | cons c cs =>
      obtain ⟨fuel, rfl⟩ := Nat.exists_eq_add_one_of_ne_zero (Nat.ne_of_gt (Nat.lt_of_lt_of_le
        (Nat.succ_pos _) enough))
      simp only [List.length_cons, Nat.add_le_add_iff_right] at small enough
      have left := nextToken_leaves c cs
      simp only [tokensWithin]
      split
      · exact ih cs small fuel enough
      · rw [ih _ (Nat.le_trans left small) fuel (Nat.le_trans left enough)]

/-- A text that does not begin with a gap is its first token and the tokens of the rest. -/
theorem tokens_cons {c : Char} {cs : List Char} (solid : isGap c = false) :
    tokens (c :: cs) = (nextToken c cs).1 :: tokens (nextToken c cs).2 := by
  rw [tokens, List.length_cons, tokensWithin, if_neg (by simp [solid])]
  exact congrArg _ (tokensWithin_eq (nextToken_leaves c cs))

/-! ## Texts -/

theorem hexUnit_control {n : Nat} (control : n < 32) :
    hexUnit? '0' '0' (hexDigit (n / 16)) (hexDigit (n % 16)) = some n := by
  have all : ∀ n < 32, hexUnit? '0' '0' (hexDigit (n / 16)) (hexDigit (n % 16)) = some n := by
    decide
  exact all n control

/-- A character that is written is read. -/
theorem scanText_escapeChar (read : List Char) (c : Char) (rest : List Char) :
    scanText (.ok (read, none)) (escapeChar c ++ rest) = scanText (.ok (c :: read, none)) rest := by
  unfold escapeChar
  split
  · next same => subst same; rfl
  split
  · next same => subst same; rfl
  next slash =>
  split
  · next control =>
    iterate 5
      split
      · next same => subst same; rfl
    have small : ¬ (0xDC00 ≤ c.toNat ∧ c.toNat ≤ 0xDFFF) := by omega
    have notLead : ¬ (0xD800 ≤ c.toNat ∧ c.toNat ≤ 0xDBFF) := by omega
    simp only [List.cons_append, List.nil_append, scanText, hexUnit_control control,
      Gathered.pushUnit, if_neg small, if_neg notLead, Char.ofNat_toNat]
  · next plain =>
    have notControl : ¬ c.toNat < 32 := by omega
    rw [List.singleton_append, scanText.eq_def]
    simp [slash, notControl, Gathered.push]

theorem scanText_escaped (read cs rest : List Char) :
    scanText (.ok (read, none)) (cs.flatMap escapeChar ++ '"' :: rest) =
      .found (.ok (String.ofList (read.reverse ++ cs))) rest := by
  induction cs generalizing read with
  | nil => simp [scanText, Gathered.finish]
  | cons c cs ih =>
    rw [List.flatMap_cons, List.append_assoc, scanText_escapeChar, ih]
    simp

/-- A written text is one token. -/
theorem tokens_quoted (s : String) (rest : List Char) :
    tokens (quoted s ++ rest) = .string (.ok s) :: tokens rest := by
  have scanned : nextToken '"' (s.toList.flatMap escapeChar ++ '"' :: rest) =
      (.string (.ok s), rest) := by
    have text := scanText_escaped [] s.toList rest
    rw [List.reverse_nil, List.nil_append, String.ofList_toList] at text
    simp [nextToken, text]
  have front : quoted s ++ rest = '"' :: (s.toList.flatMap escapeChar ++ '"' :: rest) := by
    simp [quoted]
  rw [front, tokens_cons rfl, scanned]

end DialogueEngine.Json
