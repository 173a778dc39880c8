import DialogueEngine.Json.Reader
import DialogueEngine.Proofs.Json.Numbers

/-!
Written values as sources. The document of a written value is that value again, whole and with
nothing behind it, but for its numbers, which are read as they were written.
-/

namespace DialogueEngine.Json

/-- What is read where a number has been written. -/
def Number.reread (n : Number) : Except Fault Number :=
  match scanNumber n.chars with
  | .found p _ => p.value
  | .broken r _ => .error r

mutual

/-- A value as it is met again where it has been written. -/
def scanned : Json → Source
  | .null => .null
  | .bool b => .bool b
  | .number n => .number n.reread
  | .string s => .string (.ok s)
  | .array items => .array (scannedItems items) .closed
  | .object ms => .object (scannedMembers ms) .closed

/-- Items as they are met again. -/
def scannedItems : List Json → List Source
  | [] => []
  | v :: rest => scanned v :: scannedItems rest

/-- Members as they are met again. -/
def scannedMembers : List (String × Json) → List (Key × Source)
  | [] => []
  | (k, v) :: rest => (⟨.ok k⟩, scanned v) :: scannedMembers rest

end

theorem scannedItems_eq_map (items : List Json) : scannedItems items = items.map scanned := by
  induction items with
  | nil => rfl
  | cons v rest ih => simp only [scannedItems, ih, List.map_cons]

/-! ## Tokens -/

theorem nextToken_number {c : Char} (cs : List Char) (begins : c = '-' ∨ c.isDigit = true) :
    nextToken c cs =
      match scanNumber (c :: cs) with
      | .found parts rest => (.number parts.value, rest)
      | .broken r s => (.broken r s, []) := by
  have other (d : Char) (sign : d ≠ '-') (plain : d.isDigit = false) : c ≠ d := by
    rintro rfl
    rcases begins with minus | digit
    · exact sign minus
    · simp [plain] at digit
  cases scanned : scanNumber (c :: cs) <;>
    simp only [nextToken, if_neg (other '[' (by decide) rfl), if_neg (other ']' (by decide) rfl),
      if_neg (other '\x7b' (by decide) rfl), if_neg (other '\x7d' (by decide) rfl),
      if_neg (other ',' (by decide) rfl), if_neg (other ':' (by decide) rfl),
      if_neg (other '"' (by decide) rfl), if_neg (other 'n' (by decide) rfl),
      if_neg (other 't' (by decide) rfl), if_neg (other 'f' (by decide) rfl), if_pos begins,
      scanned]

theorem NumberParts.written_begins {p : NumberParts} (proper : p.Proper) :
    ∃ c cs, p.written = c :: cs ∧ (c = '-' ∨ c.isDigit = true) := by
  unfold written
  split
  · exact ⟨_, _, rfl, .inl rfl⟩
  · cases whole : p.whole with
    | nil => exact absurd whole proper.whole.some
    | cons c cs =>
      exact ⟨c, _, by rw [unsigned, whole]; rfl, .inr (proper.whole.digits c (by simp [whole]))⟩

theorem isGap_of_begins {c : Char} (begins : c = '-' ∨ c.isDigit = true) : isGap c = false := by
  rcases begins with rfl | digit
  · rfl
  · unfold isGap
    rcases Bool.eq_false_or_eq_true (c = ' ' || c = '\n' || c = '\t' || c = '\r') with gap | solid
    · simp only [Bool.or_eq_true, decide_eq_true_eq] at gap
      rcases gap with ((rfl | rfl) | rfl) | rfl <;> simp at digit
    · exact solid

/-- A written number is one token where it ends. -/
theorem tokens_number (n : Number) {rest : List Char} (ends : Ends rest) :
    tokens (n.chars ++ rest) = .number n.reread :: tokens rest := by
  obtain ⟨p, proper, same⟩ := n.chars_written
  obtain ⟨c, cs, front, begins⟩ := NumberParts.written_begins proper
  have reread : n.reread = p.value := by
    have found := scanNumber_written proper Ends.nil
    rw [List.append_nil, ← same] at found
    rw [Number.reread, found]
  have found := scanNumber_written proper ends
  rw [front, List.cons_append] at found
  rw [same, front, List.cons_append, tokens_cons (isGap_of_begins begins),
    nextToken_number _ begins, found, reread]

/-! ## Documents -/

/-- A value is taken whole wherever it is due, whatever it stands in. -/
def Taken (v : Json) : Prop :=
  ∀ (frames : List Frame) (rest : List Char), Ends rest →
    ∃ t ts, tokens (v.chars ++ rest) = t :: ts ∧ t ≠ .closeArray ∧
      build (takeValue frames t) ts = build (afterValue v.scanned frames) (tokens rest)

theorem Taken.value {v : Json} (taken : Taken v) (frames : List Frame) {rest : List Char}
    (ends : Ends rest) :
    build (.running frames .value) (tokens (v.chars ++ rest)) =
      build (afterValue v.scanned frames) (tokens rest) := by
  obtain ⟨t, ts, split, -, built⟩ := taken frames rest ends
  rw [split]
  exact built

theorem Taken.firstItem {v : Json} (taken : Taken v) (frames : List Frame) {rest : List Char}
    (ends : Ends rest) :
    build (.running frames .firstItem) (tokens (v.chars ++ rest)) =
      build (afterValue v.scanned frames) (tokens rest) := by
  obtain ⟨t, ts, split, other, built⟩ := taken frames rest ends
  have value : takeToken frames .firstItem t = takeValue frames t := by
    cases t <;> first | rfl | exact absurd rfl other
  rw [split, ← built, build, value]

/-- A value of one token. -/
theorem Taken.ofToken {v : Json} {t : Token}
    (one : ∀ rest, Ends rest → tokens (v.chars ++ rest) = t :: tokens rest)
    (other : t ≠ .closeArray) (value : ∀ frames, takeValue frames t = afterValue v.scanned frames) :
    Taken v := by
  intro frames rest ends
  exact ⟨t, tokens rest, one rest ends, other, by rw [value]⟩

theorem Ends.items (items : List Json) (rest : List Char) :
    Ends (charsItems items ++ ']' :: rest) := by
  cases items with
  | nil => exact .mark (by simp) rest
  | cons v items => exact .mark (by simp) _

theorem Ends.members (ms : List (String × Json)) (rest : List Char) :
    Ends (charsMembers ms ++ '\x7d' :: rest) := by
  cases ms with
  | nil => exact .mark (by simp) rest
  | cons m ms => exact .mark (by simp) _

theorem build_colon {ms : List (Key × Source)} {outer : List Frame} {s : String}
    {rest : List Char} :
    build (.running (.object ms ⟨.ok s⟩ :: outer) .colon) (tokens (':' :: rest)) =
      build (.running (.object ms ⟨.ok s⟩ :: outer) .value) (tokens rest) := by
  rw [tokens_cons rfl]
  rfl

mutual

theorem taken : ∀ v : Json, Taken v
  | .null => .ofToken (fun rest _ => by rw [chars, List.cons_append, tokens_cons rfl]; rfl)
      (by simp) fun _ => rfl
  | .bool true => .ofToken (fun rest _ => by rw [chars, List.cons_append, tokens_cons rfl]; rfl)
      (by simp) fun _ => rfl
  | .bool false => .ofToken (fun rest _ => by rw [chars, List.cons_append, tokens_cons rfl]; rfl)
      (by simp) fun _ => rfl
  | .number n => .ofToken (fun rest ends => tokens_number n ends) (by simp) fun _ => rfl
  | .string s => .ofToken (fun rest _ => tokens_quoted s rest) (by simp) fun _ => rfl
  | .array [] => by
    intro frames rest ends
    refine ⟨.openArray, tokens (']' :: rest), ?_, by simp, ?_⟩
    · rw [chars, List.cons_append, tokens_cons rfl]
      rfl
    · rw [tokens_cons rfl]
      rfl
  | .array (v :: items) => by
    intro frames rest ends
    refine ⟨.openArray, tokens (v.chars ++ (charsItems items ++ ']' :: rest)), ?_, by simp, ?_⟩
    · rw [chars, List.cons_append, tokens_cons rfl]
      simp [nextToken]
    · calc
        build (takeValue frames .openArray) (tokens (v.chars ++ (charsItems items ++ ']' :: rest)))
          = build (afterValue v.scanned (.array [] :: frames))
              (tokens (charsItems items ++ ']' :: rest)) :=
            (taken v).firstItem (.array [] :: frames) (.items items rest)
        _ = build (afterValue (.array ([v.scanned].reverse ++ scannedItems items) .closed) frames)
              (tokens rest) := takenItems items [v.scanned] frames rest
        _ = _ := by simp [scanned, scannedItems]
  | .object [] => by
    intro frames rest ends
    refine ⟨.openObject, tokens ('\x7d' :: rest), ?_, by simp, ?_⟩
    · rw [chars, List.cons_append, tokens_cons rfl]
      rfl
    · rw [tokens_cons rfl]
      rfl
  | .object ((k, v) :: ms) => by
    intro frames rest ends
    refine ⟨.openObject,
      tokens (quoted k ++ ':' :: (v.chars ++ (charsMembers ms ++ '\x7d' :: rest))), ?_, by simp, ?_⟩
    · rw [chars, List.cons_append, tokens_cons rfl]
      simp [nextToken]
    · rw [tokens_quoted]
      calc
        _ = build (.running (.object [] ⟨.ok k⟩ :: frames) .colon)
              (tokens (':' :: (v.chars ++ (charsMembers ms ++ '\x7d' :: rest)))) := rfl
        _ = build (afterValue v.scanned (.object [] ⟨.ok k⟩ :: frames))
              (tokens (charsMembers ms ++ '\x7d' :: rest)) := by
            rw [build_colon, (taken v).value _ (.members ms rest)]
        _ = build (.running (.object [(⟨.ok k⟩, v.scanned)] noKey :: frames) .memberEnd)
              (tokens (charsMembers ms ++ '\x7d' :: rest)) := rfl
        _ = _ := takenMembers ms [(⟨.ok k⟩, v.scanned)] frames rest

theorem takenItems : ∀ (items : List Json) (read : List Source) (outer : List Frame)
    (rest : List Char),
    build (.running (.array read :: outer) .itemEnd) (tokens (charsItems items ++ ']' :: rest)) =
      build (afterValue (.array (read.reverse ++ scannedItems items) .closed) outer) (tokens rest)
  | [], read, outer, rest => by
    rw [charsItems, List.nil_append, tokens_cons rfl, scannedItems, List.append_nil]
    rfl
  | v :: items, read, outer, rest => by
    rw [charsItems, List.cons_append, tokens_cons rfl, List.append_assoc]
    calc
      _ = build (.running (.array read :: outer) .value)
            (tokens (v.chars ++ (charsItems items ++ ']' :: rest))) := rfl
      _ = build (.running (.array (v.scanned :: read) :: outer) .itemEnd)
            (tokens (charsItems items ++ ']' :: rest)) := (taken v).value _ (.items items rest)
      _ = _ := by
          rw [takenItems items, scannedItems]
          simp

theorem takenMembers : ∀ (ms : List (String × Json)) (read : List (Key × Source))
    (outer : List Frame) (rest : List Char),
    build (.running (.object read noKey :: outer) .memberEnd)
        (tokens (charsMembers ms ++ '\x7d' :: rest)) =
      build (afterValue (.object (read.reverse ++ scannedMembers ms) .closed) outer) (tokens rest)
  | [], read, outer, rest => by
    rw [charsMembers, List.nil_append, tokens_cons rfl, scannedMembers, List.append_nil]
    rfl
  | (k, v) :: ms, read, outer, rest => by
    have front : charsMembers ((k, v) :: ms) ++ '\x7d' :: rest =
        ',' :: (quoted k ++ ':' :: (v.chars ++ (charsMembers ms ++ '\x7d' :: rest))) := by
      simp [charsMembers]
    rw [front, tokens_cons rfl]
    calc
      _ = build (.running (.object read noKey :: outer) .key)
            (tokens (quoted k ++ ':' :: (v.chars ++ (charsMembers ms ++ '\x7d' :: rest)))) := rfl
      _ = build (.running (.object read ⟨.ok k⟩ :: outer) .colon)
            (tokens (':' :: (v.chars ++ (charsMembers ms ++ '\x7d' :: rest)))) := by
          rw [tokens_quoted]
          rfl
      _ = build (.running (.object ((⟨.ok k⟩, v.scanned) :: read) noKey :: outer) .memberEnd)
            (tokens (charsMembers ms ++ '\x7d' :: rest)) := by
          rw [build_colon, (taken v).value _ (.members ms rest)]
          rfl
      _ = _ := by
          rw [takenMembers ms, scannedMembers]
          simp

end

/-- The document of a written value is the value. -/
theorem document_chars (v : Json) : Document.ofChars v.chars = ⟨v.scanned, true⟩ := by
  have whole := (taken v).value [] Ends.nil
  rw [List.append_nil] at whole
  exact whole

/-- What is read of a written value is read of the value. -/
theorem Reader.ofText_write {α : Type} (read : Reader α) (v : Json) :
    read.ofText v.write = read (.text textLevels) v.scanned := by
  unfold Reader.ofText
  rw [write, String.toList_ofList, document_chars]
  cases found : read (.text textLevels) v.scanned <;> simp [found]

end DialogueEngine.Json
