import DialogueEngine.Prompt.Variables

/-!
Rendering taken apart. Two opening braces begin a placeholder and stand nowhere inside one, so none
begins in the text in front of another and ends behind its beginning: a text is rendered piece by
piece, whatever stands around its placeholders, and what stands for a placeholder is not looked at
again.
-/

namespace DialogueEngine

namespace Prompt

/-! ## Placeholders as they are written -/

/-- A name between blanks. -/
structure Placeholder where
  before : String
  name : String
  after : String
  named : name ≠ ""
  plain : ∀ c ∈ name.toList, c.isAlphanum ∨ c = '_' ∨ c = '.' ∨ c = '-'
  blank_before : ∀ c ∈ before.toList, Text.isBlank c = true
  blank_after : ∀ c ∈ after.toList, Text.isBlank c = true

namespace Placeholder

/-- The text of a placeholder. -/
def text (p : Placeholder) : String :=
  "\x7b\x7b" ++ p.before ++ p.name ++ p.after ++ "\x7d\x7d"

/-- What follows the opening braces. -/
def inner (p : Placeholder) : List Char :=
  p.before.toList ++ (p.name.toList ++ (p.after.toList ++ ['}', '}']))

/-- What a placeholder stands for: the value of its name, or its own text. -/
def value (p : Placeholder) (vars : Table String) : String := (vars.get? p.name).getD p.text

theorem toList_text (p : Placeholder) : p.text.toList = '{' :: '{' :: p.inner := by
  simp [text, inner]

end Placeholder

theorem isNameChar_iff {c : Char} :
    isNameChar c = true ↔ c.isAlphanum ∨ c = '_' ∨ c = '.' ∨ c = '-' := by
  simp [isNameChar, or_assoc]

/-- No character is both blank and part of a name. -/
theorem isNameChar_of_isBlank {c : Char} (blank : Text.isBlank c = true) :
    isNameChar c = false := by
  refine Bool.eq_false_iff.2 fun plain => ?_
  rcases isNameChar_iff.1 plain with plain | rfl | rfl | rfl
  · exact absurd blank (Bool.eq_false_iff.1 (Text.isBlank_of_isAlphanum plain))
  · exact absurd blank (by decide)
  · exact absurd blank (by decide)
  · exact absurd blank (by decide)

section Stops

variable {α : Type} {p : α → Bool} {front back : List α}

/-- What is taken ends where the next element does not belong to it. -/
theorem takeWhile_stops (belongs : ∀ a ∈ front, p a = true)
    (stops : ∀ a ∈ back.head?, p a = false) : (front ++ back).takeWhile p = front := by
  rw [List.takeWhile_append_of_pos belongs]
  cases back with
  | nil => simp
  | cons a rest => rw [List.takeWhile_cons_of_neg (by simp [stops a rfl]), List.append_nil]

theorem dropWhile_stops (belongs : ∀ a ∈ front, p a = true)
    (stops : ∀ a ∈ back.head?, p a = false) : (front ++ back).dropWhile p = back := by
  rw [List.dropWhile_append_of_pos belongs]
  cases back with
  | nil => rfl
  | cons a rest => rw [List.dropWhile_cons_of_neg (by simp [stops a rfl])]

theorem mem_takeWhile {a : α} {xs : List α} (member : a ∈ xs.takeWhile p) : p a = true :=
  List.all_eq_true.1 List.all_takeWhile a member

end Stops

/-- A placeholder is found where it is written. -/
theorem placeholder?_written (p : Placeholder) (rest : List Char) :
    placeholder? (p.text.toList ++ rest) = some (p.name.toList, rest) := by
  have plain : ∀ c ∈ p.name.toList, isNameChar c = true :=
    fun c member => isNameChar_iff.2 (p.plain c member)
  have begins : (p.inner ++ rest).dropWhile Text.isBlank =
      p.name.toList ++ (p.after.toList ++ '}' :: '}' :: rest) := by
    have shape : p.inner ++ rest =
        p.before.toList ++ (p.name.toList ++ (p.after.toList ++ '}' :: '}' :: rest)) := by
      simp [Placeholder.inner]
    rw [shape]
    refine dropWhile_stops p.blank_before fun c first => ?_
    obtain ⟨d, ds, letters⟩ := List.exists_cons_of_ne_nil (mt String.toList_eq_nil_iff.1 p.named)
    rw [letters, List.cons_append, List.head?_cons, Option.mem_some_iff] at first
    subst first
    have named := plain d (letters ▸ List.mem_cons_self)
    exact Bool.eq_false_iff.2 fun blank => by simp [isNameChar_of_isBlank blank] at named
  have ends : ∀ c ∈ (p.after.toList ++ '}' :: '}' :: rest).head?, isNameChar c = false := by
    intro c first
    cases blanks : p.after.toList with
    | nil =>
      rw [blanks, List.nil_append, List.head?_cons, Option.mem_some_iff] at first
      subst first
      decide
    | cons d ds =>
      rw [blanks, List.cons_append, List.head?_cons, Option.mem_some_iff] at first
      subst first
      exact isNameChar_of_isBlank (p.blank_after d (blanks ▸ List.mem_cons_self))
  have closes : ∀ c ∈ ('}' :: '}' :: rest).head?, Text.isBlank c = false := by
    intro c first
    obtain rfl := Option.mem_some_iff.1 first
    decide
  have given : p.name.toList.isEmpty = false := by
    simpa [List.isEmpty_eq_false_iff] using p.named
  rw [p.toList_text, List.cons_append, List.cons_append, placeholder?]
  simp only [begins, takeWhile_stops plain ends, dropWhile_stops plain ends,
    dropWhile_stops p.blank_after closes, given]
  rfl

/-- What is found is written. -/
theorem written_of_placeholder? {cs name rest : List Char}
    (found : placeholder? cs = some (name, rest)) :
    ∃ p : Placeholder, p.name.toList = name ∧ cs = p.text.toList ++ rest := by
  unfold placeholder? at found
  split at found
  · next cs =>
    dsimp only at found
    split at found
    · next after closed =>
      split at found
      · cases found
      · next given =>
        cases found
        refine ⟨⟨String.ofList (cs.takeWhile Text.isBlank),
          String.ofList ((cs.dropWhile Text.isBlank).takeWhile isNameChar),
          String.ofList (((cs.dropWhile Text.isBlank).dropWhile isNameChar).takeWhile Text.isBlank),
          ?_, ?_, ?_, ?_⟩, String.toList_ofList, ?_⟩
        · simpa using given
        · intro c member
          rw [String.toList_ofList] at member
          exact isNameChar_iff.1 (mem_takeWhile member)
        · intro c member
          rw [String.toList_ofList] at member
          exact mem_takeWhile member
        · intro c member
          rw [String.toList_ofList] at member
          exact mem_takeWhile member
        · rw [Placeholder.toList_text, Placeholder.inner]
          simp only [String.toList_ofList, List.cons_append, List.append_assoc, List.nil_append]
          rw [← closed, List.takeWhile_append_dropWhile, List.takeWhile_append_dropWhile,
            List.takeWhile_append_dropWhile]
    · cases found
  · cases found

/-! ## Pieces of a text -/

theorem not_brace_of_inner (p : Placeholder) : '{' ∉ p.inner := by
  intro member
  rcases List.mem_append.1 member with blank | member
  · exact absurd (p.blank_before _ blank) (by decide)
  rcases List.mem_append.1 member with named | member
  · exact absurd (p.plain _ named) (by decide)
  rcases List.mem_append.1 member with blank | closing
  · exact absurd (p.blank_after _ blank) (by decide)
  · exact absurd closing (by decide)

theorem inner_ne_nil (p : Placeholder) : p.inner ≠ [] := by
  simp [Placeholder.inner]

/-- A placeholder that begins in front of another ends in front of it. -/
theorem written_apart {cs rest rest' : List Char} {p q : Placeholder} (some : cs ≠ [])
    (same : cs ++ (p.text.toList ++ rest) = q.text.toList ++ rest') :
    ∃ more, cs = q.text.toList ++ more := by
  rcases List.append_eq_append_iff.1 same with ⟨back, longer, begins⟩ | ⟨more, whole, -⟩
  · cases back with
    | nil => exact ⟨[], by rw [longer, List.append_nil, List.append_nil]⟩
    | cons d back =>
      -- otherwise an opening brace of the later one stands inside the earlier one
      rw [p.toList_text] at begins
      obtain ⟨rfl, second⟩ := List.cons.inj begins
      rw [q.toList_text] at longer
      match cs with
      | [] => exact absurd rfl some
      | [_] =>
        obtain ⟨-, only⟩ := List.cons.inj longer
        obtain ⟨-, rfl⟩ := List.cons.inj only
        obtain ⟨e, inner, shape⟩ := List.exists_cons_of_ne_nil (inner_ne_nil q)
        rw [shape] at second
        obtain ⟨rfl, -⟩ := List.cons.inj second
        exact absurd (shape ▸ List.mem_cons_self) (not_brace_of_inner q)
      | _ :: _ :: front =>
        obtain ⟨-, only⟩ := List.cons.inj longer
        obtain ⟨-, inside⟩ := List.cons.inj only
        exact absurd (inside ▸ List.mem_append_right _ List.mem_cons_self) (not_brace_of_inner q)
  · exact ⟨more, whole⟩

variable {vars : Table String}

theorem renderChars_found {c : Char} {cs name rest : List Char}
    (found : placeholder? (c :: cs) = some (name, rest)) : renderChars vars (c :: cs) =
      substitute vars (c :: cs) name rest ++ renderChars vars rest := by
  rw [renderChars]
  split
  · next name' rest' found' =>
    obtain ⟨rfl, rfl⟩ := Prod.mk.inj (Option.some.inj (found.symm.trans found'))
    rfl
  · next missing => cases found.symm.trans missing

theorem renderChars_written (p : Placeholder) (rest : List Char) :
    renderChars vars (p.text.toList ++ rest) = (p.value vars).toList ++ renderChars vars rest := by
  have found := placeholder?_written p rest
  have stands : substitute vars (p.text.toList ++ rest) p.name.toList rest =
      (p.value vars).toList := by
    unfold substitute Placeholder.value
    rw [String.ofList_toList]
    cases vars.get? p.name with
    | some value => rfl
    | none => simp
  rw [← stands]
  rw [p.toList_text, List.cons_append] at found ⊢
  exact renderChars_found found

theorem renderChars_plain {c : Char} {cs : List Char} (missing : placeholder? (c :: cs) = none) :
    renderChars vars (c :: cs) = c :: renderChars vars cs := by
  rw [renderChars]
  split
  · next found => cases missing.symm.trans found
  · rfl

/-- A text is rendered apart from a placeholder behind it. -/
theorem renderChars_append (cs : List Char) (p : Placeholder) (rest : List Char) :
    renderChars vars (cs ++ (p.text.toList ++ rest)) =
      renderChars vars cs ++ ((p.value vars).toList ++ renderChars vars rest) := by
  fun_induction renderChars vars cs with
  | case1 => exact renderChars_written p rest
  | case2 c after name more found ih =>
    obtain ⟨q, rfl, whole⟩ := written_of_placeholder? found
    rw [← renderChars_found found, whole, List.append_assoc, renderChars_written,
      renderChars_written, ih, List.append_assoc]
  | case3 c after missing ih =>
    have missing' : placeholder? (c :: (after ++ (p.text.toList ++ rest))) = none := by
      refine Option.eq_none_iff_forall_ne_some.2 fun ⟨name, rest'⟩ found => ?_
      obtain ⟨q, -, whole⟩ := written_of_placeholder? found
      obtain ⟨more, shorter⟩ := written_apart (List.cons_ne_nil c after) whole
      rw [shorter, placeholder?_written] at missing
      cases missing
    rw [List.cons_append, renderChars_plain missing', ih, List.cons_append]

/-- A text without placeholders stays as it is. -/
theorem renderChars_bare (cs : List Char)
    (bare : ∀ front (p : Placeholder) rest, cs ≠ front ++ (p.text.toList ++ rest)) :
    renderChars vars cs = cs := by
  fun_induction renderChars vars cs with
  | case1 => rfl
  | case2 c after name more found ih =>
    obtain ⟨q, -, whole⟩ := written_of_placeholder? found
    exact absurd whole (bare [] q more)
  | case3 c after missing ih =>
    rw [ih fun front p rest same => bare (c :: front) p rest (by rw [same, List.cons_append])]

end Prompt

/-! ## What templates of a conversation may name -/

namespace Conversation

/-- The latest text of the user, if there is any. -/
theorem latestUserText_eq (c : Conversation) {front back : List Message} {m : Message}
    (split : c.messages = front ++ m :: back) (user : m.role = .user)
    (later : ∀ m' ∈ back, m'.role ≠ .user) : c.latestUserText = some m.content := by
  have passed : back.reverse.find? (fun m' => decide (m'.role = .user)) = none :=
    List.find?_eq_none.2 fun m' member => by simpa using later m' (List.mem_reverse.1 member)
  simp [latestUserText, lastWithRole, split, List.find?_append, passed, user]

theorem latestUserText_none (c : Conversation) (silent : ∀ m ∈ c.messages, m.role ≠ .user) :
    c.latestUserText = none := by
  have passed : c.messages.reverse.find? (fun m => decide (m.role = .user)) = none :=
    List.find?_eq_none.2 fun m member => by simpa using silent m (List.mem_reverse.1 member)
  simp [latestUserText, lastWithRole, passed]

end Conversation

namespace Prompt

/-- Rendering is exact. Each placeholder of a text stands for the value of its name as it is, or
for its own text, whatever stands in front of it and behind it; a text without placeholders stays as
it is. In a conversation three names have the values that the engine gives them, whatever its
variables are. -/
theorem render_exact :
    (∀ (vars : Table String) (a b : String) (p : Placeholder), render (a ++ p.text ++ b) vars =
      render a vars ++ (vars.get? p.name).getD p.text ++ render b vars) ∧
    (∀ (vars : Table String) (t : String), (∀ a (p : Placeholder) b, t ≠ a ++ p.text ++ b) →
      render t vars = t) ∧
    ∀ c : Conversation, c.templateValues.get? "conversation_id" = some c.id ∧
      c.templateValues.get? "flow_id" = some c.flow ∧
      (∀ front m back, c.messages = front ++ m :: back → m.role = .user →
        (∀ m' ∈ back, m'.role ≠ .user) →
        c.templateValues.get? "last_user_message" = some m.content) ∧
      ((∀ m ∈ c.messages, m.role ≠ .user) →
        c.templateValues.get? "last_user_message" = some "") := by
  refine ⟨fun vars a b p => ?_, fun vars t bare => ?_, fun c => ?_⟩
  · rw [← Placeholder.value, ← String.toList_inj]
    simp only [render, String.toList_append, String.toList_ofList, List.append_assoc]
    exact renderChars_append a.toList p b.toList
  · rw [render, renderChars_bare, String.ofList_toList]
    intro front p rest same
    refine bare (String.ofList front) p (String.ofList rest) (String.toList_inj.1 ?_)
    rw [same, String.toList_append, String.toList_append, String.toList_ofList,
      String.toList_ofList, List.append_assoc]
  · have latest : c.templateValues.get? "last_user_message" = some (c.latestUserText.getD "") := by
      simp [Conversation.templateValues]
    refine ⟨by simp [Conversation.templateValues], by simp [Conversation.templateValues], ?_, ?_⟩
    · intro front m back split user later
      rw [latest, c.latestUserText_eq split user later, Option.getD_some]
    · intro silent
      rw [latest, c.latestUserText_none silent, Option.getD_none]

example : render "\x7b\x7b\x7bwho\x7d\x7d\x7d \x7b\x7b who"
      (Table.ofList [("who", "\x7b\x7bwho\x7d\x7d")]) =
    "\x7b\x7b\x7bwho\x7d\x7d\x7d \x7b\x7b who" := by decide +kernel

end Prompt

end DialogueEngine
