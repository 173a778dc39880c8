import DialogueEngine.Settings.Environment
import DialogueEngine.Proofs.Prompt.Rendering

/-!
Expansion taken apart. A reference ends at the first closing brace behind its beginning, so a text
whose references are all closed is expanded apart from what follows it. The last reference may lack
its brace: it is looked up all the same, and written out with the brace that it lacks.
-/

namespace DialogueEngine.Environment

/-- Behind every beginning of a reference there is a closing brace. -/
def Closed (cs : List Char) : Prop := ∀ front rest, cs = front ++ '$' :: '{' :: rest → '}' ∈ rest

/-- A text refers to a name if the name, up to a closing brace or the end, follows a beginning that
is no part of an earlier reference. -/
def Refers (cs name : List Char) : Prop :=
  ∃ front back, cs = front ++ '$' :: '{' :: (name ++ back) ∧ Closed front ∧ '}' ∉ name ∧
    (back = [] ∨ back.head? = some '}')

/-- What stands for a reference: the value of its variable, or the reference itself. -/
def value (env : Environment) (name : List Char) : List Char :=
  (env.lookup name).getD ('$' :: '{' :: (name ++ ['}']))

/-! ## Where references begin -/

theorem closed_nil : Closed [] := by
  intro front rest occurs
  simp at occurs

/-- A beginning lies in one of two texts, unless it lies across. -/
theorem Closed.append {front back : List Char} (closed : Closed front) (closed' : Closed back)
    (apart : front.getLast? = some '$' → back.head? ≠ some '{') : Closed (front ++ back) := by
  intro before rest occurs
  rcases List.append_eq_append_iff.1 occurs with ⟨inner, rfl, within⟩ | ⟨inner, rfl, within⟩
  · exact closed' inner rest within
  · match inner with
    | [] => exact closed' [] rest within.symm
    | [c] =>
      rw [List.singleton_append] at within
      obtain ⟨rfl, begins⟩ := List.cons.inj within
      exact absurd (begins ▸ List.head?_cons) (apart (by simp))
    | _ :: _ :: inner =>
      simp only [List.cons_append, List.cons.injEq] at within
      obtain ⟨rfl, rfl, rfl⟩ := within
      exact List.mem_append_left _ (closed before inner rfl)

theorem Closed.of_append {front back : List Char} (closed : Closed (front ++ back)) :
    Closed back := by
  intro before rest occurs
  exact closed (front ++ before) rest (by rw [occurs, List.append_assoc])

/-- A closed reference is closed. -/
theorem closed_reference (name : List Char) : Closed ('$' :: '{' :: (name ++ ['}'])) := by
  intro before rest occurs
  have last := congrArg List.getLast? occurs
  cases rest with
  | nil => simp [List.getLast?_append, List.getLast?_cons] at last
  | cons c rest =>
    have ends : (c :: rest).getLast? = some '}' := by
      simpa [List.getLast?_append, List.getLast?_cons] using last.symm
    exact List.mem_of_getLast? ends

/-- Nothing refers across a closed reference or a plain character. -/
theorem Refers.behind {front rest name : List Char} (refers : Refers rest name)
    (closed : Closed front) (apart : front.getLast? = some '$' → rest.head? ≠ some '{') :
    Refers (front ++ rest) name := by
  obtain ⟨before, back, rfl, closed', inner, ends⟩ := refers
  refine ⟨front ++ before, back, by rw [List.append_assoc], ?_, inner, ends⟩
  refine closed.append closed' fun last head => apart last ?_
  rw [List.head?_append, head]
  rfl

/-! ## What a text expands to -/

variable {env : Environment}

theorem expand_nil : env.expand [] = [] := by
  simp [expand, Piece.ofChars]

theorem expand_reference {name : List Char} (inner : '}' ∉ name) (rest : List Char) :
    env.expand ('$' :: '{' :: (name ++ '}' :: rest)) = env.value name ++ env.expand rest := by
  have belongs : ∀ c ∈ name, decide (c ≠ '}') = true := by
    intro c member
    simpa using fun same : c = '}' => inner (same ▸ member)
  have stops : ∀ c ∈ ('}' :: rest).head?, decide (c ≠ '}') = false := by simp
  rw [expand, Piece.ofChars]
  split
  · next none =>
    rw [Prompt.dropWhile_stops belongs stops] at none
    cases none
  · next after cut =>
    rw [Prompt.dropWhile_stops belongs stops] at cut
    obtain ⟨rfl, rfl⟩ := List.cons.inj cut
    rw [Prompt.takeWhile_stops belongs stops, List.flatMap_cons]
    congr 1
    rw [value, Piece.expanded]
    cases env.lookup name <;> rfl

theorem expand_unclosed {name : List Char} (inner : '}' ∉ name) :
    env.expand ('$' :: '{' :: name) = env.value name := by
  have belongs : ∀ c ∈ name, decide (c ≠ '}') = true := by
    intro c member
    simpa using fun same : c = '}' => inner (same ▸ member)
  rw [expand, Piece.ofChars]
  split
  · rw [List.flatMap_singleton, value, Piece.expanded]
    cases env.lookup name <;> rfl
  · next cut =>
    rw [← List.append_nil name, Prompt.dropWhile_stops belongs (by simp)] at cut
    cases cut

theorem expand_plain {c : Char} {rest : List Char} (plain : c = '$' → rest.head? ≠ some '{') :
    env.expand (c :: rest) = c :: env.expand rest := by
  rw [expand, Piece.ofChars]
  · rfl
  · rintro rest rfl rfl
    exact plain rfl List.head?_cons

/-- Texts by what they begin with: a closed reference, one that is not closed, or a character that
begins none. -/
theorem reading {motive : List Char → Prop} (nil : motive [])
    (reference : ∀ name rest, '}' ∉ name → motive rest →
      motive ('$' :: '{' :: (name ++ '}' :: rest)))
    (unclosed : ∀ name, '}' ∉ name → motive ('$' :: '{' :: name))
    (plain : ∀ c rest, (c = '$' → rest.head? ≠ some '{') → motive rest → motive (c :: rest))
    (cs : List Char) : motive cs := by
  induction length : cs.length using Nat.strongRecOn generalizing cs with
  | ind n ih =>
    subst length
    cases cs with
    | nil => exact nil
    | cons c cs =>
      by_cases begins : c = '$' ∧ cs.head? = some '{'
      · obtain ⟨rfl, first⟩ := begins
        obtain ⟨cs, rfl⟩ := List.head?_eq_some_iff.1 first
        by_cases closes : '}' ∈ cs
        · obtain ⟨name, rest, rfl, inner⟩ := List.eq_append_cons_of_mem closes
          exact reference name rest inner (ih rest.length (by simp; omega) rest rfl)
        · exact unclosed cs closes
      · exact plain c cs (fun same first => begins ⟨same, first⟩)
          (ih cs.length (Nat.lt_succ_self _) cs rfl)

/-- What follows a text whose references are closed is expanded by itself. -/
theorem expand_append {front back : List Char} (closed : Closed front)
    (apart : front.getLast? = some '$' → back.head? ≠ some '{') :
    env.expand (front ++ back) = env.expand front ++ env.expand back := by
  induction front using reading with
  | nil => rw [List.nil_append, expand_nil, List.nil_append]
  | reference name rest inner ih =>
    have shape : '$' :: '{' :: (name ++ '}' :: rest) = '$' :: '{' :: (name ++ ['}']) ++ rest := by
      simp
    have closed' : Closed rest := (shape ▸ closed).of_append
    have apart' : rest.getLast? = some '$' → back.head? ≠ some '{' := by
      intro last
      refine apart ?_
      rw [shape, List.getLast?_append, last]
      rfl
    rw [expand_reference inner, List.append_assoc, ← ih closed' apart', ← expand_reference inner]
    simp
  | unclosed name inner => exact absurd (closed [] name rfl) inner
  | plain c rest begins ih =>
    have closed' : Closed rest := Closed.of_append (show Closed ([c] ++ rest) from closed)
    have apart' : rest.getLast? = some '$' → back.head? ≠ some '{' := by
      intro last
      exact apart (by rw [List.getLast?_cons, last]; rfl)
    have begins' : c = '$' → (rest ++ back).head? ≠ some '{' := by
      rintro rfl
      cases rest with
      | nil => exact apart rfl
      | cons d rest => exact begins rfl
    rw [expand_plain begins, List.cons_append, expand_plain begins', ih closed' apart',
      List.cons_append]

theorem expand_bare {cs : List Char} (bare : ∀ front rest, cs ≠ front ++ '$' :: '{' :: rest) :
    env.expand cs = cs := by
  induction cs using reading with
  | nil => exact expand_nil
  | reference name rest => exact absurd rfl (bare [] _)
  | unclosed name => exact absurd rfl (bare [] _)
  | plain c rest begins ih =>
    rw [expand_plain begins, ih fun front rest' occurs => bare (c :: front) rest' ?_]
    rw [occurs, List.cons_append]

/-- Without the variables a text stays as it is, but for the brace that its last reference lacks. -/
theorem expand_unset {cs : List Char} (unset : ∀ name, Refers cs name → env.lookup name = none) :
    (Closed cs → env.expand cs = cs) ∧ (¬ Closed cs → env.expand cs = cs ++ ['}']) := by
  induction cs using reading with
  | nil => exact ⟨fun _ => expand_nil, fun unclosed => absurd closed_nil unclosed⟩
  | reference name rest inner ih =>
    have here : env.value name = '$' :: '{' :: (name ++ ['}']) := by
      rw [value, unset name ⟨[], '}' :: rest, rfl, closed_nil, inner, .inr rfl⟩, Option.getD_none]
    have shape : '$' :: '{' :: (name ++ '}' :: rest) = '$' :: '{' :: (name ++ ['}']) ++ rest := by
      simp
    have apart : ('$' :: '{' :: (name ++ ['}'])).getLast? = some '$' → rest.head? ≠ some '{' := by
      simp [List.getLast?_cons, List.getLast?_append]
    obtain ⟨whole, lacking⟩ := ih fun name' refers => unset name'
      (shape ▸ refers.behind (closed_reference name) apart)
    rw [expand_reference inner, here]
    refine ⟨fun closed => ?_, fun unclosed => ?_⟩
    · rw [whole (shape ▸ closed).of_append, shape]
    · rw [lacking fun closed => unclosed (shape ▸ (closed_reference name).append closed apart),
        shape, List.append_assoc]
  | unclosed name inner =>
    have here : env.value name = '$' :: '{' :: (name ++ ['}']) := by
      rw [value, unset name ⟨[], [], by simp, closed_nil, inner, .inl rfl⟩, Option.getD_none]
    refine ⟨fun closed => absurd (closed [] name rfl) inner, fun _ => ?_⟩
    rw [expand_unclosed inner, here]
    rfl
  | plain c rest begins ih =>
    have alone : Closed [c] := by
      intro front rest occurs
      have := congrArg List.length occurs
      simp at this
      omega
    have apart : [c].getLast? = some '$' → rest.head? ≠ some '{' := by simpa using begins
    obtain ⟨whole, lacking⟩ := ih fun name refers => unset name (refers.behind alone apart)
    rw [expand_plain begins]
    refine ⟨fun closed => ?_, fun unclosed => ?_⟩
    · rw [whole (Closed.of_append (show Closed ([c] ++ rest) from closed))]
    · rw [lacking fun closed => unclosed (alone.append closed apart), List.cons_append]

/-- Expansion is exact. A closed reference stands for the value of its variable or, without one, for
itself, whatever stands in front of it with all references closed and whatever behind it; everything
else is kept. A last reference that is not closed is looked up too, and without a variable the text
comes out with the closing brace added. -/
theorem expand_exact (env : Environment) :
    (∀ front name rest, Closed front → '}' ∉ name →
      env.expand (front ++ '$' :: '{' :: (name ++ '}' :: rest)) =
        env.expand front ++ env.value name ++ env.expand rest) ∧
    (∀ front name, Closed front → '}' ∉ name →
      env.expand (front ++ '$' :: '{' :: name) = env.expand front ++ env.value name) ∧
    (∀ cs, (∀ front rest, cs ≠ front ++ '$' :: '{' :: rest) → env.expand cs = cs) ∧
    ∀ cs, (∀ name, Refers cs name → env.lookup name = none) →
      (Closed cs → env.expand cs = cs) ∧ (¬ Closed cs → env.expand cs = cs ++ ['}']) := by
  refine ⟨fun front name rest closed inner => ?_, fun front name closed inner => ?_,
    fun cs => expand_bare, fun cs => expand_unset⟩
  · rw [expand_append closed (by simp), expand_reference inner, List.append_assoc]
  · rw [expand_append closed (by simp), expand_unclosed inner]

end DialogueEngine.Environment
