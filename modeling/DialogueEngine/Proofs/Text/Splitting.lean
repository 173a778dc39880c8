import DialogueEngine.Text.Pieces

/-!
What splitting at a marker gives. A text without the marker is one piece; any other is cut at the
leftmost occurrence, and what follows is split in the same way.
-/

namespace DialogueEngine.Text

variable {marker : List Char} {nonempty : marker ≠ []}

/-- A text that does not begin with the marker and has it has it further on. -/
theorem occurrence_later {c : Char} {rest front after : List Char}
    (absent : dropFront? marker (c :: rest) = none)
    (occurs : c :: rest = front ++ (marker ++ after)) :
    ∃ front', front = c :: front' ∧ rest = front' ++ (marker ++ after) := by
  cases front with
  | nil =>
    rw [List.nil_append] at occurs
    rw [dropFront?_eq_some_iff.2 occurs] at absent
    cases absent
  | cons f front' =>
    obtain ⟨rfl, same⟩ := List.cons.inj occurs
    exact ⟨front', rfl, same⟩

/-- The cut is made at the leftmost occurrence, if there is one. -/
theorem splitFrom_cases (piece cs : List Char) :
    (splitFrom marker nonempty piece cs = [piece.reverse ++ cs] ∧
      ∀ front after, cs ≠ front ++ (marker ++ after)) ∨
    ∃ front after, cs = front ++ (marker ++ after) ∧
      splitFrom marker nonempty piece cs =
        (piece.reverse ++ front) :: splitAtMarker marker nonempty after ∧
      ∀ front' after', cs = front' ++ (marker ++ after') → front.length ≤ front'.length := by
  fun_induction splitFrom marker nonempty piece cs with
  | case1 piece =>
    refine .inl ⟨by rw [List.append_nil], ?_⟩
    intro front after occurs
    exact nonempty (List.append_eq_nil_iff.1 (List.append_eq_nil_iff.1 occurs.symm).2).1
  | case2 piece c rest after found ih =>
    refine .inr ⟨[], after, ?_, ?_, ?_⟩
    · rw [List.nil_append]
      exact dropFront?_eq_some_iff.1 found
    · rw [List.append_nil, splitAtMarker]
    · intro front' after' _
      exact Nat.zero_le _
  | case3 piece c rest absent ih =>
    rcases ih with ⟨whole, without⟩ | ⟨front, after, occurs, cut, leftmost⟩
    · refine .inl ⟨?_, ?_⟩
      · rw [whole, List.reverse_cons, List.append_assoc, List.singleton_append]
      · intro front after occurs
        obtain ⟨front', -, later⟩ := occurrence_later absent occurs
        exact without front' after later
    · refine .inr ⟨c :: front, after, by rw [occurs, List.cons_append], ?_, ?_⟩
      · rw [cut, List.reverse_cons, List.append_assoc, List.singleton_append]
      · intro front' after' occurs'
        obtain ⟨front'', rfl, later⟩ := occurrence_later absent occurs'
        exact Nat.succ_le_succ (leftmost front'' after' later)

theorem splitAtMarker_ne_nil (cs : List Char) : splitAtMarker marker nonempty cs ≠ [] := by
  intro nothing
  rcases splitFrom_cases [] cs with ⟨whole, -⟩ | ⟨front, after, -, cut, -⟩
  · cases whole.symm.trans nothing
  · cases cut.symm.trans nothing

variable {cs piece : List Char}

/-- What is one piece has no marker. -/
theorem splitAtMarker_single (single : splitAtMarker marker nonempty cs = [piece]) :
    piece = cs ∧ ∀ front after, cs ≠ front ++ (marker ++ after) := by
  rcases splitFrom_cases [] cs with ⟨whole, without⟩ | ⟨front, after, -, cut, -⟩
  · cases single.symm.trans whole
    exact ⟨rfl, without⟩
  · obtain ⟨-, nothing⟩ := List.cons.inj (cut.symm.trans single)
    exact absurd nothing (splitAtMarker_ne_nil after)

/-- What is several pieces is cut at the leftmost marker. -/
theorem splitAtMarker_several {next : List Char} {more : List (List Char)}
    (several : splitAtMarker marker nonempty cs = piece :: next :: more) :
    ∃ after, cs = piece ++ (marker ++ after) ∧
      splitAtMarker marker nonempty after = next :: more ∧
      ∀ front after', cs = front ++ (marker ++ after') → piece.length ≤ front.length := by
  rcases splitFrom_cases [] cs with ⟨whole, -⟩ | ⟨front, after, occurs, cut, leftmost⟩
  · cases whole.symm.trans several
  · obtain ⟨rfl, later⟩ := List.cons.inj (cut.symm.trans several)
    exact ⟨after, occurs, later, leftmost⟩

/-- A text without the marker is one piece. -/
theorem splitAtMarker_unmarked (without : ∀ front after, cs ≠ front ++ (marker ++ after)) :
    splitAtMarker marker nonempty cs = [cs] := by
  rcases splitFrom_cases [] cs with ⟨whole, -⟩ | ⟨front, after, occurs, -⟩
  · exact whole
  · exact absurd occurs (without front after)

/-- A text is cut where the marker occurs first. -/
theorem splitAtMarker_of_leftmost {front after : List Char}
    (leftmost : ∀ front' after', front ++ (marker ++ after) = front' ++ (marker ++ after') →
      front.length ≤ front'.length) :
    splitAtMarker marker nonempty (front ++ (marker ++ after)) =
      front :: splitAtMarker marker nonempty after := by
  rcases splitFrom_cases [] (front ++ (marker ++ after)) with
    ⟨-, without⟩ | ⟨front', after', occurs, cut, first⟩
  · exact absurd rfl (without front after)
  · have long := Nat.le_antisymm (leftmost front' after' occurs) (first front after rfl)
    obtain ⟨rfl, same⟩ := List.append_inj occurs long
    obtain rfl := List.append_cancel_left same
    exact cut

end DialogueEngine.Text
