import DialogueEngine.Proofs.Text.Splitting
import DialogueEngine.Tool.Selection

/-!
Names of tools and what is read off them. The marker can overlap with itself: the end of a provider
and the marker behind it may hold another marker, and the name is split there.
-/

namespace DialogueEngine

namespace ToolName

theorem marker_toList : marker.toList = ['_', '-', '_', '-', '_'] := by decide

/-- Where a marker and something in front of it begin with a marker, the two are the same or overlap
in one or three characters, unless what is in front begins with the marker itself. -/
theorem marker_overlap {front tool rest : List Char}
    (overlap : front ++ (marker.toList ++ tool) = marker.toList ++ rest) :
    (front = [] ∧ rest = tool) ∨ (front = ['_', '-'] ∧ rest = ['-', '_'] ++ tool) ∨
      (front = ['_', '-', '_', '-'] ∧ rest = ['-', '_', '-', '_'] ++ tool) ∨
      ∃ more, front = marker.toList ++ more ∧ rest = more ++ (marker.toList ++ tool) := by
  match front with
  | [] =>
    rw [List.nil_append] at overlap
    exact .inl ⟨rfl, (List.append_cancel_left overlap).symm⟩
  | [a] => simp [marker_toList] at overlap
  | [a, b] =>
    simp only [marker_toList, List.cons_append, List.nil_append, List.cons.injEq] at overlap
    obtain ⟨rfl, rfl, -, -, -, rfl⟩ := overlap
    exact .inr (.inl ⟨rfl, rfl⟩)
  | [a, b, c] => simp [marker_toList] at overlap
  | [a, b, c, d] =>
    simp only [marker_toList, List.cons_append, List.nil_append, List.cons.injEq] at overlap
    obtain ⟨rfl, rfl, rfl, rfl, -, rfl⟩ := overlap
    exact .inr (.inr (.inl ⟨rfl, rfl⟩))
  | a :: b :: c :: d :: e :: more =>
    simp only [marker_toList, List.cons_append, List.nil_append, List.cons.injEq] at overlap
    obtain ⟨rfl, rfl, rfl, rfl, rfl, rfl⟩ := overlap
    exact .inr (.inr (.inr ⟨more, rfl, rfl⟩))

/-- How a name is split into a provider and a tool: behind the marker in front, at the leftmost
marker and the only one. -/
structure Reads (name : List Char) (provider tool : String) : Prop where
  whole : name = marker.toList ++ (provider.toList ++ (marker.toList ++ tool.toList))
  leftmost : ∀ front after, provider.toList ++ (marker.toList ++ tool.toList) =
    front ++ (marker.toList ++ after) → provider.toList.length ≤ front.length
  only : ∀ front after, tool.toList ≠ front ++ (marker.toList ++ after)

variable {p t provider tool : String}

theorem reads_of_split {name : String} (read : split name = .ok (provider, tool)) :
    Reads name.toList provider tool := by
  unfold split at read
  split at read
  · next front back pieces =>
    split at read
    · cases read
      obtain ⟨after, whole, rest, -⟩ := Text.splitAtMarker_several pieces
      obtain ⟨last, cut, single, leftmost⟩ := Text.splitAtMarker_several rest
      obtain ⟨rfl, only⟩ := Text.splitAtMarker_single single
      refine ⟨?_, ?_, ?_⟩
      · rw [String.toList_ofList, String.toList_ofList, whole, cut, List.nil_append]
      · rw [String.toList_ofList, String.toList_ofList, ← cut]
        exact leftmost
      · rw [String.toList_ofList]
        exact only
    · cases read
  · cases read

/-- Neither part of a name that is read is empty. -/
theorem ne_of_split {name : String} (read : split name = .ok (provider, tool)) :
    provider ≠ "" ∧ tool ≠ "" := by
  unfold split at read
  split at read
  · split at read
    · next given =>
      cases read
      exact given.imp (mt String.ofList_eq_empty_iff.1) (mt String.ofList_eq_empty_iff.1)
    · cases read
  · cases read

theorem toList_ofTool (p t : String) :
    (ofTool p t).toList = marker.toList ++ (p.toList ++ (marker.toList ++ t.toList)) := by
  simp [ofTool]

/-- What is read off a name gives the name back. -/
theorem ofTool_of_split {name : String} (read : split name = .ok (provider, tool)) :
    ofTool provider tool = name :=
  String.toList_inj.1 ((toList_ofTool provider tool).trans (reads_of_split read).whole.symm)

/-- The name of a tool is read as it was made, or the provider ends in the front of the marker and
the tool begins with its back. -/
theorem split_ofTool (read : split (ofTool p t) = .ok (provider, tool)) :
    (provider = p ∧ tool = t) ∨ (p = provider ++ "_-" ∧ tool = "-_" ++ t) ∨
      (p = provider ++ "_-_-" ∧ tool = "-_-_" ++ t) := by
  obtain ⟨whole, leftmost, only⟩ := reads_of_split read
  rw [toList_ofTool] at whole
  have same := List.append_cancel_left whole
  obtain ⟨front, longer⟩ : provider.toList <+: p.toList :=
    List.prefix_of_prefix_length_le ⟨_, same.symm⟩ ⟨_, rfl⟩ (leftmost _ _ same.symm)
  rw [← longer, List.append_assoc] at same
  rcases marker_overlap (List.append_cancel_left same) with
    ⟨rfl, back⟩ | ⟨rfl, back⟩ | ⟨rfl, back⟩ | ⟨more, -, back⟩
  · rw [List.append_nil] at longer
    exact .inl ⟨String.toList_inj.1 longer, String.toList_inj.1 back⟩
  · refine .inr (.inl ⟨String.toList_inj.1 ?_, String.toList_inj.1 ?_⟩)
    · rw [String.toList_append, ← longer]
      rfl
    · rw [String.toList_append, back]
      rfl
  · refine .inr (.inr ⟨String.toList_inj.1 ?_, String.toList_inj.1 ?_⟩)
    · rw [String.toList_append, ← longer]
      rfl
    · rw [String.toList_append, back]
      rfl
  · exact absurd back (only more t.toList)

/-- A provider whose end does not make a marker with what begins the next one. -/
def Clear (provider : String) : Prop := ¬ ['_', '-'] <:+ provider.toList

instance (provider : String) : Decidable (Clear provider) :=
  inferInstanceAs (Decidable (¬ _))

/-- The name of a tool that is read at all is read as it was made exactly if the provider's end is
clear. -/
theorem split_ofTool_iff (read : split (ofTool p t) = .ok (provider, tool)) :
    (provider = p ∧ tool = t) ↔ Clear p := by
  constructor
  · rintro ⟨rfl, rfl⟩ ⟨front, ends⟩
    have short := (reads_of_split read).leftmost front (['-', '_'] ++ tool.toList) (by
      rw [← ends, marker_toList]
      simp)
    rw [← ends, List.length_append] at short
    exact absurd short (by simp)
  · intro clear
    rcases split_ofTool read with same | ⟨ends, -⟩ | ⟨ends, -⟩
    · exact same
    · refine absurd ⟨provider.toList, ?_⟩ clear
      rw [ends, String.toList_append]
      rfl
    · refine absurd ⟨provider.toList ++ ['_', '-'], ?_⟩ clear
      rw [ends, String.toList_append]
      simp

/-- A name that is read as it was made is that of no other provider's tool, unless the tool begins
with the back of a marker. -/
theorem ofTool_own (read : split (ofTool p t) = .ok (p, t)) (plain : ¬ ['-', '_'] <+: t.toList)
    (same : ofTool provider tool = ofTool p t) : provider = p := by
  rw [← same] at read
  rcases split_ofTool read with ⟨own, -⟩ | ⟨-, begins⟩ | ⟨-, begins⟩
  · exact own.symm
  · refine absurd ⟨tool.toList, ?_⟩ plain
    rw [begins, String.toList_append]
    rfl
  · refine absurd ⟨['-', '_'] ++ tool.toList, ?_⟩ plain
    rw [begins, String.toList_append]
    rfl

example : (split (ofTool "a_-" "x")).toOption = some ("a", "-_x") := by decide +kernel

theorem isRoute_ofTool (p t : String) : isRoute (ofTool p t) = false := by
  rw [isRoute, Text.beginsWith, toList_ofTool, marker_toList]
  rfl

theorem isRoute_handoff (label : String) : isRoute (handoff label) = true := by
  unfold isRoute handoff Text.beginsWith
  rw [String.toList_append, Text.dropFront?_eq_some_iff.2 rfl]
  rfl

/-- The name of a tool of a provider is no name of a route. -/
theorem plain_of_split {name : String} (splits : split name = .ok (provider, tool)) :
    isRoute name = false := by
  rw [← ofTool_of_split splits]
  exact isRoute_ofTool provider tool

/-! ## Which names can be read -/

/-- The marker occurs in a text. -/
def Marked (s : String) : Prop := marker.toList <:+: s.toList

instance (s : String) : Decidable (Marked s) := inferInstanceAs (Decidable (_ <:+: _))

theorem not_marked_iff {s : String} :
    ¬ Marked s ↔ ∀ front after, s.toList ≠ front ++ (marker.toList ++ after) := by
  unfold Marked
  constructor
  · intro unmarked front after same
    exact unmarked ⟨front, after, by rw [List.append_assoc, same]⟩
  · rintro without ⟨front, after, same⟩
    exact without front after (by rw [← same, List.append_assoc])

/-- A provider and a tool whose name is read as it was made. -/
structure Readable (provider tool : String) : Prop where
  provider_ne : provider ≠ ""
  tool_ne : tool ≠ ""
  provider_unmarked : ¬ Marked provider
  tool_unmarked : ¬ Marked tool
  clear : Clear provider

/-- The marker behind a provider that has none and whose end is clear is the leftmost one. -/
theorem leftmost_of_clear (unmarked : ¬ Marked p) (clear : Clear p) (tool : List Char)
    {front after : List Char}
    (occurs : p.toList ++ (marker.toList ++ tool) = front ++ (marker.toList ++ after)) :
    p.toList.length ≤ front.length := by
  refine Nat.le_of_not_lt fun shorter => ?_
  obtain ⟨back, whole⟩ : front <+: p.toList :=
    List.prefix_of_prefix_length_le ⟨_, occurs.symm⟩ ⟨_, rfl⟩ (Nat.le_of_lt shorter)
  rw [← whole, List.append_assoc] at occurs
  rcases marker_overlap (List.append_cancel_left occurs) with
    ⟨rfl, -⟩ | ⟨rfl, -⟩ | ⟨rfl, -⟩ | ⟨more, rfl, -⟩
  · rw [List.append_nil] at whole
    exact Nat.lt_irrefl _ (whole ▸ shorter)
  · exact clear ⟨front, whole⟩
  · exact clear ⟨front ++ ['_', '-'], by rw [← whole, List.append_assoc]; rfl⟩
  · exact unmarked ⟨front, more, by rw [List.append_assoc, whole]⟩

theorem split_ofTool_readable (readable : Readable p t) : split (ofTool p t) = .ok (p, t) := by
  have pieces : Text.splitAtMarker marker.toList marker_ne_nil (ofTool p t).toList =
      [[], p.toList, t.toList] := by
    rw [toList_ofTool, ← List.nil_append (marker.toList ++ _),
      Text.splitAtMarker_of_leftmost fun _ _ _ => Nat.zero_le _,
      Text.splitAtMarker_of_leftmost fun _ _ occurs =>
        leftmost_of_clear readable.provider_unmarked readable.clear _ occurs,
      Text.splitAtMarker_unmarked (not_marked_iff.1 readable.tool_unmarked)]
  have given : p.toList ≠ [] ∧ t.toList ≠ [] :=
    ⟨mt String.toList_eq_nil_iff.1 readable.provider_ne,
      mt String.toList_eq_nil_iff.1 readable.tool_ne⟩
  unfold split
  rw [pieces]
  simp only [if_pos given, String.ofList_toList]

/-- The names that can be read, and what is read off them. -/
theorem split_eq_ok_iff {name : String} :
    split name = .ok (p, t) ↔ name = ofTool p t ∧ Readable p t := by
  constructor
  · intro read
    obtain rfl := ofTool_of_split read
    have reads := reads_of_split read
    obtain ⟨provider_ne, tool_ne⟩ := ne_of_split read
    refine ⟨rfl, provider_ne, tool_ne, ?_, not_marked_iff.2 reads.only,
      (split_ofTool_iff read).1 ⟨rfl, rfl⟩⟩
    rintro ⟨front, after, whole⟩
    have early := reads.leftmost front (after ++ (marker.toList ++ t.toList)) (by
      rw [← whole, List.append_assoc, List.append_assoc])
    rw [← whole, List.append_assoc, List.length_append, marker_toList] at early
    exact absurd early (by simp)
  · rintro ⟨rfl, readable⟩
    exact split_ofTool_readable readable

/-- A name that is not read is reported as it is. -/
theorem split_eq_error (name : String) (unread : ∀ p t, split name ≠ .ok (p, t)) :
    split name = .error (.invalidName name) := by
  unfold split at unread ⊢
  split
  · next provider tool pieces =>
    rw [pieces] at unread
    by_cases given : provider ≠ [] ∧ tool ≠ []
    · simp only [if_pos given] at unread
      exact absurd rfl (unread _ _)
    · simp only [if_neg given]
  · rfl

/-- A route's name is read as no tool of a provider: the marker is not in front of it. -/
theorem split_handoff (label : String) :
    split (handoff label) = .error (.invalidName (handoff label)) := by
  refine split_eq_error _ fun p t read => ?_
  have plain := plain_of_split read
  rw [isRoute_handoff] at plain
  cases plain

/-- Names are read exactly. What is read off a name gives the name back, and has no empty part and
no marker in its parts. A name that was made is read as it was made exactly if neither part is
empty or has the marker in it and the provider does not end in the front of one. No name is read
both as that of a tool and as that of a route. -/
theorem split_exact :
    (∀ name p t, split name = .ok (p, t) →
      ofTool p t = name ∧ p ≠ "" ∧ t ≠ "" ∧ ¬ Marked p ∧ ¬ Marked t) ∧
    (∀ p t, split (ofTool p t) = .ok (p, t) ↔
      p ≠ "" ∧ t ≠ "" ∧ ¬ Marked p ∧ ¬ Marked t ∧ ¬ "_-".toList <:+ p.toList) ∧
    (∀ name p t, split name = .ok (p, t) → isRoute name = false) ∧
    ∀ label, isRoute (handoff label) = true ∧
      split (handoff label) = .error (.invalidName (handoff label)) := by
  refine ⟨fun name p t read => ?_, fun p t => ⟨fun read => ?_, ?_⟩,
    fun _ _ _ => plain_of_split, fun label => ⟨isRoute_handoff label, split_handoff label⟩⟩
  · obtain ⟨rfl, readable⟩ := split_eq_ok_iff.1 read
    exact ⟨rfl, readable.provider_ne, readable.tool_ne, readable.provider_unmarked,
      readable.tool_unmarked⟩
  · obtain ⟨-, readable⟩ := split_eq_ok_iff.1 read
    exact ⟨readable.provider_ne, readable.tool_ne, readable.provider_unmarked,
      readable.tool_unmarked, readable.clear⟩
  · rintro ⟨provider, tool, unmarked, unmarked', clear⟩
    exact split_ofTool_readable ⟨provider, tool, unmarked, unmarked', clear⟩

end ToolName

end DialogueEngine
