import DialogueEngine.Proofs.Conversation.Recovery

/-!
Conversations that fit into a text: a program can hold them, and they nest no deeper than a text
may. Such a conversation can be read once it has been written, and fits again; so it does with an
answer to one of its calls, as answers hold texts only.
-/

namespace DialogueEngine

namespace Json

/-! ## Values that fit -/

mutual

/-- Rounding leaves the nesting as it is. -/
theorem depth_rounded : ∀ v : Json, v.rounded.depth = v.depth
  | .null | .bool _ | .number _ | .string _ => rfl
  | .array items => congrArg (· + 1) (depthItems_rounded items)
  | .object ms => congrArg (· + 1) (depthMembers_rounded ms)

theorem depthItems_rounded : ∀ items : List Json, depthItems (roundedItems items) = depthItems items
  | [] => rfl
  | v :: rest => by rw [roundedItems, depthItems, depthItems, depth_rounded, depthItems_rounded]

theorem depthMembers_rounded :
    ∀ ms : List (String × Json), depthMembers (roundedMembers ms) = depthMembers ms
  | [] => rfl
  | (_, v) :: rest => by
    rw [roundedMembers, depthMembers, depthMembers, depth_rounded, depthMembers_rounded]

end

theorem depthItems_le_iff {items : List Json} {n : Nat} :
    depthItems items ≤ n ↔ ∀ v ∈ items, v.depth ≤ n := by
  induction items with
  | nil => simp [depthItems]
  | cons v rest ih => simp [depthItems, ih]

theorem depthMembers_le_iff {ms : List (String × Json)} {n : Nat} :
    depthMembers ms ≤ n ↔ ∀ m ∈ ms, m.2.depth ≤ n := by
  induction ms with
  | nil => simp [depthMembers]
  | cons m rest ih => simp [depthMembers, ih]

/-- A value that a program holds and that nests so deeply at most. -/
structure Fits (n : Nat) (v : Json) : Prop where
  held : v.Held
  shallow : v.depth ≤ n

variable {n : Nat} {v : Json} {items : List Json} {ms ms' : List (String × Json)}

theorem fits_string (n : Nat) (s : String) : (string s).Fits n := ⟨trivial, Nat.zero_le n⟩

theorem fits_bool (n : Nat) (b : Bool) : (bool b).Fits n := ⟨trivial, Nat.zero_le n⟩

theorem Fits.rounded (fits : v.Fits n) : v.rounded.Fits n :=
  ⟨held_rounded v fits.held, (depth_rounded v).trans_le fits.shallow⟩

theorem fits_array : (array items).Fits (n + 1) ↔ ∀ v ∈ items, v.Fits n := by
  constructor
  · intro fits v member
    have shallow : depthItems items ≤ n := Nat.le_of_succ_le_succ fits.shallow
    exact ⟨heldItems_iff.1 fits.held v member, depthItems_le_iff.1 shallow v member⟩
  · intro each
    exact ⟨heldItems_iff.2 fun v member => (each v member).held,
      Nat.succ_le_succ (depthItems_le_iff.2 fun v member => (each v member).shallow)⟩

theorem fits_object : (object ms).Fits (n + 1) ↔
    (ms.map (·.1)).Pairwise (· < ·) ∧ ∀ m ∈ ms, m.2.Fits n := by
  rw [List.pairwise_map]
  constructor
  · intro fits
    refine ⟨fits.held.1, fun m member => ?_⟩
    have shallow : depthMembers ms ≤ n := Nat.le_of_succ_le_succ fits.shallow
    exact ⟨heldMembers_iff.1 fits.held.2 m member, depthMembers_le_iff.1 shallow m member⟩
  · rintro ⟨ordered, each⟩
    exact ⟨⟨ordered, heldMembers_iff.2 fun m member => (each m member).held⟩,
      Nat.succ_le_succ (depthMembers_le_iff.2 fun m member => (each m member).shallow)⟩

/-- An object some of whose members are others fits if those do. -/
theorem Fits.revised (fits : (object ms).Fits (n + 1)) (keys : ms'.map (·.1) = ms.map (·.1))
    (each : ∀ m ∈ ms', m ∈ ms ∨ m.2.Fits n) : (object ms').Fits (n + 1) := by
  obtain ⟨ordered, old⟩ := fits_object.1 fits
  exact fits_object.2 ⟨keys ▸ ordered, fun m member => (each m member).elim (old m) id⟩

end Json

open Json (Fits fits_array fits_bool fits_object fits_string)

/-! ## Answers -/

/-- A message without calls holds texts only. -/
theorem Message.fits_of_silent {m : Message} (silent : m.toolCalls = []) (n : Nat) :
    m.toJson.Fits (n + 1) := by
  have keys := m.keys_sublist
  rw [toJson_eq]
  refine fits_object.2 ⟨List.Pairwise.sublist keys (by decide), ?_⟩
  have text? (key : String) (s : Option String) :
      ∀ e ∈ member? key (s.map .string), e.2.Fits n := by
    cases s with
    | none => simp [member?]
    | some s => simpa [member?] using fits_string n s
  have error : ∀ e ∈ member? "is_error" m.errorGiven?, e.2.Fits n := by
    unfold errorGiven?
    split
    · simpa [member?] using fits_bool n true
    · simp [member?]
  have calls : m.callsGiven? = none := by simp [callsGiven?, silent]
  intro e member
  simp only [members, calls, List.mem_append] at member
  rcases member with own | reports | said | role | answers | asks
  · simp only [List.mem_cons, List.not_mem_nil, or_false] at own
    rcases own with rfl | rfl | rfl <;> exact fits_string n _
  · exact error e reports
  · exact text? _ _ e said
  · rw [List.mem_singleton.1 role]
    exact fits_string n _
  · exact text? _ _ e answers
  · cases asks

namespace Conversation

/-! ## Conversations -/

/-- A conversation that a text can hold. -/
structure Fits (c : Conversation) : Prop where
  held : c.Held
  shallow : c.toJson.depth ≤ Json.textLevels

variable {c : Conversation}

theorem Fits.value (fits : c.Fits) : c.toJson.Fits Json.textLevels :=
  ⟨fits.held.value, fits.shallow⟩

/-- What is read of a conversation that fits, fits again. -/
theorem Fits.rounded (fits : c.Fits) : c.rounded.Fits := by
  have value : c.rounded.toJson.Fits Json.textLevels := by
    rw [rounded_toJson]
    exact fits.value.rounded
  refine ⟨⟨value.held, fits.held.created, fits.held.updated, ?_, ?_⟩, value.shallow⟩
  · intro m member
    obtain ⟨m', old, rfl⟩ := List.mem_map.1 member
    exact fits.held.messages m' old
  · intro r member
    obtain ⟨r', old, rfl⟩ := List.mem_map.1 member
    exact fits.held.trace r' old

/-- A conversation fits with fewer calls pending and an answer more. -/
theorem Fits.answered (fits : c.Fits) {pending : List ToolCall} (fewer : pending ⊆ c.pending)
    {m : Message} (silent : m.toolCalls = [])
    (timely : Instant.yearInRange m.createdAt.year = true) (status : Status) :
    { c with pending, status, messages := c.messages ++ [m], updatedAt := m.createdAt }.Fits := by
  have whole : (Json.object c.members).Fits (126 + 1) := fits.value
  have said : (Json.array (c.messages.map Message.toJson ++ [m.toJson])).Fits (125 + 1) := by
    have before : (Json.array (c.messages.map Message.toJson)).Fits (125 + 1) :=
      (fits_object.1 whole).2 ("messages", _) (by simp [members, membersAfterTrace])
    refine fits_array.2 fun v member => ?_
    rcases List.mem_append.1 member with old | new
    · exact fits_array.1 before v old
    · rw [List.mem_singleton.1 new]
      exact Message.fits_of_silent silent 124
  have waits : (Json.array (pending.map ToolCall.toJson)).Fits (125 + 1) := by
    have before : (Json.array (c.pending.map ToolCall.toJson)).Fits (125 + 1) :=
      (fits_object.1 whole).2 ("pending_tool_calls", _) (by simp [members, membersAfterTrace])
    exact fits_array.2 fun v member => fits_array.1 before v (List.map_subset _ fewer member)
  have value : { c with
      pending, status, messages := c.messages ++ [m], updatedAt := m.createdAt }.toJson.Fits
        Json.textLevels := by
    refine Json.Fits.revised (n := 126) whole rfl ?_
    simp [members, membersBeforeTrace, membersAfterTrace, said, waits, fits_string, Instant.toJson]
  refine ⟨⟨value.held, fits.held.created, timely, ?_, fits.held.trace⟩, value.shallow⟩
  intro m' member
  rcases List.mem_append.1 member with earlier | new
  · exact fits.held.messages m' earlier
  · rw [List.mem_singleton.1 new]
    exact timely

end Conversation

end DialogueEngine
