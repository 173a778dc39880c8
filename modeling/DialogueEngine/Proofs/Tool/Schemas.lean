import DialogueEngine.Proofs.Json.Rereading
import DialogueEngine.Proofs.Conversation.Recovery
import DialogueEngine.Tool.Selection

/-!
Schemas stay values that a program can hold when they are made acceptable: members stay in key
order, as only texts are moved between them. Once they are acceptable, they stay as they are.
-/

namespace DialogueEngine

namespace Json

/-- Members are in order if their keys are. -/
theorem ordered_of_map {ms : List (String × Json)} (keys : List String)
    (same : ms.map (·.1) = keys) (ordered : keys.Pairwise (· < ·)) :
    ms.Pairwise fun a b => a.1 < b.1 := by
  rw [← same] at ordered
  exact List.pairwise_map.1 ordered

/-- Members with the same keys are in the same order. -/
theorem ordered_of_keys {ms ms' : List (String × Json)} (same : ms'.map (·.1) = ms.map (·.1))
    (ordered : ms.Pairwise fun a b => a.1 < b.1) : ms'.Pairwise fun a b => a.1 < b.1 :=
  ordered_of_map _ same (List.pairwise_map.2 ordered)

theorem put_eq_place (key : String) (v : Json) (ms : List (String × Json)) :
    put key v ms = Table.place key v ms := by
  induction ms with
  | nil => rfl
  | cons m rest ih =>
    obtain ⟨k, w⟩ := m
    rw [put, Table.place, ih]

/-- A member that is put into an object leaves it held if it is held itself. -/
theorem Held.put {key : String} {v : Json} {ms : List (String × Json)} (held : v.Held)
    (others : (Json.object ms).Held) : (Json.object (put key v ms)).Held := by
  rw [put_eq_place]
  refine ⟨Table.place_ordered key v others.1, heldMembers_iff.2 fun m member => ?_⟩
  rcases Table.mem_place member with rfl | old
  · exact held
  · exact heldMembers_iff.1 others.2 m old

theorem Held.drop {key : String} {ms : List (String × Json)} (held : (Json.object ms).Held) :
    (Json.object (drop key ms)).Held :=
  ⟨held.1.filter _, heldMembers_iff.2 fun m member =>
    heldMembers_iff.1 held.2 m (List.mem_filter.1 member).1⟩

end Json

namespace Schema

open Json (HeldItems HeldMembers ordered_of_keys)

theorem held_moveFormat {ms : List (String × Json)} (held : (Json.object ms).Held) :
    (Json.object (moveFormat ms)).Held := by
  unfold moveFormat
  split
  · exact Json.Held.put trivial held.drop
  · exact held

theorem keys_sanitizeMembers (ms : List (String × Json)) :
    (sanitizeMembers ms).map (·.1) = ms.map (·.1) := by
  induction ms with
  | nil => rfl
  | cons m rest ih => rw [sanitizeMembers, List.map_cons, ih, List.map_cons]

theorem keys_sanitizeValues (ms : List (String × Json)) :
    (sanitizeValues ms).map (·.1) = ms.map (·.1) := by
  induction ms with
  | nil => rfl
  | cons m rest ih => rw [sanitizeValues, List.map_cons, ih, List.map_cons]

mutual

theorem held_sanitize : ∀ v : Json, v.Held → (sanitize v).Held
  | .null, held => held
  | .bool _, held => held
  | .number _, held => held
  | .string _, held => held
  | .array _, held => held
  | .object ms, held =>
    held_moveFormat
      ⟨ordered_of_keys (keys_sanitizeMembers ms) held.1, held_sanitizeMembers ms held.2⟩

theorem held_sanitizeMembers :
    ∀ ms : List (String × Json), HeldMembers ms → HeldMembers (sanitizeMembers ms)
  | [], held => held
  | (key, v) :: rest, held =>
    ⟨held_sanitizeBelow (branch key) v held.1, held_sanitizeMembers rest held.2⟩

theorem held_sanitizeBelow : ∀ (b : Branch) (v : Json), v.Held → (sanitizeBelow b v).Held
  | b, .object ms, held => by
    cases b with
    | values =>
      exact ⟨ordered_of_keys (keys_sanitizeValues ms) held.1, held_sanitizeValues ms held.2⟩
    | oneOrMany =>
      exact held_moveFormat
        ⟨ordered_of_keys (keys_sanitizeMembers ms) held.1, held_sanitizeMembers ms held.2⟩
    | many => exact held
    | other => exact held
  | b, .array items, held => by
    cases b with
    | oneOrMany => exact held_sanitizeItems items held
    | many => exact held_sanitizeItems items held
    | values => exact held
    | other => exact held
  | b, .null, held => by cases b <;> exact held
  | b, .bool _, held => by cases b <;> exact held
  | b, .number _, held => by cases b <;> exact held
  | b, .string _, held => by cases b <;> exact held

theorem held_sanitizeValues :
    ∀ ms : List (String × Json), HeldMembers ms → HeldMembers (sanitizeValues ms)
  | [], held => held
  | (_, v) :: rest, held => ⟨held_sanitize v held.1, held_sanitizeValues rest held.2⟩

theorem held_sanitizeItems : ∀ items : List Json, HeldItems items → HeldItems (sanitizeItems items)
  | [], held => held
  | v :: rest, held => ⟨held_sanitize v held.1, held_sanitizeItems rest held.2⟩

end

/-! ## Schemas that have been made acceptable -/

section Lookup

open Json (lookup put drop)

variable {key other : String} {v : Json}

theorem lookup_put (different : key ≠ other) (ms : List (String × Json)) :
    lookup other (put key v ms) = lookup other ms := by
  induction ms with
  | nil => simp [put, lookup, different]
  | cons m rest ih =>
    obtain ⟨k, w⟩ := m
    unfold put
    split
    · simp [lookup, different]
    split
    · next same =>
      subst same
      simp [lookup, different]
    · simp [lookup, ih]

theorem lookup_put_self (key : String) (v : Json) (ms : List (String × Json)) :
    lookup key (put key v ms) = some v := by
  induction ms with
  | nil => simp [put, lookup]
  | cons m rest ih =>
    obtain ⟨k, u⟩ := m
    unfold put
    split
    · simp [lookup]
    split
    · simp [lookup]
    · next different => simp [lookup, Ne.symm different, ih]

theorem lookup_drop_self (key : String) (ms : List (String × Json)) :
    lookup key (drop key ms) = none := by
  induction ms with
  | nil => rfl
  | cons m rest ih =>
    by_cases same : m.1 = key
    · rw [drop, List.filter_cons_of_neg (by simp [same])]
      exact ih
    · rw [drop, List.filter_cons_of_pos (by simp [same]), lookup, if_neg same]
      exact ih

theorem lookup_drop (different : key ≠ other) (ms : List (String × Json)) :
    lookup other (drop key ms) = lookup other ms := by
  induction ms with
  | nil => rfl
  | cons m rest ih =>
    by_cases same : m.1 = key
    · rw [drop, List.filter_cons_of_neg (by simp [same]), lookup, if_neg (same ▸ different)]
      exact ih
    · rw [drop, List.filter_cons_of_pos (by simp [same]), lookup, lookup, ← drop, ih]

/-- A format that is not accepted goes, and the description mentions it. -/
theorem lookup_moveFormat {ms : List (String × Json)} {format : String}
    (lost : lostFormat? ms = some format) : lookup "format" (moveFormat ms) = none ∧
      lookup "description" (moveFormat ms) =
        some (.string (mention format (lookup "description" ms))) := by
  rw [moveFormat, lost]
  dsimp only
  rw [lookup_put (by decide), lookup_drop_self, lookup_put_self, lookup_drop (by decide)]
  exact ⟨rfl, rfl⟩

/-- A format that was not accepted is there no longer. -/
theorem lostFormat?_moveFormat (ms : List (String × Json)) :
    lostFormat? (moveFormat ms) = none := by
  cases lost : lostFormat? ms with
  | none => rw [moveFormat, lost, lost]
  | some format =>
    unfold lostFormat?
    rw [(lookup_moveFormat lost).1, ite_self]

theorem moveFormat_moveFormat (ms : List (String × Json)) :
    moveFormat (moveFormat ms) = moveFormat ms := by
  rw [moveFormat, lostFormat?_moveFormat]

end Lookup

theorem sanitizeMembers_eq_map (ms : List (String × Json)) :
    sanitizeMembers ms = ms.map fun m => (m.1, sanitizeBelow (branch m.1) m.2) := by
  induction ms with
  | nil => rfl
  | cons m rest ih => rw [sanitizeMembers, ih, List.map_cons]

theorem sanitizeValues_eq_map (ms : List (String × Json)) :
    sanitizeValues ms = ms.map fun m => (m.1, sanitize m.2) := by
  induction ms with
  | nil => rfl
  | cons m rest ih => rw [sanitizeValues, ih, List.map_cons]

theorem sanitizeItems_eq_map (items : List Json) : sanitizeItems items = items.map sanitize := by
  induction items with
  | nil => rfl
  | cons v rest ih => rw [sanitizeItems, ih, List.map_cons]

/-- Texts that are put into an object stay as they are. -/
theorem sanitizeMembers_put (text : String) (ms : List (String × Json)) :
    sanitizeMembers (Json.put "description" (.string text) ms) =
      Json.put "description" (.string text) (sanitizeMembers ms) := by
  have kept : sanitizeBelow (branch "description") (.string text) = .string text := by
    have other : branch "description" = .other := by simp [branch]
    rw [other]
    rfl
  induction ms with
  | nil => simp [Json.put, sanitizeMembers, kept]
  | cons m rest ih =>
    obtain ⟨k, w⟩ := m
    simp only [Json.put, sanitizeMembers]
    split
    · simp [sanitizeMembers, kept]
    split
    · simp [sanitizeMembers, kept]
    · simp [sanitizeMembers, ih]

/-- Members that need no more treatment need none after a format has been moved. -/
theorem sanitizeMembers_moveFormat {ms : List (String × Json)} (settled : sanitizeMembers ms = ms) :
    sanitizeMembers (moveFormat ms) = moveFormat ms := by
  have dropped : sanitizeMembers (Json.drop "format" ms) = Json.drop "format" ms := by
    have each := settled
    rw [sanitizeMembers_eq_map] at each ⊢
    refine (List.map_congr_left fun m member => ?_).trans (List.map_id _)
    exact List.map_inj_left.1 (each.trans (List.map_id ms).symm) m (List.mem_filter.1 member).1
  unfold moveFormat
  split
  · rw [sanitizeMembers_put, dropped]
  · exact settled

mutual

/-- A schema that has been made acceptable stays as it is. -/
theorem sanitize_sanitize : ∀ v : Json, sanitize (sanitize v) = sanitize v
  | .null | .bool _ | .number _ | .string _ | .array _ => by simp [sanitize]
  | .object ms => by
    simp only [sanitize]
    rw [sanitizeMembers_moveFormat (sanitizeMembers_sanitizeMembers ms), moveFormat_moveFormat]

theorem sanitizeMembers_sanitizeMembers :
    ∀ ms : List (String × Json), sanitizeMembers (sanitizeMembers ms) = sanitizeMembers ms
  | [] => rfl
  | (key, v) :: rest => by
    simp only [sanitizeMembers]
    rw [sanitizeBelow_sanitizeBelow (branch key) v, sanitizeMembers_sanitizeMembers rest]

theorem sanitizeBelow_sanitizeBelow :
    ∀ (b : Branch) (v : Json), sanitizeBelow b (sanitizeBelow b v) = sanitizeBelow b v
  | b, .object ms => by
    cases b with
    | values => simp only [sanitizeBelow, sanitizeValues_sanitizeValues ms]
    | oneOrMany =>
      simp only [sanitizeBelow]
      rw [sanitizeMembers_moveFormat (sanitizeMembers_sanitizeMembers ms), moveFormat_moveFormat]
    | many => simp only [sanitizeBelow]
    | other => simp only [sanitizeBelow]
  | b, .array items => by
    cases b with
    | oneOrMany => simp only [sanitizeBelow, sanitizeItems_sanitizeItems items]
    | many => simp only [sanitizeBelow, sanitizeItems_sanitizeItems items]
    | values => simp only [sanitizeBelow]
    | other => simp only [sanitizeBelow]
  | b, .null | b, .bool _ | b, .number _ | b, .string _ => by
    cases b <;> simp only [sanitizeBelow]

theorem sanitizeValues_sanitizeValues :
    ∀ ms : List (String × Json), sanitizeValues (sanitizeValues ms) = sanitizeValues ms
  | [] => rfl
  | (key, v) :: rest => by
    simp only [sanitizeValues]
    rw [sanitize_sanitize v, sanitizeValues_sanitizeValues rest]

theorem sanitizeItems_sanitizeItems :
    ∀ items : List Json, sanitizeItems (sanitizeItems items) = sanitizeItems items
  | [] => rfl
  | v :: rest => by
    simp only [sanitizeItems]
    rw [sanitize_sanitize v, sanitizeItems_sanitizeItems rest]

end

end Schema

namespace OfferedTool

theorem distinct_sublist (seen : List String) (tools : List OfferedTool) :
    (distinct seen tools).Sublist tools := by
  induction tools generalizing seen with
  | nil => exact .slnil
  | cons t rest ih =>
    unfold distinct
    split
    · exact (ih seen).cons t
    · exact (ih _).cons_cons t

/-- What becomes of a listing can be held if its schemas are. -/
theorem held_ofListing {provider : String} {listing : List ListedTool}
    (held : ∀ t ∈ listing, t.inputSchema.Held) :
    ∀ t ∈ ofListing provider listing, t.definition.inputSchema.Held := by
  intro t member
  obtain ⟨listed, inside, rfl⟩ := List.mem_map.1 ((distinct_sublist _ _).subset member)
  exact Schema.held_sanitize _ (held listed inside)

end OfferedTool

end DialogueEngine
