import DialogueEngine.Proofs.Tool.Schemas

/-!
What making a schema acceptable changes, place by place. Along a way into a schema it is settled by
the steps alone how a part is treated: as a schema, or as what stands below a key of one. From one
step to the next this gives what becomes of each part, as long as the way does not go into a text
that changes; parts with no format to lose stay as they are.
-/

namespace DialogueEngine

namespace Json

/-- A step from a value to one of its parts. -/
inductive Step where
  | member (key : String)
  | item (index : Nat)
  deriving DecidableEq

/-- A way leads from a value to a part of it. -/
inductive Part : List Step → Json → Json → Prop
  | whole (v : Json) : Part [] v v
  | member {key : String} {v part : Json} {ms : List (String × Json)} {way : List Step}
      (inside : (key, v) ∈ ms) (below : Part way v part) :
      Part (.member key :: way) (.object ms) part
  | item {index : Nat} {v part : Json} {items : List Json} {way : List Step}
      (inside : items[index]? = some v) (below : Part way v part) :
      Part (.item index :: way) (.array items) part

variable {v part : Json} {way : List Step}

theorem part_nil : Part [] v part ↔ part = v :=
  ⟨fun | .whole _ => rfl, fun same => same ▸ .whole v⟩

theorem part_member {key : String} :
    Part [.member key] v part ↔ ∃ ms, v = .object ms ∧ (key, part) ∈ ms := by
  constructor
  · rintro (_ | ⟨inside, _ | _⟩)
    exact ⟨_, rfl, inside⟩
  · rintro ⟨ms, rfl, inside⟩
    exact .member inside (.whole part)

theorem part_item {index : Nat} :
    Part [.item index] v part ↔ ∃ items, v = .array items ∧ items[index]? = some part := by
  constructor
  · rintro (_ | _ | ⟨inside, _ | _⟩)
    exact ⟨_, rfl, inside⟩
  · rintro ⟨items, rfl, inside⟩
    exact .item inside (.whole part)

/-- A way is gone step by step. -/
theorem part_cons {step : Step} :
    Part (step :: way) v part ↔ ∃ next, Part [step] v next ∧ Part way next part := by
  constructor
  · rintro (_ | ⟨inside, below⟩ | ⟨inside, below⟩)
    · exact ⟨_, .member inside (.whole _), below⟩
    · exact ⟨_, .item inside (.whole _), below⟩
  · rintro ⟨next, first, below⟩
    cases step with
    | member key =>
      obtain ⟨ms, rfl, inside⟩ := part_member.1 first
      exact .member inside below
    | item index =>
      obtain ⟨items, rfl, inside⟩ := part_item.1 first
      exact .item inside below

theorem part_append {way' : List Step} :
    Part (way ++ way') v part ↔ ∃ next, Part way v next ∧ Part way' next part := by
  induction way generalizing v with
  | nil => simp [part_nil]
  | cons step way ih =>
    rw [List.cons_append, part_cons]
    constructor
    · rintro ⟨first, near, later⟩
      obtain ⟨next, far, below⟩ := ih.1 later
      exact ⟨next, part_cons.2 ⟨first, near, far⟩, below⟩
    · rintro ⟨next, reached, below⟩
      obtain ⟨first, near, far⟩ := part_cons.1 reached
      exact ⟨first, near, ih.2 ⟨next, far, below⟩⟩

theorem mem_put {key other : String} (different : key ≠ other) {w : Json}
    {ms : List (String × Json)} : (other, v) ∈ put key w ms ↔ (other, v) ∈ ms := by
  have apart : (other, v) ≠ (key, w) := fun same => different (Prod.mk.inj same).1.symm
  induction ms with
  | nil => simp [put, apart]
  | cons m rest ih =>
    obtain ⟨k, u⟩ := m
    unfold put
    split
    · simp [apart]
    split
    · next same =>
      have apart' : (other, v) ≠ (k, u) := fun equal =>
        different (same.trans (Prod.mk.inj equal).1.symm)
      simp [apart, apart']
    · simp only [List.mem_cons, ih]

end Json

namespace Schema

open Json (Part Step lookup part_append part_cons part_item part_member part_nil)

/-! ## What is to change -/

/-- The ways from a schema to the schemas in it, itself included. -/
inductive Place : List Step → Prop
  | whole : Place []
  | property (key : String) {way : List Step} (below : Place way) :
      Place (.member "properties" :: .member key :: way)
  | items {way : List Step} (below : Place way) : Place (.member "items" :: way)
  | item (index : Nat) {way : List Step} (below : Place way) :
      Place (.member "items" :: .item index :: way)
  | alternative {key : String} (one : key = "oneOf" ∨ key = "anyOf" ∨ key = "allOf") (index : Nat)
      {way : List Step} (below : Place way) : Place (.member key :: .item index :: way)

/-- An object has a format that is not accepted. -/
def Loses (ms : List (String × Json)) (format : String) : Prop :=
  lookup "type" ms = some (.string "string") ∧ lookup "format" ms = some (.string format) ∧
    format ≠ "enum" ∧ format ≠ "date-time"

/-- A way that neither leads to something around a place nor into the two texts that change there
with the format. -/
def Apart (way place : List Step) : Prop :=
  ¬ way <+: place ∧ ¬ place ++ [.member "format"] <+: way ∧
    ¬ place ++ [.member "description"] <+: way

theorem lostFormat?_eq_some_iff {ms : List (String × Json)} {format : String} :
    lostFormat? ms = some format ↔ Loses ms format := by
  unfold lostFormat? Loses
  by_cases text : lookup "type" ms = some (.string "string")
  · rw [if_pos text]
    split
    · next f found =>
      rw [found]
      by_cases accepted : acceptedFormats.contains f
      · rw [if_pos accepted]
        simp only [acceptedFormats, List.contains_iff_mem, List.mem_cons, List.not_mem_nil,
          or_false] at accepted
        refine ⟨nofun, ?_⟩
        rintro ⟨-, same, noEnum, noDate⟩
        cases same
        exact absurd accepted (not_or.2 ⟨noEnum, noDate⟩)
      · rw [if_neg accepted]
        simp only [acceptedFormats, List.contains_iff_mem, List.mem_cons, List.not_mem_nil,
          or_false, not_or] at accepted
        constructor
        · rintro ⟨⟩
          exact ⟨text, rfl, accepted⟩
        · rintro ⟨-, same, -⟩
          cases same
          rfl
    · next other =>
      exact ⟨nofun, fun ⟨_, found, _⟩ => absurd found (other format)⟩
  · rw [if_neg text]
    exact ⟨nofun, fun ⟨typed, _⟩ => absurd typed text⟩

theorem mem_moveFormat {key : String} {v : Json} {ms : List (String × Json)}
    (spared : ∀ format, lostFormat? ms = some format → key ≠ "format" ∧ key ≠ "description") :
    (key, v) ∈ moveFormat ms ↔ (key, v) ∈ ms := by
  unfold moveFormat
  split
  · next format lost =>
    obtain ⟨noFormat, noDescription⟩ := spared format lost
    rw [Json.mem_put (Ne.symm noDescription), Json.drop, List.mem_filter]
    simp [noFormat]
  · rfl

/-! ## How parts are treated -/

/-- What the rule does with a part: it treats it as a schema, or as what stands below a key. -/
inductive Treatment where
  | schema
  | below (b : Branch)

namespace Treatment

def apply : Treatment → Json → Json
  | .schema, v => sanitize v
  | .below b, v => sanitizeBelow b v

/-- How the parts of a part are treated. -/
def next : Treatment → Step → Treatment
  | .schema, .member key => .below (branch key)
  | .below .oneOrMany, .member key => .below (branch key)
  | .below .values, .member _ => .schema
  | .below .oneOrMany, .item _ => .schema
  | .below .many, .item _ => .schema
  | _, _ => .below .other

def along (t : Treatment) (way : List Step) : Treatment := way.foldl next t

/-- Whether an object is treated as a schema. -/
def isSchema : Treatment → Bool
  | .schema => true
  | .below .oneOrMany => true
  | .below _ => false

theorem along_other (way : List Step) : along (.below .other) way = .below .other := by
  induction way with
  | nil => rfl
  | cons step way ih => exact ih

theorem not_isSchema_other (way : List Step) : ¬ (along (.below .other) way).isSchema = true := by
  rw [along_other]
  exact Bool.false_ne_true

theorem next_item (t : Treatment) (i j : Nat) : t.next (.item i) = t.next (.item j) := by
  rcases t with _ | _ | _ | _ | _ <;> rfl

/-- What becomes of the members of an object one by one. -/
def members (t : Treatment) (ms : List (String × Json)) : List (String × Json) :=
  ms.map fun m => (m.1, (t.next (.member m.1)).apply m.2)

theorem apply_other (v : Json) : apply (.below .other) v = v := by
  cases v <;> rfl

theorem members_other (ms : List (String × Json)) : members (.below .other) ms = ms := by
  simp [members, next, apply_other]

theorem apply_object (t : Treatment) (ms : List (String × Json)) : t.apply (.object ms) =
    .object (if t.isSchema = true then moveFormat (t.members ms) else t.members ms) := by
  match t with
  | .schema => rw [apply, sanitize, sanitizeMembers_eq_map]; rfl
  | .below .oneOrMany => rw [apply, sanitizeBelow, sanitizeMembers_eq_map]; rfl
  | .below .values => rw [apply, sanitizeBelow, sanitizeValues_eq_map]; rfl
  | .below .many => exact congrArg Json.object (members_other ms).symm
  | .below .other => exact congrArg Json.object (members_other ms).symm

theorem apply_array (t : Treatment) (items : List Json) (index : Nat) :
    t.apply (.array items) = .array (items.map (t.next (.item index)).apply) := by
  have kept : items.map (apply (.below .other)) = items := by
    simp [funext apply_other]
  match t with
  | .schema => exact congrArg Json.array kept.symm
  | .below .oneOrMany => rw [apply, sanitizeBelow, sanitizeItems_eq_map]; rfl
  | .below .values => exact congrArg Json.array kept.symm
  | .below .many => rw [apply, sanitizeBelow, sanitizeItems_eq_map]; rfl
  | .below .other => exact congrArg Json.array kept.symm

/-- A value without parts stays as it is. -/
theorem apply_flat (t : Treatment) {v : Json} (noObject : ∀ ms, v ≠ .object ms)
    (noArray : ∀ items, v ≠ .array items) : t.apply v = v := by
  cases v with
  | object ms => exact absurd rfl (noObject ms)
  | array items => exact absurd rfl (noArray items)
  | null => rcases t with _ | _ | _ | _ | _ <;> rfl
  | bool b => rcases t with _ | _ | _ | _ | _ <;> rfl
  | number n => rcases t with _ | _ | _ | _ | _ <;> rfl
  | string s => rcases t with _ | _ | _ | _ | _ <;> rfl

/-- An object stays one, and nothing else becomes one. -/
theorem apply_eq_object {t : Treatment} {v : Json} {ms : List (String × Json)}
    (treated : t.apply v = .object ms) : ∃ ms', v = .object ms' := by
  by_contra object
  by_cases array : ∃ items, v = .array items
  · obtain ⟨items, rfl⟩ := array
    rw [t.apply_array items 0] at treated
    cases treated
  · rw [t.apply_flat (not_exists.1 object) (not_exists.1 array)] at treated
    exact object ⟨ms, treated⟩

theorem lookup_members (t : Treatment) (key : String) (ms : List (String × Json)) :
    lookup key (t.members ms) = (lookup key ms).map (t.next (.member key)).apply := by
  induction ms with
  | nil => rfl
  | cons m rest ih =>
    rw [members, List.map_cons, ← members]
    by_cases same : m.1 = key
    · subst same
      simp [lookup]
    · simp [lookup, same, ih]

variable {t : Treatment}

theorem next_member (schema : t.isSchema = true) (key : String) :
    t.next (.member key) = .below (branch key) := by
  match t with
  | .schema => rfl
  | .below .oneOrMany => rfl

/-- A member that is no schema, nor holds any, is found as it was. -/
theorem lookup_members_other (schema : t.isSchema = true) {key : String}
    (other : branch key = .other) (ms : List (String × Json)) :
    lookup key (t.members ms) = lookup key ms := by
  rw [lookup_members, next_member schema, other, funext apply_other]
  exact Option.map_id'

theorem lostFormat?_members (schema : t.isSchema = true) (ms : List (String × Json)) :
    lostFormat? (t.members ms) = lostFormat? ms := by
  unfold lostFormat?
  rw [lookup_members_other schema (by simp [branch]),
    lookup_members_other schema (by simp [branch])]

/-- One step further on. A step from a schema that loses a format may not go to the texts that
change with it. -/
theorem part_apply {v part : Json} {step : Step}
    (spared : ∀ ms format, t.isSchema = true → v = .object ms → Loses ms format →
      step ≠ .member "format" ∧ step ≠ .member "description") :
    Part [step] (t.apply v) part ↔ ∃ w, Part [step] v w ∧ part = (t.next step).apply w := by
  by_cases object : ∃ ms, v = .object ms
  · obtain ⟨ms, rfl⟩ := object
    cases step with
    | item index =>
      simp only [apply_object, part_item]
      exact ⟨nofun, nofun⟩
    | member key =>
      have same : (key, part) ∈ (if t.isSchema = true then moveFormat (t.members ms)
          else t.members ms) ↔ (key, part) ∈ t.members ms := by
        split
        · next schema =>
          refine mem_moveFormat fun format lost => ?_
          rw [lostFormat?_members schema, lostFormat?_eq_some_iff] at lost
          simpa using spared ms format schema rfl lost
        · rfl
      simp only [apply_object, part_member, Json.object.injEq, exists_eq_left', same]
      simp only [members, List.mem_map, Prod.exists, Prod.mk.injEq]
      constructor
      · rintro ⟨_, w, inside, rfl, rfl⟩
        exact ⟨w, inside, rfl⟩
      · rintro ⟨w, inside, rfl⟩
        exact ⟨key, w, inside, rfl, rfl⟩
  by_cases array : ∃ items, v = .array items
  · obtain ⟨items, rfl⟩ := array
    cases step with
    | member key =>
      simp only [t.apply_array items 0, part_member]
      exact ⟨nofun, nofun⟩
    | item index =>
      simp only [t.apply_array items index, part_item, Json.array.injEq, exists_eq_left',
        List.getElem?_map, Option.map_eq_some_iff]
      simp only [eq_comm]
  · have flat : ∀ w, ¬ Part [step] v w := by
      rintro w (_ | ⟨-, -⟩ | ⟨-, -⟩)
      · exact object ⟨_, rfl⟩
      · exact array ⟨_, rfl⟩
    rw [t.apply_flat (not_exists.1 object) (not_exists.1 array)]
    exact ⟨fun reached => absurd reached (flat _), fun ⟨w, reached, _⟩ => absurd reached (flat w)⟩

/-- A way goes into no text that changes. -/
def Spared (t : Treatment) (v : Json) (way : List Step) : Prop :=
  ∀ place ms format, (t.along place).isSchema = true → Part place v (.object ms) →
    Loses ms format →
    ¬ place ++ [.member "format"] <+: way ∧ ¬ place ++ [.member "description"] <+: way

theorem Spared.next {v w : Json} {step : Step} {way : List Step} (spared : t.Spared v (step :: way))
    (near : Part [step] v w) : (t.next step).Spared w way := by
  intro place ms format schema reached lost
  have later := spared (step :: place) ms format schema (part_cons.2 ⟨w, near, reached⟩) lost
  simpa only [List.cons_append, List.cons_prefix_cons, true_and] using later

/-- What becomes of the parts that a way leads to. -/
theorem part_along {v part : Json} {way : List Step} (spared : t.Spared v way) :
    Part way (t.apply v) part ↔ ∃ w, Part way v w ∧ part = (t.along way).apply w := by
  induction way generalizing t v with
  | nil => simp [part_nil, along]
  | cons step way ih =>
    have first : ∀ w, Part [step] (t.apply v) w ↔
        ∃ u, Part [step] v u ∧ w = (t.next step).apply u := by
      refine fun w => part_apply fun ms format schema same lost => ?_
      have here := spared [] ms format schema (same ▸ .whole _) lost
      simpa [List.cons_prefix_cons, eq_comm] using here
    rw [part_cons]
    constructor
    · rintro ⟨w, treated, treated'⟩
      obtain ⟨u, near, rfl⟩ := (first w).1 treated
      obtain ⟨y, far, rfl⟩ := (ih (spared.next near)).1 treated'
      exact ⟨y, part_cons.2 ⟨u, near, far⟩, rfl⟩
    · rintro ⟨y, reached, rfl⟩
      obtain ⟨u, near, far⟩ := part_cons.1 reached
      exact ⟨_, (first _).2 ⟨u, near, rfl⟩, (ih (spared.next near)).2 ⟨y, far, rfl⟩⟩

/-- No part that is treated as a schema has a format to lose. -/
def Calm (t : Treatment) (v : Json) : Prop :=
  ∀ way ms format, (t.along way).isSchema = true → Part way v (.object ms) → ¬ Loses ms format

theorem Calm.next {v w : Json} {step : Step} (calm : t.Calm v) (near : Part [step] v w) :
    (t.next step).Calm w :=
  fun way ms format schema reached =>
    calm (step :: way) ms format schema (part_cons.2 ⟨w, near, reached⟩)

mutual

/-- Where no format has to go nothing changes. -/
theorem Calm.apply_eq : ∀ (v : Json) (t : Treatment), t.Calm v → t.apply v = v
  | .null, t, _ | .bool _, t, _ | .number _, t, _ | .string _, t, _ => t.apply_flat nofun nofun
  | .array items, t, calm => by
    have each : ∀ w ∈ items, (t.next (.item 0)).Calm w := by
      intro w member
      obtain ⟨index, found⟩ := List.mem_iff_getElem?.1 member
      exact t.next_item index 0 ▸ calm.next (part_item.2 ⟨items, rfl, found⟩)
    rw [t.apply_array items 0, Calm.map_eq items _ each]
  | .object ms, t, calm => by
    have each : ∀ m ∈ ms, (t.next (.member m.1)).Calm m.2 :=
      fun m member => calm.next (part_member.2 ⟨ms, rfl, member⟩)
    rw [apply_object, Calm.members_eq ms t each]
    split
    · next schema =>
      have settled : lostFormat? ms = none := by
        refine Option.eq_none_iff_forall_ne_some.2 fun format lost => ?_
        exact calm [] ms format schema (.whole _) (lostFormat?_eq_some_iff.1 lost)
      rw [moveFormat, settled]
    · rfl

theorem Calm.map_eq : ∀ (items : List Json) (t : Treatment),
    (∀ w ∈ items, t.Calm w) → items.map t.apply = items
  | [], _, _ => rfl
  | v :: rest, t, each => by
    rw [List.map_cons, Calm.apply_eq v t (each v List.mem_cons_self),
      Calm.map_eq rest t fun w later => each w (List.mem_cons_of_mem _ later)]

theorem Calm.members_eq : ∀ (ms : List (String × Json)) (t : Treatment),
    (∀ m ∈ ms, (t.next (.member m.1)).Calm m.2) → t.members ms = ms
  | [], _, _ => rfl
  | (key, v) :: rest, t, each => by
    have later := Calm.members_eq rest t fun m inside => each m (List.mem_cons_of_mem _ inside)
    rw [members, List.map_cons, ← members, later,
      Calm.apply_eq v _ (each (key, v) List.mem_cons_self)]

end

end Treatment

/-! ## Places and treatments -/

open Treatment (along not_isSchema_other)

/-- What is reached from a schema is reached from what may be one or many. -/
theorem isSchema_items {way : List Step} (schema : (along .schema way).isSchema = true) :
    (along (.below .oneOrMany) way).isSchema = true := by
  cases way with
  | nil => rfl
  | cons step way =>
    cases step with
    | member key => exact schema
    | item index => exact absurd schema (not_isSchema_other way)

/-- The ways that lead to schemas are those along which parts are treated as schemas. -/
theorem Place.isSchema {way : List Step} (place : Place way) :
    (along .schema way).isSchema = true := by
  induction place with
  | whole => rfl
  | property key below ih => simpa [along, Treatment.next, branch] using ih
  | items below ih => simpa [along, Treatment.next, branch] using isSchema_items ih
  | item index below ih => simpa [along, Treatment.next, branch] using ih
  | alternative one index below ih =>
    rcases one with rfl | rfl | rfl
    · simpa [along, Treatment.next, branch] using ih
    · simpa [along, Treatment.next, branch] using ih
    · simpa [along, Treatment.next, branch] using ih

theorem place_of_isSchema : ∀ way : List Step, (along .schema way).isSchema = true → Place way
  | [], _ => .whole
  | .item _ :: way, schema => absurd schema (not_isSchema_other way)
  | .member key :: way, schema => by
    change (along (.below (branch key)) way).isSchema = true at schema
    unfold branch at schema
    split at schema
    · next same =>
      subst same
      match way with
      | [] => cases schema
      | .member key :: way => exact .property key (place_of_isSchema way schema)
      | .item _ :: way => exact absurd schema (not_isSchema_other way)
    split at schema
    · next same =>
      subst same
      match way with
      | [] => exact .items .whole
      | .member key :: way => exact .items (place_of_isSchema (.member key :: way) schema)
      | .item index :: way => exact .item index (place_of_isSchema way schema)
    split at schema
    · next one =>
      match way with
      | [] => cases schema
      | .member _ :: way => exact absurd schema (not_isSchema_other way)
      | .item index :: way => exact .alternative one index (place_of_isSchema way schema)
    · exact absurd schema (not_isSchema_other way)

/-- The way to a schema goes through no member that is no schema, nor holds any. -/
theorem Place.spared {place : List Step} (leads : Place place) (v : Json) :
    Treatment.schema.Spared v place := by
  have stops : ∀ front key, (along .schema front).isSchema = true → branch key = .other →
      ¬ front ++ [.member key] <+: place := by
    rintro front key schema other ⟨back, rfl⟩
    have reached := leads.isSchema
    rw [along, List.foldl_append, List.foldl_append] at reached
    change (along ((along .schema front).next (.member key)) back).isSchema = true at reached
    rw [Treatment.next_member schema, other] at reached
    exact not_isSchema_other back reached
  intro front ms format schema _ _
  exact ⟨stops front _ schema (by simp [branch]), stops front _ schema (by simp [branch])⟩

/-- What becomes of the schemas in a schema. -/
theorem part_sanitize {place : List Step} (leads : Place place) {v : Json}
    {ms' : List (String × Json)} : Part place (sanitize v) (.object ms') ↔
      ∃ ms, Part place v (.object ms) ∧ ms' = moveFormat ((along .schema place).members ms) := by
  change Part place (Treatment.schema.apply v) _ ↔ _
  rw [Treatment.part_along (leads.spared v)]
  constructor
  · rintro ⟨w, inside, same⟩
    obtain ⟨ms, rfl⟩ := Treatment.apply_eq_object same.symm
    rw [Treatment.apply_object, if_pos leads.isSchema] at same
    exact ⟨ms, inside, Json.object.inj same⟩
  · rintro ⟨ms, inside, rfl⟩
    exact ⟨_, inside, by rw [Treatment.apply_object, if_pos leads.isSchema]⟩

/-- What stays as it is: all that neither holds a format that goes nor lies in a text that changes
with it. -/
theorem part_sanitize_apart {v : Json} {way : List Step}
    (apart : ∀ place ms format, Place place → Part place v (.object ms) → Loses ms format →
      Apart way place) (part : Json) : Part way (sanitize v) part ↔ Part way v part := by
  have spared : Treatment.schema.Spared v way := fun place ms format schema reached lost =>
    (apart place ms format (place_of_isSchema place schema) reached lost).2
  have settled : ∀ w, Part way v w → (along .schema way).apply w = w := by
    refine fun w reached => Treatment.Calm.apply_eq w _ fun below ms format schema inside lost => ?_
    rw [along, along, ← List.foldl_append] at schema
    exact (apart (way ++ below) ms format (place_of_isSchema _ schema)
      (part_append.2 ⟨w, reached, inside⟩) lost).1 ⟨below, rfl⟩
  change Part way (Treatment.schema.apply v) part ↔ _
  rw [Treatment.part_along spared]
  constructor
  · rintro ⟨w, inside, rfl⟩
    rw [settled w inside]
    exact inside
  · exact fun inside => ⟨part, inside, (settled part inside).symm⟩

/-- Schemas are made acceptable exactly. A second time changes nothing, and members stay in key
order. No schema in the result has a format that is not accepted; one that loses its format has a
description that mentions it behind the former one, if there was any. All else stays: what neither
holds such a schema nor is the format or the description of one. -/
theorem sanitize_exact (v : Json) :
    sanitize (sanitize v) = sanitize v ∧ (v.Held → (sanitize v).Held) ∧
    (∀ place ms format, Place place → Part place (sanitize v) (.object ms) →
      ¬ Loses ms format) ∧
    (∀ place ms format, Place place → Part place v (.object ms) → Loses ms format →
      ∃ ms' text, Part place (sanitize v) (.object ms') ∧ lookup "format" ms' = none ∧
        lookup "description" ms' = some (.string text) ∧
        (∀ former, lookup "description" ms = some (.string former) → former ≠ "" →
          text = former ++ " (format: " ++ format ++ ")") ∧
        ((∀ former, lookup "description" ms = some (.string former) → former = "") →
          text = "format: " ++ format)) ∧
    ∀ way, (∀ place ms format, Place place → Part place v (.object ms) → Loses ms format →
      Apart way place) → ∀ part, Part way (sanitize v) part ↔ Part way v part := by
  refine ⟨sanitize_sanitize v, held_sanitize v, fun place ms format leads reached lost => ?_,
    fun place ms format leads reached lost => ?_, fun way => part_sanitize_apart⟩
  · obtain ⟨former, -, rfl⟩ := (part_sanitize leads).1 reached
    rw [← lostFormat?_eq_some_iff, lostFormat?_moveFormat] at lost
    cases lost
  · have lost' : lostFormat? ((along .schema place).members ms) = some format := by
      rw [Treatment.lostFormat?_members leads.isSchema, lostFormat?_eq_some_iff]
      exact lost
    obtain ⟨gone, mentioned⟩ := lookup_moveFormat lost'
    rw [Treatment.lookup_members_other leads.isSchema (by simp [branch])] at mentioned
    refine ⟨_, _, (part_sanitize leads).2 ⟨ms, reached, rfl⟩, gone, mentioned, ?_, ?_⟩
    · intro former found some
      rw [found, mention, if_neg some]
    · intro unfounded
      unfold mention
      split
      · next former found => rw [if_pos (unfounded former found)]
      · rfl

example : sanitize (.object [("properties", .object [("type", .object
      [("description", .string "Kind"), ("format", .string "uri"), ("type", .string "string")])])]) =
    .object [("properties", .object [("type", .object
      [("description", .string "Kind (format: uri)"), ("type", .string "string")])])] := by
  decide +kernel

end Schema

end DialogueEngine
