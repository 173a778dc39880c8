import DialogueEngine.Proofs.Json.Spellings

/-!
Records with some of their fields under other names. A record may be an object, whose members can
stand in any order, or an array of the fields; the values of fields may be respelt in turn. Whatever
is respelt, what is read stays the same.
-/

namespace DialogueEngine.Json

variable {α : Type} {fields : List (List String)} {within : List String → Json → Json → Prop}

/-! ## Respelling -/

/-- A member goes by another name of its field, with its value respelt as that field allows. -/
def RespeltMember (fields : List (List String)) (within : List String → Json → Json → Prop)
    (m m' : String × Json) : Prop :=
  m = m' ∨ ∃ names ∈ fields, m.1 ∈ names ∧ m'.1 ∈ names ∧ within names m.2 m'.2

/-- The items of an array are respelt as the fields in their places allow. -/
def RespeltItems (within : List String → Json → Json → Prop) :
    List (List String) → List Json → List Json → Prop
  | names :: fields, v :: items, v' :: items' =>
    within names v v' ∧ RespeltItems within fields items items'
  | _, items, items' => items = items'

/-- A record is respelt: no field of it is given twice, and any of them may go by another name. -/
inductive Respelt (fields : List (List String)) (within : List String → Json → Json → Prop) :
    Json → Json → Prop
  | same (v : Json) : Respelt fields within v v
  | object {ms between ms' : List (String × Json)} (clear : Clear fields ms)
      (respelt : List.Forall₂ (RespeltMember fields within) ms between)
      (order : between.Perm ms') : Respelt fields within (.object ms) (.object ms')
  | array {items items' : List Json} (respelt : RespeltItems within fields items items') :
      Respelt fields within (.array items) (.array items')

/-- A value is respelt as is said for one of the names of its field, or else is the same. -/
def Nested (nested : List (String × (Json → Json → Prop))) (names : List String) (v v' : Json) :
    Prop :=
  v = v' ∨ ∃ e ∈ nested, e.1 ∈ names ∧ e.2 v v'

theorem Nested.refl (nested : List (String × (Json → Json → Prop))) (names : List String)
    (v : Json) : Nested nested names v v :=
  .inl rfl

/-- Where nothing is said of a field, its value is the same. -/
theorem Nested.plain {nested : List (String × (Json → Json → Prop))} {names : List String}
    {read : Reader α} (plain : ∀ e ∈ nested, e.1 ∉ names) (v v' : Json)
    (respelt : Nested nested names v v') : read.value? v = read.value? v' := by
  obtain rfl | ⟨e, member, inside, -⟩ := respelt
  · rfl
  · exact absurd inside (plain e member)

/-- Each item of a list is respelt. -/
def RespeltList (respelt : Json → Json → Prop) (v v' : Json) : Prop :=
  v = v' ∨ ∃ items items', v = .array items ∧ v' = .array items' ∧
    List.Forall₂ respelt items items'

theorem RespeltList.value? {respelt : Json → Json → Prop} {read : Reader α}
    (each : ∀ v v', respelt v v' → read.value? v = read.value? v') {v v' : Json}
    (list : RespeltList respelt v v') :
    (Reader.list read).value? v = (Reader.list read).value? v' := by
  obtain rfl | ⟨items, items', rfl, rfl, all⟩ := list
  · rfl
  rw [Reader.value?_list, Reader.value?_list]
  induction all with
  | nil => rfl
  | cons first _ ih => rw [List.mapM_cons, List.mapM_cons, each _ _ first, ih]

/-! ## Objects -/

/-- Whether a member belongs to a field does not depend on how it is spelt. -/
theorem RespeltMember.contains (distinct : fields.flatten.Nodup) {m m' : String × Json}
    (respelt : RespeltMember fields within m m') {names : List String} (field : names ∈ fields) :
    names.contains m.1 = names.contains m'.1 := by
  obtain rfl | ⟨names', field', member, member', -⟩ := respelt
  · rfl
  rw [Bool.eq_iff_iff, List.contains_iff_mem, List.contains_iff_mem]
  constructor
  · intro inside
    rwa [field_unique distinct field field' inside member]
  · intro inside
    rwa [field_unique distinct field field' inside member']

theorem length_filter_respelt (distinct : fields.flatten.Nodup) {ms ms' : List (String × Json)}
    (respelt : List.Forall₂ (RespeltMember fields within) ms ms') {names : List String}
    (field : names ∈ fields) : (ms'.filter fun m => names.contains m.1).length =
      (ms.filter fun m => names.contains m.1).length := by
  induction respelt with
  | nil => rfl
  | @cons m m' _ _ first _ ih =>
    rw [List.filter_cons, List.filter_cons, ← first.contains distinct field]
    split
    · exact congrArg (· + 1) ih
    · exact ih

theorem clear_respelt (distinct : fields.flatten.Nodup) {ms ms' : List (String × Json)}
    (respelt : List.Forall₂ (RespeltMember fields within) ms ms') (clear : Clear fields ms) :
    Clear fields ms' := by
  intro names field
  rw [length_filter_respelt distinct respelt field]
  exact clear names field

/-- The order of members makes no difference where no field is given twice. -/
theorem clear_perm {ms ms' : List (String × Json)} (order : ms.Perm ms')
    (clear : Clear fields ms) : Clear fields ms' := by
  intro names field
  rw [← (order.filter _).length_eq]
  exact clear names field

theorem find?_perm {p : String × Json → Bool} {ms ms' : List (String × Json)}
    (order : ms.Perm ms') (few : (ms.filter p).length ≤ 1) : ms'.find? p = ms.find? p := by
  rw [← List.head?_filter, ← List.head?_filter]
  have filtered := order.filter p
  match found : ms.filter p with
  | [] =>
    rw [found] at filtered
    rw [filtered.nil_eq]
  | [m] =>
    rw [found] at filtered
    rw [List.perm_singleton.1 filtered.symm]
  | _ :: _ :: _ =>
    rw [found] at few
    simp at few

/-- What is given for a field is respelt with it. -/
theorem find?_respelt (distinct : fields.flatten.Nodup) (refl : ∀ names v, within names v v)
    {ms ms' : List (String × Json)}
    (respelt : List.Forall₂ (RespeltMember fields within) ms ms') {names : List String}
    (field : names ∈ fields) :
    Option.Rel (within names) ((ms.find? fun m => names.contains m.1).map (·.2))
      ((ms'.find? fun m => names.contains m.1).map (·.2)) := by
  induction respelt with
  | nil => exact .none
  | @cons m m' _ _ first _ ih =>
    rw [List.find?_cons, List.find?_cons, ← first.contains distinct field]
    split
    · next inside =>
      obtain rfl | ⟨names', field', member, -, values⟩ := first
      · exact .some (refl names _)
      · rw [← field_unique distinct field field' (List.contains_iff_mem.1 inside) member] at values
        exact .some values
    · exact ih

theorem given?_field (distinct : fields.flatten.Nodup) {names : List String}
    (field : names ∈ fields) {name : String} (first : names.head? = some name)
    (ms : List (String × Json)) :
    given? fields ms name = (ms.find? fun m => names.contains m.1).map (·.2) := by
  rw [given?]
  cases found : fields.find? fun names => names.head? = some name with
  | none =>
    have other := List.find?_eq_none.1 found names field
    simp [first] at other
  | some names' =>
    have first' : names'.head? = some name := by simpa using List.find?_some found
    rw [field_unique distinct field (List.mem_of_find?_eq_some found)
      (List.mem_of_mem_head? first) (List.mem_of_mem_head? first')]
    rfl

/-! ## Records -/

namespace Record

/-- Two records at hand with the values of their fields respelt. -/
structure Alike (fields : List (List String)) (within : List String → Json → Json → Prop)
    (r r' : Record) : Prop where
  inside : r.inside = .value
  inside' : r'.inside = .value
  values (name : String) (aliases : List String) (field : name :: aliases ∈ fields) :
    ∃ o o', Option.Rel (within (name :: aliases)) o o' ∧
      r.value? name = o.map Source.ofJson ∧ r'.value? name = o'.map Source.ofJson

namespace Alike

variable {r r' : Record} (alike : Alike fields within r r') (name : String)
  (aliases : List String) (read : Reader α) (field : name :: aliases ∈ fields)
  (each : ∀ v v', within (name :: aliases) v v' → read.value? v = read.value? v')
include alike field each

theorem required : (r.required name read).value? = (r'.required name read).value? := by
  obtain ⟨o, o', values, given, given'⟩ := alike.values name aliases field
  rw [value?_required alike.inside, value?_required alike.inside', given, given']
  cases values with
  | none => rfl
  | some same => exact each _ _ same

theorem defaulted (default : α) :
    (r.defaulted name default read).value? = (r'.defaulted name default read).value? := by
  obtain ⟨o, o', values, given, given'⟩ := alike.values name aliases field
  rw [value?_defaulted alike.inside, value?_defaulted alike.inside', given, given']
  cases values with
  | none => rfl
  | some same => exact each _ _ same

end Alike

/-- Objects that are respelt start alike, and without a flaw. -/
theorem start_respelt (title : String) (distinct : fields.flatten.Nodup)
    (refl : ∀ names v, within names v v) {ms between ms' : List (String × Json)}
    (clear : Clear fields ms) (respelt : List.Forall₂ (RespeltMember fields within) ms between)
    (order : between.Perm ms') :
    ∃ r r', start title fields .value (.ofJson (.object ms)) = .ok r ∧
      start title fields .value (.ofJson (.object ms')) = .ok r' ∧
      r.flaw = r'.flaw ∧ Alike fields within r r' := by
  have clear' := clear_respelt distinct respelt clear
  obtain ⟨r, starts, flawless, holds⟩ := start_object title distinct clear
  obtain ⟨r', starts', flawless', holds'⟩ :=
    start_object title distinct (clear_perm order clear')
  refine ⟨r, r', starts, starts', flawless.trans flawless'.symm, holds.inside, holds'.inside, ?_⟩
  intro name aliases field
  refine ⟨_, _, find?_respelt distinct refl respelt field, ?_, ?_⟩
  · rw [holds.value?, given?_field distinct field rfl]
  · rw [holds'.value?, given?_field distinct field rfl, find?_perm order (clear' _ field)]

/-! ## Arrays -/

theorem length_respelt {items items' : List Json}
    (respelt : RespeltItems within fields items items') : items.length = items'.length := by
  fun_induction RespeltItems within fields items items' with
  | case1 names fields v items v' items' ih => exact congrArg (· + 1) (ih respelt.2)
  | case2 => rw [respelt]

theorem length_lineUp (place : Nat) (slots : List Slot) (items : List Source) :
    (lineUp place slots items).2.length = items.length - slots.length := by
  induction slots generalizing place items with
  | nil => cases items <;> rfl
  | cons s slots ih =>
    cases items with
    | nil => simp [lineUp]
    | cons v items =>
      rw [lineUp, List.length_cons, List.length_cons, Nat.add_sub_add_right]
      exact ih (place + 1) items

theorem given?_unfilled (name : String) {slots : List Slot} (free : ∀ s ∈ slots, s.given = none) :
    Record.given? name slots = none := by
  rw [Record.given?]
  cases found : slots.find? fun s => s.name = name with
  | none => rfl
  | some s => exact free s (List.mem_of_find?_eq_some found)

/-- The fields of arrays that are respelt are filled alike. -/
theorem lineUp_respelt (distinct : fields.flatten.Nodup) (named : [] ∉ fields)
    {items items' : List Json} (respelt : RespeltItems within fields items items') (place : Nat)
    {names : List String} (field : names ∈ fields) {name : String}
    (first : names.head? = some name) : ∃ o o', Option.Rel (within names) o o' ∧
      (Record.given? name (lineUp place (layout fields) (Source.ofItems items)).1).map (·.2) =
        o.map Source.ofJson ∧
      (Record.given? name (lineUp place (layout fields) (Source.ofItems items')).1).map (·.2) =
        o'.map Source.ofJson := by
  induction fields generalizing items items' place with
  | nil => cases field
  | cons names' fields ih =>
    obtain ⟨own, rest, separate⟩ := List.nodup_append.1 (List.flatten_cons ▸ distinct)
    obtain ⟨key, aliases, rfl⟩ :=
      List.exists_cons_of_ne_nil fun none => named (none ▸ List.mem_cons_self)
    have slots : layout ((key :: aliases) :: fields) = ⟨key, aliases, none⟩ :: layout fields := rfl
    rw [slots]
    cases items with
    | nil =>
      obtain rfl : [] = items' := respelt
      have free : Record.given? name (⟨key, aliases, none⟩ :: layout fields) = none :=
        given?_unfilled name fun s member => (mem_layout (slots ▸ member)).2
      exact ⟨none, none, .none, by simp [Source.ofItems, lineUp, free],
        by simp [Source.ofItems, lineUp, free]⟩
    | cons v items =>
      cases items' with
      | nil => cases respelt
      | cons v' items' =>
        obtain ⟨values, respelt⟩ := respelt
        simp only [Source.ofItems, lineUp, given?_cons]
        rcases List.mem_cons.1 field with rfl | later
        · obtain rfl : key = name := Option.some.inj first
          exact ⟨some v, some v', .some values, by simp, by simp⟩
        · have other : key ≠ name := by
            rintro rfl
            exact separate key List.mem_cons_self key
              (List.mem_flatten.2 ⟨names, later, List.mem_of_mem_head? first⟩) rfl
          rw [if_neg other, if_neg other]
          exact ih rest (fun none => named (List.mem_cons_of_mem _ none)) respelt (place + 1) later

/-- Arrays that are respelt start alike, and have the same flaws. -/
theorem start_respeltItems (title : String) (distinct : fields.flatten.Nodup)
    (named : [] ∉ fields) {items items' : List Json}
    (respelt : RespeltItems within fields items items') :
    ∃ r r', start title fields .value (.ofJson (.array items)) = .ok r ∧
      start title fields .value (.ofJson (.array items')) = .ok r' ∧
      r.flaw = r'.flaw ∧ Alike fields within r r' := by
  refine ⟨_, _, rfl, rfl, ?_, rfl, rfl, fun name aliases field =>
    lineUp_respelt distinct named respelt 0 field rfl⟩
  have length : (Source.ofItems items).length = (Source.ofItems items').length := by
    rw [Source.ofItems_eq_map, Source.ofItems_eq_map, List.length_map, List.length_map,
      length_respelt respelt]
  have left : (lineUp 0 (layout fields) (Source.ofItems items)).2.isEmpty =
      (lineUp 0 (layout fields) (Source.ofItems items')).2.isEmpty := by
    rw [Bool.eq_iff_iff, List.isEmpty_iff_length_eq_zero, List.isEmpty_iff_length_eq_zero,
      length_lineUp, length_lineUp, length]
  simp only [left, length]

/-- Whatever is respelt, the same is read, if the body reads the same of records that are alike. -/
theorem value?_respelt {title : String} {body : Record → Placed α}
    (distinct : fields.flatten.Nodup) (named : [] ∉ fields) (refl : ∀ names v, within names v v)
    (agrees : ∀ r r', Alike fields within r r' → (body r).value? = (body r').value?)
    {v v' : Json} (respelt : Respelt fields within v v') :
    Reader.value? (Record.read title fields body) v =
      Reader.value? (Record.read title fields body) v' := by
  cases respelt with
  | same => rfl
  | object clear respelt order =>
    obtain ⟨r, r', starts, starts', flaws, alike⟩ :=
      start_respelt title distinct refl clear respelt order
    rw [value?_read starts, value?_read starts', flaws, agrees r r' alike]
  | array respelt =>
    obtain ⟨r, r', starts, starts', flaws, alike⟩ :=
      start_respeltItems title distinct named respelt
    rw [value?_read starts, value?_read starts', flaws, agrees r r' alike]

end Record

end DialogueEngine.Json
