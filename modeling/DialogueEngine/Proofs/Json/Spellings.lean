import DialogueEngine.Proofs.Json.Recovery

/-!
Values that are read at hand, and records whose fields go by several names. Nothing is broken off in
a value at hand and it may nest as deeply as it likes, so that what is read of it is told by an
option. A record reads each field from the one member that goes by any of the names of the field;
under which of them the member is found makes no difference.
-/

namespace DialogueEngine.Json

variable {α β : Type}

/-! ## Parts -/

namespace Placed

/-- The value, if there is one. -/
def value? : Placed α → Option α
  | .ok a => some a
  | .error _ => none

@[simp] theorem value?_map (f : α → β) (x : Placed α) :
    (f <$> x : Placed β).value? = x.value?.map f := by
  cases x <;> rfl

@[simp] theorem value?_seq (f : Placed (α → β)) (x : Placed α) :
    (f <*> x : Placed β).value? = f.value?.bind fun g => x.value?.map g := by
  cases f with
  | ok g => cases x <;> rfl
  | error e =>
    cases x with
    | ok a => rfl
    | error e' =>
      change value? (if e'.1 < e.1 then .error e' else .error e : Except (Nat × Fault) β) = none
      split <;> rfl

theorem toOption_result (x : Placed α) : x.result.toOption = x.value? := by
  cases x <;> rfl

/-- A part has a value. -/
def Gives (x : Placed α) (a : α) : Prop := x.value? = some a

theorem Gives.map {x : Placed α} {a : α} (f : α → β) (gives : x.Gives a) :
    (f <$> x : Placed β).Gives (f a) := by
  rw [Gives, value?_map, gives, Option.map_some]

theorem Gives.seq {f : Placed (α → β)} {x : Placed α} {g : α → β} {a : α} (first : f.Gives g)
    (second : x.Gives a) : (f <*> x : Placed β).Gives (g a) := by
  rw [Gives, value?_seq, first, second, Option.bind_some, Option.map_some]

end Placed

/-! ## Values at hand -/

namespace Source

mutual

/-- A value at hand is passed over without a fault. -/
theorem skipFault?_ofJson : ∀ v : Json, (ofJson v).skipFault? = none
  | .null | .bool _ | .number _ | .string _ => rfl
  | .array items => by rw [ofJson, skipFault?, skipItems?_ofItems items]; rfl
  | .object ms => by rw [ofJson, skipFault?, skipMembers?_ofMembers ms]; rfl

theorem skipItems?_ofItems : ∀ items : List Json, skipItems? (ofItems items) = none
  | [] => rfl
  | v :: rest => by rw [ofItems, skipItems?, skipFault?_ofJson v, skipItems?_ofItems rest]; rfl

theorem skipMembers?_ofMembers : ∀ ms : List (String × Json), skipMembers? (ofMembers ms) = none
  | [] => rfl
  | (k, v) :: rest => by
    rw [ofMembers, skipMembers?, skipFault?_ofJson v, skipMembers?_ofMembers rest]; rfl

end

theorem ofItems_eq_map (items : List Json) : ofItems items = items.map ofJson := by
  induction items with
  | nil => rfl
  | cons v rest ih => rw [ofItems, ih, List.map_cons]

end Source

namespace Reader

/-- What a reader makes of a value at hand. -/
def value? (read : Reader α) (v : Json) : Option α := (read.ofJson v).toOption

theorem ofJson_of_value? {read : Reader α} {v : Json} {a : α} (found : read.value? v = some a) :
    read.ofJson v = .ok a := by
  unfold value? at found
  cases reads : read.ofJson v with
  | ok b =>
    rw [reads] at found
    cases found
    rfl
  | error f =>
    rw [reads] at found
    cases found

@[simp] theorem value?_text (s : String) : text.value? (.string s) = some s := rfl

@[simp] theorem value?_bool (b : Bool) : bool.value? (.bool b) = some b := rfl

theorem value?_nullable (read : Reader α) {v : Json} (some : v ≠ .null) :
    (nullable read).value? v = (read.value? v).map Option.some := by
  cases v with
  | null => exact absurd rfl some
  | _ =>
    simp only [value?, ofJson, nullable, Source.ofJson]
    cases read Medium.value _ <;> rfl

@[simp] theorem value?_text? (s : Option String) :
    (nullable text).value? (.ofText? s) = some s := by
  cases s <;> rfl

theorem value?_list (read : Reader α) (items : List Json) :
    (list read).value? (.array items) = items.mapM read.value? := by
  have each : (readItems (read .value) (Source.ofItems items)).toOption =
      items.mapM read.value? := by
    induction items with
    | nil => rfl
    | cons v rest ih =>
      rw [Source.ofItems, readItems, List.mapM_cons, ← ih]
      unfold value? ofJson
      cases read .value (Source.ofJson v) with
      | error f => rfl
      | ok a => cases readItems (read .value) (Source.ofItems rest) <;> rfl
  rw [← each]
  simp only [value?, ofJson, Source.ofJson, list, Medium.enter, bind, Except.bind]
  cases readItems (read .value) (Source.ofItems items) <;> rfl

/-- A list is read as it was written if each of its items is. -/
theorem value?_list_map {read : Reader α} {f : β → Json} {g : β → α} {xs : List β}
    (each : ∀ x ∈ xs, read.value? (f x) = some (g x)) :
    (list read).value? (.array (xs.map f)) = some (xs.map g) := by
  rw [value?_list, List.mapM_map]
  induction xs with
  | nil => rfl
  | cons x xs ih =>
    rw [List.mapM_cons, Function.comp, each x List.mem_cons_self,
      ih fun y member => each y (List.mem_cons_of_mem _ member)]
    rfl

theorem value?_list_self {read : Reader α} {f : α → Json} {xs : List α}
    (each : ∀ x ∈ xs, read.value? (f x) = some x) :
    (list read).value? (.array (xs.map f)) = some xs := by
  rw [value?_list_map (g := fun x => x) each, List.map_id']

/-- A table is read as it was written if each of its entries is. -/
theorem value?_table {read : Reader α} {f : α → Json} {t : Table α}
    (each : ∀ e ∈ t.entries, read.value? (f e.2) = some e.2) :
    (table read).value? (.object (t.entries.map fun e => (e.1, f e.2))) = some t := by
  have entries (es : List (String × α)) (each : ∀ e ∈ es, read.value? (f e.2) = some e.2) :
      readMembers (read .value) (Source.ofMembers (es.map fun e => (e.1, f e.2))) = .ok es := by
    induction es with
    | nil => rfl
    | cons e es ih =>
      have first : read .value (Source.ofJson (f e.2)) = .ok e.2 :=
        ofJson_of_value? (each e List.mem_cons_self)
      rw [List.map_cons, Source.ofMembers, readMembers]
      simp only [first, ih fun e' member => each e' (List.mem_cons_of_mem _ member)]
      rfl
  simp only [value?, ofJson, Source.ofJson, table, members, Medium.enter, bind, Except.bind,
    entries t.entries each]
  exact congrArg some (Table.ofList_entries t)

end Reader

mutual

/-- A value that lists its members in key order is read as it is. -/
theorem readJson_ofJson : ∀ v : Json, v.Sorted → readJson .value (.ofJson v) = .ok v
  | .null, _ | .bool _, _ | .number _, _ | .string _, _ => rfl
  | .array items, sorted => by
    simp only [Source.ofJson, readJson, Medium.enter, bind, Except.bind,
      readJsonItems_ofItems items sorted]
    rfl
  | .object ms, sorted => by
    simp only [Source.ofJson, readJson, Medium.enter, bind, Except.bind,
      readJsonMembers_ofMembers ms sorted.2]
    exact congrArg Except.ok (ofMembers_ordered sorted.1)

theorem readJsonItems_ofItems : ∀ items : List Json, SortedItems items →
    readJsonItems .value (Source.ofItems items) = .ok items
  | [], _ => rfl
  | v :: rest, sorted => by
    simp only [Source.ofItems, readJsonItems, bind, Except.bind, readJson_ofJson v sorted.1,
      readJsonItems_ofItems rest sorted.2]
    rfl

theorem readJsonMembers_ofMembers : ∀ ms : List (String × Json), SortedMembers ms →
    readJsonMembers .value (Source.ofMembers ms) = .ok ms
  | [], _ => rfl
  | (k, v) :: rest, sorted => by
    simp only [Source.ofMembers, readJsonMembers, bind, Except.bind, readJson_ofJson v sorted.1,
      readJsonMembers_ofMembers rest sorted.2]
    rfl

end

mutual

/-- What is held lists its members in key order. -/
theorem Held.sorted : ∀ v : Json, v.Held → v.Sorted
  | .null, _ | .bool _, _ | .number _, _ | .string _, _ => trivial
  | .array items, held => HeldItems.sorted items held
  | .object ms, held => ⟨held.1, HeldMembers.sorted ms held.2⟩

theorem HeldItems.sorted : ∀ items : List Json, HeldItems items → SortedItems items
  | [], _ => trivial
  | v :: rest, held => ⟨Held.sorted v held.1, HeldItems.sorted rest held.2⟩

theorem HeldMembers.sorted : ∀ ms : List (String × Json), HeldMembers ms → SortedMembers ms
  | [], _ => trivial
  | (_, v) :: rest, held => ⟨Held.sorted v held.1, HeldMembers.sorted rest held.2⟩

end

theorem Reader.value?_json {v : Json} (sorted : v.Sorted) : Reader.json.value? v = some v := by
  rw [Reader.value?, Reader.ofJson, Reader.json, readJson_ofJson v sorted]
  rfl

/-! ## Fields under several names -/

/-- No field is given by more than one member, be it under one name or under two. -/
def Clear (fields : List (List String)) (ms : List (String × Json)) : Prop :=
  ∀ names ∈ fields, (ms.filter fun m => names.contains m.1).length ≤ 1

instance (fields : List (List String)) (ms : List (String × Json)) : Decidable (Clear fields ms) :=
  inferInstanceAs (Decidable (∀ names ∈ fields, _))

/-- What the members of an object give for the field that is reported under a name. -/
def given? (fields : List (List String)) (ms : List (String × Json)) (name : String) :
    Option Json :=
  (fields.find? fun names => names.head? = some name).bind fun names =>
    (ms.find? fun m => names.contains m.1).map (·.2)

namespace Record

/-- The name of a slot and what it is filled with. -/
def Slot.content (s : Slot) : String × Option Source := (s.name, s.given.map (·.2))

/-- A slot that is offered a value under a key. -/
def Slot.offered (key : String) (place : Nat) (value : Source) (s : Slot) : Slot :=
  if Slot.answers s key then { s with given := some (place, value) } else s

theorem offered_self {s : Slot} {key : String} (answers : Slot.answers s key = true) (place : Nat)
    (value : Source) : Slot.offered key place value s = { s with given := some (place, value) } :=
  if_pos answers

theorem offered_other {s : Slot} {key : String} (other : Slot.answers s key = false) (place : Nat)
    (value : Source) : Slot.offered key place value s = s :=
  if_neg (by simp [other])

theorem answers_offered (key : String) (place : Nat) (value : Source) (s : Slot) :
    Slot.answers (Slot.offered key place value s) = Slot.answers s := by
  unfold Slot.offered
  split <;> rfl

/-- No key goes into two slots. -/
def Apart (slots : List Slot) : Prop :=
  slots.Pairwise fun s t => ∀ key, Slot.answers s key = true → Slot.answers t key = false

theorem Apart.offered {slots : List Slot} (apart : Apart slots) (key : String) (place : Nat)
    (value : Source) : Apart (slots.map (Slot.offered key place value)) := by
  refine List.pairwise_map.2 (apart.imp ?_)
  intro s t separate
  rwa [answers_offered, answers_offered]

/-- A value goes into the slot of its key, and into no other. -/
theorem fill_apart {slots : List Slot} (apart : Apart slots) {key : String} (place : Nat)
    (value : Source) (free : ∀ s ∈ slots, Slot.answers s key = true → s.given = none) :
    fill key place value slots =
      if slots.any (Slot.answers · key) then some (.ok (slots.map (Slot.offered key place value)))
      else none := by
  induction slots with
  | nil => rfl
  | cons s slots ih =>
    obtain ⟨others, apart'⟩ := List.pairwise_cons.1 apart
    rw [fill, List.any_cons, List.map_cons]
    cases answers : Slot.answers s key with
    | true =>
      have untouched : slots.map (Slot.offered key place value) = slots := by
        refine (List.map_congr_left fun t member => ?_).trans (List.map_id slots)
        exact offered_other (others t member key answers) place value
      rw [if_pos rfl, free s List.mem_cons_self answers, untouched, offered_self answers]
      rfl
    | false =>
      rw [if_neg (by simp), ih apart' fun t member => free t (List.mem_cons_of_mem _ member),
        Bool.false_or, offered_other answers]
      cases slots.any (Slot.answers · key) <;> rfl

/-- How often members give a value for a slot, with the value that it has already. -/
def Slot.offers (ms : List (String × Json)) (s : Slot) : Nat :=
  (ms.filter fun m => Slot.answers s m.1).length + s.given.toList.length

theorem offers_cons (key : String) (v : Json) (ms : List (String × Json)) (s : Slot) :
    Slot.offers ((key, v) :: ms) s =
      Slot.offers ms s + if Slot.answers s key then 1 else 0 := by
  cases answers : Slot.answers s key <;> simp [Slot.offers, answers]
  omega

/-- If no slot is given a value twice, all members go in without a flaw, and each slot has the value
of the first member that goes by one of its names. -/
theorem sortOut_apart {slots : List Slot} (apart : Apart slots) {ms : List (String × Json)}
    (once : ∀ s ∈ slots, Slot.offers ms s ≤ 1) (place : Nat) :
    (sortOut slots place .closed (Source.ofMembers ms)).2 = .ok () ∧
      (sortOut slots place .closed (Source.ofMembers ms)).1.map Slot.content =
        slots.map fun s => (s.name, (s.given.map (·.2)).or
          ((ms.find? fun m => Slot.answers s m.1).map fun m => .ofJson m.2)) := by
  induction ms generalizing slots place with
  | nil =>
    refine ⟨rfl, List.map_congr_left fun s _ => ?_⟩
    simp [Slot.content]
  | cons m ms ih =>
    obtain ⟨key, v⟩ := m
    have free (s : Slot) (member : s ∈ slots) (answers : Slot.answers s key = true) :
        s.given = none ∧ Slot.offers ms s = 0 := by
      have few := once s member
      rw [offers_cons, if_pos answers] at few
      have none : Slot.offers ms s = 0 := by omega
      have empty : s.given.toList.length = 0 := Nat.eq_zero_of_add_eq_zero_left none
      exact ⟨by cases given : s.given <;> simp_all, none⟩
    have rest (s : Slot) (member : s ∈ slots) : Slot.offers ms s ≤ 1 :=
      Nat.le_trans (by rw [offers_cons]; omega) (once s member)
    rw [Source.ofMembers, sortOut]
    simp only [fill_apart apart place (.ofJson v) fun s member answers => (free s member answers).1]
    cases found : slots.any (Slot.answers · key) with
    | true =>
      have once' : ∀ s ∈ slots.map (Slot.offered key place (.ofJson v)), Slot.offers ms s ≤ 1 := by
        intro t member
        obtain ⟨s, inside, rfl⟩ := List.mem_map.1 member
        cases answers : Slot.answers s key with
        | true =>
          have none : (ms.filter fun m => Slot.answers s m.1).length = 0 :=
            Nat.eq_zero_of_add_eq_zero_right (free s inside answers).2
          rw [offered_self answers]
          exact Nat.le_of_eq (congrArg (· + 1) none)
        | false =>
          rw [offered_other answers]
          exact rest s inside
      obtain ⟨clean, filled⟩ := ih (apart.offered key place (.ofJson v)) once' (place + 1)
      refine ⟨clean, filled.trans ?_⟩
      rw [List.map_map]
      refine List.map_congr_left fun s member => ?_
      cases answers : Slot.answers s key with
      | true =>
        have none := (free s member answers).1
        simp [offered_self answers, none, answers]
      | false => simp [offered_other answers, answers]
    | false =>
      obtain ⟨clean, filled⟩ := ih apart rest (place + 1)
      simp only [Source.skipFault?_ofJson]
      refine ⟨clean, filled.trans (List.map_congr_left fun s member => ?_)⟩
      have other : Slot.answers s key = false := by
        have none := List.any_eq_false.1 found s member
        simpa using none
      simp [other]

theorem mem_layout {fields : List (List String)} {s : Slot} (member : s ∈ layout fields) :
    s.name :: s.aliases ∈ fields ∧ s.given = none := by
  obtain ⟨names, inside, made⟩ := List.mem_filterMap.1 member
  cases names with
  | nil => cases made
  | cons name aliases =>
    cases made
    exact ⟨inside, rfl⟩

theorem answers_eq (s : Slot) (key : String) :
    Slot.answers s key = (s.name :: s.aliases).contains key := by
  simp [Slot.answers, eq_comm]

theorem apart_layout {fields : List (List String)} (distinct : fields.flatten.Nodup) :
    Apart (layout fields) := by
  induction fields with
  | nil => exact List.Pairwise.nil
  | cons names fields ih =>
    rw [List.flatten_cons, List.nodup_append] at distinct
    obtain ⟨-, rest, separate⟩ := distinct
    cases names with
    | nil => exact ih rest
    | cons name aliases =>
      refine List.pairwise_cons.2 ⟨fun t member key answers => ?_, ih rest⟩
      rw [answers_eq, List.contains_iff_mem] at answers
      refine Bool.eq_false_iff.2 fun also => ?_
      rw [answers_eq, List.contains_iff_mem] at also
      exact separate key answers key (List.mem_flatten.2 ⟨_, (mem_layout member).1, also⟩) rfl

/-- The field of a name, among those of a layout. -/
theorem find_layout (fields : List (List String)) (f : List String → Option Source)
    (name : String) :
    (((layout fields).map fun s => (s.name, f (s.name :: s.aliases))).find?
      fun c => c.1 = name).bind (·.2) =
      (fields.find? fun names => names.head? = some name).bind f := by
  induction fields with
  | nil => rfl
  | cons names fields ih =>
    cases names with
    | nil => exact ih
    | cons first aliases =>
      rw [layout, List.filterMap_cons_some (by rfl), ← layout, List.map_cons]
      by_cases same : first = name
      · simp [same]
      · rw [List.find?_cons_of_neg (by simpa using same),
          List.find?_cons_of_neg (by simpa using same)]
        exact ih

theorem given?_content (name : String) (slots : List Slot) :
    (Record.given? name slots).map (·.2) =
      ((slots.map Slot.content).find? fun c => c.1 = name).bind (·.2) := by
  induction slots with
  | nil => rfl
  | cons s slots ih =>
    rw [given?_cons]
    by_cases same : s.name = name
    · simp [Slot.content, same]
    · simp [Slot.content, same, ih]

/-- A record at hand, with what is given for the fields. -/
structure Holds (r : Record) (given : String → Option Json) : Prop where
  inside : r.inside = .value
  value? (name : String) : r.value? name = (given name).map Source.ofJson

/-- A record is read as its body says, unless it has a flaw. -/
theorem value?_read {title : String} {fields : List (List String)} {body : Record → Placed α}
    {v : Json} {r : Record} (starts : start title fields .value (.ofJson v) = .ok r) :
    Reader.value? (Record.read title fields body) v =
      r.flaw.value?.bind fun _ => (body r).value? := by
  rw [Reader.value?, Reader.ofJson, Record.read, starts]
  change (Placed.result ((fun a _ => a) <$> body r <*> r.flaw)).toOption = _
  rw [Placed.toOption_result, Placed.value?_seq, Placed.value?_map]
  cases (body r).value? <;> cases r.flaw.value? <;> rfl

/-- An object that gives no field twice is taken for a record without a flaw, and each field has the
value of the member that goes by one of its names. -/
theorem start_object (title : String) {fields : List (List String)} {ms : List (String × Json)}
    (distinct : fields.flatten.Nodup) (clear : Clear fields ms) :
    ∃ r, start title fields .value (.ofJson (.object ms)) = .ok r ∧ r.flaw = .ok () ∧
      r.Holds (Json.given? fields ms) := by
  have once : ∀ s ∈ layout fields, Slot.offers ms s ≤ 1 := by
    intro s member
    obtain ⟨inside, empty⟩ := mem_layout member
    have few := clear _ inside
    simp only [← answers_eq] at few
    rwa [Slot.offers, empty]
  obtain ⟨clean, filled⟩ := sortOut_apart (apart_layout distinct) once 0
  refine ⟨_, rfl, clean, rfl, fun name => ?_⟩
  have found := find_layout fields (fun names =>
    (ms.find? fun m => names.contains m.1).map fun m => Source.ofJson m.2) name
  have shapes : (layout fields).map (fun s => (s.name, (s.given.map (·.2)).or
      ((ms.find? fun m => Slot.answers s m.1).map fun m => Source.ofJson m.2))) =
      (layout fields).map fun s => (s.name,
        (ms.find? fun m => (s.name :: s.aliases).contains m.1).map fun m => Source.ofJson m.2) := by
    refine List.map_congr_left fun s member => ?_
    simp only [(mem_layout member).2, answers_eq, Option.map_none, Option.none_or]
  rw [Record.value?, given?_content, filled, shapes, found, Json.given?, Option.map_bind]
  congr 1
  funext names
  rw [Function.comp, Option.map_map]
  rfl

/-! ## Fields -/

section Fields

variable {r : Record} (inside : r.inside = .value) (name : String) (read : Reader α)
include inside

theorem value?_field {absent : Nat → Placed α} {default : Option α}
    (missing : ∀ index, (absent index).value? = default) :
    (r.field name absent read).value? =
      (r.value? name).elim default fun s => (read .value s).toOption := by
  have found := find_given name r.slots 0
  rw [field, Record.value?, inside]
  cases slot : find name r.slots 0 with
  | none =>
    rw [slot] at found
    rw [← found]
    exact missing _
  | some place =>
    obtain ⟨index, given⟩ := place
    rw [slot, Option.bind_some] at found
    rw [← found]
    cases given with
    | none => exact missing index
    | some filled =>
      dsimp only [Option.map_some, Option.elim_some]
      cases read .value filled.2 <;> rfl

theorem value?_required : (r.required name read).value? =
    (r.value? name).bind fun s => (read .value s).toOption := by
  have field : (r.required name read).value? =
      (r.value? name).elim none fun s => (read .value s).toOption :=
    value?_field inside name read fun _ => rfl
  rw [field]
  cases r.value? name <;> rfl

theorem value?_defaulted (default : α) : (r.defaulted name default read).value? =
    (r.value? name).elim (some default) fun s => (read .value s).toOption :=
  value?_field inside name read fun _ => rfl

end Fields

namespace Holds

variable {r : Record} {given : String → Option Json}

theorem required (holds : r.Holds given) (name : String) (read : Reader α) :
    (r.required name read).value? = (given name).bind read.value? := by
  rw [value?_required holds.inside, holds.value?]
  cases given name <;> rfl

theorem defaulted (holds : r.Holds given) (name : String) (default : α) (read : Reader α) :
    (r.defaulted name default read).value? = (given name).elim (some default) read.value? := by
  rw [value?_defaulted holds.inside, holds.value?]
  cases given name <;> rfl

variable {read : Reader α} {v : Json} {a : α}

theorem gives_required (holds : r.Holds given) (name : String) (reads : read.value? v = some a)
    (member : given name = some v) : (r.required name read).Gives a := by
  rw [Placed.Gives, holds.required, member, Option.bind_some, reads]

theorem gives_defaulted (holds : r.Holds given) (name : String) (default : α)
    (reads : read.value? v = some a) (member : given name = some v) :
    (r.defaulted name default read).Gives a := by
  rw [Placed.Gives, holds.defaulted, member, Option.elim_some, reads]

/-- A field that is left out where its value is the default. -/
theorem gives_leftOut (holds : r.Holds given) (name : String) {default : α} {value : Option Json}
    (reads : ∀ v, value = some v → read.value? v = some a) (absent : value = none → default = a)
    (member : given name = value) : (r.defaulted name default read).Gives a := by
  rw [Placed.Gives, holds.defaulted, member]
  cases value with
  | none => exact congrArg some (absent rfl)
  | some v => exact reads v rfl

end Holds

end Record

/-! ## What has been written -/

theorem lookup_eq_find? (key : String) (ms : List (String × Json)) :
    lookup key ms = (ms.find? fun m => m.1 = key).map (·.2) := by
  induction ms with
  | nil => rfl
  | cons m ms ih =>
    rw [lookup]
    by_cases same : m.1 = key <;> simp [same, ih]

/-- A name belongs to one field. -/
theorem field_unique {fields : List (List String)} (distinct : fields.flatten.Nodup)
    {names names' : List String} (field : names ∈ fields) (field' : names' ∈ fields) {name : String}
    (member : name ∈ names) (member' : name ∈ names') : names = names' := by
  induction fields with
  | nil => cases field
  | cons first fields ih =>
    rw [List.flatten_cons, List.nodup_append] at distinct
    obtain ⟨-, rest, separate⟩ := distinct
    rcases List.mem_cons.1 field with rfl | later <;>
      rcases List.mem_cons.1 field' with rfl | later'
    · rfl
    · exact (separate name member name (List.mem_flatten.2 ⟨_, later', member'⟩) rfl).elim
    · exact (separate name member' name (List.mem_flatten.2 ⟨_, later, member⟩) rfl).elim
    · exact ih rest later later'

/-- The members of an object that is written under the first names of its fields, each once. -/
structure Written (fields : List (List String)) (ms : List (String × Json)) : Prop where
  once : (ms.map (·.1)).Nodup
  named : ∀ key ∈ ms.map (·.1), some key ∈ fields.map List.head?

namespace Written

variable {fields : List (List String)} {ms : List (String × Json)}

/-- Of the names of a field only the first is used. -/
theorem contains_iff (written : Written fields ms) (distinct : fields.flatten.Nodup)
    {names : List String} (field : names ∈ fields) {name : String} (first : names.head? = some name)
    {m : String × Json} (member : m ∈ ms) : names.contains m.1 = true ↔ m.1 = name := by
  obtain ⟨names', field', first'⟩ :=
    List.mem_map.1 (written.named m.1 (List.mem_map_of_mem member))
  rw [List.contains_iff_mem]
  constructor
  · intro inside
    have same := field_unique distinct field field' inside (List.mem_of_mem_head? first')
    rw [same, first'] at first
    exact Option.some.inj first
  · rintro rfl
    exact List.mem_of_mem_head? first

theorem clear (written : Written fields ms) (distinct : fields.flatten.Nodup) :
    Clear fields ms := by
  intro names field
  cases names with
  | nil => simp
  | cons name aliases =>
    have same : ms.filter (fun m => (name :: aliases).contains m.1) =
        ms.filter fun m => m.1 == name := by
      refine List.filter_congr fun m member => ?_
      rw [Bool.eq_iff_iff, written.contains_iff distinct field rfl member, beq_iff_eq]
    have few := List.nodup_iff_count_le_one.1 written.once name
    rw [List.count, List.countP_map, List.countP_eq_length_filter] at few
    rw [same]
    exact few

theorem given?_eq (written : Written fields ms) (distinct : fields.flatten.Nodup) (name : String) :
    given? fields ms name = lookup name ms := by
  rw [given?, lookup_eq_find?]
  cases found : fields.find? fun names => names.head? = some name with
  | none =>
    have unused : ms.find? (fun m => m.1 = name) = none := by
      refine List.find?_eq_none.2 fun m member same => ?_
      have named := written.named m.1 (List.mem_map_of_mem member)
      obtain ⟨names, field, first⟩ := List.mem_map.1 named
      have other := List.find?_eq_none.1 found names field
      simp_all
    rw [unused]
    rfl
  | some names =>
    have first : names.head? = some name := by simpa using List.find?_some found
    have same : ms.find? (fun m => names.contains m.1) = ms.find? fun m => m.1 = name := by
      rw [← List.head?_filter, ← List.head?_filter]
      refine congrArg List.head? (List.filter_congr fun m member => ?_)
      rw [Bool.eq_iff_iff, decide_eq_true_iff]
      exact written.contains_iff distinct (List.mem_of_find?_eq_some found) first member
    rw [Option.bind_some, same]

/-- What is read of an object as it was written. -/
theorem value? (written : Written fields ms) (distinct : fields.flatten.Nodup) {title : String}
    {body : Record → Placed α} {a : α}
    (reads : ∀ r : Record, r.Holds (lookup · ms) → (body r).Gives a) :
    Reader.value? (Record.read title fields body) (.object ms) = some a := by
  obtain ⟨r, starts, flawless, holds⟩ :=
    Record.start_object title distinct (written.clear distinct)
  rw [Record.value?_read starts, flawless]
  refine reads r ⟨holds.inside, fun name => ?_⟩
  rw [holds.value?, written.given?_eq distinct]

end Written

end DialogueEngine.Json
