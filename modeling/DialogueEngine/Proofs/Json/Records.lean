import DialogueEngine.Flow.NodeSpec
import DialogueEngine.Proofs.Json.Written

/-!
Records that are read where a value has been written. A field is read from the member of its name,
wherever it stands; what is read of the record as a whole is made of what is read of its fields.
-/

namespace DialogueEngine.Json

/-! ## Parts -/

namespace Placed

variable {α β : Type}

theorem map_eq_ok {f : α → β} {x : Placed α} {b : β} (ok : f <$> x = (.ok b : Placed β)) :
    ∃ a, x = .ok a ∧ f a = b := by
  cases x with
  | ok a =>
    cases ok
    exact ⟨a, rfl, rfl⟩
  | error e => cases ok

theorem seq_eq_ok {f : Placed (α → β)} {x : Placed α} {b : β} (ok : f <*> x = (.ok b : Placed β)) :
    ∃ g a, f = .ok g ∧ x = .ok a ∧ g a = b := by
  cases f with
  | ok g =>
    cases x with
    | ok a =>
      cases ok
      exact ⟨g, a, rfl, rfl, rfl⟩
    | error e => cases ok
  | error e =>
    cases x with
    | ok a => cases ok
    | error e' =>
      have both : (if e'.1 < e.1 then .error e' else .error e : Except (Nat × Fault) β) =
          .ok b := ok
      by_cases earlier : e'.1 < e.1
      · rw [if_pos earlier] at both
        cases both
      · rw [if_neg earlier] at both
        cases both

theorem result_eq_ok {x : Placed α} {a : α} (ok : x.result = .ok a) : x = .ok a := by
  cases x with
  | ok a' =>
    cases ok
    rfl
  | error e => cases ok

end Placed

namespace Record

/-! ## Slots -/

/-- What a slot has been filled with. -/
def given? (name : String) (slots : List Slot) : Option (Nat × Source) :=
  (slots.find? fun s => s.name = name).bind (·.given)

/-- No slot has a second name. -/
def Plain (slots : List Slot) : Prop := ∀ s ∈ slots, s.aliases = []

theorem given?_cons (name : String) (s : Slot) (slots : List Slot) :
    given? name (s :: slots) = if s.name = name then s.given else given? name slots := by
  by_cases same : s.name = name <;> simp [given?, same]

theorem find_given (name : String) (slots : List Slot) (index : Nat) :
    (find name slots index).bind (·.2) = given? name slots := by
  induction slots generalizing index with
  | nil => rfl
  | cons s slots ih =>
    by_cases same : s.name = name
    · simp [find, given?_cons, same]
    · simp [find, given?_cons, same, ih]

theorem answers_iff {s : Slot} (plain : s.aliases = []) {key : String} :
    Slot.answers s key = true ↔ s.name = key := by
  simp [Slot.answers, plain]

theorem fill_eq_none {key : String} {place : Nat} {value : Source} {slots : List Slot}
    (plain : Plain slots) (none : fill key place value slots = none) :
    ∀ s ∈ slots, s.name ≠ key := by
  induction slots with
  | nil => exact fun s member => absurd member List.not_mem_nil
  | cons s slots ih =>
    have first : Slot.answers s key = true ↔ s.name = key :=
      answers_iff (plain s List.mem_cons_self)
    unfold fill at none
    split at none
    · split at none <;> cases none
    · next other =>
      have rest : Plain slots := fun t member => plain t (List.mem_cons_of_mem _ member)
      split at none
      · next absent =>
        intro t member
        rcases List.mem_cons.1 member with rfl | later
        · exact fun same => other (first.2 same)
        · exact ih rest absent t later
      · cases none
      · cases none

/-- What a slot that has been filled holds, and what the others hold. -/
theorem fill_eq_ok {key : String} {place : Nat} {value : Source} {slots filled : List Slot}
    (plain : Plain slots) (ok : fill key place value slots = some (.ok filled)) :
    Plain filled ∧ filled.map (·.name) = slots.map (·.name) ∧ given? key slots = none ∧
      ∀ name, given? name filled =
        if name = key then some (place, value) else given? name slots := by
  induction slots generalizing filled with
  | nil => cases ok
  | cons s slots ih =>
    have first : Slot.answers s key = true ↔ s.name = key :=
      answers_iff (plain s List.mem_cons_self)
    have rest : Plain slots := fun t member => plain t (List.mem_cons_of_mem _ member)
    unfold fill at ok
    split at ok
    · next answers =>
      have named := first.1 answers
      split at ok
      · cases ok
      · next free =>
        cases ok
        refine ⟨?_, rfl, by simp [given?_cons, named, free], fun name => ?_⟩
        · intro t member
          rcases List.mem_cons.1 member with rfl | later
          · exact plain s List.mem_cons_self
          · exact rest t later
        · by_cases same : name = key
          · simp [given?_cons, named, same]
          · simp [given?_cons, named, same, Ne.symm same]
    · next other =>
      have different : s.name ≠ key := fun same => other (first.2 same)
      split at ok
      · cases ok
      · cases ok
      · next deeper =>
        cases ok
        obtain ⟨plain', names, free, given⟩ := ih rest deeper
        refine ⟨?_, by simp [names], by simp [given?_cons, different, free], fun name => ?_⟩
        · intro t member
          rcases List.mem_cons.1 member with rfl | later
          · exact plain _ List.mem_cons_self
          · exact plain' t later
        · rw [given?_cons, given?_cons, given]
          by_cases same : name = key
          · subst same
            simp [different]
          · simp [same]

/-- Members that go into slots without a flaw are where their names say. -/
theorem sortOut_given {slots : List Slot} {place : Nat} {members : List (String × Json)}
    (plain : Plain slots)
    (clean : (sortOut slots place .closed (scannedMembers members)).2 = .ok ()) {name : String}
    (named : name ∈ slots.map (·.name)) :
    (given? name (sortOut slots place .closed (scannedMembers members)).1).map (·.2) =
      ((given? name slots).map (·.2)).or ((lookup name members).map scanned) := by
  induction members generalizing slots place with
  | nil => simp [scannedMembers, sortOut, Ending.fault?, lookup]
  | cons m members ih =>
    obtain ⟨key, value⟩ := m
    simp only [scannedMembers, sortOut] at clean ⊢
    cases filling : fill key place value.scanned slots with
    | none =>
      simp only [filling] at clean ⊢
      cases skipped : value.scanned.skipFault? with
      | some f =>
        simp only [skipped] at clean
        cases clean
      | none =>
        simp only [skipped] at clean ⊢
        obtain ⟨s, member, rfl⟩ := List.mem_map.1 named
        have other : key ≠ s.name := Ne.symm (fill_eq_none plain filling s member)
        rw [ih plain clean named, lookup, if_neg other]
    | some filled =>
      cases filled with
      | error taken =>
        simp only [filling] at clean
        cases clean
      | ok filled =>
        simp only [filling] at clean ⊢
        obtain ⟨plain', names, free, given⟩ := fill_eq_ok plain filling
        rw [ih plain' clean (names ▸ named), given, lookup]
        by_cases same : name = key
        · subst same
          simp [free]
        · simp [same, Ne.symm same]

/-! ## Fields -/

/-- The source that a field is read from. -/
def value? (r : Record) (name : String) : Option Source := (given? name r.slots).map (·.2)

variable {α : Type} {r : Record} {name : String} {read : Reader α}

theorem field_eq_ok {absent : Nat → Placed α} {a : α} (ok : r.field name absent read = .ok a) :
    (∃ v, r.value? name = some v ∧ read r.inside v = .ok a) ∨
      (r.value? name = none ∧ ∃ index, absent index = .ok a) := by
  have found := find_given name r.slots 0
  unfold field at ok
  unfold value?
  cases slot : find name r.slots 0 with
  | none =>
    rw [slot] at found
    simp only [slot] at ok
    exact .inr ⟨by rw [← found]; rfl, _, ok⟩
  | some inside =>
    obtain ⟨index, given⟩ := inside
    rw [slot] at found
    cases given with
    | none =>
      simp only [slot] at ok
      exact .inr ⟨by rw [← found]; rfl, _, ok⟩
    | some placed =>
      obtain ⟨place, value⟩ := placed
      simp only [slot] at ok
      refine .inl ⟨value, by rw [← found]; rfl, ?_⟩
      cases reads : read r.inside value with
      | ok b =>
        simp only [reads] at ok
        cases ok
        rfl
      | error f =>
        simp only [reads] at ok
        cases ok

theorem required_eq_ok {a : α} (ok : r.required name read = .ok a) :
    ∃ v, r.value? name = some v ∧ read r.inside v = .ok a := by
  rcases field_eq_ok ok with given | ⟨-, index, missing⟩
  · exact given
  · cases missing

theorem defaulted_eq_ok {default a : α} (ok : r.defaulted name default read = .ok a) :
    (∃ v, r.value? name = some v ∧ read r.inside v = .ok a) ∨
      (r.value? name = none ∧ a = default) := by
  rcases field_eq_ok ok with given | ⟨none, index, missing⟩
  · exact .inl given
  · cases missing
    exact .inr ⟨none, rfl⟩

/-- The fields of a record are read from the members of their names. -/
def Reads (r : Record) (names : List String) (members : List (String × Json)) : Prop :=
  ∀ name ∈ names, r.value? name = (lookup name members).map scanned

section Members

variable {names : List String} {members : List (String × Json)} {value : Json}

theorem Reads.required (reads : r.Reads names members) {a : α} (ok : r.required name read = .ok a)
    (field : name ∈ names) (member : lookup name members = some value) :
    read r.inside value.scanned = .ok a := by
  obtain ⟨v, found, given⟩ := required_eq_ok ok
  rw [reads name field, member] at found
  cases found
  exact given

theorem Reads.defaulted (reads : r.Reads names members) {default a : α}
    (ok : r.defaulted name default read = .ok a) (field : name ∈ names)
    (member : lookup name members = some value) : read r.inside value.scanned = .ok a := by
  rcases defaulted_eq_ok ok with ⟨v, found, given⟩ | ⟨absent, -⟩
  · rw [reads name field, member] at found
    cases found
    exact given
  · rw [reads name field, member] at absent
    cases absent

theorem Reads.default (reads : r.Reads names members) {default a : α}
    (ok : r.defaulted name default read = .ok a) (field : name ∈ names)
    (none : lookup name members = none) : a = default := by
  rcases defaulted_eq_ok ok with ⟨v, found, -⟩ | ⟨-, same⟩
  · rw [reads name field, none] at found
    cases found
  · exact same

/-- A text is read as it was written. -/
theorem Reads.text (reads : r.Reads names members) {s text : String}
    (ok : r.required name Reader.text = .ok text) (field : name ∈ names)
    (member : lookup name members = some (.string s)) : text = s := by
  cases reads.required ok field member
  rfl

/-- A text that may be missing is read as it was written. -/
theorem Reads.text? (reads : r.Reads names members) {s text : Option String}
    (ok : r.optional name Reader.text = .ok text) (field : name ∈ names)
    (member : lookup name members = some (.ofText? s)) : text = s := by
  have given := reads.defaulted ok field member
  cases s with
  | none =>
    cases given
    rfl
  | some s =>
    cases given
    rfl

/-- A text that is left out where it is missing is read as it was. -/
theorem Reads.leftOut? (reads : r.Reads names members) {s text : Option String}
    (ok : r.optional name Reader.text = .ok text) (field : name ∈ names)
    (member : lookup name members = s.map .string) : text = s := by
  cases s with
  | none => exact reads.default ok field member
  | some s =>
    cases reads.defaulted ok field member
    rfl

theorem Reads.bool (reads : r.Reads names members) {default b flag : Bool}
    (ok : r.defaulted name default Reader.bool = .ok flag) (field : name ∈ names)
    (member : lookup name members = some (.bool b)) : flag = b := by
  cases reads.defaulted ok field member
  rfl

end Members

/-! ## Records -/

theorem layout_plain (names : List String) : Plain (layout (names.map fun name => [name])) := by
  intro s member
  simp only [layout, List.mem_filterMap, List.mem_map] at member
  obtain ⟨_, ⟨name, -, rfl⟩, same⟩ := member
  cases same
  rfl

theorem layout_names (names : List String) :
    (layout (names.map fun name => [name])).map (·.name) = names := by
  induction names with
  | nil => rfl
  | cons name names ih =>
    rw [List.map_cons, layout, List.filterMap_cons_some (by rfl), List.map_cons]
    exact congrArg (name :: ·) ih

theorem given?_layout (name : String) (names : List String) :
    given? name (layout (names.map fun name => [name])) = none := by
  induction names with
  | nil => rfl
  | cons first names ih =>
    rw [List.map_cons, layout, List.filterMap_cons_some (by rfl), given?_cons]
    split
    · rfl
    · exact ih

/-- A record with one name for each field, read where an object has been written. -/
theorem read_scanned {title : String} (names : List String) {body : Record → Placed α}
    {members : List (String × Json)} {m : Medium} {a : α}
    (ok : Record.read title (names.map fun name => [name]) body m (scanned (.object members)) =
      .ok a) :
    ∃ r, m.enter = .ok r.inside ∧ body r = .ok a ∧ r.Reads names members := by
  unfold Record.read Record.start at ok
  cases enters : m.enter with
  | error f =>
    simp only [scanned, enters] at ok
    cases ok
  | ok inside =>
    simp only [scanned, enters] at ok
    have whole := Placed.result_eq_ok ok
    obtain ⟨g, u, first, clean, same⟩ := Placed.seq_eq_ok whole
    obtain ⟨b, made, rfl⟩ := Placed.map_eq_ok first
    obtain rfl : b = a := same
    refine ⟨_, ?_, made, fun name member => ?_⟩
    · rfl
    have sorted := sortOut_given (layout_plain names) clean
      (by rw [layout_names]; exact member)
    rw [given?_layout] at sorted
    exact sorted

end Record

/-! ## Lists -/

/-- Items that are read one after the other give as many values, each read of its item. -/
theorem Reader.readItems_map {α β γ : Type} {read : Source → Except Fault α} {f : β → Source}
    {key : α → γ} {key' : β → γ} {xs : List β} {values : List α}
    (each : ∀ x a, read (f x) = .ok a → key a = key' x)
    (ok : Reader.readItems read (xs.map f) = .ok values) : values.map key = xs.map key' := by
  induction xs generalizing values with
  | nil =>
    cases ok
    rfl
  | cons x xs ih =>
    rw [List.map_cons] at ok
    unfold readItems at ok
    split at ok
    · cases ok
    · next a first =>
      cases later : readItems read (xs.map f) with
      | error f =>
        rw [later] at ok
        cases ok
      | ok rest =>
        rw [later] at ok
        cases ok
        rw [List.map_cons, List.map_cons, each x a first, ih later]

theorem Reader.list_scanned {α β γ : Type} {read : Reader α} {f : β → Json} {key : α → γ}
    {key' : β → γ} {xs : List β} {m : Medium} {values : List α}
    (each : ∀ inside x a, read inside (f x).scanned = .ok a → key a = key' x)
    (ok : Reader.list read m (scanned (.array (xs.map f))) = .ok values) :
    values.map key = xs.map key' := by
  rw [scanned, scannedItems_eq_map, List.map_map] at ok
  unfold Reader.list at ok
  cases enters : m.enter with
  | error f =>
    simp only [enters] at ok
    cases ok
  | ok inside =>
    simp only [enters, bind, Except.bind] at ok
    cases items : readItems (read inside) (xs.map (scanned ∘ f)) with
    | error f =>
      simp only [items] at ok
      cases ok
    | ok read' =>
      simp only [items] at ok
      cases ok
      exact readItems_map (fun x a => each inside x a) items

/-- Members that are read one after the other give as many entries, each read of its member. -/
theorem Reader.readMembers_map {α β γ : Type} {read : Source → Except Fault α} {f : β → Json}
    {key : α → γ} {key' : β → γ} {es : List (String × β)} {values : List (String × α)}
    (each : ∀ x a, read (f x).scanned = .ok a → key a = key' x)
    (ok : Reader.readMembers read (scannedMembers (es.map fun e => (e.1, f e.2))) = .ok values) :
    (values.map fun e => (e.1, key e.2)) = es.map fun e => (e.1, key' e.2) := by
  induction es generalizing values with
  | nil =>
    cases ok
    rfl
  | cons e es ih =>
    rw [List.map_cons, scannedMembers] at ok
    unfold readMembers at ok
    dsimp only at ok
    split at ok
    · cases ok
    · next a first =>
      cases later : readMembers read (scannedMembers (es.map fun e => (e.1, f e.2))) with
      | error f =>
        rw [later] at ok
        cases ok
      | ok rest =>
        rw [later] at ok
        cases ok
        rw [List.map_cons, List.map_cons, each e.2 a first, ih later]

end DialogueEngine.Json
