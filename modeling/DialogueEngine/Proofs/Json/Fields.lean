import DialogueEngine.Proofs.Json.Recovery

/-!
Records that are recovered field by field. An object whose keys are names of the record, each at
most once, fills its slots without a flaw; and if every field is read, or found malformed only where
its value nests too deeply, the same is true of the record.
-/

namespace DialogueEngine.Json

/-! ## Parts -/

namespace Placed

variable {α β : Type}

/-- A part is read where it fits, and found malformed where it does not. -/
def Settles (x : Placed α) (fits : Prop) (a : α) : Prop :=
  (fits → x = .ok a) ∧ (¬fits → ∃ place, x = .error (place, .malformed))

theorem Settles.congr {x : Placed α} {fits fits' : Prop} {a : α} (settles : x.Settles fits a)
    (same : fits' ↔ fits) : x.Settles fits' a :=
  ⟨fun holds => settles.1 (same.1 holds), fun fails => settles.2 (fails ∘ same.2)⟩

theorem Settles.map {x : Placed α} {fits : Prop} {a : α} (f : α → β) (settles : x.Settles fits a) :
    (f <$> x : Placed β).Settles fits (f a) := by
  constructor
  · intro holds
    rw [settles.1 holds]
    rfl
  · intro fails
    obtain ⟨place, missed⟩ := settles.2 fails
    exact ⟨place, by rw [missed]; rfl⟩

/-- Parts that are read together fit if each of them does. -/
theorem Settles.seq {f : Placed (α → β)} {x : Placed α} {fits fits' : Prop} {g : α → β} {a : α}
    (first : f.Settles fits g) (second : x.Settles fits' a) :
    (f <*> x : Placed β).Settles (fits ∧ fits') (g a) := by
  constructor
  · rintro ⟨holds, holds'⟩
    rw [first.1 holds, second.1 holds']
    rfl
  · intro fails
    by_cases holds : fits
    · obtain ⟨place, missed⟩ := second.2 fun holds' => fails ⟨holds, holds'⟩
      exact ⟨place, by rw [first.1 holds, missed]; rfl⟩
    · obtain ⟨place, missed⟩ := first.2 holds
      rw [missed]
      by_cases holds' : fits'
      · exact ⟨place, by rw [second.1 holds']; rfl⟩
      · obtain ⟨place', missed'⟩ := second.2 holds'
        rw [missed']
        -- Of the two faults the earlier is reported, and both say the same.
        by_cases earlier : place' < place
        · exact ⟨place', if_pos earlier⟩
        · exact ⟨place, if_neg earlier⟩

theorem Settles.result {x : Placed α} {fits : Prop} [Decidable fits] {a : α}
    (settles : x.Settles fits a) : x.result = if fits then .ok a else .error .malformed := by
  split
  · next holds =>
    rw [settles.1 holds]
    rfl
  · next fails =>
    obtain ⟨place, missed⟩ := settles.2 fails
    rw [missed]
    rfl

end Placed

namespace Record

/-! ## Slots -/

/-- A free slot is filled by the first value under its name. -/
theorem fill_free {key : String} {slots : List Slot} (place : Nat) (value : Source)
    (plain : Plain slots) (named : key ∈ slots.map (·.name)) (free : given? key slots = none) :
    ∃ filled, fill key place value slots = some (.ok filled) := by
  induction slots with
  | nil => simp at named
  | cons s slots ih =>
    have first : Slot.answers s key = true ↔ s.name = key :=
      answers_iff (plain s List.mem_cons_self)
    rw [given?_cons] at free
    by_cases same : s.name = key
    · rw [if_pos same] at free
      exact ⟨_, by rw [fill, if_pos (first.2 same), free]⟩
    · rw [if_neg same] at free
      have later : key ∈ slots.map (·.name) := by
        rw [List.map_cons, List.mem_cons] at named
        exact named.resolve_left fun equal => same equal.symm
      obtain ⟨filled, found⟩ :=
        ih (fun t member => plain t (List.mem_cons_of_mem _ member)) later free
      exact ⟨s :: filled, by rw [fill, if_neg (same ∘ first.1), found]⟩

/-- Members whose keys are names of free slots, each once, go in without a flaw. -/
theorem sortOut_clean {slots : List Slot} {place : Nat} {members : List (String × Json)}
    (plain : Plain slots) (distinct : (members.map (·.1)).Nodup)
    (named : ∀ m ∈ members, m.1 ∈ slots.map (·.name))
    (free : ∀ m ∈ members, given? m.1 slots = none) :
    (sortOut slots place .closed (scannedMembers members)).2 = .ok () := by
  induction members generalizing slots place with
  | nil => rfl
  | cons m members ih =>
    obtain ⟨key, value⟩ := m
    obtain ⟨once, rest⟩ := List.nodup_cons.1 (by simpa only [List.map_cons] using distinct)
    obtain ⟨filled, found⟩ := fill_free place value.scanned plain
      (named (key, value) List.mem_cons_self) (free (key, value) List.mem_cons_self)
    obtain ⟨plain', names, -, given⟩ := fill_eq_ok plain found
    simp only [scannedMembers, sortOut, found]
    refine ih plain' rest (fun m member => ?_) (fun m member => ?_)
    · rw [names]
      exact named m (List.mem_cons_of_mem _ member)
    · have other : m.1 ≠ key := by
        rintro rfl
        exact once (List.mem_map_of_mem member)
      rw [given, if_neg other]
      exact free m (List.mem_cons_of_mem _ member)

/-! ## Fields -/

section Fields

variable {α : Type} {r : Record} {name : String} {names : List String} {read : Reader α}
  {members : List (String × Json)} {v : Json} {a : α} {levels : Nat}

/-- A field that is given is settled as its reader settles it. -/
theorem field_settles {absent : Nat → Placed α} (inside : r.inside = .text levels)
    (given : r.value? name = some v.scanned) (recovers : Reader.Recovers read v a) :
    (r.field name absent read).Settles (v.depth ≤ levels) a := by
  have found := find_given name r.slots 0
  rw [value?, Option.map_eq_some_iff] at given
  obtain ⟨⟨place, source⟩, filled, rfl⟩ := given
  rw [filled] at found
  obtain ⟨⟨index, slot⟩, at_, rfl⟩ := Option.bind_eq_some_iff.1 found
  constructor
  · intro fits
    simp only [field, at_, inside, recovers levels, if_pos fits]
    rfl
  · intro deep
    simp only [field, at_, inside, recovers levels, if_neg deep]
    exact ⟨place, rfl⟩

theorem Reads.settles_required (reads : r.Reads names members) (inside : r.inside = .text levels)
    (name : String) (recovers : Reader.Recovers read v a) (field : name ∈ names)
    (member : lookup name members = some v) :
    (r.required name read).Settles (v.depth ≤ levels) a :=
  field_settles inside (by rw [reads name field, member]; rfl) recovers

theorem Reads.settles_defaulted (reads : r.Reads names members) (inside : r.inside = .text levels)
    (name : String) (default : α) (recovers : Reader.Recovers read v a) (field : name ∈ names)
    (member : lookup name members = some v) :
    (r.defaulted name default read).Settles (v.depth ≤ levels) a :=
  field_settles inside (by rw [reads name field, member]; rfl) recovers

/-- A field that is left out has its default, however deep the record stands. -/
theorem Reads.settles_default (reads : r.Reads names members) (name : String) (default : α)
    (field : name ∈ names) (absent : lookup name members = none) :
    (r.defaulted name default read).Settles True default := by
  have missing := reads name field
  rw [absent, Option.map_none, value?, Option.map_eq_none_iff,
    ← find_given name r.slots 0] at missing
  refine ⟨fun _ => ?_, fun fails => absurd trivial fails⟩
  unfold Record.defaulted Record.field
  cases found : find name r.slots 0 with
  | none => rfl
  | some slot =>
    obtain ⟨index, given⟩ := slot
    rw [found, Option.bind_some] at missing
    dsimp only at missing
    rw [missing]

/-- A field that is left out where its value is the default. -/
theorem Reads.settles_leftOut (reads : r.Reads names members) (inside : r.inside = .text levels)
    (name : String) {default : α} {value : Option Json}
    (given : ∀ v, value = some v → Reader.Recovers read v a) (absent : value = none → default = a)
    (field : name ∈ names) (member : lookup name members = value) :
    (r.defaulted name default read).Settles ((value.map depth).getD 0 ≤ levels) a := by
  cases value with
  | none =>
    rw [← absent rfl]
    exact (reads.settles_default name default field member).congr (by simp)
  | some v => exact reads.settles_defaulted inside name default (given v rfl) field member

end Fields

/-! ## Records -/

variable {α : Type}

/-- Where an object has been written under names of the record, the record starts without a flaw
and its fields are read from the members. -/
theorem start_scanned (title : String) {names : List String} {members : List (String × Json)}
    (distinct : (members.map (·.1)).Nodup) (named : ∀ key ∈ members.map (·.1), key ∈ names)
    (levels : Nat) :
    ∃ r, Record.start title (names.map fun name => [name]) (.text (levels + 1))
        (scanned (.object members)) = .ok r ∧
      r.inside = .text levels ∧ r.flaw = .ok () ∧ r.Reads names members := by
  have slotted (m : String × Json) (member : m ∈ members) :
      m.1 ∈ (layout (names.map fun name => [name])).map (·.name) := by
    rw [layout_names]
    exact named m.1 (List.mem_map_of_mem member)
  have clean : (sortOut (layout (names.map fun name => [name])) 0 .closed
      (scannedMembers members)).2 = .ok () :=
    sortOut_clean (layout_plain names) distinct slotted fun m _ => given?_layout m.1 names
  refine ⟨_, rfl, rfl, clean, fun name member => ?_⟩
  have sorted := sortOut_given (layout_plain names) clean (by rw [layout_names]; exact member)
  rw [given?_layout] at sorted
  exact sorted

/-- A record is recovered where its fields are settled. -/
theorem recovers {title : String} (names : List String) {body : Record → Placed α}
    {members : List (String × Json)} {a : α} (distinct : (members.map (·.1)).Nodup)
    (named : ∀ key ∈ members.map (·.1), key ∈ names)
    (settles : ∀ (r : Record) (levels : Nat), r.inside = .text levels → r.Reads names members →
      (body r).Settles (depthMembers members ≤ levels) a) :
    Reader.Recovers (Record.read title (names.map fun name => [name]) body)
      (.object members) a := by
  intro levels
  rw [depth]
  cases levels with
  | zero => simp [Record.read, Record.start, scanned, Medium.enter, bind, Except.bind]
  | succ levels =>
    obtain ⟨r, starts, inside, flaw, reads⟩ := start_scanned title distinct named levels
    have flawless : Placed.Settles (.ok ()) True () :=
      ⟨fun _ => rfl, fun fails => absurd trivial fails⟩
    have whole := ((settles r levels inside reads).map fun (a : α) (_ : Unit) => a).seq flawless
    rw [Record.read, starts]
    simp only [bind, Except.bind, flaw, Nat.add_le_add_iff_right]
    exact (whole.congr (by simp)).result

end Record

end DialogueEngine.Json
