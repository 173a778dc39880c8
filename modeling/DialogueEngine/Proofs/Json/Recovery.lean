import DialogueEngine.Flow.NodeSpec
import DialogueEngine.Proofs.Json.Records

/-!
Readers that recover what has been written. Where a value has been written its reader gives it back
if the text may nest as deeply as the value does, and finds the text malformed if it may not; there
is no third case. Of what is read back only doubles may differ, each being what its text denotes.
-/

namespace DialogueEngine

-- Powers are those of the core library, whatever else is imported.
attribute [local instance (high)] instPowNat

namespace Json

/-! ## Values that are read back -/

/-- A number as a program holds it: an integer of 64 bits with or without a sign, or a finite
double. -/
def Number.Held : Number → Prop
  | .int n => -(2 ^ (63 : Nat) : Nat) ≤ n ∧ n < (2 ^ (64 : Nat) : Nat)
  | .double d => d.magnitudeBits < Binary64.infinityBits

/-- A number with a double replaced by the one that its text is read as. -/
def Number.rounded : Number → Number
  | .int n => .int n
  | .double d =>
    match (Number.double d).reread with
    | .ok (.double d') => .double d'
    | _ => .double d

mutual

/-- A value as a program holds it: its numbers are held, and objects are in the order of their
keys. -/
def Held : Json → Prop
  | .number n => n.Held
  | .array items => HeldItems items
  | .object ms => ms.Pairwise (fun a b => a.1 < b.1) ∧ HeldMembers ms
  | _ => True

def HeldItems : List Json → Prop
  | [] => True
  | v :: rest => v.Held ∧ HeldItems rest

def HeldMembers : List (String × Json) → Prop
  | [] => True
  | (_, v) :: rest => v.Held ∧ HeldMembers rest

end

instance Number.decidableHeld (n : Number) : Decidable n.Held :=
  match n with
  | .int _ => inferInstanceAs (Decidable (_ ∧ _))
  | .double _ => inferInstanceAs (Decidable (_ < _))

mutual

/-- Whether a value is held can be told part by part. -/
def decideHeld : (v : Json) → Decidable v.Held
  | .null | .bool _ | .string _ => isTrue trivial
  | .number n => Number.decidableHeld n
  | .array items => decideHeldItems items
  | .object ms =>
    haveI := decideHeldMembers ms
    inferInstanceAs (Decidable (_ ∧ _))

def decideHeldItems : (items : List Json) → Decidable (HeldItems items)
  | [] => isTrue trivial
  | v :: rest =>
    haveI := decideHeld v
    haveI := decideHeldItems rest
    inferInstanceAs (Decidable (_ ∧ _))

def decideHeldMembers : (ms : List (String × Json)) → Decidable (HeldMembers ms)
  | [] => isTrue trivial
  | (_, v) :: rest =>
    haveI := decideHeld v
    haveI := decideHeldMembers rest
    inferInstanceAs (Decidable (_ ∧ _))

end

instance (v : Json) : Decidable v.Held := decideHeld v

mutual

/-- A value with its doubles rounded, and everything else as it is. -/
def rounded : Json → Json
  | .null => .null
  | .bool b => .bool b
  | .number n => .number n.rounded
  | .string s => .string s
  | .array items => .array (roundedItems items)
  | .object ms => .object (roundedMembers ms)

def roundedItems : List Json → List Json
  | [] => []
  | v :: rest => rounded v :: roundedItems rest

def roundedMembers : List (String × Json) → List (String × Json)
  | [] => []
  | (k, v) :: rest => (k, rounded v) :: roundedMembers rest

end

theorem heldItems_iff {items : List Json} : HeldItems items ↔ ∀ v ∈ items, v.Held := by
  induction items with
  | nil => simp [HeldItems]
  | cons v rest ih => simp [HeldItems, ih]

theorem heldMembers_iff {ms : List (String × Json)} : HeldMembers ms ↔ ∀ m ∈ ms, m.2.Held := by
  induction ms with
  | nil => simp [HeldMembers]
  | cons m rest ih => simp [HeldMembers, ih]

theorem roundedItems_eq_map (items : List Json) : roundedItems items = items.map rounded := by
  induction items with
  | nil => rfl
  | cons v rest ih => rw [roundedItems, ih, List.map_cons]

theorem roundedMembers_eq_map (ms : List (String × Json)) :
    roundedMembers ms = ms.map fun m => (m.1, m.2.rounded) := by
  induction ms with
  | nil => rfl
  | cons m rest ih => rw [roundedMembers, ih, List.map_cons]

theorem roundedMembers_append (ms more : List (String × Json)) :
    roundedMembers (ms ++ more) = roundedMembers ms ++ roundedMembers more := by
  rw [roundedMembers_eq_map, roundedMembers_eq_map, roundedMembers_eq_map, List.map_append]

theorem depthMembers_append (ms more : List (String × Json)) :
    depthMembers (ms ++ more) = max (depthMembers ms) (depthMembers more) := by
  induction ms with
  | nil => simp [depthMembers]
  | cons m rest ih => simp only [List.cons_append, depthMembers, ih, Nat.max_assoc]

/-! ## Objects in key order -/

theorem put_last {key : String} {v : Json} {ms : List (String × Json)}
    (last : ∀ m ∈ ms, m.1 < key) : put key v ms = ms ++ [(key, v)] := by
  induction ms with
  | nil => rfl
  | cons m rest ih =>
    obtain ⟨k, w⟩ := m
    have less : k < key := last (k, w) List.mem_cons_self
    have notLess : ¬ key < k := fun back => String.lt_irrefl k (String.lt_trans less back)
    have different : key ≠ k := by
      rintro rfl
      exact String.lt_irrefl key less
    rw [put, if_neg notLess, if_neg different,
      ih fun m member => last m (List.mem_cons_of_mem _ member), List.cons_append]

theorem foldl_put_ordered {ms more : List (String × Json)}
    (ordered : (ms ++ more).Pairwise fun a b => a.1 < b.1) :
    more.foldl (fun acc m => put m.1 m.2 acc) ms = ms ++ more := by
  induction more generalizing ms with
  | nil => simp
  | cons m rest ih =>
    have last : ∀ former ∈ ms, former.1 < m.1 := fun former member =>
      (List.pairwise_append.1 ordered).2.2 former member m List.mem_cons_self
    rw [List.foldl_cons, put_last last, ih (by simpa using ordered), List.append_assoc]
    rfl

/-- Members in key order stay as they are. -/
theorem ofMembers_ordered {ms : List (String × Json)}
    (ordered : ms.Pairwise fun a b => a.1 < b.1) : ofMembers ms = .object ms := by
  rw [ofMembers, foldl_put_ordered (by simpa using ordered), List.nil_append]

end Json

namespace Table

variable {α β : Type}

/-- A table with each of its values changed. -/
def mapValues (f : α → β) (t : Table α) : Table β :=
  ⟨t.entries.map fun e => (e.1, f e.2), List.pairwise_map.2 t.ordered⟩

theorem place_last {key : String} {a : α} {es : List (String × α)} (last : ∀ e ∈ es, e.1 < key) :
    place key a es = es ++ [(key, a)] := by
  induction es with
  | nil => rfl
  | cons e rest ih =>
    obtain ⟨k, b⟩ := e
    have less : k < key := last (k, b) List.mem_cons_self
    have notLess : ¬ key < k := fun back => String.lt_irrefl k (String.lt_trans less back)
    have different : key ≠ k := by
      rintro rfl
      exact String.lt_irrefl key less
    rw [place, if_neg notLess, if_neg different,
      ih fun e member => last e (List.mem_cons_of_mem _ member), List.cons_append]

theorem foldl_insert_entries {t : Table α} {more : List (String × α)}
    (ordered : (t.entries ++ more).Pairwise fun a b => a.1 < b.1) :
    (more.foldl (fun t e => t.insert e.1 e.2) t).entries = t.entries ++ more := by
  induction more generalizing t with
  | nil => simp
  | cons e rest ih =>
    have last : ∀ former ∈ t.entries, former.1 < e.1 := fun former member =>
      (List.pairwise_append.1 ordered).2.2 former member e List.mem_cons_self
    have placed : (t.insert e.1 e.2).entries = t.entries ++ [e] := place_last last
    rw [List.foldl_cons, ih (by rw [placed]; simpa using ordered), placed, List.append_assoc]
    rfl

/-- A table is made of its entries. -/
theorem ofList_entries (t : Table α) : ofList t.entries = t := by
  apply eq_of_entries
  rw [ofList, foldl_insert_entries (by simpa [empty] using t.ordered)]
  rfl

end Table

namespace Json

/-! ## Readers of single values -/

/-- A reader gives `a` where `v` has been written, unless `v` nests deeper than the text may. -/
def Reader.Recovers {α : Type} (read : Reader α) (v : Json) (a : α) : Prop :=
  ∀ levels, read (.text levels) v.scanned =
    if v.depth ≤ levels then .ok a else .error .malformed

namespace Reader

variable {α β : Type}

/-- A value without items or members nests nowhere. -/
theorem Recovers.flat {read : Reader α} {v : Json} {a : α} (shallow : v.depth = 0)
    (reads : ∀ m, read m v.scanned = .ok a) : Recovers read v a := by
  intro levels
  rw [if_pos (by omega), reads]

theorem recovers_text (s : String) : Recovers text (.string s) s :=
  .flat rfl fun _ => rfl

theorem recovers_bool (b : Bool) : Recovers bool (.bool b) b :=
  .flat rfl fun _ => rfl

theorem recovers_text? (s : Option String) : Recovers (nullable text) (.ofText? s) s := by
  cases s with
  | none => exact .flat rfl fun _ => rfl
  | some s => exact .flat rfl fun _ => rfl

/-- What is recovered is not null if it is written as an object. -/
theorem Recovers.nullable {read : Reader α} {ms : List (String × Json)} {a : α}
    (recovers : Recovers read (.object ms) a) :
    Recovers (nullable read) (.object ms) (some a) := by
  intro levels
  have found : Reader.nullable read (.text levels) (scanned (.object ms)) =
      (read (.text levels) (scanned (.object ms))).map some := rfl
  rw [found, recovers levels]
  split <;> rfl

/-! ## Lists and tables -/

theorem readItems_scanned {read : Source → Except Fault α} {levels : Nat} {f : β → Json}
    {g : β → α} {xs : List β}
    (each : ∀ x ∈ xs, read (f x).scanned =
      if (f x).depth ≤ levels then .ok (g x) else .error .malformed) :
    readItems read (scannedItems (xs.map f)) =
      if depthItems (xs.map f) ≤ levels then .ok (xs.map g) else .error .malformed := by
  induction xs with
  | nil => simp [scannedItems, readItems, depthItems]
  | cons x xs ih =>
    rw [List.map_cons, scannedItems, readItems, each x List.mem_cons_self, depthItems]
    by_cases first : (f x).depth ≤ levels
    · rw [if_pos first, ih fun x member => each x (List.mem_cons_of_mem _ member)]
      by_cases later : depthItems (xs.map f) ≤ levels
      · rw [if_pos later, if_pos (by omega)]
        rfl
      · rw [if_neg later, if_neg (by omega)]
        rfl
    · rw [if_neg first, if_neg (by omega)]

/-- A list is recovered if its items are. -/
theorem Recovers.list {read : Reader α} {f : β → Json} {g : β → α} {xs : List β}
    (each : ∀ x ∈ xs, Recovers read (f x) (g x)) :
    Recovers (list read) (.array (xs.map f)) (xs.map g) := by
  intro levels
  rw [scanned, depth]
  cases levels with
  | zero => simp [Reader.list, Medium.enter, bind, Except.bind]
  | succ levels =>
    simp only [Reader.list, Medium.enter, bind, Except.bind,
      readItems_scanned fun x member => each x member levels, Nat.add_le_add_iff_right]
    by_cases fits : depthItems (xs.map f) ≤ levels
    · rw [if_pos fits]
      rfl
    · rw [if_neg fits]

theorem readMembers_scanned {read : Source → Except Fault α} {levels : Nat} {f : β → Json}
    {g : β → α} {es : List (String × β)}
    (each : ∀ e ∈ es, read (f e.2).scanned =
      if (f e.2).depth ≤ levels then .ok (g e.2) else .error .malformed) :
    readMembers read (scannedMembers (es.map fun e => (e.1, f e.2))) =
      if depthMembers (es.map fun e => (e.1, f e.2)) ≤ levels then
        .ok (es.map fun e => (e.1, g e.2))
      else .error .malformed := by
  induction es with
  | nil => simp [scannedMembers, readMembers, depthMembers]
  | cons e es ih =>
    rw [List.map_cons, scannedMembers, readMembers, depthMembers]
    simp only [each e List.mem_cons_self]
    by_cases first : (f e.2).depth ≤ levels
    · rw [if_pos first, ih fun e member => each e (List.mem_cons_of_mem _ member)]
      by_cases later : depthMembers (es.map fun e => (e.1, f e.2)) ≤ levels
      · rw [if_pos later, if_pos (by omega)]
        rfl
      · rw [if_neg later, if_neg (by omega)]
        rfl
    · rw [if_neg first, if_neg (by omega)]

/-- A table is recovered if its values are. -/
theorem Recovers.table {read : Reader α} {f : β → Json} {g : β → α} {t : Table β}
    (each : ∀ e ∈ t.entries, Recovers read (f e.2) (g e.2)) :
    Recovers (table read) (.object (t.entries.map fun e => (e.1, f e.2))) (t.mapValues g) := by
  intro levels
  rw [scanned, depth]
  cases levels with
  | zero => simp [Reader.table, Reader.members, Medium.enter, bind, Except.bind, Except.map]
  | succ levels =>
    simp only [Reader.table, Reader.members, Medium.enter, bind, Except.bind,
      readMembers_scanned fun e member => each e member levels, Nat.add_le_add_iff_right]
    by_cases fits : depthMembers (t.entries.map fun e => (e.1, f e.2)) ≤ levels
    · rw [if_pos fits, if_pos fits]
      exact congrArg Except.ok (Table.ofList_entries (t.mapValues g))
    · rw [if_neg fits, if_neg fits]
      rfl

/-- A table that is read where one has been written has its keys, each with what is read of its
value. -/
theorem table_scanned {γ : Type} {read : Reader α} {f : β → Json} {key : α → γ} {key' : β → γ}
    {t : Table β} {m : Medium} {t' : Table α}
    (each : ∀ inside x a, read inside (f x).scanned = .ok a → key a = key' x)
    (ok : table read m (scanned (.object (t.entries.map fun e => (e.1, f e.2)))) = .ok t') :
    t'.mapValues key = t.mapValues key' := by
  rw [scanned] at ok
  unfold table members at ok
  cases enters : m.enter with
  | error fault =>
    simp only [enters, bind, Except.bind] at ok
    cases ok
  | ok inside =>
    simp only [enters, bind, Except.bind] at ok
    cases taken : readMembers (read inside)
        (scannedMembers (t.entries.map fun e => (e.1, f e.2))) with
    | error fault =>
      simp only [taken] at ok
      cases ok
    | ok values =>
      simp only [taken] at ok
      cases ok
      have same := readMembers_map (each inside) taken
      have keys : values.map (·.1) = t.entries.map (·.1) := by
        simpa [Function.comp_def] using congrArg (List.map (·.1)) same
      have ordered : values.Pairwise fun a b => a.1 < b.1 := by
        rw [← List.pairwise_map, keys, List.pairwise_map]
        exact t.ordered
      rw [Table.ofList_entries ⟨values, ordered⟩]
      exact Table.eq_of_entries same

end Reader

/-! ## Values that are free in form -/

/-- A number is read back with nothing but rounding. -/
def Number.Rereads (n : Number) : Prop := n.reread = .ok n.rounded

mutual

theorem readJson_scanned (rereads : ∀ n : Number, n.Held → n.Rereads) :
    ∀ (v : Json) (levels : Nat), v.Held →
      readJson (.text levels) v.scanned =
        if v.depth ≤ levels then .ok v.rounded else .error .malformed
  | .null, _, _ => rfl
  | .bool _, _, _ => rfl
  | .string _, _, _ => rfl
  | .number n, _, held => by
    rw [scanned, readJson, rereads n held]
    rfl
  | .array items, 0, _ => by simp [scanned, readJson, Medium.enter, depth, bind, Except.bind]
  | .array items, levels + 1, held => by
    simp only [scanned, readJson, Medium.enter, depth, bind, Except.bind,
      readJsonItems_scanned rereads items levels held, Nat.add_le_add_iff_right]
    by_cases fits : depthItems items ≤ levels
    · rw [if_pos fits, if_pos fits]
      rfl
    · rw [if_neg fits, if_neg fits]
  | .object ms, 0, _ => by simp [scanned, readJson, Medium.enter, depth, bind, Except.bind]
  | .object ms, levels + 1, held => by
    have ordered : (roundedMembers ms).Pairwise fun a b => a.1 < b.1 := by
      rw [roundedMembers_eq_map]
      exact List.pairwise_map.2 held.1
    simp only [scanned, readJson, Medium.enter, depth, bind, Except.bind,
      readJsonMembers_scanned rereads ms levels held.2, Nat.add_le_add_iff_right]
    by_cases fits : depthMembers ms ≤ levels
    · rw [if_pos fits, if_pos fits]
      exact congrArg Except.ok (ofMembers_ordered ordered)
    · rw [if_neg fits, if_neg fits]

theorem readJsonItems_scanned (rereads : ∀ n : Number, n.Held → n.Rereads) :
    ∀ (items : List Json) (levels : Nat), HeldItems items →
      readJsonItems (.text levels) (scannedItems items) =
        if depthItems items ≤ levels then .ok (roundedItems items) else .error .malformed
  | [], _, _ => by simp [scannedItems, readJsonItems, depthItems, roundedItems]
  | v :: rest, levels, held => by
    have first := readJson_scanned rereads v levels held.1
    have later := readJsonItems_scanned rereads rest levels held.2
    simp only [scannedItems, readJsonItems, depthItems, first, later, bind, Except.bind]
    by_cases fits : v.depth ≤ levels <;> by_cases rests : depthItems rest ≤ levels <;>
      simp [fits, rests, roundedItems, pure, Except.pure]

theorem readJsonMembers_scanned (rereads : ∀ n : Number, n.Held → n.Rereads) :
    ∀ (ms : List (String × Json)) (levels : Nat), HeldMembers ms →
      readJsonMembers (.text levels) (scannedMembers ms) =
        if depthMembers ms ≤ levels then .ok (roundedMembers ms) else .error .malformed
  | [], _, _ => by simp [scannedMembers, readJsonMembers, depthMembers, roundedMembers]
  | (k, v) :: rest, levels, held => by
    have first := readJson_scanned rereads v levels held.1
    have later := readJsonMembers_scanned rereads rest levels held.2
    simp only [scannedMembers, readJsonMembers, depthMembers, first, later, bind, Except.bind]
    by_cases fits : v.depth ≤ levels <;> by_cases rests : depthMembers rest ≤ levels <;>
      simp [fits, rests, roundedMembers, pure, Except.pure]

end

end Json

end DialogueEngine
