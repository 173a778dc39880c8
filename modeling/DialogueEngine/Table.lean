/-!
Finite maps from texts, kept as entries in strictly increasing key order, so that two tables with
the same lookups are equal and listing one is listing it in key order.
-/

namespace DialogueEngine

/-- A finite map from texts. -/
structure Table (α : Type) where
  entries : List (String × α)
  ordered : entries.Pairwise (fun a b => a.1 < b.1)

namespace Table

variable {α β : Type}

def empty : Table α := ⟨[], List.Pairwise.nil⟩

instance : EmptyCollection (Table α) := ⟨empty⟩

instance : Inhabited (Table α) := ⟨empty⟩

theorem eq_of_entries {a b : Table α} (same : a.entries = b.entries) : a = b := by
  cases a; cases b; cases same; rfl

instance [DecidableEq α] : DecidableEq (Table α) := fun a b =>
  if h : a.entries = b.entries then isTrue (eq_of_entries h) else isFalse fun e => h (by rw [e])

def find (key : String) : List (String × α) → Option α
  | [] => none
  | (k, a) :: rest => if k = key then some a else find key rest

def get? (t : Table α) (key : String) : Option α := find key t.entries

@[simp] theorem get?_empty (key : String) : (∅ : Table α).get? key = none := rfl

def has (t : Table α) (key : String) : Bool := (t.get? key).isSome

/-- Puts an entry among entries in key order. -/
def place (key : String) (a : α) : List (String × α) → List (String × α)
  | [] => [(key, a)]
  | (k, b) :: rest =>
    if key < k then (key, a) :: (k, b) :: rest
    else if key = k then (key, a) :: rest
    else (k, b) :: place key a rest

theorem mem_place {key : String} {a : α} {es : List (String × α)} {e : String × α}
    (member : e ∈ place key a es) : e = (key, a) ∨ e ∈ es := by
  induction es with
  | nil => simpa [place] using member
  | cons f rest ih =>
    obtain ⟨k, b⟩ := f
    simp only [place] at member
    split at member
    · simpa using member
    · split at member
      · rcases List.mem_cons.1 member with rfl | inside
        · exact .inl rfl
        · exact .inr (List.mem_cons_of_mem _ inside)
      · rcases List.mem_cons.1 member with rfl | inside
        · exact .inr List.mem_cons_self
        · exact (ih inside).imp id (List.mem_cons_of_mem _)

theorem lt_of_not_lt_of_ne {a b : String} (notLess : ¬ a < b) (different : a ≠ b) : b < a := by
  rcases String.le_total b a with h | h
  · exact Decidable.byContradiction fun no =>
      different (String.le_antisymm (String.not_lt.1 no) h)
  · exact absurd (String.le_antisymm h (String.not_lt.1 notLess)) different

theorem place_ordered (key : String) (a : α) {es : List (String × α)}
    (ordered : es.Pairwise (fun a b => a.1 < b.1)) :
    (place key a es).Pairwise (fun a b => a.1 < b.1) := by
  induction es with
  | nil => simp [place]
  | cons f rest ih =>
    obtain ⟨k, b⟩ := f
    obtain ⟨first, later⟩ := List.pairwise_cons.1 ordered
    simp only [place]
    split
    · next less =>
      refine List.pairwise_cons.2 ⟨?_, ordered⟩
      intro e member
      rcases List.mem_cons.1 member with rfl | inside
      · exact less
      · exact String.lt_trans less (first e inside)
    · next notLess =>
      split
      · next same => subst same; exact List.pairwise_cons.2 ⟨first, later⟩
      · next different =>
        refine List.pairwise_cons.2 ⟨?_, ih later⟩
        intro e member
        rcases mem_place member with rfl | inside
        · exact lt_of_not_lt_of_ne notLess different
        · exact first e inside

def insert (t : Table α) (key : String) (a : α) : Table α :=
  ⟨place key a t.entries, place_ordered key a t.ordered⟩

def erase (t : Table α) (key : String) : Table α :=
  ⟨t.entries.filter (fun e => e.1 != key), t.ordered.filter _⟩

/-- A table from entries in any order; of two under one key the later stands. -/
def ofList (es : List (String × α)) : Table α :=
  es.foldl (fun t e => t.insert e.1 e.2) empty

/-- A table with the entries of another put over its own. -/
def overlay (t upper : Table α) : Table α := upper.entries.foldl (fun t e => t.insert e.1 e.2) t

def keys (t : Table α) : List String := t.entries.map (·.1)

theorem find_place (key other : String) (a : α) (es : List (String × α)) :
    find other (place key a es) = if key = other then some a else find other es := by
  induction es with
  | nil => simp [place, find]
  | cons f rest ih =>
    obtain ⟨k, b⟩ := f
    simp only [place]
    split
    · simp [find]
    · split
      · next same => subst same; by_cases h : key = other <;> simp [find, h]
      · next different =>
        by_cases h : k = other
        · subst h; simp [find, different]
        · simp [find, h, ih]

@[simp] theorem get?_insert (t : Table α) (key other : String) (a : α) :
    (t.insert key a).get? other = if key = other then some a else t.get? other :=
  find_place key other a t.entries

theorem find_filter_ne (key other : String) (es : List (String × α)) :
    find other (es.filter (fun e => e.1 != key)) = if key = other then none else find other es := by
  induction es with
  | nil => simp [find]
  | cons f rest ih =>
    obtain ⟨k, b⟩ := f
    by_cases same : k = key
    · subst same
      by_cases h : k = other
      · subst h; simpa using ih
      · simpa [find, h] using ih
    · by_cases h : k = other
      · subst h; simp [find, same, Ne.symm same]
      · simpa [find, same, h] using ih

@[simp] theorem get?_erase (t : Table α) (key other : String) :
    (t.erase key).get? other = if key = other then none else t.get? other :=
  find_filter_ne key other t.entries

end Table

end DialogueEngine
