import DialogueEngine.Store.Basic

/-!
What a store holds. A conversation is held where reading its id gives it, so that of a row only what
reading its document gives counts. Whatever is true of all that is held stays true when something of
which it is true is written, provided that it survives being written down.
-/

namespace DialogueEngine

/-- Whatever is true of a conversation is true of what is read from its written form. -/
def Conversation.Durable (P : Conversation → Prop) : Prop :=
  ∀ c c', P c → Conversation.read.ofText c.toJson.write = .ok c' → P c'

theorem Row.find?_put (row : Row) (rows : List Row) (id : String) :
    (Row.put row rows).find? (fun r => r.id = id) =
      if row.id = id then some row else rows.find? fun r => r.id = id := by
  induction rows with
  | nil => by_cases same : row.id = id <;> simp [Row.put, same]
  | cons r rest ih =>
    by_cases old : r.id = row.id
    · rw [Row.put, if_pos old]
      by_cases same : row.id = id
      · simp [same]
      · simp [old, same]
    · rw [Row.put, if_neg old]
      by_cases first : r.id = id
      · have other : ¬ row.id = id := fun h => old (first.trans h.symm)
        simp [first, other]
      · simp [first, ih]

namespace Store

/-- Every conversation that reading gives satisfies `P`. -/
def Holds (P : Conversation → Prop) (s : Store) : Prop :=
  ∀ id c, s.backing.get id = .ok (some c) → P c

/-- A store in which nothing has been put. -/
def IsNew (s : Store) : Prop := s.backing = .memory ∅ ∨ s.backing = .table []

theorem IsNew.holds {s : Store} (new : s.IsNew) (P : Conversation → Prop) : s.Holds P := by
  intro id c found
  rcases new with memory | table
  · rw [memory] at found
    exact absurd found (by simp [Backing.get])
  · rw [table] at found
    exact absurd found (by simp [Backing.get])

theorem backing_get (id : String) (s : Store) : (s.get id).2.backing = s.backing := by
  simp only [get]
  split <;> rfl

theorem get_eq_backing {id : String} {s : Store} {c : Option Conversation}
    (found : (s.get id).1 = .ok c) : s.backing.get id = .ok c := by
  simp only [get] at found
  split at found
  · exact absurd found (by simp)
  · exact found

theorem Holds.get {P : Conversation → Prop} {s : Store} (holds : s.Holds P) (id : String) :
    (s.get id).2.Holds P := by
  intro other c found
  rw [backing_get] at found
  exact holds other c found

theorem Holds.of_get {P : Conversation → Prop} {s : Store} (holds : s.Holds P) {id : String}
    {c : Conversation} (found : (s.get id).1 = .ok (some c)) : P c :=
  holds id c (get_eq_backing found)

theorem backing_put_get {P : Conversation → Prop} {b : Backing}
    (durable : (∃ rows, b = .table rows) → Conversation.Durable P) {c : Conversation}
    (true_of : P c) (holds : ∀ id c, b.get id = .ok (some c) → P c) :
    ∀ id c', (b.put c).get id = .ok (some c') → P c' := by
  intro id c' found
  cases b with
  | memory conversations =>
    simp only [Backing.put, Backing.get, Table.get?_insert] at found
    split at found
    · obtain rfl : c = c' := by simpa using found
      exact true_of
    · exact holds id c' found
  | table rows =>
    simp only [Backing.put, Backing.get, Row.find?_put] at found
    by_cases same : (Row.ofConversation c).id = id
    · rw [if_pos same] at found
      cases read : Conversation.read.ofText (Row.ofConversation c).document with
      | error fault => simp [read] at found
      | ok back =>
        obtain rfl : back = c' := by simpa [read] using found
        exact durable ⟨rows, rfl⟩ c back true_of read
    · rw [if_neg same] at found
      exact holds id c' found

/-- Only a store of rows writes conversations down. -/
theorem Holds.put_of {P : Conversation → Prop} {s : Store} (holds : s.Holds P)
    (durable : (∃ rows, s.backing = .table rows) → Conversation.Durable P) {c : Conversation}
    (true_of : P c) : (s.put c).2.Holds P := by
  simp only [Store.put]
  split
  · exact holds
  · exact backing_put_get durable true_of holds

theorem Holds.put {P : Conversation → Prop} {s : Store} (holds : s.Holds P)
    (durable : Conversation.Durable P) {c : Conversation} (true_of : P c) :
    (s.put c).2.Holds P :=
  holds.put_of (fun _ => durable) true_of

theorem writeRefusals_get (id : String) (s : Store) :
    (s.get id).2.writeRefusals = s.writeRefusals := by
  simp only [get]
  split <;> rfl

/-- What is put under an id takes the place of what was put there before. -/
theorem backing_get_put_put (c c' : Conversation) (b : Backing) :
    ((b.put c').put c).get c.id = (b.put c).get c.id := by
  cases b with
  | memory conversations => simp [Backing.put, Backing.get]
  | table rows =>
    have named : (Row.ofConversation c).id = c.id := rfl
    simp [Backing.put, Backing.get, Row.find?_put, named]

theorem backing_of_put {c : Conversation} {s : Store} (written : (s.put c).1 = .ok ()) :
    (s.put c).2.backing = s.backing.put c := by
  simp only [put] at written ⊢
  split
  · next refused => simp [refused] at written
  · rfl

/-- A store of the conversations themselves, which writes nothing down. -/
def KeepsWhole (s : Store) : Prop := ∃ conversations, s.backing = .memory conversations

theorem KeepsWhole.get {s : Store} (whole : s.KeepsWhole) (id : String) :
    (s.get id).2.KeepsWhole := by
  rw [KeepsWhole, backing_get]
  exact whole

theorem KeepsWhole.put {s : Store} (whole : s.KeepsWhole) (c : Conversation) :
    (s.put c).2.KeepsWhole := by
  obtain ⟨conversations, memory⟩ := whole
  simp only [KeepsWhole, Store.put]
  split
  · exact ⟨conversations, memory⟩
  · exact ⟨_, by rw [memory, Backing.put]⟩

/-- A conversation is given back as it was put. -/
def Returns (c : Conversation) (s : Store) : Prop := (s.backing.put c).get c.id = .ok (some c)

/-- A store of the conversations themselves gives all of them back. -/
theorem returns_memory {conversations : Table Conversation} {s : Store}
    (memory : s.backing = .memory conversations) (c : Conversation) : s.Returns c := by
  simp [Returns, memory, Backing.put, Backing.get]

/-- No coming write is refused. -/
def Accepts (s : Store) : Prop := ∀ refused ∈ s.writeRefusals, refused = false

theorem Accepts.put {s : Store} (accepts : s.Accepts) (c : Conversation) :
    (s.put c).2.Accepts := by
  cases plan : s.writeRefusals with
  | nil => simp [Accepts, Store.put, plan, takeRefusal]
  | cons refused later =>
    have first : refused = false := accepts refused (by rw [plan]; exact List.mem_cons_self)
    subst first
    intro r member
    exact accepts r (by
      rw [plan]
      exact List.mem_cons_of_mem _ (by simpa [Store.put, plan, takeRefusal] using member))

theorem Accepts.put_ok {s : Store} (accepts : s.Accepts) (c : Conversation) :
    (s.put c).1 = .ok () := by
  cases plan : s.writeRefusals with
  | nil => simp [Store.put, plan, takeRefusal]
  | cons refused later =>
    have first : refused = false := accepts refused (by rw [plan]; exact List.mem_cons_self)
    simp [Store.put, plan, takeRefusal, first]

end Store

end DialogueEngine
