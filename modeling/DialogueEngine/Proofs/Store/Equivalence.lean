import DialogueEngine.Proofs.Store.Holding
import DialogueEngine.Proofs.Conversation.Recovery

/-!
The two kinds of store against each other. Whatever is put, looked up, deleted and listed in
whatever order, a store of rows answers as a store of the conversations themselves does: a
conversation comes back with its doubles rounded, and the ids are the same in another order. The one
exception is a conversation that nests deeper than a text may. It is written without complaint, and
from then on its row cannot be read.
-/

namespace DialogueEngine

-- Powers are those of the core library, whatever else is imported.
attribute [local instance (high)] instPowNat

open Json (textLevels)

/-! ## Keys and ids -/

namespace Table

variable {α : Type}

@[simp] theorem entries_empty : (∅ : Table α).entries = [] := rfl

theorem find_isSome {key : String} {es : List (String × α)} :
    (find key es).isSome ↔ key ∈ es.map (·.1) := by
  induction es with
  | nil => simp [find]
  | cons e rest ih =>
    obtain ⟨k, a⟩ := e
    by_cases same : k = key
    · simp [find, same]
    · rw [find, if_neg same, ih]
      simp [Ne.symm same]

theorem mem_keys {key : String} {t : Table α} : key ∈ t.keys ↔ t.has key :=
  find_isSome.symm

theorem keys_nodup (t : Table α) : t.keys.Nodup := by
  refine List.pairwise_map.2 (t.ordered.imp fun less same => ?_)
  rw [same] at less
  exact String.lt_irrefl _ less

end Table

namespace Row

theorem find?_isSome {id : String} {rows : List Row} :
    (rows.find? fun r => r.id = id).isSome ↔ id ∈ rows.map (·.id) := by
  simp [List.find?_isSome]

theorem ids_put (row : Row) (rows : List Row) : (put row rows).map (·.id) =
    if row.id ∈ rows.map (·.id) then rows.map (·.id) else rows.map (·.id) ++ [row.id] := by
  induction rows with
  | nil => rfl
  | cons r rest ih =>
    by_cases same : r.id = row.id
    · simp [put, same]
    · rw [put, if_neg same, List.map_cons, ih]
      by_cases later : row.id ∈ rest.map (·.id)
      · have inside : row.id ∈ (r :: rest).map (·.id) := List.mem_cons_of_mem r.id later
        rw [if_pos later, if_pos inside, List.map_cons]
      · have absent : row.id ∉ (r :: rest).map (·.id) := by
          rw [List.map_cons, List.mem_cons]
          exact not_or.2 ⟨Ne.symm same, later⟩
        rw [if_neg later, if_neg absent, List.map_cons, List.cons_append]

theorem distinct_put {rows : List Row} (distinct : (rows.map (·.id)).Nodup) (row : Row) :
    ((put row rows).map (·.id)).Nodup := by
  rw [ids_put]
  split
  · exact distinct
  · next absent =>
    refine List.nodup_append.2 ⟨distinct, List.nodup_singleton _, ?_⟩
    rintro id member id' last rfl
    rw [List.mem_singleton.1 last] at member
    exact absent member

theorem distinct_delete {rows : List Row} (distinct : (rows.map (·.id)).Nodup) (id : String) :
    ((rows.filter fun r => r.id != id).map (·.id)).Nodup :=
  distinct.sublist (List.filter_sublist.map _)

theorem find?_delete (id other : String) (rows : List Row) :
    ((rows.filter fun r => r.id != id).find? fun r => r.id = other) =
      if id = other then none else rows.find? fun r => r.id = other := by
  rw [List.find?_filter]
  split
  · next same =>
    rw [same]
    exact List.find?_eq_none.2 fun r _ => by simp
  · next different =>
    congr 1
    funext r
    by_cases named : r.id = other
    · simp [named, Ne.symm different]
    · simp [named]

theorem newestFirst_perm (rows : List Row) : (newestFirst rows).Perm rows :=
  List.mergeSort_perm rows _

end Row

/-! ## Conversations and their rows -/

/-- Rows that are those of the conversations in a table, one for each. -/
structure Row.Mirror (conversations : Table Conversation) (rows : List Row) : Prop where
  found (id : String) :
    (rows.find? fun r => r.id = id) = (conversations.get? id).map Row.ofConversation
  distinct : (rows.map (·.id)).Nodup
  held (id : String) (c : Conversation) (kept : conversations.get? id = some c) : c.Held

namespace Row.Mirror

variable {conversations : Table Conversation} {rows : List Row}

theorem empty : Mirror ∅ [] where
  found _ := rfl
  distinct := List.nodup_nil
  held _ _ kept := nomatch kept

theorem put (mirror : Mirror conversations rows) {c : Conversation} (held : c.Held) :
    Mirror (conversations.insert c.id c) (Row.put (.ofConversation c) rows) where
  found id := by
    rw [Row.find?_put, Table.get?_insert, mirror.found id]
    by_cases own : c.id = id
    · rw [if_pos own, if_pos (by exact own), Option.map_some]
    · rw [if_neg own, if_neg (by exact own)]
  distinct := Row.distinct_put mirror.distinct _
  held id c' kept := by
    rw [Table.get?_insert] at kept
    split at kept
    · cases kept
      exact held
    · exact mirror.held id c' kept

theorem delete (mirror : Mirror conversations rows) (id : String) :
    Mirror (conversations.erase id) (rows.filter fun r => r.id != id) where
  found other := by
    rw [Row.find?_delete, Table.get?_erase, mirror.found other]
    split <;> rfl
  distinct := Row.distinct_delete mirror.distinct id
  held other c kept := by
    rw [Table.get?_erase] at kept
    split at kept
    · cases kept
    · exact mirror.held other c kept

theorem has_iff (mirror : Mirror conversations rows) (id : String) :
    conversations.has id ↔ id ∈ rows.map (·.id) := by
  rw [← Row.find?_isSome, mirror.found id, Table.has, Option.isSome_map]

/-- The same ids are listed. -/
theorem list_perm (mirror : Mirror conversations rows) :
    conversations.keys.Perm ((Row.newestFirst rows).map (·.id)) := by
  have ids : conversations.keys.Perm (rows.map (·.id)) :=
    (List.perm_ext_iff_of_nodup conversations.keys_nodup mirror.distinct).2 fun id =>
      Table.mem_keys.trans (mirror.has_iff id)
  exact ids.trans ((Row.newestFirst_perm rows).symm.map _)

end Row.Mirror

/-! ## Calls and answers -/

namespace Store

/-- What can be asked of a store. -/
inductive Call where
  | put (c : Conversation)
  | get (id : String)
  | delete (id : String)
  | list

inductive Answer where
  | put (written : Except Failure Unit)
  | get (found : Except Failure (Option Conversation))
  | delete (existed : Bool)
  | list (ids : List String)

/-- What a store answers to a call, and what it is afterwards. -/
def respond (s : Store) : Call → Answer × Store
  | .put c =>
    let (written, s) := s.put c
    (.put written, s)
  | .get id =>
    let (found, s) := s.get id
    (.get found, s)
  | .delete id =>
    let (existed, backing) := s.backing.delete id
    (.delete existed, { s with backing })
  | .list => (.list s.backing.list, s)

/-- What a store answers to calls that are made one after another. -/
def answers (s : Store) : List Call → List Answer
  | [] => []
  | call :: rest => (s.respond call).1 :: (s.respond call).2.answers rest

/-- An answer of a store of conversations beside the answer of a store of rows. Values are compared
as they are written; a conversation that nests too deeply is the one whose row is not read. -/
inductive Answer.Alike : Answer → Answer → Prop where
  | put : Alike (.put (.ok ())) (.put (.ok ()))
  | missing : Alike (.get (.ok none)) (.get (.ok none))
  | found {c c' : Conversation} (fits : c.toJson.depth ≤ textLevels)
      (same : c'.toJson = c.toJson.rounded) : Alike (.get (.ok (some c))) (.get (.ok (some c')))
  | unreadable {c : Conversation} (deep : textLevels < c.toJson.depth) :
      Alike (.get (.ok (some c))) (.get (.error (.document .malformed)))
  | delete (existed : Bool) : Alike (.delete existed) (.delete existed)
  | list {ids ids' : List String} (same : ids.Perm ids') : Alike (.list ids) (.list ids')

section Mirrored

variable {conversations : Table Conversation} {rows : List Row}

/-- Looking up an id, where the rows are those of the conversations. -/
theorem get_alike (mirror : Row.Mirror conversations rows) (id : String) :
    Answer.Alike (.get (.ok (conversations.get? id))) (.get ((Backing.table rows).get id)) := by
  rw [Backing.get, mirror.found id]
  cases kept : conversations.get? id with
  | none => exact .missing
  | some c =>
    have read : Conversation.read.ofText (Row.ofConversation c).document = _ :=
      Conversation.read_written (mirror.held id c kept)
    rw [Option.map_some]
    simp only [read]
    by_cases fits : c.toJson.depth ≤ textLevels
    · rw [if_pos fits]
      exact .found fits c.rounded_toJson
    · rw [if_neg fits]
      exact .unreadable (by omega)

/-- One call is answered alike, and leaves rows that are again those of the conversations. -/
theorem respond_alike (mirror : Row.Mirror conversations rows) (call : Call)
    (held : ∀ c, call = .put c → c.Held) :
    ∃ conversations' rows', Row.Mirror conversations' rows' ∧
      (respond ⟨.memory conversations, [], []⟩ call).2 = ⟨.memory conversations', [], []⟩ ∧
      (respond ⟨.table rows, [], []⟩ call).2 = ⟨.table rows', [], []⟩ ∧
      Answer.Alike (respond ⟨.memory conversations, [], []⟩ call).1
        (respond ⟨.table rows, [], []⟩ call).1 := by
  cases call with
  | put c => exact ⟨_, _, mirror.put (held c rfl), rfl, rfl, .put⟩
  | get id => exact ⟨_, _, mirror, rfl, rfl, get_alike mirror id⟩
  | delete id =>
    have existed : (rows.any fun r => r.id = id) = conversations.has id := by
      rw [Bool.eq_iff_iff, mirror.has_iff id]
      simp
    refine ⟨_, _, mirror.delete id, rfl, rfl, ?_⟩
    simp only [respond, Backing.delete, existed]
    exact .delete _
  | list => exact ⟨_, _, mirror, rfl, rfl, .list mirror.list_perm⟩

theorem answers_mirrored (mirror : Row.Mirror conversations rows) (calls : List Call)
    (held : ∀ c, .put c ∈ calls → c.Held) :
    List.Forall₂ Answer.Alike (answers ⟨.memory conversations, [], []⟩ calls)
      (answers ⟨.table rows, [], []⟩ calls) := by
  induction calls generalizing conversations rows with
  | nil => exact .nil
  | cons call rest ih =>
    obtain ⟨conversations', rows', mirror', kept, kept', alike⟩ :=
      respond_alike mirror call fun c same => held c (by rw [same]; exact List.mem_cons_self)
    rw [answers, answers, kept, kept']
    exact .cons alike (ih mirror' fun c member => held c (List.mem_cons_of_mem _ member))

end Mirrored

/-! ## A conversation that nests too deeply -/

/-- A conversation is put, looked for, listed, deleted and looked for again. -/
def lifetime (c : Conversation) : List Call :=
  [.put c, .get c.id, .list, .delete c.id, .get c.id]

/-- A conversation that nests too deeply is listed and deleted, and cannot be read in between. -/
theorem table_answers_deep {c : Conversation} (held : c.Held)
    (deep : textLevels < c.toJson.depth) :
    table.answers (lifetime c) =
      [.put (.ok ()), .get (.error (.document .malformed)), .list [c.id], .delete true,
        .get (.ok none)] := by
  have read : Conversation.read.ofText (Row.ofConversation c).document = .error .malformed :=
    (Conversation.read_written held).trans (if_neg (by omega))
  have id : (Row.ofConversation c).id = c.id := rfl
  simp [lifetime, answers, respond, table, put, get, takeRefusal, Backing.put, Backing.get,
    Backing.list, Backing.delete, Row.put, Row.newestFirst, id, read]

/-- A list within a list, so many times. -/
def nested : Nat → Json
  | 0 => .null
  | n + 1 => .array [nested n]

theorem held_nested (n : Nat) : (nested n).Held := by
  induction n with
  | zero => trivial
  | succ n ih => exact ⟨ih, trivial⟩

theorem depth_nested (n : Nat) : (nested n).depth = n := by
  induction n with
  | zero => rfl
  | succ n ih => simp [nested, Json.depth, Json.depthItems, ih]

/-- A conversation with a value that nests so deeply. -/
def nesting (n : Nat) : Conversation :=
  { Conversation.fresh "c" "f" (.ofNanos 0) with values := (∅ : Table Json).insert "v" (nested n) }

theorem held_nesting (n : Nat) : (nesting n).Held where
  value := by
    have keys : ((nesting n).members.map (·.1)).Pairwise (· < ·) := by
      have fixed : (nesting n).members.map (·.1) = (nesting 0).members.map (·.1) := rfl
      rw [fixed]
      decide
    have values : (Json.object (nesting n).values.entries).Held :=
      ⟨List.pairwise_singleton _ _, held_nested n, trivial⟩
    have members : Json.HeldMembers (nesting n).members := by
      simpa [Conversation.members, Conversation.membersBeforeTrace,
        Conversation.membersAfterTrace, Json.HeldMembers, Json.Held, Json.HeldItems, nesting,
        Conversation.fresh, Json.ofText?, Json.ofNat, Json.Number.Held, Instant.toJson] using values
    exact ⟨List.pairwise_map.1 keys, members⟩
  created := by
    show Instant.yearInRange (Instant.ofNanos 0).year = true
    decide
  updated := by
    show Instant.yearInRange (Instant.ofNanos 0).year = true
    decide
  messages := nofun
  trace := nofun

theorem depth_nesting (n : Nat) : (nesting n).toJson.depth = n + 2 := by
  have values : (Json.object (nesting n).values.entries).depth = n + 1 := by
    simp [nesting, Table.insert, Table.place, Json.depth, Json.depthMembers, depth_nested]
  simpa [Conversation.toJson, Conversation.membersBeforeTrace, Conversation.membersAfterTrace,
    Json.depth, Json.depthMembers, Json.depthItems, nesting, Conversation.fresh,
    Instant.toJson] using values

/-! ## Equivalence -/

/-- Whatever is asked of two new stores, one of conversations and one of rows, they answer alike. -/
theorem answers_alike (calls : List Call) (held : ∀ c, .put c ∈ calls → c.Held) :
    List.Forall₂ Answer.Alike (memory.answers calls) (table.answers calls) :=
  answers_mirrored .empty calls held

theorem answers_alike_deep :
    (∀ c, .put c ∈ lifetime (nesting 126) → c.Held) ∧
      List.Forall₂ Answer.Alike (memory.answers (lifetime (nesting 126)))
        (table.answers (lifetime (nesting 126))) ∧
      table.answers (lifetime (nesting 126)) =
        [.put (.ok ()), .get (.error (.document .malformed)), .list ["c"], .delete true,
          .get (.ok none)] := by
  have held : ∀ c, .put c ∈ lifetime (nesting 126) → c.Held := by
    intro c member
    obtain rfl : c = nesting 126 := by simpa [lifetime] using member
    exact held_nesting 126
  have deep : textLevels < (nesting 126).toJson.depth := by
    rw [depth_nesting]
    decide
  exact ⟨held, answers_alike _ held, table_answers_deep (held_nesting 126) deep⟩

end Store

end DialogueEngine
