import DialogueEngine.Proofs.Conversation.Recall

/-!
What a store keeps under an id. A conversation is kept as it is or as a row of text; either way what
is kept tells what reading the id gives, and whether the conversation is cancelled can be told of it
even where its document cannot be read.
-/

namespace DialogueEngine

/-! ## Rows -/

/-- A document begins with whether its conversation is cancelled. -/
theorem Row.cancelled_of_eq {c c' : Conversation}
    (same : Row.ofConversation c = Row.ofConversation c') : c.cancelled = c'.cancelled := by
  have written : c.toJson.write = c'.toJson.write := (congrArg Row.document same :)
  have chars : c.toJson.chars = c'.toJson.chars := String.ofList_inj.1 written
  have documents := (Json.document_chars c.toJson).symm.trans
    (chars ▸ Json.document_chars c'.toJson)
  have members : c.toJson.scanned = c'.toJson.scanned := (congrArg Json.Document.root documents :)
  simp only [Conversation.toJson, Conversation.membersBeforeTrace, List.cons_append, Json.scanned,
    Json.scannedMembers, Json.Source.object.injEq, List.cons.injEq, Prod.mk.injEq,
    Json.Source.bool.injEq] at members
  exact members.1.1.2

/-! ## Entries -/

namespace Backing

/-- What is kept under an id: a conversation itself or its row. -/
def entry (id : String) : Backing → Option (Conversation ⊕ Row)
  | .memory conversations => (conversations.get? id).map .inl
  | .table rows => (rows.find? fun r => r.id = id).map .inr

theorem get_of_entry {b b' : Backing} {id : String} (same : b'.entry id = b.entry id) :
    b'.get id = b.get id := by
  cases b with
  | memory conversations =>
    cases b' with
    | memory conversations' =>
      have found : conversations'.get? id = conversations.get? id :=
        Option.map_injective Sum.inl_injective same
      rw [get, get, found]
    | table rows =>
      cases kept : conversations.get? id <;> cases row : rows.find? (fun r => r.id = id) <;>
        simp [entry, kept, row] at same
      simp [get, kept, row]
  | table rows =>
    cases b' with
    | memory conversations =>
      cases kept : conversations.get? id <;> cases row : rows.find? (fun r => r.id = id) <;>
        simp [entry, kept, row] at same
      simp [get, kept, row]
    | table rows' =>
      have found : (rows'.find? fun r => r.id = id) = rows.find? fun r => r.id = id :=
        Option.map_injective Sum.inr_injective same
      rw [get, get, found]

/-- Nothing is kept under an id at which nothing is found. -/
theorem entry_eq_none {b : Backing} {id : String} (missing : b.get id = .ok none) :
    b.entry id = none := by
  cases b with
  | memory conversations => simpa [get, entry] using missing
  | table rows =>
    cases row : rows.find? fun r => r.id = id with
    | none => simp [entry, row]
    | some r =>
      cases read : Conversation.read.ofText r.document <;> simp [get, row, read] at missing

theorem entry_put_other {c : Conversation} {id : String} (other : c.id ≠ id) (b : Backing) :
    (b.put c).entry id = b.entry id := by
  cases b with
  | memory conversations => rw [put, entry, Table.get?_insert, if_neg other, entry]
  | table rows =>
    have named : (Row.ofConversation c).id ≠ id := other
    rw [put, entry, Row.find?_put, if_neg named, entry]

end Backing

namespace Store

variable {s s' s'' : Store} {c c' : Conversation} {id : String}

/-- What is kept under the id of a conversation was written from it. -/
def Keeps (c : Conversation) (s : Store) : Prop :=
  s.backing.entry c.id = some (.inl c) ∨ s.backing.entry c.id = some (.inr (.ofConversation c))

theorem Keeps.congr (same : s'.backing.entry c.id = s.backing.entry c.id) (keeps : s.Keeps c) :
    s'.Keeps c := by
  rwa [Keeps, same]

theorem Keeps.isSome (keeps : s.Keeps c) : (s.backing.entry c.id).isSome :=
  keeps.elim Option.isSome_of_eq_some Option.isSome_of_eq_some

/-- What is read is what was written, or was read of its written form. -/
theorem Keeps.read (keeps : s.Keeps c) (found : s.backing.get c.id = .ok (some c')) :
    c' = c ∨ Conversation.read.ofText c.toJson.write = .ok c' := by
  cases kept : s.backing with
  | memory conversations =>
    rw [Keeps, kept] at keeps
    have held : conversations.get? c.id = some c := by simpa [Backing.entry] using keeps
    obtain rfl : c = c' := by simpa [kept, Backing.get, held] using found
    exact .inl rfl
  | table rows =>
    rw [Keeps, kept] at keeps
    have row : (rows.find? fun r => r.id = c.id) = some (.ofConversation c) := by
      simpa [Backing.entry] using keeps
    rw [kept, Backing.get, row] at found
    cases read : Conversation.read.ofText (Row.ofConversation c).document with
    | error fault => simp [read] at found
    | ok back =>
      obtain rfl : back = c' := by simpa [read] using found
      exact .inr read

/-- What holds of what was written and survives being written down holds of what is read. -/
theorem Keeps.holds {P : Conversation → Prop} (keeps : s.Keeps c) (durable : Conversation.Durable P)
    (holds : P c) (found : s.backing.get c.id = .ok (some c')) : P c' := by
  rcases keeps.read found with rfl | read
  · exact holds
  · exact durable c c' holds read

/-- What is read agrees with what was written. -/
theorem Keeps.bare (keeps : s.Keeps c) (found : s.backing.get c.id = .ok (some c')) :
    c'.bare = c.bare := by
  rcases keeps.read found with rfl | read
  · rfl
  · rw [Json.Reader.ofText_write] at read
    exact Conversation.bare_of_read read

/-- A store of the conversations themselves gives back what was written. -/
theorem Keeps.get_of_whole (keeps : s.Keeps c) (whole : s.KeepsWhole) :
    s.backing.get c.id = .ok (some c) := by
  obtain ⟨conversations, memory⟩ := whole
  rw [Keeps, memory] at keeps
  have held : conversations.get? c.id = some c := by simpa [Backing.entry] using keeps
  rw [memory, Backing.get, held]

theorem Keeps.cancelled_eq (keeps : s.Keeps c) (keeps' : s.Keeps c') (same : c.id = c'.id) :
    c.cancelled = c'.cancelled := by
  rw [Keeps, ← same] at keeps'
  rcases keeps with itself | row <;> rcases keeps' with itself' | row'
  · have equal := itself.symm.trans itself'
    simp only [Option.some.injEq, Sum.inl.injEq] at equal
    rw [equal]
  · exact absurd (itself.symm.trans row') (by simp)
  · exact absurd (row.symm.trans itself') (by simp)
  · have equal := row.symm.trans row'
    simp only [Option.some.injEq, Sum.inr.injEq] at equal
    exact Row.cancelled_of_eq equal

/-! ## Writing -/

/-- The plan of a store is what is left of the plan of another, and what has been used of that has
refused a write. -/
def Refused (s s' : Store) : Prop :=
  ∃ used, s.writeRefusals = used ++ s'.writeRefusals ∧ true ∈ used

theorem Refused.later (refused : Refused s s') (rest : s''.writeRefusals <:+ s'.writeRefusals) :
    Refused s s'' := by
  obtain ⟨used, planned, inside⟩ := refused
  obtain ⟨more, left⟩ := rest
  exact ⟨used ++ more, by rw [planned, ← left, List.append_assoc],
    List.mem_append_left more inside⟩

theorem Refused.earlier (rest : s'.writeRefusals <:+ s.writeRefusals) (refused : Refused s' s'') :
    Refused s s'' := by
  obtain ⟨used, planned, inside⟩ := refused
  obtain ⟨more, left⟩ := rest
  exact ⟨more ++ used, by rw [← left, planned, List.append_assoc],
    List.mem_append_right more inside⟩

theorem Accepts.not_refused (accepts : s.Accepts) : ¬ Refused s s' := by
  rintro ⟨used, planned, inside⟩
  have kept := accepts true (by rw [planned]; exact List.mem_append_left _ inside)
  cases kept

theorem put_plan (c : Conversation) (s : Store) :
    (s.put c).2.writeRefusals <:+ s.writeRefusals := by
  cases plan : s.writeRefusals with
  | nil => simp [put, plan, takeRefusal]
  | cons refused later => cases refused <;> simp [put, plan, takeRefusal]

/-- A write succeeds, or it is refused and leaves everything as it was. -/
theorem put_cases (c : Conversation) (s : Store) :
    ((s.put c).1 = .ok () ∧ (s.put c).2.Keeps c) ∨
      ((∃ f, (s.put c).1 = .error f) ∧ Refused s (s.put c).2 ∧
        (s.put c).2.backing = s.backing) := by
  have kept (plan : List Bool) :
      Keeps c { s with backing := s.backing.put c, writeRefusals := plan } := by
    cases held : s.backing with
    | memory conversations => simp [Keeps, Backing.entry, Backing.put]
    | table rows =>
      have named : (Row.ofConversation c).id = c.id := rfl
      simp [Keeps, Backing.entry, Backing.put, Row.find?_put, named]
  cases plan : s.writeRefusals with
  | nil => exact .inl (by simpa [put, plan, takeRefusal] using kept [])
  | cons refused later =>
    cases refused with
    | true =>
      have used : Refused s { s with writeRefusals := later } :=
        ⟨[true], plan, List.mem_cons_self⟩
      exact .inr (by simpa [put, plan, takeRefusal] using used)
    | false => exact .inl (by simpa [put, plan, takeRefusal] using kept later)

theorem keeps_of_put (written : (s.put c).1 = .ok ()) : (s.put c).2.Keeps c := by
  rcases put_cases c s with ⟨-, kept⟩ | ⟨⟨f, refused⟩, -⟩
  · exact kept
  · rw [refused] at written
    cases written

theorem refused_of_put {f : Failure} (refused : (s.put c).1 = .error f) :
    Refused s (s.put c).2 ∧ (s.put c).2.backing = s.backing := by
  rcases put_cases c s with ⟨written, -⟩ | ⟨-, used, same⟩
  · rw [refused] at written
    cases written
  · exact ⟨used, same⟩

/-- A write is refused where the plan says so next. -/
theorem next_of_refused {f : Failure} (refused : (s.put c).1 = .error f) :
    s.writeRefusals.head? = some true := by
  cases plan : s.writeRefusals with
  | nil => simp [put, plan, takeRefusal] at refused
  | cons next later =>
    cases next with
    | true => rfl
    | false => simp [put, plan, takeRefusal] at refused

/-- Whether a write is refused depends on the plan alone. -/
theorem put_fst_of_plan (same : s'.writeRefusals = s.writeRefusals) (c : Conversation) :
    (s'.put c).1 = (s.put c).1 := by
  cases plan : s.writeRefusals with
  | nil => simp [put, takeRefusal, same, plan]
  | cons refused later => cases refused <;> simp [put, takeRefusal, same, plan]

theorem entry_put_other (other : c.id ≠ id) (s : Store) :
    (s.put c).2.backing.entry id = s.backing.entry id := by
  simp only [put]
  split
  · rfl
  · exact Backing.entry_put_other other s.backing

/-! ## Soundness -/

/-- Everything that can be read was written under its own id, which is not blank. -/
def Sound (s : Store) : Prop :=
  ∀ id c, s.backing.get id = .ok (some c) → Text.isBlankText id = false ∧
    ∃ c₀, s.Keeps c₀ ∧ c₀.id = id ∧ c.bare = c₀.bare

theorem IsNew.sound (new : s.IsNew) : s.Sound := by
  intro id c found
  rcases new with memory | table
  · exact absurd found (by simp [memory, Backing.get])
  · exact absurd found (by simp [table, Backing.get])

theorem Sound.id_eq {id : String} (sound : s.Sound)
    (found : s.backing.get id = .ok (some c)) : c.id = id := by
  obtain ⟨-, c₀, -, named, same⟩ := sound id c found
  have own : c.id = c₀.id := (congrArg Conversation.id same :)
  exact own.trans named

theorem Sound.of_backing (sound : s.Sound) (same : s'.backing = s.backing) : s'.Sound := by
  intro id c found
  rw [same] at found
  obtain ⟨named, c₀, kept, agrees⟩ := sound id c found
  exact ⟨named, c₀, kept.congr (by rw [same]), agrees⟩

theorem Sound.put (sound : s.Sound) (named : Text.isBlankText c.id = false) :
    (s.put c).2.Sound := by
  rcases put_cases c s with ⟨-, kept⟩ | ⟨-, -, same⟩
  · intro id c' found
    by_cases own : c.id = id
    · subst own
      exact ⟨named, c, kept, rfl, kept.bare found⟩
    · have entry := entry_put_other own s
      rw [Backing.get_of_entry entry] at found
      obtain ⟨named', c₀, kept', rfl, agrees⟩ := sound id c' found
      exact ⟨named', c₀, kept'.congr entry, rfl, agrees⟩
  · exact sound.of_backing same

/-! ## What is kept of a conversation -/

/-- A conversation is kept as one that is cancelled. -/
def Cancelled (id : String) (s : Store) : Prop := ∃ c, c.id = id ∧ s.Keeps c ∧ c.cancelled = true

theorem Keeps.cancelled_iff (keeps : s.Keeps c) : s.Cancelled c.id ↔ c.cancelled = true := by
  constructor
  · rintro ⟨c', same, keeps', cancelled⟩
    exact (keeps.cancelled_eq keeps' same.symm).trans cancelled
  · exact fun cancelled => ⟨c, rfl, keeps, cancelled⟩

theorem Cancelled.isSome (cancelled : s.Cancelled id) : (s.backing.entry id).isSome := by
  obtain ⟨c, rfl, keeps, -⟩ := cancelled
  exact keeps.isSome

theorem Cancelled.congr (same : s'.backing.entry id = s.backing.entry id)
    (cancelled : s.Cancelled id) : s'.Cancelled id := by
  obtain ⟨c, rfl, keeps, holds⟩ := cancelled
  exact ⟨c, rfl, keeps.congr same, holds⟩

/-- What is read of a cancelled conversation is cancelled. -/
theorem Cancelled.of_get (cancelled : s.Cancelled id) (found : s.backing.get id = .ok (some c)) :
    c.cancelled = true := by
  obtain ⟨c₀, rfl, keeps, holds⟩ := cancelled
  have same : c.cancelled = c₀.cancelled :=
    (congrArg Conversation.cancelled (keeps.bare found) :)
  exact same.trans holds

/-- A call is pending in a conversation that can be read. -/
def Awaits (call id : String) (s : Store) : Prop :=
  ∃ c, s.backing.get id = .ok (some c) ∧ call ∈ c.pending.map (·.id)

theorem Awaits.congr {call : String} (same : s'.backing.entry id = s.backing.entry id)
    (awaits : s.Awaits call id) : s'.Awaits call id := by
  obtain ⟨c, found, pending⟩ := awaits
  exact ⟨c, (Backing.get_of_entry same).trans found, pending⟩

theorem Keeps.pending_of_awaits {call : String} (keeps : s.Keeps c)
    (awaits : s.Awaits call c.id) : call ∈ c.pending.map (·.id) := by
  obtain ⟨c', found, pending⟩ := awaits
  rwa [Conversation.pending_ids_of_bare (keeps.bare found)] at pending

/-! ## Stores to rely on -/

end Store

/-- A store that neither fails nor alters a conversation that is `regular`. -/
structure Store.Dependable (regular : Conversation → Prop) (s : Store) : Prop where
  reads : s.readRefusals = []
  writes : s.writeRefusals = []
  returns (c : Conversation) (fits : regular c) : s.Returns c

namespace Store.Dependable

variable {regular : Conversation → Prop} {s : Store} (dependable : s.Dependable regular)
include dependable

theorem put (c : Conversation) : (s.put c).2 = { s with backing := s.backing.put c } := by
  simp [Store.put, Store.takeRefusal, dependable.writes]

theorem get (id : String) : s.get id = (s.backing.get id, s) := by
  obtain ⟨reads, -, -⟩ := dependable
  cases s with
  | mk backing readRefusals writeRefusals =>
    subst reads
    rfl

omit dependable in
/-- What is put is given back, and what is kept under other ids stays. -/
theorem backing_get_put (dependable : s.Dependable fun _ => True) (c : Conversation) (id : String) :
    (s.backing.put c).get id = if c.id = id then .ok (some c) else s.backing.get id := by
  by_cases same : c.id = id
  · rw [if_pos same, ← same]
    exact dependable.returns c trivial
  · rw [if_neg same]
    exact Backing.get_of_entry (Backing.entry_put_other same s.backing)

theorem of_put (c : Conversation) :
    ({ s with backing := s.backing.put c } : Store).Dependable regular where
  reads := dependable.reads
  writes := dependable.writes
  returns other fits := by
    rw [Returns, backing_get_put_put]
    exact dependable.returns other fits

end Store.Dependable

end DialogueEngine
