import DialogueEngine.Proofs.Instant.Order
import DialogueEngine.Proofs.Store.Equivalence

/-!
Rows listed from the newest to the oldest. After any calls the rows are those of the conversations
that were the last to be put under their ids and have not been deleted since; listing sorts them by
the texts of their times, and as these compare as the times do, a conversation that changed later is
listed before one that changed earlier.
-/

namespace DialogueEngine

open Text (bytes)

/-! ## Calls -/

namespace Store

/-- A store after calls that are made one after another. -/
def after (s : Store) : List Call → Store
  | [] => s
  | call :: rest => (s.respond call).2.after rest

/-- A call that puts or deletes what is kept under an id. -/
def Call.Concerns (id : String) : Call → Prop
  | .put c => c.id = id
  | .delete other => other = id
  | .get _ | .list => False

instance (id : String) : DecidablePred (Call.Concerns id)
  | .put c => inferInstanceAs (Decidable (c.id = id))
  | .delete other => inferInstanceAs (Decidable (other = id))
  | .get _ | .list => inferInstanceAs (Decidable False)

/-- A conversation was put by the last call that concerns its id. -/
def LastPut (calls : List Call) (c : Conversation) : Prop :=
  ∃ earlier later, calls = earlier ++ .put c :: later ∧ ∀ call ∈ later, ¬ call.Concerns c.id

theorem LastPut.mem {calls : List Call} {c : Conversation} (last : LastPut calls c) :
    .put c ∈ calls := by
  obtain ⟨earlier, later, rfl, -⟩ := last
  exact List.mem_append_right _ List.mem_cons_self

theorem lastPut_nil (c : Conversation) : ¬ LastPut [] c := by
  rintro ⟨earlier, later, none, -⟩
  exact absurd none (by simp)

/-- One more call puts a conversation itself, or leaves it as the last one where it concerns another
id. -/
theorem lastPut_append {calls : List Call} {call : Call} {c : Conversation} :
    LastPut (calls ++ [call]) c ↔ call = .put c ∨ LastPut calls c ∧ ¬ call.Concerns c.id := by
  constructor
  · rintro ⟨earlier, later, same, untouched⟩
    rcases List.eq_nil_or_concat later with rfl | ⟨middle, final, rfl⟩
    · obtain ⟨-, rest⟩ := List.append_inj' same rfl
      exact .inl (List.head_eq_of_cons_eq rest)
    · rw [List.concat_eq_append] at same untouched
      have split : calls ++ [call] = (earlier ++ .put c :: middle) ++ [final] := by
        rw [same, List.append_assoc, List.cons_append]
      obtain ⟨rfl, rest⟩ := List.append_inj' split rfl
      obtain rfl : call = final := List.head_eq_of_cons_eq rest
      exact .inr ⟨⟨earlier, middle, rfl, fun other member =>
        untouched other (List.mem_append_left _ member)⟩, untouched call (by simp)⟩
  · rintro (rfl | ⟨⟨earlier, later, rfl, untouched⟩, apart⟩)
    · exact ⟨calls, [], rfl, fun _ member => absurd member List.not_mem_nil⟩
    · refine ⟨earlier, later ++ [call], by simp, fun other member => ?_⟩
      rcases List.mem_append.1 member with before | final
      · exact untouched other before
      · rwa [List.mem_singleton.1 final]

end Store

/-! ## Rows -/

open Store (Call LastPut lastPut_nil lastPut_append)

namespace Row

theorem mem_put {row row' : Row} {rows : List Row} (distinct : (rows.map (·.id)).Nodup) :
    row' ∈ put row rows ↔ row' = row ∨ row' ∈ rows ∧ row'.id ≠ row.id := by
  induction rows with
  | nil => simp [put]
  | cons r rest ih =>
    obtain ⟨fresh, distinct⟩ := List.nodup_cons.1 distinct
    by_cases same : r.id = row.id
    · have others : ∀ r' ∈ rest, r'.id ≠ row.id := fun r' member own =>
        fresh (List.mem_map.2 ⟨r', member, own.trans same.symm⟩)
      rw [put, if_pos same, List.mem_cons, List.mem_cons]
      constructor
      · exact Or.imp_right fun member => ⟨.inr member, others row' member⟩
      · rintro (new | ⟨rfl | member, other⟩)
        · exact .inl new
        · exact absurd same other
        · exact .inr member
    · rw [put, if_neg same, List.mem_cons, List.mem_cons, ih distinct]
      constructor
      · rintro (rfl | new | ⟨member, other⟩)
        · exact .inr ⟨.inl rfl, same⟩
        · exact .inl new
        · exact .inr ⟨.inr member, other⟩
      · rintro (new | ⟨rfl | member, other⟩)
        · exact .inr (.inl new)
        · exact .inl rfl
        · exact .inr (.inr ⟨member, other⟩)

/-- Rows are those of the conversations put last, one for each id. -/
structure Latest (calls : List Call) (rows : List Row) : Prop where
  distinct : (rows.map (·.id)).Nodup
  mem_iff (row : Row) : row ∈ rows ↔ ∃ c, LastPut calls c ∧ row = .ofConversation c

namespace Latest

variable {calls : List Call} {rows : List Row}

theorem empty : Latest [] [] where
  distinct := List.nodup_nil
  mem_iff _ := ⟨nofun, fun ⟨c, last, _⟩ => absurd last (lastPut_nil c)⟩

theorem put (latest : Latest calls rows) (c : Conversation) :
    Latest (calls ++ [.put c]) (Row.put (.ofConversation c) rows) where
  distinct := distinct_put latest.distinct _
  mem_iff row := by
    rw [mem_put latest.distinct, latest.mem_iff]
    constructor
    · rintro (rfl | ⟨⟨c', last, rfl⟩, other⟩)
      · exact ⟨c, lastPut_append.2 (.inl rfl), rfl⟩
      · exact ⟨c', lastPut_append.2 (.inr ⟨last, Ne.symm other⟩), rfl⟩
    · rintro ⟨c', last, rfl⟩
      rcases lastPut_append.1 last with same | ⟨last, other⟩
      · cases same
        exact .inl rfl
      · exact .inr ⟨⟨c', last, rfl⟩, Ne.symm other⟩

theorem delete (latest : Latest calls rows) (id : String) :
    Latest (calls ++ [.delete id]) (rows.filter fun r => r.id != id) where
  distinct := distinct_delete latest.distinct id
  mem_iff row := by
    rw [List.mem_filter, latest.mem_iff, bne_iff_ne]
    constructor
    · rintro ⟨⟨c, last, rfl⟩, other⟩
      exact ⟨c, lastPut_append.2 (.inr ⟨last, Ne.symm other⟩), rfl⟩
    · rintro ⟨c, last, rfl⟩
      obtain ⟨last, other⟩ := (lastPut_append.1 last).resolve_left nofun
      exact ⟨⟨c, last, rfl⟩, Ne.symm other⟩

/-- What neither puts nor deletes leaves the rows as they are. -/
theorem idle (latest : Latest calls rows) {call : Call} (idle : ∀ id, ¬ call.Concerns id) :
    Latest (calls ++ [call]) rows where
  distinct := latest.distinct
  mem_iff row := by
    rw [latest.mem_iff]
    refine exists_congr fun c => and_congr_left fun _ => ?_
    rw [lastPut_append]
    constructor
    · exact fun last => .inr ⟨last, idle c.id⟩
    · rintro (rfl | ⟨last, -⟩)
      · exact absurd rfl (idle c.id)
      · exact last

/-- One call leaves the rows of the conversations put last. -/
theorem respond (latest : Latest calls rows) (call : Call) :
    ∃ rows', (Store.respond ⟨.table rows, [], []⟩ call).2 = ⟨.table rows', [], []⟩ ∧
      Latest (calls ++ [call]) rows' := by
  cases call with
  | put c => exact ⟨_, rfl, latest.put c⟩
  | get id => exact ⟨_, rfl, latest.idle fun _ concerned => concerned⟩
  | delete id => exact ⟨_, rfl, latest.delete id⟩
  | list => exact ⟨_, rfl, latest.idle fun _ concerned => concerned⟩

theorem after (latest : Latest calls rows) (more : List Call) :
    ∃ rows', Store.after ⟨.table rows, [], []⟩ more = ⟨.table rows', [], []⟩ ∧
      Latest (calls ++ more) rows' := by
  induction more generalizing calls rows with
  | nil => exact ⟨rows, rfl, by rwa [List.append_nil]⟩
  | cons call rest ih =>
    obtain ⟨between, kept, latest⟩ := latest.respond call
    obtain ⟨rows', done, latest⟩ := ih latest
    rw [Store.after, kept]
    exact ⟨rows', done, by rwa [List.append_assoc] at latest⟩

theorem ids_nodup (latest : Latest calls rows) : ((newestFirst rows).map (·.id)).Nodup :=
  ((newestFirst_perm rows).map _).nodup_iff.2 latest.distinct

theorem mem_ids (latest : Latest calls rows) (id : String) :
    id ∈ (newestFirst rows).map (·.id) ↔ ∃ c, LastPut calls c ∧ c.id = id := by
  rw [((newestFirst_perm rows).map _).mem_iff, List.mem_map]
  constructor
  · rintro ⟨row, member, rfl⟩
    obtain ⟨c, last, rfl⟩ := (latest.mem_iff row).1 member
    exact ⟨c, last, rfl⟩
  · rintro ⟨c, last, rfl⟩
    exact ⟨.ofConversation c, (latest.mem_iff _).2 ⟨c, last, rfl⟩, rfl⟩

end Latest

/-! ## Order -/

theorem newestFirst_sorted (rows : List Row) :
    (newestFirst rows).Pairwise fun a b => b.updatedAt ≤ a.updatedAt := by
  have transitive (a b c : Row) (first : decide (b.updatedAt ≤ a.updatedAt) = true)
      (second : decide (c.updatedAt ≤ b.updatedAt) = true) :
      decide (c.updatedAt ≤ a.updatedAt) = true :=
    decide_eq_true (String.le_trans (of_decide_eq_true second) (of_decide_eq_true first))
  have total (a b : Row) :
      (decide (b.updatedAt ≤ a.updatedAt) || decide (a.updatedAt ≤ b.updatedAt)) = true := by
    simpa using String.le_total b.updatedAt a.updatedAt
  exact (List.pairwise_mergeSort transitive total rows).imp of_decide_eq_true

/-- Of two rows the one with the greater time is listed first. -/
theorem newestFirst_pair {rows : List Row} {a b : Row} (first : a ∈ rows) (second : b ∈ rows)
    (less : b.updatedAt < a.updatedAt) : [a, b].Sublist (newestFirst rows) := by
  have perm := newestFirst_perm rows
  have sorted := newestFirst_sorted rows
  obtain ⟨front, behind, split⟩ := List.append_of_mem (perm.mem_iff.2 first)
  have member := perm.mem_iff.2 second
  rw [split] at member sorted ⊢
  rcases List.mem_append.1 member with before | after
  · have order := (List.pairwise_append.1 sorted).2.2 b before a List.mem_cons_self
    exact absurd less (String.not_lt.2 order)
  · rcases List.mem_cons.1 after with rfl | after
    · exact absurd less (String.lt_irrefl _)
    · exact ((List.singleton_sublist.2 after).cons_cons a).trans (List.sublist_append_right _ _)

end Row

/-! ## Listing -/

namespace Store

/-- Rows and listed ids after calls: each id that is stored is listed once, the newest first, and
the rows hold the times as texts whose bytes compare as the times do. -/
structure NewestFirst (calls : List Call) (rows : List Row) (ids : List String) : Prop where
  once : ids.Nodup
  stored (id : String) : id ∈ ids ↔ ∃ c, LastPut calls c ∧ c.id = id
  stamped {c : Conversation} (last : LastPut calls c) :
    ∃ row ∈ rows, row.id = c.id ∧ row.updatedAt = c.updatedAt.rowText ∧
      c.updatedAt.Stamps row.updatedAt
  compared {c c' : Conversation} (last : LastPut calls c) (last' : LastPut calls c') :
    bytes c.updatedAt.rowText < bytes c'.updatedAt.rowText ↔ c.updatedAt.before c'.updatedAt = true
  newest {c c' : Conversation} (last : LastPut calls c) (last' : LastPut calls c')
    (later : c'.updatedAt.before c.updatedAt = true) : [c.id, c'.id].Sublist ids

/-- A conversation that last changed at an instant. -/
def changedAt (id : String) (t : Instant) : Conversation :=
  { Conversation.fresh id "f" (.ofNanos 0) with updatedAt := t }

/-- Conversations that change at the end of a year with a leap second: a nanosecond before that
second, within it, and behind it, where the one that changes last had been put in 1970. One that
changes later still is deleted. -/
def turnOfYear : List Call :=
  [.put (changedAt "behind" (.ofNanos 0)),
    .put (changedAt "before" ⟨1483228799, 999999999, by decide⟩),
    .put (changedAt "gone" ⟨1483228801, 0, by decide⟩),
    .put (changedAt "behind" ⟨1483228800, 0, by decide⟩),
    .delete "gone",
    .put (changedAt "within" ⟨1483228799, 1500000000, by decide⟩)]

end Store

end DialogueEngine
