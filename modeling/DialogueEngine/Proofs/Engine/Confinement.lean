import DialogueEngine.Proofs.Engine.Custody
import DialogueEngine.Proofs.Engine.Stillness

/-!
What is done about one conversation is confined to it. What is stored of any other, whether it is
claimed or to be cancelled and where its trace is looked at stay exactly as they are; and what is
stored of the conversation itself stays, or becomes one that satisfies some condition.
-/

namespace DialogueEngine

namespace Situation

variable {id : String} {P P' : Conversation → Prop} {c : Conversation} {s s' s'' : Situation}

/-- A conversation is, in all that is kept of it, exactly as it was. -/
structure Rests (id : String) (s s' : Situation) : Prop where
  entry : s'.store.backing.entry id = s.store.backing.entry id
  claimed : id ∈ s'.claimed ↔ id ∈ s.claimed
  requested : id ∈ s'.cancelRequests ↔ id ∈ s.cancelRequests
  cursor : s'.cursors.get? id = s.cursors.get? id

theorem Rests.trans (first : Rests id s s') (second : Rests id s' s'') : Rests id s s'' where
  entry := second.entry.trans first.entry
  claimed := second.claimed.trans first.claimed
  requested := second.requested.trans first.requested
  cursor := second.cursor.trans first.cursor

/-- Nothing changes but events, the clock and the plan of reads. -/
structure Idle (s s' : Situation) : Prop where
  settings : s'.settings = s.settings
  flows : s'.flows = s.flows
  backing : s'.store.backing = s.store.backing
  claimed : s'.claimed = s.claimed
  requests : s'.cancelRequests = s.cancelRequests
  cursors : s'.cursors = s.cursors

theorem Idle.refl (s : Situation) : Idle s s := ⟨rfl, rfl, rfl, rfl, rfl, rfl⟩

theorem Idle.trans (first : Idle s s') (second : Idle s' s'') : Idle s s'' where
  settings := second.settings.trans first.settings
  flows := second.flows.trans first.flows
  backing := second.backing.trans first.backing
  claimed := second.claimed.trans first.claimed
  requests := second.requests.trans first.requests
  cursors := second.cursors.trans first.cursors

theorem still_idle : Still Idle where
  refl := .refl
  trans := .trans
  published := fun _ _ _ => ⟨rfl, rfl, rfl, rfl, rfl, rfl⟩
  ticked := fun _ => ⟨rfl, rfl, rfl, rfl, rfl, rfl⟩

theorem Idle.rests (idle : Idle s s') (id : String) : Rests id s s' where
  entry := by rw [idle.backing]
  claimed := by rw [idle.claimed]
  requested := by rw [idle.requests]
  cursor := by rw [idle.cursors]

/-- What is stored of a conversation is what was stored of it, or one that satisfies a condition. -/
def Renews (id : String) (P : Conversation → Prop) (s s' : Situation) : Prop :=
  s'.store.backing.entry id = s.store.backing.entry id ∨
    ∃ c, c.id = id ∧ s'.store.Keeps c ∧ P c

theorem Renews.trans (first : Renews id P s s') (second : Renews id P' s' s'')
    (more : ∀ c, P c → P' c) : Renews id P' s s'' := by
  rcases second with same | written
  · rcases first with same' | ⟨c, rfl, kept, holds⟩
    · exact .inl (same.trans same')
    · exact .inr ⟨c, rfl, kept.congr same, more c holds⟩
  · exact .inr written

/-- What is done is confined to one conversation; if another one is stored in its place, that
satisfies a condition. -/
structure Confines (id : String) (P : Conversation → Prop) (s s' : Situation) : Prop where
  settings : s'.settings = s.settings
  flows : s'.flows = s.flows
  own : Renews id P s s'
  others : ∀ other, other ≠ id → Rests other s s'

namespace Confines

theorem of_idle (idle : Idle s s') : Confines id P s s' where
  settings := idle.settings
  flows := idle.flows
  own := .inl (by rw [idle.backing])
  others := fun other _ => idle.rests other

theorem refl (s : Situation) : Confines id P s s := .of_idle (.refl s)

/-- What is stored first satisfies the later condition as well. -/
theorem trans (first : Confines id P s s') (second : Confines id P' s' s'')
    (more : ∀ c, P c → P' c) : Confines id P' s s'' where
  settings := second.settings.trans first.settings
  flows := second.flows.trans first.flows
  own := first.own.trans second.own more
  others := fun other different =>
    (first.others other different).trans (second.others other different)

/-- What holds of everything that can be read goes on doing so if what is written satisfies it. -/
theorem holds {Q : Conversation → Prop} (confines : Confines id P s s')
    (durable : Conversation.Durable Q) (more : ∀ c, P c → Q c) (held : s.store.Holds Q) :
    s'.store.Holds Q := by
  intro other c found
  by_cases own : other = id
  · subst own
    rcases confines.own with same | ⟨c₀, rfl, kept, holds⟩
    · exact held other c (Backing.get_of_entry same ▸ found)
    · exact kept.holds durable (more c₀ holds) found
  · exact held other c (Backing.get_of_entry (confines.others other own).entry ▸ found)

/-- Nothing that is stored is taken away. -/
theorem isSome {other : String} (confines : Confines id P s s')
    (there : (s.store.backing.entry other).isSome) :
    (s'.store.backing.entry other).isSome := by
  by_cases own : other = id
  · subst own
    rcases confines.own with same | ⟨c, rfl, kept, -⟩
    · rwa [same]
    · exact kept.isSome
  · rwa [(confines.others other own).entry]

/-- Writing, whether or not it is refused. -/
theorem saving (named : c.id = id) (holds : P c) (s : Situation) :
    Confines id P s (s.saving c) where
  settings := rfl
  flows := rfl
  own := by
    subst named
    rcases Store.put_cases c s.store with ⟨-, kept⟩ | ⟨-, -, same⟩
    · exact .inr ⟨c, rfl, kept, holds⟩
    · exact .inl (congrArg (Backing.entry c.id) same)
  others := fun _ different =>
    ⟨Store.entry_put_other (named ▸ different.symm) s.store, .rfl, .rfl, rfl⟩

theorem claiming (id : String) (s : Situation) :
    Confines id P s { s with claimed := id :: s.claimed } where
  settings := rfl
  flows := rfl
  own := .inl rfl
  others := fun _ different => ⟨rfl, Engine.mem_claimed_cons id s different, .rfl, rfl⟩

theorem releasing (id : String) (s : Situation) : Confines id P s (Engine.releasing id s) where
  settings := rfl
  flows := rfl
  own := .inl rfl
  others := fun _ different => ⟨rfl, Engine.mem_claimed_filter id s different, .rfl, rfl⟩

/-- Parking or taking a request. -/
theorem requesting {requests : List String} (same : ∀ other, other ≠ id →
    (other ∈ requests ↔ other ∈ s.cancelRequests)) :
    Confines id P s { s with cancelRequests := requests } where
  settings := rfl
  flows := rfl
  own := .inl rfl
  others := fun other different => ⟨rfl, .rfl, same other different, rfl⟩

/-- Moving or dropping a cursor. -/
theorem placing {cursors : Table Nat}
    (same : ∀ other, other ≠ id → cursors.get? other = s.cursors.get? other) :
    Confines id P s { s with cursors } where
  settings := rfl
  flows := rfl
  own := .inl rfl
  others := fun other different => ⟨rfl, .rfl, .rfl, same other different⟩

end Confines

end Situation

end DialogueEngine
