import DialogueEngine.Proofs.Conversation.Extension
import DialogueEngine.Proofs.History.Chartering

/-!
Conversations only grow, and only the one that is worked on. Whatever an operation stores of its
conversation goes on from what was read of it when the operation was begun, whether the operation
succeeds or fails and whatever the store refuses; nothing changes of any other conversation.
-/

namespace DialogueEngine

open Conversation (Continues Indexed)
open Situation (Renews)

variable {history : List Happening} {scene : Scene}

/-- A conversation with numbered records that goes on from what was found in its place. -/
def Conversation.GoesOn (found : Except Failure (Option Conversation)) (c : Conversation) : Prop :=
  c.Indexed ∧ ∃ old, found = .ok old ∧ ∀ c₀, old = some c₀ → c₀.Extends c

namespace Conversation.GoesOn

variable {found : Except Failure (Option Conversation)} {c c' : Conversation}

theorem continues (goesOn : c.GoesOn found) (continues : Continues c c') : c'.GoesOn found := by
  obtain ⟨indexed, old, read, later⟩ := goesOn
  exact ⟨continues.2 indexed, old, read, fun c₀ same => (later c₀ same).trans continues.1⟩

theorem of_read (indexed : c.Indexed) (read : found = .ok (some c)) : c.GoesOn found :=
  ⟨indexed, some c, read, fun c₀ same => by cases same; exact .refl c⟩

/-- Where nothing was found, anything with numbered records may begin. -/
theorem of_none (indexed : c.Indexed) (read : found = .ok none) : c.GoesOn found :=
  ⟨indexed, none, read, fun c₀ same => by cases same⟩

end Conversation.GoesOn

/-- What is stored of a conversation is what was stored of it, or goes on from what could be read of
that. -/
def Situation.Prolongs (id : String) (s s' : Situation) : Prop :=
  Renews id (Conversation.GoesOn (s.store.backing.get id)) s s'

/-- A store of the conversations themselves gives back a conversation that has grown. -/
theorem Situation.Prolongs.read {id : String} {s s' : Situation} {c : Conversation}
    (grows : Prolongs id s s') (whole : s'.store.KeepsWhole)
    (found : s.store.backing.get id = .ok (some c)) :
    ∃ c', s'.store.backing.get id = .ok (some c') ∧ c.Extends c' := by
  rcases grows with same | ⟨c', rfl, kept, -, old, read, goesOn⟩
  · exact ⟨c, (Backing.get_of_entry same).trans found, .refl c⟩
  · exact ⟨c', kept.get_of_whole whole, goesOn c (Except.ok.inj (read.symm.trans found))⟩

/-! ## The charter -/

namespace Charter

/-- What is stored of a conversation goes on from what was found of it. -/
def growing (id : String) (settings : Settings) (found : Except Failure (Option Conversation)) :
    Charter where
  id
  law s := s.settings = settings
  keeps _ c := c.id = id ∧ c.GoesOn found
  asks _ _ := True
  approves := True
  named kept := kept.1
  lawful holds settings _ := settings.trans holds
  later kept _ := kept
  amends kept amended _ :=
    ⟨amended.continues.1.id.trans kept.1, kept.2.continues amended.continues⟩
  lost {_ c _} kept _ _ f now :=
    have given := (Conversation.Amends.givenUp (c := c) f now).continues
    ⟨given.1.id.trans kept.1, kept.2.continues given⟩
  rewinds kept _ _ _ now _ :=
    have grown := Conversation.continues_rewound _ _ now _
    ⟨grown.1.id.trans kept.1, kept.2.continues grown⟩
  visits kept ready _ _ holds :=
    (Engine.visit_follows ready (fun _ same => same) _ holds).mono (fun _ _ _ => trivial)
      fun _ _ _ visited => (ready.arrives visited).mono fun _ grown =>
        .of_amends (fun _ kept amended => ⟨amended.continues.1.id.trans kept.1,
          kept.2.continues amended.continues⟩)
          ⟨grown.1.id.trans kept.1, kept.2.continues grown⟩
  approving _ _ := trivial

end Charter

/-- Operations by id let the conversation that they have read go on; a step with a conversation at
hand may put that one in its place. -/
def Chartering.growing : Chartering where
  charter _ s u id :=
    match u with
    | .stepWith _ => .growing id s.settings (.ok none)
    | _ => .growing id s.settings (s.store.backing.get id)
  inv _ s := s.store.Holds Indexed
  named _ _ u _ := by cases u <;> rfl

theorem Chartering.upheld_growing {admits : List Happening → Situation → Undertaking → Prop}
    {s₀ : Situation} (indexed : s₀.store.Holds Indexed)
    (numbered : ∀ history s c, admits history s (.stepWith c) → c.Indexed) :
    Chartering.growing.Upheld admits s₀ where
  start := indexed
  issues {history s u id} holds sound admitted subject := by
    have read (c : Conversation) (found : s.store.backing.get id = .ok (some c)) :
        c.id = id ∧ c.GoesOn (s.store.backing.get id) := by
      exact ⟨sound.id_eq found, .of_read (holds id c found) found⟩
    cases u with
    | registration f => cases subject
    | stepWith c =>
      exact ⟨rfl, ⟨Option.some.inj subject, .of_none (numbered _ _ _ admitted) rfl⟩,
        fun _ => trivial⟩
    | operation op =>
      cases op with
      | start chosen flow message =>
        exact ⟨rfl, fun missing g _ now debugMode =>
          ⟨rfl, .of_none (fun i r found => by cases found) missing⟩, fun _ => trivial⟩
      | _ => exact ⟨rfl, read, fun _ => trivial⟩
  registers {history f s s' reply} holds admitted done := by
    obtain rfl := Undertaking.registering_of_perform done
    refine ⟨fun id c found => ?_, fun u ch s₁ past issued _ law => ?_⟩
    · exact holds id c (Backing.get_of_entry (Undertaking.registering_rests f s id).entry ▸ found)
    · obtain ⟨before, during, id, -, rfl, -⟩ := issued
      have kept := Undertaking.registering_settings f s
      cases u <;> exact kept.trans law
  works {history o h u ch s₁ past} holds stretch := by
    refine stretch.confines.holds Conversation.durable_indexed (fun c kept => ?_) holds
    obtain ⟨before, during, id, -, rfl, -⟩ := stretch.issued
    cases u <;> exact kept.2.1

/-! ## Growth -/

/-- What a stretch does of an undertaking that was begun in `s₁`: every conversation rests but the
one that it is about, and what is stored of that goes on from what was stored when the undertaking
was begun, unless it came with a conversation of its own. Where conversations are kept whole, what
can be read goes on from what could be read. -/
structure Undertaking.Adds (u : Undertaking) (s₁ s s' : Situation) : Prop where
  rests (other : String) (another : u.subject s₁ ≠ some other) : Situation.Rests other s s'
  grows (id : String) (subject : u.subject s₁ = some id) (stored : u.UsesStore) :
    Situation.Prolongs id s₁ s'
  read (id : String) (subject : u.subject s₁ = some id) (stored : u.UsesStore) (c : Conversation)
    (found : s₁.store.backing.get id = .ok (some c)) (whole : s'.store.KeepsWhole) :
    ∃ c', s'.store.backing.get id = .ok (some c') ∧ c.Extends c'

/-- The undertaking whose stretch stops has had its conversation to itself since it was begun, and
only adds to that. -/
def Happening.Adds (front : List Happening) (h : Happening) : Prop :=
  ∀ u, h.Stops u → ∃ e before s₁ during, front.getLast? = some e ∧
    front = before ++ .began u s₁ :: during ∧
    (∀ id, u.subject s₁ = some id → ∀ h ∈ during, id ∈ h.now.claimed) ∧ u.Adds s₁ e.now h.now

end DialogueEngine
