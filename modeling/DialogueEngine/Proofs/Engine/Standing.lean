import DialogueEngine.Engine.Operation
import DialogueEngine.Proofs.Store.Entries

/-!
How a conversation stands in a situation: what the store keeps of it, whether it is claimed, whether
it is to be cancelled, and which of its nodes have been run. Whoever works on one conversation
spares all others; and whatever becomes of a conversation that is to be cancelled, it stays so,
unless a write is refused on the way.
-/

namespace DialogueEngine

/-- Whether an event tells that a node is run. -/
def Event.isStart : Event → Bool
  | .stepStarted .. => true
  | _ => false

/-- Whether an event tells that a node of a conversation is run. -/
def Event.starts (id : String) : Event → Bool
  | .stepStarted conversation _ => conversation = id
  | _ => false

theorem Event.isStart_of_starts {id : String} {e : Event} (starts : e.starts id = true) :
    e.isStart = true := by
  cases e <;> first | rfl | cases starts

namespace Situation

variable {s s' s'' : Situation} {id other : String}

/-! ## What does not concern conversations -/

/-- A situation without what may change while no conversation does: flows, the plan of reads,
cursors, the clock, and events but those that tell that a node is run. -/
def core (s : Situation) : Situation :=
  { s with
    flows := ∅
    store := { s.store with readRefusals := [] }
    cursors := ∅
    published := s.published.filter Event.isStart
    clock := default }

/-- The nodes of a conversation that have been run. -/
def starts (id : String) (s : Situation) : List Event := s.published.filter (Event.starts id)

theorem starts_core (id : String) (s : Situation) : s.core.starts id = s.starts id := by
  simp only [starts, core, List.filter_filter]
  congr 1
  funext e
  cases tells : e.starts id with
  | true => rw [Event.isStart_of_starts tells]; rfl
  | false => rfl

section Core

variable (same : s'.core = s.core)
include same

theorem backing_of_core : s'.store.backing = s.store.backing := (congrArg (·.store.backing) same :)

theorem plan_of_core : s'.store.writeRefusals = s.store.writeRefusals :=
  (congrArg (·.store.writeRefusals) same :)

theorem claimed_of_core : s'.claimed = s.claimed := (congrArg Situation.claimed same :)

theorem requests_of_core : s'.cancelRequests = s.cancelRequests :=
  (congrArg Situation.cancelRequests same :)

theorem settings_of_core : s'.settings = s.settings := (congrArg Situation.settings same :)

theorem starts_of_core (id : String) : s'.starts id = s.starts id := by
  rw [← starts_core id s', same, starts_core]

end Core

/-- Publishing anything but that a node is run. -/
theorem core_publish {e : Event} (other : e.isStart = false) (s : Situation) :
    { s with published := s.published ++ [e] }.core = s.core := by
  simp [core, other]

/-! ## Changes -/

/-- A situation in which a conversation has been written, if that was not refused. -/
def saving (c : Conversation) (s : Situation) : Situation := { s with store := (s.store.put c).2 }

theorem core_saving (c : Conversation) (s : Situation) : (s.saving c).core = s.core.saving c := by
  cases plan : s.store.writeRefusals with
  | nil => simp [core, saving, Store.put, Store.takeRefusal, plan]
  | cons refused later =>
    cases refused <;> simp [core, saving, Store.put, Store.takeRefusal, plan]

theorem saving_of_core (same : s'.core = s.core) (c : Conversation) :
    (s'.saving c).core = (s.saving c).core := by
  rw [core_saving, core_saving, same]

/-- A situation in which the request to cancel a conversation has been taken. -/
def taking (id : String) (s : Situation) : Situation :=
  { s with cancelRequests := s.cancelRequests.filter (· != id) }

theorem taking_of_not_mem (free : id ∉ s.cancelRequests) : s.taking id = s := by
  have all : s.cancelRequests.filter (· != id) = s.cancelRequests := by
    refine List.filter_eq_self.2 fun other member => ?_
    have different : other ≠ id := fun same => free (same ▸ member)
    simpa using different
  rw [taking, all]

/-! ## Other conversations -/

/-- What is done elsewhere spares a conversation: nothing of it changes, but that somebody may ask
for it to be cancelled. -/
structure Spares (id : String) (s s' : Situation) : Prop where
  entry : s'.store.backing.entry id = s.store.backing.entry id
  claimed : id ∈ s'.claimed ↔ id ∈ s.claimed
  requested : id ∈ s.cancelRequests → id ∈ s'.cancelRequests
  starts : s'.starts id = s.starts id
  settings : s'.settings = s.settings

theorem Spares.of_core (same : s'.core = s.core) (id : String) : Spares id s s' where
  entry := by rw [backing_of_core same]
  claimed := by rw [claimed_of_core same]
  requested := by rw [requests_of_core same]; exact fun parked => parked
  starts := starts_of_core same id
  settings := settings_of_core same

theorem Spares.refl (id : String) (s : Situation) : Spares id s s := .of_core rfl id

theorem Spares.trans (first : Spares id s s') (second : Spares id s' s'') : Spares id s s'' where
  entry := second.entry.trans first.entry
  claimed := second.claimed.trans first.claimed
  requested := fun parked => second.requested (first.requested parked)
  starts := second.starts.trans first.starts
  settings := second.settings.trans first.settings

/-! ## To be cancelled -/

/-- A conversation is to be cancelled: this is parked, or kept with the conversation. -/
def Halted (id : String) (s : Situation) : Prop := id ∈ s.cancelRequests ∨ s.store.Cancelled id

/-- A conversation that is to be cancelled stays so; no further call becomes pending in it, and none
of its nodes is run. -/
structure StaysHalted (id : String) (s s' : Situation) : Prop where
  halted : Halted id s'
  awaits : ∀ call, s'.store.Awaits call id → s.store.Awaits call id
  starts : s'.starts id = s.starts id

/-- What becomes of a conversation. Once it is kept it is kept, once it is cancelled it is
cancelled; and only where a write is refused can it cease to be about to be cancelled. -/
structure Honours (id : String) (s s' : Situation) : Prop where
  stored : (s.store.backing.entry id).isSome → (s'.store.backing.entry id).isSome
  cancelled : s.store.Cancelled id → s'.store.Cancelled id
  halted : Halted id s → Store.Refused s.store s'.store ∨ StaysHalted id s s'

theorem Spares.honours (spares : Spares id s s') : Honours id s s' where
  stored := by rw [spares.entry]; exact fun kept => kept
  cancelled := .congr spares.entry
  halted := fun halted => .inr {
    halted := halted.imp spares.requested (.congr spares.entry)
    awaits := fun call awaits => awaits.congr spares.entry.symm
    starts := spares.starts }

theorem Honours.trans (early : Honours id s s') (late : Honours id s' s'')
    (plan : s'.store.writeRefusals <:+ s.store.writeRefusals)
    (later : s''.store.writeRefusals <:+ s'.store.writeRefusals) : Honours id s s'' := by
  refine ⟨fun kept => late.stored (early.stored kept),
    fun cancelled => late.cancelled (early.cancelled cancelled), fun halted => ?_⟩
  rcases early.halted halted with refused | stays
  · exact .inl (refused.later later)
  rcases late.halted stays.halted with refused | stays'
  · exact .inl (refused.earlier plan)
  · exact .inr ⟨stays'.halted, fun call awaits => stays.awaits call (stays'.awaits call awaits),
      stays'.starts.trans stays.starts⟩

section Writing

variable {c : Conversation}

/-- Writing a conversation for a cancelled one, unless the write is refused. -/
theorem cancelled_saving (named : c.id = id) (cancelled : c.cancelled = true) (s : Situation) :
    Store.Refused s.store (s.saving c).store ∨ (s.saving c).store.Cancelled id := by
  rcases Store.put_cases c s.store with ⟨-, kept⟩ | ⟨-, refused, -⟩
  · exact .inr ⟨c, named, kept, cancelled⟩
  · exact .inl refused

/-- A write honours the conversation in whose place it puts another one if that is cancelled where
the former is, and no further call is pending in it where the former is to be cancelled. -/
theorem Honours.saving (named : c.id = id)
    (cancelled : s.store.Cancelled id → c.cancelled = true)
    (awaits : Halted id s → ∀ call ∈ c.pending.map (·.id), s.store.Awaits call id) :
    Honours id s (s.saving c) := by
  subst named
  rcases Store.put_cases c s.store with ⟨-, kept⟩ | ⟨-, refused, same⟩
  · have keeping : s.store.Cancelled c.id → (s.saving c).store.Cancelled c.id :=
      fun before => kept.cancelled_iff.2 (cancelled before)
    refine ⟨fun _ => kept.isSome, keeping, fun halted => .inr ⟨halted.imp_right keeping, ?_, rfl⟩⟩
    exact fun call awaited => awaits halted call (kept.pending_of_awaits awaited)
  · have entry : (s.saving c).store.backing.entry c.id = s.store.backing.entry c.id :=
      congrArg (Backing.entry c.id) same
    exact ⟨by rw [entry]; exact id, .congr entry, fun _ => .inl refused⟩

/-- Taking a request and writing that the conversation is cancelled. -/
theorem Honours.taking_saving (named : c.id = id) (cancelled : c.cancelled = true)
    (awaits : Halted id s → ∀ call ∈ c.pending.map (·.id), s.store.Awaits call id) :
    Honours id s ((s.taking id).saving c) := by
  have written : Honours id s (s.saving c) := .saving named (fun _ => cancelled) awaits
  refine ⟨written.stored, written.cancelled, fun halted => ?_⟩
  refine (cancelled_saving named cancelled s).imp_right fun kept => ⟨.inr kept, ?_, rfl⟩
  intro call awaited
  subst named
  rcases Store.put_cases c s.store with ⟨-, keeps⟩ | ⟨-, -, same⟩
  · exact awaits halted call (keeps.pending_of_awaits awaited)
  · exact awaited.congr (congrArg (Backing.entry c.id) same).symm

/-- Taking a request where there is none, or where it has been kept already. -/
theorem Honours.taking (kept : id ∈ s.cancelRequests → s.store.Cancelled id) :
    Honours id s (s.taking id) where
  stored := fun stored => stored
  cancelled := fun cancelled => cancelled
  halted := fun halted =>
    .inr ⟨.inr (halted.elim kept fun same => same), fun _ awaits => awaits, rfl⟩

end Writing

/-- What the one who has claimed a conversation does in a situation. If the conversation is worked
on as it is stored, `asStored`, it is honoured. -/
structure Tends (id : String) (asStored : Prop) (s s' : Situation) : Prop where
  settings : s'.settings = s.settings
  sound : s.store.Sound → s'.store.Sound
  plan : s'.store.writeRefusals <:+ s.store.writeRefusals
  others : ∀ other, other ≠ id → Spares other s s'
  honours : asStored → Honours id s s'

namespace Tends

variable {asStored : Prop} {c : Conversation}

theorem of_core (same : s'.core = s.core) : Tends id asStored s s' where
  settings := settings_of_core same
  sound := fun sound => sound.of_backing (backing_of_core same)
  plan := by rw [plan_of_core same]
  others := fun other _ => .of_core same other
  honours := fun _ => (Spares.of_core same id).honours

theorem refl (id : String) (asStored : Prop) (s : Situation) : Tends id asStored s s := .of_core rfl

theorem trans (first : Tends id asStored s s') (second : Tends id asStored s' s'') :
    Tends id asStored s s'' where
  settings := second.settings.trans first.settings
  sound := fun sound => second.sound (first.sound sound)
  plan := second.plan.trans first.plan
  others := fun other different =>
    (first.others other different).trans (second.others other different)
  honours := fun faithful =>
    (first.honours faithful).trans (second.honours faithful) first.plan second.plan

/-- Only what is made of the conversation itself depends on whether it is the stored one. -/
theorem of_honours (tends : Tends id False s s') (honours : asStored → Honours id s s') :
    Tends id asStored s s' :=
  { tends with honours }

/-- Claiming and releasing a conversation. -/
theorem of_claims {claims : List String} (same : ∀ other, other ≠ id →
    (other ∈ claims ↔ other ∈ s.claimed)) : Tends id asStored s { s with claimed := claims } where
  settings := rfl
  sound := fun sound => sound
  plan := List.suffix_rfl
  others := fun other different => ⟨rfl, same other different, fun parked => parked, rfl, rfl⟩
  honours := fun _ => ⟨fun kept => kept, fun cancelled => cancelled,
    fun halted => .inr ⟨halted, fun _ awaits => awaits, rfl⟩⟩

/-- Telling that a node is run; the conversation must not be about to be cancelled. -/
theorem of_start (node : String) (free : asStored → ¬ Halted id s) :
    Tends id asStored s { s with published := s.published ++ [.stepStarted id node] } where
  settings := rfl
  sound := fun sound => sound
  plan := List.suffix_rfl
  others := fun _ different =>
    ⟨rfl, .rfl, fun parked => parked, by simp [starts, Event.starts, different.symm], rfl⟩
  honours := fun faithful => ⟨fun kept => kept, fun cancelled => cancelled,
    fun halted => absurd halted (free faithful)⟩

/-- What a write may change, whether or not it is refused. -/
theorem saving (named : c.id = id) (solid : Text.isBlankText id = false)
    (honours : asStored → Honours id s (s.saving c)) : Tends id asStored s (s.saving c) where
  settings := rfl
  sound := fun sound => sound.put (named ▸ solid)
  plan := Store.put_plan c s.store
  others := fun _ different =>
    ⟨Store.entry_put_other (named ▸ different.symm) s.store, .rfl, fun parked => parked, rfl, rfl⟩
  honours := honours

/-- Taking a request to cancel, and writing what it is noted on. -/
theorem taking (honours : asStored → Honours id s (s.taking id)) :
    Tends id asStored s (s.taking id) where
  settings := rfl
  sound := fun sound => sound
  plan := List.suffix_rfl
  others := fun _ different => by
    refine ⟨rfl, .rfl, fun parked => ?_, rfl, rfl⟩
    simpa [Situation.taking, different] using parked
  honours := honours

end Tends

end Situation

end DialogueEngine
