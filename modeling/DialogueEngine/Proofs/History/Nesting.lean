import DialogueEngine.Proofs.Engine.Upkeep

/-!
What may happen while an answer is awaited by somebody who does nothing else: others are begun one
after the other and carried out to their ends, and while one of them awaits an answer the same may
happen again. Whatever conversations are claimed meanwhile are spared, and claimed as before in the
end.
-/

namespace DialogueEngine

open Engine (Finishes releasing)
open Situation (Conducts Spares Tends)

mutual

/-- Undertakings are carried out one after the other. -/
inductive Meanwhile : Situation → Situation → Prop
  | nothing (s : Situation) : Meanwhile s s
  | undertaken {s s' s'' : Situation} (u : Undertaking) (first : CarriedOut (u.perform s) s')
      (later : Meanwhile s' s'') : Meanwhile s s''

/-- Work is brought to its end, whatever it is answered and whatever is carried out meanwhile. -/
inductive CarriedOut : Work → Situation → Prop
  | done (s : Situation) (reply : Undertaking.Reply) : CarriedOut (.done s reply) s
  | answered {s s' s'' : Situation} {q : Question} {resume : Answer q → Situation → Work}
      (meanwhile : Meanwhile s s') (answer : Answer q)
      (later : CarriedOut (resume answer s') s'') : CarriedOut (.ask s q resume) s''

end

/-- Work that asks nothing is brought to its end at once. -/
theorem CarriedOut.of_ends {x : Work} (ends : x.Ends fun _ _ => True) :
    CarriedOut x x.situation := by
  cases x with
  | done s reply => exact .done s reply
  | ask s q resume => exact ends.1.elim

namespace Situation

variable {regular : Conversation → Prop} {own id : String} {s s' : Situation}

/-- What is done about one conversation keeps the claims on the others and a dependable store. -/
structure Calm (regular : Conversation → Prop) (own : String) (s s' : Situation) : Prop where
  claimed : s'.claimed.filter (· != own) = s.claimed.filter (· != own)
  dependable : s.store.Dependable regular → s'.store.Dependable regular

theorem Calm.of_same (claimed : s'.claimed = s.claimed) (store : s'.store = s.store) :
    Calm regular own s s' where
  claimed := by rw [claimed]
  dependable := by rw [store]; exact id

theorem Calm.trans {s'' : Situation} (first : Calm regular own s s')
    (second : Calm regular own s' s'') : Calm regular own s s'' where
  claimed := second.claimed.trans first.claimed
  dependable := fun before => second.dependable (first.dependable before)

theorem conducts_calm (regular : Conversation → Prop) (own : String) :
    Conducts (Calm regular own) own where
  refl := fun _ => .of_same rfl rfl
  trans := Calm.trans
  touches := by
    intro s s' change
    cases change with
    | looked id =>
      refine ⟨rfl, fun before => ?_⟩
      rwa [before.get id]
    | _ => exact .of_same rfl rfl
  wrote := by
    refine fun s c => ⟨rfl, fun before => ?_⟩
    rw [saving, before.put c]
    refine ⟨before.reads, before.writes, fun d fits => ?_⟩
    exact (Store.backing_get_put_put d c s.store.backing).trans (before.returns d fits)
  starts := fun _ _ _ => .of_same rfl rfl
  claims := fun s => ⟨by simp, id⟩
  releases := fun s => ⟨by simp [releasing], id⟩

theorem Calm.mem_claimed (calm : Calm regular own s s') (different : id ≠ own) :
    id ∈ s'.claimed ↔ id ∈ s.claimed := by
  have same : id ∈ s'.claimed.filter (· != own) ↔ id ∈ s.claimed.filter (· != own) := by
    rw [calm.claimed]
  simpa [different] using same

/-- Where the conversation itself is free before and after, all claims are as they were. -/
theorem Calm.claimed_of_free (calm : Calm regular own s s') (before : own ∉ s.claimed)
    (after : own ∉ s'.claimed) : s'.claimed = s.claimed := by
  have all {claims : List String} (free : own ∉ claims) : claims.filter (· != own) = claims :=
    List.filter_eq_self.2 fun other member =>
      bne_iff_ne.2 fun same => free (same ▸ member)
  rw [← all before, ← all after, calm.claimed]

/-- What is carried out elsewhere leaves: the store is sound and dependable as before, all claims
are as they were, and what is claimed is spared. -/
structure Elsewhere (regular : Conversation → Prop) (s s' : Situation) : Prop where
  sound : s'.store.Sound
  claimed : s'.claimed = s.claimed
  dependable : s.store.Dependable regular → s'.store.Dependable regular
  spares : ∀ id ∈ s.claimed, Spares id s s'

/-- What work on one conversation leaves where others are claimed. -/
structure Apart (regular : Conversation → Prop) (own : String) (s s' : Situation) : Prop where
  sound : s'.store.Sound
  free : own ∉ s'.claimed
  calm : Calm regular own s s'
  spares : ∀ id ∈ s.claimed, id ≠ own → Spares id s s'

theorem Elsewhere.calm (elsewhere : Elsewhere regular s s') : Calm regular own s s' :=
  ⟨by rw [elsewhere.claimed], elsewhere.dependable⟩

end Situation

open Situation (Apart Calm Elsewhere)

variable {regular : Conversation → Prop}

theorem Undertaking.perform_calm {u : Undertaking} {s : Situation} {own : String}
    (about : ∀ id, u.subject s = some id → id = own) :
    (u.perform s).Abides (Calm regular own) (Calm regular own) (fun _ _ => True)
      (fun since _ s => Calm regular own since s) s := by
  have conducts := Situation.conducts_calm regular own
  exact u.perform_upholds conducts.toLasting fun id same => about id same ▸ conducts

mutual

/-- Whatever is carried out meanwhile spares what is claimed. -/
theorem Meanwhile.elsewhere {s s' : Situation} : Meanwhile s s' → s.store.Sound →
    Elsewhere regular s s'
  | .nothing _, sound => ⟨sound, rfl, id, fun id _ => .refl id s⟩
  | .undertaken u first later, sound => by
    by_cases busy : ∀ id, u.subject s = some id → id ∈ s.claimed
    · have calm : (u.perform s).Abides _ (Calm regular ((u.subject s).getD "")) _ _ s :=
        Undertaking.perform_calm fun id same => by rw [same]; rfl
      obtain ⟨s₁, reply, performed, quiet, -⟩ := (Undertaking.perform_quiet busy).eq_done
      rw [performed] at first calm
      cases first
      have rest := later.elsewhere (sound.of_backing quiet.backing)
      exact ⟨rest.sound, rest.claimed.trans quiet.claimed,
        fun before => rest.dependable (calm.dependable before),
        fun id claimed => (quiet.spares id).trans (rest.spares id (quiet.claimed ▸ claimed))⟩
    · obtain ⟨own, subject, unclaimed⟩ : ∃ own, u.subject s = some own ∧ own ∉ s.claimed := by
        simpa using busy
      have attends := Undertaking.perform_attends subject unclaimed sound
        (False.elim : False → s.store.Holds Conversation.Pauses) False.elim
      have calm : (u.perform s).Abides _ (Calm regular own) _ _ s :=
        Undertaking.perform_calm fun id same => Option.some.inj (same.symm.trans subject)
      have carried := first.elsewhere sound ((attends.and calm).mono
        (fun _ _ asked => asked.1.asks.claimed) fun _ _ _ left => ⟨left.1.toFinishes, left.2⟩)
      have rest := later.elsewhere carried.sound
      have same := carried.calm.claimed_of_free unclaimed carried.free
      refine ⟨rest.sound, rest.claimed.trans same,
        fun before => rest.dependable (carried.calm.dependable before), fun id claimed => ?_⟩
      have different : id ≠ own := fun same => unclaimed (same ▸ claimed)
      exact (carried.spares id claimed different).trans (rest.spares id (same ▸ claimed))

/-- Work on one conversation that is carried out spares what else is claimed meanwhile. -/
theorem CarriedOut.elsewhere {own : String} {x : Work} {s : Situation} : CarriedOut x s →
    ∀ {since : Situation}, since.store.Sound →
    x.Abides (fun s s' => Spares own s s' ∧ Calm regular own s s')
      (fun s s' => Tends own False s s' ∧ Calm regular own s s') (fun s _ => own ∈ s.claimed)
      (fun since _ s => Finishes own False since s ∧ Calm regular own since s) since →
    Apart regular own since s
  | .done _ _, _, sound, ⟨finishes, calm⟩ =>
    ⟨finishes.tends.sound sound, finishes.free, calm,
      fun id _ different => finishes.tends.others id different⟩
  | .answered meanwhile answer later, since, sound, abides => by
    obtain ⟨⟨tends, calm⟩, claimed, goesOn⟩ := abides
    have away := meanwhile.elsewhere (tends.sound sound)
    have rest := later.elsewhere away.sound
      (goesOn answer _ ⟨away.spares own claimed, away.calm⟩)
    refine ⟨rest.sound, rest.free, (calm.trans away.calm).trans rest.calm,
      fun id inside different => ?_⟩
    have before := (calm.mem_claimed different).2 inside
    exact ((tends.others id different).trans (away.spares id before)).trans
      (rest.spares id ((away.calm.mem_claimed different).2 before) different)

end

end DialogueEngine
