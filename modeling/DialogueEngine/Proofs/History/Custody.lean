import DialogueEngine.Proofs.Engine.Undertaking
import DialogueEngine.Proofs.Engine.Operation

/-!
Conversations in custody. In every history whoever waits for an answer has claimed the conversation
that it is about, alone, since it was begun; whatever else happens spares that conversation. What
holds of the stretches of an undertaking therefore holds in every history, whichever others are
begun, go on and end meanwhile.
-/

namespace DialogueEngine

open Conversation (Pauses)
open Situation (Accounted Quiet Honours Spares Tends)

variable {faithful : Prop} {history : List Happening} {s s' s₁ : Situation} {id : String}
  {u : Undertaking} {others : List Waiting}

/-! ## Entries and what is before them -/

namespace Happening

/-- Each entry of a history stands in a relation to what is before it. -/
def Each (P : List Happening → Happening → Prop) (history : List Happening) : Prop :=
  ∀ front h rest, history = front ++ h :: rest → P front h

theorem Each.append_two {P : List Happening → Happening → Prop} {a b : Happening}
    (each : Each P history) (first : P history a) (second : P (history ++ [a]) b) :
    Each P (history ++ [a, b]) := by
  intro front h rest same
  rcases List.append_eq_append_iff.1 same with ⟨more, rfl, tail⟩ | ⟨more, rfl, tail⟩
  · cases more with
    | nil =>
      obtain ⟨rfl, -⟩ := List.cons.inj tail
      simpa using first
    | cons a' more =>
      obtain ⟨rfl, tail'⟩ := List.cons.inj tail
      cases more with
      | nil =>
        obtain ⟨rfl, -⟩ := List.cons.inj tail'
        exact second
      | cons b' more => simp at tail'
  · cases more with
    | nil =>
      obtain ⟨rfl, -⟩ := List.cons.inj tail
      simpa using first
    | cons h' more =>
      obtain ⟨rfl, -⟩ := List.cons.inj tail
      exact each front h more rfl

end Happening

/-- An undertaking has had a conversation in its custody since it was begun. -/
def Custody (id : String) (u : Undertaking) (s₁ : Situation) (history : List Happening) : Prop :=
  ∃ past during, history = past ++ .began u s₁ :: during ∧ id ∉ s₁.claimed ∧
    ∀ h ∈ during, id ∈ h.now.claimed

theorem Custody.append {more : List Happening} (custody : Custody id u s₁ history)
    (claimed : ∀ h ∈ more, id ∈ h.now.claimed) : Custody id u s₁ (history ++ more) := by
  obtain ⟨past, during, rfl, free, held⟩ := custody
  refine ⟨past, during ++ more, by simp, free, fun h member => ?_⟩
  exact (List.mem_append.1 member).elim (held h) (claimed h)

/-- The one who begins has found the conversation free. -/
theorem Custody.began {e : Happening} (custody : Custody id u s₁ (history ++ [e]))
    (free : id ∉ e.now.claimed) : e = .began u s₁ := by
  obtain ⟨past, during, same, -, held⟩ := custody
  rcases List.eq_nil_or_concat during with rfl | ⟨before, last, rfl⟩
  · exact (List.append_inj' same rfl).2 |> List.singleton_inj.1
  · have cut : history ++ [e] = (past ++ .began u s₁ :: before) ++ [last] := by simpa using same
    obtain rfl : e = last := List.singleton_inj.1 (List.append_inj' cut rfl).2
    exact absurd (held e (by simp)) free

/-- What becomes of conversations from one entry of a history to the next. -/
structure Situation.Passes (faithful : Prop) (s s' : Situation) : Prop where
  plan : s'.store.writeRefusals <:+ s.store.writeRefusals
  honours : faithful → ∀ id, Honours id s s'

theorem Situation.Passes.of_tends (tends : Tends id faithful s s') : Passes faithful s s' where
  plan := tends.plan
  honours := fun stored other => by
    by_cases same : other = id
    · exact same ▸ tends.honours stored
    · exact (tends.others other same).honours

theorem Situation.Passes.of_quiet (quiet : Quiet s s') : Passes faithful s s' where
  plan := by rw [quiet.plan]
  honours := fun _ other => (quiet.spares other).honours

theorem Situation.Passes.trans {s'' : Situation} (first : Passes faithful s s')
    (second : Passes faithful s' s'') : Passes faithful s s'' where
  plan := second.plan.trans first.plan
  honours := fun stored id =>
    (first.honours stored id).trans (second.honours stored id) first.plan second.plan

/-- The one who ends was refused at once, because the conversation was claimed. -/
structure Undertaking.Refused (faithful : Prop) (u : Undertaking) (id : String) (e : Happening)
    (reply : Reply) (s : Situation) : Prop where
  began : e = .began u e.now
  busy : id ∈ e.now.claimed
  stored : faithful → (e.now.store.backing.entry id).isSome
  quiet : Quiet e.now s
  cancels : u = .operation (.cancel id) → id ∈ s.cancelRequests
  replies : ∀ refusal, u.refusal e.now = some refusal → reply = refusal

/-- The one who ends has attended to the conversation since it was begun. -/
structure Undertaking.Attended (faithful : Prop) (u : Undertaking) (id : String)
    (front : List Happening) (e : Happening) (reply : Reply) (s : Situation) : Prop where
  custody : ∃ s₁, Custody id u s₁ front ∧
    u.Closes id faithful (Accounted id s₁) s₁ e.now reply s

namespace Happening

/-- How an entry follows those before it. -/
structure Follows (faithful : Prop) (front : List Happening) (h : Happening) : Prop where
  sound : h.now.store.Sound
  passes : ∀ e, front.getLast? = some e → Situation.Passes faithful e.now h.now
  poses : ∀ u q s, h = .asked u q s → ∃ id, u.Poses id faithful s q
  closes : ∀ u reply s id, h = .ended u reply s → u.id? = some id →
    ∃ e, front.getLast? = some e ∧
      (u.Refused faithful id e reply s ∨ u.Attended faithful id front e reply s)

end Happening

/-! ## Scenes -/

/-- Whoever waits has the conversation in its custody and will attend to it. -/
structure Waiting.Attends (faithful : Prop) (history : List Happening) (now : Situation)
    (id : String) (w : Waiting) : Prop where
  named : w.undertaking.id? = some id
  solid : Text.isBlankText id = false
  claimed : id ∈ now.claimed
  stored : faithful → (now.store.backing.entry id).isSome
  custody : ∃ s₁, Custody id w.undertaking s₁ history ∧ ∀ reply s, Spares id now s →
    (w.resume reply s).Abides (Spares id) (Tends id faithful) (w.undertaking.Poses id faithful)
      (w.undertaking.Closes id faithful (Accounted id s₁) s₁) s

/-- It goes on doing so while others spare the conversation. -/
theorem Waiting.Attends.spared {w : Waiting} {more : List Happening}
    (attends : w.Attends faithful history s id) (spares : Spares id s s')
    (claimed : ∀ h ∈ more, id ∈ h.now.claimed) : w.Attends faithful (history ++ more) s' id where
  named := attends.named
  solid := attends.solid
  claimed := spares.claimed.2 attends.claimed
  stored := by
    rw [spares.entry]
    exact attends.stored
  custody := by
    obtain ⟨s₁, custody, goesOn⟩ := attends.custody
    exact ⟨s₁, custody.append claimed, fun reply s'' later => goesOn reply s'' (spares.trans later)⟩

/-- Those who wait attend to different conversations. -/
structure Tended (faithful : Prop) (history : List Happening) (now : Situation)
    (waiting : List Waiting) : Prop where
  sound : now.store.Sound
  last : ∀ e, history.getLast? = some e → e.now = now
  distinct : (waiting.map (·.undertaking.id?)).Nodup
  attended : ∀ w ∈ waiting, ∃ id, w.Attends faithful history now id

/-- What is claimed is claimed by someone who waits. -/
def Held (s : Situation) (waiting : List Waiting) : Prop :=
  ∀ id ∈ s.claimed, ∃ w ∈ waiting, w.undertaking.id? = some id

section Work

variable {o : Happening} {x : Work}

/-- The entry that opens a stretch. -/
theorem Tended.opens (tended : Tended faithful history s others) (now : o.now = s)
    (opening : ∀ x : Work, ∀ u, o ≠ x.happening u) : o.Follows faithful history where
  sound := now ▸ tended.sound
  passes := fun e found => by
    rw [tended.last e found, now]
    exact .of_tends (.refl "" faithful s)
  poses := fun u q s' same => absurd same (opening (.ask s' q fun _ s => .done s (.ok .done)) u)
  closes := fun u reply s' _ same => absurd same (opening (.done s' reply) u)

/-- What others have in custody while a stretch of work goes by. -/
theorem Tended.spared {h : Happening} (tended : Tended faithful history s others)
    (now : o.now = s) (later : h.now = s') (sound : s'.store.Sound)
    (spares : ∀ w ∈ others, ∀ id, w.undertaking.id? = some id → Spares id s s') :
    Tended faithful (history ++ [o, h]) s' others where
  sound := sound
  last := by simp [later]
  distinct := tended.distinct
  attended := fun w member => by
    obtain ⟨id, attends⟩ := tended.attended w member
    have spared := spares w member id attends.named
    refine ⟨id, attends.spared spared ?_⟩
    simp [now, later, attends.claimed, spared.claimed.2 attends.claimed]

/-- A stretch in which nothing happens to any conversation. -/
theorem Tended.quiet {reply : Undertaking.Reply} (tended : Tended faithful history s others)
    (held : Held s others) (quiet : Quiet s s')
    (refused : ∀ id, u.id? = some id → u.Refused faithful id (.began u s) reply s') :
    (Happening.ended u reply s').Follows faithful (history ++ [.began u s]) ∧
      Tended faithful (history ++ [.began u s, .ended u reply s']) s' others ∧ Held s' others := by
  have sound : s'.store.Sound := tended.sound.of_backing quiet.backing
  refine ⟨⟨sound, fun e found => ?_, fun _ _ _ same => (by cases same),
    fun u' reply' s'' id same named => ?_⟩, ?_, ?_⟩
  · obtain rfl : .began u s = e := by simpa using found
    exact .of_quiet quiet
  · cases same
    exact ⟨.began u s, by simp, .inl (refused id named)⟩
  · exact tended.spared rfl rfl sound fun _ _ id _ => quiet.spares id
  · rw [Held, quiet.claimed]
    exact held

/-- A stretch of the one who has the conversation in custody. -/
theorem Tended.works (tended : Tended faithful history s others) (now : o.now = s)
    (apart : ∀ w ∈ others, w.undertaking.id? ≠ some id)
    (held : ∀ other ∈ s.claimed, other ≠ id → ∃ w ∈ others, w.undertaking.id? = some other)
    (custody : Custody id u s₁ (history ++ [o]))
    (own : ∀ other, u.id? = some other → other = id)
    (attends : x.Abides (Spares id) (Tends id faithful) (u.Poses id faithful)
      (u.Closes id faithful (Accounted id s₁) s₁) s) :
    (x.happening u).Follows faithful (history ++ [o]) ∧
      Tended faithful (history ++ [o, x.happening u]) x.situation (x.waiting u ++ others) ∧
      Held x.situation (x.waiting u ++ others) := by
  have tends : Tends id faithful s x.situation := by
    cases x with
    | done s' reply => exact attends.tends
    | ask s' q resume => exact attends.1
  have situated : (x.happening u).now = x.situation := by cases x <;> rfl
  have rest : Tended faithful (history ++ [o, x.happening u]) x.situation others :=
    tended.spared now situated (tends.sound tended.sound) fun w member other named =>
      tends.others other fun same => apart w member (same ▸ named)
  have stillHeld (other : String) (claimed : other ∈ x.situation.claimed) (different : other ≠ id) :
      ∃ w ∈ others, w.undertaking.id? = some other :=
    held other ((tends.others other different).claimed.1 claimed) different
  have sound : (x.happening u).now.store.Sound := situated ▸ rest.sound
  have passes (e : Happening) (found : (history ++ [o]).getLast? = some e) :
      Situation.Passes faithful e.now (x.happening u).now := by
    obtain rfl : o = e := by simpa using found
    rw [now, situated]
    exact .of_tends tends
  -- What ends leaves the conversation free, what asks keeps it in custody; either way the claims on
  -- the other conversations are those of before.
  cases x with
  | done s' reply =>
    refine ⟨⟨sound, passes, fun _ _ _ same => (by cases same),
      fun u' reply' s'' other same named => ?_⟩, rest, fun other claimed => ?_⟩
    · cases same
      obtain rfl := own other named
      exact ⟨o, by simp, .inr ⟨s₁, custody, now ▸ attends⟩⟩
    · have different : other ≠ id := fun same => attends.free (same ▸ claimed)
      exact stillHeld other claimed different
  | ask s' q resume =>
    obtain ⟨-, poses, goesOn⟩ := attends
    have claimed : ∀ h ∈ [Happening.asked u q s'], id ∈ h.now.claimed := by
      simp [Happening.now, poses.asks.claimed]
    have kept : Custody id u s₁ (history ++ [o, .asked u q s']) := by
      simpa using custody.append claimed
    have waits : Waiting.Attends faithful (history ++ [o, .asked u q s']) s' id ⟨u, q, resume⟩ :=
      ⟨poses.named, poses.asks.solid, poses.asks.claimed, poses.asks.stored, s₁, kept, goesOn⟩
    refine ⟨⟨sound, passes, fun u' q' s'' same => ?_, fun _ _ _ _ same => (by cases same)⟩,
      ⟨rest.sound, rest.last, ?_, ?_⟩, fun other claimed => ?_⟩
    · cases same
      exact ⟨id, poses⟩
    · refine List.nodup_cons.2 ⟨fun member => ?_, rest.distinct⟩
      obtain ⟨w, inside, same⟩ := List.mem_map.1 member
      exact apart w inside (same.trans poses.named)
    · intro w member
      rcases List.mem_cons.1 member with rfl | old
      · exact ⟨id, waits⟩
      · exact rest.attended w old
    · by_cases same : other = id
      · exact ⟨_, List.mem_cons_self, same ▸ poses.named⟩
      · obtain ⟨w, inside, named⟩ := stillHeld other claimed same
        exact ⟨w, List.mem_cons_of_mem _ inside, named⟩

end Work

/-! ## Histories -/

/-- Nobody who waits attends to a conversation that is free. -/
theorem Tended.apart_of_free (tended : Tended faithful history s others)
    (unclaimed : id ∉ s.claimed) : ∀ w ∈ others, w.undertaking.id? ≠ some id := by
  intro w inside same
  obtain ⟨other, attends⟩ := tended.attended w inside
  obtain rfl : id = other := Option.some.inj (same.symm.trans attends.named)
  exact unclaimed attends.claimed

/-- Those who wait beside one of them. -/
theorem Tended.beside {w : Waiting} {front back : List Waiting}
    (tended : Tended faithful history s (front ++ w :: back)) :
    Tended faithful history s (front ++ back) ∧
      ∀ other ∈ front ++ back, other.undertaking.id? ≠ w.undertaking.id? := by
  have distinct := tended.distinct
  rw [List.map_append, List.map_cons, List.nodup_middle, ← List.map_append,
    List.nodup_cons] at distinct
  refine ⟨⟨tended.sound, tended.last, distinct.2, fun other member =>
    tended.attended other (Waiting.mem_of_mem_others member)⟩, fun other member same => ?_⟩
  exact distinct.1 (List.mem_map.2 ⟨other, member, same⟩)

/-- Pending calls and the wait for approval belong together. -/
def Regime.pausing (settings : Settings) : Regime where
  keeps := Pauses
  sure := False
  gated := False
  settings
  durable := .of_bare fun _ _ same pauses => pauses.of_bare same
  fresh _ _ _ _ := .of_free rfl (by simp [Conversation.fresh])
  greeted _ _ _ _ _ _ _ := .of_free rfl (by simp [Conversation.fresh, Conversation.push])
  moves kept moves := moves.pauses kept

theorem Unfolds.holds_pauses {admits : List Happening → Situation → Undertaking → Prop}
    {s₀ : Situation} {scene : Scene} (pausing : s₀.store.Holds Pauses)
    (fits : ∀ history s u, admits history s u → u.Fits (.pausing s₀.settings))
    (unfolds : Unfolds admits s₀ history scene) : scene.now.store.Holds Pauses := by
  have orderly : (Regime.pausing s₀.settings).Orderly s₀ := ⟨pausing, rfl, False.elim, False.elim⟩
  exact (unfolds.keeps (.pausing s₀.settings) orderly
    fun history s u _ admitted => fits history s u admitted).2.now.holds

/-- In every history that begins where nothing is claimed, each entry follows from those before it,
and in the end everyone who waits attends to the conversation in its custody. -/
theorem Unfolds.tended {admits : List Happening → Situation → Undertaking → Prop} {s₀ : Situation}
    {scene : Scene} (faithful : Prop) (free : s₀.claimed = []) (sound : s₀.store.Sound)
    (coherent : faithful → s₀.store.Holds Conversation.Coherent)
    (stored : faithful → ∀ history s u, admits history s u → u.UsesStore)
    (unfolds : Unfolds admits s₀ history scene) :
    Happening.Each (Happening.Follows faithful) history ∧
      Tended faithful history scene.now scene.waiting ∧ Held scene.now scene.waiting := by
  induction unfolds with
  | start =>
    refine ⟨fun front h rest same => by simp at same, ⟨sound, by simp, .nil, by simp⟩, ?_⟩
    exact fun id claimed => by simp [free] at claimed
  | @begin history scene u before admitted ih =>
    obtain ⟨each, tended, held⟩ := ih
    have opens : (Happening.began u scene.now).Follows faithful history :=
      tended.opens rfl fun x u' => by cases x <;> simp [Work.happening]
    -- What is begun is refused at once, or finds its conversation free and then differs in it from
    -- all those who wait.
    by_cases busy : ∀ id, u.subject scene.now = some id → id ∈ scene.now.claimed
    · obtain ⟨s', reply, performed, quiet, cancels⟩ :=
        (Undertaking.perform_quiet busy).eq_done
      have refused (id : String) (named : u.id? = some id) :
          u.Refused faithful id (.began u scene.now) reply s' := by
        have claimed := busy id (Undertaking.subject_of_id? named)
        obtain ⟨w, inside, same⟩ := held id claimed
        obtain ⟨other, attends⟩ := tended.attended w inside
        obtain rfl : id = other := Option.some.inj (same.symm.trans attends.named)
        refine ⟨rfl, claimed, attends.stored, quiet, cancels id, fun refusal given => ?_⟩
        have done := performed.symm.trans
          (Undertaking.perform_refused named attends.solid claimed given)
        injection done
      rw [performed]
      obtain ⟨follows, later⟩ := tended.quiet held quiet refused
      exact ⟨each.append_two opens follows, later⟩
    · obtain ⟨id, subject, unclaimed⟩ : ∃ id, u.subject scene.now = some id ∧
          id ∉ scene.now.claimed := by simpa using busy
      have pausing (faithfully : faithful) : scene.now.store.Holds Pauses :=
        before.holds_pauses (fun id c found => (coherent faithfully id c found).pauses)
          fun history s u admitted => (stored faithfully history s u admitted).fits not_false
      have attends := Undertaking.perform_attends subject unclaimed tended.sound pausing
        fun faithfully => stored faithfully _ _ _ admitted
      have own (other : String) (named : u.id? = some other) : other = id :=
        Option.some.inj ((Undertaking.subject_of_id? named).symm.trans subject)
      have custody : Custody id u scene.now (history ++ [.began u scene.now]) :=
        ⟨history, [], rfl, unclaimed, by simp⟩
      obtain ⟨follows, later⟩ := tended.works rfl (tended.apart_of_free unclaimed)
        (fun other claimed _ => held other claimed) custody own attends
      exact ⟨each.append_two opens follows, later⟩
  | @answer history now front back w reply before ih =>
    obtain ⟨each, tended, held⟩ := ih
    obtain ⟨id, attends⟩ := tended.attended w List.mem_append_cons_self
    obtain ⟨s₁, custody, goesOn⟩ := attends.custody
    obtain ⟨rest, apart⟩ := tended.beside
    have opens : (Happening.answered w.undertaking w.question reply now).Follows faithful history :=
      rest.opens rfl fun x u' => by cases x <;> simp [Work.happening]
    have claims (other : String) (claimed : other ∈ now.claimed) (different : other ≠ id) :
        ∃ w ∈ front ++ back, w.undertaking.id? = some other := by
      obtain ⟨w', inside, named⟩ := held other claimed
      have another : w' ≠ w := by
        rintro rfl
        exact different (Option.some.inj (named.symm.trans attends.named))
      exact ⟨w', by simpa [another] using inside, named⟩
    have own (other : String) (named : w.undertaking.id? = some other) : other = id :=
      Option.some.inj (named.symm.trans attends.named)
    have kept : Custody id w.undertaking s₁
        (history ++ [.answered w.undertaking w.question reply now]) :=
      custody.append (by simp [Happening.now, attends.claimed])
    obtain ⟨follows, later⟩ := rest.works rfl
      (fun other member same => apart other member (same.trans attends.named.symm)) claims kept own
      (goesOn reply now (.refl id now))
    exact ⟨each.append_two opens follows, later⟩

/-- What becomes of conversations over several entries. -/
theorem Happening.Each.passes {a h : Happening} {past later : List Happening}
    (each : Each (Follows faithful) (past ++ a :: later)) (member : h ∈ later) :
    Situation.Passes faithful a.now h.now := by
  induction later generalizing past a with
  | nil => exact absurd member List.not_mem_nil
  | cons b later ih =>
    have next : Situation.Passes faithful a.now b.now :=
      (each (past ++ [a]) b later (by simp)).passes a (by simp)
    rcases List.mem_cons.1 member with rfl | further
    · exact next
    · have rest : Each (Follows faithful) ((past ++ [a]) ++ b :: later) := by simpa using each
      exact next.trans (ih rest further)

end DialogueEngine
