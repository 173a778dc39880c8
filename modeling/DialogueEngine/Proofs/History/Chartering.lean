import DialogueEngine.Proofs.Engine.Chartered
import DialogueEngine.Proofs.History.Custody

/-!
Histories under charters. Whatever is begun about a conversation is issued a charter, which may
depend on what has happened; an invariant of histories says what charters are issued from. In every
history each stretch of work then keeps to the charter of its undertaking, and what is stored of its
conversation is what was stored when it was begun, or satisfies the charter: nobody else has touched
it meanwhile.
-/

namespace DialogueEngine

open Situation (Confines Renews)

variable {admits : List Happening → Situation → Undertaking → Prop}
  {history front more : List Happening} {o h e : Happening} {s s' s₁ : Situation} {u : Undertaking}
  {ch : Charter} {past : List Exchange} {others : List Waiting}

/-- A stretch of an undertaking stops, at a question or at its end. -/
def Happening.Stops (u : Undertaking) : Happening → Prop
  | .asked u' _ _ | .ended u' _ _ => u' = u
  | .began _ _ | .answered _ _ _ _ => False

theorem Work.stops_happening (u : Undertaking) (x : Work) : (x.happening u).Stops u := by
  cases x <;> rfl

theorem Work.now_happening (u : Undertaking) (x : Work) : (x.happening u).now = x.situation := by
  cases x <;> rfl

theorem Work.happening_ne_began (u u' : Undertaking) (s : Situation) (x : Work) :
    x.happening u' ≠ .began u s := by
  cases x <;> nofun

/-- Whatever has been begun in a history was admitted. -/
theorem Unfolds.admitted {s₀ : Situation} {scene : Scene}
    (unfolds : Unfolds admits s₀ history scene) (began : .began u s ∈ history) :
    ∃ earlier, admits earlier s u := by
  induction unfolds with
  | start => cases began
  | @begin history scene u' before admitted ih =>
    rcases List.mem_append.1 began with old | new
    · exact ih old
    rcases List.mem_cons.1 new with same | last
    · obtain ⟨rfl, rfl⟩ := Happening.began.inj same
      exact ⟨history, admitted⟩
    · exact absurd (List.mem_singleton.1 last).symm (Work.happening_ne_began _ _ _ _)
  | @answer history now front back w reply before ih =>
    rcases List.mem_append.1 began with old | new
    · exact ih old
    rcases List.mem_cons.1 new with same | last
    · cases same
    · exact absurd (List.mem_singleton.1 last).symm (Work.happening_ne_began _ _ _ _)

/-- A conversation has been given back. -/
def GivenBack (history : List Happening) (c : Conversation) : Prop :=
  ∃ u outcome s, .ended u (.ok outcome) s ∈ history ∧ outcome.conversation? = some c

theorem GivenBack.mono {c : Conversation} {later : List Happening} (given : GivenBack history c)
    (grown : history ⊆ later) : GivenBack later c := by
  obtain ⟨u, outcome, s, member, gives⟩ := given
  exact ⟨u, outcome, s, grown member, gives⟩

/-- What is given back with two more entries, of which the first opens a stretch. -/
theorem GivenBack.of_append {c : Conversation} (given : GivenBack (history ++ [o, h]) c)
    (opens : ∀ u, ¬ o.Stops u) : GivenBack history c ∨
      ∃ u outcome s, h = .ended u (.ok outcome) s ∧ outcome.conversation? = some c := by
  obtain ⟨u, outcome, s, member, gives⟩ := given
  rcases List.mem_append.1 member with old | new
  · exact .inl ⟨u, outcome, s, old, gives⟩
  rcases List.mem_cons.1 new with rfl | last
  · exact absurd rfl (opens u)
  · exact .inr ⟨u, outcome, s, (List.mem_singleton.1 last).symm, gives⟩

/-- The charters that are issued in histories, and the invariant that they are issued from. -/
structure Chartering where
  charter : List Happening → Situation → Undertaking → String → Charter
  inv : List Happening → Situation → Prop
  named (history : List Happening) (s : Situation) (u : Undertaking) (id : String) :
    (charter history s u id).id = id

namespace Chartering

variable {C : Chartering}

/-- The charter `ch` is issued for an undertaking about `id` that is begun in `s₁`, after `before`.
What has happened since is `during`: the conversation has been claimed all the while, and `past` has
been answered. -/
structure Issue (C : Chartering) (admits : List Happening → Situation → Undertaking → Prop)
    (before during : List Happening) (u : Undertaking) (id : String) (s₁ : Situation)
    (past : List Exchange) : Prop where
  holds : C.inv before s₁
  admitted : admits before s₁ u
  subject : u.subject s₁ = some id
  claimed : ∀ h ∈ during, id ∈ h.now.claimed
  answered : ∀ x ∈ past, ∃ s, Happening.answered u x.1 x.2 s ∈ during

/-- An undertaking of a history that was begun in `s₁` has the charter `ch`; `past` has been
answered to it since. -/
def Issued (C : Chartering) (admits : List Happening → Situation → Undertaking → Prop)
    (history : List Happening) (u : Undertaking) (ch : Charter) (s₁ : Situation)
    (past : List Exchange) : Prop :=
  ∃ before during id, history = before ++ .began u s₁ :: during ∧
    ch = C.charter before s₁ u id ∧ C.Issue admits before during u id s₁ past

namespace Issued

theorem append (issued : C.Issued admits history u ch s₁ past)
    (claimed : ∀ h ∈ more, ch.id ∈ h.now.claimed) :
    C.Issued admits (history ++ more) u ch s₁ past := by
  obtain ⟨before, during, id, rfl, rfl, issue⟩ := issued
  rw [C.named] at claimed
  refine ⟨before, during ++ more, id, by simp, rfl, ?_⟩
  refine { issue with claimed := fun h member => ?_, answered := fun x member => ?_ }
  · exact (List.mem_append.1 member).elim (issue.claimed h) (claimed h)
  · obtain ⟨s, inside⟩ := issue.answered x member
    exact ⟨s, List.mem_append_left more inside⟩

theorem answered (issued : C.Issued admits history u ch s₁ past) {q : Question} (reply : Answer q)
    (claimed : ch.id ∈ s.claimed) :
    C.Issued admits (history ++ [.answered u q reply s]) u ch s₁ (past ++ [⟨q, reply⟩]) := by
  obtain ⟨before, during, id, rfl, rfl, issue⟩ := issued
  rw [C.named] at claimed
  refine ⟨before, during ++ [.answered u q reply s], id, by simp, rfl, ?_⟩
  refine { issue with claimed := fun h member => ?_, answered := fun x member => ?_ }
  · rcases List.mem_append.1 member with old | new
    · exact issue.claimed h old
    · obtain rfl := List.mem_singleton.1 new
      exact claimed
  · rcases List.mem_append.1 member with old | new
    · obtain ⟨s', inside⟩ := issue.answered x old
      exact ⟨s', List.mem_append_left _ inside⟩
    · obtain rfl := List.mem_singleton.1 new
      exact ⟨s, by simp⟩

theorem subject (issued : C.Issued admits history u ch s₁ past) : u.subject s₁ = some ch.id := by
  obtain ⟨before, during, id, -, rfl, issue⟩ := issued
  rw [C.named]
  exact issue.subject

/-- Who waits with a charter attends to its conversation. -/
theorem eq_id {w : Waiting} {faithful : Prop} {id : String} {later : List Happening}
    (issued : C.Issued admits history w.undertaking ch s₁ past)
    (attends : w.Attends faithful later s id) : id = ch.id :=
  Option.some.inj ((Undertaking.subject_of_id? attends.named).symm.trans issued.subject)

theorem mem_claimed {w : Waiting} {faithful : Prop} {later : List Happening}
    (issued : C.Issued admits history w.undertaking ch s₁ past)
    (tended : Tended faithful later s others) (member : w ∈ others) : ch.id ∈ s.claimed := by
  obtain ⟨id, attends⟩ := tended.attended w member
  rw [← issued.eq_id attends]
  exact attends.claimed

theorem mem_answered (issued : C.Issued admits history u ch s₁ past) {x : Exchange}
    (member : x ∈ past) : ∃ s, .answered u x.1 x.2 s ∈ history := by
  obtain ⟨before, during, id, rfl, -, issue⟩ := issued
  obtain ⟨s, inside⟩ := issue.answered x member
  exact ⟨s, by simp [inside]⟩

end Issued

/-- A stretch of work under a charter, from the entry that opens it to the one in which it stops. -/
structure Stretch (C : Chartering) (admits : List Happening → Situation → Undertaking → Prop)
    (front : List Happening) (e h : Happening) (u : Undertaking) (ch : Charter) (s₁ : Situation)
    (past : List Exchange) : Prop where
  opens : ∀ u', ¬ e.Stops u'
  stops : h.Stops u
  issued : C.Issued admits front u ch s₁ past
  law : ch.law e.now
  confines : Confines ch.id (ch.keeps past) e.now h.now
  renews : Renews ch.id (ch.keeps past) s₁ h.now
  asks : ∀ q s, h = .asked u q s → ch.asks past q
  returns : ∀ reply s, h = .ended u reply s → Undertaking.Returns ch past reply
  /-- What does not wait is done in one stretch. -/
  whole : (e = .began u s₁ ∧ h = Work.happening u (u.perform s₁)) ∨
    ∀ s reply, u.perform s₁ ≠ .done s reply

section Spreading

variable {P P' : Conversation → Prop} (given : ∀ c, GivenBack history c → P c)
  (stays : ∀ c, P c → P' c)
include given stays

/-- Where a flow is registered, what is stored and what has been given back stays. -/
theorem spread_registered {f : AuthoredFlow} {reply : Undertaking.Reply} (stored : s.store.Holds P)
    (done : (Undertaking.registration f).perform s = .done s' reply) :
    s'.store.Holds P' ∧
      ∀ c, GivenBack
        (history ++ [.began (.registration f) s, .ended (.registration f) reply s']) c → P' c := by
  obtain rfl := Undertaking.registering_of_perform done
  refine ⟨fun id c found => ?_, fun c gives => ?_⟩
  · have same := (Undertaking.registering_rests f s id).entry
    exact stays c (stored id c (Backing.get_of_entry same ▸ found))
  · rcases gives.of_append fun _ stops => stops with old | ⟨u, outcome, s', ended, back⟩
    · exact stays c (given c old)
    · obtain ⟨-, rfl, -⟩ := Happening.ended.inj ended
      rw [Undertaking.registering_gives done] at back
      cases back

/-- What a stretch of work stores and gives back is what its charter keeps. -/
theorem Stretch.spreads (stretch : C.Stretch admits front o h u ch s₁ past)
    (stored : o.now.store.Holds P) (durable : Conversation.Durable P')
    (kept : ∀ c, ch.keeps past c → P' c) :
    h.now.store.Holds P' ∧ ∀ c, GivenBack (history ++ [o, h]) c → P' c := by
  refine ⟨stretch.confines.holds durable kept fun id c found => stays c (stored id c found),
    fun c gives => ?_⟩
  rcases gives.of_append stretch.opens with old | ⟨u', outcome, s, rfl, back⟩
  · exact stays c (given c old)
  · obtain rfl : u' = u := stretch.stops
    exact kept c (stretch.returns _ s rfl outcome c rfl back)

end Spreading

/-- What is required of charters and their invariant: that charters can be issued from it, and that
whatever registrations and chartered work make of a situation leaves it true. -/
structure Upheld (C : Chartering) (admits : List Happening → Situation → Undertaking → Prop)
    (s₀ : Situation) : Prop where
  start : C.inv [] s₀
  issues {history : List Happening} {s : Situation} {u : Undertaking} {id : String}
    (holds : C.inv history s) (sound : s.store.Sound) (admitted : admits history s u)
    (subject : u.subject s = some id) :
    (C.charter history s u id).law s ∧ u.Begins (C.charter history s u id) s ∧
      (u.Approves → (C.charter history s u id).approves)
  registers {history : List Happening} {f : AuthoredFlow} {s s' : Situation}
    {reply : Undertaking.Reply} (holds : C.inv history s)
    (admitted : admits history s (.registration f))
    (done : (Undertaking.registration f).perform s = .done s' reply) :
    C.inv (history ++ [.began (.registration f) s, .ended (.registration f) reply s']) s' ∧
      ∀ u ch s₁ past, C.Issued admits history u ch s₁ past →
        (∀ s reply, u.perform s₁ ≠ .done s reply) → ch.law s → ch.law s'
  works {history : List Happening} {o h : Happening} {u : Undertaking} {ch : Charter}
    {s₁ : Situation} {past : List Exchange} (holds : C.inv history o.now)
    (stretch : C.Stretch admits (history ++ [o]) o h u ch s₁ past) :
    C.inv (history ++ [o, h]) h.now

/-- How an entry in which a stretch stops follows the one before it. -/
def Heeds (C : Chartering) (admits : List Happening → Situation → Undertaking → Prop)
    (front : List Happening) (h : Happening) : Prop :=
  ∀ u, h.Stops u → ∃ e, front.getLast? = some e ∧
    ((∃ f reply, u = .registration f ∧ e = .began u e.now ∧ u.perform e.now = .done h.now reply) ∨
      ∃ ch s₁ past, C.Stretch admits front e h u ch s₁ past)

/-- Whoever waits has a charter, and keeps to it whatever is answered. -/
def Keeps (C : Chartering) (admits : List Happening → Situation → Undertaking → Prop)
    (history : List Happening) (now : Situation) (w : Waiting) : Prop :=
  ∃ ch s₁ past, C.Issued admits history w.undertaking ch s₁ past ∧
    (∀ s reply, w.undertaking.perform s₁ ≠ .done s reply) ∧ ch.law now ∧
    Renews ch.id (ch.keeps past) s₁ now ∧
    ∀ reply s, ch.law s → Engine.Keeping ch (Undertaking.Returns ch)
      (past ++ [⟨w.question, reply⟩]) s (w.resume reply s)

/-- Whoever waits goes on doing so while others leave its law and its conversation alone. -/
theorem Keeps.spared {w : Waiting} {faithful : Prop} {id : String}
    (keeps : C.Keeps admits history s w) (attends : w.Attends faithful history s id)
    (opened : o.now = s) (stopped : h.now = s')
    (later : Tended faithful (history ++ [o, h]) s' others) (member : w ∈ others)
    (same : s'.store.backing.entry id = s.store.backing.entry id)
    (lawful : ∀ ch s₁ past, C.Issued admits history w.undertaking ch s₁ past →
      (∀ s reply, w.undertaking.perform s₁ ≠ .done s reply) → ch.law s → ch.law s') :
    C.Keeps admits (history ++ [o, h]) s' w := by
  obtain ⟨ch, s₁, past, issued, waits, law, renews, goesOn⟩ := keeps
  obtain rfl := issued.eq_id attends
  have claimed : ∀ e ∈ [o, h], ch.id ∈ e.now.claimed := by
    simp [opened, stopped, attends.claimed, issued.mem_claimed later member]
  exact ⟨ch, s₁, past, issued.append claimed, waits, lawful ch s₁ past issued waits law,
    renews.trans (.inl same) fun _ kept => kept, goesOn⟩

/-- An entry in which no stretch stops. -/
theorem heeds_opening (opening : ∀ u, ¬ o.Stops u) : C.Heeds admits front o :=
  fun u stops => absurd stops (opening u)

variable {s₀ : Situation}

/-- A stretch of work that keeps to its charter. -/
theorem Upheld.stretch {x : Work} (upheld : C.Upheld admits s₀) (opening : ∀ u', ¬ o.Stops u')
    (holds : C.inv history o.now) (issued : C.Issued admits (history ++ [o]) u ch s₁ past)
    (law : ch.law o.now) (renews : Renews ch.id (ch.keeps past) s₁ o.now)
    (waits : ∀ s q resume, x = .ask s q resume →
      ch.id ∈ s.claimed ∧ ∀ s reply, u.perform s₁ ≠ .done s reply)
    (whole : (o = .began u s₁ ∧ x = u.perform s₁) ∨ ∀ s reply, u.perform s₁ ≠ .done s reply)
    (keeping : Engine.Keeping ch (Undertaking.Returns ch) past o.now x) :
    C.Heeds admits (history ++ [o]) (x.happening u) ∧
      C.inv (history ++ [o, x.happening u]) x.situation ∧
      Confines ch.id (ch.keeps past) o.now x.situation ∧
      ∀ w ∈ x.waiting u, C.Keeps admits (history ++ [o, x.happening u]) x.situation w := by
  have confines : Confines ch.id (ch.keeps past) o.now x.situation := by
    cases x with
    | done s reply => exact keeping.1.confines
    | ask s q resume => exact keeping.1
  have renewed : Renews ch.id (ch.keeps past) s₁ x.situation :=
    renews.trans confines.own fun _ kept => kept
  have asks (q : Question) (s : Situation) (same : x.happening u = .asked u q s) :
      ch.asks past q := by
    cases x with
    | done s' reply => cases same
    | ask s' q' resume =>
      cases same
      exact keeping.2.1
  have returns (reply : Undertaking.Reply) (s : Situation)
      (same : x.happening u = .ended u reply s) : Undertaking.Returns ch past reply := by
    cases x with
    | done s' reply' =>
      cases same
      exact keeping.2
    | ask s' q' resume => cases same
  have stretch : C.Stretch admits (history ++ [o]) o (x.happening u) u ch s₁ past := by
    refine ⟨opening, x.stops_happening u, issued, law, ?_, ?_, asks, returns,
      whole.imp_left fun ⟨began, performed⟩ => ⟨began, congrArg (Work.happening u) performed⟩⟩
    · rw [Work.now_happening]
      exact confines
    · rw [Work.now_happening]
      exact renewed
  refine ⟨fun u' stops => ?_, ?_, confines, fun w member => ?_⟩
  · obtain rfl : u = u' := by
      cases x with
      | done s reply => exact stops
      | ask s q resume => exact stops
    exact ⟨o, by simp, .inr ⟨ch, s₁, past, stretch⟩⟩
  · have later := upheld.works holds stretch
    rwa [Work.now_happening] at later
  · cases x with
    | done s reply => cases member
    | ask s q resume =>
      obtain rfl := List.mem_singleton.1 member
      obtain ⟨claimed, asked⟩ := waits s q resume rfl
      refine ⟨ch, s₁, past, ?_, asked, ?_, renewed, keeping.2.2⟩
      · have held : ∀ h ∈ [Happening.asked u q s], ch.id ∈ h.now.claimed := by
          simpa [Happening.now] using claimed
        simpa [Work.happening] using issued.append held
      · exact ch.lawful law confines.settings confines.flows

/-- What holds of a history under charters, and of those who wait at its end. -/
structure Chartered (C : Chartering) (admits : List Happening → Situation → Undertaking → Prop)
    (history : List Happening) (scene : Scene) : Prop where
  each : Happening.Each (C.Heeds admits) history
  holds : C.inv history scene.now
  waiting : ∀ w ∈ scene.waiting, C.Keeps admits history scene.now w

/-- Who has just begun to wait under a charter has claimed its conversation. -/
theorem Issued.claims {x : Work} (issued : C.Issued admits history u ch s₁ past)
    (tended : Tended False more x.situation (x.waiting u ++ others)) (s : Situation) (q : Question)
    (resume : Answer q → Situation → Interaction Situation Question Answer Undertaking.Reply)
    (same : x = .ask s q resume) : ch.id ∈ s.claimed := by
  subst same
  exact issued.mem_claimed (w := ⟨u, q, resume⟩) tended List.mem_cons_self

/-- Only registrations are about no conversation. -/
theorem registration_of_subject (about : u.subject s = none) : ∃ f, u = .registration f := by
  cases u with
  | registration f => exact ⟨f, rfl⟩
  | stepWith c => cases about
  | operation op => cases op <;> cases about

/-- Work on one conversation leaves those that others have claimed: it works on another one, or it
is refused. -/
theorem entry_of_claimed {keeps : Conversation → Prop} {id other : String}
    (subject : u.subject s = some id) (claimed : other ∈ s.claimed)
    (confines : Confines id keeps s (Work.situation (u.perform s))) :
    (Work.situation (u.perform s)).store.backing.entry other = s.store.backing.entry other := by
  by_cases same : other = id
  · subst same
    have busy (id : String) (about : u.subject s = some id) : id ∈ s.claimed := by
      obtain rfl : other = id := Option.some.inj (subject.symm.trans about)
      exact claimed
    obtain ⟨s', reply, performed, quiet, -⟩ := (Undertaking.perform_quiet busy).eq_done
    rw [performed]
    exact congrArg (Backing.entry other) quiet.backing
  · exact (confines.others other same).entry

section Steps

variable {scene : Scene} (upheld : C.Upheld admits s₀) (free : s₀.claimed = [])
  (sound : s₀.store.Sound)
include upheld free sound

/-- A flow is registered. -/
theorem Chartered.registered {f : AuthoredFlow} (chartered : C.Chartered admits history scene)
    (before : Unfolds admits s₀ history scene)
    (admitted : admits history scene.now (.registration f)) :
    C.Chartered admits
      (history ++ [.began (.registration f) scene.now,
        Work.happening (.registration f) ((Undertaking.registration f).perform scene.now)])
      ⟨Work.situation ((Undertaking.registration f).perform scene.now),
        Work.waiting (.registration f) ((Undertaking.registration f).perform scene.now) ++
          scene.waiting⟩ := by
  have tended := (before.tended False free sound False.elim False.elim).2.1
  have later := ((before.begin _ admitted).tended False free sound False.elim False.elim).2.1
  have stops := Work.now_happening (.registration f)
    ((Undertaking.registration f).perform scene.now)
  have opens : C.Heeds admits history (.began (.registration f) scene.now) :=
    heeds_opening fun _ stops => stops
  obtain ⟨s', reply, performed, quiet, -⟩ :=
    (Undertaking.perform_quiet (u := .registration f) (s := scene.now) nofun).eq_done
  obtain ⟨holds, lawful⟩ := upheld.registers chartered.holds admitted performed
  rw [performed] at later stops ⊢
  refine ⟨chartered.each.append_two opens fun u' stops => ?_, holds, fun w member => ?_⟩
  · obtain rfl : Undertaking.registration f = u' := stops
    exact ⟨.began (.registration f) scene.now, by simp, .inl ⟨f, reply, rfl, rfl, performed⟩⟩
  · obtain ⟨id, attends⟩ := tended.attended w member
    exact (chartered.waiting w member).spared attends rfl stops later member
      (congrArg (Backing.entry id) quiet.backing) fun ch s₁ past => lawful w.undertaking ch s₁ past

/-- Work on a conversation is begun, and a charter is issued for it. -/
theorem Chartered.begun {id : String} (chartered : C.Chartered admits history scene)
    (before : Unfolds admits s₀ history scene) (admitted : admits history scene.now u)
    (subject : u.subject scene.now = some id) :
    C.Chartered admits
      (history ++ [.began u scene.now, Work.happening u (u.perform scene.now)])
      ⟨Work.situation (u.perform scene.now),
        Work.waiting u (u.perform scene.now) ++ scene.waiting⟩ := by
  have tended := (before.tended False free sound False.elim False.elim).2.1
  have later := ((before.begin u admitted).tended False free sound False.elim False.elim).2.1
  have opens : C.Heeds admits history (.began u scene.now) := heeds_opening fun _ stops => stops
  obtain ⟨law, begins, approves⟩ := upheld.issues chartered.holds tended.sound admitted subject
  have named := C.named history scene.now u id
  have issued : C.Issued admits (history ++ [.began u scene.now]) u
      (C.charter history scene.now u id) scene.now [] :=
    ⟨history, [], id, rfl, rfl, chartered.holds, admitted, subject, by simp, by simp⟩
  have keeping := Undertaking.perform_keeping (subject.trans (congrArg some named.symm)) law
    begins approves
  obtain ⟨heeds, holds, confines, own⟩ := upheld.stretch (o := .began u scene.now)
    (x := u.perform scene.now) (fun _ stops => stops) chartered.holds issued law (.inl rfl)
    (fun s q resume same => ⟨issued.claims later s q resume same,
      fun s' reply done => by rw [same] at done; cases done⟩)
    (.inl ⟨rfl, rfl⟩) keeping
  rw [named] at confines
  refine ⟨chartered.each.append_two opens heeds, holds, fun w member => ?_⟩
  rcases List.mem_append.1 member with new | old
  · exact own w new
  · obtain ⟨other, attends⟩ := tended.attended w old
    exact (chartered.waiting w old).spared attends rfl (Work.now_happening _ _) later member
      (entry_of_claimed subject attends.claimed confines)
      fun ch _ _ _ _ law => ch.lawful law confines.settings confines.flows

/-- Work on a conversation goes on with an answer, under the charter that it was issued. -/
theorem Chartered.resumed {now : Situation} {front back : List Waiting} {w : Waiting}
    (reply : Answer w.question) (chartered : C.Chartered admits history ⟨now, front ++ w :: back⟩)
    (before : Unfolds admits s₀ history ⟨now, front ++ w :: back⟩) :
    C.Chartered admits
      (history ++ [.answered w.undertaking w.question reply now,
        Work.happening w.undertaking (w.resume reply now)])
      ⟨Work.situation (w.resume reply now),
        Work.waiting w.undertaking (w.resume reply now) ++ (front ++ back)⟩ := by
  have tended := (before.tended False free sound False.elim False.elim).2.1
  have later := ((before.answer w reply).tended False free sound False.elim False.elim).2.1
  obtain ⟨ch, s₁, past, issued, waits, law, renews, goesOn⟩ :=
    chartered.waiting w List.mem_append_cons_self
  have claimed := issued.mem_claimed tended List.mem_append_cons_self
  have issued' := issued.answered reply claimed
  obtain ⟨rest, apart⟩ := tended.beside
  have opens : C.Heeds admits history (.answered w.undertaking w.question reply now) :=
    heeds_opening fun _ stops => stops
  have kept : Renews ch.id (ch.keeps (past ++ [⟨w.question, reply⟩])) s₁ now :=
    renews.imp_right fun ⟨c, named, stored, keeps⟩ =>
      ⟨c, named, stored, ch.later keeps (List.prefix_append _ _)⟩
  obtain ⟨heeds, holds, confines, mine⟩ := upheld.stretch
    (o := .answered w.undertaking w.question reply now) (fun _ stops => stops) chartered.holds
    issued' law kept (fun s q resume same => ⟨issued.claims later s q resume same, waits⟩)
    (.inr waits) (goesOn reply now law)
  refine ⟨chartered.each.append_two opens heeds, holds, fun w' member => ?_⟩
  rcases List.mem_append.1 member with new | old
  · exact mine w' new
  · obtain ⟨other, attends⟩ := rest.attended w' old
    obtain ⟨id, attends'⟩ := tended.attended w List.mem_append_cons_self
    have different : other ≠ ch.id := by
      rintro rfl
      have own := issued.eq_id attends'
      exact apart w' old (attends.named.trans (own ▸ attends'.named.symm))
    exact (chartered.waiting w' (Waiting.mem_of_mem_others old)).spared attends rfl
      (Work.now_happening _ _) later member (confines.others other different).entry
      fun ch' _ _ _ _ law => ch'.lawful law confines.settings confines.flows

/-- In every history that begins where nothing is claimed, each stretch of work keeps to the charter
of its undertaking. -/
theorem Upheld.unfolds (unfolds : Unfolds admits s₀ history scene) :
    C.Chartered admits history scene := by
  induction unfolds with
  | start => exact ⟨fun front h rest same => by simp at same, upheld.start, by simp⟩
  | @begin history scene u before admitted ih =>
    cases subject : u.subject scene.now with
    | none =>
      obtain ⟨f, rfl⟩ := registration_of_subject subject
      exact ih.registered upheld free sound before admitted
    | some id => exact ih.begun upheld free sound before admitted subject
  | answer w reply before ih => exact ih.resumed upheld free sound reply before

end Steps

end Chartering

end DialogueEngine
