import DialogueEngine.Proofs.Engine.Announced
import DialogueEngine.Proofs.History.Chartering
import DialogueEngine.Proofs.History.Navigation
import DialogueEngine.Proofs.History.Placement

/-!
What is heard of steps in histories. Whoever takes steps with a conversation has it in custody, and
nobody else lets anything be heard of it meanwhile; so what is heard of the conversation from the
beginning of an undertaking to its end is what its steps let be heard, whatever else happens.
-/

namespace DialogueEngine

open Conversation (Pauses)
open Engine (Reports Silent)
open Situation (Discreet Idle)

/-! ## Undertakings -/

namespace Undertaking

variable {id : String} {s s' : Situation} {u : Undertaking} {told : List Event}
  {more : List Exchange} {reply : Reply}

/-- The most steps that an undertaking takes. -/
def mostSteps : Undertaking → Nat
  | .stepWith _ | .operation (.step _) | .operation (.goForward _) => 1
  | .operation (.run _ most) => max 1 most
  | _ => 0

/-- Whether an undertaking takes steps with a conversation. -/
def TakesSteps (id : String) (u : Undertaking) : Prop := u.id? = some id ∧ u.mostSteps ≠ 0

/-- The conversation that steps are taken with: the one at hand, or the one that is stored. -/
def TakesUp (id : String) (s : Situation) (c : Conversation) : Undertaking → Prop
  | .stepWith given => given = c
  | _ => s.store.backing.get id = .ok (some c)

/-- No step is taken: the undertaking fails or is refused, or it shows a record that is there. -/
def Refrains (u : Undertaking) (id : String) (s : Situation) (reply : Reply) : Prop :=
  (∃ f, reply = .error f) ∨
  (∃ c, u = .stepWith c ∧ (Text.isBlankText c.id = true ∨ c.id ∈ s.claimed)) ∨
  ∃ c, u = .operation (.goForward id) ∧ s.store.backing.get id = .ok (some c) ∧
    s.standing id c.trace.length + 1 < c.trace.length

/-- What is heard of an undertaking that takes steps, begun in a situation, and what is exchanged
for it: that of its steps. -/
inductive Recounts (u : Undertaking) (id : String) (s : Situation) :
    List Event → List Exchange → Reply → Situation → Prop
  | refrains {reply : Reply} {s' : Situation} (refrains : u.Refrains id s reply) :
      Recounts u id s [] [] reply s'
  | strides {told : List Event} {more : List Exchange} {reply : Reply} {s₁ s' : Situation}
      {c : Conversation} {n : Nat} {o : StepResult} (takesUp : u.TakesUp id s c)
      (few : n ≤ u.mostSteps) (strides : Strides n s c told more o s₁)
      (left : s'.store = s₁.store) (gives : ∀ o', reply = .ok (.step o') → o' = o) :
      Recounts u id s told more reply s'

end Undertaking

namespace Engine

variable {α : Type} {id : String} {s : Situation} {u : Undertaking}

theorem Reports.outcome {x : Engine α} {f : α → Undertaking.Reply}
    {post : List Event → List Exchange → Undertaking.Reply → Situation → Prop}
    (reports : Reports id x s fun told more a s' => post told more (f a) s') :
    Reports id (do return f (← x)) s post := by
  apply reports.bind
  intro told more a s' holds
  exact .pure (by simpa using holds)

theorem Marches.recounts {most : Nat} {told : List Event} {more : List Exchange}
    {reply : Except Failure StepResult} {s' : Situation}
    (marches : Marches id most s told more reply s') (few : most ≤ u.mostSteps)
    (stored : ∀ c, s.store.backing.get id = .ok (some c) → u.TakesUp id s c) :
    u.Recounts id s told more (reply.map .step) s' := by
  rcases marches with ⟨⟨f, rfl⟩, rfl, rfl⟩ | ⟨c, n, o, s₁, found, less, strides, left, rfl⟩
  · exact .refrains (.inl ⟨f, rfl⟩)
  · refine .strides (stored c found) (less.trans few) strides left fun o' same => ?_
    cases same
    rfl

/-- What is heard of going forward is nothing among the records, and that of a step beyond. -/
theorem reports_goForward (sound : s.store.Sound) : Reports id (goForward id) s
    fun told more reply s' => Undertaking.Recounts (.operation (.goForward id)) id s told more
      (reply.map .record) s' := by
  have beyond {s₁ : Situation} (idle : Idle s s₁) (recorded : Nat) :
      Reports id (stepBeyond id recorded) s₁ fun told more reply s' =>
        Undertaking.Recounts (.operation (.goForward id)) id s told more
          (reply.map .record) s' := by
    apply (reports_step (sound.of_backing idle.backing)).bind
    rintro told more _ s₂ (⟨⟨f, rfl⟩, rfl, rfl⟩ | ⟨c, n, o, s₃, found, few, strides, left, rfl⟩)
    · exact .pure (.refrains (.inl ⟨f, rfl⟩))
    · have drops : (dropCursor id s₂).Ends fun _ s' =>
          s'.published = s₂.published ∧ s'.store = s₂.store := ⟨rfl, rfl⟩
      apply (Reports.of_ends drops).bind
      rintro _ _ _ s₄ ⟨rfl, rfl, kept⟩
      have stored : s.store.backing.get id = .ok (some c) := by rw [← idle.backing, found]
      have recounts (r : Option StepRecord) : Undertaking.Recounts (.operation (.goForward id)) id s
          told more (.ok (.record r)) s₄ :=
        .strides stored few (strides.of_same idle.flows idle.requests) (kept.trans left)
          fun _ same => by cases same
      refine .pure ?_
      simp only [List.append_nil]
      exact recounts _
  have looks : (trace id s).Ends fun records s' => Idle s s' ∧ ∀ r, records = .ok r →
      ∃ c, s.store.backing.get id = .ok (some c) ∧ c.trace = r := by
    apply Activity.meets_bind (load_ends_idle id s)
    rintro loaded s' ⟨idle, found⟩
    split
    · exact ⟨idle, nofun⟩
    · next c => exact ⟨idle, fun r same => ⟨c, found c rfl, Except.ok.inj same⟩⟩
  apply ((looks_trace id).silent.reports looks).bind
  rintro _ _ records s₁ ⟨rfl, rfl, idle, shown⟩
  cases records with
  | error f => exact .pure (.refrains (.inl ⟨f, rfl⟩))
  | ok records =>
    obtain ⟨c, found, rfl⟩ := shown _ rfl
    have stands : (cursor id c.trace.length s₁).Ends fun place s' => s' = s₁ ∧
        ∀ n, place = some n → n = s.standing id c.trace.length := by
      by_cases none : c.trace.length = 0
      · rw [none]
        exact ⟨rfl, nofun⟩
      · rw [cursor_some none]
        refine ⟨rfl, fun n same => ?_⟩
        cases same
        rw [Situation.standing, idle.cursors, Situation.standing]
    apply ((looks_cursor id _).silent.reports stands).bind
    rintro _ _ place s₂ ⟨rfl, rfl, rfl, places⟩
    split
    · exact beyond idle _
    next place =>
    split
    · next further =>
      apply (looks_setCursor id (place + 1)).silent.quiet.bind
      rintro _ _ _ s₃ ⟨rfl, rfl⟩
      refine .pure (.refrains (.inr (.inr ⟨c, rfl, found, ?_⟩)))
      rwa [← places place rfl]
    · exact beyond idle _

end Engine

namespace Undertaking

variable {id : String} {s : Situation} {u : Undertaking}

/-- Whoever neither takes steps nor decides about a call is not heard of. -/
theorem perform_silent (idle : u.mostSteps = 0)
    (undecided : ∀ id call decision, u ≠ .operation (.resolve id call decision)) :
    Silent u.perform := by
  have outcome {α : Type} {x : Engine α} (silent : Silent x) (f : α → Reply) :
      Silent (do return f (← x)) := silent.bind fun a => .pure (f a)
  cases u with
  | registration flow => exact outcome (Engine.silent_register flow) _
  | stepWith c => cases idle
  | operation op =>
    cases op with
    | start chosen flow message => exact outcome (Engine.silent_start chosen flow message) _
    | post id text => exact outcome (Engine.silent_post id text) _
    | step id => cases idle
    | run id most => exact absurd (le_max_left 1 most) (by simp [show max 1 most = 0 from idle])
    | cancel id => exact outcome (Engine.silent_cancel id) _
    | setRecording id enabled => exact outcome (Engine.silent_setRecording id enabled) _
    | resolve id call decision => exact absurd rfl (undecided id call decision)
    | enableTrace id => exact outcome (Engine.silent_setRecording id true) _
    | resumeTrace id => exact outcome (Engine.silent_resumeTrace id) _
    | currentRecord id => exact outcome (Engine.looks_currentRecord id).silent _
    | goBack id => exact outcome (Engine.looks_goBack id).silent _
    | goForward id => cases idle

/-- What is heard of an undertaking about a conversation is about that alone; it is that of its
steps, if it is one that takes steps. -/
theorem perform_reports (subject : u.subject s = some id) (sound : s.store.Sound) :
    Reports id u.perform s fun told more reply s' =>
      u.TakesSteps id → u.Recounts id s told more reply s' := by
  by_cases idle : u.mostSteps = 0
  · have decides : Reports id u.perform s fun _ _ _ _ => True := by
      by_cases undecided : ∀ id call decision, u ≠ .operation (.resolve id call decision)
      · exact (perform_silent idle undecided).quiet.mono fun _ _ _ _ _ => trivial
      · push Not at undecided
        obtain ⟨other, call, decision, rfl⟩ := undecided
        obtain rfl := Option.some.inj subject
        exact .outcome (Engine.reports_resolve sound call decision)
    exact decides.mono fun _ _ _ _ _ takes => absurd idle takes.2
  have steps : Reports id u.perform s (u.Recounts id s) := by
    cases u with
    | registration flow => exact absurd rfl idle
    | stepWith c =>
      obtain rfl := Option.some.inj subject
      refine .outcome ((Engine.reports_stepWith c).mono ?_)
      rintro told more o s' (⟨refused, rfl, rfl⟩ | ⟨s₁, announced, left⟩)
      · exact .refrains (.inr (.inl ⟨c, rfl, refused⟩))
      · refine .strides rfl (Nat.le_refl 1) (.one announced) left fun o' same => ?_
        cases same
        rfl
    | operation op =>
      cases op with
      | step _ =>
        obtain rfl := Option.some.inj subject
        exact .outcome ((Engine.reports_step sound).mono fun _ _ _ _ marches =>
          marches.recounts (Nat.le_refl 1) fun _ found => found)
      | run _ most =>
        obtain rfl := Option.some.inj subject
        exact .outcome ((Engine.reports_run sound most).mono fun _ _ _ _ marches =>
          marches.recounts (Nat.le_refl _) fun _ found => found)
      | goForward _ =>
        obtain rfl := Option.some.inj subject
        exact .outcome (Engine.reports_goForward sound)
      | _ => exact absurd rfl idle
  exact steps.mono fun _ _ _ _ recounts _ => recounts

/-- Whoever finds the conversation claimed asks nothing and is not heard of. -/
theorem perform_unheard (busy : ∀ id, u.id? = some id → id ∈ s.claimed) :
    (u.perform s).Ends fun _ s' => s'.published = s.published := by
  have refused {α : Type} {id : String} {body : Engine (Except Failure α)}
      {f : α → Operation.Outcome} (busy : id ∈ s.claimed) :
      ((do return (← Engine.claiming id body).map f : Engine Reply) s).Ends fun _ s' =>
        s'.published = s.published := by
    rw [Engine.perform_claiming body f busy]
    exact rfl
  by_cases silent : u.mostSteps = 0 ∧
      ∀ id call decision, u ≠ .operation (.resolve id call decision)
  · exact perform_silent silent.1 silent.2 s
  cases u with
  | stepWith c =>
    obtain ⟨f, refuses⟩ := Engine.stepWith_refused (.inr (busy c.id rfl))
    have ends : (Engine.stepWith c s).Ends fun _ s' => s'.published = s.published := by
      rw [refuses]
      exact rfl
    exact Activity.meets_bind ends fun _ _ same => same
  | registration flow => exact absurd ⟨rfl, nofun⟩ silent
  | operation op =>
    cases op with
    | step id => exact refused (busy id rfl)
    | run id most => exact refused (busy id rfl)
    | resolve id call decision => exact refused (busy id rfl)
    | goForward id =>
      have beyond {s' : Situation} (same : s'.core = s.core ∧ s'.published = s.published)
          (recorded : Nat) : (Engine.stepBeyond id recorded s').Ends fun _ s'' =>
            s''.published = s.published := by
        have claimed : id ∈ s'.claimed := by
          rw [Situation.claimed_of_core same.1]
          exact busy id rfl
        unfold Engine.stepBeyond Engine.step
        rw [Activity.bind_run, Engine.claiming_busy _ claimed]
        exact same.2
      have goes : (Engine.goForward id s).Ends fun _ s' => s'.published = s.published := by
        have looks := (Engine.trace_ends id s).and_also ((Engine.looks_trace id).silent s).meets
        apply Activity.meets_bind looks
        intro records s₁ same
        split
        · exact same.2
        next records =>
        have looks := (Engine.cursor_ends id records.length s₁).and_also
          ((Engine.looks_cursor id records.length).silent s₁).meets
        apply Activity.meets_bind looks
        intro place s₂ same'
        have both := And.intro (same'.1.trans same.1) (same'.2.trans same.2)
        split
        · exact beyond both _
        split
        · exact both.2
        · exact beyond both _
      exact Activity.meets_bind goes fun _ _ same => same
    | _ => exact absurd ⟨rfl, nofun⟩ silent

end Undertaking

/-! ## What happens meanwhile -/

/-- What is answered to whoever attends to a conversation. -/
def Happening.answerAbout? (id : String) : Happening → Option Exchange
  | .answered u q answer _ => if u.id? = some id then some ⟨q, answer⟩ else none
  | _ => none

/-- What is answered, entry by entry, to those who attend to a conversation. -/
def answersAbout (id : String) (history : List Happening) : List Exchange :=
  history.filterMap (Happening.answerAbout? id)

section Telling

variable {id : String} {u : Undertaking} {s s' s₁ : Situation} {past : List Exchange}
  {history more : List Happening} {o h : Happening}

/-- An undertaking about a conversation was begun in a situation; the conversation has been claimed
since, and so much has been answered. -/
def Underway (id : String) (u : Undertaking) (s₁ : Situation) (past : List Exchange)
    (history : List Happening) : Prop :=
  ∃ before during, history = before ++ .began u s₁ :: during ∧
    (∀ h ∈ during, id ∈ h.now.claimed) ∧ past = answersAbout id during

theorem Underway.began (id : String) (u : Undertaking) (s : Situation) (history : List Happening) :
    Underway id u s [] (history ++ [.began u s]) :=
  ⟨history, [], rfl, fun _ none => absurd none List.not_mem_nil, rfl⟩

theorem Underway.append (underway : Underway id u s₁ past history)
    (claimed : ∀ h ∈ more, id ∈ h.now.claimed) :
    Underway id u s₁ (past ++ answersAbout id more) (history ++ more) := by
  obtain ⟨before, during, rfl, held, rfl⟩ := underway
  refine ⟨before, during ++ more, by simp, fun h member => ?_, List.filterMap_append.symm⟩
  exact (List.mem_append.1 member).elim (held h) (claimed h)

theorem Underway.aside (underway : Underway id u s₁ past history)
    (claimed : ∀ h ∈ more, id ∈ h.now.claimed) (others : ∀ h ∈ more, h.answerAbout? id = none) :
    Underway id u s₁ past (history ++ more) := by
  have none : answersAbout id more = [] := List.filterMap_eq_nil_iff.2 others
  simpa [none] using underway.append claimed

/-- What has been heard of a conversation in the end, since an undertaking about it was begun. -/
def Undertaking.Tells (u : Undertaking) (id : String) (s₁ : Situation) (past : List Exchange)
    (reply : Undertaking.Reply) (s : Situation) : Prop :=
  ∃ told, s.heard id = s₁.heard id ++ told ∧
    (u.TakesSteps id → u.Recounts id s₁ told past reply s)

/-- Work of an undertaking about a conversation lets nothing be heard of any other. -/
abbrev Work.Tells (id : String) (u : Undertaking) (s₁ : Situation) (past : List Exchange)
    (since : Situation) (x : Work) : Prop :=
  x.Chronicles (fun s s' => s'.heard id = s.heard id) (fun _ => Discreet id) (fun _ _ => True)
    (fun past since reply s => Discreet id since s ∧ u.Tells id s₁ past reply s) past since

theorem Undertaking.perform_tells (subject : u.subject s = some id) (sound : s.store.Sound) :
    Work.Tells id u s [] s (u.perform s) := by
  refine (perform_reports subject sound [] s (.refl id s)).mono ?_
  rintro _ since reply s' ⟨discreet, told, more, heard, rfl, recounts⟩
  exact ⟨discreet, told, heard, recounts⟩

/-- Whoever waits goes on telling, as long as nobody else lets anything be heard of the
conversation. -/
def Waiting.Tells (history : List Happening) (now : Situation) (w : Waiting) : Prop :=
  ∃ id s₁ past, w.undertaking.id? = some id ∧ Underway id w.undertaking s₁ past history ∧
    ∀ reply s, s.heard id = now.heard id →
      Work.Tells id w.undertaking s₁ (past ++ [⟨w.question, reply⟩]) s (w.resume reply s)

/-- It does so while another stretch goes by. -/
theorem Waiting.Tells.spared {w : Waiting} (tells : w.Tells history s)
    (claimed : ∀ id, w.undertaking.id? = some id → id ∈ o.now.claimed ∧ id ∈ h.now.claimed)
    (heard : ∀ id, w.undertaking.id? = some id → s'.heard id = s.heard id)
    (opens : ∀ id, w.undertaking.id? = some id → o.answerAbout? id = none)
    (stops : ∀ id, h.answerAbout? id = none) : w.Tells (history ++ [o, h]) s' := by
  obtain ⟨id, s₁, past, named, underway, goesOn⟩ := tells
  refine ⟨id, s₁, past, named, underway.aside ?_ ?_,
    fun reply s'' same => goesOn reply s'' (same.trans (heard id named))⟩
  · simpa using claimed id named
  · simpa using ⟨opens id named, stops id⟩

/-- In the end of an undertaking that takes steps, what has been heard of its conversation since it
was begun is what its steps let be heard. -/
def Happening.Recounted (front : List Happening) (h : Happening) : Prop :=
  ∀ u reply s id, h = .ended u reply s → u.TakesSteps id →
    ∃ s₁ past, Underway id u s₁ past front ∧ u.Tells id s₁ past reply s

theorem Happening.recounted_began (front : List Happening) (u : Undertaking) (s : Situation) :
    (Happening.began u s).Recounted front :=
  fun _ _ _ _ same => by cases same

theorem Work.answerAbout?_happening (id : String) (u : Undertaking) (x : Work) :
    (x.happening u).answerAbout? id = none := by
  cases x <;> rfl

/-- Whoever waits has claimed the conversation that it is about. -/
theorem Tended.claims {others : List Waiting} {w : Waiting} {faithful : Prop}
    (tended : Tended faithful history s others) (member : w ∈ others)
    (named : w.undertaking.id? = some id) : id ∈ s.claimed := by
  obtain ⟨other, attends⟩ := tended.attended w member
  obtain rfl : id = other := Option.some.inj (named.symm.trans attends.named)
  exact attends.claimed

/-- A stretch of work stops. -/
theorem Work.Tells.stops {x : Work} (tells : x.Tells id u s₁ past s) (named : u.id? = some id)
    (underway : Underway id u s₁ past (history ++ [o]))
    (claims : ∀ w ∈ x.waiting u, w.undertaking.id? = some id → id ∈ x.situation.claimed) :
    (x.happening u).Recounted (history ++ [o]) ∧ Discreet id s x.situation ∧
      ∀ w ∈ x.waiting u, w.Tells (history ++ [o, x.happening u]) x.situation := by
  cases x with
  | done s' reply =>
    refine ⟨fun u' reply' s'' other same takes => ?_, tells.1,
      fun _ none => absurd none List.not_mem_nil⟩
    cases same
    obtain rfl : id = other := Option.some.inj (named.symm.trans takes.1)
    exact ⟨s₁, past, underway, tells.2⟩
  | ask s' q resume =>
    refine ⟨fun _ _ _ _ same => (by cases same), tells.1, fun w member => ?_⟩
    obtain rfl := List.mem_singleton.1 member
    have claimed : id ∈ (Happening.asked u q s').now.claimed := claims _ member named
    have later : Underway id u s₁ past (history ++ [o] ++ [.asked u q s']) :=
      underway.aside (List.forall_mem_singleton.2 claimed) (List.forall_mem_singleton.2 rfl)
    rw [List.append_assoc] at later
    exact ⟨id, s₁, past, named, later, tells.2.2⟩

end Telling

/-! ## Histories -/

variable {admits : List Happening → Situation → Undertaking → Prop} {s₀ : Situation}
  {history : List Happening} {scene : Scene}

/-- Whoever has ended has told what was heard, and whoever waits goes on telling. -/
theorem Unfolds.told (free : s₀.claimed = []) (sound : s₀.store.Sound)
    (unfolds : Unfolds admits s₀ history scene) :
    Happening.Each Happening.Recounted history ∧
      ∀ w ∈ scene.waiting, w.Tells history scene.now := by
  induction unfolds with
  | start =>
    exact ⟨fun front h rest same => (by simp at same), fun _ none => absurd none List.not_mem_nil⟩
  | @begin history scene u before admitted ih =>
    obtain ⟨each, waits⟩ := ih
    obtain ⟨-, tended, -⟩ := before.tended False free sound False.elim False.elim
    obtain ⟨-, later, -⟩ := (before.begin u admitted).tended False free sound False.elim False.elim
    have opens := Happening.recounted_began history u scene.now
    have claims (w : Waiting) (member : w ∈ scene.waiting) (id : String)
        (named : w.undertaking.id? = some id) : id ∈ (Happening.began u scene.now).now.claimed ∧
          id ∈ (Work.happening u (u.perform scene.now)).now.claimed := by
      rw [Work.now_happening]
      exact ⟨tended.claims member named, later.claims (List.mem_append_right _ member) named⟩
    -- Whoever finds its conversation claimed ends at once and is not heard of; whoever finds it free
    -- is heard of about that alone, and nobody who waits attends to it.
    by_cases busy : ∀ id, u.id? = some id → id ∈ scene.now.claimed
    · obtain ⟨s', reply, performed, same⟩ := (Undertaking.perform_unheard busy).eq_done
      rw [performed] at claims ⊢
      refine ⟨each.append_two opens fun u' reply' s'' id ended takes => ?_, fun w member => ?_⟩
      · cases ended
        have tells := Undertaking.perform_tells (Undertaking.subject_of_id? takes.1) tended.sound
        rw [performed] at tells
        exact ⟨scene.now, [], .began .., tells.2⟩
      · exact (waits w member).spared (claims w member)
          (fun id _ => Situation.heard_of_published same id) (fun _ _ => rfl) fun _ => rfl
    · obtain ⟨id, named, unclaimed⟩ : ∃ id, u.id? = some id ∧ id ∉ scene.now.claimed := by
        simpa using busy
      have tells := Undertaking.perform_tells (Undertaking.subject_of_id? named) tended.sound
      obtain ⟨ends, discreet, goesOn⟩ := tells.stops named (.began id u scene.now history)
        fun w member => later.claims (List.mem_append_left _ member)
      refine ⟨each.append_two opens ends, fun w member => ?_⟩
      rcases List.mem_append.1 member with new | old
      · exact goesOn w new
      · refine (waits w old).spared (claims w old) (fun other same => discreet other ?_)
          (fun _ _ => rfl) fun _ => Work.answerAbout?_happening ..
        rintro rfl
        exact tended.apart_of_free unclaimed w old same
  | @answer history now front back w reply before ih =>
    obtain ⟨each, waits⟩ := ih
    obtain ⟨-, tended, -⟩ := before.tended False free sound False.elim False.elim
    obtain ⟨-, later, -⟩ := (before.answer w reply).tended False free sound False.elim False.elim
    obtain ⟨-, apart⟩ := tended.beside
    obtain ⟨id, s₁, past, named, underway, goesOn⟩ := waits w List.mem_append_cons_self
    have opens : (Happening.answered w.undertaking w.question reply now).Recounted history :=
      fun _ _ _ _ same => by cases same
    have answered : Underway id w.undertaking s₁ (past ++ [⟨w.question, reply⟩])
        (history ++ [.answered w.undertaking w.question reply now]) := by
      have claimed : id ∈ (Happening.answered w.undertaking w.question reply now).now.claimed :=
        tended.claims List.mem_append_cons_self named
      simpa [answersAbout, Happening.answerAbout?, named] using
        underway.append (List.forall_mem_singleton.2 claimed)
    obtain ⟨ends, discreet, stops⟩ := (goesOn reply now rfl).stops named answered
      fun w' member => later.claims (List.mem_append_left _ member)
    refine ⟨each.append_two opens ends, fun w' member => ?_⟩
    rcases List.mem_append.1 member with new | old
    · exact stops w' new
    · have different := apart w' old
      have old' := Waiting.mem_of_mem_others (w := w) old
      refine (waits w' old').spared (fun other same => ?_) (fun other same => discreet other ?_)
        (fun other same => if_neg fun same' => different (same.trans same'.symm))
        fun _ => Work.answerAbout?_happening ..
      · rw [Work.now_happening]
        exact ⟨tended.claims old' same, later.claims (List.mem_append_right _ old) same⟩
      · rintro rfl
        exact different (same.trans named.symm)

/-- Where conversations with pending calls wait for approval in the beginning and whoever brings one
along brings such a one, steps are taken with such ones alone. -/
theorem Unfolds.takesUp_pauses {u : Undertaking} {s₁ : Situation} {id : String}
    {c : Conversation} (pausing : s₀.store.Holds Pauses)
    (handed : ∀ history s c, admits history s (.stepWith c) → c.Pauses)
    (unfolds : Unfolds admits s₀ history scene) (began : .began u s₁ ∈ history)
    (takesUp : u.TakesUp id s₁ c) : c.Pauses := by
  have fits (history : List Happening) (s : Situation) (u : Undertaking)
      (admitted : admits history s u) : u.Fits (.pausing s₀.settings) := by
    cases u with
    | operation op => exact trivial
    | registration flow => exact False.elim
    | stepWith c => exact ⟨handed history s c admitted, fun _ => handed history s c admitted⟩
  have orderly : (Regime.pausing s₀.settings).Orderly s₀ := ⟨pausing, rfl, False.elim, False.elim⟩
  have stored := (unfolds.keeps (.pausing s₀.settings) orderly
    fun history s u _ admitted => fits history s u admitted).1 _ began
  cases u with
  | stepWith given =>
    obtain rfl : given = c := takesUp
    obtain ⟨earlier, admitted⟩ := unfolds.admitted began
    exact handed earlier s₁ given admitted
  | operation op => exact stored.holds id c takesUp
  | registration flow => exact stored.holds id c takesUp

/-- In every history, whenever an undertaking has ended that takes steps with a conversation, be it
stored or at hand, it was begun at some time before, has had the conversation to itself since, and
everything that has been heard of the conversation since is what its steps let be heard. Either it
has taken none, and nothing was heard; or it has taken as many as it may at most, one after the
other. Nothing is heard of a step that runs no node, and only its failure where the flow is not
registered. Otherwise first the node is told of that is run, then, in the order of what is done,
each call of which approval is requested and each tool that is run, when it starts and when it has
ended with its result, and at last either that the step is completed or that it has failed. It is
completed exactly if its action is not an error, that is, if what the node has made of the
conversation was stored and has not failed. Tools are run exactly as is told, and what was told of
their results is what the messages that were added say.

The calls of which approval was requested are those that are stored as pending; only a conversation
that had pending calls although it did not wait for approval may keep those, and then none was
requested. No step is taken with such a one, as long as none is stored in the beginning and none is
brought along. -/
theorem Unfolds.steps_announced {front rest : List Happening} {u : Undertaking}
    {reply : Undertaking.Reply} {s : Situation} {id : String} (free : s₀.claimed = [])
    (sound : s₀.store.Sound)
    (unfolds : Unfolds admits s₀ (front ++ .ended u reply s :: rest) scene)
    (takes : u.TakesSteps id) :
    ∃ before s₁ during told, front = before ++ .began u s₁ :: during ∧
      (∀ h ∈ during, id ∈ h.now.claimed) ∧ s.heard id = s₁.heard id ++ told ∧
      u.Recounts id s₁ told (answersAbout id during) reply s ∧
      (s₀.store.Holds Pauses → (∀ history s c, admits history s (.stepWith c) → c.Pauses) →
        ∀ c, u.TakesUp id s₁ c → c.Pauses) := by
  obtain ⟨s₁, _, ⟨before, during, rfl, claimed, rfl⟩, told, heard, recounts⟩ :=
    (unfolds.told free sound).1 front _ rest rfl u reply s id rfl takes
  exact ⟨before, s₁, during, told, rfl, claimed, heard, recounts takes, fun pausing handed c =>
    unfolds.takesUp_pauses pausing handed (by simp)⟩

/-- What has been heard of a conversation where work has ended. -/
def Work.heard? (id : String) : Work → Option (List Event)
  | .done s _ => some (s.heard id)
  | .ask .. => none

theorem Work.ended_of_heard {u : Undertaking} {x : Work} (id : String) (told : List Event)
    (last : x.happening u ∈ history) (heard : x.heard? id = some told) :
    ∃ reply, .ended u reply x.situation ∈ history ∧ x.situation.heard id = told := by
  cases x with
  | done s reply => exact ⟨reply, last, Option.some.inj heard⟩
  | ask s q resume => cases heard

/-- A model that calls a tool and then says what it has found. -/
def findsAndTells (q : Question) : Answer q :=
  match q with
  | .complete _ messages _ =>
    if messages.any (·.role = .tool) then .ok ⟨"It is here.", []⟩
    else .ok ⟨"", [⟨"x", "_-_-_search_-_-_find", .null⟩]⟩
  | .runTool .. => .ok (.success "here")
  | _ => default

/-- What is heard of a run of two steps, of which the second runs a tool. -/
def foundTold : List Event :=
  [.stepStarted "c" "start", .stepCompleted "c" "start" (.edge "e1"), .stepStarted "c" "agent",
    .toolStart "c" "_-_-_search_-_-_find" .null,
    .toolEnd "c" "_-_-_search_-_-_find" (.success "here"),
    .stepCompleted "c" "agent" .finalResponse]

theorem found_run_announced : ∃ front rest scene reply s before s₁ during told,
    Unfolds (fun _ _ u => u.UsesStore) (.fresh .standard .memory default)
        (front ++ .ended (.operation (.run "c" 2)) reply s :: rest) scene ∧
      s.heard "c" = foundTold ∧ front = before ++ .began (.operation (.run "c" 2)) s₁ :: during ∧
      s.heard "c" = s₁.heard "c" ++ told ∧
      Undertaking.Recounts (.operation (.run "c" 2)) "c" s₁ told (answersAbout "c" during) reply s ∧
      ∀ c, s₁.store.backing.get "c" = .ok (some c) → c.Pauses := by
  have new : Store.memory.IsNew := .inl rfl
  have nothing : Unfolds (fun _ _ u => u.UsesStore) (.fresh .standard .memory default) []
      ⟨.fresh .standard .memory default, []⟩ := .start
  have registered := nothing.begin (.registration assistantFlow) trivial
  have started := registered.begin
    (.operation (.start (some "c") "assistant" (some "Where is it?"))) trivial
  have ran := started.begin (.operation (.run "c" 2)) trivial
  -- A completion, the run of the tool and another completion are asked for.
  obtain ⟨history, unfolds, last⟩ := ran.played (by simp) findsAndTells 3
  obtain ⟨reply, ended, heard⟩ := Work.ended_of_heard "c" foundTold last (by decide +kernel)
  obtain ⟨front, rest, rfl⟩ := List.append_of_mem ended
  obtain ⟨before, s₁, during, told, cut, -, tells, recounts, pauses⟩ :=
    unfolds.steps_announced rfl new.sound ⟨rfl, by decide⟩
  exact ⟨front, rest, _, reply, _, before, s₁, during, told, unfolds, heard, cut, tells, recounts,
    pauses (new.holds _) fun _ _ _ admitted => admitted.elim⟩

/-- A conversation that is not waiting for approval and yet has a pending call. -/
def overdue : Conversation :=
  { Conversation.fresh "c" "assistant" default with
    pending := [⟨"x", "_-_-_search_-_-_find", .null⟩] }

/-- A step with it where its flow is registered. -/
def overdueStep : Work :=
  let registered :=
    (Undertaking.registration assistantFlow).perform (.fresh .standard .memory default)
  (Undertaking.stepWith overdue).perform (Work.situation registered)

/-- The step is completed and stores a pending call of which approval was not requested. -/
theorem overdue_call_unrequested : ∃ history scene reply d,
    Unfolds (fun _ _ _ => True) (.fresh .standard .memory default) history scene ∧
      .ended (.stepWith overdue) reply scene.now ∈ history ∧
      scene.now.heard "c" = [.stepStarted "c" "start", .stepCompleted "c" "start" (.edge "e1")] ∧
      scene.now.store.backing.get "c" = .ok (some d) ∧
      d.pending = [⟨"x", "_-_-_search_-_-_find", .null⟩] := by
  obtain ⟨history, scene, stepped, last, now⟩ : ∃ history scene,
      Unfolds (fun _ _ _ => True) (.fresh .standard .memory default) history scene ∧
        overdueStep.happening (.stepWith overdue) ∈ history ∧
        scene.now = overdueStep.situation := by
    have nothing : Unfolds (fun _ _ _ => True) (.fresh .standard .memory default) []
        ⟨.fresh .standard .memory default, []⟩ := .start
    have registered := nothing.begin (.registration assistantFlow) trivial
    exact ⟨_, _, registered.begin (.stepWith overdue) trivial,
      List.mem_append_right _ (List.mem_cons_of_mem _ List.mem_cons_self), rfl⟩
  obtain ⟨reply, ended, heard⟩ := Work.ended_of_heard "c"
    [.stepStarted "c" "start", .stepCompleted "c" "start" (.edge "e1")] last (by decide +kernel)
  have stored : (overdueStep.situation.store.backing.get "c").map (·.map (·.pending)) =
      .ok (some [⟨"x", "_-_-_search_-_-_find", .null⟩]) := by decide +kernel
  obtain ⟨d, found, waits⟩ := found_of_map stored
  rw [← now] at ended heard found
  exact ⟨history, scene, reply, d, stepped, ended, heard, found, waits⟩

end DialogueEngine
