import DialogueEngine.Proofs.History.Approval
import DialogueEngine.Proofs.History.Custody

/-!
What a cancellation that has succeeded is good for. From then on the conversation is to be
cancelled: that is kept with it, or a request is parked until the one who has it in custody picks
that up. Whoever works on it asks for no completion and runs no node, and the next step leaves it
cancelled in the store. Only where a write is refused can a request be lost.
-/

namespace DialogueEngine

open Situation (Halted Honours Passes StaysHalted)

variable {history : List Happening} {s t : Situation} {id : String}

namespace Happening

/-- Whether an entry tells that a conversation has been cancelled with success. -/
def cancels (id : String) : Happening → Bool
  | .ended (.operation (.cancel other)) (.ok .done) _ => other = id
  | _ => false

/-- Whether someone who works on a conversation asks for a completion. -/
def asksCompletion (id : String) : Happening → Bool
  | .asked u (.complete ..) _ => u.id? = some id
  | _ => false

end Happening

namespace Situation

/-- What is read of a conversation is that it is cancelled. -/
def ShowsCancelled (id : String) (s : Situation) : Prop :=
  ∃ c, (s.store.get id).1 = .ok (some c) ∧ c.cancelled = true

theorem found_of_readable (stored : (s.store.backing.entry id).isSome)
    (readable : (s.store.get id).1.isOk) : ∃ c, (s.store.get id).1 = .ok (some c) := by
  cases found : (s.store.get id).1 with
  | error f =>
    rw [found] at readable
    cases readable
  | ok loaded =>
    cases loaded with
    | none =>
      rw [Backing.entry_eq_none (Store.get_eq_backing found)] at stored
      cases stored
    | some c => exact ⟨c, rfl⟩

/-- What is kept of a conversation is seen where it can be read. -/
theorem showsCancelled (cancelled : s.store.Cancelled id) (readable : (s.store.get id).1.isOk) :
    s.ShowsCancelled id := by
  obtain ⟨c, found⟩ := found_of_readable cancelled.isSome readable
  exact ⟨c, found, cancelled.of_get (Store.get_eq_backing found)⟩

theorem ShowsCancelled.kept (shows : s.ShowsCancelled id) (sound : s.store.Sound) :
    s.store.Cancelled id := by
  obtain ⟨c, found, cancelled⟩ := shows
  obtain ⟨-, c₀, keeps, named, bare⟩ := sound id c (Store.get_eq_backing found)
  have same : c.cancelled = c₀.cancelled := (congrArg Conversation.cancelled bare :)
  exact ⟨c₀, named, keeps, same ▸ cancelled⟩

end Situation

/-! ## Cancelling -/

/-- A conversation that has been cancelled with success is stored and is to be cancelled. -/
theorem Happening.Follows.cancelled {front : List Happening} {h : Happening}
    (follows : h.Follows True front) (cancels : h.cancels id = true) :
    Halted id h.now ∧ (h.now.store.backing.entry id).isSome := by
  obtain ⟨s, rfl⟩ : ∃ s, h = .ended (.operation (.cancel id)) (.ok .done) s := by
    unfold Happening.cancels at cancels
    split at cancels
    · next other s => exact ⟨s, by rw [of_decide_eq_true cancels]⟩
    · cases cancels
  obtain ⟨e, -, refused | attended⟩ := follows.closes _ _ s id rfl rfl
  · have same : s.store.backing = e.now.store.backing := refused.quiet.backing
    exact ⟨.inl (refused.cancels rfl), (congrArg (Backing.entry id) same) ▸ refused.stored trivial⟩
  · obtain ⟨s₁, -, closes⟩ := attended.custody
    have kept := closes.cancels rfl rfl
    exact ⟨.inr kept, kept.isSome⟩

/-- Whether a step goes on or begins: it has been answered, or it was not refused at its beginning
and is not one that may look at a record instead. -/
def Undertaking.GoesAhead (u : Undertaking) (id : String) (e : Happening) (reply : Reply) : Prop :=
  (∃ q answer, e = .answered u q answer e.now) ∨
    u ≠ .operation (.goForward id) ∧ reply ≠ .error (.busy id)

/-- Those who have taken steps with a conversation that was to be cancelled leave it cancelled. -/
theorem Undertaking.Attended.shows {front : List Happening} {e : Happening} {u : Undertaking}
    {reply : Undertaking.Reply} (attended : u.Attended True id (front ++ [e]) e reply t)
    (steps : u.Steps id) (ahead : u.GoesAhead id e reply)
    (halted : Halted id e.now) (stored : (e.now.store.backing.entry id).isSome)
    (accepts : e.now.store.Accepts) (before : (e.now.store.get id).1.isOk)
    (after : (t.store.get id).1.isOk) : t.ShowsCancelled id := by
  obtain ⟨s₁, custody, closes⟩ := attended.custody
  rcases (closes.steps steps).halted trivial halted with ⟨free, rests⟩ | refused | cancelled
  · obtain rfl : e = .began u s₁ := custody.began free
    rcases rests with forwards | ⟨-, unread⟩
    · rcases ahead with ⟨q, answer, answered⟩ | ⟨other, -⟩
      · cases answered
      · exact absurd forwards other
    · obtain ⟨c, found⟩ := Situation.found_of_readable stored before
      exact absurd found (unread c)
  · exact absurd refused accepts.not_refused
  · exact Situation.showsCancelled cancelled after

/-- What follows from an entry that tells that a conversation has been cancelled. -/
structure Honoured (id : String) (a : Happening) (later : List Happening) : Prop where
  completions : ∀ h ∈ later, h.asksCompletion id = false
  runs : ∀ u q s, .asked u q s ∈ later → u.id? = some id → q.isRun = true →
    ∃ call, u = .operation (.resolve id call .approve) ∧ a.now.store.Awaits call id
  nodes : ∀ h ∈ later, h.now.starts id = a.now.starts id
  steps : ∀ front e u reply s rest, later = front ++ e :: .ended u reply s :: rest → u.Steps id →
    u.GoesAhead id e reply → s.ShowsCancelled id
  stays : ∀ front h rest, a :: later = front ++ h :: rest → h.now.ShowsCancelled id →
    ∀ h' ∈ rest, h'.now.ShowsCancelled id

/-- Writes that succeed from the beginning on succeed at any time. -/
theorem Unfolds.accepts {s₀ : Situation} {scene : Scene} (accepts : s₀.store.Accepts)
    (unfolds : Unfolds (fun _ _ u => u.UsesStore) s₀ history scene) :
    ∀ h ∈ history, h.now.store.Accepts := by
  have kept := (unfolds.keeps (.lenient s₀.settings True)
    (Regime.orderly_lenient rfl fun _ => accepts) fun _ _ _ _ stored => stored.fits not_false).1
  exact fun h member => (kept h member).inv_now.accepts trivial

/-- A request to cancel a conversation is lost: it was parked and has been taken, and a write has
been refused meanwhile, so that it is not kept with the conversation either. -/
structure Situation.Loses (id : String) (s s' : Situation) : Prop where
  parked : id ∈ s.cancelRequests
  taken : id ∉ s'.cancelRequests
  unkept : ¬ s'.store.Cancelled id
  refused : Store.Refused s.store s'.store

theorem Situation.Passes.loses (passes : Passes True s t) (halted : Halted id s)
    (unhalted : ¬ Halted id t) : s.Loses id t := by
  have honours := passes.honours trivial id
  refine ⟨?_, fun parked => unhalted (.inl parked), fun kept => unhalted (.inr kept), ?_⟩
  · exact halted.resolve_right fun kept => unhalted (.inr (honours.cancelled kept))
  · exact (honours.halted halted).resolve_right fun stays => unhalted stays.halted

/-- Between an entry where a conversation is to be cancelled and one where it is not, the request is
lost. -/
theorem Happening.Each.loses {a e : Happening} {past front rest : List Happening}
    (each : Each (Follows True) (past ++ a :: (front ++ e :: rest))) (halted : Halted id a.now)
    (unhalted : ¬ Halted id e.now) :
    ∃ before b b' after, a :: (front ++ [e]) = before ++ b :: b' :: after ∧
      b.now.Loses id b'.now := by
  induction front generalizing past a with
  | nil =>
    have passes : Passes True a.now e.now := each.passes (by simp)
    exact ⟨[], a, e, [], rfl, passes.loses halted unhalted⟩
  | cons b front ih =>
    by_cases still : Halted id b.now
    · have later : Each (Follows True) ((past ++ [a]) ++ b :: (front ++ e :: rest)) := by
        simpa using each
      obtain ⟨before, x, y, after, same, loses⟩ := ih later still
      exact ⟨a :: before, x, y, after, by rw [List.cons_append, same]; rfl, loses⟩
    · have passes : Passes True a.now b.now := each.passes (by simp)
      exact ⟨[], a, b, front ++ [e], rfl, passes.loses halted still⟩

/-- In every history of operations on stored conversations, a completion is only asked for after a
cancellation has succeeded if the request for it was lost in between. -/
theorem Unfolds.cancellation_lost {s₀ : Situation} {scene : Scene} (free : s₀.claimed = [])
    (sound : s₀.store.Sound) (coherent : s₀.store.Holds Conversation.Coherent)
    (unfolds : Unfolds (fun _ _ u => u.UsesStore) s₀ history scene) :
    ∀ past a front e rest, history = past ++ a :: (front ++ e :: rest) → a.cancels id = true →
      e.asksCompletion id = true → ∃ before b b' after,
        a :: (front ++ [e]) = before ++ b :: b' :: after ∧ b.now.Loses id b'.now := by
  obtain ⟨each, -, -⟩ := unfolds.tended True free sound (fun _ => coherent)
    fun _ _ _ _ stored => stored
  rintro past a front e rest rfl cancels asks
  obtain ⟨halted, -⟩ := (each past a _ rfl).cancelled cancels
  refine each.loses halted ?_
  unfold Happening.asksCompletion at asks
  split at asks
  · next u model messages tools s =>
    have follows := each (past ++ a :: front) (.asked u (.complete model messages tools) s) rest
      (by simp)
    obtain ⟨other, poses⟩ := follows.poses u _ s rfl
    obtain rfl : id = other := Option.some.inj ((of_decide_eq_true asks).symm.trans poses.named)
    rcases poses.asks.acts trivial rfl with free | ⟨runs, -⟩
    · exact free
    · cases runs
  · cases asks

/-- A store that refuses writes as planned. -/
def Store.refusing (plan : List Bool) : Store := { Store.memory with writeRefusals := plan }

/-- A conversation that is cancelled while an approved tool is run. The step after that takes the
request, and its write is refused; the next one asks for a completion. -/
theorem refused_write_loses_request : ∃ history scene,
    Unfolds (fun _ _ u => u.UsesStore)
        (.fresh cautious (.refusing [false, false, false, false, true]) default) history scene ∧
      (history.drop 10).map (Happening.cancels "c") =
        [false, true, false, false, false, false, false, false] ∧
      (history.drop 10).map (Happening.asksCompletion "c") =
        [false, false, false, false, false, false, false, true] ∧
      (history.drop 10).map (fun h => h.now.claimed.contains "c") =
        [true, true, true, false, false, false, false, true] ∧
      ∀ past a front e rest, history = past ++ a :: (front ++ e :: rest) →
        a.cancels "c" = true → e.asksCompletion "c" = true → ∃ before b b' after,
          a :: (front ++ [e]) = before ++ b :: b' :: after ∧ b.now.Loses "c" b'.now := by
  have nothing : Unfolds (fun _ _ u => u.UsesStore)
      (.fresh cautious (.refusing [false, false, false, false, true]) default) []
      ⟨.fresh cautious (.refusing [false, false, false, false, true]) default, []⟩ := .start
  have registered := nothing.begin (.registration assistantFlow) trivial
  have started := registered.begin
    (.operation (.start (some "c") "assistant" (some "Hello"))) trivial
  have ran := started.begin (.operation (.run "c" 5)) trivial
  have paused := ran.answered (modelAnswering "" [⟨"x", "_-_-_search_-_-_find", .null⟩])
  have approving := paused.begin (.operation (.resolve "c" "x" .approve)) trivial
  have cancelled := approving.begin (.operation (.cancel "c")) trivial
  have approved := cancelled.answered (modelAnswering "" [])
  have taken := approved.begin (.operation (.step "c")) trivial
  have again := taken.begin (.operation (.step "c")) trivial
  have new : (Store.refusing [false, false, false, false, true]).IsNew := .inl rfl
  refine ⟨_, _, again, ?_, ?_, ?_, again.cancellation_lost rfl new.sound (new.holds _)⟩
  · decide +kernel
  · decide +kernel
  · decide +kernel

end DialogueEngine
