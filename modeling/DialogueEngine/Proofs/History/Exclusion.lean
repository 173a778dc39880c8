import DialogueEngine.Proofs.History.Custody

/-!
One at a time on a conversation. While someone waits who works on a conversation, whoever else is
begun on it is refused and changes nothing; the history without those who were refused is a history
as well, and everything else in it is the same. Whoever has not been refused leaves the conversation
free in the end.
-/

namespace DialogueEngine

variable {history : List Happening} {scene : Scene} {s : Situation} {id : String}

/-- Whoever is begun on a conversation while another works on it is kept out: almost all are refused
and change nothing, and the others end at once and leave it as it is stored. -/
structure KeptOut (id : String) (s : Situation) : Prop where
  claimed : id ∈ s.claimed
  refused : ∀ (u : Undertaking) (reply : Undertaking.Reply), u.id? = some id →
    u.refusal s = some reply → u.perform s = .done s reply
  unchanged : ∀ u : Undertaking, u.id? = some id →
    (u.perform s).Ends fun _ s' => s'.store.backing = s.store.backing

theorem Waiting.Attends.keptOut {faithful : Prop} {w : Waiting}
    (attends : w.Attends faithful history s id) : KeptOut id s where
  claimed := attends.claimed
  refused := fun u reply named refused =>
    Undertaking.perform_refused named attends.solid attends.claimed refused
  unchanged := fun u named => by
    have busy (other : String) (subject : u.subject s = some other) : other ∈ s.claimed := by
      obtain rfl : id = other :=
        Option.some.inj ((Undertaking.subject_of_id? named).symm.trans subject)
      exact attends.claimed
    exact (Undertaking.perform_quiet busy).mono (fun _ asked => asked)
      fun _ _ holds => holds.1.backing

/-- A step with a conversation at hand that is refused gives an error with this code. -/
example (id : String) : (FailureInfo.ofFailure (.busy id)).code = "conversation_busy" := rfl

/-! ## Leaving out those who are refused -/

/-- Whether an undertaking is refused because its conversation is claimed. -/
def Undertaking.isRefused (u : Undertaking) (s : Situation) : Bool :=
  u.id?.any s.claimed.contains && (u.refusal s).isSome

/-- A history without those who are refused, as far as they are to be left `out`. -/
def Happening.leavingOut (out : Undertaking → Situation → Bool) : List Happening → List Happening
  | .began u s :: stop :: rest =>
    if out u s && u.isRefused s then leavingOut out rest
    else .began u s :: stop :: leavingOut out rest
  | opening :: stop :: rest => opening :: stop :: leavingOut out rest
  | history => history

theorem Happening.leavingOut_append (out : Undertaking → Situation → Bool)
    {front : List Happening} (even : Even front.length) (back : List Happening) :
    leavingOut out (front ++ back) = leavingOut out front ++ leavingOut out back := by
  induction front using leavingOut.induct out with
  | case1 u s stop rest refused ih =>
    rw [List.cons_append, List.cons_append, leavingOut, if_pos refused, leavingOut, if_pos refused]
    exact ih (by simpa [Nat.even_add_one] using even)
  | case2 u s stop rest kept ih =>
    rw [List.cons_append, List.cons_append, leavingOut, if_neg kept, leavingOut, if_neg kept,
      ih (by simpa [Nat.even_add_one] using even)]
    rfl
  | case3 opening stop rest other ih =>
    rw [List.cons_append, List.cons_append, leavingOut, leavingOut,
      ih (by simpa [Nat.even_add_one] using even)]
    · rfl
    · exact other
    · exact other
  | case4 history other other' =>
    cases history with
    | nil => rfl
    | cons h rest =>
      cases rest with
      | nil => simp at even
      | cons h' rest => exact (other' h h' rest rfl).elim

/-- Histories are made of stretches, each with an entry at its beginning and one at its end. -/
theorem Unfolds.even_length {admits : List Happening → Situation → Undertaking → Prop}
    {s₀ : Situation} (unfolds : Unfolds admits s₀ history scene) : Even history.length := by
  induction unfolds with
  | start => exact .zero
  | begin u before admitted ih => simpa using ih.add (even_two)
  | answer w reply before ih => simpa using ih.add (even_two)

theorem Unfolds.isRefused_ends {s₀ : Situation} {u : Undertaking} (free : s₀.claimed = [])
    (sound : s₀.store.Sound) (unfolds : Unfolds (fun _ _ _ => True) s₀ history scene)
    (refused : u.isRefused scene.now = true) :
    ∃ reply, u.perform scene.now = .done scene.now reply := by
  obtain ⟨-, tended, held⟩ := unfolds.tended False free sound False.elim False.elim
  simp only [Undertaking.isRefused, Bool.and_eq_true, Option.any_eq_true,
    List.contains_iff_mem, Option.isSome_iff_exists] at refused
  obtain ⟨⟨id, named, claimed⟩, reply, given⟩ := refused
  obtain ⟨w, member, same⟩ := held id claimed
  obtain ⟨other, attends⟩ := tended.attended w member
  obtain rfl : id = other := Option.some.inj (same.symm.trans attends.named)
  exact ⟨reply, attends.keptOut.refused u reply named given⟩

/-- Without those who were refused all else happens as it did. -/
theorem Unfolds.leavingOut {s₀ : Situation} (free : s₀.claimed = []) (sound : s₀.store.Sound)
    (out : Undertaking → Situation → Bool)
    (unfolds : Unfolds (fun _ _ _ => True) s₀ history scene) :
    Unfolds (fun _ _ _ => True) s₀ (Happening.leavingOut out history) scene := by
  induction unfolds with
  | start => exact .start
  | @begin history scene u before admitted ih =>
    rw [Happening.leavingOut_append out before.even_length]
    by_cases refused : (out u scene.now && u.isRefused scene.now) = true
    · have busy : u.isRefused scene.now = true := (Bool.and_eq_true_iff.1 refused).2
      obtain ⟨reply, performed⟩ := before.isRefused_ends free sound busy
      have gone : Happening.leavingOut out [.began u scene.now,
          Work.happening u (u.perform scene.now)] = [] := by
        rw [Happening.leavingOut, if_pos refused]
        rfl
      rw [gone, List.append_nil, performed]
      exact ih
    · have kept : Happening.leavingOut out [.began u scene.now,
          Work.happening u (u.perform scene.now)] =
          [.began u scene.now, Work.happening u (u.perform scene.now)] := by
        rw [Happening.leavingOut, if_neg refused]
        rfl
      rw [kept]
      exact ih.begin u trivial
  | @answer history now front back w reply before ih =>
    rw [Happening.leavingOut_append out before.even_length]
    exact ih.answer w reply

/-! ## Exclusion -/

/-- What holds in a history because conversations are worked on one at a time. -/
structure Exclusive (s₀ : Situation) (history : List Happening) (scene : Scene) : Prop where
  keptOut : ∀ w ∈ scene.waiting, ∃ id, w.undertaking.id? = some id ∧ KeptOut id scene.now
  leavingOut : ∀ out, Unfolds (fun _ _ _ => True) s₀ (Happening.leavingOut out history) scene
  released : ∀ front u reply s rest id, history = front ++ .ended u reply s :: rest →
    u.id? = some id → id ∉ s.claimed ∨
      ∃ s', front.getLast? = some (.began u s') ∧ id ∈ s'.claimed

/-- In every history that begins where nothing is claimed, whoever waits keeps all others out of the
conversation, those who were refused might as well not have been begun, and whoever was not leaves
the conversation free. -/
theorem Unfolds.conversations_exclusive {s₀ : Situation} (free : s₀.claimed = [])
    (sound : s₀.store.Sound) (unfolds : Unfolds (fun _ _ _ => True) s₀ history scene) :
    Exclusive s₀ history scene := by
  obtain ⟨each, tended, -⟩ := unfolds.tended False free sound False.elim False.elim
  refine ⟨fun w member => ?_, unfolds.leavingOut free sound, ?_⟩
  · obtain ⟨id, attends⟩ := tended.attended w member
    exact ⟨id, attends.named, attends.keptOut⟩
  · intro front u reply s rest id same named
    obtain ⟨e, last, refused | attended⟩ := (each front _ rest same).closes u reply s id rfl named
    · exact .inr ⟨e.now, refused.began ▸ last, refused.busy⟩
    · obtain ⟨s₁, -, closes⟩ := attended.custody
      exact .inl closes.free

/-- A message that is posted while a step waits for the model. -/
theorem posted_meanwhile_refused : ∃ history scene,
    Unfolds (fun _ _ _ => True) (.fresh .standard .memory default) history scene ∧
      (history.length, (Happening.leavingOut (fun _ _ => true) history).length,
        scene.waiting.length) = (8, 6, 1) ∧
      Exclusive (.fresh .standard .memory default) history scene := by
  have nothing : Unfolds (fun _ _ _ => True) (.fresh .standard .memory default) []
      ⟨.fresh .standard .memory default, []⟩ := .start
  have registered := nothing.begin (.registration assistantFlow) trivial
  have started := registered.begin
    (.operation (.start (some "c") "assistant" (some "Hello"))) trivial
  have ran := started.begin (.operation (.run "c" 5)) trivial
  have posted := ran.begin (.operation (.post "c" "And?")) trivial
  refine ⟨_, _, posted, ?_, posted.conversations_exclusive rfl (Store.IsNew.sound (.inl rfl))⟩
  decide +kernel

end DialogueEngine
