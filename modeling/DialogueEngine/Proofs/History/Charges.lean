import DialogueEngine.Proofs.Engine.Settling
import DialogueEngine.Proofs.History.Approval
import DialogueEngine.Proofs.History.Cancellation

/-!
How often calls are run on approval. Each request to approve a call makes it due once, and an
approval that has it run settles it. In every history a call is therefore run on approval as often
as its approval was requested at most, but for the runs whose answers cannot be written: these leave
the call due, and whoever approves it again has it run again.
-/

namespace DialogueEngine

open Conversation (Pauses)
open Engine (Settles Settling)
open Situation (Beside Conducts Grows More Quiet Spares)

variable {id : String} {k : Charge} {history : List Happening} {s s' s₀ : Situation}
  {u : Undertaking} {others : List Waiting}

/-! ## Everything that is upheld -/

section Upheld

variable {R : Situation → Situation → Prop}

/-- Work that keeps to a relation as long as others do. -/
abbrev Work.Upholds (R : Situation → Situation → Prop) (since : Situation) (x : Work) : Prop :=
  x.Abides R R (fun _ _ => True) (fun since _ s => R since s) since

theorem Work.Upholds.situation {x : Work} (upholds : x.Upholds R s) : R s x.situation := by
  cases x with
  | done s' reply => exact upholds
  | ask s' q resume => exact upholds.1

/-- Whoever waits goes on keeping to a relation, whatever else that keeps to it happens first. -/
def Waiting.Upholds (R : Situation → Situation → Prop) (now : Situation) (w : Waiting) : Prop :=
  ∀ reply s, R now s → Work.Upholds R s (w.resume reply s)

theorem Work.Upholds.waiting {x : Work} (conducts : ∀ id, Conducts R id)
    (upholds : x.Upholds R s) (quiet : ∀ w ∈ others, w.Upholds R s) :
    ∀ w ∈ x.waiting u ++ others, w.Upholds R x.situation := by
  intro w member
  have later (old : w ∈ others) : w.Upholds R x.situation := fun reply s'' holds =>
    quiet w old reply s'' ((conducts "").trans upholds.situation holds)
  cases x with
  | done s' reply => exact later member
  | ask s' q resume =>
    rcases List.mem_cons.1 member with rfl | old
    · exact upholds.2.2
    · exact later old

/-- What every operation upholds relates the beginning of a history to its end. -/
theorem Unfolds.upholds {admits : List Happening → Situation → Undertaking → Prop} {scene : Scene}
    (conducts : ∀ id, Conducts R id) (unfolds : Unfolds admits s₀ history scene) :
    R s₀ scene.now ∧ ∀ w ∈ scene.waiting, w.Upholds R scene.now := by
  have steady := (conducts "").toSteady
  induction unfolds with
  | start => exact ⟨steady.refl s₀, fun w none => absurd none List.not_mem_nil⟩
  | @begin history scene u before admitted ih =>
    obtain ⟨holds, waits⟩ := ih
    have performs : Work.Upholds R scene.now (u.perform scene.now) :=
      u.perform_upholds (conducts "").toLasting fun id _ => conducts id
    exact ⟨steady.trans holds performs.situation, performs.waiting conducts waits⟩
  | @answer history now front back w reply before ih =>
    obtain ⟨holds, waits⟩ := ih
    have resumes : Work.Upholds R now (w.resume reply now) :=
      waits w List.mem_append_cons_self reply now (steady.refl now)
    exact ⟨steady.trans holds resumes.situation, resumes.waiting conducts fun other member =>
      waits other (Waiting.mem_of_mem_others member)⟩

end Upheld

/-! ## Runs on approval -/

/-- Whether an entry of a history asks for such a call to be run on approval. -/
def Happening.runs (id : String) (k : Charge) : Happening → Bool
  | .asked u q _ => u.runs id k q
  | _ => false

/-- Whether an entry of a history answers such a run while the next write is to be refused. -/
def Happening.spoils (id : String) (k : Charge) : Happening → Bool
  | .answered u q _ s => u.runs id k q && s.store.writeRefusals.head? = some true
  | _ => false

/-- Whether somebody waits for such a run. -/
def Waiting.runs (id : String) (k : Charge) (w : Waiting) : Bool :=
  w.undertaking.runs id k w.question

theorem Undertaking.Current.fits {settings : Settings} (current : u.Current s) :
    u.Fits (.pausing settings) := by
  cases u with
  | operation op => exact trivial
  | registration flow => exact False.elim
  | stepWith c => exact ⟨current.1, fun _ => current.1⟩

theorem Undertaking.id?_of_runs {q : Question} (runs : u.runs id k q = true) :
    u.id? = some id := by
  unfold Undertaking.runs at runs
  split at runs
  · simp only [Bool.and_eq_true, decide_eq_true_eq] at runs
    exact congrArg some runs.1.1
  · cases runs

/-- Whoever waits makes calls due by requests alone and runs none on approval any more, or waits for
the run of a call that is due and settles it by the answer. -/
def Waiting.Charged (id : String) (k : Charge) (now : Situation) (w : Waiting) : Prop :=
  (w.runs id k = false ∧ ∀ reply s, Beside id k now s →
    (w.resume reply s).Abides (Beside id k) (Grows id k)
      (fun _ q => w.undertaking.runs id k q = false) (fun since _ s => Grows id k since s) s) ∨
  (w.runs id k = true ∧ 1 ≤ now.due id k ∧ ∀ reply s, Beside id k now s →
    (w.resume reply s).Ends fun _ s' => Settles id k s s')

theorem Waiting.Charged.beside {w : Waiting} (charged : w.Charged id k s)
    (beside : Beside id k s s') : w.Charged id k s' := by
  rcases charged with ⟨silent, goesOn⟩ | ⟨runs, due, settles⟩
  · exact .inl ⟨silent, fun reply s'' later => goesOn reply s'' (beside.trans later)⟩
  · exact .inr ⟨runs, beside.due ▸ due,
      fun reply s'' later => settles reply s'' (beside.trans later)⟩

/-- The account of a call: each run on approval took off what was due before or has been requested
since, unless the write was refused that was to tell so; or the run is still awaited. -/
structure Ledger (id : String) (k : Charge) (s₀ : Situation) (history : List Happening)
    (now : Situation) (waiting : List Waiting) : Prop where
  charged : ∀ w ∈ waiting, w.undertaking.id? = some id → w.Charged id k now
  balance : history.countP (Happening.runs id k) + s₀.requested id k + now.due id k ≤
    s₀.due id k + now.requested id k + history.countP (Happening.spoils id k) +
      waiting.countP (Waiting.runs id k)

namespace Ledger

variable {waiting : List Waiting} {o : Happening} {x : Work}

/-- One step of a history. Of what was waiting before, `taken` runs are no more among the others. -/
theorem step (taken : Nat) (ledger : Ledger id k s₀ history s waiting)
    (count : waiting.countP (Waiting.runs id k) = others.countP (Waiting.runs id k) + taken)
    (opens : o.runs id k = false)
    (changes : x.situation.due id k + s.requested id k + taken ≤
      s.due id k + x.situation.requested id k + if o.spoils id k = true then 1 else 0)
    (charged : ∀ w ∈ x.waiting u ++ others, w.undertaking.id? = some id →
      w.Charged id k x.situation) :
    Ledger id k s₀ (history ++ [o, x.happening u]) x.situation (x.waiting u ++ others) := by
  refine ⟨charged, ?_⟩
  have before := ledger.balance
  have asks : (x.happening u).spoils id k = false ∧
      (if (x.happening u).runs id k = true then 1 else 0) =
        (x.waiting u).countP (Waiting.runs id k) := by
    cases x with
    | done s' reply => exact ⟨rfl, rfl⟩
    | ask s' q resume => exact ⟨rfl, (List.countP_singleton ..).symm⟩
  simp only [List.countP_append, List.countP_cons, List.countP_nil, opens, asks.1, asks.2,
    Bool.false_eq_true, if_false]
  omega

/-- A step that is about another conversation, or about nothing. -/
theorem elsewhere (ledger : Ledger id k s₀ history s waiting)
    (count : waiting.countP (Waiting.runs id k) = others.countP (Waiting.runs id k))
    (among : ∀ w ∈ others, w ∈ waiting) (opens : o.runs id k = false)
    (beside : Beside id k s x.situation)
    (apart : ∀ w ∈ x.waiting u, w.undertaking.id? ≠ some id) :
    Ledger id k s₀ (history ++ [o, x.happening u]) x.situation (x.waiting u ++ others) := by
  have more := beside.more
  refine ledger.step 0 count opens ?_ fun w member named => ?_
  · rw [beside.due]
    omega
  · rcases List.mem_append.1 member with new | old
    · exact absurd named (apart w new)
    · exact (ledger.charged w (among w old) named).beside beside

/-- A step of work on the conversation that runs nothing on approval. -/
theorem works (ledger : Ledger id k s₀ history s waiting)
    (count : waiting.countP (Waiting.runs id k) = others.countP (Waiting.runs id k))
    (apart : ∀ w ∈ others, w.undertaking.id? ≠ some id) (opens : o.runs id k = false)
    (abides : x.Abides (Beside id k) (Grows id k) (fun _ q => u.runs id k q = false)
      (fun since _ s => Grows id k since s) s) :
    Ledger id k s₀ (history ++ [o, x.happening u]) x.situation (x.waiting u ++ others) := by
  have grows : Grows id k s x.situation := by
    cases x with
    | done s' reply => exact abides
    | ask s' q resume => exact abides.1
  refine ledger.step 0 count opens (Nat.le_add_right_of_le grows.due) ?_
  intro w member named
  rcases List.mem_append.1 member with new | old
  · cases x with
    | done s' reply => cases new
    | ask s' q resume =>
      obtain rfl := List.mem_singleton.1 new
      exact .inl abides.2
  · exact absurd named (apart w old)

/-- A step that asks for a call that is due to be run. -/
theorem approves (ledger : Ledger id k s₀ history s others)
    (apart : ∀ w ∈ others, w.undertaking.id? ≠ some id) (opens : o.runs id k = false)
    (runs : ∀ q, u.runs id k q = q.runs k) (settling : Settling id k s x) :
    Ledger id k s₀ (history ++ [o, x.happening u]) x.situation (x.waiting u ++ others) := by
  cases x with
  | done s' reply => exact settling.elim
  | ask s' q resume =>
    obtain ⟨asks, grows, due, settles⟩ := settling
    refine ledger.step 0 rfl opens (Nat.le_add_right_of_le grows.due) ?_
    intro w member named
    rcases List.mem_cons.1 member with rfl | old
    · exact .inr ⟨(runs q).trans asks, due, settles⟩
    · exact absurd named (apart w old)

/-- A step in which a run is answered. -/
theorem settles (ledger : Ledger id k s₀ history s waiting)
    (count : waiting.countP (Waiting.runs id k) = others.countP (Waiting.runs id k) + 1)
    (apart : ∀ w ∈ others, w.undertaking.id? ≠ some id) (opens : o.runs id k = false)
    (spoils : s.store.writeRefusals.head? = some true → o.spoils id k = true)
    (ends : x.Ends fun _ s' => Settles id k s s') :
    Ledger id k s₀ (history ++ [o, x.happening u]) x.situation (x.waiting u ++ others) := by
  obtain ⟨s', reply, rfl, settled⟩ := ends.eq_done
  refine ledger.step 1 count opens ?_ fun w old named => absurd named (apart w old)
  have more : s.requested id k ≤ s'.requested id k := settled.more
  change s'.due id k + s.requested id k + 1 ≤ s.due id k + s'.requested id k + _
  rcases settled.due with less | ⟨kept, refused⟩
  · omega
  · rw [if_pos (spoils refused)]
    omega

end Ledger

/-- Work on one conversation spares the others. -/
theorem Work.spares_other {own : String} {begun : Situation} {accounted : Prop} {x : Work}
    (attends : x.Abides (Spares own) (Situation.Tends own False) (u.Poses own False)
      (u.Closes own False accounted begun) s) (different : id ≠ own) :
    Spares id s x.situation ∧ ∀ w ∈ x.waiting u, w.undertaking.id? ≠ some id := by
  cases x with
  | done s' reply => exact ⟨attends.tends.others id different, fun w none => by cases none⟩
  | ask s' q resume =>
    refine ⟨attends.1.others id different, fun w member named => ?_⟩
    obtain rfl := List.mem_singleton.1 member
    exact different (Option.some.inj (named.symm.trans attends.2.1.named))

/-- What is begun spares a conversation that it is not about, or that it finds claimed. -/
theorem Undertaking.perform_spares (other : ¬ (u.subject s = some id ∧ id ∉ s.claimed))
    (sound : s.store.Sound) : Spares id s (Work.situation (u.perform s)) ∧
      ∀ w ∈ Work.waiting u (u.perform s), w.undertaking.id? ≠ some id := by
  by_cases busy : ∀ own, u.subject s = some own → own ∈ s.claimed
  · obtain ⟨s', reply, performed, quiet, -⟩ := (Undertaking.perform_quiet busy).eq_done
    rw [performed]
    exact ⟨quiet.spares id, fun w none => by cases none⟩
  · obtain ⟨own, subject, unclaimed⟩ : ∃ own, u.subject s = some own ∧ own ∉ s.claimed := by
      simpa using busy
    have attends := Undertaking.perform_attends subject unclaimed sound
      (False.elim : False → s.store.Holds Pauses) False.elim
    refine Work.spares_other attends ?_
    rintro rfl
    exact other ⟨subject, unclaimed⟩

section Ledger

variable {scene : Scene} (free : s₀.claimed = []) (sound : s₀.store.Sound)
  (pausing : s₀.store.Holds Pauses)
  (unfolds : Unfolds (fun _ s u => u.Current s) s₀ history scene)
include free sound pausing unfolds

theorem Unfolds.ledger (id : String) (k : Charge) :
    Ledger id k s₀ history scene.now scene.waiting := by
  have conducts (own : String) := Situation.conducts_more id own k
  induction unfolds with
  | start => exact ⟨fun w none => absurd none List.not_mem_nil, by simp [Nat.add_comm]⟩
  | @begin history scene u before current ledger =>
    obtain ⟨-, tended, -⟩ := before.tended False free sound False.elim False.elim
    by_cases about : u.subject scene.now = some id ∧ id ∉ scene.now.claimed
    · obtain ⟨subject, unclaimed⟩ := about
      have apart := tended.apart_of_free unclaimed
      have pausing' := before.holds_pauses pausing fun _ _ _ current => current.fits
      rcases Undertaking.perform_tallies subject
        ⟨.refl scene.now, unclaimed, tended.sound, pausing'⟩ current with
        abides | ⟨runs, settling⟩
      · exact ledger.works rfl apart rfl abides
      · exact ledger.approves apart rfl runs settling
    · obtain ⟨spares, apart⟩ := Undertaking.perform_spares about tended.sound
      have performs : Work.Upholds (More id k) scene.now (u.perform scene.now) :=
        u.perform_upholds (Situation.lasting_more id k) fun own _ => conducts own
      exact ledger.elsewhere rfl (fun w old => old) rfl ⟨spares, performs.situation⟩ apart
  | @answer history now front back w reply before ledger =>
    obtain ⟨-, tended, -⟩ := before.tended False free sound False.elim False.elim
    obtain ⟨own, attends⟩ := tended.attended w List.mem_append_cons_self
    obtain ⟨rest, apart⟩ := tended.beside
    have count (n : Nat) (runs : (if w.runs id k = true then 1 else 0) = n) :
        (front ++ w :: back).countP (Waiting.runs id k) =
          (front ++ back).countP (Waiting.runs id k) + n := by
      simp only [List.countP_append, List.countP_cons, runs]
      omega
    by_cases same : own = id
    · have apart' (other : Waiting) (inside : other ∈ front ++ back) :
          other.undertaking.id? ≠ some id := by
        rw [← same, ← attends.named]
        exact apart other inside
      rcases ledger.charged w List.mem_append_cons_self (same ▸ attends.named) with
        ⟨silent, goesOn⟩ | ⟨runs, -, settles⟩
      · exact ledger.works (count 0 (by simp [silent])) apart' rfl
          (goesOn reply now ⟨.refl id now, Nat.le_refl _⟩)
      · refine ledger.settles (count 1 (if_pos runs)) apart' rfl (fun refused => ?_)
          (settles reply now ⟨.refl id now, Nat.le_refl _⟩)
        simpa [Happening.spoils, refused, Waiting.runs] using runs
    · have silent : w.runs id k = false := by
        by_contra runs
        have named := Undertaking.id?_of_runs (Bool.of_not_eq_false runs)
        exact same (Option.some.inj (attends.named.symm.trans named))
      obtain ⟨s₁, -, goesOn⟩ := attends.custody
      obtain ⟨spares, apart'⟩ := Work.spares_other (goesOn reply now (.refl own now))
        fun same' => same same'.symm
      have resumes : Work.Upholds (More id k) now (w.resume reply now) :=
        (before.upholds conducts).2 w List.mem_append_cons_self reply now (Nat.le_refl _)
      exact ledger.elsewhere (count 0 (by simp [silent]))
        (fun other inside => Waiting.mem_of_mem_others inside) rfl ⟨spares, resumes.situation⟩
        apart'

/-- In every history, whoever approves what how often and whichever reads and writes are refused,
such a call is run on approval as often as it was due before or its approval has been requested
since, but for the runs that are answered while the next write is to be refused. -/
theorem Unfolds.runs_requested (id : String) (k : Charge) :
    history.countP (Happening.runs id k) + s₀.requested id k ≤
      s₀.due id k + scene.now.requested id k + history.countP (Happening.spoils id k) := by
  have ledger := unfolds.ledger free sound pausing id k
  obtain ⟨-, tended, -⟩ := unfolds.tended False free sound False.elim False.elim
  -- One at most waits for such a run, as only one has the conversation in custody; and what is run
  -- is due until then.
  have awaited : scene.waiting.countP (Waiting.runs id k) ≤ scene.now.due id k := by
    have one : scene.waiting.countP (Waiting.runs id k) ≤ 1 :=
      calc scene.waiting.countP (Waiting.runs id k)
        _ ≤ scene.waiting.countP (·.undertaking.id? == some id) :=
          List.countP_mono_left fun w _ runs => beq_iff_eq.2 (Undertaking.id?_of_runs runs)
        _ = (scene.waiting.map (·.undertaking.id?)).count (some id) := by
          rw [List.count, List.countP_map]
          rfl
        _ ≤ 1 := List.nodup_iff_count_le_one.1 tended.distinct _
    rcases Nat.eq_zero_or_pos (scene.waiting.countP (Waiting.runs id k)) with none | some
    · exact none ▸ Nat.zero_le _
    · obtain ⟨w, inside, runs⟩ := List.countP_pos_iff.1 some
      rcases ledger.charged w inside (Undertaking.id?_of_runs runs) with ⟨silent, -⟩ | ⟨-, due, -⟩
      · exact absurd runs (by simp [silent])
      · exact one.trans due
  have balance := ledger.balance
  omega

end Ledger

/-- The write of an answered call is refused: the call is still pending, and is run again when it is
approved again. -/
theorem refused_write_runs_twice : ∃ s₀ history scene,
    s₀ = Situation.fresh cautious (.refusing [false, false, false, true]) default ∧
      Unfolds (fun _ s u => u.Current s) s₀ history scene ∧
      (history.countP (Happening.runs "c" ⟨"x", "search", "find"⟩),
        scene.now.requested "c" ⟨"x", "search", "find"⟩,
        history.countP (Happening.spoils "c" ⟨"x", "search", "find"⟩)) = (2, 1, 1) ∧
      ∀ id k, history.countP (Happening.runs id k) + s₀.requested id k ≤
        s₀.due id k + scene.now.requested id k + history.countP (Happening.spoils id k) := by
  have nothing : Unfolds (fun _ s u => u.Current s)
      (.fresh cautious (.refusing [false, false, false, true]) default) []
      ⟨.fresh cautious (.refusing [false, false, false, true]) default, []⟩ := .start
  have registered := nothing.begin (.registration assistantFlow) trivial
  have started := registered.begin
    (.operation (.start (some "c") "assistant" (some "Hello"))) trivial
  have ran := started.begin (.operation (.run "c" 5)) trivial
  have paused := ran.resumed (modelAnswering "" [⟨"x", "_-_-_search_-_-_find", .null⟩])
  have approved := paused.begin (.operation (.resolve "c" "x" .approve)) trivial
  have refused := approved.resumed (modelAnswering "" [])
  have again := refused.begin (.operation (.resolve "c" "x" .approve)) trivial
  have new : (Store.refusing [false, false, false, true]).IsNew := .inl rfl
  refine ⟨_, _, _, rfl, again, ?_, again.runs_requested rfl new.sound (new.holds _)⟩
  decide +kernel

end DialogueEngine
