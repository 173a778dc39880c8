import DialogueEngine.Prompt.Variables
import DialogueEngine.Proofs.Conversation.Coherence

/-!
Conversations that differ only in how they are watched. The essence of a conversation leaves out
whether steps are recorded, what has been recorded, when it was last changed, that it pauses for
the one who watches, and the names and instants that were drawn for its messages. Whatever is done
to conversations of one essence, in whatever way they are watched, leaves them with one essence.
-/

namespace DialogueEngine

/-- A message without the name and the instant that were drawn for it. -/
def Message.essence (m : Message) : Message := { m with id := "", createdAt := default }

/-- A pause for the one who watches is not told from going on. -/
def Status.essence : Status → Status
  | .pausedDebug => .running
  | status => status

namespace Conversation

def essence (c : Conversation) : Conversation :=
  { c with
    messages := c.messages.map Message.essence
    status := c.status.essence
    debugMode := false
    trace := []
    updatedAt := default }

/-- Two conversations that are watched in two ways have one essence, and as long as they have not
failed they keep no failure. -/
structure Mirrors (mode mode' : Bool) (a b : Conversation) : Prop where
  essence : a.essence = b.essence
  unfailed : a.status ≠ .error → a.lastError = none
  mode : a.debugMode = mode
  mode' : b.debugMode = mode'

/-- In particular, where a node is run for both. -/
structure Runs (mode mode' : Bool) (a b : Conversation) : Prop extends Mirrors mode mode' a b where
  sound : a.status ≠ .error

namespace Mirrors

variable {mode mode' : Bool} {a b a' b' : Conversation} (mirrors : Mirrors mode mode' a b)
include mirrors

theorem symm : Mirrors mode' mode b a := by
  refine ⟨mirrors.essence.symm, fun sound => ?_, mirrors.mode', mirrors.mode⟩
  have status : a.status.essence = b.status.essence :=
    (congrArg Conversation.status mirrors.essence :)
  have unfailed : a.lastError = b.lastError := (congrArg Conversation.lastError mirrors.essence :)
  refine unfailed.symm.trans (mirrors.unfailed fun failed => sound ?_)
  rw [failed] at status
  cases later : b.status <;> simp [later, Status.essence] at status ⊢

/-! ### What is seen of either -/

theorem id : a.id = b.id := (congrArg Conversation.id mirrors.essence :)

theorem flow : a.flow = b.flow := (congrArg Conversation.flow mirrors.essence :)

theorem messages : a.messages.map Message.essence = b.messages.map Message.essence :=
  (congrArg Conversation.messages mirrors.essence :)

theorem current : a.current = b.current := (congrArg Conversation.current mirrors.essence :)

theorem next : a.next = b.next := (congrArg Conversation.next mirrors.essence :)

theorem status : a.status.essence = b.status.essence :=
  (congrArg Conversation.status mirrors.essence :)

theorem pending : a.pending = b.pending := (congrArg Conversation.pending mirrors.essence :)

theorem cancelled : a.cancelled = b.cancelled := (congrArg Conversation.cancelled mirrors.essence :)

theorem handoff : a.handoff = b.handoff := (congrArg Conversation.handoff mirrors.essence :)

theorem startPrompt : a.startPrompt = b.startPrompt :=
  (congrArg Conversation.startPrompt mirrors.essence :)

theorem values : a.values = b.values := (congrArg Conversation.values mirrors.essence :)

theorem keptListing (provider : String) (revision : Nat) :
    a.keptListing provider revision = b.keptListing provider revision :=
  (congrArg (fun c => c.keptListing provider revision) mirrors.essence :)

/-- A status other than going on is seen. -/
theorem status_eq_iff {status : Status} (other : status ≠ .running ∧ status ≠ .pausedDebug) :
    a.status = status ↔ b.status = status := by
  have same := mirrors.status
  revert same other
  cases a.status <;> cases b.status <;> cases status <;> simp [Status.essence]

end Mirrors

/-! ## Messages -/

theorem lastWithRole_essence (c : Conversation) (role : Role) :
    c.essence.lastWithRole role = (c.lastWithRole role).map Message.essence := by
  unfold lastWithRole essence
  rw [← List.map_reverse, List.find?_map]
  rfl

theorem lastContent_essence (c : Conversation) (role : Role) :
    (c.essence.lastWithRole role).map (·.content) = (c.lastWithRole role).map (·.content) := by
  rw [lastWithRole_essence, Option.map_map]
  rfl

theorem answeringNode_essence (c : Conversation) (g : Graph) :
    c.essence.answeringNode g = c.answeringNode g := by
  unfold answeringNode essence
  rw [← List.map_reverse, List.filter_map, List.filterMap_map]
  rfl

namespace Mirrors

variable {mode mode' : Bool} {a b a' b' : Conversation} (mirrors : Mirrors mode mode' a b)
include mirrors

theorem lastContent (role : Role) :
    (a.lastWithRole role).map (·.content) = (b.lastWithRole role).map (·.content) := by
  rw [← lastContent_essence, mirrors.essence, lastContent_essence]

theorem templateValues : a.templateValues = b.templateValues := by
  unfold Conversation.templateValues latestUserText
  rw [mirrors.values, mirrors.id, mirrors.flow, mirrors.lastContent]

theorem answeringNode (g : Graph) : a.answeringNode g = b.answeringNode g := by
  rw [← answeringNode_essence, mirrors.essence, answeringNode_essence]

/-! ## Changes -/

/-- A change that neither fails nor heals and does not touch how a conversation is watched. -/
theorem changed (essence : a'.essence = b'.essence) (status : a'.status = a.status)
    (lastError : a'.lastError = a.lastError) (watched : a'.debugMode = a.debugMode)
    (watched' : b'.debugMode = b.debugMode) : Mirrors mode mode' a' b' where
  essence := essence
  unfailed := by
    rw [status, lastError]
    exact mirrors.unfailed
  mode := watched.trans mirrors.mode
  mode' := watched'.trans mirrors.mode'

theorem touch (now now' : Instant) : Mirrors mode mode' (a.touch now) (b.touch now') :=
  mirrors.changed mirrors.essence rfl rfl rfl rfl

theorem cancel : Mirrors mode mode' { a with cancelled := true } { b with cancelled := true } :=
  mirrors.changed (congrArg (fun c => { c with cancelled := true }) mirrors.essence) rfl rfl rfl rfl

theorem push {m m' : Message} (same : m.essence = m'.essence) (now now' : Instant) :
    Mirrors mode mode' (a.push m now) (b.push m' now') := by
  refine mirrors.changed ?_ rfl rfl rfl rfl
  have grown : ∀ (c : Conversation) (m : Message) (t : Instant),
      (c.push m t).essence = { c.essence with messages := c.essence.messages ++ [m.essence] } :=
    fun c m t => by simp [Conversation.push, Conversation.essence]
  rw [grown, grown, mirrors.essence, same]

theorem withHandoff (handoff : Option String) :
    Mirrors mode mode' { a with handoff := handoff } { b with handoff := handoff } :=
  mirrors.changed (congrArg (fun c => { c with handoff }) mirrors.essence) rfl rfl rfl rfl

theorem keepListing (provider : String) (tools : List OfferedTool) (revision : Nat)
    (now now' : Instant) : Mirrors mode mode' (a.keepListing provider tools revision now)
      (b.keepListing provider tools revision now') :=
  mirrors.changed
    (congrArg (fun c => { c with
      cache := c.cache.insert provider tools
      cacheRevisions := c.cacheRevisions.insert provider revision }) mirrors.essence)
    rfl rfl rfl rfl

theorem withStartPrompt (prompt : String) (now now' : Instant) :
    Mirrors mode mode' (a.withStartPrompt prompt now) (b.withStartPrompt prompt now') :=
  mirrors.changed
    (congrArg (fun c => { c with
      startPrompt := if Text.isBlankText prompt then none else some prompt }) mirrors.essence)
    rfl rfl rfl rfl

theorem arrive (node : Node) (cancel : Bool) :
    Mirrors mode mode' (a.arrive node cancel) (b.arrive node cancel) := by
  have arrived : Mirrors mode mode' { a with current := some node.id, steps := a.steps + 1 }
      { b with current := some node.id, steps := b.steps + 1 } :=
    mirrors.changed
      (congrArg (fun c => { c with current := some node.id, steps := c.steps + 1 }) mirrors.essence)
      rfl rfl rfl rfl
  cases cancel with
  | false => exact arrived
  | true => exact arrived.cancel

theorem withNext (next : Option String) :
    Mirrors mode mode' { a with next := next } { b with next := next } :=
  mirrors.changed (congrArg (fun c => { c with next }) mirrors.essence) rfl rfl rfl rfl

theorem fail (info : FailureInfo) (now now' : Instant) :
    Mirrors mode mode' (a.fail info now) (b.fail info now') := by
  refine ⟨?_, fun sound => absurd rfl sound, mirrors.mode, mirrors.mode'⟩
  exact (congrArg (fun c => { c with
    status := .error, pending := [], handoff := none, lastError := some info }) mirrors.essence :)

/-- A node is run for what has nothing to be left behind, be it paused or not. -/
theorem leavePause (free : a.status ≠ .awaitingApproval ∧ a.status ≠ .completed) :
    Runs mode mode' a.leavePause b.leavePause := by
  have left : ∀ c : Conversation, c.status ≠ .awaitingApproval ∧ c.status ≠ .completed →
      (c.status ≠ .error → c.lastError = none) →
      c.leavePause = { c with status := .running, lastError := none } := by
    rintro c ⟨waits, ends⟩ unfailed
    unfold Conversation.leavePause
    cases status : c.status with
    | running =>
      have none := unfailed (by simp [status])
      obtain ⟨⟩ := c
      simp_all
    | awaitingApproval => exact absurd status waits
    | pausedDebug => simp
    | completed => exact absurd status ends
    | error => simp
  have free' : b.status ≠ .awaitingApproval ∧ b.status ≠ .completed :=
    ⟨fun waits => free.1 ((mirrors.status_eq_iff (by simp)).2 waits),
      fun ends => free.2 ((mirrors.status_eq_iff (by simp)).2 ends)⟩
  rw [left a free mirrors.unfailed, left b free' mirrors.symm.unfailed]
  exact ⟨⟨(congrArg (fun c => { c with status := .running, lastError := none }) mirrors.essence :),
    fun _ => rfl, mirrors.mode, mirrors.mode'⟩, by simp⟩

theorem reopen : Mirrors mode mode' a.reopen b.reopen := by
  have both : (a.status = .completed ∨ a.status = .error) ↔
      (b.status = .completed ∨ b.status = .error) :=
    or_congr (mirrors.status_eq_iff (by simp)) (mirrors.status_eq_iff (by simp))
  unfold Conversation.reopen
  by_cases ended : a.status = .completed ∨ a.status = .error
  · rw [if_pos ended, if_pos (both.1 ended)]
    exact ⟨(congrArg (fun c => { c with status := .running, lastError := none })
      mirrors.essence :), fun _ => rfl, mirrors.mode, mirrors.mode'⟩
  · rw [if_neg ended, if_neg (mt both.2 ended)]
    exact mirrors

theorem rewind (g : Graph) : Mirrors mode mode' (a.rewind g) (b.rewind g) := by
  refine mirrors.changed ?_ rfl rfl rfl rfl
  have rewound : ∀ c : Conversation, (c.rewind g).essence =
      { c.essence with next := some (c.answeringNode g), lastResponse := none } := fun _ => rfl
  rw [rewound, rewound, mirrors.essence, mirrors.answeringNode]

theorem needsRewind : a.needsRewind = b.needsRewind := by
  unfold Conversation.needsRewind
  rw [mirrors.next, decide_eq_decide.2 (mirrors.status_eq_iff (by simp))]

/-- A call is taken off both, or off neither. -/
theorem takeCall (call : String) (now now' : Instant) :
    (a.takeCall call now = none ∧ b.takeCall call now' = none) ∨
      ∃ taken rest rest', a.takeCall call now = some (taken, rest) ∧
        b.takeCall call now' = some (taken, rest') ∧ Mirrors mode mode' rest rest' := by
  unfold Conversation.takeCall
  rw [← mirrors.pending]
  cases extract call a.pending with
  | none => exact .inl ⟨rfl, rfl⟩
  | some found =>
    refine .inr ⟨found.1, _, _, rfl, rfl, ?_⟩
    have waits : a.status = .awaitingApproval ↔ b.status = .awaitingApproval :=
      mirrors.status_eq_iff (by simp)
    by_cases last : found.2.isEmpty ∧ a.status = .awaitingApproval
    · have unfailed := mirrors.unfailed (by simp [last.2])
      rw [if_pos last, if_pos (last.imp_right waits.1)]
      exact ⟨(congrArg (fun c => { c with pending := found.2, status := .running })
        mirrors.essence :), fun _ => unfailed, mirrors.mode, mirrors.mode'⟩
    · rw [if_neg last, if_neg (mt (And.imp_right waits.2) last)]
      exact mirrors.changed (congrArg (fun c => { c with pending := found.2 }) mirrors.essence)
        rfl rfl rfl rfl

/-! ## Records -/

/-- What is recorded of a run is not seen. -/
theorem noteRun (node : Node) (run : Visit) (before before' : Option Json) (now now' : Instant) :
    Mirrors mode mode' (a.noteRun node run before now) (b.noteRun node run before' now') := by
  have unseen : ∀ (c : Conversation) (before : Option Json) (t : Instant),
      (c.noteRun node run before t).essence = c.essence ∧
      (c.noteRun node run before t).debugMode = c.debugMode ∧
      (c.noteRun node run before t).lastError = c.lastError ∧
      ((c.noteRun node run before t).status = .error ↔ c.status = .error) := by
    intro c before t
    cases before with
    | none => exact ⟨rfl, rfl, rfl, .rfl⟩
    | some before =>
      unfold Conversation.noteRun
      dsimp only
      split
      · next running => simp [record, Conversation.essence, Status.essence, running]
      · exact ⟨rfl, rfl, rfl, .rfl⟩
  obtain ⟨essence, watched, failure, failed⟩ := unseen a before now
  obtain ⟨essence', watched', -, -⟩ := unseen b before' now'
  refine ⟨?_, fun sound => ?_, watched.trans mirrors.mode, watched'.trans mirrors.mode'⟩
  · rw [essence, essence', mirrors.essence]
  · exact failure.trans (mirrors.unfailed (mt failed.2 sound))

theorem noteFailure (node : Node) (before before' : Option Json) (f : Failure)
    (now now' : Instant) :
    Mirrors mode mode' (a.noteFailure node before f now) (b.noteFailure node before' f now') := by
  cases before <;> cases before' <;> exact mirrors.changed mirrors.essence rfl rfl rfl rfl

end Mirrors

/-! ## Runs of nodes -/

namespace Runs

variable {mode mode' : Bool} {a b a' b' : Conversation} (runs : Runs mode mode' a b)
include runs

theorem goesOn (mirrors : Mirrors mode mode' a' b') (status : a'.status = a.status) :
    Runs mode mode' a' b' :=
  ⟨mirrors, status ▸ runs.sound⟩

/-- Calls are waited for in one way, however the conversation is watched. -/
theorem pauseFor (calls : List ToolCall) (now now' : Instant) :
    Runs mode mode' (a.pauseFor calls now) (b.pauseFor calls now') := by
  unfold Conversation.pauseFor
  split
  · exact runs
  · exact ⟨⟨(congrArg (fun c => { c with pending := calls, status := .awaitingApproval })
      runs.essence :), fun _ => runs.unfailed runs.sound, runs.mode, runs.mode'⟩, by simp⟩

theorem finish (now now' : Instant) : Runs mode mode' (a.finish now) (b.finish now') := by
  refine ⟨⟨?_, fun _ => runs.unfailed runs.sound, runs.mode, runs.mode'⟩,
    by simp [Conversation.finish]⟩
  have finished : ∀ (c : Conversation) (t : Instant), (c.finish t).essence = { c.essence with
      lastResponse := (c.lastWithRole .assistant).map (·.content), status := .completed } :=
    fun _ _ => rfl
  rw [finished, finished, runs.essence, runs.lastContent]

end Runs

end Conversation

end DialogueEngine
