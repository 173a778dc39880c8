import DialogueEngine.Proofs.Conversation.Recall

/-!
Accounting for tool calls. A conversation accounts for its calls if, of each id, as many have been
asked for as have been answered or are pending. A node that is run keeps the account; giving up a
step keeps it only where nothing is pending.
-/

namespace DialogueEngine

/-! ## Transcripts -/

namespace Transcript

/-- The ids of the calls that the model asks for. -/
def asked (messages : List Message) : List String :=
  (messages.filter fun m => m.role = .assistant).flatMap fun m => m.toolCalls.map (·.id)

/-- The ids of the calls that are answered. -/
def answered (messages : List Message) : List String :=
  (messages.filter fun m => m.role = .tool).filterMap (·.toolCallId)

theorem asked_append (messages more : List Message) :
    asked (messages ++ more) = asked messages ++ asked more := by
  simp [asked]

theorem answered_append (messages more : List Message) :
    answered (messages ++ more) = answered messages ++ answered more := by
  simp [answered]

theorem asked_cons (m : Message) (rest : List Message) : asked (m :: rest) =
    (if m.role = .assistant then m.toolCalls.map (·.id) else []) ++ asked rest := by
  by_cases speaks : m.role = .assistant <;> simp [asked, speaks]

theorem answered_cons (m : Message) (rest : List Message) : answered (m :: rest) =
    (if m.role = .tool then m.toolCallId.toList else []) ++ answered rest := by
  by_cases answers : m.role = .tool
  · cases named : m.toolCallId <;> simp [answered, answers, named]
  · simp [answered, answers]

/-- What is due and what is asked for is answered or left open. -/
theorem Leads.count {due left : List String} {messages : List Message}
    (leads : Leads due messages left) (id : String) :
    due.count id + (asked messages).count id = (answered messages).count id + left.count id := by
  induction leads with
  | none same => simp [asked, answered, same.count_eq]
  | user role later ih => simpa [asked_cons, answered_cons, role] using ih
  | assistant role later ih => simpa [asked_cons, answered_cons, role] using ih
  | tool role answers opened later ih =>
    rw [opened.count_eq]
    simp only [asked_cons, answered_cons, role, answers, reduceCtorEq, if_false, if_true,
      List.nil_append, Option.toList_some, List.singleton_append, List.count_cons]
    omega

theorem asked_bare (messages : List Message) :
    asked (messages.map Message.bare) = asked messages := by
  have ids (m : Message) : m.bare.toolCalls.map (·.id) = m.toolCalls.map (·.id) := by
    simp only [Message.bare, List.map_map]
    rfl
  have roles (m : Message) : m.bare.role = m.role := rfl
  induction messages with
  | nil => rfl
  | cons m rest ih => simp only [List.map_cons, asked_cons, roles, ids, ih]

theorem answered_bare (messages : List Message) :
    answered (messages.map Message.bare) = answered messages := by
  have roles (m : Message) : m.bare.role = m.role := rfl
  have names (m : Message) : m.bare.toolCallId = m.toolCallId := rfl
  induction messages with
  | nil => rfl
  | cons m rest ih => simp only [List.map_cons, answered_cons, roles, names, ih]

end Transcript

/-! ## Conversations -/

namespace Conversation

open Transcript (Leads asked answered)

variable {c c' : Conversation}

/-- Of each id as many calls have been asked for as have been answered or are pending. -/
def Accounts (c : Conversation) : Prop :=
  ∀ id, (asked c.messages).count id =
    (answered c.messages).count id + (c.pending.map (·.id)).count id

theorem Accounts.congr (accounts : c.Accounts) (messages : c'.messages = c.messages)
    (pending : c'.pending = c.pending) : c'.Accounts := by
  rw [Accounts, messages, pending]
  exact accounts

/-- Whether a conversation accounts for its calls is recalled. -/
theorem Accounts.of_bare (same : c'.bare = c.bare) (accounts : c.Accounts) : c'.Accounts := by
  have messages : c'.messages.map Message.bare = c.messages.map Message.bare :=
    (congrArg Conversation.messages same :)
  intro id
  rw [pending_ids_of_bare same, ← Transcript.asked_bare c'.messages,
    ← Transcript.answered_bare c'.messages, messages, Transcript.asked_bare,
    Transcript.answered_bare]
  exact accounts id

/-- The calls that a turn leaves open are those that are to be pending. -/
theorem Engaged.accounts {left : List String} {d : Conversation} (engaged : Engaged c c' left)
    (accounts : c.Accounts) (none : c.pending = []) (messages : d.messages = c'.messages)
    (pending : d.pending.map (·.id) = left) : d.Accounts := by
  obtain ⟨added, grown, leads⟩ := engaged.grown
  intro id
  have before := accounts id
  have since := leads.count id
  rw [none, List.map_nil, List.count_nil] at before
  rw [List.count_nil] at since
  rw [messages, grown, Transcript.asked_append, Transcript.answered_append, List.count_append,
    List.count_append, pending]
  omega

theorem Passes.accounts {node : Node} {action : Action} (passes : Passes node c c' action)
    (accounts : c.Accounts) (none : c.pending = []) : c'.Accounts := by
  cases passes with
  | start kind prompt now => exact accounts.congr rfl rfl
  | turn kind engaged action =>
    exact engaged.accounts accounts none rfl (by rw [engaged.pending, none, List.map_nil])
  | @paused spec c' calls kind engaged some approvable route now =>
    have calling : calls.isEmpty = false := by simpa using some
    refine engaged.accounts accounts none ?_ ?_ <;> simp [pauseFor, calling]
  | listing kind engaged same =>
    exact engaged.accounts accounts none rfl (by rw [engaged.pending, none, List.map_nil])
  | finish kind now => exact accounts.congr rfl rfl

theorem giveUp_accounts (accounts : c.Accounts) (none : c.pending = []) (f : Failure)
    (now : Instant) : (c.giveUp f now).Accounts :=
  accounts.congr rfl none.symm

end Conversation

end DialogueEngine
