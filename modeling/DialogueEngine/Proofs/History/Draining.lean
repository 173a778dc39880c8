import DialogueEngine.Proofs.Conversation.Fitting
import DialogueEngine.Proofs.Engine.Pursuit
import DialogueEngine.Proofs.Engine.Settling
import DialogueEngine.Proofs.History.Stepping
import DialogueEngine.Proofs.Tool.Names

/-!
Resolving pending calls one after the other. In a store that does not fail each decision about a
pending call answers it and leaves the others waiting as they were, in whatever order and whichever
way the calls are decided; the one that answers the last of them lets the conversation go on. A
store of rows rounds doubles each time that it writes the conversation down and reads it.
-/

namespace DialogueEngine

open Conversation (extract)

/-! ## What a store gives back -/

namespace Backing

/-- Whether conversations are kept as rows of text. -/
def isTable : Backing → Bool
  | .memory _ => false
  | .table _ => true

theorem isTable_put (b : Backing) (c : Conversation) : (b.put c).isTable = b.isTable := by
  cases b <;> rfl

/-- What becomes of a conversation that is put: rows of text round its doubles. -/
def keeping (table : Bool) (c : Conversation) : Conversation := if table then c.rounded else c

/-- A conversation that is put can be read, and comes back as it was but for its doubles; rows of
text have to hold it. -/
theorem put_get (b : Backing) {c : Conversation} (fits : b.isTable = true → c.Fits) :
    (b.put c).get c.id = .ok (some (keeping b.isTable c)) := by
  cases b with
  | memory conversations => simp [Backing.put, Backing.get, keeping, isTable]
  | table rows =>
    have named : (Row.ofConversation c).id = c.id := rfl
    have read : Conversation.read.ofText (Row.ofConversation c).document = .ok c.rounded :=
      (Conversation.read_written (fits rfl).held).trans (if_pos (fits rfl).shallow)
    simp only [Backing.put, Backing.get, Row.find?_put, named, if_true, read, keeping, isTable]

/-- Whatever is read of a row that a program has written fits. -/
theorem fits_of_put_get {rows : List Row} {c c' : Conversation} (held : c.Held)
    (found : ((table rows).put c).get c.id = .ok (some c')) : c'.Fits := by
  have named : (Row.ofConversation c).id = c.id := rfl
  have read : Conversation.read.ofText (Row.ofConversation c).document =
      if c.toJson.depth ≤ Json.textLevels then .ok c.rounded else .error .malformed :=
    Conversation.read_written held
  simp only [Backing.put, Backing.get, Row.find?_put, named, if_true, read] at found
  by_cases shallow : c.toJson.depth ≤ Json.textLevels
  · rw [if_pos shallow] at found
    cases found
    exact Conversation.Fits.rounded ⟨held, shallow⟩
  · rw [if_neg shallow] at found
    cases found

end Backing

/-- A store of one kind or the other that refuses nothing. -/
structure Store.Unfailing (table : Bool) (s : Store) : Prop where
  reads : s.readRefusals = []
  writes : s.writeRefusals = []
  kind : s.backing.isTable = table

theorem Store.Unfailing.dependable {table : Bool} {s : Store} (unfailing : s.Unfailing table) :
    s.Dependable fun _ => False :=
  ⟨unfailing.reads, unfailing.writes, fun _ => False.elim⟩

theorem Store.Unfailing.put {table : Bool} {s : Store} (unfailing : s.Unfailing table)
    (c : Conversation) : ({ s with backing := s.backing.put c } : Store).Unfailing table :=
  ⟨unfailing.reads, unfailing.writes, (Backing.isTable_put s.backing c).trans unfailing.kind⟩

/-! ## Conversations some of whose calls are answered -/

/-- A message answers a call. -/
def Message.Resolves (place : Option String) (call : String) (m : Message) : Prop :=
  ∃ result s, m = { Message.answering call result s with node := place }

/-- An answer holds no doubles. -/
theorem Message.Resolves.fixed {place : Option String} {call : String} {m : Message}
    (resolves : m.Resolves place call) : ∀ m' ∈ [m], m'.rounded = m' := by
  obtain ⟨result, s, rfl⟩ := resolves
  intro m' member
  rw [List.mem_singleton.1 member]
  rfl

namespace Conversation

/-- A conversation after some of its pending calls have been answered. With the last of them the
wait for approval is over. -/
def drained (c : Conversation) (calls : List String) (answers : List Message) : Conversation :=
  let left := c.pending.filter fun call => !calls.contains call.id
  { c with
    pending := left
    status := if left.isEmpty ∧ c.status = .awaitingApproval then .running else c.status
    messages := c.messages ++ answers
    updatedAt := answers.getLast?.elim c.updatedAt (·.createdAt) }

/-- The run that a decision about a pending call asks for. -/
def asksFor (c : Conversation) (call : String) : Decision → Option Question
  | .approve => (c.pending.find? fun other => other.id = call).bind (·.question.toOption)
  | .reject _ => none

variable {c : Conversation} {call : String} {calls : List String} {answers : List Message}
  {table : Bool}

/-- What is kept of a conversation that has been answered fits as it did before. -/
theorem keeping_fits (fits : table = true → c.Fits) {place : Option String} {m : Message}
    (resolves : m.Resolves place call)
    (timely : table = true → Instant.yearInRange (c.drained calls [m]).updatedAt.year = true) :
    table = true → (c.drained calls [m]).Fits ∧
      (Backing.keeping table (c.drained calls [m])).Fits := by
  rintro rfl
  have silent : m.toolCalls = [] := by
    obtain ⟨result, s, rfl⟩ := resolves
    rfl
  have answered : (c.drained calls [m]).Fits :=
    (fits rfl).answered List.filter_sublist.subset silent (timely rfl) _
  exact ⟨answered, answered.rounded⟩

/-- Where the ids of calls are distinct, the calls that are left are those with other ids. -/
theorem extract_distinct {pending : List ToolCall} (distinct : (pending.map (·.id)).Nodup)
    (inside : call ∈ pending.map (·.id)) : ∃ taken, taken.id = call ∧
      extract call pending = some (taken, pending.filter fun other => other.id ≠ call) := by
  induction pending with
  | nil => cases inside
  | cons first rest ih =>
    obtain ⟨new, distinct⟩ := List.nodup_cons.1 distinct
    by_cases same : first.id = call
    · refine ⟨first, same, ?_⟩
      have others : rest.filter (fun other => other.id ≠ call) = rest := by
        refine List.filter_eq_self.2 fun other member => decide_eq_true ?_
        rintro rfl
        have there : other.id ∈ rest.map (·.id) := List.mem_map_of_mem member
        rw [← same] at there
        exact new there
      rw [extract, if_pos same, List.filter_cons_of_neg (by simp [same]), others]
    · have later : call ∈ rest.map (·.id) :=
        (List.mem_cons.1 inside).resolve_left fun first => same first.symm
      obtain ⟨taken, named, found⟩ := ih distinct later
      refine ⟨taken, named, ?_⟩
      rw [extract, if_neg same, found, List.filter_cons_of_pos (by simp [same])]
      rfl

/-- The call that is taken off is the first with its id. -/
theorem extract_fst (call : String) (pending : List ToolCall) :
    (extract call pending).map (·.1) = pending.find? fun other => other.id = call := by
  induction pending with
  | nil => rfl
  | cons first rest ih =>
    by_cases same : first.id = call
    · simp [extract, same]
    · rw [extract, if_neg same, List.find?_cons_of_neg (by simpa using same), ← ih]
      cases extract call rest <;> rfl

theorem extract_missing {pending : List ToolCall} (missing : call ∉ pending.map (·.id)) :
    extract call pending = none := by
  induction pending with
  | nil => rfl
  | cons first rest ih =>
    rw [List.map_cons, List.mem_cons, not_or] at missing
    rw [extract, if_neg (Ne.symm missing.1), ih missing.2]
    rfl

/-- Answering calls one after the other is answering all of them. -/
theorem drained_drained (c : Conversation) (first : List String) (answered : List Message)
    (calls : List String) (answers : List Message) :
    (c.drained first answered).drained calls answers =
      c.drained (first ++ calls) (answered ++ answers) := by
  have left : (c.pending.filter fun call => !first.contains call.id).filter
      (fun call => !calls.contains call.id) =
      c.pending.filter fun call => !(first ++ calls).contains call.id := by
    rw [List.filter_filter]
    refine List.filter_congr fun call _ => ?_
    rw [List.contains_append, Bool.not_or, Bool.and_comm]
  have status : ((c.drained first answered).drained calls answers).status =
      (c.drained (first ++ calls) (answered ++ answers)).status := by
    simp only [drained, left]
    by_cases ended : (c.pending.filter fun call => !first.contains call.id).isEmpty ∧
        c.status = .awaitingApproval
    · have all : c.pending.filter (fun call => !(first ++ calls).contains call.id) = [] := by
        rw [← left, List.isEmpty_iff.1 ended.1]
        rfl
      rw [if_pos ended, all, ite_self, if_pos ⟨rfl, ended.2⟩]
    · rw [if_neg ended]
  have updated : ((c.drained first answered).drained calls answers).updatedAt =
      (c.drained (first ++ calls) (answered ++ answers)).updatedAt := by
    simp only [drained, List.getLast?_append]
    cases answers.getLast? <;> rfl
  unfold drained at status updated ⊢
  simp only [left, List.append_assoc] at status updated ⊢
  rw [status, updated]

/-- One call of several with distinct ids is answered by taking it off. -/
theorem drained_one (c : Conversation) {rest : List ToolCall}
    (left : rest = c.pending.filter fun other => other.id ≠ call) (m : Message) :
    c.drained [call] [m] =
      { c with
        pending := rest
        status := if rest.isEmpty ∧ c.status = .awaitingApproval then .running else c.status
        messages := c.messages ++ [m]
        updatedAt := m.createdAt } := by
  have same : (c.pending.filter fun other => ! [call].contains other.id) = rest := by
    rw [left]
    refine List.filter_congr fun other _ => ?_
    simp
  unfold drained
  rw [same]
  rfl

/-- Taking a call off and adding a message is answering the call by that message. -/
theorem takeCall_drained (distinct : (c.pending.map (·.id)).Nodup)
    (inside : call ∈ c.pending.map (·.id)) (t : Instant) :
    ∃ taken c₁, taken.id = call ∧ c.takeCall call t = some (taken, c₁) ∧
      (c.pending.find? fun other => other.id = call) = some taken ∧ c₁.next = c.next ∧
      c₁.current = c.current ∧ ∀ m, c₁.push m m.createdAt = c.drained [call] [m] := by
  obtain ⟨taken, named, extracted⟩ := extract_distinct distinct inside
  refine ⟨taken, _, named, congrArg (Option.map _) extracted, ?_, rfl, rfl, fun m => ?_⟩
  · rw [← extract_fst, extracted]
    rfl
  · rw [drained_one c rfl]
    rfl

theorem rounded_drained (c : Conversation) (calls : List String) (answers : List Message)
    (fixed : ∀ m ∈ answers, m.rounded = m) :
    (c.drained calls answers).rounded = c.rounded.drained calls answers := by
  have left : (c.rounded.pending.filter fun call => !calls.contains call.id) =
      (c.pending.filter fun call => !calls.contains call.id).map ToolCall.rounded :=
    List.filter_map
  have said : answers.map Message.rounded = answers :=
    (List.map_congr_left fixed).trans (List.map_id _)
  unfold drained
  simp only [left, List.isEmpty_map]
  simp only [rounded, List.map_append, said]
  rfl

/-- What a store makes of a conversation some of whose calls are answered. -/
theorem keeping_drained (table : Bool) (c : Conversation) (calls : List String)
    {answers : List Message} (fixed : ∀ m ∈ answers, m.rounded = m) :
    Backing.keeping table (c.drained calls answers) =
      (Backing.keeping table c).drained calls answers := by
  cases table with
  | false => rfl
  | true => exact rounded_drained c calls answers fixed

theorem iterate_drained (table : Bool) (k : Nat) (c : Conversation) (calls : List String)
    {answers : List Message} (fixed : ∀ m ∈ answers, m.rounded = m) :
    (Backing.keeping table)^[k] (c.drained calls answers) =
      ((Backing.keeping table)^[k] c).drained calls answers := by
  induction k generalizing c with
  | zero => rfl
  | succ k ih =>
    rw [Function.iterate_succ_apply, Function.iterate_succ_apply,
      keeping_drained table c calls fixed, ih]

theorem keeping_ids (table : Bool) (c : Conversation) :
    (Backing.keeping table c).pending.map (·.id) = c.pending.map (·.id) := by
  cases table with
  | false => rfl
  | true => simp [Backing.keeping, rounded, ToolCall.rounded]

theorem iterate_ids (table : Bool) (k : Nat) (c : Conversation) :
    ((Backing.keeping table)^[k] c).pending.map (·.id) = c.pending.map (·.id) := by
  induction k generalizing c with
  | zero => rfl
  | succ k ih => rw [Function.iterate_succ_apply, ih, keeping_ids]

theorem iterate_status (table : Bool) (k : Nat) (c : Conversation) :
    ((Backing.keeping table)^[k] c).status = c.status := by
  induction k generalizing c with
  | zero => rfl
  | succ k ih =>
    rw [Function.iterate_succ_apply, ih]
    cases table <;> rfl

/-- The wait for approval is over with as many answers as calls were pending. -/
theorem drained_status (waits : c.status = .awaitingApproval)
    (distinct : (c.pending.map (·.id)).Nodup) (once : calls.Nodup)
    (inside : calls ⊆ c.pending.map (·.id)) (answers : List Message) :
    (c.drained calls answers).status =
      if calls.length = c.pending.length then .running else .awaitingApproval := by
  have none_left : (c.pending.filter fun call => !calls.contains call.id) = [] ↔
      calls.length = c.pending.length := by
    have few := List.subperm_of_subset once inside
    rw [List.filter_eq_nil_iff]
    constructor
    · intro all
      have covered : c.pending.map (·.id) ⊆ calls := by
        intro call member
        obtain ⟨other, there, rfl⟩ := List.mem_map.1 member
        simpa using all other there
      have many := (List.subperm_of_subset distinct covered).length_le
      have few := few.length_le
      rw [List.length_map] at many few
      omega
    · intro same other there
      have covers := few.perm_of_length_le (by rw [List.length_map, same])
      simp [covers.mem_iff.2 (List.mem_map_of_mem there)]
  by_cases through : calls.length = c.pending.length
  · rw [if_pos through]
    exact if_pos ⟨List.isEmpty_iff.2 (none_left.2 through), waits⟩
  · rw [if_neg through, ← waits]
    exact if_neg fun ended => through (none_left.1 (List.isEmpty_iff.1 ended.1))

/-- The calls that are left are those with other ids. -/
theorem drained_ids (c : Conversation) (calls : List String) (answers : List Message) :
    (c.drained calls answers).pending.map (·.id) =
      (c.pending.map (·.id)).filter fun call => !calls.contains call := by
  rw [List.filter_map]
  rfl

/-- What is asked for a call does not depend on others that have been answered. -/
theorem asksFor_drained (c : Conversation) {call : String} {calls : List String}
    (other : call ∉ calls) (answers : List Message) (decision : Decision) :
    (c.drained calls answers).asksFor call decision = c.asksFor call decision := by
  cases decision with
  | reject reason => rfl
  | approve =>
    have same : ((c.drained calls answers).pending.find? fun other => other.id = call) =
        c.pending.find? fun other => other.id = call := by
      unfold drained
      rw [List.find?_filter]
      congr 1
      funext first
      by_cases named : first.id = call
      · simp [named, other]
      · simp [named]
    unfold asksFor
    rw [same]

end Conversation

namespace Engine

/-! ## One decision -/

variable {id call : String} {decision : Decision} {s : Situation} {c : Conversation} {table : Bool}

/-- What resolving a call does with the conversation that it has read. -/
def deciding (id call : String) (decision : Decision) (c : Conversation) :
    Engine (Except Failure Conversation) := do
  match c.takeCall call (← now) with
  | none => return .error (.notPending id call)
  | some (taken, c) => decide c taken decision >>= answering c taken decision

/-- A conversation has been put, and nothing else is different but what is published and the
time. -/
def HasPut (c : Conversation) (s s' : Situation) : Prop :=
  s' = { s with
    store := { s.store with backing := s.store.backing.put c }
    published := s'.published
    clock := s'.clock }

theorem HasPut.keeps {s' : Situation} (put : HasPut c s s')
    (dependable : s.store.Dependable fun _ => False) : s'.store.Keeps c := by
  have stored : s'.store = { s.store with backing := s.store.backing.put c } :=
    congrArg Situation.store put
  rw [stored, ← dependable.put c]
  exact Store.keeps_of_put (by simp [Store.put, Store.takeRefusal, dependable.writes])

/-- Answering a call that has been taken off puts the conversation with the answer. -/
theorem answering_leaves (dependable : s.store.Dependable fun _ => False) (c : Conversation)
    (taken : ToolCall) (decision : Decision) (result : ToolResult) :
    (answering c taken decision result s).Ends fun outcome s' => ∃ m,
      m.Resolves (c.next <|> c.current) taken.id ∧ outcome = .ok (c.push m m.createdAt) ∧
      HasPut (c.push m m.createdAt) s s' := by
  have tells (m : Message) (clock : Clock) (resolves : m.Resolves (c.next <|> c.current) taken.id) :
      (telling (c.push m m.createdAt) taken.id (decision = .approve) { s with clock }).Ends
        fun outcome s' => ∃ m, m.Resolves (c.next <|> c.current) taken.id ∧
          outcome = .ok (c.push m m.createdAt) ∧ HasPut (c.push m m.createdAt) s s' := by
    unfold telling
    rw [Activity.bind_of_done (write_done (s := { s with clock }) dependable _)]
    exact ⟨m, resolves, rfl, rfl⟩
  obtain ⟨t, clock, ticks⟩ : ∃ t clock, stamp s = .done { s with clock } t := ⟨_, _, rfl⟩
  unfold answering
  rw [Activity.bind_of_done ticks]
  cases place : (c.next <|> c.current) with
  | some node =>
    rw [place] at tells
    exact tells _ _ ⟨result, t, rfl⟩
  | none =>
    rw [place] at tells
    exact tells _ _ ⟨result, t, rfl⟩

/-- What resolving leaves: the conversation has been put and is given back, and it is free. -/
structure Puts (id : String) (table : Bool) (c : Conversation)
    (outcome : Except Failure Conversation) (s : Situation) : Prop where
  outcome : outcome = .ok c
  free : id ∉ s.claimed
  unfailing : s.store.Unfailing table
  put : ∃ b : Backing, b.isTable = table ∧ s.store.backing = b.put c

/-- Once a call has been taken off and decided about, the conversation is put with the answer. -/
theorem answering_puts (unfailing : s.store.Unfailing table) {c₁ : Conversation}
    {taken : ToolCall} (next : c₁.next = c.next) (current : c₁.current = c.current)
    (pushes : ∀ m, c₁.push m m.createdAt = c.drained [taken.id] [m]) (decision : Decision)
    (result : ToolResult) :
    ((answering c₁ taken decision result s).andThen fun reply s' =>
      .done (releasing id s') reply).Ends fun outcome s' => ∃ m,
        m.Resolves (c.next <|> c.current) taken.id ∧
        Puts id table (c.drained [taken.id] [m]) outcome s' := by
  obtain ⟨s', outcome, done, m, resolves, rfl, put⟩ :=
    (answering_leaves unfailing.dependable c₁ taken decision result).eq_done
  rw [next, current] at resolves
  rw [pushes] at done put
  rw [done]
  have stored : s'.store = _ := congrArg Situation.store put
  refine ⟨m, resolves, rfl, by simp [releasing], ?_, s.store.backing, unfailing.kind, ?_⟩
  · exact stored ▸ unfailing.put _
  · exact congrArg Store.backing stored

/-- An approved call that names a tool is not decided at once. -/
theorem unasked_of_decided {taken : ToolCall} {result : ToolResult} {s' : Situation}
    (done : decide c taken .approve s = .done s' result) : taken.question.toOption = none := by
  cases splits : ToolName.split taken.name with
  | error f =>
    rw [ToolCall.question, splits]
    rfl
  | ok place =>
    obtain ⟨provider, tool⟩ := place
    unfold decide invoke at done
    rw [if_neg (ne_true_of_eq_false (ToolName.plain_of_split splits)), splits] at done
    cases done

section Resolving

variable (free : id ∉ s.claimed) (unfailing : s.store.Unfailing table)
  (found : s.store.backing.get id = .ok (some c))
include free unfailing found

theorem resolve_reads (call : String) (decision : Decision) : resolve id call decision s =
    (deciding id call decision c (seizing id s)).andThen fun reply s' =>
      .done (releasing id s') reply :=
  claiming_found (deciding id call decision) free (load_found unfailing.dependable found)

/-- A call that is not pending cannot be resolved, and nothing changes but the time. -/
theorem resolve_unpending (missing : call ∉ c.pending.map (·.id)) :
    (resolve id call decision s).Ends fun outcome s' =>
      outcome = .error (.notPending id call) ∧ s' = { s with clock := s'.clock } := by
  have again : (seizing id s).claimed.filter (· != id) = s.claimed := by
    have kept : s.claimed.filter (· != id) = s.claimed :=
      List.filter_eq_self.2 fun other member => bne_iff_ne.2 fun same => free (same ▸ member)
    simp [seizing, kept]
  have taken (t : Instant) : c.takeCall call t = none := by
    rw [Conversation.takeCall, Conversation.extract_missing missing]
    rfl
  have refuses : deciding id call decision c (seizing id s) =
      .done { seizing id s with clock := s.clock.tick.2 } (.error (.notPending id call)) := by
    unfold deciding
    rw [Activity.bind_of_done (rfl : now (seizing id s) =
      .done { seizing id s with clock := s.clock.tick.2 } s.clock.tick.1.instant), taken]
    rfl
  rw [resolve_reads free unfailing found, refuses]
  refine ⟨rfl, ?_⟩
  simp only [releasing, again]
  rfl

/-- A decision about a pending call answers it and leaves the others waiting. It asks for the tool
to be run if the call is approved and names one, and for nothing else. -/
theorem resolve_pending (decision : Decision) (distinct : (c.pending.map (·.id)).Nodup)
    (inside : call ∈ c.pending.map (·.id)) (past : List Exchange) :
    (resolve id call decision s).Follows (·.store.Unfailing table) (fun _ _ => True)
      (fun past' outcome s' =>
        past'.map (·.1) = past.map (·.1) ++ (c.asksFor call decision).toList ∧
        ∃ m, m.Resolves (c.next <|> c.current) call ∧
          Puts id table (c.drained [call] [m]) outcome s') past := by
  obtain ⟨t, clock, ticks⟩ : ∃ t clock, now (seizing id s) =
    .done { seizing id s with clock } t := ⟨_, _, rfl⟩
  obtain ⟨taken, c₁, rfl, taking, looked, next, current, pushes⟩ :=
    Conversation.takeCall_drained distinct inside t
  have decides : deciding id taken.id decision c (seizing id s) =
      (decide c₁ taken decision >>= answering c₁ taken decision) { seizing id s with clock } := by
    unfold deciding
    rw [Activity.bind_of_done ticks, taking]
  have ends {s' : Situation} (unfailing' : s'.store.Unfailing table) (result : ToolResult)
      {past' : List Exchange}
      (asked : past'.map (·.1) = past.map (·.1) ++ (c.asksFor taken.id decision).toList) :
      ((answering c₁ taken decision result s').andThen fun reply s' =>
        .done (releasing id s') reply).Follows (·.store.Unfailing table) (fun _ _ => True)
        (fun past' outcome s' =>
          past'.map (·.1) = past.map (·.1) ++ (c.asksFor taken.id decision).toList ∧
          ∃ m, m.Resolves (c.next <|> c.current) taken.id ∧
            Puts id table (c.drained [taken.id] [m]) outcome s') past' := by
    obtain ⟨s₁, outcome, done, puts⟩ :=
      (answering_puts unfailing' next current pushes decision result).eq_done
    rw [done]
    exact ⟨asked, puts⟩
  rw [resolve_reads free unfailing found, decides, Activity.bind_run]
  rcases decide_cases c₁ taken decision { seizing id s with clock } with
    ⟨result, done⟩ | ⟨rfl, provider, tool, splits, poses⟩
  · have silent : c.asksFor taken.id decision = none := by
      cases decision with
      | approve =>
        rw [Conversation.asksFor, looked]
        exact unasked_of_decided done
      | reject reason => rfl
    have kept : ({ seizing id s with clock } : Situation).store.Unfailing table := unfailing
    rw [done]
    simp only [Interaction.andThen]
    apply ends kept result
    rw [silent, Option.toList_none, List.append_nil]
  · rw [poses]
    refine ⟨trivial, fun answer s' unfailing' => ?_⟩
    refine ends ?_ (ranResult answer) ?_
    · exact unfailing'
    have posed : taken.question = .ok (.runTool provider tool taken.arguments) := by
      rw [ToolCall.question, splits]
      rfl
    rw [List.map_append, Conversation.asksFor, looked, Option.bind_some, posed]
    rfl

end Resolving

/-! ## All of them -/

/-- Resolves calls one after the other. -/
def resolveAll (id : String) :
    List (String × Decision) → Engine (List (Except Failure Conversation))
  | [] => return []
  | (call, decision) :: rest => do
    let outcome ← resolve id call decision
    let later ← resolveAll id rest
    return outcome :: later

/-- The conversation as each of some decisions leaves it, when these messages answer the calls; a
store has kept it as often as calls were answered before. -/
def outcomesOf (table : Bool) (c : Conversation) (calls : List String) (answers : List Message) :
    List (Except Failure Conversation) :=
  (List.range calls.length).map fun k =>
    .ok (((Backing.keeping table)^[k] c).drained (calls.take (k + 1)) (answers.take (k + 1)))

/-- What the decisions ask for, each when those before it have been carried out. -/
def asksOf (table : Bool) (c : Conversation) (steps : List (String × Decision)) : List Question :=
  steps.zipIdx.filterMap fun (step, k) => ((Backing.keeping table)^[k] c).asksFor step.1 step.2

theorem outcomesOf_cons (table : Bool) (c : Conversation) (call : String) (calls : List String)
    {m : Message} (fixed : ∀ m' ∈ [m], m'.rounded = m') (answers : List Message) :
    outcomesOf table c (call :: calls) (m :: answers) =
      .ok (c.drained [call] [m]) ::
        outcomesOf table ((Backing.keeping table c).drained [call] [m]) calls answers := by
  unfold outcomesOf
  rw [List.length_cons, List.range_succ_eq_map, List.map_cons, List.map_map]
  refine congrArg₂ List.cons rfl (List.map_congr_left fun k _ => ?_)
  rw [Conversation.iterate_drained table k _ _ fixed, Conversation.drained_drained]
  rfl

theorem asksOf_cons (table : Bool) (c : Conversation) {call : String} (decision : Decision)
    {rest : List (String × Decision)} (new : call ∉ rest.map (·.1)) {m : Message}
    (fixed : ∀ m' ∈ [m], m'.rounded = m') :
    asksOf table c ((call, decision) :: rest) = (c.asksFor call decision).toList ++
      asksOf table ((Backing.keeping table c).drained [call] [m]) rest := by
  have later : asksOf table ((Backing.keeping table c).drained [call] [m]) rest =
      (rest.zipIdx 1).filterMap fun (step, k) =>
        ((Backing.keeping table)^[k] c).asksFor step.1 step.2 := by
    rw [← Nat.zero_add 1, List.zipIdx_succ, List.filterMap_map]
    refine List.filterMap_congr fun step member => ?_
    have other : step.1.1 ∉ [call] := by
      rintro same
      rw [List.mem_singleton] at same
      exact new (same ▸ List.mem_map_of_mem (List.fst_mem_of_mem_zipIdx member))
    dsimp only [Function.comp]
    rw [Conversation.iterate_drained table step.2 _ _ fixed, Conversation.asksFor_drained _ other]
    rfl
  rw [later]
  unfold asksOf
  rw [List.zipIdx_cons, List.filterMap_cons]
  dsimp only [Function.iterate_zero, id]
  cases c.asksFor call decision <;> rfl

/-- What resolving some calls of a conversation leaves. -/
structure Drains (id : String) (table : Bool) (c : Conversation) (calls : List String)
    (outcomes : List (Except Failure Conversation)) (s : Situation) : Prop where
  free : id ∉ s.claimed
  unfailing : s.store.Unfailing table
  answered : ∃ answers, List.Forall₂ (Message.Resolves (c.next <|> c.current)) calls answers ∧
    outcomes = outcomesOf table c calls answers
  stored : s.store.backing.get id =
    .ok (some ((outcomes.getLast?.bind (·.toOption)).elim c (Backing.keeping table)))

/-- The first decision has been carried out, and the others have been about what the store kept. -/
theorem Drains.cons {calls : List String} {outcomes : List (Except Failure Conversation)}
    {m : Message} (resolves : m.Resolves (c.next <|> c.current) call)
    (drains : Drains id table ((Backing.keeping table c).drained [call] [m]) calls outcomes s) :
    Drains id table c (call :: calls) (.ok (c.drained [call] [m]) :: outcomes) s := by
  obtain ⟨answers, all, rfl⟩ := drains.answered
  have place : (((Backing.keeping table c).drained [call] [m]).next <|>
      ((Backing.keeping table c).drained [call] [m]).current) = (c.next <|> c.current) := by
    cases table <;> rfl
  rw [place] at all
  refine ⟨drains.free, drains.unfailing, ⟨m :: answers, .cons resolves all, ?_⟩, ?_⟩
  · exact (outcomesOf_cons table c call calls resolves.fixed answers).symm
  rw [drains.stored, List.getLast?_cons]
  cases last : (outcomesOf table ((Backing.keeping table c).drained [call] [m])
      calls answers).getLast? with
  | none =>
    exact congrArg _ (congrArg _ (Conversation.keeping_drained table c [call] resolves.fixed).symm)
  | some outcome =>
    obtain ⟨k, -, rfl⟩ := List.mem_map.1 (List.mem_of_getLast? last)
    rfl

/-- The calls that are left wait on. -/
theorem Drains.left {calls : List String} {outcomes : List (Except Failure Conversation)}
    (drains : Drains id table c calls outcomes s) :
    ∃ d, s.store.backing.get id = .ok (some d) ∧
      d.pending.map (·.id) = (c.pending.map (·.id)).filter fun call => !calls.contains call := by
  obtain ⟨answers, -, rfl⟩ := drains.answered
  refine ⟨_, drains.stored, ?_⟩
  cases calls with
  | nil => exact (List.filter_eq_self.2 fun _ _ => rfl).symm
  | cons call calls =>
    rw [outcomesOf, List.length_cons, List.range_succ, List.map_append, List.map_singleton,
      List.getLast?_concat]
    dsimp only [Option.bind_some, Except.toOption, Option.elim_some]
    rw [Conversation.keeping_ids, Conversation.drained_ids, Conversation.iterate_ids]
    simp only [List.take_of_length_le (Nat.le_of_eq List.length_cons)]

/-- The instants at which conversations have been changed can be written as text, where they are
to be. -/
def Timely (table : Bool) (outcomes : List (Except Failure Conversation)) : Prop :=
  table = true → ∀ d, .ok d ∈ outcomes → Instant.yearInRange d.updatedAt.year = true

theorem resolveAll_drains {steps : List (String × Decision)} (named : c.id = id)
    (free : id ∉ s.claimed) (unfailing : s.store.Unfailing table)
    (found : s.store.backing.get id = .ok (some c)) (fits : table = true → c.Fits)
    (distinct : (c.pending.map (·.id)).Nodup) (once : (steps.map (·.1)).Nodup)
    (pending : ∀ step ∈ steps, step.1 ∈ c.pending.map (·.id)) (past : List Exchange) :
    (resolveAll id steps s).Follows (·.store.Unfailing table) (fun _ _ => True)
      (fun past' outcomes s' => Timely table outcomes →
        past'.map (·.1) = past.map (·.1) ++ asksOf table c steps ∧
        Drains id table c (steps.map (·.1)) outcomes s') past := by
  induction steps generalizing c s past with
  | nil =>
    intro _
    exact ⟨by simp [asksOf], free, unfailing, ⟨[], .nil, rfl⟩, found⟩
  | cons step rest ih =>
    obtain ⟨call, decision⟩ := step
    obtain ⟨new, once⟩ := List.nodup_cons.1 once
    dsimp only at new
    have inside : call ∈ c.pending.map (·.id) := pending _ List.mem_cons_self
    have first := resolve_pending free unfailing found decision distinct inside past
    rw [resolveAll, Activity.bind_run]
    apply first.andThen
    intro past₁ outcome s₁ ⟨asked, m, resolves, puts⟩
    obtain ⟨b, kind, put⟩ := puts.put
    obtain rfl := puts.outcome
    by_cases timely : table = true →
      Instant.yearInRange (c.drained [call] [m]).updatedAt.year = true
    · have fits := Conversation.keeping_fits fits resolves timely
      rw [Conversation.keeping_drained table c _ resolves.fixed] at fits
      have found₁ : s₁.store.backing.get id =
          .ok (some ((Backing.keeping table c).drained [call] [m])) := by
        have gives := b.put_get fun written => (fits (kind.symm.trans written)).1
        rw [kind, Conversation.keeping_drained table c _ resolves.fixed] at gives
        rw [put, ← named]
        exact gives
      have named₁ : ((Backing.keeping table c).drained [call] [m]).id = id := by
        rw [← named]
        cases table <;> rfl
      have left : ((Backing.keeping table c).drained [call] [m]).pending.map (·.id) =
          (c.pending.map (·.id)).filter fun other => ! [call].contains other := by
        rw [Conversation.drained_ids, Conversation.keeping_ids]
      have distinct₁ := left ▸ distinct.filter _
      have pending₁ : ∀ step ∈ rest,
          step.1 ∈ ((Backing.keeping table c).drained [call] [m]).pending.map (·.id) := by
        intro step member
        have other : step.1 ≠ call := fun same => new (same ▸ List.mem_map_of_mem member)
        rw [left]
        exact List.mem_filter.2 ⟨pending _ (List.mem_cons_of_mem _ member), by simp [other]⟩
      apply (ih named₁ puts.free puts.unfailing found₁ (fun written => (fits written).2) distinct₁
        once pending₁ past₁).andThen
      intro past' outcomes s' holds every
      obtain ⟨asked', drains⟩ := holds fun written d member =>
        every written d (List.mem_cons_of_mem _ member)
      refine ⟨?_, drains.cons resolves⟩
      rw [asked', asked, asksOf_cons table c decision new resolves.fixed, List.append_assoc]
    · apply (Interaction.follows_any _ past₁).andThen
      intro past' outcomes s' _ every
      exact absurd (fun written => every written _ List.mem_cons_self) timely

/-- A conversation in which a search and the reading of a page wait for approval. -/
def searching : Conversation :=
  { Conversation.fresh "c" "f" default with
    next := some "ask"
    current := some "ask"
    status := .awaitingApproval
    pending := [⟨"find", "_-_-_web_-_-_search", .object []⟩,
      ⟨"open", "_-_-_web_-_-_read", .object []⟩] }

theorem searching_fits : searching.Fits := ⟨by decide +kernel, by decide +kernel⟩

/-- A situation in which this conversation is stored, in memory or as a row of text. -/
def searchingIn (table : Bool) : Situation :=
  .fresh .standard ⟨Backing.put searching (if table then .table [] else .memory ∅), [], []⟩ default

end Engine

end DialogueEngine
