import DialogueEngine.Engine.Situation
import DialogueEngine.Proofs.Tool.Schemas

/-!
Listings that are kept and the client that gave them. The client moves on all the time: a listing
may change at any moment, and then its revision has risen. A conversation that keeps a listing is
abreast of the client as long as the revision noted with it is not ahead of the client's, and the
listing is the client's wherever the two are equal; the client can move on without ending that.
-/

namespace DialogueEngine

open Json (Reader)

-- Powers are those of the core library, whatever else is imported.
attribute [local instance (high)] instPowNat

/-- The client of the tool providers at a moment: what each provider lists, and its revision. -/
structure Client where
  revision : String → Nat
  listing : String → List ListedTool
  /-- Revisions are counted in 64 bits. -/
  counted (provider : String) : revision provider < 2 ^ 64
  held (provider : String) : ∀ t ∈ listing provider, t.inputSchema.Held

namespace Client

/-- What a client may become: no revision is lower, and one that is the same has the same
listing. -/
def Becomes (k k' : Client) : Prop :=
  ∀ provider, k.revision provider ≤ k'.revision provider ∧
    (k'.revision provider = k.revision provider → k'.listing provider = k.listing provider)

theorem Becomes.refl (k : Client) : k.Becomes k := fun _ => ⟨Nat.le_refl _, fun _ => rfl⟩

theorem Becomes.trans {k k' k'' : Client} (first : k.Becomes k') (second : k'.Becomes k'') :
    k.Becomes k'' := by
  intro provider
  obtain ⟨least, same⟩ := first provider
  obtain ⟨least', same'⟩ := second provider
  refine ⟨Nat.le_trans least least', fun equal => ?_⟩
  have middle : k'.revision provider = k.revision provider := by omega
  have later : k''.revision provider = k'.revision provider := by omega
  exact (same' later).trans (same middle)

/-- An answer that a client gives at a moment. Nothing is said of other answers than a revision and
a listing; that a listing fails is always possible. -/
def Answers (k : Client) : (q : Question) → Answer q → Prop
  | .revision provider, revision => revision = k.revision provider
  | .listing provider, .ok listing => listing = k.listing provider
  | _, _ => True

end Client

/-! ## Listings -/

namespace OfferedTool

/-- Tools that have been written down and read again so many times. -/
def reread : Nat → List OfferedTool → List OfferedTool
  | 0, tools => tools
  | n + 1, tools => (reread n tools).map rounded

theorem held_toJson {t : OfferedTool} (held : t.definition.inputSchema.Held) : t.toJson.Held := by
  have definition : t.definition.toJson.Held :=
    ⟨Json.ordered_of_map ["description", "input_schema", "name"] rfl (by decide),
      trivial, held, trivial, trivial⟩
  exact ⟨Json.ordered_of_map ["definition", "original_name", "provider"] rfl (by decide),
    definition, trivial, trivial, trivial⟩

end OfferedTool

namespace Client

variable {k k' : Client} {whole : Prop} {provider : String} {revision : Nat}
  {tools : List OfferedTool}

/-- A listing that was taken at a revision is not ahead of the client, and it is the client's where
the client has not moved past it. It may have been written down and read again meanwhile, but not
where conversations are kept `whole`. -/
structure Vouches (k : Client) (whole : Prop) (provider : String) (revision : Nat)
    (tools : List OfferedTool) : Prop where
  reached : revision ≤ k.revision provider
  current (same : revision = k.revision provider) : ∃ n, (whole → n = 0) ∧
    tools = OfferedTool.reread n (OfferedTool.ofListing provider (k.listing provider))

theorem Vouches.later (vouches : k.Vouches whole provider revision tools) (later : k.Becomes k') :
    k'.Vouches whole provider revision tools where
  reached := Nat.le_trans vouches.reached (later provider).1
  current same := by
    -- Between the revision that was noted and an equal one the client has not moved.
    have least := (later provider).1
    have reached := vouches.reached
    rw [(later provider).2 (by omega)]
    exact vouches.current (by omega)

/-- What is listed after a revision has been read may be kept with it: had the listing changed in
between, the client would have moved past the revision. -/
theorem vouches_listed {k₁ k₂ : Client} (first : k₁.Becomes k₂) (second : k₂.Becomes k) :
    k.Vouches whole provider (k₁.revision provider)
      (OfferedTool.ofListing provider (k₂.listing provider)) where
  reached := (first.trans second provider).1
  current same := by
    have least := (first provider).1
    have least' := (second provider).1
    rw [(second provider).2 (by omega)]
    exact ⟨0, fun _ => rfl, rfl⟩

theorem Vouches.rounded (vouches : k.Vouches whole provider revision tools) (written : ¬ whole) :
    k.Vouches whole provider revision (tools.map OfferedTool.rounded) where
  reached := vouches.reached
  current same := by
    obtain ⟨n, -, rfl⟩ := vouches.current same
    exact ⟨n + 1, fun holds => absurd holds written, rfl⟩

end Client

/-! ## Conversations -/

namespace Table

variable {α β : Type}

theorem find_map (f : α → β) (key : String) (entries : List (String × α)) :
    find key (entries.map fun e => (e.1, f e.2)) = (find key entries).map f := by
  induction entries with
  | nil => rfl
  | cons e rest ih =>
    obtain ⟨k, a⟩ := e
    by_cases same : k = key
    · simp [find, same]
    · simpa [find, same] using ih

theorem get?_mapValues (f : α → β) (t : Table α) (key : String) :
    (t.mapValues f).get? key = (t.get? key).map f :=
  find_map f key t.entries

theorem mem_insert {t : Table α} {key : String} {a : α} {e : String × α}
    (member : e ∈ (t.insert key a).entries) : e = (key, a) ∨ e ∈ t.entries :=
  mem_place member

end Table

namespace Conversation

variable {k k' : Client} {whole : Prop} {c c' : Conversation}

/-- The listings that a conversation keeps, with their revisions. -/
def shelf (c : Conversation) : String × Table (List OfferedTool) × Table Nat :=
  (c.id, c.cache, c.cacheRevisions)

/-- Every listing that a conversation keeps is one that the client vouches for. -/
structure Abreast (k : Client) (whole : Prop) (c : Conversation) : Prop where
  kept (provider : String) (tools : List OfferedTool) (found : c.cache.get? provider = some tools) :
    k.Vouches whole provider ((c.cacheRevisions.get? provider).getD 0) tools
  held : ∀ e ∈ c.cache.entries, ∀ t ∈ e.2, t.definition.inputSchema.Held
  counted : ∀ e ∈ c.cacheRevisions.entries, e.2 < 2 ^ 64

namespace Abreast

theorem later (abreast : c.Abreast k whole) (later : k.Becomes k') : c.Abreast k' whole where
  kept provider tools found := (abreast.kept provider tools found).later later
  held := abreast.held
  counted := abreast.counted

theorem of_shelf (abreast : c.Abreast k whole) (same : c'.shelf = c.shelf) :
    c'.Abreast k whole := by
  have cache : c'.cache = c.cache := congrArg (·.2.1) same
  have revisions : c'.cacheRevisions = c.cacheRevisions := congrArg (·.2.2) same
  obtain ⟨kept, held, counted⟩ := abreast
  rw [← cache, ← revisions] at kept
  exact ⟨kept, cache ▸ held, revisions ▸ counted⟩

/-- Nothing is kept at first. -/
theorem of_nothing (cache : c.cache = ∅) (revisions : c.cacheRevisions = ∅) :
    c.Abreast k whole where
  kept provider tools found := by
    rw [cache] at found
    cases found
  held := by
    rw [cache]
    exact nofun
  counted := by
    rw [revisions]
    exact nofun

/-- A listing that has been taken since a revision was read is kept with it. -/
theorem keepListing {k₁ k₂ : Client} {provider : String} (abreast : c.Abreast k whole)
    (first : k₁.Becomes k₂) (second : k₂.Becomes k) (now : Instant) :
    (c.keepListing provider (OfferedTool.ofListing provider (k₂.listing provider))
      (k₁.revision provider) now).Abreast k whole where
  kept other tools found := by
    simp only [Conversation.keepListing, Table.get?_insert] at found ⊢
    by_cases same : provider = other
    · subst same
      rw [if_pos rfl] at found ⊢
      cases found
      exact Client.vouches_listed first second
    · rw [if_neg same] at found ⊢
      exact abreast.kept other tools found
  held e member := by
    rcases Table.mem_insert member with rfl | old
    · exact OfferedTool.held_ofListing (k₂.held provider)
    · exact abreast.held e old
  counted e member := by
    rcases Table.mem_insert member with rfl | old
    · exact k₁.counted provider
    · exact abreast.counted e old

/-- Whenever a listing is found that was kept at the client's revision, it is the client's. -/
theorem serves {provider : String} {tools : List OfferedTool} (abreast : c.Abreast k whole)
    (found : c.keptListing provider (k.revision provider) = some tools) :
    ∃ n, (whole → n = 0) ∧
      tools = OfferedTool.reread n (OfferedTool.ofListing provider (k.listing provider)) := by
  unfold keptListing at found
  split at found
  · next same => exact (abreast.kept provider tools found).current same
  · cases found

end Abreast

/-! ## Listings that are written down -/

theorem held_cacheToJson {t : Table (List OfferedTool)}
    (held : ∀ e ∈ t.entries, ∀ tool ∈ e.2, tool.definition.inputSchema.Held) :
    (cacheToJson t).Held := by
  refine ⟨List.pairwise_map.2 t.ordered, Json.heldMembers_iff.2 fun m member => ?_⟩
  obtain ⟨e, inside, rfl⟩ := List.mem_map.1 member
  refine Json.heldItems_iff.2 fun v listed => ?_
  obtain ⟨tool, own, rfl⟩ := List.mem_map.1 listed
  exact OfferedTool.held_toJson (held e inside tool own)

theorem held_revisionsToJson {t : Table Nat} (counted : ∀ e ∈ t.entries, e.2 < 2 ^ 64) :
    (revisionsToJson t).Held := by
  refine ⟨List.pairwise_map.2 t.ordered, Json.heldMembers_iff.2 fun m member => ?_⟩
  obtain ⟨e, inside, rfl⟩ := List.mem_map.1 member
  have most := counted e inside
  show -(2 ^ 63 : Nat) ≤ (e.2 : Int) ∧ (e.2 : Int) < (2 ^ 64 : Nat)
  omega

/-- A value that has been read is what its reader recovers. -/
theorem recovered {α : Type} {read : Reader α} {v : Json} {a a' : α} {levels : Nat}
    (recovers : Reader.Recovers read v a') (ok : read (.text levels) v.scanned = .ok a) :
    a = a' := by
  rw [recovers levels] at ok
  split at ok
  · exact (Except.ok.inj ok).symm
  · cases ok

/-- What is read where a conversation has been written keeps its listings with their doubles
rounded. -/
theorem shelf_of_read (cacheHeld : (cacheToJson c.cache).Held)
    (revisionsHeld : (revisionsToJson c.cacheRevisions).Held)
    (ok : Conversation.read.ofText c.toJson.write = .ok c') :
    c'.shelf = (c.id, c.cache.mapValues (·.map OfferedTool.rounded), c.cacheRevisions) := by
  rw [Reader.ofText_write] at ok
  obtain ⟨inside, enters, back⟩ := readBack ok
  obtain rfl : inside = .text 126 := (Except.ok.inj enters).symm
  rw [shelf, back.id, recovered (recovers_cache cacheHeld) back.cache,
    recovered (recovers_revisions revisionsHeld) back.cacheRevisions]

/-- A conversation that is not kept whole is abreast of the client when it is read again. -/
theorem Abreast.of_read (abreast : c.Abreast k whole) (written : ¬ whole)
    (ok : Conversation.read.ofText c.toJson.write = .ok c') : c'.Abreast k whole := by
  have shelf := shelf_of_read (held_cacheToJson abreast.held) (held_revisionsToJson abreast.counted)
    ok
  have cache : c'.cache = c.cache.mapValues (·.map OfferedTool.rounded) := congrArg (·.2.1) shelf
  have revisions : c'.cacheRevisions = c.cacheRevisions := congrArg (·.2.2) shelf
  refine ⟨fun provider tools found => ?_, ?_, revisions ▸ abreast.counted⟩
  · rw [cache, Table.get?_mapValues, Option.map_eq_some_iff] at found
    obtain ⟨former, before, rfl⟩ := found
    rw [revisions]
    exact (abreast.kept provider former before).rounded written
  · rw [cache]
    intro e member t inside
    obtain ⟨former, old, rfl⟩ := List.mem_map.1 member
    obtain ⟨tool, own, rfl⟩ := List.mem_map.1 inside
    exact Json.held_rounded _ (abreast.held former old tool own)

end Conversation

end DialogueEngine
