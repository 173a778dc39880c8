import DialogueEngine.Action
import DialogueEngine.Command.Basic
import DialogueEngine.Command.Errand
import DialogueEngine.Command.Report
import DialogueEngine.Conversation.Basic
import DialogueEngine.Conversation.Written
import DialogueEngine.Engine.Advance
import DialogueEngine.Engine.Cursor
import DialogueEngine.Engine.Decision
import DialogueEngine.Engine.Discovery
import DialogueEngine.Engine.Interaction
import DialogueEngine.Engine.Operation
import DialogueEngine.Engine.Situation
import DialogueEngine.Engine.Turn
import DialogueEngine.Engine.Visit
import DialogueEngine.Event
import DialogueEngine.Failure
import DialogueEngine.Flow.Authored
import DialogueEngine.Flow.Conversion
import DialogueEngine.Flow.Graph
import DialogueEngine.Flow.NodeSpec
import DialogueEngine.Instant.Basic
import DialogueEngine.Instant.Written
import DialogueEngine.Json.Document
import DialogueEngine.Json.Reader
import DialogueEngine.Json.Scanner
import DialogueEngine.Json.Source
import DialogueEngine.Json.Value
import DialogueEngine.Json.Writer
import DialogueEngine.Main
import DialogueEngine.Message
import DialogueEngine.Number.Binary64
import DialogueEngine.Number.Shortest
import DialogueEngine.Prompt.Composition
import DialogueEngine.Prompt.Template
import DialogueEngine.Prompt.Variables
import DialogueEngine.Provider.Pool
import DialogueEngine.Rehearsal.Doubles
import DialogueEngine.Rehearsal.Flows
import DialogueEngine.Rehearsal.Machine
import DialogueEngine.Rehearsal.Server
import DialogueEngine.Settings.Basic
import DialogueEngine.Settings.Document
import DialogueEngine.Settings.Environment
import DialogueEngine.Store.Basic
import DialogueEngine.Store.Written
import DialogueEngine.Table
import DialogueEngine.Text.Blank
import DialogueEngine.Text.Pieces
import DialogueEngine.Text.Shown
import DialogueEngine.Text.Unseen
import DialogueEngine.Toml.Document
import DialogueEngine.Toml.Moment
import DialogueEngine.Toml.Number
import DialogueEngine.Toml.Quoted
import DialogueEngine.Toml.Value
import DialogueEngine.Tool.Basic
import DialogueEngine.Tool.Declaration
import DialogueEngine.Tool.Name
import DialogueEngine.Tool.Schema
import DialogueEngine.Tool.Selection
import DialogueEngine.Proofs.History.Basic
import DialogueEngine.Proofs.Conversation.Coherence
import DialogueEngine.Proofs.Conversation.Pending
import DialogueEngine.Proofs.Conversation.Recall
import DialogueEngine.Proofs.Engine.Operation
import DialogueEngine.Proofs.History.Coherence
import DialogueEngine.Proofs.Engine.Approval
import DialogueEngine.Proofs.Engine.Dispatch
import DialogueEngine.Proofs.History.Approval
import DialogueEngine.Proofs.History.Transcripts
import DialogueEngine.Proofs.Interaction.Stretches
import DialogueEngine.Proofs.Store.Entries
import DialogueEngine.Proofs.Engine.Standing
import DialogueEngine.Proofs.Conversation.Accounts
import DialogueEngine.Proofs.Engine.Minding
import DialogueEngine.Proofs.Engine.Advancing
import DialogueEngine.Proofs.Engine.Custody
import DialogueEngine.Proofs.Engine.Undertaking
import DialogueEngine.Proofs.History.Custody
import DialogueEngine.Proofs.History.Exclusion
import DialogueEngine.Proofs.History.Cancellation
import DialogueEngine.Proofs.History.Accounting
import DialogueEngine.Proofs.Text.Splitting
import DialogueEngine.Proofs.Tool.Names
import DialogueEngine.Proofs.Flow.Conversion
import DialogueEngine.Proofs.Interaction.Reaching
import DialogueEngine.Proofs.Engine.Routing
import DialogueEngine.Proofs.Engine.Routes
import DialogueEngine.Proofs.Interaction.Answering
import DialogueEngine.Proofs.Engine.Upkeep
import DialogueEngine.Proofs.History.Nesting
import DialogueEngine.Proofs.History.Stepping
import DialogueEngine.Proofs.Engine.Requests
import DialogueEngine.Proofs.Engine.Dues
import DialogueEngine.Proofs.Engine.Settling
import DialogueEngine.Proofs.History.Charges
import DialogueEngine.Proofs.Flow.Exactness
import DialogueEngine.Proofs.Interaction.Likeness
import DialogueEngine.Proofs.Conversation.Essence
import DialogueEngine.Proofs.Engine.Mirroring
import DialogueEngine.Proofs.Engine.Recording
import DialogueEngine.Proofs.History.Debugging
import DialogueEngine.Proofs.Json.Recovery
import DialogueEngine.Proofs.Json.Fields
import DialogueEngine.Proofs.Number.Rounding
import DialogueEngine.Proofs.Number.Digits
import DialogueEngine.Proofs.Json.Rereading
import DialogueEngine.Proofs.Instant.Calendar
import DialogueEngine.Proofs.Instant.Written
import DialogueEngine.Proofs.Conversation.Recovery
import DialogueEngine.Proofs.Store.Equivalence
import DialogueEngine.Proofs.Tool.Schemas
import DialogueEngine.Proofs.Tool.Clients
import DialogueEngine.Proofs.Engine.Consulting
import DialogueEngine.Proofs.Engine.Abreast
import DialogueEngine.Proofs.History.Listings
import DialogueEngine.Proofs.Engine.Stillness
import DialogueEngine.Proofs.Interaction.Interruption
import DialogueEngine.Proofs.Engine.Interruption
import DialogueEngine.Proofs.Interaction.Chronicle
import DialogueEngine.Proofs.Engine.Confinement
import DialogueEngine.Proofs.Engine.Charter
import DialogueEngine.Proofs.Engine.Chartered
import DialogueEngine.Proofs.Conversation.Extension
import DialogueEngine.Proofs.History.Chartering
import DialogueEngine.Proofs.History.Growth
import DialogueEngine.Proofs.Conversation.Placement
import DialogueEngine.Proofs.Engine.Resumption
import DialogueEngine.Proofs.History.Placement
import DialogueEngine.Proofs.Engine.Acquaintance
import DialogueEngine.Proofs.History.Connections
import DialogueEngine.Proofs.Engine.Pursuit
import DialogueEngine.Proofs.Engine.Rounds
import DialogueEngine.Proofs.Conversation.Fitting
import DialogueEngine.Proofs.History.Draining
import DialogueEngine.Proofs.History.Footing
import DialogueEngine.Proofs.Engine.Handoff
import DialogueEngine.Proofs.History.Pausing
import DialogueEngine.Proofs.History.Handoff
import DialogueEngine.Proofs.Engine.Roster
import DialogueEngine.Proofs.Flow.Search
import DialogueEngine.Proofs.Tool.Sanitizing
import DialogueEngine.Proofs.Prompt.Rendering
import DialogueEngine.Proofs.Settings.Expansion
import DialogueEngine.Proofs.History.Addressing
import DialogueEngine.Proofs.History.Navigation
import DialogueEngine.Proofs.Engine.Hearing
import DialogueEngine.Proofs.History.Posting
import DialogueEngine.Proofs.Engine.Atomicity
import DialogueEngine.Proofs.Json.Spellings
import DialogueEngine.Proofs.Conversation.Reloading
import DialogueEngine.Proofs.Json.Respelling
import DialogueEngine.Proofs.Flow.Respelling
import DialogueEngine.Proofs.Engine.Announcing
import DialogueEngine.Proofs.Engine.Announced
import DialogueEngine.Proofs.History.Announcing
import DialogueEngine.Proofs.Instant.Order
import DialogueEngine.Proofs.Store.Recency
