import GoToSymbol.CommandLine.Arguments
import GoToSymbol.CommandLine.Command
import GoToSymbol.CommandLine.Job
import GoToSymbol.CommandLine.Preferences
import GoToSymbol.CommandLine.Report
import GoToSymbol.CommandLine.Results
import GoToSymbol.CommandLine.Workspace
import GoToSymbol.Config.Environment
import GoToSymbol.Config.Field
import GoToSymbol.Config.File
import GoToSymbol.Config.Plain
import GoToSymbol.Config.Reading
import GoToSymbol.Config.Setting
import GoToSymbol.Config.Settings
import GoToSymbol.Config.Variables
import GoToSymbol.Decimal.Binary
import GoToSymbol.Decimal.Notation
import GoToSymbol.Decimal.Reading
import GoToSymbol.Decimal.Rounding
import GoToSymbol.Decimal.Shortest
import GoToSymbol.File.Content
import GoToSymbol.File.Path
import GoToSymbol.File.Reference
import GoToSymbol.Index.Action
import GoToSymbol.Index.Document
import GoToSymbol.Index.Engine
import GoToSymbol.Index.Entry
import GoToSymbol.Index.Failure
import GoToSymbol.Index.Service
import GoToSymbol.Json.Reader
import GoToSymbol.Json.Writer
import GoToSymbol.Log.Event
import GoToSymbol.Log.Line
import GoToSymbol.Log.Template
import GoToSymbol.Main
import GoToSymbol.Markup.Glyph
import GoToSymbol.Markup.Node
import GoToSymbol.Markup.Scalar
import GoToSymbol.Markup.Token
import GoToSymbol.Name.Split
import GoToSymbol.Name.Synonyms
import GoToSymbol.Proofs.CommandLine.Dumps
import GoToSymbol.Proofs.CommandLine.Indexing
import GoToSymbol.Proofs.CommandLine.Preferences
import GoToSymbol.Proofs.CommandLine.Tree
import GoToSymbol.Proofs.Config.Accepted
import GoToSymbol.Proofs.Decimal.Machine
import GoToSymbol.Proofs.Decimal.Nearest
import GoToSymbol.Proofs.Decimal.Unpacked
import GoToSymbol.Proofs.File.Key
import GoToSymbol.Proofs.Index.Access
import GoToSymbol.Proofs.Index.Agreement
import GoToSymbol.Proofs.Index.Answers
import GoToSymbol.Proofs.Index.Availability
import GoToSymbol.Proofs.Index.Batches
import GoToSymbol.Proofs.Index.Boosted
import GoToSymbol.Proofs.Index.Calls
import GoToSymbol.Proofs.Index.Cap
import GoToSymbol.Proofs.Index.Closing
import GoToSymbol.Proofs.Index.Counting
import GoToSymbol.Proofs.Index.Deletion
import GoToSymbol.Proofs.Index.Discipline
import GoToSymbol.Proofs.Index.Effects
import GoToSymbol.Proofs.Index.Ending
import GoToSymbol.Proofs.Index.Entries
import GoToSymbol.Proofs.Index.Epoch
import GoToSymbol.Proofs.Index.Findable
import GoToSymbol.Proofs.Index.Found
import GoToSymbol.Proofs.Index.Interleaving
import GoToSymbol.Proofs.Index.Keeping
import GoToSymbol.Proofs.Index.Lawful
import GoToSymbol.Proofs.Index.Laws
import GoToSymbol.Proofs.Index.Locks
import GoToSymbol.Proofs.Index.Operations
import GoToSymbol.Proofs.Index.Publishing
import GoToSymbol.Proofs.Index.Records
import GoToSymbol.Proofs.Index.Recovery
import GoToSymbol.Proofs.Index.Refusal
import GoToSymbol.Proofs.Index.Reindex
import GoToSymbol.Proofs.Index.Removal
import GoToSymbol.Proofs.Index.Replacement
import GoToSymbol.Proofs.Index.Requests
import GoToSymbol.Proofs.Index.Sessions
import GoToSymbol.Proofs.Index.Site
import GoToSymbol.Proofs.Index.Stored
import GoToSymbol.Proofs.Index.Terms
import GoToSymbol.Proofs.Index.Workers
import GoToSymbol.Proofs.Json.Levels
import GoToSymbol.Proofs.Name.Forms
import GoToSymbol.Proofs.Name.Joined
import GoToSymbol.Proofs.Name.Overloads
import GoToSymbol.Proofs.Name.Tokens
import GoToSymbol.Proofs.Query.Capitals
import GoToSymbol.Proofs.Query.Humps
import GoToSymbol.Proofs.Relevance.Boosts
import GoToSymbol.Proofs.Relevance.Depth
import GoToSymbol.Proofs.Store.Documents
import GoToSymbol.Proofs.Store.Ledger
import GoToSymbol.Proofs.Store.Matches
import GoToSymbol.Proofs.Store.Reading
import GoToSymbol.Proofs.Store.Renumbering
import GoToSymbol.Proofs.Store.Ties
import GoToSymbol.Proofs.Store.Writing
import GoToSymbol.Proofs.Symbol.Dump
import GoToSymbol.Proofs.Text.Lines
import GoToSymbol.Proofs.Text.Lowercase
import GoToSymbol.Proofs.Text.Percent
import GoToSymbol.Proofs.Text.Pieces
import GoToSymbol.Query.Pattern
import GoToSymbol.Query.Tree
import GoToSymbol.Relevance
import GoToSymbol.Store.Archive
import GoToSymbol.Store.Directory
import GoToSymbol.Store.Engine
import GoToSymbol.Store.Matching
import GoToSymbol.Store.Merge
import GoToSymbol.Store.Ranking
import GoToSymbol.Store.Segment
import GoToSymbol.Store.Session
import GoToSymbol.Symbol.Dump
import GoToSymbol.Symbol.Record
import GoToSymbol.Text.Blank
import GoToSymbol.Text.Case
import GoToSymbol.Text.CaseTable
import GoToSymbol.Text.Digit
import GoToSymbol.Text.Lines
import GoToSymbol.Text.Percent
import GoToSymbol.Text.Printable
import GoToSymbol.Text.Quoted
import GoToSymbol.Text.Runs
import GoToSymbol.Text.Terminal
import GoToSymbol.Value.Basic
import GoToSymbol.Value.Text
