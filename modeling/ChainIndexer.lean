import ChainIndexer.Block
import ChainIndexer.Checkpoint
import ChainIndexer.Config
import ChainIndexer.Contract.Registration
import ChainIndexer.Contract.Registry
import ChainIndexer.Entity.Basic
import ChainIndexer.Entity.History
import ChainIndexer.Event.Basic
import ChainIndexer.Event.Params
import ChainIndexer.Evm.Abi.Decoding
import ChainIndexer.Evm.Abi.Parser
import ChainIndexer.Evm.Abi.Token
import ChainIndexer.Evm.Abi.Type
import ChainIndexer.Evm.Keccak
import ChainIndexer.Evm.Node
import ChainIndexer.Evm.Source
import ChainIndexer.Evm.Word
import ChainIndexer.Fetch.BatchSize
import ChainIndexer.Fetch.Error
import ChainIndexer.Fetch.Fetcher
import ChainIndexer.Fetch.Queue
import ChainIndexer.Fetch.Task
import ChainIndexer.Fetch.Window
import ChainIndexer.Handler.Context
import ChainIndexer.Handler.Error
import ChainIndexer.Handler.Script
import ChainIndexer.Handler.Table
import ChainIndexer.Indexer
import ChainIndexer.Json.Basic
import ChainIndexer.Json.Parser
import ChainIndexer.Json.Printer
import ChainIndexer.Json.Record
import ChainIndexer.Lane
import ChainIndexer.Main
import ChainIndexer.Number.Decimal
import ChainIndexer.Number.Double
import ChainIndexer.Number.Hex
import ChainIndexer.Number.Word
import ChainIndexer.Orderer
import ChainIndexer.Pieces
import ChainIndexer.Pipeline.Basic
import ChainIndexer.Pipeline.Boot
import ChainIndexer.Pipeline.Error
import ChainIndexer.Pipeline.Writer
import ChainIndexer.Postgres.Condition
import ChainIndexer.Postgres.Database
import ChainIndexer.Postgres.Repo
import ChainIndexer.Postgres.Row
import ChainIndexer.Postgres.Schema
import ChainIndexer.Postgres.Server
import ChainIndexer.Postgres.Statement
import ChainIndexer.Postgres.Value
import ChainIndexer.Postgres.Write
import ChainIndexer.Processing
import ChainIndexer.Pruning
import ChainIndexer.Repo.Basic
import ChainIndexer.Repo.Error
import ChainIndexer.Repo.Refusing
import ChainIndexer.Repo.Store
import ChainIndexer.Retry
import ChainIndexer.Rollback.Planner
import ChainIndexer.Rollback.Scope
import ChainIndexer.Source.Basic
import ChainIndexer.Table
import ChainIndexer.Testing.Handlers
import ChainIndexer.Testing.Patience
import ChainIndexer.Testing.Records
import ChainIndexer.Testing.Samples
import ChainIndexer.Testing.ScriptedChain
import ChainIndexer.Testing.ScriptedNode
import ChainIndexer.Testing.SimulatedChain
import ChainIndexer.Testing.Steps
import ChainIndexer.Text.Blank
import ChainIndexer.Text.CaseTable
import ChainIndexer.Text.Identifier
import ChainIndexer.Text.IdentifierTable
import ChainIndexer.Text.Lowercase
import ChainIndexer.Text.Ranges
import ChainIndexer.Text.Utf8
import ChainIndexer.Wire.Answers
import ChainIndexer.Wire.Calls
import ChainIndexer.Wire.Decode
import ChainIndexer.Wire.Encode
import ChainIndexer.Wire.Nodes
import ChainIndexer.Wire.Samples
import ChainIndexer.Wire.Scripts
import ChainIndexer.Wire.Tables
import ChainIndexer.Proofs.Call
import ChainIndexer.Proofs.Coverage
import ChainIndexer.Proofs.Rollback.Plan
import ChainIndexer.Proofs.Rollback.Resumption
import ChainIndexer.Proofs.Handler.Loading
import ChainIndexer.Proofs.Handler.Reads
import ChainIndexer.Proofs.Registry
import ChainIndexer.Proofs.History
import ChainIndexer.Proofs.Processing
import ChainIndexer.Proofs.Replay
import ChainIndexer.Proofs.Written
import ChainIndexer.Proofs.Indexed
import ChainIndexer.Proofs.Survivors
import ChainIndexer.Proofs.UnitCuts
import ChainIndexer.Proofs.Rollback.Restore
import ChainIndexer.Proofs.Rollback.NeverIndexed
import ChainIndexer.Proofs.Integrity
import ChainIndexer.Proofs.Rollback.Pruned
import ChainIndexer.Proofs.Rollback.Fixpoint
import ChainIndexer.Proofs.Rollback.References
import ChainIndexer.Proofs.Lowercase
import ChainIndexer.Proofs.Backed
import ChainIndexer.Proofs.Resets
import ChainIndexer.Proofs.Postgres.Effects
import ChainIndexer.Proofs.Postgres.Execution
import ChainIndexer.Proofs.Postgres.Resets
import ChainIndexer.Proofs.Postgres.Rows
import ChainIndexer.Proofs.Postgres.Transactions
import ChainIndexer.Proofs.Release.Stream
import ChainIndexer.Proofs.Release.Bounds
import ChainIndexer.Proofs.Release.Run
import ChainIndexer.Proofs.Release.Reads
import ChainIndexer.Proofs.Release.Merge
import ChainIndexer.Proofs.Release.Conservation
import ChainIndexer.Proofs.Release.Quiet
import ChainIndexer.Proofs.Release.Heads
import ChainIndexer.Proofs.Release.Stranded
import ChainIndexer.Proofs.Log
import ChainIndexer.Proofs.Due
import ChainIndexer.Proofs.Window
import ChainIndexer.Proofs.Fetch
import ChainIndexer.Proofs.Lane
import ChainIndexer.Proofs.Orderer
import ChainIndexer.Proofs.Progress
import ChainIndexer.Proofs.Pipeline.Sound
import ChainIndexer.Proofs.Pipeline.Advance
import ChainIndexer.Proofs.Pipeline.Boot
import ChainIndexer.Proofs.Pipeline.Lasting
import ChainIndexer.Proofs.Indexer
import ChainIndexer.Proofs.ExactlyOnce
import ChainIndexer.Proofs.Fork.Versions
import ChainIndexer.Proofs.Fork.Lane
import ChainIndexer.Proofs.Fork.Fetch
import ChainIndexer.Proofs.Fork.Store
import ChainIndexer.Proofs.Fork.Commit
import ChainIndexer.Proofs.Fork.Rollback
import ChainIndexer.Proofs.Fork.Pipeline
import ChainIndexer.Proofs.Fork.Settle
import ChainIndexer.Proofs.Fork.Advance
import ChainIndexer.Proofs.Fork.Steps
import ChainIndexer.Proofs.Fork.Run
import ChainIndexer.Proofs.Fork.Canonical
import ChainIndexer.Proofs.Fork.Boundary
import ChainIndexer.Proofs.Pipeline.Steps
import ChainIndexer.Proofs.Pipeline.Upheld
import ChainIndexer.Proofs.Runs
import ChainIndexer.Proofs.Recording
import ChainIndexer.Proofs.Mirrors
import ChainIndexer.Proofs.Pipeline.Own
import ChainIndexer.Proofs.Degraded
import ChainIndexer.Proofs.Pipeline.Nearing
import ChainIndexer.Proofs.Completion
import ChainIndexer.Proofs.Covered
import ChainIndexer.Proofs.Uniqueness
import ChainIndexer.Proofs.Release.Reports
import ChainIndexer.Proofs.Pipeline.Pacing
import ChainIndexer.Proofs.Pipeline.Climbing
import ChainIndexer.Proofs.Pipeline.Leaves
import ChainIndexer.Proofs.Counters
import ChainIndexer.Proofs.Ledger
import ChainIndexer.Proofs.Release.Parking
import ChainIndexer.Proofs.Release.Turns
import ChainIndexer.Proofs.Release.Buffering
import ChainIndexer.Proofs.Serials
import ChainIndexer.Proofs.Merging
import ChainIndexer.Proofs.Handler.Answers
import ChainIndexer.Proofs.Handler.Interleaving
import ChainIndexer.Proofs.Retries
import ChainIndexer.Proofs.BatchSizes
import ChainIndexer.Proofs.Requests
import ChainIndexer.Proofs.Pruning.Schedule
import ChainIndexer.Proofs.Pruning.Watched
import ChainIndexer.Proofs.Pruning.Idle
import ChainIndexer.Proofs.Pruning.Commits
import ChainIndexer.Proofs.Pruning.Runs
import ChainIndexer.Proofs.Words
import ChainIndexer.Proofs.Numerals
import ChainIndexer.Proofs.Evm.Tokens
import ChainIndexer.Proofs.Evm.Notes
import ChainIndexer.Proofs.Evm.Answers
import ChainIndexer.Proofs.Evm.Pages
import ChainIndexer.Proofs.Evm.Forks
import ChainIndexer.Proofs.HighestBlocks
import ChainIndexer.Proofs.Postgres.Sql
import ChainIndexer.Proofs.Postgres.Conditions
import ChainIndexer.Proofs.Postgres.Queries
import ChainIndexer.Proofs.Postgres.Scopes
