import WarmCheck.Output
import WarmCheck.Snapshot.Format
import WarmCheck.Config
import WarmCheck.Failure
import WarmCheck.Route
import WarmCheck.Disk.Action
import WarmCheck.KnownFiles
import WarmCheck.Head
import WarmCheck.Marker
import WarmCheck.Endpoint
import WarmCheck.Watch.Batch
import WarmCheck.Debounce
import WarmCheck.Wait
import WarmCheck.Exchange
import WarmCheck.Supervisor
import WarmCheck.Program
import WarmCheck.Shell.Run
import WarmCheck.Launch
import WarmCheck.Checker
import WarmCheck.Watch.Watcher
import WarmCheck.Watch.Reaction
import WarmCheck.Daemon.Lifecycle
import WarmCheck.Daemon.Session
import WarmCheck.Daemon.Relay
import WarmCheck.CommandLine.Run
import WarmCheck.Main
import WarmCheck.Proofs.Lines
import WarmCheck.Proofs.Segments
import WarmCheck.Proofs.Supervision
import WarmCheck.Proofs.Pair
import WarmCheck.Proofs.Marking
import WarmCheck.Proofs.Succession
import WarmCheck.Proofs.Wire
import WarmCheck.Proofs.Replies
import WarmCheck.Proofs.Service
import WarmCheck.Proofs.Verdict
import WarmCheck.Proofs.Exchanges
import WarmCheck.Proofs.Reports
import WarmCheck.Proofs.Ascii
import WarmCheck.Proofs.Phrases
import WarmCheck.Proofs.Consistency
import WarmCheck.Proofs.Contest
import WarmCheck.Proofs.Outcome
import WarmCheck.Proofs.Exits
import WarmCheck.Proofs.Launches
import WarmCheck.Proofs.Requests
import WarmCheck.Proofs.Places
import WarmCheck.Proofs.KnownOrder
import WarmCheck.Proofs.Reconciliation
import WarmCheck.Proofs.Batches
import WarmCheck.Proofs.Reactions
import WarmCheck.Proofs.Relay
import WarmCheck.Proofs.Restarts
import WarmCheck.Proofs.Bursts
import WarmCheck.Proofs.Sessions
import WarmCheck.Proofs.Waiting
import WarmCheck.Proofs.Lookups
import WarmCheck.Proofs.Convergence
import WarmCheck.Proofs.Delays
import WarmCheck.Proofs.Queries
import WarmCheck.Proofs.Colours
import WarmCheck.Proofs.Grammar
import WarmCheck.Proofs.Worklist
import WarmCheck.Proofs.Changes
import WarmCheck.Watch.Routes
import WarmCheck.Proofs.Joins
import WarmCheck.Proofs.Relocation
import WarmCheck.Proofs.Ancestors
import WarmCheck.Proofs.Endpoints
import WarmCheck.Proofs.Heads
import WarmCheck.Proofs.Signals
import WarmCheck.Proofs.Separation
import WarmCheck.Proofs.Decoding
