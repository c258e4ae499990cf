import ExpiringStore.Codec.Catalog
import ExpiringStore.Lifetime.Bounded
import ExpiringStore.Log.Line
import ExpiringStore.Rehearsal.Bare
import ExpiringStore.Pattern.Basic
import ExpiringStore.Proofs.Lifetime.Exact
import ExpiringStore.Proofs.Table.Find
import ExpiringStore.Proofs.Table.Commit
import ExpiringStore.Proofs.Program.Follows
import ExpiringStore.Proofs.Program.Parts
import ExpiringStore.Proofs.Call.Contract
import ExpiringStore.Proofs.Call.Reads
import ExpiringStore.Proofs.Call.Writes
import ExpiringStore.Proofs.Interleaving.Basic
import ExpiringStore.Proofs.Interleaving.Play
import ExpiringStore.Proofs.Interleaving.Loss
import ExpiringStore.Proofs.Table.Reply
import ExpiringStore.Proofs.Interleaving.Refresh
import ExpiringStore.Proofs.Codec.Payload
import ExpiringStore.Proofs.Interleaving.Insertion
import ExpiringStore.Proofs.Program.Surroundings
import ExpiringStore.Proofs.Ledger.Basic
import ExpiringStore.Proofs.Ledger.Agreement
import ExpiringStore.Proofs.Ledger.Answers
import ExpiringStore.Proofs.Ledger.Runs
import ExpiringStore.Proofs.Table.Storable
import ExpiringStore.Proofs.Ledger.Smooth
import ExpiringStore.Proofs.Lifetime.Ordered
import ExpiringStore.Proofs.Program.Trail
import ExpiringStore.Proofs.Program.TrailParts
import ExpiringStore.Proofs.Call.Account
import ExpiringStore.Proofs.Call.AccountedReads
import ExpiringStore.Proofs.Call.AccountedWrites
import ExpiringStore.Proofs.Desk.Basic
import ExpiringStore.Proofs.Desk.Raising
import ExpiringStore.Proofs.Counting.Basic
import ExpiringStore.Proofs.Counting.Fresh
import ExpiringStore.Proofs.Call.LiveValues
import ExpiringStore.Proofs.Call.Storable
import ExpiringStore.Proofs.Pattern.Front
import ExpiringStore.Proofs.Table.Live
import ExpiringStore.Proofs.Desk.Station
import ExpiringStore.Proofs.Desk.OnLive
import ExpiringStore.Proofs.Desk.ShownReads
import ExpiringStore.Proofs.Desk.ShownWrites
import ExpiringStore.Proofs.Desk.Shown
import ExpiringStore.Proofs.Desk.Sweeping
import ExpiringStore.Proofs.Desk.Views
import ExpiringStore.Proofs.Codec.RoundTrip
import ExpiringStore.Proofs.Table.Turnover
import ExpiringStore.Proofs.Call.Course
import ExpiringStore.Proofs.Call.Accepted
import ExpiringStore.Proofs.Desk.Hearing
import ExpiringStore.Proofs.Desk.Mirror
import ExpiringStore.Proofs.Balance.Basic
import ExpiringStore.Proofs.Balance.Calls
import ExpiringStore.Proofs.Balance.Quiet
import ExpiringStore.Proofs.Desk.Steady
import ExpiringStore.Proofs.Desk.BatchWrites
import ExpiringStore.Proofs.Desk.Batches
import ExpiringStore.Proofs.Pattern.Exact
import ExpiringStore.Proofs.Desk.Refused
import ExpiringStore.Proofs.Desk.Patterns
import ExpiringStore.Proofs.Codec.Dates
import ExpiringStore.Proofs.Codec.Sets
import ExpiringStore.Proofs.Codec.Typed
import ExpiringStore.Proofs.Desk.Typed
import ExpiringStore.Proofs.Call.Habits
import ExpiringStore.Proofs.Call.Probe
import ExpiringStore.Proofs.Interleaving.Probes
import ExpiringStore.Proofs.Interleaving.Verdicts
import ExpiringStore.Proofs.Program.Abides
import ExpiringStore.Proofs.Lifecycle.Standing
import ExpiringStore.Proofs.Lifecycle.Calls
import ExpiringStore.Proofs.Lifecycle.History
import ExpiringStore.Proofs.Lifecycle.Facility
import ExpiringStore.Proofs.Lifecycle.Reached
import ExpiringStore.Proofs.Lifecycle.Engine
import ExpiringStore.Proofs.Attempt.Delays
import ExpiringStore.Proofs.Attempt.Executor
import ExpiringStore.Proofs.Number.Exact
import ExpiringStore.Proofs.Number.Double
import ExpiringStore.Proofs.Number.Whole
import ExpiringStore.Proofs.Number.Canonical
import ExpiringStore.Proofs.Number.Rounded
import ExpiringStore.Proofs.Number.Monotone
import ExpiringStore.Proofs.Lifetime.Known
import ExpiringStore.Proofs.Lifetime.Amount
import ExpiringStore.Proofs.Lifetime.Fresh
import ExpiringStore.Proofs.Lifetime.Clock
import ExpiringStore.Proofs.Lifetime.Seconds
import ExpiringStore.Proofs.Program.Attempts
import ExpiringStore.Proofs.Table.Vacancy
import ExpiringStore.Proofs.Desk.Insertion
import ExpiringStore.Proofs.Desk.Stamping
import ExpiringStore.Proofs.Desk.Honoured
import ExpiringStore.Proofs.Table.Assign
import ExpiringStore.Proofs.Desk.Chores
import ExpiringStore.Proofs.Desk.Commuting
import ExpiringStore.Proofs.Listeners.Dispatcher
import ExpiringStore.Proofs.Sweeper.Course
import ExpiringStore.Proofs.Gate.Visit
import ExpiringStore.Proofs.Gate.Passage
import ExpiringStore.Proofs.Gate.Record
import ExpiringStore.Proofs.Gate.Handover
import ExpiringStore.Proofs.Gate.OneShot
import ExpiringStore.Proofs.Counting.Upkeep
import ExpiringStore.Proofs.Counting.Careful
import ExpiringStore.Proofs.Program.Asks
import ExpiringStore.Proofs.Premises.Basic
import ExpiringStore.Proofs.Premises.Site
import ExpiringStore.Proofs.Premises.Counted
import ExpiringStore.Proofs.Number.Line
import ExpiringStore.Proofs.Lifetime.Timed
import ExpiringStore.Proofs.Lifetime.OneRule
import ExpiringStore.Proofs.Lifetime.Reading
import ExpiringStore.Proofs.Table.All
import ExpiringStore.Proofs.Program.Fair
import ExpiringStore.Proofs.Call.Lookups
import ExpiringStore.Proofs.Settings.Loaded
import ExpiringStore.Proofs.Tenancy.Rows
import ExpiringStore.Proofs.Tenancy.Requests
import ExpiringStore.Proofs.Tenancy.Basic
import ExpiringStore.Proofs.Tenancy.Invariant
