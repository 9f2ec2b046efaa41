import ContainerScanner.Foundation.Aggregate
import ContainerScanner.Foundation.Clocked
import ContainerScanner.Foundation.Erasure
import ContainerScanner.Foundation.KeepBest
import ContainerScanner.Foundation.Substring
import ContainerScanner.Foundation.Machine
import ContainerScanner.Foundation.Paging
import ContainerScanner.Foundation.Session
import ContainerScanner.Registry.Outcome
import ContainerScanner.Registry.Bearer
import ContainerScanner.Jobs.Queue
import ContainerScanner.Jobs.Workers
import ContainerScanner.Jobs.Embargo
import ContainerScanner.Jobs.Fairness
import ContainerScanner.Scanner.Entries
import ContainerScanner.Scanner.Acceptance
import ContainerScanner.Scanner.Dedup
import ContainerScanner.Scanner.Rows
import ContainerScanner.Scanner.Statements
import ContainerScanner.Scanner.Storable
import ContainerScanner.Scanner.WellFormed
import ContainerScanner.Scanner.History
import ContainerScanner.Scanner.Rollup
import ContainerScanner.Scanner.CveGuard
import ContainerScanner.Scanner.Worker
import ContainerScanner.Scanner.Skip
import ContainerScanner.Scanner.Rescan
import ContainerScanner.Scanner.World
import ContainerScanner.Scanner.RunOnce
import ContainerScanner.Scanner.Atomicity
import ContainerScanner.Scanner.Backpressure
import ContainerScanner.Scanner.Lease
import ContainerScanner.Scanner.Trivy
import ContainerScanner.Scheduler.Lock
import ContainerScanner.Scheduler.Tick
import ContainerScanner.Scheduler.Backoff
import ContainerScanner.Scheduler.Pass
import ContainerScanner.Lifecycle.Machine
import ContainerScanner.Lifecycle.Invariant
import ContainerScanner.Lifecycle.Housekeeping
import ContainerScanner.Lifecycle.Ledger
import ContainerScanner.Lifecycle.Columns
import ContainerScanner.Lifecycle.Simulation
import ContainerScanner.Lifecycle.Pacing
import ContainerScanner.Concurrency.Transactions
import ContainerScanner.Concurrency.RollupRace
import ContainerScanner.Concurrency.Deadlock
import ContainerScanner.Concurrency.Claims
import ContainerScanner.Concurrency.BestFirst
import ContainerScanner.Concurrency.Requests
import ContainerScanner.Api.Endpoints
import ContainerScanner.Api.Freshness
import ContainerScanner.Api.Snapshot
import ContainerScanner.Api.Stats
import ContainerScanner.Api.Pages
import ContainerScanner.Api.Failures
import ContainerScanner.Foundation.ContextVar
import ContainerScanner.Foundation.Scopes
import ContainerScanner.Obs.Logging
import ContainerScanner.Scanner.Correlation
import ContainerScanner.Scanner.Loop
import ContainerScanner.Catalogue.Runs
