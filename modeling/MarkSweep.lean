import MarkSweep.Cycle.Collect
import MarkSweep.Lock.Table
import MarkSweep.Pool.Script
import MarkSweep.Safepoint.Gathering
import MarkSweep.Proofs.Company.Call
import MarkSweep.Proofs.Company.Discipline
import MarkSweep.Proofs.Company.Mirror
import MarkSweep.Proofs.Company.Routine
import MarkSweep.Proofs.Cycle.Around
import MarkSweep.Proofs.Cycle.Calls
import MarkSweep.Proofs.Cycle.Collection
import MarkSweep.Proofs.Cycle.Concourse
import MarkSweep.Proofs.Cycle.Errands
import MarkSweep.Proofs.Cycle.Handling
import MarkSweep.Proofs.Cycle.History
import MarkSweep.Proofs.Cycle.Neutral
import MarkSweep.Proofs.Cycle.Phases
import MarkSweep.Proofs.Cycle.Quiet
import MarkSweep.Proofs.Cycle.Resemblance
import MarkSweep.Proofs.Cycle.Scan
import MarkSweep.Proofs.Cycle.Sweep
import MarkSweep.Proofs.Cycle.Toiling
import MarkSweep.Proofs.Draining
import MarkSweep.Proofs.Failure
import MarkSweep.Proofs.Freshness
import MarkSweep.Proofs.LockOrder
import MarkSweep.Proofs.Locking
import MarkSweep.Proofs.Marking.Convergence
import MarkSweep.Proofs.Marking.Frontier
import MarkSweep.Proofs.Marking.Jobs
import MarkSweep.Proofs.Mutator.Heap
import MarkSweep.Proofs.Mutator.Roots
import MarkSweep.Proofs.Mutator.Run
import MarkSweep.Proofs.Pool.Asking
import MarkSweep.Proofs.Pool.Board
import MarkSweep.Proofs.Pool.Clients
import MarkSweep.Proofs.Pool.Deeds
import MarkSweep.Proofs.Pool.Ledger
import MarkSweep.Proofs.Pool.Likeness
import MarkSweep.Proofs.Pool.Plant
import MarkSweep.Proofs.Pool.Progress
import MarkSweep.Proofs.Reachability
import MarkSweep.Proofs.Requests
import MarkSweep.Proofs.Retention
import MarkSweep.Proofs.Acceptance
import MarkSweep.Proofs.Allocations
import MarkSweep.Proofs.Cycle.Disturbed
import MarkSweep.Proofs.Disturbance
import MarkSweep.Proofs.Attrition
import MarkSweep.Proofs.Pool.Headcount
import MarkSweep.Proofs.Pool.Shifts
import MarkSweep.Proofs.Pool.Turnover
import MarkSweep.Proofs.Quorum
import MarkSweep.Proofs.Rounds
import MarkSweep.Proofs.Safepoint.Arrivals
import MarkSweep.Proofs.Safepoint.Muster
import MarkSweep.Proofs.Safepoint.Roll
import MarkSweep.Proofs.Wakeups
import MarkSweep.Proofs.Pool.Books
import MarkSweep.Proofs.Pool.Chronicle
import MarkSweep.Proofs.Pool.Estate
import MarkSweep.Proofs.Groups
import MarkSweep.Proofs.Handles
import MarkSweep.Proofs.Leftovers
import MarkSweep.Proofs.Pool.Custody
import MarkSweep.Proofs.Pool.Deals
import MarkSweep.Proofs.Pool.Diary
import MarkSweep.Proofs.Pool.Fates
import MarkSweep.Proofs.Pool.Turns
import MarkSweep.Proofs.Tracing
import MarkSweep.Proofs.Gating
import MarkSweep.Proofs.Pool.Notices
import MarkSweep.Proofs.Pool.Scenes
import MarkSweep.Proofs.Pool.Labour
import MarkSweep.Proofs.Pool.Promises
import MarkSweep.Proofs.Schedules
import MarkSweep.Proofs.Pool.Attending
import MarkSweep.Proofs.Scanning
import MarkSweep.Proofs.Sweeping
import MarkSweep.Proofs.Balance
import MarkSweep.Proofs.Accounts
import MarkSweep.Proofs.Concealment
import MarkSweep.Proofs.Exclusion
import MarkSweep.Proofs.Lock.Races
import MarkSweep.Proofs.Monitors
import MarkSweep.Proofs.Naming
import MarkSweep.Proofs.Narration
