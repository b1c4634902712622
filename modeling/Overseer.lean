import Overseer.Config.Service
import Overseer.Main
import Overseer.Proofs.Pool.Wakeup
import Overseer.Proofs.Pool.Capacity
import Overseer.Proofs.Pool.Units
import Overseer.Proofs.Pool.Closed
import Overseer.Proofs.Pool.Limit
import Overseer.Proofs.Pool.Eviction
import Overseer.Proofs.Pool.Twins
import Overseer.Proofs.Pool.Fleet
import Overseer.Proofs.Pool.Release
import Overseer.Proofs.Pool.Sentry
import Overseer.Proofs.Pool.Room
import Overseer.Proofs.Pool.Turnover
import Overseer.Proofs.Supervision.Ownership
import Overseer.Proofs.Supervision.Destruction
import Overseer.Proofs.Supervision.Deadlock
import Overseer.Proofs.Supervision.Aborted
import Overseer.Proofs.Supervision.Started
import Overseer.Proofs.Supervision.Order
import Overseer.Proofs.Supervision.Arrivals
import Overseer.Proofs.Supervision.Priorities
import Overseer.Proofs.Supervision.Ranking
import Overseer.Proofs.Supervision.Isolation
import Overseer.Proofs.Site.Reported
import Overseer.Proofs.Process.Stalled
import Overseer.Proofs.Pipeline.Sequence
import Overseer.Proofs.Pipeline.Parallel
import Overseer.Proofs.Pipeline.Heartbeat
import Overseer.Proofs.Config.Precedence
import Overseer.Proofs.Config.Layering
