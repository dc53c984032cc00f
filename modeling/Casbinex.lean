import Casbinex.Sql.Database
import Casbinex.Program.Prog
import Casbinex.Program.Threads
import Casbinex.Adapter.Mirror
import Casbinex.Adapter.Revocation
import Casbinex.Adapter.OneRelation
import Casbinex.Adapter.Save
import Casbinex.Adapter.Concurrent
import Casbinex.Adapter.Pool
import Casbinex.Adapter.Atomic
import Casbinex.Adapter.Loading
import Casbinex.Adapter.ConcurrentMigration
import Casbinex.Adapter.Filter
import Casbinex.Adapter.FilterIndex
import Casbinex.Adapter.Inverse
import Casbinex.Adapter.Texts
import Casbinex.Adapter.Enforcers
import Casbinex.Adapter.Monitor
import Casbinex.Adapter.Liveness
import Casbinex.Adapter.Replay
import Casbinex.Adapter.Stream
import Casbinex.Adapter.Faults
import Casbinex.Adapter.Startup
import Casbinex.Adapter.Drift
import Casbinex.Adapter.Knowledge
import Casbinex.Adapter.Footprint
import Casbinex.Nif.Arguments
import Casbinex.Nif.Cache
import Casbinex.Nif.Interleaving
import Casbinex.Nif.Staleness
import Casbinex.Nif.Failure
import Casbinex.Nif.Crash
import Casbinex.Nif.Filter
import Casbinex.Nif.Ownership
import Casbinex.Nif.RoundTrip
