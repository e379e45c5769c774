import PgWalk.Replicator.Confirm
import PgWalk.Redis.RowOrder
import PgWalk.Tracker.Stranding
import PgWalk.Listener.Toast
import PgWalk.Snapshot.Confluence
import PgWalk.Snapshot.ErrorChannel
import PgWalk.Snapshot.Plan
import PgWalk.Tracker.ReleaseSafety
import PgWalk.ParallelIO.Batching
import PgWalk.Redis.BuildFrame
import PgWalk.Redis.OneReading
import PgWalk.Redis.SchemaValidation
import PgWalk.Redis.ThreeValued
import PgWalk.Sqs.FlushBatch
import PgWalk.Replicator.Throttle
import PgWalk.Sqs.DeduplicationID
import PgWalk.Snapshot.Delivery
import PgWalk.Snapshot.WorkerRows
import PgWalk.Tracker.ReadyFifo
import PgWalk.Config.Connection
import PgWalk.License.Verify
import PgWalk.Tracker.QueueOps
import PgWalk.Wal.PublicationDrift
import PgWalk.Wal.TuplePool
