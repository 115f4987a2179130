import DexCache.Json.Parser
import DexCache.Pipeline.Script
import DexCache.Proofs.Checkpoints
import DexCache.Proofs.Decimal.Exact
import DexCache.Proofs.Entity.ReadBack
import DexCache.Proofs.Interception.Accesses
import DexCache.Proofs.Interception.Closing
import DexCache.Proofs.Interception.Degrading
import DexCache.Proofs.Interception.Freshness
import DexCache.Proofs.Interception.Missing
import DexCache.Proofs.Interception.Outgoing
import DexCache.Proofs.Interception.ResponseKeys
import DexCache.Proofs.Interception.Stepwise
import DexCache.Proofs.Interception.Surviving
import DexCache.Proofs.Interception.Unchecked
import DexCache.Proofs.Interception.Union
import DexCache.Proofs.Interception.Unmirrored
import DexCache.Proofs.Listing.ReadThrough
import DexCache.Proofs.Listing.Responses
import DexCache.Proofs.Listing.Shapes
import DexCache.Proofs.Listing.Thresholds
import DexCache.Proofs.Paging.Naming
import DexCache.Proofs.Paging.Slices
import DexCache.Proofs.Pipeline.Hooks
import DexCache.Proofs.Pipeline.Recorded
import DexCache.Proofs.Projection.Repeated
import DexCache.Proofs.Query.Layouts
import DexCache.Proofs.Query.Overflow
import DexCache.Proofs.Store.Determined
import DexCache.Proofs.Store.Freshness
import DexCache.Proofs.Store.Lifecycle
import DexCache.Proofs.Sync.Applying
import DexCache.Proofs.Sync.Arrival
import DexCache.Proofs.Sync.Concurrent
import DexCache.Proofs.Sync.Partition
import DexCache.Proofs.Sync.Recovery
import DexCache.Proofs.Sync.Scheduling
import DexCache.Proofs.Sync.Tracking
import DexCache.Service
import DexCache.Settings.Load
import DexCache.Source.Table
