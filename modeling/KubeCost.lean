import KubeCost.Text
import KubeCost.Hash
import KubeCost.Checks
import KubeCost.Machine
import KubeCost.Wire
import KubeCost.Ingestion.Queue
import KubeCost.Ingestion.Repository
import KubeCost.Ingestion.Batch
import KubeCost.Ingestion.Server
import KubeCost.Ingestion.Watermark
import KubeCost.Ingestion.Level
import KubeCost.Agent.Buffer
import KubeCost.Agent.Client
import KubeCost.Delivery.System
import KubeCost.Delivery.Reuse
import KubeCost.Delivery.Gap
import KubeCost.Keyed
import KubeCost.Time
import KubeCost.Allocation.Engine
import KubeCost.Allocation.Conservation
import KubeCost.Relational
import KubeCost.Replacing
import KubeCost.Inventory
import KubeCost.Allocation.Query
import KubeCost.Allocation.Rows
import KubeCost.Allocation.Agreement
import KubeCost.Allocation.Lookup
import KubeCost.Allocation.Usage
import KubeCost.Allocation.Stability
import KubeCost.Recommendations.Engine
import KubeCost.Recommendations.Facts
import KubeCost.Workflow.Repository
import KubeCost.Workflow.System
import KubeCost.Workflow.Decisions
import KubeCost.Workflow.Versions
import KubeCost.Workflow.Failure
import KubeCost.Workflow.Visibility
import KubeCost.Ingestion.Leases
import KubeCost.Ingestion.Blocking
import KubeCost.Ingestion.Tables
import KubeCost.Ingestion.Resend
import KubeCost.Path
import KubeCost.Ingestion.Checkpoint
import KubeCost.Base64
import KubeCost.Header
import KubeCost.Gateway.Auth
import KubeCost.Gateway.Server
import KubeCost.Gateway.Identity
import KubeCost.Gateway.Routing
import KubeCost.WorkQueue
import KubeCost.Agent.Builder
import KubeCost.Agent.Collector
import KubeCost.Agent.Retries
import KubeCost.Ingestion.Views
import KubeCost.Delivery.Chronology
import KubeCost.Delivery.Convergence
import KubeCost.Rfc3339
import KubeCost.Policy.Store
import KubeCost.Audit.Store
import KubeCost.Allocation.Network
import KubeCost.Ingestion.Lane
import KubeCost.Ingestion.Sequencing
import KubeCost.Delivery.Limits
import KubeCost.Analytics.Repository
import KubeCost.Analytics.Recomputation
import KubeCost.Pricing.Catalog
import KubeCost.Pricing.Retrieval
import KubeCost.Ingestion.Archive
import KubeCost.Recommendations.Results
import KubeCost.Recommendations.Merges
import KubeCost.Json
import KubeCost.Analytics.Server
import KubeCost.Analytics.Pagination
import KubeCost.Analytics.Jobs
import KubeCost.Ingestion.Persistable
import KubeCost.Ingestion.Suffix
import KubeCost.Agent.Stream
import KubeCost.Agent.Liveness
import KubeCost.Waiters
import KubeCost.Ingestion.Wakeups
import KubeCost.Agent.Wakeups
import KubeCost.Allocation.Reordering
import KubeCost.Recommendations.Savings
import KubeCost.Recommendations.Coverage
import KubeCost.Agent.Representation
import KubeCost.Slice
import KubeCost.Pricing.Unique
import KubeCost.Analytics.DataQuality
import KubeCost.Agent.Sampler
import KubeCost.Agent.Windows
import KubeCost.Integrations.Quantities
import KubeCost.Numeral
import KubeCost.Lineage.Normalizer
import KubeCost.Messages
import KubeCost.Ingestion.Replay
import KubeCost.Analytics.Rollups
import KubeCost.Ingestion.Identity
import KubeCost.Ingestion.CheckpointFiles
