import OsintCore.Table.Fold
import OsintCore.Merge.Theorems.RoundTrip
import OsintCore.Merge.Theorems.NaturalKey
import OsintCore.Merge.Theorems.Classify
import OsintCore.Control.Fold
import OsintCore.Control.Graph
import OsintCore.Merge.Theorems.Concurrent
import OsintCore.Merge.Theorems.Dangling
import OsintCore.Storage.Theorems.Put
import OsintCore.Storage.Theorems.Listing
import OsintCore.Merge.Theorems.UndoOrder
import OsintCore.Control.Resumption
import OsintCore.Extraction.Names
import OsintCore.Extraction.Theorems.Counts
import OsintCore.Pipeline.EvidenceCount
import OsintCore.Control.Interleaving
import OsintCore.Dedup.Service
import OsintCore.Dedup.Theorems.Backward
import OsintCore.Dedup.Theorems.Concurrent
import OsintCore.Dedup.Theorems.Star
import OsintCore.Fetch.Fetcher
import OsintCore.Fetch.Theorems.Guard
import OsintCore.Fetch.Theorems.Host
import OsintCore.Fetch.Theorems.Pinning
import OsintCore.Fetch.Theorems.Policy
import OsintCore.Api.Pagination
import OsintCore.Api.Theorems.Pagination
import OsintCore.Codec.Fields
import OsintCore.Codec.Record
import OsintCore.Control.RelyGuarantee
import OsintCore.Normalizer.Service
import OsintCore.Normalizer.Theorems.Concurrent
import OsintCore.Projection.GraphStore
import OsintCore.Projection.Neo4j
import OsintCore.Projection.Theorems.Convergence
import OsintCore.Projection.Theorems.Neo4j
import OsintCore.Query.Dsl
import OsintCore.Query.Parser
import OsintCore.Query.Theorems.Nesting
import OsintCore.Stix.Codec
import OsintCore.Stix.Mapping
import OsintCore.Stix.Theorems.Codec
import OsintCore.Stix.Theorems.Mapping
import OsintCore.Stix.Theorems.Import
import OsintCore.Stix.Theorems.Validate
import OsintCore.AiGateway.Quota
import OsintCore.AiGateway.Theorems.Quota
import OsintCore.AiGateway.Theorems.Pressure
import OsintCore.Merge.Theorems.Frame
import OsintCore.Connector.RunState
import OsintCore.Connector.Theorems.RunState
import OsintCore.Indexer.Consumer
import OsintCore.Indexer.Theorems.Convergence
import OsintCore.Resources.Theorems.Create
import OsintCore.Collector.Theorems.Attribution
import OsintCore.Fetch.Theorems.Allowlist
import OsintCore.Fetch.Theorems.NetworkRule
import OsintCore.Auth.Theorems.Oracle
import OsintCore.Collector.Theorems.Sink
import OsintCore.Jobs.Theorems.Recovery
import OsintCore.Jobs.Theorems.Retry
import OsintCore.RateLimit.Theorems.Limiter
import OsintCore.Resources.Theorems.Timeline
import OsintCore.Collector.Theorems.Bounds
import OsintCore.Collector.Theorems.Dispatch
import OsintCore.Collector.Theorems.Backoff
import OsintCore.Url.Theorems.Slices
import OsintCore.Url.Theorems.Idempotent
import OsintCore.Search.Theorems.Hybrid
import OsintCore.Extraction.Theorems.UrlTail
import OsintCore.Indexer.Theorems.Checkpoint
import OsintCore.Dedup.Theorems.Simhash
import OsintCore.AiGateway.Theorems.Provider
import OsintCore.Projection.Theorems.Traversal
import OsintCore.Discovery.Theorems.Bounds
import OsintCore.Discovery.Theorems.Rerun
