import Seaplane.Lib.Prog
import Seaplane.Lib.RelyGuarantee
import Seaplane.Lib.Json
import Seaplane.Lib.Sql
import Seaplane.Lib.Mvcc
import Seaplane.Lib.Strconv
import Seaplane.Db.Row
import Seaplane.Db.Store
import Seaplane.Db.Refine
import Seaplane.Db.History
import Seaplane.Db.ResourceVersion
import Seaplane.Db.Watch
import Seaplane.Db.Relay
import Seaplane.Db.Client
import Seaplane.Db.Calls
import Seaplane.Db.Tombstone
import Seaplane.Db.Ambiguous
import Seaplane.Kube.Object
import Seaplane.Kube.Store
import Seaplane.Api.Authz
import Seaplane.Dynamo.Tables
import Seaplane.Infra.Secrets
import Seaplane.Fleet.System
import Seaplane.Api.Client
import Seaplane.Api.Handlers
import Seaplane.Api.Authorized
import Seaplane.Operator.Desires
import Seaplane.Operator.Render
import Seaplane.Api.Create
import Seaplane.Api.Queues
import Seaplane.Operator.NodePool
import Seaplane.Operator.Cluster
import Seaplane.Operator.OidcConfig
import Seaplane.Operator.DNSReservation
import Seaplane.Fleet.Conduct
import Seaplane.Fleet.Callers
import Seaplane.Fleet.Protocol
import Seaplane.Fleet.Footprint
import Seaplane.Operator.Conduct
import Seaplane.Operator.Freshness
import Seaplane.Fleet.Resources
import Seaplane.Fleet.ResourceRequests
import Seaplane.Fleet.ResourceReconciles
import Seaplane.Fleet.BaseDomains
import Seaplane.Fleet.Issuers
import Seaplane.Fleet.Lifecycle
import Seaplane.Fleet.LifecycleRequests
import Seaplane.Fleet.LifecycleClusters
import Seaplane.Fleet.Claims
import Seaplane.Db.Conduct
import Seaplane.Db.Marks
import Seaplane.Db.Paths
import Seaplane.Db.Shards
import Seaplane.Authz.Arn
import Seaplane.Authz.Store
import Seaplane.Authz.Index
import Seaplane.Authz.Authorizer
import Seaplane.Authz.Isolation
import Seaplane.Lib.GoJson
import Seaplane.Operator.Manifest
import Seaplane.Operator.ManifestDesires
import Seaplane.Api.RateLimit
import Seaplane.Db.Convert
import Seaplane.Lib.Where
import Seaplane.Db.Selectors
import Seaplane.Db.Pages
import Seaplane.Operator.Rendered
import Seaplane.Api.Networks
import Seaplane.Db.Scheduling
import Seaplane.Api.Preserve
import Seaplane.Api.RateSafety
import Seaplane.Operator.Silence
import Seaplane.Api.LabelPatches
import Seaplane.Operator.Documents
import Seaplane.Codegen.Variants
import Seaplane.Api.MergeSpec
import Seaplane.Lib.GoUrl
import Seaplane.Api.IssuerUrl
import Seaplane.Db.Canary
import Seaplane.Fleet.Operations
