import IssuesApi.Lib.Text
import IssuesApi.Lib.Double
import IssuesApi.Lib.Number
import IssuesApi.Lib.Codec
import IssuesApi.Lib.Json
import IssuesApi.Lib.JsonLiterals
import IssuesApi.Lib.JsonRoundTrip
import IssuesApi.Lib.JsonBytes
import IssuesApi.Lib.JsonReadable
import IssuesApi.Lib.FloatRepr
import IssuesApi.Lib.Url
import IssuesApi.Lib.DateTime
import IssuesApi.Lib.Instant
import IssuesApi.Lib.Timestamp
import IssuesApi.Lib.OrderedDict
import IssuesApi.Lib.Recency
import IssuesApi.Lib.OrderBy
import IssuesApi.Lib.Outcome
import IssuesApi.Lib.Transition
import IssuesApi.Lib.Simulation
import IssuesApi.Lib.Linearizable
import IssuesApi.Lib.FirstWins
import IssuesApi.Lib.Paging
import IssuesApi.Lib.JsonSchema
import IssuesApi.Lib.EntityTag
import IssuesApi.Runtime
import IssuesApi.Config
import IssuesApi.Errors
import IssuesApi.App
import IssuesApi.Schemas
import IssuesApi.Core
import IssuesApi.Validation
import IssuesApi.Contract
import IssuesApi.Pagination
import IssuesApi.LinkEntries
import IssuesApi.RelParams
import IssuesApi.LinkPieces
import IssuesApi.WrittenLinks
import IssuesApi.LinkHeader
import IssuesApi.ParamLinks
import IssuesApi.Cache
import IssuesApi.GitHubClient
import IssuesApi.Routers.Issues
import IssuesApi.Webhooks
import IssuesApi.Store
import IssuesApi.EventStore
import IssuesApi.Routers.Webhooks
import IssuesApi.Raises
import IssuesApi.Responses
import IssuesApi.Reference
import IssuesApi.Upstream.Repository
import IssuesApi.Upstream.Listing
import IssuesApi.Upstream.Coherence
import IssuesApi.Upstream.Links
import IssuesApi.Client
import IssuesApi.Scripts.ReplayWebhook
import IssuesApi.Upstream.Comments
import IssuesApi.Upstream.IssuePages
import IssuesApi.Properties.PullRequests
import IssuesApi.Properties.CacheTransparency
import IssuesApi.Properties.AtomicTracker
import IssuesApi.Properties.Idempotency
import IssuesApi.Properties.Deliveries
import IssuesApi.Properties.StoredPayload
import IssuesApi.Properties.DeliveryLog
import IssuesApi.Properties.Signature
import IssuesApi.Properties.StatusTable
import IssuesApi.Properties.IssuesWalk
import IssuesApi.Properties.CommentsWalk
import IssuesApi.Properties.Durability
import IssuesApi.Properties.NewestFirst
import IssuesApi.Properties.EventLog
import IssuesApi.Properties.Correlation
import IssuesApi.Properties.RequestContract
import IssuesApi.Properties.ResponseContract
import IssuesApi.Properties.LinkTotality
import IssuesApi.Properties.LinkRewriting
import IssuesApi.Properties.LinkParameters
import IssuesApi.Properties.LeastRecentlyUsed
import IssuesApi.Properties.CacheEffect
import IssuesApi.Properties.BrokenListing
import IssuesApi.Properties.NotModified
import IssuesApi.Properties.RetryAfter
import IssuesApi.Properties.Normalisation
import IssuesApi.Properties.UnreadFields
import IssuesApi.Properties.LinkComposition
import IssuesApi.Properties.Replay
import IssuesApi.Properties.GrowingComments
