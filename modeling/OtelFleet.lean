import OtelFleet.Verified.Accounts
import OtelFleet.Verified.AgentConfig
import OtelFleet.Verified.AlertTerms
import OtelFleet.Verified.AlertTransitions
import OtelFleet.Verified.AuditPaging
import OtelFleet.Verified.BillExactness
import OtelFleet.Verified.ConfigStrings
import OtelFleet.Verified.ConfigSync
import OtelFleet.Verified.Connections
import OtelFleet.Verified.DeletedCustomers
import OtelFleet.Verified.DeliveryOrder
import OtelFleet.Verified.Distribution
import OtelFleet.Verified.Enrollment
import OtelFleet.Verified.EventQueue
import OtelFleet.Verified.ExporterLabels
import OtelFleet.Verified.FlowCache
import OtelFleet.Verified.GroupRequests
import OtelFleet.Verified.KeyAcceptance
import OtelFleet.Verified.KeyCacheRecency
import OtelFleet.Verified.LastAdmin
import OtelFleet.Verified.LoginPage
import OtelFleet.Verified.LoginRoles
import OtelFleet.Verified.LoginStates
import OtelFleet.Verified.PipelineScope
import OtelFleet.Verified.QuotaIsolation
import OtelFleet.Verified.RegionalReads
import OtelFleet.Verified.RenderOrder
import OtelFleet.Verified.RetryHint
import OtelFleet.Verified.SavedKeys
import OtelFleet.Verified.ScopedViews
import OtelFleet.Verified.SingleRunner
import OtelFleet.Verified.Slugs
import OtelFleet.Verified.TenantReads
import OtelFleet.Verified.TenantStamp
import OtelFleet.Verified.TokenFormats
import OtelFleet.Verified.UserDeletion
import OtelFleet.Verified.UserPaging
import OtelFleet.Verified.WebhookScope
