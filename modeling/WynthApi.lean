import WynthApi.Store.CatchUp
import WynthApi.Store.RefundOnce
import WynthApi.Store.Idempotent
import WynthApi.Polling.Exclusive
import WynthApi.Polling.Refunded
import WynthApi.Polling.Midjourney
import WynthApi.Price.GroupRatio
import WynthApi.Price.Remix
import WynthApi.Price.UsageTokens
import WynthApi.Polling.PassExact
import WynthApi.Routing.Failover
import WynthApi.Auth.Revoked
import WynthApi.Auth.Rotation
import WynthApi.Relay.ClaudeContent
import WynthApi.Relay.ChatCalls
import WynthApi.Relay.ResponsesConsistent
import WynthApi.Billing.Unwound
import WynthApi.Store.Orders
import WynthApi.Store.TopUpUnits
import WynthApi.Store.TopUpOnce
import WynthApi.Pool.Leases
import WynthApi.Pool.WorkerExclusion
import WynthApi.Tasks.SingleWriter
import WynthApi.Tasks.Reclaim
import WynthApi.Store.Batch
import WynthApi.Auth.SingleUse
import WynthApi.Store.SettingsWriters
import WynthApi.Priority.Order
import WynthApi.Stream.Progress
import WynthApi.Convert.ClaudeFromChat
import WynthApi.Routing.MultiKey
import WynthApi.Pool.LoadAware
import WynthApi.Pool.Affinity
import WynthApi.Limit.Bucket
import WynthApi.Pool.Failures
import WynthApi.Release.Version
