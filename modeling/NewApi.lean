import NewApi.Lib.Run
import NewApi.TopUp.Credit
import NewApi.TopUp.Manual
import NewApi.Lib.Pick
import NewApi.Channel.Model
import NewApi.Channel.Routing
import NewApi.Channel.Draw
import NewApi.Channel.RoutingAgree
import NewApi.Channel.CacheStatus
import NewApi.Channel.Maintain
import NewApi.Channel.Mirror
import NewApi.Stream.Claude
import NewApi.Stream.Lossless
import NewApi.Token.Limit
import NewApi.Subscription.Group
import NewApi.Subscription.PreConsume
import NewApi.Billing.Model
import NewApi.Billing.Conservation
import NewApi.Billing.Realtime
import NewApi.Billing.RealtimeCharge
import NewApi.Subscription.Charge
import NewApi.Billing.RefundRetry
import NewApi.Lib.Path
import NewApi.Lib.Sum
import NewApi.Sales.Accrual
import NewApi.Sales.Application
import NewApi.Sales.Cap
import NewApi.Sales.Clawback
import NewApi.Sales.Withdrawal
import NewApi.Stream.Blocks
import NewApi.Stream.Framing
import NewApi.Subscription.Bound
import NewApi.Subscription.Idempotence
import NewApi.Subscription.Period
import NewApi.Subscription.Progress
import NewApi.Subscription.Maintenance
import NewApi.Subscription.Order
import NewApi.Task.Account
import NewApi.Task.Billing
import NewApi.Billing.Prices
import NewApi.Billing.Wallet
import NewApi.Enterprise.Charge
import NewApi.Model.Batch
import NewApi.Model.UserRow
import NewApi.Model.Verification
import NewApi.Model.Checkin
import NewApi.Model.QuotaData
import NewApi.Render.Status
import NewApi.Token.TokenRow
import NewApi.TopUp.Hook
import NewApi.TopUp.Notify
import NewApi.TopUp.OrderLock
import NewApi.Billing.Tiered
import NewApi.Relay.Attempts
import NewApi.Relay.BodyStorage
import NewApi.Relay.Schedule
import NewApi.Relay.TieredRatio
import NewApi.Convert.Message
import NewApi.Convert.ClaudeRequest
import NewApi.Convert.GeminiRequest
import NewApi.Convert.Response
import NewApi.Convert.ChatToResponses
import NewApi.Convert.ResponsesToChat
import NewApi.Convert.OpenAIToClaude.Request
import NewApi.Convert.OpenAIToGemini.Keeps
import NewApi.Channel.HybridCache
import NewApi.Channel.Affinity
import NewApi.Lib.Redirect
import NewApi.RateLimit.InMemory
import NewApi.RateLimit.Subscription
import NewApi.Task.Statistics
import NewApi.Relay.ChannelMeta
import NewApi.Relay.ModelMapped
import NewApi.Lib.SlidingWindow
import NewApi.RateLimit.ModelRequest
import NewApi.Stream.Chat
import NewApi.Stream.Gemini
import NewApi.Stream.ClaudeToOpenAI
import NewApi.Model.UserCache
import NewApi.Stream.GeminiToOpenAI
import NewApi.Stream.ResponsesToChat
import NewApi.TopUp.Redemption
import NewApi.Enterprise.Membership
import NewApi.Enterprise.Rollover
import NewApi.Billing.ToolCalls
import NewApi.Billing.ClaudeUsage
import NewApi.TopUp.Tokens
import NewApi.Task.Ratios
import NewApi.Task.Polling
import NewApi.Task.Suno
import NewApi.Billing.Atomic
import NewApi.Channel.Shares
import NewApi.Channel.Rebuild
import NewApi.Lib.RoundRobin
import NewApi.Relay.KeyPolling
import NewApi.Channel.KeyStatus
import NewApi.Billing.TextQuota
import NewApi.Override.Paths
import NewApi.Override.Wildcards
import NewApi.Override.Prune
import NewApi.Override.Headers
import NewApi.Override.Apply
import NewApi.Billing.MaxTokens
import NewApi.Billing.ExprCache
import NewApi.Stream.Scanner
import NewApi.Stream.Thinking
import NewApi.Lib.Drawing
import NewApi.Subscription.Accounts
import NewApi.Subscription.Sticky
import NewApi.Billing.Conventions
import NewApi.RateLimit.Window
import NewApi.Relay.StatusCodes
import NewApi.Billing.TieredQuota
import NewApi.Channel.UpstreamModels
import NewApi.Billing.GeminiUsage
import NewApi.Lib.TokenBucket
import NewApi.RateLimit.TotalLimit
import NewApi.Lib.Segments
import NewApi.Override.NegativeIndex
import NewApi.Convert.GeminiSchema
import NewApi.Model.TwoFA
import NewApi.Lib.Leases
import NewApi.Subscription.Failover
import NewApi.Lib.NetIP
import NewApi.Relay.SSRF
