import NewApi.SubscriptionRequests
import NewApi.TaskBillingRuns
import NewApi.StrandedTransfers
import NewApi.LegacyTasks
import NewApi.TaskRefunds
import NewApi.UsageCounters
import NewApi.GroupRestoration
import NewApi.ManualCompletion
import NewApi.MidjourneyCharges
import NewApi.SessionRevocation
import NewApi.UserCache
import NewApi.RedirectSecrets
import NewApi.TwoFactor
import NewApi.PurchaseLimit
import NewApi.GeminiCalls
import NewApi.ClaudeFraming
import NewApi.ClaudeBlocks
import NewApi.InlineFiles
import NewApi.CreationOnce
import NewApi.RemixPricing
import NewApi.IdempotentReplay
import NewApi.HeifDimensions
import NewApi.SubscriptionReset
import NewApi.ClaudeBilling
import NewApi.ClaudeToolCalls
import NewApi.StreamProgress
import NewApi.TieredTokens
import NewApi.ExpressionCache
import NewApi.WeightedPick
import NewApi.ThinkToContent
import NewApi.ReferralShares
import NewApi.AudioQuota
import NewApi.RecordCache
import NewApi.GroupSettlement
import NewApi.GeminiRequest
import NewApi.TokenBucket
import NewApi.ClaudeAnswer
import NewApi.ModelMapping
import NewApi.CapabilitySync
import NewApi.PruneObjects
import NewApi.AffinityKeys
import NewApi.SundaySearch
import NewApi.DiskCache
