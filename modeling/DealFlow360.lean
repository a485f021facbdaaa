import DealFlow360.Lib.Program
import DealFlow360.Lib.Table
import DealFlow360.Lib.Top
import DealFlow360.Lifecycle
import DealFlow360.Pricing
import DealFlow360.Loyalty
import DealFlow360.Discount
import DealFlow360.Approval
import DealFlow360.ApprovalRound
import DealFlow360.Defaults
import DealFlow360.Fulfillment
import DealFlow360.GovernanceConfig
import DealFlow360.Recommendation
import DealFlow360.CustomerEmail
import DealFlow360.Store
import DealFlow360.Service
import DealFlow360.Quotes
import DealFlow360.Catalog
import DealFlow360.Operation
import DealFlow360.Frames
import DealFlow360.Changes
import DealFlow360.Outcome
import DealFlow360.QuoteStep
import DealFlow360.Footprint
import DealFlow360.LifecycleInvariant
import DealFlow360.Consumption
import DealFlow360.LockApproval
import DealFlow360.ClosedQuote
import DealFlow360.ApprovalCoverage
import DealFlow360.CommercialLock
import DealFlow360.PriceCoherence
import DealFlow360.Reservation
import DealFlow360.QuoteLines
import DealFlow360.StockLedger
import DealFlow360.ConcurrentPlanning
import DealFlow360.Sessions
import DealFlow360.Negotiations
import DealFlow360.DiscountCeiling
import DealFlow360.CancelledBilling
import DealFlow360.BilledAmounts
import DealFlow360.CustomerAcceptance
import DealFlow360.PortalView
import DealFlow360.Ownership
import DealFlow360.LiveNegotiation
import DealFlow360.QuoteNumbers
import DealFlow360.Anomalies
import DealFlow360.OpenAnomalies
import DealFlow360.Auth.RefreshTokens
import DealFlow360.Auth.TokenRotation
import DealFlow360.Auth.SessionEnd
import DealFlow360.Auth.TokenRevocation
import DealFlow360.Jobs.JobStatus
import DealFlow360.Jobs.RunnableJobs
import DealFlow360.Jobs.FileMoves
import DealFlow360.Jobs.FileViews
import DealFlow360.Jobs.FileOwners
import DealFlow360.Jobs.FinishedJobs
import DealFlow360.Jobs.AttemptLimit
import DealFlow360.Automation.Rules
import DealFlow360.Automation.Engine
import DealFlow360.Automation.EventDelivery
import DealFlow360.Automation.ExactlyOnce
import DealFlow360.Automation.ActionKeys
import DealFlow360.Automation.RuleService
import DealFlow360.Automation.Registrations
import DealFlow360.Automation.RunnableRules
import DealFlow360.Automation.HumanGate
import DealFlow360.Lib.Claims
import DealFlow360.Scheduler.Scheduler
import DealFlow360.Scheduler.SlotsOnce
import DealFlow360.Otp.OtpService
import DealFlow360.Otp.Challenges
import DealFlow360.Email.Delivery
import DealFlow360.Email.SentOnce
import DealFlow360.Notifications.NotificationService
import DealFlow360.Notifications.Retries
import DealFlow360.RateLimit.RateLimiter
import DealFlow360.RateLimit.Admission
import DealFlow360.Confirmations.ConfirmationStore
import DealFlow360.Confirmations.SingleUse
import DealFlow360.Rag.VectorStores
import DealFlow360.Rag.Scan
import DealFlow360.Rag.RagService
import DealFlow360.Rag.Owners
import DealFlow360.Search.SearchService
import DealFlow360.Search.Providers
import DealFlow360.Search.Isolation
import DealFlow360.Repositories.ListedPages
import DealFlow360.Documents.FinishedDocuments
import DealFlow360.Copilot.ConfirmedActions
import DealFlow360.Realtime.QuoteEvents
import DealFlow360.BreakSelection
import DealFlow360.PricePreview
import DealFlow360.RoleGrants
import DealFlow360.Rounding
import DealFlow360.Cancellation
import DealFlow360.DueToday
import DealFlow360.PlanTotals
import DealFlow360.PlanReserve
import DealFlow360.Replanning
import DealFlow360.RiskScore
import DealFlow360.Strictness
import DealFlow360.Realtime.CrossProcess
import DealFlow360.LineOrder
import DealFlow360.ProductSave
import DealFlow360.PrismaConfig
import DealFlow360.RepeatedDecision
import DealFlow360.Jobs.DistinctIds
import DealFlow360.Events.Occurrences
import DealFlow360.QuotePdf
import DealFlow360.Rag.LosslessChunks
import DealFlow360.Lib.Grouping
import DealFlow360.Lib.Doubles
import DealFlow360.Capabilities.VersionRanges
import DealFlow360.Dates
import DealFlow360.Analytics.QueryPages
import DealFlow360.Scheduler.CronGrammar
import DealFlow360.Notifications.Preferences
import DealFlow360.Lib.FileTree
import DealFlow360.ProjectGenerator.RefusedWrites
import DealFlow360.Storage.UploadKeys
import DealFlow360.Storage.SignedLinks
import DealFlow360.Lib.Markers
import DealFlow360.Rag.ForgedFrames
import DealFlow360.Lib.JsonSyntax
import DealFlow360.JsonText
import DealFlow360.JsonStringify
import DealFlow360.Ai.ExtractedJson
import DealFlow360.Lib.Filling
import DealFlow360.Pdf.ReportPages
import DealFlow360.Realtime.StreamDecoding
import DealFlow360.Capabilities.Cycles
import DealFlow360.Capabilities.Resolve
import DealFlow360.Capabilities.RequiredClosure
import DealFlow360.Capabilities.Selections
