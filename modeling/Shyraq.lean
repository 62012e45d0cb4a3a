import Shyraq.Transactions.Program
import Shyraq.Transactions.Rely
import Shyraq.Transactions.Table
import Shyraq.Billing.Entities
import Shyraq.Billing.Store
import Shyraq.Billing.Repositories
import Shyraq.Billing.PaymentService
import Shyraq.Billing.InvoiceService
import Shyraq.Billing.RefundService
import Shyraq.Billing.DiscountEngine
import Shyraq.Billing.InvoiceGeneration
import Shyraq.Billing.Requests
import Shyraq.Billing.Discipline
import Shyraq.Billing.Effects
import Shyraq.Billing.Settling
import Shyraq.Billing.Deliveries
import Shyraq.Billing.Coverage
import Shyraq.Billing.ExactlyOnce
import Shyraq.Billing.Initiation
import Shyraq.Billing.Receipts
import Shyraq.Billing.Refunding
import Shyraq.Billing.Outcomes
import Shyraq.Billing.LatePayments
import Shyraq.Billing.Sums
import Shyraq.Billing.Conservation
import Shyraq.Billing.RefundLimits
import Shyraq.Billing.Unwinding
import Shyraq.Billing.DiscountMonotone
import Shyraq.Billing.RefundAmounts
import Shyraq.Kernel.Windows
import Shyraq.Tariffs.Entities
import Shyraq.Tariffs.Services
import Shyraq.Tariffs.PlanWindows
import Shyraq.Tariffs.AssignmentWindows
import Shyraq.Guardians.Entities
import Shyraq.Guardians.Services
import Shyraq.Guardians.Rules
import Shyraq.Guardians.TerminalStates
import Shyraq.Guardians.ApprovalRights
import Shyraq.Children.Entities
import Shyraq.Children.Services
import Shyraq.Children.StatusHistory
import Shyraq.Billing.Creations
import Shyraq.Billing.MonthLocks
import Shyraq.Billing.Superseding
import Shyraq.Billing.SettledMonths
import Shyraq.Billing.CoveredMonths
import Shyraq.Billing.Quoting
import Shyraq.Billing.Reserving
import Shyraq.Billing.Retrying
import Shyraq.Billing.Prepaying
import Shyraq.Billing.QuoteBounds
import Shyraq.Billing.PreviewAgrees
import Shyraq.Attendance.Entities
import Shyraq.Attendance.Services
import Shyraq.Attendance.Rules
import Shyraq.Attendance.Effects
import Shyraq.Attendance.Timeline
import Shyraq.Attendance.DailyStatus
import Shyraq.Attendance.Deletion
import Shyraq.Auth.Apps
import Shyraq.Auth.Rotation
import Shyraq.Auth.RefreshTokens
import Shyraq.Auth.Linearity
import Shyraq.Enrollments.Entities
import Shyraq.Enrollments.Services
import Shyraq.Enrollments.OneChild
import Shyraq.Transactions.Resource
import Shyraq.Kernel.KeySpace
import Shyraq.Pickup.Entities
import Shyraq.Pickup.Services
import Shyraq.Pickup.Attempts
import Shyraq.Pickup.Outcomes
import Shyraq.Pickup.LifeCycle
import Shyraq.Pickup.TrustedPeople
import Shyraq.Attendance.Auditing
import Shyraq.Transactions.Serial
import Shyraq.Transactions.Trail
import Shyraq.Attendance.AuditTrail
import Shyraq.Kernel.Calendar
import Shyraq.Schedule.Entities
import Shyraq.Schedule.Services
import Shyraq.ParentRequests.Entities
import Shyraq.ParentRequests.Services
import Shyraq.Schedule.LifeCycle
import Shyraq.ParentRequests.Resolution
import Shyraq.ParentRequests.Delegation
import Shyraq.Content.Entities
import Shyraq.Content.Services
import Shyraq.Content.Publication
import Shyraq.Notifications.Adapter
import Shyraq.Notifications.Dispatcher
import Shyraq.Notifications.Recipients
import Shyraq.Notifications.Poller
import Shyraq.Notifications.Delivery
import Shyraq.Staff.Entities
import Shyraq.Staff.Services
import Shyraq.Staff.MentorSlots
import Shyraq.Staff.RosterPaging
import Shyraq.Merchants.Disconnecting
import Shyraq.Merchants.BccAccount
import Shyraq.Merchants.BccLedger
import Shyraq.Billing.KaspiRequests
import Shyraq.Diagnostics.Schemas
import Shyraq.Diagnostics.Services
import Shyraq.Diagnostics.ValidEntries
import Shyraq.Billing.Landing
import Shyraq.Billing.PrepaymentRequests
import Shyraq.Transactions.Flows
import Shyraq.Billing.Reconciliation
import Shyraq.Billing.Reconciling
import Shyraq.Billing.ReconciliationRuns
import Shyraq.Billing.ReconciliationLeases
import Shyraq.Diagnostics.Satisfiability
import Shyraq.Content.Birthdays
import Shyraq.Meals.Entities
import Shyraq.Meals.Services
import Shyraq.Meals.WeekCopy
import Shyraq.Cameras.Entities
import Shyraq.Cameras.Services
import Shyraq.Cameras.CodecProbes
import Shyraq.Cameras.StreamAccess
import Shyraq.Cameras.RevocationWindow
import Shyraq.Media.Interceptor
import Shyraq.Media.TenantKeys
import Shyraq.Discounts.Conditions
import Shyraq.Discounts.Entities
import Shyraq.Discounts.Services
import Shyraq.Discounts.Catalogue
import Shyraq.Websocket.Gateway
import Shyraq.Websocket.JtiIndex
import Shyraq.Checkouts.Store
import Shyraq.Checkouts.OneTime
import Shyraq.Polling.Ticks
import Shyraq.Polling.Chain
import Shyraq.Kernel.Base64
import Shyraq.Kernel.DateText
import Shyraq.Kernel.Paging
import Shyraq.Attendance.TimelinePaging
import Shyraq.Kernel.JsonText
import Shyraq.ParentRequests.Paging
import Shyraq.ParentRequests.CompletePages
import Shyraq.Kernel.DateTimeInput
import Shyraq.Kernel.ZoneArithmetic
import Shyraq.Kernel.Pouring
import Shyraq.Kernel.Ranking
import Shyraq.Billing.Stacking
import Shyraq.Billing.LedgerRounding
import Shyraq.Billing.QuoteWindow
import Shyraq.Billing.Announcing
import Shyraq.Billing.PaidEvents
import Shyraq.Billing.Duplicates
import Shyraq.Billing.DoublePayments
import Shyraq.Billing.RefundableDays
import Shyraq.Billing.FirstMonth
import Shyraq.Billing.FullReceipts
import Shyraq.Kernel.Frames
import Shyraq.Kernel.Utf8
import Shyraq.Kernel.QueryString
import Shyraq.Kernel.Paths
import Shyraq.Cameras.PlaylistRewriter
import Shyraq.Cameras.AllowedFiles
import Shyraq.Merchants.BccProtocol
import Shyraq.Merchants.MacSources
import Shyraq.Billing.AgeTargeting
import Shyraq.Discounts.Evaluation
import Shyraq.Media.LocalStorage
import Shyraq.Media.RoundTrip
import Shyraq.Billing.KaspiAmounts
import Shyraq.Kernel.Newest
import Shyraq.Content.ChildFeed
import Shyraq.Discounts.ValidityWindow
import Shyraq.Billing.Shares
import Shyraq.Diagnostics.DeepEquality
import Shyraq.Checkouts.ClientIp
import Shyraq.Diagnostics.EditsInTurn
import Shyraq.Billing.LifeCycles
import Shyraq.Schedule.History
import Shyraq.Media.Containment
