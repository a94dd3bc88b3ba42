import ShipFlow.Auth.TokenFamilies
import ShipFlow.Auth.SecondFactor
import ShipFlow.Auth.TwoFactorSessions
import ShipFlow.Organizations.Ownership
import ShipFlow.Files.Store
import ShipFlow.Files.Validation
import ShipFlow.Files.FilesService
import ShipFlow.Files.FileMaintenance
import ShipFlow.Files.Effects
import ShipFlow.Files.Requests
import ShipFlow.Files.MalwareGate
import ShipFlow.Billing.Provider
import ShipFlow.Billing.Store
import ShipFlow.Billing.Entitlement
import ShipFlow.Billing.BillingService
import ShipFlow.Billing.WebhookService
import ShipFlow.Billing.Transactions
import ShipFlow.Billing.Operations
import ShipFlow.Billing.Trial
import ShipFlow.Billing.Grace
import ShipFlow.Billing.Effects
import ShipFlow.Billing.Requests
import ShipFlow.Billing.Ordering
import ShipFlow.Billing.Checkout
import ShipFlow.Billing.Convergence
import ShipFlow.Files.Purge
import ShipFlow.Organizations.Invitations
import ShipFlow.Interleaving.Isolation
import ShipFlow.Organizations.Operations
import ShipFlow.Files.Operations
import ShipFlow.Organizations.Provenance
import ShipFlow.Files.Quota
import ShipFlow.Interleaving.Coupling
import ShipFlow.Relational.Tenancy
import ShipFlow.Organizations.Tenancy
import ShipFlow.Files.Tenancy
import ShipFlow.TenantIsolation
import ShipFlow.Auth.TwoFactorSetup
import ShipFlow.Auth.SingleUseTokens
import ShipFlow.Auth.PasswordReset
import ShipFlow.Auth.Logout
import ShipFlow.Email.ResendWebhookService
import ShipFlow.Email.EventOrder
import ShipFlow.Email.TransactionalEmailService
import ShipFlow.Email.Effects
import ShipFlow.Email.LostEvents
import ShipFlow.Files.Healthy
import ShipFlow.Files.Recovery
import ShipFlow.Encoding.Framing
import ShipFlow.Malware.ClamAvMalwareScanner
import ShipFlow.Malware.ScanVerdict
import ShipFlow.Encoding.Text
import ShipFlow.Files.LocalFileStorageProvider
import ShipFlow.Audit.AuditService
import ShipFlow.Audit.Redaction
import ShipFlow.Organizations.Creation
import ShipFlow.Machine.Run
import ShipFlow.Web.ApiClient
import ShipFlow.Web.TokenRefresh
import ShipFlow.Email.SendAttempts
import ShipFlow.Files.ObjectKeys
import ShipFlow.Interleaving.Performed
import ShipFlow.Files.Orphans
import ShipFlow.Files.Integrity
import ShipFlow.Organizations.OpenInvitations
import ShipFlow.Files.Declarations
import ShipFlow.Web.FileUploader
import ShipFlow.Web.AuthSession
import ShipFlow.Url.Parser
import ShipFlow.Url.DotSegments
import ShipFlow.Url.Serializer
import ShipFlow.Script.ScalarValues
import ShipFlow.Web.ReturnPath
import ShipFlow.Logging.LogRedaction
import ShipFlow.Logging.JsonLogger
import ShipFlow.Auth.BackupCodes
import ShipFlow.Interleaving.Acting
import ShipFlow.Auth.IssuedCodes
import ShipFlow.Auth.CodeLifetime
import ShipFlow.Auth.HandedOutCodes
import ShipFlow.Relational.Keyset
import ShipFlow.Encoding.Base64Url
import ShipFlow.Script.Utf8
import ShipFlow.Script.Json
import ShipFlow.Notifications.IsoDates
import ShipFlow.Notifications.NotificationsService
import ShipFlow.Notifications.Cursors
import ShipFlow.Notifications.History
import ShipFlow.Notifications.CursorWalk
import ShipFlow.Notifications.Unread
import ShipFlow.Auth.OAuthIdentity
