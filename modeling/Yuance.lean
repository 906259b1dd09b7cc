import Yuance.FileCrypto.Format
import Yuance.FileCrypto.Server
import Yuance.FileCrypto.Cli
import Yuance.FileCrypto.Desktop
import Yuance.FileCrypto.Browser
import Yuance.FileCrypto.Interop
import Yuance.FileCrypto.Ranges
import Yuance.FileCrypto.Whole
import Yuance.FileCrypto.Decoders
import Yuance.FileCrypto.Untrusted
import Yuance.FileCrypto.Sizes
import Yuance.Lib.Runs
import Yuance.Network.Coordinator
import Yuance.Network.Superseded
import Yuance.Lib.Text
import Yuance.Platform.Crypto
import Yuance.Auth.CredentialStore
import Yuance.Lib.Table
import Yuance.Auth.CredentialAtomicity
import Yuance.Auth.PendingAuthorization
import Yuance.Auth.PendingAtomicity
import Yuance.Lib.Calls
import Yuance.Files.Validation
import Yuance.Files.Folders
import Yuance.Files.Forest
import Yuance.Files.DeletionJobs
import Yuance.Files.Leases
import Yuance.Rbac.RolePermissions
import Yuance.Releases.Model
import Yuance.Releases.Evidence
import Yuance.Releases.Frozen
import Yuance.Releases.Retention
import Yuance.Lib.Scan
import Yuance.Resources.Html
import Yuance.Projects.Validation
import Yuance.Projects.Tables
import Yuance.Projects.Listing
import Yuance.Projects.ItemLists
import Yuance.Projects.Statements
import Yuance.Projects.Operations
import Yuance.Projects.History
import Yuance.Projects.Supported
import Yuance.Projects.Ownership
import Yuance.Projects.Undisturbed
import Yuance.Projects.Assignees
import Yuance.Projects.CommentBody
import Yuance.Projects.FlowRecords
import Yuance.Projects.Drafts
import Yuance.Projects.DraftsEnd
import Yuance.Lib.Phases
import Yuance.Projects.TimeAllocations
import Yuance.Projects.TimeLog
import Yuance.Projects.TimeRestore
import Yuance.Projects.TimeInverse
import Yuance.Tokens.Model
import Yuance.Tokens.Limits
import Yuance.Platform.MasterKey
import Yuance.Projects.Completion
import Yuance.Projects.Analysis
import Yuance.Projects.Completions
import Yuance.Storage.Configs
import Yuance.Web.Access
import Yuance.Web.Csrf
import Yuance.FileCrypto.UploadStream
import Yuance.Files.Download
import Yuance.Web.PreviewRanges
import Yuance.Web.PreviewContent
import Yuance.Lib.JsonText
import Yuance.Web.LogMetadata
import Yuance.Web.UploadedPreviews
import Yuance.Auth.EndedLogins
import Yuance.Devices.EndedTokens
import Yuance.Auth.RefreshRotation
import Yuance.Auth.BrowserRows
import Yuance.Auth.BrowserSessions
import Yuance.Devices.Rotations
import Yuance.Devices.Authorizations
import Yuance.Devices.Chains
import Yuance.Devices.Generations
import Yuance.Devices.IssuedSessions
import Yuance.Devices.SessionCalls
import Yuance.Lib.Rows
import Yuance.Web.DashboardFigures
import Yuance.Web.Dashboard
import Yuance.Lib.Groups
import Yuance.Web.RouteReading
import Yuance.Web.Routes
import Yuance.Lib.UrlTexts
import Yuance.Lib.Numbers
import Yuance.Devices.RecoveryAad
import Yuance.Lib.Framing
import Yuance.Web.PreviewFetch
import Yuance.Storage.Cors
import Yuance.Lib.Xml
import Yuance.Lib.Search
import Yuance.Network.SseClient
import Yuance.Lib.Streams
import Yuance.Network.RestTransport
import Yuance.Network.ResponseContract
import Yuance.Schedule.History
import Yuance.Schedule.Drag
import Yuance.Schedule.Dates
import Yuance.Schedule.Lanes
import Yuance.Schedule.Items
import Yuance.Lib.JsDate
import Yuance.Lib.Intervals
import Yuance.Realtime.EventCoordinators
import Yuance.Realtime.Refreshes
import Yuance.Realtime.Typing
import Yuance.Lib.HashMap
import Yuance.Lib.Urls
import Yuance.Web.PreviewUrls
import Yuance.Files.DownloadNames
import Yuance.Web.Expiry
import Yuance.Projects.Cycles
import Yuance.Web.TokenScopes
import Yuance.Lib.Calendar
import Yuance.Devices.PollGate
import Yuance.Devices.PollAdvice
import Yuance.Files.Svg
import Yuance.Platform.DataKey
import Yuance.Files.Attachments
import Yuance.Web.AttachmentPreview
import Yuance.Web.AttachmentUploads
import Yuance.Lib.Loops
import Yuance.Projects.Memberships
import Yuance.Web.UserProjects
import Yuance.Projects.OperationRecords
import Yuance.Files.Confirmation
import Yuance.Lib.JsMap
import Yuance.Files.CapabilityVault
import Yuance.Resources.DataUrls
import Yuance.Resources.Sections
import Yuance.Resources.Store
import Yuance.Resources.Passwords
import Yuance.Lib.Transactions
import Yuance.Devices.Sessions
import Yuance.Devices.FailedSessions
