import PkgManager.Transition.System
import PkgManager.Transition.ThreadPool
import PkgManager.Bytes.WriteLog
import PkgManager.Live.Session
import PkgManager.Live.Cache
import PkgManager.Live.Store
import PkgManager.Live.Read
import PkgManager.Live.Threads
import PkgManager.Live.Integrity
import PkgManager.Multipart.Header
import PkgManager.Multipart.Stream
import PkgManager.Multipart.Identity
import PkgManager.Bytes.Endian
import PkgManager.WebSocket.Frame
import PkgManager.WebSocket.Codec
import PkgManager.WebSocket.Messages
import PkgManager.Bytes.Buffered
import PkgManager.WebSocket.Connection
import PkgManager.Multipart.Callbacks
import PkgManager.Multipart.Slots
import PkgManager.Multipart.Content
import PkgManager.Multipart.Sequential
import PkgManager.Multipart.Layout
import PkgManager.Multipart.Split
import PkgManager.Multipart.RoundTrip
import PkgManager.Live.Provenance
import PkgManager.Live.StreamIdentity
import PkgManager.Live.StreamRuns
import PkgManager.Upload.Session
import PkgManager.Upload.Ownership
import PkgManager.Upload.Runs
import PkgManager.StreamServer.Isolation
import PkgManager.AppInfo
import PkgManager.Installer.Canceled
import PkgManager.Bytes.CString
import PkgManager.Bytes.Channel
import PkgManager.Helper.Frames
import PkgManager.Helper.Pairing
import PkgManager.StreamServer.Framing
import PkgManager.StreamServer.KeepAlive
import PkgManager.Bytes.Callback
import PkgManager.Bytes.Folds
import PkgManager.Parser.Detail
import PkgManager.Parser.Evidence
import PkgManager.Parser.Kind
import PkgManager.Parser.File
import PkgManager.Parser.MemoryAgreement
import PkgManager.Bytes.Table
import PkgManager.Scanner.Catalog
import PkgManager.Scanner.Neighbours
import PkgManager.Bytes.Regions
import PkgManager.Scanner.Agreement
import PkgManager.Bytes.Ring
import PkgManager.Leftovers.Agreement
import PkgManager.Installer.QueueTickets
import PkgManager.Leftovers.Report
import PkgManager.Smb.Bodies
import PkgManager.Smb.BrowseCovers
import PkgManager.Smb.Parse
import PkgManager.Smb.ParseAgreement
import PkgManager.Smb.Pipeline
import PkgManager.Smb.PipelineEnds
import PkgManager.Smb.UrlsLead
import PkgManager.Http.Credentials
import PkgManager.Http.IndexAgreement
import PkgManager.Live.Finish
import PkgManager.Live.Delivered
import PkgManager.StreamServer.Sleepers
import PkgManager.Versions
import PkgManager.Live.AllOrNothing
import PkgManager.Cache.RoundTrip
import PkgManager.Secrets.Passwords
import PkgManager.Multipart.Verified
import PkgManager.StreamServer.Splitting
import PkgManager.Http.CatalogState
import PkgManager.Leftovers.Removal
import PkgManager.Http.BodyWhole
import PkgManager.StreamServer.Ranges
import PkgManager.Http.ListingStays
import PkgManager.Http.RequestHead
import PkgManager.Http.SourceSettings
import PkgManager.Collections.Comparing
import PkgManager.Scanner.CatalogOrder
import PkgManager.Smb.EndOfFile
import PkgManager.Http.RequestFields
import PkgManager.Smb.CleanTwice
import PkgManager.Secrets.SettingsReturn
import PkgManager.Smb.RestBodies
import PkgManager.Installer.StatusText
import PkgManager.Http.Dates
import PkgManager.Smb.Signing
import PkgManager.WebSocket.Handshake
import PkgManager.Secrets.SettingsRestart
import PkgManager.Installer.LocalInstall
import PkgManager.Installer.FailedBase
import PkgManager.Http.ConnectionAccounts
import PkgManager.InstallLog.Files
import PkgManager.Icons.Blurhash
import PkgManager.DirectUpload.Delivery
import PkgManager.Scanner.Titles
