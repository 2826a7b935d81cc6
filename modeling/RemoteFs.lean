import RemoteFs.Basic.Disk
import RemoteFs.Basic.ErrorContext
import RemoteFs.Basic.Text
import RemoteFs.Cas.BatchLoop
import RemoteFs.Cas.BatchMessage
import RemoteFs.Cas.BatchSpec
import RemoteFs.Cas.BatchUpdate
import RemoteFs.Cas.BlobStore
import RemoteFs.Cas.ByteStreamWrite
import RemoteFs.Cas.Config
import RemoteFs.Cas.Download
import RemoteFs.Cas.DownloadRetry
import RemoteFs.Cas.DownloadSpec
import RemoteFs.Cas.Error
import RemoteFs.Cas.FileWrite
import RemoteFs.Cas.IdleTimeout
import RemoteFs.Cas.MessageSize
import RemoteFs.Cas.ResourceName
import RemoteFs.Cas.RetryLoop
import RemoteFs.Cas.WriteStream
import RemoteFs.Cas.WriteVerdict
import RemoteFs.Daemon.Control
import RemoteFs.Daemon.Shutdown
import RemoteFs.Digest.Basic
import RemoteFs.Digest.Language
import RemoteFs.Digest.Text
import RemoteFs.Fuse.Attributes
import RemoteFs.Fuse.ErrnoContract
import RemoteFs.Fuse.Filesystem
import RemoteFs.Fuse.Readdir
import RemoteFs.Fuse.Requests
import RemoteFs.Home.Cache
import RemoteFs.Home.Client
import RemoteFs.Home.Commands
import RemoteFs.Home.Contents
import RemoteFs.Home.Exclusive
import RemoteFs.Home.History
import RemoteFs.Home.Inspect
import RemoteFs.Home.Outcomes
import RemoteFs.Home.Ownership
import RemoteFs.Home.Process
import RemoteFs.Home.Recovery
import RemoteFs.Home.Sessions
import RemoteFs.Home.Steps
import RemoteFs.Library.Client
import RemoteFs.Library.Keyed
import RemoteFs.Library.Lock
import RemoteFs.Library.Packing
import RemoteFs.Library.Paging
import RemoteFs.Library.Pool
import RemoteFs.Library.Protobuf
import RemoteFs.Library.Result
import RemoteFs.Library.Retry
import RemoteFs.Library.SortBy
import RemoteFs.Library.Transition
import RemoteFs.Reapi
import RemoteFs.Reapi.WireFormat
import RemoteFs.Session.Cache
import RemoteFs.Session.CacheErrors
import RemoteFs.Session.CacheIntegrity
import RemoteFs.Session.CacheProgress
import RemoteFs.Session.CacheReports
import RemoteFs.Session.CacheSteps
import RemoteFs.Session.Closed
import RemoteFs.Session.DirectoryMetadata
import RemoteFs.Session.Error
import RemoteFs.Session.Facade
import RemoteFs.Session.FacadeSpec
import RemoteFs.Session.FillRetry
import RemoteFs.Session.Frozen
import RemoteFs.Session.Identity
import RemoteFs.Session.Inode
import RemoteFs.Session.IoCounters
import RemoteFs.Session.Materialize
import RemoteFs.Session.Mount
import RemoteFs.Session.Mountable
import RemoteFs.Session.Namespace
import RemoteFs.Session.Overlay
import RemoteFs.Session.PendingBlob
import RemoteFs.Session.RangeRead
import RemoteFs.Session.Refinement
import RemoteFs.Session.Retained
import RemoteFs.Session.Serving
import RemoteFs.Session.Settled
import RemoteFs.Session.SingleFlight
import RemoteFs.Session.Snapshot
import RemoteFs.Session.Stable
import RemoteFs.Session.Store
import RemoteFs.Session.StoreRuns
import RemoteFs.Session.StoreSpec
import RemoteFs.Session.System
import RemoteFs.Session.SystemSteps
import RemoteFs.Session.UploadMount
import RemoteFs.Session.Uploaded
import RemoteFs.Session.Validate
import RemoteFs.Tree.Builder
import RemoteFs.Tree.Canonical
import RemoteFs.Tree.Decode
import RemoteFs.Tree.InsertionOrder
import RemoteFs.Tree.Language
import RemoteFs.Tree.Metadata
import RemoteFs.Tree.RoundTrip
import RemoteFs.Upload.Encode
import RemoteFs.Upload.EncodeSpec
import RemoteFs.Upload.EscapingSymlinks
import RemoteFs.Upload.HashLoop
import RemoteFs.Upload.HashSpec
import RemoteFs.Upload.LocalTree
import RemoteFs.Upload.Merkle
import RemoteFs.Upload.Missing
import RemoteFs.Upload.ObjectCounts
import RemoteFs.Upload.Pipeline
import RemoteFs.Upload.Scan
import RemoteFs.Upload.ScanOutcome
import RemoteFs.Upload.ScanSpec
import RemoteFs.Upload.Warnings
