import MiniS3.Lib.Transition
import MiniS3.Lib.Table
import MiniS3.Lib.Program
import MiniS3.Lib.Interleaving
import MiniS3.Lib.RowLocks
import MiniS3.Util.Bytes
import MiniS3.Util.Status
import MiniS3.Util.Utf8
import MiniS3.Util.Json
import MiniS3.Db.Schema
import MiniS3.Db.Sql
import MiniS3.Db.Session
import MiniS3.Db.MetaStore
import MiniS3.Db.RefCount
import MiniS3.Db.Concurrent
import MiniS3.Net.HttpRequest
import MiniS3.Net.HttpResponse
import MiniS3.Net.HttpParser
import MiniS3.Net.HttpConnection
import MiniS3.Net.Link
import MiniS3.Net.Framing
import MiniS3.Util.Numeric
import MiniS3.Db.Calls
import MiniS3.Db.Collation
import MiniS3.Storage.CasLayout
import MiniS3.Storage.World
import MiniS3.Storage.DataStore
import MiniS3.Storage.Gc
import MiniS3.Api.ObjectHandlers
import MiniS3.Api.MultipartHandlers
import MiniS3.Db.CallEffects
import MiniS3.Db.Accounting
import MiniS3.Api.HandlerOps
import MiniS3.Api.RefCounts
import MiniS3.Db.Atomicity
import MiniS3.Db.KeyPrefix
import MiniS3.Net.ByteBuffer
import MiniS3.Net.Chunking
import MiniS3.Net.BodyStream
import MiniS3.Api.BucketHandlers
import MiniS3.Db.BucketDeletion
import MiniS3.Api.BucketDeletion
import MiniS3.Storage.BlobWrites
import MiniS3.Api.Idempotency
import MiniS3.Lib.Pattern
import MiniS3.Net.HttpRouter
import MiniS3.Api.Middleware
import MiniS3.Server.Server
import MiniS3.Server.Dispatch
import MiniS3.Server.Routes
import MiniS3.Server.AccessControl
import MiniS3.Net.RequestTarget
import MiniS3.Server.PresignedUrls
import MiniS3.Net.Wire
import MiniS3.Db.MySQLPool
import MiniS3.Db.Listing
import MiniS3.Net.TimerWheel
import MiniS3.Net.IdleTimer
import MiniS3.Net.Closing
import MiniS3.Net.Responses
import MiniS3.Db.BucketCache
import MiniS3.Api.PartialFailures
import MiniS3.Lib.Path
import MiniS3.Storage.CasPaths
import MiniS3.Db.CasKeys
import MiniS3.Server.KeyFlow
import MiniS3.Server.CasKeys
import MiniS3.Server.HandlerLogic
import MiniS3.Net.FileSending
import MiniS3.Api.RangeRequests
import MiniS3.Net.HeadGrammar
import MiniS3.Net.HeadParsing
import MiniS3.Net.HeadLimits
import MiniS3.Storage.FileCalls
import MiniS3.Storage.Commit
import MiniS3.Storage.Merging
import MiniS3.Storage.GcBatch
import MiniS3.Storage.Reading
import MiniS3.Storage.Slices
import MiniS3.Storage.Successes
import MiniS3.Api.PartLists
import MiniS3.Api.Completion
import MiniS3.Api.AssembledUploads
import MiniS3.Api.Garbage
import MiniS3.Storage.GcDrain
import MiniS3.Api.Collected
import MiniS3.Db.Surplus
import MiniS3.Service.Services
import MiniS3.Service.Effects
import MiniS3.Service.RefCounts
import MiniS3.Db.PrefixListing
import MiniS3.Lib.Countdown
import MiniS3.Net.Timers
import MiniS3.Net.TimerTable
import MiniS3.Lib.Reader
import MiniS3.Util.Resp
import MiniS3.Util.RedisReplies
import MiniS3.Util.RedisCache
import MiniS3.Util.RedisSocket
import MiniS3.Util.RedisHits
import MiniS3.Lib.Calendar
import MiniS3.Db.ExpiryTimes
import MiniS3.Service.Completions
import MiniS3.Service.Agreement
import MiniS3.Net.EventLoop
import MiniS3.Net.RouteRegex
import MiniS3.Server.Routing
import MiniS3.Lib.Overwrite
import MiniS3.Net.VectorBuffer
import MiniS3.Lib.Scanner
import MiniS3.Db.SqlText
import MiniS3.Db.StatementTexts
import MiniS3.Lib.Refinement
import MiniS3.Service.ObjectMap
import MiniS3.Service.ObjectRefinement
import MiniS3.Lib.Protocol
import MiniS3.Storage.StorePool
import MiniS3.Lib.Variant
import MiniS3.Storage.GcLoop
import MiniS3.Net.Lifetimes
import MiniS3.Net.ResponseStream
