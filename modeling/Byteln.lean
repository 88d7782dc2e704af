import Byteln.Library.ThreadPool
import Byteln.Server.Joining
import Byteln.Server.Calls
import Byteln.Server.Registration
import Byteln.Server.Contention
import Byteln.Server.Limiter
import Byteln.Server.Relay
import Byteln.Server.RelaySteps
import Byteln.Server.Seats
import Byteln.Server.Forwarding
import Byteln.Server.Quota
import Byteln.Server.Occupancy
import Byteln.Server.ReclaimWindow
import Byteln.Client.Resend
import Byteln.Client.Delivery
import Byteln.Client.Mirror
import Byteln.Client.RoomRecords
import Byteln.Client.Superseded
import Byteln.Client.SingleFlow
import Byteln.Client.Settling
import Byteln.Server.Readers
import Byteln.Client.Pacer
import Byteln.Server.ClientIP
import Byteln.Library.Utf8
import Byteln.Server.Pow
import Byteln.Client.Pow
import Byteln.Client.FileName
import Byteln.Client.Backoff
import Byteln.Client.PendingOutgoing
import Byteln.Client.IncomingSteps
import Byteln.Client.Corruption
import Byteln.Client.Heartbeat
import Byteln.Client.Ids
import Byteln.Server.OfflineBuffer
import Byteln.Client.Chunks
import Byteln.Client.Bundles
import Byteln.Server.Throughput
import Byteln.Client.Takes
import Byteln.Server.Lifetime
import Byteln.Library.Json
import Byteln.Library.Decimal
import Byteln.Client.Plaintext
import Byteln.Client.PlaintextRoundTrip
import Byteln.Client.Parts
import Byteln.Client.Intake
import Byteln.Library.MovingAverage
import Byteln.Server.Shape
import Byteln.Server.SeatStates
import Byteln.Library.CodePoints
import Byteln.Library.Btoa
import Byteln.Client.Base64Url
import Byteln.Client.HistoryDigest
import Byteln.Library.UrlParams
import Byteln.Client.RoomLink
import Byteln.Client.PastedLinks
import Byteln.Client.Handoff
import Byteln.Library.Buffering
import Byteln.Server.Replay
import Byteln.Server.Allowlist
import Byteln.Server.OriginKeys
import Byteln.Client.WireMessages
import Byteln.Client.Backup
import Byteln.Server.Handover
import Byteln.Server.Presence
import Byteln.Server.Teardown
import Byteln.Server.FrameOrder
import Byteln.Library.Deadlock
import Byteln.Server.Locks
import Byteln.Client.Cancelling
import Byteln.Server.FrameReading
import Byteln.Library.Records
import Byteln.Server.FrameWriting
import Byteln.Server.Wire
import Byteln.Library.Aead
import Byteln.Client.HandoffFrames
import Byteln.Client.HandoffExchange
import Byteln.Server.Isolation
import Byteln.Server.Conservation
import Byteln.Library.Unescape
import Byteln.Server.FrontDoor
import Byteln.Library.UrlTarget
import Byteln.Server.Upgrade
import Byteln.Client.JoinUrl
