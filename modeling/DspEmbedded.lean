import DspEmbedded.Lib.CString
import DspEmbedded.Lib.Fifo
import DspEmbedded.Lib.Runs
import DspEmbedded.Lib.SlotTable
import DspEmbedded.Lib.Crc
import DspEmbedded.Lib.BitGroups
import DspEmbedded.Lib.Search
import DspEmbedded.Lib.JsonText
import DspEmbedded.Lib.JsonSearch
import DspEmbedded.Lib.Members
import DspEmbedded.Lib.Der
import DspEmbedded.Lib.Memory
import DspEmbedded.Lib.CutKeys
import DspEmbedded.Lib.Critical
import DspEmbedded.Lib.Calls
import DspEmbedded.CJson.RoundTrip
import DspEmbedded.CJson.Extend
import DspEmbedded.CJson.Grammar
import DspEmbedded.CJson.Conforming
import DspEmbedded.Model.Esp
import DspEmbedded.Model.Jsonld
import DspEmbedded.Model.Msg
import DspEmbedded.Model.Build
import DspEmbedded.Model.Catalog
import DspEmbedded.Model.Neg
import DspEmbedded.Model.NegHttp
import DspEmbedded.Model.XferHttp
import DspEmbedded.Model.Board
import DspEmbedded.Model.Http
import DspEmbedded.Model.Shared
import DspEmbedded.Model.SharedSteps
import DspEmbedded.Model.Wifi
import DspEmbedded.Model.Credentials
import DspEmbedded.Model.Protocol
import DspEmbedded.Model.Power
import DspEmbedded.Model.Jwt
import DspEmbedded.Model.Dht20
import DspEmbedded.Model.Application
import DspEmbedded.Model.JwtMemory
import DspEmbedded.Model.SensorTask
import DspEmbedded.Model.Counterpart
import DspEmbedded.Model.Server
import DspEmbedded.Model.ProtocolTask
import DspEmbedded.Audit.UniquePid
import DspEmbedded.Audit.TransferGate
import DspEmbedded.Audit.SleepWake
import DspEmbedded.Audit.Agree
import DspEmbedded.Audit.Paths
import DspEmbedded.Audit.Addressing
import DspEmbedded.Audit.Requests
import DspEmbedded.Audit.Discipline
import DspEmbedded.Audit.Delivery
import DspEmbedded.Audit.Footprint
import DspEmbedded.Audit.TableHistory
import DspEmbedded.Audit.RingBuffer
import DspEmbedded.Audit.WifiRetry
import DspEmbedded.Audit.RetryTimer
import DspEmbedded.Audit.ReadBack
import DspEmbedded.Audit.Observe
import DspEmbedded.Audit.Routes
import DspEmbedded.Audit.Progress
import DspEmbedded.Audit.SleepRace
import DspEmbedded.Audit.BurstErrors
import DspEmbedded.Audit.Notify
import DspEmbedded.Audit.Registration
import DspEmbedded.Audit.Restart
import DspEmbedded.Audit.Base64url
import DspEmbedded.Audit.ExpNumber
import DspEmbedded.Audit.TokenFormat
import DspEmbedded.Audit.HeaderAlg
import DspEmbedded.Audit.Expiry
import DspEmbedded.Audit.TokenAccepted
import DspEmbedded.Audit.RestoreResult
import DspEmbedded.Audit.Builders
import DspEmbedded.Audit.Schema
import DspEmbedded.Audit.ResponseFit
import DspEmbedded.Audit.Replace
import DspEmbedded.Audit.SensorFrame
import DspEmbedded.Audit.Measurements
import DspEmbedded.Audit.SignatureDer
import DspEmbedded.Audit.TokenMemory
import DspEmbedded.Audit.WholeText
import DspEmbedded.Audit.ImageIds
import DspEmbedded.Audit.CreateFind
import DspEmbedded.Audit.Exchange
import DspEmbedded.Audit.Isolation
import DspEmbedded.Audit.Quiescence
import DspEmbedded.Audit.Interleaving
import DspEmbedded.Audit.TwoParties
import DspEmbedded.Audit.ServedRoutes
import DspEmbedded.Audit.WholeNode
import DspEmbedded.Audit.TokenVerdict
import DspEmbedded.Audit.SensorLife
import DspEmbedded.Audit.Credentials
import DspEmbedded.Audit.Lifecycle
