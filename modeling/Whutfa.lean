import Whutfa.Transition
import Whutfa.BigEndian
import Whutfa.Deframer
import Whutfa.Lines
import Whutfa.FdTable
import Whutfa.CondVar
import Whutfa.JsString
import Whutfa.Decimal
import Whutfa.Json
import Whutfa.JsValue
import Whutfa.UrlEncoded
import Whutfa.CText
import Whutfa.CDecimal
import Whutfa.PosixPath
import Whutfa.YamlValue
import Whutfa.NalUnits
import Whutfa.AvcConfig
import Whutfa.IpcFraming
import Whutfa.IpcPackets
import Whutfa.StreamBuffer
import Whutfa.MediaSockets
import Whutfa.AudioMessages
import Whutfa.UnixSocket
import Whutfa.IpcSocket
import Whutfa.DescriptorTable
import Whutfa.PeerClose
import Whutfa.WakeUps
import Whutfa.BridgeReads
import Whutfa.ControlEvents
import Whutfa.Status
import Whutfa.SessionLifecycle
import Whutfa.Keepalive
import Whutfa.KeepaliveSilence
import Whutfa.KeepaliveStop
import Whutfa.PingerPromises
import Whutfa.SessionHandlers
import Whutfa.SessionChannels
import Whutfa.BridgeClient
import Whutfa.BridgeSync
import Whutfa.TouchPath
import Whutfa.TouchPixels
import Whutfa.InputLines
import Whutfa.TouchLines
import Whutfa.TouchConnections
import Whutfa.ConfigFile
import Whutfa.H264
import Whutfa.AnnexB
import Whutfa.AudioWorklet
import Whutfa.AudioTiming
import Whutfa.VideoPlayer
import Whutfa.VideoMessage
import Whutfa.VideoPipeline
import Whutfa.StaticFiles
import Whutfa.Config
import Whutfa.ConfigDefaults
import Whutfa.HttpServer
import Whutfa.SharedConfig
import Whutfa.BridgeConnections
import Whutfa.WebSockets
import Whutfa.WebSocketPages
import Whutfa.VideoDelivery
import Whutfa.Evictions
import Whutfa.BridgeReconnect
import Whutfa.StopReturns
import Whutfa.InputMessages
import Whutfa.AppliedEvents
import Whutfa.EventLoss
import Whutfa.ReportedStatus
import Whutfa.SessionEvents
import Whutfa.RunnerHubs
import Whutfa.SessionAnswers
import Whutfa.StubFeeder
import Whutfa.PageRequests
import Whutfa.RequestErrors
import Whutfa.DecoderLife
import Whutfa.AnnouncedFormats
import Whutfa.AudioDelivery
import Whutfa.StubHandler
import Whutfa.StatusPage
