import PtzAgx.EthLink.NetconProtocol
import PtzAgx.EthLink.PtzPackage
import PtzAgx.EthLink.ServerRegistry
import PtzAgx.EthLink.TcpClients
import PtzAgx.EthLink.TcpServer
import PtzAgx.App.RadarBuffer
import PtzAgx.App.TargetStore
import PtzAgx.App.PtzHandlers
import PtzAgx.Alink.Upload
import PtzAgx.Alink.Burst
import PtzAgx.Alink.Commands
import PtzAgx.Alink.Progress
import PtzAgx.Alink.Resync
import PtzAgx.Alink.Answer
import PtzAgx.Alink.Register
import PtzAgx.Alink.History
import PtzAgx.Alink.Attitude
import PtzAgx.Algs.Guide
import PtzAgx.Algs.Items
import PtzAgx.Algs.AlgTask
import PtzAgx.EthLink.TcpClientTask
import PtzAgx.EthLink.ClientRegistry
import PtzAgx.App.TargetBalance
import PtzAgx.Alink.TargetUpload
import PtzAgx.Algs.Selection
import PtzAgx.Algs.Camera
import PtzAgx.Algs.AlgRun
import PtzAgx.EthLink.Discovery
import PtzAgx.EthLink.OwnBytes
import PtzAgx.EthLink.ConnectRequest
import PtzAgx.EthLink.PtzCorruption
import PtzAgx.EthLink.PtzControl
import PtzAgx.App.RadarBounds
import PtzAgx.Algs.TrackerGuidance
import PtzAgx.Algs.GuidancePipeline
import PtzAgx.Algs.TracerGuide
import PtzAgx.Algs.Letterbox
