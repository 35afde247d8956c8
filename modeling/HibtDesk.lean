import HibtDesk.Clipboard.FilePermission
import HibtDesk.Clipboard.FuseReads
import HibtDesk.Clipboard.HandleSets
import HibtDesk.Clipboard.ListTold
import HibtDesk.Clipboard.ListedLinks
import HibtDesk.Clipboard.NoEcho
import HibtDesk.Clipboard.RequestSafety
import HibtDesk.Common.Credentials
import HibtDesk.Common.CustomServer
import HibtDesk.Common.OptionPush
import HibtDesk.Common.PeerPath
import HibtDesk.Common.TrustedDevices
import HibtDesk.Common.VersionOrder
import HibtDesk.Connection.BruteForce
import HibtDesk.Connection.DisplaySubscriptions
import HibtDesk.Connection.Identity
import HibtDesk.Connection.Kind
import HibtDesk.Connection.LegacyKeys
import HibtDesk.Connection.PressedModifiers
import HibtDesk.Connection.Registries
import HibtDesk.Connection.RemoveLog
import HibtDesk.Connection.Tunnel
import HibtDesk.Connection.TwoFactor
import HibtDesk.Connection.VoiceCall
import HibtDesk.Display.CurrentDisplays
import HibtDesk.Display.Resolutions
import HibtDesk.Employee.RecordingDrive
import HibtDesk.Employee.Retention
import HibtDesk.FileTransfer.Agreement
import HibtDesk.FileTransfer.Confirmations
import HibtDesk.FileTransfer.Removal
import HibtDesk.FileTransfer.Resumption
import HibtDesk.Http.DownloadRuns
import HibtDesk.Http.RecordUpload
import HibtDesk.Network.AddrMangle
import HibtDesk.Network.HandshakeRuns
import HibtDesk.Network.HostPort
import HibtDesk.Network.Transparency
import HibtDesk.Network.WebSocket
import HibtDesk.Portable.FrameSlot
import HibtDesk.Portable.Setup
import HibtDesk.Privacy.Leaving
import HibtDesk.Rendezvous.Patience
import HibtDesk.Rendezvous.RestartLoop
import HibtDesk.Service.MouseCursor
import HibtDesk.Service.Snapshot
import HibtDesk.Session.AudioBuffer
import HibtDesk.Session.ClientVoiceCall
import HibtDesk.Session.ConnectionRounds
import HibtDesk.Session.GrabRuns
import HibtDesk.Session.OptionToggles
import HibtDesk.Session.RememberedPassword
import HibtDesk.Session.SessionRegistry
import HibtDesk.Terminal.HelperInput
import HibtDesk.Terminal.Liveness
import HibtDesk.Terminal.OutputLines
import HibtDesk.Terminal.Reuse
import HibtDesk.Video.CodecOrder
import HibtDesk.Video.DecodeOrder
import HibtDesk.Video.FramePacing
import HibtDesk.Video.FrameRates
import HibtDesk.Video.RecordState
import HibtDesk.Video.Recorder
import HibtDesk.Video.Screenshots
