import KaflTargets.Lib.Prog
import KaflTargets.Lib.CString
import KaflTargets.Lib.Memory
import KaflTargets.Lib.Scanf
import KaflTargets.Lib.Monitor
import KaflTargets.Lib.Overwrite
import KaflTargets.Lib.LocalArray
import KaflTargets.Lib.Text
import KaflTargets.NyxApi
import KaflTargets.World
import KaflTargets.Libnyx
import KaflTargets.Vmcall
import KaflTargets.Handshake
import KaflTargets.ForkServer
import KaflTargets.HostLog
import KaflTargets.Download
import KaflTargets.Upload
import KaflTargets.Guarded
import KaflTargets.Invocation
import KaflTargets.CpuGate
import KaflTargets.DetectRanges
import KaflTargets.ForkProtocol
import KaflTargets.FsFuzzer
import KaflTargets.Uefi
import KaflTargets.Zephyr
import KaflTargets.Frames
import KaflTargets.HandshakeGate
import KaflTargets.IterationIsolation
import KaflTargets.DxeReadiness
import KaflTargets.RangeCommand
import KaflTargets.UploadSequence
import KaflTargets.FailedDownload
import KaflTargets.RegionIds
import KaflTargets.HcatStatus
import KaflTargets.DispatchBounds
import KaflTargets.LibraryCalls
import KaflTargets.LiveBuffers
import KaflTargets.Resources
import KaflTargets.PayloadFile
import KaflTargets.DropVA
import KaflTargets.Gdiplus
import KaflTargets.SelfFuzz
import KaflTargets.VulnTest
import KaflTargets.TestDecompress
import KaflTargets.ZephyrTarget
import KaflTargets.MacVuln
import KaflTargets.MacInfo
import KaflTargets.KextTable
import KaflTargets.Lib.Follows
import KaflTargets.VulnDriver
import KaflTargets.WindowsAgents
import KaflTargets.MacFuzzer
import KaflTargets.Session
import KaflTargets.Campaign
import KaflTargets.Lib.Filters
import KaflTargets.Lib.HexText
import KaflTargets.SymbolLookup
import KaflTargets.Lib.Turns
import KaflTargets.MacLoader
import KaflTargets.Lib.Total
import KaflTargets.Transfer
import KaflTargets.TransferSession
