import ArkToolchain.RoundTrip
import ArkToolchain.OriginFilter
import ArkToolchain.Segmentation
import ArkToolchain.Outgoing
import ArkToolchain.StaticStepping
import ArkToolchain.DynamicStepInto
import ArkToolchain.HybridStepping
import ArkToolchain.BreakpointHits
import ArkToolchain.PauseReasons
import ArkToolchain.InspectorDeadlock
import ArkToolchain.ThreadTable
import ArkToolchain.NativeCalls
import ArkToolchain.CommandDelivery
import ArkToolchain.PausedState
import ArkToolchain.LineLocations
import ArkToolchain.ObjectRepository
import ArkToolchain.Base64Codecs
import ArkToolchain.CpuProfile
import ArkToolchain.PausedEvents
import ArkToolchain.PendingBreakpoints
import ArkToolchain.HitBreakpoints
import ArkToolchain.HeapSnapshots
import ArkToolchain.SyncRequests
import ArkToolchain.ConnectionEvents
import ArkToolchain.TargetAnnouncements
import ArkToolchain.HybridRouting
import ArkToolchain.DisconnectEvents
import ArkToolchain.WsServerShutdown
import ArkToolchain.ConnectServer
import ArkToolchain.DecodeResult
import ArkToolchain.ScriptIds
import ArkToolchain.SessionTable
import ArkToolchain.PtJsonMaps
import ArkToolchain.RequestMemory
import ArkToolchain.ClientSessions
import ArkToolchain.PrintRanges
import ArkToolchain.PropertyPages
import ArkToolchain.SourceListing
import ArkToolchain.ConnectInspector
import ArkToolchain.TcpServer
