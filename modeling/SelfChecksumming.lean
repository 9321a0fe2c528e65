import SelfChecksumming.Outcome
import SelfChecksumming.Library.Loop
import SelfChecksumming.Library.SortedMap
import SelfChecksumming.Library.DepthFirst
import SelfChecksumming.Library.LittleEndian
import SelfChecksumming.Library.Window
import SelfChecksumming.Library.Checksum
import SelfChecksumming.Library.Weaving
import SelfChecksumming.Module
import SelfChecksumming.Network.Construct
import SelfChecksumming.Network.ConstructSoundness
import SelfChecksumming.Network.Sort
import SelfChecksumming.Network.Json
import SelfChecksumming.Network.JsonRoundtrip
import SelfChecksumming.Pass.Guard
import SelfChecksumming.Pass.Stats
import SelfChecksumming.Pass.Run
import SelfChecksumming.Pass.Injection
import SelfChecksumming.Pass.Selection
import SelfChecksumming.Pass.RunSoundness
import SelfChecksumming.Pass.Loaded
import SelfChecksumming.Patcher.Python
import SelfChecksumming.Patcher.DumpPipe
import SelfChecksumming.Patcher.Guide
import SelfChecksumming.Patcher.Search
import SelfChecksumming.Patcher.Patching
import SelfChecksumming.Patcher.Effect
import SelfChecksumming.Runtime.GuardMe
import SelfChecksumming.EndToEnd
import SelfChecksumming.Library.Counting
import SelfChecksumming.Patcher.Report
import SelfChecksumming.Tamper
import SelfChecksumming.Patcher.Failure
import SelfChecksumming.Patcher.Manifest
import SelfChecksumming.Pass.Instrument
import SelfChecksumming.IRPatch.PatchManifest
import SelfChecksumming.IRPatch.SCPatch
import SelfChecksumming.IRPatch.Agreement
import SelfChecksumming.Filter.FunctionFilter
import SelfChecksumming.Library.Matching
import SelfChecksumming.Patcher.GuideNames
import SelfChecksumming.Filter.Completeness
import SelfChecksumming.Filter.Listing
import SelfChecksumming.Network.Connectivity
import SelfChecksumming.Network.Layout
import SelfChecksumming.Pass.EntryBlock
import SelfChecksumming.Pass.Restored
import SelfChecksumming.Pass.Execution
import SelfChecksumming.Pass.GuardCalls
import SelfChecksumming.Pass.Meaning
import SelfChecksumming.Pass.Prologue
import SelfChecksumming.Pass.Reports
import SelfChecksumming.Pass.Coverage
import SelfChecksumming.Pass.LoadedSoundness
import SelfChecksumming.Network.AcyclicGraph
import SelfChecksumming.Network.NodeNetwork
import SelfChecksumming.Network.NodeNetworkJson
import SelfChecksumming.Hook.Replay
import SelfChecksumming.Hook.Threads
import SelfChecksumming.PatchedProgram
import SelfChecksumming.Protected
import SelfChecksumming.Sealed
import SelfChecksumming.StaleGuide
import SelfChecksumming.Linked
import SelfChecksumming.Filter.AssertMark
import SelfChecksumming.FalseAlarm
import SelfChecksumming.Coordinated
