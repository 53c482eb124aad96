import Vts.Coverage.LinesRecord
import Vts.Coverage.Sancov
import Vts.Coverage.Projects
import Vts.Coverage.GcdaUnknown
import Vts.Coverage.ErrorContract
import Vts.Ar.RoundTrip
import Vts.Ar.Termination
import Vts.Elf.VtableAliases
import Vts.Elf.VtableAddends
import Vts.Runner.AppendixRule
import Vts.Runner.FilterObjects
import Vts.Runner.TestGate
import Vts.Runner.Generated
import Vts.Runner.WebReport
import Vts.Trace.TextTrace
import Vts.Trace.ApiCoverage
import Vts.Trace.Cleanup
import Vts.Trace.Greedy
import Vts.Trace.Compare
import Vts.Trace.TestCover
import Vts.Trace.MergeOrder
import Vts.Vtsc.Equality
import Vts.Vtsc.Fmq
import Vts.Vtsc.CallbackArgs
import Vts.Vtsc.Conforming
import Vts.Vtsc.HostRoundTrip
import Vts.Harness.JsonBalance
import Vts.Harness.ResultLog
import Vts.Host.TcpClient
import Vts.Resource.Ids
import Vts.Resource.HandleData
import Vts.Resource.Rejection
import Vts.Hal.Connection
import Vts.Hal.ServiceInstances
import Vts.Comm.Framing
import Vts.Corpus.Release
import Vts.Corpus.Fetch
import Vts.Callback.WakeUp
import Vts.Agent.CallerUid
import Vts.Host.CallbackServer
import Vts.Runner.GtestListing
import Vts.Runner.CpuFrequency
import Vts.Callback.Deadline
import Vts.Shell.Driver
import Vts.RawCoverage.Decoding
import Vts.Trace.Replayer
import Vts.Hal.Traversal
import Vts.Resource.LibraryName
import Vts.Trace.HostProfiling
import Vts.Runner.LogUrls
import Vts.Harness.FilePusher
import Vts.Harness.EventNames
import Vts.Elf.PackedFields
import Vts.Coverage.Worklist
import Vts.Runner.Bitness
import Vts.Hal.Testability
import Vts.Trace.ProfilingUpload
