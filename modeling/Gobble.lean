import Gobble.Cli.CurrentIndex
import Gobble.Cli.MalformedMessages
import Gobble.Cli.RangeGrammar
import Gobble.Cli.RangeRequests
import Gobble.Cli.WholeTransaction
import Gobble.Detector.SysvarOffsets
import Gobble.ProgramRuntime.CpiChannel
import Gobble.ProgramRuntime.CpiRegions
import Gobble.ProgramRuntime.Duplicates
import Gobble.ProgramRuntime.InputOwners
import Gobble.ProgramRuntime.RoundTrip
import Gobble.ProgramRuntime.Unwinding
import Gobble.Sbpf.CallFrames
import Gobble.Sbpf.MappingAgreement
import Gobble.Sbpf.RecordedReads
import Gobble.Svm.MessageProcessor
import Gobble.Syscalls.NonInterference
