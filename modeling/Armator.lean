import Armator.Lib.ExactArith
import Armator.Simulator.Instruction
import Armator.Architecture.Flags
import Armator.Correctness.FlagUpdates
import Armator.Correctness.Comparison
import Armator.Architecture.DataProcessing
import Armator.Correctness.DataProcessingResults
import Armator.Correctness.ArithmeticFlags
import Armator.Architecture.ShifterOperand
import Armator.Correctness.ShifterOperand
import Armator.Correctness.Dispatch
import Armator.Correctness.FailedCondition
import Armator.Correctness.ExceptionReports
import Armator.Architecture.MultipleTransfer
import Armator.Correctness.MultipleLoops
import Armator.Correctness.StackRoundTrip
import Armator.Correctness.MultipleTransfers
import Armator.Correctness.Runs
import Armator.Architecture.SingleTransfer
import Armator.Correctness.SingleTransfers
import Armator.Correctness.DataAccesses
import Armator.Correctness.StatusBits
import Armator.Correctness.FlatMemory
import Armator.Correctness.StoreFrame
import Armator.Correctness.HostOrder
import Armator.Lib.CText
import Armator.Lib.Traced
import Armator.Simulator.GdbServer
import Armator.Correctness.Packets
import Armator.Correctness.Handlers
import Armator.Correctness.PacketAnalysis
import Armator.Correctness.PacketBounds
import Armator.Correctness.BinaryWrites
import Armator.Correctness.RequestForms
import Armator.Correctness.RequestSafety
import Armator.Correctness.RegisterDump
import Armator.Lib.LongestMatch
import Armator.Simulator.Scanner
import Armator.Correctness.Scanning
import Armator.Correctness.Framing
import Armator.Correctness.RequestReplies
import Armator.Correctness.Retransmission
import Armator.Architecture.Branch
import Armator.Correctness.Branches
import Armator.Correctness.ScaledOffsets
import Armator.Architecture.HalfTransfer
import Armator.Correctness.HalfTransfers
import Armator.Correctness.LogicalFlags
import Armator.Correctness.AccessBounds
import Armator.Correctness.UndefinedSpace
import Armator.Simulator.Debug
import Armator.Lib.SortedArray
import Armator.Correctness.DebugTable
import Armator.Architecture.StatusTransfer
import Armator.Correctness.StatusTransfers
import Armator.Correctness.BinaryWriteFailures
import Armator.Correctness.RegisterAccess
import Armator.Correctness.Continuing
import Armator.Simulator.ShiftCounts
import Armator.Correctness.ShiftCounts
import Armator.Correctness.ByteViews
import Armator.Correctness.Junk
import Armator.Correctness.TokenStreams
import Armator.Correctness.ThreadSections
import Armator.Correctness.Threads
import Armator.Correctness.InsideSections
import Armator.Correctness.Conversations
import Armator.Correctness.FrameCalls
import Armator.Correctness.DebugSessions
