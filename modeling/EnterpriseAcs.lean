import EnterpriseAcs.Library.Transition
import EnterpriseAcs.Library.MixedRadix
import EnterpriseAcs.Library.BitSet
import EnterpriseAcs.Library.Extremum
import EnterpriseAcs.Library.Restart
import EnterpriseAcs.Library.Ledger
import EnterpriseAcs.Library.Traced
import EnterpriseAcs.Library.WhileLoop
import EnterpriseAcs.Library.EarlyReturn
import EnterpriseAcs.Library.Blocks
import EnterpriseAcs.Library.BlockHeap
import EnterpriseAcs.Library.Interaction
import EnterpriseAcs.Machine.Affinity
import EnterpriseAcs.Acpi.Madt
import EnterpriseAcs.Acpi.MadtReads
import EnterpriseAcs.Acpi.CountedTables
import EnterpriseAcs.Machine.PeTable
import EnterpriseAcs.Machine.GicInfo
import EnterpriseAcs.Machine.Buffers
import EnterpriseAcs.Machine.Distributor
import EnterpriseAcs.Machine.CommandLine
import EnterpriseAcs.Sdei.PeInfo
import EnterpriseAcs.Sdei.DeviceTables
import EnterpriseAcs.Sdei.GtdtTables
import EnterpriseAcs.Sdei.HestTable
import EnterpriseAcs.Sdei.TimerInstances
import EnterpriseAcs.Sdei.SecondInterrupt
import EnterpriseAcs.Sdei.MailboxAddress
import EnterpriseAcs.Sdei.SecondarySet
import EnterpriseAcs.Sdei.Mailbox
import EnterpriseAcs.Sdei.Handshake
import EnterpriseAcs.Sdei.Startup
import EnterpriseAcs.Sdei.AppMain
import EnterpriseAcs.Sdei.GicDriver
import EnterpriseAcs.Sdei.TestStatus
import EnterpriseAcs.Sdei.TestInfra
import EnterpriseAcs.Sdei.SdeiCalls
import EnterpriseAcs.Sdei.EventSelection
import EnterpriseAcs.Sdei.WatchdogLoop
import EnterpriseAcs.Sdei.EventLedger
import EnterpriseAcs.Sdei.SameClassTest
import EnterpriseAcs.Sdei.EventInfoTest
import EnterpriseAcs.Sdei.TestSelection
import EnterpriseAcs.Sdei.LinuxApp
import EnterpriseAcs.Sdei.Dependencies
import EnterpriseAcs.Sdei.MultiVerdict
import EnterpriseAcs.Sdei.Accounting
import EnterpriseAcs.Mpam.PeInfo
import EnterpriseAcs.Mpam.SecondaryStack
import EnterpriseAcs.Mpam.StackFrames
import EnterpriseAcs.Mpam.PeIndex
import EnterpriseAcs.Mpam.CacheNodes
import EnterpriseAcs.Mpam.Topology
import EnterpriseAcs.Mpam.NodeHeap
import EnterpriseAcs.Mpam.NodePass
import EnterpriseAcs.Mpam.NodeFilling
import EnterpriseAcs.Mpam.NodeRefines
import EnterpriseAcs.Mpam.Status
import EnterpriseAcs.Mpam.Verdict
import EnterpriseAcs.Mpam.Completion
import EnterpriseAcs.Mpam.Dispatch
import EnterpriseAcs.Mpam.DispatchOnce
import EnterpriseAcs.Mpam.PartitionControl
import EnterpriseAcs.Mpam.NodeRegs
import EnterpriseAcs.Mpam.PortionBitmap
import EnterpriseAcs.Mpam.MpamParams
import EnterpriseAcs.Mpam.ErrorInjection
import EnterpriseAcs.Mpam.TestSuite
import EnterpriseAcs.Mpam.InterruptTests
import EnterpriseAcs.Mpam.InterruptRestore
import EnterpriseAcs.Mpam.OverflowCoverage
import EnterpriseAcs.Mpam.CopyBuffers
import EnterpriseAcs.Mpam.AddressSearch
import EnterpriseAcs.Mpam.BufferRollback
import EnterpriseAcs.Mpam.CsuMonitor
import EnterpriseAcs.Mpam.CsuRestore
import EnterpriseAcs.Mpam.LatencyTests
import EnterpriseAcs.Mpam.LatencyVerdict
import EnterpriseAcs.Mpam.Contention
import EnterpriseAcs.Mpam.ContentionMoves
import EnterpriseAcs.Mpam.ContentionSafe
import EnterpriseAcs.Mpam.ContentionEnds
import EnterpriseAcs.Mpam.BandwidthTest
import EnterpriseAcs.Mpam.MonitorTrace
import EnterpriseAcs.Mpam.MonitorRange
import EnterpriseAcs.Mpam.DeviationCheck
import EnterpriseAcs.Mpam.CacheTests
import EnterpriseAcs.Mpam.PartitionIds
import EnterpriseAcs.Mpam.BufferSize
import EnterpriseAcs.Mpam.SkipList
import EnterpriseAcs.Mpam.CycleCounter
import EnterpriseAcs.Mpam.CacheClean
import EnterpriseAcs.Suites.SelfIndex
import EnterpriseAcs.Suites.PeLookup
import EnterpriseAcs.Suites.InterruptRouting
import EnterpriseAcs.Suites.InfoTables
import EnterpriseAcs.Suites.TableWalks
import EnterpriseAcs.Suites.TableBuffers
import EnterpriseAcs.Suites.GicAgreement
import EnterpriseAcs.Suites.PrintRaw
import EnterpriseAcs.Sbbr.ResetShutdown
import EnterpriseAcs.Sbbr.OsDiskFormat
import EnterpriseAcs.Sbbr.OsDiskRobust
import EnterpriseAcs.Sbbr.OsDiskVerdict
import EnterpriseAcs.Sbbr.SmbiosPlacement
import EnterpriseAcs.Sbbr.AcpiTable
import EnterpriseAcs.Luvos.SbbrSummary
import EnterpriseAcs.Mpam.SuiteRun
import EnterpriseAcs.Sdei.SuiteEnds
import EnterpriseAcs.Sbbr.NonVolatileVariable
