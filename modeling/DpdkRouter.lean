import DpdkRouter.Loop
import DpdkRouter.Fields
import DpdkRouter.PrefixMatch
import DpdkRouter.SlotBuffer
import DpdkRouter.CString
import DpdkRouter.Basic
import DpdkRouter.Bits
import DpdkRouter.RoutingTable
import DpdkRouter.RoutingTableBuild
import DpdkRouter.RoutingTableCorrect
import DpdkRouter.RoutingTableCalls
import DpdkRouter.RoutingTableBlocks
import DpdkRouter.PointerList
import DpdkRouter.PointerListSpec
import DpdkRouter.Utils
import DpdkRouter.UtilsSpec
import DpdkRouter.OnesComplement
import DpdkRouter.ByteBuf
import DpdkRouter.Rte
import DpdkRouter.RteSpec
import DpdkRouter.Router
import DpdkRouter.RouterSpec
import DpdkRouter.RouterIpv4
import DpdkRouter.RouterArp
import DpdkRouter.RouterSetup
import DpdkRouter.RouterSetupSpec
import DpdkRouter.DummyRoutingTable
import DpdkRouter.DummyRoutingTableSpec
import DpdkRouter.UtilsMacSpec
import DpdkRouter.UtilsFrame
import DpdkRouter.RouterOptions
import DpdkRouter.EventLog
import DpdkRouter.Forwarder
import DpdkRouter.ForwarderSpec
import DpdkRouter.Ledger
import DpdkRouter.Lifecycle
import DpdkRouter.LifecycleSpec
import DpdkRouter.LifecycleRefines
import DpdkRouter.RoutingTableRuns
