import DpdkRouter.Basic

/-!
`dummy_routing_table.c`, the reference routing table: a list of route
entries kept sorted by decreasing prefix length, scanned for the first entry
whose network holds the address. The pointer list `rt_ents` is the list it
holds (`Utils.pointerList_refines_list`), and `pointer_list_insert` at a
position inside the list is `List.insertIdx`. The loops of `add_route_dummy`
and `get_next_hop_dummy` stop at their first hit: `List.findIdx` and
`List.find?`.

`get_next_hop_dummy` masks with `((int32_t)(1 << 31)) >> (prefix.cidr - 1)`:
`cidr` is promoted to `int` and the shift is arithmetic. For `cidr = 0` the
count is `-1`, which C leaves undefined; the model takes the count modulo 32,
as `Int32.shiftRight` and the x86 `sar` instruction do.
-/

namespace DpdkRouter.DummyRoutingTable

/-- `struct ipv4_cidr_addr`. -/
structure Ipv4CidrAddr where
  addr : UInt32
  cidr : UInt8
  deriving DecidableEq, Repr

/-- `struct route_entry`. -/
structure RouteEntry where
  dest : Ipv4CidrAddr
  dstMac : EtherAddr
  dstPort : UInt8
  deriving DecidableEq, Repr

/-- `add_route_dummy`: the new entry goes before the first entry with a
shorter prefix. -/
def addRouteDummy (rtEnts : List RouteEntry) (addr : UInt32) (cidr : UInt8) (mac : EtherAddr)
    (port : UInt8) : List RouteEntry :=
  let i := rtEnts.findIdx fun rtEnt => rtEnt.dest.cidr < cidr
  rtEnts.insertIdx i ⟨⟨addr, cidr⟩, mac, port⟩

/-- `((int32_t)(1 << 31)) >> (prefix.cidr - 1)`, as an `ipv4_addr`. -/
def subnetMask (cidr : UInt8) : UInt32 :=
  (((1 : Int32) <<< 31) >>> (Int32.ofNat cidr.toNat - 1)).toUInt32

def getNextHopDummy (rtEnts : List RouteEntry) (addr : UInt32) : Option RouteEntry :=
  rtEnts.find? fun rtEnt => (addr &&& subnetMask rtEnt.dest.cidr) == rtEnt.dest.addr

end DpdkRouter.DummyRoutingTable
