import DpdkRouter.Router
import DpdkRouter.Utils

/-!
The configuration path of `router.c`: the option parsers `parse_option_p`
and `parse_option_r`, the loop of `parse_args` over the options `getopt`
returns, and `start_router` up to the launch of the threads. The parsers
return the buffer of their argument as they leave it, as the parsers of
`utils.c` do.

`getopt` is its sequence of results (`GetoptResult`). The device is seen
through `rte_eth_dev_count()` and `rte_eth_macaddr_get`, and
`configure_device` through the ports (`Ports`): `rte_eth_dev_configure`
refuses a port not attached, too many or no queues, and a port already
started, and the drivers may refuse the queues or the start; each refusal
leaves the program through `check_dpdk_error`. `usage()` and the printing
of the configuration are left out. `MASTER_LCORE_DOES_WORK` is defined, so
`DPDK_MIN_WORKER_ID` is 0. The address and MAC address the parsers hand to
`ipv4_addr_from_str` and `mac_addr_from_str` are uninitialised; the model
passes zero, which the parsers overwrite whenever they succeed.
-/

namespace DpdkRouter.Router

open ForLoop Utils Rte RoutingTable

def maxDecDigitLen : ℕ := 10
def dpdkMinWorkerId : ℕ := 0
def dpdkMinSlaveId : ℕ := 1

/-- `parse_option_p(arg)`: the configuration it allocates, or `NULL`, and the
buffer afterwards; the MAC address is the port's. -/
def parseOptionP (portMac : UInt16 → EtherAddr) (arg : List Char) : Option InterfaceConfig × List Char :=
  let i := indexOfFirstChar arg ',' maxDecDigitLen
  if i = -1 then (none, arg)
  else
    let arg := arg.set i.toNat '\x00'
    if !areAllCharDecimal arg then (none, arg)
    else
      let intId := CStr.atoi arg
      let arg := arg.set i.toNat ','
      let i := i.toNat + 1
      if !(decide (intId ≥ dpdkMinInterfaceVal) && decide (intId ≤ dpdkMaxInterfaceVal)) then (none, arg)
      else
        let (status, rest, addr) := ipv4AddrFromStr (arg.drop i) 0
        let arg := arg.take i ++ rest
        if status = -1 then (none, arg)
        else (some ⟨intId.toUInt32.toUInt8, addr, portMac intId.toUInt32.toUInt16⟩, arg)

/-- `parse_option_r(arg)` on the routing table `t`: whether it accepted the
route, the table after its `add_route`, and the buffer afterwards. -/
def parseOptionR (t : Tables) (arg : List Char) : Except Fault (Bool × Tables × List Char) :=
  let beginIdx := 0
  let offset := indexOfFirstChar (arg.drop beginIdx) '/' ipv4MaxAddrLen
  if offset = -1 then .ok (false, t, arg)
  else
    let endIdx := beginIdx + offset.toNat
    let arg := arg.set endIdx '\x00'
    let (status, rest, addr) := ipv4AddrFromStr (arg.drop beginIdx) 0
    let arg := (arg.take beginIdx ++ rest).set endIdx '/'
    let endIdx := endIdx + 1
    if status = -1 then .ok (false, t, arg)
    else
      let beginIdx := endIdx
      let offset := indexOfFirstChar (arg.drop beginIdx) ',' maxDecDigitLen
      if offset = -1 then .ok (false, t, arg)
      else
        let endIdx := beginIdx + offset.toNat
        let arg := arg.set endIdx '\x00'
        let cidr := CStr.atoi (arg.drop beginIdx)
        let arg := arg.set endIdx ','
        let endIdx := endIdx + 1
        if !(decide (cidr ≥ ipv4MinCidrVal) && decide (cidr ≤ ipv4MaxCidrVal)) then .ok (false, t, arg)
        else
          let beginIdx := endIdx
          let offset := indexOfFirstChar (arg.drop beginIdx) ',' macAddrLen
          if offset = -1 then .ok (false, t, arg)
          else
            let endIdx := beginIdx + offset.toNat
            let arg := arg.set endIdx '\x00'
            let (status, rest, mac) := macAddrFromStr (arg.drop beginIdx) EtherAddr.zero
            let arg := (arg.take beginIdx ++ rest).set endIdx ','
            let endIdx := endIdx + 1
            if status = -1 then .ok (false, t, arg)
            else
              let beginIdx := endIdx
              if CStr.strlen (arg.drop beginIdx) ≥ maxDecDigitLen then .ok (false, t, arg)
              else if !areAllCharDecimal (arg.drop beginIdx) then .ok (false, t, arg)
              else
                let intId := CStr.atoi (arg.drop beginIdx)
                if !(decide (intId ≥ dpdkMinInterfaceVal) && decide (intId ≤ dpdkMaxInterfaceVal)) then
                  .ok (false, t, arg)
                else do
                  let t ← addRoute t addr cidr.toUInt32.toUInt8 mac intId.toUInt32.toUInt8
                  pure (true, t, arg)

/-- What `getopt(argc, argv, "p:r:")` returns: an option with its argument,
or anything else (`'?'`, an unknown option or a missing argument). -/
inductive GetoptResult where
  | p (optarg : List Char)
  | r (optarg : List Char)
  | other
  deriving DecidableEq, Repr

structure ParseState where
  intConfs : List InterfaceConfig
  tables : Tables

/-- The loop of `parse_args` over the remaining options, then
`build_routing_table`. -/
def parseArgsLoop (portMac : UInt16 → EtherAddr) (devCount : ℕ) :
    List GetoptResult → ParseState → Except Fault (Int × ParseState)
  | [], st => do
    let t ← buildRoutingTable st.tables
    pure (1, { st with tables := t })
  | .p optarg :: opts, st =>
    match (parseOptionP portMac optarg).1 with
    | none => parseArgsLoop portMac devCount opts st
    | some intConf =>
      if intConf.intId.toNat ≥ devCount then parseArgsLoop portMac devCount opts st
      else parseArgsLoop portMac devCount opts { st with intConfs := st.intConfs ++ [intConf] }
  | .r optarg :: opts, st => do
    let (_, t, _) ← parseOptionR st.tables optarg
    parseArgsLoop portMac devCount opts { st with tables := t }
  | .other :: _, st => .ok (-1, { st with intConfs := [] })

def parseArgs (portMac : UInt16 → EtherAddr) (devCount : ℕ) (opts : List GetoptResult) :
    Except Fault (Int × ParseState) :=
  parseArgsLoop portMac devCount opts ⟨[], Tables.init⟩

/-- The ports `start_router` has configured and started, each with its number
of queues, and the thread configurations. -/
structure RouterSetup where
  started : List (UInt8 × UInt16)
  thrConfs : List ThreadConfig

def checkDpdkError (rc : Option EthError) (operation : String) : Except Fault Unit :=
  match rc with
  | none => .ok ()
  | some err => .error (.exit ("could not " ++ operation ++ ": " ++ err.text ++ "\n"))

def createMempool (ports : Ports) (portId : UInt8) (queue : UInt16) : Except Fault Unit :=
  if ports.mempool portId queue then .ok () else .error (.exit "could not allocate mempool\n")

def setupQueue (ports : Ports) (portId : UInt8) (queue : UInt16) : Except Fault Unit := do
  checkDpdkError (ports.txQueueSetup portId queue) "configure tx queue"
  createMempool ports portId queue
  checkDpdkError (ports.rxQueueSetup portId queue) "configure rx queue"

/-- `configure_device(port_id, num_queues)` after the ports `started`. -/
def configureDevice (ports : Ports) (started : List (UInt8 × UInt16)) (portId : UInt8) (numQueues : UInt16) :
    Except Fault (List (UInt8 × UInt16)) := do
  checkDpdkError (rteEthDevConfigure ports (started.map Prod.fst) portId numQueues numQueues) "configure device"
  forRange (fun queue _ => setupQueue ports portId (UInt16.ofNat queue)) 0 numQueues.toNat ()
  checkDpdkError (ports.start portId) "starting device"
  pure (started ++ [(portId, numQueues)])

/-- The ports take `configure_device(portId, numQueues)`, on a port not
started yet, when it is attached, offers that many queues, between 1 and
`RTE_MAX_QUEUES_PER_PORT`, and its driver and the allocator set up the port,
each of its queues, and start it. -/
def Accepts (ports : Ports) (portId : UInt8) (numQueues : UInt16) : Prop :=
  portId.toNat < ports.count ∧ numQueues ≠ 0 ∧ numQueues.toNat ≤ maxQueuesPerPort ∧
    numQueues ≤ ports.maxRxQueues portId ∧ numQueues ≤ ports.maxTxQueues portId ∧
    ports.configure portId numQueues numQueues = none ∧
    (∀ q < numQueues.toNat, setupQueue ports portId (UInt16.ofNat q) = .ok ()) ∧
    ports.start portId = none

instance (ports : Ports) (portId : UInt8) (numQueues : UInt16) : Decidable (Accepts ports portId numQueues) :=
  inferInstanceAs (Decidable (portId.toNat < ports.count ∧ numQueues ≠ 0 ∧ numQueues.toNat ≤ maxQueuesPerPort ∧
    numQueues ≤ ports.maxRxQueues portId ∧ numQueues ≤ ports.maxTxQueues portId ∧
    ports.configure portId numQueues numQueues = none ∧
    (∀ q < numQueues.toNat, setupQueue ports portId (UInt16.ofNat q) = .ok ()) ∧
    ports.start portId = none))

def threadConfigs (thrCount : ℕ) : List ThreadConfig :=
  (List.range thrCount).map fun i => ⟨[], UInt16.ofNat thrCount, UInt16.ofNat i⟩

/-- The loop configuring the interfaces from the `i`-th on and dealing the
`i`-th to thread `i % thr_count`. -/
def distributeInterfaces (ports : Ports) (thrCount : ℕ) :
    ℕ → List InterfaceConfig → RouterSetup → Except Fault RouterSetup
  | _, [], s => .ok s
  | i, intConf :: rest, s => do
    let started ← configureDevice ports s.started intConf.intId (UInt16.ofNat thrCount)
    let thrConfs := s.thrConfs.modify (i % thrCount) fun thrConf =>
      { thrConf with intConfs := thrConf.intConfs ++ [intConf] }
    distributeInterfaces ports thrCount (i + 1) rest ⟨started, thrConfs⟩

/-- `start_router(lcore_count)` up to the launch of the threads, where
`rte_lcore_count()` is `rteLcoreCount`. Thread `i` then runs `router_thread`
on the `i`-th configuration. -/
def startRouter (ports : Ports) (rteLcoreCount lcoreCount : ℕ) (intConfs : List InterfaceConfig) :
    Except Fault RouterSetup :=
  let lcoreCount := if lcoreCount = 0 then rteLcoreCount else lcoreCount
  if lcoreCount ≤ dpdkMinWorkerId then .ok ⟨[], []⟩
  else
    let thrCount := lcoreCount - dpdkMinWorkerId
    distributeInterfaces ports thrCount 0 intConfs ⟨[], threadConfigs thrCount⟩

def routerThreadRun (t : Tables) (intConfs : List InterfaceConfig) (thrConf : ThreadConfig) :
    ℕ → StateM Dev Unit
  | 0 => pure ()
  | n + 1 => do
    routerThreadPass t intConfs thrConf
    routerThreadRun t intConfs thrConf n

end DpdkRouter.Router
