import DpdkRouter.RouterSetup
import DpdkRouter.Ledger

/-!
The heap of `router.c` over a whole run of `main`. `router_init` allocates
the blocks of the lists `int_confs` and `thr_confs`. `parse_option_p`
allocates an interface configuration, which `parse_args` frees at once when
its port is beyond `rte_eth_dev_count()` and otherwise appends to
`int_confs`. `start_router` allocates, per worker lcore, a thread
configuration and the block of its list, and appends the interface
configurations, which stay owned by `int_confs`, to the threads' lists.
`router_finalize` frees all of it, from `parse_args` on an unknown option and
from `start_router` after the threads return. A list grows by `realloc`.

A `pointer_list` of addresses is `PointerList`: the address of its block
(`_list`, `none` for `NULL`), the addresses in its first `_len` slots, and
`_cap`; `_len` is the length of that list, at most `_cap`. The heap holds
the configurations at their addresses (`intConfAt`, `thrConfAt`), and `Mem`
is the allocator with its ledger (`Ledger`). `malloc` is taken to succeed,
`sizeof(generic_ptr)` is 8, and the allocations of DPDK itself (the EAL and
the mempools) are left out.
-/

namespace DpdkRouter.Lifecycle

open Ledger RoutingTable

def genericPtrSize : ℕ := 8

/-- A `pointer_list` whose slots hold addresses. -/
structure PointerList where
  list : Option ℕ
  elems : List ℕ
  cap : UInt32
  deriving DecidableEq, Repr

/-- A zero-initialised, or cleared, `pointer_list`. -/
def PointerList.null : PointerList := ⟨none, [], 0⟩

/-- `pointer_list_init`: `_list = malloc(0)`, a fresh block under glibc. -/
def pointerListInit (m : Mem) : PointerList × Mem := (⟨some m.malloc.1, [], 0⟩, m.malloc.2)

def pointerListRealloc (self : PointerList) (newCap : UInt32) (m : Mem) : Except Fault (PointerList × Mem) :=
  match m.realloc self.list (newCap.toNat * genericPtrSize) with
  | (some b, m) => .ok ({ self with list := some b, cap := newCap }, m)
  | (none, _) => .error (.exit "ERROR: Unable to allocate memory!\n")

def pointerListExpand (self : PointerList) (m : Mem) : Except Fault (PointerList × Mem) :=
  let newCap := self.cap + self.cap / 2 + 1
  if newCap ≤ self.cap then .error (.exit "ERROR: Pointer list cannot grow larger!\n")
  else pointerListRealloc self newCap m

def pointerListAppend (self : PointerList) (ptr : ℕ) (m : Mem) : Except Fault (PointerList × Mem) := do
  let (self, m) ← if self.elems.length ≥ self.cap.toNat then pointerListExpand self m else pure (self, m)
  pure ({ self with elems := self.elems ++ [ptr] }, m)

def pointerListClear (self : PointerList) (m : Mem) : PointerList × Mem :=
  match self.list with
  | none => (self, m)
  | some b => (.null, m.free (some b))

/-- `pointer_list_deep_clear`: `free` of every element, then the clear. -/
def pointerListDeepClear (self : PointerList) (m : Mem) : PointerList × Mem :=
  pointerListClear self (m.freeAll self.elems)

/-- `struct thread_config` on the heap. -/
structure ThreadConfigObj where
  intConfs : PointerList
  workerCount : UInt16
  qId : UInt16

/-- The statics `int_confs` and `thr_confs`, the configurations on the heap,
each at its address, and the allocator. -/
structure Statics where
  intConfs : PointerList
  thrConfs : PointerList
  intConfAt : ℕ → Router.InterfaceConfig
  thrConfAt : ℕ → ThreadConfigObj
  mem : Mem

/-- The program's start: zero-initialised statics, nothing allocated. -/
def Statics.zero : Statics :=
  ⟨.null, .null, fun _ => ⟨0, 0, EtherAddr.zero⟩, fun _ => ⟨.null, 0, 0⟩, ⟨0, []⟩⟩

def routerInit (s : Statics) : Statics :=
  let (intConfs, mem) := pointerListInit s.mem
  let (thrConfs, mem) := pointerListInit mem
  { s with intConfs, thrConfs, mem }

/-- The loop of `router_finalize` clearing the list of each thread
configuration in `thrs`. -/
def clearThreadLists (thrConfAt : ℕ → ThreadConfigObj) (m : Mem) :
    List ℕ → (ℕ → ThreadConfigObj) × Mem
  | [] => (thrConfAt, m)
  | a :: thrs =>
    let (l, m) := pointerListClear (thrConfAt a).intConfs m
    clearThreadLists (Function.update thrConfAt a { thrConfAt a with intConfs := l }) m thrs

def routerFinalize (s : Statics) : Statics :=
  let (intConfs, mem) := pointerListDeepClear s.intConfs s.mem
  let (thrConfAt, mem) := clearThreadLists s.thrConfAt mem s.thrConfs.elems
  let (thrConfs, mem) := pointerListDeepClear s.thrConfs mem
  { s with intConfs, thrConfs, thrConfAt, mem }

/-- The loop of `parse_args` over the remaining options, then
`build_routing_table`. -/
def parseArgsLoop (portMac : UInt16 → EtherAddr) (devCount : ℕ) :
    List Router.GetoptResult → Statics → Tables → Except Fault (Int × Statics × Tables)
  | [], s, t => do
    let t ← buildRoutingTable t
    pure (1, s, t)
  | .p optarg :: opts, s, t =>
    match (Router.parseOptionP portMac optarg).1 with
    | none => parseArgsLoop portMac devCount opts s t
    | some intConf =>
      -- the block `parse_option_p` allocates and fills
      let (a, mem) := s.mem.malloc
      let s := { s with intConfAt := Function.update s.intConfAt a intConf, mem }
      if intConf.intId.toNat ≥ devCount then
        parseArgsLoop portMac devCount opts { s with mem := s.mem.free (some a) } t
      else do
        let (intConfs, mem) ← pointerListAppend s.intConfs a s.mem
        parseArgsLoop portMac devCount opts { s with intConfs, mem } t
  | .r optarg :: opts, s, t => do
    let (_, t, _) ← Router.parseOptionR t optarg
    parseArgsLoop portMac devCount opts s t
  | .other :: _, s, t => .ok (-1, routerFinalize s, t)

/-- The loop of `start_router` allocating a thread configuration per worker
lcore, `n` of them left; `thread_config_init` gives each the block of an
empty list, `thr_count` and the number created before it. -/
def createThreadConfigs (thrCount : ℕ) : ℕ → Statics → Except Fault Statics
  | 0, s => .ok s
  | n + 1, s => do
    let (a, mem) := s.mem.malloc
    let (l, mem) := pointerListInit mem
    let s := { s with
      thrConfAt := Function.update s.thrConfAt a ⟨l, UInt16.ofNat thrCount, UInt16.ofNat s.thrConfs.elems.length⟩
      mem }
    let (thrConfs, mem) ← pointerListAppend s.thrConfs a s.mem
    createThreadConfigs thrCount n { s with thrConfs, mem }

/-- The loop of `start_router` configuring the `i`-th interface on and
appending it to the list of thread `i % thr_count`. -/
def distributeInterfaces (ports : Rte.Ports) (thrCount : ℕ) :
    ℕ → List ℕ → Statics → List (UInt8 × UInt16) → Except Fault (Statics × List (UInt8 × UInt16))
  | _, [], s, started => .ok (s, started)
  | i, a :: rest, s, started => do
    let started ← Router.configureDevice ports started (s.intConfAt a).intId (UInt16.ofNat thrCount)
    -- `pointer_list_get(&thr_confs, thr_idx)`, then `&thr_conf->int_confs`
    match s.thrConfs.elems[i % thrCount]? with
    | none => .error .outOfBounds
    | some b => do
      let (l, mem) ← pointerListAppend (s.thrConfAt b).intConfs a s.mem
      distributeInterfaces ports thrCount (i + 1) rest
        { s with thrConfAt := Function.update s.thrConfAt b { s.thrConfAt b with intConfs := l }, mem } started

/-- `start_router` up to the launch of the threads: the statics they run on,
and the ports started. -/
def launchThreads (ports : Rte.Ports) (thrCount : ℕ) (s : Statics) :
    Except Fault (Statics × List (UInt8 × UInt16)) := do
  let s ← createThreadConfigs thrCount thrCount s
  distributeInterfaces ports thrCount 0 s.intConfs.elems s []

def startRouter (ports : Rte.Ports) (rteLcoreCount lcoreCount : ℕ) (s : Statics) :
    Except Fault (Statics × List (UInt8 × UInt16)) :=
  let lcoreCount := if lcoreCount = 0 then rteLcoreCount else lcoreCount
  if lcoreCount ≤ Router.dpdkMinWorkerId then .ok (routerFinalize s, [])
  else do
    let (s, started) ← launchThreads ports (lcoreCount - Router.dpdkMinWorkerId) s
    -- the threads run on `s` until `force_quit`; `rte_eal_mp_wait_lcore()`
    pure (routerFinalize s, started)

/-- `main` of `main.c` after `init_dpdk()`; the result of `parse_args` is
ignored, as in the source. -/
def main (ports : Rte.Ports) (portMac : UInt16 → EtherAddr) (rteLcoreCount : ℕ)
    (opts : List Router.GetoptResult) : Except Fault (Statics × List (UInt8 × UInt16)) := do
  let (_, s, _) ← parseArgsLoop portMac ports.count opts (routerInit .zero) Tables.init
  startRouter ports rteLcoreCount 0 s

end DpdkRouter.Lifecycle
