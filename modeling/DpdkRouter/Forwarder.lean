import DpdkRouter.RouterSetup

/-!
The forwarder of `forwarder/fwd.c`, a second program over the same
`configure_device`. `parse_args` reads the source and destination
interfaces from the options `-s` and `-d`; `main` configures their ports with
one queue each and launches `run_thread` on lcore 1, from the source to the
destination, and, when the two differ, on lcore 2 the other way round, after
swapping the two globals with three `^=`.

A thread's `Fwd` is the devices as it sees them (`Dev`) and the statics
`sent_pkts` and `recv_pkts`. Both threads update these two counters without
a lock; the model runs one thread alone, so its counters count that
thread's buffers only. `transmit_packet` retries `rte_eth_tx_burst`
until the device takes the buffer; `spin` bounds the calls the model makes
before it calls the thread stuck, and `false` says so. `run_thread` is its
loop for `n` passes. The statistics `printf`, the `usleep` and `init_dpdk`
are left out.
-/

namespace DpdkRouter.Forwarder

open ByteBuf Rte

/-- `struct thread_config`. -/
structure ThreadConfig where
  srcInterface : UInt8
  srcQueue : UInt16
  dstInterface : UInt8
  dstQueue : UInt16
  deriving DecidableEq, Repr

/-- The statics of `fwd.c` a thread updates, and the devices. -/
structure Fwd where
  dev : Dev
  sentPkts : UInt32
  recvPkts : UInt32

/-- A call of the ethdev library, made on the devices of `Fwd`. -/
def onDev {α : Type} (f : StateM Dev α) : StateM Fwd α := fun s =>
  let (a, dev) := f.run s.dev
  (a, { s with dev })

/-- `transmit_packet(interface, dst_queue, buf)` for at most `spin` calls of
`rte_eth_tx_burst`: whether the device took the buffer, and `++sent_pkts`
after it did. -/
def transmitPacket (interface : UInt8) (dstQueue : UInt16) (buf : Mbuf) : ℕ → StateM Fwd Bool
  | 0 => pure false
  | spin + 1 => do
    if ← onDev (rteEthTxBurst interface.toUInt16 dstQueue buf) then
      modify fun s => { s with sentPkts := s.sentPkts + 1 }
      pure true
    else transmitPacket interface dstQueue buf spin

/-- `eth->s_addr.addr_bytes[5]++`: the last byte of the source address, at
offset 11 of the frame. -/
def bumpSrcAddr (data : List UInt8) : List UInt8 :=
  store8 data (etherAddrLen + 5) (load8 data (etherAddrLen + 5) + 1)

def handlePacket (spin : ℕ) (config : ThreadConfig) (buf : Mbuf) : StateM Fwd Bool :=
  transmitPacket config.dstInterface config.dstQueue { buf with data := bumpSrcAddr buf.data } spin

/-- The loop `for (i = 0; i < rx; ++i) handle_packet(config, bufs[i]);`,
which a stuck transmit never leaves. -/
def handlePackets (spin : ℕ) (config : ThreadConfig) : List Mbuf → StateM Fwd Bool
  | [] => pure true
  | buf :: bufs => do
    if ← handlePacket spin config buf then handlePackets spin config bufs
    else pure false

/-- One pass of the loop of `run_thread`: a burst of at most 64 buffers,
each handled, then `recv_pkts += rx`. -/
def runThreadPass (spin : ℕ) (config : ThreadConfig) : StateM Fwd Bool := do
  let bufs ← onDev (rteEthRxBurst config.srcInterface.toUInt16 config.srcQueue 64)
  if ← handlePackets spin config bufs then
    modify fun s => { s with recvPkts := s.recvPkts + UInt32.ofNat bufs.length }
    pure true
  else pure false

/-- `run_thread` for `n` passes: whether it is still running. -/
def runThread (spin : ℕ) (config : ThreadConfig) : ℕ → StateM Fwd Bool
  | 0 => pure true
  | n + 1 => do
    if ← runThreadPass spin config then runThread spin config n
    else pure false

/-- The globals `src_interface` and `dst_interface`. -/
structure Interfaces where
  srcInterface : UInt8
  dstInterface : UInt8
  deriving DecidableEq, Repr

/-- What `getopt(argc, argv, "s:d:")` returns: an option with its argument,
or anything else. -/
inductive GetoptResult where
  | s (optarg : List Char)
  | d (optarg : List Char)
  | other
  deriving DecidableEq, Repr

/-- The loop of `parse_args`: its result and the globals. `atoi` is stored
into a `uint8_t` before the range check, and an interface beyond 2 is reset
to 0 after `usage()`. -/
def parseArgs : List GetoptResult → Interfaces → Int × Interfaces
  | [], g => (1, g)
  | .s optarg :: opts, g =>
    let g := { g with srcInterface := (CStr.atoi optarg).toUInt32.toUInt8 }
    let g := if !(g.srcInterface < 3) then { g with srcInterface := 0 } else g
    parseArgs opts g
  | .d optarg :: opts, g =>
    let g := { g with dstInterface := (CStr.atoi optarg).toUInt32.toUInt8 }
    let g := if !(g.dstInterface < 3) then { g with dstInterface := 0 } else g
    parseArgs opts g
  | .other :: _, g => (-1, g)

/-- `start_thread`: the configuration it copies from the globals. -/
def startThread (g : Interfaces) : ThreadConfig := ⟨g.srcInterface, 0, g.dstInterface, 0⟩

/-- The ports `main` has started, each with its number of queues, and the
threads it launches, each with its lcore. -/
structure Setup where
  started : List (UInt8 × UInt16)
  threads : List (ℕ × ThreadConfig)
  deriving DecidableEq, Repr

/-- `main` up to `rte_eal_mp_wait_lcore()`, from the zero-initialised
globals; the result of `parse_args` is ignored, as in the source. -/
def main (ports : Ports) (opts : List GetoptResult) : Except Fault Setup := do
  let g := (parseArgs opts ⟨0, 0⟩).2
  let started ←
    if g.srcInterface = g.dstInterface then Router.configureDevice ports [] g.srcInterface 1
    else do
      let started ← Router.configureDevice ports [] g.dstInterface 1
      Router.configureDevice ports started g.srcInterface 1
  let thread1 := (1, startThread g)
  if g.srcInterface ≠ g.dstInterface then
    let g := { g with srcInterface := g.srcInterface ^^^ g.dstInterface }
    let g := { g with dstInterface := g.dstInterface ^^^ g.srcInterface }
    let g := { g with srcInterface := g.srcInterface ^^^ g.dstInterface }
    pure ⟨started, [thread1, (2, startThread g)]⟩
  else pure ⟨started, [thread1]⟩

end DpdkRouter.Forwarder
