import DpdkRouter.Basic
import DpdkRouter.ByteBuf

/-!
The parts of the vendored DPDK library that the router calls. A frame is the
byte buffer (`ByteBuf`) of a single-segment `rte_mbuf`, so `pkt_len` is its
length, and a pointer into it (`rte_pktmbuf_mtod_offset`) is a byte offset.
The packed structures are read and written at their C offsets:

* `struct ether_hdr`: `d_addr` 0, `s_addr` 6, `ether_type` 12 (14 bytes);
* `struct ipv4_hdr`: `version_ihl` 0, `total_length` 2, `time_to_live` 8,
  `hdr_checksum` 10, `src_addr` 12, `dst_addr` 16 (20 bytes);
* `struct arp_hdr`: `arp_hrd` 0, `arp_pro` 2, `arp_hln` 4, `arp_pln` 5,
  `arp_op` 6, `arp_sha` 8, `arp_sip` 14, `arp_tha` 18, `arp_tip` 24 (28 bytes).

The host is little-endian, so a plain 16- or 32-bit field is a `loadLE16` or
`loadLE32`, and `rte_be_to_cpu_16(f)` of a field is `loadBE16`.

The ethdev calls act on `Dev`, the devices as one thread sees them: each
`rte_eth_rx_burst` takes the next burst the device offers, each
`rte_eth_tx_burst` of one buffer the next answer of the device (whether it
took the buffer), and both, like `rte_pktmbuf_free`, are recorded in order in
the `log`. A burst never holds more buffers than asked for, as DPDK
guarantees.
-/

namespace DpdkRouter.Rte

open ByteBuf

/-! `rte_ether.h` -/

def etherAddrLen : ℕ := 6
def etherHdrLen : ℕ := 14
def etherCrcLen : ℕ := 4
def etherMaxLen : ℕ := 1518
def etherTypeIpv4 : UInt16 := 0x0800
def etherTypeIpv6 : UInt16 := 0x86DD
def etherTypeArp : UInt16 := 0x0806

/-- A `struct ether_addr` read from offset `i`. -/
def loadEtherAddr (b : List UInt8) (i : ℕ) : EtherAddr :=
  ⟨Vector.ofFn fun k : Fin 6 => load8 b (i + k)⟩

/-- `ether_addr_copy` of an address into offset `i`. -/
def storeEtherAddr (b : List UInt8) (i : ℕ) (a : EtherAddr) : List UInt8 :=
  storeBytes b i a.addrBytes.toList

/-- `is_broadcast_ether_addr` of the address at offset `ea`: its three 16-bit
words are `0xFFFF`. -/
def isBroadcastEtherAddr (b : List UInt8) (ea : ℕ) : Bool :=
  loadLE16 b ea == 0xFFFF && loadLE16 b (ea + 2) == 0xFFFF && loadLE16 b (ea + 4) == 0xFFFF

/-- `is_same_ether_addr`: the loop over the six bytes. -/
def isSameEtherAddr (ea1 ea2 : EtherAddr) : Bool :=
  (List.finRange 6).all fun i => ea1.addrBytes.get i == ea2.addrBytes.get i

/-! `rte_ip.h`, `rte_arp.h` -/

def ipv4HdrSize : ℕ := 20
def ipv6HdrSize : ℕ := 40
def arpHdrSize : ℕ := 28
def ipv4HdrIhlMask : UInt8 := 0x0f
def ipv4IhlMultiplier : ℕ := 4
def arpHrdEther : UInt16 := 1
def arpOpRequest : UInt16 := 1
def arpOpReply : UInt16 := 2

/-- The 16-bit word at offset `i` of the buffer, widened to the sum's type. -/
def cksumWord (b : List UInt8) (i : ℕ) : UInt32 := (loadLE16 b i).toUInt32

/-- The first loop of `__rte_raw_cksum`, four words at a time: the pointer,
the length left and the sum when it ends. -/
def rawCksumQuads (b : List UInt8) : ℕ → ℕ → UInt32 → ℕ × ℕ × UInt32
  | u16, len + 8, sum =>
    rawCksumQuads b (u16 + 8) len
      (sum + cksumWord b u16 + cksumWord b (u16 + 2) + cksumWord b (u16 + 4) + cksumWord b (u16 + 6))
  | u16, len, sum => (u16, len, sum)

/-- The second loop of `__rte_raw_cksum`, one word at a time. -/
def rawCksumWords (b : List UInt8) : ℕ → ℕ → UInt32 → ℕ × ℕ × UInt32
  | u16, len + 2, sum => rawCksumWords b (u16 + 2) len (sum + cksumWord b u16)
  | u16, len, sum => (u16, len, sum)

/-- `__rte_raw_cksum(buf, len, sum)`, with `buf` an offset into `b`. -/
def rawCksum (b : List UInt8) (buf len : ℕ) (sum : UInt32) : UInt32 :=
  let (u16, len, sum) := rawCksumQuads b buf len sum
  let (u16, len, sum) := rawCksumWords b u16 len sum
  -- if length is in odd bytes
  if len = 1 then sum + (load8 b u16).toUInt32 else sum

/-- `__rte_raw_cksum_reduce`. -/
def rawCksumReduce (sum : UInt32) : UInt16 :=
  let sum := ((sum &&& 0xffff0000) >>> 16) + (sum &&& 0xffff)
  let sum := ((sum &&& 0xffff0000) >>> 16) + (sum &&& 0xffff)
  sum.toUInt16

def rteRawCksum (b : List UInt8) (buf len : ℕ) : UInt16 := rawCksumReduce (rawCksum b buf len 0)

/-- `rte_ipv4_cksum` of the header at offset `ipv4Hdr`. -/
def rteIpv4Cksum (b : List UInt8) (ipv4Hdr : ℕ) : UInt16 :=
  let cksum := rteRawCksum b ipv4Hdr ipv4HdrSize
  if cksum = 0xffff then cksum else ~~~cksum

/-! `rte_mbuf.h`, `rte_ethdev.h` -/

/-- An `rte_mbuf` of one segment: the buffer's identity (its address) and its
frame. -/
structure Mbuf where
  id : ℕ
  data : List UInt8
  deriving DecidableEq, Repr

def Mbuf.pktLen (m : Mbuf) : ℕ := m.data.length

/-- A call of the ethdev or mbuf library, as the device sees it. -/
inductive Event where
  | rxBurst (portId queueId : UInt16) (bufs : List Mbuf)
  | txBurst (portId queueId : UInt16) (buf : Mbuf) (sent : Bool)
  | free (buf : Mbuf)
  deriving DecidableEq, Repr

/-- The devices: the bursts and transmit answers still to come, the MAC
address of each attached port (`none` for a port not attached), and the
calls made so far. -/
structure Dev where
  rxBursts : ℕ → List Mbuf
  txAnswers : ℕ → Bool
  portMac : UInt16 → Option EtherAddr
  log : List Event

/-- `rte_eth_rx_burst(port_id, queue_id, rx_pkts, nb_pkts)`. -/
def rteEthRxBurst (portId queueId : UInt16) (nbPkts : ℕ) : StateM Dev (List Mbuf) := fun dev =>
  let bufs := (dev.rxBursts 0).take nbPkts
  (bufs, { dev with
    rxBursts := fun n => dev.rxBursts (n + 1)
    log := dev.log ++ [.rxBurst portId queueId bufs] })

/-- `rte_eth_tx_burst(port_id, queue_id, &buf, 1)`: whether the device took the
buffer. -/
def rteEthTxBurst (portId queueId : UInt16) (buf : Mbuf) : StateM Dev Bool := fun dev =>
  let sent := dev.txAnswers 0
  (sent, { dev with
    txAnswers := fun n => dev.txAnswers (n + 1)
    log := dev.log ++ [.txBurst portId queueId buf sent] })

def rtePktmbufFree (buf : Mbuf) : StateM Dev Unit := fun dev =>
  ((), { dev with log := dev.log ++ [.free buf] })

/-- `rte_eth_macaddr_get(port_id, mac_addr)`: the address the call leaves in
`*mac_addr`, which holds `macAddr` before; a port not attached writes
nothing. -/
def rteEthMacaddrGet (portId : UInt16) (macAddr : EtherAddr) : StateM Dev EtherAddr := fun dev =>
  ((dev.portMac portId).getD macAddr, dev)

@[simp]
theorem rteEthRxBurst_run (portId queueId : UInt16) (nbPkts : ℕ) (dev : Dev) :
    (rteEthRxBurst portId queueId nbPkts).run dev =
      ((dev.rxBursts 0).take nbPkts, { dev with
        rxBursts := fun n => dev.rxBursts (n + 1)
        log := dev.log ++ [.rxBurst portId queueId ((dev.rxBursts 0).take nbPkts)] }) := rfl

@[simp]
theorem rteEthTxBurst_run (portId queueId : UInt16) (buf : Mbuf) (dev : Dev) :
    (rteEthTxBurst portId queueId buf).run dev =
      (dev.txAnswers 0, { dev with
        txAnswers := fun n => dev.txAnswers (n + 1)
        log := dev.log ++ [.txBurst portId queueId buf (dev.txAnswers 0)] }) := rfl

@[simp]
theorem rtePktmbufFree_run (buf : Mbuf) (dev : Dev) :
    (rtePktmbufFree buf).run dev = ((), { dev with log := dev.log ++ [.free buf] }) := rfl

@[simp]
theorem rteEthMacaddrGet_run (portId : UInt16) (macAddr : EtherAddr) (dev : Dev) :
    (rteEthMacaddrGet portId macAddr).run dev = ((dev.portMac portId).getD macAddr, dev) := rfl

/-! `rte_ethdev.c`: configuring a port -/

def maxQueuesPerPort : ℕ := 1024

/-- An error an ethdev call returns, read through `rte_strerror`: those
`rte_eth_dev_configure` returns of itself, and any other, of a driver or of
the allocator, by its text. -/
inductive EthError
  | einval
  | ebusy
  | other (text : String)
  deriving DecidableEq, Repr

def EthError.text : EthError → String
  | .einval => "Invalid argument"
  | .ebusy => "Device or resource busy"
  | .other text => text

/-- The ports as `configure_device` finds them: `rte_eth_dev_count()` ports
attached, `0` to `count - 1`, the queues each device offers
(`dev_info.max_rx_queues`, `dev_info.max_tx_queues`), and what the drivers
and the allocator answer to the calls after the checks of
`rte_eth_dev_configure` (`none` for success): the queue arrays and the
driver's `dev_configure`, the set-up of each queue, the mempool of each
receive queue, and the start. -/
structure Ports where
  count : ℕ
  maxRxQueues : UInt8 → UInt16
  maxTxQueues : UInt8 → UInt16
  configure : UInt8 → UInt16 → UInt16 → Option EthError
  txQueueSetup : UInt8 → UInt16 → Option EthError
  rxQueueSetup : UInt8 → UInt16 → Option EthError
  mempool : UInt8 → UInt16 → Bool
  start : UInt8 → Option EthError

/-- `count` ports offering `queues` queues each, whose drivers and allocator
accept every call. -/
def Ports.working (count : ℕ) (queues : UInt16) : Ports :=
  ⟨count, fun _ => queues, fun _ => queues, fun _ _ _ => none, fun _ _ => none, fun _ _ => none,
    fun _ _ => true, fun _ => none⟩

/-- `rte_eth_dev_configure(port_id, nb_rx_q, nb_tx_q, &port_conf)` for the
`port_conf` of `configure_device`, which asks for no interrupt and no jumbo
frame, when the ports `started` are started: its checks in order, then the
driver. -/
def rteEthDevConfigure (ports : Ports) (started : List UInt8) (portId : UInt8) (nbRxQ nbTxQ : UInt16) :
    Option EthError :=
  if ports.count ≤ portId.toNat then some .einval
  else if maxQueuesPerPort < nbRxQ.toNat then some .einval
  else if maxQueuesPerPort < nbTxQ.toNat then some .einval
  else if portId ∈ started then some .ebusy
  else if nbRxQ = 0 ∧ nbTxQ = 0 then some .einval
  else if ports.maxRxQueues portId < nbRxQ then some .einval
  else if ports.maxTxQueues portId < nbTxQ then some .einval
  else ports.configure portId nbRxQ nbTxQ

end DpdkRouter.Rte
