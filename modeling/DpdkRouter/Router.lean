import DpdkRouter.Rte
import DpdkRouter.RoutingTable

/-!
The packet path of `router.c`: the checks on a received frame, the IPv4 and
ARP handlers, the dispatch of a burst, and one pass of the poll loop of
`router_thread` over the thread's interfaces, with `recv_from_device` of
`dpdk_init.h`. Handlers act on the devices (`Rte.Dev`); the frame of a buffer
changes as the handler writes it, and a buffer handed to
`rte_eth_tx_burst` or `rte_pktmbuf_free` is recorded with its frame at that
moment.

The static `int_confs` and a thread's `int_confs` are the lists their
pointer lists hold (`Utils.pointerList_refines_list`). `get_next_hop` is
`RoutingTable.getNextHop` on the routing table, whose pointer is the
`next_hop` of the `nh_id_to_info` slot it names. The parameter `int_conf` of
`thread_send_ipv4_packet` and `thr_conf` of `is_arp_msg_valid` are not read
by the code and are left out; so are the `usleep` of an idle pass and the
flag `force_quit`, which ends the loop between passes.
-/

namespace DpdkRouter.Router

open ByteBuf Rte RoutingTable

def maxBurstSize : ℕ := 32
def maxTransmitTrial : ℕ := 10
def ipv4HdrVerMask : UInt8 := 0xf0
def ipv4HdrVerBitOffset : UInt8 := 4

structure InterfaceConfig where
  intId : UInt8
  addr : UInt32
  mac : EtherAddr
  deriving DecidableEq, Repr

structure ThreadConfig where
  intConfs : List InterfaceConfig
  workerCount : UInt16
  qId : UInt16
  deriving DecidableEq, Repr

/-- `is_ipv4_hdr_valid(hdr, payload_size)` for the header at offset `hdr`:
the answer, and the buffer, whose `hdr_checksum` it leaves at `0`. -/
def isIpv4HdrValid (b : List UInt8) (hdr : ℕ) (payloadSize : UInt32) : Bool × List UInt8 :=
  let checksum := loadLE16 b (hdr + 10)
  let b := storeLE16 b (hdr + 10) 0
  let calcChksm := rteIpv4Cksum b hdr
  if calcChksm ≠ checksum then (false, b)
  else
    let version := (load8 b hdr &&& ipv4HdrVerMask) >>> ipv4HdrVerBitOffset
    if version ≠ 4 then (false, b)
    else
      let ihl := load8 b hdr &&& ipv4HdrIhlMask
      if ihl < 5 then (false, b)
      else
        let totLen := loadBE16 b (hdr + 2)
        if totLen.toNat < ipv4IhlMultiplier * ihl.toNat then (false, b)
        else if totLen.toUInt32 > payloadSize then (false, b)
        else if load8 b (hdr + 8) = 0 then (false, b)
        else (true, b)

/-- The loop `for (i = 0; i < MAX_TRANSMIT_TRIAL; i++) if
(rte_eth_tx_burst(port, queue, &buf, 1)) break;` with `n` trials left:
whether the device took the buffer. -/
def txTrials (portId queueId : UInt16) (buf : Mbuf) : ℕ → StateM Dev Bool
  | 0 => pure false
  | n + 1 => do
    if ← rteEthTxBurst portId queueId buf then pure true
    else txTrials portId queueId buf n

/-- The end of both send paths: the transmit loop, then
`if (i >= MAX_TRANSMIT_TRIAL) rte_pktmbuf_free(buf);`. -/
def transmit (portId queueId : UInt16) (buf : Mbuf) : StateM Dev Unit := do
  if !(← txTrials portId queueId buf maxTransmitTrial) then rtePktmbufFree buf

def decrementTtl (data : List UInt8) : List UInt8 :=
  store8 data (etherHdrLen + 8) (load8 data (etherHdrLen + 8) - 1)

def recomputeHdrChecksum (data : List UInt8) : List UInt8 :=
  let data := storeLE16 data (etherHdrLen + 10) 0
  storeLE16 data (etherHdrLen + 10) (rteIpv4Cksum data etherHdrLen)

def threadSendIpv4Packet (thrConf : ThreadConfig) (buf : Mbuf) (nextHop : Option RoutingTableEntry) :
    StateM Dev Unit :=
  match nextHop with
  | none => rtePktmbufFree buf
  | some nextHop => do
    let data := decrementTtl buf.data
    if load8 data (etherHdrLen + 8) = 0 then rtePktmbufFree { buf with data }
    else
      let data := recomputeHdrChecksum data
      let sAddr ← rteEthMacaddrGet nextHop.dstPort.toUInt16 (loadEtherAddr data 6)
      let data := storeEtherAddr data 6 sAddr
      let data := storeEtherAddr data 0 nextHop.dstMac
      transmit nextHop.dstPort.toUInt16 thrConf.qId { buf with data }

def threadHandleEtherIpv4 (t : Tables) (thrConf : ThreadConfig) (buf : Mbuf) : StateM Dev Unit :=
  let hdr := etherHdrLen
  let (valid, data) := isIpv4HdrValid buf.data hdr (UInt32.ofNat buf.pktLen - UInt32.ofNat etherHdrLen)
  if !valid then rtePktmbufFree { buf with data }
  else
    let nextHop := (getNextHop t (loadBE32 data (hdr + 16))).map fun nhId => (t.nhIdToInfo nhId).nextHop
    threadSendIpv4Packet thrConf { buf with data } nextHop

/-- `is_arp_msg_valid` of the ARP header at offset `hdr`; the loop over the
configured interfaces is `List.any`. -/
def isArpMsgValid (intConfs : List InterfaceConfig) (b : List UInt8) (hdr : ℕ) : Bool :=
  if loadBE16 b hdr ≠ arpHrdEther ∨ load8 b (hdr + 4) ≠ 6 then false
  else if loadBE16 b (hdr + 2) ≠ etherTypeIpv4 ∨ load8 b (hdr + 5) ≠ 4 then false
  else intConfs.any fun intConf => intConf.addr == loadBE32 b (hdr + 24)

/-- The writes of `thread_handle_ether_arp_request` that turn the request in
the frame into the reply. -/
def arpReplyOf (intConf : InterfaceConfig) (data : List UInt8) : List UInt8 :=
  let hdr := etherHdrLen
  let data := storeEtherAddr data 0 (loadEtherAddr data 6)
  let data := storeEtherAddr data 6 intConf.mac
  let data := storeBE16 data (hdr + 6) arpOpReply
  let senderMac := loadEtherAddr data (hdr + 8)
  let senderIp := loadLE32 data (hdr + 14)
  let data := storeEtherAddr data (hdr + 8) intConf.mac
  let data := storeLE32 data (hdr + 14) (loadLE32 data (hdr + 24))
  let data := storeEtherAddr data (hdr + 18) senderMac
  storeLE32 data (hdr + 24) senderIp

def threadHandleEtherArpRequest (thrConf : ThreadConfig) (intConf : InterfaceConfig) (buf : Mbuf) :
    StateM Dev Unit :=
  transmit intConf.intId.toUInt16 thrConf.qId { buf with data := arpReplyOf intConf buf.data }

def threadHandleEtherArp (intConfs : List InterfaceConfig) (thrConf : ThreadConfig)
    (intConf : InterfaceConfig) (buf : Mbuf) : StateM Dev Unit :=
  if !isArpMsgValid intConfs buf.data etherHdrLen then rtePktmbufFree buf
  else if loadBE16 buf.data (etherHdrLen + 6) = arpOpRequest then
    threadHandleEtherArpRequest thrConf intConf buf
  else rtePktmbufFree buf

def minPayloadLen (etherType : UInt16) : Option ℕ :=
  if etherType = etherTypeIpv4 then some ipv4HdrSize
  else if etherType = etherTypeIpv6 then some ipv6HdrSize
  else if etherType = etherTypeArp then some arpHdrSize
  else none

def isFrameValid (buf : Mbuf) (intConf : InterfaceConfig) : Bool :=
  if buf.pktLen < etherHdrLen then false
  else if !isBroadcastEtherAddr buf.data 0 && !isSameEtherAddr (loadEtherAddr buf.data 0) intConf.mac then
    false
  else
    match minPayloadLen (loadBE16 buf.data 12) with
    | none => false
    | some minPayloadLen =>
      if buf.pktLen < etherHdrLen + minPayloadLen then false
      else if buf.pktLen > etherMaxLen - etherCrcLen then false
      else true

def threadHandleFrame (t : Tables) (intConfs : List InterfaceConfig) (thrConf : ThreadConfig)
    (intConf : InterfaceConfig) (buf : Mbuf) : StateM Dev Unit :=
  if !isFrameValid buf intConf then rtePktmbufFree buf
  else
    let etherType := loadBE16 buf.data 12
    if etherType = etherTypeIpv4 then threadHandleEtherIpv4 t thrConf buf
    else if etherType = etherTypeArp then threadHandleEtherArp intConfs thrConf intConf buf
    else rtePktmbufFree buf

def threadHandleFrames (t : Tables) (intConfs : List InterfaceConfig) (thrConf : ThreadConfig)
    (intConf : InterfaceConfig) (bufs : List Mbuf) : StateM Dev Unit :=
  bufs.forM (threadHandleFrame t intConfs thrConf intConf)

/-- The loop of `recv_from_device` from queue `i` on, with `n` queues left and
the buffers `bufs` received so far. -/
def recvFromDeviceFrom (portId : UInt8) (numBufs : ℕ) : ℕ → ℕ → List Mbuf → StateM Dev (List Mbuf)
  | _, 0, bufs => pure bufs
  | i, n + 1, bufs =>
    if bufs.length < numBufs then do
      let got ← rteEthRxBurst portId.toUInt16 (UInt16.ofNat i) (numBufs - bufs.length)
      recvFromDeviceFrom portId numBufs (i + 1) n (bufs ++ got)
    else pure bufs

def recvFromDevice (portId : UInt8) (numRxQueues : UInt16) (numBufs : ℕ) : StateM Dev (List Mbuf) :=
  recvFromDeviceFrom portId numBufs 0 numRxQueues.toNat []

def pollInterface (t : Tables) (intConfs : List InterfaceConfig) (thrConf : ThreadConfig)
    (intConf : InterfaceConfig) : StateM Dev Unit := do
  let bufs ← recvFromDevice intConf.intId thrConf.workerCount maxBurstSize
  if bufs.length ≠ 0 then threadHandleFrames t intConfs thrConf intConf bufs

/-- One pass of the `while (!force_quit)` loop of `router_thread`. -/
def routerThreadPass (t : Tables) (intConfs : List InterfaceConfig) (thrConf : ThreadConfig) :
    StateM Dev Unit :=
  thrConf.intConfs.forM (pollInterface t intConfs thrConf)

end DpdkRouter.Router
