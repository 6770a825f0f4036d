import DpdkRouter.RouterSpec
import DpdkRouter.RteSpec

/-!
The ARP path of `router.c`. `thread_handle_ether_arp_request` turns the
request in the frame into the reply by moving its fields (`arpReplyOf`):
the Ethernet source becomes the destination, the receiving interface's MAC
the source and the sender hardware address, the target protocol address the
sender protocol address, and the old sender addresses the target addresses.
`arpReplyOf_fields` reads every field of the result back.

`is_arp_msg_valid` accepts a request for the address of any configured
interface, but the reply is filled from the interface the frame came in on,
so it names that interface's MAC whatever interface owns the address
(`threadHandleFrame_arp_reply`).
-/

namespace DpdkRouter.Router

open ByteBuf Rte RoutingTable

/-- The reply in `out` to the request in `req`, built on interface
`intConf`: the fields `thread_handle_ether_arp_request` writes, and the bytes
it leaves, the hardware and protocol types and lengths and what follows the
ARP header. -/
structure ArpReplyOf (intConf : InterfaceConfig) (req out : List UInt8) : Prop where
  length : out.length = req.length
  dAddr : loadEtherAddr out 0 = loadEtherAddr req 6
  sAddr : loadEtherAddr out 6 = intConf.mac
  op : loadBE16 out (etherHdrLen + 6) = arpOpReply
  sha : loadEtherAddr out (etherHdrLen + 8) = intConf.mac
  sip : loadLE32 out (etherHdrLen + 14) = loadLE32 req (etherHdrLen + 24)
  tha : loadEtherAddr out (etherHdrLen + 18) = loadEtherAddr req (etherHdrLen + 8)
  tip : loadLE32 out (etherHdrLen + 24) = loadLE32 req (etherHdrLen + 14)
  rest : ∀ k, 12 ≤ k ∧ k < etherHdrLen + 6 ∨ etherHdrLen + arpHdrSize ≤ k → load8 out k = load8 req k

section Reply

variable (intConf : InterfaceConfig) {data : List UInt8}

theorem arpReplyOf_eq (data : List UInt8) :
    arpReplyOf intConf data =
      let d := storeBE16 (storeEtherAddr (storeEtherAddr data 0 (loadEtherAddr data 6)) 6 intConf.mac)
        (etherHdrLen + 6) arpOpReply
      let d' := storeEtherAddr d (etherHdrLen + 8) intConf.mac
      storeLE32 (storeEtherAddr (storeLE32 d' (etherHdrLen + 14) (loadLE32 d' (etherHdrLen + 24)))
        (etherHdrLen + 18) (loadEtherAddr d (etherHdrLen + 8))) (etherHdrLen + 24)
        (loadLE32 d (etherHdrLen + 14)) := rfl

@[simp]
theorem length_arpReplyOf (data : List UInt8) : (arpReplyOf intConf data).length = data.length := by
  simp [arpReplyOf_eq, storeLE32, storeBE16]

theorem arpReplyOf_rest {k : ℕ} (hk : 12 ≤ k ∧ k < etherHdrLen + 6 ∨ etherHdrLen + arpHdrSize ≤ k) :
    load8 (arpReplyOf intConf data) k = load8 data k := by
  unfold etherHdrLen arpHdrSize at hk
  simp only [arpReplyOf_eq, storeLE32, storeBE16, storeEtherAddr, load8_storeBytes, length_storeBytes,
    etherHdrLen, Vector.length_toList, length_le32Bytes, length_be16Bytes]
  split_ifs <;> first | rfl | omega

/-- Each field of the reply reads what the store that writes it wrote: the
stores after it are disjoint from it, and the reads of the sender addresses
and of the target protocol address come before any store over them. -/
theorem arpReplyOf_fields (hd : etherHdrLen + arpHdrSize ≤ data.length) :
    ArpReplyOf intConf data (arpReplyOf intConf data) := by
  unfold etherHdrLen arpHdrSize at hd
  refine ⟨length_arpReplyOf _ _, ?dAddr, ?sAddr, ?op, ?sha, ?sip, ?tha, ?tip, fun _ hk => arpReplyOf_rest _ hk⟩
  all_goals simp only [arpReplyOf_eq, storeLE32, storeBE16, storeEtherAddr, etherHdrLen, etherAddrLen,
    length_le32Bytes, length_be16Bytes, Vector.length_toList, Nat.reduceAdd, Nat.reduceLeDiff, true_or, or_true,
    readsWithin_loadEtherAddr.storeBytes_of_disjoint, readsWithin_loadLE32.storeBytes_of_disjoint,
    readsWithin_loadBE16.storeBytes_of_disjoint]
  case dAddr | sAddr | sha | tha =>
    exact loadEtherAddr_storeEtherAddr_self (by simp [etherAddrLen]; omega) _
  case op => exact loadBE16_storeBE16_self (by simp; omega) _
  case sip | tip => exact loadLE32_storeLE32_self (by simp; omega) _

end Reply

/-! The reply the router sends. -/

/-- A frame `is_frame_valid` accepts holds the minimum payload of its type. -/
theorem isFrameValid_length {buf : Mbuf} {intConf : InterfaceConfig} {m : ℕ}
    (hv : isFrameValid buf intConf = true) (hm : minPayloadLen (loadBE16 buf.data 12) = some m) :
    etherHdrLen + m ≤ buf.data.length := by
  by_contra hlt
  unfold isFrameValid at hv
  rw [hm] at hv
  dsimp only at hv
  rw [if_pos (show buf.pktLen < etherHdrLen + m by unfold Mbuf.pktLen; omega)] at hv
  simp at hv

/-- `is_arp_msg_valid` accepts a message whose target protocol address is the
address of some configured interface. -/
theorem isArpMsgValid_target {intConfs : List InterfaceConfig} {b : List UInt8} {hdr : ℕ}
    (h : isArpMsgValid intConfs b hdr = true) : ∃ c ∈ intConfs, c.addr = loadBE32 b (hdr + 24) := by
  unfold isArpMsgValid at h
  split_ifs at h
  simpa only [List.any_eq_true, beq_iff_eq] using h

/-- Every frame the router sends for an ARP frame received on `intConf` is
the reply, on `intConf`, to a request for the address of a configured
interface; its sender hardware address is `intConf`'s MAC, whichever
interface owns the requested address. -/
theorem threadHandleFrame_arp_reply (t : Tables) (intConfs : List InterfaceConfig) (thrConf : ThreadConfig)
    (intConf : InterfaceConfig) (buf : Mbuf) (dev : Dev) (harp : loadBE16 buf.data 12 = etherTypeArp) :
    ∃ evs, ((threadHandleFrame t intConfs thrConf intConf buf).run dev).2.log = dev.log ++ evs ∧
      ∀ p q out sent, Event.txBurst p q out sent ∈ evs →
        p = intConf.intId.toUInt16 ∧ out.id = buf.id ∧
        loadBE16 buf.data (etherHdrLen + 6) = arpOpRequest ∧
        (∃ c ∈ intConfs, c.addr = loadBE32 buf.data (etherHdrLen + 24)) ∧
        ArpReplyOf intConf buf.data out.data := by
  obtain ⟨evs, hlog, -, htx⟩ := threadHandleFrame_handles t intConfs thrConf intConf buf dev
  refine ⟨evs, hlog, fun p q out sent hmem => ?_⟩
  obtain ⟨hvalid, ⟨hipv4, -⟩ | ⟨-, hmsg, hop, hp, -, rfl⟩⟩ := htx p q out sent hmem
  · -- the frame is not IPv4
    rw [harp] at hipv4
    exact absurd hipv4 (by decide)
  · have hlen := isFrameValid_length hvalid (by rw [harp]; rfl)
    exact ⟨hp, rfl, hop, isArpMsgValid_target hmsg, arpReplyOf_fields _ hlen⟩

theorem threadHandleFrame_arp_reply_two_interfaces :
    ∃ evs, ((threadHandleFrame Tables.init
        [⟨0, 0x0a000001, ⟨Vector.replicate 6 1⟩⟩, ⟨1, 0x0a000101, ⟨Vector.replicate 6 2⟩⟩] ⟨[], 1, 0⟩
        ⟨0, 0x0a000001, ⟨Vector.replicate 6 1⟩⟩
        ⟨0, [0xff, 0xff, 0xff, 0xff, 0xff, 0xff, 3, 3, 3, 3, 3, 3, 8, 6, 0, 1, 8, 0, 6, 4, 0, 1,
          3, 3, 3, 3, 3, 3, 10, 0, 1, 5, 0, 0, 0, 0, 0, 0, 10, 0, 1, 1]⟩).run ⟨fun _ => [], fun _ => true, fun _ => EtherAddr.zero, []⟩).2.log = [] ++ evs ∧
      ∀ p q out sent, Event.txBurst p q out sent ∈ evs →
        p = (0 : UInt8).toUInt16 ∧ out.id = 0 ∧
        loadBE16 [0xff, 0xff, 0xff, 0xff, 0xff, 0xff, 3, 3, 3, 3, 3, 3, 8, 6, 0, 1, 8, 0, 6, 4, 0, 1,
          3, 3, 3, 3, 3, 3, 10, 0, 1, 5, 0, 0, 0, 0, 0, 0, 10, 0, 1, 1] (etherHdrLen + 6) = arpOpRequest ∧
        (∃ c ∈ [(⟨0, 0x0a000001, ⟨Vector.replicate 6 1⟩⟩ : InterfaceConfig),
            ⟨1, 0x0a000101, ⟨Vector.replicate 6 2⟩⟩],
          c.addr = loadBE32 [0xff, 0xff, 0xff, 0xff, 0xff, 0xff, 3, 3, 3, 3, 3, 3, 8, 6, 0, 1, 8, 0, 6, 4, 0, 1,
          3, 3, 3, 3, 3, 3, 10, 0, 1, 5, 0, 0, 0, 0, 0, 0, 10, 0, 1, 1] (etherHdrLen + 24)) ∧
        ArpReplyOf ⟨0, 0x0a000001, ⟨Vector.replicate 6 1⟩⟩ [0xff, 0xff, 0xff, 0xff, 0xff, 0xff, 3, 3, 3, 3, 3, 3, 8, 6, 0, 1, 8, 0, 6, 4, 0, 1,
          3, 3, 3, 3, 3, 3, 10, 0, 1, 5, 0, 0, 0, 0, 0, 0, 10, 0, 1, 1] out.data :=
  threadHandleFrame_arp_reply _ _ _ _ _ _ (by decide)

/-- A request received on interface `0` for `10.0.1.1`, the address of
interface `1`, is answered on port `0` with a reply whose sender hardware
address is not the MAC of interface `1`: it is interface `0`'s. -/
theorem threadHandleFrame_arp_reply_other_interface :
    let intConfs : List InterfaceConfig :=
      [⟨0, 0x0a000001, ⟨Vector.replicate 6 1⟩⟩, ⟨1, 0x0a000101, ⟨Vector.replicate 6 2⟩⟩]
    let req : Mbuf := ⟨0, [0xff, 0xff, 0xff, 0xff, 0xff, 0xff, 3, 3, 3, 3, 3, 3, 8, 6, 0, 1, 8, 0, 6, 4, 0, 1,
      3, 3, 3, 3, 3, 3, 10, 0, 1, 5, 0, 0, 0, 0, 0, 0, 10, 0, 1, 1]⟩
    ∃ out, ((threadHandleFrame Tables.init intConfs ⟨[], 1, 0⟩ ⟨0, 0x0a000001, ⟨Vector.replicate 6 1⟩⟩ req).run
        ⟨fun _ => [], fun _ => true, fun _ => none, []⟩).2.log = [.txBurst 0 0 out true] ∧
      ∃ c ∈ intConfs, c.addr = loadBE32 req.data (etherHdrLen + 24) ∧
        loadEtherAddr out.data (etherHdrLen + 8) ≠ c.mac := by
  intro intConfs req
  refine ⟨⟨0, [3, 3, 3, 3, 3, 3, 1, 1, 1, 1, 1, 1, 8, 6, 0, 1, 8, 0, 6, 4, 0, 2,
    1, 1, 1, 1, 1, 1, 10, 0, 1, 1, 3, 3, 3, 3, 3, 3, 10, 0, 1, 5]⟩, by decide, intConfs[1],
    List.getElem_mem (by decide), by decide, by decide⟩

end DpdkRouter.Router
