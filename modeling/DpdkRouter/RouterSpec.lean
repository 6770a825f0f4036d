import DpdkRouter.Router
import Mathlib.Data.List.Forall2

/-!
Who owns a received buffer. Each handler of the packet path is given a
buffer and must give it back to the library exactly once: to
`rte_eth_tx_burst`, when the device takes it, or to `rte_pktmbuf_free`.
`Handles f id P` says this of a call `f` and buffer `id`, whatever the
devices answer, and that every frame `f` hands to the device, on whatever
port and queue, has `P`. The judgment has one rule per effect
(`handles_free`, `handles_transmit`, `handles_macaddrGet`), and each
handler's lemma follows the handler's own branches. From the handler of a
single frame, induction over a burst and over the thread's interfaces gives
one pass of `router_thread`.
-/

namespace DpdkRouter.Rte

/-- The buffer an event gives back, and whether the device took it. -/
def Event.disposal : Event → Option (ℕ × Bool)
  | .txBurst _ _ m true => some (m.id, true)
  | .free m => some (m.id, false)
  | _ => none

/-- The buffers an event receives. -/
def Event.received : Event → List Mbuf
  | .rxBurst _ _ bufs => bufs
  | _ => []

/-- The devices after one call of `rte_eth_tx_burst`. -/
def Dev.afterTx (dev : Dev) (portId queueId : UInt16) (buf : Mbuf) : Dev :=
  { dev with
    txAnswers := fun n => dev.txAnswers (n + 1)
    log := dev.log ++ [.txBurst portId queueId buf (dev.txAnswers 0)] }

end DpdkRouter.Rte

namespace DpdkRouter.Router

open ByteBuf Rte RoutingTable

/-- Events that make no receive call and give buffer `id` back exactly once. -/
structure Disposes (id : ℕ) (evs : List Event) : Prop where
  once : ∃ sent, evs.filterMap Event.disposal = [(id, sent)]
  noRx : ∀ e ∈ evs, ∀ p q bs, e ≠ .rxBurst p q bs

/-- `f` handles buffer `id`, handing the device only frames with `P`. -/
def Handles (f : StateM Dev Unit) (id : ℕ) (P : UInt16 → UInt16 → Mbuf → Prop) : Prop :=
  ∀ dev, ∃ evs, (f.run dev).2.log = dev.log ++ evs ∧ Disposes id evs ∧
    ∀ p q out sent, Event.txBurst p q out sent ∈ evs → P p q out

section Rules

variable {f g : StateM Dev Unit} {id : ℕ} {P Q : UInt16 → UInt16 → Mbuf → Prop}

theorem Handles.mono (h : Handles f id P) (hPQ : ∀ p q out, P p q out → Q p q out) :
    Handles f id Q := by
  intro dev
  obtain ⟨evs, hlog, hdisp, htx⟩ := h dev
  exact ⟨evs, hlog, hdisp, fun p q out sent hmem => hPQ p q out (htx p q out sent hmem)⟩

theorem handles_free (buf : Mbuf) : Handles (rtePktmbufFree buf) buf.id P := by
  intro dev
  refine ⟨[.free buf], by simp, ⟨⟨false, by simp [Event.disposal]⟩, by simp⟩, ?_⟩
  simp

theorem handles_ite {c : Prop} [Decidable c] (hf : c → Handles f id P) (hg : ¬c → Handles g id P) :
    Handles (if c then f else g) id P := by
  split
  · exact hf ‹_›
  · exact hg ‹_›

/-- `rte_eth_macaddr_get` only reads the devices. -/
theorem handles_macaddrGet {portId : UInt16} {macAddr : EtherAddr} {k : EtherAddr → StateM Dev Unit}
    (h : ∀ a, Handles (k a) id P) : Handles (rteEthMacaddrGet portId macAddr >>= k) id P := by
  intro dev
  exact h ((dev.portMac portId).getD macAddr) dev

end Rules

theorem txTrials_succ_run (p q : UInt16) (buf : Mbuf) (n : ℕ) (dev : Dev) :
    (txTrials p q buf (n + 1)).run dev =
      if dev.txAnswers 0 then (true, dev.afterTx p q buf)
      else (txTrials p q buf n).run (dev.afterTx p q buf) := by
  show (if dev.txAnswers 0 = true then pure true else txTrials p q buf n).run (dev.afterTx p q buf) = _
  split <;> rfl

/-- The transmit loop makes only calls of `rte_eth_tx_burst` with the buffer,
and gives it back if and only if the device takes it. -/
theorem txTrials_spec (p q : UInt16) (buf : Mbuf) (n : ℕ) (dev : Dev) :
    ∃ evs, ((txTrials p q buf n).run dev).2.log = dev.log ++ evs ∧
      evs.filterMap Event.disposal = (if ((txTrials p q buf n).run dev).1 then [(buf.id, true)] else []) ∧
      ∀ e ∈ evs, ∃ sent, e = .txBurst p q buf sent := by
  induction n generalizing dev with
  | zero => exact ⟨[], by simp; rfl, by simp; rfl, by simp⟩
  | succ n ih =>
    cases hsent : dev.txAnswers 0 with
    | true =>
      rw [txTrials_succ_run, hsent, if_pos rfl]
      exact ⟨[.txBurst p q buf true], by simp [Dev.afterTx, hsent], by simp [Event.disposal], by simp⟩
    | false =>
      rw [txTrials_succ_run, hsent, if_neg Bool.false_ne_true]
      obtain ⟨evs, hlog, hdisp, hall⟩ := ih (dev.afterTx p q buf)
      refine ⟨.txBurst p q buf false :: evs, ?_, ?_, by simpa using hall⟩
      · rw [hlog]
        simp [Dev.afterTx, hsent]
      · rw [List.filterMap_cons_none rfl, hdisp]

theorem transmit_run (p q : UInt16) (buf : Mbuf) (dev : Dev) :
    (transmit p q buf).run dev =
      if ((txTrials p q buf maxTransmitTrial).run dev).1 then ((), ((txTrials p q buf maxTransmitTrial).run dev).2)
      else (rtePktmbufFree buf).run ((txTrials p q buf maxTransmitTrial).run dev).2 := by
  show (if (!((txTrials p q buf maxTransmitTrial).run dev).1) = true then rtePktmbufFree buf
    else pure ()).run ((txTrials p q buf maxTransmitTrial).run dev).2 = _
  generalize (txTrials p q buf maxTransmitTrial).run dev = r
  obtain ⟨sent, dev'⟩ := r
  cases sent <;> rfl

/-- The send paths give the buffer back once: to the device, or after the
last failed trial to `rte_pktmbuf_free`. -/
theorem handles_transmit {p q : UInt16} {buf : Mbuf} {P : UInt16 → UInt16 → Mbuf → Prop}
    (hP : P p q buf) : Handles (transmit p q buf) buf.id P := by
  intro dev
  obtain ⟨evs, hlog, hdisp, hall⟩ := txTrials_spec p q buf maxTransmitTrial dev
  have htx : ∀ p' q' out sent, Event.txBurst p' q' out sent ∈ evs → P p' q' out := by
    intro p' q' out sent hmem
    obtain ⟨s, hs⟩ := hall _ hmem
    cases hs
    exact hP
  have hnoRx : ∀ e ∈ evs, ∀ p q bs, e ≠ .rxBurst p q bs := by
    intro e he p q bs
    obtain ⟨s, rfl⟩ := hall e he
    simp
  rw [transmit_run]
  split
  · rename_i hsent
    rw [if_pos hsent] at hdisp
    exact ⟨evs, hlog, ⟨⟨true, hdisp⟩, hnoRx⟩, htx⟩
  · rename_i hsent
    rw [if_neg hsent] at hdisp
    refine ⟨evs ++ [.free buf], by simp [hlog], ⟨⟨false, ?_⟩, ?_⟩, ?_⟩
    · simp [List.filterMap_append, hdisp, Event.disposal]
    · intro e he
      rcases List.mem_append.mp he with he | he
      · exact hnoRx e he
      · simp only [List.mem_singleton] at he
        subst he
        simp
    · intro p' q' out sent hmem
      rcases List.mem_append.mp hmem with hmem | hmem
      · exact htx p' q' out sent hmem
      · simp at hmem

/-! The handlers. -/

/-- The frame `thread_send_ipv4_packet` sends: the TTL decremented, the
checksum recomputed, and the MAC addresses set. -/
def ipv4SentFrame (data : List UInt8) (sAddr dMac : EtherAddr) : List UInt8 :=
  storeEtherAddr (storeEtherAddr (recomputeHdrChecksum (decrementTtl data)) 6 sAddr) 0 dMac

/-- What `thread_send_ipv4_packet` hands to the device for next hop `nh`: on
the next hop's port and the thread's queue, the buffer with its TTL
decremented to a nonzero value, its checksum recomputed and its MAC
addresses set, the destination to the next hop's. -/
def SendsIpv4 (thrConf : ThreadConfig) (buf : Mbuf) (nh : RoutingTableEntry) (p q : UInt16)
    (out : Mbuf) : Prop :=
  p = nh.dstPort.toUInt16 ∧ q = thrConf.qId ∧ out.id = buf.id ∧
    load8 (decrementTtl buf.data) (etherHdrLen + 8) ≠ 0 ∧
    ∃ sAddr, out.data = ipv4SentFrame buf.data sAddr nh.dstMac

theorem threadSendIpv4Packet_none (thrConf : ThreadConfig) (buf : Mbuf) {P : UInt16 → UInt16 → Mbuf → Prop} :
    Handles (threadSendIpv4Packet thrConf buf none) buf.id P :=
  handles_free buf

theorem threadSendIpv4Packet_handles (thrConf : ThreadConfig) (buf : Mbuf) (nh : RoutingTableEntry) :
    Handles (threadSendIpv4Packet thrConf buf (some nh)) buf.id (SendsIpv4 thrConf buf nh) := by
  apply handles_ite
  · -- the TTL ran out
    intro _
    exact handles_free _
  · intro hne
    apply handles_macaddrGet
    intro sAddr
    exact handles_transmit ⟨rfl, rfl, rfl, hne, sAddr, rfl⟩

/-- What the IPv4 handler hands to the device: a frame whose header passed
`is_ipv4_hdr_valid` and whose destination has a next hop, as
`thread_send_ipv4_packet` sends it. -/
def ForwardsIpv4 (t : Tables) (thrConf : ThreadConfig) (buf : Mbuf) (p q : UInt16) (out : Mbuf) : Prop :=
  let checked := isIpv4HdrValid buf.data etherHdrLen (UInt32.ofNat buf.pktLen - UInt32.ofNat etherHdrLen)
  checked.1 = true ∧ ∃ nhId, getNextHop t (loadBE32 checked.2 (etherHdrLen + 16)) = some nhId ∧
    SendsIpv4 thrConf { buf with data := checked.2 } (t.nhIdToInfo nhId).nextHop p q out

theorem threadHandleEtherIpv4_handles (t : Tables) (thrConf : ThreadConfig) (buf : Mbuf) :
    Handles (threadHandleEtherIpv4 t thrConf buf) buf.id (ForwardsIpv4 t thrConf buf) := by
  unfold threadHandleEtherIpv4 ForwardsIpv4
  dsimp only
  generalize isIpv4HdrValid buf.data etherHdrLen (UInt32.ofNat buf.pktLen - UInt32.ofNat etherHdrLen) = checked
  obtain ⟨valid, data⟩ := checked
  cases valid with
  | false => exact handles_free _
  | true =>
    rw [Bool.not_true, if_neg Bool.false_ne_true]
    cases hnh : getNextHop t (loadBE32 data (etherHdrLen + 16)) with
    | none => exact threadSendIpv4Packet_none _ _
    | some nhId =>
      exact (threadSendIpv4Packet_handles thrConf _ _).mono
        fun p q out hsend => ⟨rfl, nhId, rfl, hsend⟩

/-- What the ARP request handler hands to the device: the reply it builds in
the buffer, on the receiving interface's port and the thread's queue. -/
def RepliesArp (thrConf : ThreadConfig) (intConf : InterfaceConfig) (buf : Mbuf) (p q : UInt16)
    (out : Mbuf) : Prop :=
  p = intConf.intId.toUInt16 ∧ q = thrConf.qId ∧ out = { buf with data := arpReplyOf intConf buf.data }

theorem threadHandleEtherArpRequest_handles (thrConf : ThreadConfig) (intConf : InterfaceConfig)
    (buf : Mbuf) :
    Handles (threadHandleEtherArpRequest thrConf intConf buf) buf.id (RepliesArp thrConf intConf buf) :=
  handles_transmit ⟨rfl, rfl, rfl⟩

/-- What the ARP handler hands to the device: the reply to a request that
passed `is_arp_msg_valid`. -/
def AnswersArp (intConfs : List InterfaceConfig) (thrConf : ThreadConfig) (intConf : InterfaceConfig)
    (buf : Mbuf) (p q : UInt16) (out : Mbuf) : Prop :=
  isArpMsgValid intConfs buf.data etherHdrLen = true ∧ loadBE16 buf.data (etherHdrLen + 6) = arpOpRequest ∧
    RepliesArp thrConf intConf buf p q out

theorem threadHandleEtherArp_handles (intConfs : List InterfaceConfig) (thrConf : ThreadConfig)
    (intConf : InterfaceConfig) (buf : Mbuf) :
    Handles (threadHandleEtherArp intConfs thrConf intConf buf) buf.id (AnswersArp intConfs thrConf intConf buf) := by
  unfold threadHandleEtherArp
  cases hvalid : isArpMsgValid intConfs buf.data etherHdrLen with
  | false => exact handles_free buf
  | true =>
    rw [Bool.not_true, if_neg Bool.false_ne_true]
    apply handles_ite
    · intro hreq
      exact (threadHandleEtherArpRequest_handles thrConf intConf buf).mono
        fun p q out h => ⟨hvalid, hreq, h⟩
    · intro _
      exact handles_free buf

/-- What the handler of one received frame hands to the device: a frame that
passed `is_frame_valid`, forwarded if it is IPv4, answered if it is ARP. -/
def TransmitsFrame (t : Tables) (intConfs : List InterfaceConfig) (thrConf : ThreadConfig)
    (intConf : InterfaceConfig) (buf : Mbuf) (p q : UInt16) (out : Mbuf) : Prop :=
  isFrameValid buf intConf = true ∧
    (loadBE16 buf.data 12 = etherTypeIpv4 ∧ ForwardsIpv4 t thrConf buf p q out ∨
      loadBE16 buf.data 12 = etherTypeArp ∧ AnswersArp intConfs thrConf intConf buf p q out)

theorem threadHandleFrame_handles (t : Tables) (intConfs : List InterfaceConfig) (thrConf : ThreadConfig)
    (intConf : InterfaceConfig) (buf : Mbuf) :
    Handles (threadHandleFrame t intConfs thrConf intConf buf) buf.id
      (TransmitsFrame t intConfs thrConf intConf buf) := by
  unfold threadHandleFrame
  cases hvalid : isFrameValid buf intConf with
  | false => exact handles_free buf
  | true =>
    rw [Bool.not_true, if_neg Bool.false_ne_true]
    dsimp only
    apply handles_ite
    · intro hipv4
      exact (threadHandleEtherIpv4_handles t thrConf buf).mono
        fun p q out h => ⟨hvalid, .inl ⟨hipv4, h⟩⟩
    · intro _
      apply handles_ite
      · intro harp
        exact (threadHandleEtherArp_handles intConfs thrConf intConf buf).mono
          fun p q out h => ⟨hvalid, .inr ⟨harp, h⟩⟩
      · intro _
        exact handles_free buf

/-! What `is_ipv4_hdr_valid` decides. -/

theorem isIpv4HdrValid_snd (b : List UInt8) (hdr : ℕ) (payloadSize : UInt32) :
    (isIpv4HdrValid b hdr payloadSize).2 = storeLE16 b (hdr + 10) 0 := by
  unfold isIpv4HdrValid
  dsimp only
  split_ifs <;> rfl

/-- The checks of `is_ipv4_hdr_valid`, on the buffer as it came: the other
fields lie before the zeroed checksum. -/
theorem isIpv4HdrValid_fst_iff (b : List UInt8) (hdr : ℕ) (payloadSize : UInt32) :
    (isIpv4HdrValid b hdr payloadSize).1 = true ↔
      rteIpv4Cksum (storeLE16 b (hdr + 10) 0) hdr = loadLE16 b (hdr + 10) ∧
      (load8 b hdr &&& ipv4HdrVerMask) >>> ipv4HdrVerBitOffset = 4 ∧
      5 ≤ load8 b hdr &&& ipv4HdrIhlMask ∧
      ipv4IhlMultiplier * (load8 b hdr &&& ipv4HdrIhlMask).toNat ≤ (loadBE16 b (hdr + 2)).toNat ∧
      (loadBE16 b (hdr + 2)).toUInt32 ≤ payloadSize ∧ load8 b (hdr + 8) ≠ 0 := by
  have h0 : load8 (storeLE16 b (hdr + 10) 0) hdr = load8 b hdr := load8_storeBytes_of_lt _ (by omega)
  have h8 : load8 (storeLE16 b (hdr + 10) 0) (hdr + 8) = load8 b (hdr + 8) :=
    load8_storeBytes_of_lt _ (by omega)
  have h2 : loadBE16 (storeLE16 b (hdr + 10) 0) (hdr + 2) = loadBE16 b (hdr + 2) :=
    readsWithin_loadBE16.storeBytes_of_disjoint (by omega)
  unfold isIpv4HdrValid
  simp only [h0, h8, h2]
  split_ifs <;> simp_all [not_lt]

/-! One pass of the poll loop. -/

/-- When the router hands a received frame to a device: the frame passed
`is_frame_valid`, and it is IPv4 with a header that passes
`is_ipv4_hdr_valid`, a next hop and a TTL of at least 2, or it is an ARP
request that passes `is_arp_msg_valid`. -/
def Transmittable (t : Tables) (intConfs : List InterfaceConfig) (intConf : InterfaceConfig)
    (buf : Mbuf) : Prop :=
  isFrameValid buf intConf = true ∧
    (loadBE16 buf.data 12 = etherTypeIpv4 ∧
        (isIpv4HdrValid buf.data etherHdrLen (UInt32.ofNat buf.pktLen - UInt32.ofNat etherHdrLen)).1 = true ∧
        (getNextHop t (loadBE32 buf.data (etherHdrLen + 16))).isSome ∧
        2 ≤ (load8 buf.data (etherHdrLen + 8)).toNat ∨
      loadBE16 buf.data 12 = etherTypeArp ∧ isArpMsgValid intConfs buf.data etherHdrLen = true ∧
        loadBE16 buf.data (etherHdrLen + 6) = arpOpRequest)

theorem decrementTtl_ne_zero {data : List UInt8} (h : load8 (decrementTtl data) (etherHdrLen + 8) ≠ 0) :
    load8 data (etherHdrLen + 8) - 1 ≠ 0 := by
  unfold decrementTtl at h
  rw [load8_store8] at h
  split_ifs at h with hin
  · exact h
  · exact absurd (load8_of_length_le (by omega)) h

theorem two_le_of_sub_one_ne_zero {x : UInt8} (h0 : x ≠ 0) (h1 : x - 1 ≠ 0) : 2 ≤ x.toNat := by
  by_contra hlt
  have hx : x = 0 ∨ x = 1 := by
    rcases (by omega : x.toNat = 0 ∨ x.toNat = 1) with h | h
    · exact .inl (UInt8.toNat_inj.mp h)
    · exact .inr (UInt8.toNat_inj.mp h)
  rcases hx with rfl | rfl
  · exact h0 rfl
  · exact h1 rfl

/-- A frame the handler hands to a device was transmittable when it came. -/
theorem TransmitsFrame.transmittable {t : Tables} {intConfs : List InterfaceConfig} {thrConf : ThreadConfig}
    {intConf : InterfaceConfig} {buf : Mbuf} {p q : UInt16} {out : Mbuf}
    (h : TransmitsFrame t intConfs thrConf intConf buf p q out) : Transmittable t intConfs intConf buf := by
  obtain ⟨hframe, ⟨hipv4, hvalid, nhId, hnh, hsend⟩ | ⟨harp, hmsg, hreq, -⟩⟩ := h
  · rw [isIpv4HdrValid_snd, storeLE16, readsWithin_loadBE32.storeBytes_of_disjoint (.inr (by simp [le16Bytes]))]
      at hnh
    rw [isIpv4HdrValid_snd] at hsend
    have httl := ((isIpv4HdrValid_fst_iff _ _ _).mp hvalid).2.2.2.2.2
    have hdec := decrementTtl_ne_zero hsend.2.2.2.1
    rw [storeLE16, load8_storeBytes_of_lt _ (by omega)] at hdec
    exact ⟨hframe, .inl ⟨hipv4, hvalid, by simp [hnh], two_le_of_sub_one_ne_zero httl hdec⟩⟩
  · exact ⟨hframe, .inr ⟨harp, hmsg, hreq⟩⟩

theorem exists_txBurst_of_disposal {evs : List Event} {id : ℕ}
    (h : (id, true) ∈ evs.filterMap Event.disposal) : ∃ p q out, Event.txBurst p q out true ∈ evs := by
  obtain ⟨e, he, hd⟩ := List.mem_filterMap.mp h
  cases e with
  | rxBurst _ _ _ => simp [Event.disposal] at hd
  | txBurst p q out sent =>
    cases sent with
    | false => simp [Event.disposal] at hd
    | true => exact ⟨p, q, out, he⟩
  | free _ => simp [Event.disposal] at hd

/-- A loop over a burst whose body handles each buffer gives back the burst's
buffers once each, in order; the device gets only frames of the burst. -/
theorem forM_handles {bufs : List Mbuf} {f : Mbuf → StateM Dev Unit}
    {P : Mbuf → UInt16 → UInt16 → Mbuf → Prop} (hf : ∀ buf, Handles (f buf) buf.id (P buf)) (dev : Dev) :
    ∃ evs, ((bufs.forM f).run dev).2.log = dev.log ++ evs ∧ (∀ e ∈ evs, ∀ p q bs, e ≠ .rxBurst p q bs) ∧
      List.Forall₂ (fun buf d => d.1 = buf.id ∧ (d.2 = true → ∃ p q out, P buf p q out)) bufs
        (evs.filterMap Event.disposal) ∧
      ∀ p q out sent, Event.txBurst p q out sent ∈ evs → ∃ buf ∈ bufs, P buf p q out := by
  induction bufs generalizing dev with
  | nil => exact ⟨[], by simp; rfl, by simp, by simp, by simp⟩
  | cons buf bufs ih =>
    obtain ⟨evs₁, hlog₁, ⟨⟨sent, hdisp₁⟩, hrx₁⟩, htx₁⟩ := hf buf dev
    obtain ⟨evs₂, hlog₂, hrx₂, hall₂, htx₂⟩ := ih ((f buf).run dev).2
    refine ⟨evs₁ ++ evs₂, ?_, ?_, ?_, ?_⟩
    · show ((bufs.forM f).run ((f buf).run dev).2).2.log = _
      rw [hlog₂, hlog₁, List.append_assoc]
    · intro e he
      rcases List.mem_append.mp he with he | he
      · exact hrx₁ e he
      · exact hrx₂ e he
    · rw [List.filterMap_append, hdisp₁]
      refine List.Forall₂.cons ⟨rfl, fun hsent => ?_⟩ hall₂
      subst hsent
      obtain ⟨p, q, out, hmem⟩ := exists_txBurst_of_disposal
        (show (buf.id, true) ∈ evs₁.filterMap Event.disposal by rw [hdisp₁]; simp)
      exact ⟨p, q, out, htx₁ p q out true hmem⟩
    · intro p q out sent hmem
      rcases List.mem_append.mp hmem with hmem | hmem
      · exact ⟨buf, by simp, htx₁ p q out sent hmem⟩
      · obtain ⟨b, hb, hP⟩ := htx₂ p q out sent hmem
        exact ⟨b, by simp [hb], hP⟩

theorem threadHandleFrames_spec (t : Tables) (intConfs : List InterfaceConfig) (thrConf : ThreadConfig)
    (intConf : InterfaceConfig) (bufs : List Mbuf) (dev : Dev) :
    ∃ evs, ((threadHandleFrames t intConfs thrConf intConf bufs).run dev).2.log = dev.log ++ evs ∧
      (∀ e ∈ evs, ∀ p q bs, e ≠ .rxBurst p q bs) ∧
      List.Forall₂ (fun buf d => d.1 = buf.id ∧ (d.2 = true → Transmittable t intConfs intConf buf)) bufs
        (evs.filterMap Event.disposal) ∧
      ∀ p q out sent, Event.txBurst p q out sent ∈ evs →
        ∃ buf ∈ bufs, TransmitsFrame t intConfs thrConf intConf buf p q out := by
  obtain ⟨evs, hlog, hrx, hall, htx⟩ := forM_handles (threadHandleFrame_handles t intConfs thrConf intConf) dev
  refine ⟨evs, hlog, hrx, hall.imp fun buf d ⟨hid, hsent⟩ => ⟨hid, fun hs => ?_⟩, htx⟩
  obtain ⟨p, q, out, h⟩ := hsent hs
  exact h.transmittable

theorem recvFromDeviceFrom_succ_run (portId : UInt8) (numBufs i n : ℕ) (bufs : List Mbuf) (dev : Dev) :
    (recvFromDeviceFrom portId numBufs i (n + 1) bufs).run dev =
      if bufs.length < numBufs then
        (recvFromDeviceFrom portId numBufs (i + 1) n
          (bufs ++ (dev.rxBursts 0).take (numBufs - bufs.length))).run
          ((rteEthRxBurst portId.toUInt16 (UInt16.ofNat i) (numBufs - bufs.length)).run dev).2
      else (bufs, dev) := by
  rw [recvFromDeviceFrom]
  split <;> rfl

/-- `recv_from_device`'s loop only receives: from queues `i` on, at most
`numBufs` buffers in all, which it returns after those it had. -/
theorem recvFromDeviceFrom_spec (portId : UInt8) (numBufs : ℕ) (i n : ℕ) (bufs : List Mbuf) (dev : Dev) :
    ∃ evs, ((recvFromDeviceFrom portId numBufs i n bufs).run dev).2.log = dev.log ++ evs ∧
      ((recvFromDeviceFrom portId numBufs i n bufs).run dev).1 = bufs ++ evs.flatMap Event.received ∧
      (∀ e ∈ evs, ∃ q bs, e = .rxBurst portId.toUInt16 (UInt16.ofNat q) bs ∧ i ≤ q ∧ q < i + n) ∧
      (bufs.length ≤ numBufs → ((recvFromDeviceFrom portId numBufs i n bufs).run dev).1.length ≤ numBufs) ∧
      (bufs.length < numBufs → n = 0 ∨ ∃ bs, Event.rxBurst portId.toUInt16 (UInt16.ofNat i) bs ∈ evs) := by
  induction n generalizing i bufs dev with
  | zero => exact ⟨[], by simp; rfl, by simp; rfl, by simp, fun h => h, fun _ => .inl rfl⟩
  | succ n ih =>
    rw [recvFromDeviceFrom_succ_run]
    split
    · rename_i hlt
      set got := (dev.rxBursts 0).take (numBufs - bufs.length)
      obtain ⟨evs, hlog, hres, hq, hlen, -⟩ := ih (i + 1) (bufs ++ got)
        ((rteEthRxBurst portId.toUInt16 (UInt16.ofNat i) (numBufs - bufs.length)).run dev).2
      have hgot : got.length ≤ numBufs - bufs.length := List.length_take_le _ _
      refine ⟨.rxBurst portId.toUInt16 (UInt16.ofNat i) got :: evs, ?_, ?_, ?_, ?_,
        fun _ => .inr ⟨got, List.mem_cons_self⟩⟩
      · rw [hlog]
        simp [got]
      · rw [hres]
        simp [Event.received]
      · intro e he
        rcases List.mem_cons.mp he with rfl | he
        · exact ⟨i, got, rfl, le_refl i, by omega⟩
        · obtain ⟨q, bs, rfl, hiq, hqn⟩ := hq e he
          exact ⟨q, bs, rfl, by omega, by omega⟩
      · intro _
        exact hlen (by rw [List.length_append]; omega)
    · rename_i hge
      exact ⟨[], by simp, by simp, by simp, fun h => h, fun h => absurd h hge⟩

theorem filterMap_disposal_eq_nil {evs : List Event} (h : ∀ e ∈ evs, ∃ p q bs, e = .rxBurst p q bs) :
    evs.filterMap Event.disposal = [] := by
  rw [List.filterMap_eq_nil_iff]
  intro e he
  obtain ⟨p, q, bs, rfl⟩ := h e he
  rfl

theorem flatMap_received_eq_nil {evs : List Event} (h : ∀ e ∈ evs, ∀ p q bs, e ≠ .rxBurst p q bs) :
    evs.flatMap Event.received = [] := by
  rw [List.flatMap_eq_nil_iff]
  intro e he
  cases e with
  | rxBurst p q bs => exact absurd rfl (h _ he p q bs)
  | txBurst _ _ _ _ => rfl
  | free _ => rfl

theorem pollInterface_run (t : Tables) (intConfs : List InterfaceConfig) (thrConf : ThreadConfig)
    (intConf : InterfaceConfig) (dev : Dev) :
    (pollInterface t intConfs thrConf intConf).run dev =
      (if ((recvFromDevice intConf.intId thrConf.workerCount maxBurstSize).run dev).1.length ≠ 0 then
        threadHandleFrames t intConfs thrConf intConf
          ((recvFromDevice intConf.intId thrConf.workerCount maxBurstSize).run dev).1
      else (pure () : StateM Dev Unit)).run
        ((recvFromDevice intConf.intId thrConf.workerCount maxBurstSize).run dev).2 :=
  rfl

/-- The events `evs` of the poll of interface `c` by a thread with
configuration `thrConf`, which received `bufs`: one `recv_from_device` on
`c`'s port, from queue 0 on when the thread has a queue and below its worker
count, at most `MAX_BURST_SIZE` buffers, each given back once in the order
received and handed to a device only if it was `Transmittable` on `c`; each
transmit is a frame the handlers of `c` send for one of the buffers. -/
structure Poll (t : Tables) (intConfs : List InterfaceConfig) (thrConf : ThreadConfig)
    (c : InterfaceConfig) (evs : List Event) (bufs : List Mbuf) : Prop where
  burst_le : bufs.length ≤ maxBurstSize
  received : evs.flatMap Event.received = bufs
  disposed : List.Forall₂ (fun buf d => d.1 = buf.id ∧ (d.2 = true → Transmittable t intConfs c buf)) bufs
    (evs.filterMap Event.disposal)
  rx : ∀ p q bs, Event.rxBurst p q bs ∈ evs → p = c.intId.toUInt16 ∧ q.toNat < thrConf.workerCount.toNat
  polled : thrConf.workerCount = 0 ∨ ∃ bs, Event.rxBurst c.intId.toUInt16 0 bs ∈ evs
  tx : ∀ p q out sent, Event.txBurst p q out sent ∈ evs → ∃ buf ∈ bufs, TransmitsFrame t intConfs thrConf c buf p q out

/-- One `recv_from_device` of a thread: at most `MAX_BURST_SIZE` buffers,
received from the port on queues below the worker count, from queue 0 on
when there is one, and nothing given back or sent. -/
theorem recvFromDevice_spec (portId : UInt8) (workerCount : UInt16) (dev : Dev) :
    ∃ evs, ((recvFromDevice portId workerCount maxBurstSize).run dev).2.log = dev.log ++ evs ∧
      evs.flatMap Event.received = ((recvFromDevice portId workerCount maxBurstSize).run dev).1 ∧
      ((recvFromDevice portId workerCount maxBurstSize).run dev).1.length ≤ maxBurstSize ∧
      evs.filterMap Event.disposal = [] ∧
      (∀ p q bs, Event.rxBurst p q bs ∈ evs → p = portId.toUInt16 ∧ q.toNat < workerCount.toNat) ∧
      (∀ p q out sent, Event.txBurst p q out sent ∉ evs) ∧
      (workerCount = 0 ∨ ∃ bs, Event.rxBurst portId.toUInt16 0 bs ∈ evs) := by
  unfold recvFromDevice
  obtain ⟨evs, hlog, hres, hq, hlen, hpolled⟩ := recvFromDeviceFrom_spec portId maxBurstSize 0 workerCount.toNat [] dev
  refine ⟨evs, hlog, by rw [hres, List.nil_append], hlen (Nat.zero_le _), ?_, ?_, ?_, ?_⟩
  · refine filterMap_disposal_eq_nil fun e he => ?_
    obtain ⟨q, bs, rfl, -⟩ := hq e he
    exact ⟨_, _, _, rfl⟩
  · intro p q bs he
    obtain ⟨q', bs', heq, -, hq'⟩ := hq _ he
    cases heq
    have hw := workerCount.toNat_lt
    refine ⟨rfl, ?_⟩
    rw [UInt16.toNat_ofNat', Nat.mod_eq_of_lt (by omega)]
    omega
  · intro p q out sent he
    obtain ⟨q', bs', heq, -⟩ := hq _ he
    cases heq
  · rcases hpolled (by simp [maxBurstSize]) with hw | hrx
    · exact .inl (UInt16.toNat_inj.mp hw)
    · exact .inr hrx

theorem pollInterface_spec (t : Tables) (intConfs : List InterfaceConfig) (thrConf : ThreadConfig)
    (intConf : InterfaceConfig) (dev : Dev) :
    ∃ evs bufs, ((pollInterface t intConfs thrConf intConf).run dev).2.log = dev.log ++ evs ∧
      Poll t intConfs thrConf intConf evs bufs := by
  obtain ⟨evs₁, hlog₁, hres₁, hlen, hdisp₁, hrx₁, htx₁, hpolled⟩ :=
    recvFromDevice_spec intConf.intId thrConf.workerCount dev
  rw [pollInterface_run]
  generalize (recvFromDevice intConf.intId thrConf.workerCount maxBurstSize).run dev = r at hlog₁ hres₁ hlen ⊢
  obtain ⟨bufs, dev₁⟩ := r
  dsimp only at hlog₁ hres₁ hlen ⊢
  split
  · obtain ⟨evs₂, hlog₂, hrx₂, hall₂, htx₂⟩ := threadHandleFrames_spec t intConfs thrConf intConf bufs dev₁
    refine ⟨evs₁ ++ evs₂, bufs, ?_, ⟨hlen, ?_, ?_, ?_, ?_, ?_⟩⟩
    · rw [hlog₂, hlog₁, List.append_assoc]
    · rw [List.flatMap_append, flatMap_received_eq_nil hrx₂, List.append_nil, hres₁]
    · rwa [List.filterMap_append, hdisp₁, List.nil_append]
    · intro p q bs he
      rcases List.mem_append.mp he with he | he
      · exact hrx₁ p q bs he
      · exact absurd rfl (hrx₂ _ he p q bs)
    · obtain hw | ⟨bs, hbs⟩ := hpolled
      · exact .inl hw
      · exact .inr ⟨bs, List.mem_append_left _ hbs⟩
    · intro p q out sent he
      rcases List.mem_append.mp he with he | he
      · exact absurd he (htx₁ p q out sent)
      · exact htx₂ p q out sent he
  · rename_i hnil
    have hempty : bufs = [] := List.eq_nil_of_length_eq_zero (not_not.mp hnil)
    refine ⟨evs₁, [], by rw [← hlog₁]; rfl, ⟨Nat.zero_le _, by rw [hres₁, hempty], ?_, hrx₁, hpolled, ?_⟩⟩
    · rw [hdisp₁]
      exact List.Forall₂.nil
    · intro p q out sent he
      exact absurd he (htx₁ p q out sent)

/-- The poll loop over a list of interfaces polls each in turn. -/
theorem forM_pollInterface_spec (t : Tables) (intConfs : List InterfaceConfig) (thrConf : ThreadConfig)
    (cs : List InterfaceConfig) (dev : Dev) :
    ∃ polls : List (List Event × List Mbuf),
      ((cs.forM (pollInterface t intConfs thrConf)).run dev).2.log = dev.log ++ (polls.map Prod.fst).flatten ∧
      List.Forall₂ (fun c poll => Poll t intConfs thrConf c poll.1 poll.2) cs polls := by
  induction cs generalizing dev with
  | nil => exact ⟨[], by simp; rfl, List.Forall₂.nil⟩
  | cons c cs ih =>
    obtain ⟨evs₁, bufs, hlog₁, hpoll⟩ := pollInterface_spec t intConfs thrConf c dev
    obtain ⟨polls, hlog₂, hall⟩ := ih ((pollInterface t intConfs thrConf c).run dev).2
    refine ⟨(evs₁, bufs) :: polls, ?_, List.Forall₂.cons hpoll hall⟩
    show ((cs.forM (pollInterface t intConfs thrConf)).run
      ((pollInterface t intConfs thrConf c).run dev).2).2.log = _
    rw [hlog₂, hlog₁, List.map_cons, List.flatten_cons, List.append_assoc]

/-- An event of the poll loop is an event of the poll of one of the
interfaces. -/
theorem exists_poll_of_mem {t : Tables} {intConfs : List InterfaceConfig} {thrConf : ThreadConfig}
    {cs : List InterfaceConfig} {polls : List (List Event × List Mbuf)}
    (hall : List.Forall₂ (fun c poll => Poll t intConfs thrConf c poll.1 poll.2) cs polls) {e : Event}
    (he : e ∈ (polls.map Prod.fst).flatten) :
    ∃ c ∈ cs, ∃ poll ∈ polls, Poll t intConfs thrConf c poll.1 poll.2 ∧ e ∈ poll.1 := by
  induction hall with
  | nil => exact absurd he List.not_mem_nil
  | @cons c poll cs polls hpoll _ ih =>
    rw [List.map_cons, List.flatten_cons] at he
    rcases List.mem_append.mp he with he | he
    · exact ⟨c, List.mem_cons_self, poll, List.mem_cons_self, hpoll, he⟩
    · obtain ⟨c', hc', poll', hpoll', h, he'⟩ := ih he
      exact ⟨c', List.mem_cons_of_mem _ hc', poll', List.mem_cons_of_mem _ hpoll', h, he'⟩

/-- One pass of `router_thread`'s poll loop polls each interface of the
thread once, in order: each `recv_from_device` returns at most
`MAX_BURST_SIZE` buffers from the interface's port, and each buffer it
returned is given back exactly once, in the order received, to a device
that took it only if it was `Transmittable` on that interface. -/
theorem routerThreadPass_disposes_once (t : Tables) (intConfs : List InterfaceConfig)
    (thrConf : ThreadConfig) (dev : Dev) :
    ∃ polls : List (List Event × List Mbuf),
      ((routerThreadPass t intConfs thrConf).run dev).2.log = dev.log ++ (polls.map Prod.fst).flatten ∧
      List.Forall₂ (fun c poll => Poll t intConfs thrConf c poll.1 poll.2) thrConf.intConfs polls :=
  forM_pollInterface_spec t intConfs thrConf thrConf.intConfs dev

end DpdkRouter.Router
