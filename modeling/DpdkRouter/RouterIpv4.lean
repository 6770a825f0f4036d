import DpdkRouter.RouterSpec
import DpdkRouter.RteSpec
import DpdkRouter.RoutingTableCorrect

/-!
The IPv4 path of `router.c` against RFC 1812. `is_ipv4_hdr_valid` takes the
stored checksum, zeroes the field, recomputes it with `rte_ipv4_cksum` over
the 20 fixed bytes and compares; `isIpv4HdrValid_iff` says which headers it
accepts, in the terms of RFC 1071. `thread_send_ipv4_packet` decrements the
TTL and recomputes the checksum the same way; `threadHandleEtherIpv4_forwards`
says what a forwarded frame is, for a received header whose checksum holds
over all its words, options included.

The words of a header are the ten fixed words, the sixth of which is
`hdr_checksum`, and after them the option words. The test of
`is_ipv4_hdr_valid` makes the plain sum of the fixed words a multiple of
`0xffff` (`cksum_check_iff`); the check over the whole header then holds
exactly when the option words sum to a multiple of `0xffff` too
(`hdrCksumOk_iff_options`), and the recomputed checksum keeps both.
-/

namespace DpdkRouter.Router

open ByteBuf OnesComplement Bits Rte RoutingTable PrefixMatch

/-! The checksum field among the fixed words. -/

/-- The plain sum of the nine fixed header words other than `hdr_checksum`. -/
def otherWordsSum (b : List UInt8) (hdr : ℕ) : ℕ := (leWords b hdr 5).sum + (leWords b (hdr + 12) 4).sum

theorem leWords_ten (b : List UInt8) (hdr : ℕ) :
    leWords b hdr 10 = leWords b hdr 5 ++ (loadLE16 b (hdr + 10)).toNat :: leWords b (hdr + 12) 4 := by
  have hsplit := leWords_add b hdr 5 (1 + 4)
  rw [leWords_add b (hdr + 2 * 5) 1 4, leWords_one, List.singleton_append, show hdr + 2 * 5 = hdr + 10 by omega,
    show hdr + 10 + 2 * 1 = hdr + 12 by omega] at hsplit
  exact hsplit

theorem sum_leWords_ten (b : List UInt8) (hdr : ℕ) :
    (leWords b hdr 10).sum = otherWordsSum b hdr + (loadLE16 b (hdr + 10)).toNat := by
  rw [leWords_ten, List.sum_append, List.sum_cons, otherWordsSum]
  omega

theorem otherWordsSum_storeLE16 (b : List UInt8) (hdr : ℕ) (v : UInt16) :
    otherWordsSum (storeLE16 b (hdr + 10) v) hdr = otherWordsSum b hdr := by
  rw [otherWordsSum, otherWordsSum, storeLE16, leWords_storeBytes_of_disjoint (Or.inl (by omega)),
    leWords_storeBytes_of_disjoint (Or.inr (by simp only [length_le16Bytes]; omega))]

/-- The checksum test of `is_ipv4_hdr_valid`: the stored checksum is what
`rte_ipv4_cksum` computes with the field zeroed exactly when it is not `0` and
completes the plain sum of the fixed words to a multiple of `0xffff`. -/
theorem cksum_check_iff (b : List UInt8) (hdr : ℕ) :
    rteIpv4Cksum (storeLE16 b (hdr + 10) 0) hdr = loadLE16 b (hdr + 10) ↔
      (leWords b hdr 10).sum % modulus = 0 ∧ loadLE16 b (hdr + 10) ≠ 0 := by
  rw [rteIpv4Cksum_eq_iff, sum_leWords_ten, otherWordsSum_storeLE16, loadLE16_storeLE16_zero,
    sum_leWords_ten, UInt16.toNat_zero, Nat.add_zero]

/-- Over the fixed words, the test is RFC 1071 for a checksum field that is
not `0`. -/
theorem fixedWords_cksum_iff (b : List UInt8) (hdr : ℕ) :
    (leWords b hdr 10).sum % modulus = 0 ∧ loadLE16 b (hdr + 10) ≠ 0 ↔
      HdrCksumOk b hdr ipv4HdrSize ∧ loadLE16 b (hdr + 10) ≠ 0 := by
  rw [hdrCksumOk_iff, show ipv4HdrSize / 2 = 10 from rfl, sum_eq_modulus_iff leWords_le_modulus]
  constructor
  · rintro ⟨hs, hc⟩
    have hc' : (loadLE16 b (hdr + 10)).toNat ≠ 0 := by
      rwa [Ne, ← UInt16.toNat_inj, UInt16.toNat_zero] at hc
    exact ⟨⟨hs, _, by rw [leWords_ten]; simp, hc'⟩, hc⟩
  · rintro ⟨⟨hs, -⟩, hc⟩
    exact ⟨hs, hc⟩

/-! The option words. -/

theorem leWords_header (b : List UInt8) (hdr : ℕ) {ihl : ℕ} (hihl : 5 ≤ ihl) :
    leWords b hdr (4 * ihl / 2) = leWords b hdr 10 ++ leWords b (hdr + 20) (2 * ihl - 10) := by
  rw [show 4 * ihl / 2 = 10 + (2 * ihl - 10) by omega, leWords_add]

/-- When the fixed words pass the test of `is_ipv4_hdr_valid`, RFC 1071 over
the whole header holds exactly when the option words sum to a multiple of
`0xffff`. -/
theorem hdrCksumOk_iff_options {b : List UInt8} {hdr ihl : ℕ} (hihl : 5 ≤ ihl)
    (hfix : (leWords b hdr 10).sum % modulus = 0) (hc : loadLE16 b (hdr + 10) ≠ 0) :
    HdrCksumOk b hdr (4 * ihl) ↔ (leWords b (hdr + 20) (2 * ihl - 10)).sum % modulus = 0 := by
  have hnz := (fixedWords_cksum_iff b hdr).mp ⟨hfix, hc⟩
  rw [hdrCksumOk_iff, show ipv4HdrSize / 2 = 10 from rfl, sum_eq_modulus_iff leWords_le_modulus] at hnz
  obtain ⟨⟨-, w, hw, hw0⟩, -⟩ := hnz
  rw [hdrCksumOk_iff, sum_eq_modulus_iff leWords_le_modulus, leWords_header b hdr hihl, List.sum_append,
    Nat.add_mod, hfix, Nat.zero_add, Nat.mod_mod]
  exact ⟨fun h => h.1, fun h => ⟨h, w, List.mem_append_left _ hw, hw0⟩⟩

/-! The fields `is_ipv4_hdr_valid` reads. -/

theorem version_eq_four_iff (x : UInt8) :
    (x &&& ipv4HdrVerMask) >>> ipv4HdrVerBitOffset = 4 ↔ x.toNat / 16 = 4 := by
  rw [← UInt8.toNat_inj, ipv4HdrVerMask, ipv4HdrVerBitOffset, toNat_high_nibble]
  rfl

theorem toNat_ihl (x : UInt8) : (x &&& ipv4HdrIhlMask).toNat = x.toNat % 16 :=
  toNat_low_nibble x

theorem ihl_ge_five_iff (x : UInt8) : 5 ≤ x &&& ipv4HdrIhlMask ↔ 5 ≤ x.toNat % 16 := by
  rw [UInt8.le_iff_toNat_le, toNat_ihl]
  rfl

/-- `is_ipv4_hdr_valid` on the header's fields as numbers, with the checksum
test on the fixed words. -/
theorem isIpv4HdrValid_iff_words (b : List UInt8) (hdr : ℕ) (payloadSize : UInt32) :
    (isIpv4HdrValid b hdr payloadSize).1 = true ↔
      (leWords b hdr 10).sum % modulus = 0 ∧ loadLE16 b (hdr + 10) ≠ 0 ∧
      (load8 b hdr).toNat / 16 = 4 ∧ 5 ≤ (load8 b hdr).toNat % 16 ∧
      4 * ((load8 b hdr).toNat % 16) ≤ (loadBE16 b (hdr + 2)).toNat ∧
      (loadBE16 b (hdr + 2)).toNat ≤ payloadSize.toNat ∧ load8 b (hdr + 8) ≠ 0 := by
  rw [isIpv4HdrValid_fst_iff, cksum_check_iff, version_eq_four_iff, ihl_ge_five_iff, toNat_ihl,
    UInt32.le_iff_toNat_le, UInt16.toNat_toUInt32, and_assoc]
  rfl

/-- What `is_ipv4_hdr_valid` accepts: RFC 1071 over the 20 fixed bytes only,
with a checksum field that is not `0`, and the checks of RFC 1812 on the
version, the header length, the total length and the TTL. -/
theorem isIpv4HdrValid_iff (b : List UInt8) (hdr : ℕ) (payloadSize : UInt32) :
    (isIpv4HdrValid b hdr payloadSize).1 = true ↔
      HdrCksumOk b hdr ipv4HdrSize ∧ loadLE16 b (hdr + 10) ≠ 0 ∧
      (load8 b hdr).toNat / 16 = 4 ∧ 5 ≤ (load8 b hdr).toNat % 16 ∧
      4 * ((load8 b hdr).toNat % 16) ≤ (loadBE16 b (hdr + 2)).toNat ∧
      (loadBE16 b (hdr + 2)).toNat ≤ payloadSize.toNat ∧ load8 b (hdr + 8) ≠ 0 := by
  rw [isIpv4HdrValid_iff_words, ← and_assoc, fixedWords_cksum_iff, and_assoc]

/-- A header that RFC 1071 accepts with its checksum field `0x0000`, the
encoding other stacks send when the other words sum to `0xffff`, is refused. -/
theorem isIpv4HdrValid_refuses_zero_checksum :
    HdrCksumOk [0x45, 0, 0, 0x14, 0, 0, 0, 0, 0x40, 0x11, 0, 0, 0x70, 0xd9, 0, 0, 0x0a, 0, 0, 1] 0
        ipv4HdrSize ∧
      (isIpv4HdrValid [0x45, 0, 0, 0x14, 0, 0, 0, 0, 0x40, 0x11, 0, 0, 0x70, 0xd9, 0, 0, 0x0a, 0, 0, 1] 0
        20).1 = false := by
  decide

/-- A header of six words whose option word breaks RFC 1071 over its 24
bytes is accepted: only the fixed 20 bytes are checked. -/
theorem isIpv4HdrValid_accepts_bad_options :
    ¬ HdrCksumOk [0x46, 0, 0, 24, 0, 0, 0, 0, 0x40, 0x11, 101, 211, 10, 0, 0, 2, 10, 0, 0, 1, 1, 1, 1, 1] 0
        24 ∧
      (isIpv4HdrValid [0x46, 0, 0, 24, 0, 0, 0, 0, 0x40, 0x11, 101, 211, 10, 0, 0, 2, 10, 0, 0, 1, 1, 1, 1, 1]
        0 24).1 = true := by
  decide

/-! The frame `thread_send_ipv4_packet` sends. -/

theorem recomputeHdrChecksum_eq (data : List UInt8) :
    recomputeHdrChecksum data =
      storeLE16 (storeLE16 data (etherHdrLen + 10) 0) (etherHdrLen + 10)
        (rteIpv4Cksum (storeLE16 data (etherHdrLen + 10) 0) etherHdrLen) := rfl

/-- The recomputed checksum completes the fixed words: their plain sum is a
multiple of `0xffff`, and the field is not `0`. -/
theorem recomputeHdrChecksum_cksum {data : List UInt8} (hd : etherHdrLen + 12 ≤ data.length) :
    (leWords (recomputeHdrChecksum data) etherHdrLen 10).sum % modulus = 0 ∧
      loadLE16 (recomputeHdrChecksum data) (etherHdrLen + 10) ≠ 0 := by
  have hc := (rteIpv4Cksum_eq_iff (storeLE16 data (etherHdrLen + 10) 0) etherHdrLen _).mp rfl
  rw [sum_leWords_ten, otherWordsSum_storeLE16, loadLE16_storeLE16_zero, UInt16.toNat_zero,
    Nat.add_zero] at hc
  have hlen : etherHdrLen + 10 + 2 ≤ (storeLE16 data (etherHdrLen + 10) 0).length := by
    rw [storeLE16, length_storeBytes]
    omega
  rw [recomputeHdrChecksum_eq, sum_leWords_ten, otherWordsSum_storeLE16, otherWordsSum_storeLE16,
    loadLE16_storeLE16_self hlen]
  exact hc

@[simp]
theorem length_decrementTtl (data : List UInt8) : (decrementTtl data).length = data.length :=
  length_store8 _ _ _

@[simp]
theorem length_recomputeHdrChecksum (data : List UInt8) :
    (recomputeHdrChecksum data).length = data.length := by
  rw [recomputeHdrChecksum_eq, storeLE16, length_storeBytes, storeLE16, length_storeBytes]

@[simp]
theorem length_ipv4SentFrame (data : List UInt8) (sAddr dMac : EtherAddr) :
    (ipv4SentFrame data sAddr dMac).length = data.length := by
  simp [ipv4SentFrame]

/-- The sent frame agrees with the frame with the TTL decremented from the IP
header on, but for the checksum field. -/
theorem load8_ipv4SentFrame (data : List UInt8) (sAddr dMac : EtherAddr) {k : ℕ} (hk : etherHdrLen ≤ k)
    (h10 : k ≠ etherHdrLen + 10) (h11 : k ≠ etherHdrLen + 11) :
    load8 (ipv4SentFrame data sAddr dMac) k = load8 (decrementTtl data) k := by
  have h14 : etherHdrLen = 14 := rfl
  have h6 : etherAddrLen = 6 := rfl
  rw [ipv4SentFrame, load8_storeEtherAddr_of_le _ (by omega), load8_storeEtherAddr_of_le _ (by omega),
    recomputeHdrChecksum_eq, storeLE16, load8_storeBytes, if_neg (by simp only [length_le16Bytes]; omega),
    storeLE16, load8_storeBytes, if_neg (by simp only [length_le16Bytes]; omega)]

theorem leWords_ipv4SentFrame_of_le (data : List UInt8) (sAddr dMac : EtherAddr) {j : ℕ} (n : ℕ)
    (hj : etherHdrLen + 12 ≤ j) :
    leWords (ipv4SentFrame data sAddr dMac) j n = leWords (decrementTtl data) j n := by
  have h14 : etherHdrLen = 14 := rfl
  have h6 : etherAddrLen = 6 := rfl
  rw [ipv4SentFrame, leWords_storeEtherAddr_of_le _ _ (by omega), leWords_storeEtherAddr_of_le _ _ (by omega),
    recomputeHdrChecksum_eq, storeLE16,
    leWords_storeBytes_of_disjoint (Or.inr (by simp only [length_le16Bytes]; omega)), storeLE16,
    leWords_storeBytes_of_disjoint (Or.inr (by simp only [length_le16Bytes]; omega))]

theorem ipv4SentFrame_cksum {data : List UInt8} (sAddr dMac : EtherAddr) (hd : etherHdrLen + 12 ≤ data.length) :
    (leWords (ipv4SentFrame data sAddr dMac) etherHdrLen 10).sum % modulus = 0 ∧
      loadLE16 (ipv4SentFrame data sAddr dMac) (etherHdrLen + 10) ≠ 0 := by
  have h14 : etherHdrLen = 14 := rfl
  have h6 : etherAddrLen = 6 := rfl
  -- the Ethernet addresses lie before the IP header
  have hwords : leWords (ipv4SentFrame data sAddr dMac) etherHdrLen 10 =
      leWords (recomputeHdrChecksum (decrementTtl data)) etherHdrLen 10 := by
    rw [ipv4SentFrame, leWords_storeEtherAddr_of_le _ _ (by omega), leWords_storeEtherAddr_of_le _ _ (by omega)]
  have hfield : loadLE16 (ipv4SentFrame data sAddr dMac) (etherHdrLen + 10) =
      loadLE16 (recomputeHdrChecksum (decrementTtl data)) (etherHdrLen + 10) := by
    rw [ipv4SentFrame, storeEtherAddr,
      readsWithin_loadLE16.storeBytes_of_disjoint (Or.inr (by simp only [Vector.length_toList]; omega)), storeEtherAddr,
      readsWithin_loadLE16.storeBytes_of_disjoint (Or.inr (by simp only [Vector.length_toList]; omega))]
  rw [hwords, hfield]
  exact recomputeHdrChecksum_cksum (by rwa [length_decrementTtl])

theorem leWords_decrementTtl_of_le (data : List UInt8) {j : ℕ} (n : ℕ) (hj : etherHdrLen + 9 ≤ j) :
    leWords (decrementTtl data) j n = leWords data j n := by
  rw [decrementTtl, store8_eq_storeBytes,
    leWords_storeBytes_of_disjoint (Or.inr (by simp only [List.length_singleton]; omega))]

theorem load8_decrementTtl_self {data : List UInt8} (h : etherHdrLen + 8 < data.length) :
    load8 (decrementTtl data) (etherHdrLen + 8) = load8 data (etherHdrLen + 8) - 1 := by
  rw [decrementTtl, load8_store8, if_pos ⟨rfl, h⟩]

theorem load8_decrementTtl_of_ne (data : List UInt8) {k : ℕ} (hk : k ≠ etherHdrLen + 8) :
    load8 (decrementTtl data) k = load8 data k := by
  rw [decrementTtl, load8_store8, if_neg fun h => hk h.1]

/-! Forwarding. -/

/-- RFC 1812 (5.3.1, 5.2.2) on a frame `out` sent on port `p` for the received
frame `buf`: it goes to the next hop of the destination address, on that
hop's port and to its MAC address; it is the received buffer, whose IP header
and payload are the received ones but for the TTL, one less and still at
least `1`, and the checksum; and its header passes RFC 1071 over all its
words. -/
def RfcForwarded (t : Tables) (buf : Mbuf) (p : UInt16) (out : Mbuf) : Prop :=
  ∃ nhId, getNextHop t (loadBE32 buf.data (etherHdrLen + 16)) = some nhId ∧
    p = (t.nhIdToInfo nhId).nextHop.dstPort.toUInt16 ∧
    loadEtherAddr out.data 0 = (t.nhIdToInfo nhId).nextHop.dstMac ∧
    out.id = buf.id ∧ out.data.length = buf.data.length ∧
    (∀ k, etherHdrLen ≤ k → k ≠ etherHdrLen + 8 → k ≠ etherHdrLen + 10 → k ≠ etherHdrLen + 11 →
      load8 out.data k = load8 buf.data k) ∧
    load8 out.data (etherHdrLen + 8) = load8 buf.data (etherHdrLen + 8) - 1 ∧
    2 ≤ (load8 buf.data (etherHdrLen + 8)).toNat ∧
    HdrCksumOk out.data etherHdrLen (4 * ((load8 out.data etherHdrLen).toNat % 16))

theorem toNat_payloadSize {len : ℕ} (h14 : etherHdrLen ≤ len) (hlen : len < 2 ^ 32) :
    (UInt32.ofNat len - UInt32.ofNat etherHdrLen).toNat = len - etherHdrLen := by
  have h14' : etherHdrLen < 2 ^ 32 := by decide
  rw [UInt32.toNat_sub_of_le, UInt32.toNat_ofNat', UInt32.toNat_ofNat', Nat.mod_eq_of_lt hlen,
    Nat.mod_eq_of_lt h14']
  rw [UInt32.le_iff_toNat_le, UInt32.toNat_ofNat', UInt32.toNat_ofNat', Nat.mod_eq_of_lt hlen,
    Nat.mod_eq_of_lt h14']
  exact h14

/-- A header `is_ipv4_hdr_valid` accepts for the frame's payload lies in the
frame. -/
theorem header_in_frame {buf : Mbuf} (hlen : buf.pktLen < 2 ^ 32)
    (hvalid : (isIpv4HdrValid buf.data etherHdrLen (UInt32.ofNat buf.pktLen - UInt32.ofNat etherHdrLen)).1 = true) :
    etherHdrLen + 4 * ((load8 buf.data etherHdrLen).toNat % 16) ≤ buf.data.length := by
  obtain ⟨-, -, -, -, htot, hpay, httl⟩ := (isIpv4HdrValid_iff_words _ _ _).mp hvalid
  have h14 : etherHdrLen = 14 := rfl
  -- the TTL byte is in the frame, so the payload size does not wrap around
  have h22 := lt_length_of_load8_ne_zero httl
  unfold Mbuf.pktLen at hlen hpay
  rw [toNat_payloadSize (by omega) hlen] at hpay
  omega

/-- A frame the IPv4 handler hands to the device, for a received header
that passes RFC 1071 over all its words, is forwarded as RFC 1812 asks. -/
theorem ForwardsIpv4.rfcForwarded {t : Tables} {thrConf : ThreadConfig} {buf : Mbuf} {p q : UInt16}
    {out : Mbuf} (hlen : buf.pktLen < 2 ^ 32)
    (hrfc : HdrCksumOk buf.data etherHdrLen (4 * ((load8 buf.data etherHdrLen).toNat % 16)))
    (h : ForwardsIpv4 t thrConf buf p q out) : RfcForwarded t buf p out := by
  obtain ⟨hvalid, nhId, hnh, hp, -, hid, httl, sAddr, hout⟩ := h
  have h14 : etherHdrLen = 14 := rfl
  have h6 : etherAddrLen = 6 := rfl
  have hin := header_in_frame hlen hvalid
  obtain ⟨hfix, hc, -, hihl, -, -, httl0⟩ := (isIpv4HdrValid_iff_words _ _ _).mp hvalid
  simp only [isIpv4HdrValid_snd] at hnh httl hout
  -- the checked frame is the received one with its checksum field zeroed
  have hzero : ∀ k, k < etherHdrLen + 10 ∨ etherHdrLen + 12 ≤ k →
      load8 (storeLE16 buf.data (etherHdrLen + 10) 0) k = load8 buf.data k := fun k hk => by
    rw [storeLE16, load8_storeBytes, if_neg (by simp only [length_le16Bytes]; omega)]
  have hbytes : ∀ k, etherHdrLen ≤ k → k ≠ etherHdrLen + 8 → k ≠ etherHdrLen + 10 →
      k ≠ etherHdrLen + 11 → load8 out.data k = load8 buf.data k := fun k hk h8 h10 h11 => by
    rw [hout, load8_ipv4SentFrame _ _ _ hk h10 h11, load8_decrementTtl_of_ne _ h8, hzero k (by omega)]
  have hlen' : (storeLE16 buf.data (etherHdrLen + 10) 0).length = buf.data.length := by
    rw [storeLE16, length_storeBytes]
  have hihl' : load8 out.data etherHdrLen = load8 buf.data etherHdrLen :=
    hbytes _ le_rfl (by decide) (by decide) (by decide)
  -- the option words are the received ones, and the fixed words checksum again
  have hopt : leWords out.data (etherHdrLen + 20) (2 * ((load8 buf.data etherHdrLen).toNat % 16) - 10) =
      leWords buf.data (etherHdrLen + 20) (2 * ((load8 buf.data etherHdrLen).toNat % 16) - 10) := by
    rw [hout, leWords_ipv4SentFrame_of_le _ _ _ _ (by decide), leWords_decrementTtl_of_le _ _ (by decide),
      storeLE16, leWords_storeBytes_of_disjoint (Or.inr (by simp only [length_le16Bytes]; decide))]
  obtain ⟨hfix', hc'⟩ := ipv4SentFrame_cksum sAddr (t.nhIdToInfo nhId).nextHop.dstMac
    (show etherHdrLen + 12 ≤ (storeLE16 buf.data (etherHdrLen + 10) 0).length by rw [hlen']; omega)
  rw [← hout] at hfix' hc'
  refine ⟨nhId, ?_, hp, ?_, hid, by rw [hout, length_ipv4SentFrame, hlen'], hbytes, ?_, ?_, ?_⟩
  · rwa [storeLE16, readsWithin_loadBE32.storeBytes_of_disjoint (Or.inr (by simp only [length_le16Bytes]; decide))] at hnh
  · rw [hout, ipv4SentFrame, loadEtherAddr_storeEtherAddr_self]
    simp only [length_storeEtherAddr, length_recomputeHdrChecksum, length_decrementTtl, hlen']
    omega
  · have h22 : etherHdrLen + 8 < (storeLE16 buf.data (etherHdrLen + 10) 0).length := by
      rw [hlen']
      omega
    rw [hout, load8_ipv4SentFrame _ _ _ (by decide) (by decide) (by decide), load8_decrementTtl_self h22,
      hzero _ (by decide)]
  · have hdec := decrementTtl_ne_zero httl
    rw [hzero _ (by decide)] at hdec
    exact two_le_of_sub_one_ne_zero httl0 hdec
  · rw [hihl', hdrCksumOk_iff_options hihl hfix' hc', hopt]
    exact (hdrCksumOk_iff_options hihl hfix hc).mp hrfc

/-- A frame `thread_handle_ether_ipv4` transmits, for a received header whose
checksum holds over all its words, is forwarded as RFC 1812 asks. -/
theorem threadHandleEtherIpv4_forwards (t : Tables) (thrConf : ThreadConfig) (buf : Mbuf) (dev : Dev)
    (hlen : buf.pktLen < 2 ^ 32)
    (hrfc : HdrCksumOk buf.data etherHdrLen (4 * ((load8 buf.data etherHdrLen).toNat % 16))) :
    ∃ evs, ((threadHandleEtherIpv4 t thrConf buf).run dev).2.log = dev.log ++ evs ∧
      ∀ p q out sent, Event.txBurst p q out sent ∈ evs → RfcForwarded t buf p out := by
  obtain ⟨evs, hlog, -, htx⟩ := threadHandleEtherIpv4_handles t thrConf buf dev
  exact ⟨evs, hlog, fun p q out sent hmem => (htx p q out sent hmem).rfcForwarded hlen hrfc⟩

theorem threadHandleEtherIpv4_forwards_checked_frame :
    let routes : List RouteArgs :=
      [⟨0x0a000000, 8, ⟨#v[1, 1, 1, 1, 1, 1]⟩, 0⟩, ⟨0x0a000000, 24, ⟨#v[2, 2, 2, 2, 2, 2]⟩, 1⟩]
    let buf : Mbuf := ⟨0, [0, 0, 0, 0, 0, 0, 0, 0, 0, 0, 0, 0, 8, 0, 0x45, 0, 0, 0x14, 0, 0, 0, 0, 0x40, 0x11,
      0xff, 0xff, 0x70, 0xd9, 0, 0, 0x0a, 0, 0, 1]⟩
    ∃ t, (addRoutes Tables.init routes >>= buildRoutingTable) = .ok t ∧ getNextHop t 0x0a000001 = some 1 ∧
      ∃ evs, ((threadHandleEtherIpv4 t ⟨[], 1, 0⟩ buf).run
          ⟨fun _ => [], fun _ => true, fun _ => some ⟨#v[3, 3, 3, 3, 3, 3]⟩, []⟩).2.log = [] ++ evs ∧
        ∀ p q out sent, Event.txBurst p q out sent ∈ evs → RfcForwarded t buf p out := by
  intro routes buf
  obtain ⟨t, hrun, hinfo, hget⟩ := getNextHop_addRoutes routes (by decide) (by decide)
  have hcov1 : Covers t.nhIdToInfo (0x0a000001 : UInt32).toNat 1 := by
    rw [Covers, hinfo 1 (by decide)]
    decide
  have hbest : IsBest t.len (Covers t.nhIdToInfo (0x0a000001 : UInt32).toNat) routes.length 1 := by
    refine ⟨by decide, hcov1, fun j hj _ => ?_⟩
    rcases (show j = 0 ∨ j = 1 by simp only [routes, List.length_cons, List.length_nil] at hj; omega) with rfl | rfl
    · rw [Tables.len, Tables.len, hinfo 0 (by decide), hinfo 1 (by decide)]
      exact Or.inl (by decide)
    · exact Or.inr ⟨rfl, le_refl 1⟩
  exact ⟨t, hrun, by rw [hget, bestMatch_eq_some_iff.mpr hbest],
    threadHandleEtherIpv4_forwards t _ buf _ (by decide) (by decide)⟩

end DpdkRouter.Router
