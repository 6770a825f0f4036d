import DpdkRouter.Rte
import DpdkRouter.OnesComplement
import DpdkRouter.Bits

/-!
What the checksum code of `rte_ip.h` computes. The two loops of
`__rte_raw_cksum` add the little-endian words of the buffer, and a last odd
byte, into a 32-bit sum (`rawCksum_eq`); `__rte_raw_cksum_reduce` folds the
carries back in twice, which gives the one's-complement sum of RFC 1071
(`rteRawCksum_toNat`). `rte_ipv4_cksum` complements it, except that it keeps
`0xffff` for a sum of `0xffff`, so it is never `0`; a value is the checksum
of a header exactly when it is not `0` and makes the header's plain sum a
multiple of `0xffff` (`rteIpv4Cksum_eq_iff`).

`HdrCksumOk` is the check of RFC 1071 on a header of `len` bytes: the
one's-complement sum of its network-order words is `0xffff`; by
`hdrCksumOk_iff` the little-endian words the host adds give the same answer.
The last lemmas say where an `ether_addr_copy` writes.
-/

namespace DpdkRouter.Rte

open ByteBuf OnesComplement Bits

/-- The RFC 1071 check of the `len` bytes at `hdr`. -/
def HdrCksumOk (b : List UInt8) (hdr len : ℕ) : Prop := sum (beWords b hdr (len / 2)) = modulus

instance (b : List UInt8) (hdr len : ℕ) : Decidable (HdrCksumOk b hdr len) :=
  inferInstanceAs (Decidable (_ = _))

/-- The words the checksum of `len` bytes at `buf` adds up: the
little-endian words, then a last odd byte. -/
def cksumWords (b : List UInt8) (buf len : ℕ) : List ℕ :=
  leWords b buf (len / 2) ++ if len % 2 = 1 then [(load8 b (buf + 2 * (len / 2))).toNat] else []

theorem cksumWord_eq (b : List UInt8) (i : ℕ) : cksumWord b i = UInt32.ofNat (loadLE16 b i).toNat :=
  (UInt32.ofNat_uInt16ToNat _).symm

theorem leWords_four (b : List UInt8) (i : ℕ) :
    leWords b i 4 = [(loadLE16 b i).toNat, (loadLE16 b (i + 2)).toNat, (loadLE16 b (i + 4)).toNat,
      (loadLE16 b (i + 6)).toNat] := by
  simp [leWords, List.range_succ]

theorem rawCksumQuads_eq (b : List UInt8) (u16 len : ℕ) (sum : UInt32) :
    rawCksumQuads b u16 len sum =
      (u16 + 8 * (len / 8), len % 8, sum + UInt32.ofNat (leWords b u16 (4 * (len / 8))).sum) := by
  fun_induction rawCksumQuads b u16 len sum with
  | case1 u16 len sum ih =>
    -- one more round of four words, in front of those the recursive call adds
    have hsplit : leWords b u16 (4 * ((len + 8) / 8)) = leWords b u16 4 ++ leWords b (u16 + 8) (4 * (len / 8)) := by
      rw [show 4 * ((len + 8) / 8) = 4 + 4 * (len / 8) by omega, leWords_add]
    rw [ih, hsplit, leWords_four, List.sum_append]
    simp only [cksumWord_eq, List.sum_cons, List.sum_nil, UInt32.ofNat_add, Prod.mk.injEq]
    refine ⟨by omega, by omega, ?_⟩
    ac_rfl
  | case2 u16 len sum hlt =>
    have h8 : len < 8 := by
      by_contra hge
      exact hlt (len - 8) (by omega)
    simp [Nat.div_eq_of_lt h8, Nat.mod_eq_of_lt h8, leWords]

theorem rawCksumWords_eq (b : List UInt8) (u16 len : ℕ) (sum : UInt32) :
    rawCksumWords b u16 len sum =
      (u16 + 2 * (len / 2), len % 2, sum + UInt32.ofNat (leWords b u16 (len / 2)).sum) := by
  fun_induction rawCksumWords b u16 len sum with
  | case1 u16 len sum ih =>
    have hsplit : leWords b u16 ((len + 2) / 2) = leWords b u16 1 ++ leWords b (u16 + 2) (len / 2) := by
      rw [show (len + 2) / 2 = 1 + len / 2 by omega, leWords_add]
    rw [ih, hsplit, leWords_one, List.sum_append]
    simp only [cksumWord_eq, List.sum_cons, List.sum_nil, UInt32.ofNat_add, Prod.mk.injEq]
    refine ⟨by omega, by omega, ?_⟩
    ac_rfl
  | case2 u16 len sum hlt =>
    have h2 : len < 2 := by
      by_contra hge
      exact hlt (len - 2) (by omega)
    simp [Nat.div_eq_of_lt h2, Nat.mod_eq_of_lt h2, leWords]

/-- `__rte_raw_cksum` adds the checksum words to `sum`, modulo `2 ^ 32`. -/
theorem rawCksum_eq (b : List UInt8) (buf len : ℕ) (sum : UInt32) :
    rawCksum b buf len sum = sum + UInt32.ofNat (cksumWords b buf len).sum := by
  have hwords : leWords b buf (4 * (len / 8)) ++ leWords b (buf + 8 * (len / 8)) (len % 8 / 2) =
      leWords b buf (len / 2) := by
    rw [show 8 * (len / 8) = 2 * (4 * (len / 8)) by omega, ← leWords_add]
    congr 1
    omega
  have hodd : buf + 8 * (len / 8) + 2 * (len % 8 / 2) = buf + 2 * (len / 2) := by omega
  simp only [rawCksum, rawCksumQuads_eq, rawCksumWords_eq, cksumWords, Nat.mod_mod_of_dvd len
    (show 2 ∣ 8 by decide)]
  rw [← hwords, hodd]
  split_ifs
  · simp only [List.sum_append, List.sum_cons, List.sum_nil, Nat.add_zero, UInt32.ofNat_add,
      UInt32.ofNat_uInt8ToNat]
    ac_rfl
  · simp only [List.sum_append, List.sum_nil, Nat.add_zero, UInt32.ofNat_add]
    ac_rfl

theorem toNat_fold32 (s : UInt32) : (((s &&& 0xffff0000) >>> 16) + (s &&& 0xffff)).toNat = fold s.toNat := by
  have hs := s.toNat_lt
  rw [UInt32.toNat_add, toNat_high_half, toNat_low_half, fold]
  exact Nat.mod_eq_of_lt (by omega)

/-- `__rte_raw_cksum_reduce` folds the carries in twice. -/
theorem rawCksumReduce_toNat (s : UInt32) : (rawCksumReduce s).toNat = fold (fold s.toNat) := by
  have hle : fold (fold s.toNat) ≤ modulus := fold_le_of_le (fold_le_of_lt s.toNat_lt)
  simp only [rawCksumReduce, UInt32.toNat_toUInt16, toNat_fold32]
  unfold modulus at hle
  omega

theorem leWords_le_modulus {b : List UInt8} {i n : ℕ} : ∀ w ∈ leWords b i n, w ≤ modulus :=
  fun _ hw => le_modulus (leWords_lt hw)

theorem cksumWords_le {b : List UInt8} {buf len : ℕ} : ∀ w ∈ cksumWords b buf len, w ≤ modulus := by
  intro w hw
  simp only [cksumWords, List.mem_append] at hw
  rcases hw with hw | hw
  · exact leWords_le_modulus w hw
  · -- the last byte of an odd length, a word with a zero high byte
    split_ifs at hw
    · rw [List.mem_singleton.mp hw]
      exact le_modulus (by have := (load8 b (buf + 2 * (len / 2))).toNat_lt; omega)
    · simp at hw

theorem length_cksumWords (b : List UInt8) (buf len : ℕ) : (cksumWords b buf len).length ≤ len / 2 + 1 := by
  simp only [cksumWords, List.length_append, length_leWords]
  split_ifs <;> simp

/-- `rte_raw_cksum` is the one's-complement sum of the buffer's words. -/
theorem rteRawCksum_toNat (b : List UInt8) (buf : ℕ) {len : ℕ} (hlen : len ≤ 2 ^ 16) :
    (rteRawCksum b buf len).toNat = sum (cksumWords b buf len) := by
  have hbound : (cksumWords b buf len).sum < 2 ^ 32 := by
    have h1 := list_sum_le (@cksumWords_le b buf len)
    have h2 := length_cksumWords b buf len
    have h3 : (cksumWords b buf len).length * modulus ≤ (len / 2 + 1) * modulus :=
      Nat.mul_le_mul_right _ h2
    unfold modulus at h1 h3
    omega
  rw [rteRawCksum, rawCksumReduce_toNat, rawCksum_eq, UInt32.zero_add, UInt32.toNat_ofNat',
    Nat.mod_eq_of_lt hbound, fold_fold_sum cksumWords_le hbound]

theorem cksumWords_twenty (b : List UInt8) (hdr : ℕ) : cksumWords b hdr ipv4HdrSize = leWords b hdr 10 := by
  simp [cksumWords, ipv4HdrSize]

/-- `rte_ipv4_cksum` as a number: the complement of the one's-complement
sum of the ten header words, or `0xffff` when that sum is `0xffff`. -/
theorem rteIpv4Cksum_toNat (b : List UInt8) (hdr : ℕ) :
    (rteIpv4Cksum b hdr).toNat =
      if sum (leWords b hdr 10) = modulus then modulus else modulus - sum (leWords b hdr 10) := by
  have hr := rteRawCksum_toNat b hdr (show ipv4HdrSize ≤ 2 ^ 16 by decide)
  rw [cksumWords_twenty] at hr
  unfold rteIpv4Cksum
  by_cases hm : rteRawCksum b hdr ipv4HdrSize = 0xffff
  · have : sum (leWords b hdr 10) = modulus := by rw [← hr, hm]; rfl
    rw [if_pos hm, if_pos this, hm]
    rfl
  · have hne : sum (leWords b hdr 10) ≠ modulus := fun h => hm (UInt16.toNat_inj.mp (by rw [hr, h]; rfl))
    rw [if_neg hm, if_neg hne, UInt16.toNat_not, hr]
    rfl

/-- A value is what `rte_ipv4_cksum` computes for a header exactly when it is
not `0` and completes the header's plain word sum to a multiple of `0xffff`. -/
theorem rteIpv4Cksum_eq_iff (b : List UInt8) (hdr : ℕ) (c : UInt16) :
    rteIpv4Cksum b hdr = c ↔ ((leWords b hdr 10).sum + c.toNat) % modulus = 0 ∧ c ≠ 0 := by
  have hle : sum (leWords b hdr 10) ≤ modulus := sum_le leWords_le_modulus
  have hmod : sum (leWords b hdr 10) % modulus = (leWords b hdr 10).sum % modulus := sum_mod
  have hc := c.toNat_lt
  have hc0 : c ≠ 0 ↔ c.toNat ≠ 0 := by
    rw [Ne, Ne, ← UInt16.toNat_inj]
    rfl
  rw [← UInt16.toNat_inj, rteIpv4Cksum_toNat, hc0]
  unfold modulus at *
  split_ifs with hs <;> omega

theorem beWords_eq_map_swap (b : List UInt8) (i n : ℕ) : beWords b i n = (leWords b i n).map swap := by
  simp only [beWords, leWords, List.map_map]
  apply List.map_congr_left
  intro k _
  have h0 := (load8 b (i + 2 * k)).toNat_lt
  have h1 := (load8 b (i + 2 * k + 1)).toNat_lt
  simp only [Function.comp_apply, toNat_loadBE16, toNat_loadLE16, swap]
  omega

/-- The RFC 1071 check, on the words as the host reads them. -/
theorem hdrCksumOk_iff (b : List UInt8) (hdr len : ℕ) :
    HdrCksumOk b hdr len ↔ sum (leWords b hdr (len / 2)) = modulus := by
  rw [HdrCksumOk, beWords_eq_map_swap, sum_map_swap_eq_modulus_iff fun w hw => leWords_lt hw]

/-! Ethernet addresses. -/

@[simp]
theorem length_storeEtherAddr (b : List UInt8) (i : ℕ) (a : EtherAddr) :
    (storeEtherAddr b i a).length = b.length :=
  length_storeBytes _ _ _

theorem loadEtherAddr_storeEtherAddr_self {b : List UInt8} {i : ℕ} (hb : i + etherAddrLen ≤ b.length)
    (a : EtherAddr) : loadEtherAddr (storeEtherAddr b i a) i = a := by
  obtain ⟨v⟩ := a
  rw [loadEtherAddr]
  congr 1
  ext k hk
  rw [Vector.getElem_ofFn, storeEtherAddr,
    load8_storeBytes_self (by simpa using hk) (by unfold etherAddrLen at hb; omega)]
  simp

theorem load8_storeEtherAddr_of_le {b : List UInt8} {i k : ℕ} (a : EtherAddr) (h : i + etherAddrLen ≤ k) :
    load8 (storeEtherAddr b i a) k = load8 b k :=
  load8_storeBytes_of_le (by simpa [etherAddrLen] using h)

theorem leWords_storeEtherAddr_of_le {b : List UInt8} {i j : ℕ} (n : ℕ) (a : EtherAddr)
    (h : i + etherAddrLen ≤ j) : leWords (storeEtherAddr b i a) j n = leWords b j n :=
  leWords_storeBytes_of_disjoint (Or.inr (by simpa [etherAddrLen] using h))

theorem readsWithin_loadEtherAddr : ReadsWithin loadEtherAddr etherAddrLen := by
  intro b b' j h
  unfold loadEtherAddr
  congr 2
  funext k
  exact h k (by unfold etherAddrLen; omega)

end DpdkRouter.Rte
