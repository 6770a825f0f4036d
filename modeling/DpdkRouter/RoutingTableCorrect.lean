import DpdkRouter.RoutingTableBuild
import DpdkRouter.Bits

/-!
Longest-prefix-match correctness of the DIR-24-8 table. The index ranges
computed by `_build_route_lte_24` and `_build_route_gt_24` are exactly the
addresses a route covers, so each iteration of the route loop of
`build_routing_table` offers route `k` to the slots it covers; by induction
over the routes the table then answers every address with
`PrefixMatch.bestMatch`, the longest covering prefix and the last one among
equals. The one exception is a prefix-0 route whose address has a nonzero
low byte: there `ip >> 32` keeps `ip`, `min_index` lands past the end of
`tbl24_table`, and the build leaves the array.
-/

namespace DpdkRouter.RoutingTable

open ForLoop PrefixMatch Bits

/-! Index arithmetic of the builders. -/

theorem toNat_32_sub (p : UInt8) (hp : p.toNat ≤ 32) :
    ((32 : UInt32) - p.toUInt32).toNat = 32 - p.toNat := by
  rw [UInt32.toNat_sub_of_le]
  · simp
  · rw [UInt32.le_iff_toNat_le]
    simpa using hp

theorem toNat_24_sub (p : UInt8) (hp : p.toNat ≤ 24) :
    ((24 : UInt32) - p.toUInt32).toNat = 24 - p.toNat := by
  rw [UInt32.toNat_sub_of_le]
  · simp
  · rw [UInt32.le_iff_toNat_le]
    simpa using hp

section Ranges

variable (info : NextHopInfo)

theorem lte24MinIndex_toNat_of_pos (h0 : 0 < info.prefixLen.toNat)
    (h24 : info.prefixLen.toNat ≤ tblPrefixLen) :
    (lte24MinIndex info).toNat =
      info.ipAddr.toNat / 2 ^ (32 - info.prefixLen.toNat) * 2 ^ (24 - info.prefixLen.toNat) := by
  simp only [tblPrefixLen] at h24
  have hip := info.ipAddr.toNat_lt
  have hq : info.ipAddr.toNat / 2 ^ (32 - info.prefixLen.toNat) < 2 ^ info.prefixLen.toNat := by
    apply Nat.div_lt_of_lt_mul
    rw [← Nat.pow_add, show 32 - info.prefixLen.toNat + info.prefixLen.toNat = 32 by omega]
    exact hip
  have hlt : info.ipAddr.toNat / 2 ^ (32 - info.prefixLen.toNat) * 2 ^ (24 - info.prefixLen.toNat) <
      2 ^ 32 := by
    calc _ < 2 ^ info.prefixLen.toNat * 2 ^ (24 - info.prefixLen.toNat) :=
          Nat.mul_lt_mul_of_pos_right hq (Nat.two_pow_pos _)
      _ = 2 ^ 24 := by rw [← Nat.pow_add]; congr 1; omega
      _ < 2 ^ 32 := by norm_num
  unfold lte24MinIndex
  rw [UInt32.toNat_shiftLeft, UInt32.toNat_shiftRight, toNat_32_sub _ (by omega),
    toNat_24_sub _ h24, Nat.mod_eq_of_lt (show 32 - info.prefixLen.toNat < 32 by omega),
    Nat.mod_eq_of_lt (show 24 - info.prefixLen.toNat < 32 by omega), Nat.shiftRight_eq_div_pow,
    Nat.shiftLeft_eq, Nat.mod_eq_of_lt hlt]

/-- At prefix 0 the shift by 32 keeps the address (the count is taken modulo
32), so `min_index` is the low byte of the address moved to the top. -/
theorem lte24MinIndex_toNat_zero (h0 : info.prefixLen.toNat = 0) :
    (lte24MinIndex info).toNat = info.ipAddr.toNat % 2 ^ 8 * 2 ^ 24 := by
  unfold lte24MinIndex
  rw [UInt32.toNat_shiftLeft, UInt32.toNat_shiftRight, toNat_32_sub _ (by omega),
    toNat_24_sub _ (by omega), h0]
  simp only [Nat.sub_zero, Nat.mod_self, Nat.shiftRight_zero, Nat.shiftLeft_eq]
  rw [show (2 : ℕ) ^ 32 = 2 ^ 8 * 2 ^ 24 by norm_num, Nat.mul_mod_mul_right]

theorem lte24MaxIndex_toNat (h24 : info.prefixLen.toNat ≤ tblPrefixLen) {x : ℕ}
    (hx : (lte24MinIndex info).toNat = x * 2 ^ (24 - info.prefixLen.toNat)) :
    (lte24MaxIndex info).toNat =
      x * 2 ^ (24 - info.prefixLen.toNat) + (2 ^ (24 - info.prefixLen.toNat) - 1) := by
  simp only [tblPrefixLen] at h24
  unfold lte24MaxIndex
  rw [UInt32.toNat_or, hx, toNat_low_mask _ (by rw [toNat_24_sub _ h24]; omega),
    toNat_24_sub _ h24, mul_two_pow_or]

theorem gt24MinI_toNat (h25 : tblPrefixLen < info.prefixLen.toNat)
    (h32 : info.prefixLen.toNat ≤ 32) :
    (gt24MinI info).toNat =
      info.ipAddr.toNat % 2 ^ 8 / 2 ^ (32 - info.prefixLen.toNat) *
        2 ^ (32 - info.prefixLen.toNat) := by
  simp only [tblPrefixLen] at h25
  have hlow : (info.ipAddr &&& (((1 : UInt32) <<< (32 - 24 : UInt32)) - 1)).toNat =
      info.ipAddr.toNat % 2 ^ 8 := by
    have h255 : (((1 : UInt32) <<< (32 - 24 : UInt32)) - 1) = 2 ^ 8 - 1 := by decide
    rw [h255, UInt32.toNat_and]
    exact Nat.and_two_pow_sub_one_eq_mod _ 8
  have hmask : (~~~(((1 : UInt32) <<< (32 - info.prefixLen.toUInt32)) - 1)).toNat =
      (2 ^ (32 - (32 - info.prefixLen.toNat)) - 1) * 2 ^ (32 - info.prefixLen.toNat) := by
    rw [UInt32.toNat_not, toNat_low_mask _ (by rw [toNat_32_sub _ h32]; omega), toNat_32_sub _ h32,
      Nat.sub_one_mul, ← Nat.pow_add, show 32 - (32 - info.prefixLen.toNat) +
        (32 - info.prefixLen.toNat) = 32 by omega]
    have h₁ : 1 ≤ 2 ^ (32 - info.prefixLen.toNat) := Nat.one_le_two_pow
    have h₂ : 2 ^ (32 - info.prefixLen.toNat) ≤ 2 ^ 32 :=
      Nat.pow_le_pow_right (by norm_num) (by omega)
    simp only [UInt32.size]
    omega
  unfold gt24MinI
  rw [UInt32.toNat_and, hlow, hmask]
  exact and_high_mask (by omega) (by omega)

theorem gt24MaxI_toNat (h25 : tblPrefixLen < info.prefixLen.toNat)
    (h32 : info.prefixLen.toNat ≤ 32) :
    (gt24MaxI info).toNat = (gt24MinI info).toNat + (2 ^ (32 - info.prefixLen.toNat) - 1) := by
  simp only [tblPrefixLen] at h25
  unfold gt24MaxI
  rw [UInt32.toNat_or, gt24MinI_toNat info (by simpa [tblPrefixLen] using h25) h32,
    toNat_low_mask _ (by rw [toNat_32_sub _ h32]; omega), toNat_32_sub _ h32, mul_two_pow_or]

end Ranges

theorem lte24MinIndex_toNat (info : NextHopInfo) (h24 : info.prefixLen.toNat ≤ tblPrefixLen)
    (hzero : info.prefixLen.toNat = 0 → info.ipAddr.toNat % 2 ^ 8 = 0) :
    (lte24MinIndex info).toNat =
      info.ipAddr.toNat / 2 ^ (32 - info.prefixLen.toNat) * 2 ^ (24 - info.prefixLen.toNat) := by
  rcases Nat.eq_zero_or_pos info.prefixLen.toNat with h0 | h0
  · have hdiv : info.ipAddr.toNat / 2 ^ 32 = 0 := Nat.div_eq_of_lt info.ipAddr.toNat_lt
    rw [lte24MinIndex_toNat_zero info h0, hzero h0, h0, Nat.sub_zero, hdiv]
  · exact lte24MinIndex_toNat_of_pos info h0 h24

/-- Route `info` covers address `a`: their top `prefix` bits agree. -/
def RouteHit (info : NextHopInfo) (a : ℕ) : Prop :=
  Matches 32 info.prefixLen.toNat info.ipAddr.toNat a

theorem div_two_pow_eight {idx lo : ℕ} (hlo : lo < 256) : (idx * 256 + lo) / 2 ^ 8 = idx := by
  rw [show (2 : ℕ) ^ 8 = 256 by norm_num]
  omega

theorem mod_two_pow_eight {idx lo : ℕ} (hlo : lo < 256) : (idx * 256 + lo) % 2 ^ 8 = lo := by
  rw [show (2 : ℕ) ^ 8 = 256 by norm_num]
  omega

/-- A route of prefix at most 24 covers whole `/24` indices, those of one
aligned block of `2 ^ (24 - prefix)` indices. -/
theorem routeHit_lte24 (info : NextHopInfo) (h24 : info.prefixLen.toNat ≤ tblPrefixLen)
    {idx lo : ℕ} (hlo : lo < 256) :
    RouteHit info (idx * 256 + lo) ↔
      info.ipAddr.toNat / 2 ^ (32 - info.prefixLen.toNat) * 2 ^ (24 - info.prefixLen.toNat) ≤ idx ∧
        idx ≤ info.ipAddr.toNat / 2 ^ (32 - info.prefixLen.toNat) * 2 ^ (24 - info.prefixLen.toNat) +
          (2 ^ (24 - info.prefixLen.toNat) - 1) := by
  simp only [tblPrefixLen] at h24
  have hdiv : info.ipAddr.toNat / 2 ^ 8 / 2 ^ (32 - 8 - info.prefixLen.toNat) =
      info.ipAddr.toNat / 2 ^ (32 - info.prefixLen.toNat) := by
    rw [Nat.div_div_eq_div_mul, ← Nat.pow_add, show 8 + (32 - 8 - info.prefixLen.toNat) =
      32 - info.prefixLen.toNat by omega]
  have hpos : 1 ≤ 2 ^ (24 - info.prefixLen.toNat) := Nat.one_le_two_pow
  unfold RouteHit
  rw [matches_high (show info.prefixLen.toNat + 8 ≤ 32 by omega), div_two_pow_eight hlo,
    matches_iff_range, hdiv, show 32 - 8 - info.prefixLen.toNat = 24 - info.prefixLen.toNat by omega]
  omega

/-- A route of prefix above 24 covers one `/24` index, and there the low
bytes of one aligned block of `2 ^ (32 - prefix)` values. -/
theorem routeHit_gt24 (info : NextHopInfo) (h25 : tblPrefixLen < info.prefixLen.toNat)
    (h32 : info.prefixLen.toNat ≤ 32) {idx lo : ℕ} (hlo : lo < 256) :
    RouteHit info (idx * 256 + lo) ↔
      idx = info.ipAddr.toNat / 2 ^ 8 ∧
        info.ipAddr.toNat % 2 ^ 8 / 2 ^ (32 - info.prefixLen.toNat) *
          2 ^ (32 - info.prefixLen.toNat) ≤ lo ∧
        lo ≤ info.ipAddr.toNat % 2 ^ 8 / 2 ^ (32 - info.prefixLen.toNat) *
          2 ^ (32 - info.prefixLen.toNat) + (2 ^ (32 - info.prefixLen.toNat) - 1) := by
  simp only [tblPrefixLen] at h25
  have hpos : 1 ≤ 2 ^ (32 - info.prefixLen.toNat) := Nat.one_le_two_pow
  unfold RouteHit
  rw [matches_low (show 32 - info.prefixLen.toNat ≤ 8 by omega) (by norm_num),
    div_two_pow_eight hlo, mod_two_pow_eight hlo, matches_iff_range,
    show 8 - (info.prefixLen.toNat - (32 - 8)) = 32 - info.prefixLen.toNat by omega]
  omega

/-- The indices `min_index..max_index` of a route of prefix at most 24 stay
inside `tbl24_table`. -/
theorem lte24_max_lt (info : NextHopInfo) (h24 : info.prefixLen.toNat ≤ tblPrefixLen) :
    info.ipAddr.toNat / 2 ^ (32 - info.prefixLen.toNat) * 2 ^ (24 - info.prefixLen.toNat) +
      (2 ^ (24 - info.prefixLen.toNat) - 1) < tbl24TableSize := by
  simp only [tblPrefixLen] at h24
  have hq : info.ipAddr.toNat / 2 ^ (32 - info.prefixLen.toNat) + 1 ≤ 2 ^ info.prefixLen.toNat := by
    apply Nat.div_lt_of_lt_mul
    rw [← Nat.pow_add, show 32 - info.prefixLen.toNat + info.prefixLen.toNat = 32 by omega]
    exact info.ipAddr.toNat_lt
  have hm : (info.ipAddr.toNat / 2 ^ (32 - info.prefixLen.toNat) + 1) *
      2 ^ (24 - info.prefixLen.toNat) ≤ 2 ^ 24 := by
    calc _ ≤ 2 ^ info.prefixLen.toNat * 2 ^ (24 - info.prefixLen.toNat) :=
          Nat.mul_le_mul_right _ hq
      _ = 2 ^ 24 := by rw [← Nat.pow_add]; congr 1; omega
  have hpos : 1 ≤ 2 ^ (24 - info.prefixLen.toNat) := Nat.one_le_two_pow
  simp only [tbl24TableSize, tblPrefixLen, Nat.add_mul, Nat.one_mul] at hm ⊢
  omega

/-- One iteration of the route loop of `build_routing_table` offers route
`k` to exactly the slots of the addresses it covers. -/
theorem buildRoute_spec {t : Tables} (hwf : Wf t) {k : ℕ} (hk : k < invalidNhId)
    (huse : (t.nhIdToInfo k).inUse) (h32 : t.len k ≤ 32)
    (hzero : t.len k = 0 → (t.nhIdToInfo k).ipAddr.toNat % 2 ^ 8 = 0)
    (hcap : t.tbllongTableIdx < tbllongTableSize) :
    ∃ t', buildRoute k t = .ok t' ∧ Wf t' ∧ t'.tbllongTableIdx ≤ t.tbllongTableIdx + 1 ∧
      t'.nhIdToInfo = t.nhIdToInfo ∧
      Offered t t' k (fun idx lo => RouteHit (t.nhIdToInfo k) (idx * 256 + lo)) := by
  unfold buildRoute
  simp only [huse, Bool.not_true, Bool.false_eq_true, if_false]
  by_cases h24 : (t.nhIdToInfo k).prefixLen.toNat ≤ tblPrefixLen
  · rw [if_pos h24]
    have hmin := lte24MinIndex_toNat (t.nhIdToInfo k) h24 hzero
    have hmax := lte24MaxIndex_toNat (t.nhIdToInfo k) h24 hmin
    obtain ⟨t', hrun, hwf', hidx', hinfo', hoff⟩ :=
      buildRouteLte24_spec hwf hk h24 (by rw [hmax]; exact lte24_max_lt _ h24)
    refine ⟨t', hrun, hwf', by omega, hinfo', hoff.congr ?_⟩
    intro idx lo hlo
    rw [routeHit_lte24 _ h24 hlo, hmin, hmax]
  · rw [if_neg h24]
    have h25 : tblPrefixLen < (t.nhIdToInfo k).prefixLen.toNat := by omega
    obtain ⟨t', hrun, hwf', hidx', hinfo', hoff⟩ := buildRouteGt24_spec hwf hk h25 hcap
    refine ⟨t', hrun, hwf', hidx', hinfo', hoff.congr ?_⟩
    intro idx lo hlo
    have hidx : ((t.nhIdToInfo k).ipAddr >>> (32 - 24 : UInt32)).toNat =
        (t.nhIdToInfo k).ipAddr.toNat / 2 ^ 8 := by
      simp [UInt32.toNat_shiftRight, Nat.shiftRight_eq_div_pow]
    rw [routeHit_gt24 _ h25 h32 hlo, hidx, gt24MaxI_toNat _ h25 h32,
      gt24MinI_toNat _ h25 h32]
    omega

instance (info : NextHopInfo) (a : ℕ) : Decidable (RouteHit info a) :=
  inferInstanceAs (Decidable (Matches _ _ _ _))

/-- Slot `j` of `nh_id_to_info` holds a route that covers address `a`. -/
def Covers (info : ℕ → NextHopInfo) (a j : ℕ) : Prop :=
  (info j).inUse = true ∧ RouteHit (info j) a

instance (info : ℕ → NextHopInfo) (a : ℕ) : DecidablePred (Covers info a) :=
  fun _ => inferInstanceAs (Decidable (_ ∧ _))

theorem buildRoute_of_not_inUse (t : Tables) {k : ℕ} (h : (t.nhIdToInfo k).inUse = false) :
    buildRoute k t = .ok t := by
  simp [buildRoute, h]

/-- What the route loop of `build_routing_table` keeps after routes
`0, ..., i - 1`: every slot answers with the best of them. -/
structure RunInv (info : ℕ → NextHopInfo) (i : ℕ) (s : Tables) : Prop where
  wf : Wf s
  idx_le : s.tbllongTableIdx ≤ i
  info_eq : s.nhIdToInfo = info
  slot_eq : ∀ idx lo, lo < tbllongEntrySize →
    s.slot idx lo = bestMatch s.len (Covers info (idx * 256 + lo)) i

/-- One iteration of the route loop keeps `RunInv`, for a route whose
prefix is at most 32 and, at prefix 0, whose address has a zero low byte. -/
theorem runInv_step {info : ℕ → NextHopInfo} {k : ℕ} {s : Tables} (hs : RunInv info k s)
    (hk : k < invalidNhId) (h32 : (info k).prefixLen.toNat ≤ 32)
    (hzero : (info k).prefixLen.toNat = 0 → (info k).ipAddr.toNat % 2 ^ 8 = 0) :
    ∃ s', buildRoute k s = .ok s' ∧ RunInv info (k + 1) s' := by
  obtain ⟨hwf, hidx, rfl, hslot⟩ := hs
  cases huse : (s.nhIdToInfo k).inUse with
  | false =>
    refine ⟨s, buildRoute_of_not_inUse s huse, hwf, by omega, rfl, fun idx lo hlo => ?_⟩
    rw [hslot idx lo hlo, bestMatch_succ, if_neg (fun h => by simp [Covers, huse] at h)]
  | true =>
    have hcap : s.tbllongTableIdx < tbllongTableSize := by
      simp only [invalidNhId, nhIdToInfoSize, tbllongTableSize] at hk ⊢
      omega
    obtain ⟨s', hrun, hwf', hidx', hinfo', hoff⟩ := buildRoute_spec hwf hk huse h32 hzero hcap
    refine ⟨s', hrun, hwf', by omega, hinfo', fun idx lo hlo => ?_⟩
    obtain ⟨hin, hout⟩ := hoff idx lo hlo
    rw [len_eq_of_nhIdToInfo hinfo', bestMatch_succ]
    by_cases hhit : RouteHit (s.nhIdToInfo k) (idx * 256 + lo)
    · rw [hin hhit, hslot idx lo hlo, if_pos ⟨huse, hhit⟩]
    · rw [hout hhit, hslot idx lo hlo, if_neg (fun h => hhit h.2)]

/-- The route loop of `build_routing_table` from the reset tables: after
routes `0, ..., n - 1` every slot answers with the best route covering its
addresses. -/
theorem forRange_buildRoute {t : Tables} (hwf : Wf t) (hidx : t.tbllongTableIdx = 0)
    (hnone : ∀ idx lo, t.slot idx lo = none) {n : ℕ} (hn : n ≤ invalidNhId)
    (h32 : ∀ k < n, t.len k ≤ 32)
    (hzero : ∀ k < n, t.len k = 0 → (t.nhIdToInfo k).ipAddr.toNat % 2 ^ 8 = 0) :
    ∃ t', forRange buildRoute 0 n t = .ok t' ∧ RunInv t.nhIdToInfo n t' := by
  have hinit : RunInv t.nhIdToInfo 0 t :=
    ⟨hwf, by omega, rfl, fun idx lo _ => by rw [hnone, bestMatch_zero]⟩
  have hstep : ∀ k s, 0 ≤ k → k < 0 + n → RunInv t.nhIdToInfo k s →
      ∃ s', buildRoute k s = .ok s' ∧ RunInv t.nhIdToInfo (k + 1) s' :=
    fun k s _ hk hs => runInv_step hs (by omega) (h32 k (by omega)) (hzero k (by omega))
  simpa using forRange_inv (RunInv t.nhIdToInfo) hstep hinit

theorem invalidEntry_nextId : invalidEntry.nextId.toNat = invalidNhId := by decide

/-- The tables as the two reset loops of `build_routing_table` leave them. -/
theorem wf_reset (t : Tables) :
    Wf { t with
      tbllongTableIdx := 0
      tbl24Table := fun _ => invalidEntry
      tbllongTable := fun _ _ => invalidNhId } where
  long_lt _ h := absurd h Bool.false_ne_true
  long_inj _ _ h := absurd h Bool.false_ne_true
  fresh _ _ _ := rfl
  short_le _ _ h := absurd invalidEntry_nextId h
  idx_le := Nat.zero_le _

theorem slot_reset (t : Tables) (idx lo : ℕ) :
    Tables.slot { t with
      tbllongTableIdx := 0
      tbl24Table := fun _ => invalidEntry
      tbllongTable := fun _ _ => invalidNhId } idx lo = none := by
  simp [Tables.slot, invalidEntry_nextId, ofId, show invalidEntry.isLong = false from rfl]

/-- `build_routing_table` followed by `get_next_hop`: the table answers every
address with the longest route covering it, the last one among equally long
routes, or with no route when none covers it. -/
theorem getNextHop_buildRoutingTable (t : Tables) (hn : t.nhIdToInfoIdx ≤ invalidNhId)
    (h32 : ∀ k < t.nhIdToInfoIdx, t.len k ≤ 32)
    (hzero : ∀ k < t.nhIdToInfoIdx, t.len k = 0 → (t.nhIdToInfo k).ipAddr.toNat % 2 ^ 8 = 0) :
    ∃ t', buildRoutingTable t = .ok t' ∧ t'.nhIdToInfo = t.nhIdToInfo ∧ t'.nhIdToInfoIdx = 0 ∧
      ∀ a : UInt32,
        getNextHop t' a = bestMatch t.len (Covers t.nhIdToInfo a.toNat) t.nhIdToInfoIdx := by
  obtain ⟨t', hrun, hinv⟩ := forRange_buildRoute (wf_reset t) rfl (slot_reset t) hn h32 hzero
  refine ⟨{ t' with nhIdToInfoIdx := 0 }, by simp [buildRoutingTable, hrun], hinv.info_eq, rfl,
    fun a => ?_⟩
  have hlo : a.toNat % 256 < tbllongEntrySize := by
    simp only [tbllongEntrySize, tblPrefixLen]
    omega
  rw [getNextHop_eq_slot]
  change t'.slot _ _ = _
  rw [hinv.slot_eq _ _ hlo, len_eq_of_nhIdToInfo hinv.info_eq, Nat.div_add_mod' a.toNat 256]
  rfl

/-- A prefix-0 route whose address has a nonzero low byte: `min_index` is
that byte moved to the top, at least `2 ^ 24`, so the first iteration of
`_build_route_lte_24` indexes past the end of `tbl24_table`. -/
theorem buildRoute_prefix_zero_faults (t : Tables) {k : ℕ} (huse : (t.nhIdToInfo k).inUse)
    (h0 : t.len k = 0) (hlow : (t.nhIdToInfo k).ipAddr.toNat % 2 ^ 8 ≠ 0) :
    buildRoute k t = .error .outOfBounds := by
  have h0' : (t.nhIdToInfo k).prefixLen.toNat = 0 := h0
  have hmin := lte24MinIndex_toNat_zero (t.nhIdToInfo k) h0'
  have hmax := lte24MaxIndex_toNat (t.nhIdToInfo k) (by simp [h0', tblPrefixLen])
    (by rw [hmin, h0'])
  rw [h0'] at hmax
  have hbig : tbl24TableSize ≤ (lte24MinIndex (t.nhIdToInfo k)).toNat := by
    rw [hmin, tbl24TableSize, tblPrefixLen]
    exact Nat.le_mul_of_pos_left _ (Nat.pos_of_ne_zero hlow)
  obtain ⟨m, hm⟩ : ∃ m, (lte24MaxIndex (t.nhIdToInfo k)).toNat + 1 -
      (lte24MinIndex (t.nhIdToInfo k)).toNat = m + 1 := ⟨2 ^ 24 - 1, by rw [hmax, hmin]; omega⟩
  have hfirst : buildRouteLte24Idx t k (lte24MinIndex (t.nhIdToInfo k)).toNat = .error .outOfBounds :=
    buildRouteLte24Idx_of_ge (by omega)
  simp only [buildRoute, huse, Bool.not_true, Bool.false_eq_true, if_false, h0', Nat.zero_le,
    if_true, buildRouteLte24]
  rw [hm, forRange_succ_of_error hfirst]

/-! The routes as `add_route` receives them. -/

/-- The arguments of one `add_route` call. -/
structure RouteArgs where
  ipAddr : UInt32
  prefixLen : UInt8
  macAddr : EtherAddr
  port : UInt8
  deriving DecidableEq, Repr

/-- The slot `add_route` fills for `r`, its prefix clamped to 32. -/
def RouteArgs.info (r : RouteArgs) : NextHopInfo where
  ipAddr := r.ipAddr
  prefixLen := if r.prefixLen ≤ 32 then r.prefixLen else 32
  nextHop := ⟨r.macAddr, r.port⟩
  inUse := true

/-- `add_route` called once per route, in order. -/
def addRoutes (t : Tables) : List RouteArgs → Except Fault Tables
  | [] => .ok t
  | r :: rs => (addRoute t r.ipAddr r.prefixLen r.macAddr r.port).bind (addRoutes · rs)

theorem RouteArgs.info_prefixLen_le (r : RouteArgs) : r.info.prefixLen.toNat ≤ 32 := by
  by_cases h : r.prefixLen ≤ 32
  · simp only [RouteArgs.info, if_pos h]
    exact UInt8.le_iff_toNat_le.mp h
  · simp [RouteArgs.info, h]

theorem addRoute_of_lt (t : Tables) (r : RouteArgs) (h : t.nhIdToInfoIdx < invalidNhId) :
    addRoute t r.ipAddr r.prefixLen r.macAddr r.port = .ok { t with
      nhIdToInfo := Function.update t.nhIdToInfo t.nhIdToInfoIdx r.info
      nhIdToInfoIdx := t.nhIdToInfoIdx + 1 } := by
  rw [addRoute, if_neg (by omega)]
  rfl

/-- `add_route` succeeds exactly while a slot is free, and then fills the
next one. -/
theorem addRoute_eq_ok {t t' : Tables} {ip : UInt32} {pfx : UInt8} {mac : EtherAddr} {port : UInt8}
    (h : addRoute t ip pfx mac port = .ok t') :
    t.nhIdToInfoIdx < invalidNhId ∧ t' = { t with
      nhIdToInfo := Function.update t.nhIdToInfo t.nhIdToInfoIdx
        ⟨ip, if pfx ≤ 32 then pfx else 32, ⟨mac, port⟩, true⟩
      nhIdToInfoIdx := t.nhIdToInfoIdx + 1 } := by
  unfold addRoute at h
  by_cases hfull : t.nhIdToInfoIdx ≥ invalidNhId
  · rw [if_pos hfull] at h
    cases h
  · rw [if_neg hfull] at h
    cases h
    exact ⟨by omega, rfl⟩

/-- A run of `add_route` calls that succeeds leaves both tables as they
were, fills the slots from the counter on in order, and leaves every other
slot alone. -/
theorem addRoutes_eq_ok : ∀ {rs : List RouteArgs} {t t' : Tables}, addRoutes t rs = .ok t' →
    t'.nhIdToInfoIdx = t.nhIdToInfoIdx + rs.length ∧
      t'.tbl24Table = t.tbl24Table ∧ t'.tbllongTable = t.tbllongTable ∧
      (∀ j, j < t.nhIdToInfoIdx ∨ t.nhIdToInfoIdx + rs.length ≤ j → t'.nhIdToInfo j = t.nhIdToInfo j) ∧
      ∀ i (hi : i < rs.length), t'.nhIdToInfo (t.nhIdToInfoIdx + i) = rs[i].info
  | [], t, t', h => by
    cases h
    exact ⟨rfl, rfl, rfl, fun _ _ => rfl,
      fun _ hi => absurd hi (Nat.not_lt_zero _)⟩
  | r :: rs, t, t', h => by
    obtain ⟨t₁, h₁, hrun⟩ := bind_eq_ok h
    obtain ⟨-, rfl⟩ := addRoute_eq_ok h₁
    obtain ⟨hidx, h24, hlong, hkeep, hnew⟩ := addRoutes_eq_ok hrun
    simp only at hidx h24 hlong hkeep hnew
    refine ⟨by simp only [List.length_cons]; omega, h24, hlong, fun j hj => ?_, fun i hi => ?_⟩
    · -- slots outside the run: neither this call nor the rest writes them
      simp only [List.length_cons] at hj
      rw [hkeep j (by omega), Function.update_of_ne (by omega)]
    · cases i with
      | zero =>
        rw [Nat.add_zero, hkeep _ (by omega), Function.update_self]
        rfl
      | succ i =>
        rw [show t.nhIdToInfoIdx + (i + 1) = t.nhIdToInfoIdx + 1 + i by omega]
        exact hnew i (by simpa using hi)

/-- While there is room, a run of `add_route` calls succeeds. -/
theorem addRoutes_ok : ∀ (rs : List RouteArgs) (t : Tables),
    t.nhIdToInfoIdx + rs.length ≤ invalidNhId → ∃ t', addRoutes t rs = .ok t'
  | [], t, _ => ⟨t, rfl⟩
  | r :: rs, t, hroom => by
    simp only [List.length_cons] at hroom
    obtain ⟨t', hrun⟩ := addRoutes_ok rs { t with
      nhIdToInfo := Function.update t.nhIdToInfo t.nhIdToInfoIdx r.info
      nhIdToInfoIdx := t.nhIdToInfoIdx + 1 } (by simp only; omega)
    exact ⟨t', by rw [addRoutes, addRoute_of_lt t r (by omega)]; exact hrun⟩

/-- While there is room, the routes fill the next slots in order and leave
the earlier slots alone. -/
theorem addRoutes_spec (rs : List RouteArgs) (t : Tables) (hroom : t.nhIdToInfoIdx + rs.length ≤ invalidNhId) :
    ∃ t', addRoutes t rs = .ok t' ∧ t'.nhIdToInfoIdx = t.nhIdToInfoIdx + rs.length ∧
      (∀ j < t.nhIdToInfoIdx, t'.nhIdToInfo j = t.nhIdToInfo j) ∧
      ∀ i (hi : i < rs.length), t'.nhIdToInfo (t.nhIdToInfoIdx + i) = rs[i].info := by
  obtain ⟨t', hrun⟩ := addRoutes_ok rs t hroom
  obtain ⟨hidx, -, -, hkeep, hnew⟩ := addRoutes_eq_ok hrun
  exact ⟨t', hrun, hidx, fun j hj => hkeep j (.inl hj), hnew⟩

/-- Routes passed to `add_route` from program start and then built: slot
`k` holds route `k`, and `get_next_hop` answers every address with the
longest route covering it, the last one among equally long routes, or with
no route when none covers it; provided no prefix-0 route carries a nonzero
low address byte. -/
theorem getNextHop_addRoutes (rs : List RouteArgs) (hlen : rs.length ≤ invalidNhId)
    (hzero : ∀ r ∈ rs, r.info.prefixLen.toNat = 0 → r.ipAddr.toNat % 2 ^ 8 = 0) :
    ∃ t, (addRoutes Tables.init rs >>= buildRoutingTable) = .ok t ∧
      (∀ k (hk : k < rs.length), t.nhIdToInfo k = rs[k].info) ∧
      ∀ a : UInt32, getNextHop t a = bestMatch t.len (Covers t.nhIdToInfo a.toNat) rs.length := by
  obtain ⟨t₁, hadd, hidx, -, hinfo⟩ := addRoutes_spec rs Tables.init (by simpa [Tables.init] using hlen)
  simp only [Tables.init, Nat.zero_add] at hidx hinfo
  obtain ⟨t, hbuild, hinfo', -, hget⟩ := getNextHop_buildRoutingTable t₁ (by omega)
    (fun k hk => by rw [Tables.len, hinfo k (by omega)]; exact RouteArgs.info_prefixLen_le _)
    (fun k hk h0 => by
      rw [Tables.len, hinfo k (by omega)] at h0
      rw [hinfo k (by omega)]
      exact hzero _ (List.getElem_mem _) h0)
  refine ⟨t, by rw [hadd]; exact hbuild, fun k hk => by rw [hinfo']; exact hinfo k hk, fun a => ?_⟩
  rw [hget a, hidx, len_eq_of_nhIdToInfo hinfo', hinfo']

/-- `add_route(1.2.3.4, 0, ...)` and then `build_routing_table`: the prefix-0
route leaves `tbl24_table` at index `0x04000000`. -/
theorem buildRoutingTable_default_route_faults :
    (addRoutes Tables.init [⟨0x01020304, 0, EtherAddr.zero, 0⟩] >>= buildRoutingTable) =
      .error .outOfBounds := by
  rw [addRoutes, addRoute_of_lt _ _ (by decide)]
  simp only [addRoutes, Except.bind, ok_bind, buildRoutingTable]
  rw [forRange_succ_of_error (buildRoute_prefix_zero_faults _ rfl rfl (by decide))]
  rfl

end DpdkRouter.RoutingTable
