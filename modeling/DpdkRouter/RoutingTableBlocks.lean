import DpdkRouter.RoutingTableCorrect

/-!
The `tbllong` blocks of `build_routing_table`. A block is handed out only by
`_build_route_gt_24_idx`, for a route longer than 24 and a `tbl24` entry
that is not yet long, and a long entry is never overwritten. So after the
first `i` routes (`BlockInv`) every block handed out is named by one long
entry and holds one of those routes, `tbllong_table_idx` is at most the
number of routes longer than 24, and every stored id is the sentinel or one
of the first `i` routes. With at most 255 routes the exit of
`_build_route_gt_24_idx` is therefore never taken. The step lemmas return
an `Outcome`: a prefix-0 route with a nonzero low address byte makes
`_build_route_lte_24` leave `tbl24_table` (`buildRoute_prefix_zero_faults`),
and that fault is the only error of the build.
-/

namespace DpdkRouter.RoutingTable

open ForLoop

/-- Route `j` is one of the first `i`, in use, with a prefix longer than 24. -/
def LongRoute (info : ℕ → NextHopInfo) (i j : ℕ) : Prop :=
  j < i ∧ (info j).inUse = true ∧ tblPrefixLen < (info j).prefixLen.toNat

/-- How many of the first `n` routes are in use with a prefix longer than 24. -/
def longCount (info : ℕ → NextHopInfo) (n : ℕ) : ℕ :=
  ((List.range n).map info).countP fun x => x.inUse && decide (tblPrefixLen < x.prefixLen.toNat)

/-- The three forms of a `tbl24` entry after the first `n` routes: the
sentinel, a short entry naming one of them with a prefix of at most 24, or a
long entry naming a block handed out. -/
def EntryOk (s : Tables) (n : ℕ) (e : Tbl24Entry) : Prop :=
  e.val = invalidNhId ∨ (e.isLong = false ∧ e.nextId.toNat < n ∧ s.len e.nextId.toNat ≤ tblPrefixLen) ∨
    (e.isLong = true ∧ e.nextId.toNat < s.tbllongTableIdx)

/-- What the route loop keeps about the blocks after the first `i` routes,
with at most `c` blocks handed out. -/
structure BlockInv (info : ℕ → NextHopInfo) (i c : ℕ) (s : Tables) : Prop where
  wf : Wf s
  info_eq : s.nhIdToInfo = info
  idx_le : s.tbllongTableIdx ≤ c
  short_id : ∀ idx, (s.tbl24Table idx).isLong = false →
    (s.tbl24Table idx).nextId.toNat = invalidNhId ∨ (s.tbl24Table idx).nextId.toNat < i
  long_ref : ∀ b < s.tbllongTableIdx, ∃ idx,
    (s.tbl24Table idx).isLong ∧ (s.tbl24Table idx).nextId.toNat = b
  long_route : ∀ idx, (s.tbl24Table idx).isLong →
    ∃ lo < tbllongEntrySize, LongRoute info i (s.tbllongTable (s.tbl24Table idx).nextId.toNat lo)
  long_val : ∀ b lo, s.tbllongTable b lo = invalidNhId ∨ s.tbllongTable b lo < i

variable {info : ℕ → NextHopInfo} {i c k : ℕ} {s : Tables}

theorem LongRoute.mono {j i' : ℕ} (h : LongRoute info i j) (hi : i ≤ i') : LongRoute info i' j :=
  ⟨lt_of_lt_of_le h.1 hi, h.2.1, h.2.2⟩

theorem longCount_succ (info : ℕ → NextHopInfo) (n : ℕ) :
    longCount info (n + 1) = longCount info n +
      if (info n).inUse = true ∧ tblPrefixLen < (info n).prefixLen.toNat then 1 else 0 := by
  unfold longCount
  rw [List.range_succ, List.map_append, List.countP_append]
  by_cases h : (info n).inUse = true ∧ tblPrefixLen < (info n).prefixLen.toNat
  · simp [h]
  · rw [if_neg h]
    simp only [List.map_cons, List.map_nil, List.countP_singleton]
    rw [if_neg (by simpa using h)]

theorem longCount_le (info : ℕ → NextHopInfo) (n : ℕ) : longCount info n ≤ n := by
  unfold longCount
  calc _ ≤ ((List.range n).map info).length := List.countP_le_length
    _ = n := by simp

/-- Over the routes of `add_route`, all in use, the count is that of the
routes longer than 24. -/
theorem longCount_eq_countP (rs : List RouteArgs) (hinfo : ∀ k (hk : k < rs.length), info k = rs[k].info) :
    longCount info rs.length = rs.countP fun r => tblPrefixLen < r.info.prefixLen.toNat := by
  have hmap : (List.range rs.length).map info = rs.map RouteArgs.info := by
    apply List.ext_getElem (by simp)
    intro k h₁ _
    simp [hinfo k (by simpa using h₁)]
  rw [longCount, hmap, List.countP_map]
  congr 1

/-! The replacement rule on stored ids. -/

/-- `replaceId` stores the old id or the new one. -/
theorem replaceId_val {cur : ℕ} (hcur : cur = invalidNhId ∨ cur < i) (hk : k < i) :
    replaceId info cur k = invalidNhId ∨ replaceId info cur k < i := by
  unfold replaceId
  split_ifs
  · exact .inr hk
  · exact .inr hk
  · exact hcur

/-- A route longer than 24 is replaced only by a route at least as long. -/
theorem longRoute_replaceId {j : ℕ} (hj : LongRoute info i j) (hi : i ≤ invalidNhId) (hk : k < i)
    (huse : (info k).inUse) : LongRoute info i (replaceId info j k) := by
  have hne : j ≠ invalidNhId := by have := hj.1; omega
  unfold replaceId
  rw [if_neg hne]
  split_ifs with hle
  · exact ⟨hk, huse, lt_of_lt_of_le hj.2.2 (UInt8.le_iff_toNat_le.mp hle)⟩
  · exact hj

/-- ... and never by a route of prefix at most 24. -/
theorem replaceId_of_longRoute {j : ℕ} (hj : LongRoute info i j) (hi : i ≤ invalidNhId)
    (hk : (info k).prefixLen.toNat ≤ tblPrefixLen) : replaceId info j k = j := by
  have hne : j ≠ invalidNhId := by have := hj.1; omega
  unfold replaceId
  rw [if_neg hne, if_neg]
  intro hle
  have := UInt8.le_iff_toNat_le.mp hle
  have := hj.2.2
  omega

/-! The writes of the builders. -/

section FreshBlock

variable {idx lo n : ℕ}

@[simp] theorem freshBlock_tbl24Table_of_ne {idx' : ℕ} (h : idx' ≠ idx) :
    (freshBlock s k idx lo n).tbl24Table idx' = s.tbl24Table idx' := by
  simp [freshBlock, Function.update_of_ne h]

theorem freshBlock_tbllongTable (b j : ℕ) :
    (freshBlock s k idx lo n).tbllongTable b j =
      if b = s.tbllongTableIdx ∧ lo ≤ j ∧ j < lo + n then k else s.tbllongTable b j := by
  unfold freshBlock
  rw [mapLong_tbllongTable]
  rfl

end FreshBlock

/-- A long entry is not an entry that is not long. -/
theorem ne_of_isLong {f : ℕ → Tbl24Entry} {j idx : ℕ} (hl : (f j).isLong) (hnl : (f idx).isLong = false) :
    j ≠ idx := by
  rintro rfl
  rw [hnl] at hl
  exact Bool.false_ne_true hl

namespace BlockInv

theorem mono {i' c' : ℕ} (hs : BlockInv info i c s) (hi : i ≤ i') (hc : c ≤ c') : BlockInv info i' c' s where
  wf := hs.wf
  info_eq := hs.info_eq
  idx_le := hs.idx_le.trans hc
  short_id idx h := (hs.short_id idx h).imp_right fun h' => lt_of_lt_of_le h' hi
  long_ref := hs.long_ref
  long_route idx h := by
    obtain ⟨lo, hlo, hr⟩ := hs.long_route idx h
    exact ⟨lo, hlo, hr.mono hi⟩
  long_val b lo := (hs.long_val b lo).imp_right fun h' => lt_of_lt_of_le h' hi

/-- The counter of `nh_id_to_info` plays no part. -/
theorem set_nhIdToInfoIdx (hs : BlockInv info i c s) (m : ℕ) :
    BlockInv info i c { s with nhIdToInfoIdx := m } :=
  ⟨⟨hs.wf.long_lt, hs.wf.long_inj, hs.wf.fresh, hs.wf.short_le, hs.wf.idx_le⟩, hs.info_eq, hs.idx_le,
    hs.short_id, hs.long_ref, hs.long_route, hs.long_val⟩

/-- Writing a short entry over an entry that is not long. -/
theorem setTbl24_short (hs : BlockInv info i c s) {idx : ℕ} (hnl : (s.tbl24Table idx).isLong = false)
    (e : Tbl24Entry) (he : e.isLong = false) (hid : e.nextId.toNat = invalidNhId ∨ e.nextId.toNat < i)
    (hlen : e.nextId.toNat ≠ invalidNhId → s.len e.nextId.toNat ≤ tblPrefixLen) :
    BlockInv info i c (s.setTbl24 idx e) where
  wf := hs.wf.setTbl24_short idx e he hlen
  info_eq := hs.info_eq
  idx_le := hs.idx_le
  short_id idx' hshort := by
    by_cases h : idx' = idx
    · subst h
      simpa using hid
    · simp only [setTbl24_tbl24Table, Function.update_of_ne h] at hshort ⊢
      exact hs.short_id idx' hshort
  long_ref b hb := by
    obtain ⟨idx', hl, hb'⟩ := hs.long_ref b hb
    -- the entry naming `b` is long, so it is not the one written
    have hne := ne_of_isLong hl hnl
    refine ⟨idx', ?_, ?_⟩
    · rwa [setTbl24_tbl24Table, Function.update_of_ne hne]
    · rwa [setTbl24_tbl24Table, Function.update_of_ne hne]
  long_route idx' hl := by
    have hne : idx' ≠ idx := by
      rintro rfl
      simp [he] at hl
    simp only [setTbl24_tbl24Table, Function.update_of_ne hne, setTbl24_tbllongTable] at hl ⊢
    exact hs.long_route idx' hl
  long_val := hs.long_val

/-- Rewriting part of a block handed out, by a rule that stores ids and
keeps routes longer than 24. -/
theorem mapLong (hs : BlockInv info i c s) {b : ℕ} (hb : b < s.tbllongTableIdx) (lo n : ℕ) (g : ℕ → ℕ)
    (hval : ∀ v, v = invalidNhId ∨ v < i → g v = invalidNhId ∨ g v < i)
    (hroute : ∀ v, LongRoute info i v → LongRoute info i (g v)) :
    BlockInv info i c (s.mapLong b lo n g) where
  wf := hs.wf.mapLong hb lo n g
  info_eq := hs.info_eq
  idx_le := hs.idx_le
  short_id := hs.short_id
  long_ref := hs.long_ref
  long_route idx hl := by
    obtain ⟨lo', hlo', hr⟩ := hs.long_route idx hl
    refine ⟨lo', hlo', ?_⟩
    rw [mapLong_tbllongTable, mapLong_tbl24Table]
    split_ifs with h
    · rw [← h.1]
      exact hroute _ hr
    · exact hr
  long_val b' lo' := by
    rw [mapLong_tbllongTable]
    split_ifs
    · exact hval _ (hs.long_val b lo')
    · exact hs.long_val b' lo'

/-- Handing out the next block for an entry that is not long, filled with a
route longer than 24 on a range that is not empty. -/
theorem freshBlock (hs : BlockInv info i c s) {idx lo n : ℕ} (hcap : s.tbllongTableIdx < tbllongTableSize)
    (hnl : (s.tbl24Table idx).isLong = false) (hk : LongRoute info i k) (hlo : lo < tbllongEntrySize)
    (hn : 0 < n) : BlockInv info i (c + 1) (freshBlock s k idx lo n) where
  wf := hs.wf.freshBlock k idx lo n hcap hnl
  info_eq := hs.info_eq
  idx_le := by
    rw [freshBlock_tbllongTableIdx]
    exact Nat.add_le_add_right hs.idx_le 1
  short_id idx' hshort := by
    by_cases h : idx' = idx
    · subst h
      simp at hshort
    · rw [freshBlock_tbl24Table_of_ne h] at hshort ⊢
      exact hs.short_id idx' hshort
  long_ref b hb := by
    have hid : (BitVec.ofNat 15 s.tbllongTableIdx).toNat = s.tbllongTableIdx :=
      toNat_ofNat_of_lt_tbllong hcap
    rw [freshBlock_tbllongTableIdx] at hb
    rcases Nat.lt_succ_iff_lt_or_eq.mp hb with hb | rfl
    · -- an older block keeps the entry that names it, which is not `idx`
      obtain ⟨idx', hl, hb'⟩ := hs.long_ref b hb
      have hne := ne_of_isLong hl hnl
      exact ⟨idx', by rwa [freshBlock_tbl24Table_of_ne hne], by rwa [freshBlock_tbl24Table_of_ne hne]⟩
    · exact ⟨idx, by simp, by simp [hid]⟩
  long_route idx' hl := by
    have hid : (BitVec.ofNat 15 s.tbllongTableIdx).toNat = s.tbllongTableIdx :=
      toNat_ofNat_of_lt_tbllong hcap
    by_cases h : idx' = idx
    · subst h
      refine ⟨lo, hlo, ?_⟩
      rw [freshBlock_tbl24Table_self, freshBlock_tbllongTable, hid, if_pos ⟨rfl, le_rfl, by omega⟩]
      exact hk
    · rw [freshBlock_tbl24Table_of_ne h] at hl ⊢
      obtain ⟨lo', hlo', hr⟩ := hs.long_route idx' hl
      refine ⟨lo', hlo', ?_⟩
      have hold := hs.wf.long_lt idx' hl
      rw [freshBlock_tbllongTable, if_neg (fun h' => by omega)]
      exact hr
  long_val b j := by
    rw [freshBlock_tbllongTable]
    split_ifs
    · exact .inr hk.1
    · exact hs.long_val b j

/-- After a build: each block handed out is named by exactly one long entry. -/
theorem existsUnique_ref (hs : BlockInv info i c s) {b : ℕ} (hb : b < s.tbllongTableIdx) :
    ∃! idx, (s.tbl24Table idx).isLong ∧ (s.tbl24Table idx).nextId.toNat = b := by
  obtain ⟨idx, hl, hid⟩ := hs.long_ref b hb
  refine ⟨idx, ⟨hl, hid⟩, fun idx' ⟨hl', hid'⟩ => ?_⟩
  exact hs.wf.long_inj idx' idx hl' hl (BitVec.eq_of_toNat_eq (hid'.trans hid.symm))

/-- ... and holds a route longer than 24. -/
theorem block_route (hs : BlockInv info i c s) {b : ℕ} (hb : b < s.tbllongTableIdx) :
    ∃ lo < tbllongEntrySize, LongRoute info i (s.tbllongTable b lo) := by
  obtain ⟨idx, hl, rfl⟩ := hs.long_ref b hb
  exact hs.long_route idx hl

theorem entryOk (hs : BlockInv info i c s) (idx : ℕ) : EntryOk s i (s.tbl24Table idx) := by
  cases hl : (s.tbl24Table idx).isLong with
  | true => exact .inr (.inr ⟨hl, hs.wf.long_lt idx hl⟩)
  | false =>
    by_cases hinv : (s.tbl24Table idx).nextId.toNat = invalidNhId
    · exact .inl ((val_eq_invalid_iff _).mpr ⟨hl, hinv⟩)
    · have hlt := (hs.short_id idx hl).resolve_left hinv
      exact .inr (.inl ⟨hl, hlt, hs.wf.short_le idx hl hinv⟩)

end BlockInv

/-- The tables as the two reset loops of `build_routing_table` leave them. -/
theorem blockInv_reset (t : Tables) :
    BlockInv t.nhIdToInfo 0 0 { t with
      tbllongTableIdx := 0
      tbl24Table := fun _ => invalidEntry
      tbllongTable := fun _ _ => invalidNhId } where
  wf := wf_reset t
  info_eq := rfl
  idx_le := le_rfl
  short_id _ _ := .inl invalidEntry_nextId
  long_ref _ hb := absurd hb (Nat.not_lt_zero _)
  long_route _ h := absurd h Bool.false_ne_true
  long_val _ _ := .inl rfl

/-! The builders. -/

theorem gt24_range (info : NextHopInfo) (h25 : tblPrefixLen < info.prefixLen.toNat)
    (h32 : info.prefixLen.toNat ≤ 32) :
    (gt24MinI info).toNat < tbllongEntrySize ∧ 0 < (gt24MaxI info).toNat + 1 - (gt24MinI info).toNat := by
  have hmin : (gt24MinI info).toNat ≤ info.ipAddr.toNat % 2 ^ 8 := by
    rw [gt24MinI_toNat info h25 h32]
    exact Nat.div_mul_le_self _ _
  have hlow : info.ipAddr.toNat % 2 ^ 8 < 2 ^ 8 := Nat.mod_lt _ (by norm_num)
  rw [gt24MaxI_toNat info h25 h32]
  simp only [tbllongEntrySize, tblPrefixLen]
  omega

theorem buildRouteLte24Idx_blockInv (hs : BlockInv info (k + 1) c s) (hk : k < invalidNhId)
    (huse : (info k).inUse) (hlen : (info k).prefixLen.toNat ≤ tblPrefixLen) (idx : ℕ) :
    Outcome (BlockInv info (k + 1) c) (· = .outOfBounds) (buildRouteLte24Idx s k idx) := by
  have hinfo := hs.info_eq
  subst hinfo
  by_cases hidx : idx < tbl24TableSize
  · -- an unused or short entry becomes a short entry for `k`
    have hkid := toNat_ofNat_of_lt hk
    have hset : ∀ hnl : (s.tbl24Table idx).isLong = false,
        BlockInv s.nhIdToInfo (k + 1) c (s.setTbl24 idx ⟨BitVec.ofNat 15 k, false⟩) := fun hnl =>
      hs.setTbl24_short hnl _ rfl (.inr (show (BitVec.ofNat 15 k).toNat < k + 1 by omega))
        (fun _ => show s.len (BitVec.ofNat 15 k).toNat ≤ tblPrefixLen by rw [hkid]; exact hlen)
    rw [buildRouteLte24Idx_eq hs.wf hidx, outcome_ok]
    by_cases hinv : (s.tbl24Table idx).val = invalidNhId
    · rw [if_pos hinv]
      exact hset ((val_eq_invalid_iff _).mp hinv).1
    · rw [if_neg hinv]
      by_cases hl : (s.tbl24Table idx).isLong
      · -- a long entry: `k` is offered to its whole block
        rw [if_pos hl]
        exact hs.mapLong (hs.wf.long_lt idx hl) _ _ _ (fun v hv => replaceId_val hv (by omega))
          (fun v hv => longRoute_replaceId hv (by omega) (by omega) huse)
      · have hshort : (s.tbl24Table idx).isLong = false := by simpa using hl
        rw [if_neg hl]
        split_ifs
        · exact hset hshort
        · exact hs
  · rw [buildRouteLte24Idx_of_ge hidx, outcome_error]

theorem buildRouteLte24_blockInv (hs : BlockInv info (k + 1) c s) (hk : k < invalidNhId)
    (huse : (info k).inUse) (hlen : (info k).prefixLen.toNat ≤ tblPrefixLen) :
    Outcome (BlockInv info (k + 1) c) (· = .outOfBounds) (buildRouteLte24 s k) := by
  unfold buildRouteLte24
  exact forRange_outcome (fun _ => BlockInv info (k + 1) c) _
    (fun idx _ _ _ hs' => buildRouteLte24Idx_blockInv hs' hk huse hlen idx) hs

/-- `_build_route_gt_24` hands out at most one block, and never takes the
exit while fewer than `TBLLONG_TABLE_SIZE` blocks may be out. -/
theorem buildRouteGt24_blockInv (hs : BlockInv info (k + 1) c s) (hk : k < invalidNhId)
    (huse : (info k).inUse) (h25 : tblPrefixLen < (info k).prefixLen.toNat)
    (h32 : (info k).prefixLen.toNat ≤ 32) (hcap : c < tbllongTableSize) :
    ∃ s', buildRouteGt24 s k = .ok s' ∧ BlockInv info (k + 1) (c + 1) s' := by
  have hinfo := hs.info_eq
  subst hinfo
  have hcap' : s.tbllongTableIdx < tbllongTableSize := lt_of_le_of_lt hs.idx_le hcap
  have hkr : LongRoute s.nhIdToInfo (k + 1) k := ⟨Nat.lt_succ_self k, huse, h25⟩
  obtain ⟨hlo, hn⟩ := gt24_range (s.nhIdToInfo k) h25 h32
  generalize hidx : ((s.nhIdToInfo k).ipAddr >>> (32 - 24 : UInt32)).toNat = idx
  generalize hlo' : (gt24MinI (s.nhIdToInfo k)).toNat = lo at hlo hn
  generalize hn' : (gt24MaxI (s.nhIdToInfo k)).toNat + 1 - lo = n at hn
  refine ⟨_, buildRouteGt24_eq hs.wf hidx hlo' hn' hcap', ?_⟩
  by_cases hinv : (s.tbl24Table idx).val = invalidNhId
  · -- an unused entry: a fresh block
    rw [if_pos hinv]
    exact hs.freshBlock hcap' ((val_eq_invalid_iff _).mp hinv).1 hkr hlo hn
  · rw [if_neg hinv]
    by_cases hl : (s.tbl24Table idx).isLong
    · -- a long entry: `k` is offered to its range of the entry's block, no block is handed out
      rw [if_pos hl]
      exact (hs.mapLong (hs.wf.long_lt idx hl) lo n _ (fun v hv => replaceId_val hv (by omega))
        (fun v hv => longRoute_replaceId hv (by omega) (by omega) huse)).mono le_rfl (Nat.le_succ c)
    · -- a short entry for route `cur`: a fresh block, then `cur` offered to all of it
      have hshort : (s.tbl24Table idx).isLong = false := by simpa using hl
      have hcur : (s.tbl24Table idx).nextId.toNat ≠ invalidNhId :=
        fun h => hinv ((val_eq_invalid_iff _).mpr ⟨hshort, h⟩)
      have hcurlt := (hs.short_id idx hshort).resolve_left hcur
      have hcurlen := hs.wf.short_le idx hshort hcur
      rw [if_neg hl]
      exact (hs.freshBlock hcap' hshort hkr hlo hn).mapLong (by simp) 0 tbllongEntrySize _
        (fun v hv => replaceId_val hv hcurlt)
        (fun v hv => by rw [replaceId_of_longRoute hv (by omega) hcurlen]; exact hv)

/-- One iteration of the route loop of `build_routing_table`. -/
theorem buildRoute_blockInv (hs : BlockInv info k (longCount info k) s) (hk : k < invalidNhId)
    (h32 : (info k).prefixLen.toNat ≤ 32) :
    Outcome (BlockInv info (k + 1) (longCount info (k + 1))) (· = .outOfBounds) (buildRoute k s) := by
  have hinfo := hs.info_eq
  have hs' := hs.mono (Nat.le_succ k) le_rfl
  unfold buildRoute
  rw [longCount_succ]
  cases huse : (info k).inUse with
  | false =>
    simp only [hinfo, huse, Bool.not_false, if_true, Bool.false_eq_true, false_and, if_false,
      Nat.add_zero, outcome_ok]
    exact hs'
  | true =>
    simp only [hinfo, huse, Bool.not_true, Bool.false_eq_true, if_false, true_and]
    by_cases h24 : (info k).prefixLen.toNat ≤ tblPrefixLen
    · rw [if_pos h24, if_neg (by omega), Nat.add_zero]
      exact buildRouteLte24_blockInv hs' hk huse h24
    · -- a route longer than 24 hands out at most one block
      have hcap : longCount info k < tbllongTableSize := by
        have := longCount_le info k
        simp only [invalidNhId, nhIdToInfoSize, tbllongTableSize] at hk ⊢
        omega
      rw [if_neg h24, if_pos (by omega)]
      obtain ⟨s', hrun, hs''⟩ := buildRouteGt24_blockInv hs' hk huse (by omega) h32 hcap
      rw [hrun, outcome_ok]
      exact hs''

/-- The route loop of `build_routing_table` from the reset tables. -/
theorem forRange_buildRoute_blockInv (t : Tables) {n : ℕ} (hn : n ≤ invalidNhId)
    (h32 : ∀ k < n, t.len k ≤ 32) :
    Outcome (BlockInv t.nhIdToInfo n (longCount t.nhIdToInfo n)) (· = .outOfBounds)
      (forRange buildRoute 0 n { t with
        tbllongTableIdx := 0
        tbl24Table := fun _ => invalidEntry
        tbllongTable := fun _ _ => invalidNhId }) := by
  have hstep : ∀ k s, 0 ≤ k → k < 0 + n →
      BlockInv t.nhIdToInfo k (longCount t.nhIdToInfo k) s →
      Outcome (BlockInv t.nhIdToInfo (k + 1) (longCount t.nhIdToInfo (k + 1))) (· = .outOfBounds)
        (buildRoute k s) :=
    fun k s _ hk hs => buildRoute_blockInv hs (by omega) (h32 k (by omega))
  have hrun := forRange_outcome (fun k s => BlockInv t.nhIdToInfo k (longCount t.nhIdToInfo k) s) _
    hstep (blockInv_reset t)
  rwa [Nat.zero_add] at hrun

theorem buildRoutingTable_blockInv (t : Tables) (hn : t.nhIdToInfoIdx ≤ invalidNhId)
    (h32 : ∀ k < t.nhIdToInfoIdx, t.len k ≤ 32) :
    Outcome (BlockInv t.nhIdToInfo t.nhIdToInfoIdx (longCount t.nhIdToInfo t.nhIdToInfoIdx))
      (· = .outOfBounds) (buildRoutingTable t) := by
  unfold buildRoutingTable
  exact Outcome.bind (forRange_buildRoute_blockInv t hn h32) fun s hs => hs.set_nhIdToInfoIdx 0

/-- At most 255 routes added from program start and built: the build never
takes the `tbllong table size is exceeded` exit. When it succeeds, no more
blocks are handed out than there are routes longer than 24; each block is
named by exactly one long `tbl24` entry and holds such a route; every
`tbl24` entry is the sentinel, a short entry for a route of prefix at most
24, or a long entry naming its block; and every `tbllong` entry is the
sentinel or a route id. -/
theorem buildRoutingTable_tbllong_blocks (rs : List RouteArgs) (hlen : rs.length ≤ invalidNhId) :
    (addRoutes Tables.init rs >>= buildRoutingTable) ≠
        .error (.exit "ERROR: tbllong table size is exceeded!\n") ∧
      ∀ t, (addRoutes Tables.init rs >>= buildRoutingTable) = .ok t →
        t.tbllongTableIdx ≤ rs.countP (fun r => tblPrefixLen < r.info.prefixLen.toNat) ∧
        (∀ b < t.tbllongTableIdx,
          (∃! idx, (t.tbl24Table idx).isLong ∧ (t.tbl24Table idx).nextId.toNat = b) ∧
            ∃ lo < tbllongEntrySize, LongRoute t.nhIdToInfo rs.length (t.tbllongTable b lo)) ∧
        (∀ idx, EntryOk t rs.length (t.tbl24Table idx)) ∧
        ∀ b lo, t.tbllongTable b lo = invalidNhId ∨ t.tbllongTable b lo < rs.length := by
  obtain ⟨t₁, hadd, hidx, -, hinfo⟩ := addRoutes_spec rs Tables.init (by simpa [Tables.init] using hlen)
  simp only [Tables.init, Nat.zero_add] at hidx hinfo
  have hbuild := buildRoutingTable_blockInv t₁ (by omega)
    (fun k hk => by rw [Tables.len, hinfo k (by omega)]; exact RouteArgs.info_prefixLen_le _)
  rw [hidx, longCount_eq_countP rs hinfo] at hbuild
  rw [hadd, ok_bind]
  refine ⟨fun h => ?_, fun t h => ?_⟩
  · rw [h, outcome_error] at hbuild
    cases hbuild
  · rw [h, outcome_ok] at hbuild
    have hs : BlockInv t.nhIdToInfo rs.length _ t := hbuild.info_eq ▸ hbuild
    exact ⟨hs.idx_le, fun b hb => ⟨hs.existsUnique_ref hb, hs.block_route hb⟩, hs.entryOk, hs.long_val⟩

theorem buildRoutingTable_tbllong_blocks_full_table :
    let rs : List RouteArgs :=
      (List.range 255).map fun k => ⟨0x0a000001 + UInt32.ofNat k * 256, 32, EtherAddr.zero, 0⟩
    rs.length ≤ invalidNhId ∧
      (addRoutes Tables.init rs >>= buildRoutingTable) ≠
        .error (.exit "ERROR: tbllong table size is exceeded!\n") ∧
      ∀ t, (addRoutes Tables.init rs >>= buildRoutingTable) = .ok t → t.tbllongTableIdx ≤ tbllongTableSize := by
  intro rs
  have hlen : rs.length ≤ invalidNhId := by simp [rs, invalidNhId, nhIdToInfoSize]
  obtain ⟨hexit, hok⟩ := buildRoutingTable_tbllong_blocks rs hlen
  exact ⟨hlen, hexit, fun t ht => (hok t ht).1.trans (List.countP_le_length.trans hlen)⟩

end DpdkRouter.RoutingTable
