import DpdkRouter.RoutingTable
import DpdkRouter.PrefixMatch

/-!
What each builder of `routing_table.c` does to the answers of the table.
`Tables.slot idx lo` is the answer `get_next_hop` gives for the address whose
top 24 bits are `idx` and whose low byte is `lo`. A builder *offers* route
`k` to a set of slots when each of those slots is replaced by the better of
its old answer and `k` (`PrefixMatch.better`) and every other slot keeps its
answer. The lemmas of this module show that `_build_route_lte_24_idx`,
`_build_route_gt_24` and the loops they run offer their route exactly to
the slots they cover, provided the table is well formed (`Wf`): every
`tbllong` block in use belongs to one `tbl24` entry, blocks not yet handed
out are empty, and short entries name routes of prefix at most 24.
-/

namespace DpdkRouter.RoutingTable

open ForLoop PrefixMatch

section Fields

variable (t : Tables)

@[simp] theorem setTbl24_tbl24Table (idx : ℕ) (e : Tbl24Entry) :
    (t.setTbl24 idx e).tbl24Table = Function.update t.tbl24Table idx e := rfl
@[simp] theorem setTbl24_tbllongTable (idx : ℕ) (e : Tbl24Entry) :
    (t.setTbl24 idx e).tbllongTable = t.tbllongTable := rfl
@[simp] theorem setTbl24_tbllongTableIdx (idx : ℕ) (e : Tbl24Entry) :
    (t.setTbl24 idx e).tbllongTableIdx = t.tbllongTableIdx := rfl
@[simp] theorem setTbl24_nhIdToInfo (idx : ℕ) (e : Tbl24Entry) :
    (t.setTbl24 idx e).nhIdToInfo = t.nhIdToInfo := rfl
@[simp] theorem setLong_tbl24Table (b i v : ℕ) : (t.setLong b i v).tbl24Table = t.tbl24Table := rfl
@[simp] theorem setLong_tbllongTableIdx (b i v : ℕ) :
    (t.setLong b i v).tbllongTableIdx = t.tbllongTableIdx := rfl
@[simp] theorem setLong_nhIdToInfo (b i v : ℕ) : (t.setLong b i v).nhIdToInfo = t.nhIdToInfo := rfl
@[simp] theorem setLong_tbllongTable (b i v : ℕ) :
    (t.setLong b i v).tbllongTable =
      Function.update t.tbllongTable b (Function.update (t.tbllongTable b) i v) := rfl

end Fields

/-- How a stored route id reads: `INVALID_NH_ID` is no route. -/
def ofId (nh : ℕ) : Option ℕ := if nh = invalidNhId then none else some nh

/-- The answer for top bits `idx` and low byte `lo`. -/
def Tables.slot (t : Tables) (idx lo : ℕ) : Option ℕ :=
  if (t.tbl24Table idx).isLong then ofId (t.tbllongTable (t.tbl24Table idx).nextId.toNat lo)
  else ofId (t.tbl24Table idx).nextId.toNat

/-- Prefix lengths of the stored routes, the order `PrefixMatch.better` uses. -/
def Tables.len (t : Tables) (j : ℕ) : ℕ := (t.nhIdToInfo j).prefixLen.toNat

theorem val_eq_invalid_iff (e : Tbl24Entry) :
    e.val = invalidNhId ↔ e.isLong = false ∧ e.nextId.toNat = invalidNhId := by
  obtain ⟨nextId, isLong⟩ := e
  have h := nextId.isLt
  cases isLong <;> simp [Tbl24Entry.val, invalidNhId, nhIdToInfoSize]

theorem getNextHop_eq_slot (t : Tables) (ip : UInt32) :
    getNextHop t ip = t.slot (ip.toNat / 256) (ip.toNat % 256) := by
  have hidx : (ip >>> (32 - 24 : UInt32)).toNat = ip.toNat / 256 := by
    simp [UInt32.toNat_shiftRight, Nat.shiftRight_eq_div_pow]
  have hlo : (ip &&& (((1 : UInt32) <<< (32 - 24 : UInt32)) - 1)).toNat = ip.toNat % 256 := by
    have h255 : (((1 : UInt32) <<< (32 - 24 : UInt32)) - 1) = 2 ^ 8 - 1 := by decide
    rw [h255, UInt32.toNat_and]
    exact Nat.and_two_pow_sub_one_eq_mod _ 8
  unfold getNextHop Tables.slot
  simp only [hidx, hlo, val_eq_invalid_iff]
  cases hl : (t.tbl24Table (ip.toNat / 256)).isLong <;> simp [ofId]

theorem ofId_replaceId (info : ℕ → NextHopInfo) (cur : ℕ) {k : ℕ} (hk : k ≠ invalidNhId) :
    ofId (replaceId info cur k) = better (fun j => (info j).prefixLen.toNat) (ofId cur) k := by
  unfold replaceId ofId
  by_cases hc : cur = invalidNhId
  · simp [hc, hk, better]
  · by_cases hle : (info cur).prefixLen ≤ (info k).prefixLen
    · have hle' : (info cur).prefixLen.toNat ≤ (info k).prefixLen.toNat := UInt8.le_iff_toNat_le.mp hle
      simp [hc, hk, hle, hle', better]
    · have hlt : ¬ (info cur).prefixLen.toNat ≤ (info k).prefixLen.toNat :=
        fun h => hle (UInt8.le_iff_toNat_le.mpr h)
      simp [hc, hle, hlt, better]

/-- `t` with the entries `lo, ..., lo + n - 1` of block `b` rewritten by `g`. -/
def Tables.mapLong (t : Tables) (b lo n : ℕ) (g : ℕ → ℕ) : Tables :=
  let blk := fun i => if lo ≤ i ∧ i < lo + n then g (t.tbllongTable b i) else t.tbllongTable b i
  { t with tbllongTable := Function.update t.tbllongTable b blk }

@[simp] theorem mapLong_tbl24Table (t : Tables) (b lo n : ℕ) (g : ℕ → ℕ) :
    (t.mapLong b lo n g).tbl24Table = t.tbl24Table := rfl
@[simp] theorem mapLong_tbllongTableIdx (t : Tables) (b lo n : ℕ) (g : ℕ → ℕ) :
    (t.mapLong b lo n g).tbllongTableIdx = t.tbllongTableIdx := rfl
@[simp] theorem mapLong_nhIdToInfo (t : Tables) (b lo n : ℕ) (g : ℕ → ℕ) :
    (t.mapLong b lo n g).nhIdToInfo = t.nhIdToInfo := rfl

theorem mapLong_tbllongTable (t : Tables) (b lo n : ℕ) (g : ℕ → ℕ) (b' i : ℕ) :
    (t.mapLong b lo n g).tbllongTable b' i =
      if b' = b ∧ lo ≤ i ∧ i < lo + n then g (t.tbllongTable b i) else t.tbllongTable b' i := by
  by_cases hb : b' = b
  · subst hb
    simp [Tables.mapLong]
  · simp [Tables.mapLong, hb]

/-- The `tbllong` loops write each entry of their range once, from its old
value and the route information, which they do not change. -/
theorem forRange_setLong (g : (ℕ → NextHopInfo) → ℕ → ℕ) (b : ℕ) :
    ∀ (n lo : ℕ) (t : Tables),
      forRange (fun i t => (.ok (t.setLong b i (g t.nhIdToInfo (t.tbllongTable b i))) :
        Except Fault Tables)) lo n t = .ok (t.mapLong b lo n (g t.nhIdToInfo))
  | 0, lo, t => by
    rw [forRange_zero]
    congr 1
    apply Tables.ext <;> try rfl
    funext b' i
    rw [mapLong_tbllongTable, if_neg (by omega)]
  | n + 1, lo, t => by
    rw [forRange_succ_of_ok rfl, forRange_setLong g b n (lo + 1)]
    congr 1
    apply Tables.ext <;> try rfl
    funext b' i
    simp only [mapLong_tbllongTable, setLong_tbllongTable, setLong_nhIdToInfo]
    by_cases hb : b' = b
    · subst hb
      by_cases hi : i = lo
      · subst hi
        simp
      · simp only [Function.update_self, Function.update_of_ne hi, true_and]
        split_ifs <;> first | rfl | omega
    · simp [hb]

theorem slot_mapLong (t : Tables) (b lo n : ℕ) (g : ℕ → ℕ) (idx i : ℕ) :
    (t.mapLong b lo n g).slot idx i =
      if (t.tbl24Table idx).isLong ∧ (t.tbl24Table idx).nextId.toNat = b ∧ lo ≤ i ∧ i < lo + n
      then ofId (g (t.tbllongTable b i)) else t.slot idx i := by
  unfold Tables.slot
  simp only [mapLong_tbl24Table, mapLong_tbllongTable]
  by_cases hl : (t.tbl24Table idx).isLong
  · by_cases hb : (t.tbl24Table idx).nextId.toNat = b
    · by_cases hi : lo ≤ i ∧ i < lo + n <;> simp [hl, hb, hi]
    · simp [hl, hb]
  · simp [hl]

theorem slot_setTbl24 (t : Tables) (idx : ℕ) (e : Tbl24Entry) (idx' i : ℕ) :
    (t.setTbl24 idx e).slot idx' i =
      if idx' = idx then
        (if e.isLong then ofId (t.tbllongTable e.nextId.toNat i) else ofId e.nextId.toNat)
      else t.slot idx' i := by
  by_cases h : idx' = idx
  · subst h
    simp [Tables.slot]
  · simp [Tables.slot, h]

/-- Well-formedness of the tables between two routes of `build_routing_table`. -/
structure Wf (t : Tables) : Prop where
  long_lt : ∀ idx, (t.tbl24Table idx).isLong →
    (t.tbl24Table idx).nextId.toNat < t.tbllongTableIdx
  long_inj : ∀ i j, (t.tbl24Table i).isLong → (t.tbl24Table j).isLong →
    (t.tbl24Table i).nextId = (t.tbl24Table j).nextId → i = j
  fresh : ∀ b lo, t.tbllongTableIdx ≤ b → t.tbllongTable b lo = invalidNhId
  short_le : ∀ idx, (t.tbl24Table idx).isLong = false →
    (t.tbl24Table idx).nextId.toNat ≠ invalidNhId →
      t.len (t.tbl24Table idx).nextId.toNat ≤ tblPrefixLen
  idx_le : t.tbllongTableIdx ≤ tbllongTableSize

/-- `t'` answers as `t` does with route `k` offered to the slots in `hit`. -/
def Offered (t t' : Tables) (k : ℕ) (hit : ℕ → ℕ → Prop) : Prop :=
  ∀ idx lo, lo < tbllongEntrySize →
    (hit idx lo → t'.slot idx lo = better t.len (t.slot idx lo) k) ∧
      (¬ hit idx lo → t'.slot idx lo = t.slot idx lo)

theorem Offered.congr {t t' : Tables} {k : ℕ} {hit hit' : ℕ → ℕ → Prop}
    (h : Offered t t' k hit) (hiff : ∀ idx lo, lo < tbllongEntrySize → (hit idx lo ↔ hit' idx lo)) :
    Offered t t' k hit' := by
  intro idx lo hlo
  obtain ⟨h₁, h₂⟩ := h idx lo hlo
  exact ⟨fun hh => h₁ ((hiff idx lo hlo).mpr hh), fun hh => h₂ (fun h' => hh ((hiff idx lo hlo).mp h'))⟩

theorem Offered.none (t : Tables) (k : ℕ) : Offered t t k (fun _ _ => False) :=
  fun _ _ _ => ⟨False.elim, fun _ => rfl⟩

/-- Offers to disjoint sets of slots add up. -/
theorem Offered.trans {t t₁ t₂ : Tables} {k : ℕ} {hit₁ hit₂ : ℕ → ℕ → Prop}
    (h₁ : Offered t t₁ k hit₁) (h₂ : Offered t₁ t₂ k hit₂) (hlen : t₁.len = t.len)
    (hdisj : ∀ idx lo, hit₁ idx lo → ¬ hit₂ idx lo) :
    Offered t t₂ k (fun idx lo => hit₁ idx lo ∨ hit₂ idx lo) := by
  intro idx lo hlo
  obtain ⟨h₁in, h₁out⟩ := h₁ idx lo hlo
  obtain ⟨h₂in, h₂out⟩ := h₂ idx lo hlo
  refine ⟨fun hh => ?_, fun hh => ?_⟩
  · rcases hh with hh | hh
    · rw [h₂out (hdisj idx lo hh), h₁in hh]
    · rw [h₂in hh, h₁out (fun h => hdisj idx lo h hh), hlen]
  · rw [h₂out (fun h => hh (Or.inr h)), h₁out (fun h => hh (Or.inl h))]

theorem len_eq_of_nhIdToInfo {t t' : Tables} (h : t'.nhIdToInfo = t.nhIdToInfo) : t'.len = t.len := by
  funext j
  simp [Tables.len, h]

theorem ofId_of_ne {k : ℕ} (hk : k ≠ invalidNhId) : ofId k = some k := by
  simp [ofId, hk]

theorem ofId_of_lt {k : ℕ} (hk : k < invalidNhId) : ofId k = some k := ofId_of_ne (Nat.ne_of_lt hk)

theorem toNat_ofNat_of_lt {k : ℕ} (hk : k < invalidNhId) : (BitVec.ofNat 15 k).toNat = k := by
  rw [BitVec.toNat_ofNat, Nat.mod_eq_of_lt]
  simp only [invalidNhId, nhIdToInfoSize] at hk
  omega

/-- A block index below `TBLLONG_TABLE_SIZE` fits the 15-bit `next_id`. -/
theorem toNat_ofNat_of_lt_tbllong {b : ℕ} (hb : b < tbllongTableSize) : (BitVec.ofNat 15 b).toNat = b :=
  toNat_ofNat_of_lt (by simpa [tbllongTableSize, invalidNhId, nhIdToInfoSize] using hb)

theorem Wf.mapLong {t : Tables} (hwf : Wf t) {b : ℕ} (hb : b < t.tbllongTableIdx) (lo n : ℕ)
    (g : ℕ → ℕ) : Wf (t.mapLong b lo n g) where
  long_lt := hwf.long_lt
  long_inj := hwf.long_inj
  fresh b' i hb' := by
    rw [mapLong_tbllongTableIdx] at hb'
    rw [mapLong_tbllongTable, if_neg (by omega)]
    exact hwf.fresh b' i hb'
  short_le := hwf.short_le
  idx_le := hwf.idx_le

/-- Writing a short entry keeps the tables well formed when its route, if
any, has a prefix of at most 24. -/
theorem Wf.setTbl24_short {t : Tables} (hwf : Wf t) (idx : ℕ) (e : Tbl24Entry)
    (hshort : e.isLong = false)
    (hlen : e.nextId.toNat ≠ invalidNhId → t.len e.nextId.toNat ≤ tblPrefixLen) :
    Wf (t.setTbl24 idx e) where
  long_lt i hi := by
    by_cases h : i = idx
    · subst h
      simp [hshort] at hi
    · simp only [setTbl24_tbl24Table, Function.update_of_ne h, setTbl24_tbllongTableIdx] at hi ⊢
      exact hwf.long_lt i hi
  long_inj i j hi hj hij := by
    by_cases h : i = idx
    · subst h
      simp [hshort] at hi
    · by_cases h' : j = idx
      · subst h'
        simp [hshort] at hj
      · simp only [setTbl24_tbl24Table, Function.update_of_ne h, Function.update_of_ne h'] at hi hj hij
        exact hwf.long_inj i j hi hj hij
  fresh := hwf.fresh
  short_le i hi hne := by
    by_cases h : i = idx
    · subst h
      simp only [setTbl24_tbl24Table, Function.update_self] at hne ⊢
      exact hlen hne
    · simp only [setTbl24_tbl24Table, Function.update_of_ne h] at hi hne ⊢
      exact hwf.short_le i hi hne
  idx_le := hwf.idx_le

theorem replaceLongRange_eq (t : Tables) (k : ℕ) {b : ℕ} (hb : b < tbllongTableSize) (lo n : ℕ) :
    replaceLongRange t k b lo n =
      .ok (t.mapLong b lo n (fun cur => replaceId t.nhIdToInfo cur k)) := by
  unfold replaceLongRange
  rw [if_pos hb]
  exact forRange_setLong (fun info cur => replaceId info cur k) b n lo t

/-- Running the replacement loop over a slice of the block of a long entry
offers the route to that slice of the entry's slots and to no other slot. -/
theorem offered_replaceLong {t : Tables} (hwf : Wf t) {idx k : ℕ} (hk : k ≠ invalidNhId)
    (hl : (t.tbl24Table idx).isLong) (lo n : ℕ) :
    Offered t (t.mapLong (t.tbl24Table idx).nextId.toNat lo n
      (fun cur => replaceId t.nhIdToInfo cur k)) k
      (fun idx' i => idx' = idx ∧ lo ≤ i ∧ i < lo + n) := by
  intro idx' i _
  rw [slot_mapLong]
  constructor
  · rintro ⟨rfl, hlo, hhi⟩
    rw [if_pos ⟨hl, rfl, hlo, hhi⟩, ofId_replaceId _ _ hk]
    simp only [Tables.slot, hl, if_true]
    rfl
  · intro hn
    rw [if_neg]
    rintro ⟨hl', hb, hlo, hhi⟩
    exact hn ⟨hwf.long_inj idx' idx hl' hl (BitVec.eq_of_toNat_eq hb), hlo, hhi⟩

/-- `_build_route_lte_24_idx` past the end of `tbl24_table`. -/
theorem buildRouteLte24Idx_of_ge {t : Tables} {k idx : ℕ} (hidx : ¬ idx < tbl24TableSize) :
    buildRouteLte24Idx t k idx = .error .outOfBounds := by
  unfold buildRouteLte24Idx
  rw [if_neg hidx]

/-- What `_build_route_lte_24_idx` does inside `tbl24_table`, by the state of
the entry: an unused entry becomes a short entry for `k`, the block of a long
entry is offered `k`, and a short entry is taken over by `k` when its route
is no longer. -/
theorem buildRouteLte24Idx_eq {t : Tables} (hwf : Wf t) {k idx : ℕ} (hidx : idx < tbl24TableSize) :
    buildRouteLte24Idx t k idx = .ok
      (if (t.tbl24Table idx).val = invalidNhId then t.setTbl24 idx ⟨BitVec.ofNat 15 k, false⟩
      else if (t.tbl24Table idx).isLong then
        t.mapLong (t.tbl24Table idx).nextId.toNat 0 tbllongEntrySize (fun cur => replaceId t.nhIdToInfo cur k)
      else if (t.nhIdToInfo (t.tbl24Table idx).nextId.toNat).prefixLen ≤ (t.nhIdToInfo k).prefixLen then
        t.setTbl24 idx ⟨BitVec.ofNat 15 k, false⟩
      else t) := by
  unfold buildRouteLte24Idx
  rw [if_pos hidx]
  by_cases hinv : (t.tbl24Table idx).val = invalidNhId
  · simp only [hinv, if_true]
  · by_cases hl : (t.tbl24Table idx).isLong
    · simp only [hinv, hl, if_false, if_true, Bool.not_true, Bool.false_eq_true]
      exact replaceLongRange_eq t k (lt_of_lt_of_le (hwf.long_lt idx hl) hwf.idx_le) 0 tbllongEntrySize
    · have hshort : (t.tbl24Table idx).isLong = false := by simpa using hl
      -- the short entry keeps its flag, so the entry written is the same as for an unused one
      by_cases hle : (t.nhIdToInfo (t.tbl24Table idx).nextId.toNat).prefixLen ≤ (t.nhIdToInfo k).prefixLen
      · simp only [hinv, hshort, hle, if_false, if_true, Bool.not_false, Bool.false_eq_true]
      · simp only [hinv, hshort, hle, if_false, if_true, Bool.not_false, Bool.false_eq_true]

theorem buildRouteLte24Idx_spec {t : Tables} (hwf : Wf t) {k idx : ℕ} (hk : k < invalidNhId)
    (hlen : t.len k ≤ tblPrefixLen) (hidx : idx < tbl24TableSize) :
    ∃ t', buildRouteLte24Idx t k idx = .ok t' ∧ Wf t' ∧
      t'.tbllongTableIdx = t.tbllongTableIdx ∧ t'.nhIdToInfo = t.nhIdToInfo ∧
      Offered t t' k (fun idx' _ => idx' = idx) := by
  have hkid := toNat_ofNat_of_lt hk
  have hwf' : Wf (t.setTbl24 idx ⟨BitVec.ofNat 15 k, false⟩) :=
    Wf.setTbl24_short hwf idx _ rfl (fun _ => by simpa only [hkid] using hlen)
  rw [buildRouteLte24Idx_eq hwf hidx]
  by_cases hinv : (t.tbl24Table idx).val = invalidNhId
  · obtain ⟨hshort, hid⟩ := (val_eq_invalid_iff _).mp hinv
    rw [if_pos hinv]
    refine ⟨_, rfl, hwf', rfl, rfl, ?_⟩
    intro idx' i _
    rw [slot_setTbl24]
    constructor
    · rintro rfl
      simp only [if_true, Bool.false_eq_true, if_false, hkid, ofId_of_lt hk, Tables.slot, hshort, hid]
      simp [ofId, better]
    · intro hne
      rw [if_neg hne]
  · rw [if_neg hinv]
    by_cases hl : (t.tbl24Table idx).isLong
    · rw [if_pos hl]
      refine ⟨_, rfl, hwf.mapLong (hwf.long_lt idx hl) 0 _ _, rfl, rfl,
        (offered_replaceLong hwf (Nat.ne_of_lt hk) hl 0 tbllongEntrySize).congr ?_⟩
      intro idx' i hi
      simp [hi]
    · have hshort : (t.tbl24Table idx).isLong = false := by simpa using hl
      have hid : (t.tbl24Table idx).nextId.toNat ≠ invalidNhId :=
        fun h => hinv ((val_eq_invalid_iff _).mpr ⟨hshort, h⟩)
      rw [if_neg hl]
      by_cases hle : (t.nhIdToInfo (t.tbl24Table idx).nextId.toNat).prefixLen ≤
          (t.nhIdToInfo k).prefixLen
      · rw [if_pos hle]
        refine ⟨_, rfl, hwf', rfl, rfl, ?_⟩
        intro idx' i _
        rw [slot_setTbl24]
        constructor
        · rintro rfl
          have hle' : t.len (t.tbl24Table idx').nextId.toNat ≤ t.len k :=
            UInt8.le_iff_toNat_le.mp hle
          have hold : t.slot idx' i = some (t.tbl24Table idx').nextId.toNat := by
            simp [Tables.slot, hshort, ofId, hid]
          rw [hold]
          simp only [if_true, Bool.false_eq_true, if_false, hkid, ofId_of_lt hk, better, hle']
        · intro hne
          rw [if_neg hne]
      · rw [if_neg hle]
        refine ⟨t, rfl, hwf, rfl, rfl, ?_⟩
        intro idx' i _
        constructor
        · rintro rfl
          have hlt : ¬ t.len (t.tbl24Table idx').nextId.toNat ≤ t.len k :=
            fun h => hle (UInt8.le_iff_toNat_le.mpr h)
          simp only [Tables.slot, hshort, Bool.false_eq_true, if_false, ofId, hid, better, hlt]
        · intro _
          rfl

section FreshBlock

/-! The block `_build_route_gt_24_idx` hands out for a `tbl24` entry that is
not long: the entry becomes long, the block holds the route on its range
and is empty elsewhere. -/

variable {t : Tables} (k idx lo n : ℕ)

/-- The state `_build_route_gt_24_idx` leaves behind. -/
def freshBlock (t : Tables) (k idx lo n : ℕ) : Tables :=
  (({ t with tbllongTableIdx := t.tbllongTableIdx + 1 }).setTbl24 idx
    ⟨BitVec.ofNat 15 t.tbllongTableIdx, true⟩).mapLong t.tbllongTableIdx lo n (fun _ => k)

theorem Wf.freshBlock (hwf : Wf t) (hcap : t.tbllongTableIdx < tbllongTableSize)
    (hshort : (t.tbl24Table idx).isLong = false) : Wf (freshBlock t k idx lo n) := by
  have hb : (BitVec.ofNat 15 t.tbllongTableIdx).toNat = t.tbllongTableIdx :=
    toNat_ofNat_of_lt_tbllong hcap
  refine Wf.mapLong ?_ (by simp) _ _ _
  refine ⟨fun i hi => ?_, fun i j hi hj hij => ?_, fun b' i hb' => ?_, fun i hi hne => ?_, ?_⟩
  · by_cases h : i = idx
    · subst h
      simp [hb]
    · simp only [setTbl24_tbl24Table, Function.update_of_ne h, setTbl24_tbllongTableIdx] at hi ⊢
      have := hwf.long_lt i hi
      omega
  · by_cases h : i = idx
    · subst h
      by_cases h' : j = i
      · exact h'.symm
      · simp only [setTbl24_tbl24Table, Function.update_self, Function.update_of_ne h'] at hj hij
        have := hwf.long_lt j hj
        have := congrArg BitVec.toNat hij
        omega
    · by_cases h' : j = idx
      · subst h'
        simp only [setTbl24_tbl24Table, Function.update_self, Function.update_of_ne h] at hi hij
        have := hwf.long_lt i hi
        have := congrArg BitVec.toNat hij
        omega
      · simp only [setTbl24_tbl24Table, Function.update_of_ne h, Function.update_of_ne h'] at hi hj hij
        exact hwf.long_inj i j hi hj hij
  · simp only [setTbl24_tbllongTableIdx, setTbl24_tbllongTable] at hb' ⊢
    exact hwf.fresh b' i (by omega)
  · by_cases h : i = idx
    · subst h
      simp at hi
    · simp only [setTbl24_tbl24Table, Function.update_of_ne h] at hi hne ⊢
      exact hwf.short_le i hi hne
  · simp only [setTbl24_tbllongTableIdx]
    simp only [tbllongTableSize] at hcap ⊢
    omega

theorem freshBlock_slot_self (hwf : Wf t) (hcap : t.tbllongTableIdx < tbllongTableSize) (i : ℕ) :
    (freshBlock t k idx lo n).slot idx i = if lo ≤ i ∧ i < lo + n then ofId k else none := by
  have hb : (BitVec.ofNat 15 t.tbllongTableIdx).toNat = t.tbllongTableIdx :=
    toNat_ofNat_of_lt_tbllong hcap
  unfold freshBlock
  rw [slot_mapLong]
  by_cases hi : lo ≤ i ∧ i < lo + n
  · simp [hb, hi]
  · simp only [hi, and_false, if_false]
    simp [Tables.slot, hb, hwf.fresh _ i le_rfl, ofId]

theorem freshBlock_slot_of_ne (hwf : Wf t) {idx' : ℕ} (hne : idx' ≠ idx) (i : ℕ) :
    (freshBlock t k idx lo n).slot idx' i = t.slot idx' i := by
  unfold freshBlock
  rw [slot_mapLong, if_neg, slot_setTbl24, if_neg hne]
  · rfl
  · rintro ⟨hl, hb, _⟩
    simp only [setTbl24_tbl24Table, Function.update_of_ne hne] at hl hb
    have := hwf.long_lt idx' hl
    omega

@[simp] theorem freshBlock_nhIdToInfo : (freshBlock t k idx lo n).nhIdToInfo = t.nhIdToInfo := rfl

@[simp] theorem freshBlock_tbllongTableIdx :
    (freshBlock t k idx lo n).tbllongTableIdx = t.tbllongTableIdx + 1 := rfl

@[simp] theorem freshBlock_tbl24Table_self :
    (freshBlock t k idx lo n).tbl24Table idx = ⟨BitVec.ofNat 15 t.tbllongTableIdx, true⟩ := by
  simp [freshBlock]

end FreshBlock

theorem buildRouteGt24Idx_eq (t : Tables) (k idx : ℕ) (h : t.tbllongTableIdx < tbllongTableSize) :
    buildRouteGt24Idx t k idx =
      .ok (freshBlock t k idx (gt24MinI (t.nhIdToInfo k)).toNat
        ((gt24MaxI (t.nhIdToInfo k)).toNat + 1 - (gt24MinI (t.nhIdToInfo k)).toNat)) := by
  have hb : (BitVec.ofNat 15 t.tbllongTableIdx).toNat = t.tbllongTableIdx :=
    toNat_ofNat_of_lt_tbllong h
  unfold buildRouteGt24Idx
  rw [if_neg (Nat.not_le.mpr h)]
  simp only [hb]
  exact forRange_setLong (fun _ _ => k) _ _ _ _

/-- What `_build_route_gt_24` does while a block is left, by the state of the
entry of its `/24` index `idx`: an unused entry gets a fresh block holding
the route on `lo..lo + n - 1`; the block of a long entry is offered the
route there; a short entry for route `j` gets such a fresh block, which is
then offered `j` everywhere. -/
theorem buildRouteGt24_eq {t : Tables} (hwf : Wf t) {k idx lo n : ℕ}
    (hidx : ((t.nhIdToInfo k).ipAddr >>> (32 - 24 : UInt32)).toNat = idx)
    (hlo : (gt24MinI (t.nhIdToInfo k)).toNat = lo)
    (hn : (gt24MaxI (t.nhIdToInfo k)).toNat + 1 - lo = n) (hcap : t.tbllongTableIdx < tbllongTableSize) :
    buildRouteGt24 t k = .ok
      (if (t.tbl24Table idx).val = invalidNhId then freshBlock t k idx lo n
      else if (t.tbl24Table idx).isLong then
        t.mapLong (t.tbl24Table idx).nextId.toNat lo n (fun cur => replaceId t.nhIdToInfo cur k)
      else (freshBlock t k idx lo n).mapLong t.tbllongTableIdx 0 tbllongEntrySize
        (fun cur => replaceId t.nhIdToInfo cur (t.tbl24Table idx).nextId.toNat)) := by
  have hfresh : buildRouteGt24Idx t k idx = .ok (freshBlock t k idx lo n) := by
    rw [buildRouteGt24Idx_eq t k idx hcap, hlo, hn]
  unfold buildRouteGt24
  simp only [hidx]
  by_cases hinv : (t.tbl24Table idx).val = invalidNhId
  · simp only [hinv, if_true, hfresh]
  · by_cases hl : (t.tbl24Table idx).isLong
    · simp only [hinv, hl, if_false, if_true, Bool.not_true, Bool.false_eq_true]
      unfold buildRouteGt24LongIdx
      simp only [hlo, hn]
      exact replaceLongRange_eq t k (lt_of_lt_of_le (hwf.long_lt idx hl) hwf.idx_le) lo n
    · have hshort : (t.tbl24Table idx).isLong = false := by simpa using hl
      simp only [hinv, hshort, if_false, Bool.not_false, if_true, Bool.false_eq_true, hfresh, ForLoop.ok_bind,
        freshBlock_tbl24Table_self, toNat_ofNat_of_lt_tbllong hcap]
      exact replaceLongRange_eq _ _ hcap _ _

/-- `_build_route_gt_24` offers its route to the slots of its `/24` index
whose low byte lies in `min_i..max_i`. -/
theorem buildRouteGt24_spec {t : Tables} (hwf : Wf t) {k : ℕ} (hk : k < invalidNhId)
    (hlen : tblPrefixLen < t.len k) (hcap : t.tbllongTableIdx < tbllongTableSize) :
    ∃ t', buildRouteGt24 t k = .ok t' ∧ Wf t' ∧
      t'.tbllongTableIdx ≤ t.tbllongTableIdx + 1 ∧ t'.nhIdToInfo = t.nhIdToInfo ∧
      Offered t t' k (fun idx i =>
        idx = ((t.nhIdToInfo k).ipAddr >>> (32 - 24 : UInt32)).toNat ∧
          (gt24MinI (t.nhIdToInfo k)).toNat ≤ i ∧
          i < (gt24MinI (t.nhIdToInfo k)).toNat +
            ((gt24MaxI (t.nhIdToInfo k)).toNat + 1 - (gt24MinI (t.nhIdToInfo k)).toNat)) := by
  generalize hidx : ((t.nhIdToInfo k).ipAddr >>> (32 - 24 : UInt32)).toNat = idx
  generalize hlo : (gt24MinI (t.nhIdToInfo k)).toNat = lo
  generalize hn : (gt24MaxI (t.nhIdToInfo k)).toNat + 1 - lo = n
  rw [buildRouteGt24_eq hwf hidx hlo hn hcap]
  by_cases hinv : (t.tbl24Table idx).val = invalidNhId
  · obtain ⟨hshort, hid⟩ := (val_eq_invalid_iff _).mp hinv
    rw [if_pos hinv]
    refine ⟨_, rfl, hwf.freshBlock k idx lo n hcap hshort, by simp, rfl, ?_⟩
    have hold : t.slot idx = fun _ => none := by
      funext i
      simp [Tables.slot, hshort, hid, ofId]
    intro idx' i _
    constructor
    · rintro ⟨rfl, hin⟩
      rw [freshBlock_slot_self k idx' lo n hwf hcap, if_pos hin, ofId_of_lt hk, hold]
      rfl
    · intro hn'
      by_cases h : idx' = idx
      · subst h
        rw [freshBlock_slot_self k idx' lo n hwf hcap, if_neg (fun h' => hn' ⟨rfl, h'⟩), hold]
      · exact freshBlock_slot_of_ne k idx lo n hwf h i
  · rw [if_neg hinv]
    by_cases hl : (t.tbl24Table idx).isLong
    · rw [if_pos hl]
      exact ⟨_, rfl, hwf.mapLong (hwf.long_lt idx hl) _ _ _, by simp, rfl,
        offered_replaceLong hwf (Nat.ne_of_lt hk) hl lo n⟩
    · have hshort : (t.tbl24Table idx).isLong = false := by simpa using hl
      have hid : (t.tbl24Table idx).nextId.toNat ≠ invalidNhId :=
        fun h => hinv ((val_eq_invalid_iff _).mpr ⟨hshort, h⟩)
      have hjlen : t.len (t.tbl24Table idx).nextId.toNat ≤ tblPrefixLen :=
        hwf.short_le idx hshort hid
      have hwf₁ := hwf.freshBlock k idx lo n hcap hshort
      have hl₁ : ((freshBlock t k idx lo n).tbl24Table idx).isLong := by simp
      have hoff := offered_replaceLong hwf₁ hid hl₁ 0 tbllongEntrySize
      simp only [freshBlock_tbl24Table_self, toNat_ofNat_of_lt_tbllong hcap, freshBlock_nhIdToInfo] at hoff
      rw [if_neg hl]
      refine ⟨_, rfl, hwf₁.mapLong (by simp) _ _ _, by simp, rfl, ?_⟩
      have hold : ∀ i, t.slot idx i = some (t.tbl24Table idx).nextId.toNat := fun i => by
        simp [Tables.slot, hshort, ofId, hid]
      intro idx' i hi
      obtain ⟨hin, hout⟩ := hoff idx' i hi
      have hlen₁ : (freshBlock t k idx lo n).len = t.len := len_eq_of_nhIdToInfo rfl
      constructor
      · rintro ⟨rfl, hr⟩
        rw [hin ⟨rfl, Nat.zero_le _, hi⟩, hlen₁, freshBlock_slot_self k idx' lo n hwf hcap,
          if_pos hr, ofId_of_lt hk, hold]
        have h₁ : ¬ t.len k ≤ t.len (t.tbl24Table idx').nextId.toNat := by omega
        have h₂ : t.len (t.tbl24Table idx').nextId.toNat ≤ t.len k := by omega
        simp only [better, h₁, h₂, if_true, if_false]
      · intro hn'
        by_cases h : idx' = idx
        · subst h
          rw [hin ⟨rfl, Nat.zero_le _, hi⟩, hlen₁, freshBlock_slot_self k idx' lo n hwf hcap,
            if_neg (fun h' => hn' ⟨rfl, h'⟩), hold]
          rfl
        · rw [hout (fun h' => h h'.1), freshBlock_slot_of_ne k idx lo n hwf h i]

/-- `_build_route_lte_24` offers its route to every slot of the `/24`
indices `min_index..max_index`, when these lie inside `tbl24_table`. -/
theorem buildRouteLte24_spec {t : Tables} (hwf : Wf t) {k : ℕ} (hk : k < invalidNhId)
    (hlen : t.len k ≤ tblPrefixLen)
    (hrange : (lte24MaxIndex (t.nhIdToInfo k)).toNat < tbl24TableSize) :
    ∃ t', buildRouteLte24 t k = .ok t' ∧ Wf t' ∧ t'.tbllongTableIdx = t.tbllongTableIdx ∧
      t'.nhIdToInfo = t.nhIdToInfo ∧
      Offered t t' k (fun idx _ => (lte24MinIndex (t.nhIdToInfo k)).toNat ≤ idx ∧
        idx ≤ (lte24MaxIndex (t.nhIdToInfo k)).toNat) := by
  generalize hlo : (lte24MinIndex (t.nhIdToInfo k)).toNat = lo
  generalize hhi : (lte24MaxIndex (t.nhIdToInfo k)).toNat = hi at hrange
  let P : ℕ → Tables → Prop := fun i s => Wf s ∧ s.tbllongTableIdx = t.tbllongTableIdx ∧
    s.nhIdToInfo = t.nhIdToInfo ∧ Offered t s k (fun idx _ => lo ≤ idx ∧ idx < i)
  have hstep : ∀ i s, lo ≤ i → i < lo + (hi + 1 - lo) → P i s →
      ∃ s', buildRouteLte24Idx s k i = .ok s' ∧ P (i + 1) s' := by
    rintro i s hloi hihi ⟨hwfs, hidxs, hinfo, hoff⟩
    have hlens : s.len = t.len := len_eq_of_nhIdToInfo hinfo
    obtain ⟨s', hrun, hwf', hidx', hinfo', hoff'⟩ :=
      buildRouteLte24Idx_spec hwfs hk (by rw [hlens]; exact hlen)
        (show i < tbl24TableSize by omega)
    refine ⟨s', hrun, hwf', hidx'.trans hidxs, hinfo'.trans hinfo, ?_⟩
    refine (hoff.trans hoff' hlens (fun idx _ h h' => by omega)).congr ?_
    intro idx _ _
    omega
  have hinit : P lo t :=
    ⟨hwf, rfl, rfl, (Offered.none t k).congr (fun _ _ _ => ⟨False.elim, fun h => by omega⟩)⟩
  obtain ⟨t', hrun, hwf', hidx', hinfo', hoff'⟩ := forRange_inv P hstep hinit
  refine ⟨t', ?_, hwf', hidx', hinfo', hoff'.congr (fun _ _ _ => by omega)⟩
  unfold buildRouteLte24
  simp only [hlo, hhi]
  exact hrun

end DpdkRouter.RoutingTable
