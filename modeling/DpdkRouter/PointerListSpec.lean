import DpdkRouter.PointerList

/-!
The pointer list refines a list of pointers. `Represents self l` ties the
fields to the list `l`: `_len` is its length and at most `_cap`, and the
first `_len` slots are `l`. Under `ReallocKeeps`, the assumption that
`realloc` returns a block holding the first `min old new` pointers for
every size, each operation keeps `Represents` with the list operation it
implements, never leaves the block, and the only exit it can reach is the
one of `_pointer_list_expand` when `_cap + _cap / 2 + 1` does not fit in
32 bits.
-/

namespace DpdkRouter.Utils

open ForLoop SlotBuffer

variable {α : Type*}

/-! Slot access. -/

theorem readSlot_of_lt {self : PointerList α} {b : ℕ → Option α} (hb : self.list = some b)
    {i : ℕ} (hi : i < self.cap.toNat) : readSlot self i = .ok (b i) := by
  simp [readSlot, hb, hi]

theorem writeSlot_of_lt {self : PointerList α} {b : ℕ → Option α} (hb : self.list = some b)
    {i : ℕ} (hi : i < self.cap.toNat) (ptr : Option α) :
    writeSlot self i ptr = .ok { self with list := some (Function.update b i ptr) } := by
  simp [writeSlot, hb, hi]

@[simp] theorem slots_of_some (self : PointerList α) {b : ℕ → Option α} (hb : self.list = some b) :
    self.slots = b := by
  simp [PointerList.slots, hb]

/-- `self` holds the list `l`: `_len` is its length and at most `_cap`, a
`NULL` block has no room, and the first `_len` slots are `l`. -/
structure Represents (pl : PointerList α) (l : List (Option α)) : Prop where
  len_eq : pl.len.toNat = l.length
  len_le : pl.len.toNat ≤ pl.cap.toNat
  null_cap : pl.list = none → pl.cap = 0
  holds : Holds pl.slots l

/-- What is assumed of `realloc`: for every size it returns a block, which
holds the first `min old new` pointers of the old one. -/
def ReallocKeeps (realloc : Option (ℕ → Option α) → ℕ → ℕ → Option (ℕ → Option α)) : Prop :=
  ∀ blk old new, ∃ b, realloc blk old new = some b ∧
    ∀ i < min old new, b i = (blk.getD fun _ => none) i

theorem Represents.list_eq_some {self : PointerList α} {l : List (Option α)}
    (h : Represents self l) (hcap : 0 < self.cap.toNat) : ∃ b, self.list = some b := by
  cases hl : self.list with
  | none =>
    have := h.null_cap hl
    simp [this] at hcap
  | some b => exact ⟨b, rfl⟩

theorem represents_init (blk : Option (ℕ → Option α)) : Represents (pointerListInit blk) [] where
  len_eq := rfl
  len_le := Nat.le_refl _
  null_cap _ := rfl
  holds := Holds.nil _

/-! Arithmetic of the capacity. -/

theorem grow_le_iff (c : UInt32) :
    c + c / 2 + 1 ≤ c ↔ 2 ^ 32 ≤ c.toNat + c.toNat / 2 + 1 := by
  have hc := c.toNat_lt
  rw [UInt32.le_iff_toNat_le, UInt32.toNat_add, UInt32.toNat_add, UInt32.toNat_div]
  simp only [UInt32.reduceToNat]
  omega

theorem toNat_grow {c : UInt32} (h : c.toNat + c.toNat / 2 + 1 < 2 ^ 32) :
    (c + c / 2 + 1).toNat = c.toNat + c.toNat / 2 + 1 := by
  rw [UInt32.toNat_add, UInt32.toNat_add, UInt32.toNat_div]
  simp only [UInt32.reduceToNat]
  omega

section Realloc

variable {realloc : Option (ℕ → Option α) → ℕ → ℕ → Option (ℕ → Option α)}

/-- A `realloc` to a capacity that still holds `_len` slots keeps the list. -/
theorem Represents.after_realloc (hr : ReallocKeeps realloc) {self : PointerList α}
    {l : List (Option α)} (h : Represents self l) {newCap : UInt32}
    (hlen : self.len.toNat ≤ newCap.toNat) :
    ∃ self', pointerListRealloc realloc self newCap = .ok self' ∧ Represents self' l ∧
      self'.cap = newCap := by
  obtain ⟨b, hb, hkeep⟩ := hr self.list self.cap.toNat newCap.toNat
  refine ⟨{ self with list := some b, cap := newCap }, by simp [pointerListRealloc, hb], ?_, rfl⟩
  refine ⟨h.len_eq, hlen, fun h' => absurd h' (Option.some_ne_none b), ?_⟩
  apply h.holds.congr
  intro i hi
  rw [slots_of_some _ rfl, hkeep i (by have := h.len_le; have := h.len_eq; omega)]
  rfl

theorem expand_of_overflow (self : PointerList α)
    (h : 2 ^ 32 ≤ self.cap.toNat + self.cap.toNat / 2 + 1) :
    pointerListExpand realloc self = .error (.exit "ERROR: Pointer list cannot grow larger!\n") := by
  rw [pointerListExpand, if_pos ((grow_le_iff _).mpr h)]

theorem expand_of_lt (hr : ReallocKeeps realloc) {self : PointerList α} {l : List (Option α)}
    (h : Represents self l) (hfit : self.cap.toNat + self.cap.toNat / 2 + 1 < 2 ^ 32) :
    ∃ self', pointerListExpand realloc self = .ok self' ∧ Represents self' l ∧
      self'.cap.toNat = self.cap.toNat + self.cap.toNat / 2 + 1 := by
  have hgrow := toNat_grow hfit
  obtain ⟨self', hrun, hrep, hcap⟩ := h.after_realloc hr
    (show self.len.toNat ≤ (self.cap + self.cap / 2 + 1).toNat by have := h.len_le; omega)
  refine ⟨self', ?_, hrep, by rw [hcap, hgrow]⟩
  rw [pointerListExpand, if_neg (fun h' => by have := (grow_le_iff _).mp h'; omega)]
  exact hrun

end Realloc

/-! The two loops. -/

/-- The loop of `pointer_list_remove` moves slots `lo + 1, ..., lo + n` down
by one, when they lie inside the block. -/
theorem forRange_removeStep : ∀ (n lo : ℕ) (self : PointerList α) (b : ℕ → Option α),
    self.list = some b → lo + n < self.cap.toNat →
      forRange removeStep lo n self = .ok { self with list := some (shiftDown b lo n) }
  | 0, lo, self, b, hb, _ => by
    obtain ⟨list, len, cap⟩ := self
    simp only at hb
    subst hb
    rw [forRange_zero, shiftDown_zero]
  | n + 1, lo, self, b, hb, hlt => by
    have hstep : removeStep lo self =
        .ok { self with list := some (Function.update b lo (b (lo + 1))) } := by
      rw [removeStep, readSlot_of_lt hb (by omega), ok_bind, writeSlot_of_lt hb (by omega)]
    rw [forRange_succ_of_ok hstep, forRange_removeStep n (lo + 1) _ _ rfl (by simp only; omega),
      shiftDown_succ]

/-- The loop of `pointer_list_insert` moves slots `lo, ..., lo + n - 2` up by
one and writes the carried pointer at `lo`, when they lie inside the block. -/
theorem forRange_insertStep : ∀ (n lo : ℕ) (self : PointerList α) (b : ℕ → Option α)
    (x : Option α), self.list = some b → lo + n ≤ self.cap.toNat →
      ∃ y, forRange insertStep lo n (self, x) = .ok ({ self with list := some (shiftUp b x lo n) }, y)
  | 0, lo, self, b, x, hb, _ => by
    obtain ⟨list, len, cap⟩ := self
    simp only at hb
    subst hb
    exact ⟨x, by rw [forRange_zero, shiftUp_zero]⟩
  | n + 1, lo, self, b, x, hb, hle => by
    have hstep : insertStep lo (self, x) =
        .ok ({ self with list := some (Function.update b lo x) }, b lo) := by
      rw [insertStep, readSlot_of_lt hb (by omega), ok_bind, writeSlot_of_lt hb (by omega)]
      rfl
    obtain ⟨y, hy⟩ := forRange_insertStep n (lo + 1) { self with list := some (Function.update b lo x) }
      _ (b lo) rfl (by simp only; omega)
    refine ⟨y, ?_⟩
    rw [forRange_succ_of_ok hstep, hy, shiftUp_succ]

/-- Writing slot `_len` and counting it pushes onto the list. -/
theorem Represents.push {self : PointerList α} {l : List (Option α)} (h : Represents self l)
    (hlt : self.len.toNat < self.cap.toNat) (ptr : Option α) :
    ∃ self', (do
        let self ← writeSlot self self.len.toNat ptr
        pure { self with len := self.len + 1 } : Except Fault (PointerList α)) = .ok self' ∧
      Represents self' (l ++ [ptr]) := by
  obtain ⟨b, hb⟩ := h.list_eq_some (by omega)
  have hlen : (self.len + 1).toNat = self.len.toNat + 1 := by
    have := self.cap.toNat_lt
    rw [UInt32.toNat_add, UInt32.toNat_one]
    omega
  refine ⟨{ self with list := some (Function.update b self.len.toNat ptr), len := self.len + 1 },
    by rw [writeSlot_of_lt hb hlt, ok_bind]; rfl, ?_⟩
  refine ⟨by simp only [hlen, List.length_append, List.length_singleton, h.len_eq],
    by simp only [hlen]; omega, fun h' => absurd h' (Option.some_ne_none _), ?_⟩
  have hh := h.holds.update_length ptr
  rw [slots_of_some _ hb, ← h.len_eq] at hh
  rw [slots_of_some _ rfl]
  exact hh

section Operations

variable {realloc : Option (ℕ → Option α) → ℕ → ℕ → Option (ℕ → Option α)}
  (hr : ReallocKeeps realloc)

include hr

theorem append_spec {self : PointerList α} {l : List (Option α)} (h : Represents self l)
    (ptr : Option α) :
    (∃ self', pointerListAppend realloc self ptr = .ok self' ∧ Represents self' (l ++ [ptr])) ∨
      (l.length = self.cap.toNat ∧ 2 ^ 32 ≤ self.cap.toNat + self.cap.toNat / 2 + 1 ∧
        pointerListAppend realloc self ptr =
          .error (.exit "ERROR: Pointer list cannot grow larger!\n")) := by
  have hlen := h.len_eq
  have hle := h.len_le
  by_cases hfull : self.len ≥ self.cap
  · have hfull' : self.len.toNat = self.cap.toNat := by
      rw [ge_iff_le, UInt32.le_iff_toNat_le] at hfull
      omega
    by_cases hfit : self.cap.toNat + self.cap.toNat / 2 + 1 < 2 ^ 32
    · obtain ⟨self₁, hexp, h₁, hcap₁⟩ := expand_of_lt hr h hfit
      have hlen₁ : self₁.len.toNat < self₁.cap.toNat := by
        have := h₁.len_eq
        omega
      left
      rw [pointerListAppend, if_pos hfull, hexp, ok_bind]
      exact h₁.push hlen₁ ptr
    · right
      refine ⟨by omega, by omega, ?_⟩
      rw [pointerListAppend, if_pos hfull, expand_of_overflow self (by omega), error_bind]
  · have hlt : self.len.toNat < self.cap.toNat := by
      rw [ge_iff_le, UInt32.le_iff_toNat_le] at hfull
      omega
    left
    rw [pointerListAppend, if_neg hfull]
    exact h.push hlt ptr

/-- `_pointer_list_contract` keeps the list when the contracted capacity
still holds `_len` slots, whatever the lower bound. -/
theorem contract_spec {self : PointerList α} {l : List (Option α)} (h : Represents self l)
    (hle : self.len.toNat ≤ (pointerListContractedCap self).toNat) (minCap : UInt32) :
    ∃ self', pointerListContract realloc self minCap = .ok self' ∧ Represents self' l := by
  unfold pointerListContract
  simp only
  split_ifs with hmin hcap hcap
  · exact ⟨self, rfl, h⟩
  · rw [UInt32.lt_iff_toNat_lt] at hmin
    obtain ⟨self', hrun, hrep, -⟩ := h.after_realloc hr (show self.len.toNat ≤ minCap.toNat by omega)
    exact ⟨self', hrun, hrep⟩
  · exact ⟨self, rfl, h⟩
  · obtain ⟨self', hrun, hrep, -⟩ := h.after_realloc hr hle
    exact ⟨self', hrun, hrep⟩

theorem remove_spec {self : PointerList α} {l : List (Option α)} (h : Represents self l)
    (index : UInt32) :
    ∃ self', pointerListRemove realloc self index = .ok self' ∧
      Represents self' (l.eraseIdx index.toNat) := by
  have hlen := h.len_eq
  have hle := h.len_le
  by_cases hout : index ≥ self.len
  · rw [ge_iff_le, UInt32.le_iff_toNat_le] at hout
    refine ⟨self, by rw [pointerListRemove, if_pos (UInt32.le_iff_toNat_le.mpr hout)], ?_⟩
    rwa [List.eraseIdx_of_length_le (by omega)]
  · have hin : index.toNat < l.length := by
      rw [ge_iff_le, UInt32.le_iff_toNat_le] at hout
      omega
    obtain ⟨b, hb⟩ := h.list_eq_some (by omega)
    have hpred : (self.len - 1).toNat = self.len.toNat - 1 :=
      UInt32.toNat_sub_of_le _ _ (by rw [UInt32.le_iff_toNat_le]; simp; omega)
    -- after the loop and `_len--`, before the contraction
    let self₁ : PointerList α := { self with
      list := some (shiftDown b index.toNat (l.length - 1 - index.toNat))
      len := self.len - 1 }
    have h₁ : Represents self₁ (l.eraseIdx index.toNat) := by
      refine ⟨by simp only [self₁, hpred, List.length_eraseIdx_of_lt hin]; omega,
        by simp only [self₁, hpred]; omega, fun h' => absurd h' (Option.some_ne_none _), ?_⟩
      have hh := h.holds.shiftDown hin
      rw [slots_of_some _ hb] at hh
      rw [slots_of_some _ rfl]
      exact hh
    have hloop : forRange removeStep index.toNat ((self.len - 1).toNat - index.toNat) self =
        .ok { self with list := some (shiftDown b index.toNat (l.length - 1 - index.toNat)) } := by
      rw [forRange_removeStep _ _ self b hb (by omega), hpred, hlen]
    rw [pointerListRemove, if_neg hout, hloop, ok_bind]
    change ∃ self', (if self₁.len ≤ pointerListContractedCap self₁ then
      pointerListContract realloc self₁ 0 else pure self₁) = .ok self' ∧ _
    split_ifs with hc
    · exact contract_spec hr h₁ (UInt32.le_iff_toNat_le.mp hc) 0
    · exact ⟨self₁, rfl, h₁⟩

theorem pop_spec {self : PointerList α} {l : List (Option α)} (h : Represents self l) :
    ∃ self', pointerListPop realloc self = .ok (self', l.getLastD none) ∧
      Represents self' l.dropLast := by
  have hlen := h.len_eq
  have hle := h.len_le
  by_cases hemp : self.len ≤ 0
  · have hnil : l = [] := by
      rw [UInt32.le_iff_toNat_le] at hemp
      exact List.eq_nil_of_length_eq_zero (by simp at hemp; omega)
    subst hnil
    exact ⟨self, by rw [pointerListPop, if_pos hemp]; rfl, h⟩
  · have hpos : 0 < l.length := by
      rw [UInt32.le_iff_toNat_le] at hemp
      simp at hemp
      omega
    obtain ⟨b, hb⟩ := h.list_eq_some (by omega)
    have hpred : (self.len - 1).toNat = l.length - 1 := by
      rw [UInt32.toNat_sub_of_le _ _ (by rw [UInt32.le_iff_toNat_le]; simp; omega)]
      simp [hlen]
    have hlast : l.getLastD none = b (l.length - 1) := by
      rw [List.getLastD_eq_getLast?, List.getLast?_eq_getElem?,
        List.getElem?_eq_getElem (by omega), Option.getD_some, ← slots_of_some _ hb,
        h.holds _ (by omega)]
    obtain ⟨self', hrun, hrep⟩ := remove_spec hr h (self.len - 1)
    refine ⟨self', ?_, ?_⟩
    · rw [pointerListPop, if_neg hemp, readSlot_of_lt hb (by omega), ok_bind, hrun, ok_bind, hlast,
        hpred]
      rfl
    · rwa [hpred, List.eraseIdx_length_sub_one] at hrep

theorem insert_spec {self : PointerList α} {l : List (Option α)} (h : Represents self l)
    (ptr : Option α) (pos : UInt32) :
    (∃ self', pointerListInsert realloc self ptr pos = .ok self' ∧
        Represents self' (l.insertIdx pos.toNat ptr)) ∨
      (l.length = self.cap.toNat ∧ 2 ^ 32 ≤ self.cap.toNat + self.cap.toNat / 2 + 1 ∧
        pointerListInsert realloc self ptr pos =
          .error (.exit "ERROR: Pointer list cannot grow larger!\n")) := by
  have hlen := h.len_eq
  by_cases hout : pos > pointerListLen self
  · left
    have hout' : l.length < pos.toNat := by
      rw [gt_iff_lt, UInt32.lt_iff_toNat_lt] at hout
      exact hlen ▸ hout
    refine ⟨self, by rw [pointerListInsert, if_pos hout], ?_⟩
    rwa [List.insertIdx_of_length_lt hout']
  · have hpos : pos.toNat ≤ l.length := by
      rw [gt_iff_lt, UInt32.lt_iff_toNat_lt] at hout
      simp only [pointerListLen] at hout
      omega
    rcases append_spec hr h none with ⟨self₁, happ, h₁⟩ | ⟨hl, hov, happ⟩
    · left
      have hlen₁ := h₁.len_eq
      have hle₁ := h₁.len_le
      simp only [List.length_append, List.length_singleton] at hlen₁
      obtain ⟨b, hb⟩ := h₁.list_eq_some (by omega)
      obtain ⟨y, hloop⟩ := forRange_insertStep (self₁.len.toNat - pos.toNat) pos.toNat self₁ b ptr hb
        (by omega)
      refine ⟨{ self₁ with list := some (shiftUp b ptr pos.toNat (self₁.len.toNat - pos.toNat)) },
        ?_, ?_⟩
      · rw [pointerListInsert, if_neg hout, happ, ok_bind]
        simp only [pointerListLen]
        rw [hloop, ok_bind]
        rfl
      · refine ⟨by simp only [List.length_insertIdx_of_le_length hpos]; omega, hle₁,
          fun h' => absurd h' (Option.some_ne_none _), ?_⟩
        have hh := (h₁.holds.of_append).shiftUp hpos ptr
        rw [slots_of_some _ hb] at hh
        rw [slots_of_some _ rfl, hlen₁]
        exact hh
    · right
      refine ⟨hl, hov, ?_⟩
      rw [pointerListInsert, if_neg hout, happ, error_bind]


end Operations

theorem get_spec {self : PointerList α} {l : List (Option α)} (h : Represents self l)
    (index : UInt32) : pointerListGet self index = .ok (l.getD index.toNat none) := by
  have hlen := h.len_eq
  unfold pointerListGet
  split_ifs with hout
  · rw [ge_iff_le, UInt32.le_iff_toNat_le] at hout
    rw [List.getD_eq_getElem?_getD, List.getElem?_eq_none (by omega), Option.getD_none]
  · rw [ge_iff_le, UInt32.le_iff_toNat_le] at hout
    obtain ⟨b, hb⟩ := h.list_eq_some (by have := h.len_le; omega)
    rw [readSlot_of_lt hb (by have := h.len_le; omega), List.getD_eq_getElem?_getD,
      List.getElem?_eq_getElem (by omega), Option.getD_some, ← slots_of_some _ hb, h.holds _ (by omega)]

theorem set_spec {self : PointerList α} {l : List (Option α)} (h : Represents self l)
    (index : UInt32) (ptr : Option α) :
    ∃ self', pointerListSet self index ptr = .ok self' ∧ Represents self' (l.set index.toNat ptr) := by
  have hlen := h.len_eq
  have hle := h.len_le
  unfold pointerListSet
  split_ifs with hout
  · rw [ge_iff_le, UInt32.le_iff_toNat_le] at hout
    exact ⟨self, rfl, by rwa [List.set_eq_of_length_le (by omega)]⟩
  · rw [ge_iff_le, UInt32.le_iff_toNat_le] at hout
    obtain ⟨b, hb⟩ := h.list_eq_some (by omega)
    refine ⟨_, writeSlot_of_lt hb (by omega) ptr, by simp only [List.length_set]; exact hlen, hle,
      fun h' => absurd h' (Option.some_ne_none _), ?_⟩
    have hh := h.holds.update_of_lt (show index.toNat < l.length by omega) ptr
    rw [slots_of_some _ hb] at hh
    rw [slots_of_some _ rfl]
    exact hh

theorem clear_spec {self : PointerList α} {l : List (Option α)} (h : Represents self l) :
    Represents (pointerListClear self) [] := by
  unfold pointerListClear
  split_ifs with hnull
  · have hcap := h.null_cap (Option.isNone_iff_eq_none.mp hnull)
    have hle := h.len_le
    rw [hcap] at hle
    exact ⟨by simp at hle; omega, by rw [hcap]; exact hle, h.null_cap, Holds.nil _⟩
  · exact ⟨rfl, Nat.le_refl _, fun _ => rfl, Holds.nil _⟩

/-! The list each call implements. -/

/-- The list operation a call implements and the pointer it returns. Out of
range, `insertIdx`, `eraseIdx` and `set` leave the list as it is, and
`getD` and `getLastD` give `NULL`. -/
def Op.apply : Op α → List (Option α) → List (Option α) × Option α
  | .append ptr, l => (l ++ [ptr], none)
  | .insert ptr pos, l => (l.insertIdx pos.toNat ptr, none)
  | .remove index, l => (l.eraseIdx index.toNat, none)
  | .pop, l => (l.dropLast, l.getLastD none)
  | .get index, l => (l, l.getD index.toNat none)
  | .set index ptr, l => (l.set index.toNat ptr, none)
  | .clear, _ => ([], none)

/-- List operations one after another, with the pointers they return. -/
def applyOps (l : List (Option α)) : List (Op α) → List (Option α) × List (Option α)
  | [] => (l, [])
  | op :: ops =>
    let r := op.apply l
    let rs := applyOps r.1 ops
    (rs.1, r.2 :: rs.2)

section Refinement

variable {realloc : Option (ℕ → Option α) → ℕ → ℕ → Option (ℕ → Option α)}
  (hr : ReallocKeeps realloc)

include hr

/-- One call keeps `Represents` with the list operation it implements and
returns what that operation returns. It fails only at the exit of
`_pointer_list_expand`, when `_cap + _cap / 2 + 1` does not fit in 32 bits. -/
theorem exec_spec {self : PointerList α} {l : List (Option α)} (h : Represents self l)
    (op : Op α) :
    (∃ self', op.exec realloc self = .ok (self', (op.apply l).2) ∧
        Represents self' (op.apply l).1) ∨
      (2 ^ 32 ≤ self.cap.toNat + self.cap.toNat / 2 + 1 ∧
        op.exec realloc self = .error (.exit "ERROR: Pointer list cannot grow larger!\n")) := by
  cases op with
  | append ptr =>
    rcases append_spec hr h ptr with ⟨self', hrun, h'⟩ | ⟨-, hov, hrun⟩
    · exact .inl ⟨self', by rw [Op.exec, hrun]; rfl, h'⟩
    · exact .inr ⟨hov, by rw [Op.exec, hrun]; rfl⟩
  | insert ptr pos =>
    rcases insert_spec hr h ptr pos with ⟨self', hrun, h'⟩ | ⟨-, hov, hrun⟩
    · exact .inl ⟨self', by rw [Op.exec, hrun]; rfl, h'⟩
    · exact .inr ⟨hov, by rw [Op.exec, hrun]; rfl⟩
  | remove index =>
    obtain ⟨self', hrun, h'⟩ := remove_spec hr h index
    exact .inl ⟨self', by rw [Op.exec, hrun]; rfl, h'⟩
  | pop =>
    obtain ⟨self', hrun, h'⟩ := pop_spec hr h
    exact .inl ⟨self', hrun, h'⟩
  | get index => exact .inl ⟨self, by rw [Op.exec, get_spec h]; rfl, h⟩
  | set index ptr =>
    obtain ⟨self', hrun, h'⟩ := set_spec h index ptr
    exact .inl ⟨self', by rw [Op.exec, hrun]; rfl, h'⟩
  | clear => exact .inl ⟨_, rfl, clear_spec h⟩

/-- A run of calls from a list that holds `l`: it either completes, holding
the list the operations make and returning what they return, or stops at
the exit of `_pointer_list_expand` in a call made on a list that holds what
the calls before it made and whose `_cap + _cap / 2 + 1` does not fit in
32 bits. -/
theorem execOps_spec : ∀ (ops : List (Op α)) {self : PointerList α} {l : List (Option α)},
    Represents self l →
    (∃ self', execOps realloc self ops = .ok (self', (applyOps l ops).2) ∧
        Represents self' (applyOps l ops).1) ∨
      (∃ pre op post self₁ outs, ops = pre ++ op :: post ∧
        execOps realloc self pre = .ok (self₁, outs) ∧ Represents self₁ (applyOps l pre).1 ∧
        2 ^ 32 ≤ self₁.cap.toNat + self₁.cap.toNat / 2 + 1 ∧
        execOps realloc self ops = .error (.exit "ERROR: Pointer list cannot grow larger!\n"))
  | [], self, _, h => .inl ⟨self, rfl, h⟩
  | op :: ops, self, l, h => by
    rcases exec_spec hr h op with ⟨self₁, hexec, h₁⟩ | ⟨hov, hexec⟩
    · rcases execOps_spec ops h₁ with ⟨self', hrun, h'⟩ |
          ⟨pre, op', post, self₂, outs, hops, hpre, h₂, hov, herr⟩
      · exact .inl ⟨self', by rw [execOps, hexec, ok_bind, hrun]; rfl, h'⟩
      · refine .inr ⟨op :: pre, op', post, self₂, (op.apply l).2 :: outs, by rw [hops]; rfl,
          by rw [execOps, hexec, ok_bind, hpre]; rfl, h₂, hov, ?_⟩
        rw [execOps, hexec, ok_bind, herr]
        rfl
    · refine .inr ⟨[], op, ops, self, [], rfl, rfl, h, hov, ?_⟩
      rw [execOps, hexec]
      rfl

end Refinement

/-- From `pointer_list_init`, under `ReallocKeeps`: after every sequence of
calls the first `_len` slots are the list the matching list operations make
from the empty list, with `_len ≤ _cap`, and the calls returned what those
operations return; or the run stopped at the exit of `_pointer_list_expand`
in a call on a list whose `_cap + _cap / 2 + 1` exceeds `2 ^ 32 - 1`. -/
theorem pointerList_refines_list {realloc : Option (ℕ → Option α) → ℕ → ℕ → Option (ℕ → Option α)}
    (hr : ReallocKeeps realloc) (blk : Option (ℕ → Option α)) (ops : List (Op α)) :
    (∃ self', execOps realloc (pointerListInit blk) ops = .ok (self', (applyOps [] ops).2) ∧
        Represents self' (applyOps [] ops).1) ∨
      (∃ pre op post self₁ outs, ops = pre ++ op :: post ∧
        execOps realloc (pointerListInit blk) pre = .ok (self₁, outs) ∧
        Represents self₁ (applyOps [] pre).1 ∧
        2 ^ 32 ≤ self₁.cap.toNat + self₁.cap.toNat / 2 + 1 ∧
        execOps realloc (pointerListInit blk) ops =
          .error (.exit "ERROR: Pointer list cannot grow larger!\n")) :=
  execOps_spec hr ops (represents_init blk)

/-- A `realloc` that keeps the first `min old new` pointers and leaves the
slots after them `NULL`. -/
def keepRealloc (blk : Option (ℕ → Option α)) (old new : ℕ) : Option (ℕ → Option α) :=
  some fun i => if i < min old new then (blk.getD fun _ => none) i else none

theorem reallocKeeps_keepRealloc : ReallocKeeps (@keepRealloc α) :=
  fun _ _ _ => ⟨_, rfl, fun _ hi => if_pos hi⟩

theorem pointerList_refines_list_append_pop :
    ReallocKeeps (@keepRealloc ℕ) ∧
      ((∃ self', execOps keepRealloc (pointerListInit none) [.append (some 7), .pop] =
            .ok (self', (applyOps [] [.append (some 7), .pop]).2) ∧
          Represents self' (applyOps [] [.append (some 7), .pop]).1) ∨
        (∃ pre op post self₁ outs, [.append (some 7), .pop] = pre ++ op :: post ∧
          execOps keepRealloc (pointerListInit none) pre = .ok (self₁, outs) ∧
          Represents self₁ (applyOps [] pre).1 ∧
          2 ^ 32 ≤ self₁.cap.toNat + self₁.cap.toNat / 2 + 1 ∧
          execOps keepRealloc (pointerListInit none) [.append (some 7), .pop] =
            .error (.exit "ERROR: Pointer list cannot grow larger!\n"))) :=
  ⟨reallocKeeps_keepRealloc, pointerList_refines_list reallocKeeps_keepRealloc none _⟩

/-! Contraction to capacity 0. -/

/-- Popping the only pointer of a list of capacity 1: the length drops to 0,
which is the contracted capacity of 1, so `_pointer_list_contract` calls
`_pointer_list_realloc` with `new_cap = 0`, whatever `realloc` does. -/
theorem pop_reallocs_zero (realloc : Option (ℕ → Option α) → ℕ → ℕ → Option (ℕ → Option α))
    {self : PointerList α} {b : ℕ → Option α} (hb : self.list = some b) (hlen : self.len = 1)
    (hcap : self.cap = 1) :
    pointerListPop realloc self =
      (fun self' => (self', b 0)) <$> pointerListRealloc realloc { self with len := 0 } 0 := by
  obtain ⟨list, len, cap⟩ := self
  simp only at hb hlen hcap
  subst hb hlen hcap
  simp [pointerListPop, pointerListRemove, pointerListContract, pointerListContractedCap, readSlot]

/-- glibc's `realloc` on a block of pointers: size 0 frees the block and
returns `NULL`; any other size keeps the first `min old new` pointers. -/
def glibcRealloc (blk : Option (ℕ → Option α)) (old new : ℕ) : Option (ℕ → Option α) :=
  if new = 0 then none else keepRealloc blk old new

/-- `pointer_list_append` then `pointer_list_pop` on a new list, with glibc's
`realloc`: the pop reaches the exit of `_pointer_list_realloc`. -/
theorem append_pop_exits :
    execOps glibcRealloc (pointerListInit none) [.append (some 7), .pop] =
      .error (.exit "ERROR: Unable to allocate memory!\n") := by
  have happ : (Op.append (some 7)).exec glibcRealloc (pointerListInit none) =
      .ok (⟨some (Function.update (fun _ => none) 0 (some 7)), 1, 1⟩, none) := by
    simp [Op.exec, pointerListAppend, pointerListInit, pointerListExpand, pointerListRealloc,
      glibcRealloc, keepRealloc, writeSlot]
  rw [execOps, happ, ok_bind, execOps, Op.exec, pop_reallocs_zero glibcRealloc rfl rfl rfl]
  simp [pointerListRealloc, glibcRealloc]

end DpdkRouter.Utils
