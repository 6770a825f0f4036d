import Mathlib

/-!
A byte buffer as C code reads and writes it through pointers into it: a
`List UInt8`, with loads and stores of single bytes, runs of bytes, and 16-
and 32-bit words in either byte order at a byte offset. A load past the end
of the buffer reads `0` and a store past the end is dropped, so that every
operation is total; the lemmas below say what a load after a store reads.

Every multi-byte access is a run of single-byte accesses, so one lemma,
`load8_storeBytes`, describes all loads after all stores.
-/

namespace ByteBuf

/-- The byte at offset `i`. -/
def load8 (b : List UInt8) (i : ℕ) : UInt8 := b.getD i 0

/-- The `n` bytes from offset `i`. -/
def loadBytes (b : List UInt8) (i n : ℕ) : List UInt8 := (List.range n).map fun k => load8 b (i + k)

/-- Writes the bytes `vs` from offset `i` on. -/
def storeBytes : List UInt8 → ℕ → List UInt8 → List UInt8
  | b, _, [] => b
  | b, i, v :: vs => storeBytes (b.set i v) (i + 1) vs

/-- A 16-bit load on a little-endian host. -/
def loadLE16 (b : List UInt8) (i : ℕ) : UInt16 :=
  UInt16.ofNat ((load8 b i).toNat + 2 ^ 8 * (load8 b (i + 1)).toNat)

/-- A 16-bit load of a big-endian (network order) field. -/
def loadBE16 (b : List UInt8) (i : ℕ) : UInt16 :=
  UInt16.ofNat (2 ^ 8 * (load8 b i).toNat + (load8 b (i + 1)).toNat)

/-- A 32-bit load on a little-endian host. -/
def loadLE32 (b : List UInt8) (i : ℕ) : UInt32 :=
  UInt32.ofNat ((load8 b i).toNat + 2 ^ 8 * (load8 b (i + 1)).toNat +
    2 ^ 16 * (load8 b (i + 2)).toNat + 2 ^ 24 * (load8 b (i + 3)).toNat)

/-- A 32-bit load of a big-endian (network order) field. -/
def loadBE32 (b : List UInt8) (i : ℕ) : UInt32 :=
  UInt32.ofNat (2 ^ 24 * (load8 b i).toNat + 2 ^ 16 * (load8 b (i + 1)).toNat +
    2 ^ 8 * (load8 b (i + 2)).toNat + (load8 b (i + 3)).toNat)

/-- The bytes of a 16-bit word on a little-endian host. -/
def le16Bytes (v : UInt16) : List UInt8 := [UInt8.ofNat v.toNat, UInt8.ofNat (v.toNat / 2 ^ 8)]

/-- The bytes of a 16-bit word in network order. -/
def be16Bytes (v : UInt16) : List UInt8 := [UInt8.ofNat (v.toNat / 2 ^ 8), UInt8.ofNat v.toNat]

/-- The bytes of a 32-bit word on a little-endian host. -/
def le32Bytes (v : UInt32) : List UInt8 :=
  [UInt8.ofNat v.toNat, UInt8.ofNat (v.toNat / 2 ^ 8), UInt8.ofNat (v.toNat / 2 ^ 16),
    UInt8.ofNat (v.toNat / 2 ^ 24)]

def store8 (b : List UInt8) (i : ℕ) (v : UInt8) : List UInt8 := b.set i v

def storeLE16 (b : List UInt8) (i : ℕ) (v : UInt16) : List UInt8 := storeBytes b i (le16Bytes v)

def storeBE16 (b : List UInt8) (i : ℕ) (v : UInt16) : List UInt8 := storeBytes b i (be16Bytes v)

def storeLE32 (b : List UInt8) (i : ℕ) (v : UInt32) : List UInt8 := storeBytes b i (le32Bytes v)

/-- The `n` little-endian 16-bit words from offset `i`, as numbers. -/
def leWords (b : List UInt8) (i n : ℕ) : List ℕ := (List.range n).map fun k => (loadLE16 b (i + 2 * k)).toNat

/-- The `n` network-order 16-bit words from offset `i`, as numbers. -/
def beWords (b : List UInt8) (i n : ℕ) : List ℕ := (List.range n).map fun k => (loadBE16 b (i + 2 * k)).toNat

/-! Stores. -/

@[simp]
theorem length_storeBytes (b : List UInt8) (i : ℕ) (vs : List UInt8) :
    (storeBytes b i vs).length = b.length := by
  induction vs generalizing b i with
  | nil => rfl
  | cons v vs ih => rw [storeBytes, ih, List.length_set]

@[simp]
theorem length_store8 (b : List UInt8) (i : ℕ) (v : UInt8) : (store8 b i v).length = b.length :=
  List.length_set

theorem load8_of_length_le {b : List UInt8} {i : ℕ} (h : b.length ≤ i) : load8 b i = 0 := by
  rw [load8, List.getD_eq_getElem?_getD, List.getElem?_eq_none h, Option.getD_none]

theorem lt_length_of_load8_ne_zero {b : List UInt8} {i : ℕ} (h : load8 b i ≠ 0) : i < b.length := by
  by_contra hge
  exact h (load8_of_length_le (by omega))

theorem load8_store8 (b : List UInt8) (i k : ℕ) (v : UInt8) :
    load8 (store8 b i v) k = if k = i ∧ i < b.length then v else load8 b k := by
  unfold load8 store8
  rw [List.getD_eq_getElem?_getD, List.getElem?_set, List.getD_eq_getElem?_getD]
  by_cases hk : k = i
  · subst hk
    by_cases hlt : k < b.length
    · simp [hlt]
    · simp [hlt]
  · simp [Ne.symm hk, hk]

/-- A load after a run of stores reads the stored byte inside the run and
the buffer, and the old byte elsewhere. -/
theorem load8_storeBytes (b : List UInt8) (i : ℕ) (vs : List UInt8) (k : ℕ) :
    load8 (storeBytes b i vs) k =
      if i ≤ k ∧ k < i + vs.length ∧ k < b.length then vs.getD (k - i) 0 else load8 b k := by
  induction vs generalizing b i with
  | nil =>
    rw [storeBytes, if_neg (by simp only [List.length_nil]; omega)]
  | cons v vs ih =>
    rw [storeBytes, ih, List.length_set, List.length_cons]
    have hset := load8_store8 b i k v
    unfold store8 at hset
    rw [hset]
    by_cases hki : k = i
    · subst hki
      rw [if_neg (by omega)]
      by_cases hlt : k < b.length <;> simp [hlt]
    · by_cases hin : i + 1 ≤ k ∧ k < i + 1 + vs.length ∧ k < b.length
      · rw [if_pos hin, if_pos (by omega),
          show k - i = (k - (i + 1)) + 1 by omega, List.getD_cons_succ]
      · rw [if_neg hin, if_neg (by omega), if_neg (by omega)]

theorem load8_storeBytes_of_lt {b : List UInt8} {i k : ℕ} (vs : List UInt8) (h : k < i) :
    load8 (storeBytes b i vs) k = load8 b k := by
  rw [load8_storeBytes, if_neg (by omega)]

theorem load8_storeBytes_of_le {b : List UInt8} {i k : ℕ} {vs : List UInt8}
    (h : i + vs.length ≤ k) : load8 (storeBytes b i vs) k = load8 b k := by
  rw [load8_storeBytes, if_neg (by omega)]

theorem load8_storeBytes_self {b : List UInt8} {i : ℕ} {vs : List UInt8} {j : ℕ}
    (hj : j < vs.length) (hb : i + j < b.length) :
    load8 (storeBytes b i vs) (i + j) = vs[j] := by
  rw [load8_storeBytes, if_pos (by omega), Nat.add_sub_cancel_left, ← List.getElem_eq_getD]

theorem store8_eq_storeBytes (b : List UInt8) (i : ℕ) (v : UInt8) : store8 b i v = storeBytes b i [v] :=
  rfl

@[simp]
theorem length_le16Bytes (v : UInt16) : (le16Bytes v).length = 2 := rfl

/-- A 16-bit word stored inside the buffer reads back. -/
theorem loadLE16_storeLE16_self {b : List UInt8} {i : ℕ} (hb : i + 2 ≤ b.length) (v : UInt16) :
    loadLE16 (storeLE16 b i v) i = v := by
  have h0 := @load8_storeBytes_self b i (le16Bytes v) 0 (by simp) (by omega)
  have h1 := @load8_storeBytes_self b i (le16Bytes v) 1 (by simp) (by omega)
  have hv := v.toNat_lt
  rw [Nat.add_zero] at h0
  apply UInt16.toNat_inj.mp
  rw [loadLE16, storeLE16, h0, h1, UInt16.toNat_ofNat']
  simp only [le16Bytes, List.getElem_cons_zero, List.getElem_cons_succ, UInt8.toNat_ofNat']
  omega

@[simp]
theorem length_be16Bytes (v : UInt16) : (be16Bytes v).length = 2 := rfl

@[simp]
theorem length_le32Bytes (v : UInt32) : (le32Bytes v).length = 4 := rfl

theorem loadBE16_storeBE16_self {b : List UInt8} {i : ℕ} (hb : i + 2 ≤ b.length) (v : UInt16) :
    loadBE16 (storeBE16 b i v) i = v := by
  have h0 := @load8_storeBytes_self b i (be16Bytes v) 0 (by simp) (by omega)
  have h1 := @load8_storeBytes_self b i (be16Bytes v) 1 (by simp) (by omega)
  have hv := v.toNat_lt
  rw [Nat.add_zero] at h0
  apply UInt16.toNat_inj.mp
  rw [loadBE16, storeBE16, h0, h1, UInt16.toNat_ofNat']
  simp only [be16Bytes, List.getElem_cons_zero, List.getElem_cons_succ, UInt8.toNat_ofNat']
  omega

theorem loadLE32_storeLE32_self {b : List UInt8} {i : ℕ} (hb : i + 4 ≤ b.length) (v : UInt32) :
    loadLE32 (storeLE32 b i v) i = v := by
  have h0 := @load8_storeBytes_self b i (le32Bytes v) 0 (by simp) (by omega)
  have h1 := @load8_storeBytes_self b i (le32Bytes v) 1 (by simp) (by omega)
  have h2 := @load8_storeBytes_self b i (le32Bytes v) 2 (by simp) (by omega)
  have h3 := @load8_storeBytes_self b i (le32Bytes v) 3 (by simp) (by omega)
  have hv := v.toNat_lt
  rw [Nat.add_zero] at h0
  apply UInt32.toNat_inj.mp
  rw [loadLE32, storeLE32, h0, h1, h2, h3, UInt32.toNat_ofNat']
  simp only [le32Bytes, List.getElem_cons_zero, List.getElem_cons_succ, UInt8.toNat_ofNat']
  omega

/-- Storing `0` zeroes the word, also where it runs past the end. -/
theorem loadLE16_storeLE16_zero (b : List UInt8) (i : ℕ) : loadLE16 (storeLE16 b i 0) i = 0 := by
  have hzero : ∀ k, load8 (storeLE16 b i 0) k = 0 ∨ k ≠ i ∧ k ≠ i + 1 := by
    intro k
    rw [storeLE16, load8_storeBytes]
    split_ifs with hk
    · left
      simp only [length_le16Bytes] at hk
      rcases (show k - i = 0 ∨ k - i = 1 by omega) with h | h <;> rw [h] <;> rfl
    · by_cases hlt : k < b.length
      · right
        simp only [length_le16Bytes] at hk
        omega
      · exact Or.inl (load8_of_length_le (by omega))
  have h0 := (hzero i).resolve_right (by omega)
  have h1 := (hzero (i + 1)).resolve_right (by omega)
  rw [loadLE16, h0, h1]
  rfl

/-- `load` reads the `w` bytes from its offset on and no other byte. -/
def ReadsWithin {β : Type} (load : List UInt8 → ℕ → β) (w : ℕ) : Prop :=
  ∀ b b' j, (∀ k < w, load8 b (j + k) = load8 b' (j + k)) → load b j = load b' j

/-- A load is not changed by a store outside the bytes it reads. -/
theorem ReadsWithin.storeBytes_of_disjoint {β : Type} {load : List UInt8 → ℕ → β} {w : ℕ}
    (hload : ReadsWithin load w) {b : List UInt8} {i j : ℕ} {vs : List UInt8}
    (h : j + w ≤ i ∨ i + vs.length ≤ j) : load (storeBytes b i vs) j = load b j :=
  hload _ _ _ fun k hk => by rw [load8_storeBytes, if_neg (by omega)]

theorem readsWithin_loadLE16 : ReadsWithin loadLE16 2 := by
  intro b b' j h
  have h0 := h 0 (by omega)
  rw [Nat.add_zero] at h0
  rw [loadLE16, loadLE16, h0, h 1 (by omega)]

theorem readsWithin_loadBE16 : ReadsWithin loadBE16 2 := by
  intro b b' j h
  have h0 := h 0 (by omega)
  rw [Nat.add_zero] at h0
  rw [loadBE16, loadBE16, h0, h 1 (by omega)]

theorem readsWithin_loadLE32 : ReadsWithin loadLE32 4 := by
  intro b b' j h
  have h0 := h 0 (by omega)
  rw [Nat.add_zero] at h0
  rw [loadLE32, loadLE32, h0, h 1 (by omega), h 2 (by omega), h 3 (by omega)]

theorem readsWithin_loadBE32 : ReadsWithin loadBE32 4 := by
  intro b b' j h
  have h0 := h 0 (by omega)
  rw [Nat.add_zero] at h0
  rw [loadBE32, loadBE32, h0, h 1 (by omega), h 2 (by omega), h 3 (by omega)]

/-! Words as numbers. -/

theorem toNat_loadLE16 (b : List UInt8) (i : ℕ) :
    (loadLE16 b i).toNat = (load8 b i).toNat + 2 ^ 8 * (load8 b (i + 1)).toNat := by
  have h0 := (load8 b i).toNat_lt
  have h1 := (load8 b (i + 1)).toNat_lt
  rw [loadLE16, UInt16.toNat_ofNat', Nat.mod_eq_of_lt (by omega)]

theorem toNat_loadBE16 (b : List UInt8) (i : ℕ) :
    (loadBE16 b i).toNat = 2 ^ 8 * (load8 b i).toNat + (load8 b (i + 1)).toNat := by
  have h0 := (load8 b i).toNat_lt
  have h1 := (load8 b (i + 1)).toNat_lt
  rw [loadBE16, UInt16.toNat_ofNat', Nat.mod_eq_of_lt (by omega)]

theorem length_leWords (b : List UInt8) (i n : ℕ) : (leWords b i n).length = n := by
  simp [leWords]

theorem leWords_add (b : List UInt8) (i m n : ℕ) :
    leWords b i (m + n) = leWords b i m ++ leWords b (i + 2 * m) n := by
  simp only [leWords, List.range_add, List.map_append, List.map_map]
  congr 1
  apply List.map_congr_left
  intro k _
  simp only [Function.comp_apply, Nat.mul_add, Nat.add_assoc]

theorem leWords_one (b : List UInt8) (i : ℕ) : leWords b i 1 = [(loadLE16 b i).toNat] := by
  simp [leWords]

theorem leWords_lt {b : List UInt8} {i n w : ℕ} (hw : w ∈ leWords b i n) : w < 2 ^ 16 := by
  simp only [leWords, List.mem_map] at hw
  obtain ⟨k, _, rfl⟩ := hw
  exact (loadLE16 b (i + 2 * k)).toNat_lt

/-- Words that lie before or after a run of stores are unchanged. -/
theorem leWords_storeBytes_of_disjoint {b : List UInt8} {i j n : ℕ} {vs : List UInt8}
    (h : j + 2 * n ≤ i ∨ i + vs.length ≤ j) : leWords (storeBytes b i vs) j n = leWords b j n := by
  unfold leWords
  apply List.map_congr_left
  intro k hk
  rw [List.mem_range] at hk
  rw [toNat_loadLE16, toNat_loadLE16, load8_storeBytes, load8_storeBytes, if_neg (by omega),
    if_neg (by omega)]

end ByteBuf
