import Mathlib

/-!
Sixteen-bit one's-complement arithmetic, the arithmetic of the Internet
checksum (RFC 1071). Words are natural numbers below `2 ^ 16`. Addition
adds the carry out of bit 15 back in at bit 0 (`fold`), which makes it
addition modulo `modulus = 2 ^ 16 - 1` with two encodings of zero: `0`, and
`modulus`, the "negative zero". A sum is `0` only when every word is `0`.

The main facts: `fold` keeps the residue and does not create zero; a sum is
described by its residue and whether it is zero (`sum_eq_modulus_iff`);
folding a plain sum twice gives the one's-complement sum (`fold_fold_sum`);
and the checksum does not depend on the byte order of the words
(`sum_map_swap_eq_modulus_iff`).
-/

namespace OnesComplement

/-- `2 ^ 16 - 1`, the modulus of 16-bit one's-complement arithmetic. -/
def modulus : ℕ := 2 ^ 16 - 1

/-- The end-around carry: the bits above bit 15 are added back in. -/
def fold (x : ℕ) : ℕ := x / 2 ^ 16 + x % 2 ^ 16

/-- One's-complement addition of two words. -/
def add (a b : ℕ) : ℕ := fold (a + b)

/-- The one's-complement sum of a list of words. -/
def sum (ws : List ℕ) : ℕ := ws.foldl add 0

/-- A 16-bit word with its two bytes exchanged. -/
def swap (w : ℕ) : ℕ := w % 2 ^ 8 * 2 ^ 8 + w / 2 ^ 8

theorem le_modulus {w : ℕ} (hw : w < 2 ^ 16) : w ≤ modulus := by
  unfold modulus
  omega

/-! The end-around carry. -/

theorem fold_mod (x : ℕ) : fold x % modulus = x % modulus := by
  unfold fold modulus
  omega

theorem fold_eq_zero_iff {x : ℕ} : fold x = 0 ↔ x = 0 := by
  unfold fold
  omega

theorem fold_le_of_le {x : ℕ} (h : x ≤ 2 * modulus) : fold x ≤ modulus := by
  unfold fold modulus at *
  omega

theorem fold_le_of_lt {x : ℕ} (h : x < 2 ^ 32) : fold x ≤ 2 * modulus := by
  unfold fold modulus
  omega

/-- Two values of one residue that are zero together are equal: the residue
and zeroness determine a value up to `modulus`. -/
theorem eq_of_mod_eq {a b : ℕ} (ha : a ≤ modulus) (hb : b ≤ modulus)
    (hmod : a % modulus = b % modulus) (hz : a = 0 ↔ b = 0) : a = b := by
  unfold modulus at *
  by_cases ha0 : a = 0
  · have hb0 := hz.mp ha0
    omega
  · have hb0 : b ≠ 0 := fun h => ha0 (hz.mpr h)
    omega

/-! Sums. -/

section Sum

variable {ws : List ℕ}

theorem foldl_add_le {a : ℕ} (ha : a ≤ modulus) (hws : ∀ w ∈ ws, w ≤ modulus) :
    ws.foldl add a ≤ modulus := by
  induction ws generalizing a with
  | nil => exact ha
  | cons w ws ih =>
    have hw := hws w (by simp)
    exact ih (fold_le_of_le (by omega)) (fun v hv => hws v (by simp [hv]))

theorem foldl_add_mod (a : ℕ) : ws.foldl add a % modulus = (a + ws.sum) % modulus := by
  induction ws generalizing a with
  | nil => simp
  | cons w ws ih =>
    rw [List.foldl_cons, ih, add, List.sum_cons, Nat.add_mod, fold_mod, ← Nat.add_mod,
      Nat.add_assoc]

theorem foldl_add_eq_zero_iff (a : ℕ) : ws.foldl add a = 0 ↔ a = 0 ∧ ∀ w ∈ ws, w = 0 := by
  induction ws generalizing a with
  | nil => simp
  | cons w ws ih =>
    rw [List.foldl_cons, ih, add, fold_eq_zero_iff, List.forall_mem_cons, Nat.add_eq_zero_iff,
      and_assoc]

theorem list_sum_le (hws : ∀ w ∈ ws, w ≤ modulus) : ws.sum ≤ ws.length * modulus := by
  induction ws with
  | nil => simp
  | cons w ws ih =>
    have hw := hws w (by simp)
    have ih' := ih (fun v hv => hws v (by simp [hv]))
    rw [List.sum_cons, List.length_cons, Nat.succ_mul]
    omega

theorem sum_le (hws : ∀ w ∈ ws, w ≤ modulus) : sum ws ≤ modulus :=
  foldl_add_le (Nat.zero_le _) hws

theorem sum_mod : sum ws % modulus = ws.sum % modulus := by
  rw [sum, foldl_add_mod, Nat.zero_add]

theorem sum_eq_zero_iff : sum ws = 0 ↔ ∀ w ∈ ws, w = 0 := by
  rw [sum, foldl_add_eq_zero_iff]
  simp

/-- The checksum condition of RFC 1071: the sum is negative zero exactly when
the plain sum is a multiple of `modulus` and some word is not zero. -/
theorem sum_eq_modulus_iff (hws : ∀ w ∈ ws, w ≤ modulus) :
    sum ws = modulus ↔ ws.sum % modulus = 0 ∧ ∃ w ∈ ws, w ≠ 0 := by
  have hle := sum_le hws
  have hmod : sum ws % modulus = ws.sum % modulus := sum_mod
  have hzero : sum ws = 0 ↔ ∀ w ∈ ws, w = 0 := sum_eq_zero_iff
  constructor
  · intro h
    refine ⟨by rw [← hmod, h, Nat.mod_self], ?_⟩
    by_contra hall
    have := hzero.mpr fun w hw => by_contra fun hw0 => hall ⟨w, hw, hw0⟩
    unfold modulus at h
    omega
  · rintro ⟨h0, w, hw, hw0⟩
    have hne : sum ws ≠ 0 := fun h => hw0 (hzero.mp h w hw)
    unfold modulus at *
    omega

/-- Folding a plain 32-bit sum twice, as implementations do, gives the
one's-complement sum. -/
theorem fold_fold_sum (hws : ∀ w ∈ ws, w ≤ modulus) (hlt : ws.sum < 2 ^ 32) :
    fold (fold ws.sum) = sum ws := by
  apply eq_of_mod_eq (fold_le_of_le (fold_le_of_lt hlt)) (sum_le hws)
  · rw [fold_mod, fold_mod, sum_mod]
  · rw [fold_eq_zero_iff, fold_eq_zero_iff, sum_eq_zero_iff, List.sum_eq_zero_iff_forall_eq_nat]

end Sum

/-! Byte order. -/

theorem swap_mod (w : ℕ) : swap w % modulus = 2 ^ 8 * w % modulus := by
  unfold swap modulus
  omega

theorem swap_eq_zero_iff {w : ℕ} : swap w = 0 ↔ w = 0 := by
  unfold swap
  omega

theorem swap_lt {w : ℕ} (hw : w < 2 ^ 16) : swap w < 2 ^ 16 := by
  unfold swap
  omega

theorem sum_map_swap_mod (ws : List ℕ) :
    (ws.map swap).sum % modulus = 2 ^ 8 * ws.sum % modulus := by
  induction ws with
  | nil => simp
  | cons w ws ih =>
    rw [List.map_cons, List.sum_cons, List.sum_cons, Nat.mul_add, Nat.add_mod, swap_mod, ih,
      ← Nat.add_mod]

/-- The checksum holds of the words in either byte order (RFC 1071, 2(B)). -/
theorem sum_map_swap_eq_modulus_iff {ws : List ℕ} (hws : ∀ w ∈ ws, w < 2 ^ 16) :
    sum (ws.map swap) = modulus ↔ sum ws = modulus := by
  have hle : ∀ w ∈ ws, w ≤ modulus := fun w hw => by
    have := hws w hw
    unfold modulus
    omega
  have hle' : ∀ w ∈ ws.map swap, w ≤ modulus := by
    simp only [List.mem_map, forall_exists_index, and_imp, forall_apply_eq_imp_iff₂]
    intro w hw
    have := swap_lt (hws w hw)
    unfold modulus
    omega
  rw [sum_eq_modulus_iff hle', sum_eq_modulus_iff hle, sum_map_swap_mod]
  have hres : 2 ^ 8 * ws.sum % modulus = 0 ↔ ws.sum % modulus = 0 := by
    unfold modulus
    omega
  have hnz : (∃ w ∈ ws.map swap, w ≠ 0) ↔ ∃ w ∈ ws, w ≠ 0 := by
    simp only [List.mem_map, ne_eq, exists_exists_and_eq_and, swap_eq_zero_iff]
  rw [hres, hnz]

end OnesComplement
