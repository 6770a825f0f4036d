import Mathlib.Tactic.Common
import Mathlib.Tactic.Linarith

/-!
Longest-prefix matching in the abstract. A `w`-bit value `a` matches a prefix
`(key, p)` when the top `p` bits of `a` and `key` agree; the bits of `key`
below the prefix play no part, and a zero-length prefix matches everything.
Among candidates `0, ..., n - 1` the selection keeps the longest matching
prefix and, among equally long ones, the candidate that came last. The
selection is given as a left-to-right scan (`bestMatch`) and characterised by
`bestMatch_eq_some_iff`. The next lemmas split a prefix test on a `w`-bit
value into a test on its high and low digits, as a two-level lookup table
does. The last ones are about the other way to find a longest prefix: a list
kept sorted by decreasing length, into which each entry goes before the
first shorter one, and whose first hit is then a longest hit.
-/

namespace PrefixMatch

/-- The top `p` bits of the `w`-bit values `key` and `a` agree. -/
def Matches (w p key a : ℕ) : Prop := a / 2 ^ (w - p) = key / 2 ^ (w - p)

instance (w p key a : ℕ) : Decidable (Matches w p key a) :=
  inferInstanceAs (Decidable (_ = _))

/-- Selection in arrival order: candidate `k` replaces the current choice
when its prefix is at least as long. -/
def better (len : ℕ → ℕ) : Option ℕ → ℕ → Option ℕ
  | none, k => some k
  | some j, k => if len j ≤ len k then some k else some j

/-- The scan over candidates `0, ..., n - 1` that keeps the best hit. -/
def bestMatch (len : ℕ → ℕ) (hit : ℕ → Prop) [DecidablePred hit] : ℕ → Option ℕ
  | 0 => none
  | n + 1 => if hit n then better len (bestMatch len hit n) n else bestMatch len hit n

/-- `k` is the longest hit below `n`, and the last one among equally long hits. -/
def IsBest (len : ℕ → ℕ) (hit : ℕ → Prop) (n k : ℕ) : Prop :=
  k < n ∧ hit k ∧ ∀ j < n, hit j → len j < len k ∨ (len j = len k ∧ j ≤ k)

variable {len : ℕ → ℕ} {hit : ℕ → Prop}

theorem IsBest.unique {n k k' : ℕ} (hk : IsBest len hit n k) (hk' : IsBest len hit n k') :
    k = k' := by
  obtain ⟨hkn, hkh, hkall⟩ := hk
  obtain ⟨hkn', hkh', hkall'⟩ := hk'
  rcases hkall k' hkn' hkh' with h | ⟨h, hle⟩ <;>
    rcases hkall' k hkn hkh with h' | ⟨h', hle'⟩ <;> omega

theorem better_isSome (o : Option ℕ) (k : ℕ) : (better len o k).isSome := by
  cases o with
  | none => rfl
  | some j => by_cases h : len j ≤ len k <;> simp [better, h]

private theorem isBest_better_none {n : ℕ} (hnone : ∀ j < n, ¬ hit j) (hn : hit n) :
    IsBest len hit (n + 1) n := by
  refine ⟨by omega, hn, fun j hj hhit => ?_⟩
  rcases Nat.lt_succ_iff_lt_or_eq.mp hj with hj | rfl
  · exact absurd hhit (hnone j hj)
  · exact Or.inr ⟨rfl, le_rfl⟩

private theorem isBest_better_some {n j : ℕ} (hj : IsBest len hit n j) (hn : hit n) :
    ∀ k, better len (some j) n = some k → IsBest len hit (n + 1) k := by
  obtain ⟨hjn, hjh, hjall⟩ := hj
  intro k hk
  by_cases hle : len j ≤ len n
  · simp only [better, hle, if_true, Option.some.injEq] at hk
    subst hk
    refine ⟨by omega, hn, fun i hi hhit => ?_⟩
    rcases Nat.lt_succ_iff_lt_or_eq.mp hi with hi | rfl
    · rcases hjall i hi hhit with h | ⟨h, _⟩ <;> omega
    · exact Or.inr ⟨rfl, le_rfl⟩
  · simp only [better, hle, if_false, Option.some.injEq] at hk
    subst hk
    refine ⟨by omega, hjh, fun i hi hhit => ?_⟩
    rcases Nat.lt_succ_iff_lt_or_eq.mp hi with hi | rfl
    · exact hjall i hi hhit
    · exact Or.inl (by omega)

variable [DecidablePred hit]

@[simp] theorem bestMatch_zero : bestMatch len hit 0 = none := rfl

theorem bestMatch_succ (n : ℕ) :
    bestMatch len hit (n + 1) =
      if hit n then better len (bestMatch len hit n) n else bestMatch len hit n := rfl

theorem bestMatch_eq_none_iff {n : ℕ} : bestMatch len hit n = none ↔ ∀ j < n, ¬ hit j := by
  induction n with
  | zero => simp
  | succ n ih =>
    rw [bestMatch_succ]
    by_cases hn : hit n
    · simp only [hn, if_true]
      constructor
      · intro h
        have hs : (better len (bestMatch len hit n) n).isSome := better_isSome _ _
        rw [h] at hs
        cases hs
      · intro h
        exact absurd hn (h n (by omega))
    · simp only [hn, if_false, ih]
      constructor
      · intro h j hj
        rcases Nat.lt_succ_iff_lt_or_eq.mp hj with hj | rfl
        · exact h j hj
        · exact hn
      · intro h j hj
        exact h j (by omega)

theorem bestMatch_isBest {n k : ℕ} (h : bestMatch len hit n = some k) :
    IsBest len hit n k := by
  induction n generalizing k with
  | zero => cases h
  | succ n ih =>
    rw [bestMatch_succ] at h
    by_cases hn : hit n
    · simp only [hn, if_true] at h
      cases hb : bestMatch len hit n with
      | none =>
        rw [hb] at h
        cases h
        exact isBest_better_none (bestMatch_eq_none_iff.mp hb) hn
      | some j =>
        rw [hb] at h
        exact isBest_better_some (ih hb) hn k h
    · simp only [hn, if_false] at h
      obtain ⟨hkn, hkh, hkall⟩ := ih h
      refine ⟨by omega, hkh, fun j hj hhit => ?_⟩
      rcases Nat.lt_succ_iff_lt_or_eq.mp hj with hj | rfl
      · exact hkall j hj hhit
      · exact absurd hhit hn

/-- The scan returns exactly the longest hit, the last among equals. -/
theorem bestMatch_eq_some_iff {n k : ℕ} :
    bestMatch len hit n = some k ↔ IsBest len hit n k := by
  constructor
  · exact bestMatch_isBest
  · intro hk
    cases hb : bestMatch len hit n with
    | none => exact absurd hk.2.1 (bestMatch_eq_none_iff.mp hb k hk.1)
    | some j => rw [(bestMatch_isBest hb).unique hk]

/-! Splitting a prefix test into digits. -/

theorem matches_iff_range {w p key a : ℕ} :
    Matches w p key a ↔
      key / 2 ^ (w - p) * 2 ^ (w - p) ≤ a ∧
        a ≤ key / 2 ^ (w - p) * 2 ^ (w - p) + 2 ^ (w - p) - 1 :=
  Nat.div_eq_iff (Nat.two_pow_pos _)

/-- For a prefix inside the high `w - s` bits, only the high digits matter. -/
theorem matches_high {w s p key a : ℕ} (hp : p + s ≤ w) :
    Matches w p key a ↔ Matches (w - s) p (key / 2 ^ s) (a / 2 ^ s) := by
  have hw : w - p = s + (w - s - p) := by omega
  unfold Matches
  rw [hw, Nat.pow_add, ← Nat.div_div_eq_div_mul, ← Nat.div_div_eq_div_mul]

private theorem digits_eq_iff {a b α β M : ℕ} (hα : α < M) (hβ : β < M) :
    a * M + α = b * M + β ↔ a = b ∧ α = β := by
  constructor
  · intro h
    have hM : 0 < M := by omega
    have h1 := congrArg (· / M) h
    have h2 := congrArg (· % M) h
    simp only [Nat.mul_comm _ M, Nat.mul_add_div hM, Nat.div_eq_of_lt hα, Nat.div_eq_of_lt hβ,
      Nat.mul_add_mod, Nat.mod_eq_of_lt hα, Nat.mod_eq_of_lt hβ] at h1 h2
    omega
  · rintro ⟨rfl, rfl⟩
    rfl

/-- A prefix reaching into the low `s` bits matches when the high digits are
equal and the low digits match the rest of the prefix. -/
theorem matches_low {w s p key a : ℕ} (hs : w - p ≤ s) (hsw : s ≤ w) :
    Matches w p key a ↔
      a / 2 ^ s = key / 2 ^ s ∧ Matches s (p - (w - s)) (key % 2 ^ s) (a % 2 ^ s) := by
  obtain ⟨m, hm⟩ : ∃ m, s = (w - p) + m := ⟨s - (w - p), by omega⟩
  have hd : s - (p - (w - s)) = w - p := by omega
  have hsplit : ∀ x : ℕ, x / 2 ^ (w - p) = x / 2 ^ s * 2 ^ m + x % 2 ^ s / 2 ^ (w - p) := by
    intro x
    have h1 : x = 2 ^ (w - p) * (x / 2 ^ s * 2 ^ m) + x % 2 ^ s := by
      rw [Nat.mul_comm (x / 2 ^ s), ← Nat.mul_assoc, ← Nat.pow_add, ← hm]
      exact (Nat.div_add_mod x (2 ^ s)).symm
    conv_lhs => rw [h1]
    rw [Nat.mul_add_div (Nat.two_pow_pos _)]
  have hlow : ∀ x : ℕ, x % 2 ^ s / 2 ^ (w - p) < 2 ^ m := by
    intro x
    apply Nat.div_lt_of_lt_mul
    rw [← Nat.pow_add, ← hm]
    exact Nat.mod_lt _ (Nat.two_pow_pos _)
  unfold Matches
  rw [hd, hsplit a, hsplit key, digits_eq_iff (hlow a) (hlow key)]

/-! Lists sorted by decreasing length. -/

section SortedList

variable {α : Type*} {key : α → ℕ}

/-- Sorted by decreasing `key`. -/
def SortedDesc (key : α → ℕ) (l : List α) : Prop := l.Pairwise fun x y => key y ≤ key x

/-- Inserting `x` before the first entry with a smaller key keeps the list
sorted; `p` is that test. -/
theorem sortedDesc_insertIdx_findIdx {l : List α} (hl : SortedDesc key l) {x : α} {p : α → Bool}
    (hp : ∀ y, p y = true ↔ key y < key x) : SortedDesc key (l.insertIdx (l.findIdx p) x) := by
  induction l with
  | nil => simp [SortedDesc]
  | cons y ys ih =>
    unfold SortedDesc at hl ih ⊢
    rw [List.pairwise_cons] at hl
    by_cases hy : p y = true
    · -- `x` goes in front: it is longer than `y`, and so than all of `ys`
      have hlt := (hp y).mp hy
      simp only [List.findIdx_cons, hy, cond_true, List.insertIdx_zero]
      refine List.pairwise_cons.mpr ⟨fun b hb => ?_, List.pairwise_cons.mpr hl⟩
      rcases List.mem_cons.mp hb with rfl | hb
      · omega
      · have := hl.1 b hb
        omega
    · -- `y` stays in front, and is at least as long as `x`
      have hge : key x ≤ key y := by
        by_contra hlt
        exact hy ((hp y).mpr (by omega))
      simp only [List.findIdx_cons, hy, cond_false, List.insertIdx_succ_cons]
      refine List.pairwise_cons.mpr ⟨fun b hb => ?_, ih hl.2⟩
      rcases List.mem_cons.mp ((List.perm_insertIdx x ys List.findIdx_le_length).mem_iff.mp hb) with rfl | hb
      · exact hge
      · exact hl.1 b hb

/-- The first hit in a list sorted by decreasing key has the largest key among
the hits. -/
theorem SortedDesc.key_le_of_find? {l : List α} (hl : SortedDesc key l) {p : α → Bool} {x : α}
    (h : l.find? p = some x) : ∀ y ∈ l, p y = true → key y ≤ key x := by
  obtain ⟨-, as, bs, rfl, has⟩ := List.find?_eq_some_iff_append.mp h
  unfold SortedDesc at hl
  rw [List.pairwise_append, List.pairwise_cons] at hl
  intro y hy hpy
  rcases List.mem_append.mp hy with hy | hy
  · have := has y hy
    simp [hpy] at this
  · rcases List.mem_cons.mp hy with rfl | hy
    · exact le_rfl
    · exact hl.2.1.1 y hy

end SortedList

end PrefixMatch
