import Mathlib.Logic.Function.Basic
import Mathlib.Tactic.Common

/-!
A buffer of slots that holds a list in its first slots, as a growable array
does. `Holds b l` says slot `i` of `b` is `l[i]` for every index of `l`; the
slots past the list are free. The moves of a growable array are stated on
the buffer: writing one slot, moving a run of slots down by one (removal) and
up by one with a new value in front (insertion). Each move is proved to hold
the list operation it implements.
-/

namespace SlotBuffer

variable {β : Type*}

/-- The first `l.length` slots of `b` are the list `l`. -/
def Holds (b : ℕ → β) (l : List β) : Prop :=
  ∀ i (h : i < l.length), b i = l[i]

/-- Slots `lo, ..., lo + n - 1` each take the value of the slot above. -/
def shiftDown (b : ℕ → β) (lo n : ℕ) : ℕ → β :=
  fun j => if lo ≤ j ∧ j < lo + n then b (j + 1) else b j

/-- Slots `lo + 1, ..., lo + n - 1` each take the value of the slot below, and
slot `lo` takes `x`. -/
def shiftUp (b : ℕ → β) (x : β) (lo n : ℕ) : ℕ → β :=
  fun j => if lo ≤ j ∧ j < lo + n then (if j = lo then x else b (j - 1)) else b j

variable {b b' : ℕ → β} {l : List β}

theorem Holds.nil (b : ℕ → β) : Holds b [] :=
  fun _ h => absurd h (Nat.not_lt_zero _)

/-- Slots past the list may change. -/
theorem Holds.congr (h : Holds b l) (hb : ∀ i < l.length, b' i = b i) : Holds b' l :=
  fun i hi => (hb i hi).trans (h i hi)

theorem Holds.update_of_lt (h : Holds b l) {i : ℕ} (hi : i < l.length) (x : β) :
    Holds (Function.update b i x) (l.set i x) := by
  intro j hj
  rw [List.length_set] at hj
  rw [List.getElem_set]
  by_cases hji : j = i
  · subst hji
    simp
  · rw [Function.update_of_ne hji, if_neg (Ne.symm hji)]
    exact h j hj

/-- Writing the first free slot pushes onto the list. -/
theorem Holds.update_length (h : Holds b l) (x : β) :
    Holds (Function.update b l.length x) (l ++ [x]) := by
  intro j hj
  rw [List.length_append, List.length_singleton] at hj
  rw [List.getElem_append]
  by_cases hjl : j < l.length
  · rw [Function.update_of_ne (Nat.ne_of_lt hjl), dif_pos hjl]
    exact h j hjl
  · have hj' : j = l.length := by omega
    subst hj'
    simp

theorem Holds.of_append {l' : List β} (h : Holds b (l ++ l')) : Holds b l := by
  intro j hj
  rw [h j (by rw [List.length_append]; omega), List.getElem_append_left hj]

/-- Moving slots `i + 1, ..., l.length - 1` down by one erases index `i`. -/
theorem Holds.shiftDown (h : Holds b l) {i : ℕ} (hi : i < l.length) :
    Holds (shiftDown b i (l.length - 1 - i)) (l.eraseIdx i) := by
  intro j hj
  rw [List.length_eraseIdx_of_lt hi] at hj
  rw [List.getElem_eraseIdx]
  by_cases hji : j < i
  · rw [dif_pos hji, SlotBuffer.shiftDown, if_neg (by omega)]
    exact h j (by omega)
  · rw [dif_neg hji, SlotBuffer.shiftDown, if_pos (by omega)]
    exact h (j + 1) (by omega)

/-- Moving slots `i, ..., l.length - 1` up by one and writing `x` at `i`
inserts `x` before index `i`. The slot at `l.length` is overwritten, so the
buffer may hold anything there. -/
theorem Holds.shiftUp (h : Holds b l) {i : ℕ} (hi : i ≤ l.length) (x : β) :
    Holds (shiftUp b x i (l.length + 1 - i)) (l.insertIdx i x) := by
  intro j hj
  rw [List.length_insertIdx_of_le_length hi] at hj
  rw [List.getElem_insertIdx]
  by_cases hji : j < i
  · rw [dif_pos hji, SlotBuffer.shiftUp, if_neg (by omega)]
    exact h j (by omega)
  · rw [dif_neg hji, SlotBuffer.shiftUp, if_pos (by omega)]
    by_cases hjeq : j = i
    · rw [dif_pos hjeq, if_pos hjeq]
    · rw [dif_neg hjeq, if_neg hjeq]
      exact h (j - 1) (by omega)

/-! The moves as the loops that make them, one slot per iteration. -/

theorem shiftDown_zero (b : ℕ → β) (lo : ℕ) : shiftDown b lo 0 = b := by
  funext j
  unfold shiftDown
  rw [if_neg (by omega)]

/-- The first iteration of the removal loop, then the rest. -/
theorem shiftDown_succ (b : ℕ → β) (lo n : ℕ) :
    shiftDown (Function.update b lo (b (lo + 1))) (lo + 1) n = shiftDown b lo (n + 1) := by
  funext j
  unfold shiftDown
  by_cases hj : j = lo
  · subst hj
    rw [if_neg (by omega), Function.update_self, if_pos (by omega)]
  · by_cases hr : lo + 1 ≤ j ∧ j < lo + 1 + n
    · rw [if_pos hr, if_pos (by omega), Function.update_of_ne (by omega)]
    · rw [if_neg hr, if_neg (by omega), Function.update_of_ne hj]

theorem shiftUp_zero (b : ℕ → β) (x : β) (lo : ℕ) : shiftUp b x lo 0 = b := by
  funext j
  unfold shiftUp
  rw [if_neg (by omega)]

/-- The first iteration of the insertion loop, which carries the old slot
`lo` on to the next one, then the rest. -/
theorem shiftUp_succ (b : ℕ → β) (x : β) (lo n : ℕ) :
    shiftUp (Function.update b lo x) (b lo) (lo + 1) n = shiftUp b x lo (n + 1) := by
  funext j
  unfold shiftUp
  by_cases hj : j = lo
  · subst hj
    rw [if_neg (by omega), Function.update_self, if_pos (by omega), if_pos rfl]
  · by_cases hr : lo + 1 ≤ j ∧ j < lo + 1 + n
    · rw [if_pos hr, if_pos (show lo ≤ j ∧ j < lo + (n + 1) by omega), if_neg hj]
      by_cases hj1 : j = lo + 1
      · rw [if_pos hj1, hj1, Nat.add_sub_cancel]
      · rw [if_neg hj1, Function.update_of_ne (show j - 1 ≠ lo by omega)]
    · rw [if_neg hr, if_neg (by omega), Function.update_of_ne hj]

end SlotBuffer
