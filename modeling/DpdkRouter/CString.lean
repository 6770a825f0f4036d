import Mathlib

/-!
NUL-terminated strings of C as buffers of characters. A buffer is a
`List Char` (a C `char` is read as the character of its code); the string
it holds ends at its first `'\x00'`, or at the end of the buffer, past which
the terminating NUL lies. `strlen` and `strtol` follow the C library:
`strtol` is glibc's in the C locale, and `atoi` is `(int) strtol(s, NULL,
10)`, with GCC's conversion of a `long` to an `int`, which keeps the low 32
bits.
-/

namespace CStr

/-- The character at index `i`; past the buffer it is the terminator. -/
def charAt (s : List Char) (i : ℕ) : Char := s.getD i '\x00'

def strlen (s : List Char) : ℕ := (s.takeWhile (· != '\x00')).length

/-- `isspace` in the C locale. -/
def isSpace (c : Char) : Bool :=
  c = ' ' || c = '\t' || c = '\n' || c = '\x0b' || c = '\x0c' || c = '\r'

/-- The value of a character as a digit of a base up to 36, and 36 when it
is not a digit. -/
def digitValue (c : Char) : ℕ :=
  if 48 ≤ c.toNat ∧ c.toNat ≤ 57 then c.toNat - 48
  else if 97 ≤ c.toNat ∧ c.toNat ≤ 122 then c.toNat - 87
  else if 65 ≤ c.toNat ∧ c.toNat ≤ 90 then c.toNat - 55
  else 36

/-- The value of a run of digits. -/
def digitsVal (base : ℕ) (ds : List Char) : ℕ :=
  ds.foldl (fun acc c => base * acc + digitValue c) 0

/-- `strtol(s, NULL, base)` for base 10 or 16: blanks, a sign, in base 16 a
`0x` prefix, then the longest run of digits, clamped to a 64-bit `long`. -/
def strtol (s : List Char) (base : ℕ) : Int :=
  let s := s.dropWhile isSpace
  let neg := s.head? = some '-'
  let s := if s.head? = some '-' ∨ s.head? = some '+' then s.drop 1 else s
  let s := if base = 16 ∧ (s.take 2 = ['0', 'x'] ∨ s.take 2 = ['0', 'X']) then s.drop 2 else s
  let v : Int := digitsVal base (s.takeWhile (digitValue · < base))
  let v := if neg then -v else v
  max (-2 ^ 63) (min (2 ^ 63 - 1) v)

def atoi (s : List Char) : Int32 := Int32.ofInt (strtol s 10)

/-! Decimal digits. -/

theorem isDigit_iff {c : Char} : c.isDigit ↔ 48 ≤ c.toNat ∧ c.toNat ≤ 57 :=
  Char.isDigit_iff_toNat

/-- Below 10 exactly at the decimal digits. -/
theorem digitValue_lt_ten_iff {c : Char} : digitValue c < 10 ↔ c.isDigit := by
  rw [isDigit_iff]
  unfold digitValue
  split_ifs <;> omega

theorem digitsVal_append_one (base : ℕ) (ds : List Char) (c : Char) :
    digitsVal base (ds ++ [c]) = base * digitsVal base ds + digitValue c := by
  simp [digitsVal, List.foldl_append]

/-- A run of digits of `base` has a value below `base ^ n` for its length `n`. -/
theorem digitsVal_lt_pow {base : ℕ} {ds : List Char} (h : ∀ c ∈ ds, digitValue c < base) :
    digitsVal base ds < base ^ ds.length := by
  induction ds using List.reverseRecOn with
  | nil => simp [digitsVal]
  | append_singleton ds c ih =>
    have hc := h c (by simp)
    have hds := ih (fun c' hc' => h c' (by simp [hc']))
    rw [digitsVal_append_one, List.length_append, List.length_singleton, Nat.pow_succ]
    calc base * digitsVal base ds + digitValue c < base * digitsVal base ds + base := by omega
      _ = base * (digitsVal base ds + 1) := by rw [Nat.mul_add, Nat.mul_one]
      _ ≤ base * base ^ ds.length := Nat.mul_le_mul_left _ hds
      _ = base ^ ds.length * base := Nat.mul_comm _ _

/-! Strings made of a run of digits. -/

/-- Blanks and signs are no digit of any base. -/
theorem digitValue_of_isSpace {c : Char} (h : isSpace c = true) : digitValue c = 36 := by
  simp only [isSpace, Bool.or_eq_true, decide_eq_true_eq] at h
  rcases h with ((((h | h) | h) | h) | h) | h <;> subst h <;> decide

/-- `strtol` of a run of digits of `base` followed by the end of the string:
no blank, sign or `0x` prefix is skipped, and the run is read whole. -/
theorem strtol_digitRun {base : ℕ} {ds r : List Char} (hb : base ≤ 16)
    (hds : ∀ c ∈ ds, digitValue c < base) (hr : ∀ c ∈ r.head?, c = '\x00')
    (hsmall : digitsVal base ds < 2 ^ 63) : strtol (ds ++ r) base = digitsVal base ds := by
  -- the string starts with a digit of the run or with the terminator
  have hhead : ∀ c ∈ (ds ++ r).head?, digitValue c < 16 ∨ c = '\x00' := by
    intro c hc
    cases ds with
    | nil => exact .inr (hr c hc)
    | cons d ds =>
      simp only [List.cons_append, List.head?_cons, Option.mem_def, Option.some.injEq] at hc
      exact .inl (hc ▸ by have := hds d (by simp); omega)
  have hnotSpace : ∀ c ∈ (ds ++ r).head?, isSpace c = false := by
    intro c hc
    cases hs : isSpace c with
    | false => rfl
    | true =>
      rcases hhead c hc with h | rfl
      · rw [digitValue_of_isSpace hs] at h
        omega
      · exact absurd hs (by decide)
  have hdrop : (ds ++ r).dropWhile isSpace = ds ++ r := by
    cases h : ds ++ r with
    | nil => rfl
    | cons c l =>
      rw [h] at hnotSpace
      simp [hnotSpace c rfl]
  have hsign : ¬ ((ds ++ r).head? = some '-' ∨ (ds ++ r).head? = some '+') := by
    rintro (h | h) <;> rcases hhead _ h with h' | h' <;> simp_all [digitValue]
  have hneg : ¬ (ds ++ r).head? = some '-' := fun h => hsign (.inl h)
  -- a second character `x` would be a digit of the run, or the terminator
  have hprefix : ¬ (base = 16 ∧ ((ds ++ r).take 2 = ['0', 'x'] ∨ (ds ++ r).take 2 = ['0', 'X'])) := by
    rintro ⟨-, h⟩
    match ds, r, hds, hr, h with
    | [], c :: _, _, hr, h => simp [hr c rfl] at h
    | [_], c :: _, _, hr, h => simp [hr c rfl] at h
    | _ :: e :: _, _, hds, _, h =>
      have he := hds e (by simp)
      rcases h with h | h <;> simp only [List.cons_append, List.take_succ_cons, List.take_zero,
        List.cons.injEq] at h <;> rw [h.2.1] at he <;> simp [digitValue] at he <;> omega
  have htake : (ds ++ r).takeWhile (digitValue · < base) = ds := by
    rw [List.takeWhile_append_of_pos (fun c hc => by simpa using hds c hc)]
    cases r with
    | nil => simp
    | cons c r' =>
      have hc := hr c rfl
      subst hc
      have hnul : digitValue '\x00' = 36 := by decide
      rw [List.takeWhile_cons_of_neg (by simp only [hnul, decide_eq_true_eq]; omega), List.append_nil]
  simp only [strtol, hdrop, if_neg hsign, if_neg hprefix, htake, if_neg hneg]
  omega

theorem strtol_digits {ds r : List Char} (hds : ∀ c ∈ ds, c.isDigit)
    (hr : ∀ c ∈ r.head?, c = '\x00') (hsmall : digitsVal 10 ds < 2 ^ 63) :
    strtol (ds ++ r) 10 = digitsVal 10 ds :=
  strtol_digitRun (by decide) (fun c hc => digitValue_lt_ten_iff.mpr (hds c hc)) hr hsmall

theorem atoi_digits {ds r : List Char} (hds : ∀ c ∈ ds, c.isDigit)
    (hr : ∀ c ∈ r.head?, c = '\x00') (hsmall : digitsVal 10 ds < 2 ^ 31) :
    atoi (ds ++ r) = Int32.ofNat (digitsVal 10 ds) := by
  rw [atoi, strtol_digits hds hr (by omega)]
  rfl

/-! The string a buffer holds, up to its terminator. -/

/-- A run that stops at NUL stops at the terminator. -/
theorem takeWhile_append_nul {p : Char → Bool} (hp : p '\x00' = false) {r : List Char}
    (hr : ∀ c ∈ r.head?, c = '\x00') : ∀ (s : List Char), (s ++ r).takeWhile p = s.takeWhile p
  | [] => by
    cases r with
    | nil => rfl
    | cons c r' =>
      rw [hr c rfl]
      simp [hp]
  | c :: s => by
    by_cases hc : p c <;> simp [hc, takeWhile_append_nul hp hr s]

/-- A run that stops at NUL, dropped, leaves the terminator. -/
theorem dropWhile_append_nul {p : Char → Bool} (hp : p '\x00' = false) {r : List Char}
    (hr : ∀ c ∈ r.head?, c = '\x00') : ∀ (s : List Char), (s ++ r).dropWhile p = s.dropWhile p ++ r
  | [] => by
    cases r with
    | nil => rfl
    | cons c r' =>
      rw [hr c rfl]
      simp [hp]
  | c :: s => by
    by_cases hc : p c <;> simp [hc, dropWhile_append_nul hp hr s]

theorem head?_append_nul {x : Char} (hx : x ≠ '\x00') (d r : List Char) :
    (d ++ '\x00' :: r).head? = some x ↔ d.head? = some x := by
  cases d with
  | nil => simp [Ne.symm hx]
  | cons y d => simp

/-- The sign `strtol` skips lies before the terminator. -/
theorem sign_append_nul (d r : List Char) :
    ∃ e, (if (d ++ '\x00' :: r).head? = some '-' ∨ (d ++ '\x00' :: r).head? = some '+' then
        (d ++ '\x00' :: r).drop 1 else d ++ '\x00' :: r) = e ++ '\x00' :: r ∧
      (if d.head? = some '-' ∨ d.head? = some '+' then d.drop 1 else d) = e := by
  cases d with
  | nil => exact ⟨[], by simp, by simp⟩
  | cons x d =>
    by_cases hx : x = '-' ∨ x = '+'
    · exact ⟨d, by simp [hx], by simp [hx]⟩
    · exact ⟨x :: d, by simp [hx], by simp [hx]⟩

/-- So does the `0x` prefix `strtol` skips in base 16. -/
theorem prefix_append_nul (base : ℕ) (e r : List Char) :
    ∃ f, (if base = 16 ∧ ((e ++ '\x00' :: r).take 2 = ['0', 'x'] ∨ (e ++ '\x00' :: r).take 2 = ['0', 'X'])
        then (e ++ '\x00' :: r).drop 2 else e ++ '\x00' :: r) = f ++ '\x00' :: r ∧
      (if base = 16 ∧ (e.take 2 = ['0', 'x'] ∨ e.take 2 = ['0', 'X']) then e.drop 2 else e) = f := by
  match e with
  | [] => exact ⟨[], by simp, by simp⟩
  | [x] => exact ⟨[x], by simp, by simp⟩
  | x :: y :: e =>
    by_cases hp : base = 16 ∧ (x = '0' ∧ y = 'x' ∨ x = '0' ∧ y = 'X')
    · exact ⟨e, by simp [hp], by simp [hp]⟩
    · exact ⟨x :: y :: e, by simp [hp], by simp [hp]⟩

/-- `strtol` reads no character past the terminator. -/
theorem strtol_append_nul {base : ℕ} (hb : base ≤ 36) {r : List Char} (hr : ∀ c ∈ r.head?, c = '\x00')
    (s : List Char) : strtol (s ++ r) base = strtol s base := by
  rcases r with _ | ⟨z, r⟩
  · rw [List.append_nil]
  obtain rfl : z = '\x00' := hr z rfl
  have hr' : ∀ c ∈ ('\x00' :: r).head?, c = '\x00' := by simp
  have hdig : (fun c => decide (digitValue c < base)) '\x00' = false := by
    have : digitValue '\x00' = 36 := by decide
    simp only [this, decide_eq_false_iff_not]
    omega
  unfold strtol
  rw [dropWhile_append_nul (by decide) hr']
  generalize s.dropWhile isSpace = d
  dsimp only
  obtain ⟨e, he, he'⟩ := sign_append_nul d r
  obtain ⟨f, hf, hf'⟩ := prefix_append_nul base e r
  rw [he, he', hf, hf', takeWhile_append_nul hdig hr']
  simp only [head?_append_nul (show '-' ≠ '\x00' by decide)]
theorem atoi_append_nul {r : List Char} (hr : ∀ c ∈ r.head?, c = '\x00') (s : List Char) :
    atoi (s ++ r) = atoi s := by
  rw [atoi, atoi, strtol_append_nul (by decide) hr]

/-- The string of a buffer free of NUL followed by a terminator. -/
theorem takeWhile_cstr {g r : List Char} (hg : ∀ c ∈ g, c ≠ '\x00') (hr : ∀ c ∈ r.head?, c = '\x00') :
    (g ++ r).takeWhile (· != '\x00') = g := by
  rw [takeWhile_append_nul (by decide) hr, List.takeWhile_eq_self_iff]
  intro c hc
  simpa using hg c hc

/-- Every buffer is a string free of NUL followed by a terminator. -/
theorem exists_cstr (s : List Char) :
    ∃ g r, s = g ++ r ∧ (∀ c ∈ g, c ≠ '\x00') ∧ ∀ c ∈ r.head?, c = '\x00' := by
  refine ⟨s.takeWhile (· != '\x00'), s.dropWhile (· != '\x00'), List.takeWhile_append_dropWhile.symm,
    fun c hc => by simpa using List.mem_takeWhile_imp hc, ?_⟩
  intro c hc
  have h := List.head?_dropWhile_not (· != '\x00') s
  rw [Option.mem_def.mp hc] at h
  simpa using h

/-- ... and in one way only. -/
theorem cstr_unique {g g' r r' : List Char} (hg : ∀ c ∈ g, c ≠ '\x00') (hg' : ∀ c ∈ g', c ≠ '\x00')
    (hr : ∀ c ∈ r.head?, c = '\x00') (hr' : ∀ c ∈ r'.head?, c = '\x00') (h : g ++ r = g' ++ r') :
    g = g' ∧ r = r' := by
  have hgg : g = g' := by rw [← takeWhile_cstr hg hr, h, takeWhile_cstr hg' hr']
  subst hgg
  exact ⟨rfl, List.append_cancel_left h⟩

/-- The string of a buffer that is `ds` and then the end of the string. -/
theorem strlen_append {ds r : List Char} (hds : ∀ c ∈ ds, c ≠ '\x00')
    (hr : ∀ c ∈ r.head?, c = '\x00') : strlen (ds ++ r) = ds.length := by
  unfold strlen
  rw [takeWhile_cstr hds hr]

end CStr
