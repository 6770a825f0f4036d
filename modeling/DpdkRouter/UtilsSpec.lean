import DpdkRouter.Utils
import DpdkRouter.Bits
import DpdkRouter.Fields

/-!
What `ipv4_addr_from_str` accepts. A group is a run of at most three
decimal digits of value at most 255, and the empty run is a group of value
0: the scan for the next dot stops at the first character, `atoi("")` is 0,
and nothing checks that a group is non-empty. The parser accepts four
groups joined by dots, followed by the end of the string, and stores the
address they spell; the in-place NUL it writes over each dot is put back.
-/

namespace DpdkRouter.Utils

open ForLoop CStr Bits

/-- A group of an address as the parser reads it. -/
structure Ipv4Group (g : List Char) : Prop where
  len_le : g.length ≤ ipv4GroupLen
  digits : ∀ c ∈ g, c.isDigit
  val_le : digitsVal 10 g ≤ 255

/-- Four groups joined by dots. -/
def dotted (g₁ g₂ g₃ g₄ : List Char) : List Char :=
  g₁ ++ '.' :: (g₂ ++ '.' :: (g₃ ++ '.' :: g₄))

theorem decimal_iff_isDigit (c : Char) : (decide (c ≥ '0') && decide (c ≤ '9')) = c.isDigit := by
  simp [Char.isDigit, Char.le_def]

theorem Ipv4Group.not_nul {g : List Char} (hg : Ipv4Group g) : ∀ c ∈ g, c ≠ '\x00' := by
  intro c hc h
  have := hg.digits c hc
  subst h
  exact absurd this (by decide)

theorem Ipv4Group.not_dot {g : List Char} (hg : Ipv4Group g) : ∀ c ∈ g, c ≠ '.' := by
  intro c hc h
  have := hg.digits c hc
  subst h
  exact absurd this (by decide)

/-- The scan for `ch` finds it after a run that holds neither `ch` nor NUL,
when the run ends by `max`. -/
theorem indexOfFirstCharFrom_append {ch : Char} {max : Int} :
    ∀ (g post : List Char) (i : ℕ), (∀ c ∈ g, c ≠ ch ∧ c ≠ '\x00') → (i : Int) + g.length ≤ max →
      indexOfFirstCharFrom ch max (g ++ ch :: post) i = i + g.length
  | [], post, i, _, _ => by simp [indexOfFirstCharFrom]
  | c :: g, post, i, hg, hlen => by
    have hc := hg c (by simp)
    simp only [List.length_cons, Nat.cast_add, Nat.cast_one] at hlen
    rw [List.cons_append, indexOfFirstCharFrom, if_neg hc.1,
      if_neg (fun h => h.elim hc.2 (by omega)),
      indexOfFirstCharFrom_append g post (i + 1) (fun c' h => hg c' (by simp [h])) (by push_cast; omega)]
    simp only [List.length_cons, Nat.cast_add, Nat.cast_one]
    omega

/-- The scan for a character other than NUL either fails or finds it after
a run that holds neither it nor NUL and ends by `max`. -/
theorem indexOfFirstCharFrom_cases {ch : Char} (hch : ch ≠ '\x00') {max : Int} :
    ∀ (s : List Char) (i : ℕ), (i : Int) ≤ max →
      indexOfFirstCharFrom ch max s i = -1 ∨
        ∃ g post, s = g ++ ch :: post ∧ (∀ c ∈ g, c ≠ ch ∧ c ≠ '\x00') ∧ (i : Int) + g.length ≤ max ∧
          indexOfFirstCharFrom ch max s i = i + g.length
  | [], i, _ => .inl (by simp [indexOfFirstCharFrom, Ne.symm hch])
  | c :: s, i, hi => by
    by_cases hc : c = ch
    · subst hc
      exact .inr ⟨[], s, rfl, by simp, by simpa using hi, by simp [indexOfFirstCharFrom]⟩
    by_cases hstop : c = '\x00' ∨ (i : Int) = max
    · exact .inl (by simp only [indexOfFirstCharFrom, if_neg hc, if_pos hstop])
    -- neither found nor stopped: the scan goes on at `i + 1`
    have hnext : indexOfFirstCharFrom ch max (c :: s) i = indexOfFirstCharFrom ch max s (i + 1) := by
      simp only [indexOfFirstCharFrom, if_neg hc, if_neg hstop]
    rw [hnext]
    have hne : (i : Int) ≠ max := fun h => hstop (.inr h)
    rcases @indexOfFirstCharFrom_cases ch hch max s (i + 1) (by push_cast; omega) with h | ⟨g, post, hs, hg, hlen, heq⟩
    · exact .inl h
    · refine .inr ⟨c :: g, post, by rw [hs]; rfl, ?_, ?_, ?_⟩
      · intro c' hc'
        rcases List.mem_cons.mp hc' with rfl | hc'
        · exact ⟨hc, fun h => hstop (.inl h)⟩
        · exact hg c' hc'
      · simp only [List.length_cons]
        push_cast at hlen ⊢
        omega
      · rw [heq]
        simp only [List.length_cons]
        push_cast
        omega

/-- The scan for a character other than NUL from the start of `rest`. -/
theorem scan_cases {ch : Char} (hch : ch ≠ '\x00') (max : ℕ) (rest : List Char) :
    indexOfFirstChar rest ch max = -1 ∨
      ∃ g post, rest = g ++ ch :: post ∧ (∀ c ∈ g, c ≠ ch ∧ c ≠ '\x00') ∧ g.length ≤ max ∧
        indexOfFirstChar rest ch max = g.length := by
  rcases @indexOfFirstCharFrom_cases ch hch max rest 0 (by simp) with h | ⟨g, post, hs, hg, hlen, heq⟩
  · exact .inl h
  · refine .inr ⟨g, post, hs, hg, by omega, ?_⟩
    rw [indexOfFirstChar, heq]
    simp

/-- Overwriting the character that ends a run at offset `pre.length`. -/
theorem set_append_run (pre g post : List Char) (c c' : Char) :
    (pre ++ g ++ c :: post).set (pre.length + g.length) c' = pre ++ g ++ c' :: post := by
  rw [List.append_assoc, List.set_append_right _ _ (by omega), Nat.add_sub_cancel_left,
    List.set_append_right _ _ (by omega), Nat.sub_self, List.set_cons_zero, ← List.append_assoc]

theorem areAllCharDecimal_digits {r : List Char} (hr : ∀ c ∈ r.head?, c = '\x00') :
    ∀ g : List Char, (∀ c ∈ g, c.isDigit) → areAllCharDecimal (g ++ r) = true
  | [], _ => by
    cases r with
    | nil => rfl
    | cons c r' =>
      rw [hr c rfl]
      rfl
  | c :: g, hg => by
    have hc := hg c (by simp)
    have hnul : c ≠ '\x00' := fun h => absurd (h ▸ hc) (by decide)
    rw [List.cons_append, areAllCharDecimal, if_neg hnul, decimal_iff_isDigit, hc]
    exact areAllCharDecimal_digits hr g (fun c' h => hg c' (by simp [h]))

/-- A group of value `v` is `v` moved to its byte of the address, never the
error value -1. -/
theorem ipv4GroupValFromGroupStr_group {g r : List Char} (hg : Ipv4Group g)
    (hr : ∀ c ∈ r.head?, c = '\x00') {k : ℕ} (hk : k ≤ 3) :
    ipv4GroupValFromGroupStr (g ++ r) k ≠ -1 ∧
      (ipv4GroupValFromGroupStr (g ++ r) k).toUInt32 =
        UInt32.ofNat (digitsVal 10 g * 2 ^ ((3 - k) * 8)) := by
  have hv := hg.val_le
  have hint : (Int32.ofNat (digitsVal 10 g)).toInt = digitsVal 10 g :=
    Int32.toInt_ofNat_of_lt (by omega)
  have hin : (decide (Int32.ofNat (digitsVal 10 g) ≥ ipv4MinGroupVal) &&
      decide (Int32.ofNat (digitsVal 10 g) ≤ ipv4MaxGroupVal)) = true := by
    simp only [ge_iff_le, Int32.le_iff_toInt_le, hint, Bool.and_eq_true, decide_eq_true_eq]
    exact ⟨by simp [ipv4MinGroupVal], by simp [ipv4MaxGroupVal]; omega⟩
  have hword : (Int32.ofNat (digitsVal 10 g) <<< Int32.ofNat ((3 - k) * 8)).toUInt32 =
      UInt32.ofNat (digitsVal 10 g * 2 ^ ((3 - k) * 8)) := toUInt32_shiftLeft_ofNat (by omega)
  unfold ipv4GroupValFromGroupStr
  rw [atoi_digits hg.digits hr (by omega)]
  dsimp only
  rw [hin, Bool.not_true, if_neg Bool.false_ne_true]
  simp only [ipv4NumDots, ipv4NumGroups, show 4 - 1 - k = 3 - k by omega]
  refine ⟨fun h => ?_, hword⟩
  have h' := congrArg (fun x : Int32 => x.toUInt32.toNat) h
  have hm1 : ((-1 : Int32).toUInt32).toNat = 2 ^ 32 - 1 := by decide
  simp only [hword, hm1] at h'
  obtain rfl | rfl | rfl | rfl : k = 0 ∨ k = 1 ∨ k = 2 ∨ k = 3 := by omega
  all_goals norm_num at h'; omega

/-- The word group `k` of an address adds to it: the group's value moved to
its byte. -/
def groupWord (k : ℕ) (g : List Char) : UInt32 := UInt32.ofNat (digitsVal 10 g * 2 ^ ((3 - k) * 8))

/-- On a run free of NUL followed by the end of the string,
`are_all_char_decimal` tests every character of the run. -/
theorem areAllCharDecimal_append {r : List Char} (hr : ∀ c ∈ r.head?, c = '\x00') :
    ∀ {g : List Char}, (∀ c ∈ g, c ≠ '\x00') → areAllCharDecimal (g ++ r) = g.all (·.isDigit)
  | [], _ => by
    cases r with
    | nil => rfl
    | cons c r' =>
      rw [hr c rfl]
      rfl
  | c :: g, hg => by
    rw [List.cons_append, areAllCharDecimal, if_neg (hg c (by simp)), decimal_iff_isDigit, List.all_cons,
      areAllCharDecimal_append hr (fun c' h => hg c' (List.mem_cons_of_mem c h))]
    cases c.isDigit <;> rfl

/-- A run of at most three digits above 255 fails the range check. -/
theorem ipv4GroupValFromGroupStr_of_gt {g r : List Char} (hd : ∀ c ∈ g, c.isDigit)
    (hlen : g.length ≤ ipv4GroupLen) (hr : ∀ c ∈ r.head?, c = '\x00') (hv : 255 < digitsVal 10 g) (k : ℕ) :
    ipv4GroupValFromGroupStr (g ++ r) k = -1 := by
  have hlt : digitsVal 10 g < 1000 :=
    calc digitsVal 10 g < 10 ^ g.length := digitsVal_lt_pow (fun c hc => digitValue_lt_ten_iff.mpr (hd c hc))
      _ ≤ 10 ^ 3 := Nat.pow_le_pow_right (by decide) hlen
      _ = 1000 := rfl
  have hint : (Int32.ofNat (digitsVal 10 g)).toInt = digitsVal 10 g := Int32.toInt_ofNat_of_lt (by omega)
  have hout : (decide (Int32.ofNat (digitsVal 10 g) ≥ ipv4MinGroupVal) &&
      decide (Int32.ofNat (digitsVal 10 g) ≤ ipv4MaxGroupVal)) = false := by
    simp only [ge_iff_le, Int32.le_iff_toInt_le, hint, Bool.and_eq_false_iff, decide_eq_false_iff_not]
    exact .inr (by simp [ipv4MaxGroupVal]; omega)
  unfold ipv4GroupValFromGroupStr
  rw [atoi_digits hd hr (by omega)]
  dsimp only
  rw [hout, Bool.not_false, if_pos rfl]

/-- The iteration at a run ended by a dot within three characters: it
accepts a run of digits of value at most 255, and otherwise returns with
the NUL it wrote over the dot when a character is not a digit, or with the
dot put back when the value is too large. -/
theorem ipv4GroupStep_of_found {g : List Char} (hg : ∀ c ∈ g, c ≠ '.' ∧ c ≠ '\x00')
    (hlen : g.length ≤ ipv4GroupLen) (pre post : List Char) {k : ℕ} (hk : k ≤ 2) (res : UInt32) :
    ipv4GroupStep k ⟨pre ++ g ++ '.' :: post, pre.length, res⟩ =
      if g.all (·.isDigit) then
        if digitsVal 10 g ≤ 255 then
          .ok ⟨pre ++ g ++ '.' :: post, pre.length + g.length + 1, res + groupWord k g⟩
        else .error (pre ++ g ++ '.' :: post)
      else .error (pre ++ g ++ '\x00' :: post) := by
  have hdrop : ∀ c : Char, (pre ++ g ++ c :: post).drop pre.length = g ++ c :: post := by
    intro c
    rw [List.append_assoc]
    exact List.drop_left
  have hoff : indexOfFirstChar (g ++ '.' :: post) '.' ipv4GroupLen = g.length := by
    have h := indexOfFirstCharFrom_append g post 0 hg
      (show ((0 : ℕ) : Int) + g.length ≤ (ipv4GroupLen : Int) by simp only [ipv4GroupLen] at hlen ⊢; omega)
    rw [indexOfFirstChar]
    simpa using h
  have hdec : areAllCharDecimal (g ++ '\x00' :: post) = g.all (·.isDigit) :=
    areAllCharDecimal_append (by simp) (fun c hc => (hg c hc).2)
  have hfound : (g.length : Int) ≠ -1 := by omega
  have hr : ∀ c ∈ ('\x00' :: post).head?, c = '\x00' := by simp
  unfold ipv4GroupStep
  simp only [hdrop, hoff, if_neg hfound, Int.toNat_natCast, set_append_run, hdec]
  cases hall : g.all (·.isDigit) with
  | false => rfl
  | true =>
    have hd := List.all_eq_true.mp hall
    by_cases hv : digitsVal 10 g ≤ 255
    · obtain ⟨hne, hword⟩ := ipv4GroupValFromGroupStr_group ⟨hlen, hd, hv⟩ hr (show k ≤ 3 by omega)
      simp only [Bool.not_true, Bool.false_eq_true, if_false, hne, hv, if_true, hword, groupWord]
    · rw [ipv4GroupValFromGroupStr_of_gt hd hlen hr (by omega)]
      simp only [Bool.not_true, Bool.false_eq_true, if_false, hv, if_true]

/-- An iteration of the group loop at a group followed by a dot: it moves
past the dot and adds the group's word, and puts the dot back. -/
theorem ipv4GroupStep_group {g : List Char} (hg : Ipv4Group g) (pre post : List Char)
    {buf : List Char} (hbuf : buf = pre ++ g ++ '.' :: post) {beginIdx : ℕ}
    (hbegin : beginIdx = pre.length) {k : ℕ} (hk : k ≤ 2) (res : UInt32) :
    ipv4GroupStep k ⟨buf, beginIdx, res⟩ =
      .ok ⟨buf, beginIdx + g.length + 1, res + UInt32.ofNat (digitsVal 10 g * 2 ^ ((3 - k) * 8))⟩ := by
  subst hbuf hbegin
  rw [ipv4GroupStep_of_found (fun c hc => ⟨hg.not_dot c hc, hg.not_nul c hc⟩) hg.len_le pre post hk res,
    if_pos (List.all_eq_true.mpr hg.digits), if_pos hg.val_le]
  rfl

/-- Four groups joined by dots, then the end of the string: the parser
returns 0, stores the address the groups spell and leaves the buffer as it
was. -/
theorem ipv4AddrFromStr_dotted {g₁ g₂ g₃ g₄ : List Char} (h₁ : Ipv4Group g₁) (h₂ : Ipv4Group g₂)
    (h₃ : Ipv4Group g₃) (h₄ : Ipv4Group g₄) {rest : List Char}
    (hrest : ∀ c ∈ rest.head?, c = '\x00') (addr : UInt32) :
    ipv4AddrFromStr (dotted g₁ g₂ g₃ g₄ ++ rest) addr =
      (0, dotted g₁ g₂ g₃ g₄ ++ rest,
        UInt32.ofNat (digitsVal 10 g₁ * 2 ^ 24 + digitsVal 10 g₂ * 2 ^ 16 +
          digitsVal 10 g₃ * 2 ^ 8 + digitsVal 10 g₄)) := by
  have e₁ : dotted g₁ g₂ g₃ g₄ ++ rest = [] ++ g₁ ++ '.' :: (g₂ ++ '.' :: (g₃ ++ '.' :: (g₄ ++ rest))) := by
    simp [dotted]
  have e₂ : dotted g₁ g₂ g₃ g₄ ++ rest = (g₁ ++ ['.']) ++ g₂ ++ '.' :: (g₃ ++ '.' :: (g₄ ++ rest)) := by
    simp [dotted]
  have e₃ : dotted g₁ g₂ g₃ g₄ ++ rest = (g₁ ++ '.' :: (g₂ ++ ['.'])) ++ g₃ ++ '.' :: (g₄ ++ rest) := by
    simp [dotted]
  unfold ipv4AddrFromStr
  rw [show ipv4NumDots = 3 from rfl,
    forRange_succ_of_ok (ipv4GroupStep_group h₁ [] _ e₁ (show 0 = ([] : List Char).length from rfl)
      (show 0 ≤ 2 by decide) 0),
    forRange_succ_of_ok (ipv4GroupStep_group h₂ _ _ e₂
      (show 0 + g₁.length + 1 = (g₁ ++ ['.']).length by simp) (show 0 + 1 ≤ 2 by decide) _),
    forRange_succ_of_ok (ipv4GroupStep_group h₃ _ _ e₃
      (show 0 + g₁.length + 1 + g₂.length + 1 = (g₁ ++ '.' :: (g₂ ++ ['.'])).length by simp; omega)
      (show 0 + 1 + 1 ≤ 2 by decide) _),
    forRange_zero]
  have e₄ : dotted g₁ g₂ g₃ g₄ ++ rest = (g₁ ++ '.' :: (g₂ ++ '.' :: (g₃ ++ ['.']))) ++ (g₄ ++ rest) := by
    simp [dotted]
  have hlast : (dotted g₁ g₂ g₃ g₄ ++ rest).drop (0 + g₁.length + 1 + g₂.length + 1 + g₃.length + 1) =
      g₄ ++ rest := by
    rw [e₄]
    exact List.drop_left' (by simp; omega)
  have hshort : ¬ strlen (g₄ ++ rest) > ipv4GroupLen := by
    rw [strlen_append h₄.not_nul hrest]
    exact Nat.not_lt.mpr h₄.len_le
  obtain ⟨hne, hword⟩ := ipv4GroupValFromGroupStr_group h₄ hrest (show 3 ≤ 3 by decide)
  simp only [hlast, hshort, areAllCharDecimal_digits hrest g₄ h₄.digits, Bool.not_true, hne, hword,
    if_false, Bool.false_eq_true]
  congr 2
  apply UInt32.toNat_inj.mp
  simp only [UInt32.toNat_add, UInt32.toNat_ofNat]
  norm_num

theorem ipv4Group_nil : Ipv4Group [] :=
  ⟨Nat.zero_le _, fun _ h => absurd h List.not_mem_nil, Nat.zero_le _⟩

theorem ipv4AddrFromStr_three_dots :
    ipv4AddrFromStr "...".toList 7 = (0, "...".toList, 0) :=
  ipv4AddrFromStr_dotted ipv4Group_nil ipv4Group_nil ipv4Group_nil ipv4Group_nil
    (show ∀ c ∈ ([] : List Char).head?, c = '\x00' by simp) 7

/-! The whole of what `ipv4_addr_from_str` accepts. -/

/-- The iteration where no dot ends a group: it returns at once. -/
theorem ipv4GroupStep_of_not_found {k : ℕ} {st : Ipv4Scan}
    (h : indexOfFirstChar (st.buf.drop st.beginIdx) '.' ipv4GroupLen = -1) :
    ipv4GroupStep k st = .error st.buf := by
  unfold ipv4GroupStep
  simp only [h, if_true]

/-- An iteration succeeds only at a group followed by a dot. -/
theorem ipv4GroupStep_ok_group {k : ℕ} (hk : k ≤ 2) (pre rest : List Char) (res : UInt32) {st : Ipv4Scan}
    (h : ipv4GroupStep k ⟨pre ++ rest, pre.length, res⟩ = .ok st) :
    ∃ g post, rest = g ++ '.' :: post ∧ Ipv4Group g := by
  rcases @scan_cases '.' (by decide) ipv4GroupLen rest with hnone | ⟨g, post, rfl, hg, hlen, -⟩
  · rw [ipv4GroupStep_of_not_found (by dsimp only; rw [List.drop_left]; exact hnone)] at h
    cases h
  · refine ⟨g, post, rfl, ?_⟩
    rw [← List.append_assoc, ipv4GroupStep_of_found hg hlen pre post hk res] at h
    split_ifs at h with hd hv
    exact ⟨hlen, List.all_eq_true.mp hd, hv⟩

/-- The group loop succeeds exactly on three groups each followed by a dot,
and then stands past them with their words added. -/
theorem forRange_ipv4GroupStep_eq_ok (s : List Char) (st : Ipv4Scan) :
    forRange ipv4GroupStep 0 ipv4NumDots ⟨s, 0, 0⟩ = .ok st ↔
      ∃ gs post, gs.length = ipv4NumDots ∧ (∀ g ∈ gs, Ipv4Group g) ∧ s = terminated '.' gs ++ post ∧
        st = ⟨s, (terminated '.' gs).length, foldFields (fun k g res => res + groupWord k g) 0 gs 0⟩ := by
  have h := forRange_fields_eq_ok Ipv4Scan.mk (fun k g res => res + groupWord k g) (K := 3)
    (fun g hg hm => hg.not_dot '.' hm rfl)
    (fun k pre g post res hk hg => ipv4GroupStep_group hg pre post rfl rfl (by omega) res)
    (fun k pre rest res _ hk h => ipv4GroupStep_ok_group (by omega) pre rest res h)
    ipv4NumDots 0 [] s 0 st (by decide)
  simpa using h

/-- The last group as the parser checks it: the string from the offset on
is at most three characters, all digits, of value at most 255. -/
theorem ipv4LastGroup_iff (post : List Char) :
    (¬ strlen post > ipv4GroupLen ∧ areAllCharDecimal post = true ∧
        ipv4GroupValFromGroupStr post ipv4NumDots ≠ -1) ↔
      ∃ last rest, post = last ++ rest ∧ Ipv4Group last ∧ ∀ c ∈ rest.head?, c = '\x00' := by
  constructor
  · rintro ⟨hlen, hdec, hval⟩
    obtain ⟨g, r, rfl, hg, hr⟩ := exists_cstr post
    rw [strlen_append hg hr] at hlen
    rw [areAllCharDecimal_append hr hg] at hdec
    have hd := List.all_eq_true.mp hdec
    have hv : digitsVal 10 g ≤ 255 := by
      by_contra hv
      exact hval (ipv4GroupValFromGroupStr_of_gt hd (by omega) hr (by omega) _)
    exact ⟨g, r, rfl, ⟨by omega, hd, hv⟩, hr⟩
  · rintro ⟨last, rest, rfl, hlast, hr⟩
    refine ⟨?_, areAllCharDecimal_digits hr last hlast.digits,
      (ipv4GroupValFromGroupStr_group hlast hr (show ipv4NumDots ≤ 3 by decide)).1⟩
    rw [strlen_append hlast.not_nul hr]
    exact Nat.not_lt.mpr hlast.len_le

/-- A spelling of an address as `ipv4_addr_from_str` reads it: three groups
each followed by a dot, a last group, and the end of the string. -/
structure Ipv4Spelling (gs : List (List Char)) (last rest : List Char) : Prop where
  length : gs.length = ipv4NumDots
  groups : ∀ g ∈ gs, Ipv4Group g
  lastGroup : Ipv4Group last
  ends : ∀ c ∈ rest.head?, c = '\x00'

/-- A spelled address holds digits and dots only ... -/
theorem Ipv4Spelling.chars {gs : List (List Char)} {last rest : List Char} (h : Ipv4Spelling gs last rest) :
    ∀ c ∈ terminated '.' gs ++ last, c = '.' ∨ c.isDigit := by
  intro c hc
  rcases List.mem_append.mp hc with hc | hc
  · rcases mem_terminated hc with rfl | ⟨g, hg, hc⟩
    · exact .inl rfl
    · exact .inr ((h.groups g hg).digits c hc)
  · exact .inr (h.lastGroup.digits c hc)

/-- ... so no character outside them occurs in it. -/
theorem Ipv4Spelling.ne_of_mem {gs : List (List Char)} {last rest : List Char} (h : Ipv4Spelling gs last rest)
    {c : Char} (hdot : c ≠ '.') (hdig : c.isDigit = false) : ∀ ch ∈ terminated '.' gs ++ last, ch ≠ c := by
  rintro ch hch rfl
  rcases h.chars ch hch with hc | hc
  · exact hdot hc
  · rw [hdig] at hc
    exact Bool.false_ne_true hc

/-- ... at most fifteen of them. -/
theorem Ipv4Spelling.length_le {gs : List (List Char)} {last rest : List Char}
    (h : Ipv4Spelling gs last rest) : (terminated '.' gs ++ last).length ≤ ipv4MaxAddrLen := by
  have hgs : (terminated '.' gs).length ≤ gs.length * (ipv4GroupLen + 1) :=
    length_terminated_le (fun g hg => (h.groups g hg).len_le)
  have hlast := h.lastGroup.len_le
  rw [List.length_append, h.length] at *
  simp only [ipv4NumDots, ipv4NumGroups, ipv4GroupLen, ipv4MaxAddrLen] at hgs hlast ⊢
  omega

/-- The address the groups spell. -/
def spelledAddr (gs : List (List Char)) (last : List Char) : UInt32 :=
  foldFields (fun k g res => res + groupWord k g) 0 gs 0 + groupWord ipv4NumDots last

/-- On a spelling the parser returns 0, leaves the buffer as it was and
stores the address the groups spell. -/
theorem ipv4AddrFromStr_spelled {gs : List (List Char)} {last rest : List Char}
    (h : Ipv4Spelling gs last rest) (addr : UInt32) :
    ipv4AddrFromStr (terminated '.' gs ++ last ++ rest) addr =
      (0, terminated '.' gs ++ last ++ rest, spelledAddr gs last) := by
  have hloop := (forRange_ipv4GroupStep_eq_ok (terminated '.' gs ++ last ++ rest) _).mpr
    ⟨gs, last ++ rest, h.length, h.groups, by simp, rfl⟩
  have hlast : (terminated '.' gs ++ last ++ rest).drop (terminated '.' gs).length = last ++ rest := by
    rw [List.append_assoc]
    exact List.drop_left
  obtain ⟨hlen, hdec, hval⟩ := (ipv4LastGroup_iff (last ++ rest)).mpr
    ⟨last, rest, rfl, h.lastGroup, h.ends⟩
  have hword := (ipv4GroupValFromGroupStr_group h.lastGroup h.ends (show ipv4NumDots ≤ 3 by decide)).2
  unfold ipv4AddrFromStr
  simp only [hloop, hlast, hlen, hdec, hval, Bool.not_true, Bool.false_eq_true, if_false, hword,
    spelledAddr, groupWord]

/-- The parser returns 0 only on a spelling. -/
theorem spelled_of_ipv4AddrFromStr {s : List Char} {addr : UInt32} (h : (ipv4AddrFromStr s addr).1 = 0) :
    ∃ gs last rest, Ipv4Spelling gs last rest ∧ s = terminated '.' gs ++ last ++ rest := by
  unfold ipv4AddrFromStr at h
  cases hloop : forRange ipv4GroupStep 0 ipv4NumDots ⟨s, 0, 0⟩ with
  | error e =>
    rw [hloop] at h
    cases h
  | ok st =>
    obtain ⟨gs, post, hlen, hgs, rfl, rfl⟩ := (forRange_ipv4GroupStep_eq_ok s st).mp hloop
    rw [hloop] at h
    have hpost : (terminated '.' gs ++ post).drop (terminated '.' gs).length = post := List.drop_left
    simp only [hpost] at h
    -- every check before the `return 0` passed
    by_cases hs : strlen post > ipv4GroupLen
    · simp [hs] at h
    by_cases hd : areAllCharDecimal post = true
    · by_cases hv : ipv4GroupValFromGroupStr post ipv4NumDots = -1
      · simp [hs, hd, hv] at h
      obtain ⟨last, rest, rfl, hlast, hrest⟩ := (ipv4LastGroup_iff post).mp ⟨hs, hd, hv⟩
      exact ⟨gs, last, rest, ⟨hlen, hgs, hlast, hrest⟩, by rw [List.append_assoc]⟩
    · simp [hs, hd] at h

theorem ipv4AddrFromStr_fst (s : List Char) (addr : UInt32) :
    (ipv4AddrFromStr s addr).1 = 0 ∨ (ipv4AddrFromStr s addr).1 = -1 := by
  unfold ipv4AddrFromStr
  split
  · exact .inr rfl
  · dsimp only
    split_ifs <;> simp

/-- `ipv4_addr_from_str` returns 0 or -1, and 0 exactly on three groups of
at most three digits of value at most 255, each followed by a dot, then a
fourth such group and the end of the string; then `*addr` holds the address
they spell and the buffer is as it was. -/
theorem ipv4AddrFromStr_spec (s : List Char) (addr : UInt32) :
    ((ipv4AddrFromStr s addr).1 = 0 ∨ (ipv4AddrFromStr s addr).1 = -1) ∧
      ((ipv4AddrFromStr s addr).1 = 0 ↔
        ∃ gs last rest, Ipv4Spelling gs last rest ∧ s = terminated '.' gs ++ last ++ rest) ∧
      ∀ gs last rest, Ipv4Spelling gs last rest → s = terminated '.' gs ++ last ++ rest →
        (ipv4AddrFromStr s addr).2 = (s, spelledAddr gs last) := by
  refine ⟨ipv4AddrFromStr_fst s addr, ⟨spelled_of_ipv4AddrFromStr, ?_⟩, ?_⟩
  · rintro ⟨gs, last, rest, h, rfl⟩
    rw [ipv4AddrFromStr_spelled h addr]
  · rintro gs last rest h rfl
    rw [ipv4AddrFromStr_spelled h addr]

end DpdkRouter.Utils
