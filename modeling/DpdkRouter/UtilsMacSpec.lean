import DpdkRouter.UtilsSpec

/-!
What `mac_addr_from_str` accepts. The scan for the next colon looks at most
two characters ahead, and nothing checks that one of the first five groups
is non-empty or two characters long: such a group is a run of at most two
hexadecimal digits (`MacGroup`). Only the last group is checked to be
exactly two characters. The parser returns 0 exactly on five groups each
followed by a colon, a last group of two hexadecimal digits and the end of
the string (`MacSpelling`), and then writes the six values to `*mac`; on
anything else it returns -1.

Each iteration of the group loop either finds no colon, or finds a group
that it accepts or rejects on its digits (`macGroupStep_of_found`); the loop
lemma `forRange_macGroupStep_eq_ok` is an induction over the groups with
that step inside.
-/

namespace DpdkRouter.Utils

open ForLoop CStr Bits

/-- The test `are_all_char_hexadecimal` makes of one character. -/
def isHexChar (ch : Char) : Bool :=
  (decide (ch ≥ '0') && decide (ch ≤ '9')) || (decide (ch ≥ 'a') && decide (ch ≤ 'f')) ||
    (decide (ch ≥ 'A') && decide (ch ≤ 'F'))

theorem isHexChar_iff (c : Char) : isHexChar c = true ↔
    (48 ≤ c.toNat ∧ c.toNat ≤ 57) ∨ (97 ≤ c.toNat ∧ c.toNat ≤ 102) ∨ (65 ≤ c.toNat ∧ c.toNat ≤ 70) := by
  simp [isHexChar, Char.le_def, UInt32.le_iff_toNat_le, ← Char.toNat_val]
  omega

/-- The hexadecimal digits are the digits `strtol` reads in base 16. -/
theorem digitValue_lt_sixteen_iff {c : Char} : digitValue c < 16 ↔ isHexChar c = true := by
  rw [isHexChar_iff]
  unfold digitValue
  split_ifs <;> omega

theorem areAllCharHexadecimal_cons (ch : Char) (s : List Char) :
    areAllCharHexadecimal (ch :: s) =
      if ch = '\x00' then true else if !isHexChar ch then false else areAllCharHexadecimal s :=
  rfl

/-- On a run free of NUL followed by the end of the string,
`are_all_char_hexadecimal` tests every character of the run. -/
theorem areAllCharHexadecimal_append {r : List Char} (hr : ∀ c ∈ r.head?, c = '\x00') :
    ∀ {g : List Char}, (∀ c ∈ g, c ≠ '\x00') → areAllCharHexadecimal (g ++ r) = g.all isHexChar
  | [], _ => by
    cases r with
    | nil => rfl
    | cons c r' =>
      rw [hr c rfl]
      rfl
  | c :: g, hg => by
    rw [List.cons_append, areAllCharHexadecimal_cons, if_neg (hg c (by simp)), List.all_cons,
      areAllCharHexadecimal_append hr (fun c' h => hg c' (List.mem_cons_of_mem c h))]
    cases isHexChar c <;> rfl

/-- A group of a MAC address as the parser reads it. -/
structure MacGroup (g : List Char) : Prop where
  len_le : g.length ≤ macGroupLen
  hex : ∀ c ∈ g, isHexChar c = true

theorem MacGroup.not_colon_nul {g : List Char} (hg : MacGroup g) : ∀ c ∈ g, c ≠ ':' ∧ c ≠ '\x00' := by
  intro c hc
  have h := (isHexChar_iff c).mp (hg.hex c hc)
  refine ⟨fun h' => ?_, fun h' => ?_⟩ <;> subst h' <;> simp at h

theorem MacGroup.of_all {g : List Char} (hlen : g.length ≤ macGroupLen) (hall : g.all isHexChar = true) :
    MacGroup g :=
  ⟨hlen, List.all_eq_true.mp hall⟩

/-- The byte a group spells. -/
def hexByte (g : List Char) : UInt8 := UInt8.ofNat (digitsVal 16 g)

/-- The value `strtol` reads from a group passes the range check of the
parser, and `(uint8_t)` of it is the byte the group spells. -/
theorem macGroupVal {g r : List Char} (hg : MacGroup g) (hr : ∀ c ∈ r.head?, c = '\x00') :
    (decide (Int32.ofInt (strtol (g ++ r) 16) ≥ macMinGroupVal) &&
        decide (Int32.ofInt (strtol (g ++ r) 16) ≤ macMaxGroupVal)) = true ∧
      (Int32.ofInt (strtol (g ++ r) 16)).toUInt32.toUInt8 = hexByte g := by
  have hdig : ∀ c ∈ g, digitValue c < 16 := fun c hc => digitValue_lt_sixteen_iff.mpr (hg.hex c hc)
  have hlt : digitsVal 16 g < 2 ^ 8 :=
    calc digitsVal 16 g < 16 ^ g.length := digitsVal_lt_pow hdig
      _ ≤ 16 ^ 2 := Nat.pow_le_pow_right (by decide) hg.len_le
      _ = 2 ^ 8 := by norm_num
  rw [strtol_digitRun (by decide) hdig hr (by omega)]
  have hint := toInt_ofInt_of_lt (show digitsVal 16 g < 2 ^ 31 by omega)
  refine ⟨?_, toUInt8_toUInt32_ofInt_nat _⟩
  simp only [ge_iff_le, Int32.le_iff_toInt_le, hint, Bool.and_eq_true, decide_eq_true_eq]
  exact ⟨by simp [macMinGroupVal], by simp [macMaxGroupVal]; omega⟩

/-! One iteration of the group loop. -/

/-- The iteration at a run ended by a colon within two characters: it
accepts the run when its characters are hexadecimal digits, moves past the
colon and writes the byte; otherwise it returns with the NUL it wrote over
the colon. -/
theorem macGroupStep_of_found {g : List Char} (hg : ∀ c ∈ g, c ≠ ':' ∧ c ≠ '\x00')
    (hlen : g.length ≤ macGroupLen) (pre post : List Char) (k : ℕ) (mac : EtherAddr) :
    macGroupStep k ⟨pre ++ g ++ ':' :: post, pre.length, mac⟩ =
      if g.all isHexChar then
        .ok ⟨pre ++ g ++ ':' :: post, pre.length + g.length + 1,
          ⟨mac.addrBytes.setIfInBounds k (hexByte g)⟩⟩
      else .error (pre ++ g ++ '\x00' :: post, mac) := by
  have hdrop : ∀ c : Char, (pre ++ g ++ c :: post).drop pre.length = g ++ c :: post := by
    intro c
    rw [List.append_assoc]
    exact List.drop_left
  have hoff : indexOfFirstChar (g ++ ':' :: post) ':' macGroupLen = g.length := by
    have h := indexOfFirstCharFrom_append g post 0 hg
      (show ((0 : ℕ) : Int) + g.length ≤ (macGroupLen : Int) by simp only [macGroupLen] at hlen ⊢; omega)
    rw [indexOfFirstChar]
    simpa using h
  have hhex : areAllCharHexadecimal (g ++ '\x00' :: post) = g.all isHexChar :=
    areAllCharHexadecimal_append (by simp) (fun c hc => (hg c hc).2)
  have hfound : (g.length : Int) ≠ -1 := by omega
  unfold macGroupStep
  simp only [hdrop, hoff, if_neg hfound, Int.toNat_natCast, set_append_run, hhex]
  cases hall : g.all isHexChar with
  | false => rfl
  | true =>
    -- the group's value always passes the range check
    obtain ⟨hin, hbyte⟩ := macGroupVal (MacGroup.of_all hlen hall)
      (show ∀ c ∈ ('\x00' :: post).head?, c = '\x00' by simp)
    simp only [Bool.not_true, Bool.false_eq_true, if_false, hin, hbyte, if_true]

/-- The iteration where no colon ends a group: it returns at once. -/
theorem macGroupStep_of_not_found {k : ℕ} {st : MacScan}
    (h : indexOfFirstChar (st.buf.drop st.beginIdx) ':' macGroupLen = -1) :
    macGroupStep k st = .error (st.buf, st.mac) := by
  unfold macGroupStep
  simp only [h, if_true]

/-- An iteration succeeds only at a group followed by a colon. -/
theorem macGroupStep_ok_group {k : ℕ} (pre rest : List Char) (mac : EtherAddr) {st : MacScan}
    (h : macGroupStep k ⟨pre ++ rest, pre.length, mac⟩ = .ok st) :
    ∃ g post, rest = g ++ ':' :: post ∧ MacGroup g := by
  rcases @scan_cases ':' (by decide) macGroupLen rest with hnone | ⟨g, post, rfl, hg, hlen, -⟩
  · rw [macGroupStep_of_not_found (by dsimp only; rw [List.drop_left]; exact hnone)] at h
    cases h
  · refine ⟨g, post, rfl, ?_⟩
    rw [← List.append_assoc, macGroupStep_of_found hg hlen pre post k mac] at h
    split_ifs at h with hall
    exact MacGroup.of_all hlen hall

/-! The group loop. -/

/-- Groups each followed by a colon. -/
def colonTerminated (gs : List (List Char)) : List Char := (gs.map (· ++ [':'])).flatten

@[simp] theorem colonTerminated_nil : colonTerminated [] = [] := rfl

@[simp] theorem colonTerminated_cons (g : List Char) (gs : List (List Char)) :
    colonTerminated (g :: gs) = g ++ ':' :: colonTerminated gs := by
  simp [colonTerminated]

/-- The bytes of `*mac` after the groups `gs` are written from byte `lo` on. -/
def writeGroups : Vector UInt8 6 → ℕ → List (List Char) → Vector UInt8 6
  | bytes, _, [] => bytes
  | bytes, lo, g :: gs => writeGroups (bytes.setIfInBounds lo (hexByte g)) (lo + 1) gs

/-- `*mac` as the loop leaves it: each group's byte written in turn. -/
theorem foldFields_writeGroups :
    ∀ (lo : ℕ) (gs : List (List Char)) (mac : EtherAddr),
      foldFields (fun k g (mac : EtherAddr) => ⟨mac.addrBytes.setIfInBounds k (hexByte g)⟩) lo gs mac =
        ⟨writeGroups mac.addrBytes lo gs⟩
  | _, [], _ => rfl
  | lo, _ :: gs, _ => foldFields_writeGroups (lo + 1) gs _

/-- The group loop from group `lo` over `n` groups, at offset `pre.length`:
it succeeds exactly on `n` groups each followed by a colon, and then stands
past them with their bytes written. -/
theorem forRange_macGroupStep_eq_ok (n lo : ℕ) (pre rest : List Char) (mac : EtherAddr) (st : MacScan) :
    forRange macGroupStep lo n ⟨pre ++ rest, pre.length, mac⟩ = .ok st ↔
      ∃ gs post, gs.length = n ∧ (∀ g ∈ gs, MacGroup g) ∧ rest = colonTerminated gs ++ post ∧
        st = ⟨pre ++ rest, pre.length + (colonTerminated gs).length,
          ⟨writeGroups mac.addrBytes lo gs⟩⟩ := by
  have h := forRange_fields_eq_ok MacScan.mk
    (fun k g (mac : EtherAddr) => ⟨mac.addrBytes.setIfInBounds k (hexByte g)⟩) (K := lo + n)
    (fun g hg hm => (hg.not_colon_nul ':' hm).1 rfl)
    (fun k pre g post mac _ hg => by
      rw [macGroupStep_of_found hg.not_colon_nul hg.len_le, if_pos (List.all_eq_true.mpr hg.hex)])
    (fun k pre rest mac _ _ h => macGroupStep_ok_group pre rest mac h)
    n lo pre rest mac st le_rfl
  simp only [foldFields_writeGroups] at h
  exact h

/-- The bytes the loop leaves: the groups' bytes from `lo` on, the others
as they were. -/
theorem toList_writeGroups :
    ∀ (bytes : Vector UInt8 6) (lo : ℕ) (gs : List (List Char)), lo + gs.length ≤ 6 →
      (writeGroups bytes lo gs).toList =
        bytes.toList.take lo ++ gs.map hexByte ++ bytes.toList.drop (lo + gs.length)
  | bytes, lo, [], _ => by simp [writeGroups]
  | bytes, lo, g :: gs, h => by
    simp only [List.length_cons] at h
    have hset : (bytes.setIfInBounds lo (hexByte g)).toList =
        bytes.toList.take lo ++ hexByte g :: bytes.toList.drop (lo + 1) := by
      rw [Vector.toList_setIfInBounds, List.set_eq_take_append_cons_drop]
      simp only [Vector.length_toList, if_pos (show lo < 6 by omega)]
    rw [writeGroups, toList_writeGroups _ (lo + 1) gs (by omega), hset]
    have htake : (bytes.toList.take lo ++ hexByte g :: bytes.toList.drop (lo + 1)).take (lo + 1) =
        bytes.toList.take lo ++ [hexByte g] := by
      rw [List.take_append, List.take_of_length_le (by simp only [List.length_take]; omega)]
      simp [show lo + 1 - min lo 6 = 1 by omega]
    have hdrop : (bytes.toList.take lo ++ hexByte g :: bytes.toList.drop (lo + 1)).drop (lo + 1 + gs.length) =
        bytes.toList.drop (lo + (gs.length + 1)) := by
      rw [List.drop_append, List.drop_eq_nil_of_le (by simp; omega), List.nil_append,
        show lo + 1 + gs.length - (bytes.toList.take lo).length = gs.length + 1 by simp; omega,
        List.drop_succ_cons, List.drop_drop]
      congr 1
      omega
    rw [htake, hdrop, List.map_cons]
    simp

/-! The last group and the whole parser. -/

/-- The last group as the parser checks it: the string from the offset on is
two characters long, all hexadecimal digits. -/
theorem lastGroup_iff (post : List Char) :
    (strlen post = macGroupLen ∧ areAllCharHexadecimal post = true) ↔
      ∃ last rest, post = last ++ rest ∧ MacGroup last ∧ last.length = macGroupLen ∧
        ∀ c ∈ rest.head?, c = '\x00' := by
  constructor
  · rintro ⟨hlen, hhex⟩
    obtain ⟨g, r, rfl, hg, hr⟩ := exists_cstr post
    rw [strlen_append hg hr] at hlen
    rw [areAllCharHexadecimal_append hr hg] at hhex
    exact ⟨g, r, rfl, MacGroup.of_all (by omega) hhex, hlen, hr⟩
  · rintro ⟨last, rest, rfl, hlast, hlen, hrest⟩
    have hnul : ∀ c ∈ last, c ≠ '\x00' := fun c hc => (hlast.not_colon_nul c hc).2
    exact ⟨by rw [strlen_append hnul hrest, hlen], by
      rw [areAllCharHexadecimal_append hrest hnul]
      exact List.all_eq_true.mpr hlast.hex⟩

/-- A spelling of a MAC address as `mac_addr_from_str` reads it: five groups
of at most two hexadecimal digits, each followed by a colon, a last group
of exactly two, and the end of the string. -/
structure MacSpelling (gs : List (List Char)) (last rest : List Char) : Prop where
  length : gs.length = macNumColons
  groups : ∀ g ∈ gs, MacGroup g
  lastGroup : MacGroup last
  last_len : last.length = macGroupLen
  ends : ∀ c ∈ rest.head?, c = '\x00'

/-- A spelled MAC address holds hexadecimal digits and colons only ... -/
theorem MacSpelling.chars {gs : List (List Char)} {last rest : List Char} (h : MacSpelling gs last rest) :
    ∀ c ∈ colonTerminated gs ++ last, c = ':' ∨ isHexChar c = true := by
  intro c hc
  rcases List.mem_append.mp hc with hc | hc
  · rcases mem_terminated hc with rfl | ⟨g, hg, hc⟩
    · exact .inl rfl
    · exact .inr ((h.groups g hg).hex c hc)
  · exact .inr (h.lastGroup.hex c hc)

/-- ... so no character outside them occurs in it. -/
theorem MacSpelling.ne_of_mem {gs : List (List Char)} {last rest : List Char} (h : MacSpelling gs last rest)
    {c : Char} (hcolon : c ≠ ':') (hhex : isHexChar c = false) : ∀ ch ∈ colonTerminated gs ++ last, ch ≠ c := by
  rintro ch hch rfl
  rcases h.chars ch hch with hc | hc
  · exact hcolon hc
  · rw [hhex] at hc
    exact Bool.false_ne_true hc

/-- ... at most seventeen of them. -/
theorem MacSpelling.length_le {gs : List (List Char)} {last rest : List Char}
    (h : MacSpelling gs last rest) : (colonTerminated gs ++ last).length ≤ macAddrLen := by
  have hgs : (terminated ':' gs).length ≤ gs.length * (macGroupLen + 1) :=
    length_terminated_le (fun g hg => (h.groups g hg).len_le)
  have hlast := h.last_len
  rw [List.length_append, colonTerminated, ← terminated]
  rw [h.length] at hgs
  simp only [macNumColons, macNumGroups, macGroupLen, macAddrLen] at hgs hlast ⊢
  omega

/-- The MAC address the groups spell. -/
def spelledMac (gs : List (List Char)) (last : List Char) : EtherAddr :=
  ⟨(writeGroups EtherAddr.zero.addrBytes 0 gs).setIfInBounds macNumColons (hexByte last)⟩

theorem forRange_macGroupStep_start (buf : List Char) (mac : EtherAddr) (st : MacScan) :
    forRange macGroupStep 0 macNumColons ⟨buf, 0, mac⟩ = .ok st ↔
      ∃ gs post, gs.length = macNumColons ∧ (∀ g ∈ gs, MacGroup g) ∧
        buf = colonTerminated gs ++ post ∧
        st = ⟨buf, (colonTerminated gs).length, ⟨writeGroups mac.addrBytes 0 gs⟩⟩ := by
  simpa using forRange_macGroupStep_eq_ok macNumColons 0 [] buf mac st

/-- On a spelling the parser returns 0, leaves the buffer as it was and
writes the six bytes. -/
theorem macAddrFromStr_spelled {gs : List (List Char)} {last rest : List Char}
    (h : MacSpelling gs last rest) (mac : EtherAddr) :
    macAddrFromStr (colonTerminated gs ++ last ++ rest) mac =
      (0, colonTerminated gs ++ last ++ rest,
        ⟨(writeGroups mac.addrBytes 0 gs).setIfInBounds macNumColons (hexByte last)⟩) := by
  have hloop := (forRange_macGroupStep_start (colonTerminated gs ++ last ++ rest) mac _).mpr
    ⟨gs, last ++ rest, h.length, h.groups, by simp, rfl⟩
  have hlast : (colonTerminated gs ++ last ++ rest).drop (colonTerminated gs).length = last ++ rest := by
    rw [List.append_assoc]
    exact List.drop_left
  obtain ⟨hlen, hhex⟩ := (lastGroup_iff (last ++ rest)).mpr ⟨last, rest, rfl, h.lastGroup, h.last_len, h.ends⟩
  obtain ⟨hin, hbyte⟩ := macGroupVal h.lastGroup h.ends
  unfold macAddrFromStr
  simp only [hloop, hlast, hlen, hhex, ne_eq, not_true_eq_false, if_false, Bool.not_true,
    Bool.false_eq_true, hin, hbyte]

/-- The parser returns 0 only on a spelling. -/
theorem spelled_of_macAddrFromStr {buf : List Char} {mac : EtherAddr}
    (h : (macAddrFromStr buf mac).1 = 0) :
    ∃ gs last rest, MacSpelling gs last rest ∧ buf = colonTerminated gs ++ last ++ rest := by
  unfold macAddrFromStr at h
  cases hloop : forRange macGroupStep 0 macNumColons ⟨buf, 0, mac⟩ with
  | error e =>
    rw [hloop] at h
    cases h
  | ok st =>
    obtain ⟨gs, post, hlen, hgs, rfl, rfl⟩ := (forRange_macGroupStep_start buf mac st).mp hloop
    rw [hloop] at h
    have hpost : (colonTerminated gs ++ post).drop (colonTerminated gs).length = post := List.drop_left
    simp only [hpost] at h
    -- every check before the `return 0` passed
    by_cases hs : strlen post = macGroupLen
    · by_cases hx : areAllCharHexadecimal post = true
      · obtain ⟨last, rest, rfl, hlast, hll, hrest⟩ := (lastGroup_iff post).mp ⟨hs, hx⟩
        exact ⟨gs, last, rest, ⟨hlen, hgs, hlast, hll, hrest⟩, by rw [List.append_assoc]⟩
      · simp [hs, hx] at h
    · simp [hs] at h

theorem macAddrFromStr_fst (buf : List Char) (mac : EtherAddr) :
    (macAddrFromStr buf mac).1 = 0 ∨ (macAddrFromStr buf mac).1 = -1 := by
  unfold macAddrFromStr
  split
  · exact .inr rfl
  · dsimp only
    split_ifs <;> simp

/-- `mac_addr_from_str` returns 0 or -1, and 0 exactly on five groups of at
most two hexadecimal digits, each followed by a colon, then a group of two
and the end of the string; then `*mac` holds the six groups' values. -/
theorem macAddrFromStr_spec (buf : List Char) (mac : EtherAddr) :
    ((macAddrFromStr buf mac).1 = 0 ∨ (macAddrFromStr buf mac).1 = -1) ∧
      ((macAddrFromStr buf mac).1 = 0 ↔
        ∃ gs last rest, MacSpelling gs last rest ∧ buf = colonTerminated gs ++ last ++ rest) ∧
      ∀ gs last rest, MacSpelling gs last rest → buf = colonTerminated gs ++ last ++ rest →
        (macAddrFromStr buf mac).2.2.addrBytes.toList = (gs ++ [last]).map hexByte := by
  refine ⟨macAddrFromStr_fst buf mac, ⟨spelled_of_macAddrFromStr, ?_⟩, ?_⟩
  · rintro ⟨gs, last, rest, h, rfl⟩
    rw [macAddrFromStr_spelled h mac]
  · intro gs last rest h hbuf
    subst hbuf
    have hlen := h.length
    simp only [macNumColons, macNumGroups] at hlen
    -- the loop writes bytes 0 to 4 and the last group byte 5
    have hone : (mac.addrBytes.toList.drop 5).length = 1 := by simp
    obtain ⟨x, hx⟩ := List.length_eq_one_iff.mp hone
    rw [macAddrFromStr_spelled h mac, Vector.toList_setIfInBounds,
      toList_writeGroups _ 0 gs (by omega), hlen]
    simp [hx, hlen, macNumColons, macNumGroups]

example :
    macAddrFromStr ":::::00".toList ⟨#v[1, 1, 1, 1, 1, 1]⟩ =
      (0, ":::::00".toList, ⟨#v[0, 0, 0, 0, 0, 0]⟩) := by
  decide

/-- One-digit groups are accepted: `1:2:3:4:5:66` spells `01:02:03:04:05:66`. -/
theorem macAddrFromStr_one_digit_groups :
    macAddrFromStr "1:2:3:4:5:66".toList EtherAddr.zero =
      (0, "1:2:3:4:5:66".toList, ⟨#v[1, 2, 3, 4, 5, 0x66]⟩) := by
  decide

end DpdkRouter.Utils
