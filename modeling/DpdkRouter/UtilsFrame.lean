import DpdkRouter.UtilsMacSpec

/-!
What the parsers of `utils.c` leave in their argument. Each writes a NUL
over the separator that ends a field, checks the field and writes the
separator back; a `return -1` between the two leaves the NUL. So the buffer
a parser returns is its argument, or its argument with one separator
overwritten by NUL (`NulOverSep`), and on success it is its argument.

The group loops are handled by the safety rule `forRange_outcome`: an
iteration keeps the buffer when it succeeds and leaves at most one NUL when
it fails.
-/

namespace DpdkRouter.Utils

open ForLoop CStr

/-- `s'` is `s`, or `s` with one of its characters in `seps` overwritten by
NUL. -/
def NulOverSep (seps s s' : List Char) : Prop :=
  s' = s ∨ ∃ i c, s[i]? = some c ∧ c ∈ seps ∧ s' = s.set i '\x00'

/-- Writing at `b + i` writes at `i` past the first `b` characters. -/
theorem set_add_eq_take_append (s : List Char) (b i : ℕ) (x : Char) :
    s.set (b + i) x = s.take b ++ (s.drop b).set i x := by
  rw [← List.take_append_drop b (s.set (b + i) x), List.take_set, List.set_drop,
    List.set_eq_of_length_le (by simp)]

namespace NulOverSep

variable {seps seps' s r : List Char}

theorem refl (seps s : List Char) : NulOverSep seps s s := .inl rfl

/-- The NUL written over the separator that ends a run. -/
theorem run {c : Char} (hc : c ∈ seps) (pre g post : List Char) :
    NulOverSep seps (pre ++ g ++ c :: post) (pre ++ g ++ '\x00' :: post) :=
  .inr ⟨pre.length + g.length, c, by simp, hc, (set_append_run pre g post c '\x00').symm⟩

/-- The same at the first field of the buffer. -/
theorem field {c : Char} (hc : c ∈ seps) (f post : List Char) :
    NulOverSep seps (f ++ c :: post) (f ++ '\x00' :: post) := by
  have h := run hc [] f post
  rwa [List.nil_append] at h

theorem mono (h : NulOverSep seps s r) (hsub : ∀ c ∈ seps, c ∈ seps') : NulOverSep seps' s r := by
  rcases h with rfl | ⟨i, c, hi, hc, rfl⟩
  · exact .inl rfl
  · exact .inr ⟨i, c, hi, hsub c hc, rfl⟩

/-- Writing back the character `c` at `e` that a NUL stood in for, where NUL
is no separator. -/
theorem set_back {e : ℕ} {c : Char} (he : s[e]? = some c) (hnul : '\x00' ∉ seps)
    (h : NulOverSep seps (s.set e '\x00') r) : NulOverSep seps s (r.set e c) := by
  obtain ⟨hlt, hc⟩ := List.getElem?_eq_some_iff.mp he
  have hself : s.set e c = s := by rw [← hc, List.set_getElem_self]
  have hback : (s.set e '\x00').set e c = s := by rw [List.set_set, hself]
  rcases h with rfl | ⟨i, c', hi, hc', rfl⟩
  · exact .inl hback
  · -- the second NUL stands at a separator, so not at `e`
    have hie : i ≠ e := by
      rintro rfl
      rw [List.getElem?_set_self hlt, Option.some.injEq] at hi
      exact hnul (hi ▸ hc')
    refine .inr ⟨i, c', ?_, hc', ?_⟩
    · rwa [List.getElem?_set_ne (Ne.symm hie)] at hi
    · calc ((s.set e '\x00').set i '\x00').set e c = ((s.set i '\x00').set e '\x00').set e c := by
            rw [List.set_comm _ _ (Ne.symm hie)]
        _ = (s.set e c).set i '\x00' := by rw [List.set_set, List.set_comm _ _ hie]
        _ = s.set i '\x00' := by rw [hself]

/-- A parser run on `s.drop b`, with what it leaves put back after
`s.take b`. -/
theorem take_append {b : ℕ} (h : NulOverSep seps (s.drop b) r) :
    NulOverSep seps s (s.take b ++ r) := by
  rcases h with rfl | ⟨i, c, hi, hc, rfl⟩
  · exact .inl (List.take_append_drop b s)
  · refine .inr ⟨b + i, c, by rwa [List.getElem?_drop] at hi, hc, ?_⟩
    exact (set_add_eq_take_append s b i _).symm

/-- A sub-parser called on a field `f` ended by NUL, after which the caller
writes the separator back. -/
theorem call {pre f post : List Char} {sep : Char} (hnul : '\x00' ∉ seps)
    (h : NulOverSep seps (f ++ '\x00' :: post) r) :
    NulOverSep seps (pre ++ f ++ sep :: post) ((pre ++ r).set (pre.length + f.length) sep) := by
  have hcall : NulOverSep seps (pre ++ f ++ '\x00' :: post) (pre ++ r) := by
    have h' : NulOverSep seps ((pre ++ f ++ '\x00' :: post).drop pre.length) r := by
      rwa [List.append_assoc, List.drop_left]
    have h'' := take_append h'
    rwa [List.append_assoc, List.take_left, ← List.append_assoc] at h''
  refine set_back (by simp) hnul ?_
  rwa [set_append_run]

end NulOverSep

/-- A buffer whose tail from `b` on is a run: it splits there. -/
theorem eq_take_append_of_drop_eq {s rest : List Char} {b : ℕ} (h : s.drop b = rest) (hne : rest ≠ []) :
    s = s.take b ++ rest ∧ (s.take b).length = b := by
  have hb : b < s.length := by
    by_contra hge
    exact hne (h ▸ List.drop_of_length_le (by omega))
  refine ⟨by rw [← h, List.take_append_drop], by simp; omega⟩

/-! The group loops. -/

/-- An iteration of the group loop of `ipv4_addr_from_str` keeps the buffer
when it succeeds, and leaves at most one dot overwritten when it fails. -/
theorem ipv4GroupStep_frame {k : ℕ} (hk : k ≤ 2) (s : List Char) (b : ℕ) (res : UInt32) :
    Outcome (fun st => st.buf = s) (NulOverSep ['.'] s) (ipv4GroupStep k ⟨s, b, res⟩) := by
  rcases @scan_cases '.' (by decide) ipv4GroupLen (s.drop b) with hnone | ⟨g, post, hs, hg, hlen, -⟩
  · rw [ipv4GroupStep_of_not_found hnone]
    exact NulOverSep.refl _ _
  · obtain ⟨hsplit, hb⟩ := eq_take_append_of_drop_eq hs (by simp)
    generalize s.take b = pre at hsplit hb
    subst hsplit hb
    rw [← List.append_assoc, ipv4GroupStep_of_found hg hlen pre post hk res]
    split_ifs
    · exact outcome_ok.mpr rfl
    · exact NulOverSep.refl _ _
    · exact NulOverSep.run (by simp) pre g post

/-- The same for the group loop of `mac_addr_from_str`, with colons. -/
theorem macGroupStep_frame (k : ℕ) (s : List Char) (b : ℕ) (mac : EtherAddr) :
    Outcome (fun st => st.buf = s) (fun e => NulOverSep [':'] s e.1) (macGroupStep k ⟨s, b, mac⟩) := by
  rcases @scan_cases ':' (by decide) macGroupLen (s.drop b) with hnone | ⟨g, post, hs, hg, hlen, -⟩
  · rw [macGroupStep_of_not_found hnone]
    exact NulOverSep.refl _ _
  · obtain ⟨hsplit, hb⟩ := eq_take_append_of_drop_eq hs (by simp)
    generalize s.take b = pre at hsplit hb
    subst hsplit hb
    rw [← List.append_assoc, macGroupStep_of_found hg hlen pre post k mac]
    split_ifs
    · exact outcome_ok.mpr rfl
    · exact NulOverSep.run (by simp) pre g post

/-- The buffer `ipv4_addr_from_str` leaves: at most one dot overwritten by
NUL, and none when it returns 0. -/
theorem ipv4AddrFromStr_frame (s : List Char) (addr : UInt32) :
    NulOverSep ['.'] s (ipv4AddrFromStr s addr).2.1 ∧
      ((ipv4AddrFromStr s addr).1 = 0 → (ipv4AddrFromStr s addr).2.1 = s) := by
  have hrun : Outcome (fun st => st.buf = s) (NulOverSep ['.'] s)
      (forRange ipv4GroupStep 0 ipv4NumDots ⟨s, 0, 0⟩) := by
    refine forRange_outcome (fun _ (st : Ipv4Scan) => st.buf = s) _ ?_ rfl
    rintro i ⟨buf, b, res⟩ - hi rfl
    exact ipv4GroupStep_frame (by simp only [ipv4NumDots, ipv4NumGroups] at hi; omega) buf b res
  unfold ipv4AddrFromStr
  cases h : forRange ipv4GroupStep 0 ipv4NumDots ⟨s, 0, 0⟩ with
  | error buf =>
    rw [h] at hrun
    exact ⟨hrun, fun h0 => by simp at h0⟩
  | ok st =>
    rw [h] at hrun
    -- every return after the loop hands back the loop's buffer
    have hbuf : st.buf = s := hrun
    dsimp only
    split_ifs <;> exact ⟨by rw [hbuf]; exact NulOverSep.refl _ _, fun _ => hbuf⟩

/-- The buffer `mac_addr_from_str` leaves: at most one colon overwritten by
NUL, and none when it returns 0. -/
theorem macAddrFromStr_frame (s : List Char) (mac : EtherAddr) :
    NulOverSep [':'] s (macAddrFromStr s mac).2.1 ∧
      ((macAddrFromStr s mac).1 = 0 → (macAddrFromStr s mac).2.1 = s) := by
  have hrun : Outcome (fun st => st.buf = s) (fun e => NulOverSep [':'] s e.1)
      (forRange macGroupStep 0 macNumColons ⟨s, 0, mac⟩) := by
    refine forRange_outcome (fun _ (st : MacScan) => st.buf = s) _ ?_ rfl
    rintro i ⟨buf, b, mac'⟩ - - rfl
    exact macGroupStep_frame i buf b mac'
  unfold macAddrFromStr
  cases h : forRange macGroupStep 0 macNumColons ⟨s, 0, mac⟩ with
  | error e =>
    rw [h] at hrun
    exact ⟨hrun, fun h0 => by simp at h0⟩
  | ok st =>
    rw [h] at hrun
    have hbuf : st.buf = s := hrun
    dsimp only
    split_ifs <;> exact ⟨by rw [hbuf]; exact NulOverSep.refl _ _, fun _ => hbuf⟩

end DpdkRouter.Utils
