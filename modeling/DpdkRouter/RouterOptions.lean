import DpdkRouter.RouterSetup
import DpdkRouter.UtilsFrame

/-!
What the option parsers of `router.c` accept. `parse_option_p` reads an
interface id and an address, `parse_option_r` an address, a prefix length,
a MAC address and an interface id; each field is cut out by the scan for
the separator after it, within a bound of its own.

The fields are not all checked alike. The id of `-p` is checked to be
digits, and `atoi` then keeps the low 32 bits of its value. The prefix
length of `-r` is not checked to be digits at all: it is whatever `atoi`
reads from the field, the empty field included. The id of `-r` is digits,
fewer than ten of them, but may be empty.
-/

namespace DpdkRouter.Router

open ForLoop CStr Bits Utils RoutingTable

/-! Fields of an argument. -/

theorem scan_field {sep : Char} {max : ℕ} {f : List Char} (hf : ∀ c ∈ f, c ≠ sep ∧ c ≠ '\x00')
    (hlen : f.length ≤ max) (pre post : List Char) :
    indexOfFirstChar ((pre ++ f ++ sep :: post).drop pre.length) sep max = f.length := by
  have h := @indexOfFirstCharFrom_append sep (max : Int) f post 0 hf (by push_cast; omega)
  rw [List.append_assoc, List.drop_left, indexOfFirstChar, h]
  simp

theorem drop_run (pre f post : List Char) (c : Char) :
    (pre ++ f ++ c :: post).drop pre.length = f ++ c :: post := by
  rw [List.append_assoc]
  exact List.drop_left

theorem drop_past_run (pre f post : List Char) (c : Char) :
    (pre ++ f ++ c :: post).drop (pre.length + f.length + 1) = post := by
  rw [show pre ++ f ++ c :: post = (pre ++ f ++ [c]) ++ post by simp,
    List.drop_left' (by simp only [List.length_append, List.length_singleton])]

theorem set_field (f post : List Char) (c c' : Char) : (f ++ c :: post).set f.length c' = f ++ c' :: post := by
  simp

theorem take_run (pre f post : List Char) (c : Char) :
    (pre ++ f ++ c :: post).take pre.length = pre := by
  rw [List.append_assoc]
  exact List.take_left

theorem cut_field {arg pre f post : List Char} {sep : Char} (h : arg = pre ++ f ++ sep :: post) :
    arg.set (pre.length + f.length) '\x00' = pre ++ f ++ '\x00' :: post ∧
      (pre ++ f ++ '\x00' :: post).drop pre.length = f ++ '\x00' :: post ∧
      (pre ++ f ++ '\x00' :: post).take pre.length = pre ∧
      (pre ++ f ++ '\x00' :: post).set (pre.length + f.length) sep = arg ∧
      arg.drop (pre.length + f.length + 1) = post := by
  subst h
  exact ⟨set_append_run pre f post sep '\x00', drop_run pre f post '\x00', take_run pre f post '\x00',
    set_append_run pre f post '\x00' sep, drop_past_run pre f post sep⟩

theorem atoi_digits_ten {ds r : List Char} (hds : ∀ c ∈ ds, c.isDigit) (hlen : ds.length ≤ 10)
    (hr : ∀ c ∈ r.head?, c = '\x00') : atoi (ds ++ r) = Int32.ofInt (digitsVal 10 ds) := by
  have hlt : digitsVal 10 ds < 2 ^ 63 :=
    calc digitsVal 10 ds < 10 ^ ds.length := digitsVal_lt_pow (fun c hc => digitValue_lt_ten_iff.mpr (hds c hc))
      _ ≤ 10 ^ 10 := Nat.pow_le_pow_right (by decide) hlen
      _ < 2 ^ 63 := by norm_num
  rw [atoi, strtol_digits hds hr hlt]

/-! `parse_option_p`. -/

/-- A `-p` argument as `parse_option_p` accepts it: an interface id of at
most ten digits whose value modulo 2^32 is at most 255, a comma, and an
address `ipv4_addr_from_str` accepts. -/
structure InterfaceOption (p : List Char) (gs : List (List Char)) (last rest : List Char) : Prop where
  id_len : p.length ≤ maxDecDigitLen
  id_digits : ∀ c ∈ p, c.isDigit
  id_le : digitsVal 10 p % 2 ^ 32 ≤ 255
  addr : Ipv4Spelling gs last rest

theorem parseOptionP_accepts {p : List Char} {gs : List (List Char)} {last rest : List Char}
    (h : InterfaceOption p gs last rest) (portMac : UInt16 → EtherAddr) :
    parseOptionP portMac (p ++ ',' :: (terminated '.' gs ++ last ++ rest)) =
      (some ⟨UInt8.ofNat (digitsVal 10 p), spelledAddr gs last, portMac (UInt16.ofNat (digitsVal 10 p))⟩,
        p ++ ',' :: (terminated '.' gs ++ last ++ rest)) := by
  have hp : ∀ c ∈ p, c ≠ ',' ∧ c ≠ '\x00' := fun c hc => by
    have := h.id_digits c hc
    exact ⟨fun h' => absurd (h' ▸ this) (by decide), fun h' => absurd (h' ▸ this) (by decide)⟩
  have hoff := scan_field hp h.id_len [] (terminated '.' gs ++ last ++ rest)
  simp only [List.nil_append, List.length_nil, List.drop_zero] at hoff
  have hnul : ∀ c ∈ ('\x00' :: (terminated '.' gs ++ last ++ rest)).head?, c = '\x00' := by simp
  have hdec := areAllCharDecimal_digits hnul p h.id_digits
  have hatoi := atoi_digits_ten h.id_digits h.id_len hnul
  have hrange := (ofInt_nat_byte_iff (digitsVal 10 p)).mpr h.id_le
  have hdrop : (p ++ ',' :: (terminated '.' gs ++ last ++ rest)).drop (p.length + 1) =
      terminated '.' gs ++ last ++ rest := by simp
  have htake : (p ++ ',' :: (terminated '.' gs ++ last ++ rest)).take (p.length + 1) = p ++ [','] := by
    rw [show p ++ ',' :: (terminated '.' gs ++ last ++ rest) = (p ++ [',']) ++ (terminated '.' gs ++ last ++ rest)
      by simp, List.take_left' (by simp)]
  unfold parseOptionP
  simp only [hoff, Int.toNat_natCast, set_field, hdec, hatoi, hdrop, htake,
    ipv4AddrFromStr_spelled h.addr, toUInt8_toUInt32_ofInt_nat, toUInt16_toUInt32_ofInt_nat,
    dpdkMinInterfaceVal, dpdkMaxInterfaceVal, ge_iff_le, hrange, decide_true, Bool.and_self, Bool.not_true,
    Bool.false_eq_true, if_false, Bool.not_true]
  simp

theorem parseOptionP_cases (portMac : UInt16 → EtherAddr) (arg : List Char) :
    (∃ out, parseOptionP portMac arg = (none, out) ∧ NulOverSep [',', '.'] arg out) ∨
      ∃ p gs last rest, InterfaceOption p gs last rest ∧ arg = p ++ ',' :: (terminated '.' gs ++ last ++ rest) := by
  rcases @scan_cases ',' (by decide) maxDecDigitLen arg with hnone | ⟨p, post, rfl, hp, hlen, hoff⟩
  · refine .inl ⟨arg, ?_, NulOverSep.refl _ _⟩
    unfold parseOptionP
    simp only [hnone, if_true]
  have hnul : ∀ c ∈ ('\x00' :: post).head?, c = '\x00' := by simp
  have hdrop : (p ++ ',' :: post).drop (p.length + 1) = post := by simp
  have hne : ¬ ((p.length : Int) = -1) := by omega
  unfold parseOptionP
  simp only [hoff, hne, if_false, Int.toNat_natCast, set_field,
    areAllCharDecimal_append hnul (fun c hc => (hp c hc).2), hdrop]
  cases hd : p.all (·.isDigit) with
  | false =>
    simp only [Bool.not_false, if_true]
    exact .inl ⟨_, rfl, NulOverSep.field (by simp) p post⟩
  | true =>
    have hdig := List.all_eq_true.mp hd
    simp only [Bool.not_true, Bool.false_eq_true, if_false,
      atoi_digits_ten hdig (by simp only [maxDecDigitLen] at hlen; omega) hnul]
    cases hr : (decide (Int32.ofInt (digitsVal 10 p : Int) ≥ dpdkMinInterfaceVal) &&
        decide (Int32.ofInt (digitsVal 10 p : Int) ≤ dpdkMaxInterfaceVal)) with
    | false =>
      simp only [Bool.not_false, if_true]
      exact .inl ⟨_, rfl, NulOverSep.refl _ _⟩
    | true =>
      simp only [Bool.not_true, Bool.false_eq_true, if_false]
      rcases ipv4AddrFromStr_fst post 0 with hs | hs
      · obtain ⟨gs, last, rest, hsp, rfl⟩ := spelled_of_ipv4AddrFromStr hs
        rw [Bool.and_eq_true, decide_eq_true_eq, decide_eq_true_eq] at hr
        exact .inr ⟨p, gs, last, rest, ⟨hlen, hdig, (ofInt_nat_byte_iff _).mp ⟨hr.1, hr.2⟩, hsp⟩, rfl⟩
      · simp only [hs, if_true]
        have hframe : NulOverSep ['.'] ((p ++ ',' :: post).drop (p.length + 1))
            (ipv4AddrFromStr post 0).2.1 := by
          rw [hdrop]
          exact (ipv4AddrFromStr_frame post 0).1
        exact .inl ⟨_, rfl, (NulOverSep.take_append hframe).mono (by simp)⟩

theorem interfaceOption_of_parseOptionP {portMac : UInt16 → EtherAddr} {arg : List Char}
    {cfg : InterfaceConfig} {out : List Char} (h : parseOptionP portMac arg = (some cfg, out)) :
    ∃ p gs last rest, InterfaceOption p gs last rest ∧ arg = p ++ ',' :: (terminated '.' gs ++ last ++ rest) := by
  rcases parseOptionP_cases portMac arg with ⟨out', hnone, -⟩ | hsome
  · rw [hnone] at h
    cases h
  · exact hsome

/-- `parse_option_p` returns a configuration exactly on an interface id of
at most ten digits whose value modulo 2^32 is at most 255, a comma and an
address `ipv4_addr_from_str` accepts. The configuration then holds the id
modulo 256, the address and the port's MAC address, and the buffer is as
it was. -/
theorem parseOptionP_spec (portMac : UInt16 → EtherAddr) (arg : List Char) :
    ((parseOptionP portMac arg).1.isSome ↔
      ∃ p gs last rest, InterfaceOption p gs last rest ∧ arg = p ++ ',' :: (terminated '.' gs ++ last ++ rest)) ∧
    ∀ p gs last rest, InterfaceOption p gs last rest → arg = p ++ ',' :: (terminated '.' gs ++ last ++ rest) →
      parseOptionP portMac arg =
        (some ⟨UInt8.ofNat (digitsVal 10 p), spelledAddr gs last, portMac (UInt16.ofNat (digitsVal 10 p))⟩, arg) := by
  refine ⟨⟨fun h => ?_, ?_⟩, ?_⟩
  · obtain ⟨cfg, hcfg⟩ := Option.isSome_iff_exists.mp h
    exact interfaceOption_of_parseOptionP (Prod.ext hcfg rfl)
  · rintro ⟨p, gs, last, rest, h, rfl⟩
    rw [parseOptionP_accepts h portMac]
    rfl
  · rintro p gs last rest h rfl
    exact parseOptionP_accepts h portMac

/-! `parse_option_r`. -/

/-- A `-r` argument as `parse_option_r` accepts it: an address, a prefix
length, a MAC address and an interface id. The prefix length is any field
of at most ten characters from which `atoi` reads a value from 0 to 32; the
interface id is at most nine digits of value at most 255. -/
structure RouteOption (gs : List (List Char)) (last c : List Char) (ms : List (List Char))
    (mlast p : List Char) : Prop where
  addr : Ipv4Spelling gs last []
  cidr_len : c.length ≤ maxDecDigitLen
  cidr_field : ∀ ch ∈ c, ch ≠ ',' ∧ ch ≠ '\x00'
  cidr_range : ipv4MinCidrVal ≤ atoi c ∧ atoi c ≤ ipv4MaxCidrVal
  mac : MacSpelling ms mlast []
  port_len : p.length < maxDecDigitLen
  port_digits : ∀ ch ∈ p, ch.isDigit
  port_le : digitsVal 10 p ≤ 255

def routeArg (gs : List (List Char)) (last c : List Char) (ms : List (List Char)) (mlast p : List Char) :
    List Char :=
  terminated '.' gs ++ last ++ '/' :: (c ++ ',' :: (colonTerminated ms ++ mlast ++ ',' :: p))

theorem parseOptionR_accepts {gs ms : List (List Char)} {last c mlast p rest : List Char}
    (h : RouteOption gs last c ms mlast p) (hrest : ∀ ch ∈ rest.head?, ch = '\x00') {arg : List Char}
    (harg : arg = routeArg gs last c ms mlast p ++ rest) (t : Tables) :
    parseOptionR t arg = (do
      let t' ← addRoute t (spelledAddr gs last) (atoi c).toUInt32.toUInt8 (spelledMac ms mlast)
        (UInt8.ofNat (digitsVal 10 p))
      pure (true, t', arg)) := by
  set A := terminated '.' gs ++ last with hA
  set M := colonTerminated ms ++ mlast with hM
  have hAf : ∀ ch ∈ A, ch ≠ '/' ∧ ch ≠ '\x00' := fun ch hch =>
    ⟨h.addr.ne_of_mem (by decide) (by decide) ch hch, h.addr.ne_of_mem (by decide) (by decide) ch hch⟩
  have hMf : ∀ ch ∈ M, ch ≠ ',' ∧ ch ≠ '\x00' := fun ch hch =>
    ⟨h.mac.ne_of_mem (by decide) (by decide) ch hch, h.mac.ne_of_mem (by decide) (by decide) ch hch⟩
  have hpf : ∀ ch ∈ p, ch ≠ '\x00' := fun ch hch h' => absurd (h' ▸ h.port_digits ch hch) (by decide)
  have h₁ : arg = A ++ '/' :: (c ++ ',' :: (M ++ ',' :: (p ++ rest))) := by
    rw [harg, routeArg]
    simp [hA, hM]
  have h₂ : arg = (A ++ ['/']) ++ c ++ ',' :: (M ++ ',' :: (p ++ rest)) := by simp [h₁]
  have h₃ : arg = (A ++ '/' :: (c ++ [','])) ++ M ++ ',' :: (p ++ rest) := by simp [h₁]
  have hl₂ : A.length + 1 = (A ++ ['/']).length := by simp
  have hl₃ : A.length + 1 + c.length + 1 = (A ++ '/' :: (c ++ [','])).length := by simp; omega
  have hnul : ∀ r : List Char, ∀ ch ∈ ('\x00' :: r).head?, ch = '\x00' := by simp
  have f₁ : indexOfFirstChar arg '/' ipv4MaxAddrLen = A.length := by
    have h' := scan_field hAf h.addr.length_le [] (c ++ ',' :: (M ++ ',' :: (p ++ rest)))
    rwa [List.nil_append, ← h₁, List.length_nil, List.drop_zero] at h'
  have f₂ : arg.set A.length '\x00' = A ++ '\x00' :: (c ++ ',' :: (M ++ ',' :: (p ++ rest))) := by
    rw [h₁, set_field]
  have f₃ : ipv4AddrFromStr (A ++ '\x00' :: (c ++ ',' :: (M ++ ',' :: (p ++ rest)))) 0 =
      (0, A ++ '\x00' :: (c ++ ',' :: (M ++ ',' :: (p ++ rest))), spelledAddr gs last) :=
    ipv4AddrFromStr_spelled ⟨h.addr.length, h.addr.groups, h.addr.lastGroup, hnul _⟩ 0
  have f₄ : (A ++ '\x00' :: (c ++ ',' :: (M ++ ',' :: (p ++ rest)))).set A.length '/' = arg := by
    rw [set_field, h₁]
  have f₅ : indexOfFirstChar (arg.drop (A.length + 1)) ',' maxDecDigitLen = c.length := by
    have h' := scan_field h.cidr_field h.cidr_len (A ++ ['/']) (M ++ ',' :: (p ++ rest))
    rwa [← h₂, ← hl₂] at h'
  obtain ⟨f₆, f₇, -, f₈, -⟩ := cut_field h₂
  rw [← hl₂] at f₆ f₇ f₈
  have fa : atoi (c ++ '\x00' :: (M ++ ',' :: (p ++ rest))) = atoi c := atoi_append_nul (hnul _) c
  have f₉ : (decide (atoi c ≥ ipv4MinCidrVal) && decide (atoi c ≤ ipv4MaxCidrVal)) = true := by
    simp only [ge_iff_le, h.cidr_range.1, h.cidr_range.2, decide_true, Bool.and_self]
  have f₁₀ : indexOfFirstChar (arg.drop (A.length + 1 + c.length + 1)) ',' macAddrLen = M.length := by
    have h' := scan_field hMf h.mac.length_le (A ++ '/' :: (c ++ [','])) (p ++ rest)
    rwa [← h₃, ← hl₃] at h'
  obtain ⟨f₁₁, f₁₂, f₁₃, -, f₁₆⟩ := cut_field h₃
  rw [← hl₃] at f₁₁ f₁₂ f₁₃ f₁₆
  have f₁₄ : macAddrFromStr (M ++ '\x00' :: (p ++ rest)) EtherAddr.zero =
      (0, M ++ '\x00' :: (p ++ rest), spelledMac ms mlast) :=
    macAddrFromStr_spelled ⟨h.mac.length, h.mac.groups, h.mac.lastGroup, h.mac.last_len, hnul _⟩ EtherAddr.zero
  have f₁₅ : ((A ++ '/' :: (c ++ [','])) ++ (M ++ '\x00' :: (p ++ rest))).set
      (A.length + 1 + c.length + 1 + M.length) ',' = arg := by
    rw [← List.append_assoc, hl₃, set_append_run, ← h₃]
  have f₁₇ : ¬ strlen (p ++ rest) ≥ maxDecDigitLen := by
    rw [strlen_append hpf hrest]
    exact Nat.not_le.mpr h.port_len
  have f₁₈ := areAllCharDecimal_digits hrest p h.port_digits
  have f₁₉ : atoi (p ++ rest) = Int32.ofInt (digitsVal 10 p) :=
    atoi_digits_ten h.port_digits (by have := h.port_len; simp only [maxDecDigitLen] at this; omega) hrest
  have f₂₀ : (decide (Int32.ofInt (digitsVal 10 p : Int) ≥ dpdkMinInterfaceVal) &&
      decide (Int32.ofInt (digitsVal 10 p : Int) ≤ dpdkMaxInterfaceVal)) = true := by
    have hr := (ofInt_nat_byte_iff (digitsVal 10 p)).mpr (by have := h.port_le; omega)
    simp only [ge_iff_le, Bool.and_eq_true, decide_eq_true_eq]
    exact ⟨hr.1, hr.2⟩
  have h01 : ¬ ((0 : Int) = -1) := by decide
  have hA1 : ¬ ((A.length : Int) = -1) := by omega
  have hc1 : ¬ ((c.length : Int) = -1) := by omega
  have hM1 : ¬ ((M.length : Int) = -1) := by omega
  unfold parseOptionR
  simp only [List.drop_zero, List.take_zero, List.nil_append, zero_add, f₁, hA1, if_false, Int.toNat_natCast,
    f₂, f₃, f₄, f₅, hc1, f₆, f₇, f₈, h01, fa, f₉, f₁₀, hM1, f₁₁, f₁₂, f₁₃, f₁₄, f₁₅, f₁₆, f₁₇, f₁₈, f₁₉, f₂₀,
    toUInt8_toUInt32_ofInt_nat, Bool.not_true, Bool.false_eq_true]

theorem parseOptionR_cases (t : Tables) (arg : List Char) :
    (∃ out, parseOptionR t arg = .ok (false, t, out) ∧ NulOverSep ['.', ':'] arg out) ∨
      ∃ gs last c ms mlast p rest, RouteOption gs last c ms mlast p ∧ (∀ ch ∈ rest.head?, ch = '\x00') ∧
        arg = routeArg gs last c ms mlast p ++ rest := by
  have hnul : ∀ r : List Char, ∀ ch ∈ ('\x00' :: r).head?, ch = '\x00' := by simp
  have h01 : ¬ ((0 : Int) = -1) := by decide
  unfold parseOptionR
  simp only [List.drop_zero, List.take_zero, List.nil_append, zero_add]
  rcases @scan_cases '/' (by decide) ipv4MaxAddrLen arg with hnone | ⟨A, R₁, h₁, hAf, hAlen, hoff⟩
  · rw [if_pos hnone]
    exact .inl ⟨_, rfl, NulOverSep.refl _ _⟩
  have hA1 : ¬ ((A.length : Int) = -1) := by omega
  have s₁ : arg.set A.length '\x00' = A ++ '\x00' :: R₁ := by rw [h₁, set_field]
  simp only [hoff, hA1, if_false, Int.toNat_natCast, s₁]
  rcases ipv4AddrFromStr_fst (A ++ '\x00' :: R₁) 0 with hip | hip
  swap
  · rw [if_pos hip]
    have hcall : NulOverSep ['.'] ([] ++ A ++ '/' :: R₁)
        (([] ++ (ipv4AddrFromStr (A ++ '\x00' :: R₁) 0).2.1).set ([].length + A.length) '/') :=
      NulOverSep.call (by decide) (ipv4AddrFromStr_frame _ 0).1
    simp only [List.nil_append, List.length_nil, zero_add, ← h₁] at hcall
    exact .inl ⟨_, rfl, hcall.mono (by simp)⟩
  obtain ⟨gs, last, rest₀, hsp, hA⟩ := spelled_of_ipv4AddrFromStr hip
  have hAn : ∀ ch ∈ terminated '.' gs ++ last, ch ≠ '\x00' := hsp.ne_of_mem (by decide) (by decide)
  obtain ⟨rfl, rfl⟩ := cstr_unique (fun ch hch => (hAf ch hch).2) hAn (hnul R₁) hsp.ends hA
  have b₁ : (terminated '.' gs ++ last ++ '\x00' :: R₁).set (terminated '.' gs ++ last).length '/' = arg := by
    rw [set_field, h₁]
  simp only [ipv4AddrFromStr_spelled hsp 0, h01, if_false, b₁]
  set A := terminated '.' gs ++ last with hAdef
  have d₁ : arg.drop (A.length + 1) = R₁ := by rw [h₁]; simp
  simp only [d₁]
  rcases @scan_cases ',' (by decide) maxDecDigitLen R₁ with hnone | ⟨c, R₂, rfl, hcf, hclen, hoff₂⟩
  · rw [if_pos hnone]
    exact .inl ⟨_, rfl, NulOverSep.refl _ _⟩
  have h₂ : arg = (A ++ ['/']) ++ c ++ ',' :: R₂ := by simp [h₁]
  have hl₂ : A.length + 1 = (A ++ ['/']).length := by simp
  have hc1 : ¬ ((c.length : Int) = -1) := by omega
  obtain ⟨s₂, d₂, -, b₂, d₂'⟩ := cut_field h₂
  rw [← hl₂] at s₂ d₂ b₂ d₂'
  simp only [hoff₂, hc1, if_false, Int.toNat_natCast, s₂, d₂, atoi_append_nul (hnul R₂) c, b₂]
  cases hcr : (decide (atoi c ≥ ipv4MinCidrVal) && decide (atoi c ≤ ipv4MaxCidrVal)) with
  | false =>
    simp only [Bool.not_false, if_true]
    exact .inl ⟨_, rfl, NulOverSep.refl _ _⟩
  | true =>
  simp only [Bool.not_true, Bool.false_eq_true, if_false]
  have hl₃ : A.length + 1 + c.length + 1 = (A ++ '/' :: (c ++ [','])).length := by simp; omega
  simp only [d₂']
  rcases @scan_cases ',' (by decide) macAddrLen R₂ with hnone | ⟨m, R₃, rfl, hmf, hmlen, hoff₃⟩
  · rw [if_pos hnone]
    exact .inl ⟨_, rfl, NulOverSep.refl _ _⟩
  have h₃ : arg = (A ++ '/' :: (c ++ [','])) ++ m ++ ',' :: R₃ := by simp [h₁]
  have hm1 : ¬ ((m.length : Int) = -1) := by omega
  obtain ⟨s₃, d₃, t₃, -, d₃'⟩ := cut_field h₃
  rw [← hl₃] at s₃ d₃ t₃ d₃'
  simp only [hoff₃, hm1, if_false, Int.toNat_natCast, s₃, d₃, t₃]
  rcases macAddrFromStr_fst (m ++ '\x00' :: R₃) EtherAddr.zero with hmp | hmp
  swap
  · rw [if_pos hmp]
    have hcall : NulOverSep [':'] ((A ++ '/' :: (c ++ [','])) ++ m ++ ',' :: R₃)
        (((A ++ '/' :: (c ++ [','])) ++ (macAddrFromStr (m ++ '\x00' :: R₃) EtherAddr.zero).2.1).set
          ((A ++ '/' :: (c ++ [','])).length + m.length) ',') :=
      NulOverSep.call (by decide) (macAddrFromStr_frame _ _).1
    rw [← h₃, ← hl₃] at hcall
    exact .inl ⟨_, rfl, hcall.mono (by simp)⟩
  obtain ⟨ms, mlast, rest₁, hms, hm⟩ := spelled_of_macAddrFromStr hmp
  have hmn : ∀ ch ∈ colonTerminated ms ++ mlast, ch ≠ '\x00' := hms.ne_of_mem (by decide) (by decide)
  obtain ⟨rfl, rfl⟩ := cstr_unique (fun ch hch => (hmf ch hch).2) hmn (hnul R₃) hms.ends hm
  have b₃ : ((A ++ '/' :: (c ++ [','])) ++ (colonTerminated ms ++ mlast ++ '\x00' :: R₃)).set
      (A.length + 1 + c.length + 1 + (colonTerminated ms ++ mlast).length) ',' = arg := by
    rw [← List.append_assoc, hl₃, set_append_run, ← h₃]
  simp only [macAddrFromStr_spelled hms EtherAddr.zero, h01, if_false, b₃]
  simp only [d₃']
  obtain ⟨p, rest, rfl, hpn, hrest⟩ := exists_cstr R₃
  by_cases hpl : strlen (p ++ rest) ≥ maxDecDigitLen
  · rw [if_pos hpl]
    exact .inl ⟨_, rfl, NulOverSep.refl _ _⟩
  rw [if_neg hpl, areAllCharDecimal_append hrest hpn]
  rw [strlen_append hpn hrest] at hpl
  cases hpd : p.all (·.isDigit) with
  | false =>
    simp only [Bool.not_false, if_true]
    exact .inl ⟨_, rfl, NulOverSep.refl _ _⟩
  | true =>
  have hpdig := List.all_eq_true.mp hpd
  have hlt : digitsVal 10 p < 10 ^ 9 :=
    calc digitsVal 10 p < 10 ^ p.length := digitsVal_lt_pow (fun c hc => digitValue_lt_ten_iff.mpr (hpdig c hc))
      _ ≤ 10 ^ 9 := Nat.pow_le_pow_right (by decide) (by simp only [maxDecDigitLen] at hpl; omega)
  simp only [Bool.not_true, Bool.false_eq_true, if_false,
    atoi_digits_ten hpdig (by simp only [maxDecDigitLen] at hpl; omega) hrest]
  cases hpr : (decide (Int32.ofInt (digitsVal 10 p : Int) ≥ dpdkMinInterfaceVal) &&
      decide (Int32.ofInt (digitsVal 10 p : Int) ≤ dpdkMaxInterfaceVal)) with
  | false =>
    simp only [Bool.not_false, if_true]
    exact .inl ⟨_, rfl, NulOverSep.refl _ _⟩
  | true =>
  rw [Bool.and_eq_true, decide_eq_true_eq, decide_eq_true_eq] at hpr hcr
  have hpv := (ofInt_nat_byte_iff (digitsVal 10 p)).mp ⟨hpr.1, hpr.2⟩
  refine .inr ⟨gs, last, c, ms, mlast, p, rest,
    ⟨⟨hsp.length, hsp.groups, hsp.lastGroup, by simp⟩, hclen, hcf, ⟨hcr.1, hcr.2⟩,
      ⟨hms.length, hms.groups, hms.lastGroup, hms.last_len, by simp⟩, by omega, hpdig, by omega⟩,
    hrest, ?_⟩
  rw [h₃, routeArg, hAdef]
  simp

/-- `parse_option_r` on an argument `a/c,m,p` of that form adds one route,
with the values its fields spell, and returns `true` with the buffer as it
was; on any other argument it returns `false` and leaves the table as it
was. -/
theorem parseOptionR_spec (t : Tables) (arg : List Char) :
    (∀ gs last c ms mlast p rest, RouteOption gs last c ms mlast p → (∀ ch ∈ rest.head?, ch = '\x00') →
      arg = routeArg gs last c ms mlast p ++ rest →
      parseOptionR t arg = (do
        let t' ← addRoute t (spelledAddr gs last) (atoi c).toUInt32.toUInt8 (spelledMac ms mlast)
          (UInt8.ofNat (digitsVal 10 p))
        pure (true, t', arg))) ∧
    ((¬ ∃ gs last c ms mlast p rest, RouteOption gs last c ms mlast p ∧ (∀ ch ∈ rest.head?, ch = '\x00') ∧
        arg = routeArg gs last c ms mlast p ++ rest) →
      ∃ out, parseOptionR t arg = .ok (false, t, out)) := by
  refine ⟨fun gs last c ms mlast p rest h hrest harg => parseOptionR_accepts h hrest harg t, fun hnot => ?_⟩
  rcases parseOptionR_cases t arg with ⟨out, hfalse, -⟩ | hroute
  · exact ⟨out, hfalse⟩
  · exact absurd hroute hnot

theorem ipv4Spelling_one_two_three_four : Ipv4Spelling [['1'], ['2'], ['3']] ['4'] [] := by
  refine ⟨rfl, fun g hg => ?_, ⟨by decide, List.all_eq_true.mp (by decide), by decide⟩, by simp⟩
  simp only [List.mem_cons, List.not_mem_nil, or_false] at hg
  rcases hg with rfl | rfl | rfl <;> exact ⟨by decide, List.all_eq_true.mp (by decide), by decide⟩

/-- An empty prefix length is read as 0, and a ten-digit interface id is
read modulo 2^32: `-r 1.2.3.4/,00:00:00:00:00:00,1` adds the route
`1.2.3.4/0`, and `-p 4294967296,1.2.3.4` configures interface 0. -/
theorem parseOption_empty_cidr_wrapped_id (t : Tables) (portMac : UInt16 → EtherAddr) :
    parseOptionR t "1.2.3.4/,00:00:00:00:00:00,1".toList = (do
        let t' ← addRoute t 0x01020304 0 EtherAddr.zero 1
        pure (true, t', "1.2.3.4/,00:00:00:00:00:00,1".toList)) ∧
      parseOptionP portMac "4294967296,1.2.3.4".toList =
        (some ⟨0, 0x01020304, portMac 0⟩, "4294967296,1.2.3.4".toList) := by
  have hmac : MacSpelling (List.replicate 5 ['0', '0']) ['0', '0'] [] :=
    ⟨rfl, fun g hg => List.eq_of_mem_replicate hg ▸ ⟨by decide, List.all_eq_true.mp (by decide)⟩,
      ⟨by decide, List.all_eq_true.mp (by decide)⟩, rfl, by simp⟩
  have hroute : RouteOption [['1'], ['2'], ['3']] ['4'] [] (List.replicate 5 ['0', '0']) ['0', '0'] ['1'] :=
    ⟨ipv4Spelling_one_two_three_four, by decide, by simp, by decide, hmac, by decide,
      List.all_eq_true.mp (by decide), by decide⟩
  have hid : InterfaceOption "4294967296".toList [['1'], ['2'], ['3']] ['4'] [] :=
    ⟨by decide, List.all_eq_true.mp (by decide), by decide, ipv4Spelling_one_two_three_four⟩
  constructor
  · rw [parseOptionR_accepts hroute (by simp) (show _ = routeArg _ _ _ _ _ _ ++ [] by decide) t]
    rfl
  · rw [show "4294967296,1.2.3.4".toList = "4294967296".toList ++ ',' :: (terminated '.' [['1'], ['2'], ['3']] ++ ['4'] ++ [])
      by decide, parseOptionP_accepts hid portMac]
    rfl

/-! What the parsers leave in their argument. -/

/-- The buffer `parse_option_p` leaves: its argument, or its argument with
the comma after the id or one dot of the address overwritten by NUL; its
argument whenever it returns a configuration. -/
theorem parseOptionP_frame (portMac : UInt16 → EtherAddr) (arg : List Char) :
    NulOverSep [',', '.'] arg (parseOptionP portMac arg).2 ∧
      ((parseOptionP portMac arg).1.isSome → (parseOptionP portMac arg).2 = arg) := by
  rcases parseOptionP_cases portMac arg with ⟨out, hnone, hf⟩ | ⟨p, gs, last, rest, h, rfl⟩
  · rw [hnone]
    exact ⟨hf, fun h => absurd h (by simp)⟩
  · rw [parseOptionP_accepts h portMac]
    exact ⟨NulOverSep.refl _ _, fun _ => rfl⟩

/-- The buffer `parse_option_r` leaves: its argument, or its argument with
one dot of the address or one colon of the MAC address overwritten by NUL;
its argument whenever it returns `true`. -/
theorem parseOptionR_frame {t t' : Tables} {arg out : List Char} {b : Bool}
    (h : parseOptionR t arg = .ok (b, t', out)) :
    NulOverSep ['.', ':'] arg out ∧ (b = true → out = arg) := by
  rcases parseOptionR_cases t arg with ⟨out', hfalse, hf⟩ | ⟨gs, last, c, ms, mlast, p, rest, hr, hrest, harg⟩
  · rw [hfalse, Except.ok.injEq, Prod.mk.injEq, Prod.mk.injEq] at h
    obtain ⟨rfl, -, rfl⟩ := h
    exact ⟨hf, fun h => absurd h (by decide)⟩
  · rw [parseOptionR_accepts hr hrest harg t] at h
    obtain ⟨t'', -, hpure⟩ := bind_eq_ok h
    have hok : Except.ok (true, t'', arg) = Except.ok (b, t', out) := hpure
    cases hok
    exact ⟨NulOverSep.refl _ _, fun _ => rfl⟩

/-- A field refused on a character check keeps the NUL written over the
separator after it, in each of the four parsers: a group `1x` of an
address, a group `0g` of a MAC address, an interface id `1x` of `-p`, and
the address `1x.2.3.4` of a `-r` route. -/
theorem parsers_leave_nul (portMac : UInt16 → EtherAddr) (t : Tables) :
    ipv4AddrFromStr "1x.2.3.4".toList 0 = (-1, "1x\x002.3.4".toList, 0) ∧
      macAddrFromStr "0g:00:00:00:00:00".toList EtherAddr.zero =
        (-1, "0g\x0000:00:00:00:00".toList, EtherAddr.zero) ∧
      (parseOptionP portMac "1x,1.2.3.4".toList).2 = "1x\x001.2.3.4".toList ∧
      parseOptionR t "1x.2.3.4/24,00:00:00:00:00:00,1".toList =
        .ok (false, t, "1x\x002.3.4/24,00:00:00:00:00:00,1".toList) :=
  ⟨by decide, by decide, rfl, rfl⟩

end DpdkRouter.Router
