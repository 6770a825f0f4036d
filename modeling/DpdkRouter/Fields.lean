import DpdkRouter.Loop

/-!
Loops that read a buffer as fields, each ended by a separator. An iteration
at offset `pre.length` reads one field `g` followed by the separator, moves
past it and updates an accumulator, or else fails. The loop over `n`
iterations then succeeds exactly on `n` such fields, and ends past them with
the accumulator folded over them (`forRange_fields_eq_ok`).
-/

namespace ForLoop

variable {α : Type*}

/-- Fields each followed by `sep`. -/
def terminated (sep : α) (gs : List (List α)) : List α := (gs.map (· ++ [sep])).flatten

@[simp] theorem terminated_nil (sep : α) : terminated sep [] = [] := rfl

@[simp] theorem terminated_cons (sep : α) (g : List α) (gs : List (List α)) :
    terminated sep (g :: gs) = g ++ sep :: terminated sep gs := by
  simp [terminated]

theorem mem_terminated {sep c : α} {gs : List (List α)} (h : c ∈ terminated sep gs) :
    c = sep ∨ ∃ g ∈ gs, c ∈ g := by
  induction gs with
  | nil => simp at h
  | cons g gs ih =>
    rw [terminated_cons, List.mem_append, List.mem_cons] at h
    rcases h with h | h | h
    · exact .inr ⟨g, by simp, h⟩
    · exact .inl h
    · rcases ih h with h | ⟨g', hg', h⟩
      · exact .inl h
      · exact .inr ⟨g', by simp [hg'], h⟩

theorem length_terminated_le {sep : α} {m : ℕ} :
    ∀ {gs : List (List α)}, (∀ g ∈ gs, g.length ≤ m) → (terminated sep gs).length ≤ gs.length * (m + 1)
  | [], _ => by simp
  | g :: gs, h => by
    have hg := h g (by simp)
    have hgs : (terminated sep gs).length ≤ gs.length * (m + 1) :=
      length_terminated_le (fun g' hg' => h g' (List.mem_cons_of_mem g hg'))
    simp only [terminated_cons, List.length_append, List.length_cons]
    rw [Nat.add_mul, Nat.one_mul]
    omega

/-- Two runs free of `c`, each ended by `c`, are the same run. -/
theorem eq_of_append_cons_eq {c : α} :
    ∀ {g g' post post' : List α}, g ++ c :: post = g' ++ c :: post' → c ∉ g → c ∉ g' →
      g = g' ∧ post = post'
  | [], [], _, _, h, _, _ => ⟨rfl, (List.cons.inj h).2⟩
  | [], d :: _, _, _, h, _, hg' => absurd (List.mem_cons.mpr (.inl (List.cons.inj h).1)) hg'
  | d :: _, [], _, _, h, hg, _ => absurd (List.mem_cons.mpr (.inl (List.cons.inj h).1.symm)) hg
  | d :: g, d' :: g', _, _, h, hg, hg' => by
    simp only [List.cons_append, List.cons.injEq] at h
    obtain ⟨rfl, h⟩ := h
    have hg₁ : c ∉ g := fun hc => hg (List.mem_cons_of_mem d hc)
    have hg₁' : c ∉ g' := fun hc => hg' (List.mem_cons_of_mem d hc)
    obtain ⟨rfl, rfl⟩ := eq_of_append_cons_eq h hg₁ hg₁'
    exact ⟨rfl, rfl⟩

/-- The accumulator after the fields `gs`, read from iteration `lo` on. -/
def foldFields {A : Type*} (upd : ℕ → List α → A → A) : ℕ → List (List α) → A → A
  | _, [], a => a
  | lo, g :: gs, a => foldFields upd (lo + 1) gs (upd lo g a)

section FieldLoop

variable {σ ε A : Type*} {body : ℕ → σ → Except ε σ} (mk : List α → ℕ → A → σ) {sep : α}
  {G : List α → Prop} (upd : ℕ → List α → A → A) {K : ℕ}

/-- The fields a loop can read first: a field `g` of `G` followed by `sep`. -/
theorem first_field_unique (hG : ∀ g, G g → sep ∉ g) {g g' post post' : List α}
    (h : g ++ sep :: post = g' ++ sep :: post') (hg : G g) (hg' : G g') : g = g' ∧ post = post' :=
  eq_of_append_cons_eq h (hG g hg) (hG g' hg')

/-- The loop over `n` iterations from `lo`, at offset `pre.length`: it
succeeds exactly on `n` fields of `G` each followed by `sep`, and then
stands past them with the accumulator folded over them. `hok` is the
iteration at a field of `G`, and `hfail` says an iteration succeeds only
there. -/
theorem forRange_fields_eq_ok (hG : ∀ g, G g → sep ∉ g)
    (hok : ∀ k pre g post a, k < K → G g →
      body k (mk (pre ++ g ++ sep :: post) pre.length a) =
        .ok (mk (pre ++ g ++ sep :: post) (pre.length + g.length + 1) (upd k g a)))
    (hfail : ∀ k pre rest a s, k < K → body k (mk (pre ++ rest) pre.length a) = .ok s →
      ∃ g post, rest = g ++ sep :: post ∧ G g) :
    ∀ (n lo : ℕ) (pre rest : List α) (a : A) (st : σ), lo + n ≤ K →
      (forRange body lo n (mk (pre ++ rest) pre.length a) = .ok st ↔
        ∃ gs post, gs.length = n ∧ (∀ g ∈ gs, G g) ∧ rest = terminated sep gs ++ post ∧
          st = mk (pre ++ rest) (pre.length + (terminated sep gs).length) (foldFields upd lo gs a))
  | 0, lo, pre, rest, a, st, _ => by
    constructor
    · intro h
      cases h
      exact ⟨[], rest, rfl, by simp, by simp, by simp [foldFields]⟩
    · rintro ⟨gs, post, hlen, -, -, rfl⟩
      rw [List.length_eq_zero_iff.mp hlen]
      simp [foldFields]
  | n + 1, lo, pre, rest, a, st, hK => by
    by_cases hfirst : ∃ g post, rest = g ++ sep :: post ∧ G g
    · obtain ⟨g, post, rfl, hg⟩ := hfirst
      -- the first iteration reads `g`; the rest of the loop starts past its separator
      have hstep := hok lo pre g post a (by omega) hg
      rw [← List.append_assoc, forRange_succ_of_ok hstep]
      have hsplit : pre ++ g ++ sep :: post = (pre ++ g ++ [sep]) ++ post := by simp
      have hidx : pre.length + g.length + 1 = (pre ++ g ++ [sep]).length := by
        simp only [List.length_append, List.length_singleton]
      rw [hsplit, hidx, forRange_fields_eq_ok hG hok hfail n (lo + 1) (pre ++ g ++ [sep]) post
        (upd lo g a) st (by omega)]
      constructor
      · rintro ⟨gs, post', hlen, hgs, rfl, rfl⟩
        refine ⟨g :: gs, post', by simp [hlen], ?_, by simp, ?_⟩
        · intro g' hg'
          rcases List.mem_cons.mp hg' with rfl | hg'
          · exact hg
          · exact hgs g' hg'
        · simp only [terminated_cons, foldFields, List.length_append, List.length_cons,
            List.length_nil]
          congr 1
          omega
      · rintro ⟨gs, post', hlen, hgs, hrest, rfl⟩
        obtain ⟨g', gs, rfl⟩ := List.exists_cons_of_length_eq_add_one hlen
        rw [terminated_cons, List.append_assoc] at hrest
        obtain ⟨rfl, rfl⟩ := first_field_unique hG hrest hg (hgs g' (by simp))
        refine ⟨gs, post', by simpa using hlen, fun g'' h'' => hgs g'' (by simp [h'']), rfl, ?_⟩
        simp only [terminated_cons, foldFields, List.length_append, List.length_cons,
          List.length_nil]
        congr 1
        omega
    · -- no field of `G` comes first: the first iteration fails, and no run of fields matches
      constructor
      · intro h
        obtain ⟨s₁, h₁, -⟩ := bind_eq_ok h
        exact absurd (hfail lo pre rest a s₁ (by omega) h₁) hfirst
      · rintro ⟨gs, post, hlen, hgs, hrest, -⟩
        obtain ⟨g, gs, rfl⟩ := List.exists_cons_of_length_eq_add_one hlen
        rw [terminated_cons, List.append_assoc] at hrest
        exact absurd ⟨g, _, hrest, hgs g (by simp)⟩ hfirst

end FieldLoop

end ForLoop
