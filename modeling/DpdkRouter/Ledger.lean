import Mathlib.Data.Finset.Basic

/-!
Heap blocks as a ledger. The allocator hands out fresh addresses and records
in order every block `malloc` returned and every block `free` gave back.
`replay` reads a ledger from a set of live blocks: it fails at an allocation
of a live block or at a `free` of a block that is not live (a double free,
or a block never allocated), and otherwise returns the blocks live at its
end. A run frees only live blocks, each once, and leaks none when its ledger
replays from no block to none.

`Tracks m l` says that the ledger of `m` replays to exactly the blocks of the
list `l`, which are distinct and below the next fresh address. A program's
invariant takes for `l` the blocks its objects own, in an order of its
choice (`Tracks.perm`), and the rules below say how `malloc`, `free` and
`realloc` change it.
-/

namespace Ledger

inductive MemEvent
  | malloc (b : ℕ)
  | free (b : ℕ)
  deriving DecidableEq, Repr

/-- The blocks live after the ledger `evs`, from the live blocks `live`. -/
def replay : Finset ℕ → List MemEvent → Option (Finset ℕ)
  | live, [] => some live
  | live, .malloc b :: evs => if b ∈ live then none else replay (insert b live) evs
  | live, .free b :: evs => if b ∈ live then replay (live.erase b) evs else none

/-- The allocator: the next fresh address and the ledger so far. -/
structure Mem where
  next : ℕ
  log : List MemEvent

def Mem.malloc (m : Mem) : ℕ × Mem := (m.next, ⟨m.next + 1, m.log ++ [.malloc m.next]⟩)

/-- `free(p)`; `free(NULL)` does nothing. -/
def Mem.free (m : Mem) : Option ℕ → Mem
  | none => m
  | some b => { m with log := m.log ++ [.free b] }

/-- glibc's `realloc(p, size)`: on `NULL` it is `malloc`; size 0 frees the
block and returns `NULL`; any other size moves the contents to a new block
and frees the old one. -/
def Mem.realloc (m : Mem) (p : Option ℕ) (size : ℕ) : Option ℕ × Mem :=
  match p with
  | none => (some m.malloc.1, m.malloc.2)
  | some b =>
    if size = 0 then (none, m.free (some b))
    else (some (m.free (some b)).malloc.1, (m.free (some b)).malloc.2)

/-- Frees the blocks `bs` in turn. -/
def Mem.freeAll (m : Mem) (bs : List ℕ) : Mem := bs.foldl (fun m b => m.free (some b)) m

theorem replay_append (live : Finset ℕ) (evs₁ evs₂ : List MemEvent) :
    replay live (evs₁ ++ evs₂) = (replay live evs₁).bind (replay · evs₂) := by
  induction evs₁ generalizing live with
  | nil => rfl
  | cons e evs ih =>
    cases e with
    | malloc b =>
      simp only [List.cons_append, replay]
      split
      · rfl
      · exact ih _
    | free b =>
      simp only [List.cons_append, replay]
      split
      · exact ih _
      · rfl

/-- `realloc` to a nonzero size always returns a block. -/
theorem Mem.realloc_isSome (m : Mem) (p : Option ℕ) {size : ℕ} (hsize : size ≠ 0) :
    (m.realloc p size).1.isSome := by
  cases p with
  | none => rfl
  | some b => simp [Mem.realloc, hsize]

/-- The ledger of `m` replays from no block to exactly the blocks of `l`,
which are distinct and below the next fresh address. -/
structure Tracks (m : Mem) (l : List ℕ) : Prop where
  replay_eq : replay ∅ m.log = some l.toFinset
  nodup : l.Nodup
  lt_next : ∀ b ∈ l, b < m.next

variable {m : Mem} {l l₁ l₂ : List ℕ}

theorem tracks_nil (n : ℕ) : Tracks ⟨n, []⟩ [] :=
  ⟨rfl, List.nodup_nil, fun _ h => absurd h List.not_mem_nil⟩

theorem Tracks.perm {l' : List ℕ} (h : Tracks m l) (hp : l.Perm l') : Tracks m l' :=
  ⟨by rw [h.replay_eq, List.toFinset_eq_of_perm l l' hp], hp.nodup_iff.mp h.nodup,
    fun b hb => h.lt_next b (hp.mem_iff.mpr hb)⟩

/-- The block `malloc` returns is not one already owned. -/
theorem Tracks.fresh (h : Tracks m l) : m.malloc.1 ∉ l := fun hmem => Nat.lt_irrefl _ (h.lt_next _ hmem)

/-- `malloc` adds a fresh block. -/
theorem Tracks.malloc (h : Tracks m l) : Tracks m.malloc.2 (l ++ [m.malloc.1]) := by
  have hfresh : m.next ∉ l := h.fresh
  refine ⟨?_, ?_, fun b hb => ?_⟩
  · show replay ∅ (m.log ++ [.malloc m.next]) = some (l ++ [m.next]).toFinset
    rw [replay_append, h.replay_eq, Option.bind_some, replay, if_neg (by simpa using hfresh)]
    show some _ = some _
    congr 1
    ext x
    rw [Finset.mem_insert, List.mem_toFinset, List.mem_toFinset, List.mem_append, List.mem_singleton]
    exact or_comm
  · refine List.nodup_append.mpr ⟨h.nodup, List.nodup_singleton _, fun a ha b hb heq => hfresh ?_⟩
    rw [List.mem_singleton.mp hb] at heq
    exact (show a = m.next from heq) ▸ ha
  · show b < m.next + 1
    rcases List.mem_append.mp hb with hb | hb
    · exact Nat.lt_succ_of_lt (h.lt_next b hb)
    · rw [List.mem_singleton.mp hb]
      exact Nat.lt_succ_self _

theorem Tracks.malloc_at (h : Tracks m (l₁ ++ l₂)) : Tracks m.malloc.2 (l₁ ++ m.malloc.1 :: l₂) :=
  h.malloc.perm ((List.perm_append_singleton _ _).trans List.perm_middle.symm)

/-- `free` of an owned block, or of `NULL`, drops it. -/
theorem Tracks.free {p : Option ℕ} (h : Tracks m (l₁ ++ p.toList ++ l₂)) : Tracks (m.free p) (l₁ ++ l₂) := by
  cases p with
  | none => simpa [Mem.free] using h
  | some b =>
    change Tracks m (l₁ ++ [b] ++ l₂) at h
    have hp : (l₁ ++ [b] ++ l₂).Perm (b :: (l₁ ++ l₂)) := by
      rw [List.append_assoc, List.singleton_append]
      exact List.perm_middle
    have hnd : (b :: (l₁ ++ l₂)).Nodup := hp.nodup_iff.mp h.nodup
    have hb : b ∉ (l₁ ++ l₂).toFinset := by simpa using (List.nodup_cons.mp hnd).1
    refine ⟨?_, (List.nodup_cons.mp hnd).2, fun a ha => h.lt_next a (hp.mem_iff.mpr (List.mem_cons_of_mem b ha))⟩
    show replay ∅ (m.log ++ [.free b]) = _
    rw [replay_append, h.replay_eq, Option.bind_some, List.toFinset_eq_of_perm _ _ hp, List.toFinset_cons,
      replay, if_pos (Finset.mem_insert_self b _), Finset.erase_insert hb]
    rfl

/-- `free` of owned blocks one after another drops them. -/
theorem Tracks.freeAll {bs : List ℕ} (h : Tracks m (bs ++ l)) : Tracks (m.freeAll bs) l := by
  induction bs generalizing m with
  | nil => simpa [Mem.freeAll] using h
  | cons b bs ih =>
    have h' : Tracks (m.free (some b)) ([] ++ (bs ++ l)) :=
      Tracks.free (show Tracks m ([] ++ (some b).toList ++ (bs ++ l)) by simpa using h)
    exact ih (by simpa using h')

/-- `realloc` to a nonzero size replaces an owned block, or `NULL`, by a
fresh one. -/
theorem Tracks.realloc {p : Option ℕ} {size : ℕ} (h : Tracks m (l₁ ++ p.toList ++ l₂)) (hsize : size ≠ 0) :
    ∃ b, (m.realloc p size).1 = some b ∧ Tracks (m.realloc p size).2 (l₁ ++ b :: l₂) := by
  cases p with
  | none => exact ⟨_, rfl, (show Tracks m (l₁ ++ l₂) by simpa using h).malloc_at⟩
  | some b =>
    refine ⟨(m.free (some b)).malloc.1, by simp [Mem.realloc, hsize], ?_⟩
    simp only [Mem.realloc, if_neg hsize]
    exact h.free.malloc_at

end Ledger
