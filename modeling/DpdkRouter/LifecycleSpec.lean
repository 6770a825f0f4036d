import DpdkRouter.Lifecycle

/-!
`main` frees every block it allocates, once. `Statics.owned` lists the
blocks the statics own: the blocks of `int_confs` and `thr_confs`, the
interface and thread configurations in them, and the block of each thread's
list; the interface configurations in the threads' lists are shared with
`int_confs` and not owned again. `Inv` says the ledger replays to exactly
these blocks, each once (`Tracks`), and each function of the lifecycle
keeps it. `router_finalize` then frees every owned block, so a run of `main`
ends with a ledger that replays from no block to none.
-/

namespace DpdkRouter.Lifecycle

open Ledger RoutingTable ForLoop

/-! Lists of addresses. -/

/-- A list with a `NULL` block is empty and has no room. -/
def PointerList.NullEmpty (self : PointerList) : Prop := self.list = none → self.elems = [] ∧ self.cap = 0

theorem nullEmpty_null : PointerList.null.NullEmpty := fun _ => ⟨rfl, rfl⟩

section Lists

variable {self self' : PointerList} {m m' : Mem} {pre post : List ℕ}

theorem pointerListRealloc_eq_ok {newCap : UInt32} (h : pointerListRealloc self newCap m = .ok (self', m')) :
    ∃ b, m.realloc self.list (newCap.toNat * genericPtrSize) = (some b, m') ∧
      self' = { self with list := some b, cap := newCap } := by
  unfold pointerListRealloc at h
  split at h
  · rename_i b m₁ hre
    cases h
    exact ⟨b, hre, rfl⟩
  · cases h

theorem pointerListExpand_eq_ok (h : pointerListExpand self m = .ok (self', m')) :
    ∃ newCap : UInt32, newCap.toNat ≠ 0 ∧ pointerListRealloc self newCap m = .ok (self', m') := by
  unfold pointerListExpand at h
  dsimp only at h
  split at h
  · cases h
  · rename_i hgrow
    refine ⟨_, fun h0 => hgrow ?_, h⟩
    rw [UInt32.le_iff_toNat_le, h0]
    exact Nat.zero_le _

theorem pointerListAppend_elems {ptr : ℕ} (h : pointerListAppend self ptr m = .ok (self', m')) :
    self'.elems = self.elems ++ [ptr] := by
  unfold pointerListAppend at h
  dsimp only at h
  split at h
  · obtain ⟨⟨self₁, m₁⟩, h₁, h₂⟩ := bind_eq_ok h
    cases h₂
    obtain ⟨newCap, -, hre⟩ := pointerListExpand_eq_ok h₁
    obtain ⟨b, -, rfl⟩ := pointerListRealloc_eq_ok hre
    rfl
  · cases h
    rfl

theorem pointerListAppend_spec {ptr : ℕ} (h : pointerListAppend self ptr m = .ok (self', m'))
    (ht : Tracks m (pre ++ self.list.toList ++ post)) :
    Tracks m' (pre ++ self'.list.toList ++ post) ∧ (self.NullEmpty → self'.list ≠ none) := by
  unfold pointerListAppend at h
  dsimp only at h
  split at h
  · obtain ⟨⟨self₁, m₁⟩, h₁, h₂⟩ := bind_eq_ok h
    cases h₂
    obtain ⟨newCap, hcap, hre⟩ := pointerListExpand_eq_ok h₁
    obtain ⟨b, hmem, rfl⟩ := pointerListRealloc_eq_ok hre
    obtain ⟨b', hb', ht'⟩ := ht.realloc (Nat.mul_ne_zero hcap (show genericPtrSize ≠ 0 by decide))
    rw [hmem] at hb' ht'
    cases hb'
    exact ⟨by simpa using ht', fun _ => Option.some_ne_none b⟩
  · rename_i hroom
    cases h
    refine ⟨ht, fun hnull hnone => hroom ?_⟩
    rw [(hnull hnone).1, (hnull hnone).2]
    exact Nat.le_refl 0

theorem pointerListClear_mem (self : PointerList) (m : Mem) : (pointerListClear self m).2 = m.free self.list := by
  unfold pointerListClear
  split <;> simp_all [Mem.free]

theorem pointerListClear_null (hnull : self.NullEmpty) (m : Mem) : (pointerListClear self m).1 = .null := by
  unfold pointerListClear
  split
  · rename_i hnone
    obtain ⟨he, hc⟩ := hnull hnone
    cases self
    simp_all [PointerList.null]
  · rfl

theorem pointerListDeepClear_mem (self : PointerList) (m : Mem) :
    (pointerListDeepClear self m).2 = (m.freeAll self.elems).free self.list :=
  pointerListClear_mem self _

end Lists

/-! The blocks the statics own. -/

def listBlocks (thrConfAt : ℕ → ThreadConfigObj) (thrs : List ℕ) : List ℕ :=
  thrs.flatMap fun a => (thrConfAt a).intConfs.list.toList

/-- The blocks the statics own: the block of `int_confs` and the interface
configurations, the block of `thr_confs` and the thread configurations, and
the blocks of the threads' lists. -/
def Statics.owned (s : Statics) : List ℕ :=
  s.intConfs.list.toList ++ s.intConfs.elems ++ s.thrConfs.list.toList ++ s.thrConfs.elems ++
    listBlocks s.thrConfAt s.thrConfs.elems

/-- What every function of the lifecycle keeps: the ledger replays to the
owned blocks, each once; a `NULL` list is empty; and the threads' lists hold
only interface configurations of `int_confs`. -/
structure Inv (s : Statics) : Prop where
  tracks : Tracks s.mem s.owned
  intNull : s.intConfs.NullEmpty
  thrNull : s.thrConfs.NullEmpty
  shared : ∀ a ∈ s.thrConfs.elems, ∀ b ∈ (s.thrConfAt a).intConfs.elems, b ∈ s.intConfs.elems

theorem Inv.thrConfs_nodup {s : Statics} (hs : Inv s) : s.thrConfs.elems.Nodup :=
  ((List.nodup_append.mp hs.tracks.nodup).1 |> List.nodup_append.mp).2.1

theorem Inv.malloc_not_mem_intConfs {s : Statics} (hs : Inv s) : s.mem.malloc.1 ∉ s.intConfs.elems :=
  fun hmem => hs.tracks.fresh (by simp [Statics.owned, hmem])

theorem Inv.malloc_not_mem_thrConfs {s : Statics} (hs : Inv s) : s.mem.malloc.1 ∉ s.thrConfs.elems :=
  fun hmem => hs.tracks.fresh (by simp [Statics.owned, hmem])

theorem listBlocks_append (F : ℕ → ThreadConfigObj) (l₁ l₂ : List ℕ) :
    listBlocks F (l₁ ++ l₂) = listBlocks F l₁ ++ listBlocks F l₂ :=
  List.flatMap_append

theorem listBlocks_cons (F : ℕ → ThreadConfigObj) (a : ℕ) (l : List ℕ) :
    listBlocks F (a :: l) = (F a).intConfs.list.toList ++ listBlocks F l :=
  List.flatMap_cons

theorem listBlocks_update_of_not_mem {F : ℕ → ThreadConfigObj} {a : ℕ} (v : ThreadConfigObj)
    {thrs : List ℕ} (ha : a ∉ thrs) : listBlocks (Function.update F a v) thrs = listBlocks F thrs := by
  unfold listBlocks
  refine List.flatMap_congr fun x hx => ?_
  rw [Function.update_of_ne (fun hxa : x = a => ha (hxa ▸ hx))]

/-! `router_finalize`. -/

theorem clearThreadLists_spec : ∀ (thrs : List ℕ) (F : ℕ → ThreadConfigObj) (m : Mem) {rest : List ℕ},
    thrs.Nodup → Tracks m (listBlocks F thrs ++ rest) → Tracks (clearThreadLists F m thrs).2 rest
  | [], _, _, _, _, h => by simpa [listBlocks, clearThreadLists] using h
  | a :: thrs, F, m, rest, hnd, h => by
    obtain ⟨ha, hnd'⟩ := List.nodup_cons.mp hnd
    have h' : Tracks (pointerListClear (F a).intConfs m).2 (listBlocks F thrs ++ rest) := by
      have hsplit : Tracks m ([] ++ (F a).intConfs.list.toList ++ (listBlocks F thrs ++ rest)) := by
        simpa [listBlocks_cons] using h
      rw [pointerListClear_mem]
      simpa using hsplit.free
    have hrest := clearThreadLists_spec thrs
      (Function.update F a { F a with intConfs := (pointerListClear (F a).intConfs m).1 })
      (pointerListClear (F a).intConfs m).2 hnd' (by rwa [listBlocks_update_of_not_mem _ ha])
    exact hrest

/-- `router_finalize` frees every owned block and leaves both lists `NULL`. -/
theorem routerFinalize_spec {s : Statics} (hs : Inv s) :
    Tracks (routerFinalize s).mem [] ∧ (routerFinalize s).intConfs = .null ∧
      (routerFinalize s).thrConfs = .null := by
  have hperm : s.owned.Perm (s.intConfs.elems ++ ([] ++ s.intConfs.list.toList ++
      (listBlocks s.thrConfAt s.thrConfs.elems ++ (s.thrConfs.elems ++ ([] ++ s.thrConfs.list.toList ++ []))))) :=
    List.perm_iff_count.mpr fun x => by
      simp only [Statics.owned, List.count_append, List.count_nil]
      omega
  have h₁ := ((hs.tracks.perm hperm).freeAll).free
  rw [← pointerListDeepClear_mem] at h₁
  have h₂ := (clearThreadLists_spec _ _ _ hs.thrConfs_nodup h₁).freeAll.free
  rw [← pointerListDeepClear_mem] at h₂
  exact ⟨h₂, pointerListClear_null hs.intNull _, pointerListClear_null hs.thrNull _⟩

theorem routerFinalize_inv {s : Statics} (hs : Inv s) : Inv (routerFinalize s) := by
  obtain ⟨ht, hint, hthr⟩ := routerFinalize_spec hs
  refine ⟨?_, by rw [hint]; exact nullEmpty_null, by rw [hthr]; exact nullEmpty_null, ?_⟩
  · simpa [Statics.owned, hint, hthr, PointerList.null, listBlocks] using ht
  · intro a ha
    rw [hthr] at ha
    exact absurd ha List.not_mem_nil

/-! `router_init` and `parse_args`. -/

theorem routerInit_inv : Inv (routerInit .zero) :=
  ⟨(tracks_nil 0).malloc.malloc, fun h => absurd h (Option.some_ne_none _),
    fun h => absurd h (Option.some_ne_none _), fun _ ha => absurd ha List.not_mem_nil⟩

section Steps

variable {s : Statics}

theorem Inv.rejectIntConf (hs : Inv s) (c : Router.InterfaceConfig) :
    Inv { s with
      intConfAt := Function.update s.intConfAt s.mem.malloc.1 c
      mem := s.mem.malloc.2.free (some s.mem.malloc.1) } := by
  have ht : Tracks s.mem.malloc.2 (s.owned ++ (some s.mem.malloc.1).toList ++ []) := by
    simpa using hs.tracks.malloc
  exact ⟨by simpa [Statics.owned] using ht.free, hs.intNull, hs.thrNull, hs.shared⟩

theorem Inv.appendIntConf (hs : Inv s) (c : Router.InterfaceConfig) {intConfs' : PointerList} {m' : Mem}
    (h : pointerListAppend s.intConfs s.mem.malloc.1 s.mem.malloc.2 = .ok (intConfs', m')) :
    Inv { s with
      intConfAt := Function.update s.intConfAt s.mem.malloc.1 c
      intConfs := intConfs'
      mem := m' } := by
  set a := s.mem.malloc.1
  set rest := s.thrConfs.list.toList ++ s.thrConfs.elems ++ listBlocks s.thrConfAt s.thrConfs.elems
  have hperm : (s.owned ++ [a]).Perm ([] ++ s.intConfs.list.toList ++ (s.intConfs.elems ++ [a] ++ rest)) :=
    List.perm_iff_count.mpr fun x => by
      simp only [Statics.owned, rest, List.count_append, List.count_nil]
      omega
  obtain ⟨ht, hnn⟩ := pointerListAppend_spec h (hs.tracks.malloc.perm hperm)
  have helems := pointerListAppend_elems h
  refine ⟨?_, fun hnone => absurd hnone (hnn hs.intNull), hs.thrNull, fun a' ha' b hb => ?_⟩
  · simpa [Statics.owned, helems, rest, List.append_assoc] using ht
  · simp only [helems, List.mem_append]
    exact .inl (hs.shared a' ha' b hb)

theorem Inv.newThread (hs : Inv s) (workerCount qId : UInt16) {thrConfs' : PointerList} {m' : Mem}
    (h : pointerListAppend s.thrConfs s.mem.malloc.1 (pointerListInit s.mem.malloc.2).2 = .ok (thrConfs', m')) :
    Inv { s with
      thrConfAt := Function.update s.thrConfAt s.mem.malloc.1 ⟨(pointerListInit s.mem.malloc.2).1, workerCount, qId⟩
      thrConfs := thrConfs'
      mem := m' } := by
  set a := s.mem.malloc.1
  set l := s.mem.malloc.2.malloc.1
  set F' := Function.update s.thrConfAt a ⟨(pointerListInit s.mem.malloc.2).1, workerCount, qId⟩
  have hfresh : a ∉ s.thrConfs.elems := hs.malloc_not_mem_thrConfs
  have hblocks : listBlocks F' (s.thrConfs.elems ++ [a]) = listBlocks s.thrConfAt s.thrConfs.elems ++ [l] := by
    rw [listBlocks_append, listBlocks_update_of_not_mem _ hfresh]
    simp [listBlocks, F', pointerListInit, l]
  have hperm : (s.owned ++ [a] ++ [l]).Perm (s.intConfs.list.toList ++ s.intConfs.elems ++
      s.thrConfs.list.toList ++ (s.thrConfs.elems ++ [a] ++ (listBlocks s.thrConfAt s.thrConfs.elems ++ [l]))) :=
    List.perm_iff_count.mpr fun x => by
      simp only [Statics.owned, List.count_append]
      omega
  obtain ⟨ht, hnn⟩ := pointerListAppend_spec h (hs.tracks.malloc.malloc.perm hperm)
  have helems := pointerListAppend_elems h
  refine ⟨?_, hs.intNull, fun hnone => absurd hnone (hnn hs.thrNull), fun a' ha' b hb => ?_⟩
  · show Tracks m' (_ ++ _ ++ _ ++ thrConfs'.elems ++ listBlocks F' thrConfs'.elems)
    rw [helems, hblocks]
    simpa [List.append_assoc] using ht
  · rw [helems, List.mem_append, List.mem_singleton] at ha'
    by_cases haa : a' = a
    · simp [F', haa, pointerListInit] at hb
    · have hb' : b ∈ (s.thrConfAt a').intConfs.elems := by simpa [F', Function.update_of_ne haa] using hb
      exact hs.shared a' (ha'.resolve_right haa) b hb'

theorem Inv.deal (hs : Inv s) {a b : ℕ} (ha : a ∈ s.intConfs.elems) (hb : b ∈ s.thrConfs.elems)
    {l : PointerList} {m' : Mem} (h : pointerListAppend (s.thrConfAt b).intConfs a s.mem = .ok (l, m')) :
    Inv { s with
      thrConfAt := Function.update s.thrConfAt b { s.thrConfAt b with intConfs := l }
      mem := m' } := by
  obtain ⟨l₁, l₂, hsplit⟩ := List.append_of_mem hb
  have hnd := hs.thrConfs_nodup
  rw [hsplit] at hnd
  have hb₁ : b ∉ l₁ := fun hmem => (List.nodup_append.mp hnd).2.2 b hmem b (List.mem_cons_self) rfl
  have hb₂ : b ∉ l₂ := (List.nodup_cons.mp (List.nodup_append.mp hnd).2.1).1
  set F' := Function.update s.thrConfAt b { s.thrConfAt b with intConfs := l }
  set pre := s.intConfs.list.toList ++ s.intConfs.elems ++ s.thrConfs.list.toList ++ s.thrConfs.elems ++
    listBlocks s.thrConfAt l₁
  have ht : Tracks s.mem (pre ++ (s.thrConfAt b).intConfs.list.toList ++ listBlocks s.thrConfAt l₂) := by
    have := hs.tracks
    simp only [Statics.owned] at this
    rw [hsplit, listBlocks_append, listBlocks_cons] at this
    rw [← hsplit] at this
    simpa [pre, List.append_assoc] using this
  obtain ⟨ht', -⟩ := pointerListAppend_spec h ht
  have helems := pointerListAppend_elems h
  have hblocks : listBlocks F' s.thrConfs.elems =
      listBlocks s.thrConfAt l₁ ++ l.list.toList ++ listBlocks s.thrConfAt l₂ := by
    rw [hsplit, listBlocks_append, listBlocks_cons, listBlocks_update_of_not_mem _ hb₁,
      listBlocks_update_of_not_mem _ hb₂]
    simp [F', List.append_assoc]
  refine ⟨?_, hs.intNull, hs.thrNull, fun a' ha' x hx => ?_⟩
  · show Tracks m' (_ ++ _ ++ _ ++ _ ++ listBlocks F' s.thrConfs.elems)
    rw [hblocks]
    simpa [pre, List.append_assoc] using ht'
  · by_cases hab : a' = b
    · subst hab
      simp only [F', Function.update_self, helems, List.mem_append, List.mem_singleton] at hx
      rcases hx with hx | rfl
      · exact hs.shared a' ha' x hx
      · exact ha
    · have hx' : x ∈ (s.thrConfAt a').intConfs.elems := by simpa [F', Function.update_of_ne hab] using hx
      exact hs.shared a' ha' x hx'

end Steps

/-! The loops of `parse_args` and `start_router`. -/

/-- Where the loop of `parse_args` ends: at a state it reached by rejected and
appended interface configurations, which keeps the invariant, or at
`router_finalize` of one, on an unknown option. It never touches
`thr_confs` and appends at most one configuration per option. -/
theorem parseArgsLoop_ends {portMac : UInt16 → EtherAddr} {devCount : ℕ} :
    ∀ (opts : List Router.GetoptResult) {s s' : Statics} {t t' : Tables} {r : Int},
      Inv s → parseArgsLoop portMac devCount opts s t = .ok (r, s', t') →
      ∃ s'', Inv s'' ∧ s''.thrConfs = s.thrConfs ∧
        s''.intConfs.elems.length ≤ s.intConfs.elems.length + opts.length ∧
        (r = 1 ∧ s' = s'' ∨ r = -1 ∧ s' = routerFinalize s'')
  | [], s, _, _, _, _, hs, h => by
    rw [parseArgsLoop] at h
    obtain ⟨t₁, -, h₁⟩ := bind_eq_ok h
    cases h₁
    exact ⟨s, hs, rfl, Nat.le_add_right _ _, .inl ⟨rfl, rfl⟩⟩
  | .p optarg :: opts, s, _, _, _, _, hs, h => by
    rw [parseArgsLoop] at h
    split at h
    · obtain ⟨s'', hs'', hthr, hlen, hend⟩ := parseArgsLoop_ends opts hs h
      exact ⟨s'', hs'', hthr, by rw [List.length_cons]; omega, hend⟩
    · rename_i c _
      dsimp only at h
      split at h
      · obtain ⟨s'', hs'', hthr, hlen, hend⟩ := parseArgsLoop_ends opts (hs.rejectIntConf c) h
        exact ⟨s'', hs'', hthr, by rw [List.length_cons]; exact Nat.le_succ_of_le hlen, hend⟩
      · obtain ⟨⟨intConfs', m'⟩, happ, hrest⟩ := bind_eq_ok h
        obtain ⟨s'', hs'', hthr, hlen, hend⟩ := parseArgsLoop_ends opts (hs.appendIntConf c happ) hrest
        have happlen : intConfs'.elems.length = s.intConfs.elems.length + 1 := by
          rw [pointerListAppend_elems happ, List.length_append, List.length_singleton]
        dsimp only at hthr hlen
        exact ⟨s'', hs'', hthr, by rw [List.length_cons]; omega, hend⟩
  | .r optarg :: opts, _, _, _, _, _, hs, h => by
    rw [parseArgsLoop] at h
    obtain ⟨⟨_, t₁, _⟩, -, h₁⟩ := bind_eq_ok h
    obtain ⟨s'', hs'', hthr, hlen, hend⟩ := parseArgsLoop_ends opts hs h₁
    exact ⟨s'', hs'', hthr, by rw [List.length_cons]; omega, hend⟩
  | .other :: _, s, _, _, _, _, hs, h => by
    rw [parseArgsLoop] at h
    cases h
    exact ⟨s, hs, rfl, Nat.le_add_right _ _, .inr ⟨rfl, rfl⟩⟩

theorem parseArgsLoop_inv {portMac : UInt16 → EtherAddr} {devCount : ℕ}
    (opts : List Router.GetoptResult) {s s' : Statics} {t t' : Tables} {r : Int}
    (hs : Inv s) (h : parseArgsLoop portMac devCount opts s t = .ok (r, s', t')) : Inv s' := by
  obtain ⟨s'', hs'', -, -, ⟨-, rfl⟩ | ⟨-, rfl⟩⟩ := parseArgsLoop_ends opts hs h
  · exact hs''
  · exact routerFinalize_inv hs''

theorem createThreadConfigs_inv {thrCount : ℕ} :
    ∀ (n : ℕ) {s s' : Statics}, Inv s → createThreadConfigs thrCount n s = .ok s' → Inv s'
  | 0, _, _, hs, h => by
    cases h
    exact hs
  | n + 1, _, _, hs, h => by
    rw [createThreadConfigs] at h
    obtain ⟨⟨thrConfs', m'⟩, happ, hrest⟩ := bind_eq_ok h
    exact createThreadConfigs_inv n (hs.newThread _ _ happ) hrest

theorem distributeInterfaces_inv {ports : Rte.Ports} {thrCount : ℕ} :
    ∀ (i : ℕ) (as : List ℕ) {s s' : Statics} {started started' : List (UInt8 × UInt16)},
      Inv s → (∀ a ∈ as, a ∈ s.intConfs.elems) →
      distributeInterfaces ports thrCount i as s started = .ok (s', started') → Inv s'
  | _, [], _, _, _, _, hs, _, h => by
    cases h
    exact hs
  | i, a :: as, _, _, _, _, hs, has, h => by
    rw [distributeInterfaces] at h
    obtain ⟨started₁, -, h₁⟩ := bind_eq_ok h
    split at h₁
    · cases h₁
    · rename_i b hb
      obtain ⟨⟨l, m'⟩, happ, hrest⟩ := bind_eq_ok h₁
      exact distributeInterfaces_inv (i + 1) as
        (hs.deal (has a List.mem_cons_self) (List.mem_of_getElem? hb) happ)
        (fun a' ha' => has a' (List.mem_cons_of_mem a ha')) hrest

theorem launchThreads_inv {ports : Rte.Ports} {thrCount : ℕ} {s s' : Statics} {started : List (UInt8 × UInt16)}
    (hs : Inv s) (h : launchThreads ports thrCount s = .ok (s', started)) : Inv s' := by
  obtain ⟨s₁, h₁, h₂⟩ := bind_eq_ok h
  exact distributeInterfaces_inv 0 _ (createThreadConfigs_inv thrCount hs h₁) (fun _ ha => ha) h₂

theorem startRouter_tracks_nil {ports : Rte.Ports} {rteLcoreCount lcoreCount : ℕ} {s s' : Statics}
    {started : List (UInt8 × UInt16)} (hs : Inv s)
    (h : startRouter ports rteLcoreCount lcoreCount s = .ok (s', started)) :
    Tracks s'.mem [] := by
  unfold startRouter at h
  dsimp only at h
  generalize (if lcoreCount = 0 then rteLcoreCount else lcoreCount) = n at h
  split at h
  · cases h
    exact (routerFinalize_spec hs).1
  · obtain ⟨⟨s₁, started₁⟩, hl, h₁⟩ := bind_eq_ok h
    cases h₁
    exact (routerFinalize_spec (launchThreads_inv hs hl)).1

/-! A run of `main`. -/

/-- Every run of `main` that returns has freed each block it allocated
exactly once: no `free` of a block that is not live, and no block left. -/
theorem main_frees_each_block_once (ports : Rte.Ports) (portMac : UInt16 → EtherAddr) (rteLcoreCount : ℕ)
    (opts : List Router.GetoptResult) {s : Statics} {started : List (UInt8 × UInt16)}
    (h : main ports portMac rteLcoreCount opts = .ok (s, started)) :
    replay ∅ s.mem.log = some ∅ := by
  obtain ⟨⟨r, s₁, t⟩, hparse, hstart⟩ := bind_eq_ok h
  simpa using (startRouter_tracks_nil (parseArgsLoop_inv opts routerInit_inv hparse) hstart).replay_eq

theorem main_frees_each_block_once_after_unknown_option :
    ∃ s started, main (.working 2 4) (fun _ => EtherAddr.zero) 3
        [.p "0,10.0.0.1".toList, .p "1,10.0.1.1".toList, .other] = .ok (s, started) ∧
      replay ∅ s.mem.log = some ∅ := by
  obtain ⟨⟨s, started⟩, h⟩ := ok_of_isOk
    (show (main (.working 2 4) (fun _ => EtherAddr.zero) 3
      [.p "0,10.0.0.1".toList, .p "1,10.0.1.1".toList, .other]).isOk = true by decide +kernel)
  exact ⟨s, started, h, main_frees_each_block_once _ _ 3 _ h⟩

/-- The blocks the worker threads read: the block of `thr_confs`, each
thread configuration, the block of its list and the interface configurations
in it, and, in `is_arp_msg_valid`, the block of `int_confs` and every
interface configuration in it. -/
def Statics.threadReads (s : Statics) : List ℕ :=
  s.intConfs.list.toList ++ s.intConfs.elems ++ s.thrConfs.list.toList ++ s.thrConfs.elems.flatMap fun a =>
    a :: ((s.thrConfAt a).intConfs.list.toList ++ (s.thrConfAt a).intConfs.elems)

theorem Inv.threadReads_owned {s : Statics} (hs : Inv s) : ∀ b ∈ s.threadReads, b ∈ s.owned := by
  intro b hb
  simp only [Statics.threadReads, List.mem_append] at hb
  rcases hb with ((hb | hb) | hb) | hb
  · simp [Statics.owned, hb]
  · simp [Statics.owned, hb]
  · simp [Statics.owned, hb]
  · obtain ⟨a, ha, hb⟩ := List.mem_flatMap.mp hb
    rcases List.mem_cons.mp hb with rfl | hb
    · simp [Statics.owned, ha]
    · rcases List.mem_append.mp hb with hb | hb
      · simp only [Statics.owned, listBlocks, List.mem_append, List.mem_flatMap]
        exact .inr ⟨a, ha, hb⟩
      · simp [Statics.owned, hs.shared a ha b hb]

/-- While the worker threads run, every block they read is allocated and
not yet freed. -/
theorem threads_read_live_blocks {ports : Rte.Ports} {portMac : UInt16 → EtherAddr} {devCount thrCount : ℕ}
    {opts : List Router.GetoptResult} {r : Int} {s s' : Statics} {t : Tables} {started : List (UInt8 × UInt16)}
    (hparse : parseArgsLoop portMac devCount opts (routerInit .zero) Tables.init = .ok (r, s, t))
    (hlaunch : launchThreads ports thrCount s = .ok (s', started)) :
    ∃ live, replay ∅ s'.mem.log = some live ∧ ∀ b ∈ s'.threadReads, b ∈ live := by
  have hs := launchThreads_inv (parseArgsLoop_inv opts routerInit_inv hparse) hlaunch
  exact ⟨_, hs.tracks.replay_eq, fun b hb => List.mem_toFinset.mpr (hs.threadReads_owned b hb)⟩

theorem threads_read_live_blocks_three_ports :
    ∃ r s t s' started, parseArgsLoop (fun _ => EtherAddr.zero) 3
        [.p "0,10.0.0.1".toList, .p "1,10.0.1.1".toList, .p "2,10.0.2.1".toList] (routerInit .zero) Tables.init =
          .ok (r, s, t) ∧
      launchThreads (.working 3 2) 2 s = .ok (s', started) ∧
      ∃ live, replay ∅ s'.mem.log = some live ∧ ∀ b ∈ s'.threadReads, b ∈ live := by
  have hok : (parseArgsLoop (fun _ => EtherAddr.zero) 3
      [.p "0,10.0.0.1".toList, .p "1,10.0.1.1".toList, .p "2,10.0.2.1".toList] (routerInit .zero) Tables.init >>=
        fun x => launchThreads (.working 3 2) 2 x.2.1).isOk = true := by
    decide +kernel
  obtain ⟨⟨s', started⟩, h⟩ := ok_of_isOk hok
  obtain ⟨⟨r, s, t⟩, hparse, hlaunch⟩ := bind_eq_ok h
  exact ⟨r, s, t, s', started, hparse, hlaunch, threads_read_live_blocks hparse hlaunch⟩

end DpdkRouter.Lifecycle
