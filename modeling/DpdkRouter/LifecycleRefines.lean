import DpdkRouter.LifecycleSpec
import DpdkRouter.PointerListSpec
import DpdkRouter.RouterSetupSpec

/-!
The heap program refines the functional model of `router.c`. Read through
the heap, the interface configurations `int_confs` points to are the list
`Router.parseArgs` builds, and the thread configurations `thr_confs` points
to, each with the interface configurations its list points to, are the
thread configurations of `Router.startRouter`; both programs return the same
result, routing tables, started ports and faults. The views are
`Statics.intConfList` and `Statics.threadConfList`, and each step of the
heap program moves them as the functional step moves its lists. The one exit
of the heap program the functional one lacks is the one of
`_pointer_list_expand`, which a list of fewer than `2 ^ 31` elements never
reaches.
-/

namespace DpdkRouter.Lifecycle

open Ledger RoutingTable ForLoop

/-- The interface configurations of `int_confs`, read through the heap. -/
def Statics.intConfList (s : Statics) : List Router.InterfaceConfig :=
  s.intConfs.elems.map s.intConfAt

/-- The thread configuration at `a` as `router_thread` reads it, with the
interface configurations of its list read through the heap. -/
def readThreadConf (intConfAt : ℕ → Router.InterfaceConfig) (thrConfAt : ℕ → ThreadConfigObj) (a : ℕ) :
    Router.ThreadConfig :=
  ⟨(thrConfAt a).intConfs.elems.map intConfAt, (thrConfAt a).workerCount, (thrConfAt a).qId⟩

/-- The thread configurations of `thr_confs`, in order. -/
def Statics.threadConfList (s : Statics) : List Router.ThreadConfig :=
  s.thrConfs.elems.map (readThreadConf s.intConfAt s.thrConfAt)

/-! Maps over updated functions. -/

theorem map_update_of_not_mem {α β : Type*} [DecidableEq α] {f : α → β} {a : α} (v : β) {l : List α}
    (ha : a ∉ l) : l.map (Function.update f a v) = l.map f :=
  List.map_congr_left fun x hx => Function.update_of_ne (by rintro rfl; exact ha hx) v f

/-- Updating the value of the `k`-th element of a list without repeats
modifies the `k`-th entry of the map. -/
theorem map_update_eq_modify {α β : Type*} [DecidableEq α] (f : α → β) (g : β → β) :
    ∀ {l : List α} {k : ℕ} {b : α}, l.Nodup → l[k]? = some b →
      l.map (Function.update f b (g (f b))) = (l.map f).modify k g
  | [], _, _, _, hb => by simp at hb
  | x :: l, 0, b, hnd, hb => by
    obtain rfl : x = b := by simpa using hb
    rw [List.map_cons, List.map_cons, List.modify_zero_cons, Function.update_self,
      map_update_of_not_mem _ (List.nodup_cons.mp hnd).1]
  | x :: l, k + 1, b, hnd, hb => by
    rw [List.getElem?_cons_succ] at hb
    have hxb : x ≠ b := fun hxb => (List.nodup_cons.mp hnd).1 (hxb ▸ List.mem_of_getElem? hb)
    rw [List.map_cons, List.map_cons, List.modify_succ_cons, Function.update_of_ne hxb,
      map_update_eq_modify f g (List.nodup_cons.mp hnd).2 hb]

/-! Appends that succeed. -/

theorem pointerListRealloc_of_some {self : PointerList} {newCap : UInt32} {m : Mem} {b : ℕ}
    (hb : (m.realloc self.list (newCap.toNat * genericPtrSize)).1 = some b) :
    pointerListRealloc self newCap m =
      .ok ({ self with list := some b, cap := newCap }, (m.realloc self.list (newCap.toNat * genericPtrSize)).2) := by
  unfold pointerListRealloc
  rw [show m.realloc self.list (newCap.toNat * genericPtrSize) = (some b, _) from Prod.ext hb rfl]

/-- An append to a list of fewer than `2 ^ 31` elements never exits: a full
list has a capacity below `2 ^ 31`, which grows without wrapping, and
`realloc` to a nonzero size always returns a block. -/
theorem pointerListAppend_ok (self : PointerList) (ptr : ℕ) (m : Mem) (hlen : self.elems.length < 2 ^ 31) :
    ∃ self' m', pointerListAppend self ptr m = .ok (self', m') := by
  by_cases hfull : self.elems.length ≥ self.cap.toNat
  · have hgrow : ¬ self.cap + self.cap / 2 + 1 ≤ self.cap := fun hle => by
      have := (Utils.grow_le_iff _).mp hle
      omega
    have hsize : (self.cap + self.cap / 2 + 1).toNat * genericPtrSize ≠ 0 := by
      rw [Utils.toNat_grow (by omega)]
      simp [genericPtrSize]
    obtain ⟨b, hb⟩ := Option.isSome_iff_exists.mp (m.realloc_isSome self.list hsize)
    refine ⟨{ self with list := some b, cap := self.cap + self.cap / 2 + 1, elems := self.elems ++ [ptr] },
      (m.realloc self.list ((self.cap + self.cap / 2 + 1).toNat * genericPtrSize)).2, ?_⟩
    rw [pointerListAppend, if_pos hfull, pointerListExpand, if_neg hgrow, pointerListRealloc_of_some hb, ok_bind]
    rfl
  · refine ⟨{ self with elems := self.elems ++ [ptr] }, m, ?_⟩
    rw [pointerListAppend, if_neg hfull]
    rfl

/-! How each step of the heap program moves the views. -/

section Views

variable {s : Statics}

theorem readThreadConf_update (intConfAt : ℕ → Router.InterfaceConfig) (thrConfAt : ℕ → ThreadConfigObj)
    (a : ℕ) (o : ThreadConfigObj) :
    readThreadConf intConfAt (Function.update thrConfAt a o) =
      Function.update (readThreadConf intConfAt thrConfAt) a ⟨o.intConfs.elems.map intConfAt, o.workerCount, o.qId⟩ := by
  funext x
  by_cases hx : x = a
  · subst hx
    simp [readThreadConf]
  · simp [readThreadConf, Function.update_of_ne hx]

theorem intConfList_rejectIntConf (hs : Inv s) (c : Router.InterfaceConfig) (m' : Mem) :
    Statics.intConfList { s with
      intConfAt := Function.update s.intConfAt s.mem.malloc.1 c
      mem := m' } = s.intConfList :=
  map_update_of_not_mem c hs.malloc_not_mem_intConfs

theorem intConfList_appendIntConf (hs : Inv s) (c : Router.InterfaceConfig) {intConfs' : PointerList} {m' : Mem}
    (h : pointerListAppend s.intConfs s.mem.malloc.1 s.mem.malloc.2 = .ok (intConfs', m')) :
    Statics.intConfList { s with
      intConfAt := Function.update s.intConfAt s.mem.malloc.1 c
      intConfs := intConfs'
      mem := m' } = s.intConfList ++ [c] := by
  simp only [Statics.intConfList, pointerListAppend_elems h, List.map_append,
    map_update_of_not_mem c hs.malloc_not_mem_intConfs, List.map_cons, List.map_nil, Function.update_self]

theorem threadConfList_newThread (hs : Inv s) (workerCount qId : UInt16) {thrConfs' : PointerList} {m' : Mem}
    (h : pointerListAppend s.thrConfs s.mem.malloc.1 (pointerListInit s.mem.malloc.2).2 = .ok (thrConfs', m')) :
    Statics.threadConfList { s with
      thrConfAt := Function.update s.thrConfAt s.mem.malloc.1 ⟨(pointerListInit s.mem.malloc.2).1, workerCount, qId⟩
      thrConfs := thrConfs'
      mem := m' } = s.threadConfList ++ [⟨[], workerCount, qId⟩] := by
  dsimp only [Statics.threadConfList]
  rw [readThreadConf_update, pointerListAppend_elems h, List.map_append, map_update_of_not_mem _ hs.malloc_not_mem_thrConfs]
  simp [pointerListInit]

theorem threadConfList_deal (hs : Inv s) {a b k : ℕ} (hb : s.thrConfs.elems[k]? = some b)
    {l : PointerList} {m' : Mem} (h : pointerListAppend (s.thrConfAt b).intConfs a s.mem = .ok (l, m')) :
    Statics.threadConfList { s with
      thrConfAt := Function.update s.thrConfAt b { s.thrConfAt b with intConfs := l }
      mem := m' } =
      s.threadConfList.modify k fun thrConf => { thrConf with intConfs := thrConf.intConfs ++ [s.intConfAt a] } := by
  dsimp only [Statics.threadConfList]
  rw [readThreadConf_update, ← map_update_eq_modify _ _ hs.thrConfs_nodup hb]
  simp [readThreadConf, pointerListAppend_elems h]

end Views

/-! `parse_args`. -/

theorem parseArgsLoop_refines {portMac : UInt16 → EtherAddr} {devCount : ℕ} :
    ∀ (opts : List Router.GetoptResult) {s : Statics} (t : Tables), Inv s →
      s.intConfs.elems.length + opts.length < 2 ^ 31 →
      (parseArgsLoop portMac devCount opts s t).map (fun x => (x.1, (⟨x.2.1.intConfList, x.2.2⟩ : Router.ParseState))) =
        Router.parseArgsLoop portMac devCount opts ⟨s.intConfList, t⟩
  | [], s, t, _, _ => by
    rw [parseArgsLoop, Router.parseArgsLoop]
    cases buildRoutingTable t <;> rfl
  | .p optarg :: opts, s, t, hs, hlen => by
    have hlen' : s.intConfs.elems.length + opts.length < 2 ^ 31 := by
      simp only [List.length_cons] at hlen
      omega
    rw [parseArgsLoop, Router.parseArgsLoop]
    cases hp : (Router.parseOptionP portMac optarg).1 with
    | none => exact parseArgsLoop_refines opts t hs hlen'
    | some c =>
      dsimp only
      by_cases hdev : c.intId.toNat ≥ devCount
      · -- freed at once: the heap's list, like the functional one, is unchanged
        have hrest := @parseArgsLoop_refines portMac devCount opts _ t (hs.rejectIntConf c) hlen'
        rw [intConfList_rejectIntConf hs c] at hrest
        rw [if_pos hdev, if_pos hdev]
        exact hrest
      · obtain ⟨intConfs', m', happ⟩ := pointerListAppend_ok s.intConfs s.mem.malloc.1 s.mem.malloc.2 (by omega)
        have hlen₁ : intConfs'.elems.length + opts.length < 2 ^ 31 := by
          rw [pointerListAppend_elems happ, List.length_append, List.length_singleton]
          simp only [List.length_cons] at hlen
          omega
        have hrest := @parseArgsLoop_refines portMac devCount opts _ t (hs.appendIntConf c happ) hlen₁
        rw [intConfList_appendIntConf hs c happ] at hrest
        rw [if_neg hdev, if_neg hdev, happ, ok_bind]
        exact hrest
  | .r optarg :: opts, s, t, hs, hlen => by
    rw [parseArgsLoop, Router.parseArgsLoop]
    dsimp only
    cases hr : Router.parseOptionR t optarg with
    | error e => rfl
    | ok x =>
      obtain ⟨_, t₁, _⟩ := x
      exact parseArgsLoop_refines opts t₁ hs (by simp only [List.length_cons] at hlen; omega)
  | .other :: _, s, t, hs, _ => by
    rw [parseArgsLoop, Router.parseArgsLoop, map_ok]
    simp only [Statics.intConfList, (routerFinalize_spec hs).2.1]
    rfl

theorem parseArgsLoop_shape {portMac : UInt16 → EtherAddr} {devCount : ℕ}
    (opts : List Router.GetoptResult) {s s' : Statics} {t t' : Tables} {r : Int}
    (hs : Inv s) (hthr : s.thrConfs.elems = []) (h : parseArgsLoop portMac devCount opts s t = .ok (r, s', t')) :
    s'.thrConfs.elems = [] ∧ s'.intConfs.elems.length ≤ s.intConfs.elems.length + opts.length := by
  obtain ⟨s'', hs'', hthr'', hlen, ⟨-, rfl⟩ | ⟨-, rfl⟩⟩ := parseArgsLoop_ends opts hs h
  · exact ⟨by rw [hthr'', hthr], hlen⟩
  · -- `router_finalize` leaves both lists empty
    obtain ⟨-, hint, hthr'⟩ := routerFinalize_spec hs''
    rw [hint, hthr']
    exact ⟨rfl, Nat.zero_le _⟩

/-- `parse_args` on the heap computes what the functional `parse_args`
computes, for every command line of fewer than `2 ^ 31` options: the same
result, the interface configurations of `int_confs`, read through the heap,
the same routing tables, and the same faults. -/
theorem parseArgs_refines (portMac : UInt16 → EtherAddr) (devCount : ℕ) (opts : List Router.GetoptResult)
    (hopts : opts.length < 2 ^ 31) :
    (parseArgsLoop portMac devCount opts (routerInit .zero) Tables.init).map
        (fun x => (x.1, (⟨x.2.1.intConfList, x.2.2⟩ : Router.ParseState))) =
      Router.parseArgs portMac devCount opts :=
  parseArgsLoop_refines opts Tables.init routerInit_inv (by simpa [routerInit, pointerListInit] using hopts)

theorem parseArgs_refines_route_and_port :
    [Router.GetoptResult.p "0,10.0.0.1".toList, .r "10.1.0.0/24,02:00:00:00:00:01,1".toList].length < 2 ^ 31 ∧
      (parseArgsLoop (fun _ => EtherAddr.zero) 2
          [.p "0,10.0.0.1".toList, .r "10.1.0.0/24,02:00:00:00:00:01,1".toList] (routerInit .zero) Tables.init).map
          (fun x => (x.1, (⟨x.2.1.intConfList, x.2.2⟩ : Router.ParseState))) =
        Router.parseArgs (fun _ => EtherAddr.zero) 2
          [.p "0,10.0.0.1".toList, .r "10.1.0.0/24,02:00:00:00:00:01,1".toList] :=
  ⟨by decide, parseArgs_refines _ 2 _ (by decide)⟩

/-! `start_router`. -/

theorem createThreadConfigs_refines {thrCount : ℕ} :
    ∀ (n : ℕ) {s : Statics}, Inv s → s.thrConfs.elems.length + n < 2 ^ 31 →
      ∃ s', createThreadConfigs thrCount n s = .ok s' ∧ s'.intConfs = s.intConfs ∧ s'.intConfAt = s.intConfAt ∧
        s'.threadConfList = s.threadConfList ++
          (List.range' s.thrConfs.elems.length n).map fun k => ⟨[], UInt16.ofNat thrCount, UInt16.ofNat k⟩
  | 0, s, _, _ => ⟨s, rfl, rfl, rfl, by simp⟩
  | n + 1, s, hs, hlen => by
    obtain ⟨thrConfs', m', happ⟩ :=
      pointerListAppend_ok s.thrConfs s.mem.malloc.1 (pointerListInit s.mem.malloc.2).2 (by omega)
    have hlen₁ : thrConfs'.elems.length = s.thrConfs.elems.length + 1 := by
      rw [pointerListAppend_elems happ, List.length_append, List.length_singleton]
    obtain ⟨s', hrun, hint, hintAt, hview⟩ := @createThreadConfigs_refines thrCount n _
      (hs.newThread (UInt16.ofNat thrCount) (UInt16.ofNat s.thrConfs.elems.length) happ)
      (show thrConfs'.elems.length + n < 2 ^ 31 by omega)
    refine ⟨s', ?_, hint, hintAt, ?_⟩
    · rw [createThreadConfigs]
      dsimp only
      rw [happ, ok_bind]
      exact hrun
    · rw [hview, threadConfList_newThread hs _ _ happ]
      dsimp only
      rw [hlen₁, List.range'_succ, List.map_cons, List.append_assoc]
      rfl

/-- The loop dealing the interfaces moves the heap's thread configurations as
the functional loop moves its own, as long as each list stays below `2 ^ 31`
elements. -/
theorem distributeInterfaces_refines {ports : Rte.Ports} {thrCount : ℕ} (hpos : 0 < thrCount) :
    ∀ (i : ℕ) (as : List ℕ) {s : Statics} (started : List (UInt8 × UInt16)),
      Inv s → (∀ a ∈ as, a ∈ s.intConfs.elems) → s.thrConfs.elems.length = thrCount →
      (∀ b ∈ s.thrConfs.elems, (s.thrConfAt b).intConfs.elems.length + as.length < 2 ^ 31) →
      (distributeInterfaces ports thrCount i as s started).map
          (fun x => (⟨x.2, x.1.threadConfList⟩ : Router.RouterSetup)) =
        Router.distributeInterfaces ports thrCount i (as.map s.intConfAt) ⟨started, s.threadConfList⟩
  | _, [], _, _, _, _, _, _ => rfl
  | i, a :: as, s, started, hs, has, hlen, hbound => by
    rw [distributeInterfaces, List.map_cons, Router.distributeInterfaces]
    dsimp only
    cases hc : Router.configureDevice ports started (s.intConfAt a).intId (UInt16.ofNat thrCount) with
    | error e => rfl
    | ok started₁ =>
      obtain ⟨b, hb⟩ : ∃ b, s.thrConfs.elems[i % thrCount]? = some b :=
        ⟨_, List.getElem?_eq_getElem (by rw [hlen]; exact Nat.mod_lt i hpos)⟩
      have hbmem : b ∈ s.thrConfs.elems := List.mem_of_getElem? hb
      have hbb := hbound b hbmem
      rw [List.length_cons] at hbb
      obtain ⟨l, m', happ⟩ := pointerListAppend_ok (s.thrConfAt b).intConfs a s.mem (by omega)
      have hl : l.elems.length = (s.thrConfAt b).intConfs.elems.length + 1 := by
        rw [pointerListAppend_elems happ, List.length_append, List.length_singleton]
      have hbound' : ∀ x ∈ s.thrConfs.elems,
          (Function.update s.thrConfAt b { s.thrConfAt b with intConfs := l } x).intConfs.elems.length +
            as.length < 2 ^ 31 := by
        intro x hx
        have hxb := hbound x hx
        rw [List.length_cons] at hxb
        by_cases hx : x = b
        · rw [hx, Function.update_self]
          dsimp only
          omega
        · rw [Function.update_of_ne hx]
          omega
      have hrest := @distributeInterfaces_refines ports thrCount hpos (i + 1) as _ started₁
        (hs.deal (has a List.mem_cons_self) hbmem happ) (fun a' ha' => has a' (List.mem_cons_of_mem a ha'))
        hlen hbound'
      rw [threadConfList_deal hs hb happ] at hrest
      rw [ok_bind, hb]
      dsimp only
      rw [happ, ok_bind]
      exact hrest

theorem launchThreads_refines {ports : Rte.Ports} {thrCount : ℕ} {s : Statics} (hs : Inv s)
    (hthr : s.thrConfs.elems = []) (hpos : 0 < thrCount) (hcount : thrCount < 2 ^ 31)
    (hlen : s.intConfs.elems.length < 2 ^ 31) :
    (launchThreads ports thrCount s).map (fun x => (⟨x.2, x.1.threadConfList⟩ : Router.RouterSetup)) =
      Router.distributeInterfaces ports thrCount 0 s.intConfList ⟨[], Router.threadConfigs thrCount⟩ := by
  obtain ⟨s₁, hrun, hint, hintAt, hview⟩ :=
    @createThreadConfigs_refines thrCount thrCount s hs (by simpa [hthr] using hcount)
  have hthreads : s₁.threadConfList = Router.threadConfigs thrCount := by
    rw [hview, Statics.threadConfList, hthr, List.map_nil, List.nil_append, List.length_nil, Router.threadConfigs,
      List.range_eq_range']
  have hlen₁ : s₁.thrConfs.elems.length = thrCount := by
    simpa [Statics.threadConfList, Router.threadConfigs] using congrArg List.length hthreads
  have hempty : ∀ b ∈ s₁.thrConfs.elems, (s₁.thrConfAt b).intConfs.elems = [] := by
    intro b hb
    have hmem : readThreadConf s₁.intConfAt s₁.thrConfAt b ∈ Router.threadConfigs thrCount :=
      hthreads ▸ List.mem_map_of_mem hb
    simp only [Router.threadConfigs, List.mem_map, List.mem_range, readThreadConf] at hmem
    obtain ⟨k, -, hk⟩ := hmem
    simpa using (congrArg Router.ThreadConfig.intConfs hk).symm
  have hlist : s.intConfList = s₁.intConfs.elems.map s₁.intConfAt := by
    rw [Statics.intConfList, hint, hintAt]
  unfold launchThreads
  rw [hrun, ok_bind, hlist, ← hthreads]
  refine distributeInterfaces_refines hpos 0 s₁.intConfs.elems [] (createThreadConfigs_inv thrCount hs hrun)
    (fun _ ha => ha) hlen₁ fun b hb => ?_
  rw [hempty b hb, hint]
  simpa using hlen

/-- After `parse_args`, `start_router` on the heap launches its threads on
the thread configurations of the functional `start_router`, each with the
interface configurations its list points to, and starts the same ports, or
fails with the same fault. -/
theorem startRouter_refines {portMac : UInt16 → EtherAddr} {devCount : ℕ} {opts : List Router.GetoptResult}
    {r : Int} {s : Statics} {t : Tables} (ports : Rte.Ports)
    (hparse : parseArgsLoop portMac devCount opts (routerInit .zero) Tables.init = .ok (r, s, t))
    (hopts : opts.length < 2 ^ 31) (rteLcoreCount lcoreCount : ℕ)
    (hlaunch : Router.dpdkMinWorkerId < Router.threadCount rteLcoreCount lcoreCount)
    (hcount : Router.threadCount rteLcoreCount lcoreCount < 2 ^ 31) :
    (launchThreads ports (Router.threadCount rteLcoreCount lcoreCount - Router.dpdkMinWorkerId) s).map
        (fun x => (⟨x.2, x.1.threadConfList⟩ : Router.RouterSetup)) =
      Router.startRouter ports rteLcoreCount lcoreCount s.intConfList := by
  obtain ⟨hthr, hlen⟩ := parseArgsLoop_shape opts routerInit_inv rfl hparse
  have hlen' : s.intConfs.elems.length < 2 ^ 31 := by
    simp only [routerInit, pointerListInit, List.length_nil] at hlen
    omega
  unfold Router.startRouter
  dsimp only
  rw [show (if lcoreCount = 0 then rteLcoreCount else lcoreCount) = Router.threadCount rteLcoreCount lcoreCount
    from rfl, if_neg (Nat.not_le.mpr hlaunch)]
  exact launchThreads_refines (parseArgsLoop_inv opts routerInit_inv hparse) hthr (Nat.sub_pos_of_lt hlaunch)
    (by omega) hlen'

theorem startRouter_refines_two_threads :
    ∃ r s t, parseArgsLoop (fun _ => EtherAddr.zero) 2
        [.p "0,10.0.0.1".toList, .p "1,10.0.1.1".toList, .p "0,10.0.2.1".toList] (routerInit .zero) Tables.init =
          .ok (r, s, t) ∧
      (launchThreads (.working 2 2) (Router.threadCount 2 0 - Router.dpdkMinWorkerId) s).map
          (fun x => (⟨x.2, x.1.threadConfList⟩ : Router.RouterSetup)) =
        Router.startRouter (.working 2 2) 2 0 s.intConfList := by
  obtain ⟨⟨r, s, t⟩, h⟩ := ok_of_isOk (show (parseArgsLoop (fun _ => EtherAddr.zero) 2
      [.p "0,10.0.0.1".toList, .p "1,10.0.1.1".toList, .p "0,10.0.2.1".toList] (routerInit .zero)
        Tables.init).isOk = true by decide +kernel)
  exact ⟨r, s, t, h, startRouter_refines (.working 2 2) h (by decide) 2 0 (by decide) (by decide)⟩

/-! An unknown option. -/

/-- `parse_args` returns `-1` only after `router_finalize`, which leaves both
lists `NULL`. -/
theorem parseArgsLoop_unknown {portMac : UInt16 → EtherAddr} {devCount : ℕ}
    (opts : List Router.GetoptResult) {s s' : Statics} {t t' : Tables} (hs : Inv s)
    (h : parseArgsLoop portMac devCount opts s t = .ok (-1, s', t')) :
    s'.intConfs = .null ∧ s'.thrConfs = .null := by
  obtain ⟨s'', hs'', -, -, ⟨hr, -⟩ | ⟨-, rfl⟩⟩ := parseArgsLoop_ends opts hs h
  · exact absurd hr (by omega)
  · exact (routerFinalize_spec hs'').2

theorem routerThreadRun_no_interface (tables : Tables) (intConfs : List Router.InterfaceConfig)
    {thrConf : Router.ThreadConfig} (hnone : thrConf.intConfs = []) :
    ∀ (n : ℕ) (dev : Rte.Dev), ((Router.routerThreadRun tables intConfs thrConf n).run dev).2 = dev
  | 0, _ => rfl
  | n + 1, dev => by
    have hpass : ((Router.routerThreadPass tables intConfs thrConf).run dev).2 = dev := by
      rw [Router.routerThreadPass, hnone]
      rfl
    show ((Router.routerThreadRun tables intConfs thrConf n).run
      ((Router.routerThreadPass tables intConfs thrConf).run dev).2).2 = dev
    rw [hpass]
    exact routerThreadRun_no_interface tables intConfs hnone n dev

/-- `main` ignores the `-1` of `parse_args` on an unknown option: after
`router_finalize` has emptied `int_confs`, `start_router` still launches its
threads, starts no port, and gives every thread an empty list of interfaces,
so no thread ever calls the device, whatever it runs on. -/
theorem unknown_option_launches_idle_threads {portMac : UInt16 → EtherAddr} {devCount : ℕ}
    {opts : List Router.GetoptResult} {s : Statics} {t : Tables}
    (hparse : parseArgsLoop portMac devCount opts (routerInit .zero) Tables.init = .ok (-1, s, t))
    (ports : Rte.Ports) {thrCount : ℕ} (hpos : 0 < thrCount) (hcount : thrCount < 2 ^ 31) :
    ∃ s', launchThreads ports thrCount s = .ok (s', []) ∧ s'.threadConfList.length = thrCount ∧
      ∀ thrConf ∈ s'.threadConfList, thrConf.intConfs = [] ∧
        ∀ (tables : Tables) (intConfs : List Router.InterfaceConfig) (n : ℕ) (dev : Rte.Dev),
          ((Router.routerThreadRun tables intConfs thrConf n).run dev).2 = dev := by
  have hs := parseArgsLoop_inv opts routerInit_inv hparse
  obtain ⟨hint, hthr⟩ := parseArgsLoop_unknown opts routerInit_inv hparse
  have hlaunch := @launchThreads_refines ports thrCount s hs (by rw [hthr]; rfl) hpos hcount
    (by rw [hint]; exact Nat.two_pow_pos 31)
  rw [show s.intConfList = [] by rw [Statics.intConfList, hint]; rfl] at hlaunch
  cases hrun : launchThreads ports thrCount s with
  | error e =>
    rw [hrun] at hlaunch
    cases hlaunch
  | ok x =>
    obtain ⟨s', started⟩ := x
    rw [hrun] at hlaunch
    -- the functional loop over no interface returns the fresh thread configurations
    have hview : (⟨started, s'.threadConfList⟩ : Router.RouterSetup) = ⟨[], Router.threadConfigs thrCount⟩ :=
      Except.ok.inj hlaunch
    obtain ⟨rfl, hthreads⟩ := Router.RouterSetup.mk.inj hview
    have hempty : ∀ thrConf ∈ s'.threadConfList, thrConf.intConfs = [] := by
      intro thrConf hc
      rw [hthreads] at hc
      obtain ⟨k, -, rfl⟩ := List.mem_map.mp hc
      rfl
    refine ⟨s', rfl, by rw [hthreads]; simp [Router.threadConfigs], fun thrConf hc => ⟨hempty thrConf hc, ?_⟩⟩
    intro tables intConfs n dev
    exact routerThreadRun_no_interface tables intConfs (hempty thrConf hc) n dev

theorem unknown_option_launches_idle_threads_after_port :
    ∃ s t, parseArgsLoop (fun _ => EtherAddr.zero) 2 [.p "0,10.0.0.1".toList, .other] (routerInit .zero)
        Tables.init = .ok (-1, s, t) ∧
      ∃ s', launchThreads (.working 1 1) 2 s = .ok (s', []) ∧ s'.threadConfList.length = 2 ∧
        ∀ thrConf ∈ s'.threadConfList, thrConf.intConfs = [] ∧
          ∀ (tables : Tables) (intConfs : List Router.InterfaceConfig) (n : ℕ) (dev : Rte.Dev),
            ((Router.routerThreadRun tables intConfs thrConf n).run dev).2 = dev := by
  obtain ⟨⟨r, s, t⟩, h⟩ := ok_of_isOk (show (parseArgsLoop (fun _ => EtherAddr.zero) 2
      [.p "0,10.0.0.1".toList, .other] (routerInit .zero) Tables.init).isOk = true by decide +kernel)
  have hr : (parseArgsLoop (fun _ => EtherAddr.zero) 2 [.p "0,10.0.0.1".toList, .other] (routerInit .zero)
      Tables.init).map Prod.fst = .ok (-1) := by
    decide +kernel
  rw [h] at hr
  obtain rfl : r = -1 := Except.ok.inj hr
  exact ⟨s, t, h, unknown_option_launches_idle_threads h (.working 1 1) (by decide) (by decide)⟩

end DpdkRouter.Lifecycle
