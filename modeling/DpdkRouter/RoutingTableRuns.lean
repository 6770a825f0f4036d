import DpdkRouter.RoutingTableCalls

/-!
`add_route` and `build_routing_table` called in any order from program
start. `Added` is what a run has added, as the abstract state of the table:
the routes added since the last build, and the most slots of
`nh_id_to_info` ever filled. `build_routing_table` reads the slots below
`nh_id_to_info_idx` and resets that counter, so a build answers with the
routes added since the previous build only; it never clears `in_use`, so the
slots of the routes added before it stay in use, and `print_routes`, which
walks the slots up to the first one not in use, prints them after the new
routes. `add_route` never fills the last slot, so that walk stays inside
the array.
-/

namespace DpdkRouter.RoutingTable

open ForLoop PrefixMatch

/-- A call of `routing_table.c` that changes its statics. -/
inductive TableCall
  | add (r : RouteArgs)
  | build
  deriving DecidableEq, Repr

def TableCall.run (t : Tables) : TableCall → Except Fault Tables
  | .add r => addRoute t r.ipAddr r.prefixLen r.macAddr r.port
  | .build => buildRoutingTable t

/-- The calls in order, stopping at the first exit. -/
def runCalls (t : Tables) : List TableCall → Except Fault Tables
  | [] => .ok t
  | c :: cs => (c.run t).bind (runCalls · cs)

/-- What the calls so far have added: the routes since the last build, in
order, and the most slots ever filled. -/
structure Added where
  pending : List RouteArgs
  highWater : ℕ

def Added.step (s : Added) : TableCall → Added
  | .add r => ⟨s.pending ++ [r], max s.highWater (s.pending.length + 1)⟩
  | .build => ⟨[], s.highWater⟩

def added (cs : List TableCall) : Added := cs.foldl Added.step ⟨[], 0⟩

theorem runCalls_append (t : Tables) (cs ds : List TableCall) :
    runCalls t (cs ++ ds) = (runCalls t cs).bind (runCalls · ds) := by
  induction cs generalizing t with
  | nil => rfl
  | cons c cs ih =>
    rw [List.cons_append, runCalls, runCalls]
    cases c.run t with
    | error e => rfl
    | ok t₁ => exact ih t₁

/-! The builders write `tbl24_table` and `tbllong_table` only. -/

section Frame

variable {info : ℕ → NextHopInfo} {t : Tables}

/-- A run that ends with `nh_id_to_info` equal to `info`, or leaves the
program. -/
abbrev KeepsInfo (info : ℕ → NextHopInfo) : Except Fault Tables → Prop :=
  Outcome (fun s => s.nhIdToInfo = info) fun _ => True

theorem forRange_keepsInfo {body : ℕ → Tables → Except Fault Tables}
    (hbody : ∀ i s, s.nhIdToInfo = info → KeepsInfo info (body i s)) (lo n : ℕ) (ht : t.nhIdToInfo = info) :
    KeepsInfo info (forRange body lo n t) :=
  forRange_outcome (fun _ s => s.nhIdToInfo = info) _ (fun i s _ _ hs => hbody i s hs) ht

theorem replaceLongRange_keepsInfo (nhId longIdx lo n : ℕ) (ht : t.nhIdToInfo = info) :
    KeepsInfo info (replaceLongRange t nhId longIdx lo n) := by
  unfold replaceLongRange
  split
  · exact forRange_keepsInfo (fun _ _ hs => by exact hs) lo n ht
  · trivial

theorem buildRouteLte24Idx_keepsInfo (nhId idx : ℕ) (ht : t.nhIdToInfo = info) :
    KeepsInfo info (buildRouteLte24Idx t nhId idx) := by
  unfold buildRouteLte24Idx
  split
  · dsimp only
    split
    · exact ht
    · split
      · split
        · exact ht
        · exact ht
      · exact replaceLongRange_keepsInfo _ _ _ _ ht
  · trivial

theorem buildRouteGt24Idx_keepsInfo (nhId idx : ℕ) (ht : t.nhIdToInfo = info) :
    KeepsInfo info (buildRouteGt24Idx t nhId idx) := by
  unfold buildRouteGt24Idx
  split
  · trivial
  · exact forRange_keepsInfo (fun _ _ hs => by exact hs) _ _ ht

theorem buildRoute_keepsInfo (nhId : ℕ) (ht : t.nhIdToInfo = info) : KeepsInfo info (buildRoute nhId t) := by
  unfold buildRoute
  dsimp only
  split
  · exact ht
  · split
    · exact forRange_keepsInfo (fun idx s hs => buildRouteLte24Idx_keepsInfo nhId idx hs) _ _ ht
    · unfold buildRouteGt24
      dsimp only
      split
      · exact buildRouteGt24Idx_keepsInfo nhId _ ht
      · split
        · exact Outcome.bind (buildRouteGt24Idx_keepsInfo nhId _ ht)
            fun s hs => replaceLongRange_keepsInfo _ _ _ _ hs
        · exact replaceLongRange_keepsInfo _ _ _ _ ht

theorem buildRoutingTable_nhIdToInfo {t' : Tables} (h : buildRoutingTable t = .ok t') :
    t'.nhIdToInfo = t.nhIdToInfo := by
  unfold buildRoutingTable at h
  obtain ⟨t₁, hrun, hret⟩ := bind_eq_ok h
  cases hret
  have hkeep : KeepsInfo t.nhIdToInfo (forRange buildRoute 0 t.nhIdToInfoIdx { t with
      tbllongTableIdx := 0
      tbl24Table := fun _ => invalidEntry
      tbllongTable := fun _ _ => invalidNhId }) :=
    forRange_keepsInfo (fun k s hs => buildRoute_keepsInfo k hs) _ _ rfl
  rw [hrun] at hkeep
  exact hkeep

end Frame

/-! The table refines `Added`. -/

/-- The statics of `routing_table.c` after the calls that added `s`: the
counter is the number of routes since the last build, which fill the first
slots in order; a slot is in use exactly when a route ever filled it; and
the last slot, `INVALID_NH_ID`, was never filled. -/
structure Matches (t : Tables) (s : Added) : Prop where
  idx_eq : t.nhIdToInfoIdx = s.pending.length
  pending_eq : ∀ k (hk : k < s.pending.length), t.nhIdToInfo k = s.pending[k].info
  inUse_iff : ∀ k, (t.nhIdToInfo k).inUse = true ↔ k < s.highWater
  pending_le : s.pending.length ≤ s.highWater
  highWater_le : s.highWater ≤ invalidNhId

theorem matches_init : Matches Tables.init ⟨[], 0⟩ where
  idx_eq := rfl
  pending_eq _ hk := absurd hk (Nat.not_lt_zero _)
  inUse_iff _ := by simp [Tables.init]
  pending_le := le_rfl
  highWater_le := Nat.zero_le _

theorem Matches.step {t t' : Tables} {s : Added} (hm : Matches t s) {c : TableCall} (h : c.run t = .ok t') :
    Matches t' (s.step c) := by
  cases c with
  | add r =>
    obtain ⟨hroom, rfl⟩ := addRoute_eq_ok (show addRoute t r.ipAddr r.prefixLen r.macAddr r.port = .ok t' from h)
    have hidx := hm.idx_eq
    refine ⟨by simp [Added.step, hidx], fun k hk => ?_, fun k => ?_, ?_, ?_⟩
    · -- the new route lands in the slot after the pending ones
      dsimp only [Added.step] at hk ⊢
      rw [List.length_append, List.length_singleton] at hk
      rcases Nat.lt_succ_iff_lt_or_eq.mp hk with hk' | rfl
      · rw [Function.update_of_ne (by omega), hm.pending_eq k hk']
        simp [List.getElem_append_left hk']
      · simp [hidx, RouteArgs.info]
    · dsimp only [Added.step]
      by_cases hk : k = t.nhIdToInfoIdx
      · rw [hk, Function.update_self]
        simp only [true_iff, lt_max_iff]
        omega
      · rw [Function.update_of_ne hk, hm.inUse_iff k]
        have := hm.pending_le
        simp only [lt_max_iff]
        omega
    · simp only [Added.step, List.length_append, List.length_singleton]
      exact le_max_right _ _
    · have := hm.highWater_le
      simp only [Added.step, max_le_iff]
      omega
  | build =>
    have hinfo := buildRoutingTable_nhIdToInfo h
    refine ⟨buildRoutingTable_nhIdToInfoIdx h, fun k hk => absurd hk (Nat.not_lt_zero _), fun k => ?_,
      Nat.zero_le _, hm.highWater_le⟩
    rw [hinfo]
    exact hm.inUse_iff k

theorem Matches.runCalls : ∀ (cs : List TableCall) {t t' : Tables} {s : Added}, Matches t s →
    runCalls t cs = .ok t' → Matches t' (cs.foldl Added.step s)
  | [], _, _, _, hm, h => by
    cases h
    exact hm
  | c :: cs, _, _, _, hm, h => by
    obtain ⟨t₁, h₁, hrest⟩ := bind_eq_ok h
    exact Matches.runCalls cs (hm.step h₁) hrest

theorem matches_runCalls {cs : List TableCall} {t : Tables} (h : runCalls Tables.init cs = .ok t) :
    Matches t (added cs) :=
  Matches.runCalls cs matches_init h

/-! What a build and `print_routes` read after a run. -/

/-- `build_routing_table` after any run of calls from program start answers
every address with the longest-prefix match over the routes added since the
previous build only, each in the slot of its position; the routes added
before that build are forgotten. -/
theorem getNextHop_after_calls {cs : List TableCall} {t : Tables}
    (h : runCalls Tables.init (cs ++ [.build]) = .ok t)
    (hzero : ∀ r ∈ (added cs).pending, r.info.prefixLen.toNat = 0 → r.ipAddr.toNat % 2 ^ 8 = 0) :
    (∀ k (hk : k < (added cs).pending.length), t.nhIdToInfo k = (added cs).pending[k].info) ∧
      ∀ a : UInt32, getNextHop t a = bestMatch t.len (Covers t.nhIdToInfo a.toNat) (added cs).pending.length := by
  rw [runCalls_append] at h
  obtain ⟨t₁, hrun, hbuild⟩ := bind_eq_ok h
  obtain ⟨t₂, hb, hret⟩ := bind_eq_ok hbuild
  cases hret
  have hm := matches_runCalls hrun
  have hlen : ∀ k < t₁.nhIdToInfoIdx, k < (added cs).pending.length := fun k hk => hm.idx_eq ▸ hk
  obtain ⟨t', hb', hinfo, -, hget⟩ := getNextHop_buildRoutingTable t₁
    (by have := hm.idx_eq; have := hm.pending_le; have := hm.highWater_le; omega)
    (fun k hk => by rw [Tables.len, hm.pending_eq k (hlen k hk)]; exact RouteArgs.info_prefixLen_le _)
    (fun k hk h0 => by
      rw [Tables.len, hm.pending_eq k (hlen k hk)] at h0
      rw [hm.pending_eq k (hlen k hk)]
      exact hzero _ (List.getElem_mem _) h0)
  rw [show buildRoutingTable t₁ = TableCall.run t₁ .build from rfl, hb] at hb'
  cases hb'
  refine ⟨fun k hk => by rw [hinfo]; exact hm.pending_eq k hk, fun a => ?_⟩
  rw [hget a, hm.idx_eq, len_eq_of_nhIdToInfo hinfo, hinfo]

/-- A route, a build, and a route of another network, then a build: the
first route is forgotten. -/
theorem getNextHop_after_calls_rebuild :
    ∃ t, runCalls Tables.init
        ([.add ⟨0x0a000000, 24, EtherAddr.zero, 1⟩, .build, .add ⟨0x0a010000, 24, EtherAddr.zero, 2⟩] ++ [.build]) =
          .ok t ∧
      (∀ r ∈ (added [.add ⟨0x0a000000, 24, EtherAddr.zero, 1⟩, .build,
          .add ⟨0x0a010000, 24, EtherAddr.zero, 2⟩]).pending,
        r.info.prefixLen.toNat = 0 → r.ipAddr.toNat % 2 ^ 8 = 0) ∧
      (∀ k (hk : k < (added [.add ⟨0x0a000000, 24, EtherAddr.zero, 1⟩, .build,
          .add ⟨0x0a010000, 24, EtherAddr.zero, 2⟩]).pending.length),
        t.nhIdToInfo k = (added [.add ⟨0x0a000000, 24, EtherAddr.zero, 1⟩, .build,
          .add ⟨0x0a010000, 24, EtherAddr.zero, 2⟩]).pending[k].info) ∧
      ∀ a : UInt32, getNextHop t a = bestMatch t.len (Covers t.nhIdToInfo a.toNat)
        (added [.add ⟨0x0a000000, 24, EtherAddr.zero, 1⟩, .build,
          .add ⟨0x0a010000, 24, EtherAddr.zero, 2⟩]).pending.length := by
  have hzero : ∀ r ∈ (added [.add ⟨0x0a000000, 24, EtherAddr.zero, 1⟩, .build,
      .add ⟨0x0a010000, 24, EtherAddr.zero, 2⟩]).pending,
      r.info.prefixLen.toNat = 0 → r.ipAddr.toNat % 2 ^ 8 = 0 := by
    intro r hr h0
    simp only [added, List.foldl, Added.step, List.nil_append, List.mem_singleton] at hr
    subst hr
    simp [RouteArgs.info] at h0
  obtain ⟨t, h⟩ := ok_of_isOk (show (runCalls Tables.init
      ([.add ⟨0x0a000000, 24, EtherAddr.zero, 1⟩, .build, .add ⟨0x0a010000, 24, EtherAddr.zero, 2⟩] ++
        [.build])).isOk = true by decide +kernel)
  exact ⟨t, h, hzero, getNextHop_after_calls h hzero⟩

theorem printRoutesFrom_eq {t : Tables} {hw : ℕ} (huse : ∀ k, (t.nhIdToInfo k).inUse = true ↔ k < hw) :
    ∀ n nhId, nhId ≤ hw → hw < nhId + n →
      printRoutesFrom t n nhId = .ok ((List.range' nhId (hw - nhId)).map t.nhIdToInfo)
  | 0, _, hle, hlt => absurd hlt (by omega)
  | n + 1, nhId, hle, hlt => by
    rw [printRoutesFrom]
    by_cases hk : nhId < hw
    · rw [if_pos ((huse nhId).mpr hk), printRoutesFrom_eq huse n (nhId + 1) hk (by omega), map_ok,
        show hw - nhId = hw - (nhId + 1) + 1 by omega, List.range'_succ, List.map_cons]
    · rw [if_neg fun h => hk ((huse nhId).mp h), show hw - nhId = 0 by omega]
      rfl

/-- For every run of calls from program start, `print_routes` stays inside
`nh_id_to_info`: it prints the routes added since the last build, then the
routes that calls before that build left in use in the slots after them. -/
theorem printRoutes_after_calls {cs : List TableCall} {t : Tables} (h : runCalls Tables.init cs = .ok t) :
    printRoutes t = .ok ((added cs).pending.map RouteArgs.info ++
      (List.range' (added cs).pending.length ((added cs).highWater - (added cs).pending.length)).map
        t.nhIdToInfo) := by
  have hm := matches_runCalls h
  have hlast : (added cs).highWater < 0 + nhIdToInfoSize := by
    have := hm.highWater_le
    simp only [invalidNhId, nhIdToInfoSize] at this ⊢
    omega
  rw [printRoutes, printRoutesFrom_eq hm.inUse_iff nhIdToInfoSize 0 (Nat.zero_le _) hlast, Nat.sub_zero,
    ← Nat.add_sub_cancel' hm.pending_le, ← List.range'_append, List.map_append, Nat.add_sub_cancel' hm.pending_le,
    Nat.one_mul, Nat.zero_add]
  congr 2
  refine List.ext_getElem (by simp) fun i h₁ h₂ => ?_
  simp only [List.length_map, List.length_range'] at h₁
  rw [List.getElem_map, List.getElem_range', List.getElem_map, Nat.one_mul, Nat.zero_add, hm.pending_eq i h₁]

/-- Two routes, a build and one route: `print_routes` prints the new route,
then the second route of before the build. -/
theorem printRoutes_after_calls_stale :
    ∃ t, runCalls Tables.init [.add ⟨0x0a000000, 24, EtherAddr.zero, 1⟩, .add ⟨0x0a010000, 24, EtherAddr.zero, 2⟩,
        .build, .add ⟨0x0a020000, 24, EtherAddr.zero, 3⟩] = .ok t ∧
      printRoutes t = .ok ((added [.add ⟨0x0a000000, 24, EtherAddr.zero, 1⟩,
          .add ⟨0x0a010000, 24, EtherAddr.zero, 2⟩, .build, .add ⟨0x0a020000, 24, EtherAddr.zero, 3⟩]).pending.map
          RouteArgs.info ++
        (List.range' (added [.add ⟨0x0a000000, 24, EtherAddr.zero, 1⟩, .add ⟨0x0a010000, 24, EtherAddr.zero, 2⟩,
            .build, .add ⟨0x0a020000, 24, EtherAddr.zero, 3⟩]).pending.length
          ((added [.add ⟨0x0a000000, 24, EtherAddr.zero, 1⟩, .add ⟨0x0a010000, 24, EtherAddr.zero, 2⟩,
            .build, .add ⟨0x0a020000, 24, EtherAddr.zero, 3⟩]).highWater -
            (added [.add ⟨0x0a000000, 24, EtherAddr.zero, 1⟩, .add ⟨0x0a010000, 24, EtherAddr.zero, 2⟩,
              .build, .add ⟨0x0a020000, 24, EtherAddr.zero, 3⟩]).pending.length)).map t.nhIdToInfo) := by
  obtain ⟨t, h⟩ := ok_of_isOk (show (runCalls Tables.init [.add ⟨0x0a000000, 24, EtherAddr.zero, 1⟩,
      .add ⟨0x0a010000, 24, EtherAddr.zero, 2⟩, .build, .add ⟨0x0a020000, 24, EtherAddr.zero, 3⟩]).isOk = true by
    decide +kernel)
  exact ⟨t, h, printRoutes_after_calls h⟩

end DpdkRouter.RoutingTable
