import DpdkRouter.RoutingTableCorrect

/-!
`add_route` and `build_routing_table` called in any order. `get_next_hop`
hands back a pointer into `nh_id_to_info`, and `answer` reads it. An
`add_route` call never changes where a lookup points: it fills the slot
`nh_id_to_info_idx` and moves the counter on (`addRoutes_eq_ok`). It does
change what a lookup reads, at every address that points into the slot it
fills (`answer_addRoutes`). Two situations lead there. At program start the
zero-initialised `tbl24_table` points every address at slot 0, so the first
`add_route` answers every address with its route. `build_routing_table`
resets the counter to 0, so the next `add_route` overwrites slot 0, which
the built table may point to.
-/

namespace DpdkRouter.RoutingTable

open ForLoop PrefixMatch

/-- What `get_next_hop(ip)` hands back, read through its pointer: `NULL`, or
the `next_hop` of the slot it points to. -/
def answer (t : Tables) (ip : UInt32) : Option RoutingTableEntry :=
  (getNextHop t ip).map fun k => (t.nhIdToInfo k).nextHop

/-- `get_next_hop` reads `tbl24_table` and `tbllong_table` only. -/
theorem getNextHop_congr {t t' : Tables} (h24 : t'.tbl24Table = t.tbl24Table)
    (hlong : t'.tbllongTable = t.tbllongTable) : getNextHop t' = getNextHop t := by
  funext ip
  unfold getNextHop
  rw [h24, hlong]

/-! `add_route`. -/

/-- After a run of `add_route` calls, every lookup points where it did; it
reads route `i` of the run where it points at the `i`-th slot the run
filled, and what it read before everywhere else. -/
theorem answer_addRoutes {rs : List RouteArgs} {t t' : Tables} (h : addRoutes t rs = .ok t') (a : UInt32) :
    getNextHop t' a = getNextHop t a ∧
      (∀ i (hi : i < rs.length), getNextHop t a = some (t.nhIdToInfoIdx + i) →
        answer t' a = some rs[i].info.nextHop) ∧
      ((∀ k, getNextHop t a = some k → k < t.nhIdToInfoIdx ∨ t.nhIdToInfoIdx + rs.length ≤ k) →
        answer t' a = answer t a) := by
  obtain ⟨-, h24, hlong, hkeep, hnew⟩ := addRoutes_eq_ok h
  have hget := getNextHop_congr h24 hlong
  refine ⟨by rw [hget], fun i hi hk => ?_, fun hout => ?_⟩
  · rw [answer, hget, hk, Option.map_some, hnew i hi]
  · unfold answer
    rw [hget]
    cases hk : getNextHop t a with
    | none => rfl
    | some k => rw [Option.map_some, Option.map_some, hkeep k (hout k hk)]

/-! Program start and `build_routing_table`. -/

/-- At program start every address points at slot 0. -/
theorem getNextHop_init (a : UInt32) : getNextHop Tables.init a = some 0 := by
  rw [getNextHop_eq_slot]
  simp [Tables.slot, Tables.init, ofId, invalidNhId, nhIdToInfoSize]

theorem answer_init (a : UInt32) : answer Tables.init a = some ⟨EtherAddr.zero, 0⟩ := by
  rw [answer, getNextHop_init]
  rfl

/-- `build_routing_table` leaves the counter of `nh_id_to_info` at 0. -/
theorem buildRoutingTable_nhIdToInfoIdx {t t' : Tables} (h : buildRoutingTable t = .ok t') :
    t'.nhIdToInfoIdx = 0 := by
  unfold buildRoutingTable at h
  obtain ⟨t₁, -, hret⟩ := bind_eq_ok h
  cases hret
  rfl

/-- One host route `ip/32` added from program start and built: `ip` points
at its slot 0 and reads it. -/
theorem answer_build_host_route (ip : UInt32) (mac : EtherAddr) (port : UInt8) :
    ∃ t, (addRoutes Tables.init [⟨ip, 32, mac, port⟩] >>= buildRoutingTable) = .ok t ∧
      t.nhIdToInfoIdx = 0 ∧ getNextHop t ip = some 0 ∧ answer t ip = some ⟨mac, port⟩ := by
  obtain ⟨t, hbuilt, hinfo, hget⟩ := getNextHop_addRoutes [⟨ip, 32, mac, port⟩] (by simp [invalidNhId, nhIdToInfoSize])
    (fun r hr h0 => by rw [List.mem_singleton.mp hr] at h0; simp [RouteArgs.info] at h0)
  have hslot : t.nhIdToInfo 0 = (⟨ip, 32, mac, port⟩ : RouteArgs).info := hinfo 0 (by simp)
  -- the one route covers its own address, so the scan over slot 0 picks it
  have hcov : Covers t.nhIdToInfo ip.toNat 0 := by
    rw [Covers, hslot]
    exact ⟨rfl, rfl⟩
  have h0 : getNextHop t ip = some 0 := by
    rw [hget, List.length_singleton, bestMatch, if_pos hcov, bestMatch]
    rfl
  obtain ⟨t₁, -, hbuild⟩ := bind_eq_ok hbuilt
  refine ⟨t, hbuilt, buildRoutingTable_nhIdToInfoIdx hbuild, h0, ?_⟩
  rw [answer, h0, Option.map_some, hslot]
  rfl

/-- `get_next_hop` is not `NULL` before the first `build_routing_table`, and
`add_route` changes what it reads. At program start every address reads
the zeroed slot 0. One `add_route` makes every address read the new route.
After a build, the next `add_route` overwrites slot 0: a host route built
from program start answers its address with its own next hop, and any
route added next takes over that answer. -/
theorem answer_changes_without_build :
    (∀ a, answer Tables.init a = some ⟨EtherAddr.zero, 0⟩) ∧
      (∀ (r : RouteArgs) a, ∃ t, addRoutes Tables.init [r] = .ok t ∧
        answer t a = some ⟨r.macAddr, r.port⟩) ∧
      ∀ (ip : UInt32) (mac : EtherAddr) (port : UInt8) (r : RouteArgs), ∃ t t',
        (addRoutes Tables.init [⟨ip, 32, mac, port⟩] >>= buildRoutingTable) = .ok t ∧
          answer t ip = some ⟨mac, port⟩ ∧ addRoutes t [r] = .ok t' ∧
          answer t' ip = some ⟨r.macAddr, r.port⟩ := by
  refine ⟨answer_init, fun r a => ?_, fun ip mac port r => ?_⟩
  · obtain ⟨t, hadd, -⟩ := addRoutes_spec [r] Tables.init
      (by simp [Tables.init, invalidNhId, nhIdToInfoSize])
    exact ⟨t, hadd, (answer_addRoutes hadd a).2.1 0 (by simp) (getNextHop_init a)⟩
  · -- the build leaves the counter at 0, so `r` lands in the slot `ip` reads
    obtain ⟨t, hbuilt, hidx, h0, hans⟩ := answer_build_host_route ip mac port
    obtain ⟨t', hadd, -⟩ := addRoutes_spec [r] t (by simp [hidx, invalidNhId, nhIdToInfoSize])
    refine ⟨t, t', hbuilt, hans, hadd, ?_⟩
    exact (answer_addRoutes hadd ip).2.1 0 (by simp) (by rw [hidx, h0])

end DpdkRouter.RoutingTable
