import DpdkRouter.DummyRoutingTable
import DpdkRouter.RoutingTableCorrect

/-!
The reference table against the DIR-24-8 table. After `add_route_dummy` of
each route in order (`addRoutesDummy`) the list is sorted by decreasing
prefix length and holds one entry per route, so its first hit is a longest
hit. For a prefix of 1 to 32 bits and a route address without host bits,
the mask test of `get_next_hop_dummy` is the prefix test (`dummyHit_iff`).
When moreover no two routes share prefix and network, the longest hit is
unique, and both tables answer every address with the same next hop
(`getNextHopDummy_agrees`).

Outside these conditions they differ: the mask test compares with the route
address as given, which a route with host bits never equals, and a prefix-0
route masks with all ones.
-/

namespace DpdkRouter.DummyRoutingTable

open PrefixMatch Bits RoutingTable

/-- The entry `add_route_dummy` makes from the arguments of a route. -/
def entryOf (r : RouteArgs) : RouteEntry := ⟨⟨r.ipAddr, r.prefixLen⟩, r.macAddr, r.port⟩

/-- `add_route_dummy` once per route, in order. -/
def addRoutesDummy (rtEnts : List RouteEntry) : List RouteArgs → List RouteEntry
  | [] => rtEnts
  | r :: rs => addRoutesDummy (addRouteDummy rtEnts r.ipAddr r.prefixLen r.macAddr r.port) rs

/-- The prefix length of an entry. -/
def cidrLen (e : RouteEntry) : ℕ := e.dest.cidr.toNat

/-! The list. -/

theorem sortedDesc_addRouteDummy {rtEnts : List RouteEntry} (h : SortedDesc cidrLen rtEnts)
    (addr : UInt32) (cidr : UInt8) (mac : EtherAddr) (port : UInt8) :
    SortedDesc cidrLen (addRouteDummy rtEnts addr cidr mac port) :=
  sortedDesc_insertIdx_findIdx h fun _ => by simp [cidrLen, UInt8.lt_iff_toNat_lt]

theorem mem_addRouteDummy {rtEnts : List RouteEntry} {e : RouteEntry} {addr : UInt32} {cidr : UInt8}
    {mac : EtherAddr} {port : UInt8} :
    e ∈ addRouteDummy rtEnts addr cidr mac port ↔ e = ⟨⟨addr, cidr⟩, mac, port⟩ ∨ e ∈ rtEnts := by
  rw [addRouteDummy, (List.perm_insertIdx _ _ List.findIdx_le_length).mem_iff, List.mem_cons]

/-- Adding routes keeps the list sorted and adds one entry per route. -/
theorem addRoutesDummy_spec (rs : List RouteArgs) {rtEnts : List RouteEntry}
    (h : SortedDesc cidrLen rtEnts) :
    SortedDesc cidrLen (addRoutesDummy rtEnts rs) ∧
      ∀ e, e ∈ addRoutesDummy rtEnts rs ↔ e ∈ rtEnts ∨ ∃ r ∈ rs, e = entryOf r := by
  induction rs generalizing rtEnts with
  | nil => simp [addRoutesDummy, h]
  | cons r rs ih =>
    obtain ⟨hs, hmem⟩ := ih (sortedDesc_addRouteDummy h r.ipAddr r.prefixLen r.macAddr r.port)
    refine ⟨hs, fun e => ?_⟩
    rw [addRoutesDummy, hmem, mem_addRouteDummy]
    simp only [List.mem_cons, exists_eq_or_imp, entryOf]
    tauto

/-! The mask test. -/

theorem subnetMask_toNat {c : UInt8} (h1 : 1 ≤ c.toNat) (h32 : c.toNat ≤ 32) :
    (subnetMask c).toNat = (2 ^ c.toNat - 1) * 2 ^ (32 - c.toNat) := by
  have hall : ∀ n < 33, 1 ≤ n → (subnetMask (UInt8.ofNat n)).toNat = (2 ^ n - 1) * 2 ^ (32 - n) := by
    decide
  have h := hall c.toNat (by omega) h1
  rwa [UInt8.ofNat_toNat] at h

/-- For a prefix of 1 to 32 bits and a route address without host bits, the
mask test of `get_next_hop_dummy` is the prefix test. -/
theorem dummyHit_iff (a : UInt32) {e : RouteEntry} (h1 : 1 ≤ cidrLen e) (h32 : cidrLen e ≤ 32)
    (hhost : e.dest.addr.toNat % 2 ^ (32 - cidrLen e) = 0) :
    ((a &&& subnetMask e.dest.cidr) == e.dest.addr) = true ↔
      Matches 32 (cidrLen e) e.dest.addr.toNat a.toNat := by
  unfold cidrLen at *
  have hmask : (subnetMask e.dest.cidr).toNat =
      (2 ^ (32 - (32 - e.dest.cidr.toNat)) - 1) * 2 ^ (32 - e.dest.cidr.toNat) := by
    rw [subnetMask_toNat h1 h32, show 32 - (32 - e.dest.cidr.toNat) = e.dest.cidr.toNat by omega]
  have hpos : 0 < 2 ^ (32 - e.dest.cidr.toNat) := Nat.two_pow_pos _
  have haddr : e.dest.addr.toNat / 2 ^ (32 - e.dest.cidr.toNat) * 2 ^ (32 - e.dest.cidr.toNat) =
      e.dest.addr.toNat := Nat.div_mul_cancel (Nat.dvd_of_mod_eq_zero hhost)
  rw [beq_iff_eq, ← UInt32.toNat_inj, UInt32.toNat_and, hmask, and_high_mask a.toNat_lt (by omega), Matches]
  constructor
  · intro h
    exact (Nat.mul_left_inj hpos.ne').mp (h.trans haddr.symm)
  · intro h
    rw [h, haddr]

/-! Agreement. -/

theorem info_prefixLen_of_le {r : RouteArgs} (h : r.prefixLen.toNat ≤ 32) : r.info.prefixLen = r.prefixLen := by
  rw [RouteArgs.info, if_pos (UInt8.le_iff_toNat_le.mpr h)]

/-- Both tables get the same routes, in the same order, each of a prefix of 1
to 32 bits and without host bits, and no two with the same prefix and
network. Then for every address the reference table and the DIR-24-8 table
give the same next hop, or both none. -/
theorem getNextHopDummy_agrees (rs : List RouteArgs) (hlen : rs.length ≤ invalidNhId)
    (hpfx : ∀ r ∈ rs, 1 ≤ r.prefixLen.toNat ∧ r.prefixLen.toNat ≤ 32)
    (hhost : ∀ r ∈ rs, r.ipAddr.toNat % 2 ^ (32 - r.prefixLen.toNat) = 0)
    (hdist : ∀ i j (hi : i < rs.length) (hj : j < rs.length), rs[i].prefixLen = rs[j].prefixLen →
      Matches 32 rs[i].prefixLen.toNat rs[i].ipAddr.toNat rs[j].ipAddr.toNat → i = j) :
    ∃ t, (addRoutes Tables.init rs >>= buildRoutingTable) = .ok t ∧
      ∀ a : UInt32, (getNextHopDummy (addRoutesDummy [] rs) a).map (fun e => (e.dstMac, e.dstPort)) =
        (getNextHop t a).map fun k => ((t.nhIdToInfo k).nextHop.dstMac, (t.nhIdToInfo k).nextHop.dstPort) := by
  obtain ⟨t, hrun, hinfo, hget⟩ := getNextHop_addRoutes rs hlen fun r hr h0 => by
    rw [info_prefixLen_of_le (hpfx r hr).2] at h0
    exact absurd (hpfx r hr).1 (by omega)
  obtain ⟨hsorted, hmem⟩ := addRoutesDummy_spec rs (List.Pairwise.nil : SortedDesc cidrLen [])
  have hin : ∀ k (hk : k < rs.length), entryOf rs[k] ∈ addRoutesDummy [] rs := fun k hk =>
    (hmem _).mpr (Or.inr ⟨_, List.getElem_mem hk, rfl⟩)
  refine ⟨t, hrun, fun a => ?_⟩
  -- route `k` covers `a` in the DIR-24-8 table exactly when its entry passes the mask test
  have hcov : ∀ k (hk : k < rs.length), Covers t.nhIdToInfo a.toNat k ↔
      ((a &&& subnetMask (entryOf rs[k]).dest.cidr) == (entryOf rs[k]).dest.addr) = true := by
    intro k hk
    have hr := List.getElem_mem hk
    rw [Covers, hinfo k hk, @dummyHit_iff a (entryOf rs[k]) (hpfx _ hr).1 (hpfx _ hr).2 (hhost _ hr), RouteHit,
      info_prefixLen_of_le (hpfx _ hr).2]
    exact ⟨fun h => h.2, fun h => ⟨rfl, h⟩⟩
  rw [hget a]
  cases hd : getNextHopDummy (addRoutesDummy [] rs) a with
  | none =>
    -- no entry passes the test, so no route covers `a`
    rw [bestMatch_eq_none_iff.mpr fun j hj hc => ?_]
    · rfl
    · have hno := List.find?_eq_none.mp hd _ (hin j hj)
      rw [(hcov j hj).mp hc] at hno
      exact hno rfl
  | some e =>
    obtain ⟨k, hk, rfl⟩ : ∃ k, ∃ hk : k < rs.length, e = entryOf rs[k] := by
      obtain ⟨r, hr, rfl⟩ := ((hmem e).mp (List.mem_of_find?_eq_some hd)).resolve_left List.not_mem_nil
      obtain ⟨k, hk, rfl⟩ := List.mem_iff_getElem.mp hr
      exact ⟨k, hk, rfl⟩
    have hhit := List.find?_some hd
    have hbest : IsBest t.len (Covers t.nhIdToInfo a.toNat) rs.length k := by
      refine ⟨hk, (hcov k hk).mpr hhit, fun j hj hc => ?_⟩
      have hle := hsorted.key_le_of_find? hd _ (hin j hj) ((hcov j hj).mp hc)
      have hrj := List.getElem_mem hj
      have hrk := List.getElem_mem hk
      dsimp only [cidrLen, entryOf] at hle
      rw [Tables.len, Tables.len, hinfo j hj, hinfo k hk, info_prefixLen_of_le (hpfx _ hrj).2,
        info_prefixLen_of_le (hpfx _ hrk).2]
      rcases Nat.lt_or_eq_of_le hle with hlt | heq
      · exact Or.inl hlt
      · -- equally long hits share their network, so they are one route
        have hmj := ((hcov j hj).trans
          (@dummyHit_iff a (entryOf rs[j]) (hpfx _ hrj).1 (hpfx _ hrj).2 (hhost _ hrj))).mp hc
        have hmk := (@dummyHit_iff a (entryOf rs[k]) (hpfx _ hrk).1 (hpfx _ hrk).2 (hhost _ hrk)).mp hhit
        dsimp only [cidrLen, entryOf, Matches] at hmj hmk
        rw [← heq] at hmk
        have hjk := hdist j k hj hk (UInt8.toNat_inj.mp heq) (hmk.symm.trans hmj)
        exact Or.inr ⟨heq, hjk.le⟩
    rw [bestMatch_eq_some_iff.mpr hbest, Option.map_some, Option.map_some, hinfo k hk]
    rfl

theorem getNextHopDummy_agrees_four_routes :
    let rs : List RouteArgs :=
      [⟨0x0a010000, 16, ⟨#v[2, 2, 2, 2, 2, 2]⟩, 2⟩, ⟨0x0a000000, 8, ⟨#v[1, 1, 1, 1, 1, 1]⟩, 1⟩,
        ⟨0x0a010280, 25, ⟨#v[4, 4, 4, 4, 4, 4]⟩, 4⟩, ⟨0x0a010200, 24, ⟨#v[3, 3, 3, 3, 3, 3]⟩, 3⟩]
    ∃ t, (addRoutes Tables.init rs >>= buildRoutingTable) = .ok t ∧
      ∀ a : UInt32, (getNextHopDummy (addRoutesDummy [] rs) a).map (fun e => (e.dstMac, e.dstPort)) =
        (getNextHop t a).map fun k => ((t.nhIdToInfo k).nextHop.dstMac, (t.nhIdToInfo k).nextHop.dstPort) := by
  intro rs
  have hnd : (rs.map RouteArgs.prefixLen).Nodup := by decide
  refine getNextHopDummy_agrees rs (by decide) (by decide) (by decide) fun i j hi hj hpl _ => ?_
  exact (@List.Nodup.getElem_inj_iff _ _ hnd i (by simpa using hi) j (by simpa using hj)).mp (by simpa using hpl)

/-- The route `10.0.0.5/24`, whose address has host bits: the DIR-24-8
table sends `10.0.0.1` along it, the reference table has no route for it. -/
theorem getNextHopDummy_host_bits :
    getNextHopDummy (addRoutesDummy [] [⟨0x0a000005, 24, EtherAddr.zero, 0⟩]) 0x0a000001 = none ∧
      ∃ t, (addRoutes Tables.init [⟨0x0a000005, 24, EtherAddr.zero, 0⟩] >>= buildRoutingTable) = .ok t ∧
        getNextHop t 0x0a000001 = some 0 := by
  refine ⟨by decide, ?_⟩
  obtain ⟨t, hrun, hinfo, hget⟩ :=
    getNextHop_addRoutes [⟨0x0a000005, 24, EtherAddr.zero, 0⟩] (by decide) (by decide)
  have hcov : Covers t.nhIdToInfo (0x0a000001 : UInt32).toNat 0 := by
    rw [Covers, hinfo 0 (by decide)]
    decide
  refine ⟨t, hrun, ?_⟩
  rw [hget, List.length_singleton, bestMatch_succ, if_pos hcov, bestMatch_zero]
  rfl

/-- The default route `0.0.0.0/0`: the DIR-24-8 table sends `1.2.3.4` along
it, the reference table, whose mask for prefix 0 is all ones, has no route
for it. -/
theorem getNextHopDummy_default_route :
    getNextHopDummy (addRoutesDummy [] [⟨0, 0, EtherAddr.zero, 0⟩]) 0x01020304 = none ∧
      ∃ t, (addRoutes Tables.init [⟨0, 0, EtherAddr.zero, 0⟩] >>= buildRoutingTable) = .ok t ∧
        getNextHop t 0x01020304 = some 0 := by
  refine ⟨by decide, ?_⟩
  obtain ⟨t, hrun, hinfo, hget⟩ := getNextHop_addRoutes [⟨0, 0, EtherAddr.zero, 0⟩] (by decide) (by decide)
  have hcov : Covers t.nhIdToInfo (0x01020304 : UInt32).toNat 0 := by
    rw [Covers, hinfo 0 (by decide)]
    decide
  refine ⟨t, hrun, ?_⟩
  rw [hget, List.length_singleton, bestMatch_succ, if_pos hcov, bestMatch_zero]
  rfl

end DpdkRouter.DummyRoutingTable
