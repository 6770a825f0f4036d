import DpdkRouter.Basic
import DpdkRouter.Loop

/-!
The DIR-24-8 routing table of `routing_table.c`. The static arrays
`tbl24_table`, `tbllong_table` and `nh_id_to_info` are functions on indices,
and the two counters are natural numbers. A `tbl24_entry` is the union of a
15-bit `next_id`, a 1-bit `is_long` flag and their 16-bit `val`, with
`next_id` in the low bits as GCC lays out the bitfields on x86.

Addresses are `UInt32`, whose shifts take the count modulo 32 as the x86
shift instructions do; this fixes the meaning of `ip >> (32 - prefix)` at
prefix 0, where C leaves a shift by 32 undefined. Builders return
`Except Fault`: an index of `tbl24_table` or `tbllong_table` that the code
computes and that may leave the array is checked, and leaving it is
`Fault.outOfBounds`. A pointer returned by `get_next_hop` is the index of
the `nh_id_to_info` slot whose `next_hop` it points to.
-/

namespace DpdkRouter.RoutingTable

open ForLoop

def tblPrefixLen : ℕ := 24
def tbl24TableSize : ℕ := 2 ^ tblPrefixLen
def tbllongEntrySize : ℕ := 2 ^ (32 - tblPrefixLen)
def tbllongTableSize : ℕ := 255
def nhIdToInfoSize : ℕ := 2 ^ 8
def invalidNhId : ℕ := nhIdToInfoSize - 1

/-- `struct routing_table_entry`. -/
structure RoutingTableEntry where
  dstMac : EtherAddr
  dstPort : UInt8
  deriving DecidableEq, Repr

/-- `next_hop_info`; the C field `prefix` is `prefixLen` here. -/
structure NextHopInfo where
  ipAddr : UInt32
  prefixLen : UInt8
  nextHop : RoutingTableEntry
  inUse : Bool
  deriving DecidableEq, Repr

/-- `tbl24_entry`. -/
structure Tbl24Entry where
  nextId : BitVec 15
  isLong : Bool
  deriving DecidableEq, Repr

/-- The `val` member of the union. -/
def Tbl24Entry.val (e : Tbl24Entry) : ℕ := e.nextId.toNat + if e.isLong then 2 ^ 15 else 0

/-- The entry whose `val` is `INVALID_NH_ID`. -/
def invalidEntry : Tbl24Entry := ⟨BitVec.ofNat 15 invalidNhId, false⟩

/-- The static state of `routing_table.c`. -/
@[ext]
structure Tables where
  tbl24Table : ℕ → Tbl24Entry
  tbllongTable : ℕ → ℕ → ℕ
  tbllongTableIdx : ℕ
  nhIdToInfo : ℕ → NextHopInfo
  nhIdToInfoIdx : ℕ

/-- Zero-initialised statics at program start. -/
def Tables.init : Tables where
  tbl24Table := fun _ => ⟨0, false⟩
  tbllongTable := fun _ _ => 0
  tbllongTableIdx := 0
  nhIdToInfo := fun _ => ⟨0, 0, ⟨EtherAddr.zero, 0⟩, false⟩
  nhIdToInfoIdx := 0

def Tables.setTbl24 (t : Tables) (idx : ℕ) (e : Tbl24Entry) : Tables :=
  { t with tbl24Table := Function.update t.tbl24Table idx e }

def Tables.setLong (t : Tables) (b i v : ℕ) : Tables :=
  { t with tbllongTable := Function.update t.tbllongTable b (Function.update (t.tbllongTable b) i v) }

def addRoute (t : Tables) (ipAddr : UInt32) (pfx : UInt8) (macAddr : EtherAddr) (port : UInt8) :
    Except Fault Tables :=
  if t.nhIdToInfoIdx ≥ invalidNhId then .error (.exit "ERROR: cannot add any more routes!\n")
  else .ok { t with
    nhIdToInfo := Function.update t.nhIdToInfo t.nhIdToInfoIdx
      { ipAddr := ipAddr
        prefixLen := if pfx ≤ 32 then pfx else 32
        nextHop := ⟨macAddr, port⟩
        inUse := true }
    nhIdToInfoIdx := t.nhIdToInfoIdx + 1 }

/-- The replacement rule of the `tbllong` loops: a slot that is unused, or
used by a destination prefix no longer than `nhId`'s, is taken by `nhId`. -/
def replaceId (info : ℕ → NextHopInfo) (cur nhId : ℕ) : ℕ :=
  if cur = invalidNhId then nhId
  else if (info cur).prefixLen ≤ (info nhId).prefixLen then nhId else cur

/-- The loop shared by `_build_route_lte_24_long_idx` (over the whole block)
and `_build_route_gt_24_long_idx` (over `min_i..max_i`). -/
def replaceLongRange (t : Tables) (nhId longIdx lo n : ℕ) : Except Fault Tables :=
  if longIdx < tbllongTableSize then
    forRange (fun i t => .ok (t.setLong longIdx i
      (replaceId t.nhIdToInfo (t.tbllongTable longIdx i) nhId))) lo n t
  else .error .outOfBounds

def buildRouteLte24LongIdx (t : Tables) (nhId longIdx : ℕ) : Except Fault Tables :=
  replaceLongRange t nhId longIdx 0 tbllongEntrySize

def buildRouteLte24Idx (t : Tables) (nhId idx : ℕ) : Except Fault Tables :=
  if idx < tbl24TableSize then
    let e := t.tbl24Table idx
    if e.val = invalidNhId then
      .ok (t.setTbl24 idx { e with nextId := BitVec.ofNat 15 nhId, isLong := false })
    else if !e.isLong then
      if (t.nhIdToInfo e.nextId.toNat).prefixLen ≤ (t.nhIdToInfo nhId).prefixLen then
        .ok (t.setTbl24 idx { e with nextId := BitVec.ofNat 15 nhId })
      else .ok t
    else buildRouteLte24LongIdx t nhId e.nextId.toNat
  else .error .outOfBounds

/-- `min_index` of `_build_route_lte_24`. -/
def lte24MinIndex (info : NextHopInfo) : UInt32 :=
  (info.ipAddr >>> (32 - info.prefixLen.toUInt32)) <<< (24 - info.prefixLen.toUInt32)

/-- `max_index` of `_build_route_lte_24`. -/
def lte24MaxIndex (info : NextHopInfo) : UInt32 :=
  lte24MinIndex info ||| (((1 : UInt32) <<< (24 - info.prefixLen.toUInt32)) - 1)

def buildRouteLte24 (t : Tables) (nhId : ℕ) : Except Fault Tables :=
  let info := t.nhIdToInfo nhId
  let lo := (lte24MinIndex info).toNat
  forRange (fun idx t => buildRouteLte24Idx t nhId idx) lo
    ((lte24MaxIndex info).toNat + 1 - lo) t

/-- `min_i` of `_build_route_gt_24_long_idx` and `_build_route_gt_24_idx`. -/
def gt24MinI (info : NextHopInfo) : UInt32 :=
  (info.ipAddr &&& (((1 : UInt32) <<< (32 - 24 : UInt32)) - 1)) &&&
    ~~~(((1 : UInt32) <<< (32 - info.prefixLen.toUInt32)) - 1)

/-- `max_i` of `_build_route_gt_24_long_idx` and `_build_route_gt_24_idx`. -/
def gt24MaxI (info : NextHopInfo) : UInt32 :=
  gt24MinI info ||| (((1 : UInt32) <<< (32 - info.prefixLen.toUInt32)) - 1)

def buildRouteGt24LongIdx (t : Tables) (nhId longIdx : ℕ) : Except Fault Tables :=
  let info := t.nhIdToInfo nhId
  let lo := (gt24MinI info).toNat
  replaceLongRange t nhId longIdx lo ((gt24MaxI info).toNat + 1 - lo)

def buildRouteGt24Idx (t : Tables) (nhId idx : ℕ) : Except Fault Tables :=
  if t.tbllongTableIdx ≥ tbllongTableSize then
    .error (.exit "ERROR: tbllong table size is exceeded!\n")
  else
    let nextId := BitVec.ofNat 15 t.tbllongTableIdx
    let longIdx := nextId.toNat
    let t := ({ t with tbllongTableIdx := t.tbllongTableIdx + 1 }).setTbl24 idx
      { t.tbl24Table idx with nextId := nextId, isLong := true }
    let info := t.nhIdToInfo nhId
    let lo := (gt24MinI info).toNat
    forRange (fun i t => .ok (t.setLong longIdx i nhId)) lo ((gt24MaxI info).toNat + 1 - lo) t

def buildRouteGt24 (t : Tables) (nhId : ℕ) : Except Fault Tables :=
  let idx := ((t.nhIdToInfo nhId).ipAddr >>> (32 - 24 : UInt32)).toNat
  let e := t.tbl24Table idx
  if e.val = invalidNhId then buildRouteGt24Idx t nhId idx
  else if !e.isLong then do
    let t ← buildRouteGt24Idx t nhId idx
    buildRouteLte24LongIdx t e.nextId.toNat (t.tbl24Table idx).nextId.toNat
  else buildRouteGt24LongIdx t nhId e.nextId.toNat

/-- One iteration of the route loop of `build_routing_table`. -/
def buildRoute (nhId : ℕ) (t : Tables) : Except Fault Tables :=
  let info := t.nhIdToInfo nhId
  if !info.inUse then .ok t
  else if info.prefixLen.toNat ≤ tblPrefixLen then buildRouteLte24 t nhId
  else buildRouteGt24 t nhId

/-- `build_routing_table`; the two reset loops are written as the constant
arrays they leave behind. -/
def buildRoutingTable (t : Tables) : Except Fault Tables := do
  let t := { t with
    tbllongTableIdx := 0
    tbl24Table := fun _ => invalidEntry
    tbllongTable := fun _ _ => invalidNhId }
  let t ← forRange buildRoute 0 t.nhIdToInfoIdx t
  return { t with nhIdToInfoIdx := 0 }

def getNextHop (t : Tables) (ip : UInt32) : Option ℕ :=
  let idx := (ip >>> (32 - 24 : UInt32)).toNat
  let e := t.tbl24Table idx
  if e.val = invalidNhId then none
  else if !e.isLong then some e.nextId.toNat
  else
    let entIdx := (ip &&& (((1 : UInt32) <<< (32 - 24 : UInt32)) - 1)).toNat
    let nhId := t.tbllongTable e.nextId.toNat entIdx
    if nhId = invalidNhId then none else some nhId

/-- The loop of `print_routes` from slot `nhId`, with `n` slots of
`nh_id_to_info` left after it: the routes it prints, up to the first slot
not in use, or leaving the array. -/
def printRoutesFrom (t : Tables) : ℕ → ℕ → Except Fault (List NextHopInfo)
  | 0, _ => .error .outOfBounds
  | n + 1, nhId =>
    if (t.nhIdToInfo nhId).inUse then (printRoutesFrom t n (nhId + 1)).map (t.nhIdToInfo nhId :: ·)
    else .ok []

def printRoutes (t : Tables) : Except Fault (List NextHopInfo) := printRoutesFrom t nhIdToInfoSize 0

end DpdkRouter.RoutingTable
