import DpdkRouter.RouterSetup
import DpdkRouter.RouterSpec

/-!
What `start_router` sets up, and what the threads it launches do with it.
The loop over the interfaces keeps `SetupInv`: thread `k` has `q_id = k` and
`worker_count = thr_count`, every interface dealt to a thread has its port
started with `thr_count` queues, no port is started twice and none is dealt
to two threads. A pass of a thread makes only the calls `ThreadCall` allows:
it receives from the ports of its interfaces, below its worker count, and
transmits on its own queue, to the port of one of its interfaces or to the
port of a route. `parse_option_r` checks a route's port only against
`0..255`, so the last kind of call can name a port `start_router` never
configured.
-/

namespace DpdkRouter.Router

open ForLoop Rte RoutingTable

theorem checkDpdkError_eq_ok {rc : Option EthError} {operation : String} :
    checkDpdkError rc operation = .ok () ↔ rc = none := by
  cases rc with
  | none => exact ⟨fun _ => rfl, fun _ => rfl⟩
  | some err => exact ⟨nofun, nofun⟩

theorem rteEthDevConfigure_eq_none {ports : Ports} {started : List UInt8} {p : UInt8} {a b : UInt16} :
    rteEthDevConfigure ports started p a b = none ↔
      p.toNat < ports.count ∧ a.toNat ≤ maxQueuesPerPort ∧ b.toNat ≤ maxQueuesPerPort ∧ p ∉ started ∧
        ¬(a = 0 ∧ b = 0) ∧ a ≤ ports.maxRxQueues p ∧ b ≤ ports.maxTxQueues p ∧ ports.configure p a b = none := by
  unfold rteEthDevConfigure
  split_ifs <;> simp_all [UInt16.not_lt]

/-- `configure_device` succeeds exactly on a port not started yet that the
ports accept, and records it as started. -/
theorem configureDevice_eq_ok {ports : Ports} {started started' : List (UInt8 × UInt16)} {p : UInt8}
    {n : UInt16} :
    configureDevice ports started p n = .ok started' ↔
      p ∉ started.map Prod.fst ∧ Accepts ports p n ∧ started' = started ++ [(p, n)] := by
  simp only [configureDevice, bind_unit_eq_ok_iff, checkDpdkError_eq_ok, rteEthDevConfigure_eq_none,
    forRange_unit_eq_ok_iff, Nat.zero_le, Nat.zero_add, true_implies, and_self]
  constructor
  · rintro ⟨⟨hcount, hmax, -, hfree, hzero, hrx, htx, hconf⟩, hqueues, hstart, hok⟩
    exact ⟨hfree, ⟨hcount, hzero, hmax, hrx, htx, hconf, hqueues, hstart⟩, (Except.ok.inj hok).symm⟩
  · rintro ⟨hfree, ⟨hcount, hzero, hmax, hrx, htx, hconf, hqueues, hstart⟩, rfl⟩
    exact ⟨⟨hcount, hmax, hmax, hfree, hzero, hrx, htx, hconf⟩, hqueues, hstart, rfl⟩

theorem configureDevice_ok {ports : Ports} {started started' : List (UInt8 × UInt16)} {p : UInt8} {n : UInt16}
    (h : configureDevice ports started p n = .ok started') :
    p ∉ started.map Prod.fst ∧ started' = started ++ [(p, n)] :=
  ⟨(configureDevice_eq_ok.mp h).1, (configureDevice_eq_ok.mp h).2.2⟩

/-- A fault that leaves the program through `exit`. -/
def IsExit (e : Fault) : Prop := ∃ msg, e = .exit msg

theorem checkDpdkError_outcome (rc : Option EthError) (operation : String) :
    Outcome (fun _ => True) IsExit (checkDpdkError rc operation) := by
  cases rc with
  | none => trivial
  | some err => exact ⟨_, rfl⟩

theorem createMempool_outcome (ports : Ports) (p : UInt8) (q : UInt16) :
    Outcome (fun _ => True) IsExit (createMempool ports p q) := by
  unfold createMempool
  split
  · trivial
  · exact ⟨_, rfl⟩

theorem setupQueue_outcome (ports : Ports) (p : UInt8) (q : UInt16) :
    Outcome (fun _ => True) IsExit (setupQueue ports p q) :=
  Outcome.bind (checkDpdkError_outcome _ _) fun _ _ =>
    Outcome.bind (createMempool_outcome _ _ _) fun _ _ => checkDpdkError_outcome _ _

/-- `configure_device` fails only by leaving the program. -/
theorem configureDevice_outcome (ports : Ports) (started : List (UInt8 × UInt16)) (p : UInt8) (n : UInt16) :
    Outcome (fun _ => True) IsExit (configureDevice ports started p n) := by
  have hloop : Outcome (fun _ => True) IsExit
      (forRange (fun queue _ => setupQueue ports p (UInt16.ofNat queue)) 0 n.toNat ()) :=
    forRange_outcome (fun _ _ => True) IsExit (fun _ _ _ _ _ => setupQueue_outcome _ _ _) trivial
  exact Outcome.bind (checkDpdkError_outcome _ _) fun _ _ => Outcome.bind hloop fun _ _ =>
    Outcome.bind (checkDpdkError_outcome _ _) fun _ _ => trivial

/-- What the loop of `start_router` over the interfaces keeps, for
`thr_count` threads. -/
structure SetupInv (thrCount : ℕ) (s : RouterSetup) : Prop where
  length : s.thrConfs.length = thrCount
  qId : ∀ k (hk : k < s.thrConfs.length), s.thrConfs[k].qId = UInt16.ofNat k
  workerCount : ∀ thrConf ∈ s.thrConfs, thrConf.workerCount = UInt16.ofNat thrCount
  queues : ∀ st ∈ s.started, st.2 = UInt16.ofNat thrCount
  nodup : (s.started.map Prod.fst).Nodup
  started : ∀ thrConf ∈ s.thrConfs, ∀ c ∈ thrConf.intConfs, c.intId ∈ s.started.map Prod.fst
  disjoint : ∀ k k' (hk : k < s.thrConfs.length) (hk' : k' < s.thrConfs.length), k ≠ k' →
    ∀ c ∈ s.thrConfs[k].intConfs, ∀ c' ∈ s.thrConfs[k'].intConfs, c.intId ≠ c'.intId

theorem setupInv_threadConfigs (thrCount : ℕ) : SetupInv thrCount ⟨[], threadConfigs thrCount⟩ where
  length := by simp [threadConfigs]
  qId := by simp [threadConfigs]
  workerCount := by simp [threadConfigs]
  queues := by simp
  nodup := List.nodup_nil
  started := by simp [threadConfigs]
  disjoint := by simp [threadConfigs]

section Deal

variable {thrCount i : ℕ} {s : RouterSetup} {c : InterfaceConfig}

/-- An interface whose port is not started yet shares it with no interface
a thread already has. -/
theorem SetupInv.intId_ne_of_not_started (h : SetupInv thrCount s)
    (hfree : c.intId ∉ s.started.map Prod.fst) {k : ℕ} (hk : k < s.thrConfs.length) :
    ∀ c' ∈ s.thrConfs[k].intConfs, c.intId ≠ c'.intId := by
  intro c' hc' heq
  exact hfree (heq ▸ h.started _ (List.getElem_mem hk) c' hc')

/-- Dealing one interface keeps the invariant: the step of the loop. -/
theorem SetupInv.deal (h : SetupInv thrCount s) {ports : Ports} {started : List (UInt8 × UInt16)}
    (hc : configureDevice ports s.started c.intId (UInt16.ofNat thrCount) = .ok started) :
    SetupInv thrCount ⟨started, s.thrConfs.modify (i % thrCount) fun thrConf =>
      { thrConf with intConfs := thrConf.intConfs ++ [c] }⟩ := by
  obtain ⟨hfree, rfl⟩ := configureDevice_ok hc
  -- the dealt thread is the one at index `i % thr_count`; every other keeps its interfaces
  constructor
  case length => simp [h.length]
  case qId =>
    intro k hk
    rw [List.getElem_modify]
    split <;> exact h.qId k (by simpa using hk)
  case workerCount =>
    intro thrConf hmem
    obtain ⟨k, hk, rfl⟩ := List.mem_iff_getElem.mp hmem
    have hk' : k < s.thrConfs.length := by simpa using hk
    rw [List.getElem_modify]
    split <;> exact h.workerCount s.thrConfs[k] (List.getElem_mem hk')
  case queues =>
    intro st hst
    rcases List.mem_append.mp hst with hst | hst
    · exact h.queues st hst
    · rw [List.mem_singleton.mp hst]
  case nodup =>
    simp only [List.map_append, List.map_cons, List.map_nil]
    refine List.nodup_append.mpr ⟨h.nodup, List.nodup_singleton _, ?_⟩
    intro p hp p' hp' heq
    rw [List.mem_singleton] at hp'
    subst hp' heq
    exact hfree hp
  case started =>
    intro thrConf hmem c' hc'
    obtain ⟨k, hk, rfl⟩ := List.mem_iff_getElem.mp hmem
    rw [List.getElem_modify] at hc'
    have hk' : k < s.thrConfs.length := by simpa using hk
    have hold : ∀ c'' ∈ s.thrConfs[k].intConfs,
        c''.intId ∈ (s.started ++ [(c.intId, UInt16.ofNat thrCount)]).map Prod.fst :=
      fun c'' h'' => by
        rw [List.map_append]
        exact List.mem_append_left _ (h.started _ (List.getElem_mem _) c'' h'')
    split at hc'
    · rcases List.mem_append.mp hc' with hc' | hc'
      · exact hold c' hc'
      · simp [List.mem_singleton.mp hc']
    · exact hold c' hc'
  case disjoint =>
    intro k k' hk hk' hne c₁ h₁ c₂ h₂
    simp only [List.length_modify] at hk hk'
    rw [List.getElem_modify] at h₁ h₂
    split at h₁ <;> split at h₂
    · omega
    · -- `c₁` is in the dealt thread: the new interface, or one it had
      rcases List.mem_append.mp h₁ with h₁ | h₁
      · exact h.disjoint k k' hk hk' hne c₁ h₁ c₂ h₂
      · rw [List.mem_singleton.mp h₁]
        exact h.intId_ne_of_not_started hfree hk' c₂ h₂
    · rcases List.mem_append.mp h₂ with h₂ | h₂
      · exact h.disjoint k k' hk hk' hne c₁ h₁ c₂ h₂
      · rw [List.mem_singleton.mp h₂]
        exact (h.intId_ne_of_not_started hfree hk c₁ h₁).symm
    · exact h.disjoint k k' hk hk' hne c₁ h₁ c₂ h₂

end Deal

/-- The run of the loop over the interfaces keeps the invariant. -/
theorem distributeInterfaces_inv {ports : Ports} {thrCount : ℕ} :
    ∀ (i : ℕ) (cs : List InterfaceConfig) {s s' : RouterSetup},
      SetupInv thrCount s → distributeInterfaces ports thrCount i cs s = .ok s' → SetupInv thrCount s'
  | _, [], _, _, h, hrun => by
    cases hrun
    exact h
  | i, c :: cs, _, _, h, hrun => by
    rw [distributeInterfaces] at hrun
    obtain ⟨started, hc, hrest⟩ := bind_eq_ok hrun
    exact distributeInterfaces_inv (i + 1) cs (h.deal hc) hrest

/-- The number of threads `start_router` launches. -/
def threadCount (rteLcoreCount lcoreCount : ℕ) : ℕ :=
  if lcoreCount = 0 then rteLcoreCount else lcoreCount

theorem startRouter_inv {ports : Ports} {rteLcoreCount lcoreCount : ℕ} {intConfs : List InterfaceConfig}
    {setup : RouterSetup} (h : startRouter ports rteLcoreCount lcoreCount intConfs = .ok setup) :
    SetupInv (threadCount rteLcoreCount lcoreCount) setup := by
  unfold startRouter at h
  dsimp only at h
  rw [show (if lcoreCount = 0 then rteLcoreCount else lcoreCount) =
    threadCount rteLcoreCount lcoreCount from rfl] at h
  generalize threadCount rteLcoreCount lcoreCount = n at h ⊢
  split_ifs at h with hnone
  · -- no worker lcore: nothing is started and no thread is launched
    cases h
    rw [Nat.le_zero.mp hnone]
    exact setupInv_threadConfigs 0
  · rw [show n - dpdkMinWorkerId = n from Nat.sub_zero n] at h
    exact distributeInterfaces_inv 0 intConfs (setupInv_threadConfigs n) h

/-! The ports `start_router` starts. -/

/-- The loop over the interfaces starts the port of each in turn, with
`thr_count` queues, when no port comes twice and the ports accept each. -/
theorem distributeInterfaces_started {ports : Ports} {thrCount : ℕ} :
    ∀ (i : ℕ) (cs : List InterfaceConfig) (s : RouterSetup) (started : List (UInt8 × UInt16)),
      (s.started.map Prod.fst).Nodup →
      ((distributeInterfaces ports thrCount i cs s).map RouterSetup.started = .ok started ↔
        (s.started.map Prod.fst ++ cs.map InterfaceConfig.intId).Nodup ∧
        (∀ c ∈ cs, Accepts ports c.intId (UInt16.ofNat thrCount)) ∧
        started = s.started ++ cs.map fun c => (c.intId, UInt16.ofNat thrCount))
  | _, [], s, started, hnd => by
    rw [distributeInterfaces, map_ok, List.map_nil, List.append_nil, List.map_nil, List.append_nil]
    exact ⟨fun h => ⟨hnd, nofun, (Except.ok.inj h).symm⟩, fun ⟨_, _, h⟩ => by rw [h]⟩
  | i, c :: cs, s, started, hnd => by
    rw [distributeInterfaces]
    have hcons : s.started.map Prod.fst ++ (c :: cs).map InterfaceConfig.intId =
        (s.started ++ [(c.intId, UInt16.ofNat thrCount)]).map Prod.fst ++ cs.map InterfaceConfig.intId := by
      simp
    cases hc : configureDevice ports s.started c.intId (UInt16.ofNat thrCount) with
    | error e =>
      rw [error_bind, map_error]
      refine ⟨nofun, fun ⟨hnd', hacc, _⟩ => ?_⟩
      -- the port is new, as the whole list is without repetition, and accepted
      have hfree : c.intId ∉ s.started.map Prod.fst := fun hmem =>
        (List.nodup_append.mp hnd').2.2 _ hmem _ List.mem_cons_self rfl
      have hok := configureDevice_eq_ok.mpr ⟨hfree, hacc c List.mem_cons_self, rfl⟩
      rw [hc] at hok
      cases hok
    | ok started₁ =>
      obtain ⟨hfree, hacc, rfl⟩ := configureDevice_eq_ok.mp hc
      have hnd₁ : ((s.started ++ [(c.intId, UInt16.ofNat thrCount)]).map Prod.fst).Nodup := by
        rw [List.map_append, List.map_singleton, List.nodup_append]
        refine ⟨hnd, List.nodup_singleton _, fun a ha b hb hab => hfree ?_⟩
        rw [List.mem_singleton.mp hb] at hab
        rwa [hab] at ha
      rw [ok_bind, distributeInterfaces_started (i + 1) cs _ started hnd₁, hcons]
      simp only [List.forall_mem_cons, List.map_cons, List.append_assoc, List.singleton_append]
      exact ⟨fun ⟨h₁, h₂, h₃⟩ => ⟨h₁, ⟨hacc, h₂⟩, h₃⟩, fun ⟨h₁, ⟨_, h₂⟩, h₃⟩ => ⟨h₁, h₂, h₃⟩⟩

/-- The loop over the interfaces fails only through `configure_device`,
which leaves the program. -/
theorem distributeInterfaces_outcome (ports : Ports) (thrCount : ℕ) :
    ∀ (i : ℕ) (cs : List InterfaceConfig) (s : RouterSetup),
      Outcome (fun _ => True) IsExit (distributeInterfaces ports thrCount i cs s)
  | _, [], _ => trivial
  | i, c :: cs, s =>
    Outcome.bind (configureDevice_outcome ports s.started c.intId (UInt16.ofNat thrCount)) fun _ _ =>
      distributeInterfaces_outcome ports thrCount (i + 1) cs _

/-- `start_router` starts the port of each interface, in order, with
`thr_count` queues, exactly when no two interfaces name the same port and
the ports accept `thr_count` queues on each; with too few lcores it starts
none. Otherwise `configure_device` leaves the program. -/
theorem startRouter_started (ports : Ports) (rteLcoreCount lcoreCount : ℕ) (intConfs : List InterfaceConfig) :
    (∀ started, (startRouter ports rteLcoreCount lcoreCount intConfs).map RouterSetup.started = .ok started ↔
      if threadCount rteLcoreCount lcoreCount ≤ dpdkMinWorkerId then started = []
      else (intConfs.map InterfaceConfig.intId).Nodup ∧
        (∀ c ∈ intConfs,
          Accepts ports c.intId (UInt16.ofNat (threadCount rteLcoreCount lcoreCount - dpdkMinWorkerId))) ∧
        started = intConfs.map fun c =>
          (c.intId, UInt16.ofNat (threadCount rteLcoreCount lcoreCount - dpdkMinWorkerId))) ∧
    ∀ e, startRouter ports rteLcoreCount lcoreCount intConfs = .error e → IsExit e := by
  unfold startRouter
  dsimp only
  rw [show (if lcoreCount = 0 then rteLcoreCount else lcoreCount) = threadCount rteLcoreCount lcoreCount from rfl]
  by_cases hfew : threadCount rteLcoreCount lcoreCount ≤ dpdkMinWorkerId
  · simp only [if_pos hfew]
    exact ⟨fun started => ⟨fun h => (Except.ok.inj h).symm, fun h => by rw [h]; rfl⟩, nofun⟩
  · simp only [if_neg hfew]
    refine ⟨fun started => ?_, fun e he => ?_⟩
    · rw [distributeInterfaces_started 0 intConfs ⟨[], threadConfigs _⟩ started List.nodup_nil]
      simp only [List.map_nil, List.nil_append]
    · have hout := distributeInterfaces_outcome ports (threadCount rteLcoreCount lcoreCount - dpdkMinWorkerId) 0
        intConfs ⟨[], threadConfigs (threadCount rteLcoreCount lcoreCount - dpdkMinWorkerId)⟩
      rwa [he, outcome_error] at hout

section Queues

variable {thrCount : ℕ} {s : RouterSetup}

theorem SetupInv.toNat_queues (h : SetupInv thrCount s) (hcount : thrCount < 2 ^ 16) :
    ∀ st ∈ s.started, st.2.toNat = thrCount := by
  intro st hst
  rw [h.queues st hst, UInt16.toNat_ofNat_of_lt' hcount]

theorem SetupInv.toNat_qId (h : SetupInv thrCount s) (hcount : thrCount < 2 ^ 16) {k : ℕ}
    (hk : k < s.thrConfs.length) : s.thrConfs[k].qId.toNat = k := by
  have hlt : k < 2 ^ 16 := by
    rw [h.length] at hk
    omega
  rw [h.qId k hk, UInt16.toNat_ofNat_of_lt' hlt]

/-- The port of an interface of a thread is started, with as many queues as
the thread's worker count. -/
theorem SetupInv.port_started (h : SetupInv thrCount s) {k : ℕ} (hk : k < s.thrConfs.length)
    {c : InterfaceConfig} (hc : c ∈ s.thrConfs[k].intConfs) :
    ∃ st ∈ s.started, c.intId = st.1 ∧ st.2 = s.thrConfs[k].workerCount := by
  obtain ⟨st, hst, hid⟩ := List.mem_map.mp (h.started _ (List.getElem_mem hk) c hc)
  exact ⟨st, hst, hid.symm, by rw [h.queues st hst, h.workerCount _ (List.getElem_mem hk)]⟩

end Queues

/-! The calls of a thread. -/

/-- The calls of the ethdev and mbuf libraries a thread with configuration
`thrConf` may make on the table `t`: a receive from the port of one of its
interfaces, below its worker count; a transmit on its queue, to the port of
one of its interfaces or to the port of a route; a free. -/
def ThreadCall (t : Tables) (thrConf : ThreadConfig) : Event → Prop
  | .rxBurst p q _ => ∃ c ∈ thrConf.intConfs, p = c.intId.toUInt16 ∧ q.toNat < thrConf.workerCount.toNat
  | .txBurst p q _ _ => q = thrConf.qId ∧
      ((∃ c ∈ thrConf.intConfs, p = c.intId.toUInt16) ∨ ∃ nhId, p = (t.nhIdToInfo nhId).nextHop.dstPort.toUInt16)
  | .free _ => True

/-- A frame handed to the device goes out on the thread's queue: an ARP
reply on the port it came from, a forwarded IPv4 packet on its next hop's
port. -/
theorem TransmitsFrame.threadCall {t : Tables} {intConfs : List InterfaceConfig} {thrConf : ThreadConfig}
    {c : InterfaceConfig} {buf out : Mbuf} {p q : UInt16} (hc : c ∈ thrConf.intConfs)
    (h : TransmitsFrame t intConfs thrConf c buf p q out) (sent : Bool) :
    ThreadCall t thrConf (.txBurst p q out sent) := by
  obtain ⟨-, ⟨-, -, nhId, -, hp, hq, -⟩ | ⟨-, -, -, hp, hq, -⟩⟩ := h
  · exact ⟨hq, .inr ⟨nhId, hp⟩⟩
  · exact ⟨hq, .inl ⟨c, hc, hp⟩⟩

theorem routerThreadPass_calls (t : Tables) (intConfs : List InterfaceConfig) (thrConf : ThreadConfig)
    (dev : Dev) :
    ∃ evs, ((routerThreadPass t intConfs thrConf).run dev).2.log = dev.log ++ evs ∧
      ∀ e ∈ evs, ThreadCall t thrConf e := by
  obtain ⟨polls, hlog, hall⟩ := forM_pollInterface_spec t intConfs thrConf thrConf.intConfs dev
  refine ⟨_, hlog, fun e he => ?_⟩
  obtain ⟨c, hc, poll, -, hpoll, he⟩ := exists_poll_of_mem hall he
  cases e with
  | rxBurst p q bs =>
    obtain ⟨rfl, hq⟩ := hpoll.rx p q bs he
    exact ⟨c, hc, rfl, hq⟩
  | txBurst p q out sent =>
    obtain ⟨buf, -, htf⟩ := hpoll.tx p q out sent he
    exact htf.threadCall hc sent
  | free _ => trivial

/-- Every pass of `router_thread` makes only the calls `ThreadCall` allows. -/
theorem routerThreadRun_calls (t : Tables) (intConfs : List InterfaceConfig) (thrConf : ThreadConfig)
    (n : ℕ) (dev : Dev) :
    ∃ evs, ((routerThreadRun t intConfs thrConf n).run dev).2.log = dev.log ++ evs ∧
      ∀ e ∈ evs, ThreadCall t thrConf e := by
  induction n generalizing dev with
  | zero => exact ⟨[], by simp [routerThreadRun]; rfl, by simp⟩
  | succ n ih =>
    obtain ⟨evs₁, hlog₁, hcall₁⟩ := routerThreadPass_calls t intConfs thrConf dev
    obtain ⟨evs₂, hlog₂, hcall₂⟩ := ih ((routerThreadPass t intConfs thrConf).run dev).2
    refine ⟨evs₁ ++ evs₂, ?_, ?_⟩
    · show ((routerThreadRun t intConfs thrConf n).run ((routerThreadPass t intConfs thrConf).run dev).2).2.log = _
      rw [hlog₂, hlog₁, List.append_assoc]
    · intro e he
      rcases List.mem_append.mp he with he | he
      · exact hcall₁ e he
      · exact hcall₂ e he

/-- The threads `start_router` launches on the interfaces `intConfs`, run for
any number of passes on any routing table: a thread receives only from
started ports, below their number of queues, and from no port another thread
receives from; it transmits on its own queue, which is below the number of
queues of every started port, and on a started port or on the port of a
route. -/
theorem startRouter_thread_calls {ports : Ports} {rteLcoreCount lcoreCount : ℕ} {intConfs : List InterfaceConfig}
    {setup : RouterSetup} (hsetup : startRouter ports rteLcoreCount lcoreCount intConfs = .ok setup)
    (hcount : threadCount rteLcoreCount lcoreCount < 2 ^ 16) (t : Tables) (k : ℕ)
    (hk : k < setup.thrConfs.length) (n : ℕ) (dev : Dev) :
    ∃ evs, ((routerThreadRun t intConfs setup.thrConfs[k] n).run dev).2.log = dev.log ++ evs ∧
      (∀ p q bs, Event.rxBurst p q bs ∈ evs →
        (∃ st ∈ setup.started, p = st.1.toUInt16 ∧ q.toNat < st.2.toNat) ∧
        ∀ k' (hk' : k' < setup.thrConfs.length), k' ≠ k →
          ∀ c ∈ setup.thrConfs[k'].intConfs, p ≠ c.intId.toUInt16) ∧
      ∀ p q out sent, Event.txBurst p q out sent ∈ evs →
        q.toNat = k ∧ (∀ st ∈ setup.started, q.toNat < st.2.toNat) ∧
        ((∃ st ∈ setup.started, p = st.1.toUInt16) ∨
          ∃ nhId, p = (t.nhIdToInfo nhId).nextHop.dstPort.toUInt16) := by
  have hinv := startRouter_inv hsetup
  obtain ⟨evs, hlog, hcall⟩ := routerThreadRun_calls t intConfs setup.thrConfs[k] n dev
  refine ⟨evs, hlog, ?_, ?_⟩
  · intro p q bs he
    obtain ⟨c, hc, rfl, hq⟩ := hcall _ he
    obtain ⟨st, hst, hid, hqs⟩ := hinv.port_started hk hc
    refine ⟨⟨st, hst, by rw [hid], by rwa [hqs]⟩, ?_⟩
    -- the ports of two threads differ
    intro k' hk' hne c' hc' heq
    exact hinv.disjoint k k' hk hk' (Ne.symm hne) c hc c' hc' (UInt8.toUInt16_inj.mp heq)
  · intro p q out sent he
    obtain ⟨rfl, hport⟩ := hcall _ he
    have hq : setup.thrConfs[k].qId.toNat = k := hinv.toNat_qId hcount hk
    refine ⟨hq, fun st hst => ?_, ?_⟩
    · rw [hq, hinv.toNat_queues hcount st hst, ← hinv.length]
      exact hk
    · rcases hport with ⟨c, hc, rfl⟩ | hroute
      · obtain ⟨st, hst, hid, -⟩ := hinv.port_started hk hc
        exact .inl ⟨st, hst, by rw [hid]⟩
      · exact .inr hroute

/-- Two lcores and the interfaces on ports `0`, `1` and `2`, each port
offering two queues: thread `0` polls ports `0` and `2`, thread `1` port
`1`, each transmitting on its own queue. -/
theorem startRouter_thread_calls_two_threads :
    let c₀ : InterfaceConfig := ⟨0, 0x0a000001, EtherAddr.zero⟩
    let c₁ : InterfaceConfig := ⟨1, 0x0a000101, EtherAddr.zero⟩
    let c₂ : InterfaceConfig := ⟨2, 0x0a000201, EtherAddr.zero⟩
    let setup : RouterSetup := ⟨[(0, 2), (1, 2), (2, 2)], [⟨[c₀, c₂], 2, 0⟩, ⟨[c₁], 2, 1⟩]⟩
    let dev : Dev := ⟨fun _ => [], fun _ => true, fun _ => none, []⟩
    startRouter (Ports.working 3 2) 2 0 [c₀, c₁, c₂] = .ok setup ∧ threadCount 2 0 < 2 ^ 16 ∧
    1 < setup.thrConfs.length ∧
    ∃ evs, ((routerThreadRun Tables.init [c₀, c₁, c₂] setup.thrConfs[1] 2).run dev).2.log = dev.log ++ evs ∧
      (∀ p q bs, Event.rxBurst p q bs ∈ evs →
        (∃ st ∈ setup.started, p = st.1.toUInt16 ∧ q.toNat < st.2.toNat) ∧
        ∀ k' (hk' : k' < setup.thrConfs.length), k' ≠ 1 →
          ∀ c ∈ setup.thrConfs[k'].intConfs, p ≠ c.intId.toUInt16) ∧
      ∀ p q out sent, Event.txBurst p q out sent ∈ evs →
        q.toNat = 1 ∧ (∀ st ∈ setup.started, q.toNat < st.2.toNat) ∧
        ((∃ st ∈ setup.started, p = st.1.toUInt16) ∨
          ∃ nhId, p = (Tables.init.nhIdToInfo nhId).nextHop.dstPort.toUInt16) := by
  intro c₀ c₁ c₂ setup dev
  have hsetup : startRouter (Ports.working 3 2) 2 0 [c₀, c₁, c₂] = .ok setup := rfl
  exact ⟨hsetup, by decide, by decide,
    startRouter_thread_calls hsetup (by decide) Tables.init 1 (by decide) 2 dev⟩

/-- The command line `-p 0,10.0.0.1 -r 10.1.0.0/24,02:00:00:00:00:01,1` on
two ports and one lcore: `start_router` configures port `0` alone, with one
queue, and the thread, given on port `0` a frame for `10.1.0.5`, forwards it
with `rte_eth_tx_burst` on port `1`. -/
theorem startRouter_transmits_on_unstarted_port :
    (do
      let (_, st) ← parseArgs (fun _ => EtherAddr.zero) 2
        [.p "0,10.0.0.1".toList, .r "10.1.0.0/24,02:00:00:00:00:01,1".toList]
      let setup ← startRouter (Ports.working 2 1) 1 0 st.intConfs
      pure (setup.started, setup.thrConfs.map fun thrConf =>
        ((routerThreadRun st.tables st.intConfs thrConf 1).run
          ⟨fun n => if n = 0 then [⟨7, [0, 0, 0, 0, 0, 0, 2, 0, 0, 0, 0, 2, 8, 0, 0x45, 0, 0, 20, 0, 0, 0, 0,
            64, 0, 0x66, 0xe3, 10, 0, 0, 2, 10, 1, 0, 5]⟩] else [],
            fun _ => true, fun _ => some EtherAddr.zero, []⟩).2.log)) =
    Except.ok ([(0, 1)], [[.rxBurst 0 0 [⟨7, [0, 0, 0, 0, 0, 0, 2, 0, 0, 0, 0, 2, 8, 0, 0x45, 0, 0, 20, 0, 0, 0, 0,
        64, 0, 0x66, 0xe3, 10, 0, 0, 2, 10, 1, 0, 5]⟩],
      .txBurst 1 0 ⟨7, [2, 0, 0, 0, 0, 1, 0, 0, 0, 0, 0, 0, 8, 0, 0x45, 0, 0, 20, 0, 0, 0, 0, 63, 0, 0x67, 0xe3,
        10, 0, 0, 2, 10, 1, 0, 5]⟩ true]]) := by
  decide +kernel

end DpdkRouter.Router
