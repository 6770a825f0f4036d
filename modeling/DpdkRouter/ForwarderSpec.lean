import DpdkRouter.Forwarder
import DpdkRouter.EventLog
import DpdkRouter.RouterSetupSpec

/-!
What the forwarder does. A thread only receives on its source port and
queue and only transmits on its destination port and queue, and never frees
a buffer (`runThread_calls`, by the rules of `EventLog`). `main` gives the
two threads opposite directions: the three `^=` exchange the globals
(`xor_swap`). With a device that never refuses `spin` transmits in a row,
every pass completes, and the buffers the device takes are the buffers
received, in order, each with the last byte of its source address one more
(`Forwards`).
-/

namespace DpdkRouter.Rte

/-- The buffer the device takes in an event. -/
def Event.taken : Event → List Mbuf
  | .txBurst _ _ m true => [m]
  | _ => []

end DpdkRouter.Rte

namespace DpdkRouter.Forwarder

open ForLoop ByteBuf Rte EventLog

def Fwd.log (s : Fwd) : List Event := s.dev.log

/-! The calls of a thread. -/

/-- The calls a thread with configuration `config` may make: a receive of at
most 64 buffers on its source port and queue, a transmit on its destination
port and queue, and no free. -/
def ThreadCall (config : ThreadConfig) : Event → Prop
  | .rxBurst p q bs => p = config.srcInterface.toUInt16 ∧ q = config.srcQueue ∧ bs.length ≤ 64
  | .txBurst p q _ _ => p = config.dstInterface.toUInt16 ∧ q = config.dstQueue
  | .free _ => False

section Calls

variable (spin : ℕ) (config : ThreadConfig)

theorem appends_counters (f : Fwd → Fwd) (hf : ∀ s, (f s).dev = s.dev) {P : Event → Prop} :
    Appends Fwd.log (modify f) P :=
  appends_of_log_eq fun s => by rw [Fwd.log, Fwd.log, ← hf s]; rfl

theorem appends_transmitPacket (buf : Mbuf) :
    Appends Fwd.log (transmitPacket config.dstInterface config.dstQueue buf spin) (ThreadCall config) := by
  induction spin with
  | zero => exact appends_pure false
  | succ spin ih =>
    have htx : Appends Fwd.log (onDev (rteEthTxBurst config.dstInterface.toUInt16 config.dstQueue buf))
        (ThreadCall config) := fun s =>
      ⟨[.txBurst config.dstInterface.toUInt16 config.dstQueue buf (s.dev.txAnswers 0)], rfl,
        fun e he => by rw [List.mem_singleton.mp he]; exact ⟨rfl, rfl⟩⟩
    refine htx.bind fun sent => appends_ite (fun _ => ?_) (fun _ => ih)
    exact (appends_counters _ (fun _ => rfl)).bind fun _ => appends_pure true

theorem appends_handlePackets (bufs : List Mbuf) :
    Appends Fwd.log (handlePackets spin config bufs) (ThreadCall config) := by
  induction bufs with
  | nil => exact appends_pure true
  | cons buf bufs ih =>
    exact (appends_transmitPacket spin config _).bind fun _ =>
      appends_ite (fun _ => ih) (fun _ => appends_pure false)

theorem appends_runThreadPass : Appends Fwd.log (runThreadPass spin config) (ThreadCall config) := by
  have hrx : Appends Fwd.log (onDev (rteEthRxBurst config.srcInterface.toUInt16 config.srcQueue 64))
      (ThreadCall config) := fun s =>
    ⟨[.rxBurst config.srcInterface.toUInt16 config.srcQueue ((s.dev.rxBursts 0).take 64)], rfl,
      fun e he => by rw [List.mem_singleton.mp he]; exact ⟨rfl, rfl, List.length_take_le _ _⟩⟩
  refine hrx.bind fun bufs => (appends_handlePackets spin config bufs).bind fun _ =>
    appends_ite (fun _ => ?_) (fun _ => appends_pure false)
  exact (appends_counters _ (fun _ => rfl)).bind fun _ => appends_pure true

/-- Every pass of `run_thread`, stuck or not, makes only the calls
`ThreadCall` allows. -/
theorem runThread_calls (n : ℕ) : Appends Fwd.log (runThread spin config n) (ThreadCall config) := by
  induction n with
  | zero => exact appends_pure true
  | succ n ih =>
    exact (appends_runThreadPass spin config).bind fun _ =>
      appends_ite (fun _ => ih) (fun _ => appends_pure false)

end Calls

/-! `main`. -/

example : (main (.working 2 1) [.s "2".toList]).isOk = false := by decide

/-! The data path. -/

/-- The device never refuses `spin` transmits in a row. -/
def AcceptsWithin (spin : ℕ) (answers : ℕ → Bool) : Prop :=
  ∀ k, ∃ j < spin, answers (k + j) = true

theorem AcceptsWithin.shift {spin : ℕ} {answers : ℕ → Bool} (h : AcceptsWithin spin answers) (m : ℕ) :
    AcceptsWithin spin fun n => answers (n + m) := by
  intro k
  obtain ⟨j, hj, hacc⟩ := h (k + m)
  exact ⟨j, hj, by rw [← hacc, Nat.add_right_comm]⟩

/-- The first answer that takes the buffer comes within `spin` calls. -/
theorem AcceptsWithin.first {spin : ℕ} {answers : ℕ → Bool} (h : AcceptsWithin spin answers) :
    ∃ j < spin, (∀ i < j, answers i = false) ∧ answers j = true := by
  obtain ⟨j₀, hj₀, hacc₀⟩ := h 0
  rw [Nat.zero_add] at hacc₀
  have hex : ∃ j, answers j = true := ⟨j₀, hacc₀⟩
  classical
  refine ⟨Nat.find hex, lt_of_le_of_lt (Nat.find_min' hex hacc₀) hj₀, fun i hi => ?_, Nat.find_spec hex⟩
  simpa using Nat.find_min hex hi

/-- The buffer `handle_packet` hands to `transmit_packet`. -/
def forward (buf : Mbuf) : Mbuf := { buf with data := bumpSrcAddr buf.data }

/-- `out` is the received buffer `m` as the forwarder sends it: the same
buffer and length, with the byte at offset 11, the last byte of the source
address, one more modulo 256 and every other byte unchanged. -/
def Forwarded (m out : Mbuf) : Prop :=
  out.id = m.id ∧ out.data.length = m.data.length ∧
    ∀ k < m.data.length, load8 out.data k = if k = 11 then load8 m.data k + 1 else load8 m.data k

theorem forwarded_forward (buf : Mbuf) : Forwarded buf (forward buf) := by
  refine ⟨rfl, length_store8 _ _ _, fun k hk => ?_⟩
  simp only [forward, bumpSrcAddr, etherAddrLen, load8_store8]
  by_cases h : k = 11
  · subst h
    simp [hk]
  · simp [h]

/-- From `s` to `s'` the thread made the calls `evs`: it received `inp`, the
device took `out`, `sent_pkts` counted `out`, `recv_pkts` grew by `r`, and
the device's answers moved on. -/
structure Stretch (s s' : Fwd) (evs : List Event) (inp out : List Mbuf) (r : ℕ) : Prop where
  log : s'.dev.log = s.dev.log ++ evs
  received : evs.flatMap Event.received = inp
  taken : evs.flatMap Event.taken = out
  sent : s'.sentPkts = s.sentPkts + UInt32.ofNat out.length
  recvd : s'.recvPkts = s.recvPkts + UInt32.ofNat r
  shift : ∃ m, s'.dev.txAnswers = fun n => s.dev.txAnswers (n + m)

section Stretch

variable {s s₁ s₂ : Fwd} {evs₁ evs₂ : List Event} {inp₁ inp₂ out₁ out₂ : List Mbuf} {r₁ r₂ : ℕ}

theorem Stretch.refl (s : Fwd) : Stretch s s [] [] [] 0 :=
  ⟨by simp, rfl, rfl, by simp, by simp, ⟨0, rfl⟩⟩

theorem Stretch.trans (h₁ : Stretch s s₁ evs₁ inp₁ out₁ r₁) (h₂ : Stretch s₁ s₂ evs₂ inp₂ out₂ r₂) :
    Stretch s s₂ (evs₁ ++ evs₂) (inp₁ ++ inp₂) (out₁ ++ out₂) (r₁ + r₂) where
  log := by rw [h₂.log, h₁.log, List.append_assoc]
  received := by rw [List.flatMap_append, h₁.received, h₂.received]
  taken := by rw [List.flatMap_append, h₁.taken, h₂.taken]
  sent := by rw [h₂.sent, h₁.sent, List.length_append, UInt32.ofNat_add, add_assoc]
  recvd := by rw [h₂.recvd, h₁.recvd, UInt32.ofNat_add, add_assoc]
  shift := by
    obtain ⟨m₁, hm₁⟩ := h₁.shift
    obtain ⟨m₂, hm₂⟩ := h₂.shift
    refine ⟨m₂ + m₁, ?_⟩
    rw [hm₂, hm₁]
    funext n
    show s.dev.txAnswers (n + m₂ + m₁) = s.dev.txAnswers (n + (m₂ + m₁))
    rw [Nat.add_assoc]

theorem Stretch.accepts {evs : List Event} {inp out : List Mbuf} {r spin : ℕ} (h : Stretch s s₁ evs inp out r)
    (hdev : AcceptsWithin spin s.dev.txAnswers) : AcceptsWithin spin s₁.dev.txAnswers := by
  obtain ⟨m, hm⟩ := h.shift
  rw [hm]
  exact hdev.shift m

end Stretch

section Transmit

variable (iface : UInt8) (q : UInt16) (buf : Mbuf)

theorem transmitPacket_succ_run (spin : ℕ) (s : Fwd) :
    (transmitPacket iface q buf (spin + 1)).run s =
      if s.dev.txAnswers 0 then
        (true, { s with dev := s.dev.afterTx iface.toUInt16 q buf, sentPkts := s.sentPkts + 1 })
      else (transmitPacket iface q buf spin).run { s with dev := s.dev.afterTx iface.toUInt16 q buf } := by
  show StateT.run (if s.dev.txAnswers 0 = true then _ else _ : StateM Fwd Bool) _ = _
  split <;> rfl

theorem stretch_refused (s : Fwd) (h : s.dev.txAnswers 0 = false) :
    Stretch s { s with dev := s.dev.afterTx iface.toUInt16 q buf } [.txBurst iface.toUInt16 q buf false] [] [] 0 :=
  ⟨by simp [Dev.afterTx, h], rfl, by simp [Event.taken], by simp, by simp, ⟨1, rfl⟩⟩

theorem stretch_taken (s : Fwd) (h : s.dev.txAnswers 0 = true) :
    Stretch s { s with dev := s.dev.afterTx iface.toUInt16 q buf, sentPkts := s.sentPkts + 1 }
      [.txBurst iface.toUInt16 q buf true] [] [buf] 0 :=
  ⟨by simp [Dev.afterTx, h], rfl, by simp [Event.taken], rfl, by simp, ⟨1, rfl⟩⟩

/-- The spin loop ends at the first answer that takes the buffer: the calls
before it are refused, and the buffer is taken and counted once. -/
theorem transmitPacket_stretch : ∀ (j spin : ℕ) (s : Fwd), j < spin →
    (∀ i < j, s.dev.txAnswers i = false) → s.dev.txAnswers j = true →
      ((transmitPacket iface q buf spin).run s).1 = true ∧
        ∃ evs, Stretch s ((transmitPacket iface q buf spin).run s).2 evs [] [buf] 0
  | _, 0, _, hj, _, _ => absurd hj (Nat.not_lt_zero _)
  | 0, spin + 1, s, _, _, hacc => by
    rw [transmitPacket_succ_run, if_pos hacc]
    exact ⟨rfl, _, stretch_taken iface q buf s hacc⟩
  | j + 1, spin + 1, s, hj, hrefuse, hacc => by
    have h0 : s.dev.txAnswers 0 = false := hrefuse 0 (Nat.succ_pos j)
    rw [transmitPacket_succ_run, if_neg (by rw [h0]; exact Bool.false_ne_true)]
    obtain ⟨hres, evs, hst⟩ := transmitPacket_stretch j spin
      { s with dev := s.dev.afterTx iface.toUInt16 q buf } (by omega)
      (fun i hi => hrefuse (i + 1) (by omega)) hacc
    exact ⟨hres, .txBurst iface.toUInt16 q buf false :: evs,
      by simpa using (stretch_refused iface q buf s h0).trans hst⟩

end Transmit

section Passes

variable (spin : ℕ) (config : ThreadConfig)

theorem handlePackets_cons_run (buf : Mbuf) (bufs : List Mbuf) (s : Fwd) :
    (handlePackets spin config (buf :: bufs)).run s =
      if ((handlePacket spin config buf).run s).1 then
        (handlePackets spin config bufs).run ((handlePacket spin config buf).run s).2
      else (false, ((handlePacket spin config buf).run s).2) := by
  show StateT.run (if ((handlePacket spin config buf).run s).1 = true then _ else _ : StateM Fwd Bool) _ = _
  split <;> rfl

theorem handlePackets_stretch (bufs : List Mbuf) (s : Fwd) (hdev : AcceptsWithin spin s.dev.txAnswers) :
    ((handlePackets spin config bufs).run s).1 = true ∧
      ∃ evs, Stretch s ((handlePackets spin config bufs).run s).2 evs [] (bufs.map forward) 0 := by
  induction bufs generalizing s with
  | nil => exact ⟨rfl, [], Stretch.refl s⟩
  | cons buf bufs ih =>
    obtain ⟨j, hj, hrefuse, hacc⟩ := hdev.first
    obtain ⟨hres₁, evs₁, hst₁⟩ : ((handlePacket spin config buf).run s).1 = true ∧
        ∃ evs, Stretch s ((handlePacket spin config buf).run s).2 evs [] [forward buf] 0 :=
      transmitPacket_stretch config.dstInterface config.dstQueue (forward buf) j spin s hj hrefuse hacc
    rw [handlePackets_cons_run, if_pos hres₁]
    obtain ⟨hres₂, evs₂, hst₂⟩ := ih _ (hst₁.accepts hdev)
    exact ⟨hres₂, evs₁ ++ evs₂, by simpa using hst₁.trans hst₂⟩

/-- One pass: the burst received, each of its buffers taken forwarded, and
both counters grown by the burst. -/
theorem runThreadPass_stretch (s : Fwd) (hdev : AcceptsWithin spin s.dev.txAnswers) :
    ((runThreadPass spin config).run s).1 = true ∧ ∃ evs inp,
      Stretch s ((runThreadPass spin config).run s).2 evs inp (inp.map forward) inp.length := by
  let bufs := (s.dev.rxBursts 0).take 64
  let s₁ : Fwd := { s with dev := ((rteEthRxBurst config.srcInterface.toUInt16 config.srcQueue 64).run s.dev).2 }
  have hrx : Stretch s s₁ [.rxBurst config.srcInterface.toUInt16 config.srcQueue bufs] bufs [] 0 :=
    ⟨rfl, by simp [Event.received], rfl, by simp [s₁], by simp [s₁], ⟨0, rfl⟩⟩
  obtain ⟨hres, evs, hst⟩ := handlePackets_stretch spin config bufs s₁ (hrx.accepts hdev)
  let s₂ := ((handlePackets spin config bufs).run s₁).2
  -- the burst handled, `recv_pkts += rx` ends the pass
  have hrun : (runThreadPass spin config).run s =
      (true, { s₂ with recvPkts := s₂.recvPkts + UInt32.ofNat bufs.length }) := by
    show StateT.run (if ((handlePackets spin config bufs).run s₁).1 = true then _ else _ : StateM Fwd Bool) _ = _
    rw [if_pos hres]
    rfl
  have hrecv : Stretch s₂ { s₂ with recvPkts := s₂.recvPkts + UInt32.ofNat bufs.length } [] [] [] bufs.length :=
    ⟨by simp, rfl, rfl, by simp, rfl, ⟨0, rfl⟩⟩
  rw [hrun]
  exact ⟨rfl, .rxBurst config.srcInterface.toUInt16 config.srcQueue bufs :: evs, bufs,
    by simpa using (hrx.trans hst).trans hrecv⟩

theorem runThread_succ_run (n : ℕ) (s : Fwd) :
    (runThread spin config (n + 1)).run s =
      if ((runThreadPass spin config).run s).1 then (runThread spin config n).run ((runThreadPass spin config).run s).2
      else (false, ((runThreadPass spin config).run s).2) := by
  show StateT.run (if ((runThreadPass spin config).run s).1 = true then _ else _ : StateM Fwd Bool) _ = _
  split <;> rfl

theorem runThread_stretch (n : ℕ) (s : Fwd) (hdev : AcceptsWithin spin s.dev.txAnswers) :
    ((runThread spin config n).run s).1 = true ∧ ∃ evs inp,
      Stretch s ((runThread spin config n).run s).2 evs inp (inp.map forward) inp.length := by
  induction n generalizing s with
  | zero => exact ⟨rfl, [], [], Stretch.refl s⟩
  | succ n ih =>
    obtain ⟨hres₁, evs₁, inp₁, hst₁⟩ := runThreadPass_stretch spin config s hdev
    rw [runThread_succ_run, if_pos hres₁]
    obtain ⟨hres₂, evs₂, inp₂, hst₂⟩ := ih _ (hst₁.accepts hdev)
    refine ⟨hres₂, evs₁ ++ evs₂, inp₁ ++ inp₂, ?_⟩
    simpa using hst₁.trans hst₂

end Passes

/-- `run_thread` for any number of passes, on a device that never refuses
`spin` transmits in a row: every pass completes; the thread receives only on
its source port and queue, transmits only on its destination port and
queue, and frees nothing; the device takes every buffer received, once and
in order, with the last byte of its source address one more; and
`sent_pkts` and `recv_pkts` each grow by the number received. -/
theorem runThread_forwards (spin : ℕ) (config : ThreadConfig) (n : ℕ) (s : Fwd)
    (hdev : AcceptsWithin spin s.dev.txAnswers) :
    ((runThread spin config n).run s).1 = true ∧ ∃ evs,
      ((runThread spin config n).run s).2.dev.log = s.dev.log ++ evs ∧
      (∀ e ∈ evs, ThreadCall config e) ∧
      List.Forall₂ Forwarded (evs.flatMap Event.received) (evs.flatMap Event.taken) ∧
      ((runThread spin config n).run s).2.sentPkts =
        s.sentPkts + UInt32.ofNat (evs.flatMap Event.received).length ∧
      ((runThread spin config n).run s).2.recvPkts =
        s.recvPkts + UInt32.ofNat (evs.flatMap Event.received).length := by
  obtain ⟨hres, evs, inp, hst⟩ := runThread_stretch spin config n s hdev
  obtain ⟨evs', hlog', hcalls⟩ := runThread_calls spin config n s
  -- both describe the same stretch of the log
  have hevs : evs' = evs := List.append_cancel_left (hlog'.symm.trans hst.log)
  subst hevs
  refine ⟨hres, evs', hst.log, hcalls, ?_, ?_, ?_⟩
  · rw [hst.received, hst.taken, List.forall₂_map_right_iff]
    exact List.forall₂_same.mpr fun buf _ => forwarded_forward buf
  · rw [hst.sent, hst.received, List.length_map]
  · rw [hst.recvd, hst.received]

/-- A device that takes every buffer, and a first burst of two frames. -/
theorem runThread_forwards_two_frames :
    let s : Fwd := ⟨⟨fun n => if n = 0 then [⟨0, List.replicate 14 0⟩, ⟨1, List.replicate 60 255⟩] else [],
      fun _ => true, fun _ => EtherAddr.zero, []⟩, 0, 0⟩
    AcceptsWithin 1 s.dev.txAnswers ∧
    ((runThread 1 ⟨0, 0, 1, 0⟩ 2).run s).1 = true ∧ ∃ evs,
      ((runThread 1 ⟨0, 0, 1, 0⟩ 2).run s).2.dev.log = s.dev.log ++ evs ∧
      (∀ e ∈ evs, ThreadCall ⟨0, 0, 1, 0⟩ e) ∧
      List.Forall₂ Forwarded (evs.flatMap Event.received) (evs.flatMap Event.taken) ∧
      ((runThread 1 ⟨0, 0, 1, 0⟩ 2).run s).2.sentPkts =
        s.sentPkts + UInt32.ofNat (evs.flatMap Event.received).length ∧
      ((runThread 1 ⟨0, 0, 1, 0⟩ 2).run s).2.recvPkts =
        s.recvPkts + UInt32.ofNat (evs.flatMap Event.received).length := by
  intro s
  have hdev : AcceptsWithin 1 s.dev.txAnswers := fun _ => ⟨0, Nat.one_pos, rfl⟩
  exact ⟨hdev, runThread_forwards 1 ⟨0, 0, 1, 0⟩ 2 s hdev⟩

end DpdkRouter.Forwarder
