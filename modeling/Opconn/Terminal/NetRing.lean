import Mathlib.Data.List.Nodup
import Opconn.Lib.Ring
import Opconn.Lib.Runs

/-!
# From the network to a serial port

A terminal server has 16 receive buffers.  `ring_buffer_get` hands out the one at `pIngress`
as long as `wr_count` and `rd_count` are less than 16 apart; what was received goes to
`ts_net2uart_thread` as a message that points to the buffer, and `rd_count` moves when the
message is consumed.  A receive that takes a buffer and sends no message leaves the counters
apart, and a new connection sets them to 0 whatever is still on its way.
-/

namespace Opconn.Terminal.Net

open Runs

/-- `MAX_RING_BUF_NUM`. -/
abbrev maxRingBufNum : Nat := 16

/-- Where the receiving thread is: in `select`, or with the buffer it will receive into; `none` is
`ts_dummy_buf`. -/
inductive ReceiverPc where
  | select
  | holds (buffer : Option Nat)
deriving DecidableEq

/-- What comes out of `read` in `ts_client_data_proc`, or of `recvfrom` in `ts_udp_receive`. -/
inductive Received where
  | tcp (len : Int)
  | udp (len : Int) (ip port : UInt32)

/-- A terminal server, and the messages to `ts_net2uart_thread` that point to its buffers. -/
structure State where
  wrCount : UInt32
  rdCount : UInt32
  pIngress : Nat
  pEgress : Nat
  clientIp : UInt32
  clientPort : UInt32
  receiver : ReceiverPc
  msgqTsNetRx : List Nat
  processing : Option Nat

/-- A terminal server that was enabled. -/
def State.start : State where
  wrCount := 0
  rdCount := 0
  pIngress := 0
  pEgress := 0
  clientIp := 0
  clientPort := 0
  receiver := .select
  msgqTsNetRx := []
  processing := none

/-- `ring_buffer_get`; without a free buffer `ts_dummy_buf` is received into. -/
def ringBufferGet (s : State) : State :=
  if (s.wrCount - s.rdCount).toNat < maxRingBufNum then
    { s with
      wrCount := s.wrCount + 1
      pIngress := (s.pIngress + 1) % maxRingBufNum
      receiver := .holds (some s.pIngress) }
  else { s with receiver := .holds none }

/-- The test of a receive: is there data, and from the client. -/
def Received.accepted (s : State) : Received → Bool
  | .tcp len => 0 < len
  | .udp len ip port =>
    0 ≤ len ∧ (s.clientIp = 0 ∨ ip = s.clientIp ∧ port = s.clientPort)

/-- The end of `ts_client_data_proc` or of a round of `ts_udp_receive`.  `queued` says whether
`vosMsqSend` took the message. -/
def receive (s : State) (buffer : Option Nat) (r : Received) (queued : Bool) : State :=
  if r.accepted s then
    let s := match r with
      | .tcp _ => s
      | .udp _ ip port => { s with clientIp := ip, clientPort := port }
    match buffer with
    | none => { s with receiver := .select }
    | some pos =>
      { s with
        receiver := .select
        msgqTsNetRx := if queued then s.msgqTsNetRx ++ [pos] else s.msgqTsNetRx }
  else { s with receiver := .select }

/-- `ts_new_conn_proc`, with what `accept` returns. -/
def tsNewConnProc (s : State) (fd : Int) (ip port : UInt32) : State :=
  if fd < 0 then s
  else { s with
    clientIp := ip, clientPort := port, pEgress := 0, pIngress := 0, wrCount := 0, rdCount := 0 }

/-- `vosMsqReceive` in `ts_net2uart_thread`. -/
def msqReceive (s : State) : State :=
  match s.processing, s.msgqTsNetRx with
  | none, pos :: rest => { s with processing := some pos, msgqTsNetRx := rest }
  | _, _ => s

/-- The end of `ts_net_msg_proc`. -/
def tsNetMsgProc (s : State) : State :=
  match s.processing with
  | some _ => { s with rdCount := s.rdCount + 1, processing := none }
  | none => s

inductive Event where
  | get
  | receive (r : Received) (queued : Bool)
  | newConn (fd : Int) (ip port : UInt32)
  | msqReceive
  | processed

/-- Connections are accepted by the thread that receives. -/
def step (s : State) : Event → State
  | .get =>
    match s.receiver with
    | .select => ringBufferGet s
    | .holds _ => s
  | .receive r queued =>
    match s.receiver with
    | .select => s
    | .holds buffer => Net.receive s buffer r queued
  | .newConn fd ip port =>
    match s.receiver with
    | .select => tsNewConnProc s fd ip port
    | .holds _ => s
  | .msqReceive => Net.msqReceive s
  | .processed => tsNetMsgProc s

/-! ### Who has the buffers -/

def ReceiverPc.buffers : ReceiverPc → List Nat
  | .select | .holds none => []
  | .holds (some pos) => [pos]

/-- The buffers that are handed out and not consumed, the oldest first. -/
def State.live (s : State) : List Nat :=
  s.processing.toList ++ s.msgqTsNetRx ++ s.receiver.buffers

/-- No buffer is handed out again while a message points to it, the counters are as far apart as
buffers are handed out, and the ring is not full when there are none. -/
structure Owned (s : State) : Prop where
  once : s.live.Nodup
  count : (s.wrCount - s.rdCount).toNat = s.live.length
  room : s.live = [] → (s.wrCount - s.rdCount).toNat < maxRingBufNum

/-- The steps that go well: a receive into a buffer gets data from the client, and its message is
queued; and a connection is accepted when no buffer is handed out. -/
def Guard (s : State) : Event → Prop
  | .receive r queued => s.receiver.buffers ≠ [] → r.accepted s = true ∧ queued = true
  | .newConn fd _ _ => s.receiver = .select → 0 ≤ fd → s.live = []
  | .get | .msqReceive | .processed => True

instance (s : State) : DecidablePred (Guard s)
  | .receive _ _ => inferInstanceAs (Decidable (_ → _ ∧ _))
  | .newConn _ _ _ => inferInstanceAs (Decidable (_ → _ → _))
  | .get | .msqReceive | .processed => inferInstanceAs (Decidable True)

/-! ### The invariant -/

/-- The live buffers stand in a row and end in front of `pIngress`. -/
structure Inv (s : State) : Prop where
  le : s.live.length ≤ maxRingBufNum
  count : (s.wrCount - s.rdCount).toNat = s.live.length
  row : ∃ first, s.live = (List.range' first s.live.length).map (· % maxRingBufNum) ∧
    s.pIngress = (first + s.live.length) % maxRingBufNum

theorem inv_start : Inv .start := ⟨Nat.zero_le _, rfl, 0, rfl, rfl⟩

theorem nodup_row {first n : Nat} (h : n ≤ maxRingBufNum) :
    ((List.range' first n).map (· % maxRingBufNum)).Nodup := by
  apply List.Nodup.map_on _ List.nodup_range'
  intro i hi j hj heq
  have hi' := List.mem_range'_1.mp hi
  have hj' := List.mem_range'_1.mp hj
  simp only [maxRingBufNum] at heq h
  omega

theorem Inv.owned {s : State} (h : Inv s) : Owned s := by
  obtain ⟨first, hrow, -⟩ := h.row
  refine ⟨?_, h.count, ?_⟩
  · rw [hrow]
    exact nodup_row h.le
  · intro hnil
    rw [h.count, hnil]
    decide

theorem toNat_taken {wr rd : UInt32} (h : (wr - rd).toNat < maxRingBufNum) :
    (wr + 1 - rd).toNat = (wr - rd).toNat + 1 := by
  have hwr := wr.toNat_lt
  have hrd := rd.toNat_lt
  simp only [UInt32.toNat_sub, UInt32.toNat_add, UInt32.toNat_ofNat, maxRingBufNum] at h ⊢
  omega

theorem toNat_consumed {wr rd : UInt32} (h : 0 < (wr - rd).toNat) :
    (wr - (rd + 1)).toNat = (wr - rd).toNat - 1 := by
  have hwr := wr.toNat_lt
  have hrd := rd.toNat_lt
  simp only [UInt32.toNat_sub, UInt32.toNat_add, UInt32.toNat_ofNat] at h ⊢
  omega

/-! ### One step -/

/-- A step that leaves the live buffers, the counters and `pIngress` as they are. -/
theorem Inv.same {s s' : State} (h : Inv s) (hlive : s'.live = s.live)
    (hwr : s'.wrCount = s.wrCount) (hrd : s'.rdCount = s.rdCount)
    (hingress : s'.pIngress = s.pIngress) : Inv s' := by
  obtain ⟨hle, hcount, hrow⟩ := h
  refine ⟨?_, ?_, ?_⟩
  · rw [hlive]
    exact hle
  · rw [hlive, hwr, hrd]
    exact hcount
  · rw [hlive, hingress]
    exact hrow

theorem Inv.ringBufferGet {s : State} (h : Inv s) (hreceiver : s.receiver = .select) :
    Inv (ringBufferGet s) := by
  have hlive : s.live = s.processing.toList ++ s.msgqTsNetRx := by
    rw [State.live, hreceiver]
    exact List.append_nil _
  rw [Net.ringBufferGet]
  split
  · next hroom =>
    obtain ⟨first, hrow, hingress⟩ := h.row
    have hnext : State.live { s with
        wrCount := s.wrCount + 1
        pIngress := (s.pIngress + 1) % maxRingBufNum
        receiver := .holds (some s.pIngress) } = s.live ++ [s.pIngress] := by
      rw [hlive]
      rfl
    have hcount := h.count
    refine ⟨?_, ?_, first, ?_, ?_⟩
    · rw [hnext, List.length_append, List.length_singleton]
      omega
    · rw [hnext, List.length_append, List.length_singleton, ← hcount]
      exact toNat_taken hroom
    · rw [hnext, List.length_append, List.length_singleton, List.range'_concat, List.map_append,
        ← hrow, Nat.one_mul, hingress]
      rfl
    · rw [hnext, List.length_append, List.length_singleton]
      show (s.pIngress + 1) % maxRingBufNum = _
      rw [hingress, Nat.mod_add_mod, Nat.add_assoc]
  · refine h.same ?_ rfl rfl rfl
    rw [hlive]
    exact List.append_nil _

theorem live_receive (s : State) {buffer : Option Nat} {r : Received} {queued : Bool}
    (hreceiver : s.receiver = .holds buffer) :
    (receive s buffer r queued).live =
      if r.accepted s = true ∧ queued = true then s.live
      else s.processing.toList ++ s.msgqTsNetRx := by
  have hlive : s.live = s.processing.toList ++ s.msgqTsNetRx ++ buffer.toList := by
    rw [State.live, hreceiver]
    cases buffer <;> rfl
  rw [hlive]
  unfold receive
  cases haccepted : r.accepted s <;> cases queued <;> cases buffer <;> cases r <;>
    simp [State.live, ReceiverPc.buffers]

theorem counters_receive (s : State) (buffer : Option Nat) (r : Received) (queued : Bool) :
    (receive s buffer r queued).wrCount = s.wrCount ∧
    (receive s buffer r queued).rdCount = s.rdCount ∧
    (receive s buffer r queued).pIngress = s.pIngress := by
  unfold receive
  cases r.accepted s <;> cases buffer <;> cases r <;> simp

theorem Inv.receive {s : State} (h : Inv s) {buffer : Option Nat} {r : Received} {queued : Bool}
    (hreceiver : s.receiver = .holds buffer)
    (hguard : s.receiver.buffers ≠ [] → r.accepted s = true ∧ queued = true) :
    Inv (receive s buffer r queued) := by
  obtain ⟨hwr, hrd, hingress⟩ := counters_receive s buffer r queued
  refine h.same ?_ hwr hrd hingress
  rw [live_receive s hreceiver]
  split
  · rfl
  · next hlost =>
    have hnone : s.receiver.buffers = [] := by
      by_contra hne
      exact hlost (hguard hne)
    rw [State.live, hnone, List.append_nil]

theorem Inv.tsNewConnProc {s : State} (h : Inv s) {fd : Int} {ip port : UInt32}
    (hguard : 0 ≤ fd → s.live = []) : Inv (tsNewConnProc s fd ip port) := by
  rw [Net.tsNewConnProc]
  split
  · exact h
  · next hfd =>
    have hnil : State.live { s with
        clientIp := ip, clientPort := port, pEgress := 0, pIngress := 0, wrCount := 0,
        rdCount := 0 } = [] := hguard (by omega)
    refine ⟨?_, ?_, 0, ?_, ?_⟩
    · rw [hnil]
      exact Nat.zero_le _
    · rw [hnil]
      show ((0 : UInt32) - 0).toNat = 0
      decide
    · rw [hnil]
      rfl
    · rw [hnil]
      rfl

theorem Inv.msqReceive {s : State} (h : Inv s) : Inv (msqReceive s) := by
  rw [Net.msqReceive]
  split
  · next pos rest hprocessing hmsgq =>
    refine h.same ?_ rfl rfl rfl
    rw [State.live, State.live, hprocessing, hmsgq]
    rfl
  · exact h

/-- The oldest buffer is consumed. -/
theorem Inv.tsNetMsgProc {s : State} (h : Inv s) : Inv (tsNetMsgProc s) := by
  rw [Net.tsNetMsgProc]
  split
  · next pos hprocessing =>
    have hlive : s.live = pos :: State.live
        { s with rdCount := s.rdCount + 1, processing := none } := by
      rw [State.live, hprocessing]
      rfl
    generalize hrest : State.live { s with rdCount := s.rdCount + 1, processing := none } = rest
      at hlive
    obtain ⟨hle, hcount, first, hrow, hingress⟩ := h
    rw [hlive, List.length_cons] at hle hcount hingress
    rw [hlive, List.length_cons, List.range'_succ, List.map_cons] at hrow
    injection hrow with hfirst hrow
    refine ⟨?_, ?_, first + 1, ?_, ?_⟩
    · rw [hrest]
      omega
    · rw [hrest]
      show (s.wrCount - (s.rdCount + 1)).toNat = _
      rw [toNat_consumed (by omega), hcount, Nat.add_sub_cancel]
    · rw [hrest]
      exact hrow
    · rw [hrest, Nat.add_assoc, Nat.add_comm 1]
      exact hingress
  · exact h

theorem Inv.step {s : State} (h : Inv s) (e : Event) (hguard : Guard s e) : Inv (step s e) := by
  cases e with
  | get =>
    cases hreceiver : s.receiver with
    | select =>
      simp only [Net.step, hreceiver]
      exact h.ringBufferGet hreceiver
    | holds buffer =>
      simp only [Net.step, hreceiver]
      exact h
  | receive r queued =>
    cases hreceiver : s.receiver with
    | select =>
      simp only [Net.step, hreceiver]
      exact h
    | holds buffer =>
      simp only [Net.step, hreceiver]
      exact h.receive hreceiver hguard
  | newConn fd ip port =>
    cases hreceiver : s.receiver with
    | select =>
      simp only [Net.step, hreceiver]
      exact h.tsNewConnProc (hguard hreceiver)
    | holds buffer =>
      simp only [Net.step, hreceiver]
      exact h
  | msqReceive => exact h.msqReceive
  | processed => exact h.tsNetMsgProc

/-- The counters show a step that loses a buffer. -/
theorem Inv.guard {s : State} (h : Inv s) (e : Event) (howned : Owned (Net.step s e)) : Guard s e := by
  cases e with
  | receive r queued =>
    intro hbuffers
    cases hreceiver : s.receiver with
    | select =>
      rw [hreceiver] at hbuffers
      exact absurd rfl hbuffers
    | holds buffer =>
      have hcount := howned.count
      simp only [Net.step, hreceiver] at hcount
      obtain ⟨hwr, hrd, -⟩ := counters_receive s buffer r queued
      rw [hwr, hrd, h.count, live_receive s hreceiver] at hcount
      by_contra hlost
      rw [if_neg hlost, State.live, List.length_append] at hcount
      exact hbuffers (List.eq_nil_of_length_eq_zero (by omega))
  | newConn fd ip port =>
    intro hreceiver hfd
    have hcount := howned.count
    simp only [Net.step, hreceiver, Net.tsNewConnProc, if_neg (Int.not_lt.mpr hfd)] at hcount
    have hzero : ((0 : UInt32) - 0).toNat = 0 := by
      decide
    rw [hzero] at hcount
    rw [State.live, hreceiver]
    exact List.eq_nil_of_length_eq_zero hcount.symm
  | get | msqReceive | processed => trivial

/-! ### Runs -/

/-- **The receive buffers** are handed out once and counted right in exactly those runs in which
every receive into a buffer sends its message and no connection is accepted while a buffer is
handed out. -/
theorem buffers_owned_iff (es : List Event) :
    AllStates step Owned .start es ↔ AllSteps step Guard .start es := by
  have hsteps : AllSteps step (fun _ _ => True) .start es :=
    AllSteps.of_forall_mem (fun _ _ _ => trivial) _
  exact allStates_iff_allSteps step Inv (fun _ hs => hs.owned)
    (fun _ e hs _ hG => hs.step e hG) (fun _ e hs _ howned => hs.guard e howned) inv_start hsteps

/-- A datagram from the client that is consumed, and sixteen from somewhere else. -/
def foreignSenders : List Event :=
  [.get, .receive (.udp 5 1 7) true, .msqReceive, .processed] ++
    (List.replicate 16 [.get, .receive (.udp 5 2 7) true]).flatten

/-- The ring is full, and no message is on its way. -/
theorem full_without_messages : ¬∀ es, AllStates step Owned .start es := by
  intro h
  have hroom := (h foreignSenders).last.room (by decide +kernel)
  revert hroom
  decide +kernel

end Opconn.Terminal.Net
