import Opconn.Terminal.UartRing

/-!
# Bytes are delivered once and in order

The bytes handed to `ts_def_uart_rx_func` for a port and the unread ones behind them are the
bytes of the accepted chunks.  This holds as long as no chunk is larger than the room that is
left, no chunk is dropped while `offset` belongs to another port, and no drain meets unread
bytes that wrap: the two parts that are sent then are one byte off.
-/

namespace Opconn.Terminal

open Runs

/-! ### What is delivered -/

/-- The unread bytes of a ring. -/
def UartRing.unread (r : UartRing) : List UInt8 :=
  Ring.segment r.data uartMaxSize r.rdPos (Ring.used uartMaxSize r.rdPos r.wrPos)

/-- How many bytes the ring can take; one cell stays free. -/
def UartRing.room (r : UartRing) : Nat := uartMaxSize - 1 - Ring.used uartMaxSize r.rdPos r.wrPos

/-- `ts_uart2net_proc` is at work on a ring. -/
def State.draining (s : State) (t : TermId) : Prop :=
  ∃ wrpos rdpos calls, s.proc = .send t wrpos rdpos calls

/-- What is handed over is what was accepted, in order, and what is missing of it is unread. -/
structure Delivered (s : State) : Prop where
  order : ∀ t, s.handed t <+: s.accepted t
  rest : ∀ t, ¬s.draining t → s.handed t ++ (s.rings t).unread = s.accepted t

/-- A chunk is dropped only for want of room and then leaves the write position alone, and no
byte is copied over an unread one. -/
def Careful (s : State) : Event → Prop
  | .chunk t c => s.monitor = .recv → (s.rings t).full = true → (s.rings t).room < c.bytes.length
  | .monitor =>
    (∀ t chunk, s.monitor = .copy t false chunk [] →
      ((monitorStep s).rings t).wrPos = (s.rings t).wrPos) ∧
    ∀ t chunk byte rest, s.monitor = .copy t true chunk (byte :: rest) →
      ∀ i < Ring.used uartMaxSize (s.rings t).rdPos (s.rings t).wrPos,
        ((s.rings t).rdPos + i) % uartMaxSize ≠ s.offset
  | .drain _ | .proc => True

/-- The steps that go well: a chunk fits into the room, or the test meets a full ring whose
port was the last one copied to and a chunk that does not fit; and unread bytes are drained
before they wrap. -/
def Guard (s : State) : Event → Prop
  | .chunk t c => s.monitor = .recv →
      if (s.rings t).full then 60 ≤ c.bytes.length ∧ s.offset = (s.rings t).wrPos
      else c.bytes.length ≤ (s.rings t).room
  | .drain t => s.proc = .idle → (s.rings t).rdPos ≤ (s.rings t).wrPos
  | .monitor | .proc => True

instance (s : State) : DecidablePred (Guard s)
  | .chunk t _ => inferInstanceAs (Decidable (_ → if (s.rings t).full then _ ∧ _ else _))
  | .drain _ => inferInstanceAs (Decidable (_ → _))
  | .monitor | .proc => inferInstanceAs (Decidable True)

/-! ### The invariant -/

/-- The copying loop: what was copied stands behind the write position. -/
def MonitorInv (s : State) : Prop :=
  match s.monitor with
  | .recv => True
  | .copy t false _ _ => s.offset = (s.rings t).wrPos
  | .copy t true chunk rest => ∃ done, chunk = done ++ rest ∧
      Ring.used uartMaxSize (s.rings t).rdPos (s.rings t).wrPos + chunk.length < uartMaxSize ∧
      s.offset = ((s.rings t).wrPos + done.length) % uartMaxSize ∧
      Ring.segment (s.rings t).data uartMaxSize (s.rings t).wrPos done.length = done

/-- The first `k` unread bytes are handed over already, and the calls that are left are for
the next ones. -/
structure Book (mtu : Nat) (r : UartRing) (handed accepted : List UInt8)
    (calls : Option (Nat × Nat × List (Nat × Nat))) (k : Nat) : Prop where
  le : k ≤ Ring.used uartMaxSize r.rdPos r.wrPos
  bytes : handed ++ Ring.segment r.data uartMaxSize (r.rdPos + k)
    (Ring.used uartMaxSize r.rdPos r.wrPos - k) = accepted
  idle : calls = none → k = 0
  send : ∀ wrpos rdpos cs, calls = some (wrpos, rdpos, cs) → rdpos = r.rdPos ∧ rdpos < wrpos ∧
    wrpos < uartMaxSize ∧ ∃ m, cs = sendData2net mtu (rdpos + k) m ∧ rdpos + k + m = wrpos ∧
      k + m ≤ Ring.used uartMaxSize r.rdPos r.wrPos

/-- What `ts_uart2net_proc` is doing for a port. -/
def State.calls (s : State) (t : TermId) : Option (Nat × Nat × List (Nat × Nat)) :=
  match s.proc with
  | .idle => none
  | .send t' wrpos rdpos calls => if t' = t then some (wrpos, rdpos, calls) else none

theorem sendData2net_eq_nil {mtu start len : Nat} (h : sendData2net mtu start len = []) :
    len = 0 := by
  rw [sendData2net] at h
  cases hcount : len / mtu with
  | zero =>
    by_contra hne
    rw [hcount, sendPackets, if_pos (by omega)] at h
    cases h
  | succ count =>
    rw [hcount] at h
    cases h

/-- The first call and those behind it. -/
theorem sendData2net_eq_cons {mtu start len a n : Nat} {calls : List (Nat × Nat)} (hmtu : 0 < mtu)
    (h : sendData2net mtu start len = (a, n) :: calls) :
    a = start ∧ n ≤ len ∧ calls = sendData2net mtu (start + n) (len - n) := by
  rw [sendData2net] at h
  cases hcount : len / mtu with
  | zero =>
    rw [hcount, sendPackets] at h
    split at h
    · cases h
      refine ⟨rfl, Nat.le_refl _, ?_⟩
      rw [Nat.sub_self, sendData2net, Nat.zero_div]
      rfl
    · cases h
  | succ count =>
    rw [hcount, sendPackets] at h
    cases h
    have hle : mtu ≤ len := by
      by_contra hlt
      rw [Nat.div_eq_of_lt (by omega)] at hcount
      cases hcount
    have hrest : (len - mtu) / mtu = count := by
      rw [Nat.div_eq_sub_div hmtu hle] at hcount
      exact Nat.succ.inj hcount
    exact ⟨rfl, hle, by rw [sendData2net, hrest]⟩

section Invariant

variable (maxPayload : TermId → Payload)

structure Inv (s : State) : Prop where
  rd : ∀ t, (s.rings t).rdPos < uartMaxSize
  wr : ∀ t, (s.rings t).wrPos < uartMaxSize
  monitor : MonitorInv s
  books : ∀ t, ∃ k, Book (maxPayload t).size (s.rings t) (s.handed t) (s.accepted t) (s.calls t) k

theorem inv_start : Inv maxPayload .start := by
  have hpos : 0 < uartMaxSize := by decide
  refine ⟨fun _ => hpos, fun _ => hpos, trivial, fun t => ⟨0, Nat.zero_le _, ?_, fun _ => rfl, ?_⟩⟩
  · show [] ++ Ring.segment _ _ _ (Ring.used uartMaxSize 0 0 - 0) = []
    rw [Ring.used_self hpos]
    rfl
  · intro wrpos rdpos cs hcalls
    cases hcalls

theorem Inv.delivered {s : State} (h : Inv maxPayload s) : Delivered s := by
  constructor
  · intro t
    obtain ⟨k, hbook⟩ := h.books t
    exact ⟨_, hbook.bytes⟩
  · intro t hidle
    obtain ⟨k, hbook⟩ := h.books t
    have hnone : s.calls t = none := by
      rw [State.calls]
      split
      · rfl
      · next t' wrpos rdpos calls hproc =>
        rw [if_neg]
        rintro rfl
        exact hidle ⟨_, _, _, hproc⟩
    have hzero := hbook.idle hnone
    subst hzero
    exact hbook.bytes

/-! ### One step -/

/-- What is copied stands behind the unread bytes. -/
theorem segment_copied {r : UartRing} (hrd : r.rdPos < uartMaxSize) {n k : Nat} (byte : UInt8)
    (hroom : Ring.used uartMaxSize r.rdPos r.wrPos + n < uartMaxSize)
    (hk : k ≤ Ring.used uartMaxSize r.rdPos r.wrPos) (hwr : r.wrPos < uartMaxSize) :
    Ring.segment (Function.update r.data ((r.wrPos + n) % uartMaxSize) byte) uartMaxSize
        (r.rdPos + k) (Ring.used uartMaxSize r.rdPos r.wrPos - k) =
      Ring.segment r.data uartMaxSize (r.rdPos + k)
        (Ring.used uartMaxSize r.rdPos r.wrPos - k) := by
  apply Ring.segment_update
  intro i hi
  have hbehind : (r.wrPos + n) % uartMaxSize =
      (r.rdPos + (Ring.used uartMaxSize r.rdPos r.wrPos + n)) % uartMaxSize := by
    conv_lhs => rw [← Ring.add_used hrd hwr]
    rw [Nat.mod_add_mod, Nat.add_assoc]
  rw [hbehind, Nat.add_assoc]
  exact Ring.add_mod_ne (by omega) hroom r.rdPos

/-- A step that leaves the rings, the calls and the books of all ports but one. -/
theorem books_of_one {s s' : State} (h : Inv maxPayload s) (t : TermId)
    (hrings : ∀ t', t' ≠ t → s'.rings t' = s.rings t')
    (hhanded : ∀ t', t' ≠ t → s'.handed t' = s.handed t')
    (haccepted : ∀ t', t' ≠ t → s'.accepted t' = s.accepted t')
    (hcalls : ∀ t', t' ≠ t → s'.calls t' = s.calls t')
    (hself : ∃ k, Book (maxPayload t).size (s'.rings t) (s'.handed t) (s'.accepted t)
      (s'.calls t) k) (t' : TermId) :
    ∃ k, Book (maxPayload t').size (s'.rings t') (s'.handed t') (s'.accepted t') (s'.calls t') k := by
  by_cases heq : t' = t
  · rw [heq]
    exact hself
  · rw [hrings t' heq, hhanded t' heq, haccepted t' heq, hcalls t' heq]
    exact h.books t'

theorem rings_setRing (s : State) (t : TermId) (r : UartRing) (t' : TermId) :
    (setRing s t r).rings t' = if t' = t then r else s.rings t' := by
  simp [setRing, Function.update_apply]

/-- A property of every ring after one of them is replaced. -/
theorem forall_setRing {s : State} {t : TermId} {r : UartRing} (P : UartRing → Prop)
    (hself : P r) (h : ∀ t', P (s.rings t')) (t' : TermId) : P ((setRing s t r).rings t') := by
  rw [rings_setRing]
  split
  · exact hself
  · exact h t'

/-- The copying loop does not mind that bytes are read. -/
theorem MonitorInv.of_rdPos {s s' : State} (h : MonitorInv s) (hmonitor : s'.monitor = s.monitor)
    (hoffset : s'.offset = s.offset)
    (hrings : ∀ t, (s'.rings t).wrPos = (s.rings t).wrPos ∧ (s'.rings t).data = (s.rings t).data ∧
      Ring.used uartMaxSize (s'.rings t).rdPos (s'.rings t).wrPos ≤
        Ring.used uartMaxSize (s.rings t).rdPos (s.rings t).wrPos) : MonitorInv s' := by
  rw [MonitorInv] at h ⊢
  rw [hmonitor, hoffset]
  cases hpc : s.monitor with
  | recv => trivial
  | copy t buffer chunk rest =>
    obtain ⟨hwr, hdata, hused⟩ := hrings t
    cases buffer with
    | false =>
      simp only [hpc, hwr] at h ⊢
      exact h
    | true =>
      simp only [hpc] at h ⊢
      obtain ⟨done, hchunk, hroom, hoff, hdone⟩ := h
      refine ⟨done, hchunk, by omega, ?_, ?_⟩
      · rw [hwr]
        exact hoff
      · rw [hwr, hdata]
        exact hdone

theorem Inv.recvChunk {s : State} (h : Inv maxPayload s) {t : TermId} {c : Chunk}
    (hguard : if (s.rings t).full then 60 ≤ c.bytes.length ∧ s.offset = (s.rings t).wrPos
      else c.bytes.length ≤ (s.rings t).room) : Inv maxPayload (recvChunk s t c.bytes) := by
  rw [Terminal.recvChunk]
  split
  · next hfull =>
    rw [if_pos hfull] at hguard
    exact ⟨h.rd, h.wr, hguard.2, h.books⟩
  · next hfull =>
    rw [if_neg hfull] at hguard
    refine ⟨h.rd, h.wr, ⟨[], rfl, ?_, ?_, rfl⟩, h.books⟩
    · have hlt := Ring.used_lt (h.rd t) (s.rings t).wrPos
      rw [UartRing.room] at hguard
      show Ring.used uartMaxSize (s.rings t).rdPos (s.rings t).wrPos + _ < _
      omega
    · exact (Nat.mod_eq_of_lt (h.wr t)).symm

/-- One more byte is copied. -/
theorem Inv.copied {s : State} (h : Inv maxPayload s) {t : TermId} {chunk rest : List UInt8}
    {byte : UInt8} (hmonitor : s.monitor = .copy t true chunk (byte :: rest)) :
    Inv maxPayload (monitorStep s) := by
  have hinv := h.monitor
  simp only [MonitorInv, hmonitor] at hinv
  obtain ⟨done, hchunk, hroom, hoffset, hdone⟩ := hinv
  have hlen : done.length + 1 ≤ chunk.length := by
    rw [hchunk, List.length_append, List.length_cons]
    omega
  simp only [monitorStep, hmonitor]
  refine ⟨forall_setRing (·.rdPos < uartMaxSize) (h.rd t) h.rd,
    forall_setRing (·.wrPos < uartMaxSize) (h.wr t) h.wr, ?_, ?_⟩
  · simp only [MonitorInv, setRing, Function.update_self]
    refine ⟨done ++ [byte], by simpa using hchunk, hroom, ?_, ?_⟩
    · rw [hoffset, Nat.mod_add_mod, List.length_append, List.length_singleton, Nat.add_assoc]
    · rw [List.length_append, List.length_singleton, Ring.segment_succ, hoffset,
        Function.update_self, Ring.segment_update, hdone]
      intro i hi
      exact Ring.add_mod_ne hi (by omega) _
  · refine books_of_one maxPayload h t ?_ (fun _ _ => rfl) (fun _ _ => rfl) (fun _ _ => rfl) ?_
    · intro t' hne
      simp [setRing, hne]
    · obtain ⟨k, hbook⟩ := h.books t
      refine ⟨k, ?_⟩
      simp only [setRing, Function.update_self]
      refine ⟨hbook.le, ?_, hbook.idle, hbook.send⟩
      rw [hoffset, segment_copied (h.rd t) byte (by omega) hbook.le (h.wr t)]
      exact hbook.bytes

/-- The write position moves behind a chunk. -/
theorem Inv.published {s : State} (h : Inv maxPayload s) {t : TermId} {chunk : List UInt8}
    (hmonitor : s.monitor = .copy t true chunk []) : Inv maxPayload (monitorStep s) := by
  have hinv := h.monitor
  simp only [MonitorInv, hmonitor, List.append_nil] at hinv
  obtain ⟨done, rfl, hroom, hoffset, hdone⟩ := hinv
  have hused := Ring.used_push (h.rd t) (h.wr t) hroom
  rw [← hoffset] at hused
  have hwr : s.offset < uartMaxSize := by
    rw [hoffset]
    exact Nat.mod_lt _ (by decide)
  simp only [monitorStep, hmonitor, if_true]
  refine ⟨forall_setRing (·.rdPos < uartMaxSize) (h.rd t) h.rd,
    forall_setRing (·.wrPos < uartMaxSize) hwr h.wr, trivial, ?_⟩
  refine books_of_one maxPayload h t ?_ (fun _ _ => rfl) ?_ (fun _ _ => rfl) ?_
  · intro t' hne
    simp [setRing, hne]
  · intro t' hne
    simp [hne]
  · obtain ⟨k, hbook⟩ := h.books t
    refine ⟨k, ?_⟩
    simp only [setRing, Function.update_self]
    refine ⟨?_, ?_, hbook.idle, ?_⟩
    · simp only [hused]
      exact Nat.le_add_right_of_le hbook.le
    · -- behind the unread bytes the copied ones are read next
      have hsplit : Ring.used uartMaxSize (s.rings t).rdPos (s.rings t).wrPos + chunk.length - k =
          Ring.used uartMaxSize (s.rings t).rdPos (s.rings t).wrPos - k + chunk.length := by
        have := hbook.le
        omega
      have hnext : (s.rings t).rdPos + k +
          (Ring.used uartMaxSize (s.rings t).rdPos (s.rings t).wrPos - k) =
            (s.rings t).rdPos + Ring.used uartMaxSize (s.rings t).rdPos (s.rings t).wrPos := by
        have := hbook.le
        omega
      simp only [hused]
      rw [hsplit, Ring.segment_add, hnext, ← List.append_assoc, hbook.bytes, ← Ring.segment_mod,
        Ring.add_used (h.rd t) (h.wr t), hdone]
    · intro wrpos rdpos cs hcalls
      obtain ⟨hrd, hlt, hmax, m, hcs, hm, hle⟩ := hbook.send wrpos rdpos cs hcalls
      refine ⟨hrd, hlt, hmax, m, hcs, hm, ?_⟩
      simp only [hused]
      exact Nat.le_add_right_of_le hle

/-- A dropped chunk leaves the ring as it was. -/
theorem Inv.dropped {s : State} (h : Inv maxPayload s) {t : TermId} {chunk : List UInt8}
    (hmonitor : s.monitor = .copy t false chunk []) : Inv maxPayload (monitorStep s) := by
  have hoffset := h.monitor
  simp only [MonitorInv, hmonitor] at hoffset
  have hsame : setRing s t { s.rings t with wrPos := s.offset } = s := by
    rw [hoffset, setRing, Function.update_eq_self]
  simp only [monitorStep, hmonitor, hsame]
  exact ⟨h.rd, h.wr, trivial, h.books⟩

theorem Inv.monitorStep {s : State} (h : Inv maxPayload s) : Inv maxPayload (monitorStep s) := by
  cases hmonitor : s.monitor with
  | recv =>
    rw [Terminal.monitorStep, hmonitor]
    exact h
  | copy t buffer chunk rest =>
    cases rest with
    | nil =>
      cases buffer with
      | false => exact h.dropped maxPayload hmonitor
      | true => exact h.published maxPayload hmonitor
    | cons byte rest =>
      cases buffer with
      | false =>
        have hoffset := h.monitor
        simp only [MonitorInv, hmonitor] at hoffset
        simp only [Terminal.monitorStep, hmonitor]
        exact ⟨h.rd, h.wr, hoffset, h.books⟩
      | true => exact h.copied maxPayload hmonitor

theorem calls_of_idle {s : State} (hproc : s.proc = .idle) (t : TermId) : s.calls t = none := by
  rw [State.calls, hproc]

theorem calls_send {s : State} {t : TermId} {wrpos rdpos : Nat} {calls : List (Nat × Nat)}
    (hproc : s.proc = .send t wrpos rdpos calls) (t' : TermId) :
    s.calls t' = if t' = t then some (wrpos, rdpos, calls) else none := by
  rw [State.calls, hproc]
  by_cases heq : t' = t
  · rw [if_pos heq]
    exact if_pos heq.symm
  · rw [if_neg heq]
    exact if_neg (Ne.symm heq)

/-- A drain begins in front of the wrap. -/
theorem Inv.uart2netProc {s : State} (h : Inv maxPayload s) (hproc : s.proc = .idle) {t : TermId}
    (hguard : (s.rings t).rdPos ≤ (s.rings t).wrPos) :
    Inv maxPayload (uart2netProc maxPayload s t) := by
  simp only [Terminal.uart2netProc]
  split
  · exact h
  · next hne =>
    have hlt : (s.rings t).rdPos < (s.rings t).wrPos := by omega
    have hused : Ring.used uartMaxSize (s.rings t).rdPos (s.rings t).wrPos =
        (s.rings t).wrPos - (s.rings t).rdPos := by
      rw [Ring.used_eq (h.rd t) (h.wr t), if_pos hguard]
    have hcalls := calls_send (s := { s with
      proc := .send t (s.rings t).wrPos (s.rings t).rdPos
        (uart2netCalls (maxPayload t).size (s.rings t).wrPos (s.rings t).rdPos) }) rfl
    refine ⟨h.rd, h.wr, h.monitor, ?_⟩
    refine books_of_one maxPayload h t (fun _ _ => rfl) (fun _ _ => rfl) (fun _ _ => rfl) ?_ ?_
    · intro t' hne'
      rw [hcalls, if_neg hne', calls_of_idle hproc]
    · obtain ⟨k, hbook⟩ := h.books t
      have hzero := hbook.idle (calls_of_idle hproc t)
      subst hzero
      refine ⟨0, hbook.le, hbook.bytes, fun _ => rfl, ?_⟩
      intro wrpos rdpos cs hcs
      rw [hcalls, if_pos rfl] at hcs
      cases hcs
      refine ⟨rfl, hlt, h.wr t, (s.rings t).wrPos - (s.rings t).rdPos, ?_, by omega, ?_⟩
      · rw [uart2netCalls, unreadLen, if_pos hlt, if_pos hlt]
        rfl
      · show _ ≤ Ring.used uartMaxSize (s.rings t).rdPos (s.rings t).wrPos
        omega

/-- One call hands over the next unread bytes. -/
theorem Inv.handedOver {s : State} (h : Inv maxPayload s) {t : TermId} {wrpos rdpos start len : Nat}
    {calls : List (Nat × Nat)} (hproc : s.proc = .send t wrpos rdpos ((start, len) :: calls)) :
    Inv maxPayload (procStep s) := by
  simp only [procStep, hproc]
  refine ⟨h.rd, h.wr, h.monitor, ?_⟩
  have hold := calls_send hproc
  have hnew := calls_send (s := { s with
    handed := Function.update s.handed t
      (s.handed t ++ (List.range' start len).map (s.rings t).data)
    proc := .send t wrpos rdpos calls }) rfl
  refine books_of_one maxPayload h t (fun _ _ => rfl) ?_ (fun _ _ => rfl) ?_ ?_
  · intro t' hne
    simp [hne]
  · intro t' hne
    rw [hnew, hold, if_neg hne, if_neg hne]
  · obtain ⟨k, hbook⟩ := h.books t
    obtain ⟨hrd, hlt, hmax, m, hcs, hm, hle⟩ := hbook.send _ _ _ ((hold t).trans (if_pos rfl))
    have hmtu : 0 < (maxPayload t).size := Nat.lt_of_lt_of_le (by decide) (maxPayload t).floor
    obtain ⟨hstart, hlen, hrest⟩ := sendData2net_eq_cons hmtu hcs.symm
    have hsplit : Ring.used uartMaxSize (s.rings t).rdPos (s.rings t).wrPos - k =
        len + (Ring.used uartMaxSize (s.rings t).rdPos (s.rings t).wrPos - (k + len)) := by omega
    refine ⟨k + len, ?_, ?_, ?_, ?_⟩
    · show k + len ≤ Ring.used uartMaxSize (s.rings t).rdPos (s.rings t).wrPos
      omega
    · have hbytes := hbook.bytes
      rw [hsplit, Ring.segment_add, Ring.segment_eq_map (by omega), ← List.append_assoc] at hbytes
      simp only [Function.update_self]
      rw [hstart, hrd, ← Nat.add_assoc]
      exact hbytes
    · rw [hnew, if_pos rfl]
      intro hnone
      cases hnone
    · intro wrpos' rdpos' cs hcs'
      rw [hnew, if_pos rfl] at hcs'
      cases hcs'
      refine ⟨hrd, hlt, hmax, m - len, ?_, by omega, ?_⟩
      · rw [hrest, Nat.add_assoc]
      · show k + len + (m - len) ≤ Ring.used uartMaxSize (s.rings t).rdPos (s.rings t).wrPos
        omega

/-- The read position moves behind what was handed over. -/
theorem Inv.finished {s : State} (h : Inv maxPayload s) {t : TermId} {wrpos rdpos : Nat}
    (hproc : s.proc = .send t wrpos rdpos []) : Inv maxPayload (procStep s) := by
  have hold := calls_send hproc
  obtain ⟨k, hbook⟩ := h.books t
  obtain ⟨hrd, hlt, hmax, m, hcs, hm, hle⟩ := hbook.send _ _ _ ((hold t).trans (if_pos rfl))
  have hzero : m = 0 := sendData2net_eq_nil hcs.symm
  have hwrap : (rdpos + (wrpos - rdpos)) % uartMaxSize = ((s.rings t).rdPos + k) % uartMaxSize := by
    congr 1
    omega
  simp only [procStep, hproc, if_pos hlt, unreadLen, hwrap]
  refine ⟨forall_setRing (·.rdPos < uartMaxSize) (Nat.mod_lt _ (by decide)) h.rd,
    forall_setRing (·.wrPos < uartMaxSize) (h.wr t) h.wr, ?_, ?_⟩
  · refine h.monitor.of_rdPos rfl rfl fun t' => ?_
    rw [show State.rings { setRing s t _ with proc := .idle } t' = _ from rings_setRing s t _ t']
    split
    · next heq =>
      subst heq
      refine ⟨rfl, rfl, ?_⟩
      rw [Ring.used_pop (h.rd t') (h.wr t') hbook.le]
      exact Nat.sub_le _ _
    · exact ⟨rfl, rfl, Nat.le_refl _⟩
  · refine books_of_one maxPayload h t ?_ (fun _ _ => rfl) (fun _ _ => rfl) ?_ ?_
    · intro t' hne
      simp [setRing, hne]
    · intro t' hne
      rw [hold, if_neg hne]
      rfl
    · refine ⟨0, Nat.zero_le _, ?_, fun _ => rfl, ?_⟩
      · simp only [setRing, Function.update_self]
        rw [Ring.used_pop (h.rd t) (h.wr t) hbook.le, Nat.add_zero, Nat.sub_zero, Ring.segment_mod]
        exact hbook.bytes
      · intro wrpos' rdpos' cs hcs'
        cases hcs'

theorem Inv.procStep {s : State} (h : Inv maxPayload s) : Inv maxPayload (procStep s) := by
  cases hproc : s.proc with
  | idle =>
    rw [Terminal.procStep, hproc]
    exact h
  | send t wrpos rdpos calls =>
    cases calls with
    | nil => exact h.finished maxPayload hproc
    | cons call calls => exact h.handedOver maxPayload hproc

theorem Inv.step {s : State} {e : Event} (h : Inv maxPayload s) (hguard : Guard s e) :
    Inv maxPayload (step maxPayload s e) := by
  cases e with
  | chunk t c =>
    rw [Terminal.step]
    split
    · next hrecv => exact h.recvChunk maxPayload (hguard hrecv)
    · exact h
  | monitor => exact h.monitorStep maxPayload
  | drain t =>
    rw [Terminal.step]
    split
    · next hidle => exact h.uart2netProc maxPayload hidle (hguard hidle)
    · exact h
  | proc => exact h.procStep maxPayload

/-- At the test of a full ring there is room for 59 bytes. -/
theorem room_of_full {r : UartRing} (hrd : r.rdPos < uartMaxSize) (hwr : r.wrPos < uartMaxSize)
    (h : r.full = true) : r.room = 59 := by
  rw [UartRing.full, decide_eq_true_eq] at h
  rw [UartRing.room, Ring.used]
  simp only [uartMaxSize] at *
  omega

theorem Inv.careful {s : State} {e : Event} (h : Inv maxPayload s) (hguard : Guard s e) :
    Careful s e := by
  cases e with
  | chunk t c =>
    intro hrecv hfull
    have hlong := hguard hrecv
    rw [if_pos hfull] at hlong
    rw [room_of_full (h.rd t) (h.wr t) hfull]
    exact hlong.1
  | monitor =>
    constructor
    · intro t chunk hmonitor
      have hoffset := h.monitor
      simp only [MonitorInv, hmonitor] at hoffset
      simp only [Terminal.monitorStep, hmonitor, setRing, Function.update_self]
      exact hoffset
    · intro t chunk byte rest hmonitor i hi
      have hinv := h.monitor
      simp only [MonitorInv, hmonitor] at hinv
      obtain ⟨done, hchunk, hroom, hoffset, -⟩ := hinv
      have hlen : done.length ≤ chunk.length := by
        rw [hchunk, List.length_append]
        exact Nat.le_add_right _ _
      rw [hoffset]
      conv_rhs => rw [← Ring.add_used (h.rd t) (h.wr t), Nat.mod_add_mod, Nat.add_assoc]
      exact Ring.add_mod_ne (by omega) (by omega) _
  | drain t => trivial
  | proc => trivial

/-- **Bytes are delivered once and in order.**  In any interleaving whose steps meet `Guard`
every byte that is handed over is the next one of the accepted chunks, nothing unread is
written over, and a chunk is dropped only when it does not fit. -/
theorem bytes_delivered (events : List Event)
    (hguard : AllSteps (step maxPayload) Guard .start events) :
    AllStates (step maxPayload) Delivered .start events ∧
      AllSteps (step maxPayload) Careful .start events := by
  have hstep : ∀ s e, Inv maxPayload s → Guard s e → Inv maxPayload (Terminal.step maxPayload s e) :=
    fun s e h hg => h.step maxPayload hg
  constructor
  · apply AllStates.mono fun s (h : Inv maxPayload s) => h.delivered maxPayload
    exact allStates_of_allSteps _ _ hstep (inv_start maxPayload) hguard
  · exact allSteps_of_invariant _ _ hstep (fun s e h hg => h.careful maxPayload hg)
      (inv_start maxPayload) hguard

end Invariant

/-! ### Runs -/

def payload1024 : TermId → Payload := fun _ => ⟨1024, by decide, by decide⟩

/-- Three bytes come in and are handed over while a fourth is copied. -/
def threeBytes : List Event :=
  [.chunk 0 ⟨[1, 2, 3], by decide, by decide⟩, .monitor, .monitor, .monitor, .monitor,
    .drain 0, .chunk 0 ⟨[4], by decide, by decide⟩, .proc, .monitor, .monitor, .proc]

theorem three_bytes_delivered :
    AllSteps (step payload1024) Guard .start threeBytes ∧
    (run (step payload1024) .start threeBytes).handed 0 = [1, 2, 3] ∧
    AllStates (step payload1024) Delivered .start threeBytes := by
  have hguard : AllSteps (step payload1024) Guard .start threeBytes := by
    decide +kernel
  exact ⟨hguard, by decide +kernel, (bytes_delivered payload1024 threeBytes hguard).1⟩

/-- What a chunk that is taken does to the positions and the books of its port. -/
structure Filled (t : TermId) (n : Nat) (s s' : State) : Prop where
  monitor : s'.monitor = .recv
  proc : s'.proc = s.proc
  rdPos : (s'.rings t).rdPos = (s.rings t).rdPos
  wrPos : (s'.rings t).wrPos = ((s.rings t).wrPos + n) % uartMaxSize
  handed : s'.handed t = s.handed t
  accepted : (s'.accepted t).length = (s.accepted t).length + n

theorem run_copy (maxPayload : TermId → Payload) {s : State} {t : TermId} {chunk rest : List UInt8}
    (hmonitor : s.monitor = .copy t true chunk rest) (hoffset : s.offset < uartMaxSize) :
    let s' := run (step maxPayload) s (List.replicate (rest.length + 1) .monitor)
    s'.monitor = .recv ∧ s'.proc = s.proc ∧ (s'.rings t).rdPos = (s.rings t).rdPos ∧
      (s'.rings t).wrPos = (s.offset + rest.length) % uartMaxSize ∧ s'.handed t = s.handed t ∧
      (s'.accepted t).length = (s.accepted t).length + chunk.length := by
  induction rest generalizing s with
  | nil =>
    simp only [List.length_nil, Nat.zero_add, List.replicate_one, run_cons, run_nil, step,
      monitorStep, hmonitor, setRing, Function.update_self, if_true, Nat.add_zero,
      List.length_append, true_and, and_true]
    exact (Nat.mod_eq_of_lt hoffset).symm
  | cons byte rest ih =>
    have hnext : (monitorStep s).monitor = .copy t true chunk rest := by
      simp only [monitorStep, hmonitor]
    have hoff : (monitorStep s).offset = (s.offset + 1) % uartMaxSize := by
      simp only [monitorStep, hmonitor]
    have hrest := ih hnext (by rw [hoff]; exact Nat.mod_lt _ (by decide))
    rw [hoff, Nat.mod_add_mod] at hrest
    simp only [monitorStep, hmonitor, setRing, Function.update_self] at hrest
    rw [List.length_cons, List.replicate_succ, run_cons]
    simp only [step, monitorStep, hmonitor, setRing]
    rw [Nat.add_assoc, Nat.add_comm 1] at hrest
    exact hrest

/-- A chunk and the steps that copy it. -/
def chunkEvents (t : TermId) (c : Chunk) : List Event :=
  .chunk t c :: List.replicate (c.bytes.length + 1) .monitor

theorem run_chunkEvents (maxPayload : TermId → Payload) {s : State} {t : TermId} (c : Chunk)
    (hmonitor : s.monitor = .recv) (hwr : (s.rings t).wrPos < uartMaxSize)
    (hfull : (s.rings t).full = false) :
    Filled t c.bytes.length s (run (step maxPayload) s (chunkEvents t c)) := by
  have hrecv : step maxPayload s (.chunk t c) =
      { s with monitor := .copy t true c.bytes c.bytes, offset := (s.rings t).wrPos } := by
    simp only [step, hmonitor, recvChunk, hfull, Bool.false_eq_true, if_false]
  rw [chunkEvents, run_cons, hrecv]
  obtain ⟨hm, hproc, hrd, hwr', hhanded, haccepted⟩ := run_copy maxPayload (s := { s with
    monitor := .copy t true c.bytes c.bytes, offset := (s.rings t).wrPos }) rfl hwr
  exact ⟨hm, hproc, hrd, hwr', hhanded, haccepted⟩

/-- 1024 bytes. -/
def kilobyte : Chunk where
  bytes := List.replicate 1024 0
  pos := by rw [List.length_replicate]; decide
  le := by rw [List.length_replicate]

/-- Chunks of 1024 bytes that nobody drains. -/
def kilobytes (n : Nat) : State :=
  run (step payload1024) .start ((List.replicate n (chunkEvents 0 kilobyte)).flatten)

theorem filled_kilobytes (n : Nat) (hn : n ≤ 8) : Filled 0 (1024 * n) .start (kilobytes n) := by
  induction n with
  | zero => exact ⟨rfl, rfl, rfl, rfl, rfl, rfl⟩
  | succ n ih =>
    obtain ⟨hmonitor, hproc, hrd, hwr, hhanded, haccepted⟩ := ih (by omega)
    have hrun : kilobytes (n + 1) = run (step payload1024) (kilobytes n) (chunkEvents 0 kilobyte) := by
      rw [kilobytes, List.replicate_succ', List.flatten_concat, run_append]
      rfl
    have hlen : kilobyte.bytes.length = 1024 := List.length_replicate
    have hstart : (State.start.rings 0).wrPos = 0 ∧ (State.start.rings 0).rdPos = 0 := ⟨rfl, rfl⟩
    have hlt : 1024 * n < uartMaxSize := by
      simp only [uartMaxSize]
      omega
    rw [hstart.1, Nat.zero_add, Nat.mod_eq_of_lt hlt] at hwr
    have hfull : ((kilobytes n).rings 0).full = false := by
      rw [UartRing.full, hwr, hrd, hstart.2, decide_eq_false_iff_not]
      simp only [uartMaxSize]
      omega
    obtain ⟨hm, hp, hrd', hwr', hh, ha⟩ := run_chunkEvents payload1024 kilobyte hmonitor
      (by rw [hwr]; exact hlt) hfull
    rw [hlen] at hwr' ha
    rw [hrun]
    refine ⟨hm, hp.trans hproc, hrd'.trans hrd, ?_, hh.trans hhanded, ?_⟩
    · rw [hwr', hwr, hstart.1, Nat.zero_add, Nat.mul_succ]
    · rw [ha, haccepted, Nat.mul_succ, Nat.add_assoc]

/-- Eight chunks of 1024 bytes are accepted, and the ring looks empty. -/
theorem full_ring_looks_empty :
    ((kilobytes 8).accepted 0).length = 8192 ∧ ((kilobytes 8).rings 0).unread = [] ∧
      (kilobytes 8).handed 0 = [] ∧ ¬Delivered (kilobytes 8) := by
  obtain ⟨-, hproc, hrd, hwr, hhanded, haccepted⟩ := filled_kilobytes 8 (Nat.le_refl 8)
  have hrd' : ((kilobytes 8).rings 0).rdPos = 0 := hrd
  have hwr' : ((kilobytes 8).rings 0).wrPos = 0 := hwr
  have hhanded' : (kilobytes 8).handed 0 = [] := hhanded
  have haccepted' : ((kilobytes 8).accepted 0).length = 8192 := haccepted
  have hunread : ((kilobytes 8).rings 0).unread = [] := by
    rw [UartRing.unread, hrd', hwr', Ring.used_self (by decide), Ring.segment_zero]
  refine ⟨haccepted', hunread, hhanded', ?_⟩
  intro h
  have hidle : ¬(kilobytes 8).draining 0 := by
    rintro ⟨wrpos, rdpos, calls, hsend⟩
    rw [hproc] at hsend
    cases hsend
  have hall := h.rest 0 hidle
  rw [hhanded', hunread] at hall
  rw [← hall] at haccepted'
  cases haccepted'

end Opconn.Terminal
