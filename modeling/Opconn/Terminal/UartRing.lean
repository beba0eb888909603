import Opconn.Lib.Ring
import Opconn.Lib.Runs

/-!
# From a serial port to the network

`ts_serial_monitor_thread` reads chunks from four serial ports and copies them into a ring
for each port; `ts_uart2net_proc`, on another thread, hands the unread bytes of a ring to
`ts_def_uart_rx_func`.  Nothing locks the rings, so a run is any interleaving of the two:
the test for room, every byte that is copied, the write position, and every call of
`ts_def_uart_rx_func` are steps of their own.
-/

namespace Opconn.Terminal

open Runs

/-- `TERM_SRV_UART_MAX_SIZE`. -/
abbrev uartMaxSize : Nat := 8192

/-- An index into `ts_uart_ring`, one for each serial port. -/
abbrev TermId := Fin 4

/-- `ts_uart_ring_t`. -/
structure UartRing where
  rdPos : Nat
  rdCount : UInt32
  wrPos : Nat
  wrCount : UInt32
  data : Nat → UInt8

/-- What `portComRecv` returns when there is something. -/
structure Chunk where
  bytes : List UInt8
  pos : 0 < bytes.length
  le : bytes.length ≤ 1024

/-- `max_payload`, as `check_sock_cfg` lets it through. -/
structure Payload where
  size : Nat
  floor : 1024 ≤ size
  ceiling : size ≤ 1400

/-- Where `ts_serial_monitor_thread` is: at `portComRecv`, or behind the test with the bytes
that are still to be copied; `buffer` is `NULL` for a chunk that is dropped. -/
inductive MonitorPc where
  | recv
  | copy (termId : TermId) (buffer : Bool) (chunk rest : List UInt8)
deriving DecidableEq

/-- Where `ts_uart2net_proc` is: not called, or behind its reads of the positions with the
calls of `ts_def_uart_rx_func` that are still to be made. -/
inductive ProcPc where
  | idle
  | send (tsId : TermId) (wrpos rdpos : Nat) (calls : List (Nat × Nat))
deriving DecidableEq

/-- The rings and the two threads.  `handed` are the bytes that `ts_def_uart_rx_func` got for
a port, `accepted` the bytes of the chunks that were not dropped. -/
structure State where
  rings : TermId → UartRing
  offset : Nat
  monitor : MonitorPc
  proc : ProcPc
  handed : TermId → List UInt8
  accepted : TermId → List UInt8

def State.start : State where
  rings _ := ⟨0, 0, 0, 0, fun _ => 0⟩
  offset := 0
  monitor := .recv
  proc := .idle
  handed _ := []
  accepted _ := []

def setRing (s : State) (t : TermId) (r : UartRing) : State :=
  { s with rings := Function.update s.rings t r }

/-! ### Serial side -/

/-- The test of the monitor thread. -/
def UartRing.full (r : UartRing) : Bool := (r.wrPos + 60) % uartMaxSize = r.rdPos

/-- A chunk has come in: the test, and where copying starts.  A chunk that is dropped leaves
`offset` where the last one ended. -/
def recvChunk (s : State) (t : TermId) (chunk : List UInt8) : State :=
  if (s.rings t).full then { s with monitor := .copy t false chunk chunk }
  else { s with monitor := .copy t true chunk chunk, offset := (s.rings t).wrPos }

/-- One round of the copying loop, and the write position behind it. -/
def monitorStep (s : State) : State :=
  match s.monitor with
  | .recv => s
  | .copy t buffer chunk [] =>
    { setRing s t { s.rings t with wrPos := s.offset } with
      monitor := .recv
      accepted := if buffer then Function.update s.accepted t (s.accepted t ++ chunk)
        else s.accepted }
  | .copy t false chunk (_ :: rest) => { s with monitor := .copy t false chunk rest }
  | .copy t true chunk (byte :: rest) =>
    let r := s.rings t
    { setRing s t { r with
        data := Function.update r.data s.offset byte, wrCount := r.wrCount + 1 } with
      offset := (s.offset + 1) % uartMaxSize
      monitor := .copy t true chunk rest }

/-! ### Network side -/

/-- The calls of `ts_send_data_2net` when `count` packets of `termMtu` bytes are left, and a
shorter one if there is anything behind them. -/
def sendPackets (termMtu : Nat) : Nat → Nat → Nat → List (Nat × Nat)
  | 0, offset, len => if 0 < len then [(offset, len)] else []
  | count + 1, offset, len =>
    (offset, termMtu) :: sendPackets termMtu count (offset + termMtu) (len - termMtu)

/-- `ts_send_data_2net` for `len` bytes at `start`. -/
def sendData2net (termMtu start len : Nat) : List (Nat × Nat) :=
  sendPackets termMtu (len / termMtu) start len

/-- `len` of `ts_uart2net_proc`. -/
def unreadLen (wrpos rdpos : Nat) : Nat :=
  if rdpos < wrpos then wrpos - rdpos else wrpos + uartMaxSize - rdpos

/-- The calls of `ts_uart2net_proc`; unread bytes that wrap are sent in two parts. -/
def uart2netCalls (termMtu wrpos rdpos : Nat) : List (Nat × Nat) :=
  let len := unreadLen wrpos rdpos
  if rdpos < wrpos then sendData2net termMtu rdpos len
  else sendData2net termMtu rdpos (uartMaxSize - rdpos - 1) ++
    sendData2net termMtu 0 (len - (uartMaxSize - rdpos - 1))

section Threads

variable (maxPayload : TermId → Payload)

/-- `ts_uart2net_proc` is called. -/
def uart2netProc (s : State) (t : TermId) : State :=
  let r := s.rings t
  if r.rdPos = r.wrPos then s
  else { s with
    proc := .send t r.wrPos r.rdPos (uart2netCalls (maxPayload t).size r.wrPos r.rdPos) }

/-- The next call of `ts_def_uart_rx_func`, or the read position at the end. -/
def procStep (s : State) : State :=
  match s.proc with
  | .idle => s
  | .send t wrpos rdpos [] =>
    let len := unreadLen wrpos rdpos
    let rdPos := if rdpos < wrpos then (rdpos + len) % uartMaxSize else wrpos
    { setRing s t { s.rings t with rdPos, rdCount := (s.rings t).rdCount + UInt32.ofNat len } with
      proc := .idle }
  | .send t wrpos rdpos ((start, len) :: calls) =>
    { s with
      handed := Function.update s.handed t
        (s.handed t ++ (List.range' start len).map (s.rings t).data)
      proc := .send t wrpos rdpos calls }

/-- A step of one of the threads. -/
inductive Event where
  | chunk (termId : TermId) (chunk : Chunk)
  | monitor
  | drain (tsId : TermId)
  | proc

/-- A thread that is busy takes neither a chunk nor a call. -/
def step (s : State) : Event → State
  | .chunk t c =>
    match s.monitor with
    | .recv => recvChunk s t c.bytes
    | .copy .. => s
  | .monitor => monitorStep s
  | .drain t =>
    match s.proc with
    | .idle => uart2netProc maxPayload s t
    | .send .. => s
  | .proc => procStep s

end Threads

end Opconn.Terminal
