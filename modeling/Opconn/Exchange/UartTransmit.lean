import Mathlib.Data.List.Range
import Mathlib.Logic.Function.Basic
import Opconn.Lib.Runs

/-!
# The transmit buffer of the serial driver

`ufile_write` copies a buffer into `txDataBuffMem` and schedules a tasklet, `uartTxPacket`,
which puts the bytes on the line one by one and then clears `txDataBuffMem`.  There is only
one such buffer and no test whether it is still in use.  Every byte that is copied and every
byte that is sent is a step of its own, and `palTxData` lets one writer in at a time.
-/

namespace Opconn.Exchange.UartTx

open Runs

/-- `TX_BUFF_LEN`. -/
def txBuffLen : Nat := 2048 * 2

/-- `TX_DATA_BUFF_t`. -/
structure TxDataBuff where
  len : Nat
  buff : Nat → UInt8

/-- Where `ufile_write` is: not called, in `copy_from_user` with the bytes that are copied and
those that are not, or in front of `tasklet_hi_schedule`. -/
inductive WriterPc where
  | idle
  | copy (copied rest : List UInt8)
  | schedule
deriving DecidableEq

/-- Where `uartTxPacket` is: not called, or in its loop with the value of `len`. -/
inductive TaskletPc where
  | idle
  | send (len : Nat)
deriving DecidableEq

/-- The driver.  `line` is what was sent and `written` the buffers that were written, one
after the other. -/
structure State where
  txDataBuffMem : TxDataBuff
  scheduled : Bool
  writer : WriterPc
  tasklet : TaskletPc
  line : List UInt8
  written : List UInt8

/-- Behind `ufile_open`. -/
def State.start : State where
  txDataBuffMem := ⟨0, fun _ => 0⟩
  scheduled := false
  writer := .idle
  tasklet := .idle
  line := []
  written := []

/-- `ufile_write` is called; a buffer that is too long is refused. -/
def ufileWrite (s : State) (data : List UInt8) : State :=
  if txBuffLen < data.length then s else { s with writer := .copy [] data }

def writerStep (s : State) : State :=
  match s.writer with
  | .idle => s
  | .copy copied (byte :: rest) =>
    { s with
      txDataBuffMem.buff := Function.update s.txDataBuffMem.buff copied.length byte
      writer := .copy (copied ++ [byte]) rest }
  | .copy copied [] =>
    { s with
      txDataBuffMem.len := copied.length
      writer := .schedule
      written := s.written ++ copied }
  | .schedule => { s with scheduled := true, writer := .idle }

/-- A step of `uartTxPacket`, or the call of it when it is scheduled. -/
def taskletStep (s : State) : State :=
  match s.tasklet with
  | .idle => if s.scheduled then { s with scheduled := false, tasklet := .send 0 } else s
  | .send len =>
    if len < s.txDataBuffMem.len then
      { s with line := s.line ++ [s.txDataBuffMem.buff len], tasklet := .send (len + 1) }
    else { s with txDataBuffMem := ⟨0, fun _ => 0⟩, tasklet := .idle }

inductive Event where
  | write (data : List UInt8)
  | writer
  | tasklet

def step (s : State) : Event → State
  | .write data =>
    match s.writer with
    | .idle => ufileWrite s data
    | .copy .. | .schedule => s
  | .writer => writerStep s
  | .tasklet => taskletStep s

/-! ### What is sent -/

/-- The bytes on the line are the written ones, in order, and nothing is missing once the
tasklet has run. -/
structure Transmitted (s : State) : Prop where
  order : s.line <+: s.written
  rest : s.writer = .idle → s.tasklet = .idle → s.scheduled = false → s.line = s.written

def WriterPc.copying : WriterPc → Bool
  | .copy .. => true
  | .idle | .schedule => false

/-- The steps that go well: a buffer is written when all bytes of the last one are sent and
cleared, and the tasklet is not called while bytes are copied. -/
def Guard (s : State) : Event → Prop
  | .write data => s.writer = .idle → data.length ≤ txBuffLen →
      s.txDataBuffMem.len = 0 ∧ s.tasklet = .idle
  | .tasklet => s.tasklet = .idle → s.scheduled = true → s.writer.copying = false
  | .writer => True

instance (s : State) : DecidablePred (Guard s)
  | .write _ => inferInstanceAs (Decidable (_ → _ → _ ∧ _))
  | .tasklet => inferInstanceAs (Decidable (_ → _ → _))
  | .writer => inferInstanceAs (Decidable True)

/-! ### The invariant -/

/-- How many bytes of the buffer are on the line. -/
def State.sent (s : State) : Nat :=
  match s.tasklet with
  | .idle => 0
  | .send len => len

/-- The bytes of the buffer from `pos` on. -/
def TxDataBuff.bytesFrom (mem : TxDataBuff) (pos : Nat) : List UInt8 :=
  (List.range' pos (mem.len - pos)).map mem.buff

structure Inv (s : State) : Prop where
  sent_le : s.sent ≤ s.txDataBuffMem.len
  bytes : s.line ++ s.txDataBuffMem.bytesFrom s.sent = s.written
  quiet : s.writer = .idle → s.tasklet = .idle → s.scheduled = false → s.txDataBuffMem.len = 0
  copying : ∀ copied rest, s.writer = .copy copied rest →
    s.txDataBuffMem.len = 0 ∧ s.tasklet = .idle ∧
      (List.range' 0 copied.length).map s.txDataBuffMem.buff = copied

theorem bytesFrom_eq_nil {mem : TxDataBuff} {pos : Nat} (h : mem.len ≤ pos) :
    mem.bytesFrom pos = [] := by
  rw [TxDataBuff.bytesFrom, Nat.sub_eq_zero_of_le h]
  rfl

theorem bytesFrom_eq_cons {mem : TxDataBuff} {pos : Nat} (h : pos < mem.len) :
    mem.bytesFrom pos = mem.buff pos :: mem.bytesFrom (pos + 1) := by
  have hlen : mem.len - pos = mem.len - (pos + 1) + 1 := by omega
  rw [TxDataBuff.bytesFrom, hlen, List.range'_succ, List.map_cons]
  rfl

theorem inv_start : Inv .start := by
  refine ⟨Nat.le_refl 0, rfl, fun _ _ _ => rfl, ?_⟩
  intro copied rest hwriter
  cases hwriter

theorem Inv.transmitted {s : State} (h : Inv s) : Transmitted s := by
  refine ⟨⟨_, h.bytes⟩, ?_⟩
  intro hwriter htasklet hscheduled
  have hempty := h.quiet hwriter htasklet hscheduled
  have hbytes := h.bytes
  rw [bytesFrom_eq_nil (by omega), List.append_nil] at hbytes
  exact hbytes

/-! ### One step -/

theorem Inv.ufileWrite {s : State} (h : Inv s) {data : List UInt8}
    (hguard : data.length ≤ txBuffLen → s.txDataBuffMem.len = 0 ∧ s.tasklet = .idle) :
    Inv (ufileWrite s data) := by
  rw [UartTx.ufileWrite]
  split
  · exact h
  · next hle =>
    obtain ⟨hlen, htasklet⟩ := hguard (by omega)
    refine ⟨h.sent_le, h.bytes, ?_, ?_⟩
    · intro hwriter
      cases hwriter
    · intro copied rest hwriter
      cases hwriter
      exact ⟨hlen, htasklet, rfl⟩

/-- One more byte is copied; it stands behind those that are. -/
theorem Inv.copyByte {s : State} (h : Inv s) {copied rest : List UInt8} {byte : UInt8}
    (hwriter : s.writer = .copy copied (byte :: rest)) : Inv (writerStep s) := by
  obtain ⟨hlen, htasklet, hcopied⟩ := h.copying _ _ hwriter
  have hbytes := h.bytes
  rw [bytesFrom_eq_nil (by omega), List.append_nil] at hbytes
  simp only [writerStep, hwriter]
  refine ⟨h.sent_le, ?_, ?_, ?_⟩
  · rw [bytesFrom_eq_nil (by simp only; omega), List.append_nil]
    exact hbytes
  · intro hidle
    cases hidle
  · intro copied' rest' hwriter'
    cases hwriter'
    refine ⟨hlen, htasklet, ?_⟩
    rw [List.length_append, List.length_singleton, List.range'_concat, List.map_append,
      List.map_singleton]
    simp only [Nat.zero_add, Nat.one_mul, Function.update_self]
    congr 1
    rw [← hcopied]
    simp only [List.length_map, List.length_range']
    apply List.map_congr_left
    intro i hi
    have hlt := List.mem_range'_1.mp hi
    rw [Function.update_of_ne (by omega)]

/-- The whole buffer is copied and its length is set. -/
theorem Inv.setLen {s : State} (h : Inv s) {copied : List UInt8}
    (hwriter : s.writer = .copy copied []) : Inv (writerStep s) := by
  obtain ⟨hlen, htasklet, hcopied⟩ := h.copying _ _ hwriter
  have hbytes := h.bytes
  rw [bytesFrom_eq_nil (by omega), List.append_nil] at hbytes
  have hsent : s.sent = 0 := by
    rw [State.sent, htasklet]
  simp only [writerStep, hwriter]
  refine ⟨?_, ?_, ?_, ?_⟩
  · show s.sent ≤ _
    rw [hsent]
    exact Nat.zero_le _
  · show s.line ++ (List.range' s.sent (copied.length - s.sent)).map s.txDataBuffMem.buff = _
    rw [hsent, Nat.sub_zero, hcopied, hbytes]
  · intro hidle
    cases hidle
  · intro copied' rest' hwriter'
    cases hwriter'

theorem Inv.writerStep {s : State} (h : Inv s) : Inv (writerStep s) := by
  cases hwriter : s.writer with
  | idle =>
    rw [UartTx.writerStep, hwriter]
    exact h
  | copy copied rest =>
    cases rest with
    | nil => exact h.setLen hwriter
    | cons byte rest => exact h.copyByte hwriter
  | schedule =>
    simp only [UartTx.writerStep, hwriter]
    refine ⟨h.sent_le, h.bytes, ?_, ?_⟩
    · intro _ _ hscheduled
      cases hscheduled
    · intro copied rest hwriter'
      cases hwriter'

/-- The tasklet is called. -/
theorem Inv.called {s : State} (h : Inv s) (htasklet : s.tasklet = .idle)
    (hcopying : s.writer.copying = false) :
    Inv { s with scheduled := false, tasklet := .send 0 } := by
  have hsent : s.sent = 0 := by
    rw [State.sent, htasklet]
  have hbytes := h.bytes
  rw [hsent] at hbytes
  refine ⟨Nat.zero_le _, hbytes, ?_, ?_⟩
  · intro _ hidle
    cases hidle
  · intro copied rest hwriter
    rw [show s.writer = .copy copied rest from hwriter] at hcopying
    cases hcopying

/-- A byte is put on the line. -/
theorem Inv.sendByte {s : State} (h : Inv s) {len : Nat} (htasklet : s.tasklet = .send len)
    (hlt : len < s.txDataBuffMem.len) :
    Inv { s with line := s.line ++ [s.txDataBuffMem.buff len], tasklet := .send (len + 1) } := by
  have hbytes := h.bytes
  rw [State.sent, htasklet, bytesFrom_eq_cons hlt] at hbytes
  refine ⟨hlt, ?_, ?_, ?_⟩
  · rw [List.append_assoc]
    exact hbytes
  · intro _ hidle
    cases hidle
  · intro copied rest hwriter
    have hidle := (h.copying copied rest hwriter).2.1
    rw [htasklet] at hidle
    cases hidle

/-- The buffer is cleared when all of it is on the line. -/
theorem Inv.clear {s : State} (h : Inv s) {len : Nat} (htasklet : s.tasklet = .send len)
    (hge : s.txDataBuffMem.len ≤ len) :
    Inv { s with txDataBuffMem := ⟨0, fun _ => 0⟩, tasklet := .idle } := by
  have hbytes := h.bytes
  rw [State.sent, htasklet, bytesFrom_eq_nil hge] at hbytes
  refine ⟨Nat.le_refl 0, hbytes, fun _ _ _ => rfl, ?_⟩
  intro copied rest hwriter
  have hidle := (h.copying copied rest hwriter).2.1
  rw [htasklet] at hidle
  cases hidle

theorem Inv.taskletStep {s : State} (h : Inv s)
    (hguard : s.tasklet = .idle → s.scheduled = true → s.writer.copying = false) :
    Inv (taskletStep s) := by
  cases htasklet : s.tasklet with
  | idle =>
    simp only [UartTx.taskletStep, htasklet]
    split
    · next hscheduled => exact h.called htasklet (hguard htasklet hscheduled)
    · exact h
  | send len =>
    simp only [UartTx.taskletStep, htasklet]
    split
    · next hlt => exact h.sendByte htasklet hlt
    · next hge => exact h.clear htasklet (Nat.le_of_not_lt hge)

theorem Inv.step {s : State} (h : Inv s) (e : Event) (hguard : Guard s e) : Inv (step s e) := by
  cases e with
  | write data =>
    rw [UartTx.step]
    split
    · next hwriter => exact h.ufileWrite (hguard hwriter)
    · exact h
    · exact h
  | writer => exact h.writerStep
  | tasklet => exact h.taskletStep hguard

/-! ### Runs -/

/-- **The line carries what was written**, in runs in which a buffer is only written when the
last one is on the line. -/
theorem written_is_transmitted (es : List Event) (h : AllSteps step Guard .start es) :
    AllStates step Transmitted .start es :=
  (allStates_of_allSteps step Inv (fun _ e hs hG => hs.step e hG) inv_start h).mono
    fun _ hs => hs.transmitted

/-- Two buffers, the second when the first is sent. -/
def inTurn : List Event :=
  [.write [1, 2], .writer, .writer, .writer, .writer, .tasklet, .tasklet, .tasklet, .tasklet,
    .write [3], .writer, .writer, .writer, .tasklet, .tasklet, .tasklet]

theorem in_turn_transmitted :
    AllSteps step Guard .start inTurn ∧ (run step .start inTurn).line = [1, 2, 3] ∧
    AllStates step Transmitted .start inTurn := by
  have hguard : AllSteps step Guard .start inTurn := by
    decide +kernel
  exact ⟨hguard, by decide +kernel, written_is_transmitted inTurn hguard⟩

/-- Two buffers before the tasklet runs. -/
def atOnce : List Event :=
  [.write [1, 2], .writer, .writer, .writer, .writer, .write [3], .writer, .writer, .writer,
    .tasklet, .tasklet, .tasklet]

/-- The first of them is lost. -/
theorem second_write_overwrites : ¬∀ es, AllStates step Transmitted .start es := by
  intro h
  have hrest := (h atOnce).last.rest (by decide +kernel) (by decide +kernel) (by decide +kernel)
  revert hrest
  decide +kernel

end Opconn.Exchange.UartTx
