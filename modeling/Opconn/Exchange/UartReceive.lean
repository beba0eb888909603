import Opconn.Exchange.Pal
import Opconn.Lib.Ring
import Opconn.Lib.Runs

/-!
# The receive ring of the serial driver

The interrupt puts what has come in into a ring and schedules a tasklet, `uartRxPacket`, which
is to wake the reader once a frame is complete: it copies what is unread, 1518 bytes at most,
and looks whether the copy ends with the end delimiter.  `ufile_read` sleeps only when the
ring is empty, copies what there is, and clears the event when it has emptied the ring.

The reader can be interrupted anywhere; an interrupt, and on the only processor the tasklet
too, run to their end.
-/

namespace Opconn.Exchange.UartRx

open Runs

/-- `RX_BUFF_LEN`. -/
abbrev rxBuffLen : Nat := 2048 * 2

/-- The cells that `ufile_read` and `uartRxPacket` copy, in the order of their branches. -/
def ringCopy (count putOffset getOffset : Nat) : List Nat :=
  if putOffset = getOffset then []
  else if getOffset < putOffset then
    if count ≤ putOffset - getOffset then List.range' getOffset count
    else List.range' getOffset (putOffset - getOffset)
  else if count ≤ rxBuffLen - (getOffset - putOffset) then
    if count ≤ rxBuffLen - getOffset then List.range' getOffset count
    else List.range' getOffset (rxBuffLen - getOffset) ++
      List.range' 0 (count - (rxBuffLen - getOffset))
  else List.range' getOffset (rxBuffLen - getOffset) ++ List.range' 0 putOffset

/-- Where `ufile_read` is: not called, in `wait_event_interruptible`, behind it, copying with the
bytes that are copied and the cells that are not, behind `exit` with the new `rxGetOffset`, or
behind its last test. -/
inductive ReaderPc where
  | idle
  | wait (count : Nat)
  | look (count : Nat)
  | copy (buf : List UInt8) (rest : List Nat)
  | test
  | clear
deriving DecidableEq

/-- The driver.  `received` are the bytes that came in and `bytesRead` those that were returned
to readers. -/
structure State where
  rxDataBuffMem : Nat → UInt8
  rxPutOffset : Nat
  rxGetOffset : Nat
  uartRxReadyEvent : Bool
  scheduled : Bool
  reader : ReaderPc
  received : List UInt8
  bytesRead : List UInt8

/-- Behind `ufile_open`. -/
def State.start : State where
  rxDataBuffMem _ := 0
  rxPutOffset := 0
  rxGetOffset := 0
  uartRxReadyEvent := false
  scheduled := false
  reader := .idle
  received := []
  bytesRead := []

/-! ### Interrupt and tasklet -/

def putByte (s : State) (byte : UInt8) : State :=
  { s with
    rxDataBuffMem := Function.update s.rxDataBuffMem s.rxPutOffset byte
    rxPutOffset := (s.rxPutOffset + 1) % rxBuffLen
    received := s.received ++ [byte] }

/-- `uartInterrupt`, with the bytes that its loops get. -/
def uartInterrupt (s : State) (batch : List UInt8) : State :=
  { batch.foldl putByte s with scheduled := true }

/-- What `uartRxPacket` compares with the end delimiter: four bytes up to the end of the copy.
Of a copy that is shorter, what stands in front of `buff` belongs to them. -/
def lastFour (below : Vector UInt8 4) (buff : List UInt8) : List UInt8 :=
  (below.toList ++ buff).drop buff.length

/-- `uartRxPacket`, when it is scheduled. -/
def uartRxPacket (s : State) (below : Vector UInt8 4) : State :=
  let buff := (ringCopy maxPacketLength s.rxPutOffset s.rxGetOffset).map s.rxDataBuffMem
  { s with
    scheduled := false
    uartRxReadyEvent := if lastFour below buff = palEfd then true else s.uartRxReadyEvent }

/-! ### Reader -/

/-- `ufile_read` is called. -/
def ufileRead (s : State) (count : Nat) : State :=
  { s with reader := if s.rxPutOffset = s.rxGetOffset then .wait count else .look count }

def readerStep (s : State) : State :=
  match s.reader with
  | .idle => s
  | .wait count => if s.uartRxReadyEvent then { s with reader := .look count } else s
  | .look count => { s with reader := .copy [] (ringCopy count s.rxPutOffset s.rxGetOffset) }
  | .copy buf (i :: rest) => { s with reader := .copy (buf ++ [s.rxDataBuffMem i]) rest }
  | .copy buf [] =>
    { s with
      rxGetOffset := (s.rxGetOffset + buf.length) % rxBuffLen
      bytesRead := s.bytesRead ++ buf
      reader := .test }
  | .test => { s with reader := if s.rxGetOffset = s.rxPutOffset then .clear else .idle }
  | .clear => { s with uartRxReadyEvent := false, reader := .idle }

/-- `copy_to_user` fails; `len` is then 0. -/
def copyFault (s : State) : State :=
  match s.reader with
  | .copy _ _ => { s with reader := .copy [] [] }
  | .idle | .wait _ | .look _ | .test | .clear => s

/-- A signal ends the sleep. -/
def signal (s : State) : State :=
  match s.reader with
  | .wait count => { s with reader := .look count }
  | .idle | .look _ | .copy .. | .test | .clear => s

inductive Event where
  | interrupt (batch : List UInt8)
  | tasklet (below : Vector UInt8 4)
  | read (count : Nat)
  | reader
  | fault
  | signal

def step (s : State) : Event → State
  | .interrupt batch => uartInterrupt s batch
  | .tasklet below => if s.scheduled then uartRxPacket s below else s
  | .read count => if s.reader = .idle then ufileRead s count else s
  | .reader => readerStep s
  | .fault => copyFault s
  | .signal => UartRx.signal s

/-! ### What is read, and when the reader is woken -/

def State.unreadLen (s : State) : Nat := Ring.used rxBuffLen s.rxGetOffset s.rxPutOffset

/-- The unread bytes. -/
def State.unread (s : State) : List UInt8 :=
  Ring.segment s.rxDataBuffMem rxBuffLen s.rxGetOffset s.unreadLen

/-- Fewer than `RX_BUFF_LEN` bytes are unread behind a batch. -/
def Fits (s : State) : Event → Prop
  | .interrupt batch => s.unreadLen + batch.length < rxBuffLen
  | .tasklet _ | .read _ | .reader | .fault | .signal => True

instance (s : State) : DecidablePred (Fits s)
  | .interrupt _ => inferInstanceAs (Decidable (_ < _))
  | .tasklet _ | .read _ | .reader | .fault | .signal => inferInstanceAs (Decidable True)

/-- A stream of complete frames. -/
def Frames (stream : List UInt8) : Prop :=
  ∃ ps : List (List UInt8), (∀ p ∈ ps, p.length ≤ 1500) ∧ stream = ps.flatMap palTxFrame

/-- When complete frames have come in and the tasklet has seen the last batch, the event is set
or nothing is unread. -/
def Awake (s : State) : Prop :=
  Frames s.received → s.scheduled = false →
    s.uartRxReadyEvent = true ∨ s.rxPutOffset = s.rxGetOffset

/-- The bytes read and the unread ones are the bytes received, in order, and the reader is not
left asleep. -/
structure Served (s : State) : Prop where
  order : s.bytesRead ++ s.unread = s.received
  awake : Awake s

/-- The unread bytes at which `uartRxPacket` finds the end delimiter: no more than it copies and
no fewer than a delimiter has, or else whatever happens to stand at the place. -/
def Spotted (below : Vector UInt8 4) (unread : List UInt8) : Prop :=
  if unread.length < 4 then below.toList.drop unread.length ++ unread = palEfd
  else if unread.length ≤ maxPacketLength then True
  else (unread.drop (maxPacketLength - 4)).take 4 = palEfd

/-- The steps that go well.  When the tasklet runs behind the last batch, the event is set
already, or nothing is unread, or the end delimiter is where it looks; and when the reader
clears the event nothing has come in behind its test that the tasklet has seen already. -/
def Guard (s : State) : Event → Prop
  | .tasklet below => s.scheduled = true → Frames s.received →
      s.uartRxReadyEvent = true ∨ s.rxPutOffset = s.rxGetOffset ∨ Spotted below s.unread
  | .reader => s.reader = .clear → Frames s.received → s.scheduled = false →
      s.rxPutOffset = s.rxGetOffset
  | .interrupt _ | .read _ | .fault | .signal => True

/-! ### Cells -/

theorem segment_eq_map_cells (data : Nat → UInt8) (get n : Nat) :
    Ring.segment data rxBuffLen get n = ((List.range' 0 n).map fun i => (get + i) % rxBuffLen).map
      data := by
  rw [Ring.segment, List.map_map, List.range_eq_range']
  rfl

theorem map_cells_eq_range' {get a n : Nat} (h : get + a + n ≤ rxBuffLen) :
    (List.range' a n).map (fun i => (get + i) % rxBuffLen) = List.range' (get + a) n := by
  rw [← List.map_add_range' (a := get)]
  apply List.map_congr_left
  intro i hi
  have hlt := List.mem_range'_1.mp hi
  exact Nat.mod_eq_of_lt (by omega)

theorem map_cells_wrap {get a n : Nat} (hwrap : rxBuffLen = get + a) (hn : n ≤ rxBuffLen) :
    (List.range' a n).map (fun i => (get + i) % rxBuffLen) = List.range' 0 n := by
  have hshift : List.range' a n = (List.range' 0 n).map (a + ·) := by
    rw [List.map_add_range', Nat.add_zero]
  rw [hshift, List.map_map]
  conv_rhs => rw [← List.map_id (List.range' 0 n)]
  apply List.map_congr_left
  intro i hi
  have hlt := List.mem_range'_1.mp hi
  show (get + (a + i)) % rxBuffLen = i
  rw [← Nat.add_assoc, ← hwrap, Nat.add_mod_left]
  exact Nat.mod_eq_of_lt (by omega)

/-- A copy that does not come to the end of the ring, and one that does. -/
theorem map_cells_split {get m n : Nat} (hm : rxBuffLen = get + m) (hn : n ≤ rxBuffLen) :
    (List.range' 0 (m + n)).map (fun i => (get + i) % rxBuffLen) =
      List.range' get m ++ List.range' 0 n := by
  rw [← List.range'_append_1, List.map_append, map_cells_eq_range' (by omega), Nat.zero_add,
    map_cells_wrap hm hn, Nat.add_zero]

/-- **The branches** of the copy together: the cells from `getOffset` on, as many as are asked for
or in use. -/
theorem ringCopy_eq {putOffset getOffset : Nat} (count : Nat) (hput : putOffset < rxBuffLen)
    (hget : getOffset < rxBuffLen) :
    ringCopy count putOffset getOffset =
      (List.range' 0 (min count (Ring.used rxBuffLen getOffset putOffset))).map fun i =>
        (getOffset + i) % rxBuffLen := by
  rw [ringCopy]
  split
  · next heq =>
    rw [heq, Ring.used_self hget, Nat.min_zero]
    rfl
  · next hne =>
    split
    · next hlt =>
      have hused : Ring.used rxBuffLen getOffset putOffset = putOffset - getOffset := by
        rw [Ring.used_eq hget hput, if_pos (by omega)]
      rw [hused]
      split
      · next hle => rw [Nat.min_eq_left hle, map_cells_eq_range' (by omega), Nat.add_zero]
      · next hgt =>
        rw [Nat.min_eq_right (by omega), map_cells_eq_range' (by omega), Nat.add_zero]
    · next hge =>
      have hused : Ring.used rxBuffLen getOffset putOffset =
          rxBuffLen - getOffset + putOffset := by
        rw [Ring.used_eq hget hput, if_neg (by omega)]
        omega
      rw [hused]
      split
      · next hle =>
        rw [Nat.min_eq_left (by omega)]
        split
        · next hend => rw [map_cells_eq_range' (by omega), Nat.add_zero]
        · next hend =>
          have hcount : count = rxBuffLen - getOffset + (count - (rxBuffLen - getOffset)) := by
            omega
          conv_rhs => rw [hcount]
          rw [map_cells_split (by omega) (by omega)]
      · next hgt => rw [Nat.min_eq_right (by omega), map_cells_split (by omega) (by omega)]

/-! ### The ring -/

/-- What was copied are the first unread bytes, and the cells that are left come behind them. -/
structure Copied (s : State) (buf : List UInt8) (rest : List Nat) : Prop where
  le : buf.length + rest.length ≤ s.unreadLen
  copied : buf = Ring.segment s.rxDataBuffMem rxBuffLen s.rxGetOffset buf.length
  left : rest = (List.range' buf.length rest.length).map fun i => (s.rxGetOffset + i) % rxBuffLen

structure RingInv (s : State) : Prop where
  get : s.rxGetOffset < rxBuffLen
  put : s.rxPutOffset < rxBuffLen
  order : s.bytesRead ++ s.unread = s.received
  copying : ∀ buf rest, s.reader = .copy buf rest → Copied s buf rest

theorem ringInv_start : RingInv .start := by
  refine ⟨by decide, by decide, ?_, ?_⟩
  · show [] ++ Ring.segment _ _ _ (Ring.used rxBuffLen 0 0) = []
    rw [Ring.used_self (by decide)]
    rfl
  · intro buf rest hreader
    cases hreader

variable {s : State}

/-- A byte is put behind the unread ones. -/
theorem segment_putByte (h : RingInv s) (byte : UInt8) {n : Nat} (hn : n ≤ s.unreadLen) :
    Ring.segment (putByte s byte).rxDataBuffMem rxBuffLen s.rxGetOffset n =
      Ring.segment s.rxDataBuffMem rxBuffLen s.rxGetOffset n := by
  apply Ring.segment_update
  intro i hi
  have hlt := Ring.used_lt h.get s.rxPutOffset
  rw [← Ring.add_used h.get h.put]
  exact Ring.add_mod_ne (Nat.lt_of_lt_of_le hi hn) hlt _

theorem unreadLen_putByte (h : RingInv s) (byte : UInt8) (hroom : s.unreadLen + 1 < rxBuffLen) :
    (putByte s byte).unreadLen = s.unreadLen + 1 :=
  Ring.used_push h.get h.put hroom

theorem RingInv.putByte (h : RingInv s) (byte : UInt8) (hroom : s.unreadLen + 1 < rxBuffLen) :
    RingInv (putByte s byte) := by
  have hlen := unreadLen_putByte h byte hroom
  refine ⟨h.get, Nat.mod_lt _ (by decide), ?_, ?_⟩
  · have hcell : (UartRx.putByte s byte).rxDataBuffMem
        ((s.rxGetOffset + s.unreadLen) % rxBuffLen) = byte := by
      rw [State.unreadLen, Ring.add_used h.get h.put]
      exact Function.update_self ..
    have hunread : (UartRx.putByte s byte).unread = s.unread ++ [byte] := by
      rw [State.unread, hlen]
      show Ring.segment (UartRx.putByte s byte).rxDataBuffMem rxBuffLen s.rxGetOffset _ = _
      rw [Ring.segment_succ, segment_putByte h byte (Nat.le_refl _), hcell, State.unread]
    rw [hunread, ← List.append_assoc]
    exact congrArg (· ++ [byte]) h.order
  · intro buf rest hreader
    obtain ⟨hle, hcopied, hleft⟩ := h.copying buf rest hreader
    refine ⟨by omega, ?_, hleft⟩
    rw [show (UartRx.putByte s byte).rxGetOffset = s.rxGetOffset from rfl,
      segment_putByte h byte (by omega)]
    exact hcopied

theorem RingInv.batch (h : RingInv s) {batch : List UInt8}
    (hroom : s.unreadLen + batch.length < rxBuffLen) : RingInv (batch.foldl UartRx.putByte s) := by
  induction batch generalizing s with
  | nil => exact h
  | cons byte batch ih =>
    rw [List.length_cons] at hroom
    rw [List.foldl_cons]
    refine ih (h.putByte byte (by omega)) ?_
    rw [unreadLen_putByte h byte (by omega)]
    omega

/-- The flags say nothing about the ring. -/
theorem RingInv.flags (h : RingInv s) (scheduled event : Bool) :
    RingInv { s with scheduled := scheduled, uartRxReadyEvent := event } := by
  refine ⟨h.get, h.put, h.order, ?_⟩
  intro buf rest hreader
  obtain ⟨hle, hcopied, hleft⟩ := h.copying buf rest hreader
  exact ⟨hle, hcopied, hleft⟩

theorem RingInv.ofInterrupt (h : RingInv s) {batch : List UInt8}
    (hroom : s.unreadLen + batch.length < rxBuffLen) : RingInv (uartInterrupt s batch) :=
  (h.batch hroom).flags true _

/-- The reader is somewhere else, and copies nothing. -/
theorem RingInv.ofReader (h : RingInv s) {pc : ReaderPc}
    (hpc : ∀ buf rest, pc = .copy buf rest → Copied s buf rest) :
    RingInv { s with reader := pc } := by
  refine ⟨h.get, h.put, h.order, ?_⟩
  intro buf rest hreader
  obtain ⟨hle, hcopied, hleft⟩ := hpc buf rest hreader
  exact ⟨hle, hcopied, hleft⟩

theorem copied_nil (s : State) : Copied s [] [] := ⟨Nat.zero_le _, rfl, rfl⟩

/-- The reader starts to copy. -/
theorem RingInv.copied_ringCopy (h : RingInv s) (count : Nat) :
    Copied s [] (ringCopy count s.rxPutOffset s.rxGetOffset) := by
  rw [ringCopy_eq count h.put h.get]
  refine ⟨?_, rfl, ?_⟩
  · rw [List.length_map, List.length_range', List.length_nil, Nat.zero_add]
    exact Nat.min_le_right _ _
  · rw [List.length_map, List.length_range', List.length_nil]

theorem Copied.cons {buf : List UInt8} {i : Nat} {rest : List Nat}
    (h : Copied s buf (i :: rest)) : Copied s (buf ++ [s.rxDataBuffMem i]) rest := by
  obtain ⟨hle, hcopied, hleft⟩ := h
  rw [List.length_cons, List.range'_succ, List.map_cons] at hleft
  injection hleft with hcell hleft
  rw [List.length_cons] at hle
  refine ⟨?_, ?_, ?_⟩
  · rw [List.length_append, List.length_singleton]
    omega
  · rw [List.length_append, List.length_singleton, Ring.segment_succ, ← hcopied, ← hcell]
  · rw [List.length_append, List.length_singleton]
    exact hleft

/-- What was copied is read, and the get position moves behind it. -/
theorem RingInv.advance (h : RingInv s) {buf : List UInt8} (hcopied : Copied s buf []) :
    RingInv { s with
      rxGetOffset := (s.rxGetOffset + buf.length) % rxBuffLen
      bytesRead := s.bytesRead ++ buf
      reader := .test } := by
  have hle : buf.length ≤ s.unreadLen := hcopied.le
  refine ⟨Nat.mod_lt _ (by decide), h.put, ?_, ?_⟩
  · have hunread : s.unread = buf ++ Ring.segment s.rxDataBuffMem rxBuffLen
        ((s.rxGetOffset + buf.length) % rxBuffLen) (s.unreadLen - buf.length) := by
      rw [Ring.segment_mod]
      conv_rhs =>
        lhs
        rw [hcopied.copied]
      rw [← Ring.segment_add, Nat.add_sub_cancel' hle, State.unread]
    have hpop := Ring.used_pop h.get h.put hle
    have horder := h.order
    rw [hunread, ← List.append_assoc] at horder
    show s.bytesRead ++ buf ++ Ring.segment s.rxDataBuffMem rxBuffLen
      ((s.rxGetOffset + buf.length) % rxBuffLen) (Ring.used rxBuffLen
        ((s.rxGetOffset + buf.length) % rxBuffLen) s.rxPutOffset) = s.received
    rw [hpop]
    exact horder
  · intro buf' rest' hreader
    cases hreader

theorem RingInv.readerStep (h : RingInv s) : RingInv (readerStep s) := by
  rw [UartRx.readerStep]
  split
  · exact h
  · split
    · exact h.ofReader (by nofun)
    · exact h
  · next count hreader =>
    apply h.ofReader
    intro buf rest hpc
    cases hpc
    exact h.copied_ringCopy count
  · next buf i rest hreader =>
    apply h.ofReader
    intro buf' rest' hpc
    cases hpc
    exact (h.copying _ _ hreader).cons
  · next buf hreader => exact h.advance (h.copying _ _ hreader)
  · split
    · exact h.ofReader (by nofun)
    · exact h.ofReader (by nofun)
  · next hreader =>
    have hidle : RingInv { s with reader := .idle } := h.ofReader (by nofun)
    exact ⟨hidle.get, hidle.put, hidle.order, by nofun⟩

theorem RingInv.step (h : RingInv s) (e : Event) (hfits : Fits s e) : RingInv (step s e) := by
  cases e with
  | interrupt batch => exact h.ofInterrupt hfits
  | tasklet below =>
    rw [UartRx.step]
    split
    · exact h.flags false _
    · exact h
  | read count =>
    rw [UartRx.step]
    split
    · apply h.ofReader
      intro buf rest hpc
      split at hpc
      · cases hpc
      · cases hpc
    · exact h
  | reader => exact h.readerStep
  | fault =>
    rw [UartRx.step, copyFault]
    split
    · apply h.ofReader
      intro buf rest hpc
      cases hpc
      exact copied_nil s
    all_goals exact h
  | signal =>
    rw [UartRx.step, UartRx.signal]
    split
    · exact h.ofReader (by nofun)
    all_goals exact h

/-! ### The end delimiter -/

/-- A stream of complete frames ends with an end delimiter. -/
theorem Frames.suffix {stream : List UInt8} (h : Frames stream) (hne : stream ≠ []) :
    palEfd <:+ stream := by
  obtain ⟨ps, -, rfl⟩ := h
  rcases List.eq_nil_or_concat ps with rfl | ⟨ps', p, rfl⟩
  · exact absurd rfl hne
  · rw [List.concat_eq_append, List.flatMap_append, List.flatMap_singleton, palTxFrame,
      ← List.append_assoc]
    exact List.suffix_append _ _

@[simp] theorem length_unread (s : State) : s.unread.length = s.unreadLen := Ring.length_segment _ _

theorem unreadLen_eq_zero_iff (h : RingInv s) :
    s.unreadLen = 0 ↔ s.rxPutOffset = s.rxGetOffset := by
  constructor
  · intro hzero
    have hadd := Ring.add_used h.get h.put
    rw [show Ring.used rxBuffLen s.rxGetOffset s.rxPutOffset = 0 from hzero, Nat.add_zero,
      Nat.mod_eq_of_lt h.get] at hadd
    exact hadd.symm
  · intro heq
    rw [State.unreadLen, heq, Ring.used_self h.get]

/-- `uartRxPacket` copies the first of the unread bytes. -/
theorem ringCopy_unread (h : RingInv s) (count : Nat) :
    (ringCopy count s.rxPutOffset s.rxGetOffset).map s.rxDataBuffMem = s.unread.take count := by
  rw [ringCopy_eq count h.put h.get, ← segment_eq_map_cells, State.unread, Ring.segment,
    Ring.segment, ← List.map_take, List.take_range]
  rfl

theorem lastFour_of_short (below : Vector UInt8 4) {unread : List UInt8} (h : unread.length ≤ 4) :
    lastFour below unread = below.toList.drop unread.length ++ unread := by
  rw [lastFour, List.drop_append_of_le_length (by simpa using h)]

theorem lastFour_of_long (below : Vector UInt8 4) {unread : List UInt8} (h : 4 ≤ unread.length) :
    lastFour below unread = unread.drop (unread.length - 4) := by
  rw [lastFour, List.drop_append, List.drop_of_length_le (by simpa using h), List.nil_append]
  simp

/-- The comparison, when complete frames have come in and some of their bytes are unread. -/
theorem lastFour_eq_palEfd_iff (below : Vector UInt8 4) {unread : List UInt8}
    (hsuffix : 4 ≤ unread.length → palEfd <:+ unread) :
    lastFour below (unread.take maxPacketLength) = palEfd ↔ Spotted below unread := by
  rw [Spotted]
  split
  · next hshort =>
    rw [List.take_of_length_le (by rw [maxPacketLength]; omega), lastFour_of_short below (by omega)]
  · next hlong =>
    split
    · next hle =>
      rw [List.take_of_length_le hle, lastFour_of_long below (by omega)]
      have hend := List.suffix_iff_eq_drop.mp (hsuffix (by omega))
      exact ⟨fun _ => trivial, fun _ => hend.symm⟩
    · next hgt =>
      have hlen : (unread.take maxPacketLength).length = maxPacketLength :=
        List.length_take_of_le (by omega)
      rw [lastFour_of_long below (by rw [hlen]; decide), hlen, List.drop_take]
      exact Iff.rfl

theorem RingInv.suffix (h : RingInv s) (hframes : Frames s.received) (hlen : 4 ≤ s.unread.length) :
    palEfd <:+ s.unread := by
  have hne : s.received ≠ [] := by
    intro hnil
    have horder := h.order
    rw [hnil, List.append_eq_nil_iff] at horder
    rw [horder.2] at hlen
    cases hlen
  refine List.suffix_of_suffix_length_le (hframes.suffix hne) ?_ hlen
  rw [← h.order]
  exact List.suffix_append _ _

/-! ### One step -/

/-- **The tasklet behind the last batch.** -/
theorem uartRxPacket_awake_iff (h : RingInv s) (below : Vector UInt8 4)
    (hframes : Frames s.received) :
    (uartRxPacket s below).uartRxReadyEvent = true ∨ s.rxPutOffset = s.rxGetOffset ↔
      s.uartRxReadyEvent = true ∨ s.rxPutOffset = s.rxGetOffset ∨ Spotted below s.unread := by
  rw [← lastFour_eq_palEfd_iff below (h.suffix hframes)]
  simp only [uartRxPacket, ringCopy_unread h]
  by_cases hefd : lastFour below (s.unread.take maxPacketLength) = palEfd
  · simp only [hefd, if_true, true_or, or_true]
  · simp only [hefd, if_false, or_false]

/-- Bytes in order, and the reader is not left asleep. -/
structure Inv (s : State) : Prop where
  ring : RingInv s
  awake : Awake s

theorem inv_start : Inv .start := ⟨ringInv_start, fun _ _ => .inr rfl⟩

theorem Inv.served (h : Inv s) : Served s := ⟨h.ring.order, h.awake⟩

/-- The reader only goes somewhere else. -/
theorem Awake.moved (h : Awake s) (pc : ReaderPc) : Awake { s with reader := pc } := h

/-- When nothing is unread, the reader that is copying has copied nothing. -/
theorem Inv.advance_awake (h : Inv s) {buf : List UInt8} (hreader : s.reader = .copy buf []) :
    Awake (readerStep s) := by
  simp only [readerStep, hreader]
  intro hframes hscheduled
  refine (h.awake hframes hscheduled).imp_right ?_
  intro hempty
  have hlen := (h.ring.copying _ _ hreader).le
  rw [(unreadLen_eq_zero_iff h.ring).mpr hempty] at hlen
  have hzero : buf.length = 0 := by omega
  rw [hzero, Nat.add_zero, Nat.mod_eq_of_lt h.ring.get]
  exact hempty

theorem Inv.reader_awake (h : Inv s) (hguard : Guard s .reader) : Awake (readerStep s) := by
  have hawake := h.awake
  cases hreader : s.reader with
  | idle =>
    simp only [readerStep, hreader]
    exact hawake
  | wait count =>
    simp only [readerStep, hreader]
    split
    · exact hawake.moved _
    · exact hawake
  | look count =>
    simp only [readerStep, hreader]
    exact hawake.moved _
  | copy buf rest =>
    cases rest with
    | nil => exact h.advance_awake hreader
    | cons i rest =>
      simp only [readerStep, hreader]
      exact hawake.moved _
  | test =>
    simp only [readerStep, hreader]
    exact hawake.moved _
  | clear =>
    simp only [readerStep, hreader]
    intro hframes hscheduled
    exact .inr (hguard hreader hframes hscheduled)

theorem Inv.step_awake (h : Inv s) (e : Event) (hguard : Guard s e) : Awake (step s e) := by
  have hawake := h.awake
  cases e with
  | interrupt batch =>
    intro _ hscheduled
    cases hscheduled
  | tasklet below =>
    rw [UartRx.step]
    split
    · next hsched =>
      intro hframes _
      exact (uartRxPacket_awake_iff h.ring below hframes).mpr (hguard hsched hframes)
    · exact hawake
  | read count =>
    rw [UartRx.step]
    split
    · exact hawake.moved _
    · exact hawake
  | reader => exact h.reader_awake hguard
  | fault =>
    rw [UartRx.step, copyFault]
    split
    · exact hawake.moved _
    all_goals exact hawake
  | signal =>
    rw [UartRx.step, UartRx.signal]
    split
    · exact hawake.moved _
    all_goals exact hawake

theorem Inv.step (h : Inv s) (e : Event) (hfits : Fits s e) (hguard : Guard s e) :
    Inv (step s e) :=
  ⟨h.ring.step e hfits, h.step_awake e hguard⟩

/-- A step behind which the reader is not left asleep was one of those that go well. -/
theorem Inv.guard (h : Inv s) (e : Event) (hserved : Served (UartRx.step s e)) : Guard s e := by
  cases e with
  | tasklet below =>
    intro hsched hframes
    have hstep : UartRx.step s (.tasklet below) = uartRxPacket s below := if_pos hsched
    rw [hstep] at hserved
    exact (uartRxPacket_awake_iff h.ring below hframes).mp (hserved.awake hframes rfl)
  | reader =>
    intro hclear hframes hscheduled
    have hawake := hserved.awake
    simp only [UartRx.step, readerStep, hclear] at hawake
    rcases hawake hframes hscheduled with hevent | hempty
    · cases hevent
    · exact hempty
  | interrupt batch | read count | fault | signal => trivial

/-! ### Runs -/

/-- **What is received is read**, in order, whatever the batches and the reads are; and the
reader is woken in exactly those runs in which the tasklet behind the last batch finds the
end delimiter where it looks, if it has to, and nothing comes in between the reader's test
and its clearing of the event. -/
theorem received_is_read (es : List Event) (hfits : AllSteps step Fits .start es) :
    AllStates step (fun s => s.bytesRead ++ s.unread = s.received) .start es ∧
    (AllStates step Served .start es ↔ AllSteps step Guard .start es) := by
  constructor
  · exact (allStates_of_allSteps step RingInv (fun _ e hs hf => hs.step e hf) ringInv_start
      hfits).mono fun _ hs => hs.order
  · exact allStates_iff_allSteps step Inv (fun _ hs => hs.served)
      (fun _ e hs hf hG => hs.step e hf hG) (fun _ e hs _ hserved => hs.guard e hserved) inv_start
      hfits

/-- A frame that comes in two batches and is read with a sleep in front of it. -/
def oneFrame : List Event :=
  [.read 20, .interrupt ((palTxFrame [7]).take 5), .tasklet ⟨#[0, 0, 0, 0], rfl⟩, .reader,
    .interrupt ((palTxFrame [7]).drop 5), .tasklet ⟨#[0, 0, 0, 0], rfl⟩] ++
    List.replicate 18 .reader

theorem one_frame_read :
    AllSteps step Fits .start oneFrame ∧ (run step .start oneFrame).bytesRead = palTxFrame [7] ∧
    AllStates step (fun s => s.bytesRead ++ s.unread = s.received) .start oneFrame ∧
    (AllStates step Served .start oneFrame ↔ AllSteps step Guard .start oneFrame) := by
  have hfits : AllSteps step Fits .start oneFrame := by
    decide +kernel
  exact ⟨hfits, by decide +kernel, received_is_read oneFrame hfits⟩

theorem foldl_putByte (s : State) (batch : List UInt8) :
    (batch.foldl putByte s).received = s.received ++ batch ∧
    (batch.foldl putByte s).bytesRead = s.bytesRead ∧
    (batch.foldl putByte s).uartRxReadyEvent = s.uartRxReadyEvent := by
  induction batch generalizing s with
  | nil => exact ⟨(List.append_nil _).symm, rfl, rfl⟩
  | cons byte batch ih =>
    obtain ⟨hreceived, hread, hevent⟩ := ih (putByte s byte)
    refine ⟨?_, hread, hevent⟩
    rw [List.foldl_cons, hreceived]
    show s.received ++ [byte] ++ batch = _
    rw [List.append_assoc, List.singleton_append]

/-- A frame of 1512 bytes and a short one behind it, in one batch: the tasklet looks into the
second frame, and the reader sleeps on. -/
theorem long_then_short_unseen {p : List UInt8} (hp : p.length = 1500) :
    ∃ es, AllSteps step Fits .start es ∧ ¬AllStates step Served .start es := by
  obtain ⟨batch, hbatch⟩ : ∃ batch, batch = palTxFrame p ++ palTxFrame [7] := ⟨_, rfl⟩
  have hlen : batch.length = 1525 := by
    rw [hbatch, List.length_append, length_palTxFrame, length_palTxFrame, hp]
    rfl
  -- the reader sleeps when the batch comes in
  let asleep : State := { State.start with reader := .wait 1 }
  have hasleep : RingInv asleep := ringInv_start.ofReader (by nofun)
  have hroom : asleep.unreadLen + batch.length < rxBuffLen := by
    rw [hlen]
    decide
  have hring := hasleep.ofInterrupt hroom
  obtain ⟨hreceived, hread, hevent⟩ := foldl_putByte asleep batch
  have hreceived' : (uartInterrupt asleep batch).received = batch := hreceived
  have hunread : (uartInterrupt asleep batch).unread = batch := by
    have horder := hring.order
    rwa [show (uartInterrupt asleep batch).bytesRead = [] from hread, hreceived'] at horder
  have hframes : Frames (uartInterrupt asleep batch).received := by
    refine ⟨[p, [7]], ?_, ?_⟩
    · intro q hq
      rcases List.mem_pair.mp hq with rfl | rfl
      · exact Nat.le_of_eq hp
      · exact Nat.le_add_left 1 1499
    · rw [hreceived', hbatch, List.flatMap_cons, List.flatMap_singleton]
  let below : Vector UInt8 4 := ⟨#[0, 0, 0, 0], rfl⟩
  refine ⟨[.read 1, .interrupt batch, .tasklet below], ⟨trivial, hroom, trivial, trivial⟩, ?_⟩
  intro hall
  rcases (uartRxPacket_awake_iff hring below hframes).mp (hall.last.awake hframes rfl) with
    hset | hempty | hspotted
  · rw [show (uartInterrupt asleep batch).uartRxReadyEvent = false from hevent] at hset
    cases hset
  · have hzero := (unreadLen_eq_zero_iff hring).mpr hempty
    rw [← length_unread, hunread, hlen] at hzero
    cases hzero
  · rw [hunread, Spotted, if_neg (by omega), if_neg (by rw [hlen]; decide), hbatch,
      List.drop_append, List.drop_of_length_le (by rw [length_palTxFrame, hp]; decide),
      length_palTxFrame, hp, List.nil_append] at hspotted
    revert hspotted
    decide +kernel

theorem reader_left_asleep :
    ¬∀ es, AllSteps step Fits .start es → AllStates step Served .start es := by
  intro h
  obtain ⟨es, hfits, hnot⟩ := long_then_short_unseen (p := List.replicate 1500 0)
    List.length_replicate
  exact hnot (h es hfits)

end Opconn.Exchange.UartRx
