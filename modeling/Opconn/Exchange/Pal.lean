import Mathlib.Data.UInt
import Opconn.Lib.Scan

/-!
# Frames on the second serial port

Messages between the chip and its host go over a serial line that has no packets.
`palTxData` puts a start delimiter and a length in front of a message and a checksum and an
end delimiter behind it; `palRxData` reads single bytes until the last four are the start
delimiter, trusts the length behind it, and checks the rest.  What is received is then what
was sent, whatever noise stands on the line in front of a frame and whatever bytes the
message has.

The device is the bytes on it that are not read yet.  A loop that reads single bytes waits
for a byte that is not there; the one read of the message body gets what there is.
-/

namespace Opconn.Exchange

/-- `opl_ok` and `opl_error`. -/
inductive Status where
  | ok
  | error
deriving DecidableEq

/-! ### Checksum -/

/-- One bit of `oplCRC16BitShift`. -/
def crcBit (usCrc : UInt16) (bit : Bool) : UInt16 :=
  let usCrc := if usCrc &&& 0x8000 ≠ 0 then (usCrc * 2) ^^^ 0x1021 else usCrc * 2
  if bit then usCrc ^^^ 0x1021 else usCrc

/-- The values of `ucCharBit`. -/
def charBits : List UInt8 := [0x80, 0x40, 0x20, 0x10, 0x08, 0x04, 0x02, 0x01]

def crcByte (usCrc : UInt16) (value : UInt8) : UInt16 :=
  charBits.foldl (fun usCrc ucCharBit => crcBit usCrc (value &&& ucCharBit ≠ 0)) usCrc

def oplCRC16BitShift (pucValue : List UInt8) : UInt16 := pucValue.foldl crcByte 0xFFFF

/-! ### Words -/

/-- `OPL_PACK_UINT16`, which is also how a big-endian target stores a word. -/
def packUint16 (n : UInt16) : List UInt8 := [(n >>> 8).toUInt8, n.toUInt8]

/-- `OPL_UNPACK_UINT16`. -/
def unpackUint16 (hi lo : UInt8) : UInt16 := hi.toUInt16 * 256 + lo.toUInt16

@[simp] theorem unpack_pack (n : UInt16) :
    unpackUint16 (n >>> 8).toUInt8 n.toUInt8 = n := by
  have hlt := n.toNat_lt
  rw [← UInt16.toNat_inj]
  simp only [unpackUint16, UInt16.toNat_add, UInt16.toNat_mul, UInt8.toNat_toUInt16,
    UInt16.toNat_toUInt8, UInt16.toNat_shiftRight, UInt16.toNat_ofNat, Nat.shiftRight_eq_div_pow,
    Nat.reducePow, Nat.reduceMod]
  omega

/-! ### Sending -/

def palSfd : List UInt8 := [0x5a, 0x5a, 0x5a, 0xd5]

def palEfd : List UInt8 := [0xa5, 0xa5, 0xa5, 0x5d]

/-- `MAX_PACKET_LENGTH`. -/
def maxPacketLength : Nat := 1518

/-- What `palTxData` writes for a message. -/
def palTxFrame (p : List UInt8) : List UInt8 :=
  palSfd ++ packUint16 (UInt16.ofNat p.length) ++ p ++ packUint16 (oplCRC16BitShift p) ++ palEfd

@[simp] theorem length_palTxFrame (p : List UInt8) : (palTxFrame p).length = p.length + 12 := by
  simp [palTxFrame, packUint16, palSfd, palEfd]

/-! ### Receiving -/

/-- The two bytes of the length. -/
def readFrameLen : List UInt8 → Option (UInt16 × List UInt8)
  | hi :: lo :: rest => some (unpackUint16 hi lo, rest)
  | _ => none

/-- The loop of `palGetPktHeader`; `buff` are the bytes that were read last. -/
def pktHeaderLoop : List UInt8 → List UInt8 → Option (UInt16 × List UInt8)
  | _, [] => none
  | buff, c :: rest =>
    let buff := buff ++ [c]
    if buff.length = 4 then
      if buff = [0x5a, 0x5a, 0x5a, 0xd5] then readFrameLen rest
      else pktHeaderLoop buff.tail rest
    else pktHeaderLoop buff rest

/-- `palGetPktHeader`, with the length that it finds. -/
def palGetPktHeader (dev : List UInt8) : Option (UInt16 × List UInt8) := pktHeaderLoop [] dev

/-- `palGetPktTail`, with the checksum that it finds; `opl_error` is `none`. -/
def palGetPktTail : List UInt8 → Option (Option UInt16 × List UInt8)
  | crcHi :: crcLo :: e₀ :: e₁ :: e₂ :: e₃ :: rest =>
    some (if [e₀, e₁, e₂, e₃] = palEfd then some (unpackUint16 crcHi crcLo) else none, rest)
  | _ => none

/-- What `palRxData` returns.  With more than 1518 bytes `palGetPktBody` writes behind its
buffer. -/
inductive RxResult where
  | ok (p : List UInt8) (len : UInt16)
  | error
  | overrun
deriving DecidableEq

/-- `palRxData`, with what is left on the device; `none` while it waits for more. -/
def palRxData (dev : List UInt8) : Option (RxResult × List UInt8) := do
  let (dalaLen, dev) ← palGetPktHeader dev
  let buff := dev.take dalaLen.toNat
  let dev := dev.drop dalaLen.toNat
  if maxPacketLength < buff.length then some (.overrun, dev)
  else if buff.length ≠ dalaLen.toNat then some (.error, dev)
  else do
    let (tail, dev) ← palGetPktTail dev
    match tail with
    | none => some (.error, dev)
    | some crc =>
      if oplCRC16BitShift buff ≠ crc then some (.error, dev) else some (.ok buff dalaLen, dev)

/-- As many calls of `palRxData`. -/
def receive : Nat → List UInt8 → Option (List RxResult × List UInt8)
  | 0, dev => some ([], dev)
  | n + 1, dev => do
    let (r, dev) ← palRxData dev
    let (rs, dev) ← receive n dev
    some (r :: rs, dev)

/-! ### Round trip -/

theorem pktHeaderLoop_eq_scan (buff dev : List UInt8) :
    pktHeaderLoop buff dev = (Scan.scan palSfd buff dev).bind readFrameLen := by
  induction dev generalizing buff with
  | nil => rfl
  | cons c dev ih =>
    rw [pktHeaderLoop, Scan.scan, ih, ih]
    show (if (buff ++ [c]).length = palSfd.length then
        if buff ++ [c] = palSfd then _ else _ else _) = _
    split
    · split <;> rfl
    · rfl

theorem palGetPktTail_sent (crc : UInt16) (r : List UInt8) :
    palGetPktTail (packUint16 crc ++ palEfd ++ r) = some (some crc, r) := by
  show some (some (unpackUint16 (crc >>> 8).toUInt8 crc.toUInt8), r) = _
  rw [unpack_pack]

/-- Behind the start delimiter. -/
theorem palGetPktHeader_of_first {g p : List UInt8} (h : Scan.First palSfd (g ++ palTxFrame p) g.length)
    (r : List UInt8) :
    palGetPktHeader (g ++ palTxFrame p ++ r) =
      some (UInt16.ofNat p.length, p ++ packUint16 (oplCRC16BitShift p) ++ palEfd ++ r) := by
  have hfirst : Scan.First palSfd ([] ++ (g ++ palTxFrame p ++ r)) g.length :=
    h.append (List.cons_ne_nil _ _) r
  rw [palGetPktHeader, pktHeaderLoop_eq_scan, Scan.scan_eq_of_first palSfd (by decide) hfirst,
    List.nil_append, List.append_assoc, ← List.drop_drop, List.drop_left]
  show readFrameLen ([(UInt16.ofNat p.length >>> 8).toUInt8, (UInt16.ofNat p.length).toUInt8] ++ p ++
    packUint16 (oplCRC16BitShift p) ++ palEfd ++ r) = _
  simp only [List.cons_append, List.nil_append, readFrameLen, unpack_pack]

/-- **One frame.**  Noise in which the start delimiter does not occur early is skipped, and
the message comes out with its length. -/
theorem palRxData_of_first {g p : List UInt8} (hlen : p.length ≤ 1500)
    (h : Scan.First palSfd (g ++ palTxFrame p) g.length) (r : List UInt8) :
    palRxData (g ++ palTxFrame p ++ r) = some (.ok p (UInt16.ofNat p.length), r) := by
  have hnat : (UInt16.ofNat p.length).toNat = p.length := UInt16.toNat_ofNat_of_lt' (by
    show p.length < 65536
    omega)
  have hfit : ¬maxPacketLength < p.length := by
    rw [maxPacketLength]
    omega
  rw [palRxData, palGetPktHeader_of_first h r]
  simp only [Option.bind_eq_bind, Option.bind_some, hnat, List.append_assoc, List.take_left,
    List.drop_left, if_neg hfit, ne_eq, not_true_eq_false, if_false]
  rw [← List.append_assoc, palGetPktTail_sent]
  simp only [Option.bind_some, not_true_eq_false, if_false]

theorem first_palTxFrame (p : List UInt8) :
    Scan.First palSfd ([] ++ palTxFrame p) ([] : List UInt8).length := by
  apply Scan.first_zero
  rw [List.nil_append, palTxFrame, List.append_assoc, List.append_assoc, List.append_assoc]
  exact List.prefix_append _ _

theorem receive_frames {ps : List (List UInt8)} (hlen : ∀ p ∈ ps, p.length ≤ 1500)
    (r : List UInt8) :
    receive ps.length (ps.flatMap palTxFrame ++ r) =
      some (ps.map fun p => .ok p (UInt16.ofNat p.length), r) := by
  induction ps with
  | nil => rfl
  | cons p ps ih =>
    have hfirst := palRxData_of_first (hlen p (List.mem_cons_self ..)) (first_palTxFrame p)
      (ps.flatMap palTxFrame ++ r)
    rw [List.nil_append, ← List.append_assoc] at hfirst
    rw [List.length_cons, receive, List.flatMap_cons, hfirst, List.map_cons]
    simp only [Option.bind_eq_bind, Option.bind_some,
      ih fun q hq => hlen q (List.mem_cons_of_mem p hq)]

/-- **Round trip.**  `palRxData` finds the frame of a message of at most 1500 bytes behind any
noise in which the start delimiter does not occur early, and leaves what comes behind the
frame; and messages that are sent one after the other are received as they were sent. -/
theorem sent_is_received :
    (∀ g p r : List UInt8, p.length ≤ 1500 →
      Scan.First palSfd (g ++ palTxFrame p) g.length →
      palRxData (g ++ palTxFrame p ++ r) = some (.ok p (UInt16.ofNat p.length), r)) ∧
    ∀ (ps : List (List UInt8)) (r : List UInt8), (∀ p ∈ ps, p.length ≤ 1500) →
      receive ps.length (ps.flatMap palTxFrame ++ r) =
        some (ps.map fun p => .ok p (UInt16.ofNat p.length), r) := by
  constructor
  · intro g p r hlen hfirst
    exact palRxData_of_first hlen hfirst r
  · intro ps r hlen
    exact receive_frames hlen r

/-- Noise that ends like a start delimiter, and a message that has one in it. -/
theorem frame_behind_noise :
    palRxData ([0x5a, 0x5a] ++ palTxFrame (palSfd ++ [1]) ++ [7]) =
      some (.ok (palSfd ++ [1]) 5, [7]) :=
  sent_is_received.1 _ _ _ (by decide) ⟨by decide, by decide⟩

end Opconn.Exchange
