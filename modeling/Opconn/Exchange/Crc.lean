import Opconn.Exchange.ImageUpload
import Opconn.Exchange.RxBounds
import Opconn.Lib.CyclicCode

/-!
# The checksum of a frame

`oplCRC16BitShift` shifts the bits of a message through a register of 16 bits.  What it returns is
the remainder of the message, behind 16 ones, at the division by X¹⁶ + X¹² + X⁵ + 1, so that a
burst of up to 16 bits in a message, or in a message and its checksum, is seen: such a frame is
refused, and such an image is not written to the flash.
-/

namespace Opconn.Exchange

open Polynomial CyclicCode

/-- The bits of a byte as the inner loop takes them. -/
def byteBits (value : UInt8) : List Bool := charBits.map fun ucCharBit => value &&& ucCharBit ≠ 0

/-- The bits of a byte string, the highest of each byte first. -/
def stringBits (bytes : List UInt8) : List Bool := bytes.flatMap byteBits

/-- The checksum as a polynomial remainder. -/
noncomputable def crc16 (bytes : List UInt8) : (ZMod 2)[X] :=
  (X ^ 16 * message (stringBits bytes) +
    X ^ (8 * bytes.length) * ∑ i ∈ Finset.range 16, X ^ i) %ₘ (X ^ 16 + X ^ 12 + X ^ 5 + 1)

/-- `CRC16_POLYNOMIAL_CCITT`. -/
def crc16Polynomial : BitVec 16 := 0x1021#16

/-! ### Bits of words and bytes -/

theorem and_ne_zero_iff {w : Nat} (x : BitVec w) {i : Nat} (hi : i < w) :
    x &&& BitVec.twoPow w i ≠ 0#w ↔ x.getLsbD i = true := by
  rw [BitVec.and_twoPow]
  cases hbit : x.getLsbD i with
  | false => simp
  | true =>
    rw [if_pos rfl]
    refine iff_of_true ?_ rfl
    intro hzero
    have hget := congrArg (BitVec.getLsbD · i) hzero
    simp [hi] at hget

theorem byteBits_eq (value : UInt8) : byteBits value = bits value.toBitVec := by
  have hmasks : charBits = (List.range 8).map fun i => ⟨BitVec.twoPow 8 (8 - 1 - i)⟩ := by decide
  rw [byteBits, hmasks, List.map_map, bits]
  apply List.map_congr_left
  intro i hi
  have hlt : i < 8 := List.mem_range.mp hi
  have hiff := and_ne_zero_iff value.toBitVec (i := 8 - 1 - i) (by omega)
  have hmask : value &&& ⟨BitVec.twoPow 8 (8 - 1 - i)⟩ ≠ 0 ↔
      value.toBitVec &&& BitVec.twoPow 8 (8 - 1 - i) ≠ 0#8 := by
    rw [ne_eq, ne_eq, ← UInt8.toBitVec_inj, UInt8.toBitVec_and]
    rfl
  rw [Function.comp_apply, Bool.eq_iff_iff, decide_eq_true_iff, hmask, hiff, BitVec.getMsbD]
  simp [hlt]

theorem length_byteBits (value : UInt8) : (byteBits value).length = 8 := by
  rw [byteBits_eq, length_bits]

theorem length_stringBits (bytes : List UInt8) : (stringBits bytes).length = 8 * bytes.length := by
  induction bytes with
  | nil => rfl
  | cons b bytes ih =>
    rw [stringBits, List.flatMap_cons, List.length_append, length_byteBits, List.length_cons,
      ← stringBits, ih, Nat.mul_succ, Nat.add_comm]

theorem stringBits_append (a b : List UInt8) :
    stringBits (a ++ b) = stringBits a ++ stringBits b := List.flatMap_append

theorem getMsbD_high (n : UInt16) {i : Nat} (hi : i < 8) :
    (n >>> 8).toUInt8.toBitVec.getMsbD i = n.toBitVec.getMsbD i := by
  have hbyte : (n >>> 8).toUInt8.toBitVec = (n.toBitVec >>> 8).setWidth 8 := rfl
  have hindex : 8 + (8 - 1 - i) = 16 - 1 - i := by omega
  have hlow : 8 - 1 - i < 8 := by omega
  have hword : i < 16 := by omega
  rw [hbyte, BitVec.getMsbD, BitVec.getMsbD, BitVec.getLsbD_setWidth, BitVec.getLsbD_ushiftRight,
    hindex, decide_eq_true hlow, decide_eq_true hi, decide_eq_true hword, Bool.true_and]

theorem getMsbD_low (n : UInt16) {i : Nat} (hi : i < 8) :
    n.toUInt8.toBitVec.getMsbD i = n.toBitVec.getMsbD (8 + i) := by
  have hbyte : n.toUInt8.toBitVec = n.toBitVec.setWidth 8 := rfl
  have hindex : 16 - 1 - (8 + i) = 8 - 1 - i := by omega
  have hlow : 8 - 1 - i < 8 := by omega
  have hword : 8 + i < 16 := by omega
  rw [hbyte, BitVec.getMsbD, BitVec.getMsbD, BitVec.getLsbD_setWidth, hindex, decide_eq_true hlow,
    decide_eq_true hi, decide_eq_true hword, Bool.true_and]

/-- The two bytes of a word have its bits. -/
theorem stringBits_packUint16 (n : UInt16) : stringBits (packUint16 n) = bits n.toBitVec := by
  have hpack : stringBits (packUint16 n) =
      bits (n >>> 8).toUInt8.toBitVec ++ bits n.toUInt8.toBitVec := by
    rw [stringBits, packUint16, List.flatMap_cons, List.flatMap_singleton, byteBits_eq,
      byteBits_eq]
  have hsplit : List.range 16 = List.range 8 ++ (List.range 8).map (8 + ·) := by decide
  rw [hpack, bits, bits, bits, hsplit, List.map_append, List.map_map]
  congr 1
  · apply List.map_congr_left
    intro i hi
    exact getMsbD_high n (List.mem_range.mp hi)
  · apply List.map_congr_left
    intro i hi
    exact getMsbD_low n (List.mem_range.mp hi)

/-! ### The loop and the division -/

theorem and_top_ne_zero (usCrc : UInt16) : usCrc &&& 0x8000 ≠ 0 ↔ usCrc.toBitVec.msb = true := by
  rw [BitVec.msb_eq_getLsbD_last, ← and_ne_zero_iff _ (by decide), ne_eq, ne_eq,
    ← UInt16.toBitVec_inj, UInt16.toBitVec_and]
  rfl

theorem toBitVec_mul_two (usCrc : UInt16) : (usCrc * 2).toBitVec = usCrc.toBitVec <<< 1 := by
  rw [UInt16.toBitVec_mul]
  apply BitVec.eq_of_toNat_eq
  rw [BitVec.toNat_mul, BitVec.toNat_shiftLeft, Nat.shiftLeft_eq]
  rfl

/-- The two exclusive ors of the inner loop cancel when the bit that is shifted out is the one of
the message. -/
theorem toBitVec_crcBit (usCrc : UInt16) (b : Bool) :
    (crcBit usCrc b).toBitVec = next crc16Polynomial usCrc.toBitVec b := by
  have hshift := toBitVec_mul_two usCrc
  by_cases htop : usCrc &&& 0x8000 ≠ 0
  · have hmsb := (and_top_ne_zero usCrc).mp htop
    cases b with
    | false => simp [crcBit, next, htop, hmsb, hshift, crc16Polynomial]
    | true => simp [crcBit, next, htop, hmsb, hshift]
  · have hmsb : usCrc.toBitVec.msb = false := by
      rw [and_top_ne_zero] at htop
      exact eq_false_of_ne_true htop
    cases b with
    | false => simp [crcBit, next, htop, hmsb, hshift]
    | true => simp [crcBit, next, htop, hmsb, hshift, crc16Polynomial]

theorem toBitVec_crcByte (usCrc : UInt16) (value : UInt8) :
    (crcByte usCrc value).toBitVec = run crc16Polynomial usCrc.toBitVec (byteBits value) := by
  rw [crcByte, byteBits, run, List.foldl_map]
  induction charBits generalizing usCrc with
  | nil => rfl
  | cons ucCharBit masks ih => rw [List.foldl_cons, List.foldl_cons, ih, toBitVec_crcBit]

theorem toBitVec_foldl_crcByte (usCrc : UInt16) (bytes : List UInt8) :
    (bytes.foldl crcByte usCrc).toBitVec =
      run crc16Polynomial usCrc.toBitVec (stringBits bytes) := by
  induction bytes generalizing usCrc with
  | nil => rfl
  | cons value bytes ih =>
    have hbits : stringBits (value :: bytes) = byteBits value ++ stringBits bytes :=
      List.flatMap_cons
    rw [List.foldl_cons, ih, toBitVec_crcByte, hbits, run, run, run, List.foldl_append]

theorem toBitVec_oplCRC16BitShift (bytes : List UInt8) :
    (oplCRC16BitShift bytes).toBitVec = run crc16Polynomial 0xFFFF#16 (stringBits bytes) :=
  toBitVec_foldl_crcByte 0xFFFF bytes

theorem generator_crc16Polynomial :
    generator crc16Polynomial = X ^ 16 + X ^ 12 + X ^ 5 + 1 := by
  have hbits : bits crc16Polynomial = [false, false, false, true, false, false, false, false,
      false, false, true, false, false, false, false, true] := by decide
  rw [generator, toPoly, hbits]
  simp [message, bit]
  ring

theorem toPoly_ones : toPoly 0xFFFF#16 = ∑ i ∈ Finset.range 16, X ^ i := by
  have hbits : bits 0xFFFF#16 = List.replicate 16 true := by decide
  have hmessage : ∀ n, message (List.replicate n true) = ∑ i ∈ Finset.range n, X ^ i := by
    intro n
    induction n with
    | zero => simp
    | succ n ih =>
      have hone : bit true = 1 := rfl
      rw [List.replicate_succ, message_cons, ih, Finset.sum_range_succ, List.length_replicate,
        hone, C_1, one_mul, add_comm]
  rw [toPoly, hbits, hmessage]

/-- **Remainder.**  `oplCRC16BitShift` computes the polynomial remainder. -/
theorem toPoly_oplCRC16BitShift (bytes : List UInt8) :
    toPoly (oplCRC16BitShift bytes).toBitVec = crc16 bytes := by
  rw [toBitVec_oplCRC16BitShift, toPoly_run, generator_crc16Polynomial, toPoly_ones,
    length_stringBits, crc16]

/-! ### Bursts -/

theorem crc_ne_of_burst {a b : List UInt8} (h : Burst 16 (stringBits a) (stringBits b)) :
    oplCRC16BitShift a ≠ oplCRC16BitShift b := by
  rw [ne_eq, ← UInt16.toBitVec_inj, toBitVec_oplCRC16BitShift, toBitVec_oplCRC16BitShift]
  exact run_ne_of_burst (by decide) (by decide) h

/-- A burst over a message and its checksum. -/
theorem crc_ne_of_burst_append {p body : List UInt8} {crc : UInt16}
    (h : Burst 16 (stringBits (p ++ packUint16 (oplCRC16BitShift p)))
      (stringBits (body ++ packUint16 crc))) : oplCRC16BitShift body ≠ crc := by
  rw [stringBits_append, stringBits_append, stringBits_packUint16, stringBits_packUint16,
    toBitVec_oplCRC16BitShift] at h
  rw [ne_eq, ← UInt16.toBitVec_inj, toBitVec_oplCRC16BitShift]
  exact run_ne_of_burst_append (by decide) (by decide) h

/-- A burst over the message of a frame and its checksum. -/
theorem palRxData_of_burst {p body : List UInt8} {crc : UInt16} (hlen : p.length ≤ maxPacketLength)
    (h : Burst 16 (stringBits (p ++ packUint16 (oplCRC16BitShift p)))
      (stringBits (body ++ packUint16 crc))) (r : List UInt8) :
    palRxData (palSfd ++ (packUint16 (UInt16.ofNat p.length) ++
      (body ++ (packUint16 crc ++ palEfd ++ r)))) = some (.error, r) := by
  have hbody : body.length = p.length := by
    have hbits := h.length
    rw [length_stringBits, length_stringBits, List.length_append, List.length_append] at hbits
    have htail : ∀ n, (packUint16 n).length = 2 := fun _ => rfl
    rw [htail, htail] at hbits
    omega
  have hnat : (UInt16.ofNat p.length).toNat = body.length := by
    rw [hbody]
    apply UInt16.toNat_ofNat_of_lt'
    exact hlen.trans_lt (by decide)
  have hheader : palGetPktHeader (palSfd ++ (packUint16 (UInt16.ofNat p.length) ++
      (body ++ (packUint16 crc ++ palEfd ++ r)))) =
      some (UInt16.ofNat p.length, body ++ (packUint16 crc ++ palEfd ++ r)) := by
    show some (unpackUint16 _ _, _) = _
    rw [unpack_pack]
    rfl
  rw [palRxData_of_header hheader, hnat, List.take_left, List.drop_left,
    if_neg (Nat.not_lt.mpr (hbody.trans_le hlen)), if_neg (not_not_intro rfl),
    palGetPktTail_sent, Option.bind_some]
  exact if_pos (crc_ne_of_burst_append h)

/-- A burst in what the check of an image reads. -/
theorem sameFlash_of_burst {s : Upload.State} {e : Upload.Event} {image file : List UInt8}
    (hopened : s.opened = some file) (hsum : Upload.msgCrc e.msg.data = oplCRC16BitShift image)
    (h : Burst 16 (stringBits image) (stringBits (file.take Upload.maxImageLoad))) :
    Upload.SameFlash s (Upload.step s e) := by
  apply Upload.sameFlash_of_not_accepts
  intro haccepts
  have hchecksum := haccepts.checksum
  simp only [Upload.checksum, hopened] at hchecksum
  apply crc_ne_of_burst h
  rw [← hsum]
  exact (Option.some.inj hchecksum).symm

/-- **Bursts.**  The checksum is the polynomial remainder, and it changes with every burst of up to
16 bits; a frame with such a burst in its message or its checksum is refused, and so is an image
with such a burst in what its check reads. -/
theorem bursts_detected :
    (∀ bytes, toPoly (oplCRC16BitShift bytes).toBitVec = crc16 bytes) ∧
    (∀ a b : List UInt8, Burst 16 (stringBits a) (stringBits b) →
      oplCRC16BitShift a ≠ oplCRC16BitShift b) ∧
    (∀ (p body : List UInt8) (crc : UInt16), p.length ≤ maxPacketLength →
      Burst 16 (stringBits (p ++ packUint16 (oplCRC16BitShift p)))
        (stringBits (body ++ packUint16 crc)) →
      ∀ r, palRxData (palSfd ++ (packUint16 (UInt16.ofNat p.length) ++
        (body ++ (packUint16 crc ++ palEfd ++ r)))) = some (.error, r)) ∧
    (∀ (s : Upload.State) (e : Upload.Event) (image file : List UInt8), s.opened = some file →
      Upload.msgCrc e.msg.data = oplCRC16BitShift image →
      Burst 16 (stringBits image) (stringBits (file.take Upload.maxImageLoad)) →
      Upload.SameFlash s (Upload.step s e)) := by
  refine ⟨toPoly_oplCRC16BitShift, ?_, ?_, ?_⟩
  · intro a b h
    exact crc_ne_of_burst h
  · intro p body crc hlen h r
    exact palRxData_of_burst hlen h r
  · intro s e image file hopened hsum h
    exact sameFlash_of_burst hopened hsum h

end Opconn.Exchange
