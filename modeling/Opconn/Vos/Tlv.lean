import Mathlib.Data.Nat.Bitwise
import Opconn.Lib.Buffer

/-!
# Integers in TLV fields

`vos_tlv.c` writes a number behind a header of two bytes for the identifier and two for the
length, highest byte first, and reads it back without the header.  A getter masks every byte
but the first: that one is a `char`, which is signed, and becomes negative when its highest bit
is set.
-/

namespace Opconn.Vos

open Buffer

/-! ### Setters and getters -/

/-- The memory at `b_p`, of some size. -/
abbrev TlvBuf := Nat → UInt8

/-- Identifier and length. -/
def tlvHeader (id : UInt16) (length : UInt8) : List UInt8 :=
  [(id >>> 8).toUInt8, id.toUInt8, 0, length]

/-- The setters write a header and the data, and return where the next field goes. -/
def tlvSet (size : Nat) (buf : TlvBuf) (b_p : Nat) (id : UInt16) (length : UInt8)
    (data : List UInt8) (offset : Int) : Option (TlvBuf × Int) :=
  (writeList size buf b_p (tlvHeader id length ++ data)).map fun buf => (buf, offset)

def vosTlvByteSet (size : Nat) (buf : TlvBuf) (b_p : Nat) (id : UInt16) (data : UInt8)
    (offset : Int) : Option (TlvBuf × Int) :=
  tlvSet size buf b_p id 1 [data] (offset + 5)

def vosTlvShortSet (size : Nat) (buf : TlvBuf) (b_p : Nat) (id : UInt16) (data : UInt16)
    (offset : Int) : Option (TlvBuf × Int) :=
  tlvSet size buf b_p id 2 [(data >>> 8).toUInt8, data.toUInt8] (offset + 6)

def vosTlvIntSet (size : Nat) (buf : TlvBuf) (b_p : Nat) (id : UInt16) (data : UInt32)
    (offset : Int) : Option (TlvBuf × Int) :=
  tlvSet size buf b_p id 4
    [(data >>> 24).toUInt8, (data >>> 16).toUInt8, (data >>> 8).toUInt8, data.toUInt8] (offset + 8)

/-- The `switch` of `vosTlvLenSet`. -/
def lenData (data : UInt32) : Nat → List UInt8
  | 4 => [(data >>> 24).toUInt8, (data >>> 16).toUInt8, (data >>> 8).toUInt8, data.toUInt8]
  | 3 => [(data >>> 16).toUInt8, (data >>> 8).toUInt8, data.toUInt8]
  | 2 => [(data >>> 8).toUInt8, data.toUInt8]
  | 1 => [data.toUInt8]
  | _ => []

def vosTlvLenSet (size : Nat) (buf : TlvBuf) (b_p : Nat) (id : UInt16) (data : UInt32)
    (data_len offset : Int) : Option (TlvBuf × Int) :=
  if 4 < data_len then some (buf, offset)
  else
    tlvSet size buf b_p id (UInt8.ofNat (data_len % 256).toNat) (lenData data data_len.toNat)
      (offset + data_len + 4)

/-- A `char` as an `unsigned int`; it is signed. -/
def charToUint (c : UInt8) : UInt32 :=
  if c < 0x80 then c.toUInt32 else c.toUInt32 + 0xffffff00

/-- `x << 8 | (*b_p++ & 0x000000ff)`. -/
def shiftIn (x : UInt32) (c : UInt8) : UInt32 := x <<< 8 ||| (charToUint c &&& 0xff)

/-- What the getters make of the bytes they read. -/
def tlvValue : List UInt8 → UInt32
  | [] => 0
  | c :: cs => cs.foldl shiftIn (charToUint c)

def tlvReader (size : Nat) (buf : TlvBuf) (i : Nat) : Option UInt8 :=
  if i < size then some (buf i) else none

/-- The getters read `n` bytes and move the offset behind them. -/
def tlvGet (size : Nat) (buf : TlvBuf) (b_p n : Nat) (offset : Int) : Option (UInt32 × Int) :=
  (read (tlvReader size buf) b_p n).map fun cs => (tlvValue cs, offset)

def vosTlvByteGet (size : Nat) (buf : TlvBuf) (b_p : Nat) (offset : Int) : Option (UInt32 × Int) :=
  tlvGet size buf b_p 1 (offset + 1)

def vosTlvShortGet (size : Nat) (buf : TlvBuf) (b_p : Nat) (offset : Int) :
    Option (UInt32 × Int) :=
  tlvGet size buf b_p 2 (offset + 2)

def vosTlvIntGet (size : Nat) (buf : TlvBuf) (b_p : Nat) (offset : Int) : Option (UInt32 × Int) :=
  tlvGet size buf b_p 4 (offset + 4)

def vosTlvLenGet (size : Nat) (buf : TlvBuf) (b_p : Nat) (data_len offset : Int) :
    Option (UInt32 × Int) :=
  if 4 < data_len then some (0, offset)
  else tlvGet size buf b_p data_len.toNat (offset + data_len)

/-! ### Fields -/

/-- A value with the pair of routines for it. -/
inductive TlvField where
  | byte (data : UInt8)
  | short (data : UInt16)
  | int (data : UInt32)
  | len (data : UInt32) (data_len : Int)
deriving DecidableEq, Repr

namespace TlvField

def set (size : Nat) (buf : TlvBuf) (b_p : Nat) (id : UInt16) (offset : Int) :
    TlvField → Option (TlvBuf × Int)
  | byte data => vosTlvByteSet size buf b_p id data offset
  | short data => vosTlvShortSet size buf b_p id data offset
  | int data => vosTlvIntSet size buf b_p id data offset
  | len data data_len => vosTlvLenSet size buf b_p id data data_len offset

def get (size : Nat) (buf : TlvBuf) (b_p : Nat) (offset : Int) :
    TlvField → Option (UInt32 × Int)
  | byte _ => vosTlvByteGet size buf b_p offset
  | short _ => vosTlvShortGet size buf b_p offset
  | int _ => vosTlvIntGet size buf b_p offset
  | len _ data_len => vosTlvLenGet size buf b_p data_len offset

/-- The value set, in the type that the getters return it in. -/
def value : TlvField → UInt32
  | byte data => data.toUInt32
  | short data => data.toUInt32
  | int data => data
  | len data _ => data

/-- The bytes the field takes. -/
def extent : TlvField → Nat
  | byte _ => 5
  | short _ => 6
  | int _ => 8
  | len _ data_len => if 4 < data_len then 0 else 4 + data_len.toNat

/-- The field is set at `b_p`, and the getter behind the header returns its value; no byte
outside of the field has changed. -/
def RoundTrips (size : Nat) (buf : TlvBuf) (b_p : Nat) (id : UInt16) (offset : Int)
    (f : TlvField) : Prop :=
  ∃ buf' setOffset getOffset, f.set size buf b_p id offset = some (buf', setOffset) ∧
    f.get size buf' (b_p + 4) offset = some (f.value, getOffset) ∧
      ∀ i, ¬(b_p ≤ i ∧ i < b_p + f.extent) → buf' i = buf i

/-- The number is one of a signed integer of `n` bytes. -/
def FitsSigned (n : Nat) (data : UInt32) : Prop :=
  data.toNat < 2 ^ (8 * n - 1) ∨ 2 ^ 32 ≤ data.toNat + 2 ^ (8 * n - 1)

/-- **The condition on a field.** -/
def ReadsBack : TlvField → Prop
  | byte data => data.toNat < 0x80
  | short data => data.toNat < 0x8000
  | int _ => True
  | len data data_len =>
    if 1 ≤ data_len ∧ data_len ≤ 4 then FitsSigned data_len.toNat data else data = 0

instance (n : Nat) (data : UInt32) : Decidable (FitsSigned n data) :=
  inferInstanceAs (Decidable (_ ∨ _))

instance : (f : TlvField) → Decidable f.ReadsBack
  | byte data => inferInstanceAs (Decidable (data.toNat < 0x80))
  | short data => inferInstanceAs (Decidable (data.toNat < 0x8000))
  | int _ => inferInstanceAs (Decidable True)
  | len data data_len => inferInstanceAs (Decidable
      (if 1 ≤ data_len ∧ data_len ≤ 4 then FitsSigned data_len.toNat data else data = 0))

end TlvField

/-! ### The value read -/

theorem toNat_charToUint (c : UInt8) :
    (charToUint c).toNat = if c.toNat < 0x80 then c.toNat else c.toNat + 0xffffff00 := by
  have hbyte := c.toNat_lt
  have hsmall : c < 0x80 ↔ c.toNat < 0x80 := UInt8.lt_iff_toNat_lt
  unfold charToUint
  split
  · next h =>
    rw [if_pos (hsmall.mp h)]
    exact UInt8.toNat_toUInt32 c
  · next h =>
    rw [if_neg fun h' => h (hsmall.mpr h'), UInt32.toNat_add, UInt8.toNat_toUInt32]
    exact Nat.mod_eq_of_lt (by simp; omega)

theorem toNat_shiftIn (x : UInt32) (c : UInt8) :
    (shiftIn x c).toNat = (x.toNat * 2 ^ 8 + c.toNat) % 2 ^ 32 := by
  have hbyte := c.toNat_lt
  have hmask : (charToUint c &&& 0xff).toNat = c.toNat := by
    have hand : (charToUint c &&& 0xff).toNat = (charToUint c).toNat % 2 ^ 8 :=
      Nat.and_two_pow_sub_one_eq_mod (charToUint c).toNat 8
    rw [hand, toNat_charToUint]
    split <;> omega
  have hshift : (x <<< 8).toNat = (x.toNat % 2 ^ 24) <<< 8 := by
    have hleft : (x <<< 8).toNat = (x.toNat <<< 8) % 2 ^ 32 := UInt32.toNat_shiftLeft x 8
    rw [hleft, Nat.shiftLeft_eq, Nat.shiftLeft_eq]
    omega
  rw [shiftIn, UInt32.toNat_or, hmask, hshift, ← Nat.shiftLeft_add_eq_or_of_lt (by omega),
    Nat.shiftLeft_eq]
  omega

theorem toNat_byteOf (data : UInt32) :
    (data >>> 8).toUInt8.toNat = data.toNat / 2 ^ 8 % 2 ^ 8 ∧
      (data >>> 16).toUInt8.toNat = data.toNat / 2 ^ 16 % 2 ^ 8 ∧
      (data >>> 24).toUInt8.toNat = data.toNat / 2 ^ 24 % 2 ^ 8 := by
  have h8 : (data >>> 8).toNat = data.toNat >>> 8 := UInt32.toNat_shiftRight data 8
  have h16 : (data >>> 16).toNat = data.toNat >>> 16 := UInt32.toNat_shiftRight data 16
  have h24 : (data >>> 24).toNat = data.toNat >>> 24 := UInt32.toNat_shiftRight data 24
  rw [UInt32.toNat_toUInt8, UInt32.toNat_toUInt8, UInt32.toNat_toUInt8, h8, h16, h24,
    Nat.shiftRight_eq_div_pow, Nat.shiftRight_eq_div_pow, Nat.shiftRight_eq_div_pow]
  exact ⟨rfl, rfl, rfl⟩

/-- The bytes of a number give it back exactly when it is one of their signed integers. -/
theorem tlvValue_lenData_eq_iff (data : UInt32) {n : Nat} (hn : 1 ≤ n) (hn4 : n ≤ 4) :
    tlvValue (lenData data n) = data ↔ TlvField.FitsSigned n data := by
  have hword := data.toNat_lt
  have hlow : data.toUInt8.toNat = data.toNat % 2 ^ 8 := UInt32.toNat_toUInt8 data
  obtain ⟨h8, h16, h24⟩ := toNat_byteOf data
  rw [TlvField.FitsSigned, ← UInt32.toNat_inj]
  obtain rfl | rfl | rfl | rfl : n = 1 ∨ n = 2 ∨ n = 3 ∨ n = 4 := by omega
  all_goals
    simp only [lenData, tlvValue, List.foldl_cons, List.foldl_nil, toNat_shiftIn,
      toNat_charToUint, hlow, h8, h16, h24]
    split <;> omega

theorem tlvValue_byte_eq_iff (data : UInt8) :
    tlvValue [data] = data.toUInt32 ↔ data.toNat < 0x80 := by
  have hbyte := data.toNat_lt
  rw [← UInt32.toNat_inj, UInt8.toNat_toUInt32, tlvValue, List.foldl_nil, toNat_charToUint]
  split <;> omega

theorem tlvValue_short_eq_iff (data : UInt16) :
    tlvValue [(data >>> 8).toUInt8, data.toUInt8] = data.toUInt32 ↔ data.toNat < 0x8000 := by
  have hshort := data.toNat_lt
  have hlow : data.toUInt8.toNat = data.toNat % 2 ^ 8 := UInt16.toNat_toUInt8 data
  have hshift : (data >>> 8).toNat = data.toNat >>> 8 := UInt16.toNat_shiftRight data 8
  have hhigh : (data >>> 8).toUInt8.toNat = data.toNat / 2 ^ 8 := by
    rw [UInt16.toNat_toUInt8, hshift, Nat.shiftRight_eq_div_pow]
    omega
  rw [← UInt32.toNat_inj, UInt16.toNat_toUInt32]
  simp only [tlvValue, List.foldl_cons, List.foldl_nil, toNat_shiftIn, toNat_charToUint, hlow,
    hhigh]
  split <;> omega

theorem length_lenData (data : UInt32) {n : Nat} (hn : n ≤ 4) : (lenData data n).length = n := by
  obtain rfl | rfl | rfl | rfl | rfl : n = 0 ∨ n = 1 ∨ n = 2 ∨ n = 3 ∨ n = 4 := by omega
  all_goals rfl

/-! ### A field in its buffer -/

/-- The bytes written are the bytes read behind the header, and no others have changed. -/
theorem tlvSet_get {size : Nat} (buf : TlvBuf) {b_p : Nat} (id : UInt16) (length : UInt8)
    {data : List UInt8} (h : b_p + (4 + data.length) ≤ size) :
    ∃ buf', (∀ offset, tlvSet size buf b_p id length data offset = some (buf', offset)) ∧
      (∀ offset, tlvGet size buf' (b_p + 4) data.length offset = some (tlvValue data, offset)) ∧
      ∀ i, ¬(b_p ≤ i ∧ i < b_p + (4 + data.length)) → buf' i = buf i := by
  have hlength : (tlvHeader id length ++ data).length = 4 + data.length := by
    rw [List.length_append]
    rfl
  have hset : writeList size buf b_p (tlvHeader id length ++ data) = _ :=
    writeList_eq buf (tlvHeader id length ++ data) (by rw [hlength]; exact h)
  refine ⟨_, fun offset => by rw [tlvSet, hset, Option.map_some], ?_, ?_⟩
  · intro offset
    rw [tlvGet, read_eq_some, Option.map_some]
    intro j hj
    have hplace : b_p + 4 + j - b_p = (tlvHeader id length).length + j := by
      have hheader : (tlvHeader id length).length = 4 := rfl
      omega
    rw [tlvReader, if_pos (by omega), if_pos (by omega), hplace,
      List.getElem?_append_right (Nat.le_add_right ..), Nat.add_sub_cancel_left,
      List.getElem?_eq_getElem hj, Option.getD_some]
  · intro i hi
    split
    · next hle =>
      rw [List.getElem?_eq_none (by omega), Option.getD_none]
    · rfl

/-- A field whose setter writes `data` and whose getter reads as many bytes. -/
theorem TlvField.roundTrips_iff {size : Nat} {buf : TlvBuf} {b_p : Nat} {id : UInt16}
    {offset : Int} {f : TlvField} {length : UInt8} {data : List UInt8} {setOffset getOffset : Int}
    (hset : f.set size buf b_p id offset = tlvSet size buf b_p id length data setOffset)
    (hget : ∀ buf', f.get size buf' (b_p + 4) offset =
      tlvGet size buf' (b_p + 4) data.length getOffset)
    (hextent : f.extent = 4 + data.length) (h : b_p + f.extent ≤ size) :
    f.RoundTrips size buf b_p id offset ↔ tlvValue data = f.value := by
  rw [hextent] at h
  obtain ⟨buf', hwritten, hread, hframe⟩ := tlvSet_get buf id length h
  unfold RoundTrips
  rw [hset, hwritten, hextent]
  constructor
  · rintro ⟨buf'', _, _, heq, hvalue, -⟩
    cases heq
    rw [hget, hread] at hvalue
    exact congrArg Prod.fst (Option.some.inj hvalue)
  · intro hvalue
    exact ⟨buf', _, getOffset, rfl, by rw [hget, hread, hvalue], hframe⟩

theorem TlvField.roundTrips_byte_iff {size : Nat} {buf : TlvBuf} {b_p : Nat} {id : UInt16}
    {offset : Int} {data : UInt8} (h : b_p + (byte data).extent ≤ size) :
    (byte data).RoundTrips size buf b_p id offset ↔ data.toNat < 0x80 := by
  rw [roundTrips_iff (by rfl) (fun _ => by rfl) rfl h]
  exact tlvValue_byte_eq_iff data

theorem TlvField.roundTrips_len_iff {size : Nat} {buf : TlvBuf} {b_p : Nat} {id : UInt16}
    {offset : Int} {data : UInt32} {data_len : Int} (hlen : data_len ≤ 4)
    (h : b_p + (len data data_len).extent ≤ size) :
    (len data data_len).RoundTrips size buf b_p id offset ↔
      tlvValue (lenData data data_len.toNat) = data := by
  have hshort : ¬4 < data_len := by omega
  have hlength : (lenData data data_len.toNat).length = data_len.toNat :=
    length_lenData data (by omega)
  have hset : (len data data_len).set size buf b_p id offset =
      tlvSet size buf b_p id (UInt8.ofNat (data_len % 256).toNat) (lenData data data_len.toNat)
        (offset + data_len + 4) := if_neg hshort
  have hget : ∀ buf', (len data data_len).get size buf' (b_p + 4) offset =
      tlvGet size buf' (b_p + 4) (lenData data data_len.toNat).length (offset + data_len) := by
    intro buf'
    rw [hlength]
    exact if_neg hshort
  have hextent : (len data data_len).extent = 4 + (lenData data data_len.toNat).length := by
    rw [hlength]
    exact if_neg hshort
  exact roundTrips_iff hset hget hextent h

/-- What is too long is not written, and read as 0. -/
theorem TlvField.roundTrips_len_iff_of_lt {size : Nat} {buf : TlvBuf} {b_p : Nat} {id : UInt16}
    {offset : Int} {data : UInt32} {data_len : Int} (hlen : 4 < data_len) :
    (len data data_len).RoundTrips size buf b_p id offset ↔ data = 0 := by
  have hset : (len data data_len).set size buf b_p id offset = some (buf, offset) := if_pos hlen
  have hget : ∀ buf', (len data data_len).get size buf' (b_p + 4) offset = some (0, offset) :=
    fun _ => if_pos hlen
  constructor
  · rintro ⟨buf', _, _, -, hvalue, -⟩
    rw [hget] at hvalue
    exact (congrArg Prod.fst (Option.some.inj hvalue)).symm
  · rintro rfl
    exact ⟨buf, offset, offset, hset, hget buf, fun _ _ => rfl⟩

/-- **A number set in a field comes back, and nothing else has changed, exactly when it is one
of the signed integers that have the field's length; one of four bytes always does.** -/
theorem tlv_reads_back_iff (f : TlvField) {size b_p : Nat} (h : b_p + f.extent ≤ size)
    (buf : TlvBuf) (id : UInt16) (offset : Int) :
    f.RoundTrips size buf b_p id offset ↔ f.ReadsBack := by
  cases f with
  | byte data => exact TlvField.roundTrips_byte_iff h
  | short data =>
    rw [TlvField.roundTrips_iff (by rfl) (fun _ => by rfl) rfl h]
    exact tlvValue_short_eq_iff data
  | int data =>
    have hfits : TlvField.FitsSigned 4 data := by
      unfold TlvField.FitsSigned
      omega
    rw [TlvField.roundTrips_iff (by rfl) (fun _ => by rfl) rfl h]
    exact iff_of_true ((tlvValue_lenData_eq_iff data (by decide) (le_refl 4)).mpr hfits) trivial
  | len data data_len =>
    by_cases hlong : 4 < data_len
    · have hout : ¬(1 ≤ data_len ∧ data_len ≤ 4) := by omega
      rw [TlvField.roundTrips_len_iff_of_lt hlong, TlvField.ReadsBack, if_neg hout]
    · have hshort : data_len ≤ 4 := by omega
      rw [TlvField.roundTrips_len_iff hshort h, TlvField.ReadsBack]
      by_cases hpos : 1 ≤ data_len
      · rw [if_pos ⟨hpos, hshort⟩]
        exact tlvValue_lenData_eq_iff data (by omega) (by omega)
      · have hnone : data_len.toNat = 0 := by omega
        rw [if_neg fun h => hpos h.1, hnone]
        exact eq_comm

/-- Three bytes that hold -2. -/
theorem negative_reads_back :
    (TlvField.len 0xfffffffe 3).RoundTrips 16 (fun _ => 0) 2 7 0 :=
  (tlv_reads_back_iff (.len 0xfffffffe 3) (by decide) _ 7 0).mpr (by decide)

/-- 0x80 comes back as 0xffffff80. -/
theorem high_byte_extended :
    ¬∀ (f : TlvField) (size b_p : Nat) (buf : TlvBuf) (id : UInt16) (offset : Int),
      b_p + f.extent ≤ size → f.RoundTrips size buf b_p id offset := by
  intro h
  have hback := h (.byte 0x80) 5 0 (fun _ => 0) 7 0 (by decide)
  rw [TlvField.roundTrips_byte_iff (by decide)] at hback
  revert hback
  decide

end Opconn.Vos
