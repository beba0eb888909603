import Mathlib.Algebra.Group.Nat.Defs
import Opconn.Lib.Runs

/-!
# The header of the configuration file

The flash device of the configuration begins with two boot flags and two texts of eight digits, the
length and the checksum of the data behind them.  `vosConfigFileLengthSet` and
`vosConfigFileCheckSumSet` print their text over the field, with the zero that ends a string: it
falls on the first byte behind the field.
-/

namespace Opconn.Vos

open Runs

/-! ### Numbers and their texts -/

/-- A digit of `"%X"`. -/
def hexDigit (d : UInt32) : UInt8 := if d < 10 then 48 + d.toUInt8 else 55 + d.toUInt8

/-- The last `n` digits of a number. -/
def hexDigits : Nat → UInt32 → List UInt8
  | 0, _ => []
  | n + 1, v => hexDigits n (v >>> 4) ++ [hexDigit (v &&& 15)]

/-- The characters that `"%08X"` prints, the zero that ends them included. -/
def sprintf08X (value : UInt32) : List UInt8 := hexDigits 8 value ++ [0]

/-- What `vosStrToUInt` reads as a digit. -/
def isDigitOf (base c : UInt32) : Bool :=
  97 ≤ c && c < 97 + base - 10 || 65 ≤ c && c < 65 + base - 10 || 48 ≤ c && c ≤ 57

/-- The loop of `vosStrToUInt`. -/
def strToUIntLoop (base : UInt32) : List UInt8 → UInt32 → UInt32
  | [], n => n
  | c :: s, n =>
    if isDigitOf base c.toUInt32 then
      strToUIntLoop base s (n * base + ((if c ≤ 57 then c.toUInt32 else c.toUInt32 + 9) &&& 15))
    else n

/-- `vosStrToUInt` without its sign: the base that the string begins with, and its digits. -/
def strToUIntAbs : List UInt8 → UInt32
  | 48 :: c :: s =>
    if c = 120 || c = 88 then strToUIntLoop 16 s 0
    else if c = 98 || c = 66 then strToUIntLoop 2 s 0
    else strToUIntLoop 8 (c :: s) 0
  | s => strToUIntLoop 10 s 0

/-- `vosStrToUInt`. -/
def vosStrToUInt : List UInt8 → UInt32
  | 45 :: s => -strToUIntAbs s
  | s => strToUIntAbs s

theorem length_hexDigits (n : Nat) (v : UInt32) : (hexDigits n v).length = n := by
  induction n generalizing v with
  | zero => rfl
  | succ n ih => rw [hexDigits, List.length_append, ih, List.length_singleton]

theorem length_sprintf08X (v : UInt32) : (sprintf08X v).length = 9 := by
  rw [sprintf08X, List.length_append, length_hexDigits, List.length_singleton]

theorem strToUIntLoop_hexDigit {d : UInt32} (hd : d < 16) (s : List UInt8) (n : UInt32) :
    strToUIntLoop 16 (hexDigit d :: s) n = strToUIntLoop 16 s (n * 16 + d) := by
  have hvalue : ∀ d < 16, isDigitOf 16 (hexDigit (UInt32.ofNat d)).toUInt32 = true ∧
      ((if hexDigit (UInt32.ofNat d) ≤ 57 then (hexDigit (UInt32.ofNat d)).toUInt32
        else (hexDigit (UInt32.ofNat d)).toUInt32 + 9) &&& 15) = UInt32.ofNat d := by decide
  obtain ⟨hdigit, hval⟩ := hvalue d.toNat hd
  rw [UInt32.ofNat_toNat] at hdigit hval
  rw [strToUIntLoop, if_pos hdigit, hval]

/-- The digits are read back in front of whatever follows. -/
theorem strToUIntLoop_hexDigits {n : Nat} {v : UInt32} (hv : v.toNat < 16 ^ n) (s : List UInt8) :
    strToUIntLoop 16 (hexDigits n v ++ s) 0 = strToUIntLoop 16 s v := by
  induction n generalizing v s with
  | zero =>
    have hzero : v = 0 := by
      apply UInt32.toNat_inj.mp
      rw [UInt32.toNat_zero]
      rw [Nat.pow_zero] at hv
      omega
    rw [hzero]
    rfl
  | succ n ih =>
    have hshift : (v >>> 4).toNat = v.toNat / 16 := by simp [Nat.shiftRight_eq_div_pow]
    have hmask : (v &&& 15).toNat = v.toNat % 16 := Nat.and_two_pow_sub_one_eq_mod _ 4
    have hlt : (v >>> 4).toNat < 16 ^ n := by
      rw [hshift]
      rw [Nat.pow_succ] at hv
      omega
    have hdigit : v &&& 15 < 16 := by
      apply UInt32.lt_iff_toNat_lt.mpr
      rw [hmask]
      exact Nat.mod_lt _ (by decide)
    have hsum : (v >>> 4) * 16 + (v &&& 15) = v := by
      apply UInt32.toNat_inj.mp
      have hv32 := v.toNat_lt
      rw [UInt32.toNat_add, UInt32.toNat_mul, hshift, hmask]
      change (v.toNat / 16 * 16 % 2 ^ 32 + v.toNat % 16) % 2 ^ 32 = v.toNat
      omega
    rw [hexDigits, List.append_assoc, List.singleton_append, ih hlt,
      strToUIntLoop_hexDigit hdigit, hsum]

theorem vosStrToUInt_sprintf08X (v : UInt32) : vosStrToUInt (48 :: 120 :: sprintf08X v) = v := by
  have hv := v.toNat_lt
  exact strToUIntLoop_hexDigits (n := 8) hv [0]

/-! ### The calls -/

/-- `FLASH_CONFIG_FILE_LEN_OFFSET`. -/
def flashConfigFileLenOffset : Nat := 2

/-- `FLASH_CONFIG_FILE_CHSUM_OFFSET`. -/
def flashConfigFileChsumOffset : Nat := 10

/-- Bytes stored over those of a buffer from an offset on. -/
def overwrite (data : List UInt8) (off : Nat) (bs : List UInt8) : List UInt8 :=
  data.take off ++ (bs ++ data.drop (off + bs.length))

/-- What happens to the files in one call: whether the device is read, and whether the temporary
file is written whole. -/
structure FileIo where
  read : Bool
  written : Bool

/-- The command `mtd write`: its exit code and the device behind it, from the device and a file. -/
abbrev MtdWrite : Type := List UInt8 → List UInt8 → Int × List UInt8

variable (mtd : MtdWrite)

/-- A field of the header printed over what the device holds: the result and the device. -/
def configFieldSet (off : Nat) (io : FileIo) (device : List UInt8) (value : UInt32) :
    Int × List UInt8 :=
  let data := if io.read then device else []
  if data.length > off + 8 then
    if io.written then mtd device (overwrite data off (sprintf08X value)) else (-1, device)
  else (-1, device)

/-- `vosConfigFileLengthSet`. -/
def vosConfigFileLengthSet (io : FileIo) (device : List UInt8) (value : UInt32) :
    Int × List UInt8 :=
  configFieldSet mtd flashConfigFileLenOffset io device value

/-- `vosConfigFileCheckSumSet`. -/
def vosConfigFileCheckSumSet (io : FileIo) (device : List UInt8) (value : UInt32) :
    Int × List UInt8 :=
  configFieldSet mtd flashConfigFileChsumOffset io device value

/-- The loop of the getters: what is read into `buf` until it is full up to its last place. -/
def configFieldLoop (off : Nat) : List UInt8 → List UInt8 → UInt32
  | _, [] => 0
  | buf, ch :: rest =>
    if buf.length + 1 > off + 8 then vosStrToUInt (48 :: 120 :: (buf.drop off ++ [0]))
    else configFieldLoop off (buf ++ [ch]) rest

/-- A field of the header read from the device, or 0 when the device does not open. -/
def configFieldGet (off : Nat) (opens : Bool) (device : List UInt8) : UInt32 :=
  if opens then configFieldLoop off [] device else 0

/-- `vosConfigFileLengthGet`. -/
def vosConfigFileLengthGet (opens : Bool) (device : List UInt8) : UInt32 :=
  configFieldGet flashConfigFileLenOffset opens device

/-- `vosConfigFileCheckSumGet`. -/
def vosConfigFileCheckSumGet (opens : Bool) (device : List UInt8) : UInt32 :=
  configFieldGet flashConfigFileChsumOffset opens device

/-! ### What a call changes -/

/-- Nothing but the eight bytes of a field differs. -/
structure OnlyField (off : Nat) (before after : List UInt8) : Prop where
  length : after.length = before.length
  outside : ∀ i, i < off ∨ off + 8 ≤ i → after[i]? = before[i]?

theorem OnlyField.refl (off : Nat) (l : List UInt8) : OnlyField off l l := ⟨rfl, fun _ _ => rfl⟩

theorem length_overwrite {data bs : List UInt8} {off : Nat} (h : off + bs.length ≤ data.length) :
    (overwrite data off bs).length = data.length := by
  rw [overwrite, List.length_append, List.length_append, List.length_take, List.length_drop]
  omega

theorem getElem?_overwrite_of_lt {data bs : List UInt8} {off i : Nat}
    (h : off + bs.length ≤ data.length) (hi : i < off) :
    (overwrite data off bs)[i]? = data[i]? := by
  have hlen : (data.take off).length = off := List.length_take_of_le (by omega)
  rw [overwrite, List.getElem?_append_left (by omega), List.getElem?_take_of_lt hi]

theorem getElem?_overwrite_inside {data bs : List UInt8} {off i : Nat}
    (h : off + bs.length ≤ data.length) (hi : i < bs.length) :
    (overwrite data off bs)[off + i]? = bs[i]? := by
  have hlen : (data.take off).length = off := List.length_take_of_le (by omega)
  rw [overwrite, List.getElem?_append_right (by omega), hlen, Nat.add_sub_cancel_left,
    List.getElem?_append_left hi]

theorem getElem?_overwrite_of_le {data bs : List UInt8} {off i : Nat}
    (h : off + bs.length ≤ data.length) (hi : off + bs.length ≤ i) :
    (overwrite data off bs)[i]? = data[i]? := by
  have hlen : (data.take off).length = off := List.length_take_of_le (by omega)
  rw [overwrite, List.getElem?_append_right (by omega), hlen,
    List.getElem?_append_right (by omega), List.getElem?_drop]
  congr 1
  omega

/-- The zero behind the text is stored where the byte behind the field was. -/
theorem onlyField_overwrite_iff {data : List UInt8} {off : Nat} (h : off + 8 < data.length)
    (v : UInt32) :
    OnlyField off data (overwrite data off (sprintf08X v)) ↔ data[off + 8]? = some 0 := by
  have hlen := length_sprintf08X v
  have hroom : off + (sprintf08X v).length ≤ data.length := by omega
  have hbehind : (overwrite data off (sprintf08X v))[off + 8]? = some 0 := by
    rw [getElem?_overwrite_inside hroom (by omega), sprintf08X,
      List.getElem?_append_right (Nat.le_of_eq (length_hexDigits 8 v)), length_hexDigits]
    rfl
  constructor
  · intro honly
    rw [← honly.outside (off + 8) (Or.inr (Nat.le_refl _)), hbehind]
  · intro hzero
    refine ⟨length_overwrite hroom, ?_⟩
    intro i hi
    rcases hi with hi | hi
    · exact getElem?_overwrite_of_lt hroom hi
    · rcases Nat.eq_or_lt_of_le hi with rfl | hlt
      · rw [hbehind, hzero]
      · exact getElem?_overwrite_of_le hroom (by omega)

/-! ### What the getters read -/

theorem configFieldLoop_eq (off : Nat) (buf device : List UInt8) (hbuf : buf.length ≤ off + 8) :
    configFieldLoop off buf device =
      if off + 8 < buf.length + device.length then
        vosStrToUInt (48 :: 120 :: (((buf ++ device).take (off + 8)).drop off ++ [0]))
      else 0 := by
  induction device generalizing buf with
  | nil => rw [configFieldLoop, List.length_nil, if_neg (by omega)]
  | cons ch rest ih =>
    rw [configFieldLoop, List.length_cons]
    by_cases hfull : buf.length + 1 > off + 8
    · have hlen : buf.length = off + 8 := by omega
      rw [if_pos hfull, if_pos (by omega), ← hlen, List.take_left]
    · rw [if_neg hfull, ih (buf ++ [ch]) (by rw [List.length_append, List.length_singleton]; omega),
        List.append_assoc, List.singleton_append, List.length_append, List.length_singleton,
        Nat.add_assoc, Nat.add_comm 1]

theorem configFieldGet_eq (off : Nat) (device : List UInt8) :
    configFieldGet off true device =
      if off + 8 < device.length then
        vosStrToUInt (48 :: 120 :: ((device.take (off + 8)).drop off ++ [0]))
      else 0 := by
  have hloop := configFieldLoop_eq off [] device (Nat.zero_le _)
  rwa [List.length_nil, Nat.zero_add, List.nil_append] at hloop

/-- What was printed is read back. -/
theorem configFieldGet_overwrite {off : Nat} {data : List UInt8} (h : off + 8 < data.length)
    (v : UInt32) : configFieldGet off true (overwrite data off (sprintf08X v)) = v := by
  have hroom : off + (sprintf08X v).length ≤ data.length := by
    rw [length_sprintf08X]
    exact h
  have hfield : ((overwrite data off (sprintf08X v)).take (off + 8)).drop off = hexDigits 8 v := by
    rw [List.drop_take, Nat.add_sub_cancel_left, overwrite,
      List.drop_left' (List.length_take_of_le (by omega)), sprintf08X, List.append_assoc,
      List.take_left' (length_hexDigits 8 v)]
  rw [configFieldGet_eq, length_overwrite hroom, if_pos h, hfield]
  exact vosStrToUInt_sprintf08X v

/-- A getter reads nothing but its field. -/
theorem configFieldGet_congr {off off' : Nat} {before after : List UInt8}
    (hoff : off' + 8 ≤ off ∨ off + 8 ≤ off') (h : OnlyField off before after) :
    configFieldGet off' true after = configFieldGet off' true before := by
  have hfield : (after.take (off' + 8)).drop off' = (before.take (off' + 8)).drop off' := by
    apply List.ext_getElem?
    intro i
    rw [List.getElem?_drop, List.getElem?_drop]
    by_cases hi : off' + i < off' + 8
    · rw [List.getElem?_take_of_lt hi, List.getElem?_take_of_lt hi]
      apply h.outside
      omega
    · rw [List.getElem?_take_eq_none (by omega), List.getElem?_take_eq_none (by omega)]
  rw [configFieldGet_eq, configFieldGet_eq, h.length, hfield]

/-! ### Runs of calls -/

/-- A field of the header. -/
inductive HeaderField where
  | length
  | checksum
deriving DecidableEq, Repr

def HeaderField.offset : HeaderField → Nat
  | .length => flashConfigFileLenOffset
  | .checksum => flashConfigFileChsumOffset

/-- One call that sets a field. -/
structure HeaderCall where
  field : HeaderField
  value : UInt32
  io : FileIo

/-- The device, and the value that each field was set to by the last call that succeeded. -/
structure HeaderState where
  device : List UInt8
  lastSet : HeaderField → Option UInt32

def HeaderCall.run (c : HeaderCall) (device : List UInt8) : Int × List UInt8 :=
  match c.field with
  | .length => vosConfigFileLengthSet mtd c.io device c.value
  | .checksum => vosConfigFileCheckSumSet mtd c.io device c.value

def HeaderField.get (f : HeaderField) (device : List UInt8) : UInt32 :=
  match f with
  | .length => vosConfigFileLengthGet true device
  | .checksum => vosConfigFileCheckSumGet true device

def headerStep (s : HeaderState) (c : HeaderCall) : HeaderState where
  device := (c.run mtd s.device).2
  lastSet := if (c.run mtd s.device).1 = 0 then
      fun f => if f = c.field then some c.value else s.lastSet f
    else s.lastSet

/-- The fields read back the values last set, and the data bytes are those of the file at first. -/
structure HeaderKept (file : List UInt8) (s : HeaderState) : Prop where
  readBack : ∀ f v, s.lastSet f = some v → f.get s.device = v
  data : ∀ i, flashConfigFileChsumOffset + 8 ≤ i → s.device[i]? = file[i]?

/-- A call that prints its text finds a zero behind the field. -/
def ZeroBehind (s : HeaderState) (c : HeaderCall) : Prop :=
  c.io.read = true → c.io.written = true → c.field.offset + 8 < s.device.length →
    s.device[c.field.offset + 8]? = some 0

theorem HeaderCall.run_eq (c : HeaderCall) (device : List UInt8) :
    c.run mtd device = configFieldSet mtd c.field.offset c.io device c.value := by
  rw [HeaderCall.run]
  cases c.field with
  | length => rfl
  | checksum => rfl

theorem HeaderField.get_eq (f : HeaderField) (device : List UInt8) :
    f.get device = configFieldGet f.offset true device := by
  cases f with
  | length => rfl
  | checksum => rfl

/-- A call prints its text over the field, or refuses and leaves the device. -/
theorem HeaderCall.run_cases {mtd : MtdWrite} (hmtd : ∀ device file, mtd device file = (0, file))
    (c : HeaderCall) (device : List UInt8) :
    (c.io.read = true ∧ c.io.written = true ∧ c.field.offset + 8 < device.length ∧
      c.run mtd device = (0, overwrite device c.field.offset (sprintf08X c.value))) ∨
    (¬(c.io.read = true ∧ c.io.written = true ∧ c.field.offset + 8 < device.length) ∧
      c.run mtd device = (-1, device)) := by
  rw [HeaderCall.run_eq, configFieldSet]
  cases hread : c.io.read with
  | false => exact Or.inr ⟨by simp, rfl⟩
  | true =>
    rw [if_pos rfl]
    by_cases hlen : c.field.offset + 8 < device.length
    · rw [if_pos hlen]
      cases hwritten : c.io.written with
      | false => exact Or.inr ⟨by simp, rfl⟩
      | true => exact Or.inl ⟨rfl, rfl, hlen, by rw [if_pos rfl, hmtd]⟩
    · rw [if_neg hlen]
      exact Or.inr ⟨fun h => hlen h.2.2, rfl⟩

theorem offsets_apart {f g : HeaderField} (h : g ≠ f) :
    g.offset + 8 ≤ f.offset ∨ f.offset + 8 ≤ g.offset := by
  cases f <;> cases g <;> first | exact absurd rfl h | decide

theorem offset_add_le (f : HeaderField) : f.offset + 8 ≤ flashConfigFileChsumOffset + 8 := by
  cases f <;> decide

/-- A step keeps the header and changes only its own field when it finds a zero behind it, and only
then. -/
theorem headerStep_iff {mtd : MtdWrite} (hmtd : ∀ device file, mtd device file = (0, file))
    {file : List UInt8} {s : HeaderState} {c : HeaderCall} (hs : HeaderKept file s) :
    HeaderKept file (headerStep mtd s c) ∧
        OnlyField c.field.offset s.device (headerStep mtd s c).device ↔ ZeroBehind s c := by
  rcases c.run_cases hmtd s.device with ⟨hread, hwritten, hlen, hrun⟩ | ⟨hrefused, hrun⟩
  · have hdevice : (headerStep mtd s c).device =
        overwrite s.device c.field.offset (sprintf08X c.value) := by rw [headerStep, hrun]
    have hlast : (headerStep mtd s c).lastSet =
        fun f => if f = c.field then some c.value else s.lastSet f := by
      rw [headerStep, hrun]
      rfl
    have hzero : ZeroBehind s c ↔ s.device[c.field.offset + 8]? = some 0 :=
      ⟨fun h => h hread hwritten hlen, fun h _ _ _ => h⟩
    rw [hzero, ← onlyField_overwrite_iff hlen c.value, hdevice]
    constructor
    · rintro ⟨-, honly⟩
      exact honly
    · intro honly
      refine ⟨⟨?_, ?_⟩, honly⟩
      · intro f v hf
        have hf : (if f = c.field then some c.value else s.lastSet f) = some v := by
          rwa [hlast] at hf
        rw [hdevice, HeaderField.get_eq]
        by_cases hfield : f = c.field
        · rw [if_pos hfield] at hf
          rw [hfield, configFieldGet_overwrite hlen, Option.some.inj hf]
        · rw [if_neg hfield] at hf
          rw [configFieldGet_congr (offsets_apart hfield) honly, ← HeaderField.get_eq]
          exact hs.readBack f v hf
      · intro i hi
        have hbehind := offset_add_le c.field
        rw [hdevice, honly.outside i (Or.inr (by omega))]
        exact hs.data i hi
  · have hsame : headerStep mtd s c = s := by rw [headerStep, hrun]; rfl
    rw [hsame]
    have hcond : ZeroBehind s c := fun hread hwritten hlen => absurd ⟨hread, hwritten, hlen⟩ hrefused
    exact iff_of_true ⟨hs, OnlyField.refl _ _⟩ hcond

/-- The device with a configuration file, no field set yet. -/
def headerStart (file : List UInt8) : HeaderState := ⟨file, fun _ => none⟩

theorem headerKept_start (file : List UInt8) : HeaderKept file (headerStart file) := by
  refine ⟨?_, fun _ _ => rfl⟩
  intro f v hf
  cases hf

/-- **The fields of the header.**  In a run of calls from any file, every call changes only its own
field, the fields read back the values last set and the data stays as it was, in every state, exactly
when each call that prints its text finds a zero behind the field. -/
theorem header_kept_iff {mtd : MtdWrite} (hmtd : ∀ device file, mtd device file = (0, file))
    (file : List UInt8) (calls : List HeaderCall) :
    AllStates (headerStep mtd) (HeaderKept file) (headerStart file) calls ∧
        AllSteps (headerStep mtd)
          (fun s c => OnlyField c.field.offset s.device (headerStep mtd s c).device)
          (headerStart file) calls ↔
      AllSteps (headerStep mtd) ZeroBehind (headerStart file) calls :=
  allStates_and_allSteps_iff (headerStep mtd) (fun _ => True) (fun _ _ _ => trivial)
    (fun _ _ _ hs => headerStep_iff hmtd hs) trivial (headerKept_start file) calls

/-- A file of twenty digits loses its first data byte to a checksum. -/
theorem checksum_over_data :
    ¬(AllStates (headerStep fun _ file => (0, file)) (HeaderKept (List.replicate 20 48))
        (headerStart (List.replicate 20 48)) [⟨.checksum, 1, ⟨true, true⟩⟩] ∧
      AllSteps (headerStep fun _ file => (0, file))
        (fun s c => OnlyField c.field.offset s.device
          (headerStep (fun _ file => (0, file)) s c).device)
        (headerStart (List.replicate 20 48)) [⟨.checksum, 1, ⟨true, true⟩⟩]) := by
  rintro ⟨hkept, -⟩
  have hdata := hkept.last.data 18 (by decide)
  exact absurd hdata (by decide)

/-- Three calls on a file with zeros behind both fields: the length, the length again and then the
checksum. -/
theorem header_kept_lengths_first :
    AllStates (headerStep fun _ file => (0, file)) (HeaderKept (List.replicate 20 0))
        (headerStart (List.replicate 20 0))
        [⟨.length, 2, ⟨true, true⟩⟩, ⟨.length, 305, ⟨true, true⟩⟩, ⟨.checksum, 9, ⟨true, true⟩⟩] ∧
      AllSteps (headerStep fun _ file => (0, file))
        (fun s c => OnlyField c.field.offset s.device
          (headerStep (fun _ file => (0, file)) s c).device)
        (headerStart (List.replicate 20 0))
        [⟨.length, 2, ⟨true, true⟩⟩, ⟨.length, 305, ⟨true, true⟩⟩, ⟨.checksum, 9, ⟨true, true⟩⟩] :=
  (header_kept_iff (fun _ _ => rfl) _ _).mpr
    ⟨fun _ _ _ => by decide, fun _ _ _ => by decide, fun _ _ _ => by decide, trivial⟩

end Opconn.Vos
