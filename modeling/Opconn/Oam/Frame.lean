import Mathlib.Data.List.Basic

/-!
# OAM frames

The received frame sits in the global buffer `in_data`; its first four bytes are
the host header, and every field the discovery code reads is a fixed offset
behind them (`struct oampdu_hdr`, `struct oam_info_tlv` and
`struct EX_OAM_INFO_TLV_s`, all packed).  The target is a big-endian MIPS, so a
16-bit field is its two bytes in network order.
-/

namespace Opconn.Oam

/-- A byte buffer; bytes past its end read as zero. -/
abbrev Buffer := List UInt8

/-- `OAM_MINIMIZE_PDU_SIZE`. -/
def oamMinimizePduSize : Nat := 60

/-- `OAM_MAXIMUM_PDU_SIZE`. -/
def oamMaximumPduSize : Nat := 1518

def byteAt (buf : Buffer) (offset : Nat) : UInt8 := buf.getD offset 0

def u16At (buf : Buffer) (offset : Nat) : UInt16 :=
  (byteAt buf offset).toUInt16 * 256 + (byteAt buf (offset + 1)).toUInt16

/-- The two bytes of a word in network order make it up again. -/
theorem u16_of_bytes (v : UInt16) :
    (v >>> 8).toUInt8.toUInt16 * 256 + v.toUInt8.toUInt16 = v := by
  have hlt := v.toNat_lt
  apply UInt16.toNat_inj.mp
  simp only [UInt16.toNat_add, UInt16.toNat_mul, UInt8.toNat_toUInt16, UInt16.toNat_toUInt8,
    UInt16.toNat_shiftRight, UInt16.toNat_ofNat, Nat.shiftRight_eq_div_pow, Nat.reducePow,
    Nat.reduceMod]
  omega

def bytesAt (buf : Buffer) (offset count : Nat) : List UInt8 :=
  (List.range count).map fun i => byteAt buf (offset + i)

/-- `vosMemCpy(in_data, pucFrameIn, usFrameLen)`: the frame replaces a prefix of
the buffer, what an earlier longer frame left behind it stays. -/
def memCpyFront (buf frame : Buffer) : Buffer := frame ++ buf.drop frame.length

/-! ### Header -/

/-- The offset of the PDU in `in_data` (`p_byte = &in_data[4]`). -/
def pduOffset : Nat := 4

/-- `sizeof(struct oampdu_hdr)`. -/
def oampduHdrSize : Nat := 18

def hdrFlags (buf : Buffer) : UInt16 := u16At buf (pduOffset + 15)

def hdrPcode (buf : Buffer) : UInt8 := byteAt buf (pduOffset + 17)

/-- The PDU codes of `oam.h` that the discovery code tells apart. -/
def oamCodeInfo : UInt8 := 0
def oamCodeVariableReq : UInt8 := 2
def oamCodeLoopback : UInt8 := 4
def oamCodeOrgSpec : UInt8 := 0xFE

/-! ### Information TLVs -/

/-- `struct oam_info_tlv`. -/
structure InfoTlv where
  infoType : UInt8
  infoLength : UInt8
  oamVersion : UInt8
  revision : UInt16
  state : UInt8
  oamConfig : UInt8
  oampduConfig : UInt16
  oui : List UInt8
  vendorInfo : List UInt8
deriving DecidableEq, Repr

def infoTlvAt (buf : Buffer) (offset : Nat) : InfoTlv where
  infoType := byteAt buf offset
  infoLength := byteAt buf (offset + 1)
  oamVersion := byteAt buf (offset + 2)
  revision := u16At buf (offset + 3)
  state := byteAt buf (offset + 5)
  oamConfig := byteAt buf (offset + 6)
  oampduConfig := u16At buf (offset + 7)
  oui := bytesAt buf (offset + 9) 3
  vendorInfo := bytesAt buf (offset + 12) 4

/-- `sizeof(oam_info_tlv_t)`. -/
def oamInfoTlvSize : Nat := 16

/-- `p_info`: the TLV right behind the header. -/
def pInfo (buf : Buffer) : InfoTlv := infoTlvAt buf (pduOffset + oampduHdrSize)

/-- `pstRmtInfo`: the second TLV. -/
def pstRmtInfo (buf : Buffer) : InfoTlv :=
  infoTlvAt buf (pduOffset + oampduHdrSize + oamInfoTlvSize)

/-- `struct EX_OAM_INFO_TLV_s`.  The version list is read at index 3 only. -/
structure ExInfoTlv where
  ucType : UInt8
  ucLength : UInt8
  aucOui : List UInt8
  ucSupport : UInt8
  ucVersion : UInt8
  aucVersionList : List UInt8
deriving DecidableEq, Repr

/-- `pstExInfoTlv`: the organisation-specific TLV behind the two information
TLVs, with the first pair of its version list. -/
def pstExInfoTlv (buf : Buffer) : ExInfoTlv :=
  let offset := pduOffset + oampduHdrSize + 2 * oamInfoTlvSize
  { ucType := byteAt buf offset
    ucLength := byteAt buf (offset + 1)
    aucOui := bytesAt buf (offset + 2) 3
    ucSupport := byteAt buf (offset + 5)
    ucVersion := byteAt buf (offset + 6)
    aucVersionList := bytesAt buf (offset + 7) 4 }

def infoLocalEnd : UInt8 := 0
def infoLocalType : UInt8 := 1
def infoRemoteType : UInt8 := 2
def infoOrgSpecType : UInt8 := 0xFE

/-- `p_info` read as raw bytes, as the organisation-specific code does. -/
def pInfoBytes (buf : Buffer) (count : Nat) : List UInt8 :=
  bytesAt buf (pduOffset + oampduHdrSize) count

end Opconn.Oam
