import Opconn.Oam.CtcWalk

/-!
# Variable requests

`OamVarReq` answers the Variable Request of 802.3: it walks over the descriptors of the
request and is to write one container for each of them into `out_data`.  The walk moves its
own pointer, but `OamVarAttr` is given the start of the request each time, and the only
getter there is writes the same branch and leaf whatever was asked for.
-/

namespace Opconn.Oam.Variable

open Ctc

def oamCodeVariableRsp : UInt8 := 3

def oamAttrFrmTxOk : UInt16 := 0x0002
def oamAttrFrmRxOk : UInt16 := 0x0005

/-! ### Requests -/

/-- `oam_variable_descriptor_t` of an attribute that is asked for. -/
structure Descriptor where
  branch : UInt8
  leaf : UInt16
  branch_ne : branch ≠ 0

/-- What a descriptor asks for. -/
def Descriptor.key (d : Descriptor) : UInt8 × UInt16 := (d.branch, d.leaf)

def Descriptor.encode (d : Descriptor) : Buffer :=
  [d.branch, (d.leaf >>> 8).toUInt8, d.leaf.toUInt8]

/-- The descriptors end with a branch of 0; what stands behind it is not looked at. -/
def request (ds : List Descriptor) (tail : Buffer) : Buffer :=
  ds.flatMap Descriptor.encode ++ 0 :: tail

/-! ### The answer -/

/-- `out_data`: its first `g_usOutDataIdx` bytes, and what all of it held before. -/
structure OutData where
  front : Buffer
  old : Nat → UInt8

/-- What the header of every PDU has. -/
structure Link where
  srcMac : Vector UInt8 6
  flags : UInt16

/-- `eopl_oam_pdu_hdr`. -/
def eoplOamPduHdr (l : Link) (pcode : UInt8) : Buffer :=
  ([0x01, 0x80, 0xc2, 0x00, 0x00, 0x02] : Buffer) ++ l.srcMac.toList ++
    ([0x88, 0x09, 0x03, (l.flags >>> 8).toUInt8, l.flags.toUInt8, pcode] : Buffer)

/-- `OamGetFrmTxOk`.  The last three bytes of the value are not written. -/
def oamGetFrmTxOk (l : Link) (o : OutData) : OutData :=
  let front := if o.front.length = 0 then eoplOamPduHdr l oamCodeVariableRsp else o.front
  let stale := fun i => o.old (front.length + 5 + i)
  { o with
    front := front ++ [oamBranchStandardAttrib, (oamAttrFrmTxOk >>> 8).toUInt8,
      oamAttrFrmTxOk.toUInt8, 4, 0xFF, stale 0, stale 1, stale 2] }

/-- `OamVarAttr`. -/
def oamVarAttr (l : Link) (pucData : Buffer) (o : OutData) : OutData :=
  let leaf := (ptrAt pucData 0).leaf
  if leaf = oamAttrFrmTxOk then oamGetFrmTxOk l o
  else if leaf = oamAttrFrmRxOk then oamGetFrmTxOk l o
  else o

/-- The loop of `OamVarReq`, with `pstVarDes` at the second buffer. -/
def varReqLoop (l : Link) (pucData : Buffer) : Buffer → OutData → OutData
  | branch :: _ :: _ :: rest, o =>
    if branch = 0 then o
    else varReqLoop l pucData rest
      (if branch = oamBranchStandardAttrib then oamVarAttr l pucData o else o)
  | _, o => o

/-- The containers behind a header: branch, leaf, width and as many bytes of a value. -/
def containers : Nat → Buffer → List (UInt8 × UInt16)
  | fuel + 1, branch :: hi :: lo :: width :: value =>
    if branch = 0 then []
    else (branch, hi.toUInt16 * 256 + lo.toUInt16) :: containers fuel (value.drop width.toNat)
  | _, _ => []

/-- The container that is always written. -/
def block (stale : UInt8 × UInt8 × UInt8) : Buffer :=
  [oamBranchStandardAttrib, (oamAttrFrmTxOk >>> 8).toUInt8, oamAttrFrmTxOk.toUInt8, 4, 0xFF,
    stale.1, stale.2.1, stale.2.2]

/-- The front of `out_data` behind `n` of these containers. -/
inductive Written (l : Link) : Nat → Buffer → Prop where
  | nothing : Written l 0 []
  | some (first : UInt8 × UInt8 × UInt8) (more : List (UInt8 × UInt8 × UInt8)) :
    Written l (more.length + 1)
      (eoplOamPduHdr l oamCodeVariableRsp ++ (first :: more).flatMap block)

variable {l : Link}

@[simp] theorem length_eoplOamPduHdr (l : Link) (pcode : UInt8) :
    (eoplOamPduHdr l pcode).length = oampduHdrSize := by
  simp [eoplOamPduHdr, oampduHdrSize]

theorem length_flatMap_block (vs : List (UInt8 × UInt8 × UInt8)) :
    (vs.flatMap block).length = 8 * vs.length := by
  induction vs with
  | nil => rfl
  | cons v vs ih =>
    rw [List.flatMap_cons, List.length_append, ih, List.length_cons, Nat.mul_succ, Nat.add_comm]
    rfl

theorem Written.length_eq {n : Nat} {front : Buffer} (h : Written l n front) :
    front.length = if n = 0 then 0 else 18 + 8 * n := by
  cases h with
  | nothing => rfl
  | some first more =>
    rw [if_neg (Nat.succ_ne_zero _), List.length_append, length_eoplOamPduHdr,
      length_flatMap_block, List.length_cons]
    rfl

theorem Written.step {n : Nat} {o : OutData} (h : Written l n o.front) :
    Written l (n + 1) (oamGetFrmTxOk l o).front := by
  rw [oamGetFrmTxOk]
  generalize o.front = front at h
  cases h with
  | nothing => exact .some (_, _, _) []
  | some first more =>
    rw [if_neg (by simp [oampduHdrSize])]
    generalize hstale : o.old = old
    have hnext (v : UInt8 × UInt8 × UInt8) := Written.some (l := l) first (more ++ [v])
    simp only [← List.cons_append, List.flatMap_append, ← List.append_assoc, List.length_append,
      List.length_singleton] at hnext
    exact hnext (_, _, _)

/-- How many containers a request gets. -/
def answered (pucData : Buffer) (ds : List Descriptor) : Nat :=
  if (ptrAt pucData 0).leaf = oamAttrFrmTxOk ∨ (ptrAt pucData 0).leaf = oamAttrFrmRxOk then
    ds.countP (·.branch = oamBranchStandardAttrib)
  else 0

theorem oamVarAttr_eq (pucData : Buffer) (o : OutData) :
    oamVarAttr l pucData o =
      if (ptrAt pucData 0).leaf = oamAttrFrmTxOk ∨ (ptrAt pucData 0).leaf = oamAttrFrmRxOk then
        oamGetFrmTxOk l o
      else o := by
  rw [oamVarAttr]
  split
  · next htx => rw [if_pos (.inl htx)]
  · next htx =>
    split
    · next hrx => rw [if_pos (.inr hrx)]
    · next hrx => rw [if_neg (not_or.mpr ⟨htx, hrx⟩)]

end Opconn.Oam.Variable
