import Mathlib.Logic.Function.Basic
import Opconn.Classify.Windows

/-!
# The classification tables

A rule occupies an entry of the rule table, names a mask by its slot (`bfMsel`) and is found
by the chip through a hash row of four rule ids.  `classify.c` keeps local copies of the
four tables and `dal_cls.c` adds and removes entries, writing each change to the chip as
well; the tables below stand for both, the chip taking every write.  Masks of rules with
a precedence sit in the slot of the precedence; the others share the slots from
`CLASSIFY_MIN_MASK_ENTRY` on through reference counts, and freeing the last reference
moves the masks behind it up.  A function that fails returns the tables as it leaves them.
-/

namespace Opconn.Classify

/-- `CLASSIFY_MIN_MASK_ENTRY` and `CLASSIFY_MAX_MASK_ENTRY`. -/
abbrev minMaskEntry : Nat := 8
abbrev maxMaskEntry : Nat := 24

/-- `CLASSIFY_MAX_RULE_ENTRY`, in `CLASSIFY_RULE_TABLE_GROUP` groups of
`CLASSIFY_ENTRYS_PER_GROUP`; the first id of a group is never used. -/
abbrev maxRuleEntry : Nat := 128
abbrev ruleTableGroup : Nat := 4
abbrev entrysPerGroup : Nat := 32

/-- `gpCmaskTbl`, `gpCruleTbl`, `gpCaddrTbl` (row, offset), `gpMallocCtl` and `gFreeCnt`. -/
@[ext]
structure Tables where
  cmask : Nat → MaskEntry
  crule : Nat → RuleEntry
  caddr : Nat → Nat → Nat
  mallocFlag : Nat → Bool
  modMselFlag : Nat → Bool
  freeCnt : Nat → Nat

/-- The error codes of the two layers. -/
inductive ClsError where
  | invalidPktType | maskRuleMake
  | maskTableFull | maskfSelectNull | freeInvalidMentry
  | ruleItemSame | ruleNullItem
  | addrTableCollision | ruleTableFull
deriving DecidableEq, Repr

/-- `opl_cls_hwtbl_t`. -/
structure HwTbl where
  clsHwRuleID : Nat
  clsHwMaskID : Nat
  clsHwAddr : Nat
  clsHwOff : Nat
deriving DecidableEq, Repr

/-- The ids that `clsRuleMalloc` can hand out. -/
def usableId (ruleID : Nat) : Bool := ruleID < maxRuleEntry && ruleID % entrysPerGroup ≠ 0

/-- `dalClsRst`. -/
def dalClsRst : Tables where
  cmask _ := .zero
  crule _ := .zero
  caddr _ _ := 0
  mallocFlag _ := false
  modMselFlag _ := false
  freeCnt g := if g < ruleTableGroup then entrysPerGroup - 1 else 0

/-! ### Hash rows -/

/-- One bit of `CRC8BitShift`. -/
def crc8Bit (byte usCrc : UInt8) (bit : UInt8) : UInt8 :=
  let shifted := if usCrc &&& 0x80 ≠ 0 then (usCrc * 2) ^^^ 0x07 else usCrc * 2
  if byte &&& bit ≠ 0 then shifted ^^^ 0x07 else shifted

def crc8BitShift (value : List UInt8) : UInt8 :=
  value.foldl
    (fun crc byte => [0x80, 0x40, 0x20, 0x10, 8, 4, 2, 1].foldl (crc8Bit byte) crc) 0xff

/-- `clsAddrCal`: the ports and the rule, folded onto twelve bytes; `TableAddrCal8` keeps
seven bits. -/
def clsAddrCal (r : RuleEntry) : Nat :=
  let pucker := (List.finRange 12).map fun i =>
    r.rule (i.castLE (by decide)) ^^^ r.rule (i.natAdd 12)
  let temp := [0, if r.bfEgress then 1 else 0, 0, if r.bfIngress then 1 else 0] ++ pucker
  (crc8BitShift temp &&& 0x7f).toNat

theorem clsAddrCal_msel (r : RuleEntry) (m : Nat) :
    clsAddrCal { r with bfMsel := m } = clsAddrCal r := rfl

/-! ### Mask slots -/

/-- The fields `clsMaskSel` compares. -/
def sameMask (a b : MaskEntry) : Bool :=
  a.bfEmask = b.bfEmask && a.bfImask = b.bfImask && a.bfOffset = b.bfOffset && a.mask = b.mask

/-- The slots of masks that rules share. -/
def sharedSlots : List Nat := List.range' minMaskEntry (maxMaskEntry - minMaskEntry)

/-- `clsMaskSel`. -/
def clsMaskSel (t : Tables) (pMaskEntry : MaskEntry) : Option Nat :=
  sharedSlots.find? fun maskCnt => (t.cmask maskCnt).bfValid && sameMask pMaskEntry (t.cmask maskCnt)

def setMask (t : Tables) (maskID : Nat) (m : MaskEntry) : Tables :=
  { t with cmask := Function.update t.cmask maskID m }

/-- `clsMselModByMask`. -/
def clsMselModByMask (t : Tables) (srcMsel destMsel : Nat) : Tables :=
  { t with crule := fun ruleID =>
      if usableId ruleID ∧ (t.crule ruleID).bfMsel = srcMsel ∧ t.mallocFlag ruleID then
        { t.crule ruleID with bfMsel := destMsel }
      else t.crule ruleID }

/-- `clsMselFlagSet` with `CLASSIFY_MSEL_SET_FLAG`, and with `CLASSIFY_MSEL_CLR_FLAG`. -/
def clsMselFlagSet (t : Tables) (msel : Nat) : Tables :=
  { t with modMselFlag := fun ruleID =>
      t.modMselFlag ruleID ||
        (usableId ruleID && (t.crule ruleID).bfMsel = msel && t.mallocFlag ruleID) }

def clsMselFlagClear (t : Tables) : Tables :=
  { t with modMselFlag := fun ruleID => t.modMselFlag ruleID && !usableId ruleID }

/-- `clsMselModByFlag`. -/
def clsMselModByFlag (t : Tables) (msel : Nat) : Tables :=
  { t with crule := fun ruleID =>
      if usableId ruleID ∧ t.mallocFlag ruleID ∧ t.modMselFlag ruleID then
        { t.crule ruleID with bfMsel := msel }
      else t.crule ruleID }

/-- Moves the masks of the `count` slots below `maskCnt` down by one. -/
def moveDown : Nat → Tables → Nat → Tables
  | 0, t, _ => t
  | count + 1, t, maskCnt =>
    moveDown count
      (clsMselModByMask (setMask t maskCnt (t.cmask (maskCnt - 1))) (maskCnt - 1) maskCnt)
      (maskCnt - 1)

/-- Takes another reference to the mask in slot `selMaskID`; a mask that gains priority
moves in front of the masks of a lower one. -/
def shareMask (t : Tables) (pMaskEntry : MaskEntry) (selMaskID : Nat) : Tables × Nat :=
  let old := t.cmask selMaskID
  let t₁ := setMask t selMaskID { old with referenceCount := old.referenceCount + 1 }
  if pMaskEntry.maskPri ≤ old.maskPri then (t₁, selMaskID)
  else
    let ucMaskInsert :=
      (sharedSlots.find? fun i => (t₁.cmask i).maskPri < pMaskEntry.maskPri).getD maxMaskEntry
    if ucMaskInsert = selMaskID then
      (setMask t₁ selMaskID { t₁.cmask selMaskID with maskPri := pMaskEntry.maskPri }, selMaskID)
    else
      let moved := { pMaskEntry with
        referenceCount := (t₁.cmask selMaskID).referenceCount, bfValid := true }
      let t₂ := moveDown (selMaskID - ucMaskInsert) (clsMselFlagSet t₁ selMaskID) selMaskID
      (clsMselFlagClear (clsMselModByFlag (setMask t₂ ucMaskInsert moved) ucMaskInsert),
        ucMaskInsert)

/-- `clsMaskMalloc`: the slot of an equal mask, or a new one in front of the masks of a
lower priority. -/
def clsMaskMalloc (t : Tables) (pMaskEntry : MaskEntry) : Tables × Except ClsError Nat :=
  match clsMaskSel t pMaskEntry with
  | some selMaskID =>
    let shared := shareMask t pMaskEntry selMaskID
    (shared.1, .ok shared.2)
  | none =>
    match sharedSlots.find? fun i => !(t.cmask i).bfValid with
    | none => (t, .error .maskTableFull)
    | some maskLastCnt =>
      let ucMaskInsert := (sharedSlots.find? fun i =>
        !(t.cmask i).bfValid || (t.cmask i).maskPri < pMaskEntry.maskPri).getD maxMaskEntry
      let t₁ := moveDown (maskLastCnt - ucMaskInsert) t maskLastCnt
      (setMask t₁ ucMaskInsert
        { t₁.cmask ucMaskInsert with referenceCount := 1, bfValid := true }, .ok ucMaskInsert)

/-- The loop of `clsMaskFree`: valid masks from `maskCnt` on move up by one.  The result
names the last slot that was moved from. -/
def moveUp : Nat → Tables → Nat → Tables × Nat
  | 0, t, maskCnt => (t, maskCnt - 1)
  | count + 1, t, maskCnt =>
    if (t.cmask maskCnt).bfValid then
      moveUp count
        (clsMselModByMask (setMask t (maskCnt - 1) (t.cmask maskCnt)) maskCnt (maskCnt - 1))
        (maskCnt + 1)
    else (t, maskCnt - 1)

/-- `clsMaskFree`. -/
def clsMaskFree (t : Tables) (maskID : Nat) : Tables × Except ClsError Unit :=
  let m := t.cmask maskID
  if m.bfValid = false ∨ m.referenceCount = 0 then (t, .error .freeInvalidMentry)
  else if m.referenceCount = 1 then
    let moved := moveUp (maxMaskEntry - (maskID + 1)) t (maskID + 1)
    (setMask moved.1 moved.2 .zero, .ok ())
  else (setMask t maskID { m with referenceCount := m.referenceCount - 1 }, .ok ())

/-! ### Rule ids -/

/-- `clsRuleFree`. -/
def clsRuleFree (t : Tables) (ruleID : Nat) : Tables :=
  let ruleGroup := ruleID / entrysPerGroup
  { t with
    freeCnt := Function.update t.freeCnt ruleGroup (t.freeCnt ruleGroup + 1)
    mallocFlag := Function.update t.mallocFlag ruleID false }

/-- `dalClsAddrTblWr`. -/
def dalClsAddrTblWr (t : Tables) (address offset ruleId : Nat) : Tables :=
  let row := Function.update (t.caddr address) offset ruleId
  { t with caddr := Function.update t.caddr address row }

/-- A group whose place in the row is free and that has more free ids than the best one. -/
def betterGroup (t : Tables) (address : Nat) (best : Nat × Nat) (groupCnt : Nat) : Nat × Nat :=
  if best.2 < t.freeCnt groupCnt ∧ t.caddr address groupCnt = 0 then
    (groupCnt, t.freeCnt groupCnt)
  else best

/-- `mostFreeGroup` and `maxFreeNum`. -/
def mostFreeGroup (t : Tables) (address : Nat) : Nat × Nat :=
  (List.range ruleTableGroup).foldl (betterGroup t address) (0, 0)

/-- `clsRuleMalloc`; the row is marked before an id is found. -/
def clsRuleMalloc (t : Tables) (address : Nat) : Tables × Except ClsError (Nat × Nat) :=
  if (List.range ruleTableGroup).all fun addrCnt => t.caddr address addrCnt ≠ 0 then
    (t, .error .addrTableCollision)
  else
    let best := mostFreeGroup t address
    if best.2 = 0 then (t, .error .ruleTableFull)
    else
      let t₁ := dalClsAddrTblWr t address best.1 0xFFFF
      let ids := List.range' (entrysPerGroup * best.1 + 1) (entrysPerGroup - 1)
      match ids.find? fun ruleCnt => !t.mallocFlag ruleCnt with
      | none => (t₁, .error .ruleTableFull)
      | some ruleCnt =>
        ({ t₁ with
            mallocFlag := Function.update t.mallocFlag ruleCnt true
            freeCnt := Function.update t.freeCnt best.1 (t.freeCnt best.1 - 1) },
          .ok (ruleCnt, best.1))

/-- The fields `clsRuleIDSel` compares. -/
def sameRule (a b : RuleEntry) : Bool :=
  a.bfMsel = b.bfMsel && a.bfIngress = b.bfIngress && a.bfEgress = b.bfEgress && a.rule = b.rule

/-- `clsRuleIDSel`: the offset in the row and the id of an equal rule. -/
def clsRuleIDSel (t : Tables) (pRuleEntry : RuleEntry) (usAddr : Nat) : Option (Nat × Nat) :=
  ((List.range ruleTableGroup).find? fun addrCnt =>
      t.caddr usAddr addrCnt ≠ 0 && t.caddr usAddr addrCnt ≠ 0xFFFF &&
        sameRule pRuleEntry (t.crule (t.caddr usAddr addrCnt))).map
    fun addrCnt => (addrCnt, t.caddr usAddr addrCnt)

/-! ### Entries -/

/-- `dalClsMaskTblWr`, which leaves the reference count alone. -/
def dalClsMaskTblWr (t : Tables) (pMask : MaskEntry) (maskID : Nat) : Tables :=
  setMask t maskID { pMask with referenceCount := (t.cmask maskID).referenceCount }

/-- `dalClsRuleTblWr`. -/
def dalClsRuleTblWr (t : Tables) (pRule : RuleEntry) (ruleID : Nat) : Tables :=
  { t with crule := Function.update t.crule ruleID pRule }

/-- The mask slot of a new entry: shared, or the slot of the precedence. -/
def takeMask (t : Tables) (pMaskEntry : MaskEntry) : Tables × Except ClsError Nat :=
  if pMaskEntry.maskPri = 0 then clsMaskMalloc t pMaskEntry
  else
    let maskID := pMaskEntry.maskPri - 1
    let m := t.cmask maskID
    (setMask t maskID { m with bfValid := true, referenceCount := m.referenceCount + 1 },
      .ok maskID)

/-- `dalClsTblEntryAdd`. -/
def dalClsTblEntryAdd (t : Tables) (pMaskEntry : MaskEntry) (pRuleEntry : RuleEntry) :
    Tables × Except ClsError HwTbl :=
  match takeMask t pMaskEntry with
  | (t₁, .error e) => (t₁, .error e)
  | (t₁, .ok maskID) =>
    let pRuleEntry := { pRuleEntry with bfMsel := maskID % 32 }
    let address := clsAddrCal pRuleEntry
    match clsRuleIDSel t₁ pRuleEntry address with
    | some _ => ((clsMaskFree t₁ maskID).1, .error .ruleItemSame)
    | none =>
      match clsRuleMalloc t₁ address with
      | (t₂, .error e) => ((clsMaskFree t₂ maskID).1, .error e)
      | (t₂, .ok (ruleID, addrOff)) =>
        let t₃ := dalClsRuleTblWr t₂ pRuleEntry ruleID
        let t₄ := dalClsMaskTblWr t₃ { pMaskEntry with bfValid := true } maskID
        (dalClsAddrTblWr t₄ address addrOff ruleID, .ok ⟨ruleID, maskID, address, addrOff⟩)

/-- `dalClsTblEntryDel`. -/
def dalClsTblEntryDel (t : Tables) (pMaskEntry : MaskEntry) (pRuleEntry : RuleEntry) :
    Tables × Except ClsError Nat :=
  match clsMaskSel t pMaskEntry with
  | none => (t, .error .maskfSelectNull)
  | some maskID =>
    let address := clsAddrCal pRuleEntry
    match clsRuleIDSel t { pRuleEntry with bfMsel := maskID } address with
    | none => (t, .error .ruleNullItem)
    | some (addrOff, ruleID) =>
      match clsMaskFree t maskID with
      | (t₁, .error e) => (t₁, .error e)
      | (t₁, .ok ()) => (clsRuleFree (dalClsAddrTblWr t₁ address addrOff 0) ruleID, .ok ruleID)

/-- `dalClsTblEntryRemove`, by slot numbers alone. -/
def dalClsTblEntryRemove (t : Tables) (clstblshadow : HwTbl) : Tables :=
  let t₁ := setMask t clstblshadow.clsHwMaskID .zero
  let t₂ := dalClsRuleTblWr t₁ .zero clstblshadow.clsHwRuleID
  clsRuleFree (dalClsAddrTblWr t₂ clstblshadow.clsHwAddr clstblshadow.clsHwOff 0)
    clstblshadow.clsHwRuleID

/-- `dalClsTblEntryChange`. -/
def dalClsTblEntryChange (t : Tables) (hwoldmaskID hwoldruleID hwnewmaskID : Nat) : Tables :=
  let t₁ := setMask (setMask t hwnewmaskID (t.cmask hwoldmaskID)) hwoldmaskID .zero
  dalClsRuleTblWr t₁ { t₁.crule hwoldruleID with bfMsel := hwnewmaskID % 32 } hwoldruleID

section Entries

-- what makes entries of a parameter block: `clsMaskRuleMake2ONU` and
-- `clsPPPoeMaskRuleMake`, told apart by the packet type
variable (make : Parameter → Option (MaskEntry × RuleEntry))

/-- The entries `dalClsEntrySet` and `dalClsEntryMove` work with. -/
def entriesOf (par : Parameter) : Except ClsError (MaskEntry × RuleEntry) :=
  if par.pktType = .other then .error .invalidPktType
  else
    match make par with
    | none => .error .maskRuleMake
    | some (mentry, rentry) =>
      .ok ({ mentry with
              maskPri := par.maskPri, bfEmask := par.egressMask, bfImask := par.ingressMask },
            { rentry with
              action := par.ruleEntry.action, bfMsel := par.ruleEntry.bfMsel
              bfEgress := par.ruleEntry.bfEgress && par.egressMask
              bfIngress := par.ruleEntry.bfIngress && par.ingressMask })

/-- `dalClsEntrySet`. -/
def dalClsEntrySet (t : Tables) (par : Parameter) : Tables × Except ClsError HwTbl :=
  match entriesOf make par with
  | .error e => (t, .error e)
  | .ok (mentry, rentry) => dalClsTblEntryAdd t mentry rentry

/-- `dalClsEntryMove`. -/
def dalClsEntryMove (t : Tables) (par : Parameter) : Tables × Except ClsError Nat :=
  match entriesOf make par with
  | .error e => (t, .error e)
  | .ok (mentry, rentry) => dalClsTblEntryDel t mentry rentry

end Entries

end Opconn.Classify
