import Opconn.Lib.Runs
import Mathlib.Data.List.Range
import Mathlib.Logic.Function.Basic

/-!
# VLAN modes and VLAN translation

`dal_vtt.c` keeps for a port its VLAN mode, its default VLAN, TPID and priority, and the
records of its VLAN translation entries, and programs the bridge: the VLANs, tag filters and
priority of the two ports of the chip, sixteen translation entries, and for the aggregation
mode two classifier rules.
-/

namespace Opconn.Bridge

/-- `OPCONN_VLAN_MODE_e`. -/
inductive VlanMode where
  | transparent
  | tag
  | translation
  | aggregation
  | trunk
deriving DecidableEq, Repr

/-- `VLAN_END` and everything behind it is no mode. -/
def VlanMode.ofNat? : Nat → Option VlanMode
  | 0 => some .transparent
  | 1 => some .tag
  | 2 => some .translation
  | 3 => some .aggregation
  | 4 => some .trunk
  | _ => none

/-- `BRG_T_VTT_ENTRY_t`. -/
structure VttEntry where
  active : Bool
  pStrip : Bool
  gStrip : Bool
  cVid : Nat
  sVid : Nat
deriving DecidableEq

def VttEntry.zero : VttEntry := ⟨false, false, false, 0, 0⟩

/-- `VTT_RECORD_t`. -/
structure VttRecord where
  sVlanInfo : Nat
  cVlanInfo : Nat
  valid : Bool
deriving DecidableEq

def VttRecord.zero : VttRecord := ⟨0, 0, false⟩

/-- `DAL_PORT_VTT_ENTRY_NUM`. -/
abbrev dalPortVttEntryNum : Nat := 11

/-- `DAL_PORT_PVID_VTT_ENTRY_START_NUM`. -/
abbrev dalPortPvidVttEntryStartNum : Nat := 11

/-- `VLAN_CONFI_INFO_t`. -/
structure VlanConfiInfo where
  vlanMode : VlanMode
  defaultVlanTag : Nat
  defaultTpid : Nat
  defaultPri : Nat
  numOfVttRecords : Nat
  vttRecord : Nat → VttRecord

/-- The `OPL_MEMSET` of `dal_vtt_info`. -/
def VlanConfiInfo.zero : VlanConfiInfo := ⟨.transparent, 0, 0, 0, 0, fun _ => .zero⟩

/-- A `CLASSIFY_PARAMETER_t` of `dalVttVlanAggIni`; what it does not set is zero. -/
structure ClsParameter where
  pktType : Nat
  bfTranActL : Nat
  bfTranActH : Nat
  firstTpid : Nat × Nat
  firstVlan : Nat × Nat
  destMac0 : Nat × Nat
  bitMap : Nat
deriving DecidableEq

/-- The settings of the bridge.  `clsRules` are the parameters that `dalClsEntrySet` has
installed and `dalClsEntryMove` has not removed. -/
structure Chip where
  vtt : Nat → VttEntry
  lookupFailAction : Bool
  ponUntag : Bool
  ponTag : Bool
  geUntag : Bool
  geTag : Bool
  ponPvid : Nat
  gePvid : Nat
  geCos : Nat
  tpid : Nat
  softLearnEn : Bool
  clsRules : List ClsParameter

structure Vtt where
  info : VlanConfiInfo
  chip : Chip

/-! ### Aggregation rules -/

/-- The first rule of `dalVttVlanAggIni`. -/
def aggTagRule : ClsParameter := ⟨0x2, 0x2, 0, (0x8100, 0xffff), (0, 0), (0, 0), 0x28000000⟩

/-- The second one, for the default VLAN. -/
def aggVlanRule (pvid : Nat) : ClsParameter :=
  ⟨0x2, 0x4, 0x1, (0x8100, 0xffff), (pvid, 0xfff), (0x00, 0x01), 0xa8000000⟩

/-- `dalVttVlanAggIni`: both rules are set or both are removed, for the default VLAN as it is. -/
def dalVttVlanAggIni (s : Vtt) (flg : Bool) : Vtt :=
  let rules := s.chip.clsRules
  let pvid := s.info.defaultVlanTag
  { s with chip := { s.chip with clsRules :=
      if flg then (rules.insert aggTagRule).insert (aggVlanRule pvid)
      else (rules.erase aggTagRule).erase (aggVlanRule pvid) } }

/-! ### Mode -/

/-- The loop that clears the translation entries; a write that fails ends it. -/
def clearEntries (hwOk : Nat → Bool) : List Nat → (Nat → VttEntry) → (Nat → VttEntry) × Bool
  | [], vtt => (vtt, true)
  | i :: is, vtt =>
    if hwOk i then clearEntries hwOk is (Function.update vtt i .zero) else (vtt, false)

/-- `brgVttEntryHwWrite`. -/
def writeEntry (hwOk : Nat → Bool) (i : Nat) (e : VttEntry) (vtt : Nat → VttEntry) :
    Nat → VttEntry :=
  if hwOk i then Function.update vtt i e else vtt

/-- The `switch` of `dalVttModeSet`. -/
def programMode (hwOk : Nat → Bool) (mode : VlanMode) (pvid : Nat) (chip : Chip) : Chip :=
  let write := writeEntry hwOk dalPortPvidVttEntryStartNum
  match mode with
  | .transparent =>
    { chip with
      lookupFailAction := true
      ponUntag := true, ponTag := true, geUntag := true, geTag := true
      ponPvid := 0xFFF
      gePvid := 0xFFF
      vtt := write ⟨true, true, true, 0xFFF, 0xFFF⟩ chip.vtt }
  | .tag =>
    { chip with
      lookupFailAction := false
      ponUntag := false, ponTag := true, geUntag := true, geTag := false
      gePvid := pvid
      vtt := write ⟨true, false, true, pvid, pvid⟩ chip.vtt }
  | .translation | .trunk =>
    { chip with
      lookupFailAction := false
      ponUntag := false, ponTag := true, geUntag := true, geTag := true
      gePvid := 0xFFF
      vtt := write ⟨true, false, true, 0xFFF, pvid⟩ chip.vtt }
  | .aggregation =>
    { chip with
      softLearnEn := true
      lookupFailAction := true
      ponUntag := false, ponTag := true, geUntag := true, geTag := true
      gePvid := 0xFFF
      vtt := writeEntry hwOk (dalPortPvidVttEntryStartNum - 1) ⟨true, false, true, pvid, 0xFFF⟩
        (write ⟨true, false, true, 0xFFF, pvid⟩ chip.vtt) }

/-- `dalVttModeSet`.  The records are forgotten before the entries are cleared; TPID and
priority are forgotten with them. -/
def dalVttModeSet (hwOk : Nat → Bool) (s : Vtt) (mode : Nat) : Vtt :=
  match VlanMode.ofNat? mode with
  | none => s
  | some m =>
    let pvid := s.info.defaultVlanTag
    let info := { VlanConfiInfo.zero with defaultVlanTag := pvid }
    let cleared := clearEntries hwOk (List.range dalPortVttEntryNum) s.chip.vtt
    let s : Vtt := ⟨info, { s.chip with vtt := cleared.1 }⟩
    if cleared.2 then
      let s := { s with info := { info with vlanMode := m } }
      let s := dalVttVlanAggIni { s with chip := { s.chip with softLearnEn := false } } false
      let s := { s with chip := programMode hwOk m pvid s.chip }
      if m = .aggregation then dalVttVlanAggIni s true else s
    else s

/-! ### Default VLAN, TPID and priority -/

/-- `dalVttVidSet`. -/
def dalVttVidSet (s : Vtt) (pvid : Nat) : Vtt :=
  if 4095 < pvid ∨ pvid = 0 then s
  else
    let chip := match s.info.vlanMode with
      | .transparent => { s.chip with ponPvid := pvid, gePvid := pvid }
      | .tag | .translation | .aggregation | .trunk => { s.chip with gePvid := pvid }
    ⟨{ s.info with defaultVlanTag := pvid }, chip⟩

/-- `dalVttTpidSet`. -/
def dalVttTpidSet (s : Vtt) (tpid : Nat) : Vtt :=
  ⟨{ s.info with defaultTpid := tpid }, { s.chip with tpid := tpid }⟩

/-- `dalVttDefaultPriSet`; the chip has three bits. -/
def dalVttDefaultPriSet (s : Vtt) (etherPri : Nat) : Vtt :=
  ⟨{ s.info with defaultPri := etherPri }, { s.chip with geCos := etherPri % 8 }⟩

/-! ### What is reported -/

/-- `dalVttModeGet`. -/
def dalVttModeGet (s : Vtt) : VlanMode := s.info.vlanMode

/-- `dalVttVidGet`.  What was configured, which the port of the chip can differ from. -/
def dalVttVidGet (s : Vtt) : Nat := s.info.defaultVlanTag

/-- `dalVttTpidGet`. -/
def dalVttTpidGet (s : Vtt) : Nat := s.info.defaultTpid

/-- `dalVttDefaultPriGet`. -/
def dalVttDefaultPriGet (s : Vtt) : Nat := s.info.defaultPri

/-! ### Translation entries -/

inductive VttStatus where
  | ok
  | error
  | full
  | invalidParameters
  | notFound
deriving DecidableEq, Repr

/-- Where the loop of `dalVttTagEntryAdd` ends: at a record of the pair, at the first record
that is not valid, or at the end. -/
inductive AddSearch where
  | found
  | empty (recordIndex : Nat)
  | full
deriving DecidableEq, Repr

def VttRecord.IsPair (r : VttRecord) (cVlan sVlan : Nat) : Prop :=
  r.valid = true ∧ r.sVlanInfo = sVlan ∧ r.cVlanInfo = cVlan

instance (r : VttRecord) (cVlan sVlan : Nat) : Decidable (r.IsPair cVlan sVlan) :=
  inferInstanceAs (Decidable (_ ∧ _ ∧ _))

def addSearch (records : Nat → VttRecord) (cVlan sVlan : Nat) : List Nat → AddSearch
  | [] => .full
  | i :: is =>
    if (records i).valid then
      if (records i).IsPair cVlan sVlan then .found else addSearch records cVlan sVlan is
    else .empty i

/-- `dalVttTagEntryAdd`.  Its test of the VLANs reads `cVlan && (0xFFF > MAX_NUM_OF_VLAN)` and
`sVlan & (0XFFF > MAX_NUM_OF_VLAN)`, and lets every value through. -/
def dalVttTagEntryAdd (hwOk : Bool) (s : Vtt) (pStrip gStrip : Bool) (cVlan sVlan : Nat) :
    Vtt × VttStatus :=
  match addSearch s.info.vttRecord cVlan sVlan (List.range dalPortVttEntryNum) with
  | .found => (s, .ok)
  | .full => (s, .full)
  | .empty i =>
    if hwOk then
      let entry : VttEntry := ⟨true, pStrip, gStrip, cVlan % 4096, sVlan % 4096⟩
      (⟨{ s.info with
          numOfVttRecords := (s.info.numOfVttRecords + 1) % 256
          vttRecord := Function.update s.info.vttRecord i ⟨sVlan, cVlan, true⟩ },
        { s.chip with vtt := Function.update s.chip.vtt i entry }⟩, .ok)
    else (s, .error)

/-- The loop of `dalVttTagEntryDel`. -/
def delSearch (records : Nat → VttRecord) (cVlan sVlan : Nat) : Option Nat :=
  (List.range dalPortVttEntryNum).find? fun i => (records i).IsPair cVlan sVlan

/-- `dalVttTagEntryDel`. -/
def dalVttTagEntryDel (hwOk : Bool) (s : Vtt) (cVlan sVlan : Nat) : Vtt × VttStatus :=
  if 4095 < cVlan ∨ 4095 < sVlan then (s, .invalidParameters)
  else
    match delSearch s.info.vttRecord cVlan sVlan with
    | none => (s, .notFound)
    | some i =>
      if hwOk then
        (⟨{ s.info with
            numOfVttRecords := (s.info.numOfVttRecords + 255) % 256
            vttRecord := Function.update s.info.vttRecord i .zero },
          { s.chip with vtt := Function.update s.chip.vtt i .zero }⟩, .ok)
      else (s, .error)

end Opconn.Bridge
