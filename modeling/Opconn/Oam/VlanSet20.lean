import Opconn.Oam.SetIndications
import Mathlib.Logic.Function.Basic

/-!
# What a VLAN request leaves

`odm_port.c` keeps for each port its VLAN mode, default VLAN, priority and translation records in
the configuration and passes each change on to the chip.  The handler of a VLAN request makes its
calls one after the other and takes none of them back.
-/

namespace Opconn.Oam.Ctc.Setting

open Calls
open Rules (oamSetOk oamSetNoResource)

/-! ### Settings of the ports -/

/-- The settings of a port in the configuration, where they are set.  A record is its old and its
new VLAN. -/
structure PortVlan where
  vlanMode : Option UInt32
  defaultVid : Option UInt32
  defaultEtherPri : Option UInt32
  vtt : Nat → Option (UInt32 × UInt32)

/-- The calls that change the chip and the tables of the other modes. -/
inductive HalCall where
  | portPvidSet (portId : UInt16) (pvid : UInt32)
  | portVlanModeSet (portId : UInt16) (vlanMode : UInt32)
  | portVttEntryAdd (portId : UInt16) (sVlan cVlan : UInt32)
  | portVttEntryDel (portId : UInt16) (sVlan cVlan : UInt32)
  | dalVttTpidSet (tpid : UInt16) (portId : UInt16)
  | odmPortVlanTrunkEntryClear (portId : UInt16)
  | odmVlanAggUninit (portId : UInt16)
  | odmVlanAggInit (portId : UInt16)

/-- The settings, and what lies below them. -/
structure Odm (δ : Type) where
  ports : UInt16 → PortVlan
  driver : δ

/-- `ODM_VLAN_*`. -/
def odmVlanTransparent : UInt32 := 0
def odmVlanTranslation : UInt32 := 2
def odmVlanAggregation : UInt32 := 3
def odmVlanTrunk : UInt32 := 4
def odmVlanEnd : UInt32 := 5

/-- The answers of `errors.h`. -/
def errInvalidParameters : UInt32 := 502
def portInvalid : UInt32 := 29001
def vttEntryIsexisted : UInt32 := 32002
def vttEntryConflict : UInt32 := 32003
def vttVlanNotAtTranslationMode : UInt32 := 32004
def vttEntryFull : UInt32 := 32005

/-- The test of `odmPortRangeCheck`. -/
def portOutOfRange (portId : UInt16) : Bool := portId < 1 || 6 < portId

/-- The test of `odmVlanRangeCheck`. -/
def vlanOutOfRange (vlanId : UInt32) : Bool := 4094 < vlanId || vlanId < 1

section Odm

variable {δ : Type} (numOfVtt : Nat)
  (hal : (UInt16 → PortVlan) → δ → HalCall → δ × UInt32)

/-- A call below. -/
def Odm.call (o : Odm δ) (c : HalCall) : Odm δ × UInt32 :=
  let done := hal o.ports o.driver c
  ({ o with driver := done.1 }, done.2)

/-- The settings of one port change. -/
def Odm.setPort (o : Odm δ) (portId : UInt16) (p : PortVlan) : Odm δ :=
  { o with ports := Function.update o.ports portId p }

/-- The mode of a port, as most functions read it. -/
def Odm.modeOf (o : Odm δ) (portId : UInt16) : UInt32 :=
  (o.ports portId).vlanMode.getD odmVlanTransparent

/-! ### Translation records -/

/-- The scan of `odmPortVttEntryAdd`: the slot for the record, or what refuses it. -/
def vttScan (vtt : Nat → Option (UInt32 × UInt32)) (oldVlan newVlan : UInt32) :
    List Nat → Nat → Option Nat → Except UInt32 Nat
  | [], _, firstEmptyEntryId =>
    match firstEmptyEntryId with
    | none => .error vttEntryFull
    | some slot => .ok slot
  | slot :: slots, vttEntryNum, firstEmptyEntryId =>
    match vtt slot with
    | none => vttScan vtt oldVlan newVlan slots vttEntryNum (firstEmptyEntryId.getD slot)
    | some record =>
      if record.1 = oldVlan ∧ record.2 = newVlan then .error vttEntryIsexisted
      else if record.1 = oldVlan ∨ record.2 = newVlan then .error vttEntryConflict
      else if numOfVtt = vttEntryNum + 1 then .error vttEntryFull
      else vttScan vtt oldVlan newVlan slots (vttEntryNum + 1) firstEmptyEntryId

/-- The VLAN id of a tag. -/
def vlanOf (tag : UInt32) : UInt32 := tag &&& 0xFFF

def odmPortVttEntryAdd (portId : UInt16) (oldVlan newVlan : UInt32) (o : Odm δ) :
    Odm δ × UInt32 :=
  let newVttOldVlan := vlanOf oldVlan
  let newVttNewVlan := vlanOf newVlan
  if portOutOfRange portId then (o, portInvalid)
  else if vlanOutOfRange newVttOldVlan || vlanOutOfRange newVttNewVlan then
    (o, errInvalidParameters)
  else if o.modeOf portId = odmVlanTransparent then (o, vttVlanNotAtTranslationMode)
  else
    let port := o.ports portId
    match vttScan numOfVtt port.vtt newVttOldVlan newVttNewVlan (List.range numOfVtt) 0 none with
    | .error refusal => (o, refusal)
    | .ok slot =>
      let done := o.call hal (.portVttEntryAdd portId newVttNewVlan newVttOldVlan)
      if done.2 ≠ 0 then done
      else
        (done.1.setPort portId
          { port with vtt := Function.update port.vtt slot (some (newVttOldVlan, newVttNewVlan)) },
          0)

/-- The loop of `odmPortVttFlush`: a record that the chip keeps ends it. -/
def flushSlots (portId : UInt16) : List Nat → Odm δ → Odm δ × UInt32
  | [], o => (o, 0)
  | slot :: slots, o =>
    match (o.ports portId).vtt slot with
    | none => flushSlots portId slots o
    | some record =>
      let done := o.call hal (.portVttEntryDel portId record.2 record.1)
      if done.2 ≠ 0 then done
      else
        flushSlots portId slots (done.1.setPort portId
          { o.ports portId with vtt := Function.update (o.ports portId).vtt slot none })

def odmPortVttFlush (portId : UInt16) (o : Odm δ) : Odm δ × UInt32 :=
  if portOutOfRange portId then (o, portInvalid)
  else if o.modeOf portId ≠ odmVlanTranslation then (o, vttVlanNotAtTranslationMode)
  else flushSlots hal portId (List.range numOfVtt) o

/-! ### Default tag -/

/-- `odmPortDefaultVlanSet` and `odmPortDefaultVlanSetToAny` behind their checks. -/
def forceDefaultVlan (portId : UInt16) (defaultVlan : UInt32) (o : Odm δ) : Odm δ × UInt32 :=
  let done := o.call hal (.portPvidSet portId defaultVlan)
  if done.2 ≠ 0 then done
  else (done.1.setPort portId { o.ports portId with defaultVid := some defaultVlan }, 0)

def odmPortDefaultVlanSetToAny (portId : UInt16) (defaultVlan : UInt32) (o : Odm δ) :
    Odm δ × UInt32 :=
  if portOutOfRange portId then (o, portInvalid)
  else if defaultVlan ≠ 1 && vlanOutOfRange defaultVlan then (o, errInvalidParameters)
  else forceDefaultVlan hal portId defaultVlan o

def odmPortDefaultVlanSet (portId : UInt16) (defaultVlan : UInt32) (o : Odm δ) :
    Odm δ × UInt32 :=
  if portOutOfRange portId then (o, portInvalid)
  else if vlanOutOfRange defaultVlan then (o, errInvalidParameters)
  else forceDefaultVlan hal portId defaultVlan o

def odmPortDefaultEtherPriSet (portId : UInt16) (defaultEtherPri : UInt8) (o : Odm δ) :
    Odm δ × UInt32 :=
  if portOutOfRange portId then (o, portInvalid)
  else if 7 < defaultEtherPri then (o, errInvalidParameters)
  else
    (o.setPort portId
      { o.ports portId with defaultEtherPri := some defaultEtherPri.toUInt32 }, 0)

/-- The TPID of a tag, where it has one. -/
def tagTpidSet (portId tpid : UInt16) (o : Odm δ) : Odm δ × UInt32 :=
  if tpid ≠ 0 then o.call hal (.dalVttTpidSet tpid portId) else (o, 0)

/-- `eopl_set_tag_id_2_0`: TPID, default VLAN and priority of a tag.  Each result is kept in a
byte. -/
def eoplSetTagId20 (portId : UInt16) (value : UInt32) (o : Odm δ) : Odm δ × UInt32 :=
  let tci := value.toUInt16
  let tpidSet := tagTpidSet hal portId (value >>> 16).toUInt16 o
  if !byteOk tpidSet.2 then (tpidSet.1, 0xFFFFFFFF)
  else
    let vlanSet := odmPortDefaultVlanSet hal portId (tci &&& 0xFFF).toUInt32 tpidSet.1
    if !byteOk vlanSet.2 then (vlanSet.1, 0xFFFFFFFF)
    else
      let priSet := odmPortDefaultEtherPriSet portId (tci >>> 13).toUInt8 vlanSet.1
      if !byteOk priSet.2 then (priSet.1, 0xFFFFFFFF) else (priSet.1, 0)

/-! ### Mode -/

/-- What `odmPortVlanModeSet` takes away for the old mode.  No result is looked at. -/
def leaveMode (portId : UInt16) (oldVttMode : UInt32) (o : Odm δ) : Odm δ :=
  let o := if oldVttMode = odmVlanTrunk then (o.call hal (.odmPortVlanTrunkEntryClear portId)).1
    else o
  let o := if oldVttMode = odmVlanTranslation then (odmPortVttFlush numOfVtt hal portId o).1
    else o
  let o := if oldVttMode = odmVlanAggregation then (o.call hal (.odmVlanAggUninit portId)).1
    else o
  if oldVttMode = odmVlanTransparent then (odmPortVttFlush numOfVtt hal portId o).1 else o

/-- What it prepares for the new one. -/
def enterMode (portId : UInt16) (vlanMode : UInt32) (o : Odm δ) : Odm δ :=
  let o := if vlanMode = odmVlanAggregation then (o.call hal (.odmVlanAggInit portId)).1 else o
  if vlanMode = odmVlanTransparent then (odmPortDefaultVlanSetToAny hal portId 1 o).1 else o

/-- The result for the port itself is overwritten by the one for the port of the CPU. -/
def odmPortVlanModeSet (portId : UInt16) (vlanMode : UInt32) (o : Odm δ) : Odm δ × UInt32 :=
  if portOutOfRange portId then (o, portInvalid)
  else if odmVlanEnd ≤ vlanMode then (o, errInvalidParameters)
  else if vlanMode = odmVlanTransparent ∧ (o.ports portId).vlanMode = some odmVlanTransparent then
    (o, 0)
  else
    let ready := enterMode hal portId vlanMode (leaveMode numOfVtt hal portId (o.modeOf portId) o)
    let portSet := ready.call hal (.portVlanModeSet portId vlanMode)
    let done := portSet.1.call hal (.portVlanModeSet 0 odmVlanTransparent)
    if done.2 ≠ 0 then done
    else (done.1.setPort portId { done.1.ports portId with vlanMode := some vlanMode }, 0)

/-- The layer below the handler.  `others` are the calls that a VLAN request does not make. -/
def odmVlanLayer (others : Odm δ → Call → Odm δ × UInt32) (o : Odm δ) : Call → Odm δ × UInt32
  | .eoplSetTagId portId value => eoplSetTagId20 hal portId value o
  | .odmPortVlanModeSet portId vlanMode =>
    odmPortVlanModeSet numOfVtt hal portId vlanMode.toUInt32 o
  | .odmPortVttEntryAdd portId oldVlan newVlan =>
    odmPortVttEntryAdd numOfVtt hal portId oldVlan newVlan o
  | call => others o call

/-! ### The other ports -/

/-- Only the settings of one port may differ. -/
def Odm.OnlyPort (portId : UInt16) (o o' : Odm δ) : Prop :=
  ∀ q, q ≠ portId → o'.ports q = o.ports q

theorem Odm.OnlyPort.refl (portId : UInt16) (o : Odm δ) : o.OnlyPort portId o := fun _ _ => rfl

theorem Odm.OnlyPort.trans {portId : UInt16} {o o₁ o₂ : Odm δ} (h : o.OnlyPort portId o₁)
    (h' : o₁.OnlyPort portId o₂) : o.OnlyPort portId o₂ :=
  fun q hq => (h' q hq).trans (h q hq)

@[simp] theorem Odm.ports_call (o : Odm δ) (c : HalCall) : (o.call hal c).1.ports = o.ports := rfl

theorem Odm.onlyPort_call (portId : UInt16) (o : Odm δ) (c : HalCall) :
    o.OnlyPort portId (o.call hal c).1 := fun _ _ => rfl

theorem Odm.onlyPort_setPort (portId : UInt16) (o : Odm δ) (p : PortVlan) :
    o.OnlyPort portId (o.setPort portId p) :=
  fun _ hq => Function.update_of_ne hq _ _

theorem onlyPort_flushSlots (portId : UInt16) (slots : List Nat) (o : Odm δ) :
    o.OnlyPort portId (flushSlots hal portId slots o).1 := by
  induction slots generalizing o with
  | nil => exact .refl portId o
  | cons slot slots ih =>
    rw [flushSlots]
    split
    · exact ih o
    · simp only
      split
      · exact o.onlyPort_call hal portId _
      · exact ((o.onlyPort_call hal portId _).trans (Odm.onlyPort_setPort portId _ _)).trans (ih _)

theorem onlyPort_odmPortVttFlush (portId : UInt16) (o : Odm δ) :
    o.OnlyPort portId (odmPortVttFlush numOfVtt hal portId o).1 := by
  rw [odmPortVttFlush]
  split
  · exact .refl portId o
  · split
    · exact .refl portId o
    · exact onlyPort_flushSlots hal portId _ o

theorem onlyPort_forceDefaultVlan (portId : UInt16) (defaultVlan : UInt32) (o : Odm δ) :
    o.OnlyPort portId (forceDefaultVlan hal portId defaultVlan o).1 := by
  simp only [forceDefaultVlan]
  split
  · exact o.onlyPort_call hal portId _
  · exact (o.onlyPort_call hal portId _).trans (Odm.onlyPort_setPort portId _ _)

theorem onlyPort_odmPortDefaultVlanSet (portId : UInt16) (defaultVlan : UInt32) (o : Odm δ) :
    o.OnlyPort portId (odmPortDefaultVlanSet hal portId defaultVlan o).1 := by
  rw [odmPortDefaultVlanSet]
  split
  · exact .refl portId o
  · split
    · exact .refl portId o
    · exact onlyPort_forceDefaultVlan hal portId defaultVlan o

theorem onlyPort_odmPortDefaultVlanSetToAny (portId : UInt16) (defaultVlan : UInt32)
    (o : Odm δ) : o.OnlyPort portId (odmPortDefaultVlanSetToAny hal portId defaultVlan o).1 := by
  rw [odmPortDefaultVlanSetToAny]
  split
  · exact .refl portId o
  · split
    · exact .refl portId o
    · exact onlyPort_forceDefaultVlan hal portId defaultVlan o

theorem onlyPort_odmPortDefaultEtherPriSet (portId : UInt16) (defaultEtherPri : UInt8)
    (o : Odm δ) : o.OnlyPort portId (odmPortDefaultEtherPriSet portId defaultEtherPri o).1 := by
  rw [odmPortDefaultEtherPriSet]
  split
  · exact .refl portId o
  · split
    · exact .refl portId o
    · exact o.onlyPort_setPort portId _

theorem onlyPort_tagTpidSet (portId tpid : UInt16) (o : Odm δ) :
    o.OnlyPort portId (tagTpidSet hal portId tpid o).1 := by
  rw [tagTpidSet]
  split
  · exact o.onlyPort_call hal portId _
  · exact .refl portId o

theorem onlyPort_eoplSetTagId20 (portId : UInt16) (value : UInt32) (o : Odm δ) :
    o.OnlyPort portId (eoplSetTagId20 hal portId value o).1 := by
  have htpid := onlyPort_tagTpidSet hal portId (value >>> 16).toUInt16 o
  have hvlan := htpid.trans (onlyPort_odmPortDefaultVlanSet hal portId
    (value.toUInt16 &&& 0xFFF).toUInt32 _)
  have hpri := hvlan.trans (onlyPort_odmPortDefaultEtherPriSet portId
    (value.toUInt16 >>> 13).toUInt8 _)
  simp only [eoplSetTagId20]
  split
  · exact htpid
  · split
    · exact hvlan
    · split
      · exact hpri
      · exact hpri

/-- A step that is made under a condition. -/
theorem Odm.OnlyPort.ite {c : Prop} [Decidable c] {portId : UInt16} {o o₁ o₂ : Odm δ}
    (h : o.OnlyPort portId o₁) (hstep : o₁.OnlyPort portId o₂) :
    o.OnlyPort portId (if c then o₂ else o₁) := by
  split
  · exact h.trans hstep
  · exact h

theorem onlyPort_leaveMode (portId : UInt16) (oldVttMode : UInt32) (o : Odm δ) :
    o.OnlyPort portId (leaveMode numOfVtt hal portId oldVttMode o) := by
  rw [leaveMode]
  apply Odm.OnlyPort.ite
  · apply Odm.OnlyPort.ite
    · apply Odm.OnlyPort.ite
      · exact .ite (.refl portId o) (o.onlyPort_call hal portId _)
      · exact onlyPort_odmPortVttFlush numOfVtt hal portId _
    · exact Odm.onlyPort_call hal portId _ _
  · exact onlyPort_odmPortVttFlush numOfVtt hal portId _

theorem onlyPort_enterMode (portId : UInt16) (vlanMode : UInt32) (o : Odm δ) :
    o.OnlyPort portId (enterMode hal portId vlanMode o) := by
  rw [enterMode]
  apply Odm.OnlyPort.ite
  · exact .ite (.refl portId o) (o.onlyPort_call hal portId _)
  · exact onlyPort_odmPortDefaultVlanSetToAny hal portId 1 _

theorem onlyPort_odmPortVlanModeSet (portId : UInt16) (vlanMode : UInt32) (o : Odm δ) :
    o.OnlyPort portId (odmPortVlanModeSet numOfVtt hal portId vlanMode o).1 := by
  have hready := (onlyPort_leaveMode numOfVtt hal portId (o.modeOf portId) o).trans
    (onlyPort_enterMode hal portId vlanMode _)
  rw [odmPortVlanModeSet]
  split
  · exact .refl portId o
  · split
    · exact .refl portId o
    · split
      · exact .refl portId o
      · simp only
        split
        · exact hready
        · exact hready.trans (Odm.onlyPort_setPort portId _ _)

/-! ### Records that are added -/

theorem vttScan_error {vtt : Nat → Option (UInt32 × UInt32)} {oldVlan newVlan refusal : UInt32}
    {slots : List Nat} {vttEntryNum : Nat} {firstEmptyEntryId : Option Nat}
    (h : vttScan numOfVtt vtt oldVlan newVlan slots vttEntryNum firstEmptyEntryId =
      .error refusal) : refusal ≠ 0 := by
  induction slots generalizing vttEntryNum firstEmptyEntryId with
  | nil =>
    cases firstEmptyEntryId with
    | none =>
      cases h
      decide
    | some slot => cases h
  | cons i slots ih =>
    rw [vttScan] at h
    cases hi : vtt i with
    | none =>
      simp only [hi] at h
      exact ih h
    | some record =>
      simp only [hi] at h
      split at h
      · cases h
        decide
      · split at h
        · cases h
          decide
        · split at h
          · cases h
            decide
          · exact ih h

theorem vttScan_ok {vtt : Nat → Option (UInt32 × UInt32)} {oldVlan newVlan : UInt32} {slot : Nat}
    {slots : List Nat} {vttEntryNum : Nat} {firstEmptyEntryId : Option Nat}
    (h : vttScan numOfVtt vtt oldVlan newVlan slots vttEntryNum firstEmptyEntryId = .ok slot) :
    firstEmptyEntryId = some slot ∨ slot ∈ slots ∧ vtt slot = none := by
  induction slots generalizing vttEntryNum firstEmptyEntryId with
  | nil =>
    cases firstEmptyEntryId with
    | none => cases h
    | some first =>
      cases h
      exact .inl rfl
  | cons i slots ih =>
    rw [vttScan] at h
    cases hi : vtt i with
    | none =>
      simp only [hi] at h
      rcases ih h with hfirst | ⟨hmem, hempty⟩
      · cases firstEmptyEntryId with
        | none =>
          cases Option.some.inj hfirst
          exact .inr ⟨List.mem_cons_self, hi⟩
        | some first => exact .inl hfirst
      · exact .inr ⟨List.mem_cons_of_mem _ hmem, hempty⟩
    | some record =>
      simp only [hi] at h
      split at h
      · cases h
      · split at h
        · cases h
        · split at h
          · cases h
          · rcases ih h with hfirst | ⟨hmem, hempty⟩
            · exact .inl hfirst
            · exact .inr ⟨List.mem_cons_of_mem _ hmem, hempty⟩

/-- The slots of all ports after a record was put into one of them. -/
def withRecord (ports : UInt16 → PortVlan) (portId : UInt16) (slot : Nat)
    (record : UInt32 × UInt32) : UInt16 → PortVlan :=
  Function.update ports portId
    { ports portId with vtt := Function.update (ports portId).vtt slot (some record) }

/-- An add is refused, and nothing changes, or takes an empty slot. -/
theorem odmPortVttEntryAdd_cases (portId : UInt16) (oldVlan newVlan : UInt32) (o : Odm δ) :
    let done := odmPortVttEntryAdd numOfVtt hal portId oldVlan newVlan o
    (done.1.ports = o.ports ∧ done.2 ≠ 0) ∨
      ∃ slot < numOfVtt, (o.ports portId).vtt slot = none ∧ done.2 = 0 ∧
        done.1.ports = withRecord o.ports portId slot (vlanOf oldVlan, vlanOf newVlan) := by
  have hrefused : ∀ refusal : UInt32, refusal ≠ 0 →
      ((o, refusal) : Odm δ × UInt32).1.ports = o.ports ∧
        ((o, refusal) : Odm δ × UInt32).2 ≠ 0 := fun _ h => ⟨rfl, h⟩
  simp only [odmPortVttEntryAdd]
  split
  · exact .inl (hrefused _ (by decide))
  · split
    · exact .inl (hrefused _ (by decide))
    · split
      · exact .inl (hrefused _ (by decide))
      · split
        · rename_i hscan
          exact .inl (hrefused _ (vttScan_error numOfVtt hscan))
        · rename_i slot hscan
          rcases vttScan_ok numOfVtt hscan with hfirst | ⟨hmem, hempty⟩
          · cases hfirst
          · split
            · rename_i hhal
              exact .inl ⟨rfl, hhal⟩
            · exact .inr ⟨slot, List.mem_range.mp hmem, hempty, rfl, rfl⟩

theorem onlyPort_odmPortVttEntryAdd (portId : UInt16) (oldVlan newVlan : UInt32) (o : Odm δ) :
    o.OnlyPort portId (odmPortVttEntryAdd numOfVtt hal portId oldVlan newVlan o).1 := by
  intro q hq
  rcases odmPortVttEntryAdd_cases numOfVtt hal portId oldVlan newVlan o with
    ⟨hports, -⟩ | ⟨slot, -, -, -, hports⟩
  · rw [hports]
  · rw [hports, withRecord, Function.update_of_ne hq]

/-- The port of a call that a VLAN request makes. -/
def vlanPort : Call → Option UInt16
  | .eoplSetTagId portId _ => some portId
  | .odmPortVlanModeSet portId _ => some portId
  | .odmPortVttEntryAdd portId _ _ => some portId
  | _ => none

theorem onlyPort_odmVlanLayer (others : Odm δ → Call → Odm δ × UInt32) (o : Odm δ) {call : Call}
    {portId : UInt16} (hport : vlanPort call = some portId) :
    o.OnlyPort portId (odmVlanLayer numOfVtt hal others o call).1 := by
  cases call with
  | eoplSetTagId p value =>
    cases Option.some.inj hport
    exact onlyPort_eoplSetTagId20 hal portId value o
  | odmPortVlanModeSet p vlanMode =>
    cases Option.some.inj hport
    exact onlyPort_odmPortVlanModeSet numOfVtt hal portId vlanMode.toUInt32 o
  | odmPortVttEntryAdd p oldVlan newVlan =>
    cases Option.some.inj hport
    exact onlyPort_odmPortVttEntryAdd numOfVtt hal portId oldVlan newVlan o
  | _ => cases hport

/-- The record is in a slot of the port. -/
def Odm.Installed (o : Odm δ) (portId : UInt16) (record : UInt32 × UInt32) : Prop :=
  ∃ slot < numOfVtt, (o.ports portId).vtt slot = some (vlanOf record.1, vlanOf record.2)

/-- An add keeps the records that are there. -/
theorem Odm.Installed.add {o : Odm δ} {q : UInt16} {record : UInt32 × UInt32}
    (h : o.Installed numOfVtt q record) (portId : UInt16) (oldVlan newVlan : UInt32) :
    (odmPortVttEntryAdd numOfVtt hal portId oldVlan newVlan o).1.Installed numOfVtt q record := by
  rcases h with ⟨slot, hslot, hrecord⟩
  rcases odmPortVttEntryAdd_cases numOfVtt hal portId oldVlan newVlan o with
    ⟨hports, -⟩ | ⟨taken, -, hempty, -, hports⟩
  · exact ⟨slot, hslot, by rw [hports, hrecord]⟩
  · refine ⟨slot, hslot, ?_⟩
    rw [hports, withRecord]
    by_cases hq : q = portId
    · subst hq
      have hne : slot ≠ taken := by
        rintro rfl
        rw [hempty] at hrecord
        cases hrecord
      rw [Function.update_self]
      exact (Function.update_of_ne hne _ _).trans hrecord
    · rw [Function.update_of_ne hq, hrecord]

theorem Odm.installed_of_add {o : Odm δ} {portId : UInt16} {oldVlan newVlan : UInt32}
    (htaken : (odmPortVttEntryAdd numOfVtt hal portId oldVlan newVlan o).2 = 0) :
    (odmPortVttEntryAdd numOfVtt hal portId oldVlan newVlan o).1.Installed numOfVtt portId
      (oldVlan, newVlan) := by
  rcases odmPortVttEntryAdd_cases numOfVtt hal portId oldVlan newVlan o with
    ⟨-, hrefused⟩ | ⟨slot, hslot, -, -, hports⟩
  · exact absurd htaken hrefused
  · refine ⟨slot, hslot, ?_⟩
    rw [hports, withRecord, Function.update_self]
    exact Function.update_self _ _ _

/-- Adds of records at ports. -/
def addCalls (adds : List (UInt16 × UInt32 × UInt32)) : List Call :=
  adds.map fun add => .odmPortVttEntryAdd add.1 add.2.1 add.2.2

theorem installed_addCalls (others : Odm δ → Call → Odm δ × UInt32)
    (adds : List (UInt16 × UInt32 × UInt32)) (o : Odm δ)
    (htaken : Accepts (wordOk · = true) (odmVlanLayer numOfVtt hal others) o (addCalls adds)) :
    ∀ add ∈ adds, (afterCalls (odmVlanLayer numOfVtt hal others) o (addCalls adds)).Installed
      numOfVtt add.1 add.2 := by
  induction adds generalizing o with
  | nil => simp
  | cons first adds ih =>
    rintro add hadd
    rcases List.mem_cons.mp hadd with rfl | hadd
    · -- what the first add put there stays under the later ones
      have hfirst := Odm.installed_of_add numOfVtt hal (o := o) (beq_iff_eq.mp htaken.1)
      change (afterCalls (odmVlanLayer numOfVtt hal others)
        (odmPortVttEntryAdd numOfVtt hal add.1 add.2.1 add.2.2 o).1 (addCalls adds)).Installed
          numOfVtt add.1 add.2
      apply afterCalls_induction (P := fun o' : Odm δ => o'.Installed numOfVtt add.1 add.2) ?_
        hfirst
      intro o' ho' call hcall
      rcases List.mem_map.mp hcall with ⟨later, -, rfl⟩
      exact Odm.Installed.add numOfVtt hal ho' later.1 later.2.1 later.2.2
    · exact ih _ htaken.2 add hadd

theorem recordCalls_eq (r : VlanRequest) (ports : List UInt16) :
    recordCalls r ports =
      addCalls (r.records.flatMap fun record => ports.map fun portId => (portId, record)) := by
  rw [recordCalls, addCalls, List.map_flatMap]
  refine List.flatMap_congr fun record _ => ?_
  rw [List.map_map]
  rfl

/-! ### The list of a request -/

/-- The VLAN ids of translation records. -/
def vlanIds (records : List (UInt32 × UInt32)) : List UInt32 :=
  records.flatMap fun record => [vlanOf record.1, vlanOf record.2]

theorem checkRecords_cons (vlanId : UInt32) (vlanlist : List UInt32) (oldTag newTag : UInt32)
    (records : List (UInt32 × UInt32)) :
    checkRecords vlanId vlanlist ((oldTag, newTag) :: records) =
      if vlanOf oldTag = vlanOf newTag then false
      else if vlanOf oldTag ∈ vlanlist ∨ vlanOf newTag ∈ vlanlist then false
      else if 16 < vlanlist.length + 2 then false
      else if vlanOf oldTag = vlanId then false
      else checkRecords vlanId (vlanlist ++ [vlanOf oldTag, vlanOf newTag]) records := rfl

/-- A list that passes the check has no VLAN twice and translates the default VLAN into none. -/
theorem checkRecords_spec {vlanId : UInt32} {vlanlist : List UInt32}
    {records : List (UInt32 × UInt32)} (hcheck : checkRecords vlanId vlanlist records = true)
    (hnodup : vlanlist.Nodup) :
    (vlanlist ++ vlanIds records).Nodup ∧ ∀ record ∈ records, vlanOf record.1 ≠ vlanId := by
  induction records generalizing vlanlist with
  | nil => exact ⟨by simpa [vlanIds] using hnodup, by simp⟩
  | cons record records ih =>
    rcases record with ⟨oldTag, newTag⟩
    rw [checkRecords_cons] at hcheck
    by_cases hsame : vlanOf oldTag = vlanOf newTag
    · rw [if_pos hsame] at hcheck
      cases hcheck
    · rw [if_neg hsame] at hcheck
      by_cases hlisted : vlanOf oldTag ∈ vlanlist ∨ vlanOf newTag ∈ vlanlist
      · rw [if_pos hlisted] at hcheck
        cases hcheck
      · rw [if_neg hlisted] at hcheck
        split at hcheck
        · cases hcheck
        · by_cases hdefault : vlanOf oldTag = vlanId
          · rw [if_pos hdefault] at hcheck
            cases hcheck
          · rw [if_neg hdefault] at hcheck
            rcases not_or.mp hlisted with ⟨hold, hnew⟩
            have hpair : (vlanlist ++ [vlanOf oldTag, vlanOf newTag]).Nodup := by
              rw [List.nodup_append]
              refine ⟨hnodup, by simpa using hsame, ?_⟩
              rintro a ha b hb rfl
              rcases List.mem_cons.mp hb with rfl | hb
              · exact hold ha
              · exact hnew (List.mem_singleton.mp hb ▸ ha)
            rcases ih hcheck hpair with ⟨hrest, hdefaults⟩
            refine ⟨?_, ?_⟩
            · rwa [List.append_assoc] at hrest
            · rintro record hrecord
              rcases List.mem_cons.mp hrecord with rfl | hrecord
              · exact hdefault
              · exact hdefaults record hrecord

theorem vlanPort_of_mem {r : VlanRequest} {ports : List UInt16} {call : Call}
    (hcall : call ∈ vlanModeCalls r ports) : ∃ portId ∈ ports, vlanPort call = some portId := by
  have htags : ∀ call ∈ tagCalls r ports, ∃ portId ∈ ports, vlanPort call = some portId := by
    intro call hcall
    rcases List.mem_flatMap.mp hcall with ⟨portId, hport, hcall⟩
    rcases List.mem_cons.mp hcall with rfl | hcall
    · exact ⟨portId, hport, rfl⟩
    · cases List.mem_singleton.mp hcall
      exact ⟨portId, hport, rfl⟩
  rw [vlanModeCalls] at hcall
  split at hcall
  · exact htags call hcall
  · split at hcall
    · rcases List.mem_append.mp hcall with hcall | hcall
      · exact htags call hcall
      · rcases List.mem_flatMap.mp hcall with ⟨record, -, hcall⟩
        rcases List.mem_map.mp hcall with ⟨portId, hport, rfl⟩
        exact ⟨portId, hport, rfl⟩
    · rcases List.mem_map.mp hcall with ⟨portId, hport, rfl⟩
      exact ⟨portId, hport, rfl⟩

/-! ### Requests -/

/-- What a VLAN request leaves, and what its response says of it. -/
structure VlanRequestDone (others : Odm δ → Call → Odm δ × UInt32) (env : SetEnv)
    (r : VlanRequest) (inst : UInt8) (s : Odm δ) (o : Outcome (Odm δ)) : Prop where
  /-- The checks refuse a request before anything is called. -/
  refused : inst = 200 ∨ vlanChecks env r (ports20 inst) = false →
    o.state = s ∧ o.trace = [] ∧ o.indication ≠ some oamSetOk
  /-- The calls are made in their order, and none besides them. -/
  inOrder : o.trace.map Prod.fst <+: vlanModeCalls r (ports20 inst)
  /-- What they have left stays. -/
  nothingUndone : o.state = afterCalls (odmVlanLayer numOfVtt hal others) s (o.trace.map Prod.fst)
  /-- Behind a failure there is no call. -/
  stops : r.mode ≠ 0 → ∀ e ∈ o.trace.dropLast, e.2 = 0
  /-- The response is OK when all calls were made and taken. -/
  told : r.mode ≠ 0 → (o.indication = some oamSetOk ↔
    o.trace.map Prod.fst = vlanModeCalls r (ports20 inst) ∧ ∀ e ∈ o.trace, e.2 = 0)
  /-- A port that no call has reached keeps its settings. -/
  unreached : ∀ portId, (∀ e ∈ o.trace, vlanPort e.1 ≠ some portId) →
    o.state.ports portId = s.ports portId
  /-- The records of a list that is accepted are at all ports. -/
  accepted : r.mode = 2 → o.indication = some oamSetOk →
    (vlanIds r.records).Nodup ∧
      (∀ record ∈ r.records, vlanOf record.1 ≠ vlanOf r.defaultTag) ∧
      ∀ record ∈ r.records, ∀ portId ∈ ports20 inst, o.state.Installed numOfVtt portId record

/-- The calls of a list that is made up to a failure. -/
theorem unreached_calls (others : Odm δ → Call → Odm δ × UInt32) {r : VlanRequest}
    {ports : List UInt16} {calls : List Call} (s : Odm δ) (hcalls : calls <+: vlanModeCalls r ports)
    {portId : UInt16} (hport : ∀ call ∈ calls, vlanPort call ≠ some portId) :
    (afterCalls (odmVlanLayer numOfVtt hal others) s calls).ports portId = s.ports portId := by
  apply afterCalls_induction (P := fun o : Odm δ => o.ports portId = s.ports portId)
  · intro o ho call hcall
    rcases vlanPort_of_mem (hcalls.subset hcall) with ⟨q, -, hq⟩
    have hne : portId ≠ q := by
      rintro rfl
      exact hport call hcall hq
    exact (onlyPort_odmVlanLayer numOfVtt hal others o hq portId hne).trans ho
  · rfl

/-- A request that is answered without a call. -/
theorem vlanRequestDone_answered (others : Odm δ → Call → Odm δ × UInt32) (env : SetEnv)
    (r : VlanRequest) (inst : UInt8) (s : Odm δ) {indication : Option UInt8}
    (hindication : indication ≠ some oamSetOk) :
    VlanRequestDone numOfVtt hal others env r inst s (answered s indication) where
  refused := fun _ => ⟨rfl, rfl, hindication⟩
  inOrder := List.nil_prefix
  nothingUndone := rfl
  stops := by simp [answered]
  told := fun _ => by
    refine iff_of_false hindication ?_
    rintro ⟨hcalls, -⟩
    exact vlanModeCalls_ne_nil r inst hcalls.symm
  unreached := fun _ _ => rfl
  accepted := fun _ hok => absurd hok hindication

/-- A request in the transparent mode: each port is set whatever the others answer. -/
theorem vlanRequestDone_transparent (others : Odm δ → Call → Odm δ × UInt32) (env : SetEnv)
    {r : VlanRequest} {inst : UInt8} (s : Odm δ) (hinst : inst ≠ 200)
    (hchecks : vlanChecks env r (ports20 inst) = true) (hmode : r.mode = 0) :
    VlanRequestDone numOfVtt hal others env r inst s
      (lastCounts (odmVlanLayer numOfVtt hal others) wordOk 0 s
        (vlanModeCalls r (ports20 inst))) where
  refused := by
    rintro (hinst' | hchecks')
    · exact absurd hinst' hinst
    · rw [hchecks] at hchecks'
      cases hchecks'
  inOrder := by
    rw [lastCounts, calls_each]
  nothingUndone := by
    rw [lastCounts, calls_each, state_each]
  stops := fun hne => absurd hmode hne
  told := fun hne => absurd hmode hne
  unreached := fun portId hport => by
    rw [lastCounts, state_each]
    refine unreached_calls numOfVtt hal others s List.prefix_rfl fun call hcall => ?_
    have hmade := calls_each (odmVlanLayer numOfVtt hal others) s
      (vlanModeCalls r (ports20 inst))
    rw [← hmade] at hcall
    rcases List.mem_map.mp hcall with ⟨e, he, rfl⟩
    exact hport e he
  accepted := fun htranslation => by
    rw [hmode] at htranslation
    cases htranslation

/-- A request whose calls are made up to the first failure. -/
theorem vlanRequestDone_stopping (others : Odm δ → Call → Odm δ × UInt32) (env : SetEnv)
    {r : VlanRequest} {inst : UInt8} (s : Odm δ) (hinst : inst ≠ 200)
    (hchecks : vlanChecks env r (ports20 inst) = true) :
    VlanRequestDone numOfVtt hal others env r inst s
      (firstCounts (odmVlanLayer numOfVtt hal others) wordOk s
        (vlanModeCalls r (ports20 inst))) := by
  have hok : ((firstCounts (odmVlanLayer numOfVtt hal others) wordOk s
      (vlanModeCalls r (ports20 inst))).indication = some oamSetOk) ↔
      Accepts (wordOk · = true) (odmVlanLayer numOfVtt hal others) s
        (vlanModeCalls r (ports20 inst)) := by
    rw [← lastAnswer_untilRefused_iff _ 0 rfl, firstCounts, Option.some_inj,
      indicationOf_eq_ok_iff]
  have hword : ∀ rlt : UInt32, wordOk rlt = true ↔ rlt = 0 := fun rlt => beq_iff_eq
  refine ⟨?_, calls_untilRefused .., state_untilRefused .., ?_, ?_, ?_, ?_⟩
  · rintro (hinst' | hchecks')
    · exact absurd hinst' hinst
    · rw [hchecks] at hchecks'
      cases hchecks'
  · intro _ e he
    exact (hword e.2).mp (taken_untilRefused wordOk s _ e he)
  · intro _
    rw [hok]
    refine ⟨fun haccepts => ?_, ?_⟩
    · rw [firstCounts, untilRefused_of_accepts haccepts]
      refine ⟨calls_each _ s _, ?_⟩
      have hall := (forall_each_iff s _).mpr haccepts
      exact fun e he => (hword e.2).mp (hall e he)
    · rintro ⟨-, hall⟩
      exact accepts_of_untilRefused fun e he => (hword e.2).mpr (hall e he)
  · intro portId hport
    rw [firstCounts, state_untilRefused]
    refine unreached_calls numOfVtt hal others s (calls_untilRefused ..) fun call hcall => ?_
    rcases List.mem_map.mp hcall with ⟨e, he, rfl⟩
    exact hport e he
  · intro hmode hindication
    have haccepts := hok.mp hindication
    rw [vlanChecks, if_neg (by rw [hmode]; decide), if_neg (by rw [hmode]; decide), if_pos hmode,
      Bool.and_eq_true] at hchecks
    rcases checkRecords_spec hchecks.1 List.nodup_nil with ⟨hnodup, hdefault⟩
    refine ⟨hnodup, hdefault, fun record hrecord portId hport => ?_⟩
    have hcalls : vlanModeCalls r (ports20 inst) =
        tagCalls r (ports20 inst) ++ recordCalls r (ports20 inst) := by
      rw [vlanModeCalls, if_neg (by rw [hmode]; decide), if_pos hmode]
    rw [firstCounts, untilRefused_of_accepts haccepts, state_each, hcalls, afterCalls,
      Runs.run_append, recordCalls_eq]
    rw [hcalls, accepts_append, recordCalls_eq] at haccepts
    exact installed_addCalls numOfVtt hal others _ _ haccepts.2 (portId, record)
      (List.mem_flatMap.mpr ⟨record, hrecord, List.mem_map.mpr ⟨portId, hport, rfl⟩⟩)

/-- Every VLAN request is carried out in order, up to a failure, and nothing of it is undone. -/
theorem vlan_request_done (others : Odm δ → Call → Odm δ × UInt32) (env : SetEnv)
    (r : VlanRequest) (inst : UInt8) (s : Odm δ) :
    VlanRequestDone numOfVtt hal others env r inst s
      (eoplSetOnuVlan20 (odmVlanLayer numOfVtt hal others) env r inst s) := by
  simp only [eoplSetOnuVlan20]
  by_cases hinst : inst = 200
  · rw [if_pos hinst]
    exact vlanRequestDone_answered numOfVtt hal others env r inst s (by decide)
  · rw [if_neg hinst]
    cases hchecks : vlanChecks env r (ports20 inst) with
    | false => exact vlanRequestDone_answered numOfVtt hal others env r inst s (by decide)
    | true =>
      rw [Bool.not_true, if_neg Bool.false_ne_true]
      split
      · rename_i hmode
        exact vlanRequestDone_transparent numOfVtt hal others env s hinst hchecks hmode
      · exact vlanRequestDone_stopping numOfVtt hal others env s hinst hchecks

end Odm

/-! ### Settings that stay behind a failure -/

/-- Ports as they are delivered. -/
def freshPorts : Odm Unit := ⟨fun _ => ⟨none, none, none, fun _ => none⟩, ()⟩

/-- A chip that takes every call. -/
def willing : (UInt16 → PortVlan) → Unit → HalCall → Unit × UInt32 := fun _ d _ => (d, 0)

/-- A translation request for port 1 with one record. -/
def oneRecord (oldTag newTag : UInt32) : VlanRequest := ⟨13, 2, 100, fun _ => (oldTag, newTag)⟩

/-- VLAN 4095 is refused behind mode and default VLAN, which stay, and a list that translates
into the default VLAN is accepted. -/
theorem refused_list_leaves_mode :
    let layer := odmVlanLayer 16 willing fun o _ => (o, 0)
    let refused := eoplSetOnuVlan20 layer quietEnv (oneRecord 4095 200) 1 freshPorts
    let accepted := eoplSetOnuVlan20 layer quietEnv (oneRecord 200 100) 1 freshPorts
    refused.indication = some oamSetNoResource ∧
      (refused.state.ports 1).vlanMode = some 2 ∧ (refused.state.ports 1).defaultVid = some 100 ∧
      (freshPorts.ports 1).vlanMode = none ∧ (freshPorts.ports 1).defaultVid = none ∧
      accepted.indication = some oamSetOk ∧
      ∃ record ∈ (oneRecord 200 100).records,
        vlanOf record.2 = vlanOf (oneRecord 200 100).defaultTag := by
  decide

end Opconn.Oam.Ctc.Setting
