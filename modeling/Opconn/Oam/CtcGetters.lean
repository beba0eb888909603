import Opconn.Oam.CtcTlvs

/-!
# The getters of a 2.0 GET

What `CtcWalk` leaves to the handlers, for `eopl_ctc_get_req_2_0`: the getters of `ctc.c`
with the containers they write into `out_data`.  A getter for a port attribute writes, for
each port it is asked for, the instance it works on and a container behind it; on the way
it overwrites the instance of the request.

A container is recorded as it is written: the width byte, the value bytes behind it, the
count fields with the entries that were written for each, and how far the index moves.
What the stores answer is a parameter of the model.
-/

namespace Opconn.Oam.Ctc.Get

/-! ### Bytes -/

/-- The target is big-endian. -/
def bytes16 (n : UInt16) : Buffer := [(n >>> 8).toUInt8, n.toUInt8]

def bytes24 (n : UInt32) : Buffer := [(n >>> 16).toUInt8, (n >>> 8).toUInt8, n.toUInt8]

def bytes32 (n : UInt32) : Buffer := (n >>> 24).toUInt8 :: bytes24 n

@[simp] theorem length_bytes16 (n : UInt16) : (bytes16 n).length = 2 := rfl
@[simp] theorem length_bytes24 (n : UInt32) : (bytes24 n).length = 3 := rfl
@[simp] theorem length_bytes32 (n : UInt32) : (bytes32 n).length = 4 := rfl

/-! ### What the stores answer -/

/-- `OAM_CTC_CLS_FIELD_TYPE_s`. -/
inductive ClsFieldType where
  | daMac | saMac | ethPri | vlanId | etherType | dstIp | srcIp | ipType | ipDscp
  | ipPrecedence | l4SrcPort | l4DstPort
deriving DecidableEq, Repr

/-- The fields in the order in which they are read out of a rule, which is that of their
codes. -/
def ClsFieldType.all : List ClsFieldType :=
  [.daMac, .saMac, .ethPri, .vlanId, .etherType, .dstIp, .srcIp, .ipType, .ipDscp,
    .ipPrecedence, .l4SrcPort, .l4DstPort]

/-- The value of a field in the six bytes of `matchValue`. -/
def ClsFieldType.matchValue (lowRange : UInt64) : ClsFieldType → UInt64
  | .daMac | .saMac => lowRange &&& 0xFFFFFFFFFFFF
  | .ethPri | .ipType | .ipPrecedence => lowRange &&& 0xFF
  | .vlanId => lowRange &&& 0x0FFF
  | .etherType | .l4SrcPort | .l4DstPort => lowRange &&& 0xFFFF
  | .dstIp | .srcIp => lowRange &&& 0xFFFFFFFF
  | .ipDscp => (lowRange &&& 0xFF) >>> 2

/-- A field of a rule: its operator and the value it is compared with. -/
structure ClsField where
  operator : UInt8
  lowRange : UInt64

/-- A rule as `odmoamClassRuleGet` gives it; `field` is `none` where its flag is off. -/
structure ClsRule where
  queueMapId : UInt8
  cosMapVal : UInt8
  field : ClsFieldType → Option ClsField

/-- `multicast_control_entry_t`. -/
structure ControlEntry where
  port : UInt16
  vid : UInt16
  mmac : Vector UInt8 6

/-- What the getters read, each under the name of the function asked.  `none` is a status
that is not `OPL_OK`. -/
structure Device where
  onuVendor : Vector UInt8 4
  onuModel : Vector UInt8 4
  srcMac : Vector UInt8 6
  onuHwarever : Vector UInt8 8
  onuSwarever : Vector UInt8 16
  firmVer : Vector UInt8 2
  chipVendor : Vector UInt8 2
  chipModel : Vector UInt8 2
  chipRevision : UInt8
  chipVersion : Vector UInt8 3
  odmPortLinkStateGet : UInt8 → Option UInt32
  odmPortFlowCtrolEnableGet : UInt8 → Option UInt32
  /-- whether it is on, `cir`, `cbs` and `ebs` -/
  odmPortUsPolicingGet : UInt8 → Option (UInt8 × UInt32 × UInt32 × UInt32)
  /-- whether it is on, `cir` and `pir` -/
  odmPortDsPolicingGet : UInt8 → Option (UInt8 × UInt32 × UInt32)
  odmPortAdminGet : UInt8 → Option UInt32
  odmPortAutoEnableGet : UInt8 → Option UInt32
  odmPonFecEnableGet : Option UInt32
  odmMulticastTagstripGet : UInt8 → Option UInt8
  odmMulticastSwitchGet : UInt8
  odmMulticastGroupMaxNumGet : UInt8 → UInt8
  odmMulticastFastleaveAdminStateGet : UInt8
  odmMulticastVlanGet : UInt8 → Option (List UInt16)
  odmMulticastControlTypeGet : UInt8
  odmMulticastControlEntryGet : List ControlEntry
  odmPortVlanModeGet : UInt8 → Option UInt32
  dalVttTpidGet : UInt8 → Option UInt16
  odmPortDefaultVlanGet : UInt8 → Option UInt32
  odmPortDefaultEtherPriGet : UInt8 → Option UInt8
  odmPortNumOfVttGet : UInt8 → Option UInt8
  /-- an entry that is there is the old and the new VLAN -/
  odmPortVttEntryGet : UInt8 → Nat → Option (Option (UInt32 × UInt32))
  /-- by precedence; the port is not looked at -/
  odmoamClassRuleGet : UInt8 → Option ClsRule

/-- The board, its stores, and what `number` of `eopl_get_onu_vlan_2_0` holds before it is
set. -/
structure Onu20 where
  board : Board
  device : Device
  number : UInt8

/-- `ODM_NUM_OF_VTT`. -/
def odmNumOfVtt : Board → Nat
  | .fourPort => 16
  | .onePort => 11

/-! ### The response -/

/-- `oam_instance_tlv_t_2_0`. -/
structure InstanceTlv where
  branch : UInt8
  leaf : UInt16
  width : UInt8
  value : UInt8
deriving DecidableEq, Repr

def InstanceTlv.zero : InstanceTlv := ⟨0, 0, 0, 0⟩

/-- `*((oam_instance_tlv_t_2_0*)p_byte)`. -/
def instanceAt (p : Ptr) : InstanceTlv := ⟨p 0, p.leaf, p 3, p 4⟩

/-- A container: its header, the bytes written behind the width, and each count field with
the number of entries written behind it. -/
structure Container where
  branch : UInt8
  leaf : UInt16
  width : UInt8
  value : Buffer
  counts : List (Nat × Nat)
deriving DecidableEq, Repr

/-- A container with the instance in front, where there is one, and the port that the
stores were asked about. -/
structure Answer where
  port : Option (InstanceTlv × UInt8)
  container : Container
  moved : Nat
deriving DecidableEq, Repr

/-- How many bytes of `out_data` are written. -/
def Answer.span (a : Answer) : Nat :=
  (if a.port.isSome then oamInstanceTlv20Size else 0) + 4 + a.container.value.length

/-- What is handed to `OamFrameSend`. -/
structure Frame where
  length : Nat
  answers : List Answer
  overrun : Bool
deriving DecidableEq, Repr

/-- The globals of a GET; `answers` stand in `out_data` below the index, and `overrun` says
that something was written behind the end of `out_data`.  The index has 16 bits; it cannot
come round before that happens. -/
structure Output where
  usOutDataIdx : Nat
  portInstance : InstanceTlv
  answers : List Answer
  overrun : Bool
  sent : List Frame
deriving DecidableEq, Repr

/-- The size of `out_data`. -/
def outDataSize : Nat := oamMaximumPduSize + 4

/-- Every getter starts so: with the index at 0 behind a fresh header, else at the index. -/
def outputBuf (o : Output) : Output :=
  if o.usOutDataIdx = 0 then
    { o with usOutDataIdx := responseHeaderSize.toNat, answers := [] }
  else o

/-- Writes `n` bytes at the index. -/
def touch (o : Output) (n : Nat) : Output :=
  { o with overrun := o.overrun || outDataSize < o.usOutDataIdx + n }

def write (o : Output) (a : Answer) : Output :=
  { touch o a.span with
    answers := o.answers ++ [a]
    usOutDataIdx := o.usOutDataIdx + a.moved }

/-! ### Attributes of the ONU -/

/-- A container whose width is that of a structure. -/
def extended (leaf : UInt16) (width : UInt8) (value : Buffer) : Container :=
  ⟨oamBranchExtendedAttrib, leaf, width, value, []⟩

def standard (leaf : UInt16) (width : UInt8) (value : Buffer) : Container :=
  ⟨oamBranchStandardAttrib, leaf, width, value, []⟩

/-- `g_usOutDataIdx += width + 4`. -/
def onuAnswer (c : Container) (o : Output) : Output :=
  write (outputBuf o) ⟨none, c, c.width.toNat + 4⟩

section Getters

variable (onu : Onu20)

def eoplGetOnusnRsp20 : Output → Output :=
  onuAnswer (extended oamAttrOnuSn 38 (onu.device.onuVendor.toList ++ onu.device.onuModel.toList ++
    onu.device.srcMac.toList ++ onu.device.onuHwarever.toList ++ onu.device.onuSwarever.toList))

def eoplGetOnuFirmwarever20 : Output → Output :=
  onuAnswer (extended oamAttrOnuFimwarever 2 onu.device.firmVer.toList)

def eoplGetOnuChipid20 : Output → Output :=
  onuAnswer (extended oamAttrChipsetId 8 (onu.device.chipVendor.toList ++
    onu.device.chipModel.toList ++ [onu.device.chipRevision] ++ onu.device.chipVersion.toList))

/-- The services and the numbers and bitmaps of the GE and FE ports of a board. -/
def portCapabilities : Board → Buffer
  | .fourPort => [0x02, 0, 0, 0, 0, 0, 0, 0, 0, 0, 4, 0, 0, 0, 0, 0, 0, 0, 0x0F]
  | .onePort => [0x01, 1, 0, 0, 0, 0, 0, 0, 0, 0x01, 0, 0, 0, 0, 0, 0, 0, 0, 0]

/-- The queues of a board. -/
def queueCapabilities : Board → Buffer
  | .fourPort => [4, 4, 16, 4]
  | .onePort => [8, 8, 8, 8]

def eoplGetOnuCapabilities20 : Output → Output :=
  onuAnswer (extended oamAttrOnuCapabilities1 0x1A (portCapabilities onu.board ++ [0, 0] ++
    queueCapabilities onu.board ++ [0]))

def eoplGetOnuEthFecability20 : Output → Output :=
  onuAnswer (standard oamAttrFecAbility 4 (bytes32 2))

/-- A failing read leaves the header of the container behind the index. -/
def eoplGetOnuEthFecmode20 (o : Output) : Output :=
  match onu.device.odmPonFecEnableGet with
  | none => touch (outputBuf o) 4
  | some mode => onuAnswer (standard oamAttrFecMode 4
      (bytes32 (if mode = 0 then 3 else if mode = 1 then 2 else 1))) o

def eoplGetOnuMcastSwitch20 : Output → Output :=
  onuAnswer (extended oamAttrMcastSwitch 1 [onu.device.odmMulticastSwitchGet])

/-- A container with a number of entries of four bytes. -/
def listed (c : Container) (number : UInt32) (entries : List UInt32) : Container :=
  { c with
    value := bytes32 number ++ entries.flatMap bytes32
    counts := [(number.toNat, entries.length)] }

def eoplGetOnuFastleaveAbl20 : Output → Output :=
  onuAnswer (listed (extended oamAttrMcastGfastleaveAbl 20 []) 4 [0x00, 0x01, 0x10, 0x11])

def eoplGetOnuFastleaveAdmin20 : Output → Output :=
  onuAnswer (extended oamAttrMcastGfastleaveAdmin 4
    (bytes32 (if onu.device.odmMulticastFastleaveAdminStateGet = 0 then 2 else 1)))

def ControlEntry.bytes (e : ControlEntry) : Buffer :=
  bytes16 e.port ++ bytes16 e.vid ++ e.mmac.toList

/-- The width is computed in eight bits, the index moves by the entries. -/
def eoplGetOnuMcastControl20 (o : Output) : Output :=
  let entries := onu.device.odmMulticastControlEntryGet
  let number := entries.length % 65536
  write (outputBuf o)
    { port := none
      container :=
        { branch := oamBranchExtendedAttrib
          leaf := oamAttrMcastControl
          width := UInt8.ofNat (3 + 10 * number)
          value := [3, onu.device.odmMulticastControlTypeGet, UInt8.ofNat number] ++
            entries.flatMap ControlEntry.bytes
          counts := [((UInt8.ofNat number).toNat, entries.length)] }
      moved := 7 + 10 * number }

/-! ### Attributes of a port -/

/-- What comes of one port: a container and how far the index moves over it and the
instance, or a failing read that goes on with the next port or returns.  The failing ones
have written as many bytes behind the index. -/
inductive Read where
  | answer (container : Container) (moved : Nat)
  | skip (touched : Nat)
  | abort (touched : Nat)

/-- `g_usOutDataIdx += width + 9`. -/
def portAnswer (c : Container) : Read := .answer c (c.width.toNat + 9)

/-- The ports that a getter goes through. -/
def portsOf (board : Board) (value : UInt8) : List UInt8 :=
  if value = 0xFF then
    (List.range board.oamMaxInstanceId.toNat).map fun i => UInt8.ofNat (i + 1)
  else [value]

/-- The loop over the ports.  All getters but one write the port into the instance of the
request. -/
def eachPort (overwrites : Bool) : List (UInt8 × Read) → Output → Output
  | [], o => o
  | (port, r) :: rest, o =>
    let o₁ := outputBuf o
    let inst := { o₁.portInstance with value := port }
    let o₂ := if overwrites then { o₁ with portInstance := inst } else o₁
    match r with
    | .answer c moved => eachPort overwrites rest (write o₂ ⟨some (inst, port), c, moved⟩)
    | .skip touched => eachPort overwrites rest (touch o₂ touched)
    | .abort touched => touch o₂ touched

/-- The reads of a loop that carries a variable from port to port. -/
def carry {σ : Type} (read : σ → UInt8 → σ × Read) : σ → List UInt8 → List (UInt8 × Read)
  | _, [] => []
  | acc, port :: ports => (port, (read acc port).2) :: carry read (read acc port).1 ports

/-- The magic invalid value of an instance that was not given. -/
def noInstance : UInt8 := 200

def perPort (reads : List UInt8 → List (UInt8 × Read)) (o : Output) : Output :=
  if o.portInstance.value = noInstance then o
  else eachPort true (reads (portsOf onu.board o.portInstance.value)) o

/-- The reads of a getter that carries nothing. -/
def alone (read : UInt8 → Read) (ports : List UInt8) : List (UInt8 × Read) :=
  ports.map fun port => (port, read port)

def readLinkstate (port : UInt8) : Read :=
  match onu.device.odmPortLinkStateGet port with
  | none => .skip 9
  | some state => portAnswer (extended oamAttrEthLinkstate 1 [state.toUInt8])

def readPortpause (port : UInt8) : Read :=
  match onu.device.odmPortFlowCtrolEnableGet port with
  | none => .abort 9
  | some enable => portAnswer (extended oamAttrEthPortpause 1 [enable.toUInt8])

def readPortpolicing (port : UInt8) : Read :=
  match onu.device.odmPortUsPolicingGet port with
  | none => .skip 8
  | some (enable, cir, cbs, ebs) =>
    if enable = 0 then portAnswer (extended oamAttrEthPortUsPolicing 1 [enable])
    else portAnswer (extended oamAttrEthPortUsPolicing 10
      (enable :: bytes24 cir ++ bytes24 cbs ++ bytes24 ebs))

def readPortdspolicing (port : UInt8) : Read :=
  match onu.device.odmPortDsPolicingGet port with
  | none => .skip 8
  | some (enable, cir, pir) =>
    if enable = 0 then portAnswer (extended oamAttrEthPortDsPolicing 1 [enable])
    else portAnswer (extended oamAttrEthPortDsPolicing 7 (enable :: bytes24 cir ++ bytes24 pir))

/-- The value of a state; one that is neither is not written. -/
def adminValue (state : UInt32) : Buffer :=
  if state = 0 then bytes32 1 else if state = 1 then bytes32 2 else []

def readPhyadmin (port : UInt8) : Read :=
  match onu.device.odmPortAdminGet port with
  | none => .skip 9
  | some state => portAnswer (standard oamAttrPhyAdmin 4 (adminValue state))

def readAutonegadmin (port : UInt8) : Read :=
  match onu.device.odmPortAutoEnableGet port with
  | none => .skip 9
  | some state => portAnswer (standard oamAttrAutonegAdminState 4 (adminValue state))

/-- The number and the technologies written behind it. -/
def localAbility : Board → UInt32 × List UInt32
  | .fourPort => (5, [0x0E, 0x8E, 0x19, 0xFC, 0x138])
  | .onePort => (7, [0x0E, 0x8E, 0x19, 0xFC, 0x139, 0x13A, 0x28])

/-- On the board with one port an eighth one is written and not counted. -/
def advAbility : Board → UInt32 × List UInt32
  | .fourPort => (5, [0x0E, 0x8E, 0x19, 0xFC, 0x138])
  | .onePort => (7, [0x0E, 0x8E, 0x19, 0xFC, 0x139, 0x13A, 0x28, 0x192])

/-- `width = 4 + number*4`. -/
def abilityContainer (leaf : UInt16) (ability : UInt32 × List UInt32) : Container :=
  listed (standard leaf (4 + ability.1.toUInt8 * 4) []) ability.1 ability.2

def readAutoneglocal (_ : UInt8) : Read :=
  portAnswer (abilityContainer oamAttrAutonegLocalAbility (localAbility onu.board))

def readAutonegadv (_ : UInt8) : Read :=
  portAnswer (abilityContainer oamAttrAutonegAdvAbility (advAbility onu.board))

/-- The status of the store is not looked at. -/
def readTagstrip (port : UInt8) : Read :=
  portAnswer (extended oamAttrMcastTagStrip 1 (onu.device.odmMulticastTagstripGet port).toList)

def readGrpNummax (port : UInt8) : Read :=
  portAnswer (extended oamAttrMcastGrpNummax 1 [onu.device.odmMulticastGroupMaxNumGet port])

/-- The store counts the VLANs in eight bits, and so is the width computed. -/
def readMcastVlan (port : UInt8) : Read :=
  let vids := (onu.device.odmMulticastVlanGet port).getD []
  let number := UInt8.ofNat vids.length
  portAnswer (extended oamAttrMcastVlan (1 + 2 * number) (0x03 :: vids.flatMap bytes16))

/-- `eopl_get_tag_id_2_0`. -/
def eoplGetTagId20 (port : UInt8) : Option UInt32 := do
  let tpid ← onu.device.dalVttTpidGet port
  let vid ← onu.device.odmPortDefaultVlanGet port
  let pri ← onu.device.odmPortDefaultEtherPriGet port
  some (tpid.toUInt32 <<< 16 ||| (vid ||| pri.toUInt32 <<< 13).toUInt16.toUInt32)

/-- The loop of `eopl_get_vtt_list_2_0`: the entries it writes, and whether it gets
through.  An entry that maps the default VLAN to itself is counted and not written. -/
def vttEntries (port : UInt8) (uiDefVid : UInt32) (numOfVttEntry : Nat) :
    Nat → Nat → Nat → List (UInt32 × UInt32) × Bool
  | 0, _, _ => ([], true)
  | left + 1, i, validEntryNum =>
    if validEntryNum = numOfVttEntry then ([], true)
    else
      match onu.device.odmPortVttEntryGet port i with
      | none => ([], false)
      | some none => vttEntries port uiDefVid numOfVttEntry left (i + 1) validEntryNum
      | some (some (ovlan, nvlan)) =>
        let rest := vttEntries port uiDefVid numOfVttEntry left (i + 1) (validEntryNum + 1)
        if uiDefVid = ovlan ∧ ovlan = nvlan then rest else ((ovlan, nvlan) :: rest.1, rest.2)

/-- `eopl_get_vtt_list_2_0`: the entries written, and `*pNum` unless it fails. -/
def eoplGetVttList20 (port : UInt8) (uiDefVid : UInt32) :
    List (UInt32 × UInt32) × Option UInt8 :=
  match onu.device.odmPortNumOfVttGet port with
  | none => ([], none)
  | some numOfVttEntry =>
    let written := vttEntries onu port uiDefVid numOfVttEntry.toNat (odmNumOfVtt onu.board) 0 0
    (written.1, if written.2 then some numOfVttEntry else none)

/-- `OAM_CTC_VLAN_TRANSPARENT`, `OAM_CTC_VLAN_TAG` and `OAM_CTC_VLAN_TRANSLATE`. -/
def oamCtcVlanTransparent : UInt8 := 0x00
def oamCtcVlanTag : UInt8 := 0x01
def oamCtcVlanTranslate : UInt8 := 0x02

/-- The mode, the tag and the translations. -/
def vlanContainer (mode : UInt8) (tag : UInt32) (number : UInt8)
    (entries : List (UInt32 × UInt32)) : Container :=
  extended oamAttrVlan (5 + number * 8)
    (mode :: bytes32 tag ++ entries.flatMap fun e => bytes32 e.1 ++ bytes32 e.2)

/-- One port of `eopl_get_onu_vlan_2_0`.  Only two modes set `number`; in the others it is
what the port before left. -/
def readVlan (number : UInt8) (port : UInt8) : UInt8 × Read :=
  match onu.device.odmPortVlanModeGet port with
  | none => (number, .abort 8)
  | some mode =>
    if mode.toUInt8 = oamCtcVlanTransparent then
      (number, portAnswer (extended oamAttrVlan 1 [mode.toUInt8]))
    else
      match eoplGetTagId20 onu port with
      | none => (number, .abort 10)
      | some tag =>
        if mode.toUInt8 = oamCtcVlanTag then (0, portAnswer (vlanContainer mode.toUInt8 tag 0 []))
        else if mode.toUInt8 = oamCtcVlanTranslate then
          match eoplGetVttList20 onu port tag with
          | (entries, none) => (number, .abort (14 + 8 * entries.length))
          | (entries, some n) => (n, portAnswer (vlanContainer mode.toUInt8 tag n entries))
        else (number, portAnswer (vlanContainer mode.toUInt8 tag number []))

/-- `oam_clasmark_fieldbody_t`. -/
def fieldBody (fieldSelect : Nat) (kind : ClsFieldType) (f : ClsField) : Buffer :=
  let v := kind.matchValue f.lowRange
  [UInt8.ofNat fieldSelect, (v >>> 40).toUInt8, (v >>> 32).toUInt8, (v >>> 24).toUInt8,
    (v >>> 16).toUInt8, (v >>> 8).toUInt8, v.toUInt8, f.operator]

/-- The fields of a rule whose flag is on, with their codes. -/
def fieldBodies (rule : ClsRule) : List Buffer :=
  ClsFieldType.all.zipIdx.filterMap fun (kind, fieldSelect) =>
    (rule.field kind).map (fieldBody fieldSelect kind)

/-- `lenOfRule`. -/
def lenOfRule (rule : ClsRule) : UInt8 := 3 + UInt8.ofNat (fieldBodies rule).length * 8

/-- `stub_ctc_port_rule_get_2_0`: the body of a rule and its fields. -/
def ruleBytes (precedence : UInt8) (rule : ClsRule) : Buffer :=
  [precedence, lenOfRule rule, rule.queueMapId, rule.cosMapVal,
    UInt8.ofNat (fieldBodies rule).length] ++ (fieldBodies rule).flatten

/-- The rules of precedence 1 to 8. -/
def classRules : List (UInt8 × ClsRule) :=
  ((List.range 8).map fun i => UInt8.ofNat (i + 1)).filterMap fun precedence =>
    (onu.device.odmoamClassRuleGet precedence).map (precedence, ·)

/-- One port of `eopl_get_onu_classify_2_0`; `numOfRule` goes on counting from port to
port. -/
def readClassify (numOfRule : UInt8) (_ : UInt8) : UInt8 × Read :=
  let rules := classRules onu
  let numOfRule' := numOfRule + UInt8.ofNat rules.length
  (numOfRule', portAnswer
    { branch := oamBranchExtendedAttrib
      leaf := oamAttrClamark
      width := rules.foldl (fun width r => width + (lenOfRule r.2 + 2)) 2
      value := [0x03, numOfRule'] ++ rules.flatMap fun r => ruleBytes r.1 r.2
      counts := (numOfRule'.toNat, rules.length) ::
        rules.map fun r =>
          ((UInt8.ofNat (fieldBodies r.2).length).toNat, (fieldBodies r.2).length) })

/-- The attributes of a port. -/
inductive PortAttr where
  | linkstate | portpause | portpolicing | portdspolicing | phyadmin | autonegadmin
  | autoneglocal | autonegadv | tagstrip | grpNummax | mcastVlan | vlan | classify
deriving DecidableEq, Repr

/-- What the stores answer for the ports of an attribute, in the order they are asked. -/
def PortAttr.reads : PortAttr → List UInt8 → List (UInt8 × Read)
  | .linkstate => alone (readLinkstate onu)
  | .portpause => alone (readPortpause onu)
  | .portpolicing => alone (readPortpolicing onu)
  | .portdspolicing => alone (readPortdspolicing onu)
  | .phyadmin => alone (readPhyadmin onu)
  | .autonegadmin => alone (readAutonegadmin onu)
  | .autoneglocal => alone (readAutoneglocal onu)
  | .autonegadv => alone (readAutonegadv onu)
  | .tagstrip => alone (readTagstrip onu)
  | .grpNummax => alone (readGrpNummax onu)
  | .mcastVlan => alone (readMcastVlan onu)
  | .vlan => carry (readVlan onu) onu.number
  | .classify => carry (readClassify onu) 0

def eoplGetOnuEthLinkstate20 : Output → Output := perPort onu (PortAttr.reads onu .linkstate)
def eoplGetOnuEthPortpause20 : Output → Output := perPort onu (PortAttr.reads onu .portpause)
def eoplGetOnuEthPortpolicing20 : Output → Output :=
  perPort onu (PortAttr.reads onu .portpolicing)
def eoplGetOnuEthPortdspolicing20 : Output → Output :=
  perPort onu (PortAttr.reads onu .portdspolicing)
def eoplGetOnuEthPhyadmin20 : Output → Output := perPort onu (PortAttr.reads onu .phyadmin)
def eoplGetOnuEthAutonegadmin20 : Output → Output :=
  perPort onu (PortAttr.reads onu .autonegadmin)
def eoplGetOnuEthAutoneglocal20 : Output → Output :=
  perPort onu (PortAttr.reads onu .autoneglocal)
def eoplGetOnuEthAutonegadv20 : Output → Output := perPort onu (PortAttr.reads onu .autonegadv)
def eoplGetOnuMcastTagstrip20 : Output → Output := perPort onu (PortAttr.reads onu .tagstrip)
def eoplGetOnuGrpNummax20 : Output → Output := perPort onu (PortAttr.reads onu .grpNummax)
def eoplGetOnuMcastVlan20 : Output → Output := perPort onu (PortAttr.reads onu .mcastVlan)
def eoplGetOnuVlan20 : Output → Output := perPort onu (PortAttr.reads onu .vlan)

/-- The getter that neither looks for the magic value nor writes into the instance. -/
def eoplGetOnuClassify20 (o : Output) : Output :=
  eachPort false (PortAttr.reads onu .classify (portsOf onu.board o.portInstance.value)) o

/-! ### The loop -/

/-- The cases of `switch (p_des->leaf)`. -/
def getters : List (UInt16 × (Output → Output)) :=
  [ (oamAttrOnuSn, eoplGetOnusnRsp20 onu),
    (oamAttrOnuFimwarever, eoplGetOnuFirmwarever20 onu),
    (oamAttrChipsetId, eoplGetOnuChipid20 onu),
    (oamAttrOnuCapabilities1, eoplGetOnuCapabilities20 onu),
    (oamAttrEthLinkstate, eoplGetOnuEthLinkstate20 onu),
    (oamAttrEthPortpause, eoplGetOnuEthPortpause20 onu),
    (oamAttrEthPortUsPolicing, eoplGetOnuEthPortpolicing20 onu),
    (oamAttrEthPortDsPolicing, eoplGetOnuEthPortdspolicing20 onu),
    (oamAttrPhyAdmin, eoplGetOnuEthPhyadmin20 onu),
    (oamAttrAutonegAdminState, eoplGetOnuEthAutonegadmin20 onu),
    (oamAttrAutonegLocalAbility, eoplGetOnuEthAutoneglocal20 onu),
    (oamAttrAutonegAdvAbility, eoplGetOnuEthAutonegadv20 onu),
    (oamAttrFecAbility, eoplGetOnuEthFecability20),
    (oamAttrFecMode, eoplGetOnuEthFecmode20 onu),
    (oamAttrMcastTagStrip, eoplGetOnuMcastTagstrip20 onu),
    (oamAttrMcastSwitch, eoplGetOnuMcastSwitch20 onu),
    (oamAttrMcastGrpNummax, eoplGetOnuGrpNummax20 onu),
    (oamAttrMcastGfastleaveAbl, eoplGetOnuFastleaveAbl20),
    (oamAttrMcastGfastleaveAdmin, eoplGetOnuFastleaveAdmin20 onu),
    (oamAttrMcastVlan, eoplGetOnuMcastVlan20 onu),
    (oamAttrMcastControl, eoplGetOnuMcastControl20 onu),
    (oamAttrVlan, eoplGetOnuVlan20 onu),
    (oamAttrClamark, eoplGetOnuClassify20 onu) ]

end Getters

/-- `OAM_GET_NO_RESOURCE`. -/
def oamGetNoResource : UInt8 := 0x87

/-- `eopl_not_support_response_2_0`: the indication, and the index moves by four more. -/
def eoplNotSupportResponse20 (branch : UInt8) (leaf : UInt16) (o : Output) : Output :=
  write (outputBuf o) ⟨none, ⟨branch, leaf, oamGetNoResource, [], []⟩, oamRspIndicationSize + 4⟩

/-- The end of the loop. -/
def sendFrame (o : Output) : Output :=
  { o with
    usOutDataIdx := 0
    portInstance := .zero
    sent := o.sent ++ [⟨max o.usOutDataIdx oamMinimizePduSize,
      if o.usOutDataIdx = 0 then [] else o.answers, o.overrun⟩] }

/-- What one round does to the globals. -/
def roundEffect (onu : Onu20) (p : Ptr) (o : Output) : Item → Output
  | .instance20 _ => { o with portInstance := instanceAt p }
  | .handler _ => ((getters onu).lookup p.leaf).getD id o
  | .unsupported _ => eoplNotSupportResponse20 (p 0) p.leaf o
  | .stop => sendFrame o
  | .instance21 | .ignored _ | .reset | .handover => o

/-- `p_byte - p_src` and the globals. -/
structure Cursor where
  pByte : Nat
  output : Output

/-- One round of `while (1)`. -/
def getStep (onu : Onu20) (mem : Buffer) (s : Cursor) : Cursor ⊕ (Exit × Output) :=
  if oamMaximumPduSize ≤ s.pByte then .inr (.sizeLimit, s.output)
  else
    let p := ptrAt mem s.pByte
    let here := item onu.board .getReq20 p
    let output := roundEffect onu p s.output here
    match here.outcome with
    | .inl n => .inl ⟨s.pByte + n, output⟩
    | .inr e => .inr (e, output)

/-- The loop starts with the magic invalid value. -/
def enterGet (o : Output) : Output :=
  { o with portInstance := { o.portInstance with value := noInstance } }

def eoplCtcGetReq20 (onu : Onu20) (mem : Buffer) (o : Output) : Option (Exit × Output) :=
  Loop.run (getStep onu mem) (oamMaximumPduSize + 1) ⟨0, enterGet o⟩

section Rounds

variable {onu : Onu20} {mem : Buffer} {s : Cursor}

theorem getStep_of_le (h : oamMaximumPduSize ≤ s.pByte) :
    getStep onu mem s = .inr (.sizeLimit, s.output) := if_pos h

theorem getStep_of_inl (h : s.pByte < oamMaximumPduSize) {n : Nat}
    (hn : (item onu.board .getReq20 (ptrAt mem s.pByte)).outcome = .inl n) :
    getStep onu mem s = .inl ⟨s.pByte + n, roundEffect onu (ptrAt mem s.pByte) s.output
      (item onu.board .getReq20 (ptrAt mem s.pByte))⟩ := by
  simp only [getStep, if_neg (Nat.not_le.mpr h), hn]

theorem getStep_of_inr (h : s.pByte < oamMaximumPduSize) {e : Exit}
    (he : (item onu.board .getReq20 (ptrAt mem s.pByte)).outcome = .inr e) :
    getStep onu mem s = .inr (e, roundEffect onu (ptrAt mem s.pByte) s.output
      (item onu.board .getReq20 (ptrAt mem s.pByte))) := by
  simp only [getStep, if_neg (Nat.not_le.mpr h), he]

end Rounds

/-- The cursor goes as it does in `walk`, whatever the handlers are there. -/
theorem exit_eq_walk (onu : Onu20) (handlers : Onu) (h : handlers.board = onu.board)
    (mem : Buffer) (o : Output) (g : Globals) :
    (eoplCtcGetReq20 onu mem o).map Prod.fst = (walk handlers .getReq20 mem g).map Prod.fst := by
  refine Loop.run_map_eq (fun s t => s.pByte = t.pByte) Prod.fst Prod.fst ?_ rfl _
  intro s t hst
  rcases Nat.lt_or_ge s.pByte oamMaximumPduSize with hlt | hge
  · have hlt' : t.pByte < oamMaximumPduSize := hst ▸ hlt
    have hhere : here handlers .getReq20 mem t.pByte =
        item onu.board .getReq20 (ptrAt mem s.pByte) := by rw [here, h, ← hst]
    rcases hitem : (item onu.board .getReq20 (ptrAt mem s.pByte)).outcome with n | e
    · refine .inl ⟨_, _, getStep_of_inl hlt hitem, walkStep_of_inl hlt' (by rw [hhere, hitem]), ?_⟩
      show s.pByte + n = t.pByte + n
      rw [hst]
    · exact .inr ⟨_, _, getStep_of_inr hlt hitem, walkStep_of_inr hlt' (by rw [hhere, hitem]), rfl⟩
  · exact .inr ⟨_, _, getStep_of_le hge, walkStep_of_le (hst ▸ hge), rfl⟩

/-- A GET of 2.0 always returns. -/
theorem eoplCtcGetReq20_returns (onu : Onu20) (mem : Buffer) (o : Output) :
    ∃ e o', eoplCtcGetReq20 onu mem o = some (e, o') := by
  have hexit := exit_eq_walk onu ⟨onu.board, fun _ => none⟩ rfl mem o ⟨0, [], 0, [], 0, [], []⟩
  rcases hget : eoplCtcGetReq20 onu mem o with _ | ⟨e, o'⟩
  · rw [hget, Option.map_none, eq_comm, Option.map_eq_none_iff, walk_eq_none_iff] at hexit
    obtain ⟨s, -, -, hwalker, -⟩ := hexit
    cases hwalker
  · exact ⟨e, o', rfl⟩

end Opconn.Oam.Ctc.Get
