import Opconn.Lib.Calls
import Opconn.Multicast.ControlAdmission
import Opconn.Oam.ClassifyRules

/-!
# Handlers of SET requests

A SET request names a port, or all of them, and may carry a list of entries.  Its handler calls
the layer below for each port and each entry and puts one indication into the response.  Here are
the setters of a port, the multicast VLANs and control entries of both versions, the alarm
settings and the loop detection of the later one, and the VLAN mode of the earlier one, on the
four-port boards with an AR8228 or AR8327 switch.
-/

namespace Opconn.Oam.Ctc.Setting

open Calls Multicast
open Rules (oamSetOk oamSetBadParameters oamSetNoResource)

/-! ### The layer below -/

/-- The functions that the handlers call. -/
inductive Call where
  | odmPortFlowCtrolEnableSet (portId : UInt16) (action : UInt32)
  | odmPortUsPolicingSet (portId : UInt16) (operation : UInt8) (cir cbs ebs : UInt32)
  | odmPortDsPolicingSet (portId : UInt16) (operation : UInt8) (cir pir : UInt32)
  | odmPortAdminSet (portId : UInt16) (action : UInt32)
  | dalPhyAutonegRestart (portId : UInt16)
  | odmPortAutoEnableSet (portId : UInt16) (action : UInt8)
  | odmLoopDetectionSet (portId : UInt16) (enable : UInt32)
  | alarmSetState (alarmId portId : UInt16) (state : UInt32)
  | alarmSetThr (alarmId portId : UInt16) (raising falling : UInt32)
  | odmMulticastGroupMaxNumSet (portId : UInt16) (max : UInt8)
  | odmMulticastTagstripSet (portId : UInt16) (tagstriped : UInt32)
  | odmMulticastTagTranslationAdd (portId mcastVlan iptvVlan : UInt16)
  | odmMulticastVlanClear (portId : UInt16)
  | odmMulticastVlanDelete (portId vlanId : UInt16)
  | odmMulticastVlanAdd (portId vlanId : UInt16)
  | odmMulticastControlTypeSet (controlType : UInt8)
  | odmMulticastControlEntryClear
  | odmMulticastControlEntryDelete (entry : ControlEntry)
  | odmMulticastControlEntryAdd (entry : ControlEntry)
  | eoplSetTagId (portId : UInt16) (value : UInt32)
  | odmPortVlanModeSet (portId : UInt16) (vlanMode : UInt8)
  | odmPortVttEntryAdd (portId : UInt16) (oldVlan newVlan : UInt32)
deriving DecidableEq, Repr

/-- What the handlers read besides the request: what lies in a variable that is not set, and on
the stack; the multicast tables and tag operations; the VLAN modes in `dal_vtt_info`. -/
structure SetEnv where
  unset : UInt32
  vttResource : Nat → UInt16 × UInt16
  tables : ControlTables
  tagOper : Nat → UInt8
  vlanModeAt : Nat → Nat

/-- What a handler leaves: the layer below, the calls with their answers, and the indication in
the response, if there is one. -/
structure Outcome (σ : Type) where
  state : σ
  trace : List (Call × UInt32)
  indication : Option UInt8

def indicationOf (ok : Bool) : UInt8 := if ok then oamSetOk else oamSetNoResource

/-- The test of a result kept in a `u8_t`, and in a word. -/
def byteOk (rlt : UInt32) : Bool := rlt.toUInt8 == 0
def wordOk (rlt : UInt32) : Bool := rlt == 0

section Outcomes

variable {σ : Type} (layer : σ → Call → σ × UInt32)

/-- All calls are made and the last result is kept; `start` is what the variable holds before. -/
def lastCounts (ok : UInt32 → Bool) (start : UInt32) (s : σ) (calls : List Call) : Outcome σ :=
  let done := each layer s calls
  ⟨done.1, done.2, some (indicationOf (ok (lastAnswer start done.2)))⟩

/-- The calls are made up to the first failure. -/
def firstCounts (ok : UInt32 → Bool) (s : σ) (calls : List Call) : Outcome σ :=
  let done := untilRefused ok layer s calls
  ⟨done.1, done.2, some (indicationOf (ok (lastAnswer 0 done.2)))⟩

/-- All calls are made and no result is kept. -/
def noneCounts (s : σ) (calls : List Call) : Outcome σ :=
  let done := each layer s calls
  ⟨done.1, done.2, some oamSetOk⟩

/-- Nothing is called. -/
def answered (s : σ) (indication : Option UInt8) : Outcome σ := ⟨s, [], indication⟩

/-! ### Ports -/

/-- The ports of an instance of 2.0. -/
def ports20 (portInstance20 : UInt8) : List UInt16 :=
  if portInstance20 = 0xFF then [1, 2, 3, 4] else [portInstance20.toUInt16]

/-- `OAM_GET_PORT_TYPE` and `OAM_GET_PORT_NUM`. -/
def portType (value : UInt32) : UInt8 := (value >>> 24).toUInt8
def portNum (value : UInt32) : UInt16 := value.toUInt16

/-- An Ethernet port of the board, or all of them. -/
def ethPort (value : UInt32) : Bool :=
  portType value = 1 && (portNum value ≤ 4 || portNum value = 0xFFFF)

/-- The ports of an instance of 2.1. -/
def ports21 (value : UInt32) : List UInt16 :=
  if portNum value = 0xFFFF then [1, 2, 3, 4] else [portNum value]

/-- A setter of 2.0.  The instance 200 is left without an answer. -/
def portSetter20 (ok : UInt32 → Bool) (call : UInt16 → Call) (portInstance20 : UInt8) (s : σ) :
    Outcome σ :=
  if portInstance20 = 200 then answered s none
  else lastCounts layer ok 0 s ((ports20 portInstance20).map call)

/-- A setter of 2.1. -/
def portSetter21 (ok : UInt32 → Bool) (call : UInt16 → Call) (value : UInt32) (s : σ) :
    Outcome σ :=
  if ethPort value then lastCounts layer ok 0 s ((ports21 value).map call)
  else answered s (some oamSetBadParameters)

/-! ### Setters of a port -/

/-- `operation` says whether the rates of a request are taken. -/
def rate (operation : UInt8) (value : UInt32) : UInt32 := if operation = 1 then value else 0

/-- The action of a request on a port's state: 1 and 2 are 0 and 1 below. -/
def adminAction (action : UInt32) : UInt32 :=
  if action = 1 then 0 else if action = 2 then 1 else action

def eoplSetOnuEthPortpause20 (action : UInt8) : UInt8 → σ → Outcome σ :=
  portSetter20 layer byteOk (.odmPortFlowCtrolEnableSet · action.toUInt32)

def eoplSetOnuEthPolicing20 (operation : UInt8) (cir cbs ebs : UInt32) : UInt8 → σ → Outcome σ :=
  portSetter20 layer byteOk
    (.odmPortUsPolicingSet · operation (rate operation cir) (rate operation cbs)
      (rate operation ebs))

def eoplSetOnuEthDspolicing20 (operation : UInt8) (cir pir : UInt32) : UInt8 → σ → Outcome σ :=
  portSetter20 layer byteOk
    (.odmPortDsPolicingSet · operation (rate operation cir) (rate operation pir))

def eoplSetOnuEthAdmincontrol20 (action : UInt32) : UInt8 → σ → Outcome σ :=
  portSetter20 layer byteOk (.odmPortAdminSet · (adminAction action))

def eoplSetOnuEthAtuorestart20 : UInt8 → σ → Outcome σ :=
  portSetter20 layer byteOk .dalPhyAutonegRestart

def eoplSetOnuEthAutonegadmin20 (action : UInt8) : UInt8 → σ → Outcome σ :=
  portSetter20 layer byteOk (.odmPortAutoEnableSet · (adminAction action.toUInt32).toUInt8)

def eoplSetOnuMcastGroupMax20 (max : UInt8) : UInt8 → σ → Outcome σ :=
  portSetter20 layer byteOk (.odmMulticastGroupMaxNumSet · max)

def eoplSetOnuMcastTagstrip20 (tagstriped : UInt32) : UInt8 → σ → Outcome σ :=
  portSetter20 layer byteOk (.odmMulticastTagstripSet · tagstriped)

def eoplSetOnuEthPortPause (action : UInt8) : UInt32 → σ → Outcome σ :=
  portSetter21 layer wordOk (.odmPortFlowCtrolEnableSet · action.toUInt32)

def eoplSetOnuEthPortUsPolicing (operation : UInt8) (cir cbs ebs : UInt32) :
    UInt32 → σ → Outcome σ :=
  portSetter21 layer byteOk
    (.odmPortUsPolicingSet · operation (rate operation cir) (rate operation cbs)
      (rate operation ebs))

def eoplSetOnuEthPortDsPolicing (operation : UInt8) (cir pir : UInt32) : UInt32 → σ → Outcome σ :=
  portSetter21 layer byteOk
    (.odmPortDsPolicingSet · operation (rate operation cir) (rate operation pir))

def eoplSetOnuEthAdmincontrol (action : UInt32) : UInt32 → σ → Outcome σ :=
  portSetter21 layer byteOk (.odmPortAdminSet · (adminAction action))

def eoplSetOnuEthAtuorestart : UInt32 → σ → Outcome σ :=
  portSetter21 layer byteOk .dalPhyAutonegRestart

def eoplSetOnuEthAutonegadmin (action : UInt8) : UInt32 → σ → Outcome σ :=
  portSetter21 layer byteOk (.odmPortAutoEnableSet · (adminAction action.toUInt32).toUInt8)

def eoplSetOnuMcastGroupMax (max : UInt8) : UInt32 → σ → Outcome σ :=
  portSetter21 layer byteOk (.odmMulticastGroupMaxNumSet · max)

/-- The states that `eopl_set_port_loop_detect` knows; with another one it calls nothing and
reads a result that is not set.  A failure is told as bad parameters. -/
def loopCalls (state : UInt32) (ports : List UInt16) : List Call :=
  if state = 1 ∨ state = 2 then ports.map (.odmLoopDetectionSet · (state - 1)) else []

def eoplSetPortLoopDetect (env : SetEnv) (state value : UInt32) (s : σ) : Outcome σ :=
  if ethPort value then
    let done := each layer s (loopCalls state (ports21 value))
    ⟨done.1, done.2,
      some (if wordOk (lastAnswer env.unset done.2) then oamSetOk else oamSetBadParameters)⟩
  else answered s (some oamSetBadParameters)

/-- The ports of an alarm setting: all of them only for the object type UNI. -/
def alarmPorts (leaf : UInt16) (value : UInt32) : List UInt16 :=
  if leaf = 1 ∧ portNum value = 0xFFFF then [1, 2, 3, 4] else [portNum value]

def eoplSetOnuAlarmAdminState (alarmId : UInt16) (state : UInt32) (leaf : UInt16)
    (value : UInt32) (s : σ) : Outcome σ :=
  noneCounts layer s ((alarmPorts leaf value).map (.alarmSetState alarmId · state))

def eoplSetOnuAlarmThreshold (alarmId : UInt16) (raising falling : UInt32) (leaf : UInt16)
    (value : UInt32) (s : σ) : Outcome σ :=
  noneCounts layer s ((alarmPorts leaf value).map (.alarmSetThr alarmId · raising falling))

/-! ### Multicast -/

/-- The number of entries in the translation table that each entry of a request may take. -/
def portFactor (ports : List UInt16) : Nat := if ports.length = 1 then 1 else odmNumOfPorts

/-- The calls for the multicast VLANs of a request, read from the buffer at `vidAt`. -/
def vlanCalls (width operation : UInt8) (vidAt : Nat → UInt16) (ports : List UInt16) :
    List Call :=
  if width = 1 then ports.map .odmMulticastVlanClear
  else
    ((List.range ((width - 1).toNat / 2)).map vidAt).flatMap fun vid =>
      if operation = 0 then ports.map (.odmMulticastVlanDelete · vid)
      else if operation = 1 then ports.map (.odmMulticastVlanAdd · vid)
      else []

/-- What the two handlers of multicast VLANs do with the ports of the request.  An odd number of
bytes is left without an answer. -/
def mcastVlan (env : SetEnv) (width operation : UInt8) (vidAt : Nat → UInt16)
    (ports : List UInt16) (s : σ) : Outcome σ :=
  let number := (width - 1).toNat
  if width = 1 then noneCounts layer s (vlanCalls width operation vidAt ports)
  else if number % 2 ≠ 0 then answered s none
  else if operation = 1 ∧
      shivaMaxVlanTrans < env.tables.dalVttNum.toNat + portFactor ports * (number / 2) then
    answered s (some oamSetNoResource)
  else noneCounts layer s (vlanCalls width operation vidAt ports)

def eoplSetOnuMcastVlan20 (env : SetEnv) (width operation : UInt8) (vidAt : Nat → UInt16)
    (portInstance20 : UInt8) (s : σ) : Outcome σ :=
  if portInstance20 = 200 then answered s none
  else mcastVlan layer env width operation vidAt (ports20 portInstance20) s

def eoplSetOnuMcastVlan (env : SetEnv) (width operation : UInt8) (vidAt : Nat → UInt16)
    (value : UInt32) (s : σ) : Outcome σ :=
  if ethPort value then mcastVlan layer env width operation vidAt (ports21 value) s
  else answered s (some oamSetBadParameters)

/-- The calls for the entries of a multicast control request. -/
def controlCalls (r : ControlRequest) : List Call :=
  if r.action = 0 then r.entries.map .odmMulticastControlEntryDelete
  else if r.action = 1 then r.entries.map .odmMulticastControlEntryAdd
  else []

/-- A request that is not one to clear the entries.  Where its check leaves an array, what
follows is not defined, and no answer is said to come. -/
def mcastControlEntries (env : SetEnv) (r : ControlRequest) (s : σ) : Outcome σ :=
  match admits env.vttResource env.tables r with
  | none => answered s none
  | some false => answered s (some oamSetNoResource)
  | some true =>
    lastCounts layer wordOk env.unset (layer s (.odmMulticastControlTypeSet r.controlType)).1
      (controlCalls r)

def eoplSetOnuMcastControl20 (env : SetEnv) (r : ControlRequest) (s : σ) : Outcome σ :=
  if r.width = 1 then lastCounts layer wordOk env.unset s [.odmMulticastControlEntryClear]
  else mcastControlEntries layer env r s

/-- The later version drops the result of the clear. -/
def eoplSetOnuMcastControl (env : SetEnv) (r : ControlRequest) (s : σ) : Outcome σ :=
  if r.width = 1 then
    let done := each layer s [.odmMulticastControlEntryClear]
    ⟨done.1, done.2, some (indicationOf (wordOk env.unset))⟩
  else mcastControlEntries layer env r s

/-- The multicast VLANs of a port that a translation takes the place of. -/
def reusableVttNum (env : SetEnv) (ports : List UInt16) : Nat :=
  (ports.filter fun portId => env.tagOper portId.toNat ≠ 2).foldl (fun n portId => n +
    (List.range' 1 4095).countP fun mvlan => mcVlanMapExist env.tables.vlans portId.toNat mvlan) 0

/-- The calls that are made for a tag operation: with each port an entry further on is read. -/
def tagStripCalls (tagstriped number : UInt8) (entryAt : Nat → UInt16 × UInt16)
    (ports : List UInt16) : List Call :=
  ports.map (.odmMulticastTagstripSet · tagstriped.toUInt32) ++
    if tagstriped = 2 then
      (List.range number.toNat).flatMap fun i => ports.zipIdx.map fun (portId, k) =>
        .odmMulticastTagTranslationAdd portId (entryAt (i * ports.length + k)).1
          (entryAt (i * ports.length + k)).2
    else []

def eoplSetOnuMcastTagStrip (env : SetEnv) (tagstriped number : UInt8)
    (entryAt : Nat → UInt16 × UInt16) (value : UInt32) (s : σ) : Outcome σ :=
  let ports := ports21 value
  if !ethPort value then answered s (some oamSetBadParameters)
  else if tagstriped = 2 ∧ 16 < env.tables.dalVttNum.toUInt32 -
      UInt32.ofNat (reusableVttNum env ports) + UInt32.ofNat (portFactor ports * number.toNat) then
    answered s (some oamSetNoResource)
  else firstCounts layer byteOk s (tagStripCalls tagstriped number entryAt ports)

/-! ### VLAN mode -/

/-- A VLAN request: header, default tag and records, as they are read from the buffer. -/
structure VlanRequest where
  width : UInt8
  mode : UInt8
  defaultTag : UInt32
  recordAt : Nat → UInt32 × UInt32

/-- The records of a translation list. -/
def VlanRequest.records (r : VlanRequest) : List (UInt32 × UInt32) :=
  (List.range ((r.width.toNat - 5) / 8)).map r.recordAt

/-- The check of the list, with the VLANs in front in `vlanlist`. -/
def checkRecords (vlanId : UInt32) : List UInt32 → List (UInt32 × UInt32) → Bool
  | _, [] => true
  | vlanlist, (oldTag, newTag) :: records =>
    let oldVlan := oldTag &&& 0xFFF
    let newVlan := newTag &&& 0xFFF
    if oldVlan = newVlan then false
    else if oldVlan ∈ vlanlist ∨ newVlan ∈ vlanlist then false
    else if 16 < vlanlist.length + 2 then false
    else if oldVlan = vlanId then false
    else checkRecords vlanId (vlanlist ++ [oldVlan, newVlan]) records

/-- The entries that tagging the ports takes: none where they have one. -/
def tagEntries (env : SetEnv) (ports : List UInt16) : Nat :=
  portFactor ports - ports.countP fun portId =>
    env.vlanModeAt portId.toNat = 1 || env.vlanModeAt portId.toNat = 2

/-- Default tag and mode of the ports. -/
def tagCalls (r : VlanRequest) (ports : List UInt16) : List Call :=
  ports.flatMap fun portId =>
    [.eoplSetTagId portId r.defaultTag, .odmPortVlanModeSet portId r.mode]

/-- The records at the ports. -/
def recordCalls (r : VlanRequest) (ports : List UInt16) : List Call :=
  r.records.flatMap fun record => ports.map (.odmPortVttEntryAdd · record.1 record.2)

/-- What a VLAN request asks for, by its mode. -/
def vlanModeCalls (r : VlanRequest) (ports : List UInt16) : List Call :=
  if r.mode = 1 then tagCalls r ports
  else if r.mode = 2 then tagCalls r ports ++ recordCalls r ports
  else ports.map (.odmPortVlanModeSet · r.mode)

/-- The checks in front of the calls. -/
def vlanChecks (env : SetEnv) (r : VlanRequest) (ports : List UInt16) : Bool :=
  if r.mode = 0 then true
  else if r.mode = 1 then env.tables.dalVttNum.toNat + tagEntries env ports ≤ shivaMaxVlanTrans
  else if r.mode = 2 then
    checkRecords (r.defaultTag &&& 0xFFF) [] r.records &&
      portFactor ports * r.records.length ≤ shivaMaxVlanTrans
  else false

def eoplSetOnuVlan20 (env : SetEnv) (r : VlanRequest) (portInstance20 : UInt8) (s : σ) :
    Outcome σ :=
  let ports := ports20 portInstance20
  if portInstance20 = 200 then answered s none
  else if !vlanChecks env r ports then answered s (some oamSetNoResource)
  else if r.mode = 0 then lastCounts layer wordOk 0 s (vlanModeCalls r ports)
  else firstCounts layer wordOk s (vlanModeCalls r ports)

end Outcomes

end Opconn.Oam.Ctc.Setting
