import Opconn.Lib.Runs
import Opconn.Lib.WordBits
import Mathlib.Data.List.Range
import Mathlib.Logic.Function.Basic

/-!
# Alarms

`oam_alarm.c` keeps for every class of alarms a word of enable bits and a word of state
bits, for the Ethernet ports one of each for every port.  The OLT sets and reads the enable
bits; a thread polls the ports and the optical module, and reports an alarm when what it
finds is not what the state bit says.
-/

namespace Opconn.Oam.Alarm

open Runs WordBits

/-- The builds of `oam_alarm.h`. -/
inductive Board where
  | onu1Port
  | others
deriving DecidableEq, Repr

/-- `NUMBER_OF_PORTS`. -/
def Board.numberOfPorts : Board → Nat
  | .onu1Port => 1
  | .others => 4

/-! ### Alarm ids -/

def alarmOnuBase : Nat := 0x0000
def alarmPonIfBase : Nat := 0x0100
def alarmCardBase : Nat := 0x0200
def alarmEthPortBase : Nat := 0x0300
def alarmPotsBase : Nat := 0x0400
def alarmE1Base : Nat := 0x0500

def alarmRxPowerHigh : Nat := 0x0101
def warningTempLow : Nat := 0x0114
def alarmEthportAutoneg : Nat := 0x0301
def alarmEthportLos : Nat := 0x0302
def alarmEthportFailure : Nat := 0x0303
def alarmEthportLdp : Nat := 0x0304

/-- `alarm_id & ALARM_OBJ_TYPE_MASK`. -/
def objType (alarmId : BitVec 16) : Nat := (alarmId &&& 0xff00).toNat

/-- `alarm_id & ALARM_INSTANCE_TYPE_MASK`. -/
def instanceType (alarmId : BitVec 16) : Nat := (alarmId &&& 0x00ff).toNat

/-- `CTC_STACK_alarm_admin_config_t`. -/
inductive AdminConfig where
  | disabled
  | enabled
deriving DecidableEq, Repr

/-- The alarm states of a report, `ALARM_SIGNAL` and `ALARM_SIGNAL_RECOVER`. -/
inductive AlarmState where
  | raised
  | cleared
deriving DecidableEq, Repr

/-- A link, loop or negotiation state that is taken over as an alarm state. -/
def AlarmState.ofBool : Bool → AlarmState
  | false => .raised
  | true => .cleared

/-- The value of `alarmState`, as it is ORed into a word. -/
def AlarmState.bit : AlarmState → BitVec 32
  | .raised => flag 32 false
  | .cleared => flag 32 true

/-- `alarm_thr_t`. -/
structure AlarmThr where
  setAlarmThreshold : BitVec 32
  clearAlarmThreshold : BitVec 32
deriving DecidableEq

/-- `alarm_report_t`.  A report of an Ethernet port has no `alarmInfo`. -/
structure AlarmReport where
  objectType : Nat
  instanceNum : BitVec 32
  alarmId : Nat
  alarmState : AlarmState
  alarmInfo : Option (BitVec 32)
deriving DecidableEq

/-- `CTC_OBJ_PORT` and `CTC_OBJ_PON_IF`. -/
def ctcObjPort : Nat := 0x0001
def ctcObjPonIf : Nat := 0x0004

/-- The globals of `oam_alarm.c`, the `count` of `link_state_and_loop_alarm`, and the reports
that `eopl_ctc_alarm_report` has sent, oldest first. -/
structure Alarms where
  ethState : Nat → BitVec 32
  ponState : BitVec 32
  ethEnable : Nat → BitVec 32
  onuEnable : BitVec 32
  ponEnable : BitVec 32
  opticalThr : Nat → AlarmThr
  count : Nat
  sent : List AlarmReport

/-- The initialisers: high alarms, at the even places, start with thresholds no 16 bit value
comes to. -/
def Alarms.start : Alarms where
  ethState _ := 0xffffffff
  ponState := 0xffffffff
  ethEnable _ := 0xffff
  onuEnable := 0
  ponEnable := 0
  opticalThr i := if i % 2 = 0 then ⟨0xffffffff, 0⟩ else ⟨0, 0xffffffff⟩
  count := 0
  sent := []

/-! ### Settings -/

/-- `CTC_STACK_alarm_get_state`; `none` where it returns `ERROR`. -/
def ctcStackAlarmGetState (s : Alarms) (alarmId : BitVec 16) (portNum : Nat) :
    Option AdminConfig :=
  let type := instanceType alarmId
  let enable : Option (BitVec 32) :=
    if objType alarmId = alarmOnuBase then some (get s.onuEnable type)
    else if objType alarmId = alarmPonIfBase then some (get s.ponEnable type)
    else if objType alarmId = alarmEthPortBase then some (get (s.ethEnable (portNum - 1)) type)
    else none
  enable.map fun enable => if enable = 0 then .disabled else .enabled

/-- `CTC_STACK_alarm_set_state`. -/
def ctcStackAlarmSetState (s : Alarms) (alarmId : BitVec 16) (portNum : Nat)
    (admin : AdminConfig) : Alarms :=
  let type := instanceType alarmId
  let enable := flag 32 (admin ≠ .disabled)
  if objType alarmId = alarmOnuBase then
    { s with onuEnable := config s.onuEnable type enable }
  else if objType alarmId = alarmPonIfBase then
    { s with ponEnable := config s.ponEnable type enable }
  else if objType alarmId = alarmEthPortBase then
    let port := portNum - 1
    let word := config (s.ethEnable port) (type - 1) enable
    { s with ethEnable := Function.update s.ethEnable port word }
  else s

/-- `CTC_STACK_alarm_set_thr` with `set_optical_thr`: only an optical alarm has thresholds. -/
def ctcStackAlarmSetThr (s : Alarms) (alarmId : BitVec 16) (risingThr fallingThr : BitVec 32) :
    Alarms :=
  if alarmRxPowerHigh ≤ alarmId.toNat ∧ alarmId.toNat ≤ warningTempLow then
    let i := alarmId.toNat - alarmRxPowerHigh
    { s with opticalThr := Function.update s.opticalThr i ⟨risingThr, fallingThr⟩ }
  else s

/-! ### Judging -/

/-- `oam_alarm`: `eopl_ctc_alarm_report` builds the event and sends it. -/
def oamAlarm (s : Alarms) (info : AlarmReport) : Alarms := { s with sent := s.sent ++ [info] }

/-- `eth_judge_and_alarm`. -/
def ethJudgeAndAlarm (s : Alarms) (info : AlarmReport) : Alarms :=
  let type := info.alarmId % 256
  let port := info.instanceNum.toNat % 256 - 1
  let oldState := get (s.ethState port) (type - 1)
  if info.alarmState.bit ≠ oldState then
    let word := config (s.ethState port) (type - 1) info.alarmState.bit
    { oamAlarm s info with ethState := Function.update s.ethState port word }
  else s

/-- `pon_judge_and_alarm`. -/
def ponJudgeAndAlarm (s : Alarms) (info : AlarmReport) : Alarms :=
  let type := info.alarmId % 256
  let oldState := get s.ponState type
  if info.alarmState.bit ≠ oldState then
    { oamAlarm s info with ponState := config s.ponState type info.alarmState.bit }
  else s

/-! ### Ports -/

/-- What `link_state_and_loop_alarm` reads for a port: the link state for the negotiation
alarm and for the loss of signal, `none` when `odmPortLinkStateGet` fails; what the PHY says,
`none` when a read fails; and `rstpwarningstate` at each of its two reads. -/
structure PortReading where
  autonegLink : Option Bool
  adminState : Option Nat
  autonegState : Option Bool
  losLink : Option Bool
  losLoop : Bool
  ldpLoop : Bool

/-- `LDP_RESOLVE_TIME`. -/
def ldpResolveTime : Nat := 9 / 3

/-- The state that the `switch` of `link_state_and_loop_alarm` judges alarm `i` by. -/
def portAlarmState (count : Nat) (r : PortReading) (i : Nat) : Option AlarmState :=
  if i = alarmEthportAutoneg then
    -- both reads leave the initial 0 when they fail
    if r.autonegLink.getD false = true ∧ r.adminState.getD 0 = 2 then
      r.autonegState.map .ofBool
    else none
  else if i = alarmEthportLos then
    if r.losLoop = false then r.losLink.map .ofBool else none
  else if i = alarmEthportLdp then
    if count = ldpResolveTime - 1 then some (.ofBool (!r.ldpLoop)) else none
  else none

/-- The test at the head of the loop of `link_state_and_loop_alarm`. -/
def ethPolled (s : Alarms) (port i : Nat) : Prop :=
  get (s.ethEnable port) (i - alarmEthportAutoneg) ≠ 0

instance (s : Alarms) (port i : Nat) : Decidable (ethPolled s port i) :=
  inferInstanceAs (Decidable (_ ≠ _))

/-- `instanceNum` of a port, `(i+1) | ETH_TYPE << 24`. -/
def portInstance (port : Nat) : BitVec 32 := BitVec.ofNat 32 (port + 1) ||| 1#32 <<< 24

/-- One round of the loop of `link_state_and_loop_alarm`. -/
def portAlarm (port : Nat) (r : PortReading) (s : Alarms) (i : Nat) : Alarms :=
  if ethPolled s port i then
    match portAlarmState s.count r i with
    | some state => ethJudgeAndAlarm s ⟨ctcObjPort, portInstance port, i, state, none⟩
    | none => s
  else s

/-- `ALARM_ETHPORT_AUTONEG` to `ALARM_ETHPORT_LDP`. -/
def ethAlarmIds : List Nat :=
  List.range' alarmEthportAutoneg (alarmEthportLdp + 1 - alarmEthportAutoneg)

/-- `link_state_and_loop_alarm`. -/
def linkStateAndLoopAlarm (s : Alarms) (port : Nat) (r : PortReading) : Alarms :=
  let s := ethAlarmIds.foldl (portAlarm port r) s
  { s with count := (s.count + 1) % ldpResolveTime }

/-- `port_alarm_report`. -/
def portAlarmReport (b : Board) (readings : Nat → PortReading) (s : Alarms) : Alarms :=
  (List.range b.numberOfPorts).foldl (fun s i => linkStateAndLoopAlarm s i (readings i)) s

/-! ### Optical module -/

/-- What `stub_get_onu_optical_transiver_…` reads. -/
inductive OpticalParam where
  | rxPower
  | txPower
  | txBias
  | vcc
  | temp
deriving DecidableEq, Repr

/-- The `switch` of `optical_alarm`: a high and a low alarm and as many warnings for each
value, in the order of `pon_alarm_t`. -/
def opticalParam (alarmId : Nat) : OpticalParam :=
  match (alarmId - alarmRxPowerHigh) / 2 % 5 with
  | 0 => .rxPower
  | 1 => .txPower
  | 2 => .txBias
  | 3 => .vcc
  | _ => .temp

/-- The comparisons of `optical_alarm`: a high alarm has an odd id.  `none` is its `continue`. -/
def opticalState (alarmId : Nat) (localValue : BitVec 32) (thr : AlarmThr) : Option AlarmState :=
  if alarmId % 2 = 1 then
    if thr.setAlarmThreshold ≤ localValue then some .raised
    else if localValue < thr.clearAlarmThreshold then some .cleared
    else none
  else
    if localValue ≤ thr.setAlarmThreshold then some .raised
    else if thr.clearAlarmThreshold < localValue then some .cleared
    else none

/-- The test at the head of the loop of `optical_alarm`. -/
def ponPolled (s : Alarms) (alarmId : Nat) : Prop := get s.ponEnable (alarmId % 256) ≠ 0

instance (s : Alarms) (alarmId : Nat) : Decidable (ponPolled s alarmId) :=
  inferInstanceAs (Decidable (_ ≠ _))

/-- What the optical module answers in the round for each alarm. -/
abbrev OpticalReading := Nat → OpticalParam → BitVec 16

/-- `local_value` in the round for `alarmId`. -/
def localValue (r : OpticalReading) (alarmId : Nat) : BitVec 32 :=
  (r alarmId (opticalParam alarmId)).setWidth 32

/-- One round of the loop of `optical_alarm`. -/
def opticalRound (r : OpticalReading) (s : Alarms) (alarmId : Nat) : Alarms :=
  if ponPolled s alarmId then
    let thr := s.opticalThr (alarmId - alarmRxPowerHigh)
    match opticalState alarmId (localValue r alarmId) thr with
    | some curState =>
      ponJudgeAndAlarm s ⟨ctcObjPonIf, 0, alarmId, curState, some (localValue r alarmId)⟩
    | none => s
  else s

/-- `ALARM_RX_POWER_HIGH` to `WARNING_TEMP_LOW`. -/
def opticalAlarmIds : List Nat :=
  List.range' alarmRxPowerHigh (warningTempLow + 1 - alarmRxPowerHigh)

/-- `pon_alarm_report` with `optical_alarm`. -/
def ponAlarmReport (r : OpticalReading) (s : Alarms) : Alarms :=
  opticalAlarmIds.foldl (opticalRound r) s

end Opconn.Oam.Alarm
