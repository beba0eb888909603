import Opconn.Oam.SetHandlers

/-!
# Indications of SET requests

The indication in a response should be OK exactly when the operation succeeded on every port and
every entry that the request addresses.  Most handlers keep the last result only, some keep none,
and only those that stop at a failure tell about all of it.
-/

namespace Opconn.Oam.Ctc.Setting

open Calls Multicast
open Rules (oamSetOk oamSetBadParameters oamSetNoResource)

/-! ### Requests -/

/-- A request for a port instance of 2.0. -/
inductive Set20 where
  | ethPortpause (action : UInt8)
  | ethPolicing (operation : UInt8) (cir cbs ebs : UInt32)
  | ethDspolicing (operation : UInt8) (cir pir : UInt32)
  | ethAdmincontrol (action : UInt32)
  | ethAtuorestart
  | ethAutonegadmin (action : UInt8)
  | mcastGroupMax (max : UInt8)
  | mcastTagstrip (tagstriped : UInt32)
  | mcastVlan (width operation : UInt8) (vidAt : Nat → UInt16)
  | mcastControl (r : ControlRequest)
  | vlan (r : VlanRequest)

/-- A request for a port instance of 2.1. -/
inductive Set21 where
  | ethPortPause (action : UInt8)
  | ethPortUsPolicing (operation : UInt8) (cir cbs ebs : UInt32)
  | ethPortDsPolicing (operation : UInt8) (cir pir : UInt32)
  | ethAdmincontrol (action : UInt32)
  | ethAtuorestart
  | ethAutonegadmin (action : UInt8)
  | mcastGroupMax (max : UInt8)
  | portLoopDetect (state : UInt32)
  | alarmAdminState (alarmId : UInt16) (state : UInt32) (leaf : UInt16)
  | alarmThreshold (alarmId : UInt16) (raising falling : UInt32) (leaf : UInt16)
  | mcastTagStrip (tagstriped number : UInt8) (entryAt : Nat → UInt16 × UInt16)
  | mcastVlan (width operation : UInt8) (vidAt : Nat → UInt16)
  | mcastControl (r : ControlRequest)

inductive SetRequest where
  | v20 (portInstance20 : UInt8) (set : Set20)
  | v21 (value : UInt32) (set : Set21)

section Handle

variable {σ : Type} (env : SetEnv) (layer : σ → Call → σ × UInt32) (s : σ)

def handle20 (inst : UInt8) : Set20 → Outcome σ
  | .ethPortpause action => eoplSetOnuEthPortpause20 layer action inst s
  | .ethPolicing operation cir cbs ebs =>
    eoplSetOnuEthPolicing20 layer operation cir cbs ebs inst s
  | .ethDspolicing operation cir pir => eoplSetOnuEthDspolicing20 layer operation cir pir inst s
  | .ethAdmincontrol action => eoplSetOnuEthAdmincontrol20 layer action inst s
  | .ethAtuorestart => eoplSetOnuEthAtuorestart20 layer inst s
  | .ethAutonegadmin action => eoplSetOnuEthAutonegadmin20 layer action inst s
  | .mcastGroupMax max => eoplSetOnuMcastGroupMax20 layer max inst s
  | .mcastTagstrip tagstriped => eoplSetOnuMcastTagstrip20 layer tagstriped inst s
  | .mcastVlan width operation vidAt =>
    eoplSetOnuMcastVlan20 layer env width operation vidAt inst s
  | .mcastControl r => eoplSetOnuMcastControl20 layer env r s
  | .vlan r => eoplSetOnuVlan20 layer env r inst s

def handle21 (value : UInt32) : Set21 → Outcome σ
  | .ethPortPause action => eoplSetOnuEthPortPause layer action value s
  | .ethPortUsPolicing operation cir cbs ebs =>
    eoplSetOnuEthPortUsPolicing layer operation cir cbs ebs value s
  | .ethPortDsPolicing operation cir pir =>
    eoplSetOnuEthPortDsPolicing layer operation cir pir value s
  | .ethAdmincontrol action => eoplSetOnuEthAdmincontrol layer action value s
  | .ethAtuorestart => eoplSetOnuEthAtuorestart layer value s
  | .ethAutonegadmin action => eoplSetOnuEthAutonegadmin layer action value s
  | .mcastGroupMax max => eoplSetOnuMcastGroupMax layer max value s
  | .portLoopDetect state => eoplSetPortLoopDetect layer env state value s
  | .alarmAdminState alarmId state leaf =>
    eoplSetOnuAlarmAdminState layer alarmId state leaf value s
  | .alarmThreshold alarmId raising falling leaf =>
    eoplSetOnuAlarmThreshold layer alarmId raising falling leaf value s
  | .mcastTagStrip tagstriped number entryAt =>
    eoplSetOnuMcastTagStrip layer env tagstriped number entryAt value s
  | .mcastVlan width operation vidAt => eoplSetOnuMcastVlan layer env width operation vidAt value s
  | .mcastControl r => eoplSetOnuMcastControl layer env r s

def handle : SetRequest → Outcome σ
  | .v20 inst set => handle20 env layer s inst set
  | .v21 value set => handle21 env layer s value set

end Handle

/-! ### What a request asks for -/

/-- The operation of a setter on one port. -/
def Set20.onPort : Set20 → Option (UInt16 → Call)
  | .ethPortpause action => some (.odmPortFlowCtrolEnableSet · action.toUInt32)
  | .ethPolicing operation cir cbs ebs => some (.odmPortUsPolicingSet · operation
      (rate operation cir) (rate operation cbs) (rate operation ebs))
  | .ethDspolicing operation cir pir => some (.odmPortDsPolicingSet · operation
      (rate operation cir) (rate operation pir))
  | .ethAdmincontrol action => some (.odmPortAdminSet · (adminAction action))
  | .ethAtuorestart => some .dalPhyAutonegRestart
  | .ethAutonegadmin action =>
    some (.odmPortAutoEnableSet · (adminAction action.toUInt32).toUInt8)
  | .mcastGroupMax max => some (.odmMulticastGroupMaxNumSet · max)
  | .mcastTagstrip tagstriped => some (.odmMulticastTagstripSet · tagstriped)
  | .mcastVlan .. | .mcastControl _ | .vlan _ => none

def Set21.onPort : Set21 → Option (UInt16 → Call)
  | .ethPortPause action => some (.odmPortFlowCtrolEnableSet · action.toUInt32)
  | .ethPortUsPolicing operation cir cbs ebs => some (.odmPortUsPolicingSet · operation
      (rate operation cir) (rate operation cbs) (rate operation ebs))
  | .ethPortDsPolicing operation cir pir => some (.odmPortDsPolicingSet · operation
      (rate operation cir) (rate operation pir))
  | .ethAdmincontrol action => some (.odmPortAdminSet · (adminAction action))
  | .ethAtuorestart => some .dalPhyAutonegRestart
  | .ethAutonegadmin action =>
    some (.odmPortAutoEnableSet · (adminAction action.toUInt32).toUInt8)
  | .mcastGroupMax max => some (.odmMulticastGroupMaxNumSet · max)
  | .portLoopDetect state => some (.odmLoopDetectionSet · (state - 1))
  | _ => none

/-- The ports a tag operation is for, and each entry at each of them. -/
def tagStripAsked (tagstriped number : UInt8) (entryAt : Nat → UInt16 × UInt16)
    (ports : List UInt16) : List Call :=
  ports.map (.odmMulticastTagstripSet · tagstriped.toUInt32) ++
    if tagstriped = 2 then
      (List.range number.toNat).flatMap fun i => ports.map
        (.odmMulticastTagTranslationAdd · (entryAt i).1 (entryAt i).2)
    else []

def controlAsked (r : ControlRequest) : List Call :=
  if r.width = 1 then [.odmMulticastControlEntryClear] else controlCalls r

/-- The operations on all addressed ports and entries. -/
def SetRequest.asked : SetRequest → List Call
  | .v20 inst (.mcastVlan width operation vidAt) => vlanCalls width operation vidAt (ports20 inst)
  | .v20 _ (.mcastControl r) => controlAsked r
  | .v20 inst (.vlan r) => vlanModeCalls r (ports20 inst)
  | .v20 inst set => (set.onPort.map (ports20 inst).map).getD []
  | .v21 value (.alarmAdminState alarmId state leaf) =>
    (alarmPorts leaf value).map (.alarmSetState alarmId · state)
  | .v21 value (.alarmThreshold alarmId raising falling leaf) =>
    (alarmPorts leaf value).map (.alarmSetThr alarmId · raising falling)
  | .v21 value (.mcastTagStrip tagstriped number entryAt) =>
    tagStripAsked tagstriped number entryAt (ports21 value)
  | .v21 value (.mcastVlan width operation vidAt) =>
    vlanCalls width operation vidAt (ports21 value)
  | .v21 _ (.mcastControl r) => controlAsked r
  | .v21 value set => (set.onPort.map (ports21 value).map).getD []

section Pattern

variable {σ : Type} (env : SetEnv) (layer : σ → Call → σ × UInt32) (s : σ)

/-- What the layer answers to calls that are all made. -/
def answers (calls : List Call) : List UInt32 := (each layer s calls).2.map Prod.snd

end Pattern

/-! ### The ways to fold results -/

section Folds

variable {σ : Type} {layer : σ → Call → σ × UInt32} {s : σ}

theorem indicationOf_eq_ok_iff (ok : Bool) : indicationOf ok = oamSetOk ↔ ok = true := by
  cases ok <;> decide

theorem ports20_ne_nil (inst : UInt8) : ports20 inst ≠ [] := by
  rw [ports20]
  split <;> exact List.cons_ne_nil _ _

theorem vlanModeCalls_ne_nil (r : VlanRequest) (inst : UInt8) :
    vlanModeCalls r (ports20 inst) ≠ [] := by
  have hports := ports20_ne_nil inst
  rw [vlanModeCalls, tagCalls]
  cases hlist : ports20 inst with
  | nil => exact absurd hlist hports
  | cons first rest =>
    split
    · simp
    · split <;> simp

end Folds

/-! ### Failures that are not told -/

/-- An empty environment. -/
def quietEnv : SetEnv where
  unset := 0
  vttResource := fun _ => (0, 0)
  tables :=
    { ctcControlType := 1
      hostPortIds := []
      vlans := ⟨fun _ => none, fun _ _ => false, fun _ _ => false, false⟩
      dalVttNum := 0
      dalVlanTranslNum := fun _ => 0 }
  tagOper := fun _ => 0
  vlanModeAt := fun _ => 0

end Opconn.Oam.Ctc.Setting
