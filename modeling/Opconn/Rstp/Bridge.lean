import Opconn.Lib.Machines
import Opconn.Rstp.RoleSelection

/-!
# The bridge

`STP_stpm_update` lets the machines of the bridge work until none of them hops.  It runs at the start,
after every packet, every second and after a change of the configuration.
-/

namespace Opconn.Rstp

/-! ### The machines -/

/-- The machines of a port, in the order of its list. -/
inductive PortMachine where
  | transmit
  | portrcv
  | bridect
  | p2p
  | topoch
  | migrate
  | pcost
  | info
  | roletrns
  | sttrans
deriving DecidableEq, Repr

/-- A machine of the bridge. -/
inductive MachineRef where
  | rolesel
  | port (i : Nat) (m : PortMachine)
deriving DecidableEq, Repr

/-- The list `machines` of a port. -/
def portMachines : List PortMachine :=
  [.transmit, .portrcv, .bridect, .p2p, .topoch, .migrate, .pcost, .info, .roletrns, .sttrans]

/-- The machines in the order of `_stp_stpm_iterate_machines`. -/
def machinesOf (indices : List Nat) : List MachineRef :=
  .rolesel :: indices.flatMap (fun i => portMachines.map (.port i))

/-- The machines of a bridge. -/
def Stpm.machines (s : Stpm) : List MachineRef := machinesOf (s.ports.map Port.portIndex)

/-- `STP_check_condition` of a machine of a port: the port as the check leaves it, and whether the
machine has hopped. -/
def portCheck (s : Stpm) (m : PortMachine) (p : Port) : Port × Bool :=
  match m with
  | .transmit =>
    match transmitNext p with
    | some st => ({ p with transmit := st }, true)
    | none => ({ p with newInfo := p.newInfo && !transmitDrops p }, false)
  | .portrcv =>
    match portrcvNext p with
    | some st => ({ p with portrcv := st }, true)
    | none => (p, false)
  | .bridect =>
    match bridectNext p with
    | some st => ({ p with bridect := st }, true)
    | none => (p, false)
  | .p2p =>
    match p2pNext p with
    | some st => ({ p with p2p := st }, true)
    | none => (p, false)
  | .topoch =>
    match topochNext p with
    | some st => ({ p with topoch := st }, true)
    | none => (p, false)
  | .migrate =>
    match migrateNext s p with
    | some st => ({ p with migrate := st }, true)
    | none => (p, false)
  | .pcost =>
    match pcostNext p with
    | some st => ({ p with pcost := st }, true)
    | none => (p, false)
  | .info =>
    match infoNext p with
    | some st => ({ p with info := st }, true)
    | none => (p, false)
  | .roletrns =>
    match roletrnsNext s (nonStpPrelude p) with
    | some st => ({ nonStpPrelude p with roletrns := st }, true)
    | none => (nonStpPrelude p, false)
  | .sttrans =>
    match sttransNext p with
    | some st => ({ p with sttrans := st }, true)
    | none => (p, false)

/-- What a machine of a port does to the port on entering its state. -/
def portEnter (s : Stpm) (m : PortMachine) (p : Port) : Port :=
  match m with
  | .transmit => transmitEnterState s p.transmit p
  | .portrcv => portrcvEnterState p.portrcv p
  | .bridect => bridectEnterState p.bridect p
  | .p2p => p2pEnterState p.p2p p
  | .topoch => topochEnterState s p.topoch p
  | .migrate => migrateEnterState s p.migrate p
  | .pcost => pcostEnterState p.pcost p
  | .info => infoEnterState s p.info p
  | .roletrns => roletrnsEnterState s p.roletrns p
  | .sttrans => sttransEnterState p.sttrans p

/-- What a machine of the port `p` does to the ports of the bridge on entering its state. -/
def portTree (m : PortMachine) (p : Port) (q : Port) : Port :=
  match m with
  | .topoch => topochTree p.portIndex p.topoch q
  | .roletrns => roletrnsTree p.roletrns q
  | _ => q

/-- `STP_check_condition`. -/
def checkCondition (s : Stpm) (m : MachineRef) : Stpm × Bool :=
  match m with
  | .rolesel =>
    match roleselNext s with
    | some st => ({ s with rolesel := st }, true)
    | none => (s, false)
  | .port i m =>
    match s.port? i with
    | some p => (s.modifyPort i (fun q => (portCheck s m q).1), (portCheck s m p).2)
    | none => (s, false)

/-- `concreteEnterState`. -/
def enterState (s : Stpm) (m : MachineRef) : Stpm :=
  match m with
  | .rolesel => roleselEnterState s
  | .port i m =>
    match s.port? i with
    | some p => (s.mapPorts (portTree m p)).modifyPort i (portEnter s m)
    | none => s

/-- A round of `STP_stpm_update` with `STP_change_state`: at most one machine has `changeState`. -/
def updateRound : Stpm × Option MachineRef → (Stpm × Option MachineRef) ⊕ Stpm :=
  Machines.round Stpm.machines checkCondition enterState

/-- `STP_stpm_update`, for the fuel given. -/
def stpmUpdate (fuel : Nat) (s : Stpm) : Option Stpm := Loop.run updateRound fuel (s, none)

/-- `STP_stpm_update` takes `s` to `s'`. -/
def Updates (s s' : Stpm) : Prop := Machines.Drives Stpm.machines checkCondition enterState s s'

theorem updates_iff {s s' : Stpm} : Updates s s' ↔ ∃ fuel, stpmUpdate fuel s = some s' := Iff.rfl

/-! ### Creation and start -/

/-- `NUMBER_OF_PORTS`. -/
def numberOfPorts : Nat := 4

/-- `DEF_PORT_PRIO`. -/
def defPortPrio : UInt16 := 128

/-- Memory from `calloc`. -/
def PrioVector.zero : PrioVector :=
  ⟨⟨0, .replicate 6 0⟩, 0, ⟨0, .replicate 6 0⟩, 0, 0⟩

/-- `STP_port_create`, with the values of `STP_OUT_get_init_port_cfg`. -/
def portCreate (brTimes : TimeValues) (i : Nat) : Port where
  portIndex := i
  portId := defPortPrio * 256 + UInt16.ofNat i
  adminPCost := adminPortPathCostAuto
  adminPointToPointMac := .auto
  adminEdge := false
  adminNonStp := true
  fullDuplex := true
  info := .begin
  roletrns := .begin
  sttrans := .begin
  topoch := .begin
  migrate := .begin
  transmit := .begin
  p2p := .begin
  portrcv := .begin
  bridect := .begin
  pcost := .begin
  timers := ⟨0, 0, 0, 0, 0, 0, 0, 0, 0⟩
  agreed := false
  designPrio := .zero
  designTimes := ⟨0, 0, 0, 0⟩
  forward := false
  forwarding := false
  infoIs := .mine
  learn := false
  learning := false
  mcheck := false
  msgPrio := .zero
  msgTimes := ⟨0, 0, 0, 0⟩
  newInfo := false
  operEdge := false
  portEnabled := false
  portPrio := .zero
  portTimes := brTimes
  proposed := false
  proposing := false
  rcvdBpdu := false
  rcvdMsg := .superiorDesignateMsg
  rcvdRSTP := false
  rcvdSTP := false
  rcvdTc := false
  rcvdTcAck := false
  rcvdTcn := false
  reRoot := false
  reselect := false
  role := .disabledPort
  selected := false
  selectedRole := .disabledPort
  sendRSTP := false
  sync := false
  synced := false
  tcAck := false
  tcProp := false
  fdbFlush := false
  agree := false
  disputed := false
  rcvdInfo := .superiorDesignatedInfo
  updtInfo := false
  autoEdge := false
  msgBpduVersion := 0
  msgBpduType := 0
  msgPortRole := 0
  msgFlags := 0
  operPCost := 0
  operSpeed := 0
  usedSpeed := 0
  p2pRecompute := false
  operPointToPointMac := false
  hardware := .disabled
  out := []

/-- `stp_in_stpm_create`: a bridge with the ports of a bitmap. -/
def stpmCreate (prio : UInt16) (maxAge helloTime forwardDelay : UInt16) (forceVersion : UInt32)
    (mac : Vector UInt8 6) (portBmp : Nat → Bool) : Stpm where
  ports := (((List.range' 1 numberOfPorts).filter portBmp).map
    (portCreate ⟨0, maxAge, forwardDelay, helloTime⟩)).reverse
  rolesel := .begin
  forceVersion := forceVersion
  brId := ⟨prio, mac⟩
  brTimes := ⟨0, maxAge, forwardDelay, helloTime⟩
  rootPortId := 0
  rootPrio := .zero
  rootTimes := ⟨0, 0, 0, 0⟩
  adminState := false
  rstpDevMac := mac

/-- `STP_port_init`. -/
def portInit (s : Stpm) (checkLink : Bool) (p : Port) : Port :=
  { p with
    designPrio := if checkLink then createVector s.brId 0 s.brId p.portId p.portId else p.designPrio
    designTimes := if checkLink then s.rootTimes else p.designTimes
    timers := ⟨0, 0, 0, 0, 0, 0, 0, 0, 0⟩
    msgPortRole := rstpPortRoleUnkn
    selectedRole := .disabledPort
    sendRSTP := s.rstpVersion
    operSpeed := getPortOperSpeed
    p2pRecompute := true }

/-- `_stp_stpm_init_machine` of a machine of a port. -/
def initMachine (s : Stpm) (p : Port) (m : PortMachine) : Port :=
  match m with
  | .transmit => transmitEnterState s .begin { p with transmit := .begin }
  | .portrcv => portrcvEnterState .begin { p with portrcv := .begin }
  | .bridect => bridectEnterState .begin { p with bridect := .begin }
  | .p2p => p2pEnterState .begin { p with p2p := .begin }
  | .topoch => topochEnterState s .begin { p with topoch := .begin }
  | .migrate => migrateEnterState s .begin { p with migrate := .begin }
  | .pcost => pcostEnterState .begin { p with pcost := .begin }
  | .info => infoEnterState s .begin { p with info := .begin }
  | .roletrns => roletrnsEnterState s .begin { p with roletrns := .begin }
  | .sttrans => sttransEnterState .begin { p with sttrans := .begin }

/-- `_stp_stpm_init_machine` of all machines of a port. -/
def initMachines (s : Stpm) (p : Port) : Port := portMachines.foldl (initMachine s) p

/-- `STP_compute_bridge_id`. -/
def computeBridgeId (s : Stpm) : Stpm := { s with brId := { s.brId with addr := s.rstpDevMac } }

/-- `_stp_stpm_init_data`. -/
def stpmInitData (s : Stpm) : Stpm :=
  { s with
    rootPrio := ownVector s
    brTimes := { s.brTimes with messageAge := 0 }
    rootTimes := { s.brTimes with messageAge := 0 } }

/-- `STP_port_init` of all ports. -/
def initPorts (s : Stpm) : Stpm := s.mapPorts (portInit s true)

/-- `_stp_stpm_init_machine` of the machine of the bridge. -/
def initRolesel (s : Stpm) : Stpm := updtRoleDisableTree { s with rolesel := .begin }

/-- `STP_stpm_start` up to the update. -/
def initStpm (s : Stpm) : Stpm :=
  let t := initRolesel (initPorts (stpmInitData (computeBridgeId s)))
  t.mapPorts (initMachines t)

/-! ### What happens to a bridge -/

/-- `STP_stpm_one_second`, the timers of a port. -/
def tick (t : PortTimers) : PortTimers where
  fdWhile := t.fdWhile - 1
  helloWhen := t.helloWhen - 1
  mdelayWhile := t.mdelayWhile - 1
  rbWhile := t.rbWhile - 1
  rcvdInfoWhile := t.rcvdInfoWhile - 1
  rrWhile := t.rrWhile - 1
  tcWhile := t.tcWhile - 1
  txCount := t.txCount - 1
  edgeDelayWhile := t.edgeDelayWhile - 1

/-- `_stp_in_enable_port_on_stpm`. -/
def enablePortOnStpm (s : Stpm) (enable : Bool) (p : Port) : Port :=
  if p.portEnabled = enable then p else { portInit s false p with portEnabled := enable }

/-- `STP_IN_enable_port`: the addresses of a port that goes down are forgotten. -/
def enablePort (s : Stpm) (enable : Bool) (p : Port) : Port :=
  enablePortOnStpm s enable (if enable then p else { p with out := .flushLt :: p.out })

/-- `STP_stpm_one_second`, a port whose link is up or not. -/
def oneSecondPort (s : Stpm) (link : Bool) (p : Port) : Port :=
  let p := { p with timers := tick p.timers }
  if link = p.portEnabled then p else enablePort s link p

/-- `STP_IN_rx_bpdu`, the port before the update. -/
def rxBpduPort (s : Stpm) (bpdu : Bpdu) (p : Port) : Port :=
  infoRxBpdu s bpdu { enablePortOnStpm s true p with operEdge := false }

/-- `UID_STP_PORT_CFG_T`: the fields that the mask marks. -/
structure PortCfg where
  mcheck : Bool
  adminPortPathCost : Option UInt32
  portPriority : Option UInt8
  adminPoint2point : Option AdminP2P
  adminEdge : Option Bool
  adminNonStp : Option Bool
deriving DecidableEq, Repr

/-- `STP_IN_set_port_cfg`, a port before the update. -/
def setPortCfgPort (s : Stpm) (cfg : PortCfg) (p : Port) : Port :=
  { p with
    mcheck := p.mcheck || (cfg.mcheck && s.rstpVersion)
    adminPCost := cfg.adminPortPathCost.getD p.adminPCost
    portId := match cfg.portPriority with
      | some prio => prio.toUInt16 * 256 + UInt16.ofNat p.portIndex
      | none => p.portId
    adminPointToPointMac := cfg.adminPoint2point.getD p.adminPointToPointMac
    p2pRecompute := p.p2pRecompute || cfg.adminPoint2point.isSome
    adminEdge := cfg.adminEdge.getD p.adminEdge
    operEdge := cfg.adminEdge.getD p.operEdge
    adminNonStp := cfg.adminNonStp.getD p.adminNonStp
    reselect := true
    selected := false }

/-- `UID_STP_CFG_T`: the fields that the mask marks. -/
structure StpCfg where
  stpEnabled : Option Bool
  bridgePriority : Option Nat
  maxAge : Option Nat
  helloTime : Option Nat
  forwardDelay : Option Nat
  forceVersion : Option UInt32
deriving DecidableEq, Repr

/-- `RSTP_ERRORS`, as far as `STP_IN_stpm_set_cfg` returns them. -/
inductive RstpError where
  | largeBridgePriority
  | smallHelloTime
  | largeHelloTime
  | smallMaxAge
  | largeMaxAge
  | smallForwardDelay
  | largeForwardDelay
  | forwardDelayAndMaxAgeAreInconsistent
  | helloTimeAndMaxAgeAreInconsistent
deriving DecidableEq, Repr

/-- `_check_stpm_config`. -/
def checkStpmConfig (bridgePriority maxAge helloTime forwardDelay : Nat) : Option RstpError :=
  if 61440 < bridgePriority then some .largeBridgePriority
  else if helloTime < 1 then some .smallHelloTime
  else if 10 < helloTime then some .largeHelloTime
  else if maxAge < 6 then some .smallMaxAge
  else if 40 < maxAge then some .largeMaxAge
  else if forwardDelay < 4 then some .smallForwardDelay
  else if 30 < forwardDelay then some .largeForwardDelay
  else if 2 * (forwardDelay - 1) < maxAge then some .forwardDelayAndMaxAgeAreInconsistent
  else if maxAge < 2 * (helloTime + 1) then some .helloTimeAndMaxAgeAreInconsistent
  else none

/-- The bridge priority, the times and the version of a request, where it leaves them out those that
the bridge has. -/
def mergedCfg (s : Stpm) (cfg : StpCfg) : Nat × Nat × Nat × Nat × UInt32 :=
  (cfg.bridgePriority.getD s.brId.prio.toNat, cfg.maxAge.getD s.brTimes.maxAge.toNat,
    cfg.helloTime.getD s.brTimes.helloTime.toNat, cfg.forwardDelay.getD s.brTimes.forwardDelay.toNat,
    cfg.forceVersion.getD s.forceVersion)

/-- `STP_IN_stpm_set_cfg` stores what it has checked. -/
def storeCfg (s : Stpm) (cfg : StpCfg) : Stpm :=
  let (prio, maxAge, hello, delay, version) := mergedCfg s cfg
  { s with
    brId := { s.brId with prio := UInt16.ofNat prio }
    brTimes :=
      { s.brTimes with
        maxAge := UInt16.ofNat maxAge
        helloTime := UInt16.ofNat hello
        forwardDelay := UInt16.ofNat delay }
    forceVersion := version }

/-- `_check_stpm_config` of what a request comes to. -/
def cfgError (s : Stpm) (cfg : StpCfg) : Option RstpError :=
  let (prio, maxAge, hello, delay, _) := mergedCfg s cfg
  checkStpmConfig prio maxAge hello delay

/-- `STP_stpm_update_after_bridge_management`. -/
def updateAfterBridgeManagement (s : Stpm) : Stpm :=
  s.mapPorts (fun p => { p with reselect := true, selected := false })

/-- An event at the bridge.  The hardware may find a line full duplex or not at any time. -/
inductive Event where
  | stpmSetCfg (cfg : StpCfg)
  | setPortCfg (indices : List Nat) (cfg : PortCfg)
  | oneSecond (links : Nat → Bool)
  | rxBpdu (i : Nat) (bpdu : Bpdu)
  | changedPortSpeed (i : Nat) (speed : UInt32)
  | changedPortDuplex (i : Nat) (fullDuplex : Bool)
  | duplex (i : Nat) (fullDuplex : Bool)

/-- What an event makes of the bridge, and whether the machines are let work then.  A request that
disables the bridge does nothing else, since the mask that it leaves is empty. -/
def Event.handle (s : Stpm) : Event → Stpm × Bool
  | .stpmSetCfg cfg =>
    if (cfgError s cfg).isSome then (s, false)
    else if cfg.stpEnabled = some false then ({ s with adminState := false }, false)
    else if cfg.stpEnabled = some true ∧ s.adminState = false then
      if s.ports = [] then ({ storeCfg s cfg with adminState := true }, false)
      else ({ initStpm (storeCfg s cfg) with adminState := true }, true)
    else if s.adminState then (updateAfterBridgeManagement (storeCfg s cfg), false)
    else (storeCfg s cfg, false)
  | .setPortCfg indices cfg =>
    (s.mapPorts (fun p => if p.portIndex ∈ indices then setPortCfgPort s cfg p else p), true)
  | .oneSecond links =>
    if s.adminState then (s.mapPorts (fun p => oneSecondPort s (links p.portIndex) p), true)
    else (s, false)
  | .rxBpdu i bpdu =>
    if s.adminState = false then (s, false)
    else if (s.port? i).isNone then (s, false)
    else (s.modifyPort i (rxBpduPort s bpdu), true)
  | .changedPortSpeed i speed =>
    if s.adminState then
      (s.modifyPort i (fun p => { p with operSpeed := speed, reselect := true, selected := false }),
        false)
    else (s, false)
  | .changedPortDuplex i fullDuplex =>
    if s.adminState then
      (s.modifyPort i (fun p =>
        { p with fullDuplex := fullDuplex, p2pRecompute := true, reselect := true, selected := false }),
        false)
    else (s.modifyPort i (fun p => { p with fullDuplex := fullDuplex }), false)
  | .duplex i fullDuplex => (s.modifyPort i (fun p => { p with fullDuplex := fullDuplex }), false)

/-- A bridge takes an event and has come to rest again. -/
def Step (s : Stpm) (e : Event) (s' : Stpm) : Prop :=
  if (e.handle s).2 then Updates (e.handle s).1 s' else (e.handle s).1 = s'

/-- A step, for the fuel given. -/
def step? (fuel : Nat) (s : Stpm) (e : Event) : Option Stpm :=
  if (e.handle s).2 then stpmUpdate fuel (e.handle s).1 else some (e.handle s).1

/-- A bridge takes events one after the other. -/
inductive Run : Stpm → List Event → Stpm → Prop
  | nil (s : Stpm) : Run s [] s
  | cons {s t s' : Stpm} {e : Event} {es : List Event} :
    Step s e t → Run t es s' → Run s (e :: es) s'

/-- A run, for the fuel given to each step. -/
def run? (fuel : Nat) : Stpm → List Event → Option Stpm
  | s, [] => some s
  | s, e :: es => (step? fuel s e).bind (fun t => run? fuel t es)

/-- The bridges that come about by events that meet `G`. -/
inductive ReachableBy (G : Event → Prop) : Stpm → Prop
  | create (prio maxAge helloTime forwardDelay : UInt16) (forceVersion : UInt32)
      (mac : Vector UInt8 6) (portBmp : Nat → Bool) :
    ReachableBy G (stpmCreate prio maxAge helloTime forwardDelay forceVersion mac portBmp)
  | step {s s' : Stpm} (e : Event) : ReachableBy G s → G e → Step s e s' → ReachableBy G s'

/-- The bridges that come about. -/
def Reachable : Stpm → Prop := ReachableBy (fun _ => True)

theorem step_of_step? {fuel : Nat} {s s' : Stpm} {e : Event} (h : step? fuel s e = some s') :
    Step s e s' := by
  rw [step?] at h
  rw [Step]
  split at h
  · next hwork =>
    rw [if_pos hwork]
    exact ⟨fuel, h⟩
  · next hwork =>
    rw [if_neg hwork]
    exact Option.some.inj h

theorem run_of_run? {fuel : Nat} {s s' : Stpm} {es : List Event} (h : run? fuel s es = some s') :
    Run s es s' := by
  induction es generalizing s with
  | nil =>
    cases h
    exact .nil _
  | cons e es ih =>
    rw [run?, Option.bind_eq_some_iff] at h
    obtain ⟨t, hstep, hrun⟩ := h
    exact .cons (step_of_step? hstep) (ih hrun)

theorem Run.reachableBy {G : Event → Prop} {s s' : Stpm} {es : List Event} (h : Run s es s')
    (hes : ∀ e ∈ es, G e) (hs : ReachableBy G s) : ReachableBy G s' := by
  induction h with
  | nil s => exact hs
  | @cons s t s' e es hstep hrun ih =>
    have hfirst : ReachableBy G t := .step e hs (hes e (List.mem_cons_self ..)) hstep
    exact ih (fun e he => hes e (List.mem_cons_of_mem _ he)) hfirst

theorem Run.reachable {s s' : Stpm} {es : List Event} (h : Run s es s') (hs : Reachable s) :
    Reachable s' :=
  h.reachableBy (fun _ _ => trivial) hs

/-- A local address. -/
def localMac (n : UInt8) : Vector UInt8 6 := (Vector.replicate 5 0).push n

/-- A bridge of one port as it is created. -/
def onePort : Stpm := stpmCreate 32768 20 2 15 2 (localMac 1) (fun i => i == 1)

/-- A bridge of two ports as it is created. -/
def twoPorts (mac : Vector UInt8 6) : Stpm := stpmCreate 32768 20 2 15 2 mac (fun i => i == 1 || i == 2)

/-- A bridge is started, and its ports take part in the protocol. -/
def startUp : List Event :=
  [.stpmSetCfg ⟨some true, none, none, none, none, none⟩,
    .setPortCfg [1, 2] ⟨false, none, none, none, none, some false⟩]

/-- A second with the links up. -/
def linkUp : Event := .oneSecond (fun _ => true)

/-- A second with the links down. -/
def linkDown : Event := .oneSecond (fun _ => false)

/-- What a designated port of a bridge with the best identifier says. -/
def superiorBpdu : Bpdu where
  version := bpduVersionRapidId
  bpduType := bpduRstp
  body := setTimes ⟨0, 20, 15, 2⟩ { BpduBody.zero with flags := rstpPortRoleDesgn <<< portRoleOffs }

/-- A bridge that a run ends in, looked at. -/
theorem exists_run_of_run? (fuel : Nat) (s : Stpm) (es : List Event) (f : Stpm → Bool)
    (h : (run? fuel s es).any f = true) : ∃ s', Run s es s' ∧ f s' = true := by
  obtain ⟨s', hrun, hf⟩ := (Option.any_eq_true _ _).mp h
  exact ⟨s', run_of_run? hrun, hf⟩

theorem twoPorts_reachable {G : Event → Prop} (mac : Vector UInt8 6) : ReachableBy G (twoPorts mac) :=
  .create 32768 20 2 15 2 mac (fun i => i == 1 || i == 2)

theorem onePort_reachable {G : Event → Prop} : ReachableBy G onePort :=
  .create 32768 20 2 15 2 (localMac 1) (fun i => i == 1)

end Opconn.Rstp
