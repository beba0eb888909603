import Opconn.Rstp.Port

/-!
# The small machines of a port

Each machine has a function that says where its check hops to, if anywhere, and one that says what it
does on entering a state.  The machines here decide whether the port is an edge and a point-to-point
link, which protocol it speaks, what its path costs, what the hardware does with frames, when the
port's addresses are forgotten and what it sends.
-/

namespace Opconn.Rstp

/-! ### Bridge detection -/

/-- `STP_bridect_check_conditions`. -/
def bridectNext (p : Port) : Option BridectState :=
  match p.bridect with
  | .begin => if p.adminEdge then some .edge else some .notEdge
  | .edge => if (!p.portEnabled && !p.adminEdge) || !p.operEdge then some .notEdge else none
  | .notEdge =>
    if (!p.portEnabled && p.adminEdge) ||
        (p.timers.edgeDelayWhile == 0 && p.autoEdge && p.sendRSTP && p.proposing) then some .edge
    else none

/-- `STP_bridect_enter_state`. -/
def bridectEnterState (st : BridectState) (p : Port) : Port :=
  match st with
  | .begin => p
  | .edge => { p with operEdge := true }
  | .notEdge => { p with operEdge := false }

/-! ### Point to point -/

/-- `computeP2P`. -/
def computeP2P (p : Port) : Bool :=
  match p.adminPointToPointMac with
  | .forceTrue => true
  | .forceFalse => false
  | .auto => p.fullDuplex

/-- `STP_p2p_check_conditions`. -/
def p2pNext (p : Port) : Option P2pState :=
  match p.p2p with
  | .begin | .init | .recompute => some .stable
  | .stable => if p.p2pRecompute then some .recompute else none

/-- `STP_p2p_enter_state`. -/
def p2pEnterState (st : P2pState) (p : Port) : Port :=
  match st with
  | .begin | .init => { p with p2pRecompute := true }
  | .recompute => { p with operPointToPointMac := computeP2P p, p2pRecompute := false }
  | .stable => p

/-! ### Path cost -/

/-- `computeAutoPCost`. -/
def computeAutoPCost (usedSpeed : UInt32) : UInt32 :=
  if usedSpeed < 10 then 20000000
  else if usedSpeed ≤ 10 then 2000000
  else if usedSpeed ≤ 100 then 200000
  else if usedSpeed ≤ 1000 then 20000
  else if usedSpeed ≤ 10000 then 2000
  else if usedSpeed ≤ 100000 then 200
  else if usedSpeed ≤ 1000000 then 20
  else if usedSpeed ≤ 10000000 then 2
  else 1

/-- `STP_OUT_get_port_oper_speed`. -/
def getPortOperSpeed : UInt32 := 100

/-- `STP_pcost_check_conditions`. -/
def pcostNext (p : Port) : Option PcostState :=
  match p.pcost with
  | .begin => some .auto
  | .auto | .forse => some .stable
  | .stable =>
    if p.adminPCost == adminPortPathCostAuto && p.operSpeed != p.usedSpeed then some .auto
    else if p.adminPCost != adminPortPathCostAuto && p.operPCost != p.adminPCost then some .forse
    else none

/-- `STP_pcost_enter_state`. -/
def pcostEnterState (st : PcostState) (p : Port) : Port :=
  match st with
  | .begin => p
  | .auto =>
    { p with
      operSpeed := getPortOperSpeed
      usedSpeed := getPortOperSpeed
      operPCost := computeAutoPCost getPortOperSpeed }
  | .forse => { p with operPCost := p.adminPCost, usedSpeed := 0xffffffff }
  | .stable => { p with reselect := true, selected := false }

/-! ### Protocol migration -/

/-- `STP_migrate_check_conditions`. -/
def migrateNext (s : Stpm) (p : Port) : Option MigrateState :=
  match p.migrate with
  | .begin => some .checkingRstp
  | .checkingRstp =>
    if p.timers.mdelayWhile == 0 then some .sensing
    else if p.timers.mdelayWhile != migrateTime && !p.portEnabled then some .checkingRstp
    else none
  | .selectingStp =>
    if p.timers.mdelayWhile == 0 || !p.portEnabled || p.mcheck then some .sensing else none
  | .sensing =>
    if p.sendRSTP && p.rcvdSTP then some .selectingStp
    else if !p.portEnabled || p.mcheck || (s.rstpVersion && !p.sendRSTP && p.rcvdRSTP) then
      some .checkingRstp
    else none

/-- `STP_migrate_enter_state`. -/
def migrateEnterState (s : Stpm) (st : MigrateState) (p : Port) : Port :=
  match st with
  | .begin | .checkingRstp =>
    { p with
      mcheck := false
      sendRSTP := s.rstpVersion
      timers := { p.timers with mdelayWhile := migrateTime } }
  | .selectingStp =>
    { p with sendRSTP := false, timers := { p.timers with mdelayWhile := migrateTime } }
  | .sensing => { p with rcvdRSTP := false, rcvdSTP := false }

/-! ### Receiving -/

/-- `rcvdMsg` as a truth value. -/
def RcvdMsg.isSet (m : RcvdMsg) : Bool := m != .superiorDesignateMsg

/-- `STP_portrcv_check_conditions`. -/
def portrcvNext (p : Port) : Option PortrcvState :=
  if (p.rcvdBpdu || p.timers.edgeDelayWhile != migrateTime) && !p.portEnabled then some .discard
  else
    match p.portrcv with
    | .begin => some .discard
    | .discard => if p.rcvdBpdu && p.portEnabled then some .receive else none
    | .receive =>
      if p.rcvdBpdu && p.portEnabled && !p.rcvdMsg.isSet then some .receive else none

/-- `STP_portrcv_enter_state`, with `updtBPDUVersion`. -/
def portrcvEnterState (st : PortrcvState) (p : Port) : Port :=
  match st with
  | .begin => p
  | .discard =>
    { p with
      rcvdBpdu := false
      rcvdRSTP := false
      rcvdSTP := false
      rcvdMsg := .superiorDesignateMsg
      timers := { p.timers with edgeDelayWhile := migrateTime } }
  | .receive =>
    { p with
      rcvdSTP := p.rcvdSTP || p.msgBpduType == bpduTopoChangeType || decide (p.msgBpduVersion < 2)
      rcvdRSTP := p.rcvdRSTP || p.msgBpduType == bpduRstp
      operEdge := false
      rcvdBpdu := false
      rcvdMsg := .repeatedDesignateMsg
      timers := { p.timers with edgeDelayWhile := migrateTime } }

/-! ### Port states -/

/-- `STP_sttrans_check_conditions`. -/
def sttransNext (p : Port) : Option SttransState :=
  match p.sttrans with
  | .begin => some .discarding
  | .discarding => if p.learn then some .learning else none
  | .learning =>
    if p.forward then some .forwarding else if !p.learn then some .discarding else none
  | .forwarding => if !p.forward then some .discarding else none

/-- `STP_sttrans_enter_state`. -/
def sttransEnterState (st : SttransState) (p : Port) : Port :=
  match st with
  | .begin | .discarding =>
    ({ p with learning := false, forwarding := false }.setLearning false).setForwarding false
  | .learning => { p with learning := true }.setLearning true
  | .forwarding => { p with forwarding := true }.setForwarding true

/-! ### Topology changes -/

/-- `flush`. -/
def Port.flush (p : Port) : Port := if p.operEdge then p else { p with out := .flushLt :: p.out }

/-- `newTcWhile`. -/
def newTcWhile (s : Stpm) (p : Port) : Nat :=
  if p.sendRSTP && p.operPointToPointMac then 2 * s.rootTimes.helloTime.toNat
  else s.rootTimes.maxAge.toNat

/-- The port is a root port or a designated port. -/
def Port.isActive (p : Port) : Bool := p.role == .rootPort || p.role == .designatedPort

/-- `STP_topoch_check_conditions`. -/
def topochNext (p : Port) : Option TopochState :=
  match p.topoch with
  | .begin => some .inactive
  | .inactive => if p.learn && !p.fdbFlush then some .learning else none
  | .learning =>
    if p.rcvdTc || p.rcvdTcn || p.rcvdTcAck || p.tcProp then some .learning
    else if !p.isActive && !(p.learn || p.learning) then some .inactive
    else if p.isActive && p.forward && !p.operEdge then some .detected
    else none
  | .detected | .notifiedTc | .propagating | .acknowledged => some .tcactive
  | .tcactive =>
    if !p.isActive || p.operEdge then some .learning
    else if p.rcvdTcAck then some .acknowledged
    else if p.tcProp && !p.operEdge then some .propagating
    else if p.rcvdTc then some .notifiedTc
    else if p.rcvdTcn then some .notifiedTcn
    else none
  | .notifiedTcn => some .notifiedTc

/-- `STP_topoch_enter_state`; what `setTcPropBridge` does to the other ports is in `topochTree`. -/
def topochEnterState (s : Stpm) (st : TopochState) (p : Port) : Port :=
  match st with
  | .begin | .inactive =>
    { p with
      tcAck := false
      timers := { p.timers with tcWhile := 0 }
      out := p.flush.out }
  | .learning =>
    { p with rcvdTc := false, rcvdTcn := false, rcvdTcAck := false, tcProp := false }
  | .tcactive => p
  | .detected =>
    { p with newInfo := true, timers := { p.timers with tcWhile := newTcWhile s p } }
  | .notifiedTcn => { p with timers := { p.timers with tcWhile := newTcWhile s p } }
  | .notifiedTc =>
    { p with
      rcvdTcn := false
      rcvdTc := false
      tcAck := p.tcAck || p.role == .designatedPort }
  | .propagating =>
    { p with
      tcProp := false
      timers := { p.timers with tcWhile := newTcWhile s p }
      out := p.flush.out }
  | .acknowledged =>
    { p with rcvdTcAck := false, timers := { p.timers with tcWhile := 0 } }

/-- `setTcPropBridge`: what a port at `i` that enters `st` does to the port `q`. -/
def topochTree (i : Nat) (st : TopochState) (q : Port) : Port :=
  match st with
  | .detected | .notifiedTc => if q.portIndex = i then q else { q with tcProp := true }
  | _ => q

/-! ### Transmission -/

/-- A flag of a packet. -/
def flagBit (b : Bool) (bit : UInt8) : UInt8 := if b then bit else 0

/-- A packet all zero. -/
def BpduBody.zero : BpduBody where
  flags := 0
  rootId := .replicate 8 0
  rootPathCost := .replicate 4 0
  bridgeId := .replicate 8 0
  portId := .replicate 2 0
  messageAge := .replicate 2 0
  maxAge := .replicate 2 0
  helloTime := .replicate 2 0
  forwardDelay := .replicate 2 0

/-- `build_config_bpdu`. -/
def buildConfigBpdu (p : Port) (setTopoAckFlag : Bool) : BpduBody :=
  setTimes p.portTimes (setVector p.portPrio
    { BpduBody.zero with
      flags := flagBit (p.timers.tcWhile != 0) tolplogyChangeBit |||
        flagBit (setTopoAckFlag && p.tcAck) tolplogyChangeAckBit })

/-- The role that `txRstp` sends. -/
def rstpPortRole (role : PortRole) : UInt8 :=
  match role with
  | .alternatePort | .backupPort => rstpPortRoleAltback
  | .rootPort => rstpPortRoleRoot
  | .designatedPort => rstpPortRoleDesgn
  | .disabledPort | .nonStpPort => rstpPortRoleUnkn

/-- The packet of `txConfig`. -/
def txConfig (p : Port) : Bpdu := ⟨bpduVersionId, bpduConfigType, buildConfigBpdu p true⟩

/-- The packet of `txRstp`. -/
def txRstp (p : Port) : Bpdu where
  version := bpduVersionRapidId
  bpduType := bpduRstp
  body :=
    { buildConfigBpdu p false with
      flags := (buildConfigBpdu p false).flags ||| (rstpPortRole p.selectedRole <<< portRoleOffs) |||
        flagBit p.agree agreementBit ||| flagBit p.proposing proposalBit |||
        flagBit p.learning learnBit ||| flagBit p.forwarding forwardBit }

/-- A port that takes no part in the protocol sends nothing. -/
def Port.send (p : Port) (o : PortOut) : List PortOut :=
  if p.adminNonStp then p.out else o :: p.out

/-- `STP_transmit_check_conditions`, where it hops. -/
def transmitNext (p : Port) : Option TransmitState :=
  match p.transmit with
  | .begin => some .transmitInit
  | .transmitInit | .transmitPeriodic | .transmitConfig | .transmitTcn | .transmitRstp => some .idle
  | .idle =>
    if !p.selected || p.updtInfo then none
    else if p.timers.helloWhen == 0 then some .transmitPeriodic
    else if p.newInfo && decide (p.timers.txCount < txHoldCount) then
      if p.sendRSTP then if p.isActive then some .transmitRstp else none
      else if p.role == .designatedPort then some .transmitConfig
      else if p.role == .rootPort then some .transmitTcn
      else none
    else none

/-- `STP_transmit_check_conditions` drops what a port that may not send has to tell. -/
def transmitDrops (p : Port) : Bool :=
  p.transmit == .idle && p.selected && !p.updtInfo && p.timers.helloWhen != 0 && p.sendRSTP &&
    p.newInfo && decide (p.timers.txCount < txHoldCount) && !p.isActive

/-- `STP_transmit_enter_state`. -/
def transmitEnterState (s : Stpm) (st : TransmitState) (p : Port) : Port :=
  match st with
  | .begin | .transmitInit =>
    { p with newInfo := false, timers := { p.timers with txCount := 0 } }
  | .transmitPeriodic =>
    { p with
      newInfo := p.newInfo || p.role == .designatedPort ||
        (p.role == .rootPort && p.timers.tcWhile != 0) }
  | .idle => { p with timers := { p.timers with helloWhen := s.rootTimes.helloTime.toNat } }
  | .transmitConfig =>
    { p with
      newInfo := false
      tcAck := false
      timers := { p.timers with txCount := p.timers.txCount + 1 }
      out := p.send (.config (txConfig p)) }
  | .transmitTcn =>
    { p with
      newInfo := false
      timers := { p.timers with txCount := p.timers.txCount + 1 }
      out := p.send .tcn }
  | .transmitRstp =>
    { p with
      newInfo := false
      tcAck := false
      timers := { p.timers with txCount := p.timers.txCount + 1 }
      out := p.send (.rstp (txRstp p)) }

end Opconn.Rstp
