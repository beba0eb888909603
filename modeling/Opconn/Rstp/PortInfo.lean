import Opconn.Rstp.PortMachines

/-!
# Port information

What a port knows comes from its own bridge or from a packet.  `STP_info_rx_bpdu` takes a packet in,
and the port information machine compares it with what the port has, keeps it when it is better, and
drops it when it is not refreshed.
-/

namespace Opconn.Rstp

/-! ### A packet comes in -/

/-- `STP_info_rx_bpdu`. -/
def infoRxBpdu (s : Stpm) (bpdu : Bpdu) (p : Port) : Port :=
  if bpdu.bpduType == bpduTopoChangeType then
    if p.adminNonStp then p
    else { p with rcvdBpdu := true, msgBpduVersion := bpdu.version, msgBpduType := bpdu.bpduType }
  else if bpdu.bpduType == bpduConfigType || bpdu.bpduType == bpduRstp then
    if p.adminNonStp || (bpdu.bpduType == bpduRstp && !s.rstpVersion) then p
    else
      { p with
        rcvdBpdu := true
        msgBpduVersion := bpdu.version
        msgBpduType := bpdu.bpduType
        msgFlags := bpdu.body.flags
        msgPrio := getVector bpdu.body p.portId
        msgTimes := getTimes bpdu.body }
  else p

/-! ### What the packet says -/

/-- `betterorsameInfo`. -/
def betterorsameInfo (p : Port) (newInfoIs : InfoIs) : Bool :=
  (newInfoIs == .received && p.infoIs == .received && decide (compareVector p.msgPrio p.portPrio ≤ 0)) ||
    (newInfoIs == .mine && p.infoIs == .mine && decide (compareVector p.designPrio p.portPrio ≤ 0))

/-- The role that `rcvBpdu` reads off a packet. -/
def rcvdPortRole (p : Port) : UInt8 :=
  if p.msgBpduType == bpduTopoChangeType then p.msgPortRole
  else if p.msgBpduType == bpduRstp then (p.msgFlags &&& portRoleMask) >>> portRoleOffs
  else if p.msgBpduType == bpduConfigType then rstpPortRoleDesgn
  else rstpPortRoleUnkn

/-- `rcvBpdu`, after it has read the role. -/
def rcvBpdu (p : Port) : RcvdMsg :=
  if p.msgBpduType == bpduTopoChangeType then .otherMsg
  else if (p.msgPortRole == rstpPortRoleDesgn || p.msgBpduType == bpduConfigType) &&
      (decide (compareVector p.msgPrio p.portPrio < 0) ||
        (compareBridgeId p.msgPrio.designBridge p.portPrio.designBridge == 0 &&
          p.msgPrio.designPort == p.portPrio.designPort &&
          compareTimes p.msgTimes p.portTimes != 0)) then .superiorDesignateMsg
  else if (p.msgBpduType == bpduConfigType || p.msgPortRole == rstpPortRoleDesgn) &&
      compareVector p.msgPrio p.portPrio == 0 && compareTimes p.msgTimes p.portTimes == 0 then
    .repeatedDesignateMsg
  else if rstpPortRoleRoot == p.msgBpduType && p.operPointToPointMac &&
      compareBridgeId p.msgPrio.designBridge p.portPrio.designBridge == 0 &&
      p.msgFlags &&& agreementBit != 0 then .confirmedRootMsg
  else .otherMsg

/-- `rcvInfo`, after it has read the role. -/
def rcvInfo (p : Port) : PortInfo :=
  if p.msgPortRole == rstpPortRoleDesgn &&
      (decide (compareVector p.msgPrio p.portPrio < 0) ||
        (compareVector p.msgPrio p.portPrio == 0 && compareTimes p.msgTimes p.portTimes != 0)) then
    .superiorDesignatedInfo
  else if p.msgPortRole == rstpPortRoleDesgn && compareVector p.msgPrio p.portPrio == 0 &&
      compareTimes p.msgTimes p.portTimes == 0 then .repeatedDesignatedInfo
  else if p.msgPortRole == rstpPortRoleDesgn && decide (0 < compareVector p.msgPrio p.portPrio) then
    .inferiorDesignatedInfo
  else if p.msgPortRole == rstpPortRoleRoot && decide (compareVector p.msgPrio p.portPrio ≤ 0) then
    .inferiorRootAlternateInfo
  else .otherInfo

/-- `recordProposal`. -/
def recordProposal (p : Port) : Port :=
  { p with proposed := p.proposed || (p.msgPortRole == rstpPortRoleDesgn && p.proposing) }

/-- `setTcFlags`: a topology change notification sets one flag, any other packet those it carries. -/
def setTcFlags (p : Port) : Port :=
  { p with
    rcvdTcn := p.rcvdTcn || p.msgBpduType == bpduTopoChangeType
    rcvdTc := p.rcvdTc ||
      (p.msgBpduType != bpduTopoChangeType && p.msgFlags &&& tolplogyChangeBit != 0)
    rcvdTcAck := p.rcvdTcAck ||
      (p.msgBpduType != bpduTopoChangeType && p.msgFlags &&& tolplogyChangeAckBit != 0) }

/-- `recordTimes`. -/
def recordTimes (t : TimeValues) : TimeValues :=
  if t.helloTime < 1 then { t with helloTime := 1 } else t

/-- `updtRcvdInfoWhile`. -/
def updtRcvdInfoWhile (t : TimeValues) : Nat :=
  let effAge := max (t.maxAge.toNat / 16) 1 + t.messageAge.toNat
  if effAge ≤ t.maxAge.toNat then min (3 * t.helloTime.toNat) (t.maxAge.toNat - effAge) else 0

/-- `recordDispute`. -/
def recordDispute (p : Port) : Port :=
  { p with
    agreed := p.agreed || (p.rcvdRSTP && p.learning)
    proposing := p.proposing && !(p.rcvdRSTP && p.learning) }

/-- The packet carries an agreement. -/
def carriesAgreement (s : Stpm) (p : Port) : Bool :=
  s.rstpVersion && p.operPointToPointMac && p.msgFlags &&& agreementBit != 0

/-- `recordAgreement`. -/
def recordAgreement (s : Stpm) (p : Port) : Port :=
  { p with agreed := carriesAgreement s p, proposing := p.proposing && !carriesAgreement s p }

/-! ### The machine -/

/-- The states of `RECEIVE` by what came in. -/
def receivedState (i : PortInfo) : InfoState :=
  match i with
  | .superiorDesignatedInfo => .superiorDesignated
  | .repeatedDesignatedInfo => .repeatedDesignated
  | .inferiorDesignatedInfo => .inferiorDesignated
  | .inferiorRootAlternateInfo => .notDesignated
  | .otherInfo => .other

/-- `STP_info_check_conditions`. -/
def infoNext (p : Port) : Option InfoState :=
  if !p.portEnabled && p.infoIs != .disabled then some .rstpPortDisabled
  else
    match p.info with
    | .begin => some .rstpPortDisabled
    | .rstpPortDisabled =>
      if p.rcvdMsg.isSet then some .rstpPortDisabled
      else if p.portEnabled then some .aged
      else none
    | .aged => if p.selected && p.updtInfo then some .update else none
    | .update | .superiorDesignated | .repeatedDesignated | .inferiorDesignated | .notDesignated
    | .other => some .current
    | .current =>
      if p.selected && p.updtInfo then some .update
      else if p.infoIs == .received && p.timers.rcvdInfoWhile == 0 && !p.updtInfo &&
          !p.rcvdMsg.isSet then some .aged
      else if p.rcvdMsg.isSet && !p.updtInfo then some .receive
      else none
    | .receive => some (receivedState p.rcvdInfo)

/-- `STP_info_enter_state`. -/
def infoEnterState (s : Stpm) (st : InfoState) (p : Port) : Port :=
  match st with
  | .begin | .rstpPortDisabled =>
    { p with
      rcvdMsg := .superiorDesignateMsg
      proposing := false
      proposed := false
      agree := false
      agreed := false
      timers := { p.timers with rcvdInfoWhile := 0 }
      infoIs := .disabled
      reselect := true
      selected := false }
  | .aged => { p with infoIs := .aged, reselect := true, selected := false }
  | .update =>
    { p with
      proposed := false
      proposing := false
      agreed := p.agreed && betterorsameInfo p p.infoIs
      synced := p.synced && (p.agreed && betterorsameInfo p p.infoIs)
      portPrio := p.designPrio
      portTimes := p.designTimes
      updtInfo := false
      infoIs := .mine
      newInfo := true }
  | .current => p
  | .receive =>
    let q := { p with msgPortRole := rcvdPortRole p }
    { q with rcvdMsg := rcvBpdu q, rcvdInfo := rcvInfo q }
  | .superiorDesignated =>
    let q := setTcFlags (recordProposal { p with agreed := false, proposing := false })
    { q with
      agree := q.agree && betterorsameInfo q q.infoIs
      portPrio := q.msgPrio
      portTimes := recordTimes q.msgTimes
      timers := { q.timers with rcvdInfoWhile := updtRcvdInfoWhile (recordTimes q.msgTimes) }
      infoIs := .received
      reselect := true
      selected := false
      rcvdMsg := .superiorDesignateMsg }
  | .repeatedDesignated =>
    let q := setTcFlags (recordProposal p)
    { q with
      timers := { q.timers with rcvdInfoWhile := updtRcvdInfoWhile q.portTimes }
      rcvdMsg := .superiorDesignateMsg }
  | .inferiorDesignated => { recordDispute p with rcvdMsg := .superiorDesignateMsg }
  | .notDesignated => { setTcFlags (recordAgreement s p) with rcvdMsg := .superiorDesignateMsg }
  | .other => { p with rcvdMsg := .superiorDesignateMsg }

end Opconn.Rstp
