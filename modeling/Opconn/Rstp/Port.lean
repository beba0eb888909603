import Opconn.Rstp.Bpdu

/-!
# Ports and bridges

A bridge keeps for every port the states of ten machines, the timers that count down once a second,
and the flags over which the machines talk to each other.  An eleventh machine, of the bridge, selects
the roles of the ports.
-/

namespace Opconn.Rstp

/-- `MigrateTime`. -/
def migrateTime : Nat := 3

/-- `TxHoldCount`. -/
def txHoldCount : Nat := 3

/-- `NORMAL_RSTP`. -/
def normalRstp : UInt32 := 2

/-- `ADMIN_PORT_PATH_COST_AUTO`. -/
def adminPortPathCostAuto : UInt32 := 0

/-- `INFO_IS_T`. -/
inductive InfoIs where
  | mine
  | aged
  | received
  | disabled
deriving DecidableEq, Repr

/-- `RCVD_MSG_T`.  The machines use the first two as `False` and `True`. -/
inductive RcvdMsg where
  | superiorDesignateMsg
  | repeatedDesignateMsg
  | confirmedRootMsg
  | otherMsg
deriving DecidableEq, Repr

/-- `PORT_ROLE_T`. -/
inductive PortRole where
  | disabledPort
  | alternatePort
  | backupPort
  | rootPort
  | designatedPort
  | nonStpPort
deriving DecidableEq, Repr

/-- `PORT_INFO_T`. -/
inductive PortInfo where
  | superiorDesignatedInfo
  | repeatedDesignatedInfo
  | inferiorDesignatedInfo
  | inferiorRootAlternateInfo
  | otherInfo
deriving DecidableEq, Repr

/-- `ADMIN_P2P_T`. -/
inductive AdminP2P where
  | forceTrue
  | forceFalse
  | auto
deriving DecidableEq, Repr

/-- `RSTP_PORT_STATE`, as far as the hardware is told. -/
inductive RstpPortState where
  | disabled
  | discarding
  | learning
  | forwarding
deriving DecidableEq, Repr

/-! ### The states of the machines -/

inductive InfoState where
  | begin
  | rstpPortDisabled
  | aged
  | update
  | current
  | receive
  | superiorDesignated
  | repeatedDesignated
  | inferiorDesignated
  | notDesignated
  | other
deriving DecidableEq, Repr

inductive RoletrnsState where
  | begin
  | initPort
  | disablePort
  | disabledPort
  | rootProposed
  | rootAgreed
  | reroot
  | rootPort
  | rootForward
  | rootLearn
  | rerooted
  | designatedPropose
  | designatedSynced
  | designatedRetired
  | designatedPort
  | designatedDiscard
  | designatedLearn
  | designatedForward
  | alternateProposed
  | alternateAgreed
  | alternatePort
  | blockPort
  | backupPort
deriving DecidableEq, Repr

inductive SttransState where
  | begin
  | discarding
  | learning
  | forwarding
deriving DecidableEq, Repr

inductive TopochState where
  | begin
  | inactive
  | learning
  | detected
  | tcactive
  | notifiedTcn
  | notifiedTc
  | propagating
  | acknowledged
deriving DecidableEq, Repr

inductive MigrateState where
  | begin
  | checkingRstp
  | selectingStp
  | sensing
deriving DecidableEq, Repr

inductive TransmitState where
  | begin
  | transmitInit
  | transmitPeriodic
  | idle
  | transmitConfig
  | transmitTcn
  | transmitRstp
deriving DecidableEq, Repr

inductive P2pState where
  | begin
  | init
  | recompute
  | stable
deriving DecidableEq, Repr

inductive PortrcvState where
  | begin
  | discard
  | receive
deriving DecidableEq, Repr

inductive BridectState where
  | begin
  | edge
  | notEdge
deriving DecidableEq, Repr

inductive PcostState where
  | begin
  | auto
  | forse
  | stable
deriving DecidableEq, Repr

inductive RoleselState where
  | begin
  | initBridge
  | roleSelection
deriving DecidableEq, Repr

/-! ### The records -/

/-- What a port does to the world: it sets its state in the hardware, has its addresses forgotten, and
sends. -/
inductive PortOut where
  | portState (state : RstpPortState)
  | flushLt
  | config (bpdu : Bpdu)
  | tcn
  | rstp (bpdu : Bpdu)
deriving DecidableEq, Repr

/-- The timers of `timers`. -/
structure PortTimers where
  fdWhile : Nat
  helloWhen : Nat
  mdelayWhile : Nat
  rbWhile : Nat
  rcvdInfoWhile : Nat
  rrWhile : Nat
  tcWhile : Nat
  txCount : Nat
  edgeDelayWhile : Nat
deriving DecidableEq, Repr

/-- `PORT_T`.  `hardware` is the state that the hardware was last told, `out` all that the port has
done, the latest first; `fullDuplex` is what the hardware says of the line. -/
structure Port where
  portIndex : Nat
  portId : UInt16
  adminPCost : UInt32
  adminPointToPointMac : AdminP2P
  adminEdge : Bool
  adminNonStp : Bool
  fullDuplex : Bool
  info : InfoState
  roletrns : RoletrnsState
  sttrans : SttransState
  topoch : TopochState
  migrate : MigrateState
  transmit : TransmitState
  p2p : P2pState
  portrcv : PortrcvState
  bridect : BridectState
  pcost : PcostState
  timers : PortTimers
  agreed : Bool
  designPrio : PrioVector
  designTimes : TimeValues
  forward : Bool
  forwarding : Bool
  infoIs : InfoIs
  learn : Bool
  learning : Bool
  mcheck : Bool
  msgPrio : PrioVector
  msgTimes : TimeValues
  newInfo : Bool
  operEdge : Bool
  portEnabled : Bool
  portPrio : PrioVector
  portTimes : TimeValues
  proposed : Bool
  proposing : Bool
  rcvdBpdu : Bool
  rcvdMsg : RcvdMsg
  rcvdRSTP : Bool
  rcvdSTP : Bool
  rcvdTc : Bool
  rcvdTcAck : Bool
  rcvdTcn : Bool
  reRoot : Bool
  reselect : Bool
  role : PortRole
  selected : Bool
  selectedRole : PortRole
  sendRSTP : Bool
  sync : Bool
  synced : Bool
  tcAck : Bool
  tcProp : Bool
  fdbFlush : Bool
  agree : Bool
  disputed : Bool
  rcvdInfo : PortInfo
  updtInfo : Bool
  autoEdge : Bool
  msgBpduVersion : UInt8
  msgBpduType : UInt8
  msgPortRole : UInt8
  msgFlags : UInt8
  operPCost : UInt32
  operSpeed : UInt32
  usedSpeed : UInt32
  p2pRecompute : Bool
  operPointToPointMac : Bool
  hardware : RstpPortState
  out : List PortOut
deriving DecidableEq, Repr

/-- `STPM_T`, and the address of the board, which its ports share. -/
structure Stpm where
  ports : List Port
  rolesel : RoleselState
  forceVersion : UInt32
  brId : BridgeId
  brTimes : TimeValues
  rootPortId : UInt16
  rootPrio : PrioVector
  rootTimes : TimeValues
  adminState : Bool
  rstpDevMac : Vector UInt8 6
deriving DecidableEq, Repr

/-- `rstpVersion`: the bridge is not made to speak the old protocol. -/
def Stpm.rstpVersion (s : Stpm) : Bool := decide (normalRstp ≤ s.forceVersion)

/-- `_stpapi_port_find`. -/
def Stpm.port? (s : Stpm) (i : Nat) : Option Port := s.ports.find? (fun p => p.portIndex = i)

/-- The bridge with each of its ports changed. -/
def Stpm.mapPorts (s : Stpm) (f : Port → Port) : Stpm := { s with ports := s.ports.map f }

/-- The bridge with one of its ports changed. -/
def Stpm.modifyPort (s : Stpm) (i : Nat) (f : Port → Port) : Stpm :=
  s.mapPorts (fun p => if p.portIndex = i then f p else p)

/-- The hardware is told a state. -/
def Port.setHardware (p : Port) (state : RstpPortState) : Port :=
  { p with hardware := state, out := .portState state :: p.out }

/-- `STP_OUT_set_learning`. -/
def Port.setLearning (p : Port) (enable : Bool) : Port :=
  p.setHardware (if enable then .learning else .discarding)

/-- `STP_OUT_set_forwarding`. -/
def Port.setForwarding (p : Port) (enable : Bool) : Port :=
  p.setHardware (if enable then .forwarding else .discarding)

end Opconn.Rstp
