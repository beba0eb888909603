import Opconn.Oam.Frame

/-!
# The OAM discovery machine

The embedding of `oam.c`: `OamInit`, `eopl_oam_state_machine`,
`eopl_oam_pdu_process` and `eopl_oam_pdu_receive`, over one state record that
holds the globals these functions share.  Calls that leave the module (frames
sent, registers written, organisation-specific PDUs handed to their handler)
are appended to `log`.
-/

namespace Opconn.Oam

/-! ### Enumerations of `oam.h` -/

/-- `enum discovery_state_t` and `EX_DISCOVERY_STATE_t`, one numbering. -/
inductive DiscoveryState where
  | fault
  | activeSendLocal
  | passiveWait
  | sendLocalRemote
  | sendLocalRemoteOk
  | sendAny
  | exPassiveWait
  | exSendExtInfo
  | exSendOamExtInfoAck
  | exSendOamExtInfoNack
  | exSendAny
  | exSendAnyNoExt
deriving DecidableEq, Repr

/-- The number the C enumerations give a state. -/
def DiscoveryState.code : DiscoveryState → Nat
  | .fault => 1
  | .activeSendLocal => 2
  | .passiveWait => 3
  | .sendLocalRemote => 4
  | .sendLocalRemoteOk => 5
  | .sendAny => 6
  | .exPassiveWait => 7
  | .exSendExtInfo => 8
  | .exSendOamExtInfoAck => 9
  | .exSendOamExtInfoNack => 10
  | .exSendAny => 11
  | .exSendAnyNoExt => 12

/-- `enum eopl_oam_event_t`.  `stray` stands for the call in state `EX_SEND_ANY`
that passes a discovery state where an event is expected. -/
inductive OamEvent where
  | localLinkStatusChange
  | pduTimer
  | lostLinkTimer
  | oamPduRx
  | stray
deriving DecidableEq, Repr

/-- `enum local_pdu_state_t`. -/
inductive LocalPdu where
  | lfInfo
  | rxInfo
  | info
  | any
  | anyNoExt
deriving DecidableEq, Repr

/-- `enum oam_mode_t`.  No code assigns the mode, so it keeps the zero of static
storage, which is neither enumerator. -/
inductive OamMode where
  | unset
  | active
  | passive
deriving DecidableEq, Repr

inductive LinkStatus where
  | fail
  | ok
deriving DecidableEq, Repr

/-- `enum OAM_VER_SUPPORT_e`. -/
inductive OamVer where
  | ctc01
  | ctc20
  | ctc21
  | ctc2021Mix
  | ntt
  | max
deriving DecidableEq, Repr

def OamVer.code : OamVer → Nat
  | .ctc01 => 0
  | .ctc20 => 1
  | .ctc21 => 2
  | .ctc2021Mix => 3
  | .ntt => 4
  | .max => 5

/-! ### State -/

/-- `struct oam_state`, the fields the code reads or writes. -/
structure Oams where
  localPdu : LocalPdu
  localOamMode : OamMode
  localLinkTimerRunning : Bool
  actionState : UInt8
  remoteActionState : UInt8
  flags : UInt16
  oamConfig : UInt8
  remoteOamConfig : UInt8
  oampduConfig : UInt16
  remoteOampduConfig : UInt16
  state : DiscoveryState
  oamExtStatus : Bool
  remoteStateValid : Bool
  localSatisfied : Bool
  localStable : Bool
  usLInfoTlvVer : UInt16
  usRInfoTlvVer : UInt16
  ucOamVersion : UInt8
  ucRmtOamVer : UInt8
  aucOui : List UInt8
  aucRmtOui : List UInt8
  ucExVer : UInt8
  aucVendor : List UInt8
  aucRmtVendor : List UInt8
deriving DecidableEq, Repr

/-- Registers the module writes. -/
inductive Register where
  | cpOamRegiCtrl
  | mpcpGateTimeout
deriving DecidableEq, Repr

/-- The handlers of organisation-specific PDUs. -/
inductive OrgHandler where
  /-- `eopl_ctc_pdu_process_2_0` -/
  | ctcPduProcess20
  /-- `eopl_ctc_pdu_process` -/
  | ctcPduProcess
  /-- `eopl_zte_pdu_process` -/
  | ztePduProcess
deriving DecidableEq, Repr

/-- A call that leaves the module. -/
inductive Action where
  /-- An Information or Loopback PDU handed to `eopl_oam_pdu_request`. -/
  | sendPdu (flags : UInt16) (code : UInt8) (localInfo remoteInfo : InfoTlv)
      (ext : Option ExInfoTlv) (len : Nat)
  /-- The frame of state `SEND_OAM_EXT_INFO_NACK`: the header is encoded over
      the TLV that was prepared, so only the header of it is defined. -/
  | sendNack (flags : UInt16)
  | regWrite (reg : Register) (value : UInt32)
  /-- `OamDygaspCfg`: the dying-gasp registers get both information TLVs. -/
  | dygaspCfg (localInfo remoteInfo : InfoTlv)
  /-- An organisation-specific PDU is handed over while discovery is in `state`. -/
  | dispatch (handler : OrgHandler) (state : DiscoveryState) (pdu : List UInt8)
  | varReq (payload : List UInt8)
deriving DecidableEq, Repr

/-- The globals of `oam.c`.  `storedOamVer` is the value `odmPonOAMVerGet` reads
from the configuration, `chipRespin` the answer of `IS_ONU_RESPIN`, and
`oamLostLinkFlag` the flag the LED task sets once it has seen PON light. -/
structure Sys where
  oams : Oams
  oamVerType : OamVer
  oamCfgVerType : UInt8
  storedOamVer : UInt32
  chipRespin : Bool
  oamLostLinkFlag : Bool
  dbgOamSendNum : UInt8
  iOamAuthCode : Int
  flag48Found : Bool
  flag8FoundCnt : UInt8
  geTrsmtEn : Bool
  ponTrsmtEn : Bool
  inData : Buffer
  log : List Action
deriving DecidableEq, Repr

def oamOui : List UInt8 := [0x11, 0x11, 0x11]
def ctcOui : List UInt8 := [0x11, 0x11, 0x11]
def fiberhomeOui : List UInt8 := [0x00, 0x0a, 0xc2]
def zteOui : List UInt8 := [0x00, 0x0F, 0x3E]
def oamOnuVendor : List UInt8 := [0x47, 0x57, 0x44, 0x4C]

/-- `g_tx_power_set_pdu`: the transmitter-power prefix. -/
def txPowerSetPdu : List UInt8 := [0x11, 0x11, 0x11, 0x03, 0xc7, 0x00, 0xa1]

/-- `MAX_FLAG_8_FOUND_CNT`. -/
def maxFlag8FoundCnt : UInt8 := 5

/-- The globals at program start: static storage is zero.  The discovery state
is `0` there, which no enumerator names; `OamInit` assigns it before any code
reads it. -/
def oamsZero : Oams where
  localPdu := .lfInfo
  localOamMode := .unset
  localLinkTimerRunning := false
  actionState := 0
  remoteActionState := 0
  flags := 0
  oamConfig := 0
  remoteOamConfig := 0
  oampduConfig := 0
  remoteOampduConfig := 0
  state := .fault
  oamExtStatus := false
  remoteStateValid := false
  localSatisfied := false
  localStable := false
  usLInfoTlvVer := 0
  usRInfoTlvVer := 0
  ucOamVersion := 0
  ucRmtOamVer := 0
  aucOui := [0, 0, 0]
  aucRmtOui := [0, 0, 0]
  ucExVer := 0
  aucVendor := [0, 0, 0, 0]
  aucRmtVendor := [0, 0, 0, 0]

/-- What a power-up finds outside the module. -/
structure Board where
  storedOamVer : UInt32
  chipRespin : Bool
  dbgOamSendNum : UInt8
deriving DecidableEq, Repr

def powerUp (board : Board) : Sys where
  oams := oamsZero
  oamVerType := .ctc01
  oamCfgVerType := 3
  storedOamVer := board.storedOamVer
  chipRespin := board.chipRespin
  oamLostLinkFlag := false
  dbgOamSendNum := board.dbgOamSendNum
  iOamAuthCode := 0
  flag48Found := false
  flag8FoundCnt := 0
  geTrsmtEn := false
  ponTrsmtEn := false
  inData := List.replicate (oamMaximumPduSize + 4) 0
  log := []

/-! ### Bit macros -/

def readBits (src mask : UInt16) : UInt16 := src &&& mask
def setBits (dest mask : UInt16) : UInt16 := dest ||| mask
def writeBits (dest mask value : UInt16) : UInt16 := (dest &&& ~~~mask) ||| (value &&& mask)

/-! ### Outgoing calls -/

def Sys.act (s : Sys) (a : Action) : Sys := { s with log := s.log ++ [a] }

def oplRegWrite (s : Sys) (reg : Register) (value : UInt32) : Sys :=
  s.act (.regWrite reg value)

def brgGePortLinkControlSet (s : Sys) (enable : Bool) : Sys := { s with geTrsmtEn := enable }

def brgPonPortLinkControlSet (s : Sys) (enable : Bool) : Sys := { s with ponTrsmtEn := enable }

/-- `eopl_oam_info_tlv`: the local TLV, counting its revision up. -/
def eoplOamInfoTlv (s : Sys) (type : UInt8) : InfoTlv × Sys :=
  ({ infoType := type
     infoLength := 0x10
     oamVersion := 0x01
     revision := s.oams.usLInfoTlvVer
     state := s.oams.actionState
     oamConfig := s.oams.oamConfig
     oampduConfig := s.oams.oampduConfig
     oui := oamOui
     vendorInfo := oamOnuVendor },
   { s with oams := { s.oams with usLInfoTlvVer := s.oams.usLInfoTlvVer + 1 } })

def eoplOamRemoteInfoTlv (s : Sys) (type : UInt8) : InfoTlv where
  infoType := type
  infoLength := 0x10
  oamVersion := s.oams.ucRmtOamVer
  revision := s.oams.usRInfoTlvVer
  state := s.oams.remoteActionState
  oamConfig := s.oams.remoteOamConfig
  oampduConfig := s.oams.remoteOampduConfig
  oui := s.oams.aucRmtOui
  vendorInfo := s.oams.aucRmtVendor

/-- Fill `out_data` with both information TLVs and hand it to
`eopl_oam_pdu_request`, `count` times. -/
def requestInfo (s : Sys) (code : UInt8) (ext : Option ExInfoTlv) (len count : Nat) : Sys :=
  let (localInfo, s) := eoplOamInfoTlv s infoLocalType
  let remoteInfo := eoplOamRemoteInfoTlv s infoRemoteType
  { s with log := s.log ++
      List.replicate count (.sendPdu s.oams.flags code localInfo remoteInfo ext len) }

def oamDygaspCfg (s : Sys) : Sys :=
  let (localInfo, s) := eoplOamInfoTlv s infoLocalType
  s.act (.dygaspCfg localInfo (eoplOamRemoteInfoTlv s infoRemoteType))

/-! ### The state machine -/

/-- `eopl_oam_fault_state`. -/
def eoplOamFaultState (s : Sys) (event : OamEvent) : Sys :=
  let s := { s with oams := { s.oams with localLinkTimerRunning := false } }
  if event = .localLinkStatusChange ∧ readBits s.oams.flags 0 = 0 then
    if s.oams.localOamMode = .active then
      { s with oams := { s.oams with state := .activeSendLocal, localPdu := .info } }
    else
      { s with oams := { s.oams with state := .passiveWait, localPdu := .rxInfo } }
  else s

/-- `eopl_oam_timer_process`: it only prepares `out_data`, which nothing sends;
preparing the local TLV counts its revision. -/
def eoplOamTimerProcess (s : Sys) : Sys :=
  match s.oams.state with
  | .activeSendLocal | .passiveWait | .sendLocalRemote | .sendLocalRemoteOk | .sendAny =>
    (eoplOamInfoTlv s infoLocalType).2
  | _ => s

/-- The versions the extended-information TLV offers, by configuration. -/
def extInfoTlv (cfg : UInt8) : ExInfoTlv :=
  let tlv : ExInfoTlv :=
    { ucType := infoOrgSpecType, ucLength := 7, aucOui := ctcOui, ucSupport := 0,
      ucVersion := 0, aucVersionList := [] }
  if cfg.toNat = OamVer.ctc20.code then
    { tlv with ucLength := 7 + 4 * 1, ucSupport := 1, aucVersionList := ctcOui ++ [0x01] }
  else if cfg.toNat = OamVer.ctc21.code then
    { tlv with ucLength := 7 + 4 * 1, ucSupport := 1, aucVersionList := ctcOui ++ [0x21] }
  else if cfg.toNat = OamVer.ctc2021Mix.code then
    { tlv with
      ucLength := 7 + 4 * 2, ucSupport := 1,
      aucVersionList := ctcOui ++ [0x01] ++ ctcOui ++ [0x21] }
  else tlv

/-- The test that decides the support byte of the acknowledgement. -/
def verSupported (ver : OamVer) (cfg : UInt8) : Bool :=
  ver.code = cfg.toNat ||
  (ver = .ctc01 && cfg.toNat = OamVer.ctc20.code) ||
  cfg.toNat = OamVer.ctc2021Mix.code

def extInfoAckTlv (ver : OamVer) (cfg : UInt8) : ExInfoTlv where
  ucType := infoOrgSpecType
  ucLength := 0x07
  aucOui := ctcOui
  ucSupport := if verSupported ver cfg then 1 else 0
  ucVersion :=
    match ver with
    | .ctc01 => 0x01
    | .ctc20 => 0x20
    | .ctc21 => 0x21
    -- "unknow CTC version!!": the byte keeps the zero of the cleared buffer
    | _ => 0
  aucVersionList := []

/-- `eopl_oam_state_machine`. -/
def eoplOamStateMachine (s : Sys) (event : OamEvent) : Sys :=
  if (event = .localLinkStatusChange ∧ readBits s.oams.flags 0 = 0) ∨ event = .lostLinkTimer then
    eoplOamFaultState s event
  else
    let s := if event = .pduTimer then eoplOamTimerProcess s else s
    match s.oams.state with
    | .fault => eoplOamFaultState s event
    | .activeSendLocal =>
      { s with oams := { s.oams with localPdu := .info, flags := setBits s.oams.flags 0x08 } }
    | .passiveWait =>
      { s with oams := { s.oams with localPdu := .rxInfo, flags := setBits s.oams.flags 0x08 } }
    | .sendLocalRemote =>
      let s := { s with oams := { s.oams with
        flags := writeBits s.oams.flags 0x18 0x10, localPdu := .info } }
      let s := requestInfo s oamCodeInfo none oamMinimizePduSize 1
      { s with oams := { s.oams with state := .sendLocalRemoteOk } }
    | .sendLocalRemoteOk =>
      let s := { s with oams := { s.oams with
        flags := writeBits s.oams.flags 0x18 0x10, localPdu := .info } }
      requestInfo s oamCodeInfo none oamMinimizePduSize 1
    | .sendAny =>
      let s := { s with oams := { s.oams with
        localPdu := .any,
        flags := writeBits (writeBits s.oams.flags 0x18 0x10) 0x60 0x40,
        actionState := 0 } }
      let s := requestInfo s oamCodeInfo none oamMinimizePduSize 1
      { s with oams := { s.oams with state := .exPassiveWait } }
    | .exPassiveWait =>
      { s with oams := { s.oams with
        localPdu := .info, oamExtStatus := false, state := .exSendExtInfo } }
    | .exSendExtInfo =>
      let s := { s with oams := { s.oams with localPdu := .info } }
      requestInfo s oamCodeInfo (some (extInfoTlv s.oamCfgVerType)) 80 1
    | .exSendOamExtInfoAck =>
      let s := { s with oams := { s.oams with localPdu := .info, oamExtStatus := true } }
      let s := requestInfo s oamCodeInfo
        (some (extInfoAckTlv s.oamVerType s.oamCfgVerType)) 80 1
      let s := { s with oams := { s.oams with state := .exSendAny } }
      let s := brgPonPortLinkControlSet (brgGePortLinkControlSet s true) true
      let s := oplRegWrite s .cpOamRegiCtrl 0x01
      if s.chipRespin then s else oplRegWrite s .cpOamRegiCtrl 0x00
    | .exSendOamExtInfoNack =>
      let s := { s with oams := { s.oams with localPdu := .info, oamExtStatus := false } }
      s.act (.sendNack s.oams.flags)
    | .exSendAnyNoExt => { s with oams := { s.oams with localPdu := .anyNoExt } }
    | .exSendAny =>
      let s := { s with oams := { s.oams with
        localPdu := .any, usLInfoTlvVer := s.oams.usLInfoTlvVer - 1 } }
      requestInfo s oamCodeInfo none oamMinimizePduSize s.dbgOamSendNum.toNat

/-! ### Initialisation -/

def eoplOamLinkRequest : LinkStatus := .ok

/-- `OamInit`. -/
def oamInit (s : Sys) : Sys :=
  let s := { s with
    iOamAuthCode := 0
    oams := { s.oams with
      flags := 0x08
      ucOamVersion := 0x01
      usLInfoTlvVer := 0x0004
      usRInfoTlvVer := 0
      actionState := 0x06
      oamConfig := s.oams.oamConfig ||| 0x14
      oampduConfig := oamMaximumPduSize.toUInt16
      aucOui := oamOui
      aucVendor := oamOnuVendor
      ucExVer := 0x01
      localPdu := if eoplOamLinkRequest = .fail then .lfInfo else .rxInfo
      localStable := false
      state := .fault
      localLinkTimerRunning := true }
    oamVerType := .ctc20
    oamCfgVerType := s.storedOamVer.toUInt8 }
  let s := eoplOamStateMachine s .localLinkStatusChange
  let s := if s.chipRespin then oplRegWrite s .cpOamRegiCtrl 0x00 else s
  let s := { s with flag8FoundCnt := 0 }
  brgPonPortLinkControlSet (brgGePortLinkControlSet s false) false

/-! ### Processing one PDU -/

/-- `eopl_oam_chk_satisfied`. -/
def eoplOamChkSatisfied (s : Sys) (info : InfoTlv) : Bool :=
  info.oamVersion = s.oams.ucOamVersion && info.oampduConfig = s.oams.oampduConfig

/-- The six assignments that record the peer's information TLV. -/
def recordRemote (s : Sys) (info : InfoTlv) : Sys :=
  { s with oams := { s.oams with
    ucRmtOamVer := info.oamVersion
    remoteActionState := info.state
    remoteOamConfig := info.oamConfig
    remoteOampduConfig := info.oampduConfig
    aucRmtOui := info.oui
    aucRmtVendor := info.vendorInfo } }

def Sys.goto (s : Sys) (state : DiscoveryState) : Sys :=
  { s with oams := { s.oams with state := state } }

/-- The PDU in `in_data` as the handlers get it: `framelen - 4` bytes. -/
def pduBytes (s : Sys) (framelen : Nat) : List UInt8 :=
  (s.inData.drop pduOffset).take (framelen - 4)

/-- `OamLoopback`, with `OamEnableLp` and `OamDisableLp`. -/
def oamLoopback (s : Sys) (code : UInt8) : Sys :=
  if code = 0x01 then
    let s := { s with ponTrsmtEn := false, oams := { s.oams with actionState := 5 } }
    requestInfo s oamCodeLoopback none oamMinimizePduSize 1
  else if code = 0x02 then
    let s := { s with ponTrsmtEn := true, oams := { s.oams with actionState := 0 } }
    requestInfo s oamCodeLoopback none oamMinimizePduSize 1
  else s

/-- The version the peer's acknowledgement names, when it carries no version
list (`ucLength < 7 + 4`). -/
def ackVersion (ucVersion : UInt8) : OamVer :=
  if ucVersion = 0x01 then .ctc01
  else if ucVersion = 0x20 then .ctc20
  else if ucVersion = 0x21 then .ctc21
  else .max

/-- The organisation-specific branch of state `EX_SEND_ANY`. -/
def orgSpecDispatch (s : Sys) (framelen : Nat) : Sys :=
  let oui := pInfoBytes s.inData 3
  if oui = ctcOui then
    match s.oamVerType with
    | .ctc01 | .ctc20 => s.act (.dispatch .ctcPduProcess20 s.oams.state (pduBytes s framelen))
    | .ctc21 => s.act (.dispatch .ctcPduProcess s.oams.state (pduBytes s framelen))
    | _ => s
  else if oui = fiberhomeOui then s
  else if oui = zteOui then s.act (.dispatch .ztePduProcess s.oams.state (pduBytes s framelen))
  else s

/-- The guard in front of the discovery switch: an Information PDU is taken only
with a fresh revision, until the extended discovery has begun. -/
def pduAccepted (s : Sys) : Bool :=
  hdrPcode s.inData ≠ oamCodeInfo || s.oams.usRInfoTlvVer = 0 ||
  s.oams.usRInfoTlvVer < (pInfo s.inData).revision ||
  DiscoveryState.sendAny.code < s.oams.state.code

/-- The `switch(oams.state)` of `eopl_oam_pdu_process`. -/
def pduSwitch (s : Sys) (framelen : Nat) : Sys :=
  let pcode := hdrPcode s.inData
  let info := pInfo s.inData
  let exInfo := pstExInfoTlv s.inData
  match s.oams.state with
  | .activeSendLocal | .passiveWait =>
    let s := brgPonPortLinkControlSet (brgGePortLinkControlSet s false) false
    if pcode = oamCodeInfo ∧ info.infoType = infoLocalType ∧ info.infoLength = 0x10 then
      let s := recordRemote s info
      let s := { s with oams := { s.oams with
        remoteStateValid := true, state := .sendLocalRemote } }
      let s := oamDygaspCfg s
      let s := if eoplOamChkSatisfied s info then s.goto .sendLocalRemoteOk else s
      eoplOamStateMachine s .oamPduRx
    else s
  | .sendLocalRemote =>
    if pcode = oamCodeInfo ∧ info.infoType = infoLocalType ∧ info.infoLength = 0x10 then
      let s := { s with oams := { s.oams with
        remoteStateValid := true, localSatisfied := true, state := .sendLocalRemoteOk } }
      eoplOamStateMachine (recordRemote s info) .oamPduRx
    else eoplOamStateMachine s .oamPduRx
  | .sendLocalRemoteOk =>
    if pcode = oamCodeInfo then
      if readBits (hdrFlags s.inData) 0x10 ≠ 0 then
        eoplOamStateMachine ((recordRemote s info).goto .sendAny) .oamPduRx
      else eoplOamStateMachine (s.goto .sendLocalRemote) .oamPduRx
    else s
  | .sendAny =>
    if pcode = oamCodeInfo then
      eoplOamStateMachine ((recordRemote s info).goto .exPassiveWait) .oamPduRx
    else s
  | .exPassiveWait =>
    if pcode = oamCodeInfo then
      let s := recordRemote s info
      if exInfo.ucType = infoOrgSpecType ∧ 0x0B ≤ exInfo.ucLength then
        let s := { s with oams := { s.oams with
          aucOui := exInfo.aucOui, state := .exSendExtInfo } }
        eoplOamStateMachine s .oamPduRx
      else eoplOamStateMachine (s.goto .sendAny) .oamPduRx
    else s
  | .exSendExtInfo =>
    if pcode = oamCodeInfo then
      let s := recordRemote s info
      if exInfo.ucType = infoOrgSpecType ∧ s.oams.aucOui = exInfo.aucOui then
        -- the test of the version against the configuration that follows here
        -- has two empty branches
        let s := if exInfo.ucLength < 7 + 4 then
          { s with oamVerType := ackVersion exInfo.ucVersion } else s
        (eoplOamStateMachine (s.goto .exSendOamExtInfoAck) .oamPduRx).goto .exSendAny
      else s
    else s
  | .exSendOamExtInfoAck =>
    let s :=
      if exInfo.ucType = infoOrgSpecType ∧ s.oams.aucOui = exInfo.aucOui then
        if exInfo.ucLength < 7 + 4 then { s with oamVerType := .ctc20 }
        else if exInfo.aucVersionList.getD 3 0 = 0x20 then { s with oamVerType := .ctc20 }
        else if exInfo.aucVersionList.getD 3 0 = 0x21 then { s with oamVerType := .ctc21 }
        else s
      else s
    if s.oams.usRInfoTlvVer = 0 ∨ s.oams.usRInfoTlvVer < info.revision then
      eoplOamStateMachine (s.goto .exSendAny) .oamPduRx
    else s
  | .exSendAny =>
    if pcode = oamCodeInfo then
      let s := recordRemote s info
      let s :=
        if exInfo.ucType = infoOrgSpecType ∧ 0x07 ≤ exInfo.ucLength ∧ exInfo.aucOui = ctcOui then
          { s with oams := { s.oams with aucOui := exInfo.aucOui } }
        else s
      eoplOamStateMachine s .stray
    else if pcode = oamCodeOrgSpec then orgSpecDispatch s framelen
    else if pcode = oamCodeVariableReq then
      s.act (.varReq ((pduBytes s framelen).drop oampduHdrSize))
    else if pcode = oamCodeLoopback then
      oamLoopback s (byteAt s.inData (pduOffset + oampduHdrSize))
    else s
  | .fault | .exSendOamExtInfoNack | .exSendAnyNoExt => s

/-- The end of `eopl_oam_pdu_process`: the revision guard and the switch. -/
def pduDiscovery (s : Sys) (framelen : Nat) : Sys :=
  if pduAccepted s then
    let s := if hdrPcode s.inData = oamCodeInfo then
      { s with oams := { s.oams with usRInfoTlvVer := (pInfo s.inData).revision } } else s
    pduSwitch s framelen
  else s

/-- A local TLV with nothing behind it: the peer starts discovery again. -/
def localInfoOnly (buf : Buffer) : Bool :=
  hdrPcode buf = oamCodeInfo && (pInfo buf).infoType = infoLocalType &&
  (pInfo buf).infoLength = 0x10 && (pstRmtInfo buf).infoType = infoLocalEnd &&
  (pstRmtInfo buf).infoLength = 0x00

def txPowerPdu (buf : Buffer) : Bool :=
  hdrPcode buf = oamCodeOrgSpec && pInfoBytes buf 7 = txPowerSetPdu

/-- The first `OamInit` of a re-start by flags `0x48`, once per power-up. -/
def flag48Reinit (s : Sys) : Sys :=
  if hdrPcode s.inData = oamCodeInfo ∧ hdrFlags s.inData = 0x48 ∧ s.flag48Found = false then
    oamInit { s with flag48Found := true }
  else s

/-- The `OamInit` after five Information PDUs in a row with flags `0x8`. -/
def flag8Reinit (s : Sys) : Sys :=
  if hdrPcode s.inData = oamCodeInfo ∧ hdrFlags s.inData = 0x8 then
    let s := { s with
      flag8FoundCnt := if s.oams.flags = 0x10 then s.flag8FoundCnt + 1 else 0 }
    if maxFlag8FoundCnt ≤ s.flag8FoundCnt then
      oplRegWrite (oamInit (oplRegWrite s .mpcpGateTimeout 1)) .mpcpGateTimeout 0x03B9ACA0
    else s
  else s

/-- `eopl_oam_pdu_process`. -/
def eoplOamPduProcess (s : Sys) (framelen : Nat) : Sys :=
  let flags := readBits (hdrFlags s.inData) 0x18 <<< 2
  let s := { s with oams := { s.oams with flags := writeBits s.oams.flags 0x60 flags } }
  let s := if localInfoOnly s.inData then oamInit s else s
  if txPowerPdu s.inData then
    s.act (.dispatch .ctcPduProcess s.oams.state (pduBytes s framelen))
  else pduDiscovery (flag8Reinit (flag48Reinit s)) framelen

/-- The lengths `eopl_oam_pdu_receive` lets through. -/
def pduAdmitted (frame : Buffer) : Bool :=
  oamMinimizePduSize + 4 ≤ frame.length && frame.length ≤ oamMaximumPduSize + 4

/-- `eopl_oam_pdu_receive`; `PARAMETER_RANGE_ERROR` leaves the state alone. -/
def eoplOamPduReceive (s : Sys) (frame : Buffer) : Sys :=
  if pduAdmitted frame then
    eoplOamPduProcess { s with inData := memCpyFront s.inData frame } frame.length
  else s

/-! ### Runs -/

/-- What drives the module: a frame from the driver, the link-lost timeout, and
the LED task that has seen PON light (`oam_lost_link_flag = 1`). -/
inductive Event where
  | frame (bytes : Buffer)
  | linkLost
  | ponLight
deriving DecidableEq, Repr

/-- `BoardReset`, then the start-up call of `OamInit`.  The calls recorded so far
stay recorded. -/
def boardReset (s : Sys) : Sys :=
  let board : Board :=
    { storedOamVer := s.storedOamVer, chipRespin := s.chipRespin,
      dbgOamSendNum := 1 }
  oamInit { powerUp board with log := s.log }

/-- The link-lost branch of `OamTimerThread`. -/
def linkLost (s : Sys) : Sys := if s.oamLostLinkFlag then boardReset s else oamInit s

def step (s : Sys) : Event → Sys
  | .frame bytes => eoplOamPduReceive s bytes
  | .linkLost => linkLost s
  | .ponLight => { s with oamLostLinkFlag := true }

/-- The state after the `OamInit` of the start-up code. -/
def start (board : Board) : Sys := oamInit (powerUp board)

end Opconn.Oam
