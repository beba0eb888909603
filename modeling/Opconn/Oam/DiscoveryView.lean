import Opconn.Oam.Discovery

/-!
# Discovery as an abstract machine

Most of the state record carries protocol data that no decision of the discovery
depends on.  `View` keeps the rest: the discovery state, the recorded OUI, the
negotiated and the configured version, the GE port and the organisation-specific
PDUs handed over so far.  On views the discovery is a small machine
(`View.init`, `View.machine`, `View.switch`), and the lemmas of this module say
that every function of `Discovery` acts on views exactly as that machine does.
-/

namespace Opconn.Oam

/-- A PDU handed to a handler, with the discovery state at that moment. -/
structure Dispatch where
  handler : OrgHandler
  state : DiscoveryState
  pdu : List UInt8
deriving DecidableEq, Repr

def Action.dispatch? : Action → Option Dispatch
  | .dispatch handler state pdu => some ⟨handler, state, pdu⟩
  | _ => none

def dispatches (log : List Action) : List Dispatch := log.filterMap Action.dispatch?

structure View where
  state : DiscoveryState
  localOamMode : OamMode
  aucOui : List UInt8
  oamVerType : OamVer
  oamCfgVerType : UInt8
  storedOamVer : UInt32
  geTrsmtEn : Bool
  dispatched : List Dispatch
deriving DecidableEq, Repr

def Sys.view (s : Sys) : View where
  state := s.oams.state
  localOamMode := s.oams.localOamMode
  aucOui := s.oams.aucOui
  oamVerType := s.oamVerType
  oamCfgVerType := s.oamCfgVerType
  storedOamVer := s.storedOamVer
  geTrsmtEn := s.geTrsmtEn
  dispatched := dispatches s.log

/-! ### The machine on views -/

/-- `OamInit`. -/
def View.init (v : View) : View :=
  { v with
    state := if v.localOamMode = .active then .activeSendLocal else .passiveWait
    aucOui := oamOui
    oamVerType := .ctc20
    oamCfgVerType := v.storedOamVer.toUInt8
    geTrsmtEn := false }

/-- `eopl_oam_state_machine` on a received PDU: the states that fall through. -/
def View.machine (v : View) : View :=
  match v.state with
  | .sendLocalRemote => { v with state := .sendLocalRemoteOk }
  | .sendAny => { v with state := .exPassiveWait }
  | .exPassiveWait => { v with state := .exSendExtInfo }
  | .exSendOamExtInfoAck => { v with state := .exSendAny, geTrsmtEn := true }
  | _ => v

/-- An Information PDU with a well-formed local TLV. -/
def localInfoTlv (buf : Buffer) : Bool :=
  hdrPcode buf = oamCodeInfo && (pInfo buf).infoType = infoLocalType &&
  (pInfo buf).infoLength = 0x10

/-- An Information PDU whose sender is stable. -/
def stablePdu (buf : Buffer) : Bool :=
  hdrPcode buf = oamCodeInfo && readBits (hdrFlags buf) 0x10 ≠ 0

/-- An Information PDU with an organisation-specific TLV. -/
def orgSpecTlv (buf : Buffer) : Bool :=
  hdrPcode buf = oamCodeInfo && (pstExInfoTlv buf).ucType = infoOrgSpecType

/-- An organisation-specific TLV long enough to offer a version. -/
def extInfoOffer (buf : Buffer) : Bool :=
  orgSpecTlv buf && 0x0B ≤ (pstExInfoTlv buf).ucLength

/-- The version after the acknowledgement in `buf`, `ver` before it. -/
def negotiated (buf : Buffer) (ver : OamVer) : OamVer :=
  if (pstExInfoTlv buf).ucLength < 7 + 4 then ackVersion (pstExInfoTlv buf).ucVersion else ver

def orgHandlerOf (buf : Buffer) (ver : OamVer) : Option OrgHandler :=
  let oui := pInfoBytes buf 3
  if oui = ctcOui then
    match ver with
    | .ctc01 | .ctc20 => some .ctcPduProcess20
    | .ctc21 => some .ctcPduProcess
    | _ => none
  else if oui = fiberhomeOui then none
  else if oui = zteOui then some .ztePduProcess
  else none

def View.dispatch (v : View) (handler : OrgHandler) (pdu : List UInt8) : View :=
  { v with dispatched := v.dispatched ++ [⟨handler, v.state, pdu⟩] }

/-- The `switch` of `eopl_oam_pdu_process`, for the states discovery can be in
between two events. -/
def View.switch (v : View) (buf : Buffer) (pdu : List UInt8) : View :=
  match v.state with
  | .passiveWait =>
    if localInfoTlv buf then { v with state := .sendLocalRemoteOk, geTrsmtEn := false }
    else { v with geTrsmtEn := false }
  | .sendLocalRemoteOk => if stablePdu buf then { v with state := .exPassiveWait } else v
  | .exPassiveWait =>
    if extInfoOffer buf then
      { v with state := .exSendExtInfo, aucOui := (pstExInfoTlv buf).aucOui }
    else v
  | .exSendExtInfo =>
    if orgSpecTlv buf ∧ v.aucOui = (pstExInfoTlv buf).aucOui then
      { v with state := .exSendAny, oamVerType := negotiated buf v.oamVerType, geTrsmtEn := true }
    else v
  | .exSendAny =>
    if hdrPcode buf = oamCodeInfo then
      if orgSpecTlv buf ∧ 0x07 ≤ (pstExInfoTlv buf).ucLength ∧ (pstExInfoTlv buf).aucOui = ctcOui then
        { v with aucOui := ctcOui }
      else v
    else if hdrPcode buf = oamCodeOrgSpec then
      match orgHandlerOf buf v.oamVerType with
      | some handler => v.dispatch handler pdu
      | none => v
    else v
  | _ => v

/-- What the switch can do: one way forward in each state, or nothing to the state. -/
inductive Switched (v : View) (buf : Buffer) (pdu : List UInt8) : View → Prop where
  | opened (hv : v.state = .passiveWait) (htlv : localInfoTlv buf = true) :
    Switched v buf pdu { v with state := .sendLocalRemoteOk, geTrsmtEn := false }
  | waited (hv : v.state = .passiveWait) : Switched v buf pdu { v with geTrsmtEn := false }
  | stabilised (hv : v.state = .sendLocalRemoteOk) (hstable : stablePdu buf = true) :
    Switched v buf pdu { v with state := .exPassiveWait }
  | offered (hv : v.state = .exPassiveWait) (hoffer : extInfoOffer buf = true) :
    Switched v buf pdu
      { v with state := .exSendExtInfo, aucOui := (pstExInfoTlv buf).aucOui }
  | acknowledged (hv : v.state = .exSendExtInfo) (htlv : orgSpecTlv buf = true)
    (houi : v.aucOui = (pstExInfoTlv buf).aucOui) :
    Switched v buf pdu
      { v with state := .exSendAny, oamVerType := negotiated buf v.oamVerType, geTrsmtEn := true }
  | renamed (hv : v.state = .exSendAny) : Switched v buf pdu { v with aucOui := ctcOui }
  | dispatched (hv : v.state = .exSendAny) (handler : OrgHandler) :
    Switched v buf pdu (v.dispatch handler pdu)
  | kept : Switched v buf pdu v

theorem View.switched (v : View) (buf : Buffer) (pdu : List UInt8) :
    Switched v buf pdu (v.switch buf pdu) := by
  unfold View.switch
  cases hv : v.state with
  | passiveWait =>
    dsimp only
    split
    · exact .opened hv ‹_›
    · rw [← hv]
      exact .waited hv
  | sendLocalRemoteOk =>
    dsimp only
    split
    · exact .stabilised hv ‹_›
    · exact .kept
  | exPassiveWait =>
    dsimp only
    split
    · exact .offered hv ‹_›
    · exact .kept
  | exSendExtInfo =>
    dsimp only
    split
    · rename_i hack
      exact .acknowledged hv hack.1 hack.2
    · exact .kept
  | exSendAny =>
    dsimp only
    split
    · split
      · rw [← hv]
        exact .renamed hv
      · exact .kept
    · split
      · split
        · exact .dispatched hv _
        · exact .kept
      · exact .kept
  | fault | activeSendLocal | sendLocalRemote | sendAny | exSendOamExtInfoAck
  | exSendOamExtInfoNack | exSendAnyNoExt => exact .kept

/-- The five states that discovery rests in between events. -/
def DiscoveryState.resting : DiscoveryState → Bool
  | .passiveWait | .sendLocalRemoteOk | .exPassiveWait | .exSendExtInfo | .exSendAny => true
  | _ => false

/-! ### The embedding acts on views as the machine does -/

@[simp] theorem dispatches_append (log more : List Action) :
    dispatches (log ++ more) = dispatches log ++ dispatches more := by
  simp [dispatches]

@[simp] theorem dispatches_replicate_sendPdu (count : Nat) (flags : UInt16) (code : UInt8)
    (localInfo remoteInfo : InfoTlv) (ext : Option ExInfoTlv) (len : Nat) :
    dispatches (List.replicate count (.sendPdu flags code localInfo remoteInfo ext len)) = [] := by
  induction count with
  | zero => rfl
  | succ count ih => simp [List.replicate_succ, dispatches, Action.dispatch?]

@[simp] theorem view_requestInfo (s : Sys) (code : UInt8) (ext : Option ExInfoTlv)
    (len count : Nat) : (requestInfo s code ext len count).view = s.view := by
  simp [requestInfo, eoplOamInfoTlv, Sys.view]

@[simp] theorem view_oplRegWrite (s : Sys) (reg : Register) (value : UInt32) :
    (oplRegWrite s reg value).view = s.view := by
  simp [oplRegWrite, Sys.act, Sys.view, dispatches, Action.dispatch?]

@[simp] theorem view_goto (s : Sys) (state : DiscoveryState) :
    (s.goto state).view = { s.view with state := state } := rfl

@[simp] theorem view_gePort (s : Sys) (enable : Bool) :
    (brgGePortLinkControlSet s enable).view = { s.view with geTrsmtEn := enable } := rfl

@[simp] theorem view_ponPort (s : Sys) (enable : Bool) :
    (brgPonPortLinkControlSet s enable).view = s.view := rfl

@[simp] theorem view_dispatch (s : Sys) (handler : OrgHandler) (pdu : List UInt8) :
    (s.act (.dispatch handler s.oams.state pdu)).view = s.view.dispatch handler pdu := by
  simp [Sys.act, Sys.view, View.dispatch, dispatches, Action.dispatch?]

theorem view_oamLoopback (s : Sys) (code : UInt8) : (oamLoopback s code).view = s.view := by
  unfold oamLoopback
  split
  · exact view_requestInfo _ _ _ _ _
  · split
    · exact view_requestInfo _ _ _ _ _
    · rfl

theorem view_orgSpecDispatch (s : Sys) (framelen : Nat) :
    (orgSpecDispatch s framelen).view =
      match orgHandlerOf s.inData s.oamVerType with
      | some handler => s.view.dispatch handler (pduBytes s framelen)
      | none => s.view := by
  unfold orgSpecDispatch orgHandlerOf
  by_cases hctc : pInfoBytes s.inData 3 = ctcOui
  · simp only [hctc, if_true]
    cases s.oamVerType <;> simp only [view_dispatch]
  · simp only [hctc, if_false]
    by_cases hfiber : pInfoBytes s.inData 3 = fiberhomeOui
    · simp only [hfiber, if_true]
    · simp only [hfiber, if_false]
      split
      · exact view_dispatch _ _ _
      · rfl

/-- A received PDU never raises the two link events, so the machine runs its
`switch` (the stray event of state `EX_SEND_ANY` included). -/
theorem view_stateMachine (s : Sys) {event : OamEvent}
    (hevent : event = .oamPduRx ∨ event = .stray) :
    (eoplOamStateMachine s event).view = s.view.machine := by
  have hlink : ¬((event = .localLinkStatusChange ∧ readBits s.oams.flags 0 = 0) ∨
      event = .lostLinkTimer) := by
    rcases hevent with rfl | rfl <;> simp
  have htimer : event ≠ .pduTimer := by rcases hevent with rfl | rfl <;> simp
  have hchange : event ≠ .localLinkStatusChange := by rcases hevent with rfl | rfl <;> simp
  unfold eoplOamStateMachine
  rw [if_neg hlink]
  simp only [htimer, if_false]
  cases hstate : s.oams.state with
  | fault =>
    simp [eoplOamFaultState, hchange, View.machine, Sys.view, hstate]
  | sendLocalRemote | sendAny =>
    simp [requestInfo, eoplOamInfoTlv, View.machine, Sys.view, hstate, dispatches,
      Action.dispatch?]
  | exSendOamExtInfoAck =>
    cases s.chipRespin <;>
      simp [requestInfo, eoplOamInfoTlv, oplRegWrite, Sys.act, brgGePortLinkControlSet,
        brgPonPortLinkControlSet, View.machine, Sys.view, hstate, dispatches,
        Action.dispatch?]
  | exSendOamExtInfoNack =>
    simp [Sys.act, View.machine, Sys.view, hstate, dispatches, Action.dispatch?]
  | _ =>
    simp [requestInfo, eoplOamInfoTlv, View.machine, Sys.view, hstate, dispatches,
      Action.dispatch?]

theorem view_oamInit (s : Sys) : (oamInit s).view = s.view.init := by
  unfold oamInit
  cases hmode : s.oams.localOamMode <;> cases s.chipRespin <;>
    simp [eoplOamStateMachine, eoplOamFaultState, readBits, View.init, Sys.view, hmode,
      oplRegWrite, Sys.act, brgGePortLinkControlSet, brgPonPortLinkControlSet, dispatches,
      Action.dispatch?]

@[simp] theorem inData_oamInit (s : Sys) : (oamInit s).inData = s.inData := by
  unfold oamInit
  cases hmode : s.oams.localOamMode <;> cases s.chipRespin <;>
    simp [eoplOamStateMachine, eoplOamFaultState, readBits, hmode,
      oplRegWrite, Sys.act, brgGePortLinkControlSet, brgPonPortLinkControlSet]

/-- In every resting state the `switch` of the embedding is the one on views. -/
theorem view_pduSwitch (s : Sys) (framelen : Nat) (hrest : s.oams.state.resting = true) :
    (pduSwitch s framelen).view = s.view.switch s.inData (pduBytes s framelen) := by
  have hview : s.view.state = s.oams.state := rfl
  unfold pduSwitch View.switch
  cases hstate : s.oams.state with
  | passiveWait =>
    simp only [hview, hstate, localInfoTlv, Bool.and_eq_true, decide_eq_true_eq, and_assoc]
    split
    · rw [view_stateMachine _ (Or.inl rfl)]
      split <;> simp [View.machine, recordRemote, Sys.view, Sys.goto, brgGePortLinkControlSet,
        brgPonPortLinkControlSet, oamDygaspCfg, eoplOamInfoTlv, Sys.act, dispatches,
        Action.dispatch?]
    · simp [hview, hstate]
  | sendLocalRemoteOk =>
    simp only [hview, hstate, stablePdu, Bool.and_eq_true, decide_eq_true_eq]
    by_cases hinfo : hdrPcode s.inData = oamCodeInfo
    · simp only [hinfo, if_true, true_and]
      split
      · rw [view_stateMachine _ (Or.inl rfl)]
        rfl
      · rw [view_stateMachine _ (Or.inl rfl)]
        simp [View.machine, Sys.goto, Sys.view, hstate]
    · simp [hinfo]
  | exPassiveWait =>
    simp only [hview, hstate, extInfoOffer, orgSpecTlv, Bool.and_eq_true, decide_eq_true_eq]
    by_cases hinfo : hdrPcode s.inData = oamCodeInfo
    · simp only [hinfo, if_true, true_and]
      split
      · rw [view_stateMachine _ (Or.inl rfl)]
        rfl
      · rw [view_stateMachine _ (Or.inl rfl)]
        simp [View.machine, Sys.goto, Sys.view, hstate, recordRemote]
    · simp [hinfo]
  | exSendExtInfo =>
    simp only [hview, hstate, orgSpecTlv, Bool.and_eq_true, decide_eq_true_eq]
    by_cases hinfo : hdrPcode s.inData = oamCodeInfo
    · simp only [hinfo, if_true, true_and]
      have hrecorded : (recordRemote s (pInfo s.inData)).oams.aucOui = s.view.aucOui := rfl
      rw [hrecorded]
      by_cases hack : (pstExInfoTlv s.inData).ucType = infoOrgSpecType ∧
          s.view.aucOui = (pstExInfoTlv s.inData).aucOui
      · rw [if_pos hack, if_pos hack, view_goto, view_stateMachine _ (Or.inl rfl)]
        unfold negotiated
        split <;> rfl
      · rw [if_neg hack, if_neg hack]
        rfl
    · simp [hinfo]
  | exSendAny =>
    simp only [hview, hstate, orgSpecTlv, Bool.and_eq_true, decide_eq_true_eq]
    by_cases hinfo : hdrPcode s.inData = oamCodeInfo
    · simp only [hinfo, if_true, true_and]
      rw [view_stateMachine _ (Or.inr rfl)]
      split
      · rename_i hext
        simp [View.machine, Sys.view, recordRemote, hstate, hext.2.2]
      · simp [View.machine, Sys.view, recordRemote, hstate]
    · simp only [hinfo, if_false]
      by_cases horg : hdrPcode s.inData = oamCodeOrgSpec
      · simp only [horg, if_true]
        exact view_orgSpecDispatch s framelen
      · simp only [horg, if_false]
        split
        · simp [Sys.act, Sys.view, dispatches, Action.dispatch?]
        · split
          · exact view_oamLoopback _ _
          · rfl
  | fault | activeSendLocal | sendLocalRemote | sendAny | exSendOamExtInfoAck
  | exSendOamExtInfoNack | exSendAnyNoExt => simp [hstate, DiscoveryState.resting] at hrest

theorem view_pduDiscovery (s : Sys) (framelen : Nat) (hrest : s.oams.state.resting = true) :
    (pduDiscovery s framelen).view =
      if pduAccepted s then s.view.switch s.inData (pduBytes s framelen) else s.view := by
  unfold pduDiscovery
  split
  · split <;> exact view_pduSwitch _ framelen hrest
  · rfl

/-! ### The calls of `OamInit` in front of the switch -/

/-- The buffer loaded and the two remote flags written: the state in which
`eopl_oam_pdu_process` tests whether to start over. -/
def pduLoaded (s : Sys) (frame : Buffer) : Sys :=
  let s := { s with inData := memCpyFront s.inData frame }
  { s with oams := { s.oams with
    flags := writeBits s.oams.flags 0x60 (readBits (hdrFlags s.inData) 0x18 <<< 2) } }

/-- One of the three tests in front of the switch calls `OamInit`. -/
def pduReinitialises (s : Sys) : Bool :=
  localInfoOnly s.inData ||
  (hdrPcode s.inData = oamCodeInfo && hdrFlags s.inData = 0x48 && !s.flag48Found) ||
  (hdrPcode s.inData = oamCodeInfo && hdrFlags s.inData = 0x8 && s.oams.flags = 0x10 &&
    maxFlag8FoundCnt ≤ s.flag8FoundCnt + 1)

/-- The state in which the switch finds the module. -/
def pduSettled (s : Sys) : Sys :=
  flag8Reinit (flag48Reinit (if localInfoOnly s.inData then oamInit s else s))

theorem eoplOamPduReceive_eq (s : Sys) (frame : Buffer) (hadmitted : pduAdmitted frame = true) :
    eoplOamPduReceive s frame =
      if txPowerPdu (memCpyFront s.inData frame) then
        (pduLoaded s frame).act (.dispatch .ctcPduProcess (pduLoaded s frame).oams.state
          (pduBytes (pduLoaded s frame) frame.length))
      else pduDiscovery (pduSettled (pduLoaded s frame)) frame.length := by
  unfold eoplOamPduReceive
  rw [if_pos hadmitted]
  have hdisjoint : txPowerPdu (memCpyFront s.inData frame) = true →
      localInfoOnly (memCpyFront s.inData frame) = false := by
    intro htx
    simp only [txPowerPdu, Bool.and_eq_true, decide_eq_true_eq] at htx
    simp [localInfoOnly, htx.1, oamCodeOrgSpec, oamCodeInfo]
  unfold eoplOamPduProcess pduSettled pduLoaded
  by_cases htx : txPowerPdu (memCpyFront s.inData frame) = true
  · simp [htx, hdisjoint htx]
  · cases hlocal : localInfoOnly (memCpyFront s.inData frame) <;> simp [htx, hlocal]

@[simp] theorem flags_oamInit (s : Sys) : (oamInit s).oams.flags = 0x08 := by
  unfold oamInit
  cases hmode : s.oams.localOamMode <;> cases s.chipRespin <;>
    simp [eoplOamStateMachine, eoplOamFaultState, readBits, hmode,
      oplRegWrite, Sys.act, brgGePortLinkControlSet, brgPonPortLinkControlSet]

/-- The flags-`0x8` test cannot fire right after an `OamInit`, which leaves the
local evaluating bit set and the stable bit clear. -/
theorem flag8Reinit_oamInit (s : Sys) :
    (flag8Reinit (oamInit s)).view = s.view.init ∧
      (flag8Reinit (oamInit s)).inData = s.inData := by
  unfold flag8Reinit
  split
  · have hflags : ¬(8 : UInt16) = 16 := by decide
    simp only [flags_oamInit, hflags, if_false]
    rw [if_neg (by decide)]
    exact ⟨view_oamInit s, inData_oamInit s⟩
  · exact ⟨view_oamInit s, inData_oamInit s⟩

theorem flag8Reinit_flag48Reinit_oamInit (s : Sys) :
    (flag8Reinit (flag48Reinit (oamInit s))).view = s.view.init ∧
      (flag8Reinit (flag48Reinit (oamInit s))).inData = s.inData := by
  unfold flag48Reinit
  split
  · obtain ⟨hview, hdata⟩ := flag8Reinit_oamInit { oamInit s with flag48Found := true }
    have hinit : Sys.view { oamInit s with flag48Found := true } = s.view.init := view_oamInit s
    rw [hview, hdata, hinit]
    exact ⟨rfl, inData_oamInit s⟩
  · exact flag8Reinit_oamInit s

theorem pduSettled_spec (s : Sys) :
    (pduSettled s).view = (if pduReinitialises s then s.view.init else s.view) ∧
      (pduSettled s).inData = s.inData := by
  unfold pduSettled
  cases hlocal : localInfoOnly s.inData with
  | true =>
    simpa [pduReinitialises, hlocal] using flag8Reinit_flag48Reinit_oamInit s
  | false =>
    simp only [Bool.false_eq_true, if_false]
    by_cases h48 : hdrPcode s.inData = oamCodeInfo ∧ hdrFlags s.inData = 0x48 ∧
        s.flag48Found = false
    · have hflag : flag48Reinit s = oamInit { s with flag48Found := true } := by
        unfold flag48Reinit
        rw [if_pos h48]
      have hre : pduReinitialises s = true := by
        simp [pduReinitialises, h48.1, h48.2.1, h48.2.2]
      rw [hflag, hre]
      exact flag8Reinit_oamInit { s with flag48Found := true }
    · have hflag : flag48Reinit s = s := by
        unfold flag48Reinit
        rw [if_neg h48]
      rw [hflag]
      have h48' : (decide (hdrPcode s.inData = oamCodeInfo) &&
          decide (hdrFlags s.inData = 0x48) && !s.flag48Found) = false := by
        rw [← Bool.not_eq_true]
        simpa [and_assoc] using h48
      unfold pduReinitialises flag8Reinit
      rw [hlocal, h48']
      by_cases h8 : hdrPcode s.inData = oamCodeInfo ∧ hdrFlags s.inData = 0x8
      · rw [if_pos h8]
        by_cases hflags : s.oams.flags = 0x10
        · by_cases hcnt : maxFlag8FoundCnt ≤ s.flag8FoundCnt + 1
          · simp only [hflags, if_true, hcnt, view_oplRegWrite, view_oamInit, h8.1, h8.2,
              decide_true, Bool.and_self, Bool.or_true]
            exact ⟨rfl, inData_oamInit _⟩
          · simp [h8.1, h8.2, hflags, hcnt, Sys.view]
        · simp [h8.1, h8.2, hflags, maxFlag8FoundCnt, Sys.view]
      · rw [if_neg h8]
        have h8' : (decide (hdrPcode s.inData = oamCodeInfo) &&
            decide (hdrFlags s.inData = 0x8)) = false := by
          rw [← Bool.not_eq_true]
          simpa using h8
        simp [h8']

end Opconn.Oam
