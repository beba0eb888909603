import Opconn.Oam.DiscoverySafety

/-!
# What `EX_SEND_ANY` says about the frames received

The module keeps no record of the frames it has taken.  Here a run carries one:
each admitted frame with the discovery state before and after its switch, kept
from the last `OamInit` on.  A frame may itself cause an `OamInit` and is then
processed by the freshly initialised machine, so it is the first entry of the
new record.  The result reads the four stages of the discovery off the record of
any run that has reached `EX_SEND_ANY`.
-/

namespace Opconn.Oam

open Runs

/-! ### The frame behind the buffer

`in_data` keeps what a longer frame left behind, but no byte that discovery reads
lies past the shortest frame admitted. -/

theorem byteAt_memCpyFront (buf frame : Buffer) {i : Nat} (hi : i < frame.length) :
    byteAt (memCpyFront buf frame) i = byteAt frame i := by
  simp only [byteAt, memCpyFront]
  exact List.getD_append _ _ _ _ hi

theorem bytesAt_memCpyFront (buf frame : Buffer) {offset count : Nat}
    (hend : offset + count ≤ frame.length) :
    bytesAt (memCpyFront buf frame) offset count = bytesAt frame offset count := by
  unfold bytesAt
  apply List.map_congr_left
  intro i hi
  have hlt : i < count := List.mem_range.mp hi
  exact byteAt_memCpyFront buf frame (by omega)

section Admitted

variable (buf : Buffer) {frame : Buffer} (hlen : 64 ≤ frame.length)

include hlen

theorem hdrPcode_memCpyFront : hdrPcode (memCpyFront buf frame) = hdrPcode frame := by
  unfold hdrPcode pduOffset
  exact byteAt_memCpyFront buf frame (by omega)

theorem hdrFlags_memCpyFront : hdrFlags (memCpyFront buf frame) = hdrFlags frame := by
  unfold hdrFlags pduOffset u16At
  rw [byteAt_memCpyFront buf frame (by omega), byteAt_memCpyFront buf frame (by omega)]

theorem localInfoTlv_memCpyFront : localInfoTlv (memCpyFront buf frame) = localInfoTlv frame := by
  have htype : (pInfo (memCpyFront buf frame)).infoType = (pInfo frame).infoType :=
    byteAt_memCpyFront buf frame (by simp [pduOffset, oampduHdrSize]; omega)
  have hlength : (pInfo (memCpyFront buf frame)).infoLength = (pInfo frame).infoLength :=
    byteAt_memCpyFront buf frame (by simp [pduOffset, oampduHdrSize]; omega)
  unfold localInfoTlv
  rw [hdrPcode_memCpyFront buf hlen, htype, hlength]

theorem stablePdu_memCpyFront : stablePdu (memCpyFront buf frame) = stablePdu frame := by
  unfold stablePdu
  rw [hdrPcode_memCpyFront buf hlen, hdrFlags_memCpyFront buf hlen]

theorem exOui_memCpyFront :
    (pstExInfoTlv (memCpyFront buf frame)).aucOui = (pstExInfoTlv frame).aucOui :=
  bytesAt_memCpyFront buf frame (by simp [pduOffset, oampduHdrSize, oamInfoTlvSize]; omega)

theorem exLength_memCpyFront :
    (pstExInfoTlv (memCpyFront buf frame)).ucLength = (pstExInfoTlv frame).ucLength :=
  byteAt_memCpyFront buf frame (by simp [pduOffset, oampduHdrSize, oamInfoTlvSize]; omega)

theorem exVersion_memCpyFront :
    (pstExInfoTlv (memCpyFront buf frame)).ucVersion = (pstExInfoTlv frame).ucVersion :=
  byteAt_memCpyFront buf frame (by simp [pduOffset, oampduHdrSize, oamInfoTlvSize]; omega)

theorem orgSpecTlv_memCpyFront : orgSpecTlv (memCpyFront buf frame) = orgSpecTlv frame := by
  have htype : (pstExInfoTlv (memCpyFront buf frame)).ucType = (pstExInfoTlv frame).ucType :=
    byteAt_memCpyFront buf frame (by simp [pduOffset, oampduHdrSize, oamInfoTlvSize]; omega)
  unfold orgSpecTlv
  rw [hdrPcode_memCpyFront buf hlen, htype]

theorem extInfoOffer_memCpyFront :
    extInfoOffer (memCpyFront buf frame) = extInfoOffer frame := by
  unfold extInfoOffer
  rw [orgSpecTlv_memCpyFront buf hlen, exLength_memCpyFront buf hlen]

theorem negotiated_memCpyFront (ver : OamVer) :
    negotiated (memCpyFront buf frame) ver = negotiated frame ver := by
  unfold negotiated
  rw [exLength_memCpyFront buf hlen, exVersion_memCpyFront buf hlen]

end Admitted

/-! ### Runs with a record of the frames -/

/-- A frame that was received, the discovery state in which the switch found it,
whether the revision guard let it through, and the state and the recorded peer
OUI it left. -/
structure Received where
  frame : Buffer
  before : DiscoveryState
  accepted : Bool
  after : DiscoveryState
  oui : List UInt8
deriving DecidableEq, Repr

structure Traced where
  sys : Sys
  history : List Received

def receivedEntry (s : Sys) (frame : Buffer) : Received where
  frame := frame
  before := (settledView s frame).state
  accepted := !txPowerPdu (memCpyFront s.inData frame) && pduAccepted (pduSettled (pduLoaded s frame))
  after := (eoplOamPduReceive s frame).oams.state
  oui := (eoplOamPduReceive s frame).oams.aucOui

/-- A step, and the frames received since the last `OamInit`. -/
def tracedStep (t : Traced) (e : Event) : Traced where
  sys := step t.sys e
  history :=
    match e with
    | .frame bytes =>
      if pduAdmitted bytes then
        (if pduReinitialises (pduLoaded t.sys bytes) then [] else t.history) ++
          [receivedEntry t.sys bytes]
      else t.history
    | .linkLost => []
    | .ponLight => t.history

/-- The frames of a run received since its last `OamInit`. -/
def receivedSinceInit (board : Board) (events : List Event) : List Received :=
  (run tracedStep ⟨start board, []⟩ events).history

theorem run_traced_sys (t : Traced) (events : List Event) :
    (run tracedStep t events).sys = run step t.sys events := by
  induction events generalizing t with
  | nil => rfl
  | cons e events ih => exact ih (tracedStep t e)

/-! ### The four stages -/

/-- The Information PDU that opens discovery: a well-formed local TLV. -/
structure Opens (r : Received) : Prop where
  accepted : r.accepted = true
  tlv : localInfoTlv r.frame = true
  before : r.before = .passiveWait

/-- The Information PDU that completes 802.3ah discovery: its sender is stable. -/
structure Stabilises (r : Received) : Prop where
  accepted : r.accepted = true
  stable : stablePdu r.frame = true
  before : r.before = .sendLocalRemoteOk
  after : r.after = .exPassiveWait

/-- The Information PDU whose organisation-specific TLV records the peer OUI. -/
structure Offers (r : Received) : Prop where
  accepted : r.accepted = true
  tlv : extInfoOffer r.frame = true
  before : r.before = .exPassiveWait
  after : r.after = .exSendExtInfo
  recorded : r.oui = (pstExInfoTlv r.frame).aucOui

/-- The Information PDU whose TLV carries the OUI `oui` recorded before. -/
structure Acknowledges (oui : List UInt8) (r : Received) : Prop where
  accepted : r.accepted = true
  tlv : orgSpecTlv r.frame = true
  before : r.before = .exSendExtInfo
  after : r.after = .exSendAny
  sameOui : (pstExInfoTlv r.frame).aucOui = oui

/-- What the record of a run holds in each state. -/
def Trail (history : List Received) (v : View) : Prop :=
  match v.state with
  | .sendLocalRemoteOk => ∃ r₁, [r₁].Sublist history ∧ Opens r₁
  | .exPassiveWait => ∃ r₁ r₂, [r₁, r₂].Sublist history ∧ Opens r₁ ∧ Stabilises r₂
  | .exSendExtInfo =>
    ∃ r₁ r₂ r₃, [r₁, r₂, r₃].Sublist history ∧ Opens r₁ ∧ Stabilises r₂ ∧ Offers r₃ ∧
      v.aucOui = r₃.oui
  | .exSendAny =>
    ∃ r₁ r₂ r₃ r₄, [r₁, r₂, r₃, r₄].Sublist history ∧ Opens r₁ ∧ Stabilises r₂ ∧ Offers r₃ ∧
      Acknowledges r₃.oui r₄
  | _ => True

/-- A longer record only helps, as long as the state and the OUI stay. -/
theorem Trail.append {history : List Received} {v w : View} (h : Trail history v)
    (more : List Received) (hstate : w.state = v.state)
    (houi : v.state = .exSendExtInfo → w.aucOui = v.aucOui) : Trail (history ++ more) w := by
  have hgrow : ∀ {rs : List Received}, rs.Sublist history → rs.Sublist (history ++ more) :=
    fun hsub => hsub.trans (List.sublist_append_left history more)
  unfold Trail at h ⊢
  rw [hstate]
  cases hv : v.state with
  | sendLocalRemoteOk =>
    rw [hv] at h
    obtain ⟨r₁, hsub, h₁⟩ := h
    exact ⟨r₁, hgrow hsub, h₁⟩
  | exPassiveWait =>
    rw [hv] at h
    obtain ⟨r₁, r₂, hsub, h₁, h₂⟩ := h
    exact ⟨r₁, r₂, hgrow hsub, h₁, h₂⟩
  | exSendExtInfo =>
    rw [hv] at h
    obtain ⟨r₁, r₂, r₃, hsub, h₁, h₂, h₃, hrec⟩ := h
    exact ⟨r₁, r₂, r₃, hgrow hsub, h₁, h₂, h₃, (houi hv).trans hrec⟩
  | exSendAny =>
    rw [hv] at h
    obtain ⟨r₁, r₂, r₃, r₄, hsub, h₁, h₂, h₃, h₄⟩ := h
    exact ⟨r₁, r₂, r₃, r₄, hgrow hsub, h₁, h₂, h₃, h₄⟩
  | passiveWait | fault | activeSendLocal | sendLocalRemote | sendAny | exSendOamExtInfoAck
  | exSendOamExtInfoNack | exSendAnyNoExt => trivial

theorem Trail.of_passiveWait {v : View} (history : List Received) (h : v.state = .passiveWait) :
    Trail history v := by
  unfold Trail
  rw [h]
  trivial

theorem sublist_append_single {rs history : List Received} (r : Received)
    (hsub : rs.Sublist history) : (rs ++ [r]).Sublist (history ++ [r]) :=
  List.Sublist.append hsub (List.Sublist.refl [r])

/-- **One switch extends the trail.**  `r` is the entry of the frame in `buf`. -/
theorem Trail.switch {history : List Received} {v : View} (h : Trail history v) (buf : Buffer)
    (pdu : List UInt8) {r : Received} (hlen : 64 ≤ r.frame.length)
    (hbuf : ∃ old, buf = memCpyFront old r.frame) (hacc : r.accepted = true)
    (hbefore : r.before = v.state) (hafter : r.after = (v.switch buf pdu).state)
    (houi : r.oui = (v.switch buf pdu).aucOui) :
    Trail (history ++ [r]) (v.switch buf pdu) := by
  obtain ⟨old, rfl⟩ := hbuf
  have hswitch := v.switched (memCpyFront old r.frame) pdu
  generalize v.switch (memCpyFront old r.frame) pdu = v' at hafter houi hswitch ⊢
  cases hswitch with
  | opened hv htlv =>
    rw [localInfoTlv_memCpyFront old hlen] at htlv
    exact ⟨r, List.sublist_append_right history [r], hacc, htlv, hbefore.trans hv⟩
  | waited hv => exact Trail.of_passiveWait _ hv
  | stabilised hv hstable =>
    rw [stablePdu_memCpyFront old hlen] at hstable
    simp only [Trail, hv] at h
    obtain ⟨r₁, hsub, h₁⟩ := h
    exact ⟨r₁, r, sublist_append_single r hsub, h₁, hacc, hstable, hbefore.trans hv, hafter⟩
  | offered hv hoffer =>
    rw [extInfoOffer_memCpyFront old hlen] at hoffer
    have hrec : r.oui = (pstExInfoTlv r.frame).aucOui :=
      houi.trans (exOui_memCpyFront old hlen)
    simp only [Trail, hv] at h
    obtain ⟨r₁, r₂, hsub, h₁, h₂⟩ := h
    exact ⟨r₁, r₂, r, sublist_append_single r hsub, h₁, h₂,
      ⟨hacc, hoffer, hbefore.trans hv, hafter, hrec⟩, houi.symm⟩
  | acknowledged hv htlv hsame =>
    rw [orgSpecTlv_memCpyFront old hlen] at htlv
    rw [exOui_memCpyFront old hlen] at hsame
    simp only [Trail, hv] at h
    obtain ⟨r₁, r₂, r₃, hsub, h₁, h₂, h₃, hrec⟩ := h
    exact ⟨r₁, r₂, r₃, r, sublist_append_single r hsub, h₁, h₂, h₃,
      hacc, htlv, hbefore.trans hv, hafter, hsame.symm.trans hrec⟩
  | renamed hv => exact h.append [r] rfl (by simp [hv])
  | dispatched hv handler => exact h.append [r] rfl (by simp [hv])
  | kept => exact h.append [r] rfl (fun _ => rfl)

/-! ### Steps and runs -/

/-- The record against which the switch works, after the tests for `OamInit`. -/
def settledHistory (t : Traced) (frame : Buffer) : List Received :=
  if pduReinitialises (pduLoaded t.sys frame) then [] else t.history

theorem Trail.settled {t : Traced} (hinv : DiscoveryInv t.sys.view)
    (h : Trail t.history t.sys.view) (frame : Buffer) :
    Trail (settledHistory t frame) (settledView t.sys frame) := by
  unfold settledHistory settledView
  split
  · apply Trail.of_passiveWait
    simp [View.init, hinv.mode]
  · exact h

theorem Trail.receive {t : Traced} (hinv : DiscoveryInv t.sys.view)
    (h : Trail t.history t.sys.view) (frame : Buffer) (hadmitted : pduAdmitted frame = true) :
    Trail (settledHistory t frame ++ [receivedEntry t.sys frame])
      (eoplOamPduReceive t.sys frame).view := by
  have hview := view_receive t.sys frame hadmitted (hinv.settled frame).resting
  have htrail := h.settled hinv frame
  cases htx : txPowerPdu (memCpyFront t.sys.inData frame) with
  | true =>
    have hinit := not_pduReinitialises_of_txPower htx
    rw [htx, if_pos rfl] at hview
    rw [hview]
    have hsame : settledView t.sys frame = t.sys.view := by simp [settledView, hinit]
    rw [hsame] at htrail
    exact htrail.append _ rfl (fun _ => rfl)
  | false =>
    rw [htx, if_neg Bool.false_ne_true] at hview
    cases hacc : pduAccepted (pduSettled (pduLoaded t.sys frame)) with
    | true =>
      rw [hacc, if_pos rfl] at hview
      have hafter : (receivedEntry t.sys frame).after =
          ((settledView t.sys frame).switch (memCpyFront t.sys.inData frame)
            (frame.drop pduOffset)).state := congrArg View.state hview
      have houi : (receivedEntry t.sys frame).oui =
          ((settledView t.sys frame).switch (memCpyFront t.sys.inData frame)
            (frame.drop pduOffset)).aucOui := congrArg View.aucOui hview
      rw [hview]
      exact htrail.switch _ _ (length_of_pduAdmitted hadmitted) ⟨t.sys.inData, rfl⟩
        (by simp [receivedEntry, htx, hacc]) rfl hafter houi
    | false =>
      rw [hacc, if_neg Bool.false_ne_true] at hview
      rw [hview]
      exact htrail.append _ rfl (fun _ => rfl)

theorem passiveWait_oamInit {s : Sys} (h : s.view.localOamMode = .unset) :
    (oamInit s).view.state = .passiveWait := by
  rw [view_oamInit]
  simp [View.init, h]

theorem Trail.step {t : Traced} (hinv : DiscoveryInv t.sys.view)
    (h : Trail t.history t.sys.view) (e : Event) :
    Trail (tracedStep t e).history (tracedStep t e).sys.view := by
  cases e with
  | frame bytes =>
    by_cases hadmitted : pduAdmitted bytes = true
    · simp only [tracedStep, Oam.step, hadmitted, if_true]
      exact h.receive hinv bytes hadmitted
    · simp only [tracedStep, Oam.step, eoplOamPduReceive, hadmitted]
      exact h
  | linkLost =>
    apply Trail.of_passiveWait
    change (linkLost t.sys).view.state = .passiveWait
    unfold linkLost
    split
    · exact passiveWait_oamInit rfl
    · exact passiveWait_oamInit hinv.mode
  | ponLight => exact h

theorem run_trail (board : Board) (events : List Event) :
    Trail (receivedSinceInit board events) (run step (start board) events).view := by
  have hstart : DiscoveryInv (start board).view ∧ Trail [] (start board).view :=
    ⟨view_powerUp_inv board, Trail.of_passiveWait _ (passiveWait_oamInit rfl)⟩
  have hrun := run_invariant tracedStep
    (fun t => DiscoveryInv t.sys.view ∧ Trail t.history t.sys.view)
    (fun t e h => ⟨h.1.step e, h.2.step h.1 e⟩) (s := ⟨start board, []⟩) hstart events
  rw [run_traced_sys] at hrun
  exact hrun.2

/-- **The four stages of discovery.**  Whenever a run is in `EX_SEND_ANY`, the
frames received since the last `OamInit` contain, in this order, the four
Information PDUs that open the discovery, complete it, offer the extended
versions and acknowledge them under the same OUI. -/
theorem discovery_stages (board : Board) (events : List Event)
    (hstate : (run step (start board) events).oams.state = .exSendAny) :
    ∃ r₁ r₂ r₃ r₄, [r₁, r₂, r₃, r₄].Sublist (receivedSinceInit board events) ∧
      Opens r₁ ∧ Stabilises r₂ ∧ Offers r₃ ∧ Acknowledges (pstExInfoTlv r₃.frame).aucOui r₄ := by
  have htrail := run_trail board events
  have hview : (run step (start board) events).view.state = .exSendAny := hstate
  simp only [Trail, hview] at htrail
  obtain ⟨r₁, r₂, r₃, r₄, hsub, h₁, h₂, h₃, h₄⟩ := htrail
  refine ⟨r₁, r₂, r₃, r₄, hsub, h₁, h₂, h₃, ?_⟩
  rw [← h₃.recorded]
  exact h₄

/-- An Information PDU in a frame of minimal length: flags and revision in their
low bytes, the two information TLVs, and `tlv` behind them. -/
def infoFrame (flags revision : UInt8) (tlv : List UInt8) : Buffer :=
  List.replicate 20 0 ++ [flags, oamCodeInfo] ++
    ([infoLocalType, 0x10, 1, 0, revision] ++ List.replicate 11 0) ++
    ([infoRemoteType, 0x10] ++ List.replicate 14 0) ++ tlv ++ List.replicate (10 - tlv.length) 0

/-- A complete discovery; the last frame carries `ack` as its third TLV. -/
def discoveryRun (ack : List UInt8) : List Event :=
  [ .frame (infoFrame 0x08 1 []),
    .frame (infoFrame 0x50 2 []),
    .frame (infoFrame 0x50 3 ([infoOrgSpecType, 0x0B] ++ ctcOui)),
    .frame (infoFrame 0x50 4 ack) ]

def mixBoard : Board where
  storedOamVer := 3
  chipRespin := false
  dbgOamSendNum := 1

theorem discovery_stages_complete_run :
    let events := discoveryRun ([infoOrgSpecType, 7] ++ ctcOui ++ [1, 0x20])
    (run step (start mixBoard) events).oams.state = .exSendAny ∧
      ∃ r₁ r₂ r₃ r₄, [r₁, r₂, r₃, r₄].Sublist (receivedSinceInit mixBoard events) ∧
        Opens r₁ ∧ Stabilises r₂ ∧ Offers r₃ ∧
        Acknowledges (pstExInfoTlv r₃.frame).aucOui r₄ := by
  intro events
  have hstate : (run step (start mixBoard) events).oams.state = .exSendAny := by decide +kernel
  exact ⟨hstate, discovery_stages mixBoard events hstate⟩

end Opconn.Oam
