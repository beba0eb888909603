import Opconn.Oam.DiscoveryHistory

/-!
# The negotiated version

`EX_SEND_ANY` is reached by one step only: an Information PDU in state
`EX_SEND_EXT_INFO` whose organisation-specific TLV carries the recorded OUI.
The version is taken from that TLV when it is short, is left at its initial value
when it is long, and is compared with the configuration only afterwards, by a
test with two empty branches.  So the version is one the configuration allows
exactly in the runs whose completing frames happen to carry such a version.
-/

namespace Opconn.Oam

open Runs

/-- A CTC version the code has a number for. -/
def OamVer.known : OamVer → Bool
  | .ctc01 | .ctc20 | .ctc21 => true
  | _ => false

/-- A known version the configuration allows. -/
def verAllowed (ver : OamVer) (cfg : UInt8) : Bool := ver.known && verSupported ver cfg

/-- The version bytes an organisation-specific TLV offers: the version list of a
long TLV (pairs of an OUI and a version), the version byte of a short one. -/
def offeredVersions (frame : Buffer) : List UInt8 :=
  let tlv := pstExInfoTlv frame
  if tlv.ucLength < 7 + 4 then [tlv.ucVersion]
  else
    (List.range ((tlv.ucLength.toNat - 7) / 4)).map fun i =>
      byteAt frame (pduOffset + oampduHdrSize + 2 * oamInfoTlvSize + 7 + 4 * i + 3)

/-- The peer offers a version that is known and allowed. -/
def offersAllowed (frame : Buffer) (cfg : UInt8) : Bool :=
  (offeredVersions frame).any fun b => verAllowed (ackVersion b) cfg

/-- The frame is the one that completes the extended discovery: read in state
`EX_SEND_EXT_INFO` and not restarting it, with the OUI recorded there. -/
def completesDiscovery (s : Sys) (frame : Buffer) : Bool :=
  pduAdmitted frame && (settledView s frame).state = .exSendExtInfo && orgSpecTlv frame &&
  (settledView s frame).aucOui = (pstExInfoTlv frame).aucOui

/-- **The condition on a completing frame.**  A short TLV names a known version
the configuration allows; a long one, whose list nobody reads, offers such a
version while the configuration allows version 2.0. -/
def completionAllowed (s : Sys) : Event → Prop
  | .frame bytes =>
    completesDiscovery s bytes = true →
      if (pstExInfoTlv bytes).ucLength < 7 + 4 then
        verAllowed (ackVersion (pstExInfoTlv bytes).ucVersion) s.oamCfgVerType = true
      else
        verSupported .ctc20 s.oamCfgVerType = true ∧
          offersAllowed bytes s.oamCfgVerType = true
  | _ => True

/-! ### The claim on states and steps -/

/-- In `EX_SEND_ANY` the version is known and allowed. -/
def VersionAllowed (s : Sys) : Prop :=
  s.oams.state = .exSendAny → verAllowed s.oamVerType s.oamCfgVerType = true

/-- A step that enters `EX_SEND_ANY` has read an offer that is known and allowed. -/
def EntryAllowed (s : Sys) (e : Event) : Prop :=
  s.oams.state ≠ .exSendAny → (step s e).oams.state = .exSendAny →
    ∃ bytes, e = .frame bytes ∧ offersAllowed bytes s.oamCfgVerType = true

/-! ### What a run keeps -/

/-- Until the extended discovery is complete the version is the initial one. -/
structure VersionInv (v : View) : Prop where
  discovery : DiscoveryInv v
  initial : v.state ≠ .exSendAny → v.oamVerType = .ctc20

theorem VersionInv.init {v : View} (h : DiscoveryInv v) : VersionInv v.init :=
  ⟨h.init, fun _ => rfl⟩

theorem VersionInv.settled {s : Sys} (h : VersionInv s.view) (frame : Buffer) :
    VersionInv (settledView s frame) := by
  unfold settledView
  split
  · exact VersionInv.init h.discovery
  · exact h

/-- The switch finds the acknowledgement that ends the extended discovery. -/
def acknowledged (v : View) (buf : Buffer) : Prop :=
  v.state = .exSendExtInfo ∧ orgSpecTlv buf = true ∧ v.aucOui = (pstExInfoTlv buf).aucOui

theorem View.switch_of_acknowledged {v : View} {buf : Buffer} (h : acknowledged v buf)
    (pdu : List UInt8) :
    v.switch buf pdu =
      { v with state := .exSendAny, oamVerType := negotiated buf v.oamVerType,
               geTrsmtEn := true } := by
  obtain ⟨hstate, htlv, houi⟩ := h
  simp [View.switch, hstate, htlv, houi]

theorem View.switch_of_not_acknowledged {v : View} {buf : Buffer} (h : ¬acknowledged v buf)
    (pdu : List UInt8) :
    ((v.switch buf pdu).state = .exSendAny ↔ v.state = .exSendAny) ∧
      (v.switch buf pdu).oamVerType = v.oamVerType ∧
      (v.switch buf pdu).oamCfgVerType = v.oamCfgVerType := by
  have hswitch := v.switched buf pdu
  generalize v.switch buf pdu = v' at hswitch ⊢
  cases hswitch with
  | opened hv => exact ⟨by simp [hv], rfl, rfl⟩
  | waited => exact ⟨Iff.rfl, rfl, rfl⟩
  | stabilised hv => exact ⟨by simp [hv], rfl, rfl⟩
  | offered hv => exact ⟨by simp [hv], rfl, rfl⟩
  | acknowledged hv htlv houi => exact absurd ⟨hv, htlv, houi⟩ h
  | renamed => exact ⟨Iff.rfl, rfl, rfl⟩
  | dispatched => exact ⟨Iff.rfl, rfl, rfl⟩
  | kept => exact ⟨Iff.rfl, rfl, rfl⟩

theorem completesDiscovery_iff (s : Sys) {frame : Buffer} (hadmitted : pduAdmitted frame = true) :
    completesDiscovery s frame = true ↔
      acknowledged (settledView s frame) (memCpyFront s.inData frame) := by
  have hlen := length_of_pduAdmitted hadmitted
  unfold completesDiscovery acknowledged
  rw [orgSpecTlv_memCpyFront s.inData hlen, exOui_memCpyFront s.inData hlen, hadmitted]
  simp [and_assoc]

/-- A frame acts on state, version and configuration in one of two ways once the
tests for a restart are over: it completes the extended discovery, or it neither
enters nor leaves `EX_SEND_ANY` and keeps the version. -/
theorem receive_cases {s : Sys} (h : DiscoveryInv s.view) {frame : Buffer}
    (hadmitted : pduAdmitted frame = true) :
    let v := settledView s frame
    let w := (eoplOamPduReceive s frame).view
    (completesDiscovery s frame = true ∧ w.state = .exSendAny ∧
        w.oamVerType = negotiated frame v.oamVerType ∧ w.oamCfgVerType = v.oamCfgVerType) ∨
      (completesDiscovery s frame = false ∧ (w.state = .exSendAny ↔ v.state = .exSendAny) ∧
        w.oamVerType = v.oamVerType ∧ w.oamCfgVerType = v.oamCfgVerType) := by
  intro v w
  have hlen := length_of_pduAdmitted hadmitted
  have hview : w = _ := view_receive s frame hadmitted (h.settled frame).resting
  by_cases hack : acknowledged v (memCpyFront s.inData frame)
  · have htx : txPowerPdu (memCpyFront s.inData frame) = false := by
      have hinfo := hack.2.1
      simp only [orgSpecTlv, Bool.and_eq_true, decide_eq_true_eq] at hinfo
      simp [txPowerPdu, hinfo.1, oamCodeOrgSpec, oamCodeInfo]
    -- the revision guard is open once the extended discovery has begun
    have hopen : pduAccepted (pduSettled (pduLoaded s frame)) = true := by
      have hstate : (settledView s frame).state = .exSendExtInfo := hack.1
      simp [pduAccepted, state_pduSettled, hstate, DiscoveryState.code]
    rw [htx, if_neg Bool.false_ne_true, hopen, if_pos rfl,
      View.switch_of_acknowledged hack, negotiated_memCpyFront s.inData hlen] at hview
    refine Or.inl ⟨(completesDiscovery_iff s hadmitted).mpr hack, ?_, ?_, ?_⟩
    · rw [hview]
    · rw [hview]
    · rw [hview]
  · have hnot : completesDiscovery s frame = false := by
      rw [← Bool.not_eq_true, completesDiscovery_iff s hadmitted]
      exact hack
    refine Or.inr ⟨hnot, ?_⟩
    cases htx : txPowerPdu (memCpyFront s.inData frame) with
    | true =>
      have hsame : v = s.view := by
        simp [v, settledView, not_pduReinitialises_of_txPower htx]
      rw [htx, if_pos rfl, ← hsame] at hview
      rw [hview]
      exact ⟨Iff.rfl, rfl, rfl⟩
    | false =>
      rw [htx, if_neg Bool.false_ne_true] at hview
      cases hacc : pduAccepted (pduSettled (pduLoaded s frame)) with
      | true =>
        rw [hacc, if_pos rfl] at hview
        rw [hview]
        exact View.switch_of_not_acknowledged hack _
      | false =>
        rw [hacc, if_neg Bool.false_ne_true] at hview
        rw [hview]
        exact ⟨Iff.rfl, rfl, rfl⟩

theorem settledView_of_exSendExtInfo {s : Sys} {frame : Buffer}
    (h : (settledView s frame).state = .exSendExtInfo) : settledView s frame = s.view := by
  unfold settledView at h ⊢
  split
  · rename_i hinit
    rw [if_pos hinit] at h
    cases hmode : s.view.localOamMode <;> simp [View.init, hmode] at h
  · rfl

theorem VersionInv.receive {s : Sys} (h : VersionInv s.view) (frame : Buffer) :
    VersionInv (eoplOamPduReceive s frame).view := by
  refine ⟨h.discovery.receive frame, ?_⟩
  intro hne
  by_cases hadmitted : pduAdmitted frame = true
  · rcases receive_cases h.discovery hadmitted with ⟨-, hstate, -, -⟩ | ⟨-, hiff, hver, -⟩
    · exact absurd hstate hne
    · rw [hver]
      apply (h.settled frame).initial
      intro hany
      exact hne (hiff.mpr hany)
  · have hsame : eoplOamPduReceive s frame = s := by simp [eoplOamPduReceive, hadmitted]
    rw [hsame] at hne ⊢
    exact h.initial hne

theorem VersionInv.step {s : Sys} (h : VersionInv s.view) (e : Event) :
    VersionInv (step s e).view := by
  cases e with
  | frame bytes => exact h.receive bytes
  | linkLost =>
    refine ⟨h.discovery.step .linkLost, ?_⟩
    intro _
    change (linkLost s).view.oamVerType = .ctc20
    unfold linkLost
    split
    · unfold boardReset
      rw [view_oamInit]
      rfl
    · rw [view_oamInit]
      rfl
  | ponLight => exact ⟨h.discovery.step .ponLight, h.initial⟩

/-! ### The condition is exact -/

theorem not_exSendAny_of_linkLost {s : Sys} (h : DiscoveryInv s.view) :
    (linkLost s).oams.state ≠ .exSendAny := by
  have hview : (linkLost s).view.state = .passiveWait := by
    unfold linkLost
    split
    · exact passiveWait_oamInit rfl
    · exact passiveWait_oamInit h.mode
  intro hany
  have hstate : (linkLost s).view.state = .exSendAny := hany
  rw [hview] at hstate
  cases hstate

/-- A frame that completes nothing keeps the version allowed. -/
theorem versionAllowed_of_not_completes {s : Sys} (h : VersionInv s.view)
    (hallowed : VersionAllowed s) {frame : Buffer} (hadmitted : pduAdmitted frame = true)
    (hnot : completesDiscovery s frame = false) :
    VersionAllowed (eoplOamPduReceive s frame) ∧
      ((eoplOamPduReceive s frame).oams.state = .exSendAny → s.oams.state = .exSendAny) := by
  rcases receive_cases h.discovery hadmitted with ⟨hdone, -⟩ | ⟨-, hiff, hver, hcfg⟩
  · rw [hnot] at hdone
    cases hdone
  · have hback : (eoplOamPduReceive s frame).oams.state = .exSendAny →
        settledView s frame = s.view := by
      intro hany
      have hsettled := hiff.mp hany
      unfold settledView at hsettled ⊢
      split
      · rename_i hinit
        rw [if_pos hinit] at hsettled
        simp [View.init, h.discovery.mode] at hsettled
      · rfl
    constructor
    · intro hany
      have hsame := hback hany
      rw [hsame] at hiff hver hcfg
      have hnow := hallowed (hiff.mp hany)
      change verAllowed (eoplOamPduReceive s frame).view.oamVerType
        (eoplOamPduReceive s frame).view.oamCfgVerType = true
      rw [hver, hcfg]
      exact hnow
    · intro hany
      have hsame := hback hany
      rw [hsame] at hiff
      exact hiff.mp hany

theorem completes_iff {s : Sys} (h : VersionInv s.view) {frame : Buffer}
    (hadmitted : pduAdmitted frame = true) (hdone : completesDiscovery s frame = true) :
    VersionAllowed (eoplOamPduReceive s frame) ∧ EntryAllowed s (.frame frame) ↔
      completionAllowed s (.frame frame) := by
  rcases receive_cases h.discovery hadmitted with ⟨-, hstate, hver, hcfg⟩ | ⟨hnot, -⟩
  swap
  · rw [hdone] at hnot
    cases hnot
  have hext : (settledView s frame).state = .exSendExtInfo :=
    ((completesDiscovery_iff s hadmitted).mp hdone).1
  have hsame := settledView_of_exSendExtInfo hext
  rw [hsame] at hver hcfg hext
  have hold : s.oams.state = .exSendExtInfo := hext
  have hinitial : s.view.oamVerType = .ctc20 := h.initial (by rw [hext]; simp)
  rw [hinitial] at hver
  have hverEq : (eoplOamPduReceive s frame).oamVerType = negotiated frame .ctc20 := hver
  have hcfgEq : (eoplOamPduReceive s frame).oamCfgVerType = s.oamCfgVerType := hcfg
  have hentered : (eoplOamPduReceive s frame).oams.state = .exSendAny := hstate
  -- both sides now speak of the completing frame and the configuration only
  have hleft : VersionAllowed (eoplOamPduReceive s frame) ↔
      verAllowed (negotiated frame .ctc20) s.oamCfgVerType = true := by
    unfold VersionAllowed
    rw [hverEq, hcfgEq]
    simp [hentered]
  have hright : EntryAllowed s (.frame frame) ↔ offersAllowed frame s.oamCfgVerType = true := by
    constructor
    · intro hentry
      obtain ⟨bytes, heq, hoffer⟩ := hentry (by rw [hold]; simp) hentered
      cases heq
      exact hoffer
    · intro hoffer _ _
      exact ⟨frame, rfl, hoffer⟩
  rw [hleft, hright]
  unfold completionAllowed
  simp only [hdone, forall_const, negotiated]
  by_cases hshort : (pstExInfoTlv frame).ucLength < 7 + 4
  · have hlist : offeredVersions frame = [(pstExInfoTlv frame).ucVersion] := if_pos hshort
    rw [if_pos hshort, if_pos hshort]
    simp [offersAllowed, hlist]
  · rw [if_neg hshort, if_neg hshort]
    simp [verAllowed, OamVer.known]

theorem step_allowed_iff {s : Sys} (e : Event) (h : VersionInv s.view)
    (hallowed : VersionAllowed s) :
    VersionAllowed (step s e) ∧ EntryAllowed s e ↔ completionAllowed s e := by
  cases e with
  | frame bytes =>
    by_cases hadmitted : pduAdmitted bytes = true
    · cases hdone : completesDiscovery s bytes with
      | true => exact completes_iff h hadmitted hdone
      | false =>
        obtain ⟨hafter, hback⟩ := versionAllowed_of_not_completes h hallowed hadmitted hdone
        constructor
        · intro _ hcontra
          rw [hdone] at hcontra
          cases hcontra
        · intro _
          refine ⟨hafter, ?_⟩
          intro hne hany
          exact absurd (hback hany) hne
    · have hsame : eoplOamPduReceive s bytes = s := by simp [eoplOamPduReceive, hadmitted]
      have hnot : completesDiscovery s bytes = false := by simp [completesDiscovery, hadmitted]
      constructor
      · intro _ hcontra
        rw [hnot] at hcontra
        cases hcontra
      · intro _
        change VersionAllowed (eoplOamPduReceive s bytes) ∧ _
        refine ⟨by rw [hsame]; exact hallowed, ?_⟩
        intro hne hany
        change (eoplOamPduReceive s bytes).oams.state = _ at hany
        rw [hsame] at hany
        exact absurd hany hne
  | linkLost =>
    have hnot := not_exSendAny_of_linkLost h.discovery
    exact ⟨fun _ => trivial, fun _ => ⟨fun hany => absurd hany hnot, fun _ hany => absurd hany hnot⟩⟩
  | ponLight => exact ⟨fun _ => trivial, fun _ => ⟨hallowed, fun hne hany => absurd hany hne⟩⟩

/-- **Version negotiation.**  A run keeps the version known and allowed whenever
it is in `EX_SEND_ANY`, and enters that state only on an offer that is known and
allowed, exactly when every frame that completes the extended discovery carries
such a version in the place the code takes it from. -/
theorem version_negotiation (board : Board) (events : List Event) :
    AllStates step VersionAllowed (start board) events ∧
        AllSteps step EntryAllowed (start board) events ↔
      AllSteps step completionAllowed (start board) events := by
  have hpassive : (start board).view.state = .passiveWait := passiveWait_oamInit rfl
  have hinv : VersionInv (start board).view := by
    refine ⟨view_powerUp_inv board, ?_⟩
    intro _
    unfold start
    rw [view_oamInit]
    rfl
  have hallowed : VersionAllowed (start board) := by
    intro hany
    have hstate : (start board).view.state = .exSendAny := hany
    rw [hpassive] at hstate
    cases hstate
  exact allStates_and_allSteps_iff step (fun s => VersionInv s.view)
    (fun s e h => h.step e) (fun s e h hs => step_allowed_iff e h hs) hinv hallowed events

/-- Configured for both versions, the module takes version `0x99` for an answer:
the ports open under a version it has no number for. -/
theorem unknown_version_reaches_exSendAny :
    ¬(AllStates step VersionAllowed (start mixBoard)
        (discoveryRun ([infoOrgSpecType, 7] ++ ctcOui ++ [1, 0x99])) ∧
      AllSteps step EntryAllowed (start mixBoard)
        (discoveryRun ([infoOrgSpecType, 7] ++ ctcOui ++ [1, 0x99]))) := by
  rintro ⟨hall, -⟩
  have hlast := hall.last
  revert hlast
  unfold VersionAllowed
  decide +kernel

end Opconn.Oam
