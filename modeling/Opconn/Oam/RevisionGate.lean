import Opconn.Oam.DiscoveryHistory

/-!
# The revision gate

Until the extended discovery begins, `eopl_oam_pdu_process` takes an Information PDU only
with a revision above the one it has recorded.  A peer counts its revision up in sixteen
bits, and the comparison does not wrap with it: the PDU that follows revision `0xFFFF` is
not above it, nor is any later one.  A PDU that starts the discovery over is taken whatever
its revision, since `OamInit` forgets the one recorded.
-/

namespace Opconn.Oam

open Runs

/-! ### What the gate lets through -/

/-- An Information PDU that `eopl_oam_pdu_receive` admits. -/
def infoPdu (frame : Buffer) : Bool := pduAdmitted frame && hdrPcode frame = oamCodeInfo

/-- The PDU passes the gate: the switch is entered with it. -/
def passesGate (s : Sys) (frame : Buffer) : Bool := pduAccepted (pduSettled (pduLoaded s frame))

theorem revision_memCpyFront (buf : Buffer) {frame : Buffer} (hlen : 64 ≤ frame.length) :
    (pInfo (memCpyFront buf frame)).revision = (pInfo frame).revision := by
  have hhigh : byteAt (memCpyFront buf frame) (pduOffset + oampduHdrSize + 3) =
      byteAt frame (pduOffset + oampduHdrSize + 3) :=
    byteAt_memCpyFront buf frame (by simp [pduOffset, oampduHdrSize]; omega)
  have hlow : byteAt (memCpyFront buf frame) (pduOffset + oampduHdrSize + 3 + 1) =
      byteAt frame (pduOffset + oampduHdrSize + 3 + 1) :=
    byteAt_memCpyFront buf frame (by simp [pduOffset, oampduHdrSize]; omega)
  simp only [pInfo, infoTlvAt, u16At, hhigh, hlow]

@[simp] theorem usRInfoTlvVer_oamInit (s : Sys) : (oamInit s).oams.usRInfoTlvVer = 0 := by
  unfold oamInit
  cases hmode : s.oams.localOamMode <;> cases s.chipRespin <;>
    simp [eoplOamStateMachine, eoplOamFaultState, readBits, hmode, oplRegWrite, Sys.act,
      brgGePortLinkControlSet, brgPonPortLinkControlSet]

theorem usRInfoTlvVer_flag8Reinit (s : Sys) :
    (flag8Reinit s).oams.usRInfoTlvVer =
      if hdrPcode s.inData = oamCodeInfo ∧ hdrFlags s.inData = 0x8 ∧ s.oams.flags = 0x10 ∧
        maxFlag8FoundCnt ≤ s.flag8FoundCnt + 1 then 0
      else s.oams.usRInfoTlvVer := by
  unfold flag8Reinit
  by_cases hframe : hdrPcode s.inData = oamCodeInfo ∧ hdrFlags s.inData = 0x8
  · rw [if_pos hframe]
    by_cases hflags : s.oams.flags = 0x10
    · by_cases hcnt : maxFlag8FoundCnt ≤ s.flag8FoundCnt + 1
      · simp only [hflags, if_true, hcnt, hframe.1, hframe.2, and_self]
        exact usRInfoTlvVer_oamInit _
      · simp [hflags, hcnt]
    · have hzero : ¬maxFlag8FoundCnt ≤ 0 := by decide
      simp [hflags, hzero]
  · rw [if_neg hframe, if_neg fun h => hframe ⟨h.1, h.2.1⟩]

theorem usRInfoTlvVer_flag48Reinit (s : Sys) :
    (flag48Reinit s).oams.usRInfoTlvVer =
      if hdrPcode s.inData = oamCodeInfo ∧ hdrFlags s.inData = 0x48 ∧ s.flag48Found = false then 0
      else s.oams.usRInfoTlvVer := by
  unfold flag48Reinit
  split
  · exact usRInfoTlvVer_oamInit _
  · rfl

/-- The switch finds the old revision, or none after an `OamInit`. -/
theorem usRInfoTlvVer_pduSettled (s : Sys) :
    (pduSettled s).oams.usRInfoTlvVer =
      if pduReinitialises s then 0 else s.oams.usRInfoTlvVer := by
  have hforgotten : ∀ t : Sys, t.oams.usRInfoTlvVer = 0 →
      (flag8Reinit t).oams.usRInfoTlvVer = 0 := by
    intro t ht
    rw [usRInfoTlvVer_flag8Reinit, ht, ite_self]
  unfold pduSettled
  by_cases hlocal : localInfoOnly s.inData = true
  · have hre : pduReinitialises s = true := by simp [pduReinitialises, hlocal]
    rw [if_pos hlocal, if_pos hre]
    apply hforgotten
    rw [usRInfoTlvVer_flag48Reinit, usRInfoTlvVer_oamInit, ite_self]
  · rw [if_neg hlocal]
    by_cases h48 : hdrPcode s.inData = oamCodeInfo ∧ hdrFlags s.inData = 0x48 ∧
        s.flag48Found = false
    · have hre : pduReinitialises s = true := by
        simp [pduReinitialises, h48.1, h48.2.1, h48.2.2]
      rw [if_pos hre]
      apply hforgotten
      rw [usRInfoTlvVer_flag48Reinit, if_pos h48]
    · have hsame : flag48Reinit s = s := if_neg h48
      have hre : pduReinitialises s = true ↔ hdrPcode s.inData = oamCodeInfo ∧
          hdrFlags s.inData = 0x8 ∧ s.oams.flags = 0x10 ∧
            maxFlag8FoundCnt ≤ s.flag8FoundCnt + 1 := by
        rw [← and_assoc] at h48
        simp only [pduReinitialises, hlocal, Bool.false_or, Bool.or_eq_true, Bool.and_eq_true,
          decide_eq_true_eq, Bool.not_eq_true', h48, false_or, and_assoc]
      rw [hsame, usRInfoTlvVer_flag8Reinit]
      simp only [hre]

/-! ### The switch keeps the revision -/

@[simp] theorem usRInfoTlvVer_faultState (s : Sys) (event : OamEvent) :
    (eoplOamFaultState s event).oams.usRInfoTlvVer = s.oams.usRInfoTlvVer := by
  unfold eoplOamFaultState
  dsimp only
  split
  · split <;> rfl
  · rfl

@[simp] theorem usRInfoTlvVer_timerProcess (s : Sys) :
    (eoplOamTimerProcess s).oams.usRInfoTlvVer = s.oams.usRInfoTlvVer := by
  unfold eoplOamTimerProcess
  split <;> rfl

@[simp] theorem usRInfoTlvVer_stateMachine (s : Sys) (event : OamEvent) :
    (eoplOamStateMachine s event).oams.usRInfoTlvVer = s.oams.usRInfoTlvVer := by
  unfold eoplOamStateMachine
  split
  · exact usRInfoTlvVer_faultState s event
  · have htimer : (if event = .pduTimer then eoplOamTimerProcess s else s).oams.usRInfoTlvVer =
        s.oams.usRInfoTlvVer := by
      split
      · exact usRInfoTlvVer_timerProcess s
      · rfl
    generalize (if event = .pduTimer then eoplOamTimerProcess s else s) = t at htimer
    dsimp only
    rw [← htimer]
    cases t.oams.state with
    | fault => exact usRInfoTlvVer_faultState t event
    | exSendOamExtInfoAck =>
      cases t.chipRespin <;>
        simp [requestInfo, eoplOamInfoTlv, brgGePortLinkControlSet, brgPonPortLinkControlSet,
          oplRegWrite, Sys.act]
    | _ => rfl

theorem usRInfoTlvVer_orgSpecDispatch (s : Sys) (framelen : Nat) :
    (orgSpecDispatch s framelen).oams.usRInfoTlvVer = s.oams.usRInfoTlvVer := by
  unfold orgSpecDispatch
  dsimp only
  split
  · split <;> rfl
  · split
    · rfl
    · split <;> rfl

theorem usRInfoTlvVer_oamLoopback (s : Sys) (code : UInt8) :
    (oamLoopback s code).oams.usRInfoTlvVer = s.oams.usRInfoTlvVer := by
  unfold oamLoopback
  split
  · rfl
  · split <;> rfl

theorem usRInfoTlvVer_pduSwitch (s : Sys) (framelen : Nat) :
    (pduSwitch s framelen).oams.usRInfoTlvVer = s.oams.usRInfoTlvVer := by
  unfold pduSwitch
  dsimp only
  cases s.oams.state with
  | activeSendLocal | passiveWait =>
    dsimp only
    split
    · rw [usRInfoTlvVer_stateMachine]
      split <;> rfl
    · rfl
  | sendLocalRemote =>
    dsimp only
    split <;> exact usRInfoTlvVer_stateMachine _ _
  | sendLocalRemoteOk =>
    dsimp only
    split
    · split <;> exact usRInfoTlvVer_stateMachine _ _
    · rfl
  | sendAny =>
    dsimp only
    split
    · exact usRInfoTlvVer_stateMachine _ _
    · rfl
  | exPassiveWait =>
    dsimp only
    split
    · split <;> exact usRInfoTlvVer_stateMachine _ _
    · rfl
  | exSendExtInfo =>
    dsimp only
    split
    · split
      · refine (usRInfoTlvVer_stateMachine _ _).trans ?_
        split <;> rfl
      · rfl
    · rfl
  | exSendOamExtInfoAck =>
    dsimp only
    have hstep : ∀ t : Sys, t.oams = s.oams →
        (if t.oams.usRInfoTlvVer = 0 ∨ t.oams.usRInfoTlvVer < (pInfo s.inData).revision then
          eoplOamStateMachine (t.goto .exSendAny) .oamPduRx
        else t).oams.usRInfoTlvVer = s.oams.usRInfoTlvVer := by
      intro t ht
      split
      · rw [usRInfoTlvVer_stateMachine, ← ht]
        rfl
      · rw [ht]
    apply hstep
    repeat' split
    all_goals rfl
  | exSendAny =>
    dsimp only
    split
    · rw [usRInfoTlvVer_stateMachine]
      split <;> rfl
    · split
      · exact usRInfoTlvVer_orgSpecDispatch s framelen
      · split
        · rfl
        · split
          · exact usRInfoTlvVer_oamLoopback s _
          · rfl
  | fault | exSendOamExtInfoNack | exSendAnyNoExt => rfl

/-- **The gate.**  What it lets through of the Information PDUs. -/
theorem passesGate_iff (s : Sys) {frame : Buffer} (hinfo : infoPdu frame = true) :
    passesGate s frame = true ↔
      pduReinitialises (pduLoaded s frame) = true ∨ s.oams.usRInfoTlvVer = 0 ∨
        s.oams.usRInfoTlvVer < (pInfo frame).revision ∨
        DiscoveryState.sendAny.code < s.oams.state.code := by
  simp only [infoPdu, Bool.and_eq_true, decide_eq_true_eq] at hinfo
  obtain ⟨hadmitted, hcode⟩ := hinfo
  have hlen := length_of_pduAdmitted hadmitted
  have hdata : (pduSettled (pduLoaded s frame)).inData = memCpyFront s.inData frame :=
    (pduSettled_spec (pduLoaded s frame)).2
  have hpcode : hdrPcode (memCpyFront s.inData frame) = oamCodeInfo := by
    rw [hdrPcode_memCpyFront _ (by omega), hcode]
  have hversion : (pduLoaded s frame).oams.usRInfoTlvVer = s.oams.usRInfoTlvVer := rfl
  simp only [passesGate, pduAccepted, hdata, hpcode, revision_memCpyFront _ hlen,
    usRInfoTlvVer_pduSettled, state_pduSettled, hversion, settledView, ne_eq, not_true_eq_false,
    decide_false, Bool.false_or, Bool.or_eq_true, decide_eq_true_eq]
  cases pduReinitialises (pduLoaded s frame) with
  | true => simp only [if_true, true_or]
  | false =>
    simp only [Bool.false_eq_true, if_false, false_or, or_assoc]
    rfl

/-! ### Revisions received -/

/-- A run with the revision of the last Information PDU received. -/
structure Watched where
  sys : Sys
  revision : Option UInt16

def watchedStep (w : Watched) (e : Event) : Watched where
  sys := step w.sys e
  revision :=
    match e with
    | .frame bytes => if infoPdu bytes then some (pInfo bytes).revision else w.revision
    | _ => w.revision

/-- The peer's revision stays as it is, or advances by one. -/
def Advances (w : Watched) : Event → Prop
  | .frame bytes =>
    infoPdu bytes = true → ∀ revision ∈ w.revision,
      (pInfo bytes).revision = revision ∨ (pInfo bytes).revision = revision + 1
  | _ => True

/-- A PDU with a revision not received before it passes the gate, unless discovery is
complete. -/
def FreshTaken (w : Watched) : Event → Prop
  | .frame bytes =>
    infoPdu bytes = true → w.revision ≠ some (pInfo bytes).revision →
      w.sys.oams.state ≠ .exSendAny → passesGate w.sys bytes = true
  | _ => True

/-- The revision does not wrap while the gate compares it. -/
def WrapsApart (w : Watched) : Event → Prop
  | .frame bytes =>
    infoPdu bytes = true → w.revision = some 0xFFFF → (pInfo bytes).revision = 0 →
      pduReinitialises (pduLoaded w.sys bytes) = true ∨ w.sys.oams.usRInfoTlvVer = 0 ∨
        DiscoveryState.sendAny.code < w.sys.oams.state.code
  | _ => True

instance (w : Watched) : (e : Event) → Decidable (Advances w e)
  | .frame bytes =>
    -- over the recorded revision, not over all of `UInt16`
    have : Decidable (∀ revision ∈ w.revision,
        (pInfo bytes).revision = revision ∨ (pInfo bytes).revision = revision + 1) :=
      Option.decidableForallMem w.revision
    inferInstanceAs (Decidable (_ → _))
  | .linkLost | .ponLight => inferInstanceAs (Decidable True)

instance (w : Watched) : (e : Event) → Decidable (FreshTaken w e)
  | .frame _ => inferInstanceAs (Decidable (_ → _))
  | .linkLost | .ponLight => inferInstanceAs (Decidable True)

instance (w : Watched) : (e : Event) → Decidable (WrapsApart w e)
  | .frame _ => inferInstanceAs (Decidable (_ → _))
  | .linkLost | .ponLight => inferInstanceAs (Decidable True)

/-- The recorded revision is the last one received, or none. -/
def Recorded (w : Watched) : Prop :=
  w.sys.oams.usRInfoTlvVer = 0 ∨ w.revision = some w.sys.oams.usRInfoTlvVer

/-- What is recorded behind a PDU, whether it passed the gate or not. -/
theorem usRInfoTlvVer_receive (s : Sys) {frame : Buffer} (hadmitted : pduAdmitted frame = true) :
    (eoplOamPduReceive s frame).oams.usRInfoTlvVer =
      if infoPdu frame && passesGate s frame then (pInfo frame).revision
      else if pduReinitialises (pduLoaded s frame) then 0 else s.oams.usRInfoTlvVer := by
  have hlen := length_of_pduAdmitted hadmitted
  have hdata : (pduSettled (pduLoaded s frame)).inData = memCpyFront s.inData frame :=
    (pduSettled_spec (pduLoaded s frame)).2
  have hinfo : infoPdu frame = decide (hdrPcode (memCpyFront s.inData frame) = oamCodeInfo) := by
    rw [hdrPcode_memCpyFront _ hlen, infoPdu, hadmitted, Bool.true_and]
  have hsettled : (pduSettled (pduLoaded s frame)).oams.usRInfoTlvVer =
      if pduReinitialises (pduLoaded s frame) then 0 else s.oams.usRInfoTlvVer :=
    usRInfoTlvVer_pduSettled _
  rw [eoplOamPduReceive_eq s frame hadmitted]
  split
  · next htx =>
    have hcode : hdrPcode (memCpyFront s.inData frame) = oamCodeOrgSpec := by
      simp only [txPowerPdu, Bool.and_eq_true, decide_eq_true_eq] at htx
      exact htx.1
    have hnot : infoPdu frame = false := by
      rw [hinfo, hcode]
      decide
    rw [hnot, Bool.false_and, if_neg Bool.false_ne_true,
      not_pduReinitialises_of_txPower htx, if_neg Bool.false_ne_true]
    rfl
  · unfold pduDiscovery
    rw [← passesGate, hdata]
    by_cases hpass : passesGate s frame = true
    · rw [if_pos hpass, usRInfoTlvVer_pduSwitch, hinfo, hpass, Bool.and_true]
      by_cases hcode : hdrPcode (memCpyFront s.inData frame) = oamCodeInfo
      · simp only [hcode, if_true, decide_true, revision_memCpyFront _ hlen]
      · simp only [hcode, if_false, decide_false, Bool.false_eq_true, hsettled]
    · rw [if_neg hpass, hsettled, Bool.not_eq_true] at *
      rw [hpass, Bool.and_false, if_neg Bool.false_ne_true]

theorem Recorded.step {w : Watched} (h : Recorded w) {e : Event} (htaken : FreshTaken w e) :
    Recorded (watchedStep w e) := by
  cases e with
  | ponLight => exact h
  | linkLost =>
    left
    change (linkLost w.sys).oams.usRInfoTlvVer = 0
    unfold linkLost boardReset
    split <;> exact usRInfoTlvVer_oamInit _
  | frame bytes =>
    change Recorded ⟨eoplOamPduReceive w.sys bytes, _⟩
    by_cases hadmitted : pduAdmitted bytes = true
    · rw [Recorded]
      dsimp only
      rw [usRInfoTlvVer_receive w.sys hadmitted]
      by_cases hinfo : infoPdu bytes = true
      · simp only [hinfo, Bool.true_and, if_true]
        by_cases hpass : passesGate w.sys bytes = true
        · right
          rw [if_pos hpass]
        · -- a PDU that did not pass has the revision that is recorded
          have hgate := mt (passesGate_iff w.sys hinfo).mpr hpass
          simp only [not_or, Bool.not_eq_true] at hgate
          obtain ⟨hre, hne, -, hcode⟩ := hgate
          have hstate : w.sys.oams.state ≠ .exSendAny := by
            intro hany
            rw [hany] at hcode
            exact hcode (by decide)
          have hold : w.revision = some (pInfo bytes).revision := by
            by_contra hfresh
            exact hpass (htaken hinfo hfresh hstate)
          have hversion := h.resolve_left hne
          rw [hold, Option.some.injEq] at hversion
          right
          rw [if_neg hpass, hre, if_neg Bool.false_ne_true, hversion]
      · rw [Bool.not_eq_true] at hinfo
        simp only [hinfo, Bool.false_and, Bool.false_eq_true, if_false]
        split
        · exact Or.inl rfl
        · exact h
    · have hinfo : infoPdu bytes = false := by
        rw [Bool.not_eq_true] at hadmitted
        rw [infoPdu, hadmitted, Bool.false_and]
      have hsame : eoplOamPduReceive w.sys bytes = w.sys := if_neg hadmitted
      simp only [hinfo, hsame, Bool.false_eq_true, if_false]
      exact h

/-- A fresh PDU passes the gate exactly when its revision has not wrapped there. -/
theorem Recorded.freshTaken_iff {w : Watched} (h : Recorded w) {e : Event} (hpeer : Advances w e) :
    FreshTaken w e ↔ WrapsApart w e := by
  cases e with
  | ponLight => exact Iff.rfl
  | linkLost => exact Iff.rfl
  | frame bytes =>
    constructor
    · intro htaken hinfo hlast hzero
      by_cases hstate : w.sys.oams.state = .exSendAny
      · right
        right
        rw [hstate]
        decide
      · have hfresh : w.revision ≠ some (pInfo bytes).revision := by
          rw [hlast, hzero]
          decide
        rcases (passesGate_iff w.sys hinfo).mp (htaken hinfo hfresh hstate) with
          hre | hnone | hlt | hcode
        · exact Or.inl hre
        · exact Or.inr (Or.inl hnone)
        · rw [hzero, UInt16.lt_iff_toNat_lt] at hlt
          exact absurd hlt (Nat.not_lt_zero _)
        · exact Or.inr (Or.inr hcode)
    · intro hwraps hinfo hfresh _
      rw [passesGate_iff w.sys hinfo]
      rcases h with hnone | hrecorded
      · exact Or.inr (Or.inl hnone)
      · have hnext : (pInfo bytes).revision = w.sys.oams.usRInfoTlvVer + 1 := by
          rcases hpeer hinfo _ hrecorded with hsame | hnext
          · rw [← hsame] at hrecorded
            exact absurd hrecorded hfresh
          · exact hnext
        by_cases hlast : w.sys.oams.usRInfoTlvVer = 0xFFFF
        · rw [hlast] at hnext hrecorded
          rcases hwraps hinfo hrecorded hnext with hre | hnone | hcode
          · exact Or.inl hre
          · exact Or.inr (Or.inl hnone)
          · exact Or.inr (Or.inr (Or.inr hcode))
        · right
          right
          left
          rw [hnext, UInt16.lt_iff_toNat_lt, UInt16.toNat_add]
          have hlt := w.sys.oams.usRInfoTlvVer.toNat_lt
          have hne : w.sys.oams.usRInfoTlvVer.toNat ≠ 65535 := fun heq =>
            hlast (UInt16.toNat_inj.mp heq)
          rw [show (1 : UInt16).toNat = 1 from rfl]
          omega

/-- **Fresh Information PDUs.**  Whatever the peer's first revision is, when it advances by
one at a time the fresh PDUs are all taken until discovery is complete, exactly when the
revision wraps only where the gate does not compare it. -/
theorem fresh_pdus_taken_iff (board : Board) (events : List Event)
    (hpeer : AllSteps watchedStep Advances ⟨start board, none⟩ events) :
    AllSteps watchedStep FreshTaken ⟨start board, none⟩ events ↔
      AllSteps watchedStep WrapsApart ⟨start board, none⟩ events :=
  allSteps_iff watchedStep Recorded (fun _ _ h _ htaken => h.step htaken)
    (fun _ _ h hpeer => h.freshTaken_iff hpeer) (Or.inl (usRInfoTlvVer_oamInit _)) hpeer

/-- An Information PDU with any revision. -/
def revisionFrame (flags : UInt8) (revision : UInt16) : Buffer :=
  (infoFrame flags revision.toUInt8 []).set 25 (revision >>> 8).toUInt8

theorem fresh_pdus_taken_up_to_wrap :
    let events := [0xFFFD, 0xFFFE, 0xFFFF].map fun revision =>
      Event.frame (revisionFrame 0x50 revision)
    AllSteps watchedStep FreshTaken ⟨start mixBoard, none⟩ events := by
  intro events
  have hpeer : AllSteps watchedStep Advances ⟨start mixBoard, none⟩ events := by decide +kernel
  have hwraps : AllSteps watchedStep WrapsApart ⟨start mixBoard, none⟩ events := by
    decide +kernel
  exact (fresh_pdus_taken_iff mixBoard events hpeer).mpr hwraps

/-- The PDU with revision 0 that follows `0xFFFF` is dropped. -/
theorem wrapped_revision_dropped :
    ¬∀ (board : Board) (events : List Event),
      AllSteps watchedStep Advances ⟨start board, none⟩ events →
        AllSteps watchedStep FreshTaken ⟨start board, none⟩ events := by
  intro h
  have htaken := h mixBoard
    [.frame (revisionFrame 0x08 0xFFFF), .frame (revisionFrame 0x50 0)] (by decide +kernel)
  revert htaken
  decide +kernel

end Opconn.Oam
