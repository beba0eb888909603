import Mathlib.Data.List.GetD
import Opconn.Lib.Runs
import Opconn.Oam.DiscoveryView

/-!
# Discovery safety

What holds after every event of every run: discovery rests in one of five
states, the GE user port is open only in `EX_SEND_ANY`, and organisation-specific
PDUs reach a handler only there (the transmitter-power PDU apart).  The invariant
is stated on views; `view_step` reduces a step of the embedding to at most one
`View.init` followed by at most one `View.switch`.
-/

namespace Opconn.Oam

open Runs

/-! ### Received bytes -/

theorem bytesAt_eq_take_drop (buf : Buffer) (offset count : Nat)
    (hlen : offset + count ≤ buf.length) :
    bytesAt buf offset count = (buf.drop offset).take count := by
  apply List.ext_getElem
  · simp [bytesAt]
    omega
  · intro i hi hi'
    simp only [bytesAt, List.length_map, List.length_range] at hi
    simp only [bytesAt, byteAt, List.getElem_map, List.getElem_range, List.getElem_take,
      List.getElem_drop]
    exact List.getD_eq_getElem _ _ (by omega)

theorem length_of_pduAdmitted {frame : Buffer} (hadmitted : pduAdmitted frame = true) :
    64 ≤ frame.length := by
  simp only [pduAdmitted, Bool.and_eq_true, decide_eq_true_eq] at hadmitted
  exact hadmitted.1

/-- The bytes a handler gets are the frame behind its host header. -/
theorem pduBytes_pduLoaded (s : Sys) (frame : Buffer) (hlen : 4 ≤ frame.length) :
    pduBytes (pduLoaded s frame) frame.length = frame.drop pduOffset := by
  have hdrop : (memCpyFront s.inData frame).drop pduOffset =
      frame.drop pduOffset ++ s.inData.drop frame.length := by
    unfold memCpyFront
    exact List.drop_append_of_le_length hlen
  change ((memCpyFront s.inData frame).drop pduOffset).take (frame.length - 4) = _
  rw [hdrop, List.take_append_of_le_length (by simp [pduOffset])]
  exact List.take_of_length_le (by simp [pduOffset])

theorem txPowerPdu_begins (s : Sys) (frame : Buffer) (hadmitted : pduAdmitted frame = true)
    (htx : txPowerPdu (memCpyFront s.inData frame) = true) :
    ((frame.drop pduOffset).drop oampduHdrSize).take 7 = txPowerSetPdu := by
  have hlen := length_of_pduAdmitted hadmitted
  simp only [txPowerPdu, Bool.and_eq_true, decide_eq_true_eq] at htx
  have hbytes : bytesAt (memCpyFront s.inData frame) (pduOffset + oampduHdrSize) 7 =
      (frame.drop (pduOffset + oampduHdrSize)).take 7 := by
    rw [bytesAt_eq_take_drop]
    · unfold memCpyFront
      rw [List.drop_append_of_le_length (by simp [pduOffset, oampduHdrSize]; omega),
        List.take_append_of_le_length (by simp [pduOffset, oampduHdrSize]; omega)]
    · simp only [memCpyFront, pduOffset, oampduHdrSize, List.length_append]
      omega
  rw [List.drop_drop, ← hbytes]
  exact htx.2

/-! ### One event on views -/

/-- The transmitter-power PDU is no Information PDU, so it restarts nothing. -/
theorem not_pduReinitialises_of_txPower {s : Sys} {frame : Buffer}
    (htx : txPowerPdu (memCpyFront s.inData frame) = true) :
    pduReinitialises (pduLoaded s frame) = false := by
  have hcode : hdrPcode (pduLoaded s frame).inData = oamCodeOrgSpec := by
    simp only [txPowerPdu, Bool.and_eq_true, decide_eq_true_eq] at htx
    exact htx.1
  simp [pduReinitialises, localInfoOnly, hcode, oamCodeOrgSpec, oamCodeInfo]

/-- The view in which the switch finds a frame. -/
def settledView (s : Sys) (frame : Buffer) : View :=
  if pduReinitialises (pduLoaded s frame) then s.view.init else s.view

theorem view_pduSettled (s : Sys) (frame : Buffer) :
    (pduSettled (pduLoaded s frame)).view = settledView s frame :=
  (pduSettled_spec (pduLoaded s frame)).1

theorem state_pduSettled (s : Sys) (frame : Buffer) :
    (pduSettled (pduLoaded s frame)).oams.state = (settledView s frame).state := by
  rw [← view_pduSettled]
  rfl

theorem view_receive (s : Sys) (frame : Buffer) (hadmitted : pduAdmitted frame = true)
    (hrest : (settledView s frame).state.resting = true) :
    (eoplOamPduReceive s frame).view =
      if txPowerPdu (memCpyFront s.inData frame) then
        s.view.dispatch .ctcPduProcess (frame.drop pduOffset)
      else if pduAccepted (pduSettled (pduLoaded s frame)) then
        (settledView s frame).switch (memCpyFront s.inData frame) (frame.drop pduOffset)
      else settledView s frame := by
  have hlen : 4 ≤ frame.length := by
    have hadm := length_of_pduAdmitted hadmitted
    omega
  have hdata := (pduSettled_spec (pduLoaded s frame)).2
  have hpdu : pduBytes (pduSettled (pduLoaded s frame)) frame.length = frame.drop pduOffset := by
    rw [← pduBytes_pduLoaded s frame hlen]
    unfold pduBytes
    rw [hdata]
  rw [eoplOamPduReceive_eq s frame hadmitted]
  split
  · rw [view_dispatch, pduBytes_pduLoaded s frame hlen]
    rfl
  · have hstate : (pduSettled (pduLoaded s frame)).oams.state.resting = true := by
      rw [state_pduSettled]
      exact hrest
    rw [view_pduDiscovery _ _ hstate, view_pduSettled, hpdu, hdata]
    rfl

/-! ### The invariant -/

structure DiscoveryInv (v : View) : Prop where
  mode : v.localOamMode = .unset
  resting : v.state.resting = true
  gePort : v.geTrsmtEn = true → v.state = .exSendAny
  dispatched : ∀ d ∈ v.dispatched,
    d.state = .exSendAny ∨ (d.pdu.drop oampduHdrSize).take 7 = txPowerSetPdu

theorem DiscoveryInv.init {v : View} (h : DiscoveryInv v) : DiscoveryInv v.init where
  mode := h.mode
  resting := by simp [View.init, h.mode, DiscoveryState.resting]
  gePort := by simp [View.init]
  dispatched := h.dispatched

theorem DiscoveryInv.dispatch {v : View} (h : DiscoveryInv v) (handler : OrgHandler)
    {pdu : List UInt8}
    (hpdu : v.state = .exSendAny ∨ (pdu.drop oampduHdrSize).take 7 = txPowerSetPdu) :
    DiscoveryInv (v.dispatch handler pdu) where
  mode := h.mode
  resting := h.resting
  gePort := h.gePort
  dispatched := by
    intro d hd
    simp only [View.dispatch, List.mem_append, List.mem_singleton] at hd
    rcases hd with hd | rfl
    · exact h.dispatched d hd
    · exact hpdu

theorem DiscoveryInv.switch {v : View} (h : DiscoveryInv v) (buf : Buffer) (pdu : List UInt8) :
    DiscoveryInv (v.switch buf pdu) := by
  have hport : v.state ≠ .exSendAny → v.geTrsmtEn = false := by
    intro hne
    cases hge : v.geTrsmtEn with
    | false => rfl
    | true => exact absurd (h.gePort hge) hne
  have hswitch := v.switched buf pdu
  generalize v.switch buf pdu = v' at hswitch ⊢
  cases hswitch with
  | opened | waited => exact ⟨h.mode, by simp_all [DiscoveryState.resting], by simp, h.dispatched⟩
  | stabilised hv => exact ⟨h.mode, rfl, by simp [hport (by simp [hv])], h.dispatched⟩
  | offered hv => exact ⟨h.mode, rfl, by simp [hport (by simp [hv])], h.dispatched⟩
  | acknowledged => exact ⟨h.mode, rfl, fun _ => rfl, h.dispatched⟩
  | renamed => exact ⟨h.mode, h.resting, h.gePort, h.dispatched⟩
  | dispatched hv handler => exact h.dispatch handler (Or.inl hv)
  | kept => exact h

theorem DiscoveryInv.settled {s : Sys} (h : DiscoveryInv s.view) (frame : Buffer) :
    DiscoveryInv (settledView s frame) := by
  unfold settledView
  split
  · exact h.init
  · exact h

/-- One received frame keeps the invariant. -/
theorem DiscoveryInv.receive {s : Sys} (h : DiscoveryInv s.view) (frame : Buffer) :
    DiscoveryInv (eoplOamPduReceive s frame).view := by
  by_cases hadmitted : pduAdmitted frame = true
  · have hsettled := h.settled frame
    rw [view_receive s frame hadmitted hsettled.resting]
    split
    · rename_i htx
      exact h.dispatch _ (Or.inr (txPowerPdu_begins s frame hadmitted htx))
    · split
      · exact hsettled.switch _ _
      · exact hsettled
  · unfold eoplOamPduReceive
    rw [if_neg hadmitted]
    exact h

theorem view_powerUp_inv (board : Board) : DiscoveryInv (start board).view := by
  unfold start
  rw [view_oamInit]
  exact ⟨rfl, rfl, by simp [View.init], by simp [View.init, powerUp, Sys.view, dispatches]⟩

/-- A board reset starts from scratch; what was handed over before it stays so. -/
theorem DiscoveryInv.boardReset {s : Sys} (h : DiscoveryInv s.view) :
    DiscoveryInv (boardReset s).view := by
  unfold Oam.boardReset
  rw [view_oamInit]
  exact ⟨rfl, rfl, by simp [View.init], h.dispatched⟩

theorem DiscoveryInv.step {s : Sys} (h : DiscoveryInv s.view) (e : Event) :
    DiscoveryInv (step s e).view := by
  cases e with
  | frame bytes => exact h.receive bytes
  | linkLost =>
    unfold Oam.step linkLost
    dsimp only
    split
    · exact h.boardReset
    · rw [view_oamInit]
      exact h.init
  | ponLight => exact ⟨h.mode, h.resting, h.gePort, h.dispatched⟩

theorem run_inv (board : Board) (events : List Event) :
    DiscoveryInv (run step (start board) events).view :=
  run_invariant step (fun s => DiscoveryInv s.view) (fun _ e h => h.step e)
    (view_powerUp_inv board) events

/-- **Discovery safety.**  After every sequence of events, discovery is in one of
its five resting states, the GE port is open only in `EX_SEND_ANY`, and every
organisation-specific PDU handed to a handler was handed over in `EX_SEND_ANY` or
begins with the transmitter-power prefix. -/
theorem discovery_safe (board : Board) (events : List Event) :
    let s := run step (start board) events
    s.oams.state ∈ [.passiveWait, .sendLocalRemoteOk, .exPassiveWait, .exSendExtInfo, .exSendAny] ∧
      (s.geTrsmtEn = true → s.oams.state = .exSendAny) ∧
      ∀ d ∈ dispatches s.log,
        d.state = .exSendAny ∨ (d.pdu.drop oampduHdrSize).take 7 = txPowerSetPdu := by
  intro s
  have hinv : DiscoveryInv s.view := run_inv board events
  refine ⟨?_, hinv.gePort, hinv.dispatched⟩
  have hrest : s.oams.state.resting = true := hinv.resting
  revert hrest
  cases s.oams.state <;> simp [DiscoveryState.resting]

end Opconn.Oam
