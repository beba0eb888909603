import Opconn.Rstp.PortStates

/-!
# What a port may rely on

The port information machine says by its state where the information of the port comes from; the
number of a port is in its identifier and in every vector that it has kept from a packet; and a port
whose path cost has been looked at costs something.
-/

namespace Opconn.Rstp

/-! ### Where the information comes from -/

/-- Where the information of a port comes from, by the state of the machine. -/
def InfoOk (st : InfoState) (infoIs : InfoIs) : Prop :=
  match st with
  | .begin => infoIs = .mine ∨ infoIs = .disabled
  | .rstpPortDisabled => infoIs = .disabled
  | .aged => infoIs = .aged
  | .update => infoIs = .mine
  | .current | .receive | .superiorDesignated | .repeatedDesignated | .inferiorDesignated
  | .notDesignated | .other => infoIs = .mine ∨ infoIs = .received

/-- The information of a port comes from where its machine says. -/
def Port.InfoOk (p : Port) : Prop := Rstp.InfoOk p.info p.infoIs

/-- The states in which the machine has looked at a packet. -/
def InfoState.isReceived (st : InfoState) : Prop :=
  st = .superiorDesignated ∨ st = .repeatedDesignated ∨ st = .inferiorDesignated ∨
    st = .notDesignated ∨ st = .other

/-- Where the port information machine hops. -/
theorem infoNext_cases {p : Port} {st : InfoState} (h : infoNext p = some st) :
    st = .rstpPortDisabled ∨ (st = .aged ∧ p.info ≠ .begin) ∨
      (st = .update ∧ (p.info = .aged ∨ p.info = .current) ∧ p.selected = true ∧
        p.updtInfo = true ∧ (p.portEnabled = true ∨ p.infoIs = .disabled)) ∨
      (st = .current ∧ (p.info = .update ∨ p.info.isReceived)) ∨
      (st = .receive ∧ p.info = .current ∧ p.rcvdMsg.isSet = true) ∨
      (p.info = .receive ∧ st = receivedState p.rcvdInfo) := by
  rw [infoNext] at h
  split at h
  · cases h
    exact Or.inl rfl
  · next hup =>
    have hlink : p.portEnabled = true ∨ p.infoIs = .disabled := by
      simp only [Bool.and_eq_true, Bool.not_eq_true', bne_iff_ne, ne_eq, not_and,
        Decidable.not_not] at hup
      cases hen : p.portEnabled with
      | true => exact Or.inl rfl
      | false => exact Or.inr (hup hen)
    cases hst : p.info with
    | begin =>
      rw [hst] at h
      cases h
      exact Or.inl rfl
    | rstpPortDisabled =>
      simp only [hst] at h
      split at h
      · cases h
        exact Or.inl rfl
      · split at h
        · cases h
          exact Or.inr (Or.inl ⟨rfl, by simp⟩)
        · cases h
    | aged =>
      simp only [hst, Option.ite_none_right_eq_some, Option.some.injEq, Bool.and_eq_true] at h
      exact Or.inr (Or.inr (Or.inl ⟨h.2.symm, Or.inl rfl, h.1.1, h.1.2, hlink⟩))
    | current =>
      simp only [hst] at h
      split at h
      · next hupdt =>
        cases h
        rw [Bool.and_eq_true] at hupdt
        exact Or.inr (Or.inr (Or.inl ⟨rfl, Or.inr rfl, hupdt.1, hupdt.2, hlink⟩))
      · split at h
        · cases h
          exact Or.inr (Or.inl ⟨rfl, by simp⟩)
        · split at h
          · next hmsg =>
            cases h
            rw [Bool.and_eq_true] at hmsg
            exact Or.inr (Or.inr (Or.inr (Or.inr (Or.inl ⟨rfl, rfl, hmsg.1⟩))))
          · cases h
    | receive =>
      rw [hst] at h
      cases h
      exact Or.inr (Or.inr (Or.inr (Or.inr (Or.inr ⟨rfl, rfl⟩))))
    | update =>
      rw [hst] at h
      cases h
      exact Or.inr (Or.inr (Or.inr (Or.inl ⟨rfl, Or.inl rfl⟩)))
    | superiorDesignated | repeatedDesignated | inferiorDesignated | notDesignated | other =>
      rw [hst] at h
      cases h
      exact Or.inr (Or.inr (Or.inr (Or.inl ⟨rfl, Or.inr (by simp [InfoState.isReceived])⟩)))

theorem receivedState_isReceived (i : PortInfo) : (receivedState i).isReceived := by
  cases i <;> simp [receivedState, InfoState.isReceived]

/-- The machine comes to `CURRENT` and leaves it for a packet with information in hand. -/
theorem InfoOk.hasInfo {st : InfoState} {infoIs : InfoIs} (h : InfoOk st infoIs)
    (hst : st = .update ∨ st = .current ∨ st = .receive ∨ st.isReceived) :
    infoIs = .mine ∨ infoIs = .received := by
  rcases hst with rfl | rfl | rfl | hst
  · exact Or.inl h
  · exact h
  · exact h
  · rcases hst with rfl | rfl | rfl | rfl | rfl <;> exact h

theorem Port.InfoOk.fire {s : Stpm} {p : Port} {st : InfoState} (h : p.InfoOk)
    (hnext : infoNext p = some st) : (infoEnterState s st { p with info := st }).InfoOk := by
  have hcases := infoNext_cases hnext
  have hkept : st = .current ∨ st = .receive ∨ st = .repeatedDesignated ∨
      st = .inferiorDesignated ∨ st = .notDesignated ∨ st = .other →
      p.infoIs = .mine ∨ p.infoIs = .received := by
    intro hst
    rcases hcases with hc | ⟨hc, -⟩ | ⟨hc, -⟩ | ⟨-, hc⟩ | ⟨-, hc, -⟩ | ⟨hc, -⟩
    · simp [hc] at hst
    · simp [hc] at hst
    · simp [hc] at hst
    · exact InfoOk.hasInfo h (hc.imp_right (fun hr => Or.inr (Or.inr hr)))
    · exact InfoOk.hasInfo h (Or.inr (Or.inl hc))
    · exact InfoOk.hasInfo h (Or.inr (Or.inr (Or.inl hc)))
  cases st with
  | begin => exact Or.inr rfl
  | rstpPortDisabled => exact rfl
  | aged => exact rfl
  | update => exact rfl
  | superiorDesignated => exact Or.inr rfl
  | current => exact hkept (by simp)
  | receive => exact hkept (by simp)
  | repeatedDesignated => exact hkept (by simp)
  | inferiorDesignated => exact hkept (by simp)
  | notDesignated => exact hkept (by simp)
  | other => exact hkept (by simp)

/-! ### Path costs -/

/-- The path cost of a port has not been looked at, or is positive. -/
def Port.PcostOk (p : Port) : Prop := p.pcost = .begin ∨ p.operPCost ≠ 0

theorem computeAutoPCost_ne_zero (speed : UInt32) : computeAutoPCost speed ≠ 0 := by
  rw [computeAutoPCost]
  repeat' split
  all_goals decide

theorem Port.PcostOk.fire {p : Port} {st : PcostState} (h : p.PcostOk)
    (hnext : pcostNext p = some st) : (pcostEnterState st { p with pcost := st }).PcostOk := by
  have hauto : computeAutoPCost getPortOperSpeed ≠ 0 := computeAutoPCost_ne_zero _
  rw [pcostNext] at hnext
  cases hst : p.pcost with
  | begin =>
    rw [hst] at hnext
    cases hnext
    exact Or.inr hauto
  | auto | forse =>
    rw [hst] at hnext
    cases hnext
    exact Or.inr (h.resolve_left (by simp [hst]))
  | stable =>
    simp only [hst] at hnext
    split at hnext
    · cases hnext
      exact Or.inr hauto
    · split at hnext
      · next hforse =>
        cases hnext
        have hadmin : p.adminPCost ≠ 0 := by
          rw [Bool.and_eq_true] at hforse
          simpa [adminPortPathCostAuto] using hforse.1
        exact Or.inr hadmin
      · cases hnext

/-! ### Packets sent -/

/-- A port has not sent more at once than it may, and has sent nothing before its machine works. -/
structure TxOk (st : TransmitState) (txCount : Nat) : Prop where
  hold : txCount ≤ txHoldCount
  begin : st = .begin → txCount = 0

/-- A port has not sent more at once than it may. -/
def Port.TxOk (p : Port) : Prop := Rstp.TxOk p.transmit p.timers.txCount

/-- The machine sends when it has news and may send. -/
theorem transmitNext_sends {p : Port} {st : TransmitState} (h : transmitNext p = some st)
    (hst : st = .transmitConfig ∨ st = .transmitTcn ∨ st = .transmitRstp) :
    p.transmit = .idle ∧ p.selected = true ∧ p.updtInfo = false ∧ p.newInfo = true ∧
      p.timers.txCount < txHoldCount := by
  rw [transmitNext] at h
  cases htx : p.transmit with
  | idle =>
    simp only [htx, Option.ite_none_left_eq_some, Bool.or_eq_true, Bool.not_eq_true', not_or,
      Bool.not_eq_false, Bool.not_eq_true] at h
    obtain ⟨⟨hselected, hupdt⟩, h⟩ := h
    split at h
    · cases h
      simp at hst
    · simp only [Option.ite_none_right_eq_some, Bool.and_eq_true, decide_eq_true_eq] at h
      exact ⟨rfl, hselected, hupdt, h.1.1, h.1.2⟩
  | _ =>
    rw [htx] at h
    cases h
    simp at hst

theorem transmitNext_ne_begin {p : Port} : transmitNext p ≠ some .begin := by
  intro h
  rw [transmitNext] at h
  repeat' split at h
  all_goals cases h

theorem Port.TxOk.fire {s : Stpm} {p : Port} {st : TransmitState} (h : p.TxOk)
    (hnext : transmitNext p = some st) :
    (transmitEnterState s st { p with transmit := st }).TxOk := by
  have hsend : st = .transmitConfig ∨ st = .transmitTcn ∨ st = .transmitRstp →
      p.timers.txCount + 1 ≤ txHoldCount :=
    fun hst => (transmitNext_sends hnext hst).2.2.2.2
  cases st with
  | begin => exact absurd hnext transmitNext_ne_begin
  | transmitInit => exact ⟨Nat.zero_le _, fun _ => rfl⟩
  | transmitPeriodic => exact ⟨h.hold, nofun⟩
  | idle => exact ⟨h.hold, nofun⟩
  | transmitConfig => exact ⟨hsend (by simp), nofun⟩
  | transmitTcn => exact ⟨hsend (by simp), nofun⟩
  | transmitRstp => exact ⟨hsend (by simp), nofun⟩

/-! ### Identifiers -/

/-- The low byte of an identifier is the number of the port. -/
def Names (id : UInt16) (portIndex : Nat) : Prop := id.toNat % 256 = portIndex

/-- A port has looked at no packet that carries a vector: what has come in is a topology change
notification, if anything. -/
structure NoVector (msgPortRole msgBpduType : UInt8) (rcvdBpdu : Bool) (rcvdMsg : RcvdMsg)
    (info : InfoState) (rcvdInfo : PortInfo) : Prop where
  role : msgPortRole ≠ rstpPortRoleDesgn
  notification : msgBpduType = bpduTopoChangeType ∨ (rcvdBpdu = false ∧ rcvdMsg.isSet = false)
  received : info = .receive → rcvdInfo ≠ .superiorDesignatedInfo
  superior : info ≠ .superiorDesignated

/-- The identifiers of a port: its own, that of the vector of the last packet, and that of the vector
that it has kept from a packet. -/
structure MsgOk (portIndex : Nat) (portId : UInt16) (msgPrio portPrio : PrioVector)
    (infoIs : InfoIs) (noVector : Prop) : Prop where
  pos : 0 < portIndex
  own : Names portId portIndex
  msg : Names msgPrio.bridgePort portIndex ∨ noVector
  kept : infoIs = .received → Names portPrio.bridgePort portIndex

/-- The port has looked at no packet that carries a vector. -/
def Port.NoVector (p : Port) : Prop :=
  Rstp.NoVector p.msgPortRole p.msgBpduType p.rcvdBpdu p.rcvdMsg p.info p.rcvdInfo

/-- The identifiers of a port. -/
def Port.MsgOk (p : Port) : Prop :=
  Rstp.MsgOk p.portIndex p.portId p.msgPrio p.portPrio p.infoIs p.NoVector

theorem MsgOk.imp {portIndex : Nat} {portId : UInt16} {msgPrio portPrio : PrioVector}
    {infoIs : InfoIs} {noVector noVector' : Prop}
    (h : MsgOk portIndex portId msgPrio portPrio infoIs noVector) (himp : noVector → noVector') :
    MsgOk portIndex portId msgPrio portPrio infoIs noVector' :=
  ⟨h.pos, h.own, h.msg.imp_right himp, h.kept⟩

theorem rcvInfo_ne_superior {p : Port} (h : p.msgPortRole ≠ rstpPortRoleDesgn) :
    rcvInfo p ≠ .superiorDesignatedInfo := by
  have hrole : (p.msgPortRole == rstpPortRoleDesgn) = false := by simpa using h
  simp only [rcvInfo, hrole, Bool.false_and, Bool.false_eq_true, if_false]
  split <;> simp

theorem receivedState_eq_superior_iff (i : PortInfo) :
    receivedState i = .superiorDesignated ↔ i = .superiorDesignatedInfo := by
  cases i <;> simp [receivedState]

theorem infoNext_superior {p : Port} (h : infoNext p = some .superiorDesignated) :
    p.info = .receive ∧ p.rcvdInfo = .superiorDesignatedInfo := by
  rcases infoNext_cases h with hc | ⟨hc, -⟩ | ⟨hc, -⟩ | ⟨hc, -⟩ | ⟨hc, -⟩ | ⟨hinfo, hc⟩
  · cases hc
  · cases hc
  · cases hc
  · cases hc
  · cases hc
  · exact ⟨hinfo, (receivedState_eq_superior_iff _).mp hc.symm⟩

theorem infoNext_receive {p : Port} (h : infoNext p = some .receive) : p.rcvdMsg.isSet = true := by
  rcases infoNext_cases h with hc | ⟨hc, -⟩ | ⟨hc, -⟩ | ⟨hc, -⟩ | ⟨-, -, hc⟩ | ⟨-, hc⟩
  · cases hc
  · cases hc
  · cases hc
  · cases hc
  · exact hc
  · cases hi : p.rcvdInfo <;> rw [hi] at hc <;> cases hc

/-- Looking at a notification. -/
theorem NoVector.receive {p : Port} (h : p.NoVector) (hset : p.rcvdMsg.isSet = true) (s : Stpm) :
    (infoEnterState s .receive { p with info := .receive }).NoVector := by
  have htype : p.msgBpduType = bpduTopoChangeType :=
    h.notification.resolve_right (fun hn => by simp [hn.2] at hset)
  have hrole : rcvdPortRole { p with info := .receive } = p.msgPortRole := by
    simp [rcvdPortRole, htype]
  have hne : rcvdPortRole { p with info := .receive } ≠ rstpPortRoleDesgn := by
    rw [hrole]
    exact h.role
  refine ⟨hne, Or.inl htype, fun _ => ?_, fun hst => by cases hst⟩
  exact rcvInfo_ne_superior (p := { p with
    info := .receive
    msgPortRole := rcvdPortRole { p with info := .receive } }) hne

theorem Port.MsgOk.fire {s : Stpm} {p : Port} {st : InfoState} (h : p.MsgOk)
    (hnext : infoNext p = some st) : (infoEnterState s st { p with info := st }).MsgOk := by
  have hdone : ∀ (rcvdMsg : RcvdMsg) (st' : InfoState), p.NoVector → rcvdMsg.isSet = false →
      st' ≠ .receive → st' ≠ .superiorDesignated →
      Rstp.NoVector p.msgPortRole p.msgBpduType p.rcvdBpdu rcvdMsg st' p.rcvdInfo := by
    intro rcvdMsg st' hno hset hreceive hsuperior
    exact ⟨hno.role, hno.notification.imp_right (fun hn => ⟨hn.1, hset⟩),
      fun hst => absurd hst hreceive, hsuperior⟩
  have hmoved : ∀ st' : InfoState, p.NoVector → st' ≠ .receive → st' ≠ .superiorDesignated →
      Rstp.NoVector p.msgPortRole p.msgBpduType p.rcvdBpdu p.rcvdMsg st' p.rcvdInfo := by
    intro st' hno hreceive hsuperior
    exact ⟨hno.role, hno.notification, fun hst => absurd hst hreceive, hsuperior⟩
  cases st with
  | begin =>
    exact ⟨h.pos, h.own, h.msg.imp_right (fun hno => hdone _ .begin hno rfl nofun nofun), nofun⟩
  | rstpPortDisabled =>
    exact ⟨h.pos, h.own,
      h.msg.imp_right (fun hno => hdone _ .rstpPortDisabled hno rfl nofun nofun), nofun⟩
  | aged => exact ⟨h.pos, h.own, h.msg.imp_right (fun hno => hmoved .aged hno nofun nofun), nofun⟩
  | update =>
    exact ⟨h.pos, h.own, h.msg.imp_right (fun hno => hmoved .update hno nofun nofun), nofun⟩
  | current =>
    exact ⟨h.pos, h.own, h.msg.imp_right (fun hno => hmoved .current hno nofun nofun), h.kept⟩
  | receive =>
    exact ⟨h.pos, h.own, h.msg.imp_right (fun hno => NoVector.receive hno (infoNext_receive hnext) s),
      h.kept⟩
  | superiorDesignated =>
    obtain ⟨hinfo, hrcvd⟩ := infoNext_superior hnext
    have hmsg : Names p.msgPrio.bridgePort p.portIndex :=
      h.msg.resolve_right (fun hno => hno.received hinfo hrcvd)
    exact ⟨h.pos, h.own, Or.inl hmsg, fun _ => hmsg⟩
  | repeatedDesignated =>
    exact ⟨h.pos, h.own,
      h.msg.imp_right (fun hno => hdone _ .repeatedDesignated hno rfl nofun nofun), h.kept⟩
  | inferiorDesignated =>
    exact ⟨h.pos, h.own,
      h.msg.imp_right (fun hno => hdone _ .inferiorDesignated hno rfl nofun nofun), h.kept⟩
  | notDesignated =>
    exact ⟨h.pos, h.own,
      h.msg.imp_right (fun hno => hdone _ .notDesignated hno rfl nofun nofun), h.kept⟩
  | other =>
    exact ⟨h.pos, h.own, h.msg.imp_right (fun hno => hdone _ .other hno rfl nofun nofun), h.kept⟩

/-- The port receive machine passes a packet on. -/
theorem Port.MsgOk.portrcv {p : Port} {st : PortrcvState} (h : p.MsgOk)
    (hnext : portrcvNext p = some st) : (portrcvEnterState st { p with portrcv := st }).MsgOk := by
  cases st with
  | begin => exact h
  | discard =>
    exact ⟨h.pos, h.own, h.msg.imp_right (fun hno =>
      ⟨hno.role, hno.notification.imp_right (fun _ => ⟨rfl, rfl⟩), hno.received, hno.superior⟩),
      h.kept⟩
  | receive =>
    have hbpdu : p.rcvdBpdu = true := by
      rw [portrcvNext] at hnext
      split at hnext
      · cases hnext
      · split at hnext
        · cases hnext
        · split at hnext
          · next hrcvd =>
            rw [Bool.and_eq_true] at hrcvd
            exact hrcvd.1
          · cases hnext
        · split at hnext
          · next hrcvd =>
            rw [Bool.and_eq_true, Bool.and_eq_true] at hrcvd
            exact hrcvd.1.1
          · cases hnext
    exact ⟨h.pos, h.own, h.msg.imp_right (fun hno =>
      ⟨hno.role, Or.inl (hno.notification.resolve_right (fun hn => by simp [hbpdu] at hn)),
        hno.received, hno.superior⟩), h.kept⟩

/-- A packet comes in. -/
theorem Port.MsgOk.rxBpdu {s : Stpm} {bpdu : Bpdu} {p : Port} (h : p.MsgOk) :
    (infoRxBpdu s bpdu p).MsgOk := by
  rw [infoRxBpdu]
  split
  · next htype =>
    split
    · exact h
    · exact ⟨h.pos, h.own, h.msg.imp_right (fun hno =>
        ⟨hno.role, Or.inl (by simpa using htype), hno.received, hno.superior⟩), h.kept⟩
  · split
    · split
      · exact h
      · exact ⟨h.pos, h.own, Or.inl h.own, h.kept⟩
    · exact h

end Opconn.Rstp
