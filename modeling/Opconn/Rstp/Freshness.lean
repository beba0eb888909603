import Opconn.Rstp.PortInvariant

/-!
# Roles that are still good

Role selection looks at the ports once, and the machines go on.  A machine that changes what role
selection looks at asks for a new selection, but for `UPDATE`, which gives a port the vector that was
chosen for it.  So what role selection brings about, and `UPDATE` keeps, holds of a bridge at rest.
-/

namespace Opconn.Rstp

/-! ### What role selection looks at -/

/-- What role selection reads of a port and writes to it, and what tells whether it is due. -/
structure PortBasis where
  portIndex : Nat
  portId : UInt16
  adminNonStp : Bool
  infoIs : InfoIs
  portPrio : PrioVector
  portTimes : TimeValues
  designPrio : PrioVector
  designTimes : TimeValues
  operPCost : UInt32
  selectedRole : PortRole
  updtInfo : Bool
  reselect : Bool
  selected : Bool
  pcost : PcostState
  portEnabled : Bool
deriving DecidableEq, Repr

/-- The basis of a port. -/
def Port.basis (p : Port) : PortBasis where
  portIndex := p.portIndex
  portId := p.portId
  adminNonStp := p.adminNonStp
  infoIs := p.infoIs
  portPrio := p.portPrio
  portTimes := p.portTimes
  designPrio := p.designPrio
  designTimes := p.designTimes
  operPCost := p.operPCost
  selectedRole := p.selectedRole
  updtInfo := p.updtInfo
  reselect := p.reselect
  selected := p.selected
  pcost := p.pcost
  portEnabled := p.portEnabled

/-- What role selection reads of a bridge and writes to it. -/
structure StpmBasis where
  ports : List PortBasis
  rolesel : RoleselState
  brId : BridgeId
  rootPortId : UInt16
  rootPrio : PrioVector
  rootTimes : TimeValues
deriving DecidableEq, Repr

/-- The basis of a bridge. -/
def Stpm.basis (s : Stpm) : StpmBasis where
  ports := s.ports.map Port.basis
  rolesel := s.rolesel
  brId := s.brId
  rootPortId := s.rootPortId
  rootPrio := s.rootPrio
  rootTimes := s.rootTimes

theorem Stpm.basis_mapPorts {s : Stpm} {f g : Port → Port}
    (h : ∀ p ∈ s.ports, (f p).basis = (g p).basis) :
    (s.mapPorts f).basis = (s.mapPorts g).basis := by
  have hports : (s.ports.map f).map Port.basis = (s.ports.map g).map Port.basis := by
    rw [List.map_map, List.map_map]
    exact List.map_congr_left h
  simp only [Stpm.basis, Stpm.mapPorts, hports]

theorem Stpm.mapPorts_id (s : Stpm) : s.mapPorts (fun p => p) = s := by
  rw [Stpm.mapPorts, List.map_id']

theorem Stpm.basis_mapPorts_self {s : Stpm} {f : Port → Port}
    (h : ∀ p ∈ s.ports, (f p).basis = p.basis) : (s.mapPorts f).basis = s.basis := by
  rw [Stpm.basis_mapPorts (g := fun p => p) h, Stpm.mapPorts_id]

theorem nonStpPrelude_basis (p : Port) : (nonStpPrelude p).basis = p.basis := by
  rw [nonStpPrelude]
  split <;> rfl

theorem portCheck_basis (s : Stpm) {m : PortMachine} (hm : m ≠ .pcost) (p : Port) :
    (portCheck s m p).1.basis = p.basis := by
  cases m with
  | pcost => exact absurd rfl hm
  | roletrns =>
    simp only [portCheck]
    split
    · exact nonStpPrelude_basis p
    · exact nonStpPrelude_basis p
  | _ =>
    simp only [portCheck]
    split <;> rfl

theorem portCheck_basis_quiet {s : Stpm} {m : PortMachine} {p : Port}
    (h : (portCheck s m p).2 = false) : (portCheck s m p).1.basis = p.basis := by
  rcases portCheck_quiet_cases h with heq | ⟨b, heq⟩ | heq
  · rw [heq]
  · rw [heq]
    rfl
  · rw [heq, nonStpPrelude_basis]

theorem portTree_basis (m : PortMachine) (p q : Port) : (portTree m p q).basis = q.basis := by
  cases m with
  | topoch =>
    simp only [portTree]
    cases p.topoch <;> simp only [topochTree] <;> first | rfl | (split <;> rfl)
  | roletrns =>
    simp only [portTree]
    cases p.roletrns <;> rfl
  | _ => rfl

theorem portEnter_basis (s : Stpm) {m : PortMachine} (hm : m ≠ .pcost) (hm' : m ≠ .info) (p : Port) :
    (portEnter s m p).basis = p.basis := by
  cases m with
  | pcost => exact absurd rfl hm
  | info => exact absurd rfl hm'
  | transmit => simp only [portEnter]; cases p.transmit <;> rfl
  | portrcv => simp only [portEnter]; cases p.portrcv <;> rfl
  | bridect => simp only [portEnter]; cases p.bridect <;> rfl
  | p2p => simp only [portEnter]; cases p.p2p <;> rfl
  | topoch => simp only [portEnter]; cases p.topoch <;> rfl
  | migrate => simp only [portEnter]; cases p.migrate <;> rfl
  | roletrns => simp only [portEnter]; cases p.roletrns <;> rfl
  | sttrans => simp only [portEnter]; cases p.sttrans <;> rfl

theorem portFire_basis (s : Stpm) {m : PortMachine} (hm : m ≠ .pcost) (hm' : m ≠ .info) (p : Port) :
    (portFire s m p).basis = p.basis := by
  rw [portFire, portEnter_basis s hm hm', portTree_basis, portCheck_basis s hm]

/-! ### When a selection is due -/

/-- The port asks for a new selection, or will before it comes to rest. -/
def Port.Due (p : Port) : Prop :=
  p.reselect = true ∨ p.pcost ≠ .stable ∨ p.portEnabled = decide (p.infoIs = .disabled)

/-- A new selection is due. -/
def Stpm.Due (s : Stpm) : Prop := s.rolesel ≠ .roleSelection ∨ ∃ p ∈ s.ports, p.Due

theorem Port.Due.of_basis {p q : Port} (h : p.Due) (hb : q.basis = p.basis) : q.Due := by
  have hreselect : q.reselect = p.reselect := congrArg PortBasis.reselect hb
  have hpcost : q.pcost = p.pcost := congrArg PortBasis.pcost hb
  have henabled : q.portEnabled = p.portEnabled := congrArg PortBasis.portEnabled hb
  have hinfoIs : q.infoIs = p.infoIs := congrArg PortBasis.infoIs hb
  rwa [Port.Due, hreselect, hpcost, henabled, hinfoIs]

theorem Stpm.Due.mapPorts {s : Stpm} {f : Port → Port} (h : s.Due)
    (hf : ∀ p ∈ s.ports, p.Due → (f p).Due) : (s.mapPorts f).Due := by
  rcases h with h | ⟨p, hp, hdue⟩
  · exact Or.inl h
  · exact Or.inr ⟨f p, List.mem_map_of_mem hp, hf p hp hdue⟩

theorem Stpm.due_mapPorts {s : Stpm} {f : Port → Port} {p : Port} (hp : p ∈ s.ports)
    (h : (f p).Due) : (s.mapPorts f).Due :=
  Or.inr ⟨f p, List.mem_map_of_mem hp, h⟩

theorem Port.Rest.pcost_stable {p : Port} (h : p.Rest) : p.pcost = .stable := by
  have hnext := h.pcost
  rw [pcostNext] at hnext
  cases hst : p.pcost with
  | stable => rfl
  | _ => simp [hst] at hnext

/-- Nothing is due on a bridge at rest. -/
theorem Stpm.Settled.not_due {s : Stpm} (h : s.Settled) (hok : s.All Port.Ok) : ¬s.Due := by
  rintro (hrolesel | ⟨p, hp, hreselect | hpcost | hlink⟩)
  · exact hrolesel h.rolesel
  · rw [(h.ports p hp).reselect] at hreselect
    cases hreselect
  · exact hpcost (h.ports p hp).pcost_stable
  · have hnext := (h.ports p hp).info
    have hinfo := (hok p hp).info
    cases hen : p.portEnabled with
    | false =>
      rw [hen] at hlink
      simp [infoNext, hen, of_decide_eq_false hlink.symm] at hnext
    | true =>
      rw [hen] at hlink
      have hdis : p.infoIs = .disabled := of_decide_eq_true hlink.symm
      rw [Port.InfoOk, hdis] at hinfo
      rw [infoNext, hen, hdis] at hnext
      cases hst : p.info with
      | rstpPortDisabled =>
        simp only [hst, bne_self_eq_false, Bool.and_false, Bool.false_eq_true, if_false, if_true] at hnext
        split at hnext <;> cases hnext
      | begin => simp [hst] at hnext
      | _ => simp [hst, Rstp.InfoOk] at hinfo

/-! ### What holds between two selections -/

/-- The vector chosen for a port becomes its own. -/
def Port.updated (p : Port) : Port :=
  { p with
    portPrio := p.designPrio
    portTimes := p.designTimes
    updtInfo := false
    infoIs := .mine }

/-- `Q` comes about by every role selection and depends on nothing else than `UPDATE` changes, which
keeps it. -/
structure Selection (K : Port → Prop) (Q : Stpm → Prop) : Prop where
  basis : ∀ s s', s'.basis = s.basis → Q s → Q s'
  select : ∀ s, s.Distinct → s.All K → s.rolesel = .roleSelection → Q (roleselEnterState s)
  update : ∀ s p, s.Distinct → s.All K → ¬s.Due → Q s → p ∈ s.ports → p.infoIs ≠ .disabled →
    p.updtInfo = true → Q (s.modifyPort p.portIndex Port.updated)

/-- A port has its role, or asks for one. -/
def Port.Asked (p : Port) : Prop := p.reselect = true ∨ p.selected = true

/-- Every port has its role or asks for one, and a selection is due or the last one is good. -/
structure Fresh (Q : Stpm → Prop) (s : Stpm) : Prop where
  asked : s.All Port.Asked
  good : s.Due ∨ Q s

theorem Port.Asked.of_basis {p q : Port} (h : p.Asked) (hb : q.basis = p.basis) : q.Asked := by
  have hreselect : q.reselect = p.reselect := congrArg PortBasis.reselect hb
  have hselected : q.selected = p.selected := congrArg PortBasis.selected hb
  rwa [Port.Asked, hreselect, hselected]

theorem exists_of_basis {s s' : Stpm} (h : s'.basis = s.basis) {p : Port} (hp : p ∈ s'.ports) :
    ∃ q ∈ s.ports, q.basis = p.basis := by
  have hports : s'.ports.map Port.basis = s.ports.map Port.basis := congrArg StpmBasis.ports h
  exact List.mem_map.mp (hports ▸ List.mem_map_of_mem hp)

theorem Stpm.Due.of_basis {s s' : Stpm} (h : s.Due) (hb : s'.basis = s.basis) : s'.Due := by
  rcases h with h | ⟨p, hp, hdue⟩
  · exact Or.inl ((congrArg StpmBasis.rolesel hb).trans_ne h)
  · obtain ⟨q, hq, hqp⟩ := exists_of_basis hb.symm hp
    exact Or.inr ⟨q, hq, hdue.of_basis hqp⟩

theorem Stpm.All.asked_of_basis {s s' : Stpm} (h : s.All Port.Asked) (hb : s'.basis = s.basis) :
    s'.All Port.Asked := by
  intro p hp
  obtain ⟨q, hq, hqp⟩ := exists_of_basis hb hp
  exact (h q hq).of_basis hqp.symm

theorem roleselNext_eq {s : Stpm} {st : RoleselState} (h : roleselNext s = some st) :
    st = .roleSelection := by
  rw [roleselNext] at h
  split at h
  · exact (Option.some.inj h).symm
  · exact (Option.some.inj h).symm
  · split at h
    · exact (Option.some.inj h).symm
    · cases h

theorem updtRole_reselect (s : Stpm) (p : Port) :
    (updtRole s (updtDesignPrio s p)).reselect = p.reselect := by
  obtain ⟨_, _, _, _, _, _, _, _, hframe⟩ := updtRolesTree_frame s p
  rw [hframe]

/-- A selection leaves every port selected. -/
theorem roleselEnterState_roleSelection {s : Stpm} (h : s.rolesel = .roleSelection) :
    roleselEnterState s =
      (updtRolesTree (clearReselectTree s)).mapPorts (fun p => { p with selected := true }) := by
  rw [roleselEnterState]
  simp only [h]
  rw [setSelectedTree, if_neg]
  intro hany
  obtain ⟨p, hp, hreselect⟩ := List.any_eq_true.mp hany
  obtain ⟨q, hq, rfl⟩ := List.mem_map.mp hp
  obtain ⟨r, -, rfl⟩ := List.mem_map.mp hq
  rw [updtRole_reselect] at hreselect
  cases hreselect

theorem selected_of_mem {s : Stpm} {p : Port}
    (h : p ∈ (s.mapPorts (fun p => { p with selected := true })).ports) : p.selected = true := by
  obtain ⟨q, -, rfl⟩ := List.mem_map.mp h
  rfl

/-! ### The hops that role selection sees -/

theorem pcostFire_due {s : Stpm} {p : Port} (h : (portCheck s .pcost p).2 = true) :
    (portFire s .pcost p).Due := by
  rcases hnext : pcostNext p with _ | st
  · simp [portCheck, hnext] at h
  · simp only [portFire, portCheck, hnext, portTree, portEnter]
    cases st with
    | begin | auto | forse => exact Or.inr (Or.inl (fun hst => by cases hst))
    | stable => exact Or.inl rfl

theorem pcostFire_asked {s : Stpm} {p : Port} (h : p.Asked) : (portFire s .pcost p).Asked := by
  rcases hnext : pcostNext p with _ | st
  · simp only [portFire, portCheck, hnext, portTree, portEnter]
    cases p.pcost with
    | stable => exact Or.inl rfl
    | _ => exact h
  · simp only [portFire, portCheck, hnext, portTree, portEnter]
    cases st with
    | stable => exact Or.inl rfl
    | _ => exact h

/-- The port information machine asks for a new selection, or gives the port the vector chosen for it,
or does nothing that role selection sees. -/
theorem infoFire_cases {s : Stpm} {p : Port} (h : (portCheck s .info p).2 = true) :
    (portFire s .info p).reselect = true ∨ (portFire s .info p).basis = p.basis ∨
      ((portFire s .info p).basis = p.updated.basis ∧ (p.info = .aged ∨ p.info = .current) ∧
        p.updtInfo = true ∧ (p.portEnabled = true ∨ p.infoIs = .disabled)) := by
  rcases hnext : infoNext p with _ | st
  · simp [portCheck, hnext] at h
  · simp only [portFire, portCheck, hnext, portTree, portEnter]
    cases st with
    | begin | rstpPortDisabled | aged | superiorDesignated => exact Or.inl rfl
    | update =>
      rcases infoNext_cases hnext with hc | ⟨hc, -⟩ | ⟨-, hst, -, hupdt, hlink⟩ | ⟨hc, -⟩ | ⟨hc, -⟩ |
        ⟨-, hc⟩
      · cases hc
      · cases hc
      · exact Or.inr (Or.inr ⟨rfl, hst, hupdt, hlink⟩)
      · cases hc
      · cases hc
      · cases hi : p.rcvdInfo <;> rw [hi] at hc <;> cases hc
    | current | receive | repeatedDesignated | inferiorDesignated | notDesignated | other =>
      exact Or.inr (Or.inl rfl)

section Rule

variable {K : Port → Prop} {Q : Stpm → Prop} (hQ : Selection K Q)
include hQ

/-- What role selection does not see. -/
theorem Selection.of_basis {s s' : Stpm} (h : Fresh Q s) (hb : s'.basis = s.basis) : Fresh Q s' := by
  refine ⟨h.asked.asked_of_basis hb, ?_⟩
  rcases h.good with hdue | hgood
  · exact Or.inl (hdue.of_basis hb)
  · exact Or.inr (hQ.basis s s' hb hgood)

theorem Selection.checkCondition {s : Stpm} (hs : s.Distinct) (h : Fresh Q s) {m : MachineRef}
    (hquiet : (checkCondition s m).2 = false) : Fresh Q (checkCondition s m).1 := by
  cases m with
  | rolesel =>
    simp only [Rstp.checkCondition] at hquiet ⊢
    split at hquiet
    · cases hquiet
    · exact h
  | port i m =>
    rcases hfind : s.port? i with _ | p
    · simpa only [Rstp.checkCondition, hfind] using h
    · simp only [Rstp.checkCondition, hfind] at hquiet ⊢
      refine hQ.of_basis h (Stpm.basis_mapPorts_self (fun q hq => ?_))
      split
      · next hqi =>
        have hqp : q = p :=
          eq_of_portIndex hs hq (port?_some hfind).1 (hqi.trans (port?_some hfind).2.symm)
        exact portCheck_basis_quiet (hqp ▸ hquiet)
      · rfl

/-- A port is given the vector chosen for it. -/
theorem Selection.updated {s : Stpm} (hs : s.Distinct) (hK : s.All K) (h : Fresh Q s) {p : Port}
    (hp : p ∈ s.ports) (hinfo : p.infoIs ≠ .disabled) (hupdt : p.updtInfo = true)
    (henabled : p.portEnabled = true) : Fresh Q (s.modifyPort p.portIndex Port.updated) := by
  refine ⟨h.asked.modifyPort (fun q hq => hq), ?_⟩
  by_cases hdue : s.Due
  · refine Or.inl (hdue.mapPorts (fun q hq hqdue => ?_))
    split
    · next hqp =>
      rw [eq_of_portIndex hs hq hp hqp] at hqdue ⊢
      rcases hqdue with hreselect | hpcost | hlink
      · exact Or.inl hreselect
      · exact Or.inr (Or.inl hpcost)
      · rw [henabled] at hlink
        exact absurd (of_decide_eq_true hlink.symm) hinfo
    · exact hqdue
  · exact Or.inr (hQ.update s p hs hK hdue (h.good.resolve_left hdue) hp hinfo hupdt)

theorem Selection.fire (hK : ∀ p, K p → p.Ok) {s : Stpm} (hs : s.Distinct) (hall : s.All K)
    (h : Fresh Q s) {m : PortMachine} {p : Port} (hp : p ∈ s.ports)
    (hfires : (portCheck s m p).2 = true) :
    Fresh Q (s.modifyPort p.portIndex (fun _ => portFire s m p)) := by
  have hdue : (portFire s m p).Due → (portFire s m p).Asked →
      Fresh Q (s.modifyPort p.portIndex (fun _ => portFire s m p)) := by
    intro hdue hasked
    refine ⟨h.asked.modifyPort (fun q hq => hasked), Or.inl (Stpm.due_mapPorts hp ?_)⟩
    rw [if_pos rfl]
    exact hdue
  have hsame : (portFire s m p).basis = p.basis →
      Fresh Q (s.modifyPort p.portIndex (fun _ => portFire s m p)) := by
    intro hsame
    refine hQ.of_basis h (Stpm.basis_mapPorts_self (fun q hq => ?_))
    split
    · next hqp => rw [eq_of_portIndex hs hq hp hqp, hsame]
    · rfl
  by_cases hpcost : m = .pcost
  · subst hpcost
    exact hdue (pcostFire_due hfires) (pcostFire_asked (h.asked p hp))
  · by_cases hinfo : m = .info
    · subst hinfo
      rcases infoFire_cases hfires with hreselect | hunseen | ⟨hupdated, hst, hupdt, hlink⟩
      · exact hdue (Or.inl hreselect) (Or.inl hreselect)
      · exact hsame hunseen
      · have hne : p.infoIs ≠ .disabled := by
          have hok := (hK p (hall p hp)).info
          rw [Port.InfoOk] at hok
          intro hdis
          rcases hst with hst | hst <;> simp [hst, hdis, Rstp.InfoOk] at hok
        have hup := hQ.updated hs hall h hp hne hupdt (hlink.resolve_right hne)
        refine hQ.of_basis hup (Stpm.basis_mapPorts (fun q hq => ?_))
        split
        · next hqp => rw [eq_of_portIndex hs hq hp hqp, hupdated]
        · rfl
    · exact hsame (portFire_basis s hpcost hinfo p)

theorem Selection.hop (hK : ∀ p, K p → p.Ok) {s : Stpm} (hs : s.Distinct) (hall : s.All K)
    (h : Fresh Q s) {m : MachineRef} (hhop : (Rstp.checkCondition s m).2 = true) :
    Fresh Q (enterState (Rstp.checkCondition s m).1 m) := by
  cases m with
  | rolesel =>
    simp only [Rstp.checkCondition] at hhop ⊢
    split at hhop
    · next st hnext =>
      have hst : st = .roleSelection := roleselNext_eq hnext
      subst hst
      refine ⟨?_, Or.inr (hQ.select { s with rolesel := .roleSelection } hs hall rfl)⟩
      rw [enterState, roleselEnterState_roleSelection rfl]
      exact fun p hp => Or.inr (selected_of_mem hp)
    · cases hhop
  | port i m =>
    rcases hfind : s.port? i with _ | p
    · simp [Rstp.checkCondition, hfind] at hhop
    · obtain ⟨hp, hpi⟩ := port?_some hfind
      have hfires : (portCheck s m p).2 = true := by
        simpa only [Rstp.checkCondition, hfind] using hhop
      rw [enterState_checkCondition_port hfind]
      refine hQ.of_basis (hQ.fire hK hs hall h hp hfires) (Stpm.basis_mapPorts (fun q hq => ?_))
      rw [hpi]
      split
      · next hqi =>
        rw [eq_of_portIndex hs hq hp (hqi.trans hpi.symm)]
        rfl
      · exact portTree_basis m _ q

/-- **Selection rule.**  What role selection brings about and `UPDATE` keeps, `STP_stpm_update`
keeps, while no selection is due. -/
theorem Selection.updates (hM : MachineInvariant K) (hK : ∀ p, K p → p.Ok) {s s' : Stpm}
    (hs : s.Distinct) (hall : s.All K) (h : Fresh Q s) (hupdates : Updates s s') : Fresh Q s' := by
  let Inv : Stpm → Prop := fun t =>
    t.ports.map Port.portIndex = s.ports.map Port.portIndex ∧ t.All K ∧ Fresh Q t
  have hdist : ∀ t, Inv t → t.Distinct := by
    intro t ht
    rw [Stpm.Distinct, ht.1]
    exact hs
  have hcheck : ∀ t m, Inv t → (Rstp.checkCondition t m).2 = false →
      Inv (Rstp.checkCondition t m).1 := by
    intro t m ht hquiet
    exact ⟨(checkCondition_indices t m).trans ht.1, hM.checkCondition (hdist t ht) ht.2.1 hquiet,
      hQ.checkCondition (hdist t ht) ht.2.2 hquiet⟩
  have hhop : ∀ t m, Inv t → (Rstp.checkCondition t m).2 = true →
      Inv (enterState (Rstp.checkCondition t m).1 m) := by
    intro t m ht hhops
    exact ⟨(enterState_indices _ m).trans ((checkCondition_indices t m).trans ht.1),
      hM.hop (hdist t ht) ht.2.1 hhops, hQ.hop hK (hdist t ht) ht.2.1 ht.2.2 hhops⟩
  exact (Machines.Drives.invariant Inv hcheck hhop ⟨rfl, hall, h⟩ hupdates).2.2

end Rule

end Opconn.Rstp
