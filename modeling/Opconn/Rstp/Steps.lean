import Mathlib.Data.List.Nodup
import Opconn.Rstp.Bridge

/-!
# What a step can do

A machine of a port that hops changes its own port, and reaches the others only by `setSyncTree`,
`setReRootTree` and `setTcPropBridge`.  A property of single ports that every such change keeps is a
property of all ports of every bridge that comes about.
-/

namespace Opconn.Rstp

/-- The numbers of the ports are distinct. -/
def Stpm.Distinct (s : Stpm) : Prop := (s.ports.map Port.portIndex).Nodup

/-- A machine of a port hops, and the port enters the new state. -/
def portFire (s : Stpm) (m : PortMachine) (p : Port) : Port :=
  portEnter s m (portTree m (portCheck s m p).1 (portCheck s m p).1)

/-! ### The number of a port stays -/

@[simp] theorem portCheck_portIndex (s : Stpm) (m : PortMachine) (p : Port) :
    (portCheck s m p).1.portIndex = p.portIndex := by
  have hprelude : (nonStpPrelude p).portIndex = p.portIndex := by
    rw [nonStpPrelude]
    split <;> rfl
  cases m <;> simp only [portCheck] <;> split <;> first | rfl | exact hprelude

@[simp] theorem roletrnsTree_portIndex (st : RoletrnsState) (q : Port) :
    (roletrnsTree st q).portIndex = q.portIndex := by
  cases st <;> rfl

@[simp] theorem topochTree_portIndex (i : Nat) (st : TopochState) (q : Port) :
    (topochTree i st q).portIndex = q.portIndex := by
  cases st <;> first | rfl | (simp only [topochTree]; split <;> rfl)

@[simp] theorem portTree_portIndex (m : PortMachine) (p q : Port) :
    (portTree m p q).portIndex = q.portIndex := by
  cases m with
  | topoch => exact topochTree_portIndex _ _ q
  | roletrns => exact roletrnsTree_portIndex _ q
  | _ => rfl

@[simp] theorem transmitEnterState_portIndex (s : Stpm) (st : TransmitState) (p : Port) :
    (transmitEnterState s st p).portIndex = p.portIndex := by
  cases st <;> rfl

@[simp] theorem portrcvEnterState_portIndex (st : PortrcvState) (p : Port) :
    (portrcvEnterState st p).portIndex = p.portIndex := by
  cases st <;> rfl

@[simp] theorem bridectEnterState_portIndex (st : BridectState) (p : Port) :
    (bridectEnterState st p).portIndex = p.portIndex := by
  cases st <;> rfl

@[simp] theorem p2pEnterState_portIndex (st : P2pState) (p : Port) :
    (p2pEnterState st p).portIndex = p.portIndex := by
  cases st <;> rfl

@[simp] theorem topochEnterState_portIndex (s : Stpm) (st : TopochState) (p : Port) :
    (topochEnterState s st p).portIndex = p.portIndex := by
  cases st <;> rfl

@[simp] theorem migrateEnterState_portIndex (s : Stpm) (st : MigrateState) (p : Port) :
    (migrateEnterState s st p).portIndex = p.portIndex := by
  cases st <;> rfl

@[simp] theorem pcostEnterState_portIndex (st : PcostState) (p : Port) :
    (pcostEnterState st p).portIndex = p.portIndex := by
  cases st <;> rfl

@[simp] theorem infoEnterState_portIndex (s : Stpm) (st : InfoState) (p : Port) :
    (infoEnterState s st p).portIndex = p.portIndex := by
  cases st <;> rfl

@[simp] theorem roletrnsEnterState_portIndex (s : Stpm) (st : RoletrnsState) (p : Port) :
    (roletrnsEnterState s st p).portIndex = p.portIndex := by
  cases st <;> rfl

@[simp] theorem sttransEnterState_portIndex (st : SttransState) (p : Port) :
    (sttransEnterState st p).portIndex = p.portIndex := by
  cases st <;> rfl

@[simp] theorem portEnter_portIndex (s : Stpm) (m : PortMachine) (p : Port) :
    (portEnter s m p).portIndex = p.portIndex := by
  cases m <;> simp [portEnter]

@[simp] theorem portFire_portIndex (s : Stpm) (m : PortMachine) (p : Port) :
    (portFire s m p).portIndex = p.portIndex := by
  simp [portFire]

@[simp] theorem updtDesignPrio_portIndex (s : Stpm) (p : Port) :
    (updtDesignPrio s p).portIndex = p.portIndex := by
  rw [updtDesignPrio]
  split <;> rfl

@[simp] theorem updtRole_portIndex (s : Stpm) (p : Port) :
    (updtRole s p).portIndex = p.portIndex := by
  rw [updtRole]
  split
  · rfl
  · split
    · rfl
    · rfl
    · rfl
    · split
      · rfl
      · split
        · rfl
        · split <;> rfl

/-! ### The changes of a bridge -/

@[simp] theorem mapPorts_ports (s : Stpm) (f : Port → Port) :
    (s.mapPorts f).ports = s.ports.map f := rfl

theorem mapPorts_indices {s : Stpm} {f : Port → Port} (hf : ∀ p, (f p).portIndex = p.portIndex) :
    (s.mapPorts f).ports.map Port.portIndex = s.ports.map Port.portIndex := by
  rw [mapPorts_ports, List.map_map]
  exact List.map_congr_left (fun p _ => hf p)

theorem mapPorts_mapPorts (s : Stpm) (f g : Port → Port) :
    (s.mapPorts f).mapPorts g = s.mapPorts (fun p => g (f p)) := by
  simp only [Stpm.mapPorts, List.map_map]
  rfl

theorem port?_some {s : Stpm} {i : Nat} {p : Port} (h : s.port? i = some p) :
    p ∈ s.ports ∧ p.portIndex = i :=
  ⟨List.mem_of_find?_eq_some h, by simpa using List.find?_some h⟩

theorem port?_mapPorts {s : Stpm} {f : Port → Port} (hf : ∀ p, (f p).portIndex = p.portIndex)
    (i : Nat) : (s.mapPorts f).port? i = (s.port? i).map f := by
  rw [Stpm.port?, mapPorts_ports, List.find?_map]
  refine congrArg (Option.map f) (congrArg (fun g => List.find? g s.ports) ?_)
  funext p
  simp only [Function.comp_apply, hf p]

/-- A bridge has one port of a number. -/
theorem eq_of_portIndex {s : Stpm} (hs : s.Distinct) {p q : Port} (hp : p ∈ s.ports)
    (hq : q ∈ s.ports) (h : p.portIndex = q.portIndex) : p = q :=
  List.inj_on_of_nodup_map hs hp hq h

theorem port?_of_mem {s : Stpm} (hs : s.Distinct) {p : Port} (hp : p ∈ s.ports) :
    s.port? p.portIndex = some p := by
  rcases hfind : s.port? p.portIndex with _ | q
  · rw [Stpm.port?, List.find?_eq_none] at hfind
    exact absurd (decide_eq_true rfl) (hfind p hp)
  · obtain ⟨hq, hqp⟩ := port?_some hfind
    rw [eq_of_portIndex hs hq hp hqp]

theorem portEnter_mapPorts (s : Stpm) (f : Port → Port) (m : PortMachine) (p : Port) :
    portEnter (s.mapPorts f) m p = portEnter s m p := by
  cases m <;> rfl

/-- **The hop of a port machine.**  The port enters the new state, the others get what the machine
does to the tree. -/
theorem enterState_checkCondition_port {s : Stpm} {i : Nat} {m : PortMachine} {p : Port}
    (h : s.port? i = some p) :
    enterState (checkCondition s (.port i m)).1 (.port i m) =
      s.mapPorts (fun q => if q.portIndex = i then
        portEnter s m (portTree m (portCheck s m p).1 (portCheck s m q).1)
      else portTree m (portCheck s m p).1 q) := by
  have hidx : p.portIndex = i := (port?_some h).2
  have hcheck : (checkCondition s (.port i m)).1 =
      s.modifyPort i (fun q => (portCheck s m q).1) := by
    simp only [checkCondition, h]
  have hfound : (s.modifyPort i (fun q => (portCheck s m q).1)).port? i = some (portCheck s m p).1 := by
    rw [Stpm.modifyPort, port?_mapPorts (fun q => by split <;> simp), h, Option.map_some, if_pos hidx]
  rw [hcheck]
  simp only [enterState, hfound]
  rw [Stpm.modifyPort, Stpm.modifyPort, mapPorts_mapPorts, mapPorts_mapPorts]
  refine congrArg s.mapPorts (funext fun q => ?_)
  by_cases hq : q.portIndex = i
  · simp only [hq, if_true, portTree_portIndex, portCheck_portIndex, portEnter_mapPorts]
  · simp only [hq, if_false, portTree_portIndex]

/-! ### Properties of single ports -/

/-- What the machines of a bridge may do to a port without breaking `P`. -/
structure MachineInvariant (P : Port → Prop) : Prop where
  drop : ∀ p b, P p → P { p with newInfo := b }
  prelude : ∀ p, P p → P (nonStpPrelude p)
  transmit : ∀ s p st, P p → transmitNext p = some st →
    P (transmitEnterState s st { p with transmit := st })
  portrcv : ∀ p st, P p → portrcvNext p = some st → P (portrcvEnterState st { p with portrcv := st })
  bridect : ∀ p st, P p → bridectNext p = some st → P (bridectEnterState st { p with bridect := st })
  p2p : ∀ p st, P p → p2pNext p = some st → P (p2pEnterState st { p with p2p := st })
  topoch : ∀ s p st, P p → topochNext p = some st → P (topochEnterState s st { p with topoch := st })
  migrate : ∀ s p st, P p → migrateNext s p = some st →
    P (migrateEnterState s st { p with migrate := st })
  pcost : ∀ p st, P p → pcostNext p = some st → P (pcostEnterState st { p with pcost := st })
  info : ∀ s p st, P p → infoNext p = some st → P (infoEnterState s st { p with info := st })
  roletrns : ∀ s p st, P p → roletrnsNext s p = some st →
    P (roletrnsEnterState s st (roletrnsTree st { p with roletrns := st }))
  sttrans : ∀ p st, P p → sttransNext p = some st → P (sttransEnterState st { p with sttrans := st })
  topochTree : ∀ i st q, P q → P (topochTree i st q)
  roletrnsTree : ∀ st q, P q → P (roletrnsTree st q)
  reselect : ∀ p b, P p → P { p with reselect := b }
  selected : ∀ p b, P p → P { p with selected := b }
  selectedRole : ∀ p, P p → P { p with selectedRole := .disabledPort }
  updtRole : ∀ s p, P p → P (updtRole s (updtDesignPrio s p))

/-- Two invariants make one. -/
theorem MachineInvariant.and {P Q : Port → Prop} (hP : MachineInvariant P)
    (hQ : MachineInvariant Q) : MachineInvariant (fun p => P p ∧ Q p) where
  drop p b h := ⟨hP.drop p b h.1, hQ.drop p b h.2⟩
  prelude p h := ⟨hP.prelude p h.1, hQ.prelude p h.2⟩
  transmit s p st h hn := ⟨hP.transmit s p st h.1 hn, hQ.transmit s p st h.2 hn⟩
  portrcv p st h hn := ⟨hP.portrcv p st h.1 hn, hQ.portrcv p st h.2 hn⟩
  bridect p st h hn := ⟨hP.bridect p st h.1 hn, hQ.bridect p st h.2 hn⟩
  p2p p st h hn := ⟨hP.p2p p st h.1 hn, hQ.p2p p st h.2 hn⟩
  topoch s p st h hn := ⟨hP.topoch s p st h.1 hn, hQ.topoch s p st h.2 hn⟩
  migrate s p st h hn := ⟨hP.migrate s p st h.1 hn, hQ.migrate s p st h.2 hn⟩
  pcost p st h hn := ⟨hP.pcost p st h.1 hn, hQ.pcost p st h.2 hn⟩
  info s p st h hn := ⟨hP.info s p st h.1 hn, hQ.info s p st h.2 hn⟩
  roletrns s p st h hn := ⟨hP.roletrns s p st h.1 hn, hQ.roletrns s p st h.2 hn⟩
  sttrans p st h hn := ⟨hP.sttrans p st h.1 hn, hQ.sttrans p st h.2 hn⟩
  topochTree i st q h := ⟨hP.topochTree i st q h.1, hQ.topochTree i st q h.2⟩
  roletrnsTree st q h := ⟨hP.roletrnsTree st q h.1, hQ.roletrnsTree st q h.2⟩
  reselect p b h := ⟨hP.reselect p b h.1, hQ.reselect p b h.2⟩
  selected p b h := ⟨hP.selected p b h.1, hQ.selected p b h.2⟩
  selectedRole p h := ⟨hP.selectedRole p h.1, hQ.selectedRole p h.2⟩
  updtRole s p h := ⟨hP.updtRole s p h.1, hQ.updtRole s p h.2⟩

section Machines

variable {P : Port → Prop} (hP : MachineInvariant P)
include hP

theorem MachineInvariant.check {s : Stpm} {m : PortMachine} {p : Port} (hp : P p)
    (hquiet : (portCheck s m p).2 = false) : P (portCheck s m p).1 := by
  cases m with
  | transmit =>
    simp only [portCheck] at hquiet ⊢
    split at hquiet
    · cases hquiet
    · exact hP.drop p _ hp
  | roletrns =>
    simp only [portCheck] at hquiet ⊢
    split at hquiet
    · cases hquiet
    · exact hP.prelude p hp
  | _ =>
    simp only [portCheck] at hquiet ⊢
    split at hquiet
    · cases hquiet
    · exact hp

theorem MachineInvariant.fire {s : Stpm} {m : PortMachine} {p : Port} (hp : P p)
    (hhop : (portCheck s m p).2 = true) : P (portFire s m p) := by
  cases m with
  | transmit =>
    rcases h : transmitNext p with _ | st
    · simp [portCheck, h] at hhop
    · simpa [portFire, portEnter, portTree, portCheck, h] using hP.transmit s p st hp h
  | portrcv =>
    rcases h : portrcvNext p with _ | st
    · simp [portCheck, h] at hhop
    · simpa [portFire, portEnter, portTree, portCheck, h] using hP.portrcv p st hp h
  | bridect =>
    rcases h : bridectNext p with _ | st
    · simp [portCheck, h] at hhop
    · simpa [portFire, portEnter, portTree, portCheck, h] using hP.bridect p st hp h
  | p2p =>
    rcases h : p2pNext p with _ | st
    · simp [portCheck, h] at hhop
    · simpa [portFire, portEnter, portTree, portCheck, h] using hP.p2p p st hp h
  | topoch =>
    rcases h : topochNext p with _ | st
    · simp [portCheck, h] at hhop
    · have hself : Opconn.Rstp.topochTree p.portIndex st { p with topoch := st } =
          { p with topoch := st } := by
        cases st <;> simp [Opconn.Rstp.topochTree]
      simpa [portFire, portEnter, portTree, portCheck, h, hself] using hP.topoch s p st hp h
  | migrate =>
    rcases h : migrateNext s p with _ | st
    · simp [portCheck, h] at hhop
    · simpa [portFire, portEnter, portTree, portCheck, h] using hP.migrate s p st hp h
  | pcost =>
    rcases h : pcostNext p with _ | st
    · simp [portCheck, h] at hhop
    · simpa [portFire, portEnter, portTree, portCheck, h] using hP.pcost p st hp h
  | info =>
    rcases h : infoNext p with _ | st
    · simp [portCheck, h] at hhop
    · simpa [portFire, portEnter, portTree, portCheck, h] using hP.info s p st hp h
  | roletrns =>
    rcases h : roletrnsNext s (nonStpPrelude p) with _ | st
    · simp [portCheck, h] at hhop
    · have hstate : (Opconn.Rstp.roletrnsTree st { nonStpPrelude p with roletrns := st }).roletrns =
          st := by
        cases st <;> rfl
      simpa [portFire, portEnter, portTree, portCheck, h, hstate] using
        hP.roletrns s (nonStpPrelude p) st (hP.prelude p hp) h
  | sttrans =>
    rcases h : sttransNext p with _ | st
    · simp [portCheck, h] at hhop
    · simpa [portFire, portEnter, portTree, portCheck, h] using hP.sttrans p st hp h

theorem MachineInvariant.tree {m : PortMachine} {p q : Port} (hq : P q) : P (portTree m p q) := by
  cases m with
  | topoch => exact hP.topochTree _ _ q hq
  | roletrns => exact hP.roletrnsTree _ q hq
  | _ => exact hq

end Machines

/-- All ports are as `P` says. -/
def Stpm.All (P : Port → Prop) (s : Stpm) : Prop := ∀ p ∈ s.ports, P p

theorem Stpm.All.mapPorts {P : Port → Prop} {s : Stpm} {f : Port → Port} (h : s.All P)
    (hf : ∀ p ∈ s.ports, P p → P (f p)) : (s.mapPorts f).All P := by
  intro q hq
  obtain ⟨p, hp, rfl⟩ := List.mem_map.mp hq
  exact hf p hp (h p hp)

section Bridges

variable {P : Port → Prop} (hP : MachineInvariant P)
include hP

theorem MachineInvariant.updtRolesTree {s : Stpm} (h : s.All P) : (updtRolesTree s).All P :=
  Stpm.All.mapPorts (s := withRootPrio s) h (fun p _ hp => hP.updtRole _ p hp)

theorem MachineInvariant.roleselEnterState {s : Stpm} (h : s.All P) :
    (roleselEnterState s).All P := by
  have hdisable : (updtRoleDisableTree s).All P := h.mapPorts (fun p _ hp => hP.selectedRole p hp)
  have hclear : (clearReselectTree s).All P := h.mapPorts (fun p _ hp => hP.reselect p _ hp)
  have hroles : (Opconn.Rstp.updtRolesTree (clearReselectTree s)).All P := hP.updtRolesTree hclear
  rw [Opconn.Rstp.roleselEnterState]
  split
  · exact hdisable
  · exact hdisable
  · rw [setSelectedTree]
    split
    · exact hroles
    · exact hroles.mapPorts (fun p _ hp => hP.selected p _ hp)

theorem MachineInvariant.checkCondition {s : Stpm} (hs : s.Distinct) (h : s.All P)
    {m : MachineRef} (hquiet : (checkCondition s m).2 = false) : (checkCondition s m).1.All P := by
  cases m with
  | rolesel =>
    simp only [Opconn.Rstp.checkCondition] at hquiet ⊢
    split at hquiet
    · cases hquiet
    · exact h
  | port i m =>
    rcases hfind : s.port? i with _ | p
    · simpa only [Opconn.Rstp.checkCondition, hfind] using h
    · simp only [Opconn.Rstp.checkCondition, hfind] at hquiet ⊢
      refine h.mapPorts (fun q hmem hq => ?_)
      split
      · next hqi =>
        have hqp : q = p :=
          eq_of_portIndex hs hmem (port?_some hfind).1 (hqi.trans (port?_some hfind).2.symm)
        exact hP.check hq (hqp ▸ hquiet)
      · exact hq

theorem MachineInvariant.hop {s : Stpm} (hs : s.Distinct) (h : s.All P) {m : MachineRef}
    (hhop : (Opconn.Rstp.checkCondition s m).2 = true) :
    (enterState (Opconn.Rstp.checkCondition s m).1 m).All P := by
  cases m with
  | rolesel =>
    simp only [Opconn.Rstp.checkCondition] at hhop ⊢
    split at hhop
    · exact hP.roleselEnterState h
    · cases hhop
  | port i m =>
    rcases hfind : s.port? i with _ | p
    · simp [Opconn.Rstp.checkCondition, hfind] at hhop
    · rw [enterState_checkCondition_port hfind]
      simp only [Opconn.Rstp.checkCondition, hfind] at hhop
      refine h.mapPorts (fun q hmem hq => ?_)
      split
      · next hqi =>
        have hqp : q = p :=
          eq_of_portIndex hs hmem (port?_some hfind).1 (hqi.trans (port?_some hfind).2.symm)
        subst hqp
        exact hP.fire hq hhop
      · exact hP.tree hq

end Bridges

theorem checkCondition_indices (s : Stpm) (m : MachineRef) :
    (checkCondition s m).1.ports.map Port.portIndex = s.ports.map Port.portIndex := by
  cases m with
  | rolesel =>
    simp only [checkCondition]
    split <;> rfl
  | port i m =>
    rcases hfind : s.port? i with _ | p
    · simp only [checkCondition, hfind]
    · simp only [checkCondition, hfind]
      exact mapPorts_indices (fun q => by split <;> simp)

theorem roleselEnterState_indices (s : Stpm) :
    (roleselEnterState s).ports.map Port.portIndex = s.ports.map Port.portIndex := by
  have hroles : (updtRolesTree (clearReselectTree s)).ports.map Port.portIndex =
      s.ports.map Port.portIndex := by
    rw [updtRolesTree, mapPorts_indices (fun p => by simp)]
    exact mapPorts_indices (fun p => rfl)
  rw [roleselEnterState]
  split
  · exact mapPorts_indices (fun _ => rfl)
  · exact mapPorts_indices (fun _ => rfl)
  · rw [setSelectedTree]
    split
    · exact hroles
    · refine (mapPorts_indices ?_).trans hroles
      intro p
      rfl

theorem enterState_indices (s : Stpm) (m : MachineRef) :
    (enterState s m).ports.map Port.portIndex = s.ports.map Port.portIndex := by
  cases m with
  | rolesel => exact roleselEnterState_indices s
  | port i m =>
    rcases hfind : s.port? i with _ | p
    · simp only [enterState, hfind]
    · simp only [enterState, hfind]
      rw [Stpm.modifyPort, mapPorts_mapPorts]
      exact mapPorts_indices (fun q => by split <;> simp)

/-- **Updates.**  What every machine keeps of every port, `STP_stpm_update` keeps. -/
theorem Updates.all {P : Port → Prop} (hP : MachineInvariant P) {s s' : Stpm} (hs : s.Distinct)
    (h : s.All P) (hupdates : Updates s s') :
    s'.ports.map Port.portIndex = s.ports.map Port.portIndex ∧ s'.All P := by
  refine Machines.Drives.invariant
    (fun t => t.ports.map Port.portIndex = s.ports.map Port.portIndex ∧ t.All P)
    ?_ ?_ ⟨rfl, h⟩ hupdates
  · rintro t m ⟨hidx, hall⟩ hquiet
    have ht : t.Distinct := by rw [Stpm.Distinct, hidx]; exact hs
    exact ⟨(checkCondition_indices t m).trans hidx, hP.checkCondition ht hall hquiet⟩
  · rintro t m ⟨hidx, hall⟩ hhop
    have ht : t.Distinct := by rw [Stpm.Distinct, hidx]; exact hs
    exact ⟨(enterState_indices _ m).trans ((checkCondition_indices t m).trans hidx),
      hP.hop ht hall hhop⟩

theorem Stpm.All.modifyPort {P : Port → Prop} {s : Stpm} {i : Nat} {f : Port → Port} (h : s.All P)
    (hf : ∀ p, P p → P (f p)) : (s.modifyPort i f).All P :=
  h.mapPorts (fun p _ hp => by
    split
    · exact hf p hp
    · exact hp)

/-! ### Events -/

/-- What the events that meet `G` may do to a port without breaking `P`. -/
structure EventInvariant (G : Event → Prop) (P : Port → Prop) : Prop where
  init : ∀ s b p, P p → P (portInit s b p)
  initMachine : ∀ s p m, P p → P (initMachine s p m)
  enabled : ∀ s b p, P p → P { portInit s false p with portEnabled := b }
  tick : ∀ p, P p → P { p with timers := tick p.timers }
  flush : ∀ p, P p → P { p with out := .flushLt :: p.out }
  operEdge : ∀ p, P p → P { p with operEdge := false }
  rxBpdu : ∀ s i bpdu p, G (.rxBpdu i bpdu) → P p → P (infoRxBpdu s bpdu p)
  setPortCfg : ∀ s is cfg p, G (.setPortCfg is cfg) → P p → P (setPortCfgPort s cfg p)
  operSpeed : ∀ p speed, P p → P { p with operSpeed := speed, reselect := true, selected := false }
  fullDuplex : ∀ p b, P p → P { p with fullDuplex := b }
  recompute : ∀ p, P p → P { p with p2pRecompute := true, reselect := true, selected := false }

theorem EventInvariant.and {G G' : Event → Prop} {P Q : Port → Prop} (hP : EventInvariant G P)
    (hQ : EventInvariant G' Q) : EventInvariant (fun e => G e ∧ G' e) (fun p => P p ∧ Q p) where
  init s b p h := ⟨hP.init s b p h.1, hQ.init s b p h.2⟩
  initMachine s p m h := ⟨hP.initMachine s p m h.1, hQ.initMachine s p m h.2⟩
  enabled s b p h := ⟨hP.enabled s b p h.1, hQ.enabled s b p h.2⟩
  tick p h := ⟨hP.tick p h.1, hQ.tick p h.2⟩
  flush p h := ⟨hP.flush p h.1, hQ.flush p h.2⟩
  operEdge p h := ⟨hP.operEdge p h.1, hQ.operEdge p h.2⟩
  rxBpdu s i bpdu p hG h := ⟨hP.rxBpdu s i bpdu p hG.1 h.1, hQ.rxBpdu s i bpdu p hG.2 h.2⟩
  setPortCfg s is cfg p hG h :=
    ⟨hP.setPortCfg s is cfg p hG.1 h.1, hQ.setPortCfg s is cfg p hG.2 h.2⟩
  operSpeed p speed h := ⟨hP.operSpeed p speed h.1, hQ.operSpeed p speed h.2⟩
  fullDuplex p b h := ⟨hP.fullDuplex p b h.1, hQ.fullDuplex p b h.2⟩
  recompute p h := ⟨hP.recompute p h.1, hQ.recompute p h.2⟩

theorem EventInvariant.mono {G G' : Event → Prop} {P : Port → Prop} (h : EventInvariant G P)
    (hG : ∀ e, G' e → G e) : EventInvariant G' P where
  init := h.init
  initMachine := h.initMachine
  enabled := h.enabled
  tick := h.tick
  flush := h.flush
  operEdge := h.operEdge
  rxBpdu s i bpdu p he hp := h.rxBpdu s i bpdu p (hG _ he) hp
  setPortCfg s is cfg p he hp := h.setPortCfg s is cfg p (hG _ he) hp
  operSpeed := h.operSpeed
  fullDuplex := h.fullDuplex
  recompute := h.recompute

theorem initMachine_portIndex (s : Stpm) (p : Port) (m : PortMachine) :
    (initMachine s p m).portIndex = p.portIndex := by
  cases m <;> simp [initMachine]

theorem initMachines_portIndex (s : Stpm) (p : Port) :
    (initMachines s p).portIndex = p.portIndex := by
  simp only [initMachines, portMachines, List.foldl_cons, List.foldl_nil, initMachine_portIndex]

theorem initStpm_indices (s : Stpm) :
    (initStpm s).ports.map Port.portIndex = s.ports.map Port.portIndex := by
  have hports : (initPorts (stpmInitData (computeBridgeId s))).ports.map Port.portIndex =
      s.ports.map Port.portIndex := mapPorts_indices (fun p => rfl)
  have hrolesel : (initRolesel (initPorts (stpmInitData (computeBridgeId s)))).ports.map
      Port.portIndex = s.ports.map Port.portIndex := by
    refine (mapPorts_indices ?_).trans hports
    intro p
    rfl
  exact (mapPorts_indices (initMachines_portIndex _)).trans hrolesel

theorem enablePortOnStpm_portIndex (s : Stpm) (b : Bool) (p : Port) :
    (enablePortOnStpm s b p).portIndex = p.portIndex := by
  rw [enablePortOnStpm]
  split <;> rfl

theorem oneSecondPort_portIndex (s : Stpm) (link : Bool) (p : Port) :
    (oneSecondPort s link p).portIndex = p.portIndex := by
  simp only [oneSecondPort]
  split
  · rfl
  · rw [enablePort, enablePortOnStpm_portIndex]
    split <;> rfl

theorem infoRxBpdu_portIndex (s : Stpm) (bpdu : Bpdu) (p : Port) :
    (infoRxBpdu s bpdu p).portIndex = p.portIndex := by
  rw [infoRxBpdu]
  split
  · split <;> rfl
  · split
    · split <;> rfl
    · rfl

theorem rxBpduPort_portIndex (s : Stpm) (bpdu : Bpdu) (p : Port) :
    (rxBpduPort s bpdu p).portIndex = p.portIndex := by
  rw [rxBpduPort, infoRxBpdu_portIndex]
  exact enablePortOnStpm_portIndex s true p

theorem modifyPort_indices {s : Stpm} {i : Nat} {f : Port → Port}
    (hf : ∀ p, (f p).portIndex = p.portIndex) :
    (s.modifyPort i f).ports.map Port.portIndex = s.ports.map Port.portIndex :=
  mapPorts_indices (fun p => by
    split
    · exact hf p
    · rfl)

theorem handle_indices (s : Stpm) (e : Event) :
    (e.handle s).1.ports.map Port.portIndex = s.ports.map Port.portIndex := by
  cases e with
  | stpmSetCfg cfg =>
    simp only [Event.handle]
    split
    · rfl
    · split
      · rfl
      · split
        · split
          · rfl
          · exact initStpm_indices (storeCfg s cfg)
        · split
          · exact mapPorts_indices (fun p => rfl)
          · rfl
  | setPortCfg is cfg => exact mapPorts_indices (fun p => by split <;> rfl)
  | oneSecond links =>
    simp only [Event.handle]
    split
    · exact mapPorts_indices (fun p => oneSecondPort_portIndex s _ p)
    · rfl
  | rxBpdu i bpdu =>
    simp only [Event.handle]
    split
    · rfl
    · split
      · rfl
      · exact modifyPort_indices (fun p => rxBpduPort_portIndex s bpdu p)
  | changedPortSpeed i speed =>
    simp only [Event.handle]
    split
    · exact modifyPort_indices (fun p => rfl)
    · rfl
  | changedPortDuplex i b =>
    simp only [Event.handle]
    split
    · exact modifyPort_indices (fun p => rfl)
    · exact modifyPort_indices (fun p => rfl)
  | duplex i b => exact modifyPort_indices (fun p => rfl)

section Events

variable {G : Event → Prop} {P : Port → Prop} (hP : EventInvariant G P)
include hP

theorem EventInvariant.enablePortOnStpm {s : Stpm} {b : Bool} {p : Port} (hp : P p) :
    P (enablePortOnStpm s b p) := by
  rw [Opconn.Rstp.enablePortOnStpm]
  split
  · exact hp
  · exact hP.enabled s b p hp

theorem EventInvariant.oneSecondPort {s : Stpm} {link : Bool} {p : Port} (hp : P p) :
    P (oneSecondPort s link p) := by
  have htick := hP.tick p hp
  simp only [Opconn.Rstp.oneSecondPort]
  split
  · exact htick
  · rw [enablePort]
    split
    · exact hP.enablePortOnStpm htick
    · exact hP.enablePortOnStpm (hP.flush _ htick)

theorem EventInvariant.initMachines {s : Stpm} {p : Port} (hp : P p) : P (initMachines s p) := by
  rw [Opconn.Rstp.initMachines]
  exact List.foldlRecOn portMachines _ hp (fun q hq m _ => hP.initMachine s q m hq)

theorem EventInvariant.initStpm (hM : MachineInvariant P) {s : Stpm} (h : s.All P) :
    (initStpm s).All P := by
  have hports : (initPorts (stpmInitData (computeBridgeId s))).All P :=
    Stpm.All.mapPorts (s := stpmInitData (computeBridgeId s)) h (fun p _ hp => hP.init _ true p hp)
  have hrolesel : (initRolesel (initPorts (stpmInitData (computeBridgeId s)))).All P :=
    hports.mapPorts (fun p _ hp => hM.selectedRole p hp)
  exact hrolesel.mapPorts (fun p _ hp => hP.initMachines hp)

theorem EventInvariant.handle (hM : MachineInvariant P) {s : Stpm} (h : s.All P) {e : Event}
    (he : G e) : (e.handle s).1.All P := by
  cases e with
  | stpmSetCfg cfg =>
    simp only [Event.handle]
    split
    · exact h
    · split
      · exact h
      · split
        · split
          · exact h
          · exact hP.initStpm hM (s := storeCfg s cfg) h
        · split
          · exact Stpm.All.mapPorts (s := storeCfg s cfg) h
              (fun p _ hp => hM.selected _ false (hM.reselect p true hp))
          · exact h
  | setPortCfg is cfg =>
    exact h.mapPorts (fun p _ hp => by
      split
      · exact hP.setPortCfg s is cfg p he hp
      · exact hp)
  | oneSecond links =>
    simp only [Event.handle]
    split
    · exact h.mapPorts (fun p _ hp => hP.oneSecondPort hp)
    · exact h
  | rxBpdu i bpdu =>
    simp only [Event.handle]
    split
    · exact h
    · split
      · exact h
      · exact h.modifyPort
          (fun p hp => hP.rxBpdu s i bpdu _ he (hP.operEdge _ (hP.enablePortOnStpm hp)))
  | changedPortSpeed i speed =>
    simp only [Event.handle]
    split
    · exact h.modifyPort (fun p hp => hP.operSpeed p speed hp)
    · exact h
  | changedPortDuplex i b =>
    simp only [Event.handle]
    split
    · exact h.modifyPort (fun p hp => hP.recompute _ (hP.fullDuplex p b hp))
    · exact h.modifyPort (fun p hp => hP.fullDuplex p b hp)
  | duplex i b => exact h.modifyPort (fun p hp => hP.fullDuplex p b hp)

end Events

/-- A step keeps the numbers of the ports. -/
theorem Step.indices {s s' : Stpm} {e : Event} (hs : s.Distinct) (h : Step s e s') :
    s'.ports.map Port.portIndex = s.ports.map Port.portIndex := by
  rw [Step] at h
  have hidx := handle_indices s e
  split at h
  · have hnoProp : MachineInvariant (fun _ => True) := by constructor <;> intros <;> trivial
    have hd : (e.handle s).1.Distinct := by rw [Stpm.Distinct, hidx]; exact hs
    exact (Updates.all hnoProp hd (fun _ _ => trivial) h).1.trans hidx
  · rw [← h, hidx]

theorem stpmCreate_distinct (prio maxAge helloTime forwardDelay : UInt16) (forceVersion : UInt32)
    (mac : Vector UInt8 6) (portBmp : Nat → Bool) :
    (stpmCreate prio maxAge helloTime forwardDelay forceVersion mac portBmp).Distinct := by
  have hmap : ∀ l : List Nat, (l.map (portCreate ⟨0, maxAge, forwardDelay, helloTime⟩)).map
      Port.portIndex = l := by
    intro l
    rw [List.map_map]
    exact (List.map_congr_left (fun i _ => rfl)).trans (List.map_id l)
  rw [Stpm.Distinct, stpmCreate, List.map_reverse, hmap, List.nodup_reverse]
  exact List.Nodup.filter _ List.nodup_range'

theorem ReachableBy.distinct {G : Event → Prop} {s : Stpm} (h : ReachableBy G s) : s.Distinct := by
  induction h with
  | create prio maxAge helloTime forwardDelay forceVersion mac portBmp =>
    exact stpmCreate_distinct prio maxAge helloTime forwardDelay forceVersion mac portBmp
  | step e _ _ hstep ih =>
    rw [Stpm.Distinct, hstep.indices ih]
    exact ih

theorem ReachableBy.mono {G G' : Event → Prop} (hG : ∀ e, G e → G' e) {s : Stpm}
    (h : ReachableBy G s) : ReachableBy G' s := by
  induction h with
  | create prio maxAge helloTime forwardDelay forceVersion mac portBmp =>
    exact .create prio maxAge helloTime forwardDelay forceVersion mac portBmp
  | step e _ he hstep ih => exact .step e ih (hG e he) hstep

/-- **Every bridge that comes about.**  What a port is created with, and what every machine and every
event keep of it, holds of all ports for good. -/
theorem ReachableBy.all {G : Event → Prop} {P : Port → Prop} (hM : MachineInvariant P)
    (hE : EventInvariant G P) (hcreate : ∀ t i, i ∈ List.range' 1 numberOfPorts → P (portCreate t i))
    {s : Stpm} (h : ReachableBy G s) : s.All P := by
  induction h with
  | create prio maxAge helloTime forwardDelay forceVersion mac portBmp =>
    intro p hp
    rw [stpmCreate, List.mem_reverse, List.mem_map] at hp
    obtain ⟨i, hi, rfl⟩ := hp
    exact hcreate _ i (List.mem_filter.mp hi).1
  | @step s s' e hs hG hstep ih =>
    have hhandle := hE.handle hM ih hG
    rw [Step] at hstep
    split at hstep
    · have hd : (e.handle s).1.Distinct := by rw [Stpm.Distinct, handle_indices]; exact hs.distinct
      exact (Updates.all hM hd hhandle hstep).2
    · exact hstep ▸ hhandle

end Opconn.Rstp
