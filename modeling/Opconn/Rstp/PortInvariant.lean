import Opconn.Rstp.PortFacts

/-!
# The invariant of a port

What the machines of a port keep, one by one, holds of every port of every bridge that comes about.
With it, what the hardware is told comes in order, and a bridge at rest has cut off the ports that are
not in its tree.
-/

namespace Opconn.Rstp

/-- What a port may rely on. -/
structure Port.Ok (p : Port) : Prop where
  sttrans : p.SttransOk
  role : p.RoleOk
  info : p.InfoOk
  pcost : p.PcostOk
  tx : p.TxOk
  msg : p.MsgOk

/-! ### The machines keep it -/

theorem Port.Ok.prelude {p : Port} (h : p.Ok) : (nonStpPrelude p).Ok := by
  rw [nonStpPrelude]
  split
  · exact ⟨h.sttrans, RoleOk.nonStp _ _ _, h.info, h.pcost, h.tx, h.msg⟩
  · exact h

theorem Port.Ok.transmit {s : Stpm} {p : Port} {st : TransmitState} (h : p.Ok)
    (hnext : transmitNext p = some st) : (transmitEnterState s st { p with transmit := st }).Ok := by
  have htx := h.tx.fire (s := s) hnext
  cases st with
  | transmitConfig =>
    refine ⟨?_, h.role, h.info, h.pcost, htx, h.msg⟩
    rw [Port.SttransOk, Port.states, transmitEnterState, Port.states_send rfl]
    exact h.sttrans
  | transmitTcn =>
    refine ⟨?_, h.role, h.info, h.pcost, htx, h.msg⟩
    rw [Port.SttransOk, Port.states, transmitEnterState, Port.states_send rfl]
    exact h.sttrans
  | transmitRstp =>
    refine ⟨?_, h.role, h.info, h.pcost, htx, h.msg⟩
    rw [Port.SttransOk, Port.states, transmitEnterState, Port.states_send rfl]
    exact h.sttrans
  | _ => exact ⟨h.sttrans, h.role, h.info, h.pcost, htx, h.msg⟩

theorem Port.Ok.topoch {s : Stpm} {p : Port} (h : p.Ok) (st : TopochState) :
    (topochEnterState s st { p with topoch := st }).Ok := by
  cases st with
  | begin | inactive | propagating =>
    refine ⟨?_, h.role, h.info, h.pcost, h.tx, h.msg⟩
    rw [Port.SttransOk, Port.states, topochEnterState, Port.states_flush]
    exact h.sttrans
  | _ => exact ⟨h.sttrans, h.role, h.info, h.pcost, h.tx, h.msg⟩

theorem Port.Ok.portrcv {p : Port} {st : PortrcvState} (h : p.Ok)
    (hnext : portrcvNext p = some st) : (portrcvEnterState st { p with portrcv := st }).Ok := by
  have hmsg := h.msg.portrcv hnext
  cases st <;> exact ⟨h.sttrans, h.role, h.info, h.pcost, h.tx, hmsg⟩

theorem Port.Ok.pcostFire {p : Port} {st : PcostState} (h : p.Ok) (hnext : pcostNext p = some st) :
    (pcostEnterState st { p with pcost := st }).Ok := by
  have hpcost := h.pcost.fire hnext
  cases st <;> exact ⟨h.sttrans, h.role, h.info, hpcost, h.tx, h.msg⟩

theorem Port.Ok.infoFire {s : Stpm} {p : Port} {st : InfoState} (h : p.Ok)
    (hnext : infoNext p = some st) : (infoEnterState s st { p with info := st }).Ok := by
  have hinfo := h.info.fire (s := s) hnext
  have hmsg := h.msg.fire (s := s) hnext
  cases st <;> exact ⟨h.sttrans, h.role, hinfo, h.pcost, h.tx, hmsg⟩

theorem Port.Ok.roletrns {s : Stpm} {p : Port} {st : RoletrnsState} (h : p.Ok)
    (hnext : roletrnsNext s p = some st) :
    (roletrnsEnterState s st (roletrnsTree st { p with roletrns := st })).Ok := by
  have hrole := h.role.fire hnext
  cases st <;> exact ⟨h.sttrans, hrole, h.info, h.pcost, h.tx, h.msg⟩

theorem Port.Ok.sttransFire {p : Port} {st : SttransState} (h : p.Ok)
    (hnext : sttransNext p = some st) : (sttransEnterState st { p with sttrans := st }).Ok := by
  have hsttrans := h.sttrans.fire hnext
  cases st <;> exact ⟨hsttrans, h.role, h.info, h.pcost, h.tx, h.msg⟩

theorem Port.Ok.topochTree {q : Port} (h : q.Ok) (i : Nat) (st : TopochState) :
    (topochTree i st q).Ok := by
  have htree : ∃ b, Rstp.topochTree i st q = { q with tcProp := b } := by
    cases st <;> simp only [Rstp.topochTree] <;> first | exact ⟨q.tcProp, rfl⟩ | skip
    all_goals
      split
      · exact ⟨q.tcProp, rfl⟩
      · exact ⟨true, rfl⟩
  obtain ⟨b, htree⟩ := htree
  rw [htree]
  exact ⟨h.sttrans, h.role, h.info, h.pcost, h.tx, h.msg⟩

theorem Port.Ok.updtRole {s : Stpm} {p : Port} (h : p.Ok) :
    (updtRole s (updtDesignPrio s p)).Ok := by
  have hrole : (Rstp.updtRole s (updtDesignPrio s p)).RoleOk := h.role.updtRole
  obtain ⟨_, _, _, _, _, _, _, _, hframe⟩ := updtRolesTree_frame s p
  rw [hframe] at hrole ⊢
  exact ⟨h.sttrans, hrole, h.info, h.pcost, h.tx, h.msg⟩

theorem ok_machines : MachineInvariant Port.Ok where
  drop p b h := ⟨h.sttrans, h.role, h.info, h.pcost, h.tx, h.msg⟩
  prelude p h := h.prelude
  transmit s p st h hnext := h.transmit hnext
  portrcv p st h hnext := h.portrcv hnext
  bridect p st h _ := by cases st <;> exact ⟨h.sttrans, h.role, h.info, h.pcost, h.tx, h.msg⟩
  p2p p st h _ := by cases st <;> exact ⟨h.sttrans, h.role, h.info, h.pcost, h.tx, h.msg⟩
  topoch s p st h _ := h.topoch st
  migrate s p st h _ := by cases st <;> exact ⟨h.sttrans, h.role, h.info, h.pcost, h.tx, h.msg⟩
  pcost p st h hnext := h.pcostFire hnext
  info s p st h hnext := h.infoFire hnext
  roletrns s p st h hnext := h.roletrns hnext
  sttrans p st h hnext := h.sttransFire hnext
  topochTree i st q h := h.topochTree i st
  roletrnsTree st q h := by cases st <;> exact ⟨h.sttrans, h.role, h.info, h.pcost, h.tx, h.msg⟩
  reselect p b h := ⟨h.sttrans, h.role, h.info, h.pcost, h.tx, h.msg⟩
  selected p b h := ⟨h.sttrans, h.role, h.info, h.pcost, h.tx, h.msg⟩
  selectedRole p h := ⟨h.sttrans, h.role, h.info, h.pcost, h.tx, h.msg⟩
  updtRole s p h := h.updtRole

/-! ### The events keep it -/

theorem Port.Ok.init {p : Port} (h : p.Ok) (s : Stpm) (b : Bool) : (portInit s b p).Ok := by
  refine ⟨h.sttrans, h.role, h.info, h.pcost, ⟨Nat.zero_le _, fun _ => rfl⟩, ?_⟩
  have hunknown : rstpPortRoleUnkn ≠ rstpPortRoleDesgn := by decide
  exact ⟨h.msg.pos, h.msg.own, h.msg.msg.imp_right (fun hno =>
    ⟨hunknown, hno.notification, hno.received, hno.superior⟩), h.msg.kept⟩

theorem Port.Ok.enabled {p : Port} (h : p.Ok) (b : Bool) : Port.Ok { p with portEnabled := b } :=
  ⟨h.sttrans, h.role, h.info, h.pcost, h.tx, h.msg⟩

theorem Port.Ok.initMachine {p : Port} (h : p.Ok) (s : Stpm) (m : PortMachine) :
    (initMachine s p m).Ok := by
  cases m with
  | transmit => exact ⟨h.sttrans, h.role, h.info, h.pcost, ⟨Nat.zero_le _, fun _ => rfl⟩, h.msg⟩
  | topoch => exact h.topoch (s := s) .begin
  | pcost => exact ⟨h.sttrans, h.role, h.info, Or.inl rfl, h.tx, h.msg⟩
  | info =>
    have hmsg : Rstp.MsgOk p.portIndex p.portId p.msgPrio p.portPrio .disabled
        (Rstp.NoVector p.msgPortRole p.msgBpduType p.rcvdBpdu .superiorDesignateMsg .begin
          p.rcvdInfo) :=
      ⟨h.msg.pos, h.msg.own, h.msg.msg.imp_right (fun hno =>
        ⟨hno.role, hno.notification.imp_right (fun hn => ⟨hn.1, rfl⟩), nofun, nofun⟩), nofun⟩
    exact ⟨h.sttrans, h.role, Or.inr rfl, h.pcost, h.tx, hmsg⟩
  | roletrns => exact ⟨h.sttrans, RoleOk.cut .begin nofun nofun _, h.info, h.pcost, h.tx, h.msg⟩
  | sttrans =>
    exact ⟨h.sttrans.discard (Or.inl rfl), h.role, h.info, h.pcost, h.tx, h.msg⟩
  | _ => exact ⟨h.sttrans, h.role, h.info, h.pcost, h.tx, h.msg⟩

theorem Port.Ok.rxBpdu {p : Port} (h : p.Ok) (s : Stpm) (bpdu : Bpdu) : (infoRxBpdu s bpdu p).Ok := by
  have hmsg : (infoRxBpdu s bpdu p).MsgOk := h.msg.rxBpdu
  rw [infoRxBpdu] at hmsg ⊢
  split
  · split
    · exact h
    · exact ⟨h.sttrans, h.role, h.info, h.pcost, h.tx, by simpa [*] using hmsg⟩
  · split
    · split
      · exact h
      · exact ⟨h.sttrans, h.role, h.info, h.pcost, h.tx, by simpa [*] using hmsg⟩
    · exact h

theorem Port.Ok.setPortCfg {p : Port} (h : p.Ok) (s : Stpm) (cfg : PortCfg) :
    (setPortCfgPort s cfg p).Ok := by
  have hindex : p.portIndex < 256 := by
    have hown := h.msg.own
    rw [Names] at hown
    omega
  have hown : Names (setPortCfgPort s cfg p).portId p.portIndex := by
    rw [setPortCfgPort]
    cases cfg.portPriority with
    | none => exact h.msg.own
    | some prio =>
      have hprio := prio.toNat_lt
      simp only [Names, UInt16.toNat_add, UInt16.toNat_mul, UInt8.toNat_toUInt16, UInt16.reduceToNat,
        UInt16.toNat_ofNat']
      omega
  exact ⟨h.sttrans, h.role, h.info, h.pcost, h.tx, h.msg.pos, hown, h.msg.msg, h.msg.kept⟩

theorem ok_events : EventInvariant (fun _ => True) Port.Ok where
  init s b p h := h.init s b
  initMachine s p m h := h.initMachine s m
  enabled s b p h := (h.init s false).enabled b
  tick p h :=
    ⟨h.sttrans, h.role, h.info, h.pcost,
      ⟨(Nat.sub_le _ _).trans h.tx.hold, fun hst => by
        have hzero : p.timers.txCount = 0 := h.tx.begin hst
        simp [tick, hzero]⟩, h.msg⟩
  flush p h := ⟨h.sttrans, h.role, h.info, h.pcost, h.tx, h.msg⟩
  operEdge p h := ⟨h.sttrans, h.role, h.info, h.pcost, h.tx, h.msg⟩
  rxBpdu s i bpdu p _ h := h.rxBpdu s bpdu
  setPortCfg s is cfg p _ h := h.setPortCfg s cfg
  operSpeed p speed h := ⟨h.sttrans, h.role, h.info, h.pcost, h.tx, h.msg⟩
  fullDuplex p b h := ⟨h.sttrans, h.role, h.info, h.pcost, h.tx, h.msg⟩
  recompute p h := ⟨h.sttrans, h.role, h.info, h.pcost, h.tx, h.msg⟩

theorem portCreate_ok (t : TimeValues) (i : Nat) (hi : i ∈ List.range' 1 numberOfPorts) :
    (portCreate t i).Ok := by
  have hrange : 1 ≤ i ∧ i < 1 + numberOfPorts := List.mem_range'_1.mp hi
  have hown : Names (defPortPrio * 256 + UInt16.ofNat i) i := by
    simp only [numberOfPorts] at hrange
    have hcases : i = 1 ∨ i = 2 ∨ i = 3 ∨ i = 4 := by omega
    rcases hcases with rfl | rfl | rfl | rfl <;> rfl
  have hnovector : Rstp.NoVector 0 0 false .superiorDesignateMsg .begin .superiorDesignatedInfo :=
    ⟨by decide, Or.inr ⟨rfl, rfl⟩, nofun, nofun⟩
  exact ⟨SttransOk.create [] rfl, RoleOk.cut .begin nofun nofun _, Or.inl rfl, Or.inl rfl,
    ⟨Nat.zero_le _, fun _ => rfl⟩, hrange.1, hown, Or.inr hnovector, nofun⟩

/-- **Every port of every bridge that comes about.** -/
theorem ReachableBy.ok {G : Event → Prop} {s : Stpm} (h : ReachableBy G s) : s.All Port.Ok :=
  (h.mono (fun _ _ => trivial)).all ok_machines ok_events portCreate_ok

/-! ### What the hardware is told -/

/-- **Learning before forwarding.**  Whatever happens to a bridge, the hardware of each of its ports is
told to discard first, to learn only after discarding, to forward only after learning, and what it was
told last is what the flags of the port say. -/
theorem hardware_in_order {s : Stpm} (h : Reachable s) {p : Port} (hp : p ∈ s.ports) :
    p.states.IsChain Follows ∧ (∀ st ∈ p.states.getLast?, st = .discarding) ∧
      p.hardware = p.states.head?.getD .disabled ∧
      (p.hardware = .forwarding ↔ p.forwarding = true) ∧
      (p.hardware = .learning ↔ p.learning = true ∧ p.forwarding = false) := by
  have hok := (h.ok p hp).sttrans
  have hflags := hok.flags
  refine ⟨hok.chain, hok.first, hok.latest, ?_⟩
  cases hst : p.sttrans with
  | begin =>
    rw [hst] at hflags
    obtain ⟨hlearning, hforwarding, hhw⟩ := hflags
    rcases hhw with hhw | hhw <;> simp [hlearning, hforwarding, hhw]
  | discarding =>
    rw [hst] at hflags
    obtain ⟨hlearning, hforwarding, hhw⟩ := hflags
    simp [hlearning, hforwarding, hhw]
  | learning =>
    rw [hst] at hflags
    obtain ⟨hlearning, hforwarding, hhw⟩ := hflags
    simp [hlearning, hforwarding, hhw]
  | forwarding =>
    rw [hst] at hflags
    obtain ⟨hlearning, hforwarding, hhw⟩ := hflags
    simp [hforwarding, hhw]

set_option maxRecDepth 100000 in
/-- The port of a bridge whose link came up a second ago. -/
theorem hardware_in_order_learning :
    ∃ s p, Reachable s ∧ p ∈ s.ports ∧ p.hardware = .learning ∧ p.states.IsChain Follows := by
  obtain ⟨s, hrun, hlearns⟩ := exists_run_of_run? 100 onePort (startUp ++ [linkUp])
    (fun s => s.ports.any (fun p => p.hardware = .learning)) (by decide +kernel)
  obtain ⟨p, hp, hlearning⟩ := List.any_eq_true.mp hlearns
  have hreach : Reachable s := hrun.reachable onePort_reachable
  exact ⟨s, p, hreach, hp, of_decide_eq_true hlearning, (hardware_in_order hreach hp).1⟩

/-- A port at rest that is not in the tree is cut off. -/
theorem Port.Rest.outside {p : Port} (h : p.Rest) (hok : p.Ok)
    (hrole : p.role = .disabledPort ∨ p.role = .alternatePort ∨ p.role = .backupPort) :
    p.hardware = .discarding ∧ p.learning = false ∧ p.forwarding = false := by
  have hblocked := hok.role.blocked hrole
  have hnon : p.role ≠ .nonStpPort := by
    rcases hrole with hrole | hrole | hrole <;> simp [hrole]
  exact h.discarding hok.sttrans hnon hblocked.1 hblocked.2

/-- **Ports outside the tree are cut off.**  Whenever a bridge comes to rest, whatever has happened to
it before, the hardware of its disabled, alternate and backup ports discards. -/
theorem outside_tree_discards {s s' : Stpm} {e : Event} (h : Reachable s)
    (hwork : (e.handle s).2 = true) (hstep : Step s e s') {p : Port} (hp : p ∈ s'.ports)
    (hrole : p.role = .disabledPort ∨ p.role = .alternatePort ∨ p.role = .backupPort) :
    p.hardware = .discarding ∧ p.learning = false ∧ p.forwarding = false := by
  have hreach : Reachable s' := ReachableBy.step e h trivial hstep
  have hdist : (e.handle s).1.Distinct := by
    rw [Stpm.Distinct, handle_indices]
    exact h.distinct
  have hsettled : s'.Settled := by
    rw [Step, if_pos hwork] at hstep
    exact hstep.settled hdist
  exact (hsettled.ports p hp).outside (hreach.ok p hp) hrole

set_option maxRecDepth 100000 in
/-- The port of a bridge whose link has gone down. -/
theorem outside_tree_discards_down :
    ∃ s s' p, Reachable s ∧ Step s linkDown s' ∧ p ∈ s'.ports ∧ p.role = .disabledPort ∧
      p.hardware = .discarding := by
  obtain ⟨s, hrun, hs⟩ := exists_run_of_run? 100 onePort (startUp ++ [linkUp])
    (fun s => (linkDown.handle s).2 &&
      (step? 100 s linkDown).any (fun s' => s'.ports.any (fun p => p.role = .disabledPort)))
    (by decide +kernel)
  rw [Bool.and_eq_true, Option.any_eq_true] at hs
  obtain ⟨hwork, s', hstep, hport⟩ := hs
  obtain ⟨p, hp, hrole⟩ := List.any_eq_true.mp hport
  have hreach : Reachable s := hrun.reachable onePort_reachable
  have hdown : p.role = .disabledPort := of_decide_eq_true hrole
  exact ⟨s, s', p, hreach, step_of_step? hstep, hp, hdown,
    (outside_tree_discards hreach hwork (step_of_step? hstep) hp (Or.inl hdown)).1⟩

end Opconn.Rstp
