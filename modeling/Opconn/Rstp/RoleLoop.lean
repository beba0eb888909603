import Opconn.Rstp.RoleWork

/-!
# Whether the role transitions machine comes to rest

`STP_change_state` lets a machine that has hopped go on by itself until it does not hop any more.
The role transitions machine comes to rest so, whatever the bridge is like, unless its port is
restless; then `STP_stpm_update` does not return.  As long as no port is taken out of the protocol,
no port gets there.
-/

namespace Opconn.Rstp

variable {s t : Stpm} {p q : Port} {st : RoletrnsState} {i : Nat}

/-! ### The loop of the machine -/

@[simp] theorem roletrnsTree_roletrns (st : RoletrnsState) (q : Port) :
    (roletrnsTree st q).roletrns = q.roletrns := by
  cases st <;> rfl

/-- `STP_change_state` enters the state. -/
theorem port?_enterState (hp : s.port? i = some p) :
    (enterState s (.port i .roletrns)).port? i = some (roletrnsEntered s p.roletrns p) := by
  have hidx : p.portIndex = i := (port?_some hp).2
  simp only [enterState, hp]
  rw [Stpm.modifyPort, mapPorts_mapPorts, port?_mapPorts (fun q => by split <;> simp), hp,
    Option.map_some, portTree_portIndex, if_pos hidx]
  rw [portTree, portEnter, roletrnsTree_roletrns]
  rfl

theorem rootTimes_enterState (hp : s.port? i = some p) :
    (enterState s (.port i .roletrns)).rootTimes = s.rootTimes := by
  simp only [enterState, hp]
  rfl

/-- A hop of the role transitions machine. -/
theorem checkCondition_of_some (hp : s.port? i = some p)
    (h : roletrnsNext s (nonStpPrelude p) = some st) :
    ∃ t, checkCondition s (.port i .roletrns) = (t, true) ∧ t.rootTimes = s.rootTimes ∧
      t.port? i = some { nonStpPrelude p with roletrns := st } := by
  have hcheck : portCheck s .roletrns p = ({ nonStpPrelude p with roletrns := st }, true) := by
    simp only [portCheck, h]
  refine ⟨s.modifyPort i (fun q => (portCheck s .roletrns q).1), ?_, rfl, ?_⟩
  · simp only [checkCondition, hp, hcheck]
  · rw [Stpm.modifyPort, port?_mapPorts (fun q => by split <;> simp), hp, Option.map_some,
      if_pos (port?_some hp).2, hcheck]

theorem checkCondition_of_none (hp : s.port? i = some p)
    (h : roletrnsNext s (nonStpPrelude p) = none) :
    (checkCondition s (.port i .roletrns)).2 = false := by
  simp only [checkCondition, hp, portCheck, h]

/-- A round of `STP_change_state` of the role transitions machine. -/
theorem updateRound_cases (hp : s.port? i = some p) :
    (∃ t, updateRound (s, some (.port i .roletrns)) = .inl (t, none)) ∨
      ∃ u t st, updateRound (s, some (.port i .roletrns)) = .inl (t, some (.port i .roletrns)) ∧
        u.rootTimes = s.rootTimes ∧ t.rootTimes = s.rootTimes ∧
        roletrnsNext u (nonStpPrelude (roletrnsEntered s p.roletrns p)) = some st ∧
        t.port? i = some { nonStpPrelude (roletrnsEntered s p.roletrns p) with roletrns := st } := by
  have hentered := port?_enterState hp
  have htimes := rootTimes_enterState hp
  rcases hnext : roletrnsNext (enterState s (.port i .roletrns))
    (nonStpPrelude (roletrnsEntered s p.roletrns p)) with _ | st
  · refine Or.inl ⟨(checkCondition (enterState s (.port i .roletrns)) (.port i .roletrns)).1, ?_⟩
    simp only [updateRound, Machines.round, checkCondition_of_none hentered hnext]
    rfl
  · obtain ⟨t, hcheck, ht, hport⟩ := checkCondition_of_some hentered hnext
    refine Or.inr ⟨_, t, st, ?_, htimes, ht.trans htimes, hnext, hport⟩
    simp only [updateRound, Machines.round, hcheck]
    rfl

/-- The role transitions machine of a port that is not restless comes to rest: every hop leaves less
to do. -/
theorem roletrns_rests (hp : s.port? i = some p) (h : ¬(roletrnsEntered s p.roletrns p).Restless) :
    ∃ t, Loop.Reaches updateRound (s, some (.port i .roletrns)) (t, none) := by
  generalize hrank : (roletrnsEntered s p.roletrns p).roleRank s.rootTimes = n
  induction n using Nat.strong_induction_on generalizing s p with
  | _ n ih =>
    rcases updateRound_cases hp with ⟨t, hround⟩ | ⟨u, t, st, hround, hu, ht, hnext, hport⟩
    · exact ⟨t, Relation.ReflTransGen.single hround⟩
    · have hlowers := roleRank_lowers (t := t) hnext h (ht.trans hu.symm)
      rw [hu] at hlowers
      obtain ⟨t', hreach⟩ := ih _ (hrank ▸ hlowers) hport
        (fun hrestless => h (restless_of_hop hnext hrestless).of_prelude) (by rw [ht]; rfl)
      exact ⟨t', Relation.ReflTransGen.head hround hreach⟩

/-! ### Rounds of the update -/

/-- The update after some rounds. -/
def updateAfter : Nat → Stpm × Option MachineRef → Option (Stpm × Option MachineRef)
  | 0, c => some c
  | n + 1, c =>
    match updateRound c with
    | .inl c' => updateAfter n c'
    | .inr _ => none

theorem reaches_of_updateAfter {n : Nat} {c c' : Stpm × Option MachineRef}
    (h : updateAfter n c = some c') : Loop.Reaches updateRound c c' := by
  induction n generalizing c with
  | zero =>
    cases h
    exact Loop.Reaches.refl _
  | succ n ih =>
    rw [updateAfter] at h
    split at h
    · next hround => exact Relation.ReflTransGen.head hround (ih h)
    · cases h

/-! ### Bridges none of whose ports is taken out -/

/-- The event takes no port out of the protocol. -/
def Event.KeepsIn : Event → Prop
  | .setPortCfg _ cfg => cfg.adminNonStp ≠ some true
  | _ => True

/-- A port that takes no part in the protocol has never been in it. -/
structure OutsideOk (adminNonStp : Bool) (selectedRole : PortRole) (st : RoletrnsState) : Prop where
  selected : adminNonStp = true → selectedRole = .nonStpPort ∨ selectedRole = .disabledPort
  group : adminNonStp = true ∨ selectedRole = .nonStpPort → st.group = .start ∨ st.group = .disabled

/-- A port that takes no part in the protocol has never been in it. -/
def Port.OutsideOk (p : Port) : Prop := Rstp.OutsideOk p.adminNonStp p.selectedRole p.roletrns

theorem Port.OutsideOk.not_restless (h : p.OutsideOk) : ¬p.Restless := by
  intro hrestless
  rcases h.group (Or.inr hrestless.selectedRole) with hgroup | hgroup
  · cases hrestless.group.symm.trans hgroup
  · cases hrestless.group.symm.trans hgroup

/-- A port that takes no part is in no role that it could leave the start for. -/
theorem Port.OutsideOk.hop (h : p.OutsideOk) (hnext : roletrnsNext s p = some st) :
    Rstp.OutsideOk p.adminNonStp p.selectedRole st := by
  refine ⟨h.selected, fun houtside => ?_⟩
  rcases roletrnsNext_cases hnext with rfl | hrole | hgroup | rfl
  · exact Or.inl rfl
  · rcases houtside with hadmin | hnon
    · rcases h.selected hadmin with hsel | hsel <;> rw [hsel] at hrole <;> cases hrole
      exact Or.inr rfl
    · rw [hnon] at hrole
      cases hrole
  · rw [hgroup]
    exact h.group houtside
  · exact Or.inr rfl

/-- Role selection lets every port that takes part have a role in the protocol. -/
theorem updtRole_selectedRole_ne (s : Stpm) (h : p.adminNonStp = false) :
    (updtRole s p).selectedRole ≠ .nonStpPort := by
  rw [updtRole, if_neg (by simp [h])]
  repeat' split
  all_goals simp [setRoleSelected]

theorem outsideOk_updtRole (s : Stpm) (h : p.OutsideOk) :
    (updtRole s (updtDesignPrio s p)).OutsideOk := by
  cases hadmin : p.adminNonStp with
  | true =>
    have hnon : updtRole s (updtDesignPrio s p) =
        { setRoleSelected .nonStpPort p with forward := true, learn := true } := by
      simp [updtRole, updtDesignPrio, hadmin]
    rw [hnon]
    exact ⟨fun _ => Or.inl rfl, fun _ => h.group (Or.inl hadmin)⟩
  | false =>
    have hadmin' : (updtRole s (updtDesignPrio s p)).adminNonStp = false := by
      obtain ⟨_, _, _, _, _, _, _, _, hframe⟩ := updtRolesTree_frame s p
      rw [hframe]
      exact hadmin
    have hsel : (updtRole s (updtDesignPrio s p)).selectedRole ≠ .nonStpPort := by
      obtain ⟨_, _, hdesign⟩ := updtDesignPrio_frame s p
      exact updtRole_selectedRole_ne s (by rw [hdesign]; exact hadmin)
    refine ⟨fun houtside => ?_, fun houtside => ?_⟩
    · rw [hadmin'] at houtside
      cases houtside
    · rcases houtside with houtside | houtside
      · rw [hadmin'] at houtside
        cases houtside
      · exact absurd houtside hsel

theorem outsideOk_machines : MachineInvariant Port.OutsideOk where
  drop p b h := h
  prelude p h := by
    rw [nonStpPrelude]
    split <;> exact h
  transmit s p st h _ := by cases st <;> exact h
  portrcv p st h _ := by cases st <;> exact h
  bridect p st h _ := by cases st <;> exact h
  p2p p st h _ := by cases st <;> exact h
  topoch s p st h _ := by cases st <;> exact h
  migrate s p st h _ := by cases st <;> exact h
  pcost p st h _ := by cases st <;> exact h
  info s p st h _ := by cases st <;> exact h
  roletrns s p st h hnext := by
    have hhop := h.hop hnext
    cases st <;> exact hhop
  sttrans p st h _ := by cases st <;> exact h
  topochTree i st q h := by
    cases st <;> simp only [topochTree] <;> first | exact h | (split <;> exact h)
  roletrnsTree st q h := by cases st <;> exact h
  reselect p b h := h
  selected p b h := h
  selectedRole p h := ⟨fun _ => Or.inr rfl, fun houtside => h.group (houtside.imp_right (by rintro ⟨⟩))⟩
  updtRole s p h := outsideOk_updtRole s h

theorem outsideOk_events : EventInvariant Event.KeepsIn Port.OutsideOk where
  init s b p h := ⟨fun _ => Or.inr rfl, fun houtside => h.group (houtside.imp_right (by rintro ⟨⟩))⟩
  initMachine s p m h := by
    cases m with
    | roletrns => exact ⟨h.selected, fun _ => Or.inl rfl⟩
    | _ => exact h
  enabled s b p h := ⟨fun _ => Or.inr rfl, fun houtside => h.group (houtside.imp_right (by rintro ⟨⟩))⟩
  tick p h := h
  flush p h := h
  operEdge p h := h
  rxBpdu s i bpdu p hG h := by
    rw [infoRxBpdu]
    split
    · split <;> exact h
    · split
      · split <;> exact h
      · exact h
  setPortCfg s is cfg p hG h := by
    have hkept : (setPortCfgPort s cfg p).adminNonStp = true → p.adminNonStp = true := by
      intro hadmin
      cases hcfg : cfg.adminNonStp with
      | none => simpa [setPortCfgPort, hcfg] using hadmin
      | some b =>
        have hb : b = true := by simpa [setPortCfgPort, hcfg] using hadmin
        exact absurd (hb ▸ hcfg) hG
    exact ⟨fun hadmin => h.selected (hkept hadmin), fun houtside => h.group (houtside.imp_left hkept)⟩
  operSpeed p speed h := h
  fullDuplex p b h := h
  recompute p h := h

theorem portCreate_outsideOk (t : TimeValues) (i : Nat) : (portCreate t i).OutsideOk :=
  ⟨fun _ => Or.inr rfl, fun _ => Or.inl rfl⟩

/-- The ports, wherever the update that an event begins has come to. -/
theorem outsideOk_reaches {e : Event} (hs : ReachableBy Event.KeepsIn s) (he : e.KeepsIn)
    {c : Stpm × Option MachineRef} (hreach : Loop.Reaches updateRound ((e.handle s).1, none) c) :
    Machines.Held enterState (fun u => u.ports.map Port.portIndex = s.ports.map Port.portIndex ∧
      u.All Port.OutsideOk) c := by
  have hall : (e.handle s).1.All Port.OutsideOk :=
    outsideOk_events.handle outsideOk_machines
      (hs.all outsideOk_machines outsideOk_events (fun t i _ => portCreate_outsideOk t i)) he
  have hdistinct : ∀ u : Stpm, u.ports.map Port.portIndex = s.ports.map Port.portIndex →
      u.Distinct := by
    intro u hu
    rw [Stpm.Distinct, hu]
    exact hs.distinct
  have hstart : Machines.Held enterState
      (fun u => u.ports.map Port.portIndex = s.ports.map Port.portIndex ∧ u.All Port.OutsideOk)
      ((e.handle s).1, none) := ⟨handle_indices s e, hall⟩
  refine hreach.invariant _ (fun c c' hc hround => ?_) hstart
  refine Machines.round_held _ ?_ ?_ hc hround
  · rintro u m ⟨hidx, hu⟩ hquiet
    exact ⟨(checkCondition_indices u m).trans hidx,
      outsideOk_machines.checkCondition (hdistinct u hidx) hu hquiet⟩
  · rintro u m ⟨hidx, hu⟩ hhop
    exact ⟨(enterState_indices _ m).trans ((checkCondition_indices u m).trans hidx),
      outsideOk_machines.hop (hdistinct u hidx) hu hhop⟩

/-- **Where no port is taken out, the role transitions machine always comes to rest**, whatever has
happened to the bridge and wherever its update has come to. -/
theorem roletrns_always_rests {e : Event} (hs : ReachableBy Event.KeepsIn s) (he : e.KeepsIn)
    (hreach : Loop.Reaches updateRound ((e.handle s).1, none) (t, some (.port i .roletrns))) :
    ∃ t', Loop.Reaches updateRound (t, some (.port i .roletrns)) (t', none) := by
  obtain ⟨-, hall⟩ : _ ∧ _ := outsideOk_reaches hs he hreach
  rcases hp : t.port? i with _ | p
  · refine ⟨t, Relation.ReflTransGen.single ?_⟩
    simp only [Loop.Again, updateRound, Machines.round, enterState, checkCondition, hp]
    rfl
  · have hentered := (port?_some (port?_enterState hp)).1
    exact roletrns_rests hp (hall _ hentered).not_restless

/-- A bridge is started. -/
def startEvent : Event := .stpmSetCfg ⟨some true, none, none, none, none, none⟩

theorem roletrns_always_rests_started :
    ∃ (e : Event) (t t' : Stpm), e.KeepsIn ∧
      Loop.Reaches updateRound ((e.handle onePort).1, none) (t, some (.port 1 .roletrns)) ∧
      Loop.Reaches updateRound (t, some (.port 1 .roletrns)) (t', none) := by
  have hcheck : (updateAfter 28 ((startEvent.handle onePort).1, none)).any
      (fun c => c.2 = some (.port 1 .roletrns)) = true := by decide +kernel
  obtain ⟨⟨t, m⟩, hafter, hm⟩ := (Option.any_eq_true _ _).mp hcheck
  cases of_decide_eq_true hm
  have hreach := reaches_of_updateAfter hafter
  obtain ⟨t', hrests⟩ := roletrns_always_rests (e := startEvent) onePort_reachable trivial hreach
  exact ⟨startEvent, t, t', trivial, hreach, hrests⟩

/-! ### The restless port -/

theorem Port.Restless.prelude (h : q.Restless) : (nonStpPrelude q).Restless := by
  rw [nonStpPrelude_of_eq h.selectedRole]
  exact ⟨h.group, h.selectedRole, h.selected, h.updtInfo, h.mustDiscard, h.syncedDue⟩

/-- Where the root port has retired the others, the port retires, otherwise it discards. -/
theorem designatedPortNext_of_mustDiscard (hmust : p.mustDiscard = true) (hdue : p.syncedDue = false)
    (hforward : p.forward = true) :
    designatedPortNext p = some (if p.timers.rrWhile == 0 && p.reRoot then .designatedRetired
      else .designatedDiscard) := by
  rw [Port.mustDiscard, Bool.and_eq_true, Bool.not_eq_true'] at hmust
  rw [Port.syncedDue] at hdue
  simp only [designatedPortNext]
  split
  · rfl
  · rw [if_neg (Bool.eq_false_iff.mp hdue), if_neg, if_pos]
    · rw [hmust.1, hmust.2, hforward]
      simp
    · simp [hforward]

/-- A port that has retired is still to discard, where it had to. -/
theorem mustDiscard_retired (hmust : p.mustDiscard = true)
    (hretired : (p.timers.rrWhile == 0 && p.reRoot) = true) :
    (roletrnsEntered t .designatedRetired p).mustDiscard = true := by
  rw [Bool.and_eq_true, beq_iff_eq] at hretired
  simpa [Port.mustDiscard, hretired, roletrnsEntered, roletrnsEnterState, roletrnsTree] using hmust

/-- A restless port hops, and stays restless. -/
theorem Port.Restless.hops (h : p.Restless) (hrole : p.role = p.selectedRole)
    (hforward : p.forward = true) (s : Stpm) :
    ∃ st, roletrnsNext s p = some st ∧ ∀ t, (roletrnsEntered t st p).Restless := by
  have hgroup := h.group
  have hbegin : p.roletrns ≠ .begin := by
    intro hbegin
    rw [hbegin] at hgroup
    cases hgroup
  rw [roletrnsNext, if_neg hbegin, if_neg (by simp [hrole]), roleNext]
  cases hst : p.roletrns with
  | designatedPort =>
    have hstay : (!p.selected || p.updtInfo) = false := by rw [h.selected, h.updtInfo]; rfl
    simp only [hstay]
    refine ⟨_, designatedPortNext_of_mustDiscard h.mustDiscard h.syncedDue hforward, fun t => ?_⟩
    split
    · next hretired =>
      exact ⟨rfl, h.selectedRole, h.selected, h.updtInfo, mustDiscard_retired h.mustDiscard hretired,
        h.syncedDue⟩
    · exact ⟨rfl, h.selectedRole, h.selected, h.updtInfo, h.mustDiscard, h.syncedDue⟩
  | designatedPropose | designatedSynced | designatedRetired | designatedDiscard | designatedLearn
  | designatedForward =>
    exact ⟨.designatedPort, rfl, fun t =>
      ⟨rfl, h.selectedRole, h.selected, h.updtInfo, h.mustDiscard, h.syncedDue⟩⟩
  | _ =>
    rw [hst] at hgroup
    cases hgroup

/-- `STP_change_state` of the role transitions machine of a restless port, round after round. -/
theorem check_restless (hp : s.port? i = some p) (h : (roletrnsEntered s p.roletrns p).Restless) :
    ∃ t st, checkCondition (enterState s (.port i .roletrns)) (.port i .roletrns) = (t, true) ∧
      t.port? i = some { nonStpPrelude (roletrnsEntered s p.roletrns p) with roletrns := st } ∧
      (roletrnsEntered t st (nonStpPrelude (roletrnsEntered s p.roletrns p))).Restless := by
  have hprelude := nonStpPrelude_of_eq h.selectedRole
  obtain ⟨st, hnext, hrestless⟩ := h.prelude.hops (by rw [hprelude, h.selectedRole])
    (by rw [hprelude]) (enterState s (.port i .roletrns))
  obtain ⟨t, hcheck, -, hport⟩ := checkCondition_of_some (port?_enterState hp) hnext
  exact ⟨t, st, hcheck, hport, hrestless t⟩

/-- The port `i` is restless when its role transitions machine has hopped. -/
def RestlessAt (i : Nat) (s : Stpm) : Prop :=
  ∃ p, s.port? i = some p ∧ (roletrnsEntered s p.roletrns p).Restless

theorem RestlessAt.step (h : RestlessAt i s) :
    (checkCondition (enterState s (.port i .roletrns)) (.port i .roletrns)).2 = true ∧
      RestlessAt i (checkCondition (enterState s (.port i .roletrns)) (.port i .roletrns)).1 := by
  obtain ⟨p, hp, hrestless⟩ := h
  obtain ⟨t, st, hcheck, hport, hnext⟩ := check_restless hp hrestless
  rw [hcheck]
  exact ⟨rfl, _, hport, hnext⟩

/-- While a restless port has hopped, the update goes round with it. -/
theorem RestlessAt.reaches (h : RestlessAt i s) {c : Stpm × Option MachineRef}
    (hreach : Loop.Reaches updateRound (s, some (.port i .roletrns)) c) :
    c.2 = some (.port i .roletrns) ∧ RestlessAt i c.1 := by
  refine hreach.invariant (fun c => c.2 = some (.port i .roletrns) ∧ RestlessAt i c.1) ?_ ⟨rfl, h⟩
  rintro ⟨u, m⟩ c' ⟨hm, hu⟩ hround
  cases hm
  obtain ⟨hhops, hnext⟩ := hu.step
  simp only [updateRound, Machines.round, hhops, Sum.inl.injEq] at hround
  rw [← hround]
  exact ⟨rfl, hnext⟩

/-- **When the role transitions machine comes to rest.**  Once it has hopped, `STP_change_state` lets it
go on until it is at rest, exactly when its port is not one that was taken out of the protocol while it
was designated and is yet to discard. -/
theorem roletrns_rests_iff (hp : s.port? i = some p) :
    (∃ t, Loop.Reaches updateRound (s, some (.port i .roletrns)) (t, none)) ↔
      ¬(roletrnsEntered s p.roletrns p).Restless := by
  constructor
  · rintro ⟨t, hreach⟩ hrestless
    have hat : RestlessAt i s := ⟨p, hp, hrestless⟩
    cases (hat.reaches hreach).1
  · exact roletrns_rests hp

/-- The role transitions machine of a port comes to rest after the bridge has been created. -/
theorem roletrns_rests_created :
    ∃ t, Loop.Reaches updateRound (onePort, some (.port 1 .roletrns)) (t, none) :=
  (roletrns_rests_iff (s := onePort) (i := 1) rfl).mpr (fun h => absurd h.selectedRole (by decide))

/-- **`STP_stpm_update` does not return** from an event at which it lets the role transitions machine
of a restless port hop. -/
theorem restless_never_steps {e : Event} (hwork : (e.handle s).2 = true)
    (hreach : Loop.Reaches updateRound ((e.handle s).1, none) (t, some (.port i .roletrns)))
    (h : RestlessAt i t) (s' : Stpm) : ¬Step s e s' := by
  intro hstep
  rw [Step, if_pos hwork] at hstep
  obtain ⟨fuel, hrun⟩ := hstep
  obtain ⟨fuel', e', hrun'⟩ := hreach.leaves ⟨fuel, s', hrun⟩
  rw [updateRound, Machines.not_drives_of_hopped (RestlessAt i) (fun u hu => hu.step) h fuel'] at hrun'
  cases hrun'

/-! ### A bridge that hangs -/

theorem restless_iff (p : Port) : p.Restless ↔
    p.roletrns.group = .designated ∧ p.selectedRole = .nonStpPort ∧ p.selected = true ∧
      p.updtInfo = false ∧ p.mustDiscard = true ∧ p.syncedDue = false := by
  constructor
  · intro h
    exact ⟨h.group, h.selectedRole, h.selected, h.updtInfo, h.mustDiscard, h.syncedDue⟩
  · rintro ⟨hgroup, hrole, hselected, hupdt, hmust, hdue⟩
    exact ⟨hgroup, hrole, hselected, hupdt, hmust, hdue⟩

instance (p : Port) : Decidable p.Restless := decidable_of_iff _ (restless_iff p).symm

/-- A second with the link of the first port up. -/
def firstLinkUp : Event := .oneSecond (fun i => i == 1)

/-- A port has been the root port until what it had received was too old, and is designated now; the
other port comes up, and the first is taken out of the protocol. -/
def hangEvents : List Event :=
  startUp ++ [firstLinkUp, .rxBpdu 1 superiorBpdu] ++ List.replicate 7 firstLinkUp ++
    [.rxBpdu 2 superiorBpdu, .setPortCfg [1] ⟨false, none, none, none, none, some true⟩]

/-- The update that begins at `s` lets the role transitions machine of the port `i` go on, which is
restless. -/
def hangsAt (i n : Nat) (s : Stpm) (e : Event) : Bool :=
  (e.handle s).2 && (updateAfter n ((e.handle s).1, none)).any (fun c =>
    c.2 = some (.port i .roletrns) ∧
      (c.1.port? i).any (fun p => (roletrnsEntered c.1 p.roletrns p).Restless))

theorem restless_never_steps_superior :
    ∃ s, Reachable s ∧ ∀ s', ¬Step s (.rxBpdu 2 superiorBpdu) s' := by
  obtain ⟨s, hrun, hhangs⟩ := exists_run_of_run? 100 (twoPorts (localMac 2)) hangEvents
    (fun s => hangsAt 1 60 s (.rxBpdu 2 superiorBpdu)) (by decide +kernel)
  rw [hangsAt, Bool.and_eq_true] at hhangs
  obtain ⟨⟨t, m⟩, hafter, hc⟩ := (Option.any_eq_true _ _).mp hhangs.2
  obtain ⟨hm, hport⟩ := of_decide_eq_true hc
  obtain ⟨p, hp, hrestless⟩ := (Option.any_eq_true _ _).mp hport
  cases hm
  exact ⟨s, hrun.reachable (twoPorts_reachable _), restless_never_steps hhangs.1
    (reaches_of_updateAfter hafter) ⟨p, hp, of_decide_eq_true hrestless⟩⟩

end Opconn.Rstp
