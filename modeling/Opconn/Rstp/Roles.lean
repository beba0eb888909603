import Opconn.Lib.Best
import Opconn.Rstp.BetweenEvents

/-!
# Roles at rest

Role selection gives a port its role by comparing what the port has with what the bridge would say
through it.  A bridge that works and has come to rest agrees with itself: every port whose link is up
is in the role that the vectors of the bridge give it, and at most one port is its root port.
-/

namespace Opconn.Rstp

/-! ### The way to the root -/

/-- What a port offers. -/
def Port.offer (p : Port) : PrioVector × TimeValues := (rootPathPrio p, rootPathTimes p)

/-- The offers of the ports. -/
def Stpm.offers (s : Stpm) : List (PrioVector × TimeValues) :=
  (s.ports.filter Port.offersWay).map Port.offer

/-- A way to the root that is better than another. -/
def betterWay (a b : PrioVector × TimeValues) : Bool := decide (compareVector a.1 b.1 < 0)

/-- The loop of `updtRootPrio` keeps the better of what the bridge has and what its ports offer. -/
theorem updtRootPrio_eq (s : Stpm) :
    updtRootPrio s = Best.best betterWay (ownVector s, s.brTimes) s.offers := by
  have hloop : ∀ (ps : List Port) (b : PrioVector × TimeValues), ps.foldl updtRootPrioPort b =
      Best.best betterWay b ((ps.filter Port.offersWay).map Port.offer) := by
    intro ps
    induction ps with
    | nil => exact fun b => rfl
    | cons p ps ih =>
      intro b
      rw [List.foldl_cons, ih, updtRootPrioPort]
      cases hoffers : p.offersWay with
      | false => simp [hoffers]
      | true =>
        rw [List.filter_cons, if_pos hoffers, List.map_cons, Best.best_cons, Bool.true_and]
        rfl
  exact hloop s.ports _

theorem updtRootPrio_cases (s : Stpm) :
    updtRootPrio s = (ownVector s, s.brTimes) ∨
      ∃ p ∈ s.ports, p.offersWay = true ∧ updtRootPrio s = p.offer := by
  rw [updtRootPrio_eq]
  rcases Best.best_mem betterWay (ownVector s, s.brTimes) s.offers with h | h
  · exact Or.inl h
  · obtain ⟨p, hp, hoffer⟩ := List.mem_map.mp h
    obtain ⟨hmem, hoffers⟩ := List.mem_filter.mp hp
    exact Or.inr ⟨p, hmem, hoffers, hoffer.symm⟩

/-- The root port is the port that offers the way to the root. -/
theorem rootPrio_of_rootPortId {s : Stpm} (hs : s.Distinct) (hok : s.All Port.Ok) {p : Port}
    (hp : p ∈ s.ports) (hid : (withRootPrio s).rootPortId = p.portId) :
    (withRootPrio s).rootPrio = rootPathPrio p ∧ (withRootPrio s).rootTimes = rootPathTimes p := by
  have hown : Names p.portId p.portIndex := (hok p hp).msg.own
  have hpos : 0 < p.portIndex := (hok p hp).msg.pos
  rw [← hid, Names] at hown
  rcases updtRootPrio_cases s with hroot | ⟨q, hq, hoffers, hroot⟩
  · have hzero : (withRootPrio s).rootPortId = 0 := by
      rw [withRootPrio, hroot]
      rfl
    rw [hzero] at hown
    simp at hown
    omega
  · have hkept : Names q.portPrio.bridgePort q.portIndex := by
      refine (hok q hq).msg.kept ?_
      rw [Port.offersWay, Bool.and_eq_true] at hoffers
      simpa using hoffers.2
    have hroots : (withRootPrio s).rootPortId = q.portPrio.bridgePort := by
      rw [withRootPrio, hroot]
      rfl
    rw [Names, ← hroots] at hkept
    have hpq : p = q := eq_of_portIndex hs hp hq (hown.symm.trans hkept)
    subst hpq
    rw [withRootPrio, hroot]
    exact ⟨rfl, rfl⟩

/-! ### What role selection brings about -/

/-- What role selection has written to a port that takes part, by where the information of the port
comes from. -/
inductive Port.Chosen (s : Stpm) (p : Port) : Prop
  | disabled (info : p.infoIs = .disabled) (role : p.selectedRole = .disabledPort)
  | aged (info : p.infoIs = .aged) (role : p.selectedRole = .designatedPort)
    (updt : p.updtInfo = true)
  | mine (info : p.infoIs = .mine) (role : p.selectedRole = .designatedPort)
    (updt : p.updtInfo = true ∨ p.portPrio = p.designPrio ∧ p.portTimes = p.designTimes)
  | root (info : p.infoIs = .received) (role : p.selectedRole = .rootPort) (updt : p.updtInfo = false)
    (id : s.rootPortId = p.portId) (prio : s.rootPrio = rootPathPrio p)
    (times : s.rootTimes = rootPathTimes p)
  | better (info : p.infoIs = .received) (role : p.selectedRole = .designatedPort)
    (updt : p.updtInfo = true) (id : s.rootPortId ≠ p.portId)
    (prio : compareVector p.designPrio p.portPrio < 0)
  | blocked (info : p.infoIs = .received)
    (role : p.selectedRole =
      if p.portPrio.designBridge = s.brId then .backupPort else .alternatePort)
    (updt : p.updtInfo = false) (id : s.rootPortId ≠ p.portId)
    (prio : ¬compareVector p.designPrio p.portPrio < 0)

/-- A port after a role selection. -/
structure Port.Selects (s : Stpm) (p : Port) : Prop where
  nonStp : p.adminNonStp = true → p.selectedRole = .nonStpPort
  chosen : p.adminNonStp = false → p.Chosen s
  design : p.adminNonStp = false → p.designPrio = designVector s p ∧ p.designTimes = s.rootTimes

theorem updtRole_chosen {s : Stpm} {p : Port} (hadmin : p.adminNonStp = false)
    (hroot : s.rootPortId = p.portId → s.rootPrio = rootPathPrio p ∧ s.rootTimes = rootPathTimes p) :
    (updtRole s (updtDesignPrio s p)).Chosen s := by
  have hnot : ¬p.adminNonStp = true := by simp [hadmin]
  have hdesign : updtDesignPrio s p =
      { p with designPrio := designVector s p, designTimes := s.rootTimes } := by
    rw [updtDesignPrio, if_neg hnot]
  rw [hdesign, updtRole, if_neg hnot]
  cases p.infoIs with
  | disabled => exact .disabled rfl rfl
  | aged => exact .aged rfl rfl rfl
  | mine =>
    refine .mine rfl rfl ?_
    by_cases hprio : p.portPrio = designVector s p
    · by_cases htimes : p.portTimes = s.rootTimes
      · exact Or.inr ⟨hprio, htimes⟩
      · have hne : compareTimes p.portTimes s.rootTimes ≠ 0 :=
          mt (compareTimes_eq_zero_iff _ _).mp htimes
        exact Or.inl (by simp [hne])
    · have hne : compareVector p.portPrio (designVector s p) ≠ 0 :=
        mt (compareVector_eq_zero_iff _ _).mp hprio
      exact Or.inl (by simp [hne])
  | received =>
    simp only
    split
    · next hid =>
      obtain ⟨hprio, htimes⟩ := hroot hid
      -- the message age of the port comes back as it was
      have hkept : (if s.rootTimes.messageAge = 0 then p.portTimes
          else { p.portTimes with messageAge := s.rootTimes.messageAge - 1 }) = p.portTimes := by
        split
        · rfl
        · rw [htimes, rootPathTimes]
          simp
      refine .root rfl rfl rfl hid hprio (htimes.trans ?_)
      simp only [rootPathTimes, hkept]
    · next hid =>
      split
      · next hless => exact .better rfl rfl rfl hid hless
      · next hless =>
        have hbridge : compareBridgeId p.portPrio.designBridge s.brId = 0 ↔
            p.portPrio.designBridge = s.brId := compareBridgeId_eq_zero_iff _ _
        split
        · next hback => exact .blocked rfl (if_pos (hbridge.mp hback)).symm rfl hid hless
        · next hback => exact .blocked rfl (if_neg (mt hbridge.mpr hback)).symm rfl hid hless

theorem updtRole_selects {s : Stpm} {p : Port}
    (hroot : s.rootPortId = p.portId → s.rootPrio = rootPathPrio p ∧ s.rootTimes = rootPathTimes p) :
    (updtRole s (updtDesignPrio s p)).Selects s := by
  have hadmin : (updtRole s (updtDesignPrio s p)).adminNonStp = p.adminNonStp := by
    obtain ⟨_, _, _, _, _, _, _, _, hframe⟩ := updtRolesTree_frame s p
    rw [hframe]
  refine ⟨fun hyes => ?_, fun hno => updtRole_chosen (hadmin.symm.trans hno) hroot, fun hno => ?_⟩
  · have hyes' : p.adminNonStp = true := hadmin.symm.trans hyes
    rw [updtDesignPrio, if_pos hyes', updtRole, if_pos hyes']
    rfl
  · have hno' : ¬p.adminNonStp = true := by simp [← hadmin, hno]
    obtain ⟨_, _, _, _, _, _, hframe⟩ := updtRole_frame s (updtDesignPrio s p)
    rw [hframe, updtDesignPrio, if_neg hno']
    exact ⟨rfl, rfl⟩

/-- Whether a port is selected does not matter to what role selection has chosen for it. -/
theorem Port.Selects.congr {s s' : Stpm} {p q : Port} (h : p.Selects s) (hs : s'.brId = s.brId)
    (hid : s'.rootPortId = s.rootPortId) (hroot : s'.rootPrio = s.rootPrio)
    (htimes : s'.rootTimes = s.rootTimes) (hb : q.basis = { p.basis with selected := q.selected }) :
    q.Selects s' := by
  simp only [Port.basis, PortBasis.mk.injEq] at hb
  obtain ⟨-, hportId, hadmin, hinfoIs, hportPrio, hportTimes, hdesignPrio, hdesignTimes, hcost, hrole,
    hupdt, -, -, -, -⟩ := hb
  have hway : rootPathPrio q = rootPathPrio p := by simp only [rootPathPrio, hportPrio, hcost]
  have hwayTimes : rootPathTimes q = rootPathTimes p := by simp only [rootPathTimes, hportTimes]
  refine ⟨fun hyes => hrole.trans (h.nonStp (hadmin.symm.trans hyes)), fun hno => ?_, fun hno => ?_⟩
  · rcases h.chosen (hadmin.symm.trans hno) with ⟨info, role⟩ | ⟨info, role, updt⟩ |
      ⟨info, role, updt⟩ | ⟨info, role, updt, id, prio, times⟩ | ⟨info, role, updt, id, prio⟩ |
      ⟨info, role, updt, id, prio⟩
    · exact .disabled (hinfoIs.trans info) (hrole.trans role)
    · exact .aged (hinfoIs.trans info) (hrole.trans role) (hupdt.trans updt)
    · refine .mine (hinfoIs.trans info) (hrole.trans role) ?_
      rwa [hupdt, hportPrio, hdesignPrio, hportTimes, hdesignTimes]
    · refine .root (hinfoIs.trans info) (hrole.trans role) (hupdt.trans updt) ?_ ?_ ?_
      · rw [hid, hportId, id]
      · rw [hroot, hway, prio]
      · rw [htimes, hwayTimes, times]
    · refine .better (hinfoIs.trans info) (hrole.trans role) (hupdt.trans updt) ?_ ?_
      · rwa [hid, hportId]
      · rwa [hdesignPrio, hportPrio]
    · refine .blocked (hinfoIs.trans info) ?_ (hupdt.trans updt) ?_ ?_
      · rw [hrole, role, hportPrio, hs]
      · rwa [hid, hportId]
      · rwa [hdesignPrio, hportPrio]
  · obtain ⟨hprio, hdtimes⟩ := h.design (hadmin.symm.trans hno)
    rw [hdesignPrio, hdesignTimes, hprio, hdtimes, htimes, designVector, designVector, hroot, hs, hportId]
    exact ⟨rfl, rfl⟩

/-- A port that is given the vector chosen for it. -/
theorem Port.Selects.updated {s : Stpm} {p : Port} (h : p.Selects s) (hinfo : p.infoIs ≠ .disabled)
    (hupdt : p.updtInfo = true) : p.updated.Selects s := by
  refine ⟨h.nonStp, fun hno => ?_, h.design⟩
  rcases h.chosen hno with ⟨info, -⟩ | ⟨-, role, -⟩ | ⟨-, role, -⟩ | ⟨-, -, updt, -⟩ | ⟨-, role, -⟩ |
    ⟨-, -, updt, -⟩
  · exact absurd info hinfo
  · exact .mine rfl role (Or.inr ⟨rfl, rfl⟩)
  · exact .mine rfl role (Or.inr ⟨rfl, rfl⟩)
  · rw [hupdt] at updt
    cases updt
  · exact .mine rfl role (Or.inr ⟨rfl, rfl⟩)
  · rw [hupdt] at updt
    cases updt

theorem selects_selection : Selection Port.Ok (fun s => s.All (Port.Selects s)) where
  basis s s' hb h := by
    intro q hq
    obtain ⟨p, hp, hpq⟩ := exists_of_basis hb hq
    refine (h p hp).congr (congrArg StpmBasis.brId hb) (congrArg StpmBasis.rootPortId hb)
      (congrArg StpmBasis.rootPrio hb) (congrArg StpmBasis.rootTimes hb) ?_
    rw [hpq]
    rfl
  select s hs hok hrolesel := by
    intro q hq
    rw [roleselEnterState_roleSelection hrolesel] at hq ⊢
    obtain ⟨p, hp, rfl⟩ := List.mem_map.mp hq
    obtain ⟨r, hr, rfl⟩ := List.mem_map.mp hp
    have hclear : (clearReselectTree s).Distinct := by
      refine (congrArg List.Nodup (mapPorts_indices ?_)).mpr hs
      intro p
      rfl
    have hall : (clearReselectTree s).All Port.Ok :=
      hok.mapPorts (fun p _ hp => ok_machines.reselect p false hp)
    have hsel := updtRole_selects (s := withRootPrio (clearReselectTree s))
      (fun hid => rootPrio_of_rootPortId hclear hall hr hid)
    exact hsel.congr rfl rfl rfl rfl rfl
  update s p hs hok _ h hp hinfo hupdt := by
    intro q hq
    obtain ⟨r, hr, rfl⟩ := List.mem_map.mp hq
    split
    · next hrp =>
      rw [eq_of_portIndex hs hr hp hrp]
      exact ((h p hp).updated hinfo hupdt).congr rfl rfl rfl rfl rfl
    · exact (h r hr).congr rfl rfl rfl rfl rfl

/-! ### A bridge at rest -/

/-- A port of a bridge at rest: it takes no part in the protocol, its link is down, or it is in the
role that the vectors give it. -/
inductive Port.Placed (s : Stpm) (p : Port) : Prop
  | nonStp (admin : p.adminNonStp = true) (role : p.role = .nonStpPort)
  | down (link : p.portEnabled = false) (info : p.infoIs = .disabled)
    (role : p.selectedRole = .disabledPort)
  | designated (link : p.portEnabled = true) (role : p.role = .designatedPort) (info : p.infoIs = .mine)
    (prio : p.portPrio = designVector s p) (times : p.portTimes = s.rootTimes)
  | root (link : p.portEnabled = true) (role : p.role = .rootPort) (info : p.infoIs = .received)
    (id : s.rootPortId = p.portId) (prio : s.rootPrio = rootPathPrio p)
    (times : s.rootTimes = rootPathTimes p)
  | blocked (link : p.portEnabled = true)
    (role : p.role = if p.portPrio.designBridge = s.brId then .backupPort else .alternatePort)
    (info : p.infoIs = .received) (id : s.rootPortId ≠ p.portId)
    (prio : ¬compareVector (designVector s p) p.portPrio < 0)

/-- A selected port at rest has taken over the vector chosen for it. -/
theorem Port.Rest.updtInfo {p : Port} (h : p.Rest) (hok : p.Ok) (hselected : p.selected = true)
    (hinfo : p.infoIs ≠ .disabled) : p.updtInfo = false := by
  have hnext := h.info
  have hstate := hok.info
  rw [infoNext] at hnext
  split at hnext
  · cases hnext
  · rw [Port.InfoOk] at hstate
    cases hst : p.info with
    | rstpPortDisabled =>
      rw [hst] at hstate
      exact absurd hstate hinfo
    | aged => simpa [hst, hselected] using hnext
    | current =>
      cases hupdt : p.updtInfo with
      | false => rfl
      | true => simp [hst, hselected, hupdt] at hnext
    | _ => simp [hst] at hnext

theorem Port.Selects.placed {s : Stpm} {p : Port} (h : p.Selects s) (hrest : p.Rest) (hok : p.Ok)
    (hlinked : p.Linked) (hselected : p.selected = true) : p.Placed s := by
  cases hadmin : p.adminNonStp with
  | true => exact .nonStp hadmin (hrest.nonStp (h.nonStp hadmin))
  | false =>
    obtain ⟨hdesign, hdtimes⟩ := h.design hadmin
    by_cases hdown : p.infoIs = .disabled
    · have hlink : p.portEnabled = false := by simpa [Port.Linked, hdown] using hlinked
      rcases h.chosen hadmin with ⟨info, role⟩ | ⟨info, -⟩ | ⟨info, -⟩ | ⟨info, -⟩ | ⟨info, -⟩ |
        ⟨info, -⟩
      · exact .down hlink info role
      all_goals
        rw [hdown] at info
        cases info
    · have hlink : p.portEnabled = true := by simpa [Port.Linked, hdown] using hlinked
      have hupdt : p.updtInfo = false := hrest.updtInfo hok hselected hdown
      have hrole : p.role = p.selectedRole := hrest.role hselected hupdt
      rcases h.chosen hadmin with ⟨info, role⟩ | ⟨-, -, updt⟩ | ⟨info, role, updt⟩ |
        ⟨info, role, -, id, prio, times⟩ | ⟨-, -, updt, -⟩ | ⟨info, role, -, id, prio⟩
      · exact absurd info hdown
      · rw [hupdt] at updt
        cases updt
      · obtain ⟨hprio, htimes⟩ := updt.resolve_left (by simp [hupdt])
        exact .designated hlink (hrole.trans role) info (hprio.trans hdesign) (htimes.trans hdtimes)
      · exact .root hlink (hrole.trans role) info id prio times
      · rw [hupdt] at updt
        cases updt
      · exact .blocked hlink (hrole.trans role) info id (hdesign ▸ prio)

/-- A port whose link is up is in the role selected for it. -/
theorem Rests.role_eq {s : Stpm} (h : Rests s) {p : Port} (hp : p ∈ s.ports)
    (hlink : p.portEnabled = true) : p.role = p.selectedRole := by
  have hselected : p.selected = true :=
    (selects_selection.rests ok_machines ok_events (fun _ hok => hok) portCreate_ok h
      (List.ne_nil_of_mem hp)).1 p hp
  have hlinked := h.linked p hp
  have hinfo : p.infoIs ≠ .disabled := by simpa [Port.Linked, hlink] using hlinked
  have hrest := h.settled.ports p hp
  exact hrest.role hselected (hrest.updtInfo (h.reachable.ok p hp) hselected hinfo)

theorem Rests.placed {s : Stpm} (h : Rests s) {p : Port} (hp : p ∈ s.ports) : p.Placed s := by
  obtain ⟨hselected, hselects⟩ := selects_selection.rests ok_machines ok_events (fun _ hok => hok)
    portCreate_ok h (List.ne_nil_of_mem hp)
  exact (hselects p hp).placed (h.settled.ports p hp) (h.reachable.ok p hp) (h.linked p hp)
    (hselected p hp)

theorem Port.Placed.of_root {s : Stpm} {p : Port} (h : p.Placed s) (hlink : p.portEnabled = true)
    (hrole : p.role = .rootPort) :
    p.infoIs = .received ∧ s.rootPortId = p.portId ∧ s.rootPrio = rootPathPrio p ∧
      s.rootTimes = rootPathTimes p := by
  rcases h with ⟨-, role⟩ | ⟨link, -⟩ | ⟨-, role, -⟩ | ⟨-, -, info, id, prio, times⟩ | ⟨-, role, -⟩
  · rw [hrole] at role
    cases role
  · rw [hlink] at link
    cases link
  · rw [hrole] at role
    cases role
  · exact ⟨info, id, prio, times⟩
  · rw [hrole] at role
    split at role <;> cases role

theorem Rests.root_unique {s : Stpm} (h : Rests s) {p q : Port} (hp : p ∈ s.ports) (hq : q ∈ s.ports)
    (hpl : p.portEnabled = true) (hql : q.portEnabled = true) (hpr : p.role = .rootPort)
    (hqr : q.role = .rootPort) : p = q := by
  have hpid := ((h.placed hp).of_root hpl hpr).2.1
  have hqid := ((h.placed hq).of_root hql hqr).2.1
  have hpown : Names p.portId p.portIndex := (h.reachable.ok p hp).msg.own
  have hqown : Names q.portId q.portIndex := (h.reachable.ok q hq).msg.own
  rw [← hpid, Names] at hpown
  rw [← hqid, Names] at hqown
  exact eq_of_portIndex h.reachable.distinct hp hq (hpown.symm.trans hqown)

end Opconn.Rstp
