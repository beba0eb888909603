import Opconn.Rstp.RoleTransitions

/-!
# Role selection

The port role selection machine of the bridge looks for the best way to the root among what its ports
have received, and gives every port its role.
-/

namespace Opconn.Rstp

/-- The vector of the bridge as a root, `STP_VECT_create` of `updtRolesTree`. -/
def ownVector (s : Stpm) : PrioVector := createVector s.brId 0 s.brId 0 0

/-- `rootPathPrio`: the way to the root through a port. -/
def rootPathPrio (p : Port) : PrioVector :=
  { p.portPrio with rootPathCost := p.portPrio.rootPathCost + p.operPCost }

/-- The times that go with the way through a port. -/
def rootPathTimes (p : Port) : TimeValues :=
  { p.portTimes with messageAge := p.portTimes.messageAge + 1 }

/-- The port offers a way to the root. -/
def Port.offersWay (p : Port) : Bool := !p.adminNonStp && p.infoIs == .received

/-- One turn of the loop of `updtRootPrio`. -/
def updtRootPrioPort (best : PrioVector × TimeValues) (p : Port) : PrioVector × TimeValues :=
  if p.offersWay && decide (compareVector (rootPathPrio p) best.1 < 0) then
    (rootPathPrio p, rootPathTimes p)
  else best

/-- `updtRootPrio`, from the vector and the times of the bridge. -/
def updtRootPrio (s : Stpm) : PrioVector × TimeValues :=
  s.ports.foldl updtRootPrioPort (ownVector s, s.brTimes)

/-- The vector that the bridge announces through a port. -/
def designVector (s : Stpm) (p : Port) : PrioVector :=
  createVector s.rootPrio.rootBridge s.rootPrio.rootPathCost s.brId p.portId p.portId

/-- The second loop of `updtRolesTree`. -/
def updtDesignPrio (s : Stpm) (p : Port) : Port :=
  if p.adminNonStp then p else { p with designPrio := designVector s p, designTimes := s.rootTimes }

/-- `setRoleSelected`. -/
def setRoleSelected (newRole : PortRole) (p : Port) : Port :=
  { p with
    selectedRole := newRole
    role := if newRole = .nonStpPort then .nonStpPort else p.role }

/-- The last loop of `updtRolesTree`. -/
def updtRole (s : Stpm) (p : Port) : Port :=
  if p.adminNonStp then { setRoleSelected .nonStpPort p with forward := true, learn := true }
  else
    match p.infoIs with
    | .disabled => setRoleSelected .disabledPort p
    | .aged => { setRoleSelected .designatedPort p with updtInfo := true }
    | .mine =>
      { setRoleSelected .designatedPort p with
        updtInfo := p.updtInfo || compareVector p.portPrio p.designPrio != 0 ||
          compareTimes p.portTimes p.designTimes != 0 }
    | .received =>
      if s.rootPortId = p.portId then
        { setRoleSelected .rootPort p with
          portTimes :=
            if s.rootTimes.messageAge = 0 then p.portTimes
            else { p.portTimes with messageAge := s.rootTimes.messageAge - 1 }
          updtInfo := false }
      else if compareVector p.designPrio p.portPrio < 0 then
        { setRoleSelected .designatedPort p with updtInfo := true }
      else if compareBridgeId p.portPrio.designBridge s.brId = 0 then
        { setRoleSelected .backupPort p with updtInfo := false }
      else { setRoleSelected .alternatePort p with updtInfo := false }

/-- The bridge of `updtRolesTree` after its first loop. -/
def withRootPrio (s : Stpm) : Stpm :=
  { s with
    rootPrio := (updtRootPrio s).1
    rootTimes := (updtRootPrio s).2
    rootPortId := (updtRootPrio s).1.bridgePort }

/-- `updtRolesTree`. -/
def updtRolesTree (s : Stpm) : Stpm :=
  (withRootPrio s).mapPorts (fun p => updtRole (withRootPrio s) (updtDesignPrio (withRootPrio s) p))

/-- `clearReselectTree`. -/
def clearReselectTree (s : Stpm) : Stpm := s.mapPorts (fun p => { p with reselect := false })

/-- `setSelectedTree`. -/
def setSelectedTree (s : Stpm) : Stpm :=
  if s.ports.any (fun p => p.reselect) then s else s.mapPorts (fun p => { p with selected := true })

/-- `updtRoleDisableTree`. -/
def updtRoleDisableTree (s : Stpm) : Stpm :=
  s.mapPorts (fun p => { p with selectedRole := .disabledPort })

/-- `STP_rolesel_enter_state`. -/
def roleselEnterState (s : Stpm) : Stpm :=
  match s.rolesel with
  | .begin | .initBridge => updtRoleDisableTree s
  | .roleSelection => setSelectedTree (updtRolesTree (clearReselectTree s))

/-- `STP_rolesel_check_conditions`.  In `BEGIN` it hops to `INIT_BRIDGE` and on without entering. -/
def roleselNext (s : Stpm) : Option RoleselState :=
  match s.rolesel with
  | .begin | .initBridge => some .roleSelection
  | .roleSelection => if s.ports.any (fun p => p.reselect) then some .roleSelection else none

/-! ### What role selection changes -/

theorem updtRole_frame (s : Stpm) (p : Port) :
    ∃ selectedRole role forward learn updtInfo portTimes, updtRole s p =
      { p with
        selectedRole := selectedRole
        role := role
        forward := forward
        learn := learn
        updtInfo := updtInfo
        portTimes := portTimes } := by
  rw [updtRole]
  split
  · exact ⟨_, _, _, _, _, _, rfl⟩
  · split
    · exact ⟨_, _, _, _, _, _, rfl⟩
    · exact ⟨_, _, _, _, _, _, rfl⟩
    · exact ⟨_, _, _, _, _, _, rfl⟩
    · split
      · exact ⟨_, _, _, _, _, _, rfl⟩
      · split
        · exact ⟨_, _, _, _, _, _, rfl⟩
        · split
          · exact ⟨_, _, _, _, _, _, rfl⟩
          · exact ⟨_, _, _, _, _, _, rfl⟩

theorem updtDesignPrio_frame (s : Stpm) (p : Port) :
    ∃ designPrio designTimes,
      updtDesignPrio s p = { p with designPrio := designPrio, designTimes := designTimes } := by
  rw [updtDesignPrio]
  split
  · exact ⟨p.designPrio, p.designTimes, rfl⟩
  · exact ⟨_, _, rfl⟩

/-- What `updtRolesTree` may change of a port. -/
theorem updtRolesTree_frame (s : Stpm) (p : Port) :
    ∃ designPrio designTimes selectedRole role forward learn updtInfo portTimes,
      updtRole s (updtDesignPrio s p) =
        { p with
          designPrio := designPrio
          designTimes := designTimes
          selectedRole := selectedRole
          role := role
          forward := forward
          learn := learn
          updtInfo := updtInfo
          portTimes := portTimes } := by
  obtain ⟨designPrio, designTimes, hdesign⟩ := updtDesignPrio_frame s p
  obtain ⟨_, _, _, _, _, _, hrole⟩ := updtRole_frame s (updtDesignPrio s p)
  rw [hrole, hdesign]
  exact ⟨designPrio, designTimes, _, _, _, _, _, _, rfl⟩

end Opconn.Rstp
