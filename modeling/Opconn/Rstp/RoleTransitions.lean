import Opconn.Rstp.PortInfo

/-!
# Role transitions

The port role transitions machine brings a port to the role selected for it, and a port in a role by
handshakes and delays to learning and forwarding.
-/

namespace Opconn.Rstp

/-- `compute_all_synced`. -/
def computeAllSynced (s : Stpm) (p : Port) : Bool :=
  s.ports.all (fun q => decide (q.portIndex = p.portIndex) || q.synced)

/-- `compute_re_rooted`. -/
def computeReRooted (s : Stpm) (p : Port) : Bool :=
  s.ports.all (fun q => decide (q.portIndex = p.portIndex) || q.timers.rrWhile == 0)

/-- What the check does to a port that takes no part in the protocol. -/
def nonStpPrelude (p : Port) : Port :=
  if p.selectedRole == .nonStpPort then { p with role := .nonStpPort, learn := true, forward := true }
  else p

/-- The state in which a port takes over the role selected for it. -/
def roleState (role : PortRole) : Option RoletrnsState :=
  match role with
  | .disabledPort => some .disablePort
  | .alternatePort | .backupPort => some .blockPort
  | .rootPort => some .rootPort
  | .designatedPort => some .designatedPort
  | .nonStpPort => none

/-- `STP_roletrns_check_conditions` of a root port. -/
def rootPortNext (s : Stpm) (p : Port) : Option RoletrnsState :=
  let due := p.timers.fdWhile == 0 ||
    (computeReRooted s p && p.timers.rbWhile == 0 && s.rstpVersion)
  if p.timers.rrWhile != s.rootTimes.forwardDelay.toNat then some .rootPort
  else if p.reRoot && p.forward then some .rerooted
  else if due && !p.learn then some .rootLearn
  else if due && p.learn && !p.forward then some .rootForward
  else if !p.forward && !p.reRoot then some .reroot
  else if (computeAllSynced s p && !p.agree) || (p.proposed && p.agree) then some .rootAgreed
  else if p.proposed && !p.agree then some .rootProposed
  else none

/-- `STP_roletrns_check_conditions` of a designated port. -/
def designatedPortNext (p : Port) : Option RoletrnsState :=
  let free := (p.timers.fdWhile == 0 || p.agreed || p.operEdge) &&
    (p.timers.rrWhile == 0 || !p.reRoot) && !p.sync
  if p.timers.rrWhile == 0 && p.reRoot then some .designatedRetired
  else if (!p.learning && !p.forwarding && !p.synced) || (p.agreed && !p.synced) ||
      (p.operEdge && !p.synced) || (p.sync && p.synced) then some .designatedSynced
  else if !p.forward && !p.agreed && !p.proposing && !p.operEdge then some .designatedPropose
  else if ((p.sync && !p.synced) || (p.reRoot && p.timers.rrWhile != 0) || p.disputed) &&
      !p.operEdge && (p.learn || p.forward) then some .designatedDiscard
  else if free && !p.learn then some .designatedLearn
  else if free && p.learn && !p.forward then some .designatedForward
  else none

/-- `STP_roletrns_check_conditions` of an alternate or a backup port. -/
def alternatePortNext (s : Stpm) (p : Port) : Option RoletrnsState :=
  if (computeAllSynced s p && !p.agree) || (p.proposed && p.agree) then some .alternateAgreed
  else if p.proposed && !p.agree then some .alternateProposed
  else if p.timers.fdWhile != s.rootTimes.forwardDelay.toNat || p.sync || p.reRoot || !p.synced then
    some .alternatePort
  else if p.timers.rbWhile != 2 * s.rootTimes.helloTime.toNat && p.role == .backupPort then
    some .backupPort
  else none

/-- `STP_roletrns_check_conditions`, when the port has the role selected for it. -/
def roleNext (s : Stpm) (p : Port) : Option RoletrnsState :=
  match p.roletrns with
  | .begin => some .initPort
  | .initPort => some .disablePort
  | .disablePort =>
    if !p.selected || p.updtInfo then none
    else if !p.learning && !p.forwarding then some .disabledPort
    else none
  | .disabledPort =>
    if !p.selected || p.updtInfo then none
    else if p.timers.fdWhile != s.rootTimes.maxAge.toNat || p.sync || p.reRoot || !p.synced then
      some .disabledPort
    else none
  | .rootPort => if !p.selected || p.updtInfo then none else rootPortNext s p
  | .rootProposed | .rootAgreed | .reroot | .rootForward | .rootLearn | .rerooted => some .rootPort
  | .designatedPort => if !p.selected || p.updtInfo then none else designatedPortNext p
  | .designatedPropose | .designatedSynced | .designatedRetired | .designatedDiscard
  | .designatedLearn | .designatedForward => some .designatedPort
  | .alternatePort => if !p.selected || p.updtInfo then none else alternatePortNext s p
  | .alternateProposed | .alternateAgreed | .backupPort => some .alternatePort
  | .blockPort =>
    if !p.selected || p.updtInfo then none
    else if !p.learning && !p.forwarding then some .alternatePort
    else none

/-- `STP_roletrns_check_conditions`, after the prelude. -/
def roletrnsNext (s : Stpm) (p : Port) : Option RoletrnsState :=
  if p.roletrns = .begin then some .initPort
  else if p.role != p.selectedRole && p.selected && !p.updtInfo then roleState p.selectedRole
  else roleNext s p

/-- How long a port waits before it learns, and before it forwards. -/
def forwardDelayOf (s : Stpm) (p : Port) : Nat :=
  if p.sendRSTP then s.rootTimes.helloTime.toNat else s.rootTimes.forwardDelay.toNat

/-- `EdgeDelay`. -/
def edgeDelay (s : Stpm) (p : Port) : Nat :=
  if p.operPointToPointMac then migrateTime else s.rootTimes.maxAge.toNat

/-- `STP_roletrns_enter_state`; what `setSyncTree` and `setReRootTree` do is in `roletrnsTree`. -/
def roletrnsEnterState (s : Stpm) (st : RoletrnsState) (p : Port) : Port :=
  match st with
  | .begin | .initPort =>
    { p with
      role := .disabledPort
      learn := false
      forward := false
      synced := false
      sync := true
      reRoot := true
      timers :=
        { p.timers with
          rrWhile := s.rootTimes.forwardDelay.toNat
          fdWhile := s.rootTimes.maxAge.toNat
          rbWhile := 0 } }
  | .disablePort | .blockPort => { p with role := p.selectedRole, learn := false, forward := false }
  | .disabledPort =>
    { p with
      synced := true
      sync := false
      reRoot := false
      timers := { p.timers with fdWhile := s.rootTimes.maxAge.toNat, rrWhile := 0 } }
  | .rootProposed | .alternateProposed => { p with proposed := false }
  | .rootAgreed =>
    { p with proposed := false, sync := false, agree := true, newInfo := true }
  | .reroot => p
  | .rootPort =>
    { p with
      role := .rootPort
      timers := { p.timers with rrWhile := s.rootTimes.forwardDelay.toNat } }
  | .rootForward => { p with forward := true, timers := { p.timers with fdWhile := 0 } }
  | .rootLearn | .designatedLearn =>
    { p with learn := true, timers := { p.timers with fdWhile := forwardDelayOf s p } }
  | .rerooted | .designatedRetired => { p with reRoot := false }
  | .designatedPropose =>
    { p with
      proposing := true
      newInfo := true
      timers := { p.timers with edgeDelayWhile := edgeDelay s p } }
  | .designatedSynced =>
    { p with synced := true, sync := false, timers := { p.timers with rrWhile := 0 } }
  | .designatedPort => { p with role := .designatedPort }
  | .designatedDiscard =>
    { p with
      learn := false
      forward := false
      disputed := false
      timers := { p.timers with fdWhile := forwardDelayOf s p } }
  | .designatedForward =>
    { p with
      forward := true
      agreed := p.sendRSTP
      timers := { p.timers with fdWhile := 0 } }
  | .alternateAgreed => { p with proposed := false, agree := true, newInfo := true }
  | .alternatePort =>
    { p with
      synced := true
      sync := false
      reRoot := false
      timers :=
        { p.timers with fdWhile := s.rootTimes.forwardDelay.toNat, rrWhile := 0 } }
  | .backupPort =>
    { p with timers := { p.timers with rbWhile := 2 * s.rootTimes.helloTime.toNat } }

/-- `setSyncTree` and `setReRootTree`: what a port that enters `st` does to every port. -/
def roletrnsTree (st : RoletrnsState) (q : Port) : Port :=
  match st with
  | .rootProposed | .alternateProposed => { q with sync := true }
  | .reroot => { q with reRoot := true }
  | _ => q

end Opconn.Rstp
