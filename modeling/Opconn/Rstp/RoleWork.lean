import Opconn.Rstp.PortStates

/-!
# What the role transitions machine has yet to do

A rank for the port of a role transitions machine, which every hop of the machine lowers: first the
way to the role selected, then what is left to do in the role.  Only at one kind of port a hop leaves
as much to do as before: at a port that has been taken out of the protocol while it was designated,
and is yet to discard.  Every check lets it learn and forward, every hop has it discard.
-/

namespace Opconn.Rstp

/-! ### The ports that do not come to rest -/

/-- A designated port has to discard. -/
def Port.mustDiscard (p : Port) : Bool :=
  !p.operEdge && ((p.sync && !p.synced) || (p.reRoot && p.timers.rrWhile != 0))

/-- A designated port is about to be synced. -/
def Port.syncedDue (p : Port) : Bool :=
  (!p.learning && !p.forwarding && !p.synced) || (p.agreed && !p.synced) ||
    (p.operEdge && !p.synced) || (p.sync && p.synced)

/-- A port taken out of the protocol while it was designated, and yet to discard. -/
structure Port.Restless (p : Port) : Prop where
  group : p.roletrns.group = .designated
  selectedRole : p.selectedRole = .nonStpPort
  selected : p.selected = true
  updtInfo : p.updtInfo = false
  mustDiscard : p.mustDiscard = true
  syncedDue : p.syncedDue = false

/-- A port whose role transitions machine has hopped to `st`, in its new state. -/
def roletrnsEntered (s : Stpm) (st : RoletrnsState) (p : Port) : Port :=
  roletrnsEnterState s st (roletrnsTree st { p with roletrns := st })

/-! ### What is left to do -/

/-- What is left before the port has taken over the role selected for it. -/
def Port.turnRank (p : Port) : Nat :=
  match p.roletrns.group with
  | .start => if p.roletrns = .begin then 4 else 3
  | group =>
    if (roleState p.selectedRole).map RoletrnsState.group = some group then
      (p.role != p.selectedRole).toNat
    else 2

/-- The states that the machine does not stay in. -/
def RoletrnsState.isPassing (st : RoletrnsState) : Bool :=
  match st with
  | .rootProposed | .rootAgreed | .reroot | .rootForward | .rootLearn | .rerooted
  | .designatedPropose | .designatedSynced | .designatedRetired | .designatedDiscard
  | .designatedLearn | .designatedForward | .alternateProposed | .alternateAgreed | .backupPort
  | .disablePort | .blockPort => true
  | .begin | .initPort | .disabledPort | .rootPort | .designatedPort | .alternatePort => false

/-- How far a port is from forwarding. -/
def stageRank (learn forward : Bool) : Nat := if learn then if forward then 0 else 1 else 2

/-- A root port that does not forward has the others retire, and retires when it forwards. -/
def retireRank (forward reRoot : Bool) : Nat :=
  if forward then reRoot.toNat else if reRoot then 1 else 2

/-- A port outside the tree is not as its state wants it. -/
def Port.outsideDue (delay : Nat) (p : Port) : Bool :=
  p.timers.fdWhile != delay || p.sync || p.reRoot || !p.synced

/-- What a root port has to do. -/
def Port.rootRank (times : TimeValues) (p : Port) : Nat :=
  stageRank p.learn p.forward + retireRank p.forward p.reRoot + p.proposed.toNat +
    (!p.agree).toNat + (p.timers.rrWhile != times.forwardDelay.toNat).toNat

/-- A designated port discards first, where it must, and then comes to forward. -/
def wayRank (mustDiscard learn forward : Bool) : Nat :=
  if mustDiscard then if learn || forward then 4 else 3 else stageRank learn forward

/-- What a designated port has to do. -/
def Port.designatedRank (p : Port) : Nat :=
  wayRank p.mustDiscard p.learn p.forward + 5 * p.disputed.toNat + 2 * (!p.synced).toNat +
    p.sync.toNat + p.reRoot.toNat + (!p.proposing).toNat

/-- What an alternate or a backup port has to do. -/
def Port.alternateRank (times : TimeValues) (p : Port) : Nat :=
  2 * (p.proposed.toNat + (!p.agree).toNat) +
    2 * (p.timers.rbWhile != 2 * times.helloTime.toNat && p.role == .backupPort).toNat +
    (p.outsideDue times.forwardDelay.toNat).toNat

/-- What a port has to do in its role. -/
def Port.groupRank (times : TimeValues) (p : Port) : Nat :=
  match p.roletrns.group with
  | .start => 0
  | .disabled => (p.outsideDue times.maxAge.toNat).toNat
  | .root => p.rootRank times
  | .designated => p.designatedRank
  | .alternate => p.alternateRank times

/-- What a port has to do in its role, the hop out of a state counted. -/
def Port.workRank (times : TimeValues) (p : Port) : Nat :=
  2 * p.groupRank times + p.roletrns.isPassing.toNat

/-- What the role transitions machine of a port has to do, as the next check finds it.  What is left
in a role is less than 32, so that taking over a role counts for more. -/
def Port.roleRank (times : TimeValues) (p : Port) : Nat :=
  32 * (nonStpPrelude p).turnRank + (nonStpPrelude p).workRank times

theorem stageRank_le (learn forward : Bool) : stageRank learn forward ≤ 2 := by
  cases learn <;> cases forward <;> decide

theorem retireRank_le (forward reRoot : Bool) : retireRank forward reRoot ≤ 2 := by
  cases forward <;> cases reRoot <;> decide

theorem rootRank_le (times : TimeValues) (p : Port) : p.rootRank times ≤ 7 := by
  have hstage := stageRank_le p.learn p.forward
  have hretire := retireRank_le p.forward p.reRoot
  have hproposed := Bool.toNat_le p.proposed
  have hagree := Bool.toNat_le (!p.agree)
  have hwhile := Bool.toNat_le (p.timers.rrWhile != times.forwardDelay.toNat)
  rw [Port.rootRank]
  omega

theorem wayRank_le (mustDiscard learn forward : Bool) : wayRank mustDiscard learn forward ≤ 4 := by
  cases mustDiscard <;> cases learn <;> cases forward <;> decide

theorem designatedRank_le (p : Port) : p.designatedRank ≤ 14 := by
  have hway := wayRank_le p.mustDiscard p.learn p.forward
  have hdisputed := Bool.toNat_le p.disputed
  have hsynced := Bool.toNat_le (!p.synced)
  have hsync := Bool.toNat_le p.sync
  have hreroot := Bool.toNat_le p.reRoot
  have hproposing := Bool.toNat_le (!p.proposing)
  rw [Port.designatedRank]
  omega

theorem alternateRank_le (times : TimeValues) (p : Port) : p.alternateRank times ≤ 7 := by
  have hproposed := Bool.toNat_le p.proposed
  have hagree := Bool.toNat_le (!p.agree)
  have hback := Bool.toNat_le (p.timers.rbWhile != 2 * times.helloTime.toNat && p.role == .backupPort)
  have hdue := Bool.toNat_le (p.outsideDue times.forwardDelay.toNat)
  rw [Port.alternateRank]
  omega

theorem workRank_lt (times : TimeValues) (p : Port) : p.workRank times < 32 := by
  have hpassing := Bool.toNat_le p.roletrns.isPassing
  have hgroup : p.groupRank times ≤ 14 := by
    rw [Port.groupRank]
    split
    · omega
    · exact (Bool.toNat_le _).trans (by omega)
    · exact (rootRank_le times p).trans (by omega)
    · exact designatedRank_le p
    · exact (alternateRank_le times p).trans (by omega)
  rw [Port.workRank]
  omega

/-! ### What a hop leaves to do -/

variable {s t : Stpm} {p q : Port} {st : RoletrnsState}

/-- A port that agrees has a proposal less to answer or an agreement less to give. -/
theorem agreed_falls {allSynced proposed agree : Bool}
    (h : ((allSynced && !agree) || (proposed && agree)) = true) :
    0 < proposed.toNat + (!agree).toNat := by
  revert h
  cases allSynced <;> cases proposed <;> cases agree <;> decide

/-- A port that is synced was not, or was asked to be. -/
theorem synced_falls (h : p.syncedDue = true) : 0 < 2 * (!p.synced).toNat + p.sync.toNat := by
  rw [Port.syncedDue] at h
  cases hsynced : p.synced with
  | false =>
    have hone : (!false).toNat = 1 := rfl
    omega
  | true =>
    have hsync : p.sync = true := by simpa [hsynced] using h
    simp [hsync]

theorem rootPort_lowers (ht : t.rootTimes = s.rootTimes) (h : rootPortNext s p = some st) :
    (roletrnsEntered t st p).rootRank s.rootTimes < p.rootRank s.rootTimes := by
  simp only [rootPortNext] at h
  split at h
  · next hdue =>
    cases h
    simp [Port.rootRank, roletrnsEntered, roletrnsEnterState, roletrnsTree, ht, hdue]
  · split at h
    · next hrerooted =>
      cases h
      rw [Bool.and_eq_true] at hrerooted
      simp [Port.rootRank, roletrnsEntered, roletrnsEnterState, roletrnsTree, hrerooted, retireRank]
    · split at h
      · next hlearn =>
        cases h
        rw [Bool.and_eq_true, Bool.not_eq_true'] at hlearn
        have hstage : stageRank true p.forward < stageRank p.learn p.forward := by
          rw [hlearn.2]
          cases p.forward <;> decide
        simp only [Port.rootRank, roletrnsEntered, roletrnsEnterState, roletrnsTree]
        omega
      · split at h
        · next hforward =>
          cases h
          simp only [Bool.and_eq_true, Bool.not_eq_true'] at hforward
          have hstage : stageRank p.learn true < stageRank p.learn p.forward := by
            rw [hforward.1.2, hforward.2]
            decide
          have hretire : retireRank true p.reRoot ≤ retireRank p.forward p.reRoot := by
            rw [hforward.2]
            cases p.reRoot <;> decide
          simp only [Port.rootRank, roletrnsEntered, roletrnsEnterState, roletrnsTree]
          omega
        · split at h
          · next hreroot =>
            cases h
            simp only [Bool.and_eq_true, Bool.not_eq_true'] at hreroot
            simp [Port.rootRank, roletrnsEntered, roletrnsEnterState, roletrnsTree, hreroot, retireRank]
          · split at h
            · next hagreed =>
              cases h
              have hfalls := agreed_falls hagreed
              simp only [Port.rootRank, roletrnsEntered, roletrnsEnterState, roletrnsTree,
                Bool.toNat_false, Bool.not_true]
              omega
            · rw [Option.ite_none_right_eq_some] at h
              obtain ⟨hproposed, hsame⟩ := h
              cases hsame
              rw [Bool.and_eq_true] at hproposed
              simp [Port.rootRank, roletrnsEntered, roletrnsEnterState, roletrnsTree, hproposed]

theorem alternatePort_lowers (ht : t.rootTimes = s.rootTimes) (h : alternatePortNext s p = some st) :
    (roletrnsEntered t st p).alternateRank s.rootTimes < p.alternateRank s.rootTimes := by
  simp only [alternatePortNext] at h
  split at h
  · next hagreed =>
    cases h
    have hfalls := agreed_falls hagreed
    simp only [Port.alternateRank, Port.outsideDue, roletrnsEntered, roletrnsEnterState, roletrnsTree,
      Bool.toNat_false, Bool.not_true]
    omega
  · split at h
    · next hproposed =>
      cases h
      rw [Bool.and_eq_true] at hproposed
      have hdue := Bool.toNat_le ((roletrnsEntered t .alternateProposed p).outsideDue
        s.rootTimes.forwardDelay.toNat)
      have hone : p.proposed.toNat = 1 := congrArg Bool.toNat hproposed.1
      rw [Port.alternateRank, Port.alternateRank]
      simp only [roletrnsEntered, roletrnsEnterState, roletrnsTree, Bool.toNat_false] at hdue ⊢
      omega
    · split at h
      · next hdue =>
        cases h
        simp only [Port.alternateRank, Port.outsideDue, roletrnsEntered, roletrnsEnterState,
          roletrnsTree, ht, hdue]
        simp
      · rw [Option.ite_none_right_eq_some] at h
        obtain ⟨hback, hsame⟩ := h
        cases hsame
        have hone : (p.timers.rbWhile != 2 * s.rootTimes.helloTime.toNat &&
            p.role == .backupPort).toNat = 1 := congrArg Bool.toNat hback
        simp only [Port.alternateRank, Port.outsideDue, roletrnsEntered, roletrnsEnterState,
          roletrnsTree, ht, hone]
        simp

theorem wayRank_false_le (mustDiscard learn forward : Bool) :
    wayRank false learn forward ≤ wayRank mustDiscard learn forward := by
  cases mustDiscard <;> cases learn <;> cases forward <;> decide

theorem wayRank_discard {mustDiscard learn forward disputed : Bool}
    (h : (mustDiscard || disputed) = true) (hlearn : (learn || forward) = true) :
    wayRank mustDiscard false false < wayRank mustDiscard learn forward + 5 * disputed.toNat := by
  revert h hlearn
  cases mustDiscard <;> cases learn <;> cases forward <;> cases disputed <;> decide

/-- A designated port that may learn or forward does not have to discard. -/
theorem mustDiscard_of_free (hreroot : (p.timers.rrWhile == 0 || !p.reRoot) = true)
    (hsync : p.sync = false) : p.mustDiscard = false := by
  have hwhile : (p.reRoot && p.timers.rrWhile != 0) = false := by
    cases hre : p.reRoot with
    | false => rfl
    | true => simpa [hre] using hreroot
  rw [Port.mustDiscard, hsync, hwhile]
  simp

theorem designatedPort_lowers (h : designatedPortNext p = some st) :
    (roletrnsEntered t st p).designatedRank < p.designatedRank := by
  simp only [designatedPortNext] at h
  split at h
  · next hretired =>
    cases h
    simp only [Bool.and_eq_true, beq_iff_eq] at hretired
    simp [Port.designatedRank, Port.mustDiscard, roletrnsEntered, roletrnsEnterState, roletrnsTree,
      hretired]
  · split at h
    · next hsynced =>
      cases h
      have hfalls := synced_falls hsynced
      have hdiscard : (roletrnsEntered t .designatedSynced p).mustDiscard = false := by
        simp [Port.mustDiscard, roletrnsEntered, roletrnsEnterState, roletrnsTree]
      have hway := wayRank_false_le p.mustDiscard p.learn p.forward
      rw [Port.designatedRank, Port.designatedRank, hdiscard]
      simp only [roletrnsEntered, roletrnsEnterState, roletrnsTree, Bool.not_true, Bool.toNat_false]
      omega
    · split at h
      · next hpropose =>
        cases h
        simp only [Bool.and_eq_true, Bool.not_eq_true'] at hpropose
        simp [Port.designatedRank, Port.mustDiscard, roletrnsEntered, roletrnsEnterState,
          roletrnsTree, hpropose]
      · split at h
        · next hdiscard =>
          cases h
          simp only [Bool.and_eq_true, Bool.not_eq_true'] at hdiscard
          have hmust : (p.mustDiscard || p.disputed) = true := by
            rw [← hdiscard.1.1, Port.mustDiscard, hdiscard.1.2]
            rfl
          have hway := wayRank_discard hmust hdiscard.2
          have hsame : (roletrnsEntered t .designatedDiscard p).mustDiscard = p.mustDiscard := rfl
          rw [Port.designatedRank, Port.designatedRank, hsame]
          simp only [roletrnsEntered, roletrnsEnterState, roletrnsTree, Bool.toNat_false]
          omega
        · split at h
          · next hlearn =>
            cases h
            simp only [Bool.and_eq_true, Bool.not_eq_true'] at hlearn
            have hmust := mustDiscard_of_free hlearn.1.1.2 hlearn.1.2
            have hsame : (roletrnsEntered t .designatedLearn p).mustDiscard = p.mustDiscard := rfl
            have hway : wayRank false true p.forward < wayRank false p.learn p.forward := by
              rw [hlearn.2]
              cases p.forward <;> decide
            rw [Port.designatedRank, Port.designatedRank, hsame, hmust]
            simp only [roletrnsEntered, roletrnsEnterState, roletrnsTree]
            omega
          · rw [Option.ite_none_right_eq_some] at h
            obtain ⟨hforward, hst⟩ := h
            cases hst
            simp only [Bool.and_eq_true, Bool.not_eq_true'] at hforward
            have hmust := mustDiscard_of_free hforward.1.1.1.2 hforward.1.1.2
            have hsame : (roletrnsEntered t .designatedForward p).mustDiscard = p.mustDiscard := rfl
            have hway : wayRank false p.learn true < wayRank false p.learn p.forward := by
              rw [hforward.1.2, hforward.2]
              decide
            rw [Port.designatedRank, Port.designatedRank, hsame, hmust]
            simp only [roletrnsEntered, roletrnsEnterState, roletrnsTree]
            omega

/-! ### The port in its new state -/

@[simp] theorem roletrnsEntered_roletrns (t : Stpm) (st : RoletrnsState) (p : Port) :
    (roletrnsEntered t st p).roletrns = st := by
  cases st <;> rfl

@[simp] theorem roletrnsEntered_selectedRole (t : Stpm) (st : RoletrnsState) (p : Port) :
    (roletrnsEntered t st p).selectedRole = p.selectedRole := by
  cases st <;> rfl

/-- In the state in which a port takes over the role selected for it, it has that role. -/
theorem roleState_enters (h : roleState p.selectedRole = some st) :
    st.group ≠ .start ∧ (roletrnsEntered t st p).role = p.selectedRole := by
  cases hsel : p.selectedRole with
  | nonStpPort =>
    rw [hsel] at h
    cases h
  | rootPort | designatedPort =>
    rw [hsel] at h
    cases h
    exact ⟨by decide, rfl⟩
  | disabledPort | alternatePort | backupPort =>
    rw [hsel] at h
    cases h
    exact ⟨by decide, hsel⟩

theorem RoletrnsState.group_eq_start_iff (st : RoletrnsState) :
    st.group = .start ↔ st = .begin ∨ st = .initPort := by
  cases st <;> decide

theorem turnRank_of_ne {p : Port} (h : p.roletrns.group ≠ .start) :
    p.turnRank = if (roleState p.selectedRole).map RoletrnsState.group = some p.roletrns.group then
      (p.role != p.selectedRole).toNat else 2 := by
  rw [Port.turnRank]
  split
  · next hgroup => exact absurd hgroup h
  · rfl

theorem turnRank_le {p : Port} (h : p.roletrns.group ≠ .start) : p.turnRank ≤ 2 := by
  rw [turnRank_of_ne h]
  split
  · exact (Bool.toNat_le _).trans (by omega)
  · exact le_refl 2

/-- A port takes over the role selected for it. -/
theorem turnRank_takeOver (hbegin : p.roletrns ≠ .begin) (hrole : p.role ≠ p.selectedRole)
    (h : roleState p.selectedRole = some st) :
    (roletrnsEntered t st p).turnRank < p.turnRank := by
  obtain ⟨hgroup, htaken⟩ := roleState_enters (t := t) h
  have hzero : (roletrnsEntered t st p).turnRank = 0 := by
    rw [turnRank_of_ne (by simpa using hgroup)]
    simp [h, htaken]
  have hpos : 0 < p.turnRank := by
    by_cases hstart : p.roletrns.group = .start
    · simp [Port.turnRank, hstart, hbegin]
    · rw [turnRank_of_ne hstart]
      split
      · rw [bne_iff_ne.mpr hrole]
        exact Nat.one_pos
      · exact Nat.two_pos
  omega

/-- Among the states of a role, the role stays or becomes the one selected. -/
theorem roletrnsEntered_role (hstart : st.group ≠ .start)
    (hrole : (roleState p.selectedRole).map RoletrnsState.group = some st.group) :
    (roletrnsEntered t st p).role = p.role ∨
      (roletrnsEntered t st p).role = p.selectedRole := by
  cases st with
  | begin | initPort => exact absurd rfl hstart
  | disablePort | blockPort => exact Or.inr rfl
  | rootPort | designatedPort =>
    refine Or.inr ?_
    cases hsel : p.selectedRole <;> rw [hsel] at hrole <;> first | rfl | cases hrole
  | _ => exact Or.inl rfl

/-- A port that stays among the states of a role is no further from the role selected for it. -/
theorem turnRank_stay (hgroup : st.group = p.roletrns.group) (hstart : p.roletrns.group ≠ .start) :
    (roletrnsEntered t st p).turnRank ≤ p.turnRank := by
  have hst : st.group ≠ .start := fun h => hstart (hgroup ▸ h)
  rw [turnRank_of_ne (by simpa using hst), turnRank_of_ne hstart]
  simp only [roletrnsEntered_roletrns, roletrnsEntered_selectedRole, hgroup]
  split
  · next hrole =>
    rcases roletrnsEntered_role (t := t) hst (hgroup ▸ hrole) with hkept | hkept
    · rw [hkept]
    · rw [hkept]
      simp
  · exact le_refl 2

theorem rootRank_rootPort_le (ht : t.rootTimes = s.rootTimes) :
    (roletrnsEntered t .rootPort p).rootRank s.rootTimes ≤
      p.rootRank s.rootTimes := by
  simp [Port.rootRank, roletrnsEntered, roletrnsEnterState, roletrnsTree, ht]

theorem alternateRank_alternatePort_le (ht : t.rootTimes = s.rootTimes) :
    (roletrnsEntered t .alternatePort p).alternateRank s.rootTimes ≤
      p.alternateRank s.rootTimes := by
  simp [Port.alternateRank, Port.outsideDue, roletrnsEntered, roletrnsEnterState, roletrnsTree, ht]

theorem outsideDue_disabledPort (ht : t.rootTimes = s.rootTimes) :
    (roletrnsEntered t .disabledPort p).outsideDue
      s.rootTimes.maxAge.toNat = false := by
  simp [Port.outsideDue, roletrnsEntered, roletrnsEnterState, roletrnsTree, ht]

/-- A port in its role has less to do after a hop. -/
theorem workRank_lowers (hgroup : st.group = p.roletrns.group) (hstart : p.roletrns.group ≠ .start)
    (h : roleNext s p = some st) (ht : t.rootTimes = s.rootTimes) :
    (roletrnsEntered t st p).workRank s.rootTimes < p.workRank s.rootTimes := by
  have hpassing := Bool.toNat_le st.isPassing
  rw [Port.workRank, Port.workRank, Port.groupRank, Port.groupRank, roletrnsEntered_roletrns]
  simp only [hgroup]
  rw [roleNext] at h
  cases hst : p.roletrns with
  | begin | initPort =>
    rw [hst] at hstart
    exact absurd rfl hstart
  | rootPort =>
    simp only [hst, Option.ite_none_left_eq_some] at h
    have hlowers := rootPort_lowers ht h.2
    simp only [RoletrnsState.group]
    omega
  | designatedPort =>
    simp only [hst, Option.ite_none_left_eq_some] at h
    have hlowers := designatedPort_lowers (t := t) h.2
    simp only [RoletrnsState.group]
    omega
  | alternatePort =>
    simp only [hst, Option.ite_none_left_eq_some] at h
    have hlowers := alternatePort_lowers ht h.2
    simp only [RoletrnsState.group]
    omega
  | rootProposed | rootAgreed | reroot | rootForward | rootLearn | rerooted =>
    simp only [hst, Option.some.injEq] at h
    subst h
    have hle := rootRank_rootPort_le (p := p) ht
    simp only [RoletrnsState.group, RoletrnsState.isPassing, Bool.toNat_true, Bool.toNat_false]
    omega
  | designatedPropose | designatedSynced | designatedRetired | designatedDiscard | designatedLearn
  | designatedForward =>
    simp only [hst, Option.some.injEq] at h
    subst h
    have hsame : (roletrnsEntered t .designatedPort p).designatedRank =
        p.designatedRank := rfl
    simp only [RoletrnsState.group, RoletrnsState.isPassing, Bool.toNat_true, Bool.toNat_false, hsame]
    omega
  | alternateProposed | alternateAgreed | backupPort =>
    simp only [hst, Option.some.injEq] at h
    subst h
    have hle := alternateRank_alternatePort_le (p := p) ht
    simp only [RoletrnsState.group, RoletrnsState.isPassing, Bool.toNat_true, Bool.toNat_false]
    omega
  | blockPort =>
    simp only [hst, Option.ite_none_left_eq_some, Option.ite_none_right_eq_some,
      Option.some.injEq] at h
    obtain ⟨-, -, rfl⟩ := h
    have hle := alternateRank_alternatePort_le (p := p) ht
    simp only [RoletrnsState.group, RoletrnsState.isPassing, Bool.toNat_true, Bool.toNat_false]
    omega
  | disablePort =>
    simp only [hst, Option.ite_none_left_eq_some, Option.ite_none_right_eq_some,
      Option.some.injEq] at h
    obtain ⟨-, -, rfl⟩ := h
    have hzero := outsideDue_disabledPort (p := p) ht
    simp only [RoletrnsState.group, RoletrnsState.isPassing, Bool.toNat_true, Bool.toNat_false, hzero]
    omega
  | disabledPort =>
    simp only [hst, Option.ite_none_left_eq_some, Option.ite_none_right_eq_some,
      Option.some.injEq] at h
    obtain ⟨-, hdue, rfl⟩ := h
    have hzero := outsideDue_disabledPort (p := p) ht
    have hone : (p.outsideDue s.rootTimes.maxAge.toNat).toNat = 1 := congrArg Bool.toNat hdue
    simp only [RoletrnsState.group, RoletrnsState.isPassing, Bool.toNat_false, hzero, hone]
    omega

/-! ### The port as the check finds it -/

@[simp] theorem nonStpPrelude_roletrns (p : Port) : (nonStpPrelude p).roletrns = p.roletrns := by
  rw [nonStpPrelude]
  split <;> rfl

theorem nonStpPrelude_of_eq {p : Port} (h : p.selectedRole = .nonStpPort) :
    nonStpPrelude p = { p with role := .nonStpPort, learn := true, forward := true } := by
  simp [nonStpPrelude, h]

theorem nonStpPrelude_turnRank (p : Port) : (nonStpPrelude p).turnRank = p.turnRank := by
  by_cases hnon : p.selectedRole = .nonStpPort
  · rw [nonStpPrelude_of_eq hnon]
    simp [Port.turnRank, hnon, roleState]
  · rw [nonStpPrelude_of_ne hnon]

theorem wayRank_true_le {mustDiscard learn forward : Bool}
    (h : mustDiscard = true → (learn || forward) = true) :
    wayRank mustDiscard true true ≤ wayRank mustDiscard learn forward := by
  revert h
  cases mustDiscard <;> cases learn <;> cases forward <;> decide

theorem retireRank_true_le (forward reRoot : Bool) :
    retireRank true reRoot ≤ retireRank forward reRoot := by
  cases forward <;> cases reRoot <;> decide

/-- What the check does at its start leaves no more to do, but to a designated port that has discarded
and is to discard. -/
theorem nonStpPrelude_workRank_le {p : Port} (times : TimeValues)
    (h : p.selectedRole = .nonStpPort → p.roletrns.group = .designated → p.mustDiscard = true →
      (p.learn || p.forward) = true) : (nonStpPrelude p).workRank times ≤ p.workRank times := by
  by_cases hnon : p.selectedRole = .nonStpPort
  · have hgroup : (nonStpPrelude p).groupRank times ≤ p.groupRank times := by
      rw [nonStpPrelude_of_eq hnon, Port.groupRank, Port.groupRank]
      simp only
      cases hst : p.roletrns.group with
      | start => exact le_refl 0
      | disabled => exact le_refl _
      | root =>
        have hretire := retireRank_true_le p.forward p.reRoot
        have hstage : stageRank true true = 0 := rfl
        simp only [Port.rootRank, hstage]
        omega
      | designated =>
        have hway := wayRank_true_le (h hnon hst)
        have hsame : ({ p with role := .nonStpPort, learn := true, forward := true } :
            Port).mustDiscard = p.mustDiscard := rfl
        simp only [Port.designatedRank, hsame]
        omega
      | alternate =>
        have hback : (p.timers.rbWhile != 2 * times.helloTime.toNat &&
            PortRole.nonStpPort == .backupPort).toNat = 0 := by
          rw [Bool.and_comm]
          rfl
        simp only [Port.alternateRank, Port.outsideDue, hback]
        omega
    rw [Port.workRank, Port.workRank, nonStpPrelude_roletrns]
    omega
  · rw [nonStpPrelude_of_ne hnon]

/-! ### A hop -/

theorem Port.Restless.of_prelude (h : (nonStpPrelude p).Restless) : p.Restless := by
  have hnon : p.selectedRole = .nonStpPort := by
    rw [← nonStpPrelude_selectedRole]
    exact h.selectedRole
  rw [nonStpPrelude_of_eq hnon] at h
  exact ⟨h.group, hnon, h.selected, h.updtInfo, h.mustDiscard, h.syncedDue⟩

/-- A hop of a designated port after which it is to discard. -/
theorem designatedPortNext_mustDiscard (h : designatedPortNext p = some st)
    (hmust : (roletrnsEntered t st p).mustDiscard = true) :
    p.mustDiscard = true ∧ (p.syncedDue = false ∨ st = .designatedRetired) ∧
      (st = .designatedDiscard ∨ (roletrnsEntered t st p).learn = p.learn) := by
  simp only [designatedPortNext] at h
  split at h
  · cases h
    refine ⟨?_, Or.inr rfl, Or.inr rfl⟩
    simp only [Port.mustDiscard, roletrnsEntered, roletrnsEnterState, roletrnsTree, Bool.false_and,
      Bool.or_false, Bool.and_eq_true] at hmust
    simp [Port.mustDiscard, hmust]
  · split at h
    · cases h
      simp [Port.mustDiscard, roletrnsEntered, roletrnsEnterState, roletrnsTree] at hmust
    · next hsynced =>
      have hdue : p.syncedDue = false := Bool.eq_false_iff.mpr hsynced
      split at h
      · cases h
        exact ⟨hmust, Or.inl hdue, Or.inr rfl⟩
      · split at h
        · cases h
          exact ⟨hmust, Or.inl hdue, Or.inl rfl⟩
        · split at h
          · next hlearn =>
            cases h
            simp only [Bool.and_eq_true, Bool.not_eq_true'] at hlearn
            have hsame : p.mustDiscard = true := hmust
            rw [mustDiscard_of_free hlearn.1.1.2 hlearn.1.2] at hsame
            cases hsame
          · rw [Option.ite_none_right_eq_some] at h
            obtain ⟨-, hst⟩ := h
            cases hst
            exact ⟨hmust, Or.inl hdue, Or.inr rfl⟩

/-- How a port that takes no part in the protocol hops to a state of a designated port. -/
theorem nonStp_hop (h : roletrnsNext s p = some st) (hnon : p.selectedRole = .nonStpPort)
    (hgroup : st.group = .designated) :
    (st = .designatedPort ∧ p.roletrns.group = .designated) ∨
      (p.roletrns = .designatedPort ∧ p.selected = true ∧ p.updtInfo = false ∧
        designatedPortNext p = some st) := by
  rw [roletrnsNext] at h
  split at h
  · cases h
    cases hgroup
  · split at h
    · rw [hnon] at h
      cases h
    · rcases roleNext_group h with hsame | rfl
      · rw [roleNext] at h
        rw [hgroup] at hsame
        cases hst : p.roletrns with
        | designatedPort =>
          simp only [hst, Option.ite_none_left_eq_some, Bool.or_eq_true, Bool.not_eq_true', not_or,
            Bool.not_eq_true, Bool.not_eq_false] at h
          exact Or.inr ⟨rfl, h.1.1, h.1.2, h.2⟩
        | designatedPropose | designatedSynced | designatedRetired | designatedDiscard
        | designatedLearn | designatedForward =>
          simp only [hst, Option.some.injEq] at h
          exact Or.inl ⟨h.symm, rfl⟩
        | _ =>
          rw [hst] at hsame
          cases hsame
      · cases hgroup

/-- A port in its role takes over another only from the start. -/
theorem roleNext_disablePort (h : roleNext s p = some .disablePort) : p.roletrns = .initPort := by
  rw [roleNext] at h
  cases hst : p.roletrns with
  | initPort => rfl
  | rootPort =>
    simp only [hst, Option.ite_none_left_eq_some] at h
    cases rootPortNext_group h.2
  | designatedPort =>
    simp only [hst, Option.ite_none_left_eq_some] at h
    cases designatedPortNext_group h.2
  | alternatePort =>
    simp only [hst, Option.ite_none_left_eq_some] at h
    cases alternatePortNext_group h.2
  | disablePort | disabledPort | blockPort => simp [hst] at h
  | _ => simp [hst] at h

/-- A hop does not make a port restless. -/
theorem restless_of_hop (h : roletrnsNext s p = some st)
    (hrestless : (roletrnsEntered t st p).Restless) : p.Restless := by
  have hnon : p.selectedRole = .nonStpPort := by simpa using hrestless.selectedRole
  have hgroup : st.group = .designated := by simpa using hrestless.group
  rcases nonStp_hop h hnon hgroup with ⟨rfl, hsame⟩ | ⟨hst, hselected, hupdt, hnext⟩
  · exact ⟨hsame, hnon, hrestless.selected, hrestless.updtInfo, hrestless.mustDiscard,
      hrestless.syncedDue⟩
  · obtain ⟨hmust, hdue | rfl, -⟩ := designatedPortNext_mustDiscard hnext hrestless.mustDiscard
    · exact ⟨by rw [hst]; rfl, hnon, hselected, hupdt, hmust, hdue⟩
    · exact ⟨by rw [hst]; rfl, hnon, hselected, hupdt, hmust, hrestless.syncedDue⟩

/-- A port that takes no part in the protocol still learns after a hop, where it is to discard and was
not restless before. -/
theorem learn_of_hop (h : roletrnsNext s p = some st) (hp : ¬p.Restless) (hlearn : p.learn = true)
    (hnon : p.selectedRole = .nonStpPort) (hgroup : st.group = .designated)
    (hmust : (roletrnsEntered t st p).mustDiscard = true) : (roletrnsEntered t st p).learn = true := by
  rcases nonStp_hop h hnon hgroup with ⟨rfl, -⟩ | ⟨hst, hselected, hupdt, hnext⟩
  · exact hlearn
  · obtain ⟨hmust', hdue, rfl | hkept⟩ := designatedPortNext_mustDiscard hnext hmust
    · rcases hdue with hdue | hdue
      · exact absurd ⟨by rw [hst]; rfl, hnon, hselected, hupdt, hmust', hdue⟩ hp
      · cases hdue
    · rw [hkept, hlearn]

/-- **A hop leaves less to do**, but at a restless port. -/
theorem roleRank_lowers (h : roletrnsNext s (nonStpPrelude q) = some st) (hq : ¬q.Restless)
    (ht : t.rootTimes = s.rootTimes) :
    (roletrnsEntered t st (nonStpPrelude q)).roleRank s.rootTimes < q.roleRank s.rootTimes := by
  generalize hp : nonStpPrelude q = p at h
  -- The next check lets a port that takes no part learn and forward again.  That undoes a hop only
  -- where the port has discarded and is still to discard, and then it was restless before.
  have hwork := workRank_lt s.rootTimes (roletrnsEntered t st p)
  have hprelude : (nonStpPrelude (roletrnsEntered t st p)).workRank s.rootTimes ≤
      (roletrnsEntered t st p).workRank s.rootTimes := by
    refine nonStpPrelude_workRank_le _ (fun hnon hgroup hmust => ?_)
    rw [roletrnsEntered_selectedRole] at hnon
    rw [roletrnsEntered_roletrns] at hgroup
    have hrestless : ¬p.Restless := fun hrestless => hq (hp ▸ hrestless).of_prelude
    have hlearn : p.learn = true := by
      rw [← hp, nonStpPrelude_of_eq (by rw [← hp] at hnon; simpa using hnon)]
    rw [learn_of_hop h hrestless hlearn hnon hgroup hmust]
    rfl
  rw [Port.roleRank, Port.roleRank, nonStpPrelude_turnRank, hp]
  rw [roletrnsNext] at h
  split at h
  · next hbegin =>
    cases h
    have hturn : (roletrnsEntered t .initPort p).turnRank = 3 := rfl
    have hfour : p.turnRank = 4 := by simp [Port.turnRank, hbegin, RoletrnsState.group]
    omega
  · next hbegin =>
    split at h
    · next hrole =>
      simp only [Bool.and_eq_true, bne_iff_ne] at hrole
      have hturn := turnRank_takeOver (t := t) hbegin hrole.1.1 h
      omega
    · -- The port stays among the states of its role, but for the way out of the start.
      by_cases hinit : p.roletrns = .initPort
      · rw [roleNext, hinit] at h
        cases h
        have hle : (roletrnsEntered t .disablePort p).turnRank ≤ 2 :=
          turnRank_le (by simp [RoletrnsState.group])
        have hthree : p.turnRank = 3 := by simp [Port.turnRank, hinit, RoletrnsState.group]
        omega
      · have hstart : p.roletrns.group ≠ .start := by
          rw [Ne, RoletrnsState.group_eq_start_iff]
          exact not_or.mpr ⟨hbegin, hinit⟩
        have hgroup : st.group = p.roletrns.group :=
          (roleNext_group h).resolve_right (fun hst => hinit (roleNext_disablePort (hst ▸ h)))
        have hturn := turnRank_stay (t := t) hgroup hstart
        have hlowers := workRank_lowers hgroup hstart h ht
        omega

end Opconn.Rstp
