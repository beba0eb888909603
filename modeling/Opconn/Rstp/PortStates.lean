import Mathlib.Data.List.Chain
import Opconn.Rstp.Settled

/-!
# What the hardware is told

A port learns before it forwards, and forgets both at once.  The machine of the hardware keeps to that
order whatever the other machines ask of it, and when the bridge is at rest a port that is not in the
tree is cut off.
-/

namespace Opconn.Rstp

/-! ### The states in order -/

/-- The state that an action tells the hardware. -/
def PortOut.state? : PortOut → Option RstpPortState
  | .portState st => some st
  | _ => none

/-- The states that the hardware was told, the latest first. -/
def Port.states (p : Port) : List RstpPortState := p.out.filterMap PortOut.state?

/-- A state that may follow another. -/
def Follows (newer older : RstpPortState) : Prop :=
  newer = .discarding ∨ (older = .discarding ∧ newer = .learning) ∨
    (older = .learning ∧ newer = .forwarding)

/-- The flags of a port and what the hardware was told, by the state of the machine. -/
def FlagsOk (st : SttransState) (learning forwarding : Bool) (hardware : RstpPortState) : Prop :=
  match st with
  | .begin =>
    learning = false ∧ forwarding = false ∧ (hardware = .disabled ∨ hardware = .discarding)
  | .discarding => learning = false ∧ forwarding = false ∧ hardware = .discarding
  | .learning => learning = true ∧ forwarding = false ∧ hardware = .learning
  | .forwarding => learning = true ∧ forwarding = true ∧ hardware = .forwarding

/-- The machine of the hardware has kept to the order. -/
structure SttransOk (st : SttransState) (learning forwarding : Bool) (hardware : RstpPortState)
    (states : List RstpPortState) : Prop where
  flags : FlagsOk st learning forwarding hardware
  latest : hardware = states.head?.getD .disabled
  chain : states.IsChain Follows
  first : ∀ st ∈ states.getLast?, st = .discarding

/-- The machine of a port's hardware has kept to the order. -/
def Port.SttransOk (p : Port) : Prop :=
  Rstp.SttransOk p.sttrans p.learning p.forwarding p.hardware p.states

theorem SttransOk.tell {st st' : SttransState} {learning forwarding learning' forwarding' : Bool}
    {hardware hardware' : RstpPortState} {states : List RstpPortState}
    (h : SttransOk st learning forwarding hardware states)
    (hflags : FlagsOk st' learning' forwarding' hardware')
    (hfollows : ∀ older ∈ states.head?, Follows hardware' older)
    (hfirst : states = [] → hardware' = .discarding) :
    SttransOk st' learning' forwarding' hardware' (hardware' :: states) := by
  refine ⟨hflags, rfl, h.chain.cons hfollows, ?_⟩
  intro x hx
  cases states with
  | nil =>
    simp only [List.getLast?_singleton, Option.mem_def, Option.some.injEq] at hx
    rw [← hx, hfirst rfl]
  | cons y ys =>
    rw [List.getLast?_cons_cons] at hx
    exact h.first x hx

theorem SttransOk.discard {st : SttransState} {learning forwarding : Bool}
    {hardware : RstpPortState} {states : List RstpPortState}
    (h : SttransOk st learning forwarding hardware states) {st' : SttransState}
    (hst : st' = .begin ∨ st' = .discarding) :
    SttransOk st' false false .discarding (.discarding :: .discarding :: states) := by
  have hflags : FlagsOk st' false false .discarding := by
    rcases hst with rfl | rfl
    · exact ⟨rfl, rfl, Or.inr rfl⟩
    · exact ⟨rfl, rfl, rfl⟩
  have honce : SttransOk st' false false .discarding (.discarding :: states) :=
    h.tell hflags (fun _ _ => Or.inl rfl) (fun _ => rfl)
  exact honce.tell hflags (fun _ _ => Or.inl rfl) (fun _ => rfl)

theorem SttransOk.states_ne_nil {st : SttransState} {learning forwarding : Bool}
    {hardware : RstpPortState} {states : List RstpPortState}
    (h : SttransOk st learning forwarding hardware states) (hhw : hardware ≠ .disabled) :
    states.head? = some hardware := by
  cases states with
  | nil => exact absurd h.latest hhw
  | cons x xs => rw [h.latest]; rfl

theorem Port.SttransOk.fire {p : Port} {st : SttransState} (h : p.SttransOk)
    (hnext : sttransNext p = some st) : (sttransEnterState st { p with sttrans := st }).SttransOk := by
  have hflags := h.flags
  rw [sttransNext] at hnext
  cases hst : p.sttrans with
  | begin =>
    rw [hst] at hnext
    cases hnext
    exact SttransOk.discard h (Or.inr rfl)
  | discarding =>
    simp only [hst, Option.ite_none_right_eq_some, Option.some.injEq] at hnext
    obtain ⟨-, rfl⟩ := hnext
    rw [hst] at hflags
    obtain ⟨-, hforwarding, hhw⟩ := hflags
    have hhead : p.states.head? = some .discarding :=
      hhw ▸ h.states_ne_nil (by rw [hhw]; decide)
    have htold : Rstp.SttransOk .learning true p.forwarding .learning (.learning :: p.states) := by
      refine h.tell ⟨rfl, hforwarding, rfl⟩ ?_ ?_
      · intro older holder
        rw [hhead, Option.mem_some_iff] at holder
        exact Or.inr (Or.inl ⟨holder.symm, rfl⟩)
      · intro hnil
        rw [hnil] at hhead
        cases hhead
    exact htold
  | learning =>
    simp only [hst] at hnext
    rw [hst] at hflags
    obtain ⟨hlearning, -, hhw⟩ := hflags
    have hhead : p.states.head? = some .learning := hhw ▸ h.states_ne_nil (by rw [hhw]; decide)
    split at hnext
    · cases hnext
      have htold : Rstp.SttransOk .forwarding p.learning true .forwarding (.forwarding :: p.states) := by
        refine h.tell ⟨hlearning, rfl, rfl⟩ ?_ ?_
        · intro older holder
          rw [hhead, Option.mem_some_iff] at holder
          exact Or.inr (Or.inr ⟨holder.symm, rfl⟩)
        · intro hnil
          rw [hnil] at hhead
          cases hhead
      exact htold
    · split at hnext
      · cases hnext
        exact SttransOk.discard h (Or.inr rfl)
      · cases hnext
  | forwarding =>
    simp only [hst, Option.ite_none_right_eq_some, Option.some.injEq] at hnext
    obtain ⟨-, rfl⟩ := hnext
    exact SttransOk.discard h (Or.inr rfl)

theorem SttransOk.create (out : List PortOut) (h : out.filterMap PortOut.state? = []) :
    SttransOk .begin false false .disabled (out.filterMap PortOut.state?) := by
  rw [h]
  exact ⟨⟨rfl, rfl, Or.inl rfl⟩, rfl, List.IsChain.nil, nofun⟩

theorem Port.states_send {p : Port} {o : PortOut} (ho : o.state? = none) :
    (p.send o).filterMap PortOut.state? = p.states := by
  rw [Port.send]
  split
  · rfl
  · rw [List.filterMap_cons, ho]
    rfl

theorem Port.states_flush (p : Port) : p.flush.out.filterMap PortOut.state? = p.states := by
  rw [Port.flush]
  split
  · rfl
  · rfl

/-! ### Ports that are not in the tree -/

/-- The roles whose states follow one another in the role transitions machine. -/
inductive RoleGroup where
  | start
  | disabled
  | root
  | designated
  | alternate
deriving DecidableEq, Repr

def RoletrnsState.group : RoletrnsState → RoleGroup
  | .begin | .initPort => .start
  | .disablePort | .disabledPort => .disabled
  | .rootProposed | .rootAgreed | .reroot | .rootPort | .rootForward | .rootLearn | .rerooted => .root
  | .designatedPropose | .designatedSynced | .designatedRetired | .designatedPort
  | .designatedDiscard | .designatedLearn | .designatedForward => .designated
  | .alternateProposed | .alternateAgreed | .alternatePort | .blockPort | .backupPort => .alternate

theorem rootPortNext_group {s : Stpm} {p : Port} {st : RoletrnsState}
    (h : rootPortNext s p = some st) : st.group = .root := by
  simp only [rootPortNext] at h
  repeat' split at h
  all_goals cases h
  all_goals rfl

theorem designatedPortNext_group {p : Port} {st : RoletrnsState}
    (h : designatedPortNext p = some st) : st.group = .designated := by
  simp only [designatedPortNext] at h
  repeat' split at h
  all_goals cases h
  all_goals rfl

theorem alternatePortNext_group {s : Stpm} {p : Port} {st : RoletrnsState}
    (h : alternatePortNext s p = some st) : st.group = .alternate := by
  simp only [alternatePortNext] at h
  repeat' split at h
  all_goals cases h
  all_goals rfl

/-- A port in its role stays among the states of the role. -/
theorem roleNext_group {s : Stpm} {p : Port} {st : RoletrnsState} (h : roleNext s p = some st) :
    st.group = p.roletrns.group ∨ st = .disablePort := by
  rw [roleNext] at h
  cases hst : p.roletrns with
  | rootPort =>
    simp only [hst, Option.ite_none_left_eq_some] at h
    exact Or.inl (rootPortNext_group h.2)
  | designatedPort =>
    simp only [hst, Option.ite_none_left_eq_some] at h
    exact Or.inl (designatedPortNext_group h.2)
  | alternatePort =>
    simp only [hst, Option.ite_none_left_eq_some] at h
    exact Or.inl (alternatePortNext_group h.2)
  | disablePort | disabledPort | blockPort =>
    simp only [hst, Option.ite_none_left_eq_some, Option.ite_none_right_eq_some,
      Option.some.injEq] at h
    rw [← h.2.2]
    exact Or.inl rfl
  | initPort =>
    rw [hst] at h
    cases h
    exact Or.inr rfl
  | _ =>
    rw [hst] at h
    cases h
    exact Or.inl rfl

/-- Where the role transitions machine hops: to the start, to the state that takes over the role
selected, or on among the states of the role. -/
theorem roletrnsNext_cases {s : Stpm} {p : Port} {st : RoletrnsState}
    (h : roletrnsNext s p = some st) :
    st = .initPort ∨ roleState p.selectedRole = some st ∨ st.group = p.roletrns.group ∨
      st = .disablePort := by
  rw [roletrnsNext] at h
  split at h
  · cases h
    exact Or.inl rfl
  · split at h
    · exact Or.inr (Or.inl h)
    · exact Or.inr (Or.inr (roleNext_group h))

/-- The role of a port and what it asks of the hardware, by the state of its machine. -/
structure RoleOk (st : RoletrnsState) (role : PortRole) (learn forward : Bool) : Prop where
  root : st.group = .root → role = .rootPort ∨ role = .nonStpPort
  designated : st.group = .designated → role = .designatedPort ∨ role = .nonStpPort
  blocked : role = .disabledPort ∨ role = .alternatePort ∨ role = .backupPort →
    learn = false ∧ forward = false

/-- The role of a port goes with the state of its machine. -/
def Port.RoleOk (p : Port) : Prop := Rstp.RoleOk p.roletrns p.role p.learn p.forward

theorem RoleOk.nonStp (st : RoletrnsState) (learn forward : Bool) :
    RoleOk st .nonStpPort learn forward :=
  ⟨fun _ => Or.inr rfl, fun _ => Or.inr rfl, by simp⟩

theorem RoleOk.cut (st : RoletrnsState) (hst : st.group ≠ .root) (hst' : st.group ≠ .designated)
    (role : PortRole) : RoleOk st role false false :=
  ⟨fun h => absurd h hst, fun h => absurd h hst', fun _ => ⟨rfl, rfl⟩⟩

/-- A port that is in the tree, or takes no part in it, may ask for anything. -/
theorem RoleOk.active {st : RoletrnsState} {role : PortRole} {learn forward : Bool}
    (h : RoleOk st role learn forward) (hst : st.group = .root ∨ st.group = .designated)
    (st' : RoletrnsState) (hst' : st'.group = st.group) (learn' forward' : Bool) :
    RoleOk st' role learn' forward' := by
  have hrole : role = .rootPort ∨ role = .designatedPort ∨ role = .nonStpPort := by
    rcases hst with hst | hst
    · exact (h.root hst).imp_right Or.inr
    · exact Or.inr (h.designated hst)
  refine ⟨fun hg => h.root (hst' ▸ hg), fun hg => h.designated (hst' ▸ hg), fun hb => ?_⟩
  rcases hrole with rfl | rfl | rfl <;> simp at hb

theorem RoleOk.outside {st : RoletrnsState} {role : PortRole} {learn forward : Bool}
    (h : RoleOk st role learn forward) (st' : RoletrnsState) (hst : st'.group ≠ .root) (hst' : st'.group ≠ .designated) :
    RoleOk st' role learn forward :=
  ⟨fun hg => absurd hg hst, fun hg => absurd hg hst', h.blocked⟩

theorem Port.RoleOk.fire {s : Stpm} {p : Port} {st : RoletrnsState} (h : p.RoleOk)
    (hnext : roletrnsNext s p = some st) :
    (roletrnsEnterState s st (roletrnsTree st { p with roletrns := st })).RoleOk := by
  have hcases := roletrnsNext_cases hnext
  have hrole : ∀ r, roleState p.selectedRole = some r → r = .disablePort ∨ r = .blockPort ∨
      r = .rootPort ∨ r = .designatedPort := by
    cases p.selectedRole <;> simp [roleState]
  have hgroup : st ∉ [.initPort, .disablePort, .blockPort, .rootPort, .designatedPort] →
      st.group = p.roletrns.group := by
    intro hother
    simp only [List.mem_cons, List.not_mem_nil, or_false, not_or] at hother
    obtain ⟨h1, h2, h3, h4, h5⟩ := hother
    rcases hcases with hst | hst | hst | hst
    · exact absurd hst h1
    · rcases hrole st hst with hst | hst | hst | hst
      · exact absurd hst h2
      · exact absurd hst h3
      · exact absurd hst h4
      · exact absurd hst h5
    · exact hst
    · exact absurd hst h2
  cases st with
  | begin => exact RoleOk.cut .begin (by decide) (by decide) .disabledPort
  | initPort => exact RoleOk.cut .initPort (by decide) (by decide) .disabledPort
  | disablePort => exact RoleOk.cut .disablePort (by decide) (by decide) p.selectedRole
  | blockPort => exact RoleOk.cut .blockPort (by decide) (by decide) p.selectedRole
  | rootPort =>
    have hok : Rstp.RoleOk .rootPort .rootPort p.learn p.forward := ⟨fun _ => Or.inl rfl, by decide, by simp⟩
    exact hok
  | designatedPort =>
    have hok : Rstp.RoleOk .designatedPort .designatedPort p.learn p.forward :=
      ⟨by decide, fun _ => Or.inl rfl, by simp⟩
    exact hok
  | disabledPort => exact RoleOk.outside h .disabledPort (by decide) (by decide)
  | alternateProposed => exact RoleOk.outside h .alternateProposed (by decide) (by decide)
  | alternateAgreed => exact RoleOk.outside h .alternateAgreed (by decide) (by decide)
  | alternatePort => exact RoleOk.outside h .alternatePort (by decide) (by decide)
  | backupPort => exact RoleOk.outside h .backupPort (by decide) (by decide)
  | rootProposed =>
    have hst := hgroup (by decide)
    exact RoleOk.active h (Or.inl hst.symm) .rootProposed hst _ _
  | rootAgreed =>
    have hst := hgroup (by decide)
    exact RoleOk.active h (Or.inl hst.symm) .rootAgreed hst _ _
  | reroot =>
    have hst := hgroup (by decide)
    exact RoleOk.active h (Or.inl hst.symm) .reroot hst _ _
  | rootForward =>
    have hst := hgroup (by decide)
    exact RoleOk.active h (Or.inl hst.symm) .rootForward hst _ _
  | rootLearn =>
    have hst := hgroup (by decide)
    exact RoleOk.active h (Or.inl hst.symm) .rootLearn hst _ _
  | rerooted =>
    have hst := hgroup (by decide)
    exact RoleOk.active h (Or.inl hst.symm) .rerooted hst _ _
  | designatedPropose =>
    have hst := hgroup (by decide)
    exact RoleOk.active h (Or.inr hst.symm) .designatedPropose hst _ _
  | designatedSynced =>
    have hst := hgroup (by decide)
    exact RoleOk.active h (Or.inr hst.symm) .designatedSynced hst _ _
  | designatedRetired =>
    have hst := hgroup (by decide)
    exact RoleOk.active h (Or.inr hst.symm) .designatedRetired hst _ _
  | designatedDiscard =>
    have hst := hgroup (by decide)
    exact RoleOk.active h (Or.inr hst.symm) .designatedDiscard hst _ _
  | designatedLearn =>
    have hst := hgroup (by decide)
    exact RoleOk.active h (Or.inr hst.symm) .designatedLearn hst _ _
  | designatedForward =>
    have hst := hgroup (by decide)
    exact RoleOk.active h (Or.inr hst.symm) .designatedForward hst _ _

theorem Port.RoleOk.updtRole {s : Stpm} {p : Port} (h : p.RoleOk) :
    (updtRole s (updtDesignPrio s p)).RoleOk := by
  obtain ⟨_, _, hdesign⟩ := updtDesignPrio_frame s p
  rw [hdesign, Rstp.updtRole]
  split
  · exact RoleOk.nonStp _ _ _
  · split
    · exact h
    · exact h
    · exact h
    · split
      · exact h
      · split
        · exact h
        · split
          · exact h
          · exact h

/-- A port at rest that asks for nothing is cut off. -/
theorem Port.Rest.discarding {p : Port} (h : p.Rest) (hok : p.SttransOk)
    (hrole : p.role ≠ .nonStpPort) (hlearn : p.learn = false) (hforward : p.forward = false) :
    p.hardware = .discarding ∧ p.learning = false ∧ p.forwarding = false := by
  have hnext := h.sttrans (fun hsel => hrole (h.nonStp hsel))
  have hflags := hok.flags
  rw [sttransNext] at hnext
  cases hst : p.sttrans with
  | discarding =>
    rw [hst] at hflags
    exact ⟨hflags.2.2, hflags.1, hflags.2.1⟩
  | begin => simp [hst] at hnext
  | learning => simp [hst, hlearn, hforward] at hnext
  | forwarding => simp [hst, hforward] at hnext

end Opconn.Rstp
