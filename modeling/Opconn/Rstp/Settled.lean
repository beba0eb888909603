import Opconn.Rstp.Steps

/-!
# Bridges at rest

`STP_stpm_update` returns when no machine hops.  What the machines look at then says where they are:
no port waits for its role, no packet waits to be looked at, and the hardware does what it was told.
-/

namespace Opconn.Rstp

/-- A port whose machines have nothing to do.  The machine of the hardware is the last one that is
checked, so it sees what the check of the role transitions has written. -/
structure Port.Rest (p : Port) : Prop where
  reselect : p.reselect = false
  portrcv : portrcvNext p = none
  pcost : pcostNext p = none
  info : infoNext p = none
  nonStp : p.selectedRole = .nonStpPort → p.role = .nonStpPort
  role : p.selected = true → p.updtInfo = false → p.role = p.selectedRole
  sttrans : p.selectedRole ≠ .nonStpPort → sttransNext p = none

/-- A bridge at rest. -/
structure Stpm.Settled (s : Stpm) : Prop where
  rolesel : s.rolesel = .roleSelection
  ports : s.All Port.Rest

/-- What a machine of a port that does not hop says of the port. -/
def PortMachine.Quiet (m : PortMachine) (p : Port) : Prop :=
  match m with
  | .portrcv => portrcvNext p = none
  | .pcost => pcostNext p = none
  | .info => infoNext p = none
  | .roletrns =>
    (p.selectedRole = .nonStpPort → p.role = .nonStpPort) ∧
      (p.selected = true → p.updtInfo = false → p.role = p.selectedRole)
  | .sttrans => p.selectedRole ≠ .nonStpPort → sttransNext p = none
  | .transmit | .bridect | .p2p | .topoch | .migrate => True

/-- What a machine that does not hop says of the bridge. -/
def MachineRef.Quiet (m : MachineRef) (s : Stpm) : Prop :=
  match m with
  | .rolesel => s.rolesel = .roleSelection ∧ s.All (fun p => p.reselect = false)
  | .port i m => ∀ p ∈ s.ports, p.portIndex = i → m.Quiet p

@[simp] theorem nonStpPrelude_selectedRole (p : Port) :
    (nonStpPrelude p).selectedRole = p.selectedRole := by
  rw [nonStpPrelude]
  split <;> rfl

@[simp] theorem nonStpPrelude_selected (p : Port) : (nonStpPrelude p).selected = p.selected := by
  rw [nonStpPrelude]
  split <;> rfl

@[simp] theorem nonStpPrelude_updtInfo (p : Port) : (nonStpPrelude p).updtInfo = p.updtInfo := by
  rw [nonStpPrelude]
  split <;> rfl

@[simp] theorem nonStpPrelude_reselect (p : Port) : (nonStpPrelude p).reselect = p.reselect := by
  rw [nonStpPrelude]
  split <;> rfl

theorem nonStpPrelude_of_ne {p : Port} (h : p.selectedRole ≠ .nonStpPort) : nonStpPrelude p = p := by
  rw [nonStpPrelude, if_neg (by simpa using h)]

theorem nonStpPrelude_role {p : Port} (h : p.selectedRole = .nonStpPort) :
    (nonStpPrelude p).role = .nonStpPort := by
  rw [nonStpPrelude, if_pos (by simp [h])]

/-- A role other than that of a port that takes no part has a state to take it over in. -/
theorem roleState_eq_none_iff (r : PortRole) : roleState r = none ↔ r = .nonStpPort := by
  cases r <;> simp [roleState]

/-- The role transitions machine does not rest while the port lacks its role. -/
theorem role_of_roletrnsNext {s : Stpm} {p : Port}
    (hnon : p.selectedRole = .nonStpPort → p.role = .nonStpPort) (h : roletrnsNext s p = none)
    (hselected : p.selected = true) (hupdt : p.updtInfo = false) : p.role = p.selectedRole := by
  rw [roletrnsNext] at h
  split at h
  · cases h
  · by_cases hrole : p.role = p.selectedRole
    · exact hrole
    · rw [if_pos (by simp [hrole, hselected, hupdt]), roleState_eq_none_iff] at h
      rw [hnon h, h]

/-- A check that does not hop may drop news, or mark a port that takes no part. -/
theorem portCheck_quiet_cases {s : Stpm} {m : PortMachine} {p : Port}
    (h : (portCheck s m p).2 = false) :
    (portCheck s m p).1 = p ∨ (∃ b, (portCheck s m p).1 = { p with newInfo := b }) ∨
      (portCheck s m p).1 = nonStpPrelude p := by
  cases m with
  | transmit =>
    simp only [portCheck] at h ⊢
    split at h
    · cases h
    · exact Or.inr (Or.inl ⟨_, rfl⟩)
  | roletrns =>
    simp only [portCheck] at h ⊢
    split at h
    · cases h
    · exact Or.inr (Or.inr rfl)
  | _ =>
    simp only [portCheck] at h ⊢
    split at h
    · cases h
    · exact Or.inl rfl

theorem PortMachine.quiet_of_portCheck {s : Stpm} {m : PortMachine} {p : Port}
    (h : (portCheck s m p).2 = false) : m.Quiet (portCheck s m p).1 := by
  cases m with
  | portrcv =>
    simp only [portCheck] at h ⊢
    split at h
    · cases h
    · next hnext => exact hnext
  | pcost =>
    simp only [portCheck] at h ⊢
    split at h
    · cases h
    · next hnext => exact hnext
  | info =>
    simp only [portCheck] at h ⊢
    split at h
    · cases h
    · next hnext => exact hnext
  | roletrns =>
    simp only [portCheck] at h ⊢
    split at h
    · cases h
    · next hnext =>
      have hnon : (nonStpPrelude p).selectedRole = .nonStpPort →
          (nonStpPrelude p).role = .nonStpPort := by
        rw [nonStpPrelude_selectedRole]
        exact nonStpPrelude_role
      exact ⟨hnon, role_of_roletrnsNext hnon hnext⟩
  | sttrans =>
    simp only [portCheck] at h ⊢
    split at h
    · cases h
    · next hnext => exact fun _ => hnext
  | transmit => trivial
  | bridect => trivial
  | p2p => trivial
  | topoch => trivial
  | migrate => trivial

theorem PortMachine.Quiet.newInfo {m : PortMachine} {p : Port} (h : m.Quiet p) (b : Bool) :
    m.Quiet { p with newInfo := b } := by
  cases m <;> exact h

theorem PortMachine.Quiet.prelude {m : PortMachine} {p : Port} (h : m.Quiet p) :
    m.Quiet (nonStpPrelude p) := by
  by_cases hnon : p.selectedRole = .nonStpPort
  · have heq : nonStpPrelude p =
        { p with role := .nonStpPort, learn := true, forward := true } := by
      rw [nonStpPrelude, if_pos (by simp [hnon])]
    rw [heq]
    cases m with
    | roletrns => exact ⟨fun _ => rfl, fun _ _ => hnon.symm⟩
    | sttrans => exact fun hne => absurd hnon hne
    | _ => exact h
  · rwa [nonStpPrelude_of_ne hnon]

theorem PortMachine.Quiet.check {s : Stpm} {m n : PortMachine} {p : Port} (h : m.Quiet p)
    (hquiet : (portCheck s n p).2 = false) : m.Quiet (portCheck s n p).1 := by
  rcases portCheck_quiet_cases hquiet with heq | ⟨b, heq⟩ | heq
  · rwa [heq]
  · rw [heq]
    exact h.newInfo b
  · rw [heq]
    exact h.prelude

theorem portCheck_reselect {s : Stpm} {m : PortMachine} {p : Port}
    (h : (portCheck s m p).2 = false) : (portCheck s m p).1.reselect = p.reselect := by
  rcases portCheck_quiet_cases h with heq | ⟨b, heq⟩ | heq
  · rw [heq]
  · rw [heq]
  · rw [heq, nonStpPrelude_reselect]

theorem MachineRef.quiet_of_checkCondition {s : Stpm} (hs : s.Distinct) {m : MachineRef}
    (h : (checkCondition s m).2 = false) : m.Quiet (checkCondition s m).1 := by
  cases m with
  | rolesel =>
    simp only [checkCondition] at h ⊢
    split at h
    · cases h
    · next hnext =>
      rw [roleselNext] at hnext
      split at hnext
      · cases hnext
      · cases hnext
      · next hstate =>
        split at hnext
        · cases hnext
        · next hany => exact ⟨hstate, by simpa [Stpm.All] using hany⟩
  | port i m =>
    rcases hfind : s.port? i with _ | p
    · simp only [checkCondition, hfind]
      intro q hq hqi
      rw [Stpm.port?, List.find?_eq_none] at hfind
      exact absurd hqi (by simpa using hfind q hq)
    · simp only [checkCondition, hfind] at h ⊢
      intro q hq hqi
      obtain ⟨r, hr, rfl⟩ := List.mem_map.mp hq
      have hri : r.portIndex = i := by
        rw [← hqi]
        split <;> simp
      have hrp : r = p :=
        eq_of_portIndex hs hr (port?_some hfind).1 (hri.trans (port?_some hfind).2.symm)
      simp only [hri, if_true]
      exact PortMachine.quiet_of_portCheck (hrp ▸ h)

theorem MachineRef.Quiet.check {s : Stpm} (hs : s.Distinct) {m n : MachineRef} (h : m.Quiet s)
    (hquiet : (checkCondition s n).2 = false) : m.Quiet (checkCondition s n).1 := by
  cases n with
  | rolesel =>
    simp only [checkCondition] at hquiet ⊢
    split at hquiet
    · cases hquiet
    · exact h
  | port i n =>
    rcases hfind : s.port? i with _ | p
    · simpa only [checkCondition, hfind] using h
    · simp only [checkCondition, hfind] at hquiet ⊢
      have hself : ∀ r ∈ s.ports, r.portIndex = i → (portCheck s n r).2 = false := by
        intro r hr hri
        rw [eq_of_portIndex hs hr (port?_some hfind).1 (hri.trans (port?_some hfind).2.symm)]
        exact hquiet
      cases m with
      | rolesel =>
        refine ⟨h.1, h.2.mapPorts (fun r hr hreselect => ?_)⟩
        split
        · next hri => rw [portCheck_reselect (hself r hr hri), hreselect]
        · exact hreselect
      | port j m =>
        intro q hq hqj
        obtain ⟨r, hr, rfl⟩ := List.mem_map.mp hq
        by_cases hri : r.portIndex = i
        · simp only [hri, if_true, portCheck_portIndex] at hqj ⊢
          exact (h r hr (hri.trans hqj)).check (hself r hr hri)
        · simp only [hri, if_false] at hqj ⊢
          exact h r hr hqj

theorem mem_machinesOf {is : List Nat} {i : Nat} (hi : i ∈ is) (m : PortMachine) :
    .port i m ∈ machinesOf is := by
  refine List.mem_cons_of_mem _ (List.mem_flatMap.mpr ⟨i, hi, List.mem_map.mpr ⟨m, ?_, rfl⟩⟩)
  cases m <;> simp [portMachines]

/-- **Rest.**  When `STP_stpm_update` returns, the bridge is at rest. -/
theorem Updates.settled {s s' : Stpm} (hs : s.Distinct) (h : Updates s s') : s'.Settled := by
  let Inv : Stpm → Prop := fun t => t.ports.map Port.portIndex = s.ports.map Port.portIndex
  have hdist : ∀ t, Inv t → t.Distinct := by
    intro t ht
    rw [Stpm.Distinct, show t.ports.map Port.portIndex = _ from ht]
    exact hs
  have hcheck : ∀ t m, Inv t → (checkCondition t m).2 = false → Inv (checkCondition t m).1 :=
    fun t m ht _ => (checkCondition_indices t m).trans ht
  have hhop : ∀ t m, Inv t → (checkCondition t m).2 = true →
      Inv (enterState (checkCondition t m).1 m) :=
    fun t m ht _ => (enterState_indices _ m).trans ((checkCondition_indices t m).trans ht)
  have htells : ∀ t m, Inv t → (checkCondition t m).2 = false →
      MachineRef.Quiet m (checkCondition t m).1 :=
    fun t m ht hq => MachineRef.quiet_of_checkCondition (hdist t ht) hq
  have hkeeps : ∀ t m n, Inv t → MachineRef.Quiet m t → (checkCondition t n).2 = false →
      MachineRef.Quiet m (checkCondition t n).1 :=
    fun t m n ht hm hq => hm.check (hdist t ht) hq
  have hmachines : ∀ t, Inv t → t.machines = machinesOf (s.ports.map Port.portIndex) :=
    fun t ht => congrArg machinesOf ht
  obtain ⟨hidx, hquiet⟩ := Machines.Drives.quiet Inv hcheck hhop htells hkeeps hmachines rfl h
  have hrolesel := hquiet .rolesel (List.mem_cons_self ..)
  have hport : ∀ p ∈ s'.ports, ∀ m : PortMachine, m.Quiet p := by
    intro p hp m
    have hmem : p.portIndex ∈ s.ports.map Port.portIndex := by
      rw [← hidx]
      exact List.mem_map_of_mem hp
    exact hquiet (.port p.portIndex m) (mem_machinesOf hmem m) p hp rfl
  refine ⟨hrolesel.1, fun p hp => ?_⟩
  have hroletrns := hport p hp .roletrns
  exact ⟨hrolesel.2 p hp, hport p hp .portrcv, hport p hp .pcost, hport p hp .info, hroletrns.1,
    hroletrns.2, hport p hp .sttrans⟩

end Opconn.Rstp
