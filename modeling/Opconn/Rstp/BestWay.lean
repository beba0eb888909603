import Opconn.Rstp.Roles

/-!
# The best way to the root

Vectors are told apart by their costs when these are close.  On a bridge whose ports cost little and
which hears of small costs only, the comparison is the order of the vectors, and a bridge at rest goes
the best way that it knows of.
-/

namespace Opconn.Rstp

/-! ### Small costs -/

/-- A quarter of the range of a cost. -/
def costBound : Nat := 2 ^ 30

/-- An event that brings small costs only. -/
def Event.SmallCosts : Event → Prop
  | .rxBpdu _ bpdu => (getCost bpdu.body.rootPathCost).toNat < costBound
  | .setPortCfg _ cfg => ∀ cost ∈ cfg.adminPortPathCost, cost.toNat < costBound
  | _ => True

/-- The costs of a port are small. -/
structure CostOk (adminPCost operPCost : UInt32) (msgPrio portPrio : PrioVector) (infoIs : InfoIs) :
    Prop where
  admin : adminPCost.toNat < costBound
  oper : operPCost.toNat < costBound
  msg : msgPrio.rootPathCost.toNat < costBound
  kept : infoIs = .received → portPrio.rootPathCost.toNat < costBound

/-- The costs of a port are small. -/
def Port.CostOk (p : Port) : Prop :=
  Rstp.CostOk p.adminPCost p.operPCost p.msgPrio p.portPrio p.infoIs

theorem computeAutoPCost_small (speed : UInt32) : (computeAutoPCost speed).toNat < costBound := by
  rw [computeAutoPCost]
  repeat' split
  all_goals decide

theorem Port.CostOk.infoFire {s : Stpm} {p : Port} (h : p.CostOk) (st : InfoState) :
    (infoEnterState s st { p with info := st }).CostOk := by
  cases st with
  | begin | rstpPortDisabled | aged | update => exact ⟨h.admin, h.oper, h.msg, nofun⟩
  | superiorDesignated => exact ⟨h.admin, h.oper, h.msg, fun _ => h.msg⟩
  | current | receive | repeatedDesignated | inferiorDesignated | notDesignated | other =>
    exact ⟨h.admin, h.oper, h.msg, h.kept⟩

theorem costOk_machines : MachineInvariant Port.CostOk where
  drop p b h := h
  prelude p h := by
    rw [nonStpPrelude]
    split <;> exact h
  transmit s p st h _ := by cases st <;> exact h
  portrcv p st h _ := by cases st <;> exact h
  bridect p st h _ := by cases st <;> exact h
  p2p p st h _ := by cases st <;> exact h
  topoch s p st h _ := by cases st <;> exact h
  migrate s p st h _ := by cases st <;> exact h
  pcost p st h _ := by
    cases st with
    | auto => exact ⟨h.admin, computeAutoPCost_small _, h.msg, h.kept⟩
    | forse => exact ⟨h.admin, h.admin, h.msg, h.kept⟩
    | _ => exact h
  info s p st h _ := h.infoFire st
  roletrns s p st h _ := by cases st <;> exact h
  sttrans p st h _ := by cases st <;> exact h
  topochTree i st q h := by
    cases st <;> simp only [topochTree] <;> first | exact h | (split <;> exact h)
  roletrnsTree st q h := by cases st <;> exact h
  reselect p b h := h
  selected p b h := h
  selectedRole p h := h
  updtRole s p h := by
    obtain ⟨_, _, _, _, _, _, _, _, hframe⟩ := updtRolesTree_frame s p
    rw [hframe]
    exact h

theorem costOk_events : EventInvariant Event.SmallCosts Port.CostOk where
  init s b p h := h
  initMachine s p m h := by
    cases m with
    | info => exact ⟨h.admin, h.oper, h.msg, nofun⟩
    | _ => exact h
  enabled s b p h := h
  tick p h := h
  flush p h := h
  operEdge p h := h
  rxBpdu s i bpdu p hG h := by
    rw [infoRxBpdu]
    split
    · split <;> exact h
    · split
      · split
        · exact h
        · exact ⟨h.admin, h.oper, hG, h.kept⟩
      · exact h
  setPortCfg s is cfg p hG h := by
    have hadmin : (cfg.adminPortPathCost.getD p.adminPCost).toNat < costBound := by
      cases hcost : cfg.adminPortPathCost with
      | none => exact h.admin
      | some cost => exact hG cost hcost
    exact ⟨hadmin, h.oper, h.msg, h.kept⟩
  operSpeed p speed h := h
  fullDuplex p b h := h
  recompute p h := h

theorem portCreate_costOk (t : TimeValues) (i : Nat) : (portCreate t i).CostOk := by
  have hzero : Rstp.CostOk 0 0 .zero .zero .mine := ⟨by decide, by decide, by decide, nofun⟩
  exact hzero

/-- A port with small costs. -/
def Port.Small (p : Port) : Prop := p.Ok ∧ p.CostOk

theorem small_machines : MachineInvariant Port.Small := ok_machines.and costOk_machines

theorem small_events : EventInvariant Event.SmallCosts Port.Small :=
  (ok_events.and costOk_events).mono (fun _ he => ⟨trivial, he⟩)

theorem portCreate_small (t : TimeValues) (i : Nat) (hi : i ∈ List.range' 1 numberOfPorts) :
    (portCreate t i).Small :=
  ⟨portCreate_ok t i hi, portCreate_costOk t i⟩

/-- A vector whose cost is less than half the range. -/
def PrioVector.Near (v : PrioVector) : Prop := v.rootPathCost.toNat < 2 * costBound

/-- Near vectors are compared as the numbers that they stand for. -/
theorem PrioVector.Near.compare {v w : PrioVector} (hv : v.Near) (hw : w.Near) :
    compareVector v w < 0 ↔ v.key < w.key := by
  refine (compareVector_neg_iff v w).mpr (fun _ => ?_)
  rw [PrioVector.Near, costBound] at hv hw
  omega

theorem ownVector_near (s : Stpm) : (ownVector s).Near := by
  have hzero : (ownVector s).rootPathCost = 0 := rfl
  rw [PrioVector.Near, hzero]
  decide

/-- The cost of the way through a port is the sum. -/
theorem toNat_rootPathPrio_cost {p : Port} (h : p.CostOk) (hinfo : p.infoIs = .received) :
    (rootPathPrio p).rootPathCost.toNat = p.portPrio.rootPathCost.toNat + p.operPCost.toNat := by
  have hkept := h.kept hinfo
  have hoper := h.oper
  rw [costBound] at hkept hoper
  rw [rootPathPrio, UInt32.toNat_add]
  omega

theorem rootPathPrio_near {p : Port} (h : p.CostOk) (hinfo : p.infoIs = .received) :
    (rootPathPrio p).Near := by
  have hkept := h.kept hinfo
  have hoper := h.oper
  rw [PrioVector.Near, toNat_rootPathPrio_cost h hinfo]
  omega

theorem portPrio_near {p : Port} (h : p.Small) (hinfo : p.infoIs = .received) : p.portPrio.Near := by
  have hkept := h.2.kept hinfo
  rw [PrioVector.Near]
  omega

/-! ### The best way -/

theorem offersWay_iff {p : Port} :
    p.offersWay = true ↔ p.adminNonStp = false ∧ p.infoIs = .received := by
  simp [Port.offersWay]

/-- The bridge goes the best way that it knows of. -/
structure Stpm.GoesBest (s : Stpm) : Prop where
  source : s.rootPrio = ownVector s ∨ ∃ p ∈ s.ports, p.offersWay = true ∧ s.rootPrio = rootPathPrio p
  own : s.rootPrio.key ≤ (ownVector s).key
  ports : ∀ p ∈ s.ports, p.offersWay = true → s.rootPrio.key ≤ (rootPathPrio p).key
  id : s.rootPortId = s.rootPrio.bridgePort

theorem withRootPrio_goesBest {s : Stpm} (h : s.All Port.Small) : (withRootPrio s).GoesBest := by
  have hnear : ∀ a ∈ s.offers, a.1.Near := by
    intro a ha
    obtain ⟨p, hp, rfl⟩ := List.mem_map.mp ha
    obtain ⟨hmem, hoffers⟩ := List.mem_filter.mp hp
    exact rootPathPrio_near (h p hmem).2 (offersWay_iff.mp hoffers).2
  have hbetter : ∀ a b : PrioVector × TimeValues, a.1.Near → b.1.Near →
      (betterWay a b = true ↔ a.1.key < b.1.key) := by
    intro a b ha hb
    rw [betterWay, decide_eq_true_iff]
    exact ha.compare hb
  obtain ⟨hown, hall⟩ := Best.best_le (fun a : PrioVector × TimeValues => a.1.key)
    (fun a => a.1.Near) hbetter (ownVector s, s.brTimes) s.offers (ownVector_near s) hnear
  rw [← updtRootPrio_eq] at hown hall
  refine ⟨?_, hown, fun p hp hoffers => ?_, rfl⟩
  · rcases updtRootPrio_cases s with hroot | ⟨p, hp, hoffers, hroot⟩
    · exact Or.inl (congrArg Prod.fst hroot)
    · exact Or.inr ⟨p, hp, hoffers, congrArg Prod.fst hroot⟩
  · exact hall p.offer (List.mem_map_of_mem (List.mem_filter.mpr ⟨hp, hoffers⟩))

theorem offersWay_of_basis {p q : Port} (h : q.basis = p.basis) : q.offersWay = p.offersWay := by
  have hadmin : q.adminNonStp = p.adminNonStp := congrArg PortBasis.adminNonStp h
  have hinfo : q.infoIs = p.infoIs := congrArg PortBasis.infoIs h
  rw [Port.offersWay, Port.offersWay, hadmin, hinfo]

theorem rootPathPrio_of_basis {p q : Port} (h : q.basis = p.basis) :
    rootPathPrio q = rootPathPrio p := by
  have hprio : q.portPrio = p.portPrio := congrArg PortBasis.portPrio h
  have hcost : q.operPCost = p.operPCost := congrArg PortBasis.operPCost h
  rw [rootPathPrio, rootPathPrio, hprio, hcost]

theorem Stpm.GoesBest.of_basis {s s' : Stpm} (h : s.GoesBest) (hb : s'.basis = s.basis) :
    s'.GoesBest := by
  have hroot : s'.rootPrio = s.rootPrio := congrArg StpmBasis.rootPrio hb
  have hbr : s'.brId = s.brId := congrArg StpmBasis.brId hb
  have hid : s'.rootPortId = s.rootPortId := congrArg StpmBasis.rootPortId hb
  have hown : ownVector s' = ownVector s := by rw [ownVector, ownVector, hbr]
  refine ⟨?_, ?_, fun p hp hoffers => ?_, ?_⟩
  · rcases h.source with hsource | ⟨p, hp, hoffers, hsource⟩
    · exact Or.inl (by rw [hroot, hown, hsource])
    · obtain ⟨q, hq, hqp⟩ := exists_of_basis hb.symm hp
      refine Or.inr ⟨q, hq, ?_, ?_⟩
      · rw [offersWay_of_basis hqp, hoffers]
      · rw [hroot, rootPathPrio_of_basis hqp, hsource]
  · rw [hroot, hown]
    exact h.own
  · obtain ⟨q, hq, hqp⟩ := exists_of_basis hb hp
    rw [hroot, ← rootPathPrio_of_basis hqp]
    exact h.ports q hq (by rw [offersWay_of_basis hqp, hoffers])
  · rw [hid, hroot]
    exact h.id

/-- A port that is to be updated is not the way to the root. -/
theorem Port.Selects.ne_rootPathPrio {s : Stpm} {p : Port} (h : p.Selects s) (hp : p.Small)
    (hpcost : p.pcost = .stable) (hupdt : p.updtInfo = true) (hoffers : p.offersWay = true) :
    s.rootPrio ≠ rootPathPrio p := by
  obtain ⟨hadmin, hinfo⟩ := offersWay_iff.mp hoffers
  intro hroot
  have hprio : compareVector p.designPrio p.portPrio < 0 := by
    rcases h.chosen hadmin with ⟨info, -⟩ | ⟨info, -⟩ | ⟨info, -⟩ | ⟨-, -, updt, -⟩ |
      ⟨-, -, -, -, prio⟩ | ⟨-, -, updt, -⟩
    · rw [hinfo] at info
      cases info
    · rw [hinfo] at info
      cases info
    · rw [hinfo] at info
      cases info
    · rw [hupdt] at updt
      cases updt
    · exact prio
    · rw [hupdt] at updt
      cases updt
  -- the bridge would say what it has heard, at a higher cost
  have hcost := toNat_rootPathPrio_cost hp.2 hinfo
  have hpos : p.operPCost ≠ 0 := hp.1.pcost.resolve_left (by rw [hpcost]; decide)
  have hoper : 0 < p.operPCost.toNat := 
    Nat.pos_of_ne_zero (fun hzero => hpos (UInt32.toNat_inj.mp (hzero.trans rfl)))
  have hkept : p.portPrio.Near := by
    have hk := hp.2.kept hinfo
    rw [PrioVector.Near]
    omega
  have hdesign : p.designPrio = designVector s p := (h.design hadmin).1
  have hdcost : p.designPrio.rootPathCost = (rootPathPrio p).rootPathCost := by
    rw [hdesign, designVector, hroot]
    rfl
  have hdroot : p.designPrio.rootBridge = p.portPrio.rootBridge := by
    rw [hdesign, designVector, hroot]
    rfl
  have hdnear : p.designPrio.Near := by
    rw [PrioVector.Near, hdcost]
    exact rootPathPrio_near hp.2 hinfo
  rw [hdnear.compare hkept] at hprio
  exact absurd hprio (not_lt.mpr (PrioVector.key_le_of_cost hdroot (by rw [hdcost]; omega)))

theorem Stpm.GoesBest.mapPorts {s : Stpm} {f : Port → Port} (h : s.GoesBest)
    (hf : ∀ p ∈ s.ports, (f p).offersWay = p.offersWay ∧ rootPathPrio (f p) = rootPathPrio p) :
    (s.mapPorts f).GoesBest := by
  refine ⟨?_, h.own, fun q hq hoffers => ?_, h.id⟩
  · rcases h.source with hsource | ⟨p, hp, hoffers, hsource⟩
    · exact Or.inl hsource
    · refine Or.inr ⟨f p, List.mem_map_of_mem hp, ?_, ?_⟩
      · rw [(hf p hp).1, hoffers]
      · rw [(hf p hp).2]
        exact hsource
  · obtain ⟨p, hp, rfl⟩ := List.mem_map.mp hq
    rw [(hf p hp).1] at hoffers
    rw [(hf p hp).2]
    exact h.ports p hp hoffers

/-- A port that was not the way to the root no longer offers one. -/
theorem Stpm.GoesBest.updated {s : Stpm} {p : Port} (hs : s.Distinct) (h : s.GoesBest)
    (hp : p ∈ s.ports) (hne : p.offersWay = true → s.rootPrio ≠ rootPathPrio p) :
    (s.modifyPort p.portIndex Port.updated).GoesBest := by
  refine ⟨?_, h.own, fun q hq hoffers => ?_, h.id⟩
  · rcases h.source with hsource | ⟨r, hr, hoffers, hsource⟩
    · exact Or.inl hsource
    · have hrp : r.portIndex ≠ p.portIndex := by
        intro hrp
        rw [eq_of_portIndex hs hr hp hrp] at hoffers hsource
        exact hne hoffers hsource
      exact Or.inr ⟨r, List.mem_map.mpr ⟨r, hr, if_neg hrp⟩, hoffers, hsource⟩
  · obtain ⟨r, hr, rfl⟩ := List.mem_map.mp hq
    by_cases hrp : r.portIndex = p.portIndex
    · rw [if_pos hrp] at hoffers
      have hmine := (offersWay_iff.mp hoffers).2
      cases hmine
    · rw [if_neg hrp] at hoffers ⊢
      exact h.ports r hr hoffers

theorem goesBest_selection :
    Selection Port.Small (fun s => s.All (Port.Selects s) ∧ s.GoesBest) where
  basis s s' hb h := ⟨selects_selection.basis s s' hb h.1, h.2.of_basis hb⟩
  select s hs hall hrolesel := by
    refine ⟨selects_selection.select s hs (fun p hp => (hall p hp).1) hrolesel, ?_⟩
    have hclear : (clearReselectTree s).All Port.Small :=
      hall.mapPorts (fun p _ hp => small_machines.reselect p false hp)
    have hroles : (updtRolesTree (clearReselectTree s)).GoesBest := by
      refine (withRootPrio_goesBest hclear).mapPorts (fun p _ => ?_)
      obtain ⟨_, _, _, _, _, _, _, _, hframe⟩ :=
        updtRolesTree_frame (withRootPrio (clearReselectTree s)) p
      rw [hframe]
      exact ⟨rfl, rfl⟩
    rw [roleselEnterState_roleSelection hrolesel]
    exact hroles.mapPorts (fun _ _ => ⟨rfl, rfl⟩)
  update s p hs hall hdue h hp hinfo hupdt := by
    have hpcost : p.pcost = .stable := by
      by_contra hst
      exact hdue (Or.inr ⟨p, hp, Or.inr (Or.inl hst)⟩)
    refine ⟨selects_selection.update s p hs (fun p hp => (hall p hp).1) hdue h.1 hp hinfo hupdt, ?_⟩
    exact h.2.updated hs hp ((h.1 p hp).ne_rootPathPrio (hall p hp) hpcost hupdt)

theorem goesBest_of_rests {s : Stpm} (h : RestsBy Event.SmallCosts s) (hne : s.ports ≠ []) :
    s.GoesBest :=
  (goesBest_selection.rests small_machines small_events (fun _ hp => hp.1) portCreate_small h hne).2.2

end Opconn.Rstp