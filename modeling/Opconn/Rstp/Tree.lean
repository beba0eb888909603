import Opconn.Rstp.Network

/-!
# The tree

In a quiet network the bridges agree on the best of them as the root, every bridge is as far from the
root as it says, and no frame that is passed on comes back.
-/

namespace Opconn.Rstp.Network

variable {ι : Type*} {N : Network ι}

/-! ### Frames -/

/-- A port on a link that passes frames on is in the tree. -/
theorem Joined.of_forwards {a b : ι × Nat} {p q : Port} (h : N.Joined a b p q) (hout : N.Forwards a) :
    p.role = .designatedPort ∨
      p.role = .rootPort ∧ p.infoIs = .received ∧ (N.bridge a.1).rootPrio = rootPathPrio p := by
  obtain ⟨r, hr, hhw⟩ := hout
  have hrp : r = p := Option.some.inj (hr.symm.trans h.left)
  subst hrp
  rcases h.cases with ⟨role, -⟩ | hroot | ⟨role, -⟩
  · exact Or.inl role
  · exact Or.inr hroot
  · have hrest := (N.rests a.1).settled.ports r (mem_of_port? h.left).1
    have hcut := hrest.outside (small_of_port? h.left).1 (Or.inr role)
    rw [hhw] at hcut
    cases hcut.1

/-- The port at `a` is designated. -/
def Designated (N : Network ι) (a : ι × Nat) : Prop :=
  ∃ p, N.port? a = some p ∧ p.role = .designatedPort

/-- A frame that leaves through a designated port goes on through designated ports, away from the
root. -/
theorem Quiet.up (h : N.Quiet) {a b d : ι × Nat} (hpass : N.PassesOn a b) (hb : N.peer b = some d)
    (ha : N.Designated a) : N.Designated b ∧ N.cost a.1 < N.cost b.1 := by
  obtain ⟨hpeer, -, hinto, hbridge, hother, hnext⟩ := hpass
  obtain ⟨p, q, hj⟩ := h.joined hpeer
  obtain ⟨r, t, hk⟩ := h.joined hb
  obtain ⟨p', hp', hprole⟩ := ha
  have hpp : p' = p := Option.some.inj (hp'.symm.trans hj.left)
  subst hpp
  -- the frame comes in through the root port
  obtain ⟨hqrole, hqinfo, hqroot⟩ := (hj.symm.of_forwards hinto).resolve_left
    (fun hq => hj.not_both hprole hq)
  have hcost := (hj.symm.of_root hqroot hqinfo).2
  have hpos := hj.symm.operPCost_pos
  refine ⟨?_, by rw [hbridge]; omega⟩
  rcases hk.of_forwards hnext with hrole | ⟨hrole, -⟩
  · exact ⟨r, hk.left, hrole⟩
  · obtain ⟨hr, hri⟩ := mem_of_port? hk.left
    obtain ⟨hq, hqi⟩ := mem_of_port? hj.right
    rw [hbridge] at hr
    have hrq : r = q := (N.rests _).rests.root_unique hr hq hk.quiet.up hj.quiet'.up hrole hqrole
    exact absurd (Prod.ext hbridge (by rw [← hri, ← hqi, hrq])) hother

/-- A frame that leaves through another port goes towards the root. -/
theorem Quiet.down (h : N.Quiet) {a b : ι × Nat} (hpass : N.PassesOn a b) (ha : ¬N.Designated a) :
    N.cost b.1 < N.cost a.1 := by
  obtain ⟨hpeer, hout, -, hbridge, -, -⟩ := hpass
  obtain ⟨p, q, hj⟩ := h.joined hpeer
  obtain ⟨-, hinfo, hroot⟩ := (hj.of_forwards hout).resolve_left (fun hp => ha ⟨p, hj.left, hp⟩)
  have hcost := (hj.of_root hroot hinfo).2
  have hpos := hj.operPCost_pos
  rw [hbridge]
  omega

/-- A frame is passed on to a port with a link. -/
def Hands (N : Network ι) (a b : ι × Nat) : Prop := N.PassesOn a b ∧ ∃ d, N.peer b = some d

theorem transGen_hands {a b d : ι × Nat} (h : Relation.TransGen N.PassesOn a b)
    (hb : N.peer b = some d) : Relation.TransGen N.Hands a b := by
  induction h generalizing d with
  | single hab => exact .single ⟨hab, d, hb⟩
  | tail _ hbc ih =>
    have hbc' := hbc
    obtain ⟨hpeer, -, -, -, -, -⟩ := hbc'
    exact .tail (ih hpeer) ⟨hbc, d, hb⟩

/-- **No loops.**  In a quiet network no frame that is passed on comes back to a port that it left
through. -/
theorem no_loop (h : N.Quiet) (a : ι × Nat) : ¬Relation.TransGen N.PassesOn a a := by
  intro hloop
  obtain ⟨b, hab, -⟩ := Relation.TransGen.head'_iff.mp hloop
  obtain ⟨hpeer, -, -, -, -, -⟩ := hab
  have hup : ∀ a b, N.Hands a b → N.Designated a → N.Designated b ∧ N.cost a.1 < N.cost b.1 :=
    fun a b hab ha => h.up hab.1 hab.2.choose_spec ha
  have hdown : ∀ a b, N.Hands a b → ¬N.Designated a → N.Designated b ∨ N.cost b.1 < N.cost a.1 :=
    fun a b hab ha => Or.inr (h.down hab.1 ha)
  exact Walks.not_transGen_self hup hdown a (transGen_hands hloop hpeer)

/-- Two bridges of which one passes frames on to the other. -/
theorem no_loop_two : ∃ N : Network Bool, N.peer (false, 1) = some (true, 1) ∧
    N.Forwards (false, 1) ∧ N.Forwards (true, 1) ∧
    ¬Relation.TransGen N.PassesOn (false, 1) (false, 1) := by
  obtain ⟨N, hquiet, -, -, hpeer, hout, hinto⟩ := exists_network
  exact ⟨N, hpeer, hout, hinto, no_loop hquiet (false, 1)⟩

/-! ### The root -/

/-- The end of a link that is not designated has from the other the root, and is no nearer to it than
the other, and no farther than the other and the link. -/
theorem Joined.of_received {a b : ι × Nat} {p q : Port} (h : N.Joined a b p q)
    (hinfo : p.infoIs = .received) :
    N.root a.1 = N.root b.1 ∧ N.cost b.1 ≤ N.cost a.1 ∧
      N.cost a.1 ≤ p.operPCost.toNat + N.cost b.1 := by
  have htold := (h.told hinfo).2
  have hsmall := small_of_port? h.left
  rcases h.cases with ⟨-, info, -⟩ | ⟨-, -, hroot⟩ | ⟨-, -, hprio⟩
  · rw [hinfo] at info
    cases info
  · obtain ⟨heq, hcost⟩ := h.of_root hroot hinfo
    exact ⟨heq, by omega, by omega⟩
  · have hnear : (designVector (N.bridge a.1) p).Near := near_of_port? h.left
    rw [hnear.compare (portPrio_near hsmall hinfo), not_lt] at hprio
    obtain ⟨hrootle, hcostle⟩ := PrioVector.le_of_key hprio
    have hway := (goesBest h.left).ports p (mem_of_port? h.left).1
      (offersWay_iff.mpr ⟨h.quiet.part, hinfo⟩)
    obtain ⟨hrootge, hcostge⟩ := PrioVector.le_of_key hway
    rw [toNat_rootPathPrio_cost hsmall.2 hinfo, htold] at hcostge
    rw [rootPathPrio, htold] at hrootge
    rw [htold] at hrootle hcostle
    have heq : N.root a.1 = N.root b.1 := BridgeId.key_injective (Nat.le_antisymm hrootge hrootle)
    refine ⟨heq, hcostle heq.symm, ?_⟩
    have hge := hcostge (by rw [rootPathPrio, htold]; exact heq)
    rw [Nat.add_comm]
    exact hge

/-- The two ends of a link have one root, and are no farther apart than the link. -/
theorem Quiet.crosses (h : N.Quiet) {i j : ι} {n : Nat} (hcross : N.Crosses i j n) :
    N.root i = N.root j ∧ N.cost i ≤ n + N.cost j := by
  obtain ⟨a, b, p, hpeer, hp, rfl, rfl, rfl⟩ := hcross
  obtain ⟨p', q, hj⟩ := h.joined hpeer
  have hpp : p = p' := Option.some.inj (hp.symm.trans hj.left)
  subst hpp
  by_cases hrole : p.role = .designatedPort
  · have hqinfo : q.infoIs = .received := hj.symm.received (fun hq => hj.not_both hrole hq)
    obtain ⟨hroot, hle, -⟩ := hj.symm.of_received hqinfo
    exact ⟨hroot.symm, by omega⟩
  · obtain ⟨hroot, -, hle⟩ := hj.of_received (hj.received hrole)
    exact ⟨hroot, hle⟩

/-- A bridge that does not take itself to be the root has its way over a link. -/
theorem Quiet.descends (h : N.Quiet) {i : ι} (hne : (N.bridge i).ports ≠ []) (hi : ¬N.IsRoot i) :
    ∃ j n, N.Crosses i j n ∧ 0 < n ∧ N.cost i = n + N.cost j := by
  rcases (goesBest_of_rests (N.rests i) hne).source with hown | ⟨p, hp, hoffers, hroot⟩
  · exact absurd hown hi
  · obtain ⟨hpart, hinfo⟩ := offersWay_iff.mp hoffers
    have hport : N.port? (i, p.portIndex) = some p := port?_of_mem (N.rests i).reachable.distinct hp
    cases hpeer : N.peer (i, p.portIndex) with
    | none => exact absurd hinfo (h.closed _ p hport hpeer)
    | some b =>
      obtain ⟨p', q, hj⟩ := h.joined hpeer
      have hpp : p = p' := Option.some.inj (hport.symm.trans hj.left)
      subst hpp
      have hcost := (hj.of_root hroot hinfo).2
      exact ⟨b.1, p.operPCost.toNat, ⟨_, b, p, hpeer, hport, rfl, rfl, rfl⟩, hj.operPCost_pos, hcost⟩

theorem Quiet.potential (h : N.Quiet) (hne : ∀ i, (N.bridge i).ports ≠ []) :
    Walks.Potential N.Crosses N.IsRoot N.cost where
  target i hi := by
    rw [Network.cost, show (N.bridge i).rootPrio = _ from hi]
    rfl
  step i j n hcross := (h.crosses hcross).2
  descent i hi := h.descends (hne i) hi

/-- **Agreement.**  In a quiet network in which every bridge can be reached from every other, all
bridges have one root, the bridge with the best identifier. -/
theorem agreement [Nonempty ι] (h : N.Quiet) (hne : ∀ i, (N.bridge i).ports ≠ [])
    (hconn : ∀ i j, ∃ n, Walks.Way N.Crosses i j n) :
    ∃ r, (∀ j, N.root j = (N.bridge r).brId) ∧
      ∀ j, (N.bridge r).brId.key ≤ (N.bridge j).brId.key := by
  obtain ⟨r, hr, -⟩ := (h.potential hne).exists_way (Classical.arbitrary ι)
  have hown : N.root r = (N.bridge r).brId := by
    rw [Network.root, show (N.bridge r).rootPrio = _ from hr]
    rfl
  have hsame : ∀ i j n, N.Crosses i j n → N.root i = N.root j := fun i j n hc => (h.crosses hc).1
  have hroot : ∀ j, N.root j = (N.bridge r).brId := by
    intro j
    obtain ⟨n, hway⟩ := hconn j r
    rw [← hown]
    exact hway.eq_of_step hsame
  refine ⟨r, hroot, fun j => ?_⟩
  have hle := (PrioVector.le_of_key (goesBest_of_rests (N.rests j) (hne j)).own).1
  rw [← hroot j]
  exact hle

/-- Two bridges that have one root. -/
theorem agreement_two : ∃ N : Network Bool, ∃ r, (∀ j, N.root j = (N.bridge r).brId) ∧
    ∀ j, (N.bridge r).brId.key ≤ (N.bridge j).brId.key := by
  obtain ⟨N, hquiet, hne, hconn, -⟩ := exists_network
  exact ⟨N, agreement hquiet hne hconn⟩

end Opconn.Rstp.Network
