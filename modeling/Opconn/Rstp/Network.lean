import Opconn.Lib.Walks
import Opconn.Rstp.Link

/-!
# Networks of bridges

Bridges at rest whose ports are joined by links.  A network is quiet when no port has anything to learn
from its neighbour; then one end of a link at most is designated, and what the other end has is what
the designated end stands for.
-/

namespace Opconn.Rstp

/-! ### Links at rest -/

/-- The port `p` of `s` has nothing to learn from its neighbour `q`: a designated neighbour does not
better what `p` has, and what `p` has from outside is what a designated neighbour says. -/
structure LinkQuiet (s : Stpm) (p q : Port) : Prop where
  part : p.adminNonStp = false
  up : p.portEnabled = true
  calm : q.role = .designatedPort → heard s q.tells p ≠ .superiorDesignatedInfo
  fresh : p.infoIs = .received →
    q.role = .designatedPort ∧ heard s q.tells p = .repeatedDesignatedInfo

/-- Bridges at rest, and which port each port is joined to. -/
structure Network (ι : Type*) where
  bridge : ι → Stpm
  peer : ι × Nat → Option (ι × Nat)
  rests : ∀ i, RestsBy Event.SmallCosts (bridge i)
  version : ∀ i, (bridge i).rstpVersion = true
  ids : Function.Injective (fun i => (bridge i).brId)
  peer_symm : ∀ a b, peer a = some b → peer b = some a
  peer_ne : ∀ a, peer a ≠ some a
  ends : ∀ a b, peer a = some b → ((bridge a.1).port? a.2).isSome

namespace Network

variable {ι : Type*} (N : Network ι)

/-- The port at one end of a link. -/
def port? (a : ι × Nat) : Option Port := (N.bridge a.1).port? a.2

/-- No port has anything to learn. -/
structure Quiet : Prop where
  link : ∀ a b p q, N.peer a = some b → N.port? a = some p → N.port? b = some q →
    LinkQuiet (N.bridge a.1) p q
  closed : ∀ a p, N.port? a = some p → N.peer a = none → p.infoIs ≠ .received

/-- What a bridge takes to be the root. -/
def root (i : ι) : BridgeId := (N.bridge i).rootPrio.rootBridge

/-- How far a bridge takes the root to be. -/
def cost (i : ι) : Nat := (N.bridge i).rootPrio.rootPathCost.toNat

variable {N}

theorem mem_of_port? {a : ι × Nat} {p : Port} (h : N.port? a = some p) :
    p ∈ (N.bridge a.1).ports ∧ p.portIndex = a.2 :=
  port?_some h

theorem small_of_port? {a : ι × Nat} {p : Port} (h : N.port? a = some p) : p.Small :=
  (N.rests a.1).reachable.all small_machines small_events portCreate_small p (mem_of_port? h).1

theorem goesBest {a : ι × Nat} {p : Port} (h : N.port? a = some p) : (N.bridge a.1).GoesBest :=
  goesBest_of_rests (N.rests a.1) (List.ne_nil_of_mem (mem_of_port? h).1)

/-- A link between two ports, with nothing to learn at either end. -/
structure Joined (N : Network ι) (a b : ι × Nat) (p q : Port) : Prop where
  peer : N.peer a = some b
  left : N.port? a = some p
  right : N.port? b = some q
  quiet : LinkQuiet (N.bridge a.1) p q
  quiet' : LinkQuiet (N.bridge b.1) q p

theorem Quiet.joined (h : N.Quiet) {a b : ι × Nat} (hpeer : N.peer a = some b) :
    ∃ p q, N.Joined a b p q := by
  have hback := N.peer_symm a b hpeer
  obtain ⟨p, hp⟩ := Option.isSome_iff_exists.mp (N.ends a b hpeer)
  obtain ⟨q, hq⟩ := Option.isSome_iff_exists.mp (N.ends b a hback)
  exact ⟨p, q, hpeer, hp, hq, h.link a b p q hpeer hp hq, h.link b a q p hback hq hp⟩

theorem Joined.symm {a b : ι × Nat} {p q : Port} (h : N.Joined a b p q) : N.Joined b a q p :=
  ⟨N.peer_symm a b h.peer, h.right, h.left, h.quiet', h.quiet⟩

theorem Joined.placed {a b : ι × Nat} {p q : Port} (h : N.Joined a b p q) :
    p.Placed (N.bridge a.1) :=
  (N.rests a.1).rests.placed (mem_of_port? h.left).1

/-- The roles of a port on a link. -/
theorem Joined.cases {a b : ι × Nat} {p q : Port} (h : N.Joined a b p q) :
    (p.role = .designatedPort ∧ p.infoIs = .mine ∧ p.portPrio = designVector (N.bridge a.1) p) ∨
      (p.role = .rootPort ∧ p.infoIs = .received ∧ (N.bridge a.1).rootPrio = rootPathPrio p) ∨
      ((p.role = .alternatePort ∨ p.role = .backupPort) ∧ p.infoIs = .received ∧
        ¬compareVector (designVector (N.bridge a.1) p) p.portPrio < 0) := by
  rcases h.placed with ⟨admin, -⟩ | ⟨link, -⟩ | ⟨-, role, info, prio, -⟩ | ⟨-, role, info, -, prio, -⟩ |
    ⟨-, role, info, -, prio⟩
  · rw [h.quiet.part] at admin
    cases admin
  · rw [h.quiet.up] at link
    cases link
  · exact Or.inl ⟨role, info, prio⟩
  · exact Or.inr (Or.inl ⟨role, info, prio⟩)
  · refine Or.inr (Or.inr ⟨?_, info, prio⟩)
    split at role
    · exact Or.inr role
    · exact Or.inl role

/-- What a designated port stands for. -/
theorem Joined.of_designated {a b : ι × Nat} {p q : Port} (h : N.Joined a b p q)
    (hrole : p.role = .designatedPort) : p.portPrio = designVector (N.bridge a.1) p := by
  rcases h.cases with ⟨-, -, prio⟩ | ⟨role, -⟩ | ⟨role | role, -⟩
  · exact prio
  · rw [hrole] at role
    cases role
  · rw [hrole] at role
    cases role
  · rw [hrole] at role
    cases role

/-- A port that is not designated has what it has from the other end. -/
theorem Joined.received {a b : ι × Nat} {p q : Port} (h : N.Joined a b p q)
    (hrole : p.role ≠ .designatedPort) : p.infoIs = .received := by
  rcases h.cases with ⟨role, -⟩ | ⟨-, info, -⟩ | ⟨-, info, -⟩
  · exact absurd role hrole
  · exact info
  · exact info

theorem Joined.toldRole {a b : ι × Nat} {p q : Port} (h : N.Joined a b p q)
    (hrole : p.role = .designatedPort) : p.toldRole = rstpPortRoleDesgn := by
  have hselected := (N.rests a.1).rests.role_eq (mem_of_port? h.left).1 h.quiet.up
  rw [Port.toldRole]
  split
  · rw [← hselected, hrole]
    rfl
  · rfl

/-- What a port has from the other end is what the other end stands for. -/
theorem Joined.told {a b : ι × Nat} {p q : Port} (h : N.Joined a b p q) (hinfo : p.infoIs = .received) :
    q.role = .designatedPort ∧
      p.portPrio = createVector (N.root b.1) (N.bridge b.1).rootPrio.rootPathCost (N.bridge b.1).brId
        q.portId p.portId := by
  obtain ⟨hrole, hheard⟩ := h.quiet.fresh hinfo
  refine ⟨hrole, ?_⟩
  rw [portPrio_of_heard (N.version a.1) h.quiet.part hheard, h.symm.of_designated hrole]
  rfl

/-- What the root port of a bridge says of the bridge. -/
theorem Joined.of_root {a b : ι × Nat} {p q : Port} (h : N.Joined a b p q)
    (hroot : (N.bridge a.1).rootPrio = rootPathPrio p) (hinfo : p.infoIs = .received) :
    N.root a.1 = N.root b.1 ∧ N.cost a.1 = p.operPCost.toNat + N.cost b.1 := by
  have htold := (h.told hinfo).2
  have hcost := toNat_rootPathPrio_cost (small_of_port? h.left).2 hinfo
  refine ⟨?_, ?_⟩
  · rw [Network.root, hroot, rootPathPrio, htold]
    rfl
  · rw [Network.cost, hroot, hcost, htold, Nat.add_comm]
    rfl

theorem Joined.operPCost_pos {a b : ι × Nat} {p q : Port} (h : N.Joined a b p q) :
    0 < p.operPCost.toNat := by
  obtain ⟨hp, -⟩ := mem_of_port? h.left
  have hstable : p.pcost = .stable := ((N.rests a.1).settled.ports p hp).pcost_stable
  have hne : p.operPCost ≠ 0 := (small_of_port? h.left).1.pcost.resolve_left (by simp [hstable])
  exact Nat.pos_of_ne_zero (fun hzero => hne (UInt32.toNat_inj.mp (hzero.trans rfl)))

/-- What a bridge says is near. -/
theorem near_of_port? {a : ι × Nat} {p : Port} (h : N.port? a = some p) :
    (N.bridge a.1).rootPrio.Near := by
  rcases (goesBest h).source with hown | ⟨r, hr, hoffers, hroot⟩
  · rw [hown]
    exact ownVector_near _
  · have hsmall := (N.rests a.1).reachable.all small_machines small_events portCreate_small r hr
    rw [hroot]
    exact rootPathPrio_near hsmall.2 (offersWay_iff.mp hoffers).2

/-- The two ends of a link are not both designated. -/
theorem Joined.not_both {a b : ι × Nat} {p q : Port} (h : N.Joined a b p q)
    (hp : p.role = .designatedPort) (hq : q.role = .designatedPort) : False := by
  have hpprio := h.of_designated hp
  have hqprio := h.symm.of_designated hq
  have hpcalm := not_better_of_heard (N.version a.1) h.quiet.part (h.symm.toldRole hq) (h.quiet.calm hq)
  have hqcalm := not_better_of_heard (N.version b.1) h.quiet'.part (h.toldRole hp) (h.quiet'.calm hp)
  have hpnear : (designVector (N.bridge a.1) p).Near := near_of_port? h.left
  have hqnear : (designVector (N.bridge b.1) q).Near := near_of_port? h.right
  have hpnear' : PrioVector.Near { designVector (N.bridge a.1) p with bridgePort := q.portId } := hpnear
  have hqnear' : PrioVector.Near { designVector (N.bridge b.1) q with bridgePort := p.portId } := hqnear
  rw [hpprio, hqprio, hqnear'.compare hpnear, PrioVector.key_eq, PrioVector.key_eq] at hpcalm
  rw [hpprio, hqprio, hpnear'.compare hqnear, PrioVector.key_eq, PrioVector.key_eq] at hqcalm
  have hle : (designVector (N.bridge a.1) p).front ≤ (designVector (N.bridge b.1) q).front := by
    have hnot : ¬(designVector (N.bridge b.1) q).front * 2 ^ 16 + p.portId.toNat <
      (designVector (N.bridge a.1) p).front * 2 ^ 16 + p.portId.toNat := hpcalm
    omega
  have hge : (designVector (N.bridge b.1) q).front ≤ (designVector (N.bridge a.1) p).front := by
    have hnot : ¬(designVector (N.bridge a.1) p).front * 2 ^ 16 + q.portId.toNat <
      (designVector (N.bridge b.1) q).front * 2 ^ 16 + q.portId.toNat := hqcalm
    omega
  obtain ⟨hbridge, hport⟩ := PrioVector.eq_of_front (Nat.le_antisymm hle hge)
  -- the two ends would be one port
  have hi : a.1 = b.1 := N.ids hbridge
  have hid : p.portId = q.portId := hport
  have hpown : Names p.portId p.portIndex := (small_of_port? h.left).1.msg.own
  have hqown : Names q.portId q.portIndex := (small_of_port? h.right).1.msg.own
  rw [Names, (mem_of_port? h.left).2] at hpown
  rw [Names, (mem_of_port? h.right).2, ← hid] at hqown
  have hab : a = b := Prod.ext hi (hpown.symm.trans hqown)
  exact N.peer_ne a (hab ▸ h.peer)

/-! ### Frames and ways -/

/-- The hardware of a port passes frames on. -/
def Forwards (N : Network ι) (a : ι × Nat) : Prop := ∃ p, N.port? a = some p ∧ p.hardware = .forwarding

/-- A frame that leaves through `a` comes in at the other end of the link, and leaves that bridge
through `b`, another port. -/
inductive PassesOn (N : Network ι) (a b : ι × Nat) : Prop
  | intro {c : ι × Nat} (peer : N.peer a = some c) (out : N.Forwards a) (into : N.Forwards c)
    (bridge : b.1 = c.1) (other : b ≠ c) (next : N.Forwards b)

/-- A link from a bridge to another, and what it costs. -/
def Crosses (N : Network ι) (i j : ι) (n : Nat) : Prop :=
  ∃ a b p, N.peer a = some b ∧ N.port? a = some p ∧ a.1 = i ∧ b.1 = j ∧ n = p.operPCost.toNat

/-- A bridge that takes itself to be the root. -/
def IsRoot (N : Network ι) (i : ι) : Prop := (N.bridge i).rootPrio = ownVector (N.bridge i)

/-! ### Two bridges with two links -/

instance (s : Stpm) (p q : Port) : Decidable (LinkQuiet s p q) :=
  decidable_of_iff (p.adminNonStp = false ∧ p.portEnabled = true ∧
    (q.role = .designatedPort → heard s q.tells p ≠ .superiorDesignatedInfo) ∧
    (p.infoIs = .received → q.role = .designatedPort ∧ heard s q.tells p = .repeatedDesignatedInfo))
    ⟨fun h => ⟨h.1, h.2.1, h.2.2.1, h.2.2.2⟩, fun h => ⟨h.part, h.up, h.calm, h.fresh⟩⟩

/-- Two bridges whose ports of one number are joined have nothing to learn, and the first link passes
frames on. -/
def pairCheck (a b : Stpm) : Bool :=
  a.rstpVersion && b.rstpVersion && decide (a.brId ≠ b.brId) &&
    a.ports.all (fun p => p.portIndex == 1 || p.portIndex == 2) &&
    b.ports.all (fun p => p.portIndex == 1 || p.portIndex == 2) &&
    [1, 2].all (fun n => (a.port? n).any (fun p => (b.port? n).any (fun q =>
      decide (LinkQuiet a p q) && decide (LinkQuiet b q p)))) &&
    (a.port? 1).any (fun p => p.hardware = .forwarding) &&
    (b.port? 1).any (fun q => q.hardware = .forwarding)

/-- What a designated port of a bridge says that takes itself to be the root. -/
def rootBpdu (mac : Vector UInt8 6) (portId : UInt16) : Bpdu where
  version := bpduVersionRapidId
  bpduType := bpduRstp
  body := setTimes ⟨0, 20, 15, 2⟩ (setVector (createVector ⟨32768, mac⟩ 0 ⟨32768, mac⟩ portId portId)
    { BpduBody.zero with flags := rstpPortRoleDesgn <<< portRoleOffs })

/-- The bridge with the better identifier, after its links have been up for some seconds. -/
def bestEvents : List Event := startUp ++ List.replicate 5 linkUp

/-- The other bridge, which hears of the first. -/
def otherEvents : List Event :=
  startUp ++ [linkUp, .rxBpdu 1 (rootBpdu (localMac 1) 0x8001),
    .rxBpdu 2 (rootBpdu (localMac 1) 0x8002)] ++ List.replicate 4 linkUp

theorem rootBpdu_small (mac : Vector UInt8 6) (portId : UInt16) (n : Nat) :
    Event.SmallCosts (.rxBpdu n (rootBpdu mac portId)) := by
  have hcost : getCost (rootBpdu mac portId).body.rootPathCost = 0 := getCost_setCost 0
  rw [Event.SmallCosts, hcost]
  decide

theorem startUp_small : ∀ x ∈ startUp, Event.SmallCosts x := by
  simp [startUp, Event.SmallCosts]

set_option maxRecDepth 100000 in
theorem exists_pair : ∃ a b, RestsBy Event.SmallCosts a ∧ RestsBy Event.SmallCosts b ∧
    pairCheck a b = true := by
  have hbest : ∀ x ∈ bestEvents, Event.SmallCosts x := by
    intro x hx
    rcases List.mem_append.mp hx with hx | hx
    · exact startUp_small x hx
    · rw [List.eq_of_mem_replicate hx]
      trivial
  have hother : ∀ x ∈ otherEvents, Event.SmallCosts x := by
    intro x hx
    rcases List.mem_append.mp hx with hx | hx
    · rcases List.mem_append.mp hx with hx | hx
      · exact startUp_small x hx
      · simp only [List.mem_cons, List.not_mem_nil, or_false] at hx
        rcases hx with rfl | rfl | rfl
        · trivial
        · exact rootBpdu_small _ _ 1
        · exact rootBpdu_small _ _ 2
    · rw [List.eq_of_mem_replicate hx]
      trivial
  obtain ⟨a, ha, hcheck⟩ := exists_restsBy 200
    (twoPorts_reachable (G := Event.SmallCosts) (localMac 1)) bestEvents linkUp
    (fun a => (run? 200 (twoPorts (localMac 2)) otherEvents).any (fun t =>
      (linkUp.handle t).2 && (step? 200 t linkUp).any (fun b => b.adminState && pairCheck a b)))
    hbest trivial (by decide +kernel)
  obtain ⟨b, hb, hpair⟩ := exists_restsBy 200
    (twoPorts_reachable (G := Event.SmallCosts) (localMac 2)) otherEvents linkUp
    (pairCheck a) hother trivial hcheck
  exact ⟨a, b, ha, hb, hpair⟩

/-- A quiet network of two bridges in which a link passes frames on. -/
theorem exists_network : ∃ N : Network Bool, N.Quiet ∧ (∀ i, (N.bridge i).ports ≠ []) ∧
    (∀ i j, ∃ n, Walks.Way N.Crosses i j n) ∧ N.peer (false, 1) = some (true, 1) ∧
    N.Forwards (false, 1) ∧ N.Forwards (true, 1) := by
  obtain ⟨a, b, ha, hb, hpair⟩ := exists_pair
  simp only [pairCheck, Bool.and_eq_true, decide_eq_true_eq, List.all_eq_true, Bool.or_eq_true,
    beq_iff_eq, List.mem_cons, List.not_mem_nil, or_false, Option.any_eq_true] at hpair
  obtain ⟨⟨⟨⟨⟨⟨⟨hav, hbv⟩, hne⟩, hap⟩, hbp⟩, hlinks⟩, haf⟩, hbf⟩ := hpair
  let bridge : Bool → Stpm := fun i => bif i then b else a
  let peer : Bool × Nat → Option (Bool × Nat) :=
    fun x => if x.2 = 1 ∨ x.2 = 2 then some (!x.1, x.2) else none
  have hpeer : ∀ x y, peer x = some y → (x.2 = 1 ∨ x.2 = 2) ∧ y = (!x.1, x.2) := by
    intro x y hxy
    simp only [peer, Option.ite_none_right_eq_some, Option.some.injEq] at hxy
    exact ⟨hxy.1, hxy.2.symm⟩
  have hlink : ∀ i n, n = 1 ∨ n = 2 → ∃ p q, (bridge i).port? n = some p ∧
      (bridge (!i)).port? n = some q ∧ LinkQuiet (bridge i) p q := by
    intro i n hn
    obtain ⟨p, hp, q, hq, hpq, hqp⟩ := hlinks n hn
    cases i with
    | false => exact ⟨p, q, hp, hq, hpq⟩
    | true => exact ⟨q, p, hq, hp, hqp⟩
  let N : Network Bool :=
    { bridge := bridge
      peer := peer
      rests := by rintro (_ | _) <;> assumption
      version := by rintro (_ | _) <;> assumption
      ids := by
        rintro (_ | _) (_ | _) heq
        · rfl
        · exact absurd heq hne
        · exact absurd heq.symm hne
        · rfl
      peer_symm := by
        intro x y hxy
        obtain ⟨hn, rfl⟩ := hpeer x y hxy
        simp [peer, hn]
      peer_ne := by
        intro x hx
        have heq := (hpeer x x hx).2
        have hfst : x.1 = !x.1 := congrArg Prod.fst heq
        simp at hfst
      ends := by
        intro x y hxy
        obtain ⟨p, -, hp, -⟩ := hlink x.1 x.2 (hpeer x y hxy).1
        rw [hp]
        rfl }
  have hcross : ∀ i, ∃ n, N.Crosses i (!i) n := by
    intro i
    obtain ⟨p, -, hp, -⟩ := hlink i 1 (Or.inl rfl)
    exact ⟨_, (i, 1), (!i, 1), p, rfl, hp, rfl, rfl, rfl⟩
  refine ⟨N, ⟨?_, ?_⟩, ?_, ?_, rfl, ?_, ?_⟩
  · rintro x y p q hxy hp hq
    obtain ⟨hn, rfl⟩ := hpeer x y hxy
    obtain ⟨p', q', hp', hq', hquiet⟩ := hlink x.1 x.2 hn
    have hpp : p' = p := Option.some.inj (hp'.symm.trans hp)
    have hqq : q' = q := Option.some.inj (hq'.symm.trans hq)
    subst hpp hqq
    exact hquiet
  · rintro ⟨i, n⟩ p hp hnone
    obtain ⟨hmem, hpn⟩ := port?_some hp
    have hpn' : p.portIndex = n := hpn
    have hn : n = 1 ∨ n = 2 := by
      rw [← hpn']
      cases i with
      | false => exact hap p hmem
      | true => exact hbp p hmem
    have hsome : N.peer (i, n) = some (!i, n) := if_pos hn
    rw [hsome] at hnone
    cases hnone
  · intro i
    obtain ⟨p, -, hp, -⟩ := hlink i 1 (Or.inl rfl)
    exact List.ne_nil_of_mem (port?_some hp).1
  · intro i j
    by_cases hij : i = j
    · exact ⟨0, hij ▸ .here i⟩
    · obtain ⟨n, hn⟩ := hcross i
      have hj : (!i) = j := by cases i <;> cases j <;> simp_all
      exact ⟨n + 0, hj ▸ .step hn (.here _)⟩
  · exact haf
  · exact hbf

end Network

end Opconn.Rstp
