import Opconn.Rstp.BestWay

/-!
# What arrives at the other end

A designated port tells its neighbour what it stands for, `txRstp` or `txConfig` by the protocol that
it speaks; the neighbour takes the packet in and looks at it.  What it then has in hand is what the
port had.
-/

namespace Opconn.Rstp

/-- The packet of a designated port. -/
def Port.tells (q : Port) : Bpdu := if q.sendRSTP then txRstp q else txConfig q

/-- A port that has taken a packet in and has looked at it. -/
def lookAt (s : Stpm) (bpdu : Bpdu) (p : Port) : Port :=
  infoEnterState s .receive (infoRxBpdu s bpdu p)

/-- What a port makes of a packet. -/
def heard (s : Stpm) (bpdu : Bpdu) (p : Port) : PortInfo := (lookAt s bpdu p).rcvdInfo

/-! ### Flags -/

/-- The flags of a packet by what they say. -/
structure ToldFlags (flags role : UInt8) (tc ack agree proposing learning forwarding : Bool) : Prop where
  role : (flags &&& portRoleMask) >>> portRoleOffs = role
  topologyChange : flags &&& tolplogyChangeBit ≠ 0 ↔ tc = true
  topologyChangeAck : flags &&& tolplogyChangeAckBit ≠ 0 ↔ ack = true
  agreement : flags &&& agreementBit ≠ 0 ↔ agree = true
  proposal : flags &&& proposalBit ≠ 0 ↔ proposing = true
  learning : flags &&& learnBit ≠ 0 ↔ learning = true
  forwarding : flags &&& forwardBit ≠ 0 ↔ forwarding = true

theorem rstpFlags_tells (role : PortRole) (tc agree proposing learning forwarding : Bool) :
    ToldFlags ((flagBit tc tolplogyChangeBit ||| flagBit false tolplogyChangeAckBit) |||
      (rstpPortRole role <<< portRoleOffs) ||| flagBit agree agreementBit |||
      flagBit proposing proposalBit ||| flagBit learning learnBit ||| flagBit forwarding forwardBit)
      (rstpPortRole role) tc false agree proposing learning forwarding := by
  constructor
  all_goals
    revert tc agree proposing learning forwarding
    cases role <;> decide

theorem configFlags_tells (tc ack : Bool) :
    ToldFlags (flagBit tc tolplogyChangeBit ||| flagBit ack tolplogyChangeAckBit) 0 tc ack false false
      false false := by
  constructor
  all_goals
    revert tc ack
    decide

/-! ### Packets -/

theorem tells_bpduType (q : Port) :
    q.tells.bpduType = if q.sendRSTP then bpduRstp else bpduConfigType := by
  rw [Port.tells]
  split <;> rfl

theorem getVector_tells (q : Port) (bridgePort : UInt16) :
    getVector q.tells.body bridgePort = { q.portPrio with bridgePort := bridgePort } := by
  have hbody : ∀ b : BpduBody, getVector (setTimes q.portTimes (setVector q.portPrio b)) bridgePort =
      { q.portPrio with bridgePort := bridgePort } :=
    fun b => getVector_setVector q.portPrio b bridgePort
  rw [Port.tells]
  split
  · exact hbody { BpduBody.zero with flags := (txRstp q).body.flags }
  · exact hbody _

theorem getTimes_tells_iff (q : Port) : getTimes q.tells.body = q.portTimes ↔ q.portTimes.Fit := by
  rw [Port.tells]
  split
  · exact getTimes_setTimes_iff q.portTimes { BpduBody.zero with flags := (txRstp q).body.flags }
  · exact getTimes_setTimes_iff q.portTimes BpduBody.zero

/-- A port that takes part takes in what its neighbour says. -/
theorem infoRxBpdu_tells {s : Stpm} {p : Port} (hversion : s.rstpVersion = true)
    (hpart : p.adminNonStp = false) (q : Port) :
    infoRxBpdu s q.tells p =
      { p with
        rcvdBpdu := true
        msgBpduVersion := q.tells.version
        msgBpduType := q.tells.bpduType
        msgFlags := q.tells.body.flags
        msgPrio := getVector q.tells.body p.portId
        msgTimes := getTimes q.tells.body } := by
  have htype := tells_bpduType q
  rw [infoRxBpdu]
  cases hsend : q.sendRSTP with
  | true =>
    rw [hsend, if_pos rfl] at htype
    simp only [htype, hversion, hpart, Bool.false_or, Bool.not_true, Bool.and_false]
    rfl
  | false =>
    rw [hsend, if_neg (by decide)] at htype
    simp only [htype, hversion, hpart, Bool.false_or, Bool.not_true, Bool.and_false]
    rfl

/-- The role that a packet says. -/
def Port.toldRole (q : Port) : UInt8 :=
  if q.sendRSTP then rstpPortRole q.selectedRole else rstpPortRoleDesgn

theorem tells_flags (q : Port) :
    ToldFlags q.tells.body.flags (if q.sendRSTP then rstpPortRole q.selectedRole else 0)
      (q.timers.tcWhile != 0) (!q.sendRSTP && q.tcAck) (q.sendRSTP && q.agree)
      (q.sendRSTP && q.proposing) (q.sendRSTP && q.learning) (q.sendRSTP && q.forwarding) := by
  rw [Port.tells]
  cases hsend : q.sendRSTP with
  | true => exact rstpFlags_tells q.selectedRole _ _ _ _ _
  | false => exact configFlags_tells _ q.tcAck

theorem rcvdPortRole_tells {s : Stpm} {p : Port} (hversion : s.rstpVersion = true)
    (hpart : p.adminNonStp = false) (q : Port) :
    rcvdPortRole (infoRxBpdu s q.tells p) = q.toldRole := by
  have htype := tells_bpduType q
  have hrole := (tells_flags q).role
  rw [infoRxBpdu_tells hversion hpart, Port.toldRole]
  cases hsend : q.sendRSTP with
  | true =>
    rw [hsend, if_pos rfl] at htype hrole
    simp only [rcvdPortRole, htype, if_true]
    exact hrole
  | false =>
    rw [hsend, if_neg (by decide)] at htype
    simp only [rcvdPortRole, htype]
    rfl

/-- **The round trip of a link.**  When a port that takes part has looked at what its neighbour says,
it has in hand the vector of the neighbour with its own number in the last field, the role, and every
flag that the protocol has; and it has the times, exactly when they fit into a packet. -/
theorem link_round_trip {s : Stpm} {p : Port} (hversion : s.rstpVersion = true)
    (hpart : p.adminNonStp = false) (q : Port) :
    (lookAt s q.tells p).msgPrio = { q.portPrio with bridgePort := p.portId } ∧
      ((lookAt s q.tells p).msgTimes = q.portTimes ↔ q.portTimes.Fit) ∧
      (lookAt s q.tells p).msgPortRole = q.toldRole ∧
      ToldFlags (lookAt s q.tells p).msgFlags (if q.sendRSTP then rstpPortRole q.selectedRole else 0)
        (q.timers.tcWhile != 0) (!q.sendRSTP && q.tcAck) (q.sendRSTP && q.agree)
        (q.sendRSTP && q.proposing) (q.sendRSTP && q.learning) (q.sendRSTP && q.forwarding) := by
  have hrole := rcvdPortRole_tells hversion hpart q
  have htaken := infoRxBpdu_tells hversion hpart q
  refine ⟨?_, ?_, hrole, ?_⟩
  · rw [lookAt, htaken]
    exact getVector_tells q p.portId
  · rw [lookAt, htaken]
    exact getTimes_tells_iff q
  · rw [lookAt, htaken]
    exact tells_flags q

/-- The packet of a port that has just been created, heard by the second port of another bridge. -/
theorem link_round_trip_created :
    (twoPorts (localMac 2)).rstpVersion = true ∧
      (lookAt (twoPorts (localMac 2)) (portCreate ⟨0, 20, 15, 2⟩ 1).tells
        { portCreate ⟨0, 20, 15, 2⟩ 2 with adminNonStp := false }).msgPortRole = rstpPortRoleDesgn :=
  ⟨by decide, (link_round_trip (by decide) rfl (portCreate ⟨0, 20, 15, 2⟩ 1)).2.2.1⟩

/-! ### What a port makes of a packet -/

theorem rcvInfo_superior {p : Port} (hrole : p.msgPortRole = rstpPortRoleDesgn)
    (hprio : compareVector p.msgPrio p.portPrio < 0) : rcvInfo p = .superiorDesignatedInfo := by
  rw [rcvInfo, if_pos (by simp [hrole, hprio])]

theorem rcvInfo_repeated {p : Port} (h : rcvInfo p = .repeatedDesignatedInfo) :
    p.msgPrio = p.portPrio := by
  rw [rcvInfo] at h
  split at h
  · cases h
  · split at h
    · next hrepeated =>
      rw [Bool.and_eq_true, Bool.and_eq_true] at hrepeated
      exact (compareVector_eq_zero_iff _ _).mp (by simpa using hrepeated.1.2)
    · split at h
      · cases h
      · split at h <;> cases h

section Heard

variable {s : Stpm} {p q : Port} (hversion : s.rstpVersion = true) (hpart : p.adminNonStp = false)
include hversion hpart

/-- The port that looks at the packet, before it says what it makes of it. -/
theorem heard_eq : heard s q.tells p = rcvInfo
    { p with
      rcvdBpdu := true
      msgBpduVersion := q.tells.version
      msgBpduType := q.tells.bpduType
      msgFlags := q.tells.body.flags
      msgPrio := { q.portPrio with bridgePort := p.portId }
      msgTimes := getTimes q.tells.body
      msgPortRole := q.toldRole } := by
  have hrole := rcvdPortRole_tells hversion hpart q
  have htaken := infoRxBpdu_tells hversion hpart q
  rw [heard, lookAt, infoEnterState]
  simp only [hrole]
  rw [htaken, getVector_tells]

/-- A port that is not told anything better. -/
theorem not_better_of_heard (hrole : q.toldRole = rstpPortRoleDesgn)
    (h : heard s q.tells p ≠ .superiorDesignatedInfo) :
    ¬compareVector { q.portPrio with bridgePort := p.portId } p.portPrio < 0 := by
  intro hprio
  rw [heard_eq hversion hpart] at h
  exact h (rcvInfo_superior hrole hprio)

/-- A port that is told what it has. -/
theorem portPrio_of_heard (h : heard s q.tells p = .repeatedDesignatedInfo) :
    p.portPrio = { q.portPrio with bridgePort := p.portId } := by
  rw [heard_eq hversion hpart] at h
  exact (rcvInfo_repeated h).symm

end Heard

end Opconn.Rstp
