import Opconn.Rstp.Vector

/-!
# Bridge protocol data units

A port tells its neighbour the vector and the times it stands for.  `STP_VECT_set_vector` and
`STP_set_times` write them into the body of a packet, `STP_VECT_get_vector` and `STP_get_times` read
them at the other end.  A short in memory has its high byte first on the board.
-/

namespace Opconn.Rstp

/-- `BPDU_BODY_T`. -/
structure BpduBody where
  flags : UInt8
  rootId : Vector UInt8 8
  rootPathCost : Vector UInt8 4
  bridgeId : Vector UInt8 8
  portId : Vector UInt8 2
  messageAge : Vector UInt8 2
  maxAge : Vector UInt8 2
  helloTime : Vector UInt8 2
  forwardDelay : Vector UInt8 2
deriving DecidableEq, Repr

/-- The version and the type of `BPDU_HEADER_T`, and the body behind it. -/
structure Bpdu where
  version : UInt8
  bpduType : UInt8
  body : BpduBody
deriving DecidableEq, Repr

/-- `BPDU_TOPO_CHANGE_TYPE`. -/
def bpduTopoChangeType : UInt8 := 0x80

/-- `BPDU_CONFIG_TYPE`. -/
def bpduConfigType : UInt8 := 0x00

/-- `BPDU_RSTP`. -/
def bpduRstp : UInt8 := 0x02

/-- `BPDU_VERSION_ID`. -/
def bpduVersionId : UInt8 := 0x00

/-- `BPDU_VERSION_RAPID_ID`. -/
def bpduVersionRapidId : UInt8 := 0x02

/-- `TOLPLOGY_CHANGE_BIT`. -/
def tolplogyChangeBit : UInt8 := 0x01

/-- `PROPOSAL_BIT`. -/
def proposalBit : UInt8 := 0x02

/-- `PORT_ROLE_OFFS`. -/
def portRoleOffs : UInt8 := 2

/-- `PORT_ROLE_MASK`. -/
def portRoleMask : UInt8 := 0x0c

/-- `LEARN_BIT`. -/
def learnBit : UInt8 := 0x10

/-- `FORWARD_BIT`. -/
def forwardBit : UInt8 := 0x20

/-- `AGREEMENT_BIT`. -/
def agreementBit : UInt8 := 0x40

/-- `TOLPLOGY_CHANGE_ACK_BIT`. -/
def tolplogyChangeAckBit : UInt8 := 0x80

/-- `RSTP_PORT_ROLE_UNKN`. -/
def rstpPortRoleUnkn : UInt8 := 0

/-- `RSTP_PORT_ROLE_ALTBACK`. -/
def rstpPortRoleAltback : UInt8 := 1

/-- `RSTP_PORT_ROLE_ROOT`. -/
def rstpPortRoleRoot : UInt8 := 2

/-- `RSTP_PORT_ROLE_DESGN`. -/
def rstpPortRoleDesgn : UInt8 := 3

/-! ### Vectors -/

/-- A short in memory. -/
def getShort (high low : UInt8) : UInt16 := high.toUInt16 * 256 + low.toUInt16

/-- `stp_vect_get_bridge_id`. -/
def getBridgeId (b : Vector UInt8 8) : BridgeId :=
  ⟨getShort b[0] b[1], #v[b[2], b[3], b[4], b[5], b[6], b[7]]⟩

/-- `stp_vect_set_bridge_id`. -/
def setBridgeId (b : BridgeId) : Vector UInt8 8 :=
  #v[(b.prio >>> 8).toUInt8, b.prio.toUInt8, b.addr[0], b.addr[1], b.addr[2], b.addr[3], b.addr[4],
    b.addr[5]]

def getCost (b : Vector UInt8 4) : UInt32 :=
  b[0].toUInt32 <<< 24 + b[1].toUInt32 <<< 16 + b[2].toUInt32 <<< 8 + b[3].toUInt32

def setCost (c : UInt32) : Vector UInt8 4 :=
  #v[(c >>> 24).toUInt8, (c >>> 16).toUInt8, (c >>> 8).toUInt8, c.toUInt8]

/-- `stp_vect_set_short`. -/
def setShort (f : UInt16) : Vector UInt8 2 := #v[(f >>> 8).toUInt8, f.toUInt8]

/-- `STP_VECT_get_vector`, and the field that it leaves as it is. -/
def getVector (b : BpduBody) (bridgePort : UInt16) : PrioVector where
  rootBridge := getBridgeId b.rootId
  rootPathCost := getCost b.rootPathCost
  designBridge := getBridgeId b.bridgeId
  designPort := getShort b.portId[0] b.portId[1]
  bridgePort := bridgePort

/-- `STP_VECT_set_vector`. -/
def setVector (v : PrioVector) (b : BpduBody) : BpduBody :=
  { b with
    rootId := setBridgeId v.rootBridge
    rootPathCost := setCost v.rootPathCost
    bridgeId := setBridgeId v.designBridge
    portId := setShort v.designPort }

/-! ### Times -/

/-- `STP_COPY_TIME`: the quotient of the short in memory. -/
def copyTime (f : Vector UInt8 2) : UInt16 := getShort f[0] f[1] / 256

/-- `STP_get_times`. -/
def getTimes (b : BpduBody) : TimeValues where
  messageAge := copyTime b.messageAge
  maxAge := copyTime b.maxAge
  forwardDelay := copyTime b.forwardDelay
  helloTime := copyTime b.helloTime

/-- `STP_set_times`. -/
def setTimes (v : TimeValues) (b : BpduBody) : BpduBody :=
  { b with
    messageAge := setShort (v.messageAge * 256)
    maxAge := setShort (v.maxAge * 256)
    forwardDelay := setShort (v.forwardDelay * 256)
    helloTime := setShort (v.helloTime * 256) }

/-! ### What arrives -/

theorem toNat_getShort (high low : UInt8) :
    (getShort high low).toNat = high.toNat * 256 + low.toNat := by
  have hhigh := high.toNat_lt
  have hlow := low.toNat_lt
  rw [getShort, UInt16.toNat_add, UInt16.toNat_mul, UInt8.toNat_toUInt16, UInt8.toNat_toUInt16]
  have h256 : (256 : UInt16).toNat = 256 := rfl
  rw [h256]
  omega

theorem toNat_highByte (f : UInt16) : (f >>> 8).toUInt8.toNat = f.toNat / 256 := by
  have hf := f.toNat_lt
  have h8 : (8 : UInt16).toNat % 16 = 8 := rfl
  rw [UInt16.toNat_toUInt8, UInt16.toNat_shiftRight, h8, Nat.shiftRight_eq_div_pow]
  omega

theorem getShort_setShort (f : UInt16) : getShort (setShort f)[0] (setShort f)[1] = f := by
  apply UInt16.toNat_inj.mp
  change (getShort (f >>> 8).toUInt8 f.toUInt8).toNat = f.toNat
  rw [toNat_getShort, toNat_highByte, UInt16.toNat_toUInt8]
  omega

theorem getBridgeId_setBridgeId (b : BridgeId) : getBridgeId (setBridgeId b) = b := by
  have hprio : getShort (setBridgeId b)[0] (setBridgeId b)[1] = b.prio := getShort_setShort b.prio
  have haddr : #v[(setBridgeId b)[2], (setBridgeId b)[3], (setBridgeId b)[4], (setBridgeId b)[5],
      (setBridgeId b)[6], (setBridgeId b)[7]] = b.addr := by
    apply Vector.ext
    intro i hi
    rcases i with _ | _ | _ | _ | _ | _ | i
    · rfl
    · rfl
    · rfl
    · rfl
    · rfl
    · rfl
    · omega
  rw [getBridgeId, hprio, haddr]

theorem getCost_setCost (c : UInt32) : getCost (setCost c) = c := by
  have hc := c.toNat_lt
  have h24 : (24 : UInt32).toNat % 32 = 24 := rfl
  have h16 : (16 : UInt32).toNat % 32 = 16 := rfl
  have h8 : (8 : UInt32).toNat % 32 = 8 := rfl
  apply UInt32.toNat_inj.mp
  change ((c >>> 24).toUInt8.toUInt32 <<< 24 + (c >>> 16).toUInt8.toUInt32 <<< 16 +
    (c >>> 8).toUInt8.toUInt32 <<< 8 + c.toUInt8.toUInt32).toNat = c.toNat
  simp only [UInt32.toNat_add, UInt32.toNat_shiftLeft, UInt8.toNat_toUInt32, UInt32.toNat_toUInt8,
    UInt32.toNat_shiftRight, h24, h16, h8, Nat.shiftRight_eq_div_pow, Nat.shiftLeft_eq]
  omega

/-- The vector of a body, the receiving port in the last field. -/
theorem getVector_setVector (v : PrioVector) (b : BpduBody) (bridgePort : UInt16) :
    getVector (setVector v b) bridgePort = { v with bridgePort := bridgePort } := by
  have hport : getShort (setShort v.designPort)[0] (setShort v.designPort)[1] = v.designPort :=
    getShort_setShort v.designPort
  simp only [getVector, setVector, getBridgeId_setBridgeId, getCost_setCost, hport]

theorem copyTime_setShort (t : UInt16) : (copyTime (setShort (t * 256))).toNat = t.toNat % 256 := by
  have ht := t.toNat_lt
  have h256 : (256 : UInt16).toNat = 256 := rfl
  rw [copyTime, getShort_setShort, UInt16.toNat_div, UInt16.toNat_mul, h256]
  omega

theorem copyTime_setShort_eq_iff (t : UInt16) :
    copyTime (setShort (t * 256)) = t ↔ t.toNat < 256 := by
  rw [← UInt16.toNat_inj, copyTime_setShort]
  omega

/-- A packet has room for a byte of each time. -/
structure TimeValues.Fit (t : TimeValues) : Prop where
  messageAge : t.messageAge.toNat < 256
  maxAge : t.maxAge.toNat < 256
  forwardDelay : t.forwardDelay.toNat < 256
  helloTime : t.helloTime.toNat < 256

theorem getTimes_setTimes_iff (t : TimeValues) (b : BpduBody) :
    getTimes (setTimes t b) = t ↔ t.Fit := by
  rcases t with ⟨age, maxAge, delay, hello⟩
  simp only [getTimes, setTimes, TimeValues.mk.injEq, copyTime_setShort_eq_iff]
  constructor
  · rintro ⟨hage, hmax, hdelay, hhello⟩
    exact ⟨hage, hmax, hdelay, hhello⟩
  · rintro ⟨hage, hmax, hdelay, hhello⟩
    exact ⟨hage, hmax, hdelay, hhello⟩

end Opconn.Rstp
