import Opconn.Lib.ByteWord

/-!
# Priority vectors

Bridges that speak the rapid spanning tree protocol tell each other how good their way to the root
is.  `STP_VECT_compare_vector` compares two such vectors field by field; the costs of the ways are
compared by the sign of a difference of 32 bits.
-/

namespace Opconn.Rstp

open ByteWord

/-- `BRIDGE_ID`. -/
structure BridgeId where
  prio : UInt16
  addr : Vector UInt8 6
deriving DecidableEq, Repr

/-- `PRIO_VECTOR_T`. -/
structure PrioVector where
  rootBridge : BridgeId
  rootPathCost : UInt32
  designBridge : BridgeId
  designPort : UInt16
  bridgePort : UInt16
deriving DecidableEq, Repr

/-- `TIMEVALUES_T`. -/
structure TimeValues where
  messageAge : UInt16
  maxAge : UInt16
  forwardDelay : UInt16
  helloTime : UInt16
deriving DecidableEq, Repr

/-- `memcmp`: the first bytes that differ decide. -/
def memcmp : List UInt8 → List UInt8 → Int
  | a :: as, b :: bs => if a = b then memcmp as bs else (a.toNat : Int) - b.toNat
  | _, _ => 0

/-- `STP_VECT_compare_bridge_id`. -/
def compareBridgeId (b1 b2 : BridgeId) : Int :=
  if b1.prio < b2.prio then -1
  else if b2.prio < b1.prio then 1
  else memcmp b1.addr.toList b2.addr.toList

/-- `STP_VECT_compare_vector`.  A `long` has 32 bits on the board, as has the result. -/
def compareVector (v1 v2 : PrioVector) : Int :=
  if compareBridgeId v1.rootBridge v2.rootBridge ≠ 0 then
    compareBridgeId v1.rootBridge v2.rootBridge
  else if v1.rootPathCost ≠ v2.rootPathCost then (v1.rootPathCost - v2.rootPathCost).toBitVec.toInt
  else if compareBridgeId v1.designBridge v2.designBridge ≠ 0 then
    compareBridgeId v1.designBridge v2.designBridge
  else if v1.designPort ≠ v2.designPort then (v1.designPort.toNat : Int) - v2.designPort.toNat
  else (v1.bridgePort.toNat : Int) - v2.bridgePort.toNat

/-- `STP_compare_times`. -/
def compareTimes (t1 t2 : TimeValues) : Int :=
  if t1.messageAge < t2.messageAge then -1
  else if t2.messageAge < t1.messageAge then 1
  else if t1.maxAge < t2.maxAge then -2
  else if t2.maxAge < t1.maxAge then 2
  else if t1.forwardDelay < t2.forwardDelay then -3
  else if t2.forwardDelay < t1.forwardDelay then 3
  else if t1.helloTime < t2.helloTime then -4
  else if t2.helloTime < t1.helloTime then 4
  else 0

/-- `STP_VECT_create`. -/
def createVector (rootBr : BridgeId) (rootPathCost : UInt32) (designBridge : BridgeId)
    (designPort bridgePort : UInt16) : PrioVector :=
  ⟨rootBr, rootPathCost, designBridge, designPort, bridgePort⟩

/-! ### The order of vectors -/

/-- The number that a bridge identifier stands for. -/
def BridgeId.key (b : BridgeId) : Nat := b.prio.toNat * 2 ^ 48 + number b.addr.toList

/-- The number that a vector stands for: the smaller, the better. -/
def PrioVector.key (v : PrioVector) : Nat :=
  (((v.rootBridge.key * 2 ^ 32 + v.rootPathCost.toNat) * 2 ^ 64 + v.designBridge.key) * 2 ^ 16 +
    v.designPort.toNat) * 2 ^ 16 + v.bridgePort.toNat

/-- **The cost window.**  Two vectors of one root are told apart by their costs when these are less
than half the range of a word apart. -/
def CostsClose (v1 v2 : PrioVector) : Prop :=
  v1.rootBridge = v2.rootBridge →
    v1.rootPathCost.toNat < v2.rootPathCost.toNat + 2 ^ 31 ∧
      v2.rootPathCost.toNat ≤ v1.rootPathCost.toNat + 2 ^ 31

theorem number_injective_of_length {as bs : List UInt8} (hlen : as.length = bs.length)
    (h : number as = number bs) : as = bs := by
  induction as using List.reverseRecOn generalizing bs with
  | nil => exact (List.eq_nil_of_length_eq_zero hlen.symm).symm
  | append_singleton as a ih =>
    rcases List.eq_nil_or_concat bs with rfl | ⟨bs, b, rfl⟩
    · simp at hlen
    · rw [List.concat_eq_append] at hlen h ⊢
      rw [number_append, number_append] at h
      have ha := a.toNat_lt
      have hb := b.toNat_lt
      have hlast : a = b := UInt8.toNat_inj.mp (by omega)
      have hfront : as = bs := ih (by simpa using hlen) (by omega)
      rw [hfront, hlast]

/-- Strings of one length are compared as the numbers that they stand for. -/
theorem memcmp_neg_iff {as bs : List UInt8} (hlen : as.length = bs.length) :
    memcmp as bs < 0 ↔ number as < number bs := by
  induction as generalizing bs with
  | nil =>
    rw [List.eq_nil_of_length_eq_zero hlen.symm]
    simp [memcmp]
  | cons a as ih =>
    cases bs with
    | nil => cases hlen
    | cons b bs =>
      have hrest : as.length = bs.length := Nat.succ.inj hlen
      have hA := number_lt as
      have hB := number_lt bs
      have hnumA : number (a :: as) = a.toNat * 2 ^ (8 * as.length) + number as := by
        have hsplit := number_append_list [a] as
        simpa [number] using hsplit
      have hnumB : number (b :: bs) = b.toNat * 2 ^ (8 * as.length) + number bs := by
        have hsplit := number_append_list [b] bs
        rw [hrest]
        simpa [number] using hsplit
      rw [← hrest] at hB
      by_cases hab : a = b
      · rw [memcmp, if_pos hab, ih hrest, hnumA, hnumB, hab]
        omega
      · have hne : a.toNat ≠ b.toNat := mt UInt8.toNat_inj.mp hab
        rw [memcmp, if_neg hab, hnumA, hnumB]
        rcases Nat.lt_or_gt_of_ne hne with hlt | hgt
        · have hmul : (a.toNat + 1) * 2 ^ (8 * as.length) ≤ b.toNat * 2 ^ (8 * as.length) :=
            Nat.mul_le_mul_right _ hlt
          rw [Nat.add_mul] at hmul
          omega
        · have hmul : (b.toNat + 1) * 2 ^ (8 * as.length) ≤ a.toNat * 2 ^ (8 * as.length) :=
            Nat.mul_le_mul_right _ hgt
          rw [Nat.add_mul] at hmul
          omega

theorem memcmp_eq_zero_iff {as bs : List UInt8} (hlen : as.length = bs.length) :
    memcmp as bs = 0 ↔ as = bs := by
  induction as generalizing bs with
  | nil => simp [memcmp, List.eq_nil_of_length_eq_zero hlen.symm]
  | cons a as ih =>
    cases bs with
    | nil => cases hlen
    | cons b bs =>
      by_cases hab : a = b
      · rw [memcmp, if_pos hab, ih (Nat.succ.inj hlen), hab, List.cons.injEq, and_iff_right rfl]
      · have hne : a.toNat ≠ b.toNat := mt UInt8.toNat_inj.mp hab
        rw [memcmp, if_neg hab]
        simp only [List.cons.injEq, hab, false_and, iff_false]
        omega

theorem BridgeId.number_lt (b : BridgeId) : number b.addr.toList < 2 ^ 48 := by
  have hlt := ByteWord.number_lt b.addr.toList
  simpa using hlt

theorem BridgeId.key_lt (b : BridgeId) : b.key < 2 ^ 64 := by
  have haddr := b.number_lt
  have hprio := b.prio.toNat_lt
  rw [BridgeId.key]
  omega

theorem BridgeId.key_injective {b1 b2 : BridgeId} (h : b1.key = b2.key) : b1 = b2 := by
  have h1 := b1.number_lt
  have h2 := b2.number_lt
  rw [BridgeId.key, BridgeId.key] at h
  have hprio : b1.prio = b2.prio := UInt16.toNat_inj.mp (by omega)
  have haddr : b1.addr.toList = b2.addr.toList :=
    number_injective_of_length (by simp) (by omega)
  rcases b1 with ⟨p1, a1⟩
  rcases b2 with ⟨p2, a2⟩
  simp only [BridgeId.mk.injEq]
  exact ⟨hprio, Vector.toList_inj.mp haddr⟩

theorem compareBridgeId_neg_iff (b1 b2 : BridgeId) :
    compareBridgeId b1 b2 < 0 ↔ b1.key < b2.key := by
  have h1 := b1.number_lt
  have h2 := b2.number_lt
  rw [compareBridgeId, BridgeId.key, BridgeId.key]
  by_cases hlt : b1.prio < b2.prio
  · have hnat : b1.prio.toNat < b2.prio.toNat := hlt
    rw [if_pos hlt]
    omega
  · have hnat : ¬b1.prio.toNat < b2.prio.toNat := hlt
    rw [if_neg hlt]
    by_cases hgt : b2.prio < b1.prio
    · have hnat' : b2.prio.toNat < b1.prio.toNat := hgt
      rw [if_pos hgt]
      omega
    · have hnat' : ¬b2.prio.toNat < b1.prio.toNat := hgt
      rw [if_neg hgt, memcmp_neg_iff (by simp)]
      omega

theorem compareBridgeId_eq_zero_iff (b1 b2 : BridgeId) : compareBridgeId b1 b2 = 0 ↔ b1 = b2 := by
  rw [compareBridgeId]
  constructor
  · intro h
    by_cases hlt : b1.prio < b2.prio
    · rw [if_pos hlt] at h
      cases h
    · by_cases hgt : b2.prio < b1.prio
      · rw [if_neg hlt, if_pos hgt] at h
        cases h
      · rw [if_neg hlt, if_neg hgt, memcmp_eq_zero_iff (by simp)] at h
        have hprio : b1.prio = b2.prio := by
          apply UInt16.toNat_inj.mp
          have hlt' : ¬b1.prio.toNat < b2.prio.toNat := hlt
          have hgt' : ¬b2.prio.toNat < b1.prio.toNat := hgt
          omega
        rcases b1 with ⟨p1, a1⟩
        rcases b2 with ⟨p2, a2⟩
        simp only [BridgeId.mk.injEq]
        exact ⟨hprio, Vector.toList_inj.mp h⟩
  · rintro rfl
    rw [if_neg (UInt16.lt_irrefl _), if_neg (UInt16.lt_irrefl _), memcmp_eq_zero_iff rfl]

theorem compareBridgeId_self (b : BridgeId) : compareBridgeId b b = 0 :=
  (compareBridgeId_eq_zero_iff b b).mpr rfl

/-- The sign of the difference of two costs. -/
theorem costDiff_neg_iff (c1 c2 : UInt32) :
    (c1 - c2).toBitVec.toInt < 0 ↔
      (c1.toNat < c2.toNat ∧ c2.toNat ≤ c1.toNat + 2 ^ 31) ∨ c2.toNat + 2 ^ 31 ≤ c1.toNat := by
  have h1 := c1.toNat_lt
  have h2 := c2.toNat_lt
  have hdiff : (c1 - c2).toBitVec.toNat = (2 ^ 32 - c2.toNat + c1.toNat) % 2 ^ 32 := rfl
  rw [BitVec.toInt_eq_toNat_cond, hdiff]
  split <;> omega

theorem PrioVector.key_injective {v1 v2 : PrioVector} (h : v1.key = v2.key) : v1 = v2 := by
  have hd1 := v1.designBridge.key_lt
  have hd2 := v2.designBridge.key_lt
  have hc1 := v1.rootPathCost.toNat_lt
  have hc2 := v2.rootPathCost.toNat_lt
  have hp1 := v1.designPort.toNat_lt
  have hp2 := v2.designPort.toNat_lt
  have hb1 := v1.bridgePort.toNat_lt
  have hb2 := v2.bridgePort.toNat_lt
  rw [PrioVector.key, PrioVector.key] at h
  have hroot : v1.rootBridge = v2.rootBridge := BridgeId.key_injective (by omega)
  have hcost : v1.rootPathCost = v2.rootPathCost := UInt32.toNat_inj.mp (by omega)
  have hdesign : v1.designBridge = v2.designBridge := BridgeId.key_injective (by omega)
  have hport : v1.designPort = v2.designPort := UInt16.toNat_inj.mp (by omega)
  have hbridge : v1.bridgePort = v2.bridgePort := UInt16.toNat_inj.mp (by omega)
  rcases v1 with ⟨r1, c1, d1, p1, b1⟩
  rcases v2 with ⟨r2, c2, d2, p2, b2⟩
  simp only [PrioVector.mk.injEq]
  exact ⟨hroot, hcost, hdesign, hport, hbridge⟩

theorem compareVector_eq_zero_iff (v1 v2 : PrioVector) : compareVector v1 v2 = 0 ↔ v1 = v2 := by
  constructor
  · intro h
    rw [compareVector] at h
    by_cases hroot : compareBridgeId v1.rootBridge v2.rootBridge = 0
    · by_cases hcost : v1.rootPathCost = v2.rootPathCost
      · by_cases hdesign : compareBridgeId v1.designBridge v2.designBridge = 0
        · by_cases hport : v1.designPort = v2.designPort
          · simp only [hroot, hcost, hdesign, hport, ne_eq, not_true_eq_false, if_false] at h
            have hbridge : v1.bridgePort = v2.bridgePort := UInt16.toNat_inj.mp (by omega)
            rw [compareBridgeId_eq_zero_iff] at hroot hdesign
            rcases v1 with ⟨r1, c1, d1, p1, b1⟩
            rcases v2 with ⟨r2, c2, d2, p2, b2⟩
            simp only [PrioVector.mk.injEq]
            exact ⟨hroot, hcost, hdesign, hport, hbridge⟩
          · rw [if_neg (not_not_intro hroot), if_neg (not_not_intro hcost),
              if_neg (not_not_intro hdesign), if_pos hport] at h
            exact absurd (UInt16.toNat_inj.mp (by omega)) hport
        · rw [if_neg (not_not_intro hroot), if_neg (not_not_intro hcost), if_pos hdesign] at h
          exact absurd h hdesign
      · rw [if_neg (not_not_intro hroot), if_pos hcost] at h
        have hzero : v1.rootPathCost - v2.rootPathCost = 0 :=
          UInt32.toBitVec_inj.mp (BitVec.toInt_inj.mp (h.trans rfl))
        exact absurd (by simpa [UInt32.sub_eq_iff_eq_add] using hzero) hcost
    · rw [if_pos hroot] at h
      exact absurd h hroot
  · rintro rfl
    simp [compareVector, compareBridgeId_self]

/-- **The order of vectors.**  The comparison finds the better of two vectors exactly when their
costs do not matter or are close. -/
theorem compareVector_neg_iff (v1 v2 : PrioVector) :
    (compareVector v1 v2 < 0 ↔ v1.key < v2.key) ↔ CostsClose v1 v2 := by
  have hd1 := v1.designBridge.key_lt
  have hd2 := v2.designBridge.key_lt
  have hc1 := v1.rootPathCost.toNat_lt
  have hc2 := v2.rootPathCost.toNat_lt
  have hp1 := v1.designPort.toNat_lt
  have hp2 := v2.designPort.toNat_lt
  have hb1 := v1.bridgePort.toNat_lt
  have hb2 := v2.bridgePort.toNat_lt
  rw [compareVector, PrioVector.key, PrioVector.key, CostsClose]
  by_cases hroot : v1.rootBridge = v2.rootBridge
  · rw [if_neg (not_not_intro ((compareBridgeId_eq_zero_iff _ _).mpr hroot)), hroot]
    by_cases hcost : v1.rootPathCost = v2.rootPathCost
    · rw [if_neg (not_not_intro hcost), hcost]
      by_cases hdesign : v1.designBridge = v2.designBridge
      · rw [if_neg (not_not_intro ((compareBridgeId_eq_zero_iff _ _).mpr hdesign)), hdesign]
        by_cases hport : v1.designPort = v2.designPort
        · rw [if_neg (not_not_intro hport), hport]
          omega
        · have hne : v1.designPort.toNat ≠ v2.designPort.toNat := mt UInt16.toNat_inj.mp hport
          rw [if_pos hport]
          omega
      · have hne : v1.designBridge.key ≠ v2.designBridge.key :=
          fun h => hdesign (BridgeId.key_injective h)
        rw [if_pos (mt (compareBridgeId_eq_zero_iff _ _).mp hdesign), compareBridgeId_neg_iff]
        omega
    · have hne : v1.rootPathCost.toNat ≠ v2.rootPathCost.toNat := mt UInt32.toNat_inj.mp hcost
      rw [if_pos hcost, costDiff_neg_iff]
      simp only [forall_const]
      omega
  · have hne : v1.rootBridge.key ≠ v2.rootBridge.key := fun h => hroot (BridgeId.key_injective h)
    rw [if_pos (mt (compareBridgeId_eq_zero_iff _ _).mp hroot), compareBridgeId_neg_iff]
    simp only [hroot, false_implies, iff_true]
    omega

/-- The number that a vector stands for but for its last field. -/
def PrioVector.front (v : PrioVector) : Nat :=
  ((v.rootBridge.key * 2 ^ 32 + v.rootPathCost.toNat) * 2 ^ 64 + v.designBridge.key) * 2 ^ 16 +
    v.designPort.toNat

theorem PrioVector.key_eq (v : PrioVector) : v.key = v.front * 2 ^ 16 + v.bridgePort.toNat := rfl

/-- A vector that is no worse has no worse a root, and for one root costs no more. -/
theorem PrioVector.le_of_key {v w : PrioVector} (h : v.key ≤ w.key) :
    v.rootBridge.key ≤ w.rootBridge.key ∧
      (v.rootBridge = w.rootBridge → v.rootPathCost.toNat ≤ w.rootPathCost.toNat) := by
  have hd1 := v.designBridge.key_lt
  have hd2 := w.designBridge.key_lt
  have hc1 := v.rootPathCost.toNat_lt
  have hc2 := w.rootPathCost.toNat_lt
  have hp1 := v.designPort.toNat_lt
  have hp2 := w.designPort.toNat_lt
  have hb1 := v.bridgePort.toNat_lt
  have hb2 := w.bridgePort.toNat_lt
  rw [PrioVector.key, PrioVector.key] at h
  refine ⟨by omega, fun hroot => ?_⟩
  rw [hroot] at h
  omega

/-- Vectors that differ in the last field at most. -/
theorem PrioVector.eq_of_front {v w : PrioVector} (h : v.front = w.front) :
    v.designBridge = w.designBridge ∧ v.designPort = w.designPort := by
  have hd1 := v.designBridge.key_lt
  have hd2 := w.designBridge.key_lt
  have hp1 := v.designPort.toNat_lt
  have hp2 := w.designPort.toNat_lt
  rw [PrioVector.front, PrioVector.front] at h
  have hdesign : v.designBridge = w.designBridge := BridgeId.key_injective (by omega)
  have hport : v.designPort = w.designPort := UInt16.toNat_inj.mp (by omega)
  exact ⟨hdesign, hport⟩

/-- Of two vectors of one root the one that costs less is the better. -/
theorem PrioVector.key_le_of_cost {v w : PrioVector} (hroot : w.rootBridge = v.rootBridge)
    (hcost : v.rootPathCost.toNat < w.rootPathCost.toNat) : v.key ≤ w.key := by
  have hd := v.designBridge.key_lt
  have hp := v.designPort.toNat_lt
  have hb := v.bridgePort.toNat_lt
  rw [PrioVector.key, PrioVector.key, hroot]
  omega

theorem compareTimes_eq_zero_iff (t1 t2 : TimeValues) : compareTimes t1 t2 = 0 ↔ t1 = t2 := by
  constructor
  · intro h
    have heq : ∀ {a b : UInt16}, ¬a < b → ¬b < a → a = b :=
      fun hab hba => UInt16.le_antisymm (UInt16.not_lt.mp hba) (UInt16.not_lt.mp hab)
    simp only [compareTimes] at h
    repeat' split at h
    all_goals try cases h
    next h1 h2 h3 h4 h5 h6 h7 h8 =>
      rcases t1 with ⟨age1, max1, delay1, hello1⟩
      rcases t2 with ⟨age2, max2, delay2, hello2⟩
      simp only [TimeValues.mk.injEq]
      exact ⟨heq h1 h2, heq h3 h4, heq h5 h6, heq h7 h8⟩
  · rintro rfl
    simp only [compareTimes, UInt16.lt_irrefl, if_false]

end Opconn.Rstp
