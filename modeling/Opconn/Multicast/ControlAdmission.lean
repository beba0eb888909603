import Mathlib.Algebra.BigOperators.Group.List.Basic
import Mathlib.Algebra.Ring.Nat
import Opconn.Lib.Noting
import Opconn.Multicast.VlanMap

/-!
# Admission of multicast control entries

A request that adds multicast control entries may need entries of the switch's VLAN translation
table, one for each pair of port and VLAN that has none.  `eopl_set_onu_mcast_control_2_0` counts
these pairs in advance, in an array on the stack, and refuses the request when the table is too
small.  This is the check of the boards with an AR8228 or AR8327 switch.
-/

namespace Opconn.Multicast

open Noting

/-! ### The request and the tables -/

/-- `oam_mcast_control_entry_t`. -/
structure ControlEntry where
  portId : UInt16
  vlanId : UInt16
  gda : Vector UInt8 6
deriving DecidableEq, Repr

/-- A multicast control request: its header and its entries. -/
structure ControlRequest where
  width : UInt8
  action : UInt8
  controlType : UInt8
  entries : List ControlEntry
  number_lt : entries.length < 256

/-- Port and VLAN of the entries. -/
def ControlRequest.pairs (r : ControlRequest) : List (UInt16 × UInt16) :=
  r.entries.map fun e => (e.portId, e.vlanId)

/-- What the checks read: the control type, the ports of the multicast groups, the multicast VLANs
and the numbers of VLAN translation entries, of all and of the unicast ones at each port. -/
structure ControlTables where
  ctcControlType : Nat
  hostPortIds : List Nat
  vlans : VlanState
  dalVttNum : UInt8
  dalVlanTranslNum : Nat → UInt8

/-- `ODM_NUM_OF_PORTS`. -/
def odmNumOfPorts : Nat := 4

/-- `SHIVA_MAX_VLAN_TRANS`. -/
def shivaMaxVlanTrans : Nat := 16

/-- `OP_MAX_VLAN_NUMBER`. -/
def opMaxVlanNumber : Nat := 4096

/-- `MC_CTL_GDA_MAC_VID` and `MC_CTL_GDA_GDA_IP_VID`. -/
def controlsVlan (controlType : Nat) : Bool := controlType = 1 || controlType = 3

/-! ### The checks -/

/-- `ctl_entry_num_per_port[port]++` for each of some ports; nothing where a port is outside of
the array. -/
def countPorts (ctlEntryNumPerPort : Nat → UInt8) : List Nat → Option (Nat → UInt8)
  | [] => some ctlEntryNumPerPort
  | port :: ports =>
    if port ≤ odmNumOfPorts then
      countPorts (Function.update ctlEntryNumPerPort port (ctlEntryNumPerPort port + 1)) ports
    else none

/-- The check for at most 64 entries at each port. -/
def portCheck (t : ControlTables) (r : ControlRequest) : Option Bool :=
  if 64 * odmNumOfPorts < t.hostPortIds.length then none
  else
    (countPorts (fun _ => 0) (t.hostPortIds ++ r.pairs.map (·.1.toNat))).map fun counts =>
      (List.range' 1 odmNumOfPorts).all fun port => counts port ≤ 64

/-- The loop over the entries when the control type stays, with `vtt_resource` and `addNumber`;
nothing where a VLAN is outside of `mcVlanMap`. -/
def noteNew (vlans : VlanState) : Notes (UInt16 × UInt16) → List (UInt16 × UInt16) →
    Option (Notes (UInt16 × UInt16))
  | notes, [] => some notes
  | notes, (portId, vlanId) :: entries =>
    if vlanId.toNat < opMaxVlanNumber then
      if mcVlanMapExist vlans portId.toNat vlanId.toNat then noteNew vlans notes entries
      else noteNew vlans (notes.note (portId, vlanId)) entries
    else none

/-- `vttUcNum`: the sum is a byte, and runs over the ports from 0 on. -/
def vttUcNum (t : ControlTables) : UInt8 :=
  (List.range odmNumOfPorts).foldl (fun sum i => sum + t.dalVlanTranslNum i) 0

/-- The check of the VLAN translation table.  `vttResource` is the array as it lies on the
stack. -/
def vttCheck (vttResource : Nat → UInt16 × UInt16) (t : ControlTables) (r : ControlRequest) :
    Option Bool :=
  if t.ctcControlType = r.controlType.toNat then
    (noteNew t.vlans ⟨vttResource, 0⟩ r.pairs).map fun notes =>
      decide (t.dalVttNum.toNat + notes.count ≤ shivaMaxVlanTrans)
  else
    some (decide ((vttUcNum t).toNat + (Notes.noteAll ⟨vttResource, 0⟩ r.pairs).count ≤
      shivaMaxVlanTrans))

/-- A request that adds entries. -/
def ControlRequest.adds (r : ControlRequest) : Bool := r.width ≠ 1 && r.action = 1

/-- Whether `eopl_set_onu_mcast_control_2_0` goes on with a request behind its checks; nothing
when these leave an array. -/
def admits (vttResource : Nat → UInt16 × UInt16) (t : ControlTables) (r : ControlRequest) :
    Option Bool :=
  if r.adds then
    match portCheck t r with
    | none => none
    | some false => some false
    | some true =>
      if controlsVlan t.ctcControlType then vttCheck vttResource t r else some true
  else some true

/-! ### What is asked of them -/

/-- A request with another control type clears the multicast VLANs when the present type has
them. -/
def clears (t : ControlTables) (r : ControlRequest) : Bool :=
  t.ctcControlType ≠ r.controlType.toNat && controlsVlan t.ctcControlType

/-- The VLAN translation entries in use when the request is carried out. -/
def inUse (t : ControlTables) (r : ControlRequest) : Nat :=
  if clears t r then ((List.range' 1 odmNumOfPorts).map fun i => (t.dalVlanTranslNum i).toNat).sum
  else t.dalVttNum.toNat

/-- The pairs of port and VLAN that the request adds. -/
def newPairs (t : ControlTables) (r : ControlRequest) : List (UInt16 × UInt16) :=
  if r.adds then
    r.pairs.filter fun p => clears t r || !mcVlanMapExist t.vlans p.1.toNat p.2.toNat
  else []

/-- The request is admitted exactly when the table has room for the distinct new pairs, whatever
was on the stack. -/
def AdmitsExactly (t : ControlTables) (r : ControlRequest) : Prop :=
  ∀ vttResource, admits vttResource t r =
    some (decide (inUse t r + (newPairs t r).toFinset.card ≤ shivaMaxVlanTrans))

/-! ### When they do it -/

/-- The ports of the groups and of the request are ports of the board, and the groups fit the
array they are copied to. -/
def PortsInside (t : ControlTables) (r : ControlRequest) : Prop :=
  t.hostPortIds.length ≤ 64 * odmNumOfPorts ∧
    ∀ port ∈ t.hostPortIds ++ r.pairs.map (·.1.toNat), port ≤ odmNumOfPorts

/-- The entries at a port, in the table and in the request. -/
def entriesAt (t : ControlTables) (r : ControlRequest) (port : Nat) : Nat :=
  (t.hostPortIds ++ r.pairs.map (·.1.toNat)).count port

/-- Some port has more than 64 entries, as a byte counts them. -/
def Crowded (t : ControlTables) (r : ControlRequest) : Prop :=
  ∃ port, 1 ≤ port ∧ port ≤ odmNumOfPorts ∧ 64 < entriesAt t r port % 256

/-- What the check takes as in use. -/
def countedInUse (t : ControlTables) (r : ControlRequest) : Nat :=
  if clears t r then
    ((List.range odmNumOfPorts).map fun i => (t.dalVlanTranslNum i).toNat).sum % 256
  else t.dalVttNum.toNat

/-- The check of the translation table decides as it should: the VLANs are inside the map, and
what it counts leads to the right side of the limit with all pairs noted and with the fewest. -/
def TableCheckRight (t : ControlTables) (r : ControlRequest) : Prop :=
  (clears t r = false → ∀ p ∈ r.pairs, p.2.toNat < opMaxVlanNumber) ∧
    if inUse t r + (newPairs t r).toFinset.card ≤ shivaMaxVlanTrans then
      countedInUse t r + (newPairs t r).toFinset.card ≤ shivaMaxVlanTrans
    else shivaMaxVlanTrans < countedInUse t r + fewest [] none (newPairs t r)

open Classical in
/-- The checks as a whole. -/
def ChecksRight (t : ControlTables) (r : ControlRequest) : Prop :=
  if r.adds then
    PortsInside t r ∧
      if Crowded t r then shivaMaxVlanTrans < inUse t r + (newPairs t r).toFinset.card
      else if controlsVlan t.ctcControlType then TableCheckRight t r
      else inUse t r + (newPairs t r).toFinset.card ≤ shivaMaxVlanTrans
  else inUse t r ≤ shivaMaxVlanTrans

/-! ### The loops -/

theorem countPorts_eq (counts : Nat → UInt8) (ports : List Nat) :
    (∀ port ∈ ports, port ≤ odmNumOfPorts) →
      countPorts counts ports = some fun port => counts port + UInt8.ofNat (ports.count port) := by
  induction ports generalizing counts with
  | nil =>
    intro _
    simp [countPorts]
  | cons first ports ih =>
    intro hall
    rw [List.forall_mem_cons] at hall
    rw [countPorts, if_pos hall.1, ih _ hall.2]
    congr 1
    funext port
    by_cases hport : port = first
    · subst hport
      rw [Function.update_self, List.count_cons_self, UInt8.ofNat_add, UInt8.add_assoc,
        UInt8.add_comm 1]
      rfl
    · rw [Function.update_of_ne hport, List.count_cons_of_ne (Ne.symm hport)]

theorem countPorts_none (counts : Nat → UInt8) {ports : List Nat}
    (h : ¬∀ port ∈ ports, port ≤ odmNumOfPorts) : countPorts counts ports = none := by
  induction ports generalizing counts with
  | nil => exact absurd (fun _ hmem => nomatch hmem) h
  | cons first ports ih =>
    rw [countPorts]
    split
    · next hfirst =>
      apply ih
      intro hall
      exact h (List.forall_mem_cons.mpr ⟨hfirst, hall⟩)
    · rfl

theorem portCheck_eq {t : ControlTables} {r : ControlRequest} (h : PortsInside t r) :
    ∃ ok, portCheck t r = some ok ∧ (ok = false ↔ Crowded t r) := by
  rw [portCheck, if_neg (Nat.not_lt.mpr h.1), countPorts_eq _ _ h.2]
  refine ⟨_, rfl, ?_⟩
  simp only [List.all_eq_false, List.mem_range'_1, decide_eq_true_eq, Crowded, entriesAt,
    UInt8.zero_add, UInt8.not_le, UInt8.lt_iff_toNat_lt, UInt8.toNat_ofNat']
  constructor
  · rintro ⟨port, ⟨hlow, hhigh⟩, hcount⟩
    exact ⟨port, hlow, Nat.le_of_lt_succ (by omega), hcount⟩
  · rintro ⟨port, hlow, hhigh, hcount⟩
    exact ⟨port, ⟨hlow, by omega⟩, hcount⟩

theorem portCheck_none {t : ControlTables} {r : ControlRequest} (h : ¬PortsInside t r) :
    portCheck t r = none := by
  rw [portCheck]
  split
  · rfl
  · next hlength =>
    rw [countPorts_none _ fun hall => h ⟨Nat.le_of_not_lt hlength, hall⟩]
    rfl

theorem noteNew_eq (vlans : VlanState) (notes : Notes (UInt16 × UInt16))
    (entries : List (UInt16 × UInt16)) (h : ∀ p ∈ entries, p.2.toNat < opMaxVlanNumber) :
    noteNew vlans notes entries = some (notes.noteAll
      (entries.filter fun p => !mcVlanMapExist vlans p.1.toNat p.2.toNat)) := by
  induction entries generalizing notes with
  | nil => rfl
  | cons p entries ih =>
    obtain ⟨portId, vlanId⟩ := p
    rw [List.forall_mem_cons] at h
    rw [noteNew, if_pos h.1, List.filter_cons]
    by_cases hexist : mcVlanMapExist vlans portId.toNat vlanId.toNat = true
    · rw [if_pos hexist, ih _ h.2]
      simp [hexist]
    · rw [if_neg hexist, ih _ h.2]
      simp [hexist, Notes.noteAll]

theorem noteNew_none (vlans : VlanState) (notes : Notes (UInt16 × UInt16))
    {entries : List (UInt16 × UInt16)} (h : ¬∀ p ∈ entries, p.2.toNat < opMaxVlanNumber) :
    noteNew vlans notes entries = none := by
  induction entries generalizing notes with
  | nil => exact absurd (fun _ hmem => nomatch hmem) h
  | cons p entries ih =>
    obtain ⟨portId, vlanId⟩ := p
    rw [noteNew]
    split
    · next hvlan =>
      have hrest : ¬∀ p ∈ entries, p.2.toNat < opMaxVlanNumber := by
        intro hall
        exact h (List.forall_mem_cons.mpr ⟨hvlan, hall⟩)
      split
      · exact ih _ hrest
      · exact ih _ hrest
    · rfl

theorem toNat_foldl_add (f : Nat → UInt8) (is : List Nat) (sum : UInt8) :
    (is.foldl (fun sum i => sum + f i) sum).toNat =
      (sum.toNat + (is.map fun i => (f i).toNat).sum) % 256 := by
  induction is generalizing sum with
  | nil =>
    have hlt := sum.toNat_lt
    simp only [List.foldl_nil, List.map_nil, List.sum_nil]
    omega
  | cons i is ih =>
    rw [List.foldl_cons, ih, UInt8.toNat_add, List.map_cons, List.sum_cons]
    omega

/-- The check of the translation table, when the VLANs are inside the map. -/
theorem vttCheck_eq (vttResource : Nat → UInt16 × UInt16) {t : ControlTables}
    {r : ControlRequest} (hadds : r.adds = true) (htype : controlsVlan t.ctcControlType = true)
    (h : clears t r = false → ∀ p ∈ r.pairs, p.2.toNat < opMaxVlanNumber) :
    vttCheck vttResource t r = some (decide (countedInUse t r +
      (Notes.noteAll ⟨vttResource, 0⟩ (newPairs t r)).count ≤ shivaMaxVlanTrans)) := by
  rw [vttCheck, countedInUse, newPairs, if_pos hadds]
  by_cases hsame : t.ctcControlType = r.controlType.toNat
  · have hclears : clears t r = false := by simp [clears, hsame]
    rw [if_pos hsame, noteNew_eq _ _ _ (h hclears), hclears]
    simp
  · have hclears : clears t r = true := by simp [clears, hsame, htype]
    rw [if_neg hsame, hclears, vttUcNum, toNat_foldl_add]
    simp

theorem vttCheck_none (vttResource : Nat → UInt16 × UInt16) {t : ControlTables}
    {r : ControlRequest} (htype : controlsVlan t.ctcControlType = true)
    (h : ¬(clears t r = false → ∀ p ∈ r.pairs, p.2.toNat < opMaxVlanNumber)) :
    vttCheck vttResource t r = none := by
  obtain ⟨hclears, hvlans⟩ := Classical.not_imp.mp h
  have hsame : t.ctcControlType = r.controlType.toNat := by
    by_contra hother
    simp [clears, hother, htype] at hclears
  rw [vttCheck, if_pos hsame, noteNew_none _ _ hvlans]
  rfl

/-! ### The decision -/

/-- The check of the translation table decides right for every stack exactly when it does for the
two bounds of the count. -/
theorem vttCheck_right_iff {t : ControlTables} {r : ControlRequest} (hadds : r.adds = true)
    (htype : controlsVlan t.ctcControlType = true) :
    (∀ vttResource, vttCheck vttResource t r =
      some (decide (inUse t r + (newPairs t r).toFinset.card ≤ shivaMaxVlanTrans))) ↔
    TableCheckRight t r := by
  by_cases hinside : clears t r = false → ∀ p ∈ r.pairs, p.2.toNat < opMaxVlanNumber
  · have htwo : Nontrivial (UInt16 × UInt16) := ⟨(0, 0), (1, 0), by decide⟩
    have hbounds := forall_count_iff (newPairs t r) (countedInUse t r) shivaMaxVlanTrans
      (decide (inUse t r + (newPairs t r).toFinset.card ≤ shivaMaxVlanTrans))
    simp only [vttCheck_eq _ hadds htype hinside, Option.some_inj, hbounds, decide_eq_true_eq]
    exact ⟨fun h => ⟨hinside, h⟩, fun h => h.2⟩
  · refine iff_of_false ?_ fun h => hinside h.1
    intro hall
    have hsome := hall fun _ => (0, 0)
    rw [vttCheck_none _ htype hinside] at hsome
    cases hsome

/-- Requests are admitted by the room in the table exactly when the checks are right about them. -/
theorem admitsExactly_iff (t : ControlTables) (r : ControlRequest) :
    AdmitsExactly t r ↔ ChecksRight t r := by
  by_cases hadds : r.adds = true
  · rw [ChecksRight, if_pos hadds]
    by_cases hports : PortsInside t r
    · obtain ⟨ok, hcheck, hok⟩ := portCheck_eq hports
      rw [and_iff_right hports, AdmitsExactly]
      simp only [admits, if_pos hadds, hcheck]
      cases ok with
      | false =>
        rw [if_pos (hok.mp rfl)]
        simp
      | true =>
        have hfree : ¬Crowded t r := fun hcrowded => nomatch hok.mpr hcrowded
        rw [if_neg hfree]
        by_cases htype : controlsVlan t.ctcControlType = true
        · simp only [if_pos htype]
          exact vttCheck_right_iff hadds htype
        · simp only [if_neg htype]
          simp
    · refine iff_of_false ?_ fun h => hports h.1
      intro hall
      have hsome := hall fun _ => (0, 0)
      rw [admits, if_pos hadds, portCheck_none hports] at hsome
      cases hsome
  · rw [ChecksRight, if_neg hadds, AdmitsExactly]
    have hnone : newPairs t r = [] := by rw [newPairs, if_neg hadds]
    simp only [admits, if_neg hadds, hnone]
    simp

/-! ### Two stacks -/

/-- Tables with an entry for each of the first sixteen VLANs at port 1. -/
def fullTables : ControlTables where
  ctcControlType := 1
  hostPortIds := []
  vlans := ⟨fun _ => none, fun _ _ => false, fun _ _ => false, false⟩
  dalVttNum := 16
  dalVlanTranslNum := fun i => if i = 1 then 16 else 0

/-- A request for VLAN 100 at port 2. -/
def oneMore : ControlRequest where
  width := 20
  action := 1
  controlType := 1
  entries := [⟨2, 100, #v[0x01, 0x00, 0x5e, 0x01, 0x01, 0x01]⟩]
  number_lt := by decide

/-- With a full table the request is refused, unless the pair happens to lie on the stack. -/
theorem admitted_by_the_stack :
    admits (fun _ => (0, 0)) fullTables oneMore = some false ∧
      admits (fun _ => (2, 100)) fullTables oneMore = some true ∧
      ¬AdmitsExactly fullTables oneMore := by
  have hrefused : admits (fun _ => (0, 0)) fullTables oneMore = some false := by decide
  have hadmitted : admits (fun _ => (2, 100)) fullTables oneMore = some true := by decide
  refine ⟨hrefused, hadmitted, ?_⟩
  intro hall
  have hsame := (hall fun _ => (0, 0)).trans (hall fun _ => (2, 100)).symm
  rw [hrefused, hadmitted] at hsame
  cases hsame

end Opconn.Multicast
