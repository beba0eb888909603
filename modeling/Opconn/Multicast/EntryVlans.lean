import Opconn.Multicast.ForwardingTable
import Opconn.Multicast.GroupEntries
import Opconn.Multicast.GroupLimit

/-!
# Multicast VLANs of the control entries

In CTC mode a control entry of a type with VLAN brings its VLAN to its port, or to every
port when it is for all of them (255), and `odmMulticastControlEntryDelete` is to take it
away with the last entry.  It compares the ports as they were given: an entry for all ports
does not keep the VLAN of a port, and 255 is not a port whose VLAN can be deleted.  Entries
are searched for without their VLAN, so that a second VLAN replaces the first in the entry
and not in the map.  And it reports an error when it is done.
-/

namespace Opconn.Multicast

open FirstMatch Runs Text

variable {board : Board}

/-- A call of the control entry interface; `alloc` says whether a node can be allocated. -/
inductive EntryCall where
  | add (alloc : Bool) (portId vlanId : Nat) (mac : Mac)
  | delete (portId vlanId : Nat) (mac : Mac)
  | deleteByVlan (vlanId : Nat)
deriving DecidableEq

/-- `IS_VALID_PORT_ID` or 255, and `IS_VALID_VLAN_ID`. -/
def entryParaOk (board : Board) (portId vlanId : Nat) : Bool :=
  (isHostPort board portId || decide (portId = 255)) && decide (vlanId ≤ maxVlanId)

/-- The calls with the checks of their parameters, on a switch that takes every entry. -/
def entryCall (board : Board) (t : Tables) : EntryCall → OplStatus × Tables
  | .add alloc portId vlanId mac =>
    if entryParaOk board portId vlanId then
      odmMulticastControlEntryAdd board { Env.granting with groupNode := alloc } t portId vlanId mac
    else (.error, t)
  | .delete portId vlanId mac =>
    if entryParaOk board portId vlanId then
      odmMulticastControlEntryDelete board (fun _ => true) t portId vlanId mac
    else (.error, t)
  | .deleteByVlan vlanId =>
    if vlanId ≤ maxVlanId then
      odmMulticastControlEntryDeleteByVlan board (fun _ => true) t vlanId
    else (.error, t)

def entryStep (board : Board) (t : Tables) (c : EntryCall) : Tables := (entryCall board t c).2

/-- CTC mode with one of the two types with VLAN, and no entry yet; the lists of VLANs in the
configuration may be any. -/
def entryInit (control : McControl) (byIp : Bool) (config : Nat → Option (List Char))
    (switch : SwitchEntry → Bool) : Tables :=
  let type : CtcControlType := if byIp then .gdaIpVid else .gdaMacVid
  { control := { control with mcMode := .ctc, ctcControlType := type, bitmap := type.bitmap }
    mcGroupList := []
    vlans := { vlanInit with config := config }
    switch := switch }

/-! ### What is claimed -/

/-- The ports of an entry. -/
def entryPorts (board : Board) (portId : Nat) : List Nat :=
  if portId = 255 then hostPorts board else [portId]

/-- The map has a VLAN on a port exactly when an entry has. -/
def MapAgrees (board : Board) (t : Tables) : Prop :=
  ∀ portId vlanId, mcVlanMapExist t.vlans portId vlanId = true ↔
    ∃ g ∈ t.mcGroupList, g.mcVlan = vlanId ∧ portId ∈ entryPorts board g.hostPortId

/-- A deletion reports success exactly when it removed an entry. -/
def DeleteReports (board : Board) (t : Tables) : EntryCall → Prop
  | .delete portId vlanId mac =>
    (entryCall board t (.delete portId vlanId mac)).1 = .ok ↔
      (entryStep board t (.delete portId vlanId mac)).mcGroupList ≠ t.mcGroupList
  | .add .. | .deleteByVlan _ => True

/-! ### When it holds -/

/-- The VLAN is in the map, or the list of the port does not contain its digits. -/
def VlanTaken (s : VlanState) (portId vlanId : Nat) : Prop :=
  mcVlanMapExist s portId vlanId = true ∨
    ∀ text, s.config portId = some text → strstr text (decimal vlanId) = none

/-- An entry with another key has the VLAN on the port. -/
def OtherHas (board : Board) (t : Tables) (k : GroupKey) (portId vlanId : Nat) : Prop :=
  ∃ g ∈ t.mcGroupList, groupMatches t.control.bitmap k g = false ∧ g.mcVlan = vlanId ∧
    portId ∈ entryPorts board g.hostPortId

/-- What an entry under the key had on its ports, others have too. -/
def VlanShared (board : Board) (t : Tables) (k : GroupKey) (g : Group) : Prop :=
  ∀ i ∈ entryPorts board k.hostPortId, OtherHas board t k i g.mcVlan

/-- An addition that stores the entry finds its VLAN new on all ports or there, and an entry that
it writes over has the same VLAN, or one that others have. -/
def AddKept (board : Board) (t : Tables) (alloc : Bool) (k : GroupKey) : Prop :=
  (mcGroupListGet t k = none ∧ alloc = false) ∨
    (∀ i ∈ entryPorts board k.hostPortId, VlanTaken t.vlans i k.mcVlan) ∧
      ∀ g, mcGroupListGet t k = some g → g.mcVlan = k.mcVlan ∨ VlanShared board t k g

/-- The VLAN of the entry that a deletion finds goes from its port, or others have it; and the
VLAN that is given does not go from under an entry for all ports. -/
def DeleteKept (board : Board) (t : Tables) (k : GroupKey) (g : Group) : Prop :=
  (k.hostPortId ≠ 255 ∧ g.mcVlan = k.mcVlan ∨ VlanShared board t k g) ∧
    (k.hostPortId ≠ 255 →
      (∃ h ∈ t.mcGroupList, groupMatches t.control.bitmap k h = false ∧
        h.hostPortId = k.hostPortId ∧ h.mcVlan = k.mcVlan) ∨
      ∀ h ∈ t.mcGroupList, groupMatches t.control.bitmap k h = false → h.hostPortId = 255 →
        h.mcVlan ≠ k.mcVlan)

/-- The condition for the map. -/
def MapKept (board : Board) (t : Tables) : EntryCall → Prop
  | .add alloc portId vlanId mac => entryParaOk board portId vlanId = true →
    ∀ k, entryKey t.control.ctcControlType portId vlanId mac = some k → AddKept board t alloc k
  | .delete portId vlanId mac => entryParaOk board portId vlanId = true →
    ∀ k, entryKey t.control.ctcControlType portId vlanId mac = some k →
      ∀ g, mcGroupListGet t k = some g → DeleteKept board t k g
  | .deleteByVlan _ => True

/-- The condition for what a deletion reports: it finds nothing to delete. -/
def FindsNone (board : Board) (t : Tables) : EntryCall → Prop
  | .delete portId vlanId mac => entryParaOk board portId vlanId = true →
    ∀ k, entryKey t.control.ctcControlType portId vlanId mac = some k → mcGroupListGet t k = none
  | .add .. | .deleteByVlan _ => True

/-! ### The map -/

theorem vlanMapAdd_taken {s : VlanState} {portId vlanId : Nat} (h : VlanTaken s portId vlanId)
    (i u : Nat) :
    mcVlanMapExist (odmMcVlanMapAdd s portId vlanId).2 i u =
      (mcVlanMapExist s i u || decide (u = vlanId ∧ i = portId)) := by
  cases hexist : mcVlanMapExist s portId vlanId with
  | true =>
    have hsame : (odmMcVlanMapAdd s portId vlanId).2 = s := by simp [odmMcVlanMapAdd, hexist]
    rw [hsame]
    by_cases hiu : u = vlanId ∧ i = portId
    · rw [hiu.1, hiu.2, hexist]
      rfl
    · simp [hiu]
  | false =>
    have hfree : ∀ text, s.config portId = some text → strstr text (decimal vlanId) = none := by
      rcases h with hset | hfree
      · rw [hset] at hexist
        cases hexist
      · exact hfree
    rw [odmMcVlanMapAdd, hexist]
    cases hconfig : s.config portId with
    | none =>
      simp only [hconfig, Bool.false_eq_true, if_false, mcVlanMapExist, mcVlanMapAdd,
        mcVlanMapSet, setConfig, dalMcVlanMapAdd, dalVlanMapSet]
      split <;> simp_all
    | some text =>
      simp only [hconfig, hfree text hconfig, Bool.false_eq_true, if_false, mcVlanMapExist,
        mcVlanMapAdd, mcVlanMapSet, setConfig, dalMcVlanMapAdd, dalVlanMapSet]
      split <;> simp_all

theorem vlanMapAdd_not_taken {s : VlanState} {portId vlanId : Nat}
    (h : ¬VlanTaken s portId vlanId) (i u : Nat) :
    mcVlanMapExist (odmMcVlanMapAdd s portId vlanId).2 i u = mcVlanMapExist s i u := by
  rw [VlanTaken, not_or, Bool.not_eq_true] at h
  obtain ⟨hexist, hfound⟩ := h
  push Not at hfound
  obtain ⟨text, hconfig, hne⟩ := hfound
  obtain ⟨p, hp⟩ := Option.ne_none_iff_exists'.mp hne
  have hkept : (dalMcVlanMapAdd s portId vlanId).config = s.config := rfl
  rw [odmMcVlanMapAdd, hexist]
  simp only [hkept, hconfig, hp, Bool.false_eq_true, if_false]
  rfl

theorem exist_vlanMapAdd (s : VlanState) (portId vlanId i u : Nat) :
    mcVlanMapExist (odmMcVlanMapAdd s portId vlanId).2 i u = true ↔
      mcVlanMapExist s i u = true ∨ i = portId ∧ u = vlanId ∧ VlanTaken s portId vlanId := by
  by_cases h : VlanTaken s portId vlanId
  · rw [vlanMapAdd_taken h, Bool.or_eq_true, decide_eq_true_iff]
    tauto
  · rw [vlanMapAdd_not_taken h]
    tauto

/-- The lists of other ports are left alone. -/
theorem config_vlanMapAdd (s : VlanState) {portId i : Nat} (hi : i ≠ portId) (vlanId : Nat) :
    (odmMcVlanMapAdd s portId vlanId).2.config i = s.config i := by
  rw [odmMcVlanMapAdd]
  split
  · rfl
  · dsimp only
    split
    · rfl
    · exact Function.update_of_ne hi ..

theorem vlanTaken_vlanMapAdd (s : VlanState) {portId i : Nat} (hi : i ≠ portId) (vlanId : Nat) :
    VlanTaken (odmMcVlanMapAdd s portId vlanId).2 i vlanId ↔ VlanTaken s i vlanId := by
  rw [VlanTaken, VlanTaken, exist_vlanMapAdd, config_vlanMapAdd s hi]
  tauto

/-- A VLAN is added to several ports. -/
theorem exist_foldl_vlanMapAdd {ports : List Nat} (hports : ports.Nodup) (s : VlanState)
    (vlanId i u : Nat) :
    mcVlanMapExist (ports.foldl (fun vlans i => (odmMcVlanMapAdd vlans i vlanId).2) s) i u = true ↔
      mcVlanMapExist s i u = true ∨ i ∈ ports ∧ u = vlanId ∧ VlanTaken s i vlanId := by
  induction ports generalizing s with
  | nil => simp
  | cons p ports ih =>
    obtain ⟨hnew, hrest⟩ := List.nodup_cons.mp hports
    rw [List.foldl_cons, ih hrest, exist_vlanMapAdd, List.mem_cons]
    constructor
    · rintro ((h | ⟨rfl, rfl, htaken⟩) | ⟨hmem, rfl, htaken⟩)
      · exact Or.inl h
      · exact Or.inr ⟨Or.inl rfl, rfl, htaken⟩
      · have hne : i ≠ p := fun heq => hnew (heq ▸ hmem)
        exact Or.inr ⟨Or.inr hmem, rfl, (vlanTaken_vlanMapAdd s hne u).mp htaken⟩
    · rintro (h | ⟨rfl | hmem, rfl, htaken⟩)
      · exact Or.inl (Or.inl h)
      · exact Or.inl (Or.inr ⟨rfl, rfl, htaken⟩)
      · have hne : i ≠ p := fun heq => hnew (heq ▸ hmem)
        exact Or.inr ⟨hmem, rfl, (vlanTaken_vlanMapAdd s hne u).mpr htaken⟩

theorem mem_hostPorts {portId : Nat} :
    portId ∈ hostPorts board ↔ isHostPort board portId = true := by
  rw [hostPorts, List.mem_range'_1, isHostPort, Bool.and_eq_true, decide_eq_true_iff,
    decide_eq_true_iff]
  omega

theorem not_mem_hostPorts_all : 255 ∉ hostPorts board := by
  cases board <;> decide

theorem mem_entryPorts_of_ne {portId i : Nat} (h : portId ≠ 255) :
    i ∈ entryPorts board portId ↔ i = portId := by
  rw [entryPorts, if_neg h, List.mem_singleton]

/-- `odmMulticastVlanAdd`. -/
theorem exist_vlanAdd {portId : Nat} (hport : portId ∈ hostPorts board ∨ portId = 255) (t : Tables)
    (vlanId i u : Nat) :
    mcVlanMapExist (odmMulticastVlanAdd board t portId vlanId).vlans i u = true ↔
      mcVlanMapExist t.vlans i u = true ∨
        i ∈ entryPorts board portId ∧ u = vlanId ∧ VlanTaken t.vlans i vlanId := by
  have hmem : i ∈ (hostPorts board).filter (fun i => portId = 255 || i = portId) ↔
      i ∈ entryPorts board portId := by
    rw [List.mem_filter, entryPorts]
    split
    · next hall => simp [hall]
    · next hone =>
      rw [List.mem_singleton]
      simp only [hone, decide_false, Bool.false_or, decide_eq_true_iff]
      constructor
      · exact And.right
      · rintro rfl
        exact ⟨hport.resolve_right hone, rfl⟩
  have hnodup : ((hostPorts board).filter (fun i => portId = 255 || i = portId)).Nodup :=
    (List.nodup_range' ..).filter _
  rw [odmMulticastVlanAdd]
  exact (exist_foldl_vlanMapAdd hnodup t.vlans vlanId i u).trans (by rw [hmem])

theorem exist_vlanMapDel (s : VlanState) (portId vlanId i u : Nat) :
    mcVlanMapExist (odmMcVlanMapDel s portId vlanId).2 i u = true ↔
      mcVlanMapExist s i u = true ∧ ¬(i = portId ∧ u = vlanId) := by
  have hmap : (odmMcVlanMapDel s portId vlanId).2.mcVlanMap =
      (mcVlanMapDel s portId vlanId).mcVlanMap := by
    rw [odmMcVlanMapDel]
    dsimp only
    split
    · rfl
    · split <;> rfl
  rw [mcVlanMapExist, hmap, mcVlanMapExist, mcVlanMapDel, mcVlanMapSet]
  dsimp only
  split
  · next hiu => simp [hiu]
  · next hiu => tauto

/-- `odmMulticastVlanDelete`. -/
theorem exist_vlanDelete (takes : SwitchEntry → Bool) (t : Tables) (portId vlanId i u : Nat) :
    mcVlanMapExist (odmMulticastVlanDelete board takes t portId vlanId).vlans i u = true ↔
      mcVlanMapExist t.vlans i u = true ∧ ¬(i = portId ∧ u = vlanId) := by
  rw [odmMulticastVlanDelete]
  split
  · exact exist_vlanMapDel t.vlans portId vlanId i u
  · next hnot =>
    constructor
    · intro h
      refine ⟨h, ?_⟩
      rintro ⟨rfl, rfl⟩
      exact hnot h
    · exact And.left

/-! ### The entries -/

/-- What every call keeps. -/
structure EntryInv (board : Board) (t : Tables) : Prop where
  ctc : t.control.mcMode = .ctc
  withVlan : t.control.ctcControlType.withVlan = true
  bitmap : t.control.bitmap = t.control.ctcControlType.bitmap
  keyed : Keyed t
  hostless : Hostless t
  ports : ∀ g ∈ t.mcGroupList, g.hostPortId ∈ hostPorts board ∨ g.hostPortId = 255

theorem EntryInv.saMac {t : Tables} (h : EntryInv board t) : t.control.bitmap.saMac = false := by
  have htype := h.withVlan
  rw [h.bitmap]
  cases hcase : t.control.ctcControlType <;> rw [hcase] at htype <;> cases htype <;> rfl

/-- The types with VLAN have a key for every entry. -/
theorem EntryInv.key {t : Tables} (h : EntryInv board t) (portId vlanId : Nat) (mac : Mac) :
    ∃ k, entryKey t.control.ctcControlType portId vlanId mac = some k ∧ k.hostPortId = portId ∧
      k.mcVlan = vlanId := by
  have htype := h.withVlan
  cases hcase : t.control.ctcControlType <;> rw [hcase] at htype <;> cases htype <;>
    exact ⟨_, rfl, rfl, rfl⟩

/-- The port is part of the key. -/
theorem EntryInv.port_eq {t : Tables} (h : EntryInv board t) {k : GroupKey} {g : Group}
    (hm : groupMatches t.control.bitmap k g = true) : g.hostPortId = k.hostPortId := by
  obtain ⟨-, hport, -⟩ := groupCompare_iff.mp (groupMatches_iff.mp hm)
  apply hport
  rw [h.bitmap]
  exact hostPortId_bitmap _

/-- A stored entry is in the place of those under its key. -/
theorem mem_mcGroupListAdd {alloc : Bool} {t t' : Tables} (hkeyed : Keyed t) {k : GroupKey}
    {state : NodeState} (h : mcGroupListAdd alloc t k state = some t') :
    ∃ node : Group, node.mcVlan = k.mcVlan ∧ node.hostPortId = k.hostPortId ∧
      ∀ g, g ∈ t'.mcGroupList ↔
        g = node ∨ g ∈ t.mcGroupList ∧ groupMatches t.control.bitmap k g = false := by
  rw [mcGroupListAdd] at h
  cases hget : mcGroupListGet t k with
  | some g₀ =>
    simp only [hget, Option.some.injEq] at h
    subst h
    refine ⟨groupWrite t.control.bitmap k state g₀, rfl, rfl, ?_⟩
    intro g
    rw [(updateFirst_perm hget).mem_iff, List.mem_cons, mem_eraseP_iff (hkeyed.single k)]
  | none =>
    simp only [hget] at h
    split at h
    · cases h
      refine ⟨groupWrite t.control.bitmap k state zeroGroup, rfl, rfl, ?_⟩
      intro g
      have hnot : g ∈ t.mcGroupList → groupMatches t.control.bitmap k g = false :=
        fun hg => by simpa using List.find?_eq_none.mp hget g hg
      rw [List.mem_cons]
      tauto
    · cases h

/-- Under the key there are the entry that is found and no other. -/
theorem mem_of_found {t : Tables} (hkeyed : Keyed t) {k : GroupKey} {g g' : Group}
    (hget : mcGroupListGet t k = some g) (hg' : g' ∈ t.mcGroupList) :
    g' = g ∨ groupMatches t.control.bitmap k g' = false := by
  cases hm : groupMatches t.control.bitmap k g' with
  | false => exact Or.inr rfl
  | true =>
    rw [hkeyed.get_of_mem hg' hm] at hget
    exact Or.inl (Option.some.inj hget)

/-- The VLANs of the map, by whether the entry under the key brings them. -/
theorem MapAgrees.exist_iff {t : Tables} (hagrees : MapAgrees board t) (h : EntryInv board t)
    (k : GroupKey) (i u : Nat) :
    mcVlanMapExist t.vlans i u = true ↔ OtherHas board t k i u ∨
      ∃ g, mcGroupListGet t k = some g ∧ g.mcVlan = u ∧ i ∈ entryPorts board k.hostPortId := by
  rw [hagrees]
  constructor
  · rintro ⟨g, hg, hvlan, hport⟩
    cases hm : groupMatches t.control.bitmap k g with
    | false => exact Or.inl ⟨g, hg, hm, hvlan, hport⟩
    | true =>
      rw [h.port_eq hm] at hport
      exact Or.inr ⟨g, h.keyed.get_of_mem hg hm, hvlan, hport⟩
  · rintro (⟨g, hg, -, hvlan, hport⟩ | ⟨g, hget, hvlan, hport⟩)
    · exact ⟨g, hg, hvlan, hport⟩
    · rw [← h.port_eq (matches_of_get hget)] at hport
      exact ⟨g, mem_of_get hget, hvlan, hport⟩

/-! ### Additions -/

theorem ports_of_paraOk {portId vlanId : Nat} (hok : entryParaOk board portId vlanId = true) :
    portId ∈ hostPorts board ∨ portId = 255 := by
  rw [entryParaOk, Bool.and_eq_true, Bool.or_eq_true, decide_eq_true_iff] at hok
  rw [mem_hostPorts]
  exact hok.1

/-- What an addition leaves. -/
structure EntryStored (board : Board) (t t' : Tables) (k : GroupKey) : Prop where
  control : t'.control = t.control
  mem : ∃ node : Group, node.mcVlan = k.mcVlan ∧ node.hostPortId = k.hostPortId ∧
    ∀ g, g ∈ t'.mcGroupList ↔
      g = node ∨ g ∈ t.mcGroupList ∧ groupMatches t.control.bitmap k g = false
  exist : ∀ i u, mcVlanMapExist t'.vlans i u = true ↔ mcVlanMapExist t.vlans i u = true ∨
    i ∈ entryPorts board k.hostPortId ∧ u = k.mcVlan ∧ VlanTaken t.vlans i k.mcVlan

theorem EntryInv.add_effect {t : Tables} (h : EntryInv board t) {portId vlanId : Nat} {mac : Mac}
    (hok : entryParaOk board portId vlanId = true) {k : GroupKey}
    (hkey : entryKey t.control.ctcControlType portId vlanId mac = some k)
    (hport : k.hostPortId = portId) (hvlan : k.mcVlan = vlanId) (alloc : Bool) :
    let t' := entryStep board t (.add alloc portId vlanId mac)
    (mcGroupListGet t k = none ∧ alloc = false ∧ t'.control = t.control ∧
        t'.mcGroupList = t.mcGroupList ∧ t'.vlans = t.vlans) ∨
      ¬(mcGroupListGet t k = none ∧ alloc = false) ∧ EntryStored board t t' k := by
  intro t'
  have hcall : t' = (odmMulticastControlEntryAdd board { Env.granting with groupNode := alloc } t
      portId vlanId mac).2 := by
    simp only [t', entryStep, entryCall, hok, if_true]
  have hctc : ¬t.control.mcMode ≠ .ctc := by simp [h.ctc]
  let t₁ := dalMcGroupAdd board (fun _ => true) t k
  have hget : mcGroupListGet t₁ k = mcGroupListGet t k := rfl
  rw [odmMulticastControlEntryAdd, if_neg hctc, hkey] at hcall
  cases hadd : mcGroupListAdd alloc t₁ k .configByOam with
  | none =>
    have hfailed : odmMcGroupAdd board (fun _ => true) alloc t k .configByOam = (.error, t₁) := by
      simp only [odmMcGroupAdd]
      rw [show mcGroupListAdd alloc (dalMcGroupAdd board (fun _ => true) t k) k .configByOam = none
        from hadd]
    have hresult : t' = t₁ := by
      rw [hcall]
      simp only [Env.granting, hfailed]
    have hnone : mcGroupListGet t k = none ∧ alloc = false := by
      rw [mcGroupListAdd, hget] at hadd
      cases hfound : mcGroupListGet t k with
      | some g =>
        simp only [hfound] at hadd
        cases hadd
      | none =>
        simp only [hfound] at hadd
        cases alloc with
        | false => exact ⟨rfl, rfl⟩
        | true => cases hadd
    rw [hresult]
    exact Or.inl ⟨hnone.1, hnone.2, rfl, rfl, rfl⟩
  | some t₂ =>
    have hstored : odmMcGroupAdd board (fun _ => true) alloc t k .configByOam = (.ok, t₂) := by
      simp only [odmMcGroupAdd]
      rw [show mcGroupListAdd alloc (dalMcGroupAdd board (fun _ => true) t k) k .configByOam =
        some t₂ from hadd]
    have hcontrol : t₂.control = t.control := control_mcGroupListAdd (t := t₁) hadd
    have hvlans : t₂.vlans = t.vlans := by
      rw [mcGroupListAdd] at hadd
      split at hadd
      · cases hadd
        rfl
      · split at hadd
        · cases hadd
          rfl
        · cases hadd
    have hresult : t' = odmMulticastVlanAdd board t₂ portId vlanId := by
      rw [hcall]
      simp only [Env.granting, hstored, hcontrol, h.withVlan, if_true]
    right
    constructor
    · rintro ⟨hnone, rfl⟩
      rw [mcGroupListAdd, hget, hnone] at hadd
      cases hadd
    · rw [hresult]
      refine ⟨hcontrol, ?_, ?_⟩
      · have hkeyed : Keyed t₁ := ⟨h.keyed.groups, h.keyed.hosts⟩
        obtain ⟨node, hnode⟩ := mem_mcGroupListAdd hkeyed hadd
        exact ⟨node, hnode⟩
      · intro i u
        rw [exist_vlanAdd (ports_of_paraOk hok), hvlans, hport, hvlan]

theorem EntryInv.stored {t t' : Tables} (h : EntryInv board t) {k : GroupKey}
    (hport : k.hostPortId ∈ hostPorts board ∨ k.hostPortId = 255)
    (hstored : EntryStored board t t' k) :
    ∀ g ∈ t'.mcGroupList, g.hostPortId ∈ hostPorts board ∨ g.hostPortId = 255 := by
  obtain ⟨node, -, hnode, hmem⟩ := hstored.mem
  intro g hg
  rcases (hmem g).mp hg with rfl | ⟨hold, -⟩
  · rw [hnode]
    exact hport
  · exact h.ports g hold

/-- The map after an addition, exactly. -/
theorem EntryStored.agrees_iff {t t' : Tables} (h : EntryInv board t) (hagrees : MapAgrees board t)
    {k : GroupKey} (hstored : EntryStored board t t' k) :
    MapAgrees board t' ↔ (∀ i ∈ entryPorts board k.hostPortId, VlanTaken t.vlans i k.mcVlan) ∧
      ∀ g, mcGroupListGet t k = some g → g.mcVlan = k.mcVlan ∨ VlanShared board t k g := by
  obtain ⟨node, hvlan, hport, hmem⟩ := hstored.mem
  -- the entries afterwards: the stored one and those under other keys
  have hcovered : ∀ i u, (∃ g ∈ t'.mcGroupList, g.mcVlan = u ∧ i ∈ entryPorts board g.hostPortId) ↔
      u = k.mcVlan ∧ i ∈ entryPorts board k.hostPortId ∨ OtherHas board t k i u := by
    intro i u
    constructor
    · rintro ⟨g, hg, rfl, hi⟩
      rcases (hmem g).mp hg with rfl | ⟨hold, hnot⟩
      · rw [hport] at hi
        exact Or.inl ⟨hvlan, hi⟩
      · exact Or.inr ⟨g, hold, hnot, rfl, hi⟩
    · rintro (⟨rfl, hi⟩ | ⟨g, hold, hnot, hu, hi⟩)
      · rw [← hport] at hi
        exact ⟨node, (hmem node).mpr (Or.inl rfl), hvlan, hi⟩
      · exact ⟨g, (hmem g).mpr (Or.inr ⟨hold, hnot⟩), hu, hi⟩
  have hset := hagrees.exist_iff h k
  constructor
  · intro hagrees'
    constructor
    · intro i hi
      have hexist := (hagrees' i k.mcVlan).mpr ((hcovered i k.mcVlan).mpr (Or.inl ⟨rfl, hi⟩))
      rcases (hstored.exist i k.mcVlan).mp hexist with hold | ⟨-, -, htaken⟩
      · exact Or.inl hold
      · exact htaken
    · intro g hget
      by_cases hsame : g.mcVlan = k.mcVlan
      · exact Or.inl hsame
      · refine Or.inr fun i hi => ?_
        have hold := (hset i g.mcVlan).mpr (Or.inr ⟨g, hget, rfl, hi⟩)
        have hexist := (hstored.exist i g.mcVlan).mpr (Or.inl hold)
        rcases (hcovered i g.mcVlan).mp ((hagrees' i g.mcVlan).mp hexist) with ⟨heq, -⟩ | hother
        · exact absurd heq hsame
        · exact hother
  · rintro ⟨htaken, hover⟩ i u
    rw [hcovered, hstored.exist, hset]
    constructor
    · rintro ((hother | ⟨g, hget, rfl, hi⟩) | ⟨hi, hu, -⟩)
      · exact Or.inr hother
      · rcases hover g hget with hsame | hshared
        · exact Or.inl ⟨hsame, hi⟩
        · exact Or.inr (hshared i hi)
      · exact Or.inl ⟨hu, hi⟩
    · rintro (⟨rfl, hi⟩ | hother)
      · exact Or.inr ⟨hi, rfl, htaken i hi⟩
      · exact Or.inl (Or.inl hother)

/-! ### Deletions -/

/-- What a deletion that finds its entry leaves. -/
structure EntryRemoved (board : Board) (t t' : Tables) (k : GroupKey) : Prop where
  control : t'.control = t.control
  mem : ∀ g, g ∈ t'.mcGroupList ↔
    g ∈ t.mcGroupList ∧ groupMatches t.control.bitmap k g = false
  exist : ∀ i u, mcVlanMapExist t'.vlans i u = true ↔ mcVlanMapExist t.vlans i u = true ∧
    ¬((∀ g ∈ t'.mcGroupList, ¬(g.hostPortId = k.hostPortId ∧ g.mcVlan = k.mcVlan)) ∧
      i = k.hostPortId ∧ u = k.mcVlan)

/-- The entry that a search finds is deleted by its own key. -/
theorem EntryInv.deleteIfEmpty_eq {t : Tables} (h : EntryInv board t) {k : GroupKey} {g : Group}
    (hget : mcGroupListGet t k = some g) :
    deleteIfEmpty board (fun _ => true) t g.toGroupKey =
      { dalMcGroupDel board (fun _ => true) t g.toGroupKey with
        mcGroupList := t.mcGroupList.eraseP (groupMatches t.control.bitmap k) } := by
  have hself : mcGroupListGet t g.toGroupKey = some g :=
    h.keyed.get_of_mem (mem_of_get hget) (groupMatches_self h.saMac g)
  have hempty : mcGroupListHostListEmpty t g.toGroupKey = true := by
    simp only [mcGroupListHostListEmpty, hself, h.hostless g (mem_of_get hget), List.isEmpty_nil]
  rw [deleteIfEmpty, if_pos hempty, odmMcGroupDel_of_mem h.keyed h.saMac _ (mem_of_get hget),
    search_eq_of_groupMatches (matches_of_get hget)]

theorem EntryInv.delete_effect {t : Tables} (h : EntryInv board t) {portId vlanId : Nat} {mac : Mac}
    (hok : entryParaOk board portId vlanId = true) {k : GroupKey}
    (hkey : entryKey t.control.ctcControlType portId vlanId mac = some k)
    (hport : k.hostPortId = portId) (hvlan : k.mcVlan = vlanId) {g : Group}
    (hget : mcGroupListGet t k = some g) :
    EntryRemoved board t (entryStep board t (.delete portId vlanId mac)) k := by
  have hctc : ¬t.control.mcMode ≠ .ctc := by simp [h.ctc]
  let t₁ := { dalMcGroupDel board (fun _ => true) t g.toGroupKey with
    mcGroupList := t.mcGroupList.eraseP (groupMatches t.control.bitmap k) }
  have hmem : ∀ g, g ∈ t₁.mcGroupList ↔
      g ∈ t.mcGroupList ∧ groupMatches t.control.bitmap k g = false :=
    fun g => mem_eraseP_iff (h.keyed.single k)
  have hcall : entryStep board t (.delete portId vlanId mac) =
      if t₁.mcGroupList.any (fun g => g.hostPortId = portId && g.mcVlan = vlanId) then t₁
      else odmMulticastVlanDelete board (fun _ => true) t₁ portId vlanId := by
    have hwith : t₁.control.ctcControlType.withVlan = true := h.withVlan
    rw [entryStep, entryCall, if_pos hok, odmMulticastControlEntryDelete, if_neg hctc, hkey,
      Option.bind_some, hget]
    dsimp only
    rw [h.deleteIfEmpty_eq hget]
    change (if t₁.control.ctcControlType.withVlan && _ then _ else (_, t₁)).2 = _
    rw [hwith, Bool.true_and]
    cases t₁.mcGroupList.any (fun g => g.hostPortId = portId && g.mcVlan = vlanId) <;> rfl
  rw [← hport, ← hvlan] at hcall ⊢
  rw [hcall]
  by_cases hany : t₁.mcGroupList.any
      (fun g => g.hostPortId = k.hostPortId && g.mcVlan = k.mcVlan) = true
  · rw [if_pos hany]
    refine ⟨rfl, hmem, ?_⟩
    intro i u
    obtain ⟨other, hother, hsame⟩ := List.any_eq_true.mp hany
    rw [Bool.and_eq_true, decide_eq_true_iff, decide_eq_true_iff] at hsame
    constructor
    · intro hexist
      exact ⟨hexist, fun hnone => hnone.1 other hother hsame⟩
    · exact And.left
  · rw [if_neg hany]
    have hnone : ∀ g ∈ t₁.mcGroupList, ¬(g.hostPortId = k.hostPortId ∧ g.mcVlan = k.mcVlan) := by
      intro g hg hsame
      apply hany
      exact List.any_eq_true.mpr ⟨g, hg, by simp [hsame]⟩
    refine ⟨control_vlanDelete (fun _ => true) t₁ k.hostPortId k.mcVlan, ?_, ?_⟩
    · rw [list_vlanDelete]
      exact hmem
    · intro i u
      rw [list_vlanDelete, exist_vlanDelete]
      constructor
      · rintro ⟨hexist, hnot⟩
        exact ⟨hexist, fun hboth => hnot hboth.2⟩
      · rintro ⟨hexist, hnot⟩
        exact ⟨hexist, fun hboth => hnot ⟨hnone, hboth⟩⟩

/-- The map after a deletion, exactly. -/
theorem EntryRemoved.agrees_iff {t t' : Tables} (h : EntryInv board t)
    (hagrees : MapAgrees board t) {k : GroupKey}
    (hport : k.hostPortId ∈ hostPorts board ∨ k.hostPortId = 255) {g : Group}
    (hget : mcGroupListGet t k = some g) (hremoved : EntryRemoved board t t' k) :
    MapAgrees board t' ↔ DeleteKept board t k g := by
  -- the entries afterwards are those under other keys
  have hcovered : ∀ i u, (∃ g ∈ t'.mcGroupList, g.mcVlan = u ∧ i ∈ entryPorts board g.hostPortId) ↔
      OtherHas board t k i u := by
    intro i u
    constructor
    · rintro ⟨g, hg, hu, hi⟩
      obtain ⟨hold, hnot⟩ := (hremoved.mem g).mp hg
      exact ⟨g, hold, hnot, hu, hi⟩
    · rintro ⟨g, hold, hnot, hu, hi⟩
      exact ⟨g, (hremoved.mem g).mpr ⟨hold, hnot⟩, hu, hi⟩
  have hset := hagrees.exist_iff h k
  have hself : ∀ {i : Nat}, i ∈ entryPorts board k.hostPortId → i = k.hostPortId →
      k.hostPortId ≠ 255 := by
    rintro i hi rfl hall
    rw [hall, entryPorts, if_pos rfl] at hi
    exact not_mem_hostPorts_all hi
  constructor
  · intro hagrees'
    constructor
    · by_cases hown : k.hostPortId ≠ 255 ∧ g.mcVlan = k.mcVlan
      · exact Or.inl hown
      · refine Or.inr fun i hi => ?_
        have hold := (hset i g.mcVlan).mpr (Or.inr ⟨g, hget, rfl, hi⟩)
        have hstays := (hremoved.exist i g.mcVlan).mpr ⟨hold, fun hgone =>
          hown ⟨hself hi hgone.2.1, hgone.2.2⟩⟩
        exact (hcovered i g.mcVlan).mp ((hagrees' i g.mcVlan).mp hstays)
    · intro hone
      by_cases hlast : ∀ g ∈ t'.mcGroupList, ¬(g.hostPortId = k.hostPortId ∧ g.mcVlan = k.mcVlan)
      · refine Or.inr fun other hother hnot hall hvlan => ?_
        have hcover : OtherHas board t k k.hostPortId k.mcVlan := by
          refine ⟨other, hother, hnot, hvlan, ?_⟩
          rw [hall, entryPorts, if_pos rfl]
          exact hport.resolve_right hone
        have hstays := (hagrees' _ _).mpr ((hcovered _ _).mpr hcover)
        exact ((hremoved.exist _ _).mp hstays).2 ⟨hlast, rfl, rfl⟩
      · push Not at hlast
        obtain ⟨other, hother, hsame⟩ := hlast
        obtain ⟨hold, hnot⟩ := (hremoved.mem other).mp hother
        exact Or.inl ⟨other, hold, hnot, hsame⟩
  · rintro ⟨hown, hall⟩ i u
    rw [hcovered, hremoved.exist, hset]
    constructor
    · rintro ⟨hother | ⟨g', hget', rfl, hi⟩, hstays⟩
      · exact hother
      · rw [hget] at hget'
        cases hget'
        rcases hown with ⟨hone, hvlan⟩ | hshared
        · have heq := (mem_entryPorts_of_ne hone).mp hi
          by_contra hnone
          refine hstays ⟨?_, heq, hvlan⟩
          rintro other hother ⟨hsame, hsame'⟩
          obtain ⟨hold, hnot⟩ := (hremoved.mem other).mp hother
          exact hnone ⟨other, hold, hnot, hsame'.trans hvlan.symm, hsame ▸ hi⟩
        · exact hshared i hi
    · intro hother
      refine ⟨Or.inl hother, ?_⟩
      rintro ⟨hlast, rfl, rfl⟩
      obtain ⟨other, hold, hnot, hvlan, hi⟩ := hother
      have hin := (hremoved.mem other).mpr ⟨hold, hnot⟩
      by_cases hwild : other.hostPortId = 255
      · rw [hwild, entryPorts, if_pos rfl] at hi
        have hone : k.hostPortId ≠ 255 := by
          intro heq
          rw [heq] at hi
          exact not_mem_hostPorts_all hi
        rcases hall hone with ⟨other', hold', hnot', hsame⟩ | hnone
        · exact hlast other' ((hremoved.mem other').mpr ⟨hold', hnot'⟩) hsame
        · exact hnone other hold hnot hwild hvlan
      · exact hlast other hin ⟨((mem_entryPorts_of_ne hwild).mp hi).symm, hvlan⟩

/-! ### Deletions by VLAN -/

theorem deleteGroups_mem {p : Group → Bool} {n : Nat} {t : Tables} (hkeyed : Keyed t)
    (hsa : t.control.bitmap.saMac = false) (hn : (t.mcGroupList.filter p).length ≤ n) :
    ∃ t', deleteGroups board (fun _ => true) p n t = (.ok, t') ∧ t'.control = t.control ∧
      t'.vlans = t.vlans ∧ ∀ g, g ∈ t'.mcGroupList ↔ g ∈ t.mcGroupList ∧ p g = false := by
  induction n generalizing t with
  | zero =>
    have hnone := List.filter_eq_nil_iff.mp (List.length_eq_zero_iff.mp (Nat.le_zero.mp hn))
    refine ⟨t, rfl, rfl, rfl, ?_⟩
    intro g
    exact ⟨fun hg => ⟨hg, by simpa using hnone g hg⟩, And.left⟩
  | succ n ih =>
    rw [deleteGroups]
    cases hfind : t.mcGroupList.find? p with
    | none =>
      refine ⟨t, rfl, rfl, rfl, ?_⟩
      intro g
      exact ⟨fun hg => ⟨hg, by simpa using List.find?_eq_none.mp hfind g hg⟩, And.left⟩
    | some g =>
      have hg := List.mem_of_find?_eq_some hfind
      have hfilter := filter_eq_cons_of_find? (hkeyed.single g.toGroupKey) hfind
        (groupMatches_self hsa g)
      rw [hfilter, List.length_cons] at hn
      simp only [odmMcGroupDel_of_mem hkeyed hsa (fun _ => true) hg]
      have hshrinks : Shrinks (odmMcGroupDel board (fun _ => true) t g.toGroupKey).2 t :=
        shrinks_odmMcGroupDel ..
      have hkeyed' := hshrinks.evolves.keyed hkeyed
      rw [odmMcGroupDel_of_mem hkeyed hsa (fun _ => true) hg] at hkeyed'
      obtain ⟨t', hrun, hcontrol, hvlans, hmem⟩ := ih hkeyed' hsa (by simpa using hn)
      refine ⟨t', hrun, hcontrol, hvlans, ?_⟩
      intro g'
      rw [hmem, mem_eraseP_iff (hkeyed.single _)]
      constructor
      · rintro ⟨⟨hold, -⟩, hp⟩
        exact ⟨hold, hp⟩
      · rintro ⟨hold, hp⟩
        have hself := hkeyed.get_of_mem hg (groupMatches_self hsa g)
        rcases mem_of_found hkeyed hself hold with rfl | hnot
        · have hmeets := List.find?_some hfind
          rw [hp] at hmeets
          cases hmeets
        · exact ⟨⟨hold, hnot⟩, hp⟩

/-- A VLAN is deleted from several ports. -/
theorem foldl_vlanDelete (ports : List Nat) (t : Tables) (vlanId : Nat) :
    let t' := ports.foldl (fun t i => odmMulticastVlanDelete board (fun _ => true) t i vlanId) t
    t'.control = t.control ∧ t'.mcGroupList = t.mcGroupList ∧
      ∀ i u, mcVlanMapExist t'.vlans i u = true ↔
        mcVlanMapExist t.vlans i u = true ∧ ¬(i ∈ ports ∧ u = vlanId) := by
  induction ports generalizing t with
  | nil => simp
  | cons p ports ih =>
    obtain ⟨hcontrol, hlist, hexist⟩ := ih (odmMulticastVlanDelete board (fun _ => true) t p vlanId)
    refine ⟨?_, ?_, ?_⟩
    · exact hcontrol.trans (control_vlanDelete _ t p vlanId)
    · exact hlist.trans (list_vlanDelete _ t p vlanId)
    · intro i u
      rw [List.foldl_cons, hexist, exist_vlanDelete, List.mem_cons]
      tauto

/-- A deletion by VLAN. -/
theorem EntryInv.deleteByVlan_effect {t : Tables} (h : EntryInv board t)
    {vlanId : Nat} (hvlan : vlanId ≤ maxVlanId) :
    let t' := entryStep board t (.deleteByVlan vlanId)
    t'.control = t.control ∧
      (∀ g, g ∈ t'.mcGroupList ↔ g ∈ t.mcGroupList ∧ g.mcVlan ≠ vlanId) ∧
      ∀ i u, mcVlanMapExist t'.vlans i u = true ↔
        mcVlanMapExist t.vlans i u = true ∧ ¬(i ∈ hostPorts board ∧ u = vlanId) := by
  intro t'
  obtain ⟨t₁, hrun, hcontrol, hvlans, hmem⟩ : ∃ t₁, deleteGroups board (fun _ => true)
      (·.mcVlan = vlanId) t.mcGroupList.length t = (.ok, t₁) ∧ _ :=
    deleteGroups_mem h.keyed h.saMac (List.length_filter_le ..)
  have hcall : t' = (hostPorts board).foldl
      (fun t i => odmMulticastVlanDelete board (fun _ => true) t i vlanId) t₁ := by
    simp only [t', entryStep, entryCall, hvlan, if_true, odmMulticastControlEntryDeleteByVlan, hrun,
      hcontrol, h.withVlan]
  obtain ⟨hcontrol', hlist, hexist⟩ := foldl_vlanDelete (hostPorts board) t₁ vlanId
  rw [hcall]
  refine ⟨hcontrol'.trans hcontrol, ?_, ?_⟩
  · intro g
    rw [hlist, hmem]
    simp
  · intro i u
    rw [hexist, hvlans]

/-! ### Runs -/

theorem entryInv_init (control : McControl) (byIp : Bool) (config : Nat → Option (List Char))
    (switch : SwitchEntry → Bool) : EntryInv board (entryInit control byIp config switch) where
  ctc := rfl
  withVlan := by cases byIp <;> rfl
  bitmap := rfl
  keyed := keyed_of_nil rfl
  hostless g hg := by cases hg
  ports g hg := by cases hg

theorem mapAgrees_init (control : McControl) (byIp : Bool) (config : Nat → Option (List Char))
    (switch : SwitchEntry → Bool) : MapAgrees board (entryInit control byIp config switch) := by
  intro portId vlanId
  constructor
  · intro hexist
    cases hexist
  · rintro ⟨g, hg, -⟩
    cases hg

theorem evolves_entryStep (t : Tables) (c : EntryCall) : Evolves (entryStep board t c) t := by
  cases c with
  | add alloc portId vlanId mac =>
    rw [entryStep, entryCall]
    split
    · exact evolves_entryAdd ..
    · exact (Shrinks.refl t).evolves
  | delete portId vlanId mac =>
    rw [entryStep, entryCall]
    split
    · exact (shrinks_entryDelete ..).evolves
    · exact (Shrinks.refl t).evolves
  | deleteByVlan vlanId =>
    rw [entryStep, entryCall]
    split
    · exact (shrinks_entryDeleteByVlan ..).evolves
    · exact (Shrinks.refl t).evolves

theorem EntryInv.of_control {t t' : Tables} (h : EntryInv board t) (hevolves : Evolves t' t)
    (hcontrol : t'.control = t.control)
    (hports : ∀ g ∈ t'.mcGroupList, g.hostPortId ∈ hostPorts board ∨ g.hostPortId = 255) :
    EntryInv board t' where
  ctc := by rw [hcontrol]; exact h.ctc
  withVlan := by rw [hcontrol]; exact h.withVlan
  bitmap := by rw [hcontrol]; exact h.bitmap
  keyed := hevolves.keyed h.keyed
  hostless := hevolves.hostless (by rw [h.ctc]; rintro ⟨⟩) h.hostless
  ports := hports

/-- A deletion that finds nothing. -/
theorem EntryInv.delete_none {t : Tables} (h : EntryInv board t) {portId vlanId : Nat} {mac : Mac}
    {k : GroupKey} (hkey : entryKey t.control.ctcControlType portId vlanId mac = some k)
    (hget : mcGroupListGet t k = none) :
    entryStep board t (.delete portId vlanId mac) = t := by
  have hctc : ¬t.control.mcMode ≠ .ctc := by simp [h.ctc]
  rw [entryStep, entryCall, odmMulticastControlEntryDelete, if_neg hctc, hkey, Option.bind_some,
    hget]
  split <;> rfl

theorem EntryInv.step {t : Tables} (h : EntryInv board t) (c : EntryCall) :
    EntryInv board (entryStep board t c) := by
  have hevolves : Evolves (entryStep board t c) t := evolves_entryStep t c
  cases c with
  | add alloc portId vlanId mac =>
    by_cases hok : entryParaOk board portId vlanId = true
    · obtain ⟨k, hkey, hport, hvlan⟩ := h.key portId vlanId mac
      rcases h.add_effect hok hkey hport hvlan alloc with ⟨-, -, hcontrol, hlist, -⟩ | ⟨-, hstored⟩
      · apply h.of_control hevolves hcontrol
        rw [hlist]
        exact h.ports
      · apply h.of_control hevolves hstored.control
        exact h.stored (hport ▸ ports_of_paraOk hok) hstored
    · rw [entryStep, entryCall, if_neg hok]
      exact h
  | delete portId vlanId mac =>
    by_cases hok : entryParaOk board portId vlanId = true
    · obtain ⟨k, hkey, hport, hvlan⟩ := h.key portId vlanId mac
      cases hget : mcGroupListGet t k with
      | none =>
        rw [h.delete_none hkey hget]
        exact h
      | some g =>
        have hremoved := h.delete_effect hok hkey hport hvlan hget
        apply h.of_control hevolves hremoved.control
        intro g hg
        exact h.ports g ((hremoved.mem g).mp hg).1
    · rw [entryStep, entryCall, if_neg hok]
      exact h
  | deleteByVlan vlanId =>
    by_cases hvlan : vlanId ≤ maxVlanId
    · obtain ⟨hcontrol, hmem, -⟩ := h.deleteByVlan_effect hvlan
      apply h.of_control hevolves hcontrol
      intro g hg
      exact h.ports g ((hmem g).mp hg).1
    · rw [entryStep, entryCall, if_neg hvlan]
      exact h

/-- One call, and the map. -/
theorem EntryInv.agrees_iff {t : Tables} (h : EntryInv board t) (hagrees : MapAgrees board t)
    (c : EntryCall) : MapAgrees board (entryStep board t c) ↔ MapKept board t c := by
  cases c with
  | add alloc portId vlanId mac =>
    by_cases hok : entryParaOk board portId vlanId = true
    · obtain ⟨k, hkey, hport, hvlan⟩ := h.key portId vlanId mac
      have hkept : MapKept board t (.add alloc portId vlanId mac) ↔ AddKept board t alloc k := by
        constructor
        · exact fun hall => hall hok k hkey
        · rintro hadd - k' hkey'
          rw [hkey] at hkey'
          cases hkey'
          exact hadd
      rw [hkept, AddKept]
      rcases h.add_effect hok hkey hport hvlan alloc with
        ⟨hnone, hfails, -, hlist, hvlans⟩ | ⟨hstores, hstored⟩
      · have hsame : MapAgrees board (entryStep board t (.add alloc portId vlanId mac)) := by
          rw [MapAgrees, hlist, hvlans]
          exact hagrees
        exact ⟨fun _ => Or.inl ⟨hnone, hfails⟩, fun _ => hsame⟩
      · rw [hstored.agrees_iff h hagrees]
        exact ⟨Or.inr, fun hor => hor.resolve_left hstores⟩
    · rw [entryStep, entryCall, if_neg hok]
      exact ⟨fun _ hok' => absurd hok' hok, fun _ => hagrees⟩
  | delete portId vlanId mac =>
    by_cases hok : entryParaOk board portId vlanId = true
    · obtain ⟨k, hkey, hport, hvlan⟩ := h.key portId vlanId mac
      have hkept : MapKept board t (.delete portId vlanId mac) ↔
          ∀ g, mcGroupListGet t k = some g → DeleteKept board t k g := by
        constructor
        · exact fun hall => hall hok k hkey
        · rintro hdel - k' hkey'
          rw [hkey] at hkey'
          cases hkey'
          exact hdel
      rw [hkept]
      cases hget : mcGroupListGet t k with
      | none =>
        rw [h.delete_none hkey hget]
        refine ⟨fun _ g hg => ?_, fun _ => hagrees⟩
        cases hg
      | some g =>
        have hremoved := h.delete_effect hok hkey hport hvlan hget
        rw [hremoved.agrees_iff h hagrees (hport ▸ ports_of_paraOk hok) hget]
        constructor
        · rintro hdel _ ⟨⟩
          exact hdel
        · exact fun hall => hall g rfl
    · rw [entryStep, entryCall, if_neg hok]
      exact ⟨fun _ hok' => absurd hok' hok, fun _ => hagrees⟩
  | deleteByVlan vlanId =>
    refine ⟨fun _ => trivial, fun _ => ?_⟩
    by_cases hvlan : vlanId ≤ maxVlanId
    · obtain ⟨-, hmem, hexist⟩ := h.deleteByVlan_effect hvlan
      intro i u
      rw [hexist, hagrees]
      constructor
      · rintro ⟨⟨g, hg, rfl, hi⟩, hstays⟩
        refine ⟨g, (hmem g).mpr ⟨hg, ?_⟩, rfl, hi⟩
        rintro rfl
        apply hstays
        refine ⟨?_, rfl⟩
        rcases h.ports g hg with hone | hall
        · by_cases hwild : g.hostPortId = 255
          · rwa [hwild, entryPorts, if_pos rfl] at hi
          · rwa [(mem_entryPorts_of_ne hwild).mp hi]
        · rwa [hall, entryPorts, if_pos rfl] at hi
      · rintro ⟨g, hg, rfl, hi⟩
        obtain ⟨hold, hne⟩ := (hmem g).mp hg
        exact ⟨⟨g, hold, rfl, hi⟩, fun hboth => hne hboth.2⟩
    · rw [entryStep, entryCall, if_neg hvlan]
      exact hagrees

theorem status_entryDelete (takes : SwitchEntry → Bool) (t : Tables) (portId vlanId : Nat)
    (mac : Mac) : (odmMulticastControlEntryDelete board takes t portId vlanId mac).1 = .error := by
  rw [odmMulticastControlEntryDelete]
  split
  · rfl
  · split
    · rfl
    · dsimp only
      split <;> rfl

/-- One deletion, and what it reports. -/
theorem EntryInv.reports_iff {t : Tables} (h : EntryInv board t) (c : EntryCall) :
    DeleteReports board t c ↔ FindsNone board t c := by
  cases c with
  | add alloc portId vlanId mac => exact Iff.rfl
  | deleteByVlan vlanId => exact Iff.rfl
  | delete portId vlanId mac =>
    have hstatus : (entryCall board t (.delete portId vlanId mac)).1 = .error := by
      rw [entryCall]
      split
      · exact status_entryDelete ..
      · rfl
    have hreports : DeleteReports board t (.delete portId vlanId mac) ↔
        (entryStep board t (.delete portId vlanId mac)).mcGroupList = t.mcGroupList := by
      rw [DeleteReports, hstatus]
      simp
    rw [hreports]
    by_cases hok : entryParaOk board portId vlanId = true
    · obtain ⟨k, hkey, hport, hvlan⟩ := h.key portId vlanId mac
      constructor
      · intro hsame _ k' hkey'
        rw [hkey] at hkey'
        cases hkey'
        by_contra hfound
        obtain ⟨g, hget⟩ := Option.ne_none_iff_exists'.mp hfound
        have hremoved := h.delete_effect hok hkey hport hvlan hget
        have hgone := ((hremoved.mem g).mp (hsame ▸ mem_of_get hget)).2
        rw [matches_of_get hget] at hgone
        cases hgone
      · intro hnone
        rw [h.delete_none hkey (hnone hok k hkey)]
    · rw [entryStep, entryCall, if_neg hok]
      exact ⟨fun _ hok' => absurd hok' hok, fun _ => rfl⟩

/-- **When the map follows the entries, and deletions report what they do.** -/
theorem entry_vlans_iff (board : Board) (control : McControl) (byIp : Bool)
    (config : Nat → Option (List Char)) (switch : SwitchEntry → Bool) (calls : List EntryCall) :
    let t := entryInit control byIp config switch
    (AllStates (entryStep board) (MapAgrees board) t calls ↔
        AllSteps (entryStep board) (MapKept board) t calls) ∧
      (AllSteps (entryStep board) (DeleteReports board) t calls ↔
        AllSteps (entryStep board) (FindsNone board) t calls) := by
  intro t
  have hinv : EntryInv board t := entryInv_init control byIp config switch
  constructor
  · refine allStates_iff_allSteps (entryStep board) (fun t => EntryInv board t ∧ MapAgrees board t)
      (fun t => And.right) ?_ ?_ ⟨hinv, mapAgrees_init control byIp config switch⟩
      (AllSteps.of_forall_mem (G := fun _ _ => True) (fun _ _ _ => trivial) t)
    · rintro t c ⟨h, hagrees⟩ - hkept
      exact ⟨h.step c, (h.agrees_iff hagrees c).mpr hkept⟩
    · rintro t c ⟨h, hagrees⟩ - hagrees'
      exact (h.agrees_iff hagrees c).mp hagrees'
  · exact allSteps_congr (entryStep board) (EntryInv board) (fun t c h => h.step c)
      (fun t c h => h.reports_iff c) hinv calls

/-- Two groups have VLAN 100, one on all ports and one on port 1.  Deleting the second takes the
VLAN from port 1, which the first still covers, and reports an error. -/
theorem port_entry_takes_vlan_of_all :
    let t := entryInit (mcControlInit mcConfigDefault) false (fun _ => none) fun _ => false
    ¬(∀ calls, AllStates (entryStep .onu4PortAr8327) (MapAgrees .onu4PortAr8327) t calls) ∧
      ¬∀ calls, AllSteps (entryStep .onu4PortAr8327) (DeleteReports .onu4PortAr8327) t calls := by
  intro t
  let all : Mac := [1, 0, 0x5e, 1, 1, 1]
  let one : Mac := [1, 0, 0x5e, 1, 1, 2]
  let calls : List EntryCall := [.add true 255 100 all, .add true 1 100 one, .delete 1 100 one]
  constructor
  · intro h
    have hagrees : MapAgrees .onu4PortAr8327 (run (entryStep .onu4PortAr8327) t calls) :=
      (h calls).last
    have hcovered : ∃ g ∈ (run (entryStep .onu4PortAr8327) t calls).mcGroupList,
        g.mcVlan = 100 ∧ 1 ∈ entryPorts .onu4PortAr8327 g.hostPortId := by decide +kernel
    have hgone : mcVlanMapExist (run (entryStep .onu4PortAr8327) t calls).vlans 1 100 = false := by
      decide +kernel
    rw [(hagrees 1 100).mpr hcovered] at hgone
    cases hgone
  · intro h
    have hreports := (h calls).2.2.1
    have herror : ¬(entryCall .onu4PortAr8327
        (run (entryStep .onu4PortAr8327) t (calls.take 2)) (.delete 1 100 one)).1 = .ok := by
      decide +kernel
    apply herror
    apply hreports.mpr
    decide +kernel

end Opconn.Multicast
