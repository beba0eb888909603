import Opconn.Lib.Runs
import Opconn.Multicast.ModeSwitch
import Opconn.Multicast.TableSteps

/-!
# Entries of the group list

In CTC mode groups are configured as entries, and the control type says which of their
fields tell two entries apart.  The bitmap of a type selects fewer fields than the type
is named for, and the one with the source MAC selects a field that no comparison finds
equal.  The list keeps its entries apart exactly as long as no call meets these gaps.
-/

namespace Opconn.Multicast

open FirstMatch Runs

/-! ### Fields -/

/-- The keys agree in the fields the bitmap selects.  The source MAC is stored in no entry
and given in no call. -/
def SameFields (bitmap : Bitmap) (a b : GroupKey) : Prop :=
  (bitmap.hostPortId = true → a.hostPortId = b.hostPortId) ∧
    (bitmap.gdaMac = true → a.groupMac = b.groupMac) ∧
    (bitmap.gdaIp = true → a.groupAddress = b.groupAddress) ∧
    (bitmap.vlanId = true → a.mcVlan = b.mcVlan)

instance (bitmap : Bitmap) (a b : GroupKey) : Decidable (SameFields bitmap a b) :=
  inferInstanceAs (Decidable (_ ∧ _ ∧ _ ∧ _))

/-- The fields that the control types are named for: `MC_CTL_GDA_MAC_VID` is "GDA MAC +
multicast VLAN ID based". -/
def CtcControlType.meant : CtcControlType → Bitmap
  | .gdaMac => ⟨true, false, true, false, false⟩
  | .gdaMacVid => ⟨true, false, true, true, false⟩
  | .gdaSaMac => ⟨true, false, true, false, true⟩
  | .gdaIpVid => ⟨false, true, true, true, false⟩

theorem SameFields.symm {bitmap : Bitmap} {a b : GroupKey} (h : SameFields bitmap a b) :
    SameFields bitmap b a :=
  ⟨fun hb => (h.1 hb).symm, fun hb => (h.2.1 hb).symm, fun hb => (h.2.2.1 hb).symm,
    fun hb => (h.2.2.2 hb).symm⟩

theorem SameFields.trans {bitmap : Bitmap} {a b c : GroupKey} (h : SameFields bitmap a b)
    (h' : SameFields bitmap b c) : SameFields bitmap a c :=
  ⟨fun hb => (h.1 hb).trans (h'.1 hb), fun hb => (h.2.1 hb).trans (h'.2.1 hb),
    fun hb => (h.2.2.1 hb).trans (h'.2.2.1 hb), fun hb => (h.2.2.2 hb).trans (h'.2.2.2 hb)⟩

theorem groupMatches_iff_sameFields {bitmap : Bitmap} {k : GroupKey} {g : Group} :
    groupMatches bitmap k g = true ↔ bitmap.saMac = false ∧ SameFields bitmap g.toGroupKey k := by
  rw [groupMatches_iff, groupCompare_iff, SameFields]

theorem sameFields_groupWrite (bitmap : Bitmap) (k : GroupKey) (state : NodeState) (node : Group) :
    SameFields bitmap (groupWrite bitmap k state node).toGroupKey k := by
  refine ⟨fun _ => rfl, ?_, fun _ => rfl, fun _ => rfl⟩
  intro hmac
  simp [groupWrite, hmac]

/-! ### Calls -/

/-- The tables with the counter `mcGroupTotalNum`. -/
structure ListState where
  tables : Tables
  mcGroupTotalNum : Nat

inductive ListCall where
  | add (alloc : Bool) (k : GroupKey) (state : NodeState)
  | del (k : GroupKey)
  | clear (takes : SwitchEntry → Bool)

/-- `mcGroupListAdd` counts a node it allocates, `mcGroupListDel` one it frees, and
`mcGroupListDestory` starts over. -/
def listStep (board : Board) (s : ListState) : ListCall → ListState
  | .add alloc k state =>
    match mcGroupListAdd alloc s.tables k state with
    | none => s
    | some tables =>
      { tables := tables
        mcGroupTotalNum :=
          match mcGroupListGet s.tables k with
          | some _ => s.mcGroupTotalNum
          | none => s.mcGroupTotalNum + 1 }
  | .del k =>
    match mcGroupListGet s.tables k with
    | none => s
    | some _ =>
      { tables := (mcGroupListDel s.tables k).2, mcGroupTotalNum := s.mcGroupTotalNum - 1 }
  | .clear takes =>
    { tables := odmMulticastControlEntryClear board takes s.tables, mcGroupTotalNum := 0 }

/-- A start in CTC mode with a control type, and any other settings. -/
def listInit (c : McConfig) (type : CtcControlType) (vlans : VlanState) : ListState where
  tables := (mcInit { c with mcMode := .ctc, ctcControlType := type } vlans).tables
  mcGroupTotalNum := 0

/-! ### What is to hold -/

/-- **The list in a state**: no two nodes with one key, and all of them counted. -/
structure ListSound (s : ListState) : Prop where
  distinct : s.tables.mcGroupList.Pairwise fun a b =>
    ¬SameFields s.tables.control.bitmap a.toGroupKey b.toGroupKey
  total : s.mcGroupTotalNum = s.tables.mcGroupList.length

/-- The node is the entry that was added; the MAC is stored where groups are searched by it. -/
def IsEntry (bitmap : Bitmap) (k : GroupKey) (state : NodeState) (node : Group) : Prop :=
  node.hostPortId = k.hostPortId ∧ node.groupAddress = k.groupAddress ∧
    node.mcVlan = k.mcVlan ∧ node.state = state ∧
    (bitmap.gdaMac = true → node.groupMac = k.groupMac)

/-- A call for a key leaves the entries alone that differ from it in a field the control
type is meant to match on. -/
def KeptApart (t t' : Tables) (k : GroupKey) : Prop :=
  ∀ node ∈ t.mcGroupList, ¬SameFields t.control.ctcControlType.meant node.toGroupKey k →
    node ∈ t'.mcGroupList

/-- **What a call is to do**: after an addition the entry is found, after a deletion none,
and entries that are meant to be told apart stay apart. -/
def answersRight (s : ListState) : ListCall → Prop
  | .add alloc k state => ∀ t', mcGroupListAdd alloc s.tables k state = some t' →
      (∃ node, mcGroupListGet t' k = some node ∧ IsEntry s.tables.control.bitmap k state node) ∧
        KeptApart s.tables t' k
  | .del k => mcGroupListGet (mcGroupListDel s.tables k).2 k = none ∧
      KeptApart s.tables (mcGroupListDel s.tables k).2 k
  | .clear _ => True

/-- No listed entry agrees with the key in the searched fields alone. -/
def NoneBetween (t : Tables) (k : GroupKey) : Prop :=
  ∀ node ∈ t.mcGroupList, SameFields t.control.ctcControlType.bitmap node.toGroupKey k →
    SameFields t.control.ctcControlType.meant node.toGroupKey k

/-- **The condition on a call.**  Nothing is added under the source MAC type, and no key is
named that differs from a listed entry only in a field the type forgets. -/
def fitsType (s : ListState) : ListCall → Prop
  | .add alloc k _ => (s.tables.control.ctcControlType = .gdaSaMac → alloc = false) ∧
      NoneBetween s.tables k
  | .del k => NoneBetween s.tables k
  | .clear _ => True

variable {board : Board}

/-- The keys of the control type are installed. -/
def TypeInstalled (s : ListState) : Prop :=
  s.tables.control.bitmap = s.tables.control.ctcControlType.bitmap

theorem typeInstalled_init (c : McConfig) (type : CtcControlType) (vlans : VlanState) :
    TypeInstalled (listInit c type vlans) := rfl

theorem saMac_bitmap {type : CtcControlType} : type.bitmap.saMac = true ↔ type = .gdaSaMac := by
  cases type <;> decide

theorem control_mcGroupListAdd {alloc : Bool} {t t' : Tables} {k : GroupKey} {state : NodeState}
    (h : mcGroupListAdd alloc t k state = some t') : t'.control = t.control := by
  unfold mcGroupListAdd at h
  split at h
  · cases h
    rfl
  · split at h
    · cases h
      rfl
    · cases h

theorem control_mcGroupListDel (t : Tables) (k : GroupKey) :
    (mcGroupListDel t k).2.control = t.control := by
  unfold mcGroupListDel
  split <;> rfl

theorem TypeInstalled.step {s : ListState} (h : TypeInstalled s) (e : ListCall) :
    TypeInstalled (listStep board s e) := by
  unfold TypeInstalled at h ⊢
  cases e with
  | add alloc k state =>
    rw [listStep]
    split
    · exact h
    · rename_i hadd
      rw [control_mcGroupListAdd hadd]
      exact h
  | del k =>
    rw [listStep]
    split
    · exact h
    · rw [control_mcGroupListDel]
      exact h
  | clear takes =>
    rw [listStep, control_entryClear]
    exact h

/-! ### Additions -/

section Add

variable {t : Tables} {k : GroupKey}

theorem single_of_distinct (h : t.mcGroupList.Pairwise fun a b =>
    ¬SameFields t.control.bitmap a.toGroupKey b.toGroupKey) (k : GroupKey) :
    Single (groupMatches t.control.bitmap k) t.mcGroupList := by
  refine h.imp ?_
  intro a b hne ha
  rw [← Bool.not_eq_true]
  intro hb
  exact hne ((groupMatches_iff_sameFields.mp ha).2.trans (groupMatches_iff_sameFields.mp hb).2.symm)

theorem isEntry_groupWrite (bitmap : Bitmap) (k : GroupKey) (state : NodeState) (node : Group) :
    IsEntry bitmap k state (groupWrite bitmap k state node) := by
  refine ⟨rfl, rfl, rfl, rfl, ?_⟩
  intro hmac
  simp [groupWrite, hmac]

/-- A written node answers to the key, where nodes answer at all. -/
theorem groupMatches_groupWrite {bitmap : Bitmap} (hsa : bitmap.saMac = false) (k : GroupKey)
    (state : NodeState) (node : Group) :
    groupMatches bitmap k (groupWrite bitmap k state node) = true :=
  groupMatches_iff_sameFields.mpr ⟨hsa, sameFields_groupWrite bitmap k state node⟩

/-- The node found is written over. -/
theorem distinct_overwrite (state : NodeState) (h : t.mcGroupList.Pairwise fun a b =>
    ¬SameFields t.control.bitmap a.toGroupKey b.toGroupKey) :
    (updateFirst (groupMatches t.control.bitmap k) (groupWrite t.control.bitmap k state)
      t.mcGroupList).Pairwise fun a b =>
        ¬SameFields t.control.bitmap a.toGroupKey b.toGroupKey := by
  refine pairwise_of_shrunk (R := fun a b : Group =>
    SameFields t.control.bitmap a.toGroupKey b.toGroupKey) ?_ h ?_
  · apply shrunk_updateFirst
    · intro a
      exact ⟨fun _ => rfl, fun _ => rfl, fun _ => rfl, fun _ => rfl⟩
    · intro a ha
      exact (sameFields_groupWrite _ k state a).trans (groupMatches_iff_sameFields.mp ha).2.symm
  · intro a' a b' b ha hb hne hsame
    exact hne ((ha.symm.trans hsame).trans hb)

/-- What an addition that succeeds leaves, where the source MAC is not selected. -/
theorem add_right {alloc : Bool} {t' : Tables} {state : NodeState}
    (hsa : t.control.bitmap.saMac = false) (h : mcGroupListAdd alloc t k state = some t') :
    ∃ node, mcGroupListGet t' k = some node ∧ IsEntry t.control.bitmap k state node := by
  have hmatches := groupMatches_groupWrite hsa k state
  unfold mcGroupListAdd at h
  split at h
  · rename_i g hget
    cases h
    refine ⟨groupWrite t.control.bitmap k state g, ?_, isEntry_groupWrite ..⟩
    rw [mcGroupListGet] at hget ⊢
    rw [find?_updateFirst_self (fun a _ => hmatches a), hget]
    rfl
  · split at h
    · cases h
      exact ⟨_, List.find?_cons_of_pos (hmatches zeroGroup), isEntry_groupWrite ..⟩
    · cases h

end Add

theorem ListSound.add {s : ListState} (h : ListSound s)
    (hsa : s.tables.control.bitmap.saMac = false) (alloc : Bool) (k : GroupKey)
    (state : NodeState) : ListSound (listStep board s (.add alloc k state)) := by
  obtain ⟨hdistinct, htotal⟩ := h
  rw [listStep]
  split
  · exact ⟨hdistinct, htotal⟩
  · rename_i t' hadd
    unfold mcGroupListAdd at hadd
    cases hget : mcGroupListGet s.tables k with
    | some g =>
      simp only [hget, Option.some.injEq] at hadd
      subst hadd
      refine ⟨distinct_overwrite state hdistinct, ?_⟩
      rw [length_updateFirst]
      exact htotal
    | none =>
      simp only [hget] at hadd
      split at hadd
      · cases hadd
        refine ⟨List.pairwise_cons.mpr ⟨?_, hdistinct⟩, ?_⟩
        · intro g hg hsame
          have hnot := List.find?_eq_none.mp hget g hg
          apply hnot
          refine groupMatches_iff_sameFields.mpr ⟨hsa, ?_⟩
          exact hsame.symm.trans (sameFields_groupWrite _ k state zeroGroup)
        · simp [htotal]
      · cases hadd

/-- An addition touches only the node it finds. -/
theorem keptApart_add {alloc : Bool} {t t' : Tables} {k : GroupKey} {state : NodeState}
    (htype : t.control.bitmap = t.control.ctcControlType.bitmap) (hnone : NoneBetween t k)
    (h : mcGroupListAdd alloc t k state = some t') : KeptApart t t' k := by
  intro node hnode hdiffers
  have hnot : groupMatches t.control.bitmap k node = false := by
    rw [← Bool.not_eq_true]
    intro hm
    have hsame := (groupMatches_iff_sameFields.mp hm).2
    rw [htype] at hsame
    exact hdiffers (hnone node hnode hsame)
  unfold mcGroupListAdd at h
  split at h
  · cases h
    exact mem_updateFirst_of_not hnode hnot
  · split at h
    · cases h
      exact List.mem_cons_of_mem _ hnode
    · cases h

/-! ### Deletions -/

theorem ListSound.del {s : ListState} (h : ListSound s) (k : GroupKey) :
    ListSound (listStep board s (.del k)) := by
  obtain ⟨hdistinct, htotal⟩ := h
  rw [listStep]
  split
  · exact ⟨hdistinct, htotal⟩
  · rename_i g hget
    have hlist : (mcGroupListDel s.tables k).2.mcGroupList =
        s.tables.mcGroupList.eraseP (groupMatches s.tables.control.bitmap k) := by
      simp only [mcGroupListDel, hget]
    constructor
    · rw [control_mcGroupListDel, hlist]
      exact hdistinct.sublist List.eraseP_sublist
    · rw [hlist, List.length_eraseP_of_mem (mem_of_get hget) (matches_of_get hget)]
      rw [htotal]

/-- After a deletion the key is not found, where the list has each key once. -/
theorem get_del {t : Tables} {k : GroupKey}
    (hsingle : Single (groupMatches t.control.bitmap k) t.mcGroupList) :
    mcGroupListGet (mcGroupListDel t k).2 k = none := by
  cases hget : mcGroupListGet t k with
  | none =>
    simp only [mcGroupListDel, hget]
  | some g =>
    simp only [mcGroupListDel, hget]
    exact find?_eraseP_self hsingle

theorem keptApart_del {t : Tables} {k : GroupKey}
    (htype : t.control.bitmap = t.control.ctcControlType.bitmap) (hnone : NoneBetween t k) :
    KeptApart t (mcGroupListDel t k).2 k := by
  intro node hnode hdiffers
  have hnot : ¬groupMatches t.control.bitmap k node = true := by
    intro hm
    have hsame := (groupMatches_iff_sameFields.mp hm).2
    rw [htype] at hsame
    exact hdiffers (hnone node hnode hsame)
  unfold mcGroupListDel
  split
  · exact hnode
  · exact (List.mem_eraseP_of_neg hnot).mpr hnode

/-! ### The condition is exact -/

theorem noneBetween_of_saMac {t : Tables} (h : t.control.ctcControlType = .gdaSaMac)
    (k : GroupKey) : NoneBetween t k := by
  intro node _ hsame
  rw [h] at hsame ⊢
  exact hsame

/-- Where a listed entry agrees with the key in the searched fields, a call for the key
takes it for the key. -/
theorem noneBetween_of_keptApart {t t' : Tables} {k : GroupKey}
    (htype : t.control.bitmap = t.control.ctcControlType.bitmap) (hkept : KeptApart t t' k)
    (hlost : ∀ node ∈ t'.mcGroupList, groupMatches t.control.bitmap k node = true →
      node.mcVlan = k.mcVlan) : NoneBetween t k := by
  intro node hnode hsame
  by_cases hsa : t.control.ctcControlType = .gdaSaMac
  · exact noneBetween_of_saMac hsa k node hnode hsame
  · by_contra hdiffers
    have hmatches : groupMatches t.control.bitmap k node = true := by
      refine groupMatches_iff_sameFields.mpr ⟨?_, ?_⟩
      · rw [htype, ← Bool.not_eq_true, saMac_bitmap]
        exact hsa
      · rw [htype]
        exact hsame
    have hvlan := hlost node (hkept node hnode hdiffers) hmatches
    apply hdiffers
    obtain ⟨hport, hmac, hip, -⟩ := hsame
    cases htype' : t.control.ctcControlType with
    | gdaSaMac => exact absurd htype' hsa
    | gdaMac | gdaMacVid | gdaIpVid =>
      rw [htype'] at hport hmac hip
      exact ⟨hport, hmac, hip, fun _ => hvlan⟩

/-- A comparison that selects the source MAC finds nothing. -/
theorem get_of_saMac {t : Tables} (h : t.control.bitmap.saMac = true) (k : GroupKey) :
    mcGroupListGet t k = none := by
  rw [mcGroupListGet, List.find?_eq_none]
  intro g _ hm
  rw [(groupMatches_iff_sameFields.mp hm).1] at h
  cases h

/-- An addition fails, or is found, so that under the source MAC type none succeeds. -/
theorem alloc_of_found {alloc : Bool} {t : Tables} {k : GroupKey} {state : NodeState}
    (hsa : t.control.bitmap.saMac = true)
    (hfound : ∀ t', mcGroupListAdd alloc t k state = some t' → mcGroupListGet t' k ≠ none) :
    alloc = false := by
  cases halloc : alloc with
  | false => rfl
  | true =>
    rw [halloc] at hfound
    cases hadd : mcGroupListAdd true t k state with
    | none => simp [mcGroupListAdd, get_of_saMac hsa k] at hadd
    | some t' =>
      have hsa' : t'.control.bitmap.saMac = true := by
        rw [control_mcGroupListAdd hadd]
        exact hsa
      exact absurd (get_of_saMac hsa' k) (hfound t' hadd)

/-- An addition that fails found no node that agrees in the searched fields. -/
theorem noneBetween_of_failed {alloc : Bool} {t : Tables} {k : GroupKey} {state : NodeState}
    (htype : t.control.bitmap = t.control.ctcControlType.bitmap)
    (hsa : t.control.bitmap.saMac = false) (hadd : mcGroupListAdd alloc t k state = none) :
    NoneBetween t k := by
  have hget : mcGroupListGet t k = none := by
    unfold mcGroupListAdd at hadd
    split at hadd
    · cases hadd
    · assumption
  intro node hnode hsame
  rw [← htype] at hsame
  exact absurd (groupMatches_iff_sameFields.mpr ⟨hsa, hsame⟩)
    (List.find?_eq_none.mp hget node hnode)

theorem fits_of_add {s : ListState} (htype : TypeInstalled s) {alloc : Bool} {k : GroupKey}
    {state : NodeState} (hsound : ListSound (listStep board s (.add alloc k state)))
    (hright : answersRight s (.add alloc k state)) : fitsType s (.add alloc k state) := by
  constructor
  · intro hsa
    have hbit : s.tables.control.bitmap.saMac = true := by
      rw [htype, hsa]
      rfl
    have hfound : ∀ t', mcGroupListAdd alloc s.tables k state = some t' →
        mcGroupListGet t' k ≠ none := by
      intro t' hadd hnone
      obtain ⟨⟨node, hget, -⟩, -⟩ := hright t' hadd
      rw [hnone] at hget
      cases hget
    exact alloc_of_found hbit hfound
  · by_cases hsa : s.tables.control.ctcControlType = .gdaSaMac
    · exact noneBetween_of_saMac hsa k
    · cases hadd : mcGroupListAdd alloc s.tables k state with
      | none =>
        refine noneBetween_of_failed htype ?_ hadd
        rw [htype, ← Bool.not_eq_true, saMac_bitmap]
        exact hsa
      | some t' =>
        obtain ⟨⟨found, hget, hentry⟩, hkept⟩ := hright t' hadd
        have hdistinct := hsound.distinct
        simp only [listStep, hadd] at hdistinct
        refine noneBetween_of_keptApart htype hkept ?_
        -- the only node that answers to the key is the entry
        intro node hnode hm
        rw [← control_mcGroupListAdd hadd] at hm
        have honly : mcGroupListGet t' k = some node :=
          find?_eq_some_of_single (single_of_distinct hdistinct k) hnode hm
        rw [hget] at honly
        rw [← Option.some.inj honly]
        exact hentry.2.2.1

theorem add_of_fits {s : ListState} (htype : TypeInstalled s) (h : ListSound s) {alloc : Bool}
    {k : GroupKey} {state : NodeState} (hfits : fitsType s (.add alloc k state)) :
    ListSound (listStep board s (.add alloc k state)) ∧ answersRight s (.add alloc k state) := by
  obtain ⟨halloc, hnone⟩ := hfits
  cases hsa : s.tables.control.bitmap.saMac with
  | false =>
    refine ⟨h.add hsa alloc k state, ?_⟩
    intro t' hadd
    exact ⟨add_right hsa hadd, keptApart_add htype hnone hadd⟩
  | true =>
    have hno : alloc = false := by
      apply halloc
      rw [← saMac_bitmap, ← htype]
      exact hsa
    have hadd : mcGroupListAdd alloc s.tables k state = none := by
      simp [mcGroupListAdd, get_of_saMac hsa k, hno]
    constructor
    · simp only [listStep, hadd]
      exact h
    · intro t' hsome
      rw [hadd] at hsome
      cases hsome

/-- One call keeps the list sound and answers right exactly when it fits the type. -/
theorem step_right_iff {s : ListState} (htype : TypeInstalled s) (h : ListSound s)
    (e : ListCall) :
    ListSound (listStep board s e) ∧ answersRight s e ↔ fitsType s e := by
  cases e with
  | add alloc k state =>
    constructor
    · rintro ⟨hsound, hright⟩
      exact fits_of_add htype hsound hright
    · exact add_of_fits htype h
  | del k =>
    constructor
    · rintro ⟨-, hgone, hkept⟩
      refine noneBetween_of_keptApart htype hkept ?_
      intro node hnode hm
      rw [mcGroupListGet, control_mcGroupListDel, List.find?_eq_none] at hgone
      exact absurd hm (hgone node hnode)
    · intro hnone
      exact ⟨h.del k, get_del (single_of_distinct h.distinct k), keptApart_del htype hnone⟩
  | clear takes =>
    constructor
    · intro _
      trivial
    · intro _
      exact ⟨⟨List.Pairwise.nil, rfl⟩, trivial⟩

/-! ### Runs -/

/-- **The list of a control type keeps its entries, in every state and at every call of a
run, exactly when every call fits the type.** -/
theorem group_entries_keyed (board : Board) (c : McConfig) (type : CtcControlType)
    (vlans : VlanState) (es : List ListCall) :
    AllStates (listStep board) ListSound (listInit c type vlans) es ∧
        AllSteps (listStep board) answersRight (listInit c type vlans) es ↔
      AllSteps (listStep board) fitsType (listInit c type vlans) es :=
  allStates_and_allSteps_iff (listStep board) TypeInstalled (fun _ e hs => hs.step e)
    (fun _ e hs hsound => step_right_iff hs hsound e) (typeInstalled_init c type vlans)
    ⟨List.Pairwise.nil, rfl⟩ es

/-- Under the type with the VLAN the same MAC address is added in two VLANs: the second
entry overwrites the first. -/
theorem second_vlan_overwrites_first :
    ¬(AllStates (listStep .onu1Port) ListSound (listInit mcConfigDefault .gdaMacVid vlanInit)
        [.add true ⟨1, [1, 0, 0x5e, 1, 1, 1], 0, 10⟩ .configByOam,
          .add true ⟨1, [1, 0, 0x5e, 1, 1, 1], 0, 20⟩ .configByOam] ∧
      AllSteps (listStep .onu1Port) answersRight (listInit mcConfigDefault .gdaMacVid vlanInit)
        [.add true ⟨1, [1, 0, 0x5e, 1, 1, 1], 0, 10⟩ .configByOam,
          .add true ⟨1, [1, 0, 0x5e, 1, 1, 1], 0, 20⟩ .configByOam]) := by
  rintro ⟨-, -, hsecond, -⟩
  obtain ⟨-, hkept⟩ := hsecond _ rfl
  have hfirst := hkept _ (List.mem_singleton_self _) (by decide)
  revert hfirst
  decide

end Opconn.Multicast
