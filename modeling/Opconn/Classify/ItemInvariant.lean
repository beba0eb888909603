import Opconn.Classify.ClsItems

/-!
# Records agree with the tables

`HwInv` says that the record of every installed rule agrees with the tables: the rule has its
id, its place in the address table and a mask slot that holds its own mask.  Slots below
`CLASSIFY_MIN_MASK_ENTRY` belong to one rule each.  Each call of the layer keeps it when the
rule it works on has its slot to itself, or shares one through the reference count.
-/

namespace Opconn.Classify

/-- The id and the mask slot that record `i` has for its rule. -/
abbrev ruleOf (d : Cls) (i : Nat) : Nat := (d.items i).shadowtbl.clsHwRuleID
abbrev maskOf (d : Cls) (i : Nat) : Nat := (d.items i).shadowtbl.clsHwMaskID

section Invariant

variable (make : Parameter → Option (MaskEntry × RuleEntry))

/-- The entries of a record's rule are where its shadow says, and are those made of its
parameter block. -/
structure Installed (t : Tables) (item : ClassifyItem) : Prop where
  made : ∃ m r, entriesOf make item.parameter = .ok (m, r) ∧
    sameMask m (t.cmask item.shadowtbl.clsHwMaskID) = true ∧
    t.crule item.shadowtbl.clsHwRuleID = { r with bfMsel := item.shadowtbl.clsHwMaskID } ∧
    item.shadowtbl.clsHwAddr = clsAddrCal r
  live : t.mallocFlag item.shadowtbl.clsHwRuleID = true
  slot : item.shadowtbl.clsHwMaskID < maxMaskEntry
  valid : (t.cmask item.shadowtbl.clsHwMaskID).bfValid = true
  off : item.shadowtbl.clsHwOff = item.shadowtbl.clsHwRuleID / entrysPerGroup
  id : item.classifyRuleID = item.shadowtbl.clsHwRuleID

structure HwInv (d : Cls) : Prop where
  rows : RowInv d.tables
  masks : SharedMasks d.tables
  items : ∀ i, (d.items i).valid = true → i < maxItem ∧ Installed make d.tables (d.items i)
  blank : ∀ i, (d.items i).valid = false → (d.items i).classifyRuleID = 0
  ids : ∀ i j, (d.items i).valid = true → (d.items j).valid = true →
    ruleOf d i = ruleOf d j → i = j
  known : ∀ id, d.tables.mallocFlag id = true → ∃ i, (d.items i).valid = true ∧ ruleOf d i = id
  own : ∀ i j, (d.items i).valid = true → (d.items j).valid = true →
    maskOf d i = maskOf d j → maskOf d i < minMaskEntry → i = j
  low : ∀ q < minMaskEntry, (∀ i, (d.items i).valid = true → maskOf d i ≠ q) →
    d.tables.cmask q = .zero
  unique : ∀ id id', d.tables.mallocFlag id = true → d.tables.mallocFlag id' = true →
    sameRule (d.tables.crule id) (d.tables.crule id') = true → id = id'

variable {make}

theorem hwInv_init : HwInv make clsInit where
  rows := rowInv_rst
  masks := sharedMasks_rst
  items := fun _ h => by cases h
  blank := fun _ _ => rfl
  ids := fun _ _ h => by cases h
  known := fun _ h => by cases h
  own := fun _ _ h => by cases h
  low := fun _ _ _ => rfl
  unique := fun _ _ h => by cases h

theorem Installed.msel {t : Tables} {item : ClassifyItem} (h : Installed make t item) :
    (t.crule item.shadowtbl.clsHwRuleID).bfMsel = item.shadowtbl.clsHwMaskID := by
  obtain ⟨m, r, -, -, hrule, -⟩ := h.made
  rw [hrule]

/-- The place of the rule in the address table. -/
theorem Installed.place {t : Tables} {item : ClassifyItem} (h : Installed make t item)
    (hrow : RowInv t) : t.caddr item.shadowtbl.clsHwAddr item.shadowtbl.clsHwOff =
      item.shadowtbl.clsHwRuleID := by
  obtain ⟨m, r, -, -, hrule, haddr⟩ := h.made
  have hslot := hrow.slot _ h.live
  rw [hrule, clsAddrCal_msel] at hslot
  rw [haddr, h.off]
  exact hslot

/-- A change elsewhere, or of the counts of the mask. -/
theorem Installed.congr {t t' : Tables} {item : ClassifyItem} (h : Installed make t item)
    (hrule : t'.crule item.shadowtbl.clsHwRuleID = t.crule item.shadowtbl.clsHwRuleID)
    (hlive : t'.mallocFlag item.shadowtbl.clsHwRuleID = true)
    (hvalid : (t'.cmask item.shadowtbl.clsHwMaskID).bfValid = true)
    (hmask : sameMask (t.cmask item.shadowtbl.clsHwMaskID)
      (t'.cmask item.shadowtbl.clsHwMaskID) = true) : Installed make t' item := by
  obtain ⟨m, r, hmake, hsame, hcrule, haddr⟩ := h.made
  refine ⟨⟨m, r, hmake, sameMask_trans hsame hmask, ?_, haddr⟩, hlive, h.slot, hvalid, h.off,
    h.id⟩
  rw [hrule]
  exact hcrule

theorem sameMask_refl (a : MaskEntry) : sameMask a a = true := by
  rw [sameMask_iff]
  exact ⟨rfl, rfl, rfl, rfl⟩

theorem Installed.elsewhere {t t' : Tables} {item : ClassifyItem} (h : Installed make t item)
    (hrule : t'.crule item.shadowtbl.clsHwRuleID = t.crule item.shadowtbl.clsHwRuleID)
    (hlive : t'.mallocFlag item.shadowtbl.clsHwRuleID = true)
    (hmask : t'.cmask item.shadowtbl.clsHwMaskID = t.cmask item.shadowtbl.clsHwMaskID) :
    Installed make t' item := by
  apply h.congr hrule hlive
  · rw [hmask]
    exact h.valid
  · rw [hmask]
    exact sameMask_refl _

theorem HwInv.msel {d : Cls} (h : HwInv make d) {i : Nat} (hi : (d.items i).valid = true) :
    (d.tables.crule (ruleOf d i)).bfMsel = maskOf d i := (h.items i hi).2.msel

/-- A rule that selects a slot below the shared ones is the rule of the record that has it. -/
theorem HwInv.owner {d : Cls} (h : HwInv make d) {i : Nat} (hi : (d.items i).valid = true)
    (hlow : maskOf d i < minMaskEntry) {id : Nat} (hid : d.tables.mallocFlag id = true)
    (hsel : (d.tables.crule id).bfMsel = maskOf d i) : id = ruleOf d i := by
  obtain ⟨j, hj, rfl⟩ := h.known id hid
  rw [h.msel hj] at hsel
  rw [h.own j i hj hi hsel (by rw [hsel]; exact hlow)]

end Invariant

/-- What does not reach the shared slots keeps them. -/
theorem SharedMasks.of_same {t t' : Tables} (h : SharedMasks t)
    (hmask : ∀ m ∈ sharedSlots, t'.cmask m = t.cmask m)
    (husers : ∀ m ∈ sharedSlots, users t' m = users t m)
    (hsel : ∀ id, t'.mallocFlag id = true →
      (t'.crule id).bfMsel < maxMaskEntry ∧ (t'.cmask (t'.crule id).bfMsel).bfValid = true) :
    SharedMasks t' := by
  refine ⟨hsel, ?_, ?_, ?_, ?_, ?_⟩
  · intro m hm
    rw [hmask m hm, husers m hm]
    exact h.count m hm
  · intro m hm
    rw [hmask m hm]
    exact h.used m hm
  · intro m hm
    rw [hmask m hm]
    exact h.zero m hm
  · intro m hm m' hm'
    rw [hmask m hm, hmask m' hm']
    exact h.distinct m hm m' hm'
  · intro m hm
    rw [hmask m hm]
    exact h.pri m hm

/-- A rule is gone from the tables and its record is cleared; every other rule still has its
entries. -/
theorem HwInv.forgotten {make : Parameter → Option (MaskEntry × RuleEntry)} {d : Cls}
    (h : HwInv make d) {i : Nat} (hi : (d.items i).valid = true) {t' : Tables}
    (hrows : RowInv t') (hmasks : SharedMasks t')
    (hlive : ∀ id, t'.mallocFlag id = true ↔
      id ≠ ruleOf d i ∧ d.tables.mallocFlag id = true)
    (hcrule : ∀ id, id ≠ ruleOf d i → t'.crule id = d.tables.crule id)
    (hcmask : ∀ j, j ≠ i → (d.items j).valid = true →
      (t'.cmask (maskOf d j)).bfValid = true ∧
        sameMask (d.tables.cmask (maskOf d j)) (t'.cmask (maskOf d j)) = true)
    (hlow : ∀ q < minMaskEntry, t'.cmask q = if q = maskOf d i then .zero else d.tables.cmask q) :
    HwInv make (setItem ⟨t', d.items⟩ i .zero) := by
  have hitem : ∀ j, j ≠ i → (setItem ⟨t', d.items⟩ i .zero).items j = d.items j :=
    fun j hj => Function.update_of_ne hj _ _
  have hself : (setItem ⟨t', d.items⟩ i .zero).items i = .zero := Function.update_self ..
  have hvj : ∀ j, ((setItem ⟨t', d.items⟩ i .zero).items j).valid = true →
      j ≠ i ∧ (d.items j).valid = true := by
    intro j hj
    by_cases hji : j = i
    · rw [hji, hself] at hj
      cases hj
    · rw [hitem j hji] at hj
      exact ⟨hji, hj⟩
  constructor
  · exact hrows
  · exact hmasks
  · intro j hj
    obtain ⟨hji, hj'⟩ := hvj j hj
    have hrule : ruleOf d j ≠ ruleOf d i := fun heq => hji (h.ids j i hj' hi heq)
    rw [hitem j hji]
    refine ⟨(h.items j hj').1, (h.items j hj').2.congr (hcrule _ hrule) ?_ ?_ ?_⟩
    · exact (hlive _).mpr ⟨hrule, (h.items j hj').2.live⟩
    · exact (hcmask j hji hj').1
    · exact (hcmask j hji hj').2
  · intro j hj
    by_cases hji : j = i
    · rw [hji, hself]
      rfl
    · rw [hitem j hji] at hj ⊢
      exact h.blank j hj
  · intro j j' hj hj'
    obtain ⟨hji, hv⟩ := hvj j hj
    obtain ⟨hji', hv'⟩ := hvj j' hj'
    simp only [ruleOf, hitem j hji, hitem j' hji']
    exact h.ids j j' hv hv'
  · intro id hid
    obtain ⟨hne, hid'⟩ := (hlive id).mp hid
    obtain ⟨j, hj, rfl⟩ := h.known id hid'
    have hji : j ≠ i := by
      rintro rfl
      exact hne rfl
    refine ⟨j, ?_, ?_⟩
    · rw [hitem j hji]
      exact hj
    · simp only [ruleOf, hitem j hji]
  · intro j j' hj hj'
    obtain ⟨hji, hv⟩ := hvj j hj
    obtain ⟨hji', hv'⟩ := hvj j' hj'
    simp only [maskOf, hitem j hji, hitem j' hji']
    exact h.own j j' hv hv'
  · intro q hq hnone
    show t'.cmask q = .zero
    rw [hlow q hq]
    split
    · rfl
    · next hqi =>
      refine h.low q hq ?_
      intro j hj
      by_cases hji : j = i
      · rw [hji]
        exact Ne.symm hqi
      · have := hnone j (by rw [hitem j hji]; exact hj)
        rwa [maskOf, hitem j hji] at this
  · intro id id' hid hid'
    obtain ⟨hne, hold⟩ := (hlive id).mp hid
    obtain ⟨hne', hold'⟩ := (hlive id').mp hid'
    show sameRule (t'.crule id) (t'.crule id') = true → _
    rw [hcrule id hne, hcrule id' hne']
    exact h.unique id id' hold hold'

/-! ### Moving a mask -/

section Change

variable {make : Parameter → Option (MaskEntry × RuleEntry)} {d : Cls} {i b : Nat}

/-- The state after the rule of record `i` moves to slot `b`. -/
abbrev changed (d : Cls) (i b : Nat) : Cls := (dalOnuClsRuleCtcChange d i b).1

theorem cmask_changed (hne : maskOf d i ≠ b) (q : Nat) :
    (changed d i b).tables.cmask q = if q = b then d.tables.cmask (maskOf d i)
      else if q = maskOf d i then .zero else d.tables.cmask q := by
  show Function.update (Function.update d.tables.cmask b (d.tables.cmask (maskOf d i)))
    (maskOf d i) .zero q = _
  by_cases hb : q = b
  · rw [if_pos hb, hb, Function.update_of_ne (Ne.symm hne), Function.update_self]
  · rw [if_neg hb]
    by_cases ha : q = maskOf d i
    · rw [if_pos ha, ha, Function.update_self]
    · rw [if_neg ha, Function.update_of_ne ha, Function.update_of_ne hb]

theorem crule_changed (hb : b < 32) (id : Nat) :
    (changed d i b).tables.crule id = if id = ruleOf d i then
      { d.tables.crule id with bfMsel := b } else d.tables.crule id := by
  show Function.update d.tables.crule (ruleOf d i)
    { d.tables.crule (ruleOf d i) with bfMsel := b % 32 } id = _
  rw [Nat.mod_eq_of_lt hb]
  by_cases hid : id = ruleOf d i
  · rw [if_pos hid, hid, Function.update_self]
  · rw [if_neg hid, Function.update_of_ne hid]

theorem items_changed (j : Nat) : (changed d i b).items j = if j = i then
    { d.items i with shadowtbl := { (d.items i).shadowtbl with clsHwMaskID := b } }
    else d.items j :=
  Function.update_apply ..

theorem valid_changed (j : Nat) : ((changed d i b).items j).valid = (d.items j).valid := by
  rw [items_changed]
  split
  · next h => rw [h]
  · rfl

theorem ruleOf_changed (j : Nat) : ruleOf (changed d i b) j = ruleOf d j := by
  simp only [ruleOf, items_changed]
  split
  · next h => rw [h]
  · rfl

theorem maskOf_changed (j : Nat) :
    maskOf (changed d i b) j = if j = i then b else maskOf d j := by
  simp only [maskOf, items_changed]
  split <;> rfl

/-- A rule moves between slots that no other rule uses. -/
theorem HwInv.changed (h : HwInv make d) (hi : (d.items i).valid = true)
    (ha : maskOf d i < minMaskEntry) (hb : b < minMaskEntry)
    (hfree : ∀ j, (d.items j).valid = true → maskOf d j ≠ b) :
    HwInv make (changed d i b) := by
  have hne : maskOf d i ≠ b := hfree i hi
  have hb32 : b < 32 := Nat.lt_trans hb (by decide)
  -- the other rules select other slots
  have hother : ∀ id, d.tables.mallocFlag id = true → id ≠ ruleOf d i →
      (d.tables.crule id).bfMsel ≠ maskOf d i ∧ (d.tables.crule id).bfMsel ≠ b := by
    intro id hid hidne
    refine ⟨fun hsel => hidne (h.owner hi ha hid hsel), ?_⟩
    obtain ⟨j, hj, rfl⟩ := h.known id hid
    rw [h.msel hj]
    exact hfree j hj
  have hsel : ∀ id, d.tables.mallocFlag id = true →
      ((Classify.changed d i b).tables.crule id).bfMsel < maxMaskEntry ∧
      ((Classify.changed d i b).tables.cmask
        ((Classify.changed d i b).tables.crule id).bfMsel).bfValid = true := by
    intro id hid
    rw [crule_changed hb32]
    by_cases hidr : id = ruleOf d i
    · rw [if_pos hidr]
      refine ⟨Nat.lt_trans hb (by decide), ?_⟩
      rw [cmask_changed hne, if_pos rfl]
      exact (h.items i hi).2.valid
    · rw [if_neg hidr]
      obtain ⟨hna, hnb⟩ := hother id hid hidr
      rw [cmask_changed hne, if_neg hnb, if_neg hna]
      exact h.masks.sel id hid
  have hshared : ∀ m ∈ sharedSlots, m ≠ b ∧ m ≠ maskOf d i := by
    intro m hm
    have := (mem_sharedSlots.mp hm).1
    omega
  constructor
  · refine h.rows.congr rfl rfl rfl ?_
    intro id _
    rw [crule_changed hb32]
    split <;> rfl
  · refine h.masks.of_same ?_ ?_ hsel
    · intro m hm
      rw [cmask_changed hne, if_neg (hshared m hm).1, if_neg (hshared m hm).2]
    · intro m hm
      ext id
      rw [mem_users, mem_users, crule_changed hb32]
      by_cases hidr : id = ruleOf d i
      · rw [if_pos hidr, hidr, h.msel hi]
        have := hshared m hm
        constructor
        · rintro ⟨-, -, hc⟩
          exact absurd hc (Ne.symm this.1)
        · rintro ⟨-, -, hc⟩
          exact absurd hc (Ne.symm this.2)
      · rw [if_neg hidr]
        exact Iff.rfl
  · intro j hj
    rw [valid_changed] at hj
    refine ⟨(h.items j hj).1, ?_⟩
    rw [items_changed]
    by_cases hji : j = i
    · rw [if_pos hji]
      obtain ⟨m, r, hmake, hsame, hrule, haddr⟩ := (h.items i hi).2.made
      refine ⟨⟨m, r, hmake, ?_, ?_, haddr⟩, (h.items i hi).2.live, Nat.lt_trans hb (by decide),
        ?_, (h.items i hi).2.off, (h.items i hi).2.id⟩
      · show sameMask m ((Classify.changed d i b).tables.cmask b) = true
        rw [cmask_changed hne, if_pos rfl]
        exact hsame
      · show (Classify.changed d i b).tables.crule (ruleOf d i) = { r with bfMsel := b }
        rw [crule_changed hb32, if_pos rfl, hrule]
      · show ((Classify.changed d i b).tables.cmask b).bfValid = true
        rw [cmask_changed hne, if_pos rfl]
        exact (h.items i hi).2.valid
    · rw [if_neg hji]
      have hrule : ruleOf d j ≠ ruleOf d i := fun heq => hji (h.ids j i hj hi heq)
      have hmask : maskOf d j ≠ maskOf d i := by
        intro heq
        exact hji (h.own j i hj hi heq (by rw [heq]; exact ha))
      apply (h.items j hj).2.elsewhere
      · rw [crule_changed hb32, if_neg hrule]
      · exact (h.items j hj).2.live
      · rw [cmask_changed hne, if_neg (hfree j hj), if_neg hmask]
  · intro j hj
    rw [valid_changed] at hj
    rw [items_changed]
    split
    · next hji => exact h.blank i (hji ▸ hj)
    · exact h.blank j hj
  · intro j j' hj hj'
    rw [valid_changed] at hj hj'
    rw [ruleOf_changed, ruleOf_changed]
    exact h.ids j j' hj hj'
  · intro id hid
    obtain ⟨j, hj, hrule⟩ := h.known id hid
    exact ⟨j, by rw [valid_changed]; exact hj, by rw [ruleOf_changed]; exact hrule⟩
  · intro j j' hj hj'
    rw [valid_changed] at hj hj'
    rw [maskOf_changed, maskOf_changed]
    by_cases hji : j = i
    · by_cases hji' : j' = i
      · exact fun _ _ => hji.trans hji'.symm
      · rw [if_pos hji, if_neg hji']
        intro heq
        exact absurd heq.symm (hfree j' hj')
    · rw [if_neg hji]
      by_cases hji' : j' = i
      · rw [if_pos hji']
        intro heq
        exact absurd heq (hfree j hj)
      · rw [if_neg hji']
        exact h.own j j' hj hj'
  · intro q hq hnone
    have hqb : q ≠ b := by
      rintro rfl
      refine hnone i (by rw [valid_changed]; exact hi) ?_
      rw [maskOf_changed, if_pos rfl]
    rw [cmask_changed hne, if_neg hqb]
    by_cases hqa : q = maskOf d i
    · rw [if_pos hqa]
    · rw [if_neg hqa]
      refine h.low q hq ?_
      intro j hj
      by_cases hji : j = i
      · rw [hji]
        exact Ne.symm hqa
      · have := hnone j (by rw [valid_changed]; exact hj)
        rwa [maskOf_changed, if_neg hji] at this
  · intro id id' hid hid'
    rw [crule_changed hb32, crule_changed hb32]
    by_cases hidr : id = ruleOf d i
    · by_cases hidr' : id' = ruleOf d i
      · exact fun _ => hidr.trans hidr'.symm
      · rw [if_pos hidr, if_neg hidr']
        intro hsame
        exact absurd (sameRule_iff.mp hsame).1.symm (hother id' hid' hidr').2
    · rw [if_neg hidr]
      by_cases hidr' : id' = ruleOf d i
      · rw [if_pos hidr']
        intro hsame
        exact absurd (sameRule_iff.mp hsame).1 (hother id hid hidr).2
      · rw [if_neg hidr']
        exact h.unique id id' hid hid'

end Change

/-! ### Removing a rule -/

section Removal

variable {make : Parameter → Option (MaskEntry × RuleEntry)} {d : Cls} {i : Nat}

theorem cmask_removed (q : Nat) : (dalOnuClsRuleCtcDel d i).tables.cmask q =
    if q = maskOf d i then .zero else d.tables.cmask q :=
  Function.update_apply ..

theorem crule_removed (id : Nat) : (dalOnuClsRuleCtcDel d i).tables.crule id =
    if id = ruleOf d i then .zero else d.tables.crule id :=
  Function.update_apply ..

theorem mallocFlag_removed (id : Nat) :
    (dalOnuClsRuleCtcDel d i).tables.mallocFlag id = true ↔
      id ≠ ruleOf d i ∧ d.tables.mallocFlag id = true := by
  show Function.update d.tables.mallocFlag (ruleOf d i) false id = true ↔ _
  by_cases hid : id = ruleOf d i
  · simp [hid]
  · simp [hid]

/-- A rule is removed that has its mask slot to itself. -/
theorem HwInv.removed (h : HwInv make d) (hi : (d.items i).valid = true)
    (hsole : ∀ j, (d.items j).valid = true → maskOf d j = maskOf d i → j = i) :
    HwInv make (dalOnuClsRuleCtcDel d i) := by
  have hinst := (h.items i hi).2
  -- what is left selects other slots
  have hother : ∀ id, d.tables.mallocFlag id = true → id ≠ ruleOf d i →
      (d.tables.crule id).bfMsel ≠ maskOf d i := by
    intro id hid hne hsel
    obtain ⟨j, hj, rfl⟩ := h.known id hid
    rw [h.msel hj] at hsel
    exact hne (by rw [hsole j hj hsel])
  have husers : ∀ m, users (dalOnuClsRuleCtcDel d i).tables m =
      if m = maskOf d i then ∅ else users d.tables m := by
    intro m
    ext id
    rw [mem_users, mallocFlag_removed, crule_removed]
    by_cases hm : m = maskOf d i
    · rw [if_pos hm]
      constructor
      · rintro ⟨-, ⟨hne, hid⟩, hsel⟩
        rw [if_neg hne, hm] at hsel
        exact absurd hsel (hother id hid hne)
      · simp
    · rw [if_neg hm, mem_users]
      by_cases hidr : id = ruleOf d i
      · rw [hidr, h.msel hi]
        constructor
        · rintro ⟨-, ⟨hne, -⟩, -⟩
          exact absurd rfl hne
        · rintro ⟨-, -, hsel⟩
          exact absurd hsel.symm hm
      · rw [if_neg hidr]
        simp [hidr]
  refine h.forgotten hi ?_ ?_ mallocFlag_removed ?_ ?_ ?_
  · refine h.rows.released hinst.live (hinst.place h.rows) ?_ rfl rfl ?_
    · intro row off
      exact caddr_dalClsAddrTblWr _ _ _ _ _ _
    · intro id hne _
      exact congrArg clsAddrCal ((crule_removed id).trans (if_neg hne))
  · show SharedMasks (dalOnuClsRuleCtcDel d i).tables
    constructor
    · intro id hid
      obtain ⟨hne, hid'⟩ := (mallocFlag_removed id).mp hid
      rw [crule_removed, if_neg hne, cmask_removed, if_neg (hother id hid' hne)]
      exact h.masks.sel id hid'
    · intro m hm
      rw [husers, cmask_removed]
      split
      · rfl
      · exact h.masks.count m hm
    · intro m hm
      rw [cmask_removed]
      split
      · intro hv
        cases hv
      · exact h.masks.used m hm
    · intro m hm
      rw [cmask_removed]
      split
      · exact fun _ => rfl
      · exact h.masks.zero m hm
    · intro m hm m' hm'
      rw [cmask_removed, cmask_removed]
      split
      · intro hv
        cases hv
      · split
        · intro _ hv
          cases hv
        · exact h.masks.distinct m hm m' hm'
    · intro m hm
      rw [cmask_removed]
      split
      · rfl
      · exact h.masks.pri m hm
  · intro id hne
    exact (crule_removed id).trans (if_neg hne)
  · intro j hji hj
    have hmask : (dalOnuClsRuleCtcDel d i).tables.cmask (maskOf d j) =
        d.tables.cmask (maskOf d j) :=
      (cmask_removed _).trans (if_neg fun heq => hji (hsole j hj heq))
    show ((dalOnuClsRuleCtcDel d i).tables.cmask (maskOf d j)).bfValid = true ∧
      sameMask _ ((dalOnuClsRuleCtcDel d i).tables.cmask (maskOf d j)) = true
    rw [hmask]
    exact ⟨(h.items j hj).2.valid, sameMask_refl _⟩
  · intro q _
    exact cmask_removed q

/-- A slot with one user belongs to the record of that user. -/
theorem HwInv.sole_of_count (h : HwInv make d) (hi : (d.items i).valid = true)
    (hone : minMaskEntry ≤ maskOf d i → (d.tables.cmask (maskOf d i)).referenceCount = 1)
    {j : Nat} (hj : (d.items j).valid = true) (heq : maskOf d j = maskOf d i) : j = i := by
  by_cases hlow : maskOf d i < minMaskEntry
  · exact h.own j i hj hi heq (by rw [heq]; exact hlow)
  · have hslot : maskOf d i ∈ sharedSlots :=
      mem_sharedSlots.mpr ⟨by omega, (h.items i hi).2.slot⟩
    have hcard := h.masks.count _ hslot
    rw [hone (by omega)] at hcard
    obtain ⟨id, hid⟩ := Finset.card_eq_one.mp hcard.symm
    have hmem : ∀ k, (d.items k).valid = true → maskOf d k = maskOf d i →
        ruleOf d k ∈ users d.tables (maskOf d i) := by
      intro k hk hmask
      have hlive := (h.items k hk).2.live
      rw [mem_users, h.msel hk]
      exact ⟨(usableId_iff.mp (h.rows.ids _ hlive)).1, hlive, hmask⟩
    have hjm := hmem j hj heq
    have him := hmem i hi rfl
    rw [hid, Finset.mem_singleton] at hjm him
    exact h.ids j i hj hi (hjm.trans him.symm)

end Removal

/-! ### Installing a rule -/

theorem clsAddrCal_congr {a b : RuleEntry} (hin : a.bfIngress = b.bfIngress)
    (heg : a.bfEgress = b.bfEgress) (hrule : a.rule = b.rule) : clsAddrCal a = clsAddrCal b := by
  simp only [clsAddrCal, hin, heg, hrule]

/-- No rule of the table is equal to one that `clsRuleIDSel` does not find. -/
theorem RowInv.not_sameRule {t : Tables} (h : RowInv t) {r : RuleEntry}
    (hnone : clsRuleIDSel t r (clsAddrCal r) = none) {id : Nat}
    (hid : t.mallocFlag id = true) : sameRule r (t.crule id) = false := by
  rw [Bool.eq_false_iff]
  intro hsame
  obtain ⟨-, hin, heg, hrule⟩ := sameRule_iff.mp hsame
  have hslot := h.slot id hid
  rw [← clsAddrCal_congr hin heg hrule] at hslot
  have husable := (usableId_iff.mp (h.ids id hid)).1
  have hfind := Option.map_eq_none_iff.mp hnone
  have hoff : id / entrysPerGroup ∈ List.range ruleTableGroup := by
    simp only [entrysPerGroup, maxRuleEntry, ruleTableGroup, List.mem_range] at husable ⊢
    omega
  have hnot := List.find?_eq_none.mp hfind _ hoff
  have hne := h.ne_zero hid
  have hffff : id ≠ 0xFFFF := by
    simp only [maxRuleEntry] at husable
    omega
  simp [hslot, hne, hffff, hsame] at hnot

/-- No two rules of one mask are equal. -/
def NoDuplicates (t : Tables) : Prop :=
  ∀ a b, t.mallocFlag a = true → t.mallocFlag b = true →
    sameRule (t.crule a) (t.crule b) = true → a = b

theorem NoDuplicates.installed {t : Tables} (h : NoDuplicates t) (hrow : RowInv t) {k : Nat}
    (m : MaskEntry) {r : RuleEntry} (ruleID : Nat)
    (hsel : clsRuleIDSel t r (clsAddrCal r) = none) :
    NoDuplicates (installed t k m r ruleID) := by
  intro a b ha hb
  rw [mallocFlag_installed] at ha hb
  rw [crule_installed, crule_installed]
  by_cases haid : a = ruleID
  · by_cases hbid : b = ruleID
    · exact fun _ => haid.trans hbid.symm
    · rw [if_pos haid, if_neg hbid, hrow.not_sameRule hsel (hb.resolve_left hbid)]
      intro hsame
      cases hsame
  · have hold := ha.resolve_left haid
    by_cases hbid : b = ruleID
    · rw [if_neg haid, if_pos hbid]
      intro hsame
      have hsame' := sameRule_symm hsame
      rw [hrow.not_sameRule hsel hold] at hsame'
      cases hsame'
    · rw [if_neg haid, if_neg hbid]
      exact h a b hold (hb.resolve_left hbid)

section Install

variable {make : Parameter → Option (MaskEntry × RuleEntry)} {d : Cls}

/-- An unused record may hold anything that names no rule. -/
theorem HwInv.setBlank (h : HwInv make d) {i : Nat} (hi : (d.items i).valid = false)
    {item : ClassifyItem} (hvalid : item.valid = false) (hid : item.classifyRuleID = 0) :
    HwInv make (setItem d i item) := by
  have hitem : ∀ j, j ≠ i → (setItem d i item).items j = d.items j :=
    fun j hj => Function.update_of_ne hj _ _
  have hself : (setItem d i item).items i = item := Function.update_self ..
  have hvj : ∀ j, ((setItem d i item).items j).valid = true →
      j ≠ i ∧ (d.items j).valid = true := by
    intro j hj
    by_cases hji : j = i
    · rw [hji, hself, hvalid] at hj
      cases hj
    · rw [hitem j hji] at hj
      exact ⟨hji, hj⟩
  have hne : ∀ j, (d.items j).valid = true → j ≠ i := by
    rintro j hj rfl
    rw [hi] at hj
    cases hj
  constructor
  · exact h.rows
  · exact h.masks
  · intro j hj
    obtain ⟨hji, hj'⟩ := hvj j hj
    rw [hitem j hji]
    exact h.items j hj'
  · intro j hj
    by_cases hji : j = i
    · rw [hji, hself]
      exact hid
    · rw [hitem j hji] at hj ⊢
      exact h.blank j hj
  · intro j j' hj hj'
    obtain ⟨hji, hj⟩ := hvj j hj
    obtain ⟨hji', hj'⟩ := hvj j' hj'
    simp only [ruleOf, hitem j hji, hitem j' hji']
    exact h.ids j j' hj hj'
  · intro id hlive
    obtain ⟨j, hj, hrule⟩ := h.known id hlive
    refine ⟨j, ?_, ?_⟩
    · rw [hitem j (hne j hj)]
      exact hj
    · simp only [ruleOf, hitem j (hne j hj)]
      exact hrule
  · intro j j' hj hj'
    obtain ⟨hji, hj⟩ := hvj j hj
    obtain ⟨hji', hj'⟩ := hvj j' hj'
    simp only [maskOf, hitem j hji, hitem j' hji']
    exact h.own j j' hj hj'
  · intro q hq hnone
    refine h.low q hq ?_
    intro j hj
    have := hnone j (by rw [hitem j (hne j hj)]; exact hj)
    rwa [maskOf, hitem j (hne j hj)] at this
  · exact h.unique

/-- The record of a rule that is installed in slot `k` under id `ruleID`. -/
def itemFor (par : Parameter) (r : RuleEntry) (k ruleID : Nat) : ClassifyItem :=
  ⟨par, ruleID, ⟨ruleID, k, clsAddrCal r, ruleID / entrysPerGroup⟩, true⟩

/-- The state with that rule and its record. -/
def withRule (d : Cls) (idx : Nat) (par : Parameter) (m : MaskEntry) (r : RuleEntry)
    (k ruleID : Nat) : Cls :=
  setItem ⟨installed d.tables k m { r with bfMsel := k } ruleID, d.items⟩ idx
    (itemFor par r k ruleID)

/-- A rule is installed in a free slot, or in one whose mask is its own. -/
theorem HwInv.installed (h : HwInv make d) {idx : Nat} (hidx : (d.items idx).valid = false)
    (hmax : idx < maxItem) {par : Parameter} {m : MaskEntry} {r : RuleEntry}
    (hmake : entriesOf make par = .ok (m, r)) {k ruleID : Nat} (hk : k < maxMaskEntry)
    (hnew : d.tables.mallocFlag ruleID = false) (husable : usableId ruleID = true)
    (hfree : d.tables.caddr (clsAddrCal r) (ruleID / entrysPerGroup) = 0)
    (hsel : clsRuleIDSel d.tables { r with bfMsel := k } (clsAddrCal r) = none)
    (hmasks : SharedMasks (withRule d idx par m r k ruleID).tables)
    (hshare : ∀ j, (d.items j).valid = true → maskOf d j = k →
      minMaskEntry ≤ k ∧ sameMask m (d.tables.cmask k) = true) :
    HwInv make (withRule d idx par m r k ruleID) := by
  have hitem : ∀ j, j ≠ idx → (withRule d idx par m r k ruleID).items j = d.items j :=
    fun j hj => Function.update_of_ne hj _ _
  have hself : (withRule d idx par m r k ruleID).items idx = itemFor par r k ruleID :=
    Function.update_self ..
  have hnotidx : ∀ j, (d.items j).valid = true → j ≠ idx := by
    rintro j hj rfl
    rw [hidx] at hj
    cases hj
  have hold : ∀ j, ((withRule d idx par m r k ruleID).items j).valid = true → j ≠ idx →
      (d.items j).valid = true := by
    intro j hj hne
    rwa [hitem j hne] at hj
  have hidne : ∀ id, d.tables.mallocFlag id = true → id ≠ ruleID := by
    rintro id hid rfl
    rw [hnew] at hid
    cases hid
  have hlive : ∀ id, (withRule d idx par m r k ruleID).tables.mallocFlag id = true ↔
      id = ruleID ∨ d.tables.mallocFlag id = true :=
    mallocFlag_installed d.tables k m { r with bfMsel := k } ruleID
  have hcrule : ∀ id, id ≠ ruleID →
      (withRule d idx par m r k ruleID).tables.crule id = d.tables.crule id :=
    fun id hid => Function.update_of_ne hid _ _
  have hcruleself : (withRule d idx par m r k ruleID).tables.crule ruleID =
      { r with bfMsel := k } := Function.update_self ..
  have hcmask : ∀ q, q ≠ k →
      (withRule d idx par m r k ruleID).tables.cmask q = d.tables.cmask q :=
    fun q hq => Function.update_of_ne hq _ _
  have hcmaskself : (withRule d idx par m r k ruleID).tables.cmask k =
      { m with bfValid := true, referenceCount := (d.tables.cmask k).referenceCount + 1 } :=
    Function.update_self ..
  constructor
  · exact h.rows.installed hnew husable hfree
  · exact hmasks
  · intro j hj
    by_cases hji : j = idx
    · rw [hji, hself]
      refine ⟨hmax, ⟨m, r, hmake, ?_, hcruleself, rfl⟩, ?_, hk, ?_, rfl, rfl⟩
      · show sameMask m ((withRule d idx par m r k ruleID).tables.cmask k) = true
        rw [hcmaskself, sameMask_iff]
        exact ⟨rfl, rfl, rfl, rfl⟩
      · exact (hlive ruleID).mpr (.inl rfl)
      · show ((withRule d idx par m r k ruleID).tables.cmask k).bfValid = true
        rw [hcmaskself]
    · have hj' := hold j hj hji
      have hinst := (h.items j hj').2
      have hrule := hcrule _ (hidne _ hinst.live)
      have hlive' := (hlive (ruleOf d j)).mpr (.inr hinst.live)
      rw [hitem j hji]
      refine ⟨(h.items j hj').1, ?_⟩
      by_cases hjk : maskOf d j = k
      · -- the two rules share the mask
        apply hinst.congr hrule hlive'
        · rw [show (d.items j).shadowtbl.clsHwMaskID = k from hjk, hcmaskself]
        · rw [show (d.items j).shadowtbl.clsHwMaskID = k from hjk, hcmaskself]
          exact sameMask_symm (hshare j hj' hjk).2
      · exact hinst.elsewhere hrule hlive' (hcmask _ hjk)
  · intro j hj
    by_cases hji : j = idx
    · rw [hji, hself] at hj
      cases hj
    · rw [hitem j hji] at hj ⊢
      exact h.blank j hj
  · intro j j' hj hj'
    by_cases hji : j = idx
    · by_cases hji' : j' = idx
      · exact fun _ => hji.trans hji'.symm
      · have hv := hold j' hj' hji'
        simp only [ruleOf, hji, hself, hitem j' hji']
        intro heq
        exact absurd heq.symm (hidne _ (h.items j' hv).2.live)
    · have hv := hold j hj hji
      by_cases hji' : j' = idx
      · simp only [ruleOf, hji', hself, hitem j hji]
        intro heq
        exact absurd heq (hidne _ (h.items j hv).2.live)
      · simp only [ruleOf, hitem j hji, hitem j' hji']
        exact h.ids j j' hv (hold j' hj' hji')
  · intro id hid
    rcases (hlive id).mp hid with rfl | hid'
    · exact ⟨idx, by rw [hself]; rfl, by simp only [ruleOf, hself]; rfl⟩
    · obtain ⟨j, hj, hrule⟩ := h.known id hid'
      refine ⟨j, ?_, ?_⟩
      · rw [hitem j (hnotidx j hj)]
        exact hj
      · simp only [ruleOf, hitem j (hnotidx j hj)]
        exact hrule
  · intro j j' hj hj'
    by_cases hji : j = idx
    · by_cases hji' : j' = idx
      · exact fun _ _ => hji.trans hji'.symm
      · have hv := hold j' hj' hji'
        simp only [maskOf, hji, hself, hitem j' hji']
        intro heq hlow
        have := (hshare j' hv heq.symm).1
        exact absurd hlow (Nat.not_lt.mpr this)
    · have hv := hold j hj hji
      by_cases hji' : j' = idx
      · simp only [maskOf, hji', hself, hitem j hji]
        intro heq hlow
        have hk' := (hshare j hv heq).1
        rw [heq] at hlow
        exact absurd hlow (Nat.not_lt.mpr hk')
      · simp only [maskOf, hitem j hji, hitem j' hji']
        exact h.own j j' hv (hold j' hj' hji')
  · intro q hq hnone
    have hqk : q ≠ k := by
      rintro rfl
      refine hnone idx (by rw [hself]; rfl) ?_
      simp only [maskOf, hself]
      rfl
    show (withRule d idx par m r k ruleID).tables.cmask q = _
    rw [hcmask q hqk]
    refine h.low q hq ?_
    intro j hj
    have := hnone j (by rw [hitem j (hnotidx j hj)]; exact hj)
    rwa [maskOf, hitem j (hnotidx j hj)] at this
  · exact NoDuplicates.installed h.unique h.rows m ruleID hsel

end Install

/-! ### Removing a rule by content -/

section Withdrawal

variable {make : Parameter → Option (MaskEntry × RuleEntry)} {d : Cls} {i : Nat}

/-- The rule of a record goes, its mask loses one reference or, with the last one, its slot. -/
theorem HwInv.withdrawn (h : HwInv make d) (hi : (d.items i).valid = true)
    (hshared : minMaskEntry ≤ maskOf d i) {row off : Nat}
    (haddr : d.tables.caddr row off = ruleOf d i)
    (hnext : (d.tables.cmask (maskOf d i)).referenceCount = 1 →
      maskOf d i + 1 < maxMaskEntry → (d.tables.cmask (maskOf d i + 1)).bfValid = false) :
    HwInv make (setItem
      ⟨withdrawn (clsMaskFree d.tables (maskOf d i)).1 row off (ruleOf d i), d.items⟩ i .zero) := by
  have hinst := (h.items i hi).2
  have hslot : maskOf d i ∈ sharedSlots := mem_sharedSlots.mpr ⟨hshared, hinst.slot⟩
  have hself : ruleOf d i ∈ users d.tables (maskOf d i) := by
    rw [mem_users]
    exact ⟨(usableId_iff.mp (h.rows.ids _ hinst.live)).1, hinst.live, hinst.msel⟩
  -- the rules stay as they are, and so does every mask that is still in use
  have hfreed : (clsMaskFree d.tables (maskOf d i)).1.crule = d.tables.crule ∧
      (∀ q, q ≠ maskOf d i →
        (clsMaskFree d.tables (maskOf d i)).1.cmask q = d.tables.cmask q) ∧
      ((∃ j, j ≠ i ∧ (d.items j).valid = true ∧ maskOf d j = maskOf d i) →
        ((clsMaskFree d.tables (maskOf d i)).1.cmask (maskOf d i)).bfValid = true ∧
        sameMask (d.tables.cmask (maskOf d i))
          ((clsMaskFree d.tables (maskOf d i)).1.cmask (maskOf d i)) = true) := by
    rcases clsMaskFree_cases h.masks hslot hinst.valid hself with
      ⟨hmore, heq⟩ | ⟨honly, l, hkl, hl, hall, hend, heq⟩
    · rw [heq]
      refine ⟨rfl, fun q hq => Function.update_of_ne hq _ _, fun _ => ?_⟩
      have hentry : (setMask d.tables (maskOf d i) { d.tables.cmask (maskOf d i) with
          referenceCount := (d.tables.cmask (maskOf d i)).referenceCount - 1 }).cmask
          (maskOf d i) = { d.tables.cmask (maskOf d i) with
            referenceCount := (d.tables.cmask (maskOf d i)).referenceCount - 1 } :=
        Function.update_self ..
      rw [hentry]
      refine ⟨hinst.valid, ?_⟩
      rw [sameMask_iff]
      exact ⟨rfl, rfl, rfl, rfl⟩
    · have hone : (d.tables.cmask (maskOf d i)).referenceCount = 1 := by
        rw [h.masks.count _ hslot, honly]
        rfl
      have hlk : l = maskOf d i := by
        by_contra hne
        have hv := hall (maskOf d i + 1) (by omega) (by omega)
        rw [hnext hone (by omega)] at hv
        cases hv
      rw [heq, hlk, shifted_self]
      refine ⟨rfl, fun q hq => Function.update_of_ne hq _ _, ?_⟩
      rintro ⟨j, hji, hj, hmask⟩
      have := msel_ne_of_only honly (fun hc => hji (h.ids j i hj hi hc))
        (h.rows.ids _ (h.items j hj).2.live) (h.items j hj).2.live
      exact absurd ((h.msel hj).trans hmask) this
  obtain ⟨hcrule, hcmask, hcmaskself⟩ := hfreed
  obtain ⟨halloc, -, -, -⟩ := clsMaskFree_frame d.tables (maskOf d i)
  refine h.forgotten hi ?_ ?_ ?_ ?_ ?_ ?_
  · exact h.rows.withdrawn hinst.live haddr
  · exact h.masks.withdrawn h.rows hslot hinst.valid hself
  · intro id
    rw [mallocFlag_withdrawn, halloc]
  · intro id _
    exact congrFun hcrule id
  · intro j hji hj
    by_cases hmask : maskOf d j = maskOf d i
    · rw [hmask]
      exact hcmaskself ⟨j, hji, hj, hmask⟩
    · have heq : (Classify.withdrawn (clsMaskFree d.tables (maskOf d i)).1 row off
          (ruleOf d i)).cmask (maskOf d j) = d.tables.cmask (maskOf d j) := hcmask _ hmask
      rw [heq]
      exact ⟨(h.items j hj).2.valid, sameMask_refl _⟩
  · intro q hq
    rw [if_neg (by omega)]
    exact hcmask q (by omega)

end Withdrawal

end Opconn.Classify
