import Mathlib.Data.Finset.Card
import Mathlib.Data.Finset.Range
import Opconn.Classify.Tables
import Opconn.Lib.Runs

/-!
# The tables stay consistent

Two invariants.  `RowInv` is about rule ids: the free counts are right, and an allocated id
sits in one place of the address table, given by the hash of its rule and by its group.
`SharedMasks` is about the shared mask slots: a rule selects a valid mask, and the
reference count of a mask is the number of rules that select it.  Both hold through every
call for rules without precedence, which keep the shared slots packed as well.
-/

namespace Opconn.Classify

open Runs

/-! ### Counting -/

/-- The allocated ids that select slot `m`. -/
def users (t : Tables) (m : Nat) : Finset Nat :=
  (Finset.range maxRuleEntry).filter fun ruleID =>
    t.mallocFlag ruleID = true ∧ (t.crule ruleID).bfMsel = m

/-- The ids of group `g` that are not allocated. -/
def freeIds (t : Tables) (g : Nat) : Finset Nat :=
  (Finset.range maxRuleEntry).filter fun ruleID =>
    ruleID / entrysPerGroup = g ∧ usableId ruleID = true ∧ t.mallocFlag ruleID = false

theorem mem_users {t : Tables} {m ruleID : Nat} :
    ruleID ∈ users t m ↔
      ruleID < maxRuleEntry ∧ t.mallocFlag ruleID = true ∧ (t.crule ruleID).bfMsel = m := by
  simp [users]

theorem mem_freeIds {t : Tables} {g ruleID : Nat} :
    ruleID ∈ freeIds t g ↔ ruleID < maxRuleEntry ∧ ruleID / entrysPerGroup = g ∧
      usableId ruleID = true ∧ t.mallocFlag ruleID = false := by
  simp [freeIds]

theorem usableId_iff {ruleID : Nat} :
    usableId ruleID = true ↔ ruleID < maxRuleEntry ∧ ruleID % entrysPerGroup ≠ 0 := by
  simp [usableId]

/-! ### Rule ids and hash rows -/

structure RowInv (t : Tables) : Prop where
  free : ∀ g < ruleTableGroup, t.freeCnt g = (freeIds t g).card
  ids : ∀ ruleID, t.mallocFlag ruleID = true → usableId ruleID = true
  slot : ∀ ruleID, t.mallocFlag ruleID = true →
    t.caddr (clsAddrCal (t.crule ruleID)) (ruleID / entrysPerGroup) = ruleID
  addr : ∀ row off, t.caddr row off ≠ 0 →
    t.mallocFlag (t.caddr row off) = true ∧ t.caddr row off / entrysPerGroup = off ∧
      clsAddrCal (t.crule (t.caddr row off)) = row

theorem RowInv.congr {t t' : Tables} (h : RowInv t) (hfree : t'.freeCnt = t.freeCnt)
    (halloc : t'.mallocFlag = t.mallocFlag) (haddr : t'.caddr = t.caddr)
    (hrule : ∀ ruleID, t.mallocFlag ruleID = true →
      clsAddrCal (t'.crule ruleID) = clsAddrCal (t.crule ruleID)) : RowInv t' := by
  constructor
  · intro g hg
    have hids : freeIds t' g = freeIds t g := by simp only [freeIds, halloc]
    rw [hfree, hids]
    exact h.free g hg
  · rw [halloc]
    exact h.ids
  · intro ruleID hid
    rw [halloc] at hid
    rw [haddr, hrule ruleID hid]
    exact h.slot ruleID hid
  · intro row off hne
    rw [haddr] at hne ⊢
    obtain ⟨hid, hgroup, hrow⟩ := h.addr row off hne
    refine ⟨?_, hgroup, ?_⟩
    · rw [halloc]
      exact hid
    · rw [hrule _ hid]
      exact hrow

theorem rowInv_rst : RowInv dalClsRst := by
  constructor
  · decide
  · intro ruleID hid
    cases hid
  · intro ruleID hid
    cases hid
  · intro row off hne
    exact absurd rfl hne

/-- Only the masks change. -/
theorem RowInv.setMask {t : Tables} (h : RowInv t) (m : Nat) (e : MaskEntry) :
    RowInv (setMask t m e) :=
  h.congr rfl rfl rfl fun _ _ => rfl

theorem mostFreeGroup_spec (t : Tables) (address : Nat) :
    let best := mostFreeGroup t address
    (best.2 = 0 ∧ ∀ g < ruleTableGroup, t.caddr address g = 0 → t.freeCnt g = 0) ∨
    (0 < best.2 ∧ best.1 < ruleTableGroup ∧ t.caddr address best.1 = 0 ∧
      best.2 = t.freeCnt best.1) := by
  -- the same for the groups looked at so far
  have hloop : ∀ n,
      let best := (List.range n).foldl (betterGroup t address) (0, 0)
      (best.2 = 0 ∧ ∀ g < n, t.caddr address g = 0 → t.freeCnt g = 0) ∨
      (0 < best.2 ∧ best.1 < n ∧ t.caddr address best.1 = 0 ∧ best.2 = t.freeCnt best.1) := by
    intro n
    induction n with
    | zero => exact .inl ⟨rfl, by simp⟩
    | succ n ih =>
      simp only [List.range_succ, List.foldl_append, List.foldl_cons, List.foldl_nil]
      rw [betterGroup]
      split
      · next hbetter =>
        refine .inr ⟨?_, Nat.lt_succ_self n, hbetter.2, rfl⟩
        exact Nat.lt_of_le_of_lt (Nat.zero_le _) hbetter.1
      · next hworse =>
        rcases ih with ⟨hzero, hnone⟩ | ⟨hpos, hlt, hfree, heq⟩
        · refine .inl ⟨hzero, ?_⟩
          intro g hg haddr
          rcases Nat.lt_succ_iff_lt_or_eq.mp hg with hlt | rfl
          · exact hnone g hlt haddr
          · by_contra hne
            exact hworse ⟨by omega, haddr⟩
        · exact .inr ⟨hpos, Nat.lt_succ_of_lt hlt, hfree, heq⟩
  exact hloop ruleTableGroup

/-- The tables after `clsRuleMalloc` found id `ruleID` in group `off`. -/
def allocated (t : Tables) (row off ruleID : Nat) : Tables :=
  { dalClsAddrTblWr t row off 0xFFFF with
    mallocFlag := Function.update t.mallocFlag ruleID true
    freeCnt := Function.update t.freeCnt off (t.freeCnt off - 1) }

/-- `clsRuleMalloc` changes nothing when it fails, for want of a group; an id it finds is
free, belongs to the group of its offset, and the place in the row is free. -/
theorem clsRuleMalloc_spec {t : Tables} (h : RowInv t) (row : Nat) :
    ((mostFreeGroup t row).2 = 0 ∧ ∃ e, clsRuleMalloc t row = (t, .error e)) ∨
    ∃ ruleID off, clsRuleMalloc t row = (allocated t row off ruleID, .ok (ruleID, off)) ∧
      off < ruleTableGroup ∧ t.caddr row off = 0 ∧ t.mallocFlag ruleID = false ∧
      usableId ruleID = true ∧ ruleID / entrysPerGroup = off := by
  rw [clsRuleMalloc]
  split
  · next hfull =>
    refine .inl ⟨?_, _, rfl⟩
    rcases mostFreeGroup_spec t row with ⟨hzero, -⟩ | ⟨-, hlt, hfree, -⟩
    · exact hzero
    · have hne := List.all_eq_true.mp hfull _ (List.mem_range.mpr hlt)
      simp [hfree] at hne
  · rcases mostFreeGroup_spec t row with ⟨hzero, -⟩ | ⟨hpos, hlt, hfree, heq⟩
    · rw [if_pos hzero]
      exact .inl ⟨hzero, _, rfl⟩
    · rw [if_neg (Nat.pos_iff_ne_zero.mp hpos)]
      -- a positive count means a free id, so the search succeeds
      have hcard : 0 < (freeIds t (mostFreeGroup t row).1).card := by
        rw [← h.free _ hlt, ← heq]
        exact hpos
      obtain ⟨w, hw⟩ := Finset.card_pos.mp hcard
      obtain ⟨hmax, hgroup, husable, hunused⟩ := mem_freeIds.mp hw
      have hmod := (usableId_iff.mp husable).2
      cases hfind : (List.range' (entrysPerGroup * (mostFreeGroup t row).1 + 1)
          (entrysPerGroup - 1)).find? fun ruleCnt => !t.mallocFlag ruleCnt with
      | none =>
        have hmem : w ∈ List.range' (entrysPerGroup * (mostFreeGroup t row).1 + 1)
            (entrysPerGroup - 1) := by
          rw [List.mem_range'_1]
          simp only [entrysPerGroup] at hgroup hmod ⊢
          omega
        have := List.find?_eq_none.mp hfind w hmem
        simp [hunused] at this
      | some ruleID =>
        have hunused' : t.mallocFlag ruleID = false := by simpa using List.find?_some hfind
        have hmem := List.mem_of_find?_eq_some hfind
        rw [List.mem_range'_1] at hmem
        simp only [entrysPerGroup, ruleTableGroup] at hmem hlt
        refine .inr ⟨ruleID, (mostFreeGroup t row).1, ?_, hlt, hfree, hunused', ?_, ?_⟩
        · simp only [hfind]
          rfl
        · rw [usableId_iff]
          simp only [entrysPerGroup, maxRuleEntry]
          omega
        · simp only [entrysPerGroup]
          omega

theorem caddr_dalClsAddrTblWr (t : Tables) (row off ruleID row' off' : Nat) :
    (dalClsAddrTblWr t row off ruleID).caddr row' off' =
      if row' = row ∧ off' = off then ruleID else t.caddr row' off' := by
  simp only [dalClsAddrTblWr]
  by_cases hrow : row' = row
  · subst hrow
    by_cases hoff : off' = off
    · subst hoff
      simp
    · simp [hoff]
  · simp [hrow]

/-- The tables with rule `r` as entry `ruleID` and one more reference to its mask. -/
def installed (t : Tables) (k : Nat) (m : MaskEntry) (r : RuleEntry) (ruleID : Nat) : Tables :=
  { dalClsAddrTblWr t (clsAddrCal r) (ruleID / entrysPerGroup) ruleID with
    cmask := Function.update t.cmask k
      { m with bfValid := true, referenceCount := (t.cmask k).referenceCount + 1 }
    crule := Function.update t.crule ruleID r
    mallocFlag := Function.update t.mallocFlag ruleID true
    freeCnt := Function.update t.freeCnt (ruleID / entrysPerGroup)
      (t.freeCnt (ruleID / entrysPerGroup) - 1) }

theorem cmask_installed (t : Tables) (k : Nat) (m : MaskEntry) (r : RuleEntry) (ruleID i : Nat) :
    (installed t k m r ruleID).cmask i =
      if i = k then { m with bfValid := true, referenceCount := (t.cmask k).referenceCount + 1 }
      else t.cmask i :=
  Function.update_apply ..

theorem crule_installed (t : Tables) (k : Nat) (m : MaskEntry) (r : RuleEntry) (ruleID i : Nat) :
    (installed t k m r ruleID).crule i = if i = ruleID then r else t.crule i :=
  Function.update_apply ..

theorem mallocFlag_installed (t : Tables) (k : Nat) (m : MaskEntry) (r : RuleEntry)
    (ruleID id : Nat) : (installed t k m r ruleID).mallocFlag id = true ↔
      id = ruleID ∨ t.mallocFlag id = true := by
  by_cases heq : id = ruleID
  · simp [installed, heq]
  · simp [installed, heq]

theorem RowInv.ne_zero {t : Tables} (h : RowInv t) {ruleID : Nat}
    (hid : t.mallocFlag ruleID = true) : ruleID ≠ 0 := by
  rintro rfl
  have := (usableId_iff.mp (h.ids 0 hid)).2
  exact this rfl

theorem RowInv.installed {t : Tables} (h : RowInv t) {k : Nat} {m : MaskEntry} {r : RuleEntry}
    {ruleID : Nat} (hnew : t.mallocFlag ruleID = false) (husable : usableId ruleID = true)
    (hfree : t.caddr (clsAddrCal r) (ruleID / entrysPerGroup) = 0) :
    RowInv (installed t k m r ruleID) := by
  have hne : ∀ id, t.mallocFlag id = true → id ≠ ruleID := by
    rintro id hid rfl
    rw [hnew] at hid
    cases hid
  have hcaddr : ∀ row off, (Classify.installed t k m r ruleID).caddr row off =
      if row = clsAddrCal r ∧ off = ruleID / entrysPerGroup then ruleID else t.caddr row off :=
    caddr_dalClsAddrTblWr t _ _ _
  constructor
  · intro g hg
    by_cases hgroup : g = ruleID / entrysPerGroup
    · subst hgroup
      have hids : freeIds (Classify.installed t k m r ruleID) (ruleID / entrysPerGroup) =
          (freeIds t (ruleID / entrysPerGroup)).erase ruleID := by
        ext id
        rw [Finset.mem_erase, mem_freeIds, mem_freeIds]
        by_cases hid : id = ruleID
        · subst hid
          simp [Classify.installed]
        · simp [Classify.installed, hid]
      have hmem : ruleID ∈ freeIds t (ruleID / entrysPerGroup) := by
        rw [mem_freeIds]
        exact ⟨(usableId_iff.mp husable).1, rfl, husable, hnew⟩
      rw [hids, Finset.card_erase_of_mem hmem, ← h.free _ hg]
      simp [Classify.installed]
    · have hids : freeIds (Classify.installed t k m r ruleID) g = freeIds t g := by
        ext id
        rw [mem_freeIds, mem_freeIds]
        by_cases hid : id = ruleID
        · subst hid
          simp only [Ne.symm hgroup, false_and, and_false]
        · simp [Classify.installed, hid]
      rw [hids, ← h.free _ hg]
      simp [Classify.installed, hgroup]
  · intro id hid
    by_cases heq : id = ruleID
    · rw [heq]
      exact husable
    · exact h.ids id (by simpa [Classify.installed, heq] using hid)
  · intro id hid
    rw [hcaddr]
    by_cases heq : id = ruleID
    · subst heq
      simp [Classify.installed]
    · have hold : t.mallocFlag id = true := by simpa [Classify.installed, heq] using hid
      have hrule : (Classify.installed t k m r ruleID).crule id = t.crule id := by
        simp [Classify.installed, heq]
      have hslot := h.slot id hold
      rw [hrule, if_neg]
      · exact hslot
      · -- that place was free, and this one is not
        rintro ⟨hrow, hoff⟩
        rw [hrow, hoff, hfree] at hslot
        exact h.ne_zero hold hslot.symm
  · intro row off hne'
    rw [hcaddr] at hne' ⊢
    split at hne'
    · next hplace =>
      rw [if_pos hplace]
      refine ⟨by simp [Classify.installed], hplace.2.symm, ?_⟩
      simp [Classify.installed, hplace.1]
    · next hplace =>
      rw [if_neg hplace]
      obtain ⟨hid, hgroup, hrow⟩ := h.addr row off hne'
      have hother := hne _ hid
      refine ⟨by simp [Classify.installed, hother, hid], hgroup, ?_⟩
      simp [Classify.installed, hother, hrow]

/-- The tables without entry `ruleID`, which sat at `row` and `off`; what is left in the
rule table does not matter. -/
theorem RowInv.released {t t' : Tables} (h : RowInv t) {ruleID row off : Nat}
    (hid : t.mallocFlag ruleID = true) (haddr : t.caddr row off = ruleID)
    (hcaddr : ∀ row' off', t'.caddr row' off' =
      if row' = row ∧ off' = off then 0 else t.caddr row' off')
    (halloc : t'.mallocFlag = Function.update t.mallocFlag ruleID false)
    (hcnt : t'.freeCnt = Function.update t.freeCnt (ruleID / entrysPerGroup)
      (t.freeCnt (ruleID / entrysPerGroup) + 1))
    (hrule : ∀ id, id ≠ ruleID → t.mallocFlag id = true →
      clsAddrCal (t'.crule id) = clsAddrCal (t.crule id)) : RowInv t' := by
  have hlive : ∀ id, t'.mallocFlag id = true → id ≠ ruleID ∧ t.mallocFlag id = true := by
    intro id hid'
    by_cases heq : id = ruleID
    · simp [halloc, heq] at hid'
    · exact ⟨heq, by simpa [halloc, heq] using hid'⟩
  have husable := h.ids ruleID hid
  constructor
  · intro g hg
    by_cases hgroup : g = ruleID / entrysPerGroup
    · subst hgroup
      have hids : freeIds t' (ruleID / entrysPerGroup) =
          insert ruleID (freeIds t (ruleID / entrysPerGroup)) := by
        ext id
        rw [Finset.mem_insert, mem_freeIds, mem_freeIds]
        by_cases heq : id = ruleID
        · subst heq
          simp [halloc, husable, (usableId_iff.mp husable).1]
        · simp [halloc, heq]
      have hnot : ruleID ∉ freeIds t (ruleID / entrysPerGroup) := by
        simp [mem_freeIds, hid]
      rw [hids, Finset.card_insert_of_notMem hnot, ← h.free _ hg, hcnt]
      simp
    · have hids : freeIds t' g = freeIds t g := by
        ext id
        rw [mem_freeIds, mem_freeIds]
        by_cases heq : id = ruleID
        · subst heq
          simp only [Ne.symm hgroup, false_and, and_false]
        · simp [halloc, heq]
      rw [hids, ← h.free _ hg, hcnt]
      simp [hgroup]
  · intro id hid'
    exact h.ids id (hlive id hid').2
  · intro id hid'
    obtain ⟨hne, hold⟩ := hlive id hid'
    rw [hcaddr, hrule id hne hold, if_neg]
    · exact h.slot id hold
    · rintro ⟨hrow, hoff⟩
      have hslot := h.slot id hold
      rw [hrow, hoff, haddr] at hslot
      exact hne hslot.symm
  · intro row' off' hne'
    rw [hcaddr] at hne' ⊢
    split at hne'
    · exact absurd rfl hne'
    · next hplace =>
      rw [if_neg hplace]
      obtain ⟨hid', hgroup, hrow⟩ := h.addr row' off' hne'
      -- another place, so another id
      have hother : t.caddr row' off' ≠ ruleID := by
        intro heq
        rw [heq] at hgroup hrow
        obtain ⟨-, hgroup', hrow'⟩ := h.addr row off (by rw [haddr]; exact h.ne_zero hid)
        rw [haddr] at hgroup' hrow'
        exact hplace ⟨hrow.symm.trans hrow', hgroup.symm.trans hgroup'⟩
      refine ⟨by simp [halloc, hother, hid'], hgroup, ?_⟩
      rw [hrule _ hother hid']
      exact hrow

/-! ### Shared masks -/

theorem sameMask_iff {a b : MaskEntry} :
    sameMask a b = true ↔
      a.bfEmask = b.bfEmask ∧ a.bfImask = b.bfImask ∧ a.bfOffset = b.bfOffset ∧
        a.mask = b.mask := by
  simp [sameMask, and_assoc]

theorem sameMask_symm {a b : MaskEntry} (h : sameMask a b = true) : sameMask b a = true := by
  rw [sameMask_iff] at h ⊢
  exact ⟨h.1.symm, h.2.1.symm, h.2.2.1.symm, h.2.2.2.symm⟩

theorem sameMask_trans {a b c : MaskEntry} (hab : sameMask a b = true)
    (hbc : sameMask b c = true) : sameMask a c = true := by
  rw [sameMask_iff] at *
  exact ⟨hab.1.trans hbc.1, hab.2.1.trans hbc.2.1, hab.2.2.1.trans hbc.2.2.1,
    hab.2.2.2.trans hbc.2.2.2⟩

theorem mem_sharedSlots {m : Nat} : m ∈ sharedSlots ↔ minMaskEntry ≤ m ∧ m < maxMaskEntry := by
  rw [sharedSlots, List.mem_range'_1]
  simp only [minMaskEntry, maxMaskEntry]

structure SharedMasks (t : Tables) : Prop where
  sel : ∀ ruleID, t.mallocFlag ruleID = true →
    (t.crule ruleID).bfMsel < maxMaskEntry ∧
      (t.cmask (t.crule ruleID).bfMsel).bfValid = true
  count : ∀ m ∈ sharedSlots, (t.cmask m).referenceCount = (users t m).card
  used : ∀ m ∈ sharedSlots, (t.cmask m).bfValid = true → 0 < (t.cmask m).referenceCount
  zero : ∀ m ∈ sharedSlots, (t.cmask m).bfValid = false → t.cmask m = .zero
  distinct : ∀ m ∈ sharedSlots, ∀ m' ∈ sharedSlots, (t.cmask m).bfValid = true →
    (t.cmask m').bfValid = true → sameMask (t.cmask m) (t.cmask m') = true → m = m'
  pri : ∀ m ∈ sharedSlots, (t.cmask m).maskPri = 0

theorem sharedMasks_rst : SharedMasks dalClsRst := by
  have hnone : ∀ m, users dalClsRst m = ∅ := by
    intro m
    ext ruleID
    rw [mem_users]
    simp [dalClsRst]
  constructor
  · intro ruleID hid
    cases hid
  · intro m _
    rw [hnone]
    rfl
  · intro m _ hvalid
    cases hvalid
  · intro m _ _
    rfl
  · intro m _ m' _ hvalid
    cases hvalid
  · intro m _
    rfl

/-- The slot that a rule without precedence takes a reference to: the one of an equal mask,
or the first that is not valid. -/
structure Takes (t : Tables) (m : MaskEntry) (k : Nat) : Prop where
  slot : k ∈ sharedSlots
  choice : ((t.cmask k).bfValid = true ∧ sameMask m (t.cmask k) = true) ∨
    ((t.cmask k).bfValid = false ∧ (∀ i ∈ sharedSlots, i < k → (t.cmask i).bfValid = true) ∧
      ∀ i ∈ sharedSlots, (t.cmask i).bfValid = true → sameMask m (t.cmask i) = false)

def referenced (t : Tables) (k : Nat) : Tables :=
  setMask t k { t.cmask k with
    bfValid := true, referenceCount := (t.cmask k).referenceCount + 1 }

theorem find?_range'_first {p : Nat → Bool} {start len k : Nat}
    (h : (List.range' start len).find? p = some k) {i : Nat} (hi : start ≤ i) (hk : i < k) :
    p i = false := by
  induction len generalizing start with
  | zero => simp at h
  | succ len ih =>
    rw [List.range'_succ, List.find?_cons] at h
    split at h
    · obtain rfl := Option.some.inj h
      omega
    · next hp =>
      rcases Nat.eq_or_lt_of_le hi with rfl | hlt
      · exact hp
      · exact ih h hlt

theorem takeMask_spec {t : Tables} (h : SharedMasks t) {m : MaskEntry} (hpri : m.maskPri = 0) :
    takeMask t m = (t, .error .maskTableFull) ∨
      ∃ k, Takes t m k ∧ takeMask t m = (referenced t k, .ok k) := by
  rw [takeMask, if_pos hpri, clsMaskMalloc]
  cases hsel : clsMaskSel t m with
  | some k =>
    have hslot : k ∈ sharedSlots := List.mem_of_find?_eq_some hsel
    have hfound := List.find?_some hsel
    simp only [Bool.and_eq_true] at hfound
    refine .inr ⟨k, ⟨hslot, .inl hfound⟩, ?_⟩
    simp only [shareMask, hpri, Nat.zero_le, if_true, referenced, hfound.1]
  | none =>
    have hdiff : ∀ i ∈ sharedSlots, (t.cmask i).bfValid = true →
        sameMask m (t.cmask i) = false := by
      intro i hi hvalid
      have := List.find?_eq_none.mp hsel i hi
      simpa [hvalid] using this
    -- no priority is below zero, so the mask goes into the first free slot
    have hinsert : (fun i => !(t.cmask i).bfValid || decide ((t.cmask i).maskPri < m.maskPri)) =
        fun i => !(t.cmask i).bfValid := by
      funext i
      simp [hpri]
    simp only [hinsert]
    cases hfind : sharedSlots.find? fun i => !(t.cmask i).bfValid with
    | none => exact .inl rfl
    | some k =>
      have hslot : k ∈ sharedSlots := List.mem_of_find?_eq_some hfind
      have hinvalid : (t.cmask k).bfValid = false := by simpa using List.find?_some hfind
      refine .inr ⟨k, ⟨hslot, .inr ⟨hinvalid, ?_, hdiff⟩⟩, ?_⟩
      · intro i hi hlt
        have := find?_range'_first hfind (mem_sharedSlots.mp hi).1 hlt
        simpa using this
      · have hzero := h.zero k hslot hinvalid
        simp [moveDown, referenced, hzero, MaskEntry.zero]

/-! ### Freeing a mask -/

/-- The masks behind `k` up to `l` moved up by one, and the rules that select them with
them. -/
def shifted (t : Tables) (k l : Nat) : Tables :=
  { t with
    cmask := fun i => if k ≤ i ∧ i < l then t.cmask (i + 1) else t.cmask i
    crule := fun ruleID =>
      if (usableId ruleID ∧ t.mallocFlag ruleID) ∧
          k < (t.crule ruleID).bfMsel ∧ (t.crule ruleID).bfMsel ≤ l then
        { t.crule ruleID with bfMsel := (t.crule ruleID).bfMsel - 1 }
      else t.crule ruleID }

theorem shifted_self (t : Tables) (k : Nat) : shifted t k k = t := by
  refine Tables.ext ?_ ?_ rfl rfl rfl rfl
  · funext i
    exact if_neg (by omega)
  · funext ruleID
    exact if_neg (by omega)

/-- Moving one mask and then the rest is moving all of them. -/
theorem shifted_succ (t : Tables) {k l : Nat} (hkl : k + 1 ≤ l) :
    shifted (clsMselModByMask (setMask t k (t.cmask (k + 1))) (k + 1) k) (k + 1) l =
      shifted t k l := by
  have hmoved : ∀ ruleID,
      (clsMselModByMask (setMask t k (t.cmask (k + 1))) (k + 1) k).crule ruleID =
        if usableId ruleID ∧ (t.crule ruleID).bfMsel = k + 1 ∧ t.mallocFlag ruleID then
          { t.crule ruleID with bfMsel := k }
        else t.crule ruleID := fun _ => rfl
  refine Tables.ext ?_ ?_ rfl rfl rfl rfl
  · funext i
    show (if k + 1 ≤ i ∧ i < l then Function.update t.cmask k (t.cmask (k + 1)) (i + 1)
      else Function.update t.cmask k (t.cmask (k + 1)) i) =
        if k ≤ i ∧ i < l then t.cmask (i + 1) else t.cmask i
    by_cases hi : i = k
    · subst hi
      rw [if_neg (by omega), if_pos (by omega), Function.update_self]
    · by_cases hin : k + 1 ≤ i ∧ i < l
      · rw [if_pos hin, if_pos (by omega), Function.update_of_ne (by omega)]
      · rw [if_neg hin, if_neg (by omega), Function.update_of_ne hi]
  · funext ruleID
    have hrule := hmoved ruleID
    simp only [shifted]
    by_cases hlive : usableId ruleID = true ∧ t.mallocFlag ruleID = true
    · by_cases hmsel : (t.crule ruleID).bfMsel = k + 1
      · -- the mask of this rule moves first, and no further
        rw [if_pos ⟨hlive.1, hmsel, hlive.2⟩] at hrule
        rw [hrule, if_neg (by simp), if_pos ⟨hlive, by omega⟩, hmsel]
        rfl
      · rw [if_neg fun hc => hmsel hc.2.1] at hrule
        rw [hrule]
        by_cases hin : k + 1 < (t.crule ruleID).bfMsel ∧ (t.crule ruleID).bfMsel ≤ l
        · rw [if_pos ⟨hlive, hin⟩, if_pos ⟨hlive, by omega⟩]
        · rw [if_neg fun hc => hin hc.2, if_neg fun hc => hin (by omega)]
    · rw [if_neg fun hc => hlive ⟨hc.1, hc.2.2⟩] at hrule
      rw [hrule, if_neg fun hc => hlive hc.1, if_neg fun hc => hlive hc.1]

/-- `moveUp` moves the valid masks behind slot `k`, as many as there are in a row. -/
theorem moveUp_spec (count : Nat) (t : Tables) (k : Nat) :
    ∃ l, k ≤ l ∧ l ≤ k + count ∧ (∀ i, k < i → i ≤ l → (t.cmask i).bfValid = true) ∧
      (l < k + count → (t.cmask (l + 1)).bfValid = false) ∧
      moveUp count t (k + 1) = (shifted t k l, l) := by
  induction count generalizing t k with
  | zero =>
    refine ⟨k, le_rfl, le_rfl, by omega, by omega, ?_⟩
    rw [shifted_self]
    rfl
  | succ count ih =>
    cases hvalid : (t.cmask (k + 1)).bfValid with
    | false =>
      refine ⟨k, le_rfl, by omega, by omega, fun _ => hvalid, ?_⟩
      rw [shifted_self, moveUp, hvalid]
      rfl
    | true =>
      obtain ⟨l, hkl, hlc, hall, hend, heq⟩ :=
        ih (clsMselModByMask (setMask t k (t.cmask (k + 1))) (k + 1) k) (k + 1)
      have hsame : ∀ i, k < i →
          (clsMselModByMask (setMask t k (t.cmask (k + 1))) (k + 1) k).cmask i = t.cmask i :=
        fun i hi => Function.update_of_ne (by omega) _ _
      refine ⟨l, by omega, by omega, ?_, ?_, ?_⟩
      · intro i hi hil
        rcases Nat.eq_or_lt_of_le (Nat.succ_le_of_lt hi) with rfl | hlt
        · exact hvalid
        · rw [← hsame i hi]
          exact hall i hlt hil
      · intro hlt
        rw [← hsame (l + 1) (by omega)]
        exact hend (by omega)
      · rw [moveUp, hvalid, if_pos rfl, Nat.add_sub_cancel, heq, shifted_succ t hkl]

theorem setMask_setMask (t : Tables) (k : Nat) (a b : MaskEntry) :
    setMask (setMask t k a) k b = setMask t k b := by
  simp [setMask]

theorem setMask_self {t : Tables} {k : Nat} {e : MaskEntry} (h : e = t.cmask k) :
    setMask t k e = t := by
  simp [setMask, h]

/-- With no valid mask right behind it, the last reference to a mask just clears the slot. -/
theorem clsMaskFree_last {t : Tables} {k : Nat} (hvalid : (t.cmask k).bfValid = true)
    (hone : (t.cmask k).referenceCount = 1)
    (hnext : k + 1 < maxMaskEntry → (t.cmask (k + 1)).bfValid = false) :
    clsMaskFree t k = (setMask t k .zero, .ok ()) := by
  have hmove : moveUp (maxMaskEntry - (k + 1)) t (k + 1) = (t, k) := by
    cases hcount : maxMaskEntry - (k + 1) with
    | zero => rfl
    | succ n => simp [moveUp, hnext (by omega)]
  simp [clsMaskFree, hvalid, hone, hmove]

theorem clsMaskFree_shared {t : Tables} {k : Nat} (hvalid : (t.cmask k).bfValid = true)
    (hmore : 1 < (t.cmask k).referenceCount) :
    clsMaskFree t k = (setMask t k { t.cmask k with
      referenceCount := (t.cmask k).referenceCount - 1 }, .ok ()) := by
  rw [clsMaskFree, if_neg, if_neg (by omega)]
  rintro (hinvalid | hzero)
  · rw [hvalid] at hinvalid
    cases hinvalid
  · omega

/-- **Roll-back.**  Giving the reference back restores the tables. -/
theorem clsMaskFree_referenced {t : Tables} (h : SharedMasks t) {m : MaskEntry} {k : Nat}
    (htakes : Takes t m k)
    (hnext : (t.cmask k).bfValid = false → k + 1 < maxMaskEntry →
      (t.cmask (k + 1)).bfValid = false) : (clsMaskFree (referenced t k) k).1 = t := by
  have hentry : (referenced t k).cmask k = { t.cmask k with
      bfValid := true, referenceCount := (t.cmask k).referenceCount + 1 } :=
    Function.update_self ..
  rcases htakes.choice with ⟨hvalid, -⟩ | ⟨hinvalid, -, -⟩
  · have hused := h.used k htakes.slot hvalid
    rw [clsMaskFree_shared (by rw [hentry]) (by rw [hentry]; simpa using hused), hentry,
      referenced, setMask_setMask]
    apply setMask_self
    simp [← hvalid]
  · have hzero := h.zero k htakes.slot hinvalid
    have hother : (referenced t k).cmask (k + 1) = t.cmask (k + 1) :=
      Function.update_of_ne (by omega) _ _
    rw [clsMaskFree_last (by rw [hentry]) (by rw [hentry, hzero]; rfl)
      (by rw [hother]; exact hnext hinvalid), referenced, setMask_setMask]
    exact setMask_self hzero.symm

/-! ### Adding an entry -/

theorem maskPri_of_entriesOf {make : Parameter → Option (MaskEntry × RuleEntry)}
    {par : Parameter} {m : MaskEntry} {r : RuleEntry} (h : entriesOf make par = .ok (m, r)) :
    m.maskPri = par.maskPri := by
  rw [entriesOf] at h
  split at h
  · cases h
  · split at h
    · cases h
    · cases h
      rfl

theorem clsRuleIDSel_setMask (t : Tables) (k : Nat) (e : MaskEntry) (r : RuleEntry) (row : Nat) :
    clsRuleIDSel (setMask t k e) r row = clsRuleIDSel t r row := rfl

/-- After the mask is taken an entry is installed under a fresh id, or the mask is given
back: there is an equal rule, or no group for a new one. -/
theorem dalClsTblEntryAdd_spec {t : Tables} (h : RowInv t) {m : MaskEntry} (r : RuleEntry)
    {k : Nat} {e : MaskEntry} (htake : takeMask t m = (setMask t k e, .ok k))
    (href : e.referenceCount = (t.cmask k).referenceCount + 1) (hk : k < maxMaskEntry) :
    (∃ err, dalClsTblEntryAdd t m r = ((clsMaskFree (setMask t k e) k).1, .error err) ∧
      (clsRuleIDSel t { r with bfMsel := k } (clsAddrCal r) ≠ none ∨
        (mostFreeGroup t (clsAddrCal r)).2 = 0)) ∨
    ∃ ruleID, dalClsTblEntryAdd t m r =
        (installed t k m { r with bfMsel := k } ruleID,
          .ok ⟨ruleID, k, clsAddrCal r, ruleID / entrysPerGroup⟩) ∧
      t.mallocFlag ruleID = false ∧ usableId ruleID = true ∧
      t.caddr (clsAddrCal r) (ruleID / entrysPerGroup) = 0 ∧
      clsRuleIDSel t { r with bfMsel := k } (clsAddrCal r) = none := by
  have hmod : k % 32 = k := Nat.mod_eq_of_lt (by simp only [maxMaskEntry] at hk; omega)
  have hrow : RowInv (setMask t k e) := h.setMask k e
  simp only [dalClsTblEntryAdd, htake, hmod, clsAddrCal_msel, clsRuleIDSel_setMask]
  cases hsel : clsRuleIDSel t { r with bfMsel := k } (clsAddrCal r) with
  | some found => exact .inl ⟨_, rfl, .inl (Option.some_ne_none found)⟩
  | none =>
    rcases clsRuleMalloc_spec hrow (clsAddrCal r) with
      ⟨hzero, err, herr⟩ | ⟨ruleID, off, hok, -, hfree, hnew, husable, hgroup⟩
    · simp only [herr]
      exact .inl ⟨_, rfl, .inr hzero⟩
    · subst hgroup
      simp only [hok]
      refine .inr ⟨ruleID, ?_, hnew, husable, hfree, trivial⟩
      congr 1
      -- the writes one after the other are the installed entry
      refine Tables.ext ?_ rfl ?_ rfl rfl rfl
      · simp [dalClsAddrTblWr, dalClsMaskTblWr, dalClsRuleTblWr, allocated, setMask, installed,
          href]
      · funext row off
        simp only [installed, caddr_dalClsAddrTblWr]
        simp only [dalClsMaskTblWr, dalClsRuleTblWr, setMask, allocated,
          caddr_dalClsAddrTblWr, clsAddrCal_msel]
        by_cases hplace : row = clsAddrCal r ∧ off = ruleID / entrysPerGroup
        · rw [if_pos hplace]
          exact (if_pos hplace).symm
        · rw [if_neg hplace, if_neg hplace]
          exact (if_neg hplace).symm

theorem users_installed {t : Tables} {k : Nat} {m : MaskEntry} {r : RuleEntry} {ruleID : Nat}
    (hnew : t.mallocFlag ruleID = false) (husable : usableId ruleID = true) (i : Nat) :
    users (installed t k m r ruleID) i =
      if i = r.bfMsel then insert ruleID (users t i) else users t i := by
  ext id
  by_cases hid : id = ruleID
  · subst hid
    have hmax := (usableId_iff.mp husable).1
    by_cases hi : i = r.bfMsel
    · simp [mem_users, installed, hi, hmax]
    · simp [mem_users, installed, hi, Ne.symm hi, hnew]
  · by_cases hi : i = r.bfMsel
    · simp [mem_users, installed, hi, hid]
    · simp [mem_users, installed, hi, hid]

theorem SharedMasks.installed {t : Tables} (h : SharedMasks t) {k : Nat} {m : MaskEntry}
    (htakes : Takes t m k) (hpri : m.maskPri = 0) {r : RuleEntry} (hmsel : r.bfMsel = k)
    {ruleID : Nat} (hnew : t.mallocFlag ruleID = false) (husable : usableId ruleID = true) :
    SharedMasks (installed t k m r ruleID) := by
  have hk := mem_sharedSlots.mp htakes.slot
  have hself : (Classify.installed t k m r ruleID).cmask k =
      { m with bfValid := true, referenceCount := (t.cmask k).referenceCount + 1 } :=
    Function.update_self ..
  have hother : ∀ i, i ≠ k → (Classify.installed t k m r ruleID).cmask i = t.cmask i :=
    fun i hi => Function.update_of_ne hi _ _
  have hnot : ∀ i, ruleID ∉ users t i := fun i hmem => by
    have := (mem_users.mp hmem).2.1
    rw [hnew] at this
    cases this
  -- a valid slot with the mask of the new entry is the slot it takes
  have honly : ∀ i ∈ sharedSlots, i ≠ k → (t.cmask i).bfValid = true →
      sameMask m (t.cmask i) = false := by
    intro i hi hne hvalid
    rcases htakes.choice with ⟨hvk, hsame⟩ | ⟨-, -, hdiff⟩
    · rw [Bool.eq_false_iff]
      intro hsame'
      apply hne
      apply h.distinct i hi k htakes.slot hvalid hvk
      exact sameMask_trans (sameMask_symm hsame') hsame
    · exact hdiff i hi hvalid
  constructor
  · intro id hid
    by_cases heq : id = ruleID
    · have hrule : ((Classify.installed t k m r ruleID).crule id).bfMsel = k := by
        simp [Classify.installed, heq, hmsel]
      rw [hrule, hself]
      exact ⟨hk.2, rfl⟩
    · have hrule : (Classify.installed t k m r ruleID).crule id = t.crule id := by
        simp [Classify.installed, heq]
      have hold : t.mallocFlag id = true := by simpa [Classify.installed, heq] using hid
      rw [hrule]
      obtain ⟨hlt, hvalid⟩ := h.sel id hold
      refine ⟨hlt, ?_⟩
      by_cases hsel : (t.crule id).bfMsel = k
      · rw [hsel, hself]
      · rw [hother _ hsel]
        exact hvalid
  · intro i hi
    rw [users_installed hnew husable, hmsel]
    by_cases hik : i = k
    · subst hik
      rw [if_pos rfl, Finset.card_insert_of_notMem (hnot i), hself, ← h.count i hi]
    · rw [if_neg hik, hother i hik]
      exact h.count i hi
  · intro i hi hvalid
    by_cases hik : i = k
    · rw [hik, hself]
      exact Nat.succ_pos _
    · rw [hother i hik] at hvalid ⊢
      exact h.used i hi hvalid
  · intro i hi hinvalid
    by_cases hik : i = k
    · rw [hik, hself] at hinvalid
      cases hinvalid
    · rw [hother i hik] at hinvalid ⊢
      exact h.zero i hi hinvalid
  · intro i hi j hj hvi hvj hsame
    by_contra hne
    by_cases hik : i = k
    · have hjk : j ≠ k := fun hjk => hne (hik.trans hjk.symm)
      rw [hother j hjk] at hvj
      rw [hik, hself, hother j hjk] at hsame
      have hdiff := honly j hj hjk hvj
      rw [show sameMask m (t.cmask j) = true from hsame] at hdiff
      cases hdiff
    · rw [hother i hik] at hvi hsame
      by_cases hjk : j = k
      · rw [hjk, hself] at hsame
        have hdiff := honly i hi hik hvi
        have hsame' : sameMask m (t.cmask i) = true := sameMask_symm hsame
        rw [hsame'] at hdiff
        cases hdiff
      · rw [hother j hjk] at hvj hsame
        exact hne (h.distinct i hi j hj hvi hvj hsame)
  · intro i hi
    by_cases hik : i = k
    · rw [hik, hself]
      exact hpri
    · rw [hother i hik]
      exact h.pri i hi

/-! ### Removing an entry -/

theorem sameRule_iff {a b : RuleEntry} :
    sameRule a b = true ↔ a.bfMsel = b.bfMsel ∧ a.bfIngress = b.bfIngress ∧
      a.bfEgress = b.bfEgress ∧ a.rule = b.rule := by
  simp [sameRule, and_assoc]

theorem sameRule_symm {a b : RuleEntry} (h : sameRule a b = true) : sameRule b a = true := by
  rw [sameRule_iff] at h ⊢
  exact ⟨h.1.symm, h.2.1.symm, h.2.2.1.symm, h.2.2.2.symm⟩

theorem clsRuleIDSel_spec {t : Tables} {r : RuleEntry} {row off ruleID : Nat}
    (h : clsRuleIDSel t r row = some (off, ruleID)) :
    t.caddr row off = ruleID ∧ ruleID ≠ 0 ∧ sameRule r (t.crule ruleID) = true := by
  obtain ⟨off', hfind, heq⟩ := Option.map_eq_some_iff.mp h
  obtain ⟨rfl, rfl⟩ := Prod.mk.inj heq
  have hfound := List.find?_some hfind
  simp only [Bool.and_eq_true, decide_eq_true_eq] at hfound
  exact ⟨rfl, hfound.1.1, hfound.2⟩

/-- The tables without entry `ruleID` at `row` and `off`, when `t` has given its mask back. -/
def withdrawn (t : Tables) (row off ruleID : Nat) : Tables :=
  clsRuleFree (dalClsAddrTblWr t row off 0) ruleID

/-- A removal fails when there is no equal mask, or no equal rule that selects it; one that
succeeds finds an allocated entry that selects an equal mask. -/
theorem dalClsTblEntryDel_spec {t : Tables} (hrow : RowInv t) (h : SharedMasks t)
    (m : MaskEntry) (r : RuleEntry) :
    (∃ e, dalClsTblEntryDel t m r = (t, .error e) ∧
      ∀ k, clsMaskSel t m = some k →
        clsRuleIDSel t { r with bfMsel := k } (clsAddrCal r) = none) ∨
    ∃ k row off ruleID, k ∈ sharedSlots ∧ (t.cmask k).bfValid = true ∧
      sameMask m (t.cmask k) = true ∧ t.mallocFlag ruleID = true ∧ t.caddr row off = ruleID ∧
      sameRule { r with bfMsel := k } (t.crule ruleID) = true ∧
      dalClsTblEntryDel t m r = (withdrawn (clsMaskFree t k).1 row off ruleID, .ok ruleID) := by
  rw [dalClsTblEntryDel]
  cases hsel : clsMaskSel t m with
  | none => exact .inl ⟨_, rfl, by simp⟩
  | some k =>
    have hslot : k ∈ sharedSlots := List.mem_of_find?_eq_some hsel
    have hfound := List.find?_some hsel
    simp only [Bool.and_eq_true] at hfound
    cases hid : clsRuleIDSel t { r with bfMsel := k } (clsAddrCal r) with
    | none =>
      simp only [hid]
      refine .inl ⟨_, rfl, ?_⟩
      rintro _ ⟨⟩
      exact hid
    | some found =>
      obtain ⟨off, ruleID⟩ := found
      obtain ⟨haddr, hne, hsame⟩ := clsRuleIDSel_spec hid
      have halloc : t.mallocFlag ruleID = true := by
        have := (hrow.addr (clsAddrCal r) off (by rw [haddr]; exact hne)).1
        rwa [haddr] at this
      refine .inr ⟨k, clsAddrCal r, off, ruleID, hslot, hfound.1, hfound.2, halloc, haddr,
        hsame, ?_⟩
      have hused := h.used k hslot hfound.1
      have hfree : (clsMaskFree t k).2 = .ok () := by
        simp only [clsMaskFree]
        rw [if_neg]
        · split <;> rfl
        · rintro (hinvalid | hzero)
          · rw [hfound.1] at hinvalid
            cases hinvalid
          · omega
      have hpair : clsMaskFree t k = ((clsMaskFree t k).1, .ok ()) := by rw [← hfree]
      simp only [hid]
      rw [hpair]
      rfl

theorem caddr_withdrawn (t : Tables) (row off ruleID row' off' : Nat) :
    (withdrawn t row off ruleID).caddr row' off' =
      if row' = row ∧ off' = off then 0 else t.caddr row' off' :=
  caddr_dalClsAddrTblWr t row off 0 row' off'

theorem clsMaskFree_frame (t : Tables) (k : Nat) :
    (clsMaskFree t k).1.mallocFlag = t.mallocFlag ∧ (clsMaskFree t k).1.freeCnt = t.freeCnt ∧
      (clsMaskFree t k).1.caddr = t.caddr ∧
      ∀ ruleID, clsAddrCal ((clsMaskFree t k).1.crule ruleID) = clsAddrCal (t.crule ruleID) := by
  simp only [clsMaskFree]
  split
  · exact ⟨rfl, rfl, rfl, fun _ => rfl⟩
  · split
    · obtain ⟨l, -, -, -, -, heq⟩ := moveUp_spec (maxMaskEntry - (k + 1)) t k
      rw [heq]
      refine ⟨rfl, rfl, rfl, ?_⟩
      intro ruleID
      simp only [setMask, shifted]
      split <;> rfl
    · exact ⟨rfl, rfl, rfl, fun _ => rfl⟩

theorem RowInv.withdrawn {t : Tables} (h : RowInv t) {k row off ruleID : Nat}
    (hid : t.mallocFlag ruleID = true) (haddr : t.caddr row off = ruleID) :
    RowInv (withdrawn (clsMaskFree t k).1 row off ruleID) := by
  obtain ⟨halloc, hcnt, hcaddr, hrule⟩ := clsMaskFree_frame t k
  apply h.released hid haddr
  · intro row' off'
    rw [caddr_withdrawn, hcaddr]
  · rw [← halloc]
    rfl
  · rw [← hcnt]
    rfl
  · intro id _ _
    exact hrule id

/-- Which slot's mask is in slot `i` after the masks behind `k` up to `l` moved up. -/
def movedFrom (k l i : Nat) : Nat := if k ≤ i ∧ i < l then i + 1 else i

theorem movedFrom_inj {k l i j : Nat} (hi : i ≠ l) (hj : j ≠ l)
    (h : movedFrom k l i = movedFrom k l j) : i = j := by
  simp only [movedFrom] at h
  split at h <;> split at h <;> omega

theorem movedFrom_ne {k l i : Nat} (hi : i ≠ l) (hkl : k ≤ l) : movedFrom k l i ≠ k := by
  simp only [movedFrom]
  split <;> omega

theorem movedFrom_mem {k l i : Nat} (hl : l < maxMaskEntry) (hi : i ∈ sharedSlots) :
    movedFrom k l i ∈ sharedSlots := by
  rw [mem_sharedSlots] at hi ⊢
  simp only [movedFrom]
  split <;> omega

section Removal

variable {t : Tables} {k row off ruleID : Nat}

/-- The last reference goes: what is left of each slot. -/
theorem withdrawn_last (hslot : k ∈ sharedSlots) (hvalid : (t.cmask k).bfValid = true)
    (hone : (t.cmask k).referenceCount = 1) :
    ∃ l, k ≤ l ∧ l < maxMaskEntry ∧ (∀ i, k < i → i ≤ l → (t.cmask i).bfValid = true) ∧
      (l + 1 < maxMaskEntry → (t.cmask (l + 1)).bfValid = false) ∧
      (clsMaskFree t k).1 = setMask (shifted t k l) l .zero := by
  have hk := mem_sharedSlots.mp hslot
  obtain ⟨l, hkl, hmax, hall, hend, heq⟩ := moveUp_spec (maxMaskEntry - (k + 1)) t k
  refine ⟨l, hkl, by omega, hall, fun hlt => hend (by omega), ?_⟩
  simp [clsMaskFree, hvalid, hone, heq]

theorem mallocFlag_withdrawn (s : Tables) (id : Nat) :
    (withdrawn s row off ruleID).mallocFlag id = true ↔
      id ≠ ruleID ∧ s.mallocFlag id = true := by
  by_cases heq : id = ruleID
  · simp [withdrawn, clsRuleFree, heq]
  · simp [withdrawn, clsRuleFree, dalClsAddrTblWr, heq]

theorem cmask_moved {l : Nat} (i : Nat) :
    (withdrawn (setMask (shifted t k l) l .zero) row off ruleID).cmask i =
      if i = l then .zero else t.cmask (movedFrom k l i) := by
  by_cases hil : i = l
  · rw [if_pos hil, hil]
    exact Function.update_self ..
  · rw [if_neg hil]
    show Function.update (shifted t k l).cmask l .zero i = _
    rw [Function.update_of_ne hil, movedFrom]
    simp only [shifted]
    split <;> rfl

/-- An allocated entry selects the same mask as before, wherever that is now. -/
theorem msel_moved (row off ruleID : Nat) {l id : Nat} (hids : usableId id = true)
    (hid : t.mallocFlag id = true) (hne : (t.crule id).bfMsel ≠ k) (hkl : k ≤ l) :
    let msel := ((withdrawn (setMask (shifted t k l) l .zero) row off ruleID).crule id).bfMsel
    msel ≠ l ∧ movedFrom k l msel = (t.crule id).bfMsel := by
  show ((shifted t k l).crule id).bfMsel ≠ l ∧ movedFrom k l ((shifted t k l).crule id).bfMsel = _
  simp only [shifted, movedFrom]
  by_cases hin : k < (t.crule id).bfMsel ∧ (t.crule id).bfMsel ≤ l
  · rw [if_pos ⟨⟨hids, hid⟩, hin⟩]
    refine ⟨by show _ - 1 ≠ l; omega, ?_⟩
    show (if k ≤ _ - 1 ∧ _ - 1 < l then _ else _) = _
    rw [if_pos (by omega)]
    show _ - 1 + 1 = _
    omega
  · rw [if_neg fun hc => hin hc.2]
    exact ⟨by omega, if_neg (by omega)⟩

/-- No other entry selects a mask with a single user. -/
theorem msel_ne_of_only (honly : users t k = {ruleID}) {id : Nat} (hne : id ≠ ruleID)
    (hids : usableId id = true) (hid : t.mallocFlag id = true) : (t.crule id).bfMsel ≠ k := by
  intro heq
  have hmem : id ∈ users t k := mem_users.mpr ⟨(usableId_iff.mp hids).1, hid, heq⟩
  rw [honly, Finset.mem_singleton] at hmem
  exact hne hmem

theorem users_moved (hrow : RowInv t) {l : Nat} (hkl : k ≤ l)
    (honly : users t k = {ruleID}) (i : Nat) :
    users (withdrawn (setMask (shifted t k l) l .zero) row off ruleID) i =
      if i = l then ∅ else users t (movedFrom k l i) := by
  have hself : ruleID ∈ users t k := by simp [honly]
  ext id
  rw [mem_users, mallocFlag_withdrawn]
  constructor
  · rintro ⟨hmax, ⟨hne, hid'⟩, rfl⟩
    have hid : t.mallocFlag id = true := hid'
    obtain ⟨hl, hfrom⟩ :=
      msel_moved row off ruleID (hrow.ids id hid) hid
        (msel_ne_of_only honly hne (hrow.ids id hid) hid) hkl
    rw [if_neg hl, mem_users]
    exact ⟨hmax, hid, hfrom.symm⟩
  · intro hmem
    split at hmem
    · simp at hmem
    · next hil =>
      obtain ⟨hmax, hid, hsel⟩ := mem_users.mp hmem
      have hk' : (t.crule id).bfMsel ≠ k := by
        rw [hsel]
        exact movedFrom_ne hil hkl
      have hne : id ≠ ruleID := by
        rintro rfl
        exact hk' (mem_users.mp hself).2.2
      obtain ⟨hl, hfrom⟩ := msel_moved row off ruleID (hrow.ids id hid) hid hk' hkl
      exact ⟨hmax, ⟨hne, hid⟩, movedFrom_inj hl hil (hfrom.trans hsel)⟩

theorem users_withdrawn (e : MaskEntry) (i : Nat) :
    users (withdrawn (setMask t k e) row off ruleID) i = (users t i).erase ruleID := by
  ext id
  rw [Finset.mem_erase, mem_users, mem_users, mallocFlag_withdrawn]
  constructor
  · rintro ⟨hmax, ⟨hne, hid⟩, hsel⟩
    exact ⟨hne, hmax, hid, hsel⟩
  · rintro ⟨hne, hmax, hid, hsel⟩
    exact ⟨hmax, ⟨hne, hid⟩, hsel⟩

/-- One of several references goes. -/
theorem SharedMasks.dropped (h : SharedMasks t) (hslot : k ∈ sharedSlots)
    (hself : ruleID ∈ users t k) (hmore : 1 < (t.cmask k).referenceCount) :
    SharedMasks (withdrawn (setMask t k { t.cmask k with
      referenceCount := (t.cmask k).referenceCount - 1 }) row off ruleID) := by
  have hk : ∀ i, (withdrawn (setMask t k { t.cmask k with
      referenceCount := (t.cmask k).referenceCount - 1 }) row off ruleID).cmask i =
      if i = k then { t.cmask k with referenceCount := (t.cmask k).referenceCount - 1 }
      else t.cmask i := fun i => Function.update_apply ..
  -- but for the count the masks are what they were
  have hvalid : ∀ i, (withdrawn (setMask t k { t.cmask k with
      referenceCount := (t.cmask k).referenceCount - 1 }) row off ruleID).cmask i =
      { t.cmask i with referenceCount :=
        if i = k then (t.cmask k).referenceCount - 1 else (t.cmask i).referenceCount } := by
    intro i
    rw [hk]
    by_cases hik : i = k
    · rw [if_pos hik, if_pos hik, hik]
    · rw [if_neg hik, if_neg hik]
  constructor
  · intro id hid
    rw [hvalid]
    exact h.sel id ((mallocFlag_withdrawn _ id).mp hid).2
  · intro i hi
    rw [users_withdrawn, hk]
    by_cases hik : i = k
    · subst hik
      rw [if_pos rfl, Finset.card_erase_of_mem hself, ← h.count i hi]
    · have hnot : ruleID ∉ users t i := fun hmem => by
        have heq := (mem_users.mp hmem).2.2.symm.trans (mem_users.mp hself).2.2
        exact hik heq
      rw [if_neg hik, Finset.erase_eq_of_notMem hnot]
      exact h.count i hi
  · intro i hi hv
    rw [hvalid] at hv ⊢
    have hused := h.used i hi hv
    show 0 < if i = k then _ else _
    split
    · omega
    · exact hused
  · intro i hi hv
    rw [hvalid] at hv
    have hik : i ≠ k := by
      rintro rfl
      have := h.zero i hi hv
      rw [this] at hmore
      exact absurd hmore (by decide)
    rw [hk, if_neg hik]
    exact h.zero i hi hv
  · intro i hi j hj hvi hvj hsame
    rw [hvalid] at hvi hvj
    rw [hvalid, hvalid, sameMask_iff] at hsame
    exact h.distinct i hi j hj hvi hvj (sameMask_iff.mpr hsame)
  · intro i hi
    rw [hvalid]
    exact h.pri i hi

/-- The last reference goes and the masks behind it move up. -/
theorem SharedMasks.moved (h : SharedMasks t) (hrow : RowInv t) {l : Nat} (hkl : k ≤ l)
    (hl : l < maxMaskEntry) (honly : users t k = {ruleID}) :
    SharedMasks (withdrawn (setMask (shifted t k l) l .zero) row off ruleID) := by
  constructor
  · intro id hid
    obtain ⟨hne, hid'⟩ := (mallocFlag_withdrawn _ id).mp hid
    have hold : t.mallocFlag id = true := hid'
    have hids := hrow.ids id hold
    obtain ⟨hml, hfrom⟩ := msel_moved row off ruleID hids hold
      (msel_ne_of_only honly hne hids hold) hkl
    obtain ⟨hmax, hvalid⟩ := h.sel id hold
    refine ⟨?_, ?_⟩
    · rw [← hfrom, movedFrom] at hmax
      split at hmax <;> omega
    · rw [cmask_moved, if_neg hml, hfrom]
      exact hvalid
  · intro i hi
    rw [users_moved hrow hkl honly, cmask_moved]
    split
    · rfl
    · exact h.count _ (movedFrom_mem hl hi)
  · intro i hi
    rw [cmask_moved]
    split
    · intro hv
      cases hv
    · exact h.used _ (movedFrom_mem hl hi)
  · intro i hi
    rw [cmask_moved]
    split
    · exact fun _ => rfl
    · exact h.zero _ (movedFrom_mem hl hi)
  · intro i hi j hj
    rw [cmask_moved, cmask_moved]
    split
    · intro hv
      cases hv
    · next hil =>
      split
      · intro _ hv
        cases hv
      · next hjl =>
        intro hvi hvj hsame
        apply movedFrom_inj hil hjl
        exact h.distinct _ (movedFrom_mem hl hi) _ (movedFrom_mem hl hj) hvi hvj hsame
  · intro i hi
    rw [cmask_moved]
    split
    · rfl
    · exact h.pri _ (movedFrom_mem hl hi)

/-- The two ways a reference goes. -/
theorem clsMaskFree_cases (h : SharedMasks t) (hslot : k ∈ sharedSlots)
    (hvalid : (t.cmask k).bfValid = true) (hself : ruleID ∈ users t k) :
    (1 < (t.cmask k).referenceCount ∧
      (clsMaskFree t k).1 = setMask t k { t.cmask k with
        referenceCount := (t.cmask k).referenceCount - 1 }) ∨
    (users t k = {ruleID} ∧ ∃ l, k ≤ l ∧ l < maxMaskEntry ∧
      (∀ i, k < i → i ≤ l → (t.cmask i).bfValid = true) ∧
      (l + 1 < maxMaskEntry → (t.cmask (l + 1)).bfValid = false) ∧
      (clsMaskFree t k).1 = setMask (shifted t k l) l .zero) := by
  have hused := h.used k hslot hvalid
  rcases Nat.eq_or_lt_of_le (Nat.succ_le_of_lt hused) with hone | hmore
  · refine .inr ⟨?_, withdrawn_last hslot hvalid hone.symm⟩
    have hcard : (users t k).card = 1 := by
      rw [← h.count k hslot]
      exact hone.symm
    obtain ⟨id, hid⟩ := Finset.card_eq_one.mp hcard
    rw [hid, Finset.mem_singleton] at hself
    rw [hid, hself]
  · exact .inl ⟨hmore, by rw [clsMaskFree_shared hvalid hmore]⟩

theorem SharedMasks.withdrawn (h : SharedMasks t) (hrow : RowInv t) (hslot : k ∈ sharedSlots)
    (hvalid : (t.cmask k).bfValid = true) (hself : ruleID ∈ users t k) :
    SharedMasks (withdrawn (clsMaskFree t k).1 row off ruleID) := by
  rcases clsMaskFree_cases h hslot hvalid hself with
    ⟨hmore, heq⟩ | ⟨honly, l, hkl, hl, -, -, heq⟩
  · rw [heq]
    exact h.dropped hslot hself hmore
  · rw [heq]
    exact h.moved hrow hkl hl honly

end Removal

end Opconn.Classify
