import Opconn.Classify.ListedRules
import Opconn.Classify.TableRuns

/-!
# Tables with rules of any precedence

With rules of a precedence among the calls the slots below `CLASSIFY_MIN_MASK_ENTRY` are in
use as well.  They count their rules like the shared ones, but nothing looks for a mask
there, and several rules of one precedence overwrite each other's mask.  What stays true is
`TableInv`, and what a change does to the rules that are there is `Follows`: an entry that
comes in or goes leaves the other ones alone, though their masks may move.
-/

namespace Opconn.Classify

/-! ### What calls of any precedence keep -/

/-- The slots of precedences count their rules too. -/
structure LowMasks (t : Tables) : Prop where
  count : ∀ m < minMaskEntry, (t.cmask m).referenceCount = (users t m).card
  used : ∀ m < minMaskEntry, (t.cmask m).bfValid = true → 0 < (t.cmask m).referenceCount
  zero : ∀ m < minMaskEntry, (t.cmask m).bfValid = false → t.cmask m = .zero

structure TableInv (t : Tables) : Prop where
  rows : RowInv t
  masks : SharedMasks t
  contiguous : Contiguous t
  low : LowMasks t
  single : NoDuplicates t

theorem tableInv_rst : TableInv dalClsRst where
  rows := rowInv_rst
  masks := sharedMasks_rst
  contiguous := packed_rst.contiguous
  low := by
    constructor
    · intro m _
      have hnone : users dalClsRst m = ∅ := by
        ext ruleID
        rw [mem_users]
        simp [dalClsRst]
      rw [hnone]
      rfl
    · intro m _ hvalid
      cases hvalid
    · intro m _ _
      rfl
  single := by
    intro a b ha
    cases ha

/-- What the chip compares a packet with for entry `ruleID`, and what it does to a packet
that matches: the mask without its count, the rule without its selector. -/
def matchOf (t : Tables) (ruleID : Nat) : MaskEntry × RuleEntry :=
  ({ t.cmask (t.crule ruleID).bfMsel with referenceCount := 0 },
    { t.crule ruleID with bfMsel := 0 })

/-- Entry `ruleID` is still there, among the shared masks or in front of them as before; a
shared mask is the one it was. -/
structure Follows (t t' : Tables) (ruleID : Nat) : Prop where
  alloc : t'.mallocFlag ruleID = true
  rule : (matchOf t' ruleID).2 = (matchOf t ruleID).2
  side : minMaskEntry ≤ (t'.crule ruleID).bfMsel ↔ minMaskEntry ≤ (t.crule ruleID).bfMsel
  mask : minMaskEntry ≤ (t.crule ruleID).bfMsel → (matchOf t' ruleID).1 = (matchOf t ruleID).1

theorem Follows.refl {t : Tables} {ruleID : Nat} (h : t.mallocFlag ruleID = true) :
    Follows t t ruleID :=
  ⟨h, rfl, Iff.rfl, fun _ => rfl⟩

/-- Rule `ruleID` is the one that was made of the entries `m` and `r`. -/
structure Placed (t : Tables) (ruleID : Nat) (m : MaskEntry) (r : RuleEntry) : Prop where
  alloc : t.mallocFlag ruleID = true
  rule : sameRule { r with bfMsel := 0 } (matchOf t ruleID).2 = true
  low : 0 < m.maskPri → (t.crule ruleID).bfMsel < minMaskEntry
  shared : m.maskPri = 0 → minMaskEntry ≤ (t.crule ruleID).bfMsel ∧
    sameMask m (matchOf t ruleID).1 = true

theorem Placed.follows {t t' : Tables} {ruleID : Nat} {m : MaskEntry} {r : RuleEntry}
    (h : Placed t ruleID m r) (hfollows : Follows t t' ruleID) : Placed t' ruleID m r where
  alloc := hfollows.alloc
  rule := by
    rw [hfollows.rule]
    exact h.rule
  low := by
    intro hpos
    have hlow := h.low hpos
    by_contra hge
    have := hfollows.side.mp (Nat.le_of_not_lt hge)
    omega
  shared := by
    intro hzero
    obtain ⟨hge, hsame⟩ := h.shared hzero
    refine ⟨hfollows.side.mpr hge, ?_⟩
    rw [hfollows.mask hge]
    exact hsame

/-! ### An entry comes in -/

section Installed

variable {t : Tables} {k ruleID : Nat} {m : MaskEntry} {r : RuleEntry}

theorem LowMasks.installed (h : LowMasks t) (hmsel : r.bfMsel = k)
    (hnew : t.mallocFlag ruleID = false) (husable : usableId ruleID = true) :
    LowMasks (installed t k m r ruleID) := by
  have hnot : ∀ i, ruleID ∉ users t i := fun i hmem => by
    have := (mem_users.mp hmem).2.1
    rw [hnew] at this
    cases this
  constructor
  · intro i hi
    rw [users_installed hnew husable, hmsel, cmask_installed]
    by_cases hik : i = k
    · rw [if_pos hik, if_pos hik, Finset.card_insert_of_notMem (hnot i), ← h.count i hi, hik]
    · rw [if_neg hik, if_neg hik]
      exact h.count i hi
  · intro i hi
    rw [cmask_installed]
    split
    · intro _
      exact Nat.succ_pos _
    · exact h.used i hi
  · intro i hi
    rw [cmask_installed]
    split
    · intro hv
      cases hv
    · exact h.zero i hi

/-- Rules that are there stay; the mask of a slot that is shared is the one it was. -/
theorem follows_installed (hmasks : SharedMasks t) (hnew : t.mallocFlag ruleID = false)
    (hslot : k < minMaskEntry ∨ Takes t m k ∧ m.maskPri = 0) {id : Nat}
    (hid : t.mallocFlag id = true) : Follows t (installed t k m r ruleID) id := by
  have hne : id ≠ ruleID := by
    rintro rfl
    rw [hnew] at hid
    cases hid
  have hrule : (Classify.installed t k m r ruleID).crule id = t.crule id := by
    rw [crule_installed, if_neg hne]
  refine ⟨(mallocFlag_installed ..).mpr (.inr hid), ?_, ?_, ?_⟩
  · simp only [matchOf, hrule]
  · rw [hrule]
  · intro hge
    simp only [matchOf, hrule, cmask_installed]
    split
    · next heq =>
      rcases hslot with hlow | ⟨htakes, hpri⟩
      · omega
      · have hvalid := (hmasks.sel id hid).2
        rw [heq] at hvalid
        rcases htakes.choice with ⟨-, hsame⟩ | ⟨hinvalid, -, -⟩
        · obtain ⟨hem, him, hoff, hbytes⟩ := sameMask_iff.mp hsame
          have hpri' := hmasks.pri k htakes.slot
          rw [heq]
          cases hc : t.cmask k
          simp_all
        · rw [hvalid] at hinvalid
          cases hinvalid
    · rfl

end Installed

/-! ### Masks move up -/

/-- The masks behind slot `k` up to slot `l` moved up by one, and slot `l` cleared. -/
def closedUp (t : Tables) (k l : Nat) : Tables := setMask (shifted t k l) l .zero

section ClosedUp

variable {t : Tables} {k l id : Nat}

theorem cmask_closedUp (t : Tables) (k l i : Nat) : (closedUp t k l).cmask i =
    if i = l then .zero else t.cmask (movedFrom k l i) :=
  @cmask_moved t k 0 0 0 l i

theorem crule_closedUp (t : Tables) (k l id : Nat) : (closedUp t k l).crule id =
    { t.crule id with bfMsel := ((closedUp t k l).crule id).bfMsel } := by
  simp only [closedUp, setMask, shifted]
  split <;> rfl

theorem msel_closedUp (hids : usableId id = true) (hid : t.mallocFlag id = true)
    (hne : (t.crule id).bfMsel ≠ k) (hkl : k ≤ l) :
    ((closedUp t k l).crule id).bfMsel ≠ l ∧
      movedFrom k l ((closedUp t k l).crule id).bfMsel = (t.crule id).bfMsel :=
  msel_moved 0 0 0 hids hid hne hkl

theorem matchOf_closedUp (hids : usableId id = true) (hid : t.mallocFlag id = true)
    (hne : (t.crule id).bfMsel ≠ k) (hkl : k ≤ l) :
    matchOf (closedUp t k l) id = matchOf t id := by
  obtain ⟨hml, hfrom⟩ := msel_closedUp hids hid hne hkl
  have hmask : (closedUp t k l).cmask ((closedUp t k l).crule id).bfMsel =
      t.cmask (t.crule id).bfMsel := by
    rw [cmask_closedUp, if_neg hml, hfrom]
  rw [matchOf, hmask, crule_closedUp, matchOf]

/-- Masks stay in their order. -/
theorem movedFrom_lt_iff {i j : Nat} (hj : j ≠ l) :
    movedFrom k l i < movedFrom k l j ↔ i < j := by
  simp only [movedFrom]
  split <;> split <;> omega

theorem sameRule_of_closedUp {a b : Nat}
    (ha : movedFrom k l ((closedUp t k l).crule a).bfMsel = (t.crule a).bfMsel)
    (hb : movedFrom k l ((closedUp t k l).crule b).bfMsel = (t.crule b).bfMsel)
    (hsame : sameRule ((closedUp t k l).crule a) ((closedUp t k l).crule b) = true) :
    sameRule (t.crule a) (t.crule b) = true := by
  obtain ⟨hmsel, hin, heg, hrule⟩ := sameRule_iff.mp hsame
  rw [crule_closedUp t k l a, crule_closedUp t k l b] at hin heg hrule
  rw [sameRule_iff, ← ha, ← hb, hmsel]
  exact ⟨rfl, hin, heg, hrule⟩

/-- No rule selects a mask without users. -/
theorem msel_ne_of_none (hrow : RowInv t) (hnone : users t k = ∅)
    (hid : t.mallocFlag id = true) : (t.crule id).bfMsel ≠ k := by
  intro heq
  have hmax := (usableId_iff.mp (hrow.ids id hid)).1
  have hmem : id ∈ users t k := mem_users.mpr ⟨hmax, hid, heq⟩
  rw [hnone] at hmem
  simp at hmem

theorem users_closedUp (hrow : RowInv t) (hnone : users t k = ∅) (hkl : k ≤ l) (i : Nat) :
    users (closedUp t k l) i = if i = l then ∅ else users t (movedFrom k l i) := by
  have hmoved : ∀ id, t.mallocFlag id = true → ((closedUp t k l).crule id).bfMsel ≠ l ∧
      movedFrom k l ((closedUp t k l).crule id).bfMsel = (t.crule id).bfMsel := by
    intro id hid
    exact msel_closedUp (hrow.ids id hid) hid (msel_ne_of_none hrow hnone hid) hkl
  ext id
  constructor
  · intro hmem
    obtain ⟨hmax, hid, rfl⟩ := mem_users.mp hmem
    obtain ⟨hl, hfrom⟩ := hmoved id hid
    rw [if_neg hl, mem_users]
    exact ⟨hmax, hid, hfrom.symm⟩
  · intro hmem
    split at hmem
    · simp at hmem
    · next hil =>
      obtain ⟨hmax, hid, hsel⟩ := mem_users.mp hmem
      obtain ⟨hl, hfrom⟩ := hmoved id hid
      exact mem_users.mpr ⟨hmax, hid, movedFrom_inj hl hil (hfrom.trans hsel)⟩

end ClosedUp

/-! ### A refusal with precedence -/

section Refused

variable {t : Tables} {k l : Nat}

/-- The slot of a precedence is given back: the tables are as before, unless nobody used the
slot; then the valid masks behind it move up. -/
theorem clsMaskFree_referenced_low (h : LowMasks t) (hk : k < minMaskEntry) :
    (clsMaskFree (referenced t k) k).1 = t ∨
    (t.cmask k).referenceCount = 0 ∧ users t k = ∅ ∧ ∃ l, k ≤ l ∧
      (∀ i, k < i → i ≤ l → (t.cmask i).bfValid = true) ∧
      (clsMaskFree (referenced t k) k).1 = closedUp (referenced t k) k l := by
  have hentry : (referenced t k).cmask k = { t.cmask k with
      bfValid := true, referenceCount := (t.cmask k).referenceCount + 1 } :=
    Function.update_self ..
  cases hvalid : (t.cmask k).bfValid with
  | true =>
    have hused := h.used k hk hvalid
    refine .inl ?_
    rw [clsMaskFree_shared (by rw [hentry]) (by rw [hentry]; simpa using hused), hentry,
      referenced, setMask_setMask]
    apply setMask_self
    simp [← hvalid]
  | false =>
    have hzero := h.zero k hk hvalid
    have hcount : (t.cmask k).referenceCount = 0 := by
      rw [hzero]
      rfl
    have hnone : users t k = ∅ := by
      rw [← Finset.card_eq_zero, ← h.count k hk]
      exact hcount
    obtain ⟨l, hkl, -, hall, -, heq⟩ :=
      moveUp_spec (maxMaskEntry - (k + 1)) (referenced t k) k
    refine .inr ⟨hcount, hnone, l, hkl, ?_, ?_⟩
    · intro i hi hil
      have hother : (referenced t k).cmask i = t.cmask i :=
        Function.update_of_ne (by omega) _ _
      rw [← hother]
      exact hall i hi hil
    · simp [clsMaskFree, hentry, hcount, heq, closedUp]

/-- The masks that move up all belong to precedences. -/
theorem TableInv.closedUp (h : TableInv t) (hnone : users t k = ∅) (hkl : k ≤ l)
    (hl : l < minMaskEntry) : TableInv (closedUp (referenced t k) k l) := by
  have hrow : RowInv (referenced t k) := h.rows.setMask k _
  have husers : ∀ i, users (Classify.closedUp (referenced t k) k l) i =
      if i = l then ∅ else users t (movedFrom k l i) := users_closedUp hrow hnone hkl
  have hcmask : ∀ i, i ≠ l → (Classify.closedUp (referenced t k) k l).cmask i =
      t.cmask (movedFrom k l i) := by
    intro i hi
    rw [cmask_closedUp, if_neg hi]
    exact Function.update_of_ne (movedFrom_ne hi hkl) _ _
  have hshared : ∀ i, minMaskEntry ≤ i → i ≠ l ∧ movedFrom k l i = i := by
    intro i hi
    refine ⟨by omega, ?_⟩
    rw [movedFrom, if_neg (by omega)]
  have hlow : ∀ i, i < minMaskEntry → movedFrom k l i < minMaskEntry := by
    intro i hi
    rw [movedFrom]
    split <;> omega
  have hmoved : ∀ id, t.mallocFlag id = true →
      ((Classify.closedUp (referenced t k) k l).crule id).bfMsel ≠ l ∧
      movedFrom k l ((Classify.closedUp (referenced t k) k l).crule id).bfMsel =
        (t.crule id).bfMsel := by
    intro id hid
    exact msel_closedUp (hrow.ids id hid) hid (msel_ne_of_none hrow hnone hid) hkl
  constructor
  · refine h.rows.congr rfl rfl rfl ?_
    intro id _
    rw [crule_closedUp]
    rfl
  · apply h.masks.of_same
    · intro i hi
      obtain ⟨hne, hfrom⟩ := hshared i (mem_sharedSlots.mp hi).1
      rw [hcmask i hne, hfrom]
    · intro i hi
      obtain ⟨hne, hfrom⟩ := hshared i (mem_sharedSlots.mp hi).1
      rw [husers, if_neg hne, hfrom]
    · intro id hid
      obtain ⟨hml, hfrom⟩ := hmoved id hid
      obtain ⟨hmax, hvalid⟩ := h.masks.sel id hid
      rw [hcmask _ hml, hfrom]
      refine ⟨?_, hvalid⟩
      rw [← hfrom, movedFrom] at hmax
      split at hmax <;> omega
  · apply h.contiguous.congr
    intro i hi
    obtain ⟨hne, hfrom⟩ := hshared i hi
    rw [hcmask i hne, hfrom]
  · constructor
    · intro i hi
      rw [husers]
      by_cases hil : i = l
      · rw [if_pos hil, cmask_closedUp, if_pos hil]
        rfl
      · rw [if_neg hil, hcmask i hil]
        exact h.low.count _ (hlow i hi)
    · intro i hi
      by_cases hil : i = l
      · rw [cmask_closedUp, if_pos hil]
        intro hv
        cases hv
      · rw [hcmask i hil]
        exact h.low.used _ (hlow i hi)
    · intro i hi
      by_cases hil : i = l
      · rw [cmask_closedUp, if_pos hil]
        exact fun _ => rfl
      · rw [hcmask i hil]
        exact h.low.zero _ (hlow i hi)
  · intro a b ha hb hsame
    apply h.single a b ha hb
    exact sameRule_of_closedUp (hmoved a ha).2 (hmoved b hb).2 hsame

theorem follows_closedUp (hrow : RowInv t) (hnone : users t k = ∅) (hkl : k ≤ l)
    (hl : l < minMaskEntry) {id : Nat} (hid : t.mallocFlag id = true) :
    Follows t (closedUp (referenced t k) k l) id := by
  have hids := hrow.ids id hid
  have hne := msel_ne_of_none hrow hnone hid
  have hmatch := matchOf_closedUp (t := referenced t k) hids hid hne hkl
  obtain ⟨hml, hfrom⟩ := msel_closedUp (t := referenced t k) hids hid hne hkl
  have hsame : matchOf (referenced t k) id = matchOf t id := by
    simp only [matchOf]
    rw [show (referenced t k).crule = t.crule from rfl,
      show (referenced t k).cmask (t.crule id).bfMsel = t.cmask (t.crule id).bfMsel from
        Function.update_of_ne hne _ _]
  rw [hsame] at hmatch
  refine ⟨hid, by rw [hmatch], ?_, fun _ => by rw [hmatch]⟩
  have hold : (t.crule id).bfMsel =
      movedFrom k l ((closedUp (referenced t k) k l).crule id).bfMsel := hfrom.symm
  rw [hold, movedFrom]
  split <;> omega

end Refused

/-! ### An entry goes -/

section Withdrawn

variable {t : Tables} {k row off ruleID : Nat}

theorem LowMasks.withdrawn (h : LowMasks t) (hmasks : SharedMasks t) (hrow : RowInv t)
    (hslot : k ∈ sharedSlots) (hvalid : (t.cmask k).bfValid = true) (hself : ruleID ∈ users t k) :
    LowMasks (withdrawn (clsMaskFree t k).1 row off ruleID) := by
  have hk := (mem_sharedSlots.mp hslot).1
  have hsame : ∀ i < minMaskEntry,
      (Classify.withdrawn (clsMaskFree t k).1 row off ruleID).cmask i = t.cmask i ∧
      users (Classify.withdrawn (clsMaskFree t k).1 row off ruleID) i = users t i := by
    intro i hi
    rcases clsMaskFree_cases hmasks hslot hvalid hself with
      ⟨-, heq⟩ | ⟨honly, l, hkl, -, -, -, heq⟩
    · rw [heq, users_withdrawn]
      refine ⟨Function.update_of_ne (by omega) _ _, Finset.erase_eq_of_notMem ?_⟩
      intro hmem
      have hi' := (mem_users.mp hmem).2.2.symm.trans (mem_users.mp hself).2.2
      omega
    · have hil : i ≠ l := by omega
      have hfrom : movedFrom k l i = i := if_neg (by omega)
      rw [heq, users_moved hrow hkl honly, cmask_moved, if_neg hil, if_neg hil, hfrom]
      exact ⟨rfl, rfl⟩
  constructor
  · intro i hi
    rw [(hsame i hi).1, (hsame i hi).2]
    exact h.count i hi
  · intro i hi
    rw [(hsame i hi).1]
    exact h.used i hi
  · intro i hi
    rw [(hsame i hi).1]
    exact h.zero i hi

/-- What giving the mask back does to the other entries. -/
theorem match_withdrawn (hmasks : SharedMasks t) (hrow : RowInv t) (hslot : k ∈ sharedSlots)
    (hvalid : (t.cmask k).bfValid = true) (hself : ruleID ∈ users t k) :
    let t' := withdrawn (clsMaskFree t k).1 row off ruleID
    (∀ a, a ≠ ruleID → t.mallocFlag a = true → matchOf t' a = matchOf t a ∧
      (minMaskEntry ≤ (t'.crule a).bfMsel ↔ minMaskEntry ≤ (t.crule a).bfMsel)) ∧
    ∀ a b, a ≠ ruleID → b ≠ ruleID → t.mallocFlag a = true → t.mallocFlag b = true →
      ((t'.crule a).bfMsel < (t'.crule b).bfMsel ↔
        (t.crule a).bfMsel < (t.crule b).bfMsel) ∧
      (sameRule (t'.crule a) (t'.crule b) = true → sameRule (t.crule a) (t.crule b) = true) := by
  have hk := (mem_sharedSlots.mp hslot).1
  rcases clsMaskFree_cases hmasks hslot hvalid hself with
    ⟨-, heq⟩ | ⟨honly, l, hkl, -, -, -, heq⟩
  · rw [heq]
    refine ⟨fun a _ _ => ⟨?_, Iff.rfl⟩, fun a b _ _ _ _ => ⟨Iff.rfl, id⟩⟩
    refine Prod.ext ?_ rfl
    show ({ Function.update t.cmask k _ (t.crule a).bfMsel with referenceCount := 0 } : MaskEntry) =
      { t.cmask (t.crule a).bfMsel with referenceCount := 0 }
    by_cases hak : (t.crule a).bfMsel = k
    · rw [hak, Function.update_self]
    · rw [Function.update_of_ne hak]
  · rw [heq]
    have hmoved : ∀ a, a ≠ ruleID → t.mallocFlag a = true →
        usableId a = true ∧ (t.crule a).bfMsel ≠ k := by
      intro a hne ha
      have hids := hrow.ids a ha
      exact ⟨hids, msel_ne_of_only honly hne hids ha⟩
    constructor
    · intro a hne ha
      obtain ⟨hids, hnk⟩ := hmoved a hne ha
      obtain ⟨-, hfrom⟩ := msel_closedUp hids ha hnk hkl
      refine ⟨matchOf_closedUp hids ha hnk hkl, ?_⟩
      show minMaskEntry ≤ ((closedUp t k l).crule a).bfMsel ↔ _
      rw [← hfrom, movedFrom]
      split <;> omega
    · intro a b hnea hneb ha hb
      obtain ⟨haids, hank⟩ := hmoved a hnea ha
      obtain ⟨hbids, hbnk⟩ := hmoved b hneb hb
      obtain ⟨-, hfroma⟩ := msel_closedUp haids ha hank hkl
      obtain ⟨hbl, hfromb⟩ := msel_closedUp hbids hb hbnk hkl
      refine ⟨?_, sameRule_of_closedUp hfroma hfromb⟩
      show ((closedUp t k l).crule a).bfMsel < ((closedUp t k l).crule b).bfMsel ↔ _
      rw [← hfroma, ← hfromb, movedFrom_lt_iff hbl]

theorem TableInv.withdrawn (h : TableInv t) (hslot : k ∈ sharedSlots)
    (hvalid : (t.cmask k).bfValid = true) (hself : ruleID ∈ users t k)
    (haddr : t.caddr row off = ruleID) :
    TableInv (withdrawn (clsMaskFree t k).1 row off ruleID) where
  rows := h.rows.withdrawn (mem_users.mp hself).2.1 haddr
  masks := h.masks.withdrawn h.rows hslot hvalid hself
  contiguous := h.contiguous.withdrawn h.masks hslot hvalid hself
  low := h.low.withdrawn h.masks h.rows hslot hvalid hself
  single := by
    intro a b ha hb hsame
    rw [mallocFlag_withdrawn, (clsMaskFree_frame t k).1] at ha hb
    apply h.single a b ha.2 hb.2
    exact ((match_withdrawn h.masks h.rows hslot hvalid hself).2 a b ha.1 hb.1 ha.2 hb.2).2 hsame

theorem follows_withdrawn (h : TableInv t) (hslot : k ∈ sharedSlots)
    (hvalid : (t.cmask k).bfValid = true) (hself : ruleID ∈ users t k) {id : Nat}
    (hne : id ≠ ruleID) (hid : t.mallocFlag id = true) :
    Follows t (withdrawn (clsMaskFree t k).1 row off ruleID) id := by
  obtain ⟨hmatch, hside⟩ := (match_withdrawn h.masks h.rows hslot hvalid hself).1 id hne hid
  refine ⟨?_, congrArg Prod.snd hmatch, hside, fun _ => congrArg Prod.fst hmatch⟩
  rw [mallocFlag_withdrawn, (clsMaskFree_frame t k).1]
  exact ⟨hne, hid⟩

end Withdrawn

end Opconn.Classify
