import Opconn.Classify.MixedTables

/-!
# Removing a rule by its parameters

`dalClsEntryMove` does not know where `dalClsEntrySet` put a rule: it makes the entries again
and looks for an equal mask, from `CLASSIFY_MIN_MASK_ENTRY` on, and an equal rule in the hash
row.  For a rule without precedence that finds the rule again after any other calls, wherever
its mask has moved in between.  The mask of a rule with precedence is in a slot that is never
looked at.  A rule with precedence that is refused can do harm as well: its slot was valid
for a moment, and freeing it moves the masks behind it up.
-/

namespace Opconn.Classify

open Runs

/-! ### Calls -/

/-- Whether a refusal would leave the shared masks where they are: the rule has no
precedence, the slot of its precedence is in use, there is room for the rule so that it is
not refused, or a slot between its own and the shared ones stops the masks that move up. -/
def orderlyAdd (t : Tables) (m : MaskEntry) (r : RuleEntry) : Bool :=
  m.maskPri = 0 || 0 < (t.cmask (m.maskPri - 1)).referenceCount ||
    0 < (mostFreeGroup t (clsAddrCal r)).2 ||
    (List.range' m.maskPri (minMaskEntry + 1 - m.maskPri)).any fun i => !(t.cmask i).bfValid

/-- The condition on a call. -/
def orderly (t : Tables) : EntryCall → Bool
  | .set par made =>
    match entriesOf (fun _ => made) par with
    | .error _ => true
    | .ok (m, r) => orderlyAdd t m r
  | .move .. => true

/-- Whether a call asks for the removal of a rule equal to `r` under a mask equal to `m`,
with whatever precedence. -/
def EntryCall.names (m : MaskEntry) (r : RuleEntry) : EntryCall → Bool
  | .set .. => false
  | .move par made =>
    match entriesOf (fun _ => made) par with
    | .error _ => false
    | .ok (m', r') => sameMask m' m && sameRule { r' with bfMsel := 0 } { r with bfMsel := 0 }

/-- Whether a call asks for the removal of the rule of a parameter block. -/
def EntryCall.namesRule (par : Parameter) (made : Option (MaskEntry × RuleEntry))
    (c : EntryCall) : Bool :=
  match entriesOf (fun _ => made) par with
  | .error _ => false
  | .ok (m, r) => c.names m r

section Calls

variable {t : Tables} {k ruleID : Nat} {m : MaskEntry} {r : RuleEntry}

theorem TableInv.installed (h : TableInv t) (hfree : FreeFor t r k ruleID)
    (hslot : k < minMaskEntry ∨ Takes t m k ∧ m.maskPri = 0) :
    TableInv (installed t k m { r with bfMsel := k } ruleID) where
  rows := h.rows.installed hfree.new hfree.usable hfree.place
  masks := by
    rcases hslot with hlow | ⟨htakes, hpri⟩
    · exact h.masks.installedLow hlow rfl hfree.new hfree.usable
    · exact h.masks.installed htakes hpri rfl hfree.new hfree.usable
  contiguous := by
    rcases hslot with hlow | ⟨htakes, -⟩
    · apply h.contiguous.congr
      intro i hi
      rw [cmask_installed, if_neg (by omega)]
    · exact h.contiguous.installed htakes _ _
  low := h.low.installed rfl hfree.new hfree.usable
  single := h.single.installed h.rows _ _ hfree.sel

theorem placed_installed (hslot : m.maskPri = k + 1 ∧ k < minMaskEntry ∨
    m.maskPri = 0 ∧ minMaskEntry ≤ k) :
    Placed (installed t k m { r with bfMsel := k } ruleID) ruleID m r := by
  have hrule : (Classify.installed t k m { r with bfMsel := k } ruleID).crule ruleID =
      { r with bfMsel := k } := by
    rw [crule_installed, if_pos rfl]
  constructor
  · exact (mallocFlag_installed ..).mpr (.inl rfl)
  · simp [matchOf, hrule, sameRule]
  · intro hpos
    rw [hrule]
    show k < minMaskEntry
    omega
  · intro hzero
    rw [hrule]
    refine ⟨?_, ?_⟩
    · show minMaskEntry ≤ k
      omega
    · simp [matchOf, hrule, cmask_installed, sameMask]

/-- What a call keeps that takes nothing away. -/
structure StepKept (t t' : Tables) : Prop where
  inv : TableInv t'
  follows : ∀ id, t.mallocFlag id = true → Follows t t' id

theorem StepKept.refl (h : TableInv t) : StepKept t t := ⟨h, fun _ => Follows.refl⟩

/-- A rule with precedence that is refused. -/
theorem stepKept_refused (h : TableInv t) (hpos : 0 < m.maskPri)
    (hpri : m.maskPri ≤ minMaskEntry) (horderly : orderlyAdd t m r = true)
    (hreason : clsRuleIDSel t { r with bfMsel := m.maskPri - 1 } (clsAddrCal r) ≠ none ∨
      (mostFreeGroup t (clsAddrCal r)).2 = 0) :
    StepKept t (clsMaskFree (referenced t (m.maskPri - 1)) (m.maskPri - 1)).1 := by
  rcases clsMaskFree_referenced_low h.low (k := m.maskPri - 1) (by omega) with
    heq | ⟨hcount, hnone, l, hkl, hall, heq⟩
  · rw [heq]
    exact StepKept.refl h
  · have hroom : (mostFreeGroup t (clsAddrCal r)).2 = 0 := by
      rcases hreason with hfound | hroom
      · -- an equal rule would use the slot
        obtain ⟨⟨off, id⟩, hsel⟩ := Option.ne_none_iff_exists'.mp hfound
        obtain ⟨haddr, hne, hsame⟩ := clsRuleIDSel_spec hsel
        have hid := (h.rows.addr _ off (by rw [haddr]; exact hne)).1
        rw [haddr] at hid
        exact absurd (sameRule_iff.mp hsame).1.symm (msel_ne_of_none h.rows hnone hid)
      · exact hroom
    have hstop : ∃ i, m.maskPri ≤ i ∧ i ≤ minMaskEntry ∧ (t.cmask i).bfValid = false := by
      simp only [orderlyAdd, Bool.or_eq_true, decide_eq_true_eq, List.any_eq_true,
        List.mem_range'_1, Bool.not_eq_true'] at horderly
      rcases horderly with ((hzero | hused) | hspace) | ⟨i, hi, hinvalid⟩
      · omega
      · omega
      · omega
      · exact ⟨i, hi.1, by omega, hinvalid⟩
    obtain ⟨i, hmi, hi, hinvalid⟩ := hstop
    have hl : l < minMaskEntry := by
      by_contra hge
      have hvalid := hall i (by omega) (by omega)
      rw [hvalid] at hinvalid
      cases hinvalid
    rw [heq]
    exact ⟨h.closedUp hnone hkl hl, fun id hid => follows_closedUp h.rows hnone hkl hl hid⟩

/-- What `dalClsEntrySet` does once it has its entries. -/
theorem dalClsTblEntryAdd_kept (h : TableInv t) (hpri : m.maskPri ≤ minMaskEntry)
    (horderly : orderlyAdd t m r = true) :
    StepKept t (dalClsTblEntryAdd t m r).1 ∧
      ∀ entry, (dalClsTblEntryAdd t m r).2 = .ok entry →
        Placed (dalClsTblEntryAdd t m r).1 entry.clsHwRuleID m r := by
  by_cases hzero : m.maskPri = 0
  · rcases takeMask_spec h.masks hzero with hfull | ⟨k, htakes, htake⟩
    · have heq : dalClsTblEntryAdd t m r = (t, .error .maskTableFull) := by
        simp only [dalClsTblEntryAdd, hfull]
      rw [heq]
      exact ⟨StepKept.refl h, fun entry hok => by cases hok⟩
    · have hk := mem_sharedSlots.mp htakes.slot
      rcases dalClsTblEntryAdd_taken h.rows r htake hk.2 with ⟨e, heq⟩ | ⟨ruleID, hfree, heq⟩
      · have hback : (clsMaskFree (referenced t k) k).1 = t :=
          clsMaskFree_referenced h.masks htakes fun hinvalid hmax =>
            h.contiguous.next_invalid hk.1 hinvalid hmax
        rw [heq, hback]
        exact ⟨StepKept.refl h, fun entry hok => by cases hok⟩
      · have hslot : k < minMaskEntry ∨ Takes t m k ∧ m.maskPri = 0 := .inr ⟨htakes, hzero⟩
        rw [heq]
        refine ⟨⟨h.installed hfree hslot, ?_⟩, ?_⟩
        · intro id hid
          exact follows_installed h.masks hfree.new hslot hid
        · rintro entry ⟨⟩
          exact placed_installed (.inr ⟨hzero, hk.1⟩)
  · have hk : m.maskPri - 1 < minMaskEntry := by omega
    have htake : takeMask t m = (referenced t (m.maskPri - 1), .ok (m.maskPri - 1)) := by
      rw [takeMask, if_neg hzero]
      rfl
    rcases dalClsTblEntryAdd_spec h.rows r htake rfl (Nat.lt_trans hk (by decide)) with
      ⟨e, heq, hreason⟩ | ⟨ruleID, heq, hnew, husable, hfree, hsel⟩
    · rw [heq]
      refine ⟨?_, fun entry hok => by cases hok⟩
      exact stepKept_refused h (Nat.pos_of_ne_zero hzero) hpri horderly hreason
    · rw [heq]
      refine ⟨⟨h.installed ⟨hnew, husable, hfree, hsel⟩ (.inl hk), ?_⟩, ?_⟩
      · intro id hid
        exact follows_installed h.masks hnew (.inl hk) hid
      · rintro entry ⟨⟩
        exact placed_installed (.inl ⟨by omega, hk⟩)

/-- A removal takes away no rule but one it names, and that only without precedence. -/
theorem dalClsTblEntryDel_kept (h : TableInv t) {m' : MaskEntry} {r' : RuleEntry} :
    TableInv (dalClsTblEntryDel t m' r').1 ∧ ∀ id, Placed t id m r →
      (sameMask m' m && sameRule { r' with bfMsel := 0 } { r with bfMsel := 0 }) = false →
      Follows t (dalClsTblEntryDel t m' r').1 id := by
  rcases dalClsTblEntryDel_spec h.rows h.masks m' r' with
    ⟨e, heq, -⟩ | ⟨k, row, off, ruleID, hslot, hvalid, hmask, hid, haddr, hsame, heq⟩
  · rw [heq]
    exact ⟨h, fun id hplaced _ => Follows.refl hplaced.alloc⟩
  · obtain ⟨hmsel, hin, heg, hrule⟩ := sameRule_iff.mp hsame
    have hself : ruleID ∈ users t k :=
      mem_users.mpr ⟨(usableId_iff.mp (h.rows.ids ruleID hid)).1, hid, hmsel.symm⟩
    rw [heq]
    refine ⟨h.withdrawn hslot hvalid hself haddr, ?_⟩
    intro id hplaced hother
    apply follows_withdrawn h hslot hvalid hself _ hplaced.alloc
    rintro rfl
    have hk := (mem_sharedSlots.mp hslot).1
    have hmsel' : (t.crule id).bfMsel = k := hmsel.symm
    have hzero : m.maskPri = 0 := by
      by_contra hne
      have := hplaced.low (Nat.pos_of_ne_zero hne)
      omega
    have hshared : sameMask m (t.cmask k) = true := by
      rw [← hmsel']
      exact (hplaced.shared hzero).2
    obtain ⟨-, hin', heg', hrule'⟩ := sameRule_iff.mp hplaced.rule
    rw [Bool.eq_false_iff, Ne, Bool.and_eq_true, sameRule_iff] at hother
    apply hother
    exact ⟨sameMask_trans hmask (sameMask_symm hshared), rfl, hin.trans hin'.symm,
      heg.trans heg'.symm, hrule.trans hrule'.symm⟩

theorem callStep_kept (h : TableInv t) {c : EntryCall} (hpri : c.par.maskPri ≤ minMaskEntry)
    (horderly : orderly t c = true) :
    TableInv (callStep t c) ∧ ∀ id, Placed t id m r → c.names m r = false →
      Placed (callStep t c) id m r := by
  cases c with
  | set par made =>
    simp only [orderly] at horderly
    simp only [callStep, dalClsEntrySet]
    split
    · exact ⟨h, fun id hplaced _ => hplaced⟩
    · next mentry rentry hmake =>
      rw [hmake] at horderly
      have hle : mentry.maskPri ≤ minMaskEntry := by
        rw [maskPri_of_entriesOf hmake]
        exact hpri
      obtain ⟨hkept, -⟩ := dalClsTblEntryAdd_kept h hle horderly
      exact ⟨hkept.inv, fun id hplaced _ => hplaced.follows (hkept.follows id hplaced.alloc)⟩
  | move par made =>
    simp only [callStep, dalClsEntryMove, EntryCall.names]
    split
    · exact ⟨h, fun id hplaced _ => hplaced⟩
    · next mentry rentry hmake =>
      obtain ⟨hinv, hfollows⟩ := dalClsTblEntryDel_kept h
      refine ⟨hinv, fun id hplaced hother => hplaced.follows (hfollows id hplaced ?_)⟩
      simpa only [hmake] using hother

end Calls

/-! ### The removal -/

/-- Exactly rule `ruleID` is gone: no place of the address table refers to it, its id is
free, a mask that only it used is released, and the other rules match what they matched,
in the same order. -/
structure Removed (t t' : Tables) (ruleID : Nat) : Prop where
  unreferenced : ∀ row off, t'.caddr row off ≠ ruleID
  places : ∀ row off, t.caddr row off ≠ ruleID → t'.caddr row off = t.caddr row off
  free : t'.mallocFlag ruleID = false
  freeCnt : t'.freeCnt (ruleID / entrysPerGroup) = t.freeCnt (ruleID / entrysPerGroup) + 1
  mask : users t (t.crule ruleID).bfMsel = {ruleID} → ∀ i ∈ sharedSlots,
    (t'.cmask i).bfValid = true → sameMask (t.cmask (t.crule ruleID).bfMsel) (t'.cmask i) = false
  others : ∀ id, id ≠ ruleID → t'.mallocFlag id = t.mallocFlag id
  matching : ∀ id, id ≠ ruleID → t.mallocFlag id = true → matchOf t' id = matchOf t id
  order : ∀ a b, a ≠ ruleID → b ≠ ruleID → t.mallocFlag a = true → t.mallocFlag b = true →
    ((t'.crule a).bfMsel < (t'.crule b).bfMsel ↔ (t.crule a).bfMsel < (t.crule b).bfMsel)

/-- `dalClsEntryMove` succeeds and removes rule `ruleID`. -/
def MoveRemoves (t : Tables) (par : Parameter) (made : Option (MaskEntry × RuleEntry))
    (ruleID : Nat) : Prop :=
  (dalClsEntryMove (fun _ => made) t par).2 = .ok ruleID ∧
    Removed t (dalClsEntryMove (fun _ => made) t par).1 ruleID

section Removal

variable {t : Tables} {ruleID : Nat} {m : MaskEntry} {r : RuleEntry}

theorem removed_withdrawn (h : TableInv t) {k row off : Nat} (hslot : k ∈ sharedSlots)
    (hvalid : (t.cmask k).bfValid = true) (hself : ruleID ∈ users t k)
    (haddr : t.caddr row off = ruleID) :
    Removed t (withdrawn (clsMaskFree t k).1 row off ruleID) ruleID := by
  obtain ⟨-, hid, hmsel⟩ := mem_users.mp hself
  obtain ⟨halloc, hcnt, hcaddr, -⟩ := clsMaskFree_frame t k
  have hmatch := @match_withdrawn t k row off ruleID h.masks h.rows hslot hvalid hself
  have hrow := (h.withdrawn hslot hvalid hself haddr).rows
  have hfree : (withdrawn (clsMaskFree t k).1 row off ruleID).mallocFlag ruleID = false := by
    simp [withdrawn, clsRuleFree]
  constructor
  · intro row' off' heq
    have hlive := (hrow.addr row' off' (by rw [heq]; exact h.rows.ne_zero hid)).1
    rw [heq, hfree] at hlive
    cases hlive
  · intro row' off' hne
    rw [caddr_withdrawn, hcaddr, if_neg]
    rintro ⟨rfl, rfl⟩
    exact hne haddr
  · exact hfree
  · simp [withdrawn, clsRuleFree, dalClsAddrTblWr, hcnt]
  · rw [hmsel]
    intro honly i hi
    rcases clsMaskFree_cases h.masks hslot hvalid hself with
      ⟨hmore, -⟩ | ⟨-, l, hkl, hl, -, -, heq⟩
    · rw [h.masks.count k hslot, honly] at hmore
      simp at hmore
    · rw [heq, cmask_moved]
      split
      · intro hv
        cases hv
      · next hil =>
        intro hv
        rw [Bool.eq_false_iff]
        intro hsame
        have hk := h.masks.distinct k hslot _ (movedFrom_mem hl hi) hvalid hv hsame
        exact movedFrom_ne hil hkl hk.symm
  · intro id hne
    show Function.update (clsMaskFree t k).1.mallocFlag ruleID false id = _
    rw [Function.update_of_ne hne, halloc]
  · intro id hne hlive
    exact (hmatch.1 id hne hlive).1
  · intro a b hnea hneb ha hb
    exact (hmatch.2 a b hnea hneb ha hb).1

/-- A shared slot with the mask of a rule without precedence is the one the rule selects. -/
theorem Placed.slot_eq (hplaced : Placed t ruleID m r) (h : TableInv t) (hzero : m.maskPri = 0)
    {k : Nat} (hslot : k ∈ sharedSlots) (hvalid : (t.cmask k).bfValid = true)
    (hmask : sameMask m (t.cmask k) = true) : k = (t.crule ruleID).bfMsel := by
  obtain ⟨hge, hsame⟩ := hplaced.shared hzero
  obtain ⟨hmax, hvalid'⟩ := h.masks.sel ruleID hplaced.alloc
  apply h.masks.distinct k hslot _ (mem_sharedSlots.mpr ⟨hge, hmax⟩) hvalid hvalid'
  exact sameMask_trans (sameMask_symm hmask) hsame

/-- The mask of a rule without precedence is found. -/
theorem clsMaskSel_of_placed (h : TableInv t) (hplaced : Placed t ruleID m r)
    (hzero : m.maskPri = 0) : clsMaskSel t m = some (t.crule ruleID).bfMsel := by
  cases hsel : clsMaskSel t m with
  | none =>
    obtain ⟨hge, hsame⟩ := hplaced.shared hzero
    obtain ⟨hmax, hvalid⟩ := h.masks.sel ruleID hplaced.alloc
    have hnot := List.find?_eq_none.mp hsel _ (mem_sharedSlots.mpr ⟨hge, hmax⟩)
    rw [hvalid, Bool.true_and] at hnot
    exact absurd hsame hnot
  | some k =>
    have hfound := List.find?_some hsel
    rw [Bool.and_eq_true] at hfound
    rw [hplaced.slot_eq h hzero (List.mem_of_find?_eq_some hsel) hfound.1 hfound.2]

/-- **One removal.**  A rule is found again by its parameters exactly when it has no
precedence. -/
theorem moveRemoves_iff (h : TableInv t) {par : Parameter}
    {made : Option (MaskEntry × RuleEntry)} (hmake : entriesOf (fun _ => made) par = .ok (m, r))
    (hplaced : Placed t ruleID m r) : MoveRemoves t par made ruleID ↔ par.maskPri = 0 := by
  rw [← maskPri_of_entriesOf hmake]
  simp only [MoveRemoves, dalClsEntryMove, hmake]
  rcases dalClsTblEntryDel_spec h.rows h.masks m r with
    ⟨e, heq, hnone⟩ | ⟨k, row, off, id, hslot, hvalid, hmask, hid, haddr, hsame, heq⟩
  · rw [heq]
    constructor
    · rintro ⟨⟨⟩, -⟩
    · intro hzero
      have hsel := hnone _ (clsMaskSel_of_placed h hplaced hzero)
      have hdiff := h.rows.not_sameRule (r := { r with bfMsel := (t.crule ruleID).bfMsel })
        hsel hplaced.alloc
      obtain ⟨-, hin, heg, hrule⟩ := sameRule_iff.mp hplaced.rule
      rw [Bool.eq_false_iff, Ne, sameRule_iff] at hdiff
      exact absurd ⟨rfl, hin, heg, hrule⟩ hdiff
  · obtain ⟨hmsel, hin, heg, hrule⟩ := sameRule_iff.mp hsame
    have hk := (mem_sharedSlots.mp hslot).1
    rw [heq]
    constructor
    · rintro ⟨⟨⟩, -⟩
      by_contra hne
      have hlow := hplaced.low (Nat.pos_of_ne_zero hne)
      have hmsel' : k = (t.crule ruleID).bfMsel := hmsel
      omega
    · intro hzero
      have hself : id ∈ users t k :=
        mem_users.mpr ⟨(usableId_iff.mp (h.rows.ids id hid)).1, hid, hmsel.symm⟩
      -- both rules are equal to the one that was made, under the one equal mask
      have heqID : id = ruleID := by
        apply h.single id ruleID hid hplaced.alloc
        obtain ⟨-, hin', heg', hrule'⟩ := sameRule_iff.mp hplaced.rule
        have hslots := hplaced.slot_eq h hzero hslot hvalid hmask
        rw [sameRule_iff]
        exact ⟨hmsel.symm.trans hslots, hin.symm.trans hin', heg.symm.trans heg',
          hrule.symm.trans hrule'⟩
      subst heqID
      exact ⟨rfl, removed_withdrawn h hslot hvalid hself haddr⟩

end Removal

/-! ### Runs -/

/-- A rule is still there after calls that do not ask for its removal. -/
theorem run_placed {t : Tables} (h : TableInv t) {calls : List EntryCall}
    (hpri : ∀ c ∈ calls, c.par.maskPri ≤ minMaskEntry)
    (horderly : AllSteps callStep (fun t c => orderly t c = true) t calls) :
    TableInv (run callStep t calls) ∧ ∀ ruleID m r, Placed t ruleID m r →
      (∀ c ∈ calls, c.names m r = false) → Placed (run callStep t calls) ruleID m r := by
  induction calls generalizing t with
  | nil => exact ⟨h, fun _ _ _ hplaced _ => hplaced⟩
  | cons c calls ih =>
    have hle := hpri c (List.mem_cons_self ..)
    have hinv := (callStep_kept (m := .zero) (r := .zero) h hle horderly.1).1
    obtain ⟨hlast, hrest⟩ := ih hinv (fun c' hc' => hpri c' (List.mem_cons_of_mem _ hc'))
      horderly.2
    refine ⟨hlast, ?_⟩
    intro ruleID m r hplaced hother
    apply hrest
    · apply (callStep_kept h hle horderly.1).2 ruleID hplaced
      exact hother c (List.mem_cons_self ..)
    · intro c' hc'
      exact hother c' (List.mem_cons_of_mem _ hc')

/-- **What is set can be moved.**  After any orderly calls, a parameter block that was
accepted is removed by its parameters, it and nothing else, exactly when it has no
precedence. -/
theorem move_removes_iff (before between : List EntryCall) (par : Parameter)
    (made : Option (MaskEntry × RuleEntry)) (entry : HwTbl)
    (hpri : ∀ c ∈ before ++ .set par made :: between, c.par.maskPri ≤ minMaskEntry)
    (horderly : AllSteps callStep (fun t c => orderly t c = true) dalClsRst
      (before ++ .set par made :: between))
    (hset : (dalClsEntrySet (fun _ => made) (run callStep dalClsRst before) par).2 = .ok entry)
    (hother : ∀ c ∈ between, c.namesRule par made = false) :
    MoveRemoves (run callStep dalClsRst (before ++ .set par made :: between)) par made
      entry.clsHwRuleID ↔ par.maskPri = 0 := by
  obtain ⟨m, r, hmake⟩ : ∃ m r, entriesOf (fun _ => made) par = .ok (m, r) := by
    cases hmake : entriesOf (fun _ => made) par with
    | error e =>
      simp only [dalClsEntrySet, hmake] at hset
      cases hset
    | ok entries => exact ⟨entries.1, entries.2, rfl⟩
  have hother : ∀ c ∈ between, c.names m r = false := by
    simpa only [EntryCall.namesRule, hmake] using hother
  obtain ⟨hbefore, hself, hbetween⟩ := AllSteps.append_iff.mp horderly
  have hinv := (run_placed tableInv_rst (fun c hc => hpri c (by simp [hc])) hbefore).1
  have hle : m.maskPri ≤ minMaskEntry := by
    rw [maskPri_of_entriesOf hmake]
    exact hpri (.set par made) (by simp)
  have hself : orderlyAdd (run callStep dalClsRst before) m r = true := by
    simpa only [orderly, hmake] using hself
  have hadd : callStep (run callStep dalClsRst before) (.set par made) =
      (dalClsTblEntryAdd (run callStep dalClsRst before) m r).1 := by
    simp only [callStep, dalClsEntrySet, hmake]
  obtain ⟨hkept, hplaced⟩ := dalClsTblEntryAdd_kept hinv hle hself
  have hset : (dalClsTblEntryAdd (run callStep dalClsRst before) m r).2 = .ok entry := by
    simpa only [dalClsEntrySet, hmake] using hset
  have hplaced := hplaced entry hset
  rw [← hadd] at hkept hplaced
  obtain ⟨hlast, hstays⟩ := run_placed hkept.inv (fun c hc => hpri c (by simp [hc])) hbetween
  rw [run_append, run_cons]
  exact moveRemoves_iff hlast hmake (hstays _ _ _ hplaced hother)

/-- The block of an ARP rule with a precedence or on some ports. -/
def arpOn (maskPri : Nat) (egressMask ingressMask : Bool) : Parameter :=
  { arpParameter with
    maskPri := maskPri, egressMask := egressMask, ingressMask := ingressMask }

def setOnu (par : Parameter) : EntryCall := .set par (clsMaskRuleMake2Onu par [])
def moveOnu (par : Parameter) : EntryCall := .move par (clsMaskRuleMake2Onu par [])

/-- Rules of equal bytes under different masks fill a row. -/
def fullRow : List EntryCall :=
  [setOnu (arpOn 0 false false), setOnu (arpOn 0 false true), setOnu (arpOn 0 true false),
    setOnu (arpOn 0 true true)]

/-- A rule on the first byte was set before; one of precedence 3 is set, and the first one
removed, so that the mask of the ARP rule moves from slot 9 to slot 8 before it goes. -/
theorem move_removes_arp :
    MoveRemoves (run callStep dalClsRst ([setOnu firstByteParameter] ++ setOnu arpParameter ::
      [setOnu (arpOn 3 false false), moveOnu firstByteParameter])) arpParameter
      (clsMaskRuleMake2Onu arpParameter []) 33 := by
  exact (move_removes_iff [setOnu firstByteParameter]
    [setOnu (arpOn 3 false false), moveOnu firstByteParameter] arpParameter _ ⟨33, 9, 118, 1⟩
    (by decide) (by decide +kernel) (by decide +kernel) (by decide +kernel)).mpr rfl

/-- A rule of precedence 1 is accepted and not found again.  A rule of precedence 8 that is
refused hides the mask of slot 8 from the removal of a rule without precedence. -/
theorem precedence_not_found :
    ¬ MoveRemoves (callStep dalClsRst (setOnu (arpOn 1 false false))) (arpOn 1 false false)
      (clsMaskRuleMake2Onu (arpOn 1 false false) []) 1 ∧
    (dalClsEntrySet (fun _ => clsMaskRuleMake2Onu (arpOn 1 false false) []) dalClsRst
      (arpOn 1 false false)).2.toOption.map HwTbl.clsHwRuleID = some 1 ∧
    (dalClsEntryMove (fun _ => clsMaskRuleMake2Onu (arpOn 1 false false) [])
      (callStep dalClsRst (setOnu (arpOn 1 false false))) (arpOn 1 false false)).2 =
      .error .maskfSelectNull ∧
    (dalClsEntryMove (fun _ => clsMaskRuleMake2Onu (arpOn 0 false false) [])
      (run callStep dalClsRst (fullRow ++ [setOnu (arpOn 8 false false)]))
      (arpOn 0 false false)).2 = .error .maskfSelectNull := by
  have hmove : (dalClsEntryMove (fun _ => clsMaskRuleMake2Onu (arpOn 1 false false) [])
      (callStep dalClsRst (setOnu (arpOn 1 false false))) (arpOn 1 false false)).2 =
      .error .maskfSelectNull := by decide +kernel
  refine ⟨?_, ?_, hmove, ?_⟩
  · rintro ⟨hok, -⟩
    rw [hmove] at hok
    cases hok
  · decide +kernel
  · decide +kernel

end Opconn.Classify
