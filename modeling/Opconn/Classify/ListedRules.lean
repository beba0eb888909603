import Mathlib.Data.List.Perm.Basic
import Opconn.Classify.AclOrder
import Opconn.Classify.ItemInvariant

/-!
# The list and the tables

`Listed` joins the list to the records: every rule of the list has a record, a rule of
precedence `p` sits in mask slot `p - 1`, and what is not in the list shares the slots
behind.  It says nothing about the order of the list, so that it holds between the steps of
a walk too; each step of the list functions keeps it, and then the walks do.
-/

namespace Opconn.Classify

/-! ### Adding a record -/

/-- A rule gets as far as the tables: there is a free record, its priority and queue are
known, and no record has the same rule. -/
def passesChecks (fields : Bool) (d : Cls) (stClassCfg : ClsConfigInfo) : Bool :=
  (firstEmptyRuleId d).isSome && mapsValid stClassCfg &&
    !isDuplicate fields d (convertBlock stClassCfg)

theorem firstEmptyRuleId_spec {d : Cls} {idx : Nat} (h : firstEmptyRuleId d = some idx) :
    idx < maxItem ∧ (d.items idx).valid = false := by
  have hmem := List.mem_of_find?_eq_some h
  have hfound := List.find?_some h
  exact ⟨List.mem_range.mp hmem, by simpa using hfound⟩

theorem isDuplicate_setItem {fields : Bool} {d : Cls} {idx : Nat} {item : ClassifyItem}
    (hidx : (d.items idx).valid = false) (hitem : item.valid = false) (par : Parameter) :
    isDuplicate fields (setItem d idx item) par = isDuplicate fields d par := by
  have hsame : (fun i => ((setItem d idx item).items i).valid &&
      sameItem fields par ((setItem d idx item).items i).parameter) =
      fun i => (d.items i).valid && sameItem fields par (d.items i).parameter := by
    funext i
    by_cases hi : i = idx
    · rw [hi, show (setItem d idx item).items idx = item from Function.update_self .., hitem,
        hidx]
      rfl
    · rw [show (setItem d idx item).items i = d.items i from Function.update_of_ne hi _ _]
  simp only [isDuplicate, hsame]

section Added

variable {fields : Bool} {d : Cls} {stClassCfg : ClsConfigInfo}

/-- A rule that does not pass the checks leaves at most an unused record behind. -/
theorem ctcAddWith_refused (make : Parameter → Option (MaskEntry × RuleEntry))
    (h : passesChecks fields d stClassCfg = false) :
    ∃ st, st ≠ noError ∧ (ctcAddWith make fields d stClassCfg = ⟨d, st, none, none⟩ ∨
      ∃ idx item, (d.items idx).valid = false ∧ item.valid = false ∧ item.classifyRuleID = 0 ∧
        ctcAddWith make fields d stClassCfg = ⟨setItem d idx item, st, none, none⟩) := by
  simp only [ctcAddWith]
  cases hidx : firstEmptyRuleId d with
  | none => exact ⟨-1, by decide, .inl rfl⟩
  | some idx =>
    have hinvalid := (firstEmptyRuleId_spec hidx).2
    by_cases hmaps : mapsValid stClassCfg = true
    · have hdup : isDuplicate fields d (convertBlock stClassCfg) = true := by
        simpa [passesChecks, hidx, hmaps] using h
      have hdup' : isDuplicate fields (setItem d idx { ClassifyItem.zero with
          parameter := convertBlock stClassCfg }) (convertBlock stClassCfg) = true := by
        rw [isDuplicate_setItem hinvalid rfl]
        exact hdup
      refine ⟨-1, by decide, .inr ⟨idx, { ClassifyItem.zero with
        parameter := convertBlock stClassCfg }, hinvalid, rfl, rfl, ?_⟩⟩
      simp [dalClsConvertPara, hmaps, hdup']
    · refine ⟨-2, by decide, .inr ⟨idx, { ClassifyItem.zero with
        parameter := convertBlock (upToQueue stClassCfg) }, hinvalid, rfl, rfl, ?_⟩⟩
      simp [dalClsConvertPara, hmaps]

theorem setItem_setItem (d : Cls) (t : Tables) (i : Nat) (a b : ClassifyItem) :
    setItem { setItem d i a with tables := t } i b = setItem ⟨t, d.items⟩ i b := by
  simp [setItem]

/-- A rule that passes the checks is up to the tables. -/
theorem ctcAddWith_passed (make : Parameter → Option (MaskEntry × RuleEntry))
    (h : passesChecks fields d stClassCfg = true) :
    ∃ idx, idx < maxItem ∧ (d.items idx).valid = false ∧
      (∀ t e, dalClsEntrySet make d.tables (convertBlock stClassCfg) = (t, .error e) →
        ctcAddWith make fields d stClassCfg =
          ⟨setItem ⟨t, d.items⟩ idx .zero, e.status, some idx, none⟩) ∧
      ∀ t hw, dalClsEntrySet make d.tables (convertBlock stClassCfg) = (t, .ok hw) →
        ctcAddWith make fields d stClassCfg =
          ⟨setItem ⟨t, d.items⟩ idx ⟨convertBlock stClassCfg, hw.clsHwRuleID, hw, true⟩,
            noError, some idx, some hw⟩ := by
  simp only [passesChecks, Bool.and_eq_true, Bool.not_eq_true'] at h
  obtain ⟨⟨hsome, hmaps⟩, hdup⟩ := h
  obtain ⟨idx, hidx⟩ := Option.isSome_iff_exists.mp hsome
  obtain ⟨hmax, hinvalid⟩ := firstEmptyRuleId_spec hidx
  have hdup' : isDuplicate fields (setItem d idx { ClassifyItem.zero with
      parameter := convertBlock stClassCfg }) (convertBlock stClassCfg) = false := by
    rw [isDuplicate_setItem hinvalid rfl]
    exact hdup
  have htables : ∀ item, (setItem d idx item).tables = d.tables := fun _ => rfl
  refine ⟨idx, hmax, hinvalid, ?_, ?_⟩
  · intro t e heq
    simp [ctcAddWith, hidx, dalClsConvertPara, hmaps, hdup', htables, heq, setItem_setItem]
  · intro t hw heq
    simp [ctcAddWith, hidx, dalClsConvertPara, hmaps, hdup', htables, heq, setItem_setItem]

end Added

section Entries

variable (make : Parameter → Option (MaskEntry × RuleEntry)) {t : Tables}

/-- What is known of an id and a place that were found free. -/
structure FreeFor (t : Tables) (r : RuleEntry) (k ruleID : Nat) : Prop where
  new : t.mallocFlag ruleID = false
  usable : usableId ruleID = true
  place : t.caddr (clsAddrCal r) (ruleID / entrysPerGroup) = 0
  sel : clsRuleIDSel t { r with bfMsel := k } (clsAddrCal r) = none

/-- The tables take an entry in the slot that was chosen, or give the slot back. -/
theorem dalClsTblEntryAdd_taken (h : RowInv t) {m : MaskEntry} (r : RuleEntry) {k : Nat}
    (htake : takeMask t m = (referenced t k, .ok k)) (hk : k < maxMaskEntry) :
    (∃ e, dalClsTblEntryAdd t m r = ((clsMaskFree (referenced t k) k).1, .error e)) ∨
    ∃ ruleID, FreeFor t r k ruleID ∧ dalClsTblEntryAdd t m r =
      (installed t k m { r with bfMsel := k } ruleID,
        .ok ⟨ruleID, k, clsAddrCal r, ruleID / entrysPerGroup⟩) := by
  rcases dalClsTblEntryAdd_spec h r htake rfl hk with
    ⟨e, heq, -⟩ | ⟨ruleID, heq, hnew, husable, hfree, hsel⟩
  · exact .inl ⟨e, heq⟩
  · exact .inr ⟨ruleID, ⟨hnew, husable, hfree, hsel⟩, heq⟩

/-- A rule with precedence. -/
theorem dalClsEntrySet_low (h : RowInv t) (par : Parameter) (hpos : 0 < par.maskPri)
    (hp : par.maskPri ≤ aclMaxPri) :
    (∃ e, entriesOf make par = .error e ∧ dalClsEntrySet make t par = (t, .error e)) ∨
    (∃ m r e, entriesOf make par = .ok (m, r) ∧ dalClsEntrySet make t par =
      ((clsMaskFree (referenced t (par.maskPri - 1)) (par.maskPri - 1)).1, .error e)) ∨
    ∃ m r ruleID, entriesOf make par = .ok (m, r) ∧ FreeFor t r (par.maskPri - 1) ruleID ∧
      dalClsEntrySet make t par =
        (installed t (par.maskPri - 1) m { r with bfMsel := par.maskPri - 1 } ruleID,
          .ok ⟨ruleID, par.maskPri - 1, clsAddrCal r, ruleID / entrysPerGroup⟩) := by
  rw [dalClsEntrySet]
  cases hmake : entriesOf make par with
  | error e => exact .inl ⟨e, rfl, rfl⟩
  | ok entry =>
    obtain ⟨m, r⟩ := entry
    have hpri := maskPri_of_entriesOf hmake
    have htake : takeMask t m = (referenced t (par.maskPri - 1), .ok (par.maskPri - 1)) := by
      rw [takeMask, if_neg (by omega), hpri]
      rfl
    have hk : par.maskPri - 1 < maxMaskEntry := by
      simp only [aclMaxPri, maxMaskEntry] at hp ⊢
      omega
    rcases dalClsTblEntryAdd_taken h r htake hk with ⟨e, heq⟩ | ⟨ruleID, hfree, heq⟩
    · exact .inr (.inl ⟨m, r, e, rfl, heq⟩)
    · exact .inr (.inr ⟨m, r, ruleID, rfl, hfree, heq⟩)

/-- A rule without precedence. -/
theorem dalClsEntrySet_shared (h : RowInv t) (hmasks : SharedMasks t) (par : Parameter)
    (hzero : par.maskPri = 0) :
    (∃ e, dalClsEntrySet make t par = (t, .error e)) ∨
    (∃ m k e, Takes t m k ∧ dalClsEntrySet make t par =
      ((clsMaskFree (referenced t k) k).1, .error e)) ∨
    ∃ m r k ruleID, entriesOf make par = .ok (m, r) ∧ Takes t m k ∧ FreeFor t r k ruleID ∧
      dalClsEntrySet make t par = (installed t k m { r with bfMsel := k } ruleID,
        .ok ⟨ruleID, k, clsAddrCal r, ruleID / entrysPerGroup⟩) := by
  rw [dalClsEntrySet]
  cases hmake : entriesOf make par with
  | error e => exact .inl ⟨e, rfl⟩
  | ok entry =>
    obtain ⟨m, r⟩ := entry
    have hpri : m.maskPri = 0 := (maskPri_of_entriesOf hmake).trans hzero
    rcases takeMask_spec hmasks hpri with hfull | ⟨k, htakes, htake⟩
    · refine .inl ⟨.maskTableFull, ?_⟩
      simp only [dalClsTblEntryAdd, hfull]
    · have hk := (mem_sharedSlots.mp htakes.slot).2
      rcases dalClsTblEntryAdd_taken h r htake hk with ⟨e, heq⟩ | ⟨ruleID, hfree, heq⟩
      · exact .inr (.inl ⟨m, k, e, htakes, heq⟩)
      · exact .inr (.inr ⟨m, r, k, ruleID, rfl, htakes, hfree, heq⟩)

theorem SharedMasks.installedLow (h : SharedMasks t) {m : MaskEntry} {r : RuleEntry}
    {k ruleID : Nat} (hk : k < minMaskEntry) (hmsel : r.bfMsel = k)
    (hnew : t.mallocFlag ruleID = false) (husable : usableId ruleID = true) :
    SharedMasks (Classify.installed t k m r ruleID) := by
  have hne : ∀ i ∈ sharedSlots, i ≠ k := by
    intro i hi
    have := (mem_sharedSlots.mp hi).1
    omega
  apply h.of_same
  · intro i hi
    exact Function.update_of_ne (hne i hi) _ _
  · intro i hi
    rw [users_installed hnew husable, hmsel, if_neg (hne i hi)]
  · intro id hid
    have hself : (Classify.installed t k m r ruleID).cmask k =
        { m with bfValid := true, referenceCount := (t.cmask k).referenceCount + 1 } :=
      Function.update_self ..
    by_cases heq : id = ruleID
    · have hrule : ((Classify.installed t k m r ruleID).crule id).bfMsel = k := by
        simp [Classify.installed, heq, hmsel]
      rw [hrule, hself]
      exact ⟨Nat.lt_trans hk (by decide), rfl⟩
    · have hrule : (Classify.installed t k m r ruleID).crule id = t.crule id := by
        simp [Classify.installed, heq]
      have hold : t.mallocFlag id = true := by simpa [Classify.installed, heq] using hid
      obtain ⟨hlt, hvalid⟩ := h.sel id hold
      rw [hrule]
      refine ⟨hlt, ?_⟩
      by_cases hsel : (t.crule id).bfMsel = k
      · rw [hsel, hself]
      · rw [show (Classify.installed t k m r ruleID).cmask (t.crule id).bfMsel =
          t.cmask (t.crule id).bfMsel from Function.update_of_ne hsel _ _]
        exact hvalid

end Entries

/-! ### Rules of the list -/

section Lists

variable (make : Parameter → Option (MaskEntry × RuleEntry))

structure Listed (L : List AclRule) (d : Cls) : Prop where
  hw : HwInv make d
  rules : ∀ r ∈ L, (d.items r.dalindex).valid = true ∧
    (d.items r.dalindex).parameter = convertBlock r.stClassCfg ∧
    (r.rulepri = 0 → minMaskEntry ≤ maskOf d r.dalindex) ∧
    (0 < r.rulepri → maskOf d r.dalindex = r.rulepri - 1)
  shadow : ∀ r ∈ L, 0 < r.rulepri → r.hwshadow.clsHwMaskID = r.rulepri - 1
  bound : ∀ r ∈ L, r.rulepri ≤ aclMaxPri
  inj : (L.map fun r => r.dalindex).Nodup
  others : ∀ i, (d.items i).valid = true → (∀ r ∈ L, r.dalindex ≠ i) →
    minMaskEntry ≤ maskOf d i

variable {make} {L L' : List AclRule} {d : Cls}

theorem listed_init : Listed make [] clsInit where
  hw := hwInv_init
  rules := by simp
  shadow := by simp
  bound := by simp
  inj := List.nodup_nil
  others := fun _ h => by cases h

theorem Listed.perm (h : Listed make L d) (hperm : L.Perm L') : Listed make L' d where
  hw := h.hw
  rules := fun r hr => h.rules r (hperm.mem_iff.mpr hr)
  shadow := fun r hr => h.shadow r (hperm.mem_iff.mpr hr)
  bound := fun r hr => h.bound r (hperm.mem_iff.mpr hr)
  inj := (hperm.map _).nodup_iff.mp h.inj
  others := fun i hi hno => h.others i hi fun r hr => hno r (hperm.mem_iff.mp hr)

/-- A slot below the shared ones is free when no rule of the list has its precedence. -/
theorem Listed.slot_free (h : Listed make L d) {b : Nat} (hb : b < minMaskEntry)
    (hno : ∀ r ∈ L, r.rulepri ≠ b + 1) {j : Nat} (hj : (d.items j).valid = true) :
    maskOf d j ≠ b := by
  by_cases hlisted : ∃ r ∈ L, r.dalindex = j
  · obtain ⟨r, hr, rfl⟩ := hlisted
    obtain ⟨-, -, hzero, hpos⟩ := h.rules r hr
    have hne := hno r hr
    by_cases hr0 : r.rulepri = 0
    · have := hzero hr0
      omega
    · have := hpos (by omega)
      omega
  · have := h.others j hj fun r hr heq => hlisted ⟨r, hr, heq⟩
    omega

/-- A rule of the list moves to a precedence that no rule has. -/
theorem Listed.move {r : AclRule} (h : Listed make (r :: L) d) (r' : AclRule)
    (hpos : 0 < r.rulepri) {b : Nat} (hb : b < minMaskEntry) (hno : ∀ s ∈ r :: L, s.rulepri ≠ b + 1)
    (hidx : r'.dalindex = r.dalindex) (hcfg : r'.stClassCfg = r.stClassCfg)
    (hpri : r'.rulepri = b + 1) (hshadow : r'.hwshadow.clsHwMaskID = b) :
    Listed make (r' :: L) (changed d r.dalindex b) := by
  obtain ⟨hvalid, hpar, -, hmask⟩ := h.rules r (List.mem_cons_self ..)
  have hle := h.bound r (List.mem_cons_self ..)
  have hmask := hmask hpos
  obtain ⟨hnot, hinj⟩ := List.nodup_cons.mp h.inj
  have hne : ∀ s ∈ L, s.dalindex ≠ r.dalindex := fun s hs heq =>
    hnot (List.mem_map.mpr ⟨s, hs, heq⟩)
  constructor
  · refine h.hw.changed hvalid ?_ hb fun j hj => h.slot_free hb hno hj
    rw [hmask]
    simp only [aclMaxPri, minMaskEntry] at hle ⊢
    omega
  · intro s hs
    rcases List.mem_cons.mp hs with rfl | hs
    · rw [valid_changed, maskOf_changed, items_changed, hidx, if_pos rfl, if_pos rfl, hcfg]
      refine ⟨hvalid, hpar, ?_, ?_⟩
      · intro hzero
        omega
      · intro _
        omega
    · rw [valid_changed, maskOf_changed, items_changed, if_neg (hne s hs), if_neg (hne s hs)]
      exact h.rules s (List.mem_cons_of_mem _ hs)
  · intro s hs
    rcases List.mem_cons.mp hs with rfl | hs
    · intro _
      omega
    · exact h.shadow s (List.mem_cons_of_mem _ hs)
  · intro s hs
    rcases List.mem_cons.mp hs with rfl | hs
    · rw [hpri]
      exact hb
    · exact h.bound s (List.mem_cons_of_mem _ hs)
  · rw [List.map_cons, hidx]
    exact h.inj
  · intro j hj hnone
    rw [valid_changed] at hj
    have hjr : j ≠ r.dalindex := by
      rw [← hidx]
      exact Ne.symm (hnone r' (List.mem_cons_self ..))
    rw [maskOf_changed, if_neg hjr]
    refine h.others j hj ?_
    intro s hs
    rcases List.mem_cons.mp hs with rfl | hs
    · exact Ne.symm hjr
    · exact hnone s (List.mem_cons_of_mem _ hs)

/-- A rule of the list goes that has its mask to itself. -/
theorem Listed.drop {r : AclRule} (h : Listed make (r :: L) d)
    (hone : r.rulepri = 0 → (d.tables.cmask (maskOf d r.dalindex)).referenceCount = 1) :
    Listed make L (dalOnuClsRuleCtcDel d r.dalindex) := by
  obtain ⟨hvalid, -, -, hmask⟩ := h.rules r (List.mem_cons_self ..)
  have hle := h.bound r (List.mem_cons_self ..)
  obtain ⟨hnot, hinj⟩ := List.nodup_cons.mp h.inj
  have hne : ∀ s ∈ L, s.dalindex ≠ r.dalindex := fun s hs heq =>
    hnot (List.mem_map.mpr ⟨s, hs, heq⟩)
  have hitem : ∀ j, j ≠ r.dalindex →
      (dalOnuClsRuleCtcDel d r.dalindex).items j = d.items j :=
    fun j hj => Function.update_of_ne hj _ _
  constructor
  · refine h.hw.removed hvalid fun j hj heq => h.hw.sole_of_count hvalid ?_ hj heq
    intro hshared
    apply hone
    by_contra hpos
    have := hmask (by omega)
    simp only [aclMaxPri, minMaskEntry] at hle hshared
    omega
  · intro s hs
    rw [maskOf, hitem _ (hne s hs)]
    exact h.rules s (List.mem_cons_of_mem _ hs)
  · intro s hs
    exact h.shadow s (List.mem_cons_of_mem _ hs)
  · intro s hs
    exact h.bound s (List.mem_cons_of_mem _ hs)
  · exact hinj
  · intro j hj hnone
    have hjr : j ≠ r.dalindex := by
      rintro rfl
      rw [show (dalOnuClsRuleCtcDel d r.dalindex).items r.dalindex = .zero from
        Function.update_self ..] at hj
      cases hj
    rw [hitem j hjr] at hj
    rw [maskOf, hitem j hjr]
    refine h.others j hj ?_
    intro s hs
    rcases List.mem_cons.mp hs with rfl | hs
    · exact Ne.symm hjr
    · exact hnone s hs

/-- An unused record changes. -/
theorem Listed.setBlank (h : Listed make L d) {i : Nat} (hi : (d.items i).valid = false)
    {item : ClassifyItem} (hvalid : item.valid = false) (hid : item.classifyRuleID = 0) :
    Listed make L (setItem d i item) := by
  have hne : ∀ j, (d.items j).valid = true → j ≠ i := by
    rintro j hj rfl
    rw [hi] at hj
    cases hj
  have hitem : ∀ j, j ≠ i → (setItem d i item).items j = d.items j :=
    fun j hj => Function.update_of_ne hj _ _
  constructor
  · exact h.hw.setBlank hi hvalid hid
  · intro r hr
    obtain ⟨hv, hrest⟩ := h.rules r hr
    rw [maskOf, hitem _ (hne _ hv)]
    exact ⟨hv, hrest⟩
  · exact h.shadow
  · exact h.bound
  · exact h.inj
  · intro j hj hnone
    have hji : j ≠ i := by
      rintro rfl
      rw [show (setItem d j item).items j = item from Function.update_self .., hvalid] at hj
      cases hj
    rw [hitem j hji] at hj
    rw [maskOf, hitem j hji]
    exact h.others j hj hnone

/-- A record goes that is not one of the list. -/
theorem Listed.forget (h : Listed make L d) {i : Nat} (hno : ∀ r ∈ L, r.dalindex ≠ i)
    {t : Tables} (hhw : HwInv make (setItem ⟨t, d.items⟩ i .zero)) :
    Listed make L (setItem ⟨t, d.items⟩ i .zero) := by
  have hitem : ∀ j, j ≠ i → (setItem ⟨t, d.items⟩ i .zero).items j = d.items j :=
    fun j hj => Function.update_of_ne hj _ _
  constructor
  · exact hhw
  · intro r hr
    rw [maskOf, hitem _ (hno r hr)]
    exact h.rules r hr
  · exact h.shadow
  · exact h.bound
  · exact h.inj
  · intro j hj hnone
    have hji : j ≠ i := by
      rintro rfl
      rw [show (setItem ⟨t, d.items⟩ j .zero).items j = .zero from Function.update_self ..] at hj
      cases hj
    rw [hitem j hji] at hj
    rw [maskOf, hitem j hji]
    exact h.others j hj hnone

section Insert

variable {idx : Nat} {par : Parameter} {m : MaskEntry} {re : RuleEntry} {k ruleID : Nat}

theorem items_withRule (j : Nat) : (withRule d idx par m re k ruleID).items j =
    if j = idx then itemFor par re k ruleID else d.items j :=
  Function.update_apply ..

/-- A dynamic rule. -/
theorem Listed.withRule (h : Listed make L d) (hidx : (d.items idx).valid = false)
    (hhw : HwInv make (withRule d idx par m re k ruleID)) (hk : minMaskEntry ≤ k) :
    Listed make L (withRule d idx par m re k ruleID) := by
  have hne : ∀ j, (d.items j).valid = true → j ≠ idx := by
    rintro j hj rfl
    rw [hidx] at hj
    cases hj
  constructor
  · exact hhw
  · intro r hr
    obtain ⟨hv, hrest⟩ := h.rules r hr
    rw [maskOf, items_withRule, if_neg (hne _ hv)]
    exact ⟨hv, hrest⟩
  · exact h.shadow
  · exact h.bound
  · exact h.inj
  · intro j hj hnone
    rw [items_withRule] at hj
    rw [maskOf, items_withRule]
    split at hj
    · next hji =>
      rw [if_pos hji]
      exact hk
    · next hji =>
      rw [if_neg hji]
      exact h.others j hj hnone

/-- A rule of the list. -/
theorem Listed.insert (h : Listed make L d) (hidx : (d.items idx).valid = false) (new : AclRule)
    (hhw : HwInv make (Classify.withRule d idx (convertBlock new.stClassCfg) m re k ruleID))
    (hnew : new.dalindex = idx) (hle : new.rulepri ≤ aclMaxPri)
    (hzero : new.rulepri = 0 → minMaskEntry ≤ k) (hpos : 0 < new.rulepri → k = new.rulepri - 1)
    (hshadow : new.hwshadow.clsHwMaskID = k) :
    Listed make (new :: L)
      (Classify.withRule d idx (convertBlock new.stClassCfg) m re k ruleID) := by
  have hne : ∀ j, (d.items j).valid = true → j ≠ idx := by
    rintro j hj rfl
    rw [hidx] at hj
    cases hj
  constructor
  · exact hhw
  · intro r hr
    rcases List.mem_cons.mp hr with rfl | hr
    · rw [maskOf, items_withRule, if_pos hnew]
      exact ⟨rfl, rfl, hzero, hpos⟩
    · obtain ⟨hv, hrest⟩ := h.rules r hr
      rw [maskOf, items_withRule, if_neg (hne _ hv)]
      exact ⟨hv, hrest⟩
  · intro r hr
    rcases List.mem_cons.mp hr with rfl | hr
    · intro hrpos
      rw [hshadow]
      exact hpos hrpos
    · exact h.shadow r hr
  · intro r hr
    rcases List.mem_cons.mp hr with rfl | hr
    · exact hle
    · exact h.bound r hr
  · rw [List.map_cons, List.nodup_cons]
    refine ⟨?_, h.inj⟩
    intro hmem
    obtain ⟨r, hr, heq⟩ := List.mem_map.mp hmem
    exact hne _ (h.rules r hr).1 (heq.trans hnew)
  · intro j hj hnone
    have hji : j ≠ idx := by
      rw [← hnew]
      exact Ne.symm (hnone new (List.mem_cons_self ..))
    rw [items_withRule, if_neg hji] at hj
    rw [maskOf, items_withRule, if_neg hji]
    exact h.others j hj fun r hr => hnone r (List.mem_cons_of_mem _ hr)

end Insert

/-! ### Walks -/

/-- The walk of an add at a taken precedence, from the end of the list: the rules behind
were raised already, so the next slot is free. -/
theorem Listed.foldr_raise {lo hi behind : List AclRule} {w : Walk Cls}
    (h : Listed make (lo ++ (hi ++ behind)) w.dal) (horder : hi.Pairwise AclLt)
    (hpos : ∀ r ∈ hi, 0 < r.rulepri) (hmax : ∀ r ∈ hi, r.rulepri < aclMaxPri)
    (hlo : ∀ a ∈ lo, ∀ r ∈ hi, a.rulepri < r.rulepri)
    (hbehind : ∀ r ∈ hi, ∀ b ∈ behind, r.rulepri + 1 < b.rulepri) :
    Listed make (lo ++ (hi.map raised ++ behind)) (hi.foldr (raise (clsDal make)) w).dal := by
  induction hi using List.reverseRecOn generalizing behind w with
  | nil => exact h
  | append_singleton hi tmp ih =>
    obtain ⟨hinit, -, hlast⟩ := List.pairwise_append.mp horder
    have htmp := hpos tmp (by simp)
    have htmax := hmax tmp (by simp)
    have hbelow : ∀ r ∈ hi, r.rulepri < tmp.rulepri := fun r hr =>
      (hlast r hr tmp (by simp)).lt htmp
    have hfront : (lo ++ (hi ++ [tmp] ++ behind)).Perm (tmp :: (lo ++ (hi ++ behind))) := by
      rw [List.append_assoc, List.singleton_append, ← List.append_assoc, ← List.append_assoc]
      exact List.perm_middle
    have hback : (raised tmp :: (lo ++ (hi ++ behind))).Perm
        (lo ++ (hi ++ raised tmp :: behind)) := by
      rw [← List.append_assoc, ← List.append_assoc]
      exact List.perm_middle.symm
    have hmoved := (h.perm hfront).move (raised tmp) htmp (b := tmp.rulepri) htmax
      (by
        intro s hs
        simp only [List.mem_cons, List.mem_append] at hs
        rcases hs with rfl | hs | hs | hs
        · omega
        · have := hlo s hs tmp (by simp)
          omega
        · have := hbelow s hs
          omega
        · have := hbehind tmp (by simp) s hs
          omega) rfl rfl rfl rfl
    rw [List.foldr_append, List.map_append, List.append_assoc]
    refine ih (hmoved.perm hback) hinit ?_ ?_ ?_ ?_
    · intro r hr
      exact hpos r (by simp [hr])
    · intro r hr
      exact hmax r (by simp [hr])
    · intro a ha r hr
      exact hlo a ha r (by simp [hr])
    · intro r hr b hb
      rcases List.mem_cons.mp hb with rfl | hb
      · have := hbelow r hr
        show r.rulepri + 1 < tmp.rulepri + 1
        omega
      · exact hbehind r (by simp [hr]) b hb

/-- The renumbering of a removal, from the front: the rules in front were lowered already. -/
theorem Listed.foldl_lower {front later : List AclRule} (h : Listed make (front ++ later) d)
    (horder : later.Pairwise AclLt) (htwo : ∀ r ∈ later, 0 < r.rulepri → 2 ≤ r.rulepri)
    (hgap : ∀ a ∈ front, ∀ r ∈ later, 0 < r.rulepri → a.rulepri + 1 < r.rulepri) :
    Listed make (front ++ later.map lowered) (later.foldl (lower (clsDal make)) d) := by
  induction later generalizing front d with
  | nil => exact h
  | cons r later ih =>
    obtain ⟨hr, hlater⟩ := List.pairwise_cons.mp horder
    rw [List.foldl_cons, List.map_cons]
    have hstep : Listed make (front ++ lowered r :: later) (lower (clsDal make) d r) := by
      by_cases hpos : 0 < r.rulepri
      · have h2 := htwo r (List.mem_cons_self ..) hpos
        have hle := h.bound r (by simp)
        have hb : decr16 (r.rulepri - 1) = r.rulepri - 2 := by
          simp only [aclMaxPri] at hle
          rw [decr16]
          omega
        rw [lower, if_pos hpos, hb]
        refine ((h.perm List.perm_middle).move (lowered r) hpos (b := r.rulepri - 2)
          ?_ ?_ ?_ ?_ ?_ ?_).perm List.perm_middle.symm
        · simp only [aclMaxPri, minMaskEntry] at hle ⊢
          omega
        · intro s hs
          simp only [List.mem_cons, List.mem_append] at hs
          rcases hs with rfl | hs | hs
          · omega
          · have := hgap s hs r (List.mem_cons_self ..) hpos
            omega
          · have := (hr s hs).le
            omega
        · rw [lowered, if_pos hpos]
        · rw [lowered, if_pos hpos]
        · rw [rulepri_lowered]
          omega
        · rw [lowered, if_pos hpos]
          exact hb
      · rw [lower, if_neg hpos, lowered, if_neg hpos]
        exact h
    have hassoc : front ++ lowered r :: later = (front ++ [lowered r]) ++ later := by simp
    have hassoc' : front ++ lowered r :: later.map lowered =
        (front ++ [lowered r]) ++ later.map lowered := by simp
    rw [hassoc] at hstep
    rw [hassoc']
    refine ih hstep hlater ?_ ?_
    · intro s hs
      exact htwo s (List.mem_cons_of_mem _ hs)
    · intro a ha s hs hspos
      rcases List.mem_append.mp ha with ha | ha
      · exact hgap a ha s (List.mem_cons_of_mem _ hs) hspos
      · rw [List.mem_singleton.mp ha, rulepri_lowered]
        have hlt := (hr s hs).lt hspos
        have h2 := htwo s (List.mem_cons_of_mem _ hs) hspos
        omega

end Lists

end Opconn.Classify
