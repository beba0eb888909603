import Opconn.Classify.RuleSafety

/-!
# Undoing an add

When the layer below refuses a rule, `OdmAclListAdd` takes the rule out again with
`OdmAclListDel`.  The removal moves the rules behind up, which is the inverse of what the
add did only when the add moved them down: when the precedence was taken and no rule was
dropped, or when there is nothing behind.  A rule that got as far as the tables has been
given a record, already cleared, and the removal goes by the zeros in its shadow.
-/

namespace Opconn.Classify

open Runs

/-! ### States that agree -/

/-- The same tables and records, as far as installed rules go. -/
structure SameRules (d d' : Cls) : Prop where
  cmask : d'.tables.cmask = d.tables.cmask
  crule : ∀ id, d.tables.mallocFlag id = true → d'.tables.crule id = d.tables.crule id
  caddr : d'.tables.caddr = d.tables.caddr
  alloc : d'.tables.mallocFlag = d.tables.mallocFlag
  items : ∀ i, (d.items i).valid = true → d'.items i = d.items i

theorem SameRules.refl (d : Cls) : SameRules d d :=
  ⟨rfl, fun _ _ => rfl, rfl, rfl, fun _ _ => rfl⟩

theorem sameRules_setItem {d : Cls} {i : Nat} (hi : (d.items i).valid = false)
    (item : ClassifyItem) : SameRules d (setItem d i item) where
  cmask := rfl
  crule := fun _ _ => rfl
  caddr := rfl
  alloc := rfl
  items := by
    intro j hj
    refine Function.update_of_ne ?_ _ _
    rintro rfl
    rw [hi] at hj
    cases hj

/-- Moving an installed rule keeps states in agreement. -/
theorem SameRules.changed {d d' : Cls} (h : SameRules d d') {i : Nat}
    (hi : (d.items i).valid = true) (hlive : d.tables.mallocFlag (ruleOf d i) = true) (b : Nat) :
    SameRules (changed d i b) (changed d' i b) := by
  have hitem := h.items i hi
  constructor
  · show Function.update (Function.update d'.tables.cmask b (d'.tables.cmask (maskOf d' i)))
      (maskOf d' i) .zero = _
    simp only [maskOf, hitem, h.cmask]
    rfl
  · intro id hid
    show Function.update d'.tables.crule (ruleOf d' i)
      { d'.tables.crule (ruleOf d' i) with bfMsel := b % 32 } id =
      Function.update d.tables.crule (ruleOf d i)
        { d.tables.crule (ruleOf d i) with bfMsel := b % 32 } id
    rw [show ruleOf d' i = ruleOf d i by rw [ruleOf, hitem], h.crule _ hlive]
    by_cases hidr : id = ruleOf d i
    · rw [hidr, Function.update_self, Function.update_self]
    · rw [Function.update_of_ne hidr, Function.update_of_ne hidr, h.crule id hid]
  · exact h.caddr
  · exact h.alloc
  · intro j hj
    rw [valid_changed] at hj
    rw [items_changed, items_changed, hitem, h.items j hj]

section Rollback

variable {make : Parameter → Option (MaskEntry × RuleEntry)}

theorem SameRules.foldl_lower {later : List AclRule} {d d' : Cls} (h : SameRules d d')
    (hlive : ∀ r ∈ later, (d.items r.dalindex).valid = true ∧
      d.tables.mallocFlag (ruleOf d r.dalindex) = true) :
    SameRules (later.foldl (lower (clsDal make)) d) (later.foldl (lower (clsDal make)) d') := by
  induction later generalizing d d' with
  | nil => exact h
  | cons r later ih =>
    obtain ⟨hv, hl⟩ := hlive r (List.mem_cons_self ..)
    rw [List.foldl_cons, List.foldl_cons, lower, lower]
    split
    · refine ih (h.changed hv hl _) ?_
      intro r' hr'
      show ((Classify.changed d r.dalindex _).items r'.dalindex).valid = true ∧
        d.tables.mallocFlag (ruleOf (Classify.changed d r.dalindex _) r'.dalindex) = true
      rw [valid_changed, ruleOf_changed]
      exact hlive r' (List.mem_cons_of_mem _ hr')
    · exact ih h fun r' hr' => hlive r' (List.mem_cons_of_mem _ hr')

/-! ### There and back -/

/-- A rule that moves to a free slot and back leaves no trace. -/
theorem changed_changed {d : Cls} {i a b : Nat} (ha : maskOf d i = a) (hne : a ≠ b)
    (hfree : d.tables.cmask b = .zero) (hsel : (d.tables.crule (ruleOf d i)).bfMsel = a)
    (ha32 : a < 32) (hb32 : b < 32) : changed (changed d i b) i a = d := by
  have hmask : maskOf (changed d i b) i = b := by rw [maskOf_changed, if_pos rfl]
  have hback : maskOf (changed d i b) i ≠ a := by
    rw [hmask]
    exact Ne.symm hne
  apply Cls.ext
  · refine Tables.ext ?_ ?_ rfl rfl rfl rfl
    · funext q
      rw [cmask_changed hback, hmask, cmask_changed (by rw [ha]; exact hne), if_pos rfl, ha,
        cmask_changed (by rw [ha]; exact hne), ha]
      by_cases hqa : q = a
      · rw [if_pos hqa, hqa]
      · rw [if_neg hqa]
        by_cases hqb : q = b
        · rw [if_pos hqb, hqb, hfree]
        · rw [if_neg hqb, if_neg hqb, if_neg hqa]
    · funext id
      rw [crule_changed ha32, ruleOf_changed, crule_changed hb32]
      by_cases hid : id = ruleOf d i
      · rw [if_pos hid, if_pos hid, hid]
        conv_rhs => rw [show d.tables.crule (ruleOf d i) =
          { d.tables.crule (ruleOf d i) with bfMsel := a } by rw [← hsel]]
      · rw [if_neg hid, if_neg hid]
  · funext j
    rw [items_changed, items_changed, items_changed, if_pos rfl]
    by_cases hji : j = i
    · rw [if_pos hji, hji]
      conv_rhs => rw [show d.items i = { d.items i with shadowtbl :=
        { (d.items i).shadowtbl with clsHwMaskID := a } } by rw [← ha]]
    · rw [if_neg hji, if_neg hji]

/-- Raising rules from the end and lowering them from the front is nothing at all. -/
theorem foldl_lower_foldr_raise {lo hi : List AclRule} {w : Walk Cls}
    (h : Listed make (lo ++ hi) w.dal) (horder : hi.Pairwise AclLt)
    (hpos : ∀ r ∈ hi, 0 < r.rulepri) (hmax : ∀ r ∈ hi, r.rulepri < aclMaxPri)
    (hlo : ∀ a ∈ lo, ∀ r ∈ hi, a.rulepri < r.rulepri) :
    (hi.map raised).foldl (lower (clsDal make)) (hi.foldr (raise (clsDal make)) w).dal = w.dal := by
  induction hi generalizing lo with
  | nil => rfl
  | cons r hi ih =>
    obtain ⟨hr, hhi⟩ := List.pairwise_cons.mp horder
    have hrpos := hpos r (List.mem_cons_self ..)
    have hrmax := hmax r (List.mem_cons_self ..)
    have hrest : ∀ s ∈ hi, r.rulepri < s.rulepri := fun s hs =>
      (hr s hs).lt (hpos s (List.mem_cons_of_mem _ hs))
    have hassoc : lo ++ r :: hi = (lo ++ [r]) ++ hi := by simp
    have hlo' : ∀ a ∈ lo ++ [r], ∀ s ∈ hi, a.rulepri < s.rulepri := by
      intro a ha s hs
      rcases List.mem_append.mp ha with ha | ha
      · exact hlo a ha s (List.mem_cons_of_mem _ hs)
      · rw [List.mem_singleton.mp ha]
        exact hrest s hs
    have hpos' : ∀ s ∈ hi, 0 < s.rulepri := fun s hs => hpos s (List.mem_cons_of_mem _ hs)
    have hmax' : ∀ s ∈ hi, s.rulepri < aclMaxPri := fun s hs =>
      hmax s (List.mem_cons_of_mem _ hs)
    rw [hassoc] at h
    have hmoved : Listed make (lo ++ [r] ++ (hi.map raised ++ []))
        (hi.foldr (raise (clsDal make)) w).dal :=
      Listed.foldr_raise (by rw [List.append_nil]; exact h) hhi hpos' hmax' hlo' (by simp)
    rw [List.append_nil] at hmoved
    obtain ⟨hvalid, -, -, hmask⟩ := hmoved.rules r (by simp)
    -- the slot behind is free once the rules behind are out of the way
    have hfree : (hi.foldr (raise (clsDal make)) w).dal.tables.cmask r.rulepri = .zero := by
      refine hmoved.hw.low r.rulepri hrmax fun j hj => hmoved.slot_free hrmax ?_ hj
      intro s hs
      rw [List.append_assoc, List.mem_append, List.mem_append, List.mem_singleton] at hs
      rcases hs with hs | rfl | hs
      · have := hlo s hs r (List.mem_cons_self ..)
        omega
      · omega
      · obtain ⟨s', hs', rfl⟩ := List.mem_map.mp hs
        have := hrest s' hs'
        show s'.rulepri + 1 ≠ _
        omega
    have hstep : lower (clsDal make) (changed (hi.foldr (raise (clsDal make)) w).dal r.dalindex
        r.rulepri) (raised r) = (hi.foldr (raise (clsDal make)) w).dal := by
      have hdecr : decr16 ((raised r).rulepri - 1) = r.rulepri - 1 := by
        show decr16 r.rulepri = _
        simp only [aclMaxPri] at hrmax
        rw [decr16]
        omega
      rw [lower, if_pos (show 0 < (raised r).rulepri from Nat.succ_pos _), hdecr]
      refine changed_changed (hmask hrpos) (by omega) hfree ?_ ?_ ?_
      · rw [hmoved.hw.msel hvalid]
        exact hmask hrpos
      · simp only [aclMaxPri] at hrmax
        omega
      · simp only [aclMaxPri] at hrmax
        omega
    rw [List.map_cons, List.foldl_cons, List.foldr_cons]
    show List.foldl (lower (clsDal make)) (lower (clsDal make) (changed
      (hi.foldr (raise (clsDal make)) w).dal r.dalindex r.rulepri) (raised r)) _ = _
    rw [hstep]
    exact ih h hhi hpos' hmax' hlo'

/-! ### Failing adds -/

variable (make) in
/-- What the layer below makes of the rule of an add; the rules have been moved by then. -/
def addedBelow (s : Acl Cls) (c : ClsConfigInfo) : CtcAdded Cls :=
  if c.rulePri = 0 then dalOnuClsRuleCtcAdd make s.dal c
  else dalOnuClsRuleCtcAdd make (walkOf (clsDal make) s c.rulePri).2.2.dal c

variable (make) in
/-- The add is refused below the list. -/
def FailsBelow (s : Acl Cls) (c : ClsConfigInfo) : Prop :=
  c.rulePri ≤ aclMaxPri ∧ (addedBelow make s c).status ≠ noError

/-- The list, its counters and the entries of all rules are as before. -/
structure Restored (s s' : Acl Cls) : Prop where
  rules : s'.rules = s.rules
  prinum : s'.prinum = s.prinum
  tcnum : s'.tcnum = s.tcnum
  dal : SameRules s.dal s'.dal

variable (make) in
/-- The removal undoes the add: either the rules behind did move down and none was dropped,
or there are none.  A rule that got as far as the tables is removed through slot 0 of the
masks and place 0 of the first row, which must be free; and where the tables took a slot
for its mask, no mask may be right behind. -/
def RollbackGuard (s : Acl Cls) (c : ClsConfigInfo) : Prop :=
  0 < c.rulePri ∧
  (((∃ r ∈ s.rules, r.rulepri = c.rulePri) ∧ ∀ r ∈ s.rules, r.rulepri ≠ aclMaxPri) ∨
    ∀ r ∈ s.rules, r.rulepri < c.rulePri) ∧
  (passesChecks true s.dal c = true →
    (c.rulePri = 1 ∨ ∀ r ∈ s.rules, r.rulepri ≠ 1) ∧ s.dal.tables.caddr 0 0 = 0 ∧
    ((entriesOf make (convertBlock c)).toOption.isSome = true →
      (∀ r ∈ s.rules, r.rulepri < c.rulePri) ∧
      (c.rulePri = aclMaxPri → (s.dal.tables.cmask minMaskEntry).bfValid = false)))

/-- The walk of an add whose rules can be moved back. -/
theorem walkOf_of_guard {s : Acl Cls} (h : SysInv make s) {p : Nat} (hpos : 0 < p)
    (hp : p ≤ aclMaxPri)
    (hguard : ((∃ r ∈ s.rules, r.rulepri = p) ∧ ∀ r ∈ s.rules, r.rulepri ≠ aclMaxPri) ∨
      ∀ r ∈ s.rules, r.rulepri < p) :
    ∃ lo hi, s.rules = lo ++ hi ∧ (∀ r ∈ lo, r.rulepri < p) ∧
      (∀ r ∈ hi, p ≤ r.rulepri ∧ r.rulepri < aclMaxPri) ∧
      walkOf (clsDal make) s p = (lo, hi.map raised,
        hi.foldr (raise (clsDal make)) ⟨s.dal, s.prinum, s.tcnum, noError⟩) := by
  obtain ⟨lo, hi, hrules, hlo, hhi, hcases⟩ :=
    walkOf_cases (clsDal make) h.order h.listed.bound hpos hp
  refine ⟨lo, hi, hrules, hlo, ?_⟩
  have hempty : (∀ r ∈ s.rules, r.rulepri < p) → hi = [] := by
    intro hall
    apply List.eq_nil_iff_forall_not_mem.mpr
    intro r hr
    have hlt := hall r (by simp [hrules, hr])
    have hge := hhi r hr
    omega
  rcases hcases with ⟨hfree, heq⟩ | ⟨-, hno, heq⟩ | ⟨init, tail, rfl, hend, -, -, -⟩
  · have hnil : hi = [] := hempty (hguard.resolve_left fun hocc => by
      obtain ⟨⟨r, hr, hrp⟩, -⟩ := hocc
      exact hfree r hr hrp)
    subst hnil
    exact ⟨by simp, heq⟩
  · refine ⟨?_, heq⟩
    intro r hr
    have hmem : r ∈ s.rules := by simp [hrules, hr]
    exact ⟨hhi r hr, Nat.lt_of_le_of_ne (h.listed.bound r hmem) (hno r hmem)⟩
  · have htail : tail ∈ s.rules := by simp [hrules]
    rcases hguard with ⟨-, hno⟩ | hall
    · exact absurd hend (hno tail htail)
    · have := hempty hall
      simp at this

/-- The checks look at nothing that a move changes. -/
theorem passesChecks_congr {d d' : Cls} (hvalid : ∀ i, (d'.items i).valid = (d.items i).valid)
    (hpar : ∀ i, (d'.items i).parameter = (d.items i).parameter) (fields : Bool)
    (c : ClsConfigInfo) : passesChecks fields d' c = passesChecks fields d c := by
  simp only [passesChecks, firstEmptyRuleId, isDuplicate, hvalid, hpar]

theorem passesChecks_foldr_raise (hi : List AclRule) (w : Walk Cls) (fields : Bool)
    (c : ClsConfigInfo) : passesChecks fields (hi.foldr (raise (clsDal make)) w).dal c =
      passesChecks fields w.dal c := by
  induction hi with
  | nil => rfl
  | cons r hi ih =>
    rw [List.foldr_cons, ← ih]
    refine passesChecks_congr (valid_changed ·) ?_ fields c
    intro i
    show ((changed _ r.dalindex r.rulepri).items i).parameter = _
    rw [items_changed]
    split
    · next heq => rw [heq]
    · rfl

theorem caddr_foldr_raise (hi : List AclRule) (w : Walk Cls) :
    (hi.foldr (raise (clsDal make)) w).dal.tables.caddr = w.dal.tables.caddr := by
  induction hi with
  | nil => rfl
  | cons r hi ih => exact ih

/-- Lowering what was raised. -/
theorem lowered_raised {r : AclRule} (hpos : 0 < r.rulepri) (hmax : r.rulepri ≤ aclMaxPri)
    (hshadow : r.hwshadow.clsHwMaskID = r.rulepri - 1) : lowered (raised r) = r := by
  have hdecr : decr16 r.rulepri = r.hwshadow.clsHwMaskID := by
    simp only [aclMaxPri] at hmax
    rw [hshadow, decr16]
    omega
  rw [lowered, if_pos (show 0 < (raised r).rulepri from Nat.succ_pos _)]
  simp only [raised, Nat.add_sub_cancel, hdecr]

/-! ### What is removed through a cleared record -/

/-- The removal of a rule whose record was cleared touches no rule that is there. -/
theorem sameRules_removed {d : Cls} (h : HwInv make d) {idx : Nat}
    (hidx : (d.items idx).valid = false) (hmask : d.tables.cmask 0 = .zero)
    (haddr : d.tables.caddr 0 0 = 0) :
    SameRules d (dalOnuClsRuleCtcDel (setItem d idx .zero) idx) := by
  have hshadow : ((setItem d idx .zero).items idx).shadowtbl = ⟨0, 0, 0, 0⟩ := by
    rw [show (setItem d idx .zero).items idx = .zero from Function.update_self ..]
    rfl
  have hne : ∀ id, d.tables.mallocFlag id = true → id ≠ 0 := fun id hid => h.rows.ne_zero hid
  rw [dalOnuClsRuleCtcDel, hshadow]
  constructor
  · show Function.update d.tables.cmask 0 .zero = _
    rw [← hmask, Function.update_eq_self]
  · intro id hid
    exact Function.update_of_ne (hne id hid) _ _
  · show Function.update d.tables.caddr 0 (Function.update (d.tables.caddr 0) 0 0) = _
    have hrow : Function.update (d.tables.caddr 0) 0 0 = d.tables.caddr 0 :=
      Function.update_eq_self_iff.mpr haddr.symm
    rw [hrow, Function.update_eq_self]
  · show Function.update d.tables.mallocFlag 0 false = _
    rw [show false = d.tables.mallocFlag 0 from ?_, Function.update_eq_self]
    by_contra hzero
    exact hne 0 (by simpa using hzero) rfl
  · intro i hi
    have hii : i ≠ idx := by
      rintro rfl
      rw [hidx] at hi
      cases hi
    show Function.update (Function.update d.items idx .zero) idx .zero i = _
    rw [Function.update_of_ne hii, Function.update_of_ne hii]

/-- A rule with precedence that the tables refuse leaves them as they were, when nothing is
right behind its slot. -/
theorem tables_of_refused {L : List AclRule} {d : Cls} (h : Listed make L d) {c : ClsConfigInfo}
    (hpos : 0 < c.rulePri) (hp : c.rulePri ≤ aclMaxPri) (hno : ∀ r ∈ L, r.rulepri ≠ c.rulePri)
    (hnext : (entriesOf make (convertBlock c)).toOption.isSome = true →
      (d.tables.cmask c.rulePri).bfValid = false) {t : Tables} {e : ClsError}
    (heq : dalClsEntrySet make d.tables (convertBlock c) = (t, .error e)) : t = d.tables := by
  rcases dalClsEntrySet_low make h.hw.rows (convertBlock c) hpos hp with
    ⟨e', -, heq'⟩ | ⟨m, r, e', hmake, heq'⟩ | ⟨m, r, ruleID, -, -, heq'⟩
  · rw [heq'] at heq
    exact (congrArg Prod.fst heq).symm
  · rw [heq'] at heq
    have hlow : c.rulePri - 1 < minMaskEntry := by
      simp only [aclMaxPri, minMaskEntry] at hp ⊢
      omega
    have hzero : d.tables.cmask (c.rulePri - 1) = .zero := by
      refine h.hw.low _ hlow fun j hj => h.slot_free hlow ?_ hj
      intro r' hr'
      have := hno r' hr'
      omega
    have hself : (referenced d.tables (c.rulePri - 1)).cmask (c.rulePri - 1) =
        { d.tables.cmask (c.rulePri - 1) with
          bfValid := true, referenceCount := (d.tables.cmask (c.rulePri - 1)).referenceCount + 1 } :=
      Function.update_self ..
    have hfree : clsMaskFree (referenced d.tables (c.rulePri - 1)) (c.rulePri - 1) =
        (setMask (referenced d.tables (c.rulePri - 1)) (c.rulePri - 1) .zero, .ok ()) := by
      refine clsMaskFree_last (by rw [hself]) (by rw [hself, hzero]; rfl) ?_
      intro _
      rw [Nat.sub_add_cancel hpos, show (referenced d.tables (c.rulePri - 1)).cmask c.rulePri =
        d.tables.cmask c.rulePri from Function.update_of_ne (by omega) _ _]
      exact hnext (by rw [hmake]; rfl)
    refine (congrArg Prod.fst heq).symm.trans ?_
    show (clsMaskFree (referenced d.tables (c.rulePri - 1)) (c.rulePri - 1)).1 = _
    rw [hfree, referenced, setMask_setMask]
    exact setMask_self hzero.symm
  · rw [heq'] at heq
    cases (congrArg Prod.snd heq)

/-- What is left below the list once the refused rule is out again. -/
theorem sameRules_undone {L : List AclRule} {d : Cls} (h : Listed make L d) {c : ClsConfigInfo}
    (hpos : 0 < c.rulePri) (hp : c.rulePri ≤ aclMaxPri) (hno : ∀ r ∈ L, r.rulepri ≠ c.rulePri)
    (hfails : (dalOnuClsRuleCtcAdd make d c).status ≠ noError)
    (hlate : passesChecks true d c = true → (∀ r ∈ L, r.rulepri ≠ 1) ∧ d.tables.caddr 0 0 = 0 ∧
      ((entriesOf make (convertBlock c)).toOption.isSome = true →
        (d.tables.cmask c.rulePri).bfValid = false)) :
    SameRules d
      (if (dalOnuClsRuleCtcAdd make d c).dalindex.getD noDalIndex ≠ noDalIndex then
        dalOnuClsRuleCtcDel (dalOnuClsRuleCtcAdd make d c).dal
          ((dalOnuClsRuleCtcAdd make d c).dalindex.getD noDalIndex)
      else (dalOnuClsRuleCtcAdd make d c).dal) := by
  by_cases hpass : passesChecks true d c = true
  · obtain ⟨hone, haddr, hnext⟩ := hlate hpass
    obtain ⟨idx, hmax, hidx, herr, hok⟩ := ctcAddWith_passed make hpass
    rcases heq : dalClsEntrySet make d.tables (convertBlock c) with ⟨t, e | hw⟩
    · have htables := tables_of_refused h hpos hp hno hnext heq
      subst htables
      have hmask : d.tables.cmask 0 = .zero :=
        h.hw.low 0 (by decide) fun j hj => h.slot_free (by decide) hone hj
      have hknown : idx ≠ noDalIndex := by
        simp only [maxItem, noDalIndex] at hmax ⊢
        omega
      rw [dalOnuClsRuleCtcAdd, herr _ e heq]
      show SameRules d (if idx ≠ noDalIndex then _ else _)
      rw [if_pos hknown]
      exact sameRules_removed h.hw hidx hmask haddr
    · exact absurd (by rw [dalOnuClsRuleCtcAdd, hok t hw heq]) hfails
  · obtain ⟨st, -, heq | ⟨idx, item, hidx, -, -, heq⟩⟩ :=
      ctcAddWith_refused make (Bool.eq_false_iff.mpr hpass)
    · rw [dalOnuClsRuleCtcAdd, heq]
      exact .refl d
    · rw [dalOnuClsRuleCtcAdd, heq]
      exact sameRules_setItem hidx item

/-! ### The whole call -/

/-- The counters fit their bytes. -/
def CountersFit (s : Acl Cls) : Prop := s.prinum < 256 ∧ s.tcnum < 65536

theorem decr8_incr8 {n : Nat} (h : n < 256) : decr8 (incr8 n) = n := by
  rw [decr8, incr8]
  omega

theorem decr16_incr16 {n : Nat} (h : n < 65536) : decr16 (incr16 n) = n := by
  rw [decr16, incr16]
  omega

/-- What is asked of the state before the walk holds behind it. -/
theorem lateGuard_walkOf {s : Acl Cls} (h : SysInv make s) {c : ClsConfigInfo}
    (hpos : 0 < c.rulePri) (hp : c.rulePri ≤ aclMaxPri)
    (hmoves : ((∃ r ∈ s.rules, r.rulepri = c.rulePri) ∧ ∀ r ∈ s.rules, r.rulepri ≠ aclMaxPri) ∨
      ∀ r ∈ s.rules, r.rulepri < c.rulePri)
    (hlate : passesChecks true s.dal c = true →
      (c.rulePri = 1 ∨ ∀ r ∈ s.rules, r.rulepri ≠ 1) ∧ s.dal.tables.caddr 0 0 = 0 ∧
      ((entriesOf make (convertBlock c)).toOption.isSome = true →
        (∀ r ∈ s.rules, r.rulepri < c.rulePri) ∧
        (c.rulePri = aclMaxPri → (s.dal.tables.cmask minMaskEntry).bfValid = false)))
    (hpass : passesChecks true (walkOf (clsDal make) s c.rulePri).2.2.dal c = true) :
    (∀ r ∈ (walkOf (clsDal make) s c.rulePri).1 ++ (walkOf (clsDal make) s c.rulePri).2.1,
      r.rulepri ≠ 1) ∧
    (walkOf (clsDal make) s c.rulePri).2.2.dal.tables.caddr 0 0 = 0 ∧
    ((entriesOf make (convertBlock c)).toOption.isSome = true →
      ((walkOf (clsDal make) s c.rulePri).2.2.dal.tables.cmask c.rulePri).bfValid = false) := by
  obtain ⟨lo, hi, hrules, hlo, hhi, hwalk⟩ := walkOf_of_guard h hpos hp hmoves
  rw [hwalk] at hpass ⊢
  rw [passesChecks_foldr_raise] at hpass
  obtain ⟨hone, haddr, hnext⟩ := hlate hpass
  refine ⟨?_, ?_, ?_⟩
  · intro r hr
    rcases List.mem_append.mp hr with hr | hr
    · rcases hone with hp1 | hno
      · have := hlo r hr
        omega
      · exact hno r (by simp [hrules, hr])
    · obtain ⟨r', hr', rfl⟩ := List.mem_map.mp hr
      have := (hhi r' hr').1
      show r'.rulepri + 1 ≠ 1
      omega
  · rw [caddr_foldr_raise]
    exact haddr
  · intro hmake
    obtain ⟨hall, hlast⟩ := hnext hmake
    have hnil : hi = [] := by
      apply List.eq_nil_iff_forall_not_mem.mpr
      intro r hr
      have hlt := hall r (by simp [hrules, hr])
      have hge := (hhi r hr).1
      omega
    subst hnil
    show (s.dal.tables.cmask c.rulePri).bfValid = false
    by_cases hpmax : c.rulePri = aclMaxPri
    · rw [hpmax]
      exact hlast hpmax
    · have hlow : c.rulePri < minMaskEntry := Nat.lt_of_le_of_ne hp hpmax
      have hzero : s.dal.tables.cmask c.rulePri = .zero := by
        refine h.listed.hw.low _ hlow fun j hj => h.listed.slot_free hlow ?_ hj
        intro r hr
        have := hall r hr
        omega
      rw [hzero]
      rfl

/-- A refused add that can be undone is undone. -/
theorem restored_of_failsBelow {s : Acl Cls} (h : SysInv make s) (hfit : CountersFit s)
    {c : ClsConfigInfo} (hfails : FailsBelow make s c) (hguard : RollbackGuard make s c) :
    Restored s (odmAclListAdd (clsDal make) s c).1 := by
  obtain ⟨hp, hst⟩ := hfails
  obtain ⟨hpos, hmoves, hlate⟩ := hguard
  rw [addedBelow, if_neg (by omega)] at hst
  have hgap := gap_walkOf (clsDal make) h.order h.listed.bound hpos hp
  have hwalked := h.walkOf hpos hp
  obtain ⟨lo, hi, hrules, hlo, hhi, hwalk⟩ := walkOf_of_guard h hpos hp hmoves
  have hstatus : (listInsert (clsDal make) s c).2 ≠ noError := by
    show (walkOf (clsDal make) s c.rulePri).2.2.status + (dalOnuClsRuleCtcAdd make
      (walkOf (clsDal make) s c.rulePri).2.2.dal c).status ≠ noError
    rw [status_walkOf h hpos hp, show noError = 0 from rfl, Int.zero_add]
    exact hst
  have hinserted : (listInsert (clsDal make) s c).1.rules =
      (walkOf (clsDal make) s c.rulePri).1 ++ recorded (newRule s c noDalIndex)
        (dalOnuClsRuleCtcAdd make (walkOf (clsDal make) s c.rulePri).2.2.dal c) ::
        (walkOf (clsDal make) s c.rulePri).2.1 := rfl
  rw [odmAclListAdd, if_neg (by omega), if_neg (by omega), if_pos hstatus,
    odmAclListDel_found (clsDal make) hp hinserted rfl
      fun r hr => Nat.ne_of_lt (hgap.below r hr)]
  -- the rules that were moved down, in the state after the walk
  have hhipos : ∀ r ∈ hi, 0 < r.rulepri := fun r hr => Nat.lt_of_lt_of_le hpos (hhi r hr).1
  have horder := h.order
  rw [hrules] at horder
  have hlisted := h.listed
  rw [hrules] at hlisted
  have hback : ((walkOf (clsDal make) s c.rulePri).2.1).foldl (lower (clsDal make))
      (walkOf (clsDal make) s c.rulePri).2.2.dal = s.dal := by
    rw [hwalk]
    refine foldl_lower_foldr_raise hlisted (List.pairwise_append.mp horder).2.1 hhipos
      (fun r hr => (hhi r hr).2) ?_
    intro a ha r hr
    exact Nat.lt_of_lt_of_le (hlo a ha) (hhi r hr).1
  have hlater : ((walkOf (clsDal make) s c.rulePri).2.1).map lowered = hi := by
    rw [hwalk, List.map_map]
    conv_rhs => rw [← List.map_id hi]
    apply List.map_congr_left
    intro r hr
    exact lowered_raised (hhipos r hr) (Nat.le_of_lt (hhi r hr).2)
      (hlisted.shadow r (by simp [hr]) (hhipos r hr))
  have hlive : ∀ r ∈ (walkOf (clsDal make) s c.rulePri).2.1,
      ((walkOf (clsDal make) s c.rulePri).2.2.dal.items r.dalindex).valid = true ∧
      (walkOf (clsDal make) s c.rulePri).2.2.dal.tables.mallocFlag
        (ruleOf (walkOf (clsDal make) s c.rulePri).2.2.dal r.dalindex) = true := by
    intro r hr
    have hvalid := (hwalked.rules r (List.mem_append_right _ hr)).1
    exact ⟨hvalid, (hwalked.hw.items _ hvalid).2.live⟩
  have hno : ∀ r ∈ (walkOf (clsDal make) s c.rulePri).1 ++ (walkOf (clsDal make) s c.rulePri).2.1,
      r.rulepri ≠ c.rulePri := by
    intro r hr
    rcases List.mem_append.mp hr with hr | hr
    · exact Nat.ne_of_lt (hgap.below r hr)
    · exact Ne.symm (Nat.ne_of_lt (hgap.above r hr).1)
  have hundone := sameRules_undone hwalked hpos hp hno hst (lateGuard_walkOf h hpos hp hmoves hlate)
  have hmoved : SameRules s.dal _ := hback ▸ hundone.foldl_lower hlive
  constructor
  · show (walkOf (clsDal make) s c.rulePri).1 ++
      ((walkOf (clsDal make) s c.rulePri).2.1).map lowered = s.rules
    rw [hlater, hwalk, hrules]
  · show decr8 (incr8 (walkOf (clsDal make) s c.rulePri).2.2.prinum) = s.prinum
    rw [hwalk, prinum_foldr_raise]
    exact decr8_incr8 hfit.1
  · show decr16 (incr16 (walkOf (clsDal make) s c.rulePri).2.2.tcnum) = s.tcnum
    rw [hwalk, tcnum_foldr_raise]
    exact decr16_incr16 hfit.2
  · exact hmoved

/-! ### Runs -/

theorem CountersFit.del {s : Acl Cls} (h : CountersFit s) (p : Nat) :
    CountersFit (odmAclListDel (clsDal make) s p).1 := by
  rcases odmAclListDel_cases (clsDal make) s p with
    ⟨status, hdel, -⟩ | ⟨front, pClsinfo, later, -, -, -, hdel⟩ <;> rw [hdel]
  · exact h
  · exact ⟨Nat.mod_lt _ (by decide), Nat.mod_lt _ (by decide)⟩

theorem CountersFit.add {s : Acl Cls} (h : CountersFit s) (c : ClsConfigInfo) :
    CountersFit (odmAclListAdd (clsDal make) s c).1 := by
  have hinserted : CountersFit (listInsert (clsDal make) s c).1 :=
    ⟨Nat.mod_lt _ (by decide), Nat.mod_lt _ (by decide)⟩
  rw [odmAclListAdd]
  split
  · exact h
  · split
    · exact ⟨h.1, Nat.mod_lt _ (by decide)⟩
    · simp only
      split
      · exact hinserted.del _
      · exact hinserted

theorem CountersFit.clearRule {s : Acl Cls} (h : CountersFit s) (flag : Bool) (r : AclRule) :
    CountersFit (clearRule (clsDal make) flag s r) := by
  rw [Classify.clearRule]
  split
  · refine ⟨?_, Nat.mod_lt _ (by decide)⟩
    show (if 0 < r.rulepri then decr8 s.prinum else s.prinum) < 256
    split
    · exact Nat.mod_lt _ (by decide)
    · exact h.1
  · exact h

theorem CountersFit.clearAll {s : Acl Cls} (h : CountersFit s) (flag : Bool) :
    CountersFit (odmAclListClearAll (clsDal make) s flag) := by
  have hfold : ∀ (rules : List AclRule) (s' : Acl Cls), CountersFit s' →
      CountersFit (rules.foldl (Classify.clearRule (clsDal make) flag) s') := by
    intro rules
    induction rules with
    | nil => exact fun _ h' => h'
    | cons r rules ih => exact fun s' h' => ih _ (h'.clearRule flag r)
  exact hfold s.rules _ h

theorem CountersFit.step {s : Acl Cls} (h : CountersFit s) (op : ClsOp) :
    CountersFit (clsStep make s op) := by
  cases op with
  | list op =>
    cases op with
    | add c => exact h.add c
    | del p => exact h.del p
    | clearAll flag => exact h.clearAll flag
  | voipAdd c => exact h
  | delEntry ruleid => exact h

variable (make) in
/-- **A refused add leaves no trace.**  After every run that stays clear of the slips, an add
that the layer below refuses and whose moves the removal undoes leaves the list, its
counters and the entries of all rules as they were. -/
theorem failed_add_restores (ops : List ClsOp) (c : ClsConfigInfo)
    (hguard : AllSteps (clsStep make) (ClsGuard make) (aclInit clsInit) ops)
    (hfails : FailsBelow make (run (clsStep make) (aclInit clsInit) ops) c)
    (hundo : RollbackGuard make (run (clsStep make) (aclInit clsInit) ops) c) :
    Restored (run (clsStep make) (aclInit clsInit) ops)
      (clsStep make (run (clsStep make) (aclInit clsInit) ops) (.list (.add c))) := by
  have hinv : AllStates (clsStep make) (fun s => SysInv make s ∧ CountersFit s)
      (aclInit clsInit) ops := by
    refine allStates_of_allSteps (clsStep make) _ ?_ ⟨sysInv_init, by decide, by decide⟩ hguard
    intro s op h hg
    exact ⟨h.1.step hg, h.2.step op⟩
  exact restored_of_failsBelow hinv.last.1 hinv.last.2 hfails hundo

end Rollback

/-- Two rules that met at precedence 2. -/
def metRules : List ClsOp := [.list (.add (onFirstByte 2 1)), .list (.add (onFirstByte 2 2))]

theorem duplicate_restored :
    FailsBelow makeOnu (run (clsStep makeOnu) (aclInit clsInit) metRules) (onFirstByte 2 1) ∧
    Restored (run (clsStep makeOnu) (aclInit clsInit) metRules)
      (clsStep makeOnu (run (clsStep makeOnu) (aclInit clsInit) metRules)
        (.list (.add (onFirstByte 2 1)))) := by
  have hguard : AllSteps (clsStep makeOnu) (ClsGuard makeOnu) (aclInit clsInit) metRules := by
    refine ⟨⟨?_, ?_⟩, ⟨?_, ?_⟩, trivial⟩
    · intro hzero
      cases hzero
    · exact fun _ _ _ => by decide +kernel
    · intro hzero
      cases hzero
    · exact fun _ _ _ => by decide +kernel
  have hfails : FailsBelow makeOnu (run (clsStep makeOnu) (aclInit clsInit) metRules)
      (onFirstByte 2 1) := ⟨by decide, by decide +kernel⟩
  refine ⟨hfails, failed_add_restores makeOnu metRules (onFirstByte 2 1) hguard hfails ?_⟩
  refine ⟨by decide, .inl ⟨by decide +kernel, by decide +kernel⟩, ?_⟩
  intro hpass
  exact absurd hpass (by decide +kernel)

/-- The same rule again, at a precedence that is free: the rule that is there moves up. -/
theorem duplicate_renumbers :
    FailsBelow makeOnu (run (clsStep makeOnu) (aclInit clsInit) [.list (.add (onFirstByte 2 1))])
      (onFirstByte 1 1) ∧
    ¬Restored (run (clsStep makeOnu) (aclInit clsInit) [.list (.add (onFirstByte 2 1))])
      (clsStep makeOnu (run (clsStep makeOnu) (aclInit clsInit) [.list (.add (onFirstByte 2 1))])
        (.list (.add (onFirstByte 1 1)))) := by
  refine ⟨⟨by decide, by decide +kernel⟩, fun h => ?_⟩
  have hpri := congrArg (List.map fun r => r.rulepri) h.rules
  revert hpri
  decide +kernel

end Opconn.Classify
