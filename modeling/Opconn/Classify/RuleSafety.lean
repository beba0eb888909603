import Opconn.Classify.ListedRules

/-!
# Rules keep their entries

Runs of the list operations and of the calls for dynamic rules.  Three slips lose entries:
a rule without precedence takes its mask with it when others share it, the masks that move
up behind a freed slot leave the shadows of their rules behind, and an add that the tables
refuse is undone through a shadow that is all zeros.  In runs that stay clear of them every
rule keeps its mask, its rule entry and its place in the address table.
-/

namespace Opconn.Classify

open Runs

section System

variable (make : Parameter → Option (MaskEntry × RuleEntry))

/-! ### Conditions -/

/-- The tables take the rule of a configuration. -/
def tablesTake (d : Cls) (stClassCfg : ClsConfigInfo) : Bool :=
  (dalClsEntrySet make d.tables (convertBlock stClassCfg)).2.toOption.isSome

/-- The first free shared slot has no mask right behind it. -/
def GapSafe (t : Tables) : Prop :=
  ∀ k ∈ sharedSlots, (t.cmask k).bfValid = false →
    (∀ i ∈ sharedSlots, i < k → (t.cmask i).bfValid = true) →
    k + 1 < maxMaskEntry → (t.cmask (k + 1)).bfValid = false

/-- The rule of record `i` has its mask to itself. -/
def SoleUser (d : Cls) (i : Nat) : Prop := (d.tables.cmask (maskOf d i)).referenceCount = 1

/-- A call stays clear of the slips. -/
def ClsGuard (s : Acl Cls) : ClsOp → Prop
  | .list (.add c) =>
    (c.rulePri = 0 → passesChecks true s.dal c = true ∧ tablesTake make s.dal c = true) ∧
    (0 < c.rulePri → c.rulePri ≤ aclMaxPri →
      passesChecks true (walkOf (clsDal make) s c.rulePri).2.2.dal c = true →
      tablesTake make (walkOf (clsDal make) s c.rulePri).2.2.dal c = true)
  | .list (.del precedence) => precedence = 0 → ∀ r, odmAclListFindPre s.rules 0 = some r →
      SoleUser s.dal r.dalindex ∧ ∀ r' ∈ s.rules, r'.rulepri ≠ 1
  | .list (.clearAll flag) => flag = true → ∀ r ∈ s.rules, r.rulepri = 0 →
      SoleUser s.dal r.dalindex
  | .voipAdd c => c.rulePri = 0 ∧ (passesChecks false s.dal c = true →
      tablesTake make s.dal c = true ∨ GapSafe s.dal.tables)
  | .delEntry ruleid => ∀ i, dalClsRuleToDalIndex s.dal ruleid = some i →
      (s.dal.items i).valid = true ∧ (∀ r ∈ s.rules, r.dalindex ≠ i) ∧
      (SoleUser s.dal i → maskOf s.dal i + 1 < maxMaskEntry →
        (s.dal.tables.cmask (maskOf s.dal i + 1)).bfValid = false)

/-! ### Adding -/

structure SysInv (s : Acl Cls) : Prop where
  order : s.rules.Pairwise AclLt
  listed : Listed make s.rules s.dal

variable {make} {L : List AclRule} {d : Cls}

theorem sysInv_init : SysInv make (aclInit clsInit) := ⟨List.Pairwise.nil, listed_init⟩

/-- The rules that the walk leaves are listed, in the state that it leaves. -/
theorem SysInv.walkOf {s : Acl Cls} (h : SysInv make s) {p : Nat} (hpos : 0 < p)
    (hp : p ≤ aclMaxPri) :
    Listed make ((walkOf (clsDal make) s p).1 ++ (walkOf (clsDal make) s p).2.1)
      (walkOf (clsDal make) s p).2.2.dal := by
  obtain ⟨lo, hi, hrules, hlo, hhi, hcases⟩ :=
    walkOf_cases (clsDal make) h.order h.listed.bound hpos hp
  have horder := h.order
  rw [hrules] at horder
  obtain ⟨-, hback, -⟩ := List.pairwise_append.mp horder
  have hlisted := h.listed
  rw [hrules] at hlisted
  have hhipos : ∀ r ∈ hi, 0 < r.rulepri := fun r hr => Nat.lt_of_lt_of_le hpos (hhi r hr)
  have hacross : ∀ a ∈ lo, ∀ r ∈ hi, a.rulepri < r.rulepri := fun a ha r hr =>
    Nat.lt_of_lt_of_le (hlo a ha) (hhi r hr)
  rcases hcases with ⟨-, heq⟩ | ⟨-, hno, heq⟩ | ⟨init, tail, rfl, hend, -, hno, heq⟩
  · rw [heq]
    exact hlisted
  · rw [heq]
    have hlt : ∀ r ∈ hi, r.rulepri < aclMaxPri := by
      intro r hr
      have hmem : r ∈ s.rules := by simp [hrules, hr]
      exact Nat.lt_of_le_of_ne (h.listed.bound r hmem) (hno r hmem)
    have hraised : Listed make (lo ++ (hi.map raised ++ []))
        (hi.foldr (raise (clsDal make)) ⟨s.dal, s.prinum, s.tcnum, noError⟩).dal :=
      Listed.foldr_raise (by simpa using hlisted) hback hhipos hlt hacross (by simp)
    rwa [List.append_nil] at hraised
  · rw [heq]
    have hlt : ∀ r ∈ init, r.rulepri < aclMaxPri := by
      intro r hr
      have hmem : r ∈ s.rules := by simp [hrules, hr]
      exact Nat.lt_of_le_of_ne (h.listed.bound r hmem) (hno r hr)
    have hperm : (lo ++ (init ++ [tail])).Perm (tail :: (lo ++ init)) := by
      rw [← List.append_assoc]
      exact List.perm_append_singleton tail (lo ++ init)
    have hdropped := (hlisted.perm hperm).drop (by
      intro hzero
      rw [hend] at hzero
      cases hzero)
    have hraised : Listed make (lo ++ (init.map raised ++ [])) (init.foldr (raise (clsDal make))
        (dropped (clsDal make) tail ⟨s.dal, s.prinum, s.tcnum, noError⟩)).dal := by
      apply Listed.foldr_raise _ (List.pairwise_append.mp hback).1 _ hlt
      · exact fun a ha r hr => hacross a ha r (by simp [hr])
      · simp
      · rw [List.append_nil]
        exact hdropped
      · exact fun r hr => hhipos r (by simp [hr])
    rwa [List.append_nil] at hraised

theorem status_foldr_raise (hi : List AclRule) (w : Walk Cls) (hw : w.status = noError) :
    (hi.foldr (raise (clsDal make)) w).status = noError := by
  cases hi with
  | nil => exact hw
  | cons r hi => rfl

theorem status_walkOf {s : Acl Cls} (h : SysInv make s) {p : Nat} (hpos : 0 < p)
    (hp : p ≤ aclMaxPri) : (Classify.walkOf (clsDal make) s p).2.2.status = noError := by
  obtain ⟨lo, hi, -, -, -, hcases⟩ := walkOf_cases (clsDal make) h.order h.listed.bound hpos hp
  rcases hcases with ⟨-, heq⟩ | ⟨-, -, heq⟩ | ⟨init, tail, -, -, -, -, heq⟩
  · rw [heq]
  · rw [heq]
    exact status_foldr_raise hi _ rfl
  · rw [heq]
    exact status_foldr_raise init _ rfl

/-- A rule with precedence that the tables take. -/
theorem Listed.ctcAdd_low {c : ClsConfigInfo} (h : Listed make L d) (hpos : 0 < c.rulePri)
    (hp : c.rulePri ≤ aclMaxPri) (hno : ∀ r ∈ L, r.rulepri ≠ c.rulePri)
    (hpass : passesChecks true d c = true) (htake : tablesTake make d c = true) (new : AclRule)
    (hpri : new.rulepri = c.rulePri) (hcfg : new.stClassCfg = c) :
    (dalOnuClsRuleCtcAdd make d c).status = noError ∧
      Listed make (recorded new (dalOnuClsRuleCtcAdd make d c) :: L)
        (dalOnuClsRuleCtcAdd make d c).dal := by
  have hb : c.rulePri - 1 < minMaskEntry := by
    simp only [aclMaxPri, minMaskEntry] at hp ⊢
    omega
  obtain ⟨idx, hmax, hidx, -, hok⟩ := ctcAddWith_passed make hpass
  rcases dalClsEntrySet_low make h.hw.rows (convertBlock c) hpos hp with
    ⟨e, -, heq⟩ | ⟨m, r, e, -, heq⟩ | ⟨m, r, ruleID, hmake, hfree, heq⟩
  · rw [tablesTake, heq] at htake
    cases htake
  · rw [tablesTake, heq] at htake
    cases htake
  · rw [dalOnuClsRuleCtcAdd, hok _ _ heq]
    refine ⟨rfl, ?_⟩
    have hhw : HwInv make (Classify.withRule d idx (convertBlock c) m r (c.rulePri - 1) ruleID) := by
      refine h.hw.installed hidx hmax hmake (Nat.lt_trans hb (by decide)) hfree.new hfree.usable
        hfree.place hfree.sel ?_ ?_
      · exact h.hw.masks.installedLow hb rfl hfree.new hfree.usable
      · intro j hj hmask
        exact absurd hmask (h.slot_free hb (fun s hs => by
          have := hno s hs
          omega) hj)
    subst hcfg
    refine h.insert hidx (recorded new _) hhw rfl ?_ ?_ ?_ rfl
    · rw [← hpri] at hp
      exact hp
    · intro hzero
      have : new.rulepri = 0 := hzero
      omega
    · intro _
      show _ = new.rulepri - 1
      rw [hpri]
      rfl

/-- A rule that is not installed and not recorded. -/
theorem Listed.ctcAdd_refused {fields : Bool} {c : ClsConfigInfo} (h : Listed make L d)
    (hpass : passesChecks fields d c = false) :
    (ctcAddWith make fields d c).status ≠ noError ∧
      (ctcAddWith make fields d c).dalindex = none ∧
      Listed make L (ctcAddWith make fields d c).dal := by
  obtain ⟨st, hst, heq | ⟨idx, item, hidx, hvalid, hid, heq⟩⟩ :=
    ctcAddWith_refused make hpass
  · rw [heq]
    exact ⟨hst, rfl, h⟩
  · rw [heq]
    exact ⟨hst, rfl, h.setBlank hidx hvalid hid⟩

/-- A rule without precedence that the tables take: its slot was free or holds its mask. -/
theorem HwInv.withRule_shared {c : ClsConfigInfo} (h : HwInv make d) (hzero : c.rulePri = 0)
    (htake : tablesTake make d c = true) {idx : Nat} (hidx : (d.items idx).valid = false)
    (hmax : idx < maxItem) :
    ∃ m r k ruleID, minMaskEntry ≤ k ∧ dalClsEntrySet make d.tables (convertBlock c) =
        (Classify.installed d.tables k m { r with bfMsel := k } ruleID,
          .ok ⟨ruleID, k, clsAddrCal r, ruleID / entrysPerGroup⟩) ∧
      HwInv make (Classify.withRule d idx (convertBlock c) m r k ruleID) := by
  rcases dalClsEntrySet_shared make h.rows h.masks (convertBlock c) hzero with
    ⟨e, heq⟩ | ⟨m, k, e, -, heq⟩ | ⟨m, r, k, ruleID, hmake, htakes, hfree, heq⟩
  · rw [tablesTake, heq] at htake
    cases htake
  · rw [tablesTake, heq] at htake
    cases htake
  · have hk := mem_sharedSlots.mp htakes.slot
    refine ⟨m, r, k, ruleID, hk.1, heq, ?_⟩
    refine h.installed hidx hmax hmake hk.2 hfree.new hfree.usable hfree.place hfree.sel ?_ ?_
    · exact h.masks.installed htakes ((maskPri_of_entriesOf hmake).trans hzero) rfl hfree.new
        hfree.usable
    · intro j hj hmask
      refine ⟨hk.1, ?_⟩
      rcases htakes.choice with ⟨-, hsame⟩ | ⟨hinvalid, -, -⟩
      · exact hsame
      · have hvalid := (h.items j hj).2.valid
        rw [show (d.items j).shadowtbl.clsHwMaskID = k from hmask, hinvalid] at hvalid
        cases hvalid

/-- An add with precedence: the rule is in, or the list is back in order without it. -/
theorem SysInv.add_low {s : Acl Cls} (h : SysInv make s) {c : ClsConfigInfo}
    (hpos : 0 < c.rulePri) (hp : c.rulePri ≤ aclMaxPri)
    (hguard : passesChecks true (Classify.walkOf (clsDal make) s c.rulePri).2.2.dal c = true →
      tablesTake make (Classify.walkOf (clsDal make) s c.rulePri).2.2.dal c = true) :
    SysInv make (odmAclListAdd (clsDal make) s c).1 := by
  have hgap := gap_walkOf (clsDal make) h.order h.listed.bound hpos hp
  have hwalked := h.walkOf hpos hp
  have hstatus := status_walkOf h hpos hp
  have hno : ∀ r ∈ (Classify.walkOf (clsDal make) s c.rulePri).1 ++
      (Classify.walkOf (clsDal make) s c.rulePri).2.1, r.rulepri ≠ c.rulePri := by
    intro r hr
    rcases List.mem_append.mp hr with hr | hr
    · exact Nat.ne_of_lt (hgap.below r hr)
    · exact Ne.symm (Nat.ne_of_lt (hgap.above r hr).1)
  have hrules : (listInsert (clsDal make) s c).1.rules =
      (Classify.walkOf (clsDal make) s c.rulePri).1 ++
        recorded (newRule s c noDalIndex) (dalOnuClsRuleCtcAdd make
          (Classify.walkOf (clsDal make) s c.rulePri).2.2.dal c) ::
        (Classify.walkOf (clsDal make) s c.rulePri).2.1 := rfl
  have hins : (listInsert (clsDal make) s c).2 =
      (Classify.walkOf (clsDal make) s c.rulePri).2.2.status + (dalOnuClsRuleCtcAdd make
        (Classify.walkOf (clsDal make) s c.rulePri).2.2.dal c).status := rfl
  rw [odmAclListAdd, if_neg (by omega), if_neg (by omega)]
  by_cases hpass : passesChecks true
      (Classify.walkOf (clsDal make) s c.rulePri).2.2.dal c = true
  · obtain ⟨hst, hlisted⟩ := hwalked.ctcAdd_low hpos hp hno hpass (hguard hpass)
      (newRule s c noDalIndex) rfl rfl
    rw [hstatus, hst] at hins
    rw [if_neg (by rw [hins]; decide)]
    refine ⟨?_, ?_⟩
    · rw [hrules]
      exact hgap.pairwise rfl
    · rw [hrules]
      exact hlisted.perm List.perm_middle.symm
  · obtain ⟨hst, hdalindex, hlisted⟩ := hwalked.ctcAdd_refused (Bool.eq_false_iff.mpr hpass)
    rw [hstatus] at hins
    rw [if_pos (by rw [hins, show noError = 0 from rfl, Int.zero_add]; exact hst),
      odmAclListDel_found (clsDal make) hp hrules rfl fun r hr => Nat.ne_of_lt (hgap.below r hr)]
    have hnone : (recorded (newRule s c noDalIndex) (dalOnuClsRuleCtcAdd make
        (Classify.walkOf (clsDal make) s c.rulePri).2.2.dal c)).dalindex = noDalIndex := by
      rw [recorded, dalOnuClsRuleCtcAdd, hdalindex]
      rfl
    have hpair : (listInsert (clsDal make) s c).1.rules.Pairwise AclLt := hgap.pairwise rfl
    rw [hrules] at hpair
    refine ⟨(pairwise_lowered hpair fun r hr => Nat.ne_of_lt (hgap.below r hr)).2, ?_⟩
    simp only [hnone, ne_eq, not_true_eq_false, if_false]
    refine Listed.foldl_lower hlisted hgap.back ?_ ?_
    · intro r hr _
      have := (hgap.above r hr).1
      omega
    · intro a ha r hr _
      have hlt := hgap.below a ha
      have hgt := (hgap.above r hr).1
      omega

/-- An add without precedence that is taken. -/
theorem SysInv.add_zero {s : Acl Cls} (h : SysInv make s) {c : ClsConfigInfo}
    (hzero : c.rulePri = 0) (hpass : passesChecks true s.dal c = true)
    (htake : tablesTake make s.dal c = true) :
    SysInv make (odmAclListAdd (clsDal make) s c).1 := by
  obtain ⟨idx, hmax, hidx, -, hok⟩ := ctcAddWith_passed make hpass
  obtain ⟨m, r, k, ruleID, hk, heq, hhw⟩ := h.listed.hw.withRule_shared hzero htake hidx hmax
  have hadd := hok _ _ heq
  rw [odmAclListAdd, if_neg (by omega), if_pos hzero]
  refine ⟨?_, ?_⟩
  · refine List.pairwise_cons.mpr ⟨?_, h.order⟩
    intro r' _
    show AclLt (recorded (newRule s c 0) _) r'
    have : (recorded (newRule s c 0) ((clsDal make).ctcAdd s.dal c)).rulepri = 0 := hzero
    simp only [AclLt]
    omega
  · show Listed make (recorded (newRule s c 0) (ctcAddWith make true s.dal c) :: s.rules)
      (ctcAddWith make true s.dal c).dal
    rw [hadd]
    refine h.listed.insert hidx (recorded (newRule s c 0) _) hhw rfl ?_ (fun _ => hk) ?_ rfl
    · show c.rulePri ≤ aclMaxPri
      omega
    · intro hpos
      have : 0 < c.rulePri := hpos
      omega

/-! ### Removing -/

theorem SysInv.del {s : Acl Cls} (h : SysInv make s) {p : Nat}
    (hguard : p = 0 → ∀ r, odmAclListFindPre s.rules 0 = some r →
      SoleUser s.dal r.dalindex ∧ ∀ r' ∈ s.rules, r'.rulepri ≠ 1) :
    SysInv make (odmAclListDel (clsDal make) s p).1 := by
  rcases odmAclListDel_cases (clsDal make) s p with
    ⟨status, hdel, -⟩ | ⟨front, pClsinfo, later, hrules, hpri, hbefore, hdel⟩ <;> rw [hdel]
  · exact h
  · have horder := h.order
    rw [hrules] at horder
    obtain ⟨hfront, hpair⟩ := pairwise_lowered horder (by rw [hpri]; exact hbefore)
    obtain ⟨hhead, hlater⟩ := List.pairwise_cons.mp (List.pairwise_append.mp horder).2.1
    have hlisted := h.listed
    rw [hrules] at hlisted
    have hlisted := hlisted.perm List.perm_middle
    obtain ⟨hvalid, -⟩ := hlisted.rules pClsinfo (List.mem_cons_self ..)
    have hknown : pClsinfo.dalindex ≠ noDalIndex := by
      have := (hlisted.hw.items _ hvalid).1
      simp only [maxItem, noDalIndex] at this ⊢
      omega
    have hfind : p = 0 → odmAclListFindPre s.rules 0 = some pClsinfo := by
      intro hzero
      rw [odmAclListFindPre, hrules, List.find?_append, List.find?_eq_none.mpr, Option.none_or,
        List.find?_cons_of_pos]
      · simpa [hzero] using hpri
      · intro r hr
        simpa [hzero] using hbefore r hr
    refine ⟨hpair, ?_⟩
    dsimp only
    rw [if_pos hknown]
    refine Listed.foldl_lower (hlisted.drop ?_) hlater ?_ ?_
    · intro hzero
      exact (hguard (hpri.symm.trans hzero) pClsinfo (hfind (hpri.symm.trans hzero))).1
    · intro r hr hrpos
      by_cases hzero : p = 0
      · have := (hguard hzero pClsinfo (hfind hzero)).2 r (by rw [hrules]; simp [hr])
        omega
      · have hlt := (hhead r hr).lt hrpos
        omega
    · intro a ha r hr hrpos
      have hap := hfront a ha
      have hlt := (hhead r hr).lt hrpos
      omega

/-- Rules that have their masks to themselves go one after the other. -/
theorem Listed.foldl_drop {gone kept : List AclRule} (h : Listed make (gone ++ kept) d)
    (hsole : ∀ r ∈ gone, r.rulepri = 0 → SoleUser d r.dalindex) :
    Listed make kept (gone.foldl (fun d r => dalOnuClsRuleCtcDel d r.dalindex) d) := by
  induction gone generalizing d with
  | nil => exact h
  | cons r gone ih =>
    rw [List.foldl_cons]
    obtain ⟨hvalid, -, -, hmask⟩ := h.rules r (by simp)
    obtain ⟨hnot, -⟩ := List.nodup_cons.mp h.inj
    refine ih (h.drop (hsole r (List.mem_cons_self ..))) ?_
    -- another rule without precedence has another slot
    intro r' hr' hzero
    obtain ⟨hvalid', -, hshared', -⟩ := h.rules r' (by simp [hr'])
    have hne : r'.dalindex ≠ r.dalindex := fun heq =>
      hnot (List.mem_map.mpr ⟨r', List.mem_append_left _ hr', heq⟩)
    have hmasks : maskOf d r'.dalindex ≠ maskOf d r.dalindex := by
      intro heq
      refine hne (h.hw.sole_of_count hvalid ?_ hvalid' heq)
      intro _
      rw [← heq]
      exact hsole r' (List.mem_cons_of_mem _ hr') hzero
    have hitem : (dalOnuClsRuleCtcDel d r.dalindex).items r'.dalindex = d.items r'.dalindex :=
      Function.update_of_ne hne _ _
    rw [SoleUser, maskOf, hitem, cmask_removed, if_neg hmasks]
    exact hsole r' (List.mem_cons_of_mem _ hr') hzero

theorem SysInv.clearAll {s : Acl Cls} (h : SysInv make s) {flag : Bool}
    (hguard : flag = true → ∀ r ∈ s.rules, r.rulepri = 0 → SoleUser s.dal r.dalindex) :
    SysInv make (odmAclListClearAll (clsDal make) s flag) := by
  obtain ⟨hrules, hdal⟩ :=
    foldl_clearRule_rules (clsDal make) flag s.rules { s with rules := [] }
  refine ⟨?_, ?_⟩
  · rw [odmAclListClearAll, hrules]
    exact h.order.sublist List.filter_sublist
  · rw [odmAclListClearAll, hrules, hdal]
    apply Listed.foldl_drop
    · exact h.listed.perm (List.filter_append_perm (cleared flag) s.rules).symm
    · intro r hr hzero
      obtain ⟨hmem, hclear⟩ := List.mem_filter.mp hr
      refine hguard ?_ r hmem hzero
      simpa [cleared, hzero] using hclear

/-! ### Dynamic rules -/

theorem SysInv.voipAdd {s : Acl Cls} (h : SysInv make s) {c : ClsConfigInfo}
    (hzero : c.rulePri = 0) (hguard : passesChecks false s.dal c = true →
      tablesTake make s.dal c = true ∨ GapSafe s.dal.tables) :
    SysInv make (clsStep make s (.voipAdd c)) := by
  refine ⟨h.order, ?_⟩
  show Listed make s.rules (ctcAddWith make false s.dal c).dal
  by_cases hpass : passesChecks false s.dal c = true
  · obtain ⟨idx, hmax, hidx, herr, hok⟩ := ctcAddWith_passed make hpass
    by_cases htake : tablesTake make s.dal c = true
    · obtain ⟨m, r, k, ruleID, hk, heq, hhw⟩ := h.listed.hw.withRule_shared hzero htake hidx hmax
      rw [hok _ _ heq]
      exact h.listed.withRule hidx hhw hk
    · -- the tables are as they were, for the slot that was taken is given back
      have hback : ∃ e, dalClsEntrySet make s.dal.tables (convertBlock c) =
          (s.dal.tables, .error e) := by
        rcases dalClsEntrySet_shared make h.listed.hw.rows h.listed.hw.masks (convertBlock c)
          hzero with ⟨e, heq⟩ | ⟨m, k, e, htakes, heq⟩ | ⟨m, r, k, ruleID, -, -, -, heq⟩
        · exact ⟨e, heq⟩
        · refine ⟨e, ?_⟩
          rw [heq, clsMaskFree_referenced h.listed.hw.masks htakes]
          intro hinvalid hmax'
          rcases htakes.choice with ⟨hvalid, -⟩ | ⟨-, hfront, -⟩
          · rw [hinvalid] at hvalid
            cases hvalid
          · exact ((hguard hpass).resolve_left htake) k htakes.slot hinvalid hfront hmax'
        · rw [tablesTake, heq] at htake
          exact absurd rfl htake
      obtain ⟨e, heq⟩ := hback
      rw [herr _ _ heq]
      exact h.listed.setBlank hidx rfl rfl
  · exact (h.listed.ctcAdd_refused (Bool.eq_false_iff.mpr hpass)).2.2

theorem SysInv.delEntry {s : Acl Cls} (h : SysInv make s) {ruleid : Nat}
    (hguard : ClsGuard make s (.delEntry ruleid)) :
    SysInv make (clsStep make s (.delEntry ruleid)) := by
  refine ⟨h.order, ?_⟩
  show Listed make s.rules (dalClsDelEntry make s.dal ruleid)
  rw [dalClsDelEntry]
  cases hindex : dalClsRuleToDalIndex s.dal ruleid with
  | none => exact h.listed
  | some i =>
    obtain ⟨hvalid, hdynamic, hnext⟩ := hguard i hindex
    have hhw := h.listed.hw
    have hinst := (hhw.items i hvalid).2
    have hshared := h.listed.others i hvalid hdynamic
    obtain ⟨m, r, hmake, hsamei, hrulei, -⟩ := hinst.made
    simp only [dalClsEntryMove, hmake]
    rcases dalClsTblEntryDel_spec hhw.rows hhw.masks m r with
      ⟨e, heq, -⟩ | ⟨k, row, off, ruleID, hslot, hvk, hsamek, hlive, haddr, hsamer, heq⟩
    · rw [heq]
      exact h.listed
    · -- what is found by content is the rule of the record
      have hk : k = maskOf s.dal i := by
        apply hhw.masks.distinct k hslot _ (mem_sharedSlots.mpr ⟨hshared, hinst.slot⟩) hvk
          hinst.valid
        exact sameMask_trans (sameMask_symm hsamek) hsamei
      have hid : ruleOf s.dal i = ruleID := by
        apply hhw.unique _ _ hinst.live hlive
        rw [show s.dal.tables.crule (ruleOf s.dal i) = { r with bfMsel := k } by
          rw [hrulei, hk]]
        exact hsamer
      subst hk
      subst hid
      rw [heq]
      exact h.listed.forget hdynamic (hhw.withdrawn hvalid hshared haddr hnext)

/-! ### Records that a call does not touch -/

theorem items_foldr_raise {hi : List AclRule} (w : Walk Cls) {i : Nat}
    (hno : ∀ r ∈ hi, r.dalindex ≠ i) :
    (hi.foldr (raise (clsDal make)) w).dal.items i = w.dal.items i := by
  induction hi with
  | nil => rfl
  | cons r hi ih =>
    have hne := hno r (List.mem_cons_self ..)
    rw [← ih fun r' hr' => hno r' (List.mem_cons_of_mem _ hr')]
    exact Function.update_of_ne (Ne.symm hne) _ _

theorem items_foldl_lower {later : List AclRule} (d : Cls) {i : Nat}
    (hno : ∀ r ∈ later, r.dalindex ≠ i) :
    (later.foldl (lower (clsDal make)) d).items i = d.items i := by
  induction later generalizing d with
  | nil => rfl
  | cons r later ih =>
    rw [List.foldl_cons, ih _ fun r' hr' => hno r' (List.mem_cons_of_mem _ hr'), lower]
    split
    · exact Function.update_of_ne (Ne.symm (hno r (List.mem_cons_self ..))) _ _
    · rfl

theorem items_walkOf {s : Acl Cls} (h : SysInv make s) {p : Nat} (hpos : 0 < p)
    (hp : p ≤ aclMaxPri) {i : Nat} (hno : ∀ r ∈ s.rules, r.dalindex ≠ i) :
    (walkOf (clsDal make) s p).2.2.dal.items i = s.dal.items i ∧
      ∀ r ∈ (walkOf (clsDal make) s p).1 ++ (walkOf (clsDal make) s p).2.1, r.dalindex ≠ i := by
  obtain ⟨lo, hi, hrules, -, -, hcases⟩ :=
    walkOf_cases (clsDal make) h.order h.listed.bound hpos hp
  have hlo : ∀ r ∈ lo, r.dalindex ≠ i := fun r hr => hno r (by simp [hrules, hr])
  have hhi : ∀ r ∈ hi, r.dalindex ≠ i := fun r hr => hno r (by simp [hrules, hr])
  have hraised : ∀ {l : List AclRule}, (∀ r ∈ l, r.dalindex ≠ i) →
      ∀ r ∈ lo ++ l.map raised, r.dalindex ≠ i := by
    intro l hl r hr
    rcases List.mem_append.mp hr with hr | hr
    · exact hlo r hr
    · obtain ⟨r', hr', rfl⟩ := List.mem_map.mp hr
      exact hl r' hr'
  rcases hcases with ⟨-, heq⟩ | ⟨-, -, heq⟩ | ⟨init, tail, rfl, -, -, -, heq⟩
  · rw [heq, ← hrules]
    exact ⟨rfl, hno⟩
  · rw [heq]
    exact ⟨items_foldr_raise _ hhi, hraised hhi⟩
  · have hinit : ∀ r ∈ init, r.dalindex ≠ i := fun r hr => hhi r (by simp [hr])
    rw [heq]
    refine ⟨(items_foldr_raise _ hinit).trans ?_, hraised hinit⟩
    exact Function.update_of_ne (Ne.symm (hhi tail (by simp))) _ _

variable (make) in
/-- An add writes to a record that was not in use. -/
theorem items_ctcAddWith (fields : Bool) (d : Cls) (c : ClsConfigInfo) {i : Nat}
    (hi : (d.items i).valid = true) :
    (ctcAddWith make fields d c).dal.items i = d.items i ∧
      (ctcAddWith make fields d c).dalindex ≠ some i := by
  have hne : ∀ {idx}, (d.items idx).valid = false → i ≠ idx := by
    rintro idx hidx rfl
    rw [hi] at hidx
    cases hidx
  by_cases hpass : passesChecks fields d c = true
  · obtain ⟨idx, -, hidx, herr, hok⟩ := ctcAddWith_passed make hpass
    have hidxne : some idx ≠ some i := fun heq => hne hidx (Option.some.inj heq).symm
    rcases heq : dalClsEntrySet make d.tables (convertBlock c) with ⟨t, e | hw⟩
    · rw [herr t e heq]
      exact ⟨Function.update_of_ne (hne hidx) _ _, hidxne⟩
    · rw [hok t hw heq]
      exact ⟨Function.update_of_ne (hne hidx) _ _, hidxne⟩
  · obtain ⟨st, -, heq | ⟨idx, item, hidx, -, -, heq⟩⟩ :=
      ctcAddWith_refused make (Bool.eq_false_iff.mpr hpass)
    · rw [heq]
      exact ⟨rfl, by simp⟩
    · rw [heq]
      exact ⟨Function.update_of_ne (hne hidx) _ _, by simp⟩

/-- The record of a dynamic rule is as before, unless the call removes that rule. -/
def DynamicKept (s : Acl Cls) (op : ClsOp) (s' : Acl Cls) : Prop :=
  ∀ i, (s.dal.items i).valid = true → (∀ r ∈ s.rules, r.dalindex ≠ i) →
    s'.dal.items i = s.dal.items i ∨ op = .delEntry (s.dal.items i).classifyRuleID

theorem dynamicKept_del {s : Acl Cls} {p i : Nat} (hno : ∀ r ∈ s.rules, r.dalindex ≠ i) :
    (odmAclListDel (clsDal make) s p).1.dal.items i = s.dal.items i := by
  rcases odmAclListDel_cases (clsDal make) s p with
    ⟨status, hdel, -⟩ | ⟨front, pClsinfo, later, hrules, -, -, hdel⟩ <;> rw [hdel]
  have hmem : ∀ r ∈ pClsinfo :: later, r ∈ s.rules := by
    rw [hrules]
    exact fun r hr => List.mem_append_right _ hr
  refine (items_foldl_lower _ fun r hr => hno r (hmem r (by simp [hr]))).trans ?_
  split
  · exact Function.update_of_ne (Ne.symm (hno _ (hmem _ (by simp)))) _ _
  · rfl

theorem dynamicKept_add {s : Acl Cls} (h : SysInv make s) {c : ClsConfigInfo} {i : Nat}
    (hi : (s.dal.items i).valid = true) (hno : ∀ r ∈ s.rules, r.dalindex ≠ i) :
    (odmAclListAdd (clsDal make) s c).1.dal.items i = s.dal.items i := by
  by_cases hp : c.rulePri ≤ aclMaxPri
  · by_cases hzero : c.rulePri = 0
    · rw [odmAclListAdd, if_neg (by omega), if_pos hzero]
      exact (items_ctcAddWith make true s.dal c hi).1
    · obtain ⟨hitem, hrules⟩ := items_walkOf h (Nat.pos_of_ne_zero hzero) hp hno
      obtain ⟨hsame, hindex⟩ := items_ctcAddWith make true
        (walkOf (clsDal make) s c.rulePri).2.2.dal c (i := i) (by rw [hitem]; exact hi)
      have hadded : (listInsert (clsDal make) s c).1.dal.items i = s.dal.items i :=
        hsame.trans hitem
      have hother : ∀ r ∈ (listInsert (clsDal make) s c).1.rules, r.dalindex ≠ i := by
        intro r hr
        rcases List.mem_append.mp hr with hr | hr
        · exact hrules r (List.mem_append_left _ hr)
        · rcases List.mem_cons.mp hr with rfl | hr
          · show (ctcAddWith make true (walkOf (clsDal make) s c.rulePri).2.2.dal c).dalindex.getD
              noDalIndex ≠ i
            have hmax := (h.listed.hw.items i hi).1
            cases hidx : (ctcAddWith make true
                (walkOf (clsDal make) s c.rulePri).2.2.dal c).dalindex with
            | none =>
              simp only [maxItem] at hmax
              simp only [Option.getD_none, noDalIndex]
              omega
            | some idx =>
              rw [hidx] at hindex
              exact fun heq => hindex (congrArg some heq)
          · exact hrules r (List.mem_append_right _ hr)
      rw [odmAclListAdd, if_neg (by omega), if_neg hzero]
      simp only
      split
      · exact (dynamicKept_del hother).trans hadded
      · exact hadded
  · rw [odmAclListAdd, if_pos (by omega)]

theorem dynamicKept_clearAll {s : Acl Cls} {flag : Bool} {i : Nat}
    (hno : ∀ r ∈ s.rules, r.dalindex ≠ i) :
    (odmAclListClearAll (clsDal make) s flag).dal.items i = s.dal.items i := by
  have hdel : ∀ (gone : List AclRule) (d : Cls), (∀ r ∈ gone, r.dalindex ≠ i) →
      (gone.foldl (fun d r => dalOnuClsRuleCtcDel d r.dalindex) d).items i = d.items i := by
    intro gone
    induction gone with
    | nil => exact fun _ _ => rfl
    | cons r gone ih =>
      intro d hgone
      rw [List.foldl_cons, ih _ fun r' hr' => hgone r' (List.mem_cons_of_mem _ hr')]
      exact Function.update_of_ne (Ne.symm (hgone r (List.mem_cons_self ..))) _ _
  rw [odmAclListClearAll, (foldl_clearRule_rules (clsDal make) flag s.rules _).2]
  exact hdel _ _ fun r hr => hno r (List.mem_filter.mp hr).1

theorem dynamicKept_delEntry {d : Cls} {ruleid i : Nat}
    (hi : (d.items i).classifyRuleID ≠ ruleid) :
    (dalClsDelEntry make d ruleid).items i = d.items i := by
  rw [dalClsDelEntry]
  cases hindex : dalClsRuleToDalIndex d ruleid with
  | none => rfl
  | some j =>
    have hj : (d.items j).classifyRuleID = ruleid := by simpa using List.find?_some hindex
    have hne : i ≠ j := by
      rintro rfl
      exact hi hj
    simp only
    split
    · rfl
    · exact Function.update_of_ne hne _ _

theorem dynamicKept_step {s : Acl Cls} (h : SysInv make s) (op : ClsOp) :
    DynamicKept s op (clsStep make s op) := by
  intro i hi hno
  cases op with
  | list op =>
    refine .inl ?_
    cases op with
    | add c => exact dynamicKept_add h hi hno
    | del p => exact dynamicKept_del hno
    | clearAll flag => exact dynamicKept_clearAll hno
  | voipAdd c => exact .inl (items_ctcAddWith make false s.dal c hi).1
  | delEntry ruleid =>
    by_cases hid : (s.dal.items i).classifyRuleID = ruleid
    · exact .inr (by rw [hid])
    · exact .inl (dynamicKept_delEntry hid)

/-! ### Runs -/

theorem SysInv.step {s : Acl Cls} (h : SysInv make s) {op : ClsOp} (hguard : ClsGuard make s op) :
    SysInv make (clsStep make s op) := by
  cases op with
  | list op =>
    cases op with
    | add c =>
      by_cases hzero : c.rulePri = 0
      · exact h.add_zero hzero (hguard.1 hzero).1 (hguard.1 hzero).2
      · have hpos := Nat.pos_of_ne_zero hzero
        by_cases hp : c.rulePri ≤ aclMaxPri
        · exact h.add_low hpos hp (hguard.2 hpos hp)
        · show SysInv make (odmAclListAdd (clsDal make) s c).1
          rw [odmAclListAdd, if_pos (by omega)]
          exact h
    | del p => exact h.del hguard
    | clearAll flag => exact h.clearAll hguard
  | voipAdd c => exact h.voipAdd hguard.1 hguard.2
  | delEntry ruleid => exact h.delEntry hguard

variable (make) in
/-- The rule of every id in use has a record that agrees with the tables, and every rule of
the list has a record of its own; a rule of precedence `p` sits in slot `p - 1`. -/
structure RulesIntact (s : Acl Cls) : Prop where
  known : ∀ id, s.dal.tables.mallocFlag id = true →
    ∃ i, (s.dal.items i).valid = true ∧ ruleOf s.dal i = id
  installed : ∀ i, (s.dal.items i).valid = true → Installed make s.dal.tables (s.dal.items i) ∧
    s.dal.tables.caddr (s.dal.items i).shadowtbl.clsHwAddr (s.dal.items i).shadowtbl.clsHwOff =
      ruleOf s.dal i
  listed : ∀ r ∈ s.rules, (s.dal.items r.dalindex).valid = true ∧
    (s.dal.items r.dalindex).parameter = convertBlock r.stClassCfg ∧
    (0 < r.rulepri → maskOf s.dal r.dalindex = r.rulepri - 1)

theorem SysInv.intact {s : Acl Cls} (h : SysInv make s) : RulesIntact make s where
  known := h.listed.hw.known
  installed := fun i hi =>
    ⟨(h.listed.hw.items i hi).2, (h.listed.hw.items i hi).2.place h.listed.hw.rows⟩
  listed := fun r hr =>
    ⟨(h.listed.rules r hr).1, (h.listed.rules r hr).2.1, (h.listed.rules r hr).2.2.2⟩

variable (make) in
/-- **Rules keep their entries.**  In every run whose calls stay clear of the slips, every
installed rule has its own mask, rule and address entries where its record says, in every
state; and a call that does not remove a dynamic rule leaves its record alone. -/
theorem rules_intact (ops : List ClsOp)
    (hguard : AllSteps (clsStep make) (ClsGuard make) (aclInit clsInit) ops) :
    AllStates (clsStep make) (RulesIntact make) (aclInit clsInit) ops ∧
      AllSteps (clsStep make) (fun s op => DynamicKept s op (clsStep make s op))
        (aclInit clsInit) ops := by
  constructor
  · apply AllStates.mono fun _ => SysInv.intact
    exact allStates_of_allSteps (clsStep make) (SysInv make) (fun _ _ h hg => h.step hg)
      sysInv_init hguard
  · exact allSteps_of_invariant (clsStep make) (SysInv make) (fun _ _ h hg => h.step hg)
      (fun _ op h _ => dynamicKept_step h op) sysInv_init hguard

end System

/-- The entries of a block for `CLASSIFY_EII_IP`. -/
def makeOnu (par : Parameter) : Option (MaskEntry × RuleEntry) := clsMaskRuleMake2Onu par []

/-- A rule of precedence `p` on the first byte of the destination address. -/
def onFirstByte (p : Nat) (v : UInt8) : ClsConfigInfo :=
  { anyPacket p with
    fieldMap := 1
    lowRange := fun i => if i.val = 0 then v else 0
    highRange := fun i => if i.val = 0 then 0xFF else 0 }

/-- Two rules at precedence 2 and a dynamic one; then the first of the list goes. -/
def threeRules : List ClsOp :=
  [.list (.add (onFirstByte 2 1)), .list (.add (onFirstByte 2 2)), .voipAdd (onFirstByte 0 3),
    .list (.del 2)]

theorem three_rules_intact :
    (run (clsStep makeOnu) (aclInit clsInit) threeRules).rules.map (fun r => r.rulepri) = [2] ∧
    AllStates (clsStep makeOnu) (RulesIntact makeOnu) (aclInit clsInit) threeRules := by
  have hguard : AllSteps (clsStep makeOnu) (ClsGuard makeOnu) (aclInit clsInit) threeRules := by
    refine ⟨⟨?_, ?_⟩, ⟨?_, ?_⟩, ⟨rfl, ?_⟩, ?_, trivial⟩
    · intro hzero
      cases hzero
    · exact fun _ _ _ => by decide +kernel
    · intro hzero
      cases hzero
    · exact fun _ _ _ => by decide +kernel
    · exact fun _ => .inl (by decide +kernel)
    · intro hzero
      cases hzero
  exact ⟨by decide +kernel, (rules_intact makeOnu threeRules hguard).1⟩

/-- A dynamic rule and a rule of the list share a mask; the rule of the list goes, and with
it the mask. -/
def sharedMask : List ClsOp :=
  [.voipAdd (onFirstByte 0 1), .list (.add (onFirstByte 0 2)), .list (.del 0)]

theorem shared_mask_lost :
    ¬AllStates (clsStep makeOnu) (RulesIntact makeOnu) (aclInit clsInit) sharedMask := by
  intro h
  have hvalid : ((run (clsStep makeOnu) (aclInit clsInit) sharedMask).dal.items 0).valid = true := by
    decide +kernel
  have hmask := (h.last.installed 0 hvalid).1.valid
  revert hmask
  decide +kernel

end Opconn.Classify
