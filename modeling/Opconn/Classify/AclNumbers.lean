import Opconn.Classify.AclOrder
import Opconn.Lib.NumberedList

/-!
# The precedences of the classification list

The precedences of the rules rise along the list after any calls, also where the counters are
wrong or the layer below takes a rule not.  With its precedences the list is a numbered list,
and `OdmAclListDel` removes a number from it.
-/

namespace Opconn.Classify

open Runs NumberedList

variable {δ : Type}

/-! ### Order after any calls -/

/-- The precedences rise, and the addresses of the records are distinct. -/
structure AclOrdered (s : Acl δ) : Prop where
  bound : ∀ r ∈ s.rules, r.rulepri ≤ aclMaxPri
  order : s.rules.Pairwise AclLt
  fresh : ∀ r ∈ s.rules, r.node < s.allocated
  distinct : (nodes s).Nodup

theorem aclOrdered_init (d : δ) : AclOrdered (aclInit d) := by
  refine ⟨?_, ?_, ?_, ?_⟩ <;> simp [aclInit, nodes]

/-- Some of the rules are left, perhaps with other precedences. -/
theorem AclOrdered.of_sublist {s s' : Acl δ} (h : AclOrdered s)
    (hbound : ∀ r ∈ s'.rules, r.rulepri ≤ aclMaxPri) (horder : s'.rules.Pairwise AclLt)
    (hsub : (nodes s').Sublist (nodes s)) (halloc : s'.allocated = s.allocated) :
    AclOrdered s' := by
  refine ⟨hbound, horder, ?_, h.distinct.sublist hsub⟩
  intro r hr
  obtain ⟨r', hr', heq⟩ := List.mem_map.mp (hsub.subset (List.mem_map_of_mem hr))
  have := h.fresh r' hr'
  omega

/-- A new record comes between rules that were there. -/
theorem AclOrdered.insert {s s' : Acl δ} (h : AclOrdered s) {front back : List AclRule}
    {new : AclRule} (hrules : s'.rules = front ++ new :: back)
    (hbound : ∀ r ∈ s'.rules, r.rulepri ≤ aclMaxPri) (horder : s'.rules.Pairwise AclLt)
    (hsub : ((front ++ back).map fun r => r.node).Sublist (nodes s))
    (hnode : new.node = s.allocated) (halloc : s'.allocated = s.allocated + 1) :
    AclOrdered s' := by
  have hold : ∀ n ∈ (front ++ back).map (fun r => r.node), n < s.allocated := by
    intro n hn
    obtain ⟨r, hr, rfl⟩ := List.mem_map.mp (hsub.subset hn)
    exact h.fresh r hr
  have hperm : (nodes s').Perm (s.allocated :: (front ++ back).map fun r => r.node) := by
    rw [nodes, hrules, ← hnode, ← List.map_cons]
    exact List.perm_middle.map _
  refine ⟨hbound, horder, ?_, ?_⟩
  · intro r hr
    rw [halloc]
    have hmem : r.node ∈ nodes s' := List.mem_map_of_mem hr
    rcases List.mem_cons.mp (hperm.mem_iff.mp hmem) with heq | hmem
    · omega
    · have := hold _ hmem
      omega
  · rw [hperm.nodup_iff, List.nodup_cons]
    refine ⟨?_, h.distinct.sublist hsub⟩
    intro hmem
    exact Nat.lt_irrefl _ (hold _ hmem)

theorem aclOrdered_listInsert (dal : Dal δ) {s : Acl δ} (h : AclOrdered s)
    {stClassCfg : ClsConfigInfo} (hpos : 0 < stClassCfg.rulePri)
    (hp : stClassCfg.rulePri ≤ aclMaxPri) : AclOrdered (listInsert dal s stClassCfg).1 := by
  have hgap := gap_walkOf dal h.order h.bound hpos hp
  exact h.insert rfl (hgap.bound hp rfl) (hgap.pairwise rfl) hgap.kept rfl rfl

theorem aclOrdered_del (dal : Dal δ) {s : Acl δ} (h : AclOrdered s) (p : Nat) :
    AclOrdered (odmAclListDel dal s p).1 := by
  rcases odmAclListDel_cases dal s p with
    ⟨status, hdel, -⟩ | ⟨front, pClsinfo, later, hrules, hpri, hbefore, hdel⟩ <;> rw [hdel]
  · exact h
  · have horder := h.order
    rw [hrules] at horder
    refine h.of_sublist (bound_removed (hrules ▸ h.bound))
      (pairwise_lowered horder (by rw [hpri]; exact hbefore)).2 ?_ rfl
    rw [nodes, nodes, hrules]
    exact sublist_removed

theorem allocated_foldl_clearRule (dal : Dal δ) (flag : Bool) (rules : List AclRule)
    (s : Acl δ) : (rules.foldl (clearRule dal flag) s).allocated = s.allocated := by
  induction rules generalizing s with
  | nil => rfl
  | cons r rules ih =>
    rw [List.foldl_cons, ih, clearRule]
    split <;> rfl

theorem aclOrdered_clearAll (dal : Dal δ) {s : Acl δ} (h : AclOrdered s) (flag : Bool) :
    AclOrdered (odmAclListClearAll dal s flag) := by
  have hrules : (odmAclListClearAll dal s flag).rules =
      s.rules.filter fun r => !cleared flag r := by
    rw [odmAclListClearAll, (foldl_clearRule_rules dal flag s.rules _).1, List.nil_append]
  have hsub : (odmAclListClearAll dal s flag).rules.Sublist s.rules := by
    rw [hrules]
    exact List.filter_sublist
  exact h.of_sublist (fun r hr => h.bound r (hsub.subset hr)) (h.order.sublist hsub) (hsub.map _)
    (allocated_foldl_clearRule dal flag s.rules _)

/-- One call. -/
theorem aclOrdered_step (dal : Dal δ) {s : Acl δ} (h : AclOrdered s) (op : AclOp) :
    AclOrdered (aclStep dal s op) := by
  cases op with
  | add stClassCfg =>
    rw [aclStep, odmAclListAdd]
    split
    · exact h
    · split
      · rename_i hzero
        have hrules : (odmAclListAdd dal s stClassCfg).1.rules = [] ++
            recorded (newRule s stClassCfg 0) (dal.ctcAdd s.dal stClassCfg) :: s.rules := by
          rw [odmAclListAdd, if_neg (by omega), if_pos hzero]
          rfl
        rw [odmAclListAdd, if_neg (by omega), if_pos hzero] at hrules
        refine h.insert hrules ?_ ?_ (List.Sublist.refl _) rfl rfl
        · intro r hr
          rcases List.mem_cons.mp hr with rfl | hr
          · exact Nat.le_trans (Nat.le_of_eq hzero) (Nat.zero_le _)
          · exact h.bound r hr
        · refine List.pairwise_cons.mpr ⟨?_, h.order⟩
          intro r _
          have hpri : (recorded (newRule s stClassCfg 0)
              (dal.ctcAdd s.dal stClassCfg)).rulepri = 0 := hzero
          simp only [AclLt]
          omega
      · have hinserted := aclOrdered_listInsert dal h
          (Nat.pos_of_ne_zero ‹stClassCfg.rulePri ≠ 0›) (by omega)
        dsimp only
        split
        · exact aclOrdered_del dal hinserted _
        · exact hinserted
  | del precedence => exact aclOrdered_del dal h precedence
  | clearAll flag => exact aclOrdered_clearAll dal h flag

theorem aclOrdered_run (dal : Dal δ) (d : δ) (ops : List AclOp) :
    AclOrdered (run (aclStep dal) (aclInit d) ops) :=
  run_invariant (aclStep dal) AclOrdered (fun _ op h => aclOrdered_step dal h op)
    (aclOrdered_init d) ops

/-! ### The list with its precedences -/

/-- The records and their precedences. -/
def numbered (s : Acl δ) : List (Nat × Nat) := s.rules.map fun r => (r.node, r.rulepri)

@[simp] theorem names_numbered (s : Acl δ) : names (numbered s) = nodes s := by
  rw [names, numbered, List.map_map]
  rfl

theorem AclOrdered.numbered {s : Acl δ} (h : AclOrdered s) : Ordered (Classify.numbered s) := by
  rw [Ordered, Classify.numbered, List.pairwise_map]
  exact h.order

/-- **A removal.**  `OdmAclListDel` removes a number, if there is one to remove. -/
theorem odmAclListDel_numbered (dal : Dal δ) {s : Acl δ} (h : AclOrdered s) (p : Nat) :
    (∃ l, remove p (numbered s) = some l ∧ (odmAclListDel dal s p).2 = noError ∧
      numbered (odmAclListDel dal s p).1 = l) ∨
    (remove p (numbered s) = none ∧ (odmAclListDel dal s p).2 ≠ noError ∧
      (odmAclListDel dal s p).1 = s) := by
  rcases odmAclListDel_cases dal s p with
    ⟨status, hdel, hstatus, hnone⟩ | ⟨front, pClsinfo, later, hrules, hpri, hbefore, hdel⟩ <;>
    rw [hdel]
  · refine .inr ⟨?_, hstatus, rfl⟩
    rw [remove_eq_none_iff]
    intro x hx
    obtain ⟨r, hr, rfl⟩ := List.mem_map.mp hx
    intro heq
    have hp : p ≤ aclMaxPri := heq ▸ h.bound r hr
    exact hnone hp r hr heq
  · refine .inl ⟨_, ?_, rfl, rfl⟩
    rw [remove_eq_some_iff]
    refine ⟨front.map fun r => (r.node, r.rulepri), (pClsinfo.node, pClsinfo.rulepri),
      later.map fun r => (r.node, r.rulepri), ?_, hpri, ?_, ?_⟩
    · rw [numbered, hrules, List.map_append, List.map_cons]
    · intro x hx
      obtain ⟨r, hr, rfl⟩ := List.mem_map.mp hx
      exact hbefore r hr
    · rw [numbered, List.map_append, List.map_map, List.map_map]
      refine congrArg _ (List.map_congr_left fun r _ => ?_)
      exact Prod.ext (node_lowered r) (rulepri_lowered r)

end Opconn.Classify
