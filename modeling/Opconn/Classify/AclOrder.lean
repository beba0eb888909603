import Mathlib.Data.Finset.Card
import Mathlib.Data.List.TakeWhile
import Mathlib.Order.Interval.Finset.Nat
import Opconn.Classify.AclList

/-!
# The list keeps its order

The walk of `OdmAclListAdd`, the renumbering of `OdmAclListDel` and the loop of
`OdmAclListClearAll` on a list in order: what they leave of the list, of the counters and
which calls reach the layer below.  From this the runs that keep the list consistent are
known exactly.
-/

namespace Opconn.Classify

open Runs

/-! ### Lists in order -/

/-- Rules without precedence come first, then the precedences rise. -/
def AclLt (a b : AclRule) : Prop :=
  a.rulepri < b.rulepri ∨ (a.rulepri = 0 ∧ b.rulepri = 0)

theorem AclLt.le {a b : AclRule} (h : AclLt a b) : a.rulepri ≤ b.rulepri := by
  rcases h with hlt | ⟨ha, hb⟩
  · exact Nat.le_of_lt hlt
  · omega

theorem AclLt.lt {a b : AclRule} (h : AclLt a b) (hpos : 0 < b.rulepri) :
    a.rulepri < b.rulepri := by
  rcases h with hlt | ⟨-, hb⟩
  · exact hlt
  · omega

/-- The list splits at every precedence. -/
theorem exists_split {rules : List AclRule} (h : rules.Pairwise AclLt) (p : Nat) :
    ∃ lo hi, rules = lo ++ hi ∧ (∀ r ∈ lo, r.rulepri < p) ∧ ∀ r ∈ hi, p ≤ r.rulepri := by
  induction rules with
  | nil => exact ⟨[], [], rfl, by simp, by simp⟩
  | cons r rs ih =>
    obtain ⟨hr, hrs⟩ := List.pairwise_cons.mp h
    by_cases hlt : r.rulepri < p
    · obtain ⟨lo, hi, rfl, hlo, hhi⟩ := ih hrs
      exact ⟨r :: lo, hi, rfl, by simpa using ⟨hlt, hlo⟩, hhi⟩
    · refine ⟨[], r :: rs, rfl, by simp, ?_⟩
      intro r' hr'
      rcases List.mem_cons.mp hr' with rfl | hmem
      · omega
      · have := (hr r' hmem).le
        omega

/-- The precedences above zero are at most `ACL_MAX_PRI` many. -/
theorem countP_le_maxPri {rules : List AclRule} (h : rules.Pairwise AclLt)
    (hmax : ∀ r ∈ rules, r.rulepri ≤ aclMaxPri) :
    rules.countP (fun r => 0 < r.rulepri) ≤ aclMaxPri := by
  rw [List.countP_eq_length_filter, ← List.length_map (fun r => r.rulepri)]
  have hnodup : ((rules.filter fun r => 0 < r.rulepri).map fun r => r.rulepri).Nodup := by
    rw [List.Nodup, List.pairwise_map, List.pairwise_filter]
    refine h.imp ?_
    intro a b hab _ hb
    have := hab.lt (by simpa using hb)
    omega
  have hsub : ((rules.filter fun r => 0 < r.rulepri).map fun r => r.rulepri).toFinset ⊆
      Finset.Icc 1 aclMaxPri := by
    intro n hn
    simp only [List.mem_toFinset, List.mem_map, List.mem_filter, decide_eq_true_eq] at hn
    obtain ⟨r, ⟨hmem, hpos⟩, rfl⟩ := hn
    exact Finset.mem_Icc.mpr ⟨hpos, hmax r hmem⟩
  have hcard := Finset.card_le_card hsub
  rw [List.toFinset_card_of_nodup hnodup] at hcard
  simpa using hcard

section Walks

variable {δ : Type} (dal : Dal δ)

/-- The walk stops in front of the rules below the precedence. -/
theorem addWalk_below {p : Nat} (hp : p ≤ aclMaxPri) (occupied : Bool) {lo : List AclRule}
    (hlo : ∀ r ∈ lo, r.rulepri < p) (behind : List AclRule) (w : Walk δ) :
    addWalk dal p occupied lo.reverse behind w = (lo, behind, w) := by
  induction lo using List.reverseRecOn with
  | nil => rfl
  | append_singleton lo tmp _ =>
    have htmp : tmp.rulepri < p := hlo tmp (by simp)
    rw [List.reverse_append, List.reverse_singleton, List.singleton_append, addWalk, if_neg,
      if_neg, if_pos htmp]
    · simp
    · omega
    · omega

/-- At a free precedence nothing moves. -/
theorem addWalk_free {p : Nat} (hp : p ≤ aclMaxPri) {lo hi : List AclRule}
    (hlo : ∀ r ∈ lo, r.rulepri < p) (hhi : ∀ r ∈ hi, p ≤ r.rulepri)
    (behind : List AclRule) (w : Walk δ) :
    addWalk dal p false (lo ++ hi).reverse behind w = (lo, hi ++ behind, w) := by
  induction hi using List.reverseRecOn generalizing behind with
  | nil => simpa using addWalk_below dal hp false hlo behind w
  | append_singleton hi tmp ih =>
    have htmp : p ≤ tmp.rulepri := hhi tmp (by simp)
    rw [← List.append_assoc, List.reverse_append, List.reverse_singleton,
      List.singleton_append, addWalk, if_neg (by simp), if_neg (by simp), if_neg (by omega), ih]
    · simp
    · intro r hr
      exact hhi r (by simp [hr])

/-- At an occupied precedence the rules from there on move down. -/
theorem addWalk_raise {p : Nat} (hp : p ≤ aclMaxPri) {lo hi : List AclRule}
    (hlo : ∀ r ∈ lo, r.rulepri < p) (hhi : ∀ r ∈ hi, p ≤ r.rulepri)
    (hmax : ∀ r ∈ hi, r.rulepri ≠ aclMaxPri) (behind : List AclRule) (w : Walk δ) :
    addWalk dal p true (lo ++ hi).reverse behind w =
      (lo, hi.map raised ++ behind, hi.foldr (raise dal) w) := by
  induction hi using List.reverseRecOn generalizing behind w with
  | nil => simpa using addWalk_below dal hp true hlo behind w
  | append_singleton hi tmp ih =>
    have htmp : p ≤ tmp.rulepri := hhi tmp (by simp)
    have hne : tmp.rulepri ≠ aclMaxPri := hmax tmp (by simp)
    rw [← List.append_assoc, List.reverse_append, List.reverse_singleton,
      List.singleton_append, addWalk, if_neg fun hc => hne hc.2, if_pos ⟨rfl, htmp⟩, ih]
    · simp
    · intro r hr
      exact hhi r (by simp [hr])
    · intro r hr
      exact hmax r (by simp [hr])

/-- The counters and the layer below after the last rule is dropped. -/
def dropped (tail : AclRule) (w : Walk δ) : Walk δ :=
  { w with
    dal := dal.ctcDel w.dal tail.dalindex
    prinum := decr8 w.prinum
    tcnum := decr16 w.tcnum }

/-- With precedence `ACL_MAX_PRI` taken as well, its rule goes first. -/
theorem addWalk_full {p : Nat} (hp : p ≤ aclMaxPri) {lo hi : List AclRule} {tail : AclRule}
    (hlo : ∀ r ∈ lo, r.rulepri < p) (hhi : ∀ r ∈ hi, p ≤ r.rulepri)
    (hmax : ∀ r ∈ hi, r.rulepri ≠ aclMaxPri) (htail : tail.rulepri = aclMaxPri) (w : Walk δ) :
    addWalk dal p true (lo ++ (hi ++ [tail])).reverse [] w =
      (lo, hi.map raised, hi.foldr (raise dal) (dropped dal tail w)) := by
  have hlast : odmAclListDelLowestPre dal (lo ++ hi ++ [tail]) w =
      (lo ++ hi, dropped dal tail w) := by
    simp [odmAclListDelLowestPre, dropped, htail]
  rw [← List.append_assoc, List.reverse_append, List.reverse_singleton, List.singleton_append,
    addWalk, if_pos ⟨rfl, htail⟩, List.reverse_reverse, hlast]
  have hnil : (lo ++ hi).drop (lo ++ hi).reverse.length = [] := by
    rw [List.length_reverse, List.drop_length]
  simp only [hnil, addWalk_raise dal hp hlo hhi hmax, List.append_nil]

/-- The walk of an add to list `s` at precedence `p`. -/
def walkOf (s : Acl δ) (p : Nat) : List AclRule × List AclRule × Walk δ :=
  addWalk dal p (odmAclListFindPre s.rules p).isSome s.rules.reverse []
    ⟨s.dal, s.prinum, s.tcnum, noError⟩

/-- Every case of the walk on a list in order: the precedence is free, it is taken, or the
last one is taken too. -/
theorem walkOf_cases {s : Acl δ} (h : s.rules.Pairwise AclLt)
    (hmax : ∀ r ∈ s.rules, r.rulepri ≤ aclMaxPri) {p : Nat} (hpos : 0 < p) (hp : p ≤ aclMaxPri) :
    ∃ lo hi, s.rules = lo ++ hi ∧ (∀ r ∈ lo, r.rulepri < p) ∧ (∀ r ∈ hi, p ≤ r.rulepri) ∧
      (((∀ r ∈ s.rules, r.rulepri ≠ p) ∧
          walkOf dal s p = (lo, hi, ⟨s.dal, s.prinum, s.tcnum, noError⟩)) ∨
        ((∃ r ∈ s.rules, r.rulepri = p) ∧ (∀ r ∈ s.rules, r.rulepri ≠ aclMaxPri) ∧
          walkOf dal s p = (lo, hi.map raised,
            hi.foldr (raise dal) ⟨s.dal, s.prinum, s.tcnum, noError⟩)) ∨
        ∃ init tail, hi = init ++ [tail] ∧ tail.rulepri = aclMaxPri ∧
          (∃ r ∈ s.rules, r.rulepri = p) ∧ (∀ r ∈ init, r.rulepri ≠ aclMaxPri) ∧
          walkOf dal s p = (lo, init.map raised,
            init.foldr (raise dal) (dropped dal tail ⟨s.dal, s.prinum, s.tcnum, noError⟩))) := by
  obtain ⟨lo, hi, hrules, hlo, hhi⟩ := exists_split h p
  refine ⟨lo, hi, hrules, hlo, hhi, ?_⟩
  cases hfind : odmAclListFindPre s.rules p with
  | none =>
    have hnone := List.find?_eq_none.mp hfind
    refine .inl ⟨fun r hr => by simpa using hnone r hr, ?_⟩
    rw [walkOf, hfind, hrules]
    simpa using addWalk_free dal hp hlo hhi [] _
  | some found =>
    have hocc : ∃ r ∈ s.rules, r.rulepri = p :=
      ⟨found, List.mem_of_find?_eq_some hfind, by simpa using List.find?_some hfind⟩
    rw [walkOf, hfind, hrules]
    by_cases hlast : ∃ r ∈ hi, r.rulepri = aclMaxPri
    · -- only the last rule can have the last precedence
      have hpair : hi.Pairwise AclLt := by
        rw [hrules] at h
        exact (List.pairwise_append.mp h).2.1
      have hne : hi ≠ [] := by
        rintro rfl
        simp at hlast
      obtain ⟨init, tail, rfl⟩ : ∃ init tail, hi = init ++ [tail] :=
        ⟨hi.dropLast, hi.getLast hne, (List.dropLast_append_getLast hne).symm⟩
      obtain ⟨-, -, hinit⟩ := List.pairwise_append.mp hpair
      have htail : tail.rulepri ≤ aclMaxPri := hmax tail (by simp [hrules])
      have hbelow : ∀ r ∈ init, r.rulepri < tail.rulepri := by
        intro r hr
        refine (hinit r hr tail (by simp)).lt ?_
        exact Nat.lt_of_lt_of_le hpos (hhi tail (by simp))
      have hend : tail.rulepri = aclMaxPri := by
        obtain ⟨r, hr, heq⟩ := hlast
        rcases List.mem_append.mp hr with hmem | hmem
        · have := hbelow r hmem
          omega
        · rw [← List.mem_singleton.mp hmem]
          exact heq
      refine .inr (.inr ⟨init, tail, rfl, hend, hrules ▸ hocc, ?_, ?_⟩)
      · intro r hr
        have := hbelow r hr
        omega
      · apply addWalk_full dal hp hlo _ _ hend
        · intro r hr
          exact hhi r (by simp [hr])
        · intro r hr
          have := hbelow r hr
          omega
    · have hno : ∀ r ∈ hi, r.rulepri ≠ aclMaxPri := fun r hr heq => hlast ⟨r, hr, heq⟩
      refine .inr (.inl ⟨hrules ▸ hocc, ?_, ?_⟩)
      · intro r hr
        rcases List.mem_append.mp hr with hmem | hmem
        · have := hlo r hmem
          omega
        · exact hno r hmem
      · simpa using addWalk_raise dal hp hlo hhi hno [] _

@[simp] theorem prinum_foldr_raise (hi : List AclRule) (w : Walk δ) :
    (hi.foldr (raise dal) w).prinum = w.prinum := by
  induction hi with
  | nil => rfl
  | cons r hi ih => exact ih

@[simp] theorem tcnum_foldr_raise (hi : List AclRule) (w : Walk δ) :
    (hi.foldr (raise dal) w).tcnum = w.tcnum := by
  induction hi with
  | nil => rfl
  | cons r hi ih => exact ih

end Walks

/-! ### Consistent lists -/

variable {δ : Type}

/-- The order of the list, and counters that count. -/
structure AclConsistent (s : Acl δ) : Prop where
  bound : ∀ r ∈ s.rules, r.rulepri ≤ aclMaxPri
  order : s.rules.Pairwise AclLt
  pris : s.prinum = s.rules.countP fun r => 0 < r.rulepri
  total : s.tcnum = s.rules.length

/-- The addresses of the records, in the order of the list. -/
def nodes (s : Acl δ) : List Nat := s.rules.map fun r => r.node

/-- The records of `s` that are left in `s'` come in the same order. -/
def OrderKept (s s' : Acl δ) : Prop := ((nodes s').filter (· ∈ nodes s)).Sublist (nodes s)

structure AclInv (s : Acl δ) : Prop where
  consistent : AclConsistent s
  small : s.rules.length < 65536
  fresh : ∀ r ∈ s.rules, r.node < s.allocated

theorem aclInv_init (d : δ) : AclInv (aclInit d) := by
  refine ⟨⟨?_, ?_, rfl, rfl⟩, ?_, ?_⟩ <;> simp [aclInit]

theorem decr8_succ {n : Nat} (h : n < 256) : decr8 (n + 1) = n := by
  rw [decr8]
  omega

theorem decr16_succ {n : Nat} (h : n < 65536) : decr16 (n + 1) = n := by
  rw [decr16]
  omega

/-! ### Adding -/

/-- What the walk leaves: a list in order with a gap at the precedence. -/
structure Gap (s : Acl δ) (p : Nat) (walked : List AclRule × List AclRule × Walk δ) : Prop where
  below : ∀ r ∈ walked.1, r.rulepri < p
  above : ∀ r ∈ walked.2.1, p < r.rulepri ∧ r.rulepri ≤ aclMaxPri
  front : walked.1.Pairwise AclLt
  back : walked.2.1.Pairwise AclLt
  kept : ((walked.1 ++ walked.2.1).map fun r => r.node).Sublist (nodes s)

/-- The counters count the rules that are left. -/
structure Counted (s : Acl δ) (p : Nat) (walked : List AclRule × List AclRule × Walk δ) :
    Prop where
  pris : walked.2.2.prinum = (walked.1 ++ walked.2.1).countP fun r => 0 < r.rulepri
  total : walked.2.2.tcnum = (walked.1 ++ walked.2.1).length
  room : (walked.1 ++ walked.2.1).length < 65535 ↔ s.rules.length < 65535 ∨
    ((∃ r ∈ s.rules, r.rulepri = p) ∧ ∃ r ∈ s.rules, r.rulepri = aclMaxPri)

theorem countP_raised {hi : List AclRule} (h : ∀ r ∈ hi, 0 < r.rulepri) :
    (hi.map raised).countP (fun r => 0 < r.rulepri) = hi.countP fun r => 0 < r.rulepri := by
  rw [List.countP_eq_length.mpr, List.countP_eq_length.mpr, List.length_map]
  · simpa using h
  · simp [raised]

theorem pairwise_raised {hi : List AclRule} (h : hi.Pairwise AclLt)
    (hpos : ∀ r ∈ hi, 0 < r.rulepri) : (hi.map raised).Pairwise AclLt := by
  rw [List.pairwise_map]
  refine List.Pairwise.imp_of_mem ?_ h
  intro a b _ hb hab
  have hlt := hab.lt (hpos b hb)
  refine .inl ?_
  show a.rulepri + 1 < b.rulepri + 1
  omega

theorem map_node_raised (hi : List AclRule) :
    (hi.map raised).map (fun r => r.node) = hi.map fun r => r.node := by
  rw [List.map_map]
  rfl

theorem gap_walkOf (dal : Dal δ) {s : Acl δ} (horder : s.rules.Pairwise AclLt)
    (hbound : ∀ r ∈ s.rules, r.rulepri ≤ aclMaxPri) {p : Nat} (hpos : 0 < p)
    (hp : p ≤ aclMaxPri) : Gap s p (walkOf dal s p) := by
  obtain ⟨lo, hi, hrules, hlo, hhi, hcases⟩ := walkOf_cases dal horder hbound hpos hp
  rw [hrules] at horder
  obtain ⟨hfront, hback, -⟩ := List.pairwise_append.mp horder
  have hhipos : ∀ r ∈ hi, 0 < r.rulepri := fun r hr => Nat.lt_of_lt_of_le hpos (hhi r hr)
  -- a rule that is raised stays below the last precedence
  have habove : ∀ {l : List AclRule}, (∀ r ∈ l, r ∈ s.rules ∧ p ≤ r.rulepri ∧
      r.rulepri ≠ aclMaxPri) → ∀ r ∈ l.map raised, p < r.rulepri ∧ r.rulepri ≤ aclMaxPri := by
    intro l hl r hr
    obtain ⟨r', hr', rfl⟩ := List.mem_map.mp hr
    obtain ⟨hmem, hge, hne⟩ := hl r' hr'
    have hle := hbound r' hmem
    show p < r'.rulepri + 1 ∧ r'.rulepri + 1 ≤ aclMaxPri
    omega
  rcases hcases with ⟨hfree, heq⟩ | ⟨-, hno, heq⟩ | ⟨init, tail, rfl, -, -, hno, heq⟩
  · rw [heq]
    refine ⟨hlo, ?_, hfront, hback, ?_⟩
    · intro r hr
      have hmem : r ∈ s.rules := by simp [hrules, hr]
      exact ⟨Nat.lt_of_le_of_ne (hhi r hr) (Ne.symm (hfree r hmem)), hbound r hmem⟩
    · rw [nodes, hrules]
  · rw [heq]
    refine ⟨hlo, habove ?_, hfront, pairwise_raised hback hhipos, ?_⟩
    · intro r hr
      have hmem : r ∈ s.rules := by simp [hrules, hr]
      exact ⟨hmem, hhi r hr, hno r hmem⟩
    · rw [List.map_append, map_node_raised, ← List.map_append, nodes, hrules]
  · have hinitpos : ∀ r ∈ init, 0 < r.rulepri := fun r hr => hhipos r (by simp [hr])
    rw [heq]
    refine ⟨hlo, habove ?_, hfront,
      pairwise_raised (List.pairwise_append.mp hback).1 hinitpos, ?_⟩
    · intro r hr
      exact ⟨by simp [hrules, hr], hhi r (by simp [hr]), hno r hr⟩
    · rw [List.map_append, map_node_raised, ← List.map_append, nodes, hrules, ← List.append_assoc]
      exact (List.sublist_append_left _ _).map _

theorem counted_walkOf (dal : Dal δ) {s : Acl δ} (h : AclInv s) {p : Nat} (hpos : 0 < p)
    (hp : p ≤ aclMaxPri) : Counted s p (walkOf dal s p) := by
  obtain ⟨lo, hi, hrules, hlo, hhi, hcases⟩ :=
    walkOf_cases dal h.consistent.order h.consistent.bound hpos hp
  have hpris := h.consistent.pris
  have htotal := h.consistent.total
  have hsmall := h.small
  have hhipos : ∀ r ∈ hi, 0 < r.rulepri := fun r hr => Nat.lt_of_lt_of_le hpos (hhi r hr)
  rcases hcases with ⟨hfree, heq⟩ | ⟨hocc, hno, heq⟩ | ⟨init, tail, rfl, hend, hocc, hno, heq⟩
  · rw [heq]
    refine ⟨?_, ?_, ?_⟩
    · rw [← hrules]
      exact hpris
    · rw [← hrules]
      exact htotal
    · rw [← hrules]
      refine ⟨.inl, ?_⟩
      rintro (hlt | ⟨⟨r, hr, hpri⟩, -⟩)
      · exact hlt
      · exact absurd hpri (hfree r hr)
  · rw [heq]
    refine ⟨?_, ?_, ?_⟩
    · rw [prinum_foldr_raise, List.countP_append, countP_raised hhipos, ← List.countP_append,
        ← hrules]
      exact hpris
    · rw [tcnum_foldr_raise, List.length_append, List.length_map, ← List.length_append, ← hrules]
      exact htotal
    · rw [List.length_append, List.length_map, ← List.length_append, ← hrules]
      refine ⟨.inl, ?_⟩
      rintro (hlt | ⟨-, r, hr, hpri⟩)
      · exact hlt
      · exact absurd hpri (hno r hr)
  · have hlen : s.rules.length = (lo ++ init).length + 1 := by
      simp [hrules]
      omega
    have hcount : s.rules.countP (fun r => 0 < r.rulepri) =
        (lo ++ init).countP (fun r => 0 < r.rulepri) + 1 := by
      simp [hrules, hend, Nat.add_assoc]
    have hfew := countP_le_maxPri h.consistent.order h.consistent.bound
    have hinitpos : ∀ r ∈ init, 0 < r.rulepri := fun r hr => hhipos r (by simp [hr])
    rw [heq]
    refine ⟨?_, ?_, ?_⟩
    · rw [prinum_foldr_raise, List.countP_append, countP_raised hinitpos, ← List.countP_append]
      show decr8 s.prinum = _
      rw [hpris, hcount, decr8_succ]
      rw [hcount] at hfew
      simp only [aclMaxPri] at hfew
      omega
    · rw [tcnum_foldr_raise, List.length_append, List.length_map, ← List.length_append]
      show decr16 s.tcnum = _
      rw [htotal, hlen, decr16_succ (by omega)]
    · rw [List.length_append, List.length_map, ← List.length_append]
      refine ⟨fun _ => .inr ⟨hocc, tail, by simp [hrules], hend⟩, fun _ => ?_⟩
      show (lo ++ init).length < 65535
      omega

/-- The list with a rule in the gap is in order. -/
theorem Gap.pairwise {s : Acl δ} {p : Nat} {walked : List AclRule × List AclRule × Walk δ}
    (h : Gap s p walked) {new : AclRule} (hnew : new.rulepri = p) :
    (walked.1 ++ new :: walked.2.1).Pairwise AclLt := by
  rw [List.pairwise_append, List.pairwise_cons]
  refine ⟨h.front, ⟨?_, h.back⟩, ?_⟩
  · intro r hr
    refine .inl ?_
    rw [hnew]
    exact (h.above r hr).1
  · intro a ha b hb
    have hap := h.below a ha
    refine .inl ?_
    rcases List.mem_cons.mp hb with rfl | hb
    · omega
    · have := (h.above b hb).1
      omega

theorem Gap.bound {s : Acl δ} {p : Nat} {walked : List AclRule × List AclRule × Walk δ}
    (h : Gap s p walked) (hp : p ≤ aclMaxPri) {new : AclRule} (hnew : new.rulepri = p) :
    ∀ r ∈ walked.1 ++ new :: walked.2.1, r.rulepri ≤ aclMaxPri := by
  intro r hr
  rw [List.mem_append, List.mem_cons] at hr
  rcases hr with hr | rfl | hr
  · have := h.below r hr
    omega
  · omega
  · exact (h.above r hr).2

/-- The rule in the gap. -/
theorem Gap.fill {s : Acl δ} {p : Nat} {walked : List AclRule × List AclRule × Walk δ}
    (h : Gap s p walked) (hcount : Counted s p walked) (hinv : AclInv s) (hpos : 0 < p)
    (hp : p ≤ aclMaxPri) (new : AclRule) (hnew : new.rulepri = p)
    (hnode : new.node = s.allocated) (s' : Acl δ)
    (hrules : s'.rules = walked.1 ++ new :: walked.2.1)
    (hprinum : s'.prinum = incr8 walked.2.2.prinum) (htcnum : s'.tcnum = incr16 walked.2.2.tcnum)
    (halloc : s'.allocated = s.allocated + 1) :
    (AclConsistent s' → s.rules.length < 65535 ∨
      ((∃ r ∈ s.rules, r.rulepri = p) ∧ ∃ r ∈ s.rules, r.rulepri = aclMaxPri)) ∧
    ((s.rules.length < 65535 ∨
      ((∃ r ∈ s.rules, r.rulepri = p) ∧ ∃ r ∈ s.rules, r.rulepri = aclMaxPri)) → AclInv s') ∧
    OrderKept s s' := by
  have hlen : s'.rules.length = (walked.1 ++ walked.2.1).length + 1 := by
    simp [hrules]
    omega
  have hsmall : (walked.1 ++ walked.2.1).length ≤ s.rules.length := by
    simpa [nodes] using h.kept.length_le
  have hlt := hinv.small
  have hold : ∀ n ∈ (walked.1 ++ walked.2.1).map (fun r => r.node), n < s.allocated := by
    intro n hn
    obtain ⟨r, hr, rfl⟩ := List.mem_map.mp (h.kept.subset hn)
    exact hinv.fresh r hr
  refine ⟨?_, ?_, ?_⟩
  · intro hcons
    rw [← hcount.room]
    have htotal := hcons.total
    rw [htcnum, hcount.total, hlen, incr16] at htotal
    omega
  · intro hroom
    rw [← hcount.room] at hroom
    have hbound : ∀ r ∈ s'.rules, r.rulepri ≤ aclMaxPri := by
      rw [hrules]
      exact h.bound hp hnew
    have horder : s'.rules.Pairwise AclLt := by
      rw [hrules]
      exact h.pairwise hnew
    have hone : s'.rules.countP (fun r => 0 < r.rulepri) =
        (walked.1 ++ walked.2.1).countP (fun r => 0 < r.rulepri) + 1 := by
      rw [hrules]
      simp [hnew, hpos]
      omega
    have hfew := countP_le_maxPri horder hbound
    refine ⟨⟨hbound, horder, ?_, ?_⟩, by omega, ?_⟩
    · rw [hprinum, hcount.pris, hone, incr8]
      rw [hone] at hfew
      simp only [aclMaxPri] at hfew
      omega
    · rw [htcnum, hcount.total, hlen, incr16]
      omega
    · intro r hr
      rw [halloc]
      rw [hrules, List.mem_append, List.mem_cons] at hr
      have hmem : r = new ∨ r ∈ walked.1 ++ walked.2.1 := by
        rw [List.mem_append]
        tauto
      rcases hmem with rfl | hmem
      · omega
      · have := hold r.node (List.mem_map.mpr ⟨r, hmem, rfl⟩)
        omega
  · have hnot : s.allocated ∉ nodes s := by
      intro hmem
      obtain ⟨r, hr, heq⟩ := List.mem_map.mp hmem
      have := hinv.fresh r hr
      omega
    have hkept : (nodes s').filter (· ∈ nodes s) =
        ((walked.1 ++ walked.2.1).map fun r => r.node).filter (· ∈ nodes s) := by
      rw [show nodes s' = (walked.1 ++ new :: walked.2.1).map fun r => r.node by
        rw [nodes, hrules]]
      simp [hnode, hnot]
    rw [OrderKept, hkept]
    exact List.filter_sublist.trans h.kept

/-! ### Removing -/

@[simp] theorem rulepri_lowered (r : AclRule) : (lowered r).rulepri = r.rulepri - 1 := by
  rw [lowered]
  split
  · rfl
  · omega

@[simp] theorem node_lowered (r : AclRule) : (lowered r).node = r.node := by
  rw [lowered]
  split <;> rfl

theorem AclLt.lowered {a b : AclRule} (h : AclLt a b) : AclLt (lowered a) (lowered b) := by
  simp only [AclLt, rulepri_lowered] at h ⊢
  omega

/-- The rule that a removal finds, and the list around it. -/
theorem exists_found {rules : List AclRule} {p : Nat} {pClsinfo : AclRule} {later : List AclRule}
    (h : (rules.dropWhile fun r => r.rulepri ≠ p) = pClsinfo :: later) :
    pClsinfo.rulepri = p ∧
      rules = (rules.takeWhile fun r => r.rulepri ≠ p) ++ pClsinfo :: later ∧
      ∀ r ∈ rules.takeWhile fun r => r.rulepri ≠ p, r.rulepri ≠ p := by
  refine ⟨?_, ?_, ?_⟩
  · have hne : (rules.dropWhile fun r => r.rulepri ≠ p) ≠ [] := by
      rw [h]
      exact List.cons_ne_nil _ _
    have hhead := List.head_dropWhile_not (fun r : AclRule => decide (r.rulepri ≠ p)) hne
    simp only [h, List.head_cons] at hhead
    simpa using hhead
  · rw [← h, List.takeWhile_append_dropWhile]
  · intro r hr
    simpa using List.mem_takeWhile_imp hr

/-- The rules behind a removed one move up without passing those in front. -/
theorem pairwise_lowered {front later : List AclRule} {pClsinfo : AclRule}
    (h : (front ++ pClsinfo :: later).Pairwise AclLt)
    (hfront : ∀ r ∈ front, r.rulepri ≠ pClsinfo.rulepri) :
    (∀ r ∈ front, r.rulepri < pClsinfo.rulepri) ∧
      (front ++ later.map lowered).Pairwise AclLt := by
  obtain ⟨hfirst, hcons, hacross⟩ := List.pairwise_append.mp h
  obtain ⟨hhead, hlater⟩ := List.pairwise_cons.mp hcons
  have hlt : ∀ r ∈ front, r.rulepri < pClsinfo.rulepri := fun r hr =>
    Nat.lt_of_le_of_ne (hacross r hr pClsinfo (List.mem_cons_self ..)).le (hfront r hr)
  refine ⟨hlt, ?_⟩
  rw [List.pairwise_append, List.pairwise_map]
  refine ⟨hfirst, hlater.imp AclLt.lowered, ?_⟩
  intro a ha b hb
  obtain ⟨b', hb', rfl⟩ := List.mem_map.mp hb
  have hap := hlt a ha
  have hbp := hhead b' hb'
  simp only [AclLt, rulepri_lowered] at hbp ⊢
  omega

/-- What is left without a rule: those behind it are moved up. -/
abbrev removedAt (dal : Dal δ) (s : Acl δ) (front : List AclRule) (pClsinfo : AclRule)
    (later : List AclRule) : Acl δ :=
  { s with
    rules := front ++ later.map lowered
    prinum := decr8 s.prinum
    tcnum := decr16 s.tcnum
    dal := later.foldl (lower dal) (if pClsinfo.dalindex ≠ noDalIndex
      then dal.ctcDel s.dal pClsinfo.dalindex else s.dal) }

/-- The removal of a rule whose precedence no rule in front has. -/
theorem odmAclListDel_found (dal : Dal δ) {s : Acl δ} {p : Nat} (hp : p ≤ aclMaxPri)
    {front later : List AclRule} {pClsinfo : AclRule}
    (hrules : s.rules = front ++ pClsinfo :: later) (hpri : pClsinfo.rulepri = p)
    (hfront : ∀ r ∈ front, r.rulepri ≠ p) :
    odmAclListDel dal s p = (removedAt dal s front pClsinfo later, noError) := by
  have hall : ∀ r ∈ front, decide (r.rulepri ≠ p) = true := fun r hr => by simpa using hfront r hr
  have hdrop : (s.rules.dropWhile fun r => r.rulepri ≠ p) = pClsinfo :: later := by
    rw [hrules, List.dropWhile_append_of_pos hall, List.dropWhile_cons_of_neg (by simpa using hpri)]
  have htake : (s.rules.takeWhile fun r => r.rulepri ≠ p) = front := by
    rw [hrules, List.takeWhile_append_of_pos hall, List.takeWhile_cons_of_neg (by simpa using hpri),
      List.append_nil]
  rw [odmAclListDel, if_neg (by omega), hdrop, htake]

/-- **A removal** takes the first rule of the precedence, or changes nothing. -/
theorem odmAclListDel_cases (dal : Dal δ) (s : Acl δ) (p : Nat) :
    (∃ status, odmAclListDel dal s p = (s, status) ∧ status ≠ noError ∧
      (p ≤ aclMaxPri → ∀ r ∈ s.rules, r.rulepri ≠ p)) ∨
    ∃ front pClsinfo later, s.rules = front ++ pClsinfo :: later ∧ pClsinfo.rulepri = p ∧
      (∀ r ∈ front, r.rulepri ≠ p) ∧
      odmAclListDel dal s p = (removedAt dal s front pClsinfo later, noError) := by
  by_cases hp : p ≤ aclMaxPri
  · cases hdrop : s.rules.dropWhile fun r => r.rulepri ≠ p with
    | nil =>
      refine .inl ⟨qosGeneralError, ?_, by decide, ?_⟩
      · rw [odmAclListDel, if_neg (by omega), hdrop]
      · intro _ r hr
        simpa using List.dropWhile_eq_nil_iff.mp hdrop r hr
    | cons pClsinfo later =>
      obtain ⟨hpri, hrules, hbefore⟩ := exists_found hdrop
      exact .inr ⟨_, pClsinfo, later, hrules, hpri, hbefore,
        odmAclListDel_found dal hp hrules hpri hbefore⟩
  · refine .inl ⟨qosInvalidPointer, ?_, by decide, fun hle => absurd hle hp⟩
    rw [odmAclListDel, if_pos (by omega)]

/-- At most one rule has precedence 1. -/
theorem countP_one_le {rules : List AclRule} (h : rules.Pairwise AclLt) :
    rules.countP (fun r => r.rulepri = 1) ≤ 1 := by
  induction rules with
  | nil => simp
  | cons r rs ih =>
    obtain ⟨hr, hrs⟩ := List.pairwise_cons.mp h
    by_cases hone : r.rulepri = 1
    · have hrest : rs.countP (fun r => r.rulepri = 1) = 0 := by
        rw [List.countP_eq_zero]
        intro r' hr'
        have := (hr r' hr')
        simp only [AclLt] at this
        simp only [decide_eq_true_eq]
        omega
      simp [hone, hrest]
    · simpa [hone] using ih hrs

theorem countP_lowered (rules : List AclRule) :
    (rules.map lowered).countP (fun r => 0 < r.rulepri) +
        rules.countP (fun r => r.rulepri = 1) =
      rules.countP fun r => 0 < r.rulepri := by
  induction rules with
  | nil => rfl
  | cons r rs ih =>
    simp only [List.map_cons, List.countP_cons, rulepri_lowered, decide_eq_true_eq]
    split <;> split <;> split <;> omega

theorem map_node_lowered (rules : List AclRule) :
    (rules.map lowered).map (fun r => r.node) = rules.map fun r => r.node := by
  rw [List.map_map]
  exact List.map_congr_left fun r _ => node_lowered r

theorem orderKept_of_sublist {s s' : Acl δ} (h : (nodes s').Sublist (nodes s)) :
    OrderKept s s' := by
  rw [OrderKept]
  exact List.filter_sublist.trans h

section Removed

variable {front later : List AclRule} {pClsinfo : AclRule}

theorem sublist_removed :
    ((front ++ later.map lowered).map fun r => r.node).Sublist
      ((front ++ pClsinfo :: later).map fun r => r.node) := by
  rw [List.map_append, map_node_lowered, ← List.map_append]
  exact ((List.sublist_cons_self ..).append_left front).map _

theorem bound_removed {m : Nat} (h : ∀ r ∈ front ++ pClsinfo :: later, r.rulepri ≤ m) :
    ∀ r ∈ front ++ later.map lowered, r.rulepri ≤ m := by
  intro r hr
  rcases List.mem_append.mp hr with hr | hr
  · exact h r (by simp [hr])
  · obtain ⟨r', hr', rfl⟩ := List.mem_map.mp hr
    have := h r' (by simp [hr'])
    rw [rulepri_lowered]
    omega

theorem fresh_removed {n : Nat} (h : ∀ r ∈ front ++ pClsinfo :: later, r.node < n) :
    ∀ r ∈ front ++ later.map lowered, r.node < n := by
  intro r hr
  have hmem : r.node ∈ (front ++ pClsinfo :: later).map fun r => r.node :=
    sublist_removed.subset (List.mem_map_of_mem hr)
  obtain ⟨r', hr', heq⟩ := List.mem_map.mp hmem
  have := h r' hr'
  omega

/-- One precedence goes: that of the rule, or where it has none, precedence 1 if there is one. -/
theorem countP_removed (h : (front ++ pClsinfo :: later).Pairwise AclLt) :
    (front ++ later.map lowered).countP (fun r => 0 < r.rulepri) +
        (if pClsinfo.rulepri = 0 then later.countP fun r => r.rulepri = 1 else 1) =
      (front ++ pClsinfo :: later).countP fun r => 0 < r.rulepri := by
  obtain ⟨hhead, -⟩ := List.pairwise_cons.mp (List.pairwise_append.mp h).2.1
  have hcount := countP_lowered later
  rw [List.countP_append, List.countP_append, List.countP_cons]
  by_cases hzero : pClsinfo.rulepri = 0
  · simp only [hzero, if_true, Nat.lt_irrefl, decide_false, Bool.false_eq_true, if_false]
    omega
  · have hnone : later.countP (fun r => r.rulepri = 1) = 0 := by
      rw [List.countP_eq_zero]
      intro r hr
      have := hhead r hr
      simp only [AclLt] at this
      simp only [decide_eq_true_eq]
      omega
    simp only [if_neg hzero, Nat.pos_of_ne_zero hzero, decide_true, if_true]
    omega

end Removed

/-- A removal keeps the list consistent but when it takes a rule without precedence and no
rule has precedence 1: then the count of the precedences goes down and none leaves. -/
theorem odmAclListDel_spec (dal : Dal δ) {s : Acl δ} (h : AclInv s) (p : Nat) :
    (AclConsistent (odmAclListDel dal s p).1 → p = 0 → (∃ r ∈ s.rules, r.rulepri = 0) →
      ∃ r ∈ s.rules, r.rulepri = 1) ∧
    ((p = 0 → (∃ r ∈ s.rules, r.rulepri = 0) → ∃ r ∈ s.rules, r.rulepri = 1) →
      AclInv (odmAclListDel dal s p).1) ∧
    OrderKept s (odmAclListDel dal s p).1 := by
  rcases odmAclListDel_cases dal s p with
    ⟨status, hdel, -, hnone⟩ | ⟨front, pClsinfo, later, hrules, hpri, hbefore, hdel⟩ <;> rw [hdel]
  · refine ⟨?_, fun _ => h, orderKept_of_sublist (List.Sublist.refl _)⟩
    rintro _ rfl ⟨r, hr, hzero⟩
    exact absurd hzero (hnone (by decide) r hr)
  · have horder := h.consistent.order
    have hbound := h.consistent.bound
    have hpris := h.consistent.pris
    have hfew := countP_le_maxPri horder hbound
    rw [hrules] at horder hbound hpris hfew
    obtain ⟨hfront, hpair⟩ := pairwise_lowered horder (by rw [hpri]; exact hbefore)
    have hone := countP_one_le (List.pairwise_append.mp horder).2.1.of_cons
    have hcount := countP_removed horder
    rw [hpri] at hcount hfront
    simp only [aclMaxPri] at hfew
    refine ⟨?_, ?_, orderKept_of_sublist ?_⟩
    · rintro hcons rfl -
      -- without precedence 1 the two counts part
      by_contra hno
      have hnone : later.countP (fun r => r.rulepri = 1) = 0 := by
        rw [List.countP_eq_zero]
        intro r hr hr1
        exact hno ⟨r, by simp [hrules, hr], by simpa using hr1⟩
      have hpris' : decr8 s.prinum = (front ++ later.map lowered).countP fun r => 0 < r.rulepri :=
        hcons.pris
      rw [if_pos rfl, hnone] at hcount
      rw [decr8] at hpris'
      omega
    · intro hguard
      have hgone : (if p = 0 then later.countP fun r => r.rulepri = 1 else 1) = 1 := by
        split
        · rename_i hzero
          obtain ⟨r, hr, hr1⟩ := hguard hzero ⟨pClsinfo, by simp [hrules], hpri.trans hzero⟩
          have hmem : r ∈ later := by
            rw [hrules, List.mem_append, List.mem_cons] at hr
            rcases hr with hr | rfl | hr
            · have := hfront r hr
              omega
            · omega
            · exact hr
          have : 0 < later.countP fun r => r.rulepri = 1 :=
            List.countP_pos_iff.mpr ⟨r, hmem, by simpa using hr1⟩
          omega
        · rfl
      have hlen : s.rules.length = (front ++ later.map lowered).length + 1 := by
        rw [hrules]
        simp
        omega
      have hsmall := h.small
      refine ⟨⟨bound_removed hbound, hpair, ?_, ?_⟩, ?_, fresh_removed (hrules ▸ h.fresh)⟩
      · show decr8 s.prinum = (front ++ later.map lowered).countP fun r => 0 < r.rulepri
        rw [hpris, ← hcount, hgone, decr8_succ]
        omega
      · show decr16 s.tcnum = (front ++ later.map lowered).length
        rw [h.consistent.total, hlen, decr16_succ]
        omega
      · show (front ++ later.map lowered).length < 65536
        omega
    · rw [nodes, nodes, hrules]
      exact sublist_removed

/-! ### Clearing -/

/-- Whether `OdmAclListClearAll` removes a rule. -/
def cleared (flag : Bool) (r : AclRule) : Bool := flag || 0 < r.rulepri

/-- The loop of `OdmAclListClearAll`: the rules that stay are put behind those of `s`, and
the counters, which still count the rules to come, lose what is removed. -/
theorem foldl_clearRule (dal : Dal δ) (flag : Bool) (rules : List AclRule) (s : Acl δ)
    {a b : Nat} (ha : s.prinum = a + rules.countP fun r => 0 < r.rulepri)
    (hb : s.tcnum = b + rules.countP (cleared flag)) (ha256 : s.prinum < 256)
    (hb65536 : s.tcnum < 65536) :
    rules.foldl (clearRule dal flag) s =
      { rules := s.rules ++ rules.filter fun r => !cleared flag r
        prinum := a
        tcnum := b
        allocated := s.allocated
        dal := (rules.filter (cleared flag)).foldl (fun d r => dal.ctcDel d r.dalindex) s.dal } := by
  induction rules generalizing s with
  | nil =>
    simp only [List.countP_nil, Nat.add_zero] at ha hb
    simp [← ha, ← hb]
  | cons r rules ih =>
    rw [List.foldl_cons]
    by_cases hclear : cleared flag r = true
    · have hcond : flag = true ∨ 0 < r.rulepri := by simpa [cleared] using hclear
      have hfilter : ((r :: rules).filter fun r => !cleared flag r) =
          rules.filter fun r => !cleared flag r := by simp [hclear]
      rw [List.countP_cons_of_pos hclear] at hb
      rw [List.countP_cons] at ha
      rw [ih (clearRule dal flag s r) ?_ ?_ ?_ ?_]
      · simp [clearRule, hcond, hclear, hfilter]
      · simp only [clearRule, if_pos hcond, decide_eq_true_eq] at ha ⊢
        split at ha
        · next hpos =>
          rw [if_pos hpos, ha, ← Nat.add_assoc, decr8_succ]
          omega
        · next hpos =>
          rw [if_neg hpos, ha]
          rfl
      · simp only [clearRule, if_pos hcond]
        rw [hb, ← Nat.add_assoc, decr16_succ]
        omega
      · simp only [clearRule, if_pos hcond]
        split
        · rw [decr8]
          omega
        · exact ha256
      · simp only [clearRule, if_pos hcond, decr16]
        omega
    · have hcond : ¬(flag = true ∨ 0 < r.rulepri) := by simpa [cleared] using hclear
      have hzero : ¬0 < r.rulepri := fun hc => hcond (.inr hc)
      rw [List.countP_cons_of_neg hclear] at hb
      rw [List.countP_cons_of_neg (by simpa using hzero)] at ha
      have hstep : clearRule dal flag s r = { s with rules := s.rules ++ [r] } := by
        rw [clearRule, if_neg hcond]
      rw [hstep, ih { s with rules := s.rules ++ [r] } ha hb ha256 hb65536]
      simp [hclear]

/-- The same without the counters. -/
theorem foldl_clearRule_rules (dal : Dal δ) (flag : Bool) (rules : List AclRule) (s : Acl δ) :
    (rules.foldl (clearRule dal flag) s).rules =
        s.rules ++ rules.filter (fun r => !cleared flag r) ∧
      (rules.foldl (clearRule dal flag) s).dal =
        (rules.filter (cleared flag)).foldl (fun d r => dal.ctcDel d r.dalindex) s.dal := by
  induction rules generalizing s with
  | nil => simp
  | cons r rules ih =>
    rw [List.foldl_cons]
    obtain ⟨hrules, hdal⟩ := ih (clearRule dal flag s r)
    rw [hrules, hdal]
    by_cases hclear : cleared flag r = true
    · have hcond : flag = true ∨ 0 < r.rulepri := by simpa [cleared] using hclear
      simp [clearRule, hcond, hclear]
    · have hcond : ¬(flag = true ∨ 0 < r.rulepri) := by simpa [cleared] using hclear
      rw [clearRule, if_neg hcond]
      simp [hclear]

theorem odmAclListClearAll_eq (dal : Dal δ) {s : Acl δ} (h : AclInv s) (flag : Bool) :
    odmAclListClearAll dal s flag =
      { s with
        rules := s.rules.filter fun r => !cleared flag r
        prinum := 0
        tcnum := (s.rules.filter fun r => !cleared flag r).length
        dal := (s.rules.filter (cleared flag)).foldl (fun d r => dal.ctcDel d r.dalindex)
          s.dal } := by
  have hfew := countP_le_maxPri h.consistent.order h.consistent.bound
  have hsplit := List.length_eq_countP_add_countP (cleared flag) (l := s.rules)
  rw [odmAclListClearAll, foldl_clearRule dal flag s.rules { s with rules := [] }
    (a := 0) (b := (s.rules.filter fun r => !cleared flag r).length)]
  · simp
  · simpa using h.consistent.pris
  · show s.tcnum = _
    rw [h.consistent.total, hsplit, ← List.countP_eq_length_filter, Nat.add_comm]
    simp
  · show s.prinum < 256
    rw [h.consistent.pris]
    exact Nat.lt_of_le_of_lt hfew (by decide)
  · show s.tcnum < 65536
    rw [h.consistent.total]
    exact h.small

theorem odmAclListClearAll_inv (dal : Dal δ) {s : Acl δ} (h : AclInv s) (flag : Bool) :
    AclInv (odmAclListClearAll dal s flag) ∧ OrderKept s (odmAclListClearAll dal s flag) := by
  rw [odmAclListClearAll_eq dal h flag]
  have hsub : (s.rules.filter fun r => !cleared flag r).Sublist s.rules := List.filter_sublist
  refine ⟨⟨⟨?_, ?_, ?_, rfl⟩, ?_, ?_⟩, ?_⟩
  · intro r hr
    exact h.consistent.bound r (hsub.subset hr)
  · exact h.consistent.order.sublist hsub
  · symm
    rw [List.countP_eq_zero]
    intro r hr
    have hkeep := (List.mem_filter.mp hr).2
    simp only [cleared, Bool.not_eq_true', Bool.or_eq_false_iff] at hkeep
    simpa using hkeep.2
  · exact Nat.lt_of_le_of_lt hsub.length_le h.small
  · intro r hr
    exact h.fresh r (hsub.subset hr)
  · exact orderKept_of_sublist (hsub.map _)

/-! ### Runs -/

/-- The layer below takes the rule: `OdmAclListAdd` returns `NO_ERROR`. -/
def AddSucceeds (dal : Dal δ) (s : Acl δ) : AclOp → Prop
  | .add stClassCfg =>
    stClassCfg.rulePri ≤ aclMaxPri → (odmAclListAdd dal s stClassCfg).2 = noError
  | .del _ => True
  | .clearAll _ => True

/-- No rule without precedence is removed by number, unless a rule has precedence 1; and an
add leaves at most 65535 rules. -/
def AclGuard (s : Acl δ) : AclOp → Prop
  | .add stClassCfg => stClassCfg.rulePri ≤ aclMaxPri → s.rules.length < 65535 ∨
      (stClassCfg.rulePri ≠ 0 ∧ (∃ r ∈ s.rules, r.rulepri = stClassCfg.rulePri) ∧
        ∃ r ∈ s.rules, r.rulepri = aclMaxPri)
  | .del precedence => precedence = 0 → (∃ r ∈ s.rules, r.rulepri = 0) →
      ∃ r ∈ s.rules, r.rulepri = 1
  | .clearAll _ => True

theorem aclStep_zero (dal : Dal δ) {s : Acl δ} (h : AclInv s) {stClassCfg : ClsConfigInfo}
    (hzero : stClassCfg.rulePri = 0) :
    (AclConsistent (odmAclListAdd dal s stClassCfg).1 → s.rules.length < 65535) ∧
    (s.rules.length < 65535 → AclInv (odmAclListAdd dal s stClassCfg).1) ∧
    OrderKept s (odmAclListAdd dal s stClassCfg).1 := by
  rw [odmAclListAdd, if_neg (by omega), if_pos hzero]
  have hpri : (recorded (newRule s stClassCfg 0) (dal.ctcAdd s.dal stClassCfg)).rulepri = 0 := hzero
  have hlt := h.small
  refine ⟨?_, ?_, ?_⟩
  · intro hcons
    have htotal := hcons.total
    simp only [List.length_cons, incr16, h.consistent.total] at htotal
    omega
  · intro hroom
    refine ⟨⟨?_, ?_, ?_, ?_⟩, ?_, ?_⟩
    · intro r hr
      rcases List.mem_cons.mp hr with rfl | hr
      · omega
      · exact h.consistent.bound r hr
    · refine List.pairwise_cons.mpr ⟨?_, h.consistent.order⟩
      intro r _
      simp only [AclLt]
      omega
    · rw [List.countP_cons_of_neg (by simp [hpri])]
      exact h.consistent.pris
    · simp only [List.length_cons, incr16, h.consistent.total]
      omega
    · simp only [List.length_cons]
      omega
    · intro r hr
      rcases List.mem_cons.mp hr with rfl | hr
      · exact Nat.lt_succ_self _
      · exact Nat.lt_succ_of_lt (h.fresh r hr)
  · have hnot : s.allocated ∉ nodes s := by
      intro hmem
      obtain ⟨r, hr, heq⟩ := List.mem_map.mp hmem
      have := h.fresh r hr
      omega
    have hnodes : nodes (odmAclListAdd dal s stClassCfg).1 = s.allocated :: nodes s := by
      rw [odmAclListAdd, if_neg (by omega), if_pos hzero]
      rfl
    rw [odmAclListAdd, if_neg (by omega), if_pos hzero] at hnodes
    rw [OrderKept, hnodes, List.filter_cons_of_neg (by simpa using hnot)]
    exact List.filter_sublist

/-- One call: what keeps the list consistent, and that the order is kept. -/
theorem aclStep_spec (dal : Dal δ) {s : Acl δ} (h : AclInv s) {op : AclOp}
    (hok : AddSucceeds dal s op) :
    (AclConsistent (aclStep dal s op) → AclGuard s op) ∧
    (AclGuard s op → AclInv (aclStep dal s op)) ∧ OrderKept s (aclStep dal s op) := by
  cases op with
  | add stClassCfg =>
    by_cases hp : stClassCfg.rulePri ≤ aclMaxPri
    · by_cases hzero : stClassCfg.rulePri = 0
      · obtain ⟨hnec, hsuff, hkept⟩ := aclStep_zero dal h hzero
        refine ⟨fun hcons _ => .inl (hnec hcons), fun hguard => hsuff ?_, hkept⟩
        rcases hguard hp with hlt | ⟨hne, -⟩
        · exact hlt
        · exact absurd hzero hne
      · have hstatus : (listInsert dal s stClassCfg).2 = noError := by
          by_contra hne
          have hfail := hok hp
          rw [odmAclListAdd, if_neg (by omega), if_neg hzero] at hfail
          simp only [ne_eq, hne, not_false_eq_true, if_true] at hfail
        have hstep : aclStep dal s (.add stClassCfg) = (listInsert dal s stClassCfg).1 := by
          rw [aclStep, odmAclListAdd, if_neg (by omega), if_neg hzero]
          simp only [ne_eq, hstatus, not_true_eq_false, if_false]
        have hpos : 0 < stClassCfg.rulePri := Nat.pos_of_ne_zero hzero
        obtain ⟨hnec, hsuff, hkept⟩ := (gap_walkOf dal h.consistent.order
          h.consistent.bound hpos hp).fill (counted_walkOf dal h hpos hp) h hpos hp
          (recorded (newRule s stClassCfg noDalIndex)
            (dal.ctcAdd (walkOf dal s stClassCfg.rulePri).2.2.dal stClassCfg)) rfl rfl
          (listInsert dal s stClassCfg).1 rfl rfl rfl rfl
        rw [hstep]
        refine ⟨fun hcons _ => ?_, fun hguard => hsuff ?_, hkept⟩
        · rcases hnec hcons with hlt | hfull
          · exact .inl hlt
          · exact .inr ⟨hzero, hfull⟩
        · rcases hguard hp with hlt | ⟨-, hfull⟩
          · exact .inl hlt
          · exact .inr hfull
    · have hstep : aclStep dal s (.add stClassCfg) = s := by
        rw [aclStep, odmAclListAdd, if_pos (by omega)]
      rw [hstep]
      exact ⟨fun _ hle => absurd hle hp, fun _ => h, orderKept_of_sublist (List.Sublist.refl _)⟩
  | del precedence => exact odmAclListDel_spec dal h precedence
  | clearAll flag =>
    obtain ⟨hinv, hkept⟩ := odmAclListClearAll_inv dal h flag
    exact ⟨fun _ => trivial, fun _ => hinv, hkept⟩

/-- **The list.**  Whatever the layer below is, in runs in which it takes the rules the list
is consistent throughout and every call keeps the order exactly when no call removes a
rule without precedence by number (with no rule of precedence 1 to make up for it) and the
list never passes 65535 rules. -/
theorem acl_consistent_iff (dal : Dal δ) (d : δ) (ops : List AclOp)
    (hok : AllSteps (aclStep dal) (AddSucceeds dal) (aclInit d) ops) :
    (AllStates (aclStep dal) AclConsistent (aclInit d) ops ∧
      AllSteps (aclStep dal) (fun s op => OrderKept s (aclStep dal s op)) (aclInit d) ops) ↔
    AllSteps (aclStep dal) AclGuard (aclInit d) ops := by
  have hiff : AllStates (aclStep dal) AclConsistent (aclInit d) ops ↔
      AllSteps (aclStep dal) AclGuard (aclInit d) ops :=
    allStates_iff_allSteps (aclStep dal) AclInv (fun _ h => h.consistent)
      (fun s op h hs hg => (aclStep_spec dal h hs).2.1 hg)
      (fun s op h hs hcons => (aclStep_spec dal h hs).1 hcons) (aclInv_init d) hok
  constructor
  · rintro ⟨hall, -⟩
    exact hiff.mp hall
  · intro hguard
    refine ⟨hiff.mpr hguard, ?_⟩
    have hboth : AllSteps (aclStep dal) (fun s op => AddSucceeds dal s op ∧ AclGuard s op)
        (aclInit d) ops := hok.and hguard
    exact allSteps_of_invariant (aclStep dal) AclInv
      (fun s op h hs => (aclStep_spec dal h hs.1).2.1 hs.2)
      (fun s op h hs => (aclStep_spec dal h hs.1).2.2) (aclInv_init d) hboth

/-- A layer that takes every rule. -/
def takesAll : Dal Unit := ⟨fun _ _ => ⟨(), 0, some 0, none⟩, fun _ _ => (), fun _ _ _ => ((), 0)⟩

/-- A rule of precedence `p` that matches every packet. -/
def anyPacket (p : Nat) : ClsConfigInfo :=
  ⟨p, 0, 0xFF, 0xFF, false, false, 0, false, false, 0, 0, fun _ => 0, fun _ => 0⟩

/-- Two rules at precedence 2, one without precedence, and a removal. -/
def fourOps : List AclOp :=
  [.add (anyPacket 2), .add (anyPacket 2), .add (anyPacket 0), .del 2]

theorem four_ops_consistent :
    (aclStep takesAll (run (aclStep takesAll) (aclInit ()) (fourOps.take 2)) (.add (anyPacket 0))
      |>.rules.map fun r => (r.node, r.rulepri)) = [(2, 0), (1, 2), (0, 3)] ∧
    AllStates (aclStep takesAll) AclConsistent (aclInit ()) fourOps := by
  have hok : AllSteps (aclStep takesAll) (AddSucceeds takesAll) (aclInit ()) fourOps := by
    refine ⟨?_, ?_, ?_, trivial, trivial⟩ <;> exact fun _ => by decide
  have hguard : AllSteps (aclStep takesAll) AclGuard (aclInit ()) fourOps := by
    refine ⟨?_, ?_, ?_, ?_, trivial⟩
    · exact fun _ => .inl (by decide)
    · exact fun _ => .inl (by decide)
    · exact fun _ => .inl (by decide)
    · intro hzero
      cases hzero
  exact ⟨by decide, ((acl_consistent_iff takesAll () fourOps hok).mpr hguard).1⟩

/-- A rule without precedence comes and goes: the count of the precedences goes from 0 to
255. -/
theorem del_zero_inconsistent :
    AllSteps (aclStep takesAll) (AddSucceeds takesAll) (aclInit ()) [.add (anyPacket 0), .del 0] ∧
    (run (aclStep takesAll) (aclInit ()) [.add (anyPacket 0), .del 0]).prinum = 255 ∧
    ¬AllStates (aclStep takesAll) AclConsistent (aclInit ()) [.add (anyPacket 0), .del 0] := by
  refine ⟨⟨fun _ => by decide, trivial, trivial⟩, by decide, ?_⟩
  rintro ⟨-, -, hlast⟩
  have hpris := hlast.pris
  exact absurd hpris (by decide)

end Opconn.Classify
