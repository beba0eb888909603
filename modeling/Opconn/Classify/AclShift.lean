import Opconn.Classify.AclNumbers

/-!
# What an add does to the other rules

`OdmAclListAdd` at a precedence that is taken moves every rule from there on down by one, across
free precedences, and discards the rule that had the last one.  When the layer below refuses the
rule, `OdmAclListDel` takes it out again and moves every rule behind it up, also where none had
been moved down.
-/

namespace Opconn.Classify

open Runs

variable {δ : Type}

/-- A rule has the precedence. -/
def Occupied (s : Acl δ) (q : Nat) : Prop := ∃ r ∈ s.rules, r.rulepri = q

instance (s : Acl δ) (q : Nat) : Decidable (Occupied s q) :=
  inferInstanceAs (Decidable (∃ r ∈ s.rules, r.rulepri = q))

/-- All precedences have a rule. -/
def AllOccupied (s : Acl δ) : Prop := ∀ q, 0 < q → q ≤ aclMaxPri → Occupied s q

/-- What is asked of an add at precedence `p`: a rule is discarded only when all precedences have
one, and only rules from `p` up to the next free precedence above it get another one, none of
them behind that. -/
structure ShiftKept (s s' : Acl δ) (p : Nat) : Prop where
  discards : ∀ r ∈ s.rules, r.node ∉ nodes s' → AllOccupied s
  renumbers : ∀ r ∈ s.rules, ∀ r' ∈ s'.rules, r'.node = r.node → r'.rulepri ≠ r.rulepri →
    p ≤ r.rulepri ∧ ∀ q, p < q → q ≤ aclMaxPri → ¬Occupied s q → r.rulepri ≤ q ∧ r'.rulepri ≤ q

/-- The layer below takes the rule: its answers to the last rule that was moved and to the new
one add up to no error. -/
def TakenBelow (dal : Dal δ) (s : Acl δ) (c : ClsConfigInfo) : Prop :=
  let w := (walkOf dal s c.rulePri).2.2
  w.status + (dal.ctcAdd w.dal c).status = noError

instance (dal : Dal δ) (s : Acl δ) (c : ClsConfigInfo) : Decidable (TakenBelow dal s c) :=
  inferInstanceAs (Decidable (_ = noError))

/-! ### The fate of a rule -/

/-- Where records are kept, changed and lost, and one may be new: what becomes of a record. -/
theorem fate_of_perm {s s' : Acl δ} (h : AclOrdered s) {kept lost new : List AclRule}
    {g : AclRule → AclRule} (hrules : s.rules.Perm (kept ++ lost))
    (hrules' : s'.rules.Perm (kept.map g ++ new)) (hnode : ∀ r, (g r).node = r.node)
    (hnew : ∀ r ∈ new, r.node = s.allocated) {r : AclRule} (hr : r ∈ s.rules) :
    (r.node ∉ nodes s' ↔ r ∈ lost) ∧ ∀ r' ∈ s'.rules, r'.node = r.node → r' = g r := by
  have hdistinct : ((kept ++ lost).map fun r => r.node).Nodup :=
    (hrules.map _).nodup_iff.mp h.distinct
  have hinj : ∀ a ∈ kept ++ lost, a.node = r.node → a = r := by
    intro a ha heq
    exact List.inj_on_of_nodup_map hdistinct ha (hrules.mem_iff.mp hr) heq
  -- a record of the same address comes from the record itself, among those kept
  have hfrom : ∀ r' ∈ s'.rules, r'.node = r.node → r ∈ kept ∧ r' = g r := by
    intro r' hr' heq
    rcases List.mem_append.mp (hrules'.mem_iff.mp hr') with hold | hfresh
    · obtain ⟨a, ha, rfl⟩ := List.mem_map.mp hold
      obtain rfl := hinj a (List.mem_append_left _ ha) ((hnode a).symm.trans heq)
      exact ⟨ha, rfl⟩
    · have hlt := h.fresh r hr
      rw [hnew r' hfresh] at heq
      omega
  refine ⟨⟨?_, ?_⟩, fun r' hr' heq => (hfrom r' hr' heq).2⟩
  · intro hgone
    rcases List.mem_append.mp (hrules.mem_iff.mp hr) with hkept | hlost
    · have hmem : g r ∈ s'.rules :=
        hrules'.mem_iff.mpr (List.mem_append_left _ (List.mem_map_of_mem hkept))
      exact absurd (hnode r ▸ List.mem_map_of_mem hmem) hgone
    · exact hlost
  · intro hlost hstays
    obtain ⟨r', hr', heq⟩ := List.mem_map.mp hstays
    obtain ⟨hkept, -⟩ := hfrom r' hr' heq
    rw [List.map_append, List.nodup_append] at hdistinct
    exact hdistinct.2.2 _ (List.mem_map_of_mem hkept) _ (List.mem_map_of_mem hlost) rfl

/-- What a walk does to the rules from the precedence on that it keeps. -/
def movedDown (s : Acl δ) (p : Nat) : AclRule → AclRule :=
  if Occupied s p then raised else id

theorem node_movedDown (s : Acl δ) (p : Nat) (r : AclRule) :
    (movedDown s p r).node = r.node := by
  rw [movedDown]
  split <;> rfl

theorem rulepri_movedDown (s : Acl δ) (p : Nat) (r : AclRule) :
    (movedDown s p r).rulepri = if Occupied s p then r.rulepri + 1 else r.rulepri := by
  rw [movedDown]
  split <;> rfl

/-- The walk keeps all rules but the one it discards. -/
theorem walkOf_shape (dal : Dal δ) {s : Acl δ} (h : AclOrdered s) {p : Nat} (hpos : 0 < p)
    (hp : p ≤ aclMaxPri) :
    ∃ lo kept lost, s.rules = lo ++ kept ++ lost ∧ (∀ r ∈ lo, r.rulepri < p) ∧
      (∀ r ∈ kept, p ≤ r.rulepri) ∧
      (∀ r ∈ s.rules, r ∈ lost ↔ Occupied s p ∧ r.rulepri = aclMaxPri) ∧
      (walkOf dal s p).1 = lo ∧ (walkOf dal s p).2.1 = kept.map (movedDown s p) := by
  obtain ⟨lo, hi, hrules, hlo, hhi, hcases⟩ := walkOf_cases dal h.order h.bound hpos hp
  rcases hcases with ⟨hfree, heq⟩ | ⟨hrule, hno, heq⟩ | ⟨init, tail, rfl, htail, hrule, hno, heq⟩
  · have hnot : ¬Occupied s p := fun ⟨r, hr, hpri⟩ => hfree r hr hpri
    refine ⟨lo, hi, [], by rw [hrules, List.append_nil], hlo, hhi, ?_, by rw [heq], ?_⟩
    · exact fun r _ => iff_of_false List.not_mem_nil fun hboth => hnot hboth.1
    · rw [heq, movedDown, if_neg hnot, List.map_id]
  · have hocc : Occupied s p := hrule
    refine ⟨lo, hi, [], by rw [hrules, List.append_nil], hlo, hhi, ?_, by rw [heq], ?_⟩
    · exact fun r hr => iff_of_false List.not_mem_nil fun hboth => hno r hr hboth.2
    · rw [heq, movedDown, if_pos hocc]
  · have hocc : Occupied s p := hrule
    refine ⟨lo, init, [tail], by rw [hrules, List.append_assoc], hlo,
      fun r hr => hhi r (List.mem_append_left _ hr), ?_, by rw [heq], ?_⟩
    · intro r hr
      rw [List.mem_singleton]
      refine ⟨fun hlast => ⟨hocc, hlast ▸ htail⟩, ?_⟩
      rintro ⟨-, hlast⟩
      rw [hrules, List.mem_append, List.mem_append, List.mem_singleton] at hr
      rcases hr with hr | hr | hr
      · have hlt := hlo r hr
        omega
      · exact absurd hlast (hno r hr)
      · exact hr
    · rw [heq, movedDown, if_pos hocc]

/-- What an add does to the rules behind the new one: when the rule is refused they are moved up
again. -/
def settled (dal : Dal δ) (s : Acl δ) (c : ClsConfigInfo) (r : AclRule) : AclRule :=
  if r.rulepri < c.rulePri then r
  else if TakenBelow dal s c then movedDown s c.rulePri r
  else lowered (movedDown s c.rulePri r)

theorem node_settled (dal : Dal δ) (s : Acl δ) (c : ClsConfigInfo) (r : AclRule) :
    (settled dal s c r).node = r.node := by
  rw [settled]
  split
  · rfl
  · split
    · exact node_movedDown s c.rulePri r
    · exact (node_lowered _).trans (node_movedDown s c.rulePri r)

/-- The precedence that a rule of precedence `n` has after an add. -/
def precedenceAfter (dal : Dal δ) (s : Acl δ) (c : ClsConfigInfo) (n : Nat) : Nat :=
  if n < c.rulePri then n
  else if TakenBelow dal s c then if Occupied s c.rulePri then n + 1 else n
  else if Occupied s c.rulePri then n else n - 1

theorem rulepri_settled (dal : Dal δ) (s : Acl δ) (c : ClsConfigInfo) (r : AclRule) :
    (settled dal s c r).rulepri = precedenceAfter dal s c r.rulepri := by
  rw [settled, precedenceAfter]
  split
  · rfl
  · split
    · exact rulepri_movedDown s c.rulePri r
    · rw [rulepri_lowered, rulepri_movedDown]
      split <;> rfl

/-- The rules after an add: those that the walk keeps, changed, and a rule that is taken. -/
theorem rules_odmAclListAdd (dal : Dal δ) {s : Acl δ} (h : AclOrdered s) {c : ClsConfigInfo}
    (hpos : 0 < c.rulePri) (hp : c.rulePri ≤ aclMaxPri) :
    ∃ kept lost new, s.rules.Perm (kept ++ lost) ∧
      (∀ r ∈ s.rules, r ∈ lost ↔ Occupied s c.rulePri ∧ r.rulepri = aclMaxPri) ∧
      (∀ r ∈ new, r.node = s.allocated) ∧
      (odmAclListAdd dal s c).1.rules.Perm (kept.map (settled dal s c) ++ new) := by
  obtain ⟨lo, kept, lost, hrules, hlo, hkept, hlost, hfront, hback⟩ := walkOf_shape dal h hpos hp
  let new := recorded (newRule s c noDalIndex) (dal.ctcAdd (walkOf dal s c.rulePri).2.2.dal c)
  have hinserted : (listInsert dal s c).1.rules =
      lo ++ new :: kept.map (movedDown s c.rulePri) := by
    rw [← hback, ← hfront]
    rfl
  have hstatus : (listInsert dal s c).2 = noError ↔ TakenBelow dal s c := Iff.rfl
  have hlow : lo.map (settled dal s c) = lo := by
    have hid : ∀ r ∈ lo, settled dal s c r = r := fun r hr => if_pos (hlo r hr)
    exact (List.map_congr_left hid).trans (List.map_id lo)
  by_cases htaken : TakenBelow dal s c
  · have hdone : odmAclListAdd dal s c = ((listInsert dal s c).1, noError) := by
      rw [odmAclListAdd, if_neg (Nat.not_lt_of_le hp), if_neg (Nat.ne_of_gt hpos),
        if_neg (not_not_intro (hstatus.mpr htaken))]
    have hhigh : kept.map (settled dal s c) = kept.map (movedDown s c.rulePri) := by
      apply List.map_congr_left
      intro r hr
      rw [settled, if_neg (Nat.not_lt_of_le (hkept r hr)), if_pos htaken]
    refine ⟨lo ++ kept, lost, [new], List.Perm.of_eq hrules, hlost, ?_, ?_⟩
    · intro r hr
      rw [List.mem_singleton.mp hr]
      rfl
    · rw [hdone, hinserted, List.map_append, hlow, hhigh]
      exact List.perm_middle.trans (List.perm_append_singleton ..).symm
  · have hrefused : ¬(listInsert dal s c).2 = noError := mt hstatus.mp htaken
    have hdel := odmAclListDel_found dal hp hinserted rfl fun r hr => Nat.ne_of_lt (hlo r hr)
    have hdone : (odmAclListAdd dal s c).1.rules =
        lo ++ (kept.map (movedDown s c.rulePri)).map lowered := by
      rw [odmAclListAdd, if_neg (Nat.not_lt_of_le hp), if_neg (Nat.ne_of_gt hpos)]
      simp only [if_pos hrefused, hdel]
    have hhigh : kept.map (settled dal s c) =
        (kept.map (movedDown s c.rulePri)).map lowered := by
      rw [List.map_map]
      apply List.map_congr_left
      intro r hr
      rw [settled, if_neg (Nat.not_lt_of_le (hkept r hr)), if_neg htaken]
      rfl
    refine ⟨lo ++ kept, lost, [], List.Perm.of_eq hrules, hlost, ?_, ?_⟩
    · exact fun r hr => absurd hr List.not_mem_nil
    · rw [hdone, List.map_append, hlow, hhigh, List.append_nil]

/-- **One add**, whatever the layer below answers: what becomes of each rule of the list. -/
theorem odmAclListAdd_fate (dal : Dal δ) {s : Acl δ} (h : AclOrdered s) {c : ClsConfigInfo}
    (hpos : 0 < c.rulePri) (hp : c.rulePri ≤ aclMaxPri) {r : AclRule} (hr : r ∈ s.rules) :
    (r.node ∉ nodes (odmAclListAdd dal s c).1 ↔
        Occupied s c.rulePri ∧ r.rulepri = aclMaxPri) ∧
      ∀ r' ∈ (odmAclListAdd dal s c).1.rules, r'.node = r.node →
        r'.rulepri = precedenceAfter dal s c r.rulepri := by
  obtain ⟨kept, lost, new, hrules, hlost, hnew, hrules'⟩ := rules_odmAclListAdd dal h hpos hp
  obtain ⟨hgone, hsame⟩ := fate_of_perm h hrules hrules' (node_settled dal s c) hnew hr
  refine ⟨hgone.trans (hlost r hr), ?_⟩
  intro r' hr' hnode
  rw [hsame r' hr' hnode]
  exact rulepri_settled dal s c r

/-! ### When no more than needed moves -/

/-- No rule lies behind the next free precedence above `p`. -/
def NoneBeyond (s : Acl δ) (p : Nat) : Prop :=
  ∀ q, p < q → q ≤ aclMaxPri → ¬Occupied s q → ∀ r ∈ s.rules, r.rulepri ≤ q

/-- When an add keeps what is asked of it.  Rules move when the precedence has a rule and the new
one is taken, or when it has none and the new one is refused. -/
def ShiftGuard (dal : Dal δ) (s : Acl δ) (c : ClsConfigInfo) : Prop :=
  AllOccupied s ∨
    (Occupied s c.rulePri → ¬Occupied s aclMaxPri) ∧
      ((TakenBelow dal s c ↔ Occupied s c.rulePri) → NoneBeyond s c.rulePri)

/-- The precedences that change. -/
theorem precedenceAfter_ne_iff (dal : Dal δ) (s : Acl δ) (c : ClsConfigInfo) {n : Nat}
    (hn : 0 < n) :
    precedenceAfter dal s c n ≠ n ↔
      c.rulePri ≤ n ∧ (TakenBelow dal s c ↔ Occupied s c.rulePri) := by
  rw [precedenceAfter]
  by_cases hlt : n < c.rulePri
  · rw [if_pos hlt]
    exact iff_of_false (fun hne => hne rfl) fun hge => absurd hlt (Nat.not_lt_of_le hge.1)
  · have hge : c.rulePri ≤ n := Nat.le_of_not_lt hlt
    have hdown : n - 1 ≠ n := by omega
    rw [if_neg hlt]
    by_cases htaken : TakenBelow dal s c <;> by_cases hocc : Occupied s c.rulePri
    · simp [htaken, hocc, hge]
    · simp [htaken, hocc]
    · simp [htaken, hocc]
    · simp [htaken, hocc, hge, hdown]

theorem precedenceAfter_le (dal : Dal δ) (s : Acl δ) (c : ClsConfigInfo) (n : Nat) :
    precedenceAfter dal s c n ≤ n + 1 := by
  rw [precedenceAfter]
  split
  · exact Nat.le_succ n
  · split <;> split <;> omega

/-- One add on any list in order. -/
theorem shiftKept_iff (dal : Dal δ) {s : Acl δ} (h : AclOrdered s) {c : ClsConfigInfo}
    (hpos : 0 < c.rulePri) (hp : c.rulePri ≤ aclMaxPri) :
    ShiftKept s (odmAclListAdd dal s c).1 c.rulePri ↔ ShiftGuard dal s c := by
  constructor
  · intro hkept
    by_cases hall : AllOccupied s
    · exact .inl hall
    · have hlast : Occupied s c.rulePri → ¬Occupied s aclMaxPri := by
        rintro hocc ⟨r, hr, hpri⟩
        exact hall (hkept.discards r hr ((odmAclListAdd_fate dal h hpos hp hr).1.mpr ⟨hocc, hpri⟩))
      refine .inr ⟨hlast, ?_⟩
      intro hmoves q hq hmax hfree r hr
      by_cases hbelow : r.rulepri < c.rulePri
      · omega
      · obtain ⟨hgone, hsame⟩ := odmAclListAdd_fate dal h hpos hp hr
        have hstays : r.node ∈ nodes (odmAclListAdd dal s c).1 := by
          by_contra hno
          obtain ⟨hocc, hpri⟩ := hgone.mp hno
          exact hlast hocc ⟨r, hr, hpri⟩
        obtain ⟨r', hr', hnode⟩ := List.mem_map.mp hstays
        have hne : r'.rulepri ≠ r.rulepri := by
          rw [hsame r' hr' hnode]
          exact (precedenceAfter_ne_iff dal s c (by omega)).mpr ⟨Nat.le_of_not_lt hbelow, hmoves⟩
        exact ((hkept.renumbers r hr r' hr' hnode hne).2 q hq hmax hfree).1
  · intro hguard
    constructor
    · intro r hr hgone
      obtain ⟨hocc, hpri⟩ := (odmAclListAdd_fate dal h hpos hp hr).1.mp hgone
      rcases hguard with hall | ⟨hlast, -⟩
      · exact hall
      · exact absurd ⟨r, hr, hpri⟩ (hlast hocc)
    · intro r hr r' hr' hnode hne
      have hafter := (odmAclListAdd_fate dal h hpos hp hr).2 r' hr' hnode
      have hrpos : 0 < r.rulepri := by
        by_contra hzero
        apply hne
        rw [hafter, precedenceAfter, if_pos (by omega)]
      rw [hafter] at hne
      obtain ⟨hge, hmoves⟩ := (precedenceAfter_ne_iff dal s c hrpos).mp hne
      refine ⟨hge, ?_⟩
      intro q hq hmax hfree
      rcases hguard with hall | ⟨-, hnone⟩
      · exact absurd (hall q (by omega) hmax) hfree
      · have hle := hnone hmoves q hq hmax hfree r hr
        have hother : r.rulepri ≠ q := fun heq => hfree ⟨r, hr, heq⟩
        have hnext := precedenceAfter_le dal s c r.rulepri
        omega

/-- **When an add moves no more than needed.**  Whatever the layer below is, in every list that
calls reach: an add at a precedence from 1 to 8 discards a rule only from a full list and moves
rules only up to the next free precedence exactly when all precedences have a rule; or, where the
precedence has one, the last has none, and no rule that moves lies behind a free precedence. -/
theorem add_shift_kept_iff (dal : Dal δ) (d : δ) (ops : List AclOp) (c : ClsConfigInfo)
    (hpos : 0 < c.rulePri) (hp : c.rulePri ≤ aclMaxPri) :
    let s := run (aclStep dal) (aclInit d) ops
    ShiftKept s (odmAclListAdd dal s c).1 c.rulePri ↔ ShiftGuard dal s c :=
  shiftKept_iff dal (aclOrdered_run dal d ops) hpos hp

/-- Rules at 2 and 3, and one more at 2. -/
theorem add_shift_kept_block :
    let s := run (aclStep takesAll) (aclInit ()) [.add (anyPacket 2), .add (anyPacket 2)]
    ShiftKept s (odmAclListAdd takesAll s (anyPacket 2)).1 2 := by
  refine (add_shift_kept_iff takesAll () [.add (anyPacket 2), .add (anyPacket 2)] (anyPacket 2)
    (by decide) (by decide)).mpr (.inr ⟨fun _ => by decide, ?_⟩)
  intro _ q hq hmax hfree
  have hcases : q = 3 ∨ 4 ≤ q := by
    have h2 : 2 < q := hq
    omega
  rcases hcases with rfl | hge
  · exact absurd (by decide) hfree
  · have hthree : ∀ r ∈ (run (aclStep takesAll) (aclInit ())
        [.add (anyPacket 2), .add (anyPacket 2)]).rules, r.rulepri ≤ 3 := by decide
    intro r hr
    have := hthree r hr
    omega

/-- Rules at 2 and 8: one more at 2 discards the rule at 8, with six precedences free. -/
theorem add_discards_from_gap :
    ∃ (ops : List AclOp) (c : ClsConfigInfo), 0 < c.rulePri ∧ c.rulePri ≤ aclMaxPri ∧
      ¬ShiftKept (run (aclStep takesAll) (aclInit ()) ops)
        (odmAclListAdd takesAll (run (aclStep takesAll) (aclInit ()) ops) c).1 c.rulePri := by
  refine ⟨[.add (anyPacket 2), .add (anyPacket 8)], anyPacket 2, by decide, by decide, ?_⟩
  intro hkept
  have hguard := (shiftKept_iff takesAll (aclOrdered_run takesAll () _) (by decide)
    (by decide)).mp hkept
  rcases hguard with hall | ⟨hlast, -⟩
  · exact absurd (hall 1 (by decide) (by decide)) (by decide)
  · exact hlast (by decide) (by decide)

end Opconn.Classify
