import Mathlib.Tactic.ByContra
import Mathlib.Tactic.Tauto
import Opconn.Oam.CtcWalk

/-!
# What a request spells

A dispatch loop takes a request apart into TLVs by its own tables.  This module
says what that means of the bytes alone: a TLV is a string of bytes that a round
of the loop steps over exactly, and a request spells a list of TLVs when it
starts with their bytes.  A round only looks at bytes it steps over, so TLVs can
be told one by one, and every place a loop comes round to lies behind a list of
TLVs the request spells.
-/

namespace Opconn.Oam

/-! ### Bytes of a buffer -/

@[simp] theorem length_bytesAt (buf : Buffer) (offset count : Nat) :
    (bytesAt buf offset count).length = count := by
  simp [bytesAt]

theorem byteAt_bytesAt (buf : Buffer) (offset count : Nat) {i : Nat} (h : i < count) :
    byteAt (bytesAt buf offset count) i = byteAt buf (offset + i) := by
  simp [byteAt, bytesAt, List.getD_eq_getElem?_getD, h]

theorem bytesAt_add (buf : Buffer) (offset m n : Nat) :
    bytesAt buf offset (m + n) = bytesAt buf offset m ++ bytesAt buf (offset + m) n := by
  simp only [bytesAt, List.range_add, List.map_append, List.map_map]
  congr 2
  funext i
  simp only [Function.comp_apply, Nat.add_assoc]

/-- A buffer that starts with `front` reads as `front` there. -/
theorem bytesAt_append_left (front rest : Buffer) :
    bytesAt (front ++ rest) 0 front.length = front := by
  apply List.ext_getElem
  · simp
  · intro i hi hi'
    simp [bytesAt, byteAt, List.getD_eq_getElem?_getD, List.getElem?_append_left hi', hi']

namespace Ctc

/-! ### Rules -/

theorem mem_of_lookup {table : List (UInt16 × Rule)} {leaf : UInt16} {rule : Rule}
    (h : table.lookup leaf = some rule) : (leaf, rule) ∈ table := by
  obtain ⟨front, back, rfl, -⟩ := List.lookup_eq_some_iff.mp h
  simp

/-- A case that moves the cursor at all moves it over the descriptor. -/
def Rule.Spans : Rule → Prop
  | .fixed n => oamVariableDescriptorSize ≤ n
  | _ => True

instance : DecidablePred Rule.Spans
  | .fixed n => inferInstanceAs (Decidable (oamVariableDescriptorSize ≤ n))
  | .width | .mcastSwitch | .mcastControl | .serviceSla => inferInstanceAs (Decidable True)

theorem attribs_span : ∀ w : Walker, ∀ e ∈ w.attribs, e.2.Spans := by
  intro w
  cases w <;> decide

theorem actions_span : ∀ w : Walker, ∀ e ∈ w.actions, e.2.Spans := by
  intro w
  cases w <;> decide

theorem Rule.three_le_advance {rule : Rule} (h : rule.Spans) (p : Ptr)
    (hpos : 0 < rule.advance p) : 3 ≤ rule.advance p := by
  cases rule with
  | fixed n => exact h
  | width => simp only [Rule.advance]; omega
  | mcastSwitch => simp [Rule.advance]
  | mcastControl => simp only [Rule.advance]; split <;> omega
  | serviceSla =>
    simp only [Rule.advance] at hpos ⊢
    split at hpos
    · rw [if_pos ‹_›]; omega
    · rw [if_neg ‹_›]
      split at hpos
      · rw [if_pos ‹_›]; omega
      · omega

/-- A rule reads only bytes that it steps over. -/
theorem Rule.congr {rule : Rule} {p q : Ptr} (hpos : 0 < rule.advance p)
    (h : ∀ i < rule.advance p, p i = q i) :
    rule.advance q = rule.advance p ∧ rule.calls q = rule.calls p := by
  cases rule with
  | fixed n => exact ⟨rfl, rfl⟩
  | width =>
    have h3 : p 3 = q 3 := h 3 (by simp only [Rule.advance]; omega)
    simp only [Rule.advance, Rule.calls, h3, and_self]
  | mcastSwitch =>
    have h4 : p 4 = q 4 := h 4 (by simp only [Rule.advance]; omega)
    simp only [Rule.advance, Rule.calls, h4, and_self]
  | mcastControl =>
    have h3 : p 3 = q 3 := h 3 (by simp only [Rule.advance]; split <;> omega)
    refine ⟨?_, rfl⟩
    simp only [Rule.advance] at h ⊢
    rw [← h3]
    split
    · rfl
    · rw [if_neg ‹_›] at h
      rw [h 6 (by omega)]
  | serviceSla =>
    refine ⟨?_, rfl⟩
    simp only [Rule.advance] at h hpos ⊢
    by_cases h0 : p 4 = 0
    · rw [if_pos h0] at h ⊢
      rw [if_pos ((h 4 (by omega)).symm.trans h0)]
    · rw [if_neg h0] at h hpos ⊢
      by_cases h1 : p 4 = 1
      · rw [if_pos h1] at h ⊢
        have h4 : q 4 = 1 := (h 4 (by omega)).symm.trans h1
        rw [if_neg (by rw [h4]; decide), if_pos h4, h 11 (by omega)]
      · rw [if_neg h1] at hpos
        omega

/-! ### Items -/

theorem three_le_unknownAdvance (w : Walker) : 3 ≤ w.unknownAdvance := by
  cases w <;> decide

theorem Ptr.leaf_congr {p q : Ptr} (h1 : p 1 = q 1) (h2 : p 2 = q 2) : q.leaf = p.leaf := by
  simp only [Ptr.leaf, h1, h2]

theorem outcome_leafItem_of_some {table : List (UInt16 × Rule)} {unknown : Nat} {p : Ptr}
    {rule : Rule} (h : table.lookup p.leaf = some rule) :
    (leafItem table unknown p).outcome = .inl (rule.advance p) := by
  simp only [leafItem, h]
  split <;> rfl

theorem leafItem_of_none {table : List (UInt16 × Rule)} {unknown : Nat} {p : Ptr}
    (h : table.lookup p.leaf = none) : leafItem table unknown p = .unsupported unknown := by
  simp only [leafItem, h]

theorem three_le_of_outcome {table : List (UInt16 × Rule)} {unknown n : Nat} {p : Ptr}
    (htable : ∀ e ∈ table, e.2.Spans) (hunknown : 3 ≤ unknown)
    (hn : (leafItem table unknown p).outcome = .inl n) (hpos : 0 < n) : 3 ≤ n := by
  rcases hl : table.lookup p.leaf with _ | rule
  · rw [leafItem_of_none hl] at hn
    have hspan : unknown = n := Sum.inl.inj hn
    omega
  · rw [outcome_leafItem_of_some hl] at hn
    have hspan : rule.advance p = n := Sum.inl.inj hn
    subst hspan
    exact Rule.three_le_advance (htable _ (mem_of_lookup hl)) p hpos

theorem leafItem_congr {table : List (UInt16 × Rule)} {unknown n : Nat} {p q : Ptr}
    (htable : ∀ e ∈ table, e.2.Spans) (hunknown : 3 ≤ unknown)
    (hn : (leafItem table unknown p).outcome = .inl n) (hpos : 0 < n)
    (h : ∀ i < n, p i = q i) : leafItem table unknown q = leafItem table unknown p := by
  have hthree := three_le_of_outcome htable hunknown hn hpos
  have hleaf := Ptr.leaf_congr (h 1 (by omega)) (h 2 (by omega))
  rcases hl : table.lookup p.leaf with _ | rule
  · simp only [leafItem, hleaf, hl]
  · rw [outcome_leafItem_of_some hl] at hn
    have hspan : rule.advance p = n := Sum.inl.inj hn
    subst hspan
    obtain ⟨hadv, hcalls⟩ := Rule.congr hpos h
    simp only [leafItem, hleaf, hl, hadv, hcalls]

theorem actionItem_congr {w : Walker} {n : Nat} {p q : Ptr}
    (hn : (actionItem w p).outcome = .inl n) (hpos : 0 < n) (h : ∀ i < n, p i = q i) :
    actionItem w q = actionItem w p := by
  by_cases hreset : p.leaf = oamActionResetOnu
  · simp only [actionItem, if_pos hreset, Item.outcome, reduceCtorEq] at hn
  · simp only [actionItem, if_neg hreset] at hn ⊢
    have hitem := leafItem_congr (actions_span w) (three_le_unknownAdvance w) hn hpos h
    have hthree : 3 ≤ n := three_le_of_outcome (actions_span w) (three_le_unknownAdvance w) hn hpos
    have hleaf := Ptr.leaf_congr (h 1 (by omega)) (h 2 (by omega))
    rw [hleaf, if_neg hreset, hitem]

section ItemOf

variable {board : Board} {w : Walker} {p : Ptr}

theorem item_of_instance20 (h : p 0 = oamBranchInstanceV20) :
    item board w p =
      if w.isV20 then .instance20 (instanceRefused board w (p 4)) else .handover := by
  simp only [item, if_pos h]

theorem item_of_instance21 (h : p 0 = oamBranchInstanceV21) :
    item board w p = if w.isV20 then .stop else .instance21 := by
  simp only [item]
  rw [if_neg (by rw [h]; decide), if_pos h]

theorem item_of_attrib (h : AttribBranch (p 0)) :
    item board w p = leafItem w.attribs w.unknownAdvance p := by
  simp only [item]
  rw [if_neg (by rcases h with h | h <;> rw [h] <;> decide),
    if_neg (by rcases h with h | h <;> rw [h] <;> decide), if_pos h]

theorem item_of_action (h : ActionBranch (p 0)) :
    item board w p = if w.isSet then actionItem w p else .stop := by
  simp only [item]
  rw [if_neg (by rcases h with h | h <;> rw [h] <;> decide),
    if_neg (by rcases h with h | h <;> rw [h] <;> decide),
    if_neg (by rcases h with h | h <;> rw [h] <;> decide)]
  by_cases hset : w.isSet
  · rw [if_pos ⟨h, hset⟩, if_pos hset]
  · rw [if_neg (fun hc => hset hc.2), if_neg hset]

theorem item_of_other (h20 : p 0 ≠ oamBranchInstanceV20) (h21 : p 0 ≠ oamBranchInstanceV21)
    (hattrib : ¬ AttribBranch (p 0)) (haction : ¬ ActionBranch (p 0)) :
    item board w p = .stop := by
  simp only [item]
  rw [if_neg h20, if_neg h21, if_neg hattrib, if_neg (fun hc => haction hc.1)]

theorem branch_cases (branch : UInt8) :
    branch = oamBranchInstanceV20 ∨ branch = oamBranchInstanceV21 ∨ AttribBranch branch ∨
      ActionBranch branch ∨ (branch ≠ oamBranchInstanceV20 ∧ branch ≠ oamBranchInstanceV21 ∧
        ¬ AttribBranch branch ∧ ¬ ActionBranch branch) := by
  tauto

end ItemOf

/-- **A round looks only at bytes it steps over.** -/
theorem item_congr {board : Board} {w : Walker} {n : Nat} {p q : Ptr}
    (hn : (item board w p).outcome = .inl n) (hpos : 0 < n) (h : ∀ i < n, p i = q i) :
    item board w q = item board w p := by
  have h0 : q 0 = p 0 := (h 0 hpos).symm
  rcases branch_cases (p 0) with hb | hb | hb | hb | ⟨h20, h21, hattrib, haction⟩
  · rw [item_of_instance20 hb] at hn
    rw [item_of_instance20 hb, item_of_instance20 (h0.trans hb)]
    split at hn
    · rcases hr : instanceRefused board w (p 4)
      · rw [hr] at hn
        have hfive : oamInstanceTlv20Size = n := Sum.inl.inj hn
        simp only [oamInstanceTlv20Size] at hfive
        rw [if_pos ‹_›, if_pos ‹_›, ← h 4 (by omega), hr]
      · rw [hr] at hn
        simp only [Item.outcome, reduceCtorEq] at hn
    · simp only [Item.outcome, reduceCtorEq] at hn
  · rw [item_of_instance21 hb, item_of_instance21 (h0.trans hb)]
  · rw [item_of_attrib hb] at hn
    rw [item_of_attrib hb, item_of_attrib (by rw [h0]; exact hb)]
    exact leafItem_congr (attribs_span w) (three_le_unknownAdvance w) hn hpos h
  · rw [item_of_action hb] at hn
    rw [item_of_action hb, item_of_action (by rw [h0]; exact hb)]
    split at hn
    · rw [if_pos ‹_›, if_pos ‹_›]
      exact actionItem_congr hn hpos h
    · simp only [Item.outcome, reduceCtorEq] at hn
  · rw [item_of_other h20 h21 hattrib haction, item_of_other] <;> rw [h0] <;> assumption

/-! ### The round that goes nowhere -/

/-- A service SLA of the 2.1 SET with an operation other than deactivate and activate. -/
def Stalls (w : Walker) (p : Ptr) : Prop :=
  w = .setReq ∧ AttribBranch (p 0) ∧ p.leaf = oamAttrServiceSla ∧ p 4 ≠ 0 ∧ p 4 ≠ 1

instance (w : Walker) (p : Ptr) : Decidable (Stalls w p) := inferInstanceAs (Decidable (_ ∧ _))

theorem attribs_serviceSla : ∀ w : Walker, ∀ e ∈ w.attribs, e.2 = .serviceSla →
    w = .setReq ∧ e.1 = oamAttrServiceSla := by
  intro w
  cases w <;> decide

theorem actions_not_serviceSla : ∀ w : Walker, ∀ e ∈ w.actions, e.2 ≠ .serviceSla := by
  intro w
  cases w <;> decide

theorem Rule.advance_eq_zero {rule : Rule} (h : rule.Spans) {p : Ptr} (hz : rule.advance p = 0) :
    rule = .serviceSla ∧ p 4 ≠ 0 ∧ p 4 ≠ 1 := by
  cases rule with
  | fixed n =>
    simp only [Rule.Spans, oamVariableDescriptorSize] at h
    simp only [Rule.advance] at hz
    omega
  | width => simp only [Rule.advance] at hz; omega
  | mcastSwitch => simp [Rule.advance] at hz
  | mcastControl => simp only [Rule.advance] at hz; split at hz <;> omega
  | serviceSla =>
    simp only [Rule.advance] at hz
    split at hz
    · omega
    · split at hz
      · omega
      · exact ⟨rfl, ‹_›, ‹_›⟩

theorem leafItem_stays {table : List (UInt16 × Rule)} {unknown : Nat} {p : Ptr}
    (htable : ∀ e ∈ table, e.2.Spans) (hunknown : 3 ≤ unknown)
    (hz : (leafItem table unknown p).outcome = .inl 0) :
    (p.leaf, Rule.serviceSla) ∈ table ∧ p 4 ≠ 0 ∧ p 4 ≠ 1 := by
  rcases hl : table.lookup p.leaf with _ | rule
  · rw [leafItem_of_none hl] at hz
    have hspan : unknown = 0 := Sum.inl.inj hz
    omega
  · rw [outcome_leafItem_of_some hl] at hz
    have hmem := mem_of_lookup hl
    obtain ⟨rfl, h4⟩ := Rule.advance_eq_zero (htable _ hmem) (Sum.inl.inj hz)
    exact ⟨hmem, h4⟩

/-- **Every other round moves the cursor.** -/
theorem outcome_eq_zero_iff {board : Board} {w : Walker} {p : Ptr} :
    (item board w p).outcome = .inl 0 ↔ Stalls w p := by
  constructor
  · intro hz
    rcases branch_cases (p 0) with hb | hb | hb | hb | ⟨h20, h21, hattrib, haction⟩
    · rw [item_of_instance20 hb] at hz
      split at hz
      · rcases hr : instanceRefused board w (p 4) <;> rw [hr] at hz <;>
          simp [Item.outcome, oamInstanceTlv20Size] at hz
      · simp [Item.outcome] at hz
    · rw [item_of_instance21 hb] at hz
      split at hz <;> simp [Item.outcome, oamInstanceTlvSize] at hz
    · rw [item_of_attrib hb] at hz
      obtain ⟨hmem, h4⟩ := leafItem_stays (attribs_span w) (three_le_unknownAdvance w) hz
      obtain ⟨hw, hleaf⟩ := attribs_serviceSla w _ hmem rfl
      exact ⟨hw, hb, hleaf, h4⟩
    · rw [item_of_action hb, actionItem] at hz
      split at hz
      · split at hz
        · simp [Item.outcome] at hz
        · obtain ⟨hmem, -⟩ := leafItem_stays (actions_span w) (three_le_unknownAdvance w) hz
          exact absurd rfl (actions_not_serviceSla w _ hmem)
      · simp [Item.outcome] at hz
    · rw [item_of_other h20 h21 hattrib haction] at hz
      simp [Item.outcome] at hz
  · rintro ⟨rfl, hb, hleaf, h0, h1⟩
    have hlookup : Walker.setReq.attribs.lookup p.leaf = some .serviceSla := by
      rw [hleaf]
      decide
    rw [item_of_attrib hb, outcome_leafItem_of_some hlookup, Rule.advance, if_neg h0, if_neg h1]

/-! ### Rounds keep the number of the request -/

section Request

variable {onu : Onu} {w : Walker} {g : Globals} {c : Call} {p : Ptr} {pos : Nat}

@[simp] theorem request_logCall : (logCall g c).request = g.request := rfl

@[simp] theorem request_appendContainers (size : UInt16) :
    (appendContainers g c size).request = g.request := by
  simp only [appendContainers]
  split <;> rfl

@[simp] theorem request_callHandler : (callHandler onu g c).request = g.request := by
  simp only [callHandler]
  split
  · rw [request_appendContainers, request_logCall]
  · rfl

@[simp] theorem request_effect (i : Item) : (i.effect onu w p pos g).request = g.request := by
  cases i <;>
    simp only [Item.effect, request_callHandler, eoplNotSupportResponse, request_appendContainers,
      request_logCall, sendResponse]

@[simp] theorem request_enter : (enter w g).request = g.request := by
  simp only [enter]
  split <;> rfl

end Request

/-! ### Rounds -/

section Rounds

variable {onu : Onu} {w : Walker} {mem : Buffer} {s s' : Walk}

/-- The item at the cursor. -/
def here (onu : Onu) (w : Walker) (mem : Buffer) (pos : Nat) : Item :=
  item onu.board w (ptrAt mem pos)

theorem walkStep_of_le (h : oamMaximumPduSize ≤ s.pByte) :
    walkStep onu w mem s = .inr (.sizeLimit, s.globals) := by
  simp only [walkStep, if_pos h]

theorem walkStep_of_inl (h : s.pByte < oamMaximumPduSize) {n : Nat}
    (hn : (here onu w mem s.pByte).outcome = .inl n) :
    walkStep onu w mem s = .inl ⟨s.pByte + n,
      (here onu w mem s.pByte).effect onu w (ptrAt mem s.pByte) s.pByte s.globals⟩ := by
  simp only [here] at hn
  simp only [walkStep, if_neg (Nat.not_le.mpr h), here, hn]

theorem walkStep_of_inr (h : s.pByte < oamMaximumPduSize) {e : Exit}
    (he : (here onu w mem s.pByte).outcome = .inr e) :
    walkStep onu w mem s = .inr (e,
      (here onu w mem s.pByte).effect onu w (ptrAt mem s.pByte) s.pByte s.globals) := by
  simp only [here] at he
  simp only [walkStep, if_neg (Nat.not_le.mpr h), here, he]

theorem walkStep_inl (h : walkStep onu w mem s = .inl s') :
    s.pByte < oamMaximumPduSize ∧ ∃ n, (here onu w mem s.pByte).outcome = .inl n ∧
      s' = ⟨s.pByte + n,
        (here onu w mem s.pByte).effect onu w (ptrAt mem s.pByte) s.pByte s.globals⟩ := by
  rcases Nat.lt_or_ge s.pByte oamMaximumPduSize with hlt | hge
  · refine ⟨hlt, ?_⟩
    rcases ho : (here onu w mem s.pByte).outcome with n | e
    · rw [walkStep_of_inl hlt ho] at h
      exact ⟨n, rfl, (Sum.inl.inj h).symm⟩
    · rw [walkStep_of_inr hlt ho] at h
      cases h
  · rw [walkStep_of_le hge] at h
    cases h

theorem walkStep_inr {e : Exit} {g : Globals} (h : walkStep onu w mem s = .inr (e, g)) :
    (oamMaximumPduSize ≤ s.pByte ∧ e = .sizeLimit ∧ g = s.globals) ∨
      (s.pByte < oamMaximumPduSize ∧ (here onu w mem s.pByte).outcome = .inr e ∧
        g = (here onu w mem s.pByte).effect onu w (ptrAt mem s.pByte) s.pByte s.globals) := by
  rcases Nat.lt_or_ge s.pByte oamMaximumPduSize with hlt | hge
  · right
    rcases ho : (here onu w mem s.pByte).outcome with n | e'
    · rw [walkStep_of_inl hlt ho] at h
      cases h
    · rw [walkStep_of_inr hlt ho] at h
      obtain ⟨rfl, rfl⟩ := Prod.mk.inj (Sum.inr.inj h)
      exact ⟨hlt, rfl, rfl⟩
  · left
    rw [walkStep_of_le hge] at h
    obtain ⟨rfl, rfl⟩ := Prod.mk.inj (Sum.inr.inj h)
    exact ⟨hge, rfl, rfl⟩

/-- A loop that has come to a stalling SLA stays there. -/
theorem run_of_stalls (hpos : s.pByte < oamMaximumPduSize)
    (h : Stalls w (ptrAt mem s.pByte)) (fuel : Nat) :
    Loop.run (walkStep onu w mem) fuel s = none := by
  refine Loop.run_eq_none (fun t => t.pByte = s.pByte) ?_ rfl fuel
  intro t ht
  have hz : (here onu w mem t.pByte).outcome = .inl 0 := by
    rw [ht]
    exact outcome_eq_zero_iff.mpr h
  exact ⟨_, walkStep_of_inl (by rw [ht]; exact hpos) hz, ht⟩

end Rounds

/-- **Fuel is enough.**  A loop runs out of its fuel exactly when it comes to a stalling
SLA, and then it never leaves. -/
theorem walk_eq_none_iff {onu : Onu} {w : Walker} {mem : Buffer} {g : Globals} :
    walk onu w mem g = none ↔ ∃ s, Loop.Reaches (walkStep onu w mem) ⟨0, enter w g⟩ s ∧
      s.pByte < oamMaximumPduSize ∧ Stalls w (ptrAt mem s.pByte) := by
  constructor
  · intro hnone
    by_contra hfree
    -- a loop that never stalls raises its cursor in every round, up to the limit
    have hagain : ∀ s s', Loop.Reaches (walkStep onu w mem) ⟨0, enter w g⟩ s →
        walkStep onu w mem s = .inl s' →
        Loop.Reaches (walkStep onu w mem) ⟨0, enter w g⟩ s' ∧ s.pByte < s'.pByte := by
      intro s s' hs hstep
      obtain ⟨hlt, n, hn, rfl⟩ := walkStep_inl hstep
      refine ⟨Relation.ReflTransGen.tail hs hstep, ?_⟩
      have hpos : n ≠ 0 := by
        rintro rfl
        exact hfree ⟨s, hs, hlt, outcome_eq_zero_iff.mp hn⟩
      simp only
      omega
    have hbound : ∀ s : Walk, oamMaximumPduSize ≤ s.pByte →
        ∃ e, walkStep onu w mem s = .inr e := fun s hs => ⟨_, walkStep_of_le hs⟩
    obtain ⟨e, he⟩ := Loop.run_of_measure _ Walk.pByte hagain hbound (Loop.Reaches.refl _)
      (show oamMaximumPduSize < oamMaximumPduSize + 1 + 0 by omega) (by omega)
    rw [walk, he] at hnone
    cases hnone
  · rintro ⟨s, hs, hlt, hstall⟩
    rcases hw : walk onu w mem g with _ | e
    · rfl
    · obtain ⟨fuel, e', hrun⟩ := Loop.Reaches.leaves hs ⟨_, e, hw⟩
      rw [run_of_stalls hlt hstall] at hrun
      cases hrun

/-! ### TLVs -/

/-- A string of bytes that a round steps over exactly. -/
def IsTlv (board : Board) (w : Walker) (t : Buffer) : Prop :=
  (item board w (ptrAt t 0)).outcome = .inl t.length

instance (board : Board) (w : Walker) (t : Buffer) : Decidable (IsTlv board w t) :=
  inferInstanceAs (Decidable (_ = _))

/-- The memory behind `pos` starts with the bytes of these TLVs. -/
def Spells (board : Board) (w : Walker) (mem : Buffer) (pos : Nat) (tlvs : List Buffer) : Prop :=
  bytesAt mem pos tlvs.flatten.length = tlvs.flatten ∧ ∀ t ∈ tlvs, IsTlv board w t

section Tlvs

variable {board : Board} {w : Walker} {mem t : Buffer} {ts : List Buffer} {pos n : Nat}

theorem IsTlv.length_pos (h : IsTlv board w t) : 0 < t.length := by
  cases t with
  | nil =>
    -- an empty string reads as zeros, and zero is no branch
    have hstop : item board w (ptrAt [] 0) = .stop :=
      item_of_other (by decide) (by decide) (by decide) (by decide)
    rw [IsTlv, hstop] at h
    cases h
  | cons b bs => simp

/-- A TLV is the same item wherever it stands. -/
theorem IsTlv.item_eq (h : IsTlv board w t) (hbytes : bytesAt mem pos t.length = t) :
    item board w (ptrAt mem pos) = item board w (ptrAt t 0) := by
  refine item_congr h h.length_pos ?_
  intro i hi
  have hread := byteAt_bytesAt mem pos t.length hi
  rw [hbytes] at hread
  simpa only [ptrAt, Nat.zero_add] using hread

theorem isTlv_bytesAt (h : (item board w (ptrAt mem pos)).outcome = .inl n) (hpos : 0 < n) :
    IsTlv board w (bytesAt mem pos n) := by
  have hitem : item board w (ptrAt (bytesAt mem pos n) 0) = item board w (ptrAt mem pos) := by
    refine item_congr h hpos ?_
    intro i hi
    simp only [ptrAt, Nat.zero_add, byteAt_bytesAt mem pos n hi]
  rw [IsTlv, hitem, h, length_bytesAt]

@[simp] theorem spells_nil : Spells board w mem pos [] := by
  simp [Spells, bytesAt]

theorem spells_cons_iff : Spells board w mem pos (t :: ts) ↔
    IsTlv board w t ∧ bytesAt mem pos t.length = t ∧ Spells board w mem (pos + t.length) ts := by
  simp only [Spells, List.flatten_cons, List.length_append, bytesAt_add, List.forall_mem_cons]
  constructor
  · rintro ⟨hbytes, ht, hts⟩
    obtain ⟨hfront, hback⟩ := List.append_inj hbytes (length_bytesAt ..)
    exact ⟨ht, hfront, hback, hts⟩
  · rintro ⟨ht, hfront, hback, hts⟩
    exact ⟨by rw [hfront, hback], ht, hts⟩

theorem Spells.append {us : List Buffer} (hts : Spells board w mem pos ts)
    (hus : Spells board w mem (pos + ts.flatten.length) us) :
    Spells board w mem pos (ts ++ us) := by
  refine ⟨?_, ?_⟩
  · rw [List.flatten_append, List.length_append, bytesAt_add, hts.1, hus.1]
  · intro t ht
    rcases List.mem_append.mp ht with ht | ht
    · exact hts.2 t ht
    · exact hus.2 t ht

/-- The TLV at `pos`, alone. -/
theorem spells_bytesAt (h : (item board w (ptrAt mem pos)).outcome = .inl n) (hpos : 0 < n) :
    Spells board w mem pos [bytesAt mem pos n] := by
  refine spells_cons_iff.mpr ⟨isTlv_bytesAt h hpos, ?_, spells_nil⟩
  rw [length_bytesAt]

end Tlvs

end Ctc

end Opconn.Oam
