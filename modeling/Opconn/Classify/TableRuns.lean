import Opconn.Classify.TableInvariant

/-!
# Calls without precedence

Any sequence of `dalClsEntrySet` and `dalClsEntryMove` calls with mask priority 0, whatever
each of them makes of its parameter block.  Such calls leave the slots below
`CLASSIFY_MIN_MASK_ENTRY` alone and keep the masks behind it packed; a packed table is what
a failing call needs to give its mask back without moving another one.
-/

namespace Opconn.Classify

open Runs

/-! ### Contiguous masks -/

/-- The valid shared masks come first. -/
def Contiguous (t : Tables) : Prop :=
  ∀ m, minMaskEntry ≤ m → m + 1 < maxMaskEntry →
    (t.cmask (m + 1)).bfValid = true → (t.cmask m).bfValid = true

section Contiguous

variable {t : Tables} {k row off ruleID : Nat}

theorem Contiguous.congr (h : Contiguous t) {t' : Tables}
    (hvalid : ∀ m, minMaskEntry ≤ m → (t'.cmask m).bfValid = (t.cmask m).bfValid) :
    Contiguous t' := by
  intro m hm hmax
  rw [hvalid m hm, hvalid (m + 1) (Nat.le_succ_of_le hm)]
  exact h m hm hmax

/-- Behind a slot that is not valid there is no valid one. -/
theorem Contiguous.next_invalid (h : Contiguous t) (hk : minMaskEntry ≤ k)
    (hinvalid : (t.cmask k).bfValid = false) (hmax : k + 1 < maxMaskEntry) :
    (t.cmask (k + 1)).bfValid = false := by
  rw [Bool.eq_false_iff]
  intro hvalid
  rw [h k hk hmax hvalid] at hinvalid
  cases hinvalid

theorem Contiguous.installed (h : Contiguous t) {m : MaskEntry} (htakes : Takes t m k)
    (r : RuleEntry) (ruleID : Nat) : Contiguous (installed t k m r ruleID) := by
  have hk := mem_sharedSlots.mp htakes.slot
  have hself : (Classify.installed t k m r ruleID).cmask k =
      { m with bfValid := true, referenceCount := (t.cmask k).referenceCount + 1 } :=
    Function.update_self ..
  have hother : ∀ i, i ≠ k → (Classify.installed t k m r ruleID).cmask i = t.cmask i :=
    fun i hi => Function.update_of_ne hi _ _
  intro i hi hmax hvalid
  by_cases hik : i = k
  · rw [hik, hself]
  · rw [hother i hik]
    by_cases hsucc : i + 1 = k
    · -- either slot `k` was valid already or all the slots in front of it are
      rcases htakes.choice with ⟨hvk, -⟩ | ⟨-, hfront, -⟩
      · exact h i hi hmax (by rw [hsucc]; exact hvk)
      · exact hfront i (mem_sharedSlots.mpr ⟨hi, by omega⟩) (by omega)
    · rw [hother (i + 1) hsucc] at hvalid
      exact h i hi hmax hvalid

theorem Contiguous.moved (h : Contiguous t) (hvalid : (t.cmask k).bfValid = true) {l : Nat}
    (hall : ∀ i, k < i → i ≤ l → (t.cmask i).bfValid = true)
    (hend : l + 1 < maxMaskEntry → (t.cmask (l + 1)).bfValid = false) :
    Contiguous (withdrawn (setMask (shifted t k l) l .zero) row off ruleID) := by
  intro i hi hmax
  rw [cmask_moved, cmask_moved]
  split
  · intro hv
    cases hv
  · next hne =>
    intro hv
    have hil : i ≠ l := by
      rintro rfl
      rw [movedFrom, if_neg (by omega), hend hmax] at hv
      cases hv
    rw [if_neg hil]
    -- in front of `k` nothing changes, up to `l` every mask is valid, behind `l` none is
    rcases Nat.lt_trichotomy (i + 1) k with hlt | heq | hgt
    · rw [movedFrom, if_neg (by omega)] at hv ⊢
      exact h i hi hmax hv
    · rw [movedFrom, if_neg (by omega)]
      exact h i hi hmax (by rw [heq]; exact hvalid)
    · by_cases hlt : i < l
      · rw [movedFrom, if_pos (by omega)]
        exact hall (i + 1) (by omega) (by omega)
      · rw [movedFrom, if_neg (by omega)] at hv ⊢
        exact h i hi hmax hv

theorem Contiguous.withdrawn (h : Contiguous t) (hmasks : SharedMasks t)
    (hslot : k ∈ sharedSlots) (hvalid : (t.cmask k).bfValid = true)
    (hself : ruleID ∈ users t k) :
    Contiguous (withdrawn (clsMaskFree t k).1 row off ruleID) := by
  rcases clsMaskFree_cases hmasks hslot hvalid hself with
    ⟨-, heq⟩ | ⟨-, l, -, -, hall, hend, heq⟩
  · rw [heq]
    apply h.congr
    intro i _
    show (Function.update t.cmask k _ i).bfValid = _
    by_cases hik : i = k
    · rw [hik, Function.update_self]
    · rw [Function.update_of_ne hik]
  · rw [heq]
    exact h.moved hvalid hall hend

end Contiguous

/-! ### Packed masks -/

/-- The slots of precedences are empty and the valid shared masks come first. -/
structure Packed (t : Tables) : Prop where
  low : ∀ m < minMaskEntry, t.cmask m = .zero
  sel : ∀ ruleID, t.mallocFlag ruleID = true → minMaskEntry ≤ (t.crule ruleID).bfMsel
  contiguous : ∀ m, minMaskEntry ≤ m → m + 1 < maxMaskEntry →
    (t.cmask (m + 1)).bfValid = true → (t.cmask m).bfValid = true

theorem packed_rst : Packed dalClsRst := by
  constructor
  · intro m _
    rfl
  · intro ruleID hid
    cases hid
  · intro m _ _ hvalid
    cases hvalid

theorem Packed.installed {t : Tables} (h : Packed t) {k : Nat} {m : MaskEntry}
    (htakes : Takes t m k) {r : RuleEntry} (hmsel : r.bfMsel = k) {ruleID : Nat} :
    Packed (installed t k m r ruleID) := by
  have hk := mem_sharedSlots.mp htakes.slot
  constructor
  · intro i hi
    rw [show (Classify.installed t k m r ruleID).cmask i = t.cmask i from
      Function.update_of_ne (by omega) _ _]
    exact h.low i hi
  · intro id hid
    by_cases heq : id = ruleID
    · simp [Classify.installed, heq, hmsel, hk.1]
    · have hold : t.mallocFlag id = true := by simpa [Classify.installed, heq] using hid
      simpa [Classify.installed, heq] using h.sel id hold
  · exact Contiguous.installed h.contiguous htakes r ruleID

section Removal

variable {t : Tables} {k row off ruleID : Nat}

theorem Packed.withdrawn (h : Packed t) (hmasks : SharedMasks t) (hrow : RowInv t)
    (hslot : k ∈ sharedSlots) (hvalid : (t.cmask k).bfValid = true)
    (hself : ruleID ∈ users t k) : Packed (withdrawn (clsMaskFree t k).1 row off ruleID) := by
  have hk := mem_sharedSlots.mp hslot
  have hcontiguous : Contiguous (Classify.withdrawn (clsMaskFree t k).1 row off ruleID) :=
    Contiguous.withdrawn h.contiguous hmasks hslot hvalid hself
  rcases clsMaskFree_cases hmasks hslot hvalid hself with
    ⟨-, heq⟩ | ⟨honly, l, hkl, -, -, -, heq⟩
  · rw [heq] at hcontiguous ⊢
    refine ⟨?_, ?_, hcontiguous⟩
    · intro i hi
      show Function.update t.cmask k _ i = _
      rw [Function.update_of_ne (by omega)]
      exact h.low i hi
    · intro id hid
      exact h.sel id ((mallocFlag_withdrawn _ id).mp hid).2
  · rw [heq] at hcontiguous ⊢
    refine ⟨?_, ?_, hcontiguous⟩
    · intro i hi
      rw [cmask_moved, if_neg (by omega), movedFrom, if_neg (by omega)]
      exact h.low i hi
    · intro id hid
      obtain ⟨hne, hid'⟩ := (mallocFlag_withdrawn _ id).mp hid
      have hold : t.mallocFlag id = true := hid'
      have hids := hrow.ids id hold
      obtain ⟨-, hfrom⟩ := msel_moved row off ruleID hids hold
        (msel_ne_of_only honly hne hids hold) hkl
      have hmin := h.sel id hold
      rw [← hfrom, movedFrom] at hmin
      split at hmin <;> omega

end Removal

/-! ### Calls -/

/-- A call of `dalClsEntrySet` or `dalClsEntryMove`, with what it makes of its block. -/
inductive EntryCall where
  | set (par : Parameter) (made : Option (MaskEntry × RuleEntry))
  | move (par : Parameter) (made : Option (MaskEntry × RuleEntry))

def EntryCall.par : EntryCall → Parameter
  | .set par _ => par
  | .move par _ => par

/-- The tables after a call. -/
def callStep (t : Tables) : EntryCall → Tables
  | .set par made => (dalClsEntrySet (fun _ => made) t par).1
  | .move par made => (dalClsEntryMove (fun _ => made) t par).1

/-- Whether a call returns an error. -/
def callFails (t : Tables) : EntryCall → Bool
  | .set par made => (dalClsEntrySet (fun _ => made) t par).2.toOption.isNone
  | .move par made => (dalClsEntryMove (fun _ => made) t par).2.toOption.isNone

/-- What the calls keep. -/
structure CallInv (t : Tables) : Prop where
  rows : RowInv t
  masks : SharedMasks t
  packed : Packed t

theorem callInv_rst : CallInv dalClsRst := ⟨rowInv_rst, sharedMasks_rst, packed_rst⟩

theorem dalClsTblEntryAdd_call {t : Tables} (h : CallInv t) {m : MaskEntry}
    (hpri : m.maskPri = 0) (r : RuleEntry) :
    CallInv (dalClsTblEntryAdd t m r).1 ∧
      ((dalClsTblEntryAdd t m r).2.toOption.isNone = true → (dalClsTblEntryAdd t m r).1 = t) := by
  rcases takeMask_spec h.masks hpri with hfull | ⟨k, htakes, htake⟩
  · have heq : dalClsTblEntryAdd t m r = (t, .error .maskTableFull) := by
      simp only [dalClsTblEntryAdd, hfull]
    rw [heq]
    exact ⟨h, fun _ => rfl⟩
  · have hk := mem_sharedSlots.mp htakes.slot
    rcases dalClsTblEntryAdd_spec h.rows r htake rfl hk.2 with
      ⟨err, heq, -⟩ | ⟨ruleID, heq, hnew, husable, hfree, -⟩
    · have hback : (clsMaskFree (referenced t k) k).1 = t :=
        clsMaskFree_referenced h.masks htakes fun hinvalid hmax =>
          Contiguous.next_invalid h.packed.contiguous hk.1 hinvalid hmax
      rw [heq]
      refine ⟨?_, fun _ => hback⟩
      rw [show (clsMaskFree (setMask t k _) k).1 = t from hback]
      exact h
    · rw [heq]
      refine ⟨⟨?_, ?_, ?_⟩, ?_⟩
      · exact h.rows.installed hnew husable hfree
      · exact h.masks.installed htakes hpri rfl hnew husable
      · exact h.packed.installed htakes rfl
      · intro hnone
        cases hnone

theorem dalClsTblEntryDel_call {t : Tables} (h : CallInv t) (m : MaskEntry) (r : RuleEntry) :
    CallInv (dalClsTblEntryDel t m r).1 ∧
      ((dalClsTblEntryDel t m r).2.toOption.isNone = true → (dalClsTblEntryDel t m r).1 = t) := by
  rcases dalClsTblEntryDel_spec h.rows h.masks m r with
    ⟨e, heq, -⟩ | ⟨k, row, off, ruleID, hslot, hvalid, -, hid, haddr, hsame, heq⟩
  · rw [heq]
    exact ⟨h, fun _ => rfl⟩
  · have hself : ruleID ∈ users t k := by
      rw [mem_users]
      exact ⟨(usableId_iff.mp (h.rows.ids ruleID hid)).1, hid, (sameRule_iff.mp hsame).1.symm⟩
    rw [heq]
    refine ⟨⟨?_, ?_, ?_⟩, ?_⟩
    · exact h.rows.withdrawn hid haddr
    · exact h.masks.withdrawn h.rows hslot hvalid hself
    · exact h.packed.withdrawn h.masks h.rows hslot hvalid hself
    · intro hnone
      cases hnone

/-- One call. -/
theorem callStep_spec {t : Tables} (h : CallInv t) {c : EntryCall} (hpri : c.par.maskPri = 0) :
    CallInv (callStep t c) ∧ (callFails t c = true → callStep t c = t) := by
  cases c with
  | set par made =>
    simp only [callStep, callFails, dalClsEntrySet]
    split
    · exact ⟨h, fun _ => rfl⟩
    · next mentry rentry hmake =>
      exact dalClsTblEntryAdd_call h ((maskPri_of_entriesOf hmake).trans hpri) rentry
  | move par made =>
    simp only [callStep, callFails, dalClsEntryMove]
    split
    · exact ⟨h, fun _ => rfl⟩
    · next mentry rentry hmake => exact dalClsTblEntryDel_call h mentry rentry

/-! ### Runs -/

/-- Free counts, places of ids, reference counts and masks, as one would check them by
reading the tables. -/
structure Tables.Consistent (t : Tables) : Prop where
  freeCnt : ∀ g < ruleTableGroup, t.freeCnt g = (freeIds t g).card
  place : ∀ ruleID, t.mallocFlag ruleID = true → ∀ row off, t.caddr row off = ruleID ↔
    row = clsAddrCal (t.crule ruleID) ∧ off = ruleID / entrysPerGroup
  references : ∀ m < maxMaskEntry, (t.cmask m).referenceCount = (users t m).card
  contiguous : ∀ m, minMaskEntry ≤ m → m + 1 < maxMaskEntry →
    (t.cmask (m + 1)).bfValid = true → (t.cmask m).bfValid = true
  different : ∀ m ∈ sharedSlots, ∀ m' ∈ sharedSlots, (t.cmask m).bfValid = true →
    (t.cmask m').bfValid = true → sameMask (t.cmask m) (t.cmask m') = true → m = m'

theorem CallInv.consistent {t : Tables} (h : CallInv t) : t.Consistent where
  freeCnt := h.rows.free
  place := by
    intro ruleID hid row off
    constructor
    · intro haddr
      obtain ⟨-, hgroup, hrow⟩ := h.rows.addr row off (by rw [haddr]; exact h.rows.ne_zero hid)
      rw [haddr] at hgroup hrow
      exact ⟨hrow.symm, hgroup.symm⟩
    · rintro ⟨rfl, rfl⟩
      exact h.rows.slot ruleID hid
  references := by
    intro m hm
    by_cases hlow : m < minMaskEntry
    · have hnone : users t m = ∅ := by
        ext ruleID
        rw [mem_users]
        constructor
        · rintro ⟨-, hid, hsel⟩
          have := h.packed.sel ruleID hid
          omega
        · simp
      rw [h.packed.low m hlow, hnone]
      rfl
    · exact h.masks.count m (mem_sharedSlots.mpr ⟨by omega, hm⟩)
  contiguous := h.packed.contiguous
  different := h.masks.distinct

/-- **Calls without precedence.**  Through any sequence of calls the tables are consistent,
and a call that returns an error leaves all of them as they were. -/
theorem entry_calls_consistent (calls : List EntryCall)
    (hpri : ∀ c ∈ calls, c.par.maskPri = 0) :
    AllStates callStep Tables.Consistent dalClsRst calls ∧
      AllSteps callStep (fun t c => callFails t c = true → callStep t c = t) dalClsRst calls := by
  have hsteps : AllSteps callStep (fun _ c => c.par.maskPri = 0) dalClsRst calls :=
    AllSteps.of_forall_mem (fun c hc _ => hpri c hc) _
  constructor
  · apply AllStates.mono fun _ => CallInv.consistent
    exact allStates_of_allSteps callStep CallInv
      (fun t c h hc => (callStep_spec h hc).1) callInv_rst hsteps
  · exact allSteps_of_invariant callStep CallInv
      (fun t c h hc => (callStep_spec h hc).1) (fun t c h hc => (callStep_spec h hc).2)
      callInv_rst hsteps

/-- A rule on the first byte of the header. -/
def firstByteParameter : Parameter :=
  { arpParameter with
    pktRuleValue := fun i => if i.val = 0 then 1 else 0
    pktUsrMask := fun i => if i.val = 0 then 0xff else 0 }

def twoRules : List EntryCall :=
  [.set arpParameter (clsMaskRuleMake2Onu arpParameter []),
    .set firstByteParameter (clsMaskRuleMake2Onu firstByteParameter []),
    .set arpParameter (clsMaskRuleMake2Onu arpParameter []),
    .move arpParameter (clsMaskRuleMake2Onu arpParameter [])]

/-- The third call adds a rule twice and fails; the fourth frees slot 8, and the mask of
slot 9 and its rule move there. -/
theorem two_rules_consistent :
    (∀ c ∈ twoRules, c.par.maskPri = 0) ∧
    callFails (run callStep dalClsRst (twoRules.take 2)) (.set arpParameter
      (clsMaskRuleMake2Onu arpParameter [])) = true ∧
    ((run callStep dalClsRst (twoRules.take 3)).crule 33).bfMsel = 9 ∧
    ((run callStep dalClsRst twoRules).crule 33).bfMsel = 8 ∧
    AllStates callStep Tables.Consistent dalClsRst twoRules := by
  have hpri : ∀ c ∈ twoRules, c.par.maskPri = 0 := by decide
  refine ⟨hpri, ?_, ?_, ?_, (entry_calls_consistent twoRules hpri).1⟩
  · decide +kernel
  · decide +kernel
  · decide +kernel

end Opconn.Classify
