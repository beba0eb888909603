import Opconn.Bridge.Vtt
import Opconn.Lib.KeyedList
import Mathlib.Algebra.Order.BigOperators.Group.Finset

/-!
# Translation entries and their records

Every translation entry of a port has a record.  `dalVttTagEntryAdd` stops its search at the
first record that is free, and does not see the same pair behind it; it takes VLANs that the
entry has no room for and that `dalVttTagEntryDel` refuses; and `dalVttModeSet` forgets the
records before it knows whether the entries can be cleared.
-/

namespace Opconn.Bridge

open Runs

def validCount (records : Nat → VttRecord) : Nat :=
  ∑ i ∈ Finset.range dalPortVttEntryNum, (records i).valid.toNat

/-- The entries and their records say the same. -/
structure Matched (s : Vtt) : Prop where
  active_eq : ∀ i < dalPortVttEntryNum, (s.chip.vtt i).active = (s.info.vttRecord i).valid
  pair : ∀ i < dalPortVttEntryNum, (s.info.vttRecord i).valid = true →
    (s.chip.vtt i).cVid = (s.info.vttRecord i).cVlanInfo ∧
      (s.chip.vtt i).sVid = (s.info.vttRecord i).sVlanInfo
  distinct : ∀ i < dalPortVttEntryNum, ∀ j < dalPortVttEntryNum, ∀ cVlan sVlan,
    (s.info.vttRecord i).IsPair cVlan sVlan → (s.info.vttRecord j).IsPair cVlan sVlan → i = j
  count : s.info.numOfVttRecords = validCount s.info.vttRecord

inductive VttEvent where
  | add (hwOk pStrip gStrip : Bool) (cVlan sVlan : Nat)
  | del (hwOk : Bool) (cVlan sVlan : Nat)
  | modeSet (hwOk : Nat → Bool) (mode : Nat)
      (other : VlanMode.ofNat? mode ≠ some .aggregation)

def vttStep (s : Vtt) : VttEvent → Vtt
  | .add hwOk pStrip gStrip cVlan sVlan => (dalVttTagEntryAdd hwOk s pStrip gStrip cVlan sVlan).1
  | .del hwOk cVlan sVlan => (dalVttTagEntryDel hwOk s cVlan sVlan).1
  | .modeSet hwOk mode _ => dalVttModeSet hwOk s mode

/-- No entry translates the pair. -/
def NoEntry (s : Vtt) (cVlan sVlan : Nat) : Prop :=
  ∀ i < dalPortVttEntryNum, (s.chip.vtt i).active = true →
    ¬((s.chip.vtt i).cVid = cVlan ∧ (s.chip.vtt i).sVid = sVlan)

/-- What a step is to leave. -/
structure VttStepOk (s : Vtt) (e : VttEvent) : Prop where
  matched : Matched (vttStep s e)
  deleted : ∀ hwOk cVlan sVlan, e = .del hwOk cVlan sVlan → NoEntry (vttStep s e) cVlan sVlan

/-- A pair that is written is one of VLANs and is not recorded anywhere, an entry that is to
be deleted can be written, and when a mode is set the entries that cannot be cleared are not in
use. -/
def Orderly (s : Vtt) : VttEvent → Prop
  | .add hwOk _ _ cVlan sVlan => hwOk = true → ∀ i,
      addSearch s.info.vttRecord cVlan sVlan (List.range dalPortVttEntryNum) = .empty i →
      cVlan ≤ 4095 ∧ sVlan ≤ 4095 ∧
        ∀ j < dalPortVttEntryNum, ¬(s.info.vttRecord j).IsPair cVlan sVlan
  | .del hwOk cVlan sVlan =>
      (∃ j < dalPortVttEntryNum, (s.info.vttRecord j).IsPair cVlan sVlan) → hwOk = true
  | .modeSet hwOk mode _ => VlanMode.ofNat? mode ≠ none → ∀ i < dalPortVttEntryNum,
      (∃ k ≤ i, hwOk k = false) → (s.info.vttRecord i).valid = false

/-- The entries hold what twelve bits can hold. -/
def InWidth (s : Vtt) : Prop :=
  ∀ i < dalPortVttEntryNum, (s.chip.vtt i).cVid ≤ 4095 ∧ (s.chip.vtt i).sVid ≤ 4095

/-! ### Searches -/

theorem addSearch_empty {records : Nat → VttRecord} {cVlan sVlan i : Nat} {is : List Nat}
    (h : addSearch records cVlan sVlan is = .empty i) : i ∈ is ∧ (records i).valid = false := by
  induction is with
  | nil => cases h
  | cons j is ih =>
    rw [addSearch] at h
    split at h
    · split at h
      · cases h
      · obtain ⟨hmem, hvalid⟩ := ih h
        exact ⟨List.mem_cons_of_mem j hmem, hvalid⟩
    · next hfree =>
      cases h
      exact ⟨List.mem_cons_self .., by simpa using hfree⟩

theorem delSearch_some {records : Nat → VttRecord} {cVlan sVlan i : Nat}
    (h : delSearch records cVlan sVlan = some i) :
    i < dalPortVttEntryNum ∧ (records i).IsPair cVlan sVlan :=
  ⟨List.mem_range.mp (List.mem_of_find?_eq_some h), by simpa using List.find?_some h⟩

theorem delSearch_none {records : Nat → VttRecord} {cVlan sVlan : Nat}
    (h : delSearch records cVlan sVlan = none) {i : Nat} (hi : i < dalPortVttEntryNum) :
    ¬(records i).IsPair cVlan sVlan := by
  rw [delSearch, List.find?_eq_none] at h
  simpa using h i (List.mem_range.mpr hi)

/-! ### Counting -/

theorem validCount_le (records : Nat → VttRecord) : validCount records ≤ 11 := by
  have hsum := Finset.sum_le_card_nsmul (Finset.range dalPortVttEntryNum)
    (fun i => (records i).valid.toNat) 1 (fun i _ => Bool.toNat_le _)
  simpa [validCount] using hsum

theorem validCount_update (records : Nat → VttRecord) {i : Nat} (hi : i < dalPortVttEntryNum)
    (r : VttRecord) :
    validCount (Function.update records i r) + (records i).valid.toNat =
      validCount records + r.valid.toNat :=
  KeyedList.sum_update (fun r : VttRecord => r.valid.toNat) records hi r

theorem validCount_zero : validCount (fun _ => .zero) = 0 := by decide

/-! ### Adding -/

section Steps

variable {s : Vtt}

/-- A pair is written to a free place. -/
def addedAt (s : Vtt) (i : Nat) (pStrip gStrip : Bool) (cVlan sVlan : Nat) : Vtt :=
  ⟨{ s.info with
      numOfVttRecords := (s.info.numOfVttRecords + 1) % 256
      vttRecord := Function.update s.info.vttRecord i ⟨sVlan, cVlan, true⟩ },
    { s.chip with
      vtt := Function.update s.chip.vtt i ⟨true, pStrip, gStrip, cVlan % 4096, sVlan % 4096⟩ }⟩

theorem add_cases (hwOk : Bool) (s : Vtt) (pStrip gStrip : Bool) (cVlan sVlan : Nat) :
    (dalVttTagEntryAdd hwOk s pStrip gStrip cVlan sVlan).1 = s ∧
      (hwOk = true → ∀ i,
        addSearch s.info.vttRecord cVlan sVlan (List.range dalPortVttEntryNum) ≠ .empty i) ∨
    ∃ i, hwOk = true ∧
      addSearch s.info.vttRecord cVlan sVlan (List.range dalPortVttEntryNum) = .empty i ∧
      (dalVttTagEntryAdd hwOk s pStrip gStrip cVlan sVlan).1 =
        addedAt s i pStrip gStrip cVlan sVlan := by
  rw [dalVttTagEntryAdd]
  cases hsearch : addSearch s.info.vttRecord cVlan sVlan (List.range dalPortVttEntryNum) with
  | found => exact .inl ⟨rfl, fun _ i h => by cases h⟩
  | full => exact .inl ⟨rfl, fun _ i h => by cases h⟩
  | empty i =>
    cases hwOk with
    | false => exact .inl ⟨rfl, fun h => by cases h⟩
    | true => exact .inr ⟨i, rfl, rfl, rfl⟩

theorem Matched.addedAt_iff (h : Matched s) {i : Nat} (hi : i < dalPortVttEntryNum)
    (hfree : (s.info.vttRecord i).valid = false) (pStrip gStrip : Bool) (cVlan sVlan : Nat) :
    Matched (addedAt s i pStrip gStrip cVlan sVlan) ↔
      cVlan ≤ 4095 ∧ sVlan ≤ 4095 ∧
        ∀ j < dalPortVttEntryNum, ¬(s.info.vttRecord j).IsPair cVlan sVlan := by
  constructor
  · intro h'
    have hpair := h'.pair i hi (by simp [addedAt])
    simp only [addedAt, Function.update_self] at hpair
    refine ⟨by omega, by omega, ?_⟩
    intro j hj hj'
    have hne : j ≠ i := by
      rintro rfl
      rw [hj'.1] at hfree
      cases hfree
    apply hne
    apply h'.distinct j hj i hi cVlan sVlan
    · simpa [addedAt, hne] using hj'
    · simp [addedAt, VttRecord.IsPair]
  · rintro ⟨hc, hs, hnew⟩
    have hcount := validCount_update s.info.vttRecord hi ⟨sVlan, cVlan, true⟩
    have hle := validCount_le (Function.update s.info.vttRecord i ⟨sVlan, cVlan, true⟩)
    rw [hfree] at hcount
    simp only [Bool.toNat_false, Bool.toNat_true, Nat.add_zero] at hcount
    refine ⟨?_, ?_, ?_, ?_⟩
    · intro j hj
      by_cases hji : j = i
      · simp [addedAt, hji]
      · simpa [addedAt, hji] using h.active_eq j hj
    · intro j hj
      by_cases hji : j = i
      · simp only [addedAt, hji, Function.update_self]
        omega
      · simpa [addedAt, hji] using h.pair j hj
    · intro j hj k hk c v hj' hk'
      by_cases hji : j = i
      · by_cases hki : k = i
        · omega
        · simp only [addedAt, hji, hki, Function.update_self, Function.update_of_ne, ne_eq,
            not_false_eq_true] at hj' hk'
          obtain ⟨-, rfl, rfl⟩ := hj'
          exact absurd hk' (hnew k hk)
      · by_cases hki : k = i
        · simp only [addedAt, hji, hki, Function.update_self, Function.update_of_ne, ne_eq,
            not_false_eq_true] at hj' hk'
          obtain ⟨-, rfl, rfl⟩ := hk'
          exact absurd hj' (hnew j hj)
        · simp only [addedAt, hji, hki, Function.update_of_ne, ne_eq, not_false_eq_true] at hj' hk'
          exact h.distinct j hj k hk c v hj' hk'
    · simp only [addedAt]
      rw [h.count]
      omega

/-! ### Deleting -/

/-- The pair at `i` is removed. -/
def removedAt (s : Vtt) (i : Nat) : Vtt :=
  ⟨{ s.info with
      numOfVttRecords := (s.info.numOfVttRecords + 255) % 256
      vttRecord := Function.update s.info.vttRecord i .zero },
    { s.chip with vtt := Function.update s.chip.vtt i .zero }⟩

theorem removedAt_isPair {i j cVlan sVlan : Nat}
    (h : ((removedAt s i).info.vttRecord j).IsPair cVlan sVlan) :
    j ≠ i ∧ (s.info.vttRecord j).IsPair cVlan sVlan := by
  by_cases hji : j = i
  · simp [removedAt, hji, VttRecord.IsPair, VttRecord.zero] at h
  · exact ⟨hji, by simpa [removedAt, hji] using h⟩

theorem Matched.remove (h : Matched s) {i : Nat} (hi : i < dalPortVttEntryNum)
    (hvalid : (s.info.vttRecord i).valid = true) : Matched (removedAt s i) := by
  have hcount := validCount_update s.info.vttRecord hi .zero
  have hle := validCount_le s.info.vttRecord
  rw [hvalid] at hcount
  simp only [Bool.toNat_true, VttRecord.zero, Bool.toNat_false, Nat.add_zero] at hcount
  refine ⟨?_, ?_, ?_, ?_⟩
  · intro j hj
    by_cases hji : j = i
    · simp [removedAt, hji, VttEntry.zero, VttRecord.zero]
    · simpa [removedAt, hji] using h.active_eq j hj
  · intro j hj
    by_cases hji : j = i
    · simp [removedAt, hji, VttRecord.zero]
    · simpa [removedAt, hji] using h.pair j hj
  · intro j hj k hk c v hj' hk'
    exact h.distinct j hj k hk c v (removedAt_isPair hj').2 (removedAt_isPair hk').2
  · simp only [removedAt, VttRecord.zero]
    rw [h.count]
    omega

/-- Records and entries of a pair are the same thing. -/
theorem Matched.noEntry_iff (h : Matched s) (cVlan sVlan : Nat) :
    NoEntry s cVlan sVlan ↔
      ∀ i < dalPortVttEntryNum, ¬(s.info.vttRecord i).IsPair cVlan sVlan := by
  refine forall_congr' fun i => forall_congr' fun hi => ?_
  rw [h.active_eq i hi]
  constructor
  · rintro hno ⟨hvalid, hs, hc⟩
    obtain ⟨hc', hs'⟩ := h.pair i hi hvalid
    exact hno hvalid ⟨hc'.trans hc, hs'.trans hs⟩
  · rintro hno hvalid ⟨hc, hs⟩
    obtain ⟨hc', hs'⟩ := h.pair i hi hvalid
    exact hno ⟨hvalid, hs'.symm.trans hs, hc'.symm.trans hc⟩

theorem del_cases (hwOk : Bool) (h : Matched s) (hwidth : InWidth s) (cVlan sVlan : Nat) :
    (dalVttTagEntryDel hwOk s cVlan sVlan).1 = s ∧
      (hwOk = true → ∀ j < dalPortVttEntryNum, ¬(s.info.vttRecord j).IsPair cVlan sVlan) ∨
    ∃ i < dalPortVttEntryNum, hwOk = true ∧ (s.info.vttRecord i).IsPair cVlan sVlan ∧
      (dalVttTagEntryDel hwOk s cVlan sVlan).1 = removedAt s i := by
  rw [dalVttTagEntryDel]
  split
  · next hrange =>
    refine .inl ⟨rfl, ?_⟩
    rintro - j hj ⟨hvalid, hs, hc⟩
    have := h.pair j hj hvalid
    have := hwidth j hj
    omega
  · cases hsearch : delSearch s.info.vttRecord cVlan sVlan with
    | none => exact .inl ⟨rfl, fun _ j hj => delSearch_none hsearch hj⟩
    | some i =>
      obtain ⟨hi, hpair⟩ := delSearch_some hsearch
      cases hwOk with
      | false => exact .inl ⟨rfl, fun h => by cases h⟩
      | true => exact .inr ⟨i, hi, rfl, hpair, rfl⟩

/-! ### Setting a mode -/

/-- What the loop clears: everything in front of the first write that fails. -/
theorem clearEntries_spec (hwOk : Nat → Bool) (n m : Nat) (vtt : Nat → VttEntry) :
    ((clearEntries hwOk (List.range' n m) vtt).2 = true ↔
      ∀ k, n ≤ k → k < n + m → hwOk k = true) ∧
    ∀ i, (clearEntries hwOk (List.range' n m) vtt).1 i =
      if n ≤ i ∧ i < n + m ∧ (∀ k, n ≤ k → k ≤ i → hwOk k = true) then .zero else vtt i := by
  induction m generalizing n vtt with
  | zero =>
    refine ⟨iff_of_true rfl (fun k hle hlt => by omega), ?_⟩
    intro i
    rw [if_neg (by omega)]
    rfl
  | succ m ih =>
    rw [List.range'_succ, clearEntries]
    cases hn : hwOk n with
    | false =>
      rw [if_neg Bool.false_ne_true]
      refine ⟨iff_of_false Bool.false_ne_true ?_, ?_⟩
      · intro hall
        have := hall n (Nat.le_refl n) (by omega)
        rw [hn] at this
        cases this
      · intro i
        rw [if_neg]
        rintro ⟨hle, -, hall⟩
        have := hall n (Nat.le_refl n) hle
        rw [hn] at this
        cases this
    | true =>
      rw [if_pos rfl]
      obtain ⟨hok, htable⟩ := ih (n + 1) (Function.update vtt n .zero)
      refine ⟨?_, ?_⟩
      · rw [hok]
        constructor
        · intro hall k hle hlt
          by_cases hk : k = n
          · rw [hk, hn]
          · exact hall k (by omega) (by omega)
        · intro hall k hle hlt
          exact hall k (by omega) (by omega)
      · intro i
        rw [htable i]
        by_cases hi : i = n
        · subst hi
          rw [if_neg (by omega), Function.update_self, if_pos]
          refine ⟨Nat.le_refl i, by omega, ?_⟩
          intro k hle hle'
          rw [show k = i by omega, hn]
        · have hcond : (n + 1 ≤ i ∧ i < n + 1 + m ∧ ∀ k, n + 1 ≤ k → k ≤ i → hwOk k = true) ↔
              (n ≤ i ∧ i < n + (m + 1) ∧ ∀ k, n ≤ k → k ≤ i → hwOk k = true) := by
            constructor
            · rintro ⟨hle, hlt, hall⟩
              refine ⟨by omega, by omega, ?_⟩
              intro k hk hki
              by_cases hkn : k = n
              · rw [hkn, hn]
              · exact hall k (by omega) hki
            · rintro ⟨hle, hlt, hall⟩
              exact ⟨by omega, by omega, fun k hk hki => hall k (by omega) hki⟩
          simp only [hcond, Function.update_of_ne hi]

/-- The `switch` writes no translation entry, unless for the aggregation mode. -/
theorem programMode_vtt (hwOk : Nat → Bool) {mode : VlanMode} (hmode : mode ≠ .aggregation)
    (pvid : Nat) (chip : Chip) {i : Nat} (hi : i < dalPortVttEntryNum) :
    (programMode hwOk mode pvid chip).vtt i = chip.vtt i := by
  have hwrite : ∀ e, writeEntry hwOk dalPortPvidVttEntryStartNum e chip.vtt i = chip.vtt i := by
    intro e
    rw [writeEntry]
    split
    · exact Function.update_of_ne (Nat.ne_of_lt hi) ..
    · rfl
  cases mode with
  | aggregation => exact absurd rfl hmode
  | _ => exact hwrite _

theorem modeSet_spec (hwOk : Nat → Bool) (s : Vtt) {mode : Nat} {m : VlanMode}
    (hmode : VlanMode.ofNat? mode = some m) (hm : m ≠ .aggregation) :
    (dalVttModeSet hwOk s mode).info.vttRecord = (fun _ => .zero) ∧
      (dalVttModeSet hwOk s mode).info.numOfVttRecords = 0 ∧
      ∀ i < dalPortVttEntryNum, (dalVttModeSet hwOk s mode).chip.vtt i =
        if ∀ k ≤ i, hwOk k = true then .zero else s.chip.vtt i := by
  obtain ⟨-, htable⟩ := clearEntries_spec hwOk 0 dalPortVttEntryNum s.chip.vtt
  have hcleared : ∀ i < dalPortVttEntryNum,
      (clearEntries hwOk (List.range dalPortVttEntryNum) s.chip.vtt).1 i =
        if ∀ k ≤ i, hwOk k = true then .zero else s.chip.vtt i := by
    intro i hi
    rw [List.range_eq_range', htable i]
    have hcond : (0 ≤ i ∧ i < 0 + dalPortVttEntryNum ∧ ∀ k, 0 ≤ k → k ≤ i → hwOk k = true) ↔
        ∀ k ≤ i, hwOk k = true := by
      constructor
      · rintro ⟨-, -, hall⟩ k hk
        exact hall k (Nat.zero_le k) hk
      · intro hall
        exact ⟨Nat.zero_le i, by omega, fun k _ hk => hall k hk⟩
    simp only [hcond]
  rw [dalVttModeSet, hmode]
  by_cases hok : (clearEntries hwOk (List.range dalPortVttEntryNum) s.chip.vtt).2 = true
  · simp only [hok, hm, if_true, if_false]
    refine ⟨rfl, rfl, ?_⟩
    intro i hi
    rw [programMode_vtt hwOk hm _ _ hi]
    exact hcleared i hi
  · simp only [hok]
    exact ⟨rfl, rfl, hcleared⟩

/-- Records that are forgotten match the entries when no entry is left. -/
theorem modeSet_matched_iff (h : Matched s) (hwOk : Nat → Bool) {mode : Nat} {m : VlanMode}
    (hmode : VlanMode.ofNat? mode = some m) (hm : m ≠ .aggregation) :
    Matched (dalVttModeSet hwOk s mode) ↔ ∀ i < dalPortVttEntryNum,
      (∃ k ≤ i, hwOk k = false) → (s.info.vttRecord i).valid = false := by
  obtain ⟨hrecord, hnum, hvtt⟩ := modeSet_spec hwOk s hmode hm
  constructor
  · rintro h' i hi ⟨k, hk, hfail⟩
    have hactive := h'.active_eq i hi
    rw [hrecord, hvtt i hi, if_neg, h.active_eq i hi] at hactive
    · exact hactive
    · intro hall
      have := hall k hk
      rw [hfail] at this
      cases this
  · intro hclear
    refine ⟨?_, ?_, ?_, ?_⟩
    · intro i hi
      rw [hrecord, hvtt i hi]
      split
      · rfl
      · next hfail =>
        rw [h.active_eq i hi]
        apply hclear i hi
        simpa using hfail
    · intro i _ hvalid
      rw [hrecord] at hvalid
      cases hvalid
    · intro i _ j _ c v hpair
      rw [hrecord] at hpair
      cases hpair.1
    · rw [hnum, hrecord, validCount_zero]

/-! ### One step -/

theorem InWidth.step (h : InWidth s) (e : VttEvent) : InWidth (vttStep s e) := by
  intro i hi
  cases e with
  | add hwOk pStrip gStrip cVlan sVlan =>
    rcases add_cases hwOk s pStrip gStrip cVlan sVlan with ⟨heq, -⟩ | ⟨j, -, -, heq⟩
    · rw [vttStep, heq]
      exact h i hi
    · rw [vttStep, heq, addedAt]
      by_cases hij : i = j
      · simp only [hij, Function.update_self]
        omega
      · simpa [hij] using h i hi
  | del hwOk cVlan sVlan =>
    have hremoved : ∀ j, (removedAt s j).chip.vtt i = .zero ∨
        (removedAt s j).chip.vtt i = s.chip.vtt i := by
      intro j
      by_cases hij : i = j
      · exact .inl (by simp [removedAt, hij])
      · exact .inr (by simp [removedAt, hij])
    rw [vttStep, dalVttTagEntryDel]
    split
    · exact h i hi
    · split
      · exact h i hi
      · next j _ =>
        split
        · show ((removedAt s j).chip.vtt i).cVid ≤ _ ∧ ((removedAt s j).chip.vtt i).sVid ≤ _
          rcases hremoved j with heq | heq
          · rw [heq]
            decide
          · rw [heq]
            exact h i hi
        · exact h i hi
  | modeSet hwOk mode other =>
    rw [vttStep]
    cases hmode : VlanMode.ofNat? mode with
    | none =>
      rw [dalVttModeSet, hmode]
      exact h i hi
    | some m =>
      obtain ⟨-, -, hvtt⟩ := modeSet_spec hwOk s hmode (by rintro rfl; exact other hmode)
      rw [hvtt i hi]
      split
      · decide
      · exact h i hi

/-- A step leaves what it is to leave exactly when it is orderly. -/
theorem Matched.step_iff (h : Matched s) (hwidth : InWidth s) (e : VttEvent) :
    VttStepOk s e ↔ Orderly s e := by
  cases e with
  | add hwOk pStrip gStrip cVlan sVlan =>
    have hsplit : VttStepOk s (.add hwOk pStrip gStrip cVlan sVlan) ↔
        Matched (dalVttTagEntryAdd hwOk s pStrip gStrip cVlan sVlan).1 :=
      ⟨fun hok => hok.matched, fun hm => ⟨hm, fun _ _ _ he => by cases he⟩⟩
    rw [hsplit, Orderly]
    rcases add_cases hwOk s pStrip gStrip cVlan sVlan with ⟨heq, hno⟩ | ⟨i, hok, hsearch, heq⟩
    · rw [heq]
      exact iff_of_true h fun hok i hi => absurd hi (hno hok i)
    · obtain ⟨hmem, hfree⟩ := addSearch_empty hsearch
      rw [heq, h.addedAt_iff (List.mem_range.mp hmem) hfree]
      constructor
      · intro hcond _ j _
        exact hcond
      · intro hcond
        exact hcond hok i hsearch
  | del hwOk cVlan sVlan =>
    rw [Orderly]
    rcases del_cases hwOk h hwidth cVlan sVlan with ⟨heq, hno⟩ | ⟨i, hi, hok, hpair, heq⟩
    · constructor
      · rintro hok ⟨j, hj, hpair⟩
        have hentry := hok.deleted hwOk cVlan sVlan rfl
        rw [vttStep, heq, h.noEntry_iff] at hentry
        exact absurd hpair (hentry j hj)
      · intro hcond
        refine ⟨by rw [vttStep, heq]; exact h, ?_⟩
        rintro _ _ _ ⟨⟩
        rw [vttStep, heq, h.noEntry_iff]
        intro j hj hpair
        exact hno (hcond ⟨j, hj, hpair⟩) j hj hpair
    · refine iff_of_true ⟨by rw [vttStep, heq]; exact h.remove hi hpair.1, ?_⟩ fun _ => hok
      rintro _ _ _ ⟨⟩
      rw [vttStep, heq, (h.remove hi hpair.1).noEntry_iff]
      intro j hj hpair'
      obtain ⟨hji, hpairj⟩ := removedAt_isPair hpair'
      exact hji (h.distinct j hj i hi cVlan sVlan hpairj hpair)
  | modeSet hwOk mode other =>
    have hsplit : VttStepOk s (.modeSet hwOk mode other) ↔ Matched (dalVttModeSet hwOk s mode) :=
      ⟨fun hok => hok.matched, fun hm => ⟨hm, fun _ _ _ he => by cases he⟩⟩
    rw [hsplit, Orderly]
    cases hmode : VlanMode.ofNat? mode with
    | none =>
      rw [dalVttModeSet, hmode]
      exact iff_of_true h fun hne => absurd rfl hne
    | some m =>
      rw [modeSet_matched_iff h hwOk hmode (by rintro rfl; exact other hmode)]
      constructor
      · intro hall _
        exact hall
      · intro hall
        exact hall (by simp)

end Steps

/-! ### Runs -/

/-- The chip and the records after `dalVttInit`, as far as the records are concerned. -/
def Vtt.start : Vtt where
  info := .zero
  chip :=
    { vtt := Function.update (fun _ => .zero) dalPortPvidVttEntryStartNum
        ⟨true, true, true, 0xFFF, 0xFFF⟩
      lookupFailAction := true
      ponUntag := true
      ponTag := true
      geUntag := true
      geTag := true
      ponPvid := 0xFFF
      gePvid := 0xFFF
      geCos := 0
      tpid := 0x8100
      softLearnEn := false
      clsRules := [] }

theorem matched_start : Matched .start where
  active_eq := by decide
  pair i _ h := by cases h
  distinct i _ j _ c v h := absurd h.1 (by simp [Vtt.start, VlanConfiInfo.zero, VttRecord.zero])
  count := by decide

theorem inWidth_start : InWidth .start := by
  rw [InWidth]
  decide

/-- **Entries and records.**  In a run of adds, deletes and mode changes, with every write of
the chip succeeding or failing, every step leaves entries and records matched and a deleted
pair without an entry, exactly when every step is orderly. -/
theorem matched_iff_orderly (events : List VttEvent) :
    AllSteps vttStep VttStepOk .start events ↔ AllSteps vttStep Orderly .start events := by
  suffices hrun : ∀ s, Matched s → InWidth s →
      (AllSteps vttStep VttStepOk s events ↔ AllSteps vttStep Orderly s events) by
    exact hrun .start matched_start inWidth_start
  induction events with
  | nil => exact fun _ _ _ => Iff.rfl
  | cons e events ih =>
    intro s h hwidth
    rw [AllSteps, AllSteps, ← h.step_iff hwidth e]
    constructor
    · rintro ⟨hok, hrest⟩
      exact ⟨hok, (ih _ hok.matched (hwidth.step e)).mp hrest⟩
    · rintro ⟨hok, hrest⟩
      exact ⟨hok, (ih _ hok.matched (hwidth.step e)).mpr hrest⟩

/-- After a delete in front of it a pair is added a second time. -/
theorem pair_added_twice :
    ¬∀ events : List VttEvent, AllSteps vttStep VttStepOk .start events := by
  intro h
  have hok := h [.add true false false 10 10, .add true false false 20 20, .del true 10 10,
    .add true false false 20 20]
  have hsame := hok.2.2.2.1.matched.distinct 0 (by decide) 1 (by decide) 20 20
    (by decide) (by decide)
  cases hsame

end Opconn.Bridge
