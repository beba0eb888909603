import Opconn.Bridge.Arl
import Mathlib.Data.List.Infix

/-!
# Learned stations and their flush

A learned station is in the list and in the table.  The list follows a station that moves to
the other port; the table does not, since the entry it finds is static already.  The flush
deletes an entry only under the port that the list has, and none of VLAN 0, which
`brgArlMacAdd` takes and `brgArlMacDel` refuses.
-/

namespace Opconn.Bridge

open KeyedList Runs

theorem stationKeys_same_iff {k l : Station} : stationKeys.same k l = true ↔ k = l :=
  decide_eq_true_iff

/-! ### A table that is filled from its front -/

/-- The first `n` entries are static and of different stations, the others are clear. -/
structure Filled (table : Nat → MacEntry) (n : Nat) : Prop where
  le : n ≤ ponBrgMacEntryNum
  static : ∀ i < n, (table i).state = .validStatic
  clear : ∀ i, n ≤ i → i < ponBrgMacEntryNum → table i = .zero
  inj : ∀ i < n, ∀ j < n, (table i).station = (table j).station → i = j

theorem filled_start : Filled Arl.start.table 0 :=
  ⟨Nat.zero_le _, fun _ h => absurd h (Nat.not_lt_zero _), fun _ _ _ => rfl,
    fun _ h => absurd h (Nat.not_lt_zero _)⟩

theorem Filled.free_iff {table : Nat → MacEntry} {n : Nat} (h : Filled table n) {i : Nat}
    (hi : i < ponBrgMacEntryNum) : (table i).Free ↔ n ≤ i := by
  constructor
  · intro hfree
    by_contra hlt
    rw [MacEntry.Free, h.static i (by omega)] at hfree
    rcases hfree with hfree | hfree <;> cases hfree
  · intro hle
    rw [h.clear i hle hi]
    exact .inl rfl

/-- A station that has an entry is found there. -/
theorem Filled.exist_of_mem {table : Nat → MacEntry} {n : Nat} (h : Filled table n) {i : Nat}
    (hi : i < n) : brgArlMacExist table (table i).station = some i := by
  rw [brgArlMacExist, List.find?_range_eq_some]
  have hle := h.le
  refine ⟨by simp, by simp; omega, ?_⟩
  intro j hj
  have hne : (table j).station ≠ (table i).station := by
    intro heq
    have := h.inj j (by omega) i hi heq
    omega
  simpa using hne

/-- A station that has none is not found; one without VLAN and address is found in the first
entry that is clear. -/
theorem Filled.exist_of_not_mem {table : Nat → MacEntry} {n : Nat} (h : Filled table n)
    {k : Station} (hk : ∀ i < n, (table i).station ≠ k) :
    brgArlMacExist table k = if k = MacEntry.zero.station ∧ n < ponBrgMacEntryNum then some n
      else none := by
  have hclear : ∀ i, n ≤ i → i < ponBrgMacEntryNum →
      ((table i).station = k ↔ k = MacEntry.zero.station) := by
    intro i hle hlt
    rw [h.clear i hle hlt, eq_comm]
  split
  · next hz =>
    rw [brgArlMacExist, List.find?_range_eq_some]
    refine ⟨?_, by simpa using hz.2, ?_⟩
    · simpa using (hclear n (Nat.le_refl n) hz.2).mpr hz.1
    · intro j hj
      simpa using hk j hj
  · next hz =>
    rw [brgArlMacExist, List.find?_eq_none]
    intro i hi
    rw [List.mem_range] at hi
    rw [decide_eq_true_iff]
    by_cases hlt : i < n
    · exact hk i hlt
    · rw [hclear i (by omega) hi]
      intro heq
      exact hz ⟨heq, by omega⟩

theorem Filled.freeEntryFind {table : Nat → MacEntry} {n : Nat} (h : Filled table n) :
    brgArlFreeEntryFind table = if n < ponBrgMacEntryNum then some n else none := by
  split
  · next hlt =>
    rw [brgArlFreeEntryFind, List.find?_range_eq_some]
    refine ⟨by simpa using (h.free_iff hlt).mpr (Nat.le_refl n), by simpa using hlt, ?_⟩
    intro j hj
    have hnot := mt (h.free_iff (i := j) (by omega)).mp (by omega)
    simpa using hnot
  · next hge =>
    rw [brgArlFreeEntryFind, List.find?_eq_none]
    intro i hi
    rw [List.mem_range] at hi
    have hnot := mt (h.free_iff hi).mp (by omega)
    simpa using hnot

/-- The table with one more station. -/
theorem Filled.push {table : Nat → MacEntry} {n : Nat} (h : Filled table n)
    (hn : n < ponBrgMacEntryNum) {e : MacEntry} (he : e.state = .validStatic)
    (hnew : ∀ i < n, (table i).station ≠ e.station) :
    Filled (Function.update table n e) (n + 1) where
  le := hn
  static i hi := by
    by_cases heq : i = n
    · rw [heq, Function.update_self, he]
    · rw [Function.update_of_ne heq]
      exact h.static i (by omega)
  clear i hle hlt := by
    rw [Function.update_of_ne (by omega)]
    exact h.clear i (by omega) hlt
  inj i hi j hj heq := by
    by_cases hin : i = n
    · by_cases hjn : j = n
      · omega
      · rw [hin, Function.update_self, Function.update_of_ne hjn] at heq
        exact absurd heq.symm (hnew j (by omega))
    · by_cases hjn : j = n
      · rw [hjn, Function.update_self, Function.update_of_ne hin] at heq
        exact absurd heq (hnew i (by omega))
      · rw [Function.update_of_ne hin, Function.update_of_ne hjn] at heq
        exact h.inj i (by omega) j (by omega) heq

/-- **`brgArlMacAdd` on a filled table.**  The station has an entry and nothing changes, or it
is given the first clear entry, or there is none. -/
theorem Filled.add_cases {s : Arl} {n : Nat} (h : Filled s.table n) (portId : Nat) {vlanId : Nat}
    (mac : Mac) (hvlan : vlanId ≤ maxNumOfVlan) :
    (∃ i < n, (s.table i).station = ⟨vlanId, mac⟩ ∧ (brgArlMacAdd s portId vlanId mac).1 = s) ∨
    (∀ i < n, (s.table i).station ≠ ⟨vlanId, mac⟩) ∧ n < ponBrgMacEntryNum ∧
      (brgArlMacAdd s portId vlanId mac).1 = s.write n (staticEntry portId ⟨vlanId, mac⟩) ∨
    (∀ i < n, (s.table i).station ≠ ⟨vlanId, mac⟩) ∧ n = ponBrgMacEntryNum ∧
      (brgArlMacAdd s portId vlanId mac).1 = s := by
  rw [brgArlMacAdd, if_neg (by omega)]
  by_cases hmem : ∃ i < n, (s.table i).station = ⟨vlanId, mac⟩
  · obtain ⟨i, hi, hstation⟩ := hmem
    refine .inl ⟨i, hi, hstation, ?_⟩
    rw [← hstation, h.exist_of_mem hi]
    simp only [h.static i hi, ne_eq, not_true_eq_false, if_false, Arl.write,
      Function.update_eq_self]
  · have hnew : ∀ i < n, (s.table i).station ≠ ⟨vlanId, mac⟩ := by
      intro i hi heq
      exact hmem ⟨i, hi, heq⟩
    refine .inr ?_
    rw [h.exist_of_not_mem hnew, h.freeEntryFind]
    by_cases hlt : n < ponBrgMacEntryNum
    · refine .inl ⟨hnew, hlt, ?_⟩
      by_cases hzero : (⟨vlanId, mac⟩ : Station) = MacEntry.zero.station
      · -- the clear entry itself is found
        obtain ⟨rfl, rfl⟩ : vlanId = 0 ∧ mac = 0 := by
          simpa [MacEntry.station, MacEntry.zero] using hzero
        rw [if_pos ⟨hzero, hlt⟩]
        have hport : (if 0 ≠ portId then portId % 2 else 0) = portId % 2 := by
          split <;> omega
        simp only [h.clear n (Nat.le_refl n) hlt, MacEntry.zero, staticEntry, hport]
        rfl
      · rw [if_neg (by simp [hzero]), if_pos hlt]
    · refine .inr ⟨hnew, by have := h.le; omega, ?_⟩
      rw [if_neg (by simp [hlt]), if_neg hlt]

theorem Filled.add {s : Arl} {n : Nat} (h : Filled s.table n) (portId vlanId : Nat) (mac : Mac) :
    ∃ n', Filled (brgArlMacAdd s portId vlanId mac).1.table n' := by
  by_cases hvlan : vlanId ≤ maxNumOfVlan
  · rcases h.add_cases portId mac hvlan with ⟨i, hi, -, heq⟩ | ⟨hnew, hlt, heq⟩ | ⟨-, -, heq⟩
    · rw [heq]
      exact ⟨n, h⟩
    · rw [heq]
      exact ⟨n + 1, h.push hlt rfl hnew⟩
    · rw [heq]
      exact ⟨n, h⟩
  · rw [brgArlMacAdd, if_pos (by omega)]
    exact ⟨n, h⟩

/-! ### Flush -/

/-- Two entries of one VLAN and address, if the VLAN is not 0, are one. -/
def UniqueStations (table : Nat → MacEntry) : Prop :=
  ∀ i < ponBrgMacEntryNum, ∀ j < ponBrgMacEntryNum, (table i).vlanId ≠ 0 →
    (table i).station = (table j).station → i = j

theorem Filled.unique {table : Nat → MacEntry} {n : Nat} (h : Filled table n) :
    UniqueStations table := by
  intro i hi j hj hvlan heq
  have hlt : ∀ i < ponBrgMacEntryNum, (table i).vlanId ≠ 0 → i < n := by
    intro i hi hvlan
    by_contra hge
    rw [h.clear i (by omega) hi] at hvlan
    exact hvlan rfl
  have hvlans : (table i).vlanId = (table j).vlanId := congrArg Station.vlanId heq
  exact h.inj i (hlt i hi hvlan) j (hlt j hj (hvlans ▸ hvlan)) heq

/-- The entry that `brgArlMacDel` clears. -/
def Deletes (portId : Nat) (k : Station) (e : MacEntry) : Prop :=
  e.vlanId ≠ 0 ∧ e.vlanId ≤ maxNumOfVlan ∧ e.station = k ∧ e.portId = portId

instance (portId : Nat) (k : Station) (e : MacEntry) : Decidable (Deletes portId k e) :=
  inferInstanceAs (Decidable (_ ∧ _ ∧ _ ∧ _))

theorem macDel_table {s : Arl} (h : UniqueStations s.table) (portId vlanId : Nat) (mac : Mac)
    {i : Nat} (hi : i < ponBrgMacEntryNum) :
    (brgArlMacDel s portId vlanId mac).1.table i =
      if Deletes portId ⟨vlanId, mac⟩ (s.table i) then .zero else s.table i := by
  rw [brgArlMacDel]
  split
  · next hrefused =>
    rw [if_neg]
    rintro ⟨hvlan, hle, hstation, -⟩
    have : (s.table i).vlanId = vlanId := congrArg Station.vlanId hstation
    omega
  · next htaken =>
    cases hexist : brgArlMacExist s.table ⟨vlanId, mac⟩ with
    | none =>
      rw [if_neg]
      rintro ⟨-, -, hstation, -⟩
      rw [brgArlMacExist, List.find?_eq_none] at hexist
      have hne := hexist i (List.mem_range.mpr hi)
      rw [decide_eq_true_iff] at hne
      exact hne hstation
    | some j =>
      obtain ⟨hj, hjlt, -⟩ := List.find?_range_eq_some.mp hexist
      rw [decide_eq_true_iff] at hj
      rw [List.mem_range] at hjlt
      have hvlan : (s.table j).vlanId = vlanId := congrArg Station.vlanId hj
      dsimp only
      by_cases hij : i = j
      · subst hij
        by_cases hport : (s.table i).portId = portId
        · have hdel : Deletes portId ⟨vlanId, mac⟩ (s.table i) :=
            ⟨by omega, by omega, hj, hport⟩
          rw [if_neg (not_not.mpr hport), if_pos hdel]
          exact Function.update_self ..
        · rw [if_pos hport, if_neg]
          rintro ⟨-, -, -, h⟩
          exact hport h
      · have hnot : ¬Deletes portId ⟨vlanId, mac⟩ (s.table i) := by
          rintro ⟨hne, -, hstation, -⟩
          exact hij (h i hi j hjlt hne (hstation.trans hj.symm))
        rw [if_neg hnot]
        split
        · rfl
        · exact Function.update_of_ne hij ..

theorem macDel_unique {s : Arl} (h : UniqueStations s.table) (portId vlanId : Nat) (mac : Mac) :
    UniqueStations (brgArlMacDel s portId vlanId mac).1.table := by
  intro i hi j hj hvlan heq
  rw [macDel_table h _ _ _ hi] at hvlan heq
  rw [macDel_table h _ _ _ hj] at heq
  split at hvlan
  · exact absurd rfl hvlan
  · next hnot =>
    rw [if_neg hnot] at heq
    split at heq
    · exact absurd (congrArg Station.vlanId heq) hvlan
    · exact h i hi j hj hvlan heq

/-- **Flush.**  An entry is cleared when the list has its station under its port. -/
theorem flushList_table {records : List (Station × Nat)} (hdistinct : Distinct stationKeys records)
    {s : Arl} (h : UniqueStations s.table) {i : Nat} (hi : i < ponBrgMacEntryNum) :
    (flushList records s).table i =
      if (s.table i).vlanId ≠ 0 ∧ (s.table i).vlanId ≤ maxNumOfVlan ∧
          lookup stationKeys (s.table i).station records = some (s.table i).portId then .zero
      else s.table i := by
  induction records generalizing s with
  | nil => simp [flushList]
  | cons r records ih =>
    obtain ⟨k, portId⟩ := r
    obtain ⟨-, htail⟩ := List.pairwise_cons.mp hdistinct
    rw [flushList, ih htail (macDel_unique h _ _ _), macDel_table h _ _ _ hi, lookup_cons]
    by_cases hk : (s.table i).station = k
    · have hsame : stationKeys.same (s.table i).station k = true := stationKeys_same_iff.mpr hk
      have hgone : lookup stationKeys (s.table i).station records = none :=
        hdistinct.lookup_tail hsame
      by_cases hdel : Deletes portId k (s.table i)
      · have hport := hdel.2.2.2
        simp [hdel, hdel.1, hdel.2.1, hsame, hport, MacEntry.zero]
      · have hnot : ¬((s.table i).vlanId ≠ 0 ∧ (s.table i).vlanId ≤ maxNumOfVlan ∧
            some portId = some (s.table i).portId) := by
          rintro ⟨hvlan, hle, hport⟩
          exact hdel ⟨hvlan, hle, hk, (Option.some.inj hport).symm⟩
        rw [if_neg hdel, hgone, if_neg (by simp), if_pos hsame, if_neg hnot]
    · have hdel : ¬Deletes portId k (s.table i) := by
        rintro ⟨-, -, hstation, -⟩
        exact hk hstation
      have hsame : stationKeys.same (s.table i).station k = false := by
        rw [← Bool.not_eq_true, stationKeys_same_iff]
        exact hk
      simp only [hdel, hsame, if_false, Bool.false_eq_true]

/-! ### Learning -/

theorem Capture.vlanId_le (c : Capture) : c.vlanId ≤ maxNumOfVlan := by
  rw [vlanId]
  split
  · rw [BitVec.toNat_and]
    exact Nat.and_le_right
  · exact Nat.zero_le _

theorem Capture.portId_le (c : Capture) : c.portId ≤ 1 := by
  rw [portId]
  split
  · rw [BitVec.toNat_and]
    exact Nat.and_le_right
  · exact Nat.zero_le _

theorem softArlMacAdd_lookup (s : Arl) (portId vlanId : Nat) (mac : Mac) (k : Station) :
    lookup stationKeys k (brgSoftArlMacAdd s portId vlanId mac).softLearnMacs =
      if k = ⟨vlanId, mac⟩ then some portId else lookup stationKeys k s.softLearnMacs := by
  have hsame : ∀ v : Option Nat, (if stationKeys.same k ⟨vlanId, mac⟩ then some portId else v) =
      if k = ⟨vlanId, mac⟩ then some portId else v := by
    intro v
    simp only [stationKeys_same_iff]
  rw [brgSoftArlMacAdd]
  split
  · next hold =>
    have hne : lookup stationKeys ⟨vlanId, mac⟩ s.softLearnMacs ≠ none :=
      Option.isSome_iff_ne_none.mp hold
    rw [lookup_replaceFirst _ hne, hsame]
  · next hnew =>
    rw [lookup_append_new _ (Option.not_isSome_iff_eq_none.mp hnew), hsame]

theorem softArlMacAdd_distinct {s : Arl} (h : Distinct stationKeys s.softLearnMacs)
    (portId vlanId : Nat) (mac : Mac) :
    Distinct stationKeys (brgSoftArlMacAdd s portId vlanId mac).softLearnMacs := by
  rw [brgSoftArlMacAdd]
  split
  · exact h.replaceFirst _ _
  · next hnew => exact h.append_new (Option.not_isSome_iff_eq_none.mp hnew) _

@[simp] theorem softArlMacAdd_table (s : Arl) (portId vlanId : Nat) (mac : Mac) :
    (brgSoftArlMacAdd s portId vlanId mac).table = s.table := by
  rw [brgSoftArlMacAdd]
  split <;> rfl

/-- The state of a run of learning that started with the table `t₀`, whose first `n₀` entries
were added. -/
structure Learned (t₀ : Nat → MacEntry) (n₀ : Nat) (s : Arl) (n : Nat) (learned : List Station) :
    Prop where
  filled : Filled s.table n
  le : n₀ ≤ n
  kept : ∀ i < n₀, s.table i = t₀ i
  vlan_le : ∀ i, n₀ ≤ i → i < n → (s.table i).vlanId ≤ maxNumOfVlan
  distinct : Distinct stationKeys s.softLearnMacs
  listed : ∀ k, lookup stationKeys k s.softLearnMacs ≠ none → k ∈ learned

/-- Every entry that was not there at the start is one that the flush deletes. -/
def Recorded (t₀ : Nat → MacEntry) (s : Arl) : Prop :=
  ∀ i < ponBrgMacEntryNum, (t₀ i).Free → ¬(s.table i).Free →
    (s.table i).vlanId ≠ 0 ∧
      lookup stationKeys (s.table i).station s.softLearnMacs = some (s.table i).portId

/-- What a flush is to leave: nothing in the entries that were free before learning, and the
entries that learning did not touch as they were. -/
def FlushKeeps (t₀ t : Nat → MacEntry) (learned : List Station) : Prop :=
  ∀ i < ponBrgMacEntryNum, ((t₀ i).Free → (t i).Free) ∧
    (¬(t₀ i).Free → (t₀ i).station ∉ learned → t i = t₀ i)

section Learning

variable {t₀ : Nat → MacEntry} {n₀ : Nat} {s : Arl} {n : Nat} {learned : List Station}

theorem Learned.flushKeeps_iff (h₀ : Filled t₀ n₀) (h : Learned t₀ n₀ s n learned) :
    FlushKeeps t₀ (brgSoftArlMacFlush s).table learned ↔ Recorded t₀ s := by
  have htable : ∀ i < ponBrgMacEntryNum, (brgSoftArlMacFlush s).table i = _ :=
    fun i hi => flushList_table h.distinct h.filled.unique hi
  constructor
  · intro hkeeps i hi hfree₀ hused
    have hfree := (hkeeps i hi).1 hfree₀
    rw [htable i hi] at hfree
    split at hfree
    · next hdel => exact ⟨hdel.1, hdel.2.2⟩
    · exact absurd hfree hused
  · intro hrec i hi
    rw [htable i hi]
    refine ⟨?_, ?_⟩
    · intro hfree₀
      split
      · exact .inl rfl
      · next hnot =>
        by_contra hused
        obtain ⟨hvlan, hlookup⟩ := hrec i hi hfree₀ hused
        have hle : (s.table i).vlanId ≤ maxNumOfVlan := by
          have hn := mt (h.filled.free_iff hi).mpr hused
          exact h.vlan_le i ((h₀.free_iff hi).mp hfree₀) (by omega)
        exact hnot ⟨hvlan, hle, hlookup⟩
    · intro hused₀ hnew
      have hlt := mt (h₀.free_iff hi).mpr hused₀
      have heq := h.kept i (by omega)
      rw [if_neg, heq]
      rintro ⟨-, -, hlookup⟩
      rw [heq] at hlookup
      apply hnew
      apply h.listed
      rw [hlookup]
      exact Option.some_ne_none _

/-- A learning step that leaves nothing behind: its station was added before, or the full
table does not take it, or it is not of VLAN 0 and on the port of the entry it has. -/
def LearnsCleanly (t₀ : Nat → MacEntry) (s : Arl) (c : Capture) : Prop :=
  (∃ i < ponBrgMacEntryNum, ¬(t₀ i).Free ∧ (t₀ i).station = c.station) ∨
  brgArlMacExist s.table c.station = none ∧ brgArlFreeEntryFind s.table = none ∨
  c.vlanId ≠ 0 ∧ ∀ i, brgArlMacExist s.table c.station = some i → (s.table i).portId = c.portId

/-- The three ways of a learning step, with the condition in each. -/
theorem Learned.intProcess_cases (h₀ : Filled t₀ n₀) (h : Learned t₀ n₀ s n learned)
    (c : Capture) :
    (∃ i < n, (s.table i).station = c.station ∧ (brgArlIntProcess s c).table = s.table ∧
      (LearnsCleanly t₀ s c ↔ i < n₀ ∨ c.vlanId ≠ 0 ∧ (s.table i).portId = c.portId)) ∨
    (∀ i < n, (s.table i).station ≠ c.station) ∧ n < ponBrgMacEntryNum ∧
      (brgArlIntProcess s c).table =
        Function.update s.table n (staticEntry c.portId c.station) ∧
      (LearnsCleanly t₀ s c ↔ c.vlanId ≠ 0) ∨
    (∀ i < n, (s.table i).station ≠ c.station) ∧ n = ponBrgMacEntryNum ∧
      (brgArlIntProcess s c).table = s.table ∧ LearnsCleanly t₀ s c := by
  have hfilled : Filled (brgSoftArlMacAdd s c.portId c.vlanId c.mac).table n := by
    rw [softArlMacAdd_table]
    exact h.filled
  have hstart : ∀ i < n₀, ¬(t₀ i).Free := by
    intro i hi
    have hle := h₀.le
    rw [h₀.free_iff (by omega)]
    omega
  have hadded : (∃ i < ponBrgMacEntryNum, ¬(t₀ i).Free ∧ (t₀ i).station = c.station) →
      ∃ i < n₀, (s.table i).station = c.station := by
    rintro ⟨i, hi, hused, hstation⟩
    have hlt := mt (h₀.free_iff hi).mpr hused
    refine ⟨i, by omega, ?_⟩
    rw [h.kept i (by omega), hstation]
  have hle := h.le
  have hcases := hfilled.add_cases c.portId c.mac c.vlanId_le
  simp only [softArlMacAdd_table] at hcases
  rcases hcases with ⟨i, hi, hstation, heq⟩ | ⟨hnew, hlt, heq⟩ | ⟨hnew, hfull, heq⟩
  · refine .inl ⟨i, hi, hstation, ?_, ?_⟩
    · rw [brgArlIntProcess, heq, softArlMacAdd_table]
    · have hexist : brgArlMacExist s.table c.station = some i := by
        rw [← show (s.table i).station = c.station from hstation]
        exact h.filled.exist_of_mem hi
      constructor
      · rintro (hmem | ⟨hnone, -⟩ | ⟨hvlan, hport⟩)
        · obtain ⟨j, hj, hjstation⟩ := hadded hmem
          have hij := h.filled.inj i hi j (by omega) (hstation.trans hjstation.symm)
          exact .inl (by omega)
        · rw [hexist] at hnone
          cases hnone
        · exact .inr ⟨hvlan, hport i hexist⟩
      · rintro (hmem | ⟨hvlan, hport⟩)
        · refine .inl ⟨i, by have := h₀.le; omega, hstart i hmem, ?_⟩
          rw [← h.kept i hmem]
          exact hstation
        · refine .inr (.inr ⟨hvlan, ?_⟩)
          intro j hj
          rw [hexist] at hj
          cases hj
          exact hport
  · refine .inr (.inl ⟨hnew, hlt, ?_, ?_⟩)
    · rw [brgArlIntProcess, heq, Arl.write, softArlMacAdd_table]
      rfl
    · constructor
      · rintro (hmem | ⟨-, hnone⟩ | ⟨hvlan, -⟩)
        · obtain ⟨j, hj, hjstation⟩ := hadded hmem
          exact absurd hjstation (hnew j (by omega))
        · rw [h.filled.freeEntryFind, if_pos hlt] at hnone
          cases hnone
        · exact hvlan
      · intro hvlan
        refine .inr (.inr ⟨hvlan, ?_⟩)
        intro i hexist
        rw [h.filled.exist_of_not_mem (k := c.station) hnew, if_neg] at hexist
        · cases hexist
        · rintro ⟨hzero, -⟩
          exact hvlan (congrArg Station.vlanId hzero)
  · refine .inr (.inr ⟨hnew, hfull, ?_, ?_⟩)
    · rw [brgArlIntProcess, heq, softArlMacAdd_table]
    · refine .inr (.inl ⟨?_, ?_⟩)
      · rw [h.filled.exist_of_not_mem (k := c.station) hnew, if_neg]
        rintro ⟨-, hlt⟩
        omega
      · rw [h.filled.freeEntryFind, if_neg (by omega)]

theorem intProcess_softLearnMacs (s : Arl) (c : Capture) :
    (brgArlIntProcess s c).softLearnMacs =
      (brgSoftArlMacAdd s c.portId c.vlanId c.mac).softLearnMacs := by
  rw [brgArlIntProcess, brgArlMacAdd_frame]

theorem intProcess_lookup (s : Arl) (c : Capture) (k : Station) :
    lookup stationKeys k (brgArlIntProcess s c).softLearnMacs =
      if k = c.station then some c.portId else lookup stationKeys k s.softLearnMacs := by
  rw [intProcess_softLearnMacs, softArlMacAdd_lookup]
  rfl

theorem Learned.intProcess (h₀ : Filled t₀ n₀) (h : Learned t₀ n₀ s n learned) (c : Capture) :
    ∃ n', Learned t₀ n₀ (brgArlIntProcess s c) n' (learned ++ [c.station]) := by
  have hdistinct : Distinct stationKeys (brgArlIntProcess s c).softLearnMacs := by
    rw [intProcess_softLearnMacs]
    exact softArlMacAdd_distinct h.distinct _ _ _
  have hlisted : ∀ k, lookup stationKeys k (brgArlIntProcess s c).softLearnMacs ≠ none →
      k ∈ learned ++ [c.station] := by
    intro k hk
    rw [intProcess_lookup] at hk
    split at hk
    · next heq => simp [heq]
    · exact List.mem_append_left _ (h.listed k hk)
  rcases h.intProcess_cases h₀ c with ⟨-, -, -, htable, -⟩ | ⟨hnew, hlt, htable, -⟩ |
    ⟨-, -, htable, -⟩
  · refine ⟨n, ?_, h.le, ?_, ?_, hdistinct, hlisted⟩ <;> rw [htable]
    · exact h.filled
    · exact h.kept
    · exact h.vlan_le
  · refine ⟨n + 1, ?_, by have := h.le; omega, ?_, ?_, hdistinct, hlisted⟩ <;> rw [htable]
    · exact h.filled.push hlt rfl hnew
    · intro i hi
      rw [Function.update_of_ne (by have := h.le; omega)]
      exact h.kept i hi
    · intro i hle hi
      by_cases heq : i = n
      · rw [heq, Function.update_self]
        exact c.vlanId_le
      · rw [Function.update_of_ne heq]
        exact h.vlan_le i hle (by omega)
  · refine ⟨n, ?_, h.le, ?_, ?_, hdistinct, hlisted⟩ <;> rw [htable]
    · exact h.filled
    · exact h.kept
    · exact h.vlan_le

/-- An entry of another station is recorded as before. -/
theorem recorded_of_ne {i : Nat} (c : Capture) (hne : (s.table i).station ≠ c.station)
    (hlookup : lookup stationKeys (s.table i).station s.softLearnMacs = some (s.table i).portId) :
    lookup stationKeys (s.table i).station (brgArlIntProcess s c).softLearnMacs =
      some (s.table i).portId := by
  rw [intProcess_lookup, if_neg hne, hlookup]

/-- The table is left as it was; only the entry of the station has to be looked at. -/
theorem Learned.recorded_iff_of_same (h₀ : Filled t₀ n₀) (h : Learned t₀ n₀ s n learned)
    (hrec : Recorded t₀ s) {c : Capture} (htable : (brgArlIntProcess s c).table = s.table)
    {i : Nat} (hi : i < n) (hstation : (s.table i).station = c.station) :
    Recorded t₀ (brgArlIntProcess s c) ↔
      i < n₀ ∨ c.vlanId ≠ 0 ∧ (s.table i).portId = c.portId := by
  have hle := h.filled.le
  have hvlan : (s.table i).vlanId = c.vlanId := congrArg Station.vlanId hstation
  constructor
  · intro hrec'
    by_cases hlt : i < n₀
    · exact .inl hlt
    · have hused : ¬(s.table i).Free := by
        rw [h.filled.free_iff (by omega)]
        omega
      rw [← htable] at hused
      obtain ⟨hne, hlookup⟩ := hrec' i (by omega) ((h₀.free_iff (by omega)).mpr (by omega)) hused
      rw [htable, hvlan] at hne
      rw [htable, intProcess_lookup, if_pos hstation, Option.some.injEq] at hlookup
      exact .inr ⟨hne, hlookup.symm⟩
  · intro hclean j hj hfree₀ hused
    rw [htable] at hused ⊢
    obtain ⟨hne, hlookup⟩ := hrec j hj hfree₀ hused
    by_cases heq : (s.table j).station = c.station
    · have hjn := mt (h.filled.free_iff hj).mpr hused
      have hij := h.filled.inj i hi j (by omega) (hstation.trans heq.symm)
      subst hij
      rcases hclean with hlt | ⟨-, hport⟩
      · have := (h₀.free_iff hj).mp hfree₀
        omega
      · refine ⟨hne, ?_⟩
        rw [intProcess_lookup, if_pos heq, hport]
    · exact ⟨hne, recorded_of_ne c heq hlookup⟩

theorem Learned.recorded_iff_of_new (h₀ : Filled t₀ n₀) (h : Learned t₀ n₀ s n learned)
    (hrec : Recorded t₀ s) {c : Capture} (hnew : ∀ i < n, (s.table i).station ≠ c.station)
    (hlt : n < ponBrgMacEntryNum)
    (htable : (brgArlIntProcess s c).table =
      Function.update s.table n (staticEntry c.portId c.station)) :
    Recorded t₀ (brgArlIntProcess s c) ↔ c.vlanId ≠ 0 := by
  constructor
  · intro hrec'
    have hused : ¬((brgArlIntProcess s c).table n).Free := by
      rw [htable, Function.update_self]
      rintro (hfree | hfree) <;> cases hfree
    obtain ⟨hne, -⟩ := hrec' n hlt ((h₀.free_iff hlt).mpr h.le) hused
    rw [htable, Function.update_self] at hne
    exact hne
  · intro hvlan j hj hfree₀ hused
    rw [htable] at hused ⊢
    by_cases heq : j = n
    · subst heq
      rw [Function.update_self]
      have hport : c.portId % 2 = c.portId := Nat.mod_eq_of_lt (by have := c.portId_le; omega)
      have hstation : (staticEntry c.portId c.station).station = c.station := rfl
      refine ⟨hvlan, ?_⟩
      rw [intProcess_lookup, if_pos hstation, staticEntry, hport]
    · rw [Function.update_of_ne heq] at hused ⊢
      obtain ⟨hne, hlookup⟩ := hrec j hj hfree₀ hused
      have hjn := mt (h.filled.free_iff hj).mpr hused
      exact ⟨hne, recorded_of_ne c (hnew j (by omega)) hlookup⟩

/-- A step keeps what is learned recorded exactly when it meets the condition. -/
theorem Learned.recorded_iff (h₀ : Filled t₀ n₀) (h : Learned t₀ n₀ s n learned)
    (hrec : Recorded t₀ s) (c : Capture) :
    Recorded t₀ (brgArlIntProcess s c) ↔ LearnsCleanly t₀ s c := by
  rcases h.intProcess_cases h₀ c with ⟨i, hi, hstation, htable, hclean⟩ |
    ⟨hnew, hlt, htable, hclean⟩ | ⟨hnew, hfull, htable, hclean⟩
  · rw [hclean]
    exact h.recorded_iff_of_same h₀ hrec htable hi hstation
  · rw [hclean]
    exact h.recorded_iff_of_new h₀ hrec hnew hlt htable
  · refine iff_of_true ?_ hclean
    intro j hj hfree₀ hused
    rw [htable] at hused ⊢
    obtain ⟨hne, hlookup⟩ := hrec j hj hfree₀ hused
    have hjn := mt (h.filled.free_iff hj).mpr hused
    exact ⟨hne, recorded_of_ne c (hnew j (by omega)) hlookup⟩

end Learning

/-! ### Runs -/

/-- A call of `brgArlMacAdd`. -/
structure AddCall where
  portId : Nat
  vlanId : Nat
  mac : Mac

/-- The table when learning starts. -/
def afterAdds (adds : List AddCall) : Arl :=
  run (fun s a => (brgArlMacAdd s a.portId a.vlanId a.mac).1) .start adds

theorem afterAdds_filled (adds : List AddCall) :
    (∃ n₀, Filled (afterAdds adds).table n₀) ∧ (afterAdds adds).softLearnMacs = [] := by
  induction adds using List.reverseRecOn with
  | nil => exact ⟨⟨0, filled_start⟩, rfl⟩
  | append_singleton adds a ih =>
    obtain ⟨⟨n₀, hfilled⟩, hempty⟩ := ih
    rw [afterAdds, run_append]
    refine ⟨hfilled.add a.portId a.vlanId a.mac, ?_⟩
    rw [← hempty, run_cons, brgArlMacAdd_frame]
    rfl

/-- The state after the captures. -/
def learn (s : Arl) (captures : List Capture) : Arl := run brgArlIntProcess s captures

theorem learned_run {s₀ : Arl} {n₀ : Nat} (h₀ : Filled s₀.table n₀) (hempty : s₀.softLearnMacs = [])
    (captures : List Capture) :
    ∃ n, Learned s₀.table n₀ (learn s₀ captures) n (captures.map Capture.station) := by
  induction captures using List.reverseRecOn with
  | nil =>
    refine ⟨n₀, h₀, Nat.le_refl _, fun _ _ => rfl, fun i hle hlt => by omega, ?_, ?_⟩
    · show Distinct stationKeys s₀.softLearnMacs
      rw [hempty]
      exact List.Pairwise.nil
    · intro k hk
      rw [show (learn s₀ []).softLearnMacs = [] from hempty] at hk
      exact absurd rfl hk
  | append_singleton captures c ih =>
    obtain ⟨n, h⟩ := ih
    rw [learn, run_append, List.map_append]
    exact h.intProcess h₀ c

theorem recorded_run_iff {s₀ : Arl} {n₀ : Nat} (h₀ : Filled s₀.table n₀)
    (hempty : s₀.softLearnMacs = []) (captures : List Capture) :
    (∀ front, front <+: captures → Recorded s₀.table (learn s₀ front)) ↔
      AllSteps brgArlIntProcess (LearnsCleanly s₀.table) s₀ captures := by
  induction captures using List.reverseRecOn with
  | nil =>
    refine iff_of_true ?_ trivial
    intro front hfront
    rw [List.prefix_nil.mp hfront]
    intro i _ hfree hused
    exact absurd hfree hused
  | append_singleton captures c ih =>
    rw [AllSteps.append_iff, ← ih]
    obtain ⟨n, h⟩ := learned_run h₀ hempty captures
    have hstep : Recorded s₀.table (learn s₀ captures) →
        (Recorded s₀.table (learn s₀ (captures ++ [c])) ↔
          AllSteps brgArlIntProcess (LearnsCleanly s₀.table)
            (run brgArlIntProcess s₀ captures) [c]) := by
      intro hrec
      rw [learn, run_append]
      exact (h.recorded_iff h₀ hrec c).trans (and_iff_left trivial).symm
    constructor
    · intro hall
      have hfront : ∀ front, front <+: captures → Recorded s₀.table (learn s₀ front) :=
        fun front hpre => hall front (hpre.trans (List.prefix_append ..))
      exact ⟨hfront, (hstep (hfront captures (List.prefix_refl _))).mp
        (hall _ (List.prefix_refl _))⟩
    · rintro ⟨hfront, hlast⟩ front hpre
      rcases List.prefix_concat_iff.mp hpre with rfl | hpre
      · exact (hstep (hfront captures (List.prefix_refl _))).mpr hlast
      · exact hfront front hpre

/-- **Flush of what was learned.**  Whatever was added before, a flush after any part of the
captures leaves no learned entry and no entry changed that learning did not touch, exactly
when every capture is clean. -/
theorem softArlMacFlush_keeps_iff (adds : List AddCall) (captures : List Capture) :
    (∀ front, front <+: captures →
      FlushKeeps (afterAdds adds).table
        (brgSoftArlMacFlush (learn (afterAdds adds) front)).table (front.map Capture.station)) ↔
      AllSteps brgArlIntProcess (LearnsCleanly (afterAdds adds).table) (afterAdds adds) captures := by
  obtain ⟨⟨n₀, h₀⟩, hempty⟩ := afterAdds_filled adds
  rw [← recorded_run_iff h₀ hempty captures]
  refine forall_congr' fun front => forall_congr' fun _ => ?_
  obtain ⟨n, h⟩ := learned_run h₀ hempty front
  exact h.flushKeeps_iff h₀

/-- A station of VLAN 10 on port 0, and the same station on port 1. -/
def movingStation : List Capture := [⟨0x22334455, 0x800a0011, 0⟩, ⟨0x22334455, 0x900a0011, 0⟩]

/-- A station that has moved is still in the table after the flush. -/
theorem moved_station_stays :
    ¬∀ (adds : List AddCall) (captures : List Capture),
      FlushKeeps (afterAdds adds).table
        (brgSoftArlMacFlush (learn (afterAdds adds) captures)).table
        (captures.map Capture.station) := by
  intro h
  have hfree := (h [] movingStation 0 (by decide)).1 (by decide)
  revert hfree
  decide +kernel

end Opconn.Bridge
