import Opconn.Bridge.Arl
import Mathlib.Data.List.Nodup

/-!
# The limit of the ARL table

`dalArlMacNumLimitSet` keeps the number it is given in `ARLMACNUMLIMIT`, before it is checked
and also when the limit is switched off.  The flushes take the number from there: they block
the entries behind it and clear those in front of it, also where the table has none.
-/

namespace Opconn.Bridge

open Runs

/-! ### Loops over entries -/

section Sweeps

variable {f : MacEntry → MacEntry}

theorem sweep_inside {is : List Nat} (hlt : ∀ i ∈ is, i < ponBrgMacEntryNum) (hnodup : is.Nodup)
    (table : Nat → MacEntry) :
    (sweep f is table).ok = true ∧ (sweep f is table).addressed = is ∧
      ∀ j, (sweep f is table).table j = if j ∈ is then f (table j) else table j := by
  induction is generalizing table with
  | nil => exact ⟨rfl, rfl, fun j => by simp [sweep]⟩
  | cons i is ih =>
    obtain ⟨hi, hnodup'⟩ := List.nodup_cons.mp hnodup
    obtain ⟨hok, haddr, htable⟩ := ih (fun j hj => hlt j (List.mem_cons_of_mem i hj)) hnodup'
      (Function.update table i (f (table i)))
    rw [sweep, if_pos (hlt i (List.mem_cons_self ..))]
    refine ⟨hok, congrArg (i :: ·) haddr, ?_⟩
    intro j
    show (sweep f is _).table j = _
    rw [htable j]
    by_cases hji : j = i
    · subst hji
      simp [hi]
    · simp [hji]

/-- A loop that leaves the table stops there. -/
theorem sweep_outside {front : List Nat} (hlt : ∀ i ∈ front, i < ponBrgMacEntryNum) {i : Nat}
    (hi : ponBrgMacEntryNum ≤ i) (rest : List Nat) (table : Nat → MacEntry) :
    (sweep f (front ++ i :: rest) table).ok = false ∧
      i ∈ (sweep f (front ++ i :: rest) table).addressed := by
  induction front generalizing table with
  | nil =>
    rw [List.nil_append, sweep, if_neg (by omega)]
    exact ⟨rfl, List.mem_singleton_self i⟩
  | cons j front ih =>
    obtain ⟨hok, haddr⟩ := ih (fun k hk => hlt k (List.mem_cons_of_mem j hk))
      (Function.update table j (f (table j)))
    rw [List.cons_append, sweep, if_pos (hlt j (List.mem_cons_self ..))]
    exact ⟨hok, List.mem_cons_of_mem j haddr⟩

theorem flushSweep_inside {limit : Nat} (hle : limit ≤ ponBrgMacEntryNum)
    (table : Nat → MacEntry) :
    (flushSweep f limit table).ok = true ∧
      (∀ i ∈ (flushSweep f limit table).addressed, i < ponBrgMacEntryNum) ∧
      ∀ j < ponBrgMacEntryNum, (flushSweep f limit table).table j =
        if j < limit then f (table j) else .blocked := by
  have hfront : ∀ i ∈ List.range limit, i < ponBrgMacEntryNum := by
    intro i hi
    have := List.mem_range.mp hi
    omega
  have hback : ∀ i ∈ List.range' limit (ponBrgMacEntryNum - limit), i < ponBrgMacEntryNum := by
    intro i hi
    have := List.mem_range'_1.mp hi
    omega
  obtain ⟨hok, haddr, htable⟩ := sweep_inside (f := f) hfront List.nodup_range table
  obtain ⟨hok', haddr', htable'⟩ := sweep_inside (f := fun _ => .blocked) hback
    List.nodup_range' (sweep f (List.range limit) table).table
  rw [flushSweep, if_pos hok]
  refine ⟨hok', ?_, ?_⟩
  · intro i hi
    rcases List.mem_append.mp hi with hi | hi
    · rw [haddr] at hi
      exact hfront i hi
    · rw [haddr'] at hi
      exact hback i hi
  · intro j hj
    show (sweep _ _ _).table j = _
    rw [htable' j, htable j]
    simp only [List.mem_range'_1, List.mem_range]
    by_cases hlt : j < limit
    · rw [if_pos hlt, if_neg (by omega), if_pos hlt]
    · rw [if_neg hlt, if_neg hlt, if_pos (by omega)]

theorem flushSweep_outside {limit : Nat} (hlt : ponBrgMacEntryNum < limit)
    (table : Nat → MacEntry) : ponBrgMacEntryNum ∈ (flushSweep f limit table).addressed := by
  obtain ⟨more, rfl⟩ : ∃ more, limit = ponBrgMacEntryNum + (more + 1) :=
    ⟨limit - ponBrgMacEntryNum - 1, by omega⟩
  have hrange : List.range (ponBrgMacEntryNum + (more + 1)) =
      List.range ponBrgMacEntryNum ++ ponBrgMacEntryNum ::
        List.range' (ponBrgMacEntryNum + 1) more := by
    simp only [List.range_eq_range']
    rw [← List.range'_append_1, Nat.zero_add]
    rfl
  obtain ⟨hok, haddr⟩ := sweep_outside (f := f) (fun i hi => List.mem_range.mp hi)
    (Nat.le_refl ponBrgMacEntryNum) (List.range' (ponBrgMacEntryNum + 1) more) table
  rw [flushSweep, hrange, hok]
  exact haddr

end Sweeps

/-! ### Blocked entries -/

/-- The entries from `n` on are blocked, and no others. -/
def BlockedFrom (n : Nat) (table : Nat → MacEntry) : Prop :=
  ∀ i < ponBrgMacEntryNum, table i = .blocked ↔ n ≤ i

/-- How many entries the limit does not block. -/
def unblocked (table : Nat → MacEntry) : Nat :=
  (List.range ponBrgMacEntryNum).countP fun i => table i ≠ .blocked

theorem BlockedFrom.unblocked_eq {n : Nat} {table : Nat → MacEntry} (h : BlockedFrom n table)
    (hn : n ≤ ponBrgMacEntryNum) : unblocked table = n := by
  have hcount : ∀ i ∈ List.range ponBrgMacEntryNum,
      decide (table i ≠ .blocked) = true ↔ decide (i < n) = true := by
    intro i hi
    rw [decide_eq_true_iff, decide_eq_true_iff, ne_eq, h i (List.mem_range.mp hi), Nat.not_le]
  rw [unblocked, List.countP_congr hcount]
  obtain ⟨m, hm⟩ : ∃ m, ponBrgMacEntryNum = n + m := ⟨ponBrgMacEntryNum - n, by omega⟩
  rw [hm, List.range_eq_range', ← List.range'_append_1, List.countP_append,
    List.countP_eq_length.mpr, List.countP_eq_zero.mpr, List.length_range', Nat.add_zero]
  · intro i hi
    have := List.mem_range'_1.mp hi
    simp only [decide_eq_true_iff]
    omega
  · intro i hi
    have := List.mem_range'_1.mp hi
    simp only [decide_eq_true_iff]
    omega

/-- A write that neither covers a blocked entry nor makes one. -/
theorem BlockedFrom.write {n : Nat} {s : Arl} (h : BlockedFrom n s.table) {i : Nat} {e : MacEntry}
    (hold : s.table i ≠ .blocked) (hnew : e ≠ .blocked) : BlockedFrom n (s.write i e).table := by
  intro j hj
  by_cases hji : j = i
  · subst hji
    rw [Arl.write_table, Function.update_self, ← h j hj]
    exact iff_of_false hnew hold
  · rw [Arl.write_table, Function.update_of_ne hji]
    exact h j hj

theorem ne_blocked_of_age {e : MacEntry} (h : e.age = true) : e ≠ .blocked := by
  rintro rfl
  cases h

theorem BlockedFrom.macAdd {n : Nat} {s : Arl} (h : BlockedFrom n s.table) (portId vlanId : Nat)
    (mac : Mac) : BlockedFrom n (brgArlMacAdd s portId vlanId mac).1.table := by
  rw [brgArlMacAdd]
  split
  · exact h
  · split
    · next i _ =>
      dsimp only
      split
      · next hstate =>
        refine h.write ?_ (ne_blocked_of_age rfl)
        intro heq
        rw [heq] at hstate
        exact hstate rfl
      · rw [Arl.write, Function.update_eq_self]
        exact h
    · split
      · next i hfree =>
        refine h.write ?_ (ne_blocked_of_age rfl)
        intro heq
        have hf := List.find?_some hfree
        rw [heq] at hf
        exact absurd hf (by decide)
      · exact h

theorem macDel_arlMacNumLimit (s : Arl) (portId vlanId : Nat) (mac : Mac) :
    (brgArlMacDel s portId vlanId mac).1.arlMacNumLimit = s.arlMacNumLimit := by
  rw [brgArlMacDel]
  split
  · rfl
  · split
    · split <;> rfl
    · rfl

theorem BlockedFrom.macDel {n : Nat} {s : Arl} (h : BlockedFrom n s.table) (portId vlanId : Nat)
    (mac : Mac) : BlockedFrom n (brgArlMacDel s portId vlanId mac).1.table := by
  rw [brgArlMacDel]
  split
  · exact h
  · next htaken =>
    split
    · next i hexist =>
      split
      · exact h
      · refine h.write ?_ (by decide)
        intro heq
        have hstation := List.find?_some hexist
        rw [heq, decide_eq_true_iff] at hstation
        have hvlan : 0 = vlanId := congrArg Station.vlanId hstation
        omega
    · exact h

/-- A flush whose first loop makes no blocked entry. -/
theorem BlockedFrom.flush {f : MacEntry → MacEntry} {n limit : Nat} {table : Nat → MacEntry}
    (h : BlockedFrom n table) (hlimit : limit ≤ n) (hn : n ≤ ponBrgMacEntryNum)
    (hf : ∀ e, e ≠ .blocked → f e ≠ .blocked) :
    BlockedFrom limit (flushSweep f limit table).table := by
  obtain ⟨-, -, htable⟩ := flushSweep_inside (f := f) (hlimit.trans hn) table
  intro i hi
  rw [htable i hi]
  split
  · next hlt =>
    refine iff_of_false (hf _ ?_) (by omega)
    intro heq
    have := (h i hi).mp heq
    omega
  · exact iff_of_true rfl (by omega)

theorem dropDynamic_ne_blocked {e : MacEntry} (h : e ≠ .blocked) : dropDynamic e ≠ .blocked := by
  rw [dropDynamic]
  split
  · exact h
  · decide

theorem blockedFrom_limitSet (s : Arl) {num : Nat} (h : num ≤ ponBrgMacEntryNum) :
    BlockedFrom num (brgArlMacNumLimitSet s true num).1.table := by
  have hloop : ∀ k ≤ ponBrgMacEntryNum, ∀ j < ponBrgMacEntryNum,
      (List.range k).foldl
        (fun t index => Function.update t (ponBrgMacEntryNum - 1 - index) .blocked)
        (brgArlInit s).table j = if ponBrgMacEntryNum - k ≤ j then .blocked else .zero := by
    intro k hk j hj
    induction k with
    | zero =>
      rw [if_neg (by omega)]
      exact if_pos hj
    | succ k ih =>
      rw [List.range_succ, List.foldl_append, List.foldl_cons, List.foldl_nil]
      by_cases hjk : j = ponBrgMacEntryNum - 1 - k
      · rw [hjk, Function.update_self, if_pos (by omega)]
      · rw [Function.update_of_ne hjk, ih (by omega)]
        by_cases hle : ponBrgMacEntryNum - k ≤ j
        · rw [if_pos hle, if_pos (by omega)]
        · rw [if_neg hle, if_neg (by omega)]
  intro i hi
  rw [brgArlMacNumLimitSet, if_pos rfl, if_neg (by omega)]
  show (List.range _).foldl _ (brgArlInit s).table i = _ ↔ _
  rw [hloop _ (by omega) i hi]
  split
  · exact iff_of_true rfl (by omega)
  · exact iff_of_false (by decide) (by omega)

theorem blockedFrom_limitOff (s : Arl) (num : Nat) :
    BlockedFrom ponBrgMacEntryNum (brgArlMacNumLimitSet s false num).1.table := by
  intro i hi
  refine iff_of_false ?_ (by omega)
  rw [brgArlMacNumLimitSet, if_neg (by decide)]
  show (if i < ponBrgMacEntryNum then MacEntry.zero else _) ≠ _
  rw [if_pos hi]
  decide

/-! ### Runs -/

/-- The table, and the limit that was accepted last; `none` while there is none. -/
structure Limited where
  arl : Arl
  limit : Option Nat

def Limited.start : Limited := ⟨.start, none⟩

inductive LimitEvent where
  | limitSet (enable : Bool) (num : Nat)
  | flushAll
  | flushDynamic
  | macAdd (portId vlanId : Nat) (mac : Mac)
  | macDel (portId vlanId : Nat) (mac : Mac)

def limitStep (s : Limited) : LimitEvent → Limited
  | .limitSet enable num =>
    let r := dalArlMacNumLimitSet s.arl enable num
    ⟨r.1, if r.2 = .ok then if enable then some num else none else s.limit⟩
  | .flushAll => { s with arl := dalArlFlushAll s.arl }
  | .flushDynamic => { s with arl := dalArlFlushDynamic s.arl }
  | .macAdd portId vlanId mac => { s with arl := (brgArlMacAdd s.arl portId vlanId mac).1 }
  | .macDel portId vlanId mac => { s with arl := (brgArlMacDel s.arl portId vlanId mac).1 }

/-- Whether a call is rejected. -/
def rejected (s : Limited) : LimitEvent → Prop
  | .limitSet enable num => (dalArlMacNumLimitSet s.arl enable num).2 ≠ .ok
  | _ => False

/-- The entries a flush addresses. -/
def addressed (s : Limited) : LimitEvent → List Nat
  | .flushAll => (flushSweep (fun _ => .zero) s.arl.arlMacNumLimit s.arl.table).addressed
  | .flushDynamic => (flushSweep dropDynamic s.arl.arlMacNumLimit s.arl.table).addressed
  | _ => []

/-- What a step is to do. -/
structure StepOk (s : Limited) (e : LimitEvent) : Prop where
  unblocked_eq : unblocked (limitStep s e).arl.table = (limitStep s e).limit.getD ponBrgMacEntryNum
  rejected_same : rejected s e → (limitStep s e).arl = s.arl
  inside : ∀ i ∈ addressed s e, i < ponBrgMacEntryNum

/-- A limit that is set is one that the table has room for, or the number that is in
`ARLMACNUMLIMIT` already; and while there is no limit, a flush finds the whole table there. -/
def LimitInForce (s : Limited) : LimitEvent → Prop
  | .limitSet enable num =>
    enable = true → num ≤ ponBrgMacEntryNum ∨ num = s.arl.arlMacNumLimit
  | .flushAll | .flushDynamic => s.limit = none → s.arl.arlMacNumLimit = ponBrgMacEntryNum
  | .macAdd .. | .macDel .. => True

structure LimitInv (s : Limited) : Prop where
  blocked : BlockedFrom (s.limit.getD ponBrgMacEntryNum) s.arl.table
  limit_le : ∀ n, s.limit = some n → n ≤ ponBrgMacEntryNum ∧ s.arl.arlMacNumLimit = n

theorem LimitInv.getD_le {s : Limited} (h : LimitInv s) :
    s.limit.getD ponBrgMacEntryNum ≤ ponBrgMacEntryNum := by
  cases hlimit : s.limit with
  | none => exact Nat.le_refl _
  | some n => exact (h.limit_le n hlimit).1

theorem LimitInv.unblocked_eq {s : Limited} (h : LimitInv s) :
    unblocked s.arl.table = s.limit.getD ponBrgMacEntryNum :=
  h.blocked.unblocked_eq h.getD_le

theorem limitInv_start : LimitInv .start where
  blocked := by
    intro i hi
    refine iff_of_false ?_ (by exact Nat.not_le.mpr hi)
    exact (by decide : MacEntry.zero ≠ .blocked)
  limit_le n hn := by cases hn

/-- A flush of either kind. -/
theorem LimitInv.flush {s : Limited} (h : LimitInv s) {f : MacEntry → MacEntry}
    (hf : ∀ e, e ≠ .blocked → f e ≠ .blocked) :
    ((s.limit = none → s.arl.arlMacNumLimit = ponBrgMacEntryNum) →
      LimitInv { s with arl := s.arl.afterFlush (flushSweep f s.arl.arlMacNumLimit s.arl.table) } ∧
      ∀ i ∈ (flushSweep f s.arl.arlMacNumLimit s.arl.table).addressed, i < ponBrgMacEntryNum) ∧
    (unblocked (flushSweep f s.arl.arlMacNumLimit s.arl.table).table =
        s.limit.getD ponBrgMacEntryNum →
      (∀ i ∈ (flushSweep f s.arl.arlMacNumLimit s.arl.table).addressed, i < ponBrgMacEntryNum) →
      s.limit = none → s.arl.arlMacNumLimit = ponBrgMacEntryNum) := by
  have hblocked : s.arl.arlMacNumLimit ≤ s.limit.getD ponBrgMacEntryNum →
      BlockedFrom s.arl.arlMacNumLimit (flushSweep f s.arl.arlMacNumLimit s.arl.table).table :=
    fun hle => h.blocked.flush hle h.getD_le hf
  refine ⟨?_, ?_⟩
  · intro hforce
    have heq : s.arl.arlMacNumLimit = s.limit.getD ponBrgMacEntryNum := by
      cases hlimit : s.limit with
      | none => exact hforce hlimit
      | some n => exact (h.limit_le n hlimit).2
    obtain ⟨-, hinside, -⟩ := flushSweep_inside (f := f) (heq ▸ h.getD_le) s.arl.table
    refine ⟨⟨?_, h.limit_le⟩, hinside⟩
    show BlockedFrom (s.limit.getD ponBrgMacEntryNum) (flushSweep f _ _).table
    rw [← heq]
    exact hblocked (Nat.le_of_eq heq)
  · intro hcount hinside hnone
    rw [hnone] at hcount hblocked
    -- beyond the table the loop addresses entry 64, inside it blocks what should be free
    have hle : s.arl.arlMacNumLimit ≤ ponBrgMacEntryNum := by
      by_contra hgt
      exact absurd (hinside _ (flushSweep_outside (by omega) s.arl.table)) (Nat.lt_irrefl _)
    rw [(hblocked hle).unblocked_eq hle] at hcount
    exact hcount

/-- The number is kept although it is refused. -/
theorem dalArlMacNumLimitSet_rejected (s : Arl) {num : Nat} (h : ponBrgMacEntryNum < num) :
    dalArlMacNumLimitSet s true num = ({ s with arlMacNumLimit := num }, .invalidParameters) := by
  rw [dalArlMacNumLimitSet, brgArlMacNumLimitSet, if_pos rfl, if_pos h]

theorem dalArlMacNumLimitSet_accepted (s : Arl) (enable : Bool) {num : Nat}
    (h : enable = true → num ≤ ponBrgMacEntryNum) :
    (dalArlMacNumLimitSet s enable num).2 = .ok ∧
      (dalArlMacNumLimitSet s enable num).1.arlMacNumLimit = num := by
  rw [dalArlMacNumLimitSet, brgArlMacNumLimitSet]
  cases enable with
  | false => exact ⟨rfl, rfl⟩
  | true =>
    rw [if_pos rfl, if_neg (by have := h rfl; omega)]
    exact ⟨rfl, rfl⟩

theorem LimitInv.limitSet {s : Limited} (h : LimitInv s) (enable : Bool) (num : Nat) :
    (LimitInForce s (.limitSet enable num) → LimitInv (limitStep s (.limitSet enable num)) ∧
      (rejected s (.limitSet enable num) → (limitStep s (.limitSet enable num)).arl = s.arl)) ∧
    ((rejected s (.limitSet enable num) → (limitStep s (.limitSet enable num)).arl = s.arl) →
      LimitInForce s (.limitSet enable num)) := by
  by_cases hok : enable = true → num ≤ ponBrgMacEntryNum
  · obtain ⟨hstatus, hnum⟩ := dalArlMacNumLimitSet_accepted s.arl enable hok
    refine ⟨fun _ => ⟨?_, fun hrej => absurd hstatus hrej⟩, fun _ henable => .inl (hok henable)⟩
    rw [limitStep, if_pos hstatus]
    cases enable with
    | false => exact ⟨blockedFrom_limitOff _ num, fun n hn => by cases hn⟩
    | true =>
      refine ⟨blockedFrom_limitSet _ (hok rfl), ?_⟩
      intro n hn
      cases hn
      exact ⟨hok rfl, hnum⟩
  · obtain ⟨rfl, hgt⟩ : enable = true ∧ ponBrgMacEntryNum < num := by
      simpa using hok
    have hset := dalArlMacNumLimitSet_rejected s.arl hgt
    have hrej : rejected s (.limitSet true num) := by
      rw [rejected, hset]
      exact (by decide : Status.invalidParameters ≠ .ok)
    have hstep : limitStep s (.limitSet true num) =
        ⟨{ s.arl with arlMacNumLimit := num }, s.limit⟩ := by
      rw [limitStep, hset]
      rfl
    constructor
    · intro hforce
      have heq : num = s.arl.arlMacNumLimit := (hforce rfl).resolve_left (by omega)
      rw [hstep, heq]
      exact ⟨h, fun _ => rfl⟩
    · intro hsame _
      have heq := hsame hrej
      rw [hstep] at heq
      exact .inr (congrArg Arl.arlMacNumLimit heq)

/-- A step that is neither rejected nor addresses an entry. -/
theorem LimitInv.stepOk {s : Limited} {e : LimitEvent} (h : LimitInv (limitStep s e))
    (hrej : ¬rejected s e) (haddr : addressed s e = []) : StepOk s e where
  unblocked_eq := h.unblocked_eq
  rejected_same hr := absurd hr hrej
  inside i hi := by
    rw [haddr] at hi
    cases hi

/-- A step that flushes, with either kind of flush. -/
theorem LimitInv.flushStep {s : Limited} (h : LimitInv s) {e : LimitEvent}
    {f : MacEntry → MacEntry} (hf : ∀ e, e ≠ .blocked → f e ≠ .blocked)
    (hstep : limitStep s e =
      { s with arl := s.arl.afterFlush (flushSweep f s.arl.arlMacNumLimit s.arl.table) })
    (haddr : addressed s e = (flushSweep f s.arl.arlMacNumLimit s.arl.table).addressed)
    (hrej : ¬rejected s e)
    (hforce : LimitInForce s e ↔ (s.limit = none → s.arl.arlMacNumLimit = ponBrgMacEntryNum)) :
    (LimitInForce s e → LimitInv (limitStep s e)) ∧ (StepOk s e ↔ LimitInForce s e) := by
  obtain ⟨hkeep, hneed⟩ := h.flush hf
  rw [hforce]
  refine ⟨?_, ?_, ?_⟩
  · intro hcond
    rw [hstep]
    exact (hkeep hcond).1
  · intro hok
    refine hneed ?_ (haddr ▸ hok.inside)
    have hcount := hok.unblocked_eq
    rw [hstep] at hcount
    exact hcount
  · intro hcond
    obtain ⟨hinv, hinside⟩ := hkeep hcond
    refine ⟨?_, fun hr => absurd hr hrej, haddr ▸ hinside⟩
    rw [hstep]
    exact hinv.unblocked_eq

/-- A step does what it is to do exactly when it meets the condition, and keeps the
invariant. -/
theorem LimitInv.step {s : Limited} (h : LimitInv s) (e : LimitEvent) :
    (LimitInForce s e → LimitInv (limitStep s e)) ∧ (StepOk s e ↔ LimitInForce s e) := by
  cases e with
  | limitSet enable num =>
    obtain ⟨hkeep, hneed⟩ := h.limitSet enable num
    refine ⟨fun hforce => (hkeep hforce).1, fun hok => hneed hok.rejected_same, ?_⟩
    intro hforce
    obtain ⟨hinv, hsame⟩ := hkeep hforce
    exact ⟨hinv.unblocked_eq, hsame, fun i hi => by cases hi⟩
  | flushAll => exact h.flushStep (f := fun _ => .zero) (fun _ _ => by decide) rfl rfl id Iff.rfl
  | flushDynamic => exact h.flushStep (fun _ => dropDynamic_ne_blocked) rfl rfl id Iff.rfl
  | macAdd portId vlanId mac =>
    have hinv : LimitInv (limitStep s (.macAdd portId vlanId mac)) := by
      refine ⟨h.blocked.macAdd portId vlanId mac, ?_⟩
      intro n hn
      rw [limitStep, brgArlMacAdd_frame]
      exact h.limit_le n hn
    exact ⟨fun _ => hinv, iff_of_true (hinv.stepOk id rfl) trivial⟩
  | macDel portId vlanId mac =>
    have hinv : LimitInv (limitStep s (.macDel portId vlanId mac)) := by
      refine ⟨h.blocked.macDel portId vlanId mac, ?_⟩
      intro n hn
      rw [limitStep, macDel_arlMacNumLimit]
      exact h.limit_le n hn
    exact ⟨fun _ => hinv, iff_of_true (hinv.stepOk id rfl) trivial⟩

/-- **The limit.**  In a run of limit calls, flushes and static adds and deletes every step
leaves as many entries unblocked as the limit says, changes nothing when it is rejected and
addresses no entry outside of the table, exactly when every step meets the condition. -/
theorem limit_kept_iff (events : List LimitEvent) :
    AllSteps limitStep StepOk .start events ↔ AllSteps limitStep LimitInForce .start events := by
  suffices hrun : ∀ s, LimitInv s →
      (AllSteps limitStep StepOk s events ↔ AllSteps limitStep LimitInForce s events) by
    exact hrun .start limitInv_start
  induction events with
  | nil => exact fun _ _ => Iff.rfl
  | cons e events ih =>
    intro s h
    obtain ⟨hinv, hiff⟩ := h.step e
    rw [AllSteps, AllSteps, hiff]
    constructor
    · rintro ⟨hforce, hrest⟩
      exact ⟨hforce, (ih _ (hinv hforce)).mp hrest⟩
    · rintro ⟨hforce, hrest⟩
      exact ⟨hforce, (ih _ (hinv hforce)).mpr hrest⟩

/-- The limit is switched off with the number 10, and a flush blocks 54 entries. -/
theorem flush_blocks_without_limit :
    ¬∀ events : List LimitEvent, AllSteps limitStep StepOk .start events := by
  intro h
  have hcount := (h [.limitSet false 10, .flushAll]).2.1.unblocked_eq
  revert hcount
  decide +kernel

end Opconn.Bridge
