import Mathlib.Data.Finset.Insert
import Mathlib.Data.List.Dedup
import Mathlib.Data.Finset.Card
import Mathlib.Logic.Function.Basic

/-!
# Noting values once, with a search that reads too far

Values are noted in an array unless they are there.  The search for a value looks at one slot too
many: the next one to be written, with whatever was in memory before.  Which values are lost
depends on these contents; how many are noted is bounded from above by the number of distinct
values and from below by `fewest`, and both bounds are met.
-/

namespace Opconn.Noting

variable {α : Type*} [DecidableEq α]

/-- The array and how many slots of it are written. -/
structure Notes (α : Type*) where
  slots : Nat → α
  count : Nat

/-- The search, up to and with the slot behind the written ones. -/
def Notes.seen (n : Notes α) (a : α) : Bool :=
  (List.range (n.count + 1)).any fun j => decide (n.slots j = a)

def Notes.note (n : Notes α) (a : α) : Notes α :=
  if n.seen a then n else ⟨Function.update n.slots n.count a, n.count + 1⟩

def Notes.noteAll (n : Notes α) (as : List α) : Notes α := as.foldl Notes.note n

/-! ### The values that are noted -/

/-- The values noted behind `kept`, with `memory` as it was before. -/
def keep (memory : Nat → α) : List α → List α → List α
  | kept, [] => kept
  | kept, a :: as =>
    if a ∈ kept ∨ memory kept.length = a then keep memory kept as
    else keep memory (kept ++ [a]) as

/-- The array has the kept values, and behind them the memory as it was. -/
structure Notes.Holds (n : Notes α) (memory : Nat → α) (kept : List α) : Prop where
  count : n.count = kept.length
  written : ∀ j (hj : j < kept.length), n.slots j = kept[j]
  unwritten : ∀ j, kept.length ≤ j → n.slots j = memory j

theorem Notes.Holds.seen_iff {n : Notes α} {memory : Nat → α} {kept : List α}
    (h : n.Holds memory kept) (a : α) :
    n.seen a = true ↔ a ∈ kept ∨ memory kept.length = a := by
  simp only [Notes.seen, List.any_eq_true, List.mem_range, decide_eq_true_eq, h.count]
  constructor
  · rintro ⟨j, hj, rfl⟩
    rcases Nat.lt_succ_iff_lt_or_eq.mp hj with hlt | rfl
    · rw [h.written j hlt]
      exact .inl (List.getElem_mem hlt)
    · exact .inr (h.unwritten _ le_rfl).symm
  · rintro (hmem | hnext)
    · obtain ⟨j, hj, rfl⟩ := List.getElem_of_mem hmem
      exact ⟨j, Nat.lt_succ_of_lt hj, h.written j hj⟩
    · exact ⟨kept.length, Nat.lt_succ_self _, (h.unwritten _ le_rfl).trans hnext⟩

omit [DecidableEq α] in
theorem Notes.Holds.noted {n : Notes α} {memory : Nat → α} {kept : List α}
    (h : n.Holds memory kept) (a : α) :
    Notes.Holds ⟨Function.update n.slots n.count a, n.count + 1⟩ memory (kept ++ [a]) := by
  rw [h.count]
  refine ⟨by simp, ?_, ?_⟩
  · intro j hj
    rw [List.length_append, List.length_singleton] at hj
    rcases Nat.lt_succ_iff_lt_or_eq.mp hj with hlt | rfl
    · rw [List.getElem_append_left hlt]
      exact (Function.update_of_ne (Nat.ne_of_lt hlt) _ _).trans (h.written j hlt)
    · rw [List.getElem_concat_length rfl]
      exact Function.update_self _ _ _
  · intro j hj
    rw [List.length_append, List.length_singleton] at hj
    exact (Function.update_of_ne (Nat.ne_of_gt hj) _ _).trans
      (h.unwritten j (Nat.le_of_succ_le hj))

theorem Notes.Holds.count_noteAll {memory : Nat → α} {as kept : List α} {n : Notes α}
    (h : n.Holds memory kept) : (n.noteAll as).count = (keep memory kept as).length := by
  induction as generalizing n kept with
  | nil => exact h.count
  | cons a as ih =>
    rw [Notes.noteAll, List.foldl_cons, Notes.note, keep]
    by_cases hseen : n.seen a = true
    · rw [if_pos hseen, if_pos ((h.seen_iff a).mp hseen)]
      exact ih h
    · rw [if_neg hseen, if_neg fun hmem => hseen ((h.seen_iff a).mpr hmem)]
      exact ih (h.noted a)

/-- From an array with nothing written. -/
theorem count_noteAll (memory : Nat → α) (as : List α) :
    (Notes.noteAll ⟨memory, 0⟩ as).count = (keep memory [] as).length := by
  apply Notes.Holds.count_noteAll
  refine ⟨rfl, ?_, fun _ _ => rfl⟩
  intro j hj
  cases hj

/-! ### What some memory leads to -/

/-- The number of values that some memory lets be noted behind `kept`.  While a slot is the next
one it stands for at most one value that is passed over. -/
inductive Attained : List α → Option α → List α → Nat → Prop
  | done {kept passed} : Attained kept passed [] 0
  | again {kept passed a as n} (h : a ∈ kept ∨ passed = some a)
      (hrest : Attained kept passed as n) : Attained kept passed (a :: as) n
  | pass {kept a as n} (h : a ∉ kept) (hrest : Attained kept (some a) as n) :
      Attained kept none (a :: as) n
  | note {kept passed a as n} (h : a ∉ kept) (hpassed : passed ≠ some a)
      (hrest : Attained (kept ++ [a]) none as n) : Attained kept passed (a :: as) (n + 1)

/-- Every memory leads to an attained number. -/
theorem attained_keep (memory : Nat → α) (kept : List α) (passed : Option α)
    (hpassed : ∀ a, passed = some a → memory kept.length = a) (as : List α) :
    ∃ n, Attained kept passed as n ∧ (keep memory kept as).length = kept.length + n := by
  induction as generalizing kept passed with
  | nil => exact ⟨0, .done, rfl⟩
  | cons a as ih =>
    rw [keep]
    by_cases hmem : a ∈ kept
    · rw [if_pos (.inl hmem)]
      obtain ⟨n, hn, hlength⟩ := ih kept passed hpassed
      exact ⟨n, .again (.inl hmem) hn, hlength⟩
    · by_cases hnext : memory kept.length = a
      · rw [if_pos (.inr hnext)]
        obtain ⟨n, hn, hlength⟩ := ih kept (some a) fun b hb => by
          cases hb
          exact hnext
        refine ⟨n, ?_, hlength⟩
        cases passed with
        | none => exact .pass hmem hn
        | some b =>
          have hsame : b = a := (hpassed b rfl).symm.trans hnext
          subst hsame
          exact .again (.inr rfl) hn
      · rw [if_neg (not_or.mpr ⟨hmem, hnext⟩)]
        obtain ⟨n, hn, hlength⟩ := ih (kept ++ [a]) none (by simp)
        refine ⟨n + 1, .note hmem (fun hsome => hnext (hpassed a hsome)) hn, ?_⟩
        rw [hlength, List.length_append, List.length_singleton]
        omega

/-- What is kept depends on the unwritten slots only. -/
theorem keep_congr {memory : Nat → α} (memory' : Nat → α) {kept : List α}
    (h : ∀ j, kept.length ≤ j → memory j = memory' j) (as : List α) :
    keep memory kept as = keep memory' kept as := by
  induction as generalizing kept with
  | nil => rfl
  | cons a as ih =>
    rw [keep, keep, h _ le_rfl, ih h]
    have hlater := @ih (kept ++ [a]) fun j hj => h j <| by
      rw [List.length_append] at hj
      exact Nat.le_of_add_right_le hj
    rw [hlater]

/-- Every attained number has a memory that leads to it. -/
theorem exists_memory [Nontrivial α] {kept as : List α} {passed : Option α} {n : Nat}
    (h : Attained kept passed as n) :
    ∃ memory : Nat → α, (∀ a, passed = some a → memory kept.length = a) ∧
      (keep memory kept as).length = kept.length + n := by
  induction h with
  | @done kept passed =>
    obtain ⟨a⟩ : Nonempty α := inferInstance
    exact ⟨fun _ => passed.getD a, fun b hb => by rw [hb]; rfl, rfl⟩
  | again hseen _ ih =>
    obtain ⟨memory, hpassed, hlength⟩ := ih
    refine ⟨memory, hpassed, ?_⟩
    rw [keep, if_pos (hseen.imp_right (hpassed _))]
    exact hlength
  | pass _ _ ih =>
    obtain ⟨memory, hpassed, hlength⟩ := ih
    refine ⟨memory, by simp, ?_⟩
    rw [keep, if_pos (.inr (hpassed _ rfl))]
    exact hlength
  | @note kept passed a as n hmem hother _ ih =>
    obtain ⟨memory, -, hlength⟩ := ih
    -- the next slot has the value passed over, or any other than the one to be noted
    obtain ⟨b, hb⟩ := exists_ne a
    have hnext : passed.getD b ≠ a := by
      cases passed with
      | none => exact hb
      | some c => exact fun hc => hother (congrArg some hc)
    refine ⟨Function.update memory kept.length (passed.getD b), ?_, ?_⟩
    · intro c hc
      rw [Function.update_self, hc]
      rfl
    · rw [keep, Function.update_self, if_neg (not_or.mpr ⟨hmem, hnext⟩)]
      rw [keep_congr memory, hlength, List.length_append, List.length_singleton]
      · omega
      · intro j hj
        rw [List.length_append, List.length_singleton] at hj
        exact Function.update_of_ne (Nat.ne_of_gt hj) _ _

/-! ### The bounds -/

/-- The fewest values that are noted when, for each slot, one value may be passed over. -/
def fewest : List α → Option α → List α → Nat
  | _, _, [] => 0
  | kept, passed, a :: as =>
    if a ∈ kept ∨ passed = some a then fewest kept passed as
    else
      let noted := fewest (kept ++ [a]) none as + 1
      if passed = none then min (fewest kept (some a) as) noted else noted

/-- The distinct values that are not in `kept`. -/
def fresh (kept as : List α) : Finset α := as.toFinset \ kept.toFinset

theorem fresh_cons_of_mem {kept : List α} {a : α} (h : a ∈ kept) (as : List α) :
    fresh kept (a :: as) = fresh kept as := by
  ext b
  simp only [fresh, List.toFinset_cons, Finset.mem_sdiff, Finset.mem_insert, List.mem_toFinset]
  constructor
  · rintro ⟨rfl | hb, hkept⟩
    · exact absurd h hkept
    · exact ⟨hb, hkept⟩
  · rintro ⟨hb, hkept⟩
    exact ⟨.inr hb, hkept⟩

theorem card_fresh_cons {kept : List α} {a : α} (h : a ∉ kept) (as : List α) :
    (fresh kept (a :: as)).card = (fresh (kept ++ [a]) as).card + 1 := by
  have hinsert : fresh kept (a :: as) = insert a (fresh (kept ++ [a]) as) := by
    ext b
    by_cases hb : b = a
    · simp [fresh, hb, h]
    · simp [fresh, hb]
  rw [hinsert, Finset.card_insert_of_notMem]
  simp [fresh]

theorem card_fresh_mono {kept : List α} (a : α) (as : List α) :
    (fresh kept as).card ≤ (fresh kept (a :: as)).card := by
  apply Finset.card_le_card
  intro b hb
  simp only [fresh, List.toFinset_cons, Finset.mem_sdiff, Finset.mem_insert] at hb ⊢
  exact ⟨.inr hb.1, hb.2⟩

theorem attained_fewest (as kept : List α) (passed : Option α) :
    Attained kept passed as (fewest kept passed as) := by
  induction as generalizing kept passed with
  | nil => exact .done
  | cons a as ih =>
    rw [fewest]
    split
    · next hseen => exact .again hseen (ih kept passed)
    · next hnew =>
      obtain ⟨hmem, hpassed⟩ := not_or.mp hnew
      have hnote := Attained.note hmem hpassed (ih (kept ++ [a]) none)
      dsimp only
      split
      · next hnone =>
        subst hnone
        rcases min_choice (fewest kept (some a) as) (fewest (kept ++ [a]) none as + 1)
          with hmin | hmin
        · rw [hmin]
          exact .pass hmem (ih kept (some a))
        · rw [hmin]
          exact hnote
      · exact hnote

theorem fewest_le {as kept : List α} {passed : Option α} {n : Nat}
    (h : Attained kept passed as n) : fewest kept passed as ≤ n := by
  induction h with
  | done => exact le_rfl
  | again hseen _ ih =>
    rw [fewest, if_pos hseen]
    exact ih
  | pass hmem _ ih =>
    rw [fewest, if_neg (by simpa using hmem)]
    exact (min_le_left _ _).trans ih
  | note hmem hpassed _ ih =>
    rw [fewest, if_neg (not_or.mpr ⟨hmem, hpassed⟩)]
    dsimp only
    split
    · exact (min_le_right _ _).trans (Nat.succ_le_succ ih)
    · exact Nat.succ_le_succ ih

theorem attained_fresh (as kept : List α) : Attained kept none as (fresh kept as).card := by
  induction as generalizing kept with
  | nil =>
    have hempty : fresh kept [] = ∅ := by simp [fresh]
    rw [hempty]
    exact .done
  | cons a as ih =>
    by_cases hmem : a ∈ kept
    · rw [fresh_cons_of_mem hmem]
      exact .again (.inl hmem) (ih kept)
    · rw [card_fresh_cons hmem]
      exact .note hmem nofun (ih (kept ++ [a]))

theorem le_card_fresh {as kept : List α} {passed : Option α} {n : Nat}
    (h : Attained kept passed as n) : n ≤ (fresh kept as).card := by
  induction h with
  | done => exact Nat.zero_le _
  | again _ _ ih => exact ih.trans (card_fresh_mono _ _)
  | pass _ _ ih => exact ih.trans (card_fresh_mono _ _)
  | note hmem _ _ ih =>
    rw [card_fresh_cons hmem]
    exact Nat.succ_le_succ ih

/-- Whatever was in memory, the count lies between the two bounds. -/
theorem count_bounds (memory : Nat → α) (as : List α) :
    fewest [] none as ≤ (Notes.noteAll ⟨memory, 0⟩ as).count ∧
      (Notes.noteAll ⟨memory, 0⟩ as).count ≤ as.toFinset.card := by
  obtain ⟨n, hn, hlength⟩ := attained_keep memory [] none (by simp) as
  rw [count_noteAll, hlength, List.length_nil, Nat.zero_add]
  have hle := le_card_fresh hn
  rw [fresh, List.toFinset_nil, Finset.sdiff_empty] at hle
  exact ⟨fewest_le hn, hle⟩

theorem exists_count [Nontrivial α] {as : List α} {n : Nat} (h : Attained [] none as n) :
    ∃ memory : Nat → α, (Notes.noteAll ⟨memory, 0⟩ as).count = n := by
  obtain ⟨memory, -, hlength⟩ := exists_memory h
  refine ⟨memory, ?_⟩
  rw [count_noteAll, hlength, List.length_nil, Nat.zero_add]

theorem exists_count_fewest [Nontrivial α] (as : List α) :
    ∃ memory : Nat → α, (Notes.noteAll ⟨memory, 0⟩ as).count = fewest [] none as :=
  exists_count (attained_fewest as [] none)

theorem exists_count_distinct [Nontrivial α] (as : List α) :
    ∃ memory : Nat → α, (Notes.noteAll ⟨memory, 0⟩ as).count = as.toFinset.card := by
  have hfresh := attained_fresh as []
  rw [fresh, List.toFinset_nil, Finset.sdiff_empty] at hfresh
  exact exists_count hfresh

/-- A threshold is met for every memory exactly when it is met for both bounds. -/
theorem forall_count_iff [Nontrivial α] (as : List α) (used capacity : Nat) (fits : Bool) :
    (∀ memory : Nat → α,
      decide (used + (Notes.noteAll ⟨memory, 0⟩ as).count ≤ capacity) = fits) ↔
    if fits then used + as.toFinset.card ≤ capacity else capacity < used + fewest [] none as := by
  cases fits with
  | true =>
    simp only [decide_eq_true_eq, if_true]
    constructor
    · intro hall
      obtain ⟨memory, hcount⟩ := exists_count_distinct as
      rw [← hcount]
      exact hall memory
    · intro hfits memory
      exact (Nat.add_le_add_left (count_bounds memory as).2 used).trans hfits
  | false =>
    simp only [decide_eq_false_iff_not, Nat.not_le, Bool.false_eq_true, if_false]
    constructor
    · intro hall
      obtain ⟨memory, hcount⟩ := exists_count_fewest as
      rw [← hcount]
      exact hall memory
    · intro hfull memory
      exact hfull.trans_le (Nat.add_le_add_left (count_bounds memory as).1 used)

end Opconn.Noting
