import Mathlib.Algebra.BigOperators.Group.Finset.Basic
import Mathlib.Data.Finset.Range
import Opconn.Lib.FirstMatch

/-!
# Lists of keyed entries

Entries are pairs of a key and a value, and keys are compared by an equivalence that is
computed, not by equality.  `lookup` is the search for a key, `Distinct` says that no key
occurs twice.  The last section counts what the lists of a table hold when one of them is
replaced.
-/

namespace KeyedList

open FirstMatch

/-- A computed equivalence of keys. -/
structure KeyEq (κ : Type*) where
  same : κ → κ → Bool
  refl : ∀ k, same k k = true
  symm : ∀ {k l}, same k l = true → same l k = true
  trans : ∀ {k l m}, same k l = true → same l m = true → same k m = true

variable {κ β : Type*} (keys : KeyEq κ)

theorem KeyEq.comm (k l : κ) : keys.same k l = keys.same l k := by
  rw [Bool.eq_iff_iff]
  exact ⟨keys.symm, keys.symm⟩

theorem KeyEq.congr_left {k l : κ} (h : keys.same k l = true) (m : κ) :
    keys.same k m = keys.same l m := by
  rw [Bool.eq_iff_iff]
  constructor
  · intro hk
    exact keys.trans (keys.symm h) hk
  · intro hl
    exact keys.trans h hl

theorem KeyEq.congr_right {k l : κ} (h : keys.same k l = true) (m : κ) :
    keys.same m k = keys.same m l := by
  rw [keys.comm m k, keys.comm m l]
  exact keys.congr_left h m

/-- The value of the first entry under the key. -/
def lookup (k : κ) (l : List (κ × β)) : Option β :=
  (l.find? fun e => keys.same k e.1).map Prod.snd

/-- No key occurs twice. -/
def Distinct (l : List (κ × β)) : Prop := l.Pairwise fun e f => keys.same e.1 f.1 = false

@[simp] theorem lookup_nil (k : κ) : lookup keys k ([] : List (κ × β)) = none := rfl

theorem lookup_cons (k : κ) (e : κ × β) (l : List (κ × β)) :
    lookup keys k (e :: l) = if keys.same k e.1 then some e.2 else lookup keys k l := by
  cases h : keys.same k e.1 with
  | true => simp [lookup, h]
  | false => simp [lookup, h]

theorem lookup_append (k : κ) (l m : List (κ × β)) :
    lookup keys k (l ++ m) = (lookup keys k l).or (lookup keys k m) := by
  induction l with
  | nil => simp
  | cons e l ih =>
    rw [List.cons_append, lookup_cons, lookup_cons, ih]
    split <;> simp

theorem lookup_eq_none_iff {k : κ} {l : List (κ × β)} :
    lookup keys k l = none ↔ ∀ e ∈ l, keys.same k e.1 = false := by
  simp [lookup]

theorem Distinct.single {keys : KeyEq κ} {l : List (κ × β)} (h : Distinct keys l) (k : κ) :
    Single (fun e => keys.same k e.1) l := by
  refine h.imp ?_
  intro e f hne he
  exact (keys.congr_left he f.1).trans hne

theorem Distinct.lookup_eq_some_iff {keys : KeyEq κ} {l : List (κ × β)} (h : Distinct keys l)
    {k : κ} {v : β} :
    lookup keys k l = some v ↔ ∃ e ∈ l, keys.same k e.1 = true ∧ e.2 = v := by
  constructor
  · intro hlookup
    obtain ⟨e, hfind, hv⟩ := Option.map_eq_some_iff.mp hlookup
    have hsame := List.find?_some hfind
    exact ⟨e, List.mem_of_find?_eq_some hfind, hsame, hv⟩
  · rintro ⟨e, hmem, hsame, rfl⟩
    rw [lookup, find?_eq_some_of_single (h.single k) hmem hsame]
    rfl

theorem Distinct.lookup_tail {keys : KeyEq κ} {e : κ × β} {l : List (κ × β)}
    (h : Distinct keys (e :: l)) {k : κ} (hk : keys.same k e.1 = true) :
    lookup keys k l = none := by
  rw [lookup_eq_none_iff]
  intro f hf
  rw [keys.congr_left hk]
  exact (List.pairwise_cons.mp h).1 f hf

/-- The order of the entries does not matter. -/
theorem Distinct.lookup_perm {keys : KeyEq κ} {l m : List (κ × β)} (h : Distinct keys l)
    (hperm : l.Perm m) (k : κ) : lookup keys k m = lookup keys k l := by
  have hm : Distinct keys m := by
    refine (hperm.pairwise_iff ?_).mp h
    intro e f hne
    rw [keys.comm]
    exact hne
  ext v
  rw [hm.lookup_eq_some_iff, h.lookup_eq_some_iff]
  constructor
  · rintro ⟨e, hmem, hrest⟩
    exact ⟨e, hperm.mem_iff.mpr hmem, hrest⟩
  · rintro ⟨e, hmem, hrest⟩
    exact ⟨e, hperm.mem_iff.mp hmem, hrest⟩

/-! ### Changes -/

theorem Distinct.append_new {keys : KeyEq κ} {l : List (κ × β)} (h : Distinct keys l) {k : κ}
    (hnew : lookup keys k l = none) (v : β) : Distinct keys (l ++ [(k, v)]) := by
  refine List.pairwise_append.mpr ⟨h, List.pairwise_singleton .., ?_⟩
  intro e he f hf
  rw [List.mem_singleton] at hf
  subst hf
  rw [keys.comm]
  exact (lookup_eq_none_iff keys).mp hnew e he

theorem lookup_append_new {l : List (κ × β)} {k : κ} (hnew : lookup keys k l = none) (v : β)
    (k' : κ) :
    lookup keys k' (l ++ [(k, v)]) = if keys.same k' k then some v else lookup keys k' l := by
  rw [lookup_append, lookup_cons, lookup_nil]
  cases h : keys.same k' k with
  | true =>
    have hnone : lookup keys k' l = none := by
      rw [lookup_eq_none_iff] at hnew ⊢
      intro e he
      rw [keys.congr_left h]
      exact hnew e he
    simp [hnone]
  | false => simp

/-- The first entry under the key is given the new key and value. -/
def replaceFirst (k : κ) (v : β) (l : List (κ × β)) : List (κ × β) :=
  updateFirst (fun e => keys.same k e.1) (fun _ => (k, v)) l

theorem lookup_replaceFirst {l : List (κ × β)} {k : κ} (hold : lookup keys k l ≠ none) (v : β)
    (k' : κ) :
    lookup keys k' (replaceFirst keys k v l) =
      if keys.same k' k then some v else lookup keys k' l := by
  induction l with
  | nil => exact absurd rfl hold
  | cons e l ih =>
    rw [lookup_cons] at hold
    rw [replaceFirst, updateFirst]
    cases hke : keys.same k e.1 with
    | true =>
      rw [if_pos rfl, lookup_cons, lookup_cons, ← keys.congr_right hke k']
      cases keys.same k' k <;> rfl
    | false =>
      rw [hke, if_neg Bool.false_ne_true] at hold
      rw [if_neg Bool.false_ne_true, lookup_cons, lookup_cons, ← replaceFirst, ih hold]
      cases hk' : keys.same k' e.1 with
      | false => rfl
      | true =>
        have hne : keys.same k' k = false := by
          rw [keys.congr_left hk', keys.comm]
          exact hke
        simp [hne]

theorem Distinct.replaceFirst {keys : KeyEq κ} {l : List (κ × β)} (h : Distinct keys l) (k : κ)
    (v : β) : Distinct keys (replaceFirst keys k v l) := by
  refine pairwise_of_shrunk (R := fun e f => keys.same e.1 f.1 = true)
    (shrunk_updateFirst (fun e => keys.refl e.1) (fun e he => he) l) h ?_
  intro a' a b' b ha hb hne
  rw [keys.congr_left ha, keys.congr_right hb]
  exact hne

theorem Distinct.eraseP {keys : KeyEq κ} {l : List (κ × β)} (h : Distinct keys l)
    (p : κ × β → Bool) : Distinct keys (l.eraseP p) :=
  h.sublist List.eraseP_sublist

theorem Distinct.lookup_eraseP {keys : KeyEq κ} {l : List (κ × β)} (h : Distinct keys l)
    (k k' : κ) :
    lookup keys k' (l.eraseP fun e => keys.same e.1 k) =
      if keys.same k' k then none else lookup keys k' l := by
  induction l with
  | nil => simp
  | cons e l ih =>
    have htail : Distinct keys l := (List.pairwise_cons.mp h).2
    cases hek : keys.same e.1 k with
    | true =>
      rw [List.eraseP_cons_of_pos (a := e) (by exact hek), lookup_cons, keys.congr_right hek k']
      cases hk' : keys.same k' k with
      | false => rfl
      | true =>
        rw [if_pos rfl]
        exact h.lookup_tail (keys.trans hk' (keys.symm hek))
    | false =>
      rw [List.eraseP_cons_of_neg (by simp [hek]), lookup_cons, lookup_cons, ih htail]
      cases hk' : keys.same k' e.1 with
      | false => rfl
      | true =>
        have hne : keys.same k' k = false := by
          rw [keys.congr_left hk']
          exact hek
        simp [hne]

/-! ### Tables of lists -/

/-- What the lists of a table hold in sum, when list `i` is replaced. -/
theorem sum_update {α : Type*} (f : α → ℕ) (table : ℕ → α) {i n : ℕ} (hi : i < n) (l : α) :
    ∑ j ∈ Finset.range n, f (Function.update table i l j) + f (table i) =
      ∑ j ∈ Finset.range n, f (table j) + f l := by
  have hmem : i ∈ Finset.range n := Finset.mem_range.mpr hi
  rw [← Finset.add_sum_erase _ _ hmem, ← Finset.add_sum_erase _ (fun j => f (table j)) hmem]
  have hrest : ∑ j ∈ (Finset.range n).erase i, f (Function.update table i l j) =
      ∑ j ∈ (Finset.range n).erase i, f (table j) := by
    apply Finset.sum_congr rfl
    intro j hj
    rw [Function.update_of_ne (Finset.ne_of_mem_erase hj)]
  rw [hrest, Function.update_self]
  omega

end KeyedList
