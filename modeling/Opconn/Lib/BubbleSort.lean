import Mathlib.Data.List.Perm.Basic

/-!
# Bubble sort

`pass` compares every element with the next one, up to a bound, and exchanges the two where they
are out of order; `passes` repeats it with a bound that goes down by one.  Whatever the test, the
list is permuted.  Where the elements that are not out of order are in a total and transitive
relation, the last element that a pass reaches is a largest one, and the passes sort the list.
-/

namespace BubbleSort

variable {α : Type*} (r : α → α → Prop) [DecidableRel r]

/-- The first `j` comparisons of neighbours. -/
def pass : Nat → List α → List α
  | 0, l => l
  | j + 1, x :: y :: l => if r x y then y :: pass j (x :: l) else x :: pass j (y :: l)
  | _ + 1, l => l

/-- Passes over the first `i` elements, the first `i - 1`, and so on. -/
def passes : Nat → List α → List α
  | 0, l => l
  | i + 1, l => passes i (pass r i l)

def sort (l : List α) : List α := passes r l.length l

/-! ### Permutations -/

theorem pass_perm (j : Nat) (l : List α) : (pass r j l).Perm l := by
  induction j generalizing l with
  | zero => rfl
  | succ j ih =>
    match l with
    | [] => rfl
    | [x] => rfl
    | x :: y :: l =>
      rw [pass]
      split
      · exact ((ih (x :: l)).cons y).trans (List.Perm.swap x y l)
      · exact (ih (y :: l)).cons x

theorem passes_perm (i : Nat) (l : List α) : (passes r i l).Perm l := by
  induction i generalizing l with
  | zero => rfl
  | succ i ih => exact (ih _).trans (pass_perm r i l)

theorem sort_perm (l : List α) : (sort r l).Perm l := passes_perm r l.length l

/-! ### Order -/

/-- A pass over the elements up to `back` carries a largest one of them to their end. -/
theorem pass_max (htotal : ∀ a b, ¬r a b ∨ ¬r b a)
    (htrans : ∀ a b c, ¬r a b → ¬r b c → ¬r a c) (x : α) (l back : List α) :
    ∃ front m, pass r l.length (x :: (l ++ back)) = front ++ m :: back ∧
      (front ++ [m]).Perm (x :: l) ∧ ∀ z ∈ x :: l, ¬r z m := by
  have hrefl : ∀ a, ¬r a a := fun a => (htotal a a).elim id id
  induction l generalizing x with
  | nil =>
    refine ⟨[], x, ?_, List.Perm.refl _, ?_⟩
    · cases back <;> rfl
    · intro z hz
      rw [List.mem_singleton.mp hz]
      exact hrefl x
  | cons y l ih =>
    rw [List.length_cons, List.cons_append, pass]
    by_cases hxy : r x y
    · obtain ⟨front, m, hpass, hperm, hmax⟩ := ih x
      refine ⟨y :: front, m, ?_, (hperm.cons y).trans (List.Perm.swap x y l), ?_⟩
      · rw [if_pos hxy, hpass, List.cons_append]
      · have hyx : ¬r y x := by
          rcases htotal x y with h | h
          · exact absurd hxy h
          · exact h
        intro z hz
        rcases List.mem_cons.mp hz with rfl | hz
        · exact hmax z (List.mem_cons_self ..)
        · rcases List.mem_cons.mp hz with rfl | hz
          · exact htrans z x m hyx (hmax x (List.mem_cons_self ..))
          · exact hmax z (List.mem_cons_of_mem _ hz)
    · obtain ⟨front, m, hpass, hperm, hmax⟩ := ih y
      refine ⟨x :: front, m, ?_, hperm.cons x, ?_⟩
      · rw [if_neg hxy, hpass, List.cons_append]
      · intro z hz
        rcases List.mem_cons.mp hz with rfl | hz
        · exact htrans z y m hxy (hmax y (List.mem_cons_self ..))
        · exact hmax z hz

/-- The invariant of the outer loop: what is behind the bound is in order, and nothing in front of
it is larger. -/
theorem passes_sorted (htotal : ∀ a b, ¬r a b ∨ ¬r b a)
    (htrans : ∀ a b c, ¬r a b → ¬r b c → ¬r a c) {i : Nat} {front back : List α}
    (hlen : front.length = i) (hback : back.Pairwise fun a b => ¬r a b)
    (hfront : ∀ x ∈ front, ∀ y ∈ back, ¬r x y) :
    (passes r i (front ++ back)).Pairwise fun a b => ¬r a b := by
  induction i generalizing front back with
  | zero =>
    rw [List.eq_nil_of_length_eq_zero hlen]
    exact hback
  | succ i ih =>
    cases front with
    | nil => cases hlen
    | cons x l =>
      have hl : l.length = i := Nat.succ.inj hlen
      obtain ⟨front', m, hpass, hperm, hmax⟩ := pass_max r htotal htrans x l back
      have hmem : ∀ z, z ∈ front' ++ [m] → z ∈ x :: l := fun z => hperm.mem_iff.mp
      rw [passes, List.cons_append, ← hl, hpass, hl]
      apply ih
      · have hlength := hperm.length_eq
        rw [List.length_append, List.length_singleton, hlen] at hlength
        exact Nat.succ.inj hlength
      · apply List.Pairwise.cons
        · intro y hy
          exact hfront m (hmem m (by simp)) y hy
        · exact hback
      · intro z hz y hy
        have hz' : z ∈ x :: l := hmem z (List.mem_append_left _ hz)
        rcases List.mem_cons.mp hy with rfl | hy
        · exact hmax z hz'
        · exact hfront z hz' y hy

/-- **Order.** -/
theorem sort_sorted (htotal : ∀ a b, ¬r a b ∨ ¬r b a)
    (htrans : ∀ a b c, ¬r a b → ¬r b c → ¬r a c) (l : List α) :
    (sort r l).Pairwise fun a b => ¬r a b := by
  have hnone : ∀ x ∈ l, ∀ y ∈ ([] : List α), ¬r x y := fun _ _ _ hy => absurd hy List.not_mem_nil
  have hsorted := passes_sorted r htotal htrans rfl List.Pairwise.nil hnone
  rwa [List.append_nil] at hsorted

end BubbleSort
