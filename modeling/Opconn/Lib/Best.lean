import Mathlib.Order.Lattice

/-!
# Keeping the better

A loop goes through candidates and keeps what is better than the best so far.  It ends with its start
or with a candidate, and where better means a smaller key, with nothing worse than any of them.
-/

namespace Best

variable {α : Type*} (better : α → α → Bool)

/-- The best of a start and of candidates, the earlier of two that are as good. -/
def best (start : α) (candidates : List α) : α :=
  candidates.foldl (fun b a => if better a b then a else b) start

theorem best_nil (start : α) : best better start [] = start := rfl

theorem best_cons (start a : α) (as : List α) :
    best better start (a :: as) = best better (if better a start then a else start) as := rfl

theorem best_mem (start : α) (as : List α) :
    best better start as = start ∨ best better start as ∈ as := by
  induction as generalizing start with
  | nil => exact Or.inl rfl
  | cons a as ih =>
    rw [best_cons]
    rcases ih (if better a start then a else start) with h | h
    · rw [h]
      split
      · exact Or.inr (List.mem_cons_self ..)
      · exact Or.inl rfl
    · exact Or.inr (List.mem_cons_of_mem _ h)

variable {better} {κ : Type*} [LinearOrder κ] (key : α → κ) (S : α → Prop)

/-- The best is nowhere worse. -/
theorem best_le (hbetter : ∀ a b, S a → S b → (better a b = true ↔ key a < key b)) (start : α)
    (as : List α) (hstart : S start) (has : ∀ a ∈ as, S a) :
    key (best better start as) ≤ key start ∧ ∀ a ∈ as, key (best better start as) ≤ key a := by
  induction as generalizing start with
  | nil => exact ⟨le_refl _, fun a ha => absurd ha List.not_mem_nil⟩
  | cons a as ih =>
    have ha : S a := has a (List.mem_cons_self ..)
    have hrest : ∀ b ∈ as, S b := fun b hb => has b (List.mem_cons_of_mem _ hb)
    rw [best_cons]
    split
    · next hlt =>
      obtain ⟨hfirst, hall⟩ := ih a ha hrest
      have hkey : key a < key start := (hbetter a start ha hstart).mp hlt
      refine ⟨hfirst.trans hkey.le, fun b hb => ?_⟩
      rcases List.mem_cons.mp hb with rfl | hb
      · exact hfirst
      · exact hall b hb
    · next hnot =>
      obtain ⟨hfirst, hall⟩ := ih start hstart hrest
      have hkey : key start ≤ key a := not_lt.mp (mt (hbetter a start ha hstart).mpr hnot)
      refine ⟨hfirst, fun b hb => ?_⟩
      rcases List.mem_cons.mp hb with rfl | hb
      · exact hfirst.trans hkey
      · exact hall b hb

end Best
