import Mathlib.Logic.Relation
import Mathlib.Algebra.Order.Ring.Nat

/-!
# Walks and ranks

A walk that never comes back: along every step the rank falls, until the walk turns and the rank rises
for good.  And a rank that is a distance: no step costs less than it lowers the rank, and from every
place that is not a target some step costs just that.
-/

namespace Walks

variable {α : Type*}

section Turn

variable {R : α → α → Prop} {Up : α → Prop} {rank : α → Nat}
  (hup : ∀ a b, R a b → Up a → Up b ∧ rank a < rank b)
  (hdown : ∀ a b, R a b → ¬Up a → Up b ∨ rank b < rank a)

include hup in
/-- Once up, a walk goes on up. -/
theorem up_of_transGen {a b : α} (h : Relation.TransGen R a b) (ha : Up a) :
    Up b ∧ rank a < rank b := by
  induction h with
  | single hab => exact hup _ _ hab ha
  | tail _ hbc ih =>
    obtain ⟨hc, hlt⟩ := hup _ _ hbc ih.1
    exact ⟨hc, ih.2.trans hlt⟩

include hup hdown in
/-- A walk goes down until it turns. -/
theorem down_of_transGen {a b : α} (h : Relation.TransGen R a b) (ha : ¬Up a) :
    Up b ∨ rank b < rank a := by
  induction h with
  | single hab => exact hdown _ _ hab ha
  | @tail b c _ hbc ih =>
    by_cases hb : Up b
    · exact Or.inl (hup b c hbc hb).1
    · exact (hdown b c hbc hb).imp_right (fun hlt => hlt.trans (ih.resolve_left hb))

include hup hdown in
/-- **No way back.**  A walk that turns at most once, from down to up, does not come back to where it
was. -/
theorem not_transGen_self (a : α) : ¬Relation.TransGen R a a := by
  intro h
  by_cases ha : Up a
  · exact lt_irrefl _ (up_of_transGen hup h ha).2
  · exact (down_of_transGen hup hdown h ha).elim ha (lt_irrefl _)

end Turn

/-! ### Distances -/

/-- A walk from one place to another by steps that cost something, and what it costs. -/
inductive Way (W : α → α → Nat → Prop) : α → α → Nat → Prop
  | here (a : α) : Way W a a 0
  | step {a b c : α} {n m : Nat} : W a b n → Way W b c m → Way W a c (n + m)

/-- A rank that goes with the costs of the steps: no step costs less than it lowers the rank, a target
has rank zero, and from any other place some step lowers the rank by its cost. -/
structure Potential (W : α → α → Nat → Prop) (Target : α → Prop) (rank : α → Nat) : Prop where
  target : ∀ a, Target a → rank a = 0
  step : ∀ a b n, W a b n → rank a ≤ n + rank b
  descent : ∀ a, ¬Target a → ∃ b n, W a b n ∧ 0 < n ∧ rank a = n + rank b

variable {W : α → α → Nat → Prop} {Target : α → Prop} {rank : α → Nat}

/-- A walk to a target costs the rank. -/
theorem Potential.exists_way (h : Potential W Target rank) (a : α) :
    ∃ b, Target b ∧ Way W a b (rank a) := by
  induction hrank : rank a using Nat.strong_induction_on generalizing a with
  | _ r ih =>
    by_cases ha : Target a
    · exact ⟨a, ha, by rw [← hrank, h.target a ha]; exact .here a⟩
    · obtain ⟨b, n, hstep, hpos, hlower⟩ := h.descent a ha
      obtain ⟨c, hc, hway⟩ := ih (rank b) (by omega) b rfl
      exact ⟨c, hc, by rw [← hrank, hlower]; exact .step hstep hway⟩

/-- What every step keeps is the same at both ends of a walk. -/
theorem Way.eq_of_step {β : Type*} {f : α → β} (hf : ∀ a b n, W a b n → f a = f b) {a b : α} {n : Nat}
    (h : Way W a b n) : f a = f b := by
  induction h with
  | here a => rfl
  | step hstep _ ih => exact (hf _ _ _ hstep).trans ih

end Walks
