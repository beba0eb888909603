import Mathlib.Algebra.BigOperators.Group.List.Basic
import Mathlib.Algebra.Ring.Nat
import Mathlib.Data.Nat.ModEq

/-!
# Sums in ones' complement

Numbers up to `m`, where `m` is one less than a power of two, with the carry of a sum added back
to it.  A number stands for all numbers with the same remainder at division by `m`, but only 0
stands for 0: this is what the order of the additions and the place of the carries do not change.
-/

namespace Opconn.OnesComplement

variable {m : ℕ}

/-- Addition with the carry added back. -/
def addCarry (m a b : ℕ) : ℕ := if a + b ≤ m then a + b else a + b - m

/-- The sum of some numbers. -/
def sum (m : ℕ) (ws : List ℕ) : ℕ := ws.foldl (addCarry m) 0

/-- A number up to `m` that stands for `n`. -/
structure Represents (m r n : ℕ) : Prop where
  le : r ≤ m
  modEq : r % m = n % m
  zero : r = 0 ↔ n = 0

theorem represents_zero (m : ℕ) : Represents m 0 0 := ⟨Nat.zero_le m, rfl, Iff.rfl⟩

/-- Only one number stands for a number. -/
theorem Represents.unique {r r' n : ℕ} (h : Represents m r n) (h' : Represents m r' n) :
    r = r' := by
  have hmod : r % m = r' % m := h.modEq.trans h'.modEq.symm
  have hzero : r = 0 ↔ r' = 0 := h.zero.trans h'.zero.symm
  rcases Nat.lt_or_eq_of_le h.le with hlt | rfl
  · rcases Nat.lt_or_eq_of_le h'.le with hlt' | rfl
    · rwa [Nat.mod_eq_of_lt hlt, Nat.mod_eq_of_lt hlt'] at hmod
    · rw [Nat.mod_eq_of_lt hlt, Nat.mod_self] at hmod
      rw [hzero.mp hmod, hmod]
  · rcases Nat.lt_or_eq_of_le h'.le with hlt' | heq
    · rw [Nat.mod_eq_of_lt hlt', Nat.mod_self] at hmod
      rw [hzero.mpr hmod.symm, ← hmod]
    · exact heq.symm

/-- What stands for two numbers makes their remainders equal. -/
theorem Represents.modEq_of_eq {r n n' : ℕ} (h : Represents m r n) (h' : Represents m r n') :
    n % m = n' % m :=
  h.modEq.symm.trans h'.modEq

theorem Represents.addCarry {r n w : ℕ} (h : Represents m r n) (hw : w ≤ m) :
    Represents m (addCarry m r w) (n + w) := by
  have hmod : (r + w) % m = (n + w) % m := Nat.ModEq.add_right w h.modEq
  have hle := h.le
  rw [OnesComplement.addCarry]
  split
  · rename_i hsum
    refine ⟨hsum, hmod, ?_⟩
    rw [Nat.add_eq_zero_iff, Nat.add_eq_zero_iff, h.zero]
  · rename_i hsum
    refine ⟨by omega, ?_, ?_⟩
    · rw [← hmod]
      exact (Nat.mod_eq_sub_mod (by omega)).symm
    · have hpos : ¬n + w = 0 := by
        rw [Nat.add_eq_zero_iff, ← h.zero]
        omega
      have hrest : ¬r + w - m = 0 := by omega
      exact iff_of_false hrest hpos

theorem represents_sum {ws : List ℕ} (hws : ∀ w ∈ ws, w ≤ m) : Represents m (sum m ws) ws.sum := by
  have hfold : ∀ r n, Represents m r n →
      Represents m (ws.foldl (addCarry m) r) (n + ws.sum) := by
    induction ws with
    | nil => exact fun r n h => h
    | cons w ws ih =>
      intro r n h
      rw [List.foldl_cons, List.sum_cons, ← Nat.add_assoc]
      exact ih (fun w hw => hws w (List.mem_cons_of_mem _ hw)) _ _
        (h.addCarry (hws w List.mem_cons_self))
  have hsum := hfold 0 0 (represents_zero m)
  rwa [Nat.zero_add] at hsum

/-- A number and the complement of what stands for it make `m`. -/
theorem represents_complement {r n : ℕ} (h : Represents m r n) : Represents m m (n + (m - r)) := by
  have hle := h.le
  have hmod : (n + (m - r)) % m = (r + (m - r)) % m := Nat.ModEq.add_right (m - r) h.modEq.symm
  refine ⟨Nat.le_refl m, ?_, ?_⟩
  · rw [hmod, Nat.add_sub_cancel' hle]
  · rw [Nat.add_eq_zero_iff, ← h.zero]
    omega

end Opconn.OnesComplement
