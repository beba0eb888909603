import Mathlib.Data.List.Range
import Mathlib.Data.Nat.ModEq
import Mathlib.Logic.Function.Basic

/-!
# Cells of a ring

A ring of `size` cells with a read and a write position.  The cells from the read position up
to the write position are in use; equal positions mean that none is, so one cell always
stays free.  `segment` reads cells in order, round the end of the store, and the lemmas say
what a write behind the cells in use and a read at their front do to them.
-/

namespace Ring

variable {α : Type*}

/-- The `len` cells from `pos` on. -/
def segment (data : Nat → α) (size pos len : Nat) : List α :=
  (List.range len).map fun i => data ((pos + i) % size)

/-- How many cells are in use. -/
def used (size rd wr : Nat) : Nat := (wr + size - rd) % size

section Segments

variable {data : Nat → α} {size : Nat}

@[simp] theorem segment_zero (pos : Nat) : segment data size pos 0 = [] := rfl

@[simp] theorem length_segment (pos len : Nat) : (segment data size pos len).length = len := by
  simp [segment]

theorem segment_succ (pos len : Nat) :
    segment data size pos (len + 1) = segment data size pos len ++ [data ((pos + len) % size)] := by
  simp [segment, List.range_succ]

theorem segment_add (pos m n : Nat) :
    segment data size pos (m + n) = segment data size pos m ++ segment data size (pos + m) n := by
  induction n with
  | zero => simp
  | succ n ih => rw [← Nat.add_assoc, segment_succ, segment_succ, ih, List.append_assoc, Nat.add_assoc]

theorem segment_mod (pos len : Nat) :
    segment data size (pos % size) len = segment data size pos len := by
  simp [segment]

/-- A write to a cell outside of a segment. -/
theorem segment_update {pos len k : Nat} (x : α) (h : ∀ i < len, (pos + i) % size ≠ k) :
    segment (Function.update data k x) size pos len = segment data size pos len := by
  apply List.map_congr_left
  intro i hi
  rw [Function.update_of_ne (h i (List.mem_range.mp hi))]

/-- A segment that does not come to the end of the store. -/
theorem segment_eq_map {pos len : Nat} (h : pos + len ≤ size) :
    segment data size pos len = (List.range' pos len).map data := by
  rw [List.range'_eq_map_range, List.map_map]
  apply List.map_congr_left
  intro i hi
  have hlt : pos + i < size := by
    have := List.mem_range.mp hi
    omega
  rw [Nat.mod_eq_of_lt hlt, Function.comp_apply]

end Segments

section Positions

variable {size rd wr : Nat}

theorem mod_eq_ite {x : Nat} (h : x < 2 * size) :
    x % size = if x < size then x else x - size := by
  split
  · next hlt => exact Nat.mod_eq_of_lt hlt
  · next hge =>
    rw [Nat.mod_eq_sub_mod (by omega)]
    exact Nat.mod_eq_of_lt (by omega)

theorem used_eq (hrd : rd < size) (hwr : wr < size) :
    used size rd wr = if rd ≤ wr then wr - rd else wr + size - rd := by
  rw [used, mod_eq_ite (by omega)]
  split <;> split <;> omega

theorem used_lt (hrd : rd < size) (wr : Nat) : used size rd wr < size := Nat.mod_lt _ (by omega)

theorem used_self (hrd : rd < size) : used size rd rd = 0 := by
  rw [used_eq hrd hrd, if_pos (Nat.le_refl rd), Nat.sub_self]

/-- The write position is behind the cells in use. -/
theorem add_used (hrd : rd < size) (hwr : wr < size) : (rd + used size rd wr) % size = wr := by
  have hlt := used_lt hrd wr
  rw [mod_eq_ite (by omega)]
  rw [used_eq hrd hwr] at hlt ⊢
  split <;> split <;> omega

/-- The write position moves on. -/
theorem used_push (hrd : rd < size) (hwr : wr < size) {n : Nat}
    (h : used size rd wr + n < size) : used size rd ((wr + n) % size) = used size rd wr + n := by
  rw [used_eq hrd (Nat.mod_lt _ (by omega)), mod_eq_ite (by omega)]
  rw [used_eq hrd hwr] at h ⊢
  split <;> split <;> split at h <;> simp only [*, if_true, if_false] <;> omega

/-- The read position moves on. -/
theorem used_pop (hrd : rd < size) (hwr : wr < size) {k : Nat} (h : k ≤ used size rd wr) :
    used size ((rd + k) % size) wr = used size rd wr - k := by
  have hlt := used_lt hrd wr
  rw [used_eq (Nat.mod_lt _ (by omega)) hwr, mod_eq_ite (by omega)]
  rw [used_eq hrd hwr] at h hlt ⊢
  split <;> split <;> split at h <;> simp only [*, if_true, if_false] <;> omega

/-- The cells in use and those right behind them are different. -/
theorem add_mod_ne {i j : Nat} (hij : i < j) (hj : j < size) (pos : Nat) :
    (pos + i) % size ≠ (pos + j) % size := by
  intro heq
  have hmod : i % size = j % size := Nat.ModEq.add_left_cancel' pos heq
  rw [Nat.mod_eq_of_lt (by omega), Nat.mod_eq_of_lt hj] at hmod
  omega

end Positions

end Ring
