import Mathlib.Data.Nat.Notation

/-!
# Single bits of a word

Flags that are packed into a word: `get` shifts one down and masks it, `config` clears it
under the mask and ORs the new value in.  Both are told by the bits of the word.
-/

namespace WordBits

variable {w : ℕ}

/-- A flag as a word. -/
def flag (w : ℕ) (b : Bool) : BitVec w := if b then 1#w else 0#w

/-- The flag at `i`. -/
def get (word : BitVec w) (i : ℕ) : BitVec w := word >>> i &&& 1#w

/-- The word with `v` at `i`. -/
def config (word : BitVec w) (i : ℕ) (v : BitVec w) : BitVec w :=
  (word &&& ~~~(1#w <<< i)) ||| v <<< i

theorem get_eq_flag (word : BitVec w) (i : ℕ) : get word i = flag w (word.getLsbD i) := by
  apply BitVec.eq_of_getLsbD_eq
  intro j hj
  by_cases h0 : j = 0
  · subst h0
    cases hbit : word.getLsbD i <;> simp [get, flag, hbit, hj]
  · cases word.getLsbD i <;> simp [get, flag, h0]

theorem getLsbD_config (word : BitVec w) {i : ℕ} (hi : i < w) (b : Bool) (j : ℕ) :
    (config word i (flag w b)).getLsbD j = if j = i then b else word.getLsbD j := by
  by_cases hj : j < w
  · have hmask : (1#w <<< i).getLsbD j = decide (j = i) := by
      by_cases hji : j = i
      · simp [hji, hi]
      · simp only [BitVec.getLsbD_shiftLeft, BitVec.getLsbD_one]
        grind
    have hflag : (flag w b <<< i).getLsbD j = (decide (j = i) && b) := by
      cases b with
      | false => simp [flag]
      | true => simpa [flag] using hmask
    rw [config, BitVec.getLsbD_or, BitVec.getLsbD_and, BitVec.getLsbD_not, hmask, hflag]
    by_cases hji : j = i <;> simp [hji, hj, hi]
  · rw [BitVec.getLsbD_of_ge _ _ (by omega), BitVec.getLsbD_of_ge _ _ (by omega),
      if_neg (by omega)]

end WordBits
