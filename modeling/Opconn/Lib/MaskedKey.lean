import Mathlib.Data.List.Basic

/-!
# Keys under a mask

A key has slots, and a slot shows a word of some source.  Writes put bits of a source's rule into
slots, under a mask of the user, one on top of the other.  When each write goes to a slot that
shows its source, comparing the key with what was written compares exactly the written bits.
-/

namespace Opconn.MaskedKey

/-- Bits of a source that are put into a slot. -/
structure Write (κ ι : Type*) (w : Nat) where
  slot : κ
  source : ι
  bits : BitVec w

section Slots

variable {κ ι : Type*} [DecidableEq κ] {w : Nat}

/-- What the writes leave in a slot that was zero, where each puts `value` there. -/
def written (value : Write κ ι w → BitVec w) (k : κ) : List (Write κ ι w) → BitVec w
  | [] => 0
  | x :: xs => (if x.slot = k then value x else 0) ||| written value k xs

/-- The mask in a slot. -/
def maskAt (usr : ι → BitVec w) : κ → List (Write κ ι w) → BitVec w :=
  written fun x => x.bits &&& usr x.source

/-- The rule in a slot. -/
def ruleAt (usr rule : ι → BitVec w) : κ → List (Write κ ι w) → BitVec w :=
  written fun x => rule x.source &&& (x.bits &&& usr x.source)

theorem getLsbD_written_iff {value : Write κ ι w → BitVec w} {k : κ} {j : Nat}
    {xs : List (Write κ ι w)} :
    (written value k xs).getLsbD j = true ↔
      ∃ x ∈ xs, x.slot = k ∧ (value x).getLsbD j = true := by
  induction xs with
  | nil => simp [written]
  | cons x xs ih =>
    rw [written, BitVec.getLsbD_or, Bool.or_eq_true, ih, List.exists_mem_cons_iff]
    by_cases hslot : x.slot = k
    · simp [hslot]
    · simp [hslot]

/-- **Comparing the key compares the written bits**, when each is in a slot that shows its
source. -/
theorem key_matches_iff {xs : List (Write κ ι w)} {shown : κ → ι}
    (hshown : ∀ x ∈ xs, shown x.slot = x.source) (usr rule packet : ι → BitVec w) :
    (∀ k, packet (shown k) &&& maskAt usr k xs = ruleAt usr rule k xs) ↔
      ∀ x ∈ xs, ∀ j, x.bits.getLsbD j = true → (usr x.source).getLsbD j = true →
        (packet x.source).getLsbD j = (rule x.source).getLsbD j := by
  constructor
  · intro hkey x hx j hbit husr
    have hslot := congrArg (BitVec.getLsbD · j) (hkey x.slot)
    have hmask : (maskAt usr x.slot xs).getLsbD j = true :=
      getLsbD_written_iff.mpr ⟨x, hx, rfl, by rw [BitVec.getLsbD_and, hbit, husr]; rfl⟩
    simp only [BitVec.getLsbD_and, hmask, Bool.and_true, hshown x hx] at hslot
    rw [hslot, Bool.eq_iff_iff, ruleAt, getLsbD_written_iff]
    constructor
    · rintro ⟨y, hy, hyslot, hyrule⟩
      have hsource : y.source = x.source := by rw [← hshown y hy, hyslot, hshown x hx]
      rw [BitVec.getLsbD_and, hsource, Bool.and_eq_true] at hyrule
      exact hyrule.1
    · intro hrule
      exact ⟨x, hx, rfl, by simp [BitVec.getLsbD_and, hrule, hbit, husr]⟩
  · intro hbits k
    apply BitVec.eq_of_getLsbD_eq
    intro j hj
    rw [BitVec.getLsbD_and, Bool.eq_iff_iff, Bool.and_eq_true, maskAt, ruleAt,
      getLsbD_written_iff, getLsbD_written_iff]
    constructor
    · rintro ⟨hpacket, x, hx, hslot, hmask⟩
      refine ⟨x, hx, hslot, ?_⟩
      rw [BitVec.getLsbD_and, Bool.and_eq_true] at hmask
      have hsame := hbits x hx j hmask.1 hmask.2
      rw [← hshown x hx, hslot, hpacket, ← hslot, hshown x hx] at hsame
      simp [BitVec.getLsbD_and, ← hsame, hmask.1, hmask.2]
    · rintro ⟨x, hx, hslot, hrule⟩
      rw [BitVec.getLsbD_and, BitVec.getLsbD_and, Bool.and_eq_true, Bool.and_eq_true] at hrule
      have hsame := hbits x hx j hrule.2.1 hrule.2.2
      refine ⟨?_, x, hx, hslot, by rw [BitVec.getLsbD_and, hrule.2.1, hrule.2.2]; rfl⟩
      rw [← hslot, hshown x hx, hsame, hrule.1]

end Slots

end Opconn.MaskedKey
