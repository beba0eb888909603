import Mathlib.Data.List.Basic

/-!
# Search with a sliding window

A receiver that looks for a pattern in a stream keeps the elements it read last, fewer than
the pattern has, and compares each time one more has come in.  `scan` is that loop.  It stops
behind the first place where the pattern occurs, whatever stands in front of it: a false
start loses nothing, since only the oldest element goes.
-/

namespace Scan

variable {α : Type*} {pat s t : List α} {i : Nat}

/-- The pattern stands at position `i` of the stream. -/
def Occurs (pat s : List α) (i : Nat) : Prop := pat <+: s.drop i

/-- The pattern stands at position `i` and nowhere in front of it. -/
structure First (pat s : List α) (i : Nat) : Prop where
  here : Occurs pat s i
  not_before : ∀ j < i, ¬Occurs pat s j

theorem Occurs.bound (h : Occurs pat s i) (hne : pat ≠ []) : i + pat.length ≤ s.length := by
  have hlen := List.IsPrefix.length_le h
  have hpos := List.length_pos_of_ne_nil hne
  rw [List.length_drop] at hlen
  omega

/-- What comes later does not make an earlier occurrence. -/
theorem First.append (h : First pat s i) (hne : pat ≠ []) (t : List α) : First pat (s ++ t) i := by
  have hlen := h.here.bound hne
  constructor
  · rw [Occurs, List.drop_append_of_le_length (by omega)]
    exact h.here.trans (List.prefix_append _ t)
  · intro j hj hocc
    rw [Occurs, List.drop_append_of_le_length (by omega)] at hocc
    refine h.not_before j hj (List.prefix_of_prefix_length_le hocc (List.prefix_append _ t) ?_)
    rw [List.length_drop]
    omega

theorem first_zero (h : pat <+: s) : First pat s 0 :=
  ⟨h, fun _ hj => absurd hj (Nat.not_lt_zero _)⟩

/-- The pattern does not stand at the front. -/
theorem First.tail {c : α} (h : First pat (c :: s) i) (hnot : ¬pat <+: c :: s) :
    ∃ k, i = k + 1 ∧ First pat s k := by
  cases i with
  | zero => exact absurd h.here hnot
  | succ k =>
    refine ⟨k, rfl, h.here, ?_⟩
    intro j hj
    exact h.not_before (j + 1) (by omega)

variable [DecidableEq α] (pat)

instance : Decidable (Occurs pat s i) := inferInstanceAs (Decidable (pat <+: s.drop i))

/-- Reads on until the elements read last are the pattern, and leaves what comes behind it;
`none` while the stream does not have it. -/
def scan : List α → List α → Option (List α)
  | _, [] => none
  | window, c :: rest =>
    if (window ++ [c]).length = pat.length then
      if window ++ [c] = pat then some rest else scan (window ++ [c]).tail rest
    else scan (window ++ [c]) rest

/-- **First match.**  The loop stops behind the first occurrence. -/
theorem scan_eq_of_first {window : List α} (hwindow : window.length < pat.length)
    (h : First pat (window ++ s) i) :
    scan pat window s = some ((window ++ s).drop (i + pat.length)) := by
  have hne : pat ≠ [] := List.ne_nil_of_length_pos (by omega)
  induction s generalizing window i with
  | nil =>
    have hlen := h.here.bound hne
    rw [List.append_nil] at hlen
    omega
  | cons c s ih =>
    have hsplit : window ++ c :: s = (window ++ [c]) ++ s := by rw [List.append_assoc]; rfl
    rw [hsplit] at h ⊢
    rw [scan]
    split
    · next hfull =>
      split
      · next heq =>
        have hzero : i = 0 := by
          by_contra hpos
          refine h.not_before 0 (by omega) ?_
          rw [heq]
          exact List.prefix_append pat s
        rw [heq, hzero, Nat.zero_add, List.drop_left]
      · next hdiff =>
        have hnot : ¬pat <+: (window ++ [c]) ++ s := by
          intro hpre
          refine hdiff ((List.prefix_of_prefix_length_le hpre (List.prefix_append _ s) ?_).eq_of_length
            hfull.symm).symm
          omega
        obtain ⟨d, rest, hcons⟩ : ∃ d rest, window ++ [c] = d :: rest :=
          List.exists_cons_of_ne_nil (by simp)
        rw [hcons] at h hnot hfull ⊢
        obtain ⟨k, rfl, hk⟩ := h.tail hnot
        rw [List.length_cons] at hfull
        rw [List.tail_cons, ih (by omega) hk, List.cons_append, Nat.add_right_comm,
          List.drop_succ_cons]
    · next hshort =>
      rw [List.length_append, List.length_singleton] at hshort
      refine ih ?_ h
      rw [List.length_append, List.length_singleton]
      omega

end Scan
