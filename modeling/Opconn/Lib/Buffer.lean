import Mathlib.Logic.Function.Basic

/-!
# Buffers of a fixed size

A buffer is the function from its places to what lies there; an access outside of its
`size` places has no result.  Besides single writes there are copies between buffers and
the loop that moves a piece of a buffer up, place by place from its upper end.
-/

namespace Buffer

variable {β : Type*}

/-- A write of one place. -/
def write (size : Nat) (m : Nat → β) (i : Nat) (b : β) : Option (Nat → β) :=
  if i < size then some (Function.update m i b) else none

/-- `n` places of `src` from `j` on, copied to `dst` from `i` on; both have `size` places. -/
def copy (size : Nat) (dst : Nat → β) (i : Nat) (src : Nat → β) (j n : Nat) : Option (Nat → β) :=
  if i + n ≤ size ∧ j + n ≤ size then
    some fun k => if i ≤ k ∧ k < i + n then src (j + (k - i)) else dst k
  else none

theorem write_of_lt {size : Nat} (m : Nat → β) {i : Nat} (b : β) (h : i < size) :
    write size m i b = some (Function.update m i b) := if_pos h

theorem copy_of_le {size : Nat} (dst : Nat → β) {i : Nat} (src : Nat → β) {j n : Nat}
    (hdst : i + n ≤ size) (hsrc : j + n ≤ size) :
    copy size dst i src j n =
      some fun k => if i ≤ k ∧ k < i + n then src (j + (k - i)) else dst k :=
  if_pos ⟨hdst, hsrc⟩

/-- Writes from `i` on, one behind the other. -/
def writeList (size : Nat) : (Nat → β) → Nat → List β → Option (Nat → β)
  | m, _, [] => some m
  | m, i, b :: bs => (write size m i b).bind fun m => writeList size m (i + 1) bs

theorem writeList_eq {size : Nat} (m : Nat → β) {i : Nat} (bs : List β)
    (h : i + bs.length ≤ size) :
    writeList size m i bs =
      some fun k => if i ≤ k then bs[k - i]?.getD (m k) else m k := by
  induction bs generalizing m i with
  | nil => simp [writeList]
  | cons b bs ih =>
    rw [List.length_cons] at h
    rw [writeList, write_of_lt _ _ (by omega), Option.bind_some, ih _ (by omega),
      Option.some.injEq]
    funext k
    rcases Nat.lt_trichotomy k i with hlt | rfl | hgt
    · rw [if_neg (by omega), if_neg (by omega), Function.update_of_ne (by omega)]
    · rw [if_neg (by omega), if_pos (Nat.le_refl k), Function.update_self, Nat.sub_self]
      rfl
    · have hrest : k - i = k - (i + 1) + 1 := by omega
      rw [if_pos (by omega), if_pos (by omega), Function.update_of_ne (by omega), hrest,
        List.getElem?_cons_succ]

/-- Writes that do not fit have no result. -/
theorem writeList_eq_none {size : Nat} (m : Nat → β) {i : Nat} {bs : List β}
    (hi : i ≤ size) (h : size < i + bs.length) : writeList size m i bs = none := by
  induction bs generalizing m i with
  | nil =>
    rw [List.length_nil] at h
    omega
  | cons b bs ih =>
    rw [List.length_cons] at h
    by_cases hlt : i < size
    · rw [writeList, write_of_lt _ _ hlt, Option.bind_some]
      exact ih _ hlt (by omega)
    · rw [writeList, write, if_neg hlt, Option.bind_none]

/-- The places `lo` to `lo + n - 1` go up by `up`, the uppermost first. -/
def moveUp (size lo up : Nat) : Nat → (Nat → β) → Option (Nat → β)
  | 0, m => some m
  | n + 1, m => (write size m (lo + n + up) (m (lo + n))).bind (moveUp size lo up n)

/-- **What a move leaves.**  Going from the upper end it reads no place that it has written. -/
theorem moveUp_eq {size lo up : Nat} (hup : 0 < up) (n : Nat) (m : Nat → β)
    (h : lo + n + up ≤ size) :
    moveUp size lo up n m =
      some fun k => if lo + up ≤ k ∧ k < lo + up + n then m (k - up) else m k := by
  induction n generalizing m with
  | zero =>
    rw [moveUp, Option.some.injEq]
    funext k
    rw [if_neg (by omega)]
  | succ n ih =>
    rw [moveUp, write_of_lt _ _ (by omega), Option.bind_some, ih _ (by omega), Option.some.injEq]
    funext k
    by_cases hlast : k = lo + n + up
    · subst hlast
      rw [if_neg (by omega), if_pos (by omega), Function.update_self]
      congr 1
      omega
    · by_cases hin : lo + up ≤ k ∧ k < lo + up + n
      · rw [if_pos hin, if_pos (by omega), Function.update_of_ne (by omega)]
      · rw [if_neg hin, if_neg (by omega), Function.update_of_ne hlast]

/-! ### Readers -/

/-- `n` places from `i` on. -/
def read (rd : Nat → Option β) : Nat → Nat → Option (List β)
  | _, 0 => some []
  | i, n + 1 => (rd i).bind fun b => (read rd (i + 1) n).map (b :: ·)

theorem read_isSome_iff {rd : Nat → Option β} {i n : Nat} :
    (read rd i n).isSome ↔ ∀ k, i ≤ k → k < i + n → (rd k).isSome := by
  induction n generalizing i with
  | zero => exact iff_of_true rfl fun k _ _ => by omega
  | succ n ih =>
    have hsplit : (read rd i (n + 1)).isSome ↔ (rd i).isSome ∧ (read rd (i + 1) n).isSome := by
      rw [read]
      cases rd i <;> simp
    rw [hsplit, ih]
    constructor
    · rintro ⟨hfirst, hrest⟩ k hi hn
      rcases Nat.eq_or_lt_of_le hi with rfl | hlt
      · exact hfirst
      · exact hrest k hlt (by omega)
    · intro hall
      exact ⟨hall i (Nat.le_refl i) (by omega), fun k hi hn => hall k (by omega) (by omega)⟩

/-- A list is read where it has elements. -/
theorem read_list_isSome_iff {l : List β} {i n : Nat} (hn : 0 < n) :
    (read (fun k => l[k]?) i n).isSome ↔ i + n ≤ l.length := by
  simp only [read_isSome_iff, isSome_getElem?]
  constructor
  · intro hall
    have hlast := hall (i + n - 1) (by omega) (by omega)
    omega
  · intro hle k _ hk
    omega

theorem read_list {l : List β} {i n : Nat} (h : i + n ≤ l.length) :
    read (fun k => l[k]?) i n = some ((l.drop i).take n) := by
  induction n generalizing i with
  | zero => simp [read]
  | succ n ih =>
    have hi : i < l.length := by omega
    rw [read, List.getElem?_eq_getElem hi, Option.bind_some, ih (by omega), Option.map_some,
      List.drop_eq_getElem_cons hi, List.take_succ_cons]

theorem read_eq_some {rd : Nat → Option β} {i : Nat} {bs : List β}
    (h : ∀ j (hj : j < bs.length), rd (i + j) = some bs[j]) :
    read rd i bs.length = some bs := by
  induction bs generalizing i with
  | nil => rfl
  | cons b bs ih =>
    have hfirst : rd i = some b := h 0 (Nat.zero_lt_succ _)
    have hrest : read rd (i + 1) bs.length = some bs := by
      apply ih
      intro j hj
      have hplace : i + 1 + j = i + (j + 1) := by omega
      rw [hplace]
      exact h (j + 1) (Nat.succ_lt_succ hj)
    rw [List.length_cons, read, hfirst, Option.bind_some, hrest, Option.map_some]

/-- A reader that may read more reads the same. -/
theorem read_mono {rd rd' : Nat → Option β} (hrd : ∀ i b, rd i = some b → rd' i = some b)
    {i n : Nat} {bs : List β} (h : read rd i n = some bs) : read rd' i n = some bs := by
  induction n generalizing i bs with
  | zero => exact h
  | succ n ih =>
    rw [read] at h
    obtain ⟨b, hb, hrest⟩ := Option.bind_eq_some_iff.mp h
    obtain ⟨bs', hbs', heq⟩ := Option.map_eq_some_iff.mp hrest
    rw [read, hrd i b hb, Option.bind_some, ih hbs', Option.map_some, heq]

end Buffer
