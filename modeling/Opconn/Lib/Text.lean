import Mathlib.Data.List.Infix

/-!
# Separated lists edited by substring search

A list of items kept as one text, items apart by a separator, is often edited in
place: `strstr` finds where a pattern first occurs, and what stands there up to
the next separator is cut out.  The rules below say when this finds the item it
is meant to find: when the pattern has no separator, it occurs in the text only
inside an item, and the first occurrence is the item itself as long as no item in
front contains the pattern.
-/

namespace Text

variable {α : Type*} [DecidableEq α]

/-- The position of the first occurrence of `pat`, as the C function of that name. -/
def strstr : List α → List α → Option Nat
  | [], pat => if pat = [] then some 0 else none
  | c :: text, pat => if pat <+: c :: text then some 0 else (strstr text pat).map (· + 1)

theorem strstr_of_isPrefix {text pat : List α} (h : pat <+: text) : strstr text pat = some 0 := by
  cases text with
  | nil => simp [strstr, List.prefix_nil.mp h]
  | cons c text => simp [strstr, h]

theorem strstr_eq_none {text pat : List α} (h : ¬pat <:+: text) : strstr text pat = none := by
  induction text with
  | nil =>
    have hne : pat ≠ [] := by
      rintro rfl
      exact h (List.infix_refl [])
    simp [strstr, hne]
  | cons c text ih =>
    have hstart : ¬pat <+: c :: text := fun hp => h hp.isInfix
    have htail : ¬pat <:+: text := fun hi => h (hi.trans (List.suffix_cons c text).isInfix)
    simp [strstr, hstart, ih htail]

omit [DecidableEq α] in
/-- A pattern without separators that starts in front of one ends in front of it. -/
theorem isPrefix_of_isPrefix_append_cons {sep : α} {pat x rest : List α} (hsep : sep ∉ pat)
    (h : pat <+: x ++ sep :: rest) : pat <+: x := by
  induction x generalizing pat with
  | nil =>
    cases pat with
    | nil => exact List.prefix_refl []
    | cons c pat =>
      obtain ⟨hc, -⟩ := List.cons_prefix_cons.mp h
      exact absurd (hc ▸ List.mem_cons_self ..) hsep
  | cons c x ih =>
    cases pat with
    | nil => exact ⟨c :: x, rfl⟩
    | cons d pat =>
      obtain ⟨rfl, htail⟩ := List.cons_prefix_cons.mp h
      have hsep' : sep ∉ pat := fun hmem => hsep (List.mem_cons_of_mem _ hmem)
      exact List.cons_prefix_cons.mpr ⟨rfl, ih hsep' htail⟩

/-- An item that does not contain the pattern is passed over. -/
theorem strstr_append_sep {sep : α} {pat : List α} (hsep : sep ∉ pat) (hne : pat ≠ [])
    {x : List α} (hx : ¬pat <:+: x) (rest : List α) :
    strstr (x ++ sep :: rest) pat = (strstr rest pat).map (· + (x.length + 1)) := by
  induction x with
  | nil =>
    have hstart : ¬pat <+: sep :: rest := by
      intro hp
      exact hne (List.prefix_nil.mp (isPrefix_of_isPrefix_append_cons hsep (x := []) hp))
    simp [strstr, hstart]
  | cons c x ih =>
    have hstart : ¬pat <+: c :: (x ++ sep :: rest) := by
      intro hp
      exact hx (isPrefix_of_isPrefix_append_cons hsep (x := c :: x) hp).isInfix
    have hx' : ¬pat <:+: x := fun hi => hx (hi.trans (List.suffix_cons c x).isInfix)
    simp only [List.cons_append, strstr, if_neg hstart, ih hx', Option.map_map]
    congr 1

/-! ### Texts of several items -/

/-- The text of the items, each followed by a separator. -/
def front (sep : α) (items : List (List α)) : List α := items.flatMap (· ++ [sep])

omit [DecidableEq α] in
theorem intercalate_append_cons (sep : α) (pre : List (List α)) (x : List α)
    (post : List (List α)) :
    [sep].intercalate (pre ++ x :: post) = front sep pre ++ [sep].intercalate (x :: post) := by
  induction pre with
  | nil => simp [front]
  | cons y pre ih =>
    have hne : pre ++ x :: post ≠ [] := by simp
    rw [List.cons_append, List.intercalate_cons_of_ne_nil hne, ih]
    simp [front]

omit [DecidableEq α] in
theorem front_eq_intercalate (sep : α) {pre : List (List α)} (hne : pre ≠ []) :
    front sep pre = [sep].intercalate pre ++ [sep] := by
  induction pre with
  | nil => exact absurd rfl hne
  | cons y pre ih =>
    cases pre with
    | nil => simp [front]
    | cons z zs =>
      have htail := ih (by simp)
      rw [List.intercalate_cons_of_ne_nil (by simp)]
      simp only [front, List.flatMap_cons] at htail ⊢
      rw [htail]
      simp

section Search

variable {sep : α} {pat : List α} (hsep : sep ∉ pat) (hne : pat ≠ [])

include hsep hne

/-- Items that do not contain the pattern are passed over. -/
theorem strstr_front {pre : List (List α)} (hpre : ∀ x ∈ pre, ¬pat <:+: x) (rest : List α) :
    strstr (front sep pre ++ rest) pat =
      (strstr rest pat).map (· + (front sep pre).length) := by
  induction pre with
  | nil => simp [front]
  | cons x pre ih =>
    have hx : ¬pat <:+: x := hpre x (List.mem_cons_self ..)
    have hrest : front sep (x :: pre) ++ rest = x ++ sep :: (front sep pre ++ rest) := by
      simp [front]
    rw [hrest, strstr_append_sep hsep hne hx,
      ih (fun y hy => hpre y (List.mem_cons_of_mem _ hy)), Option.map_map]
    congr 1
    funext n
    simp only [Function.comp_apply, front, List.flatMap_cons, List.length_append, List.length_cons,
      List.length_nil]
    omega

theorem strstr_intercalate_eq_none {items : List (List α)} (hitems : ∀ x ∈ items, ¬pat <:+: x) :
    strstr ([sep].intercalate items) pat = none := by
  induction items with
  | nil =>
    apply strstr_eq_none
    intro hinfix
    exact hne (List.infix_nil.mp hinfix)
  | cons x items ih =>
    have hx : ¬pat <:+: x := hitems x (List.mem_cons_self ..)
    cases items with
    | nil =>
      rw [List.intercalate_singleton]
      exact strstr_eq_none hx
    | cons y ys =>
      have htail := ih (fun z hz => hitems z (List.mem_cons_of_mem _ hz))
      rw [List.intercalate_cons_of_ne_nil (by simp), List.append_assoc]
      change strstr (x ++ sep :: [sep].intercalate (y :: ys)) pat = none
      rw [strstr_append_sep hsep hne hx, htail]
      rfl

/-- **The first occurrence is the item itself** when no item in front contains it. -/
theorem strstr_intercalate {pre post : List (List α)} (hpre : ∀ x ∈ pre, ¬pat <:+: x) :
    strstr ([sep].intercalate (pre ++ pat :: post)) pat = some (front sep pre).length := by
  have hfirst : pat <+: [sep].intercalate (pat :: post) := by
    cases post with
    | nil => simp
    | cons y ys =>
      rw [List.intercalate_cons_of_ne_nil (by simp), List.append_assoc]
      exact ⟨_, rfl⟩
  rw [intercalate_append_cons, strstr_front hsep hne hpre, strstr_of_isPrefix hfirst]
  simp

end Search

/-! ### Cutting an item out -/

/-- The text without the item at position `p`, which is taken to end at the next
separator; nothing is left when the item was the only one. -/
def cutAt (sep : α) (text : List α) (p : Nat) : Option (List α) :=
  match strstr (text.drop p) [sep] with
  | none => if p = 0 then none else some (text.take (p - 1))
  | some q => some (text.take p ++ text.drop (p + q + 1))

theorem length_le_of_cutAt {sep : α} {text rest : List α} {p : Nat}
    (h : cutAt sep text p = some rest) : rest.length ≤ text.length := by
  unfold cutAt at h
  split at h
  · split at h
    · cases h
    · cases h
      exact List.length_take_le' ..
  · cases h
    rw [List.length_append, List.length_take, List.length_drop]
    omega

theorem strstr_sep {sep : α} {x : List α} (hx : sep ∉ x) :
    strstr x [sep] = none ∧ ∀ rest, strstr (x ++ sep :: rest) [sep] = some x.length := by
  induction x with
  | nil => exact ⟨by simp [strstr], fun rest => by simp [strstr]⟩
  | cons c x ih =>
    have hc : sep ≠ c := fun heq => hx (heq ▸ List.mem_cons_self ..)
    obtain ⟨hnone, hsome⟩ := ih (fun hmem => hx (List.mem_cons_of_mem _ hmem))
    have hstart : ∀ l : List α, ¬[sep] <+: c :: l := by
      intro l hp
      exact hc (List.cons_prefix_cons.mp hp).1
    refine ⟨?_, ?_⟩
    · simp [strstr, hstart, hnone]
    · intro rest
      simp [strstr, hstart, hsome]

/-- **Cutting at an item** leaves the text of the other items. -/
theorem cutAt_intercalate {sep : α} {x : List α} (hx : sep ∉ x) (pre post : List (List α)) :
    cutAt sep ([sep].intercalate (pre ++ x :: post)) (front sep pre).length =
      if pre ++ post = [] then none else some ([sep].intercalate (pre ++ post)) := by
  rw [intercalate_append_cons]
  unfold cutAt
  rw [List.drop_left, List.take_left]
  cases post with
  | nil =>
    rw [List.intercalate_singleton, (strstr_sep hx).1]
    by_cases hpre : pre = []
    · subst hpre
      simp [front]
    · have hlen : (front sep pre).length ≠ 0 := by
        rw [front_eq_intercalate sep hpre]
        simp
      have htake : (front sep pre ++ x).take ((front sep pre).length - 1) =
          [sep].intercalate pre := by
        rw [front_eq_intercalate sep hpre]
        simp
      simp [hlen, hpre, htake]
  | cons y ys =>
    have htext : [sep].intercalate (x :: y :: ys) = x ++ sep :: [sep].intercalate (y :: ys) := by
      rw [List.intercalate_cons_of_ne_nil (by simp), List.append_assoc]
      rfl
    have hrest : (front sep pre ++ (x ++ sep :: [sep].intercalate (y :: ys))).drop
        ((front sep pre).length + x.length + 1) = [sep].intercalate (y :: ys) := by
      rw [Nat.add_assoc, ← List.drop_drop, List.drop_left, ← List.drop_drop, List.drop_left]
      rfl
    rw [htext, (strstr_sep hx).2]
    simp only [hrest]
    rw [if_neg (by simp), intercalate_append_cons]

end Text
