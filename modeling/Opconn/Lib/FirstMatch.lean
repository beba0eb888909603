import Mathlib.Data.List.Forall2
import Mathlib.Data.List.Pairwise

/-!
# Lists searched for the first match

Records kept in a list are often found by a linear search and changed or removed where
they were found.  `List.find?` and `List.eraseP` are the search and the removal,
`updateFirst` is the change.  The rules are for lists that hold at most one match, which
is what a search by key is written for.
-/

namespace FirstMatch

variable {α β : Type*}

/-- The list with its first match changed by `f`. -/
def updateFirst (p : α → Bool) (f : α → α) : List α → List α
  | [] => []
  | a :: l => if p a then f a :: l else a :: updateFirst p f l

@[simp]
theorem updateFirst_nil (p : α → Bool) (f : α → α) : updateFirst p f [] = [] := rfl

theorem updateFirst_pos {p : α → Bool} {f : α → α} {a : α} {l : List α} (ha : p a = true) :
    updateFirst p f (a :: l) = f a :: l := if_pos ha

theorem updateFirst_neg {p : α → Bool} {f : α → α} {a : α} {l : List α} (ha : p a = false) :
    updateFirst p f (a :: l) = a :: updateFirst p f l := if_neg (by simp [ha])

/-- At most one element of the list is a match. -/
def Single (p : α → Bool) (l : List α) : Prop := l.Pairwise fun a b => p a = true → p b = false

theorem Single.tail {p : α → Bool} {a : α} {l : List α} (h : Single p (a :: l)) : Single p l :=
  (List.pairwise_cons.mp h).2

theorem Single.not_of_head {p : α → Bool} {a b : α} {l : List α} (h : Single p (a :: l))
    (ha : p a = true) (hb : b ∈ l) : p b = false :=
  (List.pairwise_cons.mp h).1 b hb ha

theorem find?_eq_some_of_single {p : α → Bool} {l : List α} {a : α} (h : Single p l) (ha : a ∈ l)
    (hp : p a = true) : l.find? p = some a := by
  induction l with
  | nil => cases ha
  | cons b l ih =>
    cases hb : p b with
    | true =>
      rcases List.mem_cons.mp ha with rfl | hmem
      · simp [hb]
      · rw [h.not_of_head hb hmem] at hp
        cases hp
    | false =>
      rcases List.mem_cons.mp ha with rfl | hmem
      · rw [hb] at hp
        cases hp
      · simpa [hb] using ih h.tail hmem

/-- What is left after removing the only match are the elements that do not match. -/
theorem not_of_mem_eraseP {p : α → Bool} {l : List α} (h : Single p l) {b : α}
    (hb : b ∈ l.eraseP p) : p b = false := by
  induction l with
  | nil => cases hb
  | cons a l ih =>
    cases ha : p a with
    | true =>
      rw [List.eraseP_cons_of_pos ha] at hb
      exact h.not_of_head ha hb
    | false =>
      rw [List.eraseP_cons_of_neg (by simp [ha])] at hb
      rcases List.mem_cons.mp hb with rfl | hmem
      · exact ha
      · exact ih h.tail hmem

theorem mem_eraseP_iff {p : α → Bool} {l : List α} (h : Single p l) {b : α} :
    b ∈ l.eraseP p ↔ b ∈ l ∧ p b = false := by
  constructor
  · intro hb
    exact ⟨List.mem_of_mem_eraseP hb, not_of_mem_eraseP h hb⟩
  · rintro ⟨hb, hp⟩
    exact (List.mem_eraseP_of_neg (by simp [hp])).mpr hb

theorem find?_eraseP_self {p : α → Bool} {l : List α} (h : Single p l) :
    (l.eraseP p).find? p = none := by
  rw [List.find?_eq_none]
  intro b hb
  simp [not_of_mem_eraseP h hb]

/-- Removing the only match of `q`, when it is the first match of `p`, takes the head off
the matches of `p`. -/
theorem filter_eq_cons_of_find? {p q : α → Bool} {l : List α} {a : α} (h : Single q l)
    (hfind : l.find? p = some a) (hq : q a = true) : l.filter p = a :: (l.eraseP q).filter p := by
  induction l with
  | nil => cases hfind
  | cons b l ih =>
    cases hb : p b with
    | true =>
      rw [List.find?_cons_of_pos hb, Option.some.injEq] at hfind
      subst hfind
      rw [List.eraseP_cons_of_pos hq, List.filter_cons_of_pos hb]
    | false =>
      rw [List.find?_cons_of_neg (by simp [hb])] at hfind
      have hqb : q b = false := by
        rw [← Bool.not_eq_true]
        intro hqb
        have hnot := h.not_of_head hqb (List.mem_of_find?_eq_some hfind)
        rw [hq] at hnot
        cases hnot
      rw [List.eraseP_cons_of_neg (by simp [hqb]), List.filter_cons_of_neg (by simp [hb]),
        List.filter_cons_of_neg (by simp [hb])]
      exact ih h.tail hfind

/-! ### Changing the first match -/

theorem perm_cons_eraseP {p : α → Bool} {l : List α} {a : α} (h : l.find? p = some a) :
    l.Perm (a :: l.eraseP p) := by
  induction l with
  | nil => cases h
  | cons b l ih =>
    cases hb : p b with
    | true =>
      have heq : b = a := by simpa [hb] using h
      rw [heq, List.eraseP_cons_of_pos (heq ▸ hb)]
    | false =>
      have htail : l.find? p = some a := by simpa [hb] using h
      rw [List.eraseP_cons_of_neg (by simp [hb])]
      exact (List.Perm.cons b (ih htail)).trans (List.Perm.swap a b _)

theorem updateFirst_perm {p : α → Bool} {f : α → α} {l : List α} {a : α} (h : l.find? p = some a) :
    (updateFirst p f l).Perm (f a :: l.eraseP p) := by
  induction l with
  | nil => cases h
  | cons b l ih =>
    cases hb : p b with
    | true =>
      have heq : b = a := by simpa [hb] using h
      rw [updateFirst_pos hb, heq, List.eraseP_cons_of_pos (heq ▸ hb)]
    | false =>
      have htail : l.find? p = some a := by simpa [hb] using h
      rw [updateFirst_neg hb, List.eraseP_cons_of_neg (by simp [hb])]
      exact (List.Perm.cons b (ih htail)).trans (List.Perm.swap (f a) b _)

theorem updateFirst_of_find?_none {p : α → Bool} {f : α → α} {l : List α} (h : l.find? p = none) :
    updateFirst p f l = l := by
  induction l with
  | nil => rfl
  | cons b l ih =>
    cases hb : p b with
    | true => simp [hb] at h
    | false =>
      have htail : l.find? p = none := by simpa [hb] using h
      rw [updateFirst_neg hb, ih htail]

theorem length_updateFirst (p : α → Bool) (f : α → α) (l : List α) :
    (updateFirst p f l).length = l.length := by
  induction l with
  | nil => rfl
  | cons a l ih =>
    cases ha : p a with
    | true => simp [updateFirst_pos ha]
    | false => simp [updateFirst_neg ha, ih]

theorem mem_updateFirst {p : α → Bool} {f : α → α} {l : List α} {b : α}
    (hb : b ∈ updateFirst p f l) : b ∈ l ∨ ∃ a, l.find? p = some a ∧ b = f a := by
  induction l with
  | nil => cases hb
  | cons a l ih =>
    cases ha : p a with
    | true =>
      rw [updateFirst_pos ha, List.mem_cons] at hb
      rcases hb with rfl | hmem
      · exact Or.inr ⟨a, by simp [ha], rfl⟩
      · exact Or.inl (List.mem_cons_of_mem _ hmem)
    | false =>
      rw [updateFirst_neg ha, List.mem_cons] at hb
      rcases hb with rfl | hmem
      · exact Or.inl (List.mem_cons_self ..)
      · rcases ih hmem with hmem | ⟨c, hc, rfl⟩
        · exact Or.inl (List.mem_cons_of_mem _ hmem)
        · exact Or.inr ⟨c, by simpa [ha] using hc, rfl⟩

/-- What holds of every element and is kept by the change holds of every element after it. -/
theorem forall_mem_updateFirst {P : α → Prop} {p : α → Bool} {f : α → α} {l : List α}
    (h : ∀ a ∈ l, P a) (hf : ∀ a, P a → P (f a)) : ∀ b ∈ updateFirst p f l, P b := by
  intro b hb
  rcases mem_updateFirst hb with hold | ⟨a, hfound, rfl⟩
  · exact h b hold
  · exact hf a (h a (List.mem_of_find?_eq_some hfound))

theorem mem_updateFirst_of_find? {p : α → Bool} {f : α → α} {l : List α} {a : α}
    (h : l.find? p = some a) : f a ∈ updateFirst p f l := by
  induction l with
  | nil => cases h
  | cons b l ih =>
    cases hb : p b with
    | true =>
      rw [List.find?_cons_of_pos hb, Option.some.injEq] at h
      subst h
      simp [updateFirst_pos hb]
    | false =>
      rw [List.find?_cons_of_neg (by simp [hb])] at h
      simp [updateFirst_neg hb, ih h]

theorem mem_updateFirst_of_not {p : α → Bool} {f : α → α} {l : List α} {b : α} (hb : b ∈ l)
    (hp : p b = false) : b ∈ updateFirst p f l := by
  induction l with
  | nil => cases hb
  | cons a l ih =>
    rcases List.mem_cons.mp hb with rfl | hmem
    · simp [updateFirst_neg hp]
    · cases ha : p a with
      | true => simp [updateFirst_pos ha, hmem]
      | false => simp [updateFirst_neg ha, ih hmem]

/-- The search for the changed element finds it changed. -/
theorem find?_updateFirst_self {p : α → Bool} {f : α → α} {l : List α}
    (hf : ∀ a, p a = true → p (f a) = true) :
    (updateFirst p f l).find? p = (l.find? p).map f := by
  induction l with
  | nil => rfl
  | cons a l ih =>
    cases ha : p a with
    | true => simp [updateFirst_pos ha, ha, hf a ha]
    | false => simp [updateFirst_neg ha, ha, ih]

/-- The first match, where the list is cut in front of it. -/
theorem updateFirst_append {p : α → Bool} {f : α → α} {l₁ l₂ : List α} {a : α}
    (hbefore : ∀ b ∈ l₁, p b = false) (ha : p a = true) :
    updateFirst p f (l₁ ++ a :: l₂) = l₁ ++ f a :: l₂ := by
  induction l₁ with
  | nil => simp [updateFirst_pos ha]
  | cons b l₁ ih =>
    have hb : p b = false := hbefore b (List.mem_cons_self ..)
    simp [updateFirst_neg hb, ih fun c hc => hbefore c (List.mem_cons_of_mem _ hc)]

theorem eraseP_append {p : α → Bool} {l₁ l₂ : List α} {a : α}
    (hbefore : ∀ b ∈ l₁, p b = false) (ha : p a = true) :
    (l₁ ++ a :: l₂).eraseP p = l₁ ++ l₂ := by
  rw [List.eraseP_append_right _ fun b hb => by simp [hbefore b hb], List.eraseP_cons_of_pos ha]

/-- The element behind the first occurrence of `a`: what a walk over the list saves before
it changes or removes `a`. -/
def next [DecidableEq α] (a : α) : List α → Option α
  | [] => none
  | b :: l => if b = a then l.head? else next a l

theorem next_append [DecidableEq α] {l₁ l₂ : List α} {a : α} (h : a ∉ l₁) :
    next a (l₁ ++ a :: l₂) = l₂.head? := by
  induction l₁ with
  | nil => simp [next]
  | cons b l₁ ih =>
    rw [List.mem_cons, not_or] at h
    simp [next, Ne.symm h.1, ih h.2]

/-! ### Searches for something else -/

/-- Searches that are the same once they share a match share all of them or none. -/
theorem eq_or_disjoint {p q : α → Bool} (h : ∀ a, p a = true → q a = true → p = q) :
    p = q ∨ ∀ a, p a = true → q a = false := by
  by_cases hcommon : ∃ a, p a = true ∧ q a = true
  · obtain ⟨a, hp, hq⟩ := hcommon
    exact Or.inl (h a hp hq)
  · right
    intro a hp
    rw [← Bool.not_eq_true]
    intro hq
    exact hcommon ⟨a, hp, hq⟩

section Disjoint

variable {p q : α → Bool} (hdisjoint : ∀ a, p a = true → q a = false)

include hdisjoint

theorem find?_updateFirst_of_disjoint {f : α → α} {l : List α}
    (hf : ∀ a, p a = true → p (f a) = true) : (updateFirst p f l).find? q = l.find? q := by
  induction l with
  | nil => rfl
  | cons a l ih =>
    cases ha : p a with
    | true => simp [updateFirst_pos ha, hdisjoint a ha, hdisjoint (f a) (hf a ha)]
    | false => simp only [updateFirst_neg ha, List.find?_cons, ih]

end Disjoint

/-! ### Lists that only lose elements

`List.SublistForall₂ R l' l` says that `l'` is `l` with elements left out and the others
changed within `R`. -/

section Shrink

open List

variable {R : α → α → Prop}

theorem exists_of_mem_shrunk {l' l : List α} (h : SublistForall₂ R l' l) {a : α} (ha : a ∈ l') :
    ∃ b ∈ l, R a b := by
  induction h with
  | nil => cases ha
  | cons hR _ ih =>
    rcases List.mem_cons.mp ha with rfl | hmem
    · exact ⟨_, List.mem_cons_self .., hR⟩
    · obtain ⟨b, hb, hRb⟩ := ih hmem
      exact ⟨b, List.mem_cons_of_mem _ hb, hRb⟩
  | cons_right _ ih =>
    obtain ⟨b, hb, hRb⟩ := ih ha
    exact ⟨b, List.mem_cons_of_mem _ hb, hRb⟩

theorem pairwise_of_shrunk {P Q : α → α → Prop} {l' l : List α} (h : SublistForall₂ R l' l)
    (hP : l.Pairwise P) (hPQ : ∀ {a' a b' b}, R a' a → R b' b → P a b → Q a' b') :
    l'.Pairwise Q := by
  induction h with
  | nil => exact List.Pairwise.nil
  | cons hR htail ih =>
    obtain ⟨hhead, hrest⟩ := List.pairwise_cons.mp hP
    refine List.pairwise_cons.mpr ⟨?_, ih hrest⟩
    intro b' hb'
    obtain ⟨b, hb, hRb⟩ := exists_of_mem_shrunk htail hb'
    exact hPQ hR hRb (hhead b hb)
  | cons_right _ ih => exact ih (List.pairwise_cons.mp hP).2

theorem shrunk_refl (hR : ∀ a, R a a) (l : List α) : SublistForall₂ R l l := by
  induction l with
  | nil => exact .nil
  | cons a l ih => exact .cons (hR a) ih

theorem shrunk_of_sublist (hR : ∀ a, R a a) {l' l : List α} (h : l'.Sublist l) :
    SublistForall₂ R l' l := by
  induction h with
  | slnil => exact .nil
  | cons a _ ih => exact .cons_right ih
  | cons_cons a _ ih => exact .cons (hR a) ih

theorem shrunk_updateFirst (hR : ∀ a, R a a) {p : α → Bool} {f : α → α}
    (hf : ∀ a, p a = true → R (f a) a) (l : List α) : SublistForall₂ R (updateFirst p f l) l := by
  induction l with
  | nil => exact .nil
  | cons a l ih =>
    cases ha : p a with
    | true =>
      rw [updateFirst_pos ha]
      exact .cons (hf a ha) (shrunk_refl hR l)
    | false =>
      rw [updateFirst_neg ha]
      exact .cons (hR a) ih

theorem shrunk_map {f : α → α} (hf : ∀ a, R (f a) a) (l : List α) :
    SublistForall₂ R (l.map f) l := by
  induction l with
  | nil => exact .nil
  | cons a l ih => exact .cons (hf a) ih

theorem shrunk_trans {l'' l' l : List α} (h₁ : SublistForall₂ R l'' l')
    (h₂ : SublistForall₂ R l' l) (hR : ∀ a b c, R a b → R b c → R a c) :
    SublistForall₂ R l'' l := by
  have : IsTrans α R := ⟨hR⟩
  exact IsTrans.trans _ _ _ h₁ h₂

end Shrink

end FirstMatch
