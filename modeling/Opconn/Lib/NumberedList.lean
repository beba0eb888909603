import Mathlib.Algebra.BigOperators.Group.List.Basic
import Mathlib.Algebra.Order.BigOperators.Group.List
import Mathlib.Algebra.Ring.Nat
import Mathlib.Data.List.Nodup
import Mathlib.Data.List.Perm.Subperm

/-!
# Numbered lists that close up

Entries are kept in the order of their numbers, and where one is removed the numbers behind it
go down by one.  A number that is removed later then means another entry, unless the removals
go from the end of the list to its front.
-/

namespace NumberedList

variable {α : Type*}

/-- An entry behind a gap. -/
def lower (x : α × ℕ) : α × ℕ := (x.1, x.2 - 1)

@[simp] theorem lower_fst (x : α × ℕ) : (lower x).1 = x.1 := rfl
@[simp] theorem lower_snd (x : α × ℕ) : (lower x).2 = x.2 - 1 := rfl

/-- The list without the first entry of number `p`, closed up, if there is one. -/
def remove (p : ℕ) : List (α × ℕ) → Option (List (α × ℕ))
  | [] => none
  | x :: l => if x.2 = p then some (l.map lower) else (remove p l).map (x :: ·)

/-- The numbers are removed one after the other, as long as they are found. -/
def removeAll (l : List (α × ℕ)) : List ℕ → List (α × ℕ)
  | [] => l
  | p :: ps =>
    match remove p l with
    | some l' => removeAll l' ps
    | none => l

/-- All of them are found. -/
def AllFound (l : List (α × ℕ)) : List ℕ → Prop
  | [] => True
  | p :: ps => ∃ l', remove p l = some l' ∧ AllFound l' ps

def names (l : List (α × ℕ)) : List α := l.map Prod.fst

/-- The numbers rise; only zero may come more than once. -/
def Ordered (l : List (α × ℕ)) : Prop := l.Pairwise fun x y => x.2 < y.2 ∨ (x.2 = 0 ∧ y.2 = 0)

/-- One entry has the number. -/
def Once (p : ℕ) (l : List (α × ℕ)) : Prop := l.countP (fun x => x.2 = p) = 1

/-- The entries whose number is not listed. -/
def unlisted (ps : List ℕ) (l : List (α × ℕ)) : List (α × ℕ) := l.filter fun x => x.2 ∉ ps

/-! ### One removal -/

theorem remove_eq_none_iff {p : ℕ} {l : List (α × ℕ)} : remove p l = none ↔ ∀ x ∈ l, x.2 ≠ p := by
  induction l with
  | nil => simp [remove]
  | cons x l ih =>
    rw [remove, List.forall_mem_cons]
    by_cases hx : x.2 = p
    · simp [hx]
    · simp [hx, ih]

/-- The entry is taken out of its place, and those behind it are lowered. -/
theorem remove_eq_some_iff {p : ℕ} {l l' : List (α × ℕ)} : remove p l = some l' ↔
    ∃ front x later, l = front ++ x :: later ∧ x.2 = p ∧ (∀ y ∈ front, y.2 ≠ p) ∧
      l' = front ++ later.map lower := by
  induction l generalizing l' with
  | nil => simp [remove]
  | cons x l ih =>
    rw [remove]
    by_cases hx : x.2 = p
    · rw [if_pos hx, Option.some.injEq]
      constructor
      · rintro rfl
        exact ⟨[], x, l, rfl, hx, by simp, rfl⟩
      · rintro ⟨front, y, later, hl, -, hfront, rfl⟩
        cases front with
        | nil =>
          obtain ⟨-, rfl⟩ := List.cons.inj hl
          rfl
        | cons z front =>
          obtain ⟨rfl, -⟩ := List.cons.inj hl
          exact absurd hx (hfront x (List.mem_cons_self ..))
    · rw [if_neg hx, Option.map_eq_some_iff]
      constructor
      · rintro ⟨l₁, hl₁, rfl⟩
        obtain ⟨front, y, later, rfl, hy, hfront, rfl⟩ := ih.mp hl₁
        exact ⟨x :: front, y, later, rfl, hy, List.forall_mem_cons.mpr ⟨hx, hfront⟩, rfl⟩
      · rintro ⟨front, y, later, hl, hy, hfront, rfl⟩
        cases front with
        | nil =>
          obtain ⟨rfl, -⟩ := List.cons.inj hl
          exact absurd hy hx
        | cons z front =>
          obtain ⟨rfl, rfl⟩ := List.cons.inj hl
          exact ⟨_, ih.mpr ⟨front, y, later, rfl, hy, (List.forall_mem_cons.mp hfront).2, rfl⟩, rfl⟩

theorem Ordered.front_lt {p : ℕ} {front later : List (α × ℕ)} {x : α × ℕ}
    (h : Ordered (front ++ x :: later)) (hx : x.2 = p) (hfront : ∀ y ∈ front, y.2 ≠ p) :
    ∀ y ∈ front, y.2 < p := by
  intro y hy
  have hlt := (List.pairwise_append.mp h).2.2 y hy x (List.mem_cons_self ..)
  have hne := hfront y hy
  omega

/-- The numbers stay in order. -/
theorem Ordered.removed {p : ℕ} {front later : List (α × ℕ)} {x : α × ℕ}
    (h : Ordered (front ++ x :: later)) (hx : x.2 = p) (hfront : ∀ y ∈ front, y.2 ≠ p) :
    Ordered (front ++ later.map lower) := by
  have hlt := h.front_lt hx hfront
  obtain ⟨hfirst, hcons, -⟩ := List.pairwise_append.mp h
  obtain ⟨hhead, hlater⟩ := List.pairwise_cons.mp hcons
  rw [Ordered, List.pairwise_append, List.pairwise_map]
  refine ⟨hfirst, hlater.imp ?_, ?_⟩
  · intro y z hyz
    simp only [lower_snd]
    omega
  · intro y hy z hz
    obtain ⟨z', hz', rfl⟩ := List.mem_map.mp hz
    have hy' := hlt y hy
    have hz'' := hhead z' hz'
    simp only [lower_snd]
    omega

theorem Ordered.remove {p : ℕ} {l l' : List (α × ℕ)} (h : Ordered l)
    (hremove : NumberedList.remove p l = some l') : Ordered l' := by
  obtain ⟨front, x, later, rfl, hx, hfront, rfl⟩ := remove_eq_some_iff.mp hremove
  exact h.removed hx hfront

/-- A number that is not zero is had by one entry at most. -/
theorem Ordered.once_of_pos {l : List (α × ℕ)} (h : Ordered l) {q : ℕ} (hpos : 0 < q)
    (hmem : 0 < l.countP fun x => x.2 = q) : Once q l := by
  induction l with
  | nil => cases hmem
  | cons x l ih =>
    obtain ⟨hx, hl⟩ := List.pairwise_cons.mp h
    by_cases hq : x.2 = q
    · have hzero : l.countP (fun x => x.2 = q) = 0 := by
        rw [List.countP_eq_zero]
        intro y hy heq
        have := hx y hy
        have := of_decide_eq_true heq
        omega
      rw [Once, List.countP_cons_of_pos (by simpa using hq), hzero]
    · rw [Once, List.countP_cons_of_neg (by simpa using hq)]
      rw [List.countP_cons_of_neg (by simpa using hq)] at hmem
      exact ih hl hmem

/-- What a removal does where one entry has the number. -/
structure Splits (p : ℕ) (l front : List (α × ℕ)) (x : α × ℕ) (later : List (α × ℕ)) : Prop where
  list : l = front ++ x :: later
  number : x.2 = p
  below : ∀ y ∈ front, y.2 < p
  above : ∀ y ∈ later, p < y.2
  removed : remove p l = some (front ++ later.map lower)

theorem Once.splits {p : ℕ} {l : List (α × ℕ)} (h : Once p l) (hord : Ordered l) :
    ∃ front x later, Splits p l front x later := by
  cases hremove : remove p l with
  | none =>
    have hnone := remove_eq_none_iff.mp hremove
    have hzero : l.countP (fun x => x.2 = p) = 0 := List.countP_eq_zero.mpr (by simpa using hnone)
    rw [Once, hzero] at h
    cases h
  | some l' =>
    obtain ⟨front, x, later, rfl, hx, hfront, rfl⟩ := remove_eq_some_iff.mp hremove
    refine ⟨front, x, later, rfl, hx, hord.front_lt hx hfront, ?_, hremove⟩
    intro y hy
    have hle := (List.pairwise_cons.mp (List.pairwise_append.mp hord).2.1).1 y hy
    have hne : y.2 ≠ p := by
      intro heq
      have hpos : 0 < later.countP (fun x => x.2 = p) := List.countP_pos_iff.mpr ⟨y, hy, by simpa⟩
      rw [Once, List.countP_append, List.countP_cons_of_pos (by simpa using hx)] at h
      omega
    omega

section Splits

variable {p : ℕ} {l front later : List (α × ℕ)} {x : α × ℕ}

/-- A number below the gap. -/
theorem Splits.once_of_lt (h : Splits p l front x later) {q : ℕ} (hlt : q < p) :
    Once q (front ++ later.map lower) ↔ Once q l := by
  have hlater : (later.map lower).countP (fun x => x.2 = q) = 0 := by
    rw [List.countP_eq_zero]
    intro y hy
    obtain ⟨z, hz, rfl⟩ := List.mem_map.mp hy
    have := h.above z hz
    have hne : z.2 - 1 ≠ q := by omega
    exact fun heq => hne (of_decide_eq_true heq)
  have hrest : (x :: later).countP (fun x => x.2 = q) = 0 := by
    rw [List.countP_eq_zero, List.forall_mem_cons]
    have hx : x.2 ≠ q := by
      have := h.number
      omega
    refine ⟨by simpa using hx, ?_⟩
    intro y hy
    have hne : y.2 ≠ q := by
      have := h.above y hy
      omega
    simpa using hne
  rw [Once, Once, h.list, List.countP_append, List.countP_append, hlater, hrest]

/-- What comes behind the gap had the next number. -/
theorem Splits.countP_of_le (h : Splits p l front x later) {q : ℕ} (hle : p ≤ q) :
    (front ++ later.map lower).countP (fun x => x.2 = q) = l.countP (fun x => x.2 = q + 1) := by
  have hfront : ∀ n, p ≤ n → front.countP (fun x => x.2 = n) = 0 := by
    intro n hn
    rw [List.countP_eq_zero]
    intro y hy heq
    have := h.below y hy
    have := of_decide_eq_true heq
    omega
  have hx : ¬x.2 = q + 1 := by
    have := h.number
    omega
  have hlater : (later.map lower).countP (fun x => x.2 = q) =
      later.countP (fun x => x.2 = q + 1) := by
    rw [List.countP_map]
    refine List.countP_congr fun y hy => ?_
    have := h.above y hy
    have hiff : y.2 - 1 = q ↔ y.2 = q + 1 := by omega
    exact decide_eq_true_iff.trans (hiff.trans decide_eq_true_iff.symm)
  rw [h.list, List.countP_append, List.countP_append, hfront q hle, hfront (q + 1) (by omega),
    hlater, List.countP_cons_of_neg (by simpa using hx)]

end Splits

@[simp] theorem names_lower (l : List (α × ℕ)) : names (l.map lower) = names l := by
  rw [names, names, List.map_map]
  rfl

theorem names_append (l m : List (α × ℕ)) : names (l ++ m) = names l ++ names m := List.map_append

theorem unlisted_append (ps : List ℕ) (l m : List (α × ℕ)) :
    unlisted ps (l ++ m) = unlisted ps l ++ unlisted ps m := List.filter_append ..

/-- The entry removed is not left under another number. -/
theorem not_mem_names_removed {front later : List (α × ℕ)} {x : α × ℕ}
    (hnames : (names (front ++ x :: later)).Nodup) : x.1 ∉ names (front ++ later.map lower) := by
  have hcons : names (x :: later) = x.1 :: names later := rfl
  rw [names_append, hcons, List.nodup_append, List.nodup_cons] at hnames
  rw [names_append, names_lower, List.mem_append]
  rintro (hmem | hmem)
  · exact hnames.2.2 _ hmem _ (List.mem_cons_self ..) rfl
  · exact hnames.2.1.1 hmem

theorem length_remove {p : ℕ} {l l' : List (α × ℕ)} (h : remove p l = some l') :
    l'.length + 1 = l.length := by
  obtain ⟨front, x, later, rfl, -, -, rfl⟩ := remove_eq_some_iff.mp h
  simp
  omega

/-! ### Several removals -/

theorem removeAll_of_some {p : ℕ} {l l' : List (α × ℕ)} (h : remove p l = some l') (ps : List ℕ) :
    removeAll l (p :: ps) = removeAll l' ps := by
  rw [removeAll, h]

theorem allFound_of_some {p : ℕ} {l l' : List (α × ℕ)} (h : remove p l = some l') (ps : List ℕ) :
    AllFound l (p :: ps) ↔ AllFound l' ps := by
  rw [AllFound, h]
  simp

/-- Every removal that finds its number takes one entry. -/
theorem length_removeAll (l : List (α × ℕ)) (ps : List ℕ) :
    l.length ≤ (removeAll l ps).length + ps.length ∧
      (AllFound l ps ↔ (removeAll l ps).length + ps.length = l.length) := by
  induction ps generalizing l with
  | nil => simp [removeAll, AllFound]
  | cons p ps ih =>
    cases hremove : remove p l with
    | none =>
      rw [removeAll, AllFound, hremove]
      simp
    | some l' =>
      have hlen := length_remove hremove
      obtain ⟨hle, hiff⟩ := ih l'
      rw [removeAll_of_some hremove, allFound_of_some hremove, hiff, List.length_cons]
      omega

theorem sublist_names_removeAll (l : List (α × ℕ)) (ps : List ℕ) :
    (names (removeAll l ps)).Sublist (names l) := by
  induction ps generalizing l with
  | nil => exact List.Sublist.refl _
  | cons p ps ih =>
    cases hremove : remove p l with
    | none =>
      rw [removeAll, hremove]
    | some l' =>
      obtain ⟨front, x, later, rfl, -, -, rfl⟩ := remove_eq_some_iff.mp hremove
      rw [removeAll_of_some hremove]
      refine (ih _).trans ?_
      rw [names_append, names_append, names_lower]
      exact (List.sublist_cons_self ..).append_left _

theorem nodup_names_remove {p : ℕ} {l l' : List (α × ℕ)} (hnames : (names l).Nodup)
    (h : remove p l = some l') : (names l').Nodup := by
  have hsub := sublist_names_removeAll l [p]
  rw [removeAll_of_some h] at hsub
  exact hnames.sublist hsub

/-- **From the end to the front.**  Then no entry that is still to be removed has moved. -/
theorem removeAll_of_decreasing {l : List (α × ℕ)} (hord : Ordered l) {ps : List ℕ}
    (honce : ∀ p ∈ ps, Once p l) (hdec : ps.Pairwise (· > ·)) :
    AllFound l ps ∧ names (removeAll l ps) = names (unlisted ps l) := by
  induction ps generalizing l with
  | nil => simp [AllFound, removeAll, unlisted]
  | cons p ps ih =>
    obtain ⟨hfirst, hdec⟩ := List.pairwise_cons.mp hdec
    obtain ⟨front, x, later, hsplit⟩ := (honce p (List.mem_cons_self ..)).splits hord
    rw [removeAll_of_some hsplit.removed, allFound_of_some hsplit.removed]
    have honce' : ∀ q ∈ ps, Once q (front ++ later.map lower) := fun q hq =>
      (hsplit.once_of_lt (hfirst q hq)).mpr (honce q (List.mem_cons_of_mem _ hq))
    obtain ⟨hfound, hnames⟩ := ih (hord.remove hsplit.removed) honce' hdec
    refine ⟨hfound, ?_⟩
    have hfront : unlisted (p :: ps) front = unlisted ps front := by
      refine List.filter_congr fun y hy => ?_
      have := hsplit.below y hy
      have hne : y.2 ≠ p := by omega
      simp [hne]
    have hlater : unlisted (p :: ps) later = later := by
      refine List.filter_eq_self.mpr fun y hy => ?_
      have hne : y.2 ≠ p := Nat.ne_of_gt (hsplit.above y hy)
      have hps : y.2 ∉ ps := fun hmem => Nat.lt_asymm (hsplit.above y hy) (hfirst _ hmem)
      simp [hne, hps]
    have hlowered : unlisted ps (later.map lower) = later.map lower := by
      refine List.filter_eq_self.mpr fun y hy => ?_
      obtain ⟨z, hz, rfl⟩ := List.mem_map.mp hy
      have hps : z.2 - 1 ∉ ps := by
        intro hmem
        have := hsplit.above z hz
        have := hfirst _ hmem
        omega
      simp [hps]
    have hx : unlisted (p :: ps) (x :: later) = unlisted (p :: ps) later :=
      List.filter_cons_of_neg (by simp [hsplit.number])
    rw [hnames, hsplit.list, unlisted_append, unlisted_append, hx, hfront, hlater, hlowered,
      names_append, names_append, names_lower]

/-- **The same number again and again.**  Each time it is the entry that was behind the last one
removed. -/
theorem removeAll_replicate {l : List (α × ℕ)} (hord : Ordered l) {p n : ℕ}
    (honce : ∀ q, p ≤ q → q < p + n → Once q l) :
    AllFound l (List.replicate n p) ∧ names (removeAll l (List.replicate n p)) =
      names (l.filter fun x => ¬(p ≤ x.2 ∧ x.2 < p + n)) := by
  induction n generalizing l with
  | zero =>
    have hall : (l.filter fun x => ¬(p ≤ x.2 ∧ x.2 < p + 0)) = l :=
      List.filter_eq_self.mpr fun x _ => by
        have hno : ¬(p ≤ x.2 ∧ x.2 < p + 0) := by omega
        exact decide_eq_true hno
    rw [hall]
    exact ⟨trivial, rfl⟩
  | succ n ih =>
    obtain ⟨front, x, later, hsplit⟩ := (honce p (by omega) (by omega)).splits hord
    have honce' : ∀ q, p ≤ q → q < p + n → Once q (front ++ later.map lower) := by
      intro q hle hlt
      rw [Once, hsplit.countP_of_le hle]
      exact honce (q + 1) (by omega) (by omega)
    obtain ⟨hfound, hnames⟩ := ih (hord.remove hsplit.removed) honce'
    rw [List.replicate_succ, removeAll_of_some hsplit.removed, allFound_of_some hsplit.removed]
    refine ⟨hfound, ?_⟩
    have hfront : ∀ m, (front.filter fun x => ¬(p ≤ x.2 ∧ x.2 < m)) = front := by
      intro m
      refine List.filter_eq_self.mpr fun y hy => ?_
      have := hsplit.below y hy
      have hno : ¬(p ≤ y.2 ∧ y.2 < m) := by omega
      exact decide_eq_true hno
    have hx : p ≤ x.2 ∧ x.2 < p + (n + 1) := by
      have := hsplit.number
      omega
    have hlater : ((later.map lower).filter fun x => ¬(p ≤ x.2 ∧ x.2 < p + n)) =
        (later.filter fun x => ¬(p ≤ x.2 ∧ x.2 < p + (n + 1))).map lower := by
      rw [List.filter_map]
      refine congrArg (List.map lower) (List.filter_congr fun y hy => ?_)
      have := hsplit.above y hy
      have hiff : ¬(p ≤ y.2 - 1 ∧ y.2 - 1 < p + n) ↔ ¬(p ≤ y.2 ∧ y.2 < p + (n + 1)) := by omega
      exact decide_eq_decide.mpr hiff
    rw [hnames, hsplit.list, List.filter_append, List.filter_append, hfront, hfront, hlater,
      List.filter_cons_of_neg (by simpa using hx), names_append, names_append, names_lower]

theorem once_of_allFound_replicate {l : List (α × ℕ)} (hord : Ordered l) {p n : ℕ}
    (honce : Once p l) (hfound : AllFound l (List.replicate n p)) {q : ℕ} (hle : p ≤ q)
    (hlt : q < p + n) : Once q l := by
  induction n generalizing l q with
  | zero => omega
  | succ n ih =>
    obtain ⟨front, x, later, hsplit⟩ := honce.splits hord
    rw [List.replicate_succ, allFound_of_some hsplit.removed] at hfound
    rcases Nat.eq_or_lt_of_le hle with rfl | hgt
    · exact honce
    · obtain ⟨r, rfl⟩ : ∃ r, q = r + 1 := ⟨q - 1, by omega⟩
      -- the next entry is found at the number of the first
      have hnext : Once p (front ++ later.map lower) := by
        obtain ⟨m, rfl⟩ : ∃ m, n = m + 1 := ⟨n - 1, by omega⟩
        obtain ⟨l', hremove, -⟩ := hfound
        obtain ⟨front', y, later', hl', hy, -⟩ := remove_eq_some_iff.mp hremove
        rw [Once, hsplit.countP_of_le (Nat.le_refl p)]
        refine hord.once_of_pos (Nat.succ_pos p) ?_
        rw [← hsplit.countP_of_le (Nat.le_refl p), List.countP_pos_iff]
        exact ⟨y, by simp [hl'], by simpa using hy⟩
      have hrest := ih (hord.remove hsplit.removed) hnext hfound (by omega : p ≤ r) (by omega)
      rwa [Once, hsplit.countP_of_le (by omega)] at hrest

/-! ### Which removals are right -/

section Names

variable {l : List (α × ℕ)} {ps : List ℕ}

theorem perm_listed (hdistinct : ps.Nodup) (honce : ∀ p ∈ ps, Once p l) :
    ((l.filter fun x => x.2 ∈ ps).map Prod.snd).Perm ps := by
  rw [List.perm_iff_count]
  intro q
  rw [List.count_eq_countP, List.countP_map, List.countP_filter]
  by_cases hq : q ∈ ps
  · rw [List.count_eq_one_of_mem hdistinct hq, ← honce q hq]
    refine List.countP_congr fun x _ => ?_
    simp only [Function.comp_apply, Bool.and_eq_true, beq_iff_eq, decide_eq_true_eq]
    constructor
    · exact fun h => h.1
    · rintro rfl
      exact ⟨rfl, hq⟩
  · rw [List.count_eq_zero_of_not_mem hq, List.countP_eq_zero]
    intro x _
    simp only [Function.comp_apply, Bool.and_eq_true, beq_iff_eq, decide_eq_true_eq]
    rintro ⟨rfl, hmem⟩
    exact hq hmem

/-- Each of the numbers is that of one entry. -/
theorem length_unlisted (hdistinct : ps.Nodup) (honce : ∀ p ∈ ps, Once p l) :
    (unlisted ps l).length + ps.length = l.length := by
  have hperm := (perm_listed hdistinct honce).length_eq
  rw [List.length_map, ← List.countP_eq_length_filter] at hperm
  have hsplit := List.length_eq_countP_add_countP (fun x : α × ℕ => decide (x.2 ∈ ps)) (l := l)
  rw [unlisted, ← List.countP_eq_length_filter]
  simp only [decide_eq_true_eq] at hsplit
  omega

theorem mem_names_unlisted (hnames : (names l).Nodup) {x : α × ℕ} (hx : x ∈ l) :
    x.1 ∈ names (unlisted ps l) ↔ x.2 ∉ ps := by
  rw [names, List.mem_map]
  constructor
  · rintro ⟨y, hy, heq⟩
    obtain ⟨hyl, hy⟩ := List.mem_filter.mp hy
    rw [← List.inj_on_of_nodup_map hnames hyl hx heq]
    simpa using hy
  · intro hnot
    exact ⟨x, List.mem_filter.mpr ⟨hx, by simpa using hnot⟩, rfl⟩

/-- Where the right entries are left, every number was found. -/
theorem allFound_of_names {qs : List ℕ} (hdistinct : ps.Nodup) (honce : ∀ p ∈ ps, Once p l)
    (hlen : qs.length = ps.length) (hexact : names (removeAll l qs) = names (unlisted ps l)) :
    AllFound l qs := by
  have hlength := congrArg List.length hexact
  rw [names, names, List.length_map, List.length_map] at hlength
  have := length_unlisted hdistinct honce
  rw [(length_removeAll l qs).2]
  omega

/-- **One number for all.**  Removed as often as there are numbers, it takes the entries that
had them exactly when they are the next ones from it on. -/
theorem removeAll_replicate_exact_iff (hord : Ordered l) (hnames : (names l).Nodup)
    (hdistinct : ps.Nodup) (honce : ∀ p ∈ ps, Once p l) {p : ℕ} (hp : p ∈ ps) :
    names (removeAll l (List.replicate ps.length p)) = names (unlisted ps l) ↔
      ∀ q ∈ ps, p ≤ q ∧ q < p + ps.length := by
  constructor
  · intro hexact q hq
    have hfound := allFound_of_names hdistinct honce List.length_replicate hexact
    have hall : ∀ r, p ≤ r → r < p + ps.length → Once r l := fun r =>
      once_of_allFound_replicate hord (honce p hp) hfound
    rw [(removeAll_replicate hord hall).2] at hexact
    obtain ⟨x, hx, hxq⟩ : ∃ x ∈ l, x.2 = q := by
      have hpos : 0 < l.countP fun x => x.2 = q := by
        rw [honce q hq]
        exact Nat.one_pos
      simpa using List.countP_pos_iff.mp hpos
    by_contra hout
    have hmem : x.1 ∈ names (l.filter fun x => ¬(p ≤ x.2 ∧ x.2 < p + ps.length)) :=
      List.mem_map.mpr ⟨x, List.mem_filter.mpr ⟨hx, decide_eq_true (by rwa [hxq])⟩, rfl⟩
    rw [hexact, mem_names_unlisted hnames hx, hxq] at hmem
    exact hmem hq
  · intro hnext
    have hperm : ps.Perm (List.range' p ps.length) := by
      refine (hdistinct.subperm ?_).perm_of_length_le (by simp)
      intro q hq
      rw [List.mem_range'_1]
      exact hnext q hq
    have hmem : ∀ q, q ∈ ps ↔ p ≤ q ∧ q < p + ps.length := by
      intro q
      rw [hperm.mem_iff, List.mem_range'_1]
    rw [(removeAll_replicate hord fun q hle hlt => honce q ((hmem q).mpr ⟨hle, hlt⟩)).2, unlisted]
    refine congrArg names (List.filter_congr fun x _ => ?_)
    rw [decide_eq_decide, hmem]

end Names

section Lost

variable [DecidableEq α] {l : List (α × ℕ)} {ps : List ℕ}

/-- The numbers of the entries that are not kept, together. -/
def lost (kept : List α) (l : List (α × ℕ)) : ℕ :=
  ((l.filter fun x => x.1 ∉ kept).map Prod.snd).sum

theorem lost_append (kept : List α) (l m : List (α × ℕ)) :
    lost kept (l ++ m) = lost kept l + lost kept m := by
  rw [lost, lost, lost, List.filter_append, List.map_append, List.sum_append]

theorem lost_cons (kept : List α) (x : α × ℕ) (l : List (α × ℕ)) :
    lost kept (x :: l) = (if x.1 ∈ kept then 0 else x.2) + lost kept l := by
  rw [lost, lost]
  by_cases hx : x.1 ∈ kept
  · simp [hx]
  · simp [hx]

theorem lost_lower_le (kept : List α) (l : List (α × ℕ)) :
    lost kept (l.map lower) ≤ lost kept l := by
  induction l with
  | nil => exact Nat.le_refl _
  | cons x l ih =>
    rw [List.map_cons, lost_cons, lost_cons, lower_fst, lower_snd]
    split <;> omega

theorem lost_lower_lt {kept : List α} {z : α × ℕ} (hz : z ∈ l) (hkept : z.1 ∉ kept)
    (hpos : 0 < z.2) : lost kept (l.map lower) < lost kept l := by
  induction l with
  | nil => cases hz
  | cons x l ih =>
    have hle := lost_lower_le kept l
    rw [List.map_cons, lost_cons, lost_cons, lower_fst, lower_snd]
    rcases List.mem_cons.mp hz with rfl | hz
    · rw [if_neg hkept, if_neg hkept]
      omega
    · have := ih hz
      split <;> omega

/-- The entry removed is lost with at least its number. -/
theorem lost_removed {p : ℕ} {front later : List (α × ℕ)} {x : α × ℕ} {kept : List α}
    (hnames : (names (front ++ x :: later)).Nodup) (hx : x.2 = p)
    (hkept : kept.Sublist (names (front ++ later.map lower))) :
    lost kept (front ++ x :: later) = p + (lost kept front + lost kept later) := by
  have hnot : x.1 ∉ kept := fun hmem => not_mem_names_removed hnames (hkept.subset hmem)
  rw [lost_append, lost_cons, if_neg hnot, hx]
  omega

/-- An entry is never removed by a number above its own. -/
theorem sum_le_lost (hnames : (names l).Nodup) (hfound : AllFound l ps) :
    ps.sum ≤ lost (names (removeAll l ps)) l := by
  induction ps generalizing l with
  | nil => exact Nat.zero_le _
  | cons p ps ih =>
    obtain ⟨l', hremove, hrest⟩ := hfound
    have hih := ih (nodup_names_remove hnames hremove) hrest
    obtain ⟨front, x, later, rfl, hx, -, rfl⟩ := remove_eq_some_iff.mp hremove
    rw [removeAll_of_some hremove, lost_removed hnames hx (sublist_names_removeAll _ _),
      List.sum_cons]
    have hlower := lost_lower_le (names (removeAll (front ++ later.map lower) ps)) later
    rw [lost_append] at hih
    omega

/-- **Upwards.**  Where the numbers rise, the second removal takes an entry of a higher number
than it is asked for. -/
theorem sum_lt_lost (hord : Ordered l) (hnames : (names l).Nodup) (hdistinct : ps.Nodup)
    (hfound : AllFound l ps) (hrises : ¬ps.Pairwise (· > ·)) :
    ps.sum < lost (names (removeAll l ps)) l := by
  induction ps generalizing l with
  | nil => exact absurd List.Pairwise.nil hrises
  | cons p ps ih =>
    obtain ⟨l', hremove, hrest⟩ := hfound
    have hnames' := nodup_names_remove hnames hremove
    have hord' := hord.remove hremove
    have hsum := sum_le_lost hnames' hrest
    have hih := ih hord' hnames' (List.nodup_cons.mp hdistinct).2 hrest
    obtain ⟨front, x, later, rfl, hx, hfront, rfl⟩ := remove_eq_some_iff.mp hremove
    rw [removeAll_of_some hremove, lost_removed hnames hx (sublist_names_removeAll _ _),
      List.sum_cons]
    have hlower := lost_lower_le (names (removeAll (front ++ later.map lower) ps)) later
    rw [lost_append] at hsum hih
    cases ps with
    | nil => exact absurd (List.pairwise_singleton _ _) hrises
    | cons q ps =>
      rw [← List.isChain_iff_pairwise, List.isChain_cons_cons, List.isChain_iff_pairwise] at hrises
      by_cases hdec : p > q
      · have := hih fun hpair => hrises ⟨hdec, hpair⟩
        omega
      · have hne : p ≠ q := fun heq => (List.nodup_cons.mp hdistinct).1 (by simp [heq])
        have hlt := hord.front_lt hx hfront
        -- the entry found at `q` was behind the first one
        obtain ⟨l'', hremove', -⟩ := hrest
        obtain ⟨front', y, later', hl', hy, -, rfl⟩ := remove_eq_some_iff.mp hremove'
        have hmem : y ∈ front ++ later.map lower := by simp [hl']
        obtain ⟨z, hz, rfl⟩ : ∃ z ∈ later, lower z = y := by
          rcases List.mem_append.mp hmem with hy' | hy'
          · have := hlt y hy'
            omega
          · exact List.mem_map.mp hy'
        have hgone : z.1 ∉ names (removeAll (front ++ later.map lower) (q :: ps)) := by
          rw [removeAll_of_some hremove']
          rw [hl'] at hnames'
          exact fun hkept => not_mem_names_removed hnames'
            ((sublist_names_removeAll _ _).subset hkept)
        have hstrict := lost_lower_lt hz hgone (by rw [lower_snd] at hy; omega)
        omega

/-- **Distinct numbers.**  Removed one after the other, they take the entries that had them
exactly when they fall. -/
theorem removeAll_exact_iff (hord : Ordered l) (hnames : (names l).Nodup) (hdistinct : ps.Nodup)
    (honce : ∀ p ∈ ps, Once p l) :
    names (removeAll l ps) = names (unlisted ps l) ↔ ps.Pairwise (· > ·) := by
  constructor
  · intro hexact
    by_contra hrises
    have hfound := allFound_of_names hdistinct honce rfl hexact
    have hlt := sum_lt_lost hord hnames hdistinct hfound hrises
    have hlisted : (l.filter fun x => x.1 ∉ names (unlisted ps l)) =
        l.filter fun x => x.2 ∈ ps := by
      refine List.filter_congr fun x hx => ?_
      simp [mem_names_unlisted hnames hx]
    rw [hexact, lost, hlisted, (perm_listed hdistinct honce).sum_eq] at hlt
    exact Nat.lt_irrefl _ hlt
  · exact fun hdec => (removeAll_of_decreasing hord honce hdec).2

end Lost

end NumberedList
