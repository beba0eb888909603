import Mathlib.Data.List.Nodup
import Mathlib.Logic.Function.Basic

/-!
# Intrusive doubly linked lists

Nodes are names of an arbitrary type, and a memory gives each node a `next` and a
`prev` pointer.  A list is named by its head pointer.  `Chain` says which nodes a
head pointer leads to, with every back pointer in place; the rules below say what
inserting at the front and unlinking do to the list they work on and that they
leave every list with other nodes alone.
-/

namespace DList

variable {ι : Type*}

/-- The two pointers of every node. -/
structure Links (ι : Type*) where
  next : ι → Option ι
  prev : ι → Option ι

/-- Following `next` from `h` visits exactly `xs`; the first node points back to `p`. -/
def Chain (L : Links ι) : Option ι → Option ι → List ι → Prop
  | _, h, [] => h = none
  | p, h, x :: xs => h = some x ∧ L.prev x = p ∧ Chain L (some x) (L.next x) xs

theorem Chain.head_eq {L : Links ι} {p h : Option ι} {xs : List ι} (hc : Chain L p h xs) :
    h = xs.head? := by
  cases xs with
  | nil => exact hc
  | cons x xs => exact hc.1

/-- A chain reads the pointers of its own nodes only. -/
theorem Chain.congr {L L' : Links ι} {p h : Option ι} {xs : List ι} (hc : Chain L p h xs)
    (hnext : ∀ x ∈ xs, L'.next x = L.next x) (hprev : ∀ x ∈ xs, L'.prev x = L.prev x) :
    Chain L' p h xs := by
  induction xs generalizing p h with
  | nil => exact hc
  | cons x xs ih =>
    obtain ⟨hhead, hback, htail⟩ := hc
    refine ⟨hhead, ?_, ?_⟩
    · rw [hprev x (List.mem_cons_self ..)]
      exact hback
    · rw [hnext x (List.mem_cons_self ..)]
      apply ih htail
      · intro y hy
        exact hnext y (List.mem_cons_of_mem _ hy)
      · intro y hy
        exact hprev y (List.mem_cons_of_mem _ hy)

/-- The rest of a chain is a chain: what the `next` pointer of a node leads to. -/
theorem Chain.suffix {L : Links ι} {p h : Option ι} {ys : List ι} {x : ι} {zs : List ι}
    (hc : Chain L p h (ys ++ x :: zs)) : Chain L (some x) (L.next x) zs := by
  induction ys generalizing p h with
  | nil => exact hc.2.2
  | cons y ys ih => exact ih hc.2.2

theorem Chain.next_mem {L : Links ι} {p h : Option ι} {xs : List ι} (hc : Chain L p h xs)
    {x n : ι} (hx : x ∈ xs) (hn : L.next x = some n) : n ∈ xs.tail := by
  induction xs generalizing p h with
  | nil => cases hx
  | cons y ys ih =>
    rcases List.mem_cons.mp hx with rfl | hx
    · have hhead := hc.2.2.head_eq
      rw [hn] at hhead
      exact List.mem_of_mem_head? hhead.symm
    · exact List.mem_of_mem_tail (ih hc.2.2 hx)

theorem Chain.prev_mem {L : Links ι} {p h : Option ι} {y : ι} {ys : List ι}
    (hc : Chain L p h (y :: ys)) {x : ι} (hx : x ∈ ys) : ∃ q ∈ y :: ys, L.prev x = some q := by
  induction ys generalizing p h y with
  | nil => cases hx
  | cons z zs ih =>
    rcases List.mem_cons.mp hx with rfl | hx
    · exact ⟨y, List.mem_cons_self .., hc.2.2.2.1⟩
    · obtain ⟨q, hq, hprev⟩ := ih hc.2.2 hx
      exact ⟨q, List.mem_cons_of_mem _ hq, hprev⟩

theorem Chain.prev_eq {L : Links ι} {p h : Option ι} {ys : List ι} {x : ι} {zs : List ι}
    (hc : Chain L p h (ys ++ x :: zs)) : L.prev x = ys.getLast?.or p := by
  induction ys generalizing p h with
  | nil => exact hc.2.1
  | cons y ys ih =>
    rw [ih hc.2.2, List.getLast?_cons]
    cases ys.getLast? with
    | none => rfl
    | some z => rfl

/-- No node of a list without repetitions is its own neighbour. -/
theorem Chain.not_self {L : Links ι} {h : Option ι} {xs : List ι} (hc : Chain L none h xs)
    (hnodup : xs.Nodup) {x : ι} (hx : x ∈ xs) : L.prev x ≠ some x ∧ L.next x ≠ some x := by
  obtain ⟨ys, zs, rfl⟩ := List.append_of_mem hx
  have hparts := List.nodup_append.mp hnodup
  constructor
  · rw [hc.prev_eq]
    intro hself
    have hlast : x ∈ ys := by
      rw [Option.or_none] at hself
      exact List.mem_of_getLast? hself
    exact hparts.2.2 x hlast x (List.mem_cons_self ..) rfl
  · rw [hc.suffix.head_eq]
    intro hself
    exact (List.nodup_cons.mp hparts.2.1).1 (List.mem_of_mem_head? hself)

/-- The first node is the one without a node before it. -/
theorem Chain.prev_eq_none_iff {L : Links ι} {h : Option ι} {xs : List ι} (hc : Chain L none h xs)
    (hnodup : xs.Nodup) {x : ι} (hx : x ∈ xs) : L.prev x = none ↔ h = some x := by
  obtain ⟨ys, zs, rfl⟩ := List.append_of_mem hx
  rw [hc.prev_eq, hc.head_eq, Option.or_none, List.getLast?_eq_none_iff]
  cases ys with
  | nil => exact iff_of_true rfl rfl
  | cons y ys =>
    refine iff_of_false (List.cons_ne_nil y ys) ?_
    intro hhead
    obtain rfl : y = x := Option.some.inj hhead
    exact (List.nodup_cons.mp hnodup).1 (List.mem_append_right ys (List.mem_cons_self ..))

/-- Memories that differ at `x` only lead from the same head to `x` both or neither. -/
theorem Chain.mem_of_agree {L L' : Links ι} {p p' h : Option ι} {xs ys : List ι} {x : ι}
    (hc : Chain L p h xs) (hc' : Chain L' p' h ys) (hnext : ∀ y, y ≠ x → L'.next y = L.next y)
    (hx : x ∈ xs) : x ∈ ys := by
  induction xs generalizing p p' h ys with
  | nil => cases hx
  | cons z zs ih =>
    obtain ⟨rfl, -, htail⟩ := hc
    cases ys with
    | nil => cases hc'
    | cons y ys =>
      obtain ⟨hhead, -, htail'⟩ := hc'
      cases hhead
      rcases List.mem_cons.mp hx with rfl | hx
      · exact List.mem_cons_self ..
      · by_cases hzx : z = x
        · rw [hzx]
          exact List.mem_cons_self ..
        · rw [hnext z hzx] at htail'
          exact List.mem_cons_of_mem _ (ih htail htail' hx)

/-! ### Backwards

A list read from its last node is a list of the same memory with the pointers exchanged. -/

def Links.flip (L : Links ι) : Links ι := ⟨L.prev, L.next⟩

/-- What is already turned round, `acc`, begins at the node before `h`. -/
theorem Chain.flip_aux {L : Links ι} {p h : Option ι} {xs : List ι} (hc : Chain L p h xs)
    {acc : List ι} (hacc : Chain L.flip h p acc) :
    Chain L.flip none (xs.getLast?.or p) (xs.reverse ++ acc) := by
  induction xs generalizing p h acc with
  | nil =>
    cases hc
    exact hacc
  | cons x xs ih =>
    obtain ⟨rfl, hback, htail⟩ := hc
    have hx : Chain L.flip (L.next x) (some x) (x :: acc) := by
      refine ⟨rfl, rfl, ?_⟩
      show Chain L.flip (some x) (L.prev x) acc
      rw [hback]
      exact hacc
    have hlast : (x :: xs).getLast?.or p = xs.getLast?.or (some x) := by
      rw [List.getLast?_cons]
      cases xs.getLast? with
      | none => rfl
      | some y => rfl
    rw [hlast, List.reverse_cons, List.append_assoc]
    exact ih htail hx

theorem Chain.flip {L : Links ι} {h : Option ι} {xs : List ι} (hc : Chain L none h xs) :
    Chain L.flip none xs.getLast? xs.reverse := by
  have hnil : Chain L.flip h none [] := rfl
  have hflip := hc.flip_aux hnil
  rwa [Option.or_none, List.append_nil] at hflip

variable [DecidableEq ι]

/-! ### Inserting at the front -/

def pushFront (L : Links ι) (h : Option ι) (x : ι) : Links ι where
  next := Function.update L.next x h
  prev :=
    let prev := Function.update L.prev x none
    match h with
    | some n => Function.update prev n (some x)
    | none => prev

theorem pushFront_frame (L : Links ι) {h : Option ι} {x y : ι} (hx : y ≠ x) (hh : h ≠ some y) :
    (pushFront L h x).next y = L.next y ∧ (pushFront L h x).prev y = L.prev y := by
  refine ⟨by simp [pushFront, hx], ?_⟩
  cases h with
  | none => simp [pushFront, hx]
  | some n =>
    have hn : y ≠ n := by
      rintro rfl
      exact hh rfl
    simp [pushFront, hx, hn]

theorem Chain.pushFront {L : Links ι} {h : Option ι} {xs : List ι} (hc : Chain L none h xs)
    (hnodup : xs.Nodup) {x : ι} (hx : x ∉ xs) :
    Chain (DList.pushFront L h x) none (some x) (x :: xs) := by
  refine ⟨rfl, ?_, ?_⟩
  · cases xs with
    | nil =>
      cases hc
      simp [DList.pushFront]
    | cons n zs =>
      have hne : x ≠ n := fun heq => hx (heq ▸ List.mem_cons_self ..)
      rw [hc.1]
      simp [DList.pushFront, hne]
  · have hnext : (DList.pushFront L h x).next x = h := by simp [DList.pushFront]
    rw [hnext]
    cases xs with
    | nil => exact hc
    | cons n zs =>
      obtain ⟨rfl, hback, htail⟩ := hc
      have hne : n ≠ x := fun heq => hx (heq ▸ List.mem_cons_self ..)
      refine ⟨rfl, by simp [DList.pushFront], ?_⟩
      have hn : (DList.pushFront L (some n) x).next n = L.next n := by
        simp [DList.pushFront, hne]
      rw [hn]
      have hframe : ∀ y ∈ zs, (DList.pushFront L (some n) x).next y = L.next y ∧
          (DList.pushFront L (some n) x).prev y = L.prev y := by
        intro y hy
        apply pushFront_frame
        · rintro rfl
          exact hx (List.mem_cons_of_mem _ hy)
        · rintro heq
          cases heq
          exact (List.nodup_cons.mp hnodup).1 hy
      exact htail.congr (fun y hy => (hframe y hy).1) (fun y hy => (hframe y hy).2)

/-- Appending behind the last node `l` is inserting at the front, backwards. -/
def pushBack (L : Links ι) (l : Option ι) (x : ι) : Links ι := (pushFront L.flip l x).flip

/-! ### Unlinking -/

/-- The neighbours of `x` are joined; its own pointers are left. -/
def unlink (L : Links ι) (x : ι) : Links ι where
  next :=
    match L.prev x with
    | some p => Function.update L.next p (L.next x)
    | none => L.next
  prev :=
    match L.next x with
    | some n => Function.update L.prev n (L.prev x)
    | none => L.prev

/-- The head pointer after unlinking `x` from a list headed by `h`. -/
def unlinkHead (L : Links ι) (h : Option ι) (x : ι) : Option ι :=
  if L.prev x = none then L.next x else h

theorem unlink_next (L : Links ι) (x y : ι) :
    (unlink L x).next y = if L.prev x = some y then L.next x else L.next y := by
  unfold unlink
  cases hprev : L.prev x with
  | none => simp
  | some p =>
    by_cases hy : y = p
    · subst hy
      simp
    · have hne : p ≠ y := fun heq => hy heq.symm
      simp [hy, hne]

theorem unlink_prev (L : Links ι) (x y : ι) :
    (unlink L x).prev y = if L.next x = some y then L.prev x else L.prev y := by
  unfold unlink
  cases hnext : L.next x with
  | none => simp
  | some n =>
    by_cases hy : y = n
    · subst hy
      simp
    · have hne : n ≠ y := fun heq => hy heq.symm
      simp [hy, hne]

/-- The induction is on the nodes in front of `x`; `p` is what the first node
points back to, so that the head pointer moves exactly when `x` comes first. -/
theorem Chain.unlink_aux {L : Links ι} {p h : Option ι} {xs : List ι} (hc : Chain L p h xs)
    (hnodup : xs.Nodup) (hp : ∀ q ∈ xs, p ≠ some q) {x : ι} (hx : x ∈ xs) :
    Chain (DList.unlink L x) p (if L.prev x = p then L.next x else h)
      (xs.filter (· ≠ x)) := by
  induction xs generalizing p h with
  | nil => cases hx
  | cons y ys ih =>
    have hy : y ∉ ys := (List.nodup_cons.mp hnodup).1
    have htailNodup : ys.Nodup := (List.nodup_cons.mp hnodup).2
    obtain ⟨hhead, hback, htail⟩ := hc
    rcases List.mem_cons.mp hx with rfl | hx
    · rw [if_pos hback]
      have hkeep : (x :: ys).filter (· ≠ x) = ys := by
        rw [List.filter_cons_of_neg (by simp)]
        apply List.filter_eq_self.mpr
        intro z hz
        have hne : z ≠ x := fun heq => hy (heq ▸ hz)
        simp [hne]
      rw [hkeep]
      cases ys with
      | nil => exact htail
      | cons n zs =>
        obtain ⟨hn, hnback, hrest⟩ := htail
        refine ⟨hn, ?_, ?_⟩
        · rw [unlink_prev, if_pos hn]
          exact hback
        · have hnext : ∀ z ∈ n :: zs, (DList.unlink L x).next z = L.next z := by
            intro z hz
            rw [unlink_next, if_neg]
            rw [hback]
            exact hp z (List.mem_cons_of_mem _ hz)
          rw [hnext n (List.mem_cons_self ..)]
          apply hrest.congr
          · intro z hz
            exact hnext z (List.mem_cons_of_mem _ hz)
          · intro z hz
            rw [unlink_prev, if_neg]
            rw [hn]
            intro heq
            cases heq
            exact (List.nodup_cons.mp htailNodup).1 hz
    · obtain ⟨q, hq, hprev⟩ := Chain.prev_mem ⟨hhead, hback, htail⟩ hx
      have hstay : ¬L.prev x = p := by
        rw [hprev]
        exact fun heq => hp q hq heq.symm
      have hyx : y ≠ x := fun heq => hy (heq ▸ hx)
      rw [if_neg hstay, List.filter_cons_of_pos (by simp [hyx])]
      refine ⟨hhead, ?_, ?_⟩
      · rw [unlink_prev, if_neg]
        · exact hback
        · intro hnext
          exact hy (List.mem_of_mem_tail (htail.next_mem hx hnext))
      · rw [unlink_next]
        apply ih htail htailNodup _ hx
        intro z hz heq
        cases heq
        exact hy hz

theorem Chain.unlink {L : Links ι} {h : Option ι} {xs : List ι} (hc : Chain L none h xs)
    (hnodup : xs.Nodup) {x : ι} (hx : x ∈ xs) :
    Chain (DList.unlink L x) none (unlinkHead L h x) (xs.filter (· ≠ x)) :=
  hc.unlink_aux hnodup (fun _ _ => by simp) hx

/-- Unlinking a node touches only nodes of its own list. -/
theorem Chain.unlink_frame {L : Links ι} {h : Option ι} {xs : List ι} (hc : Chain L none h xs)
    {x y : ι} (hx : x ∈ xs) (hy : y ∉ xs) :
    (DList.unlink L x).next y = L.next y ∧ (DList.unlink L x).prev y = L.prev y := by
  constructor
  · rw [unlink_next, if_neg]
    intro hprev
    cases xs with
    | nil => cases hx
    | cons z zs =>
      rcases List.mem_cons.mp hx with rfl | hx
      · rw [hc.2.1] at hprev
        cases hprev
      · obtain ⟨q, hq, hback⟩ := hc.prev_mem hx
        rw [hprev] at hback
        cases hback
        exact hy hq
  · rw [unlink_prev, if_neg]
    intro hnext
    exact hy (List.mem_of_mem_tail (hc.next_mem hx hnext))

/-! ### Families of lists

One memory usually holds several lists, named by keys; no node is on two of them. -/

structure Chains {κ : Type*} (L : Links ι) (heads : κ → Option ι) (lists : κ → List ι) : Prop where
  chain : ∀ k, Chain L none (heads k) (lists k)
  nodup : ∀ k, (lists k).Nodup
  disjoint : ∀ x k k', x ∈ lists k → x ∈ lists k' → k = k'

section Families

variable {κ : Type*} {L : Links ι} {heads : κ → Option ι} {lists : κ → List ι}

omit [DecidableEq ι] in
theorem Chains.congr (h : Chains L heads lists) {L' : Links ι}
    (hsame : ∀ x k, x ∈ lists k → L'.next x = L.next x ∧ L'.prev x = L.prev x) :
    Chains L' heads lists where
  chain := by
    intro k
    apply (h.chain k).congr
    · intro x hx
      exact (hsame x k hx).1
    · intro x hx
      exact (hsame x k hx).2
  nodup := h.nodup
  disjoint := h.disjoint

variable [DecidableEq κ]

theorem Chains.pushFront (h : Chains L heads lists) (k : κ) {x : ι} (hx : ∀ k', x ∉ lists k') :
    Chains (DList.pushFront L (heads k) x) (Function.update heads k (some x))
      (Function.update lists k (x :: lists k)) where
  chain := by
    intro k'
    by_cases hk : k' = k
    · subst hk
      simpa using (h.chain k').pushFront (h.nodup k') (hx k')
    · have hframe : ∀ y ∈ lists k', (DList.pushFront L (heads k) x).next y = L.next y ∧
          (DList.pushFront L (heads k) x).prev y = L.prev y := by
        intro y hy
        apply pushFront_frame
        · rintro rfl
          exact hx k' hy
        · intro hhead
          have hfirst := (h.chain k).head_eq
          rw [hhead] at hfirst
          exact hk (h.disjoint y k' k hy (List.mem_of_mem_head? hfirst.symm))
      simp only [Function.update_of_ne hk]
      exact (h.chain k').congr (fun y hy => (hframe y hy).1) (fun y hy => (hframe y hy).2)
  nodup := by
    intro k'
    by_cases hk : k' = k
    · subst hk
      simpa using ⟨hx k', h.nodup k'⟩
    · simpa [Function.update_of_ne hk] using h.nodup k'
  disjoint := by
    have hback : ∀ {y k'}, y ∈ Function.update lists k (x :: lists k) k' →
        (y = x ∧ k' = k) ∨ (y ≠ x ∧ y ∈ lists k') := by
      intro y k' hy
      by_cases hk : k' = k
      · subst hk
        simp only [Function.update_self, List.mem_cons] at hy
        rcases hy with rfl | hy
        · exact Or.inl ⟨rfl, rfl⟩
        · refine Or.inr ⟨?_, hy⟩
          rintro rfl
          exact hx k' hy
      · rw [Function.update_of_ne hk] at hy
        refine Or.inr ⟨?_, hy⟩
        rintro rfl
        exact hx k' hy
    intro y k₁ k₂ h₁ h₂
    rcases hback h₁ with ⟨rfl, rfl⟩ | ⟨hne, h₁⟩
    · rcases hback h₂ with ⟨-, rfl⟩ | ⟨hne, -⟩
      · rfl
      · exact absurd rfl hne
    · rcases hback h₂ with ⟨heq, -⟩ | ⟨-, h₂⟩
      · exact absurd heq hne
      · exact h.disjoint y k₁ k₂ h₁ h₂

omit [DecidableEq ι] [DecidableEq κ] in
theorem Chains.flip (h : Chains L heads lists) :
    Chains L.flip (fun k => (lists k).getLast?) (fun k => (lists k).reverse) where
  chain := by
    intro k
    exact (h.chain k).flip
  nodup := by
    intro k
    exact List.nodup_reverse.mpr (h.nodup k)
  disjoint := by
    intro x k k' hx hx'
    exact h.disjoint x k k' (List.mem_reverse.mp hx) (List.mem_reverse.mp hx')

theorem Chains.pushBack (h : Chains L heads lists) (k : κ) {x : ι} (hx : ∀ k', x ∉ lists k') :
    Chains (DList.pushBack L (lists k).getLast? x)
      (Function.update heads k ((heads k).or (some x)))
      (Function.update lists k (lists k ++ [x])) := by
  have hback := (h.flip.pushFront k (x := x) fun k' hmem => hx k' (List.mem_reverse.mp hmem)).flip
  have hheads : (fun k' => (Function.update (fun k => (lists k).reverse) k
      (x :: (lists k).reverse) k').getLast?) =
      Function.update heads k ((heads k).or (some x)) := by
    funext k'
    by_cases hk : k' = k
    · subst hk
      rw [Function.update_self, Function.update_self, (h.chain k').head_eq, List.getLast?_cons,
        List.getLast?_reverse]
      cases lists k' with
      | nil => rfl
      | cons y ys => rfl
    · rw [Function.update_of_ne hk, Function.update_of_ne hk, List.getLast?_reverse,
        (h.chain k').head_eq]
  have hlists : (fun k' => (Function.update (fun k => (lists k).reverse) k
      (x :: (lists k).reverse) k').reverse) = Function.update lists k (lists k ++ [x]) := by
    funext k'
    by_cases hk : k' = k
    · subst hk
      rw [Function.update_self, Function.update_self, List.reverse_cons, List.reverse_reverse]
    · rw [Function.update_of_ne hk, Function.update_of_ne hk, List.reverse_reverse]
  rwa [hheads, hlists] at hback

theorem Chains.unlink (h : Chains L heads lists) {k : κ} {x : ι} (hx : x ∈ lists k) :
    Chains (DList.unlink L x) (Function.update heads k (unlinkHead L (heads k) x))
      (Function.update lists k ((lists k).filter (· ≠ x))) where
  chain := by
    intro k'
    by_cases hk : k' = k
    · subst hk
      simpa using (h.chain k').unlink (h.nodup k') hx
    · have hframe : ∀ y ∈ lists k', (DList.unlink L x).next y = L.next y ∧
          (DList.unlink L x).prev y = L.prev y := by
        intro y hy
        apply (h.chain k).unlink_frame hx
        intro hy'
        exact hk (h.disjoint y k' k hy hy')
      simp only [Function.update_of_ne hk]
      exact (h.chain k').congr (fun y hy => (hframe y hy).1) (fun y hy => (hframe y hy).2)
  nodup := by
    intro k'
    by_cases hk : k' = k
    · subst hk
      rw [Function.update_self]
      exact List.Nodup.filter _ (h.nodup k')
    · simpa [Function.update_of_ne hk] using h.nodup k'
  disjoint := by
    have hback : ∀ {y k'}, y ∈ Function.update lists k ((lists k).filter (· ≠ x)) k' →
        y ∈ lists k' := by
      intro y k' hy
      by_cases hk : k' = k
      · subst hk
        rw [Function.update_self] at hy
        exact List.mem_of_mem_filter hy
      · rw [Function.update_of_ne hk] at hy
        exact hy
    intro y k₁ k₂ h₁ h₂
    exact h.disjoint y k₁ k₂ (hback h₁) (hback h₂)

end Families

end DList
