import Mathlib.Data.List.Nodup
import Mathlib.Logic.Function.Basic

/-!
# Singly linked lists in a heap

A cell holds a value and the address of the next cell; the heap says which
addresses are live.  `Linked` reads the cells off from a head pointer.  The rules
below cover what a queue does: appending a fresh cell behind the last one, dropping
the head, and freeing the whole list while walking it.
-/

namespace SList

variable {ι α : Type*}

structure Cell (ι α : Type*) where
  value : α
  next : Option ι
deriving DecidableEq, Repr

/-- The live cells; a freed address holds none. -/
abbrev Heap (ι α : Type*) := ι → Option (Cell ι α)

/-- The cells met from `head` up to the null pointer, with their addresses. -/
def Linked (heap : Heap ι α) : Option ι → List (ι × α) → Prop
  | head, [] => head = none
  | head, (a, v) :: cells =>
    head = some a ∧ ∃ n, heap a = some ⟨v, n⟩ ∧ Linked heap n cells

theorem Linked.congr {heap heap' : Heap ι α} {head : Option ι} {cells : List (ι × α)}
    (h : Linked heap head cells) (heq : ∀ c ∈ cells, heap' c.1 = heap c.1) :
    Linked heap' head cells := by
  induction cells generalizing head with
  | nil => exact h
  | cons c cells ih =>
    obtain ⟨hhead, n, hcell, hrest⟩ := h
    refine ⟨hhead, n, ?_, ?_⟩
    · rw [heq c (List.mem_cons_self ..)]
      exact hcell
    · apply ih hrest
      intro d hd
      exact heq d (List.mem_cons_of_mem _ hd)

section Append

variable [DecidableEq ι]

/-- `p->next = n`; a null or freed `p` changes nothing. -/
def setNext (heap : Heap ι α) (p n : Option ι) : Heap ι α := fun a =>
  if p = some a then (heap a).map fun c => { c with next := n } else heap a

theorem setNext_ne {heap : Heap ι α} {p n : Option ι} {a : ι} (h : p ≠ some a) :
    setNext heap p n a = heap a := if_neg h

theorem setNext_self {heap : Heap ι α} {a : ι} {v : α} {m n : Option ι}
    (h : heap a = some ⟨v, m⟩) : setNext heap (some a) n a = some ⟨v, n⟩ := by
  simp [setNext, h]

/-- **Appending.**  When the last cell is made to point at a fresh one, the list is the
old one and the fresh cell. -/
theorem Linked.append {heap : Heap ι α} {head : Option ι} {front : List (ι × α)} {last : ι}
    {v : α} (h : Linked heap head (front ++ [(last, v)]))
    (hnodup : ((front ++ [(last, v)]).map Prod.fst).Nodup) {a : ι} {w : α}
    (hnew : heap a = some ⟨w, none⟩) (hfresh : a ∉ (front ++ [(last, v)]).map Prod.fst) :
    Linked (setNext heap (some last) (some a)) head (front ++ [(last, v)] ++ [(a, w)]) := by
  have hlast : last ≠ a := by
    rintro rfl
    exact hfresh (by simp)
  have hnew' : setNext heap (some last) (some a) a = some ⟨w, none⟩ := by
    rw [setNext_ne (by simpa using hlast)]
    exact hnew
  induction front generalizing head with
  | nil =>
    obtain ⟨hhead, n, hcell, -⟩ := h
    exact ⟨hhead, some a, setNext_self hcell, rfl, none, hnew', rfl⟩
  | cons c front ih =>
    obtain ⟨hhead, n, hcell, hrest⟩ := h
    have hne : last ≠ c.1 := by
      rintro rfl
      simp at hnodup
    refine ⟨hhead, n, ?_, ?_⟩
    · rw [setNext_ne (by simpa using hne)]
      exact hcell
    · apply ih hrest
      · simp only [List.cons_append, List.map_cons, List.nodup_cons] at hnodup
        exact hnodup.2
      · simp only [List.cons_append, List.map_cons, List.mem_cons, not_or] at hfresh
        exact hfresh.2

end Append

section Free

variable [DecidableEq ι]

/-- Walks the list and frees each cell after its `next` is read, for `fuel` rounds; a walk
that meets a freed cell stops there. -/
def freeFrom : Nat → Heap ι α → Option ι → Heap ι α
  | 0, heap, _ => heap
  | _ + 1, heap, none => heap
  | fuel + 1, heap, some a =>
    match heap a with
    | none => heap
    | some c => freeFrom fuel (Function.update heap a none) c.next

/-- **Freeing.**  A list whose addresses differ loses all its cells, and nothing else is
freed. -/
theorem freeFrom_linked {heap : Heap ι α} {head : Option ι} {cells : List (ι × α)}
    (h : Linked heap head cells) (hnodup : (cells.map Prod.fst).Nodup) {fuel : Nat}
    (hfuel : cells.length ≤ fuel) (a : ι) :
    freeFrom fuel heap head a = if a ∈ cells.map Prod.fst then none else heap a := by
  induction cells generalizing heap head fuel with
  | nil =>
    have hhead : head = none := h
    subst hhead
    cases fuel <;> simp [freeFrom]
  | cons c cells ih =>
    obtain ⟨rfl, n, hcell, hrest⟩ := h
    obtain ⟨fuel, rfl⟩ : ∃ k, fuel = k + 1 := Nat.exists_eq_succ_of_ne_zero (by
      simp only [List.length_cons] at hfuel
      omega)
    simp only [List.map_cons, List.nodup_cons] at hnodup
    have hrest' : Linked (Function.update heap c.1 none) n cells := by
      apply hrest.congr
      intro d hd
      rw [Function.update_of_ne]
      rintro heq
      exact hnodup.1 (heq ▸ List.mem_map_of_mem hd)
    simp only [freeFrom, hcell]
    rw [ih hrest' hnodup.2 (by simpa using hfuel)]
    by_cases ha : a = c.1
    · simp [ha]
    · rw [Function.update_of_ne ha, List.map_cons]
      simp only [List.mem_cons, ha, false_or]

end Free

end SList
