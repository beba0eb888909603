import Mathlib.Data.List.ReduceOption
import Mathlib.Data.List.Perm.Basic

/-!
# Tables of slots

A table of a fixed number of slots, each of them blank or holding one record.  A record
goes into the first blank slot and a slot is blanked where its record is found.  What
such a table holds is the list of its records; the rules say what each change does to
that list.
-/

namespace Slots

variable {α : Type*}

/-- The records of the table, in the order of the slots. -/
def contents (slots : List (Option α)) : List α := slots.reduceOption

/-- The table with `a` in its first blank slot. -/
def put (a : α) : List (Option α) → List (Option α)
  | [] => []
  | none :: slots => some a :: slots
  | some b :: slots => some b :: put a slots

/-- The table with the first slot that holds `a` blanked. -/
def blank [DecidableEq α] (a : α) : List (Option α) → List (Option α)
  | [] => []
  | none :: slots => none :: blank a slots
  | some b :: slots => if b = a then none :: slots else some b :: blank a slots

/-- The table with every slot blanked whose record meets `p`. -/
def blankAll (p : α → Bool) (slots : List (Option α)) : List (Option α) :=
  slots.map (Option.filter fun a => !p a)

theorem mem_contents {slots : List (Option α)} {a : α} : a ∈ contents slots ↔ some a ∈ slots :=
  List.reduceOption_mem_iff

@[simp] theorem contents_none_cons (slots : List (Option α)) :
    contents (none :: slots) = contents slots :=
  List.reduceOption_cons_of_none slots

@[simp] theorem contents_some_cons (a : α) (slots : List (Option α)) :
    contents (some a :: slots) = a :: contents slots :=
  List.reduceOption_cons_of_some a slots

theorem contents_put {slots : List (Option α)} (h : none ∈ slots) (a : α) :
    (contents (put a slots)).Perm (a :: contents slots) := by
  induction slots with
  | nil => cases h
  | cons slot slots ih =>
    rcases slot with _ | b
    · simp only [put, contents_some_cons, contents_none_cons]
      exact List.Perm.refl _
    · have htail : none ∈ slots := by simpa using h
      simp only [put, contents_some_cons]
      exact (List.Perm.cons b (ih htail)).trans (List.Perm.swap a b _)

/-- Filling a table from its front. -/
theorem put_front (front : List α) (n : Nat) (a : α) :
    put a (front.map some ++ List.replicate (n + 1) none) =
      (front ++ [a]).map some ++ List.replicate n none := by
  induction front with
  | nil => simp [put, List.replicate_succ]
  | cons b front ih => simpa [put] using ih

end Slots
