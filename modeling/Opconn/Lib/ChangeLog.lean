import Mathlib.Data.List.Chain

/-!
# A log of changes

A value that is watched: what is found is compared with what was reported last, and reported
only when it is different.  The reports then never repeat a value, the first of them differs
from the value at the start, and the value that is kept is the one reported last.
-/

/-- What was reported, oldest first, and the value the next find is compared with. -/
@[ext]
structure ChangeLog (α : Type*) where
  sent : List α
  last : α

namespace ChangeLog

variable {α : Type*}

/-- `init` is the value at the start. -/
structure Faithful (init : α) (c : ChangeLog α) : Prop where
  last_eq : c.last = c.sent.getLast?.getD init
  chain : (init :: c.sent).IsChain (· ≠ ·)

theorem faithful_start (init : α) : Faithful init ⟨[], init⟩ :=
  ⟨rfl, List.isChain_singleton init⟩

variable [DecidableEq α]

/-- `x` is found. -/
def judge (c : ChangeLog α) (x : α) : ChangeLog α :=
  if x ≠ c.last then ⟨c.sent ++ [x], x⟩ else c

theorem Faithful.judge {init : α} {c : ChangeLog α} (h : Faithful init c) (x : α) :
    Faithful init (c.judge x) := by
  rw [ChangeLog.judge]
  split
  · next hne =>
    refine ⟨by simp, ?_⟩
    rw [← List.cons_append]
    refine List.isChain_append.mpr ⟨h.chain, List.isChain_singleton x, ?_⟩
    intro a ha y hy
    rw [List.getLast?_cons, ← h.last_eq, Option.mem_some_iff] at ha
    rw [List.head?_cons, Option.mem_some_iff] at hy
    rw [← ha, ← hy]
    exact hne.symm
  · exact h

/-- `c'` is `c` after some finds. -/
def Judged (c c' : ChangeLog α) : Prop := ∃ found : List α, c' = found.foldl judge c

theorem Judged.refl (c : ChangeLog α) : Judged c c := ⟨[], rfl⟩

theorem Judged.trans {c c' c'' : ChangeLog α} (h : Judged c c') (h' : Judged c' c'') :
    Judged c c'' := by
  obtain ⟨found, rfl⟩ := h
  obtain ⟨more, rfl⟩ := h'
  exact ⟨found ++ more, (List.foldl_append ..).symm⟩

theorem Judged.of_judge (c : ChangeLog α) (x : α) : Judged c (c.judge x) := ⟨[x], rfl⟩

/-- A loop whose rounds are finds or nothing. -/
theorem Judged.foldl {σ ε : Type*} (view : σ → ChangeLog α) {round : σ → ε → σ} {es : List ε}
    (h : ∀ s, ∀ e ∈ es, Judged (view s) (view (round s e))) (s : σ) :
    Judged (view s) (view (es.foldl round s)) := by
  induction es generalizing s with
  | nil => exact .refl _
  | cons e es ih =>
    have htail : ∀ s, ∀ e' ∈ es, Judged (view s) (view (round s e')) := by
      intro s e' he'
      exact h s e' (List.mem_cons_of_mem e he')
    exact (h s e (List.mem_cons_self ..)).trans (ih htail (round s e))

theorem Judged.faithful {init : α} {c c' : ChangeLog α} (hj : Judged c c')
    (h : Faithful init c) : Faithful init c' := by
  obtain ⟨found, rfl⟩ := hj
  induction found generalizing c with
  | nil => exact h
  | cons x found ih => exact ih (h.judge x)

/-- The value changes only with a report. -/
theorem Judged.eq_or_lt {c c' : ChangeLog α} (hj : Judged c c') :
    c' = c ∨ c.sent.length < c'.sent.length := by
  obtain ⟨found, rfl⟩ := hj
  induction found generalizing c with
  | nil => exact .inl rfl
  | cons x found ih =>
    rw [List.foldl_cons]
    by_cases hne : x ≠ c.last
    · have hlen : (c.judge x).sent.length = c.sent.length + 1 := by
        rw [judge, if_pos hne, List.length_append, List.length_singleton]
      rcases ih (c := c.judge x) with heq | hlt
      · rw [heq]
        omega
      · omega
    · have hsame : c.judge x = c := by rw [judge, if_neg hne]
      rw [hsame]
      exact ih

end ChangeLog
