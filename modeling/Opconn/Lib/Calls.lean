import Mathlib.Data.List.Basic
import Opconn.Lib.Runs

/-!
# Calls to a layer below

A layer takes calls one after the other and answers each.  `Accepts` says that it takes a whole
list of calls.  A caller may make all calls of a list whatever the answers are, or stop behind the
first refusal; each way leaves a trace of calls and answers.
-/

namespace Opconn.Calls

open Runs

variable {σ κ ρ : Type*}

/-- The layer takes the calls, each in the state the one before has left. -/
def Accepts (taken : ρ → Prop) (layer : σ → κ → σ × ρ) : σ → List κ → Prop
  | _, [] => True
  | s, call :: calls => taken (layer s call).2 ∧ Accepts taken layer (layer s call).1 calls

/-- The state of the layer after calls. -/
def afterCalls (layer : σ → κ → σ × ρ) (s : σ) (calls : List κ) : σ :=
  run (fun s call => (layer s call).1) s calls

/-- All calls are made. -/
def each (layer : σ → κ → σ × ρ) : σ → List κ → σ × List (κ × ρ)
  | s, [] => (s, [])
  | s, call :: calls =>
    let done := layer s call
    let rest := each layer done.1 calls
    (rest.1, (call, done.2) :: rest.2)

/-- Calls are made up to the first that is not taken. -/
def untilRefused (taken : ρ → Bool) (layer : σ → κ → σ × ρ) : σ → List κ → σ × List (κ × ρ)
  | s, [] => (s, [])
  | s, call :: calls =>
    let done := layer s call
    if taken done.2 then
      let rest := untilRefused taken layer done.1 calls
      (rest.1, (call, done.2) :: rest.2)
    else (done.1, [(call, done.2)])

/-- The last answer of a trace. -/
def lastAnswer (start : ρ) (trace : List (κ × ρ)) : ρ := (trace.getLast?.map Prod.snd).getD start

variable {taken : ρ → Prop} {layer : σ → κ → σ × ρ}

@[simp]
theorem accepts_nil (s : σ) : Accepts taken layer s [] := trivial

theorem accepts_cons (s : σ) (call : κ) (calls : List κ) :
    Accepts taken layer s (call :: calls) ↔
      taken (layer s call).2 ∧ Accepts taken layer (layer s call).1 calls := Iff.rfl

@[simp]
theorem each_nil (s : σ) : each layer s [] = (s, []) := rfl

theorem each_cons (s : σ) (call : κ) (calls : List κ) :
    each layer s (call :: calls) =
      ((each layer (layer s call).1 calls).1,
        (call, (layer s call).2) :: (each layer (layer s call).1 calls).2) := rfl

section UntilRefused

variable {test : ρ → Bool} {s : σ} {call : κ} {calls : List κ}

@[simp]
theorem untilRefused_nil : untilRefused test layer s [] = (s, []) := rfl

theorem untilRefused_taken (h : test (layer s call).2 = true) :
    untilRefused test layer s (call :: calls) =
      ((untilRefused test layer (layer s call).1 calls).1,
        (call, (layer s call).2) :: (untilRefused test layer (layer s call).1 calls).2) :=
  if_pos h

theorem untilRefused_refused (h : ¬test (layer s call).2 = true) :
    untilRefused test layer s (call :: calls) =
      ((layer s call).1, [(call, (layer s call).2)]) := if_neg h

end UntilRefused

theorem accepts_append {s : σ} {as bs : List κ} :
    Accepts taken layer s (as ++ bs) ↔
      Accepts taken layer s as ∧ Accepts taken layer (afterCalls layer s as) bs := by
  induction as generalizing s with
  | nil => simp [afterCalls]
  | cons a as ih =>
    rw [List.cons_append, accepts_cons, accepts_cons, ih, and_assoc]
    rfl

theorem calls_each (layer : σ → κ → σ × ρ) (s : σ) (calls : List κ) :
    (each layer s calls).2.map Prod.fst = calls := by
  induction calls generalizing s with
  | nil => rfl
  | cons call calls ih => exact congrArg (call :: ·) (ih _)

theorem state_each (layer : σ → κ → σ × ρ) (s : σ) (calls : List κ) :
    (each layer s calls).1 = afterCalls layer s calls := by
  induction calls generalizing s with
  | nil => rfl
  | cons call calls ih => exact ih _

theorem forall_each_iff (s : σ) (calls : List κ) :
    (∀ e ∈ (each layer s calls).2, taken e.2) ↔ Accepts taken layer s calls := by
  induction calls generalizing s with
  | nil => simp
  | cons call calls ih => rw [each_cons, List.forall_mem_cons, ih, accepts_cons]

theorem untilRefused_of_accepts {test : ρ → Bool} {s : σ} {calls : List κ}
    (h : Accepts (test · = true) layer s calls) :
    untilRefused test layer s calls = each layer s calls := by
  induction calls generalizing s with
  | nil => rfl
  | cons call calls ih => rw [untilRefused_taken h.1, ih h.2, each_cons]

theorem lastAnswer_cons (start : ρ) (e : κ × ρ) (trace : List (κ × ρ)) :
    lastAnswer start (e :: trace) = lastAnswer e.2 trace := by
  cases trace with
  | nil => rfl
  | cons e' trace => simp [lastAnswer, List.getLast?_cons]

/-- The last answer of a caller that stops tells whether all calls were taken. -/
theorem lastAnswer_untilRefused_iff (layer : σ → κ → σ × ρ) {test : ρ → Bool} (start : ρ)
    (hstart : test start = true)
    (s : σ) (calls : List κ) :
    test (lastAnswer start (untilRefused test layer s calls).2) = true ↔
      Accepts (test · = true) layer s calls := by
  induction calls generalizing s start with
  | nil => simpa [lastAnswer] using hstart
  | cons call calls ih =>
    rw [accepts_cons]
    by_cases hfirst : test (layer s call).2 = true
    · rw [untilRefused_taken hfirst, and_iff_right hfirst, ← ih _ hfirst, lastAnswer_cons]
    · rw [untilRefused_refused hfirst]
      simp [lastAnswer, hfirst]

/-- When a caller that stops sees no refusal, all calls were taken. -/
theorem accepts_of_untilRefused {test : ρ → Bool} {s : σ} {calls : List κ}
    (htaken : ∀ e ∈ (untilRefused test layer s calls).2, test e.2 = true) :
    Accepts (test · = true) layer s calls := by
  induction calls generalizing s with
  | nil => trivial
  | cons call calls ih =>
    by_cases hfirst : test (layer s call).2 = true
    · rw [untilRefused_taken hfirst, List.forall_mem_cons] at htaken
      exact ⟨hfirst, ih htaken.2⟩
    · rw [untilRefused_refused hfirst] at htaken
      exact absurd (htaken _ (List.mem_singleton_self _)) hfirst

/-- The calls of a caller that stops are the first ones of the list. -/
theorem calls_untilRefused (test : ρ → Bool) (s : σ) (calls : List κ) :
    (untilRefused test layer s calls).2.map Prod.fst <+: calls := by
  induction calls generalizing s with
  | nil => exact List.prefix_rfl
  | cons call calls ih =>
    by_cases hfirst : test (layer s call).2 = true
    · rw [untilRefused_taken hfirst]
      exact List.cons_prefix_cons.mpr ⟨rfl, ih _⟩
    · rw [untilRefused_refused hfirst]
      exact List.cons_prefix_cons.mpr ⟨rfl, List.nil_prefix⟩

theorem state_untilRefused (test : ρ → Bool) (s : σ) (calls : List κ) :
    (untilRefused test layer s calls).1 =
      afterCalls layer s ((untilRefused test layer s calls).2.map Prod.fst) := by
  induction calls generalizing s with
  | nil => rfl
  | cons call calls ih =>
    by_cases hfirst : test (layer s call).2 = true
    · rw [untilRefused_taken hfirst]
      exact ih _
    · rw [untilRefused_refused hfirst]
      rfl

/-- Behind a call that is not taken there is none. -/
theorem taken_untilRefused (test : ρ → Bool) (s : σ) (calls : List κ) :
    ∀ e ∈ (untilRefused test layer s calls).2.dropLast, test e.2 = true := by
  induction calls generalizing s with
  | nil => simp
  | cons call calls ih =>
    by_cases hfirst : test (layer s call).2 = true
    · rw [untilRefused_taken hfirst]
      intro e he
      cases hrest : (untilRefused test layer (layer s call).1 calls).2 with
      | nil => simp [hrest] at he
      | cons e' rest =>
        have hih := ih (layer s call).1
        simp only [hrest, List.dropLast_cons_cons, List.mem_cons] at he hih
        rcases he with rfl | he
        · exact hfirst
        · exact hih e he
    · simp [untilRefused_refused hfirst]

/-- What every call of a list keeps holds after them. -/
theorem afterCalls_induction {P : σ → Prop} {calls : List κ}
    (hstep : ∀ s, P s → ∀ call ∈ calls, P (layer s call).1) {s : σ} (hs : P s) :
    P (afterCalls layer s calls) := by
  induction calls generalizing s with
  | nil => exact hs
  | cons call calls ih =>
    have htail : ∀ t, P t → ∀ c ∈ calls, P (layer t c).1 :=
      fun t ht c hc => hstep t ht c (List.mem_cons_of_mem _ hc)
    exact ih htail (hstep s hs call List.mem_cons_self)

end Opconn.Calls
