import Mathlib.Data.List.Basic

/-!
# Runs of a transition function

A component that reacts to one event at a time is a function from a state and
an event to the next state.  This module fixes the vocabulary for its runs: the
state after a list of events, a property of every state a run passes through,
and a condition on every step of a run.  Each safety result of the development
is one step lemma and one of the rules below.
-/

namespace Runs

variable {σ ε : Type*}

/-- The state reached from `s` by the events `es`, in order. -/
def run (step : σ → ε → σ) (s : σ) (es : List ε) : σ := es.foldl step s

@[simp] theorem run_nil (step : σ → ε → σ) (s : σ) : run step s [] = s := rfl

@[simp] theorem run_cons (step : σ → ε → σ) (s : σ) (e : ε) (es : List ε) :
    run step s (e :: es) = run step (step s e) es := rfl

theorem run_append (step : σ → ε → σ) (s : σ) (es fs : List ε) :
    run step s (es ++ fs) = run step (run step s es) fs :=
  List.foldl_append

/-- `P` holds in `s` and in every state the run of `es` passes through. -/
def AllStates (step : σ → ε → σ) (P : σ → Prop) : σ → List ε → Prop
  | s, [] => P s
  | s, e :: es => P s ∧ AllStates step P (step s e) es

/-- Every step of the run of `es` from `s` meets the condition `G`, which reads
the state before the step and the event. -/
def AllSteps (step : σ → ε → σ) (G : σ → ε → Prop) : σ → List ε → Prop
  | _, [] => True
  | s, e :: es => G s e ∧ AllSteps step G (step s e) es

instance AllStates.decidable (step : σ → ε → σ) (P : σ → Prop) [DecidablePred P] :
    (s : σ) → (es : List ε) → Decidable (AllStates step P s es)
  | s, [] => inferInstanceAs (Decidable (P s))
  | s, e :: es =>
    have := AllStates.decidable step P (step s e) es
    inferInstanceAs (Decidable (P s ∧ AllStates step P (step s e) es))

instance AllSteps.decidable (step : σ → ε → σ) (G : σ → ε → Prop) [∀ s e, Decidable (G s e)] :
    (s : σ) → (es : List ε) → Decidable (AllSteps step G s es)
  | _, [] => inferInstanceAs (Decidable True)
  | s, e :: es =>
    have := AllSteps.decidable step G (step s e) es
    inferInstanceAs (Decidable (G s e ∧ AllSteps step G (step s e) es))

theorem AllStates.head {step : σ → ε → σ} {P : σ → Prop} {s : σ} {es : List ε}
    (h : AllStates step P s es) : P s := by
  cases es with
  | nil => exact h
  | cons e es => exact h.1

theorem AllStates.last {step : σ → ε → σ} {P : σ → Prop} {s : σ} {es : List ε}
    (h : AllStates step P s es) : P (run step s es) := by
  induction es generalizing s with
  | nil => exact h
  | cons e es ih => exact ih h.2

theorem AllStates.mono {step : σ → ε → σ} {P Q : σ → Prop} {s : σ} {es : List ε}
    (hPQ : ∀ s, P s → Q s) (h : AllStates step P s es) : AllStates step Q s es := by
  induction es generalizing s with
  | nil => exact hPQ s h
  | cons e es ih => exact ⟨hPQ s h.1, ih h.2⟩

theorem AllSteps.append_iff {step : σ → ε → σ} {G : σ → ε → Prop} {s : σ} {es fs : List ε} :
    AllSteps step G s (es ++ fs) ↔
      AllSteps step G s es ∧ AllSteps step G (run step s es) fs := by
  induction es generalizing s with
  | nil => simp [AllSteps]
  | cons e es ih =>
    rw [List.cons_append, AllSteps, AllSteps, run_cons, ih, and_assoc]

/-- Events that meet `G` in every state may come in any order. -/
theorem AllSteps.of_forall_mem {step : σ → ε → σ} {G : σ → ε → Prop} {es : List ε}
    (h : ∀ e ∈ es, ∀ s, G s e) (s : σ) : AllSteps step G s es := by
  induction es generalizing s with
  | nil => trivial
  | cons e es ih =>
    refine ⟨h e (List.mem_cons_self ..) s, ih ?_ _⟩
    intro e' he'
    exact h e' (List.mem_cons_of_mem _ he')

theorem AllSteps.mono {step : σ → ε → σ} {G H : σ → ε → Prop} {s : σ} {es : List ε}
    (hGH : ∀ s e, G s e → H s e) (h : AllSteps step G s es) : AllSteps step H s es := by
  induction es generalizing s with
  | nil => trivial
  | cons e es ih => exact ⟨hGH s e h.1, ih h.2⟩

theorem AllSteps.and {step : σ → ε → σ} {G H : σ → ε → Prop} {s : σ} {es : List ε}
    (hG : AllSteps step G s es) (hH : AllSteps step H s es) :
    AllSteps step (fun s e => G s e ∧ H s e) s es := by
  induction es generalizing s with
  | nil => trivial
  | cons e es ih => exact ⟨⟨hG.1, hH.1⟩, ih hG.2 hH.2⟩

/-- How many steps of the run meet `p`. -/
def countSteps (step : σ → ε → σ) (p : σ → ε → Bool) : σ → List ε → Nat
  | _, [] => 0
  | s, e :: es => (if p s e then 1 else 0) + countSteps step p (step s e) es

/-- What the steps of a run cost together. -/
def totalCost (step : σ → ε → σ) (cost : σ → ε → Nat) : σ → List ε → Nat
  | _, [] => 0
  | s, e :: es => cost s e + totalCost step cost (step s e) es

/-- **Books of a run.**  When each step takes from `size` what it costs, so does a run. -/
theorem size_run_add_totalCost (step : σ → ε → σ) (cost : σ → ε → Nat) (size : σ → Nat)
    (hstep : ∀ s e, size (step s e) + cost s e = size s) (s : σ) (es : List ε) :
    size (run step s es) + totalCost step cost s es = size s := by
  induction es generalizing s with
  | nil => rfl
  | cons e es ih =>
    have hrest := ih (step s e)
    have hhead := hstep s e
    simp only [run_cons, totalCost]
    omega

/-- **Invariant rule.**  What every step preserves holds at the end of a run. -/
theorem run_invariant (step : σ → ε → σ) (Inv : σ → Prop)
    (hstep : ∀ s e, Inv s → Inv (step s e)) {s : σ} (h : Inv s) (es : List ε) :
    Inv (run step s es) := by
  induction es generalizing s with
  | nil => exact h
  | cons e es ih => exact ih (hstep s e h)

/-- **Guarded invariant rule.**  What every step that meets `G` preserves holds
in every state of a run all of whose steps meet `G`. -/
theorem allStates_of_allSteps (step : σ → ε → σ) (Inv : σ → Prop) {G : σ → ε → Prop}
    (hstep : ∀ s e, Inv s → G s e → Inv (step s e)) {s : σ} (h : Inv s) {es : List ε}
    (hG : AllSteps step G s es) : AllStates step Inv s es := by
  induction es generalizing s with
  | nil => exact h
  | cons e es ih => exact ⟨h, ih (hstep s e h hG.1) hG.2⟩

/-- What an invariant and the condition say of a step holds of every step of such a run. -/
theorem allSteps_of_invariant (step : σ → ε → σ) (Inv : σ → Prop) {G H : σ → ε → Prop}
    (hstep : ∀ s e, Inv s → G s e → Inv (step s e)) (hH : ∀ s e, Inv s → G s e → H s e) {s : σ}
    (h : Inv s) {es : List ε} (hG : AllSteps step G s es) : AllSteps step H s es := by
  induction es generalizing s with
  | nil => trivial
  | cons e es ih => exact ⟨hH s e h hG.1, ih (hstep s e h hG.1) hG.2⟩

/-- Conditions that say the same wherever an invariant holds. -/
theorem allSteps_congr (step : σ → ε → σ) (Inv : σ → Prop) {G H : σ → ε → Prop}
    (hinv : ∀ s e, Inv s → Inv (step s e)) (hGH : ∀ s e, Inv s → (G s e ↔ H s e)) {s : σ}
    (h : Inv s) (es : List ε) : AllSteps step G s es ↔ AllSteps step H s es := by
  induction es generalizing s with
  | nil => exact Iff.rfl
  | cons e es ih => rw [AllSteps, AllSteps, hGH s e h, ih (hinv s e h)]

/-- **Equivalent guards.**  In runs whose steps meet `A`, conditions that say the same
wherever an invariant holds say the same of a run when the invariant is kept by the steps
that meet them. -/
theorem allSteps_iff (step : σ → ε → σ) (Inv : σ → Prop) {A G H : σ → ε → Prop}
    (hstep : ∀ s e, Inv s → A s e → G s e → Inv (step s e))
    (hGH : ∀ s e, Inv s → A s e → (G s e ↔ H s e)) {s : σ} (h : Inv s) {es : List ε}
    (hA : AllSteps step A s es) : AllSteps step G s es ↔ AllSteps step H s es := by
  induction es generalizing s with
  | nil => exact Iff.rfl
  | cons e es ih =>
    have hhead := hGH s e h hA.1
    constructor
    · rintro ⟨hG, hrest⟩
      exact ⟨hhead.mp hG, (ih (hstep s e h hA.1 hG) hA.2).mp hrest⟩
    · rintro ⟨hH, hrest⟩
      have hG := hhead.mpr hH
      exact ⟨hG, (ih (hstep s e h hA.1 hG) hA.2).mpr hrest⟩

/-- **Exact guards.**  In runs whose steps meet `H`, when `G` is enough for a step to keep
`Inv` and necessary for it to keep `P`, the runs that keep `P` throughout are exactly
those whose steps meet `G`. -/
theorem allStates_iff_allSteps (step : σ → ε → σ) (Inv : σ → Prop) {P : σ → Prop}
    {G H : σ → ε → Prop} (hP : ∀ s, Inv s → P s)
    (hstep : ∀ s e, Inv s → H s e → G s e → Inv (step s e))
    (hnec : ∀ s e, Inv s → H s e → P (step s e) → G s e) {s : σ} (h : Inv s) {es : List ε}
    (hH : AllSteps step H s es) : AllStates step P s es ↔ AllSteps step G s es := by
  induction es generalizing s with
  | nil => exact ⟨fun _ => trivial, fun _ => hP s h⟩
  | cons e es ih =>
    constructor
    · rintro ⟨-, hall⟩
      have hG : G s e := hnec s e h hH.1 hall.head
      exact ⟨hG, (ih (hstep s e h hH.1 hG) hH.2).mp hall⟩
    · rintro ⟨hG, hrest⟩
      exact ⟨hP s h, (ih (hstep s e h hH.1 hG) hH.2).mpr hrest⟩

/-- **Exact step conditions.**  When `G` says of each step exactly whether `P`
survives it and `H` holds of it, the runs whose steps meet `G` are exactly those
that keep `P` throughout and meet `H` at every step. -/
theorem allStates_and_allSteps_iff (step : σ → ε → σ) (Inv : σ → Prop) {P : σ → Prop}
    {G H : σ → ε → Prop} (hinv : ∀ s e, Inv s → Inv (step s e))
    (hstep : ∀ s e, Inv s → P s → (P (step s e) ∧ H s e ↔ G s e)) {s : σ} (h : Inv s)
    (hP : P s) (es : List ε) :
    AllStates step P s es ∧ AllSteps step H s es ↔ AllSteps step G s es := by
  induction es generalizing s with
  | nil => exact ⟨fun _ => trivial, fun _ => ⟨hP, trivial⟩⟩
  | cons e es ih =>
    constructor
    · rintro ⟨hall, hsteps⟩
      have hG : G s e := (hstep s e h hP).mp ⟨hall.2.head, hsteps.1⟩
      exact ⟨hG, (ih (hinv s e h) hall.2.head).mp ⟨hall.2, hsteps.2⟩⟩
    · rintro ⟨hG, hrest⟩
      have hnext := (hstep s e h hP).mpr hG
      obtain ⟨hall, hsteps⟩ := (ih (hinv s e h) hnext.1).mpr hrest
      exact ⟨⟨hP, hall⟩, hnext.2, hsteps⟩

/-- Exact step conditions, where nothing else is asked of the steps. -/
theorem allStates_iff_of_step (step : σ → ε → σ) (Inv : σ → Prop) {P : σ → Prop}
    {G : σ → ε → Prop} (hinv : ∀ s e, Inv s → Inv (step s e))
    (hstep : ∀ s e, Inv s → P s → (P (step s e) ↔ G s e)) {s : σ} (h : Inv s) (hP : P s)
    (es : List ε) : AllStates step P s es ↔ AllSteps step G s es := by
  have hboth : AllStates step P s es ∧ AllSteps step (fun _ _ => True) s es ↔
      AllSteps step G s es :=
    allStates_and_allSteps_iff step Inv hinv
      (fun s e hs hP => by rw [and_true]; exact hstep s e hs hP) h hP es
  rw [← hboth, and_iff_left (AllSteps.of_forall_mem (fun _ _ _ => trivial) s)]

end Runs
