import Mathlib.Data.List.Basic

/-!
# Backtracking with a shared state

A search that serves one request after the other, tries the candidates of each in order
and takes a choice back, in place, when the rest of the requests cannot be served behind
it.  The state is shared by all branches, so two things have to be shown: a branch that
fails leaves no trace, and what a successful branch leaves is what its choices put there.
-/

namespace Backtrack

variable {σ ρ κ : Type*}

/-- A search problem: the candidates of a request, whether a candidate is free, and the
change of state that takes it or gives it back. -/
structure Problem (σ ρ κ : Type*) where
  candidates : ρ → List κ
  free : σ → κ → Bool
  put : σ → ρ → κ → σ
  undo : σ → ρ → κ → σ

variable (P : Problem σ ρ κ)

/-- The candidates of one request in turn; `next` serves the requests behind it. -/
def tryEach (next : σ → Bool × σ) (r : ρ) : List κ → σ → Bool × σ
  | [], s => (false, s)
  | c :: cs, s =>
    if P.free s c then
      let done := next (P.put s r c)
      if done.1 then done else tryEach next r cs (P.undo done.2 r c)
    else tryEach next r cs s

/-- All requests, in order. -/
def search : List ρ → σ → Bool × σ
  | [], s => (true, s)
  | r :: rs, s => tryEach P (search rs) r (P.candidates r) s

/-- A choice of a free candidate for each request leads from one state to the other. -/
inductive Served : List ρ → σ → σ → Prop
  | done (s : σ) : Served [] s s
  | choose {r : ρ} {rs : List ρ} {s s' : σ} (c : κ) (hmem : c ∈ P.candidates r)
      (hfree : P.free s c = true) (hrest : Served rs (P.put s r c) s') : Served (r :: rs) s s'

/-- An invariant, indexed by the requests still to serve, under which a choice can be
taken back. -/
structure Reversible (Inv : List ρ → σ → Prop) : Prop where
  put : ∀ {r rs s c}, Inv (r :: rs) s → c ∈ P.candidates r → P.free s c = true →
    Inv rs (P.put s r c)
  undo : ∀ {r rs s c}, Inv (r :: rs) s → c ∈ P.candidates r → P.free s c = true →
    P.undo (P.put s r c) r c = s

variable {P} {Inv : List ρ → σ → Prop}

/-- **Backtracking is clean.**  A search that fails gives the state back as it was, and
one that succeeds has made a free choice for each request. -/
theorem search_cases (hrev : Reversible P Inv) {rs : List ρ} {s : σ} (hs : Inv rs s) :
    (search P rs s = (false, s)) ∨ ∃ s', search P rs s = (true, s') ∧ Served P rs s s' := by
  induction rs generalizing s with
  | nil => exact .inr ⟨s, rfl, .done s⟩
  | cons r rs ih =>
    -- the inner induction is on the candidates left to try; the state is `s` at each of them
    have hloop : ∀ cs, (∀ c ∈ cs, c ∈ P.candidates r) →
        (tryEach P (search P rs) r cs s = (false, s)) ∨
          ∃ s', tryEach P (search P rs) r cs s = (true, s') ∧ Served P (r :: rs) s s' := by
      intro cs
      induction cs with
      | nil => exact fun _ => .inl rfl
      | cons c cs ihc =>
        intro hmem
        have hc : c ∈ P.candidates r := hmem c (List.mem_cons_self ..)
        have hcs := ihc fun c' hc' => hmem c' (List.mem_cons_of_mem _ hc')
        by_cases hfree : P.free s c = true
        · rcases ih (hrev.put hs hc hfree) with hfail | ⟨s', hok, hserved⟩
          · simpa [tryEach, hfree, hfail, hrev.undo hs hc hfree] using hcs
          · refine .inr ⟨s', ?_, .choose c hc hfree hserved⟩
            simp [tryEach, hfree, hok]
        · simpa [tryEach, hfree] using hcs
    exact hloop _ fun c hc => hc

/-- What a successful search has done. -/
theorem served_of_search (hrev : Reversible P Inv) {rs : List ρ} {s s' : σ} (hs : Inv rs s)
    (h : search P rs s = (true, s')) : Served P rs s s' := by
  rcases search_cases hrev hs with hfail | ⟨s'', hok, hserved⟩
  · simp [hfail] at h
  · rw [hok] at h
    obtain rfl : s'' = s' := (Prod.ext_iff.mp h).2
    exact hserved

/-- **Backtracking is complete.**  When free choices serve all requests, the search succeeds. -/
theorem search_of_served (hrev : Reversible P Inv) {rs : List ρ} {s s' : σ} (hs : Inv rs s)
    (h : Served P rs s s') : (search P rs s).1 = true := by
  induction h with
  | done s => rfl
  | @choose r rs s s' c hmem hfree hrest ih =>
    have hnext := ih (hrev.put hs hmem hfree)
    have hloop : ∀ cs, c ∈ cs → (∀ d ∈ cs, d ∈ P.candidates r) →
        (tryEach P (search P rs) r cs s).1 = true := by
      intro cs
      induction cs with
      | nil => exact fun hc _ => absurd hc List.not_mem_nil
      | cons d cs ihd =>
        intro hc hcands
        have hd : d ∈ P.candidates r := hcands d (List.mem_cons_self ..)
        have hcs : c ≠ d → (tryEach P (search P rs) r cs s).1 = true := fun hne =>
          ihd ((List.mem_cons.mp hc).resolve_left hne) fun e he =>
            hcands e (List.mem_cons_of_mem _ he)
        by_cases hfree' : P.free s d = true
        · rcases search_cases hrev (hrev.put hs hd hfree') with hfail | ⟨s'', hok, -⟩
          · -- the choice `d` fails, so it is not `c`, and it is taken back
            have hne : c ≠ d := by
              rintro rfl
              rw [hfail] at hnext
              cases hnext
            simpa [tryEach, hfree', hfail, hrev.undo hs hd hfree'] using hcs hne
          · simp [tryEach, hfree', hok]
        · have hne : c ≠ d := by
            rintro rfl
            exact hfree' hfree
          simpa [tryEach, hfree'] using hcs hne
    exact hloop _ hmem fun d hd => hd

/-- A search succeeds exactly when its requests can be served. -/
theorem search_eq_true_iff (hrev : Reversible P Inv) {rs : List ρ} {s : σ} (hs : Inv rs s) :
    (search P rs s).1 = true ↔ ∃ s', Served P rs s s' := by
  constructor
  · intro h
    exact ⟨(search P rs s).2, served_of_search hrev hs (Prod.ext h rfl)⟩
  · rintro ⟨s', h⟩
    exact search_of_served hrev hs h

/-- Requests that cannot all be served fail, whatever is asked for behind them. -/
theorem search_append_eq_false (hrev : Reversible P Inv) {rs : List ρ} {s : σ} (hs : Inv rs s)
    (hno : ∀ s', ¬ Served P rs s s') (more : List ρ) :
    search P (rs ++ more) s = (false, s) := by
  induction rs generalizing s with
  | nil => exact absurd (.done s) (hno s)
  | cons r rs ih =>
    have hloop : ∀ cs, (∀ c ∈ cs, c ∈ P.candidates r) →
        tryEach P (search P (rs ++ more)) r cs s = (false, s) := by
      intro cs
      induction cs with
      | nil => exact fun _ => rfl
      | cons c cs ihc =>
        intro hmem
        have hc : c ∈ P.candidates r := hmem c (List.mem_cons_self ..)
        have hcs := ihc fun c' hc' => hmem c' (List.mem_cons_of_mem _ hc')
        by_cases hfree : P.free s c = true
        · have hnext := ih (hrev.put hs hc hfree) fun s' hserved =>
            hno s' (.choose c hc hfree hserved)
          simpa [tryEach, hfree, hnext, hrev.undo hs hc hfree] using hcs
        · simpa [tryEach, hfree] using hcs
    exact hloop _ fun c hc => hc

end Backtrack
