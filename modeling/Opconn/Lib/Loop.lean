import Mathlib.Logic.Relation

/-!
# Loops that may leave

A `while (1)` whose body either goes round again or leaves is a function from
the loop state to a next state or an exit.  `run` iterates it with fuel; a loop
that never leaves runs out of any fuel.  The rules below say what is needed of
one round to know where a loop can be, that it leaves, and that it never does.
-/

namespace Loop

variable {σ ε : Type*}

/-- The exit of the loop, when `fuel` rounds are enough to get there. -/
def run (step : σ → σ ⊕ ε) : Nat → σ → Option ε
  | 0, _ => none
  | fuel + 1, s =>
    match step s with
    | .inl s' => run step fuel s'
    | .inr e => some e

/-- One round from `s` that goes round again at `s'`. -/
def Again (step : σ → σ ⊕ ε) (s s' : σ) : Prop := step s = .inl s'

/-- The loop, entered at `s`, comes round to `s'`. -/
def Reaches (step : σ → σ ⊕ ε) : σ → σ → Prop := Relation.ReflTransGen (Again step)

/-- The loop leaves after finitely many rounds. -/
def Leaves (step : σ → σ ⊕ ε) (s : σ) : Prop := ∃ fuel e, run step fuel s = some e

section Rules

variable {step : σ → σ ⊕ ε} {s s' : σ} {e : ε}

@[simp] theorem run_zero : run step 0 s = none := rfl

theorem run_succ_inl (h : step s = .inl s') (fuel : Nat) :
    run step (fuel + 1) s = run step fuel s' := by
  simp only [run, h]

theorem run_succ_inr (h : step s = .inr e) (fuel : Nat) :
    run step (fuel + 1) s = some e := by
  simp only [run, h]

/-- The exit does not depend on the fuel. -/
theorem run_unique {e' : ε} {fuel fuel' : Nat} (h : run step fuel s = some e)
    (h' : run step fuel' s = some e') : e = e' := by
  induction fuel generalizing s fuel' with
  | zero => simp at h
  | succ fuel ih =>
    cases fuel' with
    | zero => simp at h'
    | succ fuel' =>
      rcases hs : step s with t | x
      · rw [run_succ_inl hs] at h h'
        exact ih h h'
      · rw [run_succ_inr hs, Option.some.injEq] at h h'
        exact h.symm.trans h'

/-- **Exit rule.**  What every round keeps, and every exit under it gives, holds of
the exit of the loop. -/
theorem run_exit (Inv : σ → Prop) (Q : ε → Prop) {fuel : Nat}
    (hagain : ∀ s s', Inv s → step s = .inl s' → Inv s')
    (hexit : ∀ s e, Inv s → step s = .inr e → Q e) (h : Inv s)
    (hrun : run step fuel s = some e) : Q e := by
  induction fuel generalizing s with
  | zero => simp at hrun
  | succ fuel ih =>
    rcases hs : step s with t | x
    · rw [run_succ_inl hs] at hrun
      exact ih (hagain s t h hs) hrun
    · rw [run_succ_inr hs, Option.some.injEq] at hrun
      subst hrun
      exact hexit s x h hs

theorem Reaches.refl (s : σ) : Reaches step s s := Relation.ReflTransGen.refl

/-- **Invariant rule.**  What every round keeps holds wherever the loop comes round. -/
theorem Reaches.invariant (Inv : σ → Prop) {t : σ}
    (hagain : ∀ s s', Inv s → step s = .inl s' → Inv s') (h : Inv s)
    (hreach : Reaches step s t) : Inv t := by
  induction hreach with
  | refl => exact h
  | tail _ hlast ih => exact hagain _ _ ih hlast

/-- **Termination rule.**  A loop leaves when every round raises a measure, and the
loop leaves at the latest where the measure has grown to `bound`. -/
theorem run_of_measure (Inv : σ → Prop) (μ : σ → Nat) {bound fuel : Nat}
    (hagain : ∀ s s', Inv s → step s = .inl s' → Inv s' ∧ μ s < μ s')
    (hbound : ∀ s, bound ≤ μ s → ∃ e, step s = .inr e) (h : Inv s)
    (hfuel : bound < fuel + μ s) (hpos : 0 < fuel) : ∃ e, run step fuel s = some e := by
  induction fuel generalizing s with
  | zero => omega
  | succ fuel ih =>
    rcases hs : step s with t | x
    · obtain ⟨ht, hlt⟩ := hagain s t h hs
      have hbelow : μ s < bound := by
        rcases Nat.lt_or_ge (μ s) bound with hlt' | hge
        · exact hlt'
        · obtain ⟨e, he⟩ := hbound s hge
          rw [hs] at he
          cases he
      rw [run_succ_inl hs]
      exact ih ht (by omega) (by omega)
    · exact ⟨x, run_succ_inr hs fuel⟩

/-- **Divergence rule.**  A loop that stays among states none of which leaves runs out
of any fuel. -/
theorem run_eq_none (Stuck : σ → Prop)
    (hstuck : ∀ s, Stuck s → ∃ s', step s = .inl s' ∧ Stuck s') (h : Stuck s) (fuel : Nat) :
    run step fuel s = none := by
  induction fuel generalizing s with
  | zero => rfl
  | succ fuel ih =>
    obtain ⟨t, hs, ht⟩ := hstuck s h
    rw [run_succ_inl hs]
    exact ih ht

/-- **Simulation rule.**  Two loops that go round together leave together, and as far as `f`
and `f'` look with the same exit. -/
theorem run_map_eq {τ ε' γ : Type*} {step' : τ → τ ⊕ ε'} (R : σ → τ → Prop) (f : ε → γ)
    (f' : ε' → γ)
    (hstep : ∀ s t, R s t → (∃ s' t', step s = .inl s' ∧ step' t = .inl t' ∧ R s' t') ∨
      ∃ e e', step s = .inr e ∧ step' t = .inr e' ∧ f e = f' e') {t : τ} (h : R s t)
    (fuel : Nat) : (run step fuel s).map f = (run step' fuel t).map f' := by
  induction fuel generalizing s t with
  | zero => rfl
  | succ fuel ih =>
    rcases hstep s t h with ⟨s', t', hs, ht, hst⟩ | ⟨e, e', hs, ht, hee⟩
    · rw [run_succ_inl hs, run_succ_inl ht]
      exact ih hst
    · rw [run_succ_inr hs, run_succ_inr ht, Option.map_some, Option.map_some, hee]

theorem Reaches.forall_inl {G : σ → Prop} (h : step s = .inl s') :
    (∀ t, Reaches step s t → G t) ↔ G s ∧ ∀ t, Reaches step s' t → G t := by
  constructor
  · intro hall
    exact ⟨hall s (.refl s), fun t ht => hall t (Relation.ReflTransGen.head h ht)⟩
  · rintro ⟨hs, hall⟩ t ht
    rcases Relation.ReflTransGen.cases_head ht with rfl | ⟨u, hu, ht⟩
    · exact hs
    · have heq : u = s' := Sum.inl.inj (hu.symm.trans h)
      exact hall t (heq ▸ ht)

theorem Reaches.forall_inr {G : σ → Prop} (h : step s = .inr e) :
    (∀ t, Reaches step s t → G t) ↔ G s := by
  constructor
  · intro hall
    exact hall s (.refl s)
  · intro hs t ht
    rcases Relation.ReflTransGen.cases_head ht with rfl | ⟨u, hu, -⟩
    · exact hs
    · have hnot : step s = .inl u := hu
      rw [h] at hnot
      cases hnot

/-- **Accumulation rule.**  Where every round keeps `P` exactly under `G`, the exit is as `Q`
says exactly when the loop is entered with `P` and finds `G` wherever it comes round. -/
theorem run_iff (Inv P G : σ → Prop) (Q : Prop) {fuel : Nat}
    (hagain : ∀ s s', Inv s → step s = .inl s' → Inv s' ∧ (P s' ↔ P s ∧ G s))
    (hexit : ∀ s, Inv s → step s = .inr e → (Q ↔ P s ∧ G s)) (h : Inv s)
    (hrun : run step fuel s = some e) : Q ↔ P s ∧ ∀ t, Reaches step s t → G t := by
  induction fuel generalizing s with
  | zero => simp at hrun
  | succ fuel ih =>
    rcases hs : step s with t | x
    · obtain ⟨ht, hiff⟩ := hagain s t h hs
      rw [run_succ_inl hs] at hrun
      rw [Reaches.forall_inl hs, ih ht hrun, hiff, and_assoc]
    · rw [run_succ_inr hs, Option.some.injEq] at hrun
      subst hrun
      rw [Reaches.forall_inr hs]
      exact hexit s h hs

/-- A loop that leaves also leaves from every state it comes round to. -/
theorem Reaches.leaves {t : σ} (hreach : Reaches step s t) (h : Leaves step s) :
    Leaves step t := by
  induction hreach with
  | refl => exact h
  | tail _ hlast ih =>
    obtain ⟨fuel, e, hrun⟩ := ih
    cases fuel with
    | zero => simp at hrun
    | succ fuel =>
      rw [run_succ_inl hlast] at hrun
      exact ⟨fuel, e, hrun⟩

end Rules

end Loop
