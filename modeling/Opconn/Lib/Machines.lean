import Opconn.Lib.Loop

/-!
# Machines that share a state

Several state machines work on one state.  Each has a check, which says whether the machine hops,
and may write while it looks, and an action on entering the state that it hopped to.  The driver
looks at the machines in turn, lets the first that hops go on until it comes to rest, and starts
over; it leaves when none hops.  What a hop with its action and a check without a hop keep, the
driver keeps; and what every machine says of the state when it does not hop, holds when the driver
leaves.
-/

namespace Machines

variable {σ μ : Type*}

/-- The machines `ms` are checked in turn until one hops. -/
def scan (check : σ → μ → σ × Bool) : σ → List μ → σ × Option μ
  | s, [] => (s, none)
  | s, m :: ms => if (check s m).2 then ((check s m).1, some m) else scan check (check s m).1 ms

/-- One round of the driver.  The second part of its state is the machine that has hopped and is yet
to enter its new state. -/
def round (machines : σ → List μ) (check : σ → μ → σ × Bool) (enter : σ → μ → σ) :
    σ × Option μ → (σ × Option μ) ⊕ σ
  | (s, none) =>
    match scan check s (machines s) with
    | (s', none) => .inr s'
    | (s', some m) => .inl (s', some m)
  | (s, some m) =>
    .inl ((check (enter s m) m).1, if (check (enter s m) m).2 then some m else none)

/-- The driver leaves `s` at `s'`. -/
def Drives (machines : σ → List μ) (check : σ → μ → σ × Bool) (enter : σ → μ → σ) (s s' : σ) : Prop :=
  ∃ fuel, Loop.run (round machines check enter) fuel (s, none) = some s'

section Rules

variable {machines : σ → List μ} {check : σ → μ → σ × Bool} {enter : σ → μ → σ} {s s' : σ}

theorem scan_quiet {m : μ} (ms : List μ) (h : (check s m).2 = false) :
    scan check s (m :: ms) = scan check (check s m).1 ms := by
  rw [scan, if_neg (by rw [h]; decide)]

theorem scan_hop {m : μ} (ms : List μ) (h : (check s m).2 = true) :
    scan check s (m :: ms) = ((check s m).1, some m) := by
  rw [scan, if_pos h]

/-- The driver leaves at one state at most. -/
theorem Drives.unique {t : σ} (h : Drives machines check enter s s')
    (h' : Drives machines check enter s t) : s' = t := by
  obtain ⟨fuel, hrun⟩ := h
  obtain ⟨fuel', hrun'⟩ := h'
  exact Loop.run_unique hrun hrun'

variable (Inv : σ → Prop)

/-- What the checks that find nothing keep, until one hops. -/
theorem scan_invariant (hquiet : ∀ s m, Inv s → (check s m).2 = false → Inv (check s m).1)
    (ms : List μ) (h : Inv s) :
    (∃ s', scan check s ms = (s', none) ∧ Inv s') ∨
      ∃ t m, Inv t ∧ (check t m).2 = true ∧ scan check s ms = ((check t m).1, some m) := by
  induction ms generalizing s with
  | nil => exact Or.inl ⟨s, rfl, h⟩
  | cons m ms ih =>
    cases hm : (check s m).2 with
    | true => exact Or.inr ⟨s, m, h, hm, scan_hop ms hm⟩
    | false =>
      rw [scan_quiet ms hm]
      exact ih (hquiet s m h hm)

/-- An invariant of the state, at the two places of a round: a machine that has hopped brings it
about by entering its state. -/
def Held (enter : σ → μ → σ) (Inv : σ → Prop) : σ × Option μ → Prop
  | (s, none) => Inv s
  | (s, some m) => Inv (enter s m)

theorem round_held (hquiet : ∀ s m, Inv s → (check s m).2 = false → Inv (check s m).1)
    (hhop : ∀ s m, Inv s → (check s m).2 = true → Inv (enter (check s m).1 m))
    {c c' : σ × Option μ} (h : Held enter Inv c) (hround : round machines check enter c = .inl c') :
    Held enter Inv c' := by
  rcases c with ⟨s, _ | m⟩
  · rcases scan_invariant Inv hquiet (machines s) h with ⟨t, hscan, -⟩ | ⟨t, m, ht, hhops, hscan⟩
    · simp only [round, hscan] at hround
      cases hround
    · simp only [round, hscan, Sum.inl.injEq] at hround
      rw [← hround]
      exact hhop t m ht hhops
  · simp only [round, Sum.inl.injEq] at hround
    rw [← hround]
    cases hm : (check (enter s m) m).2 with
    | true => exact hhop _ m h hm
    | false => exact hquiet _ m h hm

/-- **Invariant rule.** -/
theorem Drives.invariant (hquiet : ∀ s m, Inv s → (check s m).2 = false → Inv (check s m).1)
    (hhop : ∀ s m, Inv s → (check s m).2 = true → Inv (enter (check s m).1 m)) (h : Inv s)
    (hdrives : Drives machines check enter s s') : Inv s' := by
  obtain ⟨fuel, hrun⟩ := hdrives
  refine Loop.run_exit (Held enter Inv) Inv (fun c c' hc hround => ?_) (fun c t hc hround => ?_)
    (s := (s, none)) h hrun
  · exact round_held Inv hquiet hhop hc hround
  · rcases c with ⟨t', _ | m⟩
    · rcases scan_invariant Inv hquiet (machines t') hc with ⟨u, hscan, hu⟩ | ⟨u, m, -, -, hscan⟩
      · simp only [round, hscan, Sum.inr.injEq] at hround
        exact hround ▸ hu
      · simp only [round, hscan] at hround
        cases hround
    · simp only [round] at hround
      cases hround

/-- What a machine says by not hopping, and the later checks keep, holds after a scan. -/
theorem scan_quiet_all {Quiet : μ → σ → Prop}
    (hquiet : ∀ s m, Inv s → (check s m).2 = false → Inv (check s m).1)
    (htells : ∀ s m, Inv s → (check s m).2 = false → Quiet m (check s m).1)
    (hkeeps : ∀ s m n, Inv s → Quiet m s → (check s n).2 = false → Quiet m (check s n).1)
    {ms done : List μ} (h : Inv s) (hdone : ∀ m ∈ done, Quiet m s)
    (hscan : scan check s ms = (s', none)) : Inv s' ∧ ∀ m, m ∈ done ∨ m ∈ ms → Quiet m s' := by
  induction ms generalizing s done with
  | nil =>
    rw [scan, Prod.mk.injEq] at hscan
    rw [← hscan.1]
    refine ⟨h, fun m hm => ?_⟩
    rcases hm with hm | hm
    · exact hdone m hm
    · cases hm
  | cons n ms ih =>
    cases hn : (check s n).2 with
    | true =>
      rw [scan_hop ms hn] at hscan
      cases hscan
    | false =>
      rw [scan_quiet ms hn] at hscan
      have hdone' : ∀ m ∈ n :: done, Quiet m (check s n).1 := by
        intro m hm
        rcases List.mem_cons.mp hm with rfl | hm
        · exact htells s m h hn
        · exact hkeeps s m n h (hdone m hm) hn
      obtain ⟨hinv, hall⟩ := ih (hquiet s n h hn) hdone' hscan
      refine ⟨hinv, fun m hm => hall m ?_⟩
      rcases hm with hm | hm
      · exact Or.inl (List.mem_cons_of_mem _ hm)
      · rcases List.mem_cons.mp hm with rfl | hm
        · exact Or.inl (List.mem_cons_self ..)
        · exact Or.inr hm

/-- **Rest rule.**  Where the driver leaves, every machine has found nothing to do. -/
theorem Drives.quiet {Quiet : μ → σ → Prop}
    (hquiet : ∀ s m, Inv s → (check s m).2 = false → Inv (check s m).1)
    (hhop : ∀ s m, Inv s → (check s m).2 = true → Inv (enter (check s m).1 m))
    (htells : ∀ s m, Inv s → (check s m).2 = false → Quiet m (check s m).1)
    (hkeeps : ∀ s m n, Inv s → Quiet m s → (check s n).2 = false → Quiet m (check s n).1)
    {ms : List μ} (hmachines : ∀ s, Inv s → machines s = ms) (h : Inv s)
    (hdrives : Drives machines check enter s s') : Inv s' ∧ ∀ m ∈ ms, Quiet m s' := by
  obtain ⟨fuel, hrun⟩ := hdrives
  refine Loop.run_exit (Held enter Inv) (fun t => Inv t ∧ ∀ m ∈ ms, Quiet m t)
    (fun c c' hc hround => ?_) (fun c t hc hround => ?_) (s := (s, none)) h hrun
  · exact round_held Inv hquiet hhop hc hround
  · rcases c with ⟨t', _ | m⟩
    · rcases hscan : scan check t' (machines t') with ⟨u, _ | m⟩
      · simp only [round, hscan, Sum.inr.injEq] at hround
        rw [hmachines t' hc] at hscan
        have hnone : ∀ m ∈ ([] : List μ), Quiet m t' := fun m hm => absurd hm List.not_mem_nil
        obtain ⟨hinv, hall⟩ := scan_quiet_all Inv hquiet htells hkeeps hc hnone hscan
        rw [← hround]
        exact ⟨hinv, fun m hm => hall m (Or.inr hm)⟩
      · simp only [round, hscan] at hround
        cases hround
    · simp only [round] at hround
      cases hround

end Rules

/-- **Unrest rule.**  A machine that has hopped and hops again whenever it has entered its state keeps
the driver for good. -/
theorem not_drives_of_hopped {machines : σ → List μ} {check : σ → μ → σ × Bool}
    {enter : σ → μ → σ} (Stuck : σ → Prop) {m : μ}
    (hstuck : ∀ s, Stuck s → (check (enter s m) m).2 = true ∧ Stuck (check (enter s m) m).1) {s : σ}
    (h : Stuck s) (fuel : Nat) : Loop.run (round machines check enter) fuel (s, some m) = none := by
  refine Loop.run_eq_none (fun c => c.2 = some m ∧ Stuck c.1) ?_ ⟨rfl, h⟩ fuel
  rintro ⟨t, _ | n⟩ ⟨hm, ht⟩
  · cases hm
  · cases hm
    obtain ⟨hhops, hnext⟩ := hstuck t ht
    refine ⟨_, rfl, ?_, hnext⟩
    rw [hhops, if_pos rfl]

end Machines
