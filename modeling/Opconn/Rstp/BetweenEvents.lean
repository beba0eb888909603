import Opconn.Rstp.Freshness

/-!
# Bridges between events

A bridge that works has information on a port exactly when the link of the port is up.  An event that
changes what role selection looks at, or the state of a link, makes a selection due; so what role
selection brings about holds each time that a bridge comes to rest.
-/

namespace Opconn.Rstp

theorem checkCondition_adminState (s : Stpm) (m : MachineRef) :
    (checkCondition s m).1.adminState = s.adminState := by
  cases m with
  | rolesel =>
    simp only [checkCondition]
    split <;> rfl
  | port i m =>
    simp only [checkCondition]
    split <;> rfl

theorem enterState_adminState (s : Stpm) (m : MachineRef) :
    (enterState s m).adminState = s.adminState := by
  cases m with
  | rolesel =>
    simp only [enterState, roleselEnterState]
    split
    · rfl
    · rfl
    · rw [setSelectedTree]
      split <;> rfl
  | port i m =>
    simp only [enterState]
    split <;> rfl

/-- The machines do not start the bridge or stop it. -/
theorem Updates.adminState {s s' : Stpm} (h : Updates s s') : s'.adminState = s.adminState :=
  Machines.Drives.invariant (fun t => t.adminState = s.adminState)
    (fun t m ht _ => (checkCondition_adminState t m).trans ht)
    (fun t m ht _ => (enterState_adminState _ m).trans ((checkCondition_adminState t m).trans ht))
    rfl h

/-- The port has information exactly when its link is up. -/
def Port.Linked (p : Port) : Prop := p.portEnabled = !decide (p.infoIs = .disabled)

theorem Port.linked_of_not_due {p : Port} (h : ¬p.Due) : p.Linked := by
  have hlink : p.portEnabled ≠ decide (p.infoIs = .disabled) := fun hl => h (Or.inr (Or.inr hl))
  rw [Port.Linked]
  cases hen : p.portEnabled <;> cases hdis : decide (p.infoIs = .disabled) <;> simp_all

/-- A link that has just come up or gone down calls for a selection. -/
theorem Port.Linked.due {p q : Port} (h : p.Linked) (hinfo : q.infoIs = p.infoIs)
    (hlink : q.portEnabled ≠ p.portEnabled) : q.Due := by
  refine Or.inr (Or.inr ?_)
  rw [Port.Linked] at h
  rw [h] at hlink
  rw [hinfo]
  cases hen : q.portEnabled <;> cases hdis : decide (p.infoIs = .disabled) <;> simp_all

/-- What holds of a bridge that works between two events. -/
structure Between (Q : Stpm → Prop) (s : Stpm) : Prop where
  fresh : Fresh Q s
  linked : s.All Port.Linked

/-- A port after an event: it asks for a selection, or role selection does not see what happened. -/
structure Happens (p q : Port) : Prop where
  asked : p.Asked → q.Asked
  seen : q.Due ∨ q.basis = p.basis

theorem Happens.reselect {p q : Port} (h : q.reselect = true) : Happens p q :=
  ⟨fun _ => Or.inl h, Or.inl (Or.inl h)⟩

theorem Happens.unseen {p q : Port} (h : q.basis = p.basis) : Happens p q :=
  ⟨fun hp => hp.of_basis h, Or.inr h⟩

theorem enablePortOnStpm_happens {s : Stpm} {b : Bool} {p q : Port} (h : q.Linked)
    (hq : q.basis = p.basis) : Happens p (enablePortOnStpm s b q) := by
  rw [enablePortOnStpm]
  split
  · exact .unseen hq
  · next hne =>
    have hasked : q.Asked → Port.Asked { portInit s false q with portEnabled := b } := fun hask => hask
    exact ⟨fun hp => hasked (hp.of_basis hq), Or.inl (h.due rfl (Ne.symm hne))⟩

theorem Port.Linked.of_basis {p q : Port} (h : p.Linked) (hb : q.basis = p.basis) : q.Linked := by
  have henabled : q.portEnabled = p.portEnabled := congrArg PortBasis.portEnabled hb
  have hinfoIs : q.infoIs = p.infoIs := congrArg PortBasis.infoIs hb
  rwa [Port.Linked, henabled, hinfoIs]

theorem oneSecondPort_happens {s : Stpm} {link : Bool} {p : Port} (h : p.Linked) :
    Happens p (oneSecondPort s link p) := by
  simp only [oneSecondPort]
  split
  · exact .unseen rfl
  · rw [enablePort]
    cases link with
    | true => exact enablePortOnStpm_happens (Port.Linked.of_basis h rfl) rfl
    | false => exact enablePortOnStpm_happens (Port.Linked.of_basis h rfl) rfl

theorem infoRxBpdu_basis (s : Stpm) (bpdu : Bpdu) (p : Port) : (infoRxBpdu s bpdu p).basis = p.basis := by
  rw [infoRxBpdu]
  split
  · split <;> rfl
  · split
    · split <;> rfl
    · rfl

theorem rxBpduPort_happens {s : Stpm} {bpdu : Bpdu} {p : Port} (h : p.Linked) :
    Happens p (rxBpduPort s bpdu p) := by
  have hup : Happens p (enablePortOnStpm s true p) := enablePortOnStpm_happens h rfl
  have hb : (rxBpduPort s bpdu p).basis = (enablePortOnStpm s true p).basis :=
    infoRxBpdu_basis s bpdu _
  refine ⟨fun hp => (hup.asked hp).of_basis hb, ?_⟩
  rcases hup.seen with hdue | hsame
  · exact Or.inl (hdue.of_basis hb)
  · exact Or.inr (hb.trans hsame)

theorem initMachines_reselect (s : Stpm) (p : Port) : (initMachines s p).reselect = true := rfl

/-- An event after which the machines do not work leaves the links as they are. -/
theorem handle_linked {s : Stpm} (hne : s.ports ≠ []) (h : s.adminState = true → s.All Port.Linked)
    {e : Event} (hquiet : (e.handle s).2 = false) (hwork : (e.handle s).1.adminState = true) :
    (e.handle s).1.All Port.Linked := by
  cases e with
  | stpmSetCfg cfg =>
    simp only [Event.handle] at hwork hquiet ⊢
    split at hwork
    · next herr =>
      rw [if_pos herr]
      exact h hwork
    · next herr =>
      rw [if_neg herr] at hquiet ⊢
      split at hwork
      · cases hwork
      · next hoff =>
        rw [if_neg hoff] at hquiet ⊢
        split at hwork
        · next hon =>
          rw [if_pos hon, if_neg hne] at hquiet
          cases hquiet
        · next hon =>
          rw [if_neg hon]
          split at hwork
          · next hadmin =>
            rw [if_pos hadmin]
            have hlinked : (storeCfg s cfg).All Port.Linked := h hadmin
            exact hlinked.mapPorts (fun q _ hq => hq)
          · next hadmin => exact absurd hwork hadmin
  | setPortCfg is cfg => cases hquiet
  | oneSecond links =>
    simp only [Event.handle] at hwork hquiet
    split at hwork
    · next hadmin =>
      rw [if_pos hadmin] at hquiet
      cases hquiet
    · next hadmin => exact absurd hwork hadmin
  | rxBpdu i bpdu =>
    simp only [Event.handle] at hwork hquiet ⊢
    split at hwork
    · next hadmin =>
      rw [hadmin] at hwork
      cases hwork
    · next hadmin =>
      have hon : s.adminState = true := by simpa using hadmin
      rw [if_neg hadmin] at hquiet ⊢
      split at hquiet
      · next hfind =>
        rw [if_pos hfind]
        exact h hon
      · cases hquiet
  | changedPortSpeed i speed =>
    simp only [Event.handle] at hwork ⊢
    split at hwork
    · next hadmin =>
      rw [if_pos hadmin]
      exact (h hadmin).modifyPort (fun q hq => hq)
    · next hadmin => exact absurd hwork hadmin
  | changedPortDuplex i b =>
    simp only [Event.handle] at hwork ⊢
    split at hwork
    · next hadmin =>
      rw [if_pos hadmin]
      exact (h hadmin).modifyPort (fun q hq => hq)
    · next hadmin => exact absurd hwork hadmin
  | duplex i b => exact (h hwork).modifyPort (fun q hq => hq)

/-- A bridge that works has come to rest. -/
inductive RestsBy (G : Event → Prop) (s : Stpm) : Prop
  | intro {t : Stpm} {e : Event} (reach : ReachableBy G t) (event : G e)
    (work : (e.handle t).2 = true) (step : Step t e s) (on : s.adminState = true)

/-- A bridge that works has come to rest, whatever has happened to it. -/
def Rests : Stpm → Prop := RestsBy (fun _ => True)

theorem RestsBy.rests {G : Event → Prop} {s : Stpm} (h : RestsBy G s) : Rests s := by
  obtain ⟨reach, -, work, step, on⟩ := h
  exact .intro (reach.mono (fun _ _ => trivial)) trivial work step on

theorem RestsBy.reachable {G : Event → Prop} {s : Stpm} (h : RestsBy G s) : ReachableBy G s := by
  obtain ⟨reach, event, -, step, -⟩ := h
  exact .step _ reach event step

theorem RestsBy.admin {G : Event → Prop} {s : Stpm} (h : RestsBy G s) : s.adminState = true := by
  obtain ⟨-, -, -, -, on⟩ := h
  exact on

theorem RestsBy.settled {G : Event → Prop} {s : Stpm} (h : RestsBy G s) : s.Settled := by
  obtain ⟨reach, -, work, step, -⟩ := h
  rw [Step, if_pos work] at step
  exact step.settled (by rw [Stpm.Distinct, handle_indices]; exact reach.distinct)

theorem RestsBy.linked {G : Event → Prop} {s : Stpm} (h : RestsBy G s) : s.All Port.Linked := by
  have hdue := h.settled.not_due h.reachable.ok
  exact fun p hp => Port.linked_of_not_due (fun hp' => hdue (Or.inr ⟨p, hp, hp'⟩))

/-- A bridge that a run and one more event bring to rest, looked at. -/
theorem exists_restsBy {G : Event → Prop} (fuel : Nat) {s : Stpm} (hs : ReachableBy G s)
    (es : List Event) (e : Event) (f : Stpm → Bool) (hes : ∀ x ∈ es, G x) (he : G e)
    (h : (run? fuel s es).any (fun t => (e.handle t).2 &&
      (step? fuel t e).any (fun s' => s'.adminState && f s')) = true) :
    ∃ s', RestsBy G s' ∧ f s' = true := by
  obtain ⟨t, hrun, ht⟩ := exists_run_of_run? fuel s es _ h
  rw [Bool.and_eq_true, Option.any_eq_true] at ht
  obtain ⟨hwork, s', hstep, hs'⟩ := ht
  rw [Bool.and_eq_true] at hs'
  exact ⟨s', .intro (hrun.reachableBy hes hs) he hwork (step_of_step? hstep) hs'.1, hs'.2⟩

section Runs

variable {K : Port → Prop} {Q : Stpm → Prop} (hQ : Selection K Q)
include hQ

theorem Selection.happens {s : Stpm} {f : Port → Port} (h : Fresh Q s)
    (hf : ∀ p ∈ s.ports, Happens p (f p)) : Fresh Q (s.mapPorts f) := by
  by_cases hdue : ∃ p ∈ s.ports, (f p).Due
  · obtain ⟨p, hp, hdue⟩ := hdue
    exact ⟨h.asked.mapPorts (fun q hq => (hf q hq).asked), Or.inl (Stpm.due_mapPorts hp hdue)⟩
  · refine hQ.of_basis h (Stpm.basis_mapPorts_self (fun p hp => ?_))
    exact (hf p hp).seen.resolve_left (fun hp' => hdue ⟨p, hp, hp'⟩)

/-- What an event makes of a bridge, if that works. -/
theorem Selection.handle {s : Stpm} (hne : s.ports ≠ []) (h : s.adminState = true → Between Q s)
    {e : Event} (hwork : (e.handle s).1.adminState = true) : Fresh Q (e.handle s).1 := by
  cases e with
  | stpmSetCfg cfg =>
    simp only [Event.handle] at hwork ⊢
    split at hwork
    · next herr =>
      rw [if_pos herr]
      exact (h hwork).fresh
    · next herr =>
      rw [if_neg herr]
      split at hwork
      · cases hwork
      · next hoff =>
        rw [if_neg hoff]
        split at hwork
        · next hon =>
          rw [if_pos hon, if_neg hne]
          have hbegin : RoleselState.begin ≠ .roleSelection := by decide
          refine ⟨?_, Or.inl (Or.inl hbegin)⟩
          intro p hp
          obtain ⟨q, -, rfl⟩ := List.mem_map.mp hp
          exact Or.inl (initMachines_reselect _ q)
        · next hon =>
          rw [if_neg hon]
          split at hwork
          · next hadmin =>
            rw [if_pos hadmin]
            obtain ⟨p, hp⟩ := List.exists_mem_of_ne_nil s.ports hne
            have hasked : (storeCfg s cfg).All Port.Asked := (h hadmin).fresh.asked
            exact ⟨hasked.mapPorts (fun q _ _ => Or.inl rfl),
              Or.inl (Stpm.due_mapPorts (s := storeCfg s cfg) hp (Or.inl rfl))⟩
          · next hadmin => exact absurd hwork hadmin
  | setPortCfg is cfg =>
    refine hQ.happens (h hwork).fresh (fun p _ => ?_)
    split
    · exact .reselect rfl
    · exact .unseen rfl
  | oneSecond links =>
    simp only [Event.handle] at hwork ⊢
    split at hwork
    · next hadmin =>
      rw [if_pos hadmin]
      exact hQ.happens (h hadmin).fresh (fun p hp => oneSecondPort_happens ((h hadmin).linked p hp))
    · next hadmin => exact absurd hwork hadmin
  | rxBpdu i bpdu =>
    simp only [Event.handle] at hwork ⊢
    split at hwork
    · next hadmin =>
      rw [hadmin] at hwork
      cases hwork
    · next hadmin =>
      have hon : s.adminState = true := by simpa using hadmin
      rw [if_neg hadmin]
      split
      · exact (h hon).fresh
      · refine hQ.happens (h hon).fresh (fun p hp => ?_)
        split
        · exact rxBpduPort_happens ((h hon).linked p hp)
        · exact .unseen rfl
  | changedPortSpeed i speed =>
    simp only [Event.handle] at hwork ⊢
    split at hwork
    · next hadmin =>
      rw [if_pos hadmin]
      refine hQ.happens (h hadmin).fresh (fun p hp => ?_)
      split
      · exact .reselect rfl
      · exact .unseen rfl
    · next hadmin => exact absurd hwork hadmin
  | changedPortDuplex i b =>
    simp only [Event.handle] at hwork ⊢
    split at hwork
    · next hadmin =>
      rw [if_pos hadmin]
      refine hQ.happens (h hadmin).fresh (fun p hp => ?_)
      split
      · exact .reselect rfl
      · exact .unseen rfl
    · next hadmin => exact absurd hwork hadmin
  | duplex i b =>
    refine hQ.happens (h hwork).fresh (fun p hp => ?_)
    split <;> exact .unseen rfl

variable {G : Event → Prop} (hM : MachineInvariant K) (hE : EventInvariant G K)
  (hK : ∀ p, K p → p.Ok)
include hM hE hK

/-- A step of a bridge that works. -/
theorem Selection.step {s s' : Stpm} {e : Event} (hs : s.Distinct) (hall : s.All K)
    (hne : s.ports ≠ []) (h : s.adminState = true → Between Q s) (he : G e) (hstep : Step s e s')
    (hadmin : s'.adminState = true) : Between Q s' := by
  have hhandle : (e.handle s).1.All K := hE.handle hM hall he
  rw [Step] at hstep
  split at hstep
  · have hd : (e.handle s).1.Distinct := by rw [Stpm.Distinct, handle_indices]; exact hs
    have hfresh := hQ.handle hne h (hstep.adminState.symm.trans hadmin)
    have hok : s'.All Port.Ok := fun p hp => hK p ((Updates.all hM hd hhandle hstep).2 p hp)
    have hdue := (hstep.settled hd).not_due hok
    exact ⟨hQ.updates hM hK hd hhandle hfresh hstep,
      fun p hp => Port.linked_of_not_due (fun hp' => hdue (Or.inr ⟨p, hp, hp'⟩))⟩
  · next hquiet =>
    rw [← hstep] at hadmin ⊢
    exact ⟨hQ.handle hne h hadmin,
      handle_linked hne (fun hon => (h hon).linked) (by simpa using hquiet) hadmin⟩

theorem Selection.reachable (hcreate : ∀ t i, i ∈ List.range' 1 numberOfPorts → K (portCreate t i))
    {s : Stpm} (h : ReachableBy G s) (hne : s.ports ≠ []) (hadmin : s.adminState = true) :
    Between Q s := by
  induction h with
  | create prio maxAge helloTime forwardDelay forceVersion mac portBmp => cases hadmin
  | @step s s' e hs hG hstep ih =>
    have hne' : s.ports ≠ [] := by
      intro hnil
      have hidx := hstep.indices hs.distinct
      rw [hnil, List.map_nil, List.map_eq_nil_iff] at hidx
      exact hne hidx
    exact hQ.step hM hE hK hs.distinct (hs.all hM hE hcreate) hne' (ih hne') hG hstep hadmin

/-- **Rest rule.**  What role selection brings about and `UPDATE` keeps holds whenever a bridge that
works has come to rest. -/
theorem Selection.rests (hcreate : ∀ t i, i ∈ List.range' 1 numberOfPorts → K (portCreate t i))
    {s : Stpm} (h : RestsBy G s) (hne : s.ports ≠ []) :
    s.All (fun p => p.selected = true) ∧ Q s := by
  have hall : s.All K := h.reachable.all hM hE hcreate
  have hbetween := hQ.reachable hM hE hK hcreate h.reachable hne h.admin
  refine ⟨fun p hp => ?_, ?_⟩
  · have hreselect := (h.settled.ports p hp).reselect
    exact (hbetween.fresh.asked p hp).resolve_left (by simp [hreselect])
  · exact hbetween.fresh.good.resolve_left (h.settled.not_due (fun p hp => hK p (hall p hp)))

end Runs

end Opconn.Rstp
