import Opconn.Vos.TimerScan

/-!
# The wheel at all times

Lists, states and the allocation bitmap are edited separately by every call.  They agree
in every reachable state, whatever the cursor of the scan stands on, as long as a timer
is started only while its caller has it and released only while it does not run:
`vosTimerStart` does not look for a free timer, and `vosTimerRelease` does not unlink.
-/

namespace Opconn.Vos

open DList Runs

/-! ### Steps -/

/-- A step of the timer module, calls of `vosTimerRelease` included. -/
inductive HolderEvent where
  | timer (e : TimerEvent)
  | release (pstTimer : Option TimerId)
deriving DecidableEq, Repr

def holderStep (w : Wheel) : HolderEvent → Wheel
  | .timer e => timerStep w e
  | .release none => w
  | .release (some t) => if w.phase.mutexFree then vosTimerRelease w t else w

/-- Callers release only timers they were handed. -/
def releasesHeld (w : Wheel) : HolderEvent → Prop
  | .release (some t) => w.phase.mutexFree = true → (w.tbl t).stState ≠ .free
  | _ => True

/-- **The condition on a step.**  A timer that is started is not free, and one that is
released does not run. -/
def keepsWheel (w : Wheel) : HolderEvent → Prop
  | .timer (.op (.start (some t) stType _ _ _)) =>
    w.phase.mutexFree = true → stType = .reocurring ∨ stType = .oneShot →
      (w.tbl t).stState ≠ .free
  | .release (some t) => w.phase.mutexFree = true → (w.tbl t).stState ≠ .running
  | _ => True

instance (w : Wheel) : (e : HolderEvent) → Decidable (releasesHeld w e)
  | .release (some t) =>
    inferInstanceAs (Decidable (w.phase.mutexFree = true → (w.tbl t).stState ≠ .free))
  | .release none => inferInstanceAs (Decidable True)
  | .timer _ => inferInstanceAs (Decidable True)

instance (w : Wheel) : (e : HolderEvent) → Decidable (keepsWheel w e)
  | .timer (.op (.start (some t) stType _ _ _)) =>
    inferInstanceAs (Decidable (w.phase.mutexFree = true →
      stType = .reocurring ∨ stType = .oneShot → (w.tbl t).stState ≠ .free))
  | .timer (.op (.start none _ _ _ _)) => inferInstanceAs (Decidable True)
  | .timer (.op .getFree) => inferInstanceAs (Decidable True)
  | .timer (.op (.cancel _)) => inferInstanceAs (Decidable True)
  | .timer (.op (.reSchedule _ _)) => inferInstanceAs (Decidable True)
  | .timer .tick => inferInstanceAs (Decidable True)
  | .timer .scan => inferInstanceAs (Decidable True)
  | .release (some t) =>
    inferInstanceAs (Decidable (w.phase.mutexFree = true → (w.tbl t).stState ≠ .running))
  | .release none => inferInstanceAs (Decidable True)

/-- **What is to hold of the wheel**: every slot is a doubly linked list, a running timer is
on the list of the slot its index names and on no other, a timer that does not run is on
none, and the bitmap marks the timers that are not free. -/
structure WheelSound (w : Wheel) : Prop where
  lists : ∃ slots : Nat → List TimerId, Chains w.links w.calendar slots ∧
    (∀ t, (w.tbl t).stState = .running →
      (w.tbl t).ulCalIndex < calendarSize ∧ ∀ k, t ∈ slots k ↔ k = (w.tbl t).ulCalIndex) ∧
    ∀ t, (w.tbl t).stState ≠ .running → ∀ k, t ∉ slots k
  map : ∀ t : TimerId, w.opTimerMap t.val = true ↔ (w.tbl t).stState ≠ .free

/-! ### The invariant -/

/-- A bit is set only for a timer that is not free; the converse is part of `Linked`. -/
def Mapped (w : Wheel) : Prop :=
  ∀ t : TimerId, w.opTimerMap t.val = true → (w.tbl t).stState ≠ .free

structure Kept (w : Wheel) : Prop where
  linked : ∃ slots, Linked w slots
  mapped : Mapped w

theorem Kept.sound {w : Wheel} (h : Kept w) : WheelSound w := by
  obtain ⟨slots, hlinked⟩ := h.linked
  refine ⟨⟨slots, hlinked.chains, ?_, ?_⟩, ?_⟩
  · intro t hrun
    refine ⟨hlinked.index t hrun, ?_⟩
    intro k
    rw [hlinked.mem_iff]
    constructor
    · rintro ⟨-, hk⟩
      exact hk.symm
    · intro hk
      exact ⟨hrun, hk.symm⟩
  · intro t hnot k hmem
    exact hnot ((hlinked.mem_iff t k).mp hmem).1
  · intro t
    constructor
    · exact h.mapped t
    · intro hne
      exact (hlinked.taken t hne).2

theorem kept_init : Kept vosTimerInit := by
  refine ⟨⟨_, scanning_init.linked⟩, ?_⟩
  intro t hbit
  cases hbit

/-- The task's phase and the ghost counters are not part of the invariant. -/
theorem Kept.of_same {w w' : Wheel} (h : Kept w) (htbl : w'.tbl = w.tbl)
    (hmap : w'.opTimerMap = w.opTimerMap) (hcalendar : w'.calendar = w.calendar) : Kept w' := by
  obtain ⟨slots, hlinked⟩ := h.linked
  have hlinks : w'.links = w.links := by rw [Wheel.links, htbl, Wheel.links]
  refine ⟨⟨slots, ?_, ?_, ?_, ?_, ?_⟩, ?_⟩
  · rw [hlinks, hcalendar]
    exact hlinked.chains
  · rw [htbl]
    exact hlinked.mem_iff
  · rw [htbl]
    exact hlinked.index
  · rw [htbl]
    exact hlinked.typed
  · rw [htbl, hmap]
    exact hlinked.taken
  · intro t
    rw [htbl, hmap]
    exact h.mapped t

theorem Mapped.of_onlyTimer {w w' : Wheel} (h : Mapped w) {t : TimerId}
    (hother : OnlyTimer t w w')
    (hself : w'.opTimerMap t.val = true → (w'.tbl t).stState ≠ .free) : Mapped w' := by
  intro s hbit
  by_cases hs : s = t
  · rw [hs] at hbit ⊢
    exact hself hbit
  · have hval : s.val ≠ t.val := fun heq => hs (Fin.ext heq)
    rw [hother.opTimerMap s.val hval] at hbit
    rw [hother.stState hs]
    exact h s hbit

/-! ### Calls -/

theorem Kept.cancel {w : Wheel} (h : Kept w) (t : TimerId) : Kept (cancelTimer w t) := by
  by_cases hfree : (w.tbl t).stState = .free
  · have hsame : cancelTimer w t = w := by simp only [cancelTimer, hfree]
    rw [hsame]
    exact h
  · obtain ⟨slots, hlinked⟩ := h.linked
    obtain ⟨hlinked', hother, -, hbit⟩ := hlinked.cancel hfree
    refine ⟨⟨_, hlinked'⟩, h.mapped.of_onlyTimer hother ?_⟩
    intro htrue
    rw [hbit] at htrue
    cases htrue

theorem Kept.reSchedule {w : Wheel} (h : Kept w) (t : TimerId) (ulTimeout : Nat) :
    Kept (reScheduleTimer w t ulTimeout) := by
  by_cases hrun : (w.tbl t).stState = .running
  · obtain ⟨slots, hlinked⟩ := h.linked
    obtain ⟨hlinked', hother, hscheduled, -⟩ := hlinked.reSchedule hrun ulTimeout
    refine ⟨⟨_, hlinked'⟩, h.mapped.of_onlyTimer hother ?_⟩
    intro _
    rw [hscheduled.stState]
    simp
  · have hsame : reScheduleTimer w t ulTimeout = w := by
      unfold reScheduleTimer
      cases hstate : (w.tbl t).stState with
      | free => rfl
      | taken => rfl
      | running => exact absurd hstate hrun
    rw [hsame]
    exact h

theorem Kept.getFree {w : Wheel} (h : Kept w) : Kept (vosTimerGetFree w).2 := by
  cases hclear : firstClear w with
  | none =>
    have hsame : (vosTimerGetFree w).2 = w := by simp only [vosTimerGetFree, hclear]
    rw [hsame]
    exact h
  | some t =>
    obtain ⟨slots, hlinked⟩ := h.linked
    obtain ⟨hlinked', hother, -, htaken⟩ := hlinked.getFree hclear
    refine ⟨⟨_, hlinked'⟩, h.mapped.of_onlyTimer hother ?_⟩
    intro _
    rw [htaken]
    simp

theorem Kept.start {w : Wheel} (h : Kept w) (t : TimerId) (stType : TimerType) (ulTimeout : Nat)
    (pstCallBack : Option FuncPtr) (args : List UInt32)
    (hheld : stType = .reocurring ∨ stType = .oneShot → (w.tbl t).stState ≠ .free) :
    Kept (vosTimerStart w (some t) stType ulTimeout pstCallBack args).2 := by
  by_cases htype : stType = .reocurring ∨ stType = .oneShot
  · cases hstate : (w.tbl t).stState with
    | free => exact absurd hstate (hheld htype)
    | taken =>
      obtain ⟨slots, hlinked⟩ := h.linked
      obtain ⟨hlinked', hother, hscheduled, -⟩ :=
        hlinked.start hstate htype ulTimeout pstCallBack args
      refine ⟨⟨_, hlinked'⟩, h.mapped.of_onlyTimer hother ?_⟩
      intro _
      rw [hscheduled.stState]
      simp
    | running =>
      have hsame : (vosTimerStart w (some t) stType ulTimeout pstCallBack args).2 = w := by
        simp only [vosTimerStart, hstate]
        split <;> rfl
      rw [hsame]
      exact h
  · have hsame : (vosTimerStart w (some t) stType ulTimeout pstCallBack args).2 = w := by
      simp only [vosTimerStart, if_pos (not_or.mp htype)]
    rw [hsame]
    exact h

/-- A timer that is taken is on no list, so that it can be released as it is. -/
theorem Kept.release {w : Wheel} (h : Kept w) {t : TimerId} (hstate : (w.tbl t).stState = .taken) :
    Kept (vosTimerRelease w t) := by
  have hcancel := h.cancel t
  have hsame : cancelTimer w t = vosTimerRelease w t := by simp only [cancelTimer, hstate]
  rwa [hsame] at hcancel

/-! ### The scan -/

/-- A visit cancels the object under the cursor, schedules it again or passes it; it is
not asked whether the object is still on the list. -/
theorem Kept.visit {w : Wheel} (h : Kept w) (p : TimerId) : Kept (scanVisit w p) := by
  unfold scanVisit
  dsimp only
  split
  · split
    · split
      · exact (h.cancel p).of_same rfl rfl rfl
      · exact (h.reSchedule p _).of_same rfl rfl rfl
      · exact (h.cancel p).of_same rfl rfl rfl
    · exact (h.cancel p).of_same rfl rfl rfl
  · exact h.of_same rfl rfl rfl

theorem Kept.tick {w : Wheel} (h : Kept w) : Kept (timerTick w) := by
  unfold timerTick
  dsimp only
  split
  · exact h.of_same rfl rfl rfl
  · exact h.of_same rfl rfl rfl

theorem Kept.scan {w : Wheel} (h : Kept w) : Kept (timerStep w .scan) := by
  cases hphase : w.phase with
  | idle =>
    simp only [timerStep, hphase]
    exact h
  | holding pCurr =>
    cases pCurr with
    | none =>
      simp only [timerStep, hphase]
      exact h.of_same rfl rfl rfl
    | some p =>
      simp only [timerStep, hphase]
      exact h.visit p
  | inCallback pCurr =>
    simp only [timerStep, hphase]
    exact h.of_same rfl rfl rfl

/-! ### The condition is enough -/

theorem Kept.perform {w : Wheel} (h : Kept w) {o : TimerOp} (hfree : w.phase.mutexFree = true)
    (hok : keepsWheel w (.timer (.op o))) : Kept (Vos.perform w o) := by
  cases o with
  | getFree => exact h.getFree
  | start pstTimer stType ulTimeout pstCallBack args =>
    cases pstTimer with
    | none => exact h
    | some t => exact h.start t stType _ pstCallBack args (hok hfree)
  | cancel pstTimer =>
    cases pstTimer with
    | none => exact h
    | some t => exact h.cancel t
  | reSchedule pstTimer ulTimeout =>
    cases pstTimer with
    | none => exact h
    | some t => exact h.reSchedule t _

/-- Every step that meets the condition keeps the wheel. -/
theorem Kept.step {w : Wheel} (h : Kept w) {e : HolderEvent} (hheld : releasesHeld w e)
    (hok : keepsWheel w e) : Kept (holderStep w e) := by
  cases e with
  | timer e =>
    cases e with
    | op o =>
      simp only [holderStep, timerStep]
      split
      · rename_i hfree
        exact h.perform hfree hok
      · exact h
    | tick =>
      simp only [holderStep, timerStep]
      split
      · exact h.tick
      · exact h
    | scan => exact h.scan
  | release pstTimer =>
    cases pstTimer with
    | none => exact h
    | some t =>
      simp only [holderStep]
      split
      · rename_i hfree
        apply h.release
        cases hstate : (w.tbl t).stState with
        | free => exact absurd hstate (hheld hfree)
        | taken => rfl
        | running => exact absurd hstate (hok hfree)
      · exact h

/-! ### The condition is necessary -/

/-- A free timer that is started runs without its bit. -/
theorem not_sound_start {w : Wheel} (h : Kept w) {t : TimerId} {stType : TimerType}
    (htype : stType = .reocurring ∨ stType = .oneShot) (hfree : (w.tbl t).stState = .free)
    (ulTimeout : Nat) (pstCallBack : Option FuncPtr) (args : List UInt32) :
    ¬WheelSound (vosTimerStart w (some t) stType ulTimeout pstCallBack args).2 := by
  intro hsound
  have hvalid : ¬(stType ≠ .reocurring ∧ stType ≠ .oneShot) := by
    rcases htype with rfl | rfl <;> simp
  let w₁ := w.modify t fun o =>
    { o with
      stState := .running
      stType := stType
      pstCallBackFunc := pstCallBack
      ulCallBackArgs := args }
  have hstart : (vosTimerStart w (some t) stType ulTimeout pstCallBack args).2 =
      linkFront (schedule w₁ t ulTimeout) t := by
    simp only [vosTimerStart, if_neg hvalid, hfree]
    rfl
  obtain ⟨hrel, -, -⟩ := linkFront_spec (schedule w₁ t ulTimeout) t
  rw [hstart] at hsound
  have hbit : w.opTimerMap t.val = true := by
    have hmap := hsound.map t
    rw [hrel.opTimerMap] at hmap
    apply hmap.mpr
    rw [(data_eq_iff.mp (hrel.data t)).1]
    simp [w₁, schedule_eq, Wheel.modify, scheduledObj]
  exact h.mapped t hbit hfree

/-- A running timer that is released stays on its list. -/
theorem not_sound_release {w : Wheel} (h : Kept w) {t : TimerId}
    (hrun : (w.tbl t).stState = .running) : ¬WheelSound (vosTimerRelease w t) := by
  rintro ⟨⟨slots', hchains', -, hidle⟩, -⟩
  obtain ⟨slots, hlinked⟩ := h.linked
  have hmem : t ∈ slots (w.tbl t).ulCalIndex := (hlinked.mem_iff t _).mpr ⟨hrun, rfl⟩
  have hfree : ((vosTimerRelease w t).tbl t).stState ≠ .running := by
    simp [vosTimerRelease, Wheel.modify, timerObjInit]
  refine hidle t hfree (w.tbl t).ulCalIndex ?_
  refine (hlinked.chains.chain _).mem_of_agree (hchains'.chain _) ?_ hmem
  intro s hs
  simp [Wheel.links, vosTimerRelease, Wheel.modify, hs]

theorem keepsWheel_of_sound {w : Wheel} (h : Kept w) {e : HolderEvent}
    (hsound : WheelSound (holderStep w e)) : keepsWheel w e := by
  cases e with
  | timer e =>
    cases e with
    | op o =>
      cases o with
      | start pstTimer stType ulTimeout pstCallBack args =>
        cases pstTimer with
        | none => trivial
        | some t =>
          intro hmutex htype hfree
          rw [holderStep, timerStep, if_pos hmutex] at hsound
          exact not_sound_start h htype hfree _ _ _ hsound
      | getFree => trivial
      | cancel pstTimer => trivial
      | reSchedule pstTimer ulTimeout => trivial
    | tick => trivial
    | scan => trivial
  | release pstTimer =>
    cases pstTimer with
    | none => trivial
    | some t =>
      intro hmutex hrun
      rw [holderStep, if_pos hmutex] at hsound
      exact not_sound_release h hrun hsound

/-! ### Runs -/

/-- **The wheel is sound in every state of a run exactly when every step of the run meets
the condition**, callers releasing only timers they were handed. -/
theorem wheel_sound (es : List HolderEvent)
    (hheld : AllSteps holderStep releasesHeld vosTimerInit es) :
    AllStates holderStep WheelSound vosTimerInit es ↔
      AllSteps holderStep keepsWheel vosTimerInit es :=
  allStates_iff_allSteps holderStep Kept (fun _ hw => hw.sound)
    (fun _ _ hw hheld hok => hw.step hheld hok)
    (fun _ _ hw _ hsound => keepsWheel_of_sound hw hsound) kept_init hheld

/-- Two timers, of which one is started, rescheduled and cancelled and the other released. -/
theorem wheel_sound_two_timers :
    ∃ es, AllSteps holderStep releasesHeld vosTimerInit es ∧
      AllSteps holderStep keepsWheel vosTimerInit es ∧
      AllStates holderStep WheelSound vosTimerInit es := by
  refine ⟨[.timer (.op .getFree), .timer (.op .getFree),
    .timer (.op (.start (some 0) .reocurring 100 (some 1) [])), .timer .tick, .timer .scan,
    .timer (.op (.reSchedule (some 0) 500)), .timer (.op (.cancel (some 0))),
    .release (some 1)], ?_, ?_, ?_⟩
  · decide +kernel
  · decide +kernel
  · exact (wheel_sound _ (by decide +kernel)).mpr (by decide +kernel)

/-- A timer is released by its holder while it runs: it is free, and still on its list. -/
theorem released_while_running_stays_linked :
    ¬AllStates holderStep WheelSound vosTimerInit
      [.timer (.op .getFree), .timer (.op (.start (some 0) .oneShot 100 (some 1) [])),
        .release (some 0)] := by
  intro hall
  have hkept : Kept (holderStep (holderStep vosTimerInit (.timer (.op .getFree)))
      (.timer (.op (.start (some 0) .oneShot 100 (some 1) [])))) := by
    apply Kept.step
    · exact kept_init.step trivial trivial
    · trivial
    · decide +kernel
  refine not_sound_release hkept (t := 0) ?_ hall.last
  decide +kernel

end Opconn.Vos
