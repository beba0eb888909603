import Opconn.Lib.DList
import Opconn.Vos.Timer

/-!
# The lists of the wheel

The calls of `Timer` work on pointers.  Here each of them is read as an operation
on lists: `Linked w slots` says that the pointers of `w` represent the lists
`slots`, one per calendar slot, and that a timer is on a list exactly while it
runs.  Starting a timer puts it in front of its slot, cancelling it filters it
out, rescheduling does both.
-/

namespace Opconn.Vos

open DList

/-! ### Pointers and data apart -/

def Wheel.links (w : Wheel) : Links TimerId where
  next := fun t => (w.tbl t).pstNext
  prev := fun t => (w.tbl t).pstPrev

/-- An object without its pointers. -/
def TimerObj.data (o : TimerObj) : TimerObj := { o with pstPrev := none, pstNext := none }

/-- `w'` differs from `w` in pointers and slot heads only. -/
structure Relinked (w w' : Wheel) : Prop where
  data : ∀ t, (w'.tbl t).data = (w.tbl t).data
  opTimerMap : w'.opTimerMap = w.opTimerMap
  ucHand : w'.ucHand = w.ucHand
  ulClockWrap : w'.ulClockWrap = w.ulClockWrap
  phase : w'.phase = w.phase
  ticks : w'.ticks = w.ticks
  fired : w'.fired = w.fired

theorem Relinked.refl (w : Wheel) : Relinked w w := ⟨fun _ => rfl, rfl, rfl, rfl, rfl, rfl, rfl⟩

theorem Relinked.trans {w w' w'' : Wheel} (h : Relinked w w') (h' : Relinked w' w'') :
    Relinked w w'' where
  data := fun t => (h'.data t).trans (h.data t)
  opTimerMap := h'.opTimerMap.trans h.opTimerMap
  ucHand := h'.ucHand.trans h.ucHand
  ulClockWrap := h'.ulClockWrap.trans h.ulClockWrap
  phase := h'.phase.trans h.phase
  ticks := h'.ticks.trans h.ticks
  fired := h'.fired.trans h.fired

theorem relinked_setSlot (w : Wheel) (k : Nat) (head : Option TimerId) :
    Relinked w (w.setSlot k head) := ⟨fun _ => rfl, rfl, rfl, rfl, rfl, rfl, rfl⟩

theorem relinked_modify (w : Wheel) (t : TimerId) {f : TimerObj → TimerObj}
    (hf : ∀ o, (f o).data = o.data) : Relinked w (w.modify t f) := by
  refine ⟨?_, rfl, rfl, rfl, rfl, rfl, rfl⟩
  intro s
  by_cases hs : s = t
  · subst hs
    simp [Wheel.modify, hf]
  · simp [Wheel.modify, hs]

theorem links_setSlot (w : Wheel) (k : Nat) (head : Option TimerId) :
    (w.setSlot k head).links = w.links := rfl

theorem links_modify_next (w : Wheel) (t : TimerId) (v : Option TimerId) :
    (w.modify t fun o => { o with pstNext := v }).links =
      { w.links with next := Function.update w.links.next t v } := by
  unfold Wheel.links Wheel.modify
  congr 1
  · funext s
    by_cases hs : s = t
    · subst hs
      simp
    · simp [hs]
  · funext s
    by_cases hs : s = t
    · subst hs
      simp
    · simp [hs]

theorem links_modify_prev (w : Wheel) (t : TimerId) (v : Option TimerId) :
    (w.modify t fun o => { o with pstPrev := v }).links =
      { w.links with prev := Function.update w.links.prev t v } := by
  unfold Wheel.links Wheel.modify
  congr 1
  · funext s
    by_cases hs : s = t
    · subst hs
      simp
    · simp [hs]
  · funext s
    by_cases hs : s = t
    · subst hs
      simp
    · simp [hs]

/-! ### The two pointer operations -/

/-- `linkFront` inserts at the front of the slot the object is scheduled for. -/
theorem linkFront_spec (w : Wheel) (t : TimerId) :
    Relinked w (linkFront w t) ∧
      (linkFront w t).links = pushFront w.links (w.calendar (w.tbl t).ulCalIndex) t ∧
      (linkFront w t).calendar =
        Function.update w.calendar (w.tbl t).ulCalIndex (some t) := by
  have hdata : ∀ (v : Option TimerId) (o : TimerObj),
      TimerObj.data { o with pstNext := v } = o.data ∧
        TimerObj.data { o with pstPrev := v } = o.data := fun _ _ => ⟨rfl, rfl⟩
  -- the object itself before the old head is told about it
  let k := (w.tbl t).ulCalIndex
  let w₁ := w.modify t fun o => { o with pstNext := w.calendar k }
  let w₂ := w₁.setSlot k (some t)
  let w₃ := w₂.modify t fun o => { o with pstPrev := none }
  have hrel : Relinked w w₃ :=
    ((relinked_modify w t fun o => (hdata _ o).1).trans (relinked_setSlot w₁ k _)).trans
      (relinked_modify w₂ t fun o => (hdata _ o).2)
  have hlinks : w₃.links =
      { next := Function.update w.links.next t (w.calendar k),
        prev := Function.update w.links.prev t none } := by
    rw [links_modify_prev, links_setSlot, links_modify_next]
  have hnext : (w₃.tbl t).pstNext = w.calendar k := by
    simp [w₃, w₂, w₁, Wheel.modify, Wheel.setSlot]
  change _ ∧ _ = pushFront w.links (w.calendar k) t ∧ _
  cases hhead : w.calendar k with
  | none =>
    have hlink : linkFront w t = w₃ := by
      unfold linkFront
      simp only
      split
      · rename_i n hn
        cases hn.symm.trans (hnext.trans hhead)
      · rfl
    rw [hhead] at hlinks
    rw [hlink]
    refine ⟨hrel, ?_, rfl⟩
    rw [hlinks]
    rfl
  | some n =>
    have hlink : linkFront w t = w₃.modify n fun o => { o with pstPrev := some t } := by
      unfold linkFront
      simp only
      split
      · rename_i m hm
        cases hm.symm.trans (hnext.trans hhead)
        rfl
      · rename_i hm
        cases hm.symm.trans (hnext.trans hhead)
    rw [hhead] at hlinks
    rw [hlink]
    refine ⟨hrel.trans (relinked_modify w₃ n fun o => (hdata _ o).2), ?_, rfl⟩
    rw [links_modify_prev, hlinks]
    rfl

/-- `unlinkFrom` joins the neighbours of an object that is no neighbour of itself. -/
theorem unlinkFrom_spec (w : Wheel) (k : Nat) (t : TimerId)
    (hprev : w.links.prev t ≠ some t) (hnext : w.links.next t ≠ some t) :
    Relinked w (unlinkFrom w k t) ∧
      (unlinkFrom w k t).links = unlink w.links t ∧
      (unlinkFrom w k t).calendar =
        Function.update w.calendar k (unlinkHead w.links (w.calendar k) t) := by
  have hdata : ∀ (v : Option TimerId) (o : TimerObj),
      TimerObj.data { o with pstNext := v } = o.data ∧
        TimerObj.data { o with pstPrev := v } = o.data := fun _ _ => ⟨rfl, rfl⟩
  have hreadPrev : w.links.prev t = (w.tbl t).pstPrev := rfl
  have hreadNext : w.links.next t = (w.tbl t).pstNext := rfl
  rw [hreadPrev] at hprev
  rw [hreadNext] at hnext
  cases hp : (w.tbl t).pstPrev with
  | none =>
    cases hn : (w.tbl t).pstNext with
    | none =>
      have hform : unlinkFrom w k t = w.setSlot k none := by
        simp [unlinkFrom, hp, hn, Wheel.setSlot]
      rw [hform]
      refine ⟨relinked_setSlot w k none, ?_, ?_⟩
      · simp [links_setSlot, unlink, hreadPrev, hreadNext, hp, hn]
      · simp [Wheel.setSlot, unlinkHead, hreadPrev, hreadNext, hp, hn]
    | some n =>
      have htn : t ≠ n := fun heq => hnext (by rw [hn, heq])
      have hform : unlinkFrom w k t =
          (w.modify n fun o => { o with pstPrev := none }).setSlot k (some n) := by
        simp [unlinkFrom, hp, hn, Wheel.modify, htn]
      rw [hform]
      refine ⟨(relinked_modify w n fun o => (hdata _ o).2).trans (relinked_setSlot _ _ _), ?_, ?_⟩
      · rw [links_setSlot, links_modify_prev]
        simp [unlink, hreadPrev, hreadNext, hp, hn]
      · simp [Wheel.setSlot, Wheel.modify, unlinkHead, hreadPrev, hreadNext, hp, hn]
  | some p =>
    have htp : t ≠ p := fun heq => hprev (by rw [hp, heq])
    cases hn : (w.tbl t).pstNext with
    | none =>
      have hform : unlinkFrom w k t = w.modify p fun o => { o with pstNext := none } := by
        simp [unlinkFrom, hp, hn, Wheel.modify, htp]
      rw [hform]
      refine ⟨relinked_modify w p fun o => (hdata _ o).1, ?_, ?_⟩
      · rw [links_modify_next]
        simp [unlink, hreadPrev, hreadNext, hp, hn]
      · simp [Wheel.modify, unlinkHead, hreadPrev, hp]
    | some n =>
      have htn : t ≠ n := fun heq => hnext (by rw [hn, heq])
      have hform : unlinkFrom w k t =
          (w.modify p fun o => { o with pstNext := some n }).modify n
            fun o => { o with pstPrev := some p } := by
        simp [unlinkFrom, hp, hn, Wheel.modify, htp, htn]
      rw [hform]
      refine ⟨(relinked_modify w p fun o => (hdata _ o).1).trans
        (relinked_modify _ n fun o => (hdata _ o).2), ?_, ?_⟩
      · rw [links_modify_prev, links_modify_next]
        simp [unlink, hreadPrev, hreadNext, hp, hn]
      · simp [Wheel.modify, unlinkHead, hreadPrev, hp]

/-! ### Representation -/

/-- The pointers of `w` represent `slots`, and a timer is on the list of its slot
exactly while it runs; what runs has a type, and what is not free is marked in the
map. -/
structure Linked (w : Wheel) (slots : Nat → List TimerId) : Prop where
  chains : Chains w.links w.calendar slots
  mem_iff : ∀ t k, t ∈ slots k ↔ (w.tbl t).stState = .running ∧ (w.tbl t).ulCalIndex = k
  index : ∀ t, (w.tbl t).stState = .running → (w.tbl t).ulCalIndex < calendarSize
  typed : ∀ t, (w.tbl t).stState = .running → (w.tbl t).stType ≠ .unknown
  taken : ∀ t, (w.tbl t).stState ≠ .free →
    (w.tbl t).ulIndex = t.val ∧ w.opTimerMap t.val = true

/-- `w'` differs from `w` in pointers and in what belongs to `t`. -/
structure OnlyTimer (t : TimerId) (w w' : Wheel) : Prop where
  others : ∀ s, s ≠ t → (w'.tbl s).data = (w.tbl s).data
  opTimerMap : ∀ i, i ≠ t.val → w'.opTimerMap i = w.opTimerMap i
  ucHand : w'.ucHand = w.ucHand
  ulClockWrap : w'.ulClockWrap = w.ulClockWrap
  phase : w'.phase = w.phase
  ticks : w'.ticks = w.ticks
  fired : w'.fired = w.fired

theorem Relinked.onlyTimer {w w' : Wheel} (h : Relinked w w') (t : TimerId) : OnlyTimer t w w' :=
  ⟨fun s _ => h.data s, fun i _ => by rw [h.opTimerMap], h.ucHand, h.ulClockWrap, h.phase, h.ticks,
    h.fired⟩

theorem OnlyTimer.trans {t : TimerId} {w w' w'' : Wheel} (h : OnlyTimer t w w')
    (h' : OnlyTimer t w' w'') : OnlyTimer t w w'' where
  others := fun s hs => (h'.others s hs).trans (h.others s hs)
  opTimerMap := fun i hi => (h'.opTimerMap i hi).trans (h.opTimerMap i hi)
  ucHand := h'.ucHand.trans h.ucHand
  ulClockWrap := h'.ulClockWrap.trans h.ulClockWrap
  phase := h'.phase.trans h.phase
  ticks := h'.ticks.trans h.ticks
  fired := h'.fired.trans h.fired

theorem onlyTimer_modify (w : Wheel) (t : TimerId) (f : TimerObj → TimerObj) :
    OnlyTimer t w (w.modify t f) := by
  refine ⟨?_, fun _ _ => rfl, rfl, rfl, rfl, rfl, rfl⟩
  intro s hs
  simp [Wheel.modify, hs]

/-- The lists without `t`. -/
def without (t : TimerId) (slots : Nat → List TimerId) : Nat → List TimerId :=
  fun k => (slots k).filter (· ≠ t)

theorem mem_without {t s : TimerId} {slots : Nat → List TimerId} {k : Nat} :
    s ∈ without t slots k ↔ s ∈ slots k ∧ s ≠ t := by
  simp [without]

/-- A timer that does not run is on no list, so filtering it out changes nothing. -/
theorem Linked.without_eq {w : Wheel} {slots : Nat → List TimerId} (h : Linked w slots)
    {t : TimerId} (ht : (w.tbl t).stState ≠ .running) : without t slots = slots := by
  funext k
  apply List.filter_eq_self.mpr
  intro s hs
  have hne : s ≠ t := by
    rintro rfl
    exact ht ((h.mem_iff s k).mp hs).1
  simp [hne]

theorem Linked.update_without {w : Wheel} {slots : Nat → List TimerId} (h : Linked w slots)
    (t : TimerId) :
    Function.update slots (w.tbl t).ulCalIndex
        ((slots (w.tbl t).ulCalIndex).filter (· ≠ t)) = without t slots := by
  funext k
  by_cases hk : k = (w.tbl t).ulCalIndex
  · subst hk
    simp [without]
  · rw [Function.update_of_ne hk]
    symm
    apply List.filter_eq_self.mpr
    intro s hs
    have hne : s ≠ t := by
      rintro rfl
      exact hk ((h.mem_iff s k).mp hs).2.symm
    simp [hne]

theorem data_eq_iff {o o' : TimerObj} : o.data = o'.data ↔
    o.stState = o'.stState ∧ o.ulIndex = o'.ulIndex ∧ o.ulCalIndex = o'.ulCalIndex ∧
      o.stType = o'.stType ∧ o.ulTimeOut = o'.ulTimeOut ∧
      o.pstCallBackFunc = o'.pstCallBackFunc ∧ o.ulCallBackArgs = o'.ulCallBackArgs ∧
      o.ulWrapCounter = o'.ulWrapCounter := by
  simp [TimerObj.data]

/-- What a caller needs to know of another timer after a call on `t`. -/
theorem OnlyTimer.stState {t s : TimerId} {w w' : Wheel} (h : OnlyTimer t w w') (hs : s ≠ t) :
    (w'.tbl s).stState = (w.tbl s).stState := (data_eq_iff.mp (h.others s hs)).1

theorem OnlyTimer.ulCalIndex {t s : TimerId} {w w' : Wheel} (h : OnlyTimer t w w')
    (hs : s ≠ t) : (w'.tbl s).ulCalIndex = (w.tbl s).ulCalIndex :=
  (data_eq_iff.mp (h.others s hs)).2.2.1

/-- The invariants of every timer but `t` survive a call on `t`; what remains to be
shown is about `t` alone. -/
theorem Linked.of_onlyTimer {w w' : Wheel} {slots slots' : Nat → List TimerId} {t : TimerId}
    (h : Linked w slots) (hother : OnlyTimer t w w') (hchains : Chains w'.links w'.calendar slots')
    (hsame : ∀ s k, s ≠ t → (s ∈ slots' k ↔ s ∈ slots k))
    (hmem : ∀ k, t ∈ slots' k ↔ (w'.tbl t).stState = .running ∧ (w'.tbl t).ulCalIndex = k)
    (hindex : (w'.tbl t).stState = .running →
      (w'.tbl t).ulCalIndex < calendarSize ∧ (w'.tbl t).stType ≠ .unknown)
    (htaken : (w'.tbl t).stState ≠ .free →
      (w'.tbl t).ulIndex = t.val ∧ w'.opTimerMap t.val = true) : Linked w' slots' where
  chains := hchains
  mem_iff := by
    intro s k
    by_cases hs : s = t
    · subst hs
      exact hmem k
    · rw [hsame s k hs, h.mem_iff s k, hother.stState hs, hother.ulCalIndex hs]
  index := by
    intro s
    by_cases hs : s = t
    · subst hs
      exact fun hrun => (hindex hrun).1
    · rw [hother.stState hs, hother.ulCalIndex hs]
      exact h.index s
  typed := by
    intro s
    by_cases hs : s = t
    · subst hs
      exact fun hrun => (hindex hrun).2
    · have htypeEq : (w'.tbl s).stType = (w.tbl s).stType :=
        (data_eq_iff.mp (hother.others s hs)).2.2.2.1
      rw [hother.stState hs, htypeEq]
      exact h.typed s
  taken := by
    intro s
    by_cases hs : s = t
    · subst hs
      exact htaken
    · have hval : s.val ≠ t.val := fun heq => hs (Fin.ext heq)
      have hindexEq : (w'.tbl s).ulIndex = (w.tbl s).ulIndex :=
        (data_eq_iff.mp (hother.others s hs)).2.1
      rw [hother.stState hs, hother.opTimerMap s.val hval, hindexEq]
      exact h.taken s

/-! ### What the calls do to the lists -/

/-- The slot and the round of the calendar a timeout falls in. -/
def slotOf (w : Wheel) (ulTimeout : Nat) : Nat :=
  (ulTimeout / timerGranularity + w.ucHand) % 2 ^ 32 % calendarSize

def roundOf (w : Wheel) (ulTimeout : Nat) : Nat :=
  ((ulTimeout / timerGranularity + w.ucHand) % 2 ^ 32 / calendarSize + w.ulClockWrap) % 2 ^ 64

/-- The object runs, scheduled by `w` for `ulTimeout` from now. -/
structure Scheduled (w : Wheel) (ulTimeout : Nat) (o : TimerObj) : Prop where
  stState : o.stState = .running
  ulTimeOut : o.ulTimeOut = ulTimeout / timerGranularity
  ulCalIndex : o.ulCalIndex = slotOf w ulTimeout
  ulWrapCounter : o.ulWrapCounter = roundOf w ulTimeout

theorem slotOf_lt (w : Wheel) (ulTimeout : Nat) : slotOf w ulTimeout < calendarSize :=
  Nat.mod_lt _ (by decide)

theorem links_modify_data (w : Wheel) (t : TimerId) {f : TimerObj → TimerObj}
    (hnext : ∀ o, (f o).pstNext = o.pstNext) (hprev : ∀ o, (f o).pstPrev = o.pstPrev) :
    (w.modify t f).links = w.links := by
  unfold Wheel.links Wheel.modify
  congr 1
  · funext s
    by_cases hs : s = t
    · subst hs
      simp [hnext]
    · simp [hs]
  · funext s
    by_cases hs : s = t
    · subst hs
      simp [hprev]
    · simp [hs]

def scheduledObj (w : Wheel) (ulTimeout : Nat) (o : TimerObj) : TimerObj :=
  { o with
    ulTimeOut := ulTimeout / timerGranularity
    ulWrapCounter := roundOf w ulTimeout
    ulCalIndex := slotOf w ulTimeout }

theorem schedule_eq (w : Wheel) (t : TimerId) (ulTimeout : Nat) :
    schedule w t ulTimeout = w.modify t (scheduledObj w ulTimeout) := rfl

theorem links_schedule (w : Wheel) (t : TimerId) (ulTimeout : Nat) :
    (schedule w t ulTimeout).links = w.links := by
  rw [schedule_eq]
  exact links_modify_data w t (fun _ => rfl) (fun _ => rfl)

theorem onlyTimer_schedule (w : Wheel) (t : TimerId) (ulTimeout : Nat) :
    OnlyTimer t w (schedule w t ulTimeout) := by
  rw [schedule_eq]
  exact onlyTimer_modify w t _

theorem tbl_modify_self (w : Wheel) (t : TimerId) (f : TimerObj → TimerObj) :
    (w.modify t f).tbl t = f (w.tbl t) := by
  simp [Wheel.modify]

/-- Inserting an object that is on no list, in front of the slot it says. -/
theorem chains_linkFront {w : Wheel} {slots : Nat → List TimerId}
    (h : Chains w.links w.calendar slots) {t : TimerId} (ht : ∀ k, t ∉ slots k) :
    Chains (linkFront w t).links (linkFront w t).calendar
      (Function.update slots (w.tbl t).ulCalIndex (t :: slots (w.tbl t).ulCalIndex)) := by
  obtain ⟨-, hlinks, hcalendar⟩ := linkFront_spec w t
  rw [hlinks, hcalendar]
  exact h.pushFront _ ht

theorem mem_update_cons {slots : Nat → List TimerId} {t : TimerId} {k : Nat} :
    ∀ s k', s ≠ t → (s ∈ Function.update slots k (t :: slots k) k' ↔ s ∈ slots k') := by
  intro s k' hs
  by_cases hk : k' = k
  · subst hk
    simp [hs]
  · rw [Function.update_of_ne hk]

theorem self_mem_update_cons {slots : Nat → List TimerId} {t : TimerId}
    (ht : ∀ k, t ∉ slots k) {k : Nat} :
    ∀ k', t ∈ Function.update slots k (t :: slots k) k' ↔ k = k' := by
  intro k'
  by_cases hk : k' = k
  · subst hk
    simp
  · rw [Function.update_of_ne hk]
    constructor
    · intro hmem
      exact absurd hmem (ht k')
    · intro heq
      exact absurd heq.symm hk

/-- **Starting** a timer that is taken puts it in front of its slot. -/
theorem Linked.start {w : Wheel} {slots : Nat → List TimerId} (h : Linked w slots) {t : TimerId}
    (hstate : (w.tbl t).stState = .taken) {stType : TimerType}
    (htype : stType = .reocurring ∨ stType = .oneShot) (ulTimeout : Nat)
    (pstCallBack : Option FuncPtr) (args : List UInt32) :
    let w' := (vosTimerStart w (some t) stType ulTimeout pstCallBack args).2
    let k := slotOf w ulTimeout
    Linked w' (Function.update slots k (t :: slots k)) ∧ OnlyTimer t w w' ∧
      Scheduled w ulTimeout (w'.tbl t) ∧ (w'.tbl t).stType = stType ∧
      (w'.tbl t).pstCallBackFunc = pstCallBack ∧ (w'.tbl t).ulCallBackArgs = args := by
  intro w' k
  let w₁ := w.modify t fun o =>
    { o with
      stState := .running
      stType := stType
      pstCallBackFunc := pstCallBack
      ulCallBackArgs := args }
  let w₂ := schedule w₁ t ulTimeout
  have hw : w' = linkFront w₂ t := by
    have hvalid : ¬(stType ≠ .reocurring ∧ stType ≠ .oneShot) := by
      rcases htype with rfl | rfl <;> simp
    simp only [w', vosTimerStart, if_neg hvalid, hstate]
    rfl
  obtain ⟨hrel, -, -⟩ := linkFront_spec w₂ t
  rw [← hw] at hrel
  have hfree : ∀ k', t ∉ slots k' := by
    intro k' hmem
    have hrun := ((h.mem_iff t k').mp hmem).1
    rw [hstate] at hrun
    cases hrun
  have hlinks : w₂.links = w.links :=
    (links_schedule w₁ t ulTimeout).trans (links_modify_data w t (fun _ => rfl) (fun _ => rfl))
  have hobj : w₂.tbl t = scheduledObj w ulTimeout
      { w.tbl t with
        stState := .running
        stType := stType
        pstCallBackFunc := pstCallBack
        ulCallBackArgs := args } := by
    simp only [w₂, schedule_eq, tbl_modify_self]
    simp only [w₁, tbl_modify_self]
    rfl
  have hdata := hrel.data t
  rw [hobj] at hdata
  obtain ⟨hst, hidx, hcal, htyp, htime, hcb, hargs, hwrap⟩ := data_eq_iff.mp hdata
  have hother : OnlyTimer t w w' :=
    ((onlyTimer_modify w t _).trans (onlyTimer_schedule w₁ t ulTimeout)).trans (hrel.onlyTimer t)
  have hchains : Chains w'.links w'.calendar (Function.update slots k (t :: slots k)) := by
    have hstart : Chains w₂.links w₂.calendar slots := by
      rw [hlinks]
      exact h.chains
    have hpush := chains_linkFront hstart hfree
    rw [← hw] at hpush
    rw [hobj] at hpush
    exact hpush
  refine ⟨h.of_onlyTimer hother hchains mem_update_cons ?_ ?_ ?_, hother,
    ⟨hst, htime, hcal, hwrap⟩, htyp, hcb, hargs⟩
  · intro k'
    rw [self_mem_update_cons hfree, hst, hcal]
    exact ⟨fun hk => ⟨rfl, hk⟩, fun hk => hk.2⟩
  · intro _
    rw [hcal, htyp]
    refine ⟨slotOf_lt w ulTimeout, ?_⟩
    change stType ≠ .unknown
    rcases htype with rfl | rfl <;> simp
  · intro _
    obtain ⟨hindex, hmap⟩ := h.taken t (by rw [hstate]; simp)
    exact ⟨hidx.trans hindex, by rw [hrel.opTimerMap]; exact hmap⟩

/-- The pointers after a running timer has been taken off its list. -/
theorem chains_unlinkFrom {w w₁ : Wheel} {slots : Nat → List TimerId} (h : Linked w slots)
    (hlinks : w₁.links = w.links) (hcalendar : w₁.calendar = w.calendar) {t : TimerId}
    (hstate : (w.tbl t).stState = .running) :
    let w' := unlinkFrom w₁ (w.tbl t).ulCalIndex t
    Relinked w₁ w' ∧ Chains w'.links w'.calendar (without t slots) := by
  intro w'
  have hmem : t ∈ slots (w.tbl t).ulCalIndex := (h.mem_iff t _).mpr ⟨hstate, rfl⟩
  obtain ⟨hprev, hnext⟩ := (h.chains.chain _).not_self (h.chains.nodup _) hmem
  rw [← hlinks] at hprev hnext
  obtain ⟨hrel, hlinks', hcalendar'⟩ := unlinkFrom_spec w₁ (w.tbl t).ulCalIndex t hprev hnext
  refine ⟨hrel, ?_⟩
  rw [hlinks', hcalendar', hlinks, hcalendar, ← h.update_without t]
  exact h.chains.unlink hmem

/-- **Releasing** an object that is on no list. -/
theorem release_spec {w : Wheel} {slots : Nat → List TimerId}
    (hchains : Chains w.links w.calendar slots) {t : TimerId} (ht : ∀ k, t ∉ slots k)
    (hindex : (w.tbl t).ulIndex = t.val) :
    let w' := vosTimerRelease w t
    Chains w'.links w'.calendar slots ∧ OnlyTimer t w w' ∧ (w'.tbl t).stState = .free ∧
      w'.opTimerMap t.val = false := by
  intro w'
  have hbit : (w.tbl t).ulIndex / 32 % 2 ^ 16 * 32 + (w.tbl t).ulIndex % 32 = t.val := by
    have hlt := t.isLt
    rw [hindex]
    simp only [maxTimerObj] at hlt
    omega
  have hw : w' = ({ w with opTimerMap := Function.update w.opTimerMap t.val false }).modify t
      timerObjInit := by
    simp only [w', vosTimerRelease, hbit]
  refine ⟨?_, ?_, ?_, ?_⟩
  · rw [hw]
    apply hchains.congr
    intro s k hs
    have hne : s ≠ t := by
      rintro rfl
      exact ht k hs
    simp [Wheel.links, Wheel.modify, hne]
  · rw [hw]
    refine ⟨?_, ?_, rfl, rfl, rfl, rfl, rfl⟩
    · intro s hs
      simp [Wheel.modify, hs]
    · intro i hi
      simp [Wheel.modify, hi]
  · rw [hw]
    simp [Wheel.modify, timerObjInit]
  · rw [hw]
    simp [Wheel.modify]

/-- **Cancelling** a timer that is not free filters it out and frees it. -/
theorem Linked.cancel {w : Wheel} {slots : Nat → List TimerId} (h : Linked w slots)
    {t : TimerId} (hstate : (w.tbl t).stState ≠ .free) :
    let w' := cancelTimer w t
    Linked w' (without t slots) ∧ OnlyTimer t w w' ∧ (w'.tbl t).stState = .free ∧
      w'.opTimerMap t.val = false := by
  intro w'
  obtain ⟨hindex, -⟩ := h.taken t hstate
  have hnot : ∀ k, t ∉ without t slots k := by
    intro k hmem
    exact (mem_without.mp hmem).2 rfl
  -- both kinds of timer end in a release of an object that is on no list
  have hrelease : ∃ w₁, Relinked w w₁ ∧ Chains w₁.links w₁.calendar (without t slots) ∧
      w' = vosTimerRelease w₁ t := by
    cases hkind : (w.tbl t).stState with
    | free => exact absurd hkind hstate
    | taken =>
      refine ⟨w, Relinked.refl w, ?_, by simp only [w', cancelTimer, hkind]⟩
      rw [h.without_eq (by rw [hkind]; simp)]
      exact h.chains
    | running =>
      obtain ⟨hrel, hchains⟩ := chains_unlinkFrom h rfl rfl hkind
      exact ⟨_, hrel, hchains, by simp only [w', cancelTimer, hkind]⟩
  obtain ⟨w₁, hrel, hchains, hw⟩ := hrelease
  have hindex₁ : (w₁.tbl t).ulIndex = t.val :=
    (data_eq_iff.mp (hrel.data t)).2.1.trans hindex
  obtain ⟨hchains', hother, hfree, hbit⟩ := release_spec hchains hnot hindex₁
  rw [← hw] at hchains' hother hfree hbit
  have honly : OnlyTimer t w w' := (hrel.onlyTimer t).trans hother
  refine ⟨h.of_onlyTimer honly hchains' ?_ ?_ ?_ ?_, honly, hfree, hbit⟩
  · intro s k hs
    rw [mem_without]
    exact ⟨fun hmem => hmem.1, fun hmem => ⟨hmem, hs⟩⟩
  · intro k
    rw [hfree]
    exact ⟨fun hmem => absurd hmem (hnot k), fun hrun => by cases hrun.1⟩
  · intro hrun
    rw [hfree] at hrun
    cases hrun
  · intro hne
    exact absurd hfree hne

/-- **Rescheduling** a running timer filters it out and puts it in front of its new slot. -/
theorem Linked.reSchedule {w : Wheel} {slots : Nat → List TimerId} (h : Linked w slots)
    {t : TimerId} (hstate : (w.tbl t).stState = .running) (ulTimeout : Nat) :
    let w' := reScheduleTimer w t ulTimeout
    let k := slotOf w ulTimeout
    Linked w' (Function.update (without t slots) k (t :: without t slots k)) ∧
      OnlyTimer t w w' ∧ Scheduled w ulTimeout (w'.tbl t) ∧
      (w'.tbl t).stType = (w.tbl t).stType ∧
      (w'.tbl t).pstCallBackFunc = (w.tbl t).pstCallBackFunc ∧
      (w'.tbl t).ulCallBackArgs = (w.tbl t).ulCallBackArgs := by
  intro w' k
  let w₁ := schedule w t ulTimeout
  let w₂ := unlinkFrom w₁ (w.tbl t).ulCalIndex t
  have hsmall : (w.tbl t).ulCalIndex % 2 ^ 8 = (w.tbl t).ulCalIndex := by
    have hlt := h.index t hstate
    simp only [calendarSize] at hlt
    omega
  have hw : w' = linkFront w₂ t := by
    simp only [w', reScheduleTimer, hstate, hsmall]
    rfl
  obtain ⟨hrel₂, hchains₂⟩ := chains_unlinkFrom h (links_schedule w t ulTimeout) rfl hstate
  obtain ⟨hrel₃, -, -⟩ := linkFront_spec w₂ t
  rw [← hw] at hrel₃
  have hrel : Relinked w₁ w' := hrel₂.trans hrel₃
  have hnot : ∀ k', t ∉ without t slots k' := by
    intro k' hmem
    exact (mem_without.mp hmem).2 rfl
  have hobj : w₁.tbl t = scheduledObj w ulTimeout (w.tbl t) := by
    simp only [w₁, schedule_eq, tbl_modify_self]
  have hdata := hrel.data t
  rw [hobj] at hdata
  obtain ⟨hst, hidx, hcal, htyp, htime, hcb, hargs, hwrap⟩ := data_eq_iff.mp hdata
  have hrun : (w'.tbl t).stState = .running := hst.trans hstate
  have hother : OnlyTimer t w w' := (onlyTimer_schedule w t ulTimeout).trans (hrel.onlyTimer t)
  have hcal₂ : (w₂.tbl t).ulCalIndex = k := by
    have hd := hrel₂.data t
    rw [hobj] at hd
    exact (data_eq_iff.mp hd).2.2.1
  have hchains : Chains w'.links w'.calendar
      (Function.update (without t slots) k (t :: without t slots k)) := by
    have hpush := chains_linkFront hchains₂ hnot
    rw [← hw, hcal₂] at hpush
    exact hpush
  refine ⟨h.of_onlyTimer hother hchains ?_ ?_ ?_ ?_, hother,
    ⟨hrun, htime, hcal, hwrap⟩, htyp, hcb, hargs⟩
  · intro s k' hs
    rw [mem_update_cons s k' hs, mem_without]
    exact ⟨fun hmem => hmem.1, fun hmem => ⟨hmem, hs⟩⟩
  · intro k'
    rw [self_mem_update_cons hnot, hrun, hcal]
    exact ⟨fun hk => ⟨rfl, hk⟩, fun hk => hk.2⟩
  · intro _
    rw [hcal, htyp]
    exact ⟨slotOf_lt w ulTimeout, h.typed t hstate⟩
  · intro _
    obtain ⟨hindex, hmap⟩ := h.taken t (by rw [hstate]; simp)
    exact ⟨hidx.trans hindex, by rw [hrel.opTimerMap]; exact hmap⟩

/-- **Handing out** a timer: it was free, hence on no list. -/
theorem Linked.getFree {w : Wheel} {slots : Nat → List TimerId} (h : Linked w slots)
    {t : TimerId} (hclear : firstClear w = some t) :
    let w' := (vosTimerGetFree w).2
    Linked w' slots ∧ OnlyTimer t w w' ∧ (w.tbl t).stState = .free ∧
      (w'.tbl t).stState = .taken := by
  intro w'
  have hbit : w.opTimerMap t.val = false := by
    have hfound := List.find?_some hclear
    simpa using hfound
  have hfree : (w.tbl t).stState = .free := by
    by_contra hne
    rw [(h.taken t hne).2] at hbit
    cases hbit
  have hnot : ∀ k, t ∉ slots k := by
    intro k hmem
    have hrun := ((h.mem_iff t k).mp hmem).1
    rw [hfree] at hrun
    cases hrun
  have htbl : w'.tbl = Function.update w.tbl t
      { timerObjInit (w.tbl t) with ulIndex := t.val, stState := .taken } := by
    simp only [w', vosTimerGetFree, hclear]
    rfl
  have hmap : w'.opTimerMap = Function.update w.opTimerMap t.val true := by
    simp only [w', vosTimerGetFree, hclear]
    rfl
  have hcalendar : w'.calendar = w.calendar := by
    simp only [w', vosTimerGetFree, hclear]
    rfl
  have hother : OnlyTimer t w w' := by
    refine ⟨?_, ?_, ?_, ?_, ?_, ?_, ?_⟩
    · intro s hs
      rw [htbl, Function.update_of_ne hs]
    · intro i hi
      rw [hmap, Function.update_of_ne hi]
    all_goals
      simp only [w', vosTimerGetFree, hclear]
      rfl
  have hobj : w'.tbl t = { timerObjInit (w.tbl t) with ulIndex := t.val, stState := .taken } := by
    rw [htbl, Function.update_self]
  refine ⟨h.of_onlyTimer hother ?_ (fun _ _ _ => Iff.rfl) ?_ ?_ ?_, hother, hfree, by rw [hobj]⟩
  · rw [hcalendar]
    apply h.chains.congr
    intro s k hs
    have hne : s ≠ t := by
      rintro rfl
      exact hnot k hs
    simp [Wheel.links, htbl, hne]
  · intro k
    rw [hobj]
    exact ⟨fun hmem => absurd hmem (hnot k), fun hrun => by cases hrun.1⟩
  · intro hrun
    rw [hobj] at hrun
    cases hrun
  · intro _
    rw [hobj, hmap]
    simp

end Opconn.Vos
