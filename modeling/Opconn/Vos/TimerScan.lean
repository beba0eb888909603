import Opconn.Lib.Runs
import Opconn.Vos.TimerLists

/-!
# The scan of a slot

While a slot is scanned the task keeps one pointer into its list, read before the
callback of the expired timer runs.  `Scanning` ties that pointer to the lists: it
is the head of what is left to visit.  Every call keeps the tie except one that
cancels or reschedules the very timer the pointer names; then the walk goes on
from an object that has left the list.  The second half of the module counts the
callbacks of a scan all of whose calls stay clear of that timer.
-/

namespace Opconn.Vos

open DList Runs

/-! ### Calls during a scan -/

/-- Only timers that were handed out are started, as all callers do. -/
def handedOut (w : Wheel) : TimerOp → Prop
  | .start (some t) _ _ _ _ => (w.tbl t).stState ≠ .free
  | _ => True

/-- The call leaves the timer alone that the task will visit next. -/
def cursorSafe (w : Wheel) : TimerOp → Prop
  | .cancel (some t) => w.phase ≠ .inCallback (some t)
  | .reSchedule (some t) _ => w.phase ≠ .inCallback (some t)
  | _ => True

/-- **The condition on a step.** -/
def scanGuard (w : Wheel) : TimerEvent → Prop
  | .op o => handedOut w o ∧ cursorSafe w o
  | _ => True

instance (w : Wheel) : (o : TimerOp) → Decidable (handedOut w o)
  | .start (some t) _ _ _ _ => inferInstanceAs (Decidable ((w.tbl t).stState ≠ .free))
  | .start none _ _ _ _ => inferInstanceAs (Decidable True)
  | .getFree => inferInstanceAs (Decidable True)
  | .cancel _ => inferInstanceAs (Decidable True)
  | .reSchedule _ _ => inferInstanceAs (Decidable True)

instance (w : Wheel) : (o : TimerOp) → Decidable (cursorSafe w o)
  | .cancel (some t) => inferInstanceAs (Decidable (w.phase ≠ .inCallback (some t)))
  | .cancel none => inferInstanceAs (Decidable True)
  | .reSchedule (some t) _ => inferInstanceAs (Decidable (w.phase ≠ .inCallback (some t)))
  | .reSchedule none _ => inferInstanceAs (Decidable True)
  | .getFree => inferInstanceAs (Decidable True)
  | .start _ _ _ _ _ => inferInstanceAs (Decidable True)

instance (w : Wheel) : (e : TimerEvent) → Decidable (scanGuard w e)
  | .op o => inferInstanceAs (Decidable (handedOut w o ∧ cursorSafe w o))
  | .tick => inferInstanceAs (Decidable True)
  | .scan => inferInstanceAs (Decidable True)

/-- Whether a call leaves `s` on its list. -/
def keeps (o : TimerOp) (s : TimerId) : Bool :=
  match o with
  | .cancel (some t) => s ≠ t
  | .reSchedule (some t) _ => s ≠ t
  | _ => true

/-- The timer a call works on. -/
def target (w : Wheel) : TimerOp → Option TimerId
  | .getFree => firstClear w
  | .start pstTimer _ _ _ _ => pstTimer
  | .cancel pstTimer => pstTimer
  | .reSchedule pstTimer _ => pstTimer

/-- Everything but pointers, the map and the target's data is as before. -/
structure CallFrame (w : Wheel) (o : TimerOp) (w' : Wheel) : Prop where
  others : ∀ s, target w o ≠ some s → (w'.tbl s).data = (w.tbl s).data
  ucHand : w'.ucHand = w.ucHand
  ulClockWrap : w'.ulClockWrap = w.ulClockWrap
  phase : w'.phase = w.phase
  ticks : w'.ticks = w.ticks
  fired : w'.fired = w.fired

theorem CallFrame.refl (w : Wheel) (o : TimerOp) : CallFrame w o w :=
  ⟨fun _ _ => rfl, rfl, rfl, rfl, rfl, rfl⟩

theorem OnlyTimer.callFrame {t : TimerId} {w w' : Wheel} (h : OnlyTimer t w w') {o : TimerOp}
    (ho : target w o = some t) : CallFrame w o w' := by
  refine ⟨?_, h.ucHand, h.ulClockWrap, h.phase, h.ticks, h.fired⟩
  intro s hs
  apply h.others
  rintro rfl
  exact hs ho

/-- A call on a timer it does not change keeps all lists, the filtered ones included. -/
theorem filter_keeps_of_not_running {w : Wheel} {slots : Nat → List TimerId} (h : Linked w slots)
    {t : TimerId} (ht : (w.tbl t).stState ≠ .running) (k : Nat) :
    (slots k).filter (fun s => decide (s ≠ t)) = slots k :=
  congrFun (h.without_eq ht) k

/-- A call that leaves the wheel alone leaves every list in place. -/
theorem Linked.unchanged {w : Wheel} {slots : Nat → List TimerId} (h : Linked w slots)
    {o : TimerOp} (hsame : Vos.perform w o = w)
    (hkeeps : ∀ k, (slots k).filter (keeps o) = slots k) :
    CallFrame w o (Vos.perform w o) ∧ ∃ slots', Linked (Vos.perform w o) slots' ∧
      ∀ k, ∃ front, slots' k = front ++ (slots k).filter (keeps o) := by
  rw [hsame]
  exact ⟨CallFrame.refl w _, slots, h, fun k => ⟨[], (hkeeps k).symm⟩⟩

/-- A timer put in front of one list. -/
theorem update_front (lists : Nat → List TimerId) (slot : Nat) (t : TimerId) (k : Nat) :
    ∃ front, Function.update lists slot (t :: lists slot) k = front ++ lists k := by
  by_cases hk : k = slot
  · subst hk
    exact ⟨[t], Function.update_self ..⟩
  · exact ⟨[], Function.update_of_ne hk ..⟩

/-- **One call on the lists.**  Every list is what the call keeps of it, behind
whatever the call has put in front. -/
theorem Linked.perform {w : Wheel} {slots : Nat → List TimerId} (h : Linked w slots)
    {o : TimerOp} (ho : handedOut w o) :
    CallFrame w o (Vos.perform w o) ∧ ∃ slots', Linked (Vos.perform w o) slots' ∧
      ∀ k, ∃ front, slots' k = front ++ (slots k).filter (keeps o) := by
  have hall : ∀ k, (slots k).filter (fun _ => true) = slots k := fun k => by simp
  cases o with
  | getFree =>
    cases hclear : firstClear w with
    | none =>
      refine h.unchanged ?_ hall
      simp only [Vos.perform, vosTimerGetFree, hclear]
    | some t =>
      obtain ⟨hlinked, hother, -, -⟩ := h.getFree hclear
      exact ⟨hother.callFrame hclear, slots, hlinked, fun k => ⟨[], (hall k).symm⟩⟩
  | start pstTimer stType ulTimeout pstCallBack args =>
    cases pstTimer with
    | none => exact h.unchanged rfl hall
    | some t =>
      by_cases htype : stType = .reocurring ∨ stType = .oneShot
      · cases hstate : (w.tbl t).stState with
        | free => exact absurd hstate ho
        | taken =>
          obtain ⟨hlinked, hother, -⟩ :=
            h.start hstate htype ulTimeout.toNat pstCallBack args
          refine ⟨hother.callFrame rfl, _, hlinked, ?_⟩
          intro k
          obtain ⟨front, hfront⟩ := update_front slots (slotOf w ulTimeout.toNat) t k
          exact ⟨front, hfront.trans (congrArg (front ++ ·) (hall k).symm)⟩
        | running =>
          refine h.unchanged ?_ hall
          simp only [Vos.perform, vosTimerStart, hstate]
          split <;> rfl
      · have hinvalid : stType ≠ .reocurring ∧ stType ≠ .oneShot := not_or.mp htype
        refine h.unchanged ?_ hall
        simp only [Vos.perform, vosTimerStart, if_pos hinvalid]
  | cancel pstTimer =>
    cases pstTimer with
    | none => exact h.unchanged rfl hall
    | some t =>
      by_cases hfree : (w.tbl t).stState = .free
      · refine h.unchanged ?_ (filter_keeps_of_not_running h (by rw [hfree]; simp))
        simp only [Vos.perform, vosTimerCancel, cancelTimer, hfree]
      · obtain ⟨hlinked, hother, -⟩ := h.cancel hfree
        exact ⟨hother.callFrame rfl, _, hlinked, fun k => ⟨[], rfl⟩⟩
  | reSchedule pstTimer ulTimeout =>
    cases pstTimer with
    | none => exact h.unchanged rfl hall
    | some t =>
      by_cases hrun : (w.tbl t).stState = .running
      · obtain ⟨hlinked, hother, -⟩ := h.reSchedule hrun ulTimeout.toNat
        exact ⟨hother.callFrame rfl, _, hlinked, fun k => update_front _ _ t k⟩
      · refine h.unchanged ?_ (filter_keeps_of_not_running h hrun)
        simp only [Vos.perform, vosTimerReSchedule, reScheduleTimer]
        cases hstate : (w.tbl t).stState with
        | free => rfl
        | taken => rfl
        | running => exact absurd hstate hrun

/-! ### The cursor -/

def Phase.cursor : Phase → Option TimerId
  | .idle => none
  | .holding pCurr => pCurr
  | .inCallback pCurr => pCurr

/-- The lists are `slots`, and `rest` is what the scan has still to visit. -/
structure Scanning (w : Wheel) (slots : Nat → List TimerId) (rest : List TimerId) : Prop where
  linked : Linked w slots
  cursor : w.phase.cursor = rest.head?
  onSlot : ∃ passed, slots w.ucHand = passed ++ rest
  idle : w.phase = .idle → rest = []

theorem Scanning.nodup {w : Wheel} {slots : Nat → List TimerId} {rest : List TimerId}
    (h : Scanning w slots rest) : rest.Nodup := by
  obtain ⟨passed, hslot⟩ := h.onSlot
  have hnodup := h.linked.chains.nodup w.ucHand
  rw [hslot] at hnodup
  exact (List.nodup_append.mp hnodup).2.1

theorem Scanning.running {w : Wheel} {slots : Nat → List TimerId} {rest : List TimerId}
    (h : Scanning w slots rest) {t : TimerId} (ht : t ∈ rest) :
    (w.tbl t).stState = .running ∧ (w.tbl t).ulCalIndex = w.ucHand := by
  obtain ⟨passed, hslot⟩ := h.onSlot
  apply (h.linked.mem_iff t w.ucHand).mp
  rw [hslot]
  exact List.mem_append_right _ ht

theorem head?_filter_of_head {rest : List TimerId} {q : TimerId → Bool}
    (h : ∀ t, rest.head? = some t → q t = true) : (rest.filter q).head? = rest.head? := by
  cases rest with
  | nil => rfl
  | cons t rest => simp [List.filter_cons_of_pos (h t rfl)]

/-- A call that leaves the next timer alone keeps the tie between cursor and list. -/
theorem Scanning.call {w : Wheel} {slots : Nat → List TimerId} {rest : List TimerId}
    (h : Scanning w slots rest) {o : TimerOp} (ho : handedOut w o) (hsafe : cursorSafe w o)
    (hfree : w.phase.mutexFree = true) :
    CallFrame w o (perform w o) ∧
      ∃ slots', Scanning (perform w o) slots' (rest.filter (keeps o)) := by
  obtain ⟨hframe, slots', hlinked, hlists⟩ := h.linked.perform ho
  refine ⟨hframe, slots', hlinked, ?_, ?_, ?_⟩
  · rw [hframe.phase, h.cursor]
    symm
    apply head?_filter_of_head
    intro t hhead
    -- the head of the rest is the cursor of a task that is in a callback
    have hphase : w.phase = .inCallback (some t) := by
      have hcursor := h.cursor
      rw [hhead] at hcursor
      cases hp : w.phase with
      | idle =>
        rw [hp] at hcursor
        cases hcursor
      | holding pCurr =>
        rw [hp] at hfree
        cases hfree
      | inCallback pCurr =>
        rw [hp] at hcursor
        exact congrArg Phase.inCallback hcursor
    cases o with
    | getFree => rfl
    | start _ _ _ _ _ => rfl
    | cancel pstTimer =>
      cases pstTimer with
      | none => rfl
      | some s =>
        have hne : t ≠ s := by
          rintro rfl
          exact hsafe hphase
        simp [keeps, hne]
    | reSchedule pstTimer ulTimeout =>
      cases pstTimer with
      | none => rfl
      | some s =>
        have hne : t ≠ s := by
          rintro rfl
          exact hsafe hphase
        simp [keeps, hne]
  · obtain ⟨passed, hslot⟩ := h.onSlot
    obtain ⟨front, hfront⟩ := hlists w.ucHand
    rw [hframe.ucHand, hfront, hslot, List.filter_append, ← List.append_assoc]
    exact ⟨_, rfl⟩
  · intro hidle
    rw [hframe.phase] at hidle
    rw [h.idle hidle]
    rfl

/-- The next pointer of the object under the cursor leads to the rest of the scan. -/
theorem Scanning.next_eq {w : Wheel} {slots : Nat → List TimerId} {p : TimerId}
    {rest : List TimerId} (h : Scanning w slots (p :: rest)) :
    (w.tbl p).pstNext = rest.head? := by
  obtain ⟨passed, hslot⟩ := h.onSlot
  have hchain := h.linked.chains.chain w.ucHand
  rw [hslot] at hchain
  exact hchain.suffix.head_eq

/-- The callback of `t` runs when the scan comes to it. -/
def expires (w : Wheel) (t : TimerId) : Prop :=
  (w.tbl t).ulWrapCounter = w.ulClockWrap ∧ (w.tbl t).pstCallBackFunc ≠ none

/-- What a visit leaves alone. -/
structure VisitFrame (w : Wheel) (p : TimerId) (w' : Wheel) : Prop where
  others : ∀ s, s ≠ p → (w'.tbl s).data = (w.tbl s).data
  ucHand : w'.ucHand = w.ucHand
  ulClockWrap : w'.ulClockWrap = w.ulClockWrap
  ticks : w'.ticks = w.ticks

theorem filter_ne_cons_self {p : TimerId} {rest : List TimerId} (h : (p :: rest).Nodup) :
    (p :: rest).filter (fun s => decide (s ≠ p)) = rest := by
  rw [List.filter_cons_of_neg (by simp)]
  apply List.filter_eq_self.mpr
  intro s hs
  have hne : s ≠ p := by
    rintro rfl
    exact (List.nodup_cons.mp h).1 hs
  simp [hne]

/-- The object under the cursor leaves the list; the scan goes on behind it. -/
theorem Scanning.leave {w w' : Wheel} {slots slots' : Nat → List TimerId} {p : TimerId}
    {rest : List TimerId} (h : Scanning w slots (p :: rest)) (hlinked : Linked w' slots')
    (hlists : ∃ front, slots' w.ucHand = front ++ without p slots w.ucHand)
    (hhand : w'.ucHand = w.ucHand) {phase : Phase} (hcursor : phase.cursor = (w.tbl p).pstNext)
    (hphase : phase ≠ .idle) (fired : List Fired) :
    Scanning { w' with phase := phase, fired := fired } slots' rest := by
  have hdata : Linked { w' with phase := phase, fired := fired } slots' :=
    ⟨hlinked.chains, hlinked.mem_iff, hlinked.index, hlinked.typed, hlinked.taken⟩
  refine ⟨hdata, hcursor.trans h.next_eq, ?_, fun hidle => absurd hidle hphase⟩
  obtain ⟨passed, hslot⟩ := h.onSlot
  obtain ⟨front, hfront⟩ := hlists
  have hwithout : without p slots w.ucHand =
      passed.filter (fun s => decide (s ≠ p)) ++ rest := by
    unfold without
    rw [hslot, List.filter_append, filter_ne_cons_self h.nodup]
  change ∃ passed, slots' w'.ucHand = passed ++ rest
  rw [hhand, hfront, hwithout, ← List.append_assoc]
  exact ⟨_, rfl⟩

/-- **One visit.**  The scan moves on by one object; the callback of that object runs
exactly when it expires. -/
theorem Scanning.visit {w : Wheel} {slots : Nat → List TimerId} {p : TimerId}
    {rest : List TimerId} (h : Scanning w slots (p :: rest)) :
    VisitFrame w p (scanVisit w p) ∧ (∃ slots', Scanning (scanVisit w p) slots' rest) ∧
      ((expires w p ∧ ∃ func, (scanVisit w p).fired =
          w.fired ++ [⟨w.ticks, p, func, (w.tbl p).ulCallBackArgs⟩]) ∨
        (¬expires w p ∧ (scanVisit w p).fired = w.fired)) := by
  obtain ⟨hrun, hslot⟩ := h.running (List.mem_cons_self ..)
  have hnotFree : (w.tbl p).stState ≠ .free := by rw [hrun]; simp
  obtain ⟨hcancel, hcancelOther, -⟩ := h.linked.cancel hnotFree
  by_cases hdue : (w.tbl p).ulWrapCounter = w.ulClockWrap
  · cases hcb : (w.tbl p).pstCallBackFunc with
    | none =>
      have hw : scanVisit w p =
          { cancelTimer w p with phase := .holding (w.tbl p).pstNext } := by
        simp only [scanVisit, if_pos hdue, hcb]
      rw [hw]
      refine ⟨⟨hcancelOther.others, hcancelOther.ucHand, hcancelOther.ulClockWrap,
        hcancelOther.ticks⟩, ⟨_, h.leave hcancel ⟨[], rfl⟩ hcancelOther.ucHand rfl
        (by simp) (cancelTimer w p).fired⟩, Or.inr ⟨?_, hcancelOther.fired⟩⟩
      rintro ⟨-, hsome⟩
      exact hsome hcb
    | some func =>
      have hexpires : expires w p := ⟨hdue, by rw [hcb]; simp⟩
      cases htype : (w.tbl p).stType with
      | unknown => exact absurd htype (h.linked.typed p hrun)
      | oneShot =>
        have hw : scanVisit w p =
            { cancelTimer w p with
              phase := .inCallback (w.tbl p).pstNext
              fired := (cancelTimer w p).fired ++
                [⟨w.ticks, p, func, (w.tbl p).ulCallBackArgs⟩] } := by
          simp only [scanVisit, if_pos hdue, hcb, htype]
        rw [hw]
        refine ⟨⟨hcancelOther.others, hcancelOther.ucHand, hcancelOther.ulClockWrap,
          hcancelOther.ticks⟩, ⟨_, h.leave hcancel ⟨[], rfl⟩ hcancelOther.ucHand rfl
          (by simp) _⟩, Or.inl ⟨hexpires, func, ?_⟩⟩
        rw [← hcancelOther.fired]
      | reocurring =>
        obtain ⟨hlinked, hother, -⟩ :=
          h.linked.reSchedule hrun ((w.tbl p).ulTimeOut * timerGranularity % 2 ^ 32)
        have hw : scanVisit w p =
            { reScheduleTimer w p ((w.tbl p).ulTimeOut * timerGranularity % 2 ^ 32) with
              phase := .inCallback (w.tbl p).pstNext
              fired := (reScheduleTimer w p
                ((w.tbl p).ulTimeOut * timerGranularity % 2 ^ 32)).fired ++
                [⟨w.ticks, p, func, (w.tbl p).ulCallBackArgs⟩] } := by
          simp only [scanVisit, if_pos hdue, hcb, htype]
        rw [hw]
        have hlists : ∃ front, Function.update (without p slots)
            (slotOf w ((w.tbl p).ulTimeOut * timerGranularity % 2 ^ 32))
            (p :: without p slots
              (slotOf w ((w.tbl p).ulTimeOut * timerGranularity % 2 ^ 32))) w.ucHand =
              front ++ without p slots w.ucHand := by
          by_cases hk : w.ucHand =
              slotOf w ((w.tbl p).ulTimeOut * timerGranularity % 2 ^ 32)
          · rw [← hk, Function.update_self]
            exact ⟨[p], rfl⟩
          · rw [Function.update_of_ne hk]
            exact ⟨[], rfl⟩
        refine ⟨⟨hother.others, hother.ucHand, hother.ulClockWrap, hother.ticks⟩,
          ⟨_, h.leave hlinked hlists hother.ucHand rfl (by simp) _⟩,
          Or.inl ⟨hexpires, func, ?_⟩⟩
        rw [← hother.fired]
  · have hw : scanVisit w p = { w with phase := .holding (w.tbl p).pstNext } := by
      simp only [scanVisit, if_neg hdue]
    rw [hw]
    refine ⟨⟨fun _ _ => rfl, rfl, rfl, rfl⟩, ⟨slots, ?_⟩, Or.inr ⟨fun hexp => hdue hexp.1, rfl⟩⟩
    obtain ⟨passed, hpassed⟩ := h.onSlot
    refine ⟨⟨h.linked.chains, h.linked.mem_iff, h.linked.index, h.linked.typed,
      h.linked.taken⟩, h.next_eq, ⟨passed ++ [p], ?_⟩, by simp⟩
    change slots w.ucHand = _
    rw [hpassed]
    simp

/-! ### Steps -/

theorem scanning_init : Scanning vosTimerInit (fun _ => []) [] := by
  refine ⟨⟨⟨fun _ => rfl, fun _ => List.nodup_nil, ?_⟩, ?_, ?_, ?_, ?_⟩, rfl, ⟨[], rfl⟩,
    fun _ => rfl⟩
  · intro x k k' hx
    cases hx
  · intro t k
    simp [vosTimerInit, timerObjInit]
  · intro t hrun
    cases hrun
  · intro t hrun
    cases hrun
  · intro t hne
    exact absurd rfl hne

/-- The hand moves on and the whole slot is ahead. -/
theorem Scanning.tick {w : Wheel} {slots : Nat → List TimerId} {rest : List TimerId}
    (h : Scanning w slots rest) :
    Scanning (timerTick w) slots (slots (timerTick w).ucHand) := by
  have hlinked : Linked (timerTick w) slots := by
    unfold timerTick
    dsimp only
    split
    · exact ⟨h.linked.chains, h.linked.mem_iff, h.linked.index, h.linked.typed, h.linked.taken⟩
    · exact ⟨h.linked.chains, h.linked.mem_iff, h.linked.index, h.linked.typed, h.linked.taken⟩
  have hphase : (timerTick w).phase = .holding ((timerTick w).calendar (timerTick w).ucHand) := rfl
  refine ⟨hlinked, ?_, ⟨[], rfl⟩, ?_⟩
  · rw [hphase]
    exact (hlinked.chains.chain _).head_eq
  · intro hidle
    rw [hphase] at hidle
    cases hidle

/-- Moving between the phases of one object changes no list. -/
theorem Scanning.setPhase {w : Wheel} {slots : Nat → List TimerId} {rest : List TimerId}
    (h : Scanning w slots rest) {phase : Phase} (hcursor : phase.cursor = w.phase.cursor)
    (hidle : phase = .idle → rest = []) : Scanning { w with phase := phase } slots rest :=
  ⟨⟨h.linked.chains, h.linked.mem_iff, h.linked.index, h.linked.typed, h.linked.taken⟩,
    hcursor.trans h.cursor, h.onSlot, hidle⟩

theorem Scanning.step {w : Wheel} {slots : Nat → List TimerId} {rest : List TimerId}
    (h : Scanning w slots rest) {e : TimerEvent} (hguard : scanGuard w e) :
    ∃ slots' rest', Scanning (timerStep w e) slots' rest' := by
  cases e with
  | op o =>
    by_cases hfree : w.phase.mutexFree = true
    · obtain ⟨-, slots', h'⟩ := h.call hguard.1 hguard.2 hfree
      have hstep : timerStep w (.op o) = perform w o := if_pos hfree
      rw [hstep]
      exact ⟨slots', _, h'⟩
    · have hstep : timerStep w (.op o) = w := if_neg hfree
      rw [hstep]
      exact ⟨slots, rest, h⟩
  | tick =>
    by_cases hidle : w.phase = .idle
    · have hstep : timerStep w .tick = timerTick w := if_pos hidle
      rw [hstep]
      exact ⟨slots, _, h.tick⟩
    · have hstep : timerStep w .tick = w := if_neg hidle
      rw [hstep]
      exact ⟨slots, rest, h⟩
  | scan =>
    have hcursor := h.cursor
    cases hp : w.phase with
    | idle =>
      have hstep : timerStep w .scan = w := by simp only [timerStep, hp]
      rw [hstep]
      exact ⟨slots, rest, h⟩
    | holding pCurr =>
      rw [hp] at hcursor
      cases rest with
      | nil =>
        cases hcursor
        have hstep : timerStep w .scan = { w with phase := .idle } := by simp only [timerStep, hp]
        rw [hstep]
        exact ⟨slots, [], h.setPhase (by rw [hp]; rfl) (fun _ => rfl)⟩
      | cons p rest =>
        cases hcursor
        have hstep : timerStep w .scan = scanVisit w p := by
          simp only [timerStep, hp]
        rw [hstep]
        obtain ⟨-, ⟨slots', h'⟩, -⟩ := h.visit
        exact ⟨slots', rest, h'⟩
    | inCallback pCurr =>
      have hstep : timerStep w .scan = { w with phase := .holding pCurr } := by
        simp only [timerStep, hp]
      rw [hstep]
      exact ⟨slots, rest, h.setPhase (by rw [hp]; rfl) (by simp)⟩

/-- Every state of a run whose steps meet the condition has its lists in order. -/
theorem scanning_run {w : Wheel} {slots : Nat → List TimerId} {rest : List TimerId}
    (h : Scanning w slots rest) {es : List TimerEvent}
    (hguard : AllSteps timerStep scanGuard w es) :
    ∃ slots' rest', Scanning (run timerStep w es) slots' rest' := by
  have hall := allStates_of_allSteps timerStep (fun w => ∃ slots rest, Scanning w slots rest)
    (fun w e hw hg => by
      obtain ⟨slots, rest, hs⟩ := hw
      exact hs.step hg) ⟨slots, rest, h⟩ hguard
  exact hall.last

/-! ### Counting the callbacks of a scan -/

/-- A call that keeps a running timer on its list does not change its data. -/
theorem data_perform_of_keeps {w : Wheel} {slots : Nat → List TimerId} (h : Linked w slots)
    {o : TimerOp} (ho : handedOut w o) {s : TimerId} (hrun : (w.tbl s).stState = .running)
    (hkeeps : keeps o s = true) : ((perform w o).tbl s).data = (w.tbl s).data := by
  obtain ⟨hframe, -⟩ := h.perform ho
  cases o with
  | getFree =>
    apply hframe.others
    intro htarget
    obtain ⟨-, -, hfree, -⟩ := h.getFree htarget
    rw [hrun] at hfree
    cases hfree
  | start pstTimer stType ulTimeout pstCallBack args =>
    by_cases htarget : pstTimer = some s
    · subst htarget
      have hsame : perform w (.start (some s) stType ulTimeout pstCallBack args) = w := by
        simp only [perform, vosTimerStart, hrun]
        split <;> rfl
      rw [hsame]
    · exact hframe.others s htarget
  | cancel pstTimer =>
    apply hframe.others
    rintro rfl
    simp [keeps] at hkeeps
  | reSchedule pstTimer ulTimeout =>
    apply hframe.others
    intro htarget
    change pstTimer = some s at htarget
    subst htarget
    simp [keeps] at hkeeps

/-- The scan has still to run the callback of `t`. -/
def Pending (w : Wheel) (rest : List TimerId) (t : TimerId) : Prop := t ∈ rest ∧ expires w t

/-- How often the callback of `t` has run. -/
def firedCount (t : TimerId) (log : List Fired) : Nat := (log.filter (·.timer = t)).length

/-- A call that takes `t` off its list. -/
def stops (t : TimerId) : TimerEvent → Bool
  | .op o => !keeps o t
  | _ => false

theorem expires_congr {w w' : Wheel} {t : TimerId} (hdata : (w'.tbl t).data = (w.tbl t).data)
    (hwrap : w'.ulClockWrap = w.ulClockWrap) : expires w' t ↔ expires w t := by
  obtain ⟨-, -, -, -, -, hcb, -, hcounter⟩ := data_eq_iff.mp hdata
  unfold expires
  rw [hcb, hcounter, hwrap]

/-- What one step of a scan does to the account of `t`. -/
structure Accounted (t : TimerId) (w : Wheel) (rest : List TimerId) (e : TimerEvent) (w' : Wheel)
    (rest' : List TimerId) : Prop where
  quiet : ¬Pending w rest t →
    ¬Pending w' rest' t ∧ firedCount t w'.fired = firedCount t w.fired
  pending : Pending w rest t →
    (Pending w' rest' t ∧ firedCount t w'.fired = firedCount t w.fired) ∨
      (¬Pending w' rest' t ∧ firedCount t w'.fired = firedCount t w.fired ∧ stops t e = true) ∨
      (¬Pending w' rest' t ∧ firedCount t w'.fired = firedCount t w.fired + 1)

theorem Accounted.of_same {t : TimerId} {w w' : Wheel} {rest : List TimerId} (e : TimerEvent)
    (htbl : w'.tbl = w.tbl) (hwrap : w'.ulClockWrap = w.ulClockWrap)
    (hfired : w'.fired = w.fired) : Accounted t w rest e w' rest := by
  have hiff : Pending w' rest t ↔ Pending w rest t := by
    unfold Pending
    rw [expires_congr (by rw [htbl]) hwrap]
  refine ⟨?_, ?_⟩
  · intro hquiet
    exact ⟨fun hpend => hquiet (hiff.mp hpend), by rw [hfired]⟩
  · intro hpend
    exact Or.inl ⟨hiff.mpr hpend, by rw [hfired]⟩

theorem Scanning.accounted_call {w : Wheel} {slots : Nat → List TimerId} {rest : List TimerId}
    (h : Scanning w slots rest) {o : TimerOp} (ho : handedOut w o) (t : TimerId) :
    Accounted t w rest (.op o) (perform w o) (rest.filter (keeps o)) := by
  obtain ⟨hframe, -⟩ := h.linked.perform ho
  have hstay : t ∈ rest → keeps o t = true → (expires (perform w o) t ↔ expires w t) := by
    intro hmem hkeeps
    exact expires_congr (data_perform_of_keeps h.linked ho (h.running hmem).1 hkeeps)
      hframe.ulClockWrap
  refine ⟨?_, ?_⟩
  · intro hquiet
    refine ⟨?_, by rw [hframe.fired]⟩
    rintro ⟨hmem, hexp⟩
    obtain ⟨hrest, hkeeps⟩ := List.mem_filter.mp hmem
    exact hquiet ⟨hrest, (hstay hrest hkeeps).mp hexp⟩
  · rintro ⟨hrest, hexp⟩
    cases hkeeps : keeps o t with
    | true =>
      exact Or.inl ⟨⟨List.mem_filter.mpr ⟨hrest, hkeeps⟩, (hstay hrest hkeeps).mpr hexp⟩,
        by rw [hframe.fired]⟩
    | false =>
      refine Or.inr (Or.inl ⟨?_, by rw [hframe.fired], by simp [stops, hkeeps]⟩)
      rintro ⟨hmem, -⟩
      rw [(List.mem_filter.mp hmem).2] at hkeeps
      cases hkeeps

theorem Scanning.accounted_visit {w : Wheel} {slots : Nat → List TimerId} {p : TimerId}
    {rest : List TimerId} (h : Scanning w slots (p :: rest)) (t : TimerId) :
    Accounted t w (p :: rest) .scan (scanVisit w p) rest := by
  obtain ⟨hframe, -, hfired⟩ := h.visit
  have hp : p ∉ rest := (List.nodup_cons.mp h.nodup).1
  by_cases htp : t = p
  · subst htp
    have hgone : ¬Pending (scanVisit w t) rest t := fun hpend => hp hpend.1
    rcases hfired with ⟨hexp, func, hlog⟩ | ⟨hnot, hlog⟩
    · refine ⟨?_, ?_⟩
      · intro hquiet
        exact absurd ⟨List.mem_cons_self .., hexp⟩ hquiet
      · intro _
        refine Or.inr (Or.inr ⟨hgone, ?_⟩)
        rw [hlog]
        simp [firedCount]
    · refine ⟨?_, ?_⟩
      · intro _
        exact ⟨hgone, by rw [hlog]⟩
      · intro hpend
        exact absurd hpend.2 hnot
  · have hiff : Pending (scanVisit w p) rest t ↔ Pending w (p :: rest) t := by
      unfold Pending
      rw [expires_congr (hframe.others t htp) hframe.ulClockWrap]
      simp [htp]
    have hcount : firedCount t (scanVisit w p).fired = firedCount t w.fired := by
      rcases hfired with ⟨-, func, hlog⟩ | ⟨-, hlog⟩
      · have hne : ¬p = t := fun heq => htp heq.symm
        rw [hlog]
        simp [firedCount, hne]
      · rw [hlog]
    refine ⟨?_, ?_⟩
    · intro hquiet
      exact ⟨fun hpend => hquiet (hiff.mp hpend), hcount⟩
    · intro hpend
      exact Or.inl ⟨hiff.mpr hpend, hcount⟩

/-- **One step of a scan**, for every timer at once. -/
theorem Scanning.accounted {w : Wheel} {slots : Nat → List TimerId} {rest : List TimerId}
    (h : Scanning w slots rest) {e : TimerEvent} (hguard : scanGuard w e) (htick : e ≠ .tick) :
    ∃ slots' rest', Scanning (timerStep w e) slots' rest' ∧
      (∀ t, Accounted t w rest e (timerStep w e) rest') ∧
      (∀ o, e = .op o → w.phase.mutexFree = true → rest' = rest.filter (keeps o)) := by
  cases e with
  | op o =>
    by_cases hfree : w.phase.mutexFree = true
    · have hstep : timerStep w (.op o) = perform w o := if_pos hfree
      rw [hstep]
      obtain ⟨-, slots', h'⟩ := h.call hguard.1 hguard.2 hfree
      refine ⟨slots', _, h', fun t => h.accounted_call hguard.1 t, ?_⟩
      rintro o' heq -
      cases heq
      rfl
    · have hstep : timerStep w (.op o) = w := if_neg hfree
      rw [hstep]
      exact ⟨slots, rest, h, fun t => Accounted.of_same _ rfl rfl rfl,
        fun _ _ hmutex => absurd hmutex hfree⟩
  | tick => exact absurd rfl htick
  | scan =>
    have hcursor := h.cursor
    cases hp : w.phase with
    | idle =>
      have hstep : timerStep w .scan = w := by simp only [timerStep, hp]
      rw [hstep]
      exact ⟨slots, rest, h, fun t => Accounted.of_same _ rfl rfl rfl, by simp⟩
    | holding pCurr =>
      rw [hp] at hcursor
      cases rest with
      | nil =>
        cases hcursor
        have hstep : timerStep w .scan = { w with phase := .idle } := by simp only [timerStep, hp]
        rw [hstep]
        exact ⟨slots, [], h.setPhase (by rw [hp]; rfl) (fun _ => rfl),
          fun t => Accounted.of_same _ rfl rfl rfl, by simp⟩
      | cons p rest =>
        cases hcursor
        have hstep : timerStep w .scan = scanVisit w p := by simp only [timerStep, hp]
        rw [hstep]
        obtain ⟨-, ⟨slots', h'⟩, -⟩ := h.visit
        exact ⟨slots', rest, h', fun t => h.accounted_visit t, by simp⟩
    | inCallback pCurr =>
      have hstep : timerStep w .scan = { w with phase := .holding pCurr } := by
        simp only [timerStep, hp]
      rw [hstep]
      exact ⟨slots, rest, h.setPhase (by rw [hp]; rfl) (by simp),
        fun t => Accounted.of_same _ rfl rfl rfl, by simp⟩

/-- A timer whose callback is not pending stays so for the rest of the scan. -/
theorem quiet_run {w : Wheel} {slots : Nat → List TimerId} {rest : List TimerId}
    (h : Scanning w slots rest) {t : TimerId} (hquiet : ¬Pending w rest t)
    {es : List TimerEvent} (hguard : AllSteps timerStep scanGuard w es)
    (htick : ∀ e ∈ es, e ≠ .tick) :
    firedCount t (run timerStep w es).fired = firedCount t w.fired := by
  induction es generalizing w slots rest with
  | nil => rfl
  | cons e es ih =>
    obtain ⟨slots', rest', h', hacc, -⟩ := h.accounted hguard.1 (htick e (List.mem_cons_self ..))
    obtain ⟨hquiet', hcount⟩ := (hacc t).quiet hquiet
    rw [run_cons, ih h' hquiet' hguard.2 (fun e' he' => htick e' (List.mem_cons_of_mem _ he')),
      hcount]

/-- A pending callback is still pending at the end, or was stopped, or has run once. -/
theorem pending_run {w : Wheel} {slots : Nat → List TimerId} {rest : List TimerId}
    (h : Scanning w slots rest) {t : TimerId} (hpend : Pending w rest t)
    {es : List TimerEvent} (hguard : AllSteps timerStep scanGuard w es)
    (htick : ∀ e ∈ es, e ≠ .tick) :
    (firedCount t (run timerStep w es).fired = firedCount t w.fired ∧
        ((run timerStep w es).phase ≠ .idle ∨ ∃ e ∈ es, stops t e = true)) ∨
      firedCount t (run timerStep w es).fired = firedCount t w.fired + 1 := by
  induction es generalizing w slots rest with
  | nil =>
    refine Or.inl ⟨rfl, Or.inl ?_⟩
    intro hidle
    have hempty := h.idle hidle
    rw [hempty] at hpend
    cases hpend.1
  | cons e es ih =>
    have htick' : ∀ e' ∈ es, e' ≠ .tick := fun e' he' => htick e' (List.mem_cons_of_mem _ he')
    obtain ⟨slots', rest', h', hacc, -⟩ := h.accounted hguard.1 (htick e (List.mem_cons_self ..))
    rw [run_cons]
    rcases (hacc t).pending hpend with ⟨hpend', hcount⟩ | ⟨hquiet', hcount, hstop⟩ |
        ⟨hquiet', hcount⟩
    · rcases ih h' hpend' hguard.2 htick' with ⟨hsame, hwhy⟩ | hone
      · refine Or.inl ⟨hsame.trans hcount, ?_⟩
        rcases hwhy with hphase | ⟨e', he', hstop⟩
        · exact Or.inl hphase
        · exact Or.inr ⟨e', List.mem_cons_of_mem _ he', hstop⟩
      · exact Or.inr (by rw [hone, hcount])
    · refine Or.inl ⟨(quiet_run h' hquiet' hguard.2 htick').trans hcount, Or.inr ?_⟩
      exact ⟨e, List.mem_cons_self .., hstop⟩
    · exact Or.inr ((quiet_run h' hquiet' hguard.2 htick').trans hcount)

/-- A task that goes on scanning comes to the end of the slot. -/
theorem scan_ends {w : Wheel} {slots : Nat → List TimerId} {rest : List TimerId}
    (h : Scanning w slots rest) :
    ∃ n, (run timerStep w (List.replicate n .scan)).phase = .idle := by
  induction rest generalizing w slots with
  | nil =>
    have hcursor := h.cursor
    cases hp : w.phase with
    | idle => exact ⟨0, hp⟩
    | holding pCurr =>
      rw [hp] at hcursor
      cases hcursor
      refine ⟨1, ?_⟩
      simp [timerStep, hp]
    | inCallback pCurr =>
      rw [hp] at hcursor
      cases hcursor
      refine ⟨2, ?_⟩
      simp [List.replicate_succ, timerStep, hp]
  | cons p rest ih =>
    -- from any state that holds the mutex on `p`, the visit leads to the rest
    have hvisit : ∀ {w : Wheel} {slots : Nat → List TimerId}, Scanning w slots (p :: rest) →
        w.phase = .holding (some p) →
        ∃ n, (run timerStep w (List.replicate n .scan)).phase = .idle := by
      intro w slots h hp
      obtain ⟨-, ⟨slots', h'⟩, -⟩ := h.visit
      obtain ⟨n, hn⟩ := ih h'
      refine ⟨n + 1, ?_⟩
      have hstep : timerStep w .scan = scanVisit w p := by simp only [timerStep, hp]
      rw [List.replicate_succ, run_cons, hstep]
      exact hn
    have hcursor := h.cursor
    cases hp : w.phase with
    | idle => exact ⟨0, hp⟩
    | holding pCurr =>
      rw [hp] at hcursor
      cases hcursor
      exact hvisit h hp
    | inCallback pCurr =>
      rw [hp] at hcursor
      cases hcursor
      have hstep : timerStep w .scan = { w with phase := .holding (some p) } := by
        simp only [timerStep, hp]
      obtain ⟨n, hn⟩ := hvisit (w := { w with phase := .holding (some p) })
        (h.setPhase (by rw [hp]; rfl) (by simp)) rfl
      refine ⟨n + 1, ?_⟩
      rw [List.replicate_succ, run_cons, hstep]
      exact hn

/-! ### The scan as a whole -/

/-- In the slot under the hand, due in the current round, with a callback to run. -/
def dueNow (w : Wheel) (t : TimerId) : Prop :=
  (w.tbl t).stState = .running ∧ (w.tbl t).ulCalIndex = w.ucHand ∧
    (w.tbl t).ulWrapCounter = w.ulClockWrap ∧ (w.tbl t).pstCallBackFunc ≠ none

instance (w : Wheel) (t : TimerId) : Decidable (dueNow w t) :=
  inferInstanceAs (Decidable (_ ∧ _ ∧ _ ∧ _))

/-- What a scan owes its timers: `w` is the state in which the scan begins, `es` what
happens until it is looked at. -/
structure ScanCorrect (w : Wheel) (es : List TimerEvent) : Prop where
  once : (run timerStep w es).phase = .idle → ∀ t, dueNow w t → (∀ e ∈ es, stops t e = false) →
    firedCount t (run timerStep w es).fired = firedCount t w.fired + 1
  atMostOnce : ∀ t, firedCount t (run timerStep w es).fired ≤ firedCount t w.fired + 1
  onlyDue : ∀ t, ¬dueNow w t → firedCount t (run timerStep w es).fired = firedCount t w.fired
  cancelled : ∀ t es₁ es₂, es = es₁ ++ .op (.cancel (some t)) :: es₂ →
    (run timerStep w es₁).phase.mutexFree = true →
    firedCount t (run timerStep w es).fired = firedCount t (run timerStep w es₁).fired
  ends : ∃ n, (run timerStep w (es ++ List.replicate n .scan)).phase = .idle

theorem Scanning.scanCorrect {w : Wheel} {slots : Nat → List TimerId} {rest : List TimerId}
    (h : Scanning w slots rest) (hall : rest = slots w.ucHand) {es : List TimerEvent}
    (hguard : AllSteps timerStep scanGuard w es) (htick : ∀ e ∈ es, e ≠ .tick) :
    ScanCorrect w es := by
  have hdue : ∀ t, dueNow w t ↔ Pending w rest t := by
    intro t
    unfold dueNow Pending expires
    rw [hall, h.linked.mem_iff]
    tauto
  refine ⟨?_, ?_, ?_, ?_, ?_⟩
  · intro hidle t ht hstops
    rcases pending_run h ((hdue t).mp ht) hguard htick with ⟨-, hwhy⟩ | hone
    · rcases hwhy with hphase | ⟨e, he, hstop⟩
      · exact absurd hidle hphase
      · rw [hstops e he] at hstop
        cases hstop
    · exact hone
  · intro t
    by_cases hpend : Pending w rest t
    · rcases pending_run h hpend hguard htick with ⟨hsame, -⟩ | hone
      · omega
      · omega
    · rw [quiet_run h hpend hguard htick]
      omega
  · intro t ht
    exact quiet_run h (fun hpend => ht ((hdue t).mpr hpend)) hguard htick
  · intro t es₁ es₂ hes hfree
    subst hes
    obtain ⟨hguard₁, hguard₂⟩ := AllSteps.append_iff.mp hguard
    obtain ⟨slots₁, rest₁, h₁⟩ := scanning_run h hguard₁
    obtain ⟨slots₂, rest₂, h₂, hacc, hrest⟩ := h₁.accounted hguard₂.1 (by simp)
    have hgone : ¬Pending (timerStep (run timerStep w es₁) (.op (.cancel (some t)))) rest₂ t := by
      rintro ⟨hmem, -⟩
      rw [hrest _ rfl hfree] at hmem
      simpa [keeps] using (List.mem_filter.mp hmem).2
    have hcall : firedCount t (timerStep (run timerStep w es₁) (.op (.cancel (some t)))).fired =
        firedCount t (run timerStep w es₁).fired := by
      have hstep : timerStep (run timerStep w es₁) (.op (.cancel (some t))) =
          perform (run timerStep w es₁) (.cancel (some t)) := if_pos hfree
      rw [hstep, (h₁.linked.perform hguard₂.1.1).1.fired]
    have htick₂ : ∀ e ∈ es₂, e ≠ .tick := by
      intro e he
      exact htick e (by simp [he])
    rw [run_append, run_cons, quiet_run h₂ hgone hguard₂.2 htick₂, hcall]
  · obtain ⟨slots', rest', h'⟩ := scanning_run h hguard
    obtain ⟨n, hn⟩ := scan_ends h'
    exact ⟨n, by rw [run_append]; exact hn⟩

/-- **The scan of a slot.**  From every state that is reached by calls, ticks and scans
none of which cancels or reschedules the timer the task has saved as its next, and
through any such calls during the scan, every due timer that is not stopped has its
callback run exactly once, and none runs after its timer was cancelled. -/
theorem scan_of_slot (before during : List TimerEvent)
    (hbefore : AllSteps timerStep scanGuard vosTimerInit before)
    (hduring : AllSteps timerStep scanGuard (timerTick (run timerStep vosTimerInit before)) during)
    (htick : ∀ e ∈ during, e ≠ .tick) :
    ScanCorrect (timerTick (run timerStep vosTimerInit before)) during := by
  obtain ⟨slots, rest, h⟩ := scanning_run scanning_init hbefore
  exact h.tick.scanCorrect rfl hduring htick

/-- Three timers on one slot; the last one started is visited first. -/
def threeTimers : List TimerEvent :=
  [ .op .getFree, .op (.start (some 0) .oneShot 50 (some 100) []),
    .op .getFree, .op (.start (some 1) .oneShot 50 (some 101) []),
    .op .getFree, .op (.start (some 2) .oneShot 50 (some 102) []) ]

/-- The callback of timer 2 cancels timer 0, which is not the next one. -/
theorem scan_of_slot_cancel_last :
    AllSteps timerStep scanGuard vosTimerInit threeTimers ∧
      ScanCorrect (timerTick (run timerStep vosTimerInit threeTimers))
        [.scan, .op (.cancel (some 0)), .scan, .scan, .scan, .scan] :=
  ⟨by decide +kernel, scan_of_slot threeTimers _ (by decide +kernel) (by decide +kernel)
    (by decide)⟩

/-- The callback of timer 2 cancels timer 1, on which the saved pointer stands: timer 0
is due, nobody cancels it, and its callback does not run. -/
theorem cancelled_next_loses_slot :
    ¬ScanCorrect (timerTick (run timerStep vosTimerInit threeTimers))
        [.scan, .op (.cancel (some 1)), .scan, .scan, .scan] := by
  intro hcorrect
  have honce := hcorrect.once (by decide +kernel) 0 (by decide +kernel) (by decide)
  revert honce
  decide +kernel

end Opconn.Vos
