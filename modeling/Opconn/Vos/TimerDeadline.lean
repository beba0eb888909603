import Opconn.Vos.TimerScan

/-!
# Deadlines

A timer started with a timeout of `T` ticks is linked into the slot and the round
its deadline falls in, and the scan of that slot in that round runs its callback.
For `T = 0` the deadline is the tick that has just been scanned: the timer waits
in a slot whose round is over.  The result says when the callbacks of a timer run,
for every run of calls, ticks and scans, and that it is right exactly for timeouts
of at least `TIMER_GRANULARITY`.
-/

namespace Opconn.Vos

open DList Runs

/-! ### The clock -/

/-- Hand and wrap counter show the number of ticks. -/
structure Clock (w : Wheel) : Prop where
  hand : w.ucHand = w.ticks % calendarSize
  wrap : w.ulClockWrap = w.ticks / calendarSize % 2 ^ 64

theorem Clock.of_eq {w w' : Wheel} (h : Clock w) (hhand : w'.ucHand = w.ucHand)
    (hwrap : w'.ulClockWrap = w.ulClockWrap) (hticks : w'.ticks = w.ticks) : Clock w' := by
  constructor
  · rw [hhand, hticks]
    exact h.hand
  · rw [hwrap, hticks]
    exact h.wrap

theorem timerTick_fields (w : Wheel) :
    (timerTick w).tbl = w.tbl ∧ (timerTick w).fired = w.fired ∧
      (timerTick w).ticks = w.ticks + 1 ∧
      (timerTick w).ucHand = (if calendarSize ≤ w.ucHand + 1 then 0 else w.ucHand + 1) ∧
      (timerTick w).ulClockWrap =
        (if calendarSize ≤ w.ucHand + 1 then (w.ulClockWrap + 1) % 2 ^ 64 else w.ulClockWrap) := by
  unfold timerTick
  by_cases hround : calendarSize ≤ w.ucHand + 1
  · simp [hround]
  · simp [hround]

theorem tbl_timerTick (w : Wheel) : (timerTick w).tbl = w.tbl := (timerTick_fields w).1

theorem fired_timerTick (w : Wheel) : (timerTick w).fired = w.fired := (timerTick_fields w).2.1

theorem ticks_timerTick (w : Wheel) : (timerTick w).ticks = w.ticks + 1 := (timerTick_fields w).2.2.1

theorem Clock.tick {w : Wheel} (h : Clock w) : Clock (timerTick w) := by
  obtain ⟨-, -, hticks, hhand', hwrap'⟩ := timerTick_fields w
  have hhand := h.hand
  have hwrap := h.wrap
  by_cases hround : calendarSize ≤ w.ucHand + 1
  · rw [if_pos hround] at hhand' hwrap'
    simp only [calendarSize] at hhand hwrap hround
    constructor
    · rw [hhand', hticks, calendarSize]
      omega
    · rw [hwrap', hticks, calendarSize]
      omega
  · rw [if_neg hround] at hhand' hwrap'
    simp only [calendarSize] at hhand hwrap hround
    constructor
    · rw [hhand', hticks, calendarSize]
      omega
    · rw [hwrap', hticks, calendarSize]
      omega

/-- A timeout scheduled at tick `n` falls in the slot and the round of `n + T`. -/
theorem Clock.schedule {w : Wheel} (h : Clock w) {ulTimeout : Nat} (hlt : ulTimeout < 2 ^ 32) :
    slotOf w ulTimeout = (w.ticks + ulTimeout / timerGranularity) % calendarSize ∧
      roundOf w ulTimeout =
        (w.ticks + ulTimeout / timerGranularity) / calendarSize % 2 ^ 64 := by
  have hhand := h.hand
  have hwrap := h.wrap
  unfold slotOf roundOf
  simp only [calendarSize, timerGranularity] at hhand hwrap ⊢
  rw [hhand, hwrap]
  omega

/-! ### A timer on its way -/

/-- `t` runs towards the deadline `D`, in period `T`. -/
structure Armed (t : TimerId) (ty : TimerType) (T D : Nat) (w : Wheel) (rest : List TimerId) :
    Prop where
  stState : (w.tbl t).stState = .running
  stType : (w.tbl t).stType = ty
  callBack : (w.tbl t).pstCallBackFunc ≠ none
  ulTimeOut : (w.tbl t).ulTimeOut = T
  slot : (w.tbl t).ulCalIndex = D % calendarSize
  round : (w.tbl t).ulWrapCounter = D / calendarSize % 2 ^ 64
  lower : D ≤ w.ticks + T
  upper : w.ticks ≤ D
  ahead : w.ticks = D → t ∈ rest

/-- The ticks in which the callback of `t` ran. -/
def firedTicks (t : TimerId) (log : List Fired) : List Nat :=
  (log.filter (·.timer = t)).map (·.tick)

/-- The ticks `n + T`, `n + 2 * T`, and so on. -/
def periods (n T count : Nat) : List Nat := (List.range count).map fun i => n + (i + 1) * T

theorem periods_succ (n T count : Nat) :
    periods n T (count + 1) = periods n T count ++ [n + (count + 1) * T] := by
  simp [periods, List.range_succ]

/-- What is known of `t` after it was armed at tick `n`, when its callback had run in
the ticks `base`: it is on its way to the next deadline, or it was a one-shot timer
that has run. -/
def Track (t : TimerId) (ty : TimerType) (T n : Nat) (base : List Nat) (w : Wheel)
    (rest : List TimerId) : Prop :=
  (∃ j, (ty = .oneShot → j = 0) ∧ Armed t ty T (n + (j + 1) * T) w rest ∧
      firedTicks t w.fired = base ++ periods n T j) ∨
    (ty = .oneShot ∧ (w.tbl t).stState = .free ∧ n + T ≤ w.ticks ∧
      firedTicks t w.fired = base ++ periods n T 1)

/-- A step that neither touches `t` nor the clock. -/
theorem Track.frame {t : TimerId} {ty : TimerType} {T n : Nat} {base : List Nat} {w w' : Wheel}
    {rest rest' : List TimerId} (h : Track t ty T n base w rest)
    (hdata : (w'.tbl t).data = (w.tbl t).data) (hticks : w'.ticks = w.ticks)
    (hfired : firedTicks t w'.fired = firedTicks t w.fired) (hrest : t ∈ rest → t ∈ rest') :
    Track t ty T n base w' rest' := by
  obtain ⟨hst, -, hcal, htyp, htime, hcb, -, hwrap⟩ := data_eq_iff.mp hdata
  rcases h with ⟨j, hj, harmed, hlog⟩ | ⟨hty, hfree, hpast, hlog⟩
  · refine Or.inl ⟨j, hj, ?_, hfired.trans hlog⟩
    refine ⟨hst.trans harmed.stState, htyp.trans harmed.stType, ?_,
      htime.trans harmed.ulTimeOut, hcal.trans harmed.slot, hwrap.trans harmed.round, ?_, ?_, ?_⟩
    · rw [hcb]
      exact harmed.callBack
    · rw [hticks]
      exact harmed.lower
    · rw [hticks]
      exact harmed.upper
    · intro heq
      rw [hticks] at heq
      exact hrest (harmed.ahead heq)
  · refine Or.inr ⟨hty, hst.trans hfree, ?_, hfired.trans hlog⟩
    rw [hticks]
    exact hpast

/-- The hand moves on: the deadline comes one tick nearer, or its slot is now ahead. -/
theorem Track.tick {t : TimerId} {ty : TimerType} {T n : Nat} {base : List Nat} {w : Wheel}
    {slots : Nat → List TimerId} {rest : List TimerId} (h : Track t ty T n base w rest)
    (hscan : Scanning w slots rest) (hclock : Clock w) (hidle : w.phase = .idle) :
    Track t ty T n base (timerTick w) (slots (timerTick w).ucHand) := by
  have hempty := hscan.idle hidle
  rcases h with ⟨j, hj, harmed, hlog⟩ | ⟨hty, hfree, hpast, hlog⟩
  · refine Or.inl ⟨j, hj, ?_, by rw [fired_timerTick]; exact hlog⟩
    have hbefore : w.ticks ≠ n + (j + 1) * T := by
      intro heq
      have hmem := harmed.ahead heq
      rw [hempty] at hmem
      cases hmem
    have hlower := harmed.lower
    have hupper := harmed.upper
    refine ⟨?_, ?_, ?_, ?_, ?_, ?_, ?_, ?_, ?_⟩
    · rw [tbl_timerTick]
      exact harmed.stState
    · rw [tbl_timerTick]
      exact harmed.stType
    · rw [tbl_timerTick]
      exact harmed.callBack
    · rw [tbl_timerTick]
      exact harmed.ulTimeOut
    · rw [tbl_timerTick]
      exact harmed.slot
    · rw [tbl_timerTick]
      exact harmed.round
    · rw [ticks_timerTick]
      omega
    · rw [ticks_timerTick]
      omega
    · intro heq
      rw [hclock.tick.hand, heq]
      exact (hscan.linked.mem_iff t _).mpr ⟨harmed.stState, harmed.slot⟩
  · refine Or.inr ⟨hty, ?_, ?_, ?_⟩
    · rw [tbl_timerTick]
      exact hfree
    · rw [ticks_timerTick]
      omega
    · rw [fired_timerTick]
      exact hlog

/-! ### The visit of the timer itself -/

/-- In the slot of the hand, the round is the current one exactly at the deadline. -/
theorem Armed.expires_iff {t : TimerId} {ty : TimerType} {T D : Nat} {w : Wheel}
    {rest : List TimerId} (h : Armed t ty T D w rest) (hclock : Clock w)
    (hT : T < 2 ^ 32) (hslot : (w.tbl t).ulCalIndex = w.ucHand) :
    expires w t ↔ w.ticks = D := by
  have hlower := h.lower
  have hupper := h.upper
  have hsame : D % calendarSize = w.ticks % calendarSize := by
    rw [← h.slot, hslot, hclock.hand]
  unfold expires
  rw [h.round, hclock.wrap]
  simp only [calendarSize] at hsame ⊢
  constructor
  · rintro ⟨hround, -⟩
    omega
  · intro heq
    exact ⟨by rw [heq], h.callBack⟩

/-- A visit that finds nothing to do leaves the objects as they are. -/
theorem tbl_scanVisit_of_not_expires {w : Wheel} {p : TimerId} (hnot : ¬expires w p)
    (hcb : (w.tbl p).pstCallBackFunc ≠ none) : (scanVisit w p).tbl = w.tbl := by
  have hdue : ¬(w.tbl p).ulWrapCounter = w.ulClockWrap := fun heq => hnot ⟨heq, hcb⟩
  simp only [scanVisit, if_neg hdue]

/-- An expired one-shot timer is free again, a recurring one is scheduled anew. -/
theorem scanVisit_expired {w : Wheel} {slots : Nat → List TimerId} {p : TimerId}
    {rest : List TimerId} (h : Scanning w slots (p :: rest)) (hexp : expires w p) :
    ((w.tbl p).stType = .oneShot → ((scanVisit w p).tbl p).stState = .free) ∧
      ((w.tbl p).stType = .reocurring →
        Scheduled w ((w.tbl p).ulTimeOut * timerGranularity % 2 ^ 32) ((scanVisit w p).tbl p) ∧
          ((scanVisit w p).tbl p).stType = .reocurring ∧
          ((scanVisit w p).tbl p).pstCallBackFunc = (w.tbl p).pstCallBackFunc) := by
  obtain ⟨hdue, hcb⟩ := hexp
  obtain ⟨func, hfunc⟩ := Option.ne_none_iff_exists'.mp hcb
  obtain ⟨hrun, -⟩ := h.running (List.mem_cons_self ..)
  refine ⟨?_, ?_⟩
  · intro htype
    obtain ⟨-, -, hfree, -⟩ := h.linked.cancel (t := p) (by rw [hrun]; simp)
    have htbl : (scanVisit w p).tbl = (cancelTimer w p).tbl := by
      simp only [scanVisit, if_pos hdue, hfunc, htype]
    rw [htbl]
    exact hfree
  · intro htype
    obtain ⟨-, -, hsched, htyp, hcall, -⟩ :=
      h.linked.reSchedule hrun ((w.tbl p).ulTimeOut * timerGranularity % 2 ^ 32)
    have htbl : (scanVisit w p).tbl =
        (reScheduleTimer w p ((w.tbl p).ulTimeOut * timerGranularity % 2 ^ 32)).tbl := by
      simp only [scanVisit, if_pos hdue, hfunc, htype]
    rw [htbl]
    exact ⟨hsched, htyp.trans htype, hcall⟩

theorem firedTicks_append_self (t : TimerId) (log : List Fired) (tick : Nat) (func : FuncPtr)
    (args : List UInt32) :
    firedTicks t (log ++ [⟨tick, t, func, args⟩]) = firedTicks t log ++ [tick] := by
  simp [firedTicks]

theorem firedTicks_append_other {t p : TimerId} (hne : p ≠ t) (log : List Fired) (tick : Nat)
    (func : FuncPtr) (args : List UInt32) :
    firedTicks t (log ++ [⟨tick, p, func, args⟩]) = firedTicks t log := by
  simp [firedTicks, hne]

/-- The scan comes to `t` itself. -/
theorem Track.visit_self {t : TimerId} {ty : TimerType} {T n : Nat} {base : List Nat} {w : Wheel}
    {slots : Nat → List TimerId} {rest : List TimerId} (h : Track t ty T n base w (t :: rest))
    (hty : ty = .oneShot ∨ ty = .reocurring) (hT : 0 < T) (hlt : T * timerGranularity < 2 ^ 32)
    (hscan : Scanning w slots (t :: rest)) (hclock : Clock w) :
    Track t ty T n base (scanVisit w t) rest := by
  obtain ⟨hframe, -, hfired⟩ := hscan.visit
  obtain ⟨hrun, hslot⟩ := hscan.running (List.mem_cons_self ..)
  rcases h with ⟨j, hj, harmed, hlog⟩ | ⟨-, hfree, -, -⟩
  swap
  · rw [hrun] at hfree
    cases hfree
  have hsmall : T < 2 ^ 32 := by
    simp only [timerGranularity] at hlt
    omega
  have hiff := harmed.expires_iff hclock hsmall hslot
  rcases hfired with ⟨hexp, func, hentry⟩ | ⟨hnot, hsame⟩
  · have hnow : w.ticks = n + (j + 1) * T := hiff.mp hexp
    have hlog' : firedTicks t (scanVisit w t).fired = base ++ periods n T (j + 1) := by
      rw [hentry, firedTicks_append_self, hlog, periods_succ, hnow, List.append_assoc]
    obtain ⟨hone, hrec⟩ := scanVisit_expired hscan hexp
    rcases hty with rfl | rfl
    · have hzero : j = 0 := hj rfl
      subst hzero
      refine Or.inr ⟨rfl, hone harmed.stType, ?_, hlog'⟩
      rw [hframe.ticks, hnow]
      omega
    · obtain ⟨hsched, htyp, hcall⟩ := hrec harmed.stType
      have hms : (w.tbl t).ulTimeOut * timerGranularity % 2 ^ 32 = T * timerGranularity := by
        rw [harmed.ulTimeOut, Nat.mod_eq_of_lt hlt]
      have hback : T * timerGranularity / timerGranularity = T :=
        Nat.mul_div_cancel _ (by decide)
      rw [hms] at hsched
      obtain ⟨hcal, hround⟩ := hclock.schedule hlt
      rw [hback] at hcal hround
      have hnext : w.ticks + T = n + (j + 1 + 1) * T := by
        rw [hnow, Nat.add_mul (j + 1) 1 T]
        omega
      refine Or.inl ⟨j + 1, by simp, ?_, hlog'⟩
      refine ⟨hsched.stState, htyp, ?_, hsched.ulTimeOut.trans hback, ?_, ?_, ?_, ?_, ?_⟩
      · rw [hcall]
        exact harmed.callBack
      · rw [hsched.ulCalIndex, hcal, hnext]
      · rw [hsched.ulWrapCounter, hround, hnext]
      · rw [hframe.ticks, ← hnext]
      · rw [hframe.ticks, ← hnext]
        omega
      · intro heq
        rw [hframe.ticks, ← hnext] at heq
        omega
  · have hnot' : w.ticks ≠ n + (j + 1) * T := fun heq => hnot (hiff.mpr heq)
    have htbl := tbl_scanVisit_of_not_expires hnot harmed.callBack
    refine Or.inl ⟨j, hj, ?_, by rw [hsame]; exact hlog⟩
    refine ⟨?_, ?_, ?_, ?_, ?_, ?_, ?_, ?_, ?_⟩
    · rw [htbl]
      exact harmed.stState
    · rw [htbl]
      exact harmed.stType
    · rw [htbl]
      exact harmed.callBack
    · rw [htbl]
      exact harmed.ulTimeOut
    · rw [htbl]
      exact harmed.slot
    · rw [htbl]
      exact harmed.round
    · rw [hframe.ticks]
      exact harmed.lower
    · rw [hframe.ticks]
      exact harmed.upper
    · intro heq
      rw [hframe.ticks] at heq
      exact absurd heq hnot'

/-! ### Runs -/

/-- The event leaves `t` alone: no call cancels or reschedules it, and once a one-shot
timer has run its object is not handed out to somebody else. -/
def leavesAlone (t : TimerId) (w : Wheel) : TimerEvent → Prop
  | .op o => keeps o t = true ∧ (o = .getFree → firstClear w ≠ some t)
  | _ => True

instance (t : TimerId) (w : Wheel) : (e : TimerEvent) → Decidable (leavesAlone t w e)
  | .op o => inferInstanceAs (Decidable (keeps o t = true ∧ (o = .getFree → firstClear w ≠ some t)))
  | .tick => inferInstanceAs (Decidable True)
  | .scan => inferInstanceAs (Decidable True)

/-- A call that leaves `t` alone keeps its data, whether it runs or is free. -/
theorem Track.data_call {t : TimerId} {ty : TimerType} {T n : Nat} {base : List Nat} {w : Wheel}
    {slots : Nat → List TimerId} {rest : List TimerId} (h : Track t ty T n base w rest)
    (hlinked : Linked w slots) {o : TimerOp} (ho : handedOut w o)
    (halone : leavesAlone t w (.op o)) : ((perform w o).tbl t).data = (w.tbl t).data := by
  obtain ⟨hkeeps, hgetFree⟩ := halone
  rcases h with ⟨j, -, harmed, -⟩ | ⟨-, hfree, -, -⟩
  · exact data_perform_of_keeps hlinked ho harmed.stState hkeeps
  · apply (hlinked.perform ho).1.others
    intro htarget
    cases o with
    | getFree => exact hgetFree rfl htarget
    | start pstTimer stType ulTimeout pstCallBack args =>
      change pstTimer = some t at htarget
      subst htarget
      exact ho hfree
    | cancel pstTimer =>
      change pstTimer = some t at htarget
      subst htarget
      simp [keeps] at hkeeps
    | reSchedule pstTimer ulTimeout =>
      change pstTimer = some t at htarget
      subst htarget
      simp [keeps] at hkeeps

theorem Clock.step {w : Wheel} {slots : Nat → List TimerId} {rest : List TimerId}
    (h : Clock w) (hscan : Scanning w slots rest) {e : TimerEvent} (hguard : scanGuard w e) :
    Clock (timerStep w e) := by
  cases e with
  | op o =>
    by_cases hfree : w.phase.mutexFree = true
    · have hstep : timerStep w (.op o) = perform w o := if_pos hfree
      obtain ⟨hframe, -⟩ := hscan.call hguard.1 hguard.2 hfree
      rw [hstep]
      exact h.of_eq hframe.ucHand hframe.ulClockWrap hframe.ticks
    · have hstep : timerStep w (.op o) = w := if_neg hfree
      rw [hstep]
      exact h
  | tick =>
    by_cases hidle : w.phase = .idle
    · have hstep : timerStep w .tick = timerTick w := if_pos hidle
      rw [hstep]
      exact h.tick
    · have hstep : timerStep w .tick = w := if_neg hidle
      rw [hstep]
      exact h
  | scan =>
    have hcursor := hscan.cursor
    cases hp : w.phase with
    | idle =>
      have hstep : timerStep w .scan = w := by simp only [timerStep, hp]
      rw [hstep]
      exact h
    | holding pCurr =>
      rw [hp] at hcursor
      cases rest with
      | nil =>
        cases hcursor
        have hstep : timerStep w .scan = { w with phase := .idle } := by simp only [timerStep, hp]
        rw [hstep]
        exact h.of_eq rfl rfl rfl
      | cons p rest =>
        cases hcursor
        have hstep : timerStep w .scan = scanVisit w p := by simp only [timerStep, hp]
        obtain ⟨hframe, -, -⟩ := hscan.visit
        rw [hstep]
        exact h.of_eq hframe.ucHand hframe.ulClockWrap hframe.ticks
    | inCallback pCurr =>
      have hstep : timerStep w .scan = { w with phase := .holding pCurr } := by
        simp only [timerStep, hp]
      rw [hstep]
      exact h.of_eq rfl rfl rfl

/-- **One step keeps the track.** -/
theorem Track.step {t : TimerId} {ty : TimerType} {T n : Nat} {base : List Nat} {w : Wheel}
    {slots : Nat → List TimerId} {rest : List TimerId} (h : Track t ty T n base w rest)
    (hty : ty = .oneShot ∨ ty = .reocurring) (hT : 0 < T) (hlt : T * timerGranularity < 2 ^ 32)
    (hscan : Scanning w slots rest) (hclock : Clock w) {e : TimerEvent}
    (hguard : scanGuard w e) (halone : leavesAlone t w e) :
    ∃ slots' rest', Scanning (timerStep w e) slots' rest' ∧
      Track t ty T n base (timerStep w e) rest' := by
  cases e with
  | op o =>
    by_cases hfree : w.phase.mutexFree = true
    · have hstep : timerStep w (.op o) = perform w o := if_pos hfree
      rw [hstep]
      obtain ⟨hframe, slots', hscan'⟩ := hscan.call hguard.1 hguard.2 hfree
      refine ⟨slots', _, hscan', ?_⟩
      apply h.frame (h.data_call hscan.linked hguard.1 halone) hframe.ticks
      · rw [hframe.fired]
      · intro hmem
        exact List.mem_filter.mpr ⟨hmem, halone.1⟩
    · have hstep : timerStep w (.op o) = w := if_neg hfree
      rw [hstep]
      exact ⟨slots, rest, hscan, h⟩
  | tick =>
    by_cases hidle : w.phase = .idle
    · have hstep : timerStep w .tick = timerTick w := if_pos hidle
      rw [hstep]
      exact ⟨slots, _, hscan.tick, h.tick hscan hclock hidle⟩
    · have hstep : timerStep w .tick = w := if_neg hidle
      rw [hstep]
      exact ⟨slots, rest, hscan, h⟩
  | scan =>
    have hcursor := hscan.cursor
    cases hp : w.phase with
    | idle =>
      have hstep : timerStep w .scan = w := by simp only [timerStep, hp]
      rw [hstep]
      exact ⟨slots, rest, hscan, h⟩
    | holding pCurr =>
      rw [hp] at hcursor
      cases rest with
      | nil =>
        cases hcursor
        have hstep : timerStep w .scan = { w with phase := .idle } := by simp only [timerStep, hp]
        rw [hstep]
        exact ⟨slots, [], hscan.setPhase (by rw [hp]; rfl) (fun _ => rfl),
          h.frame rfl rfl rfl id⟩
      | cons p rest =>
        cases hcursor
        have hstep : timerStep w .scan = scanVisit w p := by simp only [timerStep, hp]
        rw [hstep]
        obtain ⟨hframe, ⟨slots', hscan'⟩, hfired⟩ := hscan.visit
        refine ⟨slots', rest, hscan', ?_⟩
        by_cases hpt : p = t
        · subst hpt
          exact h.visit_self hty hT hlt hscan hclock
        · have htp : t ≠ p := fun heq => hpt heq.symm
          apply h.frame (hframe.others t htp) hframe.ticks
          · rcases hfired with ⟨-, func, hentry⟩ | ⟨-, hsame⟩
            · rw [hentry, firedTicks_append_other hpt]
            · rw [hsame]
          · intro hmem
            exact (List.mem_cons.mp hmem).resolve_left htp
    | inCallback pCurr =>
      have hstep : timerStep w .scan = { w with phase := .holding pCurr } := by
        simp only [timerStep, hp]
      rw [hstep]
      exact ⟨slots, rest, hscan.setPhase (by rw [hp]; rfl) (by simp), h.frame rfl rfl rfl id⟩

theorem track_run {t : TimerId} {ty : TimerType} {T n : Nat} {base : List Nat}
    (hty : ty = .oneShot ∨ ty = .reocurring) (hT : 0 < T) (hlt : T * timerGranularity < 2 ^ 32)
    {w : Wheel} {slots : Nat → List TimerId} {rest : List TimerId} (hscan : Scanning w slots rest)
    (hclock : Clock w) (h : Track t ty T n base w rest) {es : List TimerEvent}
    (hsteps : AllSteps timerStep (fun w e => scanGuard w e ∧ leavesAlone t w e) w es) :
    ∃ slots' rest', Scanning (run timerStep w es) slots' rest' ∧
      Track t ty T n base (run timerStep w es) rest' := by
  have hall := allStates_of_allSteps timerStep
    (fun w => Clock w ∧ ∃ slots rest, Scanning w slots rest ∧ Track t ty T n base w rest)
    (fun w e hw hg => by
      obtain ⟨hc, slots, rest, hs, htrack⟩ := hw
      exact ⟨hc.step hs hg.1, htrack.step hty hT hlt hs hc hg.1 hg.2⟩)
    ⟨hclock, slots, rest, hscan, h⟩ hsteps
  exact hall.last.2

/-- Lists and clock stay in order along a run. -/
theorem clock_run {w : Wheel} {slots : Nat → List TimerId} {rest : List TimerId}
    (hclock : Clock w) (hscan : Scanning w slots rest) {es : List TimerEvent}
    (hguard : AllSteps timerStep scanGuard w es) :
    Clock (run timerStep w es) ∧
      ∃ slots' rest', Scanning (run timerStep w es) slots' rest' := by
  have hall := allStates_of_allSteps timerStep
    (fun w => Clock w ∧ ∃ slots rest, Scanning w slots rest)
    (fun w e hw hg => by
      obtain ⟨hc, slots, rest, hs⟩ := hw
      exact ⟨hc.step hs hg, hs.step hg⟩)
    ⟨hclock, slots, rest, hscan⟩ hguard
  exact hall.last

/-- Ticks and scans meet every condition on calls. -/
theorem allSteps_of_no_call {t : TimerId} {es : List TimerEvent}
    (h : ∀ e ∈ es, e = .tick ∨ e = .scan) (w : Wheel) :
    AllSteps timerStep (fun w e => scanGuard w e ∧ leavesAlone t w e) w es := by
  apply AllSteps.of_forall_mem
  intro e he w'
  rcases h e he with rfl | rfl
  · exact ⟨trivial, trivial⟩
  · exact ⟨trivial, trivial⟩

/-! ### When the callbacks run -/

/-- The ticks up to `now` in which a timer armed at tick `n` is to run. -/
def dueTicks (ty : TimerType) (n T now : Nat) : List Nat :=
  periods n T (if ty = .oneShot then min 1 ((now - n) / T) else (now - n) / T)

/-- After a whole number of ticks the callbacks have run when they were due. -/
theorem Track.dueTicks {t : TimerId} {ty : TimerType} {T n : Nat} {base : List Nat} {w : Wheel}
    {slots : Nat → List TimerId} {rest : List TimerId} (h : Track t ty T n base w rest)
    (hT : 0 < T) (hscan : Scanning w slots rest) (hidle : w.phase = .idle) :
    firedTicks t w.fired = base ++ Vos.dueTicks ty n T w.ticks := by
  have hempty := hscan.idle hidle
  unfold Vos.dueTicks
  rcases h with ⟨j, hj, harmed, hlog⟩ | ⟨hty, -, hpast, hlog⟩
  · have hbefore : w.ticks ≠ n + (j + 1) * T := by
      intro heq
      have hmem := harmed.ahead heq
      rw [hempty] at hmem
      cases hmem
    have hlower := harmed.lower
    have hupper := harmed.upper
    have hsucc : (j + 1) * T = j * T + T := Nat.succ_mul j T
    have hrounds : (w.ticks - n) / T = j := by
      apply Nat.div_eq_of_lt_le
      · omega
      · rw [Nat.succ_mul]
        omega
    rw [hlog, hrounds]
    by_cases hone : ty = .oneShot
    · rw [if_pos hone, hj hone]
      rfl
    · rw [if_neg hone]
  · have hrounds : 1 ≤ (w.ticks - n) / T := by
      rw [Nat.le_div_iff_mul_le hT]
      omega
    rw [hlog, if_pos hty, Nat.min_eq_left hrounds]

/-- The call `e` arms `t` in state `w`: it starts the timer, or reschedules it. -/
def Arms (w : Wheel) (e : TimerEvent) (t : TimerId) (ty : TimerType) (ulTimeout : UInt32) : Prop :=
  w.phase.mutexFree = true ∧
    ((∃ func args, e = .op (.start (some t) ty ulTimeout (some func) args) ∧
        (w.tbl t).stState = .taken ∧ (ty = .oneShot ∨ ty = .reocurring)) ∨
      (e = .op (.reSchedule (some t) ulTimeout) ∧ (w.tbl t).stState = .running ∧
        (w.tbl t).stType = ty ∧ (w.tbl t).pstCallBackFunc ≠ none))

/-- **On time.**  In every state between two ticks that a run reaches from `w` by the
call `e` and then by `es`, the callbacks of `t` since `e` are those due every `T` ticks,
and a tick that has begun comes to its end. -/
def OnTime (w : Wheel) (e : TimerEvent) (es : List TimerEvent) (t : TimerId) (ty : TimerType)
    (T : Nat) : Prop :=
  ((run timerStep w (e :: es)).phase = .idle →
    firedTicks t (run timerStep w (e :: es)).fired =
      firedTicks t w.fired ++ dueTicks ty w.ticks T (run timerStep w (e :: es)).ticks) ∧
    ∃ k, (run timerStep w (e :: es ++ List.replicate k .scan)).phase = .idle

/-- What the call that arms a timer leaves behind. -/
theorem Arms.spec {w : Wheel} {e : TimerEvent} {t : TimerId} {ty : TimerType}
    {ulTimeout : UInt32} (harms : Arms w e t ty ulTimeout) {slots : Nat → List TimerId}
    {rest : List TimerId} (hscan : Scanning w slots rest) (hguard : scanGuard w e) :
    (∃ slots' rest', Scanning (timerStep w e) slots' rest' ∧ t ∉ rest') ∧
      Scheduled w ulTimeout.toNat ((timerStep w e).tbl t) ∧
      ((timerStep w e).tbl t).stType = ty ∧ ((timerStep w e).tbl t).pstCallBackFunc ≠ none ∧
      (ty = .oneShot ∨ ty = .reocurring) ∧ (timerStep w e).ticks = w.ticks ∧
      (timerStep w e).fired = w.fired := by
  obtain ⟨hfree, hcall⟩ := harms
  rcases hcall with ⟨func, args, rfl, hstate, hty⟩ | ⟨rfl, hstate, htype, hcb⟩
  · have hstep : timerStep w (.op (.start (some t) ty ulTimeout (some func) args)) =
        perform w (.start (some t) ty ulTimeout (some func) args) := if_pos hfree
    obtain ⟨hframe, slots', hscan'⟩ := hscan.call hguard.1 hguard.2 hfree
    obtain ⟨-, -, hsched, htyp, hcb, -⟩ :=
      hscan.linked.start hstate hty.symm ulTimeout.toNat (some func) args
    rw [hstep]
    refine ⟨⟨slots', _, hscan', ?_⟩, hsched, htyp, ?_, hty, hframe.ticks, hframe.fired⟩
    · intro hmem
      have hrun := (hscan.running (List.mem_filter.mp hmem).1).1
      rw [hstate] at hrun
      cases hrun
    · change ((vosTimerStart w (some t) ty ulTimeout.toNat (some func) args).2.tbl
        t).pstCallBackFunc ≠ none
      rw [hcb]
      simp
  · have hstep : timerStep w (.op (.reSchedule (some t) ulTimeout)) =
        perform w (.reSchedule (some t) ulTimeout) := if_pos hfree
    obtain ⟨hframe, slots', hscan'⟩ := hscan.call hguard.1 hguard.2 hfree
    obtain ⟨-, -, hsched, htyp, hcall, -⟩ := hscan.linked.reSchedule hstate ulTimeout.toNat
    have hkind : ty = .oneShot ∨ ty = .reocurring := by
      have htyped := hscan.linked.typed t hstate
      rw [htype] at htyped
      cases ty with
      | unknown => exact absurd rfl htyped
      | oneShot => exact Or.inl rfl
      | reocurring => exact Or.inr rfl
    rw [hstep]
    refine ⟨⟨slots', _, hscan', ?_⟩, hsched, htyp.trans htype, ?_, hkind, hframe.ticks,
      hframe.fired⟩
    · intro hmem
      simpa [keeps] using (List.mem_filter.mp hmem).2
    · change ((reScheduleTimer w t ulTimeout.toNat).tbl t).pstCallBackFunc ≠ none
      rw [hcall]
      exact hcb

/-- A timer that is not ahead of the scan is left as it is by the scan. -/
theorem scan_frame {w : Wheel} {slots : Nat → List TimerId} {rest : List TimerId} {t : TimerId}
    (h : Scanning w slots rest) (ht : t ∉ rest) (k : Nat) :
    let w' := run timerStep w (List.replicate k .scan)
    (∃ slots' rest', Scanning w' slots' rest') ∧ (w'.tbl t).data = (w.tbl t).data ∧
      w'.ticks = w.ticks ∧ firedTicks t w'.fired = firedTicks t w.fired := by
  induction k generalizing w slots rest with
  | zero => exact ⟨⟨slots, rest, h⟩, rfl, rfl, rfl⟩
  | succ k ih =>
    intro w'
    -- one step, then the rest of the steps
    have hone : ∃ slots₁ rest₁, Scanning (timerStep w .scan) slots₁ rest₁ ∧ t ∉ rest₁ ∧
        ((timerStep w .scan).tbl t).data = (w.tbl t).data ∧
        (timerStep w .scan).ticks = w.ticks ∧
        firedTicks t (timerStep w .scan).fired = firedTicks t w.fired := by
      have hcursor := h.cursor
      cases hp : w.phase with
      | idle =>
        have hstep : timerStep w .scan = w := by simp only [timerStep, hp]
        rw [hstep]
        exact ⟨slots, rest, h, ht, rfl, rfl, rfl⟩
      | holding pCurr =>
        rw [hp] at hcursor
        cases rest with
        | nil =>
          cases hcursor
          have hstep : timerStep w .scan = { w with phase := .idle } := by
            simp only [timerStep, hp]
          rw [hstep]
          exact ⟨slots, [], h.setPhase (by rw [hp]; rfl) (fun _ => rfl), ht, rfl, rfl, rfl⟩
        | cons p rest =>
          cases hcursor
          have hstep : timerStep w .scan = scanVisit w p := by simp only [timerStep, hp]
          obtain ⟨hframe, ⟨slots₁, h₁⟩, hfired⟩ := h.visit
          have htp : t ≠ p := fun heq => ht (heq ▸ List.mem_cons_self ..)
          rw [hstep]
          refine ⟨slots₁, rest, h₁, fun hmem => ht (List.mem_cons_of_mem _ hmem),
            hframe.others t htp, hframe.ticks, ?_⟩
          rcases hfired with ⟨-, func, hentry⟩ | ⟨-, hsame⟩
          · rw [hentry, firedTicks_append_other htp.symm]
          · rw [hsame]
      | inCallback pCurr =>
        have hstep : timerStep w .scan = { w with phase := .holding pCurr } := by
          simp only [timerStep, hp]
        rw [hstep]
        exact ⟨slots, rest, h.setPhase (by rw [hp]; rfl) (by simp), ht, rfl, rfl, rfl⟩
    obtain ⟨slots₁, rest₁, h₁, ht₁, hdata₁, hticks₁, hfired₁⟩ := hone
    obtain ⟨hscan', hdata, hticks, hfired⟩ := ih h₁ ht₁
    exact ⟨hscan', hdata.trans hdata₁, hticks.trans hticks₁, hfired.trans hfired₁⟩

/-- A timer armed for no tick at all waits in the slot that was scanned last, so the next
tick passes without its callback. -/
theorem not_onTime_of_short {w : Wheel} {e : TimerEvent} {t : TimerId} {ty : TimerType}
    {ulTimeout : UInt32} (harms : Arms w e t ty ulTimeout) {slots : Nat → List TimerId}
    {rest : List TimerId} (hscan : Scanning w slots rest) (hclock : Clock w)
    (hguard : scanGuard w e) (hshort : ulTimeout.toNat < timerGranularity) :
    ∃ k k', ¬OnTime w e (List.replicate k .scan ++ .tick :: List.replicate k' .scan) t ty
      (max 1 (ulTimeout.toNat / timerGranularity)) := by
  obtain ⟨⟨slots₁, rest₁, hscan₁, ht₁⟩, hsched, -, -, -, hticks₁, hfired₁⟩ :=
    harms.spec hscan hguard
  have hzero : ulTimeout.toNat / timerGranularity = 0 := Nat.div_eq_of_lt hshort
  obtain ⟨k, hidle⟩ := scan_ends hscan₁
  obtain ⟨⟨slots₂, rest₂, hscan₂⟩, hdata₂, hticks₂, hfired₂⟩ := scan_frame hscan₁ ht₁ k
  have hscans : AllSteps timerStep scanGuard (timerStep w e) (List.replicate k .scan) := by
    have hboth : AllSteps timerStep (fun w e => scanGuard w e ∧ leavesAlone t w e)
        (timerStep w e) (List.replicate k .scan) :=
      allSteps_of_no_call (fun e' he' => Or.inr (List.eq_of_mem_replicate he')) _
    exact hboth.mono (fun _ _ h => h.1)
  obtain ⟨hclock₂, -⟩ := clock_run (hclock.step hscan hguard) hscan₁ hscans
  generalize hw₂ : run timerStep (timerStep w e) (List.replicate k .scan) = w₂ at *
  -- the timer waits in the slot the hand stood on, and the hand moves to another one
  have hslot : (w₂.tbl t).ulCalIndex = w.ticks % calendarSize := by
    obtain ⟨hcal, -⟩ := hclock.schedule ulTimeout.toNat_lt
    rw [(data_eq_iff.mp hdata₂).2.2.1, hsched.ulCalIndex, hcal, hzero, Nat.add_zero]
  have ht₂ : t ∉ slots₂ (timerTick w₂).ucHand := by
    intro hmem
    have hcal := ((hscan₂.linked.mem_iff t _).mp hmem).2
    rw [hslot, hclock₂.tick.hand, ticks_timerTick, hticks₂, hticks₁] at hcal
    simp only [calendarSize] at hcal
    omega
  obtain ⟨k', hidle'⟩ := scan_ends hscan₂.tick
  obtain ⟨-, -, hticks₃, hfired₃⟩ := scan_frame hscan₂.tick ht₂ k'
  refine ⟨k, k', ?_⟩
  rintro ⟨honTime, -⟩
  have hrun : run timerStep w (e :: (List.replicate k .scan ++ .tick :: List.replicate k' .scan)) =
      run timerStep (timerTick w₂) (List.replicate k' .scan) := by
    have htick : timerStep w₂ .tick = timerTick w₂ := if_pos hidle
    rw [run_cons, run_append, run_cons, hw₂, htick]
  rw [hrun] at honTime
  have hlog := honTime hidle'
  rw [hfired₃, hticks₃, fired_timerTick, ticks_timerTick, hfired₂, hfired₁, hticks₂, hticks₁,
    hzero] at hlog
  have hnone : dueTicks ty w.ticks (max 1 0) (w.ticks + 1) = [] :=
    List.append_cancel_left (hlog.symm.trans (List.append_nil _).symm)
  have hone : dueTicks ty w.ticks (max 1 0) (w.ticks + 1) = [w.ticks + 1] := by
    simp [dueTicks, periods]
  rw [hnone] at hone
  cases hone

/-- **Timers fire on time.**  A timer that is armed in a reachable state and then left
alone has its callback run at the `T`-th tick, once or every `T` ticks, through every
continuation of the run, exactly when its timeout is at least one tick long. -/
theorem timer_fires_on_time (before : List TimerEvent)
    (hbefore : AllSteps timerStep scanGuard vosTimerInit before) (e : TimerEvent) (t : TimerId)
    (ty : TimerType) (ulTimeout : UInt32)
    (harms : Arms (run timerStep vosTimerInit before) e t ty ulTimeout)
    (hguard : scanGuard (run timerStep vosTimerInit before) e) :
    (∀ after, AllSteps timerStep (fun w e => scanGuard w e ∧ leavesAlone t w e)
        (timerStep (run timerStep vosTimerInit before) e) after →
      OnTime (run timerStep vosTimerInit before) e after t ty
        (max 1 (ulTimeout.toNat / timerGranularity))) ↔
      timerGranularity ≤ ulTimeout.toNat := by
  obtain ⟨hclock, slots, rest, hscan⟩ := clock_run ⟨rfl, rfl⟩ scanning_init hbefore
  generalize run timerStep vosTimerInit before = w at *
  constructor
  · intro hall
    by_contra hshort
    obtain ⟨k, k', hnot⟩ := not_onTime_of_short harms hscan hclock hguard (not_le.mp hshort)
    apply hnot
    apply hall
    apply allSteps_of_no_call
    intro e' he'
    rcases List.mem_append.mp he' with hmem | hmem
    · exact Or.inr (List.eq_of_mem_replicate hmem)
    · rcases List.mem_cons.mp hmem with rfl | hmem
      · exact Or.inl rfl
      · exact Or.inr (List.eq_of_mem_replicate hmem)
  · intro hlong after hafter
    obtain ⟨⟨slots₁, rest₁, hscan₁, -⟩, hsched, htype, hcb, hty, hticks₁, hfired₁⟩ :=
      harms.spec hscan hguard
    have hT : 0 < ulTimeout.toNat / timerGranularity := Nat.div_pos hlong (by decide)
    have hlt : ulTimeout.toNat / timerGranularity * timerGranularity < 2 ^ 32 :=
      lt_of_le_of_lt (Nat.div_mul_le_self _ _) ulTimeout.toNat_lt
    obtain ⟨hcal, hround⟩ := hclock.schedule ulTimeout.toNat_lt
    have hmax : max 1 (ulTimeout.toNat / timerGranularity) = ulTimeout.toNat / timerGranularity :=
      max_eq_right hT
    have htime := hsched.ulTimeOut
    have hslot := hsched.ulCalIndex.trans hcal
    have hwrap := hsched.ulWrapCounter.trans hround
    rw [hmax]
    generalize ulTimeout.toNat / timerGranularity = T at *
    have hdeadline : w.ticks + (0 + 1) * T = w.ticks + T := by simp
    have htrack : Track t ty T w.ticks (firedTicks t w.fired) (timerStep w e) rest₁ := by
      refine Or.inl ⟨0, fun _ => rfl, ?_, by rw [hfired₁]; simp [periods]⟩
      rw [hdeadline]
      refine ⟨hsched.stState, htype, hcb, htime, hslot, hwrap, ?_, ?_, ?_⟩
      · rw [hticks₁]
      · rw [hticks₁]
        omega
      · intro hnow
        rw [hticks₁] at hnow
        omega
    obtain ⟨slots', rest', hscan', htrack'⟩ :=
      track_run hty hT hlt hscan₁ (hclock.step hscan hguard) htrack hafter
    constructor
    · intro hidle
      exact htrack'.dueTicks hT hscan' hidle
    · obtain ⟨k, hk⟩ := scan_ends hscan'
      refine ⟨k, ?_⟩
      rw [run_append]
      exact hk

/-- One timer is handed out and armed for two ticks. -/
theorem timer_fires_on_time_two_ticks :
    (∀ after, AllSteps timerStep (fun w e => scanGuard w e ∧ leavesAlone 0 w e)
        (timerStep (run timerStep vosTimerInit [.op .getFree])
          (.op (.start (some 0) .reocurring 100 (some 7) []))) after →
      OnTime (run timerStep vosTimerInit [.op .getFree])
        (.op (.start (some 0) .reocurring 100 (some 7) [])) after 0 .reocurring 2) ∧
      timerGranularity ≤ (100 : UInt32).toNat :=
  have harms : Arms (run timerStep vosTimerInit [.op .getFree])
      (.op (.start (some 0) .reocurring 100 (some 7) [])) 0 .reocurring 100 :=
    ⟨by decide +kernel, Or.inl ⟨7, [], rfl, by decide +kernel, Or.inr rfl⟩⟩
  ⟨(timer_fires_on_time [.op .getFree] (by decide +kernel) _ 0 .reocurring 100 harms
    (by decide +kernel)).mpr (by decide), by decide⟩

/-- Started for 20 ms, the timer is not run by the next tick. -/
theorem short_timer_not_on_time :
    ¬OnTime (run timerStep vosTimerInit [.op .getFree])
      (.op (.start (some 0) .oneShot 20 (some 7) [])) [.tick, .scan] 0 .oneShot
      (max 1 ((20 : UInt32).toNat / timerGranularity)) := by
  rintro ⟨honTime, -⟩
  have hlog := honTime (by decide +kernel)
  revert hlog
  decide +kernel

end Opconn.Vos
