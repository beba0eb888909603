import Mathlib.Algebra.Group.Nat.Defs
import Mathlib.Logic.Function.Basic
import Mathlib.Data.List.FinRange

/-!
# The timer wheel

The embedding of `vos_timer.c`.  Timer objects live in a table of
`MAX_TIMER_OBJ`; the calendar has `CALENDAR_SIZE` slots, each the head of a list
threaded through the objects.  All calls take one recursive mutex, and the timer
task gives it up only around a callback.  A step of the model is therefore a call
made by some thread, the advance of the hand, or the task's progress to the next
object of the slot it scans; calls made while the task holds the mutex wait.
-/

namespace Opconn.Vos

/-! ### Data -/

def calendarSize : Nat := 64
abbrev maxTimerObj : Nat := 256

/-- `TIMER_GRANULARITY`, in milliseconds. -/
def timerGranularity : Nat := 50

def invalid32 : Nat := 0xFFFFFFFF

inductive TimerType where
  | unknown
  | oneShot
  | reocurring
deriving DecidableEq, Repr

inductive TimerState where
  | free
  | taken
  | running
deriving DecidableEq, Repr

/-- A `TIMER_OBJ_t *`, as an index of the table. -/
abbrev TimerId := Fin maxTimerObj

/-- A callback function, by name. -/
abbrev FuncPtr := Nat

/-- `TIMER_OBJ_t`.  Numbers are the values of the unsigned C fields. -/
structure TimerObj where
  stState : TimerState
  ulIndex : Nat
  ulCalIndex : Nat
  stType : TimerType
  ulTimeOut : Nat
  pstPrev : Option TimerId
  pstNext : Option TimerId
  pstCallBackFunc : Option FuncPtr
  ulCallBackArgs : List UInt32
  ulWrapCounter : Nat
deriving DecidableEq, Repr

/-- Where the timer task is: asleep, scanning a slot with the mutex held, or in a
callback with the mutex given up.  `pCurr` is its cursor in the slot. -/
inductive Phase where
  | idle
  | holding (pCurr : Option TimerId)
  | inCallback (pCurr : Option TimerId)
deriving DecidableEq, Repr

/-- A callback run by the task, and the tick in which it ran. -/
structure Fired where
  tick : Nat
  timer : TimerId
  func : FuncPtr
  args : List UInt32
deriving DecidableEq, Repr

/-- The globals of `vos_timer.c`.  `opTimerMap` is the allocation bitmap, bit
`BitPos` of word `i` at `i * 32 + BitPos`.  `ticks` counts the advances of the hand
and `fired` the callbacks run; no code reads them. -/
structure Wheel where
  tbl : TimerId → TimerObj
  opTimerMap : Nat → Bool
  calendar : Nat → Option TimerId
  ucHand : Nat
  ulClockWrap : Nat
  phase : Phase
  ticks : Nat
  fired : List Fired

def Wheel.modify (w : Wheel) (t : TimerId) (f : TimerObj → TimerObj) : Wheel :=
  { w with tbl := Function.update w.tbl t (f (w.tbl t)) }

def Wheel.setSlot (w : Wheel) (k : Nat) (head : Option TimerId) : Wheel :=
  { w with calendar := Function.update w.calendar k head }

/-! ### The calls -/

/-- `timerObjInit`; the calendar index is left alone. -/
def timerObjInit (o : TimerObj) : TimerObj :=
  { o with
    stState := .free
    ulIndex := invalid32
    stType := .unknown
    ulTimeOut := invalid32
    pstPrev := none
    pstNext := none
    pstCallBackFunc := none
    ulCallBackArgs := List.replicate 8 0xFFFFFFFF
    ulWrapCounter := 2 ^ 64 - 1 }

/-- The state `vosTimerInit` leaves. -/
def vosTimerInit : Wheel where
  tbl := fun _ => timerObjInit
    { stState := .free, ulIndex := 0, ulCalIndex := 0, stType := .unknown, ulTimeOut := 0,
      pstPrev := none, pstNext := none, pstCallBackFunc := none, ulCallBackArgs := [],
      ulWrapCounter := 0 }
  opTimerMap := fun _ => false
  calendar := fun _ => none
  ucHand := 0
  ulClockWrap := 0
  phase := .idle
  ticks := 0
  fired := []

/-- The first clear bit of the map, word by word. -/
def firstClear (w : Wheel) : Option TimerId :=
  (List.finRange maxTimerObj).find? fun i => !w.opTimerMap i.val

def vosTimerGetFree (w : Wheel) : Option TimerId × Wheel :=
  match firstClear w with
  | none => (none, w)
  | some t =>
    let w := w.modify t fun o => { timerObjInit o with ulIndex := t.val, stState := .taken }
    (some t, { w with opTimerMap := Function.update w.opTimerMap t.val true })

/-- `vosTimerRelease`; the word index is cut to sixteen bits. -/
def vosTimerRelease (w : Wheel) (t : TimerId) : Wheel :=
  let bitPos := (w.tbl t).ulIndex % 32
  let i := (w.tbl t).ulIndex / 32 % 2 ^ 16
  let w := { w with opTimerMap := Function.update w.opTimerMap (i * 32 + bitPos) false }
  w.modify t timerObjInit

/-- The timeout in ticks, and the slot and the round of the calendar it falls in. -/
def schedule (w : Wheel) (t : TimerId) (ulTimeout : Nat) : Wheel :=
  let ticks := ulTimeout / timerGranularity
  let position := (ticks + w.ucHand) % 2 ^ 32
  w.modify t fun o =>
    { o with
      ulTimeOut := ticks
      ulWrapCounter := (position / calendarSize + w.ulClockWrap) % 2 ^ 64
      ulCalIndex := position % calendarSize }

/-- The object becomes the head of the slot it is scheduled for. -/
def linkFront (w : Wheel) (t : TimerId) : Wheel :=
  let k := (w.tbl t).ulCalIndex
  let w := w.modify t fun o => { o with pstNext := w.calendar k }
  let w := w.setSlot k (some t)
  let w := w.modify t fun o => { o with pstPrev := none }
  match (w.tbl t).pstNext with
  | some n => w.modify n fun o => { o with pstPrev := some t }
  | none => w

/-- The object leaves the list of slot `k`; its own pointers stay. -/
def unlinkFrom (w : Wheel) (k : Nat) (t : TimerId) : Wheel :=
  let w :=
    if (w.tbl t).pstNext = none ∧ (w.tbl t).pstPrev = none then w.setSlot k none else w
  let w :=
    match (w.tbl t).pstPrev with
    | some p => w.modify p fun o => { o with pstNext := (w.tbl t).pstNext }
    | none => w
  match (w.tbl t).pstNext with
  | some n =>
    let w := w.modify n fun o => { o with pstPrev := (w.tbl t).pstPrev }
    if (w.tbl t).pstPrev = none then w.setSlot k (w.tbl t).pstNext else w
  | none => w

/-- `vosTimerStart`; a running timer is left as it is. -/
def vosTimerStart (w : Wheel) (pstTimer : Option TimerId) (stType : TimerType) (ulTimeout : Nat)
    (pstCallBack : Option FuncPtr) (ulCallBackArgs : List UInt32) : Int × Wheel :=
  match pstTimer with
  | none => (-1, w)
  | some t =>
    if stType ≠ .reocurring ∧ stType ≠ .oneShot then (-1, w)
    else if (w.tbl t).stState = .running then (0, w)
    else
      let w := w.modify t fun o =>
        { o with
          stState := .running
          stType := stType
          pstCallBackFunc := pstCallBack
          ulCallBackArgs := ulCallBackArgs }
      (0, linkFront (schedule w t ulTimeout) t)

/-- `vosTimerCancel` of an object of the table. -/
def cancelTimer (w : Wheel) (t : TimerId) : Wheel :=
  match (w.tbl t).stState with
  | .free => w
  | .taken => vosTimerRelease w t
  | .running => vosTimerRelease (unlinkFrom w (w.tbl t).ulCalIndex t) t

def vosTimerCancel (w : Wheel) : Option TimerId → Int × Wheel
  | none => (-1, w)
  | some t => (0, cancelTimer w t)

/-- `vosTimerReSchedule` of an object of the table. -/
def reScheduleTimer (w : Wheel) (t : TimerId) (ulTimeout : Nat) : Wheel :=
  match (w.tbl t).stState with
  | .free => w
  | .taken => w
  | .running =>
    let tmpID := (w.tbl t).ulCalIndex % 2 ^ 8
    linkFront (unlinkFrom (schedule w t ulTimeout) tmpID t) t

def vosTimerReSchedule (w : Wheel) (pstTimer : Option TimerId) (ulTimeout : Nat) : Int × Wheel :=
  match pstTimer with
  | none => (-1, w)
  | some t => (0, reScheduleTimer w t ulTimeout)

/-! ### The timer task -/

/-- The hand moves on and the scan of its slot begins. -/
def timerTick (w : Wheel) : Wheel :=
  let w := { w with ticks := w.ticks + 1, ucHand := w.ucHand + 1 }
  let w :=
    if calendarSize ≤ w.ucHand then
      { w with ucHand := 0, ulClockWrap := (w.ulClockWrap + 1) % 2 ^ 64 }
    else w
  { w with phase := .holding (w.calendar w.ucHand) }

/-- One turn of the scan, with the cursor on `p`: the next object is read before
the expired one is cancelled or scheduled again, and the callback runs last. -/
def scanVisit (w : Wheel) (p : TimerId) : Wheel :=
  let o := w.tbl p
  if o.ulWrapCounter = w.ulClockWrap then
    match o.pstCallBackFunc with
    | some func =>
      let entry : Fired :=
        { tick := w.ticks, timer := p, func := func, args := o.ulCallBackArgs }
      match o.stType with
      | .oneShot =>
        let w := cancelTimer w p
        { w with phase := .inCallback o.pstNext, fired := w.fired ++ [entry] }
      | .reocurring =>
        let w := reScheduleTimer w p (o.ulTimeOut * timerGranularity % 2 ^ 32)
        { w with phase := .inCallback o.pstNext, fired := w.fired ++ [entry] }
      | .unknown => { cancelTimer w p with phase := .holding o.pstNext }
    | none => { cancelTimer w p with phase := .holding o.pstNext }
  else { w with phase := .holding o.pstNext }

/-! ### Steps -/

inductive TimerOp where
  | getFree
  | start (pstTimer : Option TimerId) (stType : TimerType) (ulTimeout : UInt32)
      (pstCallBack : Option FuncPtr) (ulCallBackArgs : List UInt32)
  | cancel (pstTimer : Option TimerId)
  | reSchedule (pstTimer : Option TimerId) (ulTimeout : UInt32)
deriving DecidableEq, Repr

def perform (w : Wheel) : TimerOp → Wheel
  | .getFree => (vosTimerGetFree w).2
  | .start pstTimer stType ulTimeout pstCallBack args =>
    (vosTimerStart w pstTimer stType ulTimeout.toNat pstCallBack args).2
  | .cancel pstTimer => (vosTimerCancel w pstTimer).2
  | .reSchedule pstTimer ulTimeout => (vosTimerReSchedule w pstTimer ulTimeout.toNat).2

inductive TimerEvent where
  /-- A call, by any thread or by the callback that is running. -/
  | op (o : TimerOp)
  /-- `TIMER_GRANULARITY` has passed since the last advance. -/
  | tick
  /-- The task goes on: to the next object, back from a callback, or to sleep. -/
  | scan
deriving DecidableEq, Repr

def Phase.mutexFree : Phase → Bool
  | .holding _ => false
  | _ => true

def timerStep (w : Wheel) : TimerEvent → Wheel
  | .op o => if w.phase.mutexFree then perform w o else w
  | .tick => if w.phase = .idle then timerTick w else w
  | .scan =>
    match w.phase with
    | .idle => w
    | .holding none => { w with phase := .idle }
    | .holding (some p) => scanVisit w p
    | .inCallback pCurr => { w with phase := .holding pCurr }

end Opconn.Vos
