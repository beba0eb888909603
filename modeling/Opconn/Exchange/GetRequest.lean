import Mathlib.Data.List.Basic
import Opconn.Lib.Runs

/-!
# Requests and their acknowledgements

`msgGetReqPackAndSend` sends a request, starts a timer and sleeps on a semaphore.
`msgGetAckProcessHandler` writes the acknowledgement into a pipe, sets a flag, stops the timer
and posts; `TimerThread` counts while the timer runs and posts when it has counted to
`TIME_OUT`.  An acknowledgement does not say which request it is for.  The callers hold a
mutex, so there is one request at a time; every access of the three threads is a step.
-/

namespace Opconn.Exchange.Get

open Runs

/-- `TIME_OUT`. -/
def timeOut : Nat := 10

/-- `MAX_GET_INFO_LENGTH`. -/
def maxGetInfoLength : Nat := 1500

/-- The data of an acknowledgement, which came in a buffer of `MSG_DATA_BUFF_RX_LEN` bytes. -/
structure Ack where
  bytes : List UInt8
  le : bytes.length ≤ maxGetInfoLength

/-- Who posted `msgGetSem`. -/
inductive Waker where
  | ack
  | timer
deriving DecidableEq

/-- Where `msgGetReqPackAndSend` is: not called, behind `msgSendToTxQueue`, at `sem_wait`, behind it,
or at `read`.  `sentAt` is how many acknowledgements had arrived before. -/
inductive RequesterPc where
  | idle
  | sent (sentAt : Nat)
  | waiting (sentAt : Nat)
  | woken (sentAt : Nat) (waker : Waker)
  | reading (sentAt : Nat) (waker : Waker)
deriving DecidableEq

/-- Where `msgGetAckProcessHandler` is: not called, behind `write`, behind `msgGetAckflag = 1`, or
behind `msgGetTimerflag = 0`. -/
inductive HandlerPc where
  | idle
  | wrote
  | flagged
  | stopped
deriving DecidableEq

/-- Where `TimerThread` is: asleep, behind the test, in `msgGetTimerflag++` with the value that it
loaded, behind it, behind the comparison with `TIME_OUT`, or behind the assignments that
follow. -/
inductive TimerPc where
  | asleep
  | tested
  | loaded (value : Nat)
  | stored
  | expired
  | stopped
  | refused
deriving DecidableEq

/-- What a request returned with; every byte carries the number of the acknowledgement that
brought it. -/
structure Result where
  sentAt : Nat
  waker : Waker
  data : Option (List (Nat × UInt8))
deriving DecidableEq

structure State where
  msgGetTimerflag : Nat
  msgGetAckflag : Bool
  msgGetSem : List Waker
  msgGetPipe : List (Nat × UInt8)
  requester : RequesterPc
  handler : HandlerPc
  timer : TimerPc
  arrived : List (List UInt8)
  results : List Result

/-- Behind `msgInit`. -/
def State.start : State where
  msgGetTimerflag := 0
  msgGetAckflag := false
  msgGetSem := []
  msgGetPipe := []
  requester := .idle
  handler := .idle
  timer := .asleep
  arrived := []
  results := []

def tag (id : Nat) (bytes : List UInt8) : List (Nat × UInt8) := bytes.map fun b => (id, b)

/-- `msgGetReqPackAndSend` is called and sends. -/
def request (s : State) : State := { s with requester := .sent s.arrived.length }

def finish (s : State) (r : Result) : State :=
  { s with requester := .idle, results := s.results ++ [r] }

def requesterStep (s : State) : State :=
  match s.requester with
  | .idle => s
  | .sent k => { s with msgGetTimerflag := 1, requester := .waiting k }
  | .waiting k =>
    match s.msgGetSem with
    | [] => s
    | waker :: rest => { s with msgGetSem := rest, requester := .woken k waker }
  | .woken k waker =>
    if s.msgGetAckflag then { s with requester := .reading k waker }
    else finish s ⟨k, waker, none⟩
  | .reading k waker =>
    if s.msgGetPipe = [] then s
    else finish { s with msgGetPipe := s.msgGetPipe.drop maxGetInfoLength }
      ⟨k, waker, some (s.msgGetPipe.take maxGetInfoLength)⟩

/-- `msgGetAckProcessHandler` is called and writes. -/
def ackArrives (s : State) (bytes : List UInt8) : State :=
  { s with
    msgGetPipe := s.msgGetPipe ++ tag s.arrived.length bytes
    arrived := s.arrived ++ [bytes]
    handler := .wrote }

def handlerStep (s : State) : State :=
  match s.handler with
  | .idle => s
  | .wrote => { s with msgGetAckflag := true, handler := .flagged }
  | .flagged => { s with msgGetTimerflag := 0, handler := .stopped }
  | .stopped => { s with msgGetSem := s.msgGetSem ++ [.ack], handler := .idle }

def timerStep (s : State) : State :=
  match s.timer with
  | .asleep => if 0 < s.msgGetTimerflag then { s with timer := .tested } else s
  | .tested => { s with timer := .loaded s.msgGetTimerflag }
  | .loaded value => { s with msgGetTimerflag := value + 1, timer := .stored }
  | .stored => { s with timer := if s.msgGetTimerflag = timeOut then .expired else .asleep }
  | .expired => { s with msgGetTimerflag := 0, timer := .stopped }
  | .stopped => { s with msgGetAckflag := false, timer := .refused }
  | .refused => { s with msgGetSem := s.msgGetSem ++ [.timer], timer := .asleep }

inductive Event where
  | request
  | requester
  | ack (ack : Ack)
  | handler
  | timer

def step (s : State) : Event → State
  | .request => if s.requester = .idle then Get.request s else s
  | .requester => requesterStep s
  | .ack ack => if s.handler = .idle then ackArrives s ack.bytes else s
  | .handler => handlerStep s
  | .timer => timerStep s

/-! ### What requests return -/

/-- The bytes that a request returned. -/
def Result.bytes (r : Result) : List (Nat × UInt8) := r.data.getD []

/-- A request returns one acknowledgement that arrived after it was sent, or nothing. -/
def Result.Fresh (arrived : List (List UInt8)) (r : Result) : Prop :=
  ∀ data, r.data = some data →
    ∃ id bytes, r.sentAt ≤ id ∧ arrived[id]? = some bytes ∧ data = tag id bytes

/-- Requests return acknowledgements of their own, one that timed out returns none, and nothing is
left when no request is on. -/
structure Served (s : State) : Prop where
  fresh : ∀ r ∈ s.results, r.Fresh s.arrived
  timedOut : ∀ r ∈ s.results, r.waker = .timer → r.data = none
  once : s.results.Pairwise fun r r' => ∀ b ∈ r.bytes, ∀ b' ∈ r'.bytes, b.1 ≠ b'.1
  clean : s.requester = .idle →
    s.msgGetSem = [] ∧ s.msgGetPipe = [] ∧ s.msgGetTimerflag = 0

/-- The request that is on, when it has not been woken. -/
def RequesterPc.current : RequesterPc → Option Nat
  | .sent k | .waiting k => some k
  | .idle | .woken .. | .reading .. => none

/-- The request is sent and its timer is not started. -/
def RequesterPc.starting : RequesterPc → Bool
  | .sent _ => true
  | .idle | .waiting _ | .woken .. | .reading .. => false

def TimerPc.expiring : TimerPc → Bool
  | .expired | .stopped | .refused => true
  | .asleep | .tested | .loaded _ | .stored => false

/-- The steps that go well.  An acknowledgement is the first one since the request that is on was
sent, and this has not timed out; it stops the timer behind the request's start of it and
not in the middle of a count; and the timer does not run out while it is handled. -/
def Guard (s : State) : Event → Prop
  | .ack _ => s.handler = .idle → s.requester.current = some s.arrived.length ∧
      s.msgGetSem = [] ∧ s.timer.expiring = false
  | .handler => s.handler = .flagged →
      s.requester.starting = false ∧ (s.timer = .asleep ∨ s.timer = .stored)
  | .timer => s.timer = .stored → s.msgGetTimerflag = timeOut → s.handler = .idle
  | .request | .requester => True

instance (s : State) : DecidablePred (Guard s)
  | .ack _ => inferInstanceAs (Decidable (_ → _ ∧ _ ∧ _))
  | .handler => inferInstanceAs (Decidable (_ → _ ∧ _))
  | .timer => inferInstanceAs (Decidable (_ → _ → _))
  | .request | .requester => inferInstanceAs (Decidable True)

/-! ### The course of a request -/

/-- Nothing is posted and no timer runs. -/
structure Still (s : State) : Prop where
  sem : s.msgGetSem = []
  flag : s.msgGetTimerflag = 0
  timer : s.timer = .asleep ∨ s.timer = .stored

/-- The timer of a request runs. -/
structure Counting (s : State) : Prop where
  sem : s.msgGetSem = []
  flag : 0 < s.msgGetTimerflag
  timer : s.timer.expiring = false

/-- No acknowledgement has arrived since the request was sent. -/
structure Unanswered (s : State) (k : Nat) : Prop where
  handler : s.handler = .idle
  pipe : s.msgGetPipe = []
  count : s.arrived.length = k

/-- One has, and is in the pipe. -/
structure Answered (s : State) (k : Nat) : Prop where
  pipe : ∃ bytes, s.arrived[k]? = some bytes ∧ bytes.length ≤ maxGetInfoLength ∧
    s.msgGetPipe = tag k bytes
  count : s.arrived.length = k + 1

/-- The handler has written and not stopped the timer. -/
def Answering (s : State) : Prop :=
  s.handler = .wrote ∨ s.handler = .flagged ∧ s.msgGetAckflag = true

/-- What the requester finds when it is woken. -/
def Outcome (s : State) (k : Nat) : Waker → Prop
  | .timer => s.msgGetAckflag = false ∧ s.msgGetPipe = [] ∧ s.arrived.length = k
  | .ack => s.msgGetAckflag = true ∧ Answered s k

/-- The timer has run out and is about to post. -/
def Expiring (s : State) : Prop :=
  s.timer = .expired ∨ s.timer = .stopped ∧ s.msgGetTimerflag = 0 ∨
    s.timer = .refused ∧ s.msgGetTimerflag = 0 ∧ s.msgGetAckflag = false

/-- Where a request stands. -/
inductive Phase (s : State) : Prop where
  | idle (request : s.requester = .idle) (still : Still s) (handler : s.handler = .idle)
    (pipe : s.msgGetPipe = [])
  | sent (k : Nat) (request : s.requester = .sent k) (still : Still s) (none : Unanswered s k)
  | early (k : Nat) (request : s.requester = .sent k) (still : Still s) (handler : Answering s)
    (ack : Answered s k)
  | waiting (k : Nat) (request : s.requester = .waiting k) (counting : Counting s)
    (none : Unanswered s k)
  | expiring (k : Nat) (request : s.requester = .waiting k) (sem : s.msgGetSem = [])
    (none : Unanswered s k) (timer : Expiring s)
  | answering (k : Nat) (request : s.requester = .waiting k) (counting : Counting s)
    (handler : Answering s) (ack : Answered s k)
  | answered (k : Nat) (request : s.requester = .waiting k) (still : Still s)
    (handler : s.handler = .stopped) (flag : s.msgGetAckflag = true) (ack : Answered s k)
  | posted (k : Nat) (waker : Waker) (request : s.requester = .waiting k)
    (sem : s.msgGetSem = [waker]) (flag : s.msgGetTimerflag = 0)
    (timer : s.timer = .asleep ∨ s.timer = .stored) (handler : s.handler = .idle)
    (outcome : Outcome s k waker)
  | woken (k : Nat) (waker : Waker) (request : s.requester = .woken k waker) (still : Still s)
    (handler : s.handler = .idle) (outcome : Outcome s k waker)
  | reading (k : Nat) (request : s.requester = .reading k .ack) (still : Still s)
    (handler : s.handler = .idle) (ack : Answered s k)

/-- How many acknowledgements had arrived when the current request was sent. -/
def State.base (s : State) : Nat :=
  match s.requester with
  | .idle => s.arrived.length
  | .sent k | .waiting k | .woken k _ | .reading k _ => k

/-- What was returned before. -/
structure Returned (s : State) : Prop where
  base : s.base ≤ s.arrived.length
  fresh : ∀ r ∈ s.results, r.Fresh s.arrived
  timedOut : ∀ r ∈ s.results, r.waker = .timer → r.data = none
  before : ∀ r ∈ s.results, ∀ b ∈ r.bytes, b.1 < s.base
  once : s.results.Pairwise fun r r' => ∀ b ∈ r.bytes, ∀ b' ∈ r'.bytes, b.1 ≠ b'.1

structure Inv (s : State) : Prop where
  phase : Phase s
  returned : Returned s

theorem inv_start : Inv .start :=
  ⟨.idle rfl ⟨rfl, rfl, .inl rfl⟩ rfl rfl, Nat.le_refl _, by nofun, by nofun, by nofun, .nil⟩

variable {s : State}

theorem Phase.clean (h : Phase s) (hrequest : s.requester = .idle) :
    s.msgGetSem = [] ∧ s.msgGetPipe = [] ∧ s.msgGetTimerflag = 0 := by
  cases h with
  | idle _ still _ pipe => exact ⟨still.sem, pipe, still.flag⟩
  | sent k request | early k request | waiting k request | expiring k request
  | answering k request | answered k request | posted k waker request | woken k waker request
  | reading k request =>
    rw [hrequest] at request
    cases request

theorem Inv.served (h : Inv s) : Served s :=
  ⟨h.returned.fresh, h.returned.timedOut, h.returned.once, h.phase.clean⟩

/-! ### The timer -/

/-- When the timer does not run, a tick changes nothing else. -/
theorem timerStep_of_calm (hflag : s.msgGetTimerflag = 0)
    (htimer : s.timer = .asleep ∨ s.timer = .stored) :
    timerStep s = { s with timer := .asleep } := by
  rcases htimer with htimer | htimer
  · simp only [timerStep, htimer, if_neg (Nat.not_lt.mpr (Nat.le_of_eq hflag))]
    cases s
    cases htimer
    rfl
  · simp only [timerStep, htimer, hflag, timeOut]
    rfl

theorem Still.asleep (h : Still s) : Still { s with timer := .asleep } :=
  ⟨h.sem, h.flag, .inl rfl⟩

theorem Unanswered.of_eq {s' : State} {k : Nat} (h : Unanswered s k)
    (hhandler : s'.handler = s.handler) (hpipe : s'.msgGetPipe = s.msgGetPipe)
    (harrived : s'.arrived = s.arrived) : Unanswered s' k :=
  ⟨hhandler.trans h.handler, hpipe.trans h.pipe, by rw [harrived]; exact h.count⟩

theorem Answered.of_eq {s' : State} {k : Nat} (h : Answered s k)
    (hpipe : s'.msgGetPipe = s.msgGetPipe) (harrived : s'.arrived = s.arrived) : Answered s' k := by
  obtain ⟨⟨bytes, hbytes, hle, hpipe'⟩, hcount⟩ := h
  exact ⟨⟨bytes, by rw [harrived]; exact hbytes, hle, hpipe.trans hpipe'⟩,
    by rw [harrived]; exact hcount⟩

theorem Outcome.of_eq {s' : State} {k : Nat} {waker : Waker} (h : Outcome s k waker)
    (hflag : s'.msgGetAckflag = s.msgGetAckflag) (hpipe : s'.msgGetPipe = s.msgGetPipe)
    (harrived : s'.arrived = s.arrived) : Outcome s' k waker := by
  cases waker with
  | timer => exact ⟨hflag.trans h.1, hpipe.trans h.2.1, by rw [harrived]; exact h.2.2⟩
  | ack => exact ⟨hflag.trans h.1, h.2.of_eq hpipe harrived⟩

/-- A step of the timer that runs and does not run out. -/
theorem Counting.timerStep (h : Counting s)
    (hrest : s.timer = .stored → s.msgGetTimerflag ≠ timeOut) :
    Counting (timerStep s) ∧ ∃ flag timer,
      timerStep s = { s with msgGetTimerflag := flag, timer := timer } := by
  obtain ⟨hsem, hflag, htimer⟩ := h
  cases hpc : s.timer with
  | asleep =>
    simp only [Get.timerStep, hpc, if_pos hflag]
    exact ⟨⟨hsem, hflag, rfl⟩, _, _, rfl⟩
  | tested =>
    simp only [Get.timerStep, hpc]
    exact ⟨⟨hsem, hflag, rfl⟩, _, _, rfl⟩
  | loaded value =>
    simp only [Get.timerStep, hpc]
    exact ⟨⟨hsem, Nat.succ_pos _, rfl⟩, _, _, rfl⟩
  | stored =>
    simp only [Get.timerStep, hpc, if_neg (hrest hpc)]
    exact ⟨⟨hsem, hflag, rfl⟩, _, _, rfl⟩
  | expired | stopped | refused =>
    rw [hpc] at htimer
    cases htimer

theorem Phase.expire {k : Nat} (request : s.requester = .waiting k) (sem : s.msgGetSem = [])
    (none : Unanswered s k) (timer : Expiring s) : Phase (timerStep s) := by
  rcases timer with hpc | ⟨hpc, hflag⟩ | ⟨hpc, hflag, hack⟩
  · simp only [timerStep, hpc]
    exact .expiring k request sem (none.of_eq rfl rfl rfl) (.inr (.inl ⟨rfl, rfl⟩))
  · simp only [timerStep, hpc]
    exact .expiring k request sem (none.of_eq rfl rfl rfl) (.inr (.inr ⟨rfl, hflag, rfl⟩))
  · simp only [timerStep, hpc]
    refine .posted k .timer request ?_ hflag (.inl rfl) none.handler ⟨hack, none.pipe, none.count⟩
    show s.msgGetSem ++ [Waker.timer] = [Waker.timer]
    rw [sem]
    rfl

theorem Phase.timerStep (h : Phase s) (hguard : Guard s .timer) : Phase (timerStep s) := by
  cases h with
  | idle request still handler pipe =>
    rw [timerStep_of_calm still.flag still.timer]
    exact .idle request still.asleep handler pipe
  | sent k request still none =>
    rw [timerStep_of_calm still.flag still.timer]
    exact .sent k request still.asleep (none.of_eq rfl rfl rfl)
  | early k request still handler ack =>
    rw [timerStep_of_calm still.flag still.timer]
    exact .early k request still.asleep handler (ack.of_eq rfl rfl)
  | waiting k request counting none =>
    by_cases hout : s.timer = .stored ∧ s.msgGetTimerflag = timeOut
    · simp only [Get.timerStep, hout.1, hout.2, if_true]
      exact .expiring k request counting.sem (none.of_eq rfl rfl rfl) (.inl rfl)
    · obtain ⟨hcounting, flag, timer, heq⟩ := counting.timerStep fun hpc hflag => hout ⟨hpc, hflag⟩
      rw [heq] at hcounting ⊢
      exact .waiting k request hcounting (none.of_eq rfl rfl rfl)
  | expiring k request sem none timer => exact .expire request sem none timer
  | answering k request counting handler ack =>
    have hrest : s.timer = .stored → s.msgGetTimerflag ≠ timeOut := by
      intro hpc hflag
      have hidle := hguard hpc hflag
      rcases handler with hwrote | ⟨hflagged, -⟩
      · rw [hidle] at hwrote
        cases hwrote
      · rw [hidle] at hflagged
        cases hflagged
    obtain ⟨hcounting, flag, timer, heq⟩ := counting.timerStep hrest
    rw [heq] at hcounting ⊢
    exact .answering k request hcounting handler (ack.of_eq rfl rfl)
  | answered k request still handler flag ack =>
    rw [timerStep_of_calm still.flag still.timer]
    exact .answered k request still.asleep handler flag (ack.of_eq rfl rfl)
  | posted k waker request sem flag timer handler outcome =>
    rw [timerStep_of_calm flag timer]
    exact .posted k waker request sem flag (.inl rfl) handler (outcome.of_eq rfl rfl rfl)
  | woken k waker request still handler outcome =>
    rw [timerStep_of_calm still.flag still.timer]
    exact .woken k waker request still.asleep handler (outcome.of_eq rfl rfl rfl)
  | reading k request still handler ack =>
    rw [timerStep_of_calm still.flag still.timer]
    exact .reading k request still.asleep handler (ack.of_eq rfl rfl)

/-! ### The handler -/

/-- The handler is not called. -/
theorem Phase.handlerIdle (h : Phase s) (hhandler : s.handler = .idle) :
    Phase (handlerStep s) := by
  simp only [Get.handlerStep, hhandler]
  exact h

theorem Phase.handlerStep (h : Phase s) (hguard : Guard s .handler) : Phase (handlerStep s) := by
  cases h with
  | idle request still handler pipe => exact Phase.handlerIdle (.idle request still handler pipe) handler
  | sent k request still none => exact Phase.handlerIdle (.sent k request still none) none.handler
  | early k request still handler ack =>
    rcases handler with hwrote | ⟨hflagged, hack⟩
    · simp only [Get.handlerStep, hwrote]
      exact .early k request ⟨still.sem, still.flag, still.timer⟩ (.inr ⟨rfl, rfl⟩) (ack.of_eq rfl rfl)
    · -- the timer of this request is still to be started
      have hstarting := (hguard hflagged).1
      rw [request] at hstarting
      cases hstarting
  | waiting k request counting none =>
    exact Phase.handlerIdle (.waiting k request counting none) none.handler
  | expiring k request sem none timer =>
    exact Phase.handlerIdle (.expiring k request sem none timer) none.handler
  | answering k request counting handler ack =>
    rcases handler with hwrote | ⟨hflagged, hack⟩
    · simp only [Get.handlerStep, hwrote]
      exact .answering k request ⟨counting.sem, counting.flag, counting.timer⟩ (.inr ⟨rfl, rfl⟩)
        (ack.of_eq rfl rfl)
    · have hcalm := (hguard hflagged).2
      simp only [Get.handlerStep, hflagged]
      exact .answered k request ⟨counting.sem, rfl, hcalm⟩ rfl hack (ack.of_eq rfl rfl)
  | answered k request still handler flag ack =>
    simp only [Get.handlerStep, handler]
    refine .posted k .ack request ?_ still.flag still.timer rfl ⟨flag, ack.of_eq rfl rfl⟩
    show s.msgGetSem ++ [Waker.ack] = [Waker.ack]
    rw [still.sem]
    rfl
  | posted k waker request sem flag timer handler outcome =>
    exact Phase.handlerIdle (.posted k waker request sem flag timer handler outcome) handler
  | woken k waker request still handler outcome =>
    exact Phase.handlerIdle (.woken k waker request still handler outcome) handler
  | reading k request still handler ack =>
    exact Phase.handlerIdle (.reading k request still handler ack) handler

/-- The acknowledgement is the next one in the list and the only one in the pipe. -/
theorem Unanswered.ackArrives {k : Nat} (h : Unanswered s k) (ack : Ack) :
    Answered (ackArrives s ack.bytes) k := by
  refine ⟨⟨ack.bytes, ?_, ack.le, ?_⟩, ?_⟩
  · show (s.arrived ++ [ack.bytes])[k]? = some ack.bytes
    rw [← h.count, List.getElem?_append_right (Nat.le_refl _), Nat.sub_self]
    rfl
  · show s.msgGetPipe ++ tag s.arrived.length ack.bytes = tag k ack.bytes
    rw [h.pipe, h.count]
    rfl
  · show (s.arrived ++ [ack.bytes]).length = k + 1
    rw [List.length_append, h.count]
    rfl

theorem Phase.ackArrives (h : Phase s) (ack : Ack)
    (hguard : s.requester.current = some s.arrived.length ∧ s.msgGetSem = [] ∧
      s.timer.expiring = false) (hidle : s.handler = .idle) : Phase (ackArrives s ack.bytes) := by
  obtain ⟨hcurrent, hsem, htimer⟩ := hguard
  cases h with
  | idle request | woken k waker request | reading k request =>
    rw [request] at hcurrent
    cases hcurrent
  | sent k request still none =>
    exact .early k request ⟨still.sem, still.flag, still.timer⟩ (.inl rfl) (none.ackArrives ack)
  | early k request still handler ack' =>
    rw [request] at hcurrent
    have hcount := ack'.count
    injection hcurrent with hk
    omega
  | waiting k request counting none =>
    exact .answering k request ⟨counting.sem, counting.flag, counting.timer⟩ (.inl rfl)
      (none.ackArrives ack)
  | expiring k request sem none timer =>
    rcases timer with hpc | ⟨hpc, -⟩ | ⟨hpc, -⟩ <;> rw [hpc] at htimer <;> cases htimer
  | answering k request counting handler ack' =>
    rw [request] at hcurrent
    have hcount := ack'.count
    injection hcurrent with hk
    omega
  | answered k request still handler flag ack' =>
    rw [hidle] at handler
    cases handler
  | posted k waker request sem =>
    rw [hsem] at sem
    cases sem

/-! ### The requester -/

theorem Phase.request (h : Phase s) (hidle : s.requester = .idle) : Phase (request s) := by
  cases h with
  | idle request still handler pipe =>
    exact .sent s.arrived.length rfl ⟨still.sem, still.flag, still.timer⟩ ⟨handler, pipe, rfl⟩
  | sent k request | early k request | waiting k request | expiring k request
  | answering k request | answered k request | posted k waker request | woken k waker request
  | reading k request =>
    rw [hidle] at request
    cases request

/-- A requester that nobody has woken sleeps on. -/
theorem requesterStep_of_asleep {k : Nat} (request : s.requester = .waiting k)
    (sem : s.msgGetSem = []) : requesterStep s = s := by
  rw [requesterStep, request]
  simp only [sem]

/-- The data of an acknowledgement is read as a whole. -/
theorem Answered.read {k : Nat} (h : Answered s k) :
    s.msgGetPipe.drop maxGetInfoLength = [] ∧
    s.msgGetPipe.take maxGetInfoLength = s.msgGetPipe := by
  obtain ⟨⟨bytes, -, hle, hpipe⟩, -⟩ := h
  have hlen : s.msgGetPipe.length ≤ maxGetInfoLength := by
    rw [hpipe, tag, List.length_map]
    exact hle
  exact ⟨List.drop_of_length_le hlen, List.take_of_length_le hlen⟩

/-- The requester starts the timer. -/
theorem Still.counts (h : Still s) (k : Nat) :
    Counting { s with msgGetTimerflag := 1, requester := .waiting k } := by
  refine ⟨h.sem, Nat.one_pos, ?_⟩
  show s.timer.expiring = false
  rcases h.timer with hpc | hpc
  · rw [hpc]
    rfl
  · rw [hpc]
    rfl

theorem Phase.requesterStep (h : Phase s) : Phase (requesterStep s) := by
  cases h with
  | idle request still handler pipe =>
    rw [Get.requesterStep, request]
    exact .idle request still handler pipe
  | sent k request still none =>
    simp only [Get.requesterStep, request]
    exact .waiting k rfl (still.counts k) (none.of_eq rfl rfl rfl)
  | early k request still handler ack =>
    simp only [Get.requesterStep, request]
    exact .answering k rfl (still.counts k) handler (ack.of_eq rfl rfl)
  | waiting k request counting none =>
    rw [requesterStep_of_asleep request counting.sem]
    exact .waiting k request counting none
  | expiring k request sem none timer =>
    rw [requesterStep_of_asleep request sem]
    exact .expiring k request sem none timer
  | answering k request counting handler ack =>
    rw [requesterStep_of_asleep request counting.sem]
    exact .answering k request counting handler ack
  | answered k request still handler flag ack =>
    rw [requesterStep_of_asleep request still.sem]
    exact .answered k request still handler flag ack
  | posted k waker request sem flag timer handler outcome =>
    simp only [Get.requesterStep, request, sem]
    exact .woken k waker rfl ⟨rfl, flag, timer⟩ handler (outcome.of_eq rfl rfl rfl)
  | woken k waker request still handler outcome =>
    cases waker with
    | timer =>
      obtain ⟨hflag, hpipe, -⟩ := outcome
      simp only [Get.requesterStep, request, hflag, Bool.false_eq_true, if_false]
      exact .idle rfl ⟨still.sem, still.flag, still.timer⟩ handler hpipe
    | ack =>
      obtain ⟨hflag, ack⟩ := outcome
      simp only [Get.requesterStep, request, hflag, if_true]
      exact .reading k rfl ⟨still.sem, still.flag, still.timer⟩ handler (ack.of_eq rfl rfl)
  | reading k request still handler ack =>
    simp only [Get.requesterStep, request]
    split
    · exact .reading k request still handler ack
    · exact .idle rfl ⟨still.sem, still.flag, still.timer⟩ handler ack.read.1

theorem Phase.step (h : Phase s) (e : Event) (hguard : Guard s e) : Phase (step s e) := by
  cases e with
  | request =>
    rw [Get.step]
    split
    · next hidle => exact h.request hidle
    · exact h
  | requester => exact h.requesterStep
  | ack ack =>
    rw [Get.step]
    split
    · next hidle => exact h.ackArrives ack (hguard hidle) hidle
    · exact h
  | handler => exact h.handlerStep hguard
  | timer => exact h.timerStep hguard

/-! ### What was returned -/

/-- A step that returns nothing. -/
theorem Returned.of_eq {s' : State} (h : Returned s) (hresults : s'.results = s.results)
    (harrived : s'.arrived = s.arrived) (hbase : s'.base = s.base) : Returned s' := by
  obtain ⟨base, fresh, timedOut, before, once⟩ := h
  refine ⟨?_, ?_, ?_, ?_, ?_⟩
  · rw [hbase, harrived]
    exact base
  · rw [hresults, harrived]
    exact fresh
  · rw [hresults]
    exact timedOut
  · rw [hresults, hbase]
    exact before
  · rw [hresults]
    exact once

/-- More acknowledgements arrive. -/
theorem Result.Fresh.append {arrived : List (List UInt8)} {r : Result} (h : r.Fresh arrived)
    (more : List (List UInt8)) : r.Fresh (arrived ++ more) := by
  intro data hdata
  obtain ⟨id, bytes, hle, hbytes, heq⟩ := h data hdata
  refine ⟨id, bytes, hle, ?_, heq⟩
  rw [List.getElem?_append_left (List.getElem?_eq_some_iff.mp hbytes).1]
  exact hbytes

theorem Returned.ackArrives (h : Returned s) {k : Nat} (hcurrent : s.requester.current = some k)
    (bytes : List UInt8) : Returned (ackArrives s bytes) := by
  have hbase : (Get.ackArrives s bytes).base = s.base := by
    rw [State.base, State.base]
    show (match s.requester with
      | .idle => (s.arrived ++ [bytes]).length
      | .sent k | .waiting k | .woken k _ | .reading k _ => k) = _
    cases hrequest : s.requester with
    | idle =>
      rw [hrequest] at hcurrent
      cases hcurrent
    | sent k | waiting k | woken k waker | reading k waker => rfl
  obtain ⟨base, fresh, timedOut, before, once⟩ := h
  refine ⟨?_, ?_, timedOut, ?_, once⟩
  · rw [hbase]
    show s.base ≤ (s.arrived ++ [bytes]).length
    rw [List.length_append]
    exact Nat.le_add_right_of_le base
  · intro r hr
    exact (fresh r hr).append [bytes]
  · rw [hbase]
    exact before

/-- A request returns. -/
theorem Returned.finish (h : Returned s) {r : Result} (hfresh : r.Fresh s.arrived)
    (htimedOut : r.waker = .timer → r.data = none)
    (htags : ∀ b ∈ r.bytes, s.base ≤ b.1 ∧ b.1 < s.arrived.length) : Returned (finish s r) := by
  obtain ⟨base, fresh, timedOut, before, once⟩ := h
  refine ⟨Nat.le_refl _, ?_, ?_, ?_, ?_⟩
  · exact List.forall_mem_append.mpr ⟨fresh, List.forall_mem_singleton.mpr hfresh⟩
  · exact List.forall_mem_append.mpr ⟨timedOut, List.forall_mem_singleton.mpr htimedOut⟩
  · refine List.forall_mem_append.mpr ⟨?_, List.forall_mem_singleton.mpr ?_⟩
    · intro r' hr' b hb
      exact Nat.lt_of_lt_of_le (before r' hr' b hb) base
    · intro b hb
      exact (htags b hb).2
  · refine List.pairwise_append.mpr ⟨once, List.pairwise_singleton _ _, ?_⟩
    intro r₁ hr₁ r₂ hr₂ b₁ hb₁ b₂ hb₂
    rw [List.mem_singleton.mp hr₂] at hb₂
    have hlt := before r₁ hr₁ b₁ hb₁
    have hge := (htags b₂ hb₂).1
    omega

/-- The request that is on reads its acknowledgement. -/
theorem Inv.returned_reading (h : Inv s) {k : Nat} {waker : Waker}
    (hrequest : s.requester = .reading k waker) :
    Returned (finish { s with msgGetPipe := s.msgGetPipe.drop maxGetInfoLength }
      ⟨k, waker, some (s.msgGetPipe.take maxGetInfoLength)⟩) := by
  cases h.phase with
  | idle request | sent k' request | early k' request | waiting k' request | expiring k' request
  | answering k' request | answered k' request | posted k' waker' request
  | woken k' waker' request =>
    rw [hrequest] at request
    cases request
  | reading k' request still handler ack =>
    rw [hrequest] at request
    injection request with hk hwaker
    subst hk hwaker
    have hbase : s.base = k := by
      rw [State.base, hrequest]
    have hsame : Returned { s with msgGetPipe := s.msgGetPipe.drop maxGetInfoLength } :=
      h.returned.of_eq rfl rfl rfl
    have hread := ack.read.2
    obtain ⟨⟨bytes, hbytes, -, hpipe⟩, hcount⟩ := ack
    refine hsame.finish ?_ (by nofun) ?_
    · intro data hdata
      cases hdata
      exact ⟨k, bytes, Nat.le_refl k, hbytes, hread.trans hpipe⟩
    · intro b hb
      have hmem : b ∈ tag k bytes := by
        rw [← hpipe, ← hread]
        exact hb
      obtain ⟨byte, -, rfl⟩ := List.mem_map.mp hmem
      show s.base ≤ k ∧ k < s.arrived.length
      rw [hbase, hcount]
      exact ⟨Nat.le_refl k, Nat.lt_succ_self k⟩

theorem Inv.returned_requesterStep (h : Inv s) : Returned (requesterStep s) := by
  have hreturned := h.returned
  cases hrequest : s.requester with
  | idle =>
    simp only [requesterStep, hrequest]
    exact hreturned
  | sent k =>
    simp only [requesterStep, hrequest]
    exact hreturned.of_eq rfl rfl (by simp only [State.base, hrequest])
  | waiting k =>
    simp only [requesterStep, hrequest]
    split
    · exact hreturned
    · exact hreturned.of_eq rfl rfl (by simp only [State.base, hrequest])
  | woken k waker =>
    simp only [requesterStep, hrequest]
    split
    · exact hreturned.of_eq rfl rfl (by simp only [State.base, hrequest])
    · exact hreturned.finish (by nofun) (fun _ => rfl) (by nofun)
  | reading k waker =>
    simp only [requesterStep, hrequest]
    split
    · exact hreturned
    · exact h.returned_reading hrequest

/-- The handler and the timer do not touch what is returned. -/
theorem Returned.handlerStep (h : Returned s) : Returned (handlerStep s) := by
  rw [Get.handlerStep]
  split <;> exact h.of_eq rfl rfl rfl

theorem Returned.timerStep (h : Returned s) : Returned (timerStep s) := by
  rw [Get.timerStep]
  split
  · split <;> exact h.of_eq rfl rfl rfl
  all_goals exact h.of_eq rfl rfl rfl

theorem Inv.step (h : Inv s) (e : Event) (hguard : Guard s e) : Inv (step s e) := by
  refine ⟨h.phase.step e hguard, ?_⟩
  cases e with
  | request =>
    rw [Get.step]
    split
    · next hidle => exact h.returned.of_eq rfl rfl (by simp only [State.base, request, hidle])
    · exact h.returned
  | requester => exact h.returned_requesterStep
  | ack ack =>
    rw [Get.step]
    split
    · next hidle => exact h.returned.ackArrives (hguard hidle).1 ack.bytes
    · exact h.returned
  | handler => exact h.returned.handlerStep
  | timer => exact h.returned.timerStep

/-! ### Runs -/

/-- **Requests return their own acknowledgements**, each once, and one that timed out returns
nothing and leaves nothing, in runs in which every acknowledgement is the first one of the
request that is on and comes while its timer runs. -/
theorem requests_served (es : List Event) (h : AllSteps step Guard .start es) :
    AllStates step Served .start es :=
  (allStates_of_allSteps step Inv (fun _ e hs hG => hs.step e hG) inv_start h).mono
    fun _ hs => hs.served

def ack7 : Ack := ⟨[7], by decide⟩

/-- A request that is answered. -/
def answeredRequest : List Event :=
  [.request, .requester, .timer, .timer, .timer, .timer, .ack ack7, .handler, .handler, .handler,
    .requester, .requester, .requester]

theorem answered_request_served :
    AllSteps step Guard .start answeredRequest ∧
    (run step .start answeredRequest).results = [⟨0, .ack, some [(0, 7)]⟩] ∧
    AllStates step Served .start answeredRequest := by
  have hguard : AllSteps step Guard .start answeredRequest := by
    decide +kernel
  exact ⟨hguard, by decide +kernel, requests_served answeredRequest hguard⟩

/-- A request that times out, its acknowledgement, and a second request. -/
def lateAck : List Event :=
  .request :: .requester :: (List.replicate 39 Event.timer ++
    [.requester, .requester, .ack ack7, .handler, .handler, .handler, .request, .requester,
      .requester, .requester, .requester])

/-- The second request returns the acknowledgement of the first. -/
theorem late_ack_returned : ¬∀ es, AllStates step Served .start es := by
  intro h
  have hresults : (run step .start lateAck).results =
      [⟨0, .timer, none⟩, ⟨1, .ack, some [(0, 7)]⟩] := by
    decide +kernel
  obtain ⟨id, bytes, hle, -, hdata⟩ := (h lateAck).last.fresh ⟨1, .ack, some [(0, 7)]⟩ (by
    rw [hresults]
    decide) _ rfl
  have hid : (0, (7 : UInt8)) ∈ tag id bytes := by
    rw [← hdata]
    exact List.mem_singleton.mpr rfl
  obtain ⟨byte, -, heq⟩ := List.mem_map.mp hid
  injection heq with hzero
  simp only [hzero] at hle
  omega

end Opconn.Exchange.Get
