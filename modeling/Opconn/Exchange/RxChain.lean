import Opconn.Exchange.Pal
import Opconn.Lib.Ring
import Opconn.Lib.Runs

/-!
# The chain of received messages

`msgRxPktThread` fills the slots of a ring of 16 and posts a semaphore for each message;
`msgProcessThread` hands the messages to `msgDataPorcessHander`, from the slot at its own
header on, until it comes to a slot that is not active.  A slot whose message was taken is
cleared and the header moves on, but when the handler reports an error the slot is only
cleared.  The macros that should lock the chain are empty, so each access is a step.
-/

namespace Opconn.Exchange.RxChain

open Runs

/-! ### Messages and hooks -/

/-- `MSG_TYPE_e`. -/
inductive MsgType where
  | dyingGsp
  | linkFault
  | aunthentied
  | nackEven
  | oamReceived
  | set
  | setAck
  | get
  | getAck
  | imageUpload
  | imageUploadAck
deriving DecidableEq

/-- The cases of the switch over `eventId`. -/
def MsgType.ofEventId (eventId : UInt16) : Option MsgType :=
  match eventId.toNat with
  | 0 => some .dyingGsp
  | 1 => some .linkFault
  | 2 => some .aunthentied
  | 3 => some .nackEven
  | 4 => some .oamReceived
  | 5 => some .set
  | 6 => some .setAck
  | 7 => some .get
  | 8 => some .getAck
  | 9 => some .imageUpload
  | 10 => some .imageUploadAck
  | _ => none

/-- A message as it stands in `dataBuff`. -/
structure Msg where
  onuId : UInt8
  eventId : UInt16
  payLoad : List UInt8
deriving DecidableEq

/-- Which of the handler pointers are not `NULL`. -/
abbrev Hooks := MsgType → Bool

/-- `msgHookRegister`. -/
def msgHookRegister (hooks : Hooks) : Hooks
  | .nackEven => hooks .nackEven
  | .dyingGsp | .linkFault | .aunthentied | .oamReceived | .set | .setAck | .get | .getAck
  | .imageUpload | .imageUploadAck => true

/-- The types of `OPL_ALARM_EVENT_TYPE_e` that `HookRegister` knows. -/
inductive AlarmType where
  | dyingGaspAlarm
  | linkFaultAlarm
  | mpcpNackEvent
  | oamReceiveEvent
  | authorizationEvent

def AlarmType.msgType : AlarmType → MsgType
  | .dyingGaspAlarm => .dyingGsp
  | .linkFaultAlarm => .linkFault
  | .mpcpNackEvent => .nackEven
  | .oamReceiveEvent => .oamReceived
  | .authorizationEvent => .aunthentied

/-- `HookRegister`; `fun` may be `NULL`. -/
def hookRegister (hooks : Hooks) (type : AlarmType) (fun_ : Bool) : Hooks :=
  Function.update hooks type.msgType fun_

/-- What `msgDataPorcessHander` returns.  What the handler itself returns is dropped, and an event
that is not known is no error. -/
def msgDataPorcessHander (hooks : Hooks) (msg : Msg) : Status :=
  match MsgType.ofEventId msg.eventId with
  | some type => if hooks type then .ok else .error
  | none => .ok

/-! ### The chain and the two threads -/

/-- `NUM_OF_DATA_BUFF_CHAIN_RX`. -/
abbrev numOfDataBuffChainRx : Nat := 16

/-- `MSG_DATA_BUFF_RX_CHAIN_t`. -/
structure Slot where
  active : Bool
  data : Msg

/-- A slot behind `msgBuffDataRxClear`. -/
def Slot.cleared : Slot := ⟨false, ⟨0, 0, []⟩⟩

/-- Where `msgRxPktThread` is: at its test, in `palRxData`, behind it, with the slot active, or with
the tailer moved on. -/
inductive RxPc where
  | test
  | read
  | filled
  | marked
  | advanced
deriving DecidableEq

/-- Where `msgProcessThread` is: in `sem_wait`, at the test of the inner loop, behind a handler
that reported an error or none, or with the slot cleared. -/
inductive ProcessPc where
  | wait
  | test
  | failed
  | done
  | cleared
deriving DecidableEq

structure State where
  msgDataBuffRxChain : Nat → Slot
  pRxMsgHeader : Nat
  pRxMsgTailer : Nat
  msgpro : Nat
  hooks : Hooks
  rx : RxPc
  process : ProcessPc
  received : List Msg
  handled : List Msg

/-- Behind `msgInit`. -/
def State.start : State where
  msgDataBuffRxChain _ := .cleared
  pRxMsgHeader := 0
  pRxMsgTailer := 0
  msgpro := 0
  hooks := msgHookRegister fun _ => false
  rx := .test
  process := .wait
  received := []
  handled := []

def next (i : Nat) : Nat := (i + 1) % numOfDataBuffChainRx

def setSlot (s : State) (i : Nat) (slot : Slot) : State :=
  { s with msgDataBuffRxChain := Function.update s.msgDataBuffRxChain i slot }

/-- `palRxData` returns with a message. -/
def palRx (s : State) (msg : Msg) : State :=
  { setSlot s s.pRxMsgTailer { s.msgDataBuffRxChain s.pRxMsgTailer with data := msg } with
    rx := .filled
    received := s.received ++ [msg] }

def rxStep (s : State) : State :=
  match s.rx with
  | .test => if (s.msgDataBuffRxChain s.pRxMsgTailer).active then s else { s with rx := .read }
  | .read => s
  | .filled =>
    { setSlot s s.pRxMsgTailer { s.msgDataBuffRxChain s.pRxMsgTailer with active := true } with
      rx := .marked }
  | .marked => { s with pRxMsgTailer := next s.pRxMsgTailer, rx := .advanced }
  | .advanced => { s with msgpro := s.msgpro + 1, rx := .test }

/-- The handler is called for the message at the header. -/
def handle (s : State) : State :=
  let msg := (s.msgDataBuffRxChain s.pRxMsgHeader).data
  { s with
    handled := s.handled ++ [msg]
    process := match msgDataPorcessHander s.hooks msg with
      | .ok => .done
      | .error => .failed }

def processStep (s : State) : State :=
  match s.process with
  | .wait => if 0 < s.msgpro then { s with msgpro := s.msgpro - 1, process := .test } else s
  | .test =>
    if (s.msgDataBuffRxChain s.pRxMsgHeader).active then handle s else { s with process := .wait }
  | .failed => { setSlot s s.pRxMsgHeader .cleared with process := .test }
  | .done => { setSlot s s.pRxMsgHeader .cleared with process := .cleared }
  | .cleared => { s with pRxMsgHeader := next s.pRxMsgHeader, process := .test }

inductive Event where
  | frame (msg : Msg)
  | rx
  | process
  | hookRegister (type : AlarmType) (fun_ : Bool)

def step (s : State) : Event → State
  | .frame msg =>
    match s.rx with
    | .read => palRx s msg
    | .test | .filled | .marked | .advanced => s
  | .rx => rxStep s
  | .process => processStep s
  | .hookRegister type fun_ => { s with hooks := RxChain.hookRegister s.hooks type fun_ }

/-! ### What is handled -/

/-- Messages are handled in the order received, each once, and none is left when the process
thread has served its wake-ups and the receive thread has none to post. -/
structure Handled (s : State) : Prop where
  order : s.handled <+: s.received
  rest : s.process = .wait → s.msgpro = 0 → s.rx = .test ∨ s.rx = .read → s.handled = s.received

/-- A message whose event is unknown or has a handler. -/
def Served (hooks : Hooks) (msg : Msg) : Prop :=
  ∀ type, MsgType.ofEventId msg.eventId = some type → hooks type = true

instance (hooks : Hooks) (msg : Msg) : Decidable (Served hooks msg) :=
  match h : MsgType.ofEventId msg.eventId with
  | none => .isTrue (by rw [Served, h]; nofun)
  | some type => decidable_of_iff (hooks type = true) (by
      rw [Served, h]
      constructor
      · rintro htype _ ⟨⟩
        exact htype
      · intro hall
        exact hall type rfl)

/-- The message that is handled next has a handler, or its event is unknown. -/
def Guard (s : State) : Event → Prop
  | .process => s.process = .test → (s.msgDataBuffRxChain s.pRxMsgHeader).active = true →
      Served s.hooks (s.msgDataBuffRxChain s.pRxMsgHeader).data
  | .frame _ | .rx | .hookRegister .. => True

instance (s : State) : DecidablePred (Guard s)
  | .process => inferInstanceAs (Decidable (_ → _ → _))
  | .frame _ | .rx | .hookRegister .. => inferInstanceAs (Decidable True)

theorem msgDataPorcessHander_of_served {hooks : Hooks} {msg : Msg} (h : Served hooks msg) :
    msgDataPorcessHander hooks msg = .ok := by
  rw [msgDataPorcessHander]
  split
  · next type htype => rw [if_pos (h type htype)]
  · rfl

/-! ### The invariant -/

/-- The slot of the next message that is not handled yet. -/
def State.front (s : State) : Nat :=
  match s.process with
  | .wait | .test | .failed => s.pRxMsgHeader
  | .done | .cleared => s.pRxMsgHeader + 1

def State.data (s : State) (i : Nat) : Msg := (s.msgDataBuffRxChain i).data

/-- The `n` messages that wait. -/
def State.waiting (s : State) (n : Nat) : List Msg :=
  Ring.segment s.data numOfDataBuffChainRx s.front n

/-- The message of the slot that is not active yet. -/
def State.incoming (s : State) : List Msg :=
  match s.rx with
  | .filled => [s.data s.pRxMsgTailer]
  | .test | .read | .marked | .advanced => []

/-- Where the receive thread puts its next message, when it is not between a slot and its
pointer. -/
def State.back (s : State) : Nat :=
  match s.rx with
  | .marked => s.pRxMsgTailer + 1
  | .test | .read | .filled | .advanced => s.pRxMsgTailer

/-- The slot that is being handled is still in use, and so is the one that is being filled. -/
def State.busy (s : State) : Nat :=
  (if s.process = .done then 1 else 0) + if s.rx = .read ∨ s.rx = .filled then 1 else 0

/-- `n` messages wait in the slots from the front on.  The slot before the front is active too while
its message is being handled. -/
structure Chain (s : State) (n : Nat) : Prop where
  header : s.pRxMsgHeader < numOfDataBuffChainRx
  tailer : s.pRxMsgTailer < numOfDataBuffChainRx
  back : s.back % numOfDataBuffChainRx = (s.front + n) % numOfDataBuffChainRx
  room : n + s.busy ≤ numOfDataBuffChainRx
  active : ∀ i < numOfDataBuffChainRx,
    (s.msgDataBuffRxChain ((s.front + i) % numOfDataBuffChainRx)).active = true ↔
      i < n ∨ i = numOfDataBuffChainRx - 1 ∧ s.process = .done
  messages : s.handled ++ s.waiting n ++ s.incoming = s.received
  idle : s.process = .wait → n = 0 ∨ 0 < s.msgpro ∨ s.rx = .marked ∨ s.rx = .advanced
  not_failed : s.process ≠ .failed

def Inv (s : State) : Prop := ∃ n, Chain s n

theorem inv_start : Inv .start := by
  refine ⟨0, by decide, by decide, rfl, by decide, ?_, rfl, fun _ => .inl rfl, by decide⟩
  intro i hi
  constructor
  · intro hactive
    cases hactive
  · rintro (hlt | ⟨-, hdone⟩)
    · exact absurd hlt (Nat.not_lt_zero i)
    · cases hdone

variable {s : State} {n : Nat}

/-- When the receive thread has nothing to post, the messages that wait are posted. -/
theorem Chain.posted (h : Chain s n) (hwait : s.process = .wait) (hmarked : s.rx ≠ .marked)
    (hadvanced : s.rx ≠ .advanced) : n = 0 ∨ 0 < s.msgpro := by
  rcases h.idle hwait with hn | hpos | hrx | hrx
  · exact .inl hn
  · exact .inr hpos
  · exact absurd hrx hmarked
  · exact absurd hrx hadvanced

theorem Chain.handled (h : Chain s n) : Handled s := by
  refine ⟨⟨_, by rw [← List.append_assoc]; exact h.messages⟩, ?_⟩
  intro hwait hsem hrx
  have hn : n = 0 := by
    have hposted := h.posted hwait (by rcases hrx with hrx | hrx <;> rw [hrx] <;> decide)
      (by rcases hrx with hrx | hrx <;> rw [hrx] <;> decide)
    omega
  have hincoming : s.incoming = [] := by
    rcases hrx with hrx | hrx <;> rw [State.incoming, hrx]
  have hmessages := h.messages
  rw [hn, hincoming, List.append_nil, State.waiting, Ring.segment_zero, List.append_nil]
    at hmessages
  exact hmessages

/-! ### The receive thread -/

/-- The tailer, when it is not behind. -/
theorem Chain.tailer_eq (h : Chain s n) (hrx : s.rx ≠ .marked) :
    s.pRxMsgTailer = (s.front + n) % numOfDataBuffChainRx := by
  have hback : s.back = s.pRxMsgTailer := by
    rw [State.back]
    split
    · next hmarked => exact absurd hmarked hrx
    all_goals rfl
  rw [← h.back, hback, Nat.mod_eq_of_lt h.tailer]

/-- The slot at the tailer is none of the first ones. -/
theorem Chain.tailer_ne (h : Chain s n) (hrx : s.rx ≠ .marked) (hn : n < numOfDataBuffChainRx)
    {i : Nat} (hi : i < n) : (s.front + i) % numOfDataBuffChainRx ≠ s.pRxMsgTailer := by
  rw [h.tailer_eq hrx]
  exact Ring.add_mod_ne hi hn s.front

/-- The slot at the tailer is not active: there is room for a message. -/
theorem Chain.room_of_inactive (h : Chain s n) (hrx : s.rx = .test)
    (hinactive : (s.msgDataBuffRxChain s.pRxMsgTailer).active = false) :
    n + (if s.process = .done then 1 else 0) < numOfDataBuffChainRx := by
  have hroom := h.room
  simp only [State.busy, hrx, reduceCtorEq, or_self, if_false, Nat.add_zero] at hroom
  by_contra hfull
  have hlast : (s.front + n) % numOfDataBuffChainRx = (s.front + n % numOfDataBuffChainRx) %
      numOfDataBuffChainRx := by
    rw [Nat.add_mod_mod]
  have hactive := (h.active (n % numOfDataBuffChainRx) (Nat.mod_lt _ (by decide))).mpr (by
    by_cases hdone : s.process = .done
    · rw [if_pos hdone] at hfull hroom
      right
      exact ⟨by rw [Nat.mod_eq_of_lt (by omega)]; omega, hdone⟩
    · rw [if_neg hdone] at hfull hroom
      left
      have hn : n = numOfDataBuffChainRx := by omega
      rw [hn]
      decide)
  rw [← hlast, ← h.tailer_eq (by rw [hrx]; decide), hinactive] at hactive
  cases hactive

/-- The receive thread finds a free slot. -/
theorem Chain.rxTest (h : Chain s n) (hrx : s.rx = .test)
    (hinactive : (s.msgDataBuffRxChain s.pRxMsgTailer).active = false) :
    Chain { s with rx := .read } n := by
  have hroom := h.room_of_inactive hrx hinactive
  have hback := h.back
  have hmessages := h.messages
  simp only [State.back, State.incoming, hrx] at hback hmessages
  refine ⟨h.header, h.tailer, hback, ?_, h.active, hmessages, ?_, h.not_failed⟩
  · simp only [State.busy, true_or, if_true]
    omega
  · intro hwait
    exact (h.posted hwait (by rw [hrx]; decide) (by rw [hrx]; decide)).imp_right .inl

/-- A message comes in. -/
theorem Chain.palRx (h : Chain s n) (hrx : s.rx = .read) (msg : Msg) : Chain (palRx s msg) n := by
  have hroom := h.room
  have hback := h.back
  have hmessages := h.messages
  simp only [State.busy, State.back, State.incoming, hrx, true_or, if_true, List.append_nil]
    at hroom hback hmessages
  have hwaiting : (RxChain.palRx s msg).waiting n = s.waiting n := by
    apply List.map_congr_left
    intro i hi
    show (Function.update s.msgDataBuffRxChain s.pRxMsgTailer _
      ((s.front + i) % numOfDataBuffChainRx)).data = _
    rw [Function.update_of_ne (h.tailer_ne (by rw [hrx]; decide) (by omega) (List.mem_range.mp hi))]
    rfl
  refine ⟨h.header, h.tailer, hback, ?_, ?_, ?_, ?_, h.not_failed⟩
  · simp only [State.busy, RxChain.palRx, setSlot, or_true, if_true]
    exact hroom
  · intro i hi
    refine Iff.trans ?_ (h.active i hi)
    show (Function.update s.msgDataBuffRxChain s.pRxMsgTailer _ _).active = true ↔ _
    rw [Function.update_apply]
    split
    · next heq =>
      rw [← heq]
      rfl
    · rfl
  · have hincoming : (RxChain.palRx s msg).incoming = [msg] := by
      simp [State.incoming, RxChain.palRx, setSlot, State.data]
    rw [hwaiting, hincoming]
    show s.handled ++ s.waiting n ++ [msg] = s.received ++ [msg]
    rw [hmessages]
  · intro hwait
    exact (h.posted hwait (by rw [hrx]; decide) (by rw [hrx]; decide)).imp_right .inl

/-- The slot becomes active: one more message waits. -/
theorem Chain.rxFilled (h : Chain s n) (hrx : s.rx = .filled) :
    Chain { setSlot s s.pRxMsgTailer
      { s.msgDataBuffRxChain s.pRxMsgTailer with active := true } with rx := .marked } (n + 1) := by
  have hroom := h.room
  have hback := h.back
  have hmessages := h.messages
  simp only [State.busy, State.back, State.incoming, hrx, or_true, if_true]
    at hroom hback hmessages
  have htailer := h.tailer_eq (by rw [hrx]; decide)
  have hdata (i : Nat) : (Function.update s.msgDataBuffRxChain s.pRxMsgTailer
      { s.msgDataBuffRxChain s.pRxMsgTailer with active := true } i).data = s.data i := by
    rw [Function.update_apply]
    split
    · next heq => rw [heq, State.data]
    · rfl
  refine ⟨h.header, h.tailer, ?_, ?_, ?_, ?_, fun _ => .inr (.inr (.inl rfl)), h.not_failed⟩
  · show (s.pRxMsgTailer + 1) % numOfDataBuffChainRx = (s.front + (n + 1)) % numOfDataBuffChainRx
    rw [← Nat.add_assoc, Nat.add_mod, hback, ← Nat.add_mod]
  · show n + 1 + ((if s.process = .done then 1 else 0) + 0) ≤ numOfDataBuffChainRx
    omega
  · intro i hi
    show (Function.update s.msgDataBuffRxChain s.pRxMsgTailer
      { s.msgDataBuffRxChain s.pRxMsgTailer with active := true }
        ((s.front + i) % numOfDataBuffChainRx)).active = true ↔
      i < n + 1 ∨ i = numOfDataBuffChainRx - 1 ∧ s.process = .done
    by_cases hin : i = n
    · rw [hin, ← htailer, Function.update_self]
      exact ⟨fun _ => .inl (Nat.lt_succ_self n), fun _ => rfl⟩
    · have hne : (s.front + i) % numOfDataBuffChainRx ≠ s.pRxMsgTailer := by
        rw [htailer]
        rcases Nat.lt_or_gt_of_ne hin with hlt | hgt
        · exact Ring.add_mod_ne hlt (by omega) s.front
        · exact (Ring.add_mod_ne hgt hi s.front).symm
      rw [Function.update_of_ne hne, h.active i hi]
      have hlt : i < n ↔ i < n + 1 := by omega
      rw [hlt]
  · show s.handled ++ (List.range (n + 1)).map (fun i => (Function.update s.msgDataBuffRxChain
      s.pRxMsgTailer { s.msgDataBuffRxChain s.pRxMsgTailer with active := true }
        ((s.front + i) % numOfDataBuffChainRx)).data) ++ [] = _
    simp only [hdata]
    rw [List.append_nil, List.range_succ, List.map_append, List.map_singleton, ← htailer,
      ← List.append_assoc]
    exact hmessages

/-- The tailer moves on. -/
theorem Chain.rxMarked (h : Chain s n) (hrx : s.rx = .marked) :
    Chain { s with pRxMsgTailer := next s.pRxMsgTailer, rx := .advanced } n := by
  have hroom := h.room
  have hback := h.back
  have hmessages := h.messages
  simp only [State.busy, State.back, State.incoming, hrx, reduceCtorEq, or_self, if_false]
    at hroom hback hmessages
  refine ⟨h.header, Nat.mod_lt _ (by decide), ?_, ?_, h.active, hmessages,
    fun _ => .inr (.inr (.inr rfl)), h.not_failed⟩
  · show next s.pRxMsgTailer % numOfDataBuffChainRx = (s.front + n) % numOfDataBuffChainRx
    rw [next, Nat.mod_mod]
    exact hback
  · simp only [State.busy, reduceCtorEq, or_self, if_false]
    exact hroom

/-- The semaphore is posted. -/
theorem Chain.rxAdvanced (h : Chain s n) (hrx : s.rx = .advanced) :
    Chain { s with msgpro := s.msgpro + 1, rx := .test } n := by
  have hroom := h.room
  have hback := h.back
  have hmessages := h.messages
  simp only [State.busy, State.back, State.incoming, hrx, reduceCtorEq, or_self, if_false]
    at hroom hback hmessages
  refine ⟨h.header, h.tailer, hback, ?_, h.active, hmessages,
    fun _ => .inr (.inl (Nat.succ_pos _)), h.not_failed⟩
  simp only [State.busy, reduceCtorEq, or_self, if_false]
  exact hroom

theorem Chain.rxStep (h : Chain s n) : Inv (rxStep s) := by
  cases hrx : s.rx with
  | test =>
    simp only [RxChain.rxStep, hrx]
    split
    · exact ⟨n, h⟩
    · next hinactive => exact ⟨n, h.rxTest hrx (by simpa using hinactive)⟩
  | read =>
    simp only [RxChain.rxStep, hrx]
    exact ⟨n, h⟩
  | filled =>
    simp only [RxChain.rxStep, hrx]
    exact ⟨n + 1, h.rxFilled hrx⟩
  | marked =>
    simp only [RxChain.rxStep, hrx]
    exact ⟨n, h.rxMarked hrx⟩
  | advanced =>
    simp only [RxChain.rxStep, hrx]
    exact ⟨n, h.rxAdvanced hrx⟩

/-! ### The process thread -/

/-- Between the semaphore and the test only the process thread itself moves. -/
theorem Chain.between (h : Chain s n) (hprocess : s.process = .wait ∨ s.process = .test)
    {pc : ProcessPc} (hpc : pc = .wait ∨ pc = .test) (posts : Nat) (hidle : pc = .wait → n = 0) :
    Chain { s with msgpro := posts, process := pc } n := by
  have hroom := h.room
  have hback := h.back
  have hmessages := h.messages
  have hactive := h.active
  rcases hprocess with hprocess | hprocess <;> rcases hpc with rfl | rfl <;>
    simp only [State.busy, State.waiting, State.front, hprocess, reduceCtorEq, if_false, and_false,
      or_false] at hroom hback hmessages hactive <;>
    exact ⟨h.header, h.tailer, hback, hroom, fun i hi => (hactive i hi).trans (by simp), hmessages,
      fun hwait => .inl (hidle hwait), by nofun⟩

/-- A wake-up is taken. -/
theorem Chain.wake (h : Chain s n) (hprocess : s.process = .wait) :
    Chain { s with msgpro := s.msgpro - 1, process := .test } n :=
  h.between (.inl hprocess) (.inr rfl) _ (by nofun)

/-- The inner loop ends: no message waits. -/
theorem Chain.sleep (h : Chain s n) (hprocess : s.process = .test)
    (hinactive : (s.msgDataBuffRxChain s.pRxMsgHeader).active = false) :
    Chain { s with process := .wait } n := by
  refine h.between (.inr hprocess) (.inl rfl) s.msgpro ?_
  intro _
  have hactive := h.active
  simp only [State.front, hprocess] at hactive
  by_contra hn
  have hfirst := (hactive 0 (by decide)).mpr (.inl (by omega))
  rw [Nat.add_zero, Nat.mod_eq_of_lt h.header, hinactive] at hfirst
  cases hfirst

/-- The first of the messages that wait is handled. -/
theorem Chain.handle (h : Chain s n) (hprocess : s.process = .test)
    (hheader : (s.msgDataBuffRxChain s.pRxMsgHeader).active = true)
    (hserved : Served s.hooks (s.msgDataBuffRxChain s.pRxMsgHeader).data) :
    ∃ k, Chain (handle s) k := by
  have hroom := h.room
  have hback := h.back
  have hmessages := h.messages
  have hactive := h.active
  simp only [State.busy, State.waiting, State.front, hprocess, reduceCtorEq, if_false, and_false,
    or_false] at hroom hback hmessages hactive
  have hpos : 0 < n := by
    apply (hactive 0 (by decide)).mp
    rw [Nat.add_zero, Nat.mod_eq_of_lt h.header]
    exact hheader
  obtain ⟨k, rfl⟩ : ∃ k, n = 1 + k := ⟨n - 1, by omega⟩
  have hfirst : Ring.segment s.data numOfDataBuffChainRx s.pRxMsgHeader 1 =
      [(s.msgDataBuffRxChain s.pRxMsgHeader).data] := by
    rw [Ring.segment_succ, Ring.segment_zero, Nat.add_zero, Nat.mod_eq_of_lt h.header]
    rfl
  rw [Ring.segment_add, hfirst] at hmessages
  refine ⟨k, ?_⟩
  rw [RxChain.handle, msgDataPorcessHander_of_served hserved]
  refine ⟨h.header, h.tailer, ?_, ?_, ?_, ?_, by nofun, by nofun⟩
  · show s.back % numOfDataBuffChainRx = (s.pRxMsgHeader + 1 + k) % numOfDataBuffChainRx
    rw [hback, Nat.add_assoc]
  · simp only [State.busy, if_true]
    omega
  · intro i hi
    show (s.msgDataBuffRxChain ((s.pRxMsgHeader + 1 + i) % numOfDataBuffChainRx)).active = true ↔
      i < k ∨ i = numOfDataBuffChainRx - 1 ∧ ProcessPc.done = .done
    rw [Nat.add_assoc]
    by_cases hlast : i = numOfDataBuffChainRx - 1
    · have hwrap : 1 + i = numOfDataBuffChainRx := by omega
      rw [hwrap, Nat.add_mod_right, Nat.mod_eq_of_lt h.header]
      exact ⟨fun _ => .inr ⟨hlast, rfl⟩, fun _ => hheader⟩
    · rw [hactive (1 + i) (by omega)]
      omega
  · show s.handled ++ [(s.msgDataBuffRxChain s.pRxMsgHeader).data] ++
      Ring.segment s.data numOfDataBuffChainRx (s.pRxMsgHeader + 1) k ++ s.incoming = s.received
    rw [List.append_assoc s.handled]
    exact hmessages

/-- The header's slot is the last one, counted from the slot behind it. -/
theorem Chain.last_slot (h : Chain s n) :
    (s.pRxMsgHeader + 1 + (numOfDataBuffChainRx - 1)) % numOfDataBuffChainRx = s.pRxMsgHeader := by
  rw [Nat.add_assoc]
  show (s.pRxMsgHeader + numOfDataBuffChainRx) % numOfDataBuffChainRx = _
  rw [Nat.add_mod_right, Nat.mod_eq_of_lt h.header]

theorem Chain.slot_ne_header (h : Chain s n) {i : Nat} (hi : i < numOfDataBuffChainRx - 1) :
    (s.pRxMsgHeader + 1 + i) % numOfDataBuffChainRx ≠ s.pRxMsgHeader := by
  conv_rhs => rw [← h.last_slot]
  exact Ring.add_mod_ne hi (by decide) _

/-- What is being filled is not what is being handled. -/
theorem Chain.tailer_ne_header (h : Chain s n) (hprocess : s.process = .done)
    (hrx : s.rx = .filled) : s.pRxMsgTailer ≠ s.pRxMsgHeader := by
  have hroom := h.room
  have htailer := h.tailer_eq (by rw [hrx]; decide)
  simp only [State.busy, hprocess, hrx, or_true, if_true] at hroom
  simp only [State.front, hprocess] at htailer
  rw [htailer]
  exact h.slot_ne_header (by omega)

/-- The slot of a handled message is cleared. -/
theorem Chain.clear (h : Chain s n) (hprocess : s.process = .done) :
    Chain { setSlot s s.pRxMsgHeader .cleared with process := .cleared } n := by
  have hroom := h.room
  have hback := h.back
  have hmessages := h.messages
  have hactive := h.active
  simp only [State.busy, State.front, hprocess, if_true, and_true] at hroom hback hactive
  have hwaiting : State.waiting { setSlot s s.pRxMsgHeader .cleared with process := .cleared } n =
      s.waiting n := by
    simp only [State.waiting, State.front, hprocess]
    apply List.map_congr_left
    intro i hi
    have hlt := List.mem_range.mp hi
    show (Function.update s.msgDataBuffRxChain s.pRxMsgHeader _
      ((s.pRxMsgHeader + 1 + i) % numOfDataBuffChainRx)).data = _
    rw [Function.update_of_ne (h.slot_ne_header (by omega))]
    rfl
  have hincoming : State.incoming { setSlot s s.pRxMsgHeader .cleared with process := .cleared } =
      s.incoming := by
    simp only [State.incoming]
    cases hrx : s.rx with
    | filled =>
      simp only [State.data, setSlot, hrx, Function.update_of_ne (h.tailer_ne_header hprocess hrx)]
    | test | read | marked | advanced => simp only [setSlot, hrx]
  refine ⟨h.header, h.tailer, hback, ?_, ?_, ?_, by nofun, by nofun⟩
  · show n + (0 + if s.rx = .read ∨ s.rx = .filled then 1 else 0) ≤ numOfDataBuffChainRx
    omega
  · intro i hi
    show (Function.update s.msgDataBuffRxChain s.pRxMsgHeader _
      ((s.pRxMsgHeader + 1 + i) % numOfDataBuffChainRx)).active = true ↔
        i < n ∨ i = numOfDataBuffChainRx - 1 ∧ ProcessPc.cleared = .done
    by_cases hlast : i = numOfDataBuffChainRx - 1
    · rw [hlast, h.last_slot, Function.update_self]
      simp only [Slot.cleared, Bool.false_eq_true, reduceCtorEq, and_false, or_false, false_iff]
      omega
    · rw [Function.update_of_ne (h.slot_ne_header (by omega)), hactive i hi]
      simp only [hlast, false_and, or_false]
  · rw [hwaiting, hincoming]
    exact hmessages

/-- The header moves on. -/
theorem Chain.moveOn (h : Chain s n) (hprocess : s.process = .cleared) :
    Chain { s with pRxMsgHeader := next s.pRxMsgHeader, process := .test } n := by
  have hroom := h.room
  have hback := h.back
  have hmessages := h.messages
  have hactive := h.active
  simp only [State.busy, State.waiting, State.front, hprocess, reduceCtorEq, if_false, and_false,
    or_false] at hroom hback hmessages hactive
  refine ⟨Nat.mod_lt _ (by decide), h.tailer, ?_, hroom, ?_, ?_, by nofun, by nofun⟩
  · show s.back % numOfDataBuffChainRx = (next s.pRxMsgHeader + n) % numOfDataBuffChainRx
    rw [next, Nat.mod_add_mod]
    exact hback
  · intro i hi
    show (s.msgDataBuffRxChain ((next s.pRxMsgHeader + i) % numOfDataBuffChainRx)).active = true ↔
      i < n ∨ i = numOfDataBuffChainRx - 1 ∧ ProcessPc.test = .done
    rw [next, Nat.mod_add_mod, hactive i hi]
    simp only [reduceCtorEq, and_false, or_false]
  · show s.handled ++ Ring.segment s.data numOfDataBuffChainRx (next s.pRxMsgHeader) n ++
      s.incoming = s.received
    rw [next, Ring.segment_mod]
    exact hmessages

theorem Chain.processStep (h : Chain s n) (hguard : Guard s .process) : Inv (processStep s) := by
  cases hprocess : s.process with
  | wait =>
    simp only [RxChain.processStep, hprocess]
    split
    · exact ⟨n, h.wake hprocess⟩
    · exact ⟨n, h⟩
  | test =>
    simp only [RxChain.processStep, hprocess]
    split
    · next hactive => exact h.handle hprocess hactive (hguard hprocess hactive)
    · next hinactive => exact ⟨n, h.sleep hprocess (by simpa using hinactive)⟩
  | failed => exact absurd hprocess h.not_failed
  | done =>
    simp only [RxChain.processStep, hprocess]
    exact ⟨n, h.clear hprocess⟩
  | cleared =>
    simp only [RxChain.processStep, hprocess]
    exact ⟨n, h.moveOn hprocess⟩

/-! ### Runs -/

theorem Inv.step (h : Inv s) (e : Event) (hguard : Guard s e) : Inv (step s e) := by
  obtain ⟨n, h⟩ := h
  cases e with
  | frame msg =>
    cases hrx : s.rx with
    | read =>
      simp only [RxChain.step, hrx]
      exact ⟨n, h.palRx hrx msg⟩
    | test | filled | marked | advanced =>
      simp only [RxChain.step, hrx]
      exact ⟨n, h⟩
  | rx => exact h.rxStep
  | process => exact h.processStep hguard
  | hookRegister type fun_ =>
    exact ⟨n, h.header, h.tailer, h.back, h.room, h.active, h.messages, h.idle, h.not_failed⟩

/-- **Messages are handled once and in order**, and none is left behind, in runs in which every
message has a handler or an unknown event. -/
theorem messages_handled (es : List Event) (h : AllSteps step Guard .start es) :
    AllStates step Handled .start es :=
  (allStates_of_allSteps step Inv (fun _ e hs hG => hs.step e hG) inv_start h).mono
    fun _ ⟨_, hs⟩ => hs.handled

def setMsg : Msg := ⟨1, 5, [9]⟩

def nackMsg : Msg := ⟨1, 3, []⟩

/-- A message is received and posted. -/
def receive (msg : Msg) : List Event := [.rx, .frame msg, .rx, .rx, .rx]

/-- Two messages, and one wake-up served for both. -/
def twoMessages : List Event :=
  receive setMsg ++ receive ⟨1, 77, []⟩ ++ List.replicate 9 .process

theorem two_messages_handled :
    AllSteps step Guard .start twoMessages ∧
    (run step .start twoMessages).handled = [setMsg, ⟨1, 77, []⟩] ∧
    AllStates step Handled .start twoMessages := by
  have hguard : AllSteps step Guard .start twoMessages := by
    decide +kernel
  exact ⟨hguard, by decide +kernel, messages_handled twoMessages hguard⟩

/-- A message without a handler in front of one that has a handler. -/
def nackFirst : List Event :=
  receive nackMsg ++ List.replicate 4 .process ++ receive setMsg ++ List.replicate 4 .process

/-- The header stays where it was, and the second message waits in the next slot. -/
theorem second_message_left : ¬∀ es, AllStates step Handled .start es := by
  intro h
  have hrest := (h nackFirst).last.rest (by decide +kernel) (by decide +kernel)
    (.inl (by decide +kernel))
  revert hrest
  decide +kernel

end Opconn.Exchange.RxChain
