import Opconn.Oam.Alarm

/-!
# Which bit an alarm is set, read and polled by

`CTC_STACK_alarm_set_state`, `CTC_STACK_alarm_get_state` and the poller each work out the bit
of an alarm for themselves.  For the ONU and the PON interface they agree.  For an Ethernet
port the first Ethernet alarm is set and polled by bit 0, and `CTC_STACK_alarm_get_state`
reads it from bit 1, where the second one is set.
-/

namespace Opconn.Oam.Alarm

open Runs WordBits

/-- What a setting belongs to.  Only an Ethernet alarm has a port, counted from 0. -/
inductive Target where
  | onu (number : Nat)
  | pon (number : Nat)
  | eth (port number : Nat)
deriving DecidableEq, Repr

/-- The arguments by which an alarm is named in a call.  No class has more than 32 alarms,
and `BEGIN` of a class is none. -/
structure AlarmRef (b : Board) where
  alarmId : BitVec 16
  portNum : Nat
  number_pos : 1 ≤ instanceType alarmId
  number_lt : instanceType alarmId < 32
  family : objType alarmId = alarmOnuBase ∨ objType alarmId = alarmPonIfBase ∨
    objType alarmId = alarmEthPortBase ∧ 1 ≤ portNum ∧ portNum ≤ b.numberOfPorts

variable {b : Board}

def AlarmRef.target (a : AlarmRef b) : Target :=
  if objType a.alarmId = alarmOnuBase then .onu (instanceType a.alarmId)
  else if objType a.alarmId = alarmPonIfBase then .pon (instanceType a.alarmId)
  else .eth (a.portNum - 1) (instanceType a.alarmId)

/-- A call of `CTC_STACK_alarm_set_state`. -/
structure SetCall (b : Board) extends AlarmRef b where
  admin : AdminConfig

def setStep (s : Alarms) (c : SetCall b) : Alarms :=
  ctcStackAlarmSetState s c.alarmId c.portNum c.admin

/-- The alarms after the calls. -/
def afterCalls (calls : List (SetCall b)) : Alarms := run setStep .start calls

/-- The initialisers of the enable words. -/
def initialSetting : Target → AdminConfig
  | .onu _ | .pon _ => .disabled
  | .eth _ number => if number ≤ 16 then .enabled else .disabled

/-- The value last set. -/
def setting (calls : List (SetCall b)) (t : Target) : AdminConfig :=
  calls.foldl (fun v c => if c.target = t then c.admin else v) (initialSetting t)

/-! ### One bit for each setting -/

/-- The bit of an alarm. -/
def enableBit (s : Alarms) : Target → Bool
  | .onu number => s.onuEnable.getLsbD number
  | .pon number => s.ponEnable.getLsbD number
  | .eth port number => (s.ethEnable port).getLsbD (number - 1)

/-- The alarm whose bit `CTC_STACK_alarm_get_state` reads. -/
def Target.read : Target → Target
  | .eth port number => .eth port (number + 1)
  | t => t

def Target.number : Target → Nat
  | .onu number | .pon number | .eth _ number => number

theorem AlarmRef.target_number (a : AlarmRef b) : a.target.number = instanceType a.alarmId := by
  rw [target]
  split
  · rfl
  · split <;> rfl

theorem AlarmRef.one_le_read (a : AlarmRef b) : 1 ≤ a.target.read.number := by
  have hpos := a.number_pos
  rw [← a.target_number] at hpos
  cases h : a.target <;> rw [h] at hpos <;> simp only [Target.read, Target.number] at * <;> omega

/-- A setting is read from the bit of `Target.read`. -/
theorem getState_eq (s : Alarms) (a : AlarmRef b) :
    ctcStackAlarmGetState s a.alarmId a.portNum =
      some (if enableBit s a.target.read then .enabled else .disabled) := by
  have hget : ∀ (word : BitVec 32) (i : Nat),
      (if get word i = 0 then AdminConfig.disabled else AdminConfig.enabled) =
        if word.getLsbD i then .enabled else .disabled := by
    intro word i
    rw [get_eq_flag]
    cases word.getLsbD i <;> rfl
  rw [ctcStackAlarmGetState, AlarmRef.target]
  rcases a.family with hfam | hfam | ⟨hfam, -, -⟩
  · simp only [hfam, if_true, Option.map_some, hget]
    rfl
  · simp only [hfam, show alarmPonIfBase ≠ alarmOnuBase by decide, if_true, if_false,
      Option.map_some, hget]
    rfl
  · simp only [hfam, show alarmEthPortBase ≠ alarmOnuBase by decide,
      show alarmEthPortBase ≠ alarmPonIfBase by decide, if_true, if_false, Option.map_some, hget]
    rfl

/-- A setting is written to the bit of the alarm, and to no other. -/
theorem enableBit_setStep (s : Alarms) (c : SetCall b) {t : Target} (ht : 1 ≤ t.number) :
    enableBit (setStep s c) t = if c.target = t then decide (c.admin = .enabled)
      else enableBit s t := by
  have hadmin : decide (c.admin ≠ .disabled) = decide (c.admin = .enabled) := by
    cases c.admin <;> rfl
  have hpos := c.number_pos
  have hlt := c.number_lt
  rw [setStep, ctcStackAlarmSetState, AlarmRef.target, hadmin]
  rcases c.family with hfam | hfam | ⟨hfam, -, -⟩
  · simp only [hfam, if_true]
    cases t with
    | onu number =>
      rw [enableBit, getLsbD_config _ hlt, enableBit]
      simp only [Target.onu.injEq, eq_comm]
    | pon number => simp [enableBit]
    | eth port number => simp [enableBit]
  · simp only [hfam, show alarmPonIfBase ≠ alarmOnuBase by decide, if_true, if_false]
    cases t with
    | onu number => simp [enableBit]
    | pon number =>
      rw [enableBit, getLsbD_config _ hlt, enableBit]
      simp only [Target.pon.injEq, eq_comm]
    | eth port number => simp [enableBit]
  · simp only [hfam, show alarmEthPortBase ≠ alarmOnuBase by decide,
      show alarmEthPortBase ≠ alarmPonIfBase by decide, if_true, if_false]
    cases t with
    | onu number => simp [enableBit]
    | pon number => simp [enableBit]
    | eth port number =>
      simp only [Target.number] at ht
      simp only [enableBit]
      by_cases hport : port = c.portNum - 1
      · rw [hport, Function.update_self, getLsbD_config _ (by omega)]
        have hbit : number - 1 = instanceType c.alarmId - 1 ↔ instanceType c.alarmId = number := by
          omega
        simp only [hbit, Target.eth.injEq, true_and]
      · rw [Function.update_of_ne hport, if_neg]
        simp only [Target.eth.injEq, not_and]
        intro h
        exact absurd h.symm hport

theorem enableBit_start {t : Target} (ht : 1 ≤ t.number) :
    enableBit .start t = decide (initialSetting t = .enabled) := by
  cases t with
  | onu number => simp [enableBit, Alarms.start, initialSetting]
  | pon number => simp [enableBit, Alarms.start, initialSetting]
  | eth port number =>
    simp only [Target.number] at ht
    have hword : (0xffff : BitVec 32) = (BitVec.allOnes 16).setWidth 32 := by decide
    rw [enableBit, Alarms.start, hword, BitVec.getLsbD_setWidth, BitVec.getLsbD_allOnes,
      initialSetting]
    by_cases hle : number ≤ 16
    · rw [if_pos hle, decide_eq_true (by omega), decide_eq_true (by omega)]
      rfl
    · have hbit : ¬number - 1 < 16 := by omega
      simp [hle, hbit]

/-- **Settings.**  In every state the bit of an alarm is the value last set for it. -/
theorem enableBit_afterCalls (calls : List (SetCall b)) {t : Target} (ht : 1 ≤ t.number) :
    enableBit (afterCalls calls) t = decide (setting calls t = .enabled) := by
  induction calls using List.reverseRecOn with
  | nil => exact enableBit_start ht
  | append_singleton calls c ih =>
    rw [afterCalls, run_append, setting, List.foldl_append]
    simp only [run_cons, run_nil, List.foldl_cons, List.foldl_nil]
    rw [enableBit_setStep _ _ ht]
    split
    · rfl
    · exact ih

theorem getState_afterCalls (calls : List (SetCall b)) (a : AlarmRef b) :
    ctcStackAlarmGetState (afterCalls calls) a.alarmId a.portNum =
      some (setting calls a.target.read) := by
  rw [getState_eq, enableBit_afterCalls calls a.one_le_read]
  cases setting calls a.target.read <;> rfl

theorem setting_append (calls : List (SetCall b)) (c : SetCall b) (t : Target) :
    setting (calls ++ [c]) t = if c.target = t then c.admin else setting calls t := by
  rw [setting, List.foldl_append]
  rfl

theorem get_ne_zero_iff (word : BitVec 32) (i : Nat) : get word i ≠ 0 ↔ word.getLsbD i = true := by
  rw [get_eq_flag]
  cases word.getLsbD i <;> simp [flag]

theorem ethPolled_iff (calls : List (SetCall b)) (port : Nat) {i : Nat} (hi : i ∈ ethAlarmIds) :
    ethPolled (afterCalls calls) port i ↔
      setting calls (.eth port (i - alarmEthPortBase)) = .enabled := by
  have hle : alarmEthPortBase + 1 ≤ i := by
    obtain ⟨hle, -⟩ := List.mem_range'_1.mp hi
    exact hle
  have hpos : 1 ≤ (Target.eth port (i - alarmEthPortBase)).number := by
    simp only [Target.number]
    omega
  rw [ethPolled, get_ne_zero_iff, ← decide_eq_true_iff (p := _ = AdminConfig.enabled),
    ← enableBit_afterCalls calls hpos, enableBit, Nat.sub_sub]
  rfl

theorem ponPolled_iff (calls : List (SetCall b)) {alarmId : Nat} (hid : alarmId ∈ opticalAlarmIds) :
    ponPolled (afterCalls calls) alarmId ↔
      setting calls (.pon (alarmId - alarmPonIfBase)) = .enabled := by
  obtain ⟨hle, hlt⟩ := List.mem_range'_1.mp hid
  simp only [alarmRxPowerHigh, warningTempLow] at hle hlt
  have hmod : alarmId % 256 = alarmId - alarmPonIfBase := by
    simp only [alarmPonIfBase]
    omega
  have hpos : 1 ≤ (Target.pon (alarmId - alarmPonIfBase)).number := by
    simp only [Target.number, alarmPonIfBase]
    omega
  rw [ponPolled, get_ne_zero_iff, ← decide_eq_true_iff (p := _ = AdminConfig.enabled),
    ← enableBit_afterCalls calls hpos, enableBit, hmod]

/-- **Set, read and poll.**  After any calls the poller finds the value last set for each of
its alarms.  `CTC_STACK_alarm_get_state` returns the value last set exactly when the alarm is
not one of an Ethernet port or the next alarm of that port has the same setting, and a
further call for another alarm leaves what it returns unless it is for that next alarm and
changes its setting. -/
theorem lastSet_returned_iff (calls : List (SetCall b)) (a : AlarmRef b) :
    (ctcStackAlarmGetState (afterCalls calls) a.alarmId a.portNum =
        some (setting calls a.target) ↔
      ∀ port number, a.target = .eth port number →
        setting calls (.eth port (number + 1)) = setting calls (.eth port number)) ∧
    (∀ c : SetCall b, c.target ≠ a.target →
      (ctcStackAlarmGetState (afterCalls (calls ++ [c])) a.alarmId a.portNum =
          ctcStackAlarmGetState (afterCalls calls) a.alarmId a.portNum ↔
        ∀ port number, a.target = .eth port number → c.target = .eth port (number + 1) →
          c.admin = setting calls c.target)) ∧
    (∀ port, ∀ i ∈ ethAlarmIds, ethPolled (afterCalls calls) port i ↔
      setting calls (.eth port (i - alarmEthPortBase)) = .enabled) ∧
    ∀ alarmId ∈ opticalAlarmIds, ponPolled (afterCalls calls) alarmId ↔
      setting calls (.pon (alarmId - alarmPonIfBase)) = .enabled := by
  refine ⟨?_, ?_, fun port i hi => ethPolled_iff calls port hi,
    fun alarmId hid => ponPolled_iff calls hid⟩
  · rw [getState_afterCalls, Option.some.injEq]
    cases a.target with
    | onu number => simp [Target.read]
    | pon number => simp [Target.read]
    | eth port number => simp [Target.read]
  · intro c hc
    rw [getState_afterCalls, getState_afterCalls, Option.some.injEq, setting_append]
    cases ha : a.target with
    | onu number =>
      rw [ha] at hc
      simp [Target.read, hc]
    | pon number =>
      rw [ha] at hc
      simp [Target.read, hc]
    | eth port number =>
      by_cases hnext : c.target = .eth port (number + 1)
      · simp [Target.read, hnext]
      · simp only [Target.read, hnext, if_false, true_iff]
        intro port' number' heq hread
        cases heq
        exact absurd hread hnext

/-- `ALARM_ETHPORT_LOS` of port 1. -/
def losOfPort1 : AlarmRef .others :=
  ⟨0x0302, 1, by decide, by decide, .inr (.inr (by decide))⟩

/-- Loss of signal is switched off for port 1 and still reads as switched on. -/
theorem los_disabled_reads_enabled :
    ¬∀ (b : Board) (calls : List (SetCall b)) (a : AlarmRef b),
      ctcStackAlarmGetState (afterCalls calls) a.alarmId a.portNum =
        some (setting calls a.target) := by
  intro h
  have hlos := h .others [⟨losOfPort1, .disabled⟩] losOfPort1
  revert hlos
  decide

end Opconn.Oam.Alarm
