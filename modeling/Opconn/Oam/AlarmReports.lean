import Opconn.Lib.ChangeLog
import Opconn.Oam.AlarmSettings
import Mathlib.Tactic.IntervalCases

/-!
# Reports of an alarm

The poller judges an alarm by its state bit: a find that differs is reported and becomes the
bit.  Every alarm is so a log of changes of its own, whatever is polled, set or read in
between, although twenty optical alarms share a word and the four alarms of a port another.
-/

namespace Opconn.Oam.Alarm

open Runs WordBits ChangeLog

/-- An alarm that has a state bit. -/
inductive Source where
  | pon (number : Nat)
  | eth (port number : Nat)
deriving DecidableEq, Repr

/-- The bits of the state words that there are. -/
def Source.Valid (b : Board) : Source → Prop
  | .pon number => number < 32
  | .eth port number => port < b.numberOfPorts ∧ 1 ≤ number ∧ number ≤ 32

instance (b : Board) (k : Source) : Decidable (k.Valid b) :=
  match k with
  | .pon _ => inferInstanceAs (Decidable (_ < _))
  | .eth _ _ => inferInstanceAs (Decidable (_ ∧ _ ∧ _))

/-- Whether a report is about the alarm. -/
def Source.Names : Source → AlarmReport → Prop
  | .pon number, r => r.objectType = ctcObjPonIf ∧ r.alarmId = alarmPonIfBase + number
  | .eth port number, r => r.objectType = ctcObjPort ∧ r.instanceNum = portInstance port ∧
      r.alarmId = alarmEthPortBase + number

instance (k : Source) : DecidablePred k.Names :=
  match k with
  | .pon _ => fun _ => inferInstanceAs (Decidable (_ ∧ _))
  | .eth _ _ => fun _ => inferInstanceAs (Decidable (_ ∧ _ ∧ _))

/-- The states reported for an alarm, oldest first. -/
def reports (s : Alarms) (k : Source) : List AlarmState :=
  (s.sent.filter fun r => k.Names r).map (·.alarmState)

/-- The state bit of an alarm. -/
def storedState (s : Alarms) : Source → AlarmState
  | .pon number => .ofBool (s.ponState.getLsbD number)
  | .eth port number => .ofBool ((s.ethState port).getLsbD (number - 1))

/-- An alarm as a log of changes. -/
def channel (s : Alarms) (k : Source) : ChangeLog AlarmState := ⟨reports s k, storedState s k⟩

/-! ### One judgement -/

theorem AlarmState.bit_ne_get_iff (state : AlarmState) (word : BitVec 32) (i : Nat) :
    state.bit ≠ get word i ↔ state ≠ .ofBool (word.getLsbD i) := by
  rw [get_eq_flag]
  cases state <;> cases word.getLsbD i <;> decide

theorem AlarmState.bit_eq_flag (state : AlarmState) :
    state.bit = flag 32 (decide (state = .cleared)) := by
  cases state <;> rfl

@[simp] theorem AlarmState.ofBool_cleared (state : AlarmState) :
    AlarmState.ofBool (decide (state = .cleared)) = state := by
  cases state <;> rfl

theorem portInstance_port {b : Board} {port : Nat} (h : port < b.numberOfPorts) :
    (portInstance port).toNat % 256 - 1 = port := by
  have hlt : port < 4 := by
    cases b <;> simp only [Board.numberOfPorts] at h <;> omega
  interval_cases port <;> rfl

theorem portInstance_inj {b : Board} {port port' : Nat} (h : port < b.numberOfPorts)
    (h' : port' < b.numberOfPorts) : portInstance port = portInstance port' ↔ port = port' := by
  constructor
  · intro heq
    rw [← portInstance_port h, ← portInstance_port h', heq]
  · rintro rfl
    rfl

/-- A report that goes out with its bit written is a judgement of its own alarm and of no
other. -/
theorem channel_reported {s s' : Alarms} {info : AlarmReport} {k₀ k : Source}
    (hsent : s'.sent = (oamAlarm s info).sent) (hnames : k.Names info ↔ k = k₀)
    (hstored : storedState s' k = if k = k₀ then info.alarmState else storedState s k)
    (hne : info.alarmState ≠ storedState s k₀) :
    channel s' k = if k = k₀ then (channel s k).judge info.alarmState else channel s k := by
  have hreports : reports s' k = if k = k₀ then reports s k ++ [info.alarmState]
      else reports s k := by
    simp only [reports, hsent, oamAlarm, List.filter_append, List.map_append]
    split
    · next h => simp [hnames.mpr h]
    · next h => simp [mt hnames.mp h]
  rw [channel, hreports, hstored]
  split
  · next h =>
    subst h
    rw [judge, if_pos (by exact hne)]
    rfl
  · rfl

/-- A find that is the bit already is no judgement. -/
theorem channel_same {s : Alarms} {state : AlarmState} {k₀ : Source} (k : Source)
    (heq : state = storedState s k₀) :
    channel s k = if k = k₀ then (channel s k).judge state else channel s k := by
  split
  · next h =>
    subst h
    rw [judge, if_neg]
    exact not_not.mpr heq
  · rfl

/-! ### The two state words -/

theorem names_pon_iff (k : Source) (number : Nat) (state : AlarmState)
    (value : Option (BitVec 32)) :
    k.Names ⟨ctcObjPonIf, 0, alarmPonIfBase + number, state, value⟩ ↔ k = .pon number := by
  cases k with
  | pon n => simp [Source.Names, eq_comm]
  | eth port n => simp [Source.Names, ctcObjPonIf, ctcObjPort]

theorem storedState_ponConfig (s : Alarms) {number : Nat} (hn : number < 32)
    (state : AlarmState) (sent : List AlarmReport) (k : Source) :
    storedState { s with ponState := config s.ponState number state.bit, sent := sent } k =
      if k = .pon number then state else storedState s k := by
  cases k with
  | pon n =>
    rw [storedState, state.bit_eq_flag, getLsbD_config _ hn, storedState]
    by_cases heq : n = number <;> simp [heq]
  | eth port n => simp [storedState]

theorem names_eth_iff {b : Board} {k : Source} (hk : k.Valid b) {port : Nat}
    (hport : port < b.numberOfPorts) (number : Nat) (state : AlarmState) :
    k.Names ⟨ctcObjPort, portInstance port, alarmEthPortBase + number, state, none⟩ ↔
      k = .eth port number := by
  cases k with
  | pon n => simp [Source.Names, ctcObjPonIf, ctcObjPort]
  | eth port' n =>
    simp only [Source.Names, true_and, portInstance_inj hport hk.1, Nat.add_left_cancel_iff,
      Source.eth.injEq, eq_comm]

theorem storedState_ethConfig {b : Board} (s : Alarms) {port number : Nat}
    (hk₀ : (Source.eth port number).Valid b) (state : AlarmState) (sent : List AlarmReport)
    {k : Source} (hk : k.Valid b) :
    storedState { s with
        ethState := Function.update s.ethState port
          (config (s.ethState port) (number - 1) state.bit)
        sent := sent } k =
      if k = .eth port number then state else storedState s k := by
  obtain ⟨-, hpos, hle⟩ := hk₀
  cases k with
  | pon n => simp [storedState]
  | eth port' n =>
    obtain ⟨-, hpos', -⟩ := hk
    simp only [storedState, Source.eth.injEq]
    by_cases hports : port' = port
    · subst hports
      have hbit : n - 1 = number - 1 ↔ n = number := by omega
      rw [Function.update_self, state.bit_eq_flag, getLsbD_config _ (by omega)]
      by_cases heq : n = number <;> simp [hbit, heq]
    · rw [Function.update_of_ne hports, if_neg]
      rintro ⟨h, -⟩
      exact hports h

theorem channel_ponJudge (s : Alarms) {number : Nat} (hn : number < 32) (state : AlarmState)
    (value : Option (BitVec 32)) (k : Source) :
    channel (ponJudgeAndAlarm s ⟨ctcObjPonIf, 0, alarmPonIfBase + number, state, value⟩) k =
      if k = .pon number then (channel s k).judge state else channel s k := by
  have htype : (alarmPonIfBase + number) % 256 = number := by
    simp only [alarmPonIfBase]
    omega
  rw [ponJudgeAndAlarm]
  simp only [htype, state.bit_ne_get_iff]
  split
  · next hne =>
    refine channel_reported ?_ (names_pon_iff k number state value) ?_ hne
    · rfl
    · exact storedState_ponConfig s hn state _ k
  · next heq => exact channel_same k (not_not.mp heq)

theorem channel_ethJudge {b : Board} (s : Alarms) {port number : Nat}
    (hk₀ : (Source.eth port number).Valid b) (state : AlarmState) {k : Source} (hk : k.Valid b) :
    channel (ethJudgeAndAlarm s
        ⟨ctcObjPort, portInstance port, alarmEthPortBase + number, state, none⟩) k =
      if k = .eth port number then (channel s k).judge state else channel s k := by
  have htype : (alarmEthPortBase + number) % 256 = number := by
    have hle := hk₀.2.2
    simp only [alarmEthPortBase]
    omega
  rw [ethJudgeAndAlarm]
  simp only [htype, portInstance_port hk₀.1, state.bit_ne_get_iff]
  split
  · next hne =>
    refine channel_reported ?_ (names_eth_iff hk hk₀.1 number state) ?_ hne
    · rfl
    · exact storedState_ethConfig s hk₀ state _ hk
  · next heq => exact channel_same k (not_not.mp heq)

/-! ### Polls -/

theorem channel_portAlarm {b : Board} {port : Nat} (hport : port < b.numberOfPorts)
    (r : PortReading) (s : Alarms) {i : Nat} (hi : i ∈ ethAlarmIds) {k : Source}
    (hk : k.Valid b) : Judged (channel s k) (channel (portAlarm port r s i) k) := by
  obtain ⟨hle, hlt⟩ := List.mem_range'_1.mp hi
  simp only [alarmEthportAutoneg, alarmEthportLdp] at hle hlt
  obtain ⟨number, rfl⟩ : ∃ number, i = alarmEthPortBase + number :=
    ⟨i - alarmEthPortBase, by simp only [alarmEthPortBase]; omega⟩
  simp only [alarmEthPortBase] at hle hlt
  rw [portAlarm]
  split
  · split
    · next state _ =>
      rw [channel_ethJudge s ⟨hport, by omega, by omega⟩ state hk]
      split
      · exact .of_judge ..
      · exact .refl _
    · exact .refl _
  · exact .refl _

/-- A round of the optical loop judges its own alarm, when it is polled and the value is
outside of the band. -/
theorem channel_opticalRound (r : OpticalReading) (s : Alarms) {number : Nat} (hn : number < 32)
    (k : Source) :
    channel (opticalRound r s (alarmPonIfBase + number)) k =
      if k = .pon number ∧ ponPolled s (alarmPonIfBase + number) then
        ((opticalState (alarmPonIfBase + number) (localValue r (alarmPonIfBase + number))
          (s.opticalThr (alarmPonIfBase + number - alarmRxPowerHigh))).elim (channel s k)
            (channel s k).judge)
      else channel s k := by
  rw [opticalRound]
  by_cases hpolled : ponPolled s (alarmPonIfBase + number)
  · rw [if_pos hpolled]
    simp only [hpolled, and_true]
    cases opticalState (alarmPonIfBase + number) (localValue r (alarmPonIfBase + number))
        (s.opticalThr (alarmPonIfBase + number - alarmRxPowerHigh)) with
    | none => simp
    | some state => exact channel_ponJudge s hn state _ k
  · simp [hpolled]

theorem mem_opticalAlarmIds {alarmId : Nat} (h : alarmId ∈ opticalAlarmIds) :
    ∃ number < 32, alarmId = alarmPonIfBase + number := by
  obtain ⟨hle, hlt⟩ := List.mem_range'_1.mp h
  simp only [alarmRxPowerHigh, warningTempLow] at hle hlt
  refine ⟨alarmId - alarmPonIfBase, ?_, ?_⟩ <;> simp only [alarmPonIfBase] <;> omega

theorem channel_portAlarmReport (b : Board) (readings : Nat → PortReading) (s : Alarms)
    {k : Source} (hk : k.Valid b) :
    Judged (channel s k) (channel (portAlarmReport b readings s) k) := by
  refine Judged.foldl (channel · k) ?_ s
  intro s port hport
  have hloop : Judged (channel s k)
      (channel (ethAlarmIds.foldl (portAlarm port (readings port)) s) k) := by
    refine Judged.foldl (channel · k) ?_ s
    intro s i hi
    exact channel_portAlarm (List.mem_range.mp hport) (readings port) s hi hk
  cases k with
  | pon number => exact hloop
  | eth port' number => exact hloop

theorem channel_ponAlarmReport (r : OpticalReading) (s : Alarms) (k : Source) :
    Judged (channel s k) (channel (ponAlarmReport r s) k) := by
  refine Judged.foldl (channel · k) ?_ s
  intro s alarmId hid
  obtain ⟨number, hn, rfl⟩ := mem_opticalAlarmIds hid
  rw [channel_opticalRound r s hn k]
  split
  · cases opticalState (alarmPonIfBase + number) (localValue r (alarmPonIfBase + number))
        (s.opticalThr (alarmPonIfBase + number - alarmRxPowerHigh)) with
    | none => exact .refl _
    | some state => exact .of_judge ..
  · exact .refl _

/-- Between the clear and the set threshold of an alarm. -/
def InBand (alarmId : Nat) (value : BitVec 32) (thr : AlarmThr) : Prop :=
  if alarmId % 2 = 1 then thr.clearAlarmThreshold ≤ value ∧ value < thr.setAlarmThreshold
  else thr.setAlarmThreshold < value ∧ value ≤ thr.clearAlarmThreshold

theorem opticalState_inBand {alarmId : Nat} {value : BitVec 32} {thr : AlarmThr}
    (h : InBand alarmId value thr) : opticalState alarmId value thr = none := by
  rw [InBand] at h
  rw [opticalState]
  split
  · next hhigh =>
    rw [if_pos hhigh] at h
    rw [if_neg (BitVec.not_le.mpr h.2), if_neg (BitVec.not_lt.mpr h.1)]
  · next hlow =>
    rw [if_neg hlow] at h
    rw [if_neg (BitVec.not_le.mpr h.1), if_neg (BitVec.not_lt.mpr h.2)]

theorem opticalThr_opticalRound (r : OpticalReading) (s : Alarms) (alarmId : Nat) :
    (opticalRound r s alarmId).opticalThr = s.opticalThr := by
  rw [opticalRound]
  split
  · dsimp only
    split
    · rw [ponJudgeAndAlarm]
      split <;> rfl
    · rfl
  · rfl

/-- A value in the band leaves its alarm alone. -/
theorem channel_of_inBand {r : OpticalReading} {s : Alarms} {number : Nat}
    (hband : InBand (alarmPonIfBase + number) (localValue r (alarmPonIfBase + number))
      (s.opticalThr (alarmPonIfBase + number - alarmRxPowerHigh))) :
    channel (ponAlarmReport r s) (.pon number) = channel s (.pon number) := by
  suffices hloop : ∀ ids : List Nat, (∀ alarmId ∈ ids, alarmId ∈ opticalAlarmIds) → ∀ s' : Alarms,
      s'.opticalThr = s.opticalThr → channel s' (.pon number) = channel s (.pon number) →
      channel (ids.foldl (opticalRound r) s') (.pon number) = channel s (.pon number) by
    exact hloop opticalAlarmIds (fun _ h => h) s rfl rfl
  intro ids
  induction ids with
  | nil => exact fun _ s' _ hsame => hsame
  | cons alarmId ids ih =>
    intro hids s' hthr hsame
    rw [List.foldl_cons]
    apply ih
    · intro alarmId' hid'
      exact hids alarmId' (List.mem_cons_of_mem _ hid')
    · rw [opticalThr_opticalRound, hthr]
    · obtain ⟨n, hn, rfl⟩ := mem_opticalAlarmIds (hids alarmId (List.mem_cons_self ..))
      rw [channel_opticalRound r s' hn, hsame]
      split
      · next h =>
        obtain ⟨hkey, -⟩ := h
        cases hkey
        rw [hthr, opticalState_inBand hband]
        rfl
      · rfl

/-! ### Runs -/

/-- What happens to the alarms. -/
inductive Event (b : Board) where
  | portPoll (readings : Nat → PortReading)
  | ponPoll (readings : OpticalReading)
  | setThr (alarmId : BitVec 16) (risingThr fallingThr : BitVec 32)
  | setState (call : SetCall b)

def step {b : Board} (s : Alarms) : Event b → Alarms
  | .portPoll readings => portAlarmReport b readings s
  | .ponPoll readings => ponAlarmReport readings s
  | .setThr alarmId risingThr fallingThr => ctcStackAlarmSetThr s alarmId risingThr fallingThr
  | .setState call => setStep s call

theorem channel_setThr (s : Alarms) (alarmId : BitVec 16) (risingThr fallingThr : BitVec 32)
    (k : Source) : channel (ctcStackAlarmSetThr s alarmId risingThr fallingThr) k = channel s k := by
  rw [ctcStackAlarmSetThr]
  split
  · cases k <;> rfl
  · rfl

theorem channel_setStep {b : Board} (s : Alarms) (c : SetCall b) (k : Source) :
    channel (setStep s c) k = channel s k := by
  rw [setStep, ctcStackAlarmSetState]
  split
  · cases k <;> rfl
  · split
    · cases k <;> rfl
    · split
      · cases k <;> rfl
      · rfl

/-- Whatever happens is a number of judgements of an alarm. -/
theorem channel_step {b : Board} (s : Alarms) (e : Event b) {k : Source} (hk : k.Valid b) :
    Judged (channel s k) (channel (step s e) k) := by
  cases e with
  | portPoll readings => exact channel_portAlarmReport b readings s hk
  | ponPoll readings => exact channel_ponAlarmReport readings s k
  | setThr alarmId risingThr fallingThr =>
    rw [step, channel_setThr]
    exact .refl _
  | setState call =>
    rw [step, channel_setStep]
    exact .refl _

theorem channel_start {b : Board} {k : Source} (hk : k.Valid b) :
    channel .start k = ⟨[], .cleared⟩ := by
  have hones : ∀ i < 32, (0xffffffff : BitVec 32).getLsbD i = true := by decide
  cases k with
  | pon number =>
    show (⟨[], .ofBool ((0xffffffff : BitVec 32).getLsbD number)⟩ : ChangeLog AlarmState) = _
    rw [hones number hk]
    rfl
  | eth port number =>
    obtain ⟨-, hpos, hle⟩ := hk
    show (⟨[], .ofBool ((0xffffffff : BitVec 32).getLsbD (number - 1))⟩ :
      ChangeLog AlarmState) = _
    rw [hones (number - 1) (by omega)]
    rfl

theorem channel_run_faithful {b : Board} (events : List (Event b)) {k : Source}
    (hk : k.Valid b) : Faithful .cleared (channel (run step .start events) k) := by
  have hstart : Faithful .cleared (channel .start k) := by
    rw [channel_start hk]
    exact faithful_start _
  refine Judged.faithful (Judged.foldl (channel · k) ?_ .start) hstart
  intro s e _
  exact channel_step s e hk

/-- **Reports.**  After any polls, threshold changes and enable changes the reports of an
alarm alternate and begin with a raised one, and its bit is the state last reported.  A value
in the band causes no report and leaves the bit, and the bit of an alarm changes only in a
step that reports this alarm. -/
theorem reports_alternate (b : Board) (events : List (Event b)) (k : Source) (hk : k.Valid b) :
    let s := run step .start events
    (reports s k).IsChain (· ≠ ·) ∧
    (∀ state, (reports s k).head? = some state → state = .raised) ∧
    storedState s k = (reports s k).getLast?.getD .cleared ∧
    (∀ (r : OpticalReading) (number : Nat), k = .pon number →
      InBand (alarmPonIfBase + number) (localValue r (alarmPonIfBase + number))
        (s.opticalThr (alarmPonIfBase + number - alarmRxPowerHigh)) →
      reports (ponAlarmReport r s) k = reports s k ∧
        storedState (ponAlarmReport r s) k = storedState s k) ∧
    ∀ e : Event b, storedState (step s e) k ≠ storedState s k →
      (reports s k).length < (reports (step s e) k).length := by
  intro s
  have h : Faithful .cleared (channel s k) := channel_run_faithful events hk
  refine ⟨h.chain.tail, ?_, h.last_eq, ?_, ?_⟩
  · intro state hhead
    have hne := List.IsChain.rel_head? h.chain hhead
    cases state with
    | raised => rfl
    | cleared => exact absurd rfl hne
  · rintro r number rfl hband
    have hsame := channel_of_inBand hband
    exact ⟨congrArg ChangeLog.sent hsame, congrArg ChangeLog.last hsame⟩
  · intro e hne
    rcases (channel_step s e hk).eq_or_lt with heq | hlt
    · exact absurd (congrArg ChangeLog.last heq) hne
    · exact hlt

/-- A poll that finds every link in the same state. -/
def linksAre (up : Bool) : Event .others :=
  .portPoll fun _ => ⟨some up, some 1, none, some up, false, false⟩

/-- Port 1 loses its signal for two polls and gets it back. -/
theorem los_of_port1_reported :
    reports (run step .start [linksAre false, linksAre false, linksAre true]) (.eth 0 2) =
        [.raised, .cleared] ∧
      (reports (run step .start [linksAre false, linksAre false, linksAre true])
        (.eth 0 2)).IsChain (· ≠ ·) :=
  ⟨by decide +kernel, (reports_alternate .others
    [linksAre false, linksAre false, linksAre true] (.eth 0 2) (by decide)).1⟩

end Opconn.Oam.Alarm
