import Opconn.Lib.Runs
import Opconn.Multicast.System

/-!
# Mode changes at run time and at a restart

What groups and hosts are matched by, and what the aging timer does, is installed twice:
by `mcInitFromConfigFile` from the configuration at a start, and piecemeal by the calls
that change the configuration.  A call leaves the module as a restart would exactly when
it does not change the mode, and changes the control type only where a restart installs
the key of that type.
-/

namespace Opconn.Multicast

open Runs

/-! ### State -/

/-- The messages of the aging timer. -/
inductive AgingMsg where
  | mcHostAgingTimerSnooping
  | mcHostAgingTimerCtc
deriving DecidableEq, Repr

/-- `mcHostAgingTimerInit`: the message the recurring timer sends; it is not started in
the other modes. -/
def mcHostAgingTimerInit (mcMode : McMode) : Option AgingMsg :=
  match mcMode with
  | .snooping => some .mcHostAgingTimerSnooping
  | .ctc => some .mcHostAgingTimerCtc
  | .proxy | .stop => none

/-- The tables, the aging timer and the configuration file. -/
structure ModeState where
  tables : Tables
  mcHostAgingTimer : Option AgingMsg
  config : McConfig

/-- A start from a configuration, with any multicast VLANs. -/
def modeInit (c : McConfig) (vlans : VlanState) : ModeState where
  tables := (mcInit c vlans).tables
  mcHostAgingTimer := mcHostAgingTimerInit c.mcMode
  config := c

/-! ### Calls -/

/-- `odmMulticastSwitchSet` and what `odmMcControlBlockModeSet` writes to the
configuration. -/
def switchModeTo (board : Board) (takes : SwitchEntry → Bool) (mcMode : McMode) (s : ModeState) :
    ModeState :=
  { s with
    tables := odmMulticastSwitchSet board takes s.tables mcMode
    config :=
      if s.tables.control.mcMode = mcMode then s.config else { s.config with mcMode := mcMode } }

/-- `odmMcControlBlockCtcControlTypeSet` with its write to the configuration. -/
def switchControlTypeTo (board : Board) (takes : SwitchEntry → Bool)
    (ctcControlType : CtcControlType) (s : ModeState) : ModeState :=
  { s with
    tables := odmMcControlBlockCtcControlTypeSet board takes s.tables ctcControlType
    config :=
      if ctcControlType = s.tables.control.ctcControlType then s.config
      else { s.config with ctcControlType := ctcControlType } }

/-- `odmMcControlBlockLeaveModeSet` with its write to the configuration. -/
def switchLeaveModeTo (leaveMode : LeaveMode) (s : ModeState) : ModeState :=
  { s with
    tables := { s.tables with control := { s.tables.control with leaveMode := leaveMode } }
    config := { s.config with leaveMode := leaveMode } }

/-- The management calls that change a mode, with the numbers they are given. -/
inductive ModeCall where
  | switchSet (takes : SwitchEntry → Bool) (mode : Nat)
  | controlTypeSet (takes : SwitchEntry → Bool) (type : CtcControlType)
  | fastleaveModeSet (enable : Nat)

/-- The mode that `odmMulticastSwitchSet` is asked for. -/
def modeOfNumber : Nat → Option McMode
  | 0 => some .snooping
  | 1 => some .ctc
  | _ => none

/-- The mode that `odmMulticastFastleaveModeSet` is asked for. -/
def leaveModeOfNumber : Nat → Option LeaveMode
  | 0 => some .nonFastLeave
  | 1 => some .fast
  | _ => none

def modeStep (board : Board) (s : ModeState) : ModeCall → ModeState
  | .switchSet takes mode =>
    match modeOfNumber mode with
    | some mcMode => switchModeTo board takes mcMode s
    | none => s
  | .controlTypeSet takes type => switchControlTypeTo board takes type s
  | .fastleaveModeSet enable =>
    match leaveModeOfNumber enable with
    | some leaveMode => switchLeaveModeTo leaveMode s
    | none => s

/-! ### What is to hold -/

/-- **What is matched by and what ages is what a restart would install.** -/
structure AsRestarted (s : ModeState) : Prop where
  bitmap : s.tables.control.bitmap = (mcControlInit s.config).bitmap
  hostBitmap : s.tables.control.hostBitmap = (mcControlInit s.config).hostBitmap
  aging : s.mcHostAgingTimer = mcHostAgingTimerInit s.config.mcMode

/-- **The condition on a call.**  The mode is not changed, and the control type only in CTC
mode or to the type whose key snooping uses. -/
def keepsKeys (s : ModeState) : ModeCall → Prop
  | .switchSet _ mode => ∀ mcMode, modeOfNumber mode = some mcMode →
      s.tables.control.mcMode = mcMode
  | .controlTypeSet _ type =>
    type = s.tables.control.ctcControlType ∨ s.tables.control.mcMode = .ctc ∨ type = .gdaIpVid
  | .fastleaveModeSet _ => True

instance (s : ModeState) : (e : ModeCall) → Decidable (keepsKeys s e)
  | .switchSet _ mode =>
    decidable_of_iff (∀ mcMode ∈ modeOfNumber mode, s.tables.control.mcMode = mcMode) Iff.rfl
  | .controlTypeSet _ type =>
    inferInstanceAs (Decidable (type = s.tables.control.ctcControlType ∨
      s.tables.control.mcMode = .ctc ∨ type = .gdaIpVid))
  | .fastleaveModeSet _ => inferInstanceAs (Decidable True)

/-- The control block and the configuration agree on the modes. -/
structure Persisted (s : ModeState) : Prop where
  restarted : AsRestarted s
  mcMode : s.config.mcMode = s.tables.control.mcMode
  ctcControlType : s.config.ctcControlType = s.tables.control.ctcControlType

variable {board : Board}

theorem persisted_init (c : McConfig) (vlans : VlanState) : Persisted (modeInit c vlans) :=
  ⟨⟨rfl, rfl, rfl⟩, rfl, rfl⟩

theorem control_foldl_dalMcGroupDel (takes : SwitchEntry → Bool) (groups : List Group)
    (t : Tables) :
    (groups.foldl (fun t group => dalMcGroupDel board takes t group.toGroupKey) t).control =
      t.control := by
  induction groups generalizing t with
  | nil => rfl
  | cons group groups ih => exact ih _

/-- Clearing the entries leaves the control block as it is. -/
theorem control_entryClear (takes : SwitchEntry → Bool) (t : Tables) :
    (odmMulticastControlEntryClear board takes t).control = t.control :=
  control_foldl_dalMcGroupDel takes t.mcGroupList _

theorem control_controlTypeSet (board : Board) (takes : SwitchEntry → Bool) (t : Tables)
    {type : CtcControlType} (hne : type ≠ t.control.ctcControlType) :
    (odmMcControlBlockCtcControlTypeSet board takes t type).control =
      { t.control with ctcControlType := type, bitmap := type.bitmap } := by
  rw [odmMcControlBlockCtcControlTypeSet, if_neg hne]
  simp only [control_entryClear]

/-! ### One call -/

/-- The keys that a control type installs are those of a restart in CTC mode only, but for
one type. -/
theorem bitmap_controlTypeSet_iff (c : McConfig) (type : CtcControlType) :
    type.bitmap = (mcControlInit { c with ctcControlType := type }).bitmap ↔
      c.mcMode = .ctc ∨ type = .gdaIpVid := by
  simp only [mcControlInit]
  by_cases hmode : c.mcMode = .ctc
  · simp [hmode]
  · rw [if_neg hmode]
    constructor
    · intro heq
      apply Or.inr
      cases type with
      | gdaIpVid => rfl
      | gdaMac | gdaMacVid | gdaSaMac => cases heq
    · rintro (hctc | rfl)
      · exact absurd hctc hmode
      · rfl

/-- The timer of one mode is not that of another, of the two that can be asked for. -/
theorem mode_eq_of_aging {mode : Nat} {mcMode old : McMode} (hmode : modeOfNumber mode = some mcMode)
    (h : mcHostAgingTimerInit old = mcHostAgingTimerInit mcMode) : old = mcMode := by
  have hasked : mcMode = .snooping ∨ mcMode = .ctc := by
    unfold modeOfNumber at hmode
    split at hmode
    · exact Or.inl (Option.some.inj hmode).symm
    · exact Or.inr (Option.some.inj hmode).symm
    · cases hmode
  rcases hasked with rfl | rfl
  · revert h
    cases old <;> decide
  · revert h
    cases old <;> decide

theorem Persisted.step {s : ModeState} (h : Persisted s) {e : ModeCall} (hok : keepsKeys s e) :
    Persisted (modeStep board s e) := by
  obtain ⟨⟨hbitmap, hhost, haging⟩, hmode, htype⟩ := h
  cases e with
  | switchSet takes mode =>
    rw [modeStep]
    split
    · rename_i mcMode hasked
      have heq := hok mcMode hasked
      rw [switchModeTo, odmMulticastSwitchSet, if_pos heq, if_pos heq]
      exact ⟨⟨hbitmap, hhost, haging⟩, hmode, htype⟩
    · exact ⟨⟨hbitmap, hhost, haging⟩, hmode, htype⟩
  | controlTypeSet takes type =>
    rw [modeStep, switchControlTypeTo]
    by_cases hsame : type = s.tables.control.ctcControlType
    · rw [odmMcControlBlockCtcControlTypeSet, if_pos hsame, if_pos hsame]
      exact ⟨⟨hbitmap, hhost, haging⟩, hmode, htype⟩
    · have hkey : s.config.mcMode = .ctc ∨ type = .gdaIpVid := by
        rw [hmode]
        exact hok.resolve_left hsame
      have hcontrol := control_controlTypeSet board takes s.tables hsame
      rw [if_neg hsame]
      refine ⟨⟨?_, ?_, haging⟩, ?_, ?_⟩
      · simp only [hcontrol]
        exact (bitmap_controlTypeSet_iff s.config type).mpr hkey
      · simp only [hcontrol]
        exact hhost
      · simp only [hcontrol]
        exact hmode
      · simp only [hcontrol]
  | fastleaveModeSet enable =>
    rw [modeStep]
    cases leaveModeOfNumber enable <;>
      exact ⟨⟨hbitmap, hhost, haging⟩, hmode, htype⟩

/-- The condition is necessary: another mode keeps the old timer, another type in another
mode installs a key that a restart does not. -/
theorem keepsKeys_of_restarted {s : ModeState} (h : Persisted s) {e : ModeCall}
    (hnext : AsRestarted (modeStep board s e)) : keepsKeys s e := by
  cases e with
  | switchSet takes mode =>
    intro mcMode hasked
    by_contra hne
    rw [modeStep, hasked] at hnext
    have haging := hnext.aging
    simp only [switchModeTo, if_neg hne] at haging
    rw [h.restarted.aging, h.mcMode] at haging
    exact hne (mode_eq_of_aging hasked haging)
  | controlTypeSet takes type =>
    by_cases hsame : type = s.tables.control.ctcControlType
    · exact Or.inl hsame
    · apply Or.inr
      have hbitmap := hnext.bitmap
      simp only [modeStep, switchControlTypeTo, if_neg hsame,
        control_controlTypeSet board takes s.tables hsame] at hbitmap
      have hkey := (bitmap_controlTypeSet_iff s.config type).mp hbitmap
      rwa [h.mcMode] at hkey
  | fastleaveModeSet enable => trivial

/-! ### Runs -/

/-- **The module is in every state of a run as a restart would leave it, exactly when every
call of the run meets the condition.** -/
theorem mode_changes_as_restart (board : Board) (c : McConfig) (vlans : VlanState)
    (es : List ModeCall) :
    AllStates (modeStep board) AsRestarted (modeInit c vlans) es ↔
      AllSteps (modeStep board) keepsKeys (modeInit c vlans) es :=
  allStates_iff_allSteps (modeStep board) Persisted (fun _ hs => hs.restarted)
    (fun _ _ hs _ hok => hs.step hok) (fun _ _ hs _ hnext => keepsKeys_of_restarted hs hnext)
    (persisted_init c vlans) (H := fun _ _ => True) (AllSteps.of_forall_mem (fun _ _ _ => trivial) _)

/-- Snooping is switched to CTC control: the hosts are still told apart by their address,
and the timer still ages them. -/
theorem switched_to_ctc_keeps_snooping_keys :
    ¬AllStates (modeStep .onu1Port) AsRestarted
      (modeInit mcConfigDefault vlanInit) [.switchSet (fun _ => true) 1] := by
  intro hall
  have haging := hall.last.aging
  revert haging
  decide

end Opconn.Multicast
