import Opconn.Bridge.Vtt

/-!
# What the order of VLAN settings changes

A mode programs the chip for the default VLAN as it is then; a default VLAN that is set later
goes to the port of the chip only, and not to the translation entry.  So the settings of the
chip after any calls are told by the mode, the default VLAN, the default VLAN that the mode
was set with, and whether one was set since.
-/

namespace Opconn.Bridge

/-- A call of one of the four setters. -/
inductive VlanCall where
  | modeSet (mode : Nat)
  | vidSet (pvid : Nat)
  | tpidSet (tpid : Nat)
  | defaultPriSet (etherPri : Nat)
deriving DecidableEq

def vlanCall (s : Vtt) : VlanCall → Vtt
  | .modeSet mode => dalVttModeSet (fun _ => true) s mode
  | .vidSet pvid => dalVttVidSet s pvid
  | .tpidSet tpid => dalVttTpidSet s tpid
  | .defaultPriSet etherPri => dalVttDefaultPriSet s etherPri

/-- `dalVttInit` on a chip without rules, and then the calls, the last one first. -/
def afterVlanCalls (chip : Chip) : List VlanCall → Vtt
  | [] => dalVttModeSet (fun _ => true) ⟨.zero, { chip with clsRules := [] }⟩ 0
  | c :: calls => vlanCall (afterVlanCalls chip calls) c

/-! ### What was set last -/

/-- The mode a call sets, if it is accepted. -/
def VlanCall.mode? : VlanCall → Option VlanMode
  | .modeSet mode => VlanMode.ofNat? mode
  | _ => none

/-- The default VLAN a call sets, if it is accepted. -/
def VlanCall.vid? : VlanCall → Option Nat
  | .vidSet pvid => if 4095 < pvid ∨ pvid = 0 then none else some pvid
  | _ => none

def VlanCall.tpid? : VlanCall → Option Nat
  | .tpidSet tpid => some tpid
  | _ => none

def VlanCall.pri? : VlanCall → Option Nat
  | .defaultPriSet etherPri => some etherPri
  | _ => none

/-- The value set last, or the one from the start. -/
def lastSet {α : Type} (value? : VlanCall → Option α) (initial : α) : List VlanCall → α
  | [] => initial
  | c :: calls => (value? c).getD (lastSet value? initial calls)

abbrev lastMode : List VlanCall → VlanMode := lastSet VlanCall.mode? .transparent

abbrev lastVid : List VlanCall → Nat := lastSet VlanCall.vid? 0

/-- The calls before the mode was set. -/
def beforeMode : List VlanCall → List VlanCall
  | [] => []
  | c :: calls => if c.mode?.isSome then calls else beforeMode calls

/-- The calls since then. -/
def sinceMode : List VlanCall → List VlanCall
  | [] => []
  | c :: calls => if c.mode?.isSome then [] else c :: sinceMode calls

/-- The default VLAN that was set last in transparent mode, unless the mode was set since. -/
def ponVlan : List VlanCall → Nat
  | [] => 0xFFF
  | c :: calls =>
    if c.mode? = some .transparent then 0xFFF
    else if lastMode calls = .transparent then c.vid?.getD (ponVlan calls)
    else ponVlan calls

/-- The default VLAN is not changed in aggregation mode. -/
def VidKeptInAggregation : List VlanCall → Prop
  | [] => True
  | c :: calls => (lastMode calls = .aggregation → ∀ pvid, c.vid? = some pvid → pvid = lastVid calls) ∧
      VidKeptInAggregation calls

/-! ### What the chip is set to -/

/-- Lookup-fail action and tag filters. -/
structure Filters where
  lookupFailAction : Bool
  ponUntag : Bool
  ponTag : Bool
  geUntag : Bool
  geTag : Bool
deriving DecidableEq

def Chip.filters (c : Chip) : Filters :=
  ⟨c.lookupFailAction, c.ponUntag, c.ponTag, c.geUntag, c.geTag⟩

def modeFilters : VlanMode → Filters
  | .transparent => ⟨true, true, true, true, true⟩
  | .tag => ⟨false, false, true, true, false⟩
  | .translation | .trunk => ⟨false, false, true, true, true⟩
  | .aggregation => ⟨true, false, true, true, true⟩

/-- The translation entry of the default VLAN. -/
def pvidEntry (mode : VlanMode) (pvid : Nat) : VttEntry :=
  match mode with
  | .transparent => ⟨true, true, true, 0xFFF, 0xFFF⟩
  | .tag => ⟨true, false, true, pvid, pvid⟩
  | .translation | .trunk | .aggregation => ⟨true, false, true, 0xFFF, pvid⟩

/-- The VLAN a mode gives the subscriber port of the chip. -/
def modeGePvid (mode : VlanMode) (pvid : Nat) : Nat := if mode = .tag then pvid else 0xFFF

def aggRules (mode : VlanMode) (pvid : Nat) : List ClsParameter :=
  if mode = .aggregation then [aggVlanRule pvid, aggTagRule] else []

/-! ### One call -/

theorem clearEntries_ok (is : List Nat) (vtt : Nat → VttEntry) :
    (clearEntries (fun _ => true) is vtt).2 = true := by
  induction is generalizing vtt with
  | nil => rfl
  | cons i is ih => exact ih _

/-- Everything that a mode programs. -/
structure Programmed (s : Vtt) (mode : VlanMode) (pvid : Nat) : Prop where
  mode_eq : s.info.vlanMode = mode
  vid_eq : s.info.defaultVlanTag = pvid
  filters_eq : s.chip.filters = modeFilters mode
  entry_eq : s.chip.vtt dalPortPvidVttEntryStartNum = pvidEntry mode pvid
  gePvid_eq : s.chip.gePvid = modeGePvid mode pvid

theorem modeSet_programmed (s : Vtt) {mode : Nat} {m : VlanMode}
    (hmode : VlanMode.ofNat? mode = some m) :
    Programmed (dalVttModeSet (fun _ => true) s mode) m s.info.defaultVlanTag := by
  rw [dalVttModeSet, hmode]
  simp only [clearEntries_ok, if_true]
  cases m with
  | aggregation =>
    rw [if_pos rfl]
    refine ⟨rfl, rfl, rfl, ?_, rfl⟩
    simp [dalVttVlanAggIni, programMode, writeEntry, pvidEntry]
  | _ => exact ⟨rfl, rfl, rfl, rfl, rfl⟩

/-- What a mode leaves alone. -/
theorem modeSet_frame (s : Vtt) {mode : Nat} {m : VlanMode}
    (hmode : VlanMode.ofNat? mode = some m) :
    (dalVttModeSet (fun _ => true) s mode).chip.tpid = s.chip.tpid ∧
      (dalVttModeSet (fun _ => true) s mode).chip.geCos = s.chip.geCos ∧
      (dalVttModeSet (fun _ => true) s mode).chip.ponPvid =
        if m = .transparent then 0xFFF else s.chip.ponPvid := by
  rw [dalVttModeSet, hmode]
  simp only [clearEntries_ok, if_true]
  cases m <;> exact ⟨rfl, rfl, rfl⟩

theorem aggVlanRule_ne (pvid : Nat) : aggVlanRule pvid ≠ aggTagRule := by
  intro heq
  cases congrArg ClsParameter.bfTranActL heq

/-- The rules of the old mode are removed when they are those of the default VLAN. -/
theorem modeSet_rules {s : Vtt} {old : VlanMode}
    (hrules : s.chip.clsRules = aggRules old s.info.defaultVlanTag) {mode : Nat} {m : VlanMode}
    (hmode : VlanMode.ofNat? mode = some m) :
    (dalVttModeSet (fun _ => true) s mode).chip.clsRules = aggRules m s.info.defaultVlanTag := by
  have hgone : ((aggRules old s.info.defaultVlanTag).erase aggTagRule).erase
      (aggVlanRule s.info.defaultVlanTag) = [] := by
    rw [aggRules]
    split
    · simp [aggVlanRule_ne]
    · rfl
  have hset : ((([] : List ClsParameter).insert aggTagRule).insert
      (aggVlanRule s.info.defaultVlanTag)) = aggRules .aggregation s.info.defaultVlanTag := by
    simp [List.insert, aggRules, aggVlanRule_ne]
  rw [dalVttModeSet, hmode]
  simp only [clearEntries_ok, if_true]
  cases m with
  | aggregation =>
    show (((s.chip.clsRules.erase aggTagRule).erase (aggVlanRule s.info.defaultVlanTag)).insert
      aggTagRule).insert (aggVlanRule s.info.defaultVlanTag) = _
    rw [hrules, hgone, hset]
  | _ =>
    show (s.chip.clsRules.erase aggTagRule).erase (aggVlanRule s.info.defaultVlanTag) = _
    rw [hrules, hgone]
    rfl

/-! ### Runs -/

/-- The state after calls, by what was set last. -/
structure SetBy (chip : Chip) (calls : List VlanCall) (s : Vtt) : Prop where
  mode_eq : s.info.vlanMode = lastMode calls
  vid_eq : s.info.defaultVlanTag = lastVid calls
  filters_eq : s.chip.filters = modeFilters (lastMode calls)
  entry_eq : s.chip.vtt dalPortPvidVttEntryStartNum =
    pvidEntry (lastMode calls) (lastVid (beforeMode calls))
  gePvid_eq : s.chip.gePvid =
    lastSet VlanCall.vid? (modeGePvid (lastMode calls) (lastVid (beforeMode calls)))
      (sinceMode calls)
  ponPvid_eq : s.chip.ponPvid = ponVlan calls
  tpid_eq : s.chip.tpid = lastSet VlanCall.tpid? chip.tpid calls
  geCos_eq : s.chip.geCos =
    lastSet (fun c => c.pri?.map (· % 8)) chip.geCos calls
  tpid_reported : (∃ c ∈ sinceMode calls, c.tpid?.isSome) → s.info.defaultTpid = s.chip.tpid
  pri_reported : (∃ c ∈ sinceMode calls, c.pri?.isSome) → s.info.defaultPri % 8 = s.chip.geCos
  rules_eq : VidKeptInAggregation calls →
    s.chip.clsRules = aggRules (lastMode calls) (lastVid calls)

variable {chip : Chip}

theorem lastSet_of_none {α : Type} {value? : VlanCall → Option α} {c : VlanCall}
    (h : value? c = none) (initial : α) (calls : List VlanCall) :
    lastSet value? initial (c :: calls) = lastSet value? initial calls := by
  rw [lastSet, h, Option.getD_none]

/-- A mode call. -/
theorem SetBy.modeSet {calls : List VlanCall} {s : Vtt} (h : SetBy chip calls s) {mode : Nat}
    {m : VlanMode} (hmode : VlanMode.ofNat? mode = some m) :
    SetBy chip (.modeSet mode :: calls) (dalVttModeSet (fun _ => true) s mode) := by
  have hm : (VlanCall.modeSet mode).mode? = some m := hmode
  have hlast : lastMode (.modeSet mode :: calls) = m := by
    rw [lastMode, lastSet, hm, Option.getD_some]
  have hbefore : beforeMode (.modeSet mode :: calls) = calls := by
    rw [beforeMode, hm]
    rfl
  have hsince : sinceMode (.modeSet mode :: calls) = [] := by
    rw [sinceMode, hm]
    rfl
  have hvid : lastVid (.modeSet mode :: calls) = lastVid calls := lastSet_of_none rfl ..
  obtain ⟨hmode', hvid', hfilters, hentry, hge⟩ := modeSet_programmed s hmode
  obtain ⟨htpid, hcos, hpon⟩ := modeSet_frame s hmode
  rw [h.vid_eq] at hvid' hentry hge
  refine ⟨?_, ?_, ?_, ?_, ?_, ?_, ?_, ?_, ?_, ?_, ?_⟩
  · rw [hmode', hlast]
  · rw [hvid', hvid]
  · rw [hfilters, hlast]
  · rw [hentry, hlast, hbefore]
  · rw [hge, hlast, hbefore, hsince]
    rfl
  · rw [hpon, ponVlan, hm]
    by_cases htr : m = .transparent
    · rw [if_pos htr, if_pos (by rw [htr])]
    · have hne : some m ≠ some .transparent := by
        intro heq
        exact htr (Option.some.inj heq)
      rw [if_neg htr, if_neg hne, h.ponPvid_eq]
      split <;> rfl
  · rw [htpid, h.tpid_eq]
    exact (lastSet_of_none rfl ..).symm
  · rw [hcos, h.geCos_eq]
    exact (lastSet_of_none rfl ..).symm
  · rw [hsince]
    rintro ⟨c, hc, -⟩
    cases hc
  · rw [hsince]
    rintro ⟨c, hc, -⟩
    cases hc
  · rintro ⟨-, hkept⟩
    have hrules := h.rules_eq hkept
    rw [← h.vid_eq] at hrules
    rw [modeSet_rules hrules hmode, hlast, hvid, h.vid_eq]

/-- A call that is no mode call: the mode and what came before it stay. -/
theorem keep_mode {c : VlanCall} (hc : c.mode? = none) (calls : List VlanCall) :
    lastMode (c :: calls) = lastMode calls ∧ beforeMode (c :: calls) = beforeMode calls ∧
      sinceMode (c :: calls) = c :: sinceMode calls := by
  refine ⟨lastSet_of_none hc .., ?_, ?_⟩
  · rw [beforeMode, hc]
    rfl
  · rw [sinceMode, hc]
    rfl

/-- A call that changes nothing of the VLANs. -/
theorem keep_vid {c : VlanCall} (hc : c.vid? = none) (hm : c.mode? = none)
    (calls : List VlanCall) : ponVlan (c :: calls) = ponVlan calls ∧
      (VidKeptInAggregation (c :: calls) → VidKeptInAggregation calls) := by
  refine ⟨?_, And.right⟩
  rw [ponVlan, hm, hc, if_neg (by simp)]
  split <;> rfl

theorem SetBy.vidSet {calls : List VlanCall} {s : Vtt} (h : SetBy chip calls s) {pvid : Nat}
    (hvid : (VlanCall.vidSet pvid).vid? = some pvid) :
    SetBy chip (.vidSet pvid :: calls) (dalVttVidSet s pvid) := by
  have hok : ¬(4095 < pvid ∨ pvid = 0) := by
    intro hbad
    rw [VlanCall.vid?, if_pos hbad] at hvid
    cases hvid
  obtain ⟨hlast, hbefore, hsince⟩ := keep_mode (c := .vidSet pvid) rfl calls
  have hlastVid : lastVid (.vidSet pvid :: calls) = pvid := by
    rw [lastVid, lastSet, hvid, Option.getD_some]
  have hge : (dalVttVidSet s pvid).chip.gePvid = pvid := by
    rw [dalVttVidSet, if_neg hok]
    cases s.info.vlanMode <;> rfl
  have hpon : (dalVttVidSet s pvid).chip.ponPvid =
      if s.info.vlanMode = .transparent then pvid else s.chip.ponPvid := by
    rw [dalVttVidSet, if_neg hok]
    cases s.info.vlanMode <;> rfl
  have hframe : (dalVttVidSet s pvid).info = { s.info with defaultVlanTag := pvid } ∧
      (dalVttVidSet s pvid).chip.filters = s.chip.filters ∧
      (dalVttVidSet s pvid).chip.vtt = s.chip.vtt ∧
      (dalVttVidSet s pvid).chip.tpid = s.chip.tpid ∧
      (dalVttVidSet s pvid).chip.geCos = s.chip.geCos ∧
      (dalVttVidSet s pvid).chip.clsRules = s.chip.clsRules := by
    rw [dalVttVidSet, if_neg hok]
    cases s.info.vlanMode <;> exact ⟨rfl, rfl, rfl, rfl, rfl, rfl⟩
  obtain ⟨hinfo, hfilters, hvtt, htpid, hcos, hrules⟩ := hframe
  refine ⟨?_, ?_, ?_, ?_, ?_, ?_, ?_, ?_, ?_, ?_, ?_⟩
  · rw [hinfo, hlast]
    exact h.mode_eq
  · rw [hinfo, hlastVid]
  · rw [hfilters, hlast, h.filters_eq]
  · rw [hvtt, hlast, hbefore, h.entry_eq]
  · rw [hge, hsince, lastSet, hvid, Option.getD_some]
  · have hvlan : ponVlan (.vidSet pvid :: calls) =
        if lastMode calls = .transparent then pvid else ponVlan calls := by
      rw [ponVlan, if_neg (by rintro ⟨⟩), hvid, Option.getD_some]
    rw [hpon, hvlan, h.mode_eq, h.ponPvid_eq]
  · rw [htpid, h.tpid_eq]
    exact (lastSet_of_none rfl ..).symm
  · rw [hcos, h.geCos_eq]
    exact (lastSet_of_none rfl ..).symm
  · rw [hsince, hinfo, htpid]
    rintro ⟨c, hc, hsome⟩
    rcases List.mem_cons.mp hc with rfl | hc
    · cases hsome
    · exact h.tpid_reported ⟨c, hc, hsome⟩
  · rw [hsince, hinfo, hcos]
    rintro ⟨c, hc, hsome⟩
    rcases List.mem_cons.mp hc with rfl | hc
    · cases hsome
    · exact h.pri_reported ⟨c, hc, hsome⟩
  · rintro ⟨hsame, hkept⟩
    rw [hrules, h.rules_eq hkept, hlast, hlastVid, aggRules, aggRules]
    split
    · next hagg => rw [hsame hagg pvid hvid]
    · rfl

/-- A call that sets neither a mode nor a default VLAN. -/
theorem SetBy.keep {calls : List VlanCall} {s s' : Vtt} {c : VlanCall} (h : SetBy chip calls s)
    (hm : c.mode? = none) (hv : c.vid? = none)
    (hinfo : s'.info = { s.info with
      defaultTpid := c.tpid?.getD s.info.defaultTpid
      defaultPri := c.pri?.getD s.info.defaultPri })
    (hchip : s'.chip = { s.chip with
      tpid := c.tpid?.getD s.chip.tpid
      geCos := (c.pri?.map (· % 8)).getD s.chip.geCos }) :
    SetBy chip (c :: calls) s' := by
  obtain ⟨hlast, hbefore, hsince⟩ := keep_mode hm calls
  obtain ⟨hpon, hkept⟩ := keep_vid hv hm calls
  have hvid : lastVid (c :: calls) = lastVid calls := lastSet_of_none hv ..
  obtain ⟨info, chip'⟩ := s'
  subst hinfo hchip
  refine ⟨?_, ?_, ?_, ?_, ?_, ?_, ?_, ?_, ?_, ?_, ?_⟩
  · rw [hlast]
    exact h.mode_eq
  · rw [hvid]
    exact h.vid_eq
  · rw [hlast]
    exact h.filters_eq
  · rw [hlast, hbefore]
    exact h.entry_eq
  · rw [hlast, hbefore, hsince, lastSet_of_none hv]
    exact h.gePvid_eq
  · rw [hpon]
    exact h.ponPvid_eq
  · rw [lastSet, ← h.tpid_eq]
  · rw [lastSet, ← h.geCos_eq]
  · rw [hsince]
    rintro ⟨d, hd, hsome⟩
    cases hc : c.tpid? with
    | some tpid => rfl
    | none =>
      rcases List.mem_cons.mp hd with rfl | hd
      · rw [hc] at hsome
        cases hsome
      · exact h.tpid_reported ⟨d, hd, hsome⟩
  · rw [hsince]
    rintro ⟨d, hd, hsome⟩
    cases hc : c.pri? with
    | some etherPri => rfl
    | none =>
      rcases List.mem_cons.mp hd with rfl | hd
      · rw [hc] at hsome
        cases hsome
      · exact h.pri_reported ⟨d, hd, hsome⟩
  · intro hkeep
    rw [hlast, hvid]
    exact h.rules_eq (hkept hkeep)

/-- A call that is refused. -/
theorem SetBy.refused {calls : List VlanCall} {s : Vtt} {c : VlanCall} (h : SetBy chip calls s)
    (hm : c.mode? = none) (hv : c.vid? = none) (ht : c.tpid? = none) (hp : c.pri? = none) :
    SetBy chip (c :: calls) s := by
  apply h.keep hm hv
  · rw [ht, hp]
    rfl
  · rw [ht, hp]
    rfl

theorem SetBy.call {calls : List VlanCall} {s : Vtt} (h : SetBy chip calls s) (c : VlanCall) :
    SetBy chip (c :: calls) (vlanCall s c) := by
  cases c with
  | modeSet mode =>
    cases hmode : VlanMode.ofNat? mode with
    | some m => exact h.modeSet hmode
    | none =>
      have hsame : vlanCall s (.modeSet mode) = s := by
        rw [vlanCall, dalVttModeSet, hmode]
      rw [hsame]
      exact h.refused hmode rfl rfl rfl
  | vidSet pvid =>
    by_cases hbad : 4095 < pvid ∨ pvid = 0
    · have hsame : vlanCall s (.vidSet pvid) = s := by
        rw [vlanCall, dalVttVidSet, if_pos hbad]
      rw [hsame]
      exact h.refused rfl (if_pos hbad) rfl rfl
    · exact h.vidSet (if_neg hbad)
  | tpidSet tpid => exact h.keep rfl rfl rfl rfl
  | defaultPriSet etherPri => exact h.keep rfl rfl rfl rfl

theorem SetBy.init (chip : Chip) : SetBy chip [] (afterVlanCalls chip []) := by
  let s : Vtt := ⟨.zero, { chip with clsRules := [] }⟩
  have hzero : VlanMode.ofNat? 0 = some .transparent := rfl
  have hnone : s.chip.clsRules = aggRules .transparent s.info.defaultVlanTag := rfl
  obtain ⟨hmode, hvid, hfilters, hentry, hge⟩ := modeSet_programmed s hzero
  obtain ⟨htpid, hcos, hpon⟩ := modeSet_frame s hzero
  refine ⟨hmode, hvid, hfilters, hentry, hge, hpon, htpid, hcos, ?_, ?_, ?_⟩
  · rintro ⟨c, hc, -⟩
    cases hc
  · rintro ⟨c, hc, -⟩
    cases hc
  · intro
    exact modeSet_rules hnone hzero

theorem setBy_calls (chip : Chip) (calls : List VlanCall) :
    SetBy chip calls (afterVlanCalls chip calls) := by
  induction calls with
  | nil => exact SetBy.init chip
  | cons c calls ih => exact ih.call c

/-- What the getters report and what the chip is set to after any calls.  The values reported for
TPID and priority are those of the chip when they were set since the mode was. -/
theorem settings_after_calls (chip : Chip) (calls : List VlanCall) :
    let s := afterVlanCalls chip calls
    (dalVttModeGet s = lastMode calls ∧ dalVttVidGet s = lastVid calls) ∧
      s.chip.filters = modeFilters (dalVttModeGet s) ∧
      s.chip.vtt dalPortPvidVttEntryStartNum =
        pvidEntry (dalVttModeGet s) (lastVid (beforeMode calls)) ∧
      s.chip.gePvid =
        lastSet VlanCall.vid? (modeGePvid (dalVttModeGet s) (lastVid (beforeMode calls)))
          (sinceMode calls) ∧
      s.chip.ponPvid = ponVlan calls ∧
      s.chip.tpid = lastSet VlanCall.tpid? chip.tpid calls ∧
      s.chip.geCos = lastSet (fun c => c.pri?.map (· % 8)) chip.geCos calls ∧
      ((∃ c ∈ sinceMode calls, c.tpid?.isSome) → dalVttTpidGet s = s.chip.tpid) ∧
      ((∃ c ∈ sinceMode calls, c.pri?.isSome) → dalVttDefaultPriGet s % 8 = s.chip.geCos) ∧
      (VidKeptInAggregation calls →
        s.chip.clsRules = aggRules (dalVttModeGet s) (dalVttVidGet s)) := by
  intro s
  have h : SetBy chip calls s := setBy_calls chip calls
  have hmode : dalVttModeGet s = lastMode calls := h.mode_eq
  have hvid : dalVttVidGet s = lastVid calls := h.vid_eq
  rw [hmode, hvid]
  exact ⟨⟨rfl, rfl⟩, h.filters_eq, h.entry_eq, h.gePvid_eq, h.ponPvid_eq, h.tpid_eq, h.geCos_eq,
    h.tpid_reported, h.pri_reported, h.rules_eq⟩

/-- The getters report the same. -/
def SameReported (s s' : Vtt) : Prop :=
  dalVttModeGet s = dalVttModeGet s' ∧ dalVttVidGet s = dalVttVidGet s' ∧
    dalVttTpidGet s = dalVttTpidGet s' ∧ dalVttDefaultPriGet s = dalVttDefaultPriGet s'

/-- The chips are set the same. -/
def SameSettings (c c' : Chip) : Prop :=
  c.filters = c'.filters ∧ c.gePvid = c'.gePvid ∧ c.ponPvid = c'.ponPvid ∧
    c.vtt dalPortPvidVttEntryStartNum = c'.vtt dalPortPvidVttEntryStartNum ∧
    c.tpid = c'.tpid ∧ c.geCos = c'.geCos ∧ c.clsRules = c'.clsRules

/-- Default VLAN 100 set after translation mode goes to the port, set before it to the
translation entry. -/
theorem vid_order_matters :
    ¬∀ (chip : Chip) (calls calls' : List VlanCall),
      SameReported (afterVlanCalls chip calls) (afterVlanCalls chip calls') →
      SameSettings (afterVlanCalls chip calls).chip (afterVlanCalls chip calls').chip := by
  intro h
  let chip : Chip := ⟨fun _ => .zero, false, false, false, false, false, 0, 0, 0, 0, false, []⟩
  obtain ⟨-, hge, -⟩ := h chip [.vidSet 100, .modeSet 2] [.modeSet 2, .vidSet 100]
    ⟨rfl, rfl, rfl, rfl⟩
  cases hge

end Opconn.Bridge
