import Opconn.Multicast.LeaveDescriptors
import Opconn.Multicast.LeaveTargets

/-!
# Who takes a leave flag down

`isNonFastLeaveTimerStart` says that a leave is under way, and a leave that finds it set
is ignored.  Only a message of the leave takes it down again.  The flag is set before the
descriptor and the timer are there, and a counter that is past its limit ends the leave
without touching it; when neither happens, every flag that is set has a running timer
whose messages take it down.
-/

namespace Opconn.Multicast

open FirstMatch Runs

variable {board : Board}

/-- What the leave looks for is gone, or its flag is down. -/
def flagDown (kind : LeaveKind) (t : Tables) (desc : PacketDesc) : Bool :=
  (leaveTarget kind t desc).all fun target => !target.isNonFastLeaveTimerStart

/-- **The condition on a step.**  A leave that is opened gets its descriptor and a timer of
the pool, for at least a tick; a message finds its descriptor on the heap, and while the
flag is up its counter is not past the limit. -/
def leaveServed (board : Board) (s : McState) : McEvent → Bool
  | .packet env desc =>
    !opensLeave board desc s || (env.leaveDesc && env.leaveTimer &&
      decide (Vos.timerGranularity ≤ s.tables.control.lastQueryInterval))
  | .handle _ =>
    match s.queue with
    | [] => true
    | (kind, d) :: _ =>
      match s.descs d with
      | none => false
      | some ld => flagDown kind s.tables ld.desc || decide (nextCount s kind ≤ queryLimit s)
  | _ => true

/-- The descriptor is on the heap and its timer is running. -/
structure RunningLeave (s : McState) (kind : LeaveKind) (d : Nat) (ld : LeaveDesc) : Prop where
  live : s.descs d = some ld
  kind : ld.kind = kind
  timer : ld.timer = true
  due : Vos.timerGranularity ≤ ld.interval

/-- **The flag comes down**: in any continuation in which enough messages of the descriptor
are handled, for the queries and for the leaves that share the counter, there is a moment
at which the host or group is gone or its flag is down. -/
def FlagComesDown (board : Board) (s : McState) (d : Nat) (ld : LeaveDesc) : Prop :=
  ∀ (es : List McEvent) (M : Nat),
    AllSteps (mcStep board) (fun s e => leaveServed board s e = true) s es →
    AllStates (mcStep board) (fun s => s.tables.control.lastQueryCount ≤ M) s es →
    M * ((run (mcStep board) s es).next - s.freed.length + 1) <
      countSteps (mcStep board) (handlesMessageOf d) s es →
    ∃ es₁ es₂, es = es₁ ++ es₂ ∧
      flagDown ld.kind (run (mcStep board) s es₁).tables ld.desc = true

/-- **What is to hold of the flags**: each that is set, of a host or of a group, has a
running leave that looks for this host or group and takes its flag down. -/
structure FlagsServed (board : Board) (s : McState) : Prop where
  hosts : ∀ g ∈ s.tables.mcGroupList, ∀ h ∈ g.hostList, h.isNonFastLeaveTimerStart = true →
    ∃ d ld, RunningLeave s .snooping d ld ∧
      groupMatches s.tables.control.bitmap ld.desc.groupKey g = true ∧
      hostMatches s.tables.control.hostBitmap ld.desc.hostKey h = true ∧ FlagComesDown board s d ld
  groups : ∀ g ∈ s.tables.mcGroupList, g.isNonFastLeaveTimerStart = true →
    ∃ d ld, RunningLeave s .ctc d ld ∧
      groupMatches s.tables.control.bitmap ld.desc.groupKey g = true ∧ FlagComesDown board s d ld

/-! ### The invariant -/

/-- The leave of `d` looks for this host. -/
def HostLeave (s : McState) (g : Group) (h : Host) (d : Nat) (ld : LeaveDesc) : Prop :=
  RunningLeave s .snooping d ld ∧
    groupMatches s.tables.control.bitmap ld.desc.groupKey g = true ∧
    hostMatches s.tables.control.hostBitmap ld.desc.hostKey h = true

/-- The leave of `d` looks for this group. -/
def GroupLeave (s : McState) (g : Group) (d : Nat) (ld : LeaveDesc) : Prop :=
  RunningLeave s .ctc d ld ∧ groupMatches s.tables.control.bitmap ld.desc.groupKey g = true

structure Served (s : McState) : Prop where
  keyed : Keyed s.tables
  hostless : s.tables.control.mcMode ≠ .snooping → Hostless s.tables
  groupless : s.tables.control.mcMode ≠ .ctc →
    ∀ g ∈ s.tables.mcGroupList, g.isNonFastLeaveTimerStart = false
  hosts : ∀ g ∈ s.tables.mcGroupList, ∀ h ∈ g.hostList, h.isNonFastLeaveTimerStart = true →
    ∃ d ld, HostLeave s g h d ld
  groups : ∀ g ∈ s.tables.mcGroupList, g.isNonFastLeaveTimerStart = true →
    ∃ d ld, GroupLeave s g d ld

theorem served_of_nil {s : McState} (h : s.tables.mcGroupList = []) : Served s where
  keyed := keyed_of_nil h
  hostless := by
    intro _ g hg
    rw [h] at hg
    cases hg
  groupless := by
    intro _ g hg
    rw [h] at hg
    cases hg
  hosts := by
    intro g hg
    rw [h] at hg
    cases hg
  groups := by
    intro g hg
    rw [h] at hg
    cases hg

/-- Tables that evolved need no leave that was not there before. -/
theorem Served.evolves {s s' : McState} (h : Served s) (hev : Evolves s'.tables s.tables)
    (hdescs : ∀ d ld, s.descs d = some ld → s'.descs d = some ld) : Served s' where
  keyed := hev.keyed h.keyed
  hostless := by
    intro hmode
    rw [hev.mcMode] at hmode
    exact hev.hostless hmode (h.hostless hmode)
  groupless := by
    intro hmode g' hg'
    rw [← Bool.not_eq_true]
    intro hflag
    obtain ⟨g, hg, hset, -⟩ := hev.groupFlags g' hg' hflag
    rw [h.groupless (hev.mcMode ▸ hmode) g hg] at hset
    cases hset
  hosts := by
    intro g' hg' h' hh' hflag
    obtain ⟨g, hg, host, hhost, hset, hgroup, hsame⟩ := hev.hostFlags g' hg' h' hh' hflag
    obtain ⟨d, ld, hleave, hmatch, hmatch'⟩ := h.hosts g hg host hhost hset
    refine ⟨d, ld, ⟨hdescs d ld hleave.live, hleave.kind, hleave.timer, hleave.due⟩, ?_, ?_⟩
    · rw [hev.bitmap, hgroup.matches_eq]
      exact hmatch
    · rw [hev.hostBitmap, hsame.matches_eq]
      exact hmatch'
  groups := by
    intro g' hg' hflag
    obtain ⟨g, hg, hset, hgroup⟩ := hev.groupFlags g' hg' hflag
    obtain ⟨d, ld, hleave, hmatch⟩ := h.groups g hg hset
    refine ⟨d, ld, ⟨hdescs d ld hleave.live, hleave.kind, hleave.timer, hleave.due⟩, ?_⟩
    rw [hev.bitmap, hgroup.matches_eq]
    exact hmatch

/-- A flag that is up is seen by the leave that looks for its host. -/
theorem HostLeave.flag_up {s : McState} {g : Group} {h : Host} {d : Nat} {ld : LeaveDesc}
    (hleave : HostLeave s g h d ld) (hkeyed : Keyed s.tables) (hg : g ∈ s.tables.mcGroupList)
    (hh : h ∈ g.hostList) (hflag : h.isNonFastLeaveTimerStart = true) :
    flagDown .snooping s.tables ld.desc = false := by
  have htarget := leaveTarget_of_mem_host hkeyed hg hh hleave.2.1 hleave.2.2
  simp [flagDown, htarget, Host.target, hflag]

theorem GroupLeave.flag_up {s : McState} {g : Group} {d : Nat} {ld : LeaveDesc}
    (hleave : GroupLeave s g d ld) (hkeyed : Keyed s.tables) (hg : g ∈ s.tables.mcGroupList)
    (hflag : g.isNonFastLeaveTimerStart = true) : flagDown .ctc s.tables ld.desc = false := by
  have htarget := leaveTarget_of_mem_group hkeyed hg hleave.2
  simp [flagDown, htarget, Group.target, hflag]

/-! ### Opening a leave -/

/-- The host that is found is the only one that may be flagged anew. -/
theorem hostFlags_targetModify {t : Tables} {desc : PacketDesc} {f : LeaveTarget → LeaveTarget}
    {g' : Group} {h' : Host} (hg' : g' ∈ (targetModify .snooping t desc f).mcGroupList)
    (hh' : h' ∈ g'.hostList) :
    (∃ g ∈ t.mcGroupList, h' ∈ g.hostList ∧ g'.toGroupKey = g.toGroupKey) ∨
      (groupMatches t.control.bitmap desc.groupKey g' = true ∧
        hostMatches t.control.hostBitmap desc.hostKey h' = true) := by
  rcases mem_updateFirst hg' with hold | ⟨g, hfound, rfl⟩
  · exact Or.inl ⟨g', hold, hh', rfl⟩
  · rcases mem_updateFirst hh' with hold | ⟨h, hfound', rfl⟩
    · exact Or.inl ⟨g, List.mem_of_find?_eq_some hfound, hold, rfl⟩
    · have hgroup : groupMatches t.control.bitmap desc.groupKey g = true := List.find?_some hfound
      have hhost : hostMatches t.control.hostBitmap desc.hostKey h = true := List.find?_some hfound'
      exact Or.inr ⟨hgroup, hhost⟩

theorem groupFlags_targetModify {t : Tables} {desc : PacketDesc} {f : LeaveTarget → LeaveTarget}
    {g' : Group} (hg' : g' ∈ (targetModify .ctc t desc f).mcGroupList) :
    g' ∈ t.mcGroupList ∨ groupMatches t.control.bitmap desc.groupKey g' = true := by
  rcases mem_updateFirst hg' with hold | ⟨g, hfound, rfl⟩
  · exact Or.inl hold
  · have hgroup : groupMatches t.control.bitmap desc.groupKey g = true := List.find?_some hfound
    exact Or.inr hgroup

theorem RunningLeave.of_descs {s s' : McState} {kind : LeaveKind} {d : Nat} {ld : LeaveDesc}
    (h : RunningLeave s kind d ld) (hdescs : ∀ d ld, s.descs d = some ld → s'.descs d = some ld) :
    RunningLeave s' kind d ld := ⟨hdescs d ld h.live, h.kind, h.timer, h.due⟩

/-- The flag of a host is set for a running leave. -/
theorem Served.flag_host {s s' : McState} (h : Served s)
    (hmode : s.tables.control.mcMode = .snooping) (desc : PacketDesc)
    (f : LeaveTarget → LeaveTarget) (htables : s'.tables = targetModify .snooping s.tables desc f)
    (hdescs : ∀ d ld, s.descs d = some ld → s'.descs d = some ld) {d : Nat} {ld : LeaveDesc}
    (hleave : RunningLeave s' .snooping d ld) (hdesc : ld.desc = desc) : Served s' := by
  have hflags : ∀ g' ∈ s'.tables.mcGroupList, g'.isNonFastLeaveTimerStart = false := by
    have hnone := h.groupless (by rw [hmode]; decide)
    rw [htables]
    apply forall_mem_updateFirst hnone
    intro g hg
    exact hg
  refine ⟨?_, ?_, ?_, ?_, ?_⟩
  · rw [htables]
    exact keyed_targetModify h.keyed ..
  · intro hother
    rw [htables] at hother
    exact absurd hmode hother
  · intro _
    exact hflags
  · intro g' hg' h' hh' hflag
    rw [htables] at hg'
    rcases hostFlags_targetModify hg' hh' with ⟨g, hg, hold, hkey⟩ | ⟨hgroup, hhost⟩
    · obtain ⟨d₀, ld₀, hleave₀, hmatch, hmatch'⟩ := h.hosts g hg h' hold hflag
      refine ⟨d₀, ld₀, hleave₀.of_descs hdescs, ?_, ?_⟩
      · rw [htables, (SameGroup.of_eq hkey).matches_eq]
        exact hmatch
      · rw [htables]
        exact hmatch'
    · refine ⟨d, ld, hleave, ?_, ?_⟩
      · rw [htables, hdesc]
        exact hgroup
      · rw [htables, hdesc]
        exact hhost
  · intro g' hg' hflag
    rw [hflags g' hg'] at hflag
    cases hflag

/-- The flag of a group is set for a running leave. -/
theorem Served.flag_group {s s' : McState} (h : Served s)
    (hmode : s.tables.control.mcMode = .ctc) (desc : PacketDesc)
    (f : LeaveTarget → LeaveTarget) (htables : s'.tables = targetModify .ctc s.tables desc f)
    (hdescs : ∀ d ld, s.descs d = some ld → s'.descs d = some ld) {d : Nat} {ld : LeaveDesc}
    (hleave : RunningLeave s' .ctc d ld) (hdesc : ld.desc = desc) : Served s' := by
  have hless : Hostless s'.tables := by
    rw [htables]
    exact hostless_targetModify (h.hostless (by rw [hmode]; decide)) _ _ _
  refine ⟨?_, ?_, ?_, ?_, ?_⟩
  · rw [htables]
    exact keyed_targetModify h.keyed ..
  · intro _
    exact hless
  · intro hother
    rw [htables] at hother
    exact absurd hmode hother
  · intro g' hg' h' hh' _
    rw [hless g' hg'] at hh'
    cases hh'
  · intro g' hg' hflag
    rw [htables] at hg'
    rcases groupFlags_targetModify hg' with hold | hgroup
    · obtain ⟨d₀, ld₀, hleave₀, hmatch⟩ := h.groups g' hold hflag
      refine ⟨d₀, ld₀, hleave₀.of_descs hdescs, ?_⟩
      rw [htables]
      exact hmatch
    · refine ⟨d, ld, hleave, ?_⟩
      rw [htables, hdesc]
      exact hgroup

theorem Served.opening {s : McState} (h : Served s) (haccounted : Accounted s) {env : Env}
    {kind : LeaveKind} {desc : PacketDesc}
    (hkind : s.tables.control.mcMode.leaveKind = some kind) (hdesc : env.leaveDesc = true)
    (htimer : env.leaveTimer = true)
    (hdue : Vos.timerGranularity ≤ s.tables.control.lastQueryInterval) :
    Served (openLeave env kind desc s) := by
  have hdescs : ∀ d ld, s.descs d = some ld → Function.update s.descs s.next
      (some ⟨kind, desc, s.tables.control.lastQueryInterval, env.leaveTimer⟩) d = some ld := by
    intro d ld hld
    rwa [Function.update_of_ne (ne_of_lt (haccounted.live_lt d ld hld))]
  -- the state in between, with the flag set and the report flag as it was
  have hflagged : Served { s with
      tables := targetModify kind s.tables desc fun target =>
        { target with isNonFastLeaveTimerStart := true }
      descs := Function.update s.descs s.next
        (some ⟨kind, desc, s.tables.control.lastQueryInterval, env.leaveTimer⟩)
      next := s.next + 1
      marks := .opened s.next :: s.marks } := by
    rcases mcMode_of_leaveKind hkind with ⟨rfl, hmode⟩ | ⟨rfl, hmode⟩
    · exact h.flag_host hmode desc
        (fun target => { target with isNonFastLeaveTimerStart := true }) rfl hdescs
        ⟨Function.update_self .., rfl, htimer, hdue⟩ rfl
    · exact h.flag_group hmode desc
        (fun target => { target with isNonFastLeaveTimerStart := true }) rfl hdescs
        ⟨Function.update_self .., rfl, htimer, hdue⟩ rfl
  unfold openLeave
  simp only [hdesc, if_true]
  have hclear : ∀ t, Evolves (targetModify kind t desc fun target =>
      { target with isLastReportRecevied := false }) t := by
    intro t
    apply evolves_targetModify
    intro target hset
    exact hset
  exact hflagged.evolves (hclear _) (fun d ld hld => hld)

/-! ### The last message -/

/-- When the counter is not past its limit, the last message takes the flag down. -/
theorem LastMessage.flagDown {takes : SwitchEntry → Bool} {s : McState} {kind : LeaveKind}
    {desc : PacketDesc} {t : Tables} (h : LastMessage board takes s kind desc t)
    (hserved : Served s) (hcount : Opconn.Multicast.flagDown kind s.tables desc = true ∨
      nextCount s kind ≤ queryLimit s) : Opconn.Multicast.flagDown kind t desc = true := by
  cases h with
  | gone hgone => simp [Opconn.Multicast.flagDown, hgone]
  | reported target htarget _ _ =>
    simp [Opconn.Multicast.flagDown, leaveTarget_targetModify, htarget]
  | removed target htarget _ _ =>
    cases kind with
    | snooping =>
      simp [Opconn.Multicast.flagDown, leaveTarget_removeTarget_snooping hserved.keyed]
    | ctc =>
      by_cases hmode : s.tables.control.mcMode = .ctc
      · have hless := hserved.hostless (by rw [hmode]; decide)
        simp [Opconn.Multicast.flagDown, leaveTarget_removeTarget_ctc hserved.keyed hless]
      · -- outside CTC mode no group is flagged to begin with
        rw [Opconn.Multicast.flagDown, Option.all_eq_true]
        intro target' htarget'
        have hold := (shrinks_removeTarget takes .ctc s.tables desc).leaveTarget hserved.keyed htarget'
        obtain ⟨g, hget, rfl⟩ := leaveTarget_ctc_iff.mp hold
        simp [Group.target, hserved.groupless hmode g (mem_of_get hget)]
  | overrun hover =>
    rcases hcount with hdown | hle
    · exact hdown
    · exact absurd hover (not_lt.mpr hle)

/-- Freeing a descriptor whose flag is down leaves the other flags served. -/
theorem Served.last {s s' : McState} (h : Served s) (hev : Evolves s'.tables s.tables) {d : Nat}
    {ld : LeaveDesc} (hld : s.descs d = some ld)
    (hdescs : ∀ d' ld', d' ≠ d → s.descs d' = some ld' → s'.descs d' = some ld')
    (hdown : flagDown ld.kind s'.tables ld.desc = true) : Served s' := by
  have hkeyed := hev.keyed h.keyed
  -- the leaves as they were, and none of those still needed is the one that ended
  have hsame : Served { s with tables := s'.tables } := h.evolves hev (fun _ _ hlive => hlive)
  refine ⟨hkeyed, hsame.hostless, hsame.groupless, ?_, ?_⟩
  · intro g hg host hhost hflag
    obtain ⟨d', ld', hleave⟩ := hsame.hosts g hg host hhost hflag
    refine ⟨d', ld', ⟨hdescs d' ld' ?_ hleave.1.live, hleave.1.kind, hleave.1.timer,
      hleave.1.due⟩, hleave.2⟩
    rintro rfl
    have hlive : s.descs d' = some ld' := hleave.1.live
    rw [hld, Option.some.injEq] at hlive
    subst hlive
    have hup := hleave.flag_up hkeyed hg hhost hflag
    rw [hleave.1.kind] at hdown
    exact absurd hdown (by simpa using hup)
  · intro g hg hflag
    obtain ⟨d', ld', hleave⟩ := hsame.groups g hg hflag
    refine ⟨d', ld', ⟨hdescs d' ld' ?_ hleave.1.live, hleave.1.kind, hleave.1.timer,
      hleave.1.due⟩, hleave.2⟩
    rintro rfl
    have hlive : s.descs d' = some ld' := hleave.1.live
    rw [hld, Option.some.injEq] at hlive
    subst hlive
    have hup := hleave.flag_up hkeyed hg hflag
    rw [hleave.1.kind] at hdown
    exact absurd hdown (by simpa using hup)

/-! ### Runs -/

theorem Served.handle {s : McState} (h : Served s) (haccounted : Accounted s)
    {takes : SwitchEntry → Bool} (hok : leaveServed board s (.handle takes) = true) :
    Served (mcTimerMsgThread board takes s) := by
  cases hqueue : s.queue with
  | nil =>
    rw [mcTimerMsgThread_nil takes hqueue]
    exact h
  | cons msg queue =>
    obtain ⟨kind, d⟩ := msg
    cases hld : s.descs d with
    | none => simp [leaveServed, hqueue, hld] at hok
    | some ld =>
      simp only [leaveServed, hqueue, hld, Bool.or_eq_true, decide_eq_true_eq] at hok
      have hkind := haccounted.kind_head hqueue hld
      have heffect : MessageEffect board takes { s with queue := queue } kind d ld.desc
          (mcTimerMsgThread board takes s) := mcTimerMsgThread_effect takes hqueue hld
      generalize mcTimerMsgThread board takes s = s' at heffect ⊢
      cases heffect with
      | query => exact h.evolves (Shrinks.refl _).evolves (fun _ _ hlive => hlive)
      | last t hlast =>
        have hqueued : Served { s with queue := queue } :=
          h.evolves (Shrinks.refl _).evolves (fun _ _ hlive => hlive)
        have hdown := hlast.flagDown hqueued hok
        refine h.last hlast.evolves hld ?_ (hkind ▸ hdown)
        intro d' ld' hne hlive
        simpa only [Function.update_of_ne hne] using hlive

theorem Served.quiet {s : McState} (h : Served s) {e : McEvent} (hquiet : e.quiet = true) :
    Served (mcStep board s e) := by
  have hcases : Shrinks (mcStep board s e).tables s.tables ∨
      (mcStep board s e).tables.mcGroupList = [] := shrinks_step hquiet
  rcases hcases with hshrinks | hnil
  · refine h.evolves hshrinks.evolves ?_
    intro d ld hlive
    rw [(heapKept_step hquiet).descs]
    exact hlive
  · exact served_of_nil hnil

/-- Every step that meets the condition keeps the flags served. -/
theorem Served.step {s : McState} (h : Served s) (haccounted : Accounted s) {e : McEvent}
    (hok : leaveServed board s e = true) : Served (mcStep board s e) := by
  cases e with
  | packet env desc =>
    change Served (mcInput board env desc s)
    have heffect := mcInput_effect board env desc s
    generalize mcInput board env desc s = s' at heffect ⊢
    cases heffect with
    | opened kind hkind hopens target _ _ =>
      simp only [leaveServed, hopens, Bool.not_true, Bool.false_or, Bool.and_eq_true,
        decide_eq_true_eq] at hok
      exact h.opening haccounted hkind hok.1.1 hok.1.2 hok.2
    | report kind hkind _ _ =>
      exact h.evolves (evolves_joinTables env desc hkind) (fun _ _ hlive => hlive)
    | fast kind _ _ => exact h.evolves (shrinks_removeTarget ..).evolves (fun _ _ hlive => hlive)
    | nothing => exact h
  | handle takes => exact h.handle haccounted hok
  | entryAdd env portId vlanId mac =>
    exact h.evolves (evolves_entryAdd ..) (fun _ _ hlive => hlive)
  | fire | send | age | entryDelete | entryDeleteByVlan | entryClear | maxGroupNumSet | switchSet
  | controlTypeSet | leaveModeSet | hostAgingTimeSet | lastQueryIntervalSet | lastQueryCountSet =>
    exact h.quiet rfl

/-- A descriptor that is freed in a run leaves a moment with its flag down. -/
theorem Served.down_of_freed {s : McState} (h : Served s) (haccounted : Accounted s)
    {es : List McEvent}
    (hok : AllSteps (mcStep board) (fun s e => leaveServed board s e = true) s es) {d : Nat}
    {ld : LeaveDesc} (hld : s.descs d = some ld)
    (hfreed : (run (mcStep board) s es).descs d = none) :
    ∃ es₁ es₂, es = es₁ ++ es₂ ∧
      flagDown ld.kind (run (mcStep board) s es₁).tables ld.desc = true := by
  induction es generalizing s with
  | nil =>
    rw [run_nil, hld] at hfreed
    cases hfreed
  | cons e es ih =>
    have hcases : (mcStep board s e).descs d = some ld ∨ EndsLeave board s e d ld :=
      haccounted.descs_step hld e
    rcases hcases with hkept | hends
    · obtain ⟨es₁, es₂, rfl, hdown⟩ :=
        ih (h.step haccounted hok.1) (haccounted.step e) hok.2 hkept hfreed
      exact ⟨e :: es₁, es₂, rfl, hdown⟩
    · refine ⟨[e], es, rfl, ?_⟩
      obtain ⟨takes, queue, rfl, hqueue, hlast⟩ := hends.last
      have hguard := hok.1
      simp only [leaveServed, hqueue, hld, Bool.or_eq_true, decide_eq_true_eq] at hguard
      have hqueued : Served { s with queue := queue } :=
        h.evolves (Shrinks.refl _).evolves (fun _ _ hlive => hlive)
      exact hlast.flagDown hqueued hguard

theorem Served.comesDown {s : McState} (h : Served s) (haccounted : Accounted s) {d : Nat}
    {ld : LeaveDesc} (hld : s.descs d = some ld) : FlagComesDown board s d ld := by
  intro es M hok hcount hmany
  exact h.down_of_freed haccounted hok hld (haccounted.freed_of_many hld hcount hmany)

/-- **A leave flag that is set has a running timer that takes it down**, in every run whose
leaves get what they need. -/
theorem leave_flags_served (board : Board) (c : McConfig) (vlans : VlanState) (es : List McEvent)
    (hok : AllSteps (mcStep board) (fun s e => leaveServed board s e = true) (mcInit c vlans) es) :
    AllStates (mcStep board) (FlagsServed board) (mcInit c vlans) es := by
  have hinv : AllStates (mcStep board) (fun s => Served s ∧ Accounted s) (mcInit c vlans) es := by
    refine allStates_of_allSteps (mcStep board) _ ?_
      ⟨served_of_nil rfl, accounted_init c vlans⟩ hok
    intro s e hs he
    exact ⟨hs.1.step hs.2 he, hs.2.step e⟩
  refine hinv.mono ?_
  rintro s ⟨hserved, haccounted⟩
  constructor
  · intro g hg h hh hflag
    obtain ⟨d, ld, hleave, hgroup, hhost⟩ := hserved.hosts g hg h hh hflag
    exact ⟨d, ld, hleave, hgroup, hhost, hserved.comesDown haccounted hleave.live⟩
  · intro g hg hflag
    obtain ⟨d, ld, hleave, hgroup⟩ := hserved.groups g hg hflag
    exact ⟨d, ld, hleave, hgroup, hserved.comesDown haccounted hleave.live⟩

/-- A host leaves, is asked once, reports again, and its flag comes down. -/
theorem leave_flags_served_one_leave :
    ∃ es, AllSteps (mcStep .onu1Port) (fun s e => leaveServed .onu1Port s e = true)
        (mcInit { mcConfigDefault with leaveMode := .nonFastLeave } vlanInit) es ∧
      flagDown .snooping (run (mcStep .onu1Port)
        (mcInit { mcConfigDefault with leaveMode := .nonFastLeave } vlanInit) (es.take 5)).tables
        (leaveFrom 1 7 0xe0010101) = false ∧
      AllStates (mcStep .onu1Port) (FlagsServed .onu1Port)
        (mcInit { mcConfigDefault with leaveMode := .nonFastLeave } vlanInit) es := by
  refine ⟨[.packet .granting (reportFrom 1 7 0xe0010101),
    .packet .granting (leaveFrom 1 7 0xe0010101), .fire 0, .send, .handle fun _ => true,
    .packet .granting (reportFrom 1 7 0xe0010101), .fire 0, .send, .handle fun _ => true], ?_, ?_, ?_⟩
  · decide +kernel
  · decide +kernel
  · exact leave_flags_served .onu1Port _ vlanInit _ (by decide +kernel)

/-- No flag is served when no timer is running. -/
theorem not_served_of_no_timer {s : McState} (haccounted : Accounted s)
    (hup : ∃ g ∈ s.tables.mcGroupList, ∃ h ∈ g.hostList, h.isNonFastLeaveTimerStart = true)
    (hnone : ∀ d < s.next, (s.descs d).all (!·.timer) = true) : ¬FlagsServed board s := by
  intro hserved
  obtain ⟨g, hg, h, hh, hflag⟩ := hup
  obtain ⟨d, ld, hleave, -⟩ := hserved.hosts g hg h hh hflag
  have hoff := hnone d (haccounted.live_lt d ld hleave.live)
  rw [hleave.live] at hoff
  simp [hleave.timer] at hoff

/-- The host joined and left in these runs keeps its flag with no timer: the allocation of
the descriptor fails, the pool has no timer, or the query count is lowered on the way. -/
theorem flag_left_without_timer :
    ¬FlagsServed .onu1Port (run (mcStep .onu1Port)
        (mcInit { mcConfigDefault with leaveMode := .nonFastLeave } vlanInit)
        [.packet .granting (reportFrom 1 7 0xe0010101),
          .packet { Env.granting with leaveDesc := false } (leaveFrom 1 7 0xe0010101)]) ∧
      ¬FlagsServed .onu1Port (run (mcStep .onu1Port)
        (mcInit { mcConfigDefault with leaveMode := .nonFastLeave } vlanInit)
        [.packet .granting (reportFrom 1 7 0xe0010101),
          .packet { Env.granting with leaveTimer := false } (leaveFrom 1 7 0xe0010101)]) ∧
      ¬FlagsServed .onu1Port (run (mcStep .onu1Port)
        (mcInit { mcConfigDefault with leaveMode := .nonFastLeave } vlanInit)
        [.packet .granting (reportFrom 1 7 0xe0010101),
          .packet .granting (leaveFrom 1 7 0xe0010101), .fire 0, .send, .handle fun _ => true,
          .lastQueryCountSet 0, .fire 0, .send, .handle fun _ => true]) := by
  have haccounted : ∀ es, Accounted (run (mcStep .onu1Port)
      (mcInit { mcConfigDefault with leaveMode := .nonFastLeave } vlanInit) es) :=
    run_invariant (mcStep .onu1Port) Accounted (fun _ e hs => hs.step e) (accounted_init _ _)
  refine ⟨?_, ?_, ?_⟩
  · exact not_served_of_no_timer (haccounted _) (by decide +kernel) (by decide +kernel)
  · exact not_served_of_no_timer (haccounted _) (by decide +kernel) (by decide +kernel)
  · exact not_served_of_no_timer (haccounted _) (by decide +kernel) (by decide +kernel)

end Opconn.Multicast
