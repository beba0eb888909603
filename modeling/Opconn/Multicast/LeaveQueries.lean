import Opconn.Multicast.LeaveDescriptors
import Opconn.Multicast.LeaveTargets

/-!
# How often a leaving host is asked

A leave is to send `lastQueryCount` group-specific queries and then to remove its host,
unless the host reported meanwhile.  The routine that does so counts in one static
variable for all leaves of its mode, and it reads the report from the node it finds.  The
counter is the leave's own as long as the leaves come one after the other, and the flag
is the leave's own as long as no other leave is about the same host.
-/

namespace Opconn.Multicast

open FirstMatch Runs

variable {board : Board}

/-! ### What happened to a leave -/

/-- The queries sent for a leave. -/
def queries (d : Nat) (s : McState) : Nat := s.marks.count (.query d)

/-- What leaves reported after the leave was opened, by the marks (newest first). -/
def reportedSince (bitmap : Bitmap) (hostBitmap : HostBitmap) (d : Nat) (ld : LeaveDesc) :
    List Mark → Bool
  | [] => false
  | .opened d' :: marks => decide (d' ≠ d) && reportedSince bitmap hostBitmap d ld marks
  | .report kind desc :: marks =>
    (decide (kind = ld.kind) && sameTarget bitmap hostBitmap kind desc ld.desc) ||
      reportedSince bitmap hostBitmap d ld marks
  | .query _ :: marks => reportedSince bitmap hostBitmap d ld marks

/-- What leaves is listed and has not reported since. -/
def awaited (s : McState) (d : Nat) (ld : LeaveDesc) : Bool :=
  (leaveTarget ld.kind s.tables ld.desc).isSome &&
    !reportedSince s.tables.control.bitmap s.tables.control.hostBitmap d ld s.marks

/-- What leaves is listed before the step and not after it. -/
def removedBy (board : Board) (s : McState) (e : McEvent) (ld : LeaveDesc) : Bool :=
  (leaveTarget ld.kind s.tables ld.desc).isSome &&
    (leaveTarget ld.kind (mcStep board s e).tables ld.desc).isNone

/-- **What is to hold of a step**: a message sends a query exactly when its leave is still
awaited and has sent fewer than `lastQueryCount`, and removes what leaves exactly when it
has sent them all; no leave is sent a query by anything else. -/
structure LeaveExact (board : Board) (s : McState) (e : McEvent) : Prop where
  asks : ∀ d ld, handlesMessageOf d s e = true → s.descs d = some ld →
    queries d (mcStep board s e) = queries d s +
      if awaited s d ld && decide (queries d s < s.tables.control.lastQueryCount) then 1 else 0
  removes : ∀ d ld, handlesMessageOf d s e = true → s.descs d = some ld →
    (removedBy board s e ld = true ↔
      awaited s d ld = true ∧ queries d s = s.tables.control.lastQueryCount)
  others : ∀ d, handlesMessageOf d s e = false → queries d (mcStep board s e) = queries d s

/-! ### The condition -/

/-- Every leave in progress meets `p`. -/
def allLeaves (s : McState) (p : Nat → LeaveDesc → Bool) : Bool :=
  (List.range s.next).all fun d => (s.descs d).all (p d)

/-- No leave of a group is in progress for a group that is added. -/
def addsFreshGroup (board : Board) (s : McState) (e : McEvent) : Bool :=
  (addsGroup board s e).all fun k => allLeaves s fun _ ld =>
    decide (ld.kind ≠ .ctc) ||
      decide (groupCompare k ld.desc.groupKey s.tables.control.bitmap ≠ s.tables.control.bitmap)

/-- **The condition on a step.**  A message is handled with its descriptor on the heap, and
while no other leave of its mode is in the middle of its queries; a leave is opened when
none is in progress for the same host or group. -/
def leavesApart (board : Board) (s : McState) (e : McEvent) : Bool :=
  addsFreshGroup board s e &&
    match e with
    | .handle _ =>
      match s.queue with
      | [] => true
      | (kind, d) :: _ =>
        (s.descs d).isSome && decide (s.tables.control.lastQueryCount + 1 < 2 ^ 32) &&
          allLeaves s fun d' ld => decide (d' = d) || decide (ld.kind ≠ kind) ||
            decide (queries d' s = 0)
    | .packet _ desc =>
      !opensLeave board desc s || allLeaves s fun _ ld =>
        decide (s.tables.control.mcMode.leaveKind ≠ some ld.kind) ||
          !sameTarget s.tables.control.bitmap s.tables.control.hostBitmap ld.kind desc ld.desc
    | _ => true

theorem Accounted.allLeaves_iff {s : McState} (h : Accounted s) {p : Nat → LeaveDesc → Bool} :
    allLeaves s p = true ↔ ∀ d ld, s.descs d = some ld → p d ld = true := by
  simp only [allLeaves, List.all_eq_true, List.mem_range, Option.all_eq_true]
  constructor
  · intro hall d ld hld
    exact hall d (h.live_lt d ld hld) ld hld
  · intro hall d _ ld hld
    exact hall d ld hld

/-! ### The counter -/

/-- The counter of a mode belongs to the leave that has sent queries, and is at rest when
there is none. -/
structure CounterOwned (s : McState) : Prop where
  unsent : ∀ d, s.next ≤ d → queries d s = 0
  busy : ∀ d ld, s.descs d = some ld → queries d s ≠ 0 → queries d s = s.i ld.kind
  idle : ∀ kind, (∀ d ld, s.descs d = some ld → ld.kind = kind → queries d s = 0) → s.i kind = 0

/-- A leave whose mode has no other leave in the middle of its queries owns the counter. -/
theorem CounterOwned.own {s : McState} (h : CounterOwned s) {d : Nat} {ld : LeaveDesc}
    (hld : s.descs d = some ld)
    (hothers : ∀ d' ld', s.descs d' = some ld' → ld'.kind = ld.kind → d' ≠ d → queries d' s = 0) :
    queries d s = s.i ld.kind := by
  by_cases hzero : queries d s = 0
  · rw [hzero, h.idle ld.kind]
    intro d' ld' hld' hkind
    by_cases heq : d' = d
    · rw [heq]
      exact hzero
    · exact hothers d' ld' hld' hkind heq
  · exact h.busy d ld hld hzero

/-- Steps that send no query and leave the leaves alone. -/
theorem CounterOwned.frame {s s' : McState} (h : CounterOwned s) (hkept : HeapKept s s') :
    CounterOwned s' where
  unsent := by
    intro d hd
    rw [queries, hkept.asked]
    exact h.unsent d (hkept.next ▸ hd)
  busy := by
    intro d ld hld
    rw [queries, hkept.asked, hkept.i]
    exact h.busy d ld (hkept.descs ▸ hld)
  idle := by
    intro kind hall
    rw [hkept.i]
    apply h.idle kind
    intro d ld hld hkind
    rw [queries, ← hkept.asked]
    exact hall d ld (hkept.descs ▸ hld) hkind

theorem queries_cons_of_ne {s s' : McState} {m : Mark} (hmarks : s'.marks = m :: s.marks)
    {d : Nat} (hne : m ≠ .query d) : queries d s' = queries d s := by
  rw [queries, hmarks, List.count_cons_of_ne hne, queries]

theorem queries_query {s s' : McState} {d : Nat} (hmarks : s'.marks = .query d :: s.marks) :
    queries d s' = queries d s + 1 := by
  rw [queries, hmarks, List.count_cons_self, queries]

/-- The leave that is opened has sent nothing. -/
theorem CounterOwned.opening {s : McState} (h : CounterOwned s) (haccounted : Accounted s)
    (ld : LeaveDesc) (t : Tables) :
    CounterOwned { s with
      tables := t
      descs := Function.update s.descs s.next (some ld)
      next := s.next + 1
      marks := .opened s.next :: s.marks } := by
  have hqueries : ∀ d, (Mark.opened s.next :: s.marks).count (.query d) = queries d s := by
    intro d
    exact List.count_cons_of_ne (by simp)
  have hnew : queries s.next s = 0 := h.unsent s.next le_rfl
  refine ⟨?_, ?_, ?_⟩
  · intro d hd
    rw [queries, hqueries]
    exact h.unsent d ((Nat.le_succ _).trans hd)
  · intro d ld' hld'
    rw [queries, hqueries]
    by_cases heq : d = s.next
    · subst heq
      intro hbusy
      exact absurd hnew hbusy
    · simp only [Function.update_of_ne heq] at hld'
      exact h.busy d ld' hld'
  · intro k hall
    apply h.idle k
    intro d ld' hld' hkind
    rw [← hqueries]
    refine hall d ld' ?_ hkind
    simpa only [Function.update_of_ne (ne_of_lt (haccounted.live_lt d ld' hld'))] using hld'

/-- A query of the leave that owns the counter. -/
theorem CounterOwned.query {s s' : McState} (h : CounterOwned s) {d : Nat} {ld : LeaveDesc}
    (hld : s.descs d = some ld)
    (hothers : ∀ d' ld', s.descs d' = some ld' → ld'.kind = ld.kind → d' ≠ d → queries d' s = 0)
    (hlt : d < s.next) (hi : s'.i = Function.update s.i ld.kind (s.i ld.kind + 1))
    (hdescs : s'.descs = s.descs) (hnext : s'.next = s.next)
    (hmarks : s'.marks = .query d :: s.marks) : CounterOwned s' := by
  have hother : ∀ {d'}, d' ≠ d → queries d' s' = queries d' s := by
    intro d' hne
    exact queries_cons_of_ne hmarks (by simpa using hne.symm)
  have hself : queries d s' = s.i ld.kind + 1 := by
    rw [queries_query hmarks, h.own hld hothers]
  refine ⟨?_, ?_, ?_⟩
  · intro d' hd'
    rw [hother (ne_of_gt (hlt.trans_le (hnext ▸ hd')))]
    exact h.unsent d' (hnext ▸ hd')
  · intro d' ld' hld' hbusy
    rw [hdescs] at hld'
    by_cases heq : d' = d
    · subst heq
      rw [hld, Option.some.injEq] at hld'
      rw [← hld', hself, hi, Function.update_self]
    · rw [hother heq] at hbusy ⊢
      have hkind : ld'.kind ≠ ld.kind := fun hkind => hbusy (hothers d' ld' hld' hkind heq)
      rw [hi, Function.update_of_ne hkind]
      exact h.busy d' ld' hld' hbusy
  · intro k hall
    have hkind : k ≠ ld.kind := by
      rintro rfl
      have hzero := hall d ld (hdescs ▸ hld) rfl
      omega
    rw [hi, Function.update_of_ne hkind]
    apply h.idle k
    intro d' ld' hld' hk
    have hne : d' ≠ d := by
      rintro rfl
      rw [hld, Option.some.injEq] at hld'
      exact hkind (hk.symm.trans (congrArg LeaveDesc.kind hld'.symm))
    rw [← hother hne]
    exact hall d' ld' (hdescs ▸ hld') hk

/-- The last message of the leave that owns the counter. -/
theorem CounterOwned.last {s s' : McState} (h : CounterOwned s) {d : Nat} {ld : LeaveDesc}
    (hld : s.descs d = some ld)
    (hothers : ∀ d' ld', s.descs d' = some ld' → ld'.kind = ld.kind → d' ≠ d → queries d' s = 0)
    (hi : s'.i = Function.update s.i ld.kind 0)
    (hdescs : s'.descs = Function.update s.descs d none) (hnext : s'.next = s.next)
    (hmarks : s'.marks = s.marks) : CounterOwned s' := by
  have hqueries : ∀ d', queries d' s' = queries d' s := by
    intro d'
    rw [queries, hmarks, queries]
  refine ⟨?_, ?_, ?_⟩
  · intro d' hd'
    rw [hqueries]
    exact h.unsent d' (hnext ▸ hd')
  · intro d' ld' hld' hbusy
    rw [hdescs] at hld'
    obtain ⟨hne, hlive⟩ := descs_of_update hld'
    rw [hqueries] at hbusy ⊢
    have hkind : ld'.kind ≠ ld.kind := fun hkind => hbusy (hothers d' ld' hlive hkind hne)
    rw [hi, Function.update_of_ne hkind]
    exact h.busy d' ld' hlive hbusy
  · intro k hall
    by_cases hkind : k = ld.kind
    · rw [hi, hkind, Function.update_self]
    · rw [hi, Function.update_of_ne hkind]
      apply h.idle k
      intro d' ld' hld' hk
      have hne : d' ≠ d := by
        rintro rfl
        rw [hld, Option.some.injEq] at hld'
        exact hkind (hk.symm.trans (congrArg LeaveDesc.kind hld'.symm))
      rw [← hqueries]
      refine hall d' ld' ?_ hk
      rw [hdescs, Function.update_of_ne hne]
      exact hld'

/-! ### The report flag -/

/-- The node that a leave finds knows whether it reported since. -/
structure ReportsSeen (s : McState) : Prop where
  keyed : Keyed s.tables
  hostless : s.tables.control.mcMode ≠ .snooping → Hostless s.tables
  modes : ∀ d ld target, s.descs d = some ld → leaveTarget ld.kind s.tables ld.desc = some target →
    s.tables.control.mcMode.leaveKind = some ld.kind
  reports : ∀ d ld target, s.descs d = some ld → leaveTarget ld.kind s.tables ld.desc = some target →
    target.isLastReportRecevied =
      reportedSince s.tables.control.bitmap s.tables.control.hostBitmap d ld s.marks

theorem reportsSeen_of_nil {s : McState} (h : s.tables.mcGroupList = []) : ReportsSeen s where
  keyed := keyed_of_nil h
  hostless := by
    intro _ g hg
    rw [h] at hg
    cases hg
  modes := by
    intro d ld target _ htarget
    rw [leaveTarget_of_nil h] at htarget
    cases htarget
  reports := by
    intro d ld target _ htarget
    rw [leaveTarget_of_nil h] at htarget
    cases htarget

/-- Steps after which every leave finds what it found, up to the leave flag. -/
theorem ReportsSeen.evolves {s s' : McState} (h : ReportsSeen s)
    (hev : Evolves s'.tables s.tables)
    (hdescs : ∀ d ld, s'.descs d = some ld → s.descs d = some ld)
    (htargets : ∀ d ld target', s.descs d = some ld →
      leaveTarget ld.kind s'.tables ld.desc = some target' →
      ∃ target, leaveTarget ld.kind s.tables ld.desc = some target ∧
        target'.isLastReportRecevied = target.isLastReportRecevied)
    (hmarks : ∀ bitmap hostBitmap d ld, reportedSince bitmap hostBitmap d ld s'.marks =
      reportedSince bitmap hostBitmap d ld s.marks) : ReportsSeen s' where
  keyed := hev.keyed h.keyed
  hostless := by
    intro hmode
    rw [hev.mcMode] at hmode
    exact hev.hostless hmode (h.hostless hmode)
  modes := by
    intro d ld target' hld htarget'
    obtain ⟨target, htarget, -⟩ := htargets d ld target' (hdescs d ld hld) htarget'
    rw [hev.mcMode]
    exact h.modes d ld target (hdescs d ld hld) htarget
  reports := by
    intro d ld target' hld htarget'
    obtain ⟨target, htarget, hsame⟩ := htargets d ld target' (hdescs d ld hld) htarget'
    rw [hsame, hev.bitmap, hev.hostBitmap, hmarks]
    exact h.reports d ld target (hdescs d ld hld) htarget

theorem ReportsSeen.shrinks {s s' : McState} (h : ReportsSeen s)
    (hshrinks : Shrinks s'.tables s.tables)
    (hdescs : ∀ d ld, s'.descs d = some ld → s.descs d = some ld)
    (hmarks : ∀ bitmap hostBitmap d ld, reportedSince bitmap hostBitmap d ld s'.marks =
      reportedSince bitmap hostBitmap d ld s.marks) : ReportsSeen s' := by
  refine h.evolves hshrinks.evolves hdescs ?_ hmarks
  intro d ld target' _ htarget'
  exact ⟨target', hshrinks.leaveTarget h.keyed htarget', rfl⟩

/-- A leave finds nothing of the other mode. -/
theorem ReportsSeen.snooping_none {s : McState} (h : ReportsSeen s) {t : Tables}
    (hmode : s.tables.control.mcMode = .ctc) (hev : Evolves t s.tables) (desc : PacketDesc) :
    leaveTarget .snooping t desc = none := by
  have hother : s.tables.control.mcMode ≠ .snooping := by
    rw [hmode]
    decide
  exact leaveTarget_of_hostless (hev.hostless hother (h.hostless hother)) desc

/-- A report reaches the leaves it is about, and no others. -/
theorem ReportsSeen.report {s : McState} (h : ReportsSeen s) (haccounted : Accounted s) {env : Env}
    {desc : PacketDesc} {kind : LeaveKind}
    (hkind : s.tables.control.mcMode.leaveKind = some kind) (hreport : isReport desc = true)
    (hchecks : joinChecks board desc = true)
    (hfresh : addsFreshGroup board s (.packet env desc) = true) :
    ReportsSeen { s with
      tables := joinTables board env kind desc s.tables
      marks := .report kind desc :: s.marks } := by
  have hev : Evolves (joinTables board env kind desc s.tables) s.tables :=
    evolves_joinTables env desc hkind
  -- a leave of the other mode finds nothing: it found nothing before, and a group that is
  -- added has no such leave
  have hmodes : ∀ d ld target, s.descs d = some ld →
      leaveTarget ld.kind (joinTables board env kind desc s.tables) ld.desc = some target →
      ld.kind = kind := by
    intro d ld target hld htarget
    rcases mcMode_of_leaveKind hkind with ⟨rfl, hmode⟩ | ⟨rfl, hmode⟩
    · cases hctc : ld.kind with
      | snooping => rfl
      | ctc =>
        rw [hctc] at htarget
        rcases leaveTarget_ctc_joinTables htarget with hold | ⟨hnode, hnone, hroom, hsame⟩
        · have hother := h.modes d ld target hld (by rw [hctc]; exact hold)
          rw [hmode, hctc] at hother
          cases hother
        · have hadds : addsGroup board s (.packet env desc) = some desc.groupKey := by
            simp [addsGroup, hmode, hreport, hchecks, hnode, hnone, hroom]
          rw [addsFreshGroup, hadds, Option.all_some, haccounted.allLeaves_iff] at hfresh
          have hapart := hfresh d ld hld
          simp [hctc, hsame] at hapart
    · cases hsnooping : ld.kind with
      | ctc => rfl
      | snooping =>
        rw [hsnooping, h.snooping_none hmode hev] at htarget
        cases htarget
  refine ⟨hev.keyed h.keyed, ?_, ?_, ?_⟩
  · intro hmode
    change (joinTables board env kind desc s.tables).control.mcMode ≠ _ at hmode
    rw [hev.mcMode] at hmode
    exact hev.hostless hmode (h.hostless hmode)
  · intro d ld target hld htarget
    change (joinTables board env kind desc s.tables).control.mcMode.leaveKind = _
    rw [hev.mcMode, hkind, hmodes d ld target hld htarget]
  · intro d ld target hld htarget
    have hsame := hmodes d ld target hld htarget
    change target.isLastReportRecevied = reportedSince
      (joinTables board env kind desc s.tables).control.bitmap
      (joinTables board env kind desc s.tables).control.hostBitmap d ld _
    rw [hev.bitmap, hev.hostBitmap, reportedSince]
    change leaveTarget ld.kind (joinTables board env kind desc s.tables) ld.desc = _ at htarget
    subst hsame
    rcases leaveTarget_joinTables hchecks htarget with ⟨hreported, hset⟩ | ⟨hother, hold⟩
    · simp [hreported, hset]
    · simp [hother, h.reports d ld target hld hold]

/-- A change of a host that no leave is about. -/
theorem ReportsSeen.modifyApart {s : McState} (h : ReportsSeen s) (kind : LeaveKind)
    (desc : PacketDesc) (f : LeaveTarget → LeaveTarget)
    (hapart : ∀ d ld, s.descs d = some ld → ld.kind = kind →
      sameTarget s.tables.control.bitmap s.tables.control.hostBitmap kind desc ld.desc = false) :
    ReportsSeen { s with tables := targetModify kind s.tables desc f } := by
  have hcontrol := targetModify_control kind s.tables desc f
  have hold : ∀ d ld target, s.descs d = some ld →
      leaveTarget ld.kind (targetModify kind s.tables desc f) ld.desc = some target →
      leaveTarget ld.kind s.tables ld.desc = some target := by
    intro d ld target hld htarget
    rcases leaveTarget_targetModify_cases htarget with hsame | ⟨hkinds, hsame, -⟩
    · exact hsame
    · rw [hapart d ld hld hkinds] at hsame
      cases hsame
  refine ⟨keyed_targetModify h.keyed kind desc f, ?_, ?_, ?_⟩
  · intro hmode
    rw [hcontrol] at hmode
    exact hostless_targetModify (h.hostless hmode) kind desc f
  · intro d ld target hld htarget
    rw [hcontrol]
    exact h.modes d ld target hld (hold d ld target hld htarget)
  · intro d ld target hld htarget
    rw [hcontrol]
    exact h.reports d ld target hld (hold d ld target hld htarget)

/-- A leave that is opened starts with no report, and is the only one about its host. -/
theorem ReportsSeen.opening {s : McState} (h : ReportsSeen s) {env : Env} {kind : LeaveKind}
    {desc : PacketDesc}
    (hkind : s.tables.control.mcMode.leaveKind = some kind)
    (hapart : ∀ d ld, s.descs d = some ld → ld.kind = kind →
      sameTarget s.tables.control.bitmap s.tables.control.hostBitmap kind desc ld.desc = false) :
    ReportsSeen (openLeave env kind desc s) := by
  have hcontrol := targetModify_control kind s.tables desc
    (fun target => { target with isNonFastLeaveTimerStart := true })
  have hflagged := h.modifyApart kind desc
    (fun target => { target with isNonFastLeaveTimerStart := true }) hapart
  unfold openLeave
  cases env.leaveDesc with
  | false => exact hflagged
  | true =>
    have hcleared := hflagged.modifyApart kind desc
      (fun target => { target with isLastReportRecevied := false }) (by rw [hcontrol]; exact hapart)
    have hcontrol' := targetModify_control kind
      (targetModify kind s.tables desc fun target =>
        { target with isNonFastLeaveTimerStart := true }) desc
      (fun target => { target with isLastReportRecevied := false })
    simp only [if_true]
    refine ⟨hcleared.keyed, hcleared.hostless, ?_, ?_⟩
    · intro d ld target hld htarget
      by_cases heq : d = s.next
      · subst heq
        simp only [Function.update_self, Option.some.injEq] at hld
        rw [hcontrol', hcontrol, ← hld]
        exact hkind
      · simp only [Function.update_of_ne heq] at hld
        exact hcleared.modes d ld target hld htarget
    · intro d ld target hld htarget
      by_cases heq : d = s.next
      · subst heq
        simp only [Function.update_self, Option.some.injEq] at hld
        subst hld
        simp only [leaveTarget_targetModify, Option.map_map, Option.map_eq_some_iff] at htarget
        obtain ⟨target₀, -, rfl⟩ := htarget
        simp [reportedSince]
      · simp only [Function.update_of_ne heq] at hld
        rw [hcleared.reports d ld target hld htarget]
        simp [reportedSince, Ne.symm heq]

theorem ReportsSeen.last {s s' : McState} (h : ReportsSeen s) {takes : SwitchEntry → Bool}
    {kind : LeaveKind} {desc : PacketDesc} (hlast : LastMessage board takes s kind desc s'.tables)
    (hdescs : ∀ d ld, s'.descs d = some ld → s.descs d = some ld) (hmarks : s'.marks = s.marks) :
    ReportsSeen s' := by
  refine h.evolves hlast.evolves hdescs ?_ (fun _ _ _ _ => by rw [hmarks])
  intro d ld target' _ htarget'
  generalize s'.tables = t at hlast htarget'
  cases hlast with
  | gone | overrun => exact ⟨target', htarget', rfl⟩
  | reported target _ _ _ =>
    rcases leaveTarget_targetModify_cases htarget' with hsame | ⟨hkinds, -, target₀, hold, rfl⟩
    · exact ⟨target', hsame, rfl⟩
    · exact ⟨target₀, hkinds ▸ hold, rfl⟩
  | removed target _ _ _ =>
    exact ⟨target', (shrinks_removeTarget ..).leaveTarget h.keyed htarget', rfl⟩

/-- A new control entry is about no leave in progress. -/
theorem ReportsSeen.entryAdd {s : McState} (h : ReportsSeen s) (haccounted : Accounted s)
    {env : Env} {portId vlanId : Nat} {mac : Mac}
    (hfresh : addsFreshGroup board s (.entryAdd env portId vlanId mac) = true) :
    ReportsSeen (mcStep board s (.entryAdd env portId vlanId mac)) := by
  have hev : Evolves (odmMulticastControlEntryAdd board env s.tables portId vlanId mac).2 s.tables :=
    evolves_entryAdd ..
  refine h.evolves hev (fun _ _ hlive => hlive) ?_ (fun _ _ _ _ => rfl)
  intro d ld target' hld htarget'
  change leaveTarget ld.kind (odmMulticastControlEntryAdd board env s.tables portId vlanId mac).2
    ld.desc = some target' at htarget'
  by_cases hmode : s.tables.control.mcMode = .ctc
  · cases hkind : ld.kind with
    | snooping =>
      rw [hkind, h.snooping_none hmode hev] at htarget'
      cases htarget'
    | ctc =>
      rw [hkind] at htarget'
      obtain ⟨g', hg', rfl⟩ := leaveTarget_ctc_iff.mp htarget'
      rcases get_entryAdd hg' with ⟨g, hg, htarget⟩ | ⟨k, hnode, hk, hnone, hsame⟩
      · exact ⟨g.target, leaveTarget_ctc_iff.mpr ⟨g, hg, rfl⟩, congrArg _ htarget⟩
      · have hadds : addsGroup board s (.entryAdd env portId vlanId mac) = some k := by
          simp [addsGroup, hmode, hnode, hk, hnone]
        rw [addsFreshGroup, hadds, Option.all_some, haccounted.allLeaves_iff] at hfresh
        have hapart := hfresh d ld hld
        simp [hkind, hsame] at hapart
  · rw [odmMulticastControlEntryAdd, if_pos hmode] at htarget'
    exact ⟨target', htarget', rfl⟩

/-! ### Runs -/

/-- The leaves keep to themselves. -/
structure Apart (s : McState) : Prop where
  accounted : Accounted s
  counter : CounterOwned s
  seen : ReportsSeen s

/-- What the condition says of a message: its descriptor is on the heap and the counter is
its own. -/
theorem Apart.head {s : McState} (h : Apart s) {takes : SwitchEntry → Bool} {kind : LeaveKind}
    {d : Nat} {queue : List (LeaveKind × Nat)}
    (hok : leavesApart board s (.handle takes) = true) (hqueue : s.queue = (kind, d) :: queue) :
    ∃ ld, s.descs d = some ld ∧ ld.kind = kind ∧ s.tables.control.lastQueryCount + 1 < 2 ^ 32 ∧
      ∀ d' ld', s.descs d' = some ld' → ld'.kind = ld.kind → d' ≠ d → queries d' s = 0 := by
  simp only [leavesApart, hqueue, Bool.and_eq_true, decide_eq_true_eq, Option.isSome_iff_exists] at hok
  obtain ⟨-, ⟨⟨ld, hld⟩, hcount⟩, hall⟩ := hok
  have hkind := h.accounted.kind_head hqueue hld
  refine ⟨ld, hld, hkind, hcount, ?_⟩
  intro d' ld' hld' hsame hne
  have hquiet := h.accounted.allLeaves_iff.mp hall d' ld' hld'
  simpa [hne, hsame, hkind] using hquiet

theorem Apart.handle {s : McState} (h : Apart s) {takes : SwitchEntry → Bool}
    (hok : leavesApart board s (.handle takes) = true) :
    Apart (mcTimerMsgThread board takes s) := by
  have haccounted : Accounted (mcTimerMsgThread board takes s) := h.accounted.step (.handle takes)
  cases hqueue : s.queue with
  | nil =>
    rw [mcTimerMsgThread_nil takes hqueue]
    exact h
  | cons msg queue =>
    obtain ⟨kind, d⟩ := msg
    obtain ⟨ld, hld, rfl, -, hothers⟩ := h.head hok hqueue
    have heffect : MessageEffect board takes { s with queue := queue } ld.kind d ld.desc
        (mcTimerMsgThread board takes s) := mcTimerMsgThread_effect takes hqueue hld
    generalize mcTimerMsgThread board takes s = s' at heffect haccounted ⊢
    have hqueued : ReportsSeen { s with queue := queue } :=
      h.seen.shrinks (Shrinks.refl _) (fun _ _ hlive => hlive) (fun _ _ _ _ => rfl)
    cases heffect with
    | query target _ _ _ =>
      refine ⟨haccounted, ?_, ?_⟩
      · have hnext := h.accounted.nextCount_eq ld.kind
        refine h.counter.query hld hothers (h.accounted.live_lt d ld hld) ?_ rfl rfl rfl
        change Function.update s.i ld.kind (nextCount s ld.kind) = _
        rw [hnext]
      · exact h.seen.shrinks (Shrinks.refl _) (fun _ _ hlive => hlive) (fun _ _ _ _ => rfl)
    | last t hlast =>
      refine ⟨haccounted, h.counter.last hld hothers rfl rfl rfl rfl, ?_⟩
      exact hqueued.last hlast (fun _ _ hlive => (descs_of_update hlive).2) rfl

theorem Apart.packet {s : McState} (h : Apart s) {env : Env} {desc : PacketDesc}
    (hok : leavesApart board s (.packet env desc) = true) : Apart (mcInput board env desc s) := by
  have haccounted : Accounted (mcInput board env desc s) := h.accounted.step (.packet env desc)
  simp only [leavesApart, Bool.and_eq_true, Bool.or_eq_true, Bool.not_eq_true'] at hok
  obtain ⟨hfresh, hopen⟩ := hok
  have heffect := mcInput_effect board env desc s
  generalize mcInput board env desc s = s' at heffect haccounted ⊢
  cases heffect with
  | opened kind hkind hopens _ _ _ =>
    have hall := hopen.resolve_left (by simp [hopens])
    rw [h.accounted.allLeaves_iff] at hall
    refine ⟨haccounted, ?_, h.seen.opening hkind ?_⟩
    · unfold openLeave
      split
      · exact h.counter.opening h.accounted _ _
      · exact h.counter.frame (heapKept_tables s _)
    · intro d ld hld hsame
      have hapart := hall d ld hld
      simpa [hkind, hsame] using hapart
  | report kind hkind hreport hchecks =>
    refine ⟨haccounted, ?_, h.seen.report h.accounted hkind hreport hchecks hfresh⟩
    exact h.counter.frame (heapKept_report s _ kind desc)
  | fast kind _ _ =>
    refine ⟨haccounted, h.counter.frame (heapKept_tables s _), ?_⟩
    exact h.seen.shrinks (shrinks_removeTarget ..) (fun _ _ hlive => hlive) (fun _ _ _ _ => rfl)
  | nothing => exact h

theorem Apart.quiet {s : McState} (h : Apart s) {e : McEvent} (hquiet : e.quiet = true) :
    Apart (mcStep board s e) := by
  have hkept : HeapKept s (mcStep board s e) := heapKept_step hquiet
  have hmarks : (mcStep board s e).marks = s.marks := marks_step hquiet
  have hcases : Shrinks (mcStep board s e).tables s.tables ∨
      (mcStep board s e).tables.mcGroupList = [] := shrinks_step hquiet
  refine ⟨h.accounted.step e, h.counter.frame hkept, ?_⟩
  rcases hcases with hshrinks | hnil
  · refine h.seen.shrinks hshrinks ?_ ?_
    · intro d ld hlive
      rwa [hkept.descs] at hlive
    · intro bitmap hostBitmap d ld
      rw [hmarks]
  · exact reportsSeen_of_nil hnil

/-- Every step that meets the condition keeps the leaves apart. -/
theorem Apart.step {s : McState} (h : Apart s) {e : McEvent}
    (hok : leavesApart board s e = true) : Apart (mcStep board s e) := by
  cases e with
  | packet env desc => exact h.packet hok
  | handle takes => exact h.handle hok
  | entryAdd env portId vlanId mac =>
    simp only [leavesApart, Bool.and_true] at hok
    refine ⟨h.accounted.step _, ?_, h.seen.entryAdd h.accounted hok⟩
    exact h.counter.frame (heapKept_tables s _)
  | fire | send | age | entryDelete | entryDeleteByVlan | entryClear | maxGroupNumSet | switchSet
  | controlTypeSet | leaveModeSet | hostAgingTimeSet | lastQueryIntervalSet | lastQueryCountSet =>
    exact h.quiet rfl

/-! ### Exact leaves -/

theorem queryLimit_eq {s : McState} (h : s.tables.control.lastQueryCount + 1 < 2 ^ 32) :
    queryLimit s = s.tables.control.lastQueryCount + 1 := Nat.mod_eq_of_lt h

/-- What leaves is removed by the last message for which the counter is at its limit. -/
theorem Apart.removed_none {s : McState} (h : Apart s) {d : Nat} {ld : LeaveDesc}
    {target : LeaveTarget} (hld : s.descs d = some ld)
    (htarget : leaveTarget ld.kind s.tables ld.desc = some target) (takes : SwitchEntry → Bool) :
    leaveTarget ld.kind (removeTarget board takes ld.kind s.tables ld.desc) ld.desc = none := by
  have hmode := h.seen.modes d ld target hld htarget
  generalize hkind : ld.kind = kind at hmode ⊢
  cases kind with
  | snooping => exact leaveTarget_removeTarget_snooping h.seen.keyed takes ld.desc
  | ctc =>
    have hctc : s.tables.control.mcMode = .ctc := by
      rcases mcMode_of_leaveKind hmode with ⟨hother, -⟩ | ⟨-, hctc⟩
      · cases hother
      · exact hctc
    have hless := h.seen.hostless (by rw [hctc]; decide)
    exact leaveTarget_removeTarget_ctc h.seen.keyed hless takes ld.desc

theorem Apart.awaited_eq {s : McState} (h : Apart s) {d : Nat} {ld : LeaveDesc}
    {target : LeaveTarget} (hld : s.descs d = some ld)
    (htarget : leaveTarget ld.kind s.tables ld.desc = some target) :
    awaited s d ld = !target.isLastReportRecevied := by
  rw [awaited, htarget, h.seen.reports d ld target hld htarget, Option.isSome_some, Bool.true_and]

/-- A message does exactly what its own leave asks for. -/
theorem Apart.exact_handle {s : McState} (h : Apart s) {takes : SwitchEntry → Bool}
    {kind : LeaveKind} {d : Nat} {queue : List (LeaveKind × Nat)}
    (hok : leavesApart board s (.handle takes) = true) (hqueue : s.queue = (kind, d) :: queue)
    {ld : LeaveDesc} (hld : s.descs d = some ld) :
    (mcTimerMsgThread board takes s).marks =
        (if awaited s d ld && decide (queries d s < s.tables.control.lastQueryCount) then
          [.query d] else []) ++ s.marks ∧
      (((leaveTarget ld.kind s.tables ld.desc).isSome = true ∧
          leaveTarget ld.kind (mcTimerMsgThread board takes s).tables ld.desc = none) ↔
        awaited s d ld = true ∧ queries d s = s.tables.control.lastQueryCount) := by
  obtain ⟨ld', hld', rfl, hcount, hothers⟩ := h.head hok hqueue
  rw [hld, Option.some.injEq] at hld'
  subst hld'
  have hown := h.counter.own hld hothers
  have hnext : nextCount s ld.kind = queries d s + 1 := by
    rw [hown]
    exact h.accounted.nextCount_eq ld.kind
  have hlimit := queryLimit_eq hcount
  have heffect : MessageEffect board takes { s with queue := queue } ld.kind d ld.desc
      (mcTimerMsgThread board takes s) := mcTimerMsgThread_effect takes hqueue hld
  generalize mcTimerMsgThread board takes s = s' at heffect ⊢
  cases heffect with
  | query target htarget hreported hlt =>
    change leaveTarget ld.kind s.tables ld.desc = some target at htarget
    change nextCount s ld.kind < queryLimit s at hlt
    have hawaited : awaited s d ld = true := by rw [h.awaited_eq hld htarget, hreported, Bool.not_false]
    have hfew : queries d s < s.tables.control.lastQueryCount := by omega
    refine ⟨by simp [hawaited, hfew], ?_⟩
    constructor
    · rintro ⟨-, hnone⟩
      rw [htarget] at hnone
      cases hnone
    · rintro ⟨-, hall⟩
      omega
  | last t hlast =>
    cases hlast with
    | gone hgone =>
      change leaveTarget ld.kind s.tables ld.desc = none at hgone
      simp [awaited, hgone]
    | reported target htarget hreported _ =>
      change leaveTarget ld.kind s.tables ld.desc = some target at htarget
      have hawaited : awaited s d ld = false := by
        rw [h.awaited_eq hld htarget, hreported, Bool.not_true]
      refine ⟨by simp [hawaited], ?_⟩
      constructor
      · rintro ⟨-, hnone⟩
        change leaveTarget ld.kind (targetModify ld.kind s.tables ld.desc fun target =>
          { target with isNonFastLeaveTimerStart := false }) ld.desc = none at hnone
        rw [leaveTarget_targetModify, htarget] at hnone
        cases hnone
      · rintro ⟨hawaited', -⟩
        rw [hawaited] at hawaited'
        cases hawaited'
    | removed target htarget hreported hcounted =>
      change leaveTarget ld.kind s.tables ld.desc = some target at htarget
      change nextCount s ld.kind = queryLimit s at hcounted
      have hawaited : awaited s d ld = true := by
        rw [h.awaited_eq hld htarget, hreported, Bool.not_false]
      have hall : queries d s = s.tables.control.lastQueryCount := by omega
      refine ⟨by simp [hall], ?_⟩
      constructor
      · intro _
        exact ⟨hawaited, hall⟩
      · intro _
        exact ⟨by rw [htarget, Option.isSome_some], h.removed_none hld htarget takes⟩
    | overrun hover =>
      change queryLimit s < nextCount s ld.kind at hover
      have hmany : s.tables.control.lastQueryCount < queries d s := by omega
      refine ⟨by simp [not_lt.mpr hmany.le], ?_⟩
      constructor
      · rintro ⟨hsome, hnone⟩
        change leaveTarget ld.kind s.tables ld.desc = none at hnone
        rw [hnone] at hsome
        cases hsome
      · rintro ⟨-, hall⟩
        omega

theorem handlesMessageOf_iff {d : Nat} {s : McState} {e : McEvent} :
    handlesMessageOf d s e = true ↔
      ∃ takes kind queue, e = .handle takes ∧ s.queue = (kind, d) :: queue := by
  cases e with
  | handle takes =>
    cases hqueue : s.queue with
    | nil => simp [handlesMessageOf, hqueue]
    | cons msg queue => simp [handlesMessageOf, hqueue, Prod.ext_iff]
  | packet | fire | send | age | entryAdd | entryDelete | entryDeleteByVlan | entryClear
  | maxGroupNumSet | switchSet | controlTypeSet | leaveModeSet | hostAgingTimeSet
  | lastQueryIntervalSet | lastQueryCountSet => simp [handlesMessageOf]

/-- Only the message of a leave sends it a query. -/
theorem queries_step {s : McState} {e : McEvent} {d : Nat}
    (hnot : handlesMessageOf d s e = false) : queries d (mcStep board s e) = queries d s := by
  have hheap : HeapEffect board s e (mcStep board s e) := mcStep_heap s e
  generalize mcStep board s e = s' at hheap ⊢
  cases hheap with
  | kept hkept _ _ _ => exact hkept.asked d
  | opened => exact queries_cons_of_ne rfl (by simp)
  | fired | stale => rfl
  | @handled _ _ d' _ _ _ hqueue _ heffect =>
    cases heffect with
    | query =>
      have hne : d' ≠ d := by simpa [handlesMessageOf, hqueue] using hnot
      exact queries_cons_of_ne rfl (by simpa using hne)
    | last => rfl

theorem Apart.exact {s : McState} (h : Apart s) {e : McEvent}
    (hok : leavesApart board s e = true) : LeaveExact board s e where
  asks := by
    intro d ld hhandles hld
    obtain ⟨takes, kind, queue, rfl, hqueue⟩ := handlesMessageOf_iff.mp hhandles
    have hmarks := (h.exact_handle hok hqueue hld).1
    change queries d (mcTimerMsgThread board takes s) = _
    rw [queries, hmarks, List.count_append, queries, Nat.add_comm]
    split
    · simp
    · simp
  removes := by
    intro d ld hhandles hld
    obtain ⟨takes, kind, queue, rfl, hqueue⟩ := handlesMessageOf_iff.mp hhandles
    rw [← (h.exact_handle hok hqueue hld).2, removedBy, Bool.and_eq_true, Option.isNone_iff_eq_none]
    rfl
  others := by
    intro d hnot
    exact queries_step hnot

end Opconn.Multicast
