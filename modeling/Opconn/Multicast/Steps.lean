import Opconn.Multicast.System

/-!
# What a step can do

One inversion lemma for the packets and one for the leave messages; the other threads
touch either the tables or the timer task's hand-over, never both.
-/

namespace Opconn.Multicast

open FirstMatch

variable {board : Board}

/-! ### Packets -/

/-- The leaves that a mode carries on. -/
def McMode.leaveKind : McMode → Option LeaveKind
  | .snooping => some .snooping
  | .ctc => some .ctc
  | .proxy | .stop => none

theorem mcMode_of_leaveKind {mcMode : McMode} {kind : LeaveKind}
    (h : mcMode.leaveKind = some kind) :
    (kind = .snooping ∧ mcMode = .snooping) ∨ (kind = .ctc ∧ mcMode = .ctc) := by
  cases mcMode with
  | snooping =>
    cases h
    exact Or.inl ⟨rfl, rfl⟩
  | ctc =>
    cases h
    exact Or.inr ⟨rfl, rfl⟩
  | proxy | stop => cases h

def isReport (desc : PacketDesc) : Bool :=
  decide (desc.igmpType = .v1Report) || decide (desc.igmpType = .v2Report)

/-- The packet is a leave that asks for a timer: what leaves is listed and has none. -/
def opensLeave (board : Board) (desc : PacketDesc) (s : McState) : Bool :=
  match s.tables.control.mcMode.leaveKind with
  | none => false
  | some kind =>
    decide (desc.igmpType = .v2Leave) && leaveChecks board desc &&
      decide (s.tables.control.leaveMode = .nonFastLeave) &&
      match leaveTarget kind s.tables desc with
      | none => false
      | some target => !target.isNonFastLeaveTimerStart

/-- The packet is a leave that takes effect at once. -/
def leavesFast (board : Board) (desc : PacketDesc) (s : McState) : Bool :=
  decide (desc.igmpType = .v2Leave) && leaveChecks board desc &&
    decide (s.tables.control.leaveMode = .fast)

/-- The tables after a report. -/
def joinTables (board : Board) (env : Env) (kind : LeaveKind) (desc : PacketDesc) (t : Tables) :
    Tables :=
  match kind with
  | .snooping => mcSnoopingJoinAction board env desc t
  | .ctc => mcCtcJoinAction board desc t

/-- What a packet does: it opens a leave, is a report, is a fast leave, or does nothing. -/
inductive PacketEffect (board : Board) (env : Env) (desc : PacketDesc) (s : McState) :
    McState → Prop where
  | opened (kind : LeaveKind) (hkind : s.tables.control.mcMode.leaveKind = some kind)
      (hopens : opensLeave board desc s = true) (target : LeaveTarget)
      (htarget : leaveTarget kind s.tables desc = some target)
      (hfree : target.isNonFastLeaveTimerStart = false) :
      PacketEffect board env desc s (openLeave env kind desc s)
  | report (kind : LeaveKind) (hkind : s.tables.control.mcMode.leaveKind = some kind)
      (hreport : isReport desc = true) (hchecks : joinChecks board desc = true) :
      PacketEffect board env desc s { s with
        tables := joinTables board env kind desc s.tables
        marks := .report kind desc :: s.marks }
  | fast (kind : LeaveKind) (hkind : s.tables.control.mcMode.leaveKind = some kind)
      (hfast : leavesFast board desc s = true) :
      PacketEffect board env desc s { s with
        tables := removeTarget board env.takes kind s.tables desc }
  | nothing : PacketEffect board env desc s s

theorem leaveAction_effect (env : Env) {desc : PacketDesc} {s : McState} {kind : LeaveKind}
    (hkind : s.tables.control.mcMode.leaveKind = some kind) (htype : desc.igmpType = .v2Leave) :
    PacketEffect board env desc s (leaveAction board env kind desc s) := by
  unfold leaveAction
  cases hchecks : leaveChecks board desc with
  | false => exact .nothing
  | true =>
    rw [if_pos rfl]
    cases htarget : leaveTarget kind s.tables desc with
    | none => exact .nothing
    | some target =>
      cases hmode : s.tables.control.leaveMode with
      | fast => exact .fast kind hkind (by simp [leavesFast, htype, hchecks, hmode])
      | nonFastLeave =>
        cases hflag : target.isNonFastLeaveTimerStart with
        | true =>
          simp only [hflag, if_true]
          exact .nothing
        | false =>
          have hopens : opensLeave board desc s = true := by
            simp [opensLeave, hkind, htype, hchecks, hmode, htarget, hflag]
          simp only [hflag, Bool.false_eq_true, if_false]
          exact .opened kind hkind hopens target htarget hflag

theorem joinAction_effect (env : Env) {desc : PacketDesc} {s : McState} {kind : LeaveKind}
    (hkind : s.tables.control.mcMode.leaveKind = some kind) (hreport : isReport desc = true) :
    PacketEffect board env desc s (joinAction board env kind desc s) := by
  unfold joinAction
  cases hchecks : joinChecks board desc with
  | false => exact .nothing
  | true => exact .report kind hkind hreport hchecks

theorem mcInput_effect (board : Board) (env : Env) (desc : PacketDesc) (s : McState) :
    PacketEffect board env desc s (mcInput board env desc s) := by
  unfold mcInput
  cases hmode : s.tables.control.mcMode with
  | snooping =>
    have hkind : s.tables.control.mcMode.leaveKind = some .snooping := by rw [hmode]; rfl
    unfold mcSnoopingInput
    cases htype : desc.igmpType with
    | v1Report => exact joinAction_effect env hkind (by simp [isReport, htype])
    | v2Report => exact joinAction_effect env hkind (by simp [isReport, htype])
    | v2Leave => exact leaveAction_effect env hkind htype
    | generalQuery => exact .nothing
    | other => exact .nothing
  | ctc =>
    have hkind : s.tables.control.mcMode.leaveKind = some .ctc := by rw [hmode]; rfl
    unfold mcCtcInput
    cases htype : desc.igmpType with
    | v1Report => exact joinAction_effect env hkind (by simp [isReport, htype])
    | v2Report => exact joinAction_effect env hkind (by simp [isReport, htype])
    | v2Leave => exact leaveAction_effect env hkind htype
    | generalQuery => exact .nothing
    | other => exact .nothing
  | proxy => exact .nothing
  | stop => exact .nothing

/-! ### The timer task -/

theorem fireTimer_frame (d : Nat) (s : McState) : ∃ c, fireTimer d s = { s with callback := c } := by
  unfold fireTimer
  split
  · split
    · exact ⟨_, rfl⟩
    · exact ⟨s.callback, rfl⟩
  · exact ⟨s.callback, rfl⟩

theorem mcTimerMsgSend_frame (s : McState) :
    ∃ c q, mcTimerMsgSend s = { s with callback := c, queue := q } := by
  unfold mcTimerMsgSend
  split
  · exact ⟨s.callback, s.queue, rfl⟩
  · exact ⟨_, _, rfl⟩

/-! ### Leave messages -/

/-- What the routine compares its counter with. -/
def queryLimit (s : McState) : Nat := (s.tables.control.lastQueryCount + 1) % 2 ^ 32

/-- The counter after the next message. -/
def nextCount (s : McState) (kind : LeaveKind) : Nat := (s.i kind + 1) % 2 ^ 32

/-- The next message of the leave is not its last: what leaves is listed, has not reported,
and the counter has not reached its limit. -/
def leaveGoesOn (s : McState) (kind : LeaveKind) (desc : PacketDesc) : Bool :=
  match leaveTarget kind s.tables desc with
  | none => false
  | some target => !target.isLastReportRecevied && decide (nextCount s kind < queryLimit s)

/-- The tables after the last message of a leave, and why it was the last. -/
inductive LastMessage (board : Board) (takes : SwitchEntry → Bool) (s : McState) (kind : LeaveKind)
    (desc : PacketDesc) : Tables → Prop where
  | gone (hgone : leaveTarget kind s.tables desc = none) :
      LastMessage board takes s kind desc s.tables
  | reported (target : LeaveTarget) (htarget : leaveTarget kind s.tables desc = some target)
      (hreported : target.isLastReportRecevied = true) (hcount : nextCount s kind ≤ queryLimit s) :
      LastMessage board takes s kind desc (targetModify kind s.tables desc fun target =>
        { target with isNonFastLeaveTimerStart := false })
  | removed (target : LeaveTarget) (htarget : leaveTarget kind s.tables desc = some target)
      (hreported : target.isLastReportRecevied = false) (hcount : nextCount s kind = queryLimit s) :
      LastMessage board takes s kind desc (removeTarget board takes kind s.tables desc)
  | overrun (hcount : queryLimit s < nextCount s kind) :
      LastMessage board takes s kind desc s.tables

/-- What a message does: it sends a query, or it is the last one of its leave. -/
inductive MessageEffect (board : Board) (takes : SwitchEntry → Bool) (s : McState)
    (kind : LeaveKind) (d : Nat) (desc : PacketDesc) : McState → Prop where
  | query (target : LeaveTarget) (htarget : leaveTarget kind s.tables desc = some target)
      (hreported : target.isLastReportRecevied = false) (hcount : nextCount s kind < queryLimit s) :
      MessageEffect board takes s kind d desc { s with
        i := Function.update s.i kind (nextCount s kind)
        marks := .query d :: s.marks }
  | last (t : Tables) (hlast : LastMessage board takes s kind desc t) :
      MessageEffect board takes s kind d desc { s with
        tables := t
        i := Function.update s.i kind 0
        descs := Function.update s.descs d none
        freed := d :: s.freed }

theorem nonFastLeaveAction_effect (takes : SwitchEntry → Bool) (kind : LeaveKind) (d : Nat)
    (desc : PacketDesc) (s : McState) :
    MessageEffect board takes s kind d desc (nonFastLeaveAction board takes kind d desc s) := by
  unfold nonFastLeaveAction
  have hagain : ∀ n, Function.update (Function.update s.i kind n) kind 0 =
      Function.update s.i kind 0 := fun n => Function.update_idem ..
  cases htarget : leaveTarget kind s.tables desc with
  | none =>
    simp only [htarget, killTimer, hagain]
    exact .last _ (.gone htarget)
  | some target =>
    simp only [htarget, killTimer, hagain]
    cases hreported : target.isLastReportRecevied with
    | true =>
      simp only [if_true]
      rcases lt_trichotomy ((s.i kind + 1) % 2 ^ 32)
          ((s.tables.control.lastQueryCount + 1) % 2 ^ 32) with hlt | heq | hgt
      · rw [if_pos hlt]
        exact .last _ (.reported target htarget hreported (le_of_lt hlt))
      · rw [if_neg (not_lt.mpr heq.ge), if_pos heq]
        exact .last _ (.reported target htarget hreported heq.le)
      · rw [if_neg (not_lt.mpr hgt.le), if_neg (ne_of_gt hgt)]
        exact .last _ (.overrun hgt)
    | false =>
      simp only [Bool.false_eq_true, if_false]
      rcases lt_trichotomy ((s.i kind + 1) % 2 ^ 32)
          ((s.tables.control.lastQueryCount + 1) % 2 ^ 32) with hlt | heq | hgt
      · rw [if_pos hlt]
        exact .query target htarget hreported hlt
      · rw [if_neg (not_lt.mpr heq.ge), if_pos heq]
        exact .last _ (.removed target htarget hreported heq)
      · rw [if_neg (not_lt.mpr hgt.le), if_neg (ne_of_gt hgt)]
        exact .last _ (.overrun hgt)

/-- The consumer takes the message of a descriptor on the heap. -/
theorem mcTimerMsgThread_effect (takes : SwitchEntry → Bool) {s : McState} {kind : LeaveKind}
    {d : Nat} {queue : List (LeaveKind × Nat)} {ld : LeaveDesc}
    (hqueue : s.queue = (kind, d) :: queue) (hld : s.descs d = some ld) :
    MessageEffect board takes { s with queue := queue } kind d ld.desc
      (mcTimerMsgThread board takes s) := by
  have heq : mcTimerMsgThread board takes s =
      nonFastLeaveAction board takes kind d ld.desc { s with queue := queue } := by
    unfold mcTimerMsgThread
    rw [hqueue]
    cases kind <;> simp only [hld] <;> rfl
  rw [heq]
  exact nonFastLeaveAction_effect ..

theorem mcTimerMsgThread_stale (takes : SwitchEntry → Bool) {s : McState} {kind : LeaveKind}
    {d : Nat} {queue : List (LeaveKind × Nat)} (hqueue : s.queue = (kind, d) :: queue)
    (hld : s.descs d = none) :
    mcTimerMsgThread board takes s = { s with queue := queue, stale := true } := by
  unfold mcTimerMsgThread
  rw [hqueue]
  simp only [hld]

theorem mcTimerMsgThread_nil (takes : SwitchEntry → Bool) {s : McState} (hqueue : s.queue = []) :
    mcTimerMsgThread board takes s = s := by
  unfold mcTimerMsgThread
  rw [hqueue]

/-! ### Groups that are added -/

/-- The key of the group that the step adds to the list. -/
def addsGroup (board : Board) (s : McState) : McEvent → Option GroupKey
  | .packet env desc =>
    if s.tables.control.mcMode = .snooping && isReport desc && joinChecks board desc &&
        env.groupNode && (mcGroupListGet s.tables desc.groupKey).isNone &&
        decide (mcGroupNumPerPort s.tables desc.ingressPortId ≠
          s.tables.control.maxGroupNum desc.ingressPortId) then some desc.groupKey
    else none
  | .entryAdd env portId vlanId mac =>
    if s.tables.control.mcMode = .ctc && env.groupNode then
      (entryKey s.tables.control.ctcControlType portId vlanId mac).filter
        fun k => (mcGroupListGet s.tables k).isNone
    else none
  | _ => none

end Opconn.Multicast
