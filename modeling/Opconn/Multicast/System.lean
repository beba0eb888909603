import Opconn.Multicast.Groups
import Opconn.Vos.Timer

/-!
# The multicast module at work

Three threads share the tables under `mcGroupSem`: the IGMP thread takes membership
reports and leaves, the timer message thread ages hosts and carries on the leaves that
are not fast, and the management thread changes the configuration.  The timer task is a
fourth: it runs `mcTimerMsgSend` outside its mutex, so that a message may be queued for
a timer that was cancelled meanwhile.

A leave that is not fast is carried on by a copy of the packet's descriptor and a
recurring timer; each expiry queues a message with a pointer to the descriptor.  The
routine that handles the message counts its calls in a static variable.
-/

namespace Opconn.Multicast

open FirstMatch

/-! ### Packets -/

inductive IgmpType where
  | generalQuery
  | v1Report
  | v2Report
  | v2Leave
  | other
deriving DecidableEq, Repr

/-- `MC_PACKET_DESC_t`, as `mcInput` fills it in from a packet. -/
structure PacketDesc where
  igmpType : IgmpType
  ingressPortId : Nat
  daMac : Mac
  saMac : Mac
  cVlan : Nat
  destIp : Nat
  srcIp : Nat
  igmpGroupAdress : Nat
deriving DecidableEq, Repr

/-- `mcInput` derives the group MAC from the address. -/
def PacketDesc.igmpGroupMac (desc : PacketDesc) : Mac := clMcMacGetByMcIp desc.igmpGroupAdress

def PacketDesc.groupKey (desc : PacketDesc) : GroupKey :=
  ⟨desc.ingressPortId, desc.igmpGroupMac, desc.igmpGroupAdress, desc.cVlan⟩

def PacketDesc.hostKey (desc : PacketDesc) : HostKey := ⟨desc.saMac, desc.srcIp⟩

/-- What the environment grants while a call runs: entries the switch takes, memory for a
group, a host and a descriptor, a timer of the pool. -/
structure Env where
  takes : SwitchEntry → Bool
  groupNode : Bool
  hostNode : Bool
  leaveDesc : Bool
  leaveTimer : Bool

/-! ### Reports -/

def isHostPort (board : Board) (portId : Nat) : Bool :=
  decide (1 ≤ portId) && decide (portId ≤ board.numOfPorts)

/-- The checks that `mcSnoopingJoinAction` and `mcCtcJoinAction` make first. -/
def joinChecks (board : Board) (desc : PacketDesc) : Bool :=
  isHostPort board desc.ingressPortId &&
    decide (desc.igmpGroupAdress &&& 0xe0000000 = 0xe0000000) &&
    decide (desc.igmpGroupAdress = desc.destIp) &&
    decide (clMcMacGetByMcIp desc.igmpGroupAdress = desc.daMac)

/-- The host of a report: added when it is new, its aging time and report flag set. -/
def joinHost (control : McControl) (hostNode : Bool) (k : HostKey) (group : Group) : Group :=
  let refresh := hostModify control.hostBitmap k fun host =>
    { host with hostAgingTime := control.hostAgingTime, isLastReportRecevied := true }
  match mcHostListGet control.hostBitmap group k with
  | some _ => refresh group
  | none =>
    if hostNode then
      refresh { group with hostList := newHost control.hostBitmap k :: group.hostList }
    else group

/-- `mcSnoopingJoinAction`. -/
def mcSnoopingJoinAction (board : Board) (env : Env) (desc : PacketDesc) (t : Tables) : Tables :=
  let joined := fun t : Tables =>
    groupModify t desc.groupKey (joinHost t.control env.hostNode desc.hostKey)
  if joinChecks board desc then
    match mcGroupListGet t desc.groupKey with
    | some _ => joined t
    | none =>
      if mcGroupNumPerPort t desc.ingressPortId = t.control.maxGroupNum desc.ingressPortId then t
      else joined (odmMcGroupAdd board env.takes env.groupNode t desc.groupKey .learning).2
  else t

/-- `mcCtcJoinAction`: groups are configured, a report only refreshes them. -/
def mcCtcJoinAction (board : Board) (desc : PacketDesc) (t : Tables) : Tables :=
  if joinChecks board desc then
    groupModify t desc.groupKey fun group =>
      { group with hostAgingTime := t.control.hostAgingTime, isLastReportRecevied := true }
  else t

/-! ### What a leave is about -/

/-- The two control modes that have leaves of their own. -/
inductive LeaveKind where
  | snooping
  | ctc
deriving DecidableEq, Repr

/-- Report and timer flag of what leaves: a host of a group, or in CTC mode the group. -/
structure LeaveTarget where
  isLastReportRecevied : Bool
  isNonFastLeaveTimerStart : Bool
deriving DecidableEq, Repr

def Host.target (host : Host) : LeaveTarget :=
  ⟨host.isLastReportRecevied, host.isNonFastLeaveTimerStart⟩

def Group.target (group : Group) : LeaveTarget :=
  ⟨group.isLastReportRecevied, group.isNonFastLeaveTimerStart⟩

def leaveTarget (kind : LeaveKind) (t : Tables) (desc : PacketDesc) : Option LeaveTarget :=
  match mcGroupListGet t desc.groupKey with
  | none => none
  | some group =>
    match kind with
    | .snooping => (mcHostListGet t.control.hostBitmap group desc.hostKey).map Host.target
    | .ctc => some group.target

/-- A write to the two flags of what leaves. -/
def targetModify (kind : LeaveKind) (t : Tables) (desc : PacketDesc)
    (f : LeaveTarget → LeaveTarget) : Tables :=
  match kind with
  | .snooping => groupModify t desc.groupKey <| hostModify t.control.hostBitmap desc.hostKey
      fun host => { host with
        isLastReportRecevied := (f host.target).isLastReportRecevied
        isNonFastLeaveTimerStart := (f host.target).isNonFastLeaveTimerStart }
  | .ctc => groupModify t desc.groupKey fun group => { group with
        isLastReportRecevied := (f group.target).isLastReportRecevied
        isNonFastLeaveTimerStart := (f group.target).isNonFastLeaveTimerStart }

/-- The group is deleted when it has no host. -/
def deleteIfEmpty (board : Board) (takes : SwitchEntry → Bool) (t : Tables) (k : GroupKey) :
    Tables :=
  if mcGroupListHostListEmpty t k then (odmMcGroupDel board takes t k).2 else t

/-- What a leave removes: the host and, when it was the last one, the group; in CTC mode
the group. -/
def removeTarget (board : Board) (takes : SwitchEntry → Bool) (kind : LeaveKind) (t : Tables)
    (desc : PacketDesc) : Tables :=
  match mcGroupListGet t desc.groupKey with
  | none => t
  | some group =>
    match kind with
    | .snooping =>
      match mcHostListGet t.control.hostBitmap group desc.hostKey with
      | none => t
      | some host => deleteIfEmpty board takes
          (groupModify t desc.groupKey (mcHostListDel t.control.hostBitmap host.toHostKey))
          group.toGroupKey
    | .ctc => deleteIfEmpty board takes t group.toGroupKey

/-! ### State -/

/-- The copy of a descriptor that a leave in progress owns, and its timer. -/
structure LeaveDesc where
  kind : LeaveKind
  desc : PacketDesc
  interval : Nat
  timer : Bool
deriving DecidableEq, Repr

/-- What happened: a leave was opened, a report was taken, a group-specific query was
sent for a leave. -/
inductive Mark where
  | opened (d : Nat)
  | report (kind : LeaveKind) (desc : PacketDesc)
  | query (d : Nat)
deriving DecidableEq, Repr

/-- `descs` are the descriptors on the heap, by the number of their allocation; `i` the
static counters of the two routines; `callback` the call of `mcTimerMsgSend` that the
timer task is about to make.  `freed` lists the descriptors freed, `stale` says that a
message was handled after its descriptor was freed, `marks` what happened, newest first. -/
structure McState where
  tables : Tables
  i : LeaveKind → Nat
  descs : Nat → Option LeaveDesc
  next : Nat
  callback : Option (LeaveKind × Nat)
  queue : List (LeaveKind × Nat)
  freed : List Nat
  stale : Bool
  marks : List Mark

/-! ### Leaves -/

/-- `01:00:5e:00:00:02`. -/
def allRoutersMac : Mac := [0x01, 0x00, 0x5e, 0x0, 0x0, 0x02]

/-- `MULTICAST_ALL_ROUTERS_GROUP`, 224.0.0.2. -/
def multicastAllRoutersGroup : Nat := 0xe0000002

/-- The checks that `mcSnoopingLeaveAction` and `mcCtcLeaveAction` make first. -/
def leaveChecks (board : Board) (desc : PacketDesc) : Bool :=
  isHostPort board desc.ingressPortId && decide (desc.daMac = allRoutersMac) &&
    decide (desc.igmpGroupAdress &&& 0xe0000000 = 0xe0000000) &&
    decide (multicastAllRoutersGroup = desc.destIp)

/-- The descriptor and the timer of a leave.  The flag is set before either is there. -/
def openLeave (env : Env) (kind : LeaveKind) (desc : PacketDesc) (s : McState) : McState :=
  let flagged := targetModify kind s.tables desc fun target =>
    { target with isNonFastLeaveTimerStart := true }
  if env.leaveDesc then
    { s with
      tables := targetModify kind flagged desc fun target =>
        { target with isLastReportRecevied := false }
      descs := Function.update s.descs s.next
        (some ⟨kind, desc, s.tables.control.lastQueryInterval, env.leaveTimer⟩)
      next := s.next + 1
      marks := .opened s.next :: s.marks }
  else { s with tables := flagged }

/-- A leave, for both modes. -/
def leaveAction (board : Board) (env : Env) (kind : LeaveKind) (desc : PacketDesc) (s : McState) :
    McState :=
  if leaveChecks board desc then
    match leaveTarget kind s.tables desc with
    | none => s
    | some target =>
      match s.tables.control.leaveMode with
      | .fast => { s with tables := removeTarget board env.takes kind s.tables desc }
      | .nonFastLeave =>
        if target.isNonFastLeaveTimerStart then s else openLeave env kind desc s
  else s

def mcSnoopingLeaveAction (board : Board) (env : Env) (desc : PacketDesc) (s : McState) : McState :=
  leaveAction board env .snooping desc s

def mcCtcLeaveAction (board : Board) (env : Env) (desc : PacketDesc) (s : McState) : McState :=
  leaveAction board env .ctc desc s

/-- A report, recorded when it passed the checks. -/
def joinAction (board : Board) (env : Env) (kind : LeaveKind) (desc : PacketDesc) (s : McState) :
    McState :=
  if joinChecks board desc then
    { s with
      tables :=
        match kind with
        | .snooping => mcSnoopingJoinAction board env desc s.tables
        | .ctc => mcCtcJoinAction board desc s.tables
      marks := .report kind desc :: s.marks }
  else s

/-- `mcSnoopingInput`; a query changes no table. -/
def mcSnoopingInput (board : Board) (env : Env) (desc : PacketDesc) (s : McState) : McState :=
  match desc.igmpType with
  | .v1Report | .v2Report => joinAction board env .snooping desc s
  | .v2Leave => mcSnoopingLeaveAction board env desc s
  | .generalQuery | .other => s

/-- `mcCtcInput`. -/
def mcCtcInput (board : Board) (env : Env) (desc : PacketDesc) (s : McState) : McState :=
  match desc.igmpType with
  | .v1Report | .v2Report => joinAction board env .ctc desc s
  | .v2Leave => mcCtcLeaveAction board env desc s
  | .generalQuery | .other => s

/-- `mcInput`, from the switch on the mode. -/
def mcInput (board : Board) (env : Env) (desc : PacketDesc) (s : McState) : McState :=
  match s.tables.control.mcMode with
  | .snooping => mcSnoopingInput board env desc s
  | .ctc => mcCtcInput board env desc s
  | _ => s

/-! ### The timer task and the message thread -/

/-- The timer task picks a running leave timer; a timer started for less than a tick is
never due. -/
def fireTimer (d : Nat) (s : McState) : McState :=
  match s.callback, s.descs d with
  | none, some ld =>
    if ld.timer && decide (Vos.timerGranularity ≤ ld.interval) then
      { s with callback := some (ld.kind, d) }
    else s
  | _, _ => s

/-- `mcTimerMsgSend`, called by the timer task. -/
def mcTimerMsgSend (s : McState) : McState :=
  match s.callback with
  | none => s
  | some msg => { s with callback := none, queue := s.queue ++ [msg] }

/-- `kill_timer`: the counter starts over, the timer is cancelled, the descriptor freed. -/
def killTimer (kind : LeaveKind) (d : Nat) (s : McState) : McState :=
  { s with
    i := Function.update s.i kind 0
    descs := Function.update s.descs d none
    freed := d :: s.freed }

/-- A message of a leave in progress, for both modes. -/
def nonFastLeaveAction (board : Board) (takes : SwitchEntry → Bool) (kind : LeaveKind) (d : Nat)
    (desc : PacketDesc) (s : McState) : McState :=
  let i := (s.i kind + 1) % 2 ^ 32
  let s := { s with i := Function.update s.i kind i }
  let limit := (s.tables.control.lastQueryCount + 1) % 2 ^ 32
  let keep := fun s : McState => { s with
    tables := targetModify kind s.tables desc fun target =>
      { target with isNonFastLeaveTimerStart := false } }
  match leaveTarget kind s.tables desc with
  | none => killTimer kind d s
  | some target =>
    if i < limit then
      if target.isLastReportRecevied then killTimer kind d (keep s)
      else { s with marks := .query d :: s.marks }
    else if i = limit then
      if target.isLastReportRecevied then killTimer kind d (keep s)
      else killTimer kind d { s with tables := removeTarget board takes kind s.tables desc }
    else killTimer kind d s

def mcSnoopingNonFastLeaveAction (board : Board) (takes : SwitchEntry → Bool) (d : Nat)
    (desc : PacketDesc) (s : McState) : McState :=
  nonFastLeaveAction board takes .snooping d desc s

def mcCtcNonFastLeaveAction (board : Board) (takes : SwitchEntry → Bool) (d : Nat)
    (desc : PacketDesc) (s : McState) : McState :=
  nonFastLeaveAction board takes .ctc d desc s

/-- `mcTimerMsgThread` takes the next leave message.  Nothing is said about what follows
the use of a descriptor that was freed. -/
def mcTimerMsgThread (board : Board) (takes : SwitchEntry → Bool) (s : McState) : McState :=
  match s.queue with
  | [] => s
  | (msgType, d) :: queue =>
    let s := { s with queue := queue }
    match s.descs d, msgType with
    | none, _ => { s with stale := true }
    | some ld, .snooping => mcSnoopingNonFastLeaveAction board takes d ld.desc s
    | some ld, .ctc => mcCtcNonFastLeaveAction board takes d ld.desc s

/-! ### Aging -/

/-- One host of the list that is being aged: removed at zero, else a second older. -/
def ageHost (hostBitmap : HostBitmap) (group : Group) (hnode : Host) : Group :=
  if hnode.hostAgingTime = 0 then mcHostListDel hostBitmap hnode.toHostKey group
  else { group with
    hostList := updateFirst (· = hnode)
      (fun host => { host with hostAgingTime := host.hostAgingTime - 1 }) group.hostList }

/-- One group: its hosts one by one, and the group when the last of them was removed. -/
def ageGroup (board : Board) (takes : SwitchEntry → Bool) (t : Tables) (node : Group) : Tables :=
  let aged := node.hostList.foldl (ageHost t.control.hostBitmap) node
  if node.hostList.any (·.hostAgingTime = 0) && aged.hostList.isEmpty then
    (odmMcGroupDel board takes
      { t with mcGroupList := updateFirst (· = node) (fun _ => aged) t.mcGroupList }
      node.toGroupKey).2
  else { t with mcGroupList := updateFirst (· = node) (fun _ => aged) t.mcGroupList }

def mcHostAgingTimerSnoopingHandler (board : Board) (takes : SwitchEntry → Bool) (t : Tables) :
    Tables :=
  if t.control.hostAgingTime = 0 then t
  else t.mcGroupList.foldl (ageGroup board takes) t

/-! ### Management -/

/-- A MAC parameter read as an address: `*(uint32 *)&mac[2]`. -/
def addressOfMac (mac : Mac) : Nat := (mac.drop 2).foldl (fun a b => a * 256 + b) 0

/-- The group key of a control entry. -/
def entryKey (ctcControlType : CtcControlType) (portId vlanId : Nat) (mac : Mac) :
    Option GroupKey :=
  match ctcControlType with
  | .gdaMac | .gdaMacVid => some ⟨portId, mac, 0, vlanId⟩
  | .gdaIpVid => some ⟨portId, zeroMac, addressOfMac mac, vlanId⟩
  | .gdaSaMac => none

/-- The control types whose entries bring their VLAN with them. -/
def CtcControlType.withVlan : CtcControlType → Bool
  | .gdaMacVid | .gdaIpVid => true
  | .gdaMac | .gdaSaMac => false

def hostPorts (board : Board) : List Nat := List.range' 1 board.numOfPorts

/-- `odmMulticastVlanAdd`, for a port or for all of them (255). -/
def odmMulticastVlanAdd (board : Board) (t : Tables) (portId vlanId : Nat) : Tables :=
  let ports := (hostPorts board).filter fun i => portId = 255 || i = portId
  { t with vlans := ports.foldl (fun vlans i => (odmMcVlanMapAdd vlans i vlanId).2) t.vlans }

/-- The address that the entries of a VLAN are dropped by, read back from a control entry. -/
def entryMac (control : McControl) (group : Group) : Mac :=
  match control.mcMode, control.ctcControlType with
  | .snooping, .gdaMac | .snooping, .gdaMacVid => clMcMacGetByMcIp (addressOfMac group.groupMac)
  | .snooping, _ => clMcMacGetByMcIp group.groupAddress
  | _, _ => group.groupMac

/-- `odmMulticastVlanDelete`.  The one-port board also drops the entries that the listed
groups have in the VLAN. -/
def odmMulticastVlanDelete (board : Board) (takes : SwitchEntry → Bool) (t : Tables)
    (portId vlanId : Nat) : Tables :=
  let dropped := t.mcGroupList.map fun group =>
    (⟨portId, .mac (entryMac t.control group), vlanId⟩ : SwitchEntry)
  let drops : Bool := decide (board = .onu1Port) &&
    (decide (t.control.mcMode = .snooping) ||
      (decide (t.control.mcMode = .ctc) && decide (t.control.ctcControlType = .gdaMac)))
  if mcVlanMapExist t.vlans portId vlanId then
    { t with
      vlans := (odmMcVlanMapDel t.vlans portId vlanId).2
      switch := fun e => t.switch e && !(drops && decide (e ∈ dropped) && takes e) }
  else t

/-- `odmMulticastControlEntryAdd`. -/
def odmMulticastControlEntryAdd (board : Board) (env : Env) (t : Tables) (portId vlanId : Nat)
    (mac : Mac) : OplStatus × Tables :=
  if t.control.mcMode ≠ .ctc then (.error, t)
  else
    let added : OplStatus × Tables :=
      match entryKey t.control.ctcControlType portId vlanId mac with
      | none => (.ok, t)
      | some k => odmMcGroupAdd board env.takes env.groupNode t k .configByOam
    match added with
    | (.ok, t) =>
      if t.control.ctcControlType.withVlan then (.ok, odmMulticastVlanAdd board t portId vlanId)
      else (.ok, t)
    | failed => failed

/-- `odmMulticastControlEntryDelete`; it reports an error even when it is done. -/
def odmMulticastControlEntryDelete (board : Board) (takes : SwitchEntry → Bool) (t : Tables)
    (portId vlanId : Nat) (mac : Mac) : OplStatus × Tables :=
  if t.control.mcMode ≠ .ctc then (.error, t)
  else
    match (entryKey t.control.ctcControlType portId vlanId mac).bind (mcGroupListGet t) with
    | none => (.error, t)
    | some group =>
      let t := deleteIfEmpty board takes t group.toGroupKey
      if t.control.ctcControlType.withVlan &&
          !t.mcGroupList.any (fun g => g.hostPortId = portId && g.mcVlan = vlanId) then
        (.error, odmMulticastVlanDelete board takes t portId vlanId)
      else (.error, t)

/-- The restart-from-head loop: the first group that meets `p` is deleted, at most `n`
times, until a deletion fails. -/
def deleteGroups (board : Board) (takes : SwitchEntry → Bool) (p : Group → Bool) :
    Nat → Tables → OplStatus × Tables
  | 0, t => (.ok, t)
  | n + 1, t =>
    match t.mcGroupList.find? p with
    | none => (.ok, t)
    | some group =>
      match odmMcGroupDel board takes t group.toGroupKey with
      | (.ok, t) => deleteGroups board takes p n t
      | failed => failed

/-- `odmMulticastControlEntryDeleteByVlan`. -/
def odmMulticastControlEntryDeleteByVlan (board : Board) (takes : SwitchEntry → Bool) (t : Tables)
    (vlanId : Nat) : OplStatus × Tables :=
  match deleteGroups board takes (·.mcVlan = vlanId) t.mcGroupList.length t with
  | (.ok, t) =>
    if t.control.ctcControlType.withVlan then
      (.ok, (hostPorts board).foldl
        (fun t i => odmMulticastVlanDelete board takes t i vlanId) t)
    else (.ok, t)
  | failed => failed

/-- `odmMulticastControlEntryNumSet`. -/
def odmMulticastControlEntryNumSet (board : Board) (takes : SwitchEntry → Bool) (t : Tables)
    (portId num : Nat) : OplStatus × Tables :=
  if isHostPort board portId then
    deleteGroups board takes (·.hostPortId = portId) (mcGroupNumPerPort t portId - num) t
  else (.error, t)

/-- `odmMulticastVlanClear` for one port. -/
def odmMulticastVlanClear (vlans : VlanState) (portId : Nat) : VlanState :=
  ((List.range' 1 4095).filter fun j => mcVlanMapExist vlans portId j).foldl
    (fun vlans j => (odmMcVlanMapDel vlans portId j).2) vlans

/-- `odmMulticastControlEntryClear`.  The rules of the one-port board go at once. -/
def odmMulticastControlEntryClear (board : Board) (takes : SwitchEntry → Bool) (t : Tables) :
    Tables :=
  let ruleDelAll := { t with
    switch := fun e => t.switch e && !(decide (board = .onu1Port) && takes e) }
  let t := t.mcGroupList.foldl
    (fun t group => dalMcGroupDel board takes t group.toGroupKey) ruleDelAll
  { t with
    mcGroupList := []
    vlans := if t.control.ctcControlType.withVlan then
        (hostPorts board).foldl odmMulticastVlanClear t.vlans
      else t.vlans }

/-- `odmMulticastSwitchSet`, with `mcModeSwitch`. -/
def odmMulticastSwitchSet (board : Board) (takes : SwitchEntry → Bool) (t : Tables)
    (mcMode : McMode) : Tables :=
  if t.control.mcMode = mcMode then t
  else
    let t := odmMulticastControlEntryClear board takes
      { t with control := { t.control with mcMode := mcMode } }
    { t with vlans := (hostPorts board).foldl odmMulticastVlanClear t.vlans }

/-- `odmMcControlBlockCtcControlTypeSet`. -/
def odmMcControlBlockCtcControlTypeSet (board : Board) (takes : SwitchEntry → Bool) (t : Tables)
    (ctcControlType : CtcControlType) : Tables :=
  if ctcControlType = t.control.ctcControlType then t
  else
    let t := odmMulticastControlEntryClear board takes t
    { t with control := { t.control with
        ctcControlType := ctcControlType
        bitmap := ctcControlType.bitmap } }

/-- `odmMulticastHostAgingTimeSet`. -/
def odmMulticastHostAgingTimeSet (t : Tables) (hostAgingTime : Nat) : Tables :=
  if t.control.mcMode ≠ .snooping then t
  else { t with
    control := { t.control with hostAgingTime := hostAgingTime }
    mcGroupList := t.mcGroupList.map fun group => { group with
      hostList := group.hostList.map fun host => { host with hostAgingTime := hostAgingTime } } }

/-- `odmMcControlBlockMaxGroupNumSet`. -/
def odmMcControlBlockMaxGroupNumSet (board : Board) (takes : SwitchEntry → Bool) (t : Tables)
    (portId maxGroup : Nat) : Tables :=
  let t := { t with control := { t.control with
    maxGroupNum := Function.update t.control.maxGroupNum portId maxGroup } }
  (odmMulticastControlEntryNumSet board takes t portId maxGroup).2

/-! ### Runs -/

/-- What a thread does next. -/
inductive McEvent where
  | packet (env : Env) (desc : PacketDesc)
  | fire (d : Nat)
  | send
  | handle (takes : SwitchEntry → Bool)
  | age (takes : SwitchEntry → Bool)
  | entryAdd (env : Env) (portId vlanId : Nat) (mac : Mac)
  | entryDelete (takes : SwitchEntry → Bool) (portId vlanId : Nat) (mac : Mac)
  | entryDeleteByVlan (takes : SwitchEntry → Bool) (vlanId : Nat)
  | entryClear (takes : SwitchEntry → Bool)
  | maxGroupNumSet (takes : SwitchEntry → Bool) (portId maxGroup : Nat)
  | switchSet (takes : SwitchEntry → Bool) (mcMode : McMode)
  | controlTypeSet (takes : SwitchEntry → Bool) (ctcControlType : CtcControlType)
  | leaveModeSet (leaveMode : LeaveMode)
  | hostAgingTimeSet (hostAgingTime : Nat)
  | lastQueryIntervalSet (lastQueryInterval : Nat)
  | lastQueryCountSet (lastQueryCount : Nat)

def onTables (f : Tables → Tables) (s : McState) : McState := { s with tables := f s.tables }

def onControl (f : McControl → McControl) (s : McState) : McState :=
  onTables (fun t => { t with control := f t.control }) s

def mcStep (board : Board) (s : McState) : McEvent → McState
  | .packet env desc => mcInput board env desc s
  | .fire d => fireTimer d s
  | .send => mcTimerMsgSend s
  | .handle takes => mcTimerMsgThread board takes s
  | .age takes => onTables (mcHostAgingTimerSnoopingHandler board takes) s
  | .entryAdd env portId vlanId mac =>
    onTables (fun t => (odmMulticastControlEntryAdd board env t portId vlanId mac).2) s
  | .entryDelete takes portId vlanId mac =>
    onTables (fun t => (odmMulticastControlEntryDelete board takes t portId vlanId mac).2) s
  | .entryDeleteByVlan takes vlanId =>
    onTables (fun t => (odmMulticastControlEntryDeleteByVlan board takes t vlanId).2) s
  | .entryClear takes => onTables (odmMulticastControlEntryClear board takes) s
  | .maxGroupNumSet takes portId maxGroup =>
    onTables (fun t => odmMcControlBlockMaxGroupNumSet board takes t portId maxGroup) s
  | .switchSet takes mcMode => onTables (fun t => odmMulticastSwitchSet board takes t mcMode) s
  | .controlTypeSet takes ctcControlType =>
    onTables (fun t => odmMcControlBlockCtcControlTypeSet board takes t ctcControlType) s
  | .leaveModeSet leaveMode => onControl (fun c => { c with leaveMode := leaveMode }) s
  | .hostAgingTimeSet hostAgingTime =>
    onTables (fun t => odmMulticastHostAgingTimeSet t (hostAgingTime % 2 ^ 32)) s
  | .lastQueryIntervalSet lastQueryInterval =>
    onControl (fun c => { c with lastQueryInterval := lastQueryInterval % 2 ^ 32 }) s
  | .lastQueryCountSet lastQueryCount =>
    onControl (fun c => { c with lastQueryCount := lastQueryCount % 2 ^ 32 }) s

/-- The settings a start reads from the configuration. -/
structure McConfig where
  mcMode : McMode
  leaveMode : LeaveMode
  ctcControlType : CtcControlType
  hostAgingTime : Nat
  lastQueryInterval : Nat
  lastQueryCount : Nat
  maxGroupNum : Nat → Nat

/-- The defaults of `mcControlBlockInit`. -/
def mcConfigDefault : McConfig where
  mcMode := .snooping
  leaveMode := .fast
  ctcControlType := .gdaIpVid
  hostAgingTime := 260
  lastQueryInterval := 1000
  lastQueryCount := 2
  maxGroupNum := fun _ => 8

/-- `mcControlBlockInit` and `mcInitFromConfigFile`: snooping searches by address whatever
the control type. -/
def mcControlInit (c : McConfig) : McControl where
  mcMode := c.mcMode
  leaveMode := c.leaveMode
  ctcControlType := c.ctcControlType
  bitmap := if c.mcMode = .ctc then c.ctcControlType.bitmap else CtcControlType.gdaIpVid.bitmap
  hostBitmap := if c.mcMode = .ctc then ⟨false, false⟩ else ⟨true, false⟩
  hostAgingTime := c.hostAgingTime % 2 ^ 32
  lastQueryInterval := c.lastQueryInterval % 2 ^ 32
  lastQueryCount := c.lastQueryCount % 2 ^ 32
  maxGroupNum := c.maxGroupNum

/-- The state after a start, with any multicast VLANs. -/
def mcInit (c : McConfig) (vlans : VlanState) : McState where
  tables :=
    { control := mcControlInit c, mcGroupList := [], vlans := vlans, switch := fun _ => false }
  i := fun _ => 0
  descs := fun _ => none
  next := 0
  callback := none
  queue := []
  freed := []
  stale := false
  marks := []

/-! ### Packets of a host -/

/-- A well-formed report for a group, untagged. -/
def reportFrom (portId srcIp group : Nat) : PacketDesc where
  igmpType := .v2Report
  ingressPortId := portId
  daMac := clMcMacGetByMcIp group
  saMac := zeroMac
  cVlan := 0
  destIp := group
  srcIp := srcIp
  igmpGroupAdress := group

/-- A well-formed leave of a group, untagged. -/
def leaveFrom (portId srcIp group : Nat) : PacketDesc where
  igmpType := .v2Leave
  ingressPortId := portId
  daMac := allRoutersMac
  saMac := zeroMac
  cVlan := 0
  destIp := multicastAllRoutersGroup
  srcIp := srcIp
  igmpGroupAdress := group

/-- An environment that grants everything. -/
def Env.granting : Env := ⟨fun _ => true, true, true, true, true⟩

end Opconn.Multicast
