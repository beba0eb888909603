import Mathlib.Algebra.GroupWithZero.Nat
import Opconn.Multicast.ForwardingTable
import Opconn.Multicast.GroupEntries
import Opconn.Multicast.LeaveDescriptors

/-!
# What the multicast module allocates and frees

The module counts its allocations and its frees in `mcControlStats`, so that their
difference should be the number of objects it holds: the packets in flight, the groups,
the hosts of the groups and the descriptors of the leaves in progress.  Each function
that allocates or frees is counted beside its model, at the places the source counts; an
allocation that fails is counted too.  A host goes before its group on every path but
one: `mcGroupListDel` frees the node of a group and forgets the hosts it lists, and
`odmMulticastControlEntryNumSet` and `odmMulticastControlEntryDeleteByVlan` call it for
groups whose hosts are still there.
-/

namespace Opconn.Multicast

open FirstMatch List Runs

variable {board : Board}

/-! ### Lists -/

/-- `memAllocCount` in `mcGroupListAdd`, which counts before it looks at the pointer. -/
def mcGroupListAddAllocs (t : Tables) (k : GroupKey) : Nat :=
  if (mcGroupListGet t k).isNone then 1 else 0

/-- `memfreeCount` in `mcGroupListDel`: the node of the group, not its hosts. -/
def mcGroupListDelFrees (t : Tables) (k : GroupKey) : Nat :=
  if (mcGroupListGet t k).isSome then 1 else 0

/-- `memAllocCount` in `mcHostListAdd`. -/
def mcHostListAddAllocs (hostBitmap : HostBitmap) (k : HostKey) (group : Group) : Nat :=
  if (mcHostListGet hostBitmap group k).isNone then 1 else 0

/-- `memfreeCount` in `mcHostListDel`. -/
def mcHostListDelFrees (hostBitmap : HostBitmap) (k : HostKey) (group : Group) : Nat :=
  if (mcHostListGet hostBitmap group k).isSome then 1 else 0

/-- `memfreeCount` in `mcGroupListDestory`: for each group its hosts, then its node. -/
def mcGroupListDestoryFrees (t : Tables) : Nat :=
  (t.mcGroupList.map fun group => group.hostList.length + 1).sum

/-! ### Reports and leaves -/

/-- The group that a report of the snooping mode is about to add. -/
def joinAddsGroup (board : Board) (desc : PacketDesc) (t : Tables) : Bool :=
  joinChecks board desc && (mcGroupListGet t desc.groupKey).isNone &&
    decide (mcGroupNumPerPort t desc.ingressPortId ≠ t.control.maxGroupNum desc.ingressPortId)

/-- The tables in which `mcSnoopingJoinAction` looks for the host. -/
def joinGroupTables (board : Board) (env : Env) (desc : PacketDesc) (t : Tables) : Tables :=
  if joinAddsGroup board desc t then
    (odmMcGroupAdd board env.takes env.groupNode t desc.groupKey .learning).2
  else t

/-- `memAllocCount` in `mcSnoopingJoinAction`, for the host. -/
def joinHostAllocs (board : Board) (env : Env) (desc : PacketDesc) (t : Tables) : Nat :=
  if joinChecks board desc then
    match mcGroupListGet (joinGroupTables board env desc t) desc.groupKey with
    | none => 0
    | some group => mcHostListAddAllocs t.control.hostBitmap desc.hostKey group
  else 0

/-- `memAllocCount` in `mcSnoopingJoinAction`. -/
def mcSnoopingJoinAllocs (board : Board) (env : Env) (desc : PacketDesc) (t : Tables) : Nat :=
  (if joinAddsGroup board desc t then mcGroupListAddAllocs t desc.groupKey else 0) +
    joinHostAllocs board env desc t

def deleteIfEmptyFrees (t : Tables) (k : GroupKey) : Nat :=
  if mcGroupListHostListEmpty t k then mcGroupListDelFrees t k else 0

def removeTargetFrees (kind : LeaveKind) (t : Tables) (desc : PacketDesc) : Nat :=
  match mcGroupListGet t desc.groupKey with
  | none => 0
  | some group =>
    match kind with
    | .snooping =>
      match mcHostListGet t.control.hostBitmap group desc.hostKey with
      | none => 0
      | some host => mcHostListDelFrees t.control.hostBitmap host.toHostKey group +
          deleteIfEmptyFrees
            (groupModify t desc.groupKey (mcHostListDel t.control.hostBitmap host.toHostKey))
            group.toGroupKey
    | .ctc => deleteIfEmptyFrees t group.toGroupKey

/-- `memAllocCount` while `mcInput` handles a packet: the copy of the packet, group and host
of a report, the descriptor of a leave that is not fast. -/
def mcInputAllocs (board : Board) (env : Env) (desc : PacketDesc) (s : McState) : Nat :=
  1 + (if s.tables.control.mcMode = .snooping && isReport desc then
      mcSnoopingJoinAllocs board env desc s.tables else 0) +
    if opensLeave board desc s then 1 else 0

/-- `memfreeCount` while `mcInput` handles a packet: what a fast leave removes, and the copy
unless a leave in progress keeps it. -/
def mcInputFrees (board : Board) (env : Env) (desc : PacketDesc) (s : McState) : Nat :=
  (match s.tables.control.mcMode.leaveKind with
    | none => 0
    | some kind => if leavesFast board desc s then removeTargetFrees kind s.tables desc else 0) +
    if opensLeave board desc s && env.leaveDesc then 0 else 1

/-- `memfreeCount` in `kill_timer`: the packet of the leave and its descriptor. -/
def killTimerFrees : Nat := 2

/-- `memfreeCount` while a leave message is handled. -/
def nonFastLeaveFrees (kind : LeaveKind) (desc : PacketDesc) (s : McState) : Nat :=
  match leaveTarget kind s.tables desc with
  | none => killTimerFrees
  | some target =>
    if nextCount s kind < queryLimit s then
      if target.isLastReportRecevied then killTimerFrees else 0
    else if nextCount s kind = queryLimit s then
      if target.isLastReportRecevied then killTimerFrees
      else removeTargetFrees kind s.tables desc + killTimerFrees
    else killTimerFrees

/-- `memfreeCount` in `mcTimerMsgThread`; nothing is said about a descriptor that was freed. -/
def mcTimerMsgFrees (s : McState) : Nat :=
  match s.queue with
  | [] => 0
  | (kind, d) :: _ =>
    match s.descs d with
    | none => 0
    | some ld => nonFastLeaveFrees kind ld.desc s

/-! ### Aging and management -/

def ageHostFrees (hostBitmap : HostBitmap) (group : Group) (hnode : Host) : Nat :=
  if hnode.hostAgingTime = 0 then mcHostListDelFrees hostBitmap hnode.toHostKey group else 0

def ageGroupFrees (t : Tables) (node : Group) : Nat :=
  let aged := node.hostList.foldl (ageHost t.control.hostBitmap) node
  totalCost (ageHost t.control.hostBitmap) (ageHostFrees t.control.hostBitmap) node node.hostList +
    if node.hostList.any (·.hostAgingTime = 0) && aged.hostList.isEmpty then
      mcGroupListDelFrees
        { t with mcGroupList := updateFirst (· = node) (fun _ => aged) t.mcGroupList }
        node.toGroupKey
    else 0

def hostAgingFrees (board : Board) (takes : SwitchEntry → Bool) (t : Tables) : Nat :=
  if t.control.hostAgingTime = 0 then 0
  else totalCost (ageGroup board takes) ageGroupFrees t t.mcGroupList

def controlEntryAddAllocs (t : Tables) (portId vlanId : Nat) (mac : Mac) : Nat :=
  if t.control.mcMode ≠ .ctc then 0
  else
    match entryKey t.control.ctcControlType portId vlanId mac with
    | none => 0
    | some k => mcGroupListAddAllocs t k

def controlEntryDeleteFrees (t : Tables) (portId vlanId : Nat) (mac : Mac) : Nat :=
  if t.control.mcMode ≠ .ctc then 0
  else
    match (entryKey t.control.ctcControlType portId vlanId mac).bind (mcGroupListGet t) with
    | none => 0
    | some group => deleteIfEmptyFrees t group.toGroupKey

def deleteGroupsFrees (board : Board) (takes : SwitchEntry → Bool) (p : Group → Bool) :
    Nat → Tables → Nat
  | 0, _ => 0
  | n + 1, t =>
    match t.mcGroupList.find? p with
    | none => 0
    | some group =>
      mcGroupListDelFrees t group.toGroupKey +
        match odmMcGroupDel board takes t group.toGroupKey with
        | (.ok, t) => deleteGroupsFrees board takes p n t
        | _ => 0

def controlEntryNumFrees (board : Board) (takes : SwitchEntry → Bool) (t : Tables)
    (portId num : Nat) : Nat :=
  if isHostPort board portId then
    deleteGroupsFrees board takes (·.hostPortId = portId) (mcGroupNumPerPort t portId - num) t
  else 0

/-! ### Steps -/

/-- What a step adds to `memAllocCount`. -/
def mcAllocs (board : Board) (s : McState) : McEvent → Nat
  | .packet env desc => mcInputAllocs board env desc s
  | .entryAdd _ portId vlanId mac => controlEntryAddAllocs s.tables portId vlanId mac
  | _ => 0

/-- What a step adds to `memfreeCount`.  The thread that hands `mcInput` a packet frees the
buffer it came in. -/
def mcFrees (board : Board) (s : McState) : McEvent → Nat
  | .packet env desc => mcInputFrees board env desc s + 1
  | .handle _ => mcTimerMsgFrees s
  | .age takes => hostAgingFrees board takes s.tables
  | .entryDelete _ portId vlanId mac => controlEntryDeleteFrees s.tables portId vlanId mac
  | .entryDeleteByVlan takes vlanId =>
    deleteGroupsFrees board takes (·.mcVlan = vlanId) s.tables.mcGroupList.length s.tables
  | .entryClear _ => mcGroupListDestoryFrees s.tables
  | .maxGroupNumSet takes portId maxGroup =>
    controlEntryNumFrees board takes
      { s.tables with control := { s.tables.control with
          maxGroupNum := Function.update s.tables.control.maxGroupNum portId maxGroup } }
      portId maxGroup
  | .switchSet _ mcMode =>
    if s.tables.control.mcMode = mcMode then 0 else mcGroupListDestoryFrees s.tables
  | .controlTypeSet _ ctcControlType =>
    if ctcControlType = s.tables.control.ctcControlType then 0
    else mcGroupListDestoryFrees s.tables
  | _ => 0

/-- The module with the queue of the packets that wait for the IGMP thread, of which only
the number matters, and the two counters. -/
structure MemState where
  mc : McState
  buffers : Nat
  memAllocCount : UInt32
  memfreeCount : UInt32

/-- A packet comes in, is refused by the checks of `mcInput` before or after it is copied,
or is handled; the other threads go on; a limit is set by `odmMulticastControlEntryNumSet`
alone. -/
inductive MemEvent where
  | inputMsgSend (queued : Bool)
  | refused (copied : Bool)
  | mc (e : McEvent)
  | entryNumSet (takes : SwitchEntry → Bool) (portId num : Nat)

def McEvent.isPacket : McEvent → Bool
  | .packet .. => true
  | _ => false

/-- The counters after `allocs` allocations and `frees` frees. -/
def MemState.count (m : MemState) (allocs frees : Nat) : MemState :=
  { m with
    memAllocCount := m.memAllocCount + UInt32.ofNat allocs
    memfreeCount := m.memfreeCount + UInt32.ofNat frees }

/-- `mcInputMsgSend`: the buffer is lost when the queue does not take the message. -/
def mcInputMsgSend (m : MemState) (queued : Bool) : MemState :=
  MemState.count { m with buffers := m.buffers + if queued then 1 else 0 } 1 0

def memStep (board : Board) (m : MemState) : MemEvent → MemState
  | .inputMsgSend queued => mcInputMsgSend m queued
  | .refused copied =>
    if m.buffers = 0 then m
    else
      let copies := if copied then 1 else 0
      MemState.count { m with buffers := m.buffers - 1 } copies (copies + 1)
  | .mc e =>
    if e.isPacket && m.buffers = 0 then m
    else
      MemState.count
        { m with
          mc := mcStep board m.mc e
          buffers := m.buffers - if e.isPacket then 1 else 0 }
        (mcAllocs board m.mc e) (mcFrees board m.mc e)
  | .entryNumSet takes portId num =>
    let set := fun t => (odmMulticastControlEntryNumSet board takes t portId num).2
    MemState.count { m with mc := onTables set m.mc } 0
      (controlEntryNumFrees board takes m.mc.tables portId num)

def memInit (c : McConfig) (vlans : VlanState) : MemState := ⟨mcInit c vlans, 0, 0, 0⟩

/-! ### What is to hold -/

/-- The groups and the hosts they list. -/
def heldObjects (t : Tables) : Nat := (t.mcGroupList.map fun g => g.hostList.length + 1).sum

/-- The descriptors on the heap. -/
def leavesInProgress (s : McState) : Nat :=
  (List.range s.next).countP fun d => (s.descs d).isSome

/-- The live objects of the module.  A leave in progress has a descriptor and a packet. -/
def liveObjects (m : MemState) : Nat :=
  heldObjects m.mc.tables + 2 * leavesInProgress m.mc + m.buffers

/-- **The counters tell the live objects**, in the arithmetic of the counters. -/
def MemoryBalanced (m : MemState) : Prop :=
  m.memAllocCount - m.memfreeCount = UInt32.ofNat (liveObjects m)

/-! ### The condition -/

/-- The allocations that a packet asks for succeed. -/
def packetGranted (board : Board) (env : Env) (desc : PacketDesc) (s : McState) : Prop :=
  (s.tables.control.mcMode = .snooping → isReport desc = true →
    (joinAddsGroup board desc s.tables = true → env.groupNode = true) ∧
      (0 < joinHostAllocs board env desc s.tables → env.hostNode = true)) ∧
    (opensLeave board desc s = true → env.leaveDesc = true)

/-- The groups of a port that are too many for the limit have no host. -/
def surplusHostless (board : Board) (t : Tables) (portId num : Nat) : Prop :=
  isHostPort board portId = true →
    ∀ g ∈ (t.mcGroupList.filter (·.hostPortId = portId)).take (mcGroupNumPerPort t portId - num),
      g.hostList = []

/-- **The condition on a step.**  What is asked for is allocated, the queue takes the
message of a packet, a leave message finds its descriptor on the heap, and the groups that
a new limit or the deletion of a VLAN removes have no host. -/
def memoryKept (board : Board) (m : MemState) : MemEvent → Prop
  | .inputMsgSend queued => queued = true
  | .refused _ => True
  | .entryNumSet _ portId num => surplusHostless board m.mc.tables portId num
  | .mc (.packet env desc) => 0 < m.buffers → packetGranted board env desc m.mc
  | .mc (.entryAdd env portId vlanId mac) =>
    0 < controlEntryAddAllocs m.mc.tables portId vlanId mac → env.groupNode = true
  | .mc (.handle takes) => messageLive m.mc (.handle takes) = true
  | .mc (.entryDeleteByVlan _ vlanId) =>
    ∀ g ∈ m.mc.tables.mcGroupList, g.mcVlan = vlanId → g.hostList = []
  | .mc (.maxGroupNumSet _ portId maxGroup) =>
    surplusHostless board m.mc.tables portId maxGroup
  | .mc _ => True

instance (m : MemState) : Decidable (MemoryBalanced m) :=
  inferInstanceAs (Decidable (m.memAllocCount - m.memfreeCount = _))

instance (board : Board) (env : Env) (desc : PacketDesc) (s : McState) :
    Decidable (packetGranted board env desc s) :=
  inferInstanceAs (Decidable (_ ∧ _))

instance (board : Board) (t : Tables) (portId num : Nat) :
    Decidable (surplusHostless board t portId num) :=
  inferInstanceAs (Decidable (isHostPort board portId = true → _))

instance (board : Board) (m : MemState) : (e : MemEvent) → Decidable (memoryKept board m e)
  | .inputMsgSend queued => inferInstanceAs (Decidable (queued = true))
  | .refused _ => inferInstanceAs (Decidable True)
  | .entryNumSet _ portId num =>
    inferInstanceAs (Decidable (surplusHostless board m.mc.tables portId num))
  | .mc (.packet env desc) =>
    inferInstanceAs (Decidable (0 < m.buffers → packetGranted board env desc m.mc))
  | .mc (.entryAdd env portId vlanId mac) =>
    inferInstanceAs (Decidable
      (0 < controlEntryAddAllocs m.mc.tables portId vlanId mac → env.groupNode = true))
  | .mc (.handle takes) => inferInstanceAs (Decidable (messageLive m.mc (.handle takes) = true))
  | .mc (.entryDeleteByVlan _ vlanId) =>
    inferInstanceAs (Decidable
      (∀ g ∈ m.mc.tables.mcGroupList, g.mcVlan = vlanId → g.hostList = []))
  | .mc (.maxGroupNumSet _ portId maxGroup) =>
    inferInstanceAs (Decidable (surplusHostless board m.mc.tables portId maxGroup))
  | .mc (.fire _) | .mc .send | .mc (.age _) | .mc (.entryDelete ..) | .mc (.entryClear _)
  | .mc (.switchSet ..) | .mc (.controlTypeSet ..) | .mc (.leaveModeSet _)
  | .mc (.hostAgingTimeSet _) | .mc (.lastQueryIntervalSet _) | .mc (.lastQueryCountSet _) =>
    inferInstanceAs (Decidable True)

/-! ### Groups and hosts -/

theorem heldObjects_of_perm {t : Tables} {l : List Group} (h : t.mcGroupList.Perm l) :
    heldObjects t = (l.map fun g => g.hostList.length + 1).sum :=
  (h.map _).sum_nat

/-- Deleting a group takes its node and its hosts from the list, and frees the node. -/
theorem heldObjects_mcGroupListDel (t : Tables) (k : GroupKey) :
    heldObjects (mcGroupListDel t k).2 + mcGroupListDelFrees t k +
        ((mcGroupListGet t k).elim 0 fun g => g.hostList.length) = heldObjects t := by
  unfold mcGroupListDel mcGroupListDelFrees
  cases hget : mcGroupListGet t k with
  | none => rfl
  | some g =>
    rw [heldObjects_of_perm (perm_cons_eraseP hget)]
    simp only [heldObjects, List.map_cons, List.sum_cons, Option.isSome_some, if_true,
      Option.elim_some]
    omega

theorem heldObjects_odmMcGroupDel (takes : SwitchEntry → Bool) (t : Tables) (k : GroupKey) :
    heldObjects (odmMcGroupDel board takes t k).2 + mcGroupListDelFrees t k +
        ((mcGroupListGet t k).elim 0 fun g => g.hostList.length) = heldObjects t :=
  heldObjects_mcGroupListDel (dalMcGroupDel board takes t k) k

/-- A write to a group changes what is held by what it does to the hosts. -/
theorem heldObjects_groupModify (t : Tables) (k : GroupKey) (f : Group → Group) :
    heldObjects (groupModify t k f) + ((mcGroupListGet t k).elim 0 fun g => g.hostList.length) =
      heldObjects t + ((mcGroupListGet t k).elim 0 fun g => (f g).hostList.length) := by
  cases hget : mcGroupListGet t k with
  | none =>
    have hsame : (groupModify t k f).mcGroupList = t.mcGroupList := updateFirst_of_find?_none hget
    simp only [heldObjects, hsame, Option.elim_none]
  | some g =>
    have hperm : (groupModify t k f).mcGroupList.Perm _ := updateFirst_perm hget
    rw [heldObjects_of_perm hperm, heldObjects_of_perm (perm_cons_eraseP hget)]
    simp only [List.map_cons, List.sum_cons, Option.elim_some]
    omega

/-- A group is deleted once its hosts are gone. -/
theorem heldObjects_deleteIfEmpty (takes : SwitchEntry → Bool) (t : Tables) (k : GroupKey) :
    heldObjects (deleteIfEmpty board takes t k) + deleteIfEmptyFrees t k = heldObjects t := by
  unfold deleteIfEmpty deleteIfEmptyFrees
  split
  · rename_i hempty
    have hdel : heldObjects (odmMcGroupDel board takes t k).2 + mcGroupListDelFrees t k + _ =
        heldObjects t := heldObjects_odmMcGroupDel takes t k
    have hhosts : ((mcGroupListGet t k).elim 0 fun g => g.hostList.length) = 0 := by
      unfold mcGroupListHostListEmpty at hempty
      cases hget : mcGroupListGet t k with
      | none => rfl
      | some g =>
        rw [hget] at hempty
        simpa using hempty
    omega
  · rfl

theorem length_mcHostListDel (hostBitmap : HostBitmap) (k : HostKey) (g : Group) :
    (mcHostListDel hostBitmap k g).hostList.length + mcHostListDelFrees hostBitmap k g =
      g.hostList.length := by
  unfold mcHostListDel mcHostListDelFrees
  cases hget : mcHostListGet hostBitmap g k with
  | none =>
    have hnone := List.find?_eq_none.mp hget
    rw [List.eraseP_of_forall_not (fun h hh => hnone h hh)]
    rfl
  | some host =>
    have hlength := (perm_cons_eraseP hget).length_eq
    simpa using hlength.symm

theorem heldObjects_removeTarget (takes : SwitchEntry → Bool) (kind : LeaveKind) (t : Tables)
    (desc : PacketDesc) :
    heldObjects (removeTarget board takes kind t desc) + removeTargetFrees kind t desc =
      heldObjects t := by
  unfold removeTarget removeTargetFrees
  cases hget : mcGroupListGet t desc.groupKey with
  | none => rfl
  | some group =>
    cases kind with
    | ctc => exact heldObjects_deleteIfEmpty takes t group.toGroupKey
    | snooping =>
      simp only
      cases mcHostListGet t.control.hostBitmap group desc.hostKey with
      | none => rfl
      | some host =>
        have hdel : heldObjects (deleteIfEmpty board takes _ _) + _ = _ :=
          heldObjects_deleteIfEmpty takes
            (groupModify t desc.groupKey (mcHostListDel t.control.hostBitmap host.toHostKey))
            group.toGroupKey
        have hmodify := heldObjects_groupModify t desc.groupKey
          (mcHostListDel t.control.hostBitmap host.toHostKey)
        have hhosts := length_mcHostListDel t.control.hostBitmap host.toHostKey group
        simp only [hget, Option.elim_some] at hmodify
        simp only
        omega

/-! ### Groups and hosts that are added -/

theorem heldObjects_mcGroupListAdd {alloc : Bool} {t t' : Tables} {k : GroupKey}
    {state : NodeState} (h : mcGroupListAdd alloc t k state = some t') :
    heldObjects t' = heldObjects t + mcGroupListAddAllocs t k := by
  unfold mcGroupListAdd at h
  unfold mcGroupListAddAllocs
  cases hget : mcGroupListGet t k with
  | some g =>
    simp only [hget, Option.some.injEq] at h
    have hwrite := heldObjects_groupModify t k (groupWrite t.control.bitmap k state)
    subst h
    exact Nat.add_right_cancel hwrite
  | none =>
    simp only [hget] at h
    cases alloc with
    | false => cases h
    | true =>
      simp only [if_true, Option.some.injEq] at h
      subst h
      simp only [heldObjects, List.map_cons, List.sum_cons, groupWrite, zeroGroup, List.length_nil,
        Option.isNone_none, if_true]
      omega

theorem heldObjects_odmMcGroupAdd (takes : SwitchEntry → Bool) {alloc : Bool} (t : Tables)
    (k : GroupKey) (state : NodeState)
    (halloc : 0 < mcGroupListAddAllocs t k → alloc = true) :
    heldObjects (odmMcGroupAdd board takes alloc t k state).2 =
      heldObjects t + mcGroupListAddAllocs t k := by
  unfold odmMcGroupAdd
  have hget : mcGroupListGet (dalMcGroupAdd board takes t k) k = mcGroupListGet t k := rfl
  cases hadd : mcGroupListAdd alloc (dalMcGroupAdd board takes t k) k state with
  | some t' =>
    have hheld := heldObjects_mcGroupListAdd hadd
    simp only [hadd]
    exact hheld
  | none =>
    -- only an allocation that fails adds nothing, and then none was asked for
    simp only [mcGroupListAdd, hget] at hadd
    cases hold : mcGroupListGet t k with
    | some g => simp [hold] at hadd
    | none =>
      have hgranted : alloc = true := halloc (by simp [mcGroupListAddAllocs, hold])
      simp [hold, hgranted] at hadd

theorem control_odmMcGroupAdd (takes : SwitchEntry → Bool) (alloc : Bool) (t : Tables)
    (k : GroupKey) (state : NodeState) :
    (odmMcGroupAdd board takes alloc t k state).2.control = t.control := by
  unfold odmMcGroupAdd
  cases hadd : mcGroupListAdd alloc (dalMcGroupAdd board takes t k) k state with
  | none =>
    simp only [hadd]
    rfl
  | some t' =>
    have hcontrol := control_mcGroupListAdd hadd
    simp only [hadd]
    exact hcontrol

theorem length_joinHost {control : McControl} {hostNode : Bool} {k : HostKey} {g : Group}
    (hnode : 0 < mcHostListAddAllocs control.hostBitmap k g → hostNode = true) :
    (joinHost control hostNode k g).hostList.length =
      g.hostList.length + mcHostListAddAllocs control.hostBitmap k g := by
  unfold joinHost
  unfold mcHostListAddAllocs at hnode ⊢
  cases hget : mcHostListGet control.hostBitmap g k with
  | some host => simp [hostModify, length_updateFirst]
  | none =>
    rw [hget] at hnode
    simp [hostModify, length_updateFirst, hnode]

/-- A report first sees to its group, then to its host. -/
theorem heldObjects_joinAction (env : Env) {desc : PacketDesc} (t : Tables)
    (hchecks : joinChecks board desc = true) :
    heldObjects (mcSnoopingJoinAction board env desc t) =
      heldObjects (groupModify (joinGroupTables board env desc t) desc.groupKey
        (joinHost t.control env.hostNode desc.hostKey)) := by
  unfold mcSnoopingJoinAction joinGroupTables joinAddsGroup
  simp only [hchecks, if_true, Bool.true_and]
  cases hget : mcGroupListGet t desc.groupKey with
  | some g => rfl
  | none =>
    simp only [Option.isNone_none, Bool.true_and, decide_eq_true_eq]
    split
    · rename_i hlimit
      rw [if_neg (by simp [hlimit])]
      have hsame : (groupModify t desc.groupKey
          (joinHost t.control env.hostNode desc.hostKey)).mcGroupList = t.mcGroupList :=
        updateFirst_of_find?_none hget
      simp only [heldObjects, hsame]
    · rw [control_odmMcGroupAdd]

theorem heldObjects_join {env : Env} {desc : PacketDesc} {t : Tables}
    (hchecks : joinChecks board desc = true)
    (hgroup : joinAddsGroup board desc t = true → env.groupNode = true)
    (hhost : 0 < joinHostAllocs board env desc t → env.hostNode = true) :
    heldObjects (mcSnoopingJoinAction board env desc t) =
      heldObjects t + mcSnoopingJoinAllocs board env desc t := by
  rw [heldObjects_joinAction env t hchecks]
  have hgroups : heldObjects (joinGroupTables board env desc t) = heldObjects t +
      if joinAddsGroup board desc t then mcGroupListAddAllocs t desc.groupKey else 0 := by
    unfold joinGroupTables
    split
    · rename_i hadds
      exact heldObjects_odmMcGroupAdd env.takes t _ _ (fun _ => hgroup hadds)
    · rfl
  have hmodify := heldObjects_groupModify (joinGroupTables board env desc t) desc.groupKey
    (joinHost t.control env.hostNode desc.hostKey)
  simp only [joinHostAllocs, hchecks, if_true] at hhost
  simp only [mcSnoopingJoinAllocs, joinHostAllocs, hchecks, if_true]
  cases hget : mcGroupListGet (joinGroupTables board env desc t) desc.groupKey with
  | none =>
    simp only [hget, Option.elim_none] at hmodify
    simp only
    omega
  | some g =>
    rw [hget] at hhost
    have hlength := length_joinHost hhost
    simp only [hget, Option.elim_some] at hmodify
    simp only
    omega

/-! ### Groups that are deleted and aged -/

/-- The loop frees what it takes from the list when the groups it deletes have no host. -/
theorem heldObjects_deleteGroups (takes : SwitchEntry → Bool) (p : Group → Bool) (n : Nat)
    {t : Tables} (h : Keyed t) (hhostless : ∀ g ∈ (t.mcGroupList.filter p).take n, g.hostList = []) :
    heldObjects (deleteGroups board takes p n t).2 + deleteGroupsFrees board takes p n t =
      heldObjects t := by
  induction n generalizing t with
  | zero => rfl
  | succ n ih =>
    unfold deleteGroups deleteGroupsFrees
    cases hfind : t.mcGroupList.find? p with
    | none => rfl
    | some g =>
      obtain ⟨rest, hhead⟩ := List.head?_eq_some_iff.mp (List.head?_filter.trans hfind)
      have hempty : g.hostList = [] := by
        apply hhostless g
        rw [hhead]
        exact List.mem_cons_self ..
      have hdel : heldObjects (odmMcGroupDel board takes t g.toGroupKey).2 + _ + _ =
          heldObjects t := heldObjects_odmMcGroupDel takes t g.toGroupKey
      cases hsa : t.control.bitmap.saMac with
      | true =>
        -- no group answers to the key: the first deletion fails
        have hget : mcGroupListGet t g.toGroupKey = none := get_of_saMac hsa _
        have hfailed : odmMcGroupDel board takes t g.toGroupKey =
            (.notExist, dalMcGroupDel board takes t g.toGroupKey) := by
          have hdal : mcGroupListGet (dalMcGroupDel board takes t g.toGroupKey) g.toGroupKey =
              none := hget
          simp only [odmMcGroupDel, mcGroupListDel, hdal]
        simp only [hfailed, mcGroupListDelFrees, hget, Option.isSome_none]
        rfl
      | false =>
        have hg := List.mem_of_find?_eq_some hfind
        have hget := h.get_of_mem hg (groupMatches_self hsa g)
        have hfilter := filter_eq_cons_of_find? (h.single g.toGroupKey) hfind
          (groupMatches_self hsa g)
        have hshrinks : Shrinks (odmMcGroupDel board takes t g.toGroupKey).2 t :=
          shrinks_odmMcGroupDel takes t g.toGroupKey
        have hkeyed := hshrinks.evolves.keyed h
        simp only [hget, Option.elim_some, hempty, List.length_nil] at hdel
        simp only [odmMcGroupDel_of_mem h hsa takes hg] at hdel hkeyed ⊢
        have hrest := ih hkeyed ?_
        · omega
        · intro g' hg'
          apply hhostless g'
          rw [hfilter]
          exact List.mem_cons_of_mem _ hg'

theorem length_ageHost (hostBitmap : HostBitmap) (g : Group) (hnode : Host) :
    (ageHost hostBitmap g hnode).hostList.length + ageHostFrees hostBitmap g hnode =
      g.hostList.length := by
  unfold ageHost ageHostFrees
  split
  · exact length_mcHostListDel ..
  · exact length_updateFirst ..

theorem length_foldl_ageHost (hostBitmap : HostBitmap) (g : Group) (hosts : List Host) :
    (hosts.foldl (ageHost hostBitmap) g).hostList.length +
        totalCost (ageHost hostBitmap) (ageHostFrees hostBitmap) g hosts = g.hostList.length :=
  size_run_add_totalCost (ageHost hostBitmap) (ageHostFrees hostBitmap)
    (fun g => g.hostList.length) (length_ageHost hostBitmap) g hosts

/-- The tables with the hosts of one group a second older. -/
def agedTables (t : Tables) (node : Group) : Tables :=
  { t with
    mcGroupList := updateFirst (· = node)
      (fun _ => node.hostList.foldl (ageHost t.control.hostBitmap) node) t.mcGroupList }

theorem agedTables_perm {t : Tables} {node : Group} (hnode : node ∈ t.mcGroupList) :
    (agedTables t node).mcGroupList.Perm
      (node.hostList.foldl (ageHost t.control.hostBitmap) node :: t.mcGroupList.erase node) := by
  have herase : t.mcGroupList.eraseP (· = node) = t.mcGroupList.erase node := by
    rw [List.erase_eq_eraseP]
    congr 1
    funext g
    rw [Bool.eq_iff_iff, beq_iff_eq, decide_eq_true_eq]
    exact eq_comm
  have hperm := updateFirst_perm
    (f := fun _ => node.hostList.foldl (ageHost t.control.hostBitmap) node) (find?_eq_self hnode)
  rwa [herase] at hperm

theorem heldObjects_agedTables {t : Tables} {node : Group} (hnode : node ∈ t.mcGroupList) :
    heldObjects (agedTables t node) +
        totalCost (ageHost t.control.hostBitmap) (ageHostFrees t.control.hostBitmap) node
          node.hostList = heldObjects t := by
  have hhosts := length_foldl_ageHost t.control.hostBitmap node node.hostList
  rw [heldObjects_of_perm (agedTables_perm hnode),
    heldObjects_of_perm (List.perm_cons_erase hnode)]
  simp only [List.map_cons, List.sum_cons]
  omega

/-- What is found by the key of an aged group is that group. -/
theorem found_agedTables {t : Tables} (h : Keyed t) {node g : Group}
    (hnode : node ∈ t.mcGroupList)
    (hget : mcGroupListGet (agedTables t node) node.toGroupKey = some g) :
    g = node.hostList.foldl (ageHost t.control.hostBitmap) node := by
  have hkeyed : Keyed (agedTables t node) := (shrinks_aged t node).evolves.keyed h
  have hsa := saMac_of_matches (matches_of_get hget)
  have hkey : (node.hostList.foldl (ageHost t.control.hostBitmap) node).toGroupKey =
      node.toGroupKey := (kept_foldl_ageHost ..).key
  have hself := groupMatches_self hsa (node.hostList.foldl (ageHost t.control.hostBitmap) node)
  rw [hkey] at hself
  have hmem := (agedTables_perm hnode).mem_iff.mpr (List.mem_cons_self ..)
  exact Option.some.inj (hget.symm.trans (hkeyed.get_of_mem hmem hself))

/-- One group is aged: its hosts are freed one by one, its node when the last one went. -/
theorem heldObjects_ageGroup (takes : SwitchEntry → Bool) {t : Tables} (h : Keyed t) {node : Group}
    (hnode : node ∈ t.mcGroupList) :
    heldObjects (ageGroup board takes t node) + ageGroupFrees t node = heldObjects t := by
  have hold := heldObjects_agedTables hnode
  unfold ageGroup ageGroupFrees
  simp only
  split
  · rename_i hlast
    have hempty : (node.hostList.foldl (ageHost t.control.hostBitmap) node).hostList = [] := by
      simp only [Bool.and_eq_true, List.isEmpty_iff] at hlast
      exact hlast.2
    have hdel : heldObjects (odmMcGroupDel board takes (agedTables t node) node.toGroupKey).2 +
        _ + _ = heldObjects (agedTables t node) :=
      heldObjects_odmMcGroupDel takes (agedTables t node) node.toGroupKey
    have hfound : ((mcGroupListGet (agedTables t node) node.toGroupKey).elim 0
        fun g => g.hostList.length) = 0 := by
      cases hget : mcGroupListGet (agedTables t node) node.toGroupKey with
      | none => rfl
      | some g =>
        rw [found_agedTables h hnode hget]
        simp [hempty]
    unfold agedTables at hold hdel hfound
    omega
  · unfold agedTables at hold
    omega

/-- The groups still to be aged are there, whatever became of the others. -/
theorem subperm_ageGroup (takes : SwitchEntry → Bool) {t : Tables} (h : Keyed t) {node : Group}
    {nodes : List Group} (hsub : (node :: nodes).Subperm t.mcGroupList) :
    nodes.Subperm (ageGroup board takes t node).mcGroupList := by
  have hnode : node ∈ t.mcGroupList := hsub.subset (List.mem_cons_self ..)
  have hrest : nodes.Subperm (t.mcGroupList.erase node) := by
    have herased := hsub.erase node
    rwa [List.erase_cons_head] at herased
  have hperm := agedTables_perm hnode
  have haged : nodes.Subperm (agedTables t node).mcGroupList :=
    (hrest.trans (List.subperm_cons_self ..)).trans hperm.symm.subperm
  unfold ageGroup
  simp only
  split
  · change nodes.Subperm
      (odmMcGroupDel board takes (agedTables t node) node.toGroupKey).2.mcGroupList
    cases hget : mcGroupListGet (dalMcGroupDel board takes (agedTables t node) node.toGroupKey)
        node.toGroupKey with
    | none =>
      simp only [odmMcGroupDel, mcGroupListDel, hget]
      exact haged
    | some g =>
      -- the group deleted is the one that was aged
      have hfound : mcGroupListGet (agedTables t node) node.toGroupKey = some g := hget
      have hout := perm_cons_eraseP hfound
      rw [found_agedTables h hnode hfound] at hout
      simp only [odmMcGroupDel, mcGroupListDel, hget]
      exact hrest.trans (List.Perm.cons_inv (hperm.symm.trans hout)).subperm
  · exact haged

theorem heldObjects_age (takes : SwitchEntry → Bool) {t : Tables} (h : Keyed t) :
    heldObjects (mcHostAgingTimerSnoopingHandler board takes t) + hostAgingFrees board takes t =
      heldObjects t := by
  have hfold : ∀ (nodes : List Group) (t : Tables), Keyed t → nodes.Subperm t.mcGroupList →
      heldObjects (nodes.foldl (ageGroup board takes) t) +
        totalCost (ageGroup board takes) ageGroupFrees t nodes = heldObjects t := by
    intro nodes
    induction nodes with
    | nil =>
      intro t _ _
      rfl
    | cons node nodes ih =>
      intro t ht hsub
      have hnode : node ∈ t.mcGroupList := hsub.subset (List.mem_cons_self ..)
      have hshrinks : Shrinks (ageGroup board takes t node) t := shrinks_ageGroup takes t node
      have hrest := ih (ageGroup board takes t node) (hshrinks.evolves.keyed ht)
        (subperm_ageGroup takes ht hsub)
      have hhead : heldObjects (ageGroup board takes t node) + ageGroupFrees t node =
          heldObjects t := heldObjects_ageGroup takes ht hnode
      simp only [List.foldl_cons, totalCost]
      omega
  unfold mcHostAgingTimerSnoopingHandler hostAgingFrees
  split
  · rfl
  · exact hfold t.mcGroupList t h (List.Subperm.refl _)

/-! ### Management -/

theorem heldObjects_of_list {t' t : Tables} (h : t'.mcGroupList = t.mcGroupList) :
    heldObjects t' = heldObjects t := by
  rw [heldObjects, h, heldObjects]

theorem heldObjects_entryAdd {env : Env} {t : Tables} {portId vlanId : Nat} {mac : Mac}
    (hgranted : 0 < controlEntryAddAllocs t portId vlanId mac → env.groupNode = true) :
    heldObjects (odmMulticastControlEntryAdd board env t portId vlanId mac).2 =
      heldObjects t + controlEntryAddAllocs t portId vlanId mac := by
  unfold odmMulticastControlEntryAdd
  unfold controlEntryAddAllocs at hgranted ⊢
  split
  · rfl
  · rename_i hmode
    simp only [hmode, if_false] at hgranted ⊢
    cases hkey : entryKey t.control.ctcControlType portId vlanId mac with
    | none =>
      simp only
      split
      · exact heldObjects_of_list rfl
      · rfl
    | some k =>
      rw [hkey] at hgranted
      have hadd : heldObjects (odmMcGroupAdd board env.takes env.groupNode t k .configByOam).2 = _ :=
        heldObjects_odmMcGroupAdd env.takes t k .configByOam hgranted
      simp only
      generalize odmMcGroupAdd board env.takes env.groupNode t k .configByOam = added at hadd ⊢
      obtain ⟨status, t'⟩ := added
      cases status with
      | ok =>
        simp only
        split
        · exact (heldObjects_of_list rfl).trans hadd
        · exact hadd
      | error | exist | notExist => exact hadd

theorem heldObjects_entryDelete (takes : SwitchEntry → Bool) (t : Tables) (portId vlanId : Nat)
    (mac : Mac) :
    heldObjects (odmMulticastControlEntryDelete board takes t portId vlanId mac).2 +
      controlEntryDeleteFrees t portId vlanId mac = heldObjects t := by
  unfold odmMulticastControlEntryDelete controlEntryDeleteFrees
  split
  · rfl
  · cases (entryKey t.control.ctcControlType portId vlanId mac).bind (mcGroupListGet t) with
    | none => rfl
    | some group =>
      have hdel : heldObjects (deleteIfEmpty board takes t group.toGroupKey) + _ =
          heldObjects t := heldObjects_deleteIfEmpty takes t group.toGroupKey
      simp only
      split
      · rw [heldObjects_of_list (list_vlanDelete ..)]
        exact hdel
      · exact hdel

theorem list_foldl_vlanDelete (takes : SwitchEntry → Bool) (vlanId : Nat) (ports : List Nat)
    (t : Tables) :
    (ports.foldl (fun t i => odmMulticastVlanDelete board takes t i vlanId) t).mcGroupList =
      t.mcGroupList := by
  induction ports generalizing t with
  | nil => rfl
  | cons i ports ih => rw [List.foldl_cons, ih, list_vlanDelete]

theorem heldObjects_entryDeleteByVlan (takes : SwitchEntry → Bool) {t : Tables} (h : Keyed t)
    {vlanId : Nat} (hhostless : ∀ g ∈ t.mcGroupList, g.mcVlan = vlanId → g.hostList = []) :
    heldObjects (odmMulticastControlEntryDeleteByVlan board takes t vlanId).2 +
      deleteGroupsFrees board takes (·.mcVlan = vlanId) t.mcGroupList.length t =
        heldObjects t := by
  have hdel : heldObjects (deleteGroups board takes (·.mcVlan = vlanId)
      t.mcGroupList.length t).2 + _ = heldObjects t :=
    heldObjects_deleteGroups takes (·.mcVlan = vlanId) t.mcGroupList.length h (by
      intro g hg
      have hmem := List.mem_filter.mp (List.mem_of_mem_take hg)
      exact hhostless g hmem.1 (of_decide_eq_true hmem.2))
  unfold odmMulticastControlEntryDeleteByVlan
  generalize deleteGroups board takes (·.mcVlan = vlanId) t.mcGroupList.length t = deleted
    at hdel ⊢
  obtain ⟨status, t'⟩ := deleted
  cases status with
  | ok =>
    simp only
    split
    · rw [heldObjects_of_list (list_foldl_vlanDelete ..)]
      exact hdel
    · exact hdel
  | error | exist | notExist => exact hdel

theorem heldObjects_entryNumSet (takes : SwitchEntry → Bool) {t : Tables} (h : Keyed t)
    {portId num : Nat} (hhostless : surplusHostless board t portId num) :
    heldObjects (odmMulticastControlEntryNumSet board takes t portId num).2 +
      controlEntryNumFrees board takes t portId num = heldObjects t := by
  unfold odmMulticastControlEntryNumSet controlEntryNumFrees
  split
  · rename_i hport
    exact heldObjects_deleteGroups takes _ _ h (hhostless hport)
  · rfl

theorem heldObjects_of_nil {t : Tables} (h : t.mcGroupList = []) : heldObjects t = 0 := by
  rw [heldObjects, h]
  rfl

theorem heldObjects_hostAgingTimeSet (t : Tables) (hostAgingTime : Nat) :
    heldObjects (odmMulticastHostAgingTimeSet t hostAgingTime) = heldObjects t := by
  unfold odmMulticastHostAgingTimeSet
  split
  · rfl
  · simp only [heldObjects, List.map_map]
    congr 1
    apply List.map_congr_left
    intro g _
    simp

theorem heldObjects_targetModify (kind : LeaveKind) (t : Tables) (desc : PacketDesc)
    (f : LeaveTarget → LeaveTarget) :
    heldObjects (targetModify kind t desc f) = heldObjects t := by
  cases kind with
  | snooping =>
    have hmodify := heldObjects_groupModify t desc.groupKey
      (hostModify t.control.hostBitmap desc.hostKey fun host => { host with
        isLastReportRecevied := (f host.target).isLastReportRecevied
        isNonFastLeaveTimerStart := (f host.target).isNonFastLeaveTimerStart })
    simp only [hostModify, length_updateFirst] at hmodify
    exact Nat.add_right_cancel hmodify
  | ctc =>
    have hmodify := heldObjects_groupModify t desc.groupKey fun group => { group with
        isLastReportRecevied := (f group.target).isLastReportRecevied
        isNonFastLeaveTimerStart := (f group.target).isNonFastLeaveTimerStart }
    exact Nat.add_right_cancel hmodify

/-! ### Leaves in progress -/

theorem leavesInProgress_opened (s : McState) (t : Tables) (ld : LeaveDesc) (marks : List Mark) :
    leavesInProgress { s with
      tables := t
      descs := Function.update s.descs s.next (some ld)
      next := s.next + 1
      marks := marks } = leavesInProgress s + 1 := by
  have hold : (List.range s.next).countP
        (fun d => (Function.update s.descs s.next (some ld) d).isSome) =
      (List.range s.next).countP fun d => (s.descs d).isSome := by
    apply List.countP_congr
    intro d hd
    rw [Function.update_of_ne (Nat.ne_of_lt (List.mem_range.mp hd))]
  simp only [leavesInProgress]
  rw [List.range_succ, List.countP_append, hold]
  simp

theorem leavesInProgress_killed {s s' : McState} {d : Nat} {ld : LeaveDesc}
    (hld : s.descs d = some ld) (hlt : d < s.next) (hnext : s'.next = s.next)
    (hdescs : s'.descs = Function.update s.descs d none) :
    leavesInProgress s' + 1 = leavesInProgress s := by
  have hmem : d ∈ List.range s.next := List.mem_range.mpr hlt
  have hperm := List.perm_cons_erase hmem
  have hrest : ((List.range s.next).erase d).countP (fun d' => (s'.descs d').isSome) =
      ((List.range s.next).erase d).countP fun d' => (s.descs d').isSome := by
    apply List.countP_congr
    intro d' hd'
    have hne : d' ≠ d := ((List.nodup_range.mem_erase_iff).mp hd').1
    rw [hdescs, Function.update_of_ne hne]
  simp only [leavesInProgress, hnext]
  rw [hperm.countP_eq, hperm.countP_eq, List.countP_cons, List.countP_cons, hrest]
  simp [hdescs, hld]

/-- The objects of the module without the packets that wait. -/
def mcObjects (s : McState) : Nat := heldObjects s.tables + 2 * leavesInProgress s

/-! ### Packets and messages -/

theorem mcObjects_openLeave {env : Env} (kind : LeaveKind) (desc : PacketDesc) (s : McState)
    (hgranted : env.leaveDesc = true) :
    mcObjects (openLeave env kind desc s) = mcObjects s + 2 := by
  unfold openLeave
  simp only [hgranted, if_true]
  simp only [mcObjects, leavesInProgress_opened, heldObjects_targetModify]
  omega

section Packet

variable {env : Env} {desc : PacketDesc} {s : McState} {kind : LeaveKind}

theorem leaveAction_balance (hkind : s.tables.control.mcMode.leaveKind = some kind)
    (htype : desc.igmpType = .v2Leave)
    (hgranted : opensLeave board desc s = true → env.leaveDesc = true) :
    mcObjects (leaveAction board env kind desc s) + mcInputFrees board env desc s =
      mcObjects s + mcInputAllocs board env desc s := by
  have hreport : isReport desc = false := by simp [isReport, htype]
  simp only [mcInputFrees, mcInputAllocs, hkind, hreport, Bool.and_false, Bool.false_eq_true,
    if_false]
  unfold leaveAction
  cases hchecks : leaveChecks board desc with
  | false => simp [opensLeave, leavesFast, hkind, hchecks]
  | true =>
    simp only [if_true]
    cases htarget : leaveTarget kind s.tables desc with
    | none =>
      have hremoved : removeTargetFrees kind s.tables desc = 0 := by
        unfold leaveTarget at htarget
        unfold removeTargetFrees
        cases hget : mcGroupListGet s.tables desc.groupKey with
        | none => rfl
        | some group =>
          rw [hget] at htarget
          cases kind with
          | ctc => cases htarget
          | snooping =>
            have hnone := Option.map_eq_none_iff.mp htarget
            simp only [hnone]
      simp [opensLeave, hkind, htarget, hremoved]
    | some target =>
      cases hmode : s.tables.control.leaveMode with
      | fast =>
        have hremoved : heldObjects (removeTarget board env.takes kind s.tables desc) + _ = _ :=
          heldObjects_removeTarget env.takes kind s.tables desc
        have hopens : opensLeave board desc s = false := by simp [opensLeave, hkind, hmode]
        have hfast : leavesFast board desc s = true := by
          simp [leavesFast, htype, hchecks, hmode]
        simp only [mcObjects, leavesInProgress, hopens, hfast, Bool.false_and, Bool.false_eq_true,
          if_false, if_true]
        omega
      | nonFastLeave =>
        cases hflag : target.isNonFastLeaveTimerStart with
        | true => simp [opensLeave, leavesFast, hkind, hmode, htarget, hflag]
        | false =>
          have hopens : opensLeave board desc s = true := by
            simp [opensLeave, hkind, htype, hchecks, hmode, htarget, hflag]
          have hdesc := hgranted hopens
          simp only [hflag, Bool.false_eq_true, if_false, mcObjects_openLeave kind desc s hdesc,
            hopens, hdesc]
          simp [leavesFast, hmode]

theorem joinAction_balance (hkind : s.tables.control.mcMode.leaveKind = some kind)
    (hreport : isReport desc = true) (hgranted : packetGranted board env desc s) :
    mcObjects (joinAction board env kind desc s) + mcInputFrees board env desc s =
      mcObjects s + mcInputAllocs board env desc s := by
  have htype : desc.igmpType ≠ .v2Leave := by
    intro htype
    simp [isReport, htype] at hreport
  have hopens : opensLeave board desc s = false := by simp [opensLeave, hkind, htype]
  have hfast : leavesFast board desc s = false := by simp [leavesFast, htype]
  simp only [mcInputFrees, mcInputAllocs, hkind, hreport, hopens, hfast, Bool.false_eq_true,
    if_false, Bool.and_true, Bool.false_and]
  unfold joinAction
  rcases mcMode_of_leaveKind hkind with ⟨rfl, hmode⟩ | ⟨rfl, hmode⟩
  · obtain ⟨hgroup, hhost⟩ := hgranted.1 hmode hreport
    cases hchecks : joinChecks board desc with
    | false => simp [mcSnoopingJoinAllocs, joinAddsGroup, joinHostAllocs, hmode, hchecks]
    | true =>
      have hjoin := heldObjects_join hchecks hgroup hhost
      simp only [if_true, hmode, decide_true]
      simp only [mcObjects, leavesInProgress]
      omega
  · simp only [hmode, reduceCtorEq, decide_false, Bool.false_eq_true, if_false]
    cases hchecks : joinChecks board desc with
    | false => rfl
    | true =>
      have hmodify := heldObjects_groupModify s.tables desc.groupKey fun group =>
        { group with
          hostAgingTime := s.tables.control.hostAgingTime
          isLastReportRecevied := true }
      have hsame : heldObjects (mcCtcJoinAction board desc s.tables) = heldObjects s.tables := by
        unfold mcCtcJoinAction
        rw [if_pos hchecks]
        exact Nat.add_right_cancel hmodify
      simp only [if_true]
      simp only [mcObjects, leavesInProgress, hsame]

theorem mcInput_balance (hgranted : packetGranted board env desc s) :
    mcObjects (mcInput board env desc s) + mcInputFrees board env desc s =
      mcObjects s + mcInputAllocs board env desc s := by
  have hidle : isReport desc = false → desc.igmpType ≠ .v2Leave →
      mcObjects s + mcInputFrees board env desc s =
        mcObjects s + mcInputAllocs board env desc s := by
    intro hreport htype
    have hopens : opensLeave board desc s = false := by
      unfold opensLeave
      split
      · rfl
      · simp [htype]
    have hfast : leavesFast board desc s = false := by simp [leavesFast, htype]
    simp only [mcInputFrees, mcInputAllocs, hreport, hopens, hfast]
    split <;> simp
  unfold mcInput
  cases hmode : s.tables.control.mcMode with
  | snooping =>
    have hkind : s.tables.control.mcMode.leaveKind = some .snooping := by rw [hmode]; rfl
    simp only [mcSnoopingInput]
    cases htype : desc.igmpType with
    | v1Report | v2Report => exact joinAction_balance hkind (by simp [isReport, htype]) hgranted
    | v2Leave => exact leaveAction_balance hkind htype hgranted.2
    | generalQuery | other => exact hidle (by simp [isReport, htype]) (by simp [htype])
  | ctc =>
    have hkind : s.tables.control.mcMode.leaveKind = some .ctc := by rw [hmode]; rfl
    simp only [mcCtcInput]
    cases htype : desc.igmpType with
    | v1Report | v2Report => exact joinAction_balance hkind (by simp [isReport, htype]) hgranted
    | v2Leave => exact leaveAction_balance hkind htype hgranted.2
    | generalQuery | other => exact hidle (by simp [isReport, htype]) (by simp [htype])
  | proxy | stop => simp [mcInputFrees, mcInputAllocs, opensLeave, McMode.leaveKind, hmode]

end Packet

theorem handle_balance (takes : SwitchEntry → Bool) {s : McState} (h : Accounted s)
    (hlive : messageLive s (.handle takes) = true) :
    mcObjects (mcTimerMsgThread board takes s) + mcTimerMsgFrees s = mcObjects s := by
  cases hqueue : s.queue with
  | nil =>
    rw [mcTimerMsgThread_nil takes hqueue]
    simp [mcTimerMsgFrees, hqueue]
  | cons msg queue =>
    obtain ⟨kind, d⟩ := msg
    simp only [messageLive, hqueue, List.head?_cons, Option.all_some] at hlive
    obtain ⟨ld, hld⟩ := Option.isSome_iff_exists.mp hlive
    have heffect : MessageEffect board takes { s with queue := queue } kind d ld.desc
        (mcTimerMsgThread board takes s) := mcTimerMsgThread_effect takes hqueue hld
    have hfrees : mcTimerMsgFrees s = nonFastLeaveFrees kind ld.desc { s with queue := queue } := by
      simp only [mcTimerMsgFrees, hqueue, hld]
      rfl
    rw [hfrees]
    generalize mcTimerMsgThread board takes s = s' at heffect ⊢
    cases heffect with
    | query target htarget hreported hcount =>
      simp only [nonFastLeaveFrees, htarget, hcount, hreported]
      rfl
    | last t hlast =>
      have hkilled : leavesInProgress { s with
          queue := queue
          tables := t
          i := Function.update s.i kind 0
          descs := Function.update s.descs d none
          freed := d :: s.freed } + 1 = leavesInProgress s :=
        leavesInProgress_killed hld (h.live_lt d ld hld) rfl rfl
      have hheld : heldObjects t + nonFastLeaveFrees kind ld.desc { s with queue := queue } =
          heldObjects s.tables + killTimerFrees := by
        cases hlast with
        | gone hgone => simp only [nonFastLeaveFrees, hgone]
        | reported target htarget hreported hcount =>
          simp only [nonFastLeaveFrees, htarget, hreported, if_true]
          rcases Nat.lt_or_eq_of_le hcount with hlt | heq
          · simp only [hlt, if_true]
            rw [heldObjects_targetModify]
          · simp only [heq, Nat.lt_irrefl, if_false, if_true]
            rw [heldObjects_targetModify]
        | removed target htarget hreported hcount =>
          have hremoved : heldObjects (removeTarget board takes kind s.tables ld.desc) + _ = _ :=
            heldObjects_removeTarget takes kind s.tables ld.desc
          simp only [nonFastLeaveFrees, htarget, hreported, hcount, Nat.lt_irrefl, if_false,
            if_true, Bool.false_eq_true]
          omega
        | overrun hcount =>
          have hnlt := Nat.lt_asymm hcount
          have hne := Nat.ne_of_gt hcount
          unfold nonFastLeaveFrees
          simp only [hnlt, hne, if_false]
          cases leaveTarget kind s.tables ld.desc with
          | none => rfl
          | some target => rfl
      simp only [mcObjects, killTimerFrees] at hheld ⊢
      omega

/-! ### Runs -/

/-- What the books rest on: searches find one group, and descriptors are numbered. -/
structure Booked (m : MemState) : Prop where
  balanced : MemoryBalanced m
  keyed : Keyed m.mc.tables
  accounted : Accounted m.mc

theorem keyed_step {s : McState} (h : Keyed s.tables) (e : McEvent) :
    Keyed (mcStep board s e).tables := by
  have htables : Evolves (mcStep board s e).tables s.tables ∨ _ ∨ _ := tables_step s e
  rcases htables with hevolves | ⟨env, kind, desc, hopened⟩ | hnil
  · exact hevolves.keyed h
  · rw [hopened]
    have hopen : Withdraws board [] _ _ ∧ _ := openLeave_tables env kind desc s
    exact hopen.2 h
  · exact keyed_of_nil hnil

theorem balance_onTables {f : Tables → Tables} {s : McState} {allocs frees : Nat}
    (h : heldObjects (f s.tables) + frees = heldObjects s.tables + allocs) :
    mcObjects (onTables f s) + frees = mcObjects s + allocs := by
  have hobjects : mcObjects (onTables f s) = heldObjects (f s.tables) + 2 * leavesInProgress s :=
    rfl
  rw [hobjects, mcObjects]
  omega

/-- `mcGroupListDestory` frees all there is. -/
theorem heldObjects_cleared {t' t : Tables} (h : t'.mcGroupList = []) :
    heldObjects t' + mcGroupListDestoryFrees t = heldObjects t + 0 := by
  rw [heldObjects_of_nil h, Nat.zero_add]
  rfl

/-- What a step of the other threads allocates and frees is what it adds and removes. -/
theorem mcStep_balance {m : MemState} (hkeyed : Keyed m.mc.tables) (haccounted : Accounted m.mc)
    {e : McEvent} (hpacket : e.isPacket = false) (hkept : memoryKept board m (.mc e)) :
    mcObjects (mcStep board m.mc e) + mcFrees board m.mc e =
      mcObjects m.mc + mcAllocs board m.mc e := by
  cases e with
  | packet env desc => cases hpacket
  | fire d =>
    obtain ⟨callback, hfire⟩ := fireTimer_frame d m.mc
    simp only [mcStep, hfire]
    rfl
  | send =>
    obtain ⟨callback, queue, hsend⟩ := mcTimerMsgSend_frame m.mc
    simp only [mcStep, hsend]
    rfl
  | handle takes => exact handle_balance takes haccounted hkept
  | age takes => exact balance_onTables (heldObjects_age takes hkeyed)
  | entryAdd env portId vlanId mac => exact balance_onTables (heldObjects_entryAdd hkept)
  | entryDelete takes portId vlanId mac =>
    exact balance_onTables (heldObjects_entryDelete takes m.mc.tables portId vlanId mac)
  | entryDeleteByVlan takes vlanId =>
    exact balance_onTables (heldObjects_entryDeleteByVlan takes hkeyed hkept)
  | entryClear takes => exact balance_onTables (heldObjects_cleared rfl)
  | maxGroupNumSet takes portId maxGroup =>
    -- the limit is written first; neither the list nor its keys depend on it
    have hlimit : Keyed { m.mc.tables with control := { m.mc.tables.control with
        maxGroupNum := Function.update m.mc.tables.control.maxGroupNum portId maxGroup } } :=
      ⟨hkeyed.groups, hkeyed.hosts⟩
    exact balance_onTables (heldObjects_entryNumSet takes hlimit hkept)
  | switchSet takes mcMode =>
    refine balance_onTables ?_
    simp only [odmMulticastSwitchSet, mcFrees]
    split
    · rfl
    · exact heldObjects_cleared rfl
  | controlTypeSet takes ctcControlType =>
    refine balance_onTables ?_
    simp only [odmMcControlBlockCtcControlTypeSet, mcFrees]
    split
    · rfl
    · exact heldObjects_cleared rfl
  | hostAgingTimeSet hostAgingTime =>
    exact balance_onTables (heldObjects_hostAgingTimeSet m.mc.tables _)
  | leaveModeSet | lastQueryIntervalSet | lastQueryCountSet => rfl

theorem balanced_count {m m' : MemState} (h : MemoryBalanced m) {allocs frees : Nat}
    (halloc : m'.memAllocCount = m.memAllocCount) (hfree : m'.memfreeCount = m.memfreeCount)
    (hobjects : liveObjects m' + frees = liveObjects m + allocs) :
    MemoryBalanced (MemState.count m' allocs frees) := by
  have hcast : UInt32.ofNat (liveObjects m') + UInt32.ofNat frees =
      UInt32.ofNat (liveObjects m) + UInt32.ofNat allocs := by
    rw [← UInt32.ofNat_add, ← UInt32.ofNat_add, hobjects]
  have hlive : liveObjects (MemState.count m' allocs frees) = liveObjects m' := rfl
  unfold MemoryBalanced at h ⊢
  rw [hlive]
  simp only [MemState.count, halloc, hfree]
  grind

theorem Booked.step {m : MemState} (h : Booked m) {e : MemEvent} (hkept : memoryKept board m e) :
    Booked (memStep board m e) := by
  cases e with
  | inputMsgSend queued =>
    have hqueued : queued = true := hkept
    refine ⟨balanced_count h.balanced rfl rfl ?_, h.keyed, h.accounted⟩
    simp only [liveObjects, hqueued, if_true]
    omega
  | refused copied =>
    simp only [memStep]
    split
    · exact h
    · refine ⟨balanced_count h.balanced rfl rfl ?_, h.keyed, h.accounted⟩
      simp only [liveObjects]
      omega
  | mc e =>
    simp only [memStep]
    split
    · exact h
    · rename_i hthere
      refine ⟨balanced_count h.balanced rfl rfl ?_, keyed_step h.keyed e, h.accounted.step e⟩
      cases hpacket : e.isPacket with
      | false =>
        have hstep := mcStep_balance h.keyed h.accounted hpacket hkept
        simp only [mcObjects, liveObjects, Bool.false_eq_true, if_false] at hstep ⊢
        omega
      | true =>
        cases e with
        | packet env desc =>
          have hbuffers : 0 < m.buffers := by
            simp only [hpacket, Bool.true_and, decide_eq_true_eq] at hthere
            exact Nat.pos_of_ne_zero hthere
          have hinput := mcInput_balance (hkept hbuffers)
          simp only [mcObjects, liveObjects, mcFrees, mcAllocs, mcStep, if_true] at hinput ⊢
          omega
        | fire | send | handle | age | entryAdd | entryDelete | entryDeleteByVlan | entryClear
        | maxGroupNumSet | switchSet | controlTypeSet | leaveModeSet | hostAgingTimeSet
        | lastQueryIntervalSet | lastQueryCountSet => cases hpacket
  | entryNumSet takes portId num =>
    have hset : heldObjects (odmMulticastControlEntryNumSet board takes m.mc.tables portId num).2 +
        _ = _ := heldObjects_entryNumSet takes h.keyed hkept
    have hshrinks : Shrinks (odmMulticastControlEntryNumSet board takes m.mc.tables portId num).2
        m.mc.tables := by
      unfold odmMulticastControlEntryNumSet
      split
      · exact shrinks_deleteGroups ..
      · exact Shrinks.refl _
    have haccounted : Accounted (onTables
        (fun t => (odmMulticastControlEntryNumSet board takes t portId num).2) m.mc) :=
      h.accounted.frame (heapKept_tables m.mc _) (List.Subset.refl _)
    refine ⟨balanced_count h.balanced rfl rfl ?_, hshrinks.evolves.keyed h.keyed, haccounted⟩
    have hobjects : mcObjects (onTables
        (fun t => (odmMulticastControlEntryNumSet board takes t portId num).2) m.mc) + _ =
          mcObjects m.mc + 0 := balance_onTables hset
    simp only [mcObjects, liveObjects] at hobjects ⊢
    omega

/-- **The counters tell the live objects** in every state of a run whose steps allocate what
they ask for and delete no group over its hosts. -/
theorem memory_balanced (board : Board) (c : McConfig) (vlans : VlanState) (es : List MemEvent)
    (h : AllSteps (memStep board) (memoryKept board) (memInit c vlans) es) :
    AllStates (memStep board) MemoryBalanced (memInit c vlans) es := by
  have hempty : MemoryBalanced (memInit c vlans) := by
    have hlive : liveObjects (memInit c vlans) = 0 := rfl
    have hzero : (0 : UInt32) - 0 = UInt32.ofNat 0 := by decide
    rw [MemoryBalanced, hlive]
    exact hzero
  have hinit : Booked (memInit c vlans) := ⟨hempty, keyed_of_nil rfl, accounted_init c vlans⟩
  have hbooked := allStates_of_allSteps (memStep board) Booked
    (fun _ _ hb hkept => hb.step hkept) hinit h
  exact hbooked.mono fun _ hb => hb.balanced

/-- A packet comes in and is handled, everything being granted. -/
def packetEvents (desc : PacketDesc) : List MemEvent :=
  [.inputMsgSend true, .mc (.packet Env.granting desc)]

/-- A host joins a group, leaves it at once, and a packet is refused. -/
theorem memory_balanced_join_leave :
    AllSteps (memStep .onu1Port) (memoryKept .onu1Port) (memInit mcConfigDefault vlanInit)
        (packetEvents (reportFrom 1 7 0xe1020304) ++ packetEvents (leaveFrom 1 7 0xe1020304) ++
          [.inputMsgSend true, .refused true]) ∧
      AllStates (memStep .onu1Port) MemoryBalanced (memInit mcConfigDefault vlanInit)
        (packetEvents (reportFrom 1 7 0xe1020304) ++ packetEvents (leaveFrom 1 7 0xe1020304) ++
          [.inputMsgSend true, .refused true]) := by
  have hkept : AllSteps (memStep .onu1Port) (memoryKept .onu1Port)
      (memInit mcConfigDefault vlanInit)
      (packetEvents (reportFrom 1 7 0xe1020304) ++ packetEvents (leaveFrom 1 7 0xe1020304) ++
        [.inputMsgSend true, .refused true]) := by decide +kernel
  exact ⟨hkept, memory_balanced _ _ _ _ hkept⟩

/-- The host of a group that a lower limit deletes is lost. -/
theorem deleted_group_leaks_host :
    ¬AllStates (memStep .onu1Port) MemoryBalanced (memInit mcConfigDefault vlanInit)
      (packetEvents (reportFrom 1 7 0xe1020304) ++ packetEvents (reportFrom 1 7 0xe1020305) ++
        [.entryNumSet (fun _ => true) 1 1]) := by
  decide +kernel

end Opconn.Multicast
