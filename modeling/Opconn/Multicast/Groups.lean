import Opconn.Lib.FirstMatch
import Opconn.Multicast.VlanMap

/-!
# Groups, hosts and the multicast entries of the switch

`mcGroupList` holds the multicast groups, each with the list of its hosts.  A group is
searched for by the fields that `MC_BITMAP` selects, a host by those of
`MC_HOST_BITMAP`.  Every group is backed by entries of the switch, which are programmed
when the group is added and taken away when it is deleted; which entries these are
depends on the board.
-/

namespace Opconn.Multicast

open FirstMatch

/-! ### Addresses -/

/-- Six bytes. -/
abbrev Mac := List Nat

def zeroMac : Mac := List.replicate 6 0

def clMcMacGetByMcIp (mcip : Nat) : Mac :=
  [0x01, 0x0, 0x5e, mcip % 2 ^ 23 / 2 ^ 16 % 2 ^ 8, mcip % 2 ^ 23 / 2 ^ 8 % 2 ^ 8,
    mcip % 2 ^ 23 % 2 ^ 8]

/-! ### Keys -/

/-- `MC_BITMAP`: the fields a group is searched by. -/
structure Bitmap where
  gdaMac : Bool
  gdaIp : Bool
  hostPortId : Bool
  vlanId : Bool
  saMac : Bool
deriving DecidableEq, Repr

/-- The fields a search for a group is given. -/
structure GroupKey where
  hostPortId : Nat
  groupMac : Mac
  groupAddress : Nat
  mcVlan : Nat
deriving DecidableEq, Repr

/-- `GROUP_COMPARE`: the selected fields that agree; the source MAC is never compared. -/
def groupCompare (node k : GroupKey) (bitmap : Bitmap) : Bitmap where
  hostPortId := bitmap.hostPortId && node.hostPortId == k.hostPortId
  gdaMac := bitmap.gdaMac && node.groupMac == k.groupMac
  gdaIp := bitmap.gdaIp && node.groupAddress == k.groupAddress
  vlanId := bitmap.vlanId && node.mcVlan == k.mcVlan
  saMac := false

/-- `MC_HOST_BITMAP`. -/
structure HostBitmap where
  hostSrcIp : Bool
  hostSaMac : Bool
deriving DecidableEq, Repr

structure HostKey where
  saMac : Mac
  srcIp : Nat
deriving DecidableEq, Repr

/-- `HOST_COMPARE`. -/
def hostCompare (node k : HostKey) (hostBitmap : HostBitmap) : HostBitmap where
  hostSrcIp := hostBitmap.hostSrcIp && node.srcIp == k.srcIp
  hostSaMac := hostBitmap.hostSaMac && node.saMac == k.saMac

/-! ### Nodes -/

inductive NodeState where
  | learning
  | configByCli
  | configByOam
deriving DecidableEq, Repr

/-- `MC_HOST_t`. -/
structure Host extends HostKey where
  state : NodeState
  hostAgingTime : Nat
  isLastReportRecevied : Bool
  isNonFastLeaveTimerStart : Bool
deriving DecidableEq, Repr

/-- `MC_GROUP_t`. -/
structure Group extends GroupKey where
  state : NodeState
  hostList : List Host
  hostAgingTime : Nat
  isLastReportRecevied : Bool
  isNonFastLeaveTimerStart : Bool
deriving DecidableEq, Repr

def groupMatches (bitmap : Bitmap) (k : GroupKey) (node : Group) : Bool :=
  groupCompare node.toGroupKey k bitmap = bitmap

def hostMatches (hostBitmap : HostBitmap) (k : HostKey) (node : Host) : Bool :=
  hostCompare node.toHostKey k hostBitmap = hostBitmap

/-! ### Control block -/

inductive McMode where
  | snooping
  | ctc
  | proxy
  | stop
deriving DecidableEq, Repr

inductive LeaveMode where
  | nonFastLeave
  | fast
deriving DecidableEq, Repr

inductive CtcControlType where
  | gdaMac
  | gdaMacVid
  | gdaSaMac
  | gdaIpVid
deriving DecidableEq, Repr

/-- The values of `CTC_CONTROL_TYPE_BITMAP_t`; no type searches by VLAN. -/
def CtcControlType.bitmap : CtcControlType → Bitmap
  | .gdaMac => ⟨true, false, true, false, false⟩
  | .gdaMacVid => ⟨true, false, true, false, false⟩
  | .gdaSaMac => ⟨true, false, true, false, true⟩
  | .gdaIpVid => ⟨false, true, true, false, false⟩

/-- `MC_CONTROL_t`. -/
structure McControl where
  mcMode : McMode
  leaveMode : LeaveMode
  ctcControlType : CtcControlType
  bitmap : Bitmap
  hostBitmap : HostBitmap
  hostAgingTime : Nat
  lastQueryInterval : Nat
  lastQueryCount : Nat
  maxGroupNum : Nat → Nat

/-- The boards that have a driver layer of their own. -/
inductive Board where
  | onu1Port
  | onu4PortAr8228
  | onu4PortAr8327
deriving DecidableEq, Repr

/-- `ODM_NUM_OF_PORTS`. -/
def Board.numOfPorts : Board → Nat
  | .onu1Port => 1
  | .onu4PortAr8228 => 4
  | .onu4PortAr8327 => 4

inductive SwitchAddr where
  | mac (macAddr : Mac)
  | ip (ip : Nat)
deriving DecidableEq, Repr

/-- An entry of the multicast table of the switch: frames to `addr` in `vlanId` go out
of `port`. -/
structure SwitchEntry where
  port : Nat
  addr : SwitchAddr
  vlanId : Nat
deriving DecidableEq, Repr

/-- What the multicast module keeps, and the switch. -/
structure Tables where
  control : McControl
  mcGroupList : List Group
  vlans : VlanState
  switch : SwitchEntry → Bool

/-! ### The switch -/

/-- `odmMulticastVlanGet`: the multicast VLANs of a port, counted in a `uint8`. -/
def odmMulticastVlanGet (vlans : VlanState) (portId : Nat) : List Nat :=
  let vlanId := (List.range' 1 4095).filter fun j => mcVlanMapExist vlans portId j
  vlanId.take (vlanId.length % 2 ^ 8)

/-- The address that the four-port boards program for a group. -/
def tempGroupMac (ctcControlType : CtcControlType) (k : GroupKey) : Mac :=
  match ctcControlType with
  | .gdaMac | .gdaMacVid => k.groupMac
  | .gdaIpVid => clMcMacGetByMcIp k.groupAddress
  | .gdaSaMac => zeroMac

/-- The entries that `dalMcGroupAdd` adds and `dalMcGroupDel` deletes.  The AR8228 has one
entry for a MAC address, whatever its VLAN. -/
def dalMcGroupEntries (board : Board) (t : Tables) (k : GroupKey) : List SwitchEntry :=
  match board with
  | .onu1Port =>
    match t.control.mcMode with
    | .snooping => (odmMulticastVlanGet t.vlans k.hostPortId).map
        fun v => ⟨k.hostPortId, .mac (clMcMacGetByMcIp k.groupAddress), v⟩
    | .ctc =>
      match t.control.ctcControlType with
      | .gdaMac => ⟨k.hostPortId, .mac k.groupMac, k.mcVlan⟩ ::
          ((odmMulticastVlanGet t.vlans k.hostPortId).filter (k.mcVlan ≠ ·)).map
            fun v => ⟨k.hostPortId, .mac k.groupMac, v⟩
      | .gdaMacVid => [⟨k.hostPortId, .mac k.groupMac, k.mcVlan⟩]
      | .gdaIpVid => [⟨k.hostPortId, .ip k.groupAddress, k.mcVlan⟩]
      | .gdaSaMac => []
    | _ => []
  | .onu4PortAr8327 => (odmMulticastVlanGet t.vlans k.hostPortId).map
      fun v => ⟨k.hostPortId, .mac (tempGroupMac t.control.ctcControlType k), v⟩
  | .onu4PortAr8228 => [⟨k.hostPortId, .mac (tempGroupMac t.control.ctcControlType k), 0⟩]

/-- `dalMcGroupAdd`.  `takes` says which entries the switch accepts; a refusal is printed
and forgotten. -/
def dalMcGroupAdd (board : Board) (takes : SwitchEntry → Bool) (t : Tables) (k : GroupKey) :
    Tables :=
  { t with switch := fun e => t.switch e || (decide (e ∈ dalMcGroupEntries board t k) && takes e) }

/-- `dalMcGroupDel`. -/
def dalMcGroupDel (board : Board) (takes : SwitchEntry → Bool) (t : Tables) (k : GroupKey) :
    Tables :=
  { t with
    switch := fun e => t.switch e && !(decide (e ∈ dalMcGroupEntries board t k) && takes e) }

/-! ### The group list -/

def mcGroupListGet (t : Tables) (k : GroupKey) : Option Group :=
  t.mcGroupList.find? (groupMatches t.control.bitmap k)

/-- The fields that `mcGroupListAdd` writes; the MAC only when groups are searched by it. -/
def groupWrite (bitmap : Bitmap) (k : GroupKey) (state : NodeState) (node : Group) : Group :=
  { node with
    groupMac := if bitmap.gdaMac then k.groupMac else node.groupMac
    groupAddress := k.groupAddress
    mcVlan := k.mcVlan
    hostPortId := k.hostPortId
    state := state }

/-- A node of zeros, as `vosMemSet` leaves it. -/
def zeroGroup : Group where
  hostPortId := 0
  groupMac := zeroMac
  groupAddress := 0
  mcVlan := 0
  state := .learning
  hostList := []
  hostAgingTime := 0
  isLastReportRecevied := false
  isNonFastLeaveTimerStart := false

/-- `mcGroupListAdd`; `alloc` says whether a node can be allocated. -/
def mcGroupListAdd (alloc : Bool) (t : Tables) (k : GroupKey) (state : NodeState) :
    Option Tables :=
  let write := groupWrite t.control.bitmap k state
  match mcGroupListGet t k with
  | some _ =>
    some { t with
      mcGroupList := updateFirst (groupMatches t.control.bitmap k) write t.mcGroupList }
  | none => if alloc then some { t with mcGroupList := write zeroGroup :: t.mcGroupList } else none

def mcGroupListDel (t : Tables) (k : GroupKey) : OplStatus × Tables :=
  match mcGroupListGet t k with
  | none => (.notExist, t)
  | some _ =>
    (.ok, { t with mcGroupList := t.mcGroupList.eraseP (groupMatches t.control.bitmap k) })

/-- A write through the pointer that a search for `k` returned. -/
def groupModify (t : Tables) (k : GroupKey) (f : Group → Group) : Tables :=
  { t with mcGroupList := updateFirst (groupMatches t.control.bitmap k) f t.mcGroupList }

def mcGroupNumPerPort (t : Tables) (hostPortId : Nat) : Nat :=
  t.mcGroupList.countP (·.hostPortId = hostPortId)

/-- `mcGroupListHostListEmpty` returned `OPL_TRUE`. -/
def mcGroupListHostListEmpty (t : Tables) (k : GroupKey) : Bool :=
  match mcGroupListGet t k with
  | none => false
  | some group => group.hostList.isEmpty

/-- `odmMcGroupAdd`: the switch first, then the list. -/
def odmMcGroupAdd (board : Board) (takes : SwitchEntry → Bool) (alloc : Bool) (t : Tables)
    (k : GroupKey) (state : NodeState) : OplStatus × Tables :=
  let t := dalMcGroupAdd board takes t k
  match mcGroupListAdd alloc t k state with
  | none => (.error, t)
  | some t => (.ok, t)

/-- `odmMcGroupDel`. -/
def odmMcGroupDel (board : Board) (takes : SwitchEntry → Bool) (t : Tables) (k : GroupKey) :
    OplStatus × Tables :=
  mcGroupListDel (dalMcGroupDel board takes t k) k

/-! ### The hosts of a group -/

def mcHostListGet (hostBitmap : HostBitmap) (group : Group) (k : HostKey) : Option Host :=
  group.hostList.find? (hostMatches hostBitmap k)

/-- `mcHostListDel`; a host that is not there leaves the list as it is. -/
def mcHostListDel (hostBitmap : HostBitmap) (k : HostKey) (group : Group) : Group :=
  { group with hostList := group.hostList.eraseP (hostMatches hostBitmap k) }

def hostModify (hostBitmap : HostBitmap) (k : HostKey) (f : Host → Host) (group : Group) : Group :=
  { group with hostList := updateFirst (hostMatches hostBitmap k) f group.hostList }

/-- The node `mcHostListAdd` puts in front of the list; the MAC is stored only when hosts
are searched by it. -/
def newHost (hostBitmap : HostBitmap) (k : HostKey) : Host where
  saMac := if hostBitmap.hostSaMac then k.saMac else zeroMac
  srcIp := k.srcIp
  state := .learning
  hostAgingTime := 0
  isLastReportRecevied := false
  isNonFastLeaveTimerStart := false

end Opconn.Multicast
