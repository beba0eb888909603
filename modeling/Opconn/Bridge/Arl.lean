import Opconn.Lib.KeyedList
import Opconn.Lib.Runs

/-!
# The ARL table of the bridge

The MAC table of the chip has 64 entries.  `brgArlMacAdd` and `brgArlMacDel` add and remove
static stations, `brgArlIntProcess` learns the station that the chip has captured and notes it
in a list for `brgSoftArlMacFlush`, and `dalArlMacNumLimitSet` limits the number of stations by
entries that are valid and belong to no station.
-/

namespace Opconn.Bridge

open KeyedList

/-- `PON_BRG_MAC_ENTRY_NUM`. -/
abbrev ponBrgMacEntryNum : Nat := 64

/-- `MAX_NUM_OF_VLAN`. -/
abbrev maxNumOfVlan : Nat := 4095

inductive Status where
  | ok
  | error
  | invalidParameters
  | tableFull
deriving DecidableEq, Repr

/-- `PON_MAC_STATE_e`. -/
inductive MacState where
  | notValid
  | notValidStatic
  | validHardwareLearn
  | validStatic
deriving DecidableEq, Repr

abbrev Mac := BitVec 48

/-- `PON_BRG_MAC_TAB_t`, with one bit of `portId` and twelve of `vlanId`; `age` is set for
`NOT_AGE_OUT`. -/
structure MacEntry where
  state : MacState
  age : Bool
  portId : Nat
  vlanId : Nat
  mac : Mac
deriving DecidableEq

/-- All bits clear. -/
def MacEntry.zero : MacEntry := ⟨.notValid, false, 0, 0, 0⟩

/-- The entry the limit puts where no station may be. -/
def MacEntry.blocked : MacEntry := { MacEntry.zero with state := .validStatic }

/-- What an entry is found by. -/
structure Station where
  vlanId : Nat
  mac : Mac
deriving DecidableEq

def MacEntry.station (e : MacEntry) : Station := ⟨e.vlanId, e.mac⟩

def stationKeys : KeyEq Station where
  same k l := k = l
  refl k := by simp
  symm h := by simpa using (of_decide_eq_true h).symm
  trans h h' := by simpa using (of_decide_eq_true h).trans (of_decide_eq_true h')

/-- `OPCONN_TAB_PON_MAC`, the list at `psoftLearnMacEntry` with the port of each station,
`ARLMACNUMLIMIT`, and the learn and full-drop bits. -/
structure Arl where
  table : Nat → MacEntry
  softLearnMacs : List (Station × Nat)
  arlMacNumLimit : Nat
  learnEn : Bool
  fullDropEn : Bool

def Arl.start : Arl := ⟨fun _ => .zero, [], ponBrgMacEntryNum, true, false⟩

/-! ### Entries -/

/-- `brgArlEntryHwWrite` to an entry of the table. -/
def Arl.write (s : Arl) (entryId : Nat) (e : MacEntry) : Arl :=
  { s with table := Function.update s.table entryId e }

@[simp] theorem Arl.write_table (s : Arl) (entryId : Nat) (e : MacEntry) :
    (s.write entryId e).table = Function.update s.table entryId e := rfl

/-- `brgArlMacExist`: the state of the entry is not looked at. -/
def brgArlMacExist (table : Nat → MacEntry) (k : Station) : Option Nat :=
  (List.range ponBrgMacEntryNum).find? fun i => (table i).station = k

def MacEntry.Free (e : MacEntry) : Prop := e.state = .notValid ∨ e.state = .notValidStatic

instance (e : MacEntry) : Decidable e.Free := inferInstanceAs (Decidable (_ ∨ _))

/-- `brgArlFreeEntryFind`. -/
def brgArlFreeEntryFind (table : Nat → MacEntry) : Option Nat :=
  (List.range ponBrgMacEntryNum).find? fun i => (table i).Free

/-- The entry `brgArlMacAdd` writes for a new station. -/
def staticEntry (portId : Nat) (k : Station) : MacEntry :=
  ⟨.validStatic, true, portId % 2, k.vlanId, k.mac⟩

/-- `brgArlMacAdd`.  An entry that is found static is written back as it is. -/
def brgArlMacAdd (s : Arl) (portId vlanId : Nat) (mac : Mac) : Arl × Status :=
  if maxNumOfVlan < vlanId then (s, .error)
  else
    match brgArlMacExist s.table ⟨vlanId, mac⟩ with
    | some i =>
      let e := s.table i
      if e.state ≠ .validStatic then
        (s.write i { e with
          age := true
          state := .validStatic
          portId := if e.portId ≠ portId then portId % 2 else e.portId }, .ok)
      else (s.write i e, .ok)
    | none =>
      match brgArlFreeEntryFind s.table with
      | some i => (s.write i (staticEntry portId ⟨vlanId, mac⟩), .ok)
      | none => (s, .tableFull)

/-- Only the table is written. -/
theorem brgArlMacAdd_frame (s : Arl) (portId vlanId : Nat) (mac : Mac) :
    (brgArlMacAdd s portId vlanId mac).1 =
      { s with table := (brgArlMacAdd s portId vlanId mac).1.table } := by
  rw [brgArlMacAdd]
  split
  · rfl
  · split
    · dsimp only
      split <;> rfl
    · split <;> rfl

/-- `brgArlMacDel`.  When nothing is found the compared `portId` is that of the cleared
`mac_entry`, and both ways end without a write. -/
def brgArlMacDel (s : Arl) (portId vlanId : Nat) (mac : Mac) : Arl × Status :=
  if maxNumOfVlan < vlanId ∨ vlanId = 0 then (s, .error)
  else
    match brgArlMacExist s.table ⟨vlanId, mac⟩ with
    | some i => if (s.table i).portId ≠ portId then (s, .ok) else (s.write i .zero, .ok)
    | none => (s, .ok)

/-- `brgArlInit`. -/
def brgArlInit (s : Arl) : Arl :=
  { s with
    table := fun i => if i < ponBrgMacEntryNum then .zero else s.table i
    softLearnMacs := [] }

/-! ### Software learning -/

/-- `brgSoftArlMacAdd`: a known station is given the new port. -/
def brgSoftArlMacAdd (s : Arl) (portId vlanId : Nat) (mac : Mac) : Arl :=
  if (lookup stationKeys ⟨vlanId, mac⟩ s.softLearnMacs).isSome then
    { s with softLearnMacs := replaceFirst stationKeys ⟨vlanId, mac⟩ portId s.softLearnMacs }
  else { s with softLearnMacs := s.softLearnMacs ++ [(⟨vlanId, mac⟩, portId)] }

/-- The loop of `brgSoftArlMacFlush`. -/
def flushList : List (Station × Nat) → Arl → Arl
  | [], s => s
  | (k, portId) :: rest, s => flushList rest (brgArlMacDel s portId k.vlanId k.mac).1

/-- `brgSoftArlMacFlush`. -/
def brgSoftArlMacFlush (s : Arl) : Arl :=
  { flushList s.softLearnMacs s with softLearnMacs := [] }

/-- The capture registers when `brgArlIntProcess` runs, and the bytes its `mac` starts with. -/
structure Capture where
  arlCapReg0 : BitVec 32
  arlCapReg1 : BitVec 32
  stackMac : Mac
deriving DecidableEq

def Capture.valid (c : Capture) : Prop := c.arlCapReg1 &&& 0x80000000 ≠ 0

instance (c : Capture) : Decidable c.valid := inferInstanceAs (Decidable (_ ≠ _))

def Capture.portId (c : Capture) : Nat :=
  if c.valid then (c.arlCapReg1 >>> 28 &&& 0x1).toNat else 0

def Capture.vlanId (c : Capture) : Nat :=
  if c.valid then (c.arlCapReg1 >>> 16 &&& 0xfff).toNat else 0

def Capture.mac (c : Capture) : Mac :=
  if c.valid then c.arlCapReg1.extractLsb' 0 16 ++ c.arlCapReg0 else c.stackMac

def Capture.station (c : Capture) : Station := ⟨c.vlanId, c.mac⟩

/-- `brgArlIntProcess`. -/
def brgArlIntProcess (s : Arl) (c : Capture) : Arl :=
  (brgArlMacAdd (brgSoftArlMacAdd s c.portId c.vlanId c.mac) c.portId c.vlanId c.mac).1

/-! ### Limit and flush -/

/-- A loop over entries: the table behind it, whether it came to its end, and the entries it
addressed.  `brgArlEntryHwRead` or `oplTabWrite` refuses an entry the table does not have. -/
structure Sweep where
  table : Nat → MacEntry
  ok : Bool
  addressed : List Nat

def sweep (f : MacEntry → MacEntry) : List Nat → (Nat → MacEntry) → Sweep
  | [], table => ⟨table, true, []⟩
  | i :: is, table =>
    if i < ponBrgMacEntryNum then
      let rest := sweep f is (Function.update table i (f (table i)))
      { rest with addressed := i :: rest.addressed }
    else ⟨table, false, [i]⟩

/-- The two loops of a flush. -/
def flushSweep (f : MacEntry → MacEntry) (limit : Nat) (table : Nat → MacEntry) : Sweep :=
  let first := sweep f (List.range limit) table
  if first.ok then
    let second := sweep (fun _ => .blocked) (List.range' limit (ponBrgMacEntryNum - limit)) first.table
    { second with addressed := first.addressed ++ second.addressed }
  else first

/-- What `dalArlFlushDynamic` writes to an entry below the limit: a static one it leaves. -/
def dropDynamic (e : MacEntry) : MacEntry := if e.state = .validStatic then e else .zero

/-- A flush that fails returns with learning switched off. -/
def Arl.afterFlush (s : Arl) (r : Sweep) : Arl :=
  { s with table := r.table, learnEn := if r.ok then s.learnEn else false }

def dalArlFlushDynamic (s : Arl) : Arl :=
  s.afterFlush (flushSweep dropDynamic s.arlMacNumLimit s.table)

def dalArlFlushAll (s : Arl) : Arl :=
  s.afterFlush (flushSweep (fun _ => .zero) s.arlMacNumLimit s.table)

/-- `brgArlMacNumLimitSet`: the last entries are blocked. -/
def brgArlMacNumLimitSet (s : Arl) (enable : Bool) (numOfArlNum : Nat) : Arl × Status :=
  if enable then
    if ponBrgMacEntryNum < numOfArlNum then (s, .invalidParameters)
    else
      let s := brgArlInit s
      let num := ponBrgMacEntryNum - numOfArlNum
      let table := (List.range num).foldl
        (fun t index => Function.update t (ponBrgMacEntryNum - 1 - index) .blocked) s.table
      ({ s with table, fullDropEn := true }, .ok)
  else ({ brgArlInit s with fullDropEn := false }, .ok)

/-- `dalArlMacNumLimitSet`. -/
def dalArlMacNumLimitSet (s : Arl) (enable : Bool) (num : Nat) : Arl × Status :=
  brgArlMacNumLimitSet { s with arlMacNumLimit := num } enable num

end Opconn.Bridge
