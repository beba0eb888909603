import Mathlib.Algebra.Group.Nat.Defs
import Opconn.Lib.Runs
import Opconn.Lib.Text

/-!
# The multicast VLANs of a port

Which VLANs carry multicast on a port is kept three times: as bits in `mcVlanMap`,
as entries programmed into the switch, and as a comma-separated list of decimal
numbers in the configuration, from which a restart rebuilds the other two.
`odmMcVlanMapAdd` and `odmMcVlanMapDel` look for a VLAN in the list by `strstr`, so
they may find it inside the number of another one.
-/

namespace Opconn.Multicast

open Runs Text

/-! ### State -/

inductive OplStatus where
  | ok
  | error
  | exist
  | notExist
deriving DecidableEq, Repr

/-- `BIG_BUF_LEN`, the size of the buffers the list is edited in. -/
def bigBufLen : Nat := 2048

/-- `MAX_VLAN_ID`. -/
def maxVlanId : Nat := 4095

/-- `config` is the value of key `multicast_vlan` in the section of a port,
`mcVlanMap` the bit of a port in the word of a VLAN, `dalVlanMap` whether a pair of
port and VLAN was last added to the switch or deleted.  `overrun` records that a
text was written past the end of its buffer. -/
structure VlanState where
  config : Nat → Option (List Char)
  mcVlanMap : Nat → Nat → Bool
  dalVlanMap : Nat → Nat → Bool
  overrun : Bool

/-- `vosSprintf(..., "%d", vlanId)`. -/
def decimal (vlanId : Nat) : List Char := Nat.toDigits 10 vlanId

def mcVlanMapSet (s : VlanState) (portId vlanId : Nat) (bit : Bool) : VlanState :=
  { s with mcVlanMap := fun v p => if v = vlanId ∧ p = portId then bit else s.mcVlanMap v p }

def mcVlanMapAdd (s : VlanState) (portId vlanId : Nat) : VlanState :=
  mcVlanMapSet s portId vlanId true

def mcVlanMapDel (s : VlanState) (portId vlanId : Nat) : VlanState :=
  mcVlanMapSet s portId vlanId false

def mcVlanMapExist (s : VlanState) (portId vlanId : Nat) : Bool := s.mcVlanMap vlanId portId

def dalVlanMapSet (s : VlanState) (portId vlanId : Nat) (bit : Bool) : VlanState :=
  { s with dalVlanMap := fun p v => if v = vlanId ∧ p = portId then bit else s.dalVlanMap p v }

/-- `dalMcVlanMapAdd` and `dalMcVlanMapDel` report success whatever the switch said. -/
def dalMcVlanMapAdd (s : VlanState) (portId vlanId : Nat) : VlanState :=
  dalVlanMapSet s portId vlanId true

def dalMcVlanMapDel (s : VlanState) (portId vlanId : Nat) : VlanState :=
  dalVlanMapSet s portId vlanId false

def setConfig (s : VlanState) (portId : Nat) (value : Option (List Char)) : VlanState :=
  { s with config := Function.update s.config portId value }

/-! ### The two calls -/

/-- The text that adding a VLAN writes. -/
def appended (configFileStr : Option (List Char)) (vlanId : Nat) : List Char :=
  match configFileStr with
  | none => decimal vlanId
  | some text => text ++ ',' :: decimal vlanId

/-- `odmMcVlanMapAdd`. -/
def odmMcVlanMapAdd (s : VlanState) (portId vlanId : Nat) : OplStatus × VlanState :=
  if mcVlanMapExist s portId vlanId then (.ok, s)
  else
    let s := dalMcVlanMapAdd s portId vlanId
    let found :=
      match s.config portId with
      | none => none
      | some configFileStr => strstr configFileStr (decimal vlanId)
    match found with
    | some _ => (.exist, s)
    | none =>
      let newStr := appended (s.config portId) vlanId
      let s := { s with overrun := s.overrun || bigBufLen ≤ newStr.length }
      (.ok, mcVlanMapAdd (setConfig s portId (some newStr)) portId vlanId)

/-- `odmMcVlanMapDel`. -/
def odmMcVlanMapDel (s : VlanState) (portId vlanId : Nat) : OplStatus × VlanState :=
  let s := mcVlanMapDel s portId vlanId
  let s := dalMcVlanMapDel s portId vlanId
  match s.config portId with
  | none => (.error, s)
  | some configFileStr =>
    let s := { s with overrun := s.overrun || bigBufLen ≤ configFileStr.length }
    match strstr configFileStr (decimal vlanId) with
    | none => (.error, s)
    | some p => (.ok, setConfig s portId (cutAt ',' configFileStr p))

/-! ### Restart -/

/-- `strtok_r(text, ",", ...)` called until it returns `NULL`. -/
def strtok (text : List Char) : List (List Char) := (text.splitOn ',').filter (· ≠ [])

/-- `atol`, as stored into a `uint32`. -/
def atol (p : List Char) : Nat :=
  let value := fun digits : List Char => Nat.ofDigitChars 10 (digits.takeWhile Char.isDigit) 0
  match p.dropWhile Char.isWhitespace with
  | '-' :: digits => (2 ^ 32 - value digits % 2 ^ 32) % 2 ^ 32
  | '+' :: digits => value digits % 2 ^ 32
  | digits => value digits % 2 ^ 32

/-- The VLANs a restart takes from the list of a port. -/
def storedVlans (configFileStr : Option (List Char)) : List Nat :=
  match configFileStr with
  | none => []
  | some text => ((strtok text).map atol).filter (0 < ·)

/-- The VLAN part of `mcInitFromConfigFile`, for one port. -/
def initPortFromConfigFile (s : VlanState) (portId : Nat) : VlanState :=
  (storedVlans (s.config portId)).foldl
    (fun s vlanId => mcVlanMapAdd (dalMcVlanMapAdd s portId vlanId) portId vlanId)
    { s with overrun := s.overrun || bigBufLen ≤ ((s.config portId).getD []).length }

/-- The VLAN part of `mcInitFromConfigFile`. -/
def mcInitFromConfigFile (numOfPorts : Nat) (s : VlanState) : VlanState :=
  ((List.range numOfPorts).map (· + 1)).foldl initPortFromConfigFile s

/-- The configuration survives a restart, maps and switch start empty. -/
def restart (numOfPorts : Nat) (s : VlanState) : VlanState :=
  mcInitFromConfigFile numOfPorts
    { s with mcVlanMap := fun _ _ => false, dalVlanMap := fun _ _ => false }

def vlanInit : VlanState where
  config := fun _ => none
  mcVlanMap := fun _ _ => false
  dalVlanMap := fun _ _ => false
  overrun := false

inductive VlanEvent where
  | add (portId vlanId : Nat)
  | del (portId vlanId : Nat)
  | reboot
deriving DecidableEq, Repr

def vlanStep (numOfPorts : Nat) (s : VlanState) : VlanEvent → VlanState
  | .add portId vlanId => (odmMcVlanMapAdd s portId vlanId).2
  | .del portId vlanId => (odmMcVlanMapDel s portId vlanId).2
  | .reboot => restart numOfPorts s

/-! ### What is to agree -/

/-- `IS_VALID_PORT_ID`. -/
def validPort (numOfPorts portId : Nat) : Prop := 1 ≤ portId ∧ portId ≤ numOfPorts

instance (numOfPorts portId : Nat) : Decidable (validPort numOfPorts portId) :=
  inferInstanceAs (Decidable (1 ≤ portId ∧ portId ≤ numOfPorts))

/-- **The three representations agree**, and a restart brings back what there was. -/
structure Agree (numOfPorts : Nat) (s : VlanState) : Prop where
  intact : s.overrun = false
  parsed : ∀ portId, validPort numOfPorts portId → ∀ vlanId,
    vlanId ∈ storedVlans (s.config portId) ↔ s.mcVlanMap vlanId portId = true
  programmed : ∀ portId, validPort numOfPorts portId → ∀ vlanId,
    s.dalVlanMap portId vlanId = s.mcVlanMap vlanId portId
  restored : ∀ portId, validPort numOfPorts portId → ∀ vlanId,
    (restart numOfPorts s).mcVlanMap vlanId portId = s.mcVlanMap vlanId portId ∧
      (restart numOfPorts s).dalVlanMap portId vlanId = s.mcVlanMap vlanId portId

/-- **The condition on a call.**  Port and VLAN are in range, VLAN 0 excluded; a VLAN is
added only when no VLAN stored for the port contains its decimal text and the list still
fits its buffer; it is deleted only when no VLAN stored in front of it contains its text. -/
def editAllowed (numOfPorts : Nat) (s : VlanState) : VlanEvent → Prop
  | .add portId vlanId =>
    validPort numOfPorts portId ∧ 1 ≤ vlanId ∧ vlanId ≤ maxVlanId ∧
      (mcVlanMapExist s portId vlanId = false →
        (∀ u ∈ storedVlans (s.config portId), ¬decimal vlanId <:+: decimal u) ∧
          (appended (s.config portId) vlanId).length < bigBufLen)
  | .del portId vlanId =>
    validPort numOfPorts portId ∧ 1 ≤ vlanId ∧ vlanId ≤ maxVlanId ∧
      ∀ u ∈ (storedVlans (s.config portId)).takeWhile (· ≠ vlanId),
        ¬decimal vlanId <:+: decimal u
  | .reboot => True

instance (numOfPorts : Nat) (s : VlanState) : (e : VlanEvent) →
    Decidable (editAllowed numOfPorts s e)
  | .add _ _ => instDecidableAnd
  | .del _ _ => instDecidableAnd
  | .reboot => inferInstanceAs (Decidable True)

end Opconn.Multicast
