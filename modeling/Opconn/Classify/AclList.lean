import Opconn.Classify.Tables
import Opconn.Lib.Runs

/-!
# The classification list

`odm_qos.c` keeps the rules of the ONU in one list: the rules without precedence in front,
then those of precedence 1 to `ACL_MAX_PRI`.  Adding a rule at an occupied precedence moves
the rules from there on down by one and drops the one at the end; removing a rule moves the
rules behind it up.  The hardware layer is a parameter here: the list functions tell it
what they do and read the status it returns.  The list keeps its order and its counters
unless a rule without precedence is removed by number.
-/

namespace Opconn.Classify

open Runs

/-! ### Rules -/

/-- `ACL_MAX_PRI`. -/
abbrev aclMaxPri : Nat := 8

/-- `CLS_CONFIG_INFO_t`.  The match fields are laid out as in `ClsDataValue_t`, with zeros
where the flag of a field is off; `fieldMap` has the flags. -/
structure ClsConfigInfo where
  rulePri : Nat
  tAct : Nat
  queueMapId : Nat
  cosMapVal : Nat
  ingressMask : Bool
  bIngress : Bool
  rmkVidOp : Nat
  rmkCosChange : Bool
  rmkIcosChange : Bool
  rmkVid : Nat
  fieldMap : UInt32
  lowRange : ClsDataValue
  highRange : ClsDataValue
deriving DecidableEq

/-- `opl_acl_list_t`; `node` is the address of the record. -/
structure AclRule where
  node : Nat
  rulepri : Nat
  dalindex : Nat
  hwshadow : HwTbl
  stClassCfg : ClsConfigInfo
deriving DecidableEq

/-- The `dalindex` of a rule that the layer below does not know. -/
abbrev noDalIndex : Nat := 0xFFFF

def noError : Int := 0
def qosGeneralError : Int := 9000
def qosInvalidPointer : Int := 9001

/-- What `dalOnuClsRuleCtcAdd` leaves: the state, its status and what it wrote into the
record. -/
structure CtcAdded (δ : Type) where
  dal : δ
  status : Int
  dalindex : Option Nat
  hwshadow : Option HwTbl

/-- `dalOnuClsRuleCtcAdd`, `dalOnuClsRuleCtcDel` and `dalOnuClsRuleCtcChange`; the last two
read nothing of a record but its `dalindex`. -/
structure Dal (δ : Type) where
  ctcAdd : δ → ClsConfigInfo → CtcAdded δ
  ctcDel : δ → Nat → δ
  ctcChange : δ → Nat → Nat → δ × Int

/-- The list under `g_acl_list`, its counters, the number of records allocated so far and
the state of the layer below. -/
@[ext]
structure Acl (δ : Type) where
  rules : List AclRule
  prinum : Nat
  tcnum : Nat
  allocated : Nat
  dal : δ

/-- Counters of one byte and of two. -/
def incr8 (n : Nat) : Nat := (n + 1) % 256
def decr8 (n : Nat) : Nat := (n + 255) % 256
def incr16 (n : Nat) : Nat := (n + 1) % 65536
def decr16 (n : Nat) : Nat := (n + 65535) % 65536

section Operations

variable {δ : Type} (dal : Dal δ)

/-! ### Adding a rule -/

/-- What the walk of `OdmAclListAdd` changes beside the list. -/
structure Walk (δ : Type) where
  dal : δ
  prinum : Nat
  tcnum : Nat
  status : Int

/-- `OdmAclListDelLowestPre`. -/
def odmAclListDelLowestPre (rules : List AclRule) (w : Walk δ) : List AclRule × Walk δ :=
  match rules.getLast? with
  | none => (rules, w)
  | some pClsinfo =>
    if 0 < pClsinfo.rulepri then
      (rules.dropLast, { w with
        dal := dal.ctcDel w.dal pClsinfo.dalindex
        prinum := decr8 w.prinum
        tcnum := decr16 w.tcnum })
    else (rules, w)

/-- A rule moved down by one precedence; its mask slot is the precedence less one. -/
def raised (tmp : AclRule) : AclRule :=
  { tmp with
    rulepri := tmp.rulepri + 1
    hwshadow := { tmp.hwshadow with clsHwMaskID := tmp.rulepri } }

def raise (tmp : AclRule) (w : Walk δ) : Walk δ :=
  let changed := dal.ctcChange w.dal tmp.dalindex tmp.rulepri
  { w with dal := changed.1, status := changed.2 }

/-- The walk of `OdmAclListAdd` from the end of the list: the rules not looked at yet, last
first, and those behind them.  The result is the list up to the place of the new rule and
the list behind it. -/
def addWalk (rulepri : Nat) (occupied : Bool) :
    List AclRule → List AclRule → Walk δ → List AclRule × List AclRule × Walk δ
  | [], behind, w => ([], behind, w)
  | tmp :: rest, behind, w =>
    if occupied ∧ tmp.rulepri = aclMaxPri then
      let dropped := odmAclListDelLowestPre dal (rest.reverse ++ tmp :: behind) w
      addWalk rulepri occupied rest (dropped.1.drop rest.length) dropped.2
    else if occupied ∧ rulepri ≤ tmp.rulepri then
      addWalk rulepri occupied rest (raised tmp :: behind) (raise dal tmp w)
    else if tmp.rulepri < rulepri then ((tmp :: rest).reverse, behind, w)
    else addWalk rulepri occupied rest (tmp :: behind) w

/-- `OdmAclListFindPre`. -/
def odmAclListFindPre (rules : List AclRule) (precedence : Nat) : Option AclRule :=
  rules.find? fun r => r.rulepri = precedence

/-- A rule moved up by one precedence; a rule that leaves precedence 1 keeps its place in
the list. -/
def lowered (tmp : AclRule) : AclRule :=
  if 0 < tmp.rulepri then
    { tmp with
      rulepri := tmp.rulepri - 1
      hwshadow := { tmp.hwshadow with clsHwMaskID := decr16 (tmp.rulepri - 1) } }
  else tmp

def lower (d : δ) (tmp : AclRule) : δ :=
  if 0 < tmp.rulepri then (dal.ctcChange d tmp.dalindex (decr16 (tmp.rulepri - 1))).1 else d

/-- `OdmAclListDel`. -/
def odmAclListDel (s : Acl δ) (precedence : Nat) : Acl δ × Int :=
  if aclMaxPri < precedence then (s, qosInvalidPointer)
  else
    match s.rules.dropWhile fun r => r.rulepri ≠ precedence with
    | [] => (s, qosGeneralError)
    | pClsinfo :: later =>
      let dal₁ :=
        if pClsinfo.dalindex ≠ noDalIndex then dal.ctcDel s.dal pClsinfo.dalindex else s.dal
      ({ s with
          rules := (s.rules.takeWhile fun r => r.rulepri ≠ precedence) ++ later.map lowered
          prinum := decr8 s.prinum
          tcnum := decr16 s.tcnum
          dal := later.foldl (lower dal) dal₁ }, noError)

/-- A fresh record for `stClassCfg`. -/
def newRule (s : Acl δ) (stClassCfg : ClsConfigInfo) (dalindex : Nat) : AclRule :=
  ⟨s.allocated, stClassCfg.rulePri, dalindex, ⟨0, 0, 0, 0⟩, stClassCfg⟩

/-- What the layer below wrote into a record. -/
def recorded (r : AclRule) (a : CtcAdded δ) : AclRule :=
  { r with dalindex := a.dalindex.getD r.dalindex, hwshadow := a.hwshadow.getD r.hwshadow }

/-- The list of `OdmAclListAdd` for a rule with precedence, before its status is looked at. -/
def listInsert (s : Acl δ) (stClassCfg : ClsConfigInfo) : Acl δ × Int :=
  let rulepri := stClassCfg.rulePri
  let walked := addWalk dal rulepri (odmAclListFindPre s.rules rulepri).isSome
    s.rules.reverse [] ⟨s.dal, s.prinum, s.tcnum, noError⟩
  let added := dal.ctcAdd walked.2.2.dal stClassCfg
  ({ rules := walked.1 ++ recorded (newRule s stClassCfg noDalIndex) added :: walked.2.1
     prinum := incr8 walked.2.2.prinum
     tcnum := incr16 walked.2.2.tcnum
     allocated := s.allocated + 1
     dal := added.dal }, walked.2.2.status + added.status)

/-- `OdmAclListAdd`.  For a rule without precedence the status of the layer below is not
looked at. -/
def odmAclListAdd (s : Acl δ) (stClassCfg : ClsConfigInfo) : Acl δ × Int :=
  if aclMaxPri < stClassCfg.rulePri then (s, qosInvalidPointer)
  else if stClassCfg.rulePri = 0 then
    let added := dal.ctcAdd s.dal stClassCfg
    ({ s with
        rules := recorded (newRule s stClassCfg 0) added :: s.rules
        tcnum := incr16 s.tcnum
        allocated := s.allocated + 1
        dal := added.dal }, noError)
  else
    let inserted := listInsert dal s stClassCfg
    if inserted.2 ≠ noError then ((odmAclListDel dal inserted.1 stClassCfg.rulePri).1, inserted.2)
    else (inserted.1, noError)

/-- One rule of `OdmAclListClearAll`. -/
def clearRule (flag : Bool) (s : Acl δ) (pClsinfo : AclRule) : Acl δ :=
  if flag ∨ 0 < pClsinfo.rulepri then
    { s with
      prinum := if 0 < pClsinfo.rulepri then decr8 s.prinum else s.prinum
      tcnum := decr16 s.tcnum
      dal := dal.ctcDel s.dal pClsinfo.dalindex }
  else { s with rules := s.rules ++ [pClsinfo] }

/-- `OdmAclListClearAll`: the rules that stay are kept in order. -/
def odmAclListClearAll (s : Acl δ) (flag : Bool) : Acl δ :=
  s.rules.foldl (clearRule dal flag) { s with rules := [] }

/-- A call of one of the three. -/
inductive AclOp where
  | add (stClassCfg : ClsConfigInfo)
  | del (precedence : Nat)
  | clearAll (flag : Bool)

def aclStep (s : Acl δ) : AclOp → Acl δ
  | .add stClassCfg => (odmAclListAdd dal s stClassCfg).1
  | .del precedence => (odmAclListDel dal s precedence).1
  | .clearAll flag => odmAclListClearAll dal s flag

end Operations

/-- The list after the system starts. -/
def aclInit {δ : Type} (d : δ) : Acl δ := ⟨[], 0, 0, 0, d⟩

end Opconn.Classify
