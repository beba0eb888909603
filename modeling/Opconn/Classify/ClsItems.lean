import Opconn.Classify.AclList
import Opconn.Classify.TableInvariant

/-!
# Records of installed rules

`dal_cls.c` keeps a record of every rule it installs in `gClassifyItem`: the parameter block,
the id of the rule and a shadow of where its entries are in the tables.  Rules of the
classification list are removed and moved through the shadow, by slot numbers alone;
dynamic rules are removed by content.  This is the layer below the list: the three calls
of the list and the two for dynamic rules.
-/

namespace Opconn.Classify

/-! ### Records -/

/-- The records that rules use: `CLASSIFY_MAX_ITEM_NUM - MAX_GROUP_NUM`. -/
abbrev maxItem : Nat := 96

/-- `CLASSIFY_ITEM_t`. -/
structure ClassifyItem where
  parameter : Parameter
  classifyRuleID : Nat
  shadowtbl : HwTbl
  valid : Bool

def Parameter.zero : Parameter :=
  ⟨.other, false, false, 0, 0, .zero, fun _ => 0, fun _ => 0⟩

def ClassifyItem.zero : ClassifyItem := ⟨.zero, 0, ⟨0, 0, 0, 0⟩, false⟩

/-- The tables and `gClassifyItem`. -/
@[ext]
structure Cls where
  tables : Tables
  items : Nat → ClassifyItem

def clsInit : Cls := ⟨dalClsRst, fun _ => .zero⟩

def setItem (d : Cls) (i : Nat) (item : ClassifyItem) : Cls :=
  { d with items := Function.update d.items i item }

/-- The status of an error. -/
def ClsError.status : ClsError → Int
  | .invalidPktType => -10001
  | .maskRuleMake => -1
  | .maskTableFull => -10016
  | .maskfSelectNull => -10004
  | .freeInvalidMentry => -10006
  | .ruleItemSame => -10007
  | .ruleNullItem => -10005
  | .addrTableCollision => -10008
  | .ruleTableFull => -10009

theorem ClsError.status_ne (e : ClsError) : e.status ≠ noError := by
  cases e <;> decide

/-! ### Parameter blocks -/

/-- `CTC_ETHER_PRI_7`, `CTC_QUEUE_MAP_7` and the value `END` of both. -/
abbrev ctcEtherPri7 : Nat := 7
abbrev ctcQueueMap7 : Nat := 7
abbrev ctcMapEnd : Nat := 0xFF

/-- `CHANGE_COS_FIELD` and `CHANGE_ICOS_FIELD`. -/
abbrev changeCosField : Nat := 1
abbrev changeIcosField : Nat := 2

/-- The priority and the queue of a rule are ones the chip knows; queue 7 is kept for OAM. -/
def mapsValid (stClassCfg : ClsConfigInfo) : Bool :=
  (stClassCfg.cosMapVal ≤ ctcEtherPri7 || stClassCfg.cosMapVal = ctcMapEnd) &&
    (stClassCfg.queueMapId < ctcQueueMap7 || stClassCfg.queueMapId = ctcMapEnd)

/-- The action of a rule. -/
def convertAction (c : ClsConfigInfo) : RuleAction :=
  let cos := c.cosMapVal ≤ ctcEtherPri7
  let icos := c.queueMapId < ctcQueueMap7
  let vid := c.rmkVidOp = 2 ∨ c.rmkVidOp = 3
  { bfTranActH := (c.tAct &&& 8) >>> 3
    bfTranActL := c.tAct &&& 7
    bfRmkAct := (if cos ∧ c.rmkCosChange then changeCosField else 0) |||
      (if icos ∧ c.rmkIcosChange then changeIcosField else 0) |||
      (if vid then c.rmkVidOp <<< 2 else 0)
    bfRmkCos := if cos then c.cosMapVal else 0
    bfRmkIcos := if icos then c.queueMapId else 0
    bfRmkVid := if vid then c.rmkVid else 0 }

/-- The block `dalClsConvertPara` fills in, for `CLASSIFY_EII_IP`. -/
def convertBlock (c : ClsConfigInfo) : Parameter where
  pktType := .eiiIp
  egressMask := false
  ingressMask := c.ingressMask
  maskPri := c.rulePri
  fieldMap := c.fieldMap
  ruleEntry := { RuleEntry.zero with action := convertAction c, bfIngress := c.bIngress }
  pktRuleValue := fun i => c.lowRange i &&& c.highRange i
  pktUsrMask := c.highRange

/-- What is converted of a rule with an unknown priority or queue: nothing from the queue
on. -/
def upToQueue (c : ClsConfigInfo) : ClsConfigInfo :=
  { c with
    queueMapId := ctcMapEnd
    rmkVidOp := 0
    fieldMap := 0
    lowRange := fun _ => 0
    highRange := fun _ => 0 }

/-- `dalClsConvertPara`: the record it leaves, and whether it takes the rule. -/
def dalClsConvertPara (c : ClsConfigInfo) : ClassifyItem × Bool :=
  if mapsValid c then ({ ClassifyItem.zero with parameter := convertBlock c }, true)
  else ({ ClassifyItem.zero with parameter := convertBlock (upToQueue c) }, false)

/-! ### Calls -/

/-- `firstEmptyRuleId`. -/
def firstEmptyRuleId (d : Cls) : Option Nat :=
  (List.range maxItem).find? fun i => !(d.items i).valid

/-- The check for the same rule: the match values, and for rules of the list the match
fields as well. -/
def sameItem (fields : Bool) (a b : Parameter) : Bool :=
  a.pktRuleValue = b.pktRuleValue && (!fields || a.fieldMap = b.fieldMap)

def isDuplicate (fields : Bool) (d : Cls) (par : Parameter) : Bool :=
  (List.range maxItem).any fun i =>
    (d.items i).valid && sameItem fields par (d.items i).parameter

section Calls

variable (make : Parameter → Option (MaskEntry × RuleEntry))

/-- What `dalOnuClsRuleCtcAdd` and `dalVoipClsRuleCtcAdd` have in common. -/
def ctcAddWith (fields : Bool) (d : Cls) (stClassCfg : ClsConfigInfo) : CtcAdded Cls :=
  match firstEmptyRuleId d with
  | none => ⟨d, -1, none, none⟩
  | some idx =>
    let converted := dalClsConvertPara stClassCfg
    let d₁ := setItem d idx converted.1
    if converted.2 = false then ⟨d₁, -2, none, none⟩
    else if isDuplicate fields d₁ converted.1.parameter then ⟨d₁, -1, none, none⟩
    else
      match dalClsEntrySet make d₁.tables converted.1.parameter with
      | (t, .error e) => ⟨setItem { d₁ with tables := t } idx .zero, e.status, some idx, none⟩
      | (t, .ok hw) =>
        ⟨setItem { d₁ with tables := t } idx
            { converted.1 with classifyRuleID := hw.clsHwRuleID, shadowtbl := hw, valid := true },
          noError, some idx, some hw⟩

/-- `dalOnuClsRuleCtcAdd`. -/
def dalOnuClsRuleCtcAdd (d : Cls) (stClassCfg : ClsConfigInfo) : CtcAdded Cls :=
  ctcAddWith make true d stClassCfg

/-- `dalVoipClsRuleCtcAdd`. -/
def dalVoipClsRuleCtcAdd (d : Cls) (stClassCfg : ClsConfigInfo) : CtcAdded Cls :=
  ctcAddWith make false d stClassCfg

/-- `dalOnuClsRuleCtcDel`. -/
def dalOnuClsRuleCtcDel (d : Cls) (ruleIndex : Nat) : Cls :=
  setItem { d with tables := dalClsTblEntryRemove d.tables (d.items ruleIndex).shadowtbl }
    ruleIndex .zero

/-- `dalOnuClsRuleCtcChange`. -/
def dalOnuClsRuleCtcChange (d : Cls) (ruleIndex newmask : Nat) : Cls × Int :=
  let item := d.items ruleIndex
  let oldmask := item.shadowtbl.clsHwMaskID
  let ruleId := item.shadowtbl.clsHwRuleID
  (setItem { d with tables := dalClsTblEntryChange d.tables oldmask ruleId newmask } ruleIndex
    { item with shadowtbl := { item.shadowtbl with clsHwMaskID := newmask } }, noError)

/-- The layer below the list. -/
def clsDal : Dal Cls where
  ctcAdd := dalOnuClsRuleCtcAdd make
  ctcDel := dalOnuClsRuleCtcDel
  ctcChange := dalOnuClsRuleCtcChange

/-- `dalClsRuleToDalIndex`. -/
def dalClsRuleToDalIndex (d : Cls) (ruleid : Nat) : Option Nat :=
  (List.range maxItem).find? fun i => (d.items i).classifyRuleID = ruleid

/-- `dalClsDelEntry`. -/
def dalClsDelEntry (d : Cls) (ruleid : Nat) : Cls :=
  match dalClsRuleToDalIndex d ruleid with
  | none => d
  | some ruleIndex =>
    match dalClsEntryMove make d.tables (d.items ruleIndex).parameter with
    | (t, .error _) => { d with tables := t }
    | (t, .ok _) => setItem { d with tables := t } ruleIndex .zero

/-- The calls that reach the rules: those of the list and those for dynamic rules. -/
inductive ClsOp where
  | list (op : AclOp)
  | voipAdd (stClassCfg : ClsConfigInfo)
  | delEntry (ruleid : Nat)

def clsStep (s : Acl Cls) : ClsOp → Acl Cls
  | .list op => aclStep (clsDal make) s op
  | .voipAdd stClassCfg => { s with dal := (dalVoipClsRuleCtcAdd make s.dal stClassCfg).dal }
  | .delEntry ruleid => { s with dal := dalClsDelEntry make s.dal ruleid }

end Calls

end Opconn.Classify
