import Opconn.Classify.AclNumbers
import Opconn.Oam.ClassifyRules

/-!
# Removing the classification rules that a SET lists

`eopl_set_onu_classfy_2_0` and `eopl_set_onu_classfy` remove the rules of a request by their
precedences, one after the other, from a list that closes up behind each.  The first of the two
reads the precedence of the first record every time; the second goes from record to record.
-/

namespace Opconn.Oam.Ctc.Rules

open Runs NumberedList
open Classify (Acl AclOp AclOrdered Dal aclInit aclStep anyPacket noError nodes numbered
  odmAclListClearAll odmAclListDel takesAll)

/-! ### Requests -/

def oamClassifyActionDel : UInt8 := 0x00
def oamClassifyActionAdd : UInt8 := 0x01
def oamClassifyActionClr : UInt8 := 0x02

/-- `sizeof(oam_clasmark_t)`. -/
def clasmarkSize : Nat := 6

/-- `action` of `oam_clasmark_t`. -/
def actionAt (p_in : Ptr) : UInt8 := p_in 4

/-- `numOfRule` of `oam_clasmark_t`. -/
def numOfRuleAt (p_in : Ptr) : UInt8 := p_in 5

/-- The records at `p_in`, each with the place of its fields. -/
def recordsAt : Nat → Ptr → List (RuleBody × Ptr)
  | 0, _ => []
  | n + 1, p_in =>
    let pClsRule := ruleBodyAt p_in
    let pClsField := Ptr.add p_in ruleBodySize
    (pClsRule, pClsField) ::
      recordsAt n (Ptr.add pClsField (fieldBodySize * pClsRule.numOfField.toNat))

/-- The precedences of the records behind the header. -/
def precedencesAt (p_in : Ptr) : List UInt8 :=
  (recordsAt (numOfRuleAt p_in).toNat (Ptr.add p_in clasmarkSize)).map fun r =>
    r.1.precedenceOfRule

/-! ### Ports -/

/-- `ucPortS` to `ucPortE` in 2.0; all ports are the first. -/
def ports20 (value : UInt8) : Option (List UInt8) :=
  if value = 0xFF then some [1]
  else if 1 < value then none
  else some [value]

def oamCtcPortTypeEth : UInt8 := 0x1

/-- `OAM_GET_PORT_TYPE`. -/
def oamGetPortType (value : UInt32) : UInt8 := ((value &&& 0xFF000000) >>> 24).toUInt8

/-- `OAM_GET_PORT_NUM`. -/
def oamGetPortNum (value : UInt32) : UInt16 := (value &&& 0x0000FFFF).toUInt16

/-- `portS` to `portE` in 2.1. -/
def ports21 (board : Board) (value : UInt32) : Option (List UInt8) :=
  let portNum := oamGetPortNum value
  let portMax := board.oamMaxInstanceId.toUInt16
  if oamGetPortType value ≠ oamCtcPortTypeEth ∨ (portMax < portNum ∧ portNum ≠ 0xFFFF) then none
  else if portNum = 0xFFFF then some [1]
  else if 1 < portNum then none
  else some [portNum.toUInt8]

section Handlers

variable {δ : Type} (dal : Dal δ)

/-! ### Handlers -/

/-- `stub_ctc_port_rule_clear`, in 2.0 and in 2.1. -/
def stubCtcPortRuleClear (s : Acl δ) (_ : UInt8) : Acl δ × UInt8 :=
  (odmAclListClearAll dal s false, oamSetOk)

/-- `stub_ctc_port_rule_delete`, in 2.0 and in 2.1. -/
def stubCtcPortRuleDelete (s : Acl δ) (_ precedenceOfRule : UInt8) : Acl δ × UInt8 :=
  let ret := odmAclListDel dal s precedenceOfRule.toNat
  (ret.1, if ret.2 = noError then oamSetOk else oamSetNoResource)

/-- A loop that is left by `goto send_rsp` when a call fails. -/
def untilRefused {α : Type} (call : Acl δ → α → Acl δ × UInt8) :
    List α → Acl δ × UInt8 → Acl δ × UInt8
  | [], x => x
  | a :: as, x =>
    let r := call x.1 a
    if r.2 = oamSetOk then untilRefused call as r else r

/-- Two loops, one within the other. -/
def each {α : Type} (as : List α) (ports : List UInt8) : List (UInt8 × α) :=
  as.flatMap fun a => ports.map fun curPortId => (curPortId, a)

/-- The actions of a request, with the precedences that DELETE takes. -/
def classify (stubAdd : Acl δ → UInt8 → UInt8 → RuleBody → Ptr → Acl δ × UInt8)
    (deleted : List UInt8) (ports : List UInt8) (p_in : Ptr) (x : Acl δ × UInt8) :
    Acl δ × UInt8 :=
  if actionAt p_in = oamClassifyActionClr then
    untilRefused (fun s _ => stubCtcPortRuleClear dal s (ports.headD 0)) ports x
  else if actionAt p_in = oamClassifyActionDel then
    untilRefused (fun s y => stubCtcPortRuleDelete dal s y.1 y.2) (each deleted ports) x
  else if actionAt p_in = oamClassifyActionAdd then
    untilRefused (fun s y => stubAdd s y.1 y.2.1.precedenceOfRule y.2.1 y.2.2)
      (each (recordsAt (numOfRuleAt p_in).toNat (Ptr.add p_in clasmarkSize)) ports) x
  else x

variable (stubAdd : Acl δ → UInt8 → UInt8 → RuleBody → Ptr → Acl δ × UInt8)

/-- `eopl_set_onu_classfy_2_0`: the list and the indication; `ret` is what the variable holds
before it is set.  DELETE does not move `p_in`. -/
def eoplSetOnuClassfy20 (value : UInt8) (p_in : Ptr) (s : Acl δ) (ret : UInt8) : Acl δ × UInt8 :=
  match ports20 value with
  | none => (s, oamSetBadParameters)
  | some ports =>
    classify dal stubAdd (List.replicate (numOfRuleAt p_in).toNat (p_in clasmarkSize)) ports p_in
      (s, ret)

/-- `eopl_set_onu_classfy`. -/
def eoplSetOnuClassfy (board : Board) (value : UInt32) (p_in : Ptr) (s : Acl δ) (ret : UInt8) :
    Acl δ × UInt8 :=
  match ports21 board value with
  | none => (s, oamSetBadParameters)
  | some ports => classify dal stubAdd (precedencesAt p_in) ports p_in (s, ret)

/-! ### What DELETE removes -/

/-- The records that are left are those whose precedence was not listed, in their order. -/
def ListedRemoved (listed : List Nat) (s s' : Acl δ) : Prop :=
  nodes s' = (s.rules.filter fun r => r.rulepri ∉ listed).map fun r => r.node

theorem nodes_unlisted (listed : List Nat) (s : Acl δ) : names (unlisted listed (numbered s)) =
    (s.rules.filter fun r => r.rulepri ∉ listed).map fun r => r.node := by
  rw [unlisted, numbered, List.filter_map, names, List.map_map]
  rfl

theorem length_precedencesAt (p_in : Ptr) :
    (precedencesAt p_in).length = (numOfRuleAt p_in).toNat := by
  have hrecords : ∀ n p, (recordsAt n p).length = n := by
    intro n
    induction n with
    | zero => exact fun _ => rfl
    | succ n ih =>
      intro p
      rw [recordsAt, List.length_cons, ih]
  rw [precedencesAt, List.length_map, hrecords]

/-- There is one port, whatever the instance. -/
theorem ports20_eq {value : UInt8} {ports : List UInt8} (h : ports20 value = some ports) :
    ∃ port, ports = [port] := by
  rw [ports20] at h
  split at h
  · exact ⟨1, (Option.some.inj h).symm⟩
  · split at h
    · cases h
    · exact ⟨value, (Option.some.inj h).symm⟩

theorem ports21_eq {board : Board} {value : UInt32} {ports : List UInt8}
    (h : ports21 board value = some ports) : ∃ port, ports = [port] := by
  rw [ports21] at h
  split at h
  · cases h
  · split at h
    · exact ⟨1, (Option.some.inj h).symm⟩
    · split at h
      · cases h
      · exact ⟨_, (Option.some.inj h).symm⟩

theorem each_singleton {α : Type} (as : List α) (port : UInt8) :
    each as [port] = as.map fun a => (port, a) := by
  rw [each, ← List.flatMap_pure_eq_map]
  rfl

variable {s : Acl δ}

/-- The loop of DELETE removes numbers from the list. -/
theorem numbered_untilRefused (h : AclOrdered s) (port : UInt8) (qs : List UInt8) (ret : UInt8) :
    numbered (untilRefused (fun s y => stubCtcPortRuleDelete dal s y.1 y.2)
      (qs.map fun q => (port, q)) (s, ret)).1 = removeAll (numbered s) (qs.map UInt8.toNat) := by
  induction qs generalizing s ret with
  | nil => rfl
  | cons q qs ih =>
    rw [List.map_cons, List.map_cons, untilRefused]
    rcases Classify.odmAclListDel_numbered dal h q.toNat with
      ⟨l, hremove, hstatus, hnumbered⟩ | ⟨hnone, hstatus, hstays⟩
    · have hok : (stubCtcPortRuleDelete dal s port q).2 = oamSetOk := by
        rw [stubCtcPortRuleDelete]
        exact if_pos hstatus
      have hrest := ih (Classify.aclOrdered_del dal h q.toNat)
        (stubCtcPortRuleDelete dal s port q).2
      rw [hnumbered] at hrest
      dsimp only
      rw [if_pos hok, removeAll_of_some hremove, ← hrest]
      rfl
    · have hfails : (stubCtcPortRuleDelete dal s port q).2 ≠ oamSetOk := by
        rw [stubCtcPortRuleDelete]
        dsimp only
        rw [if_neg hstatus]
        decide
      dsimp only
      rw [if_neg hfails, removeAll, hnone]
      exact congrArg numbered hstays

variable {dal stubAdd}

/-- What is left is what the removals of the precedences leave of the list. -/
theorem listedRemoved_classify_iff (h : AclOrdered s) {p_in : Ptr}
    (hdel : actionAt p_in = oamClassifyActionDel) (listed : List Nat) (deleted : List UInt8)
    (port ret : UInt8) :
    ListedRemoved listed s (classify dal stubAdd deleted [port] p_in (s, ret)).1 ↔
      names (removeAll (numbered s) (deleted.map UInt8.toNat)) =
        names (unlisted listed (numbered s)) := by
  have hclassify : classify dal stubAdd deleted [port] p_in (s, ret) =
      untilRefused (fun s y => stubCtcPortRuleDelete dal s y.1 y.2)
        (deleted.map fun q => (port, q)) (s, ret) := by
    rw [classify, if_neg (by rw [hdel]; decide), if_pos hdel, each_singleton]
  rw [ListedRemoved, hclassify, ← nodes_unlisted, ← Classify.names_numbered,
    numbered_untilRefused dal h]

/-- A request that is refused leaves the rules it lists. -/
theorem not_listedRemoved_self {listed : List Nat} (hne : listed ≠ []) (hdistinct : listed.Nodup)
    (honce : ∀ p ∈ listed, Once p (numbered s)) : ¬ListedRemoved listed s s := by
  intro hremoved
  have hlen := length_unlisted hdistinct honce
  have hpos := List.length_pos_iff.mpr hne
  have hnodes := congrArg List.length hremoved
  rw [← nodes_unlisted, ← Classify.names_numbered, names, names, List.length_map,
    List.length_map] at hnodes
  omega

end Handlers

/-- **DELETE.**  Where each of the precedences listed is that of one rule, exactly these rules
are removed in 2.0 when the precedences are the next ones from the first listed on, and in 2.1
when they fall; and the instance must name a port that the handler takes. -/
theorem delete_removes_listed_iff {δ : Type} (dal : Dal δ)
    (stubAdd : Acl δ → UInt8 → UInt8 → RuleBody → Ptr → Acl δ × UInt8) (d : δ) (ops : List AclOp)
    {s : Acl δ} (hs : s = run (aclStep dal) (aclInit d) ops) {p_in : Ptr}
    (hdel : actionAt p_in = oamClassifyActionDel) (hpos : 1 ≤ (numOfRuleAt p_in).toNat)
    {listed : List Nat} (hlisted : listed = (precedencesAt p_in).map UInt8.toNat)
    (hdistinct : listed.Nodup)
    (hhad : ∀ p ∈ listed, s.rules.countP (fun r => r.rulepri = p) = 1) (ret : UInt8) :
    (∀ value, ListedRemoved listed s (eoplSetOnuClassfy20 dal stubAdd value p_in s ret).1 ↔
      ports20 value ≠ none ∧ ∀ p ∈ listed, (p_in clasmarkSize).toNat ≤ p ∧
        p < (p_in clasmarkSize).toNat + listed.length) ∧
    (∀ board value,
      ListedRemoved listed s (eoplSetOnuClassfy dal stubAdd board value p_in s ret).1 ↔
        ports21 board value ≠ none ∧ listed.Pairwise (· > ·)) := by
  have hinv : AclOrdered s := by
    rw [hs]
    exact Classify.aclOrdered_run dal d ops
  have hnames : (names (numbered s)).Nodup := by
    rw [Classify.names_numbered]
    exact hinv.distinct
  have honce : ∀ p ∈ listed, Once p (numbered s) := by
    intro p hp
    rw [Once, numbered, List.countP_map]
    exact hhad p hp
  have hlen : listed.length = (numOfRuleAt p_in).toNat := by
    rw [hlisted, List.length_map, length_precedencesAt]
  have hne : listed ≠ [] := by
    rw [← List.length_pos_iff]
    omega
  have hfirst : (p_in clasmarkSize).toNat ∈ listed := by
    obtain ⟨n, hn⟩ : ∃ n, (numOfRuleAt p_in).toNat = n + 1 := ⟨_, (Nat.sub_add_cancel hpos).symm⟩
    rw [hlisted, precedencesAt, hn, recordsAt]
    exact List.mem_cons_self ..
  have hrefused := not_listedRemoved_self hne hdistinct honce
  constructor
  · intro value
    rw [eoplSetOnuClassfy20]
    cases hports : ports20 value with
    | none => simpa using hrefused
    | some ports =>
      obtain ⟨port, rfl⟩ := ports20_eq hports
      have hexact := removeAll_replicate_exact_iff hinv.numbered hnames hdistinct honce hfirst
      dsimp only
      rw [listedRemoved_classify_iff hinv hdel, List.map_replicate, ← hlen, hexact]
      simp
  · intro board value
    rw [eoplSetOnuClassfy]
    cases hports : ports21 board value with
    | none => simpa using hrefused
    | some ports =>
      obtain ⟨port, rfl⟩ := ports21_eq hports
      dsimp only
      rw [listedRemoved_classify_iff hinv hdel, ← hlisted,
        removeAll_exact_iff hinv.numbered hnames hdistinct honce]
      simp

/-- Rules of precedence 1, 2 and 3. -/
def threeRules : Acl Unit :=
  run (aclStep takesAll) (aclInit ()) [.add (anyPacket 1), .add (anyPacket 2), .add (anyPacket 3)]

/-- The records of some precedences, without fields, behind a header for DELETE. -/
def deleteOf (precedences : List UInt8) : Ptr :=
  ptrAt ([0xC7, 0x00, 0x31, 0, 0, UInt8.ofNat precedences.length] ++
    precedences.flatMap fun p => (RuleBody.mk p 3 0 0 0).bytes) 0

/-- No rule is added here. -/
def noAdd (s : Acl Unit) (_ _ : UInt8) (_ : RuleBody) (_ : Ptr) : Acl Unit × UInt8 :=
  (s, oamSetNoResource)

/-- Listed as 3 and 1, the rules are removed in 2.1; in 2.0 the second removal finds no rule. -/
theorem delete_three_and_one :
    ¬ListedRemoved [3, 1] threeRules
      (eoplSetOnuClassfy20 takesAll noAdd 1 (deleteOf [3, 1]) threeRules 0).1 ∧
    ListedRemoved [3, 1] threeRules
      (eoplSetOnuClassfy takesAll noAdd .fourPort 0x01000001 (deleteOf [3, 1]) threeRules 0).1 := by
  obtain ⟨h20, h21⟩ := delete_removes_listed_iff takesAll noAdd () _ (rfl : threeRules = _)
    (rfl : actionAt (deleteOf [3, 1]) = _) (by decide) (rfl : [3, 1] = _) (by decide) (by decide) 0
  rw [h20, h21]
  decide

/-- Listed as 1 and 3, rule 3 stays in both: in 2.0 rule 2 goes in its place, and in 2.1 no rule
is found at 3 any more. -/
theorem delete_one_and_three :
    ((precedencesAt (deleteOf [1, 3])).map UInt8.toNat = [1, 3] ∧
      ∀ p ∈ [1, 3], threeRules.rules.countP (fun r => r.rulepri = p) = 1) ∧
    nodes threeRules = [0, 1, 2] ∧
    nodes (eoplSetOnuClassfy20 takesAll noAdd 1 (deleteOf [1, 3]) threeRules 0).1 = [2] ∧
    nodes (eoplSetOnuClassfy takesAll noAdd .fourPort 0x01000001 (deleteOf [1, 3])
      threeRules 0).1 = [1, 2] ∧
    ¬ListedRemoved [1, 3] threeRules
      (eoplSetOnuClassfy20 takesAll noAdd 1 (deleteOf [1, 3]) threeRules 0).1 ∧
    ¬ListedRemoved [1, 3] threeRules
      (eoplSetOnuClassfy takesAll noAdd .fourPort 0x01000001 (deleteOf [1, 3]) threeRules 0).1 := by
  refine ⟨by decide, by decide, by decide, by decide, ?_, ?_⟩
  · intro h
    exact absurd h (by rw [ListedRemoved]; decide)
  · intro h
    exact absurd h (by rw [ListedRemoved]; decide)

end Opconn.Oam.Ctc.Rules
