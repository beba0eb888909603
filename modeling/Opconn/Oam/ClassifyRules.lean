import Mathlib.Data.List.Induction
import Mathlib.Data.List.Nodup
import Mathlib.Tactic.IntervalCases
import Opconn.Lib.ByteWord
import Opconn.Oam.CtcGetFormat

/-!
# Classification rules in requests and responses

`stub_ctc_port_rule_add_2_0` reads the fields of a rule out of a SET request and hands the
rule to the store, `stub_ctc_port_rule_get_2_0` writes what the store has into the response to
a GET.  Each of the twelve selectors has its own bytes in the six of `matchValue`; a field of a
selector that is not known is passed over.  The store of the rules is a parameter here.
-/

namespace Opconn.Oam.Ctc.Rules

open ByteWord Get

/-! ### Records of a request -/

/-- `oam_clasmark_rulebody_t`. -/
structure RuleBody where
  precedenceOfRule : UInt8
  lenOfRule : UInt8
  queueMapped : UInt8
  ethPriMark : UInt8
  numOfField : UInt8
deriving DecidableEq, Repr

/-- `oam_clasmark_fieldbody_t`. -/
structure FieldBody where
  fieldSelect : UInt8
  matchValue : Vector UInt8 6
  operator : UInt8
deriving DecidableEq, Repr

def RuleBody.bytes (r : RuleBody) : Buffer :=
  [r.precedenceOfRule, r.lenOfRule, r.queueMapped, r.ethPriMark, r.numOfField]

def FieldBody.bytes (f : FieldBody) : Buffer :=
  f.fieldSelect :: f.matchValue.toList ++ [f.operator]

/-- `sizeof(oam_clasmark_rulebody_t)`. -/
def ruleBodySize : Nat := 5

/-- `sizeof(oam_clasmark_fieldbody_t)`. -/
def fieldBodySize : Nat := 8

/-- `p += n`. -/
def Ptr.add (p : Ptr) (n : Nat) : Ptr := fun i => p (n + i)

/-- `*(oam_clasmark_rulebody_t *)p`. -/
def ruleBodyAt (p : Ptr) : RuleBody := ⟨p 0, p 1, p 2, p 3, p 4⟩

/-- `*(oam_clasmark_fieldbody_t *)p`. -/
def fieldBodyAt (p : Ptr) : FieldBody := ⟨p 0, #v[p 1, p 2, p 3, p 4, p 5, p 6], p 7⟩

/-- The first `n` fields at `pClsField`. -/
def fieldBodiesAt (n : Nat) (pClsField : Ptr) : List FieldBody :=
  (List.range n).map fun i => fieldBodyAt (Ptr.add pClsField (fieldBodySize * i))

/-! ### Adding a rule -/

/-- The values of `OAM_CTC_CLS_FIELD_TYPE_s`. -/
def code : ClsFieldType → UInt8
  | .daMac => 0
  | .saMac => 1
  | .ethPri => 2
  | .vlanId => 3
  | .etherType => 4
  | .dstIp => 5
  | .srcIp => 6
  | .ipType => 7
  | .ipDscp => 8
  | .ipPrecedence => 9
  | .l4SrcPort => 10
  | .l4DstPort => 11

/-- The comparisons of `fieldSelect`, one behind the other. -/
def kindOf (fieldSelect : UInt8) : Option ClsFieldType :=
  ClsFieldType.all.find? fun kind => fieldSelect = code kind

/-- What becomes of the six bytes of `matchValue`; a DSCP is shifted within a byte. -/
def lowRange (m : Vector UInt8 6) : ClsFieldType → UInt64
  | .daMac | .saMac => word m.toList
  | .ethPri | .ipType | .ipPrecedence => word [m[5]!]
  | .vlanId | .etherType | .l4SrcPort | .l4DstPort => word [m[4]!, m[5]!]
  | .dstIp | .srcIp => word [m[2]!, m[3]!, m[4]!, m[5]!]
  | .ipDscp => word [m[5]! <<< 2]

/-- The flags, operators and values of `CLS_CONFIG_INFO_t`, by selector. -/
abbrev Fields := ClsFieldType → Option ClsField

/-- One round of the loop over the fields. -/
def setField (field : Fields) (pClsField : FieldBody) : Fields :=
  match kindOf pClsField.fieldSelect with
  | some kind =>
    Function.update field kind (some ⟨pClsField.operator, lowRange pClsField.matchValue kind⟩)
  | none => field

def setFields (fields : List FieldBody) : Fields := fields.foldl setField fun _ => none

/-- What the two functions use of `CLS_CONFIG_INFO_t`. -/
structure ClsConfigInfo extends ClsRule where
  rulePri : UInt8

/-- What is made of the body of a rule and its fields. -/
def odmClsRule (pClsRule : RuleBody) (fields : List FieldBody) : ClsConfigInfo where
  rulePri := pClsRule.precedenceOfRule
  queueMapId := pClsRule.queueMapped
  cosMapVal := pClsRule.ethPriMark
  field := setFields fields

/-- `odmOamClassInstall`, with whether it returns `NO_ERROR`, and `odmoamClassRuleGet`. -/
structure RuleStore (σ : Type) where
  odmOamClassInstall : σ → UInt8 → UInt8 → ClsConfigInfo → σ × Bool
  odmoamClassRuleGet : σ → UInt8 → UInt8 → Option ClsConfigInfo

def oamSetOk : UInt8 := 0x80
def oamSetBadParameters : UInt8 := 0x86
def oamSetNoResource : UInt8 := 0x87

section Store

variable {σ : Type} (store : RuleStore σ)

/-- `stub_ctc_port_rule_add_2_0`. -/
def stubCtcPortRuleAdd20 (s : σ) (portId precedenceOfRule : UInt8) (pClsRule : RuleBody)
    (pClsField : Ptr) : σ × UInt8 :=
  let ret := store.odmOamClassInstall s portId precedenceOfRule
    (odmClsRule pClsRule (fieldBodiesAt pClsRule.numOfField.toNat pClsField))
  (ret.1, if ret.2 then oamSetOk else oamSetNoResource)

/-- `stub_ctc_port_rule_get_2_0`: the bytes of the body and of the fields, in memory that was
cleared before. -/
def stubCtcPortRuleGet20 (s : σ) (portId precedenceOfRule : UInt8) : Option Buffer :=
  (store.odmoamClassRuleGet s portId precedenceOfRule).map fun rule =>
    ruleBytes rule.rulePri rule.toClsRule

/-- A rule that was installed is what the store has at its precedence. -/
def Returns : Prop :=
  ∀ s portId rule s', store.odmOamClassInstall s portId rule.rulePri rule = (s', true) →
    store.odmoamClassRuleGet s' portId rule.rulePri = some rule

end Store

/-! ### Values within their field -/

/-- The number of bits that a field has. -/
def width : ClsFieldType → Nat
  | .daMac | .saMac => 48
  | .ethPri | .ipType | .ipPrecedence => 8
  | .vlanId => 12
  | .etherType | .l4SrcPort | .l4DstPort => 16
  | .dstIp | .srcIp => 32
  | .ipDscp => 6

/-- A field with one of the selectors, and a value that has no bit beyond its width: the bytes
in front are zero. -/
def FieldBody.Fits (f : FieldBody) : Prop :=
  ∃ kind, f.fieldSelect = code kind ∧ number f.matchValue.toList < 2 ^ width kind

theorem code_injective : Function.Injective code := by
  intro kind kind' h
  cases kind <;> cases kind' <;> first | rfl | exact absurd h (by decide)

theorem kindOf_code (kind : ClsFieldType) : kindOf (code kind) = some kind := by
  cases kind <;> rfl

theorem toList_six (m : Vector UInt8 6) :
    m.toList = [m[0]!, m[1]!, m[2]!, m[3]!, m[4]!, m[5]!] := by
  apply List.ext_getElem
  · simp
  · intro i hi _
    have hi : i < 6 := by simpa using hi
    interval_cases i <;> rfl

theorem number_six (m : Vector UInt8 6) : number m.toList =
    ((((m[0]!.toNat * 256 + m[1]!.toNat) * 256 + m[2]!.toNat) * 256 +
      m[3]!.toNat) * 256 + m[4]!.toNat) * 256 + m[5]!.toNat := by
  simp [toList_six, number]

/-- The getter finds the number that the setter was given: what the two have of the six bytes
are the same bits. -/
theorem toNat_matchValue_lowRange {kind : ClsFieldType} {m : Vector UInt8 6}
    (h : number m.toList < 2 ^ width kind) :
    (kind.matchValue (lowRange m kind)).toNat = number m.toList := by
  cases kind with
  | daMac | saMac =>
    rw [ClsFieldType.matchValue, lowRange, toNat_word_and _ (by simp) (n := 48) (by decide)]
    exact Nat.mod_eq_of_lt h
  | ethPri | ipType | ipPrecedence =>
    rw [toList_six] at h ⊢
    rw [ClsFieldType.matchValue, lowRange, toNat_word_and _ (by simp) (n := 8) (by decide)]
    exact number_mod_of_lt [m[0]!, m[1]!, m[2]!, m[3]!, m[4]!] [m[5]!] (Nat.le_refl _) h
  | vlanId =>
    rw [toList_six] at h ⊢
    rw [ClsFieldType.matchValue, lowRange, toNat_word_and _ (by simp) (n := 12) (by decide)]
    exact number_mod_of_lt [m[0]!, m[1]!, m[2]!, m[3]!] [m[4]!, m[5]!] (by simp) h
  | etherType | l4SrcPort | l4DstPort =>
    rw [toList_six] at h ⊢
    rw [ClsFieldType.matchValue, lowRange, toNat_word_and _ (by simp) (n := 16) (by decide)]
    exact number_mod_of_lt [m[0]!, m[1]!, m[2]!, m[3]!] [m[4]!, m[5]!] (Nat.le_refl _) h
  | dstIp | srcIp =>
    rw [toList_six] at h ⊢
    rw [ClsFieldType.matchValue, lowRange, toNat_word_and _ (by simp) (n := 32) (by decide)]
    exact number_mod_of_lt [m[0]!, m[1]!] [m[2]!, m[3]!, m[4]!, m[5]!] (Nat.le_refl _) h
  | ipDscp =>
    have hdscp : (m[5]! <<< 2).toNat = m[5]!.toNat * 4 % 256 := by
      rw [UInt8.toNat_shiftLeft, Nat.shiftLeft_eq]
      rfl
    have hshift : ((word [m[5]! <<< 2] &&& 0xFF) >>> 2).toNat =
        (word [m[5]! <<< 2] &&& 0xFF).toNat / 4 := by
      rw [UInt64.toNat_shiftRight, Nat.shiftRight_eq_div_pow]
      rfl
    rw [ClsFieldType.matchValue, lowRange, hshift,
      toNat_word_and _ (by simp) (n := 8) (by decide), number_six]
    rw [number_six, width] at h
    simp only [number, List.foldl_cons, List.foldl_nil, hdscp]
    omega

/-- **One field.**  What is written for a field that was set is the field. -/
theorem fieldBody_lowRange {f : FieldBody} {kind : ClsFieldType}
    (hselect : f.fieldSelect = code kind) (h : number f.matchValue.toList < 2 ^ width kind) :
    fieldBody (code kind).toNat kind ⟨f.operator, lowRange f.matchValue kind⟩ = f.bytes := by
  have hv := toNat_matchValue_lowRange h
  rw [number_six] at hv
  rw [fieldBody, FieldBody.bytes, toList_six, UInt8.ofNat_toNat, hselect]
  generalize kind.matchValue (lowRange f.matchValue kind) = v at hv ⊢
  have h0 := f.matchValue[0]!.toNat_lt
  have h1 := f.matchValue[1]!.toNat_lt
  have h2 := f.matchValue[2]!.toNat_lt
  have h3 := f.matchValue[3]!.toNat_lt
  have h4 := f.matchValue[4]!.toNat_lt
  have h5 := f.matchValue[5]!.toNat_lt
  have hb0 : (v >>> 40).toUInt8 = f.matchValue[0]! := by
    apply UInt8.toNat_inj.mp
    rw [toNat_byte v (n := 40) (by decide), show (40 : UInt64).toNat = 40 from rfl]
    omega
  have hb1 : (v >>> 32).toUInt8 = f.matchValue[1]! := by
    apply UInt8.toNat_inj.mp
    rw [toNat_byte v (n := 32) (by decide), show (32 : UInt64).toNat = 32 from rfl]
    omega
  have hb2 : (v >>> 24).toUInt8 = f.matchValue[2]! := by
    apply UInt8.toNat_inj.mp
    rw [toNat_byte v (n := 24) (by decide), show (24 : UInt64).toNat = 24 from rfl]
    omega
  have hb3 : (v >>> 16).toUInt8 = f.matchValue[3]! := by
    apply UInt8.toNat_inj.mp
    rw [toNat_byte v (n := 16) (by decide), show (16 : UInt64).toNat = 16 from rfl]
    omega
  have hb4 : (v >>> 8).toUInt8 = f.matchValue[4]! := by
    apply UInt8.toNat_inj.mp
    rw [toNat_byte v (n := 8) (by decide), show (8 : UInt64).toNat = 8 from rfl]
    omega
  have hb5 : v.toUInt8 = f.matchValue[5]! := by
    apply UInt8.toNat_inj.mp
    rw [UInt64.toNat_toUInt8]
    omega
  rw [hb0, hb1, hb2, hb3, hb4, hb5]
  rfl

/-! ### The fields of a rule -/

theorem setField_apply (field : Fields) (f : FieldBody) (kind : ClsFieldType) :
    setField field f kind =
      if f.fieldSelect = code kind then some ⟨f.operator, lowRange f.matchValue kind⟩
      else field kind := by
  rw [setField]
  by_cases h : f.fieldSelect = code kind
  · rw [if_pos h, h, kindOf_code]
    exact Function.update_self ..
  · rw [if_neg h]
    cases hkind : kindOf f.fieldSelect with
    | none => rfl
    | some kind' =>
      have hcode : f.fieldSelect = code kind' := by
        simpa using List.find?_some hkind
      apply Function.update_of_ne
      rintro rfl
      exact h hcode

theorem setFields_append (fields : List FieldBody) (f : FieldBody) :
    setFields (fields ++ [f]) = setField (setFields fields) f := by
  simp [setFields]

theorem setFields_of_forall_ne {fields : List FieldBody} {kind : ClsFieldType}
    (h : ∀ f ∈ fields, f.fieldSelect ≠ code kind) : setFields fields kind = none := by
  induction fields using List.reverseRecOn with
  | nil => rfl
  | append_singleton fields f ih =>
    rw [List.forall_mem_append, List.forall_mem_singleton] at h
    rw [setFields_append, setField_apply, if_neg h.2, ih h.1]

/-- With distinct selectors no field is overwritten. -/
theorem setFields_of_mem {fields : List FieldBody}
    (hdistinct : (fields.map FieldBody.fieldSelect).Nodup) {f : FieldBody} (hf : f ∈ fields)
    {kind : ClsFieldType} (hselect : f.fieldSelect = code kind) :
    setFields fields kind = some ⟨f.operator, lowRange f.matchValue kind⟩ := by
  induction fields using List.reverseRecOn with
  | nil => cases hf
  | append_singleton fields g ih =>
    rw [List.map_append, List.nodup_append] at hdistinct
    obtain ⟨hfields, -, hne⟩ := hdistinct
    rw [setFields_append, setField_apply]
    rcases List.mem_append.mp hf with hf | hf
    · have hlast : g.fieldSelect ≠ code kind := by
        rw [← hselect]
        exact (hne _ (List.mem_map_of_mem hf) _ (List.mem_singleton.mpr rfl)).symm
      rw [if_neg hlast, ih hfields hf]
    · rw [List.mem_singleton.mp hf] at hselect ⊢
      rw [if_pos hselect]

/-- The fields of a rule, with the code of each. -/
theorem fieldBodies_eq (rule : ClsRule) : fieldBodies rule =
    ClsFieldType.all.filterMap fun kind =>
      (rule.field kind).map (fieldBody (code kind).toNat kind) := rfl

theorem mem_all (kind : ClsFieldType) : kind ∈ ClsFieldType.all := by
  cases kind <;> decide

theorem mem_fieldBodies {rule : ClsRule} {b : Buffer} : b ∈ fieldBodies rule ↔
    ∃ kind g, rule.field kind = some g ∧ fieldBody (code kind).toNat kind g = b := by
  simp [fieldBodies_eq, mem_all]

/-- No two fields of a rule begin with the same code. -/
theorem nodup_fieldBodies (rule : ClsRule) : (fieldBodies rule).Nodup := by
  rw [fieldBodies_eq]
  refine List.Nodup.filterMap ?_ (by decide)
  intro kind kind' b hb hb'
  obtain ⟨g, -, rfl⟩ := Option.map_eq_some_iff.mp hb
  obtain ⟨g', -, heq⟩ := Option.map_eq_some_iff.mp hb'
  have hcode := (List.cons.inj heq).1
  rw [UInt8.ofNat_toNat, UInt8.ofNat_toNat] at hcode
  exact (code_injective hcode).symm

theorem nodup_bytes {fields : List FieldBody}
    (hdistinct : (fields.map FieldBody.fieldSelect).Nodup) :
    (fields.map FieldBody.bytes).Nodup := by
  rw [List.Nodup, List.pairwise_map] at hdistinct ⊢
  refine hdistinct.imp ?_
  intro f g hne heq
  exact hne (List.cons.inj heq).1

/-- **The fields.**  What is written for the fields that were set are these fields. -/
theorem perm_fieldBodies (rule : ClsRule) {fields : List FieldBody}
    (hrule : rule.field = setFields fields)
    (hdistinct : (fields.map FieldBody.fieldSelect).Nodup) (hfit : ∀ f ∈ fields, f.Fits) :
    (fieldBodies rule).Perm (fields.map FieldBody.bytes) := by
  rw [List.perm_ext_iff_of_nodup (nodup_fieldBodies rule) (nodup_bytes hdistinct)]
  intro b
  rw [mem_fieldBodies, hrule, List.mem_map]
  constructor
  · rintro ⟨kind, g, hset, rfl⟩
    by_cases hsome : ∃ f ∈ fields, f.fieldSelect = code kind
    · obtain ⟨f, hf, hselect⟩ := hsome
      obtain ⟨kind', hselect', hsmall⟩ := hfit f hf
      obtain rfl := code_injective (hselect.symm.trans hselect')
      rw [setFields_of_mem hdistinct hf hselect, Option.some.injEq] at hset
      exact ⟨f, hf, by rw [← hset, fieldBody_lowRange hselect hsmall]⟩
    · rw [setFields_of_forall_ne fun f hf heq => hsome ⟨f, hf, heq⟩] at hset
      cases hset
  · rintro ⟨f, hf, rfl⟩
    obtain ⟨kind, hselect, hsmall⟩ := hfit f hf
    exact ⟨kind, _, setFields_of_mem hdistinct hf hselect, fieldBody_lowRange hselect hsmall⟩

theorem fieldBodyAt_bytes (f : FieldBody) : fieldBodyAt (ptrAt f.bytes 0) = f := by
  obtain ⟨fieldSelect, m, operator⟩ := f
  have hm : m = #v[m[0]!, m[1]!, m[2]!, m[3]!, m[4]!, m[5]!] := by
    apply Vector.toList_inj.mp
    rw [toList_six]
    rfl
  rw [hm]
  rfl

/-- Bytes that are those of some fields in another order. -/
theorem exists_perm_fields {bodies : List Buffer} {fields : List FieldBody}
    (h : bodies.Perm (fields.map FieldBody.bytes)) :
    ∃ fields' : List FieldBody, fields'.Perm fields ∧ bodies = fields'.map FieldBody.bytes := by
  refine ⟨bodies.map fun b => fieldBodyAt (ptrAt b 0), ?_, ?_⟩
  · have hread := h.map fun b => fieldBodyAt (ptrAt b 0)
    rw [List.map_map] at hread
    rwa [show (fun b => fieldBodyAt (ptrAt b 0)) ∘ FieldBody.bytes = id from
      funext fieldBodyAt_bytes, List.map_id] at hread
  · have hback : ∀ b ∈ bodies, (fieldBodyAt (ptrAt b 0)).bytes = b := by
      intro b hb
      obtain ⟨f, -, rfl⟩ := List.mem_map.mp (h.mem_iff.mp hb)
      rw [fieldBodyAt_bytes]
    rw [List.map_map]
    exact (List.map_id _).symm.trans (List.map_congr_left fun b hb => (hback b hb).symm)

section Store

variable {σ : Type} {store : RuleStore σ}

/-- **A rule comes back.**  With distinct selectors and values within their fields, a rule that
was added is read back with its precedence, queue, priority and fields, and their number and
length. -/
theorem added_rule_read_back (hstore : Returns store) {s s' : σ} {portId : UInt8}
    {pClsRule : RuleBody} {pClsField : Ptr} {requested : List FieldBody}
    (hrequested : requested = fieldBodiesAt pClsRule.numOfField.toNat pClsField)
    (hdistinct : (requested.map FieldBody.fieldSelect).Nodup) (hfit : ∀ f ∈ requested, f.Fits)
    (hadd : stubCtcPortRuleAdd20 store s portId pClsRule.precedenceOfRule pClsRule pClsField =
      (s', oamSetOk)) :
    ∃ (body : RuleBody) (fields : List FieldBody),
      stubCtcPortRuleGet20 store s' portId pClsRule.precedenceOfRule =
        some (body.bytes ++ fields.flatMap FieldBody.bytes) ∧
      body.precedenceOfRule = pClsRule.precedenceOfRule ∧
      body.queueMapped = pClsRule.queueMapped ∧
      body.ethPriMark = pClsRule.ethPriMark ∧
      fields.Perm requested ∧
      body.numOfField.toNat = fields.length ∧
      body.lenOfRule.toNat = 3 + 8 * fields.length := by
  have hok : store.odmOamClassInstall s portId pClsRule.precedenceOfRule
      (odmClsRule pClsRule requested) = (s', true) := by
    rw [stubCtcPortRuleAdd20, ← hrequested, Prod.mk.injEq] at hadd
    refine Prod.ext hadd.1 ?_
    by_contra hfails
    rw [if_neg hfails] at hadd
    exact absurd hadd.2 (by decide)
  have hget := hstore s portId (odmClsRule pClsRule requested) s' hok
  generalize hrule : odmClsRule pClsRule requested = rule at hget
  obtain ⟨fields, hperm, hbodies⟩ :=
    exists_perm_fields (perm_fieldBodies rule.toClsRule (by rw [← hrule]; rfl) hdistinct hfit)
  have hlen : (fieldBodies rule.toClsRule).length = fields.length := by
    rw [hbodies, List.length_map]
  have hfew := length_fieldBodies_le rule.toClsRule
  have hwidth := toNat_lenOfRule rule.toClsRule
  have hsmall := (lenOfRule rule.toClsRule).toNat_lt
  rw [UInt8.toNat_add, show (2 : UInt8).toNat = 2 from rfl] at hwidth
  refine ⟨⟨rule.rulePri, lenOfRule rule.toClsRule, rule.queueMapId, rule.cosMapVal,
    UInt8.ofNat (fieldBodies rule.toClsRule).length⟩, fields, ?_, ?_, ?_, ?_, hperm, ?_, ?_⟩
  · rw [stubCtcPortRuleGet20, show pClsRule.precedenceOfRule = rule.rulePri by rw [← hrule]; rfl,
      hget, Option.map_some, ruleBytes, List.flatMap_def, ← hbodies]
    rfl
  · rw [← hrule]
    rfl
  · rw [← hrule]
    rfl
  · rw [← hrule]
    rfl
  · rw [UInt8.toNat_ofNat', hlen]
    omega
  · show (lenOfRule rule.toClsRule).toNat = _
    omega

/-- A store of rules by their precedence. -/
def plainStore : RuleStore (UInt8 → Option ClsConfigInfo) where
  odmOamClassInstall s _ precedence rule := (Function.update s precedence (some rule), true)
  odmoamClassRuleGet s _ precedence := s precedence

/-- A rule for a DSCP in one VLAN to one station, in the order 8, 3, 0. -/
def dscpRule : RuleBody := ⟨2, 27, 5, 6, 3⟩

def dscpFields : List FieldBody :=
  [⟨8, #v[0, 0, 0, 0, 0, 46], 1⟩, ⟨3, #v[0, 0, 0, 0, 0x0F, 0xA0], 1⟩,
    ⟨0, #v[0x00, 0x1B, 0x21, 0x3A, 0x4C, 0x5E], 2⟩]

theorem dscp_rule_read_back :
    ∃ (body : RuleBody) (fields : List FieldBody),
      stubCtcPortRuleGet20 plainStore (stubCtcPortRuleAdd20 plainStore (fun _ => none) 1 2 dscpRule
        (ptrAt (dscpFields.flatMap FieldBody.bytes) 0)).1 1 2 =
          some (body.bytes ++ fields.flatMap FieldBody.bytes) ∧
      body.precedenceOfRule = 2 ∧ body.queueMapped = 5 ∧ body.ethPriMark = 6 ∧
      fields.Perm dscpFields ∧ body.numOfField.toNat = fields.length ∧
      body.lenOfRule.toNat = 3 + 8 * fields.length := by
  have hstore : Returns plainStore := by
    intro s portId rule s' h
    cases h
    exact Function.update_self ..
  have hread : dscpFields = fieldBodiesAt dscpRule.numOfField.toNat
      (ptrAt (dscpFields.flatMap FieldBody.bytes) 0) := by
    decide
  refine added_rule_read_back hstore hread (by decide) ?_ rfl
  intro f hf
  simp only [dscpFields, List.mem_cons, List.not_mem_nil, or_false] at hf
  rcases hf with rfl | rfl | rfl
  · exact ⟨.ipDscp, by decide⟩
  · exact ⟨.vlanId, by decide⟩
  · exact ⟨.daMac, by decide⟩

end Store

end Opconn.Oam.Ctc.Rules
