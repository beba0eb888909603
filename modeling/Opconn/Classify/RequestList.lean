import Mathlib.Data.List.GetD
import Opconn.Lib.Buffer
import Opconn.Classify.ClsItems

/-!
# How many bytes a rule asks for

`dalClsConvertPara` lays the match fields of a rule out as the header of a packet, value and
user mask, and `clsMaskRuleMake2ONU` writes the position of every byte with a mask into
`crequestValid`.  The array has 24 entries and one for the zero that ends them; the loop that
fills it does not look at its size, and the fields together have 31 bytes.
-/

namespace Opconn.Classify

/-! ### Match fields -/

/-- A match field of `CLS_CONFIG_INFO_t` and its flag; `highRange` is the user mask. -/
structure FieldRange (α : Type) where
  flag : Bool
  lowRange : α
  highRange : α

/-- The match fields of `CLS_CONFIG_INFO_t` that `dalClsConvertPara` reads. -/
structure MatchFields where
  dstMac : FieldRange (Fin 6 → UInt8)
  srcMac : FieldRange (Fin 6 → UInt8)
  etherPri : FieldRange UInt8
  vlanId : FieldRange UInt16
  lenOrType : FieldRange UInt16
  dstIp : FieldRange UInt32
  srcIp : FieldRange UInt32
  ipType : FieldRange UInt8
  ipV4Dscp : FieldRange UInt8
  srcL4Port : FieldRange UInt16
  dstL4Port : FieldRange UInt16

/-- The bits of `EIIField`, from the most significant one on. -/
def MatchFields.fieldMap (f : MatchFields) : UInt32 :=
  let fields : List (Bool × UInt32) :=
    [(f.dstMac.flag, 31), (f.srcMac.flag, 30), (f.etherPri.flag, 28), (f.vlanId.flag, 27),
      (f.lenOrType.flag, 26), (f.ipV4Dscp.flag, 24), (f.ipType.flag, 23), (f.srcIp.flag, 22),
      (f.dstIp.flag, 21), (f.srcL4Port.flag, 20), (f.dstL4Port.flag, 19)]
  fields.foldl (fun map field => if field.1 then map ||| 1 <<< field.2 else map) 0

/-- The fields of `CLASSIFY_EII_t` that `dalClsConvertPara` writes, as wide as there. -/
structure EiiValue where
  destMac : Fin 6 → UInt8
  srcMac : Fin 6 → UInt8
  bfFirstCos : UInt8
  bfFirstVlan : UInt16
  bfLenOrType : UInt16
  bfIpTos : UInt8
  ipProType : UInt8
  srcIP : UInt32
  destIP : UInt32
  srcPort : UInt16
  destPort : UInt16

/-- Words in memory, the upper byte first. -/
def shortBytes (v : UInt16) : List UInt8 := [(v >>> 8).toUInt8, v.toUInt8]

def wordBytes (v : UInt32) : List UInt8 :=
  [(v >>> 24).toUInt8, (v >>> 16).toUInt8, (v >>> 8).toUInt8, v.toUInt8]

/-- The tag: three bits of priority, the CFI and twelve bits of VLAN. -/
def tagBytes (cos : UInt8) (vlan : UInt16) : List UInt8 :=
  [(cos &&& 7) <<< 5 ||| ((vlan >>> 8).toUInt8 &&& 15), vlan.toUInt8]

/-- `CLASSIFY_EII_t` with a single tag. -/
def EiiValue.bytes (v : EiiValue) : List UInt8 :=
  List.ofFn v.destMac ++ List.ofFn v.srcMac ++ [0, 0] ++ tagBytes v.bfFirstCos v.bfFirstVlan ++
    shortBytes v.bfLenOrType ++ [0, v.bfIpTos] ++ [0, 0, 0, 0, 0, 0] ++ [0, v.ipProType] ++
    [0, 0] ++ wordBytes v.srcIP ++ wordBytes v.destIP ++ shortBytes v.srcPort ++
    shortBytes v.destPort ++ [0, 0, 0, 0]

theorem EiiValue.length_bytes (v : EiiValue) : v.bytes.length = classifyEiiSize := by
  simp [EiiValue.bytes, tagBytes, shortBytes, wordBytes, classifyEiiSize]

/-- The union around it. -/
def EiiValue.data (v : EiiValue) : ClsDataValue := fun i => v.bytes.getD i 0

/-- What a field puts into the value or the mask: nothing without its flag. -/
def FieldRange.put {α : Type} (field : FieldRange α) (zero : α) (part : FieldRange α → α) : α :=
  if field.flag then part field else zero

/-- The fields with one of the two ends of their ranges; the other fields are zero. -/
def MatchFields.eii (f : MatchFields) (part : ∀ {α : Type}, FieldRange α → α) : EiiValue where
  destMac := f.dstMac.put (fun _ => 0) part
  srcMac := f.srcMac.put (fun _ => 0) part
  bfFirstCos := f.etherPri.put 0 part
  bfFirstVlan := f.vlanId.put 0 part
  bfLenOrType := f.lenOrType.put 0 part
  bfIpTos := f.ipV4Dscp.put 0 part
  ipProType := f.ipType.put 0 part
  srcIP := f.srcIp.put 0 part
  destIP := f.dstIp.put 0 part
  srcPort := f.srcL4Port.put 0 part
  destPort := f.dstL4Port.put 0 part

/-- A rule with these match fields. -/
def MatchFields.layOut (f : MatchFields) (c : ClsConfigInfo) : ClsConfigInfo :=
  { c with
    fieldMap := f.fieldMap
    lowRange := (f.eii FieldRange.lowRange).data
    highRange := (f.eii FieldRange.highRange).data }

/-! ### Filling the list -/

/-- The first loop of `clsMaskRuleMake2ONU`: `crequestValid[j++] = i` for each byte with a mask.
There is no result where a write is outside of the array. -/
def storeRequests (maskValue : Fin packetHeaderLen → UInt8) :
    List (Fin packetHeaderLen) → (Nat → Nat) → Nat → Option ((Nat → Nat) × Nat)
  | [], crequestValid, j => some (crequestValid, j)
  | i :: is, crequestValid, j =>
    if maskValue i != 0 then
      (Buffer.write (keyvalueLength + 1) crequestValid j i).bind fun crequestValid =>
        storeRequests maskValue is crequestValid (j + 1)
    else storeRequests maskValue is crequestValid j

/-- The loop over the header, from the cleared array. -/
def storedRequests (par : Parameter) : Option ((Nat → Nat) × Nat) :=
  storeRequests (headerValue par.pktUsrMask) (List.finRange packetHeaderLen) (fun _ => 0) 0

/-- The loop writes the positions one behind the other. -/
theorem storeRequests_eq (maskValue : Fin packetHeaderLen → UInt8)
    (is : List (Fin packetHeaderLen)) (m : Nat → Nat) (j : Nat) :
    storeRequests maskValue is m j =
      (Buffer.writeList (keyvalueLength + 1) m j
        ((is.filter fun i => maskValue i != 0).map Fin.val)).map
          fun m => (m, j + (is.filter fun i => maskValue i != 0).length) := by
  induction is generalizing m j with
  | nil => rfl
  | cons i is ih =>
    rw [storeRequests]
    by_cases hmask : (maskValue i != 0) = true
    · rw [if_pos hmask, List.filter_cons, if_pos hmask, List.map_cons, Buffer.writeList,
        List.length_cons]
      cases Buffer.write (keyvalueLength + 1) m j i with
      | none => rfl
      | some m' =>
        rw [Option.bind_some, Option.bind_some, ih]
        have hcount : j + 1 + (is.filter fun i => maskValue i != 0).length =
            j + ((is.filter fun i => maskValue i != 0).length + 1) := by omega
        rw [hcount]
    · rw [if_neg hmask, List.filter_cons, if_neg hmask]
      exact ih m j

/-- What is asked of the list: at most 24 positions are stored, all in the array, a zero of the
array ends them, and a rule that asks for more is refused. -/
structure RequestListKept (par : Parameter) : Prop where
  inside : (storedRequests par).isSome = true
  bounded : ∀ list j, storedRequests par = some (list, j) → j ≤ keyvalueLength
  ended : ∀ list j, storedRequests par = some (list, j) → j < keyvalueLength + 1 ∧ list j = 0
  refused : keyvalueLength < (requests (headerValue par.pktUsrMask)).length →
    ∀ stack, clsMaskRuleMake2Onu par stack = none

/-- A rule that asks for more than 24 bytes is refused, whatever lies behind the array. -/
theorem clsMaskRuleMake2Onu_overrun {par : Parameter}
    (h : keyvalueLength < (requests (headerValue par.pktUsrMask)).length) (stack : List Nat) :
    clsMaskRuleMake2Onu par stack = none := by
  have hfail := clsOffsetCalc_overrun (Nat.not_le_of_lt h) stack
  have hne : (requests (headerValue par.pktUsrMask)).length ≠ 0 := Nat.ne_of_gt (Nat.zero_lt_of_lt h)
  simp only [clsMaskRuleMake2Onu, if_neg hne, hfail, Bool.false_eq_true, if_false]

/-- The list is kept exactly when the header has at most 24 bytes with a mask. -/
theorem requestListKept_iff_length (par : Parameter) :
    RequestListKept par ↔ (requests (headerValue par.pktUsrMask)).length ≤ keyvalueLength := by
  have hlength : (requests (headerValue par.pktUsrMask)).length =
      ((List.finRange packetHeaderLen).filter fun i => headerValue par.pktUsrMask i != 0).length :=
    List.length_map ..
  have hstored := storeRequests_eq (headerValue par.pktUsrMask) (List.finRange packetHeaderLen)
    (fun _ => 0) 0
  constructor
  · intro hkept
    by_contra hmore
    -- 25 positions fill the array; with more of them the writes leave it
    rcases hrun : storedRequests par with _ | ⟨list, j⟩
    · have hsome := hkept.inside
      rw [hrun] at hsome
      cases hsome
    · have hj := hkept.bounded list j hrun
      rw [storedRequests, hstored] at hrun
      obtain ⟨m, -, heq⟩ := Option.map_eq_some_iff.mp hrun
      obtain ⟨-, rfl⟩ := Prod.mk.inj heq
      omega
  · intro hle
    have hwritten := @Buffer.writeList_eq _ (keyvalueLength + 1) (fun _ => 0) 0
      (requests (headerValue par.pktUsrMask)) (by omega)
    have hrun : storedRequests par =
        some (fun k => if 0 ≤ k then
          (requests (headerValue par.pktUsrMask))[k - 0]?.getD 0 else 0,
          0 + (requests (headerValue par.pktUsrMask)).length) := by
      rw [storedRequests, hstored, hlength]
      exact congrArg _ hwritten
    have hends : ∀ list j, storedRequests par = some (list, j) →
        j = (requests (headerValue par.pktUsrMask)).length ∧ list j = 0 := by
      intro list j h
      rw [hrun] at h
      obtain ⟨rfl, rfl⟩ := Prod.mk.inj (Option.some.inj h)
      simp
    constructor
    · rw [hrun]
      rfl
    · intro list j h
      obtain ⟨rfl, -⟩ := hends list j h
      exact hle
    · intro list j h
      obtain ⟨rfl, hzero⟩ := hends list j h
      exact ⟨Nat.lt_succ_of_le hle, hzero⟩
    · exact fun h => clsMaskRuleMake2Onu_overrun h

/-! ### The bytes of the fields -/

/-- The bytes that are not zero. -/
def nonzeroBytes (bytes : List UInt8) : Nat := bytes.countP (· != 0)

/-- The bytes of the user masks that are not zero, field by field; the priority and the VLAN
share the first byte of the tag. -/
def MatchFields.requestedBytes (f : MatchFields) : Nat :=
  let cos := f.etherPri.put 0 FieldRange.highRange
  let vlan := f.vlanId.put 0 FieldRange.highRange
  (if f.dstMac.flag then nonzeroBytes (List.ofFn f.dstMac.highRange) else 0) +
    (if f.srcMac.flag then nonzeroBytes (List.ofFn f.srcMac.highRange) else 0) +
    nonzeroBytes (tagBytes cos vlan) +
    (if f.lenOrType.flag then nonzeroBytes (shortBytes f.lenOrType.highRange) else 0) +
    (if f.ipV4Dscp.flag then nonzeroBytes [f.ipV4Dscp.highRange] else 0) +
    (if f.ipType.flag then nonzeroBytes [f.ipType.highRange] else 0) +
    (if f.srcIp.flag then nonzeroBytes (wordBytes f.srcIp.highRange) else 0) +
    (if f.dstIp.flag then nonzeroBytes (wordBytes f.dstIp.highRange) else 0) +
    (if f.srcL4Port.flag then nonzeroBytes (shortBytes f.srcL4Port.highRange) else 0) +
    (if f.dstL4Port.flag then nonzeroBytes (shortBytes f.dstL4Port.highRange) else 0)

/-- Positions of a list that is continued with zeros. -/
theorem countP_range_getD {l : List UInt8} {n : Nat} (hlen : l.length ≤ n) :
    (List.range n).countP (fun i => l.getD i 0 != 0) = nonzeroBytes l := by
  have hmap : (List.range n).map (fun i => l.getD i 0) = l ++ List.replicate (n - l.length) 0 := by
    apply List.ext_getElem
    · simp
      omega
    · intro i hi hi'
      rw [List.getElem_map, List.getElem_range]
      by_cases hlt : i < l.length
      · rw [List.getD_eq_getElem _ _ hlt, List.getElem_append_left hlt]
      · rw [List.getD_eq_default _ _ (by omega), List.getElem_append_right (by omega),
          List.getElem_replicate]
  have hcount := congrArg (List.countP (· != 0)) hmap
  rw [List.countP_map, List.countP_append, List.countP_replicate] at hcount
  simpa [nonzeroBytes, Function.comp_def] using hcount

/-- The positions of a header are as many as its bytes with a mask. -/
theorem length_requests_data (v : EiiValue) :
    (requests (headerValue v.data)).length = nonzeroBytes v.bytes := by
  have hvalue : ∀ i : Fin packetHeaderLen, headerValue v.data i = v.bytes.getD i 0 := by
    intro i
    by_cases hi : i.val < classifyEiiSize
    · simp only [headerValue, dif_pos hi, EiiValue.data]
    · rw [headerValue, dif_neg hi, List.getD_eq_default]
      rw [v.length_bytes]
      exact Nat.le_of_not_lt hi
  have hfits : v.bytes.length ≤ packetHeaderLen := by
    rw [v.length_bytes]
    decide
  have hrange := countP_range_getD hfits
  rw [← List.map_coe_finRange_eq_range, List.countP_map] at hrange
  rw [requests, List.length_map, ← List.countP_eq_length_filter, ← hrange]
  exact List.countP_congr fun i _ => by simp only [hvalue, Function.comp_apply]

theorem nonzeroBytes_append (l l' : List UInt8) :
    nonzeroBytes (l ++ l') = nonzeroBytes l + nonzeroBytes l' :=
  List.countP_append

/-- A field without its flag asks for no byte. -/
theorem nonzeroBytes_put {α : Type} (bytes : α → List UInt8) (zero : α)
    (hzero : nonzeroBytes (bytes zero) = 0) (field : FieldRange α) :
    nonzeroBytes (bytes (field.put zero FieldRange.highRange)) =
      if field.flag then nonzeroBytes (bytes field.highRange) else 0 := by
  rw [FieldRange.put]
  split
  · rfl
  · exact hzero

/-- The header of the user masks has the bytes that the fields ask for. -/
theorem nonzeroBytes_eii (f : MatchFields) :
    nonzeroBytes (f.eii FieldRange.highRange).bytes = f.requestedBytes := by
  have hmac := nonzeroBytes_put (fun mac : Fin 6 → UInt8 => List.ofFn mac) (fun _ => 0)
    (by decide)
  have hshort := nonzeroBytes_put shortBytes 0 (by decide)
  have hword := nonzeroBytes_put wordBytes 0 (by decide)
  have hbyte := nonzeroBytes_put (fun b : UInt8 => [b]) 0 (by decide)
  have hbehind : ∀ b : UInt8, nonzeroBytes [0, b] = nonzeroBytes [b] :=
    fun b => List.countP_cons_of_neg (by decide)
  have hone : nonzeroBytes [0] = 0 := by decide
  have hfour : nonzeroBytes [0, 0, 0, 0] = 0 := by decide
  have hsix : nonzeroBytes [0, 0, 0, 0, 0, 0] = 0 := by decide
  simp only [EiiValue.bytes, MatchFields.eii, nonzeroBytes_append, MatchFields.requestedBytes,
    hmac, hshort, hword, hbyte, hbehind, hone, hfour, hsix, Nat.add_zero]

/-! ### The bound -/

theorem pktUsrMask_convertBlock (f : MatchFields) (c : ClsConfigInfo) :
    (convertBlock (f.layOut c)).pktUsrMask = (f.eii FieldRange.highRange).data := by
  simp only [convertBlock, MatchFields.layOut]

/-- The mask of a rule that is taken is the one laid out. -/
theorem pktUsrMask_layOut {f : MatchFields} {c : ClsConfigInfo} {item : ClassifyItem}
    (h : dalClsConvertPara (f.layOut c) = (item, true)) :
    item.parameter.pktUsrMask = (f.eii FieldRange.highRange).data := by
  have hparameter : item.parameter = convertBlock (f.layOut c) := by
    rw [dalClsConvertPara] at h
    split at h
    · rw [← (Prod.mk.inj h).1]
    · exact absurd (Prod.mk.inj h).2 Bool.false_ne_true
  rw [hparameter]
  exact pktUsrMask_convertBlock f c

/-- **When the request list is kept.**  For every combination of match fields that
`dalClsConvertPara` takes, with all their masks: exactly when the masks of the fields have at most
24 bytes that are not zero. -/
theorem request_list_kept_iff (f : MatchFields) (c : ClsConfigInfo) (item : ClassifyItem)
    (h : dalClsConvertPara (f.layOut c) = (item, true)) :
    RequestListKept item.parameter ↔ f.requestedBytes ≤ keyvalueLength := by
  rw [requestListKept_iff_length, pktUsrMask_layOut h, length_requests_data, nonzeroBytes_eii]

/-- Both MACs, the tag, the type and both IP addresses under full masks, and with `proto` the IP
protocol. -/
def wideRule (proto : Bool) : MatchFields where
  dstMac := ⟨true, fun _ => 0, fun _ => 0xFF⟩
  srcMac := ⟨true, fun _ => 0, fun _ => 0xFF⟩
  etherPri := ⟨true, 7, 7⟩
  vlanId := ⟨true, 100, 0xFFF⟩
  lenOrType := ⟨true, 0x800, 0xFFFF⟩
  dstIp := ⟨true, 0, 0xFFFFFFFF⟩
  srcIp := ⟨true, 0, 0xFFFFFFFF⟩
  ipType := ⟨proto, 17, 0xFF⟩
  ipV4Dscp := ⟨false, 0, 0⟩
  srcL4Port := ⟨false, 0, 0⟩
  dstL4Port := ⟨false, 0, 0⟩

/-- A rule that sends what it matches to queue 1. -/
def queueRule : ClsConfigInfo where
  rulePri := 1
  tAct := 0
  queueMapId := 1
  cosMapVal := 0
  ingressMask := true
  bIngress := true
  rmkVidOp := 0
  rmkCosChange := true
  rmkIcosChange := true
  rmkVid := 0
  fieldMap := 0
  lowRange := fun _ => 0
  highRange := fun _ => 0

theorem request_list_kept_addresses :
    RequestListKept (dalClsConvertPara ((wideRule false).layOut queueRule)).1.parameter :=
  (request_list_kept_iff (wideRule false) queueRule _ rfl).mpr (by decide)

/-- With the IP protocol there are 25 bytes, one more than the list holds with its end. -/
theorem request_list_overrun :
    ∃ (f : MatchFields) (c : ClsConfigInfo) (item : ClassifyItem),
      dalClsConvertPara (f.layOut c) = (item, true) ∧ ¬ RequestListKept item.parameter := by
  have htaken : dalClsConvertPara ((wideRule true).layOut queueRule) =
      ((dalClsConvertPara ((wideRule true).layOut queueRule)).1, true) := rfl
  refine ⟨wideRule true, queueRule, _, htaken, ?_⟩
  rw [requestListKept_iff_length, pktUsrMask_layOut htaken, length_requests_data, nonzeroBytes_eii]
  decide

end Opconn.Classify
