import Opconn.Classify.Windows
import Opconn.Lib.MaskedKey

/-!
# Windows for the fields of a rule

The embedding of `clsOffsetSet` of `classify.c`, through which `clsPPPoeMaskRuleMake` makes mask
and rule.  The enabled fields are laid one after the other into the six windows.  A field that
starts in a window goes on in the next one; behind the sixth window a second pass begins at the
first.  `clsMaskRuleSet` writes all that is left of a field, whatever the window shows of it.
-/

namespace Opconn.Classify.OffsetSet

open MaskedKey

/-! ### Fields -/

/-- The states besides `OPL_OK`. -/
inductive OffsetError where
  | oplError
  | windowsOutofRange
  | invalidParameterLength
  | invalidPktType
deriving DecidableEq, Repr

/-- `gCEIIFieldSingleTag`: first bit and number of bits of each field. -/
def gCEIIFieldSingleTag : List (Nat × Nat) :=
  [(0, 48), (48, 48), (96, 16), (112, 3), (116, 12), (128, 16), (144, 4), (152, 8), (216, 8),
    (240, 32), (272, 32), (304, 16), (320, 16), (336, 32)]

/-- `gCPPPoEFieldSingleTag`. -/
def gCPPPoEFieldSingleTag : List (Nat × Nat) :=
  [(0, 48), (48, 48), (96, 16), (112, 3), (116, 12), (128, 16), (152, 8), (192, 16), (208, 8),
    (208, 4), (216, 8), (280, 8), (304, 32), (336, 32), (368, 16), (484, 16), (336, 32)]

/-- `CLASSIFY_LAST_NULL_FIELD` and `CLASSIFY_PPPOE_LAST_NULL_FIELD`.  The second one counts the
fields of a second tag, which the table has not. -/
def lastNullField : Nat := 14
def pppoeLastNullField : Nat := 20

/-- What lies in memory behind the tables and behind the parameter. -/
structure Beyond where
  fields : Nat → UInt16 × UInt16
  bytes : Nat → UInt8

/-- A field of a table, or what lies behind the table. -/
def fieldAt (mem : Beyond) (table : List (Nat × Nat)) (fieldNum : Nat) : Nat × Nat :=
  table.getD fieldNum
    ((mem.fields (fieldNum - table.length)).1.toNat, (mem.fields (fieldNum - table.length)).2.toNat)

/-- With one tag, which `classifyTagMode` is never changed from. -/
def candFfieldAddrLenGet (mem : Beyond) (fieldNum : Nat) : PktType → Except OffsetError (Nat × Nat)
  | .eiiIp =>
    if lastNullField ≤ fieldNum then .error .windowsOutofRange
    else .ok (fieldAt mem gCEIIFieldSingleTag fieldNum)
  | .pppoeIp =>
    if pppoeLastNullField ≤ fieldNum then .error .windowsOutofRange
    else .ok (fieldAt mem gCPPPoEFieldSingleTag fieldNum)
  | .other => .error .invalidPktType

/-- The 80 bytes copied from a `ClsDataValue_t` with 54. -/
def copied (value : ClsDataValue) (behind : Nat → UInt8) (i : Nat) : BitVec 8 :=
  if h : i < clsDataValueSize then (value ⟨i, h⟩).toBitVec
  else (behind (i - clsDataValueSize)).toBitVec

/-- `aucLocalUserMask` and `aucLocalRuleData`: the user mask is the end of the parameter and
lies behind the value. -/
def localUserMask (par : Parameter) (mem : Beyond) : Nat → BitVec 8 :=
  copied par.pktUsrMask mem.bytes

def localRuleData (par : Parameter) (mem : Beyond) : Nat → BitVec 8 :=
  copied par.pktRuleValue fun i => UInt8.ofBitVec (localUserMask par mem i)

/-! ### State -/

inductive SearchLoop where
  | loop1
  | loop2
deriving DecidableEq, Repr

/-- A byte of the key, from 0 on, that gets bits of a byte of the packet. -/
abbrev KeyWrite := MaskedKey.Write Nat Nat 8

/-- `CLASSIFY_OFFSET_SET_PAR_t`, with the offsets found, `gOffsetUsedFlag` and what was written to
`pMaskValue` and `pRuleValue`.  Window `i + 1` has index `i`. -/
structure Search where
  offsetSeq : Nat
  searchLoop : SearchLoop
  startBit : Nat
  fieldLength : Nat
  offsetValue : Nat → Nat
  offsetUsedFlag : Nat → Bool
  writes : List KeyWrite

def Search.start : Search := ⟨1, .loop1, 0, 0, fun _ => 0, fun _ => false, []⟩

/-- The last bit of what is left of a field. -/
def Search.lastBit (s : Search) : Nat := s.startBit + s.fieldLength - 1

def Search.used (s : Search) : Bool := s.offsetUsedFlag (s.offsetSeq - 1)
def Search.value (s : Search) : Nat := s.offsetValue (s.offsetSeq - 1)

/-- The next window; behind the sixth the second pass begins at the first. -/
def Search.advance (s : Search) : Search :=
  if s.offsetSeq = 6 then { s with searchLoop := .loop2, offsetSeq := 1 }
  else { s with offsetSeq := s.offsetSeq + 1 }

/-- The rest behind the last bit that a window shows. -/
def Search.cut (s : Search) (offsetTail : Nat) : Search :=
  { s with
    fieldLength := s.fieldLength + s.startBit - (offsetTail + 1), startBit := offsetTail + 1 }

/-! ### Writing a field -/

/-- The bits that a round of `clsMaskRuleSet` takes. -/
def bitCnt (startBit fieldLen : Nat) : Nat := min fieldLen ((startBit + 7) % 8 + 1)

/-- `maskTemp` of a round. -/
def maskTemp (startBit fieldLen : Nat) : BitVec 8 :=
  let top := (List.range (bitCnt startBit fieldLen)).foldl (fun m i => m ||| 0x80#8 >>> i) 0
  if startBit % 8 ≠ 0 then top >>> (8 - startBit % 8) else top

/-- The rounds of `clsMaskRuleSet`; each takes a bit at least, and there are no more of them than
bits. -/
def maskRuleRounds : Nat → Nat → Nat → Nat → Nat → List KeyWrite
  | 0, _, _, _, _ => []
  | rounds + 1, startBit, fieldLen, byteCnt, ruleDataCnt =>
    if fieldLen = 0 then []
    else
      ⟨byteCnt, ruleDataCnt, maskTemp startBit fieldLen⟩ ::
        maskRuleRounds rounds (startBit + bitCnt startBit fieldLen)
          (fieldLen - bitCnt startBit fieldLen) ((byteCnt + 1) % 256) ((ruleDataCnt + 1) % 256)

/-- `clsMaskRuleSet`.  The first byte of the key is computed in a `UINT8`. -/
def clsMaskRuleSet (offsetSeq offsetValue startBit fieldLen : Nat) : List KeyWrite :=
  let offsetHead := (clsOffsetHeadTailCal offsetSeq offsetValue).1
  maskRuleRounds fieldLen startBit fieldLen
    ((startBit / 8 + gClassOffset offsetSeq + 256 - offsetHead / 8) % 256) (startBit / 8)

/-! ### Searching a window -/

inductive SearchStatus where
  | matchStartbit
  | closestStartbit
  | findNone
deriving DecidableEq, Repr

/-- How a loop over the offset values ends: the function returns, or the loop is left. -/
inductive Ending where
  | ret (s : Search)
  | fail (e : OffsetError)
  | leave (status : SearchStatus) (s : Search)

/-- The offset is taken and the field is written. -/
def Search.take (s : Search) (offsetValue : Nat) : Search :=
  { s with
    offsetValue := Function.update s.offsetValue (s.offsetSeq - 1) offsetValue
    offsetUsedFlag := Function.update s.offsetUsedFlag (s.offsetSeq - 1) true
    writes := s.writes ++ clsMaskRuleSet s.offsetSeq offsetValue s.startBit s.fieldLength }

/-- What follows when a field is written: the next window for the rest of it, the next window for
the next field, or this one again.  `.ok` goes on with the next offset value. -/
def settle (fieldMap : UInt32) (refusal : OffsetError) (found : SearchStatus) (offsetTail : Nat)
    (s : Search) : Except Ending Search :=
  if offsetTail < s.lastBit then
    match s.searchLoop with
    | .loop1 => .error (.leave found (s.cut offsetTail).advance)
    | .loop2 =>
      if s.offsetSeq = 6 then .error (.fail refusal)
      else .error (.leave found (s.cut offsetTail).advance)
  else if s.lastBit = offsetTail then
    match s.searchLoop with
    | .loop1 =>
      if s.offsetSeq = 6 then .error (.leave found s.advance) else .error (.ret s.advance)
    | .loop2 =>
      if s.offsetSeq = 6 then
        if fieldMap = 0x80000000 then .error (.ret s) else .error (.fail refusal)
      else .ok s
  else .error (.ret s)

/-- A window that shows the start of the field is taken.  In the second pass the next window has
to be free for the rest. -/
def fill (fieldMap : UInt32) (refusal : OffsetError) (found : SearchStatus)
    (offsetValue offsetTail : Nat) (s : Search) : Except Ending Search :=
  if s.searchLoop = .loop2 ∧ offsetTail < s.lastBit ∧
      (s.offsetSeq = 6 ∨ s.offsetUsedFlag s.offsetSeq = true) then
    .error (.fail .windowsOutofRange)
  else settle fieldMap refusal found offsetTail (s.take offsetValue)

/-- "Look for a match start bit". -/
def matchStart (fieldMap : UInt32) : List Nat → SearchStatus → Search → Ending
  | [], status, s => .leave status s
  | offsetValue :: values, status, s =>
    let window := clsOffsetHeadTailCal s.offsetSeq offsetValue
    if s.startBit ≠ window.1 then matchStart fieldMap values status s
    else if s.used ∧ (s.searchLoop = .loop1 → offsetValue ≠ s.value) then .leave .findNone s
    else
      match fill fieldMap .windowsOutofRange .matchStartbit offsetValue window.2 s with
      | .error ending => ending
      | .ok s => matchStart fieldMap values .matchStartbit s

/-- The window for "a closest start bit".  The one over the end of the header is taken for two. -/
def closestWindow (offsetSeq offsetValue startBit : Nat) : Nat × Nat :=
  let window := clsOffsetHeadTailCal offsetSeq offsetValue
  if offsetSeq = 4 ∧ offsetValue = 11 then
    if window.1 ≤ startBit then (window.1, (packetHeaderLen - 1) * 8 - 1)
    else if startBit ≤ window.2 then (0, window.2)
    else window
  else window

/-- A window with an offset keeps it, where it shows the start, or is left. -/
def closestFill (fieldMap : UInt32) (offsetValue : Nat) (s : Search) : Except Ending Search :=
  let standing := clsOffsetHeadTailCal s.offsetSeq s.value
  if s.used then
    match s.searchLoop with
    | .loop1 =>
      if standing.1 ≤ s.startBit ∧ s.startBit ≤ standing.2 then
        fill fieldMap .oplError .closestStartbit s.value standing.2 s
      else if offsetValue ≠ s.value then .error (.leave .closestStartbit s.advance)
      else fill fieldMap .oplError .closestStartbit offsetValue standing.2 s
    | .loop2 =>
      if s.offsetSeq = 6 then .error (.fail .oplError)
      else .error (.leave .closestStartbit s.advance)
  else
    fill fieldMap .oplError .closestStartbit offsetValue
      (closestWindow s.offsetSeq offsetValue s.startBit).2 s

/-- "Look for a closest start bit". -/
def closestStart (fieldMap : UInt32) : List Nat → SearchStatus → Search → Ending
  | [], status, s => .leave status s
  | offsetValue :: values, status, s =>
    let window := closestWindow s.offsetSeq offsetValue s.startBit
    if window.1 ≤ s.startBit ∧ s.startBit ≤ window.2 then
      match closestFill fieldMap offsetValue s with
      | .error ending => ending
      | .ok s => closestStart fieldMap values .closestStartbit s
    else closestStart fieldMap values status s

/-- `CLASSIFY_OFFSET_MAX_STEP_VALUE`. -/
def offsetValues : List Nat := List.range 12

/-- A round of the loop over `offsetSeqCnt`; `last` is the one with 6. -/
def searchRound (fieldMap : UInt32) (last : Bool) (s : Search) : Ending :=
  match matchStart fieldMap offsetValues .findNone s with
  | .leave .matchStartbit s => .leave .matchStartbit s
  | .leave _ s =>
    match closestStart fieldMap offsetValues .findNone s with
    | .leave .findNone s =>
      if last then
        match s.searchLoop with
        | .loop1 => .leave .findNone { s with searchLoop := .loop2, offsetSeq := 1 }
        | .loop2 => .fail .oplError
      else .leave .findNone { s with offsetSeq := s.offsetSeq + 1 }
    | ending => ending
  | ending => ending

/-- The rounds that are left.  Behind the last one the function returns OK. -/
def searchRounds (fieldMap : UInt32) : Nat → Search → Except OffsetError Search
  | 0, s => .ok s
  | rounds + 1, s =>
    match searchRound fieldMap (rounds == 0) s with
    | .ret s => .ok s
    | .fail e => .error e
    | .leave _ s => searchRounds fieldMap rounds s

/-- `clsOffsetTblSearch`, for a packet type that has a value. -/
def clsOffsetTblSearch (fieldMap : UInt32) (s : Search) : Except OffsetError Search :=
  if packetHeaderLen * 8 < s.startBit + s.fieldLength then .error .invalidParameterLength
  else searchRounds fieldMap (7 - s.offsetSeq) s

/-! ### Checks -/

/-- `clsWindowRangeCheck`: some window has nothing in its mask. -/
def clsWindowRangeCheck (mask : Nat → BitVec 8) : Bool :=
  (List.range 6).any fun index => (List.range 4).all fun b => mask (4 * index + b) == 0

/-- `clsWinOffsetUsefulCheck`. -/
def clsWinOffsetUsefulCheck (used : Nat → Bool) (prestartBit startBit length : Nat) : Bool :=
  if (List.range 5).all used then
    offsetValues.any fun index =>
      let window6 := clsOffsetHeadTailCal 6 index
      let window5 := clsOffsetHeadTailCal 5 index
      decide (window6.1 ≤ startBit ∧ startBit + length ≤ window6.2) ||
        (!used 5 && decide (window5.1 ≤ prestartBit ∧ startBit + length ≤ window6.2))
  else true

/-! ### All fields -/

/-- `pMaskValue` and `pRuleValue`. -/
def maskValue (par : Parameter) (mem : Beyond) (s : Search) (k : Nat) : BitVec 8 :=
  maskAt (localUserMask par mem) k s.writes

def ruleValue (par : Parameter) (mem : Beyond) (s : Search) (k : Nat) : BitVec 8 :=
  ruleAt (localUserMask par mem) (localRuleData par mem) k s.writes

/-- `FieldMap` moved to the left, and its `CLASSIFY_FIELD_MS_BIT`. -/
def localFieldMap (fieldMap : UInt32) (cnt : Nat) : BitVec 32 := fieldMap.toBitVec <<< cnt
def fieldEnabled (fieldMap : UInt32) (cnt : Nat) : Bool := (localFieldMap fieldMap cnt).msb

/-- One enabled field. -/
def fieldSet (par : Parameter) (mem : Beyond) (cnt prestartBit : Nat) (s : Search) :
    Except OffsetError Search :=
  match candFfieldAddrLenGet mem cnt par.pktType with
  | .error e => .error e
  | .ok (startBit, fieldLength) =>
    if !clsWinOffsetUsefulCheck s.offsetUsedFlag prestartBit startBit fieldLength then
      .error .windowsOutofRange
    else if !clsWindowRangeCheck (maskValue par mem s) then .error .windowsOutofRange
    else
      clsOffsetTblSearch par.fieldMap { s with startBit := startBit, fieldLength := fieldLength }

/-- The loop of `clsOffsetSet`.  What is left of the start bit of a field is the one before the
next. -/
def fieldRounds (par : Parameter) (mem : Beyond) :
    List Nat → Nat → Search → Except OffsetError Search
  | [], _, s => .ok s
  | cnt :: cnts, prestartBit, s =>
    if localFieldMap par.fieldMap cnt = 0 then .ok s
    else if fieldEnabled par.fieldMap cnt then
      match fieldSet par mem cnt prestartBit s with
      | .error e => .error e
      | .ok s => fieldRounds par mem cnts s.startBit s
    else fieldRounds par mem cnts prestartBit s

def clsOffsetSet (par : Parameter) (mem : Beyond) : Except OffsetError Search :=
  fieldRounds par mem (List.range 32) 0 .start

/-- `clsPPPoeMaskRuleMake`: the entries of what was found, with nothing else in them. -/
def entryOf (par : Parameter) (mem : Beyond) (s : Search) : MaskEntry × RuleEntry :=
  ({ MaskEntry.zero with
      bfOffset := fun w => s.offsetValue w
      mask := fun k => UInt8.ofBitVec (maskValue par mem s k) },
    { RuleEntry.zero with rule := fun k => UInt8.ofBitVec (ruleValue par mem s k) })

def clsPPPoeMaskRuleMake (par : Parameter) (mem : Beyond) :
    Except OffsetError (MaskEntry × RuleEntry) :=
  if par.fieldMap = 0 then .ok (.zero, .zero)
  else
    match clsOffsetSet par mem with
    | .error e => .error e
    | .ok s => .ok (entryOf par mem s)

end Opconn.Classify.OffsetSet
