import Mathlib.Data.Fintype.Pi
import Mathlib.Data.Fintype.Prod
import Mathlib.Data.Fintype.EquivFin
import Opconn.Lib.Backtrack

/-!
# From a flat match to six windows

The embedding of `clsMaskRuleMake2ONU` of `classify.c`.  A rule is given as mask and value
bytes over the first 80 bytes of a packet; the chip compares 24 bytes, four in each of six
windows that a mask entry moves over the header.  `clsOffsetCalc` looks for a place of
every masked byte by backtracking over the table of the places that can show it.  The
main result says that the entry found matches the same headers as the flat rule.
-/

namespace Opconn.Classify

/-! ### Entries -/

/-- `CLASSIFY_PACKET_HEADER_LEN`, which is `CREQUEST_LEN` too. -/
abbrev packetHeaderLen : Nat := 80

/-- `CLASSIFY_KEYVALUE_LENGTH`: six windows of `CLASSIFY_OFFSET_LEN` bytes. -/
abbrev keyvalueLength : Nat := 24

/-- `CLASSIFY_MASK_ENTRY_t`; `bfOffset w` is the field `bfOffset` of window `w + 1`. -/
structure MaskEntry where
  bfValid : Bool
  bfImask : Bool
  bfEmask : Bool
  bfOffset : Fin 6 → Nat
  mask : Fin keyvalueLength → UInt8
  maskPri : Nat
  referenceCount : Nat
deriving DecidableEq

/-- The action fields of a rule: what the chip does to a packet that matches. -/
structure RuleAction where
  bfTranActH : Nat
  bfTranActL : Nat
  bfRmkAct : Nat
  bfRmkCos : Nat
  bfRmkIcos : Nat
  bfRmkVid : Nat
deriving DecidableEq, Repr

/-- `CLASSIFY_RULE_ENTRY_t`. -/
structure RuleEntry where
  action : RuleAction
  bfEgress : Bool
  bfIngress : Bool
  bfMsel : Nat
  rule : Fin keyvalueLength → UInt8
deriving DecidableEq

/-- Entries after `OPL_BZERO`. -/
def MaskEntry.zero : MaskEntry := ⟨false, false, false, fun _ => 0, fun _ => 0, 0, 0⟩
def RuleAction.zero : RuleAction := ⟨0, 0, 0, 0, 0, 0⟩
def RuleEntry.zero : RuleEntry := ⟨.zero, false, false, 0, fun _ => 0⟩

/-- `sizeof(ClsDataValue_t)`, the larger of its two packed structures, and
`sizeof(CLASSIFY_EII_t)`. -/
abbrev clsDataValueSize : Nat := 54
def classifyEiiSize : Nat := 46

/-- `ClsDataValue_t`, as bytes. -/
abbrev ClsDataValue := Fin clsDataValueSize → UInt8

/-- `pktType`: `CLASSIFY_EII_IP`, `CLASSIFY_PPPOE_IP`, and what no `case` knows. -/
inductive PktType where
  | eiiIp
  | pppoeIp
  | other
deriving DecidableEq, Repr

/-- `CLASSIFY_PARAMETER_t`, without the meter fields. -/
structure Parameter where
  pktType : PktType
  egressMask : Bool
  ingressMask : Bool
  maskPri : Nat
  fieldMap : UInt32
  ruleEntry : RuleEntry
  pktRuleValue : ClsDataValue
  pktUsrMask : ClsDataValue
deriving DecidableEq

/-! ### The places of a byte -/

/-- `FOFFSET_SEARCH_TBL_ENTRY_t`: byte `mOffset_off` of window `mIndex` (from 1) at
offset step `mOffset`. -/
structure SearchEntry where
  mIndex : Nat
  mOffset : Nat
  mOffsetOff : Nat
deriving DecidableEq, Repr

/-- `foffsetSearchTbl`: row `i` lists the places that show byte `i` of the header, without
the zero entries that end a row. -/
def foffsetSearchTbl : List (List SearchEntry) :=
  [
    [⟨1, 0, 0⟩, ⟨4, 11, 2⟩],
    [⟨1, 0, 1⟩, ⟨1, 1, 0⟩, ⟨4, 11, 3⟩],
    [⟨1, 0, 2⟩, ⟨1, 1, 1⟩, ⟨5, 11, 0⟩],
    [⟨1, 0, 3⟩, ⟨1, 1, 2⟩, ⟨1, 2, 0⟩, ⟨5, 11, 1⟩],
    [⟨1, 1, 3⟩, ⟨1, 2, 1⟩, ⟨2, 0, 0⟩, ⟨5, 11, 2⟩],
    [⟨1, 2, 2⟩, ⟨2, 0, 1⟩, ⟨2, 1, 0⟩, ⟨5, 11, 3⟩],
    [⟨1, 2, 3⟩, ⟨1, 3, 0⟩, ⟨2, 0, 2⟩, ⟨2, 1, 1⟩, ⟨6, 11, 0⟩],
    [⟨1, 3, 1⟩, ⟨2, 0, 3⟩, ⟨2, 1, 2⟩, ⟨2, 2, 0⟩, ⟨6, 11, 1⟩],
    [⟨1, 3, 2⟩, ⟨2, 1, 3⟩, ⟨2, 2, 1⟩, ⟨3, 0, 0⟩, ⟨6, 11, 2⟩],
    [⟨1, 3, 3⟩, ⟨2, 2, 2⟩, ⟨3, 0, 1⟩, ⟨3, 1, 0⟩, ⟨6, 11, 3⟩],
    [⟨1, 4, 0⟩, ⟨2, 2, 3⟩, ⟨2, 3, 0⟩, ⟨3, 0, 2⟩, ⟨3, 1, 1⟩],
    [⟨1, 4, 1⟩, ⟨2, 3, 1⟩, ⟨3, 0, 3⟩, ⟨3, 1, 2⟩, ⟨3, 2, 0⟩],
    [⟨1, 4, 2⟩, ⟨2, 3, 2⟩, ⟨3, 1, 3⟩, ⟨3, 2, 1⟩, ⟨4, 0, 0⟩],
    [⟨1, 4, 3⟩, ⟨2, 3, 3⟩, ⟨3, 2, 2⟩, ⟨4, 0, 1⟩, ⟨4, 1, 0⟩],
    [⟨2, 4, 0⟩, ⟨3, 2, 3⟩, ⟨3, 3, 0⟩, ⟨4, 0, 2⟩, ⟨4, 1, 1⟩],
    [⟨1, 5, 0⟩, ⟨2, 4, 1⟩, ⟨3, 3, 1⟩, ⟨4, 0, 3⟩, ⟨4, 1, 2⟩, ⟨4, 2, 0⟩],
    [⟨1, 5, 1⟩, ⟨2, 4, 2⟩, ⟨3, 3, 2⟩, ⟨4, 1, 3⟩, ⟨4, 2, 1⟩, ⟨5, 0, 0⟩],
    [⟨1, 5, 2⟩, ⟨2, 4, 3⟩, ⟨3, 3, 3⟩, ⟨4, 2, 2⟩, ⟨5, 0, 1⟩, ⟨5, 1, 0⟩],
    [⟨1, 5, 3⟩, ⟨3, 4, 0⟩, ⟨4, 2, 3⟩, ⟨4, 3, 0⟩, ⟨5, 0, 2⟩, ⟨5, 1, 1⟩],
    [⟨2, 5, 0⟩, ⟨3, 4, 1⟩, ⟨4, 3, 1⟩, ⟨5, 0, 3⟩, ⟨5, 1, 2⟩, ⟨5, 2, 0⟩],
    [⟨2, 5, 1⟩, ⟨3, 4, 2⟩, ⟨4, 3, 2⟩, ⟨5, 1, 3⟩, ⟨5, 2, 1⟩, ⟨6, 0, 0⟩],
    [⟨1, 6, 0⟩, ⟨2, 5, 2⟩, ⟨3, 4, 3⟩, ⟨4, 3, 3⟩, ⟨5, 2, 2⟩, ⟨6, 0, 1⟩, ⟨6, 1, 0⟩],
    [⟨1, 6, 1⟩, ⟨2, 5, 3⟩, ⟨4, 4, 0⟩, ⟨5, 2, 3⟩, ⟨5, 3, 0⟩, ⟨6, 0, 2⟩, ⟨6, 1, 1⟩],
    [⟨1, 6, 2⟩, ⟨3, 5, 0⟩, ⟨4, 4, 1⟩, ⟨5, 3, 1⟩, ⟨6, 0, 3⟩, ⟨6, 1, 2⟩, ⟨6, 2, 0⟩],
    [⟨1, 6, 3⟩, ⟨3, 5, 1⟩, ⟨4, 4, 2⟩, ⟨5, 3, 2⟩, ⟨6, 1, 3⟩, ⟨6, 2, 1⟩],
    [⟨2, 6, 0⟩, ⟨3, 5, 2⟩, ⟨4, 4, 3⟩, ⟨5, 3, 3⟩, ⟨6, 2, 2⟩],
    [⟨2, 6, 1⟩, ⟨3, 5, 3⟩, ⟨5, 4, 0⟩, ⟨6, 2, 3⟩, ⟨6, 3, 0⟩],
    [⟨2, 6, 2⟩, ⟨4, 5, 0⟩, ⟨5, 4, 1⟩, ⟨6, 3, 1⟩],
    [⟨1, 7, 0⟩, ⟨2, 6, 3⟩, ⟨4, 5, 1⟩, ⟨5, 4, 2⟩, ⟨6, 3, 2⟩],
    [⟨1, 7, 1⟩, ⟨3, 6, 0⟩, ⟨4, 5, 2⟩, ⟨5, 4, 3⟩, ⟨6, 3, 3⟩],
    [⟨1, 7, 2⟩, ⟨3, 6, 1⟩, ⟨4, 5, 3⟩, ⟨6, 4, 0⟩],
    [⟨1, 7, 3⟩, ⟨3, 6, 2⟩, ⟨5, 5, 0⟩, ⟨6, 4, 1⟩],
    [⟨2, 7, 0⟩, ⟨3, 6, 3⟩, ⟨5, 5, 1⟩, ⟨6, 4, 2⟩],
    [⟨2, 7, 1⟩, ⟨4, 6, 0⟩, ⟨5, 5, 2⟩, ⟨6, 4, 3⟩],
    [⟨2, 7, 2⟩, ⟨4, 6, 1⟩, ⟨5, 5, 3⟩],
    [⟨2, 7, 3⟩, ⟨4, 6, 2⟩, ⟨6, 5, 0⟩],
    [⟨1, 8, 0⟩, ⟨3, 7, 0⟩, ⟨4, 6, 3⟩, ⟨6, 5, 1⟩],
    [⟨1, 8, 1⟩, ⟨3, 7, 1⟩, ⟨5, 6, 0⟩, ⟨6, 5, 2⟩],
    [⟨1, 8, 2⟩, ⟨3, 7, 2⟩, ⟨5, 6, 1⟩, ⟨6, 5, 3⟩],
    [⟨1, 8, 3⟩, ⟨3, 7, 3⟩, ⟨5, 6, 2⟩],
    [⟨2, 8, 0⟩, ⟨4, 7, 0⟩, ⟨5, 6, 3⟩],
    [⟨2, 8, 1⟩, ⟨4, 7, 1⟩, ⟨6, 6, 0⟩],
    [⟨2, 8, 2⟩, ⟨4, 7, 2⟩, ⟨6, 6, 1⟩],
    [⟨2, 8, 3⟩, ⟨4, 7, 3⟩, ⟨6, 6, 2⟩],
    [⟨3, 8, 0⟩, ⟨5, 7, 0⟩, ⟨6, 6, 3⟩],
    [⟨1, 9, 0⟩, ⟨3, 8, 1⟩, ⟨5, 7, 1⟩],
    [⟨1, 9, 1⟩, ⟨3, 8, 2⟩, ⟨5, 7, 2⟩],
    [⟨1, 9, 2⟩, ⟨3, 8, 3⟩, ⟨5, 7, 3⟩],
    [⟨1, 9, 3⟩, ⟨4, 8, 0⟩, ⟨6, 7, 0⟩],
    [⟨2, 9, 0⟩, ⟨4, 8, 1⟩, ⟨6, 7, 1⟩],
    [⟨2, 9, 1⟩, ⟨4, 8, 2⟩, ⟨6, 7, 2⟩],
    [⟨2, 9, 2⟩, ⟨4, 8, 3⟩, ⟨6, 7, 3⟩],
    [⟨2, 9, 3⟩, ⟨5, 8, 0⟩],
    [⟨3, 9, 0⟩, ⟨5, 8, 1⟩],
    [⟨3, 9, 1⟩, ⟨5, 8, 2⟩],
    [⟨1, 10, 0⟩, ⟨3, 9, 2⟩, ⟨5, 8, 3⟩],
    [⟨1, 10, 1⟩, ⟨3, 9, 3⟩, ⟨6, 8, 0⟩],
    [⟨1, 10, 2⟩, ⟨4, 9, 0⟩, ⟨6, 8, 1⟩],
    [⟨1, 10, 3⟩, ⟨4, 9, 1⟩, ⟨6, 8, 2⟩],
    [⟨2, 10, 0⟩, ⟨4, 9, 2⟩, ⟨6, 8, 3⟩],
    [⟨2, 10, 1⟩, ⟨4, 9, 3⟩],
    [⟨2, 10, 2⟩, ⟨5, 9, 0⟩],
    [⟨2, 10, 3⟩, ⟨5, 9, 1⟩],
    [⟨3, 10, 0⟩, ⟨5, 9, 2⟩],
    [⟨3, 10, 1⟩, ⟨5, 9, 3⟩],
    [⟨3, 10, 2⟩, ⟨6, 9, 0⟩],
    [⟨1, 11, 0⟩, ⟨3, 10, 3⟩, ⟨6, 9, 1⟩],
    [⟨1, 11, 1⟩, ⟨4, 10, 0⟩, ⟨6, 9, 2⟩],
    [⟨1, 11, 2⟩, ⟨4, 10, 1⟩, ⟨6, 9, 3⟩],
    [⟨1, 11, 3⟩, ⟨4, 10, 2⟩],
    [⟨2, 11, 0⟩, ⟨4, 10, 3⟩],
    [⟨2, 11, 1⟩, ⟨5, 10, 0⟩],
    [⟨2, 11, 2⟩, ⟨5, 10, 1⟩],
    [⟨2, 11, 3⟩, ⟨5, 10, 2⟩],
    [⟨3, 11, 0⟩, ⟨5, 10, 3⟩],
    [⟨3, 11, 1⟩, ⟨6, 10, 0⟩],
    [⟨3, 11, 2⟩, ⟨6, 10, 1⟩],
    [⟨3, 11, 3⟩, ⟨6, 10, 2⟩],
    [⟨4, 11, 0⟩, ⟨6, 10, 3⟩],
    [⟨4, 11, 1⟩] ]

/-- `gClassOffset`: where window `offsetSeq` starts at step 0. -/
def gClassOffset (offsetSeq : Nat) : Nat := [0, 4, 8, 12, 16, 20].getD (offsetSeq - 1) 0

/-- `gClassSession`: how far a step moves a window. -/
def gClassSession (offsetValue : Nat) : Nat :=
  [0, 1, 3, 6, 10, 15, 21, 28, 36, 45, 55, 66].getD offsetValue 0

/-- `clsOffsetHeadTailCal`: the first and the last bit of a window; one that passes the
end of the header goes on at byte 0. -/
def clsOffsetHeadTailCal (offsetSeq offsetValue : Nat) : Nat × Nat :=
  let head := (gClassOffset offsetSeq + gClassSession offsetValue) * 8
  let tail := (gClassOffset offsetSeq + gClassSession offsetValue + 4) * 8 - 1
  (if packetHeaderLen * 8 ≤ head then head - packetHeaderLen * 8 else head,
    if packetHeaderLen * 8 ≤ tail then tail - packetHeaderLen * 8 else tail)

/-- The byte of the header that byte `b` of window `w + 1` shows at a step. -/
def windowByte (w : Fin 6) (offsetValue : Nat) (b : Fin 4) : Fin packetHeaderLen :=
  Fin.ofNat packetHeaderLen (4 * w.val + gClassSession offsetValue + b.val)

/-- The windows are those of `clsOffsetHeadTailCal`: their first byte holds its head and
their last byte its tail. -/
theorem windowByte_headTail (w : Fin 6) (v : Fin 12) :
    (windowByte w v 0).val = (clsOffsetHeadTailCal (w + 1) v).1 / 8 ∧
      (windowByte w v 3).val = (clsOffsetHeadTailCal (w + 1) v).2 / 8 := by
  revert w v
  decide

/-- A place names a byte of a window. -/
structure IsPlace (b : Nat) (e : SearchEntry) : Prop where
  index_pos : 0 < e.mIndex
  index_le : e.mIndex ≤ 6
  off_lt : e.mOffsetOff < 4
  shows : (4 * (e.mIndex - 1) + gClassSession e.mOffset + e.mOffsetOff) % packetHeaderLen = b

/-- **The search table is right**: every place in row `b` shows byte `b`. -/
theorem isPlace_of_mem {b : Nat} {e : SearchEntry} (he : e ∈ foffsetSearchTbl.getD b []) :
    IsPlace b e := by
  have hrow : ∀ b < 80, ∀ e ∈ foffsetSearchTbl.getD b [],
      0 < e.mIndex ∧ e.mIndex ≤ 6 ∧ e.mOffsetOff < 4 ∧
        (4 * (e.mIndex - 1) + gClassSession e.mOffset + e.mOffsetOff) % packetHeaderLen = b := by
    decide
  have hb : b < 80 := by
    by_contra hge
    have hnone : foffsetSearchTbl[b]? = none := List.getElem?_eq_none (by
      have hlen : foffsetSearchTbl.length = 80 := by decide
      omega)
    simp [List.getD_eq_getElem?_getD, hnone] at he
  obtain ⟨hpos, hle, hoff, hshows⟩ := hrow b hb e he
  exact ⟨hpos, hle, hoff, hshows⟩

/-! ### The search -/

/-- `FOFFSET_USED_TBL_ENTRY_t`: the step a window stands at, and which of its bytes are
taken. -/
structure UsedEntry where
  uOffset : Nat
  uOffsetOff : BitVec 8
deriving DecidableEq, Repr

/-- The statics of the search.  `crinfo b` is the place of byte `b`; an entry with index 0
is `none`.  `foffsetUsedTbl` is read at `mIndex - 1`. -/
structure Search where
  crinfo : Nat → Option SearchEntry
  foffsetUsedTbl : Nat → UsedEntry

def Search.empty : Search := ⟨fun _ => none, fun _ => ⟨0, 0⟩⟩

/-- `clsOffsetAvailableCheck`: the window is not used yet, or stands at the same step with
the byte not taken. -/
def clsOffsetAvailableCheck (s : Search) (e : SearchEntry) : Bool :=
  let u := s.foffsetUsedTbl (e.mIndex - 1)
  if u.uOffset = 0 ∧ u.uOffsetOff = 0 then true
  else if u.uOffset = e.mOffset then !u.uOffsetOff.getLsbD e.mOffsetOff
  else false

/-- Record the place `e` of byte `b`. -/
def Search.put (s : Search) (b : Nat) (e : SearchEntry) : Search where
  crinfo := Function.update s.crinfo b (some e)
  foffsetUsedTbl := Function.update s.foffsetUsedTbl (e.mIndex - 1)
    ⟨e.mOffset, (s.foffsetUsedTbl (e.mIndex - 1)).uOffsetOff ||| (1#8 <<< e.mOffsetOff)⟩

/-- "analyze failed": the place is given back. -/
def Search.undo (s : Search) (b : Nat) (e : SearchEntry) : Search :=
  let u := s.foffsetUsedTbl (e.mIndex - 1)
  let off := u.uOffsetOff &&& ~~~(1#8 <<< e.mOffsetOff)
  { crinfo := Function.update s.crinfo b none
    foffsetUsedTbl := Function.update s.foffsetUsedTbl (e.mIndex - 1)
      ⟨if off = 0 then 0 else u.uOffset, off⟩ }

def searchProblem : Backtrack.Problem Search Nat SearchEntry where
  candidates := fun b => foffsetSearchTbl.getD b []
  free := clsOffsetAvailableCheck
  put := Search.put
  undo := Search.undo

/-- `clsOffsetCalc` on the requests from `*requestValid` on. -/
def clsOffsetCalc (requests : List Nat) (s : Search) : Bool × Search :=
  Backtrack.search searchProblem requests s

/-- What the search keeps: recorded places are places of their byte, in a window that
stands at their step and has their byte taken; an unused window stands at step 0. -/
structure Consistent (rs : List Nat) (s : Search) : Prop where
  fresh : ∀ b ∈ rs, s.crinfo b = none
  nodup : rs.Nodup
  place : ∀ {b e}, s.crinfo b = some e → IsPlace b e
  step : ∀ {b e}, s.crinfo b = some e → (s.foffsetUsedTbl (e.mIndex - 1)).uOffset = e.mOffset
  taken : ∀ {b e}, s.crinfo b = some e →
    (s.foffsetUsedTbl (e.mIndex - 1)).uOffsetOff.getLsbD e.mOffsetOff = true
  unused : ∀ w, (s.foffsetUsedTbl w).uOffsetOff = 0 → (s.foffsetUsedTbl w).uOffset = 0

theorem consistent_empty {rs : List Nat} (h : rs.Nodup) : Consistent rs Search.empty where
  fresh := fun _ _ => rfl
  nodup := h
  place := fun h => by simp [Search.empty] at h
  step := fun h => by simp [Search.empty] at h
  taken := fun h => by simp [Search.empty] at h
  unused := fun _ _ => rfl

theorem getLsbD_oneShift {i o : Nat} (hi : i < 8) :
    (1#8 <<< o).getLsbD i = decide (i = o) := by
  rw [BitVec.getLsbD_shiftLeft]
  by_cases h : i = o
  · subst h
    simp [hi]
  · by_cases hlt : i < o
    · simp [h, hlt]
    · have hne : ¬ i - o = 0 := by omega
      simp [h, hlt, hne]

/-- A byte taken and given back. -/
theorem or_and_not_oneShift {x : BitVec 8} {o : Nat} (h : x.getLsbD o = false) :
    (x ||| 1#8 <<< o) &&& ~~~(1#8 <<< o) = x := by
  apply BitVec.eq_of_getLsbD_eq
  intro i hi
  simp only [BitVec.getLsbD_and, BitVec.getLsbD_or, BitVec.getLsbD_not, getLsbD_oneShift hi, hi,
    decide_true, Bool.true_and]
  by_cases heq : i = o
  · subst heq
    simp [h]
  · simp [heq]

/-- The two ways for a place to be free. -/
theorem available_cases {s : Search} {e : SearchEntry} (h : clsOffsetAvailableCheck s e = true) :
    ((s.foffsetUsedTbl (e.mIndex - 1)).uOffset = 0 ∧
        (s.foffsetUsedTbl (e.mIndex - 1)).uOffsetOff = 0) ∨
      ((s.foffsetUsedTbl (e.mIndex - 1)).uOffset = e.mOffset ∧
        (s.foffsetUsedTbl (e.mIndex - 1)).uOffsetOff.getLsbD e.mOffsetOff = false) := by
  simp only [clsOffsetAvailableCheck] at h
  split at h
  · exact .inl ‹_›
  · split at h
    · exact .inr ⟨‹_›, by simpa using h⟩
    · cases h

/-- A free place has its byte not taken. -/
theorem not_taken_of_available {s : Search} {e : SearchEntry}
    (h : clsOffsetAvailableCheck s e = true) :
    (s.foffsetUsedTbl (e.mIndex - 1)).uOffsetOff.getLsbD e.mOffsetOff = false := by
  rcases available_cases h with ⟨-, hoff⟩ | ⟨-, hoff⟩
  · simp [hoff]
  · exact hoff

theorem Consistent.put {b : Nat} {rs : List Nat} {s : Search} {e : SearchEntry}
    (h : Consistent (b :: rs) s) (he : e ∈ foffsetSearchTbl.getD b [])
    (hfree : clsOffsetAvailableCheck s e = true) : Consistent rs (s.put b e) := by
  have hplace := isPlace_of_mem he
  have hbit : ((s.put b e).foffsetUsedTbl (e.mIndex - 1)).uOffsetOff.getLsbD e.mOffsetOff
      = true := by
    have hoff : e.mOffsetOff < 8 := by have := hplace.off_lt; omega
    simp [Search.put, getLsbD_oneShift hoff]
  -- a byte recorded before in the same window: its step is the one of the new place
  have hsame : ∀ {b' e'}, s.crinfo b' = some e' → e'.mIndex - 1 = e.mIndex - 1 →
      e'.mOffset = e.mOffset := by
    intro b' e' he' hw
    have hstep := h.step he'
    have htaken := h.taken he'
    rw [hw] at hstep htaken
    rcases available_cases hfree with ⟨-, hoff⟩ | ⟨hoffset, -⟩
    · simp [hoff] at htaken
    · rw [← hstep, hoffset]
  constructor
  · intro b' hb'
    have hne : b' ≠ b := by
      rintro rfl
      exact (List.nodup_cons.mp h.nodup).1 hb'
    rw [show (s.put b e).crinfo b' = s.crinfo b' from Function.update_of_ne hne ..]
    exact h.fresh b' (List.mem_cons_of_mem _ hb')
  · exact (List.nodup_cons.mp h.nodup).2
  · intro b' e' he'
    by_cases hb : b' = b
    · subst hb
      obtain rfl : e = e' := by simpa [Search.put] using he'
      exact hplace
    · exact h.place (by simpa [Search.put, Function.update_of_ne hb] using he')
  · intro b' e' he'
    by_cases hb : b' = b
    · subst hb
      obtain rfl : e = e' := by simpa [Search.put] using he'
      simp [Search.put]
    · replace he' : s.crinfo b' = some e' := by
        simpa [Search.put, Function.update_of_ne hb] using he'
      by_cases hw : e'.mIndex - 1 = e.mIndex - 1
      · simp [Search.put, hw, hsame he' hw]
      · simpa [Search.put, Function.update_of_ne hw] using h.step he'
  · intro b' e' he'
    by_cases hb : b' = b
    · subst hb
      obtain rfl : e = e' := by simpa [Search.put] using he'
      exact hbit
    · replace he' : s.crinfo b' = some e' := by
        simpa [Search.put, Function.update_of_ne hb] using he'
      by_cases hw : e'.mIndex - 1 = e.mIndex - 1
      · have htaken := h.taken he'
        rw [hw] at htaken ⊢
        simp [Search.put, htaken]
      · simpa [Search.put, Function.update_of_ne hw] using h.taken he'
  · intro w hw
    by_cases heq : w = e.mIndex - 1
    · subst heq
      simp [hw] at hbit
    · have hrow : (s.put b e).foffsetUsedTbl w = s.foffsetUsedTbl w :=
        Function.update_of_ne heq ..
      rw [hrow] at hw ⊢
      exact h.unused w hw

/-- A place that is given back leaves the search as it was. -/
theorem Consistent.undo_put {b : Nat} {rs : List Nat} {s : Search} {e : SearchEntry}
    (h : Consistent (b :: rs) s) (hfree : clsOffsetAvailableCheck s e = true) :
    (s.put b e).undo b e = s := by
  have hfresh : s.crinfo b = none := h.fresh b (List.mem_cons_self ..)
  have hoff := or_and_not_oneShift (not_taken_of_available hfree)
  have hstep : (if (s.foffsetUsedTbl (e.mIndex - 1)).uOffsetOff = 0 then 0 else e.mOffset) =
      (s.foffsetUsedTbl (e.mIndex - 1)).uOffset := by
    by_cases hz : (s.foffsetUsedTbl (e.mIndex - 1)).uOffsetOff = 0
    · rw [if_pos hz]
      exact (h.unused _ hz).symm
    · rw [if_neg hz]
      rcases available_cases hfree with ⟨-, hzero⟩ | ⟨hoffset, -⟩
      · exact absurd hzero hz
      · exact hoffset.symm
  have hcrinfo : ((s.put b e).undo b e).crinfo = s.crinfo := by
    simp [Search.undo, Search.put, ← hfresh]
  have hused : ((s.put b e).undo b e).foffsetUsedTbl = s.foffsetUsedTbl := by
    simp only [Search.undo, Search.put, Function.update_self, Function.update_idem, hoff, hstep]
    exact Function.update_eq_self ..
  exact congrArg₂ Search.mk hcrinfo hused

theorem reversible_search : Backtrack.Reversible searchProblem Consistent where
  put := Consistent.put
  undo := fun h _ hfree => h.undo_put hfree

/-- A search that serves its requests keeps what it has recorded consistent, and has a
place for exactly the bytes that were asked for. -/
theorem consistent_of_served {rs : List Nat} {s s' : Search}
    (h : Backtrack.Served searchProblem rs s s') (hs : Consistent rs s) :
    Consistent [] s' ∧ ∀ b, (s'.crinfo b).isSome ↔ b ∈ rs ∨ (s.crinfo b).isSome := by
  induction h with
  | done s => exact ⟨hs, by simp⟩
  | @choose r rs s s' e hmem hfree hrest ih =>
    obtain ⟨hlast, hsome⟩ := ih (hs.put hmem hfree)
    refine ⟨hlast, ?_⟩
    intro b
    rw [hsome b]
    by_cases hb : b = r
    · subst hb
      simp [searchProblem, Search.put]
    · have hrow : (searchProblem.put s r e).crinfo b = s.crinfo b := Function.update_of_ne hb ..
      simp [hrow, hb]

/-! ### Making the entries -/

/-- `maskValue` and `ruleValue`: the bytes of the `EIIValue`, and zeros behind it. -/
def headerValue (v : ClsDataValue) (i : Fin packetHeaderLen) : UInt8 :=
  if h : i.val < classifyEiiSize then v ⟨i.val, Nat.lt_trans h (by decide)⟩ else 0

/-- The positions of the bytes to match, in order. -/
def requests (maskValue : Fin packetHeaderLen → UInt8) : List Nat :=
  ((List.finRange packetHeaderLen).filter fun i => maskValue i != 0).map Fin.val

/-- What `clsOffsetCalc` reads from `crequestValid` on.  The array holds 24 positions and
the zero that ends them; when there are more they are written behind it, and the bytes
that follow them on the stack, up to a zero, are read as positions too. -/
def crequestValid (maskValue : Fin packetHeaderLen → UInt8) (stack : List Nat) : List Nat :=
  let positions := requests maskValue
  if positions.length ≤ keyvalueLength then positions
  else positions ++ stack.takeWhile (· != 0)

/-- The window of a place, from 0. -/
def windowOf (e : SearchEntry) : Fin 6 := Fin.ofNat 6 (e.mIndex - 1)

/-- Where the byte of a place stands in `Mask` and `Rule`. -/
def keySlot (e : SearchEntry) : Fin keyvalueLength :=
  Fin.ofNat keyvalueLength (4 * (e.mIndex - 1) + e.mOffsetOff)

/-- The body of the last loop: a byte with a place goes into the entries there, and its
window is moved to the step of the place. -/
def writeByte (crinfo : Nat → Option SearchEntry) (maskValue ruleValue : Fin packetHeaderLen → UInt8)
    (entry : MaskEntry × RuleEntry) (i : Fin packetHeaderLen) : MaskEntry × RuleEntry :=
  match crinfo i with
  | none => entry
  | some e =>
    ({ entry.1 with
        bfOffset := Function.update entry.1.bfOffset (windowOf e) e.mOffset
        mask := Function.update entry.1.mask (keySlot e) (maskValue i) },
      { entry.2 with rule := Function.update entry.2.rule (keySlot e) (ruleValue i) })

/-- `clsMaskRuleMake2ONU`, with the entries the callers have cleared; `none` when there is
no place for some byte.  With no byte to match it returns at once. -/
def clsMaskRuleMake2Onu (par : Parameter) (stack : List Nat) : Option (MaskEntry × RuleEntry) :=
  let maskValue := headerValue par.pktUsrMask
  let ruleValue := headerValue par.pktRuleValue
  let found := clsOffsetCalc (crequestValid maskValue stack) Search.empty
  if (requests maskValue).length = 0 then some (.zero, .zero)
  else if found.1 then
    some ((List.finRange packetHeaderLen).foldl
      (writeByte found.2.crinfo maskValue ruleValue) (.zero, .zero))
  else none

theorem mem_requests {maskValue : Fin packetHeaderLen → UInt8} {i : Fin packetHeaderLen} :
    i.val ∈ requests maskValue ↔ maskValue i ≠ 0 := by
  simp [requests, Fin.val_inj]

theorem nodup_requests (maskValue : Fin packetHeaderLen → UInt8) : (requests maskValue).Nodup := by
  apply List.Nodup.map Fin.val_injective
  exact (List.nodup_finRange _).filter _

theorem windowOf_val {b : Nat} {e : SearchEntry} (h : IsPlace b e) :
    (windowOf e).val = e.mIndex - 1 := by
  have hpos := h.index_pos
  have hle := h.index_le
  exact Nat.mod_eq_of_lt (by omega)

theorem keySlot_val {b : Nat} {e : SearchEntry} (h : IsPlace b e) :
    (keySlot e).val = 4 * (e.mIndex - 1) + e.mOffsetOff := by
  have hpos := h.index_pos
  have hle := h.index_le
  have hoff := h.off_lt
  exact Nat.mod_eq_of_lt (by simp only [keyvalueLength]; omega)

/-- Two bytes never share a slot: the window stands at one step, and there the slot shows
one byte. -/
theorem Consistent.slot_injective {s : Search} (h : Consistent [] s) {b b' : Nat}
    {e e' : SearchEntry} (he : s.crinfo b = some e) (he' : s.crinfo b' = some e')
    (hslot : keySlot e = keySlot e') : b = b' := by
  have hp := h.place he
  have hp' := h.place he'
  have hval : (keySlot e).val = (keySlot e').val := by rw [hslot]
  rw [keySlot_val hp, keySlot_val hp'] at hval
  have hoff := hp.off_lt
  have hoff' := hp'.off_lt
  have hindex : e.mIndex - 1 = e'.mIndex - 1 := by omega
  have hstep : e.mOffset = e'.mOffset := by
    rw [← h.step he, ← h.step he', hindex]
  have hbyte : e.mOffsetOff = e'.mOffsetOff := by omega
  rw [← hp.shows, ← hp'.shows, hindex, hstep, hbyte]

/-- There are 24 slots: no more than 24 bytes ever find a place. -/
theorem length_le_of_served {rs : List Nat} {s' : Search} (hnd : rs.Nodup)
    (h : Backtrack.Served searchProblem rs Search.empty s') : rs.length ≤ keyvalueLength := by
  obtain ⟨hcons, hsome⟩ := consistent_of_served h (consistent_empty hnd)
  let slot : Nat → Fin keyvalueLength := fun b => ((s'.crinfo b).map keySlot).getD 0
  have hinj : ∀ b ∈ rs, ∀ b' ∈ rs, slot b = slot b' → b = b' := by
    intro b hb b' hb' heq
    obtain ⟨e, he⟩ := Option.isSome_iff_exists.mp ((hsome b).mpr (.inl hb))
    obtain ⟨e', he'⟩ := Option.isSome_iff_exists.mp ((hsome b').mpr (.inl hb'))
    exact hcons.slot_injective he he' (by simpa [slot, he, he'] using heq)
  have hslots : (rs.map slot).Nodup := hnd.map_on hinj
  simpa using hslots.length_le_card

/-- With more positions than `crequestValid` holds there is no place for all of them. -/
theorem clsOffsetCalc_overrun {maskValue : Fin packetHeaderLen → UInt8}
    (hlen : ¬ (requests maskValue).length ≤ keyvalueLength) (stack : List Nat) :
    (clsOffsetCalc (crequestValid maskValue stack) Search.empty).1 = false := by
  have hnd := nodup_requests maskValue
  have hfail := Backtrack.search_append_eq_false reversible_search (consistent_empty hnd)
    (fun s' hserved => hlen (length_le_of_served hnd hserved)) (stack.takeWhile (· != 0))
  rw [crequestValid, if_neg hlen, clsOffsetCalc, hfail]

/-- What an `OK` return has found: all positions fit `crequestValid`, and each of them has
a place. -/
theorem clsOffsetCalc_spec {maskValue : Fin packetHeaderLen → UInt8} {stack : List Nat}
    {s' : Search}
    (h : clsOffsetCalc (crequestValid maskValue stack) Search.empty = (true, s')) :
    Consistent [] s' ∧ ∀ b, (s'.crinfo b).isSome ↔ b ∈ requests maskValue := by
  have hnd := nodup_requests maskValue
  by_cases hlen : (requests maskValue).length ≤ keyvalueLength
  · rw [crequestValid, if_pos hlen] at h
    have hserved := Backtrack.served_of_search reversible_search (consistent_empty hnd) h
    obtain ⟨hcons, hsome⟩ := consistent_of_served hserved (consistent_empty hnd)
    exact ⟨hcons, by simpa [Search.empty] using hsome⟩
  · have hfail := clsOffsetCalc_overrun hlen stack
    rw [h] at hfail
    cases hfail

/-- The bytes on the stack do not change what is made. -/
theorem clsMaskRuleMake2Onu_stack (par : Parameter) (stack stack' : List Nat) :
    clsMaskRuleMake2Onu par stack = clsMaskRuleMake2Onu par stack' := by
  simp only [clsMaskRuleMake2Onu]
  by_cases hlen : (requests (headerValue par.pktUsrMask)).length ≤ keyvalueLength
  · simp only [crequestValid, if_pos hlen]
  · rw [clsOffsetCalc_overrun hlen, clsOffsetCalc_overrun hlen]
    rfl

/-- What the last loop has written: each byte with a place, in its slot, under a window at
the step of the place; nothing in the other slots. -/
theorem written_spec {s : Search} (h : Consistent [] s)
    (maskValue ruleValue : Fin packetHeaderLen → UInt8) (l : List (Fin packetHeaderLen)) :
    let entry := l.foldl (writeByte s.crinfo maskValue ruleValue) (.zero, .zero)
    (∀ i ∈ l, ∀ e, s.crinfo i = some e → entry.1.mask (keySlot e) = maskValue i ∧
        entry.2.rule (keySlot e) = ruleValue i ∧
        entry.1.bfOffset (windowOf e) = e.mOffset) ∧
      ∀ k, (∀ i ∈ l, ∀ e, s.crinfo i = some e → keySlot e ≠ k) →
        entry.1.mask k = 0 ∧ entry.2.rule k = 0 := by
  induction l using List.reverseRecOn with
  | nil => exact ⟨by simp, fun k _ => ⟨rfl, rfl⟩⟩
  | append_singleton l i ih =>
    obtain ⟨hin, hout⟩ := ih
    simp only [List.foldl_append, List.foldl_cons, List.foldl_nil]
    cases hi : s.crinfo i with
    | none =>
      rw [writeByte, hi]
      constructor
      · intro j hj e he
        rcases List.mem_append.mp hj with hj | hj
        · exact hin j hj e he
        · rw [List.mem_singleton.mp hj, hi] at he
          cases he
      · intro k hk
        exact hout k fun j hj => hk j (List.mem_append_left _ hj)
    | some e =>
      rw [writeByte, hi]
      constructor
      · intro j hj e' he'
        have hwindow : windowOf e' = windowOf e →
            e'.mOffset = e.mOffset := by
          intro heq
          have hsame : e'.mIndex - 1 = e.mIndex - 1 := by
            rw [← windowOf_val (h.place he'), ← windowOf_val (h.place hi), heq]
          rw [← h.step he', ← h.step hi, hsame]
        by_cases hslot : keySlot e' = keySlot e
        · obtain rfl : j = i := Fin.val_injective (h.slot_injective he' hi hslot)
          rw [hi] at he'
          obtain rfl : e = e' := by simpa using he'
          simp
        · have hj' : j ∈ l := by
            rcases List.mem_append.mp hj with hj | hj
            · exact hj
            · rw [List.mem_singleton.mp hj, hi] at he'
              obtain rfl : e = e' := by simpa using he'
              exact absurd rfl hslot
          obtain ⟨hmask, hrule, hoffset⟩ := hin j hj' e' he'
          refine ⟨?_, ?_, ?_⟩
          · simpa [Function.update_of_ne hslot] using hmask
          · simpa [Function.update_of_ne hslot] using hrule
          · by_cases hw : windowOf e' = windowOf e
            · simp [hw, hwindow hw]
            · simpa [Function.update_of_ne hw] using hoffset
      · intro k hk
        have hne : k ≠ keySlot e := fun heq => hk i (by simp) e hi heq.symm
        obtain ⟨hmask, hrule⟩ := hout k fun j hj => hk j (List.mem_append_left _ hj)
        exact ⟨by simpa [Function.update_of_ne hne] using hmask,
          by simpa [Function.update_of_ne hne] using hrule⟩

/-! ### Matching -/

/-- The slot of byte `b` of window `w + 1`. -/
def keyByte (w : Fin 6) (b : Fin 4) : Fin keyvalueLength :=
  Fin.ofNat keyvalueLength (4 * w.val + b.val)

/-- The chip compares what the six windows show with the rule, under the mask. -/
def EntryMatches (entry : MaskEntry × RuleEntry) (h : Fin packetHeaderLen → UInt8) : Prop :=
  ∀ w b, h (windowByte w (entry.1.bfOffset w) b) &&& entry.1.mask (keyByte w b) =
    entry.2.rule (keyByte w b)

/-- The flat rule: the header agrees with the value on every masked bit. -/
def HeaderMatches (par : Parameter) (h : Fin packetHeaderLen → UInt8) : Prop :=
  ∀ i, h i &&& headerValue par.pktUsrMask i = headerValue par.pktRuleValue i

/-- Rule bits only where the mask has them. -/
def RuleInMask (par : Parameter) : Prop :=
  ∀ i, headerValue par.pktRuleValue i &&& headerValue par.pktUsrMask i =
    headerValue par.pktRuleValue i

/-- The window, byte and slot of a place. -/
theorem IsPlace.coordinates {b : Nat} {e : SearchEntry} (h : IsPlace b e) :
    ∃ c, keySlot e = keyByte (windowOf e) c ∧ (windowByte (windowOf e) e.mOffset c).val = b := by
  refine ⟨⟨e.mOffsetOff, h.off_lt⟩, ?_, ?_⟩
  · simp only [keySlot, keyByte, windowOf_val h]
  · simpa only [windowByte, windowOf_val h, Fin.val_ofNat] using h.shows

theorem keyByte_injective {w w' : Fin 6} {b b' : Fin 4} (h : keyByte w b = keyByte w' b') :
    w = w' ∧ b = b' := by
  have hval := congrArg Fin.val h
  simp only [keyByte, Fin.val_ofNat, keyvalueLength] at hval
  have hw := w.isLt
  have hw' := w'.isLt
  have hb := b.isLt
  have hb' := b'.isLt
  exact ⟨Fin.ext (by omega), Fin.ext (by omega)⟩

/-- The entries with every masked byte in its place. -/
structure Places (par : Parameter) (entry : MaskEntry × RuleEntry)
    (crinfo : Nat → Option SearchEntry) : Prop where
  some_iff : ∀ i : Fin packetHeaderLen,
    (crinfo i).isSome ↔ headerValue par.pktUsrMask i ≠ 0
  place : ∀ {i : Fin packetHeaderLen} {e}, crinfo i = some e → IsPlace i e
  mask : ∀ {i : Fin packetHeaderLen} {e}, crinfo i = some e →
    entry.1.mask (keySlot e) = headerValue par.pktUsrMask i
  rule : ∀ {i : Fin packetHeaderLen} {e}, crinfo i = some e →
    entry.2.rule (keySlot e) = headerValue par.pktRuleValue i
  offset : ∀ {i : Fin packetHeaderLen} {e}, crinfo i = some e →
    entry.1.bfOffset (windowOf e) = e.mOffset
  blank : ∀ k, (∀ (i : Fin packetHeaderLen) e, crinfo i = some e → keySlot e ≠ k) →
    entry.1.mask k = 0 ∧ entry.2.rule k = 0

theorem places_of_make {par : Parameter} {stack : List Nat} {entry : MaskEntry × RuleEntry}
    (hok : clsMaskRuleMake2Onu par stack = some entry) : ∃ crinfo, Places par entry crinfo := by
  simp only [clsMaskRuleMake2Onu] at hok
  split at hok
  · rename_i hnone
    obtain rfl : (MaskEntry.zero, RuleEntry.zero) = entry := by simpa using hok
    refine ⟨fun _ => none, ?_, by simp, by simp, by simp, by simp, fun _ _ => ⟨rfl, rfl⟩⟩
    intro i
    have hnot : i.val ∉ requests (headerValue par.pktUsrMask) := by
      rw [List.length_eq_zero_iff.mp hnone]
      exact List.not_mem_nil
    rw [mem_requests] at hnot
    simpa using hnot
  · split at hok
    · rename_i hfound
      obtain rfl := Option.some.inj hok
      obtain ⟨hcons, hsome⟩ := clsOffsetCalc_spec (Prod.ext hfound rfl)
      obtain ⟨hin, hout⟩ := written_spec hcons (headerValue par.pktUsrMask)
        (headerValue par.pktRuleValue) (List.finRange packetHeaderLen)
      refine ⟨_, ?_, hcons.place, ?_, ?_, ?_, ?_⟩
      · intro i
        rw [hsome, mem_requests]
      · exact fun he => (hin _ (List.mem_finRange _) _ he).1
      · exact fun he => (hin _ (List.mem_finRange _) _ he).2.1
      · exact fun he => (hin _ (List.mem_finRange _) _ he).2.2
      · exact fun k hk => hout k fun i _ e he => hk i e he
    · cases hok

/-- **The windows match what the rule matches.**  When `clsMaskRuleMake2ONU` returns OK,
its entry matches a header exactly when the header agrees with the rule on every masked
bit. -/
theorem entry_matches_iff (par : Parameter) (stack : List Nat) (entry : MaskEntry × RuleEntry)
    (hin : RuleInMask par) (hok : clsMaskRuleMake2Onu par stack = some entry)
    (h : Fin packetHeaderLen → UInt8) : EntryMatches entry h ↔ HeaderMatches par h := by
  obtain ⟨crinfo, hp⟩ := places_of_make hok
  -- what a window shows of a byte with a place is this byte
  have hshown : ∀ {i : Fin packetHeaderLen} {e}, crinfo i = some e → ∃ c,
      keySlot e = keyByte (windowOf e) c ∧
        windowByte (windowOf e) (entry.1.bfOffset (windowOf e)) c = i := by
    intro i e he
    obtain ⟨c, hslot, hbyte⟩ := (hp.place he).coordinates
    exact ⟨c, hslot, Fin.ext (by rw [hp.offset he, hbyte])⟩
  constructor
  · intro hmatch i
    by_cases hzero : headerValue par.pktUsrMask i = 0
    · have hrule := hin i
      rw [hzero] at hrule ⊢
      simpa using hrule
    · obtain ⟨e, he⟩ := Option.isSome_iff_exists.mp ((hp.some_iff i).mpr hzero)
      obtain ⟨c, hslot, hbyte⟩ := hshown he
      have hcmp := hmatch (windowOf e) c
      rwa [← hslot, hbyte, hp.mask he, hp.rule he] at hcmp
  · intro hmatch w b
    by_cases hused : ∃ (i : Fin packetHeaderLen) (e : SearchEntry),
        crinfo i = some e ∧ keySlot e = keyByte w b
    · obtain ⟨i, e, he, hkey⟩ := hused
      obtain ⟨c, hslot, hbyte⟩ := hshown he
      obtain ⟨hw, hc⟩ := keyByte_injective (hslot.symm.trans hkey)
      rw [← hw, ← hc, hbyte, ← hslot, hp.mask he, hp.rule he]
      exact hmatch i
    · obtain ⟨hmask, hrule⟩ := hp.blank (keyByte w b) fun i e he hkey => hused ⟨i, e, he, hkey⟩
      rw [hmask, hrule]
      exact UInt8.and_zero

/-- A rule on the type field, for ARP. -/
def arpParameter : Parameter where
  pktType := .eiiIp
  egressMask := false
  ingressMask := false
  maskPri := 0
  fieldMap := 0
  ruleEntry := .zero
  pktRuleValue := fun i => if i.val = 16 then 0x08 else if i.val = 17 then 0x06 else 0
  pktUsrMask := fun i => if i.val = 16 ∨ i.val = 17 then 0xFF else 0

/-- The header of an ARP packet to all stations. -/
def arpHeader (i : Fin packetHeaderLen) : UInt8 :=
  if i.val < 6 then 0xFF else if i.val = 16 then 0x08 else if i.val = 17 then 0x06 else 0x5A

theorem arp_entry_matches : ∃ entry, clsMaskRuleMake2Onu arpParameter [] = some entry ∧
    EntryMatches entry arpHeader := by
  have hsome : (clsMaskRuleMake2Onu arpParameter []).isSome = true := by decide
  have hin : RuleInMask arpParameter := by
    show ∀ i, _
    decide
  have hflat : HeaderMatches arpParameter arpHeader := by
    show ∀ i, _
    decide
  obtain ⟨entry, hok⟩ := Option.isSome_iff_exists.mp hsome
  exact ⟨entry, hok, (entry_matches_iff arpParameter [] entry hin hok arpHeader).mpr hflat⟩

end Opconn.Classify
