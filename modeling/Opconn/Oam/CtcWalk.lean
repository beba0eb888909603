import Opconn.Lib.Loop
import Opconn.Oam.Discovery

/-!
# Extended GET and SET requests

The embedding of the four dispatch loops of `ctc.c` and `ctc_2_1.c`,
`eopl_ctc_get_req_2_0`, `eopl_ctc_set_req_2_0`, `eopl_ctc_get_req` and
`eopl_ctc_set_req`, with the globals they share: the output index
`g_usOutDataIdx`, the response under construction and the object instances.

The loops differ in what they know, not in what they do, so there is one step
over tables: a leaf's rule says how far the cursor moves behind its handler.
The handlers themselves are a parameter: each appends its containers to the
response, or leaves it alone, and none of them moves the cursor or writes to
`in_data`.
-/

namespace Opconn.Oam.Ctc

/-! ### Branches and leaves of `oam.h` -/

def oamBranchStandardAttrib : UInt8 := 0x07
def oamBranchStandardAction : UInt8 := 0x09
def oamBranchExtendedAttrib : UInt8 := 0xC7
def oamBranchExtendedAction : UInt8 := 0xC9
def oamBranchInstanceV20 : UInt8 := 0x36
def oamBranchInstanceV21 : UInt8 := 0x37

def oamAttrPhyAdmin : UInt16 := 0x0025
def oamAttrAutonegAdminState : UInt16 := 0x004F
def oamAttrAutonegLocalAbility : UInt16 := 0x0052
def oamAttrAutonegAdvAbility : UInt16 := 0x0053
def oamAttrFecAbility : UInt16 := 0x0139
def oamAttrFecMode : UInt16 := 0x013A
def oamAttrOnuSn : UInt16 := 0x0001
def oamAttrOnuFimwarever : UInt16 := 0x0002
def oamAttrChipsetId : UInt16 := 0x0003
def oamAttrOnuCapabilities1 : UInt16 := 0x0004
def oamAttrOpticsDiag : UInt16 := 0x0005
def oamAttrServiceSla : UInt16 := 0x0006
def oamAttrOnuCapabilities2 : UInt16 := 0x0007
def oamAttrHoldoverConfig : UInt16 := 0x0008
def oamAttrMxuMngGlobalPara : UInt16 := 0x0009
def oamAttrMxuMngSnmpPara : UInt16 := 0x000A
def oamAttrActivePonIfAdmin : UInt16 := 0x000B
def oamAttrEthLinkstate : UInt16 := 0x0011
def oamAttrEthPortpause : UInt16 := 0x0012
def oamAttrEthPortUsPolicing : UInt16 := 0x0013
def oamAttrVoipPort : UInt16 := 0x0014
def oamAttrE1Port : UInt16 := 0x0015
def oamAttrEthPortDsPolicing : UInt16 := 0x0016
def oamAttrPortLoopDetect : UInt16 := 0x0017
def oamAttrVlan : UInt16 := 0x0021
def oamAttrClamark : UInt16 := 0x0031
def oamAttrMcastVlan : UInt16 := 0x0041
def oamAttrMcastTagStrip : UInt16 := 0x0042
def oamAttrMcastSwitch : UInt16 := 0x0043
def oamAttrMcastControl : UInt16 := 0x0044
def oamAttrMcastGrpNummax : UInt16 := 0x0045
def oamAttrMcastGfastleaveAbl : UInt16 := 0x0046
def oamAttrMcastGfastleaveAdmin : UInt16 := 0x0047
def oamAttrLlidQueueConfig : UInt16 := 0x0051
def oamAttrIadInfo : UInt16 := 0x0061
def oamAttrGlobalParaConfig : UInt16 := 0x0062
def oamAttrH248ParaConfig : UInt16 := 0x0063
def oamAttrH248UserTidConfig : UInt16 := 0x0064
def oamAttrH248RtpTidConfig : UInt16 := 0x0065
def oamAttrH248RtpTidInfo : UInt16 := 0x0066
def oamAttrSipParaConfig : UInt16 := 0x0067
def oamAttrSipUserParaConfig : UInt16 := 0x0068
def oamAttrFaxModemConfig : UInt16 := 0x0069
def oamAttrIadOperationStatus : UInt16 := 0x006A
def oamAttrPotsStatus : UInt16 := 0x006B
def oamAttrIadOperation : UInt16 := 0x006C
def oamAttrSipDigitMap : UInt16 := 0x006D
def oamAttrAlarmAdminState : UInt16 := 0x0081
def oamAttrAlarmThreshold : UInt16 := 0x0082
def oamAttrTxPowerSupplyCtrl : UInt16 := 0x00A1

def oamActionResetOnu : UInt16 := 0x0001
def oamActionPhyAdminControl : UInt16 := 0x0005
def oamActionAutonegRstAutoconfig : UInt16 := 0x000B
def oamActionAutonegAdminControl : UInt16 := 0x000C
def oamActionFastLeaveAdmin : UInt16 := 0x0048
def oamActionMultiLlidAdmin : UInt16 := 0x0202
def oamActionResetCard : UInt16 := 0x0401

/-! ### Cursor rules -/

/-- What `p_byte[i]` reads. -/
abbrev Ptr := Nat → UInt8

/-- `p_byte = p_src + pos`. -/
def ptrAt (mem : Buffer) (pos : Nat) : Ptr := fun i => byteAt mem (pos + i)

/-- `((oam_variable_descriptor_t *)p_byte)->leaf`. -/
def Ptr.leaf (p : Ptr) : UInt16 := (p 1).toUInt16 * 256 + (p 2).toUInt16

/-- `sizeof(oam_variable_descriptor_t)`. -/
def oamVariableDescriptorSize : Nat := 3

/-- `sizeof(oam_rsp_indication_t)`. -/
def oamRspIndicationSize : Nat := 4

/-- How a case of the dispatch moves the cursor behind its handler. -/
inductive Rule where
  /-- by the size of a structure -/
  | fixed (n : Nat)
  /-- `p_byte += width + 4` -/
  | width
  /-- the switch of 2.1: a fixed size, and the handler only for the two actions it knows -/
  | mcastSwitch
  /-- a list of entries of ten bytes, or none when the width is 1 -/
  | mcastControl
  /-- by the operation code; one it does not know leaves the cursor where it is -/
  | serviceSla
deriving DecidableEq, Repr

def Rule.advance (p : Ptr) : Rule → Nat
  | .fixed n => n
  | .width => (p 3).toNat + 4
  | .mcastSwitch => 5
  | .mcastControl => if p 3 = 1 then 7 - 2 else 7 + 10 * (p 6).toNat
  | .serviceSla => if p 4 = 0 then 5 else if p 4 = 1 then 5 + 7 + 10 * (p 11).toNat else 0

/-- Whether the case calls its handler. -/
def Rule.calls (p : Ptr) : Rule → Bool
  | .mcastSwitch => p 4 == 0 || p 4 == 1
  | _ => true

/-! ### Dispatch tables

One table for each `switch (p_des->leaf)`, in the order of its cases.  The
numbers are the sizes of the packed structures of `oam.h` and `ctc_2_1.h`. -/

/-- The four dispatch loops. -/
inductive Walker where
  | getReq20
  | setReq20
  | getReq
  | setReq
deriving DecidableEq, Repr

def Walker.isV20 : Walker → Bool
  | .getReq20 | .setReq20 => true
  | .getReq | .setReq => false

def Walker.isSet : Walker → Bool
  | .setReq20 | .setReq => true
  | .getReq20 | .getReq => false

/-- The 2.0 loop that a 2.1 loop hands its request over to. -/
def Walker.base : Walker → Walker
  | .getReq20 | .getReq => .getReq20
  | .setReq20 | .setReq => .setReq20

/-- A GET asks for a leaf with its descriptor alone; three leaves carry an index. -/
def descriptor : Rule := .fixed oamVariableDescriptorSize
def indexedDescriptor : Rule := .fixed (2 + oamVariableDescriptorSize)

def getAttribs20 : List (UInt16 × Rule) :=
  [ (oamAttrOnuSn, descriptor),
    (oamAttrOnuFimwarever, descriptor),
    (oamAttrChipsetId, descriptor),
    (oamAttrOnuCapabilities1, descriptor),
    (oamAttrEthLinkstate, descriptor),
    (oamAttrEthPortpause, descriptor),
    (oamAttrEthPortUsPolicing, descriptor),
    (oamAttrEthPortDsPolicing, descriptor),
    (oamAttrPhyAdmin, descriptor),
    (oamAttrAutonegAdminState, descriptor),
    (oamAttrAutonegLocalAbility, descriptor),
    (oamAttrAutonegAdvAbility, descriptor),
    (oamAttrFecAbility, descriptor),
    (oamAttrFecMode, descriptor),
    (oamAttrMcastTagStrip, descriptor),
    (oamAttrMcastSwitch, descriptor),
    (oamAttrMcastGrpNummax, descriptor),
    (oamAttrMcastGfastleaveAbl, descriptor),
    (oamAttrMcastGfastleaveAdmin, descriptor),
    (oamAttrMcastVlan, indexedDescriptor),
    (oamAttrMcastControl, indexedDescriptor),
    (oamAttrVlan, descriptor),
    (oamAttrClamark, indexedDescriptor) ]

def getAttribs : List (UInt16 × Rule) :=
  [ (oamAttrOnuSn, descriptor),
    (oamAttrOnuFimwarever, descriptor),
    (oamAttrChipsetId, descriptor),
    (oamAttrOnuCapabilities1, descriptor),
    (oamAttrOpticsDiag, descriptor),
    (oamAttrServiceSla, descriptor),
    (oamAttrOnuCapabilities2, descriptor),
    (oamAttrHoldoverConfig, descriptor),
    (oamAttrMxuMngGlobalPara, descriptor),
    (oamAttrMxuMngSnmpPara, descriptor),
    (oamAttrActivePonIfAdmin, descriptor),
    (oamAttrEthLinkstate, descriptor),
    (oamAttrEthPortpause, descriptor),
    (oamAttrEthPortUsPolicing, descriptor),
    (oamAttrVoipPort, descriptor),
    (oamAttrE1Port, descriptor),
    (oamAttrEthPortDsPolicing, descriptor),
    (oamAttrVlan, descriptor),
    (oamAttrClamark, indexedDescriptor),
    (oamAttrMcastVlan, indexedDescriptor),
    (oamAttrMcastTagStrip, descriptor),
    (oamAttrMcastSwitch, descriptor),
    (oamAttrMcastControl, indexedDescriptor),
    (oamAttrMcastGrpNummax, descriptor),
    (oamAttrMcastGfastleaveAbl, descriptor),
    (oamAttrMcastGfastleaveAdmin, descriptor),
    (oamAttrLlidQueueConfig, descriptor),
    (oamAttrAlarmAdminState, descriptor),
    (oamAttrAlarmThreshold, descriptor),
    (oamAttrIadInfo, descriptor),
    (oamAttrGlobalParaConfig, descriptor),
    (oamAttrH248ParaConfig, descriptor),
    (oamAttrH248UserTidConfig, descriptor),
    (oamAttrH248RtpTidInfo, descriptor),
    (oamAttrSipParaConfig, descriptor),
    (oamAttrSipUserParaConfig, descriptor),
    (oamAttrFaxModemConfig, descriptor),
    (oamAttrIadOperationStatus, descriptor),
    (oamAttrPotsStatus, descriptor),
    (oamAttrIadOperation, descriptor),
    (oamAttrSipDigitMap, descriptor),
    (oamAttrPhyAdmin, descriptor),
    (oamAttrAutonegAdminState, descriptor),
    (oamAttrAutonegLocalAbility, descriptor),
    (oamAttrAutonegAdvAbility, descriptor),
    (oamAttrFecAbility, descriptor),
    (oamAttrFecMode, descriptor),
    (oamAttrPortLoopDetect, descriptor) ]

def setAttribs20 : List (UInt16 × Rule) :=
  [ (oamAttrEthPortpause, .width),
    (oamAttrEthPortUsPolicing, .width),
    (oamAttrEthPortDsPolicing, .width),
    (oamAttrVlan, .width),
    (oamAttrClamark, .width),
    (oamAttrMcastVlan, .width),
    (oamAttrMcastTagStrip, .fixed 5),
    (oamAttrMcastSwitch, .fixed 5),
    (oamAttrMcastControl, .mcastControl),
    (oamAttrMcastGrpNummax, .fixed 5),
    (oamAttrFecMode, .fixed 8) ]

def setActions20 : List (UInt16 × Rule) :=
  [ (oamActionFastLeaveAdmin, .fixed 8),
    (oamActionPhyAdminControl, .fixed 8),
    (oamActionAutonegRstAutoconfig, .fixed (3 + 5)),
    (oamActionAutonegAdminControl, .fixed 8) ]

def setAttribs : List (UInt16 × Rule) :=
  [ (oamAttrServiceSla, .serviceSla),
    (oamAttrHoldoverConfig, .fixed 12),
    (oamAttrMxuMngGlobalPara, .fixed 21),
    (oamAttrMxuMngSnmpPara, .fixed 109),
    (oamAttrActivePonIfAdmin, .fixed 5),
    (oamAttrEthPortpause, .fixed 5),
    (oamAttrEthPortUsPolicing, .width),
    (oamAttrVoipPort, .fixed 5),
    (oamAttrE1Port, .fixed 5),
    (oamAttrEthPortDsPolicing, .width),
    (oamAttrPortLoopDetect, .fixed 8),
    (oamAttrVlan, .width),
    (oamAttrClamark, .width),
    (oamAttrMcastVlan, .width),
    (oamAttrMcastTagStrip, .fixed 5),
    (oamAttrMcastSwitch, .mcastSwitch),
    (oamAttrMcastControl, .mcastControl),
    (oamAttrMcastGrpNummax, .fixed 5),
    (oamAttrAlarmAdminState, .fixed (4 + 6)),
    (oamAttrAlarmThreshold, .fixed (4 + 10)),
    (oamAttrGlobalParaConfig, .fixed 88),
    (oamAttrH248ParaConfig, .fixed 88),
    (oamAttrH248UserTidConfig, .fixed 20),
    (oamAttrH248RtpTidConfig, .fixed 31),
    (oamAttrSipParaConfig, .fixed 49),
    (oamAttrSipUserParaConfig, .fixed 68),
    (oamAttrFaxModemConfig, .fixed 6),
    (oamAttrSipDigitMap, .fixed 1028),
    (oamAttrLlidQueueConfig, .fixed 5),
    (oamAttrFecMode, .fixed 8),
    (oamAttrTxPowerSupplyCtrl, .fixed 18) ]

def setActions : List (UInt16 × Rule) :=
  [ (oamActionFastLeaveAdmin, .fixed 8),
    (oamAttrIadOperation, .fixed 8),
    (oamAttrSipDigitMap, .fixed 1028),
    (oamActionMultiLlidAdmin, .fixed 8),
    (oamActionResetCard, .fixed 3),
    (oamActionPhyAdminControl, .fixed 8),
    (oamActionAutonegRstAutoconfig, .fixed (3 + 5)),
    (oamActionAutonegAdminControl, .fixed 8) ]

def Walker.attribs : Walker → List (UInt16 × Rule)
  | .getReq20 => getAttribs20
  | .setReq20 => setAttribs20
  | .getReq => getAttribs
  | .setReq => setAttribs

def Walker.actions : Walker → List (UInt16 × Rule)
  | .setReq20 => setActions20
  | .setReq => setActions
  | .getReq20 | .getReq => []

/-- The `default` of a dispatch: a SET skips the four bytes up to the value, the 2.0
GET these and a descriptor, the 2.1 GET the descriptor. -/
def Walker.unknownAdvance : Walker → Nat
  | .getReq20 => oamRspIndicationSize + oamVariableDescriptorSize
  | .getReq => oamVariableDescriptorSize
  | .setReq20 | .setReq => oamRspIndicationSize

/-! ### Items -/

/-- The boards of `oam.h`, told apart by `OAM_MAX_INSTANCE_ID`. -/
inductive Board where
  | fourPort
  | onePort
deriving DecidableEq, Repr

def Board.oamMaxInstanceId : Board → UInt8
  | .fourPort => 0x04
  | .onePort => 0x01

/-- The instances a 2.0 loop returns at.  GET lets two more through than SET. -/
def instanceRefused (board : Board) (w : Walker) (value : UInt8) : Bool :=
  board.oamMaxInstanceId < value && value != 0xFF &&
    (w.isSet || value != 0x50 && value != 0x51)

/-- `OAM_BRANCH_EXTENDED_ATTRIB` or `OAM_BRANCH_STANDARD_ATTRIB`. -/
def AttribBranch (branch : UInt8) : Prop :=
  branch = oamBranchExtendedAttrib ∨ branch = oamBranchStandardAttrib

/-- `OAM_BRANCH_STANDARD_ACTION` or `OAM_BRANCH_EXTENDED_ACTION`. -/
def ActionBranch (branch : UInt8) : Prop :=
  branch = oamBranchStandardAction ∨ branch = oamBranchExtendedAction

instance : DecidablePred AttribBranch := fun _ => inferInstanceAs (Decidable (_ ∨ _))
instance : DecidablePred ActionBranch := fun _ => inferInstanceAs (Decidable (_ ∨ _))

/-- What one round of a loop finds at the cursor. -/
inductive Item where
  | instance20 (refused : Bool)
  | instance21
  /-- a known leaf: its handler is called and the cursor moves -/
  | handler (n : Nat)
  /-- a known leaf whose handler is not called for this value -/
  | ignored (n : Nat)
  /-- an unknown leaf: `eopl_not_support_response` -/
  | unsupported (n : Nat)
  | reset
  | handover
  | stop
deriving DecidableEq, Repr

/-- `switch (p_des->leaf)` over one table. -/
def leafItem (table : List (UInt16 × Rule)) (unknown : Nat) (p : Ptr) : Item :=
  match table.lookup p.leaf with
  | some rule => if rule.calls p then .handler (rule.advance p) else .ignored (rule.advance p)
  | none => .unsupported unknown

def actionItem (w : Walker) (p : Ptr) : Item :=
  if p.leaf = oamActionResetOnu then .reset else leafItem w.actions w.unknownAdvance p

/-- `switch (*p_byte)`.  Action branches are unknown to GET, and the instance of 2.1 to
the 2.0 loops: there these bytes end the walk like any other. -/
def item (board : Board) (w : Walker) (p : Ptr) : Item :=
  if p 0 = oamBranchInstanceV20 then
    if w.isV20 then .instance20 (instanceRefused board w (p 4)) else .handover
  else if p 0 = oamBranchInstanceV21 then
    if w.isV20 then .stop else .instance21
  else if AttribBranch (p 0) then
    leafItem w.attribs w.unknownAdvance p
  else if ActionBranch (p 0) ∧ w.isSet then
    actionItem w p
  else .stop

/-- How a loop is left. -/
inductive Exit where
  /-- a byte that is no branch: the response is sent -/
  | sent
  /-- `break` at `OAM_MAXIMUM_PDU_SIZE` -/
  | sizeLimit
  | badInstance
  | reset
  /-- a 2.1 loop calls the 2.0 loop and returns -/
  | handover
deriving DecidableEq, Repr

/-- `sizeof(oam_instance_tlv_t_2_0)` and `sizeof(oam_instance_tlv_t)`. -/
def oamInstanceTlv20Size : Nat := 5
def oamInstanceTlvSize : Nat := 8

/-- How far the round moves the cursor, or how it leaves the loop. -/
def Item.outcome : Item → Nat ⊕ Exit
  | .instance20 false => .inl oamInstanceTlv20Size
  | .instance20 true => .inr .badInstance
  | .instance21 => .inl oamInstanceTlvSize
  | .handler n => .inl n
  | .ignored n => .inl n
  | .unsupported n => .inl n
  | .reset => .inr .reset
  | .handover => .inr .handover
  | .stop => .inr .sent

/-! ### Globals -/

/-- A call out of a loop: a handler, `eopl_not_support_response` or `odmSysReset`.
It decodes at `offset` behind `p_src`, for the instance its version keeps. -/
structure Call where
  request : Nat
  walker : Walker
  offset : Nat
  branch : UInt8
  leaf : UInt16
  supported : Bool
  portInstance : List UInt8
deriving DecidableEq, Repr

/-- A frame handed to `OamFrameSend`: the request it answers, its length, and the calls
whose containers it carries. -/
structure Response where
  request : Nat
  length : UInt16
  containers : List Call
deriving DecidableEq, Repr

/-- The globals of the loops.  `outData` names the calls whose containers stand in
`out_data` below `usOutDataIdx`; `request` numbers the requests, and `calls` and `sent`
record what left the module. -/
structure Globals where
  usOutDataIdx : UInt16
  outData : List Call
  portInstance20 : UInt8
  portInstance : List UInt8
  request : Nat
  calls : List Call
  sent : List Response
deriving DecidableEq, Repr

/-- The board, and what the handlers do to the response: given the calls so far, the
last of them the one to answer, the number of bytes appended, if any. -/
structure Onu where
  board : Board
  respond : List Call → Option UInt16

/-- `sizeof(oampdu_hdr_t) + sizeof(ctc_header_t)`. -/
def responseHeaderSize : UInt16 := 22

/-- The frame of every handler: with the index at 0 it starts a response behind a fresh
header, else it appends. -/
def appendContainers (g : Globals) (c : Call) (size : UInt16) : Globals :=
  if g.usOutDataIdx = 0 then
    { g with usOutDataIdx := responseHeaderSize + size, outData := [c] }
  else { g with usOutDataIdx := g.usOutDataIdx + size, outData := g.outData ++ [c] }

def logCall (g : Globals) (c : Call) : Globals := { g with calls := g.calls ++ [c] }

def callHandler (onu : Onu) (g : Globals) (c : Call) : Globals :=
  match onu.respond (g.calls ++ [c]) with
  | some size => appendContainers (logCall g c) c size
  | none => logCall g c

/-- The indication and four more bytes. -/
def eoplNotSupportResponse (g : Globals) (c : Call) : Globals :=
  appendContainers (logCall g c) c 8

/-- The end of a walk: pad, `OamFrameSend`, and forget the index and the instance. -/
def sendResponse (w : Walker) (g : Globals) : Globals :=
  let length := if g.usOutDataIdx < 60 then 60 else g.usOutDataIdx
  let containers := if g.usOutDataIdx = 0 then [] else g.outData
  { g with
    sent := g.sent ++ [⟨g.request, length, containers⟩]
    usOutDataIdx := 0
    portInstance20 := if w.isV20 then 0 else g.portInstance20
    portInstance := if w.isV20 then g.portInstance else [0, 0, 0, 0] }

def callAt (w : Walker) (p : Ptr) (offset : Nat) (supported : Bool) (g : Globals) : Call where
  request := g.request
  walker := w
  offset := offset
  branch := p 0
  leaf := p.leaf
  supported := supported
  portInstance := if w.isV20 then [g.portInstance20] else g.portInstance

/-- What one round does to the globals. -/
def Item.effect (onu : Onu) (w : Walker) (p : Ptr) (offset : Nat) (g : Globals) : Item → Globals
  | .instance20 _ => { g with portInstance20 := p 4 }
  | .instance21 => { g with portInstance := [p 4, p 5, p 6, p 7] }
  | .handler _ => callHandler onu g (callAt w p offset true g)
  | .ignored _ => g
  | .unsupported _ => eoplNotSupportResponse g (callAt w p offset false g)
  | .reset => logCall g (callAt w p offset true g)
  | .handover => g
  | .stop => sendResponse w g

/-! ### The loops -/

/-- The state of a loop: `p_byte - p_src` and the globals. -/
structure Walk where
  pByte : Nat
  globals : Globals
deriving DecidableEq, Repr

/-- One round of `while (1)` over the memory behind `p_src`. -/
def walkStep (onu : Onu) (w : Walker) (mem : Buffer) (s : Walk) : Walk ⊕ (Exit × Globals) :=
  if oamMaximumPduSize ≤ s.pByte then .inr (.sizeLimit, s.globals)
  else
    let p := ptrAt mem s.pByte
    let here := item onu.board w p
    let globals := here.effect onu w p s.pByte s.globals
    match here.outcome with
    | .inl n => .inl ⟨s.pByte + n, globals⟩
    | .inr e => .inr (e, globals)

/-- What a loop does before the first round: the 2.0 loops set the instance to a magic
invalid value. -/
def enter (w : Walker) (g : Globals) : Globals :=
  if w.isV20 then { g with portInstance20 := 200 } else g

/-- One loop, run to its exit; `none` when it never leaves (`walk_eq_none_iff`). -/
def walk (onu : Onu) (w : Walker) (mem : Buffer) (g : Globals) : Option (Exit × Globals) :=
  Loop.run (walkStep onu w mem) (oamMaximumPduSize + 1) ⟨0, enter w g⟩

/-- A request function: its loop, and behind a 2.1 loop that hands over, the 2.0 loop
from `p_src` again. -/
def ctcReq (onu : Onu) (w : Walker) (mem : Buffer) (g : Globals) : Option (Exit × Globals) :=
  match walk onu w mem g with
  | some (.handover, g') => walk onu w.base mem g'
  | r => r

def eoplCtcGetReq20 (onu : Onu) (mem : Buffer) (g : Globals) : Option (Exit × Globals) :=
  ctcReq onu .getReq20 mem g

def eoplCtcSetReq20 (onu : Onu) (mem : Buffer) (g : Globals) : Option (Exit × Globals) :=
  ctcReq onu .setReq20 mem g

def eoplCtcGetReq (onu : Onu) (mem : Buffer) (g : Globals) : Option (Exit × Globals) :=
  ctcReq onu .getReq mem g

def eoplCtcSetReq (onu : Onu) (mem : Buffer) (g : Globals) : Option (Exit × Globals) :=
  ctcReq onu .setReq mem g

/-! ### Requests -/

/-- `enum` of `ext_code`, the two requests. -/
def oamExtCodeGetRequest : UInt8 := 0x01
def oamExtCodeSetRequest : UInt8 := 0x03

/-- `sizeof(ctc_header_t)`: the OUI and `ext_code`. -/
def ctcHeaderSize : Nat := 4

/-- Where the TLVs start in `in_data`. -/
def payloadOffset : Nat := pduOffset + oampduHdrSize + ctcHeaderSize

def extCode (inData : Buffer) : UInt8 := byteAt inData (pduOffset + oampduHdrSize + 3)

/-- The memory behind `p_src`, as the request functions are called. -/
def payload (inData : Buffer) : Buffer := inData.drop payloadOffset

/-- The loop of the 2.0 or the 2.1 module that a PDU is given to; the other codes of
`ext_code` are not requests. -/
def requestWalker (v20 : Bool) (inData : Buffer) : Option Walker :=
  if extCode inData = oamExtCodeGetRequest then some (if v20 then .getReq20 else .getReq)
  else if extCode inData = oamExtCodeSetRequest then some (if v20 then .setReq20 else .setReq)
  else none

/-- `eopl_ctc_pdu_process_2_0` and `eopl_ctc_pdu_process`; `none` when it never returns. -/
def eoplCtcPduProcess (onu : Onu) (v20 : Bool) (inData : Buffer) (g : Globals) :
    Option Globals :=
  match requestWalker v20 inData with
  | some .getReq20 => (eoplCtcGetReq20 onu (payload inData) g).map Prod.snd
  | some .setReq20 => (eoplCtcSetReq20 onu (payload inData) g).map Prod.snd
  | some .getReq => (eoplCtcGetReq onu (payload inData) g).map Prod.snd
  | some .setReq => (eoplCtcSetReq onu (payload inData) g).map Prod.snd
  | none => some g

/-- A received frame, and whether the negotiated version is 2.0. -/
structure Pdu where
  v20 : Bool
  frame : Buffer
deriving DecidableEq, Repr

/-- The receive buffer and the globals. -/
structure CtcState where
  inData : Buffer
  globals : Globals
deriving DecidableEq, Repr

/-- The number of the request to come. -/
def nextRequest (g : Globals) : Globals := { g with request := g.request + 1 }

/-- One PDU through `eopl_oam_pdu_receive` to its request function.  A task that hangs in
a loop takes no further PDU. -/
def ctcReceive (onu : Onu) (s : Option CtcState) (pdu : Pdu) : Option CtcState :=
  match s with
  | none => none
  | some s =>
    if pduAdmitted pdu.frame then
      let inData := memCpyFront s.inData pdu.frame
      (eoplCtcPduProcess onu pdu.v20 inData (nextRequest s.globals)).map fun g => ⟨inData, g⟩
    else some s

theorem ctcReq_cases {onu : Onu} {w : Walker} {mem : Buffer} {g g' : Globals} {e : Exit}
    (h : ctcReq onu w mem g = some (e, g')) :
    (∃ g₁, walk onu w mem g = some (.handover, g₁) ∧ walk onu w.base mem g₁ = some (e, g')) ∨
      (walk onu w mem g = some (e, g') ∧ e ≠ .handover) := by
  simp only [ctcReq] at h
  split at h
  · rename_i g₁ hw
    exact .inl ⟨g₁, hw, h⟩
  · rename_i hnot
    refine .inr ⟨h, ?_⟩
    rintro rfl
    exact hnot g' h

theorem eoplCtcPduProcess_eq (onu : Onu) (v20 : Bool) (inData : Buffer) (g : Globals)
    {w : Walker} (h : requestWalker v20 inData = some w) :
    eoplCtcPduProcess onu v20 inData g = (ctcReq onu w (payload inData) g).map Prod.snd := by
  cases w <;> simp only [eoplCtcPduProcess, h] <;> rfl

end Opconn.Oam.Ctc
