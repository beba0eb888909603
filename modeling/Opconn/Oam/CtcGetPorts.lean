import Opconn.Oam.CtcGetters
import Opconn.Oam.CtcOperations

/-!
# Which ports a GET answers for

A request with one instance and a list of port attributes.  A getter that loops over the
ports leaves the last of them in the instance of the request, so that with the instance
for all ports the attributes behind it are answered for one port only.  The list is
answered for every port exactly when no attribute but the last is asked through such a
getter, or when there is one port to begin with, and when no read fails.
-/

namespace Opconn.Oam.Ctc.Get

/-! ### One getter -/

def Read.isAnswer : Read → Bool
  | .answer _ _ => true
  | .skip _ | .abort _ => false

/-- The answers in `out_data`. -/
def live (o : Output) : List Answer := if o.usOutDataIdx = 0 then [] else o.answers

/-- The answers that a loop over the ports writes. -/
def answersOf (inst : InstanceTlv) : List (UInt8 × Read) → List Answer
  | [] => []
  | (port, .answer c moved) :: rest =>
    ⟨some ({ inst with value := port }, port), c, moved⟩ :: answersOf inst rest
  | (_, .skip _) :: rest => answersOf inst rest
  | (_, .abort _) :: _ => []

/-- The port that a loop over the ports leaves in the instance. -/
def lastPort (value : UInt8) : List (UInt8 × Read) → UInt8
  | [] => value
  | (port, .answer _ _) :: rest => lastPort port rest
  | (port, .skip _) :: rest => lastPort port rest
  | (port, .abort _) :: _ => port

/-- Where the index is behind a loop over the ports. -/
def indexAfter (idx : Nat) : List (UInt8 × Read) → Nat
  | [] => idx
  | (_, .answer _ moved) :: rest => indexAfter (idx + moved) rest
  | (_, .skip _) :: rest => indexAfter idx rest
  | (_, .abort _) :: _ => idx

/-- What a loop over the ports writes from `idx` on stays in `out_data`. -/
def RoomFor (idx : Nat) : List (UInt8 × Read) → Prop
  | [] => True
  | (_, .answer c moved) :: rest =>
    idx + (oamInstanceTlv20Size + 4 + c.value.length) ≤ outDataSize ∧ RoomFor (idx + moved) rest
  | (_, .skip touched) :: rest => idx + touched ≤ outDataSize ∧ RoomFor idx rest
  | (_, .abort touched) :: _ => idx + touched ≤ outDataSize

instance RoomFor.decidable : (idx : Nat) → (rs : List (UInt8 × Read)) → Decidable (RoomFor idx rs)
  | _, [] => inferInstanceAs (Decidable True)
  | idx, (_, .answer _ moved) :: rest =>
    have := RoomFor.decidable (idx + moved) rest
    inferInstanceAs (Decidable (_ ∧ _))
  | idx, (_, .skip _) :: rest =>
    have := RoomFor.decidable idx rest
    inferInstanceAs (Decidable (_ ∧ _))
  | _, (_, .abort _) :: _ => inferInstanceAs (Decidable (_ ≤ _))

/-- Where the next getter writes. -/
def startIndex (o : Output) : Nat := (outputBuf o).usOutDataIdx

section Loops

variable {o : Output} {rs : List (UInt8 × Read)}

theorem startIndex_pos (o : Output) : 0 < startIndex o := by
  rw [startIndex, outputBuf]
  split
  · exact (by decide : 0 < responseHeaderSize.toNat)
  · next h => exact Nat.pos_of_ne_zero h

theorem startIndex_of_pos (h : 0 < o.usOutDataIdx) : startIndex o = o.usOutDataIdx := by
  rw [startIndex, outputBuf, if_neg (by omega)]

theorem startIndex_of_zero (h : o.usOutDataIdx = 0) :
    startIndex o = responseHeaderSize.toNat := by
  rw [startIndex, outputBuf, if_pos h]

theorem live_of_pos (h : 0 < o.usOutDataIdx) : live o = o.answers := by
  rw [live, if_neg (by omega)]

@[simp] theorem answers_outputBuf (o : Output) : (outputBuf o).answers = live o := by
  rw [outputBuf, live]
  split <;> rfl

@[simp] theorem portInstance_outputBuf (o : Output) :
    (outputBuf o).portInstance = o.portInstance := by
  rw [outputBuf]
  split <;> rfl

@[simp] theorem overrun_outputBuf (o : Output) : (outputBuf o).overrun = o.overrun := by
  rw [outputBuf]
  split <;> rfl

@[simp] theorem sent_outputBuf (o : Output) : (outputBuf o).sent = o.sent := by
  rw [outputBuf]
  split <;> rfl

theorem touch_overrun (o : Output) (n : Nat) :
    (touch o n).overrun = false ↔ o.overrun = false ∧ o.usOutDataIdx + n ≤ outDataSize := by
  simp [touch]

/-- The state in which one port is answered. -/
def atPort (overwrites : Bool) (port : UInt8) (o : Output) : Output :=
  if overwrites then
    { outputBuf o with portInstance := { o.portInstance with value := port } }
  else outputBuf o

theorem eachPort_cons (overwrites : Bool) (port : UInt8) (r : Read) (rest : List (UInt8 × Read))
    (o : Output) : eachPort overwrites ((port, r) :: rest) o =
      match r with
      | .answer c moved => eachPort overwrites rest (write (atPort overwrites port o)
          ⟨some ({ o.portInstance with value := port }, port), c, moved⟩)
      | .skip touched => eachPort overwrites rest (touch (atPort overwrites port o) touched)
      | .abort touched => touch (atPort overwrites port o) touched := by
  cases r <;> simp only [eachPort, portInstance_outputBuf, atPort]

@[simp] theorem index_atPort (b : Bool) (port : UInt8) (o : Output) :
    (atPort b port o).usOutDataIdx = startIndex o := by
  cases b <;> rfl

@[simp] theorem answers_atPort (b : Bool) (port : UInt8) (o : Output) :
    (atPort b port o).answers = live o := by
  cases b <;> simp [atPort]

@[simp] theorem overrun_atPort (b : Bool) (port : UInt8) (o : Output) :
    (atPort b port o).overrun = o.overrun := by
  cases b <;> simp [atPort]

@[simp] theorem sent_atPort (b : Bool) (port : UInt8) (o : Output) :
    (atPort b port o).sent = o.sent := by
  cases b <;> simp [atPort]

theorem portInstance_atPort (b : Bool) (port : UInt8) (o : Output) :
    (atPort b port o).portInstance =
      { o.portInstance with value := if b then port else o.portInstance.value } := by
  cases b <;> simp [atPort]

theorem answersOf_value (inst : InstanceTlv) (value : UInt8) (rs : List (UInt8 × Read)) :
    answersOf { inst with value := value } rs = answersOf inst rs := by
  induction rs with
  | nil => rfl
  | cons x rest ih =>
    obtain ⟨port, r⟩ := x
    cases r <;> simp only [answersOf, ih]

/-- What a loop over the ports does to the globals. -/
structure Looped (b : Bool) (rs : List (UInt8 × Read)) (o o' : Output) : Prop where
  answers : live o' = live o ++ answersOf o.portInstance rs
  instance' : o'.portInstance = { o.portInstance with
    value := if b then lastPort o.portInstance.value rs else o.portInstance.value }
  index : startIndex o' = indexAfter (startIndex o) rs
  room : o'.overrun = false ↔ o.overrun = false ∧ RoomFor (startIndex o) rs
  sent : o'.sent = o.sent

theorem atPort_index_pos (b : Bool) (port : UInt8) (o : Output) :
    0 < (atPort b port o).usOutDataIdx := by
  rw [index_atPort]
  exact startIndex_pos o

theorem startIndex_write (b : Bool) (port : UInt8) (o : Output) (a : Answer) :
    startIndex (write (atPort b port o) a) = startIndex o + a.moved := by
  rw [startIndex_of_pos (Nat.add_pos_left (atPort_index_pos b port o) _), ← index_atPort b port]
  rfl

theorem live_write (b : Bool) (port : UInt8) (o : Output) (a : Answer) :
    live (write (atPort b port o) a) = live o ++ [a] := by
  rw [live_of_pos (Nat.add_pos_left (atPort_index_pos b port o) _), ← answers_atPort b port]
  rfl

theorem startIndex_touch (b : Bool) (port : UInt8) (o : Output) (n : Nat) :
    startIndex (touch (atPort b port o) n) = startIndex o := by
  refine (startIndex_of_pos ?_).trans (index_atPort b port o)
  exact atPort_index_pos b port o

theorem live_touch (b : Bool) (port : UInt8) (o : Output) (n : Nat) :
    live (touch (atPort b port o) n) = live o := by
  refine (live_of_pos ?_).trans (answers_atPort b port o)
  exact atPort_index_pos b port o

theorem eachPort_looped (b : Bool) (rs : List (UInt8 × Read)) (o : Output) :
    Looped b rs o (eachPort b rs o) := by
  induction rs generalizing o with
  | nil =>
    refine ⟨by simp [eachPort, answersOf], ?_, rfl, by simp [eachPort, RoomFor], rfl⟩
    cases b <;> rfl
  | cons x rest ih =>
    obtain ⟨port, r⟩ := x
    rw [eachPort_cons]
    cases r with
    | answer c moved =>
      obtain ⟨hanswers, hinst, hindex, hroom, hsent⟩ := ih (write (atPort b port o)
        ⟨some ({ o.portInstance with value := port }, port), c, moved⟩)
      have hport : (write (atPort b port o) ⟨some ({ o.portInstance with value := port }, port), c,
          moved⟩).portInstance = { o.portInstance with
            value := if b then port else o.portInstance.value } := portInstance_atPort b port o
      rw [startIndex_write] at hindex hroom
      rw [live_write, hport, answersOf_value] at hanswers
      rw [hport] at hinst
      refine ⟨?_, ?_, hindex, ?_, ?_⟩
      · rw [hanswers, List.append_assoc]
        rfl
      · rw [hinst]
        cases b <;> rfl
      · rw [hroom, show (write (atPort b port o) _).overrun =
          (touch (atPort b port o) _).overrun from rfl, touch_overrun, overrun_atPort,
          index_atPort, and_assoc]
        rfl
      · rw [hsent]
        exact sent_atPort b port o
    | skip touched =>
      obtain ⟨hanswers, hinst, hindex, hroom, hsent⟩ := ih (touch (atPort b port o) touched)
      have hport : (touch (atPort b port o) touched).portInstance = { o.portInstance with
          value := if b then port else o.portInstance.value } := portInstance_atPort b port o
      rw [startIndex_touch] at hindex hroom
      rw [live_touch, hport, answersOf_value] at hanswers
      rw [hport] at hinst
      refine ⟨hanswers, ?_, hindex, ?_, ?_⟩
      · rw [hinst]
        cases b <;> rfl
      · rw [hroom, touch_overrun, overrun_atPort, index_atPort, and_assoc]
        rfl
      · rw [hsent]
        exact sent_atPort b port o
    | abort touched =>
      refine ⟨?_, ?_, startIndex_touch b port o touched, ?_, sent_atPort b port o⟩
      · simp only [live_touch, answersOf, List.append_nil]
      · show (atPort b port o).portInstance = _
        rw [portInstance_atPort]
        rfl
      · show (touch (atPort b port o) touched).overrun = false ↔ _
        rw [touch_overrun, overrun_atPort, index_atPort]
        rfl

end Loops

/-! ### Attributes -/

/-- The leaf of an attribute of a port. -/
def PortAttr.leaf : PortAttr → UInt16
  | .linkstate => oamAttrEthLinkstate
  | .portpause => oamAttrEthPortpause
  | .portpolicing => oamAttrEthPortUsPolicing
  | .portdspolicing => oamAttrEthPortDsPolicing
  | .phyadmin => oamAttrPhyAdmin
  | .autonegadmin => oamAttrAutonegAdminState
  | .autoneglocal => oamAttrAutonegLocalAbility
  | .autonegadv => oamAttrAutonegAdvAbility
  | .tagstrip => oamAttrMcastTagStrip
  | .grpNummax => oamAttrMcastGrpNummax
  | .mcastVlan => oamAttrMcastVlan
  | .vlan => oamAttrVlan
  | .classify => oamAttrClamark

section Attributes

variable (onu : Onu20)

def PortAttr.getter : PortAttr → Output → Output
  | .linkstate => eoplGetOnuEthLinkstate20 onu
  | .portpause => eoplGetOnuEthPortpause20 onu
  | .portpolicing => eoplGetOnuEthPortpolicing20 onu
  | .portdspolicing => eoplGetOnuEthPortdspolicing20 onu
  | .phyadmin => eoplGetOnuEthPhyadmin20 onu
  | .autonegadmin => eoplGetOnuEthAutonegadmin20 onu
  | .autoneglocal => eoplGetOnuEthAutoneglocal20 onu
  | .autonegadv => eoplGetOnuEthAutonegadv20 onu
  | .tagstrip => eoplGetOnuMcastTagstrip20 onu
  | .grpNummax => eoplGetOnuGrpNummax20 onu
  | .mcastVlan => eoplGetOnuMcastVlan20 onu
  | .vlan => eoplGetOnuVlan20 onu
  | .classify => eoplGetOnuClassify20 onu

/-- The getter leaves the port it comes to in the instance. -/
def PortAttr.overwrites (a : PortAttr) : Bool := a ≠ .classify

/-- The stores answer for a port. -/
def PortAttr.Readable (port : UInt8) : PortAttr → Prop
  | .linkstate => (onu.device.odmPortLinkStateGet port).isSome
  | .portpause => (onu.device.odmPortFlowCtrolEnableGet port).isSome
  | .portpolicing => (onu.device.odmPortUsPolicingGet port).isSome
  | .portdspolicing => (onu.device.odmPortDsPolicingGet port).isSome
  | .phyadmin => (onu.device.odmPortAdminGet port).isSome
  | .autonegadmin => (onu.device.odmPortAutoEnableGet port).isSome
  | .vlan => ∃ mode, onu.device.odmPortVlanModeGet port = some mode ∧
      (mode.toUInt8 ≠ oamCtcVlanTransparent → ∃ tag, eoplGetTagId20 onu port = some tag ∧
        (mode.toUInt8 = oamCtcVlanTranslate → (eoplGetVttList20 onu port tag).2.isSome))
  | .autoneglocal | .autonegadv | .tagstrip | .grpNummax | .mcastVlan | .classify => True

theorem lookup_getters (a : PortAttr) : (getters onu).lookup a.leaf = some (a.getter onu) := by
  cases a <;> rfl

theorem getter_eq {o : Output} (h : o.portInstance.value ≠ noInstance) (a : PortAttr) :
    a.getter onu o =
      eachPort a.overwrites (a.reads onu (portsOf onu.board o.portInstance.value)) o := by
  cases a <;> first
    | rfl
    | exact if_neg h

/-! ### Reads -/

section Reads

variable {σ : Type} {read : σ → UInt8 → σ × Read}

theorem map_fst_carry (acc : σ) (ports : List UInt8) :
    (carry read acc ports).map Prod.fst = ports := by
  induction ports generalizing acc with
  | nil => rfl
  | cons port ports ih => rw [carry, List.map_cons, ih]

/-- What holds of a read whatever is carried to it. -/
theorem forall_carry (Q : UInt8 → Read → Prop) (h : ∀ acc port, Q port (read acc port).2) (acc : σ)
    (ports : List UInt8) : ∀ x ∈ carry read acc ports, Q x.1 x.2 := by
  induction ports generalizing acc with
  | nil => simp [carry]
  | cons port ports ih =>
    rw [carry, List.forall_mem_cons]
    exact ⟨h acc port, ih _⟩

theorem map_fst_alone (read : UInt8 → Read) (ports : List UInt8) :
    (alone read ports).map Prod.fst = ports := by
  rw [alone, List.map_map]
  exact List.map_id ports

theorem forall_alone {read : UInt8 → Read} (Q : UInt8 → Read → Prop) (h : ∀ port, Q port (read port))
    (ports : List UInt8) : ∀ x ∈ alone read ports, Q x.1 x.2 := by
  simp only [alone, List.forall_mem_map, h, implies_true]

end Reads

theorem map_fst_reads (a : PortAttr) (ports : List UInt8) :
    (a.reads onu ports).map Prod.fst = ports := by
  cases a <;> first
    | exact map_fst_alone ..
    | exact map_fst_carry ..

theorem length_reads (a : PortAttr) (ports : List UInt8) :
    (a.reads onu ports).length = ports.length := by
  rw [← List.length_map Prod.fst, map_fst_reads]

theorem readVlan_isAnswer (number port : UInt8) :
    (readVlan onu number port).2.isAnswer = true ↔ PortAttr.Readable onu port .vlan := by
  simp only [readVlan, PortAttr.Readable]
  cases hmode : onu.device.odmPortVlanModeGet port with
  | none => simp [Read.isAnswer]
  | some mode =>
    by_cases htransparent : mode.toUInt8 = oamCtcVlanTransparent
    · simp [htransparent, Read.isAnswer, portAnswer]
    · cases htag : eoplGetTagId20 onu port with
      | none => simp [htransparent, Read.isAnswer]
      | some tag =>
        by_cases hone : mode.toUInt8 = oamCtcVlanTag
        · have hne : oamCtcVlanTag ≠ oamCtcVlanTranslate := by decide
          have hne' : oamCtcVlanTag ≠ oamCtcVlanTransparent := by decide
          simp [hone, hne, hne', Read.isAnswer, portAnswer]
        · by_cases htwo : mode.toUInt8 = oamCtcVlanTranslate
          · have hne : oamCtcVlanTranslate ≠ oamCtcVlanTransparent := by decide
            have hne' : oamCtcVlanTranslate ≠ oamCtcVlanTag := by decide
            rcases hlist : eoplGetVttList20 onu port tag with ⟨entries, _ | n⟩ <;>
              simp [htwo, hne, hne', hlist, Read.isAnswer, portAnswer]
          · simp [htransparent, hone, htwo, Read.isAnswer, portAnswer]

/-- A port is answered exactly when the stores answer for it. -/
theorem isAnswer_reads (a : PortAttr) (ports : List UInt8) :
    ∀ x ∈ a.reads onu ports, (x.2.isAnswer = true ↔ a.Readable onu x.1) := by
  cases a with
  | vlan =>
    exact forall_carry (fun port r => r.isAnswer = true ↔ PortAttr.Readable onu port .vlan)
      (readVlan_isAnswer onu) _ _
  | classify =>
    exact forall_carry (fun port r => r.isAnswer = true ↔ PortAttr.Readable onu port .classify)
      (fun _ _ => iff_of_true rfl trivial) _ _
  | autoneglocal | autonegadv | tagstrip | grpNummax | mcastVlan =>
    refine forall_alone (fun port r => r.isAnswer = true ↔ PortAttr.Readable onu port _)
      (fun port => ?_) _
    exact iff_of_true rfl trivial
  | linkstate | portpause | phyadmin | autonegadmin =>
    refine forall_alone (fun port r => r.isAnswer = true ↔ PortAttr.Readable onu port _)
      (fun port => ?_) _
    simp only [readLinkstate, readPortpause, readPhyadmin, readAutonegadmin, PortAttr.Readable]
    split <;> simp [*, Read.isAnswer, portAnswer]
  | portpolicing | portdspolicing =>
    refine forall_alone (fun port r => r.isAnswer = true ↔ PortAttr.Readable onu port _)
      (fun port => ?_) _
    simp only [readPortpolicing, readPortdspolicing, PortAttr.Readable]
    split
    · simp [*, Read.isAnswer]
    · split <;> simp [*, Read.isAnswer, portAnswer]

/-- What holds of the reads of an attribute, said of its ports. -/
theorem forall_reads_iff {a : PortAttr} (Q : Read → Prop) (R : UInt8 → Prop) {ports : List UInt8}
    (h : ∀ x ∈ a.reads onu ports, (Q x.2 ↔ R x.1)) :
    (∀ x ∈ a.reads onu ports, Q x.2) ↔ ∀ port ∈ ports, R port := by
  conv_rhs => rw [← map_fst_reads onu a ports, List.forall_mem_map]
  exact forall₂_congr h

/-- The loops come through to every port exactly when the stores answer for every port. -/
theorem forall_isAnswer_iff (a : PortAttr) (ports : List UInt8) :
    (∀ x ∈ a.reads onu ports, x.2.isAnswer = true) ↔ ∀ port ∈ ports, a.Readable onu port :=
  forall_reads_iff onu (·.isAnswer = true) _ (isAnswer_reads onu a ports)

def Read.Names (leaf : UInt16) : Read → Prop
  | .answer c _ => c.leaf = leaf
  | .skip _ | .abort _ => True

/-- A getter answers under the leaf it is asked for. -/
theorem names_reads (a : PortAttr) (ports : List UInt8) :
    ∀ x ∈ a.reads onu ports, x.2.Names a.leaf := by
  cases a with
  | vlan =>
    refine forall_carry (fun _ r => r.Names oamAttrVlan) (fun number port => ?_) _ _
    simp only [readVlan]
    repeat' split
    all_goals trivial
  | classify =>
    refine forall_carry (fun _ r => r.Names oamAttrClamark) (fun numOfRule port => ?_) _ _
    show oamAttrClamark = _
    rfl
  | _ =>
    refine forall_alone (fun _ r => r.Names _) (fun port => ?_) _
    first
      | rfl
      | simp only [readLinkstate, readPortpause, readPhyadmin, readAutonegadmin, readPortpolicing,
          readPortdspolicing]
        repeat' split
        all_goals first | rfl | trivial

end Attributes

/-! ### Answers -/

/-- The port of the instance in front, the port the stores were asked about, and the leaf. -/
def Answer.tag (a : Answer) : Option (UInt8 × UInt8) × UInt16 :=
  (a.port.map fun x => (x.1.value, x.2), a.container.leaf)

theorem length_answersOf_le (inst : InstanceTlv) (rs : List (UInt8 × Read)) :
    (answersOf inst rs).length ≤ rs.length := by
  induction rs with
  | nil => exact Nat.le_refl _
  | cons x rest ih =>
    obtain ⟨port, r⟩ := x
    cases r with
    | answer c moved => exact Nat.succ_le_succ ih
    | skip touched => exact Nat.le_succ_of_le ih
    | abort touched => exact Nat.zero_le _

theorem length_answersOf_eq_iff (inst : InstanceTlv) (rs : List (UInt8 × Read)) :
    (answersOf inst rs).length = rs.length ↔ ∀ x ∈ rs, x.2.isAnswer = true := by
  induction rs with
  | nil => simp [answersOf]
  | cons x rest ih =>
    obtain ⟨port, r⟩ := x
    rw [List.forall_mem_cons, ← ih]
    cases r with
    | answer c moved => simp [answersOf, Read.isAnswer]
    | skip touched =>
      have := length_answersOf_le inst rest
      simp only [answersOf, Read.isAnswer, List.length_cons, Bool.false_eq_true, false_and, iff_false]
      omega
    | abort touched => simp [answersOf, Read.isAnswer]

theorem map_tag_answersOf (inst : InstanceTlv) {leaf : UInt16} {rs : List (UInt8 × Read)}
    (hall : ∀ x ∈ rs, x.2.isAnswer = true) (hnames : ∀ x ∈ rs, x.2.Names leaf) :
    (answersOf inst rs).map Answer.tag =
      (rs.map Prod.fst).map fun port => (some (port, port), leaf) := by
  induction rs with
  | nil => rfl
  | cons x rest ih =>
    obtain ⟨port, r⟩ := x
    rw [List.forall_mem_cons] at hall hnames
    cases r with
    | answer c moved =>
      have hleaf : c.leaf = leaf := hnames.1
      simp only [answersOf, List.map_cons, ih hall.2 hnames.2, Answer.tag, hleaf, Option.map_some]
    | skip touched => cases hall.1
    | abort touched => cases hall.1

theorem lastPort_mem (value : UInt8) {rs : List (UInt8 × Read)} (hne : rs ≠ []) :
    lastPort value rs ∈ rs.map Prod.fst := by
  induction rs generalizing value with
  | nil => exact absurd rfl hne
  | cons x rest ih =>
    obtain ⟨port, r⟩ := x
    by_cases hrest : rest = []
    · subst hrest
      cases r <;> exact List.mem_singleton.mpr rfl
    · cases r with
      | answer c moved => exact List.mem_cons_of_mem _ (ih port hrest)
      | skip touched => exact List.mem_cons_of_mem _ (ih port hrest)
      | abort touched => exact List.mem_cons_self ..

theorem roomFor_append {idx : Nat} {rs : List (UInt8 × Read)} (hall : ∀ x ∈ rs, x.2.isAnswer = true)
    (rest : List (UInt8 × Read)) :
    RoomFor idx (rs ++ rest) ↔ RoomFor idx rs ∧ RoomFor (indexAfter idx rs) rest := by
  induction rs generalizing idx with
  | nil => simp [RoomFor, indexAfter]
  | cons x rs ih =>
    obtain ⟨port, r⟩ := x
    rw [List.forall_mem_cons] at hall
    cases r with
    | answer c moved => simp only [List.cons_append, RoomFor, indexAfter, ih hall.2, and_assoc]
    | skip touched => cases hall.1
    | abort touched => cases hall.1

/-! ### Instances -/

section Instances

variable (onu : Onu20)

theorem portsOf_one {board : Board} {value : UInt8} (h : value ≠ 0xFF) :
    portsOf board value = [value] := if_neg h

theorem portsOf_ne_nil (board : Board) (value : UInt8) : portsOf board value ≠ [] := by
  by_cases h : value = 0xFF
  · subst h
    cases board <;> decide
  · rw [portsOf_one h]
    exact List.cons_ne_nil _ _

/-- The instance behind the getter of an attribute. -/
def instanceAfter (inst : InstanceTlv) (a : PortAttr) : InstanceTlv :=
  { inst with
    value := if a.overwrites then lastPort inst.value (a.reads onu (portsOf onu.board inst.value))
      else inst.value }

theorem instanceAfter_classify (inst : InstanceTlv) : instanceAfter onu inst .classify = inst := rfl

theorem value_instanceAfter_mem (inst : InstanceTlv) {a : PortAttr} (ha : a ≠ .classify) :
    (instanceAfter onu inst a).value ∈ portsOf onu.board inst.value := by
  have hne : a.reads onu (portsOf onu.board inst.value) ≠ [] := by
    intro hnil
    apply portsOf_ne_nil onu.board inst.value
    rw [← map_fst_reads onu a (portsOf onu.board inst.value), hnil, List.map_nil]
  have hmem := lastPort_mem inst.value hne
  rw [map_fst_reads] at hmem
  rw [instanceAfter, PortAttr.overwrites, if_pos (by simpa using ha)]
  exact hmem

theorem instanceAfter_of_one {inst : InstanceTlv} (h : inst.value ≠ 0xFF) (a : PortAttr) :
    instanceAfter onu inst a = inst := by
  by_cases ha : a = .classify
  · rw [ha, instanceAfter_classify]
  · have hmem := value_instanceAfter_mem onu inst ha
    rw [portsOf_one h, List.mem_singleton] at hmem
    calc instanceAfter onu inst a = { inst with value := (instanceAfter onu inst a).value } := rfl
      _ = inst := by rw [hmem]

/-- The ports of an ONU are neither the value for all ports nor the one for no instance. -/
theorem ne_of_mem_portsOf (board : Board) {port : UInt8} (h : port ∈ portsOf board 0xFF) :
    port ≠ 0xFF ∧ port ≠ noInstance := by
  have hports : ∀ port ∈ portsOf board 0xFF, port ≠ 0xFF ∧ port ≠ noInstance := by
    cases board <;> decide +kernel
  exact hports port h

/-- The instance for all ports names one of them behind a getter that overwrites it. -/
theorem instanceAfter_of_all {inst : InstanceTlv} (h : inst.value = 0xFF) {a : PortAttr}
    (ha : a ≠ .classify) : ∃ port ∈ portsOf onu.board 0xFF,
      portsOf onu.board (instanceAfter onu inst a).value = [port] := by
  have hmem := value_instanceAfter_mem onu inst ha
  rw [h] at hmem
  exact ⟨_, hmem, portsOf_one (ne_of_mem_portsOf _ hmem).1⟩

theorem given_instanceAfter {inst : InstanceTlv} (h : inst.value ≠ noInstance) (a : PortAttr) :
    (instanceAfter onu inst a).value ≠ noInstance := by
  by_cases hall : inst.value = 0xFF
  · by_cases ha : a = .classify
    · rw [ha, instanceAfter_classify]
      exact h
    · have hmem := value_instanceAfter_mem onu inst ha
      rw [hall] at hmem
      exact (ne_of_mem_portsOf _ hmem).2
  · rw [instanceAfter_of_one onu hall]
    exact h

theorem length_ports_instanceAfter (inst : InstanceTlv) (a : PortAttr) :
    (portsOf onu.board (instanceAfter onu inst a).value).length ≤
      (portsOf onu.board inst.value).length := by
  by_cases hall : inst.value = 0xFF
  · by_cases ha : a = .classify
    · exact Nat.le_of_eq (by rw [ha, instanceAfter_classify])
    · obtain ⟨port, -, heq⟩ := instanceAfter_of_all onu hall ha
      rw [heq]
      exact List.length_pos_of_ne_nil (portsOf_ne_nil _ _)
  · exact Nat.le_of_eq (by rw [instanceAfter_of_one onu hall])

/-! ### Lists of attributes -/

/-- What a list of attributes is answered with. -/
def answersOfAll : InstanceTlv → List PortAttr → List Answer
  | _, [] => []
  | inst, a :: attrs => answersOf inst (a.reads onu (portsOf onu.board inst.value)) ++
      answersOfAll (instanceAfter onu inst a) attrs

def getAll (attrs : List PortAttr) (o : Output) : Output :=
  attrs.foldl (fun o a => a.getter onu o) o

theorem getter_looped {o : Output} (h : o.portInstance.value ≠ noInstance) (a : PortAttr) :
    Looped a.overwrites (a.reads onu (portsOf onu.board o.portInstance.value)) o
      (a.getter onu o) := by
  rw [getter_eq onu h]
  exact eachPort_looped ..

theorem live_getAll {o : Output} (h : o.portInstance.value ≠ noInstance) (attrs : List PortAttr) :
    live (getAll onu attrs o) = live o ++ answersOfAll onu o.portInstance attrs ∧
      (getAll onu attrs o).sent = o.sent := by
  induction attrs generalizing o with
  | nil => exact ⟨(List.append_nil _).symm, rfl⟩
  | cons a attrs ih =>
    obtain ⟨hanswers, hinst, -, -, hsent⟩ := getter_looped onu h a
    have hinst : (a.getter onu o).portInstance = instanceAfter onu o.portInstance a := hinst
    obtain ⟨hlive, hsent'⟩ := ih (o := a.getter onu o) (by
      rw [hinst]
      exact given_instanceAfter onu h a)
    refine ⟨?_, hsent'.trans hsent⟩
    show live (getAll onu attrs (a.getter onu o)) = _
    rw [hlive, hanswers, hinst, answersOfAll, List.append_assoc]

/-- A getter leaves the ports as they are when the instance names one, when there is one, or
when it does not write into the instance. -/
theorem ports_instanceAfter {inst : InstanceTlv} {a : PortAttr}
    (h : inst.value ≠ 0xFF ∨ onu.board = .onePort ∨ a = .classify) :
    portsOf onu.board (instanceAfter onu inst a).value = portsOf onu.board inst.value := by
  by_cases hall : inst.value = 0xFF
  · by_cases ha : a = .classify
    · rw [ha, instanceAfter_classify]
    · obtain ⟨port, hport, heq⟩ := instanceAfter_of_all onu hall ha
      have hboard : onu.board = .onePort := (h.resolve_left (not_not.mpr hall)).resolve_right ha
      rw [hboard] at hport
      have hone : port = 1 := by simpa [portsOf, Board.oamMaxInstanceId] using hport
      rw [heq, hall, hboard, hone]
      rfl
  · rw [instanceAfter_of_one onu hall]

/-- The attributes behind one that overwrites the instance are asked for the same ports. -/
def Keeps (inst : InstanceTlv) (attrs : List PortAttr) : Prop :=
  inst.value ≠ 0xFF ∨ onu.board = .onePort ∨ ∀ a ∈ attrs.dropLast, a = .classify

theorem keeps_cons_iff {inst : InstanceTlv} {a : PortAttr} {attrs : List PortAttr}
    (hne : attrs ≠ []) : Keeps onu inst (a :: attrs) ↔
      (inst.value ≠ 0xFF ∨ onu.board = .onePort ∨ a = .classify) ∧
        Keeps onu (instanceAfter onu inst a) attrs := by
  rw [Keeps, List.dropLast_cons_of_ne_nil hne, List.forall_mem_cons]
  by_cases hall : inst.value = 0xFF
  · by_cases hboard : onu.board = .onePort
    · simp [Keeps, hboard]
    · by_cases ha : a = .classify
      · rw [ha, instanceAfter_classify]
        simp [Keeps]
      · simp [hall, hboard, ha]
  · rw [instanceAfter_of_one onu hall]
    simp [Keeps, hall]

/-- What the request asks for. -/
def asked (ports : List UInt8) (attrs : List PortAttr) : List (Option (UInt8 × UInt8) × UInt16) :=
  attrs.flatMap fun a => ports.map fun port => (some (port, port), a.leaf)

theorem map_tag_answersOfAll {inst : InstanceTlv} {attrs : List PortAttr}
    (hkeeps : Keeps onu inst attrs)
    (hread : ∀ a ∈ attrs, ∀ port ∈ portsOf onu.board inst.value, a.Readable onu port) :
    (answersOfAll onu inst attrs).map Answer.tag = asked (portsOf onu.board inst.value) attrs := by
  induction attrs generalizing inst with
  | nil => rfl
  | cons a attrs ih =>
    rw [List.forall_mem_cons] at hread
    have hfirst := map_tag_answersOf inst ((forall_isAnswer_iff onu a _).mpr hread.1)
      (names_reads onu a _)
    rw [map_fst_reads] at hfirst
    rw [answersOfAll, List.map_append, hfirst]
    show _ = _ ++ asked _ attrs
    by_cases hne : attrs = []
    · subst hne
      rfl
    · obtain ⟨hone, hrest⟩ := (keeps_cons_iff onu hne).mp hkeeps
      have hports := ports_instanceAfter onu hone
      rw [ih hrest (by rw [hports]; exact hread.2), hports]

theorem length_answersOfAll_le (inst : InstanceTlv) (attrs : List PortAttr) :
    (answersOfAll onu inst attrs).length ≤
      attrs.length * (portsOf onu.board inst.value).length := by
  induction attrs generalizing inst with
  | nil => exact Nat.zero_le _
  | cons a attrs ih =>
    have hfirst := length_answersOf_le inst (a.reads onu (portsOf onu.board inst.value))
    rw [length_reads] at hfirst
    have hrest := Nat.le_trans (ih (instanceAfter onu inst a))
      (Nat.mul_le_mul_left attrs.length (length_ports_instanceAfter onu inst a))
    rw [answersOfAll, List.length_append, List.length_cons, Nat.succ_mul]
    omega

/-- A list that is answered in full was not cut short anywhere. -/
theorem keeps_of_length {inst : InstanceTlv} {attrs : List PortAttr}
    (h : (answersOfAll onu inst attrs).length =
      attrs.length * (portsOf onu.board inst.value).length) :
    Keeps onu inst attrs ∧
      ∀ a ∈ attrs, ∀ port ∈ portsOf onu.board inst.value, a.Readable onu port := by
  induction attrs generalizing inst with
  | nil => exact ⟨.inr (.inr (by simp)), by simp⟩
  | cons a attrs ih =>
    have hfirst := length_answersOf_le inst (a.reads onu (portsOf onu.board inst.value))
    rw [length_reads] at hfirst
    have hrest := length_answersOfAll_le onu (instanceAfter onu inst a) attrs
    have hfewer := length_ports_instanceAfter onu inst a
    have hmul := Nat.mul_le_mul_left attrs.length hfewer
    rw [answersOfAll, List.length_append, List.length_cons, Nat.succ_mul] at h
    have hread : ∀ port ∈ portsOf onu.board inst.value, a.Readable onu port := by
      rw [← forall_isAnswer_iff, ← length_answersOf_eq_iff inst, length_reads]
      omega
    by_cases hne : attrs = []
    · subst hne
      exact ⟨.inr (.inr (by simp)), by simpa using hread⟩
    · have hsame : (portsOf onu.board inst.value).length ≤
          (portsOf onu.board (instanceAfter onu inst a).value).length := by
        apply Nat.le_of_mul_le_mul_left _ (List.length_pos_of_ne_nil hne)
        omega
      -- on the board with four ports only one of them would be left
      have hone : inst.value ≠ 0xFF ∨ onu.board = .onePort ∨ a = .classify := by
        by_contra hnot
        simp only [not_or, not_not] at hnot
        obtain ⟨hall, hboard, ha⟩ := hnot
        obtain ⟨port, -, heq⟩ := instanceAfter_of_all onu hall ha
        have hfour : onu.board = .fourPort := by
          cases hb : onu.board with
          | onePort => exact absurd hb hboard
          | fourPort => rfl
        rw [heq, hall, hfour] at hsame
        exact absurd hsame (by simp [portsOf, Board.oamMaxInstanceId])
      have hports := ports_instanceAfter onu hone
      have hlength : (answersOfAll onu (instanceAfter onu inst a) attrs).length =
          attrs.length * (portsOf onu.board (instanceAfter onu inst a).value).length := by
        rw [hports]
        omega
      obtain ⟨hkeeps, hreads⟩ := ih hlength
      rw [hports] at hreads
      exact ⟨(keeps_cons_iff onu hne).mpr ⟨hone, hkeeps⟩, List.forall_mem_cons.mpr ⟨hread, hreads⟩⟩

/-- Room for a list that is answered in full. -/
theorem overrun_getAll {o : Output} (h : o.portInstance.value ≠ noInstance)
    {attrs : List PortAttr} (hkeeps : Keeps onu o.portInstance attrs)
    (hread : ∀ a ∈ attrs, ∀ port ∈ portsOf onu.board o.portInstance.value, a.Readable onu port) :
    (getAll onu attrs o).overrun = false ↔ o.overrun = false ∧ RoomFor (startIndex o)
      (attrs.flatMap fun a => a.reads onu (portsOf onu.board o.portInstance.value)) := by
  induction attrs generalizing o with
  | nil => simp [getAll, RoomFor]
  | cons a attrs ih =>
    rw [List.forall_mem_cons] at hread
    have hall := (forall_isAnswer_iff onu a _).mpr hread.1
    obtain ⟨-, hinst, hindex, hroom, -⟩ := getter_looped onu h a
    have hinst : (a.getter onu o).portInstance = instanceAfter onu o.portInstance a := hinst
    rw [List.flatMap_cons, roomFor_append hall, ← and_assoc, ← hroom]
    by_cases hne : attrs = []
    · subst hne
      simp [getAll, RoomFor]
    · obtain ⟨hone, hrest⟩ := (keeps_cons_iff onu hne).mp hkeeps
      have hports := ports_instanceAfter onu hone
      have hih := ih (o := a.getter onu o) (by rw [hinst]; exact given_instanceAfter onu h a)
        (by rw [hinst]; exact hrest) (by rw [hinst, hports]; exact hread.2)
      rw [hinst, hports, hindex] at hih
      exact hih

theorem length_asked (ports : List UInt8) (attrs : List PortAttr) :
    (asked ports attrs).length = attrs.length * ports.length := by
  induction attrs with
  | nil => simp [asked]
  | cons a attrs ih =>
    show (_ ++ asked ports attrs).length = _
    rw [List.length_append, ih, List.length_map, List.length_cons, Nat.succ_mul, Nat.add_comm]

end Instances

/-! ### Requests -/

/-- The attributes whose descriptor is followed by an index. -/
def PortAttr.indexed : PortAttr → Bool
  | .mcastVlan | .classify => true
  | _ => false

/-- A port attribute that is asked for, under either branch. -/
structure Descriptor where
  branch : { b : UInt8 // AttribBranch b }
  attr : PortAttr
  index : UInt8 × UInt8

def Descriptor.encode (d : Descriptor) : Buffer :=
  d.branch.val :: bytes16 d.attr.leaf ++ if d.attr.indexed then [d.index.1, d.index.2] else []

/-- One port instance and a list of port attributes. -/
structure PortRequest where
  leaf : UInt8 × UInt8
  width : UInt8
  value : UInt8
  descriptors : List Descriptor

def PortRequest.instanceBytes (r : PortRequest) : Buffer :=
  [oamBranchInstanceV20, r.leaf.1, r.leaf.2, r.width, r.value]

def PortRequest.encode (r : PortRequest) : Buffer :=
  r.instanceBytes ++ (r.descriptors.map Descriptor.encode).flatten

def PortRequest.attrs (r : PortRequest) : List PortAttr := r.descriptors.map Descriptor.attr

section Requests

variable (onu : Onu20)

theorem leaf_descriptor (d : Descriptor) (tail : Buffer) :
    (ptrAt (d.encode ++ tail) 0).leaf = d.attr.leaf :=
  u16_of_bytes d.attr.leaf

theorem item_descriptor (d : Descriptor) (tail : Buffer) :
    item onu.board .getReq20 (ptrAt (d.encode ++ tail) 0) = .handler d.encode.length := by
  rw [item_of_attrib d.branch.property, leafItem, leaf_descriptor]
  obtain ⟨branch, attr, index⟩ := d
  cases attr <;> rfl

theorem getStep_descriptor (front : Buffer) (d : Descriptor) (tail : Buffer)
    (hlen : front.length < oamMaximumPduSize) (o : Output) :
    getStep onu (front ++ (d.encode ++ tail)) ⟨front.length, o⟩ =
      .inl ⟨(front ++ d.encode).length, d.attr.getter onu o⟩ := by
  simp only [getStep, if_neg (Nat.not_le.mpr hlen), ptrAt_append, item_descriptor, Item.outcome,
    roundEffect, leaf_descriptor, lookup_getters, Option.getD_some, List.length_append]

theorem run_descriptors (ds : List Descriptor) (front rest : Buffer) (fuel : Nat)
    (hlen : front.length + ((ds.map Descriptor.encode).flatten).length < oamMaximumPduSize)
    (o : Output) :
    Loop.run (getStep onu (front ++ ((ds.map Descriptor.encode).flatten ++ rest)))
        (fuel + ds.length) ⟨front.length, o⟩ =
      Loop.run (getStep onu (front ++ ((ds.map Descriptor.encode).flatten ++ rest))) fuel
        ⟨front.length + ((ds.map Descriptor.encode).flatten).length,
          getAll onu (ds.map Descriptor.attr) o⟩ := by
  induction ds generalizing front o with
  | nil => rfl
  | cons d ds ih =>
    rw [List.map_cons, List.flatten_cons, List.length_append] at hlen
    have hstep := getStep_descriptor onu front d ((ds.map Descriptor.encode).flatten ++ rest)
      (by omega) o
    have hih := ih (front ++ d.encode) (by rw [List.length_append]; omega) (d.attr.getter onu o)
    rw [List.append_assoc] at hih
    rw [List.map_cons, List.flatten_cons, List.append_assoc, List.length_cons, ← Nat.add_assoc,
      Loop.run_succ_inl hstep, hih, List.length_append, List.length_append, Nat.add_assoc]
    rfl

theorem three_le_encode (d : Descriptor) : 3 ≤ d.encode.length := by
  simp [Descriptor.encode]

theorem length_le_flatten (ds : List Descriptor) :
    ds.length ≤ ((ds.map Descriptor.encode).flatten).length := by
  induction ds with
  | nil => exact Nat.le_refl _
  | cons d ds ih =>
    have := three_le_encode d
    rw [List.map_cons, List.flatten_cons, List.length_append, List.length_cons]
    omega

/-- The instance as the loop keeps it. -/
def PortRequest.instance20 (r : PortRequest) : InstanceTlv := instanceAt (ptrAt r.instanceBytes 0)

/-- The globals behind the instance. -/
def PortRequest.named (r : PortRequest) (o : Output) : Output :=
  { o with portInstance := r.instance20 }

theorem getStep_instance (r : PortRequest) (tail : Buffer) (o : Output)
    (h : instanceRefused onu.board .getReq20 r.value = false) :
    getStep onu (r.instanceBytes ++ tail) ⟨0, o⟩ =
      .inl ⟨r.instanceBytes.length, r.named o⟩ := by
  have hitem : item onu.board .getReq20 (ptrAt (r.instanceBytes ++ tail) 0) = .instance20 false := by
    rw [item_of_instance20 rfl]
    show Item.instance20 (instanceRefused onu.board .getReq20 r.value) = _
    rw [h]
  simp only [getStep, if_neg (show ¬oamMaximumPduSize ≤ 0 by decide), hitem, Item.outcome,
    roundEffect]
  rfl

/-- The request is read to its end and answered with one frame. -/
theorem getReq_portRequest (r : PortRequest) (rest : Buffer) (o : Output)
    (hinst : instanceRefused onu.board .getReq20 r.value = false)
    (hend : item onu.board .getReq20 (ptrAt rest 0) = .stop)
    (hlen : r.encode.length < oamMaximumPduSize) :
    eoplCtcGetReq20 onu (r.encode ++ rest) o = some (.sent,
      sendFrame (getAll onu r.attrs (r.named o))) := by
  have hfew := length_le_flatten r.descriptors
  rw [PortRequest.encode, List.length_append] at hlen
  have hfuel : oamMaximumPduSize + 1 =
      oamMaximumPduSize - r.descriptors.length - 1 + 1 + r.descriptors.length + 1 := by omega
  rw [eoplCtcGetReq20, PortRequest.encode, List.append_assoc, hfuel,
    Loop.run_succ_inl (getStep_instance onu r _ _ hinst),
    run_descriptors onu r.descriptors r.instanceBytes rest _ hlen]
  refine Loop.run_succ_inr ?_ _
  have hpos : ¬oamMaximumPduSize ≤ r.instanceBytes.length +
      ((r.descriptors.map Descriptor.encode).flatten).length := by omega
  have hptr : ptrAt (r.instanceBytes ++ ((r.descriptors.map Descriptor.encode).flatten ++ rest))
      (r.instanceBytes.length + ((r.descriptors.map Descriptor.encode).flatten).length) =
      ptrAt rest 0 := by
    rw [← List.append_assoc, ← List.length_append, ptrAt_append]
  simp only [getStep, if_neg hpos, hptr, hend, Item.outcome, roundEffect]
  rfl

/-! ### The whole request -/

/-- Every attribute is answered for every port of the instance, each under the instance of
its own port, and all of it in `out_data`. -/
structure AnswersEveryPort (r : PortRequest) (f : Frame) : Prop where
  answers : f.answers.map Answer.tag = asked (portsOf onu.board r.value) r.attrs
  room : f.overrun = false

/-- The instance names one port, or there is one, or no attribute but the last overwrites
the instance; the stores answer for every port; and the answers fit. -/
structure EveryPortGuard (r : PortRequest) : Prop where
  keeps : r.value ≠ 0xFF ∨ onu.board = .onePort ∨ ∀ a ∈ r.attrs.dropLast, a = .classify
  read : ∀ a ∈ r.attrs, ∀ port ∈ portsOf onu.board r.value, a.Readable onu port
  room : RoomFor responseHeaderSize.toNat
    (r.attrs.flatMap fun a => a.reads onu (portsOf onu.board r.value))

/-- **Every attribute for every port.**  A GET with one port instance and any list of port
attributes is answered, and for every port exactly under `EveryPortGuard`. -/
theorem every_port_answered_iff (r : PortRequest) (rest : Buffer) (o : Output)
    (hinst : instanceRefused onu.board .getReq20 r.value = false)
    (hend : item onu.board .getReq20 (ptrAt rest 0) = .stop)
    (hlen : r.encode.length < oamMaximumPduSize) (hidx : o.usOutDataIdx = 0)
    (hroom : o.overrun = false) :
    ∃ o' f, eoplCtcGetReq20 onu (r.encode ++ rest) o = some (.sent, o') ∧ o'.sent = o.sent ++ [f] ∧
      (AnswersEveryPort onu r f ↔ EveryPortGuard onu r) := by
  have hreq := getReq_portRequest onu r rest o hinst hend hlen
  have hgiven : r.value ≠ noInstance := by
    intro heq
    rw [heq] at hinst
    cases hb : onu.board <;> rw [hb] at hinst <;> revert hinst <;> decide
  obtain ⟨hlive, hsent⟩ := live_getAll onu (o := r.named o) hgiven r.attrs
  have hnone : live (r.named o) = [] := if_pos hidx
  rw [hnone, List.nil_append] at hlive
  refine ⟨_, _, hreq, congrArg (· ++ _) hsent, ?_⟩
  have hstart : startIndex (r.named o) = responseHeaderSize.toNat := startIndex_of_zero hidx
  have hfits : Keeps onu r.instance20 r.attrs →
      (∀ a ∈ r.attrs, ∀ port ∈ portsOf onu.board r.value, a.Readable onu port) →
      ((getAll onu r.attrs (r.named o)).overrun = false ↔ o.overrun = false ∧
        RoomFor responseHeaderSize.toNat
          (r.attrs.flatMap fun a => a.reads onu (portsOf onu.board r.value))) := by
    intro hkeeps hread
    rw [← hstart]
    exact overrun_getAll onu (o := r.named o) hgiven hkeeps hread
  constructor
  · intro ⟨hanswers, hover⟩
    have hlength : (answersOfAll onu r.instance20 r.attrs).length =
        r.attrs.length * (portsOf onu.board r.instance20.value).length := by
      have htags : (live (getAll onu r.attrs (r.named o))).map Answer.tag =
          asked (portsOf onu.board r.value) r.attrs := hanswers
      have hcount := congrArg List.length htags
      rw [hlive, List.length_map, length_asked] at hcount
      exact hcount
    obtain ⟨hkeeps, hread⟩ := keeps_of_length onu hlength
    exact ⟨hkeeps, hread, ((hfits hkeeps hread).mp hover).2⟩
  · intro ⟨hkeeps, hread, hfit⟩
    refine ⟨?_, (hfits hkeeps hread).mpr ⟨hroom, hfit⟩⟩
    show (live (getAll onu r.attrs (r.named o))).map Answer.tag = _
    rw [hlive]
    exact map_tag_answersOfAll onu hkeeps hread

end Requests

/-- Stores without rules, groups or translations. -/
def plainDevice : Device where
  onuVendor := Vector.replicate 4 0
  onuModel := Vector.replicate 4 0
  srcMac := Vector.replicate 6 0
  onuHwarever := Vector.replicate 8 0
  onuSwarever := Vector.replicate 16 0
  firmVer := Vector.replicate 2 0
  chipVendor := Vector.replicate 2 0
  chipModel := Vector.replicate 2 0
  chipRevision := 0
  chipVersion := Vector.replicate 3 0
  odmPortLinkStateGet := fun _ => some 1
  odmPortFlowCtrolEnableGet := fun _ => some 0
  odmPortUsPolicingGet := fun _ => some (0, 0, 0, 0)
  odmPortDsPolicingGet := fun _ => some (0, 0, 0)
  odmPortAdminGet := fun _ => some 1
  odmPortAutoEnableGet := fun _ => some 1
  odmPonFecEnableGet := some 0
  odmMulticastTagstripGet := fun _ => some 0
  odmMulticastSwitchGet := 0
  odmMulticastGroupMaxNumGet := fun _ => 8
  odmMulticastFastleaveAdminStateGet := 0
  odmMulticastVlanGet := fun _ => some []
  odmMulticastControlTypeGet := 0
  odmMulticastControlEntryGet := []
  odmPortVlanModeGet := fun _ => some 0
  dalVttTpidGet := fun _ => some 0x8100
  odmPortDefaultVlanGet := fun _ => some 1
  odmPortDefaultEtherPriGet := fun _ => some 0
  odmPortNumOfVttGet := fun _ => some 0
  odmPortVttEntryGet := fun _ _ => some none
  odmoamClassRuleGet := fun _ => none

def fourPortOnu : Onu20 := ⟨.fourPort, plainDevice, 0⟩

def extendedAttrib : { b : UInt8 // AttribBranch b } := ⟨oamBranchExtendedAttrib, .inl rfl⟩

/-- The rules and the link state of all ports. -/
def rulesAndLinks : PortRequest :=
  ⟨(0, 1), 1, 0xFF, [⟨extendedAttrib, .classify, (0, 0)⟩, ⟨extendedAttrib, .linkstate, (0, 0)⟩]⟩

def freshOutput : Output := ⟨0, .zero, [], false, []⟩

theorem rules_and_links_answered :
    ∃ o' f, eoplCtcGetReq20 fourPortOnu (rulesAndLinks.encode ++ [0]) freshOutput =
        some (.sent, o') ∧ o'.sent = [f] ∧ AnswersEveryPort fourPortOnu rulesAndLinks f := by
  obtain ⟨o', f, hreq, hsent, hiff⟩ := every_port_answered_iff fourPortOnu rulesAndLinks [0]
    freshOutput (by decide) (by decide) (by decide) rfl rfl
  refine ⟨o', f, hreq, hsent, hiff.mpr ⟨?_, ?_, ?_⟩⟩
  · exact .inr (.inr (by decide))
  · intro a ha port _
    have hattr : a = .classify ∨ a = .linkstate := by
      simpa [rulesAndLinks, PortRequest.attrs] using ha
    rcases hattr with rfl | rfl
    · trivial
    · rfl
  · decide

/-- The link state and the pause of all ports. -/
def linksAndPauses : PortRequest :=
  ⟨(0, 1), 1, 0xFF, [⟨extendedAttrib, .linkstate, (0, 0)⟩, ⟨extendedAttrib, .portpause, (0, 0)⟩]⟩

/-- The link state is answered for four ports, the pause for the last one. -/
theorem pauses_of_one_port :
    ∃ o' f, eoplCtcGetReq20 fourPortOnu (linksAndPauses.encode ++ [0]) freshOutput =
        some (.sent, o') ∧ o'.sent = [f] ∧
      f.answers.map Answer.tag = [(some (1, 1), 0x11), (some (2, 2), 0x11), (some (3, 3), 0x11),
        (some (4, 4), 0x11), (some (4, 4), 0x12)] ∧
      ¬AnswersEveryPort fourPortOnu linksAndPauses f := by
  have hreq := getReq_portRequest fourPortOnu linksAndPauses [0] freshOutput (by decide)
    (by decide) (by decide)
  refine ⟨_, _, hreq, rfl, by decide +kernel, ?_⟩
  intro h
  exact absurd h.answers (by decide +kernel)

end Opconn.Oam.Ctc.Get
