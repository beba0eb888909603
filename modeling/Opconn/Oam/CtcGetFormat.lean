import Mathlib.Algebra.GroupWithZero.Nat
import Opconn.Oam.CtcGetPorts

/-!
# When the response to a GET is a list of TLVs

The widths and counts that the getters of 2.0 write are computed apart from the values, in
eight bits, some of them are carried from port to port, and nothing compares the index with
the end of `out_data`.  What is sent is well formed exactly when every round of the loop
finds the stores such that its getter writes what it announces, and room for it.
-/

namespace Opconn.Oam.Ctc.Get

/-! ### Well-formed responses -/

/-- The width is the number of value bytes, every count that of its entries, and the next
container starts behind the value.  The instance in front has one byte. -/
structure Answer.WellFormed (a : Answer) : Prop where
  width : a.container.width.toNat = a.container.value.length
  counts : ∀ c ∈ a.container.counts, c.1 = c.2
  inst : ∀ x, a.port = some x → x.1.width = 1
  moved : a.moved = a.span

/-- Every container is well formed, and all of it lies in `out_data`. -/
structure Frame.WellFormed (f : Frame) : Prop where
  answers : ∀ a ∈ f.answers, a.WellFormed
  room : f.overrun = false
  length : f.length ≤ outDataSize

/-- So far the response is well formed. -/
structure Sound (o : Output) : Prop where
  answers : ∀ a ∈ live o, a.WellFormed
  room : o.overrun = false
  index : startIndex o ≤ outDataSize

section Sound

variable {o : Output}

theorem startIndex_instance (o : Output) (inst : InstanceTlv) :
    startIndex { o with portInstance := inst } = startIndex o := by
  rcases Nat.eq_zero_or_pos o.usOutDataIdx with hzero | hpos
  · rw [startIndex_of_zero hzero]
    exact startIndex_of_zero hzero
  · rw [startIndex_of_pos hpos]
    exact startIndex_of_pos hpos

/-- The instance of the request is no part of the response. -/
theorem sound_instance (o : Output) (inst : InstanceTlv) :
    Sound { o with portInstance := inst } ↔ Sound o := by
  constructor
  · intro h
    exact ⟨h.answers, h.room, startIndex_instance o inst ▸ h.index⟩
  · intro h
    exact ⟨h.answers, h.room, (startIndex_instance o inst).symm ▸ h.index⟩

/-- A frame is well formed when what it is made of is. -/
theorem sendFrame_wellFormed (o : Output) :
    ∃ f, (sendFrame o).sent = o.sent ++ [f] ∧ (f.WellFormed ↔ Sound o) := by
  refine ⟨_, rfl, ?_⟩
  constructor
  · intro h
    refine ⟨h.answers, h.room, ?_⟩
    rcases Nat.eq_zero_or_pos o.usOutDataIdx with hzero | hpos
    · rw [startIndex_of_zero hzero]
      decide
    · rw [startIndex_of_pos hpos]
      exact Nat.le_trans (Nat.le_max_left _ _) h.length
  · intro h
    refine ⟨h.answers, h.room, Nat.max_le.mpr ⟨?_, by decide⟩⟩
    rcases Nat.eq_zero_or_pos o.usOutDataIdx with hzero | hpos
    · rw [hzero]
      exact Nat.zero_le _
    · rw [← startIndex_of_pos hpos]
      exact h.index

theorem sound_write (o : Output) (a : Answer) : Sound (write (outputBuf o) a) ↔
    Sound o ∧ a.WellFormed ∧ startIndex o + a.span ≤ outDataSize := by
  have hlive : live (write (outputBuf o) a) = live o ++ [a] := live_write false 0 o a
  have hindex : startIndex (write (outputBuf o) a) = startIndex o + a.moved :=
    startIndex_write false 0 o a
  have hroom : (write (outputBuf o) a).overrun = false ↔
      o.overrun = false ∧ startIndex o + a.span ≤ outDataSize := by
    show (touch (outputBuf o) a.span).overrun = false ↔ _
    rw [touch_overrun, overrun_outputBuf]
    rfl
  constructor
  · intro h
    have hanswers := h.answers
    rw [hlive, List.forall_mem_append, List.forall_mem_singleton] at hanswers
    obtain ⟨hover, hspan⟩ := hroom.mp h.room
    exact ⟨⟨hanswers.1, hover, by omega⟩, hanswers.2, hspan⟩
  · intro ⟨h, ha, hspan⟩
    refine ⟨?_, hroom.mpr ⟨h.room, hspan⟩, ?_⟩
    · rw [hlive, List.forall_mem_append, List.forall_mem_singleton]
      exact ⟨h.answers, ha⟩
    · rw [hindex, ha.moved]
      exact hspan

theorem sound_touch (o : Output) (n : Nat) : Sound (touch (outputBuf o) n) ↔
    Sound o ∧ startIndex o + n ≤ outDataSize := by
  have hlive : live (touch (outputBuf o) n) = live o := live_touch false 0 o n
  have hindex : startIndex (touch (outputBuf o) n) = startIndex o := startIndex_touch false 0 o n
  have hroom : (touch (outputBuf o) n).overrun = false ↔
      o.overrun = false ∧ startIndex o + n ≤ outDataSize := by
    rw [touch_overrun, overrun_outputBuf]
    rfl
  constructor
  · intro h
    obtain ⟨hover, hspan⟩ := hroom.mp h.room
    exact ⟨⟨hlive ▸ h.answers, hover, by omega⟩, hspan⟩
  · intro ⟨h, hspan⟩
    exact ⟨hlive ▸ h.answers, hroom.mpr ⟨h.room, hspan⟩, hindex ▸ h.index⟩

theorem le_indexAfter (idx : Nat) (rs : List (UInt8 × Read)) : idx ≤ indexAfter idx rs := by
  induction rs generalizing idx with
  | nil => exact Nat.le_refl _
  | cons x rest ih =>
    obtain ⟨port, r⟩ := x
    cases r with
    | answer c moved => exact Nat.le_trans (Nat.le_add_right _ _) (ih (idx + moved))
    | skip touched => exact ih idx
    | abort touched => exact Nat.le_refl _

/-- Well-formed answers move the index over what there was room for. -/
theorem indexAfter_le {idx : Nat} {inst : InstanceTlv} {rs : List (UInt8 × Read)}
    (hidx : idx ≤ outDataSize) (hgood : ∀ a ∈ answersOf inst rs, a.WellFormed)
    (hroom : RoomFor idx rs) : indexAfter idx rs ≤ outDataSize := by
  induction rs generalizing idx with
  | nil => exact hidx
  | cons x rest ih =>
    obtain ⟨port, r⟩ := x
    cases r with
    | answer c moved =>
      rw [answersOf, List.forall_mem_cons] at hgood
      have hmoved : moved = oamInstanceTlv20Size + 4 + c.value.length := hgood.1.moved
      apply ih _ hgood.2 hroom.2
      rw [hmoved]
      exact hroom.1
    | skip touched => exact ih hidx hgood hroom.2
    | abort touched => exact hidx

theorem sound_looped {b : Bool} {rs : List (UInt8 × Read)} {o' : Output} (h : Looped b rs o o') :
    Sound o' ↔ Sound o ∧ (∀ a ∈ answersOf o.portInstance rs, a.WellFormed) ∧
      RoomFor (startIndex o) rs := by
  constructor
  · intro hs
    have hanswers := hs.answers
    rw [h.answers, List.forall_mem_append] at hanswers
    obtain ⟨hover, hroom⟩ := h.room.mp hs.room
    have hindex := hs.index
    rw [h.index] at hindex
    exact ⟨⟨hanswers.1, hover, Nat.le_trans (le_indexAfter _ rs) hindex⟩, hanswers.2, hroom⟩
  · intro ⟨hs, hgood, hroom⟩
    refine ⟨?_, h.room.mpr ⟨hs.room, hroom⟩, ?_⟩
    · rw [h.answers, List.forall_mem_append]
      exact ⟨hs.answers, hgood⟩
    · rw [h.index]
      exact indexAfter_le hs.index hgood hroom

end Sound

/-! ### Reads -/

/-- The container that comes of a read is well formed. -/
def Read.Fits : Read → Prop
  | .answer c moved => c.width.toNat = c.value.length ∧ (∀ n ∈ c.counts, n.1 = n.2) ∧
      moved = c.value.length + 9
  | .skip _ | .abort _ => True

theorem fits_portAnswer (c : Container) : (portAnswer c).Fits ↔
    c.width.toNat = c.value.length ∧ ∀ n ∈ c.counts, n.1 = n.2 := by
  constructor
  · intro h
    exact ⟨h.1, h.2.1⟩
  · intro h
    exact ⟨h.1, h.2, by rw [h.1]⟩

def Read.isAbort : Read → Bool
  | .abort _ => true
  | .answer _ _ | .skip _ => false

def Read.isSkip : Read → Bool
  | .skip _ => true
  | .answer _ _ | .abort _ => false

/-- What a loop over the ports comes to. -/
def reached : List (UInt8 × Read) → List (UInt8 × Read)
  | [] => []
  | x :: rest => if x.2.isAbort then [] else x :: reached rest

theorem reached_of_forall {rs : List (UInt8 × Read)} (h : ∀ x ∈ rs, x.2.isAbort = false) :
    reached rs = rs := by
  induction rs with
  | nil => rfl
  | cons x rest ih =>
    rw [List.forall_mem_cons] at h
    simp [reached, h.1, ih h.2]

theorem forall_reached_cons (P : Read → Prop) (port : UInt8) (c : Container)
    (rest : List (UInt8 × Read)) : (∀ x ∈ reached ((port, portAnswer c) :: rest), P x.2) ↔
      P (portAnswer c) ∧ ∀ x ∈ reached rest, P x.2 := by
  simp only [reached, portAnswer, Read.isAbort, Bool.false_eq_true, if_false, List.forall_mem_cons]

theorem wellFormed_portAnswer (inst : InstanceTlv) (port : UInt8) (c : Container) (moved : Nat) :
    (Answer.mk (some (inst, port)) c moved).WellFormed ↔
      (Read.answer c moved).Fits ∧ inst.width = 1 := by
  have hspan : (Answer.mk (some (inst, port)) c moved).span = c.value.length + 9 := by
    simp only [Answer.span, Option.isSome_some, if_true, oamInstanceTlv20Size]
    omega
  constructor
  · intro h
    exact ⟨⟨h.width, h.counts, h.moved.trans hspan⟩, h.inst _ rfl⟩
  · rintro ⟨⟨hwidth, hcounts, hmoved⟩, hone⟩
    refine ⟨hwidth, hcounts, ?_, hmoved.trans hspan.symm⟩
    intro x hx
    cases hx
    exact hone

/-- The answers of a loop are well formed when the reads that it comes to are, and the
instance has one byte if there is any answer. -/
theorem wellFormed_answersOf (inst : InstanceTlv) (rs : List (UInt8 × Read)) :
    (∀ a ∈ answersOf inst rs, a.WellFormed) ↔
      (∀ x ∈ reached rs, x.2.Fits) ∧ (answersOf inst rs ≠ [] → inst.width = 1) := by
  induction rs with
  | nil => simp [answersOf, reached]
  | cons x rest ih =>
    obtain ⟨port, r⟩ := x
    cases r with
    | answer c moved =>
      simp only [answersOf, reached, Read.isAbort, List.forall_mem_cons, ih,
        wellFormed_portAnswer, Bool.false_eq_true, if_false]
      tauto
    | skip touched =>
      simpa [answersOf, reached, Read.isAbort, Read.Fits] using ih
    | abort touched => simp [answersOf, reached, Read.isAbort]

/-- A loop that goes on behind a failing read answers nothing when every read fails. -/
theorem answersOf_eq_nil_of_skips (inst : InstanceTlv) {rs : List (UInt8 × Read)}
    (h : ∀ x ∈ rs, x.2.isAbort = false) :
    answersOf inst rs = [] ↔ ∀ x ∈ rs, ¬x.2.isAnswer = true := by
  induction rs with
  | nil => simp [answersOf]
  | cons x rest ih =>
    obtain ⟨port, r⟩ := x
    rw [List.forall_mem_cons] at h
    rw [List.forall_mem_cons]
    cases r with
    | answer c moved => simp [answersOf, Read.isAnswer]
    | skip touched => simpa [answersOf, Read.isAnswer] using ih h.2
    | abort touched => cases h.1

/-- A loop that returns at a failing read answers nothing when the first one fails. -/
theorem answersOf_eq_nil_of_aborts (inst : InstanceTlv) {rs : List (UInt8 × Read)}
    (h : ∀ x ∈ rs, x.2.isSkip = false) :
    answersOf inst rs = [] ↔ ∀ x ∈ rs.head?, ¬x.2.isAnswer = true := by
  cases rs with
  | nil => simp [answersOf]
  | cons x rest =>
    obtain ⟨port, r⟩ := x
    cases r with
    | answer c moved => simp [answersOf, Read.isAnswer]
    | skip touched => cases h _ (List.mem_cons_self ..)
    | abort touched => simp [answersOf, Read.isAnswer]

/-! ### Translations -/

section Stores

variable (onu : Onu20)

/-- The translations of a port from slot `i` on. -/
def validEntries (port : UInt8) (i left : Nat) : List (UInt32 × UInt32) :=
  (List.range' i left).filterMap fun i => (onu.device.odmPortVttEntryGet port i).join

/-- The translations among the first `n` that do not map the tag of the port to itself. -/
def listedEntries (port : UInt8) (tag : UInt32) (n i left : Nat) : List (UInt32 × UInt32) :=
  ((validEntries onu port i left).take n).filter fun e => ¬(tag = e.1 ∧ e.1 = e.2)

theorem listedEntries_zero (port : UInt8) (tag : UInt32) (i left : Nat) :
    listedEntries onu port tag 0 i left = [] := by
  simp [listedEntries]

/-- What the loop of `eopl_get_vtt_list_2_0` writes when it gets through. -/
theorem vttEntries_eq {port : UInt8} {tag : UInt32} {number left i valid : Nat}
    (hvalid : valid ≤ number) (h : (vttEntries onu port tag number left i valid).2 = true) :
    (vttEntries onu port tag number left i valid).1 =
      listedEntries onu port tag (number - valid) i left := by
  induction left generalizing i valid with
  | zero => simp [vttEntries, listedEntries, validEntries]
  | succ left ih =>
    rw [vttEntries] at h ⊢
    by_cases hall : valid = number
    · rw [if_pos hall, hall, Nat.sub_self, listedEntries_zero]
    · rw [if_neg hall] at h ⊢
      have hmore : number - valid = number - (valid + 1) + 1 := by omega
      cases hentry : onu.device.odmPortVttEntryGet port i with
      | none => simp [hentry] at h
      | some entry =>
        cases entry with
        | none =>
          simp only [hentry] at h ⊢
          rw [ih hvalid h]
          simp [listedEntries, validEntries, List.range'_succ, hentry]
        | some e =>
          obtain ⟨ovlan, nvlan⟩ := e
          simp only [hentry] at h ⊢
          by_cases hself : tag = ovlan ∧ ovlan = nvlan
          · rw [if_pos hself] at h ⊢
            rw [ih (by omega) h, hmore]
            simp [listedEntries, validEntries, List.range'_succ, hentry, hself]
          · rw [if_neg hself] at h ⊢
            rw [ih (by omega) h, hmore]
            simp only [listedEntries, validEntries, List.range'_succ, hentry,
              List.filterMap_cons, Option.join_some, List.take_succ_cons]
            exact (List.filter_cons_of_pos (by exact decide_eq_true hself)).symm

theorem length_listedEntries_le (port : UInt8) (tag : UInt32) (n i left : Nat) :
    (listedEntries onu port tag n i left).length ≤ left := by
  calc (listedEntries onu port tag n i left).length
      ≤ ((validEntries onu port i left).take n).length := List.length_filter_le ..
    _ ≤ (validEntries onu port i left).length := List.length_take_le' ..
    _ ≤ (List.range' i left).length := List.length_filterMap_le ..
    _ = left := List.length_range'

/-- The entries behind a number that the store answers. -/
theorem eoplGetVttList20_eq {port : UInt8} {tag : UInt32} {n : UInt8}
    (h : (eoplGetVttList20 onu port tag).2 = some n) :
    (eoplGetVttList20 onu port tag).1 =
      listedEntries onu port tag n.toNat 0 (odmNumOfVtt onu.board) := by
  rw [eoplGetVttList20] at h ⊢
  cases hnumber : onu.device.odmPortNumOfVttGet port with
  | none => simp [hnumber] at h
  | some number =>
    simp only [hnumber, Option.ite_none_right_eq_some, Option.some.injEq] at h ⊢
    obtain ⟨hthrough, rfl⟩ := h
    exact vttEntries_eq onu (Nat.zero_le _) hthrough

theorem fits_vlanContainer (mode : UInt8) (tag : UInt32) (number : UInt8)
    {entries : List (UInt32 × UInt32)} (hfew : entries.length < 32) :
    (portAnswer (vlanContainer mode tag number entries)).Fits ↔
      number.toNat % 32 = entries.length := by
  have hwidth : (5 + number * 8).toNat = (5 + number.toNat * 8) % 256 := by simp
  have hvalue : (vlanContainer mode tag number entries).value.length = 5 + 8 * entries.length := by
    have hentries : (entries.flatMap fun e => bytes32 e.1 ++ bytes32 e.2).length =
        8 * entries.length := by
      induction entries with
      | nil => rfl
      | cons e entries ih =>
        simp only [List.flatMap_cons, List.length_append, length_bytes32, List.length_cons]
        rw [ih (by rw [List.length_cons] at hfew; omega)]
        omega
    simp only [vlanContainer, extended, List.cons_append, List.length_cons, List.length_append,
      length_bytes32, hentries]
    omega
  rw [fits_portAnswer, hvalue]
  simp only [vlanContainer, extended, hwidth, List.not_mem_nil, false_implies, implies_true,
    and_true]
  omega

theorem fits_vlanContainer_nil (mode : UInt8) (tag : UInt32) (number : UInt8) :
    (portAnswer (vlanContainer mode tag number [])).Fits ↔ number.toNat % 32 = 0 :=
  fits_vlanContainer mode tag number  (by decide)

/-- What the stores hold for the ports of `eopl_get_onu_vlan_2_0` up to one that fails: where a
port translates, as many translations as are listed; in a mode without a case, no number left
by the ports before. -/
def VlanShape : UInt8 → List UInt8 → Prop
  | _, [] => True
  | number, port :: ports =>
    match onu.device.odmPortVlanModeGet port with
    | none => True
    | some mode =>
      if mode.toUInt8 = oamCtcVlanTransparent then VlanShape number ports
      else
        match eoplGetTagId20 onu port with
        | none => True
        | some tag =>
          if mode.toUInt8 = oamCtcVlanTag then VlanShape 0 ports
          else if mode.toUInt8 = oamCtcVlanTranslate then
            match (eoplGetVttList20 onu port tag).2 with
            | none => True
            | some n => n.toNat % 32 =
                (listedEntries onu port tag n.toNat 0 (odmNumOfVtt onu.board)).length ∧
              VlanShape n ports
          else number.toNat % 32 = 0 ∧ VlanShape number ports

theorem fits_readVlan (number : UInt8) (ports : List UInt8) :
    (∀ x ∈ reached (carry (readVlan onu) number ports), x.2.Fits) ↔ VlanShape onu number ports := by
  induction ports generalizing number with
  | nil => simp [carry, reached, VlanShape]
  | cons port ports ih =>
    simp only [carry, VlanShape]
    rw [readVlan]
    cases hmode : onu.device.odmPortVlanModeGet port with
    | none => simp [reached, Read.isAbort]
    | some mode =>
      by_cases htransparent : mode.toUInt8 = oamCtcVlanTransparent
      · simp only [if_pos htransparent, forall_reached_cons, ih, fits_portAnswer]
        simp [extended]
      · simp only [if_neg htransparent]
        cases htag : eoplGetTagId20 onu port with
        | none => simp [reached, Read.isAbort]
        | some tag =>
          by_cases hone : mode.toUInt8 = oamCtcVlanTag
          · simp only [if_pos hone, forall_reached_cons, ih, fits_vlanContainer_nil]
            simp
          · simp only [if_neg hone]
            by_cases htwo : mode.toUInt8 = oamCtcVlanTranslate
            · simp only [if_pos htwo]
              cases hlist : (eoplGetVttList20 onu port tag).2 with
              | none =>
                rw [show eoplGetVttList20 onu port tag = (_, none) from Prod.ext rfl hlist]
                simp [reached, Read.isAbort]
              | some n =>
                have hentries := eoplGetVttList20_eq onu hlist
                have hfew := length_listedEntries_le onu port tag n.toNat 0 (odmNumOfVtt onu.board)
                have hslots : odmNumOfVtt onu.board < 32 := by cases onu.board <;> decide
                rw [show eoplGetVttList20 onu port tag =
                  (listedEntries onu port tag n.toNat 0 (odmNumOfVtt onu.board), some n) from
                    Prod.ext hentries hlist]
                simp only [forall_reached_cons, ih,
                  fits_vlanContainer _ _ _ (Nat.lt_of_le_of_lt hfew hslots)]
            · simp only [if_neg htwo, forall_reached_cons, ih, fits_vlanContainer_nil]

/-! ### Rules -/

theorem length_classRules_le : (classRules onu).length ≤ 8 :=
  Nat.le_trans (List.length_filterMap_le ..) (by simp)

theorem length_fieldBodies_le (rule : ClsRule) : (fieldBodies rule).length ≤ 12 :=
  Nat.le_trans (List.length_filterMap_le ..) (by simp [ClsFieldType.all])

theorem length_flatten_fieldBodies (rule : ClsRule) :
    (fieldBodies rule).flatten.length = 8 * (fieldBodies rule).length := by
  have height : ∀ b ∈ fieldBodies rule, b.length = 8 := by
    intro b hb
    simp only [fieldBodies, List.mem_filterMap, Option.map_eq_some_iff] at hb
    obtain ⟨x, -, f, -, rfl⟩ := hb
    rfl
  generalize fieldBodies rule = bodies at height
  induction bodies with
  | nil => rfl
  | cons b bodies ih =>
    rw [List.forall_mem_cons] at height
    rw [List.flatten_cons, List.length_append, ih height.2, height.1, List.length_cons]
    omega

/-- The bytes of the rules. -/
def rulesSize (rules : List (UInt8 × ClsRule)) : Nat :=
  (rules.map fun r => 5 + 8 * (fieldBodies r.2).length).sum

theorem length_flatMap_ruleBytes (rules : List (UInt8 × ClsRule)) :
    (rules.flatMap fun r => ruleBytes r.1 r.2).length = rulesSize rules := by
  rw [List.length_flatMap, rulesSize]
  congr 1
  refine List.map_congr_left fun r _ => ?_
  rw [ruleBytes, List.length_append, length_flatten_fieldBodies]
  rfl

theorem toNat_lenOfRule (rule : ClsRule) :
    (lenOfRule rule + 2).toNat = 5 + 8 * (fieldBodies rule).length := by
  have := length_fieldBodies_le rule
  simp only [lenOfRule, UInt8.toNat_add, UInt8.toNat_mul, UInt8.toNat_ofNat']
  simp
  omega

/-- The width is the size in eight bits. -/
theorem toNat_foldl_width (rules : List (UInt8 × ClsRule)) (width : UInt8) :
    (rules.foldl (fun width r => width + (lenOfRule r.2 + 2)) width).toNat =
      (width.toNat + rulesSize rules) % 256 := by
  induction rules generalizing width with
  | nil => simp [rulesSize]
  | cons r rules ih =>
    rw [List.foldl_cons, ih, UInt8.toNat_add, toNat_lenOfRule]
    simp only [rulesSize, List.map_cons, List.sum_cons]
    omega

theorem fits_readClassify (numOfRule port : UInt8) :
    (readClassify onu numOfRule port).2.Fits ↔
      2 + rulesSize (classRules onu) ≤ 255 ∧ numOfRule = 0 := by
  have hfew := length_classRules_le onu
  have hfields : ∀ rules : List (UInt8 × ClsRule), ∀ n ∈ rules.map fun r =>
      ((UInt8.ofNat (fieldBodies r.2).length).toNat, (fieldBodies r.2).length), n.1 = n.2 := by
    intro rules n hn
    obtain ⟨r, -, rfl⟩ := List.mem_map.mp hn
    have := length_fieldBodies_le r.2
    simp
    omega
  have hcount : (numOfRule + UInt8.ofNat (classRules onu).length).toNat = (classRules onu).length ↔
      numOfRule = 0 := by
    rw [← UInt8.toNat_inj, UInt8.toNat_add, UInt8.toNat_ofNat', UInt8.toNat_zero]
    have := numOfRule.toNat_lt
    omega
  rw [readClassify, fits_portAnswer]
  simp only [List.forall_mem_cons, toNat_foldl_width, List.length_append,
    length_flatMap_ruleBytes, hcount]
  have htwo : (2 : UInt8).toNat = 2 := rfl
  rw [htwo]
  simp only [List.length_cons, List.length_nil]
  constructor
  · rintro ⟨hwidth, hzero, -⟩
    exact ⟨by omega, hzero⟩
  · intro ⟨hsize, hzero⟩
    exact ⟨by omega, hzero, hfields _⟩

/-- What the stores hold for `eopl_get_onu_classify_2_0`: the rules fit into the width, and
where there are any there is one port, since `numOfRule` is not set back. -/
structure ClassifyShape (ports : List UInt8) : Prop where
  size : 2 + rulesSize (classRules onu) ≤ 255
  once : ports.length ≤ 1 ∨ classRules onu = []

theorem fits_carry_readClassify {ports : List UInt8} (hne : ports ≠ []) :
    (∀ x ∈ carry (readClassify onu) 0 ports, x.2.Fits) ↔ ClassifyShape onu ports := by
  have hnone : classRules onu = [] → ∀ ports, ∀ x ∈ carry (readClassify onu) 0 ports, x.2.Fits := by
    intro hrules ports
    induction ports with
    | nil => simp [carry]
    | cons port ports ih =>
      rw [carry, List.forall_mem_cons, fits_readClassify]
      refine ⟨⟨by rw [hrules]; decide, rfl⟩, ?_⟩
      have hacc : (readClassify onu 0 port).1 = 0 := by simp [readClassify, hrules]
      rw [hacc]
      exact ih
  rcases ports with _ | ⟨port, _ | ⟨second, rest⟩⟩
  · exact absurd rfl hne
  · simp only [carry, List.forall_mem_singleton, fits_readClassify]
    exact ⟨fun h => ⟨h.1, .inl (Nat.le_refl 1)⟩, fun h => ⟨h.size, trivial⟩⟩
  · constructor
    · intro h
      rw [carry, carry, List.forall_mem_cons, List.forall_mem_cons, fits_readClassify,
        fits_readClassify] at h
      obtain ⟨⟨hsize, -⟩, ⟨-, hacc⟩, -⟩ := h
      refine ⟨hsize, .inr ?_⟩
      have hfew := length_classRules_le onu
      have hzero : (0 + UInt8.ofNat (classRules onu).length).toNat = 0 := by
        rw [show 0 + UInt8.ofNat (classRules onu).length = (readClassify onu 0 port).1 from rfl, hacc]
        rfl
      simp at hzero
      exact List.eq_nil_of_length_eq_zero (by omega)
    · intro h
      exact hnone (h.once.resolve_left (by simp)) _

/-! ### Attributes of a port -/

/-- What the stores hold for an attribute, such that its getter announces what it writes. -/
def PortAttr.Shape (ports : List UInt8) : PortAttr → Prop
  | .phyadmin => ∀ port ∈ ports, ∀ state, onu.device.odmPortAdminGet port = some state →
      state = 0 ∨ state = 1
  | .autonegadmin => ∀ port ∈ ports, ∀ state, onu.device.odmPortAutoEnableGet port = some state →
      state = 0 ∨ state = 1
  | .autonegadv => onu.board = .fourPort
  | .tagstrip => ∀ port ∈ ports, (onu.device.odmMulticastTagstripGet port).isSome
  | .mcastVlan => ∀ port ∈ ports, ∀ vids, onu.device.odmMulticastVlanGet port = some vids →
      vids.length ≤ 127
  | .vlan => VlanShape onu onu.number ports
  | .classify => ClassifyShape onu ports
  | .linkstate | .portpause | .portpolicing | .portdspolicing | .autoneglocal | .grpNummax => True

theorem fits_adminValue (leaf : UInt16) (state : UInt32) :
    (portAnswer (standard leaf 4 (adminValue state))).Fits ↔ state = 0 ∨ state = 1 := by
  rw [fits_portAnswer]
  by_cases hzero : state = 0
  · simp [standard, adminValue, hzero]
  · by_cases hone : state = 1 <;> simp [standard, adminValue, hzero, hone]

theorem fits_abilityContainer (leaf : UInt16) (ability : UInt32 × List UInt32) :
    (portAnswer (abilityContainer leaf ability)).Fits ↔
      (4 + ability.1.toUInt8 * 4).toNat = 4 + 4 * ability.2.length ∧
        ability.1.toNat = ability.2.length := by
  have hvalue : (ability.2.flatMap bytes32).length = 4 * ability.2.length := by
    rw [List.length_flatMap]
    simp [Nat.mul_comm]
  rw [fits_portAnswer]
  simp only [abilityContainer, listed, standard, List.length_append, length_bytes32, hvalue,
    List.forall_mem_singleton]

theorem fits_readMcastVlan (port : UInt8) : (readMcastVlan onu port).Fits ↔
    ∀ vids, onu.device.odmMulticastVlanGet port = some vids → vids.length ≤ 127 := by
  have hiff : ∀ vids : List UInt16, (portAnswer (extended oamAttrMcastVlan
      (1 + 2 * UInt8.ofNat vids.length) (0x03 :: vids.flatMap bytes16))).Fits ↔
        vids.length ≤ 127 := by
    intro vids
    have hvalue : (vids.flatMap bytes16).length = 2 * vids.length := by
      rw [List.length_flatMap]
      simp [Nat.mul_comm]
    have hwidth : (1 + 2 * UInt8.ofNat vids.length).toNat = (1 + 2 * vids.length) % 256 := by
      simp
    rw [fits_portAnswer]
    simp only [extended, List.length_cons, hvalue, hwidth, List.not_mem_nil, false_implies,
      implies_true, and_true]
    omega
  rw [readMcastVlan]
  cases onu.device.odmMulticastVlanGet port with
  | none => exact iff_of_true ((hiff []).mpr (Nat.zero_le _)) (by simp)
  | some vids => simp [hiff]

theorem mem_of_mem_reached {rs : List (UInt8 × Read)} {x : UInt8 × Read} (h : x ∈ reached rs) :
    x ∈ rs := by
  induction rs with
  | nil => exact h
  | cons y rest ih =>
    rw [reached] at h
    split at h
    · cases h
    · rcases List.mem_cons.mp h with rfl | h
      · exact List.mem_cons_self ..
      · exact List.mem_cons_of_mem _ (ih h)

/-- The getters that return at a failing read. -/
def PortAttr.returns : PortAttr → Bool
  | .portpause | .vlan => true
  | _ => false

theorem isAbort_reads {a : PortAttr} (ha : a.returns = false) (ports : List UInt8) :
    ∀ x ∈ a.reads onu ports, x.2.isAbort = false := by
  cases a with
  | portpause | vlan => cases ha
  | classify => exact forall_carry (fun _ r => r.isAbort = false) (fun _ _ => rfl) _ _
  | _ =>
    refine forall_alone (fun _ r => r.isAbort = false) (fun port => ?_) _
    first
      | rfl
      | simp only [readLinkstate, readPhyadmin, readAutonegadmin, readPortpolicing,
          readPortdspolicing]
        repeat' split
        all_goals rfl

theorem isSkip_reads {a : PortAttr} (ha : a.returns = true) (ports : List UInt8) :
    ∀ x ∈ a.reads onu ports, x.2.isSkip = false := by
  cases a with
  | portpause =>
    refine forall_alone (fun _ r => r.isSkip = false) (fun port => ?_) _
    rw [readPortpause]
    split <;> rfl
  | vlan =>
    refine forall_carry (fun _ r => r.isSkip = false) (fun number port => ?_) _ _
    rw [readVlan]
    repeat' split
    all_goals rfl
  | _ => cases ha

/-- These getters announce what they write whatever the stores hold. -/
theorem fits_reads_fixed {a : PortAttr}
    (ha : a ∈ [PortAttr.linkstate, .portpause, .portpolicing, .portdspolicing, .autoneglocal,
      .grpNummax]) (ports : List UInt8) : ∀ x ∈ a.reads onu ports, x.2.Fits := by
  cases a with
  | linkstate | portpause | portpolicing | portdspolicing | grpNummax =>
    refine forall_alone (fun _ r => r.Fits) (fun port => ?_) ports
    simp only [readLinkstate, readPortpause, readPortpolicing, readPortdspolicing, readGrpNummax]
    repeat' split
    all_goals first
      | trivial
      | simp [fits_portAnswer, extended]
  | autoneglocal =>
    refine forall_alone (fun _ r => r.Fits) (fun port => ?_) ports
    rw [readAutoneglocal, fits_abilityContainer]
    cases onu.board <;> decide
  | _ => simp at ha

theorem forall_alone_iff {read : UInt8 → Read} (Q : Read → Prop) (R : UInt8 → Prop)
    (h : ∀ port, Q (read port) ↔ R port) (ports : List UInt8) :
    (∀ x ∈ alone read ports, Q x.2) ↔ ∀ port ∈ ports, R port := by
  simp only [alone, List.forall_mem_map, h]

/-- A getter announces what it writes exactly where the stores have the shape for it. -/
theorem fits_reads {ports : List UInt8} (hne : ports ≠ []) (a : PortAttr) :
    (∀ x ∈ reached (a.reads onu ports), x.2.Fits) ↔ a.Shape onu ports := by
  cases a with
  | vlan => exact fits_readVlan onu onu.number ports
  | linkstate | portpause | portpolicing | portdspolicing | autoneglocal | grpNummax =>
    refine iff_of_true (fun x hx => ?_) trivial
    exact fits_reads_fixed onu (by simp) ports x (mem_of_mem_reached hx)
  | classify =>
    rw [reached_of_forall (isAbort_reads onu rfl ports)]
    exact fits_carry_readClassify onu hne
  | phyadmin =>
    rw [reached_of_forall (isAbort_reads onu rfl ports)]
    refine forall_alone_iff (·.Fits) _ (fun port => ?_) ports
    rw [readPhyadmin]
    cases onu.device.odmPortAdminGet port with
    | none => simp [Read.Fits]
    | some state => simp [fits_adminValue]
  | autonegadmin =>
    rw [reached_of_forall (isAbort_reads onu rfl ports)]
    refine forall_alone_iff (·.Fits) _ (fun port => ?_) ports
    rw [readAutonegadmin]
    cases onu.device.odmPortAutoEnableGet port with
    | none => simp [Read.Fits]
    | some state => simp [fits_adminValue]
  | tagstrip =>
    rw [reached_of_forall (isAbort_reads onu rfl ports)]
    refine forall_alone_iff (·.Fits) _ (fun port => ?_) ports
    rw [readTagstrip, fits_portAnswer]
    cases onu.device.odmMulticastTagstripGet port <;> simp [extended]
  | mcastVlan =>
    rw [reached_of_forall (isAbort_reads onu rfl ports)]
    exact forall_alone_iff (·.Fits) _ (fits_readMcastVlan onu) ports
  | autonegadv =>
    rw [reached_of_forall (isAbort_reads onu rfl ports)]
    have hboard : ∀ port, (readAutonegadv onu port).Fits ↔ onu.board = .fourPort := by
      intro port
      rw [readAutonegadv, fits_abilityContainer]
      cases onu.board <;> decide
    refine (forall_alone_iff (·.Fits) _ hboard ports).trans ?_
    obtain ⟨port, hport⟩ := List.exists_mem_of_ne_nil ports hne
    exact ⟨fun h => h port hport, fun h _ _ => h⟩

/-- No port is answered: the stores fail for all of them, or for the first one where the
getter returns then. -/
def PortAttr.Silent (ports : List UInt8) (a : PortAttr) : Prop :=
  if a.returns then ∀ port ∈ ports.head?, ¬a.Readable onu port
  else ∀ port ∈ ports, ¬a.Readable onu port

theorem answersOf_reads_eq_nil (inst : InstanceTlv) (a : PortAttr) (ports : List UInt8) :
    answersOf inst (a.reads onu ports) = [] ↔ a.Silent onu ports := by
  rw [PortAttr.Silent]
  cases hreturns : a.returns with
  | false =>
    rw [answersOf_eq_nil_of_skips inst (isAbort_reads onu hreturns ports), if_neg (by decide)]
    refine forall_reads_iff onu (¬·.isAnswer = true) (fun port => ¬a.Readable onu port) ?_
    intro x hx
    rw [isAnswer_reads onu a ports x hx]
  | true =>
    rw [answersOf_eq_nil_of_aborts inst (isSkip_reads onu hreturns ports), if_pos rfl]
    have hhead : ports.head? = (a.reads onu ports).head?.map Prod.fst := by
      rw [← List.head?_map, map_fst_reads]
    rw [hhead]
    cases hfirst : (a.reads onu ports).head? with
    | none => simp
    | some x =>
      have hmem : x ∈ a.reads onu ports := List.mem_of_mem_head? hfirst
      have hanswer := isAnswer_reads onu a ports x hmem
      simp only [Option.mem_def, Option.some.injEq, Option.map_some, forall_eq', hanswer]

/-- The getter of a port attribute finds the stores in shape, an instance of one byte if it
answers at all, and room; or no instance was given and it does nothing. -/
def PortAttr.Guard (o : Output) (a : PortAttr) : Prop :=
  (a ≠ .classify ∧ o.portInstance.value = noInstance) ∨
    (a.Shape onu (portsOf onu.board o.portInstance.value) ∧
      (a.Silent onu (portsOf onu.board o.portInstance.value) ∨ o.portInstance.width = 1) ∧
      RoomFor (startIndex o) (a.reads onu (portsOf onu.board o.portInstance.value)))

theorem getter_noInstance {o : Output} (h : o.portInstance.value = noInstance) {a : PortAttr}
    (ha : a ≠ .classify) : a.getter onu o = o := by
  cases a with
  | classify => exact absurd rfl ha
  | _ => exact if_pos h

/-- A getter that does not stop at the magic value loops over the ports. -/
theorem portGetter_looped {o : Output} {a : PortAttr}
    (h : ¬(a ≠ .classify ∧ o.portInstance.value = noInstance)) :
    Looped a.overwrites (a.reads onu (portsOf onu.board o.portInstance.value)) o
      (a.getter onu o) := by
  by_cases ha : a = .classify
  · subst ha
    exact eachPort_looped ..
  · exact getter_looped onu (fun heq => h ⟨ha, heq⟩) a

theorem sound_portGetter (o : Output) (a : PortAttr) :
    Sound (a.getter onu o) ↔ Sound o ∧ a.Guard onu o := by
  by_cases hnone : a ≠ .classify ∧ o.portInstance.value = noInstance
  · rw [getter_noInstance onu hnone.2 hnone.1]
    simp only [PortAttr.Guard, hnone, ne_eq, not_false_eq_true, and_self, true_or, and_true]
  · rw [sound_looped (portGetter_looped onu hnone), wellFormed_answersOf,
      fits_reads onu (portsOf_ne_nil _ _), ne_eq, answersOf_reads_eq_nil, PortAttr.Guard,
      or_iff_right hnone, ← or_iff_not_imp_left, and_assoc]

end Stores

/-! ### Attributes of the ONU -/

inductive OnuAttr where
  | sn | firmwarever | chipid | capabilities | fecability | fecmode | mcastSwitch | fastleaveAbl
  | fastleaveAdmin | mcastControl
deriving DecidableEq, Repr

def OnuAttr.leaf : OnuAttr → UInt16
  | .sn => oamAttrOnuSn
  | .firmwarever => oamAttrOnuFimwarever
  | .chipid => oamAttrChipsetId
  | .capabilities => oamAttrOnuCapabilities1
  | .fecability => oamAttrFecAbility
  | .fecmode => oamAttrFecMode
  | .mcastSwitch => oamAttrMcastSwitch
  | .fastleaveAbl => oamAttrMcastGfastleaveAbl
  | .fastleaveAdmin => oamAttrMcastGfastleaveAdmin
  | .mcastControl => oamAttrMcastControl

section OnuAttrs

variable (onu : Onu20)

def OnuAttr.getter : OnuAttr → Output → Output
  | .sn => eoplGetOnusnRsp20 onu
  | .firmwarever => eoplGetOnuFirmwarever20 onu
  | .chipid => eoplGetOnuChipid20 onu
  | .capabilities => eoplGetOnuCapabilities20 onu
  | .fecability => eoplGetOnuEthFecability20
  | .fecmode => eoplGetOnuEthFecmode20 onu
  | .mcastSwitch => eoplGetOnuMcastSwitch20 onu
  | .fastleaveAbl => eoplGetOnuFastleaveAbl20
  | .fastleaveAdmin => eoplGetOnuFastleaveAdmin20 onu
  | .mcastControl => eoplGetOnuMcastControl20 onu

/-- How many bytes the getter writes. -/
def OnuAttr.size : OnuAttr → Nat
  | .sn => 42
  | .firmwarever => 6
  | .chipid => 12
  | .capabilities => 30
  | .fecability => 8
  | .fecmode => if onu.device.odmPonFecEnableGet.isSome then 8 else 4
  | .mcastSwitch => 5
  | .fastleaveAbl => 24
  | .fastleaveAdmin => 8
  | .mcastControl => 7 + 10 * onu.device.odmMulticastControlEntryGet.length

/-- There is room, and the control entries fit into a width. -/
structure OnuAttr.Guard (o : Output) (a : OnuAttr) : Prop where
  room : startIndex o + a.size onu ≤ outDataSize
  entries : a = .mcastControl → onu.device.odmMulticastControlEntryGet.length ≤ 25

theorem sound_onuAnswer (o : Output) {c : Container} {n : Nat}
    (hwidth : c.width.toNat = c.value.length) (hcounts : ∀ n ∈ c.counts, n.1 = n.2)
    (hn : 4 + c.value.length = n) :
    Sound (onuAnswer c o) ↔ Sound o ∧ startIndex o + n ≤ outDataSize := by
  have hspan : (Answer.mk none c (c.width.toNat + 4)).span = n := by
    simp only [Answer.span, Option.isSome_none, Bool.false_eq_true, if_false, Nat.zero_add, hn]
  have hgood : (Answer.mk none c (c.width.toNat + 4)).WellFormed := by
    refine ⟨hwidth, hcounts, by simp, ?_⟩
    rw [hspan, hwidth, ← hn, Nat.add_comm]
  rw [onuAnswer, sound_write, hspan]
  exact and_congr_right fun _ => and_iff_right hgood

theorem length_flatMap_controlEntry (entries : List ControlEntry) :
    (entries.flatMap ControlEntry.bytes).length = 10 * entries.length := by
  have hten : ∀ e : ControlEntry, e.bytes.length = 10 := by
    intro e
    simp [ControlEntry.bytes]
  rw [List.length_flatMap]
  simp [hten, Nat.mul_comm]

theorem sound_mcastControl (o : Output) : Sound (eoplGetOnuMcastControl20 onu o) ↔
    Sound o ∧ onu.device.odmMulticastControlEntryGet.length ≤ 25 ∧
      startIndex o + (7 + 10 * onu.device.odmMulticastControlEntryGet.length) ≤ outDataSize := by
  simp only [eoplGetOnuMcastControl20, sound_write]
  have hlen := length_flatMap_controlEntry onu.device.odmMulticastControlEntryGet
  generalize onu.device.odmMulticastControlEntryGet = entries at hlen ⊢
  generalize hvalue : [3, onu.device.odmMulticastControlTypeGet, UInt8.ofNat (entries.length % 65536)]
    ++ entries.flatMap ControlEntry.bytes = value
  have hvalue : value.length = 3 + 10 * entries.length := by
    rw [← hvalue, List.length_append, hlen]
    rfl
  simp only [Answer.span, Option.isSome_none, Bool.false_eq_true, if_false, hvalue]
  refine and_congr_right fun _ => and_congr ?_ (by omega)
  constructor
  · intro h
    have hwidth := h.width
    simp only [UInt8.toNat_ofNat', hvalue] at hwidth
    omega
  · intro hfew
    refine ⟨?_, ?_, by simp, ?_⟩
    · simp only [UInt8.toNat_ofNat', hvalue]
      omega
    · simp only [List.forall_mem_singleton, UInt8.toNat_ofNat']
      omega
    · simp only [Answer.span, Option.isSome_none, Bool.false_eq_true, if_false, hvalue]
      omega

theorem sound_onuGetter (o : Output) (a : OnuAttr) :
    Sound (a.getter onu o) ↔ Sound o ∧ a.Guard onu o := by
  have hroom : a ≠ .mcastControl → (a.Guard onu o ↔ startIndex o + a.size onu ≤ outDataSize) := by
    intro ha
    exact ⟨fun h => h.room, fun h => ⟨h, fun heq => absurd heq ha⟩⟩
  cases a with
  | mcastControl =>
    rw [show OnuAttr.getter onu .mcastControl = eoplGetOnuMcastControl20 onu from rfl,
      sound_mcastControl]
    exact and_congr_right fun _ => ⟨fun h => ⟨h.2, fun _ => h.1⟩, fun h => ⟨h.entries rfl, h.room⟩⟩
  | fecmode =>
    rw [hroom (by decide)]
    show Sound (eoplGetOnuEthFecmode20 onu o) ↔ _
    rw [eoplGetOnuEthFecmode20, OnuAttr.size]
    cases onu.device.odmPonFecEnableGet with
    | none => exact sound_touch o 4
    | some mode => exact sound_onuAnswer o rfl (by simp [standard]) rfl
  | capabilities =>
    rw [hroom (by decide)]
    refine sound_onuAnswer o ?_ (by simp [extended]) ?_ <;> cases onu.board <;> rfl
  | _ =>
    rw [hroom (by decide)]
    refine sound_onuAnswer o ?_ (by simp [extended, standard, listed]) ?_ <;>
      simp [extended, standard, listed, OnuAttr.size]

end OnuAttrs

/-! ### Rounds -/

/-- An attribute that GET knows. -/
inductive Attr where
  | onu (a : OnuAttr)
  | port (a : PortAttr)
deriving DecidableEq, Repr

def Attr.leaf : Attr → UInt16
  | .onu a => a.leaf
  | .port a => a.leaf

/-- The attributes in the order of the `switch`. -/
def Attr.all : List Attr :=
  [.onu .sn, .onu .firmwarever, .onu .chipid, .onu .capabilities, .port .linkstate,
    .port .portpause, .port .portpolicing, .port .portdspolicing, .port .phyadmin,
    .port .autonegadmin, .port .autoneglocal, .port .autonegadv, .onu .fecability, .onu .fecmode,
    .port .tagstrip, .onu .mcastSwitch, .port .grpNummax, .onu .fastleaveAbl,
    .onu .fastleaveAdmin, .port .mcastVlan, .onu .mcastControl, .port .vlan, .port .classify]

/-- The attribute of a leaf. -/
def attrOf (leaf : UInt16) : Option Attr := Attr.all.find? fun a => leaf == a.leaf

section Rounds

variable (onu : Onu20)

def Attr.getter : Attr → Output → Output
  | .onu a => a.getter onu
  | .port a => a.getter onu

def Attr.Guard (o : Output) : Attr → Prop
  | .onu a => a.Guard onu o
  | .port a => a.Guard onu o

theorem getters_eq : getters onu = Attr.all.map fun a => (a.leaf, a.getter onu) := rfl

theorem lookup_getters_eq (leaf : UInt16) :
    (getters onu).lookup leaf = (attrOf leaf).map (Attr.getter onu) := by
  rw [getters_eq, attrOf]
  induction Attr.all with
  | nil => rfl
  | cons a attrs ih =>
    rw [List.map_cons, List.lookup_cons, List.find?_cons, ih]
    cases leaf == a.leaf <;> rfl

theorem sound_getter (o : Output) (a : Attr) :
    Sound (a.getter onu o) ↔ Sound o ∧ a.Guard onu o := by
  cases a with
  | onu a => exact sound_onuGetter onu o a
  | port a => exact sound_portGetter onu o a

/-- What a round needs so that the response stays well formed: the leaf is one that GET
knows, and its getter finds what it needs. -/
def RoundGuard (p : Ptr) (o : Output) : Prop :=
  match item onu.board .getReq20 p with
  | .handler _ => ∀ a, attrOf p.leaf = some a → a.Guard onu o
  | .unsupported _ => False
  | _ => True

/-- The indication has no value behind its width, and bytes that nobody wrote behind it. -/
theorem not_sound_notSupport (branch : UInt8) (leaf : UInt16) (o : Output) :
    ¬Sound (eoplNotSupportResponse20 branch leaf o) := by
  rw [eoplNotSupportResponse20, sound_write]
  intro h
  exact absurd h.2.1.moved (show ¬(oamRspIndicationSize + 4 = 0 + 4 + 0) by decide)

/-- One round keeps the response well formed exactly under `RoundGuard`. -/
theorem sound_roundEffect {p : Ptr} {o : Output} (hstop : item onu.board .getReq20 p ≠ .stop) :
    Sound (roundEffect onu p o (item onu.board .getReq20 p)) ↔ Sound o ∧ RoundGuard onu p o := by
  rw [RoundGuard]
  cases hitem : item onu.board .getReq20 p with
  | stop => exact absurd hitem hstop
  | instance20 refused =>
    rw [and_true]
    exact sound_instance o (instanceAt p)
  | unsupported n =>
    rw [and_false, iff_false]
    exact not_sound_notSupport (p 0) p.leaf o
  | handler n =>
    rw [roundEffect, lookup_getters_eq]
    cases attrOf p.leaf with
    | none => simp
    | some a => simpa using sound_getter onu o a
  | instance21 | ignored | reset | handover => exact (and_true _).symm ▸ Iff.rfl

@[simp] theorem sent_onuAnswer (c : Container) (o : Output) : (onuAnswer c o).sent = o.sent :=
  sent_outputBuf o

theorem sent_getter (o : Output) (a : Attr) : (a.getter onu o).sent = o.sent := by
  cases a with
  | onu a =>
    cases a with
    | mcastControl => exact sent_outputBuf o
    | fecmode =>
      show (eoplGetOnuEthFecmode20 onu o).sent = _
      rw [eoplGetOnuEthFecmode20]
      split
      · exact sent_outputBuf o
      · exact sent_onuAnswer _ o
    | _ => exact sent_onuAnswer _ o
  | port a =>
    by_cases hnone : a ≠ .classify ∧ o.portInstance.value = noInstance
    · exact congrArg Output.sent (getter_noInstance onu hnone.2 hnone.1)
    · exact (portGetter_looped onu hnone).sent

/-- Only the end of the loop sends. -/
theorem sent_roundEffect {p : Ptr} {o : Output} {here : Item} (hstop : here ≠ .stop) :
    (roundEffect onu p o here).sent = o.sent := by
  cases here with
  | stop => exact absurd rfl hstop
  | handler n =>
    rw [roundEffect, lookup_getters_eq]
    cases attrOf p.leaf with
    | none => rfl
    | some a => exact sent_getter onu o a
  | unsupported n => exact sent_outputBuf o
  | instance20 | instance21 | ignored | reset | handover => rfl

theorem item_eq_stop_iff {here : Item} : here = .stop ↔ here.outcome = .inr .sent := by
  cases here with
  | instance20 refused => cases refused <;> simp [Item.outcome]
  | _ => simp [Item.outcome]

/-- What a round of the loop does to the response. -/
theorem getStep_cases (mem : Buffer) (s : Cursor) :
    (∃ s', getStep onu mem s = .inl s' ∧ s'.output.sent = s.output.sent ∧
      (Sound s'.output ↔ Sound s.output ∧ RoundGuard onu (ptrAt mem s.pByte) s.output)) ∨
    (getStep onu mem s = .inr (.sent, sendFrame s.output) ∧
      RoundGuard onu (ptrAt mem s.pByte) s.output) ∨
    ∃ e o', getStep onu mem s = .inr (e, o') ∧ e ≠ .sent ∧ o'.sent = s.output.sent := by
  rcases Nat.lt_or_ge s.pByte oamMaximumPduSize with hlt | hge
  · rcases hout : (item onu.board .getReq20 (ptrAt mem s.pByte)).outcome with n | e
    · have hstop : item onu.board .getReq20 (ptrAt mem s.pByte) ≠ .stop := by
        rw [ne_eq, item_eq_stop_iff, hout]
        exact Sum.inl_ne_inr
      exact .inl ⟨_, getStep_of_inl hlt hout, sent_roundEffect onu hstop,
        sound_roundEffect onu hstop⟩
    · have hstep := getStep_of_inr hlt hout
      by_cases he : e = .sent
      · have hstop : item onu.board .getReq20 (ptrAt mem s.pByte) = .stop := by
          rw [item_eq_stop_iff, hout, he]
        rw [he, hstop] at hstep
        refine .inr (.inl ⟨hstep, ?_⟩)
        rw [RoundGuard, hstop]
        trivial
      · have hstop : item onu.board .getReq20 (ptrAt mem s.pByte) ≠ .stop := by
          rw [ne_eq, item_eq_stop_iff, hout, Sum.inr.injEq]
          exact he
        exact .inr (.inr ⟨e, _, hstep, he, sent_roundEffect onu hstop⟩)
  · exact .inr (.inr ⟨_, _, getStep_of_le hge, by decide, rfl⟩)

/-- **Well-formed responses.**  Every GET of 2.0 returns, and sends one frame or none.  The
frame is a well-formed list of TLVs in `out_data` exactly when what earlier requests left
there is, and every round finds what it needs. -/
theorem response_wellFormed_iff (mem : Buffer) (o : Output) :
    ∃ e o', eoplCtcGetReq20 onu mem o = some (e, o') ∧
      (e ≠ .sent → o'.sent = o.sent) ∧
      (e = .sent → ∃ f, o'.sent = o.sent ++ [f] ∧ (f.WellFormed ↔ Sound o ∧
        ∀ s, Loop.Reaches (getStep onu mem) ⟨0, enterGet o⟩ s →
          RoundGuard onu (ptrAt mem s.pByte) s.output)) := by
  obtain ⟨e, o', hrun⟩ := eoplCtcGetReq20_returns onu mem o
  refine ⟨e, o', hrun, ?_⟩
  have hkeeps : ∀ s s' : Cursor, s.output.sent = o.sent → getStep onu mem s = .inl s' →
      s'.output.sent = o.sent ∧ (Sound s'.output ↔ Sound s.output ∧
        RoundGuard onu (ptrAt mem s.pByte) s.output) := by
    intro s s' hs hstep
    rcases getStep_cases onu mem s with ⟨t, ht, hsent, hiff⟩ | ⟨ht, -⟩ | ⟨_, _, ht, -⟩
    · cases ht.symm.trans hstep
      exact ⟨hsent.trans hs, hiff⟩
    · cases ht.symm.trans hstep
    · cases ht.symm.trans hstep
  -- the frame that the last round sends
  have hexit : (e ≠ .sent → o'.sent = o.sent) ∧
      (e = .sent → ∃ last, o' = sendFrame last ∧ last.sent = o.sent) := by
    refine Loop.run_exit (fun s => s.output.sent = o.sent)
      (fun x => (x.1 ≠ .sent → x.2.sent = o.sent) ∧
        (x.1 = .sent → ∃ last, x.2 = sendFrame last ∧ last.sent = o.sent))
      (fun s s' hs hstep => (hkeeps s s' hs hstep).1) ?_ rfl hrun
    intro s x hs hstep
    rcases getStep_cases onu mem s with ⟨_, ht, -⟩ | ⟨ht, -⟩ | ⟨_, _, ht, hne, hsent⟩
    · cases ht.symm.trans hstep
    · cases ht.symm.trans hstep
      exact ⟨fun hne => absurd rfl hne, fun _ => ⟨s.output, rfl, hs⟩⟩
    · cases ht.symm.trans hstep
      exact ⟨fun _ => hsent.trans hs, fun heq => absurd heq hne⟩
  refine ⟨hexit.1, ?_⟩
  intro hsent
  obtain ⟨last, hlast, hbefore⟩ := hexit.2 hsent
  obtain ⟨f, hf, -⟩ := sendFrame_wellFormed last
  have hframe : o'.sent = o.sent ++ [f] := by rw [hlast, hf, hbefore]
  refine ⟨f, hframe, ?_⟩
  rw [← sound_instance o { o.portInstance with value := noInstance }]
  refine Loop.run_iff (fun s => s.output.sent = o.sent) (fun s => Sound s.output) _ _ hkeeps ?_ rfl
    hrun
  intro s hs hstep
  rcases getStep_cases onu mem s with ⟨_, ht, -⟩ | ⟨ht, hguard⟩ | ⟨_, _, ht, hne, -⟩
  · cases ht.symm.trans hstep
  · cases ht.symm.trans hstep
    obtain ⟨f', hf', hiff⟩ := sendFrame_wellFormed s.output
    have heq : f = f' := by
      rw [hf', hs] at hframe
      exact (List.cons.inj (List.append_cancel_left hframe)).1.symm
    rw [heq, hiff, and_iff_left hguard]
  · cases ht.symm.trans hstep
    exact absurd hsent hne

end Rounds

/-- The rule of precedence 1 looks at the priority. -/
def oneRuleOnu : Onu20 where
  board := .fourPort
  device := { plainDevice with
    odmoamClassRuleGet := fun precedence => if precedence = 1 then
      some ⟨0, 0, fun kind => if kind = .ethPri then some ⟨0, 5⟩ else none⟩ else none }
  number := 0

/-- The rules of one port, and of all ports. -/
def rulesOf (value : UInt8) : PortRequest :=
  ⟨(0, 1), 1, value, [⟨extendedAttrib, .classify, (0, 0)⟩]⟩

theorem rules_of_one_port_wellFormed :
    ∃ o' f, eoplCtcGetReq20 oneRuleOnu ((rulesOf 2).encode ++ [0]) freshOutput = some (.sent, o') ∧
      o'.sent = [f] ∧ f.WellFormed := by
  have hreq := getReq_portRequest oneRuleOnu (rulesOf 2) [0] freshOutput (by decide) (by decide)
    (by decide)
  obtain ⟨e, o', hrun, -, hsent⟩ :=
    response_wellFormed_iff oneRuleOnu ((rulesOf 2).encode ++ [0]) freshOutput
  cases hreq.symm.trans hrun
  obtain ⟨f, hf, hiff⟩ := hsent rfl
  refine ⟨_, f, hrun, hf, hiff.mpr ⟨⟨by simp [live, freshOutput], rfl, by decide⟩, ?_⟩⟩
  have hinst : getStep oneRuleOnu ((rulesOf 2).encode ++ [0]) ⟨0, enterGet freshOutput⟩ =
      .inl ⟨5, (rulesOf 2).named (enterGet freshOutput)⟩ :=
    getStep_instance oneRuleOnu (rulesOf 2) _ _ (by decide)
  have hrules : getStep oneRuleOnu ((rulesOf 2).encode ++ [0])
      ⟨5, (rulesOf 2).named (enterGet freshOutput)⟩ =
        .inl ⟨10, PortAttr.getter oneRuleOnu .classify
          ((rulesOf 2).named (enterGet freshOutput))⟩ :=
    getStep_descriptor oneRuleOnu (rulesOf 2).instanceBytes
      ⟨extendedAttrib, .classify, (0, 0)⟩ [0] (by decide) _
  have hend : getStep oneRuleOnu ((rulesOf 2).encode ++ [0]) ⟨10, PortAttr.getter oneRuleOnu .classify
      ((rulesOf 2).named (enterGet freshOutput))⟩ = .inr (.sent, _) :=
    getStep_of_inr (by decide) rfl
  rw [Loop.Reaches.forall_inl hinst, Loop.Reaches.forall_inl hrules, Loop.Reaches.forall_inr hend]
  refine ⟨trivial, ?_, trivial⟩
  intro a ha
  have hattr : Attr.port .classify = a := Option.some.inj ha
  subst hattr
  exact .inr ⟨⟨by decide, .inl (by decide)⟩, .inr rfl, by decide⟩

/-- `numOfRule` is two, three and four at the ports behind the first, with one rule behind it. -/
theorem rules_counted_again :
    ∃ o' f, eoplCtcGetReq20 oneRuleOnu ((rulesOf 0xFF).encode ++ [0]) freshOutput =
        some (.sent, o') ∧ o'.sent = [f] ∧
      f.answers.map (·.container.counts) = [[(1, 1), (1, 1)], [(2, 1), (1, 1)], [(3, 1), (1, 1)],
        [(4, 1), (1, 1)]] ∧
      ¬f.WellFormed := by
  have hreq := getReq_portRequest oneRuleOnu (rulesOf 0xFF) [0] freshOutput (by decide) (by decide)
    (by decide)
  refine ⟨_, _, hreq, rfl, by decide +kernel, ?_⟩
  intro h
  have hcounts : ∀ a ∈ (live (getAll oneRuleOnu (rulesOf 0xFF).attrs
      ((rulesOf 0xFF).named freshOutput))), ∀ c ∈ a.container.counts, c.1 = c.2 :=
    fun a ha => (h.answers a ha).counts
  exact absurd hcounts (by decide +kernel)

end Opconn.Oam.Ctc.Get
