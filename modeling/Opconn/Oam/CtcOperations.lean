import Opconn.Oam.CtcTermination

/-!
# The operations of a SET request

On the wire a SET request is a list of TLVs, each as long as its width field
says.  The SET loops go by their own length rules instead, a fixed size for most
leaves and four bytes for a leaf they do not know, and the 2.1 loop starts a
request over in the 2.0 loop when it meets an instance of 2.0.  Here the request
is a list of wire TLVs, the operations it asks for are read off that list, and
the requests that the loops measure as the wire does are shown to execute
exactly these.
-/

namespace Opconn.Oam.Ctc

/-! ### TLVs on the wire -/

/-- Branch, leaf, width and as many bytes of value; an object instance has the width of
its version. -/
structure WireTlv where
  branch : UInt8
  leafHigh : UInt8
  leafLow : UInt8
  value : Buffer
  value_lt : value.length < 256
  branch_known : branch = oamBranchInstanceV20 ∨ branch = oamBranchInstanceV21 ∨
    AttribBranch branch ∨ ActionBranch branch
  instance20_width : branch = oamBranchInstanceV20 → value.length = 1
  instance21_width : branch = oamBranchInstanceV21 → value.length = 4

def WireTlv.leaf (t : WireTlv) : UInt16 := t.leafHigh.toUInt16 * 256 + t.leafLow.toUInt16

def WireTlv.encode (t : WireTlv) : Buffer :=
  t.branch :: t.leafHigh :: t.leafLow :: UInt8.ofNat t.value.length :: t.value

def encodeAll (tlvs : List WireTlv) : Buffer := (tlvs.map WireTlv.encode).flatten

@[simp] theorem encodeAll_nil : encodeAll [] = [] := rfl

@[simp] theorem encodeAll_cons (t : WireTlv) (ts : List WireTlv) :
    encodeAll (t :: ts) = t.encode ++ encodeAll ts := rfl

theorem encodeAll_append (ts us : List WireTlv) :
    encodeAll (ts ++ us) = encodeAll ts ++ encodeAll us := by
  simp only [encodeAll, List.map_append, List.flatten_append]

theorem encodeAll_split (front : List WireTlv) (t : WireTlv) (back : List WireTlv)
    (rest : Buffer) : encodeAll (front ++ t :: back) ++ rest =
      encodeAll front ++ (t.encode ++ (encodeAll back ++ rest)) := by
  rw [encodeAll_append, encodeAll_cons, List.append_assoc, List.append_assoc]

theorem WireTlv.length_encode (t : WireTlv) : t.encode.length = 4 + t.value.length := by
  simp only [WireTlv.encode, List.length_cons]
  omega

/-! ### What the request asks for -/

/-- The SET loop of a version. -/
def setWalker (v20 : Bool) : Walker := if v20 then .setReq20 else .setReq

/-- The branch of the object instances of a version. -/
def Walker.instanceBranch (w : Walker) : UInt8 :=
  if w.isV20 then oamBranchInstanceV20 else oamBranchInstanceV21

def WireTlv.isReset (t : WireTlv) : Bool :=
  decide (ActionBranch t.branch) && t.leaf == oamActionResetOnu

/-- The version knows the leaf.  The multicast switch of 2.1 is an operation only with one
of its two actions. -/
def WireTlv.supported (w : Walker) (t : WireTlv) : Bool :=
  if AttribBranch t.branch then
    match w.attribs.lookup t.leaf with
    | some .mcastSwitch => t.value.head? == some 0 || t.value.head? == some 1
    | some _ => true
    | none => false
  else if ActionBranch t.branch then t.isReset || (w.actions.lookup t.leaf).isSome
  else false

/-- The object instance in force behind the TLV. -/
def nextInstance (w : Walker) (inst : List UInt8) (t : WireTlv) : List UInt8 :=
  if t.branch = w.instanceBranch then t.value else inst

/-- The operation of one TLV, if it is one. -/
def tlvOperation (w : Walker) (request offset : Nat) (inst : List UInt8) (t : WireTlv) :
    List Call :=
  if t.supported w then [⟨request, w, offset, t.branch, t.leaf, true, inst⟩] else []

/-- The operations of a list of TLVs that starts at `offset`: one for each supported TLV,
in order, decoded where the TLV starts and for the instance last named. -/
def operations (w : Walker) (request : Nat) : Nat → List UInt8 → List WireTlv → List Call
  | _, _, [] => []
  | offset, inst, t :: ts =>
    tlvOperation w request offset inst t ++
      operations w request (offset + t.encode.length) (nextInstance w inst t) ts

/-- Where the TLVs start. -/
def boundaries : Nat → List WireTlv → List Nat
  | _, [] => []
  | offset, t :: ts => offset :: boundaries (offset + t.encode.length) ts

/-- The request names an instance of 2.0 before any reset: it is one of 2.0. -/
def names20 : List WireTlv → Bool
  | [] => false
  | t :: ts => t.branch == oamBranchInstanceV20 || !t.isReset && names20 ts

/-- The version a request is written in, and the instance in force at its start. -/
def requestVersion (v20 : Bool) (tlvs : List WireTlv) : Walker := setWalker (v20 || names20 tlvs)

def instanceOf (w : Walker) (g : Globals) : List UInt8 :=
  if w.isV20 then [g.portInstance20] else g.portInstance

/-- The calls a SET request makes, when it returns. -/
def executed (onu : Onu) (v20 : Bool) (mem : Buffer) (g : Globals) : Option (List Call) :=
  (ctcReq onu (setWalker v20) mem g).map fun r => r.2.calls.drop g.calls.length

/-- The request returns; its operations are those of its supported TLVs, each once and in
order, and whatever else it answers it decodes where a TLV starts. -/
def ExecutesExactly (onu : Onu) (v20 : Bool) (tlvs : List WireTlv) (rest : Buffer)
    (g : Globals) : Prop :=
  ∃ calls, executed onu v20 (encodeAll tlvs ++ rest) g = some calls ∧
    calls.filter Call.supported = operations (requestVersion v20 tlvs) g.request 0
      (instanceOf (requestVersion v20 tlvs) (enter (requestVersion v20 tlvs) g)) tlvs ∧
    ∀ c ∈ calls, c.offset ∈ boundaries 0 tlvs

/-! ### Requests measured as the wire does -/

/-- The loop returns at this TLV: a refused instance, one of the other version, a reset. -/
def Closes (board : Board) (w : Walker) (t : WireTlv) : Prop :=
  (w.isV20 = true ∧ t.branch = oamBranchInstanceV20 ∧
    instanceRefused board w (t.value.headD 0) = true) ∨
  (w.isV20 = true ∧ t.branch = oamBranchInstanceV21) ∨ t.isReset = true

/-- The loop steps over every TLV exactly, up to the end of the list and a byte that is no
branch, or up to a TLV it returns at with nothing supported behind it. -/
def ReadInFull (board : Board) (w : Walker) (tlvs : List WireTlv) (rest : Buffer) : Prop :=
  ((∀ t ∈ tlvs, IsTlv board w t.encode) ∧ item board w (ptrAt rest 0) = .stop) ∨
  ∃ front t back, tlvs = front ++ t :: back ∧ (∀ u ∈ front, IsTlv board w u.encode) ∧
    Closes board w t ∧ ∀ u ∈ back, u.supported w = false

/-- The 2.1 loop comes to an instance of 2.0 with nothing supported before it. -/
def HandedOver (board : Board) (tlvs : List WireTlv) : Prop :=
  ∃ front t back, tlvs = front ++ t :: back ∧ t.branch = oamBranchInstanceV20 ∧
    ∀ u ∈ front, IsTlv board .setReq u.encode ∧ u.supported .setReq = false

/-- The request is read as it is written. -/
def MeasuredRight (board : Board) (v20 : Bool) (tlvs : List WireTlv) (rest : Buffer) : Prop :=
  ReadInFull board (setWalker v20) tlvs rest ∨
    (v20 = false ∧ HandedOver board tlvs ∧ ReadInFull board .setReq20 tlvs rest)

/-! ### Reading a wire TLV -/

/-- The cursor stands at the TLV. -/
def ReadsAs (p : Ptr) (t : WireTlv) : Prop := ∀ i < t.encode.length, p i = byteAt t.encode i

section Reads

variable {p : Ptr} {t : WireTlv} {mem : Buffer} {pos : Nat}

theorem readsAs_of_bytesAt (h : bytesAt mem pos t.encode.length = t.encode) :
    ReadsAs (ptrAt mem pos) t := by
  intro i hi
  have hread := byteAt_bytesAt mem pos t.encode.length hi
  rw [h] at hread
  exact hread.symm

theorem ReadsAs.branch (h : ReadsAs p t) : p 0 = t.branch :=
  h 0 (by rw [t.length_encode]; omega)

theorem ReadsAs.leaf (h : ReadsAs p t) : p.leaf = t.leaf := by
  have h1 : p 1 = t.leafHigh := h 1 (by rw [t.length_encode]; omega)
  have h2 : p 2 = t.leafLow := h 2 (by rw [t.length_encode]; omega)
  simp only [Ptr.leaf, WireTlv.leaf, h1, h2]

theorem ReadsAs.value_one (h : ReadsAs p t) (hlen : t.value.length = 1) : t.value = [p 4] := by
  obtain ⟨v, hv⟩ := List.length_eq_one_iff.mp hlen
  have h4 : p 4 = v := by
    rw [h 4 (by rw [t.length_encode]; omega), WireTlv.encode, hv]
    rfl
  rw [hv, h4]

theorem ReadsAs.value_four (h : ReadsAs p t) (hlen : t.value.length = 4) :
    t.value = [p 4, p 5, p 6, p 7] := by
  obtain ⟨v₁, v₂, v₃, v₄, hv⟩ := List.length_eq_four.mp hlen
  have hread : ∀ i, i < 8 → p i = byteAt t.encode i := by
    intro i hi
    exact h i (by rw [t.length_encode]; omega)
  rw [hread 4 (by omega), hread 5 (by omega), hread 6 (by omega), hread 7 (by omega),
    WireTlv.encode, hv]
  rfl

/-- A TLV of the loop, wherever the cursor finds it. -/
theorem IsTlv.outcome {board : Board} {w : Walker} (ht : IsTlv board w t.encode)
    (h : ReadsAs p t) : (item board w p).outcome = .inl t.encode.length := by
  have hitem : item board w p = item board w (ptrAt t.encode 0) := by
    refine item_congr ht ht.length_pos ?_
    intro i hi
    rw [h i hi, ptrAt, Nat.zero_add]
  rw [hitem]
  exact ht

end Reads

/-! ### The effect of one TLV -/

section Effects

variable {onu : Onu} {w : Walker} {g : Globals} {c : Call}

@[simp] theorem calls_appendContainers (size : UInt16) :
    (appendContainers g c size).calls = g.calls := by
  simp only [appendContainers]
  split <;> rfl

@[simp] theorem instanceOf_appendContainers (size : UInt16) :
    instanceOf w (appendContainers g c size) = instanceOf w g := by
  simp only [appendContainers]
  split <;> rfl

@[simp] theorem calls_logCall : (logCall g c).calls = g.calls ++ [c] := rfl

@[simp] theorem instanceOf_logCall : instanceOf w (logCall g c) = instanceOf w g := rfl

@[simp] theorem calls_callHandler : (callHandler onu g c).calls = g.calls ++ [c] := by
  simp only [callHandler]
  split
  · rw [calls_appendContainers, calls_logCall]
  · rfl

@[simp] theorem instanceOf_callHandler : instanceOf w (callHandler onu g c) = instanceOf w g := by
  simp only [callHandler]
  split
  · rw [instanceOf_appendContainers, instanceOf_logCall]
  · rfl

/-- What one round has to do to be that of the TLV `t` at `offset`. -/
structure RoundOf (w : Walker) (t : WireTlv) (offset : Nat) (g g' : Globals) (calls : List Call) :
    Prop where
  calls_eq : g'.calls = g.calls ++ calls
  operations_eq : calls.filter Call.supported = tlvOperation w g.request offset (instanceOf w g) t
  offset_eq : ∀ c ∈ calls, c.offset = offset
  instance_eq : instanceOf w g' = nextInstance w (instanceOf w g) t

theorem supported_of_instance {t : WireTlv}
    (h : t.branch = oamBranchInstanceV20 ∨ t.branch = oamBranchInstanceV21) :
    t.supported w = false := by
  have hattrib : ¬ AttribBranch t.branch := by rcases h with h | h <;> rw [h] <;> decide
  have haction : ¬ ActionBranch t.branch := by rcases h with h | h <;> rw [h] <;> decide
  rw [WireTlv.supported, if_neg hattrib, if_neg haction]

theorem nextInstance_of_leaf {t : WireTlv} (h : AttribBranch t.branch ∨ ActionBranch t.branch)
    (inst : List UInt8) : nextInstance w inst t = inst := by
  rw [nextInstance, if_neg]
  rw [Walker.instanceBranch]
  split <;> rcases h with (h | h) | (h | h) <;> rw [h] <;> decide

/-- A case of a leaf table, against the table that says what is supported. -/
theorem roundOf_leafItem {table : List (UInt16 × Rule)} {unknown offset : Nat} {p : Ptr}
    {t : WireTlv} (hp : ReadsAs p t) (hleaf : AttribBranch t.branch ∨ ActionBranch t.branch)
    (hsup : t.supported w = (table.lookup p.leaf).any (Rule.calls p)) :
    ∃ calls, RoundOf w t offset g ((leafItem table unknown p).effect onu w p offset g) calls := by
  have hinst := nextInstance_of_leaf (w := w) hleaf (instanceOf w g)
  have hcall : ∀ supported, callAt w p offset supported g =
      ⟨g.request, w, offset, t.branch, t.leaf, supported, instanceOf w g⟩ := by
    intro supported
    simp only [callAt, instanceOf, hp.branch, hp.leaf]
  rcases hl : table.lookup p.leaf with _ | rule
  · rw [hl, Option.any_none] at hsup
    rw [leafItem_of_none hl]
    refine ⟨[callAt w p offset false g], ?_, ?_, ?_, ?_⟩
    · simp only [Item.effect, eoplNotSupportResponse, calls_appendContainers, calls_logCall]
    · simp [tlvOperation, hsup, callAt]
    · simp [callAt]
    · simp only [Item.effect, eoplNotSupportResponse, instanceOf_appendContainers,
        instanceOf_logCall, hinst]
  · rw [hl, Option.any_some] at hsup
    by_cases hc : rule.calls p
    · refine ⟨[callAt w p offset true g], ?_, ?_, ?_, ?_⟩
      · simp only [leafItem, hl, if_pos hc, Item.effect, calls_callHandler]
      · rw [tlvOperation, hsup, if_pos hc, hcall]
        rfl
      · simp [callAt]
      · simp only [leafItem, hl, if_pos hc, Item.effect, instanceOf_callHandler, hinst]
    · refine ⟨[], ?_, ?_, ?_, ?_⟩
      · simp only [leafItem, hl, if_neg hc, Item.effect, List.append_nil]
      · rw [tlvOperation, hsup, if_neg hc]
        rfl
      · simp
      · simp only [leafItem, hl, if_neg hc, Item.effect, hinst]

theorem actions_not_mcastSwitch : ∀ w : Walker, ∀ e ∈ w.actions, e.2 ≠ .mcastSwitch := by
  intro w
  cases w <;> decide

theorem Rule.calls_of_ne {rule : Rule} (h : rule ≠ .mcastSwitch) (p : Ptr) :
    rule.calls p = true := by
  cases rule <;> simp_all [Rule.calls]

/-- An attribute measured as on the wire is an operation exactly when its handler is called.
The switch of 2.1 then has its action as its one byte of value. -/
theorem supported_attrib {p : Ptr} {t : WireTlv} (hp : ReadsAs p t) (hb : AttribBranch t.branch)
    (hout : (leafItem w.attribs w.unknownAdvance p).outcome = .inl t.encode.length) :
    t.supported w = (w.attribs.lookup p.leaf).any (Rule.calls p) := by
  rw [WireTlv.supported, if_pos hb, ← hp.leaf]
  rcases hl : w.attribs.lookup p.leaf with _ | rule
  · rfl
  · by_cases hr : rule = .mcastSwitch
    · subst hr
      rw [outcome_leafItem_of_some hl] at hout
      have hlen : 5 = t.encode.length := Sum.inl.inj hout
      rw [t.length_encode] at hlen
      rw [hp.value_one (by omega)]
      simp [Rule.calls]
    · rw [Option.any_some, Rule.calls_of_ne hr]
      cases rule <;> first | rfl | exact absurd rfl hr

theorem supported_action {p : Ptr} {t : WireTlv} (hp : ReadsAs p t) (hb : ActionBranch t.branch)
    (hreset : t.leaf ≠ oamActionResetOnu) :
    t.supported w = (w.actions.lookup p.leaf).any (Rule.calls p) := by
  have hattrib : ¬ AttribBranch t.branch := by rcases hb with hb | hb <;> rw [hb] <;> decide
  have hno : t.isReset = false := by
    rw [WireTlv.isReset, beq_eq_false_iff_ne.mpr hreset, Bool.and_false]
  rw [WireTlv.supported, if_neg hattrib, if_pos hb, hno, Bool.false_or, ← hp.leaf]
  rcases hl : w.actions.lookup p.leaf with _ | rule
  · rfl
  · rw [Option.any_some, Rule.calls_of_ne (actions_not_mcastSwitch w _ (mem_of_lookup hl))]
    rfl

/-- **One TLV.**  A round over a TLV measured as on the wire does what the TLV asks for. -/
theorem roundOf_item {p : Ptr} {t : WireTlv} {offset : Nat} (hset : w.isSet = true)
    (ht : IsTlv onu.board w t.encode) (hp : ReadsAs p t) :
    ∃ calls, RoundOf w t offset g ((item onu.board w p).effect onu w p offset g) calls := by
  have hout := ht.outcome hp
  rcases t.branch_known with hb | hb | hb | hb
  · have hb' : p 0 = oamBranchInstanceV20 := hp.branch.trans hb
    rw [item_of_instance20 hb'] at hout ⊢
    by_cases hv : w.isV20
    · refine ⟨[], ?_, ?_, by simp, ?_⟩
      · simp only [if_pos hv, Item.effect, List.append_nil]
      · simp [tlvOperation, supported_of_instance (.inl hb)]
      · simp only [if_pos hv, Item.effect, instanceOf, nextInstance, Walker.instanceBranch,
          if_pos hb]
        exact (hp.value_one (t.instance20_width hb)).symm
    · rw [if_neg hv] at hout
      cases hout
  · have hb' : p 0 = oamBranchInstanceV21 := hp.branch.trans hb
    rw [item_of_instance21 hb'] at hout ⊢
    by_cases hv : w.isV20
    · rw [if_pos hv] at hout
      cases hout
    · refine ⟨[], ?_, ?_, by simp, ?_⟩
      · simp only [if_neg hv, Item.effect, List.append_nil]
      · simp [tlvOperation, supported_of_instance (.inr hb)]
      · simp only [if_neg hv, Item.effect, instanceOf, nextInstance, Walker.instanceBranch,
          if_pos hb]
        exact (hp.value_four (t.instance21_width hb)).symm
  · have hb' : AttribBranch (p 0) := by rw [hp.branch]; exact hb
    rw [item_of_attrib hb'] at hout ⊢
    exact roundOf_leafItem hp (.inl hb) (supported_attrib hp hb hout)
  · have hb' : ActionBranch (p 0) := by rw [hp.branch]; exact hb
    rw [item_of_action hb', if_pos hset, actionItem] at hout ⊢
    by_cases hreset : p.leaf = oamActionResetOnu
    · rw [if_pos hreset] at hout
      cases hout
    · rw [if_neg hreset]
      have hreset' : t.leaf ≠ oamActionResetOnu := by rw [← hp.leaf]; exact hreset
      exact roundOf_leafItem hp (.inr hb) (supported_action hp hb hreset')

end Effects

/-! ### Lists of TLVs -/

section Lists

variable {w : Walker} {request : Nat}

theorem operations_append (offset : Nat) (inst : List UInt8) (ts us : List WireTlv) :
    operations w request offset inst (ts ++ us) = operations w request offset inst ts ++
      operations w request (offset + (encodeAll ts).length)
        (ts.foldl (nextInstance w) inst) us := by
  induction ts generalizing offset inst with
  | nil => simp [operations]
  | cons t ts ih =>
    simp only [List.cons_append, operations, ih, List.append_assoc, encodeAll_cons,
      List.length_append, List.foldl_cons, Nat.add_assoc]

theorem operations_eq_nil {offset : Nat} {inst : List UInt8} {ts : List WireTlv}
    (h : ∀ t ∈ ts, t.supported w = false) : operations w request offset inst ts = [] := by
  induction ts generalizing offset inst with
  | nil => rfl
  | cons t ts ih =>
    have ht := h t (List.mem_cons_self ..)
    rw [operations, tlvOperation, ht, ih (fun u hu => h u (List.mem_cons_of_mem _ hu))]
    rfl

theorem boundaries_append (offset : Nat) (ts us : List WireTlv) :
    boundaries offset (ts ++ us) =
      boundaries offset ts ++ boundaries (offset + (encodeAll ts).length) us := by
  induction ts generalizing offset with
  | nil => simp [boundaries]
  | cons t ts ih =>
    simp only [List.cons_append, boundaries, ih, encodeAll_cons, List.length_append, Nat.add_assoc]

theorem length_le_encodeAll (ts : List WireTlv) : ts.length ≤ (encodeAll ts).length := by
  induction ts with
  | nil => simp
  | cons t ts ih =>
    rw [encodeAll_cons, List.length_append, t.length_encode, List.length_cons]
    omega

end Lists

/-! ### Runs of the loop -/

section RunOf

variable {onu : Onu} {w : Walker} {mem : Buffer}

/-- What the rounds over a list of TLVs have done. -/
structure RunOf (w : Walker) (tlvs : List WireTlv) (offset : Nat) (g g' : Globals)
    (calls : List Call) : Prop where
  calls_eq : g'.calls = g.calls ++ calls
  operations_eq : calls.filter Call.supported =
    operations w g.request offset (instanceOf w g) tlvs
  offset_mem : ∀ c ∈ calls, c.offset ∈ boundaries offset tlvs
  instance_eq : instanceOf w g' = tlvs.foldl (nextInstance w) (instanceOf w g)
  request_eq : g'.request = g.request

theorem RoundOf.cons {t : WireTlv} {ts : List WireTlv} {offset : Nat} {g g₁ g₂ : Globals}
    {calls calls' : List Call} (h : RoundOf w t offset g g₁ calls) (hreq : g₁.request = g.request)
    (hts : RunOf w ts (offset + t.encode.length) g₁ g₂ calls') :
    RunOf w (t :: ts) offset g g₂ (calls ++ calls') where
  calls_eq := by rw [hts.calls_eq, h.calls_eq, List.append_assoc]
  operations_eq := by
    rw [List.filter_append, h.operations_eq, hts.operations_eq, operations, hreq, h.instance_eq]
  offset_mem := by
    intro c hc
    rcases List.mem_append.mp hc with hc | hc
    · rw [h.offset_eq c hc]
      exact List.mem_cons_self ..
    · exact List.mem_cons_of_mem _ (hts.offset_mem c hc)
  instance_eq := by rw [hts.instance_eq, h.instance_eq, List.foldl_cons]
  request_eq := hts.request_eq.trans hreq

/-- **The rounds over TLVs measured as on the wire**, one for each. -/
theorem run_tlvs (hset : w.isSet = true) {tlvs : List WireTlv} {pos : Nat} (g : Globals)
    (htlvs : ∀ t ∈ tlvs, IsTlv onu.board w t.encode)
    (hbytes : bytesAt mem pos (encodeAll tlvs).length = encodeAll tlvs)
    (hlimit : pos + (encodeAll tlvs).length ≤ oamMaximumPduSize) :
    ∃ g' calls, RunOf w tlvs pos g g' calls ∧ ∀ fuel,
      Loop.run (walkStep onu w mem) (tlvs.length + fuel) ⟨pos, g⟩ =
        Loop.run (walkStep onu w mem) fuel ⟨pos + (encodeAll tlvs).length, g'⟩ := by
  induction tlvs generalizing pos g with
  | nil =>
    refine ⟨g, [], ⟨by simp, rfl, by simp, rfl, rfl⟩, ?_⟩
    intro fuel
    simp
  | cons t ts ih =>
    rw [encodeAll_cons, List.length_append, bytesAt_add] at hbytes
    obtain ⟨hfront, hback⟩ := List.append_inj hbytes (length_bytesAt ..)
    rw [encodeAll_cons, List.length_append] at hlimit
    have ht := htlvs t (List.mem_cons_self ..)
    have hp : ReadsAs (ptrAt mem pos) t := readsAs_of_bytesAt hfront
    have hlen := ht.length_pos
    have hitem : ∃ calls, RoundOf w t pos g
        ((item onu.board w (ptrAt mem pos)).effect onu w (ptrAt mem pos) pos g) calls :=
      roundOf_item hset ht hp
    obtain ⟨calls, hround⟩ := hitem
    have hstep : walkStep onu w mem ⟨pos, g⟩ = .inl ⟨pos + t.encode.length,
        (item onu.board w (ptrAt mem pos)).effect onu w (ptrAt mem pos) pos g⟩ :=
      walkStep_of_inl (by simp only; omega) (ht.outcome hp)
    obtain ⟨g', calls', hrun, hfuel⟩ := ih _ (fun u hu => htlvs u (List.mem_cons_of_mem _ hu))
      hback (by omega)
    refine ⟨g', calls ++ calls', hround.cons (request_effect _) hrun, ?_⟩
    intro fuel
    rw [List.length_cons, Nat.add_right_comm, Loop.run_succ_inl hstep, hfuel, encodeAll_cons,
      List.length_append, Nat.add_assoc]

end RunOf

/-! ### The end of a walk -/

section Ends

variable {onu : Onu} {w : Walker} {g : Globals}

theorem supported_of_isReset {t : WireTlv} (h : t.isReset = true) : t.supported w = true := by
  have hb : ActionBranch t.branch := by
    rw [WireTlv.isReset, Bool.and_eq_true] at h
    exact of_decide_eq_true h.1
  have hattrib : ¬ AttribBranch t.branch := by rcases hb with hb | hb <;> rw [hb] <;> decide
  rw [WireTlv.supported, if_neg hattrib, if_pos hb, h, Bool.true_or]

theorem ReadsAs.item_reset {board : Board} {p : Ptr} {t : WireTlv} (hp : ReadsAs p t)
    (hset : w.isSet = true) (h : t.isReset = true) : item board w p = .reset := by
  rw [WireTlv.isReset, Bool.and_eq_true, beq_iff_eq] at h
  have hb : ActionBranch (p 0) := by
    rw [hp.branch]
    exact of_decide_eq_true h.1
  rw [item_of_action hb, if_pos hset, actionItem, if_pos (hp.leaf.trans h.2)]

/-- A TLV the loop returns at: a reset is carried out, an instance is not an operation. -/
theorem roundOf_closes {p : Ptr} {t : WireTlv} {pos : Nat} (hset : w.isSet = true)
    (h : Closes onu.board w t) (hp : ReadsAs p t) :
    ∃ e calls, e ≠ .handover ∧ (item onu.board w p).outcome = .inr e ∧
      ((item onu.board w p).effect onu w p pos g).calls = g.calls ++ calls ∧
      calls.filter Call.supported = tlvOperation w g.request pos (instanceOf w g) t ∧
      ∀ c ∈ calls, c.offset = pos := by
  rcases h with ⟨hv, hb, hrefused⟩ | ⟨hv, hb⟩ | hreset
  · have hb' : p 0 = oamBranchInstanceV20 := hp.branch.trans hb
    have h4 : instanceRefused onu.board w (p 4) = true := by
      rw [hp.value_one (t.instance20_width hb)] at hrefused
      exact hrefused
    refine ⟨.badInstance, [], by decide, ?_, ?_, ?_, by simp⟩
    · rw [item_of_instance20 hb', if_pos hv, h4]
      rfl
    · simp only [item_of_instance20 hb', if_pos hv, Item.effect, List.append_nil]
    · simp [tlvOperation, supported_of_instance (.inl hb)]
  · have hb' : p 0 = oamBranchInstanceV21 := hp.branch.trans hb
    refine ⟨.sent, [], by decide, ?_, ?_, ?_, by simp⟩
    · rw [item_of_instance21 hb', if_pos hv]
      rfl
    · simp only [item_of_instance21 hb', if_pos hv, Item.effect, sendResponse, List.append_nil]
    · simp [tlvOperation, supported_of_instance (.inr hb)]
  · have hitem : item onu.board w p = .reset := hp.item_reset hset hreset
    refine ⟨.reset, [callAt w p pos true g], by decide, ?_, ?_, ?_, ?_⟩
    · rw [hitem]
      rfl
    · rw [hitem]
      rfl
    · rw [tlvOperation, supported_of_isReset hreset, if_pos rfl]
      simp [callAt, instanceOf, hp.branch, hp.leaf]
    · simp [callAt]

theorem ptrAt_append (front rest : Buffer) : ptrAt (front ++ rest) front.length = ptrAt rest 0 := by
  funext i
  simp [ptrAt, byteAt, List.getD_eq_getElem?_getD, List.getElem?_append_right]

/-- What a request has to do to be that of its TLVs. -/
def WalkOf (w : Walker) (tlvs : List WireTlv) (g g' : Globals) (calls : List Call) : Prop :=
  g'.calls = g.calls ++ calls ∧
    calls.filter Call.supported = operations w g.request 0 (instanceOf w (enter w g)) tlvs ∧
    ∀ c ∈ calls, c.offset ∈ boundaries 0 tlvs

@[simp] theorem calls_enter : (enter w g).calls = g.calls := by
  simp only [enter]
  split <;> rfl

/-- The loop over TLVs measured as on the wire, up to a place it leaves at. -/
theorem walk_front (hset : w.isSet = true) {front : List WireTlv} (tail : Buffer) (g : Globals)
    (hfront : ∀ t ∈ front, IsTlv onu.board w t.encode)
    (hlen : (encodeAll front).length < oamMaximumPduSize) :
    ∃ g₁ calls, RunOf w front 0 (enter w g) g₁ calls ∧
      ∀ e, (item onu.board w (ptrAt tail 0)).outcome = .inr e →
        walk onu w (encodeAll front ++ tail) g = some (e, (item onu.board w (ptrAt tail 0)).effect
          onu w (ptrAt tail 0) (encodeAll front).length g₁) := by
  obtain ⟨g₁, calls, hrun, hfuel⟩ := run_tlvs hset (enter w g) hfront
    (bytesAt_append_left (encodeAll front) tail) (by omega)
  refine ⟨g₁, calls, hrun, ?_⟩
  intro e he
  have hcount := length_le_encodeAll front
  have hbudget : oamMaximumPduSize + 1 = front.length + (oamMaximumPduSize - front.length + 1) := by
    omega
  have hptr := ptrAt_append (encodeAll front) tail
  have hstep : walkStep onu w (encodeAll front ++ tail) ⟨0 + (encodeAll front).length, g₁⟩ =
      .inr (e, (item onu.board w (ptrAt tail 0)).effect onu w (ptrAt tail 0)
        (encodeAll front).length g₁) := by
    rw [Nat.zero_add]
    have hhere : here onu w (encodeAll front ++ tail) (encodeAll front).length =
        item onu.board w (ptrAt tail 0) := by rw [here, hptr]
    rw [walkStep_of_inr hlen (by simp only [hhere]; exact he), hhere]
    simp only [hptr]
  rw [walk, hbudget, hfuel, Loop.run_succ_inr hstep]

/-- **One loop over a request read in full.** -/
theorem walk_of_readInFull (hset : w.isSet = true) {tlvs : List WireTlv} {rest : Buffer}
    (hlen : (encodeAll tlvs).length < oamMaximumPduSize)
    (h : ReadInFull onu.board w tlvs rest) (g : Globals) :
    ∃ e g' calls, e ≠ .handover ∧ walk onu w (encodeAll tlvs ++ rest) g = some (e, g') ∧
      WalkOf w tlvs g g' calls := by
  rcases h with ⟨htlvs, hstop⟩ | ⟨front, t, back, rfl, hfront, hcloses, hback⟩
  · obtain ⟨g₁, calls, hrun, hwalk⟩ := walk_front hset rest g htlvs hlen
    refine ⟨.sent, _, calls, by decide, hwalk .sent (by rw [hstop]; rfl), ?_, ?_, ?_⟩
    · rw [hstop]
      exact hrun.calls_eq.trans (by rw [calls_enter])
    · rw [hrun.operations_eq, request_enter]
    · exact hrun.offset_mem
  · rw [encodeAll_append, encodeAll_cons, List.length_append] at hlen
    have hp : ReadsAs (ptrAt (t.encode ++ (encodeAll back ++ rest)) 0) t :=
      readsAs_of_bytesAt (bytesAt_append_left ..)
    obtain ⟨g₁, calls, hrun, hwalk⟩ := walk_front hset
      (t.encode ++ (encodeAll back ++ rest)) g hfront (by omega)
    obtain ⟨e, calls', hne, hout, hcalls, hops, hoff⟩ := roundOf_closes hset hcloses hp
    rw [encodeAll_split]
    refine ⟨e, _, calls ++ calls', hne, hwalk e hout, ?_, ?_, ?_⟩
    · rw [hcalls, hrun.calls_eq, calls_enter, List.append_assoc]
    · -- nothing behind the TLV the loop returns at is an operation
      rw [List.filter_append, hrun.operations_eq, hops, hrun.request_eq, hrun.instance_eq,
        operations_append, operations, operations_eq_nil hback, List.append_nil, request_enter,
        Nat.zero_add]
    · intro c hc
      rw [boundaries_append]
      rcases List.mem_append.mp hc with hc | hc
      · exact List.mem_append_left _ (hrun.offset_mem c hc)
      · rw [hoff c hc, Nat.zero_add]
        exact List.mem_append_right _ (List.mem_cons_self ..)

end Ends

/-! ### The version a request is written in -/

/-- A TLV the 2.1 SET steps over is no instance of 2.0 and no reset. -/
theorem IsTlv.names20_cons {board : Board} {t : WireTlv} (ht : IsTlv board .setReq t.encode)
    (ts : List WireTlv) : names20 (t :: ts) = names20 ts := by
  have hp : ReadsAs (ptrAt t.encode 0) t := by
    intro i _
    rw [ptrAt, Nat.zero_add]
  have hout := ht.outcome hp
  have hb : t.branch ≠ oamBranchInstanceV20 := by
    intro hb
    rw [item_of_instance20 (hp.branch.trans hb)] at hout
    cases hout
  have hreset : t.isReset = false := by
    rcases hr : t.isReset
    · rfl
    · rw [hp.item_reset rfl hr] at hout
      cases hout
  rw [names20, beq_eq_false_iff_ne.mpr hb, hreset]
  simp

theorem names20_append {board : Board} {front : List WireTlv}
    (h : ∀ t ∈ front, IsTlv board .setReq t.encode) (ts : List WireTlv) :
    names20 (front ++ ts) = names20 ts := by
  induction front with
  | nil => rfl
  | cons t front ih =>
    rw [List.cons_append, (h t (List.mem_cons_self ..)).names20_cons]
    exact ih (fun u hu => h u (List.mem_cons_of_mem _ hu))

theorem names20_of_readInFull {board : Board} {tlvs : List WireTlv} {rest : Buffer}
    (h : ReadInFull board .setReq tlvs rest) : names20 tlvs = false := by
  rcases h with ⟨htlvs, -⟩ | ⟨front, t, back, rfl, hfront, hcloses, -⟩
  · have hnil := names20_append htlvs []
    rw [List.append_nil] at hnil
    exact hnil
  · rw [names20_append hfront]
    rcases hcloses with ⟨hv, -⟩ | ⟨hv, -⟩ | hreset
    · cases hv
    · cases hv
    · have hb : t.branch ≠ oamBranchInstanceV20 := by
        intro hb
        rw [WireTlv.isReset, hb] at hreset
        simp only [Bool.and_eq_true] at hreset
        exact absurd hreset.1 (by decide)
      rw [names20, beq_eq_false_iff_ne.mpr hb, hreset]
      rfl

theorem names20_of_handedOver {board : Board} {tlvs : List WireTlv}
    (h : HandedOver board tlvs) : names20 tlvs = true := by
  obtain ⟨front, t, back, rfl, hb, hfront⟩ := h
  rw [names20_append (fun u hu => (hfront u hu).1), names20, hb]
  rfl

/-- Before it hands over, the 2.1 loop answers unsupported TLVs at most. -/
theorem walk_of_handedOver {onu : Onu} {tlvs : List WireTlv} (rest : Buffer)
    (hlen : (encodeAll tlvs).length < oamMaximumPduSize) (h : HandedOver onu.board tlvs)
    (g : Globals) :
    ∃ g₁ calls, walk onu .setReq (encodeAll tlvs ++ rest) g = some (.handover, g₁) ∧
      g₁.calls = g.calls ++ calls ∧ calls.filter Call.supported = [] ∧
      (∀ c ∈ calls, c.offset ∈ boundaries 0 tlvs) ∧ g₁.request = g.request := by
  obtain ⟨front, t, back, rfl, hb, hfront⟩ := h
  have hshort : (encodeAll front).length < oamMaximumPduSize := by
    rw [encodeAll_append, List.length_append] at hlen
    omega
  have hp : ReadsAs (ptrAt (t.encode ++ (encodeAll back ++ rest)) 0) t :=
    readsAs_of_bytesAt (bytesAt_append_left ..)
  have hitem : item onu.board .setReq (ptrAt (t.encode ++ (encodeAll back ++ rest)) 0) =
      .handover := by
    rw [item_of_instance20 (hp.branch.trans hb)]
    rfl
  obtain ⟨g₁, calls, hrun, hwalk⟩ := walk_front rfl (t.encode ++ (encodeAll back ++ rest)) g
    (fun u hu => (hfront u hu).1) hshort
  have hover := hwalk .handover (by rw [hitem]; rfl)
  rw [hitem, ← encodeAll_split] at hover
  refine ⟨g₁, calls, hover, hrun.calls_eq, ?_, ?_, hrun.request_eq⟩
  · rw [hrun.operations_eq, operations_eq_nil (fun u hu => (hfront u hu).2)]
  · intro c hc
    rw [boundaries_append]
    exact List.mem_append_left _ (hrun.offset_mem c hc)

/-! ### The condition is enough -/

theorem isSet_setWalker (v20 : Bool) : (setWalker v20).isSet = true := by
  cases v20 <;> rfl

theorem executed_eq {onu : Onu} {v20 : Bool} {mem : Buffer} {g g' : Globals} {e : Exit}
    {calls : List Call} (hreq : ctcReq onu (setWalker v20) mem g = some (e, g'))
    (hcalls : g'.calls = g.calls ++ calls) : executed onu v20 mem g = some calls := by
  rw [executed, hreq, Option.map_some, hcalls, List.drop_left]

theorem ctcReq_of_walk {onu : Onu} {w : Walker} {mem : Buffer} {g g' : Globals} {e : Exit}
    (h : walk onu w mem g = some (e, g')) (hne : e ≠ .handover) :
    ctcReq onu w mem g = some (e, g') := by
  rw [ctcReq, h]
  cases e <;> first | rfl | exact absurd rfl hne

theorem ctcReq_of_handover {onu : Onu} {w : Walker} {mem : Buffer} {g g' : Globals}
    (h : walk onu w mem g = some (.handover, g')) :
    ctcReq onu w mem g = walk onu w.base mem g' := by
  rw [ctcReq, h]

/-- **SET requests.**  Every request of wire TLVs that fits a frame and is measured as it is
written executes exactly the operations of its supported TLVs. -/
theorem set_request_executes (onu : Onu) (v20 : Bool) (tlvs : List WireTlv) (rest : Buffer)
    (g : Globals) (hlen : payloadOffset + (encodeAll tlvs).length ≤ oamMaximumPduSize + 4)
    (h : MeasuredRight onu.board v20 tlvs rest) : ExecutesExactly onu v20 tlvs rest g := by
  have hlimit : (encodeAll tlvs).length < oamMaximumPduSize := by
    simp only [payloadOffset, pduOffset, oampduHdrSize, ctcHeaderSize, oamMaximumPduSize] at hlen ⊢
    omega
  rcases h with hread | ⟨rfl, hover, hread⟩
  · have hversion : requestVersion v20 tlvs = setWalker v20 := by
      cases v20 with
      | true => rfl
      | false => rw [requestVersion, names20_of_readInFull hread]; rfl
    obtain ⟨e, g', calls, hne, hwalk, hcalls, hops, hoff⟩ :=
      walk_of_readInFull (isSet_setWalker v20) hlimit hread g
    refine ⟨calls, executed_eq (ctcReq_of_walk hwalk hne) hcalls, ?_, hoff⟩
    rw [hversion]
    exact hops
  · have hversion : requestVersion false tlvs = .setReq20 := by
      rw [requestVersion, names20_of_handedOver hover]
      rfl
    obtain ⟨g₁, calls₁, hwalk₁, hcalls₁, hops₁, hoff₁, hreq₁⟩ :=
      walk_of_handedOver rest hlimit hover g
    obtain ⟨e, g', calls, -, hwalk, hcalls, hops, hoff⟩ := walk_of_readInFull rfl hlimit hread g₁
    have hreq : ctcReq onu (setWalker false) (encodeAll tlvs ++ rest) g = some (e, g') :=
      (ctcReq_of_handover hwalk₁).trans hwalk
    refine ⟨calls₁ ++ calls, executed_eq hreq ?_, ?_, ?_⟩
    · rw [hcalls, hcalls₁, List.append_assoc]
    · rw [List.filter_append, hops₁, List.nil_append, hops, hversion, hreq₁]
      rfl
    · intro c hc
      rcases List.mem_append.mp hc with hc | hc
      · exact hoff₁ c hc
      · exact hoff c hc

/-- Port 1 by an instance of 2.0, and the multicast tag mode. -/
def instanceTlv : WireTlv :=
  ⟨0x36, 0x00, 0x00, [1], by decide, by decide, by decide, by decide⟩

def tagStripTlv : WireTlv :=
  ⟨0xC7, 0x00, 0x42, [2], by decide, by decide, by decide, by decide⟩

theorem tag_strip_request_executes :
    ExecutesExactly fiveByteOnu true [instanceTlv, tagStripTlv] [0] resetGlobals :=
  set_request_executes _ _ _ _ _ (by decide) (.inl (.inl ⟨by decide, by decide⟩))

/-- An attribute neither version knows, whose value spells the multicast tag mode. -/
def unknownTlv : WireTlv :=
  ⟨0xC7, 0x12, 0x34, [0xC7, 0x00, 0x42, 1, 2], by decide, by decide, by decide, by decide⟩

/-- The value of an unknown attribute is executed, and a TLV before an instance of 2.0 is
executed by both loops of a 2.1 request. -/
theorem value_bytes_executed :
    ¬ ExecutesExactly fiveByteOnu true [unknownTlv] [0] resetGlobals ∧
      ¬ ExecutesExactly fiveByteOnu false [tagStripTlv, instanceTlv] [0] resetGlobals := by
  constructor
  · rintro ⟨calls, hcalls, hops, -⟩
    have hmade : (executed fiveByteOnu true (encodeAll [unknownTlv] ++ [0]) resetGlobals).map
        (fun calls => (calls.filter Call.supported).length) = some 1 := by decide
    rw [hcalls, Option.map_some, hops] at hmade
    exact absurd hmade (by decide)
  · rintro ⟨calls, hcalls, hops, -⟩
    have hmade : (executed fiveByteOnu false (encodeAll [tagStripTlv, instanceTlv] ++ [0])
        resetGlobals).map (fun calls => (calls.filter Call.supported).length) = some 2 := by decide
    rw [hcalls, Option.map_some, hops] at hmade
    exact absurd hmade (by decide)

end Opconn.Oam.Ctc
