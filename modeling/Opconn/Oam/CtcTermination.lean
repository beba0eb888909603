import Opconn.Oam.CtcTlvs

/-!
# When a TLV walk stops

The loops know neither the length of the frame nor that every case moves the
cursor: an SLA with an unknown operation keeps the 2.1 SET where it is for ever,
and a request without an end byte is read on into what earlier frames left in
`in_data`.  The frames on which a request function does stop, inside the frame
and with every round moving forward, are those that spell a list of TLVs up to a
byte the loop returns at.
-/

namespace Opconn.Oam.Ctc

/-! ### What is asked of a walk -/

/-- One loop leaves; until then every round starts below `len` and moves the cursor. -/
structure StopsWithin (onu : Onu) (w : Walker) (mem : Buffer) (len : Nat) (g : Globals) :
    Prop where
  leaves : Loop.Leaves (walkStep onu w mem) ⟨0, enter w g⟩
  inside : ∀ s, Loop.Reaches (walkStep onu w mem) ⟨0, enter w g⟩ s → s.pByte < len
  forward : ∀ s s', Loop.Reaches (walkStep onu w mem) ⟨0, enter w g⟩ s →
    walkStep onu w mem s = .inl s' → s.pByte < s'.pByte

/-- A request function stops: its loop does, and so does the 2.0 loop it may hand over to. -/
def RequestStops (onu : Onu) (w : Walker) (mem : Buffer) (len : Nat) (g : Globals) : Prop :=
  StopsWithin onu w mem len g ∧
    ∀ g', walk onu w mem g = some (.handover, g') → StopsWithin onu w.base mem len g'

/-! ### What the frame has to spell -/

/-- The loop returns at this byte: it is no branch, or a refused instance, or a reset. -/
def Ends (board : Board) (w : Walker) (mem : Buffer) (pos : Nat) : Prop :=
  item board w (ptrAt mem pos) = .stop ∨ item board w (ptrAt mem pos) = .instance20 true ∨
    item board w (ptrAt mem pos) = .reset

/-- A 2.1 loop meets an instance of 2.0. -/
def HandsOver (board : Board) (w : Walker) (mem : Buffer) (pos : Nat) : Prop :=
  item board w (ptrAt mem pos) = .handover

/-- The first `len` bytes start with TLVs up to a place that `P` holds of. -/
def TlvsUpTo (board : Board) (w : Walker) (mem : Buffer) (len : Nat) (P : Nat → Prop) : Prop :=
  ∃ tlvs, Spells board w mem 0 tlvs ∧ tlvs.flatten.length < len ∧ P tlvs.flatten.length

/-- The frame is a list of TLVs and an end; one that makes a 2.1 loop hand over is so to
the 2.1 loop up to there, and to the 2.0 loop throughout. -/
def Framed (board : Board) (w : Walker) (mem : Buffer) (len : Nat) : Prop :=
  TlvsUpTo board w mem len (Ends board w mem) ∨
    (TlvsUpTo board w mem len (HandsOver board w mem) ∧
      TlvsUpTo board w.base mem len (Ends board w.base mem))

/-! ### The way to an exit -/

/-- From `pos` TLVs lead to `stop`, where the loop leaves by `e`. -/
def Ahead (board : Board) (w : Walker) (mem : Buffer) (stop : Nat) (e : Exit) (pos : Nat) : Prop :=
  ∃ tlvs, Spells board w mem pos tlvs ∧ pos + tlvs.flatten.length = stop ∧
    (item board w (ptrAt mem stop)).outcome = .inr e

section Ahead

variable {onu : Onu} {w : Walker} {mem : Buffer} {stop : Nat} {e : Exit} {s s' : Walk}

theorem Ahead.le {board : Board} {pos : Nat} (h : Ahead board w mem stop e pos) : pos ≤ stop := by
  obtain ⟨tlvs, -, hsum, -⟩ := h
  omega

/-- A place with an exit ahead is the exit itself or the start of a TLV. -/
theorem Ahead.cases {board : Board} {pos : Nat} (h : Ahead board w mem stop e pos) :
    (pos = stop ∧ (item board w (ptrAt mem pos)).outcome = .inr e) ∨
      ∃ n, 0 < n ∧ (item board w (ptrAt mem pos)).outcome = .inl n ∧
        Ahead board w mem stop e (pos + n) := by
  obtain ⟨tlvs, hspells, hsum, hexit⟩ := h
  rcases tlvs with _ | ⟨t, ts⟩
  · left
    simp only [List.flatten_nil, List.length_nil, Nat.add_zero] at hsum
    subst hsum
    exact ⟨rfl, hexit⟩
  · right
    obtain ⟨ht, hbytes, hts⟩ := spells_cons_iff.mp hspells
    refine ⟨t.length, ht.length_pos, ?_, ts, hts, ?_, hexit⟩
    · rw [ht.item_eq hbytes]
      exact ht
    · simp only [List.flatten_cons, List.length_append] at hsum
      omega

theorem Ahead.again (hs : Ahead onu.board w mem stop e s.pByte)
    (hstep : walkStep onu w mem s = .inl s') :
    Ahead onu.board w mem stop e s'.pByte ∧ s.pByte < s'.pByte := by
  obtain ⟨-, n, hn, rfl⟩ := walkStep_inl hstep
  rcases hs.cases with ⟨-, he⟩ | ⟨m, hpos, hm, hahead⟩
  · rw [here, he] at hn
    cases hn
  · rw [here, hm] at hn
    obtain rfl := Sum.inl.inj hn
    exact ⟨hahead, by simp only; omega⟩

theorem Ahead.exit {x : Exit × Globals} (hs : Ahead onu.board w mem stop e s.pByte)
    (hlimit : stop < oamMaximumPduSize) (hstep : walkStep onu w mem s = .inr x) : x.1 = e := by
  have hle := hs.le
  rcases walkStep_inr hstep with ⟨hge, -, -⟩ | ⟨-, ho, -⟩
  · omega
  · rcases hs.cases with ⟨-, he⟩ | ⟨m, -, hm, -⟩
    · rw [here, he] at ho
      exact (Sum.inr.inj ho).symm
    · rw [here, hm] at ho
      cases ho

/-- **A spelled request is walked to its end.** -/
theorem Ahead.walk {g : Globals} (h : Ahead onu.board w mem stop e 0)
    (hlimit : stop < oamMaximumPduSize) : ∃ g', walk onu w mem g = some (e, g') := by
  have hinv : ∀ s s', Ahead onu.board w mem stop e s.pByte → walkStep onu w mem s = .inl s' →
      Ahead onu.board w mem stop e s'.pByte := fun s s' hs hstep => (hs.again hstep).1
  rcases hw : Ctc.walk onu w mem g with _ | ⟨e', g'⟩
  · obtain ⟨s, hreach, -, hstall⟩ := walk_eq_none_iff.mp hw
    have hs : Ahead onu.board w mem stop e s.pByte :=
      hreach.invariant (fun s => Ahead onu.board w mem stop e s.pByte) hinv h
    have hz : (item onu.board w (ptrAt mem s.pByte)).outcome = .inl 0 :=
      outcome_eq_zero_iff.mpr hstall
    rcases hs.cases with ⟨-, he⟩ | ⟨n, hpos, hn, -⟩
    · rw [hz] at he
      cases he
    · rw [hz] at hn
      obtain rfl := Sum.inl.inj hn
      omega
  · have hexit : e' = e :=
      Loop.run_exit (fun s => Ahead onu.board w mem stop e s.pByte) (fun x => x.1 = e) hinv
        (fun s x hs hstep => hs.exit hlimit hstep) h hw
    exact ⟨g', by rw [hexit]⟩

theorem Ahead.stopsWithin {g : Globals} {len : Nat} (h : Ahead onu.board w mem stop e 0)
    (hlimit : stop < oamMaximumPduSize) (hlen : stop < len) : StopsWithin onu w mem len g := by
  have hreached : ∀ s, Loop.Reaches (walkStep onu w mem) ⟨0, enter w g⟩ s →
      Ahead onu.board w mem stop e s.pByte := by
    intro s hreach
    exact hreach.invariant (fun s => Ahead onu.board w mem stop e s.pByte)
      (fun s s' hs hstep => (hs.again hstep).1) h
  constructor
  · obtain ⟨g', hw⟩ := h.walk hlimit
    exact ⟨_, _, hw⟩
  · intro s hreach
    have hle := (hreached s hreach).le
    omega
  · intro s s' hreach hstep
    exact ((hreached s hreach).again hstep).2

end Ahead

/-! ### From a walk that stops to what its frame spells -/

section Converse

variable {onu : Onu} {w : Walker} {mem : Buffer} {len : Nat} {g : Globals}

/-- The induction is on the bytes left in the frame: every round shortens them. -/
theorem StopsWithin.ahead_of_reaches (h : StopsWithin onu w mem len g)
    (hlimit : len ≤ oamMaximumPduSize) (fuel : Nat) {s : Walk}
    (hreach : Loop.Reaches (walkStep onu w mem) ⟨0, enter w g⟩ s)
    (hfuel : len - s.pByte ≤ fuel) :
    ∃ stop e, stop < len ∧ Ahead onu.board w mem stop e s.pByte := by
  have hin := h.inside s hreach
  induction fuel generalizing s with
  | zero => omega
  | succ fuel ih =>
    rcases ho : (here onu w mem s.pByte).outcome with n | e
    · have hstep := walkStep_of_inl (by omega) ho
      have hreach' := Relation.ReflTransGen.tail hreach hstep
      have hforward := h.forward s _ hreach hstep
      have hin' := h.inside _ hreach'
      simp only at hforward hin'
      obtain ⟨stop, e, hstop, tlvs, hspells, hsum, hexit⟩ := ih hreach' (by simp only; omega) hin'
      have ht : Spells onu.board w mem s.pByte [bytesAt mem s.pByte n] :=
        spells_bytesAt ho (by omega)
      refine ⟨stop, e, hstop, [bytesAt mem s.pByte n] ++ tlvs, ht.append ?_, ?_, hexit⟩
      · simpa using hspells
      · simp only [List.flatten_append, List.flatten_cons, List.flatten_nil, List.append_nil,
          List.length_append, length_bytesAt] at hsum ⊢
        omega
    · refine ⟨s.pByte, e, hin, [], spells_nil, ?_, ho⟩
      simp

theorem stopsWithin_iff (hlimit : len ≤ oamMaximumPduSize) :
    StopsWithin onu w mem len g ↔ ∃ stop e, stop < len ∧ Ahead onu.board w mem stop e 0 := by
  constructor
  · intro h
    exact h.ahead_of_reaches hlimit len (Loop.Reaches.refl _) (by simp)
  · rintro ⟨stop, e, hstop, hahead⟩
    exact hahead.stopsWithin (by omega) hstop

end Converse

/-! ### Exits and items -/

section Exits

variable {board : Board} {w : Walker} {mem : Buffer} {len : Nat}

theorem Walker.base_isV20 (w : Walker) : w.base.isV20 = true := by
  cases w <;> rfl

/-- A 2.0 loop does not hand over. -/
theorem item_base_ne_handover (p : Ptr) : item board w.base p ≠ .handover := by
  intro h
  have hleaf : ∀ table unknown, leafItem table unknown p ≠ .handover := by
    intro table unknown
    simp only [leafItem]
    repeat' split
    all_goals simp
  rcases branch_cases (p 0) with hb | hb | hb | hb | ⟨h20, h21, hattrib, haction⟩
  · rw [item_of_instance20 hb, if_pos w.base_isV20] at h
    cases h
  · rw [item_of_instance21 hb, if_pos w.base_isV20] at h
    cases h
  · rw [item_of_attrib hb] at h
    exact hleaf _ _ h
  · rw [item_of_action hb, actionItem] at h
    split at h
    · split at h
      · cases h
      · exact hleaf _ _ h
    · cases h
  · rw [item_of_other h20 h21 hattrib haction] at h
    cases h

theorem outcome_eq_inr {i : Item} {e : Exit} (h : i.outcome = .inr e) :
    (i = .stop ∧ e = .sent) ∨ (i = .instance20 true ∧ e = .badInstance) ∨
      (i = .reset ∧ e = .reset) ∨ (i = .handover ∧ e = .handover) := by
  rcases i with (_ | _) | _ | n | n | n | _ | _ | _ <;>
    simp only [Item.outcome, Sum.inr.injEq, reduceCtorEq] at h <;> subst h <;> simp

theorem ends_or_handsOver {pos : Nat} {e : Exit}
    (h : (item board w (ptrAt mem pos)).outcome = .inr e) :
    (Ends board w mem pos ∧ e ≠ .handover) ∨ (HandsOver board w mem pos ∧ e = .handover) := by
  rcases outcome_eq_inr h with ⟨hi, rfl⟩ | ⟨hi, rfl⟩ | ⟨hi, rfl⟩ | ⟨hi, rfl⟩
  · exact .inl ⟨.inl hi, by decide⟩
  · exact .inl ⟨.inr (.inl hi), by decide⟩
  · exact .inl ⟨.inr (.inr hi), by decide⟩
  · exact .inr ⟨hi, rfl⟩

theorem Ends.outcome {pos : Nat} (h : Ends board w mem pos) :
    ∃ e, e ≠ .handover ∧ (item board w (ptrAt mem pos)).outcome = .inr e := by
  rcases h with h | h | h
  · exact ⟨.sent, by decide, by rw [h]; rfl⟩
  · exact ⟨.badInstance, by decide, by rw [h]; rfl⟩
  · exact ⟨.reset, by decide, by rw [h]; rfl⟩

/-- TLVs up to a place, as the way ahead from the start. -/
theorem TlvsUpTo.ahead {P : Nat → Prop} (h : TlvsUpTo board w mem len P) :
    ∃ stop, stop < len ∧ P stop ∧ ∀ e, (item board w (ptrAt mem stop)).outcome = .inr e →
      Ahead board w mem stop e 0 := by
  obtain ⟨tlvs, hspells, hlen, hP⟩ := h
  refine ⟨_, hlen, hP, ?_⟩
  intro e he
  exact ⟨tlvs, hspells, Nat.zero_add _, he⟩

theorem Ahead.tlvsUpTo {P : Nat → Prop} {stop : Nat} {e : Exit}
    (h : Ahead board w mem stop e 0) (hlen : stop < len) (hP : P stop) :
    TlvsUpTo board w mem len P := by
  obtain ⟨tlvs, hspells, hsum, -⟩ := h
  rw [Nat.zero_add] at hsum
  exact ⟨tlvs, hspells, by omega, by rw [hsum]; exact hP⟩

end Exits

/-! ### The exact condition -/

theorem requestStops_iff {onu : Onu} {w : Walker} {mem : Buffer} {len : Nat} {g : Globals}
    (hlimit : len ≤ oamMaximumPduSize) :
    RequestStops onu w mem len g ↔ Framed onu.board w mem len := by
  constructor
  · rintro ⟨hloop, hover⟩
    obtain ⟨stop, e, hstop, hahead⟩ := (stopsWithin_iff hlimit).mp hloop
    have hexit : (item onu.board w (ptrAt mem stop)).outcome = .inr e := by
      obtain ⟨-, -, -, hexit⟩ := hahead
      exact hexit
    rcases ends_or_handsOver hexit with ⟨hends, -⟩ | ⟨hhands, rfl⟩
    · exact .inl (hahead.tlvsUpTo hstop hends)
    · -- the 2.1 loop hands over, so the second loop runs and stops too
      right
      refine ⟨hahead.tlvsUpTo hstop hhands, ?_⟩
      obtain ⟨g', hw⟩ := hahead.walk (g := g) (by omega)
      obtain ⟨stop', e', hstop', hahead'⟩ := (stopsWithin_iff hlimit).mp (hover g' hw)
      have hexit' : (item onu.board w.base (ptrAt mem stop')).outcome = .inr e' := by
        obtain ⟨-, -, -, hexit'⟩ := hahead'
        exact hexit'
      rcases ends_or_handsOver hexit' with ⟨hends, -⟩ | ⟨hhands', -⟩
      · exact hahead'.tlvsUpTo hstop' hends
      · exact absurd hhands' (item_base_ne_handover _)
  · rintro (hends | ⟨hhands, hbase⟩)
    · obtain ⟨stop, hstop, hend, hahead⟩ := hends.ahead
      obtain ⟨e, hne, he⟩ := hend.outcome
      refine ⟨(hahead e he).stopsWithin (by omega) hstop, ?_⟩
      intro g' hw
      obtain ⟨g'', hw'⟩ := (hahead e he).walk (g := g) (by omega)
      rw [hw'] at hw
      exact absurd (Prod.mk.inj (Option.some.inj hw)).1 hne
    · obtain ⟨stop, hstop, hhand, hahead⟩ := hhands.ahead
      have he : (item onu.board w (ptrAt mem stop)).outcome = .inr .handover := by
        rw [HandsOver] at hhand
        rw [hhand]
        rfl
      refine ⟨(hahead _ he).stopsWithin (by omega) hstop, ?_⟩
      intro g' _
      obtain ⟨stop', hstop', hend', hahead'⟩ := hbase.ahead
      obtain ⟨e', -, he'⟩ := hend'.outcome
      exact (hahead' e' he').stopsWithin (by omega) hstop'

/-- **Which frames stop their walk.**  For every frame that is let through, whatever older
frames left behind it in `in_data`: each loop leaves, stays inside the frame and moves in
every round, exactly when the frame spells TLVs up to an end. -/
theorem request_stops_in_frame_iff (onu : Onu) (w : Walker) (buf frame : Buffer) (g : Globals)
    (hframe : pduAdmitted frame = true) :
    RequestStops onu w (payload (memCpyFront buf frame)) (frame.length - payloadOffset) g ↔
      Framed onu.board w (payload (memCpyFront buf frame)) (frame.length - payloadOffset) := by
  apply requestStops_iff
  have hlen : frame.length ≤ oamMaximumPduSize + 4 := by
    rw [pduAdmitted, Bool.and_eq_true] at hframe
    exact of_decide_eq_true hframe.2
  simp only [oamMaximumPduSize, payloadOffset, pduOffset, oampduHdrSize, ctcHeaderSize] at hlen ⊢
  omega

/-- An organisation-specific PDU behind the host header: the slow-protocol addresses and
type, flags of a completed discovery, and the code. -/
def orgSpecHeader : Buffer :=
  [0, 0, 0, 0, 0x01, 0x80, 0xC2, 0, 0, 2, 0, 0x0C, 0xD5, 0, 0, 1, 0x88, 0x09, 0x03, 0, 0x50,
    oamCodeOrgSpec]

/-- A request in a frame of the least size. -/
def requestFrame (code : UInt8) (tlvs : Buffer) : Buffer :=
  orgSpecHeader ++ ctcOui ++ code :: tlvs ++ List.replicate (38 - tlvs.length) 0

/-- Handlers that append one container of five bytes each. -/
def fiveByteOnu : Onu := ⟨.fourPort, fun _ => some 5⟩

def resetGlobals : Globals := ⟨0, [], 0, [0, 0, 0, 0], 0, [], []⟩

/-- A SET of the multicast tag mode stops. -/
theorem tag_strip_request_stops :
    pduAdmitted (requestFrame oamExtCodeSetRequest [0xC7, 0x00, 0x42, 1, 2]) = true ∧
      RequestStops fiveByteOnu .setReq20
        (payload (memCpyFront [] (requestFrame oamExtCodeSetRequest [0xC7, 0x00, 0x42, 1, 2])))
        ((requestFrame oamExtCodeSetRequest [0xC7, 0x00, 0x42, 1, 2]).length - payloadOffset)
        resetGlobals := by
  refine ⟨by decide, (request_stops_in_frame_iff _ _ _ _ _ (by decide)).mpr (.inl ?_)⟩
  exact ⟨[[0xC7, 0x00, 0x42, 1, 2]], ⟨by decide, by decide⟩, by decide, .inl (by decide)⟩

/-- An SLA with operation 2 hangs the 2.1 SET. -/
theorem unknown_sla_operation_hangs :
    pduAdmitted (requestFrame oamExtCodeSetRequest [0xC7, 0x00, 0x06, 1, 2]) = true ∧
      ¬ RequestStops fiveByteOnu .setReq
        (payload (memCpyFront [] (requestFrame oamExtCodeSetRequest [0xC7, 0x00, 0x06, 1, 2])))
        ((requestFrame oamExtCodeSetRequest [0xC7, 0x00, 0x06, 1, 2]).length - payloadOffset)
        resetGlobals := by
  refine ⟨by decide, ?_⟩
  rintro ⟨⟨⟨fuel, e, hrun⟩, -, -⟩, -⟩
  rw [run_of_stalls (by decide) (by decide)] at hrun
  cases hrun

end Opconn.Oam.Ctc
