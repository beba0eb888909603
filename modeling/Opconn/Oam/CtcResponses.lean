import Opconn.Lib.Runs
import Opconn.Oam.CtcTermination

/-!
# Responses and the output index

The handlers append to whatever response is under construction, and a response
is only known to be finished by `g_usOutDataIdx` being 0.  A loop sets it back
when it sends; when it returns at the size limit, at a refused instance or
behind a reset it does not, and what it had written goes out with the response
to the next request.  Here the requests with that effect are told by the TLVs
they spell, and in every run without one each response carries the containers of
its own request.
-/

namespace Opconn.Oam.Ctc

open Runs

/-! ### Responses of their own request -/

/-- Between two PDUs the index is 0, and every response sent so far carries only
containers made for the request it answers. -/
def Responsive : Option CtcState → Prop
  | none => True
  | some s => s.globals.usOutDataIdx = 0 ∧
      ∀ r ∈ s.globals.sent, ∀ c ∈ r.containers, c.request = r.request

instance : DecidablePred Responsive
  | none => inferInstanceAs (Decidable True)
  | some s => inferInstanceAs (Decidable (s.globals.usOutDataIdx = 0 ∧
      ∀ r ∈ s.globals.sent, ∀ c ∈ r.containers, c.request = r.request))

/-! ### Requests that leave a response behind -/

/-- The TLVs a loop has read: the last of them starts below the size limit. -/
def ReadBy (board : Board) (w : Walker) (mem : Buffer) (tlvs : List Buffer) : Prop :=
  Spells board w mem 0 tlvs ∧ tlvs.dropLast.flatten.length < oamMaximumPduSize

/-- The cases that write to the response. -/
def Item.answered : Item → Bool
  | .handler _ | .unsupported _ => true
  | _ => false

/-- One of the TLVs has a handler or is answered as not supported. -/
def SomeAnswered (board : Board) (w : Walker) (tlvs : List Buffer) : Prop :=
  ∃ t ∈ tlvs, (item board w (ptrAt t 0)).answered = true

/-- The places a loop returns at without sending. -/
def Unsent (board : Board) (w : Walker) (mem : Buffer) (pos : Nat) : Prop :=
  oamMaximumPduSize ≤ pos ∨ item board w (ptrAt mem pos) = .instance20 true ∨
    item board w (ptrAt mem pos) = .reset

/-- The request makes a loop answer some TLV and then return without sending. -/
def Abandons (board : Board) (w : Walker) (mem : Buffer) : Prop :=
  (∃ tlvs, ReadBy board w mem tlvs ∧ Unsent board w mem tlvs.flatten.length ∧
    SomeAnswered board w tlvs) ∨
  (∃ tlvs tlvs', ReadBy board w mem tlvs ∧ HandsOver board w mem tlvs.flatten.length ∧
    ReadBy board w.base mem tlvs' ∧ Unsent board w.base mem tlvs'.flatten.length ∧
    (SomeAnswered board w tlvs ∨ SomeAnswered board w.base tlvs'))

/-- The PDU is a request of that kind, with what `in_data` holds behind it. -/
def LeavesResponse (onu : Onu) : Option CtcState → Pdu → Prop
  | none, _ => False
  | some s, pdu => pduAdmitted pdu.frame = true ∧
      ∃ w, requestWalker pdu.v20 (memCpyFront s.inData pdu.frame) = some w ∧
        Abandons onu.board w (payload (memCpyFront s.inData pdu.frame))

/-! ### What a round does to the response -/

/-- The response under construction and those sent belong to their requests. -/
structure OwnOutput (g : Globals) : Prop where
  written : g.usOutDataIdx ≠ 0 → ∀ c ∈ g.outData, c.request = g.request
  sent : ∀ r ∈ g.sent, ∀ c ∈ r.containers, c.request = r.request

section Effects

variable {onu : Onu} {w : Walker} {g : Globals} {c : Call} {p : Ptr} {pos : Nat}

theorem OwnOutput.logCall (h : OwnOutput g) : OwnOutput (logCall g c) := ⟨h.written, h.sent⟩

theorem OwnOutput.appendContainers (h : OwnOutput g) (hc : c.request = g.request)
    (size : UInt16) : OwnOutput (appendContainers g c size) := by
  simp only [Ctc.appendContainers]
  split
  · refine ⟨?_, h.sent⟩
    intro _ d hd
    rw [List.mem_singleton.mp hd]
    exact hc
  · rename_i hidx
    refine ⟨?_, h.sent⟩
    intro _ d hd
    rcases List.mem_append.mp hd with hd | hd
    · exact h.written hidx d hd
    · rw [List.mem_singleton.mp hd]
      exact hc

theorem OwnOutput.callHandler (h : OwnOutput g) (hc : c.request = g.request) :
    OwnOutput (callHandler onu g c) := by
  simp only [Ctc.callHandler]
  split
  · exact h.logCall.appendContainers hc _
  · exact h.logCall

theorem OwnOutput.sendResponse (h : OwnOutput g) : OwnOutput (sendResponse w g) := by
  constructor
  · intro hidx
    exact absurd rfl hidx
  · intro r hr d hd
    rcases List.mem_append.mp hr with hr | hr
    · exact h.sent r hr d hd
    · obtain rfl := List.mem_singleton.mp hr
      simp only at hd ⊢
      split at hd
      · simp at hd
      · exact h.written ‹_› d hd

theorem OwnOutput.effect (h : OwnOutput g) (i : Item) : OwnOutput (i.effect onu w p pos g) := by
  cases i with
  | instance20 refused => exact ⟨h.written, h.sent⟩
  | instance21 => exact ⟨h.written, h.sent⟩
  | handler n => exact h.callHandler rfl
  | ignored n => exact h
  | unsupported n => exact h.logCall.appendContainers rfl 8
  | reset => exact h.logCall
  | handover => exact h
  | stop => exact h.sendResponse

theorem OwnOutput.enter (h : OwnOutput g) : OwnOutput (enter w g) := by
  simp only [Ctc.enter]
  split
  · exact ⟨h.written, h.sent⟩
  · exact h

/-- Only the answered items move the index away from where it stands. -/
theorem index_effect {i : Item} (hstop : i ≠ .stop) (h : i.answered = false) :
    (i.effect onu w p pos g).usOutDataIdx = g.usOutDataIdx := by
  cases i with
  | instance20 refused => rfl
  | instance21 => rfl
  | handler n => cases h
  | ignored n => rfl
  | unsupported n => cases h
  | reset => rfl
  | handover => rfl
  | stop => exact absurd rfl hstop

@[simp] theorem index_enter : (enter w g).usOutDataIdx = g.usOutDataIdx := by
  simp only [enter]
  split <;> rfl

end Effects

/-! ### What a loop leaves behind -/

section Loops

variable {onu : Onu} {w : Walker} {mem : Buffer} {g g' : Globals} {e : Exit}

theorem walk_ownOutput (h : OwnOutput g) (hw : walk onu w mem g = some (e, g')) :
    OwnOutput g' ∧ g'.request = g.request := by
  refine Loop.run_exit (fun s => OwnOutput s.globals ∧ s.globals.request = g.request)
    (fun x => OwnOutput x.2 ∧ x.2.request = g.request) ?_ ?_ ⟨h.enter, request_enter⟩ hw
  · rintro s s' ⟨hs, hreq⟩ hstep
    obtain ⟨-, n, -, rfl⟩ := walkStep_inl hstep
    exact ⟨hs.effect _, (request_effect _).trans hreq⟩
  · rintro s ⟨e, g'⟩ ⟨hs, hreq⟩ hstep
    rcases walkStep_inr hstep with ⟨-, -, rfl⟩ | ⟨-, -, rfl⟩
    · exact ⟨hs, hreq⟩
    · exact ⟨hs.effect _, (request_effect _).trans hreq⟩

/-- Where a loop has come to: behind the TLVs it has read, with the index away from 0 only
if it was so before or one of them was answered; or at an SLA it never gets past. -/
def Behind (board : Board) (w : Walker) (mem : Buffer) (before : Prop) (s : Walk) : Prop :=
  (∃ tlvs, ReadBy board w mem tlvs ∧ tlvs.flatten.length = s.pByte ∧
    (s.globals.usOutDataIdx ≠ 0 → before ∨ SomeAnswered board w tlvs)) ∨
  (s.pByte < oamMaximumPduSize ∧ Stalls w (ptrAt mem s.pByte))

theorem behind_start : Behind onu.board w mem (g.usOutDataIdx ≠ 0) ⟨0, enter w g⟩ := by
  refine .inl ⟨[], ⟨spells_nil, by decide⟩, rfl, ?_⟩
  intro hidx
  rw [index_enter] at hidx
  exact .inl hidx

theorem ReadBy.concat {board : Board} {tlvs : List Buffer} {n : Nat}
    (h : ReadBy board w mem tlvs) (hlt : tlvs.flatten.length < oamMaximumPduSize)
    (hn : (item board w (ptrAt mem tlvs.flatten.length)).outcome = .inl n) (hpos : 0 < n) :
    ReadBy board w mem (tlvs ++ [bytesAt mem tlvs.flatten.length n]) := by
  refine ⟨h.1.append ?_, ?_⟩
  · rw [Nat.zero_add]
    exact spells_bytesAt hn hpos
  · rw [List.dropLast_concat]
    exact hlt

theorem Behind.again {before : Prop} {s s' : Walk} (h : Behind onu.board w mem before s)
    (hstep : walkStep onu w mem s = .inl s') : Behind onu.board w mem before s' := by
  obtain ⟨hlt, n, hn, rfl⟩ := walkStep_inl hstep
  rcases Nat.eq_zero_or_pos n with rfl | hpos
  · exact .inr ⟨hlt, outcome_eq_zero_iff.mp hn⟩
  · rcases h with ⟨tlvs, hread, hlen, hidx⟩ | ⟨-, hstall⟩
    · have hn' : (item onu.board w (ptrAt mem tlvs.flatten.length)).outcome = .inl n := by
        rw [hlen]
        exact hn
      have ht := isTlv_bytesAt hn' hpos
      refine .inl ⟨_, hread.concat (by omega) hn' hpos, ?_, ?_⟩
      · simp only [List.flatten_append, List.flatten_cons, List.flatten_nil, List.append_nil,
          List.length_append, length_bytesAt, hlen]
      · -- the new TLV accounts for the index, unless it stood away from 0 before
        intro hne
        have hstop : here onu w mem s.pByte ≠ .stop := by
          intro hs
          rw [hs] at hn
          cases hn
        rcases ha : (here onu w mem s.pByte).answered
        · simp only [index_effect hstop ha] at hne
          rcases hidx hne with hb | ⟨t, ht, hans⟩
          · exact .inl hb
          · exact .inr ⟨t, List.mem_append_left _ ht, hans⟩
        · refine .inr ⟨_, List.mem_append_right _ (List.mem_singleton.mpr rfl), ?_⟩
          rw [← ht.item_eq (by rw [length_bytesAt]), hlen]
          exact ha
    · have hz : (item onu.board w (ptrAt mem s.pByte)).outcome = .inl 0 :=
        outcome_eq_zero_iff.mpr hstall
      rw [here, hz] at hn
      obtain rfl := Sum.inl.inj hn
      omega

/-- **How a loop returns.**  It sends and the index is 0; or it returns or hands over
behind TLVs it has read, with the index away from 0 only if they account for it. -/
theorem walk_exit (hw : walk onu w mem g = some (e, g')) :
    (e = .sent ∧ g'.usOutDataIdx = 0) ∨
      (e ≠ .sent ∧ ∃ tlvs, ReadBy onu.board w mem tlvs ∧
        ((e ≠ .handover ∧ Unsent onu.board w mem tlvs.flatten.length) ∨
          (e = .handover ∧ HandsOver onu.board w mem tlvs.flatten.length)) ∧
        (g'.usOutDataIdx ≠ 0 → g.usOutDataIdx ≠ 0 ∨ SomeAnswered onu.board w tlvs)) := by
  refine Loop.run_exit (Behind onu.board w mem (g.usOutDataIdx ≠ 0))
    (fun x => (x.1 = .sent ∧ x.2.usOutDataIdx = 0) ∨
      (x.1 ≠ .sent ∧ ∃ tlvs, ReadBy onu.board w mem tlvs ∧
        ((x.1 ≠ .handover ∧ Unsent onu.board w mem tlvs.flatten.length) ∨
          (x.1 = .handover ∧ HandsOver onu.board w mem tlvs.flatten.length)) ∧
        (x.2.usOutDataIdx ≠ 0 → g.usOutDataIdx ≠ 0 ∨ SomeAnswered onu.board w tlvs)))
    (fun s s' hs hstep => hs.again hstep) ?_ behind_start hw
  rintro s ⟨e, g'⟩ hs hstep
  rcases walkStep_inr hstep with ⟨hge, rfl, rfl⟩ | ⟨hlt, ho, rfl⟩
  · rcases hs with ⟨tlvs, hread, hlen, hidx⟩ | ⟨hlt, -⟩
    · exact .inr ⟨by simp, tlvs, hread, .inl ⟨by simp, .inl (by omega)⟩, hidx⟩
    · omega
  · rcases hs with ⟨tlvs, hread, hlen, hidx⟩ | ⟨-, hstall⟩
    · have hat : item onu.board w (ptrAt mem tlvs.flatten.length) = here onu w mem s.pByte := by
        rw [hlen, here]
      rcases outcome_eq_inr ho with ⟨hi, rfl⟩ | ⟨hi, rfl⟩ | ⟨hi, rfl⟩ | ⟨hi, rfl⟩ <;>
        rw [hi] at hat ⊢
      · exact .inl ⟨rfl, rfl⟩
      · exact .inr ⟨by simp, tlvs, hread, .inl ⟨by simp, .inr (.inl hat)⟩, hidx⟩
      · exact .inr ⟨by simp, tlvs, hread, .inl ⟨by simp, .inr (.inr hat)⟩, hidx⟩
      · exact .inr ⟨by simp, tlvs, hread, .inr ⟨rfl, hat⟩, hidx⟩
    · have hz : (item onu.board w (ptrAt mem s.pByte)).outcome = .inl 0 :=
        outcome_eq_zero_iff.mpr hstall
      rw [here, hz] at ho
      cases ho

theorem ctcReq_ownOutput (h : OwnOutput g) (hreq : ctcReq onu w mem g = some (e, g')) :
    OwnOutput g' ∧ g'.request = g.request := by
  rcases ctcReq_cases hreq with ⟨g₁, hw, hbase⟩ | ⟨hw, -⟩
  · obtain ⟨hown, hr⟩ := walk_ownOutput h hw
    obtain ⟨hown', hr'⟩ := walk_ownOutput hown hbase
    exact ⟨hown', hr'.trans hr⟩
  · exact walk_ownOutput h hw

/-- **Requests put the index back**, unless they are of the kind that does not. -/
theorem ctcReq_index (hidx : g.usOutDataIdx = 0) (hkind : ¬ Abandons onu.board w mem)
    (hreq : ctcReq onu w mem g = some (e, g')) : g'.usOutDataIdx = 0 := by
  by_contra hne
  apply hkind
  rcases ctcReq_cases hreq with ⟨g₁, hw, hbase⟩ | ⟨hw, hover⟩
  · right
    rcases walk_exit hw with ⟨he, -⟩ | ⟨-, tlvs, hread, hplace, hacc⟩
    · cases he
    · rcases hplace with ⟨he, -⟩ | ⟨-, hhands⟩
      · exact absurd rfl he
      · rcases walk_exit hbase with ⟨-, hz⟩ | ⟨-, tlvs', hread', hplace', hacc'⟩
        · exact absurd hz hne
        · rcases hplace' with ⟨-, hunsent⟩ | ⟨-, hhands'⟩
          · refine ⟨tlvs, tlvs', hread, hhands, hread', hunsent, ?_⟩
            rcases hacc' hne with hne₁ | hans
            · rcases hacc hne₁ with hne₀ | hans
              · exact absurd hidx hne₀
              · exact .inl hans
            · exact .inr hans
          · exact absurd hhands' (item_base_ne_handover _)
  · left
    rcases walk_exit hw with ⟨-, hz⟩ | ⟨-, tlvs, hread, hplace, hacc⟩
    · exact absurd hz hne
    · rcases hplace with ⟨-, hunsent⟩ | ⟨he, -⟩
      · rcases hacc hne with hne₀ | hans
        · exact absurd hidx hne₀
        · exact ⟨tlvs, hread, hunsent, hans⟩
      · exact absurd he hover

end Loops

/-! ### Requests that are answered -/

/-- The way ahead is the same from every TLV boundary. -/
theorem Ahead.of_spells {board : Board} {w : Walker} {mem : Buffer} {stop pos : Nat} {e : Exit}
    {tlvs : List Buffer} (h : Ahead board w mem stop e pos)
    (hspells : Spells board w mem pos tlvs) :
    Ahead board w mem stop e (pos + tlvs.flatten.length) := by
  induction tlvs generalizing pos with
  | nil => exact h
  | cons t ts ih =>
    obtain ⟨ht, hbytes, hts⟩ := spells_cons_iff.mp hspells
    have hout : (item board w (ptrAt mem pos)).outcome = .inl t.length := by
      rw [ht.item_eq hbytes]
      exact ht
    rcases h.cases with ⟨-, he⟩ | ⟨n, -, hn, hahead⟩
    · rw [hout] at he
      cases he
    · rw [hout] at hn
      obtain rfl := Sum.inl.inj hn
      rw [List.flatten_cons, List.length_append, ← Nat.add_assoc]
      exact ih hahead hts

/-- A request that spells TLVs up to a byte that is no branch leaves nothing behind. -/
theorem not_abandons_of_ahead {board : Board} {w : Walker} {mem : Buffer} {stop : Nat}
    (h : Ahead board w mem stop .sent 0) (hlimit : stop < oamMaximumPduSize) :
    ¬ Abandons board w mem := by
  have hplace : ∀ tlvs, ReadBy board w mem tlvs → tlvs.flatten.length ≤ stop ∧
      ∀ e, (item board w (ptrAt mem tlvs.flatten.length)).outcome = .inr e → e = .sent := by
    intro tlvs hread
    have hahead := h.of_spells hread.1
    rw [Nat.zero_add] at hahead
    refine ⟨hahead.le, ?_⟩
    intro e he
    rcases hahead.cases with ⟨-, hs⟩ | ⟨n, -, hn, -⟩
    · rw [hs] at he
      exact (Sum.inr.inj he).symm
    · rw [hn] at he
      cases he
  rintro (⟨tlvs, hread, hunsent, -⟩ | ⟨tlvs, -, hread, hhands, -⟩)
  · obtain ⟨hle, hexit⟩ := hplace tlvs hread
    rcases hunsent with hge | hi | hi
    · omega
    · cases hexit .badInstance (by rw [hi]; rfl)
    · cases hexit .reset (by rw [hi]; rfl)
  · obtain ⟨-, hexit⟩ := hplace tlvs hread
    rw [HandsOver] at hhands
    cases hexit .handover (by rw [hhands]; rfl)

/-! ### Runs -/

/-- After one PDU that is not of that kind. -/
theorem ctcReceive_responsive {onu : Onu} {s : Option CtcState} {pdu : Pdu} (h : Responsive s)
    (hpdu : ¬ LeavesResponse onu s pdu) : Responsive (ctcReceive onu s pdu) := by
  rcases s with _ | s
  · trivial
  · obtain ⟨hidx, hsent⟩ := h
    simp only [ctcReceive]
    split
    · rename_i hadm
      rcases hw : requestWalker pdu.v20 (memCpyFront s.inData pdu.frame) with _ | w
      · simp only [eoplCtcPduProcess, hw, Option.map_some]
        exact ⟨hidx, hsent⟩
      · rw [eoplCtcPduProcess_eq onu pdu.v20 _ _ hw]
        rcases hreq : ctcReq onu w (payload (memCpyFront s.inData pdu.frame))
          (nextRequest s.globals) with _ | ⟨e, g'⟩
        · trivial
        · -- a new request finds no response under construction
          have hstart : (nextRequest s.globals).usOutDataIdx = 0 := hidx
          have hown : OwnOutput (nextRequest s.globals) := ⟨fun hne => absurd hstart hne, hsent⟩
          have hkind : ¬ Abandons onu.board w (payload (memCpyFront s.inData pdu.frame)) := by
            intro hab
            exact hpdu ⟨hadm, w, hw, hab⟩
          exact ⟨ctcReq_index hstart hkind hreq, (ctcReq_ownOutput hown hreq).1.sent⟩
    · exact ⟨hidx, hsent⟩

/-- The state before the first PDU: static storage. -/
def ctcInit : CtcState := ⟨List.replicate (oamMaximumPduSize + 4) 0, resetGlobals⟩

/-- **Responses of their own request.**  In every run of PDUs none of which leaves a
response behind, the index is 0 whenever a request function has returned, and every
response carries only containers of its own request. -/
theorem responses_own_request (onu : Onu) (pdus : List Pdu)
    (h : AllSteps (ctcReceive onu) (fun s pdu => ¬ LeavesResponse onu s pdu) (some ctcInit) pdus) :
    AllStates (ctcReceive onu) Responsive (some ctcInit) pdus := by
  refine allStates_of_allSteps (ctcReceive onu) Responsive ?_ ?_ h
  · intro s pdu hs hpdu
    exact ctcReceive_responsive hs hpdu
  · refine ⟨rfl, ?_⟩
    intro r hr
    cases hr

/-- The handlers answer with the 42 bytes of the serial number. -/
def serialNumberOnu : Onu := ⟨.fourPort, fun _ => some 42⟩

/-- A GET of the serial number. -/
def getSerialNumber : Pdu := ⟨true, requestFrame oamExtCodeGetRequest [0xC7, 0x00, 0x01]⟩

/-- The same with an instance behind it that the board does not have. -/
def getWithBadInstance : Pdu :=
  ⟨true, requestFrame oamExtCodeGetRequest [0xC7, 0x00, 0x01, 0x36, 0x00, 0x00, 1, 0xFE]⟩

theorem serial_number_responsive :
    AllStates (ctcReceive serialNumberOnu) Responsive (some ctcInit) [getSerialNumber] := by
  apply responses_own_request
  refine ⟨?_, trivial⟩
  rintro ⟨-, w, hw, hab⟩
  have hget : requestWalker true (memCpyFront ctcInit.inData getSerialNumber.frame) =
      some .getReq20 := by decide
  obtain rfl := Option.some.inj (hget.symm.trans hw)
  have hahead : Ahead serialNumberOnu.board .getReq20
      (payload (memCpyFront ctcInit.inData getSerialNumber.frame)) 3 .sent 0 :=
    ⟨[[0xC7, 0x00, 0x01]], ⟨by decide, by decide⟩, by decide, by decide⟩
  exact not_abandons_of_ahead hahead (by decide) hab

/-- Behind a GET with a bad instance the index is not 0, and the next response carries
what was written for it. -/
theorem bad_instance_leaves_response :
    ¬ AllStates (ctcReceive serialNumberOnu) Responsive (some ctcInit)
      [getWithBadInstance, getSerialNumber] := by
  decide

end Opconn.Oam.Ctc
