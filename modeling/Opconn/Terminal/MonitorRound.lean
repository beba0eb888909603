import Mathlib.Data.List.Induction
import Opconn.Lib.Loop
import Opconn.Terminal.UartRing

/-!
# A round over the serial ports

`ts_serial_monitor_thread` goes over the four ports with the loop variable `i`, and the loop that
copies the bytes of a port counts with `i` too.  Which port comes next depends on how many bytes
the last one had.  The ring and the counters of a port are picked before the copying begins, so
the bytes themselves always go to the ring of their port.
-/

namespace Opconn.Terminal

open Loop

/-- What the thread finds at a port: the bytes that `portComRecv` returns, and how far the other
thread has read the port's ring by then. -/
structure PortRead where
  bytes : List UInt8
  le : bytes.length ≤ 1024
  rdPos : Nat
  rdCount : UInt32

/-- The variables of the thread, the rings, the counters of the servers and the messages sent.
`order` are the ports read since the round began. -/
structure RoundState where
  i : Nat
  offset : Nat
  rings : TermId → UartRing
  rxCharCnt : TermId → UInt32
  sent : Nat
  order : List TermId

def RoundState.putRing (s : RoundState) (t : TermId) (r : UartRing) : RoundState :=
  { s with rings := Function.update s.rings t r }

@[simp] theorem putRing_self (s : RoundState) (t : TermId) (r : UartRing) :
    (s.putRing t r).rings t = r := by
  simp only [RoundState.putRing, Function.update_self]

theorem putRing_of_ne (s : RoundState) {t p : TermId} (hp : p ≠ t) (r : UartRing) :
    (s.putRing t r).rings p = s.rings p := by
  simp only [RoundState.putRing, Function.update_of_ne hp]

/-- One round of the loop that copies. -/
def copyByte (t : TermId) (buffer : Bool) (s : RoundState) (byte : UInt8) : RoundState :=
  if buffer then
    { s.putRing t { s.rings t with
        data := Function.update (s.rings t).data s.offset byte
        wrCount := (s.rings t).wrCount + 1 } with
      i := s.i + 1
      offset := (s.offset + 1) % uartMaxSize
      rxCharCnt := Function.update s.rxCharCnt t (s.rxCharCnt t + 1) }
  else { s with i := s.i + 1 }

/-- The test for room, and the start of the loop that copies. -/
def beginChunk (t : TermId) (s : RoundState) : RoundState :=
  if (s.rings t).full then { s with i := 0 } else { s with i := 0, offset := (s.rings t).wrPos }

/-- The bytes of a port copied into its ring, or dropped when it has no room. -/
def storeChunk (t : TermId) (bytes : List UInt8) (s : RoundState) : RoundState :=
  let copied := bytes.foldl (copyByte t !(s.rings t).full) (beginChunk t s)
  copied.putRing t { copied.rings t with wrPos := copied.offset }

/-- The message to the thread that sends. -/
def notify (enabled : TermId → Bool) (t : TermId) (s : RoundState) : RoundState :=
  if enabled t && (s.rings t).wrCount - (s.rings t).rdCount ≠ 0 then { s with sent := s.sent + 1 }
  else s

/-- What `portComRecv` finds at a port. -/
def RoundState.found (s : RoundState) (t : TermId) (r : PortRead) : RoundState :=
  { s.putRing t { s.rings t with rdPos := r.rdPos, rdCount := r.rdCount } with
    order := s.order ++ [t] }

def RoundState.next (s : RoundState) : RoundState := { s with i := s.i + 1 }

/-- The body of the loop over the ports, and its `i++`. -/
def readPort (enabled : TermId → Bool) (t : TermId) (r : PortRead) (s : RoundState) : RoundState :=
  if r.bytes.length > 0 then (notify enabled t (storeChunk t r.bytes (s.found t r))).next
  else (s.found t r).next

section Rounds

variable (enabled : TermId → Bool) (reads : Nat → TermId → PortRead)

/-- The loop over the ports. -/
def roundStep (s : RoundState) : RoundState ⊕ RoundState :=
  if h : s.i < 4 then .inl (readPort enabled ⟨s.i, h⟩ (reads s.order.length ⟨s.i, h⟩) s) else .inr s

/-- The loop begins. -/
def RoundState.begin (s : RoundState) : RoundState := { s with i := 0, order := [] }

end Rounds

/-! ### Where the bytes go -/

/-- Positions are inside of the rings. -/
structure RoundState.Valid (s : RoundState) : Prop where
  offset : s.offset < uartMaxSize
  wrPos : ∀ t, (s.rings t).wrPos < uartMaxSize

/-- The bytes are in the ring of the port, behind what was written before, and counted for it. -/
structure Stored (t : TermId) (bytes : List UInt8) (s s' : RoundState) : Prop where
  segment : Ring.segment (s'.rings t).data uartMaxSize (s.rings t).wrPos bytes.length = bytes
  outside : ∀ q, (∀ j < bytes.length, ((s.rings t).wrPos + j) % uartMaxSize ≠ q) →
    (s'.rings t).data q = (s.rings t).data q
  wrCount : (s'.rings t).wrCount = (s.rings t).wrCount + UInt32.ofNat bytes.length
  rxCharCnt : s'.rxCharCnt t = s.rxCharCnt t + UInt32.ofNat bytes.length

/-- The ring had no room: nothing is stored and nothing counted. -/
structure Dropped (t : TermId) (s s' : RoundState) : Prop where
  data : (s'.rings t).data = (s.rings t).data
  wrCount : (s'.rings t).wrCount = (s.rings t).wrCount
  rxCharCnt : s'.rxCharCnt t = s.rxCharCnt t

/-- The bytes of a port go nowhere but to the ring and the counters of this port. -/
structure OnlyPort (t : TermId) (bytes : List UInt8) (s s' : RoundState) : Prop where
  rings : ∀ p, p ≠ t → s'.rings p = s.rings p
  counts : ∀ p, p ≠ t → s'.rxCharCnt p = s.rxCharCnt p
  own : Stored t bytes s s' ∨ Dropped t s s'

/-! ### Copying -/

theorem copyByte_i (t : TermId) (buffer : Bool) (s : RoundState) (byte : UInt8) :
    (copyByte t buffer s byte).i = s.i + 1 := by
  rw [copyByte]
  split <;> rfl

theorem copyByte_order (t : TermId) (buffer : Bool) (s : RoundState) (byte : UInt8) :
    (copyByte t buffer s byte).order = s.order := by
  rw [copyByte]
  split <;> rfl

theorem copyBytes_i (t : TermId) (buffer : Bool) (bytes : List UInt8) (s : RoundState) :
    (bytes.foldl (copyByte t buffer) s).i = s.i + bytes.length := by
  induction bytes generalizing s with
  | nil => rfl
  | cons byte bytes ih =>
    rw [List.foldl_cons, ih, copyByte_i, List.length_cons]
    omega

theorem copyBytes_order (t : TermId) (buffer : Bool) (bytes : List UInt8) (s : RoundState) :
    (bytes.foldl (copyByte t buffer) s).order = s.order := by
  induction bytes generalizing s with
  | nil => rfl
  | cons byte bytes ih => rw [List.foldl_cons, ih, copyByte_order]

theorem copyBytes_dropped (t : TermId) (bytes : List UInt8) (s : RoundState) :
    bytes.foldl (copyByte t false) s = { s with i := s.i + bytes.length } := by
  induction bytes generalizing s with
  | nil => rfl
  | cons byte bytes ih =>
    rw [List.foldl_cons, ih, List.length_cons, Nat.add_comm bytes.length, ← Nat.add_assoc]
    rfl

/-- What copying some bytes into the ring of a port does. -/
structure Copied (t : TermId) (bytes : List UInt8) (s s' : RoundState) : Prop where
  rings : ∀ p, p ≠ t → s'.rings p = s.rings p
  counts : ∀ p, p ≠ t → s'.rxCharCnt p = s.rxCharCnt p
  segment : Ring.segment (s'.rings t).data uartMaxSize s.offset bytes.length = bytes
  outside : ∀ q, (∀ j < bytes.length, (s.offset + j) % uartMaxSize ≠ q) →
    (s'.rings t).data q = (s.rings t).data q
  wrCount : (s'.rings t).wrCount = (s.rings t).wrCount + UInt32.ofNat bytes.length
  rxCharCnt : s'.rxCharCnt t = s.rxCharCnt t + UInt32.ofNat bytes.length
  offset : s'.offset = (s.offset + bytes.length) % uartMaxSize

theorem add_ofNat_succ (a : UInt32) (n : Nat) :
    a + UInt32.ofNat n + 1 = a + UInt32.ofNat (n + 1) := by
  rw [UInt32.add_assoc]
  congr 1
  exact (UInt32.ofNat_add n 1).symm

/-- The copied bytes lie one behind the other from `offset` on. -/
theorem copyBytes_copied (t : TermId) {bytes : List UInt8} (hlen : bytes.length < uartMaxSize)
    {s : RoundState} (hoff : s.offset < uartMaxSize) :
    Copied t bytes s (bytes.foldl (copyByte t true) s) := by
  induction bytes using List.reverseRecOn with
  | nil =>
    exact ⟨fun _ _ => rfl, fun _ _ => rfl, rfl, fun _ _ => rfl, (UInt32.add_zero _).symm,
      (UInt32.add_zero _).symm, (Nat.mod_eq_of_lt hoff).symm⟩
  | append_singleton bytes byte ih =>
    rw [List.length_append, List.length_singleton] at hlen
    have hcopied := ih (by omega)
    rw [List.foldl_append, List.foldl_cons, List.foldl_nil]
    generalize bytes.foldl (copyByte t true) s = s₁ at hcopied
    have hfresh : ∀ i < bytes.length, (s.offset + i) % uartMaxSize ≠ s₁.offset := by
      intro i hi
      rw [hcopied.offset]
      exact Ring.add_mod_ne hi (by omega) s.offset
    have hring := putRing_self s₁ t { s₁.rings t with
      data := Function.update (s₁.rings t).data s₁.offset byte
      wrCount := (s₁.rings t).wrCount + 1 }
    have hdata : ((copyByte t true s₁ byte).rings t).data =
        Function.update (s₁.rings t).data s₁.offset byte := congrArg UartRing.data hring
    have hcount : ((copyByte t true s₁ byte).rings t).wrCount = (s₁.rings t).wrCount + 1 :=
      congrArg UartRing.wrCount hring
    refine ⟨?_, ?_, ?_, ?_, ?_, ?_, ?_⟩
    · intro p hp
      exact (putRing_of_ne s₁ hp _).trans (hcopied.rings p hp)
    · intro p hp
      exact (Function.update_of_ne hp _ _).trans (hcopied.counts p hp)
    · rw [List.length_append, List.length_singleton, Ring.segment_succ, hdata,
        Ring.segment_update byte hfresh, hcopied.segment, ← hcopied.offset,
        Function.update_self]
    · intro q hq
      rw [List.length_append, List.length_singleton] at hq
      have hne : q ≠ s₁.offset := by
        rw [hcopied.offset]
        exact (hq bytes.length (Nat.lt_succ_self _)).symm
      rw [hdata, Function.update_of_ne hne]
      exact hcopied.outside q (fun j hj => hq j (Nat.lt_succ_of_lt hj))
    · rw [hcount, hcopied.wrCount, List.length_append, List.length_singleton, add_ofNat_succ]
    · rw [List.length_append, List.length_singleton, ← add_ofNat_succ, ← hcopied.rxCharCnt]
      exact Function.update_self _ _ _
    · change (s₁.offset + 1) % uartMaxSize = _
      rw [hcopied.offset, Nat.mod_add_mod, List.length_append, List.length_singleton,
        Nat.add_assoc]

/-! ### One port -/

theorem beginChunk_i (t : TermId) (s : RoundState) : (beginChunk t s).i = 0 := by
  rw [beginChunk]
  split <;> rfl

theorem beginChunk_order (t : TermId) (s : RoundState) : (beginChunk t s).order = s.order := by
  rw [beginChunk]
  split <;> rfl

theorem storeChunk_i (t : TermId) (bytes : List UInt8) (s : RoundState) :
    (storeChunk t bytes s).i = bytes.length := by
  have hi := copyBytes_i t (!(s.rings t).full) bytes (beginChunk t s)
  rwa [beginChunk_i, Nat.zero_add] at hi

theorem storeChunk_order (t : TermId) (bytes : List UInt8) (s : RoundState) :
    (storeChunk t bytes s).order = s.order :=
  (copyBytes_order t (!(s.rings t).full) bytes (beginChunk t s)).trans (beginChunk_order t s)

theorem notify_i (enabled : TermId → Bool) (t : TermId) (s : RoundState) :
    (notify enabled t s).i = s.i := by
  rw [notify]
  split <;> rfl

theorem notify_order (enabled : TermId → Bool) (t : TermId) (s : RoundState) :
    (notify enabled t s).order = s.order := by
  rw [notify]
  split <;> rfl

theorem notify_rings (enabled : TermId → Bool) (t : TermId) (s : RoundState) :
    (notify enabled t s).rings = s.rings := by
  rw [notify]
  split <;> rfl

theorem notify_rxCharCnt (enabled : TermId → Bool) (t : TermId) (s : RoundState) :
    (notify enabled t s).rxCharCnt = s.rxCharCnt := by
  rw [notify]
  split <;> rfl

theorem notify_offset (enabled : TermId → Bool) (t : TermId) (s : RoundState) :
    (notify enabled t s).offset = s.offset := by
  rw [notify]
  split <;> rfl

/-- Which port is read next. -/
theorem readPort_i (enabled : TermId → Bool) (t : TermId) (r : PortRead) (s : RoundState) :
    (readPort enabled t r s).i =
      if r.bytes.length > 0 then r.bytes.length + 1 else s.i + 1 := by
  rw [readPort]
  split
  · rw [RoundState.next, notify_i, storeChunk_i]
  · rfl

theorem readPort_order (enabled : TermId → Bool) (t : TermId) (r : PortRead) (s : RoundState) :
    (readPort enabled t r s).order = s.order ++ [t] := by
  rw [readPort]
  split
  · rw [RoundState.next, notify_order, storeChunk_order]
    rfl
  · rfl

theorem storeChunk_onlyPort (t : TermId) {bytes : List UInt8} (hlen : bytes.length < uartMaxSize)
    {s : RoundState} (hs : s.Valid) : OnlyPort t bytes s (storeChunk t bytes s) := by
  rw [storeChunk]
  cases hfull : (s.rings t).full with
  | true =>
    rw [Bool.not_true, copyBytes_dropped, beginChunk, if_pos hfull]
    refine ⟨fun p hp => putRing_of_ne _ hp _, fun _ _ => rfl, Or.inr ⟨?_, ?_, rfl⟩⟩
    · rw [putRing_self]
    · rw [putRing_self]
  | false =>
    have hbegin : beginChunk t s = { s with i := 0, offset := (s.rings t).wrPos } := by
      rw [beginChunk, hfull]
      rfl
    have hcopied := copyBytes_copied t hlen (s := beginChunk t s)
      (by rw [hbegin]; exact hs.wrPos t)
    rw [Bool.not_false]
    rw [hbegin] at hcopied ⊢
    refine ⟨?_, hcopied.counts, Or.inl ⟨?_, ?_, ?_, hcopied.rxCharCnt⟩⟩
    · intro p hp
      exact (putRing_of_ne _ hp _).trans (hcopied.rings p hp)
    · rw [putRing_self]
      exact hcopied.segment
    · intro q hq
      rw [putRing_self]
      exact hcopied.outside q hq
    · rw [putRing_self]
      exact hcopied.wrCount

theorem storeChunk_valid (t : TermId) {bytes : List UInt8} (hlen : bytes.length < uartMaxSize)
    {s : RoundState} (hs : s.Valid) : (storeChunk t bytes s).Valid := by
  have hoffset : (storeChunk t bytes s).offset < uartMaxSize := by
    rw [storeChunk, beginChunk]
    cases hfull : (s.rings t).full with
    | true =>
      rw [Bool.not_true, copyBytes_dropped]
      exact hs.offset
    | false =>
      have hcopied := copyBytes_copied t hlen
        (s := { s with i := 0, offset := (s.rings t).wrPos }) (hs.wrPos t)
      exact hcopied.offset.trans_lt (Nat.mod_lt _ (by decide))
  refine ⟨hoffset, ?_⟩
  intro p
  by_cases hp : p = t
  · subst hp
    have hwr : ((storeChunk p bytes s).rings p).wrPos = (storeChunk p bytes s).offset :=
      congrArg UartRing.wrPos (putRing_self _ p _)
    rw [hwr]
    exact hoffset
  · rw [(storeChunk_onlyPort t hlen hs).rings p hp]
    exact hs.wrPos p

theorem PortRead.fits (r : PortRead) : r.bytes.length < uartMaxSize :=
  Nat.lt_of_le_of_lt r.le (by decide)

theorem found_self (s : RoundState) (t : TermId) (r : PortRead) :
    (s.found t r).rings t = { s.rings t with rdPos := r.rdPos, rdCount := r.rdCount } :=
  putRing_self s t { s.rings t with rdPos := r.rdPos, rdCount := r.rdCount }

theorem found_of_ne (s : RoundState) {t p : TermId} (hp : p ≠ t) (r : PortRead) :
    (s.found t r).rings p = s.rings p :=
  putRing_of_ne s hp { s.rings t with rdPos := r.rdPos, rdCount := r.rdCount }

theorem found_valid (t : TermId) (r : PortRead) {s : RoundState} (hs : s.Valid) :
    (s.found t r).Valid := by
  refine ⟨hs.offset, ?_⟩
  intro p
  by_cases hp : p = t
  · subst hp
    rw [found_self]
    exact hs.wrPos p
  · rw [found_of_ne s hp]
    exact hs.wrPos p

/-- The progress of the other thread leaves what is written and what is counted. -/
theorem OnlyPort.of_found {t : TermId} {bytes : List UInt8} {r : PortRead} {s s' : RoundState}
    (h : OnlyPort t bytes (s.found t r) s') : OnlyPort t bytes s s' := by
  refine ⟨?_, h.counts, ?_⟩
  · intro p hp
    exact (h.rings p hp).trans (found_of_ne s hp r)
  · rcases h.own with hstored | hdropped
    · left
      have hsegment := hstored.segment
      have houtside := hstored.outside
      have hcount := hstored.wrCount
      rw [found_self] at hsegment houtside hcount
      exact ⟨hsegment, houtside, hcount, hstored.rxCharCnt⟩
    · right
      have hdata := hdropped.data
      have hcount := hdropped.wrCount
      rw [found_self] at hdata hcount
      exact ⟨hdata, hcount, hdropped.rxCharCnt⟩

/-- What a step says of the rings and counters is all that `OnlyPort` reads. -/
theorem OnlyPort.congr {t : TermId} {bytes : List UInt8} {s s' s'' : RoundState}
    (h : OnlyPort t bytes s s') (hrings : s''.rings = s'.rings)
    (hcounts : s''.rxCharCnt = s'.rxCharCnt) : OnlyPort t bytes s s'' := by
  obtain ⟨h1, h2, h3⟩ := h
  refine ⟨?_, ?_, ?_⟩
  · rwa [hrings]
  · rwa [hcounts]
  · rcases h3 with hstored | hdropped
    · exact Or.inl ⟨by rw [hrings]; exact hstored.segment, by rw [hrings]; exact hstored.outside,
        by rw [hrings]; exact hstored.wrCount, by rw [hcounts]; exact hstored.rxCharCnt⟩
    · exact Or.inr ⟨by rw [hrings]; exact hdropped.data, by rw [hrings]; exact hdropped.wrCount,
        by rw [hcounts]; exact hdropped.rxCharCnt⟩

theorem readPort_onlyPort (enabled : TermId → Bool) (t : TermId) (r : PortRead) {s : RoundState}
    (hs : s.Valid) : OnlyPort t r.bytes s (readPort enabled t r s) := by
  apply OnlyPort.of_found (r := r)
  rw [readPort]
  split
  · have honly := storeChunk_onlyPort t r.fits (found_valid t r hs)
    exact honly.congr (notify_rings enabled t _) (notify_rxCharCnt enabled t _)
  · exact ⟨fun _ _ => rfl, fun _ _ => rfl, Or.inr ⟨rfl, rfl, rfl⟩⟩

theorem readPort_valid (enabled : TermId → Bool) (t : TermId) (r : PortRead) {s : RoundState}
    (hs : s.Valid) : (readPort enabled t r s).Valid := by
  have hfound := found_valid t r hs
  rw [readPort]
  split
  · have hvalid := storeChunk_valid t r.fits hfound
    refine ⟨?_, ?_⟩
    · rw [RoundState.next, notify_offset]
      exact hvalid.offset
    · rw [RoundState.next, notify_rings]
      exact hvalid.wrPos
  · exact ⟨hfound.offset, hfound.wrPos⟩

/-! ### The round -/

section Rounds

variable {enabled : TermId → Bool} {reads : Nat → TermId → PortRead}

/-- The four ports, in order. -/
def ports : List TermId := List.finRange 4

/-- The round leaves with these ports read. -/
def EndsWith (enabled : TermId → Bool) (reads : Nat → TermId → PortRead) (s : RoundState)
    (order : List TermId) : Prop :=
  ∃ fuel s', run (roundStep enabled reads) fuel s = some s' ∧ s'.order = order

theorem roundStep_of_lt {s : RoundState} (h : s.i < 4) :
    roundStep enabled reads s =
      .inl (readPort enabled ⟨s.i, h⟩ (reads s.order.length ⟨s.i, h⟩) s) := dif_pos h

theorem roundStep_of_ge {s : RoundState} (h : ¬s.i < 4) : roundStep enabled reads s = .inr s :=
  dif_neg h

variable (enabled reads) in
theorem endsWith_of_lt {s : RoundState} (h : s.i < 4) (order : List TermId) :
    EndsWith enabled reads s order ↔
      EndsWith enabled reads (readPort enabled ⟨s.i, h⟩ (reads s.order.length ⟨s.i, h⟩) s) order := by
  constructor
  · rintro ⟨fuel, s', hrun, horder⟩
    cases fuel with
    | zero => cases hrun
    | succ fuel =>
      rw [run_succ_inl (roundStep_of_lt h)] at hrun
      exact ⟨fuel, s', hrun, horder⟩
  · rintro ⟨fuel, s', hrun, horder⟩
    exact ⟨fuel + 1, s', (run_succ_inl (roundStep_of_lt h) fuel).trans hrun, horder⟩

theorem endsWith_of_ge {s : RoundState} (h : ¬s.i < 4) (order : List TermId) :
    EndsWith enabled reads s order ↔ s.order = order := by
  constructor
  · rintro ⟨fuel, s', hrun, horder⟩
    have hexit := run_unique (run_succ_inr (roundStep_of_ge h) 0) hrun
    rw [hexit]
    exact horder
  · intro horder
    exact ⟨1, s, run_succ_inr (roundStep_of_ge h) 0, horder⟩

/-- The ports read so far stay the first ones. -/
theorem EndsWith.isPrefix {s : RoundState} {order : List TermId}
    (h : EndsWith enabled reads s order) : s.order <+: order := by
  obtain ⟨fuel, s', hrun, horder⟩ := h
  rw [← horder]
  apply run_exit (fun u => s.order <+: u.order) (fun u => s.order <+: u.order) _ _
    (List.prefix_refl _) hrun
  · intro u u' hu hstep
    by_cases hlt : u.i < 4
    · rw [roundStep_of_lt hlt] at hstep
      rw [← Sum.inl.inj hstep, readPort_order]
      exact hu.trans (List.prefix_append _ _)
    · rw [roundStep_of_ge hlt] at hstep
      cases hstep
  · intro u u' hu hstep
    by_cases hlt : u.i < 4
    · rw [roundStep_of_lt hlt] at hstep
      cases hstep
    · rw [roundStep_of_ge hlt] at hstep
      rwa [← Sum.inr.inj hstep]

theorem take_ports (n : Nat) (hn : n < 4) : ports.take n ++ [⟨n, hn⟩] = ports.take (n + 1) := by
  decide +revert

theorem length_take_ports (n : Nat) (hn : n ≤ 4) : (ports.take n).length = n :=
  List.length_take_of_le hn

/-- Where a round must go on that leaves with all ports read in order. -/
theorem next_of_endsWith {n : Nat} (hn : n < 4) {s : RoundState}
    (horder : s.order = ports.take (n + 1)) (h : EndsWith enabled reads s ports) :
    if n < 3 then s.i = n + 1 else 4 ≤ s.i := by
  by_cases hlt : s.i < 4
  · have hprefix := ((endsWith_of_lt enabled reads hlt ports).mp h).isPrefix
    rw [readPort_order, horder] at hprefix
    have hlen : n + 2 ≤ 4 := by
      have hle := hprefix.length_le
      rw [List.length_append, length_take_ports (n + 1) hn] at hle
      exact hle
    have hnext : ports.take (n + 1) ++ [⟨s.i, hlt⟩] = ports.take (n + 1) ++ [⟨n + 1, by omega⟩] := by
      rw [take_ports (n + 1) (by omega)]
      have htake := List.prefix_iff_eq_take.mp hprefix
      rwa [List.length_append, length_take_ports (n + 1) hn] at htake
    have hport := List.head_eq_of_cons_eq (List.append_cancel_left hnext)
    rw [if_pos (by omega)]
    exact Fin.mk.inj hport
  · have hall := (endsWith_of_ge hlt ports).mp h
    rw [horder] at hall
    have hlen := congrArg List.length hall
    rw [length_take_ports (n + 1) hn] at hlen
    have hfour : ports.length = 4 := rfl
    rw [if_neg (by omega)]
    omega

/-- The bytes of a port let the loop go on with the next one: there are none, or as many as the
port's own index, or at the last port at least as many. -/
def Aligned (n : Nat) (r : PortRead) : Prop :=
  r.bytes.length = 0 ∨ r.bytes.length = n ∨ n = 3 ∧ 3 ≤ r.bytes.length

theorem next_iff {n : Nat} (hn : n < 4) {s : RoundState} (hi : s.i = n) (r : PortRead) :
    (if n < 3 then (readPort enabled ⟨n, hn⟩ r s).i = n + 1
      else 4 ≤ (readPort enabled ⟨n, hn⟩ r s).i) ↔ Aligned n r := by
  rw [readPort_i, hi, Aligned]
  split <;> split <;> omega

variable (enabled reads) in
/-- One port of the round. -/
theorem endsWith_step {n : Nat} (hn : n < 4) {s : RoundState} (hi : s.i = n)
    (horder : s.order = ports.take n) :
    ∃ s', s'.order = ports.take (n + 1) ∧
      (EndsWith enabled reads s ports ↔ EndsWith enabled reads s' ports) ∧
      ((if n < 3 then s'.i = n + 1 else 4 ≤ s'.i) ↔ Aligned n (reads n ⟨n, hn⟩)) := by
  have hlen : s.order.length = n := by
    rw [horder]
    exact length_take_ports n (Nat.le_of_lt hn)
  refine ⟨readPort enabled ⟨n, hn⟩ (reads n ⟨n, hn⟩) s, ?_, ?_, next_iff hn hi _⟩
  · rw [readPort_order, horder]
    exact take_ports n hn
  · subst hi
    have hstep := endsWith_of_lt enabled reads hn ports
    rwa [hlen] at hstep

/-- The induction is on the number of ports that are still to be read after this one. -/
theorem endsWith_ports_iff (k : Nat) : ∀ (n : Nat) (s : RoundState), n + k = 3 → s.i = n →
    s.order = ports.take n →
    (EndsWith enabled reads s ports ↔
      ∀ m (hm : m < 4), n ≤ m → Aligned m (reads m ⟨m, hm⟩)) := by
  induction k with
  | zero =>
    intro n s hnk hi horder
    have hn : n = 3 := hnk
    subst hn
    obtain ⟨s', horder', hends, hnext⟩ := endsWith_step enabled reads
      (by decide) hi horder
    rw [if_neg (Nat.lt_irrefl 3)] at hnext
    rw [hends]
    constructor
    · intro h m hm hge
      have hlast := next_of_endsWith (by decide) horder' h
      have heq : m = 3 := by omega
      subst heq
      exact hnext.mp hlast
    · intro h
      have hleft : ¬s'.i < 4 := Nat.not_lt.mpr (hnext.mpr (h 3 (by decide) (Nat.le_refl 3)))
      exact (endsWith_of_ge hleft ports).mpr horder'
  | succ k ih =>
    intro n s hnk hi horder
    have hn : n < 3 := by omega
    obtain ⟨s', horder', hends, hnext⟩ := endsWith_step enabled reads
      (Nat.lt_succ_of_lt hn) hi horder
    rw [if_pos hn] at hnext
    rw [hends]
    constructor
    · intro h m hm hge
      have hgoes := next_of_endsWith (Nat.lt_succ_of_lt hn) horder' h
      rw [if_pos hn] at hgoes
      rcases Nat.eq_or_lt_of_le hge with rfl | hgt
      · exact hnext.mp hgoes
      · exact (ih (n + 1) s' (by omega) hgoes horder').mp h m hm hgt
    · intro h
      have hgoes := hnext.mpr (h n (Nat.lt_succ_of_lt hn) (Nat.le_refl n))
      exact (ih (n + 1) s' (by omega) hgoes horder').mpr
        (fun m hm hge => h m hm (Nat.le_of_succ_le hge))

/-- A round reads each of the ports once, in order, and ends, and wherever it reads a port the bytes
go nowhere but to the ring and the counters of this port. -/
structure RoundCorrect (enabled : TermId → Bool) (reads : Nat → TermId → PortRead)
    (s : RoundState) : Prop where
  once : EndsWith enabled reads s.begin ports
  stored : ∀ u, Reaches (roundStep enabled reads) s.begin u → ∀ h : u.i < 4,
    OnlyPort ⟨u.i, h⟩ (reads u.order.length ⟨u.i, h⟩).bytes u
      (readPort enabled ⟨u.i, h⟩ (reads u.order.length ⟨u.i, h⟩) u)

/-- **A round over the ports.**  A round is correct exactly when each of the first three ports has
no bytes or as many as its own index, and the last one none or at least three. -/
theorem roundCorrect_iff (enabled : TermId → Bool) (reads : Nat → TermId → PortRead)
    {s : RoundState} (hs : s.Valid) :
    RoundCorrect enabled reads s ↔ ∀ m (hm : m < 4), Aligned m (reads m ⟨m, hm⟩) := by
  have hiff : EndsWith enabled reads s.begin ports ↔
      ∀ m (hm : m < 4), 0 ≤ m → Aligned m (reads m ⟨m, hm⟩) :=
    endsWith_ports_iff 3 0 s.begin rfl rfl rfl
  have hvalid : ∀ u, Reaches (roundStep enabled reads) s.begin u → u.Valid := by
    intro u hreach
    apply Reaches.invariant RoundState.Valid _ (t := u) (s := s.begin) ⟨hs.offset, hs.wrPos⟩ hreach
    intro v v' hv hstep
    by_cases hlt : v.i < 4
    · rw [roundStep_of_lt hlt] at hstep
      rw [← Sum.inl.inj hstep]
      exact readPort_valid enabled _ _ hv
    · rw [roundStep_of_ge hlt] at hstep
      cases hstep
  constructor
  · intro h m hm
    exact hiff.mp h.once m hm (Nat.zero_le m)
  · intro h
    refine ⟨hiff.mpr (fun m hm _ => h m hm), ?_⟩
    intro u hreach hlt
    exact readPort_onlyPort enabled _ _ (hvalid u hreach)

end Rounds

/-- Some bytes at a port whose ring the other thread has read up to its start. -/
def someBytes (bytes : List UInt8) (h : bytes.length ≤ 1024) : PortRead := ⟨bytes, h, 0, 0⟩

/-- Empty rings. -/
def emptyRings : RoundState where
  i := 0
  offset := 0
  rings _ := ⟨0, 0, 0, 0, fun _ => 0⟩
  rxCharCnt _ := 0
  sent := 0
  order := []

theorem emptyRings_valid : emptyRings.Valid :=
  ⟨by decide, fun _ => (by decide : 0 < uartMaxSize)⟩

/-- Every port has one byte, and only the second one fits in. -/
theorem one_byte_each :
    ¬RoundCorrect (fun _ => true) (fun _ _ => someBytes [65] (by decide)) emptyRings := by
  intro h
  have hfirst := next_of_endsWith (n := 0) (by decide) rfl
    ((endsWith_of_lt _ _ (by decide) ports).mp h.once)
  revert hfirst
  decide

/-- Nothing at the first port, one byte at the second, two at the third and three at the last. -/
theorem bytes_of_index :
    RoundCorrect (fun _ => true)
      (fun _ t => someBytes (List.replicate t 65)
        (by rw [List.length_replicate]; exact Nat.le_of_lt (Nat.lt_of_lt_of_le t.isLt (by decide))))
      emptyRings :=
  (roundCorrect_iff _ _ emptyRings_valid).mpr (by
    intro m hm
    right
    left
    exact List.length_replicate ..)

end Opconn.Terminal
