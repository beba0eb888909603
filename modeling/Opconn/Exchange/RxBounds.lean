import Opconn.Exchange.Pal
import Opconn.Lib.Buffer
import Opconn.Lib.Runs

/-!
# Lengths from the line

The length in the header of a frame is any number of 16 bits, and nobody compares it with the
buffers: `palGetPktBody` reads that many bytes into the work buffer of `palRxData`, and when the
end delimiter and the checksum are right that many bytes are copied into the slot of the receive
chain, which is smaller than the work buffer.
-/

namespace Opconn.Exchange

open Runs

/-- `MSG_DATA_BUFF_RX_LEN`. -/
def msgDataBuffRxLen : Nat := 1500

/-- `MSG_DATA_BUFF_RX_CHAIN_t`, without the handlers. -/
structure RxSlot where
  active : Bool
  dataLen : UInt16
  dataBuff : Nat → UInt8

/-- What a call of `palRxData` for a slot comes to. -/
inductive RxCall where
  | filled (dataBuff : Nat → UInt8) (len : UInt16)
  | refused
  | outside

/-- `palRxData` with its copy into the slot; `none` while it waits for more. -/
def palRxSlot (dataBuff : Nat → UInt8) (dev : List UInt8) : Option (RxCall × List UInt8) :=
  (palRxData dev).map fun (r, dev) =>
    (match r with
    | .ok p len =>
      match Buffer.writeList msgDataBuffRxLen dataBuff 0 p with
      | some dataBuff => .filled dataBuff len
      | none => .outside
    | .error => .refused
    | .overrun => .outside, dev)

/-- The device, the slots, and whether a byte was stored outside of its buffer. -/
structure RxState where
  dev : List UInt8
  slots : Nat → RxSlot
  tailer : Nat
  outside : Bool

/-- Bytes arrive, `msgRxPktThread` calls `palRxData`, or `msgProcessThread` clears a slot. -/
inductive RxEvent where
  | arrive (bytes : List UInt8)
  | receive
  | clear (slot : Nat)

def RxState.slot (s : RxState) : RxSlot := s.slots s.tailer

/-- `msgRxPktThread` behind the call. -/
def afterCall (s : RxState) : Option (RxCall × List UInt8) → RxState
  | none => s
  | some (.filled dataBuff len, dev) =>
    { s with
      dev := dev
      slots := Function.update s.slots s.tailer ⟨true, len, dataBuff⟩
      tailer := (s.tailer + 1) % 16 }
  | some (.refused, dev) => { s with dev := dev }
  | some (.outside, dev) => { s with dev := dev, outside := true }

/-- One round of `msgRxPktThread`. -/
def msgRxPktRound (s : RxState) : RxState :=
  if s.slot.active then s else afterCall s (palRxSlot s.slot.dataBuff s.dev)

def rxBoundsStep (s : RxState) : RxEvent → RxState
  | .arrive bytes => { s with dev := s.dev ++ bytes }
  | .receive => msgRxPktRound s
  | .clear i => { s with slots := Function.update s.slots i ⟨false, (s.slots i).dataLen, fun _ => 0⟩ }

/-- Behind `msgBuffChainRxInit`. -/
def rxStart : RxState := ⟨[], fun _ => ⟨false, 0, fun _ => 0⟩, 0, false⟩

/-! ### What a header leads to -/

/-- The bytes behind a header are a whole frame with its end delimiter and its checksum. -/
def WholeFrame (dalaLen : UInt16) (rest : List UInt8) : Prop :=
  dalaLen.toNat ≤ rest.length ∧
    ∃ dev, palGetPktTail (rest.drop dalaLen.toNat) =
      some (some (oplCRC16BitShift (rest.take dalaLen.toNat)), dev)

/-- A header is harmless when its length fits into a slot, or when no more than fits into the work
buffer can be read and what is behind it is not a whole frame. -/
def Harmless (dalaLen : UInt16) (rest : List UInt8) : Prop :=
  dalaLen.toNat ≤ msgDataBuffRxLen ∨
    min dalaLen.toNat rest.length ≤ maxPacketLength ∧ ¬WholeFrame dalaLen rest

theorem palRxData_of_header {dev rest : List UInt8} {n : UInt16}
    (h : palGetPktHeader dev = some (n, rest)) :
    palRxData dev =
      if maxPacketLength < (rest.take n.toNat).length then
        some (.overrun, rest.drop n.toNat)
      else if (rest.take n.toNat).length ≠ n.toNat then some (.error, rest.drop n.toNat)
      else (palGetPktTail (rest.drop n.toNat)).bind fun (tail, dev) =>
        match tail with
        | none => some (.error, dev)
        | some crc =>
          if oplCRC16BitShift (rest.take n.toNat) ≠ crc then some (.error, dev)
          else some (.ok (rest.take n.toNat) n, dev) := by
  rw [palRxData, h]
  rfl

/-- What `palRxData` makes of a header. -/
theorem palRxData_cases {dev rest : List UInt8} {n : UInt16}
    (h : palGetPktHeader dev = some (n, rest)) :
    (maxPacketLength < min n.toNat rest.length ∧
      palRxData dev = some (.overrun, rest.drop n.toNat)) ∨
    (min n.toNat rest.length ≤ maxPacketLength ∧ WholeFrame n rest ∧
      ∃ dev', palRxData dev = some (.ok (rest.take n.toNat) n, dev')) ∨
    (min n.toNat rest.length ≤ maxPacketLength ∧ ¬WholeFrame n rest ∧
      (palRxData dev = none ∨ ∃ dev', palRxData dev = some (.error, dev'))) := by
  have hlen : (rest.take n.toNat).length = min n.toNat rest.length := List.length_take
  rw [palRxData_of_header h, hlen]
  by_cases hover : maxPacketLength < min n.toNat rest.length
  · left
    rw [if_pos hover]
    exact ⟨hover, rfl⟩
  · right
    rw [if_neg hover]
    by_cases hshort : min n.toNat rest.length ≠ n.toNat
    · right
      rw [if_pos hshort]
      refine ⟨Nat.not_lt.mp hover, ?_, Or.inr ⟨_, rfl⟩⟩
      rintro ⟨hle, -⟩
      exact hshort (Nat.min_eq_left hle)
    · rw [if_neg hshort]
      have hle : n.toNat ≤ rest.length := by omega
      rcases htail : palGetPktTail (rest.drop n.toNat) with _ | ⟨tail, dev'⟩
      · right
        refine ⟨Nat.not_lt.mp hover, ?_, Or.inl rfl⟩
        rintro ⟨-, dev', hwhole⟩
        rw [htail] at hwhole
        cases hwhole
      · rw [Option.bind_some]
        cases tail with
        | none =>
          right
          refine ⟨Nat.not_lt.mp hover, ?_, Or.inr ⟨dev', rfl⟩⟩
          rintro ⟨-, dev'', hwhole⟩
          rw [htail] at hwhole
          cases hwhole
        | some crc =>
          by_cases hcrc : oplCRC16BitShift (rest.take n.toNat) ≠ crc
          · right
            refine ⟨Nat.not_lt.mp hover, ?_, Or.inr ⟨dev', if_pos hcrc⟩⟩
            rintro ⟨-, dev'', hwhole⟩
            rw [htail] at hwhole
            exact hcrc (Option.some.inj (Prod.mk.inj (Option.some.inj hwhole)).1).symm
          · left
            refine ⟨Nat.not_lt.mp hover, ⟨hle, dev', ?_⟩, dev', if_neg hcrc⟩
            rw [htail, not_ne_iff.mp hcrc]

theorem palRxData_of_no_header {dev : List UInt8} (h : palGetPktHeader dev = none) :
    palRxData dev = none := by
  rw [palRxData, h]
  rfl

/-- What is copied into the slot fits exactly when the length does. -/
theorem palRxSlot_ok (dataBuff : Nat → UInt8) {dev dev' p : List UInt8} {n : UInt16}
    (h : palRxData dev = some (.ok p n, dev')) :
    (p.length ≤ msgDataBuffRxLen ∧ ∃ dataBuff',
      palRxSlot dataBuff dev = some (.filled dataBuff' n, dev')) ∨
    (msgDataBuffRxLen < p.length ∧ palRxSlot dataBuff dev = some (.outside, dev')) := by
  rw [palRxSlot, h, Option.map_some]
  rcases Nat.lt_or_ge msgDataBuffRxLen p.length with hlt | hge
  · right
    have hnone := Buffer.writeList_eq_none dataBuff (Nat.zero_le _)
      (hlt.trans_eq (Nat.zero_add p.length).symm)
    refine ⟨hlt, ?_⟩
    simp only [hnone]
  · left
    have hsome := Buffer.writeList_eq dataBuff p ((Nat.zero_add p.length).le.trans hge)
    exact ⟨hge, _, by simp only [hsome]; rfl⟩

/-! ### Runs -/

/-- Nothing was stored outside, and the messages in the slots fit in. -/
structure RxInside (s : RxState) : Prop where
  outside : s.outside = false
  dataLen : ∀ i, (s.slots i).active = true → (s.slots i).dataLen.toNat ≤ msgDataBuffRxLen

/-- A call that finds a length above that of a slot returns, if it does, `opl_error`, and leaves the
slot inactive. -/
def RejectsLong (s : RxState) (e : RxEvent) : Prop :=
  e = .receive → s.slot.active = false → ∀ n rest, palGetPktHeader s.dev = some (n, rest) →
    msgDataBuffRxLen < n.toNat → ∀ r dev, palRxData s.dev = some (r, dev) →
      r = .error ∧ ((rxBoundsStep s e).slots s.tailer).active = false

/-- A call finds a harmless header, if it finds one. -/
def FindsHarmless (s : RxState) (e : RxEvent) : Prop :=
  e = .receive → s.slot.active = false → ∀ n rest, palGetPktHeader s.dev = some (n, rest) →
    Harmless n rest

theorem msgRxPktRound_active {s : RxState} (h : s.slot.active = true) : msgRxPktRound s = s :=
  if_pos h

theorem msgRxPktRound_inactive {s : RxState} (h : s.slot.active = false) :
    msgRxPktRound s = afterCall s (palRxSlot s.slot.dataBuff s.dev) := by
  rw [msgRxPktRound, h]
  rfl

theorem not_inside_of_outside (s : RxState) (dev : List UInt8) :
    ¬RxInside (afterCall s (some (.outside, dev))) := by
  intro hinside
  have houtside := hinside.outside
  cases houtside

/-- A round with an inactive slot. -/
theorem msgRxPktRound_iff {s : RxState} (hs : RxInside s) (hinactive : s.slot.active = false) :
    RxInside (msgRxPktRound s) ∧ RejectsLong s .receive ↔ FindsHarmless s .receive := by
  have hround := msgRxPktRound_inactive hinactive
  rcases hheader : palGetPktHeader s.dev with _ | ⟨n, rest⟩
  · have hnone : palRxSlot s.slot.dataBuff s.dev = none := by
      rw [palRxSlot, palRxData_of_no_header hheader]
      rfl
    have hsame : msgRxPktRound s = s := by rw [hround, hnone, afterCall]
    refine iff_of_true ⟨?_, ?_⟩ ?_
    · rwa [hsame]
    · intro _ _ n rest h
      rw [hheader] at h
      cases h
    · intro _ _ n rest h
      rw [hheader] at h
      cases h
  · have hfinds : FindsHarmless s .receive ↔ Harmless n rest := by
      constructor
      · intro h
        exact h rfl hinactive n rest hheader
      · intro h _ _ n' rest' h'
        rw [hheader] at h'
        obtain ⟨rfl, rfl⟩ := Prod.mk.inj (Option.some.inj h')
        exact h
    rw [hfinds]
    rcases palRxData_cases hheader with ⟨hover, hdata⟩ | ⟨hfits, hwhole, dev', hdata⟩ |
      ⟨hfits, hwhole, hdata⟩
    · have hslot : palRxSlot s.slot.dataBuff s.dev = some (.outside, rest.drop n.toNat) := by
        rw [palRxSlot, hdata]
        rfl
      have hoverrun : ¬Harmless n rest := by
        rintro (hle | ⟨hle, -⟩)
        · have hmin := Nat.min_le_left n.toNat rest.length
          rw [maxPacketLength] at hover
          rw [msgDataBuffRxLen] at hle
          omega
        · exact Nat.not_lt.mpr hle hover
      refine iff_of_false ?_ hoverrun
      rintro ⟨hinside, -⟩
      rw [hround, hslot] at hinside
      exact not_inside_of_outside s _ hinside
    · have hlen : (rest.take n.toNat).length = n.toNat := List.length_take_of_le hwhole.1
      rcases palRxSlot_ok s.slot.dataBuff hdata with ⟨hle, dataBuff', hslot⟩ |
        ⟨hlt, hslot⟩
      · rw [hlen] at hle
        refine iff_of_true ⟨?_, ?_⟩ (Or.inl hle)
        · rw [hround, hslot]
          refine ⟨hs.outside, ?_⟩
          intro i hactive
          by_cases hi : i = s.tailer
          · subst hi
            simpa only [afterCall, Function.update_self] using hle
          · simp only [afterCall, Function.update_of_ne hi] at hactive ⊢
            exact hs.dataLen i hactive
        · intro _ _ n' rest' h' hlong
          rw [hheader] at h'
          obtain ⟨rfl, rfl⟩ := Prod.mk.inj (Option.some.inj h')
          exact absurd hlong (Nat.not_lt.mpr hle)
      · rw [hlen] at hlt
        refine iff_of_false ?_ ?_
        · rintro ⟨hinside, -⟩
          rw [hround, hslot] at hinside
          exact not_inside_of_outside s _ hinside
        · rintro (hle | ⟨-, hnot⟩)
          · exact Nat.not_lt.mpr hle hlt
          · exact hnot hwhole
    · have hharmless : Harmless n rest := Or.inr ⟨hfits, hwhole⟩
      rcases hdata with hdata | ⟨dev', hdata⟩
      · have hslot : palRxSlot s.slot.dataBuff s.dev = none := by
          rw [palRxSlot, hdata]
          rfl
        have hsame : msgRxPktRound s = s := by rw [hround, hslot, afterCall]
        refine iff_of_true ⟨by rwa [hsame], ?_⟩ hharmless
        intro _ _ _ _ _ _ r dev hdata'
        rw [hdata] at hdata'
        cases hdata'
      · have hslot : palRxSlot s.slot.dataBuff s.dev = some (.refused, dev') := by
          rw [palRxSlot, hdata]
          rfl
        have hrefused : msgRxPktRound s = { s with dev := dev' } := by
          rw [hround, hslot, afterCall]
        refine iff_of_true ⟨?_, ?_⟩ hharmless
        · rw [hrefused]
          exact ⟨hs.outside, hs.dataLen⟩
        · intro _ _ _ _ _ _ r dev hdata'
          rw [hdata] at hdata'
          obtain ⟨rfl, -⟩ := Prod.mk.inj (Option.some.inj hdata')
          refine ⟨rfl, ?_⟩
          rw [rxBoundsStep, hrefused]
          exact hinactive

/-- One step keeps the buffers and rejects long frames exactly when the header that it finds is
harmless. -/
theorem rxBoundsStep_iff {s : RxState} {e : RxEvent} (hs : RxInside s) :
    RxInside (rxBoundsStep s e) ∧ RejectsLong s e ↔ FindsHarmless s e := by
  cases e with
  | arrive bytes =>
    exact iff_of_true ⟨⟨hs.outside, hs.dataLen⟩, fun h => by cases h⟩ (fun h => by cases h)
  | receive =>
    cases hactive : s.slot.active with
    | false => exact msgRxPktRound_iff hs hactive
    | true =>
      have hsame : rxBoundsStep s .receive = s := msgRxPktRound_active hactive
      refine iff_of_true ⟨by rwa [hsame], ?_⟩ ?_
      · intro _ hinactive
        rw [hactive] at hinactive
        cases hinactive
      · intro _ hinactive
        rw [hactive] at hinactive
        cases hinactive
  | clear i =>
    refine iff_of_true ⟨⟨hs.outside, ?_⟩, fun h => by cases h⟩ (fun h => by cases h)
    intro j hactive
    by_cases hj : j = i
    · subst hj
      simp only [rxBoundsStep, Function.update_self] at hactive
      cases hactive
    · simp only [rxBoundsStep, Function.update_of_ne hj] at hactive ⊢
      exact hs.dataLen j hactive

/-- **Bounds of the receive path.**  In every run from the start, whatever arrives and whenever the
slots are cleared, no byte is stored outside of its buffer and every call that finds a length above
that of a slot is rejected, exactly when every call finds a harmless header. -/
theorem rx_inside_iff (events : List RxEvent) :
    AllStates rxBoundsStep RxInside rxStart events ∧
        AllSteps rxBoundsStep RejectsLong rxStart events ↔
      AllSteps rxBoundsStep FindsHarmless rxStart events :=
  allStates_and_allSteps_iff rxBoundsStep (fun _ => True) (fun _ _ _ => trivial)
    (fun _ _ _ hs => rxBoundsStep_iff hs) trivial ⟨rfl, fun _ h => by cases h⟩ events

/-- A header that announces 65535 bytes, and one byte more behind it than the work buffer has. -/
theorem noise_overruns :
    ¬(AllStates rxBoundsStep RxInside rxStart
        [.arrive (palSfd ++ [0xff, 0xff] ++ List.replicate 1519 0), .receive] ∧
      AllSteps rxBoundsStep RejectsLong rxStart
        [.arrive (palSfd ++ [0xff, 0xff] ++ List.replicate 1519 0), .receive]) := by
  rintro ⟨-, -, hrejects, -⟩
  have hheader : palGetPktHeader ([] ++ (palSfd ++ [0xff, 0xff] ++ List.replicate 1519 0)) =
      some (0xffff, List.replicate 1519 0) := rfl
  have hlong : maxPacketLength <
      ((List.replicate 1519 (0 : UInt8)).take (0xffff : UInt16).toNat).length := by
    rw [List.length_take, List.length_replicate]
    decide
  have hdata := palRxData_of_header hheader
  rw [if_pos hlong] at hdata
  obtain ⟨herror, -⟩ := hrejects rfl rfl _ _ hheader (by decide) _ _ hdata
  cases herror

end Opconn.Exchange
