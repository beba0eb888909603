import Opconn.Exchange.Pal

/-!
# Sending a message

Every message goes through `msgSendToTxQueue`.  While `imageflag` is set it swallows all
messages but those of an image upload, and it sets the flag itself when one of these is sent.
`palTxData` writes the frame under `WriteMutex`, which it keeps when the device did not take
the whole frame.
-/

namespace Opconn.Exchange

/-- `MSG_IMAGE_UPLOAD`, `MSG_IMAGE_UPLOAD_ACK` and `MSG_TYPE_END`. -/
def msgImageUpload : UInt16 := 9
def msgImageUploadAck : UInt16 := 10
def msgTypeEnd : UInt16 := 11

/-- `MSG_DATA_BUFF_TX_LEN - sizeof(MSG_HEAD_t)`. -/
def maxTxPayload : Nat := 1500 - 3

/-- What sending works on.  `line` is what the device took. -/
structure Tx where
  imageflag : Bool
  writeMutex : Bool
  uart1CommEnable : Bool
  line : List UInt8

/-- Behind `msgInit`. -/
def Tx.start : Tx := ⟨false, false, true, []⟩

/-- `palTxData`, where `write` returns `written`; it returns nothing while it waits for the mutex. -/
def palTxData (t : Tx) (p : List UInt8) (written : Int) : Tx × Option Status :=
  if t.writeMutex then (t, none)
  else
    let buff := palTxFrame p
    let t := { t with line := t.line ++ buff.take written.toNat }
    if written ≠ buff.length then ({ t with writeMutex := true }, some .error)
    else (t, some .ok)

/-- The bytes of a message. -/
def packMsg (onuId : UInt8) (eventId : UInt16) (payLoad : List UInt8) : List UInt8 :=
  onuId :: packUint16 eventId ++ payLoad

/-- `msgSendToTxQueue`; what `palTxData` returns is dropped. -/
def msgSendToTxQueue (t : Tx) (onuId : UInt8) (eventId : UInt16) (payLoad : Option (List UInt8))
    (written : Int) : Tx × Option Status :=
  match payLoad with
  | none => (t, some .error)
  | some payLoad =>
    if msgTypeEnd ≤ eventId then (t, some .error)
    else if maxTxPayload < payLoad.length then (t, some .error)
    else if eventId ≠ msgImageUpload ∧ eventId ≠ msgImageUploadAck ∧ t.imageflag = true then
      (t, some .ok)
    else
      let t := if eventId = msgImageUpload then { t with imageflag := true } else t
      if t.uart1CommEnable then
        let (t, status) := palTxData t (packMsg onuId eventId payLoad) written
        (t, status.map fun _ => .ok)
      else (t, some .ok)

/-- `msgImageUploadAckPackAndSend`. -/
def msgImageUploadAckPackAndSend (t : Tx) (onuId : UInt8) (p : List UInt8) (written : Int) :
    Tx × Option Status :=
  msgSendToTxQueue t onuId msgImageUploadAck (some p) written

/-- `msgImageUploadWaitAckPackAndSend`; the three seconds that it waits for an acknowledgement are
left out. -/
def msgImageUploadWaitAckPackAndSend (t : Tx) (onuId : UInt8) (p : List UInt8) (written : Int) :
    Tx :=
  match msgSendToTxQueue t onuId msgImageUpload (some p) written with
  | (t, none) => t
  | (t, some _) => { t with imageflag := false }

/-! ### What a call does -/

/-- A call that is not refused. -/
structure Valid (eventId : UInt16) (payLoad : List UInt8) : Prop where
  event : eventId < msgTypeEnd
  len : payLoad.length ≤ maxTxPayload

instance (eventId : UInt16) (payLoad : List UInt8) : Decidable (Valid eventId payLoad) :=
  decidable_of_iff (eventId < msgTypeEnd ∧ payLoad.length ≤ maxTxPayload)
    ⟨fun h => ⟨h.1, h.2⟩, fun h => ⟨h.event, h.len⟩⟩

/-- `write` takes the whole frame of a message. -/
def Full (onuId : UInt8) (eventId : UInt16) (payLoad : List UInt8) (written : Int) : Prop :=
  written = (palTxFrame (packMsg onuId eventId payLoad)).length

instance (onuId : UInt8) (eventId : UInt16) (payLoad : List UInt8) (written : Int) :
    Decidable (Full onuId eventId payLoad written) :=
  inferInstanceAs (Decidable (_ = _))

section Calls

variable {t : Tx} {onuId : UInt8} {eventId : UInt16} {payLoad : List UInt8} {written : Int}

theorem palTxData_of_full {p : List UInt8} (hfree : t.writeMutex = false)
    (hfull : written = (palTxFrame p).length) :
    palTxData t p written = ({ t with line := t.line ++ palTxFrame p }, some .ok) := by
  simp only [palTxData, hfree, Bool.false_eq_true, if_false, hfull, ne_eq, not_true_eq_false,
    Int.toNat_natCast, List.take_length]

/-- A call that is refused changes nothing. -/
theorem msgSendToTxQueue_of_not_valid (h : ¬Valid eventId payLoad) :
    msgSendToTxQueue t onuId eventId (some payLoad) written = (t, some .error) := by
  simp only [msgSendToTxQueue]
  split
  · rfl
  · next hevent =>
    rw [if_pos]
    by_contra hlen
    exact h ⟨UInt16.not_le.mp hevent, Nat.le_of_not_lt hlen⟩

/-- **A message is transmitted** when no image upload holds it back, the mutex is free and the
device takes the frame. -/
theorem msgSendToTxQueue_of_free (hvalid : Valid eventId payLoad)
    (hpass : eventId = msgImageUpload ∨ eventId = msgImageUploadAck ∨ t.imageflag = false)
    (hfree : t.writeMutex = false) (hcomm : t.uart1CommEnable = true)
    (hfull : Full onuId eventId payLoad written) :
    msgSendToTxQueue t onuId eventId (some payLoad) written =
      ({ t with
          imageflag := if eventId = msgImageUpload then true else t.imageflag
          line := t.line ++ palTxFrame (packMsg onuId eventId payLoad) }, some .ok) := by
  have hswallow : ¬(eventId ≠ msgImageUpload ∧ eventId ≠ msgImageUploadAck ∧
      t.imageflag = true) := by
    rintro ⟨hupload, hack, hflag⟩
    rcases hpass with heq | heq | hclear
    · exact hupload heq
    · exact hack heq
    · rw [hflag] at hclear
      cases hclear
  simp only [msgSendToTxQueue, if_neg (UInt16.not_le.mpr hvalid.event),
    if_neg (Nat.not_lt.mpr hvalid.len), if_neg hswallow]
  by_cases hupload : eventId = msgImageUpload
  · simp only [if_pos hupload, if_pos hcomm]
    rw [palTxData_of_full (t := { t with imageflag := true }) hfree hfull]
    rfl
  · simp only [if_neg hupload, if_pos hcomm]
    rw [palTxData_of_full hfree hfull]
    rfl

/-- A message that is held back is reported as sent. -/
theorem msgSendToTxQueue_of_imageflag (hvalid : Valid eventId payLoad)
    (hupload : eventId ≠ msgImageUpload) (hack : eventId ≠ msgImageUploadAck)
    (hflag : t.imageflag = true) :
    msgSendToTxQueue t onuId eventId (some payLoad) written = (t, some .ok) := by
  simp only [msgSendToTxQueue, if_neg (UInt16.not_le.mpr hvalid.event),
    if_neg (Nat.not_lt.mpr hvalid.len)]
  rw [if_pos ⟨hupload, hack, hflag⟩]

end Calls

end Opconn.Exchange
