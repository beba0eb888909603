import Opconn.Exchange.ImageUpload

/-!
# Messages are transmitted between uploads

`imageflag` is set when an upload starts, on either side, and cleared when it ends, and
`WriteMutex` is held while a frame is written.  Both are global.  A run is any sequence of
messages that are sent, by any caller, and of upload messages that are received; the claim
is that messages go out whenever no upload is on.
-/

namespace Opconn.Exchange.SendPath

open Runs

/-- The program, and whether an upload that is sent from here is on. -/
structure State where
  upload : Upload.State
  sending : Bool

def State.start (banks : Oam.Download.Bank → Option (List UInt8)) (bootNormal : UInt8) : State :=
  ⟨.start banks bootNormal, false⟩

/-- The two bytes in front of the data of an upload. -/
def sequenceOf (payLoad : List UInt8) : UInt16 := unpackUint16 (payLoad.getD 0 0) (payLoad.getD 1 0)

/-- Whether an upload is on behind a message of it that is sent. -/
def sendingAfter (sending : Bool) (payLoad : List UInt8) : Bool :=
  if sequenceOf payLoad = Upload.uploadImageStart then true
  else if sequenceOf payLoad = Upload.uploadImageEnd then false
  else sending

/-- A message is sent with `msgSendToTxQueue` or a function that only calls it, an upload message with
`msgImageUploadWaitAckPackAndSend`, or an upload message is received. -/
inductive Event where
  | send (onuId : UInt8) (eventId : UInt16) (payLoad : List UInt8) (written : Int)
  | sendWaitAck (onuId : UInt8) (payLoad : List UInt8) (written : Int)
  | receive (e : Upload.Event)

def step (s : State) : Event → State
  | .send onuId eventId payLoad written =>
    { s with
      upload.tx := (msgSendToTxQueue s.upload.tx onuId eventId (some payLoad) written).1
      sending := if eventId = msgImageUpload ∧ Valid eventId payLoad then
        sendingAfter s.sending payLoad else s.sending }
  | .sendWaitAck onuId payLoad written =>
    { s with
      upload.tx := msgImageUploadWaitAckPackAndSend s.upload.tx onuId payLoad written
      sending := if Valid msgImageUpload payLoad then sendingAfter s.sending payLoad
        else s.sending }
  | .receive e => { s with upload := Upload.step s.upload e }

/-- An upload is on, on either side. -/
def State.uploading (s : State) : Prop := s.upload.session.isSome = true ∨ s.sending = true

instance (s : State) : Decidable s.uploading := inferInstanceAs (Decidable (_ ∨ _))

/-- A message that goes to the device is written as a whole. -/
def WritesFull (t : Tx) (onuId : UInt8) (eventId : UInt16) (payLoad : List UInt8)
    (written : Int) : Prop :=
  Valid eventId payLoad →
    eventId = msgImageUpload ∨ eventId = msgImageUploadAck ∨ t.imageflag = false →
      Full onuId eventId payLoad written

/-- The steps that go well: the device takes every frame; a message of an upload is sent while one is
on, and the last one with the function that clears the flag; and the file of an upload that is
received can be opened. -/
def Guard (s : State) : Event → Prop
  | .send onuId eventId payLoad written =>
    WritesFull s.upload.tx onuId eventId payLoad written ∧
      (eventId = msgImageUpload → Valid eventId payLoad →
        s.upload.session.isSome = true ∨ sendingAfter s.sending payLoad = true)
  | .sendWaitAck onuId payLoad written =>
    WritesFull s.upload.tx onuId msgImageUpload payLoad written
  | .receive e => s.upload.hung = false →
    (e.msg.sequence = Upload.uploadImageStart → 0 ≤ e.env.openResult ∨ s.sending = true) ∧
    (e.msg.sequence = Upload.uploadImageEnd → e.env.alloc = true →
      ∀ sum ∈ Upload.checksum s.upload e.env,
        Full e.msg.onuId msgImageUploadAck [Upload.endAck e.msg sum] e.env.ackWritten)

instance (t : Tx) (onuId : UInt8) (eventId : UInt16) (payLoad : List UInt8) (written : Int) :
    Decidable (WritesFull t onuId eventId payLoad written) :=
  inferInstanceAs (Decidable (_ → _ → _))

instance (s : State) : DecidablePred (Guard s)
  | .send _ _ _ _ => inferInstanceAs (Decidable (_ ∧ (_ → _ → _)))
  | .sendWaitAck _ _ _ => inferInstanceAs (Decidable (WritesFull ..))
  | .receive _ => inferInstanceAs (Decidable (_ → (_ → _) ∧ (_ → _ → ∀ _ ∈ _, _)))

/-! ### The invariant -/

/-- The mutex is free, and the flag says that an upload is on. -/
structure Inv (s : State) : Prop where
  free : s.upload.tx.writeMutex = false
  comm : s.upload.tx.uart1CommEnable = true
  flag : s.upload.tx.imageflag = true → s.uploading

theorem inv_start (banks : Oam.Download.Bank → Option (List UInt8)) (bootNormal : UInt8) :
    Inv (.start banks bootNormal) :=
  ⟨rfl, rfl, by nofun⟩

/-- What a call leaves of the flag and the mutex when the device takes the frame. -/
structure Called (t : Tx) (flag : Bool) : Prop where
  free : t.writeMutex = false
  comm : t.uart1CommEnable = true
  imageflag : t.imageflag = flag

theorem called_msgSendToTxQueue {t : Tx} {onuId : UInt8} {eventId : UInt16}
    {payLoad : List UInt8} {written : Int} (hfree : t.writeMutex = false)
    (hcomm : t.uart1CommEnable = true) (hfull : WritesFull t onuId eventId payLoad written) :
    Called (msgSendToTxQueue t onuId eventId (some payLoad) written).1
        (if eventId = msgImageUpload ∧ Valid eventId payLoad then true else t.imageflag) ∧
      (msgSendToTxQueue t onuId eventId (some payLoad) written).2.isSome = true := by
  by_cases hvalid : Valid eventId payLoad
  · by_cases hpass : eventId = msgImageUpload ∨ eventId = msgImageUploadAck ∨ t.imageflag = false
    · rw [msgSendToTxQueue_of_free hvalid hpass hfree hcomm (hfull hvalid hpass)]
      refine ⟨⟨hfree, hcomm, ?_⟩, rfl⟩
      simp only [hvalid, and_true]
    · obtain ⟨hupload, hack, hflag⟩ : eventId ≠ msgImageUpload ∧ eventId ≠ msgImageUploadAck ∧
          t.imageflag = true := by
        simpa [not_or] using hpass
      rw [msgSendToTxQueue_of_imageflag hvalid hupload hack hflag]
      refine ⟨⟨hfree, hcomm, ?_⟩, rfl⟩
      rw [if_neg fun hboth => hupload hboth.1]
  · rw [msgSendToTxQueue_of_not_valid hvalid]
    refine ⟨⟨hfree, hcomm, ?_⟩, rfl⟩
    rw [if_neg fun hboth => hvalid hboth.2]

theorem Inv.send {s : State} (h : Inv s) {onuId : UInt8} {eventId : UInt16}
    {payLoad : List UInt8} {written : Int} (hguard : Guard s (.send onuId eventId payLoad written)) :
    Inv (step s (.send onuId eventId payLoad written)) := by
  obtain ⟨⟨hfree, hcomm, hflag⟩, -⟩ := called_msgSendToTxQueue h.free h.comm hguard.1
  refine ⟨hfree, hcomm, ?_⟩
  intro hset
  rw [step] at hset ⊢
  by_cases hupload : eventId = msgImageUpload ∧ Valid eventId payLoad
  · rw [State.uploading, if_pos hupload]
    exact hguard.2 hupload.1 hupload.2
  · rw [if_neg hupload] at hflag
    rw [State.uploading, if_neg hupload]
    exact h.flag (hflag.symm.trans hset)

theorem Inv.sendWaitAck {s : State} (h : Inv s) {onuId : UInt8} {payLoad : List UInt8}
    {written : Int} (hguard : Guard s (.sendWaitAck onuId payLoad written)) :
    Inv (step s (.sendWaitAck onuId payLoad written)) := by
  obtain ⟨⟨hfree, hcomm, -⟩, hreturns⟩ := called_msgSendToTxQueue h.free h.comm hguard
  obtain ⟨status, hstatus⟩ := Option.isSome_iff_exists.mp hreturns
  have hcall : msgImageUploadWaitAckPackAndSend s.upload.tx onuId payLoad written =
      { (msgSendToTxQueue s.upload.tx onuId msgImageUpload (some payLoad) written).1 with
        imageflag := false } := by
    rw [msgImageUploadWaitAckPackAndSend]
    split
    · next t heq =>
      rw [heq] at hstatus
      cases hstatus
    · next t status' heq => rw [heq]
  rw [step, hcall]
  exact ⟨hfree, hcomm, by nofun⟩

/-- The acknowledgement goes out. -/
theorem called_ack {t : Tx} {onuId : UInt8} {ack : UInt8} {written : Int}
    (hfree : t.writeMutex = false) (hcomm : t.uart1CommEnable = true)
    (hfull : Full onuId msgImageUploadAck [ack] written) :
    Called (msgImageUploadAckPackAndSend t onuId [ack] written).1 t.imageflag ∧
      (msgImageUploadAckPackAndSend t onuId [ack] written).2.isSome = true := by
  have hwrites : WritesFull t onuId msgImageUploadAck [ack] written := fun _ _ => hfull
  have hcalled := called_msgSendToTxQueue hfree hcomm hwrites
  rw [if_neg fun hboth => absurd hboth.1 (by decide)] at hcalled
  exact hcalled

theorem inv_uploadClose (s : State) {u : Upload.State} (hfree : u.tx.writeMutex = false)
    (hcomm : u.tx.uart1CommEnable = true) : Inv { s with upload := Upload.uploadClose u } :=
  ⟨hfree, hcomm, by nofun⟩

/-- An end message that returns clears the flag. -/
theorem Inv.uploadEnd {s : State} (h : Inv s) {e : Upload.Event}
    (hfull : e.env.alloc = true → ∀ sum ∈ Upload.checksum s.upload e.env,
      Full e.msg.onuId msgImageUploadAck [Upload.endAck e.msg sum] e.env.ackWritten) :
    Inv { s with upload := (Upload.uploadEnd s.upload e.env e.msg).1 } := by
  by_cases halloc : e.env.alloc = true
  · cases hsum : Upload.checksum s.upload e.env with
    | none =>
      rw [Upload.uploadEnd, if_pos halloc, hsum]
      exact h
    | some sum =>
      obtain ⟨⟨hfree, hcomm, -⟩, hreturns⟩ := called_ack h.free h.comm (hfull halloc sum hsum)
      rw [Upload.uploadEnd_of_acked halloc hsum hreturns]
      dsimp only
      split
      · exact inv_uploadClose s hfree hcomm
      · exact inv_uploadClose s hfree hcomm
  · rw [Upload.uploadEnd, if_neg halloc]
    exact inv_uploadClose s h.free h.comm

theorem Inv.uploadStart {s : State} (h : Inv s) {env : Upload.Env}
    (hopens : 0 ≤ env.openResult ∨ s.sending = true) :
    Inv { s with upload := (Upload.uploadStart s.upload env).1 } := by
  rw [Upload.uploadStart]
  split
  · next hfails =>
    have hsending : s.sending = true := by
      rcases hopens with hopens | hsending
      · omega
      · exact hsending
    exact ⟨h.free, h.comm, fun _ => .inr hsending⟩
  · exact ⟨h.free, h.comm, fun _ => .inl rfl⟩

theorem Inv.uploadData {s : State} (h : Inv s) (env : Upload.Env) (data : List UInt8) :
    Inv { s with upload := (Upload.uploadData s.upload env data).1 } := by
  have hon (hset : s.upload.tx.imageflag = true) :
      (s.upload.session.map (· ++ data)).isSome = true ∨ s.sending = true := by
    rw [Option.isSome_map]
    exact h.flag hset
  rw [Upload.uploadData]
  dsimp only
  split
  · exact ⟨h.free, h.comm, hon⟩
  · exact ⟨h.free, h.comm, hon⟩

theorem Inv.receive {s : State} (h : Inv s) {e : Upload.Event} (hguard : Guard s (.receive e)) :
    Inv (step s (.receive e)) := by
  rw [step, Upload.step]
  split
  · exact h
  · next hrunning =>
    obtain ⟨hstart, hend⟩ := hguard (by simpa using hrunning)
    have hhandler :
        Inv { s with upload := (Upload.msgImageUploadProcessHandler s.upload e.env e.msg).1 } := by
      rw [Upload.msgImageUploadProcessHandler]
      split
      · next hfirst => exact h.uploadStart (hstart hfirst)
      · split
        · next hlast => exact h.uploadEnd (hend hlast)
        · exact h.uploadData e.env e.msg.data
    exact ⟨hhandler.free, hhandler.comm, hhandler.flag⟩

theorem Inv.step {s : State} (h : Inv s) (e : Event) (hguard : Guard s e) : Inv (step s e) := by
  cases e with
  | send onuId eventId payLoad written => exact h.send hguard
  | sendWaitAck onuId payLoad written => exact h.sendWaitAck hguard
  | receive e => exact h.receive hguard

/-! ### Runs -/

end Opconn.Exchange.SendPath
