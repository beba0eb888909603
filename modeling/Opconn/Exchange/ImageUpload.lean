import Mathlib.Data.List.Basic
import Opconn.Exchange.TxQueue
import Opconn.Lib.Runs
import Opconn.Oam.DownloadThreads

/-!
# Image uploads that are received

`msgImageUploadProcessHandler` opens a file when an upload starts, appends the data to it, and
at the end compares a checksum of the file with the one in the message; if they agree it
writes the file to the bank that is not booted and switches the boot flag.  What it knows of
an upload is the descriptor `imagefd`, which is 0 at first and keeps its value when the file
is closed.  `session` is the bookkeeping for the properties: the data received since the last
start whose file was opened, until the next end.
-/

namespace Opconn.Exchange.Upload

open Runs
open Opconn.Oam.Download (Bank otherBank flashBootOs1Flag)

/-- `UPLOAD_IMAGE_START`, `UPLOAD_IMAGE_END` and `MAX_IMAGE_LOAD`. -/
def uploadImageStart : UInt16 := 0xff
def uploadImageEnd : UInt16 := 0xffff
def maxImageLoad : Nat := 1024 * 1024

/-- `UPLOAD_OK` and `UPLOAD_ERROR`. -/
def uploadOk : UInt8 := 1
def uploadError : UInt8 := 2

/-- What `read` makes of a descriptor that is not the image's.  On an error `count` is -1 and the
checksum goes over 0xFFFFFFFF bytes; `none` if that does not end. -/
inductive OtherRead where
  | bytes (b : List UInt8)
  | error (checksum : Option UInt16)

/-- What a message meets: what `open`, the `write` of its data and the one of the acknowledgement
return, whether there is memory, and whether the configuration partition can be read and
written. -/
structure Env where
  openResult : Int
  alloc : Bool
  other : OtherRead
  imageWritten : Int
  ackWritten : Int
  configOk : Bool

/-- `MSG_IMAGE_UPLOAD`, with the bytes behind `sequence`. -/
structure Msg where
  onuId : UInt8
  sequence : UInt16
  data : List UInt8

/-- The process thread and what it works on.  `opened` is the file behind `imagefd` if it is the
image's, `tmpImage` the one under the image's name, `bankWrites` how often a bank was written,
`lost` how much of the session's data is not in the file. -/
structure State where
  tx : Tx
  imagefd : Int
  opened : Option (List UInt8)
  tmpImage : Option (List UInt8)
  bootNormal : UInt8
  banks : Bank → Option (List UInt8)
  hung : Bool
  bankWrites : Nat
  session : Option (List UInt8)
  lost : Nat

/-- Behind `msgInit`, with the banks and the boot flag as they are in the flash. -/
def State.start (banks : Bank → Option (List UInt8)) (bootNormal : UInt8) : State where
  tx := .start
  imagefd := 0
  opened := none
  tmpImage := none
  bootNormal := bootNormal
  banks := banks
  hung := false
  bankWrites := 0
  session := none
  lost := 0

/-- The checksum over what `read` gets, 1 MiB at most. -/
def checksum (s : State) (env : Env) : Option UInt16 :=
  match s.opened, env.other with
  | some file, _ => some (oplCRC16BitShift (file.take maxImageLoad))
  | none, .bytes b => some (oplCRC16BitShift (b.take maxImageLoad))
  | none, .error sum => sum

/-- The start of an upload. -/
def uploadStart (s : State) (env : Env) : State × Option Status :=
  let s := { s with tx.imageflag := true, imagefd := env.openResult, lost := 0 }
  if env.openResult < 0 then
    ({ s with opened := none, tmpImage := none, session := none }, some .error)
  else ({ s with opened := some [], tmpImage := some [], session := some [] }, some .ok)

/-- The bank that is not booted. -/
def imageBank (s : State) (env : Env) : Bank :=
  otherBank (if env.configOk then s.bootNormal else 0xff)

/-- `mtd erase`, `mtd write` and `rm` of the image; without a file the bank stays erased. -/
def copyToFlash (s : State) (env : Env) : State :=
  let bank := imageBank s env
  { s with
    banks := Function.update s.banks bank s.tmpImage
    bootNormal := if env.configOk then bank.flag else s.bootNormal
    tmpImage := none
    bankWrites := s.bankWrites + 1 }

/-- The last steps of an end message. -/
def uploadClose (s : State) : State :=
  { s with
    opened := if 0 < s.imagefd then none else s.opened
    tx.imageflag := false
    session := none }

def msgCrc (data : List UInt8) : UInt16 := unpackUint16 (data.getD 0 0) (data.getD 1 0)

/-- The end of an upload.  It does not return when the checksum does not, or while the
acknowledgement waits for the mutex. -/
def uploadEnd (s : State) (env : Env) (msg : Msg) : State × Option Status :=
  let crc := msgCrc msg.data
  if env.alloc then
    match checksum s env with
    | none => (s, none)
    | some sum =>
      let ack := if crc = sum then uploadOk else uploadError
      let (tx, status) := msgImageUploadAckPackAndSend s.tx msg.onuId [ack] env.ackWritten
      let s := { s with tx }
      match status with
      | none => (s, none)
      | some _ => (uploadClose (if crc = sum then copyToFlash s env else s), some .ok)
  else (uploadClose s, some .ok)

/-- Data of an upload. -/
def uploadData (s : State) (env : Env) (data : List UInt8) : State × Option Status :=
  let written := if 0 < s.imagefd then data.take env.imageWritten.toNat else []
  let s := { s with
    opened := s.opened.map (· ++ written)
    tmpImage := match s.opened with
      | some file => s.tmpImage.map fun _ => file ++ written
      | none => s.tmpImage
    session := s.session.map (· ++ data)
    lost := s.lost + (data.length - written.length) }
  if 0 < s.imagefd ∧ env.imageWritten = data.length then (s, some .ok) else (s, some .error)

/-- `msgImageUploadProcessHandler`. -/
def msgImageUploadProcessHandler (s : State) (env : Env) (msg : Msg) : State × Option Status :=
  if msg.sequence = uploadImageStart then uploadStart s env
  else if msg.sequence = uploadImageEnd then uploadEnd s env msg
  else uploadData s env msg.data

structure Event where
  msg : Msg
  env : Env

/-- A handler that does not return takes its thread with it. -/
def step (s : State) (e : Event) : State :=
  if s.hung then s
  else
    let (s, status) := msgImageUploadProcessHandler s e.env e.msg
    { s with hung := status.isNone }

/-! ### What may be written -/

/-- The flash as a message leaves it, and no bank was written. -/
structure SameFlash (s s' : State) : Prop where
  bankWrites : s'.bankWrites = s.bankWrites
  banks : s'.banks = s.banks
  bootNormal : s'.bootNormal = s.bootNormal

/-- A message leaves the flash alone, or it ends an upload that was started and not ended, with the
checksum of all its data, and the bank has exactly these. -/
def Justified (s : State) (e : Event) : Prop :=
  SameFlash s (step s e) ∨ e.msg.sequence = uploadImageEnd ∧ ∃ data, s.session = some data ∧
    msgCrc e.msg.data = oplCRC16BitShift data ∧ (step s e).banks (imageBank s e.env) = some data

/-- An end message whose checksum agrees with what the handler computes. -/
structure Accepts (s : State) (e : Event) : Prop where
  running : s.hung = false
  last : e.msg.sequence = uploadImageEnd
  alloc : e.env.alloc = true
  checksum : checksum s e.env = some (msgCrc e.msg.data)
  acked : (msgImageUploadAckPackAndSend s.tx e.msg.onuId [uploadOk] e.env.ackWritten).2.isSome

/-- The messages that go well: an end whose checksum agrees ends an upload whose file was opened,
all of whose data were written, and which is no longer than what the checksum goes over, or
has the same checksum as a whole. -/
def Guard (s : State) (e : Event) : Prop :=
  Accepts s e → ∃ data, s.session = some data ∧ s.lost = 0 ∧
    (data.length ≤ maxImageLoad ∨ oplCRC16BitShift data = msgCrc e.msg.data)

/-! ### The file and the session -/

/-- While an upload is on, the file is open under the image's name and has its data but for
what was lost. -/
structure Inv (s : State) : Prop where
  file : ∀ data, s.session = some data → ∃ file, s.opened = some file ∧ s.tmpImage = some file ∧
    file.Sublist data ∧ file.length + s.lost = data.length

theorem inv_start (banks : Bank → Option (List UInt8)) (bootNormal : UInt8) :
    Inv (.start banks bootNormal) :=
  ⟨by nofun⟩

variable {s : State}

theorem inv_uploadStart (s : State) (env : Env) : Inv (uploadStart s env).1 := by
  rw [uploadStart]
  split
  · exact ⟨by nofun⟩
  · constructor
    intro data hdata
    cases hdata
    exact ⟨[], rfl, rfl, .slnil, rfl⟩

theorem Inv.uploadData (h : Inv s) (env : Env) (data : List UInt8) :
    Inv (uploadData s env data).1 := by
  obtain ⟨written, hwritten⟩ : ∃ written, written =
    if 0 < s.imagefd then data.take env.imageWritten.toNat else [] := ⟨_, rfl⟩
  have hsub : written.Sublist data := by
    rw [hwritten]
    split
    · exact List.take_sublist _ _
    · exact List.nil_sublist _
  have hstate : (Upload.uploadData s env data).1 = { s with
      opened := s.opened.map (· ++ written)
      tmpImage := match s.opened with
        | some file => s.tmpImage.map fun _ => file ++ written
        | none => s.tmpImage
      session := s.session.map (· ++ data)
      lost := s.lost + (data.length - written.length) } := by
    rw [Upload.uploadData, ← hwritten]
    dsimp only
    split <;> rfl
  rw [hstate]
  constructor
  intro all hall
  obtain ⟨before, hbefore, rfl⟩ := Option.map_eq_some_iff.mp hall
  obtain ⟨file, hopened, htmp, hfile, hlen⟩ := h.file before hbefore
  refine ⟨file ++ written, ?_, ?_, hfile.append hsub, ?_⟩
  · show s.opened.map (· ++ written) = _
    rw [hopened]
    rfl
  · simp only [hopened, htmp, Option.map_some]
  · have hle := hsub.length_le
    rw [List.length_append, List.length_append]
    show _ + (s.lost + (data.length - written.length)) = _
    omega

/-- A thread that hangs in an end message leaves the file alone. -/
theorem Inv.hangs (h : Inv s) (tx : Tx) : Inv { s with tx } := ⟨h.file⟩

theorem inv_uploadClose (s : State) : Inv (uploadClose s) := ⟨by nofun⟩

theorem Inv.uploadEnd (h : Inv s) (env : Env) (msg : Msg) : Inv (uploadEnd s env msg).1 := by
  rw [Upload.uploadEnd]
  split
  · split
    · exact h
    · dsimp only
      split
      · exact h.hangs _
      · exact inv_uploadClose _
  · exact inv_uploadClose _

theorem Inv.step (h : Inv s) (e : Event) : Inv (step s e) := by
  rw [Upload.step]
  split
  · exact h
  · have hhandler : Inv (msgImageUploadProcessHandler s e.env e.msg).1 := by
      rw [msgImageUploadProcessHandler]
      split
      · exact inv_uploadStart s e.env
      · split
        · exact h.uploadEnd e.env e.msg
        · exact h.uploadData e.env e.msg.data
    exact ⟨hhandler.file⟩

/-! ### When a bank is written -/

/-- The acknowledgement of an end message. -/
def endAck (msg : Msg) (sum : UInt16) : UInt8 :=
  if msgCrc msg.data = sum then uploadOk else uploadError

/-- An end message that returns. -/
theorem uploadEnd_of_acked {env : Env} {msg : Msg} {sum : UInt16} (halloc : env.alloc = true)
    (hsum : checksum s env = some sum)
    (hacked : (msgImageUploadAckPackAndSend s.tx msg.onuId [endAck msg sum]
      env.ackWritten).2.isSome = true) :
    (uploadEnd s env msg).1 = uploadClose
      (let acked := { s with
        tx := (msgImageUploadAckPackAndSend s.tx msg.onuId [endAck msg sum] env.ackWritten).1 }
      if msgCrc msg.data = sum then copyToFlash acked env else acked) := by
  obtain ⟨status, hstatus⟩ := Option.isSome_iff_exists.mp hacked
  rw [endAck] at hstatus
  simp only [uploadEnd, halloc, if_true, hsum, hstatus, endAck]

/-- An end message whose checksum agrees writes a bank. -/
theorem uploadEnd_of_accepts {e : Event} (h : Accepts s e) :
    ((uploadEnd s e.env e.msg).1).banks =
        Function.update s.banks (imageBank s e.env) s.tmpImage ∧
      ((uploadEnd s e.env e.msg).1).bankWrites = s.bankWrites + 1 := by
  have hack : endAck e.msg (msgCrc e.msg.data) = uploadOk := if_pos rfl
  rw [uploadEnd_of_acked h.alloc h.checksum (by rw [hack]; exact h.acked)]
  simp only [if_true]
  exact ⟨rfl, rfl⟩

/-- Any other end message leaves the flash alone. -/
theorem uploadEnd_of_not_accepts {e : Event} (hrunning : s.hung = false)
    (hlast : e.msg.sequence = uploadImageEnd) (h : ¬Accepts s e) :
    SameFlash s (uploadEnd s e.env e.msg).1 := by
  rw [uploadEnd]
  split
  · next halloc =>
    split
    · exact ⟨rfl, rfl, rfl⟩
    · next sum hsum =>
      by_cases hcrc : msgCrc e.msg.data = sum
      · simp only [if_pos hcrc]
        split
        · exact ⟨rfl, rfl, rfl⟩
        · next status hstatus =>
          refine absurd ⟨hrunning, hlast, halloc, ?_, ?_⟩ h
          · rw [hsum, hcrc]
          · rw [hstatus]
            rfl
      · simp only [if_neg hcrc]
        split
        · exact ⟨rfl, rfl, rfl⟩
        · exact ⟨rfl, rfl, rfl⟩
  · exact ⟨rfl, rfl, rfl⟩

theorem step_of_accepts {e : Event} (h : Accepts s e) :
    (step s e).banks = Function.update s.banks (imageBank s e.env) s.tmpImage ∧
      (step s e).bankWrites = s.bankWrites + 1 := by
  have hfirst : ¬e.msg.sequence = uploadImageStart := by
    rw [h.last]
    decide
  simp only [step, h.running, Bool.false_eq_true, if_false, msgImageUploadProcessHandler,
    if_neg hfirst, if_pos h.last]
  exact uploadEnd_of_accepts h

/-- **Only an end message whose checksum agrees** writes a bank or the boot flag. -/
theorem sameFlash_of_not_accepts {e : Event} (h : ¬Accepts s e) : SameFlash s (step s e) := by
  rw [step]
  split
  · exact ⟨rfl, rfl, rfl⟩
  · next hrunning =>
    have hhandler : SameFlash s (msgImageUploadProcessHandler s e.env e.msg).1 := by
      rw [msgImageUploadProcessHandler]
      split
      · rw [uploadStart]
        split <;> exact ⟨rfl, rfl, rfl⟩
      · split
        · next hlast => exact uploadEnd_of_not_accepts (by simpa using hrunning) hlast h
        · rw [uploadData]
          dsimp only
          split <;> exact ⟨rfl, rfl, rfl⟩
    exact ⟨hhandler.bankWrites, hhandler.banks, hhandler.bootNormal⟩

/-- What is written is justified exactly when the data are all there and the checksum is theirs. -/
theorem Inv.written_iff (h : Inv s) {e : Event} (haccepts : Accepts s e) :
    (∃ data, s.session = some data ∧ msgCrc e.msg.data = oplCRC16BitShift data ∧
      s.tmpImage = some data) ↔
      ∃ data, s.session = some data ∧ s.lost = 0 ∧
        (data.length ≤ maxImageLoad ∨ oplCRC16BitShift data = msgCrc e.msg.data) := by
  constructor
  · rintro ⟨data, hsession, hcrc, htmp⟩
    obtain ⟨file, -, htmp', -, hlen⟩ := h.file data hsession
    have hfile : file = data := by
      rw [htmp] at htmp'
      exact (Option.some.inj htmp').symm
    rw [hfile] at hlen
    exact ⟨data, hsession, by omega, .inr hcrc.symm⟩
  · rintro ⟨data, hsession, hlost, hsum⟩
    obtain ⟨file, hopened, htmp, hsub, hlen⟩ := h.file data hsession
    have hfile : file = data := hsub.eq_of_length (by omega)
    subst hfile
    refine ⟨file, hsession, ?_, htmp⟩
    have hchecksum := haccepts.checksum
    simp only [checksum, hopened] at hchecksum
    rcases hsum with hle | heq
    · rw [List.take_of_length_le hle] at hchecksum
      exact (Option.some.inj hchecksum).symm
    · exact heq.symm

/-! ### Runs -/

/-- One message. -/
theorem Inv.justified_iff (h : Inv s) (e : Event) : Justified s e ↔ Guard s e := by
  by_cases haccepts : Accepts s e
  · obtain ⟨hbanks, hwrites⟩ := step_of_accepts haccepts
    have hchanged : ¬SameFlash s (Upload.step s e) := by
      intro hsame
      have heq := hsame.bankWrites
      omega
    rw [Justified, hbanks, Function.update_self]
    constructor
    · rintro (hsame | ⟨-, hdata⟩)
      · exact absurd hsame hchanged
      · exact fun _ => (h.written_iff haccepts).mp hdata
    · intro hguard
      exact .inr ⟨haccepts.last, (h.written_iff haccepts).mpr (hguard haccepts)⟩
  · exact ⟨fun _ hyes => absurd hyes haccepts, fun _ => .inl (sameFlash_of_not_accepts haccepts)⟩

/-- **A bank is only written at the end of an upload**, with all of its data and their checksum, in
exactly those runs in which every end message whose checksum agrees ends an upload whose data
were all written and go into the checksum. -/
theorem flash_justified_iff (banks : Bank → Option (List UInt8)) (bootNormal : UInt8)
    (es : List Event) :
    AllSteps step Justified (.start banks bootNormal) es ↔
      AllSteps step Guard (.start banks bootNormal) es :=
  allSteps_congr step Inv (fun _ e hs => hs.step e) (fun _ e hs => hs.justified_iff e)
    (inv_start banks bootNormal) es

/-- Standard input is at its end, and everything else succeeds. -/
def emptyInput : Env where
  openResult := 3
  alloc := true
  other := .bytes []
  imageWritten := 0
  ackWritten := 16
  configOk := true

/-- An end message without an upload, with the checksum of no data. -/
def endAlone : Event := ⟨⟨1, uploadImageEnd, [0xff, 0xff]⟩, emptyInput⟩

/-- The second bank is erased and booted from. -/
theorem bank_erased_without_upload :
    ¬∀ (banks : Bank → Option (List UInt8)) (bootNormal : UInt8) (es : List Event),
      AllSteps step Justified (.start banks bootNormal) es := by
  intro h
  rcases (h (fun _ => some [7]) flashBootOs1Flag [endAlone]).1 with hsame | ⟨-, data, hsession, -⟩
  · have hboot := hsame.bootNormal
    revert hboot
    decide +kernel
  · cases hsession

end Opconn.Exchange.Upload
