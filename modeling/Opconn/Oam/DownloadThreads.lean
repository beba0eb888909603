import Opconn.Oam.Download

/-!
# Firmware download: the threads and the flash

`eopl_ctc_end_download_req_handler` copies the received blocks to a file, checks the file
and writes it to the bank that is not booted; `eopl_ctc_load_new_img` switches the boot
flag and resets the board.  Each access to data that the OAM task or another thread can
reach is a step of its own, so a run is any interleaving of PDUs and thread steps.  What
the hardware answers (`Env`) is free at every step.  `Session` is the bookkeeping that the
properties need: what happened since the last write request.
-/

namespace Opconn.Oam.Download

open SList

/-! ### Checking an image -/

/-- `crc_table`, eight rounds of the reflected polynomial for each index. -/
def crcTable (i : UInt32) : UInt32 :=
  (List.range 8).foldl
    (fun c _ => (c >>> 1) ^^^ (if c &&& 1 = 1 then 0xEDB88320 else 0)) i

/-- `DO1`. -/
def crcByte (crc : UInt32) (byte : UInt8) : UInt32 :=
  crcTable ((crc ^^^ byte.toUInt32) &&& 0xff) ^^^ (crc >>> 8)

/-- `crc32(0, buf, len)`. -/
def crc32 (buf : Buffer) : UInt32 := buf.foldl crcByte 0xffffffff ^^^ 0xffffffff

/-- `sizeof(image_header_t)`. -/
def imageHeaderSize : Nat := 76

def utilSwap32 (i : UInt32) : UInt32 :=
  let j := (i <<< 16) ||| (i >>> 16)
  ((j &&& 0xff00ffff) >>> 8) ||| ((j &&& 0xffff00ff) <<< 8)

/-- `check_image`.  A file shorter than the header leaves the rest of `headinfo` as the
`stack` has it. -/
def checkImage (chipid : UInt32) (stack file : Buffer) : Bool :=
  let headinfo := memCpyFront stack (file.take imageHeaderSize)
  let cleared := bytesAt headinfo 0 4 ++ [0, 0, 0, 0] ++ bytesAt headinfo 8 68
  crc32 cleared = u32At headinfo 4 && crc32 (file.drop imageHeaderSize) = u32At headinfo 24 &&
    utilSwap32 (u32At headinfo 64) &&& 0xFFFF0 = chipid &&& 0xFFFF0

/-! ### Boot flags -/

/-- `FLASH_BOOT_OS1_FLAG` and `FLASH_BOOT_OS2_FLAG`. -/
def flashBootOs1Flag : UInt8 := 0x31
def flashBootOs2Flag : UInt8 := 0x32

def Bank.flag : Bank → UInt8
  | .os1 => flashBootOs1Flag
  | .os2 => flashBootOs2Flag

/-- The bank that is not booted; an unreadable flag counts as the first. -/
def otherBank (bootFlag : UInt8) : Bank := if bootFlag = flashBootOs2Flag then .os1 else .os2

/-- What `vosConfigInit` makes of the flags at start-up. -/
def configInit (bootNormal bootUpgrade : UInt8) : UInt8 × UInt8 :=
  if bootUpgrade = flashBootOs2Flag then (bootNormal, flashBootOs1Flag)
  else if bootUpgrade = flashBootOs1Flag then (bootNormal, bootUpgrade)
  else (flashBootOs1Flag, flashBootOs1Flag)

/-- `BoardReset`: everything but the flash is lost. -/
def reboot (s : Onu) : Onu :=
  let flags := configInit s.bootNormal s.bootUpgrade
  .start s.flash flags.1 flags.2

/-! ### Threads -/

/-- What a step of a thread meets: whether `fopen` succeeds, what a freed block reads as,
the chip id, the stack below `check_image`, whether `write_flash` succeeds and whether the
configuration partition can be read and written. -/
structure Env where
  opened : Bool
  stale : Cell Nat (List UInt8)
  chipid : UInt32
  stack : Buffer
  written : Bool
  configOk : Bool

/-- `vosConfigBootFlagGet`, `INVALID_8` when the partition cannot be read. -/
def vosConfigBootFlagGet (env : Env) (flag : UInt8) : UInt8 := if env.configOk then flag else 0xff

/-- `vosConfigBootFlagSet`. -/
def vosConfigBootFlagSet (env : Env) (old value : UInt8) : UInt8 :=
  if env.configOk then value else old

/-- `fwrite` at a position of the stream's own. -/
def writeAt (content : Buffer) (pos : Nat) (bytes : List UInt8) : Buffer :=
  content.take pos ++ List.replicate (pos - content.length) 0 ++ bytes ++
    content.drop (pos + bytes.length)

@[simp] theorem writeAt_length (content bytes : Buffer) :
    writeAt content content.length bytes = content ++ bytes := by
  simp [writeAt]

/-- One step of `eopl_ctc_end_download_req_handler`: the shared state, the next step of the
thread and the frames it sends. -/
def upgradedStep (env : Env) (s : Onu) : UpgradePc → Onu × UpgradePc × List Reply
  | .checkWait => (s, if s.waitForActive then .replySuccess else .checkFlash, [])
  | .replySuccess => (s, .exited, [.endDownloadRsp .writeSuccess])
  | .checkFlash => (s, if s.imageFile.ucFlash then .replyWriting else .removeOld, [])
  | .replyWriting => (s, .exited, [.endDownloadRsp .writing])
  | .removeOld => ({ s with bakFile := none }, .openFile, [])
  | .openFile =>
    if env.opened then
      match s.bakFile with
      | some file => ({ s with inodes := Function.update s.inodes file [] }, .readList file, [])
      | none =>
        ({ s with
            bakFile := some s.inodeTop
            inodes := Function.update s.inodes s.inodeTop []
            inodeTop := s.inodeTop + 1 }, .readList s.inodeTop, [])
    else (s, .checkImage, [])
  | .readList file => (s, .copy file 0 s.imageFile.pstData, [])
  | .copy _ _ none => (s, .checkImage, [])
  | .copy file pos (some a) =>
    let cell := (s.heap a).getD env.stale
    ({ s with
        inodes := Function.update s.inodes file (writeAt (s.inodes file) pos cell.value) },
      .copy file (pos + cell.value.length) cell.next, [])
  | .checkImage =>
    let ok := s.bakFile.any fun file => checkImage env.chipid env.stack (s.inodes file)
    (s, if ok then .markFlash else .replyVerifyError, [])
  | .replyVerifyError => (s, .exited, [.endDownloadRsp .verifyError])
  | .markFlash =>
    ({ s with imageFile := { s.imageFile with ucFlash := true } }, .replyStarted, [])
  | .replyStarted => (s, .readBoot, [.endDownloadRsp .writing])
  | .readBoot => (s, .eraseFlash (otherBank (vosConfigBootFlagGet env s.bootNormal)), [])
  | .eraseFlash bank =>
    match s.bakFile with
    | none => (s, .removeFile, [])
    | some file => ({ s with flash := Function.update s.flash bank none }, .writeFlash bank file, [])
  | .writeFlash bank file =>
    -- the result of `write_flash` is dropped
    (if env.written then { s with flash := Function.update s.flash bank (some (s.inodes file)) }
      else s, .removeFile, [])
  | .removeFile => ({ s with bakFile := none }, .clearFlash, [])
  | .clearFlash => ({ s with imageFile := { s.imageFile with ucFlash := false } }, .markWait, [])
  | .markWait => ({ s with waitForActive := true }, .exited, [])
  | .exited => (s, .exited, [])

def runUpgraded (env : Env) (s : Onu) (i : Nat) : Onu × List Reply :=
  match s.upgraded[i]? with
  | none => (s, [])
  | some t =>
    let next := upgradedStep env s t.pc
    ({ next.1 with upgraded := s.upgraded.set i { t with pc := next.2.1 } }, next.2.2)

/-- One step of `eopl_ctc_load_new_img`, which looks at no flag before it switches. -/
def runLoad (env : Env) (s : Onu) (i : Nat) : Onu × List Reply :=
  match s.load[i]? with
  | none => (s, [])
  | some .clearWait => ({ s with waitForActive := false, load := s.load.set i .reply }, [])
  | some .reply => ({ s with load := s.load.set i .readBoot }, [.actImgRsp 0])
  | some .readBoot =>
    let bank := otherBank (vosConfigBootFlagGet env s.bootNormal)
    ({ s with load := s.load.set i (.setNormal bank) }, [])
  | some (.setNormal bank) =>
    ({ s with
        bootNormal := vosConfigBootFlagSet env s.bootNormal bank.flag
        load := s.load.set i .setUpgrade }, [])
  | some .setUpgrade =>
    ({ s with
        bootUpgrade := vosConfigBootFlagSet env s.bootUpgrade flashBootOs2Flag
        load := s.load.set i .boardReset }, [])
  | some .boardReset => (reboot s, [])

/-- One step of `eopl_ctc_commit_new_img` and of `eopl_set_commit_new_img_flag`, whose two
branches set the same flag. -/
def runCommit (env : Env) (s : Onu) (i : Nat) : Onu × List Reply :=
  match s.commit[i]? with
  | none => (s, [])
  | some .reply => ({ s with commit := s.commit.set i .readBoot }, [.commitImgRsp 0])
  | some .readBoot => ({ s with commit := s.commit.set i .setUpgrade }, [])
  | some .setUpgrade =>
    ({ s with
        bootUpgrade := vosConfigBootFlagSet env s.bootUpgrade flashBootOs1Flag
        commit := s.commit.set i .exited }, [])
  | some .exited => (s, [])

/-! ### Runs -/

/-- A PDU reaches the OAM task, or a thread takes a step. -/
inductive Event where
  | pdu (pdu : Buffer)
  | upgraded (i : Nat) (env : Env)
  | load (i : Nat) (env : Env)
  | commit (i : Nat) (env : Env)

def handle (s : Onu) : Event → Onu × List Reply
  | .pdu pdu => softDownload s pdu
  | .upgraded i env => runUpgraded env s i
  | .load i env => runLoad env s i
  | .commit i env => runCommit env s i

/-! ### What happened since the last write request -/

/-- `started` tells a session that a write request opened from the time before the first
one; `announced` are the sizes of the end-download requests, `passed` the files that
`check_image` accepted, `written` the files completely written to a bank, and `switched`
says that the boot flag was set. -/
structure Session where
  started : Bool
  kept : List Block
  announced : List UInt32
  passed : List Buffer
  written : List (Bank × Buffer)
  switched : Bool
deriving DecidableEq, Repr

def Session.none : Session := ⟨false, [], [], [], [], false⟩

def Session.observePdu (g : Session) (pdu : Buffer) : Session :=
  match requestAt pdu with
  | .writeReq => { Session.none with started := true }
  | .data block => { g with kept := accept g.kept block }
  | .endDownloadReq ulFileSize => { g with announced := g.announced ++ [ulFileSize] }
  | _ => g

def Session.observeUpgraded (g : Session) (env : Env) (s : Onu) : UpgradePc → Session
  | .checkImage =>
    match s.bakFile with
    | some file =>
      if checkImage env.chipid env.stack (s.inodes file) then
        { g with passed := g.passed ++ [s.inodes file] }
      else g
    | Option.none => g
  | .writeFlash bank file =>
    if env.written then { g with written := g.written ++ [(bank, s.inodes file)] } else g
  | _ => g

def Session.observeLoad (g : Session) (env : Env) : LoadPc → Session
  | .setNormal _ => if env.configOk then { g with switched := true } else g
  | .boardReset => .none
  | _ => g

def Session.observe (s : Onu) (g : Session) : Event → Session
  | .pdu pdu => g.observePdu pdu
  | .upgraded i env =>
    match s.upgraded[i]? with
    | some t => g.observeUpgraded env s t.pc
    | Option.none => g
  | .load i env =>
    match s.load[i]? with
    | some pc => g.observeLoad env pc
    | Option.none => g
  | .commit _ _ => g

/-- The ONU with the history of its current download. -/
structure Traced where
  onu : Onu
  session : Session

def Traced.start (flash : Bank → Option Buffer) (bootNormal bootUpgrade : UInt8) : Traced :=
  ⟨.start flash bootNormal bootUpgrade, .none⟩

def step (r : Traced) (e : Event) : Traced :=
  ⟨(handle r.onu e).1, r.session.observe r.onu e⟩

end Opconn.Oam.Download
