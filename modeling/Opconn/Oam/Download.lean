import Mathlib.Algebra.Order.BigOperators.Group.List
import Mathlib.Algebra.Order.Group.Nat
import Mathlib.Data.List.Induction
import Mathlib.Data.List.Perm.Subperm
import Opconn.Lib.Runs
import Opconn.Lib.SList
import Opconn.Oam.Frame

/-!
# Firmware download: the OAM task

A new image arrives in TFTP-like PDUs (`eopl_ctc_soft_download`).  A write request
opens a download, DATA blocks are numbered from 1 and kept in a linked list, and the
end-download, activate and commit requests each start a thread.  The task handles one PDU
at a time; the threads it starts are in `DownloadThreads`.  Allocation is taken to succeed,
and the replies are kept as the fields the OLT reads, without their padding.
-/

namespace Opconn.Oam.Download

open SList

/-! ### Requests -/

def u32At (buf : Buffer) (offset : Nat) : UInt32 :=
  (u16At buf offset).toUInt32 * 65536 + (u16At buf (offset + 2)).toUInt32

/-- What a DATA PDU carries. -/
structure Block where
  usBlockNum : UInt16
  payload : List UInt8
deriving DecidableEq, Repr

/-- The PDUs of the download, as `eopl_ctc_soft_download` and its handlers tell them apart. -/
inductive Request where
  | writeReq
  | data (block : Block)
  | endDownloadReq (ulFileSize : UInt32)
  | actImgReq
  | commitImgReq
  | ignored
deriving DecidableEq, Repr

/-- `sizeof(ctc_tftp_header_t)`: data type, length and transaction id. -/
def ctcTftpHeaderSize : Nat := 5

/-- `OAM_SOFT_TYPE_TFTP` and its siblings. -/
def oamSoftTypeTftp : UInt8 := 1
def oamSoftTypeCrc : UInt8 := 2
def oamSoftTypeLoad : UInt8 := 3
def oamSoftTypeCommit : UInt8 := 4

/-- `TFTP_W_REQ` and the other opcodes that are acted on. -/
def tftpWReq : UInt16 := 2
def tftpData : UInt16 := 3
def tftpEndDownloadReq : UInt16 := 6
def tftpActImgReq : UInt16 := 8
def tftpCommitImgReq : UInt16 := 0xa

/-- `LOAD_NEW_IMG` and `COMMIT_NEW_IMG`. -/
def loadNewImg : UInt8 := 0
def commitNewImg : UInt8 := 0

/-- The block number and the payload of a DATA PDU.  The length is computed from the header
in 16 bits, first in `eopl_ctc_soft_download`, then in the two handlers below it. -/
def blockAt (pdu : Buffer) : Block where
  usBlockNum := u16At pdu 7
  payload := bytesAt pdu 9 (u16At pdu 1 - 5 - 2 - 2).toNat

/-- `eopl_ctc_commit_req_handler`. -/
def commitReqAt (pdu : Buffer) : Request :=
  if byteAt pdu 7 = commitNewImg then .commitImgReq else .ignored

/-- `eopl_ctc_soft_download` with `eopl_ctc_tftp_handler`, `eopl_ctc_crc_handler`,
`eopl_ctc_load_handler` and `eopl_ctc_commit_handler`: a load PDU may carry a commit too. -/
def requestAt (pdu : Buffer) : Request :=
  let opcode := u16At pdu ctcTftpHeaderSize
  if byteAt pdu 0 = oamSoftTypeTftp then
    if opcode = tftpWReq then .writeReq
    else if opcode = tftpData then .data (blockAt pdu)
    else .ignored
  else if byteAt pdu 0 = oamSoftTypeCrc then
    if opcode = tftpEndDownloadReq then .endDownloadReq (u32At pdu 7) else .ignored
  else if byteAt pdu 0 = oamSoftTypeLoad then
    if opcode = tftpActImgReq then
      if byteAt pdu 7 = loadNewImg then .actImgReq else .ignored
    else if opcode = tftpCommitImgReq then commitReqAt pdu
    else .ignored
  else if byteAt pdu 0 = oamSoftTypeCommit then
    if opcode = tftpCommitImgReq then commitReqAt pdu else .ignored
  else .ignored

theorem requestAt_data {pdu : Buffer} {block : Block} (h : requestAt pdu = .data block) :
    block = blockAt pdu := by
  simp only [requestAt, commitReqAt] at h
  split_ifs at h
  exact (Request.data.inj h).symm

/-! ### State -/

/-- `OAM_FIRMWARE_WRITE_SUCCESS`, `OAM_FIRMWARE_WRITING`, `OAM_FIRMWARE_VERIFY_ERROR`. -/
inductive RpsCode where
  | writeSuccess | writing | verifyError
deriving DecidableEq, Repr

/-- The frames the ONU sends. -/
inductive Reply where
  | tftpAck (block : UInt16)
  | endDownloadRsp (ucRpsCode : RpsCode)
  | actImgRsp (ucAck : UInt8)
  | commitImgRsp (ucAck : UInt8)
deriving DecidableEq, Repr

/-- The partitions `FLASH_DEV_NAME_OS1` and `FLASH_DEV_NAME_OS2`. -/
inductive Bank where
  | os1 | os2
deriving DecidableEq, Repr

/-- Where a `tUpgraded` thread (`eopl_ctc_end_download_req_handler`) stands.  A file is
named by its inode, `pos` is the position of the stream in it. -/
inductive UpgradePc where
  | checkWait | replySuccess
  | checkFlash | replyWriting
  | removeOld | openFile
  | readList (file : Nat)
  | copy (file pos : Nat) (pstData : Option Nat)
  | checkImage | replyVerifyError
  | markFlash | replyStarted
  | readBoot
  | eraseFlash (bank : Bank)
  | writeFlash (bank : Bank) (file : Nat)
  | removeFile | clearFlash | markWait
  | exited
deriving DecidableEq, Repr

structure Upgraded where
  ulFileSize : UInt32
  pc : UpgradePc
deriving DecidableEq, Repr

/-- Where a `tLoad` thread (`eopl_ctc_load_new_img`) stands. -/
inductive LoadPc where
  | clearWait | reply | readBoot
  | setNormal (bank : Bank)
  | setUpgrade | boardReset
deriving DecidableEq, Repr

/-- A `tCommit` thread, and the `tWriteFlash` thread that it ends by starting. -/
inductive CommitPc where
  | reply | readBoot | setUpgrade | exited
deriving DecidableEq, Repr

/-- The part of `TFTP_FILE_t` that is read; `ucNameLen` and `aucFileName` are only printed. -/
structure ImageFile where
  ucFlash : Bool
  usBlock1 : UInt16
  uiFileSize : UInt32
  pstData : Option Nat
  pstDataEnd : Option Nat
deriving DecidableEq, Repr

/-- The globals of the download, the heap of `TFTP_DATA_t` blocks (the `usLen` bytes of a
block and `pstNext`), the files under `/tmp`, the flash and the threads. -/
structure Onu where
  upgradeOngoing : Bool
  waitForActive : Bool
  imageFile : ImageFile
  heap : Heap Nat (List UInt8)
  heapTop : Nat
  /-- The inode of `/tmp/opconn.img.bak.oam`. -/
  bakFile : Option Nat
  inodes : Nat → List UInt8
  inodeTop : Nat
  /-- The image a bank holds, none once the bank is erased and not written again. -/
  flash : Bank → Option (List UInt8)
  /-- `FLASH_BOOT_FLAG_NORMAL` and `FLASH_BOOT_FLAG_UPGRADE`. -/
  bootNormal : UInt8
  bootUpgrade : UInt8
  upgraded : List Upgraded
  load : List LoadPc
  commit : List CommitPc

/-- The ONU after start-up: the globals are zero and no thread runs. -/
def Onu.start (flash : Bank → Option (List UInt8)) (bootNormal bootUpgrade : UInt8) : Onu where
  upgradeOngoing := false
  waitForActive := false
  imageFile := ⟨false, 0, 0, none, none⟩
  heap := fun _ => none
  heapTop := 0
  bakFile := none
  inodes := fun _ => []
  inodeTop := 0
  flash := flash
  bootNormal := bootNormal
  bootUpgrade := bootUpgrade
  upgraded := []
  load := []
  commit := []

/-! ### Handlers -/

/-- `eopl_ctc_tftp_file_write_req_handler`.  Addresses are handed out once and below
`heapTop`, so `heapTop` rounds free every block of the list. -/
def tftpFileWriteReqHandler (s : Onu) : Onu × List Reply :=
  let heap := if s.upgradeOngoing then freeFrom s.heapTop s.heap s.imageFile.pstData else s.heap
  ({ s with
      heap := heap
      upgradeOngoing := true
      imageFile := { s.imageFile with
        ucFlash := false, usBlock1 := 0, uiFileSize := 0, pstData := none } },
    [.tftpAck 0])

/-- The longest block, `sizeof(aucDataBlock)`. -/
def dataBlockSize : Nat := 1400

/-- The lengths `eopl_ctc_tftp_data_handler` accepts. -/
def Block.fits (block : Block) : Bool :=
  0 < block.payload.length && block.payload.length ≤ dataBlockSize

/-- `g_stImageFile.usBlock1+1 == usBlockNum`, added as `int`. -/
def inOrder (s : Onu) (block : Block) : Bool :=
  s.imageFile.usBlock1.toNat + 1 = block.usBlockNum.toNat

/-- The block is allocated before its number is looked at. -/
def allocBlock (s : Onu) (payload : List UInt8) : Onu :=
  { s with
    heap := Function.update s.heap s.heapTop (some ⟨payload, none⟩)
    heapTop := s.heapTop + 1 }

/-- Links the block at `pstData` behind the list and counts it. -/
def linkBlock (s : Onu) (block : Block) (pstData : Nat) : Onu :=
  if s.imageFile.pstData = none then
    { s with imageFile := { s.imageFile with
        usBlock1 := block.usBlockNum
        pstData := some pstData
        pstDataEnd := some pstData
        uiFileSize := UInt32.ofNat block.payload.length } }
  else
    { s with
      heap := setNext s.heap s.imageFile.pstDataEnd (some pstData)
      imageFile := { s.imageFile with
        usBlock1 := block.usBlockNum
        pstDataEnd := some pstData
        uiFileSize := s.imageFile.uiFileSize + UInt32.ofNat block.payload.length } }

/-- `eopl_ctc_tftp_data_handler`: a block of a bad length is not even acknowledged. -/
def tftpDataHandler (s : Onu) (block : Block) : Onu × List Reply :=
  if block.fits then
    let allocated := allocBlock s block.payload
    let s' := if inOrder s block then linkBlock allocated block s.heapTop else allocated
    (s', [.tftpAck s'.imageFile.usBlock1])
  else (s, [])

/-- `eopl_ctc_soft_download`; the last three requests only start a thread. -/
def softDownload (s : Onu) (pdu : Buffer) : Onu × List Reply :=
  match requestAt pdu with
  | .writeReq => tftpFileWriteReqHandler s
  | .data block => tftpDataHandler s block
  | .endDownloadReq ulFileSize =>
    ({ s with upgraded := s.upgraded ++ [⟨ulFileSize, .checkWait⟩] }, [])
  | .actImgReq => ({ s with load := s.load ++ [.clearWait] }, [])
  | .commitImgReq => ({ s with commit := s.commit ++ [.reply] }, [])
  | .ignored => (s, [])

/-! ### What a receiver of numbered blocks should keep -/

/-- A block is accepted when its length fits and its number is the next one. -/
def accept (kept : List Block) (block : Block) : List Block :=
  if block.fits ∧ block.usBlockNum.toNat = kept.length + 1 then kept ++ [block] else kept

/-- The blocks accepted out of a stream of DATA PDUs. -/
def accepted (blocks : List Block) : List Block := blocks.foldl accept []

def payloads (kept : List Block) : List (List UInt8) := kept.map Block.payload

/-- The file that the accepted blocks make up. -/
def image (kept : List Block) : List UInt8 := (payloads kept).flatten

/-- Accepted blocks are numbered 1, 2, 3 and so on, and each has a length that fits. -/
structure Numbered (kept : List Block) : Prop where
  nums : kept.map (·.usBlockNum.toNat) = List.range' 1 kept.length
  fits : ∀ block ∈ kept, block.fits = true

theorem numbered_nil : Numbered [] := ⟨rfl, by simp⟩

theorem Numbered.accept {kept : List Block} (h : Numbered kept) (block : Block) :
    Numbered (accept kept block) := by
  by_cases hb : block.fits ∧ block.usBlockNum.toNat = kept.length + 1
  · rw [Download.accept, if_pos hb]
    constructor
    · rw [List.map_append, h.nums, List.length_append, List.length_singleton,
        List.range'_concat]
      simp [hb.2, Nat.add_comm]
    · intro b hmem
      rcases List.mem_append.mp hmem with hold | hnew
      · exact h.fits b hold
      · rw [List.mem_singleton.mp hnew]
        exact hb.1
  · rw [Download.accept, if_neg hb]
    exact h

theorem Numbered.length_lt {kept : List Block} (h : Numbered kept) : kept.length < 65536 := by
  rcases Nat.eq_zero_or_pos kept.length with hzero | hpos
  · omega
  · have hmem : kept.length ∈ kept.map (·.usBlockNum.toNat) := by
      rw [h.nums, List.mem_range'_1]
      omega
    obtain ⟨block, -, hnum⟩ := List.mem_map.mp hmem
    have := block.usBlockNum.toNat_lt
    omega

theorem Numbered.image_length_le {kept : List Block} (h : Numbered kept) :
    (image kept).length ≤ kept.length * dataBlockSize := by
  have hle : ∀ n ∈ (payloads kept).map List.length, n ≤ dataBlockSize := by
    intro n hn
    obtain ⟨p, hp, rfl⟩ := List.mem_map.mp hn
    obtain ⟨block, hmem, rfl⟩ := List.mem_map.mp hp
    have hfits := h.fits block hmem
    simp only [Block.fits, Bool.and_eq_true, decide_eq_true_eq] at hfits
    exact hfits.2
  have hsum := List.sum_le_card_nsmul _ _ hle
  simpa [image, payloads, List.length_flatten] using hsum

/-- 65535 blocks of 1400 bytes fit a 32-bit size. -/
theorem Numbered.image_length_lt {kept : List Block} (h : Numbered kept) :
    (image kept).length < 4294967296 := by
  have hlen := h.length_lt
  have hle := h.image_length_le
  simp only [dataBlockSize] at hle
  omega

theorem accepted_append (blocks : List Block) (block : Block) :
    accepted (blocks ++ [block]) = accept (accepted blocks) block := by
  simp [accepted]

theorem numbered_accepted (blocks : List Block) : Numbered (accepted blocks) := by
  induction blocks using List.reverseRecOn with
  | nil => exact numbered_nil
  | append_singleton blocks block ih =>
    rw [accepted_append]
    exact ih.accept block

theorem accepted_sublist (blocks : List Block) : (accepted blocks).Sublist blocks := by
  induction blocks using List.reverseRecOn with
  | nil => exact List.Sublist.refl _
  | append_singleton blocks block ih =>
    rw [accepted_append]
    by_cases hb : block.fits ∧ block.usBlockNum.toNat = (accepted blocks).length + 1
    · rw [accept, if_pos hb]
      exact ih.append_right _
    · rw [accept, if_neg hb]
      exact ih.trans (List.sublist_append_left ..)

/-! ### The list of blocks -/

/-- The list, its end pointer and the two counters stand for the accepted blocks `kept`. -/
structure Stores (s : Onu) (kept : List Block) : Prop where
  numbered : Numbered kept
  cells : ∃ cells : List (Nat × List UInt8),
    Linked s.heap s.imageFile.pstData cells ∧ cells.map Prod.snd = payloads kept ∧
    (cells.map Prod.fst).Nodup ∧ (∀ c ∈ cells, c.1 < s.heapTop) ∧
    (cells ≠ [] → s.imageFile.pstDataEnd = cells.getLast?.map Prod.fst)
  block1 : s.imageFile.usBlock1.toNat = kept.length
  size : s.imageFile.uiFileSize.toNat = (image kept).length

/-- Steps that leave the list and the counters alone, and free or change none of its
blocks. -/
theorem Stores.congr {s s' : Onu} {kept : List Block} (h : Stores s kept)
    (hheap : ∀ a < s.heapTop, s'.heap a = s.heap a) (htop : s.heapTop ≤ s'.heapTop)
    (hblock1 : s'.imageFile.usBlock1 = s.imageFile.usBlock1)
    (hsize : s'.imageFile.uiFileSize = s.imageFile.uiFileSize)
    (hdata : s'.imageFile.pstData = s.imageFile.pstData)
    (hend : s'.imageFile.pstDataEnd = s.imageFile.pstDataEnd) : Stores s' kept := by
  obtain ⟨cells, hlinked, hvalues, hnodup, hlow, hlast⟩ := h.cells
  refine ⟨h.numbered, ⟨cells, ?_, hvalues, hnodup, ?_, ?_⟩, ?_, ?_⟩
  · rw [hdata]
    exact hlinked.congr fun c hc => hheap c.1 (hlow c hc)
  · intro c hc
    have := hlow c hc
    omega
  · rw [hend]
    exact hlast
  · rw [hblock1]
    exact h.block1
  · rw [hsize]
    exact h.size

theorem stores_writeReq (s : Onu) : Stores (tftpFileWriteReqHandler s).1 [] where
  numbered := numbered_nil
  cells := ⟨[], rfl, rfl, List.nodup_nil, by simp, by simp⟩
  block1 := rfl
  size := rfl

/-- A write request frees the blocks of the download before it and no others. -/
theorem writeReq_frees {s : Onu} {kept : List Block} (h : Stores s kept)
    (hon : s.upgradeOngoing = true) :
    ∃ cells, Linked s.heap s.imageFile.pstData cells ∧ cells.map Prod.snd = payloads kept ∧
      ∀ a, (tftpFileWriteReqHandler s).1.heap a =
        if a ∈ cells.map Prod.fst then none else s.heap a := by
  obtain ⟨cells, hlinked, hvalues, hnodup, hlow, -⟩ := h.cells
  refine ⟨cells, hlinked, hvalues, ?_⟩
  intro a
  -- distinct addresses below `heapTop`: there are at most that many cells
  have hfuel : cells.length ≤ s.heapTop := by
    have hsub : cells.map Prod.fst ⊆ List.range s.heapTop := by
      intro b hb
      obtain ⟨c, hc, rfl⟩ := List.mem_map.mp hb
      exact List.mem_range.mpr (hlow c hc)
    simpa using (List.subperm_of_subset hnodup hsub).length_le
  simp only [tftpFileWriteReqHandler, hon, if_true]
  exact freeFrom_linked hlinked hnodup hfuel a

theorem stores_allocBlock {s : Onu} {kept : List Block} (h : Stores s kept)
    (payload : List UInt8) : Stores (allocBlock s payload) kept := by
  refine h.congr ?_ ?_ rfl rfl rfl rfl
  · intro a ha
    exact Function.update_of_ne (by omega) _ _
  · exact Nat.le_succ _

/-- Linking the block just allocated adds it to the accepted ones. -/
theorem stores_linkBlock {s : Onu} {kept : List Block} (h : Stores s kept) {block : Block}
    (hfits : block.fits = true) (hnext : block.usBlockNum.toNat = kept.length + 1) :
    Stores (linkBlock (allocBlock s block.payload) block s.heapTop) (kept ++ [block]) := by
  have hnumbered : Numbered (kept ++ [block]) := by
    have := h.numbered.accept block
    rwa [accept, if_pos ⟨hfits, hnext⟩] at this
  have himage : image (kept ++ [block]) = image kept ++ block.payload := by
    simp [image, payloads]
  have hbound := hnumbered.image_length_lt
  rw [himage, List.length_append] at hbound
  obtain ⟨cells, hlinked, hvalues, hnodup, hlow, hlast⟩ := h.cells
  have hfresh : s.heapTop ∉ cells.map Prod.fst := by
    intro hmem
    obtain ⟨c, hc, heq⟩ := List.mem_map.mp hmem
    have := hlow c hc
    omega
  have hnew : (allocBlock s block.payload).heap s.heapTop = some ⟨block.payload, none⟩ :=
    Function.update_self ..
  have hlinked' : Linked (allocBlock s block.payload).heap s.imageFile.pstData cells := by
    apply hlinked.congr
    intro c hc
    have := hlow c hc
    exact Function.update_of_ne (by omega) _ _
  have hnodup' : ((cells ++ [(s.heapTop, block.payload)]).map Prod.fst).Nodup := by
    rw [List.map_append, List.nodup_append]
    refine ⟨hnodup, by simp, ?_⟩
    intro a ha b hb heq
    simp only [List.map_cons, List.map_nil, List.mem_singleton] at hb
    exact hfresh (hb ▸ heq ▸ ha)
  have hlow' : ∀ c ∈ cells ++ [(s.heapTop, block.payload)], c.1 < s.heapTop + 1 := by
    intro c hc
    rcases List.mem_append.mp hc with hold | hnew
    · have := hlow c hold
      omega
    · rw [List.mem_singleton.mp hnew]
      exact Nat.lt_succ_self _
  rcases List.eq_nil_or_concat' cells with rfl | ⟨front, last, rfl⟩
  · have hhead : s.imageFile.pstData = none := hlinked
    have hkept : kept = [] := by simpa [payloads] using hvalues.symm
    subst hkept
    have hcond : (allocBlock s block.payload).imageFile.pstData = none := hhead
    rw [linkBlock, if_pos hcond]
    refine ⟨hnumbered, ⟨[(s.heapTop, block.payload)], ⟨rfl, none, hnew, rfl⟩, rfl, by simp,
      hlow', fun _ => rfl⟩, hnext, ?_⟩
    rw [himage]
    simpa [image, payloads] using Nat.mod_eq_of_lt hbound
  · have hend : s.imageFile.pstDataEnd = some last.1 := by
      simpa using hlast (by simp)
    have hcond : (allocBlock s block.payload).imageFile.pstData ≠ none := by
      intro hnone
      have hhead : s.imageFile.pstData = none := hnone
      rw [hhead] at hlinked
      cases front <;> simp [Linked] at hlinked
    rw [linkBlock, if_neg hcond]
    refine ⟨hnumbered, ⟨front ++ [last] ++ [(s.heapTop, block.payload)], ?_, ?_, hnodup', hlow',
      fun _ => by simp⟩, by simpa using hnext, ?_⟩
    · show Linked (setNext _ s.imageFile.pstDataEnd _) s.imageFile.pstData _
      rw [hend]
      exact hlinked'.append hnodup hnew hfresh
    · rw [List.map_append, hvalues]
      simp [payloads]
    · show (s.imageFile.uiFileSize + UInt32.ofNat block.payload.length).toNat = _
      rw [himage, List.length_append, UInt32.toNat_add, h.size, UInt32.toNat_ofNat', Nat.add_mod_mod]
      exact Nat.mod_eq_of_lt hbound

/-- The handler stores what a receiver of numbered blocks should keep. -/
theorem stores_dataHandler {s : Onu} {kept : List Block} (h : Stores s kept) (block : Block) :
    Stores (tftpDataHandler s block).1 (accept kept block) := by
  have horder : inOrder s block = true ↔ block.usBlockNum.toNat = kept.length + 1 := by
    rw [inOrder, h.block1, decide_eq_true_eq]
    exact eq_comm
  by_cases hfits : block.fits = true
  · by_cases hnext : block.usBlockNum.toNat = kept.length + 1
    · rw [accept, if_pos ⟨hfits, hnext⟩]
      simp only [tftpDataHandler, hfits, horder.mpr hnext, if_true]
      exact stores_linkBlock h hfits hnext
    · rw [accept, if_neg fun hc => hnext hc.2]
      simp only [tftpDataHandler, hfits, mt horder.mp hnext, if_true]
      exact stores_allocBlock h block.payload
  · rw [accept, if_neg fun hc => hfits hc.1]
    simpa [tftpDataHandler, hfits] using h

/-- Each block of a length that fits is acknowledged with the number of the last one
accepted. -/
theorem dataHandler_ack {s : Onu} {kept : List Block} (h : Stores s kept) (block : Block) :
    (tftpDataHandler s block).2 =
      if block.fits then [.tftpAck (UInt16.ofNat (accept kept block).length)] else [] := by
  have hblock1 := (stores_dataHandler h block).block1
  by_cases hfits : block.fits = true
  · simp only [tftpDataHandler, hfits, if_true] at hblock1 ⊢
    rw [← hblock1, UInt16.ofNat_toNat]
  · simp [tftpDataHandler, hfits]

/-! ### Streams of DATA PDUs -/

/-- The state after a list of PDUs. -/
def receive (s : Onu) (pdus : List Buffer) : Onu :=
  Runs.run (fun s pdu => (softDownload s pdu).1) s pdus

def IsData (pdu : Buffer) : Prop := ∃ block, requestAt pdu = .data block

theorem softDownload_data {pdu : Buffer} (h : IsData pdu) (s : Onu) :
    softDownload s pdu = tftpDataHandler s (blockAt pdu) := by
  obtain ⟨block, hblock⟩ := h
  rw [softDownload, hblock, requestAt_data hblock]

theorem stores_receive {s : Onu} {kept : List Block} (h : Stores s kept) {pdus : List Buffer}
    (hdata : ∀ pdu ∈ pdus, IsData pdu) :
    Stores (receive s pdus) ((pdus.map blockAt).foldl accept kept) := by
  induction pdus generalizing s kept with
  | nil => exact h
  | cons pdu pdus ih =>
    have hstep : Stores (softDownload s pdu).1 (accept kept (blockAt pdu)) := by
      rw [softDownload_data (hdata pdu (List.mem_cons_self ..))]
      exact stores_dataHandler h _
    exact ih hstep fun p hp => hdata p (List.mem_cons_of_mem _ hp)

/-- **Reassembly.**  After a write request, in whatever state the ONU was, and any DATA PDUs,
the accepted blocks are a subsequence of those sent, numbered 1 to `k`; the list holds their
payloads in that order, the file size is their total length, and whichever DATA PDU comes
next is acknowledged with the number of the last block accepted by then. -/
theorem data_pdus_reassembled (s : Onu) {request : Buffer} (hreq : requestAt request = .writeReq)
    {pdus : List Buffer} (hdata : ∀ pdu ∈ pdus, IsData pdu) :
    let blocks := pdus.map blockAt
    let s' := receive (softDownload s request).1 pdus
    (accepted blocks).Sublist blocks ∧
    (accepted blocks).map (·.usBlockNum.toNat) = List.range' 1 (accepted blocks).length ∧
    (∃ cells, Linked s'.heap s'.imageFile.pstData cells ∧ (cells.map Prod.fst).Nodup ∧
      cells.map Prod.snd = (accepted blocks).map Block.payload) ∧
    s'.imageFile.usBlock1.toNat = (accepted blocks).length ∧
    s'.imageFile.uiFileSize.toNat = ((accepted blocks).map Block.payload).flatten.length ∧
    ∀ pdu, IsData pdu → (softDownload s' pdu).2 =
      if (blockAt pdu).fits then
        [.tftpAck (UInt16.ofNat (accepted (blocks ++ [blockAt pdu])).length)]
      else [] := by
  have hstart : Stores (softDownload s request).1 [] := by
    rw [softDownload, hreq]
    exact stores_writeReq s
  have hstores : Stores (receive (softDownload s request).1 pdus) (accepted (pdus.map blockAt)) :=
    stores_receive hstart hdata
  obtain ⟨cells, hlinked, hvalues, hnodup, -⟩ := hstores.cells
  refine ⟨accepted_sublist _, hstores.numbered.nums, ⟨cells, hlinked, hnodup, hvalues⟩,
    hstores.block1, hstores.size, ?_⟩
  intro pdu hpdu
  rw [softDownload_data hpdu, dataHandler_ack hstores, accepted_append]

/-- A write request, and DATA PDUs of one block number and payload. -/
def writeReqPdu : Buffer := [1, 0, 9, 0, 0, 0, 2, 0]

def dataPdu (num : UInt8) (payload : List UInt8) : Buffer :=
  [1, 0, 9 + UInt8.ofNat payload.length, 0, 0, 0, 3, 0, num] ++ payload

/-- Blocks 1, 3, 1 and 2: the third is early, the second copy of the first is late. -/
theorem disordered_pdus_reassembled :
    let s' := receive (softDownload (.start (fun _ => none) 0x31 0x31) writeReqPdu).1
      [dataPdu 1 [7], dataPdu 3 [9], dataPdu 1 [6], dataPdu 2 [8, 8]]
    s'.imageFile.usBlock1.toNat = 2 ∧ s'.imageFile.uiFileSize.toNat = 3 ∧
      (softDownload s' (dataPdu 3 [9])).2 = [.tftpAck 3] := by
  have hdata : ∀ pdu ∈ [dataPdu 1 [7], dataPdu 3 [9], dataPdu 1 [6], dataPdu 2 [8, 8]],
      IsData pdu := by
    simp only [List.mem_cons, List.not_mem_nil, or_false]
    rintro pdu (rfl | rfl | rfl | rfl) <;> exact ⟨_, rfl⟩
  obtain ⟨-, -, -, hblock1, hsize, hack⟩ :=
    data_pdus_reassembled (.start (fun _ => none) 0x31 0x31) (by decide : requestAt writeReqPdu = _)
      hdata
  refine ⟨hblock1.trans (by decide), hsize.trans (by decide), ?_⟩
  exact (hack (dataPdu 3 [9]) ⟨_, rfl⟩).trans (by decide)

end Opconn.Oam.Download
