import Opconn.Oam.Download

/-!
# Firmware download of CTC 2.0

The older download (`eopl_ctc_soft_download_2_0`) takes up to two TLVs out of a frame.  A write
request opens a download unless one is going on, DATA blocks of up to 512 bytes are kept when
their number is the next one, and a block of fewer bytes ends the file: it is written and marked
for the flash.  The end is looked for in every block, also in one that is not the next one.

The chain of blocks behind `pstData` is the list of their bytes.
-/

namespace Opconn.Oam.Download20

open Download (Block image payloads oamSoftTypeTftp oamSoftTypeCrc oamSoftTypeLoad tftpWReq
  tftpData ctcTftpHeaderSize)

/-! ### State and calls -/

/-- The part of `TFTP_FILE_t` that the handlers of the write request and the blocks use; the file
name is only written. -/
structure TftpFile where
  ucNameLen : UInt8
  usBlock1 : UInt16
  usBlock2 : UInt16
  ucFlash : Bool
  uiFileSize : UInt32
  pstData : List (List UInt8)
deriving DecidableEq, Repr

/-- What a handler does besides: the block numbers of the acknowledgements in a frame, the file
it writes, and the mark for the flash. -/
inductive Effect where
  | tftpAck (blocks : List UInt16)
  | genFile (contents : List UInt8)
  | writeFlash
deriving DecidableEq, Repr

/-- The calls that change the download.  `pucData` is the memory from the block number on. -/
inductive Call where
  | tftpWreq (pucFileName : List UInt8)
  | tftpData (pucData : Buffer) (usLen : UInt16) (ucCnt : Nat)
deriving DecidableEq, Repr

/-- `FILENAME_OFFSET` and `sizeof(aucFileName)`. -/
def filenameOffset : Nat := 2
def fileNameSize : Nat := 256

/-- `eopl_ctc_tftp_wreq_2_0`.  A name of 255 bytes behind the offset has its last byte in
`ucNameLen`. -/
def tftpWreq (s : TftpFile) (pucFileName : List UInt8) : TftpFile × List Effect :=
  if s.ucNameLen = 0 ∨ s.ucFlash = true then
    let ucNameLen := UInt8.ofNat pucFileName.length
    ({ ucNameLen :=
          if fileNameSize < filenameOffset + ucNameLen.toNat then
            pucFileName.getD (fileNameSize - filenameOffset) 0
          else ucNameLen
       usBlock1 := 0
       usBlock2 := 0
       ucFlash := false
       uiFileSize := 0
       pstData := [] }, [.tftpAck [0]])
  else (s, [])

/-- The block that `eopl_ctc_tftp_data_2_0` reads. -/
def blockOf (pucData : Buffer) (usLen : UInt16) : Block where
  usBlockNum := u16At pucData 0
  payload := bytesAt pucData 2 (usLen.toNat - 4)

/-- The lengths that are taken: blocks of 0 to 512 bytes. -/
def lengthTaken (usLen : UInt16) : Bool := 4 ≤ usLen.toNat && usLen.toNat ≤ 516

/-- The bytes of a full block. -/
def fullBlock : Nat := 512

/-- `g_stImageFile_2_0.usBlock1+1 == *(u16_t *)pucData`, added as `int`: the block is counted and
linked behind the others. -/
def storeBlock (s : TftpFile) (block : Block) : TftpFile :=
  if s.usBlock1.toNat + 1 = block.usBlockNum.toNat then
    { s with
      usBlock2 := s.usBlock1
      usBlock1 := block.usBlockNum
      uiFileSize :=
        if s.pstData = [] then UInt32.ofNat block.payload.length
        else s.uiFileSize + UInt32.ofNat block.payload.length
      pstData := s.pstData ++ [block.payload] }
  else s

/-- `eopl_ctc_tftp_data_2_0`. -/
def tftpData20 (s : TftpFile) (pucData : Buffer) (usLen : UInt16) (ucCnt : Nat) :
    TftpFile × List Effect :=
  if lengthTaken usLen then
    let s' := storeBlock s (blockOf pucData usLen)
    let acks := if ucCnt = 1 ∨ usLen.toNat - 4 < fullBlock then
      [.tftpAck [s'.usBlock2, s'.usBlock1]] else []
    if usLen.toNat - 4 < fullBlock then
      -- `eopl_ctc_gen_file_2_0` and `eopl_ctc_write_flash_2_0`
      ({ s' with ucFlash := true }, acks ++ [.genFile s'.pstData.flatten, .writeFlash])
    else (s', acks)
  else (s, [])

def handle (s : TftpFile) : Call → TftpFile × List Effect
  | .tftpWreq pucFileName => tftpWreq s pucFileName
  | .tftpData pucData usLen ucCnt => tftpData20 s pucData usLen ucCnt

/-- `eopl_ctc_tftp_2_0`, whose `usLen` is that of the TLV without its header. -/
def tftpCalls (pdu : Buffer) (ucCnt : Nat) : List Call :=
  let opcode := u16At pdu ctcTftpHeaderSize
  if opcode = tftpWReq then [.tftpWreq ((pdu.drop 7).takeWhile (· ≠ 0))]
  else if opcode = tftpData then [.tftpData (pdu.drop 7) (u16At pdu 1 - 5) ucCnt]
  else []

/-- The rounds of `eopl_ctc_soft_download_2_0` from `ucCnt` on.  The handlers of the other two
types only answer. -/
def callsFrom (ucCnt : Nat) : Nat → Buffer → List Call
  | 0, _ => []
  | rounds + 1, pdu =>
    let behind := pdu.drop (u16At pdu 1).toNat
    if byteAt pdu 0 = oamSoftTypeTftp then
      tftpCalls pdu ucCnt ++ callsFrom (ucCnt + 1) rounds behind
    else if byteAt pdu 0 = oamSoftTypeCrc ∨ byteAt pdu 0 = oamSoftTypeLoad then
      callsFrom (ucCnt + 1) rounds behind
    else []

/-- The calls of a frame. -/
def callsOf (pdu : Buffer) : List Call := callsFrom 0 2 pdu

/-- `eopl_ctc_soft_download_2_0`. -/
def softDownload20 (s : TftpFile) (pdu : Buffer) : TftpFile × List Effect :=
  (callsOf pdu).foldl
    (fun done call => ((handle done.1 call).1, done.2 ++ (handle done.1 call).2)) (s, [])

/-- Frames behind one another make their calls behind one another. -/
theorem run_softDownload20 (s : TftpFile) (pdus : List Buffer) :
    Runs.run (fun s pdu => (softDownload20 s pdu).1) s pdus =
      Runs.run (fun s call => (handle s call).1) s (pdus.flatMap callsOf) := by
  have hframe : ∀ (s : TftpFile) (effects : List Effect) (calls : List Call),
      (calls.foldl (fun done call => ((handle done.1 call).1, done.2 ++ (handle done.1 call).2))
        (s, effects)).1 = Runs.run (fun s call => (handle s call).1) s calls := by
    intro s effects calls
    induction calls generalizing s effects with
    | nil => rfl
    | cons call calls ih => exact ih _ _
  induction pdus generalizing s with
  | nil => rfl
  | cons pdu pdus ih =>
    rw [Runs.run_cons, ih, List.flatMap_cons, Runs.run_append, softDownload20, hframe]

/-! ### What a receiver should keep -/

/-- The download beside the blocks that were accepted since it was opened. -/
structure Watched where
  file : TftpFile
  kept : List Block

/-- A block is accepted when its number is the next one. -/
def accept20 (kept : List Block) (block : Block) : List Block :=
  if block.usBlockNum.toNat = kept.length + 1 then kept ++ [block] else kept

def watchedStep (w : Watched) (call : Call) : Watched where
  file := (handle w.file call).1
  kept :=
    match call with
    | .tftpWreq _ => if w.file.ucNameLen = 0 ∨ w.file.ucFlash = true then [] else w.kept
    | .tftpData pucData usLen _ =>
      if lengthTaken usLen then accept20 w.kept (blockOf pucData usLen) else w.kept

/-- The chain and the counter stand for the accepted blocks, which are numbered 1, 2 and so on. -/
structure Stored (w : Watched) : Prop where
  block1 : w.file.usBlock1.toNat = w.kept.length
  chain : w.file.pstData = payloads w.kept
  nums : w.kept.map (·.usBlockNum.toNat) = List.range' 1 w.kept.length

theorem stored_opened {s : TftpFile} (name : List UInt8)
    (hopen : s.ucNameLen = 0 ∨ s.ucFlash = true) : Stored ⟨(tftpWreq s name).1, []⟩ := by
  rw [tftpWreq, if_pos hopen]
  exact ⟨rfl, rfl, rfl⟩

/-- A block that is taken is stored when it is accepted. -/
theorem Stored.storeBlock {w : Watched} (h : Stored w) (block : Block) :
    Stored ⟨storeBlock w.file block, accept20 w.kept block⟩ := by
  by_cases hnext : block.usBlockNum.toNat = w.kept.length + 1
  · have hcode : w.file.usBlock1.toNat + 1 = block.usBlockNum.toNat := by
      rw [h.block1, hnext]
    rw [Download20.storeBlock, if_pos hcode, accept20, if_pos hnext]
    constructor
    · rw [List.length_append, List.length_singleton]
      exact hnext
    · simp [h.chain, payloads]
    · rw [List.map_append, h.nums, List.length_append, List.length_singleton, List.range'_concat]
      simp [hnext, Nat.add_comm]
  · have hcode : ¬ w.file.usBlock1.toNat + 1 = block.usBlockNum.toNat := by
      rw [h.block1]
      exact fun heq => hnext heq.symm
    rw [Download20.storeBlock, if_neg hcode, accept20, if_neg hnext]
    exact h

theorem Stored.step {w : Watched} (h : Stored w) (call : Call) : Stored (watchedStep w call) := by
  cases call with
  | tftpWreq name =>
    by_cases hopen : w.file.ucNameLen = 0 ∨ w.file.ucFlash = true
    · have hstored := stored_opened name hopen
      simpa only [watchedStep, handle, if_pos hopen] using hstored
    · simpa only [watchedStep, handle, tftpWreq, if_neg hopen] using h
  | tftpData pucData usLen ucCnt =>
    by_cases htaken : lengthTaken usLen = true
    · have hstored := h.storeBlock (blockOf pucData usLen)
      simp only [watchedStep, handle, tftpData20, if_pos htaken]
      split
      · exact ⟨hstored.block1, hstored.chain, hstored.nums⟩
      · exact hstored
    · simpa only [watchedStep, handle, tftpData20, if_neg htaken] using h

/-! ### When the file is written -/

/-- The blocks that a file is written from: numbered 1 to `n`, full but for the last one, which is
short, with the bytes that are written. -/
structure WholeFile (front : List Block) (last : Block) (contents : List UInt8) : Prop where
  nums : (front ++ [last]).map (·.usBlockNum.toNat) = List.range' 1 (front.length + 1)
  full : ∀ block ∈ front, block.payload.length = fullBlock
  short : last.payload.length < fullBlock
  image : contents = image (front ++ [last])

/-- What is asked of a call: it writes and marks the file only when its block is the next one and
completes a file. -/
structure CompletesInOrder (w : Watched) (call : Call) : Prop where
  writes : ∀ contents, Effect.genFile contents ∈ (handle w.file call).2 →
    ∃ last, (watchedStep w call).kept = w.kept ++ [last] ∧ WholeFile w.kept last contents
  marks : Effect.writeFlash ∈ (handle w.file call).2 →
    ∃ contents, Effect.genFile contents ∈ (handle w.file call).2

/-- The block of a call is shorter than 512 bytes. -/
def IsShort (usLen : UInt16) : Prop := lengthTaken usLen = true ∧ usLen.toNat - 4 < fullBlock

/-- A short block is the next one, and those before it are full. -/
def ShortExpected (w : Watched) : Call → Prop
  | .tftpWreq _ => True
  | .tftpData pucData usLen _ => IsShort usLen →
    (u16At pucData 0).toNat = w.kept.length + 1 ∧
      ∀ block ∈ w.kept, block.payload.length = fullBlock

theorem length_payload_blockOf (pucData : Buffer) (usLen : UInt16) :
    (blockOf pucData usLen).payload.length = usLen.toNat - 4 := by
  rw [blockOf, bytesAt, List.length_map, List.length_range]

/-- An acknowledgement writes nothing. -/
theorem completesInOrder_of_acks {w : Watched} {call : Call}
    (h : ∀ e ∈ (handle w.file call).2, ∃ blocks, e = .tftpAck blocks) :
    CompletesInOrder w call := by
  constructor
  · intro contents hgen
    obtain ⟨blocks, heq⟩ := h _ hgen
    cases heq
  · intro hmark
    obtain ⟨blocks, heq⟩ := h _ hmark
    cases heq

theorem effects_tftpWreq (s : TftpFile) (name : List UInt8) :
    ∀ e ∈ (tftpWreq s name).2, ∃ blocks, e = .tftpAck blocks := by
  intro e he
  rw [tftpWreq] at he
  split at he
  · exact ⟨_, List.mem_singleton.mp he⟩
  · cases he

theorem effects_full {usLen : UInt16} (h : ¬ IsShort usLen) (s : TftpFile) (pucData : Buffer)
    (ucCnt : Nat) : ∀ e ∈ (tftpData20 s pucData usLen ucCnt).2, ∃ blocks, e = .tftpAck blocks := by
  intro e he
  rw [tftpData20] at he
  split at he
  · rename_i htaken
    have hlong : ¬ usLen.toNat - 4 < fullBlock := fun hless => h ⟨htaken, hless⟩
    simp only [if_neg hlong] at he
    split at he
    · exact ⟨_, List.mem_singleton.mp he⟩
    · cases he
  · cases he

/-- A short block is acknowledged, and what is stored by then is written. -/
theorem effects_short {w : Watched} (hw : Stored w) {usLen : UInt16} (h : IsShort usLen)
    (pucData : Buffer) (ucCnt : Nat) :
    ∃ blocks, (tftpData20 w.file pucData usLen ucCnt).2 =
      [.tftpAck blocks, .genFile (image (accept20 w.kept (blockOf pucData usLen))),
        .writeFlash] := by
  have hchain : (storeBlock w.file (blockOf pucData usLen)).pstData =
      payloads (accept20 w.kept (blockOf pucData usLen)) :=
    (hw.storeBlock (blockOf pucData usLen)).chain
  refine ⟨[(storeBlock w.file (blockOf pucData usLen)).usBlock2,
    (storeBlock w.file (blockOf pucData usLen)).usBlock1], ?_⟩
  simp only [tftpData20, if_pos h.1, h.2, or_true, if_true, List.cons_append, List.nil_append,
    hchain, image]

/-- One call. -/
theorem completesInOrder_iff {w : Watched} (h : Stored w) (call : Call) :
    CompletesInOrder w call ↔ ShortExpected w call := by
  cases call with
  | tftpWreq name =>
    exact iff_of_true (completesInOrder_of_acks (effects_tftpWreq w.file name)) trivial
  | tftpData pucData usLen ucCnt =>
    by_cases hshort : IsShort usLen
    · have hkept : (watchedStep w (.tftpData pucData usLen ucCnt)).kept =
          accept20 w.kept (blockOf pucData usLen) := if_pos hshort.1
      obtain ⟨blocks, heffects⟩ := effects_short h hshort pucData ucCnt
      constructor
      · intro hcompletes _
        obtain ⟨last, hlast, hwhole⟩ := hcompletes.writes _ (by
          rw [handle, heffects]
          exact List.mem_cons_of_mem _ (List.mem_cons_self ..))
        refine ⟨?_, hwhole.full⟩
        by_contra hother
        have hnext : ¬ (blockOf pucData usLen).usBlockNum.toNat = w.kept.length + 1 := hother
        -- a block that is not the next one leaves what was kept
        rw [hkept, accept20, if_neg hnext] at hlast
        exact absurd (congrArg List.length hlast) (by simp)
      · intro hexpected
        obtain ⟨hnext, hfull⟩ := hexpected hshort
        have haccept : accept20 w.kept (blockOf pucData usLen) =
            w.kept ++ [blockOf pucData usLen] := if_pos hnext
        have hnums := (h.storeBlock (blockOf pucData usLen)).nums
        simp only [haccept, List.length_append, List.length_singleton] at hnums
        constructor
        · intro contents hgen
          rw [handle, heffects, haccept] at hgen
          refine ⟨blockOf pucData usLen, by rw [hkept, haccept], hnums, hfull, ?_, ?_⟩
          · rw [length_payload_blockOf]
            exact hshort.2
          · simpa using hgen
        · intro _
          refine ⟨image (accept20 w.kept (blockOf pucData usLen)), ?_⟩
          rw [handle, heffects]
          exact List.mem_cons_of_mem _ (List.mem_cons_self ..)
    · exact iff_of_true (completesInOrder_of_acks (effects_full hshort w.file pucData ucCnt))
        fun h => absurd h hshort

/-- **When only whole files are written.**  After a write request that opens a download, in
whatever state that was, and for all frames behind it, with further write requests and with
blocks duplicated, reordered or lost: the file is written and marked only in order exactly when
every short block that comes is the next one behind full blocks. -/
theorem completes_in_order_iff (s : TftpFile) (name : List UInt8)
    (hopen : s.ucNameLen = 0 ∨ s.ucFlash = true) (pdus : List Buffer) :
    Runs.AllSteps watchedStep CompletesInOrder ⟨(tftpWreq s name).1, []⟩
        (pdus.flatMap callsOf) ↔
      Runs.AllSteps watchedStep ShortExpected ⟨(tftpWreq s name).1, []⟩
        (pdus.flatMap callsOf) :=
  Runs.allSteps_congr watchedStep Stored (fun _ call h => h.step call)
    (fun _ call h => completesInOrder_iff h call) (stored_opened _ hopen) _

/-- A frame with one DATA TLV. -/
def dataFrame (num : UInt8) (payload : List UInt8) : Buffer :=
  [1, 0, 9 + UInt8.ofNat payload.length, 0, 0, 0, 3, 0, num] ++ payload

/-- The globals before the first write request. -/
def TftpFile.zero : TftpFile := ⟨0, 0, 0, false, 0, []⟩

/-- A file of one byte. -/
theorem one_block_in_order :
    Runs.AllSteps watchedStep CompletesInOrder ⟨(tftpWreq .zero [0x61]).1, []⟩
      ([dataFrame 1 [7]].flatMap callsOf) := by
  apply (completes_in_order_iff .zero [0x61] (.inl rfl) _).mpr
  show Runs.AllSteps watchedStep ShortExpected _ [.tftpData [0, 1, 7] 5 0]
  exact ⟨fun _ => ⟨rfl, fun _ h => absurd h List.not_mem_nil⟩, trivial⟩

/-- A short block 5 that comes first has an empty file written and marked. -/
theorem stale_block_completes :
    ∃ (s : TftpFile) (name : List UInt8) (pdus : List Buffer),
      (s.ucNameLen = 0 ∨ s.ucFlash = true) ∧
        ¬ Runs.AllSteps watchedStep CompletesInOrder ⟨(tftpWreq s name).1, []⟩
          (pdus.flatMap callsOf) := by
  refine ⟨.zero, [0x61], [dataFrame 5 [7]], .inl rfl, ?_⟩
  show ¬ Runs.AllSteps watchedStep CompletesInOrder _ [.tftpData [0, 5, 7] 5 0]
  rintro ⟨hstep, -⟩
  have hexpected := (completesInOrder_iff (stored_opened _ (.inl rfl)) _).mp hstep
  exact absurd (hexpected ⟨by decide, by decide⟩).1 (by decide)

end Opconn.Oam.Download20
