import Opconn.Oam.Download

/-!
# A whole file

The sender of an image cuts it into blocks of 1400 bytes, numbers them from 1 and ends with a
block that is shorter, which is empty when the file fills its last block.  The handler of DATA
PDUs acknowledges and keeps every block of such a stream but an empty one and those from number
65536 on, whose number does not fit the PDU.
-/

namespace Opconn.Oam.Download

open SList

/-! ### The sender -/

/-- The blocks of a file; the last one is shorter than 1400 bytes. -/
def blockCount (file : List UInt8) : Nat := file.length / dataBlockSize + 1

def filePayload (file : List UInt8) (i : Nat) : List UInt8 :=
  (file.drop (dataBlockSize * i)).take dataBlockSize

/-- Block `i + 1` of a file. -/
def fileBlock (file : List UInt8) (i : Nat) : Block :=
  ⟨UInt16.ofNat (i + 1), filePayload file i⟩

/-- The DATA PDU of a block, whose header counts itself, the opcode and the number in. -/
def dataBlockPdu (tid : UInt16) (block : Block) : Buffer :=
  let usLen := UInt16.ofNat (9 + block.payload.length)
  [oamSoftTypeTftp, (usLen >>> 8).toUInt8, usLen.toUInt8, (tid >>> 8).toUInt8, tid.toUInt8,
    (tftpData >>> 8).toUInt8, tftpData.toUInt8, (block.usBlockNum >>> 8).toUInt8,
    block.usBlockNum.toUInt8] ++ block.payload

def filePdu (tid : UInt16) (file : List UInt8) (i : Nat) : Buffer :=
  dataBlockPdu tid (fileBlock file i)

/-- The first `k` PDUs. -/
def filePdus (tid : UInt16) (file : List UInt8) (k : Nat) : List Buffer :=
  (List.range k).map (filePdu tid file)

theorem length_filePayload (file : List UInt8) (i : Nat) :
    (filePayload file i).length = min dataBlockSize (file.length - dataBlockSize * i) := by
  rw [filePayload, List.length_take, List.length_drop]

theorem bytesAt_append (front payload : Buffer) :
    bytesAt (front ++ payload) front.length payload.length = payload := by
  apply List.ext_getElem
  · simp [bytesAt]
  · intro i hi hi'
    have hplace : front.length + i < (front ++ payload).length := by
      rw [List.length_append]
      omega
    simp [bytesAt, byteAt, List.getElem?_append_right, List.getElem?_eq_getElem hi']

/-- The handler takes a block out of its PDU as it was put in. -/
theorem blockAt_dataBlockPdu (tid : UInt16) {block : Block}
    (hlen : block.payload.length ≤ dataBlockSize) :
    blockAt (dataBlockPdu tid block) = block := by
  have hbound : 9 + block.payload.length < 65536 := by
    simp only [dataBlockSize] at hlen
    omega
  have hnum : u16At (dataBlockPdu tid block) 7 = block.usBlockNum := u16_of_bytes _
  have hlength : u16At (dataBlockPdu tid block) 1 = UInt16.ofNat (9 + block.payload.length) :=
    u16_of_bytes _
  have hcount : (u16At (dataBlockPdu tid block) 1 - 5 - 2 - 2).toNat = block.payload.length := by
    rw [hlength]
    simp only [UInt16.toNat_sub, UInt16.toNat_ofNat', UInt16.toNat_ofNat]
    omega
  have hpayload : bytesAt (dataBlockPdu tid block) 9 block.payload.length = block.payload :=
    bytesAt_append _ block.payload
  rw [blockAt, hnum, hcount, hpayload]

theorem blockAt_filePdu (tid : UInt16) (file : List UInt8) (i : Nat) :
    blockAt (filePdu tid file i) = fileBlock file i := by
  apply blockAt_dataBlockPdu
  exact (length_filePayload file i).trans_le (Nat.min_le_left ..)

theorem isData_filePdu (tid : UInt16) (file : List UInt8) (i : Nat) :
    IsData (filePdu tid file i) := by
  have htype : byteAt (filePdu tid file i) 0 = oamSoftTypeTftp := rfl
  have hopcode : u16At (filePdu tid file i) ctcTftpHeaderSize = tftpData := u16_of_bytes _
  have hother : tftpData ≠ tftpWReq := by decide
  refine ⟨blockAt (filePdu tid file i), ?_⟩
  simp only [requestAt, htype, hopcode, hother, if_true, if_false]

theorem softDownload_filePdu (tid : UInt16) (file : List UInt8) (i : Nat) (s : Onu) :
    softDownload s (filePdu tid file i) = tftpDataHandler s (fileBlock file i) := by
  rw [softDownload_data (isData_filePdu tid file i), blockAt_filePdu]

/-! ### What the receiver keeps of a file -/

/-- The blocks of a file fit, but for an empty last one. -/
theorem fits_fileBlock_iff {file : List UInt8} {i : Nat} :
    (fileBlock file i).fits = true ↔ dataBlockSize * i < file.length := by
  have hlength := length_filePayload file i
  simp only [Block.fits, fileBlock, Bool.and_eq_true, decide_eq_true_eq, hlength, dataBlockSize]
  omega

/-- Blocks that fit, up to number 65535, are accepted one behind the other. -/
theorem accepted_fileBlocks (file : List UInt8) {k : Nat} (hk : k ≤ 65535)
    (hfits : ∀ i < k, (fileBlock file i).fits = true) :
    accepted ((List.range k).map (fileBlock file)) = (List.range k).map (fileBlock file) := by
  induction k with
  | zero => rfl
  | succ k ih =>
    have hbefore := ih (by omega) fun i hi => hfits i (by omega)
    have hnext : (fileBlock file k).usBlockNum.toNat = k + 1 := by
      simp only [fileBlock, UInt16.toNat_ofNat']
      omega
    rw [List.range_succ, List.map_append, List.map_singleton, accepted_append, hbefore, accept,
      if_pos]
    exact ⟨hfits k (Nat.lt_succ_self k), by rw [hnext, List.length_map, List.length_range]⟩

/-- The first `k` blocks make up the front of the file. -/
theorem image_fileBlocks (file : List UInt8) (k : Nat) :
    image ((List.range k).map (fileBlock file)) = file.take (dataBlockSize * k) := by
  induction k with
  | zero => rfl
  | succ k ih =>
    have happend : image ((List.range (k + 1)).map (fileBlock file)) =
        image ((List.range k).map (fileBlock file)) ++ filePayload file k := by
      simp [image, payloads, List.range_succ, fileBlock]
    rw [happend, ih, Nat.mul_succ, List.take_add]
    rfl

theorem map_blockAt_filePdus (tid : UInt16) (file : List UInt8) (k : Nat) :
    (filePdus tid file k).map blockAt = (List.range k).map (fileBlock file) := by
  rw [filePdus, List.map_map]
  exact List.map_congr_left fun i _ => blockAt_filePdu tid file i

section Received

variable {s : Onu} {tid : UInt16} {file : List UInt8} {k : Nat}

theorem stores_filePdus (tid : UInt16) (hs : Stores s []) (hk : k ≤ 65535)
    (hfits : ∀ i < k, (fileBlock file i).fits = true) :
    Stores (receive s (filePdus tid file k)) ((List.range k).map (fileBlock file)) := by
  have hdata : ∀ pdu ∈ filePdus tid file k, IsData pdu := by
    intro pdu hpdu
    obtain ⟨i, -, rfl⟩ := List.mem_map.mp hpdu
    exact isData_filePdu tid file i
  have hstores := stores_receive hs hdata
  rw [map_blockAt_filePdus] at hstores
  have haccepted := accepted_fileBlocks file hk hfits
  rw [accepted] at haccepted
  rwa [haccepted] at hstores

end Received

/-! ### The transfer -/

/-- Each block is acknowledged with its number, and the file is there. -/
structure Delivered (s : Onu) (tid : UInt16) (file : List UInt8) : Prop where
  acknowledged : ∀ i < blockCount file,
    (softDownload (receive s (filePdus tid file i)) (filePdu tid file i)).2 =
      [.tftpAck (fileBlock file i).usBlockNum]
  complete :
    let s' := receive s (filePdus tid file (blockCount file))
    (∃ cells, Linked s'.heap s'.imageFile.pstData cells ∧ (cells.map Prod.snd).flatten = file) ∧
      s'.imageFile.uiFileSize.toNat = file.length

/-- Blocks that all fit, with numbers that fit, are delivered. -/
theorem delivered_of_fits {s : Onu} (hs : Stores s []) (tid : UInt16) {file : List UInt8}
    (hcount : blockCount file ≤ 65535)
    (hfits : ∀ i < blockCount file, (fileBlock file i).fits = true) : Delivered s tid file := by
  have hstores : ∀ k ≤ blockCount file,
      Stores (receive s (filePdus tid file k)) ((List.range k).map (fileBlock file)) :=
    fun k hk => stores_filePdus tid hs (by omega) fun i hi => hfits i (by omega)
  constructor
  · intro i hi
    have hnext : (List.range (i + 1)).map (fileBlock file) =
        accept ((List.range i).map (fileBlock file)) (fileBlock file i) := by
      have hall := @accepted_fileBlocks file (i + 1) (by omega)
        fun j hj => hfits j (by omega)
      have hbefore := @accepted_fileBlocks file i (by omega)
        fun j hj => hfits j (by omega)
      rw [← hall, List.range_succ, List.map_append, List.map_singleton, accepted_append, hbefore]
    rw [softDownload_filePdu, dataHandler_ack (hstores i (by omega)), if_pos (hfits i hi), ← hnext,
      List.length_map, List.length_range]
    rfl
  · have hall := hstores (blockCount file) (Nat.le_refl _)
    have himage : image ((List.range (blockCount file)).map (fileBlock file)) = file := by
      rw [image_fileBlocks]
      apply List.take_of_length_le
      simp only [blockCount, dataBlockSize]
      omega
    obtain ⟨cells, hlinked, hvalues, -⟩ := hall.cells
    refine ⟨⟨cells, hlinked, ?_⟩, ?_⟩
    · rw [hvalues]
      exact himage
    · rw [hall.size, himage]

/-- What is acknowledged is the number of the last block that was taken. -/
theorem usBlock1_of_ack {s : Onu} {block : Block} {num : UInt16}
    (h : (tftpDataHandler s block).2 = [.tftpAck num]) :
    block.fits = true ∧ (tftpDataHandler s block).1.imageFile.usBlock1 = num := by
  rw [tftpDataHandler] at h ⊢
  split at h
  · rename_i hfits
    rw [if_pos hfits]
    simpa [hfits] using h
  · simp at h

/-- What delivery asks of the blocks: each fits, and none has the number 65536. -/
theorem delivered_iff_fits {s : Onu} (hs : Stores s []) (tid : UInt16) (file : List UInt8) :
    Delivered s tid file ↔
      (∀ i < blockCount file, (fileBlock file i).fits = true) ∧ blockCount file ≤ 65535 := by
  constructor
  · intro hdelivered
    have hack : ∀ i < blockCount file,
        (tftpDataHandler (receive s (filePdus tid file i)) (fileBlock file i)).2 =
          [.tftpAck (fileBlock file i).usBlockNum] := by
      intro i hi
      rw [← softDownload_filePdu tid]
      exact hdelivered.acknowledged i hi
    refine ⟨fun i hi => (usBlock1_of_ack (hack i hi)).1, ?_⟩
    by_contra hmany
    -- block 65536 has number 0, and with 65535 blocks stored it is not the next one
    have hfits : ∀ i < 65535, (fileBlock file i).fits = true :=
      fun i hi => (usBlock1_of_ack (hack i (by omega))).1
    have hstores := stores_filePdus tid hs (Nat.le_refl 65535) hfits
    have hlast := hack 65535 (by omega)
    have hfit := (usBlock1_of_ack hlast).1
    have hzero : (fileBlock file 65535).usBlockNum = 0 := rfl
    have hstay : ¬ (fileBlock file 65535).usBlockNum.toNat =
        ((List.range 65535).map (fileBlock file)).length + 1 := by
      rw [hzero]
      exact Nat.zero_ne_add_one _
    rw [dataHandler_ack hstores, if_pos hfit, accept, if_neg fun h => hstay h.2, List.length_map,
      List.length_range, hzero] at hlast
    exact absurd hlast (by decide)
  · rintro ⟨hfits, hcount⟩
    exact delivered_of_fits hs tid hcount hfits

/-- **When a file is delivered.**  After a write request, in whatever state the ONU was, a file
sent in blocks of 1400 bytes is acknowledged block by block and complete exactly when its length
is no multiple of 1400, so that its last block has bytes, and its blocks are at most 65535. -/
theorem file_delivered_iff (s : Onu) {request : Buffer} (hreq : requestAt request = .writeReq)
    (tid : UInt16) (file : List UInt8) :
    Delivered (softDownload s request).1 tid file ↔
      file.length % dataBlockSize ≠ 0 ∧ file.length < 65535 * dataBlockSize := by
  have hstart : Stores (softDownload s request).1 [] := by
    rw [softDownload, hreq]
    exact stores_writeReq s
  rw [delivered_iff_fits hstart]
  simp only [fits_fileBlock_iff, blockCount, dataBlockSize]
  constructor
  · rintro ⟨hfits, hcount⟩
    have hlast := hfits (file.length / 1400) (Nat.lt_succ_self _)
    omega
  · rintro ⟨hrest, hlength⟩
    refine ⟨?_, by omega⟩
    intro i hi
    omega

/-- A file of one byte. -/
theorem short_file_delivered :
    Delivered (softDownload (.start (fun _ => none) 0x31 0x31) writeReqPdu).1 0 [7] :=
  (file_delivered_iff (.start (fun _ => none) 0x31 0x31)
    (by decide : requestAt writeReqPdu = _) 0 [7]).mpr (by decide)

/-- The empty last block of a file of 1400 bytes is not acknowledged. -/
theorem full_file_not_delivered :
    ∃ (s : Onu) (request : Buffer) (tid : UInt16) (file : List UInt8),
      requestAt request = .writeReq ∧ ¬ Delivered (softDownload s request).1 tid file := by
  refine ⟨.start (fun _ => none) 0x31 0x31, writeReqPdu, 0, List.replicate 1400 0, by decide, ?_⟩
  intro hdelivered
  have hfits := ((delivered_iff_fits (stores_writeReq _) 0 _).mp hdelivered).1 1
  rw [fits_fileBlock_iff, blockCount, List.length_replicate] at hfits
  exact Nat.lt_irrefl _ (hfits (Nat.lt_succ_self 1))

end Opconn.Oam.Download
