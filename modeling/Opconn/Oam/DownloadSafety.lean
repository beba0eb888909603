import Opconn.Oam.DownloadThreads

/-!
# Firmware download: what the replies and the boot flag promise

The OAM task and the `tUpgraded` threads share the block list, the file and two flags, and
nothing hands them over.  `Paced` names the orders of PDUs and thread steps in which they
do not overlap: no write request and no next block while an image is written or waits to be
activated, and one thread at a time past the check of `ucFlash`.  In such runs a success
reply is about the image received last.  `Cautious` adds what `eopl_ctc_load_new_img` and
the disabled length check leave to the OLT; in such runs the boot flag is switched to a
complete image only.
-/

namespace Opconn.Oam.Download

open SList Runs

/-! ### Who is at work -/

/-- From the check of `ucFlash` to the end of the flash write. -/
def UpgradePc.working : UpgradePc → Bool
  | .removeOld | .openFile | .readList _ | .copy .. | .checkImage | .markFlash | .replyStarted
  | .readBoot | .eraseFlash _ | .writeFlash .. | .removeFile | .clearFlash | .markWait => true
  | _ => false

/-- In `write_flash`, after the erase. -/
def UpgradePc.writes : UpgradePc → Bool
  | .writeFlash .. => true
  | _ => false

/-- Neither at work nor about to report success. -/
def UpgradePc.quiet : UpgradePc → Bool
  | .checkWait | .checkFlash | .replyWriting | .replyVerifyError | .exited => true
  | _ => false

def AllQuiet (s : Onu) : Prop := ∀ t ∈ s.upgraded, t.pc.quiet = true

def OthersQuiet (s : Onu) (i : Nat) : Prop :=
  ∀ j < s.upgraded.length, j ≠ i → ∀ t ∈ s.upgraded[j]?, t.pc.quiet = true

instance (s : Onu) : Decidable (AllQuiet s) := inferInstanceAs (Decidable (∀ _ ∈ _, _))

instance (s : Onu) (i : Nat) : Decidable (OthersQuiet s i) :=
  inferInstanceAs (Decidable (∀ _ < _, _))

theorem UpgradePc.not_working_of_quiet {pc : UpgradePc} (h : pc.quiet = true) :
    pc.working = false := by
  cases pc <;> simp_all [quiet, working]

/-- No image is being written, and none waits to be activated. -/
def Idle (s : Onu) : Prop := s.waitForActive = false ∧ AllQuiet s

instance (s : Onu) : Decidable (Idle s) := inferInstanceAs (Decidable (_ ∧ _))

/-! ### The properties -/

/-- A bank holds the image received since the last write request. -/
def InFlash (s : Onu) (g : Session) : Prop :=
  g.started = true ∧ ∃ bank, s.flash bank = some (image g.kept)

instance (s : Onu) (g : Session) : Decidable (InFlash s g) :=
  decidable_of_iff
    (g.started = true ∧ (s.flash .os1 = some (image g.kept) ∨ s.flash .os2 = some (image g.kept))) <| by
    constructor
    · rintro ⟨hon, h | h⟩
      · exact ⟨hon, _, h⟩
      · exact ⟨hon, _, h⟩
    · rintro ⟨hon, bank, h⟩
      cases bank
      · exact ⟨hon, .inl h⟩
      · exact ⟨hon, .inr h⟩

/-- A success reply is only sent about the image received since the last write request. -/
def SuccessInFlash (r : Traced) (e : Event) : Prop :=
  .endDownloadRsp .writeSuccess ∈ (handle r.onu e).2 → InFlash r.onu r.session

instance (r : Traced) (e : Event) : Decidable (SuccessInFlash r e) :=
  inferInstanceAs (Decidable (_ → _))

/-- The block a thread reads next, or the first one when it has not begun. -/
def Upgraded.cursor (s : Onu) (t : Upgraded) : Option Nat :=
  match t.pc with
  | .copy _ _ pstData => pstData
  | _ => s.imageFile.pstData

/-- A write request leaves the blocks of every thread at work alone. -/
def BlocksKept (r : Traced) (e : Event) : Prop :=
  ∀ pdu, e = .pdu pdu → requestAt pdu = .writeReq → ∀ t ∈ r.onu.upgraded, t.pc.working = true →
    ∀ cells, Linked r.onu.heap (t.cursor r.onu) cells → ∀ c ∈ cells,
      (step r e).onu.heap c.1 = r.onu.heap c.1

/-! ### The orders in which the parties do not overlap -/

/-- The condition on a PDU: a write request, and a block that will be accepted, come when
no image is being written and none waits to be activated. -/
def PacedRequest (s : Onu) : Request → Prop
  | .writeReq => Idle s
  | .data block => block.fits = true → inOrder s block = true → Idle s
  | _ => True

/-- The condition on a thread step: a thread passes the check of `ucFlash` in a download
that a write request opened, with no image waiting and no other thread at work, and
`write_flash` succeeds. -/
def PacedUpgraded (env : Env) (s : Onu) (i : Nat) (pc : UpgradePc) : Prop :=
  (pc = .checkFlash → s.imageFile.ucFlash = false →
    s.upgradeOngoing = true ∧ s.waitForActive = false ∧ OthersQuiet s i) ∧
  (pc.writes = true → env.written = true)

def Paced (r : Traced) : Event → Prop
  | .pdu pdu => PacedRequest r.onu (requestAt pdu)
  | .upgraded i env => ∀ t ∈ r.onu.upgraded[i]?, PacedUpgraded env r.onu i t.pc
  | _ => True

instance (s : Onu) : (request : Request) → Decidable (PacedRequest s request)
  | .writeReq => inferInstanceAs (Decidable (Idle s))
  | .data _ => inferInstanceAs (Decidable (_ → _ → _))
  | .endDownloadReq _ | .actImgReq | .commitImgReq | .ignored => inferInstanceAs (Decidable True)

instance (env : Env) (s : Onu) (i : Nat) (pc : UpgradePc) :
    Decidable (PacedUpgraded env s i pc) :=
  inferInstanceAs (Decidable ((_ → _ → _) ∧ (_ → _)))

instance (r : Traced) : (e : Event) → Decidable (Paced r e)
  | .pdu pdu => inferInstanceAs (Decidable (PacedRequest r.onu (requestAt pdu)))
  | .upgraded _ _ => inferInstanceAs (Decidable (∀ t ∈ _, _))
  | .load _ _ => inferInstanceAs (Decidable True)
  | .commit _ _ => inferInstanceAs (Decidable True)

/-! ### What a thread knows at each step -/

/-- The file under `/tmp` is the image. -/
def Copied (s : Onu) (g : Session) : Prop :=
  ∃ file, s.bakFile = some file ∧ s.inodes file = image g.kept

/-- The blocks before the cursor are in the file, those from it on are still to come. -/
def Copying (s : Onu) (g : Session) (file pos : Nat) (pstData : Option Nat) : Prop :=
  s.bakFile = some file ∧ ∃ (front : List Buffer) (cells : List (Nat × Buffer)),
    payloads g.kept = front ++ cells.map Prod.snd ∧ Linked s.heap pstData cells ∧
    (∀ c ∈ cells, c.1 < s.heapTop) ∧ s.inodes file = front.flatten ∧
    pos = (s.inodes file).length

def Phase (s : Onu) (g : Session) : UpgradePc → Prop
  | .replySuccess => InFlash s g
  | .openFile => s.bakFile = none
  | .readList file => s.bakFile = some file ∧ s.inodes file = []
  | .copy file pos pstData => Copying s g file pos pstData
  | .checkImage => ∀ file, s.bakFile = some file → s.inodes file = image g.kept
  | .markFlash | .replyStarted | .readBoot | .eraseFlash _ => Copied s g
  | .writeFlash _ file => s.inodes file = image g.kept
  | .removeFile | .clearFlash | .markWait => ∃ bank, s.flash bank = some (image g.kept)
  | _ => True

theorem phase_of_quiet {pc : UpgradePc} (h : pc.quiet = true) (s : Onu) (g : Session) :
    Phase s g pc := by
  cases pc <;> trivial

/-- The parts of the state that the phases read stay as they are; allocating is allowed. -/
structure Frame (s s' : Onu) : Prop where
  heap : ∀ a < s.heapTop, s'.heap a = s.heap a
  top : s.heapTop ≤ s'.heapTop
  bak : s'.bakFile = s.bakFile
  inodes : s'.inodes = s.inodes
  flash : s'.flash = s.flash

theorem Copying.frame {s s' : Onu} {g g' : Session} {file pos : Nat} {pstData : Option Nat}
    (h : Copying s g file pos pstData) (hf : Frame s s') (hkept : g'.kept = g.kept) :
    Copying s' g' file pos pstData := by
  obtain ⟨hbak, front, cells, hsplit, hlinked, hlow, hfile, hpos⟩ := h
  refine ⟨hf.bak.trans hbak, front, cells, ?_, ?_, ?_, ?_, ?_⟩
  · rw [hkept]
    exact hsplit
  · exact hlinked.congr fun c hc => hf.heap c.1 (hlow c hc)
  · exact fun c hc => (hlow c hc).trans_le hf.top
  · rw [hf.inodes]
    exact hfile
  · rw [hf.inodes]
    exact hpos

theorem Phase.frame {s s' : Onu} {g g' : Session} {pc : UpgradePc} (h : Phase s g pc)
    (hf : Frame s s') (hkept : g'.kept = g.kept) (hstarted : g'.started = g.started) :
    Phase s' g' pc := by
  cases pc with
  | copy file pos pstData => exact Copying.frame h hf hkept
  | _ =>
    first
    | trivial
    | simpa only [Phase, InFlash, Copied, hf.bak, hf.inodes, hf.flash, hkept, hstarted] using h

/-! ### One step of a thread at work -/

/-- What no step of the thread changes. -/
structure UpgradedFrame (s s' : Onu) : Prop where
  heap : s'.heap = s.heap
  heapTop : s'.heapTop = s.heapTop
  upgradeOngoing : s'.upgradeOngoing = s.upgradeOngoing
  usBlock1 : s'.imageFile.usBlock1 = s.imageFile.usBlock1
  uiFileSize : s'.imageFile.uiFileSize = s.imageFile.uiFileSize
  pstData : s'.imageFile.pstData = s.imageFile.pstData
  pstDataEnd : s'.imageFile.pstDataEnd = s.imageFile.pstDataEnd
  bootNormal : s'.bootNormal = s.bootNormal
  load : s'.load = s.load

theorem upgradedStep_frame (env : Env) (s : Onu) (pc : UpgradePc) :
    UpgradedFrame s (upgradedStep env s pc).1 := by
  have hsame : ∀ (ucFlash waitForActive : Bool) (bakFile : Option Nat) (inodes : Nat → Buffer)
      (inodeTop : Nat) (flash : Bank → Option Buffer), UpgradedFrame s { s with
        imageFile := { s.imageFile with ucFlash := ucFlash }, waitForActive := waitForActive
        bakFile := bakFile, inodes := inodes, inodeTop := inodeTop, flash := flash } := by
    intros
    constructor <;> rfl
  cases pc with
  | copy file pos pstData => cases pstData <;> exact hsame _ _ _ _ _ _
  | openFile =>
    simp only [upgradedStep]
    split
    · split <;> exact hsame _ _ _ _ _ _
    · exact hsame _ _ _ _ _ _
  | eraseFlash bank =>
    simp only [upgradedStep]
    split <;> exact hsame _ _ _ _ _ _
  | writeFlash bank file =>
    simp only [upgradedStep]
    split <;> exact hsame _ _ _ _ _ _
  | _ => exact hsame _ _ _ _ _ _

theorem stores_upgradedStep {s : Onu} {kept : List Block} (h : Stores s kept) (env : Env)
    (pc : UpgradePc) : Stores (upgradedStep env s pc).1 kept := by
  have hf := upgradedStep_frame env s pc
  refine h.congr ?_ hf.heapTop.ge hf.usBlock1 hf.uiFileSize hf.pstData hf.pstDataEnd
  intro a _
  rw [hf.heap]

/-- What the thread adds to the history are checks and writes. -/
theorem observeUpgraded_frame (g : Session) (env : Env) (s : Onu) (pc : UpgradePc) :
    (g.observeUpgraded env s pc).kept = g.kept ∧
    (g.observeUpgraded env s pc).started = g.started ∧
    (g.observeUpgraded env s pc).announced = g.announced ∧
    (g.observeUpgraded env s pc).switched = g.switched := by
  cases pc with
  | checkImage =>
    simp only [Session.observeUpgraded]
    split
    · split <;> exact ⟨rfl, rfl, rfl, rfl⟩
    · exact ⟨rfl, rfl, rfl, rfl⟩
  | writeFlash bank file =>
    simp only [Session.observeUpgraded]
    split <;> exact ⟨rfl, rfl, rfl, rfl⟩
  | _ => exact ⟨rfl, rfl, rfl, rfl⟩

/-- Copying one block moves it from what is to come to what is in the file. -/
theorem phase_copy {s : Onu} {g : Session} {file pos : Nat} {pstData : Option Nat}
    (h : Copying s g file pos pstData) (env : Env) :
    Phase (upgradedStep env s (.copy file pos pstData)).1 g
      (upgradedStep env s (.copy file pos pstData)).2.1 := by
  obtain ⟨hbak, front, cells, hsplit, hlinked, hlow, hfile, hpos⟩ := h
  cases cells with
  | nil =>
    have hnull : pstData = none := hlinked
    subst hnull
    intro f hf
    obtain rfl : file = f := Option.some.inj (hbak.symm.trans hf)
    show s.inodes file = image g.kept
    rw [hfile, image, hsplit]
    simp
  | cons c cells =>
    obtain ⟨rfl, n, hcell, hrest⟩ := hlinked
    have hread : (s.heap c.1).getD env.stale = ⟨c.2, n⟩ := by rw [hcell]; rfl
    simp only [upgradedStep, hread]
    refine ⟨hbak, front ++ [c.2], cells, ?_, hrest, ?_, ?_, ?_⟩
    · simpa using hsplit
    · exact fun d hd => hlow d (List.mem_cons_of_mem _ hd)
    · show Function.update s.inodes file _ file = _
      rw [Function.update_self, hpos, writeAt_length, hfile]
      simp
    · simp [hpos]

/-- Each step of a thread at work leads from what it knows to what it has to know next. -/
theorem phase_step {s : Onu} {g : Session} {pc : UpgradePc} {env : Env} {i : Nat}
    (hstores : Stores s g.kept) (h : Phase s g pc) (hwork : pc.working = true)
    (hpaced : PacedUpgraded env s i pc) :
    Phase (upgradedStep env s pc).1 g (upgradedStep env s pc).2.1 := by
  cases pc with
  | removeOld => rfl
  | openFile =>
    have hbak : s.bakFile = none := h
    by_cases hopen : env.opened = true
    · simp [upgradedStep, hopen, hbak, Phase]
    · simp [upgradedStep, hopen, hbak, Phase]
  | readList file =>
    obtain ⟨hbak, hempty⟩ : s.bakFile = some file ∧ s.inodes file = [] := h
    obtain ⟨cells, hlinked, hvalues, -, hlow, -⟩ := hstores.cells
    exact ⟨hbak, [], cells, hvalues.symm, hlinked, hlow, hempty, by simp [upgradedStep, hempty]⟩
  | copy file pos pstData => exact phase_copy h env
  | checkImage =>
    have hcopied : ∀ file, s.bakFile = some file → s.inodes file = image g.kept := h
    cases hbak : s.bakFile with
    | none =>
      simp only [upgradedStep, hbak, Option.any_none, Bool.false_eq_true, if_false]
      trivial
    | some file =>
      simp only [upgradedStep]
      split
      · exact ⟨file, hbak, hcopied file hbak⟩
      · trivial
  | markFlash => exact h
  | replyStarted => exact h
  | readBoot => exact h
  | eraseFlash bank =>
    obtain ⟨file, hbak, hfile⟩ : Copied s g := h
    simpa [upgradedStep, hbak, Phase] using hfile
  | writeFlash bank file =>
    have hfile : s.inodes file = image g.kept := h
    have hok : env.written = true := hpaced.2 rfl
    exact ⟨bank, by simp [upgradedStep, hok, hfile]⟩
  | removeFile => exact h
  | clearFlash => exact h
  | markWait => trivial
  | _ => simp [UpgradePc.working] at hwork

/-! ### The invariant -/

structure Inv (s : Onu) (g : Session) : Prop where
  stores : Stores s g.kept
  started : g.started = s.upgradeOngoing
  ready : s.waitForActive = true → InFlash s g
  phases : ∀ t ∈ s.upgraded, Phase s g t.pc
  alone : ∀ i t, s.upgraded[i]? = some t → t.pc.working = true →
    g.started = true ∧ s.waitForActive = false ∧ OthersQuiet s i

theorem inv_of_quiet {s : Onu} {g : Session} (hstores : Stores s g.kept)
    (hstarted : g.started = s.upgradeOngoing) (hidle : Idle s) : Inv s g := by
  refine ⟨hstores, hstarted, ?_, ?_, ?_⟩
  · intro hwait
    rw [hidle.1] at hwait
    cases hwait
  · exact fun t ht => phase_of_quiet (hidle.2 t ht) s g
  · intro i t ht hwork
    have hquiet := hidle.2 t (List.mem_of_getElem? ht)
    rw [UpgradePc.not_working_of_quiet hquiet] at hwork
    cases hwork

theorem inv_start (flash : Bank → Option Buffer) (bootNormal bootUpgrade : UInt8) :
    Inv (.start flash bootNormal bootUpgrade) .none :=
  inv_of_quiet
    ⟨numbered_nil, ⟨[], rfl, rfl, List.nodup_nil, by simp, by simp⟩, rfl, rfl⟩ rfl
    ⟨rfl, by simp [AllQuiet, Onu.start]⟩

/-- Steps of the other parties, which do not touch what the threads work on. -/
theorem Inv.frame {s s' : Onu} {g g' : Session} (h : Inv s g) (hf : Frame s s')
    (hstores : Stores s' g'.kept) (hkept : g'.kept = g.kept) (hstarted : g'.started = g.started)
    (hongoing : s'.upgradeOngoing = s.upgradeOngoing)
    (hwait : s'.waitForActive = true → s.waitForActive = true)
    (hupgraded : s'.upgraded = s.upgraded) : Inv s' g' := by
  refine ⟨hstores, ?_, ?_, ?_, ?_⟩
  · rw [hstarted, hongoing]
    exact h.started
  · intro hw
    have hin := h.ready (hwait hw)
    rwa [InFlash, hf.flash, hkept, hstarted]
  · intro t ht
    rw [hupgraded] at ht
    exact (h.phases t ht).frame hf hkept hstarted
  · intro i t ht hwork
    rw [hupgraded] at ht
    obtain ⟨hon, hoff, hothers⟩ := h.alone i t ht hwork
    refine ⟨hstarted.trans hon, ?_, ?_⟩
    · rw [Bool.eq_false_iff]
      intro hw
      rw [hwait hw] at hoff
      cases hoff
    · rw [OthersQuiet, hupgraded]
      exact hothers

theorem Frame.refl (s : Onu) : Frame s s := ⟨fun _ _ => rfl, le_rfl, rfl, rfl, rfl⟩

/-! ### PDUs -/

theorem inv_data {s : Onu} {g : Session} (h : Inv s g) {block : Block}
    (hpaced : block.fits = true → inOrder s block = true → Idle s) :
    Inv (tftpDataHandler s block).1 { g with kept := accept g.kept block } := by
  have hstores := stores_dataHandler h.stores block
  by_cases hfits : block.fits = true
  · by_cases horder : inOrder s block = true
    · have hidle := hpaced hfits horder
      simp only [tftpDataHandler, hfits, horder, if_true] at hstores ⊢
      apply inv_of_quiet hstores
      · simp only [linkBlock]
        split <;> exact h.started
      · simp only [linkBlock, Idle, AllQuiet]
        split <;> exact hidle
    · have hkept : accept g.kept block = g.kept := by
        rw [accept, if_neg]
        rintro ⟨-, hnext⟩
        rw [inOrder, h.stores.block1, decide_eq_true_eq] at horder
        exact horder hnext.symm
      simp only [tftpDataHandler, hfits, horder, if_true] at hstores ⊢
      refine h.frame ⟨?_, Nat.le_succ _, rfl, rfl, rfl⟩ hstores hkept rfl rfl id rfl
      intro a ha
      exact Function.update_of_ne (Nat.ne_of_lt ha) _ _
  · have hkept : accept g.kept block = g.kept := by
      rw [accept, if_neg fun hc => hfits hc.1]
    simp only [tftpDataHandler, hfits] at hstores ⊢
    exact h.frame (.refl s) hstores hkept rfl rfl id rfl

theorem getElem?_concat {α : Type*} {l : List α} {a b : α} {i : Nat}
    (h : (l ++ [a])[i]? = some b) : l[i]? = some b ∨ b = a := by
  rcases Nat.lt_or_ge i l.length with hi | hi
  · exact .inl (by rwa [List.getElem?_append_left hi] at h)
  · rw [List.getElem?_append_right hi] at h
    exact .inr (List.mem_singleton.mp (List.mem_of_getElem? h))

/-- A new thread starts outside the work. -/
theorem inv_endDownload {s : Onu} {g : Session} (h : Inv s g) (ulFileSize : UInt32) :
    Inv { s with upgraded := s.upgraded ++ [⟨ulFileSize, .checkWait⟩] }
      { g with announced := g.announced ++ [ulFileSize] } := by
  have hf : Frame s { s with upgraded := s.upgraded ++ [⟨ulFileSize, .checkWait⟩] } :=
    ⟨fun _ _ => rfl, le_rfl, rfl, rfl, rfl⟩
  refine ⟨h.stores.congr (fun _ _ => rfl) le_rfl rfl rfl rfl rfl, h.started, h.ready, ?_, ?_⟩
  · intro t ht
    obtain ⟨i, hi⟩ := List.mem_iff_getElem?.mp ht
    rcases getElem?_concat hi with hold | hnew
    · exact (h.phases t (List.mem_of_getElem? hold)).frame hf rfl rfl
    · rw [hnew]
      trivial
  · intro i t ht hwork
    rcases getElem?_concat ht with hold | hnew
    · obtain ⟨hon, hoff, hothers⟩ := h.alone i t hold hwork
      refine ⟨hon, hoff, ?_⟩
      intro j _ hji t' ht'
      rcases getElem?_concat ht' with hold' | hnew'
      · have hj : j < s.upgraded.length := (List.getElem?_eq_some_iff.mp hold').1
        exact hothers j hj hji t' hold'
      · rw [hnew']
        rfl
    · rw [hnew] at hwork
      cases hwork

theorem inv_pdu {s : Onu} {g : Session} (h : Inv s g) {pdu : Buffer}
    (hpaced : PacedRequest s (requestAt pdu)) :
    Inv (softDownload s pdu).1 (g.observePdu pdu) := by
  have hsame : ∀ (load : List LoadPc) (commit : List CommitPc),
      Inv { s with load := load, commit := commit } g := fun load commit =>
    h.frame ⟨fun _ _ => rfl, le_rfl, rfl, rfl, rfl⟩
      (h.stores.congr (fun _ _ => rfl) le_rfl rfl rfl rfl rfl) rfl rfl rfl id rfl
  simp only [softDownload, Session.observePdu]
  cases hreq : requestAt pdu with
  | writeReq =>
    rw [hreq] at hpaced
    exact inv_of_quiet (stores_writeReq s) rfl hpaced
  | data block =>
    rw [hreq] at hpaced
    exact inv_data h hpaced
  | endDownloadReq ulFileSize => exact inv_endDownload h ulFileSize
  | actImgReq => exact hsame _ _
  | commitImgReq => exact hsame _ _
  | ignored => exact h

/-! ### Thread steps -/

theorem inv_load {s : Onu} {g : Session} (h : Inv s g) (i : Nat) (env : Env) :
    Inv (runLoad env s i).1 (g.observe s (.load i env)) := by
  have hsame : ∀ (bootNormal bootUpgrade : UInt8) (load : List LoadPc) (waitForActive : Bool)
      (g' : Session), (waitForActive = true → s.waitForActive = true) → g'.kept = g.kept →
      g'.started = g.started → Inv { s with
        bootNormal := bootNormal, bootUpgrade := bootUpgrade, load := load
        waitForActive := waitForActive } g' := by
    intro bootNormal bootUpgrade load waitForActive g' hwait hkept hstarted
    refine h.frame ⟨fun _ _ => rfl, le_rfl, rfl, rfl, rfl⟩ ?_ hkept hstarted rfl hwait rfl
    rw [hkept]
    exact h.stores.congr (fun _ _ => rfl) le_rfl rfl rfl rfl rfl
  simp only [runLoad, Session.observe]
  cases hpc : s.load[i]? with
  | none => exact h
  | some pc =>
    cases pc with
    | clearWait => exact hsame _ _ _ _ _ (fun hw => by cases hw) rfl rfl
    | setNormal bank =>
      simp only [Session.observeLoad]
      split <;> exact hsame _ _ _ _ _ id rfl rfl
    | boardReset => exact inv_start _ _ _
    | _ => exact hsame _ _ _ _ _ id rfl rfl

theorem inv_commit {s : Onu} {g : Session} (h : Inv s g) (i : Nat) (env : Env) :
    Inv (runCommit env s i).1 g := by
  have hsame : ∀ (bootUpgrade : UInt8) (commit : List CommitPc),
      Inv { s with bootUpgrade := bootUpgrade, commit := commit } g := fun bootUpgrade commit =>
    h.frame ⟨fun _ _ => rfl, le_rfl, rfl, rfl, rfl⟩
      (h.stores.congr (fun _ _ => rfl) le_rfl rfl rfl rfl rfl) rfl rfl rfl id rfl
  simp only [runCommit]
  cases hpc : s.commit[i]? with
  | none => exact h
  | some pc => cases pc <;> first | exact h | exact hsame _ _

theorem upgradedStep_wait (env : Env) (s : Onu) {pc : UpgradePc} (h : pc ≠ .markWait) :
    (upgradedStep env s pc).1.waitForActive = s.waitForActive := by
  cases pc with
  | copy file pos pstData => cases pstData <;> rfl
  | openFile =>
    simp only [upgradedStep]
    split
    · split <;> rfl
    · rfl
  | eraseFlash bank =>
    simp only [upgradedStep]
    split <;> rfl
  | writeFlash bank file =>
    simp only [upgradedStep]
    split <;> rfl
  | markWait => exact absurd rfl h
  | _ => rfl

/-- Outside the work a thread only reads. -/
theorem upgradedStep_idle (env : Env) (s : Onu) {pc : UpgradePc} (h : pc.working = false) :
    (upgradedStep env s pc).1 = s := by
  cases pc <;> first | rfl | cases h

/-- The threads after thread `i` moved. -/
def moved (env : Env) (s : Onu) (i : Nat) (t : Upgraded) : Onu :=
  { (upgradedStep env s t.pc).1 with
    upgraded := s.upgraded.set i { t with pc := (upgradedStep env s t.pc).2.1 } }

theorem moved_self {env : Env} {s : Onu} {i : Nat} {t t' : Upgraded}
    (h : (moved env s i t).upgraded[i]? = some t') :
    t' = { t with pc := (upgradedStep env s t.pc).2.1 } := by
  rw [moved, List.getElem?_set_self'] at h
  cases hold : s.upgraded[i]? with
  | none => simp [hold] at h
  | some t₀ =>
    rw [hold] at h
    exact (Option.some.inj h).symm

theorem moved_other {env : Env} {s : Onu} {i j : Nat} {t : Upgraded} (h : j ≠ i) :
    (moved env s i t).upgraded[j]? = s.upgraded[j]? :=
  List.getElem?_set_ne h.symm

theorem othersQuiet_moved {env : Env} {s : Onu} {i : Nat} {t : Upgraded} (h : OthersQuiet s i) :
    OthersQuiet (moved env s i t) i := by
  intro j hj hji t' ht'
  rw [moved_other hji] at ht'
  exact h j (List.getElem?_eq_some_iff.mp ht').1 hji t' ht'

theorem frame_moved (env : Env) (s : Onu) (i : Nat) (t : Upgraded) :
    Frame (upgradedStep env s t.pc).1 (moved env s i t) :=
  ⟨fun _ _ => rfl, le_rfl, rfl, rfl, rfl⟩

theorem stores_moved {s : Onu} {kept : List Block} (h : Stores s kept) (env : Env) (i : Nat)
    (t : Upgraded) : Stores (moved env s i t) kept :=
  (stores_upgradedStep h env t.pc).congr (fun _ _ => rfl) le_rfl rfl rfl rfl rfl

/-- The thread at work takes a step; all others are outside. -/
theorem inv_working {s : Onu} {g : Session} (h : Inv s g) {env : Env} {i : Nat} {t : Upgraded}
    (ht : s.upgraded[i]? = some t) (hwork : t.pc.working = true)
    (hpaced : PacedUpgraded env s i t.pc) :
    Inv (moved env s i t) (g.observeUpgraded env s t.pc) := by
  obtain ⟨hkept, hstarted, -⟩ := observeUpgraded_frame g env s t.pc
  obtain ⟨hon, hoff, hothers⟩ := h.alone i t ht hwork
  have hphase := phase_step h.stores (h.phases t (List.mem_of_getElem? ht)) hwork hpaced
  have hquiet : OthersQuiet (moved env s i t) i := othersQuiet_moved hothers
  have hongoing := (upgradedStep_frame env s t.pc).upgradeOngoing
  refine ⟨?_, ?_, ?_, ?_, ?_⟩
  · rw [hkept]
    exact stores_moved h.stores env i t
  · rw [hstarted]
    exact h.started.trans hongoing.symm
  · intro hw
    -- only the last step of the work sets the flag
    by_cases hlast : t.pc = .markWait
    · have hin : ∃ bank, s.flash bank = some (image g.kept) := by
        have := h.phases t (List.mem_of_getElem? ht)
        rwa [hlast] at this
      rw [InFlash, hkept, hstarted]
      simpa [moved, hlast, upgradedStep] using ⟨hon, hin⟩
    · have hwait : (moved env s i t).waitForActive = s.waitForActive :=
        upgradedStep_wait env s hlast
      rw [hwait, hoff] at hw
      cases hw
  · intro t' ht'
    obtain ⟨j, hj⟩ := List.mem_iff_getElem?.mp ht'
    by_cases hji : j = i
    · subst hji
      rw [moved_self hj]
      exact hphase.frame (frame_moved env s j t) hkept hstarted
    · exact phase_of_quiet (hquiet j (List.getElem?_eq_some_iff.mp hj).1 hji t' hj) _ _
  · intro j t' ht' hwork'
    by_cases hji : j = i
    · subst hji
      rw [moved_self ht'] at hwork'
      have hlast : t.pc ≠ .markWait := by
        intro hlast
        rw [hlast] at hwork'
        cases hwork'
      exact ⟨hstarted.trans hon, (upgradedStep_wait env s hlast).trans hoff, hquiet⟩
    · have := hquiet j (List.getElem?_eq_some_iff.mp ht').1 hji t' ht'
      rw [UpgradePc.not_working_of_quiet this] at hwork'
      cases hwork'

/-- A thread outside the work becomes a quiet one, reports success, or starts the work. -/
theorem next_idle {s : Onu} {pc : UpgradePc} (h : pc.working = false) (env : Env) :
    (upgradedStep env s pc).2.1.quiet = true ∨
    (s.waitForActive = true ∧ (upgradedStep env s pc).2.1 = .replySuccess) ∨
    (pc = .checkFlash ∧ s.imageFile.ucFlash = false ∧
      (upgradedStep env s pc).2.1 = .removeOld) := by
  cases pc with
  | checkWait =>
    cases hw : s.waitForActive
    · exact .inl (by simp [upgradedStep, hw, UpgradePc.quiet])
    · exact .inr (.inl ⟨rfl, by simp [upgradedStep, hw]⟩)
  | checkFlash =>
    cases hf : s.imageFile.ucFlash
    · exact .inr (.inr ⟨rfl, rfl, by simp [upgradedStep, hf]⟩)
    · exact .inl (by simp [upgradedStep, hf, UpgradePc.quiet])
  | _ => first | exact .inl rfl | cases h

theorem inv_outside {s : Onu} {g : Session} (h : Inv s g) {env : Env} {i : Nat} {t : Upgraded}
    (ht : s.upgraded[i]? = some t) (hout : t.pc.working = false)
    (hpaced : PacedUpgraded env s i t.pc) :
    Inv (moved env s i t) (g.observeUpgraded env s t.pc) := by
  obtain ⟨hkept, hstarted, -⟩ := observeUpgraded_frame g env s t.pc
  have hsame := upgradedStep_idle env s hout
  have hf : Frame s (moved env s i t) := by
    have := frame_moved env s i t
    rwa [hsame] at this
  have hwait : (moved env s i t).waitForActive = s.waitForActive := by rw [moved, hsame]
  refine ⟨?_, ?_, ?_, ?_, ?_⟩
  · rw [hkept]
    exact stores_moved h.stores env i t
  · rw [hstarted, moved, hsame]
    exact h.started
  · intro hw
    have hin := h.ready (hwait ▸ hw)
    rwa [InFlash, hf.flash, hkept, hstarted]
  · intro t' ht'
    obtain ⟨j, hj⟩ := List.mem_iff_getElem?.mp ht'
    by_cases hji : j = i
    · subst hji
      rw [moved_self hj]
      rcases next_idle (s := s) hout env with hquiet | ⟨hw, hpc⟩ | ⟨-, -, hpc⟩
      · exact phase_of_quiet hquiet _ _
      · rw [hpc]
        have hin : Phase s g .replySuccess := h.ready hw
        exact hin.frame hf hkept hstarted
      · rw [hpc]
        trivial
    · rw [moved_other hji] at hj
      exact (h.phases t' (List.mem_of_getElem? hj)).frame hf hkept hstarted
  · intro j t' ht' hwork'
    by_cases hji : j = i
    · subst hji
      rw [moved_self ht'] at hwork'
      rcases next_idle (s := s) hout env with hquiet | ⟨-, hpc⟩ | ⟨hpc, hflash, -⟩
      · rw [UpgradePc.not_working_of_quiet hquiet] at hwork'
        cases hwork'
      · rw [hpc] at hwork'
        cases hwork'
      · obtain ⟨hon, hoff, hothers⟩ := hpaced.1 hpc hflash
        refine ⟨?_, hwait.trans hoff, othersQuiet_moved hothers⟩
        rw [hstarted, h.started]
        exact hon
    · rw [moved_other hji] at ht'
      obtain ⟨hon, hoff, hothers⟩ := h.alone j t' ht' hwork'
      refine ⟨hstarted.trans hon, hwait.trans hoff, ?_⟩
      intro k hk hkj t'' ht''
      by_cases hki : k = i
      · subst hki
        rw [moved_self ht'']
        rcases next_idle (s := s) hout env with hquiet | ⟨hw, -⟩ | ⟨hpc, hflash, -⟩
        · exact hquiet
        · rw [hoff] at hw
          cases hw
        · -- thread `j` is at work, so this one may not pass the check
          have := (hpaced.1 hpc hflash).2.2 j (List.getElem?_eq_some_iff.mp ht').1 hji t' ht'
          rw [UpgradePc.not_working_of_quiet this] at hwork'
          cases hwork'
      · rw [moved_other hki] at ht''
        exact hothers k (List.getElem?_eq_some_iff.mp ht'').1 hkj t'' ht''

/-- **One step.**  Every step of a run in which the parties do not overlap keeps the
invariant. -/
theorem inv_step {r : Traced} (h : Inv r.onu r.session) {e : Event} (hpaced : Paced r e) :
    Inv (step r e).onu (step r e).session := by
  cases e with
  | pdu pdu => exact inv_pdu h hpaced
  | load i env => exact inv_load h i env
  | commit i env => exact inv_commit h i env
  | upgraded i env =>
    simp only [step, handle, runUpgraded, Session.observe]
    cases ht : r.onu.upgraded[i]? with
    | none => exact h
    | some t =>
      have hp : PacedUpgraded env r.onu i t.pc := hpaced t ht
      cases hwork : t.pc.working
      · exact inv_outside h ht hwork hp
      · exact inv_working h ht hwork hp

/-! ### Success replies -/

theorem mem_replies_upgradedStep {env : Env} {s : Onu} {pc : UpgradePc}
    (h : .endDownloadRsp .writeSuccess ∈ (upgradedStep env s pc).2.2) : pc = .replySuccess := by
  cases pc with
  | replySuccess => rfl
  | copy file pos pstData => cases pstData <;> simp [upgradedStep] at h
  | openFile =>
    simp only [upgradedStep] at h
    split at h
    · split at h <;> simp at h
    · simp at h
  | eraseFlash bank =>
    simp only [upgradedStep] at h
    split at h <;> simp at h
  | _ => simp [upgradedStep] at h

/-- Only a thread that saw `g_waitForActive` set reports success. -/
theorem success_reply {s : Onu} {e : Event}
    (h : .endDownloadRsp .writeSuccess ∈ (handle s e).2) :
    ∃ t ∈ s.upgraded, t.pc = .replySuccess := by
  cases e with
  | pdu pdu =>
    simp only [handle, softDownload] at h
    cases hreq : requestAt pdu with
    | data block =>
      rw [hreq] at h
      simp only [tftpDataHandler] at h
      split at h <;> simp at h
    | _ => simp [hreq, tftpFileWriteReqHandler] at h
  | upgraded i env =>
    simp only [handle, runUpgraded] at h
    cases ht : s.upgraded[i]? with
    | none => simp [ht] at h
    | some t =>
      rw [ht] at h
      exact ⟨t, List.mem_of_getElem? ht, mem_replies_upgradedStep h⟩
  | load i env =>
    simp only [handle, runLoad] at h
    split at h <;> simp at h
  | commit i env =>
    simp only [handle, runCommit] at h
    split at h <;> simp at h

theorem successInFlash_of_inv {r : Traced} (h : Inv r.onu r.session) (e : Event) :
    SuccessInFlash r e := by
  intro hreply
  obtain ⟨t, ht, hpc⟩ := success_reply hreply
  have hphase := h.phases t ht
  rwa [hpc] at hphase

theorem blocksKept_of_paced {r : Traced} {e : Event} (hpaced : Paced r e) : BlocksKept r e := by
  rintro pdu rfl hreq t ht hwork
  have hidle : PacedRequest r.onu (requestAt pdu) := hpaced
  rw [hreq] at hidle
  rw [UpgradePc.not_working_of_quiet (hidle.2 t ht)] at hwork
  cases hwork

/-- **Success replies.**  In every run in which the parties do not overlap, a success reply
is about the image received since the last write request, and a write request leaves alone
the blocks that a thread is writing. -/
theorem paced_success_in_flash (flash : Bank → Option Buffer) (bootNormal bootUpgrade : UInt8)
    (es : List Event) (hpaced : AllSteps step Paced (.start flash bootNormal bootUpgrade) es) :
    AllSteps step (fun r e => SuccessInFlash r e ∧ BlocksKept r e)
      (.start flash bootNormal bootUpgrade) es := by
  apply allSteps_of_invariant step (fun r => Inv r.onu r.session) _ _ _ hpaced
  · exact fun r e h hp => inv_step h hp
  · exact fun r e h hp => ⟨successInFlash_of_inv h e, blocksKept_of_paced hp⟩
  · exact inv_start flash bootNormal bootUpgrade

/-! ### Two downloads that overlap -/

/-- An image of four bytes whose header carries both checksums and the chip id. -/
def smallImage : Buffer :=
  [0x27, 0x05, 0x19, 0x56, 0xca, 0x03, 0xf7, 0x7a, 0, 0, 0, 0, 0, 0, 0, 4] ++
    List.replicate 8 0 ++ [0xb6, 0x3c, 0xfb, 0xcd] ++ List.replicate 36 0 ++
    [0x40, 0x23, 0x01, 0x00] ++ List.replicate 8 0 ++ [1, 2, 3, 4]

def endDownloadPdu (size : UInt8) : Buffer := [2, 0, 11, 0, 0, 0, 6, 0, 0, 0, size]

/-- Everything succeeds. -/
def goodEnv : Env := ⟨true, ⟨[], none⟩, 0x12340, [], true, true⟩

/-- A whole download: the thread takes 16 steps. -/
def download (i : Nat) (payload : Buffer) : List Event :=
  [.pdu writeReqPdu, .pdu (dataPdu 1 payload),
    .pdu (endDownloadPdu (UInt8.ofNat payload.length))] ++
    List.replicate 16 (.upgraded i goodEnv)

/-- The OLT asks again after the download, and hears of success. -/
theorem download_success_in_flash :
    AllSteps step (fun r e => SuccessInFlash r e ∧ BlocksKept r e)
      (.start (fun _ => none) 0x31 0x31)
      (download 0 smallImage ++ [.pdu (endDownloadPdu 80)] ++
        List.replicate 2 (.upgraded 1 goodEnv)) :=
  paced_success_in_flash _ _ _ _ (by decide +kernel)

/-- A second download, of which one block arrived. -/
def secondDownload : List Event :=
  [.pdu writeReqPdu, .pdu (dataPdu 1 [7]), .pdu (endDownloadPdu 1)]

/-- The end of the second download is answered with the success of the first; and a write
request frees the block that the thread of a first download is about to copy. -/
theorem overlapping_downloads :
    ¬ AllSteps step (fun r e => SuccessInFlash r e ∧ BlocksKept r e)
      (.start (fun _ => none) 0x31 0x31)
      (download 0 smallImage ++ secondDownload ++ List.replicate 2 (.upgraded 1 goodEnv)) ∧
    ¬ AllSteps step (fun r e => SuccessInFlash r e ∧ BlocksKept r e)
      (.start (fun _ => none) 0x31 0x31)
      (secondDownload ++ List.replicate 5 (.upgraded 0 goodEnv) ++ [.pdu writeReqPdu]) := by
  constructor
  · intro h
    have hsuccess := h.mono fun _ _ hstep => hstep.1
    revert hsuccess
    decide +kernel
  · intro h
    have hkept := (AllSteps.append_iff.mp h).2.1.2
    have hlinked : Linked (run step (Traced.start (fun _ => none) 0x31 0x31)
        (secondDownload ++ List.replicate 5 (.upgraded 0 goodEnv))).onu.heap (some 0)
        [(0, [7])] := ⟨rfl, none, by decide, rfl⟩
    have hsame := hkept writeReqPdu rfl (by decide) ⟨1, .copy 0 0 (some 0)⟩ (by decide) rfl
      [(0, [7])] hlinked (0, [7]) (by simp)
    revert hsame
    decide

end Opconn.Oam.Download
