import Opconn.Oam.DownloadSafety

/-!
# Firmware download: switching the boot flag

`eopl_ctc_load_new_img` sets the boot flag to the bank that is not booted, whatever the
state of the download, and the check of the announced length is compiled out.  `Cautious`
is what the OLT has to observe on top of `Paced` for a switch to be justified: activate
once and only an image that waits for it, end a download with the length that was sent,
and leave the ONU alone while it ends a download or resets.
-/

namespace Opconn.Oam.Download

open SList Runs

/-! ### The property -/

/-- The step sets the boot flag to `bank`. -/
def SwitchesTo (s : Onu) (e : Event) (bank : Bank) : Prop :=
  ∃ i env, e = .load i env ∧ env.configOk = true ∧ s.load[i]? = some (.setNormal bank)

/-- The image received since the last write request has the length an end-download request
announced, passed the check and was written to `bank`, where it still is; and the flag was
not yet switched for it. -/
structure Justified (s : Onu) (g : Session) (bank : Bank) : Prop where
  started : g.started = true
  complete : UInt32.ofNat (image g.kept).length ∈ g.announced
  passed : image g.kept ∈ g.passed
  written : (bank, image g.kept) ∈ g.written
  inBank : s.flash bank = some (image g.kept)
  once : g.switched = false

def SwitchJustified (r : Traced) (e : Event) : Prop :=
  ∀ bank, SwitchesTo r.onu e bank → Justified r.onu r.session bank

/-- What the boot flag and the threads depend on, and a block does not touch. -/
theorem tftpDataHandler_frame (s : Onu) (block : Block) :
    (tftpDataHandler s block).1.upgraded = s.upgraded ∧
    (tftpDataHandler s block).1.load = s.load ∧
    (tftpDataHandler s block).1.waitForActive = s.waitForActive ∧
    (tftpDataHandler s block).1.flash = s.flash ∧
    (tftpDataHandler s block).1.bootNormal = s.bootNormal := by
  have hlink : ∀ s' a, (linkBlock s' block a).upgraded = s'.upgraded ∧
      (linkBlock s' block a).load = s'.load ∧
      (linkBlock s' block a).waitForActive = s'.waitForActive ∧
      (linkBlock s' block a).flash = s'.flash ∧
      (linkBlock s' block a).bootNormal = s'.bootNormal := by
    intro s' a
    rw [linkBlock]
    split <;> exact ⟨rfl, rfl, rfl, rfl, rfl⟩
  rw [tftpDataHandler]
  split
  · split
    · exact hlink (allocBlock s block.payload) s.heapTop
    · exact ⟨rfl, rfl, rfl, rfl, rfl⟩
  · exact ⟨rfl, rfl, rfl, rfl, rfl⟩

/-- Nothing else sets the flag: it changes in that step, or at start-up when
`vosConfigInit` finds no valid flags. -/
theorem bootNormal_step {s : Onu} {e : Event}
    (h : (handle s e).1.bootNormal ≠ s.bootNormal) :
    (∃ bank, SwitchesTo s e bank ∧ (handle s e).1.bootNormal = bank.flag) ∨
    ∃ i env, e = .load i env ∧ s.load[i]? = some .boardReset ∧
      (handle s e).1.bootNormal = flashBootOs1Flag := by
  cases e with
  | pdu pdu =>
    exfalso
    apply h
    simp only [handle, softDownload]
    split
    · rfl
    · next block hblock => exact (tftpDataHandler_frame s block).2.2.2.2
    all_goals rfl
  | upgraded i env =>
    exfalso
    apply h
    simp only [handle, runUpgraded]
    split
    · rfl
    · next t ht => exact (upgradedStep_frame env s t.pc).bootNormal
  | commit i env =>
    exfalso
    apply h
    simp only [handle, runCommit]
    split <;> rfl
  | load i env =>
    simp only [handle, runLoad] at h ⊢
    cases hpc : s.load[i]? with
    | none => simp [hpc] at h
    | some pc =>
      cases pc with
      | setNormal bank =>
        cases hok : env.configOk
        · simp [hpc, vosConfigBootFlagSet, hok] at h
        · exact .inl ⟨bank, ⟨i, env, rfl, hok, hpc⟩, by simp [vosConfigBootFlagSet, hok]⟩
      | boardReset =>
        refine .inr ⟨i, env, rfl, hpc, ?_⟩
        rw [hpc] at h
        simp only [reboot, Onu.start, configInit] at h ⊢
        split_ifs at h ⊢ <;> first | rfl | exact absurd rfl h
      | _ => simp [hpc] at h

/-! ### What the OLT has to observe -/

def AllExited (s : Onu) : Prop := ∀ t ∈ s.upgraded, t.pc = .exited

instance (s : Onu) : Decidable (AllExited s) := inferInstanceAs (Decidable (∀ _ ∈ _, _))

/-- A write request comes when no thread of the download runs, a block that will be accepted
when the board is not about to reset, and an image is activated once, when it waits for
it. -/
def CautiousRequest (s : Onu) : Request → Prop
  | .writeReq => AllExited s ∧ s.load = []
  | .data block => block.fits = true → inOrder s block = true → s.load = []
  | .actImgReq => s.waitForActive = true ∧ s.load = []
  | _ => True

/-- A thread passes the check of `ucFlash` when the length it was told is the length
received and the board is not about to reset. -/
def CautiousUpgraded (env : Env) (s : Onu) (t : Upgraded) : Prop :=
  (t.pc = .checkFlash → s.imageFile.ucFlash = false →
    t.ulFileSize = s.imageFile.uiFileSize ∧ s.load = []) ∧
  (t.pc = .readBoot → env.configOk = true)

def Cautious (r : Traced) (e : Event) : Prop :=
  Paced r e ∧ match e with
    | .pdu pdu => CautiousRequest r.onu (requestAt pdu)
    | .upgraded i env => ∀ t ∈ r.onu.upgraded[i]?, CautiousUpgraded env r.onu t
    | .load i env => r.onu.load[i]? = some .readBoot → env.configOk = true
    | .commit _ _ => True

instance (s : Onu) : (request : Request) → Decidable (CautiousRequest s request)
  | .writeReq => inferInstanceAs (Decidable (_ ∧ _))
  | .data _ => inferInstanceAs (Decidable (_ → _ → _))
  | .actImgReq => inferInstanceAs (Decidable (_ ∧ _))
  | .endDownloadReq _ | .commitImgReq | .ignored => inferInstanceAs (Decidable True)

instance (env : Env) (s : Onu) (t : Upgraded) : Decidable (CautiousUpgraded env s t) :=
  inferInstanceAs (Decidable ((_ → _ → _) ∧ (_ → _)))

instance (r : Traced) : (e : Event) → Decidable (Cautious r e)
  | .pdu pdu => inferInstanceAs (Decidable (_ ∧ CautiousRequest r.onu (requestAt pdu)))
  | .upgraded _ _ => inferInstanceAs (Decidable (_ ∧ ∀ t ∈ _, _))
  | .load _ _ => inferInstanceAs (Decidable (_ ∧ (_ → _)))
  | .commit _ _ => inferInstanceAs (Decidable (_ ∧ True))

/-! ### What the two threads know -/

/-- The image passed the check and is in the bank that is not booted. -/
structure Held (s : Onu) (g : Session) : Prop where
  passed : image g.kept ∈ g.passed
  written : (otherBank s.bootNormal, image g.kept) ∈ g.written
  inBank : s.flash (otherBank s.bootNormal) = some (image g.kept)

def Progress (s : Onu) (g : Session) : UpgradePc → Prop
  | .markFlash | .replyStarted | .readBoot => image g.kept ∈ g.passed
  | .eraseFlash bank | .writeFlash bank _ =>
    image g.kept ∈ g.passed ∧ bank = otherBank s.bootNormal
  | .removeFile | .clearFlash | .markWait => Held s g
  | _ => True

def Loading (s : Onu) (g : Session) : LoadPc → Prop
  | .clearWait => Justified s g (otherBank s.bootNormal)
  | .reply | .readBoot => s.waitForActive = false ∧ Justified s g (otherBank s.bootNormal)
  | .setNormal bank =>
    s.waitForActive = false ∧ Justified s g bank ∧ bank = otherBank s.bootNormal
  | .setUpgrade | .boardReset => s.waitForActive = false

structure BootInv (s : Onu) (g : Session) : Prop where
  announced : ∀ t ∈ s.upgraded, t.pc ≠ .exited → t.ulFileSize ∈ g.announced
  working : ∀ t ∈ s.upgraded, t.pc.working = true →
    s.load = [] ∧ g.switched = false ∧ t.ulFileSize = s.imageFile.uiFileSize ∧ Progress s g t.pc
  fresh : s.load = [] → g.switched = false
  ready : s.waitForActive = true → Justified s g (otherBank s.bootNormal)
  single : s.load.length ≤ 1
  loading : ∀ pc ∈ s.load, Loading s g pc

theorem bootInv_start (flash : Bank → Option Buffer) (bootNormal bootUpgrade : UInt8) :
    BootInv (.start flash bootNormal bootUpgrade) .none := by
  constructor <;> simp [Onu.start, Session.none]

/-- What the two threads know depends on these parts of the state and of the history; more
end-download requests do no harm. -/
structure BootFrame (s s' : Onu) (g g' : Session) : Prop where
  wait : s'.waitForActive = s.waitForActive
  flash : s'.flash = s.flash
  boot : s'.bootNormal = s.bootNormal
  kept : g'.kept = g.kept
  started : g'.started = g.started
  announced : g.announced ⊆ g'.announced
  passed : g'.passed = g.passed
  written : g'.written = g.written
  switched : g'.switched = g.switched

theorem Justified.frame {s s' : Onu} {g g' : Session} {bank : Bank} (h : Justified s g bank)
    (hf : BootFrame s s' g g') : Justified s' g' bank := by
  constructor
  · exact hf.started.trans h.started
  · rw [hf.kept]
    exact hf.announced h.complete
  · rw [hf.kept, hf.passed]
    exact h.passed
  · rw [hf.kept, hf.written]
    exact h.written
  · rw [hf.flash, hf.kept]
    exact h.inBank
  · exact hf.switched.trans h.once

theorem Progress.frame {s s' : Onu} {g g' : Session} {pc : UpgradePc} (h : Progress s g pc)
    (hf : BootFrame s s' g g') : Progress s' g' pc := by
  have hheld : Held s g → Held s' g' := by
    rintro ⟨hpassed, hwritten, hbank⟩
    constructor
    · rwa [hf.kept, hf.passed]
    · rwa [hf.boot, hf.kept, hf.written]
    · rwa [hf.boot, hf.flash, hf.kept]
  cases pc <;>
    first
    | trivial
    | exact hheld h
    | simpa only [Progress, hf.kept, hf.passed, hf.boot] using h

theorem Loading.frame {s s' : Onu} {g g' : Session} {pc : LoadPc} (h : Loading s g pc)
    (hf : BootFrame s s' g g') : Loading s' g' pc := by
  cases pc with
  | clearWait =>
    rw [Loading, hf.boot]
    exact Justified.frame h hf
  | setNormal bank =>
    rw [Loading, hf.boot, hf.wait]
    exact ⟨h.1, h.2.1.frame hf, h.2.2⟩
  | setUpgrade => exact hf.wait.trans h
  | boardReset => exact hf.wait.trans h
  | _ =>
    rw [Loading, hf.boot, hf.wait]
    exact ⟨h.1, h.2.frame hf⟩

/-- Steps that leave the two kinds of threads alone. -/
theorem BootInv.frame {s s' : Onu} {g g' : Session} (h : BootInv s g)
    (hf : BootFrame s s' g g') (hload : s'.load = s.load)
    (hannounced : ∀ t ∈ s'.upgraded, t.pc ≠ .exited → t.ulFileSize ∈ g'.announced)
    (hworking : ∀ t ∈ s'.upgraded, t.pc.working = true →
      s.load = [] ∧ g.switched = false ∧ t.ulFileSize = s'.imageFile.uiFileSize ∧
        Progress s g t.pc) :
    BootInv s' g' := by
  constructor
  · exact hannounced
  · intro t ht hwork
    obtain ⟨hl, hs, hz, hp⟩ := hworking t ht hwork
    exact ⟨hload.trans hl, hf.switched.trans hs, hz, hp.frame hf⟩
  · intro hl
    exact hf.switched.trans (h.fresh (hload ▸ hl))
  · intro hw
    rw [hf.boot]
    exact (h.ready (hf.wait ▸ hw)).frame hf
  · rw [hload]
    exact h.single
  · rw [hload]
    exact fun pc hpc => (h.loading pc hpc).frame hf

theorem BootInv.congr {s s' : Onu} {g : Session} (h : BootInv s g)
    (hf : BootFrame s s' g g) (hupgraded : s'.upgraded = s.upgraded) (hload : s'.load = s.load)
    (hsize : s'.imageFile.uiFileSize = s.imageFile.uiFileSize) : BootInv s' g := by
  apply h.frame hf hload
  · rw [hupgraded]
    exact h.announced
  · rw [hupgraded, hsize]
    exact h.working

/-- With the board not about to reset, nothing waiting and no thread at work, only the
announced sizes count. -/
theorem bootInv_of_idle {s : Onu} {g : Session}
    (hannounced : ∀ t ∈ s.upgraded, t.pc ≠ .exited → t.ulFileSize ∈ g.announced)
    (hidle : Idle s) (hload : s.load = []) (hswitched : g.switched = false) : BootInv s g := by
  refine ⟨hannounced, ?_, fun _ => hswitched, ?_, by simp [hload], by simp [hload]⟩
  · intro t ht hwork
    rw [UpgradePc.not_working_of_quiet (hidle.2 t ht)] at hwork
    cases hwork
  · intro hwait
    rw [hidle.1] at hwait
    cases hwait

/-! ### PDUs -/

theorem bootInv_data {s : Onu} {g : Session} (h : BootInv s g) (hinv : Inv s g) {block : Block}
    (hpaced : block.fits = true → inOrder s block = true → Idle s)
    (hcautious : block.fits = true → inOrder s block = true → s.load = []) :
    BootInv (tftpDataHandler s block).1 { g with kept := accept g.kept block } := by
  obtain ⟨hupgraded, hload, hwait, hflash, hboot⟩ := tftpDataHandler_frame s block
  by_cases hacc : block.fits = true ∧ inOrder s block = true
  · have hl := hcautious hacc.1 hacc.2
    have hidle := hpaced hacc.1 hacc.2
    apply bootInv_of_idle
    · rw [hupgraded]
      exact h.announced
    · rwa [Idle, AllQuiet, hupgraded, hwait]
    · rwa [hload]
    · exact h.fresh hl
  · have hkept : accept g.kept block = g.kept := by
      rw [accept, if_neg]
      rintro ⟨hfits, hnext⟩
      apply hacc
      refine ⟨hfits, ?_⟩
      rw [inOrder, hinv.stores.block1, decide_eq_true_eq]
      exact hnext.symm
    rw [hkept]
    refine h.congr ⟨hwait, hflash, hboot, rfl, rfl, fun _ => id, rfl, rfl, rfl⟩ hupgraded hload ?_
    rw [tftpDataHandler]
    by_cases hfits : block.fits = true
    · have horder : ¬ inOrder s block = true := fun ho => hacc ⟨hfits, ho⟩
      simp only [hfits, horder, if_true]
      rfl
    · simp only [hfits]
      rfl

theorem bootInv_endDownload {s : Onu} {g : Session} (h : BootInv s g) (ulFileSize : UInt32) :
    BootInv { s with upgraded := s.upgraded ++ [⟨ulFileSize, .checkWait⟩] }
      { g with announced := g.announced ++ [ulFileSize] } := by
  have hsub : g.announced ⊆ g.announced ++ [ulFileSize] := List.subset_append_left ..
  refine h.frame ⟨rfl, rfl, rfl, rfl, rfl, hsub, rfl, rfl, rfl⟩ rfl ?_ ?_
  · intro t ht hpc
    rcases List.mem_append.mp ht with hold | hnew
    · exact hsub (h.announced t hold hpc)
    · rw [List.mem_singleton.mp hnew]
      exact List.mem_append_right _ (List.mem_singleton.mpr rfl)
  · intro t ht hwork
    rcases List.mem_append.mp ht with hold | hnew
    · exact h.working t hold hwork
    · rw [List.mem_singleton.mp hnew] at hwork
      cases hwork

/-- The image that waits is the one the new thread will switch to. -/
theorem bootInv_actImg {s : Onu} {g : Session} (h : BootInv s g) (hinv : Inv s g)
    (hwait : s.waitForActive = true) (hload : s.load = []) :
    BootInv { s with load := s.load ++ [.clearWait] } g := by
  have hjust := h.ready hwait
  have hnone : ∀ t ∈ s.upgraded, t.pc.working = false := by
    intro t ht
    obtain ⟨i, hi⟩ := List.mem_iff_getElem?.mp ht
    rw [Bool.eq_false_iff]
    intro hwork
    have := (hinv.alone i t hi hwork).2.1
    rw [hwait] at this
    cases this
  have hready : Justified { s with load := s.load ++ [.clearWait] } g (otherBank s.bootNormal) :=
    hjust.frame ⟨rfl, rfl, rfl, rfl, rfl, fun _ => id, rfl, rfl, rfl⟩
  constructor
  · exact h.announced
  · intro t ht hwork
    rw [hnone t ht] at hwork
    cases hwork
  · exact fun _ => h.fresh hload
  · exact fun _ => hready
  · simp [hload]
  · intro pc hpc
    have hpc' : pc = .clearWait := by simpa [hload] using hpc
    rw [hpc']
    exact hready

theorem bootInv_pdu {s : Onu} {g : Session} (h : BootInv s g) (hinv : Inv s g) {pdu : Buffer}
    (hpaced : PacedRequest s (requestAt pdu)) (hcautious : CautiousRequest s (requestAt pdu)) :
    BootInv (softDownload s pdu).1 (g.observePdu pdu) := by
  simp only [softDownload, Session.observePdu]
  cases hreq : requestAt pdu with
  | writeReq =>
    rw [hreq] at hpaced hcautious
    obtain ⟨hexited, hload⟩ := hcautious
    apply bootInv_of_idle
    · intro t ht hpc
      exact absurd (hexited t ht) hpc
    · exact hpaced
    · exact hload
    · rfl
  | data block =>
    rw [hreq] at hpaced hcautious
    exact bootInv_data h hinv hpaced hcautious
  | endDownloadReq ulFileSize => exact bootInv_endDownload h ulFileSize
  | actImgReq =>
    rw [hreq] at hcautious
    exact bootInv_actImg h hinv hcautious.1 hcautious.2
  | commitImgReq =>
    exact h.congr ⟨rfl, rfl, rfl, rfl, rfl, fun _ => id, rfl, rfl, rfl⟩ rfl rfl rfl
  | ignored => exact h

/-! ### Thread steps -/

theorem observeUpgraded_idle (g : Session) (env : Env) (s : Onu) {pc : UpgradePc}
    (h : pc.working = false) : g.observeUpgraded env s pc = g := by
  cases pc <;> first | rfl | cases h

/-- Each step of the thread at work adds to what is known of the image. -/
theorem progress_step {s : Onu} {g : Session} {t : Upgraded} {env : Env} {i : Nat}
    (hphase : Phase s g t.pc) (h : Progress s g t.pc) (hwork : t.pc.working = true)
    (hpaced : PacedUpgraded env s i t.pc) (hcautious : CautiousUpgraded env s t) :
    Progress (upgradedStep env s t.pc).1 (g.observeUpgraded env s t.pc)
      (upgradedStep env s t.pc).2.1 := by
  obtain ⟨ulFileSize, pc⟩ := t
  cases pc with
  | removeOld => trivial
  | openFile =>
    simp only [upgradedStep]
    split
    · split <;> trivial
    · trivial
  | readList file => trivial
  | copy file pos pstData => cases pstData <;> trivial
  | checkImage =>
    have hcopied : ∀ file, s.bakFile = some file → s.inodes file = image g.kept := hphase
    cases hbak : s.bakFile with
    | none =>
      simp only [upgradedStep, hbak, Option.any_none, Bool.false_eq_true, if_false]
      trivial
    | some file =>
      have hfile := hcopied file hbak
      by_cases hok : checkImage env.chipid env.stack (image g.kept) = true
      · simp [upgradedStep, Session.observeUpgraded, hbak, hfile, hok, Progress]
      · simp [upgradedStep, hbak, hfile, hok, Progress]
  | markFlash => exact h
  | replyStarted => exact h
  | readBoot =>
    have hok : env.configOk = true := hcautious.2 rfl
    exact ⟨h, by simp [upgradedStep, vosConfigBootFlagGet, hok]⟩
  | eraseFlash bank =>
    obtain ⟨file, hbak, -⟩ : Copied s g := hphase
    simpa [upgradedStep, hbak, Session.observeUpgraded, Progress] using h
  | writeFlash bank file =>
    obtain ⟨hpassed, rfl⟩ : image g.kept ∈ g.passed ∧ bank = otherBank s.bootNormal := h
    have hfile : s.inodes file = image g.kept := hphase
    have hok : env.written = true := hpaced.2 rfl
    simp only [upgradedStep, Session.observeUpgraded, hok, if_true]
    constructor
    · exact hpassed
    · simp [hfile]
    · simp [hfile]
  | removeFile =>
    obtain ⟨hpassed, hwritten, hbank⟩ : Held s g := h
    exact ⟨hpassed, hwritten, hbank⟩
  | clearFlash =>
    obtain ⟨hpassed, hwritten, hbank⟩ : Held s g := h
    exact ⟨hpassed, hwritten, hbank⟩
  | markWait => trivial
  | _ => cases hwork

/-- The announced length is the length of the image. -/
theorem complete_of_size {s : Onu} {g : Session} (hstores : Stores s g.kept) {size : UInt32}
    (hmem : size ∈ g.announced) (hsize : size = s.imageFile.uiFileSize) :
    UInt32.ofNat (image g.kept).length ∈ g.announced := by
  rw [← hstores.size, UInt32.ofNat_toNat, ← hsize]
  exact hmem

theorem bootInv_working {s : Onu} {g : Session} (h : BootInv s g) (hinv : Inv s g) {env : Env}
    {i : Nat} {t : Upgraded} (ht : s.upgraded[i]? = some t) (hwork : t.pc.working = true)
    (hpaced : PacedUpgraded env s i t.pc) (hcautious : CautiousUpgraded env s t) :
    BootInv (moved env s i t) (g.observeUpgraded env s t.pc) := by
  have hmem := List.mem_of_getElem? ht
  obtain ⟨-, -, hannounced, hswitched⟩ := observeUpgraded_frame g env s t.pc
  obtain ⟨hload, hfresh, hsize, hprogress⟩ := h.working t hmem hwork
  obtain ⟨hon, hoff, hothers⟩ := hinv.alone i t ht hwork
  have hquiet : OthersQuiet (moved env s i t) i := othersQuiet_moved hothers
  have hload' : (moved env s i t).load = [] := (upgradedStep_frame env s t.pc).load.trans hload
  have hfile : (moved env s i t).imageFile.uiFileSize = s.imageFile.uiFileSize :=
    (upgradedStep_frame env s t.pc).uiFileSize
  have hlive : t.pc ≠ .exited := by
    intro hpc
    rw [hpc] at hwork
    cases hwork
  constructor
  · intro t' ht' hpc
    rw [hannounced]
    obtain ⟨j, hj⟩ := List.mem_iff_getElem?.mp ht'
    by_cases hji : j = i
    · subst hji
      rw [moved_self hj]
      exact h.announced t hmem hlive
    · rw [moved_other hji] at hj
      exact h.announced t' (List.mem_of_getElem? hj) hpc
  · intro t' ht' hwork'
    obtain ⟨j, hj⟩ := List.mem_iff_getElem?.mp ht'
    by_cases hji : j = i
    · subst hji
      rw [moved_self hj]
      have hp := progress_step (hinv.phases t hmem) hprogress hwork hpaced hcautious
      refine ⟨hload', hswitched.trans hfresh, hsize.trans hfile.symm, ?_⟩
      exact hp.frame ⟨rfl, rfl, rfl, rfl, rfl, fun _ => id, rfl, rfl, rfl⟩
    · have := hquiet j (List.getElem?_eq_some_iff.mp hj).1 hji t' hj
      rw [UpgradePc.not_working_of_quiet this] at hwork'
      cases hwork'
  · exact fun _ => hswitched.trans hfresh
  · intro hw
    by_cases hlast : t.pc = .markWait
    · -- the end of the work: everything is known of the image
      rw [hlast] at hprogress
      obtain ⟨hpassed, hwritten, hbank⟩ : Held s g := hprogress
      have hcomplete := complete_of_size hinv.stores (h.announced t hmem hlive) hsize
      simp only [moved, hlast, upgradedStep, Session.observeUpgraded]
      exact ⟨hon, hcomplete, hpassed, hwritten, hbank, hfresh⟩
    · have hwait : (moved env s i t).waitForActive = s.waitForActive :=
        upgradedStep_wait env s hlast
      rw [hwait, hoff] at hw
      cases hw
  · simp [hload']
  · simp [hload']

theorem bootInv_outside {s : Onu} {g : Session} (h : BootInv s g) {env : Env}
    {i : Nat} {t : Upgraded} (ht : s.upgraded[i]? = some t) (hout : t.pc.working = false)
    (hcautious : CautiousUpgraded env s t) :
    BootInv (moved env s i t) (g.observeUpgraded env s t.pc) := by
  have hmem := List.mem_of_getElem? ht
  rw [observeUpgraded_idle g env s hout]
  have hsame := upgradedStep_idle env s hout
  have hload : (moved env s i t).load = s.load := by rw [moved, hsame]
  have hfile : (moved env s i t).imageFile.uiFileSize = s.imageFile.uiFileSize := by
    rw [moved, hsame]
  have hf : BootFrame s (moved env s i t) g g := by
    rw [moved, hsame]
    exact ⟨rfl, rfl, rfl, rfl, rfl, fun _ => id, rfl, rfl, rfl⟩
  apply h.frame hf hload
  · intro t' ht' hpc
    obtain ⟨j, hj⟩ := List.mem_iff_getElem?.mp ht'
    by_cases hji : j = i
    · subst hji
      rw [moved_self hj]
      refine h.announced t hmem ?_
      intro hexited
      rw [moved_self hj, hexited] at hpc
      exact hpc rfl
    · rw [moved_other hji] at hj
      exact h.announced t' (List.mem_of_getElem? hj) hpc
  · intro t' ht' hwork'
    rw [hfile]
    obtain ⟨j, hj⟩ := List.mem_iff_getElem?.mp ht'
    by_cases hji : j = i
    · subst hji
      rw [moved_self hj] at hwork' ⊢
      rcases next_idle (s := s) hout env with hquiet | ⟨-, hpc⟩ | ⟨hpc, hflash, hnext⟩
      · rw [UpgradePc.not_working_of_quiet hquiet] at hwork'
        cases hwork'
      · rw [hpc] at hwork'
        cases hwork'
      · obtain ⟨hsize, hl⟩ := hcautious.1 hpc hflash
        refine ⟨hl, h.fresh hl, hsize, ?_⟩
        rw [hnext]
        trivial
    · rw [moved_other hji] at hj
      exact h.working t' (List.mem_of_getElem? hj) hwork'

/-- While the board is about to reset no thread writes an image. -/
theorem bootInv_loading {s s' : Onu} {g g' : Session} (h : BootInv s g) (hload : s.load ≠ [])
    (hupgraded : s'.upgraded = s.upgraded) (hannounced : g'.announced = g.announced) {pc : LoadPc}
    (hload' : s'.load = [pc]) (hwait : s'.waitForActive = false) (hpc : Loading s' g' pc) :
    BootInv s' g' := by
  constructor
  · rw [hupgraded, hannounced]
    exact h.announced
  · rw [hupgraded]
    intro t ht hwork
    exact absurd (h.working t ht hwork).1 hload
  · rw [hload']
    intro hnil
    cases hnil
  · intro hw
    rw [hwait] at hw
    cases hw
  · simp [hload']
  · intro pc' hpc'
    rw [hload', List.mem_singleton] at hpc'
    rwa [hpc']

theorem bootInv_load {s : Onu} {g : Session} (h : BootInv s g) (i : Nat) {env : Env}
    (hcautious : s.load[i]? = some .readBoot → env.configOk = true) :
    BootInv (runLoad env s i).1 (g.observe s (.load i env)) := by
  simp only [runLoad, Session.observe]
  cases hpc : s.load[i]? with
  | none => exact h
  | some pc =>
    have hmem := List.mem_of_getElem? hpc
    have hl := h.loading pc hmem
    have hne : s.load ≠ [] := List.ne_nil_of_mem hmem
    -- there is one such thread, so its list is rewritten whole
    have hset : ∀ pc', s.load.set i pc' = [pc'] := by
      intro pc'
      obtain ⟨hi, -⟩ := List.getElem?_eq_some_iff.mp hpc
      have hone : s.load.length = 1 := le_antisymm h.single (by omega)
      obtain ⟨q, hq⟩ := List.length_eq_one_iff.mp hone
      have hzero : i = 0 := by omega
      rw [hq, hzero]
      rfl
    have hframe : ∀ bank, Justified s g bank → ∀ (load : List LoadPc) (waitForActive : Bool),
        Justified { s with load := load, waitForActive := waitForActive } g bank := by
      intro bank hj load waitForActive
      exact ⟨hj.started, hj.complete, hj.passed, hj.written, hj.inBank, hj.once⟩
    cases pc with
    | clearWait => exact bootInv_loading h hne rfl rfl (hset _) rfl ⟨rfl, hframe _ hl _ _⟩
    | reply => exact bootInv_loading h hne rfl rfl (hset _) hl.1 ⟨hl.1, hframe _ hl.2 _ _⟩
    | readBoot =>
      have hok := hcautious hpc
      refine bootInv_loading h hne rfl rfl (hset _) hl.1 ⟨hl.1, ?_, ?_⟩
      · simp only [vosConfigBootFlagGet, hok, if_true]
        exact hframe _ hl.2 _ _
      · simp [vosConfigBootFlagGet, hok]
    | setNormal bank =>
      refine bootInv_loading h hne rfl ?_ (hset _) hl.1 hl.1
      simp only [Session.observeLoad]
      split <;> rfl
    | setUpgrade => exact bootInv_loading h hne rfl rfl (hset _) hl hl
    | boardReset => exact bootInv_start _ _ _

/-! ### Runs -/

theorem bootInv_step {r : Traced} (hinv : Inv r.onu r.session) (h : BootInv r.onu r.session)
    {e : Event} (hcautious : Cautious r e) : BootInv (step r e).onu (step r e).session := by
  obtain ⟨hpaced, hextra⟩ := hcautious
  cases e with
  | pdu pdu => exact bootInv_pdu h hinv hpaced hextra
  | load i env => exact bootInv_load h i hextra
  | commit i env =>
    simp only [step, handle, runCommit, Session.observe]
    split <;>
      exact h.congr ⟨rfl, rfl, rfl, rfl, rfl, fun _ => id, rfl, rfl, rfl⟩ rfl rfl rfl
  | upgraded i env =>
    simp only [step, handle, runUpgraded, Session.observe]
    cases ht : r.onu.upgraded[i]? with
    | none => exact h
    | some t =>
      have hc : CautiousUpgraded env r.onu t := hextra t ht
      cases hwork : t.pc.working
      · exact bootInv_outside h ht hwork hc
      · exact bootInv_working h hinv ht hwork (hpaced t ht) hc

theorem switchJustified_of_bootInv {r : Traced} (h : BootInv r.onu r.session) (e : Event) :
    SwitchJustified r e := by
  rintro bank ⟨i, env, rfl, -, hpc⟩
  exact (h.loading _ (List.mem_of_getElem? hpc)).2.1

/-- **Switching banks.**  In every run whose steps the OLT orders with care, the boot flag is
set only to a bank that holds the image received since the last write request, complete,
checked and completely written, and only once for it. -/
theorem cautious_switch_justified (flash : Bank → Option Buffer) (bootNormal bootUpgrade : UInt8)
    (es : List Event) (hcautious : AllSteps step Cautious (.start flash bootNormal bootUpgrade) es) :
    AllSteps step SwitchJustified (.start flash bootNormal bootUpgrade) es := by
  apply allSteps_of_invariant step
    (fun r => Inv r.onu r.session ∧ BootInv r.onu r.session) _ _ _ hcautious
  · exact fun r e h hc => ⟨inv_step h.1 hc.1, bootInv_step h.1 h.2 hc⟩
  · exact fun r e h _ => switchJustified_of_bootInv h.2 e
  · exact ⟨inv_start flash bootNormal bootUpgrade, bootInv_start flash bootNormal bootUpgrade⟩

/-- An activate request. -/
def actImgPdu : Buffer := [3, 0, 8, 0, 0, 0, 8, 0]

/-- A download and its activation, up to the reset of the board. -/
theorem download_switch_justified :
    AllSteps step SwitchJustified (.start (fun _ => none) 0x31 0x31)
      (download 0 smallImage ++ [.pdu actImgPdu] ++ List.replicate 6 (.load 0 goodEnv)) :=
  cautious_switch_justified _ _ _ _ (by decide +kernel)

/-- An activate request that comes first is obeyed: the ONU boots the other bank, where
there is no image. -/
theorem activate_first_switches :
    ¬ AllSteps step SwitchJustified (.start (fun _ => none) 0x31 0x31)
      (.pdu actImgPdu :: List.replicate 6 (.load 0 goodEnv)) := by
  intro h
  -- the fifth step sets the flag
  have hswitch := h.2.2.2.2.1
  have hjust := hswitch .os2 ⟨0, goodEnv, rfl, rfl, by decide⟩
  have hstarted := hjust.started
  revert hstarted
  decide

end Opconn.Oam.Download
