import Mathlib.Data.List.GetD
import Opconn.Classify.OffsetSet

/-!
# What is written of a field

`clsMaskRuleSet` writes each bit of what is left of a field, from a byte of the key on, byte by
byte as they stand in the packet.  A search writes in each pass bits of its field only, and takes
nothing back.
-/

namespace Opconn.Classify.OffsetSet

open MaskedKey

/-! ### Bits -/

/-- A write has bit `x` of the packet, counted from the first bit of its first byte. -/
def Marks (w : KeyWrite) (x : Nat) : Prop :=
  w.source = x / 8 ∧ w.bits.getLsbD (7 - x % 8) = true

/-- The fields begin at a byte or in the middle of one. -/
def Aligned (startBit : Nat) : Prop := startBit % 8 = 0 ∨ startBit % 8 = 4

theorem maskTemp_spec : ∀ n ≤ 8, ∀ j < 8,
    (((List.range n).foldl (fun m i => m ||| 0x80#8 >>> i) 0).getLsbD (7 - j) = true ↔ j < n) ∧
      ((((List.range n).foldl (fun m i => m ||| 0x80#8 >>> i) 0) >>> 4).getLsbD (7 - j) = true ↔
        4 ≤ j ∧ j < 4 + n) := by
  decide

theorem bitCnt_eq {startBit : Nat} (h : Aligned startBit) (fieldLen : Nat) :
    bitCnt startBit fieldLen = min fieldLen (8 - startBit % 8) := by
  rw [bitCnt]
  rcases h with h | h <;> omega

/-- The mask of a round has the bits of the field in its byte. -/
theorem marks_maskTemp {startBit fieldLen byteCnt x : Nat} (h : Aligned startBit) :
    Marks ⟨byteCnt, startBit / 8, maskTemp startBit fieldLen⟩ x ↔
      startBit ≤ x ∧ x < startBit + bitCnt startBit fieldLen := by
  have hcnt : bitCnt startBit fieldLen ≤ 8 := by
    rw [bitCnt_eq h]
    omega
  have hj : x % 8 < 8 := Nat.mod_lt _ (by decide)
  have hspec := maskTemp_spec _ hcnt _ hj
  simp only [Marks, maskTemp]
  have hbound := bitCnt_eq h fieldLen
  rcases h with h | h
  · rw [if_neg (by omega), hspec.1]
    omega
  · have hshift : 8 - startBit % 8 = 4 := by omega
    rw [if_pos (by omega), hshift, hspec.2]
    omega

/-- A round leaves off at the end of a byte, or of the field. -/
theorem aligned_add_bitCnt {startBit : Nat} (h : Aligned startBit) (fieldLen : Nat) :
    fieldLen - bitCnt startBit fieldLen = 0 ∨
      (startBit + bitCnt startBit fieldLen) % 8 = 0 ∧
        (startBit + bitCnt startBit fieldLen) / 8 = startBit / 8 + 1 := by
  rw [bitCnt_eq h]
  rcases h with h | h <;> omega

/-! ### The rounds -/

/-- Nothing besides the field is written. -/
theorem marks_maskRuleRounds {rounds startBit fieldLen byteCnt : Nat} (h : Aligned startBit)
    (hend : startBit + fieldLen ≤ 640) {w : KeyWrite}
    (hw : w ∈ maskRuleRounds rounds startBit fieldLen byteCnt (startBit / 8)) {x : Nat}
    (hx : Marks w x) : startBit ≤ x ∧ x < startBit + fieldLen := by
  induction rounds generalizing startBit fieldLen byteCnt with
  | zero => cases hw
  | succ rounds ih =>
    rw [maskRuleRounds] at hw
    split at hw
    · cases hw
    · have hcnt := bitCnt_eq h fieldLen
      rcases List.mem_cons.mp hw with rfl | hw
      · have hbits := (marks_maskTemp h).mp hx
        omega
      · rcases aligned_add_bitCnt h fieldLen with hdone | ⟨hbyte, hnext⟩
        · rw [hdone] at hw
          cases rounds with
          | zero => cases hw
          | succ rounds =>
            rw [maskRuleRounds, if_pos rfl] at hw
            cases hw
        · have hsource : (startBit / 8 + 1) % 256 =
              (startBit + bitCnt startBit fieldLen) / 8 := by omega
          rw [hsource] at hw
          have hrest := ih (.inl hbyte) (by omega) hw
          omega

/-- Each bit of the field is written. -/
theorem exists_marks_maskRuleRounds {rounds startBit fieldLen : Nat} (byteCnt : Nat)
    (h : Aligned startBit) (hend : startBit + fieldLen ≤ 640) (hrounds : fieldLen ≤ rounds)
    {x : Nat} (hstart : startBit ≤ x) (hx : x < startBit + fieldLen) :
    ∃ w ∈ maskRuleRounds rounds startBit fieldLen byteCnt (startBit / 8), Marks w x := by
  induction rounds generalizing startBit fieldLen byteCnt with
  | zero => omega
  | succ rounds ih =>
    have hcnt := bitCnt_eq h fieldLen
    rw [maskRuleRounds, if_neg (by omega)]
    by_cases hfirst : x < startBit + bitCnt startBit fieldLen
    · exact ⟨_, List.mem_cons_self, (marks_maskTemp h).mpr ⟨hstart, hfirst⟩⟩
    · rcases aligned_add_bitCnt h fieldLen with hdone | ⟨hbyte, hnext⟩
      · omega
      · have hsource : (startBit / 8 + 1) % 256 =
            (startBit + bitCnt startBit fieldLen) / 8 := by omega
        have hpos : 0 < bitCnt startBit fieldLen := by omega
        have hend' : startBit + bitCnt startBit fieldLen +
            (fieldLen - bitCnt startBit fieldLen) = startBit + fieldLen := by omega
        rw [hsource]
        rcases ih ((byteCnt + 1) % 256) (.inl hbyte) (by omega) (by omega)
          (Nat.le_of_not_lt hfirst) (hend' ▸ hx) with ⟨w, hw, hmark⟩
        exact ⟨w, List.mem_cons_of_mem _ hw, hmark⟩

/-- The bytes are written one beside the other, as they stand in the packet. -/
theorem source_maskRuleRounds {rounds startBit fieldLen byteCnt distance : Nat}
    (hdistance : byteCnt + distance = startBit / 8) (h : Aligned startBit)
    (hend : startBit + fieldLen ≤ 640) {w : KeyWrite}
    (hw : w ∈ maskRuleRounds rounds startBit fieldLen byteCnt (startBit / 8)) :
    w.source = w.slot + distance ∧ byteCnt ≤ w.slot ∧ w.source ≤ (startBit + fieldLen - 1) / 8 := by
  induction rounds generalizing startBit fieldLen byteCnt with
  | zero => cases hw
  | succ rounds ih =>
    rw [maskRuleRounds] at hw
    split at hw
    · cases hw
    · have hcnt := bitCnt_eq h fieldLen
      rcases List.mem_cons.mp hw with rfl | hw
      · simp only
        omega
      · rcases aligned_add_bitCnt h fieldLen with hdone | ⟨hbyte, hnext⟩
        · rw [hdone] at hw
          cases rounds with
          | zero => cases hw
          | succ rounds =>
            rw [maskRuleRounds, if_pos rfl] at hw
            cases hw
        · have hsource : (startBit / 8 + 1) % 256 =
              (startBit + bitCnt startBit fieldLen) / 8 := by omega
          rw [hsource] at hw
          have hslot : (byteCnt + 1) % 256 = byteCnt + 1 := by omega
          rw [hslot] at hw
          have hrest := ih (by omega) (.inl hbyte) (by omega) hw
          have hlast : startBit + bitCnt startBit fieldLen +
              (fieldLen - bitCnt startBit fieldLen) = startBit + fieldLen := by omega
          rw [hlast] at hrest
          exact ⟨hrest.1, by omega, hrest.2.2⟩

/-! ### Windows -/

/-- A window has four bytes, and only one goes over the end of the header. -/
theorem headTail_cases (offsetSeq offsetValue : Nat) :
    let window := clsOffsetHeadTailCal offsetSeq offsetValue
    window.2 = window.1 + 31 ∧ window.1 % 8 = 0 ∧ window.1 ≤ 600 ∨
      window.1 = 624 ∧ window.2 = 15 := by
  have hoffset : gClassOffset offsetSeq ∈ [0, 4, 8, 12, 16, 20] := by
    rw [gClassOffset]
    by_cases h : offsetSeq - 1 < 6
    · rw [List.getD_eq_getElem _ _ h]
      exact List.getElem_mem _
    · rw [List.getD_eq_default _ _ (Nat.le_of_not_lt h)]
      decide
  have hsession : gClassSession offsetValue ∈ [0, 1, 3, 6, 10, 15, 21, 28, 36, 45, 55, 66] := by
    rw [gClassSession]
    by_cases h : offsetValue < 12
    · rw [List.getD_eq_getElem _ _ h]
      exact List.getElem_mem _
    · rw [List.getD_eq_default _ _ (Nat.le_of_not_lt h)]
      decide
  have hall : ∀ a ∈ [0, 4, 8, 12, 16, 20], ∀ b ∈ [0, 1, 3, 6, 10, 15, 21, 28, 36, 45, 55, 66],
      let head := (a + b) * 8
      let tail := (a + b + 4) * 8 - 1
      let window := (if packetHeaderLen * 8 ≤ head then head - packetHeaderLen * 8 else head,
        if packetHeaderLen * 8 ≤ tail then tail - packetHeaderLen * 8 else tail)
      window.2 = window.1 + 31 ∧ window.1 % 8 = 0 ∧ window.1 ≤ 600 ∨
        window.1 = 624 ∧ window.2 = 15 := by decide
  exact hall _ hoffset _ hsession

/-- A window that is found to be closest shows the start. -/
theorem closestWindow_spec {offsetSeq offsetValue startBit : Nat} (hstart : startBit ≤ 600)
    (h : (closestWindow offsetSeq offsetValue startBit).1 ≤ startBit ∧
      startBit ≤ (closestWindow offsetSeq offsetValue startBit).2) :
    (closestWindow offsetSeq offsetValue startBit).2 =
        (clsOffsetHeadTailCal offsetSeq offsetValue).2 ∧
      startBit ≤ (clsOffsetHeadTailCal offsetSeq offsetValue).2 := by
  have hwindow : (closestWindow offsetSeq offsetValue startBit).2 =
      (clsOffsetHeadTailCal offsetSeq offsetValue).2 := by
    simp only [closestWindow]
    split
    · rename_i hspecial
      have h624 : (clsOffsetHeadTailCal offsetSeq offsetValue).1 = 624 := by
        rw [hspecial.1, hspecial.2]
        rfl
      rw [if_neg (by omega)]
      split <;> rfl
    · rfl
  exact ⟨hwindow, hwindow ▸ h.2⟩

/-! ### A search -/

/-- What is left of a field with bits from `first` to before `behind`. -/
structure Piece (first behind : Nat) (s : Search) : Prop where
  aligned : Aligned s.startBit
  first_le : first ≤ s.startBit
  end_eq : s.startBit + s.fieldLength = behind

/-- Bits of the field, and no others, are written besides what there was. -/
def Grows (first behind : Nat) (s s' : Search) : Prop :=
  ∃ ws, s'.writes = s.writes ++ ws ∧ ∀ w ∈ ws, ∀ x, Marks w x → first ≤ x ∧ x < behind

section Growth

variable {first behind : Nat} {s s' : Search}

theorem Grows.refl (first behind : Nat) (s : Search) : Grows first behind s s :=
  ⟨[], (List.append_nil _).symm, fun _ hw => nomatch hw⟩

theorem Grows.trans {s'' : Search} (h : Grows first behind s s') (h' : Grows first behind s' s'') :
    Grows first behind s s'' := by
  rcases h with ⟨ws, hws, hbits⟩
  rcases h' with ⟨ws', hws', hbits'⟩
  refine ⟨ws ++ ws', by rw [hws', hws, List.append_assoc], fun w hw => ?_⟩
  rcases List.mem_append.mp hw with hw | hw
  · exact hbits w hw
  · exact hbits' w hw

theorem Grows.of_writes_eq (h : s'.writes = s.writes) : Grows first behind s s' :=
  ⟨[], by rw [h, List.append_nil], fun _ hw => nomatch hw⟩

@[simp] theorem Search.advance_writes (s : Search) : s.advance.writes = s.writes := by
  rw [Search.advance]
  split <;> rfl

@[simp] theorem Search.advance_startBit (s : Search) : s.advance.startBit = s.startBit := by
  rw [Search.advance]
  split <;> rfl

@[simp] theorem Search.advance_fieldLength (s : Search) :
    s.advance.fieldLength = s.fieldLength := by
  rw [Search.advance]
  split <;> rfl

theorem Piece.advance (h : Piece first behind s) : Piece first behind s.advance :=
  ⟨by simpa using h.aligned, by simpa using h.first_le, by simpa using h.end_eq⟩

theorem Piece.take (h : Piece first behind s) (v : Nat) : Piece first behind (s.take v) :=
  ⟨h.aligned, h.first_le, h.end_eq⟩

theorem Piece.cut (h : Piece first behind s) {offsetTail : Nat} (htail : s.startBit ≤ offsetTail)
    (hbyte : (offsetTail + 1) % 8 = 0) (hrest : offsetTail < s.lastBit) :
    Piece first behind (s.cut offsetTail) := by
  have hend := h.end_eq
  have hfirst := h.first_le
  rw [Search.lastBit] at hrest
  refine ⟨.inl hbyte, ?_, ?_⟩
  · simp only [Search.cut]
    omega
  · simp only [Search.cut]
    omega

theorem Piece.grows_take (h : Piece first behind s) (hbehind : behind ≤ 600) (v : Nat) :
    Grows first behind s (s.take v) := by
  refine ⟨_, rfl, fun w hw x hx => ?_⟩
  have hend := h.end_eq
  have hfirst := h.first_le
  have hbits := marks_maskRuleRounds h.aligned (by omega) hw hx
  omega

/-- What an ending keeps of the field. -/
def Ending.Keeps (first behind : Nat) (s : Search) : Ending → Prop
  | .ret s' => Grows first behind s s' ∧ Piece first behind s'
  | .fail _ => True
  | .leave _ s' => Grows first behind s s' ∧ Piece first behind s'

/-- The same for what goes on with the next offset value. -/
def KeepsOr (first behind : Nat) (s : Search) : Except Ending Search → Prop
  | .error ending => ending.Keeps first behind s
  | .ok s' => Grows first behind s s' ∧ Piece first behind s'

theorem keepsOr_settle {fieldMap : UInt32} {refusal : OffsetError} {found : SearchStatus}
    {offsetTail : Nat} {t : Search} (hgrows : Grows first behind s t)
    (h : Piece first behind t) (htail : t.startBit ≤ offsetTail)
    (hbyte : (offsetTail + 1) % 8 = 0) :
    KeepsOr first behind s (settle fieldMap refusal found offsetTail t) := by
  have hadvance : Grows first behind s t.advance ∧ Piece first behind t.advance :=
    ⟨hgrows.trans (.of_writes_eq t.advance_writes), h.advance⟩
  rw [settle]
  split
  · rename_i hrest
    have hcut : Grows first behind s (t.cut offsetTail).advance ∧
        Piece first behind (t.cut offsetTail).advance :=
      ⟨hgrows.trans (.of_writes_eq (t.cut offsetTail).advance_writes),
        (h.cut htail hbyte hrest).advance⟩
    split
    · exact hcut
    · split
      · trivial
      · exact hcut
  · split
    · split
      · split
        · exact hadvance
        · exact hadvance
      · split
        · split
          · exact ⟨hgrows, h⟩
          · trivial
        · exact ⟨hgrows, h⟩
    · exact ⟨hgrows, h⟩

theorem keepsOr_fill (fieldMap : UInt32) (refusal : OffsetError) (found : SearchStatus)
    (offsetValue : Nat) {offsetTail : Nat} {t : Search} (hbehind : behind ≤ 600)
    (hgrows : Grows first behind s t) (h : Piece first behind t)
    (htail : t.startBit ≤ offsetTail) (hbyte : (offsetTail + 1) % 8 = 0) :
    KeepsOr first behind s (fill fieldMap refusal found offsetValue offsetTail t) := by
  rw [fill]
  split
  · trivial
  · exact keepsOr_settle (hgrows.trans (h.grows_take hbehind offsetValue)) (h.take offsetValue)
      htail hbyte

theorem tail_byte (offsetSeq offsetValue : Nat) :
    ((clsOffsetHeadTailCal offsetSeq offsetValue).2 + 1) % 8 = 0 := by
  have hwindow := headTail_cases offsetSeq offsetValue
  omega

theorem keeps_matchStart (fieldMap : UInt32) (values : List Nat) (status : SearchStatus)
    {t : Search} (hbehind : behind ≤ 600) (hgrows : Grows first behind s t)
    (h : Piece first behind t) :
    (matchStart fieldMap values status t).Keeps first behind s := by
  induction values generalizing status t with
  | nil => exact ⟨hgrows, h⟩
  | cons v values ih =>
    have hend := h.end_eq
    rw [matchStart]
    split
    · exact ih status hgrows h
    · rename_i hhead
      split
      · exact ⟨hgrows, h⟩
      · have hwindow := headTail_cases t.offsetSeq v
        have hfill := keepsOr_fill fieldMap .windowsOutofRange .matchStartbit v hbehind hgrows h
          (by omega) (tail_byte t.offsetSeq v)
        revert hfill
        split
        · rename_i hresult
          rw [hresult]
          exact id
        · rename_i hresult
          rw [hresult]
          exact fun hkeeps => ih _ hkeeps.1 hkeeps.2

theorem keepsOr_closestFill (fieldMap : UInt32) {offsetValue : Nat} {t : Search}
    (hbehind : behind ≤ 600) (hgrows : Grows first behind s t) (h : Piece first behind t)
    (hclosest : (closestWindow t.offsetSeq offsetValue t.startBit).1 ≤ t.startBit ∧
      t.startBit ≤ (closestWindow t.offsetSeq offsetValue t.startBit).2) :
    KeepsOr first behind s (closestFill fieldMap offsetValue t) := by
  have hend := h.end_eq
  have hadvance : Grows first behind s t.advance ∧ Piece first behind t.advance :=
    ⟨hgrows.trans (.of_writes_eq t.advance_writes), h.advance⟩
  have hfill : ∀ v tail, t.startBit ≤ tail → (tail + 1) % 8 = 0 →
      KeepsOr first behind s (fill fieldMap .oplError .closestStartbit v tail t) :=
    fun v tail => keepsOr_fill fieldMap .oplError .closestStartbit v hbehind hgrows h
  rcases closestWindow_spec (by omega) hclosest with ⟨htail, hshown⟩
  simp only [closestFill]
  split
  · split
    · split
      · rename_i hstanding
        exact hfill t.value _ hstanding.2 (tail_byte t.offsetSeq t.value)
      · split
        · exact hadvance
        · rename_i hvalue
          have hsame : offsetValue = t.value := not_not.mp hvalue
          exact hfill offsetValue _ (hsame ▸ hshown) (tail_byte t.offsetSeq t.value)
    · split
      · trivial
      · exact hadvance
  · exact hfill offsetValue _ hclosest.2 (htail ▸ tail_byte t.offsetSeq offsetValue)

theorem keeps_closestStart (fieldMap : UInt32) (values : List Nat) (status : SearchStatus)
    {t : Search} (hbehind : behind ≤ 600) (hgrows : Grows first behind s t)
    (h : Piece first behind t) :
    (closestStart fieldMap values status t).Keeps first behind s := by
  induction values generalizing status t with
  | nil => exact ⟨hgrows, h⟩
  | cons v values ih =>
    rw [closestStart]
    split
    · rename_i hclosest
      have hfill := keepsOr_closestFill fieldMap hbehind hgrows h hclosest
      revert hfill
      split
      · rename_i hresult
        rw [hresult]
        exact id
      · rename_i hresult
        rw [hresult]
        exact fun hkeeps => ih _ hkeeps.1 hkeeps.2
    · exact ih status hgrows h

theorem keeps_searchRound (fieldMap : UInt32) (last : Bool) {t : Search}
    (hbehind : behind ≤ 600) (hgrows : Grows first behind s t) (h : Piece first behind t) :
    (searchRound fieldMap last t).Keeps first behind s := by
  have hmatch := keeps_matchStart fieldMap offsetValues .findNone hbehind hgrows h
  rw [searchRound]
  revert hmatch
  split
  · rename_i hresult
    rw [hresult]
    exact id
  · rename_i t' _ hresult
    rw [hresult]
    rintro ⟨hgrows', h'⟩
    have hclosest := keeps_closestStart fieldMap offsetValues .findNone hbehind hgrows' h'
    revert hclosest
    split
    · rename_i t'' hresult'
      rw [hresult']
      rintro ⟨hgrows'', h''⟩
      split
      · split
        · exact ⟨hgrows''.trans (.of_writes_eq rfl), h''.aligned, h''.first_le, h''.end_eq⟩
        · trivial
      · exact ⟨hgrows''.trans (.of_writes_eq rfl), h''.aligned, h''.first_le, h''.end_eq⟩
    · exact id
  · exact id

theorem keeps_searchRounds {fieldMap : UInt32} {rounds : Nat} {t : Search}
    (hbehind : behind ≤ 600) (hgrows : Grows first behind s t) (h : Piece first behind t)
    (hok : searchRounds fieldMap rounds t = .ok s') : Grows first behind s s' := by
  induction rounds generalizing t with
  | zero =>
    cases hok
    exact hgrows
  | succ rounds ih =>
    have hround := keeps_searchRound fieldMap (rounds == 0) hbehind hgrows h
    rw [searchRounds] at hok
    revert hround
    split at hok
    · rename_i hresult
      rw [hresult]
      cases hok
      exact fun hkeeps => hkeeps.1
    · cases hok
    · rename_i hresult
      rw [hresult]
      exact fun hkeeps => ih hkeeps.1 hkeeps.2 hok

/-- **A search writes bits of its field only**, in either pass. -/
theorem grows_clsOffsetTblSearch {fieldMap : UInt32} {startBit fieldLength : Nat}
    (haligned : Aligned startBit) (hbehind : startBit + fieldLength ≤ 600)
    (hok : clsOffsetTblSearch fieldMap
      { s with startBit := startBit, fieldLength := fieldLength } = .ok s') :
    Grows startBit (startBit + fieldLength) s s' := by
  rw [clsOffsetTblSearch] at hok
  split at hok
  · cases hok
  · have hpiece : Piece startBit (startBit + fieldLength)
        { s with startBit := startBit, fieldLength := fieldLength } :=
      ⟨haligned, Nat.le_refl _, rfl⟩
    have hgrows : Grows startBit (startBit + fieldLength) s
        { s with startBit := startBit, fieldLength := fieldLength } := .of_writes_eq rfl
    exact keeps_searchRounds hbehind hgrows hpiece hok

end Growth

end Opconn.Classify.OffsetSet
