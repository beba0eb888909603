import Opconn.Classify.OnePass

/-!
# Fields in the windows

What the search for a field does in the first pass.  Where the windows have bytes for the field,
each byte ends up in a window whose offset shows it, and the search goes on behind the field.
Where they have not, the search returns OK all the same, with bytes written behind the key or with
nothing written at all.
-/

namespace Opconn.Classify.OffsetSet

section Fields

variable {c : Cursor} {s : Search}

/-! ### The windows of a field -/

theorem headTail_eq : ∀ q < 6, ∀ v < 11, clsOffsetHeadTailCal (q + 1) v =
    ((4 * q + gClassSession v) * 8, (4 * q + gClassSession v) * 8 + 31) := by
  decide

/-- The rest of a field begins with the next window at the same offset value. -/
theorem valueFor_next : ∀ q < 5, ∀ v < 11,
    Cursor.valueFor ⟨q + 2, none⟩ ((4 * q + gClassSession v) * 8 + 31 + 1) = some v := by
  decide

/-- What is left of a field is placed from the window of a search on. -/
structure Placed (v : Nat) (s s' : Search) : Prop where
  stands : Stands (.behind v s.lastBit) s'
  taken : ∀ i, s.offsetSeq - 1 ≤ i → i ≤ slotOf v s.lastBit / 4 →
    s'.offsetUsedFlag i = true ∧ s'.offsetValue i = v
  kept : ∀ i, i < s.offsetSeq - 1 →
    s'.offsetUsedFlag i = s.offsetUsedFlag i ∧ s'.offsetValue i = s.offsetValue i
  writes : ∃ ws, s'.writes = s.writes ++ ws ∧ ∀ w ∈ ws, w.source = w.slot + gClassSession v ∧
    s.offsetSeq - 1 ≤ w.slot / 4 ∧ w.slot ≤ slotOf v s.lastBit
  marked : ∀ x, s.startBit ≤ x → x ≤ s.lastBit → ∃ w ∈ s'.writes, Marks w x

/-- There are bits left of a field. -/
structure Left (s : Search) : Prop where
  aligned : Aligned s.startBit
  pos : 0 < s.fieldLength
  end_le : s.startBit + s.fieldLength ≤ 600

/-- The bits that a window shows. -/
theorem shows_iff {q v bit : Nat} (hq : q < 6) (hv : v < 11) :
    shows (q + 1) v bit = true ↔
      (4 * q + gClassSession v) * 8 ≤ bit ∧ bit ≤ (4 * q + gClassSession v) * 8 + 31 := by
  rw [shows, headTail_eq q hq v hv, Bool.and_eq_true, decide_eq_true_eq, decide_eq_true_eq]

theorem shows_of_valueFor {v bit : Nat} (hbit : bit ≤ 600) (h : c.valueFor bit = some v) :
    shows c.offsetSeq v bit = true := by
  rw [Cursor.valueFor] at h
  cases hc : c.offsetValue with
  | some off =>
    simp only [hc] at h
    split at h
    · rename_i hshows
      cases h
      exact hshows
    · cases h
  | none =>
    simp only [hc] at h
    cases hbegins : offsetValues.find? (beginsAt c.offsetSeq bit) with
    | some v' =>
      rw [hbegins, Option.some_or] at h
      cases h
      have hhead := List.find?_some hbegins
      rw [beginsAt, beq_iff_eq] at hhead
      have hwindow := headTail_cases c.offsetSeq v
      rw [shows, Bool.and_eq_true, decide_eq_true_eq, decide_eq_true_eq]
      omega
    | none =>
      rw [hbegins, Option.none_or] at h
      have hshown := List.find?_some h
      exact hshown

/-- The bytes that are written when the first window is taken. -/
theorem writes_take (hleft : Left s) {q v : Nat} (hseq : s.offsetSeq = q + 1) (hq : q < 6)
    (hv : v < 11) (hstart : (4 * q + gClassSession v) * 8 ≤ s.startBit) :
    ∃ ws, (s.take v).writes = s.writes ++ ws ∧
      (∀ w ∈ ws, w.source = w.slot + gClassSession v ∧ q ≤ w.slot / 4 ∧
        w.slot ≤ slotOf v s.lastBit) ∧
      ∀ x, s.startBit ≤ x → x ≤ s.lastBit → ∃ w ∈ ws, Marks w x := by
  have hend := hleft.end_le
  have hpos := hleft.pos
  have hoffsets : ∀ q < 6, gClassOffset (q + 1) = 4 * q := by decide
  have hhead := headTail_eq q hq v hv
  have hbyte : (s.startBit / 8 + gClassOffset s.offsetSeq + 256 -
      (clsOffsetHeadTailCal s.offsetSeq v).1 / 8) % 256 + gClassSession v = s.startBit / 8 := by
    rw [hseq, hhead, hoffsets q hq]
    simp only
    omega
  refine ⟨clsMaskRuleSet s.offsetSeq v s.startBit s.fieldLength, rfl, ?_, ?_⟩
  · intro w hw
    rcases source_maskRuleRounds hbyte hleft.aligned (by omega) hw with ⟨hsource, hslot, hlast⟩
    rw [slotOf, Search.lastBit]
    refine ⟨hsource, ?_, ?_⟩
    · omega
    · omega
  · intro x hx hlast
    rw [Search.lastBit] at hlast
    exact exists_marks_maskRuleRounds _ hleft.aligned (by omega) (Nat.le_refl _) hx (by omega)

/-- The next window, when one is taken. -/
theorem stands_next (h : Stands c s) (v : Nat) (hseq : s.offsetSeq ≠ 6) {t : Search}
    (hloop : t.searchLoop = s.searchLoop) (hwindow : t.offsetSeq = s.offsetSeq)
    (hflags : t.offsetUsedFlag = (s.take v).offsetUsedFlag) :
    Stands ⟨c.offsetSeq + 1, none⟩ t.advance := by
  have hpos := h.pos
  have hcur := h.offsetSeq
  have hflag : ∀ i, c.offsetSeq ≤ i → t.offsetUsedFlag i = false := by
    intro i hi
    rw [hflags, Search.take]
    simp only
    rw [Function.update_of_ne (by omega)]
    exact h.fresh i hi
  rw [Search.advance, if_neg (hwindow ▸ hseq)]
  refine ⟨hloop.trans h.searchLoop, ?_, Nat.le_add_left _ _, ?_, ?_, ?_⟩
  · exact congrArg (· + 1) (hwindow.trans hcur)
  · exact hflag (t.offsetSeq + 1 - 1) (by omega)
  · intro v' hv'
    cases hv'
  · exact fun i hi => hflag i (Nat.le_of_succ_le hi)

/-- The field ends in the window that is taken. -/
theorem placed_of_take (hleft : Left s) {q v : Nat} (hseq : s.offsetSeq = q + 1)
    (hq : q < 6) (hv : v < 11) (hstart : (4 * q + gClassSession v) * 8 ≤ s.startBit)
    (hslot : slotOf v s.lastBit / 4 = q) {t : Search} (hstands : Stands (.behind v s.lastBit) t)
    (hflags : t.offsetUsedFlag = (s.take v).offsetUsedFlag)
    (hvalues : t.offsetValue = (s.take v).offsetValue) (hwrites : t.writes = (s.take v).writes) :
    Placed v s t := by
  rcases writes_take hleft hseq hq hv hstart with ⟨ws, hws, hsource, hmarked⟩
  have hindex : s.offsetSeq - 1 = q := by omega
  refine ⟨hstands, ?_, ?_, ⟨ws, hwrites.trans hws, hindex.symm ▸ hsource⟩, ?_⟩
  · intro i hlow hhigh
    have hi : i = s.offsetSeq - 1 := by omega
    rw [hflags, hvalues, hi]
    simp [Search.take]
  · intro i hi
    rw [hflags, hvalues]
    exact ⟨Function.update_of_ne (Nat.ne_of_lt hi) _ _, Function.update_of_ne (Nat.ne_of_lt hi) _ _⟩
  · intro x hx hxlast
    rcases hmarked x hx hxlast with ⟨w, hw, hmark⟩
    exact ⟨w, hwrites ▸ hws ▸ List.mem_append_right _ hw, hmark⟩

/-- The search stands at the window that it took. -/
theorem stands_take (h : Stands c s) {q v : Nat} (hseq : s.offsetSeq = q + 1) (hv : v < 11) :
    Stands ⟨q + 1, some v⟩ (s.take v) := by
  have hcur : c.offsetSeq = q + 1 := h.offsetSeq ▸ hseq
  refine ⟨h.searchLoop, hseq, Nat.le_add_left _ _, ?_, ?_, ?_⟩
  · simp [Search.used, Search.take]
  · rintro v' hv'
    cases hv'
    refine ⟨?_, List.mem_range.mpr (by omega)⟩
    simp [Search.value, Search.take]
  · intro i hi
    simp only at hi
    simp only [Search.take]
    rw [Function.update_of_ne (by omega)]
    exact h.fresh i (hcur ▸ hi)

/-- A round at a window that takes the field: it is placed, or there is a rest. -/
theorem searchRounds_of_value (fieldMap : UInt32) {rounds v : Nat} (h : Stands c s)
    (hleft : Left s) (hrounds : rounds + c.offsetSeq = 6) (hv : v < 11)
    (hvalue : c.valueFor s.startBit = some v)
    (hbenign : ¬(slotOf v s.lastBit = 23 ∧ s.lastBit % 8 = 7)) {tail : Nat}
    (htail : tail = (clsOffsetHeadTailCal s.offsetSeq v).2) :
    (∃ s', searchRounds fieldMap (rounds + 1) s = .ok s' ∧ Placed v s s') ∨
      tail < s.lastBit ∧ searchRounds fieldMap (rounds + 1) s =
        searchRounds fieldMap rounds ((s.take v).cut tail).advance := by
  have hpos := h.pos
  have hend := hleft.end_le
  have hlen := hleft.pos
  obtain ⟨q, hcur⟩ : ∃ q, c.offsetSeq = q + 1 := ⟨c.offsetSeq - 1, by omega⟩
  have hq : q < 6 := by omega
  have hseq : s.offsetSeq = q + 1 := h.offsetSeq.trans hcur
  have hshows := shows_of_valueFor (by omega) hvalue
  rw [hcur, shows_iff hq hv] at hshows
  have hplain : Plain s.offsetSeq s.startBit := ⟨by omega, by omega⟩
  rcases searchRound_of_value fieldMap (rounds == 0) h hplain hvalue with ⟨found, hround⟩
  rw [← htail] at hround
  rw [hseq, headTail_eq q hq v hv] at htail
  have hlast : s.lastBit = s.startBit + s.fieldLength - 1 := rfl
  have hbyte : slotOf v s.lastBit = s.lastBit / 8 - gClassSession v := rfl
  rw [searchRounds, hround, settled]
  have hlastBit : (s.take v).lastBit = s.lastBit := rfl
  rw [hlastBit]
  by_cases hrest : tail < s.lastBit
  · exact .inr ⟨hrest, by rw [if_pos hrest]⟩
  · simp only [if_neg hrest]
    refine .inl ?_
    by_cases hfull : s.lastBit = tail
    · have hwindow : s.offsetSeq ≠ 6 := by omega
      have hnext : ¬(s.take v).offsetSeq = 6 := hwindow
      simp only [if_pos hfull, if_neg hnext]
      refine ⟨_, rfl, placed_of_take hleft hseq hq hv hshows.1 (by omega) ?_ ?_ ?_ ?_⟩
      · have hbehind : Cursor.behind v s.lastBit = ⟨c.offsetSeq + 1, none⟩ := by
          have hat : slotOf v s.lastBit / 4 + 2 = c.offsetSeq + 1 := by omega
          rw [Cursor.behind, if_pos (by omega), hat]
        exact hbehind ▸ stands_next h v hwindow rfl rfl rfl
      · rw [Search.advance, if_neg hnext]
      · rw [Search.advance, if_neg hnext]
      · exact (s.take v).advance_writes
    · simp only [if_neg hfull]
      refine ⟨_, rfl, placed_of_take hleft hseq hq hv hshows.1 (by omega) ?_ rfl rfl rfl⟩
      have hbehind : Cursor.behind v s.lastBit = ⟨q + 1, some v⟩ := by
        have hat : slotOf v s.lastBit / 4 = q := by omega
        rw [Cursor.behind, if_neg (by omega), hat]
      exact hbehind ▸ stands_take h hseq hv

/-- What is placed of the rest places the field. -/
theorem Placed.of_rest {q v tail : Nat} {s' : Search} (hleft : Left s)
    (hseq : s.offsetSeq = q + 1) (hq : q < 5) (hv : v < 11)
    (hstart : (4 * q + gClassSession v) * 8 ≤ s.startBit)
    (htail : tail = (4 * q + gClassSession v) * 8 + 31) (hrest : tail < s.lastBit)
    (hplaced : Placed v ((s.take v).cut tail).advance s') : Placed v s s' := by
  rcases writes_take hleft hseq (by omega) hv hstart with ⟨ws, hws, hsource, hmarked⟩
  have hnext : ((s.take v).cut tail).advance =
      { (s.take v).cut tail with offsetSeq := s.offsetSeq + 1 } := by
    rw [Search.advance, if_neg]
    · rfl
    · show ¬s.offsetSeq = 6
      omega
  have hlast : ((s.take v).cut tail).advance.lastBit = s.lastBit := by
    rw [hnext]
    simp only [Search.lastBit, Search.cut, Search.take] at hrest ⊢
    omega
  have hwindow : ((s.take v).cut tail).advance.offsetSeq = q + 2 := by
    rw [hnext, hseq]
  have hlater : ((s.take v).cut tail).advance.writes = s.writes ++ ws := by
    rw [Search.advance_writes]
    exact hws
  rcases hplaced.writes with ⟨ws', hws', hsource'⟩
  rw [hlater] at hws'
  rw [hlast, hwindow] at hsource'
  have hstands := hplaced.stands
  have htaken := hplaced.taken
  have hkept := hplaced.kept
  rw [hlast] at hstands htaken
  rw [hwindow] at htaken hkept
  have hfirst : ∀ i, i < q + 1 → s'.offsetUsedFlag i = (s.take v).offsetUsedFlag i ∧
      s'.offsetValue i = (s.take v).offsetValue i := by
    intro i hi
    have hkeep := hkept i hi
    rw [hnext] at hkeep
    exact hkeep
  refine ⟨hstands, ?_, ?_, ⟨ws ++ ws', by rw [hws', List.append_assoc], ?_⟩, ?_⟩
  · intro i hlow hhigh
    by_cases hi : i = q
    · subst hi
      have hkeep := hfirst i (Nat.lt_succ_self i)
      simp only [Search.take, hseq, Nat.add_sub_cancel, Function.update_self] at hkeep
      exact hkeep
    · exact htaken i (by omega) hhigh
  · intro i hi
    have hkeep := hfirst i (by omega)
    simp only [Search.take, Function.update_of_ne (Nat.ne_of_lt hi)] at hkeep
    exact hkeep
  · intro w hw
    rcases List.mem_append.mp hw with hw | hw
    · rcases hsource w hw with ⟨hbyte, hlow, hhigh⟩
      exact ⟨hbyte, by omega, hhigh⟩
    · rcases hsource' w hw with ⟨hbyte, hlow, hhigh⟩
      exact ⟨hbyte, by omega, hhigh⟩
  · intro x hx hxlast
    rcases hmarked x hx hxlast with ⟨w, hw, hmark⟩
    refine ⟨w, ?_, hmark⟩
    rw [hws']
    exact List.mem_append_left _ (List.mem_append_right _ hw)

/-- The rest of a field, at the next window. -/
structure Rest (v : Nat) (c : Cursor) (s t : Search) : Prop where
  stands : Stands ⟨c.offsetSeq + 1, none⟩ t
  left : Left t
  lastBit : t.lastBit = s.lastBit
  value : Cursor.valueFor ⟨c.offsetSeq + 1, none⟩ t.startBit = some v
  placed : ∀ s', Placed v t s' → Placed v s s'

theorem searchRounds_rest (fieldMap : UInt32) {rounds v : Nat} (h : Stands c s)
    (hleft : Left s) (hrounds : rounds + c.offsetSeq = 6) (hv : v < 11)
    (hvalue : c.valueFor s.startBit = some v) (hslot : slotOf v s.lastBit < 24)
    (hbenign : ¬(slotOf v s.lastBit = 23 ∧ s.lastBit % 8 = 7)) :
    (∃ s', searchRounds fieldMap (rounds + 1) s = .ok s' ∧ Placed v s s') ∨
      c.offsetSeq < 6 ∧ ∃ t, searchRounds fieldMap (rounds + 1) s = searchRounds fieldMap rounds t ∧
        Rest v c s t := by
  have hpos := h.pos
  obtain ⟨q, hcur⟩ : ∃ q, c.offsetSeq = q + 1 := ⟨c.offsetSeq - 1, by omega⟩
  have hseq : s.offsetSeq = q + 1 := h.offsetSeq.trans hcur
  have hend := hleft.end_le
  have hlen := hleft.pos
  have hshows := shows_of_valueFor (by omega) hvalue
  rw [hcur, shows_iff (by omega) hv] at hshows
  rcases searchRounds_of_value fieldMap h hleft hrounds hv hvalue hbenign rfl with
    hplaced | ⟨hrest, hrounds'⟩
  · exact .inl hplaced
  · rw [hseq, headTail_eq q (by omega) v hv] at hrest hrounds'
    simp only at hrest hrounds'
    have hq : q < 5 := by
      rw [slotOf] at hslot
      omega
    have hstart : ((s.take v).cut ((4 * q + gClassSession v) * 8 + 31)).advance.startBit =
        (4 * q + gClassSession v) * 8 + 31 + 1 := Search.advance_startBit _
    have hlength : ((s.take v).cut ((4 * q + gClassSession v) * 8 + 31)).advance.fieldLength =
        s.fieldLength + s.startBit - ((4 * q + gClassSession v) * 8 + 31 + 1) :=
      Search.advance_fieldLength _
    rw [Search.lastBit] at hrest
    refine .inr ⟨by omega, _, hrounds', ?_, ⟨?_, ?_, ?_⟩, ?_, ?_, ?_⟩
    · exact stands_next h v (by omega) rfl rfl rfl
    · rw [hstart]
      exact .inl (by omega)
    · rw [hlength]
      omega
    · rw [hstart, hlength]
      omega
    · simp only [Search.lastBit, hstart, hlength]
      omega
    · rw [hstart, hcur]
      exact valueFor_next q hq v hv
    · intro s' hplaced
      exact hplaced.of_rest hleft hseq hq hv hshows.1 rfl hrest

/-- **A field that the windows have bytes for is placed**, from the first window on that takes
it. -/
theorem searchRounds_placed (fieldMap : UInt32) {rounds v : Nat} (h : Stands c s)
    (hleft : Left s) (hrounds : rounds + c.offsetSeq = 6) (hv : v < 11)
    (hvalue : c.valueFor s.startBit = some v) (hslot : slotOf v s.lastBit < 24)
    (hbenign : ¬(slotOf v s.lastBit = 23 ∧ s.lastBit % 8 = 7)) :
    ∃ s', searchRounds fieldMap (rounds + 1) s = .ok s' ∧ Placed v s s' := by
  induction rounds generalizing c s with
  | zero =>
    rcases searchRounds_rest fieldMap h hleft hrounds hv hvalue hslot hbenign with
      hplaced | ⟨hwindow, -⟩
    · exact hplaced
    · omega
  | succ rounds ih =>
    rcases searchRounds_rest fieldMap h hleft hrounds hv hvalue hslot hbenign with
      hplaced | ⟨-, t, hrest, ht⟩
    · exact hplaced
    · have hlast := ht.lastBit
      rcases ih ht.stands ht.left (by simp only; omega) ht.value (hlast ▸ hslot)
        (hlast ▸ hbenign) with ⟨s', hok, hplaced⟩
      exact ⟨s', hrest.trans hok, ht.placed s' hplaced⟩

/-! ### The window that takes a field -/

/-- The next window, where one is passed over. -/
theorem Stands.next (h : Stands c s) :
    Stands ⟨c.offsetSeq + 1, none⟩ { s with offsetSeq := c.offsetSeq + 1 } := by
  refine ⟨h.searchLoop, rfl, Nat.le_add_left _ _, ?_, ?_, ?_⟩
  · exact h.fresh (c.offsetSeq + 1 - 1) (Nat.le_refl _)
  · intro v hv
    cases hv
  · exact fun i hi => h.fresh i (Nat.le_of_succ_le hi)

theorem searchRounds_of_none (fieldMap : UInt32) {rounds : Nat} (h : Stands c s)
    (hrounds : rounds + c.offsetSeq = 6) (hplain : Plain s.offsetSeq s.startBit)
    (hvalue : c.valueFor s.startBit = none) :
    searchRounds fieldMap (rounds + 1) s = searchRounds fieldMap rounds s.advance := by
  have hcur := h.offsetSeq
  have hlast : (rounds == 0) = true ↔ s.offsetSeq = 6 := by
    rw [beq_iff_eq]
    omega
  rcases searchRound_of_none fieldMap h hplain hlast hvalue with ⟨status, hround⟩
  rw [searchRounds, hround]

/-- The search goes from window to window until one takes the field. -/
theorem searchRounds_seek (fieldMap : UInt32) {rounds : Nat} (h : Stands c s)
    (hrounds : rounds + c.offsetSeq = 7) (hlow : c.valueFor s.startBit = none → 16 ≤ s.startBit)
    (hhigh : s.startBit ≤ 600) {v : Nat} (hseek : c.seek rounds s.startBit = some v) :
    ∃ rounds' c', rounds' + c'.offsetSeq = 6 ∧ c'.valueFor s.startBit = some v ∧
      (c' = c ∨ c.offsetSeq < c'.offsetSeq ∧ c'.offsetValue = none) ∧
      Stands c' { s with offsetSeq := c'.offsetSeq } ∧
      searchRounds fieldMap rounds s =
        searchRounds fieldMap (rounds' + 1) { s with offsetSeq := c'.offsetSeq } := by
  induction rounds generalizing c s with
  | zero => cases hseek
  | succ rounds ih =>
    have hcur := h.offsetSeq
    rw [Cursor.seek] at hseek
    cases hvalue : c.valueFor s.startBit with
    | some v' =>
      rw [hvalue, Option.some_or] at hseek
      cases hseek
      have hsame : { s with offsetSeq := c.offsetSeq } = s := by
        rw [← hcur]
      refine ⟨rounds, c, by omega, hvalue, .inl rfl, hsame.symm ▸ h, ?_⟩
      rw [hsame]
    | none =>
      rw [hvalue, Option.none_or] at hseek
      have hwindow : c.offsetSeq ≠ 6 := by
        intro hsix
        have hzero : rounds = 0 := by omega
        rw [hzero] at hseek
        cases hseek
      have hnext : s.advance = { s with offsetSeq := c.offsetSeq + 1 } := by
        rw [Search.advance, if_neg (hcur ▸ hwindow), hcur]
      have hrest := hlow hvalue
      rw [searchRounds_of_none fieldMap h (by omega) ⟨hhigh, .inr hrest⟩ hvalue, hnext]
      rcases ih h.next (by simp only; omega) (fun _ => hrest) hhigh hseek with
        ⟨rounds', c', hleft, hvalue', hbehind, hstands, hsearch⟩
      refine ⟨rounds', c', hleft, hvalue', .inr ?_, hstands, hsearch⟩
      rcases hbehind with rfl | ⟨hbehind, hnone⟩
      · exact ⟨Nat.lt_succ_self _, rfl⟩
      · exact ⟨Nat.lt_of_succ_lt hbehind, hnone⟩

/-- Where no window takes the field, the search returns OK with nothing written. -/
theorem searchRounds_unplaced (fieldMap : UInt32) {rounds : Nat} (h : Stands c s)
    (hrounds : rounds + c.offsetSeq = 7) (hlow : c.valueFor s.startBit = none → 16 ≤ s.startBit)
    (hhigh : s.startBit ≤ 600) (hseek : c.seek rounds s.startBit = none) :
    ∃ s', searchRounds fieldMap rounds s = .ok s' ∧ s'.writes = s.writes := by
  induction rounds generalizing c s with
  | zero => exact ⟨s, rfl, rfl⟩
  | succ rounds ih =>
    have hcur := h.offsetSeq
    rw [Cursor.seek, Option.or_eq_none_iff] at hseek
    have hrest := hlow hseek.1
    rw [searchRounds_of_none fieldMap h (by omega) ⟨hhigh, .inr hrest⟩ hseek.1]
    by_cases hwindow : c.offsetSeq = 6
    · have hzero : rounds = 0 := by omega
      rw [hzero]
      exact ⟨_, rfl, s.advance_writes⟩
    · have hnext : s.advance = { s with offsetSeq := c.offsetSeq + 1 } := by
        rw [Search.advance, if_neg (hcur ▸ hwindow), hcur]
      rw [hnext]
      exact ih h.next (by simp only; omega) (fun _ => hrest) hhigh hseek.2

/-! ### What a search does in the first pass -/

/-- Where the windows have not the bytes, something is written behind the key. -/
theorem searchRounds_beyond {fieldMap : UInt32} {rounds v : Nat} (h : Stands c s)
    (hleft : Left s) (hrounds : rounds + c.offsetSeq = 6) (hv : v < 11)
    (hvalue : c.valueFor s.startBit = some v) (hslot : 24 ≤ slotOf v s.lastBit) {s' : Search}
    (hok : searchRounds fieldMap (rounds + 1) s = .ok s') : ∃ w ∈ s'.writes, 24 ≤ w.slot := by
  have hpos := h.pos
  obtain ⟨q, hcur⟩ : ∃ q, c.offsetSeq = q + 1 := ⟨c.offsetSeq - 1, by omega⟩
  have hq : q < 6 := by omega
  have hseq : s.offsetSeq = q + 1 := h.offsetSeq.trans hcur
  have hend := hleft.end_le
  have hlen := hleft.pos
  have hshows := shows_of_valueFor (by omega) hvalue
  rw [hcur, shows_iff hq hv] at hshows
  have hplain : Plain s.offsetSeq s.startBit := ⟨by omega, by omega⟩
  rcases writes_take hleft hseq hq hv hshows.1 with ⟨ws, hws, hsource, hmarked⟩
  -- the last byte of the field is written when the first window is taken
  have hlast : s.startBit ≤ s.lastBit := by
    rw [Search.lastBit]
    omega
  rcases hmarked s.lastBit hlast (Nat.le_refl _) with ⟨w, hw, hmark⟩
  have hbeyond : 24 ≤ w.slot := by
    have hbyte := (hsource w hw).1
    rw [hmark.1] at hbyte
    rw [slotOf] at hslot
    omega
  have hpiece : Piece s.startBit (s.startBit + s.fieldLength) s :=
    ⟨hleft.aligned, Nat.le_refl _, rfl⟩
  rcases searchRound_of_value fieldMap (rounds == 0) h hplain hvalue with ⟨found, hround⟩
  have hkeeps : (settled found (clsOffsetHeadTailCal s.offsetSeq v).2 (s.take v)).Keeps
      s.startBit (s.startBit + s.fieldLength) (s.take v) := by
    have htail : (s.take v).startBit ≤ (clsOffsetHeadTailCal s.offsetSeq v).2 := by
      rw [hseq, headTail_eq q hq v hv]
      exact hshows.2
    have hsettle : KeepsOr s.startBit (s.startBit + s.fieldLength) (s.take v)
        (settle fieldMap .oplError found (clsOffsetHeadTailCal s.offsetSeq v).2 (s.take v)) :=
      keepsOr_settle (.refl _ _ (s.take v)) (hpiece.take v) htail (tail_byte _ _)
    have hloop : (s.take v).searchLoop = .loop1 := h.searchLoop
    rw [settle_loop1 fieldMap .oplError found _ hloop] at hsettle
    exact hsettle
  have hgrows : Grows s.startBit (s.startBit + s.fieldLength) (s.take v) s' := by
    rw [searchRounds, hround] at hok
    revert hkeeps
    split at hok
    · rename_i hresult
      rw [hresult]
      cases hok
      exact fun hkeeps => hkeeps.1
    · cases hok
    · rename_i hresult
      rw [hresult]
      exact fun hkeeps => keeps_searchRounds hleft.end_le hkeeps.1 hkeeps.2 hok
  rcases hgrows with ⟨ws', hws', -⟩
  refine ⟨w, ?_, hbeyond⟩
  rw [hws', hws]
  exact List.mem_append_left _ (List.mem_append_right _ hw)

/-- Each byte that is written is in a window that shows it. -/
def InWindows (s : Search) : Prop :=
  ∀ w ∈ s.writes, w.slot < 24 ∧ s.offsetUsedFlag (w.slot / 4) = true ∧
    w.source = w.slot + gClassSession (s.offsetValue (w.slot / 4))

theorem Placed.inWindows {v : Nat} {s' : Search} (hplaced : Placed v s s') (h : Stands c s)
    (hvalue : c.valueFor s.startBit = some v) (hreach : s.offsetSeq - 1 ≤ slotOf v s.lastBit / 4)
    (hslot : slotOf v s.lastBit < 24) (hin : InWindows s) : InWindows s' := by
  rcases hplaced.writes with ⟨ws, hws, hsource⟩
  have hcur := h.offsetSeq
  intro w hw
  rw [hws] at hw
  rcases List.mem_append.mp hw with hw | hw
  · rcases hin w hw with ⟨hkey, hused, hshown⟩
    rcases Nat.lt_trichotomy (w.slot / 4) (s.offsetSeq - 1) with hbefore | hat | hbehind
    · rcases hplaced.kept _ hbefore with ⟨hflag, hval⟩
      exact ⟨hkey, hflag.trans hused, hval.symm ▸ hshown⟩
    · -- the window had an offset, and keeps it
      rcases hplaced.taken (w.slot / 4) (Nat.le_of_eq hat.symm) (hat ▸ hreach) with ⟨hflag, hval⟩
      have hsame : s.offsetValue (w.slot / 4) = v := by
        rw [hat] at hused ⊢
        cases hc : c.offsetValue with
        | none =>
          have hfree := h.used
          rw [Search.used, hused, hc] at hfree
          cases hfree
        | some off =>
          rw [Cursor.valueFor, hc] at hvalue
          simp only at hvalue
          split at hvalue
          · cases hvalue
            exact (h.value _ hc).1
          · cases hvalue
      exact ⟨hkey, hflag, hval.symm ▸ hsame ▸ hshown⟩
    · have hfree := h.fresh (w.slot / 4) (by omega)
      rw [hused] at hfree
      cases hfree
  · rcases hsource w hw with ⟨hshown, hlow, hhigh⟩
    rcases hplaced.taken (w.slot / 4) hlow (by omega) with ⟨hflag, hval⟩
    exact ⟨by omega, hflag, hval.symm ▸ hshown⟩

/-- A field that a cursor can come to: no window over the end of the header is taken for it, and
it does not end with the last bit of the sixth. -/
def Cursor.Fair (c : Cursor) (field : Nat × Nat) : Prop :=
  c.offsetSeq ≤ 6 ∧ (c.valueFor field.1 = none → 16 ≤ field.1) ∧
    ∀ v ∈ c.seek (7 - c.offsetSeq) field.1, v < 11 ∧
      ¬(slotOf v (field.1 + field.2 - 1) = 23 ∧ (field.1 + field.2 - 1) % 8 = 7)

instance (c : Cursor) (field : Nat × Nat) : Decidable (c.Fair field) :=
  inferInstanceAs (Decidable (_ ∧ _ ∧ _))

/-- A field of a table. -/
structure Sound (field : Nat × Nat) : Prop where
  aligned : Aligned field.1
  pos : 0 < field.2
  end_le : field.1 + field.2 ≤ 600

/-- The search for a field begins. -/
def Search.seekField (s : Search) (field : Nat × Nat) : Search :=
  { s with startBit := field.1, fieldLength := field.2 }

theorem clsOffsetTblSearch_eq (fieldMap : UInt32) {field : Nat × Nat} (h : Stands c s)
    (hsound : Sound field) : clsOffsetTblSearch fieldMap (s.seekField field) =
      searchRounds fieldMap (7 - c.offsetSeq) (s.seekField field) := by
  have hend := hsound.end_le
  have hlong : ¬packetHeaderLen * 8 < (s.seekField field).startBit +
      (s.seekField field).fieldLength := by
    show ¬640 < field.1 + field.2
    omega
  have hseq : (s.seekField field).offsetSeq = c.offsetSeq := h.offsetSeq
  rw [clsOffsetTblSearch, if_neg hlong, hseq]

/-- The first window that takes a field. -/
theorem clsOffsetTblSearch_seek (fieldMap : UInt32) {field : Nat × Nat} (h : Stands c s)
    (hfair : c.Fair field) (hsound : Sound field) {v : Nat}
    (hseek : c.seek (7 - c.offsetSeq) field.1 = some v) :
    ∃ rounds c' t, rounds + c'.offsetSeq = 6 ∧ c'.valueFor field.1 = some v ∧ Stands c' t ∧
      Left t ∧ t.startBit = field.1 ∧ t.lastBit = field.1 + field.2 - 1 ∧
      t.writes = s.writes ∧ (InWindows s → InWindows t) ∧
      clsOffsetTblSearch fieldMap (s.seekField field) = searchRounds fieldMap (rounds + 1) t := by
  have hstands : Stands c (s.seekField field) :=
    ⟨h.searchLoop, h.offsetSeq, h.pos, h.used, h.value, h.fresh⟩
  have hend := hsound.end_le
  have hwindows := hfair.1
  have hhigh : (s.seekField field).startBit ≤ 600 := by
    show field.1 ≤ 600
    omega
  rcases searchRounds_seek fieldMap hstands (by omega) hfair.2.1 hhigh hseek with
    ⟨rounds, c', hrounds, hvalue, -, hstands', hsearch⟩
  exact ⟨rounds, c', _, hrounds, hvalue, hstands', ⟨hsound.aligned, hsound.pos, hsound.end_le⟩,
    rfl, rfl, rfl, id, (clsOffsetTblSearch_eq fieldMap h hsound).trans hsearch⟩

/-- **A field that a cursor places is placed by the search**, which goes on where the cursor
does. -/
theorem clsOffsetTblSearch_place (fieldMap : UInt32) {field : Nat × Nat} (h : Stands c s)
    (hfair : c.Fair field) (hsound : Sound field) {c' : Cursor} (hplace : c.place field = some c')
    (hin : InWindows s) :
    ∃ s', clsOffsetTblSearch fieldMap (s.seekField field) = .ok s' ∧ Stands c' s' ∧
      InWindows s' ∧
      ∀ x, field.1 ≤ x → x < field.1 + field.2 → ∃ w ∈ s'.writes, Marks w x := by
  rw [Cursor.place] at hplace
  cases hseek : c.seek (7 - c.offsetSeq) field.1 with
  | none =>
    rw [hseek] at hplace
    cases hplace
  | some v =>
    rw [hseek] at hplace
    simp only at hplace
    split at hplace
    · rename_i hslot
      cases hplace
      rcases hfair.2.2 v hseek with ⟨hv, hbenign⟩
      rcases clsOffsetTblSearch_seek fieldMap h hfair hsound hseek with
        ⟨rounds, c'', t, hrounds, hvalue, hstands, hleft, hstart, hlast, -, hin', hsearch⟩
      rw [← hstart] at hvalue
      rw [← hlast] at hbenign hslot
      rcases searchRounds_placed fieldMap hstands hleft hrounds hv hvalue hslot hbenign with
        ⟨s', hok, hplaced⟩
      have hstands' := hplaced.stands
      have hmarked := hplaced.marked
      rw [hlast] at hstands' hmarked
      rw [hstart] at hmarked
      refine ⟨s', hsearch.trans hok, hstands', ?_, ?_⟩
      · have hpos := hstands.pos
        have hcur := hstands.offsetSeq
        have hend := hleft.end_le
        have hlen := hleft.pos
        obtain ⟨q, hq⟩ : ∃ q, c''.offsetSeq = q + 1 := ⟨c''.offsetSeq - 1, by omega⟩
        have hshows := shows_of_valueFor (by omega) hvalue
        rw [hq, shows_iff (by omega) hv] at hshows
        refine hplaced.inWindows hstands hvalue ?_ hslot (hin' hin)
        rw [slotOf, Search.lastBit]
        omega
      · intro x hx hxend
        exact hmarked x hx (by omega)
    · cases hplace

/-- Where a cursor does not place a field, the search writes behind the key, or nothing. -/
theorem clsOffsetTblSearch_unplaced {fieldMap : UInt32} {field : Nat × Nat} (h : Stands c s)
    (hfair : c.Fair field) (hsound : Sound field) (hplace : c.place field = none) {s' : Search}
    (hok : clsOffsetTblSearch fieldMap (s.seekField field) = .ok s') :
    (∃ w ∈ s'.writes, 24 ≤ w.slot) ∨ s'.writes = s.writes := by
  rw [Cursor.place] at hplace
  cases hseek : c.seek (7 - c.offsetSeq) field.1 with
  | none =>
    have hstands : Stands c (s.seekField field) :=
      ⟨h.searchLoop, h.offsetSeq, h.pos, h.used, h.value, h.fresh⟩
    have hend := hsound.end_le
    have hwindows := hfair.1
    have hhigh : (s.seekField field).startBit ≤ 600 := by
      show field.1 ≤ 600
      omega
    rcases searchRounds_unplaced fieldMap hstands (by omega) hfair.2.1 hhigh hseek with
      ⟨t, ht, hwrites⟩
    rw [clsOffsetTblSearch_eq fieldMap h hsound, ht] at hok
    cases hok
    exact .inr hwrites
  | some v =>
    rw [hseek] at hplace
    simp only at hplace
    split at hplace
    · cases hplace
    · rename_i hslot
      rcases hfair.2.2 v hseek with ⟨hv, -⟩
      rcases clsOffsetTblSearch_seek fieldMap h hfair hsound hseek with
        ⟨rounds, c', t, hrounds, hvalue, hstands, hleft, hstart, hlast, -, -, hsearch⟩
      rw [← hstart] at hvalue
      rw [← hlast] at hslot
      rw [hsearch] at hok
      exact .inl (searchRounds_beyond hstands hleft hrounds hv hvalue (Nat.le_of_not_lt hslot) hok)

end Fields

end Opconn.Classify.OffsetSet
