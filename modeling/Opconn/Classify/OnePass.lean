import Opconn.Classify.OffsetWrites

/-!
# Windows in the first pass

In the first pass a field starts in the first window, from the current one on, that is free or
shows the start already; a free one takes the offset at which it begins with the field, or the
first at which it shows its start.  The bytes of the field then follow each other through the
windows at this offset.  Where the sixth window ends before the field does, the search returns OK
all the same.
-/

namespace Opconn.Classify.OffsetSet

/-! ### One field -/

/-- The window that the next field comes to, and its offset value, when it has one. -/
structure Cursor where
  offsetSeq : Nat
  offsetValue : Option Nat
deriving DecidableEq, Repr

def Cursor.start : Cursor := ⟨1, none⟩

/-- A window shows a bit of the packet. -/
def shows (offsetSeq offsetValue bit : Nat) : Bool :=
  (clsOffsetHeadTailCal offsetSeq offsetValue).1 ≤ bit &&
    bit ≤ (clsOffsetHeadTailCal offsetSeq offsetValue).2

/-- A window begins with a bit of the packet. -/
def beginsAt (offsetSeq bit offsetValue : Nat) : Bool :=
  bit == (clsOffsetHeadTailCal offsetSeq offsetValue).1

/-- The offset value at which the window of the cursor takes a field. -/
def Cursor.valueFor (c : Cursor) (startBit : Nat) : Option Nat :=
  match c.offsetValue with
  | some v => if shows c.offsetSeq v startBit then some v else none
  | none =>
    (offsetValues.find? (beginsAt c.offsetSeq startBit)).or
      (offsetValues.find? (shows c.offsetSeq · startBit))

/-- The offset value at which the first of some windows takes a field. -/
def Cursor.seek : Nat → Cursor → Nat → Option Nat
  | 0, _, _ => none
  | windows + 1, c, startBit =>
    (c.valueFor startBit).or (Cursor.seek windows ⟨c.offsetSeq + 1, none⟩ startBit)

/-- The byte of the key for a bit of the packet, in windows at an offset value. -/
def slotOf (offsetValue bit : Nat) : Nat := bit / 8 - gClassSession offsetValue

/-- The cursor behind a field: a window that the field fills is left. -/
def Cursor.behind (offsetValue lastBit : Nat) : Cursor :=
  let slot := slotOf offsetValue lastBit
  if slot % 4 = 3 ∧ lastBit % 8 = 7 then ⟨slot / 4 + 2, none⟩
  else ⟨slot / 4 + 1, some offsetValue⟩

/-- A field is placed when the six windows have bytes for all of it. -/
def Cursor.place (c : Cursor) (field : Nat × Nat) : Option Cursor :=
  match c.seek (7 - c.offsetSeq) field.1 with
  | none => none
  | some v =>
    if slotOf v (field.1 + field.2 - 1) < keyvalueLength then
      some (.behind v (field.1 + field.2 - 1))
    else none

/-! ### A window in the first pass -/

/-- The search is in its first pass at the window of the cursor. -/
structure Stands (c : Cursor) (s : Search) : Prop where
  searchLoop : s.searchLoop = .loop1
  offsetSeq : s.offsetSeq = c.offsetSeq
  pos : 1 ≤ c.offsetSeq
  used : s.used = c.offsetValue.isSome
  value : ∀ v, c.offsetValue = some v → s.value = v ∧ v ∈ offsetValues
  fresh : ∀ i, c.offsetSeq ≤ i → s.offsetUsedFlag i = false

/-- What follows in the first pass when a field is written. -/
def settled (found : SearchStatus) (offsetTail : Nat) (s : Search) : Ending :=
  if offsetTail < s.lastBit then .leave found (s.cut offsetTail).advance
  else if s.lastBit = offsetTail then
    if s.offsetSeq = 6 then .leave found s.advance else .ret s.advance
  else .ret s

section FirstPass

variable {c : Cursor} {s : Search}

theorem settle_loop1 (fieldMap : UInt32) (refusal : OffsetError) (found : SearchStatus)
    (offsetTail : Nat) (h : s.searchLoop = .loop1) :
    settle fieldMap refusal found offsetTail s = .error (settled found offsetTail s) := by
  rw [settle, settled]
  simp only [h]
  split
  · rfl
  · split
    · split <;> rfl
    · rfl

theorem fill_loop1 (fieldMap : UInt32) (refusal : OffsetError) (found : SearchStatus)
    (offsetValue offsetTail : Nat) (h : s.searchLoop = .loop1) :
    fill fieldMap refusal found offsetValue offsetTail s =
      .error (settled found offsetTail (s.take offsetValue)) := by
  have hloop : (s.take offsetValue).searchLoop = .loop1 := h
  rw [fill, if_neg (by simp [h]), settle_loop1 fieldMap refusal found offsetTail hloop]

theorem matchStart_loop1 (fieldMap : UInt32) (values : List Nat) (h : s.searchLoop = .loop1) :
    matchStart fieldMap values .findNone s =
      match values.find? (beginsAt s.offsetSeq s.startBit) with
      | none => .leave .findNone s
      | some v =>
        if s.used ∧ v ≠ s.value then .leave .findNone s
        else settled .matchStartbit (clsOffsetHeadTailCal s.offsetSeq v).2 (s.take v) := by
  induction values with
  | nil => rfl
  | cons v values ih =>
    rw [matchStart, List.find?_cons]
    by_cases hhead : s.startBit = (clsOffsetHeadTailCal s.offsetSeq v).1
    · have hbegins : beginsAt s.offsetSeq s.startBit v = true := by
        rw [beginsAt, beq_iff_eq]
        exact hhead
      simp only [hbegins, not_not.mpr hhead, if_false, h, forall_const, fill_loop1]
    · have hbegins : beginsAt s.offsetSeq s.startBit v = false := by
        rw [beginsAt, beq_eq_false_iff_ne]
        exact hhead
      simp only [hbegins, hhead, ne_eq, not_false_eq_true, if_true, ih]

/-- Where the window over the end of the header is not taken for two. -/
def Plain (offsetSeq startBit : Nat) : Prop :=
  startBit ≤ 600 ∧ (offsetSeq ≠ 4 ∨ 16 ≤ startBit)

theorem closestWindow_plain {offsetSeq startBit : Nat} (h : Plain offsetSeq startBit)
    (offsetValue : Nat) :
    closestWindow offsetSeq offsetValue startBit = clsOffsetHeadTailCal offsetSeq offsetValue := by
  simp only [closestWindow]
  split
  · rename_i hspecial
    rcases hspecial with ⟨rfl, rfl⟩
    have hwindow : clsOffsetHeadTailCal 4 11 = (624, 15) := rfl
    rcases h with ⟨hhigh, h | hlow⟩
    · exact absurd rfl h
    · rw [hwindow, if_neg (by simp only; omega), if_neg (by simp only; omega)]
  · rfl

theorem closestStart_loop1 (fieldMap : UInt32) (values : List Nat)
    (h : s.searchLoop = .loop1) (hplain : Plain s.offsetSeq s.startBit) :
    closestStart fieldMap values .findNone s =
      match values.find? (shows s.offsetSeq · s.startBit) with
      | none => .leave .findNone s
      | some v =>
        if s.used then
          if shows s.offsetSeq s.value s.startBit then
            settled .closestStartbit (clsOffsetHeadTailCal s.offsetSeq s.value).2
              (s.take s.value)
          else if v ≠ s.value then .leave .closestStartbit s.advance
          else
            settled .closestStartbit (clsOffsetHeadTailCal s.offsetSeq s.value).2 (s.take v)
        else settled .closestStartbit (clsOffsetHeadTailCal s.offsetSeq v).2 (s.take v) := by
  induction values with
  | nil => rfl
  | cons v values ih =>
    rw [closestStart, List.find?_cons]
    simp only [closestWindow_plain hplain]
    by_cases hshows : shows s.offsetSeq v s.startBit = true
    · have hbits := hshows
      rw [shows, Bool.and_eq_true, decide_eq_true_eq, decide_eq_true_eq] at hbits
      rw [if_pos hbits, hshows]
      simp only [closestFill, h, closestWindow_plain hplain]
      have hstanding : shows s.offsetSeq s.value s.startBit = true ↔
          (clsOffsetHeadTailCal s.offsetSeq s.value).1 ≤ s.startBit ∧
            s.startBit ≤ (clsOffsetHeadTailCal s.offsetSeq s.value).2 := by
        rw [shows, Bool.and_eq_true, decide_eq_true_eq, decide_eq_true_eq]
      simp only [hstanding, fill_loop1 fieldMap _ _ _ _ h]
      by_cases hused : s.used = true
      · simp only [hused, if_true]
        by_cases hkept : (clsOffsetHeadTailCal s.offsetSeq s.value).1 ≤ s.startBit ∧
            s.startBit ≤ (clsOffsetHeadTailCal s.offsetSeq s.value).2
        · simp only [if_pos hkept]
        · simp only [if_neg hkept]
          by_cases hvalue : v = s.value
          · simp only [hvalue, ne_eq, not_true_eq_false, if_false]
          · simp only [ne_eq, hvalue, not_false_eq_true, if_true]
      · simp only [hused, Bool.false_eq_true, if_false]
    · have hbits := hshows
      rw [shows, Bool.and_eq_true, decide_eq_true_eq, decide_eq_true_eq] at hbits
      rw [if_neg hbits, Bool.eq_false_iff.mpr hshows]
      exact ih

/-- The ending of a window that takes the field. -/
theorem settled_cases (found : SearchStatus) (offsetTail : Nat) (t : Search) :
    (∃ t', settled found offsetTail t = .leave found t') ∨
      ∃ t', settled found offsetTail t = .ret t' := by
  rw [settled]
  split
  · exact .inl ⟨_, rfl⟩
  · split
    · split
      · exact .inl ⟨_, rfl⟩
      · exact .inr ⟨_, rfl⟩
    · exact .inr ⟨_, rfl⟩

/-- A window that is taken ends the round. -/
theorem searchRound_of_matchStart {fieldMap : UInt32} {last : Bool} {offsetTail : Nat}
    {t : Search}
    (h : matchStart fieldMap offsetValues .findNone s = settled .matchStartbit offsetTail t) :
    searchRound fieldMap last s = settled .matchStartbit offsetTail t := by
  rcases settled_cases .matchStartbit offsetTail t with ⟨t', hleave⟩ | ⟨t', hret⟩
  · rw [hleave] at h ⊢
    rw [searchRound, h]
  · rw [hret] at h ⊢
    rw [searchRound, h]

theorem searchRound_of_closestStart {fieldMap : UInt32} {last : Bool} {offsetTail : Nat}
    {t : Search} (hnone : matchStart fieldMap offsetValues .findNone s = .leave .findNone s)
    (h : closestStart fieldMap offsetValues .findNone s = settled .closestStartbit offsetTail t) :
    searchRound fieldMap last s = settled .closestStartbit offsetTail t := by
  rcases settled_cases .closestStartbit offsetTail t with ⟨t', hleave⟩ | ⟨t', hret⟩
  · rw [hleave] at h ⊢
    rw [searchRound, hnone]
    simp only [h]
  · rw [hret] at h ⊢
    rw [searchRound, hnone]
    simp only [h]

/-- A window that takes the field. -/
theorem searchRound_of_value (fieldMap : UInt32) (last : Bool) (h : Stands c s)
    (hplain : Plain s.offsetSeq s.startBit) {v : Nat} (hvalue : c.valueFor s.startBit = some v) :
    ∃ found, searchRound fieldMap last s =
      settled found (clsOffsetHeadTailCal s.offsetSeq v).2 (s.take v) := by
  have hmatch := matchStart_loop1 fieldMap offsetValues h.searchLoop
  have hclosest := closestStart_loop1 fieldMap offsetValues h.searchLoop hplain
  rw [Cursor.valueFor] at hvalue
  cases hc : c.offsetValue with
  | none =>
    have hused : ¬s.used = true := by simp [h.used, hc]
    simp only [hc, ← h.offsetSeq] at hvalue
    cases hbegins : offsetValues.find? (beginsAt s.offsetSeq s.startBit) with
    | none =>
      rw [hbegins, Option.none_or] at hvalue
      simp only [hbegins] at hmatch
      simp only [hvalue, hused, Bool.false_eq_true, if_false] at hclosest
      exact ⟨_, searchRound_of_closestStart hmatch hclosest⟩
    | some v' =>
      rw [hbegins, Option.some_or] at hvalue
      cases hvalue
      simp only [hbegins, hused] at hmatch
      exact ⟨_, searchRound_of_matchStart hmatch⟩
  | some off =>
    rcases h.value off hc with ⟨hoff, hmem⟩
    have hused : s.used = true := by simp [h.used, hc]
    simp only [hc, ← h.offsetSeq] at hvalue
    split at hvalue
    · rename_i hshows
      cases hvalue
      have hkept : searchRound fieldMap last s =
          settled .matchStartbit (clsOffsetHeadTailCal s.offsetSeq v).2 (s.take v) ∨
          matchStart fieldMap offsetValues .findNone s = .leave .findNone s := by
        cases hbegins : offsetValues.find? (beginsAt s.offsetSeq s.startBit) with
        | none =>
          simp only [hbegins] at hmatch
          exact .inr hmatch
        | some v' =>
          simp only [hbegins, hused, true_and, hoff] at hmatch
          by_cases hsame : v' = v
          · subst hsame
            simp only [ne_eq, not_true_eq_false, if_false] at hmatch
            exact .inl (searchRound_of_matchStart hmatch)
          · simp only [ne_eq, hsame, not_false_eq_true, if_true] at hmatch
            exact .inr hmatch
      rcases hkept with hround | hnone
      · exact ⟨_, hround⟩
      · cases hfind : offsetValues.find? (shows s.offsetSeq · s.startBit) with
        | none => exact absurd hshows (List.find?_eq_none.mp hfind v hmem)
        | some v' =>
          simp only [hfind, hused, if_true, hoff, hshows] at hclosest
          exact ⟨_, searchRound_of_closestStart hnone hclosest⟩
    · cases hvalue

/-- A window that does not is left for the next one. -/
theorem searchRound_of_none (fieldMap : UInt32) {last : Bool} (h : Stands c s)
    (hplain : Plain s.offsetSeq s.startBit) (hlast : last = true ↔ s.offsetSeq = 6)
    (hvalue : c.valueFor s.startBit = none) :
    ∃ status, searchRound fieldMap last s = .leave status s.advance := by
  have hmatch := matchStart_loop1 fieldMap offsetValues h.searchLoop
  have hclosest := closestStart_loop1 fieldMap offsetValues h.searchLoop hplain
  have hnotFound : matchStart fieldMap offsetValues .findNone s = .leave .findNone s →
      closestStart fieldMap offsetValues .findNone s = .leave .findNone s →
      ∃ status, searchRound fieldMap last s = .leave status s.advance := by
    intro hnone hnone'
    refine ⟨.findNone, ?_⟩
    rw [searchRound, hnone]
    simp only [hnone', h.searchLoop, Search.advance]
    by_cases hsix : s.offsetSeq = 6
    · rw [if_pos (hlast.mpr hsix), if_pos hsix]
    · rw [if_neg (fun hl => hsix (hlast.mp hl)), if_neg hsix]
  rw [Cursor.valueFor] at hvalue
  cases hc : c.offsetValue with
  | none =>
    have hused : ¬s.used = true := by simp [h.used, hc]
    simp only [hc, ← h.offsetSeq, Option.or_eq_none_iff] at hvalue
    simp only [hvalue.1] at hmatch
    simp only [hvalue.2] at hclosest
    exact hnotFound hmatch hclosest
  | some off =>
    rcases h.value off hc with ⟨hoff, hmem⟩
    have hused : s.used = true := by simp [h.used, hc]
    simp only [hc, ← h.offsetSeq] at hvalue
    split at hvalue
    · cases hvalue
    · rename_i hshows
      have hnone : matchStart fieldMap offsetValues .findNone s = .leave .findNone s := by
        cases hbegins : offsetValues.find? (beginsAt s.offsetSeq s.startBit) with
        | none =>
          simp only [hbegins] at hmatch
          exact hmatch
        | some v =>
          have hne : v ≠ off := by
            rintro rfl
            have hhead := List.find?_some hbegins
            rw [beginsAt, beq_iff_eq] at hhead
            have hwindow := headTail_cases s.offsetSeq v
            have hstart := hplain.1
            rw [shows, Bool.and_eq_true, decide_eq_true_eq, decide_eq_true_eq] at hshows
            omega
          simp only [hbegins, hused, true_and, hoff, ne_eq, hne, not_false_eq_true,
            if_true] at hmatch
          exact hmatch
      cases hfind : offsetValues.find? (shows s.offsetSeq · s.startBit) with
      | none =>
        simp only [hfind] at hclosest
        exact hnotFound hnone hclosest
      | some v =>
        have hne : v ≠ off := by
          rintro rfl
          have hshown := List.find?_some hfind
          exact hshows hshown
        simp only [hfind, hused, if_true, hoff, hshows, Bool.false_eq_true, if_false, ne_eq, hne,
          not_false_eq_true] at hclosest
        refine ⟨.closestStartbit, ?_⟩
        rw [searchRound, hnone]
        simp only [hclosest]

end FirstPass

end Opconn.Classify.OffsetSet
