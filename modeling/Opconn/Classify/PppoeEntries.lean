import Opconn.Classify.Placement

/-!
# The entries of a PPPoE rule

What `clsOffsetSet` finds for a PPPoE packet with one tag.  The mask, the rule and the offsets match
the packets that agree with the rule in the enabled fields, when the six windows take these in one
pass and neither the destination port nor the user-defined word is among them, which the table has
in a wrong place.  In all other cases in which the function returns OK, some field is not compared
where it stands, or bytes were written behind the key.
-/

namespace Opconn.Classify.OffsetSet

open MaskedKey

/-! ### Fields of a packet -/

/-- The fields where they stand in a packet, which is how `CLASSIFY_PPPOE_t` has the rule: the
destination port is behind the source port, as in the table for two tags, and the user-defined word
is behind the ports. -/
def pppoeFields : List (Nat × Nat) :=
  [(0, 48), (48, 48), (96, 16), (112, 3), (116, 12), (128, 16), (152, 8), (192, 16), (208, 8),
    (208, 4), (216, 8), (280, 8), (304, 32), (336, 32), (368, 16), (384, 16), (400, 32)]

/-- `CLASSIFY_PPPOE_DESTINATION_PORT` and `CLASSIFY_PPPOE_USER_FIELD1`. -/
def pppoeDestinationPort : Nat := 15
def pppoeUserField1 : Nat := 16

/-- A bit of a packet is in a field. -/
def InField (field : Nat × Nat) (x : Nat) : Prop := field.1 ≤ x ∧ x < field.1 + field.2

instance (field : Nat × Nat) (x : Nat) : Decidable (InField field x) :=
  inferInstanceAs (Decidable (_ ∧ _))

/-- A bit of a packet is in an enabled field. -/
def EnabledBit (fieldMap : UInt32) (x : Nat) : Prop :=
  ∃ cnt < 17, fieldEnabled fieldMap cnt = true ∧ InField (pppoeFields.getD cnt (0, 0)) x

/-- No bit of the map is set that `PppoEField` has no name for and the count of a second tag lets
pass. -/
def NamedFields (fieldMap : UInt32) : Prop :=
  ∀ cnt, 17 ≤ cnt → cnt < pppoeLastNullField → fieldEnabled fieldMap cnt = false

/-- A bit of a value, and of a header. -/
def valueBit (value : ClsDataValue) (x : Nat) : Bool :=
  if h : x / 8 < clsDataValueSize then (value ⟨x / 8, h⟩).toBitVec.getLsbD (7 - x % 8) else false

def headerBit (h : Fin packetHeaderLen → UInt8) (x : Nat) : Bool :=
  if hx : x / 8 < packetHeaderLen then (h ⟨x / 8, hx⟩).toBitVec.getLsbD (7 - x % 8) else false

/-- A packet agrees with the rule, under the user mask, in the enabled fields. -/
def FieldsAgree (par : Parameter) (h : Fin packetHeaderLen → UInt8) : Prop :=
  ∀ x, EnabledBit par.fieldMap x → valueBit par.pktUsrMask x = true →
    headerBit h x = valueBit par.pktRuleValue x

/-- What the entries should be. -/
structure PlacedExactly (par : Parameter) (mem : Beyond) (s : Search) : Prop where
  inKey : ∀ w ∈ s.writes, w.slot < keyvalueLength
  placed : ∀ x, EnabledBit par.fieldMap x → ∃ w ∈ s.writes, Marks w x ∧ ∃ window b,
    w.slot = (keyByte window b).val ∧ (windowByte window (s.offsetValue window) b).val = x / 8
  only : ∀ window b, ∀ j < 8, (maskValue par mem s (keyByte window b)).getLsbD j = true →
    EnabledBit par.fieldMap (8 * (windowByte window (s.offsetValue window) b).val + (7 - j))
  exact : ∀ h, EntryMatches (entryOf par mem s) h ↔ FieldsAgree par h

/-! ### One pass -/

/-- The cursor behind the fields before one, where the windows take them in one pass. -/
def cursorAfter (fieldMap : UInt32) : Nat → Option Cursor
  | 0 => some .start
  | cnt + 1 =>
    if fieldEnabled fieldMap cnt then
      (cursorAfter fieldMap cnt).bind fun c => c.place (pppoeFields.getD cnt (0, 0))
    else cursorAfter fieldMap cnt

/-- The fields before the destination port fit into the windows in one pass. -/
def FitsInOnePass (fieldMap : UInt32) : Prop :=
  (cursorAfter fieldMap pppoeDestinationPort).isSome = true

instance (fieldMap : UInt32) : Decidable (FitsInOnePass fieldMap) :=
  inferInstanceAs (Decidable (_ = true))

/-- All cursors that there can be behind the fields before one. -/
def cursorsAt : Nat → List Cursor
  | 0 => [.start]
  | cnt + 1 =>
    let cs := cursorsAt cnt
    (cs ++ cs.filterMap fun c => c.place (pppoeFields.getD cnt (0, 0))).eraseDups

theorem fair_cursorsAt : ∀ cnt < 15, ∀ c ∈ cursorsAt cnt,
    c.Fair (pppoeFields.getD cnt (0, 0)) := by
  decide +kernel

/-- The IP version is in the byte of the LCP code. -/
theorem place_ipver : ∀ c ∈ cursorsAt 8, ∀ c', c.place (208, 8) = some c' →
    (c'.place (208, 4)).isSome = true := by
  have hall : ∀ c ∈ cursorsAt 8,
      ((c.place (208, 8)).all fun c' => (c'.place (208, 4)).isSome) = true := by
    decide +kernel
  intro c hc c' hplace
  have hcode := hall c hc
  rw [hplace] at hcode
  exact hcode

theorem cursorAfter_mem {fieldMap : UInt32} {cnt : Nat} {c : Cursor}
    (h : cursorAfter fieldMap cnt = some c) : c ∈ cursorsAt cnt := by
  induction cnt generalizing c with
  | zero =>
    cases h
    exact List.mem_cons_self
  | succ cnt ih =>
    rw [cursorAfter] at h
    rw [cursorsAt, List.mem_eraseDups, List.mem_append]
    split at h
    · rcases Option.bind_eq_some_iff.mp h with ⟨c', hc', hplace⟩
      exact .inr (List.mem_filterMap.mpr ⟨c', ih hc', hplace⟩)
    · exact .inl (ih h)

/-! ### The table -/

theorem sound_table : ∀ cnt < 17, Aligned (gCPPPoEFieldSingleTag.getD cnt (0, 0)).1 ∧
    0 < (gCPPPoEFieldSingleTag.getD cnt (0, 0)).2 ∧
    (gCPPPoEFieldSingleTag.getD cnt (0, 0)).1 + (gCPPPoEFieldSingleTag.getD cnt (0, 0)).2 ≤
      600 := by
  simp only [Aligned]
  decide

/-- The table has the fields before the destination port in their places. -/
theorem table_eq : ∀ cnt < 15,
    gCPPPoEFieldSingleTag.getD cnt (0, 0) = pppoeFields.getD cnt (0, 0) := by
  decide

theorem sound_pppoeFields {cnt : Nat} (h : cnt < 15) : Sound (pppoeFields.getD cnt (0, 0)) := by
  rcases sound_table cnt (by omega) with ⟨haligned, hpos, hend⟩
  rw [table_eq cnt h] at haligned hpos hend
  exact ⟨haligned, hpos, hend⟩

section Run

variable {par : Parameter} {mem : Beyond} {s s' : Search}

/-- An enabled field of the map is one of the table, or it is refused. -/
theorem fieldSet_search {cnt prestartBit : Nat} (htype : par.pktType = .pppoeIp)
    (hnamed : NamedFields par.fieldMap) (henabled : fieldEnabled par.fieldMap cnt = true)
    (hok : fieldSet par mem cnt prestartBit s = .ok s') : cnt < 17 ∧
      clsOffsetTblSearch par.fieldMap (s.seekField (gCPPPoEFieldSingleTag.getD cnt (0, 0))) =
        .ok s' := by
  rw [fieldSet, htype, candFfieldAddrLenGet] at hok
  by_cases hlast : pppoeLastNullField ≤ cnt
  · rw [if_pos hlast] at hok
    cases hok
  · have hcnt : cnt < 17 := by
      by_contra hbehind
      have hnone := hnamed cnt (Nat.le_of_not_lt hbehind) (Nat.lt_of_not_le hlast)
      rw [henabled] at hnone
      cases hnone
    have hfield : fieldAt mem gCPPPoEFieldSingleTag cnt =
        gCPPPoEFieldSingleTag.getD cnt (0, 0) := by
      rw [fieldAt, List.getD_eq_getElem _ _ hcnt, List.getD_eq_getElem _ _ hcnt]
    rw [if_neg hlast, hfield] at hok
    simp only at hok
    split at hok
    · cases hok
    · split at hok
      · cases hok
      · exact ⟨hcnt, hok⟩

/-- What holds before the first field and is kept by each holds behind the last one. -/
theorem clsOffsetSet_invariant {P : Nat → Search → Prop} (hstart : P 0 .start)
    (hskip : ∀ cnt s, fieldEnabled par.fieldMap cnt = false → P cnt s → P (cnt + 1) s)
    (hset : ∀ cnt prestartBit s s', fieldEnabled par.fieldMap cnt = true →
      fieldSet par mem cnt prestartBit s = .ok s' → P cnt s → P (cnt + 1) s')
    (hok : clsOffsetSet par mem = .ok s) : P 32 s := by
  have hrest : ∀ k cnt s, (∀ i, fieldEnabled par.fieldMap (cnt + i) = false) → P cnt s →
      P (cnt + k) s := by
    intro k
    induction k with
    | zero => exact fun _ _ _ h => h
    | succ k ih => exact fun cnt s hnone h => hskip _ _ (hnone k) (ih cnt s hnone h)
  have hrounds : ∀ k cnt prestartBit t, P cnt t →
      fieldRounds par mem (List.range' cnt k) prestartBit t = .ok s → P (cnt + k) s := by
    intro k
    induction k with
    | zero =>
      intro cnt prestartBit t h hok
      cases hok
      exact h
    | succ k ih =>
      intro cnt prestartBit t h hok
      rw [List.range'_succ, fieldRounds] at hok
      have hlast : cnt + (k + 1) = cnt + 1 + k := by omega
      split at hok
      · rename_i hzero
        cases hok
        refine hrest (k + 1) cnt _ (fun i => ?_) h
        rw [fieldEnabled, localFieldMap, BitVec.shiftLeft_add]
        rw [localFieldMap] at hzero
        simp [hzero]
      · split at hok
        · rename_i henabled
          split at hok
          · cases hok
          · rename_i t' hresult
            rw [hlast]
            exact ih (cnt + 1) _ t' (hset cnt prestartBit t t' henabled hresult h) hok
        · rename_i hnone
          rw [hlast]
          exact ih (cnt + 1) _ t (hskip cnt t (Bool.eq_false_iff.mpr hnone) h) hok
  rw [clsOffsetSet, List.range_eq_range'] at hok
  exact (Nat.zero_add 32) ▸ hrounds 32 0 0 .start hstart hok

/-! ### Fields in one pass -/

/-- The fields before one are in windows that show them. -/
structure PassInvariant (fieldMap : UInt32) (cnt : Nat) (c : Cursor) (s : Search) : Prop where
  stands : Stands c s
  inWindows : InWindows s
  only : ∀ w ∈ s.writes, ∀ x, Marks w x →
    ∃ i < cnt, fieldEnabled fieldMap i = true ∧ InField (pppoeFields.getD i (0, 0)) x
  marked : ∀ i < cnt, fieldEnabled fieldMap i = true →
    ∀ x, InField (pppoeFields.getD i (0, 0)) x → ∃ w ∈ s.writes, Marks w x

/-- A field is not placed: something was written behind the key, or its last bit was not. -/
def Missed (field : Nat × Nat) (s : Search) : Prop :=
  (∃ w ∈ s.writes, 24 ≤ w.slot) ∨ ∀ w ∈ s.writes, ¬Marks w (field.1 + field.2 - 1)

/-- What is known behind the fields before one. -/
structure Progress (fieldMap : UInt32) (cnt : Nat) (s : Search) : Prop where
  fits : ∀ c, cursorAfter fieldMap cnt = some c → PassInvariant fieldMap cnt c s
  misses : cursorAfter fieldMap cnt = none →
    ∃ i < cnt, fieldEnabled fieldMap i = true ∧ Missed (pppoeFields.getD i (0, 0)) s

/-- The last bit of a field is in none of the fields behind it. -/
theorem last_not_inField : ∀ cnt < 15, ∀ i < cnt, ¬InField (pppoeFields.getD cnt (0, 0))
    ((pppoeFields.getD i (0, 0)).1 + (pppoeFields.getD i (0, 0)).2 - 1) := by
  decide

/-- Nor in one before it, but for the IP version. -/
theorem last_inField : ∀ cnt < 15, ∀ i < cnt, InField (pppoeFields.getD i (0, 0))
    ((pppoeFields.getD cnt (0, 0)).1 + (pppoeFields.getD cnt (0, 0)).2 - 1) → cnt = 9 ∧ i = 8 := by
  decide

/-- What is missed is not made up for. -/
theorem Missed.grows {first behind : Nat} {field : Nat × Nat} (h : Missed field s)
    (hgrows : Grows first behind s s')
    (hother : ¬InField (first, behind - first) (field.1 + field.2 - 1)) : Missed field s' := by
  rcases hgrows with ⟨ws, hws, hbits⟩
  rcases h with ⟨w, hw, hbehind⟩ | hnone
  · exact .inl ⟨w, hws ▸ List.mem_append_left _ hw, hbehind⟩
  · refine .inr fun w hw hmark => ?_
    rw [hws] at hw
    rcases List.mem_append.mp hw with hw | hw
    · exact hnone w hw hmark
    · rcases hbits w hw _ hmark with ⟨hfirst, hlast⟩
      exact hother ⟨hfirst, by simp only; omega⟩

/-- The next field, where the ones before it are placed. -/
theorem PassInvariant.next {fieldMap : UInt32} {cnt : Nat} {c c' : Cursor}
    (h : PassInvariant fieldMap cnt c s) (hcnt : cnt < 15)
    (hgrows : Grows (pppoeFields.getD cnt (0, 0)).1
      ((pppoeFields.getD cnt (0, 0)).1 + (pppoeFields.getD cnt (0, 0)).2) s s')
    (henabled : fieldEnabled fieldMap cnt = true) (hstands : Stands c' s')
    (hin : InWindows s')
    (hmarked : ∀ x, InField (pppoeFields.getD cnt (0, 0)) x → ∃ w ∈ s'.writes, Marks w x) :
    PassInvariant fieldMap (cnt + 1) c' s' := by
  rcases hgrows with ⟨ws, hws, hbits⟩
  refine ⟨hstands, hin, ?_, ?_⟩
  · intro w hw x hx
    rw [hws] at hw
    rcases List.mem_append.mp hw with hw | hw
    · rcases h.only w hw x hx with ⟨i, hi, hfield⟩
      exact ⟨i, Nat.lt_succ_of_lt hi, hfield⟩
    · exact ⟨cnt, Nat.lt_succ_self _, henabled, hbits w hw x hx⟩
  · intro i hi hfield x hx
    rcases Nat.lt_succ_iff_lt_or_eq.mp hi with hi | rfl
    · rcases h.marked i hi hfield x hx with ⟨w, hw, hmark⟩
      exact ⟨w, hws ▸ List.mem_append_left _ hw, hmark⟩
    · exact hmarked x hx

/-- A field that does not fit behind the ones before it is missed. -/
theorem missed_of_place {fieldMap : UInt32} {cnt : Nat} {c : Cursor}
    (h : PassInvariant fieldMap cnt c s) (hc : cursorAfter fieldMap cnt = some c) (hcnt : cnt < 15)
    (hplace : c.place (pppoeFields.getD cnt (0, 0)) = none)
    (hok : clsOffsetTblSearch fieldMap (s.seekField (pppoeFields.getD cnt (0, 0))) = .ok s') :
    Missed (pppoeFields.getD cnt (0, 0)) s' := by
  have hfair := fair_cursorsAt cnt hcnt c (cursorAfter_mem hc)
  rcases clsOffsetTblSearch_unplaced h.stands hfair (sound_pppoeFields hcnt) hplace hok with
    hbehind | hsame
  · exact .inl hbehind
  · refine .inr fun w hw hmark => ?_
    rcases h.only w (hsame ▸ hw) _ hmark with ⟨i, hi, henabled, hfield⟩
    -- only the IP version has its last bit in another field, and fits where the LCP code did
    rcases last_inField cnt hcnt i hi hfield with ⟨rfl, rfl⟩
    have hlcp : (cursorAfter fieldMap 8).bind (fun c => c.place (208, 8)) = some c := by
      rw [cursorAfter, if_pos henabled] at hc
      exact hc
    rcases Option.bind_eq_some_iff.mp hlcp with ⟨c₀, hc₀, hplaced⟩
    have hsome := place_ipver c₀ (cursorAfter_mem hc₀) c hplaced
    have hnone : c.place (208, 4) = none := hplace
    rw [hnone] at hsome
    cases hsome

theorem Progress.set {cnt : Nat} {fieldMap : UInt32} (h : Progress fieldMap cnt s)
    (hcnt : cnt < 15) (henabled : fieldEnabled fieldMap cnt = true)
    (hok : clsOffsetTblSearch fieldMap (s.seekField (pppoeFields.getD cnt (0, 0))) = .ok s') :
    Progress fieldMap (cnt + 1) s' := by
  have hsound := sound_pppoeFields hcnt
  have hgrows := grows_clsOffsetTblSearch hsound.aligned hsound.end_le hok
  have hnext : cursorAfter fieldMap (cnt + 1) = (cursorAfter fieldMap cnt).bind
      fun c => c.place (pppoeFields.getD cnt (0, 0)) := by
    rw [cursorAfter, if_pos henabled]
  constructor
  · intro c' hc'
    rw [hnext] at hc'
    rcases Option.bind_eq_some_iff.mp hc' with ⟨c, hc, hplace⟩
    have hpass := h.fits c hc
    have hfair := fair_cursorsAt cnt hcnt c (cursorAfter_mem hc)
    rcases clsOffsetTblSearch_place fieldMap hpass.stands hfair hsound hplace hpass.inWindows with
      ⟨t, ht, hstands, hin, hmarked⟩
    rw [hok] at ht
    cases ht
    exact hpass.next hcnt hgrows henabled hstands hin fun x hx => hmarked x hx.1 hx.2
  · intro hnone
    cases hc : cursorAfter fieldMap cnt with
    | none =>
      rcases h.misses hc with ⟨i, hi, hfield, hmissed⟩
      refine ⟨i, Nat.lt_succ_of_lt hi, hfield, hmissed.grows hgrows ?_⟩
      rw [Nat.add_sub_cancel_left]
      exact last_not_inField cnt hcnt i hi
    | some c =>
      rw [hnext, hc] at hnone
      exact ⟨cnt, Nat.lt_succ_self _, henabled, missed_of_place (h.fits c hc) hc hcnt hnone hok⟩

theorem Progress.skip {cnt : Nat} {fieldMap : UInt32} (h : Progress fieldMap cnt s)
    (hnone : fieldEnabled fieldMap cnt = false) : Progress fieldMap (cnt + 1) s := by
  have hnext : cursorAfter fieldMap (cnt + 1) = cursorAfter fieldMap cnt := by
    rw [cursorAfter, if_neg (Bool.eq_false_iff.mp hnone)]
  constructor
  · intro c hc
    have hpass := h.fits c (hnext ▸ hc)
    refine ⟨hpass.stands, hpass.inWindows, ?_, ?_⟩
    · intro w hw x hx
      rcases hpass.only w hw x hx with ⟨i, hi, hfield⟩
      exact ⟨i, Nat.lt_succ_of_lt hi, hfield⟩
    · intro i hi hfield
      rcases Nat.lt_succ_iff_lt_or_eq.mp hi with hi | rfl
      · exact hpass.marked i hi hfield
      · rw [hnone] at hfield
        cases hfield
  · intro hcursor
    rcases h.misses (hnext ▸ hcursor) with ⟨i, hi, hmissed⟩
    exact ⟨i, Nat.lt_succ_of_lt hi, hmissed⟩

theorem progress_start (fieldMap : UInt32) : Progress fieldMap 0 .start := by
  constructor
  · intro c hc
    cases hc
    refine ⟨⟨rfl, rfl, Nat.le_refl _, rfl, ?_, fun _ _ => rfl⟩, ?_, ?_, ?_⟩
    · intro v hv
      cases hv
    · intro w hw
      cases hw
    · intro w hw
      cases hw
    · intro i hi
      cases hi
  · intro hc
    cases hc

/-- **All fields before the destination port are placed, or one is missed.** -/
theorem progress_clsOffsetSet (htype : par.pktType = .pppoeIp) (hnamed : NamedFields par.fieldMap)
    (hport : fieldEnabled par.fieldMap pppoeDestinationPort = false)
    (huser : fieldEnabled par.fieldMap pppoeUserField1 = false)
    (hok : clsOffsetSet par mem = .ok s) : Progress par.fieldMap 15 s := by
  have hmin : Progress par.fieldMap (min 32 15) s := by
    refine clsOffsetSet_invariant (P := fun cnt s => Progress par.fieldMap (min cnt 15) s)
      (progress_start _) ?_ ?_ hok
    · intro cnt s hnone h
      by_cases hcnt : cnt < 15
      · have hcur : min cnt 15 = cnt := by omega
        have hnext : min (cnt + 1) 15 = cnt + 1 := by omega
        rw [hcur] at h
        rw [hnext]
        exact h.skip hnone
      · have hcur : min cnt 15 = min (cnt + 1) 15 := by omega
        exact hcur ▸ h
    · intro cnt prestartBit s s' henabled hresult h
      rcases fieldSet_search htype hnamed henabled hresult with ⟨htable, hsearch⟩
      by_cases hcnt : cnt < 15
      · have hcur : min cnt 15 = cnt := by omega
        have hnext : min (cnt + 1) 15 = cnt + 1 := by omega
        rw [hcur] at h
        rw [hnext]
        rw [table_eq cnt hcnt] at hsearch
        exact h.set hcnt henabled hsearch
      · have hlast : cnt = pppoeDestinationPort ∨ cnt = pppoeUserField1 := by
          rw [pppoeDestinationPort, pppoeUserField1]
          omega
        rcases hlast with rfl | rfl
        · rw [hport] at henabled
          cases henabled
        · rw [huser] at henabled
          cases henabled
  exact hmin

/-! ### Exact entries -/

theorem enabledBit_lt {fieldMap : UInt32} {x : Nat} (h : EnabledBit fieldMap x) : x < 432 := by
  have hends : ∀ cnt < 17, (pppoeFields.getD cnt (0, 0)).1 + (pppoeFields.getD cnt (0, 0)).2 ≤
      432 := by decide
  rcases h with ⟨cnt, hcnt, -, -, hx⟩
  exact Nat.lt_of_lt_of_le hx (hends cnt hcnt)

/-- The copies that `clsMaskRuleSet` reads have the values. -/
theorem copied_bit (value : ClsDataValue) (behind : Nat → UInt8) {x : Nat} (hx : x < 432) :
    (copied value behind (x / 8)).getLsbD (7 - x % 8) = valueBit value x := by
  have hbyte : x / 8 < clsDataValueSize := by
    show x / 8 < 54
    omega
  rw [copied, valueBit, dif_pos hbyte, dif_pos hbyte]

theorem headerBit_eq (h : Fin packetHeaderLen → UInt8) {x : Nat} (hx : x < 432) :
    headerBit h x =
      (h (Fin.ofNat packetHeaderLen (x / 8))).toBitVec.getLsbD (7 - x % 8) := by
  have hbyte : x / 8 < packetHeaderLen := by
    show x / 8 < 80
    omega
  have hindex : Fin.ofNat packetHeaderLen (x / 8) = ⟨x / 8, hbyte⟩ :=
    Fin.ext (Nat.mod_eq_of_lt hbyte)
  rw [headerBit, dif_pos hbyte, hindex]

/-- What a slot of the key shows of a header. -/
def shownByte (s : Search) (k : Nat) : Nat := k + gClassSession (s.offsetValue (k / 4))

theorem windowByte_eq (s : Search) (window : Fin 6) (b : Fin 4) :
    windowByte window (s.offsetValue window) b =
      Fin.ofNat packetHeaderLen (shownByte s (keyByte window b)) := by
  have hkey : (keyByte window b).val = 4 * window.val + b.val := by
    show (4 * window.val + b.val) % 24 = _
    omega
  have hwindow : (4 * window.val + b.val) / 4 = window.val := by omega
  have hbyte : 4 * window.val + gClassSession (s.offsetValue window) + b.val =
      4 * window.val + b.val + gClassSession (s.offsetValue window) := by omega
  rw [windowByte, shownByte, hkey, hwindow, hbyte]

/-- A slot of the key is a byte of a window. -/
theorem exists_keyByte {k : Nat} (hk : k < 24) : ∃ window b, (keyByte window b).val = k := by
  refine ⟨⟨k / 4, by omega⟩, ⟨k % 4, by omega⟩, ?_⟩
  show (4 * (k / 4) + k % 4) % 24 = k
  omega

/-- Matching compares each slot of the key, and there is nothing behind it. -/
theorem entryMatches_iff (hin : InWindows s) (h : Fin packetHeaderLen → UInt8) :
    EntryMatches (entryOf par mem s) h ↔
      ∀ k, (h (Fin.ofNat packetHeaderLen (shownByte s k))).toBitVec &&& maskValue par mem s k =
        ruleValue par mem s k := by
  have hslot : ∀ window b, h (windowByte window (s.offsetValue window) b) &&&
      UInt8.ofBitVec (maskValue par mem s (keyByte window b)) =
        UInt8.ofBitVec (ruleValue par mem s (keyByte window b)) ↔
      (h (Fin.ofNat packetHeaderLen (shownByte s (keyByte window b)))).toBitVec &&&
        maskValue par mem s (keyByte window b) = ruleValue par mem s (keyByte window b) := by
    intro window b
    rw [windowByte_eq, ← UInt8.toBitVec_inj, UInt8.toBitVec_and]
  constructor
  · intro hmatch k
    by_cases hk : k < 24
    · rcases exists_keyByte hk with ⟨window, b, hkey⟩
      have hcmp := (hslot window b).mp (hmatch window b)
      rw [hkey] at hcmp
      exact hcmp
    · have hnone : ∀ value : KeyWrite → BitVec 8, written value k s.writes = 0 := by
        intro value
        apply BitVec.eq_of_getLsbD_eq
        intro j hj
        refine (Bool.eq_false_iff.mpr fun hbit => ?_).trans BitVec.getLsbD_zero.symm
        rcases getLsbD_written_iff.mp hbit with ⟨w, hw, rfl, -⟩
        exact hk (hin w hw).1
      rw [maskValue, ruleValue, maskAt, ruleAt, hnone, hnone]
      exact BitVec.and_zero
  · intro hkey window b
    exact (hslot window b).mpr (hkey _)

/-- A bit of a write, as a bit of the packet. -/
theorem marks_of_bit {w : KeyWrite} {j : Nat} (hj : j < 8) (hbit : w.bits.getLsbD j = true) :
    Marks w (8 * w.source + (7 - j)) := by
  have hsource : w.source = (8 * w.source + (7 - j)) / 8 := by omega
  have hplace : 7 - (8 * w.source + (7 - j)) % 8 = j := by omega
  exact ⟨hsource, hplace.symm ▸ hbit⟩

/-- Writes in windows that show them, which are the bits of the enabled fields, make the
entries. -/
theorem placedExactly_of_marks (hin : InWindows s)
    (honly : ∀ w ∈ s.writes, ∀ x, Marks w x → EnabledBit par.fieldMap x)
    (hmarked : ∀ x, EnabledBit par.fieldMap x → ∃ w ∈ s.writes, Marks w x) :
    PlacedExactly par mem s := by
  have hshown : ∀ w ∈ s.writes, shownByte s w.slot = w.source := fun w hw => (hin w hw).2.2.symm
  have hheader : ∀ w ∈ s.writes, ∀ x, Marks w x → ∀ window b, (keyByte window b).val = w.slot →
      (windowByte window (s.offsetValue window) b).val = x / 8 := by
    intro w hw x hmark window b hkey
    have hx := enabledBit_lt (honly w hw x hmark)
    rw [windowByte_eq, hkey, hshown w hw, hmark.1]
    show x / 8 % 80 = x / 8
    omega
  refine ⟨fun w hw => (hin w hw).1, ?_, ?_, ?_⟩
  · intro x hx
    rcases hmarked x hx with ⟨w, hw, hmark⟩
    rcases exists_keyByte (hin w hw).1 with ⟨window, b, hkey⟩
    exact ⟨w, hw, hmark, window, b, hkey.symm, hheader w hw x hmark window b hkey⟩
  · intro window b j hj hmask
    rcases getLsbD_written_iff.mp hmask with ⟨w, hw, hslot, hbit⟩
    rw [BitVec.getLsbD_and, Bool.and_eq_true] at hbit
    have hmark := marks_of_bit hj hbit.1
    have hbyte : (windowByte window (s.offsetValue window) b).val = w.source := by
      rw [hheader w hw _ hmark window b hslot.symm]
      omega
    rw [hbyte]
    exact honly w hw _ hmark
  · intro h
    rw [entryMatches_iff hin h]
    refine (key_matches_iff hshown (localUserMask par mem) (localRuleData par mem)
      fun i => (h (Fin.ofNat packetHeaderLen i)).toBitVec).trans ?_
    constructor
    · intro hbits x hx husr
      have hlt := enabledBit_lt hx
      rcases hmarked x hx with ⟨w, hw, hsource, hbit⟩
      have hsame := hbits w hw _ hbit
      rw [hsource, localUserMask, localRuleData, copied_bit _ _ hlt, copied_bit _ _ hlt,
        ← headerBit_eq h hlt] at hsame
      exact hsame husr
    · intro hagree w hw j hbit husr
      have hj : j < 8 := by
        by_contra hge
        rw [BitVec.getLsbD_of_ge _ _ (Nat.le_of_not_lt hge)] at hbit
        cases hbit
      have hmark := marks_of_bit hj hbit
      have henabled := honly w hw _ hmark
      have hlt := enabledBit_lt henabled
      have hsame := hagree _ henabled
      rw [← copied_bit _ mem.bytes hlt,
        ← copied_bit _ (fun i => UInt8.ofBitVec (localUserMask par mem i)) hlt] at hsame
      have hplace : 7 - (8 * w.source + (7 - j)) % 8 = j := by omega
      rw [headerBit_eq h hlt, ← hmark.1, hplace] at hsame
      exact hsame husr

/-- The fields are placed exactly when they fit into the windows in one pass. -/
theorem placedExactly_of_fits (htype : par.pktType = .pppoeIp) (hnamed : NamedFields par.fieldMap)
    (hport : fieldEnabled par.fieldMap pppoeDestinationPort = false)
    (huser : fieldEnabled par.fieldMap pppoeUserField1 = false)
    (hfits : FitsInOnePass par.fieldMap) (hok : clsOffsetSet par mem = .ok s) :
    PlacedExactly par mem s := by
  rcases Option.isSome_iff_exists.mp hfits with ⟨c, hc⟩
  have hpass := (progress_clsOffsetSet htype hnamed hport huser hok).fits c hc
  apply placedExactly_of_marks hpass.inWindows
  · intro w hw x hx
    rcases hpass.only w hw x hx with ⟨i, hi, hfield⟩
    exact ⟨i, by omega, hfield⟩
  · rintro x ⟨i, hi, henabled, hfield⟩
    have hbefore : i < 15 := by
      by_contra hge
      have hlast : i = pppoeDestinationPort ∨ i = pppoeUserField1 := by
        rw [pppoeDestinationPort, pppoeUserField1]
        omega
      rcases hlast with rfl | rfl
      · rw [hport] at henabled
        cases henabled
      · rw [huser] at henabled
        cases henabled
    exact hpass.marked i hbefore henabled x hfield

/-- The entries that `clsPPPoeMaskRuleMake` makes of fields that fit match the packets that agree
with the rule. -/
theorem clsPPPoeMaskRuleMake_matches (htype : par.pktType = .pppoeIp)
    (hnamed : NamedFields par.fieldMap)
    (hport : fieldEnabled par.fieldMap pppoeDestinationPort = false)
    (huser : fieldEnabled par.fieldMap pppoeUserField1 = false)
    (hfits : FitsInOnePass par.fieldMap) {entry : MaskEntry × RuleEntry}
    (hok : clsPPPoeMaskRuleMake par mem = .ok entry) (h : Fin packetHeaderLen → UInt8) :
    EntryMatches entry h ↔ FieldsAgree par h := by
  rw [clsPPPoeMaskRuleMake] at hok
  split at hok
  · rename_i hzero
    cases hok
    constructor
    · rintro - x ⟨cnt, -, henabled, -⟩
      have hnone : fieldEnabled par.fieldMap cnt = false := by
        rw [hzero, fieldEnabled, localFieldMap]
        simp
      rw [hnone] at henabled
      cases henabled
    · exact fun _ window b => UInt8.and_zero
  · split at hok
    · cases hok
    · rename_i s hresult
      cases hok
      exact (placedExactly_of_fits htype hnamed hport huser hfits hresult).exact h

theorem fits_of_placedExactly (htype : par.pktType = .pppoeIp)
    (hnamed : NamedFields par.fieldMap)
    (hport : fieldEnabled par.fieldMap pppoeDestinationPort = false)
    (huser : fieldEnabled par.fieldMap pppoeUserField1 = false)
    (hok : clsOffsetSet par mem = .ok s) (h : PlacedExactly par mem s) :
    FitsInOnePass par.fieldMap := by
  rw [FitsInOnePass, Option.isSome_iff_ne_none]
  intro hnone
  rcases (progress_clsOffsetSet htype hnamed hport huser hok).misses hnone with
    ⟨i, hi, henabled, hmissed⟩
  rcases hmissed with ⟨w, hw, hbehind⟩ | hlast
  · exact absurd (h.inKey w hw) (Nat.not_lt_of_le hbehind)
  · have hpos := (sound_pppoeFields hi).pos
    have hbit : EnabledBit par.fieldMap
        ((pppoeFields.getD i (0, 0)).1 + (pppoeFields.getD i (0, 0)).2 - 1) :=
      ⟨i, by omega, henabled, by omega, by omega⟩
    rcases h.placed _ hbit with ⟨w, hw, hmark, -⟩
    exact hlast w hw hmark

/-! ### What the table has in a wrong place -/

/-- Nothing is written but bits of fields of the table. -/
theorem inTable_of_marks (htype : par.pktType = .pppoeIp) (hnamed : NamedFields par.fieldMap)
    (hok : clsOffsetSet par mem = .ok s) : ∀ w ∈ s.writes, ∀ x, Marks w x →
      ∃ i < 17, InField (gCPPPoEFieldSingleTag.getD i (0, 0)) x := by
  refine clsOffsetSet_invariant (P := fun _ s => ∀ w ∈ s.writes, ∀ x, Marks w x →
    ∃ i < 17, InField (gCPPPoEFieldSingleTag.getD i (0, 0)) x) ?_ ?_ ?_ hok
  · intro w hw
    cases hw
  · exact fun _ _ _ h => h
  · intro cnt prestartBit s s' henabled hresult h w hw x hx
    rcases fieldSet_search htype hnamed henabled hresult with ⟨hcnt, hsearch⟩
    rcases sound_table cnt hcnt with ⟨haligned, -, hend⟩
    rcases grows_clsOffsetTblSearch haligned hend hsearch with ⟨ws, hws, hbits⟩
    rw [hws] at hw
    rcases List.mem_append.mp hw with hw | hw
    · exact h w hw x hx
    · exact ⟨cnt, hcnt, hbits w hw x hx⟩

/-- The destination port and the user-defined word are never compared where they stand. -/
theorem disabled_of_placedExactly (htype : par.pktType = .pppoeIp)
    (hnamed : NamedFields par.fieldMap) (hok : clsOffsetSet par mem = .ok s)
    (h : PlacedExactly par mem s) :
    fieldEnabled par.fieldMap pppoeDestinationPort = false ∧
      fieldEnabled par.fieldMap pppoeUserField1 = false := by
  have hnowhere : ∀ x, x = 384 ∨ x = 400 →
      ∀ i < 17, ¬InField (gCPPPoEFieldSingleTag.getD i (0, 0)) x := by
    rintro x (rfl | rfl)
    · decide
    · decide
  have hnone : ∀ x, x = 384 ∨ x = 400 → ¬EnabledBit par.fieldMap x := by
    intro x hx hbit
    rcases h.placed x hbit with ⟨w, hw, hmark, -⟩
    rcases inTable_of_marks htype hnamed hok w hw x hmark with ⟨i, hi, hfield⟩
    exact hnowhere x hx i hi hfield
  constructor
  · rw [Bool.eq_false_iff]
    intro henabled
    exact hnone 384 (.inl rfl) ⟨pppoeDestinationPort, by decide, henabled, by decide⟩
  · rw [Bool.eq_false_iff]
    intro henabled
    exact hnone 400 (.inr rfl) ⟨pppoeUserField1, by decide, henabled, by decide⟩

/-! ### When the entries are exact -/

/-- **Where `clsOffsetSet` returns OK, its entries match exactly the packets that agree with the
rule in the enabled fields**, if and only if the fields fit into the windows in one pass and
neither the destination port nor the user-defined word is among them. -/
theorem placedExactly_iff (htype : par.pktType = .pppoeIp) (hnamed : NamedFields par.fieldMap)
    (hok : clsOffsetSet par mem = .ok s) :
    PlacedExactly par mem s ↔
      fieldEnabled par.fieldMap pppoeDestinationPort = false ∧
        fieldEnabled par.fieldMap pppoeUserField1 = false ∧ FitsInOnePass par.fieldMap := by
  constructor
  · intro h
    rcases disabled_of_placedExactly htype hnamed hok h with ⟨hport, huser⟩
    exact ⟨hport, huser, fits_of_placedExactly htype hnamed hport huser hok h⟩
  · rintro ⟨hport, huser, hfits⟩
    exact placedExactly_of_fits htype hnamed hport huser hfits hok

end Run

/-- A rule on the source address and the destination of the IP packet. -/
def addressParameter (fieldMap : UInt32) : Parameter where
  pktType := .pppoeIp
  egressMask := false
  ingressMask := true
  maskPri := 1
  fieldMap := fieldMap
  ruleEntry := .zero
  pktRuleValue := fun i => UInt8.ofNat i.val
  pktUsrMask := fun _ => 0xFF

def zeroBeyond : Beyond := ⟨fun _ => (0, 0), fun _ => 0⟩

/-- The bits of a map have names when its 15 low ones are zero. -/
theorem namedFields_of_low {fieldMap : UInt32}
    (h : ∀ cnt < 32, 17 ≤ cnt → fieldEnabled fieldMap cnt = false) : NamedFields fieldMap := by
  intro cnt hlow hhigh
  exact h cnt (Nat.lt_trans hhigh (by decide)) hlow

theorem exists_of_isOk {x : Except OffsetError Search} (h : x.isOk = true) :
    ∃ s, x = .ok s := by
  cases x with
  | ok s => exact ⟨s, rfl⟩
  | error e => cases h

/-- The source address and the IP destination fit. -/
theorem addresses_placed : ∃ s, clsOffsetSet (addressParameter 0x40040000) zeroBeyond = .ok s ∧
    PlacedExactly (addressParameter 0x40040000) zeroBeyond s := by
  have hnamed : NamedFields 0x40040000 := namedFields_of_low (by decide +kernel)
  have hsome : (clsOffsetSet (addressParameter 0x40040000) zeroBeyond).isOk = true := by
    decide +kernel
  rcases exists_of_isOk hsome with ⟨s, hok⟩
  have hexact : PlacedExactly (addressParameter 0x40040000) zeroBeyond s ↔
      fieldEnabled 0x40040000 pppoeDestinationPort = false ∧
        fieldEnabled 0x40040000 pppoeUserField1 = false ∧ FitsInOnePass 0x40040000 :=
    placedExactly_iff rfl hnamed hok
  exact ⟨s, hok, hexact.mpr ⟨by decide +kernel, by decide +kernel, by decide +kernel⟩⟩

/-- IP version, protocol and destination: the last byte of the destination is written behind the
key, and in no window. -/
theorem destination_not_placed : ∃ s,
    clsOffsetSet (addressParameter 0x00540000) zeroBeyond = .ok s ∧
      ¬PlacedExactly (addressParameter 0x00540000) zeroBeyond s := by
  have hnamed : NamedFields 0x00540000 := namedFields_of_low (by decide +kernel)
  have hsome : (clsOffsetSet (addressParameter 0x00540000) zeroBeyond).isOk = true := by
    decide +kernel
  rcases exists_of_isOk hsome with ⟨s, hok⟩
  have hport : fieldEnabled 0x00540000 pppoeDestinationPort = false := by decide +kernel
  have huser : fieldEnabled 0x00540000 pppoeUserField1 = false := by decide +kernel
  have hfits : ¬FitsInOnePass 0x00540000 := by decide +kernel
  refine ⟨s, hok, fun h => hfits ?_⟩
  have hone : FitsInOnePass (addressParameter 0x00540000).fieldMap :=
    fits_of_placedExactly rfl hnamed hport huser hok h
  exact hone

end Opconn.Classify.OffsetSet
