import Opconn.Vos.ConfigTables

/-!
# Writing a module and reading it back

The lines that `vosConfigFlushByModule` writes are those that `vosConfigRefreshByModule`
reads, whatever their lengths: the buffer of `vosFGetWholeLine` grows with the line.  A line
gives back the section or the key and value that it was written for, as long as their texts
have none of the characters that stand for something else.
-/

namespace Opconn.Vos

open KeyedList

variable {bigEndian : Bool}

/-! ### Lines -/

/-- A line that fits is read with its newline, and of one that does not as much as fits. -/
theorem readChars_line {l : List UInt8} (hl : Ascii.newline ∉ l) (n : Nat) (rest : List UInt8) :
    readChars n (l ++ Ascii.newline :: rest) =
      if l.length < n then (l ++ [Ascii.newline], ⟨rest, false⟩)
      else (l.take n, ⟨l.drop n ++ Ascii.newline :: rest, false⟩) := by
  induction l generalizing n with
  | nil =>
    cases n with
    | zero => rfl
    | succ n => simp [readChars]
  | cons c l ih =>
    have hc : c ≠ Ascii.newline := by
      rintro rfl
      exact hl (List.mem_cons_self ..)
    cases n with
    | zero => rfl
    | succ n =>
      rw [List.cons_append, readChars, if_neg hc, ih (fun h => hl (List.mem_cons_of_mem _ h))]
      by_cases hlt : l.length < n
      · rw [if_pos hlt, if_pos (by simpa using hlt), List.cons_append]
      · rw [if_neg hlt, if_neg (by simpa using hlt), List.take_succ_cons, List.drop_succ_cons]

theorem takeWhile_nonzero {l : List UInt8} (h : (0 : UInt8) ∉ l) :
    l.takeWhile (· ≠ 0) = l := by
  rw [List.takeWhile_eq_self_iff]
  intro c hc
  simpa using fun heq : c = 0 => h (heq ▸ hc)

/-- The loop reads the rest of the line, from any length of the buffer on. -/
theorem wholeLineLoop_line {fuel bufsize : Nat} {a l : List UInt8} (hline : Ascii.newline ∉ l)
    (hzero : (0 : UInt8) ∉ l) (hbuf : a.length + 2 ≤ bufsize) (hfuel : l.length < fuel)
    (rest : List UInt8) :
    wholeLineLoop fuel bufsize a ⟨l ++ Ascii.newline :: rest, false⟩ =
      some (a ++ l ++ [Ascii.newline], ⟨rest, false⟩) := by
  induction fuel generalizing bufsize a l with
  | zero => omega
  | succ fuel ih =>
    rw [wholeLineLoop, fgets]
    simp only [readChars_line hline]
    by_cases hlt : l.length < bufsize - a.length - 1
    · have hnonzero : (0 : UInt8) ∉ l ++ [Ascii.newline] := by
        rw [List.mem_append, List.mem_singleton]
        rintro (hmem | heq)
        · exact hzero hmem
        · cases heq
      rw [if_pos hlt]
      simp only [List.append_eq_nil_iff, List.cons_ne_nil, and_false, if_false]
      rw [takeWhile_nonzero hnonzero]
      simp
    · have hne : l.take (bufsize - a.length - 1) ≠ [] := by
        rw [Ne, List.take_eq_nil_iff]
        rintro (h | rfl)
        · omega
        · simp at hlt
          omega
      have hnonzero : (0 : UInt8) ∉ l.take (bufsize - a.length - 1) :=
        fun hmem => hzero (List.mem_of_mem_take hmem)
      have hlast : (a ++ l.take (bufsize - a.length - 1)).getLast? ≠ some Ascii.newline := by
        intro hlast
        rw [List.getLast?_append_of_ne_nil _ hne] at hlast
        exact hline (List.mem_of_mem_take (List.mem_of_getLast? hlast))
      rw [if_neg hlt]
      simp only [hne, if_false]
      rw [takeWhile_nonzero hnonzero, if_neg (by simp [hne]), if_neg hlast, ih]
      · simp
      · exact fun hmem => hline (List.mem_of_mem_drop hmem)
      · exact fun hmem => hzero (List.mem_of_mem_drop hmem)
      · rw [List.length_append, List.length_take]
        omega
      · rw [List.length_drop]
        omega

theorem vosFGetWholeLine_line {l : List UInt8} (hline : Ascii.newline ∉ l) (hzero : (0 : UInt8) ∉ l)
    (rest : List UInt8) :
    vosFGetWholeLine ⟨l ++ Ascii.newline :: rest, false⟩ = some (some l, ⟨rest, false⟩) := by
  have hfuel : l.length < (l ++ Ascii.newline :: rest).length + 1 := by
    rw [List.length_append]
    omega
  rw [vosFGetWholeLine, wholeLineLoop_line hline hzero (by decide) hfuel]
  simp

/-- A file of lines is read line by line. -/
theorem refreshLoop_lines {lines : List CStr}
    (hlines : ∀ l ∈ lines, Ascii.newline ∉ l ∧ (0 : UInt8) ∉ l) {fuel : Nat}
    (hfuel : lines.length + 2 ≤ fuel) (r : Reader) :
    refreshLoop bigEndian fuel r ⟨lines.flatMap (· ++ [Ascii.newline]), false⟩ =
      lines.foldlM (readLine bigEndian) r := by
  induction lines generalizing fuel r with
  | nil =>
    obtain ⟨fuel, rfl⟩ := Nat.exists_eq_add_of_le' hfuel
    rfl
  | cons l lines ih =>
    rw [List.length_cons] at hfuel
    obtain ⟨hline, hzero⟩ := hlines l (List.mem_cons_self ..)
    have hrest : ∀ l ∈ lines, Ascii.newline ∉ l ∧ (0 : UInt8) ∉ l :=
      fun l hl => hlines l (List.mem_cons_of_mem _ hl)
    cases fuel with
    | zero => omega
    | succ fuel =>
      have hfuel' : lines.length + 2 ≤ fuel := by omega
      rw [List.flatMap_cons, List.append_assoc, List.singleton_append, refreshLoop,
        if_neg Bool.false_ne_true, vosFGetWholeLine_line hline hzero, List.foldlM_cons]
      simp only [Option.bind_eq_bind, Option.bind_some, ih hrest hfuel']

/-! ### One line -/

/-- A text without the characters that stand for something in a file. -/
structure Plain (s : CStr) : Prop where
  ne_nil : s ≠ []
  chars : ∀ c ∈ s, c ≠ 0 ∧ c ≠ Ascii.newline ∧ c ≠ Ascii.equals ∧ c ≠ Ascii.leftBracket ∧
    c ≠ Ascii.rightBracket ∧ c ≠ Ascii.hash ∧ c ≠ Ascii.semicolon
  head : ∀ c ∈ s.head?, isBlank c = false
  last : ∀ c ∈ s.getLast?, isBlank c = false ∧ c ≠ Ascii.carriageReturn

theorem Plain.dropWhile_append {s : CStr} (h : Plain s) (t : CStr) :
    (s ++ t).dropWhile isBlank = s ++ t := by
  cases s with
  | nil => exact absurd rfl h.ne_nil
  | cons c s =>
    have hc := h.head c rfl
    rw [List.cons_append, List.dropWhile_cons_of_neg (by simp [hc])]

theorem Plain.trim_eq {s : CStr} (h : Plain s) : trim s = s := by
  have hdrop : s.dropWhile isBlank = s := by
    simpa using h.dropWhile_append []
  rw [trim, hdrop, List.rdropWhile_eq_self_iff]
  intro hne hlast
  obtain ⟨hblank, hreturn⟩ := h.last _ (List.getLast?_eq_some_getLast hne)
  simp [hblank, hreturn] at hlast

theorem Plain.mem_ne {s : CStr} (h : Plain s) {c : UInt8}
    (hc : c = 0 ∨ c = Ascii.newline ∨ c = Ascii.equals ∨ c = Ascii.leftBracket ∨
      c = Ascii.rightBracket ∨ c = Ascii.hash ∨ c = Ascii.semicolon) : c ∉ s := by
  intro hmem
  have hne := h.chars c hmem
  tauto

theorem takeWhile_ne_append {c : UInt8} {s : CStr} (h : c ∉ s) (t : CStr) :
    (s ++ c :: t).takeWhile (· ≠ c) = s := by
  have hne : ∀ d ∈ s, decide (d ≠ c) = true := by
    intro d hd
    simpa using fun heq : d = c => h (heq ▸ hd)
  rw [List.takeWhile_append_of_pos hne, List.takeWhile_cons_of_neg (by simp), List.append_nil]

theorem dropWhile_ne_append {c : UInt8} {s : CStr} (h : c ∉ s) (t : CStr) :
    (s ++ c :: t).dropWhile (· ≠ c) = c :: t := by
  have hne : ∀ d ∈ s, decide (d ≠ c) = true := by
    intro d hd
    simpa using fun heq : d = c => h (heq ▸ hd)
  rw [List.dropWhile_append_of_pos hne, List.dropWhile_cons_of_neg (by simp)]

def sectionLine (name : CStr) : CStr := Ascii.leftBracket :: (name ++ [Ascii.rightBracket])

def keyLine (e : CStr × CfgKeyData) : CStr := e.1 ++ Ascii.equals :: e.2.data

theorem readLine_sectionLine {name : CStr} (h : Plain name) (r : Reader) :
    readLine bigEndian r (sectionLine name) =
      (sectionCreate bigEndian name r.sections).map (⟨·, some name⟩) := by
  have hmem : Ascii.rightBracket ∉ name := h.mem_ne (by simp)
  have htake := takeWhile_ne_append hmem []
  have hread : readLine bigEndian r (sectionLine name) =
      readSection bigEndian r (name ++ [Ascii.rightBracket]) := rfl
  rw [hread, readSection, if_pos (by simp), htake, h.trim_eq, if_neg h.ne_nil,
    Option.map_eq_bind]
  rfl

theorem readLine_keyLine {e : CStr × CfgKeyData} (hkey : Plain e.1) (hdata : Plain e.2.data)
    (sections : HashTable CStr CfgSectionData) (name : CStr) :
    readLine bigEndian ⟨sections, some name⟩ (keyLine e) =
      (keyInsert bigEndian name e.1 e.2.data sections).map (⟨·, some name⟩) := by
  have hmem : Ascii.equals ∉ e.1 := hkey.mem_ne (by simp)
  have hhead : ∀ c, c = Ascii.hash ∨ c = Ascii.semicolon ∨ c = Ascii.leftBracket →
      (keyLine e).head? ≠ some c := by
    intro c hc
    rw [keyLine, List.head?_append_of_ne_nil _ hkey.ne_nil]
    intro heq
    exact hkey.mem_ne (by tauto) (List.mem_of_head? heq)
  rw [readLine, show (keyLine e).dropWhile isBlank = keyLine e from hkey.dropWhile_append _]
  rw [if_neg (by simp [hhead]), if_neg (hhead _ (by simp)), readKey]
  dsimp only
  rw [if_pos (by simp [keyLine]), keyLine, takeWhile_ne_append hmem, dropWhile_ne_append hmem,
    List.tail_cons, hkey.trim_eq, hdata.trim_eq, Option.map_eq_bind]
  rfl

/-! ### The lines of a module -/

/-- The values of a section by their keys. -/
def CfgSectionData.contents (bigEndian : Bool) (tsection : CfgSectionData) (key : CStr) :
    Option CStr :=
  (vosHashValue (stringKeys bigEndian) key tsection.keys).map CfgKeyData.data

/-- The sections of a module by their names, with their values. -/
def CfgModuleData.contents (bigEndian : Bool) (tmodule : CfgModuleData) (name : CStr) :
    Option (CStr → Option CStr) :=
  (vosHashValue (stringKeys bigEndian) name tmodule.sections).map
    (CfgSectionData.contents bigEndian)

/-- `sections'` is `sections` with `tsection'` under the name. -/
structure SectionSet (bigEndian : Bool) (sections : HashTable CStr CfgSectionData) (name : CStr)
    (tsection' : CfgSectionData) (sections' : HashTable CStr CfgSectionData) : Prop where
  ok : Holds bigEndian (SectionOk bigEndian) sections'
  value : ∀ n, vosHashValue (stringKeys bigEndian) n sections' =
    if n = name then some tsection' else vosHashValue (stringKeys bigEndian) n sections
  count : sections'.count =
    if vosHashValue (stringKeys bigEndian) name sections = none then sections.count + 1
    else sections.count

theorem SectionSet.of_inserted {sections sections' : HashTable CStr CfgSectionData} {name : CStr}
    {tsection' : CfgSectionData} (h : Holds bigEndian (SectionOk bigEndian) sections)
    (hok : SectionOk bigEndian tsection')
    (hins : Inserted (stringKeys bigEndian) sections name tsection' sections') :
    SectionSet bigEndian sections name tsection' sections' :=
  ⟨h.inserted hok hins, hins.value_eq, hins.count⟩

theorem SectionSet.trans {sections₁ sections₂ sections₃ : HashTable CStr CfgSectionData}
    {name : CStr} {tsection₂ tsection₃ : CfgSectionData}
    (h : SectionSet bigEndian sections₁ name tsection₂ sections₂)
    (h' : SectionSet bigEndian sections₂ name tsection₃ sections₃) :
    SectionSet bigEndian sections₁ name tsection₃ sections₃ := by
  refine ⟨h'.ok, ?_, ?_⟩
  · intro n
    rw [h'.value, h.value]
    split <;> rfl
  · have hsome : vosHashValue (stringKeys bigEndian) name sections₂ ≠ none := by
      rw [h.value, if_pos rfl]
      rintro ⟨⟩
    rw [h'.count, if_neg hsome, h.count]

theorem keyInsert_set {sections : HashTable CStr CfgSectionData} {name : CStr}
    {tsection : CfgSectionData} (h : Holds bigEndian (SectionOk bigEndian) sections)
    (hvalue : vosHashValue (stringKeys bigEndian) name sections = some tsection)
    (hcount : tsection.keys.count < tableLimit) (key value : CStr) :
    ∃ sections' keys, keyInsert bigEndian name key value sections = some sections' ∧
      SectionSet bigEndian sections name { tsection with keys := keys } sections' ∧
      Inserted (stringKeys bigEndian) tsection.keys key ⟨false, value⟩ keys := by
  have hsection : Sound (stringKeys bigEndian) tsection.keys := h.data name tsection hvalue
  obtain ⟨keys, hkeys, hins⟩ := hsection.insert key ⟨false, value⟩ hcount
  have hset := h.sound.setData (by rw [hvalue]; rintro ⟨⟩) { tsection with keys := keys }
  refine ⟨_, keys, ?_, .of_inserted h hins.sound hset, hins⟩
  rw [keyInsert, hvalue]
  simp only [Option.bind_eq_bind, Option.bind_some, hkeys]

/-- The key lines of a section, read after its section line. -/
theorem read_keyLines {l : List (CStr × CfgKeyData)}
    (hl : ∀ e ∈ l, Plain e.1 ∧ Plain e.2.data)
    (hdistinct : Distinct (stringKeys bigEndian).toKeyEq l)
    {sections : HashTable CStr CfgSectionData} {name : CStr} {tsection : CfgSectionData}
    (h : Holds bigEndian (SectionOk bigEndian) sections)
    (hvalue : vosHashValue (stringKeys bigEndian) name sections = some tsection)
    (hcount : tsection.keys.count + l.length ≤ tableLimit) :
    ∃ sections' tsection',
      (l.map keyLine).foldlM (readLine bigEndian) ⟨sections, some name⟩ =
        some ⟨sections', some name⟩ ∧
      SectionSet bigEndian sections name tsection' sections' ∧
      ∀ k, tsection'.contents bigEndian k =
        ((lookup (stringKeys bigEndian).toKeyEq k l).map CfgKeyData.data).or
          (tsection.contents bigEndian k) := by
  induction l generalizing sections tsection with
  | nil =>
    refine ⟨sections, tsection, rfl, ⟨h, ?_, ?_⟩, ?_⟩
    · intro n
      split
      · next heq => rw [heq, hvalue]
      · rfl
    · rw [if_neg (by rw [hvalue]; rintro ⟨⟩)]
    · intro k
      rfl
  | cons e l ih =>
    obtain ⟨-, htail⟩ := List.pairwise_cons.mp hdistinct
    obtain ⟨hkey, hdata⟩ := hl e (List.mem_cons_self ..)
    rw [List.length_cons] at hcount
    obtain ⟨sections₁, keys, hinsert, hset, hins⟩ :=
      keyInsert_set h hvalue (by omega) e.1 e.2.data
    have hcount₁ : keys.count + l.length ≤ tableLimit := by
      rw [hins.count]
      split <;> omega
    have hvalue₁ : vosHashValue (stringKeys bigEndian) name sections₁ =
        some { tsection with keys := keys } := by
      rw [hset.value, if_pos rfl]
    obtain ⟨sections', tsection', hrun, hset', hcontents⟩ :=
      ih (fun e he => hl e (List.mem_cons_of_mem _ he)) htail hset.ok hvalue₁ hcount₁
    refine ⟨sections', tsection', ?_, hset.trans hset', ?_⟩
    · rw [List.map_cons, List.foldlM_cons, readLine_keyLine hkey hdata, hinsert]
      exact hrun
    · intro k
      rw [hcontents, lookup_cons, stringKeys_same]
      by_cases hk : k = e.1
      · have hnone : lookup (stringKeys bigEndian).toKeyEq k l = none :=
          hdistinct.lookup_tail (by rw [hk, KeyEq.refl])
        rw [hnone, if_pos (by simp [hk]), CfgSectionData.contents, hins.value_eq, if_pos hk]
        rfl
      · rw [if_neg (by simp [hk]), CfgSectionData.contents, hins.value_eq, if_neg hk]
        rfl

def sectionLines (e : CStr × CfgSectionData) : List CStr :=
  sectionLine e.1 :: e.2.keys.entries.map keyLine

/-- The texts of a section are plain. -/
structure SectionPlain (e : CStr × CfgSectionData) : Prop where
  name : Plain e.1
  texts : ∀ f ∈ e.2.keys.entries, Plain f.1 ∧ Plain f.2.data

/-- All lines of a section whose name is new. -/
theorem read_sectionLines {e : CStr × CfgSectionData} (he : SectionPlain e)
    (hfits : e.2.keys.count ≤ tableLimit) (hsound : SectionOk bigEndian e.2) {r : Reader}
    (h : Holds bigEndian (SectionOk bigEndian) r.sections)
    (hnew : vosHashValue (stringKeys bigEndian) e.1 r.sections = none)
    (hcount : r.sections.count < tableLimit) :
    ∃ sections' tsection', (sectionLines e).foldlM (readLine bigEndian) r =
        some ⟨sections', some e.1⟩ ∧
      SectionSet bigEndian r.sections e.1 tsection' sections' ∧
      tsection'.contents bigEndian = e.2.contents bigEndian := by
  let fresh : HashTable CStr CfgKeyData := emptyTable 13 1
  have hcreate : vosHashCreate 0 = some fresh := rfl
  have hfresh : SectionOk bigEndian ⟨false, fresh⟩ := (refines_create hcreate).sound
  obtain ⟨sections₁, hinsert, hins⟩ := h.sound.insert e.1 ⟨false, fresh⟩ hcount
  have hset := SectionSet.of_inserted h hfresh hins
  have hsection : sectionCreate bigEndian e.1 r.sections = some sections₁ := by
    rw [sectionCreate, hnew]
    exact hinsert
  have hvalue₁ : vosHashValue (stringKeys bigEndian) e.1 sections₁ = some ⟨false, fresh⟩ := by
    rw [hset.value, if_pos rfl]
  have hlength : fresh.count + e.2.keys.entries.length ≤ tableLimit := by
    have hzero : fresh.count = 0 := rfl
    rw [Sound.length_entries hsound] at hfits
    omega
  obtain ⟨sections', tsection', hrun, hset', hcontents⟩ :=
    read_keyLines he.texts (Sound.entries_distinct hsound) hset.ok hvalue₁ hlength
  refine ⟨sections', tsection', ?_, hset.trans hset', ?_⟩
  · rw [sectionLines, List.foldlM_cons, readLine_sectionLine he.name, hsection]
    exact hrun
  · funext k
    rw [hcontents, Sound.lookup_entries hsound]
    exact Option.or_none

/-- The lines of all sections. -/
theorem read_sections {l : List (CStr × CfgSectionData)}
    (hl : ∀ e ∈ l, SectionPlain e ∧ e.2.keys.count ≤ tableLimit ∧ SectionOk bigEndian e.2)
    (hdistinct : Distinct (stringKeys bigEndian).toKeyEq l) {r : Reader}
    (h : Holds bigEndian (SectionOk bigEndian) r.sections)
    (hnew : ∀ e ∈ l, vosHashValue (stringKeys bigEndian) e.1 r.sections = none)
    (hcount : r.sections.count + l.length ≤ tableLimit) :
    ∃ r', (l.flatMap sectionLines).foldlM (readLine bigEndian) r = some r' ∧
      ∀ name, CfgModuleData.contents bigEndian ⟨r'.sections⟩ name =
        ((lookup (stringKeys bigEndian).toKeyEq name l).map
          (CfgSectionData.contents bigEndian)).or
          (CfgModuleData.contents bigEndian ⟨r.sections⟩ name) := by
  induction l generalizing r with
  | nil => exact ⟨r, rfl, fun _ => rfl⟩
  | cons e l ih =>
    obtain ⟨hhead, htail⟩ := List.pairwise_cons.mp hdistinct
    obtain ⟨hplain, hfits, hsound⟩ := hl e (List.mem_cons_self ..)
    have hnone := hnew e (List.mem_cons_self ..)
    rw [List.length_cons] at hcount
    obtain ⟨sections₁, tsection₁, hread, hset, hcontents₁⟩ :=
      read_sectionLines hplain hfits hsound h hnone (by omega)
    have hcount₁ : sections₁.count + l.length ≤ tableLimit := by
      rw [hset.count, if_pos hnone]
      omega
    have hne : ∀ f ∈ l, f.1 ≠ e.1 := by
      intro f hf heq
      have hfalse := hhead f hf
      rw [stringKeys_same, heq, decide_eq_false_iff_not] at hfalse
      exact hfalse rfl
    have hnew₁ : ∀ f ∈ l, vosHashValue (stringKeys bigEndian) f.1 sections₁ = none := by
      intro f hf
      rw [hset.value, if_neg (hne f hf)]
      exact hnew f (List.mem_cons_of_mem _ hf)
    obtain ⟨r', hrun, hcontents⟩ :=
      ih (fun e he => hl e (List.mem_cons_of_mem _ he)) htail (r := ⟨sections₁, some e.1⟩) hset.ok
        hnew₁ hcount₁
    refine ⟨r', ?_, ?_⟩
    · rw [List.flatMap_cons, List.foldlM_append, hread]
      exact hrun
    · intro name
      rw [hcontents, lookup_cons, stringKeys_same]
      by_cases hname : name = e.1
      · have hnone' : lookup (stringKeys bigEndian).toKeyEq name l = none :=
          hdistinct.lookup_tail (by rw [hname, KeyEq.refl])
        rw [hnone', if_pos (by simp [hname]), CfgModuleData.contents, hset.value, if_pos hname]
        exact congrArg some hcontents₁
      · rw [if_neg (by simp [hname]), CfgModuleData.contents, hset.value, if_neg hname]
        rfl

/-! ### The file of a module -/

theorem flushKeyText_reset (key : CStr) (tkey : CfgKeyData) :
    flushKeyText key (flushKeyReset key tkey) = keyLine (key, tkey) ++ [Ascii.newline] := rfl

theorem flushSectionText_reset (name : CStr) (tsection : CfgSectionData) :
    flushSectionText name (flushSectionReset name tsection) =
      (sectionLines (name, tsection)).flatMap (· ++ [Ascii.newline]) := by
  rw [flushSectionText, flushSectionReset, if_neg Bool.false_ne_true, entries_mapData,
    List.flatMap_map, sectionLines, List.flatMap_cons, List.flatMap_map, sectionLine]
  simp only [flushKeyText_reset]
  simp

/-- The file that is written has the lines of the sections. -/
theorem flushed_text (sections : HashTable CStr CfgSectionData) :
    (mapData flushSectionReset sections).entries.flatMap (fun e => flushSectionText e.1 e.2) =
      (sections.entries.flatMap sectionLines).flatMap (· ++ [Ascii.newline]) := by
  rw [entries_mapData, List.flatMap_map, List.flatMap_assoc]
  simp only [flushSectionText_reset]

/-- No line has a newline or a zero inside. -/
theorem SectionPlain.lines {e : CStr × CfgSectionData} (h : SectionPlain e) :
    ∀ l ∈ sectionLines e, Ascii.newline ∉ l ∧ (0 : UInt8) ∉ l := by
  have hplain : ∀ c : UInt8, c = 0 ∨ c = Ascii.newline → ∀ l ∈ sectionLines e, c ∉ l := by
    intro c hc l hl
    have hne : c ≠ Ascii.leftBracket ∧ c ≠ Ascii.rightBracket ∧ c ≠ Ascii.equals := by
      rcases hc with rfl | rfl <;> decide
    rw [sectionLines, List.mem_cons, List.mem_map] at hl
    rcases hl with rfl | ⟨f, hf, rfl⟩
    · have hname : c ∉ e.1 := h.name.mem_ne (by tauto)
      rw [sectionLine, List.mem_cons, List.mem_append, List.mem_singleton]
      tauto
    · obtain ⟨hkey, hdata⟩ := h.texts f hf
      have hkey' : c ∉ f.1 := hkey.mem_ne (by tauto)
      have hdata' : c ∉ f.2.data := hdata.mem_ne (by tauto)
      rw [keyLine, List.mem_append, List.mem_cons]
      tauto
  intro l hl
  exact ⟨hplain _ (Or.inr rfl) l hl, hplain _ (Or.inl rfl) l hl⟩

theorem length_le_flatMap_newline (lines : List CStr) :
    lines.length ≤ (lines.flatMap (· ++ [Ascii.newline])).length := by
  induction lines with
  | nil => exact le_refl _
  | cons l lines ih =>
    rw [List.flatMap_cons, List.length_append, List.length_append, List.length_cons,
      List.length_singleton]
    omega

/-- No table of the module is larger than a table can be.  An entry takes twelve bytes, so that
the memory of a 32-bit processor is full before. -/
structure ModuleFits (tmodule : CfgModuleData) : Prop where
  sections : tmodule.sections.count ≤ tableLimit
  keys : ∀ e ∈ tmodule.sections.entries, e.2.keys.count ≤ tableLimit

/-- A file with the lines of a module is read into an empty store. -/
theorem refresh_lines {tmodule : CfgModuleData} (h : ModuleOk bigEndian tmodule)
    (hplain : ∀ e ∈ tmodule.sections.entries, SectionPlain e) (hfits : ModuleFits tmodule)
    {files : CStr → Option CStr} {fname : CStr}
    (hfile : files fname =
      some ((tmodule.sections.entries.flatMap sectionLines).flatMap (· ++ [Ascii.newline]))) :
    ∃ cfg' db' tmodule', vosConfigRefreshByModule bigEndian (Config.start files) fname =
        some (cfg', 0) ∧ cfg'.database = some db' ∧
      vosHashValue (stringKeys bigEndian) fname db' = some tmodule' ∧
      tmodule'.contents bigEndian = tmodule.contents bigEndian := by
  let db : HashTable CStr CfgModuleData := emptyTable 13 1
  let fresh : HashTable CStr CfgSectionData := emptyTable 13 1
  have hdb : Holds bigEndian (ModuleOk bigEndian) db := Holds.create rfl
  have hfresh : Holds bigEndian (SectionOk bigEndian) fresh := Holds.create rfl
  obtain ⟨db₁, hinsert, hins⟩ := hdb.sound.insert fname ⟨fresh⟩ (by decide)
  have hcreate : moduleCreate bigEndian fname db = some db₁ := hinsert
  have hmodule : vosHashValue (stringKeys bigEndian) fname db₁ = some ⟨fresh⟩ := by
    rw [hins.value_eq, if_pos rfl]
  have hall : ∀ e ∈ tmodule.sections.entries,
      SectionPlain e ∧ e.2.keys.count ≤ tableLimit ∧ SectionOk bigEndian e.2 := by
    intro e he
    refine ⟨hplain e he, hfits.keys e he, h.data e.1 e.2 ?_⟩
    rw [← h.sound.lookup_entries, h.sound.entries_distinct.lookup_eq_some_iff]
    exact ⟨e, he, (stringKeys bigEndian).refl e.1, rfl⟩
  have hcount : fresh.count + tmodule.sections.entries.length ≤ tableLimit := by
    have hzero : fresh.count = 0 := rfl
    have hsections := hfits.sections
    rw [h.sound.length_entries] at hsections
    omega
  obtain ⟨r, hrun, hcontents⟩ := read_sections hall h.sound.entries_distinct
    (r := ⟨fresh, none⟩) hfresh (fun _ _ => rfl) hcount
  have hlines : ∀ l ∈ tmodule.sections.entries.flatMap sectionLines,
      Ascii.newline ∉ l ∧ (0 : UInt8) ∉ l := by
    intro l hl
    obtain ⟨e, he, hmem⟩ := List.mem_flatMap.mp hl
    exact (hplain e he).lines l hmem
  have hloop : refreshLoop bigEndian _ ⟨fresh, none⟩ _ = _ := refreshLoop_lines hlines
    (Nat.add_le_add_right (length_le_flatMap_newline _) 2) ⟨fresh, none⟩
  have hset := hins.sound.setData (by rw [hmodule]; rintro ⟨⟩) (⟨r.sections⟩ : CfgModuleData)
  refine ⟨⟨some (setData bigEndian fname ⟨r.sections⟩ db₁), files⟩, _, ⟨r.sections⟩, ?_, rfl, ?_, ?_⟩
  · have hstart : (Config.start files).database = some db := rfl
    rw [vosConfigRefreshByModule, hstart]
    simp only [Option.bind_eq_bind, hcreate, Option.bind_some]
    rw [show (Config.start files).files fname = _ from hfile]
    simp only [hmodule, Option.bind_some, hloop, hrun]
    rfl
  · rw [hset.value_eq, if_pos rfl]
  · funext name
    rw [hcontents, h.sound.lookup_entries]
    exact Option.or_none

/-- **A module that is written and read back is the same**, in every store that the interface
reaches. -/
theorem flush_refresh_round_trip (bigEndian : Bool) {files : CStr → Option CStr}
    {calls : List ConfigCall} {cfg : Config}
    (hrun : configRun bigEndian (Config.start files) calls = some cfg)
    {db : HashTable CStr CfgModuleData} (hdb : cfg.database = some db) {fname : CStr}
    (hname : fname ≠ []) {tmodule : CfgModuleData}
    (hmodule : vosHashValue (stringKeys bigEndian) fname db = some tmodule)
    (hplain : ∀ e ∈ tmodule.sections.entries, SectionPlain e) (hfits : ModuleFits tmodule) :
    (vosConfigFlushByModule bigEndian true cfg fname).2 = 0 ∧
      ∃ cfg' db' tmodule',
        vosConfigRefreshByModule bigEndian
            (Config.start (vosConfigFlushByModule bigEndian true cfg fname).1.files) fname =
          some (cfg', 0) ∧
        cfg'.database = some db' ∧
        vosHashValue (stringKeys bigEndian) fname db' = some tmodule' ∧
        tmodule'.contents bigEndian = tmodule.contents bigEndian := by
  have hok := ConfigOk.run (ConfigOk.start files) hrun
  have hold : ModuleOk bigEndian tmodule := (hok db hdb).data fname tmodule hmodule
  rw [vosConfigFlushByModule, if_neg hname, hdb]
  simp only [hmodule, if_true]
  refine ⟨trivial, refresh_lines hold hplain hfits ?_⟩
  rw [Function.update_self, flushed_text]

/-- One section with one key. -/
theorem flush_refresh_round_trip_one_key :
    ∃ (cfg : Config) (tmodule : CfgModuleData),
      configRun false (Config.start fun _ => none) [.valueSet [102] [115] [107] [118]] = some cfg ∧
      (tmodule.contents false [115]).isSome ∧
      (vosConfigFlushByModule false true cfg [102]).2 = 0 ∧
      ∃ cfg' db' tmodule',
        vosConfigRefreshByModule false
            (Config.start (vosConfigFlushByModule false true cfg [102]).1.files) [102] =
          some (cfg', 0) ∧
        cfg'.database = some db' ∧
        vosHashValue (stringKeys false) [102] db' = some tmodule' ∧
        tmodule'.contents false = tmodule.contents false := by
  obtain ⟨cfg, db, tmodule, tsection, hrun, hdb, hmodule, hsome, hsections, hkeys, hcount,
    hcount'⟩ :
      ∃ (cfg : Config) (db : HashTable CStr CfgModuleData) (tmodule : CfgModuleData)
        (tsection : CfgSectionData),
        configRun false (Config.start fun _ => none) [.valueSet [102] [115] [107] [118]] =
          some cfg ∧
        cfg.database = some db ∧ vosHashValue (stringKeys false) [102] db = some tmodule ∧
        (tmodule.contents false [115]).isSome = true ∧ tmodule.sections.entries = [([115], tsection)] ∧
        tsection.keys.entries = [([107], ⟨false, [118]⟩)] ∧ tmodule.sections.count = 1 ∧
        tsection.keys.count = 1 :=
    ⟨_, _, _, _, rfl, rfl, rfl, rfl, rfl, rfl, rfl, rfl⟩
  have hchar : ∀ c : UInt8, c = 107 ∨ c = 115 ∨ c = 118 → Plain [c] := by
    rintro c (rfl | rfl | rfl) <;>
      exact ⟨by decide +kernel, by decide +kernel, by decide +kernel, by decide +kernel⟩
  have hplain : ∀ e ∈ tmodule.sections.entries, SectionPlain e := by
    rw [hsections]
    rintro e he
    cases List.mem_singleton.mp he
    refine ⟨hchar _ (by decide), ?_⟩
    rw [hkeys]
    rintro f hf
    cases List.mem_singleton.mp hf
    exact ⟨hchar _ (by decide), hchar _ (by decide)⟩
  have hfits : ModuleFits tmodule := by
    refine ⟨by rw [hcount]; decide, ?_⟩
    rw [hsections]
    rintro e he
    cases List.mem_singleton.mp he
    rw [hcount']
    decide
  exact ⟨cfg, tmodule, hrun, hsome,
    flush_refresh_round_trip false hrun hdb (by decide) hmodule hplain hfits⟩

end Opconn.Vos
