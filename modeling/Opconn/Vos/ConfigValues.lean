import Opconn.Vos.ConfigTables

/-!
# The values of the configuration

What is set under a key is what is found there, and every other key keeps its value.  A number
is stored as its decimal text, which `strtoul` reads back.
-/

namespace Opconn.Vos

/-! ### Reading and setting -/

section

variable (bigEndian : Bool)

/-- The value under a key of a section. -/
def keyValue (name key : CStr) (sections : HashTable CStr CfgSectionData) : Option CStr := do
  let tsection ← vosHashValue (stringKeys bigEndian) name sections
  let tkey ← vosHashValue (stringKeys bigEndian) key tsection.keys
  some tkey.data

/-- The same, from the table of the modules. -/
def moduleKeyValue (fname name key : CStr) (db : HashTable CStr CfgModuleData) : Option CStr := do
  let tmodule ← vosHashValue (stringKeys bigEndian) fname db
  keyValue bigEndian name key tmodule.sections

/-- `vosConfigValueGet`; where there is no value it returns the default it was given. -/
def vosConfigValueGet (cfg : Config) (fname name key : CStr) : Option CStr := do
  let db ← cfg.database
  moduleKeyValue bigEndian fname name key db

/-- The value of a digit in a base of 36 at most; 36 for any other character. -/
def digitValue (c : UInt8) : Nat :=
  if 48 ≤ c ∧ c ≤ 57 then c.toNat - 48
  else if 97 ≤ c ∧ c ≤ 122 then c.toNat - 87
  else if 65 ≤ c ∧ c ≤ 90 then c.toNat - 55
  else 36

/-- The number that a text starts with. -/
def digitsValue (base : Nat) (s : CStr) : Nat :=
  (s.takeWhile fun c => digitValue c < base).foldl (fun n c => base * n + digitValue c) 0

/-- The same where the base is read from the text. -/
def prefixedValue (s : CStr) : Nat :=
  if s.head? = some 48 then
    if s[1]? = some 120 ∨ s[1]? = some 88 then digitsValue 16 (s.drop 2) else digitsValue 8 s
  else digitsValue 10 s

def isSpace (c : UInt8) : Bool := c = 32 || 9 ≤ c && c ≤ 13

/-- `strtoul` in base 0; `unsigned long` has 32 bits. -/
def strtoul (s : CStr) : UInt32 :=
  let s := s.dropWhile isSpace
  let negative := s.head? = some 45
  let n := prefixedValue (if negative ∨ s.head? = some 43 then s.tail else s)
  if 2 ^ 32 ≤ n then UInt32.ofNat (2 ^ 32 - 1)
  else if negative then -UInt32.ofNat n
  else UInt32.ofNat n

/-- What `sprintf` makes of a number with `%u`. -/
def uintText (n : UInt32) : CStr := (Nat.toDigits 10 n.toNat).map fun c => c.toNat.toUInt8

/-- `vosConfigUInt32Get`. -/
def vosConfigUInt32Get (cfg : Config) (fname name key : CStr) (defaultValue : UInt32) : UInt32 :=
  match vosConfigValueGet bigEndian cfg fname name key with
  | none => defaultValue
  | some value => strtoul value

/-- `vosConfigUInt32Set`. -/
def vosConfigUInt32Set (cfg : Config) (fname name key : CStr) (value : UInt32) :
    Option (Config × Int) :=
  vosConfigValueSet bigEndian cfg fname name key (uintText value)

end

variable {β : Type*} {bigEndian : Bool}

/-! ### Numbers as texts -/

theorem head_toDigits {n : Nat} (hn : 0 < n) : (Nat.toDigits 10 n).head? ≠ some '0' := by
  induction n using Nat.strong_induction_on with
  | _ n ih =>
    by_cases hlt : n < 10
    · rw [Nat.toDigits_of_lt_base hlt]
      have hdigit : ∀ d < 10, 0 < d → [Nat.digitChar d].head? ≠ some '0' := by decide
      exact hdigit n hlt hn
    · rw [Nat.toDigits_of_base_le (by decide) (by omega),
        List.head?_append_of_ne_nil _ Nat.toDigits_ne_nil]
      exact ih (n / 10) (by omega) (by omega)

/-- The byte of a decimal digit. -/
theorem byte_of_isDigit {c : Char} (h : c.isDigit = true) :
    48 ≤ c.toNat ∧ c.toNat ≤ 57 ∧ c.toNat.toUInt8.toNat = c.toNat := by
  simp only [Char.isDigit, Bool.and_eq_true, decide_eq_true_eq] at h
  have hlow : 48 ≤ c.toNat := h.1
  have hhigh : c.toNat ≤ 57 := h.2
  refine ⟨hlow, hhigh, ?_⟩
  show c.toNat % 256 = c.toNat
  omega

theorem digitValue_of_isDigit {c : Char} (h : c.isDigit = true) :
    digitValue c.toNat.toUInt8 = c.toNat - 48 := by
  obtain ⟨hlow, hhigh, hbyte⟩ := byte_of_isDigit h
  rw [digitValue, if_pos, hbyte]
  rw [UInt8.le_iff_toNat_le, UInt8.le_iff_toNat_le, hbyte]
  exact ⟨hlow, hhigh⟩

theorem digitsValue_digits {l : List Char} (h : ∀ c ∈ l, c.isDigit = true) :
    digitsValue 10 (l.map fun c => c.toNat.toUInt8) = Nat.ofDigitChars 10 l 0 := by
  have hall : (l.map fun c => c.toNat.toUInt8).takeWhile (fun c => digitValue c < 10) =
      l.map fun c => c.toNat.toUInt8 := by
    rw [List.takeWhile_eq_self_iff]
    intro b hb
    obtain ⟨c, hc, rfl⟩ := List.mem_map.mp hb
    obtain ⟨hlow, hhigh, -⟩ := byte_of_isDigit (h c hc)
    rw [digitValue_of_isDigit (h c hc), decide_eq_true_eq]
    omega
  rw [digitsValue, hall, List.foldl_map, Nat.ofDigitChars_eq_foldl]
  apply List.foldl_ext
  intro n c hc
  rw [digitValue_of_isDigit (h c hc)]
  rfl

theorem isDigit_toDigits {n : Nat} : ∀ c ∈ Nat.toDigits 10 n, c.isDigit = true :=
  fun _ hc => Nat.isDigit_of_mem_toDigits (by decide) (by decide) hc

theorem digitsValue_uintText (n : UInt32) : digitsValue 10 (uintText n) = n.toNat := by
  rw [uintText, digitsValue_digits isDigit_toDigits, Nat.ofDigitChars_ten_toDigits]

/-- The text of a number other than zero starts with none of what `strtoul` looks for. -/
theorem uintText_cons {n : UInt32} (hn : 0 < n.toNat) :
    ∃ b s, uintText n = b :: s ∧ 48 < b.toNat ∧ b.toNat ≤ 57 := by
  obtain ⟨c, cs, hcons⟩ :=
    List.exists_cons_of_ne_nil (Nat.toDigits_ne_nil (b := 10) (n := n.toNat))
  have hdigit : c.isDigit = true := isDigit_toDigits c (hcons ▸ List.mem_cons_self ..)
  have hzero : c.toNat ≠ 48 := by
    intro h
    have hc : c = '0' := Char.toNat_inj.mp h
    exact head_toDigits hn (by rw [hcons, hc]; rfl)
  obtain ⟨hlow, hhigh, hbyte⟩ := byte_of_isDigit hdigit
  refine ⟨c.toNat.toUInt8, cs.map fun c => c.toNat.toUInt8, ?_, ?_, ?_⟩
  · rw [uintText, hcons, List.map_cons]
  · omega
  · omega

/-- **A number is read back.** -/
theorem strtoul_uintText (n : UInt32) : strtoul (uintText n) = n := by
  by_cases hn : n = 0
  · rw [hn]
    decide
  · have hpos : 0 < n.toNat :=
      Nat.pos_of_ne_zero fun h => hn (UInt32.toNat_inj.mp h)
    have hlt : n.toNat < 2 ^ 32 := n.toNat_lt
    obtain ⟨b, s, htext, hlow, hhigh⟩ := uintText_cons hpos
    have hne : ∀ c : UInt8, c.toNat < 49 → ¬b = c := by
      rintro c hc rfl
      omega
    have hspace : isSpace b = false := by
      have hle : ¬b ≤ 13 := by
        rw [UInt8.le_iff_toNat_le]
        show ¬b.toNat ≤ 13
        omega
      simp [isSpace, hne 32 (by decide), hle]
    have hvalue : prefixedValue (b :: s) = n.toNat := by
      have hhead : ¬(b :: s).head? = some 48 := fun h => hne 48 (by decide) (Option.some.inj h)
      rw [prefixedValue, if_neg hhead, ← htext, digitsValue_uintText]
    rw [htext, strtoul]
    simp only [List.dropWhile_cons_of_neg, hspace, Bool.false_eq_true, not_false_eq_true,
      List.head?_cons, Option.some.injEq, hne 45 (by decide), hne 43 (by decide), or_self, if_false,
      hvalue]
    rw [if_neg (by omega), UInt32.ofNat_toNat]

/-! ### What a set changes -/

theorem value_keyInsert {sections sections' : HashTable CStr CfgSectionData}
    {name key value : CStr} (h : Holds bigEndian (SectionOk bigEndian) sections)
    (hins : keyInsert bigEndian name key value sections = some sections') (n k : CStr) :
    keyValue bigEndian n k sections' =
      if n = name ∧ k = key then some value else keyValue bigEndian n k sections := by
  obtain ⟨tsection, hvalue, hrest⟩ := Option.bind_eq_some_iff.mp hins
  obtain ⟨keys, hkeys, heq⟩ := Option.bind_eq_some_iff.mp hrest
  cases heq
  have hsection : SectionOk bigEndian tsection := h.data name tsection hvalue
  have hkey := (hsection.inserted hkeys).value_eq k
  have hname := (h.sound.setData (by rw [hvalue]; nofun) { tsection with keys := keys }).value_eq n
  rw [keyValue, hname]
  by_cases hn : n = name
  · subst hn
    by_cases hk : k = key
    · rw [if_pos rfl, if_pos ⟨rfl, hk⟩]
      rw [if_pos hk] at hkey
      simp only [Option.bind_eq_bind, Option.bind_some, hkey]
    · rw [if_pos rfl, if_neg fun h => hk h.2, keyValue, hvalue]
      rw [if_neg hk] at hkey
      simp only [Option.bind_eq_bind, Option.bind_some, hkey]
  · rw [if_neg hn, if_neg fun h => hn h.1]
    rfl

theorem value_create {tab : HashTable CStr β} (h : vosHashCreate 0 = some tab) (k : CStr) :
    vosHashValue (stringKeys bigEndian) k tab = none := by
  have hrefines : Refines (stringKeys bigEndian) [] tab := refines_create h
  exact hrefines.value k

theorem value_sectionCreate {sections sections' : HashTable CStr CfgSectionData} {name : CStr}
    (h : Holds bigEndian (SectionOk bigEndian) sections)
    (hcreate : sectionCreate bigEndian name sections = some sections') (n k : CStr) :
    keyValue bigEndian n k sections' = keyValue bigEndian n k sections := by
  rw [sectionCreate] at hcreate
  split at hcreate
  · cases hcreate
    rfl
  · next hnew =>
    obtain ⟨keys, hkeys, hinsert⟩ := Option.bind_eq_some_iff.mp hcreate
    have hname := (h.sound.inserted hinsert).value_eq n
    rw [keyValue, hname, keyValue]
    split
    · next hn =>
      rw [hn, hnew]
      simp only [Option.bind_eq_bind, Option.bind_some, value_create hkeys, Option.bind_none]
    · rfl

theorem value_moduleCreate {db db' : HashTable CStr CfgModuleData} {fname : CStr}
    (h : Holds bigEndian (ModuleOk bigEndian) db)
    (hcreate : moduleCreate bigEndian fname db = some db') (f n k : CStr) :
    moduleKeyValue bigEndian f n k db' = moduleKeyValue bigEndian f n k db := by
  rw [moduleCreate] at hcreate
  split at hcreate
  · cases hcreate
    rfl
  · next hnew =>
    obtain ⟨sections, hsections, hinsert⟩ := Option.bind_eq_some_iff.mp hcreate
    have hmodule := (h.sound.inserted hinsert).value_eq f
    rw [moduleKeyValue, hmodule, moduleKeyValue]
    split
    · next hf =>
      rw [hf, hnew]
      simp only [Option.bind_eq_bind, Option.bind_some, keyValue, value_create hsections,
        Option.bind_none]
    · rfl

/-- `cfg'` is `cfg` with a value set under a key. -/
structure ValueSet (bigEndian : Bool) (cfg : Config) (fname name key value : CStr)
    (cfg' : Config) : Prop where
  ok : ConfigOk bigEndian cfg'
  database : cfg'.database.isSome = true
  value : ∀ f n k, vosConfigValueGet bigEndian cfg' f n k =
    if f = fname ∧ n = name ∧ k = key then some value else vosConfigValueGet bigEndian cfg f n k

/-- **What is set is what is found.** -/
theorem ConfigOk.valueSet_value {cfg cfg' : Config} (h : ConfigOk bigEndian cfg)
    (hdatabase : cfg.database.isSome = true) {fname name key value : CStr} {rv : Int}
    (hset : vosConfigValueSet bigEndian cfg fname name key value = some (cfg', rv)) :
    rv = 0 ∧ ValueSet bigEndian cfg fname name key value cfg' := by
  have hok := h.valueSet hset
  obtain ⟨db, hdb⟩ := Option.isSome_iff_exists.mp hdatabase
  rw [vosConfigValueSet, hdb] at hset
  obtain ⟨db', hcreate, hrest⟩ := Option.bind_eq_some_iff.mp hset
  obtain ⟨tmodule, hmodule, hrest⟩ := Option.bind_eq_some_iff.mp hrest
  obtain ⟨sections, hsection, hrest⟩ := Option.bind_eq_some_iff.mp hrest
  obtain ⟨sections', hkey, heq⟩ := Option.bind_eq_some_iff.mp hrest
  cases heq
  have hdb' := moduleCreate_ok (h db hdb) hcreate
  have hmoduleOk : ModuleOk bigEndian tmodule := hdb'.data fname tmodule hmodule
  have hsections := sectionCreate_ok hmoduleOk hsection
  refine ⟨rfl, hok, rfl, ?_⟩
  intro f n k
  have hf := (hdb'.sound.setData (by rw [hmodule]; exact Option.some_ne_none _) (⟨sections'⟩ : CfgModuleData)).value_eq f
  have hn := value_keyInsert hsections hkey n k
  rw [value_sectionCreate hmoduleOk hsection] at hn
  have hold := value_moduleCreate (h db hdb) hcreate f n k
  simp only [vosConfigValueGet, hdb, Option.bind_eq_bind, Option.bind_some, ← hold]
  rw [moduleKeyValue, hf]
  by_cases heq : f = fname
  · subst heq
    simp only [if_true, Option.bind_eq_bind, Option.bind_some, hn, true_and, moduleKeyValue, hmodule]
  · rw [if_neg heq, if_neg fun h => heq h.1]
    rfl

end Opconn.Vos
