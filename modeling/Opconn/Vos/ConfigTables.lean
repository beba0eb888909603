import Opconn.Vos.Config
import Opconn.Vos.HashMap

/-!
# The tables of the configuration

Every table of the configuration store stays a table that its keys can be looked up in, at
all three levels and in every run of the interface that does not stop the program.
-/

namespace Opconn.Vos

open KeyedList

variable {β : Type*} {bigEndian : Bool}

theorem stringKeys_same (k l : CStr) : (stringKeys bigEndian).same k l = decide (k = l) :=
  beq_eq_decide ..

/-- What is looked up after an insertion under equal strings. -/
theorem Inserted.value_eq {tab tab' : HashTable CStr β} {key : CStr} {data : β}
    (h : Inserted (stringKeys bigEndian) tab key data tab') (k : CStr) :
    vosHashValue (stringKeys bigEndian) k tab' =
      if k = key then some data else vosHashValue (stringKeys bigEndian) k tab := by
  rw [h.value, stringKeys_same]
  simp only [decide_eq_true_eq]

/-! ### Data that is changed in place -/

theorem Sound.setData {tab : HashTable CStr β} (h : Sound (stringKeys bigEndian) tab) {key : CStr}
    (hold : vosHashValue (stringKeys bigEndian) key tab ≠ none) (data : β) :
    Inserted (stringKeys bigEndian) tab key data (setData bigEndian key data tab) := by
  apply h.update
  rw [hashListUpdate, if_pos]
  rw [vosHashValue, Ne, lookup_eq_none_iff] at hold
  simpa using hold

theorem lookup_mapData (f : CStr → β → β) (k : CStr) (l : List (CStr × β)) :
    lookup (stringKeys bigEndian).toKeyEq k (l.map fun e => (e.1, f e.1 e.2)) =
      (lookup (stringKeys bigEndian).toKeyEq k l).map (f k) := by
  induction l with
  | nil => rfl
  | cons e l ih =>
    rw [List.map_cons, lookup_cons, lookup_cons, ih, stringKeys_same]
    split
    · next heq =>
      rw [of_decide_eq_true heq]
      rfl
    · rfl

theorem value_mapData (f : CStr → β → β) (tab : HashTable CStr β) (k : CStr) :
    vosHashValue (stringKeys bigEndian) k (mapData f tab) =
      (vosHashValue (stringKeys bigEndian) k tab).map (f k) :=
  lookup_mapData f k _

theorem entries_mapData (f : CStr → β → β) (tab : HashTable CStr β) :
    (mapData f tab).entries = tab.entries.map fun e => (e.1, f e.1 e.2) := by
  rw [HashTable.entries, HashTable.entries, List.map_flatMap]
  rfl

theorem Sound.mapData {tab : HashTable CStr β} (h : Sound (stringKeys bigEndian) tab)
    (f : CStr → β → β) : Sound (stringKeys bigEndian) (mapData f tab) := by
  refine ⟨h.prime, h.threshold, ?_, ?_, ?_, ?_⟩
  · intro i e he
    obtain ⟨d, hd, rfl⟩ := List.mem_map.mp he
    exact h.placed i d hd
  · intro i
    exact List.pairwise_map.mpr (h.distinct i)
  · rw [Vos.mapData]
    simpa using h.counted
  · rw [Vos.mapData]
    simpa using h.items_le

/-! ### Tables whose data is all of a kind -/

/-- The table is sound and all its data has the property. -/
structure Holds (bigEndian : Bool) (P : β → Prop) (tab : HashTable CStr β) : Prop where
  sound : Sound (stringKeys bigEndian) tab
  data : ∀ k d, vosHashValue (stringKeys bigEndian) k tab = some d → P d

variable {P : β → Prop}

theorem Holds.create {tab : HashTable CStr β} (h : vosHashCreate 0 = some tab) :
    Holds bigEndian P tab := by
  have hrefines : Refines (stringKeys bigEndian) [] tab := refines_create h
  refine ⟨hrefines.sound, ?_⟩
  intro k d hd
  rw [hrefines.value] at hd
  cases hd

theorem Holds.inserted {tab tab' : HashTable CStr β} (h : Holds bigEndian P tab) {key : CStr}
    {data : β} (hdata : P data) (hins : Inserted (stringKeys bigEndian) tab key data tab') :
    Holds bigEndian P tab' := by
  refine ⟨hins.sound, ?_⟩
  intro k d hd
  rw [hins.value] at hd
  split at hd
  · cases hd
    exact hdata
  · exact h.data k d hd

theorem Holds.remove {tab : HashTable CStr β} (h : Holds bigEndian P tab) (key : CStr) :
    Holds bigEndian P (vosHashRemove (stringKeys bigEndian) key tab) := by
  obtain ⟨hsound, hvalue⟩ := h.sound.remove key
  refine ⟨hsound, ?_⟩
  intro k d hd
  rw [hvalue] at hd
  split at hd
  · cases hd
  · exact h.data k d hd

theorem Holds.setData {tab : HashTable CStr β} (h : Holds bigEndian P tab) {key : CStr} {old : β}
    (hold : vosHashValue (stringKeys bigEndian) key tab = some old) {data : β} (hdata : P data) :
    Holds bigEndian P (setData bigEndian key data tab) := by
  apply h.inserted hdata
  apply h.sound.setData
  rw [hold]
  rintro ⟨⟩

theorem Holds.mapData {tab : HashTable CStr β} (h : Holds bigEndian P tab) {f : CStr → β → β}
    (hf : ∀ k d, P d → P (f k d)) : Holds bigEndian P (mapData f tab) := by
  refine ⟨h.sound.mapData f, ?_⟩
  intro k d hd
  rw [value_mapData] at hd
  obtain ⟨old, hold, rfl⟩ := Option.map_eq_some_iff.mp hd
  exact hf k old (h.data k old hold)

/-! ### The three levels -/

def SectionOk (bigEndian : Bool) (tsection : CfgSectionData) : Prop :=
  Sound (stringKeys bigEndian) tsection.keys

def ModuleOk (bigEndian : Bool) (tmodule : CfgModuleData) : Prop :=
  Holds bigEndian (SectionOk bigEndian) tmodule.sections

def ConfigOk (bigEndian : Bool) (cfg : Config) : Prop :=
  ∀ db ∈ cfg.database, Holds bigEndian (ModuleOk bigEndian) db

theorem ConfigOk.of_some {db : HashTable CStr CfgModuleData} {files : CStr → Option CStr}
    (h : Holds bigEndian (ModuleOk bigEndian) db) : ConfigOk bigEndian ⟨some db, files⟩ := by
  rintro _ ⟨⟩
  exact h

theorem sectionCreate_ok {sections sections' : HashTable CStr CfgSectionData} {name : CStr}
    (h : Holds bigEndian (SectionOk bigEndian) sections)
    (hcreate : sectionCreate bigEndian name sections = some sections') :
    Holds bigEndian (SectionOk bigEndian) sections' := by
  rw [sectionCreate] at hcreate
  split at hcreate
  · cases hcreate
    exact h
  · obtain ⟨keys, hkeys, hinsert⟩ := Option.bind_eq_some_iff.mp hcreate
    have hsound : SectionOk bigEndian ⟨false, keys⟩ := (refines_create hkeys).sound
    exact h.inserted hsound (h.sound.inserted hinsert)

theorem keyInsert_ok {sections sections' : HashTable CStr CfgSectionData} {name key value : CStr}
    (h : Holds bigEndian (SectionOk bigEndian) sections)
    (hins : keyInsert bigEndian name key value sections = some sections') :
    Holds bigEndian (SectionOk bigEndian) sections' := by
  obtain ⟨tsection, hvalue, hrest⟩ := Option.bind_eq_some_iff.mp hins
  obtain ⟨keys, hkeys, heq⟩ := Option.bind_eq_some_iff.mp hrest
  cases heq
  have hsection : SectionOk bigEndian tsection := h.data name tsection hvalue
  have hsound : SectionOk bigEndian { tsection with keys := keys } :=
    (hsection.inserted hkeys).sound
  exact h.setData hvalue hsound

theorem moduleCreate_ok {db db' : HashTable CStr CfgModuleData} {fname : CStr}
    (h : Holds bigEndian (ModuleOk bigEndian) db)
    (hcreate : moduleCreate bigEndian fname db = some db') :
    Holds bigEndian (ModuleOk bigEndian) db' := by
  rw [moduleCreate] at hcreate
  split at hcreate
  · cases hcreate
    exact h
  · obtain ⟨sections, hsections, hinsert⟩ := Option.bind_eq_some_iff.mp hcreate
    have hmodule : ModuleOk bigEndian ⟨sections⟩ := Holds.create hsections
    exact h.inserted hmodule (h.sound.inserted hinsert)

theorem readLine_ok {r r' : Reader} {line : CStr}
    (h : Holds bigEndian (SectionOk bigEndian) r.sections)
    (hread : readLine bigEndian r line = some r') :
    Holds bigEndian (SectionOk bigEndian) r'.sections := by
  rw [readLine] at hread
  split at hread
  · cases hread
    exact h
  · split at hread
    · rw [readSection] at hread
      split at hread
      · dsimp only at hread
        split at hread
        · cases hread
          exact h
        · obtain ⟨sections, hcreate, heq⟩ := Option.bind_eq_some_iff.mp hread
          cases heq
          exact sectionCreate_ok h hcreate
      · cases hread
        exact h
    · rw [readKey] at hread
      split at hread
      · cases hread
        exact h
      · split at hread
        · obtain ⟨sections, hins, heq⟩ := Option.bind_eq_some_iff.mp hread
          cases heq
          exact keyInsert_ok h hins
        · cases hread
          exact h

theorem refreshLoop_ok {fuel : Nat} {r r' : Reader} {fp : Stream}
    (h : Holds bigEndian (SectionOk bigEndian) r.sections)
    (hloop : refreshLoop bigEndian fuel r fp = some r') :
    Holds bigEndian (SectionOk bigEndian) r'.sections := by
  induction fuel generalizing r fp with
  | zero => cases hloop
  | succ fuel ih =>
    rw [refreshLoop] at hloop
    split at hloop
    · cases hloop
      exact h
    · obtain ⟨⟨line, fp'⟩, hline, hrest⟩ := Option.bind_eq_some_iff.mp hloop
      cases line with
      | none => exact ih h hrest
      | some line =>
        obtain ⟨r₁, hread, hrest⟩ := Option.bind_eq_some_iff.mp hrest
        exact ih (readLine_ok h hread) hrest

/-! ### Calls -/

variable {cfg cfg' : Config}

theorem ConfigOk.valueSet (h : ConfigOk bigEndian cfg) {fname name key value : CStr} {rv : Int}
    (hcall : vosConfigValueSet bigEndian cfg fname name key value = some (cfg', rv)) :
    ConfigOk bigEndian cfg' := by
  rw [vosConfigValueSet] at hcall
  cases hdb : cfg.database with
  | none =>
    rw [hdb] at hcall
    cases hcall
    exact h
  | some db =>
    rw [hdb] at hcall
    obtain ⟨db', hcreate, hrest⟩ := Option.bind_eq_some_iff.mp hcall
    obtain ⟨tmodule, hmodule, hrest⟩ := Option.bind_eq_some_iff.mp hrest
    obtain ⟨sections, hsection, hrest⟩ := Option.bind_eq_some_iff.mp hrest
    obtain ⟨sections', hkey, heq⟩ := Option.bind_eq_some_iff.mp hrest
    cases heq
    have hdb' := moduleCreate_ok (h db hdb) hcreate
    have hsections := sectionCreate_ok (hdb'.data fname tmodule hmodule) hsection
    have hmodule' : ModuleOk bigEndian ⟨sections'⟩ := keyInsert_ok hsections hkey
    exact .of_some (hdb'.setData hmodule hmodule')

theorem ConfigOk.refresh (h : ConfigOk bigEndian cfg) {fname : CStr} {rv : Int}
    (hcall : vosConfigRefreshByModule bigEndian cfg fname = some (cfg', rv)) :
    ConfigOk bigEndian cfg' := by
  rw [vosConfigRefreshByModule] at hcall
  cases hdb : cfg.database with
  | none =>
    rw [hdb] at hcall
    cases hcall
    exact h
  | some db =>
    rw [hdb] at hcall
    obtain ⟨db', hcreate, hrest⟩ := Option.bind_eq_some_iff.mp hcall
    have hdb' := moduleCreate_ok (h db hdb) hcreate
    cases hfile : cfg.files fname with
    | none =>
      rw [hfile] at hrest
      cases hrest
      exact .of_some hdb'
    | some text =>
      rw [hfile] at hrest
      obtain ⟨tmodule, hmodule, hrest⟩ := Option.bind_eq_some_iff.mp hrest
      obtain ⟨r, hloop, heq⟩ := Option.bind_eq_some_iff.mp hrest
      cases heq
      have hold : ModuleOk bigEndian tmodule := hdb'.data fname tmodule hmodule
      have hmodule' : ModuleOk bigEndian ⟨r.sections⟩ :=
        refreshLoop_ok (r := ⟨tmodule.sections, none⟩) hold hloop
      exact .of_some (hdb'.setData hmodule hmodule')

theorem ConfigOk.moduleDelete (h : ConfigOk bigEndian cfg) (fname : CStr) :
    ConfigOk bigEndian (vosConfigModuleDelete bigEndian cfg fname).1 := by
  rw [vosConfigModuleDelete]
  cases hdb : cfg.database with
  | none => exact h
  | some db =>
    dsimp only
    split
    · exact h
    · exact .of_some ((h db hdb).remove fname)

theorem ConfigOk.sectionDelete (h : ConfigOk bigEndian cfg) (fname name : CStr) :
    ConfigOk bigEndian (vosConfigSectionDelete bigEndian cfg fname name).1 := by
  rw [vosConfigSectionDelete]
  cases hdb : cfg.database with
  | none => exact h
  | some db =>
    dsimp only
    split
    · exact h
    · next tmodule hmodule =>
      have hold : ModuleOk bigEndian tmodule := (h db hdb).data fname tmodule hmodule
      have hnew : ModuleOk bigEndian
          ⟨vosHashRemove (stringKeys bigEndian) name tmodule.sections⟩ := hold.remove name
      exact .of_some ((h db hdb).setData hmodule hnew)

theorem ConfigOk.keyDelete (h : ConfigOk bigEndian cfg) (fname name key : CStr) :
    ConfigOk bigEndian (vosConfigKeyDelete bigEndian cfg fname name key).1 := by
  rw [vosConfigKeyDelete]
  cases hdb : cfg.database with
  | none => exact h
  | some db =>
    dsimp only
    split
    · exact h
    · next tmodule hmodule =>
      have hold : ModuleOk bigEndian tmodule := (h db hdb).data fname tmodule hmodule
      split
      · exact h
      · next tsection hsection =>
        have hsection' : SectionOk bigEndian tsection := hold.data name tsection hsection
        let keys := vosHashRemove (stringKeys bigEndian) key tsection.keys
        have hnew : SectionOk bigEndian { tsection with keys := keys } := (hsection'.remove key).1
        exact .of_some ((h db hdb).setData hmodule (hold.setData hsection hnew))

theorem flushSectionReset_ok (name : CStr) (tsection : CfgSectionData)
    (h : SectionOk bigEndian tsection) : SectionOk bigEndian (flushSectionReset name tsection) :=
  h.mapData flushKeyReset

theorem flushSectionMark_ok (name : CStr) (tsection : CfgSectionData)
    (h : SectionOk bigEndian tsection) : SectionOk bigEndian (flushSectionMark name tsection) := by
  rw [flushSectionMark]
  split
  · exact h
  · exact h.mapData flushKeyMark

theorem ConfigOk.flush (h : ConfigOk bigEndian cfg) (opens : Bool) (fname : CStr) :
    ConfigOk bigEndian (vosConfigFlushByModule bigEndian opens cfg fname).1 := by
  rw [vosConfigFlushByModule]
  split
  · exact h
  · cases hdb : cfg.database with
    | none => exact h
    | some db =>
      dsimp only
      split
      · exact h
      · next tmodule hmodule =>
        have hold : ModuleOk bigEndian tmodule := (h db hdb).data fname tmodule hmodule
        have hreset := hold.mapData flushSectionReset_ok
        split
        · exact .of_some ((h db hdb).setData hmodule (hreset.mapData flushSectionMark_ok))
        · exact .of_some ((h db hdb).setData hmodule hreset)

theorem ConfigOk.call (h : ConfigOk bigEndian cfg) {c : ConfigCall}
    (hcall : configCall bigEndian cfg c = some cfg') : ConfigOk bigEndian cfg' := by
  cases c with
  | valueSet fname name key value =>
    obtain ⟨⟨cfg₁, rv⟩, hset, rfl⟩ := Option.map_eq_some_iff.mp hcall
    exact h.valueSet hset
  | moduleDelete fname =>
    cases hcall
    exact h.moduleDelete fname
  | sectionDelete fname name =>
    cases hcall
    exact h.sectionDelete fname name
  | keyDelete fname name key =>
    cases hcall
    exact h.keyDelete fname name key
  | flushByModule opens fname =>
    cases hcall
    exact h.flush opens fname
  | refreshByModule fname =>
    obtain ⟨⟨cfg₁, rv⟩, hrefresh, rfl⟩ := Option.map_eq_some_iff.mp hcall
    exact h.refresh hrefresh

theorem ConfigOk.start (files : CStr → Option CStr) :
    ConfigOk bigEndian (Config.start files) := by
  intro db hdb
  exact Holds.create hdb

/-- The tables of every store that the interface reaches. -/
theorem ConfigOk.run {calls : List ConfigCall} (h : ConfigOk bigEndian cfg)
    (hrun : configRun bigEndian cfg calls = some cfg') : ConfigOk bigEndian cfg' := by
  induction calls generalizing cfg with
  | nil =>
    cases hrun
    exact h
  | cons c calls ih =>
    rw [configRun, List.foldlM_cons] at hrun
    obtain ⟨cfg₁, hcall, hrest⟩ := Option.bind_eq_some_iff.mp hrun
    exact ih (h.call hcall) hrest

end Opconn.Vos
