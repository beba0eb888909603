import Opconn.Vos.Hash
import Mathlib.Data.List.DropRight

/-!
# The configuration store of the VOS layer

`vos_config.c` keeps the configuration in memory as a hash table of modules, each a table of
sections, each a table of keys.  A module is written to a file of its own, one line for each
section and each key, and is read back from it line by line.

What the source changes through a pointer to the data of an entry is here written back to
the entry.
-/

namespace Opconn.Vos

open KeyedList

/-- A string without its terminating zero. -/
abbrev CStr := List UInt8

namespace Ascii

def tab : UInt8 := 9
def newline : UInt8 := 10
def carriageReturn : UInt8 := 13
def space : UInt8 := 32
def hash : UInt8 := 35
def semicolon : UInt8 := 59
def equals : UInt8 := 61
def leftBracket : UInt8 := 91
def rightBracket : UInt8 := 93

end Ascii

/-! ### Data -/

/-- `CFG_KEY_DATA_t`. -/
structure CfgKeyData where
  flushed : Bool
  data : CStr

/-- `CFG_SECTION_DATA_t`. -/
structure CfgSectionData where
  flushed : Bool
  keys : HashTable CStr CfgKeyData

/-- `CFG_MODULE_DATA_t`. -/
structure CfgModuleData where
  sections : HashTable CStr CfgSectionData

/-- `g_pstConfigDatabase`, and the files by their names. -/
structure Config where
  database : Option (HashTable CStr CfgModuleData)
  files : CStr → Option CStr

variable {β : Type*} (bigEndian : Bool)

/-- The data of an entry that is there is changed. -/
def setData (key : CStr) (data : β) (tab : HashTable CStr β) : HashTable CStr β :=
  let index := hashIndex (stringKeys bigEndian) key tab
  tab.setChain index (replaceFirst (stringKeys bigEndian).toKeyEq key data (tab.hashList index))

/-- The data of every entry is changed. -/
def mapData (f : CStr → β → β) (tab : HashTable CStr β) : HashTable CStr β :=
  { tab with hashList := fun i => (tab.hashList i).map fun e => (e.1, f e.1 e.2) }

/-! ### Values -/

/-- The table with the module, which is created if it is not there. -/
def moduleCreate (fname : CStr) (db : HashTable CStr CfgModuleData) :
    Option (HashTable CStr CfgModuleData) :=
  match vosHashValue (stringKeys bigEndian) fname db with
  | some _ => some db
  | none => do
    let sections ← vosHashCreate 0
    vosHashInsert (stringKeys bigEndian) fname ⟨sections⟩ db

/-- The same for a section. -/
def sectionCreate (name : CStr) (sections : HashTable CStr CfgSectionData) :
    Option (HashTable CStr CfgSectionData) :=
  match vosHashValue (stringKeys bigEndian) name sections with
  | some _ => some sections
  | none => do
    let keys ← vosHashCreate 0
    vosHashInsert (stringKeys bigEndian) name ⟨false, keys⟩ sections

/-- A value under a key of a section that is there. -/
def keyInsert (name key value : CStr) (sections : HashTable CStr CfgSectionData) :
    Option (HashTable CStr CfgSectionData) := do
  let tsection ← vosHashValue (stringKeys bigEndian) name sections
  let keys ← vosHashInsert (stringKeys bigEndian) key ⟨false, value⟩ tsection.keys
  some (setData bigEndian name { tsection with keys := keys } sections)

/-- `vosConfigValueSet`. -/
def vosConfigValueSet (cfg : Config) (fname name key value : CStr) : Option (Config × Int) :=
  match cfg.database with
  | none => some (cfg, -1)
  | some db => do
    let db ← moduleCreate bigEndian fname db
    let tmodule ← vosHashValue (stringKeys bigEndian) fname db
    let sections ← sectionCreate bigEndian name tmodule.sections
    let sections ← keyInsert bigEndian name key value sections
    some ({ cfg with database := some (setData bigEndian fname ⟨sections⟩ db) }, 0)

/-- `vosConfigModuleDelete`.  The file goes with the module. -/
def vosConfigModuleDelete (cfg : Config) (fname : CStr) : Config × Int :=
  match cfg.database with
  | none => (cfg, -1)
  | some db =>
    if fname = [] then (cfg, 0)
    else
      ({ database := some (vosHashRemove (stringKeys bigEndian) fname db)
         files := Function.update cfg.files fname none }, 0)

/-- `vosConfigSectionDelete`. -/
def vosConfigSectionDelete (cfg : Config) (fname name : CStr) : Config × Int :=
  match cfg.database with
  | none => (cfg, -1)
  | some db =>
    match vosHashValue (stringKeys bigEndian) fname db with
    | none => (cfg, -1)
    | some tmodule =>
      let sections := vosHashRemove (stringKeys bigEndian) name tmodule.sections
      ({ cfg with database := some (setData bigEndian fname ⟨sections⟩ db) }, 0)

/-- `vosConfigKeyDelete`. -/
def vosConfigKeyDelete (cfg : Config) (fname name key : CStr) : Config × Int :=
  match cfg.database with
  | none => (cfg, -1)
  | some db =>
    match vosHashValue (stringKeys bigEndian) fname db with
    | none => (cfg, -1)
    | some tmodule =>
      match vosHashValue (stringKeys bigEndian) name tmodule.sections with
      | none => (cfg, -1)
      | some tsection =>
        let keys := vosHashRemove (stringKeys bigEndian) key tsection.keys
        let sections := setData bigEndian name { tsection with keys := keys } tmodule.sections
        ({ cfg with database := some (setData bigEndian fname ⟨sections⟩ db) }, 0)

/-! ### Writing -/

/-- `vosConfigFlushKeyReset`. -/
def flushKeyReset (_ : CStr) (tkey : CfgKeyData) : CfgKeyData := { tkey with flushed := false }

/-- `vosConfigFlushSectionReset`. -/
def flushSectionReset (_ : CStr) (tsection : CfgSectionData) : CfgSectionData :=
  ⟨false, mapData flushKeyReset tsection.keys⟩

/-- What `vosConfigFlushKeyAppend` writes. -/
def flushKeyText (key : CStr) (tkey : CfgKeyData) : List UInt8 :=
  if tkey.flushed then [] else key ++ Ascii.equals :: tkey.data ++ [Ascii.newline]

/-- What it leaves. -/
def flushKeyMark (_ : CStr) (tkey : CfgKeyData) : CfgKeyData := { tkey with flushed := true }

/-- What `vosConfigFlushSectionAppend` writes. -/
def flushSectionText (name : CStr) (data : CfgSectionData) : List UInt8 :=
  if data.flushed then []
  else
    Ascii.leftBracket :: name ++ [Ascii.rightBracket, Ascii.newline] ++
      data.keys.entries.flatMap fun e => flushKeyText e.1 e.2

/-- What it leaves. -/
def flushSectionMark (_ : CStr) (data : CfgSectionData) : CfgSectionData :=
  if data.flushed then data else ⟨true, mapData flushKeyMark data.keys⟩

/-- `vosConfigFlushByModule`; `opens` says whether the file can be opened. -/
def vosConfigFlushByModule (opens : Bool) (cfg : Config) (fname : CStr) : Config × Int :=
  if fname = [] then (cfg, -1)
  else
    match cfg.database with
    | none => (cfg, -2)
    | some db =>
      match vosHashValue (stringKeys bigEndian) fname db with
      | none => (cfg, -3)
      | some tmodule =>
        let sections := mapData flushSectionReset tmodule.sections
        if opens then
          let text := sections.entries.flatMap fun e => flushSectionText e.1 e.2
          let sections := mapData flushSectionMark sections
          ({ database := some (setData bigEndian fname ⟨sections⟩ db)
             files := Function.update cfg.files fname (some text) }, 0)
        else ({ cfg with database := some (setData bigEndian fname ⟨sections⟩ db) }, -4)

/-! ### Reading lines -/

/-- A file that is read: what is left of it, and whether its end was met. -/
structure Stream where
  rest : List UInt8
  eof : Bool
deriving DecidableEq

/-- At most so many characters, up to a newline. -/
def readChars : Nat → List UInt8 → List UInt8 × Stream
  | 0, rest => ([], ⟨rest, false⟩)
  | _ + 1, [] => ([], ⟨[], true⟩)
  | n + 1, c :: rest =>
    if c = Ascii.newline then ([c], ⟨rest, false⟩)
    else (c :: (readChars n rest).1, (readChars n rest).2)

/-- `fgets` into a buffer of a size of at least two. -/
def fgets (size : Nat) (fp : Stream) : Option (List UInt8) × Stream :=
  let s := readChars (size - 1) fp.rest
  (if s.1 = [] then none else some s.1, s.2)

/-- The loop of `vosFGetWholeLine`.  Each turn that goes on has read a character, so that there
are at most as many turns as characters, and one more. -/
def wholeLineLoop : Nat → Nat → CStr → Stream → Option (CStr × Stream)
  | 0, _, _, _ => none
  | fuel + 1, bufsize, line, fp =>
    match fgets (bufsize - line.length) fp with
    | (none, fp) => some (line, fp)
    | (some s, fp) =>
      -- `strlen` ends at a zero that stood in the file
      let line := line ++ s.takeWhile (· ≠ 0)
      if line = [] then wholeLineLoop fuel bufsize line fp
      else if line.getLast? = some Ascii.newline then some (line, fp)
      else wholeLineLoop fuel (bufsize * 2) line fp

/-- `vosFGetWholeLine`.  The last character goes, which need not be a newline. -/
def vosFGetWholeLine (fp : Stream) : Option (Option CStr × Stream) := do
  let (line, fp) ← wholeLineLoop (fp.rest.length + 1) 256 [] fp
  some (if line = [] then none else some line.dropLast, fp)

/-! ### Reading a module -/

def isBlank (c : UInt8) : Bool := c = Ascii.space || c = Ascii.tab

/-- `trim`. -/
def trim (str : CStr) : CStr :=
  (str.dropWhile isBlank).rdropWhile fun c => isBlank c || c = Ascii.carriageReturn

/-- The sections while a file is read, and the section that keys go to. -/
structure Reader where
  sections : HashTable CStr CfgSectionData
  tsection : Option CStr

/-- A line after `[`. -/
def readSection (r : Reader) (p : CStr) : Option Reader :=
  if Ascii.rightBracket ∈ p then
    let name := trim (p.takeWhile (· ≠ Ascii.rightBracket))
    if name = [] then some r
    else do
      let sections ← sectionCreate bigEndian name r.sections
      some ⟨sections, some name⟩
  else some r

/-- A configuration line. -/
def readKey (r : Reader) (p : CStr) : Option Reader :=
  match r.tsection with
  | none => some r
  | some name =>
    if Ascii.equals ∈ p then do
      let key := trim (p.takeWhile (· ≠ Ascii.equals))
      let value := trim (p.dropWhile (· ≠ Ascii.equals)).tail
      let sections ← keyInsert bigEndian name key value r.sections
      some { r with sections := sections }
    else some r

/-- The body of the loop of `vosConfigRefreshByModule`. -/
def readLine (r : Reader) (line : CStr) : Option Reader :=
  let p := line.dropWhile isBlank
  if p.head? = some Ascii.hash ∨ p.head? = some Ascii.semicolon then some r
  else if p.head? = some Ascii.leftBracket then readSection bigEndian r p.tail
  else readKey bigEndian r p

/-- The loop itself.  Each turn reads a character or meets the end of the file. -/
def refreshLoop : Nat → Reader → Stream → Option Reader
  | 0, _, _ => none
  | fuel + 1, r, fp =>
    if fp.eof then some r
    else do
      let (line, fp) ← vosFGetWholeLine fp
      match line with
      | none => refreshLoop fuel r fp
      | some line => do
        let r ← readLine bigEndian r line
        refreshLoop fuel r fp

/-- `vosConfigRefreshByModule`. -/
def vosConfigRefreshByModule (cfg : Config) (fname : CStr) : Option (Config × Int) :=
  match cfg.database with
  | none => some (cfg, -1)
  | some db => do
    let db ← moduleCreate bigEndian fname db
    match cfg.files fname with
    | none => some ({ cfg with database := some db }, -1)
    | some text => do
      let tmodule ← vosHashValue (stringKeys bigEndian) fname db
      let r ← refreshLoop bigEndian (text.length + 2) ⟨tmodule.sections, none⟩ ⟨text, false⟩
      some ({ cfg with database := some (setData bigEndian fname ⟨r.sections⟩ db) }, 0)

/-! ### Runs -/

/-- A call of the configuration interface. -/
inductive ConfigCall where
  | valueSet (fname name key value : CStr)
  | moduleDelete (fname : CStr)
  | sectionDelete (fname name : CStr)
  | keyDelete (fname name key : CStr)
  | flushByModule (opens : Bool) (fname : CStr)
  | refreshByModule (fname : CStr)
deriving DecidableEq

def configCall (cfg : Config) : ConfigCall → Option Config
  | .valueSet fname name key value =>
    (vosConfigValueSet bigEndian cfg fname name key value).map Prod.fst
  | .moduleDelete fname => some (vosConfigModuleDelete bigEndian cfg fname).1
  | .sectionDelete fname name => some (vosConfigSectionDelete bigEndian cfg fname name).1
  | .keyDelete fname name key => some (vosConfigKeyDelete bigEndian cfg fname name key).1
  | .flushByModule opens fname => some (vosConfigFlushByModule bigEndian opens cfg fname).1
  | .refreshByModule fname => (vosConfigRefreshByModule bigEndian cfg fname).map Prod.fst

/-- The store after the calls, in order; `none` where the program stops. -/
def configRun (cfg : Config) (calls : List ConfigCall) : Option Config :=
  calls.foldlM (configCall bigEndian) cfg

/-- The store that `vosConfigInit` creates, over the files there are. -/
def Config.start (files : CStr → Option CStr) : Config := ⟨vosHashCreate 0, files⟩

end Opconn.Vos
