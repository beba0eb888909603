import Mathlib.Data.List.Pairwise
import Opconn.Lib.Runs
import Opconn.Lib.Slots

/-!
# Translation of multicast VLANs

In translation mode a port gives the packets of a multicast VLAN the VLAN its user
expects.  The pairs in force are kept twice: in `mcTagTranslationTable`, whose slots all
ports share, and in the translation table of the switch.  `odmMcTagTranslationSet` checks
a new pair against those of the port, takes the pair it replaces out of both, programs the
switch and only then looks for a slot; what the switch answers is printed and forgotten.
-/

namespace Opconn.Multicast

open Runs Slots

/-! ### State -/

/-- `MC_TAG_OPER_MODE_t`. -/
inductive TagOper where
  | transparent
  | strip
  | translation
deriving DecidableEq, Repr

inductive TagStatus where
  | ok
  | error
  | notExist
  | full
deriving DecidableEq, Repr

/-- An enabled `MC_VLAN_TRANSLATION_ENTRY_t`. -/
structure Translation where
  portId : Nat
  mcVid : Nat
  userVid : Nat
deriving DecidableEq, Repr

/-- `MC_VLAN_TRANSLATION_ENTRY`, the number of slots. -/
def mcVlanTranslationEntry : Nat := 1024

/-- A slot that is not enabled is blank.  `programmed` is what the switch was last told of
a translation and obeyed. -/
structure TagState where
  mcTagOperPerPort : Nat → TagOper
  mcTagTranslationTable : List (Option Translation)
  programmed : Translation → Bool

def TagState.entries (s : TagState) : List Translation := contents s.mcTagTranslationTable

/-! ### The table -/

/-- `mcTagTranslationTableAdd`. -/
def mcTagTranslationTableAdd (s : TagState) (t : Translation) : TagStatus × TagState :=
  if some t ∈ s.mcTagTranslationTable then (.ok, s)
  else if none ∈ s.mcTagTranslationTable then
    (.ok, { s with mcTagTranslationTable := put t s.mcTagTranslationTable })
  else (.full, s)

/-- `mcTagTranslationTableDel`. -/
def mcTagTranslationTableDel (s : TagState) (t : Translation) : TagStatus × TagState :=
  if some t ∈ s.mcTagTranslationTable then
    (.ok, { s with mcTagTranslationTable := blank t s.mcTagTranslationTable })
  else (.notExist, s)

/-- `mcTagTranslationTableGet`: the user VLAN of the first entry for a multicast VLAN. -/
def mcTagTranslationTableGet (s : TagState) (portId mcVid : Nat) : Option Nat :=
  (s.entries.find? fun t => t.portId == portId && t.mcVid == mcVid).map Translation.userVid

/-- `mcTagTranslationTableClear`. -/
def mcTagTranslationTableClear (s : TagState) (portId : Nat) : TagState :=
  { s with mcTagTranslationTable :=
      blankAll (fun t => t.portId == portId) s.mcTagTranslationTable }

/-! ### The switch -/

/-- The programmed translations after the switch was told to take `t`. -/
def taken (obeys : Translation → Bool) (t : Translation) (programmed : Translation → Bool)
    (u : Translation) : Bool :=
  if u = t ∧ obeys t = true then true else programmed u

/-- The programmed translations after the switch was told to drop `t`. -/
def dropped (obeys : Translation → Bool) (t : Translation) (programmed : Translation → Bool)
    (u : Translation) : Bool :=
  if u = t ∧ obeys t = true then false else programmed u

/-- `dalMcTagTranslationAdd` reports success whether or not the switch obeys. -/
def dalMcTagTranslationAdd (obeys : Translation → Bool) (s : TagState) (t : Translation) :
    TagState :=
  { s with programmed := taken obeys t s.programmed }

/-- `dalMcTagTranslationDel`. -/
def dalMcTagTranslationDel (obeys : Translation → Bool) (s : TagState) (t : Translation) :
    TagState :=
  { s with programmed := dropped obeys t s.programmed }

/-- `dalMcTagOperSet` replaces the entries that keep each multicast VLAN of the port as it
is, which are not translations.  Only those of the translation mode are checked. -/
def dalMcTagOperSet (defaultsTaken : Bool) (tagOper : TagOper) : TagStatus :=
  if tagOper = .translation ∧ defaultsTaken = false then .error else .ok

/-! ### The three calls -/

/-- The loop in front of `odmMcTagTranslationSet`: the first entry of the port that decides
the call. -/
def checkExisting (portId mcVid userVid : Nat) : List (Option Translation) → Option TagStatus
  | [] => none
  | none :: slots => checkExisting portId mcVid userVid slots
  | some t :: slots =>
    if t.portId ≠ portId then checkExisting portId mcVid userVid slots
    else if t.userVid = userVid then if t.mcVid = mcVid then some .ok else some .error
    else if t.userVid = mcVid then some .error
    else if t.mcVid = userVid then some .error
    else checkExisting portId mcVid userVid slots

/-- The end of `odmMcTagTranslationSet`: the switch first, then the table. -/
def addTranslation (obeys : Translation → Bool) (s : TagState) (t : Translation) :
    TagStatus × TagState :=
  mcTagTranslationTableAdd (dalMcTagTranslationAdd obeys s t) t

/-- `odmMcTagTranslationSet`. -/
def odmMcTagTranslationSet (obeys : Translation → Bool) (s : TagState)
    (portId mcVid userVid : Nat) : TagStatus × TagState :=
  if s.mcTagOperPerPort portId ≠ .translation then (.error, s)
  else
    match checkExisting portId mcVid userVid s.mcTagTranslationTable with
    | some status => (status, s)
    | none =>
      match mcTagTranslationTableGet s portId mcVid with
      | none => addTranslation obeys s ⟨portId, mcVid, userVid⟩
      | some oldUserVid =>
        if oldUserVid ≠ userVid then
          let deleted := mcTagTranslationTableDel
            (dalMcTagTranslationDel obeys s ⟨portId, mcVid, oldUserVid⟩)
            ⟨portId, mcVid, oldUserVid⟩
          if deleted.1 ≠ .ok then deleted
          else addTranslation obeys deleted.2 ⟨portId, mcVid, userVid⟩
        else (.ok, s)

/-- `odmMcTagTranslationClear`. -/
def odmMcTagTranslationClear (obeys : Translation → Bool) (s : TagState) (portId : Nat) :
    TagStatus × TagState :=
  if s.mcTagOperPerPort portId ≠ .translation then (.ok, s)
  else
    let ofPort := s.entries.filter fun t => t.portId == portId
    (.ok, mcTagTranslationTableClear (ofPort.foldl (dalMcTagTranslationDel obeys) s) portId)

/-- `odmMcTagOperSet`. -/
def odmMcTagOperSet (obeys : Translation → Bool) (defaultsTaken : Bool) (s : TagState)
    (portId : Nat) (tagOper : TagOper) : TagStatus × TagState :=
  if tagOper = s.mcTagOperPerPort portId then (.ok, s)
  else
    let cleared :=
      if tagOper ≠ .translation then odmMcTagTranslationClear obeys s portId else (.ok, s)
    if cleared.1 ≠ .ok then cleared
    else if dalMcTagOperSet defaultsTaken tagOper ≠ .ok then
      (dalMcTagOperSet defaultsTaken tagOper, cleared.2)
    else
      (.ok, { cleared.2 with
        mcTagOperPerPort := Function.update cleared.2.mcTagOperPerPort portId tagOper })

/-- The calls, each with the answers the switch gives to the translations it is told. -/
inductive TagEvent where
  | translationSet (obeys : Translation → Bool) (portId mcVid userVid : Nat)
  | translationClear (obeys : Translation → Bool) (portId : Nat)
  | operSet (obeys : Translation → Bool) (defaultsTaken : Bool) (portId : Nat) (tagOper : TagOper)

def tagCall (s : TagState) : TagEvent → TagStatus × TagState
  | .translationSet obeys portId mcVid userVid =>
    odmMcTagTranslationSet obeys s portId mcVid userVid
  | .translationClear obeys portId => odmMcTagTranslationClear obeys s portId
  | .operSet obeys defaultsTaken portId tagOper =>
    odmMcTagOperSet obeys defaultsTaken s portId tagOper

def tagStep (s : TagState) (e : TagEvent) : TagState := (tagCall s e).2

/-- Two entries of one port share no multicast VLAN and no user VLAN, and neither
translates to what the other translates from. -/
def Translation.Apart (t u : Translation) : Prop :=
  t.portId = u.portId →
    t.mcVid ≠ u.mcVid ∧ t.userVid ≠ u.userVid ∧ t.userVid ≠ u.mcVid ∧ u.userVid ≠ t.mcVid

/-- **The table is sound**: its entries are apart, and they are what the switch was told. -/
structure TranslationsSound (s : TagState) : Prop where
  apart : s.entries.Pairwise Translation.Apart
  agree : ∀ t, t ∈ s.entries ↔ s.programmed t = true

theorem Translation.Apart.symm {t u : Translation} (h : t.Apart u) : u.Apart t := by
  intro hport
  obtain ⟨hmc, huser, htu, hut⟩ := h hport.symm
  exact ⟨hmc.symm, huser.symm, hut, htu⟩

instance : Std.Symm Translation.Apart := ⟨fun _ _ h => h.symm⟩

/-! ### The checks and the search -/

/-- A set gets past the checks when its user VLAN is new on the port, no entry translates
to its multicast VLAN and none translates from its user VLAN. -/
theorem checkExisting_eq_none_iff {portId mcVid userVid : Nat} {slots : List (Option Translation)} :
    checkExisting portId mcVid userVid slots = none ↔
      ∀ t ∈ contents slots, t.portId = portId →
        t.userVid ≠ userVid ∧ t.userVid ≠ mcVid ∧ t.mcVid ≠ userVid := by
  induction slots with
  | nil => simp [checkExisting, contents]
  | cons slot slots ih =>
    rcases slot with _ | t
    · simpa [checkExisting] using ih
    · simp only [checkExisting, contents_some_cons, List.forall_mem_cons]
      by_cases hport : t.portId = portId
      · by_cases huser : t.userVid = userVid
        · by_cases hmc : t.mcVid = mcVid <;> simp [hport, huser, hmc]
        · by_cases hto : t.userVid = mcVid
          · subst hto
            simp [hport, huser]
          · by_cases hfrom : t.mcVid = userVid
            · simp [hport, huser, hto, hfrom]
            · simpa [hport, huser, hto, hfrom] using ih
      · simpa [hport] using ih

theorem not_mem_of_tableGet {s : TagState} {portId mcVid : Nat}
    (h : mcTagTranslationTableGet s portId mcVid = none) {t : Translation} (ht : t ∈ s.entries)
    (hport : t.portId = portId) : t.mcVid ≠ mcVid := by
  intro hmc
  have hfind := List.find?_eq_none.mp (Option.map_eq_none_iff.mp h) t ht
  simp [hport, hmc] at hfind

theorem taken_iff {obeys : Translation → Bool} {t u : Translation}
    {programmed : Translation → Bool} :
    taken obeys t programmed u = true ↔ (u = t ∧ obeys t = true) ∨ programmed u = true := by
  unfold taken
  split
  · next h => simp [h]
  · next h => simp [h]

section Set

variable {obeys : Translation → Bool} {s : TagState} {portId mcVid userVid : Nat}

/-- A set that is new on its port and finds a blank slot. -/
theorem addTranslation_of_blank {t : Translation} (hnew : t ∉ s.entries)
    (hblank : none ∈ s.mcTagTranslationTable) :
    addTranslation obeys s t =
      (.ok, { s with
        mcTagTranslationTable := put t s.mcTagTranslationTable
        programmed := taken obeys t s.programmed }) := by
  have hnot : some t ∉ s.mcTagTranslationTable := fun h => hnew (mem_contents.mpr h)
  simp only [addTranslation, mcTagTranslationTableAdd, dalMcTagTranslationAdd, hnot, hblank,
    if_true, if_false]

theorem translationSet_of_new (hmode : s.mcTagOperPerPort portId = .translation)
    (hcheck : checkExisting portId mcVid userVid s.mcTagTranslationTable = none)
    (hget : mcTagTranslationTableGet s portId mcVid = none) :
    odmMcTagTranslationSet obeys s portId mcVid userVid =
      addTranslation obeys s ⟨portId, mcVid, userVid⟩ := by
  simp only [odmMcTagTranslationSet, hmode, hcheck, hget, ne_eq, not_true_eq_false, if_false]

/-- What has passed the checks is apart from every entry for another multicast VLAN. -/
theorem apart_of_checked
    (hcheck : checkExisting portId mcVid userVid s.mcTagTranslationTable = none) {u : Translation}
    (hu : u ∈ s.entries) (hmc : u.portId = portId → u.mcVid ≠ mcVid) :
    Translation.Apart ⟨portId, mcVid, userVid⟩ u := by
  intro hport
  have hport' : u.portId = portId := hport.symm
  obtain ⟨huser, hto, hfrom⟩ := checkExisting_eq_none_iff.mp hcheck u hu hport'
  exact ⟨(hmc hport').symm, huser.symm, hfrom.symm, hto⟩

theorem not_mem_of_checked
    (hcheck : checkExisting portId mcVid userVid s.mcTagTranslationTable = none) :
    ⟨portId, mcVid, userVid⟩ ∉ s.entries :=
  fun h => (checkExisting_eq_none_iff.mp hcheck _ h rfl).1 rfl

theorem sound_of_perm {tagOper : Nat → TagOper} {table : List (Option Translation)}
    {programmed : Translation → Bool} {l : List Translation} (hperm : (contents table).Perm l) :
    TranslationsSound ⟨tagOper, table, programmed⟩ ↔
      l.Pairwise Translation.Apart ∧ ∀ t, t ∈ l ↔ programmed t = true := by
  have hapart := hperm.pairwise_iff (R := Translation.Apart) Translation.Apart.symm
  constructor
  · intro hs
    refine ⟨hapart.mp hs.apart, ?_⟩
    intro t
    exact hperm.mem_iff.symm.trans (hs.agree t)
  · rintro ⟨hl, hagree⟩
    refine ⟨hapart.mpr hl, ?_⟩
    intro t
    exact hperm.mem_iff.trans (hagree t)

theorem sound_new_iff (hs : TranslationsSound s)
    (hmode : s.mcTagOperPerPort portId = .translation)
    (hcheck : checkExisting portId mcVid userVid s.mcTagTranslationTable = none)
    (hget : mcTagTranslationTableGet s portId mcVid = none)
    (hblank : none ∈ s.mcTagTranslationTable) :
    TranslationsSound (odmMcTagTranslationSet obeys s portId mcVid userVid).2 ↔
      obeys ⟨portId, mcVid, userVid⟩ = true := by
  have hnew := not_mem_of_checked hcheck
  rw [translationSet_of_new hmode hcheck hget, addTranslation_of_blank hnew hblank,
    sound_of_perm (contents_put hblank _)]
  constructor
  · rintro ⟨-, hagree⟩
    have htaken := (hagree ⟨portId, mcVid, userVid⟩).mp (List.mem_cons_self ..)
    rcases taken_iff.mp htaken with ⟨-, hobeys⟩ | hold
    · exact hobeys
    · exact absurd ((hs.agree _).mpr hold) hnew
  · intro hobeys
    refine ⟨List.pairwise_cons.mpr ⟨?_, hs.apart⟩, ?_⟩
    · intro u hu
      exact apart_of_checked hcheck hu (not_mem_of_tableGet hget hu)
    · intro u
      rw [List.mem_cons, taken_iff, ← hs.agree u]
      simp only [hobeys, and_true]
      rfl

end Set

/-! ### What a clear and a change of mode do -/

section Clear

variable {obeys : Translation → Bool} {s : TagState} {portId : Nat}

end Clear

/-- The `n`-th of the translations that fill the table from port 1. -/
def fillEntry (n : Nat) : Translation := ⟨1, n + 1, n + 2001⟩

def fillEvent (n : Nat) : TagEvent := .translationSet (fun _ => true) 1 (n + 1) (n + 2001)

/-- The state in which the first `n` slots hold the translations of `fillEvents`. -/
structure Filled (n : Nat) (s : TagState) : Prop where
  mode : s.mcTagOperPerPort 1 = .translation
  table : s.mcTagTranslationTable = ((List.range n).map fillEntry).map some ++
    List.replicate (mcVlanTranslationEntry - n) none
  sound : TranslationsSound s

theorem Filled.mem_entries {n : Nat} {s : TagState} (h : Filled n s) {t : Translation}
    (ht : t ∈ s.entries) : ∃ i < n, fillEntry i = t := by
  have hslot := mem_contents.mp ht
  rw [h.table] at hslot
  simpa [List.mem_replicate] using hslot

theorem Filled.passes {n : Nat} {s : TagState} (h : Filled n s) (hn : n ≤ 1024) :
    checkExisting 1 (n + 1) (n + 2001) s.mcTagTranslationTable = none ∧
      mcTagTranslationTableGet s 1 (n + 1) = none := by
  constructor
  · rw [checkExisting_eq_none_iff]
    intro t ht _
    obtain ⟨i, hi, rfl⟩ := h.mem_entries ht
    simp only [fillEntry]
    omega
  · rw [mcTagTranslationTableGet, Option.map_eq_none_iff, List.find?_eq_none]
    intro t ht
    obtain ⟨i, hi, rfl⟩ := h.mem_entries ht
    simp only [fillEntry, Bool.and_eq_true, beq_iff_eq, not_and]
    omega

theorem Filled.step {n : Nat} {s : TagState} (h : Filled n s) (hn : n < 1024) :
    Filled (n + 1) (tagStep s (fillEvent n)) := by
  obtain ⟨hcheck, hget⟩ := h.passes (Nat.le_of_lt hn)
  obtain ⟨k, hk⟩ : ∃ k, mcVlanTranslationEntry - n = k + 1 :=
    ⟨1023 - n, by rw [mcVlanTranslationEntry]; omega⟩
  have hk' : mcVlanTranslationEntry - (n + 1) = k := by omega
  have htable := h.table
  rw [hk] at htable
  have hblank : none ∈ s.mcTagTranslationTable := by
    rw [htable]
    simp [List.mem_replicate]
  have hset : tagStep s (fillEvent n) = _ :=
    congrArg Prod.snd ((translationSet_of_new h.mode hcheck hget).trans
      (addTranslation_of_blank (not_mem_of_checked hcheck) hblank))
  have hput := put_front ((List.range n).map fillEntry) k (fillEntry n)
  refine ⟨?_, ?_, (sound_new_iff h.sound h.mode hcheck hget hblank).mpr rfl⟩
  · rw [hset]
    exact h.mode
  · rw [hset, hk', List.range_succ, List.map_append, List.map_singleton, ← hput, ← htable]
    rfl

end Opconn.Multicast
