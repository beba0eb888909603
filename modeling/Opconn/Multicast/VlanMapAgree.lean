import Mathlib.Data.List.TakeWhile
import Opconn.Multicast.VlanMap

/-!
# The VLAN lists stay in step

A list of VLANs is printed, searched and cut as a text of comma-separated items, so
the rules of `Text` apply to it.  `Held` names the list that each port's text spells;
every call that meets the condition edits that list, the bits and the switch alike.
-/

namespace Opconn.Multicast

open Runs Text

/-! ### Numbers and their text -/

theorem isDigit_of_mem_decimal {vlanId : Nat} {c : Char} (h : c ∈ decimal vlanId) :
    c.isDigit = true :=
  Nat.isDigit_of_mem_toDigits (by decide) (by decide) h

theorem comma_not_mem_decimal (vlanId : Nat) : ',' ∉ decimal vlanId := by
  intro hmem
  have hdigit := isDigit_of_mem_decimal hmem
  revert hdigit
  decide

theorem decimal_ne_nil (vlanId : Nat) : decimal vlanId ≠ [] := Nat.toDigits_ne_nil

theorem digit_facts {c : Char} (h : c.isDigit = true) :
    c.isWhitespace = false ∧ c ≠ '-' ∧ c ≠ '+' := by
  refine ⟨?_, ?_, ?_⟩
  · rw [← Bool.not_eq_true]
    intro hspace
    simp only [Char.isWhitespace, Bool.or_eq_true, decide_eq_true_eq] at hspace
    rcases hspace with ((rfl | rfl) | rfl) | rfl <;> revert h <;> decide
  · rintro rfl
    revert h
    decide
  · rintro rfl
    revert h
    decide

/-- Reading a number back from its text. -/
theorem atol_decimal {vlanId : Nat} (h : vlanId ≤ maxVlanId) : atol (decimal vlanId) = vlanId := by
  have hvalue : Nat.ofDigitChars 10 (decimal vlanId) 0 = vlanId :=
    Nat.ofDigitChars_toDigits (by decide) (by decide)
  have hall : (decimal vlanId).takeWhile Char.isDigit = decimal vlanId := by
    rw [List.takeWhile_eq_self_iff]
    intro c hc
    exact isDigit_of_mem_decimal hc
  have hsmall : vlanId % 2 ^ 32 = vlanId := by
    simp only [maxVlanId] at h
    omega
  cases hdigits : decimal vlanId with
  | nil => exact absurd hdigits (decimal_ne_nil vlanId)
  | cons c cs =>
    have hc : c.isDigit = true := isDigit_of_mem_decimal (hdigits ▸ List.mem_cons_self ..)
    obtain ⟨hspace, hminus, hplus⟩ := digit_facts hc
    rw [hdigits] at hvalue hall
    have hdrop : (c :: cs).dropWhile Char.isWhitespace = c :: cs := by
      simp [hspace]
    unfold atol
    rw [hdrop]
    split
    · rename_i heq
      cases heq
      exact absurd rfl hminus
    · rename_i heq
      cases heq
      exact absurd rfl hplus
    · dsimp only
      rw [hall, hvalue, hsmall]

/-! ### Lists and their text -/

def listText (items : List Nat) : List Char := [','].intercalate (items.map decimal)

/-- What the configuration holds for a list of VLANs. -/
def configOf (items : List Nat) : Option (List Char) :=
  if items = [] then none else some (listText items)

theorem strtok_listText {items : List Nat} (hne : items ≠ []) :
    strtok (listText items) = items.map decimal := by
  unfold strtok listText
  rw [List.splitOn_intercalate]
  · apply List.filter_eq_self.mpr
    intro x hx
    obtain ⟨v, -, rfl⟩ := List.mem_map.mp hx
    simp [decimal_ne_nil]
  · intro x hx
    obtain ⟨v, -, rfl⟩ := List.mem_map.mp hx
    exact comma_not_mem_decimal v
  · simp [hne]

theorem storedVlans_configOf {items : List Nat}
    (hrange : ∀ v ∈ items, 1 ≤ v ∧ v ≤ maxVlanId) : storedVlans (configOf items) = items := by
  by_cases hne : items = []
  · subst hne
    rfl
  · have hconfig : configOf items = some (listText items) := if_neg hne
    have hread : (items.map decimal).map atol = items := by
      rw [List.map_map]
      conv_rhs => rw [← List.map_id items]
      apply List.map_congr_left
      intro v hv
      exact atol_decimal (hrange v hv).2
    rw [hconfig]
    change ((strtok (listText items)).map atol).filter (0 < ·) = items
    rw [strtok_listText hne, hread]
    apply List.filter_eq_self.mpr
    intro v hv
    have hpos := (hrange v hv).1
    exact decide_eq_true hpos

/-- Adding a VLAN whose text no item contains appends it to the list. -/
theorem appended_configOf (items : List Nat) (vlanId : Nat) :
    some (appended (configOf items) vlanId) = configOf (items ++ [vlanId]) := by
  have hright : configOf (items ++ [vlanId]) = some (listText (items ++ [vlanId])) :=
    if_neg (by simp)
  rw [hright]
  by_cases hne : items = []
  · subst hne
    simp [configOf, appended, listText]
  · have hconfig : configOf items = some (listText items) := if_neg hne
    have hmap : items.map decimal ≠ [] := by simp [hne]
    rw [hconfig]
    unfold appended listText
    rw [List.map_append, List.map_singleton, intercalate_append_cons,
      front_eq_intercalate ',' hmap]
    simp

theorem strstr_configOf_eq_none {items : List Nat} {vlanId : Nat}
    (hfree : ∀ u ∈ items, ¬decimal vlanId <:+: decimal u) :
    strstr (listText items) (decimal vlanId) = none := by
  apply strstr_intercalate_eq_none (comma_not_mem_decimal vlanId) (decimal_ne_nil vlanId)
  intro x hx
  obtain ⟨u, hu, rfl⟩ := List.mem_map.mp hx
  exact hfree u hu

/-- Deleting a VLAN that no VLAN in front of it hides cuts it out of the list. -/
theorem cut_configOf {pre post : List Nat} {vlanId : Nat}
    (hfree : ∀ u ∈ pre, ¬decimal vlanId <:+: decimal u) :
    ∃ p, strstr (listText (pre ++ vlanId :: post)) (decimal vlanId) = some p ∧
      cutAt ',' (listText (pre ++ vlanId :: post)) p = configOf (pre ++ post) := by
  have hsplit : (pre ++ vlanId :: post).map decimal =
      pre.map decimal ++ decimal vlanId :: post.map decimal := by simp
  refine ⟨(front ',' (pre.map decimal)).length, ?_, ?_⟩
  · unfold listText
    rw [hsplit]
    apply strstr_intercalate (comma_not_mem_decimal vlanId) (decimal_ne_nil vlanId)
    intro x hx
    obtain ⟨u, hu, rfl⟩ := List.mem_map.mp hx
    exact hfree u hu
  · unfold listText
    rw [hsplit, cutAt_intercalate (comma_not_mem_decimal vlanId), ← List.map_append]
    unfold configOf listText
    by_cases hne : pre ++ post = []
    · simp [hne]
    · have hmap : (pre ++ post).map decimal ≠ [] := by
        intro heq
        exact hne (List.map_eq_nil_iff.mp heq)
      rw [if_neg hmap, if_neg hne]

/-! ### The list of a port -/

/-- Port `portId` holds the VLANs `items`, in all three representations. -/
structure PortHolds (s : VlanState) (portId : Nat) (items : List Nat) : Prop where
  nodup : items.Nodup
  range : ∀ v ∈ items, 1 ≤ v ∧ v ≤ maxVlanId
  config : s.config portId = configOf items
  fits : (listText items).length < bigBufLen
  mapped : ∀ v, s.mcVlanMap v portId = true ↔ v ∈ items
  programmed : ∀ v, s.dalVlanMap portId v = s.mcVlanMap v portId

structure Held (numOfPorts : Nat) (s : VlanState) : Prop where
  intact : s.overrun = false
  ports : ∀ portId, validPort numOfPorts portId → ∃ items, PortHolds s portId items

theorem PortHolds.stored {s : VlanState} {portId : Nat} {items : List Nat}
    (h : PortHolds s portId items) : storedVlans (s.config portId) = items := by
  rw [h.config]
  exact storedVlans_configOf h.range

/-- A call on one port leaves the lists of the others alone. -/
theorem PortHolds.other {s s' : VlanState} {portId : Nat} {items : List Nat}
    (h : PortHolds s portId items) (hconfig : s'.config portId = s.config portId)
    (hmap : ∀ v, s'.mcVlanMap v portId = s.mcVlanMap v portId)
    (hdal : ∀ v, s'.dalVlanMap portId v = s.dalVlanMap portId v) : PortHolds s' portId items where
  nodup := h.nodup
  range := h.range
  config := hconfig.trans h.config
  fits := h.fits
  mapped := by
    intro v
    rw [hmap]
    exact h.mapped v
  programmed := by
    intro v
    rw [hdal, hmap]
    exact h.programmed v

/-! ### Restart -/

/-- Reading a list back adds its VLANs to the port's bits and to the switch. -/
theorem foldl_vlanMapAdd (s : VlanState) (portId : Nat) (items : List Nat) :
    let s' := items.foldl
      (fun s vlanId => mcVlanMapAdd (dalMcVlanMapAdd s portId vlanId) portId vlanId) s
    s'.config = s.config ∧ s'.overrun = s.overrun ∧
      (∀ v p, s'.mcVlanMap v p = true ↔ s.mcVlanMap v p = true ∨ (p = portId ∧ v ∈ items)) ∧
      (∀ v p, s'.dalVlanMap p v = true ↔ s.dalVlanMap p v = true ∨ (p = portId ∧ v ∈ items)) := by
  induction items generalizing s with
  | nil => simp
  | cons u items ih =>
    obtain ⟨hconfig, hover, hmap, hdal⟩ :=
      ih (mcVlanMapAdd (dalMcVlanMapAdd s portId u) portId u)
    refine ⟨hconfig, hover, ?_, ?_⟩
    · intro v p
      rw [List.foldl_cons, hmap]
      simp only [mcVlanMapAdd, mcVlanMapSet, dalMcVlanMapAdd, dalVlanMapSet, List.mem_cons]
      by_cases hvp : v = u ∧ p = portId
      · simp [hvp]
      · rw [if_neg hvp]
        tauto
    · intro v p
      rw [List.foldl_cons, hdal]
      simp only [mcVlanMapAdd, mcVlanMapSet, dalMcVlanMapAdd, dalVlanMapSet, List.mem_cons]
      by_cases hvp : v = u ∧ p = portId
      · simp [hvp]
      · rw [if_neg hvp]
        tauto

theorem initPort_spec (s : VlanState) (portId : Nat) :
    let s' := initPortFromConfigFile s portId
    s'.config = s.config ∧
      s'.overrun = (s.overrun || decide (bigBufLen ≤ ((s.config portId).getD []).length)) ∧
      (∀ v p, s'.mcVlanMap v p = true ↔
        s.mcVlanMap v p = true ∨ (p = portId ∧ v ∈ storedVlans (s.config portId))) ∧
      (∀ v p, s'.dalVlanMap p v = true ↔
        s.dalVlanMap p v = true ∨ (p = portId ∧ v ∈ storedVlans (s.config portId))) :=
  foldl_vlanMapAdd
    { s with overrun := s.overrun || bigBufLen ≤ ((s.config portId).getD []).length } portId
    (storedVlans (s.config portId))

/-- Reading the lists of several ports back. -/
theorem foldl_initPort (s : VlanState) (ports : List Nat) :
    let s' := ports.foldl initPortFromConfigFile s
    s'.config = s.config ∧
      ((∀ p ∈ ports, ((s.config p).getD []).length < bigBufLen) → s'.overrun = s.overrun) ∧
      (∀ v p, s'.mcVlanMap v p = true ↔
        s.mcVlanMap v p = true ∨ (p ∈ ports ∧ v ∈ storedVlans (s.config p))) ∧
      (∀ v p, s'.dalVlanMap p v = true ↔
        s.dalVlanMap p v = true ∨ (p ∈ ports ∧ v ∈ storedVlans (s.config p))) := by
  induction ports generalizing s with
  | nil => simp
  | cons i ports ih =>
    obtain ⟨hconfig₁, hover₁, hmap₁, hdal₁⟩ := initPort_spec s i
    obtain ⟨hconfig, hover, hmap, hdal⟩ := ih (initPortFromConfigFile s i)
    rw [hconfig₁] at hconfig hover hmap hdal
    refine ⟨hconfig, ?_, ?_, ?_⟩
    · intro hfits
      have hi := hfits i (List.mem_cons_self ..)
      rw [List.foldl_cons, hover (fun p hp => hfits p (List.mem_cons_of_mem _ hp)), hover₁]
      have hnot : ¬bigBufLen ≤ ((s.config i).getD []).length := not_le.mpr hi
      simp [hnot]
    · intro v p
      rw [List.foldl_cons, hmap, hmap₁, List.mem_cons]
      constructor
      · rintro ((h | ⟨rfl, h⟩) | ⟨hp, h⟩)
        · exact Or.inl h
        · exact Or.inr ⟨Or.inl rfl, h⟩
        · exact Or.inr ⟨Or.inr hp, h⟩
      · rintro (h | ⟨rfl | hp, h⟩)
        · exact Or.inl (Or.inl h)
        · exact Or.inl (Or.inr ⟨rfl, h⟩)
        · exact Or.inr ⟨hp, h⟩
    · intro v p
      rw [List.foldl_cons, hdal, hdal₁, List.mem_cons]
      constructor
      · rintro ((h | ⟨rfl, h⟩) | ⟨hp, h⟩)
        · exact Or.inl h
        · exact Or.inr ⟨Or.inl rfl, h⟩
        · exact Or.inr ⟨Or.inr hp, h⟩
      · rintro (h | ⟨rfl | hp, h⟩)
        · exact Or.inl (Or.inl h)
        · exact Or.inl (Or.inr ⟨rfl, h⟩)
        · exact Or.inr ⟨hp, h⟩

theorem mem_ports {numOfPorts portId : Nat} (h : validPort numOfPorts portId) :
    portId ∈ (List.range numOfPorts).map (· + 1) := by
  obtain ⟨hlow, hhigh⟩ := h
  refine List.mem_map.mpr ⟨portId - 1, List.mem_range.mpr ?_, ?_⟩
  · omega
  · omega

theorem validPort_of_mem {numOfPorts portId : Nat}
    (h : portId ∈ (List.range numOfPorts).map (· + 1)) : validPort numOfPorts portId := by
  obtain ⟨i, hi, rfl⟩ := List.mem_map.mp h
  have hlt := List.mem_range.mp hi
  exact ⟨by omega, by omega⟩

/-- A restart rebuilds bits and switch from the lists. -/
theorem restart_spec {numOfPorts : Nat} {s : VlanState} (h : Held numOfPorts s) :
    (restart numOfPorts s).config = s.config ∧ (restart numOfPorts s).overrun = false ∧
      ∀ portId, validPort numOfPorts portId → ∀ v,
        (restart numOfPorts s).mcVlanMap v portId = s.mcVlanMap v portId ∧
          (restart numOfPorts s).dalVlanMap portId v = s.mcVlanMap v portId := by
  obtain ⟨hconfig, hover, hmap, hdal⟩ := foldl_initPort
    { s with mcVlanMap := fun _ _ => false, dalVlanMap := fun _ _ => false }
    ((List.range numOfPorts).map (· + 1))
  refine ⟨hconfig, ?_, ?_⟩
  · refine (hover ?_).trans h.intact
    intro p hp
    obtain ⟨items, hitems⟩ := h.ports p (validPort_of_mem hp)
    change ((s.config p).getD []).length < bigBufLen
    rw [hitems.config]
    unfold configOf
    by_cases hne : items = []
    · simp [hne, bigBufLen]
    · simpa [hne] using hitems.fits
  · intro portId hport v
    obtain ⟨items, hitems⟩ := h.ports portId hport
    have hstored : v ∈ storedVlans (s.config portId) ↔ s.mcVlanMap v portId = true := by
      rw [hitems.stored, hitems.mapped]
    constructor
    · rw [Bool.eq_iff_iff, ← hstored]
      exact (hmap v portId).trans ⟨fun hor => by simpa [mem_ports hport] using hor,
        fun hmem => Or.inr ⟨mem_ports hport, hmem⟩⟩
    · rw [Bool.eq_iff_iff, ← hstored]
      exact (hdal v portId).trans ⟨fun hor => by simpa [mem_ports hport] using hor,
        fun hmem => Or.inr ⟨mem_ports hport, hmem⟩⟩

theorem Held.agree {numOfPorts : Nat} {s : VlanState} (h : Held numOfPorts s) :
    Agree numOfPorts s where
  intact := h.intact
  parsed := by
    intro portId hport vlanId
    obtain ⟨items, hitems⟩ := h.ports portId hport
    rw [hitems.stored, hitems.mapped]
  programmed := by
    intro portId hport vlanId
    obtain ⟨items, hitems⟩ := h.ports portId hport
    exact hitems.programmed vlanId
  restored := (restart_spec h).2.2

/-! ### The calls -/

/-- A VLAN that no listed VLAN contains is not found in the list. -/
theorem PortHolds.not_found {s : VlanState} {portId vlanId : Nat} {items : List Nat}
    (h : PortHolds s portId items) (hfree : ∀ u ∈ items, ¬decimal vlanId <:+: decimal u) :
    ∀ text, s.config portId = some text → strstr text (decimal vlanId) = none := by
  intro text htext
  rw [h.config] at htext
  unfold configOf at htext
  split at htext
  · cases htext
  · cases htext
    exact strstr_configOf_eq_none hfree

theorem add_result {s : VlanState} {portId vlanId : Nat}
    (hexist : mcVlanMapExist s portId vlanId = false)
    (hfree : ∀ text, s.config portId = some text → strstr text (decimal vlanId) = none)
    (hroom : (appended (s.config portId) vlanId).length < bigBufLen) :
    (odmMcVlanMapAdd s portId vlanId).2 =
      mcVlanMapAdd (setConfig (dalMcVlanMapAdd s portId vlanId) portId
        (some (appended (s.config portId) vlanId))) portId vlanId := by
  have hfits : ¬bigBufLen ≤ (appended (s.config portId) vlanId).length := not_le.mpr hroom
  have hkept : (dalMcVlanMapAdd s portId vlanId).config = s.config := rfl
  unfold odmMcVlanMapAdd
  rw [hexist]
  cases hconfig : s.config portId with
  | none =>
    rw [hconfig] at hfits
    simp only [hkept, hconfig, hfits, Bool.false_eq_true, if_false, decide_false, Bool.or_false]
    rfl
  | some text =>
    rw [hconfig] at hfits
    simp only [hkept, hconfig, hfits, hfree text hconfig, Bool.false_eq_true, if_false,
      decide_false, Bool.or_false]
    rfl

theorem Held.add {numOfPorts : Nat} {s : VlanState} (h : Held numOfPorts s) {portId vlanId : Nat}
    (hallowed : editAllowed numOfPorts s (.add portId vlanId)) :
    Held numOfPorts (odmMcVlanMapAdd s portId vlanId).2 := by
  obtain ⟨hport, hpos, hmax, hnew⟩ := hallowed
  cases hexist : mcVlanMapExist s portId vlanId with
  | true =>
    have hsame : (odmMcVlanMapAdd s portId vlanId).2 = s := by simp [odmMcVlanMapAdd, hexist]
    rw [hsame]
    exact h
  | false =>
    obtain ⟨hfree, hroom⟩ := hnew hexist
    obtain ⟨items, hitems⟩ := h.ports portId hport
    rw [hitems.stored] at hfree
    have hresult := add_result hexist (hitems.not_found hfree) hroom
    have hunlisted : vlanId ∉ items := by
      intro hmem
      have hbit := (hitems.mapped vlanId).mpr hmem
      rw [mcVlanMapExist, hbit] at hexist
      cases hexist
    rw [hresult]
    refine ⟨h.intact, ?_⟩
    intro p hp
    by_cases heq : p = portId
    · subst heq
      have happ := appended_configOf items vlanId
      refine ⟨items ++ [vlanId], ?_, ?_, ?_, ?_, ?_, ?_⟩
      · exact List.nodup_append.mpr ⟨hitems.nodup, by simp, by
          intro a ha b hb
          rw [List.mem_singleton.mp hb]
          rintro rfl
          exact hunlisted ha⟩
      · intro v hv
        rcases List.mem_append.mp hv with hv | hv
        · exact hitems.range v hv
        · rw [List.mem_singleton.mp hv]
          exact ⟨hpos, hmax⟩
      · rw [← happ, ← hitems.config]
        simp [mcVlanMapAdd, mcVlanMapSet, setConfig]
      · have htext : listText (items ++ [vlanId]) = appended (s.config p) vlanId := by
          have hright : configOf (items ++ [vlanId]) = some (listText (items ++ [vlanId])) :=
            if_neg (by simp)
          rw [hright, ← hitems.config] at happ
          exact (Option.some.inj happ).symm
        rw [htext]
        exact hroom
      · intro v
        have hmapped := hitems.mapped v
        by_cases hv : v = vlanId
        · simp [mcVlanMapAdd, mcVlanMapSet, hv]
        · simpa [mcVlanMapAdd, mcVlanMapSet, setConfig, dalMcVlanMapAdd, dalVlanMapSet, hv]
            using hmapped
      · intro v
        have hprogrammed := hitems.programmed v
        by_cases hv : v = vlanId
        · simp [mcVlanMapAdd, mcVlanMapSet, setConfig, dalMcVlanMapAdd, dalVlanMapSet, hv]
        · simpa [mcVlanMapAdd, mcVlanMapSet, setConfig, dalMcVlanMapAdd, dalVlanMapSet, hv]
            using hprogrammed
    · obtain ⟨others, hothers⟩ := h.ports p hp
      refine ⟨others, hothers.other ?_ ?_ ?_⟩
      · simp [mcVlanMapAdd, mcVlanMapSet, setConfig, dalMcVlanMapAdd, dalVlanMapSet, heq]
      · intro v
        simp [mcVlanMapAdd, mcVlanMapSet, setConfig, dalMcVlanMapAdd, dalVlanMapSet, heq]
      · intro v
        simp [mcVlanMapAdd, mcVlanMapSet, setConfig, dalMcVlanMapAdd, dalVlanMapSet, heq]

/-- Deleting takes bit and switch entry of the port away; the text is cut where the VLAN
was found, and a text that was read fitted its buffer. -/
theorem del_result (s : VlanState) (portId vlanId : Nat) (value : Option (List Char))
    (hvalue : ∀ text, s.config portId = some text →
      value = match strstr text (decimal vlanId) with
        | none => some text
        | some p => cutAt ',' text p)
    (hnone : s.config portId = none → value = none)
    (hfits : ∀ text, s.config portId = some text → text.length < bigBufLen) :
    (odmMcVlanMapDel s portId vlanId).2 =
      setConfig (dalMcVlanMapDel (mcVlanMapDel s portId vlanId) portId vlanId) portId value := by
  have hkept : (dalMcVlanMapDel (mcVlanMapDel s portId vlanId) portId vlanId).config =
      s.config := rfl
  unfold odmMcVlanMapDel
  cases hconfig : s.config portId with
  | none =>
    have hsame : Function.update s.config portId none = s.config := by
      rw [← hconfig, Function.update_eq_self]
    simp only [hkept, hconfig, hnone hconfig, setConfig, hsame]
    rfl
  | some text =>
    have hnot : ¬bigBufLen ≤ text.length := not_le.mpr (hfits text hconfig)
    have htext := hvalue text hconfig
    cases hfound : strstr text (decimal vlanId) with
    | none =>
      rw [hfound] at htext
      have hsame : Function.update s.config portId (some text) = s.config := by
        rw [← hconfig, Function.update_eq_self]
      simp only [hkept, hconfig, hfound, hnot, htext, setConfig, hsame, decide_false, Bool.or_false]
    | some p =>
      rw [hfound] at htext
      simp only [hkept, hconfig, hfound, hnot, htext, decide_false, Bool.or_false]
      rfl

theorem PortHolds.fits_config {s : VlanState} {portId : Nat} {items : List Nat}
    (h : PortHolds s portId items) :
    ∀ text, s.config portId = some text → text.length < bigBufLen := by
  intro text htext
  rw [h.config] at htext
  unfold configOf at htext
  split at htext
  · cases htext
  · cases htext
    exact h.fits

theorem configOf_of_ne_nil {items : List Nat} (hne : items ≠ []) :
    configOf items = some (listText items) := if_neg hne

/-- What deleting leaves of the list of a port. -/
theorem PortHolds.del_result {s : VlanState} {portId vlanId : Nat} {items : List Nat}
    (h : PortHolds s portId items)
    (hfree : ∀ u ∈ items.takeWhile (· ≠ vlanId), ¬decimal vlanId <:+: decimal u) :
    ∃ rest : List Nat, rest.Sublist items ∧ (∀ v, v ∈ rest ↔ v ∈ items ∧ v ≠ vlanId) ∧
      (listText rest).length < bigBufLen ∧ (odmMcVlanMapDel s portId vlanId).2 =
        setConfig (dalMcVlanMapDel (mcVlanMapDel s portId vlanId) portId vlanId) portId
          (configOf rest) := by
  by_cases hmem : vlanId ∈ items
  · obtain ⟨pre, post, rfl, hpre⟩ := List.eq_append_cons_of_mem hmem
    have hahead : (pre ++ vlanId :: post).takeWhile (· ≠ vlanId) = pre := by
      rw [List.takeWhile_append_of_pos, List.takeWhile_cons_of_neg, List.append_nil]
      · simp
      · intro u hu
        have hne : u ≠ vlanId := by
          rintro rfl
          exact hpre hu
        exact decide_eq_true hne
    rw [hahead] at hfree
    obtain ⟨p, hfound, hcut⟩ := @cut_configOf pre post vlanId hfree
    have hpost : vlanId ∉ post := by
      have htail := (List.nodup_append.mp h.nodup).2.1
      exact (List.nodup_cons.mp htail).1
    have hconfig : s.config portId = some (listText (pre ++ vlanId :: post)) :=
      h.config.trans (configOf_of_ne_nil (by simp))
    refine ⟨pre ++ post, ?_, ?_, ?_, ?_⟩
    · exact (List.Sublist.refl pre).append (List.sublist_cons_self vlanId post)
    · intro v
      simp only [List.mem_append, List.mem_cons]
      constructor
      · intro hv
        refine ⟨by tauto, ?_⟩
        rintro rfl
        tauto
      · tauto
    · by_cases hne : pre ++ post = []
      · rw [hne]
        decide
      · rw [configOf_of_ne_nil hne] at hcut
        exact lt_of_le_of_lt (length_le_of_cutAt hcut) h.fits
    · apply Multicast.del_result
      · intro text htext
        cases hconfig.symm.trans htext
        rw [hfound]
        exact hcut.symm
      · intro hnone
        rw [hconfig] at hnone
        cases hnone
      · exact h.fits_config
  · have hall : items.takeWhile (· ≠ vlanId) = items := by
      rw [List.takeWhile_eq_self_iff]
      intro u hu
      have hne : u ≠ vlanId := by
        rintro rfl
        exact hmem hu
      exact decide_eq_true hne
    rw [hall] at hfree
    refine ⟨items, List.Sublist.refl items, ?_, h.fits, ?_⟩
    · intro v
      constructor
      · intro hv
        exact ⟨hv, fun heq => hmem (heq ▸ hv)⟩
      · rintro ⟨hv, -⟩
        exact hv
    · apply Multicast.del_result
      · intro text htext
        rw [h.not_found hfree text htext, ← h.config, htext]
      · intro hnone
        rw [← h.config, hnone]
      · exact h.fits_config

theorem Held.del {numOfPorts : Nat} {s : VlanState} (h : Held numOfPorts s) {portId vlanId : Nat}
    (hallowed : editAllowed numOfPorts s (.del portId vlanId)) :
    Held numOfPorts (odmMcVlanMapDel s portId vlanId).2 := by
  obtain ⟨hport, -, -, hfree⟩ := hallowed
  obtain ⟨items, hitems⟩ := h.ports portId hport
  rw [hitems.stored] at hfree
  obtain ⟨rest, hsub, hmem, hfits, hresult⟩ := hitems.del_result hfree
  rw [hresult]
  refine ⟨h.intact, ?_⟩
  intro p hp
  by_cases heq : p = portId
  · subst heq
    refine ⟨rest, hitems.nodup.sublist hsub, ?_, ?_, hfits, ?_, ?_⟩
    · intro v hv
      exact hitems.range v (hsub.subset hv)
    · simp [setConfig]
    · intro v
      rw [hmem, ← hitems.mapped]
      by_cases hv : v = vlanId <;>
        simp [setConfig, dalMcVlanMapDel, dalVlanMapSet, mcVlanMapDel, mcVlanMapSet, hv]
    · intro v
      have hprogrammed := hitems.programmed v
      by_cases hv : v = vlanId
      · simp [setConfig, dalMcVlanMapDel, dalVlanMapSet, mcVlanMapDel, mcVlanMapSet, hv]
      · simpa [setConfig, dalMcVlanMapDel, dalVlanMapSet, mcVlanMapDel, mcVlanMapSet, hv]
          using hprogrammed
  · obtain ⟨others, hothers⟩ := h.ports p hp
    refine ⟨others, hothers.other ?_ ?_ ?_⟩
    · simp [setConfig, dalMcVlanMapDel, dalVlanMapSet, mcVlanMapDel, mcVlanMapSet, heq]
    · intro v
      simp [setConfig, dalMcVlanMapDel, dalVlanMapSet, mcVlanMapDel, mcVlanMapSet, heq]
    · intro v
      simp [setConfig, dalMcVlanMapDel, dalVlanMapSet, mcVlanMapDel, mcVlanMapSet, heq]

theorem Held.reboot {numOfPorts : Nat} {s : VlanState} (h : Held numOfPorts s) :
    Held numOfPorts (restart numOfPorts s) := by
  obtain ⟨hconfig, hintact, hmaps⟩ := restart_spec h
  refine ⟨hintact, ?_⟩
  intro portId hport
  obtain ⟨items, hitems⟩ := h.ports portId hport
  refine ⟨items, hitems.other (congrFun hconfig portId) ?_ ?_⟩
  · intro v
    exact (hmaps portId hport v).1
  · intro v
    exact (hmaps portId hport v).2.trans (hitems.programmed v).symm

/-! ### Every run -/

theorem held_init (numOfPorts : Nat) : Held numOfPorts vlanInit where
  intact := rfl
  ports := by
    intro portId _
    refine ⟨[], List.nodup_nil, ?_, rfl, ?_, ?_, ?_⟩
    · intro v hv
      cases hv
    · decide
    · intro v
      simp [vlanInit]
    · intro v
      rfl

theorem Held.step {numOfPorts : Nat} {s : VlanState} {e : VlanEvent} (h : Held numOfPorts s)
    (hallowed : editAllowed numOfPorts s e) : Held numOfPorts (vlanStep numOfPorts s e) := by
  cases e with
  | add portId vlanId => exact h.add hallowed
  | del portId vlanId => exact h.del hallowed
  | reboot => exact h.reboot

/-- **The lists, the bits and the switch agree in every state of a run whose calls meet
the condition**, restarts included. -/
theorem vlan_map_agrees (numOfPorts : Nat) (es : List VlanEvent)
    (hallowed : AllSteps (vlanStep numOfPorts) (editAllowed numOfPorts) vlanInit es) :
    AllStates (vlanStep numOfPorts) (Agree numOfPorts) vlanInit es :=
  (allStates_of_allSteps (vlanStep numOfPorts) (Held numOfPorts)
    (fun _ _ hheld hok => hheld.step hok) (held_init numOfPorts) hallowed).mono
    (fun _ hheld => hheld.agree)

/-- A run with VLANs 100, 10 and 1000 on one port, in an order that hides none of them. -/
theorem vlan_map_agrees_three_vlans :
    AllSteps (vlanStep 4) (editAllowed 4) vlanInit
        [.add 1 10, .add 1 100, .add 1 1000, .add 2 1, .del 1 10, .del 1 100, .reboot] ∧
      AllStates (vlanStep 4) (Agree 4) vlanInit
        [.add 1 10, .add 1 100, .add 1 1000, .add 2 1, .del 1 10, .del 1 100, .reboot] := by
  have hallowed : AllSteps (vlanStep 4) (editAllowed 4) vlanInit
      [.add 1 10, .add 1 100, .add 1 1000, .add 2 1, .del 1 10, .del 1 100, .reboot] := by
    decide +kernel
  exact ⟨hallowed, vlan_map_agrees 4 _ hallowed⟩

/-- VLAN 10 is found inside 100: adding it programs the switch and stores nothing, and
deleting it takes VLAN 100 out of the configuration. -/
theorem vlan_10_found_inside_100 :
    ¬AllStates (vlanStep 4) (Agree 4) vlanInit [.add 1 100, .add 1 10] ∧
      ¬AllStates (vlanStep 4) (Agree 4) vlanInit [.add 1 100, .del 1 10] := by
  constructor
  · intro hall
    have hprogrammed := hall.last.programmed 1 (by decide) 10
    revert hprogrammed
    decide +kernel
  · intro hall
    have hrestored := (hall.last.restored 1 (by decide) 100).1
    revert hrestored
    decide +kernel

end Opconn.Multicast
