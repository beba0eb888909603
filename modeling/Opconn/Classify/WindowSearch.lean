import Mathlib.Data.Fin.VecNotation
import Mathlib.Data.List.GetD
import Mathlib.Data.List.TakeWhile
import Opconn.Classify.Windows

/-!
# The search for windows is exact

`clsOffsetCalc` succeeds exactly when the six windows have steps at which they show every byte
that is asked for.  The rows of `foffsetSearchTbl` list every place of a byte, so a choice of
steps is a choice of places; two bytes shown by a window at one step have different places in
it, so these places are free when their turn comes, and backtracking finds them or others.
-/

namespace Opconn.Classify

open Backtrack

/-! ### The list of requests -/

/-- `crequestValid`, cleared before the positions are written into it. -/
def crequestArray (positions : List Nat) : List Nat :=
  positions ++ List.replicate (keyvalueLength + 1 - positions.length) 0

/-- What `clsOffsetCalc` reads from `*requestValid` on: the position there, and those behind
it up to a zero. -/
def requestsFrom : List Nat → List Nat
  | [] => []
  | requestByte :: behind => requestByte :: behind.takeWhile (· ≠ 0)

/-- In a rising list only the first position can be 0. -/
theorem requestsFrom_crequestArray {positions : List Nat} (hne : positions ≠ [])
    (hlen : positions.length ≤ keyvalueLength) (hsorted : positions.Pairwise (· < ·)) :
    requestsFrom (crequestArray positions) = positions := by
  cases positions with
  | nil => exact absurd rfl hne
  | cons b rest =>
    have hpos : ∀ x ∈ rest, decide (x ≠ 0) = true := by
      intro x hx
      have := (List.pairwise_cons.mp hsorted).1 x hx
      simp only [decide_eq_true_eq]
      omega
    obtain ⟨n, hn⟩ : ∃ n, keyvalueLength + 1 - (b :: rest).length = n + 1 :=
      ⟨keyvalueLength - (b :: rest).length, by omega⟩
    rw [crequestArray, hn, List.cons_append, requestsFrom, List.takeWhile_append_of_pos hpos,
      List.replicate_succ, List.takeWhile_cons_of_neg (by simp), List.append_nil]

/-! ### Steps that show the requested bytes -/

/-- At the steps `o` the six windows show every requested byte. -/
def Covers (o : Fin 6 → Fin 12) (requests : List Nat) : Prop :=
  ∀ b ∈ requests, ∃ w c, (windowByte w (o w) c).val = b

/-- The place of byte `c` of window `w + 1` at step `v`. -/
def placeAt (w : Fin 6) (v : Fin 12) (c : Fin 4) : SearchEntry := ⟨w + 1, v, c⟩

/-- **The search table is complete**: a byte has every place that shows it in its row. -/
theorem placeAt_mem (w : Fin 6) (v : Fin 12) (c : Fin 4) :
    placeAt w v c ∈ foffsetSearchTbl.getD (windowByte w v c).val [] := by
  revert w v c
  decide +kernel

theorem exists_placeAt {b : Nat} {e : SearchEntry} (he : e ∈ foffsetSearchTbl.getD b []) :
    ∃ w v c, e = placeAt w v c ∧ (windowByte w v c).val = b := by
  have hplace := isPlace_of_mem he
  have hoffset : e.mOffset < 12 := by
    have hrows : ∀ row ∈ foffsetSearchTbl, ∀ e ∈ row, e.mOffset < 12 := by decide +kernel
    by_cases hb : b < foffsetSearchTbl.length
    · rw [List.getD_eq_getElem _ _ hb] at he
      exact hrows _ (List.getElem_mem hb) e he
    · rw [List.getD_eq_default _ _ (by omega)] at he
      cases he
  have hpos := hplace.index_pos
  have hle := hplace.index_le
  refine ⟨⟨e.mIndex - 1, by omega⟩, ⟨e.mOffset, hoffset⟩, ⟨e.mOffsetOff, hplace.off_lt⟩, ?_,
    hplace.shows⟩
  have hindex : e.mIndex - 1 + 1 = e.mIndex := by omega
  simp only [placeAt, hindex]

/-- The windows in use stand at the steps `o`, and where a byte of one is taken the byte of the
header that it shows is recorded. -/
structure StandsAt (o : Fin 6 → Fin 12) (s : Search) : Prop where
  step : ∀ w : Fin 6, (s.foffsetUsedTbl w).uOffsetOff ≠ 0 → (s.foffsetUsedTbl w).uOffset = o w
  taken : ∀ (w : Fin 6) (c : Fin 4), (s.foffsetUsedTbl w).uOffsetOff.getLsbD c = true →
    (s.crinfo (windowByte w (o w) c)).isSome = true

theorem standsAt_empty (o : Fin 6 → Fin 12) : StandsAt o Search.empty where
  step := fun _ h => absurd rfl h
  taken := fun _ _ h => by simp [Search.empty] at h

section StandsAt

variable {o : Fin 6 → Fin 12} {s : Search} {w : Fin 6} {c : Fin 4} {rs : List Nat}

/-- The place of a byte that is not recorded yet is free. -/
theorem StandsAt.available (h : StandsAt o s) (hcons : Consistent rs s)
    (hfresh : s.crinfo (windowByte w (o w) c) = none) :
    clsOffsetAvailableCheck s (placeAt w (o w) c) = true := by
  have hindex : (placeAt w (o w) c).mIndex - 1 = w := rfl
  simp only [clsOffsetAvailableCheck, hindex]
  by_cases hoff : (s.foffsetUsedTbl w).uOffsetOff = 0
  · simp [hoff, hcons.unused w hoff]
  · have hbit : (s.foffsetUsedTbl w).uOffsetOff.getLsbD c = false := by
      by_contra hset
      have hsome := h.taken w c (by simpa using hset)
      rw [hfresh] at hsome
      cases hsome
    simp [h.step w hoff, placeAt, hbit]

theorem StandsAt.put (h : StandsAt o s) :
    StandsAt o (s.put (windowByte w (o w) c) (placeAt w (o w) c)) := by
  have hindex : (placeAt w (o w) c).mIndex - 1 = w := rfl
  have hother : ∀ w' : Fin 6, w' ≠ w →
      (s.put (windowByte w (o w) c) (placeAt w (o w) c)).foffsetUsedTbl w' =
        s.foffsetUsedTbl w' := by
    intro w' hw
    exact Function.update_of_ne (by rw [hindex]; exact fun heq => hw (Fin.ext heq)) ..
  have hrecorded : ∀ b, (s.crinfo b).isSome = true →
      ((s.put (windowByte w (o w) c) (placeAt w (o w) c)).crinfo b).isSome = true := by
    intro b hb
    by_cases heq : b = (windowByte w (o w) c).val
    · simp [Search.put, heq]
    · simpa [Search.put, Function.update_of_ne heq] using hb
  constructor
  · intro w' hused
    by_cases hw : w' = w
    · subst hw
      simp [Search.put, placeAt]
    · rw [hother w' hw] at hused ⊢
      exact h.step w' hused
  · intro w' c' htaken
    by_cases hw : w' = w
    · subst hw
      simp only [Search.put, hindex, Function.update_self, BitVec.getLsbD_or, Bool.or_eq_true,
        getLsbD_oneShift (Nat.lt_of_lt_of_le c'.isLt (by decide : 4 ≤ 8)),
        decide_eq_true_eq] at htaken
      rcases htaken with hold | hnew
      · exact hrecorded _ (h.taken w' c' hold)
      · have hc : c' = c := Fin.ext hnew
        subst hc
        simp [Search.put]
    · rw [hother w' hw] at htaken
      exact hrecorded _ (h.taken w' c' htaken)

/-- Steps that show all requested bytes serve them. -/
theorem StandsAt.served (h : StandsAt o s) (hcons : Consistent rs s) (hcover : Covers o rs) :
    ∃ s', Served searchProblem rs s s' := by
  induction rs generalizing s with
  | nil => exact ⟨s, .done s⟩
  | cons b rs ih =>
    obtain ⟨w, c, hshows⟩ := hcover b (List.mem_cons_self ..)
    have hmem : placeAt w (o w) c ∈ searchProblem.candidates b := hshows ▸ placeAt_mem w (o w) c
    have hfree : searchProblem.free s (placeAt w (o w) c) = true :=
      h.available hcons (hshows ▸ hcons.fresh b (List.mem_cons_self ..))
    have hput : StandsAt o (searchProblem.put s b (placeAt w (o w) c)) := by
      rw [← hshows]
      exact h.put
    obtain ⟨s', hserved⟩ := ih hput (hcons.put hmem hfree) fun b' hb' =>
      hcover b' (List.mem_cons_of_mem _ hb')
    exact ⟨s', .choose _ hmem hfree hserved⟩

end StandsAt

/-! ### What a search has found -/

/-- What is recorded was recorded before, or is a place out of the row of a requested byte. -/
theorem crinfo_of_served {rs : List Nat} {s s' : Search} (h : Served searchProblem rs s s')
    {b : Nat} {e : SearchEntry} (he : s'.crinfo b = some e) :
    s.crinfo b = some e ∨ b ∈ rs ∧ e ∈ foffsetSearchTbl.getD b [] := by
  induction h with
  | done s => exact Or.inl he
  | @choose r rs s s' c hmem hfree hrest ih =>
    rcases ih he with hput | ⟨hb, hrow⟩
    · by_cases hb : b = r
      · subst hb
        obtain rfl : c = e := by simpa [searchProblem, Search.put] using hput
        exact Or.inr ⟨List.mem_cons_self .., hmem⟩
      · left
        simpa [searchProblem, Search.put, Function.update_of_ne hb] using hput
    · exact Or.inr ⟨List.mem_cons_of_mem _ hb, hrow⟩

/-- Each requested byte, and no other, is recorded in a slot of the windows at the steps `o`
that shows it, and no slot is used twice. -/
structure Assigns (o : Fin 6 → Fin 12) (requests : List Nat)
    (crinfo : Nat → Option SearchEntry) : Prop where
  placed : ∀ b ∈ requests, ∃ w c,
    crinfo b = some (placeAt w (o w) c) ∧ (windowByte w (o w) c).val = b
  only : ∀ b, (crinfo b).isSome = true → b ∈ requests
  distinct : ∀ b b' e e', crinfo b = some e → crinfo b' = some e' →
    e.mIndex = e'.mIndex → e.mOffsetOff = e'.mOffsetOff → b = b'

theorem Assigns.covers {o : Fin 6 → Fin 12} {requests : List Nat}
    {crinfo : Nat → Option SearchEntry} (h : Assigns o requests crinfo) : Covers o requests := by
  intro b hb
  obtain ⟨w, c, -, hshows⟩ := h.placed b hb
  exact ⟨w, c, hshows⟩

theorem assigns_of_served {requests : List Nat} (hnodup : requests.Nodup) {s' : Search}
    (h : Served searchProblem requests Search.empty s') :
    ∃ o, Assigns o requests s'.crinfo := by
  obtain ⟨hcons, hsome⟩ := consistent_of_served h (consistent_empty hnodup)
  have hrow : ∀ {b e}, s'.crinfo b = some e → e ∈ foffsetSearchTbl.getD b [] := by
    intro b e he
    rcases crinfo_of_served h he with hnone | ⟨-, hmem⟩
    · simp [Search.empty] at hnone
    · exact hmem
  -- each window stands at the step of its places
  refine ⟨fun w => Fin.ofNat 12 (s'.foffsetUsedTbl w).uOffset, ?_, ?_, ?_⟩
  · intro b hb
    obtain ⟨e, he⟩ := Option.isSome_iff_exists.mp ((hsome b).mpr (Or.inl hb))
    obtain ⟨w, v, c, rfl, hshows⟩ := exists_placeAt (hrow he)
    have hstep : (s'.foffsetUsedTbl w).uOffset = v := hcons.step he
    have hv : Fin.ofNat 12 (s'.foffsetUsedTbl w).uOffset = v := by
      rw [hstep]
      exact Fin.ext (Nat.mod_eq_of_lt v.isLt)
    refine ⟨w, c, ?_, ?_⟩
    · rw [hv]
      exact he
    · rw [hv]
      exact hshows
  · intro b hb
    rcases (hsome b).mp hb with hmem | hnone
    · exact hmem
    · simp [Search.empty] at hnone
  · intro b b' e e' he he' hindex hoff
    refine hcons.slot_injective he he' (Fin.ext ?_)
    rw [keySlot_val (hcons.place he), keySlot_val (hcons.place he'), hindex, hoff]

/-- **The search is exact.**  For every rising list of up to 24 positions `clsOffsetCalc`
succeeds if and only if some steps of the six windows show all of them; it then leaves each
in a slot of its own under such steps, and otherwise leaves the tables cleared. -/
theorem clsOffsetCalc_exact {requests : List (Fin packetHeaderLen)} (hne : requests ≠ [])
    (hlen : requests.length ≤ keyvalueLength) (hsorted : requests.Pairwise (· < ·)) :
    let positions := requests.map Fin.val
    let found := clsOffsetCalc (requestsFrom (crequestArray positions)) Search.empty
    (found.1 = true ↔ ∃ o, Covers o positions) ∧
      (found.1 = true → ∃ o, Assigns o positions found.2.crinfo) ∧
      (found.1 = false → found.2 = Search.empty) := by
  intro positions found
  have hrising : positions.Pairwise (· < ·) := List.pairwise_map.mpr hsorted
  have hnodup : positions.Nodup := hrising.imp fun h => Nat.ne_of_lt h
  have hcons := consistent_empty hnodup
  have hfound : found = Backtrack.search searchProblem positions Search.empty := by
    show clsOffsetCalc (requestsFrom (crequestArray positions)) _ = _
    rw [requestsFrom_crequestArray (by simpa [positions] using hne)
      (by simpa [positions] using hlen) hrising, clsOffsetCalc]
  have hserved : found.1 = true → Served searchProblem positions Search.empty found.2 := by
    intro h
    rw [hfound] at h ⊢
    exact served_of_search reversible_search hcons (Prod.ext h rfl)
  refine ⟨⟨?_, ?_⟩, ?_, ?_⟩
  · intro h
    obtain ⟨o, hassigns⟩ := assigns_of_served hnodup (hserved h)
    exact ⟨o, hassigns.covers⟩
  · rintro ⟨o, hcover⟩
    rw [hfound]
    exact (search_eq_true_iff reversible_search hcons).mpr
      ((standsAt_empty o).served hcons hcover)
  · exact fun h => assigns_of_served hnodup (hserved h)
  · intro h
    rcases search_cases reversible_search hcons with hfail | ⟨s', hok, -⟩
    · rw [hfound, hfail]
    · rw [hfound, hok] at h
      cases h

/-- The type and the target address of an ARP packet. -/
theorem arp_addresses_found :
    let positions := [12, 13, 38, 39, 40, 41]
    (clsOffsetCalc (requestsFrom (crequestArray positions)) Search.empty).1 = true := by
  have hexact := @clsOffsetCalc_exact [12, 13, 38, 39, 40, 41] (by decide)
    (by decide) (by decide)
  exact hexact.1.mpr ⟨![4, 8, 7, 0, 0, 0], by unfold Covers; decide +kernel⟩

end Opconn.Classify
