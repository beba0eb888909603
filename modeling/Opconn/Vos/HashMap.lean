import Opconn.Vos.Hash
import Mathlib.Algebra.Order.BigOperators.Group.Finset

/-!
# The hash table is a finite map

Every entry stays in the chain its key is hashed to, and no key occurs twice in a chain.
An insertion that resizes is an insertion into the table of the same entries, whatever the
resizes nest.  So a table that is used by insertions, removals and clearings holds what the
operations say, and its counter and its index agree with it.
-/

namespace Opconn.Vos

open KeyedList FirstMatch

variable {κ β : Type*} {keys : HashKeys κ}

/-! ### The table of primes -/

theorem primeSearch_spec {size : Int} {i p next : Nat} {ps : List Nat}
    (h : primeSearch size i ps = some (p, next)) :
    ∃ n, next = i + n + 1 ∧ ps[n]? = some p := by
  induction ps generalizing i with
  | nil => cases h
  | cons q ps ih =>
    rw [primeSearch] at h
    split at h
    · simp only [Option.some.injEq, Prod.mk.injEq] at h
      exact ⟨0, by omega, by simp [h.1]⟩
    · obtain ⟨n, hnext, hn⟩ := ih h
      exact ⟨n + 1, by omega, by simpa using hn⟩

theorem primeSize_spec {size : Int} {offset p next : Nat}
    (h : primeSize size offset = some (p, next)) :
    ∃ n, next = n + 1 ∧ offset ≤ n ∧ primes[n]? = some p := by
  obtain ⟨n, hnext, hn⟩ := primeSearch_spec h
  rw [List.getElem?_drop] at hn
  exact ⟨offset + n, hnext, by omega, hn⟩

theorem prime_ge {n p : Nat} (h : primes[n]? = some p) : 13 ≤ p := by
  have hall : ∀ q ∈ primes, 13 ≤ q := by decide
  exact hall p (List.mem_of_getElem? h)

/-- The number of keys a table can hold before a resize could overflow an `int`. -/
def tableLimit : Nat := 881027640

/-- Below the limit there is a next prime, and doubling the size stays in range. -/
theorem next_prime {n p : Nat} (hp : primes[n]? = some p) (hfull : maxFullness p < tableLimit) :
    n + 1 < primes.length ∧ p * 2 ≤ intMax ∧ primeSize (p * 2 : Nat) (n + 1) ≠ none := by
  have hall : ∀ n < primes.length, ∀ p ∈ primes[n]?, maxFullness p < tableLimit →
      n + 1 < primes.length ∧ p * 2 ≤ intMax ∧ primeSize (p * 2 : Nat) (n + 1) ≠ none := by
    decide +kernel
  exact hall n (List.getElem?_eq_some_iff.mp hp).1 p hp hfull

/-! ### Sound tables -/

/-- Every entry is in the chain of its key, no key occurs twice, `count` is the number of
entries, and `items` is at most the number of chains in use. -/
structure Sound (keys : HashKeys κ) (tab : HashTable κ β) : Prop where
  prime : ∃ n, tab.primeOffset = n + 1 ∧ primes[n]? = some tab.hashSize
  threshold : tab.resizeThreshold = maxFullness tab.hashSize
  placed : ∀ i, ∀ e ∈ tab.hashList i, hashIndex keys e.1 tab = i
  distinct : ∀ i, Distinct keys.toKeyEq (tab.hashList i)
  counted : tab.count = (∑ i ∈ Finset.range tab.hashSize, (tab.hashList i).length : ℕ)
  items_le : tab.items ≤
    (∑ i ∈ Finset.range tab.hashSize, min 1 (tab.hashList i).length : ℕ)

theorem Sound.index_lt {tab : HashTable κ β} (h : Sound keys tab) (key : κ) :
    hashIndex keys key tab < tab.hashSize := by
  obtain ⟨n, -, hn⟩ := h.prime
  have hsize := prime_ge hn
  have hlt : hashIndex keys key tab < tab.hashSize - 1 := Nat.mod_lt _ (by omega)
  omega

theorem Sound.items_le_count {tab : HashTable κ β} (h : Sound keys tab) :
    tab.items ≤ tab.count := by
  have hle : ∑ i ∈ Finset.range tab.hashSize, min 1 (tab.hashList i).length ≤
      ∑ i ∈ Finset.range tab.hashSize, (tab.hashList i).length :=
    Finset.sum_le_sum fun i _ => Nat.min_le_right ..
  have hitems := h.items_le
  rw [h.counted]
  omega

theorem sound_emptyTable {n p : Nat} (hp : primes[n]? = some p) :
    Sound keys (emptyTable p (n + 1) : HashTable κ β) := by
  refine ⟨⟨n, rfl, hp⟩, rfl, ?_, ?_, ?_, ?_⟩
  · intro i e he
    cases he
  · intro i
    exact List.Pairwise.nil
  · simp [emptyTable]
  · simp [emptyTable]

/-- One chain is replaced. -/
theorem Sound.setChain {tab : HashTable κ β} (h : Sound keys tab) {i : Nat}
    (hi : i < tab.hashSize) {chain : List (κ × β)}
    (hplaced : ∀ e ∈ chain, hashIndex keys e.1 tab = i)
    (hdistinct : Distinct keys.toKeyEq chain) {items count : Int}
    (hcount : count + (tab.hashList i).length = tab.count + chain.length)
    (hitems : items + min 1 (tab.hashList i).length ≤ tab.items + min 1 chain.length) :
    Sound keys { tab.setChain i chain with items := items, count := count } := by
  have hlength := sum_update List.length tab.hashList hi chain
  have hused := sum_update (fun l => min 1 l.length) tab.hashList hi chain
  have hcounted := h.counted
  have hle := h.items_le
  refine ⟨h.prime, h.threshold, ?_, ?_, ?_, ?_⟩
  · intro j e he
    by_cases hj : j = i
    · subst hj
      simp only [HashTable.setChain, Function.update_self] at he
      exact hplaced e he
    · simp only [HashTable.setChain, Function.update_of_ne hj] at he
      exact h.placed j e he
  · intro j
    by_cases hj : j = i
    · subst hj
      simpa only [HashTable.setChain, Function.update_self] using hdistinct
    · simpa only [HashTable.setChain, Function.update_of_ne hj] using h.distinct j
  · simp only [HashTable.setChain]
    omega
  · simp only [HashTable.setChain]
    omega

/-- The chain of a key is replaced by one that differs in that key only. -/
theorem value_setChain {tab : HashTable κ β} {key : κ} {chain : List (κ × β)} {x : Option β}
    (hchain : ∀ k, lookup keys.toKeyEq k chain = if keys.same k key then x
      else lookup keys.toKeyEq k (tab.hashList (hashIndex keys key tab)))
    (items count : Int) (k : κ) :
    vosHashValue keys k
        { tab.setChain (hashIndex keys key tab) chain with items := items, count := count } =
      if keys.same k key then x else vosHashValue keys k tab := by
  have hindex : hashIndex keys k
      { tab.setChain (hashIndex keys key tab) chain with items := items, count := count } =
      hashIndex keys k tab := rfl
  rw [vosHashValue, hindex]
  simp only [HashTable.setChain]
  by_cases hi : hashIndex keys k tab = hashIndex keys key tab
  · rw [hi, Function.update_self, hchain, vosHashValue, hi]
  · have hne : keys.same k key = false := by
      rw [← Bool.not_eq_true]
      intro hsame
      exact hi (by rw [hashIndex, hashIndex, keys.hash_eq hsame])
    rw [Function.update_of_ne hi, hne, if_neg Bool.false_ne_true, vosHashValue]

/-! ### Entries -/

theorem mem_entries {tab : HashTable κ β} {e : κ × β} :
    e ∈ tab.entries ↔ ∃ i < tab.hashSize, e ∈ tab.hashList i := by
  simp [HashTable.entries]

theorem Sound.entries_distinct {tab : HashTable κ β} (h : Sound keys tab) :
    Distinct keys.toKeyEq tab.entries := by
  refine List.pairwise_flatMap.mpr ⟨fun i _ => h.distinct i, ?_⟩
  refine (List.pairwise_lt_range).imp ?_
  intro i j hij e he f hf
  rw [← Bool.not_eq_true]
  intro hsame
  have hindex : hashIndex keys e.1 tab = hashIndex keys f.1 tab := by
    rw [hashIndex, hashIndex, keys.hash_eq hsame]
  rw [h.placed i e he, h.placed j f hf] at hindex
  omega

theorem Sound.lookup_entries {tab : HashTable κ β} (h : Sound keys tab) (k : κ) :
    lookup keys.toKeyEq k tab.entries = vosHashValue keys k tab := by
  ext v
  rw [h.entries_distinct.lookup_eq_some_iff, vosHashValue, (h.distinct _).lookup_eq_some_iff]
  constructor
  · rintro ⟨e, hmem, hsame, hv⟩
    obtain ⟨i, -, hi⟩ := mem_entries.mp hmem
    have hindex : hashIndex keys k tab = i := by
      rw [hashIndex, keys.hash_eq hsame]
      exact h.placed i e hi
    rw [hindex]
    exact ⟨e, hi, hsame, hv⟩
  · rintro ⟨e, hmem, hsame, hv⟩
    exact ⟨e, mem_entries.mpr ⟨_, h.index_lt k, hmem⟩, hsame, hv⟩

theorem Sound.length_entries {tab : HashTable κ β} (h : Sound keys tab) :
    tab.count = (tab.entries.length : ℤ) := by
  rw [h.counted, HashTable.entries, List.length_flatMap]
  rfl

theorem rehashOrder_perm (tab : HashTable κ β) : (rehashOrder tab).Perm tab.entries := by
  apply List.Perm.flatMap_left
  intro i _
  cases tab.hashList i with
  | nil => exact List.Perm.refl _
  | cons curEntry rest => exact List.perm_append_singleton ..

/-! ### Insertion -/

/-- `tab'` is `tab` with the value of the key set. -/
structure Inserted (keys : HashKeys κ) (tab : HashTable κ β) (key : κ) (data : β)
    (tab' : HashTable κ β) : Prop where
  sound : Sound keys tab'
  offset : tab.primeOffset ≤ tab'.primeOffset
  value : ∀ k, vosHashValue keys k tab' =
    if keys.same k key then some data else vosHashValue keys k tab
  count : tab'.count = if vosHashValue keys key tab = none then tab.count + 1 else tab.count

theorem hashListUpdate_eq_none {root : List (κ × β)} {key : κ} {data : β}
    (h : hashListUpdate keys root key data = none) : lookup keys.toKeyEq key root = none := by
  unfold hashListUpdate at h
  split at h
  · cases h
  · rename_i hany
    rw [lookup_eq_none_iff]
    simpa using hany

theorem hashListUpdate_eq_some {root chain : List (κ × β)} {key : κ} {data : β}
    (h : hashListUpdate keys root key data = some chain) :
    chain = replaceFirst keys.toKeyEq key data root ∧ lookup keys.toKeyEq key root ≠ none := by
  unfold hashListUpdate at h
  split at h
  · rename_i hany
    refine ⟨(Option.some.inj h).symm, ?_⟩
    rw [Ne, lookup_eq_none_iff]
    simpa using hany
  · cases h

/-- The entry of the key is replaced. -/
theorem Sound.update {tab : HashTable κ β} (h : Sound keys tab) {key : κ} {data : β}
    {chain : List (κ × β)}
    (hchain : hashListUpdate keys (tab.hashList (hashIndex keys key tab)) key data = some chain) :
    Inserted keys tab key data (tab.setChain (hashIndex keys key tab) chain) := by
  obtain ⟨rfl, hold⟩ := hashListUpdate_eq_some hchain
  have hlength := length_updateFirst (fun e => keys.same key e.1) (fun _ => (key, data))
    (tab.hashList (hashIndex keys key tab))
  refine ⟨?_, le_refl _, ?_, ?_⟩
  · refine h.setChain (h.index_lt key) ?_ ((h.distinct _).replaceFirst key data) ?_ ?_
    · intro e he
      rcases mem_updateFirst he with hmem | ⟨a, -, rfl⟩
      · exact h.placed _ e hmem
      · rfl
    · rw [replaceFirst, hlength]
    · rw [replaceFirst, hlength]
  · exact value_setChain (lookup_replaceFirst keys.toKeyEq hold data) _ _
  · have hvalue : vosHashValue keys key tab ≠ none := hold
    rw [if_neg hvalue]
    rfl

/-- A new key is appended to its chain. -/
theorem Sound.append {tab tab' : HashTable κ β} (h : Sound keys tab) {key : κ}
    (hnew : vosHashValue keys key tab = none) {data : β}
    (happend : hashAppend keys key data tab = some tab') : Inserted keys tab key data tab' := by
  rw [hashAppend] at happend
  dsimp only at happend
  split at happend
  · cases happend
  · cases happend
    refine ⟨?_, le_refl _, ?_, ?_⟩
    · refine h.setChain (h.index_lt key) ?_ ((h.distinct _).append_new hnew data) ?_ ?_
      · intro e he
        rcases List.mem_append.mp he with hmem | hmem
        · exact h.placed _ e hmem
        · rw [List.mem_singleton.mp hmem]
      · rw [List.length_append, List.length_singleton]
        omega
      · rw [List.length_append, List.length_singleton]
        split
        · rename_i hnil
          rw [hnil]
          simp
        · rename_i hne
          have hpos := List.length_pos_iff.mpr hne
          omega
    · exact value_setChain (lookup_append_new keys.toKeyEq hnew data) _ _
    · rw [if_pos hnew]

/-- An insertion that returns is right. -/
def InsertsRight (keys : HashKeys κ)
    (insert : κ → β → HashTable κ β → Option (HashTable κ β)) : Prop :=
  ∀ {tab key data tab'}, Sound keys tab → insert key data tab = some tab' →
    Inserted keys tab key data tab'

/-- Inserting entries with new keys one after the other. -/
theorem InsertsRight.foldlM {insert : κ → β → HashTable κ β → Option (HashTable κ β)}
    (hinsert : InsertsRight keys insert) {l : List (κ × β)} (hl : Distinct keys.toKeyEq l)
    {tab tab' : HashTable κ β} (h : Sound keys tab)
    (hnew : ∀ e ∈ l, vosHashValue keys e.1 tab = none)
    (hrun : l.foldlM (fun tab e => insert e.1 e.2 tab) tab = some tab') :
    Sound keys tab' ∧ tab.primeOffset ≤ tab'.primeOffset ∧ tab'.count = tab.count + l.length ∧
      ∀ k, vosHashValue keys k tab' =
        (lookup keys.toKeyEq k l).or (vosHashValue keys k tab) := by
  induction l generalizing tab with
  | nil =>
    cases hrun
    exact ⟨h, le_refl _, by simp, by simp⟩
  | cons e l ih =>
    obtain ⟨hhead, htail⟩ := List.pairwise_cons.mp hl
    rw [List.foldlM_cons] at hrun
    obtain ⟨tab₁, heq, hrest⟩ := Option.bind_eq_some_iff.mp hrun
    have hins := hinsert h heq
    have hcount₁ : tab₁.count = tab.count + 1 := by
      rw [hins.count, if_pos (hnew e (List.mem_cons_self ..))]
    have hnew₁ : ∀ f ∈ l, vosHashValue keys f.1 tab₁ = none := by
      intro f hf
      have hne : keys.same f.1 e.1 = false := by
        rw [keys.comm]
        exact hhead f hf
      rw [hins.value, hne, if_neg Bool.false_ne_true]
      exact hnew f (List.mem_cons_of_mem _ hf)
    obtain ⟨hsound, hle, hlen, hvalue⟩ := ih htail hins.sound hnew₁ hrest
    refine ⟨hsound, hins.offset.trans hle, ?_, ?_⟩
    · rw [hlen, hcount₁, List.length_cons]
      omega
    · intro k
      rw [hvalue, hins.value, lookup_cons]
      cases hk : keys.same k e.1 with
      | false => simp
      | true =>
        have hnone : lookup keys.toKeyEq k l = none := hl.lookup_tail hk
        simp [hnone]

/-- `tab'` is `tab` with its entries in chains of other lengths. -/
structure Resized (keys : HashKeys κ) (tab tab' : HashTable κ β) : Prop where
  sound : Sound keys tab'
  offset : tab.primeOffset < tab'.primeOffset
  value : ∀ k, vosHashValue keys k tab' = vosHashValue keys k tab
  count : tab'.count = tab.count

theorem Sound.rehashOrder_distinct {tab : HashTable κ β} (h : Sound keys tab) :
    Distinct keys.toKeyEq (rehashOrder tab) := by
  refine ((rehashOrder_perm tab).pairwise_iff ?_).mpr h.entries_distinct
  intro e f hne
  rw [keys.comm]
  exact hne

/-- A resize that returns keeps the entries and takes later primes. -/
theorem Sound.resize {depth : Nat}
    (hinsert : InsertsRight keys (hashInsertWith keys (hashResizeWithin (β := β) keys depth)))
    {tab tab' : HashTable κ β} (h : Sound keys tab)
    (hresize : hashResizeWithin keys (depth + 1) tab = some tab') : Resized keys tab tab' := by
  rw [hashResizeWithin] at hresize
  split at hresize
  · cases hresize
  · cases hprime : primeSize (tab.hashSize * 2 : Nat) tab.primeOffset with
    | none =>
      rw [hprime] at hresize
      cases hresize
    | some found =>
      obtain ⟨newsize, next⟩ := found
      rw [hprime] at hresize
      obtain ⟨m, rfl, hle, hm⟩ := primeSize_spec hprime
      obtain ⟨hsound, hoffset, hlen, hvalue⟩ :=
        hinsert.foldlM h.rehashOrder_distinct (sound_emptyTable hm) (fun _ _ => rfl) hresize
      refine ⟨hsound, ?_, ?_, ?_⟩
      · simp only [emptyTable] at hoffset
        omega
      · intro k
        have hempty : vosHashValue keys k (emptyTable newsize (m + 1) : HashTable κ β) = none := rfl
        rw [hvalue, hempty, Option.or_none, ← h.lookup_entries]
        exact h.entries_distinct.lookup_perm (rehashOrder_perm tab).symm k
      · rw [hlen, (rehashOrder_perm tab).length_eq, h.length_entries]
        simp [emptyTable]

/-- An insertion whose resize, where it makes one, keeps the entries. -/
theorem Sound.insertWith {tab tab' : HashTable κ β} (h : Sound keys tab)
    {resize : HashTable κ β → Option (HashTable κ β)}
    (hresize : ∀ {tab₁}, resize tab = some tab₁ → Resized keys tab tab₁) {key : κ} {data : β}
    (hinsert : hashInsertWith keys resize key data tab = some tab') :
    Inserted keys tab key data tab' := by
  rw [hashInsertWith] at hinsert
  cases hupdate : hashListUpdate keys (tab.hashList (hashIndex keys key tab)) key data with
  | some chain =>
    simp only [hupdate] at hinsert
    cases hinsert
    exact h.update hupdate
  | none =>
    have hnew : vosHashValue keys key tab = none := hashListUpdate_eq_none hupdate
    simp only [hupdate] at hinsert
    split at hinsert
    · obtain ⟨tab₁, heq, happend⟩ := Option.bind_eq_some_iff.mp hinsert
      have hsame := hresize heq
      have hins := hsame.sound.append (by rw [hsame.value, hnew]) happend
      refine ⟨hins.sound, hsame.offset.le.trans hins.offset, ?_, ?_⟩
      · intro k
        rw [hins.value, hsame.value]
      · rw [hins.count, hsame.value, hsame.count]
    · exact h.append hnew hinsert

/-- Insertion at every depth of nesting, by induction on how many more resizes fit. -/
theorem insertsRight_within (depth : Nat) :
    InsertsRight keys (hashInsertWith keys (hashResizeWithin (β := β) keys depth)) := by
  induction depth with
  | zero =>
    intro tab key data tab' h hinsert
    refine h.insertWith ?_ hinsert
    intro tab₁ hresize
    cases hresize
  | succ depth ih =>
    intro tab key data tab' h hinsert
    exact h.insertWith (fun hresize => h.resize ih hresize) hinsert

theorem Sound.inserted {tab tab' : HashTable κ β} (h : Sound keys tab) {key : κ} {data : β}
    (hinsert : vosHashInsert keys key data tab = some tab') : Inserted keys tab key data tab' :=
  insertsRight_within primes.length h hinsert

/-! ### Insertions that return -/

/-- Insertion at one depth of nesting returns as long as the table is below its limit. -/
def InsertsBelow (keys : HashKeys κ) (depth : Nat)
    (insert : κ → β → HashTable κ β → Option (HashTable κ β)) : Prop :=
  ∀ tab key data, Sound keys tab → primes.length ≤ depth + tab.primeOffset →
    tab.count < tableLimit → ∃ tab', insert key data tab = some tab'

theorem InsertsBelow.foldlM {depth : Nat}
    {insert : κ → β → HashTable κ β → Option (HashTable κ β)}
    (hinsert : InsertsBelow keys depth insert) (hright : InsertsRight keys insert)
    {l : List (κ × β)} {tab : HashTable κ β} (h : Sound keys tab)
    (hdepth : primes.length ≤ depth + tab.primeOffset)
    (hcount : tab.count + l.length ≤ tableLimit) :
    ∃ tab', l.foldlM (fun tab e => insert e.1 e.2 tab) tab = some tab' := by
  induction l generalizing tab with
  | nil => exact ⟨tab, rfl⟩
  | cons e l ih =>
    rw [List.length_cons] at hcount
    obtain ⟨tab₁, heq⟩ := hinsert tab e.1 e.2 h hdepth (by omega)
    have hins := hright h heq
    have hoffset := hins.offset
    have hcount₁ : tab₁.count ≤ tab.count + 1 := by
      rw [hins.count]
      split <;> omega
    obtain ⟨tab', hrun⟩ := ih hins.sound (by omega) (by omega)
    refine ⟨tab', ?_⟩
    rw [List.foldlM_cons, heq]
    exact hrun

theorem Sound.resize_returns {depth : Nat}
    (hinsert : InsertsBelow keys depth (hashInsertWith keys (hashResizeWithin (β := β) keys depth)))
    {tab : HashTable κ β} (h : Sound keys tab)
    (hdepth : primes.length ≤ depth + 1 + tab.primeOffset)
    (hfull : (tab.resizeThreshold : Int) ≤ tab.items) (hcount : tab.count < tableLimit) :
    ∃ tab', hashResizeWithin keys (depth + 1) tab = some tab' := by
  obtain ⟨n, hoffset, hn⟩ := h.prime
  have hlimit : maxFullness tab.hashSize < tableLimit := by
    have hle := h.items_le_count
    rw [h.threshold] at hfull
    omega
  obtain ⟨-, hrange, hsome⟩ := next_prime hn hlimit
  obtain ⟨⟨newsize, next⟩, hprime⟩ := Option.ne_none_iff_exists'.mp hsome
  obtain ⟨m, rfl, hle, hm⟩ := primeSize_spec hprime
  have hlength : ((rehashOrder tab).length : ℤ) = tab.count := by
    rw [(rehashOrder_perm tab).length_eq, h.length_entries]
  have hnext : tab.primeOffset < (emptyTable newsize (m + 1) : HashTable κ β).primeOffset := by
    simp only [emptyTable]
    omega
  obtain ⟨tab', hrun⟩ := hinsert.foldlM (insertsRight_within depth) (sound_emptyTable hm)
    (l := rehashOrder tab) (by omega) (by simp only [emptyTable]; omega)
  refine ⟨tab', ?_⟩
  rw [hashResizeWithin, if_neg (by omega), hoffset, hprime]
  exact hrun

theorem hashAppend_returns (keys : HashKeys κ) {tab : HashTable κ β}
    (hcount : tab.count < tableLimit) (key : κ) (data : β) :
    ∃ tab', hashAppend keys key data tab = some tab' := by
  have hmax : tab.count ≠ intMax := by
    simp only [tableLimit] at hcount
    simp only [intMax]
    omega
  exact ⟨_, if_neg hmax⟩

theorem insertWith_returns {tab : HashTable κ β}
    {resize : HashTable κ β → Option (HashTable κ β)}
    (hresize : (tab.resizeThreshold : Int) ≤ tab.items →
      ∃ tab', resize tab = some tab' ∧ tab'.count = tab.count)
    (key : κ) (data : β) (hcount : tab.count < tableLimit) :
    ∃ tab', hashInsertWith keys resize key data tab = some tab' := by
  cases hupdate : hashListUpdate keys (tab.hashList (hashIndex keys key tab)) key data with
  | some chain =>
    refine ⟨tab.setChain (hashIndex keys key tab) chain, ?_⟩
    simp only [hashInsertWith, hupdate]
  | none =>
    by_cases hfull : (tab.resizeThreshold : Int) ≤ tab.items
    · obtain ⟨tab₁, heq, hsame⟩ := hresize hfull
      obtain ⟨tab', happend⟩ := hashAppend_returns keys (by rwa [hsame]) key data
      refine ⟨tab', ?_⟩
      simp only [hashInsertWith, hupdate, if_pos hfull, heq]
      exact happend
    · obtain ⟨tab', happend⟩ := hashAppend_returns keys hcount key data
      refine ⟨tab', ?_⟩
      simp only [hashInsertWith, hupdate, if_neg hfull]
      exact happend

theorem insertsBelow_within (depth : Nat) :
    InsertsBelow keys depth (hashInsertWith keys (hashResizeWithin (β := β) keys depth)) := by
  induction depth with
  | zero =>
    intro tab key data h hdepth hcount
    refine insertWith_returns ?_ key data hcount
    -- the last prime is so large that the table is never full below the limit
    intro hfull
    obtain ⟨n, hoffset, hn⟩ := h.prime
    have hle := h.items_le_count
    rw [h.threshold] at hfull
    have hnext := (next_prime hn (by omega)).1
    omega
  | succ depth ih =>
    intro tab key data h hdepth hcount
    refine insertWith_returns ?_ key data hcount
    intro hfull
    obtain ⟨tab', hresize⟩ := h.resize_returns ih (by omega) hfull hcount
    exact ⟨tab', hresize, (h.resize (insertsRight_within depth) hresize).count⟩

theorem Sound.insert {tab : HashTable κ β} (h : Sound keys tab) (key : κ) (data : β)
    (hcount : tab.count < tableLimit) :
    ∃ tab', vosHashInsert keys key data tab = some tab' ∧ Inserted keys tab key data tab' := by
  obtain ⟨tab', hinsert⟩ :=
    insertsBelow_within primes.length tab key data h (Nat.le_add_right ..) hcount
  exact ⟨tab', hinsert, h.inserted hinsert⟩

/-! ### Removal and clearing -/

theorem Sound.remove {tab : HashTable κ β} (h : Sound keys tab) (key : κ) :
    Sound keys (vosHashRemove keys key tab) ∧
      ∀ k, vosHashValue keys k (vosHashRemove keys key tab) =
        if keys.same k key then none else vosHashValue keys k tab := by
  have hdistinct := h.distinct (hashIndex keys key tab)
  have hplaced := h.placed (hashIndex keys key tab)
  have herase := hdistinct.lookup_eraseP key
  -- a key without an entry has no value to lose
  have hkeep : (∀ e ∈ tab.hashList (hashIndex keys key tab), keys.same e.1 key = false) →
      ∀ k, vosHashValue keys k tab = if keys.same k key then none else vosHashValue keys k tab := by
    intro hnone k
    split
    · rename_i hsame
      rw [vosHashValue, lookup_eq_none_iff, hashIndex, keys.hash_eq hsame]
      intro e he
      rw [keys.congr_left hsame, keys.comm]
      exact hnone e he
    · rfl
  unfold vosHashRemove
  dsimp only
  cases hchain : tab.hashList (hashIndex keys key tab) with
  | nil =>
    refine ⟨h, hkeep ?_⟩
    rw [hchain]
    simp
  | cons pos rest =>
    rw [hchain] at hdistinct hplaced herase
    dsimp only
    split
    · rename_i hhead
      rw [List.eraseP_cons_of_pos (a := pos) hhead] at herase
      constructor
      · refine h.setChain (h.index_lt key) ?_ (List.pairwise_cons.mp hdistinct).2 ?_ ?_
        · intro e he
          exact hplaced e (List.mem_cons_of_mem _ he)
        · rw [hchain, List.length_cons]
          omega
        · rw [hchain, List.length_cons]
          omega
      · refine value_setChain ?_ _ _
        rw [hchain]
        exact herase
    · rename_i hhead
      rw [List.eraseP_cons_of_neg (a := pos) hhead] at herase
      split
      · rename_i hany
        obtain ⟨e, hmem, hsame⟩ := List.any_eq_true.mp hany
        have hlength := List.length_eraseP_of_mem (p := fun e => keys.same e.1 key) hmem hsame
        have hpos := List.length_pos_of_mem hmem
        constructor
        · refine h.setChain (h.index_lt key) ?_ ?_ ?_ ?_
          · intro e he
            rcases List.mem_cons.mp he with rfl | hmem
            · exact hplaced _ (List.mem_cons_self ..)
            · exact hplaced e (List.mem_cons_of_mem _ (List.mem_of_mem_eraseP hmem))
          · have hsub := hdistinct.eraseP fun e => keys.same e.1 key
            rwa [List.eraseP_cons_of_neg (a := pos) hhead] at hsub
          · rw [hchain, List.length_cons, List.length_cons]
            omega
          · rw [hchain, List.length_cons, List.length_cons]
            simp only [HashTable.setChain]
            omega
        · refine value_setChain ?_ _ _
          rw [hchain]
          exact herase
      · rename_i hany
        refine ⟨h, hkeep ?_⟩
        rw [hchain]
        intro e he
        rcases List.mem_cons.mp he with rfl | hmem
        · simpa using hhead
        · simpa using fun hsame => hany (List.any_eq_true.mpr ⟨e, hmem, hsame⟩)

theorem Sound.clear {tab : HashTable κ β} (h : Sound keys tab) :
    Sound keys (vosHashClear tab) ∧ ∀ k, vosHashValue keys k (vosHashClear tab) = none := by
  unfold vosHashClear
  split
  · rename_i hzero
    refine ⟨h, ?_⟩
    intro k
    rw [← h.lookup_entries]
    have hlength := h.length_entries
    have hnil : tab.entries = [] := List.length_eq_zero_iff.mp (by omega)
    rw [hnil, lookup_nil]
  · refine ⟨⟨h.prime, h.threshold, ?_, ?_, ?_, ?_⟩, ?_⟩
    · intro i e he
      dsimp only at he
      split at he
      · cases he
      · exact h.placed i e he
    · intro i
      dsimp only
      split
      · exact List.Pairwise.nil
      · exact h.distinct i
    · dsimp only
      rw [Finset.sum_eq_zero]
      · rfl
      · intro i hi
        rw [if_pos (Finset.mem_range.mp hi), List.length_nil]
    · exact Int.natCast_nonneg _
    · intro k
      have hlt := h.index_lt k
      rw [vosHashValue]
      exact (congrArg (lookup keys.toKeyEq k) (if_pos hlt)).trans (lookup_nil ..)

/-! ### The index -/

theorem indexWalk_eq {index : UInt32} {current : Nat} {l : List (κ × β)}
    (hcurrent : current ≤ index.toNat) (hlen : current + l.length ≤ 2 ^ 32) :
    indexWalk index current l = l[index.toNat - current]? := by
  induction l generalizing current with
  | nil => simp [indexWalk]
  | cons pos rest ih =>
    rw [List.length_cons] at hlen
    rw [indexWalk, Nat.mod_eq_of_lt (by omega)]
    split
    · rename_i heq
      simp [heq]
    · rename_i hne
      have hsub : index.toNat - current = index.toNat - (current + 1) + 1 := by omega
      rw [ih (by omega) (by omega), hsub, List.getElem?_cons_succ]

theorem Sound.getByIndex {tab : HashTable κ β} (h : Sound keys tab)
    (hcount : tab.count < tableLimit) {i : Nat} (hi : i < tab.entries.length) :
    vosHashValueGetByIndex (UInt32.ofNat i) tab = tab.entries[i]? := by
  have hlength := h.length_entries
  simp only [tableLimit] at hcount
  have hnat : (UInt32.ofNat i).toNat = i := by
    rw [UInt32.toNat_ofNat']
    exact Nat.mod_eq_of_lt (by omega)
  rw [vosHashValueGetByIndex, hnat, if_neg (by omega), indexWalk_eq (by omega) (by omega), hnat,
    Nat.sub_zero]

/-! ### Runs -/

/-- What one operation says about the value of a key. -/
def lastInsertStep (keys : HashKeys κ) (k : κ) (value : Option β) : HashOp κ β → Option β
  | .insert key data => if keys.same k key then some data else value
  | .remove key => if keys.same k key then none else value
  | .clear => none

/-- The value of the last insertion of the key that no removal of it follows. -/
def lastInsert (keys : HashKeys κ) (k : κ) (ops : List (HashOp κ β)) : Option β :=
  ops.foldl (lastInsertStep keys k) none

/-- **The table behaves as the map the operations describe.** -/
structure IsMap (keys : HashKeys κ) (ops : List (HashOp κ β)) (tab : HashTable κ β) : Prop where
  value : ∀ k, vosHashValue keys k tab = lastInsert keys k ops
  listed : ∃ entries : List (κ × β),
    Distinct keys.toKeyEq entries ∧
    (∀ k v, lastInsert keys k ops = some v ↔
      ∃ e ∈ entries, keys.same k e.1 = true ∧ e.2 = v) ∧
    tab.count = entries.length ∧
    ∀ i < entries.length, vosHashValueGetByIndex (UInt32.ofNat i) tab = entries[i]?

/-- The operations leave so many keys with a value that a table of them does not fit into
the memory of a 32-bit processor: an entry takes twelve bytes. -/
def Outgrown (keys : HashKeys κ) (ops : List (HashOp κ β)) : Prop :=
  ∃ live : List κ, live.Pairwise (fun k l => keys.same k l = false) ∧
    (∀ k ∈ live, lastInsert keys k ops ≠ none) ∧ tableLimit ≤ live.length

/-- The operation inserts the key. -/
def HashOp.inserts (keys : HashKeys κ) (k : κ) : HashOp κ β → Bool
  | .insert key _ => keys.same k key
  | .remove _ => false
  | .clear => false

/-- Only a key that was inserted has a value. -/
theorem inserted_of_lastInsert {k : κ} {ops : List (HashOp κ β)}
    (h : lastInsert keys k ops ≠ none) : ∃ op ∈ ops, op.inserts keys k = true := by
  induction ops using List.reverseRecOn with
  | nil => exact absurd rfl h
  | append_singleton ops op ih =>
    rw [lastInsert, List.foldl_append, ← lastInsert, List.foldl_cons, List.foldl_nil] at h
    by_cases hop : op.inserts keys k = true
    · exact ⟨op, List.mem_append_right _ (List.mem_singleton_self _), hop⟩
    · have hold : lastInsert keys k ops ≠ none := by
        intro hnone
        apply h
        rw [hnone]
        cases op with
        | insert key data => exact if_neg hop
        | remove key => exact ite_self _
        | clear => rfl
      obtain ⟨op', hmem, hop'⟩ := ih hold
      exact ⟨op', List.mem_append_left _ hmem, hop'⟩

theorem same_of_inserts {op : HashOp κ β} {k l : κ} (hk : op.inserts keys k = true)
    (hl : op.inserts keys l = true) : keys.same k l = true := by
  cases op with
  | insert key data => exact keys.trans hk (keys.symm hl)
  | remove key => cases hk
  | clear => cases hk

/-- It takes as many operations to outgrow a table. -/
theorem Outgrown.le_length {ops : List (HashOp κ β)} (h : Outgrown keys ops) :
    tableLimit ≤ ops.length := by
  obtain ⟨live, hdistinct, hlive, hmany⟩ := h
  have : Nonempty (HashOp κ β) := ⟨.clear⟩
  choose! op hmem hop using fun k (hk : k ∈ live) => inserted_of_lastInsert (hlive k hk)
  have hnodup : (live.map op).Nodup := by
    rw [List.Nodup, List.pairwise_map]
    refine hdistinct.imp_of_mem ?_
    intro k l hk hl hne heq
    have hl' := hop l hl
    rw [← heq] at hl'
    rw [same_of_inserts (hop k hk) hl'] at hne
    cases hne
  have hsub : live.map op ⊆ ops := by
    intro o ho
    obtain ⟨k, hk, rfl⟩ := List.mem_map.mp ho
    exact hmem k hk
  calc tableLimit ≤ live.length := hmany
    _ = (live.map op).length := (List.length_map ..).symm
    _ ≤ ops.length := (List.subperm_of_subset hnodup hsub).length_le

/-- The table is sound and holds the values of the operations so far. -/
structure Refines (keys : HashKeys κ) (ops : List (HashOp κ β)) (tab : HashTable κ β) : Prop where
  sound : Sound keys tab
  value : ∀ k, vosHashValue keys k tab = lastInsert keys k ops

theorem Refines.count_lt {ops : List (HashOp κ β)} {tab : HashTable κ β}
    (h : Refines keys ops tab) (hfits : ¬Outgrown keys ops) : tab.count < tableLimit := by
  by_contra hge
  have hlength := h.sound.length_entries
  refine hfits ⟨tab.entries.map Prod.fst, ?_, ?_, ?_⟩
  · exact List.pairwise_map.mpr h.sound.entries_distinct
  · intro k hk
    obtain ⟨e, he, rfl⟩ := List.mem_map.mp hk
    have hsome : lookup keys.toKeyEq e.1 tab.entries = some e.2 :=
      h.sound.entries_distinct.lookup_eq_some_iff.mpr ⟨e, he, keys.refl e.1, rfl⟩
    rw [← h.value, ← h.sound.lookup_entries, hsome]
    simp
  · rw [List.length_map]
    omega

theorem Refines.isMap {ops : List (HashOp κ β)} {tab : HashTable κ β} (h : Refines keys ops tab)
    (hfits : ¬Outgrown keys ops) : IsMap keys ops tab := by
  refine ⟨h.value, tab.entries, h.sound.entries_distinct, ?_, h.sound.length_entries, ?_⟩
  · intro k v
    rw [← h.value, ← h.sound.lookup_entries]
    exact h.sound.entries_distinct.lookup_eq_some_iff
  · intro i hi
    exact h.sound.getByIndex (h.count_lt hfits) hi

/-- One operation. -/
theorem Refines.step {ops : List (HashOp κ β)} {tab : HashTable κ β} (h : Refines keys ops tab)
    (hfits : ¬Outgrown keys ops) (op : HashOp κ β) :
    ∃ tab', hashStep keys tab op = some tab' ∧ Refines keys (ops ++ [op]) tab' := by
  have hlast : ∀ k, lastInsert keys k (ops ++ [op]) =
      lastInsertStep keys k (lastInsert keys k ops) op := by
    intro k
    rw [lastInsert, List.foldl_append]
    rfl
  cases op with
  | insert key data =>
    obtain ⟨tab', hrun, hins⟩ := h.sound.insert key data (h.count_lt hfits)
    refine ⟨tab', hrun, hins.sound, ?_⟩
    intro k
    rw [hins.value, h.value, hlast, lastInsertStep]
  | remove key =>
    obtain ⟨hsound, hvalue⟩ := h.sound.remove key
    refine ⟨_, rfl, hsound, ?_⟩
    intro k
    rw [hvalue, h.value, hlast, lastInsertStep]
  | clear =>
    obtain ⟨hsound, hvalue⟩ := h.sound.clear
    refine ⟨_, rfl, hsound, ?_⟩
    intro k
    rw [hvalue, hlast, lastInsertStep]

theorem Refines.run {done ops : List (HashOp κ β)} {tab : HashTable κ β}
    (h : Refines keys done tab) (hfits : ∀ pre, pre <+: ops → ¬Outgrown keys (done ++ pre)) :
    ∃ tab', hashRun keys tab ops = some tab' ∧ Refines keys (done ++ ops) tab' := by
  induction ops generalizing done tab with
  | nil => exact ⟨tab, rfl, by simpa using h⟩
  | cons op ops ih =>
    have hnow : ¬Outgrown keys done := by simpa using hfits [] (List.nil_prefix ..)
    obtain ⟨tab₁, hstep, h₁⟩ := h.step hnow op
    obtain ⟨tab', hrun, h'⟩ := ih h₁ (by
      intro pre hpre
      have hcons := hfits (op :: pre) (List.cons_prefix_cons.mpr ⟨rfl, hpre⟩)
      simpa using hcons)
    refine ⟨tab', ?_, by simpa using h'⟩
    rw [hashRun, List.foldlM_cons, hstep]
    exact hrun

/-- A new table has chains as many as some prime. -/
theorem vosHashCreate_eq {size : Int} {tab : HashTable κ β} (h : vosHashCreate size = some tab) :
    ∃ n p, primes[n]? = some p ∧ tab = emptyTable p (n + 1) := by
  unfold vosHashCreate at h
  dsimp only at h
  split at h
  · cases h
  · split at h
    · cases h
    · rename_i hprime
      obtain ⟨n, rfl, -, hn⟩ := primeSize_spec hprime
      exact ⟨n, _, hn, (Option.some.inj h).symm⟩

theorem refines_create {size : Int} {tab : HashTable κ β}
    (h : vosHashCreate size = some tab) : Refines keys [] tab := by
  obtain ⟨n, p, hn, rfl⟩ := vosHashCreate_eq h
  exact ⟨sound_emptyTable hn, fun _ => rfl⟩

/-- **A hash table is a finite map**: after any operations on a table that was created,
through every resize, the values, the counter and the index are those of the map the
operations describe; unless so many keys were held at once that no memory takes them. -/
theorem hash_table_is_map (keys : HashKeys κ) (size : Int) (tab : HashTable κ β)
    (hcreate : vosHashCreate size = some tab) (ops : List (HashOp κ β)) :
    (∃ pre, pre <+: ops ∧ Outgrown keys pre) ∨
      ∃ tab', hashRun keys tab ops = some tab' ∧ IsMap keys ops tab' := by
  by_cases hout : ∃ pre, pre <+: ops ∧ Outgrown keys pre
  · exact Or.inl hout
  · have hfits : ∀ pre, pre <+: ops → ¬Outgrown keys ([] ++ pre) := by
      intro pre hpre hgrown
      exact hout ⟨pre, hpre, hgrown⟩
    obtain ⟨tab', hrun, h'⟩ := (refines_create hcreate).run hfits
    exact Or.inr ⟨tab', hrun, h'.isMap (hfits ops (List.prefix_refl _))⟩

/-- Ten keys, of which the tenth resizes the table of thirteen chains, a removal and a
second value for a key. -/
theorem hash_table_is_map_ten_keys :
    (vosHashCreate 0 : Option (HashTable (List UInt8) Nat)) = some (emptyTable 13 1) ∧
      ∃ tab' : HashTable (List UInt8) Nat,
        hashRun (stringKeys false) (emptyTable 13 1)
          ([48, 49, 50, 51, 52, 53, 54, 55, 56, 57].map (fun c => .insert [c] c.toNat) ++
            [.remove [50], .insert [51] 7]) = some tab' ∧
        IsMap (stringKeys false)
          ([48, 49, 50, 51, 52, 53, 54, 55, 56, 57].map (fun c => .insert [c] c.toNat) ++
            [.remove [50], .insert [51] 7]) tab' := by
  refine ⟨rfl, (hash_table_is_map (stringKeys false) 0 (emptyTable 13 1) rfl _).resolve_left ?_⟩
  rintro ⟨pre, hpre, hgrown⟩
  have hmany := hgrown.le_length
  have hlength := hpre.length_le
  simp only [tableLimit] at hmany
  simp only [List.length_append, List.length_map, List.length_cons, List.length_nil] at hlength
  omega

end Opconn.Vos
