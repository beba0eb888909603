import Opconn.Lib.Runs
import Opconn.Vos.HashMap

/-!
# The number of chains in use

A hash table is resized when `items` reaches its threshold, and `items` is to count the
chains that are not empty.  Insertion counts a chain when it puts the first entry into it, a
resize counts anew, but a removal takes one off whenever it takes the head of a chain, also
when the chain goes on behind it.
-/

namespace Opconn.Vos

open KeyedList FirstMatch Runs

variable {κ β : Type*} {keys : HashKeys κ}

/-! ### What is to hold -/

/-- The chains that are not empty. -/
def usedBuckets (tab : HashTable κ β) : ℕ :=
  ∑ i ∈ Finset.range tab.hashSize, min 1 (tab.hashList i).length

/-- `items` is what it is to count. -/
def ItemsExact (tab : HashTable κ β) : Prop := tab.items = usedBuckets tab

/-- The removal does not take the head of a chain that goes on behind it. -/
def SparesChain (keys : HashKeys κ) (tab : HashTable κ β) : HashOp κ β → Prop
  | .remove key =>
    ∀ pos next rest, tab.hashList (hashIndex keys key tab) = pos :: next :: rest →
      keys.same pos.1 key = false
  | _ => True

/-- A step of a program that uses a table; `none` is a program that has stopped. -/
def tableStep (keys : HashKeys κ) (tab : Option (HashTable κ β)) (op : HashOp κ β) :
    Option (HashTable κ β) :=
  tab.bind fun tab => hashStep keys tab op

/-! ### One operation -/

theorem itemsExact_emptyTable (hashSize primeOffset : Nat) :
    ItemsExact (emptyTable hashSize primeOffset : HashTable κ β) := by
  simp [ItemsExact, usedBuckets, emptyTable]

/-- One chain is replaced. -/
theorem ItemsExact.setChain_iff {tab : HashTable κ β} (h : ItemsExact tab) {i : Nat}
    (hi : i < tab.hashSize) (chain : List (κ × β)) (items count : Int) :
    ItemsExact { tab.setChain i chain with items := items, count := count } ↔
      items + min 1 (tab.hashList i).length = tab.items + min 1 chain.length := by
  have hused := sum_update (fun l : List (κ × β) => min 1 l.length) tab.hashList hi chain
  rw [ItemsExact, usedBuckets] at h
  rw [ItemsExact, usedBuckets]
  simp only [HashTable.setChain]
  omega

theorem ItemsExact.update {tab : HashTable κ β} (hexact : ItemsExact tab) (h : Sound keys tab)
    {key : κ} {data : β} {chain : List (κ × β)}
    (hchain : hashListUpdate keys (tab.hashList (hashIndex keys key tab)) key data = some chain) :
    ItemsExact (tab.setChain (hashIndex keys key tab) chain) := by
  obtain ⟨rfl, -⟩ := hashListUpdate_eq_some hchain
  have hlength := length_updateFirst (fun e => keys.same key e.1) (fun _ => (key, data))
    (tab.hashList (hashIndex keys key tab))
  refine (hexact.setChain_iff (h.index_lt key) _ tab.items tab.count).mpr ?_
  rw [replaceFirst, hlength]

/-- A new entry counts its chain when it is the first there. -/
theorem ItemsExact.append {tab tab' : HashTable κ β} (hexact : ItemsExact tab)
    (h : Sound keys tab) {key : κ} {data : β}
    (happend : hashAppend keys key data tab = some tab') : ItemsExact tab' := by
  rw [hashAppend] at happend
  dsimp only at happend
  split at happend
  · cases happend
  · cases happend
    refine (hexact.setChain_iff (h.index_lt key) _ _ _).mpr ?_
    rw [List.length_append, List.length_singleton]
    split
    · next hnil =>
      rw [hnil]
      simp
    · next hne =>
      have hpos := List.length_pos_iff.mpr hne
      omega

/-- An insertion whose resize, where it makes one, counts right. -/
theorem ItemsExact.insertWith {tab tab' : HashTable κ β} (hexact : ItemsExact tab)
    (h : Sound keys tab) {resize : HashTable κ β → Option (HashTable κ β)}
    (hresize : ∀ {tab₁}, resize tab = some tab₁ → Sound keys tab₁ ∧ ItemsExact tab₁) {key : κ}
    {data : β} (hinsert : hashInsertWith keys resize key data tab = some tab') :
    ItemsExact tab' := by
  rw [hashInsertWith] at hinsert
  cases hupdate : hashListUpdate keys (tab.hashList (hashIndex keys key tab)) key data with
  | some chain =>
    simp only [hupdate] at hinsert
    cases hinsert
    exact hexact.update h hupdate
  | none =>
    simp only [hupdate] at hinsert
    split at hinsert
    · obtain ⟨tab₁, heq, happend⟩ := Option.bind_eq_some_iff.mp hinsert
      obtain ⟨hsound, hexact₁⟩ := hresize heq
      exact hexact₁.append hsound happend
    · exact hexact.append h hinsert

/-- An insertion into a sound table whose chains are counted right keeps both. -/
def InsertsExactly (keys : HashKeys κ)
    (insert : κ → β → HashTable κ β → Option (HashTable κ β)) : Prop :=
  ∀ {tab key data tab'}, Sound keys tab → ItemsExact tab → insert key data tab = some tab' →
    Sound keys tab' ∧ ItemsExact tab'

theorem InsertsExactly.foldlM {insert : κ → β → HashTable κ β → Option (HashTable κ β)}
    (hinsert : InsertsExactly keys insert) {l : List (κ × β)} {tab tab' : HashTable κ β}
    (h : Sound keys tab) (hexact : ItemsExact tab)
    (hrun : l.foldlM (fun tab e => insert e.1 e.2 tab) tab = some tab') :
    Sound keys tab' ∧ ItemsExact tab' := by
  induction l generalizing tab with
  | nil =>
    cases hrun
    exact ⟨h, hexact⟩
  | cons e l ih =>
    rw [List.foldlM_cons] at hrun
    obtain ⟨tab₁, heq, hrest⟩ := Option.bind_eq_some_iff.mp hrun
    obtain ⟨h₁, hexact₁⟩ := hinsert h hexact heq
    exact ih h₁ hexact₁ hrest

/-- A resize counts the chains anew, whatever `items` was before. -/
theorem itemsExact_resize {depth : Nat}
    (hinsert : InsertsExactly keys (hashInsertWith keys (hashResizeWithin (β := β) keys depth)))
    {tab tab' : HashTable κ β} (hresize : hashResizeWithin keys (depth + 1) tab = some tab') :
    Sound keys tab' ∧ ItemsExact tab' := by
  rw [hashResizeWithin] at hresize
  split at hresize
  · cases hresize
  · cases hprime : primeSize (tab.hashSize * 2 : Nat) tab.primeOffset with
    | none =>
      rw [hprime] at hresize
      cases hresize
    | some found =>
      obtain ⟨newsize, next⟩ := found
      rw [hprime] at hresize
      obtain ⟨m, rfl, -, hm⟩ := primeSize_spec hprime
      exact hinsert.foldlM (sound_emptyTable hm) (itemsExact_emptyTable _ _) hresize

/-- Insertion at every depth of nesting, by induction on how many more resizes fit. -/
theorem insertsExactly_within (depth : Nat) :
    InsertsExactly keys (hashInsertWith keys (hashResizeWithin (β := β) keys depth)) := by
  induction depth with
  | zero =>
    intro tab key data tab' h hexact hinsert
    refine ⟨(insertsRight_within 0 h hinsert).sound, hexact.insertWith h ?_ hinsert⟩
    intro tab₁ hresize
    cases hresize
  | succ depth ih =>
    intro tab key data tab' h hexact hinsert
    exact ⟨(insertsRight_within (depth + 1) h hinsert).sound,
      hexact.insertWith h (fun hresize => itemsExact_resize ih hresize) hinsert⟩

/-- A removal counts right exactly when it spares a chain that goes on. -/
theorem ItemsExact.remove_iff {tab : HashTable κ β} (hexact : ItemsExact tab)
    (h : Sound keys tab) (key : κ) :
    ItemsExact (vosHashRemove keys key tab) ↔ SparesChain keys tab (.remove key) := by
  unfold vosHashRemove SparesChain
  dsimp only
  cases hchain : tab.hashList (hashIndex keys key tab) with
  | nil => exact iff_of_true hexact (by simp)
  | cons pos rest =>
    dsimp only
    split
    · next hhead =>
      rw [hexact.setChain_iff (h.index_lt key), hchain]
      cases rest with
      | nil => simp
      | cons next rest => simp [hhead]
    · next hhead =>
      refine iff_of_true ?_ ?_
      · split
        · next hany =>
          obtain ⟨e, hmem, hsame⟩ := List.any_eq_true.mp hany
          refine (hexact.setChain_iff (h.index_lt key) _ _ _).mpr ?_
          rw [hchain, List.length_cons, List.length_cons]
          dsimp only [HashTable.setChain]
          omega
        · exact hexact
      · rintro pos' next rest' heq
        cases heq
        simpa using hhead

theorem ItemsExact.clear {tab : HashTable κ β} (h : ItemsExact tab) :
    ItemsExact (vosHashClear tab) := by
  unfold vosHashClear
  split
  · exact h
  · rw [ItemsExact, usedBuckets, Finset.sum_eq_zero]
    · rfl
    · intro i hi
      simp only [if_pos (Finset.mem_range.mp hi), List.length_nil]
      rfl

/-! ### Runs -/

/-- A table that is there is sound. -/
def SoundIfAny (keys : HashKeys κ) (tab : Option (HashTable κ β)) : Prop :=
  ∀ t ∈ tab, Sound keys t

theorem SoundIfAny.step {tab : Option (HashTable κ β)} (h : SoundIfAny keys tab)
    (op : HashOp κ β) : SoundIfAny keys (tableStep keys tab op) := by
  intro t' ht'
  obtain ⟨t, rfl, hstep⟩ := Option.bind_eq_some_iff.mp ht'
  have hsound := h t rfl
  cases op with
  | insert key data => exact (hsound.inserted hstep).sound
  | remove key =>
    cases hstep
    exact (hsound.remove key).1
  | clear =>
    cases hstep
    exact hsound.clear.1

theorem itemsExact_step_iff {t : HashTable κ β} (h : Sound keys t) (hexact : ItemsExact t)
    (op : HashOp κ β) :
    (∀ t' ∈ tableStep keys (some t) op, ItemsExact t') ↔ SparesChain keys t op := by
  cases op with
  | insert key data =>
    refine iff_of_true ?_ trivial
    intro t' ht'
    exact (insertsExactly_within primes.length h hexact ht').2
  | remove key =>
    rw [← hexact.remove_iff h key]
    simp [tableStep, hashStep]
  | clear =>
    refine iff_of_true ?_ trivial
    rintro t' ⟨⟩
    exact hexact.clear

/-- **In every table that a program comes to, from its creation on, `items` is the number of
chains that are not empty, exactly when no removal takes the head of a chain that goes on
behind it.** -/
theorem items_exact_iff (keys : HashKeys κ) (size : Int) (ops : List (HashOp κ β)) :
    AllStates (tableStep keys) (fun tab => ∀ t ∈ tab, ItemsExact t) (vosHashCreate size) ops ↔
      AllSteps (tableStep keys) (fun tab op => ∀ t ∈ tab, SparesChain keys t op)
        (vosHashCreate size) ops := by
  refine allStates_iff_of_step (tableStep keys) (SoundIfAny keys) (fun _ op h => h.step op) ?_
    ?_ ?_ ops
  · intro tab op hsound hexact
    cases tab with
    | none => simp [tableStep]
    | some t =>
      rw [itemsExact_step_iff (hsound t rfl) (hexact t rfl) op]
      simp
  · intro t ht
    exact (refines_create ht).sound
  · intro t ht
    obtain ⟨n, p, -, rfl⟩ := vosHashCreate_eq ht
    exact itemsExact_emptyTable p (n + 1)

/-- "a" and "d" share a chain; when "a" is removed, the chain of "d" is not counted. -/
theorem removed_head_miscounts :
    ¬AllStates (tableStep (stringKeys true)) (fun tab => ∀ t ∈ tab, ItemsExact t)
      (vosHashCreate 0 : Option (HashTable (List UInt8) Nat))
      [.insert [97] 1, .insert [100] 2, .remove [97]] := by
  intro hall
  have hlast : ∀ t ∈ run (tableStep (stringKeys true)) (vosHashCreate 0)
      [.insert [97] 1, .insert [100] 2, .remove [97]], t.items = (usedBuckets t : ℤ) := hall.last
  have hwrong : ∃ t, run (tableStep (stringKeys true))
      (vosHashCreate 0 : Option (HashTable (List UInt8) Nat))
      [.insert [97] 1, .insert [100] 2, .remove [97]] = some t ∧
        t.items ≠ (usedBuckets t : ℤ) := ⟨_, rfl, by decide +kernel⟩
  obtain ⟨t, hrun, hne⟩ := hwrong
  exact hne (hlast t hrun)

end Opconn.Vos
