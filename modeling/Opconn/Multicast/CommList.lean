import Mathlib.Data.List.Pairwise
import Opconn.Lib.BubbleSort
import Opconn.Lib.DList
import Opconn.Lib.Loop
import Opconn.Lib.Runs

/-!
# Lists of groups and hosts

The lists of the multicast module are doubly linked, and all of them live in one memory: a node is
a block of `vosAlloc`, which is `malloc`, and holds a data pointer and the pointers to its
neighbours.  A list is named by the pointer to its first node, and the operations walk from there.
Whatever is inserted, appended and removed, each list has the nodes that were put in and not yet
removed, in order, from either end; the sort moves the data and leaves the nodes where they are.

An operation is `none` where it uses a null pointer, and where `fuel` rounds of its loop are not
enough.
-/

namespace Opconn.Multicast.CommList

open DList Runs

variable {κ ι α : Type} [DecidableEq κ] [DecidableEq ι]

/-- The nodes, and the blocks that are allocated. -/
structure Memory (ι α : Type) where
  links : Links ι
  data : ι → α
  used : ι → Bool

/-- `vosAlloc` and `memset`, and the data pointer. -/
def newNode (m : Memory ι α) (block : ι) (data : α) : Memory ι α where
  links := ⟨Function.update m.links.next block none, Function.update m.links.prev block none⟩
  data := Function.update m.data block data
  used := Function.update m.used block true

/-- `p->next = n`. -/
def setNext (m : Memory ι α) (p : ι) (n : Option ι) : Memory ι α :=
  { m with links.next := Function.update m.links.next p n }

/-- `p->prev = n`. -/
def setPrev (m : Memory ι α) (p : ι) (n : Option ι) : Memory ι α :=
  { m with links.prev := Function.update m.links.prev p n }

/-- `vosFree`. -/
def vosFree (m : Memory ι α) (p : ι) : Memory ι α :=
  { m with used := Function.update m.used p false }

/-- `clListLast`, of a list that is not empty. -/
def clListLastStep (m : Memory ι α) (list : ι) : ι ⊕ ι :=
  match m.links.next list with
  | some n => .inl n
  | none => .inr list

/-- `clListInsert`, with the block that `vosAlloc` returns. -/
def clListInsert (m : Memory ι α) (list : Option ι) (block : Option ι) (data : α) :
    Option (Memory ι α × Option ι) := do
  let newList ← block
  let m := newNode m newList data
  match list with
  | some first => some (setPrev (setNext m newList (some first)) first (some newList), some newList)
  | none => some (m, some newList)

/-- `clListAppend`. -/
def clListAppend (fuel : Nat) (m : Memory ι α) (list : Option ι) (block : Option ι) (data : α) :
    Option (Memory ι α × Option ι) := do
  let newList ← block
  let m := newNode m newList data
  match list with
  | some first => do
    let last ← Loop.run (clListLastStep m) fuel first
    some (setPrev (setNext m last (some newList)) newList (some last), some first)
  | none => some (m, some newList)

/-- The search of `clListRemove`. -/
def clListFindStep [DecidableEq α] (m : Memory ι α) (data : α) : Option ι → Option ι ⊕ Option ι
  | some tmp => if m.data tmp ≠ data then .inl (m.links.next tmp) else .inr (some tmp)
  | none => .inr none

/-- What `clListRemove` does with the node. -/
def clListUnlink (m : Memory ι α) (list : Option ι) (tmp : ι) : Memory ι α × Option ι :=
  let m := match m.links.prev tmp with
    | some prev => setNext m prev (m.links.next tmp)
    | none => m
  let m := match m.links.next tmp with
    | some next => setPrev m next (m.links.prev tmp)
    | none => m
  let list := if list = some tmp then m.links.next tmp else list
  (vosFree m tmp, list)

/-- `clListRemove`. -/
def clListRemove [DecidableEq α] (fuel : Nat) (m : Memory ι α) (list : Option ι) (data : α) :
    Option (Memory ι α × Option ι) := do
  match ← Loop.run (clListFindStep m data) fuel list with
  | some tmp => some (clListUnlink m list tmp)
  | none => some (m, list)

/-- `clListLen`. -/
def clListLenStep (m : Memory ι α) : Nat × Option ι → (Nat × Option ι) ⊕ Nat
  | (i, some tmp) => .inl (i + 1, m.links.next tmp)
  | (i, none) => .inr i

def clListLen (fuel : Nat) (m : Memory ι α) (list : Option ι) : Option Nat :=
  Loop.run (clListLenStep m) fuel (0, list)

/-! ### The sort -/

/-- The exchange of `clListBubbleSort`. -/
def swapData (m : Memory ι α) (node next : ι) : Memory ι α :=
  { m with data := Function.update (Function.update m.data next (m.data node)) node (m.data next) }

/-- The inner loop of `clListBubbleSort`: `j` comparisons, from `node` on. -/
def bubblePass (keyCompare : α → α → Int) : Nat → Memory ι α → Option ι → Option (Memory ι α)
  | 0, m, _ => some m
  | j + 1, m, node => do
    let node ← node
    let next ← m.links.next node
    let m := if 0 < keyCompare (m.data node) (m.data next) then swapData m node next else m
    bubblePass keyCompare j m (m.links.next node)

/-- The outer loop, from `i` down. -/
def bubblePasses (keyCompare : α → α → Int) (list : Option ι) :
    Nat → Memory ι α → Option (Memory ι α)
  | 0, m => some m
  | i + 1, m => do
    let m ← bubblePass keyCompare i m list
    bubblePasses keyCompare list i m

/-- `clListBubbleSort`. -/
def clListBubbleSort (fuel : Nat) (m : Memory ι α) (list : Option ι)
    (keyCompare : Option (α → α → Int)) : Option (Memory ι α) :=
  match list, keyCompare with
  | some _, some keyCompare => do
    let len ← clListLen fuel m list
    if len < 2 then some m else bubblePasses keyCompare list len m
  | _, _ => some m

/-! ### Operations on the lists of a memory -/

/-- The memory, and the lists in it by their head pointers. -/
structure State (κ ι α : Type) where
  m : Memory ι α
  list : κ → Option ι

/-- An operation, with the block that `vosAlloc` returns to it. -/
inductive Op (κ ι α : Type) where
  | insert (k : κ) (block : Option ι) (data : α)
  | append (k : κ) (block : Option ι) (data : α)
  | remove (k : κ) (data : α)

/-- What an operation makes of a list is stored for it. -/
def store (s : State κ ι α) (k : κ) (r : Memory ι α × Option ι) : State κ ι α :=
  ⟨r.1, Function.update s.list k r.2⟩

def clListOp [DecidableEq α] (fuel : Nat) (s : State κ ι α) : Op κ ι α → Option (State κ ι α)
  | .insert k block data => (clListInsert s.m (s.list k) block data).map (store s k)
  | .append k block data => (clListAppend fuel s.m (s.list k) block data).map (store s k)
  | .remove k data => (clListRemove fuel s.m (s.list k) data).map (store s k)

def clListStep [DecidableEq α] (fuel : Nat) (s : Option (State κ ι α)) (op : Op κ ι α) :
    Option (State κ ι α) :=
  s.bind fun s => clListOp fuel s op

/-- `vosAlloc` returns a block that is not in use. -/
def Allocates (block : Option ι) (s : Option (State κ ι α)) : Prop :=
  ∀ t, s = some t → ∃ newList, block = some newList ∧ t.m.used newList = false

def Allocated (s : Option (State κ ι α)) : Op κ ι α → Prop
  | .insert _ block _ => Allocates block s
  | .append _ block _ => Allocates block s
  | .remove _ _ => True

/-! ### What the lists are for -/

/-- The nodes of every list with their data, after an operation. -/
def nodesAfter [DecidableEq α] (nodes : κ → List (ι × α)) : Op κ ι α → κ → List (ι × α)
  | .insert k (some block) data => Function.update nodes k ((block, data) :: nodes k)
  | .append k (some block) data => Function.update nodes k (nodes k ++ [(block, data)])
  | .remove k data => Function.update nodes k ((nodes k).eraseP fun node => node.2 = data)
  | _ => nodes

/-- The memory has these nodes in these lists, linked in both directions. -/
structure Holds (s : State κ ι α) (nodes : κ → List (ι × α)) : Prop where
  chains : Chains s.m.links s.list fun k => (nodes k).map Prod.fst
  data : ∀ k, ∀ node ∈ nodes k, s.m.data node.1 = node.2
  used : ∀ k, ∀ node ∈ nodes k, s.m.used node.1 = true

omit [DecidableEq ι] in
/-- One list and the memory change; the data of the other lists stay. -/
theorem Holds.stored {s : State κ ι α} {nodes : κ → List (ι × α)} (h : Holds s nodes) {k : κ}
    {m : Memory ι α} {list : Option ι} {l : List (ι × α)}
    (hchains : Chains m.links (Function.update s.list k list)
      (Function.update (fun k => (nodes k).map Prod.fst) k (l.map Prod.fst)))
    (hl : ∀ node ∈ l, m.data node.1 = node.2 ∧ m.used node.1 = true)
    (hother : ∀ k', k' ≠ k → ∀ node ∈ nodes k',
      m.data node.1 = s.m.data node.1 ∧ m.used node.1 = s.m.used node.1) :
    Holds (store s k (m, list)) (Function.update nodes k l) where
  chains := by
    have hmap : (fun k' => (Function.update nodes k l k').map Prod.fst) =
        Function.update (fun k => (nodes k).map Prod.fst) k (l.map Prod.fst) :=
      Function.comp_update (List.map Prod.fst) nodes k l
    rw [hmap]
    exact hchains
  data := by
    intro k' node hnode
    by_cases hk : k' = k
    · subst hk
      rw [Function.update_self] at hnode
      exact (hl node hnode).1
    · rw [Function.update_of_ne hk] at hnode
      exact (hother k' hk node hnode).1.trans (h.data k' node hnode)
  used := by
    intro k' node hnode
    by_cases hk : k' = k
    · subst hk
      rw [Function.update_self] at hnode
      exact (hl node hnode).2
    · rw [Function.update_of_ne hk] at hnode
      exact (hother k' hk node hnode).2.trans (h.used k' node hnode)

section Operations

variable {m : Memory ι α} {s : State κ ι α} {nodes : κ → List (ι × α)}

omit [DecidableEq κ] [DecidableEq ι] in
/-- A block that is not in use is in no list. -/
theorem Holds.fresh (h : Holds s nodes) {block : ι} (hfree : s.m.used block = false) {k : κ}
    {node : ι × α} (hnode : node ∈ nodes k) : node.1 ≠ block := by
  intro heq
  have hused := h.used k node hnode
  rw [heq, hfree] at hused
  cases hused

omit [DecidableEq κ] [DecidableEq ι] in
theorem Holds.not_mem (h : Holds s nodes) {block : ι} (hfree : s.m.used block = false) (k : κ) :
    block ∉ (nodes k).map Prod.fst := by
  intro hmem
  obtain ⟨node, hnode, heq⟩ := List.mem_map.mp hmem
  exact h.fresh hfree hnode heq

/-! ### Inserting -/

theorem clListInsert_eq (m : Memory ι α) (list : Option ι) (block : ι) (data : α) :
    clListInsert m list (some block) data =
      some ({ newNode m block data with links := pushFront m.links list block }, some block) := by
  cases list with
  | none => rfl
  | some first =>
    rw [clListInsert, Option.bind_eq_bind, Option.bind_some]
    simp only [setPrev, setNext, newNode, pushFront, Function.update_idem]

theorem Holds.insert (h : Holds s nodes) (k : κ) {block : ι} (hfree : s.m.used block = false)
    (data : α) : ∃ s', (clListInsert s.m (s.list k) (some block) data).map (store s k) = some s' ∧
      Holds s' (Function.update nodes k ((block, data) :: nodes k)) := by
  refine ⟨_, congrArg (Option.map (store s k)) (clListInsert_eq ..), h.stored ?_ ?_ ?_⟩
  · exact h.chains.pushFront k (h.not_mem hfree)
  · intro node hnode
    rcases List.mem_cons.mp hnode with rfl | hnode
    · exact ⟨Function.update_self .., Function.update_self ..⟩
    · have hne := h.fresh hfree hnode
      exact ⟨(Function.update_of_ne hne ..).trans (h.data k node hnode),
        (Function.update_of_ne hne ..).trans (h.used k node hnode)⟩
  · intro k' _ node hnode
    have hne := h.fresh hfree hnode
    exact ⟨Function.update_of_ne hne .., Function.update_of_ne hne ..⟩

/-! ### Appending -/

omit [DecidableEq ι] in
/-- The walk to the last node. -/
theorem run_clListLast {p : Option ι} {x : ι} {xs : List ι} (hc : Chain m.links p (some x) (x :: xs))
    {fuel : Nat} (hfuel : xs.length < fuel) :
    Loop.run (clListLastStep m) fuel x = (x :: xs).getLast? := by
  induction xs generalizing p x fuel with
  | nil =>
    obtain ⟨fuel, rfl⟩ : ∃ n, fuel = n + 1 := ⟨fuel - 1, by omega⟩
    have hlast : clListLastStep m x = .inr x := by
      have hnext : m.links.next x = none := hc.2.2
      rw [clListLastStep, hnext]
    exact Loop.run_succ_inr hlast fuel
  | cons y ys ih =>
    obtain ⟨fuel, rfl⟩ : ∃ n, fuel = n + 1 := ⟨fuel - 1, by rw [List.length_cons] at hfuel; omega⟩
    have hnext : m.links.next x = some y := hc.2.2.1
    have hmore : clListLastStep m x = .inl y := by rw [clListLastStep, hnext]
    have hrest := hc.2.2
    rw [hnext] at hrest
    rw [Loop.run_succ_inl hmore, ih hrest (Nat.lt_of_succ_lt_succ hfuel), List.getLast?_cons_cons]

theorem newNode_chain {p h : Option ι} {xs : List ι} (hc : Chain m.links p h xs) {block : ι}
    (hblock : block ∉ xs) (data : α) : Chain (newNode m block data).links p h xs := by
  have hne : ∀ x ∈ xs, x ≠ block := by
    rintro x hx rfl
    exact hblock hx
  apply hc.congr
  · intro x hx
    exact Function.update_of_ne (hne x hx) ..
  · intro x hx
    exact Function.update_of_ne (hne x hx) ..

theorem clListAppend_eq {list : Option ι} {xs : List ι} (hc : Chain m.links none list xs) {block : ι}
    (hblock : block ∉ xs) {fuel : Nat} (hfuel : xs.length < fuel) (data : α) :
    clListAppend fuel m list (some block) data =
      some ({ newNode m block data with links := pushBack m.links xs.getLast? block },
        list.or (some block)) := by
  cases xs with
  | nil =>
    cases hc
    rfl
  | cons x xs =>
    obtain rfl : list = some x := hc.1
    have hwalk := run_clListLast (newNode_chain hc hblock data)
      (Nat.lt_of_succ_lt hfuel)
    obtain ⟨last, hlast⟩ : ∃ last, (x :: xs).getLast? = some last :=
      ⟨_, List.getLast?_eq_some_getLast (List.cons_ne_nil x xs)⟩
    rw [clListAppend, Option.bind_eq_bind, Option.bind_some]
    simp only [hwalk, hlast, Option.bind_some]
    simp only [setPrev, setNext, newNode, pushBack, pushFront, Links.flip, Function.update_idem]
    rfl

theorem Holds.append (h : Holds s nodes) (k : κ) {block : ι} (hfree : s.m.used block = false)
    (data : α) {fuel : Nat} (hfuel : (nodes k).length < fuel) :
    ∃ s', (clListAppend fuel s.m (s.list k) (some block) data).map (store s k) = some s' ∧
      Holds s' (Function.update nodes k (nodes k ++ [(block, data)])) := by
  have hlen : ((nodes k).map Prod.fst).length < fuel := by rwa [List.length_map]
  refine ⟨_, congrArg (Option.map (store s k))
    (clListAppend_eq (h.chains.chain k) (h.not_mem hfree k) hlen data), h.stored ?_ ?_ ?_⟩
  · rw [List.map_append]
    exact h.chains.pushBack k (h.not_mem hfree)
  · intro node hnode
    rcases List.mem_append.mp hnode with hnode | hnode
    · have hne := h.fresh hfree hnode
      exact ⟨(Function.update_of_ne hne ..).trans (h.data k node hnode),
        (Function.update_of_ne hne ..).trans (h.used k node hnode)⟩
    · rw [List.mem_singleton.mp hnode]
      exact ⟨Function.update_self .., Function.update_self ..⟩
  · intro k' _ node hnode
    have hne := h.fresh hfree hnode
    exact ⟨Function.update_of_ne hne .., Function.update_of_ne hne ..⟩

/-! ### Removing -/

omit [DecidableEq ι] in
/-- The search for the first node with the data. -/
theorem run_clListFind [DecidableEq α] {p h : Option ι} {l : List (ι × α)} (data : α)
    (hc : Chain m.links p h (l.map Prod.fst)) (hdata : ∀ node ∈ l, m.data node.1 = node.2)
    {fuel : Nat} (hfuel : l.length < fuel) :
    Loop.run (clListFindStep m data) fuel h =
      some ((l.find? fun node => node.2 = data).map Prod.fst) := by
  induction l generalizing p h fuel with
  | nil =>
    obtain ⟨fuel, rfl⟩ : ∃ n, fuel = n + 1 := ⟨fuel - 1, (Nat.sub_add_cancel hfuel).symm⟩
    cases hc
    exact Loop.run_succ_inr rfl fuel
  | cons node l ih =>
    obtain ⟨fuel, rfl⟩ : ∃ n, fuel = n + 1 :=
      ⟨fuel - 1, (Nat.sub_add_cancel (Nat.zero_lt_of_lt hfuel)).symm⟩
    obtain ⟨rfl, -, htail⟩ := hc
    have hnode := hdata node (List.mem_cons_self ..)
    by_cases heq : node.2 = data
    · have hfound : clListFindStep m data (some node.1) = .inr (some node.1) := by
        rw [clListFindStep, hnode, if_neg (not_not_intro heq)]
      rw [Loop.run_succ_inr hfound, List.find?_cons_of_pos (by simpa using heq), Option.map_some]
    · have hmore : clListFindStep m data (some node.1) = .inl (m.links.next node.1) := by
        rw [clListFindStep, hnode, if_pos heq]
      rw [Loop.run_succ_inl hmore, List.find?_cons_of_neg (by simpa using heq)]
      apply ih htail
      · intro node' hnode'
        exact hdata node' (List.mem_cons_of_mem _ hnode')
      · exact Nat.lt_of_succ_lt_succ hfuel

/-- The two neighbours are joined, in the order of the source. -/
theorem clListUnlink_eq {tmp : ι} (hself : m.links.prev tmp ≠ some tmp) (list : Option ι) :
    clListUnlink m list tmp = ({ vosFree m tmp with links := unlink m.links tmp },
      if list = some tmp then m.links.next tmp else list) := by
  rw [clListUnlink]
  cases hprev : m.links.prev tmp with
  | none =>
    cases hnext : m.links.next tmp with
    | none => simp [vosFree, unlink, hprev, hnext]
    | some next => simp [vosFree, setPrev, unlink, hprev, hnext]
  | some prev =>
    have hne : tmp ≠ prev := by
      rintro rfl
      exact hself hprev
    cases hnext : m.links.next tmp with
    | none => simp [vosFree, setNext, unlink, hprev, hnext, hne]
    | some next => simp [vosFree, setNext, setPrev, unlink, hprev, hnext, hne]

theorem Holds.remove [DecidableEq α] (h : Holds s nodes) (k : κ) (data : α) {fuel : Nat}
    (hfuel : (nodes k).length < fuel) :
    ∃ s', (clListRemove fuel s.m (s.list k) data).map (store s k) = some s' ∧
      Holds s' (Function.update nodes k ((nodes k).eraseP fun node => node.2 = data)) := by
  have hfind := run_clListFind data (h.chains.chain k) (h.data k) hfuel
  cases hfound : (nodes k).find? fun node => node.2 = data with
  | none =>
    have hsame : clListRemove fuel s.m (s.list k) data = some (s.m, s.list k) := by
      rw [clListRemove, hfind, hfound]
      rfl
    have hnone : (nodes k).eraseP (fun node => node.2 = data) = nodes k :=
      List.eraseP_of_forall_not (List.find?_eq_none.mp hfound)
    refine ⟨_, congrArg (Option.map (store s k)) hsame, ?_⟩
    rw [hnone, Function.update_eq_self]
    show Holds ⟨s.m, Function.update s.list k (s.list k)⟩ nodes
    rwa [Function.update_eq_self]
  | some node =>
    obtain ⟨hnode, front, back, hnodes, hfront⟩ := List.find?_eq_some_iff_append.mp hfound
    have hnodup := h.chains.nodup k
    have hmem : node.1 ∈ (nodes k).map Prod.fst := by
      rw [hnodes]
      simp
    have herase : (nodes k).eraseP (fun node => node.2 = data) = front ++ back := by
      rw [hnodes, List.eraseP_append_right _ (by simpa using hfront),
        List.eraseP_cons_of_pos (by simpa using hnode)]
    have hne : ∀ node' ∈ front ++ back, node'.1 ≠ node.1 := by
      rw [hnodes, List.map_append, List.map_cons, List.nodup_middle, ← List.map_append] at hnodup
      intro node' hnode' heq
      exact (List.nodup_cons.mp hnodup).1 (heq ▸ List.mem_map_of_mem hnode')
    have hfilter : ((nodes k).map Prod.fst).filter (· ≠ node.1) = (front ++ back).map Prod.fst := by
      rw [hnodes, List.map_append, List.map_cons, List.filter_append,
        List.filter_cons_of_neg (by simp), ← List.filter_append, ← List.map_append]
      apply List.filter_eq_self.mpr
      intro x hx
      obtain ⟨node', hnode', rfl⟩ := List.mem_map.mp hx
      exact decide_eq_true (hne node' hnode')
    have hlist : (if s.list k = some node.1 then s.m.links.next node.1 else s.list k) =
        unlinkHead s.m.links (s.list k) node.1 := by
      rw [unlinkHead]
      exact (if_congr ((h.chains.chain k).prev_eq_none_iff hnodup hmem).symm rfl rfl)
    have hresult : clListRemove fuel s.m (s.list k) data =
        some ({ vosFree s.m node.1 with links := unlink s.m.links node.1 },
          unlinkHead s.m.links (s.list k) node.1) := by
      rw [clListRemove, hfind, hfound, ← hlist,
        ← clListUnlink_eq ((h.chains.chain k).not_self hnodup hmem).1]
      rfl
    refine ⟨_, congrArg (Option.map (store s k)) hresult, h.stored ?_ ?_ ?_⟩
    · rw [herase, ← hfilter]
      exact h.chains.unlink hmem
    · rw [herase]
      intro node' hnode'
      have hold : node' ∈ nodes k := by
        rw [hnodes]
        rcases List.mem_append.mp hnode' with hin | hin
        · exact List.mem_append_left _ hin
        · exact List.mem_append_right _ (List.mem_cons_of_mem _ hin)
      exact ⟨h.data k node' hold,
        (Function.update_of_ne (hne node' hnode') ..).trans (h.used k node' hold)⟩
    · intro k' hk node' hnode'
      refine ⟨rfl, Function.update_of_ne ?_ ..⟩
      intro heq
      exact hk (h.chains.disjoint node.1 k' k (heq ▸ List.mem_map_of_mem hnode') hmem)

/-! ### Runs -/

/-- One operation. -/
theorem Holds.op [DecidableEq α] (h : Holds s nodes) {op : Op κ ι α}
    (halloc : Allocated (some s) op) {fuel : Nat} (hfuel : ∀ k, (nodes k).length < fuel) :
    ∃ s', clListOp fuel s op = some s' ∧ Holds s' (nodesAfter nodes op) := by
  cases op with
  | insert k block data =>
    obtain ⟨newList, rfl, hfree⟩ := halloc s rfl
    exact h.insert k hfree data
  | append k block data =>
    obtain ⟨newList, rfl, hfree⟩ := halloc s rfl
    exact h.append k hfree data (hfuel k)
  | remove k data => exact h.remove k data (hfuel k)

omit [DecidableEq ι] in
theorem length_update_le {l : List (ι × α)} {k : κ} (hl : l.length ≤ (nodes k).length + 1) (k' : κ) :
    (Function.update nodes k l k').length ≤ (nodes k').length + 1 := by
  by_cases hk : k' = k
  · subst hk
    rwa [Function.update_self]
  · rw [Function.update_of_ne hk]
    exact Nat.le_succ _

omit [DecidableEq ι] in
theorem length_nodesAfter_le [DecidableEq α] (nodes : κ → List (ι × α)) (op : Op κ ι α) (k : κ) :
    (nodesAfter nodes op k).length ≤ (nodes k).length + 1 := by
  cases op with
  | insert k' block data =>
    cases block with
    | none => exact Nat.le_succ _
    | some newList => exact length_update_le (Nat.le_refl _) k
  | append k' block data =>
    cases block with
    | none => exact Nat.le_succ _
    | some newList => exact length_update_le (Nat.le_of_eq List.length_append) k
  | remove k' data =>
    exact length_update_le (Nat.le_succ_of_le List.eraseP_sublist.length_le) k

omit [DecidableEq ι] in
theorem length_foldl_nodesAfter_le [DecidableEq α] (nodes : κ → List (ι × α))
    (ops : List (Op κ ι α)) (k : κ) :
    (ops.foldl nodesAfter nodes k).length ≤ (nodes k).length + ops.length := by
  induction ops generalizing nodes with
  | nil => exact Nat.le_refl _
  | cons op ops ih =>
    have hop := length_nodesAfter_le nodes op k
    have hops := ih (nodesAfter nodes op)
    rw [List.foldl_cons, List.length_cons]
    omega

theorem Holds.run [DecidableEq α] (h : Holds s nodes) (ops : List (Op κ ι α)) {fuel : Nat}
    (halloc : AllSteps (clListStep fuel) Allocated (some s) ops)
    (hfuel : ∀ k, (nodes k).length + ops.length < fuel) :
    ∃ s', Runs.run (clListStep fuel) (some s) ops = some s' ∧
      Holds s' (ops.foldl nodesAfter nodes) := by
  induction ops generalizing s nodes with
  | nil => exact ⟨s, rfl, h⟩
  | cons op ops ih =>
    obtain ⟨s', hs', hholds⟩ := h.op halloc.1 fun k => Nat.lt_of_le_of_lt (Nat.le_add_right ..) (hfuel k)
    have hstep : clListStep fuel (some s) op = some s' := hs'
    have hrest := halloc.2
    rw [hstep] at hrest
    rw [run_cons, hstep]
    apply ih hholds hrest
    intro k
    have hlen := length_nodesAfter_le nodes op k
    have hk := hfuel k
    rw [List.length_cons] at hk
    omega

/-! ### Sorting -/

omit [DecidableEq ι] in
theorem run_clListLen {p h : Option ι} {xs : List ι} (hc : Chain m.links p h xs) {fuel : Nat}
    (hfuel : xs.length < fuel) (i : Nat) :
    Loop.run (clListLenStep m) fuel (i, h) = some (i + xs.length) := by
  induction xs generalizing p h fuel i with
  | nil =>
    obtain ⟨fuel, rfl⟩ : ∃ n, fuel = n + 1 := ⟨fuel - 1, (Nat.sub_add_cancel hfuel).symm⟩
    cases hc
    exact Loop.run_succ_inr rfl fuel
  | cons x xs ih =>
    obtain ⟨fuel, rfl⟩ : ∃ n, fuel = n + 1 :=
      ⟨fuel - 1, (Nat.sub_add_cancel (Nat.zero_lt_of_lt hfuel)).symm⟩
    obtain ⟨rfl, -, htail⟩ := hc
    have hmore : clListLenStep m (i, some x) = .inl (i + 1, m.links.next x) := rfl
    rw [Loop.run_succ_inl hmore, ih htail (Nat.lt_of_succ_lt_succ hfuel), List.length_cons,
      Nat.add_right_comm, Nat.add_assoc]

/-- What the sort exchanges. -/
abbrev OutOfOrder (keyCompare : α → α → Int) (a b : α) : Prop := 0 < keyCompare a b

/-- The memory has its data changed, on the nodes of a list only, to these. -/
structure DataMoved (m m' : Memory ι α) (xs : List ι) (data : List α) : Prop where
  links : m'.links = m.links
  used : m'.used = m.used
  data : xs.map m'.data = data
  other : ∀ x, x ∉ xs → m'.data x = m.data x

theorem swapData_links (m : Memory ι α) (x y : ι) : (swapData m x y).links = m.links := rfl

theorem swapData_node (m : Memory ι α) (x y : ι) : (swapData m x y).data x = m.data y :=
  Function.update_self ..

theorem swapData_next (m : Memory ι α) {x y : ι} (h : y ≠ x) :
    (swapData m x y).data y = m.data x := by
  show Function.update (Function.update m.data y (m.data x)) x (m.data y) y = _
  rw [Function.update_of_ne h, Function.update_self]

theorem swapData_other {x y z : ι} (hx : z ≠ x) (hy : z ≠ y) :
    (swapData m x y).data z = m.data z := by
  show Function.update (Function.update m.data y (m.data x)) x (m.data y) z = _
  rw [Function.update_of_ne hx, Function.update_of_ne hy]

omit [DecidableEq ι] in
/-- One comparison and the rest of the pass. -/
theorem DataMoved.cons {m₁ m' : Memory ι α} {x y : ι} {ys : List ι} {data : List α}
    (hnodup : (x :: y :: ys).Nodup) (hlinks : m₁.links = m.links) (hused : m₁.used = m.used)
    (hother : ∀ z, z ≠ x → z ≠ y → m₁.data z = m.data z)
    (h : DataMoved m₁ m' (y :: ys) data) : DataMoved m m' (x :: y :: ys) (m₁.data x :: data) where
  links := h.links.trans hlinks
  used := h.used.trans hused
  data := by rw [List.map_cons, h.data, h.other x (List.nodup_cons.mp hnodup).1]
  other := by
    intro z hz
    have hzx : z ≠ x := fun heq => hz (heq ▸ List.mem_cons_self ..)
    have hzy : z ∉ y :: ys := fun hmem => hz (List.mem_cons_of_mem x hmem)
    rw [h.other z hzy, hother z hzx fun heq => hzy (heq ▸ List.mem_cons_self ..)]

theorem bubblePass_eq (keyCompare : α → α → Int) {j : Nat} {p : Option ι} {x : ι} {xs : List ι}
    (hc : Chain m.links p (some x) (x :: xs)) (hnodup : (x :: xs).Nodup) (hj : j ≤ xs.length) :
    ∃ m', bubblePass keyCompare j m (some x) = some m' ∧ DataMoved m m' (x :: xs)
      (BubbleSort.pass (OutOfOrder keyCompare) j ((x :: xs).map m.data)) := by
  induction j generalizing m p x xs with
  | zero => exact ⟨m, rfl, rfl, rfl, rfl, fun _ _ => rfl⟩
  | succ j ih =>
    cases xs with
    | nil => cases hj
    | cons y ys =>
      have hnext : m.links.next x = some y := hc.2.2.1
      have htail := hc.2.2
      rw [hnext] at htail
      have hx : x ∉ y :: ys := (List.nodup_cons.mp hnodup).1
      have hrest : (y :: ys).Nodup := (List.nodup_cons.mp hnodup).2
      have hy : y ∉ ys := (List.nodup_cons.mp hrest).1
      have hj' : j ≤ ys.length := Nat.le_of_succ_le_succ hj
      rw [List.map_cons, List.map_cons, BubbleSort.pass]
      by_cases hgt : 0 < keyCompare (m.data x) (m.data y)
      · have hyx : y ≠ x := fun heq => hx (heq ▸ List.mem_cons_self ..)
        have hys : ys.map (swapData m x y).data = ys.map m.data := by
          apply List.map_congr_left
          intro z hz
          apply swapData_other
          · exact fun heq => hx (heq ▸ List.mem_cons_of_mem y hz)
          · exact fun heq => hy (heq ▸ hz)
        have hstart : Chain (swapData m x y).links (some x) (some y) (y :: ys) := htail
        obtain ⟨m', hpass, hmoved⟩ := ih hstart hrest hj'
        have hcons := DataMoved.cons hnodup (swapData_links m x y) rfl
          (fun z => swapData_other) hmoved
        rw [List.map_cons, swapData_node, swapData_next m hyx, hys] at hcons
        rw [if_pos hgt]
        refine ⟨m', ?_, hcons⟩
        rw [bubblePass, Option.bind_eq_bind, Option.bind_some, hnext]
        simp only [Option.bind_some, if_pos hgt]
        show bubblePass keyCompare j (swapData m x y) (m.links.next x) = some m'
        rw [hnext, hpass]
      · obtain ⟨m', hpass, hmoved⟩ := ih htail hrest hj'
        rw [if_neg hgt]
        refine ⟨m', ?_, DataMoved.cons hnodup rfl rfl (fun _ _ _ => rfl) hmoved⟩
        rw [bubblePass, Option.bind_eq_bind, Option.bind_some, hnext]
        simp only [Option.bind_some, if_neg hgt]
        rw [hnext, hpass]

theorem bubblePasses_eq (keyCompare : α → α → Int) {i : Nat} {x : ι} {xs : List ι}
    (hc : Chain m.links none (some x) (x :: xs)) (hnodup : (x :: xs).Nodup)
    (hi : i ≤ xs.length + 1) :
    ∃ m', bubblePasses keyCompare (some x) i m = some m' ∧ DataMoved m m' (x :: xs)
      (BubbleSort.passes (OutOfOrder keyCompare) i ((x :: xs).map m.data)) := by
  induction i generalizing m with
  | zero => exact ⟨m, rfl, rfl, rfl, rfl, fun _ _ => rfl⟩
  | succ i ih =>
    obtain ⟨m₁, hpass, hmoved⟩ := bubblePass_eq keyCompare hc hnodup (Nat.le_of_succ_le_succ hi)
    have hc₁ : Chain m₁.links none (some x) (x :: xs) := by rwa [hmoved.links]
    obtain ⟨m', hpasses, hmoved'⟩ := ih hc₁ (Nat.le_of_succ_le hi)
    refine ⟨m', ?_, hmoved'.links.trans hmoved.links, hmoved'.used.trans hmoved.used, ?_, ?_⟩
    · rw [bubblePasses, hpass, Option.bind_eq_bind, Option.bind_some, hpasses]
    · rw [hmoved'.data, hmoved.data, BubbleSort.passes]
    · intro z hz
      rw [hmoved'.other z hz, hmoved.other z hz]

theorem clListBubbleSort_eq (keyCompare : α → α → Int) {list : Option ι} {xs : List ι}
    (hc : Chain m.links none list xs) (hnodup : xs.Nodup) {fuel : Nat} (hfuel : xs.length < fuel) :
    ∃ m', clListBubbleSort fuel m list (some keyCompare) = some m' ∧ DataMoved m m' xs
      (BubbleSort.sort (OutOfOrder keyCompare) (xs.map m.data)) := by
  cases xs with
  | nil =>
    cases hc
    exact ⟨m, rfl, rfl, rfl, rfl, fun _ _ => rfl⟩
  | cons x xs =>
    obtain rfl : list = some x := hc.1
    have hlen : clListLen fuel m (some x) = some (xs.length + 1) := by
      rw [clListLen, run_clListLen hc hfuel, Nat.zero_add, List.length_cons]
    rw [clListBubbleSort, hlen, Option.bind_eq_bind, Option.bind_some]
    by_cases hshort : xs.length + 1 < 2
    · obtain rfl : xs = [] := List.eq_nil_of_length_eq_zero (by omega)
      exact ⟨m, rfl, rfl, rfl, rfl, fun _ _ => rfl⟩
    · obtain ⟨m', hpasses, hmoved⟩ := bubblePasses_eq keyCompare hc hnodup (Nat.le_refl _)
      refine ⟨m', ?_, ?_⟩
      · rw [if_neg hshort, hpasses]
      · rwa [BubbleSort.sort, List.length_map, List.length_cons]

/-- What the sort makes of a list: the nodes and all pointers are as before, and the data are
permuted, in the order of the compare function where that is one. -/
structure Sorted (s : State κ ι α) (nodes : κ → List (ι × α)) (k : κ) (keyCompare : α → α → Int)
    (m' : Memory ι α) (sorted : List (ι × α)) : Prop where
  links : m'.links = s.m.links
  blocks : sorted.map Prod.fst = (nodes k).map Prod.fst
  perm : (sorted.map Prod.snd).Perm ((nodes k).map Prod.snd)
  ordered : (∀ a b, keyCompare a b ≤ 0 ∨ keyCompare b a ≤ 0) →
    (∀ a b c, keyCompare a b ≤ 0 → keyCompare b c ≤ 0 → keyCompare a c ≤ 0) →
      (sorted.map Prod.snd).Pairwise fun a b => keyCompare a b ≤ 0
  holds : Holds ⟨m', s.list⟩ (Function.update nodes k sorted)

theorem Holds.sort (h : Holds s nodes) (k : κ) (keyCompare : α → α → Int) {fuel : Nat}
    (hfuel : (nodes k).length < fuel) :
    ∃ m' sorted, clListBubbleSort fuel s.m (s.list k) (some keyCompare) = some m' ∧
      Sorted s nodes k keyCompare m' sorted := by
  have hlen : ((nodes k).map Prod.fst).length < fuel := by rwa [List.length_map]
  obtain ⟨m', hsort, hmoved⟩ :=
    clListBubbleSort_eq keyCompare (h.chains.chain k) (h.chains.nodup k) hlen
  have hdata : ((nodes k).map Prod.fst).map s.m.data = (nodes k).map Prod.snd := by
    rw [List.map_map]
    exact List.map_congr_left fun node hnode => h.data k node hnode
  have hmap := hmoved.data
  rw [hdata] at hmap
  let sorted := ((nodes k).map Prod.fst).map fun x => (x, m'.data x)
  have hblocks : sorted.map Prod.fst = (nodes k).map Prod.fst := by simp [sorted]
  have hsnd : sorted.map Prod.snd =
      BubbleSort.sort (OutOfOrder keyCompare) ((nodes k).map Prod.snd) := by
    rw [← hmap, List.map_map]
    rfl
  have hused : ∀ x, m'.used x = s.m.used x := fun x => congrFun hmoved.used x
  refine ⟨m', sorted, hsort, hmoved.links, hblocks, ?_, ?_, ?_⟩
  · rw [hsnd]
    exact BubbleSort.sort_perm _ _
  · intro htotal htrans
    have hsorted := BubbleSort.sort_sorted (OutOfOrder keyCompare)
      (fun a b => (htotal a b).imp Int.not_lt.mpr Int.not_lt.mpr)
      (fun a b c hab hbc => Int.not_lt.mpr (htrans a b c (Int.not_lt.mp hab) (Int.not_lt.mp hbc)))
      ((nodes k).map Prod.snd)
    rw [hsnd]
    exact hsorted.imp Int.not_lt.mp
  · have hstate : store s k (m', s.list k) = ⟨m', s.list⟩ := by
      rw [CommList.store, Function.update_eq_self]
    rw [← hstate]
    apply h.stored
    · rw [hblocks, Function.update_eq_self, Function.update_eq_self, hmoved.links]
      exact h.chains
    · intro node hnode
      obtain ⟨x, hx, rfl⟩ := List.mem_map.mp hnode
      obtain ⟨old, hold, rfl⟩ := List.mem_map.mp hx
      exact ⟨rfl, (hused old.1).trans (h.used k old hold)⟩
    · intro k' hk node hnode
      refine ⟨hmoved.other node.1 ?_, hused node.1⟩
      intro hmem
      exact hk (h.chains.disjoint node.1 k' k (List.mem_map_of_mem hnode) hmem)

/-- The two chains of a list are mirror images, and begin at its first and its last node. -/
structure Mirrored (L : Links ι) (list : Option ι) (xs : List ι) : Prop where
  head : list = xs.head?
  forward : Chain L none list xs
  backward : Chain L.flip none xs.getLast? xs.reverse

omit [DecidableEq κ] [DecidableEq ι] in
theorem Holds.mirrored (h : Holds s nodes) (k : κ) :
    Mirrored s.m.links (s.list k) ((nodes k).map Prod.fst) :=
  ⟨(h.chains.chain k).head_eq, h.chains.chain k, (h.chains.chain k).flip⟩

/-- **Lists.**  Whatever is inserted, appended and removed, in whichever lists of a memory, every
operation returns, and each list has the nodes that were put in and not yet removed, in order, with
its two chains mirrored; a sort then permutes their data into the order of its function. -/
theorem clList_holds [DecidableEq α] (h : Holds s nodes) (ops : List (Op κ ι α)) {fuel : Nat}
    (halloc : AllSteps (clListStep fuel) Allocated (some s) ops)
    (hfuel : ∀ k, (nodes k).length + ops.length < fuel) :
    ∃ s', Runs.run (clListStep fuel) (some s) ops = some s' ∧
      Holds s' (ops.foldl nodesAfter nodes) ∧
      (∀ k, Mirrored s'.m.links (s'.list k) ((ops.foldl nodesAfter nodes k).map Prod.fst)) ∧
      ∀ k keyCompare, ∃ m' sorted,
        clListBubbleSort fuel s'.m (s'.list k) (some keyCompare) = some m' ∧
          Sorted s' (ops.foldl nodesAfter nodes) k keyCompare m' sorted := by
  obtain ⟨s', hrun, hholds⟩ := h.run ops halloc hfuel
  refine ⟨s', hrun, hholds, hholds.mirrored, ?_⟩
  intro k keyCompare
  apply hholds.sort k keyCompare
  exact Nat.lt_of_le_of_lt (length_foldl_nodesAfter_le nodes ops k) (hfuel k)

end Operations

/-- A memory with nothing in it, and one list. -/
def emptyState : State Unit Nat Nat where
  m := ⟨⟨fun _ => none, fun _ => none⟩, fun _ => 0, fun _ => false⟩
  list := fun _ => none

theorem holds_emptyState : Holds emptyState fun _ => [] where
  chains := ⟨fun _ => rfl, fun _ => List.nodup_nil, fun _ _ _ h => absurd h List.not_mem_nil⟩
  data := fun _ _ h => absurd h List.not_mem_nil
  used := fun _ _ h => absurd h List.not_mem_nil

/-- Two nodes in front of the list, one behind it, and the middle one removed. -/
def threeNodes : List (Op Unit Nat Nat) :=
  [.insert () (some 0) 5, .insert () (some 1) 8, .append () (some 2) 3, .remove () 5]

theorem allocated_threeNodes :
    AllSteps (clListStep 5) Allocated (some emptyState) threeNodes := by
  refine ⟨?_, ?_, ?_, trivial, trivial⟩
  · rintro t ⟨⟩
    exact ⟨0, rfl, rfl⟩
  · rintro t ⟨⟩
    exact ⟨1, rfl, rfl⟩
  · rintro t ⟨⟩
    exact ⟨2, rfl, rfl⟩

theorem threeNodes_hold :
    ∃ s', Runs.run (clListStep 5) (some emptyState) threeNodes = some s' ∧
      Holds s' (threeNodes.foldl nodesAfter fun _ => []) := by
  obtain ⟨s', hrun, hholds, -⟩ := clList_holds holds_emptyState threeNodes allocated_threeNodes
    (fun _ => by decide)
  exact ⟨s', hrun, hholds⟩

end Opconn.Multicast.CommList
