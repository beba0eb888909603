import Opconn.Lib.KeyedList
import Mathlib.Algebra.Group.Nat.Defs

/-!
# The hash table of the VOS layer

`vos_hash.c` keeps a table of chains.  A key is hashed to a chain, an entry with an equal
key is replaced in place, and a new one is appended after the table has been resized if it
is too full.  A resize inserts every entry again through the insertion itself, which can
resize once more while the outer resize still walks the old chains.
-/

namespace Opconn.Vos

open KeyedList

/-! ### Data -/

/-- The functions a table is created with.  Keys that compare equal have equal hashes. -/
structure HashKeys (κ : Type*) extends KeyEq κ where
  getHash : κ → UInt32
  hash_eq : ∀ {k l}, same k l = true → getHash k = getHash l

/-- `struct HASH_TABLE_s`.  A chain is the list of its entries. -/
structure HashTable (κ β : Type*) where
  items : Int
  hashSize : Nat
  count : Int
  resizeThreshold : Nat
  primeOffset : Nat
  hashList : Nat → List (κ × β)

/-- The largest `int`. -/
def intMax : Nat := 2 ^ 31 - 1

def primes : List Nat :=
  [13, 19, 29, 41, 59, 79, 107, 149, 197, 263, 347, 457, 599, 787, 1031,
    1361, 1777, 2333, 3037, 3967, 5167, 6719, 8737, 11369, 14783,
    19219, 24989, 32491, 42257, 54941, 71429, 92861, 120721, 156941,
    204047, 265271, 344857, 448321, 582821, 757693, 985003, 1280519,
    1664681, 2164111, 2813353, 3657361, 4754591, 6180989, 8035301,
    10445899, 13579681, 17653589, 22949669, 29834603, 38784989,
    50420551, 65546729, 85210757, 110774011, 144006217, 187208107,
    243370577, 316381771, 411296309, 534685237, 695090819, 903618083,
    1174703521, 1527114613, 1837299131, 2147483647]

/-- The loop of `primeSize` over the primes that are left. -/
def primeSearch (size : Int) : Nat → List Nat → Option (Nat × Nat)
  | _, [] => none
  | i, p :: ps => if size ≤ p then some (p, i + 1) else primeSearch size (i + 1) ps

/-- The first prime of the table from the offset on that is large enough, and the offset
after it; `none` is the call of `abort`. -/
def primeSize (size : Int) (primeOffset : Nat) : Option (Nat × Nat) :=
  primeSearch size primeOffset (primes.drop primeOffset)

/-- Three quarters of the size, the fullness at which the table is resized. -/
def maxFullness (hashSize : Nat) : Nat := hashSize * 3 / 4

variable {κ β : Type*} (keys : HashKeys κ)

/-- `HASH_INDEX`. -/
def hashIndex (key : κ) (tab : HashTable κ β) : Nat :=
  (keys.getHash key).toNat % (tab.hashSize - 1)

def HashTable.setChain (tab : HashTable κ β) (index : Nat) (chain : List (κ × β)) :
    HashTable κ β :=
  { tab with hashList := Function.update tab.hashList index chain }

/-! ### Operations

The operations that can resize return `none` where the program stops or leaves the range
of `int`. -/

/-- A table of empty chains. -/
def emptyTable (hashSize primeOffset : Nat) : HashTable κ β where
  items := 0
  hashSize := hashSize
  count := 0
  resizeThreshold := maxFullness hashSize
  primeOffset := primeOffset
  hashList := fun _ => []

/-- `vosHashCreate`.  The size asked for is divided by 0.75 in floating point and cut to
an `int`. -/
def vosHashCreate (size : Int) : Option (HashTable κ β) :=
  let primesize := (3 + 4 * size).tdiv 3
  if intMax < primesize then none
  else
    match primeSize primesize 0 with
    | none => none
    | some (primesize, primeOffset) => some (emptyTable primesize primeOffset)

/-- `hashListUpdate`: the chain with the entry of the key replaced, if it has one. -/
def hashListUpdate (root : List (κ × β)) (key : κ) (data : β) : Option (List (κ × β)) :=
  if root.any fun pos => keys.same key pos.1 then
    some (replaceFirst keys.toKeyEq key data root)
  else none

/-- The second half of `vosHashInsert`: a new entry at the end of its chain. -/
def hashAppend (key : κ) (data : β) (tab : HashTable κ β) : Option (HashTable κ β) :=
  let index := hashIndex keys key tab
  let chain := tab.hashList index
  if tab.count = intMax then none
  else
    some { tab.setChain index (chain ++ [(key, data)]) with
      items := if chain = [] then tab.items + 1 else tab.items
      count := tab.count + 1 }

/-- `vosHashInsert`, with the resize it uses. -/
def hashInsertWith (resize : HashTable κ β → Option (HashTable κ β)) (key : κ) (data : β)
    (tab : HashTable κ β) : Option (HashTable κ β) :=
  let index := hashIndex keys key tab
  match hashListUpdate keys (tab.hashList index) key data with
  | some chain => some (tab.setChain index chain)
  | none => do
    let tab ← if (tab.resizeThreshold : Int) ≤ tab.items then resize tab else some tab
    hashAppend keys key data tab

/-- The order in which `hashResize` inserts the old entries: of each chain the entries
behind the head, then the head. -/
def rehashOrder (tab : HashTable κ β) : List (κ × β) :=
  (List.range tab.hashSize).flatMap fun i =>
    match tab.hashList i with
    | [] => []
    | curEntry :: rest => rest ++ [curEntry]

/-- `hashResize`.  The first argument bounds how deep resizes nest: each takes at least
one prime of the table, so that `primes.length` of them is as deep as the program goes. -/
def hashResizeWithin : Nat → HashTable κ β → Option (HashTable κ β)
  | 0, _ => none
  | depth + 1, tab =>
    if intMax < tab.hashSize * 2 then none
    else
      match primeSize (tab.hashSize * 2 : Nat) tab.primeOffset with
      | none => none
      | some (newsize, primeOffset) =>
        (rehashOrder tab).foldlM
          (fun tab oldEntry =>
            hashInsertWith keys (hashResizeWithin depth) oldEntry.1 oldEntry.2 tab)
          (emptyTable newsize primeOffset)

def hashResize (tab : HashTable κ β) : Option (HashTable κ β) :=
  hashResizeWithin keys primes.length tab

def vosHashInsert (key : κ) (data : β) (tab : HashTable κ β) : Option (HashTable κ β) :=
  hashInsertWith keys (hashResize keys) key data tab

/-- `vosHashRemove`.  Taking the head off a chain lowers `items` also when the chain goes
on behind it. -/
def vosHashRemove (key : κ) (tab : HashTable κ β) : HashTable κ β :=
  let index := hashIndex keys key tab
  match tab.hashList index with
  | [] => tab
  | pos :: rest =>
    if keys.same pos.1 key then
      { tab.setChain index rest with
        items := tab.items - 1
        count := tab.count - 1 }
    else if rest.any fun pos => keys.same pos.1 key then
      { tab.setChain index (pos :: rest.eraseP fun pos => keys.same pos.1 key) with
        count := tab.count - 1 }
    else tab

def vosHashValue (key : κ) (tab : HashTable κ β) : Option β :=
  lookup keys.toKeyEq key (tab.hashList (hashIndex keys key tab))

/-- `vosHashClear`.  An empty table is left as it is, `items` included. -/
def vosHashClear (tab : HashTable κ β) : HashTable κ β :=
  if tab.count = 0 then tab
  else
    { tab with
      items := 0
      count := 0
      hashList := fun i => if i < tab.hashSize then [] else tab.hashList i }

/-- The chains one after the other. -/
def HashTable.entries (tab : HashTable κ β) : List (κ × β) :=
  (List.range tab.hashSize).flatMap tab.hashList

/-- The loops of `vosHashValueGetByIndex` over the entries that are left. -/
def indexWalk (index : UInt32) : Nat → List (κ × β) → Option (κ × β)
  | _, [] => none
  | current, pos :: rest =>
    if index.toNat = current % 2 ^ 32 then some pos else indexWalk index (current + 1) rest

def vosHashValueGetByIndex (index : UInt32) (tab : HashTable κ β) : Option (κ × β) :=
  if tab.count.toNat % 2 ^ 32 ≤ index.toNat then none else indexWalk index 0 tab.entries

/-! ### Strings as keys -/

/-- The `uint16` words of a string, the terminating zero included when it fills one up;
`bigEndian` is the byte order of the processor. -/
def stringWords (bigEndian : Bool) : List UInt8 → List UInt32
  | [] => []
  | [a] => [if bigEndian then a.toUInt32 <<< 8 else a.toUInt32]
  | a :: b :: rest =>
    (if bigEndian then (a.toUInt32 <<< 8) ||| b.toUInt32 else a.toUInt32 ||| (b.toUInt32 <<< 8)) ::
      stringWords bigEndian rest

/-- `vosStringHash`. -/
def vosStringHash (bigEndian : Bool) (src : List UInt8) : UInt32 :=
  (stringWords bigEndian src).zipIdx.foldl
    (fun ret s => ret ^^^ (s.1 <<< (UInt32.ofNat s.2 &&& 0x0f))) 0

/-- `vosHashTableCreate`: the keys of the tables of the repository are strings. -/
def stringKeys (bigEndian : Bool) : HashKeys (List UInt8) where
  same k1 k2 := k1 == k2
  refl _ := beq_self_eq_true _
  symm h := by rw [eq_of_beq h]; exact beq_self_eq_true _
  trans h h' := by rw [eq_of_beq h]; exact h'
  getHash := vosStringHash bigEndian
  hash_eq h := by rw [eq_of_beq h]

/-! ### Runs -/

inductive HashOp (κ β : Type*) where
  | insert (key : κ) (data : β)
  | remove (key : κ)
  | clear
deriving DecidableEq, Repr

def hashStep (tab : HashTable κ β) : HashOp κ β → Option (HashTable κ β)
  | .insert key data => vosHashInsert keys key data tab
  | .remove key => some (vosHashRemove keys key tab)
  | .clear => some (vosHashClear tab)

/-- The table after the operations, in order. -/
def hashRun (tab : HashTable κ β) (ops : List (HashOp κ β)) : Option (HashTable κ β) :=
  ops.foldlM (hashStep keys) tab

end Opconn.Vos
