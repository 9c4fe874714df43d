import Mathlib

/-!
# The least-recently-used cache

`CLRUCache<cache_key_t, cache_value_t>` (`tokens/tokentypes.h`) keeps a `std::list` of
key/value pairs, most recently used first, and an `unordered_map` from each key to the
list iterator of its pair. A list iterator is modelled as the address of its node: nodes
carry an address, a cache allocates a fresh one for each node it creates, and the map
holds `(key, address)` pairs.

The cache's purpose is the abstract `LruList`: a recency-ordered list of pairs with
distinct keys, bounded on `Put`. Both are run on the same operations (`LruOp`), giving
the same outputs (`LruOut`); `AokChain.Tokens.LruRefinement` proves that they agree.
-/

namespace AokChain

/-- A node of `cacheItemsList`: its address and the pair it holds. -/
structure LruNode (K V : Type) where
  addr : Nat
  key : K
  value : V

/-- The map entry that designates a node: its key and its address. -/
def LruNode.entry {K V : Type} (n : LruNode K V) : K × Nat := (n.key, n.addr)

/-- `CLRUCache<K, V>`: the recency list, the key-to-iterator map, `maxSize`, and the address
the next node is allocated at. -/
structure CLRUCache (K V : Type) where
  cacheItemsList : List (LruNode K V)
  cacheItemsMap : List (K × Nat)
  maxSize : Nat
  nextAddr : Nat

/-- The abstract cache: pairs with distinct keys, most recently used first, and the bound. -/
structure LruList (K V : Type) where
  items : List (K × V)
  maxSize : Nat

/-- The calls a user of the cache makes. -/
inductive LruOp (K V : Type) where
  | put (key : K) (value : V)
  | get (key : K)
  | erase (key : K)
  | «exists» (key : K)
  | size
  | clear
  | setSize (n : Nat)

/-- What a call returns: nothing, a value, the `std::range_error` `Get` throws, a flag, or a
size. -/
inductive LruOut (V : Type) where
  | unit
  | value (v : V)
  | error (msg : String)
  | bool (b : Bool)
  | nat (n : Nat)
  deriving DecidableEq

/-- The message of the `std::range_error` thrown by `Get` on a missing key. -/
def noSuchKey : String := "There is no such key in cache"

variable {K V : Type} [DecidableEq K]

namespace CLRUCache

/-- `CLRUCache(max_size)`: an empty cache. -/
def empty (maxSize : Nat) : CLRUCache K V := ⟨[], [], maxSize, 0⟩

/-- `cacheItemsMap.find(key)`: the address of `key`'s node, if `key` is mapped. -/
def find (c : CLRUCache K V) (key : K) : Option Nat :=
  (c.cacheItemsMap.find? (fun e => e.1 = key)).map Prod.snd

/-- `Erase(key)`: erase `key`'s node from the list and `key` from the map. -/
def erase (c : CLRUCache K V) (key : K) : CLRUCache K V :=
  match c.find key with
  | some a =>
    { c with cacheItemsList := c.cacheItemsList.filter (fun n => n.addr ≠ a),
             cacheItemsMap := c.cacheItemsMap.filter (fun e => e.1 ≠ key) }
  | none => c

/-- The eviction at the end of `Put`: erase the key of the last node from the map, then
`pop_back`. -/
def evict (c : CLRUCache K V) : CLRUCache K V :=
  match c.cacheItemsList.getLast? with
  | some last =>
    { c with cacheItemsList := c.cacheItemsList.dropLast,
             cacheItemsMap := c.cacheItemsMap.filter (fun e => e.1 ≠ last.key) }
  | none => c

/-- `cacheItemsList.push_front(key_value_pair_t(key, value))`, at a fresh address. -/
def pushFront (c : CLRUCache K V) (key : K) (value : V) : CLRUCache K V :=
  { c with cacheItemsList := ⟨c.nextAddr, key, value⟩ :: c.cacheItemsList,
           nextAddr := c.nextAddr + 1 }

/-- `cacheItemsMap[key] = it`, on a map from which `key` has been erased. -/
def mapKey (c : CLRUCache K V) (key : K) (a : Nat) : CLRUCache K V :=
  { c with cacheItemsMap := (key, a) :: c.cacheItemsMap }

/-- `Put(key, value)`: push a new node to the front, erase the old node and map entry of
`key` if there was one, map `key` to the new node, and evict the last node if the map has
grown past `maxSize`. -/
def put (c : CLRUCache K V) (key : K) (value : V) : CLRUCache K V :=
  let mapped := ((c.pushFront key value).erase key).mapKey key c.nextAddr
  if mapped.cacheItemsMap.length > mapped.maxSize then mapped.evict else mapped

/-- `cacheItemsList.splice(cacheItemsList.begin(), cacheItemsList, it)`: the node `it`
designates moved to the front. -/
def spliceFront (c : CLRUCache K V) (node : LruNode K V) : CLRUCache K V :=
  { c with cacheItemsList := node :: c.cacheItemsList.filter (fun n => n.addr ≠ node.addr) }

/-- `Get(key)`: throws on a missing key; otherwise splices the node to the front and returns
its value. A map entry always designates a node of the list (`CLRUCache.Valid`); a dangling
one is reported like a missing key. -/
def get (c : CLRUCache K V) (key : K) : Except String (V × CLRUCache K V) :=
  match c.find key with
  | none => .error noSuchKey
  | some a =>
    match c.cacheItemsList.find? (fun n => n.addr = a) with
    | some node => .ok (node.value, c.spliceFront node)
    | none => .error noSuchKey

/-- `Exists(key)`. -/
def «exists» (c : CLRUCache K V) (key : K) : Bool := (c.find key).isSome

/-- `Size()`: the size of the map. -/
def size (c : CLRUCache K V) : Nat := c.cacheItemsMap.length

/-- `Clear()`. -/
def clear (c : CLRUCache K V) : CLRUCache K V := { c with cacheItemsList := [], cacheItemsMap := [] }

/-- `SetSize(size)`: changes the bound only; nothing is evicted until the next `Put`. -/
def setSize (c : CLRUCache K V) (n : Nat) : CLRUCache K V := { c with maxSize := n }

/-- One call on the cache. -/
def step (c : CLRUCache K V) : LruOp K V → LruOut V × CLRUCache K V
  | .put k v => (.unit, c.put k v)
  | .get k =>
    match c.get k with
    | .ok (v, c') => (.value v, c')
    | .error e => (.error e, c)
  | .erase k => (.unit, c.erase k)
  | .exists k => (.bool (c.exists k), c)
  | .size => (.nat c.size, c)
  | .clear => (.unit, c.clear)
  | .setSize n => (.unit, c.setSize n)

/-- A sequence of calls: their outputs and the final cache. -/
def run (c : CLRUCache K V) : List (LruOp K V) → List (LruOut V) × CLRUCache K V
  | [] => ([], c)
  | op :: ops => ((c.step op).1 :: ((c.step op).2.run ops).1, ((c.step op).2.run ops).2)

/-- The abstract cache a concrete one represents: the pairs of its list, in order. -/
def abs (c : CLRUCache K V) : LruList K V :=
  ⟨c.cacheItemsList.map fun n => (n.key, n.value), c.maxSize⟩

omit [DecidableEq K] in
@[simp] theorem abs_maxSize (c : CLRUCache K V) : c.abs.maxSize = c.maxSize := rfl

omit [DecidableEq K] in
theorem abs_items (c : CLRUCache K V) :
    c.abs.items = c.cacheItemsList.map fun n => (n.key, n.value) := rfl

end CLRUCache

namespace LruList

/-- The empty abstract cache. -/
def empty (maxSize : Nat) : LruList K V := ⟨[], maxSize⟩

/-- The pairs without the one of `key`. -/
def without (l : LruList K V) (key : K) : List (K × V) := l.items.filter (fun p => p.1 ≠ key)

/-- `Put`: remove the pair of `key`, prepend the new pair, drop the last pair if the list is
longer than the bound. -/
def put (l : LruList K V) (key : K) (value : V) : LruList K V :=
  let items := (key, value) :: l.without key
  ⟨if items.length > l.maxSize then items.dropLast else items, l.maxSize⟩

/-- `Get`: fails on a missing key; otherwise moves the pair of `key` to the front and returns
its value. -/
def get (l : LruList K V) (key : K) : Except String (V × LruList K V) :=
  match l.items.find? (fun p => p.1 = key) with
  | none => .error noSuchKey
  | some p => .ok (p.2, ⟨p :: l.without key, l.maxSize⟩)

/-- One call on the abstract cache. -/
def step (l : LruList K V) : LruOp K V → LruOut V × LruList K V
  | .put k v => (.unit, l.put k v)
  | .get k =>
    match l.get k with
    | .ok (v, l') => (.value v, l')
    | .error e => (.error e, l)
  | .erase k => (.unit, ⟨l.without k, l.maxSize⟩)
  | .exists k => (.bool (l.items.any fun p => p.1 = k), l)
  | .size => (.nat l.items.length, l)
  | .clear => (.unit, ⟨[], l.maxSize⟩)
  | .setSize n => (.unit, ⟨l.items, n⟩)

/-- A sequence of calls on the abstract cache. -/
def run (l : LruList K V) : List (LruOp K V) → List (LruOut V) × LruList K V
  | [] => ([], l)
  | op :: ops => ((l.step op).1 :: ((l.step op).2.run ops).1, ((l.step op).2.run ops).2)

end LruList

end AokChain
