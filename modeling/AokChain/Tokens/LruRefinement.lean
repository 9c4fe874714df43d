import AokChain.Tokens.LruCache

/-!
# `CLRUCache` refines the abstract LRU list

`CLRUCache.Valid` is the representation invariant: the list's keys and node addresses are
distinct, every address is below the allocator's, and the map holds exactly the entries of
the list's nodes, in some order. Under it, a node found by address is the node of its key,
so erasing by address is filtering by key, and each call on the cache is the matching call
on its abstraction (`step_refines`). By induction over a sequence of calls from an empty
cache, the invariant holds after every call and the cache answers as the abstract list
(`run_refines_lruList`).

`Put` evicts at most one entry, so it keeps a cache within its bound, but `SetSize` evicts
nothing: after a `SetSize` below the size less one, a `Put` leaves `Size()` above `MaxSize()`.
-/

namespace AokChain

namespace CLRUCache

section Invariant

variable {K V : Type}

/-- The representation invariant of `CLRUCache`. -/
structure Valid (c : CLRUCache K V) : Prop where
  keys_nodup : (c.cacheItemsList.map LruNode.key).Nodup
  addrs_nodup : (c.cacheItemsList.map LruNode.addr).Nodup
  addr_lt : ∀ n ∈ c.cacheItemsList, n.addr < c.nextAddr
  map_perm : c.cacheItemsMap.Perm (c.cacheItemsList.map LruNode.entry)

theorem valid_empty (maxSize : Nat) : Valid (empty maxSize : CLRUCache K V) :=
  ⟨List.nodup_nil, List.nodup_nil, (fun _ h => nomatch h), List.Perm.refl _⟩

theorem Valid.mem_map_iff {c : CLRUCache K V} (hc : Valid c) {k : K} {a : Nat} :
    (k, a) ∈ c.cacheItemsMap ↔ ∃ n ∈ c.cacheItemsList, n.key = k ∧ n.addr = a := by
  rw [hc.map_perm.mem_iff, List.mem_map]
  simp [LruNode.entry, Prod.ext_iff]

/-- The node of a key is the only node with its key, and the only one at its address. -/
theorem Valid.key_eq_iff_addr_eq {c : CLRUCache K V} (hc : Valid c) {n m : LruNode K V}
    (hn : n ∈ c.cacheItemsList) (hm : m ∈ c.cacheItemsList) : m.key = n.key ↔ m.addr = n.addr := by
  constructor
  · intro h; rw [List.inj_on_of_nodup_map hc.keys_nodup hm hn h]
  · intro h; rw [List.inj_on_of_nodup_map hc.addrs_nodup hm hn h]

/-- A cache whose list is a sublist of a valid cache's and whose map holds its entries is
valid. -/
theorem Valid.of_sublist {c c' : CLRUCache K V} (hc : Valid c)
    (hsub : c'.cacheItemsList.Sublist c.cacheItemsList) (hnext : c'.nextAddr = c.nextAddr)
    (hmap : c'.cacheItemsMap.Perm (c'.cacheItemsList.map LruNode.entry)) : Valid c' :=
  ⟨hc.keys_nodup.sublist (hsub.map _), hc.addrs_nodup.sublist (hsub.map _),
    fun n hn => hnext ▸ hc.addr_lt n (hsub.subset hn), hmap⟩

theorem Valid.length_map {c : CLRUCache K V} (hc : Valid c) :
    c.cacheItemsMap.length = c.cacheItemsList.length := by
  rw [hc.map_perm.length_eq, List.length_map]

end Invariant

variable {K V : Type} [DecidableEq K]

/-- Filtering out a key no node has changes nothing. -/
theorem filter_key_of_not_mem {l : List (LruNode K V)} {k : K} (hk : k ∉ l.map LruNode.key) :
    l.filter (fun m => m.key ≠ k) = l :=
  List.filter_eq_self.2 fun m hm => by
    simpa using fun h => hk (List.mem_map.2 ⟨m, hm, h⟩)

theorem entry_filter (l : List (LruNode K V)) (k : K) :
    (l.filter fun m => m.key ≠ k).map LruNode.entry =
      (l.map LruNode.entry).filter (fun e => e.1 ≠ k) := by
  rw [List.filter_map]; rfl

/-- The node of a key, moved to the front of the other nodes, is a permutation of the list. -/
theorem perm_cons_filter_key {l : List (LruNode K V)} {n : LruNode K V} (hn : n ∈ l)
    (hl : (l.map LruNode.key).Nodup) : (n :: l.filter fun m => m.key ≠ n.key).Perm l := by
  induction l with
  | nil => cases hn
  | cons m t ih =>
    rw [List.map_cons, List.nodup_cons] at hl
    rcases List.mem_cons.1 hn with rfl | hnt
    · rw [List.filter_cons_of_neg (by simp), filter_key_of_not_mem hl.1]
    · have hmn : m.key ≠ n.key := fun h => hl.1 (h ▸ List.mem_map_of_mem _ hnt)
      rw [List.filter_cons_of_pos (by simpa using hmn)]
      exact (List.Perm.swap _ _ _).trans ((ih hnt hl.2).cons m)

theorem filter_key_append_singleton {d : List (LruNode K V)} {x : LruNode K V}
    (hl : ((d ++ [x]).map LruNode.key).Nodup) :
    (d ++ [x]).filter (fun m => m.key ≠ x.key) = d := by
  rw [List.map_append, List.nodup_append] at hl
  have hnot : x.key ∉ d.map LruNode.key := fun hk => hl.2.2 hk (by simp)
  rw [List.filter_append, filter_key_of_not_mem hnot]
  simp

/-- Without the last node's key, a list with distinct keys is its `dropLast`. -/
theorem filter_key_getLast {l : List (LruNode K V)} (h : l ≠ [])
    (hl : (l.map LruNode.key).Nodup) :
    l.filter (fun m => m.key ≠ (l.getLast h).key) = l.dropLast := by
  have hsplit := List.dropLast_append_getLast h
  calc l.filter (fun m => m.key ≠ (l.getLast h).key)
      = (l.dropLast ++ [l.getLast h]).filter (fun m => m.key ≠ (l.getLast h).key) := by
        rw [hsplit]
    _ = l.dropLast := filter_key_append_singleton (by rwa [hsplit])

/-- The abstract cache finds a key's pair where the list finds the key's node. -/
theorem find?_abs (c : CLRUCache K V) (k : K) :
    c.abs.items.find? (fun p => p.1 = k) =
      (c.cacheItemsList.find? (fun n => n.key = k)).map fun n => (n.key, n.value) :=
  List.find?_map _ _

theorem find?_eq_some_of_unique {α : Type} {p : α → Bool} {l : List α} {n : α} (hn : n ∈ l)
    (hp : p n) (huniq : ∀ m ∈ l, p m → m = n) : l.find? p = some n := by
  cases h : l.find? p with
  | none => exact absurd hp (List.find?_eq_none.1 h n hn)
  | some m => rw [huniq m (List.mem_of_find?_eq_some h) (List.find?_some h)]

section Valid

variable {c : CLRUCache K V} (hc : Valid c)
include hc

theorem Valid.find_eq_some_iff {k : K} {a : Nat} :
    c.find k = some a ↔ ∃ n ∈ c.cacheItemsList, n.key = k ∧ n.addr = a := by
  rw [← hc.mem_map_iff]
  constructor
  · intro h
    obtain ⟨e, he, rfl⟩ := Option.map_eq_some'.1 h
    have hk : e.1 = k := by simpa using List.find?_some he
    rw [← hk]; exact List.mem_of_find?_eq_some he
  · intro h
    obtain ⟨n, hn, rfl, rfl⟩ := hc.mem_map_iff.1 h
    cases he : c.cacheItemsMap.find? (fun e => e.1 = n.key) with
    | none => simpa using List.find?_eq_none.1 he _ h
    | some e =>
      have hk : e.1 = n.key := by simpa using List.find?_some he
      obtain ⟨m, hm, hmk, hma⟩ := hc.mem_map_iff.1
        (show (e.1, e.2) ∈ c.cacheItemsMap from List.mem_of_find?_eq_some he)
      simp [find, he, ← hma, (hc.key_eq_iff_addr_eq hn hm).1 (hmk.trans hk)]

theorem Valid.find_eq_none_iff {k : K} :
    c.find k = none ↔ k ∉ c.cacheItemsList.map LruNode.key := by
  cases h : c.find k with
  | none =>
    refine iff_of_true rfl fun hk => ?_
    obtain ⟨n, hn, rfl⟩ := List.mem_map.1 hk
    simp [hc.find_eq_some_iff.2 ⟨n, hn, rfl, rfl⟩] at h
  | some a =>
    obtain ⟨n, hn, hk, -⟩ := hc.find_eq_some_iff.1 h
    exact iff_of_false (by simp) (not_not.2 (List.mem_map.2 ⟨n, hn, hk⟩))

/-- Filtering the list by a node's address is filtering it by the node's key. -/
theorem Valid.filter_addr {n : LruNode K V} (hn : n ∈ c.cacheItemsList) :
    c.cacheItemsList.filter (fun m => m.addr ≠ n.addr) =
      c.cacheItemsList.filter (fun m => m.key ≠ n.key) :=
  List.filter_congr fun m hm => by simp [hc.key_eq_iff_addr_eq hn hm]

/-- `Erase` removes exactly the node of its key, and the map entry of that key. -/
theorem Valid.erase_eq (k : K) :
    (c.erase k).cacheItemsList = c.cacheItemsList.filter (fun m => m.key ≠ k) ∧
      (c.erase k).cacheItemsMap.Perm ((c.cacheItemsList.filter fun m => m.key ≠ k).map
        LruNode.entry) ∧
      (c.erase k).maxSize = c.maxSize ∧ (c.erase k).nextAddr = c.nextAddr := by
  have hperm : (c.cacheItemsMap.filter fun e => e.1 ≠ k).Perm
      ((c.cacheItemsList.filter fun m => m.key ≠ k).map LruNode.entry) := by
    rw [entry_filter]
    exact hc.map_perm.filter _
  cases h : c.find k with
  | some a =>
    obtain ⟨n, hn, hk, ha⟩ := hc.find_eq_some_iff.1 h
    rw [erase, h]
    refine ⟨?_, hperm, rfl, rfl⟩
    rw [← ha, ← hk]
    exact hc.filter_addr hn
  | none =>
    have hk := hc.find_eq_none_iff.1 h
    rw [erase, h]
    exact ⟨(filter_key_of_not_mem hk).symm, (filter_key_of_not_mem hk).symm ▸ hc.map_perm,
      rfl, rfl⟩

theorem Valid.erase (k : K) : Valid (c.erase k) := by
  obtain ⟨hl, hm, -, hn⟩ := hc.erase_eq k
  exact hc.of_sublist (hl ▸ List.filter_sublist _) hn (hl ▸ hm)

theorem abs_erase (k : K) : (c.erase k).abs = ⟨c.abs.without k, c.maxSize⟩ := by
  obtain ⟨hl, -, hs, -⟩ := hc.erase_eq k
  simp only [abs, LruList.without, hl, hs, List.filter_map]
  rfl

theorem Valid.evict : Valid c.evict ∧ c.evict.abs = ⟨c.abs.items.dropLast, c.maxSize⟩ := by
  cases hl : c.cacheItemsList.getLast? with
  | none =>
    have hnil := List.getLast?_eq_none_iff.1 hl
    simp only [CLRUCache.evict, hl]
    exact ⟨hc, by simp [abs, hnil]⟩
  | some last =>
    have hne : c.cacheItemsList ≠ [] := fun h => by simp [h] at hl
    obtain rfl : c.cacheItemsList.getLast hne = last := by
      rw [List.getLast?_eq_getLast _ hne] at hl; exact Option.some.inj hl
    have hfilter := filter_key_getLast hne hc.keys_nodup
    simp only [CLRUCache.evict, hl]
    refine ⟨hc.of_sublist (List.dropLast_sublist _) rfl ?_, by simp [abs, List.map_dropLast]⟩
    rw [← hfilter, entry_filter]
    exact hc.map_perm.filter _

/-- `Erase` after `push_front`: the new node, then the old nodes without `key`'s. -/
theorem Valid.erase_pushFront (k : K) (v : V) :
    ((c.pushFront k v).erase k).cacheItemsList =
      ⟨c.nextAddr, k, v⟩ :: c.cacheItemsList.filter (fun m => m.key ≠ k) ∧
      ((c.pushFront k v).erase k).cacheItemsMap.Perm
        ((c.cacheItemsList.filter fun m => m.key ≠ k).map LruNode.entry) ∧
      ((c.pushFront k v).erase k).maxSize = c.maxSize ∧
      ((c.pushFront k v).erase k).nextAddr = c.nextAddr + 1 := by
  have hfind : (c.pushFront k v).find k = c.find k := rfl
  have hperm : (c.cacheItemsMap.filter fun e => e.1 ≠ k).Perm
      ((c.cacheItemsList.filter fun m => m.key ≠ k).map LruNode.entry) := by
    rw [entry_filter]; exact hc.map_perm.filter _
  cases h : c.find k with
  | some a =>
    obtain ⟨n, hn, hk, ha⟩ := hc.find_eq_some_iff.1 h
    have hlt : c.nextAddr ≠ a := (ha ▸ hc.addr_lt n hn).ne'
    rw [CLRUCache.erase, hfind, h]
    refine ⟨?_, hperm, rfl, rfl⟩
    show (⟨c.nextAddr, k, v⟩ :: c.cacheItemsList).filter (fun n => n.addr ≠ a) = _
    rw [List.filter_cons_of_pos (by simpa using hlt), ← ha, ← hk, hc.filter_addr hn]
  | none =>
    have hk := hc.find_eq_none_iff.1 h
    rw [CLRUCache.erase, hfind, h]
    exact ⟨by rw [filter_key_of_not_mem hk]; rfl,
      (filter_key_of_not_mem hk).symm ▸ hc.map_perm, rfl, rfl⟩

/-- The cache `Put` has built when it tests for eviction is valid, and holds the new pair in
front of the old pairs without `key`. -/
theorem Valid.put_mapped (k : K) (v : V) :
    Valid (((c.pushFront k v).erase k).mapKey k c.nextAddr) ∧
      (((c.pushFront k v).erase k).mapKey k c.nextAddr).abs =
        ⟨(k, v) :: c.abs.without k, c.maxSize⟩ := by
  obtain ⟨hl, hm, hs, hn⟩ := hc.erase_pushFront k v
  have hsub : (c.cacheItemsList.filter fun m => m.key ≠ k).Sublist c.cacheItemsList :=
    List.filter_sublist _
  refine ⟨⟨?_, ?_, ?_, ?_⟩, ?_⟩ <;> simp only [mapKey, hl, hn, hs]
  · rw [List.map_cons, List.nodup_cons]
    exact ⟨by simp, hc.keys_nodup.sublist (hsub.map _)⟩
  · rw [List.map_cons, List.nodup_cons]
    refine ⟨fun h => ?_, hc.addrs_nodup.sublist (hsub.map _)⟩
    obtain ⟨m, hm, hma⟩ := List.mem_map.1 h
    exact absurd hma (hc.addr_lt m (hsub.subset hm)).ne
  · intro m hm
    rcases List.mem_cons.1 hm with rfl | hm
    · exact Nat.lt_succ_self _
    · exact Nat.lt_succ_of_lt (hc.addr_lt m (hsub.subset hm))
  · exact hm.cons _
  · simp [abs, LruList.without, List.filter_map]
    rfl

theorem Valid.put (k : K) (v : V) : Valid (c.put k v) ∧ (c.put k v).abs = c.abs.put k v := by
  obtain ⟨hv, habs⟩ := hc.put_mapped k v
  have hlen : (((c.pushFront k v).erase k).mapKey k c.nextAddr).cacheItemsMap.length =
      ((k, v) :: c.abs.without k).length := by
    rw [hv.length_map]; simpa [abs] using congrArg (fun a => a.items.length) habs
  have hmax : (((c.pushFront k v).erase k).mapKey k c.nextAddr).maxSize = c.maxSize :=
    congrArg LruList.maxSize habs
  unfold CLRUCache.put LruList.put
  dsimp only
  rw [hlen, hmax, show c.abs.maxSize = c.maxSize from rfl]
  split_ifs
  · exact ⟨hv.evict.1, by rw [hv.evict.2, habs, hmax]⟩
  · exact ⟨hv, habs⟩

/-- `Get` on a key with no node throws, as it fails on the abstract list. -/
theorem Valid.get_of_find_none {k : K} (h : c.find k = none) :
    c.get k = .error noSuchKey ∧ c.abs.get k = .error noSuchKey := by
  have hk := hc.find_eq_none_iff.1 h
  have hnone : c.cacheItemsList.find? (fun n => n.key = k) = none :=
    List.find?_eq_none.2 fun n hn hnk => hk (List.mem_map.2 ⟨n, hn, by simpa using hnk⟩)
  simp [CLRUCache.get, LruList.get, h, find?_abs, hnone]

/-- `Get` on the key of a node splices the node to the front and returns its value, as the
abstract list moves the key's pair. -/
theorem Valid.get_of_mem {n : LruNode K V} (hn : n ∈ c.cacheItemsList) :
    c.get n.key = .ok (n.value, c.spliceFront n) ∧
    c.abs.get n.key = .ok (n.value, ⟨(n.key, n.value) :: c.abs.without n.key, c.maxSize⟩) := by
  have hkey : c.cacheItemsList.find? (fun m => m.key = n.key) = some n :=
    find?_eq_some_of_unique hn (by simp) fun m hm hmk =>
      List.inj_on_of_nodup_map hc.keys_nodup hm hn (by simpa using hmk)
  have haddr : c.cacheItemsList.find? (fun m => m.addr = n.addr) = some n :=
    find?_eq_some_of_unique hn (by simp) fun m hm hma =>
      List.inj_on_of_nodup_map hc.addrs_nodup hm hn (by simpa using hma)
  have hfind : c.find n.key = some n.addr := hc.find_eq_some_iff.2 ⟨n, hn, rfl, rfl⟩
  simp [CLRUCache.get, LruList.get, hfind, haddr, find?_abs, hkey]

theorem Valid.spliceFront {n : LruNode K V} (hn : n ∈ c.cacheItemsList) :
    Valid (c.spliceFront n) ∧
      (c.spliceFront n).abs = ⟨(n.key, n.value) :: c.abs.without n.key, c.maxSize⟩ := by
  have hperm := perm_cons_filter_key hn hc.keys_nodup
  rw [CLRUCache.spliceFront, hc.filter_addr hn]
  refine ⟨⟨(hperm.map _).nodup_iff.2 hc.keys_nodup, (hperm.map _).nodup_iff.2 hc.addrs_nodup,
    fun m hm => hc.addr_lt m (hperm.subset hm), hc.map_perm.trans (hperm.map _).symm⟩, ?_⟩
  simp [abs, LruList.without, List.filter_map]
  rfl

theorem Valid.exists_eq (k : K) : c.exists k = c.abs.items.any (fun p => p.1 = k) := by
  rw [Bool.eq_iff_iff, CLRUCache.exists, Option.isSome_iff_ne_none, Ne, hc.find_eq_none_iff,
    not_not, abs_items]
  simp

/-- One call on a valid cache keeps it valid, and answers and acts as the same call on the
abstract list. -/
theorem Valid.step_refines (op : LruOp K V) :
    Valid (c.step op).2 ∧ (c.step op).1 = (c.abs.step op).1 ∧
      (c.step op).2.abs = (c.abs.step op).2 := by
  cases op with
  | put k v => exact ⟨(hc.put k v).1, rfl, (hc.put k v).2⟩
  | get k =>
    cases h : c.find k with
    | none =>
      obtain ⟨h1, h2⟩ := hc.get_of_find_none h
      simp [step, LruList.step, h1, h2, hc]
    | some a =>
      obtain ⟨n, hn, rfl, -⟩ := hc.find_eq_some_iff.1 h
      obtain ⟨h1, h2⟩ := hc.get_of_mem hn
      obtain ⟨h3, h4⟩ := hc.spliceFront hn
      simp [step, LruList.step, h1, h2, h3, h4]
  | erase k => exact ⟨hc.erase k, rfl, abs_erase hc k⟩
  | «exists» k => exact ⟨hc, by simp [step, LruList.step, hc.exists_eq k], rfl⟩
  | size => exact ⟨hc, by simp [step, LruList.step, size, hc.length_map, abs], rfl⟩
  | clear => exact ⟨⟨List.nodup_nil, List.nodup_nil, (fun _ h => nomatch h), List.Perm.nil⟩,
      rfl, rfl⟩
  | setSize n => exact ⟨⟨hc.1, hc.2, hc.3, hc.4⟩, rfl, rfl⟩

end Valid

/-- The run lemma: from a valid cache, a sequence of calls keeps the cache valid, and gives
the outputs and the final state of the same calls on the abstract list. -/
theorem Valid.run_refines {c : CLRUCache K V} (hc : Valid c) (ops : List (LruOp K V)) :
    Valid (c.run ops).2 ∧ (c.run ops).1 = (c.abs.run ops).1 ∧
      (c.run ops).2.abs = (c.abs.run ops).2 := by
  induction ops generalizing c with
  | nil => exact ⟨hc, rfl, rfl⟩
  | cons op ops ih =>
    obtain ⟨hv, hout, habs⟩ := hc.step_refines op
    obtain ⟨hv', hout', habs'⟩ := ih hv
    simp only [run, LruList.run, hout, ← habs, hout', habs']
    exact ⟨hv', trivial, trivial⟩

/-- `CLRUCache` refines the abstract LRU list: over every sequence of calls from an empty
cache, the list's keys stay distinct, the map's key set stays the list's, every map entry
designates the node of its key, and every call answers as on the abstract list, which the
cache's pairs spell out. -/
theorem run_refines_lruList (maxSize : Nat) (ops : List (LruOp K V)) :
    let c := ((empty maxSize : CLRUCache K V).run ops).2
    (c.cacheItemsList.map LruNode.key).Nodup ∧
      (∀ k, k ∈ c.cacheItemsMap.map Prod.fst ↔ k ∈ c.cacheItemsList.map LruNode.key) ∧
      (∀ k a, (k, a) ∈ c.cacheItemsMap → ∃ n ∈ c.cacheItemsList, n.key = k ∧ n.addr = a) ∧
      ((empty maxSize : CLRUCache K V).run ops).1 = ((LruList.empty maxSize).run ops).1 ∧
      c.abs = ((LruList.empty maxSize).run ops).2 := by
  obtain ⟨hv, hout, habs⟩ := (valid_empty maxSize : Valid (empty maxSize : CLRUCache K V)).run_refines ops
  refine ⟨hv.keys_nodup, fun k => ?_, fun k a h => hv.mem_map_iff.1 h, hout, habs⟩
  rw [(hv.map_perm.map Prod.fst).mem_iff, List.map_map]
  exact Iff.rfl

/-- After `SetSize(1)` on a cache of two, `Put` of a third key evicts one entry, and leaves
`Size()` at two against `MaxSize()` one. -/
theorem put_after_setSize_exceeds_maxSize :
    (CLRUCache.run (CLRUCache.empty 2 : CLRUCache Nat Nat)
        [.put 1 10, .put 2 20, .setSize 1, .put 3 30]).2.size = 2 ∧
      (CLRUCache.run (CLRUCache.empty 2 : CLRUCache Nat Nat)
        [.put 1 10, .put 2 20, .setSize 1, .put 3 30]).2.maxSize = 1 :=
  ⟨rfl, rfl⟩

end CLRUCache

end AokChain
