import AokChain.Miner.Assembler

/-!
# Packages: their sums, their order, and the modified set's aggregates

The package of an entry is the entry with its ancestors not yet in the block. `TestPackage`
judges a package by the aggregates of the candidate: the mempool entry's own, which count
every ancestor, or the modified entry's, which `UpdatePackagesForAdded` reduces by each
ancestor added to the block. Both cover the package: a mempool entry's aggregates by the
mempool's invariants, a modified entry's because each reduction removes one ancestor that
the block took (`updatePackagesForAdded_rules`). A modified entry erased after a failure and
created again later starts from the mempool's aggregates, which count more than the package,
so the aggregates are at least the package's sums, not always equal to them.
-/

namespace AokChain

namespace Miner

open TxMemPool

/-- The package of `x` when the entries `J` are in the block: `onlyUnconfirmed` of its
ancestors, with `x` inserted. -/
def packageOf (m : TxMemPool) (J : List TxMemPoolEntry) (x : TxMemPoolEntry) :
    List TxMemPoolEntry :=
  (m.calculateMemPoolAncestors x).filter (fun e => e ∉ J) ++ [x]

theorem onlyUnconfirmed_append (m : TxMemPool) (a : BlockAssembler) (x : TxMemPoolEntry) :
    onlyUnconfirmed a (m.calculateMemPoolAncestors x) ++ [x] = packageOf m a.inBlock x := rfl

theorem sum_map_filter_le {α : Type} (p : α → Bool) (l : List α) (f : α → Nat) :
    ((l.filter p).map f).sum ≤ (l.map f).sum := by
  induction l with
  | nil => simp
  | cons x l ih => by_cases h : p x <;> simp [List.filter_cons, h] <;> omega

section Sums

variable {m : TxMemPool} (hm : m.Valid) (f : TxMemPoolEntry → Nat)

theorem sum_packageOf_le (J : List TxMemPoolEntry) (x : TxMemPoolEntry) :
    ((packageOf m J x).map f).sum ≤ f x + ((m.calculateMemPoolAncestors x).map f).sum := by
  have := sum_map_filter_le (fun e => decide (e ∉ J)) (m.calculateMemPoolAncestors x) f
  simp only [packageOf, List.map_append, List.sum_append, List.map_singleton, List.sum_singleton]
  omega

theorem packageOf_append_of_not_mem {J : List TxMemPoolEntry} {it x : TxMemPoolEntry}
    (h : it ∉ m.calculateMemPoolAncestors x) : packageOf m (J ++ [it]) x = packageOf m J x := by
  simp only [packageOf, List.append_cancel_right_eq]
  apply List.filter_congr
  intro e he
  have : e ≠ it := fun h' => h (h' ▸ he)
  simp [this]

theorem packageOf_congr {J J' : List TxMemPoolEntry} (h : ∀ y, y ∈ J ↔ y ∈ J')
    (x : TxMemPoolEntry) : packageOf m J x = packageOf m J' x := by
  simp only [packageOf, List.append_cancel_right_eq]
  exact List.filter_congr fun y _ => by simp [h y]

include hm in
theorem sum_packageOf_append {M : Type} [AddCommMonoid M] (g : TxMemPoolEntry → M)
    {J : List TxMemPoolEntry} {it x : TxMemPoolEntry} (hx : x ∈ m.mapTx)
    (hit : it ∈ m.calculateMemPoolAncestors x) (hJ : it ∉ J) :
    ((packageOf m J x).map g).sum = ((packageOf m (J ++ [it]) x).map g).sum + g it := by
  have hl : ((m.calculateMemPoolAncestors x).filter fun e => e ∉ J).Nodup :=
    (hm.ancestors_nodup x hx).filter _
  have hmem : it ∈ (m.calculateMemPoolAncestors x).filter fun e => e ∉ J :=
    List.mem_filter.2 ⟨hit, by simpa using hJ⟩
  have herase : (m.calculateMemPoolAncestors x).filter (fun e => e ∉ J ++ [it]) =
      ((m.calculateMemPoolAncestors x).filter fun e => e ∉ J).erase it := by
    rw [hl.erase_eq_filter, List.filter_filter]
    congr 1
    funext e
    by_cases h : e = it <;> simp [h]
  have hsum := ((List.perm_cons_erase hmem).map g).sum_eq
  simp only [List.map_cons, List.sum_cons] at hsum
  simp only [packageOf, herase, List.map_append, List.sum_append, hsum]
  abel

end Sums

/-- The `AddToBlock` loop over a package adds its entries, their weights, costs and fees, and
erases them from the modified set. -/
theorem addSorted_eq (a : BlockAssembler) (mm : List ModifiedEntry) (P : List TxMemPoolEntry) :
    addSorted a mm P =
      ({ a with
          vtx := a.vtx ++ P
          vTxFees := a.vTxFees ++ P.map (·.fee)
          vTxSigOpsCost := a.vTxSigOpsCost ++ P.map (·.sigOpCost)
          nBlockWeight := a.nBlockWeight + (P.map (·.txWeight)).sum
          nBlockTx := a.nBlockTx + P.length
          nBlockSigOpsCost := a.nBlockSigOpsCost + (P.map (·.sigOpCost)).sum
          nFees := a.nFees + (P.map (·.fee)).sum
          inBlock := a.inBlock ++ P },
        mm.filter fun e => e.iter ∉ P) := by
  induction P generalizing a mm with
  | nil => simp [addSorted]
  | cons e P ih =>
    rw [addSorted, ih]
    simp only [addToBlock, List.append_assoc, List.singleton_append, List.map_cons, List.sum_cons,
      List.length_cons, List.filter_filter, List.mem_cons, not_or]
    simp only [add_assoc, Nat.add_comm 1, Prod.mk.injEq, true_and]
    exact List.filter_congr fun x _ => by simp [Bool.and_comm]

instance : IsTotal TxMemPoolEntry CompareTxIterByAncestorCount :=
  ⟨fun a b => by unfold CompareTxIterByAncestorCount; omega⟩

instance : IsTrans TxMemPoolEntry CompareTxIterByAncestorCount :=
  ⟨fun a b c => by unfold CompareTxIterByAncestorCount; omega⟩

theorem sortForBlock_perm (P : List TxMemPoolEntry) : (sortForBlock P).Perm P :=
  List.perm_insertionSort _ P

/-- Sorting by ancestor count puts no entry before one of its ancestors. -/
theorem sortForBlock_pairwise {m : TxMemPool} (hm : m.Valid) {P : List TxMemPoolEntry}
    (hP : ∀ x ∈ P, x ∈ m.mapTx) :
    (sortForBlock P).Pairwise fun x y => y ∉ m.calculateMemPoolAncestors x := by
  refine (List.sorted_insertionSort CompareTxIterByAncestorCount P).imp_of_mem ?_
  intro x y hx _ hxy hyx
  have hlt := TxMemPool.countWithAncestors_lt hm (hP x ((sortForBlock_perm P).subset hx)) hyx
  unfold CompareTxIterByAncestorCount at hxy
  omega

namespace ModifiedEntry

/-- A modified entry's size and cost with ancestors cover its package when the entries `J`
are in the block. -/
def Covers (m : TxMemPool) (J : List TxMemPoolEntry) (e : ModifiedEntry) : Prop :=
  ((packageOf m J e.iter).map (·.txSize)).sum ≤ e.nSizeWithAncestors ∧
    ((packageOf m J e.iter).map (·.sigOpCost)).sum ≤ e.nSigOpCostWithAncestors

variable {m : TxMemPool} {J : List TxMemPoolEntry}

theorem covers_ofEntry (hm : m.Valid) {x : TxMemPoolEntry} (hx : x ∈ m.mapTx) :
    (ofEntry x).Covers m J := by
  refine ⟨?_, ?_⟩
  · simpa [ofEntry, hm.size x hx] using sum_packageOf_le (·.txSize) J x
  · simpa [ofEntry, hm.sigOpCost x hx] using sum_packageOf_le (·.sigOpCost) J x

theorem covers_updateForParentInclusion (hm : m.Valid) {it : TxMemPoolEntry} {e : ModifiedEntry}
    (hx : e.iter ∈ m.mapTx) (hit : it ∈ m.calculateMemPoolAncestors e.iter) (hJ : it ∉ J)
    (h : e.Covers m J) : (e.updateForParentInclusion it).Covers m (J ++ [it]) := by
  have hs := sum_packageOf_append hm (·.txSize) hx hit hJ
  have hc := sum_packageOf_append hm (·.sigOpCost) hx hit hJ
  simp only [Covers, updateForParentInclusion] at h hs hc ⊢
  omega

theorem covers_congr {J' : List TxMemPoolEntry} (h : ∀ y, y ∈ J ↔ y ∈ J')
    {e : ModifiedEntry} :
    e.Covers m J ↔ e.Covers m J' := by
  rw [Covers, Covers, packageOf_congr h]

theorem covers_append_of_not_mem {it : TxMemPoolEntry} {e : ModifiedEntry}
    (h : it ∉ m.calculateMemPoolAncestors e.iter) : e.Covers m (J ++ [it]) ↔ e.Covers m J := by
  rw [Covers, Covers, packageOf_append_of_not_mem h]

end ModifiedEntry

/-! ### `UpdatePackagesForAdded` keeps the modified set's aggregates covering -/

/-- What a property `C J e` of a modified entry `e` in the block `J` must survive for
`UpdatePackagesForAdded` to keep it: the entry it creates for a descendant of an added `it`,
the reduction by `it` of an entry already there, an added entry that is not an ancestor, and
the block listed in another order. -/
structure CoverRules (m : TxMemPool) (C : List TxMemPoolEntry → ModifiedEntry → Prop) :
    Prop where
  ofEntry {J : List TxMemPoolEntry} {it x : TxMemPoolEntry} : x ∈ m.mapTx →
    it ∈ m.calculateMemPoolAncestors x → it ∉ J →
    C (J ++ [it]) ((ModifiedEntry.ofEntry x).updateForParentInclusion it)
  update {J : List TxMemPoolEntry} {it : TxMemPoolEntry} {e : ModifiedEntry} :
    e.iter ∈ m.mapTx → it ∈ m.calculateMemPoolAncestors e.iter → it ∉ J → C J e →
    C (J ++ [it]) (e.updateForParentInclusion it)
  append {J : List TxMemPoolEntry} {it : TxMemPoolEntry} {e : ModifiedEntry} :
    it ∉ m.calculateMemPoolAncestors e.iter → C J e → C (J ++ [it]) e
  congr {J J' : List TxMemPoolEntry} {e : ModifiedEntry} : (∀ y, y ∈ J ↔ y ∈ J') →
    C J e → C J' e

theorem CoverRules.and {m : TxMemPool} {C D : List TxMemPoolEntry → ModifiedEntry → Prop}
    (hC : CoverRules m C) (hD : CoverRules m D) : CoverRules m fun J e => C J e ∧ D J e where
  ofEntry hx hit hJ := ⟨hC.ofEntry hx hit hJ, hD.ofEntry hx hit hJ⟩
  update hx hit hJ h := ⟨hC.update hx hit hJ h.1, hD.update hx hit hJ h.2⟩
  append hit h := ⟨hC.append hit h.1, hD.append hit h.2⟩
  congr hJ h := ⟨hC.congr hJ h.1, hD.congr hJ h.2⟩

theorem coverRules_covers {m : TxMemPool} (hm : m.Valid) :
    CoverRules m fun J e => e.Covers m J where
  ofEntry hx hit hJ := ModifiedEntry.covers_updateForParentInclusion hm hx hit hJ
    (ModifiedEntry.covers_ofEntry hm hx)
  update := ModifiedEntry.covers_updateForParentInclusion hm
  append hit := (ModifiedEntry.covers_append_of_not_mem hit).2
  congr hJ := (ModifiedEntry.covers_congr hJ).1

section UpdatePackages

variable {m : TxMemPool} {C : List TxMemPoolEntry → ModifiedEntry → Prop} (hR : CoverRules m C)
  {I P : List TxMemPoolEntry}

/-- What the modified set keeps while the package `P` joins the block `I`: distinct keys, each
a mempool entry in neither, with `cover` holding of every entry. -/
def ModifiedInv (m : TxMemPool) (I P : List TxMemPoolEntry) (cover : ModifiedEntry → Prop)
    (mm : List ModifiedEntry) : Prop :=
  (mm.map (·.iter)).Nodup ∧
    ∀ e ∈ mm, e.iter ∈ m.mapTx ∧ e.iter ∉ I ∧ e.iter ∉ P ∧ cover e

/-- During the inner loop for `it`: the descendants done so far satisfy `C` in the block with
`it`, the others still in the block without it. -/
def innerCover (C : List TxMemPoolEntry → ModifiedEntry → Prop) (J : List TxMemPoolEntry)
    (it : TxMemPoolEntry) (done : List TxMemPoolEntry) (e : ModifiedEntry) : Prop :=
  (e.iter ∈ done → C (J ++ [it]) e) ∧ (e.iter ∉ done → C J e)

theorem iter_update_if (it d : TxMemPoolEntry) (e : ModifiedEntry) :
    (if e.iter = d then e.updateForParentInclusion it else e).iter = e.iter := by
  split <;> rfl

include hR in
theorem updateDescendant_inv {J : List TxMemPoolEntry} {it d : TxMemPoolEntry}
    (hI : ∀ x ∈ I, ∀ y ∈ m.calculateMemPoolAncestors x, y ∈ I) (hitI : it ∉ I)
    (hitJ : it ∉ J)
    (hitP : it ∈ P) {done : List TxMemPoolEntry} (hd : d ∉ done)
    (hdesc : d ∈ m.calculateDescendants it) {acc : List ModifiedEntry × Nat}
    (h : ModifiedInv m I P (innerCover C J it done) acc.1) :
    ModifiedInv m I P (innerCover C J it (done ++ [d])) (updateDescendant P it acc d).1 := by
  obtain ⟨hdm, hdit⟩ := TxMemPool.mem_calculateDescendants.1 hdesc
  obtain ⟨hnd, he⟩ := h
  -- an entry whose key is not `d` keeps its cover
  have hkeep {e : ModifiedEntry} (hed : e.iter ≠ d) (hc : innerCover C J it done e) :
      innerCover C J it (done ++ [d]) e := by
    simpa [innerCover, hed] using hc
  -- a descendant outside the package has `it` among its ancestors
  have hitd (hdP : d ∉ P) : it ∈ m.calculateMemPoolAncestors d :=
    hdit.resolve_left fun h' => hdP (h' ▸ hitP)
  unfold updateDescendant
  split_ifs with hdP hdk
  · exact ⟨hnd, fun e hmem => by
      obtain ⟨h1, h2, h3, h4⟩ := he e hmem
      exact ⟨h1, h2, h3, hkeep (fun h' => h3 (h' ▸ hdP)) h4⟩⟩
  · refine ⟨by simpa [Function.comp_def, iter_update_if] using hnd, fun e' hmem => ?_⟩
    obtain ⟨e, he', rfl⟩ := List.mem_map.1 hmem
    obtain ⟨h1, h2, h3, h4⟩ := he e he'
    by_cases hed : e.iter = d
    · subst hed
      simp only [if_pos rfl]
      exact ⟨h1, h2, h3, fun _ => hR.update h1 (hitd hdP) hitJ (h4.2 hd),
        fun hn => absurd (by simp) hn⟩
    · simpa [hed] using ⟨h1, h2, h3, hkeep hed h4⟩
  · have hdI : d ∉ I := fun h' => hitI (hI d h' it (hitd hdP))
    refine ⟨?_, fun e' hmem => ?_⟩
    · simp only [List.map_append, List.map_singleton, ModifiedEntry.updateForParentInclusion_iter,
        ModifiedEntry.ofEntry_iter]
      exact hnd.append (List.nodup_singleton d) (List.disjoint_singleton.2 hdk)
    · rcases List.mem_append.1 hmem with hmem | hmem
      · obtain ⟨h1, h2, h3, h4⟩ := he e' hmem
        exact ⟨h1, h2, h3, hkeep (fun h' => hdk (List.mem_map.2 ⟨e', hmem, h'⟩)) h4⟩
      · rw [List.mem_singleton] at hmem
        subst hmem
        exact ⟨hdm, hdI, hdP, fun _ => hR.ofEntry hdm (hitd hdP) hitJ,
          fun hn => absurd (by simp) hn⟩

theorem ModifiedInv.imp {c c' : ModifiedEntry → Prop} {mm : List ModifiedEntry}
    (hc : ∀ e, e.iter ∈ m.mapTx → c e → c' e) (h : ModifiedInv m I P c mm) :
    ModifiedInv m I P c' mm :=
  ⟨h.1, fun e he => let ⟨h1, h2, h3, h4⟩ := h.2 e he; ⟨h1, h2, h3, hc e h1 h4⟩⟩

include hR in
theorem foldl_updateDescendant_inv {J : List TxMemPoolEntry} {it : TxMemPoolEntry}
    (hI : ∀ x ∈ I, ∀ y ∈ m.calculateMemPoolAncestors x, y ∈ I) (hitI : it ∉ I)
    (hitJ : it ∉ J)
    (hitP : it ∈ P) :
    ∀ (todo done : List TxMemPoolEntry) (acc : List ModifiedEntry × Nat),
      (done ++ todo).Nodup → (∀ d ∈ todo, d ∈ m.calculateDescendants it) →
      ModifiedInv m I P (innerCover C J it done) acc.1 →
      ModifiedInv m I P (innerCover C J it (done ++ todo))
        (todo.foldl (updateDescendant P it) acc).1
  | [], done, acc, _, _, h => by simpa using h
  | d :: todo, done, acc, hnd, hdesc, h => by
    have hd : d ∉ done := fun h' => (List.nodup_append.1 hnd).2.2 h' (List.mem_cons_self d todo)
    have := foldl_updateDescendant_inv hI hitI hitJ hitP todo (done ++ [d])
      (updateDescendant P it acc d) (by simpa using hnd) (fun x hx => hdesc x (.tail _ hx))
      (updateDescendant_inv hR hI hitI hitJ hitP hd (hdesc d (.head _)) h)
    simpa using this

include hR in
/-- `UpdatePackagesForAdded` with the package `P` just added to the block `I`: the modified set
still has distinct keys outside the block, and a property that `CoverRules` says it keeps
holds of every entry in the larger block. -/
theorem updatePackagesForAdded_rules (hnd : m.mapTx.Nodup)
    (hI : ∀ x ∈ I, ∀ y ∈ m.calculateMemPoolAncestors x, y ∈ I)
    (hPI : ∀ x ∈ P, x ∉ I) (hPn : P.Nodup) {mm : List ModifiedEntry}
    (h : ModifiedInv m I P (C I) mm) :
    ModifiedInv m I P (C (I ++ P)) (updatePackagesForAdded m P mm).1 := by
  suffices hsuff : ∀ (todo done : List TxMemPoolEntry) (acc : List ModifiedEntry × Nat),
      done ++ todo = P → ModifiedInv m I P (C (I ++ done)) acc.1 →
      ModifiedInv m I P (C (I ++ done ++ todo))
        (todo.foldl (fun acc it => (m.calculateDescendants it).foldl
          (updateDescendant P it) acc) acc).1 by
    simpa using hsuff P [] (mm, 0) rfl (by simpa using h)
  intro todo
  induction todo with
  | nil => intro done acc _ h; simpa using h
  | cons it todo ih =>
    intro done acc hP h
    have hitP : it ∈ P := hP ▸ List.mem_append_right _ (List.mem_cons_self _ _)
    have hitI := hPI it hitP
    have hitJ : it ∉ I ++ done := by
      rw [List.mem_append, not_or]
      refine ⟨hitI, fun h' => ?_⟩
      rw [← hP] at hPn
      exact (List.nodup_append.1 hPn).2.2 h' (List.mem_cons_self it todo)
    have hinner := foldl_updateDescendant_inv hR hI hitI hitJ hitP (m.calculateDescendants it) []
      acc (by simpa using hnd.filter _) (fun _ hx => hx)
      (h.imp fun e _ hc => ⟨fun hn => absurd hn (List.not_mem_nil _), fun _ => hc⟩)
    have := ih (done ++ [it]) _ (by simpa using hP) (hinner.imp fun e he hc => by
      by_cases hd : e.iter ∈ m.calculateDescendants it
      · simpa using hc.1 (by simpa using hd)
      · have hnot : it ∉ m.calculateMemPoolAncestors e.iter := fun h' =>
          hd (TxMemPool.mem_calculateDescendants.2 ⟨he, .inr h'⟩)
        rw [← List.append_assoc]
        exact hR.append hnot (hc.2 (by simpa using hd)))
    simpa using this

end UpdatePackages

end Miner

end AokChain
