import AokChain.Miner.Template
import AokChain.Miner.Termination

/-!
# What holds at the head of every turn

At the head of every turn of `addPackageTxs`'s loop on a mempool with its invariants, the block
holds the ancestors of what it holds, and the modified entries lie outside it, each with an
ancestor in it. Each modified entry's aggregates are the sums over its package and over a set
of distinct in-block ancestors that no update took out (`ModifiedEntry.Counts`). That set is
empty for an entry that `UpdatePackagesForAdded` created and then reduced as the block grew.
It is not empty for an entry that was erased after a failure and created again, from the
mempool's aggregates, when a second ancestor joined the block: the first ancestor is still
counted. So sizes and signature-operation costs with ancestors are at least the package's,
and fees are too where the ancestors' modified fees are not negative (`addPackageTxs_head`).

The re-creation goes against the comment on `failedTx`, which keeps a failed entry from being
evaluated again with cached values that are not correct. The package it lets through is judged
by totals that still count an ancestor in the block (`stale_package_added`). With a negative
modified fee, which `prioritisetransaction` allows, the entry's fee with ancestors falls below
its package's (`stale_entry_fee_below_package`).
-/

namespace AokChain

namespace Miner

variable {limits : Limits} {m : TxMemPool} {minFee : Nat → Int}
  {isFinalTx : TxMemPoolEntry → Bool}

/-- The size, modified fee and signature-operation cost summed over some entries: what a
package's `packageSize`, `packageFees` and `packageSigOpsCost` stand for. -/
def totals (P : List TxMemPoolEntry) : Nat × Int × Nat :=
  ((P.map (·.txSize)).sum, (P.map (·.modifiedFee)).sum, (P.map (·.sigOpCost)).sum)

namespace ModifiedEntry

/-- The entry's aggregates are the sums over its package, when the entries `J` are in the
block, and over distinct ancestors `S` of it in the block. -/
def Counts (m : TxMemPool) (J : List TxMemPoolEntry) (e : ModifiedEntry) : Prop :=
  ∃ S : List TxMemPoolEntry, S.Nodup ∧
    (∀ y ∈ S, y ∈ J ∧ y ∈ m.calculateMemPoolAncestors e.iter) ∧
    packageStats e.iter (some e) = totals (packageOf m J e.iter ++ S)

/-- Some ancestor of the entry is in the block. -/
def HasBlockAncestor (m : TxMemPool) (J : List TxMemPoolEntry) (e : ModifiedEntry) : Prop :=
  ∃ y ∈ J, y ∈ m.calculateMemPoolAncestors e.iter

variable {J : List TxMemPoolEntry}

theorem counts_ofEntry (hm : m.Valid) {x : TxMemPoolEntry} (hx : x ∈ m.mapTx) :
    (ofEntry x).Counts m J := by
  refine ⟨(m.calculateMemPoolAncestors x).filter (· ∈ J), (hm.ancestors_nodup x hx).filter _,
    fun y hy => ?_, ?_⟩
  · obtain ⟨h1, h2⟩ := List.mem_filter.1 hy
    exact ⟨by simpa using h2, h1⟩
  · have hsum {M : Type} [AddCommMonoid M] (g : TxMemPoolEntry → M) :
        ((packageOf m J x ++ (m.calculateMemPoolAncestors x).filter (· ∈ J)).map g).sum =
          g x + ((m.calculateMemPoolAncestors x).map g).sum := by
      rw [← List.sum_map_filter_add_sum_map_filter_not (· ∈ J) g (m.calculateMemPoolAncestors x)]
      simp only [packageOf, List.map_append, List.sum_append, List.map_singleton,
        List.sum_singleton]
      abel
    simp only [packageStats, ofEntry, totals, hsum, hm.size x hx, hm.modFees x hx,
      hm.sigOpCost x hx]

theorem counts_updateForParentInclusion (hm : m.Valid) {it : TxMemPoolEntry} {e : ModifiedEntry}
    (hx : e.iter ∈ m.mapTx) (hit : it ∈ m.calculateMemPoolAncestors e.iter) (hJ : it ∉ J) :
    e.Counts m J → (e.updateForParentInclusion it).Counts m (J ++ [it]) := by
  rintro ⟨S, hnd, hS, h⟩
  refine ⟨S, hnd, fun y hy => ⟨List.mem_append_left _ (hS y hy).1, (hS y hy).2⟩, ?_⟩
  have hs := sum_packageOf_append hm (·.txSize) hx hit hJ
  have hf := sum_packageOf_append hm (·.modifiedFee) hx hit hJ
  have hc := sum_packageOf_append hm (·.sigOpCost) hx hit hJ
  simp only [packageStats, totals, updateForParentInclusion, List.map_append, List.sum_append,
    Prod.mk.injEq] at h hs hf hc ⊢
  omega

theorem counts_congr {J' : List TxMemPoolEntry} (h : ∀ y, y ∈ J ↔ y ∈ J') {e : ModifiedEntry} :
    e.Counts m J → e.Counts m J' := by
  rintro ⟨S, hnd, hS, he⟩
  exact ⟨S, hnd, fun y hy => ⟨(h y).1 (hS y hy).1, (hS y hy).2⟩, packageOf_congr h _ ▸ he⟩

theorem counts_append_of_not_mem {it : TxMemPoolEntry} {e : ModifiedEntry}
    (h : it ∉ m.calculateMemPoolAncestors e.iter) : e.Counts m J → e.Counts m (J ++ [it]) := by
  rintro ⟨S, hnd, hS, he⟩
  refine ⟨S, hnd, fun y hy => ⟨List.mem_append_left _ (hS y hy).1, (hS y hy).2⟩, ?_⟩
  rwa [packageOf_append_of_not_mem h]

/-- Counting its package and some in-block ancestors, an entry's size and cost with ancestors
cover the package, and so does its fee with ancestors where no fee in the block is negative. -/
theorem Counts.le {e : ModifiedEntry} (h : e.Counts m J) :
    ((packageOf m J e.iter).map (·.txSize)).sum ≤ e.nSizeWithAncestors ∧
      ((packageOf m J e.iter).map (·.sigOpCost)).sum ≤ e.nSigOpCostWithAncestors ∧
      ((∀ y ∈ J, 0 ≤ y.modifiedFee) →
        ((packageOf m J e.iter).map (·.modifiedFee)).sum ≤ e.nModFeesWithAncestors) := by
  obtain ⟨S, -, hS, he⟩ := h
  simp only [packageStats, totals, List.map_append, List.sum_append, Prod.mk.injEq] at he
  refine ⟨by omega, by omega, fun hJ => ?_⟩
  have : 0 ≤ (S.map (·.modifiedFee)).sum :=
    List.sum_nonneg fun _ hy => by
      obtain ⟨y, hyS, rfl⟩ := List.mem_map.1 hy
      exact hJ y (hS y hyS).1
  omega

end ModifiedEntry

open ModifiedEntry

theorem coverRules_counts (hm : m.Valid) : CoverRules m fun J e => e.Counts m J where
  ofEntry hx hit hJ := counts_updateForParentInclusion hm hx hit hJ (counts_ofEntry hm hx)
  update := counts_updateForParentInclusion hm
  append := counts_append_of_not_mem
  congr hJ := counts_congr hJ

theorem coverRules_hasBlockAncestor : CoverRules m fun J e => e.HasBlockAncestor m J where
  ofEntry _ hit _ := ⟨_, List.mem_append_right _ (List.mem_singleton_self _), hit⟩
  update _ _ _ := fun ⟨y, hy, h⟩ => ⟨y, List.mem_append_left _ hy, h⟩
  append _ := fun ⟨y, hy, h⟩ => ⟨y, List.mem_append_left _ hy, h⟩
  congr hJ := fun ⟨y, hy, h⟩ => ⟨y, (hJ y).1 hy, h⟩

/-- What the modified entries keep besides `LoopInv`: exact aggregates up to in-block
ancestors, and an ancestor in the block. -/
def StaleInv (m : TxMemPool) (a : BlockAssembler) (l : PackageLoop) : Prop :=
  ModifiedInv m a.inBlock [] (fun e => e.Counts m a.inBlock ∧ e.HasBlockAncestor m a.inBlock)
    l.mapModifiedTx

/-- The loop's invariant at the head of a turn. -/
structure HeadInv (m : TxMemPool) (a : BlockAssembler) (l : PackageLoop) : Prop where
  block : BlockInv m a
  loop : LoopInv m a l
  stale : StaleInv m a l

theorem LoopInv.scanned {a : BlockAssembler} {l : PackageLoop} (hL : LoopInv m a l) :
    Scanned m l :=
  ⟨hL.mi_suffix, fun e he => (hL.modified.2 e he).1⟩

/-- `UpdatePackagesForAdded` over the block `addPackageTxs` starts from. -/
theorem startLoop_modifiedInv (hm : m.Valid) {C : List TxMemPoolEntry → ModifiedEntry → Prop}
    (hR : CoverRules m C) {a : BlockAssembler} (hB : BlockInv m a)
    (nPackagesSelected nDescendantsUpdated : Nat) :
    ModifiedInv m a.inBlock [] (C a.inBlock)
      (startLoop m a nPackagesSelected nDescendantsUpdated).mapModifiedTx := by
  have hnd : a.inBlock.Nodup := hB.inBlock_eq ▸ hB.nodup
  have h := updatePackagesForAdded_rules hR hm.nodup (by simp) (by simp) hnd
    (⟨List.nodup_nil, fun _ h => nomatch h⟩ : ModifiedInv m [] a.inBlock (C []) [])
  refine ⟨h.1, fun e he => ?_⟩
  obtain ⟨h1, -, h3, h4⟩ := h.2 e he
  exact ⟨h1, h3, List.not_mem_nil _, by simpa using h4⟩

theorem headInv_start (hm : m.Valid) {a : BlockAssembler} (hB : BlockInv m a)
    (nPackagesSelected nDescendantsUpdated : Nat) :
    HeadInv m a (startLoop m a nPackagesSelected nDescendantsUpdated) :=
  ⟨hB, ⟨startLoop_modifiedInv hm (coverRules_covers hm) hB _ _, List.suffix_refl _⟩,
    startLoop_modifiedInv hm ((coverRules_counts hm).and coverRules_hasBlockAncestor) hB _ _⟩

/-- Each turn that goes on keeps the invariant. -/
theorem HeadInv.next (hm : m.Valid) {a a' : BlockAssembler} {l l' : PackageLoop}
    (hI : HeadInv m a l) (hne : ¬(l.mi = [] ∧ l.mapModifiedTx = []))
    (h : addPackageTxsStep limits m minFee isFinalTx a l = .next a' l') : HeadInv m a' l' := by
  have hok : TurnOk limits m a l (addPackageTxsStep limits m minFee isFinalTx a l) :=
    addPackageTxsStep_ok hm hI.block hI.loop hne
  rw [h] at hok
  refine ⟨hok.1, hok.2.1, ?_⟩
  rcases addPackageTxsStep_next h with ⟨rfl, hmm, -⟩ | ⟨rfl, -, e, -, hmm⟩ |
    ⟨iter, modit, mi, hc, hnot, hadd⟩
  · simpa only [StaleInv, hmm] using hI.stale
  · simpa only [StaleInv, hmm] using ModifiedInv.sublist (List.erase_sublist e _) hI.stale
  · obtain ⟨rfl, rfl⟩ : a' = _ ∧ l' = _ := ⟨congrArg Prod.fst hadd, congrArg Prod.snd hadd⟩
    exact addPackage_modifiedInv hm (hI.loop.scanned.candidate_mem hc).1 hnot
      ((coverRules_counts hm).and coverRules_hasBlockAncestor) hI.block hI.stale

theorem LoopHead.headInv (hm : m.Valid) {a₀ : BlockAssembler} (hB : BlockInv m a₀)
    {nPackagesSelected nDescendantsUpdated : Nat} {s : BlockAssembler × PackageLoop}
    (h : LoopHead limits m minFee isFinalTx a₀ nPackagesSelected nDescendantsUpdated s) :
    HeadInv m s.1 s.2 := by
  induction h with
  | start => exact headInv_start hm hB nPackagesSelected nDescendantsUpdated
  | next _ hn ih => exact ih.next hm hn.1 hn.2

/-- At the head of every turn of `addPackageTxs` called from `CreateNewBlock`'s reset block,
on a mempool with its invariants: the block holds the ancestors of what it holds; no modified
entry is in it; each has an ancestor in it; each one's aggregates are the sums over its
package and over distinct in-block ancestors, so its size and cost with ancestors are at least
its package's, and its fee with ancestors too where no modified fee in the block is negative;
and the turn does not reach the `assert` that its candidate is not in the block. -/
theorem addPackageTxs_head (hm : m.Valid) (opt nPackagesSelected nDescendantsUpdated : Nat)
    {a : BlockAssembler} {l : PackageLoop}
    (h : LoopHead limits m minFee isFinalTx (resetBlock (blockAssembler limits opt))
      nPackagesSelected nDescendantsUpdated (a, l)) :
    (∀ x ∈ a.inBlock, ∀ y ∈ m.calculateMemPoolAncestors x, y ∈ a.inBlock) ∧
      (∀ e ∈ l.mapModifiedTx, e.iter ∉ a.inBlock) ∧
      (∀ e ∈ l.mapModifiedTx, ∃ y ∈ a.inBlock, y ∈ m.calculateMemPoolAncestors e.iter) ∧
      (∀ e ∈ l.mapModifiedTx, e.Counts m a.inBlock ∧
        ((packageOf m a.inBlock e.iter).map (·.txSize)).sum ≤ e.nSizeWithAncestors ∧
        ((packageOf m a.inBlock e.iter).map (·.sigOpCost)).sum ≤ e.nSigOpCostWithAncestors ∧
        ((∀ y ∈ a.inBlock, 0 ≤ y.modifiedFee) →
          ((packageOf m a.inBlock e.iter).map (·.modifiedFee)).sum ≤ e.nModFeesWithAncestors)) ∧
      (¬(l.mi = [] ∧ l.mapModifiedTx = []) →
        addPackageTxsStep limits m minFee isFinalTx a l ≠ .abort) := by
  have hI : HeadInv m a l := h.headInv hm (resetBlock_blockInv opt)
  refine ⟨hI.block.inBlock_eq ▸ hI.block.closed, fun e he => (hI.stale.2 e he).2.1,
    fun e he => (hI.stale.2 e he).2.2.2.2, fun e he => ?_, fun hne habort => ?_⟩
  · obtain ⟨hx, -, -, hc, -⟩ := hI.stale.2 e he
    exact ⟨hc, hc.le⟩
  · have hok : TurnOk limits m a l (addPackageTxsStep limits m minFee isFinalTx a l) :=
      addPackageTxsStep_ok hm hI.block hI.loop hne
    rw [habort] at hok
    exact hok

/-- At the head of every turn of `addPackageTxs` called from `CreateNewBlock`'s reset block,
on a mempool with its invariants, the block holds the ancestors of what it holds, no modified
entry is in it, each has an ancestor in it, and each one's size and signature-operation cost
with ancestors are at least its package's. A turn with a candidate left never fails the
`assert` that its candidate is not in the block. -/
theorem addPackageTxs_head_safe (hm : m.Valid) (opt nPackagesSelected nDescendantsUpdated : Nat)
    {a : BlockAssembler} {l : PackageLoop}
    (h : LoopHead limits m minFee isFinalTx (resetBlock (blockAssembler limits opt))
      nPackagesSelected nDescendantsUpdated (a, l)) :
    (∀ x ∈ a.inBlock, ∀ y ∈ m.calculateMemPoolAncestors x, y ∈ a.inBlock) ∧
      (∀ e ∈ l.mapModifiedTx, e.iter ∉ a.inBlock) ∧
      (∀ e ∈ l.mapModifiedTx, ∃ y ∈ a.inBlock, y ∈ m.calculateMemPoolAncestors e.iter) ∧
      (∀ e ∈ l.mapModifiedTx,
        ((packageOf m a.inBlock e.iter).map (·.txSize)).sum ≤ e.nSizeWithAncestors ∧
        ((packageOf m a.inBlock e.iter).map (·.sigOpCost)).sum ≤ e.nSigOpCostWithAncestors) ∧
      (¬(l.mi = [] ∧ l.mapModifiedTx = []) →
        addPackageTxsStep limits m minFee isFinalTx a l ≠ .abort) :=
  let ⟨hclosed, hout, hanc, hcounts, hassert⟩ := addPackageTxs_head hm opt nPackagesSelected
    nDescendantsUpdated h
  ⟨hclosed, hout, hanc, fun e he => ⟨(hcounts e he).2.1, (hcounts e he).2.2.1⟩, hassert⟩

/-! ### An entry created again after a failure

Two roots and a transaction spending both. `wideRoot`'s size is inflated by its
signature-operation cost to five times its weight over `WITNESS_SCALE_FACTOR`. With the first
root in the block, the joining transaction's package is too heavy; it fails and leaves the
modified set. Then `wideRoot` joins the block, and `UpdatePackagesForAdded` makes the joining
transaction a modified entry again, from the mempool's aggregates less `wideRoot`'s: the first
root, already in the block, is counted once more.
-/

theorem TxMemPool.isAncestor_iff_of_roots (h : ∀ x, ∀ p ∈ m.parents x, m.parents p = [])
    {a x : TxMemPoolEntry} : m.IsAncestor a x ↔ a ∈ m.parents x := by
  refine ⟨fun hax => ?_, fun h => .single h⟩
  induction hax with
  | single hp => exact hp
  | tail _ hbc ih => exact absurd ih (by simp [h _ _ hbc])

/-- A root whose size is inflated by its signature-operation cost. -/
def wideRoot : TxMemPoolEntry := ⟨2, 2000, 400, 2000, 2000, 400, 1, 2000, 2000, 400⟩

/-- A root paying ten units a byte. -/
def firstRoot : TxMemPoolEntry := ⟨1, 100, 400, 1000, 1000, 4, 1, 100, 1000, 4⟩

/-- A transaction spending `firstRoot` and `wideRoot`. -/
def joinTx : TxMemPoolEntry := ⟨3, 100, 400, 200, 200, 4, 3, 2200, 3200, 408⟩

/-- `firstRoot`, `joinTx` and `wideRoot`, in the order of their ancestor fee rates. -/
def wideJoin : TxMemPool where
  mapTx := [firstRoot, joinTx, wideRoot]
  parents x := if x = joinTx then [firstRoot, wideRoot] else []
  calculateMemPoolAncestors x := if x = joinTx then [firstRoot, wideRoot] else []

theorem wideJoin_roots : ∀ x, ∀ p ∈ wideJoin.parents x, wideJoin.parents p = [] := by
  intro x p hp
  by_cases hx : x = joinTx
  · simp only [wideJoin, hx, if_true, List.mem_cons, List.mem_singleton, List.not_mem_nil,
      or_false] at hp
    rcases hp with rfl | rfl <;> rfl
  · simp [wideJoin, hx] at hp

theorem wideJoin_valid : wideJoin.Valid where
  nodup := by decide
  parents_mem := by decide
  acyclic x := by
    rw [TxMemPool.isAncestor_iff_of_roots wideJoin_roots]
    by_cases hx : x = joinTx
    · subst hx
      decide
    · simp [wideJoin, hx]
  ancestors_nodup := by decide
  mem_ancestors _ _ _ := (TxMemPool.isAncestor_iff_of_roots wideJoin_roots).symm
  count := by decide
  size := by decide
  modFees := by decide
  sigOpCost := by decide

/-- A root with a negative modified fee. -/
def discountedRoot : TxMemPoolEntry := ⟨1, 100, 400, 100, -500, 4, 1, 100, -500, 4⟩

/-- A child of `discountedRoot` that pays for both. -/
def payingChild : TxMemPoolEntry := ⟨3, 100, 400, 3000, 3000, 4, 2, 200, 2500, 8⟩

/-- A transaction spending `discountedRoot` and `wideRoot`. -/
def discountedJoin : TxMemPoolEntry := ⟨4, 100, 400, 200, 200, 4, 3, 2200, 1700, 408⟩

/-- The four, in the order of their ancestor fee rates. -/
def discountedPool : TxMemPool where
  mapTx := [payingChild, wideRoot, discountedJoin, discountedRoot]
  parents x := if x = discountedJoin then [discountedRoot, wideRoot]
    else if x = payingChild then [discountedRoot] else []
  calculateMemPoolAncestors x := if x = discountedJoin then [discountedRoot, wideRoot]
    else if x = payingChild then [discountedRoot] else []

theorem discountedPool_roots :
    ∀ x, ∀ p ∈ discountedPool.parents x, discountedPool.parents p = [] := by
  intro x p hp
  by_cases hx : x = discountedJoin
  · simp only [discountedPool, hx, if_true, List.mem_cons, List.mem_singleton,
      List.not_mem_nil, or_false] at hp
    rcases hp with rfl | rfl <;> rfl
  · by_cases hc : x = payingChild
    · subst hc
      simp only [discountedPool, if_neg hx, if_true, List.mem_singleton] at hp
      subst hp
      rfl
    · simp [discountedPool, hx, hc] at hp

theorem discountedPool_valid : discountedPool.Valid where
  nodup := by decide
  parents_mem := by decide
  acyclic x := by
    rw [TxMemPool.isAncestor_iff_of_roots discountedPool_roots]
    by_cases hx : x = discountedJoin
    · subst hx
      decide
    · by_cases hc : x = payingChild
      · subst hc
        decide
      · simp [discountedPool, hx, hc]
  ancestors_nodup := by decide
  mem_ancestors _ _ _ := (TxMemPool.isAncestor_iff_of_roots discountedPool_roots).symm
  count := by decide
  size := by decide
  modFees := by decide
  sigOpCost := by decide

/-- Three turns in, with `payingChild`'s package and then `wideRoot` in the block, the modified
entry made again for `discountedJoin` counts `discountedRoot`'s negative fee, and its fee with
ancestors is below its package's. -/
theorem stale_entry_fee_below_package :
    discountedPool.Valid ∧
      ∃ s, LoopHead ⟨4, 80000, 4000000⟩ discountedPool (fun n => n) (fun _ => true)
          (resetBlock (blockAssembler ⟨4, 80000, 4000000⟩ 13000)) 0 0 s ∧
        ∃ e ∈ s.2.mapModifiedTx, e.nModFeesWithAncestors <
          ((packageOf discountedPool s.1.inBlock e.iter).map (·.modifiedFee)).sum :=
  ⟨discountedPool_valid, _, LoopHead.start.afterTurns 3, by decide⟩

/-- At the same head the rest holds, and the next turn does not fail its `assert`. -/
theorem addPackageTxs_head_safe_discounted :
    discountedPool.Valid ∧
      ∃ s : BlockAssembler × PackageLoop, LoopHead ⟨4, 80000, 4000000⟩ discountedPool
          (fun n => n) (fun _ => true) (resetBlock (blockAssembler ⟨4, 80000, 4000000⟩ 13000)) 0 0
          s ∧
        (∀ x ∈ s.1.inBlock, ∀ y ∈ discountedPool.calculateMemPoolAncestors x, y ∈ s.1.inBlock) ∧
        (∀ e ∈ s.2.mapModifiedTx, e.iter ∉ s.1.inBlock) ∧
        (∀ e ∈ s.2.mapModifiedTx,
          ∃ y ∈ s.1.inBlock, y ∈ discountedPool.calculateMemPoolAncestors e.iter) ∧
        (∀ e ∈ s.2.mapModifiedTx,
          ((packageOf discountedPool s.1.inBlock e.iter).map (·.txSize)).sum ≤
            e.nSizeWithAncestors ∧
          ((packageOf discountedPool s.1.inBlock e.iter).map (·.sigOpCost)).sum ≤
            e.nSigOpCostWithAncestors) ∧
        (¬(s.2.mi = [] ∧ s.2.mapModifiedTx = []) →
          addPackageTxsStep ⟨4, 80000, 4000000⟩ discountedPool (fun n => n) (fun _ => true)
            s.1 s.2 ≠ .abort) :=
  ⟨discountedPool_valid, _, LoopHead.start.afterTurns 3,
    addPackageTxs_head_safe discountedPool_valid 13000 0 0 (LoopHead.start.afterTurns 3)⟩

/-- Four turns in, with `firstRoot` and then `wideRoot` in the block, the next turn adds
`joinTx` alone, judged by a size, fee and cost that still count `firstRoot`. -/
theorem stale_package_added :
    wideJoin.Valid ∧ WeightBounded ⟨4, 80000, 4000000⟩ wideJoin ∧
      ∃ s s', LoopHead ⟨4, 80000, 4000000⟩ wideJoin (fun n => n) (fun _ => true)
          (resetBlock (blockAssembler ⟨4, 80000, 4000000⟩ 12800)) 0 0 s ∧
        NextTurn ⟨4, 80000, 4000000⟩ wideJoin (fun n => n) (fun _ => true) s' s ∧
        ∃ iter modit mi, chooseCandidate s.2 = some (iter, modit, mi) ∧
          s'.1.vtx = s.1.vtx ++ [iter] ∧
          packageStats iter modit = (200, 1200, 8) ∧ totals [iter] = (100, 200, 4) :=
  ⟨wideJoin_valid, by unfold WeightBounded; decide, _, (_, _), LoopHead.start.afterTurns 4,
    ⟨by decide, rfl⟩, joinTx, some ⟨joinTx, 200, 1200, 8⟩, [], by decide, by decide, rfl, rfl⟩

end Miner

end AokChain
