import AokChain.Miner.Loop

/-!
# The block template's transactions

`CreateNewBlock` builds an assembler, resets it and runs `addPackageTxs` once. From that start
the loop's invariants hold and its measure is below `loopFuel`, so the run returns
(`addPackageTxs_ok`). The transactions it appends are mempool entries, each once, each after
all of its in-mempool ancestors, and the block's weight, signature-operation cost and fees
are the sums over them. `TestPackage` keeps a block with a transaction in it strictly within
both budgets; an empty block still weighs 4000, which is the whole budget when the
constructor clamps `-blockmaxweight` to 4000.

The coinbase and coinstake slots `CreateNewBlock` puts in front are not part of `vtx` here.
-/

namespace AokChain

namespace Miner

variable {limits : Limits} {m : TxMemPool} {minFee : Nat → Int}
  {isFinalTx : TxMemPoolEntry → Bool}

/-! ### The start of the loop -/

theorem resetBlock_blockInv (opt : Nat) :
    BlockInv m (resetBlock (blockAssembler limits opt)) where
  inBlock_eq := rfl
  nodup := List.nodup_nil
  mem _ h := absurd h (List.not_mem_nil _)
  closed _ h := absurd h (List.not_mem_nil _)
  ordered := List.Pairwise.nil
  nBlockWeight := rfl
  nBlockSigOpsCost := rfl
  nFees := rfl
  nBlockTx := rfl
  vTxFees := rfl
  vTxSigOpsCost := rfl

theorem resetBlock_budget (opt : Nat) : Budget limits (resetBlock (blockAssembler limits opt)) :=
  ⟨fun h => absurd rfl h, fun h => absurd rfl h⟩

/-- From a reset assembler, `addPackageTxs` returns, with the block's invariant, and within
the budgets where every entry's weight is bounded by its size. -/
theorem addPackageTxs_ok (hm : m.Valid) (opt nPackagesSelected nDescendantsUpdated : Nat) :
    ∃ r, addPackageTxs limits m minFee isFinalTx (resetBlock (blockAssembler limits opt))
        nPackagesSelected nDescendantsUpdated = some r ∧
      BlockInv m r.1 ∧ (WeightBounded limits m → Budget limits r.1) := by
  have hfuel : m.mapTx.length * (2 * m.mapTx.length + 1) + m.mapTx.length < loopFuel m := by
    rw [loopFuel, Nat.add_one_mul m.mapTx.length]
    omega
  obtain ⟨a', l', h, hB, hbud⟩ :=
    @addPackageTxsLoop_ok limits m minFee isFinalTx hm (loopFuel m)
      (resetBlock (blockAssembler limits opt))
      ⟨[], [], m.mapTx, 0, nPackagesSelected, nDescendantsUpdated⟩
      (by simpa [measure, resetBlock] using hfuel) (resetBlock_blockInv opt)
      ⟨⟨List.nodup_nil, fun _ h => nomatch h⟩, List.suffix_refl _⟩
  refine ⟨_, congrArg (Option.map _) h, ?_⟩
  exact ⟨hB, fun hw => hbud hw (resetBlock_budget opt)⟩

/-- In a block with the invariant, every in-mempool ancestor of a transaction stands before
it. -/
theorem BlockInv.isAncestor_mem_prefix (hm : m.Valid) {a : BlockAssembler} (hB : BlockInv m a)
    {pre post : List TxMemPoolEntry} {y : TxMemPoolEntry} (h : a.vtx = pre ++ y :: post)
    {x : TxMemPoolEntry} (hx : m.IsAncestor x y) : x ∈ pre := by
  have hy : y ∈ m.mapTx := hB.mem y (by simp [h])
  have hxy : x ∈ m.calculateMemPoolAncestors y := (hm.mem_ancestors y hy x).2 hx
  have hord := hB.ordered
  rw [h, List.pairwise_append, List.pairwise_cons] at hord
  have hmem := hB.closed y (by simp [h]) x hxy
  rw [h, List.mem_append, List.mem_cons] at hmem
  rcases hmem with hpre | rfl | hpost
  · exact hpre
  · exact absurd hx (hm.acyclic x)
  · exact absurd hxy (hord.2.1.1 x hpost)

/-! ### A parent and its child

The child pays the higher ancestor fee rate, so it comes first in the `ancestor_score` order.
-/

/-- A transaction with no in-mempool parent. -/
def parentTx : TxMemPoolEntry := ⟨1, 100, 400, 1000, 1000, 4, 1, 100, 1000, 4⟩

/-- A transaction spending `parentTx`. -/
def childTx : TxMemPoolEntry := ⟨2, 200, 800, 3000, 3000, 8, 2, 300, 4000, 12⟩

/-- The mempool holding `parentTx` and `childTx`, the child first. -/
def parentChild : TxMemPool where
  mapTx := [childTx, parentTx]
  parents x := if x = childTx then [parentTx] else []
  calculateMemPoolAncestors x := if x = childTx then [parentTx] else []

theorem parentChild_isAncestor {a x : TxMemPoolEntry} :
    parentChild.IsAncestor a x ↔ a = parentTx ∧ x = childTx := by
  constructor
  · intro h
    induction h with
    | @single b h => by_cases hb : b = childTx <;> simp_all [parentChild]
    | @tail b c _ h ih => by_cases hc : c = childTx <;> simp_all [parentChild]
  · rintro ⟨rfl, rfl⟩
    exact .single (by simp [parentChild])

theorem parentChild_valid : parentChild.Valid where
  nodup := by decide
  parents_mem := by decide
  acyclic x h := by
    obtain ⟨rfl, h⟩ := parentChild_isAncestor.1 h
    exact absurd h (by decide)
  ancestors_nodup := by decide
  mem_ancestors x _ a := by
    rw [parentChild_isAncestor]
    by_cases hx : x = childTx <;> simp [parentChild, hx]
  count := by decide
  size := by decide
  modFees := by decide
  sigOpCost := by decide

theorem parentChild_weightBounded : WeightBounded ⟨4, 80000, 4000000⟩ parentChild := by
  unfold WeightBounded
  decide

/-! ### The template -/

/-- The transactions `addPackageTxs` appends to the template are mempool entries, each at most
once, and every in-mempool ancestor of one stands before it. -/
theorem addPackageTxs_topological (hm : m.Valid)
    (opt nPackagesSelected nDescendantsUpdated : Nat) :
    ∃ r, addPackageTxs limits m minFee isFinalTx (resetBlock (blockAssembler limits opt))
        nPackagesSelected nDescendantsUpdated = some r ∧
      r.1.vtx.Nodup ∧ (∀ x ∈ r.1.vtx, x ∈ m.mapTx) ∧
      ∀ pre y post, r.1.vtx = pre ++ y :: post → ∀ x, m.IsAncestor x y → x ∈ pre := by
  obtain ⟨r, hr, hB, -⟩ :=
    @addPackageTxs_ok limits m minFee isFinalTx hm opt nPackagesSelected nDescendantsUpdated
  exact ⟨r, hr, hB.nodup, hB.mem, fun _ _ _ h _ hx => hB.isAncestor_mem_prefix hm h hx⟩

theorem addPackageTxs_topological_parentChild :
    parentChild.Valid ∧
      ∃ r, addPackageTxs ⟨4, 80000, 4000000⟩ parentChild (fun _ => 0) (fun _ => true)
          (resetBlock (blockAssembler ⟨4, 80000, 4000000⟩ 4000000)) 0 0 = some r ∧
        r.1.vtx.Nodup ∧ (∀ x ∈ r.1.vtx, x ∈ parentChild.mapTx) ∧
        ∀ pre y post, r.1.vtx = pre ++ y :: post →
          ∀ x, parentChild.IsAncestor x y → x ∈ pre :=
  ⟨parentChild_valid, addPackageTxs_topological parentChild_valid 4000000 0 0⟩

/-- The child, first in the mempool's order, is added as a package behind its parent. -/
example : (addPackageTxs ⟨4, 80000, 4000000⟩ parentChild (fun _ => 0) (fun _ => true)
    (resetBlock (blockAssembler ⟨4, 80000, 4000000⟩ 4000000)) 0 0).map (·.1.vtx) =
      some [parentTx, childTx] := by
  decide

/-- The block's weight, signature-operation cost and fees after `addPackageTxs` are the sums
over its transactions, and once it holds a transaction it is strictly within the weight and
signature-operation budgets. -/
theorem addPackageTxs_budget (hm : m.Valid) (hw : WeightBounded limits m)
    (opt nPackagesSelected nDescendantsUpdated : Nat) :
    ∃ r, addPackageTxs limits m minFee isFinalTx (resetBlock (blockAssembler limits opt))
        nPackagesSelected nDescendantsUpdated = some r ∧
      r.1.nBlockWeight = 4000 + (r.1.vtx.map (·.txWeight)).sum ∧
      r.1.nBlockSigOpsCost = 400 + (r.1.vtx.map (·.sigOpCost)).sum ∧
      r.1.nFees = (r.1.vtx.map (·.fee)).sum ∧
      (r.1.vtx ≠ [] → r.1.nBlockWeight < r.1.nBlockMaxWeight ∧
        r.1.nBlockSigOpsCost < limits.maxBlockSigOpsCost) := by
  obtain ⟨r, hr, hB, hbud⟩ :=
    @addPackageTxs_ok limits m minFee isFinalTx hm opt nPackagesSelected nDescendantsUpdated
  exact ⟨r, hr, hB.nBlockWeight, hB.nBlockSigOpsCost, hB.nFees,
    fun h => ⟨(hbud hw).nBlockWeight_lt h, (hbud hw).nBlockSigOpsCost_lt h⟩⟩

theorem addPackageTxs_budget_parentChild :
    parentChild.Valid ∧ WeightBounded ⟨4, 80000, 4000000⟩ parentChild ∧
      ∃ r, addPackageTxs ⟨4, 80000, 4000000⟩ parentChild (fun _ => 0) (fun _ => true)
          (resetBlock (blockAssembler ⟨4, 80000, 4000000⟩ 4000000)) 0 0 = some r ∧
        r.1.nBlockWeight = 4000 + (r.1.vtx.map (·.txWeight)).sum ∧
        r.1.nBlockSigOpsCost = 400 + (r.1.vtx.map (·.sigOpCost)).sum ∧
        r.1.nFees = (r.1.vtx.map (·.fee)).sum ∧
        (r.1.vtx ≠ [] → r.1.nBlockWeight < r.1.nBlockMaxWeight ∧
          r.1.nBlockSigOpsCost < 80000) :=
  ⟨parentChild_valid, parentChild_weightBounded,
    addPackageTxs_budget parentChild_valid parentChild_weightBounded 4000000 0 0⟩

/-- With `-blockmaxweight` at 4000, the least the constructor admits, an empty mempool gives
a template whose weight is the whole budget. -/
theorem addPackageTxs_empty_at_minimum :
    TxMemPool.empty.Valid ∧ WeightBounded ⟨4, 80000, 4000000⟩ TxMemPool.empty ∧
      ∃ r, addPackageTxs ⟨4, 80000, 4000000⟩ TxMemPool.empty (fun _ => 0) (fun _ => true)
          (resetBlock (blockAssembler ⟨4, 80000, 4000000⟩ 4000)) 0 0 = some r ∧
        r.1.nBlockMaxWeight = 4000 ∧ r.1.nBlockWeight = 4000 :=
  ⟨TxMemPool.empty_valid, by simp [WeightBounded, TxMemPool.empty], _, rfl, rfl, rfl⟩

end Miner

end AokChain
