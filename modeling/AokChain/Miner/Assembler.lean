import AokChain.Miner.Mempool

/-!
# `BlockAssembler::addPackageTxs`

The transaction selection of `CreateNewBlock`: the loop walks the mempool in ancestor-score
order and, beside it, the set `mapModifiedTx` of entries whose ancestor aggregates are stale
because some of their ancestors are already in the block. Each turn takes the better of the
two candidates, tests its package (the entry with its ancestors not yet in the block) against
the minimum fee, the weight and signature-operation budgets and finality, and on success adds
the package, sorted by ancestor count, and updates the descendants of what it added.

`addPackageTxs` has no bound of its own on its loop; `addPackageTxsLoop` takes one as fuel and
`addPackageTxs` gives it one that the loop never exhausts (`Miner.Template`).
-/

namespace AokChain

namespace Miner

/-- The consensus limits the assembler reads, from `consensus.h`, which is not among the
sources: `WITNESS_SCALE_FACTOR`, `MAX_BLOCK_SIGOPS_COST` and `GetMaxBlockWeight()`. -/
structure Limits where
  witnessScaleFactor : Nat
  maxBlockSigOpsCost : Nat
  maxBlockWeight : Nat

/-- The fields of `BlockAssembler` that `addPackageTxs` reads and writes. `vtx`, `vTxFees`
and `vTxSigOpsCost` are the block's transactions and their fees and costs after the
coinbase (and, for proof of stake, coinstake) slots. -/
structure BlockAssembler where
  nBlockMaxWeight : Nat
  inBlock : List TxMemPoolEntry
  vtx : List TxMemPoolEntry
  vTxFees : List Int
  vTxSigOpsCost : List Nat
  nBlockWeight : Nat
  nBlockSigOpsCost : Nat
  nBlockTx : Nat
  nFees : Int

/-- `CTxMemPoolModifiedEntry`: a mempool entry with ancestor aggregates that no longer count
the ancestors already in the block. -/
structure ModifiedEntry where
  iter : TxMemPoolEntry
  nSizeWithAncestors : Nat
  nModFeesWithAncestors : Int
  nSigOpCostWithAncestors : Nat
  deriving DecidableEq, Repr

namespace ModifiedEntry

/-- `CTxMemPoolModifiedEntry(entry)`: the entry's own aggregates. -/
def ofEntry (e : TxMemPoolEntry) : ModifiedEntry :=
  ⟨e, e.sizeWithAncestors, e.modFeesWithAncestors, e.sigOpCostWithAncestors⟩

/-- Modelled from the spec: `update_for_parent_inclusion(it)`, the aggregates reduced by the
included ancestor `it`, as `UpdatePackagesForAdded` reduces a new modified entry. -/
def updateForParentInclusion (it : TxMemPoolEntry) (e : ModifiedEntry) : ModifiedEntry :=
  { e with
    nSizeWithAncestors := e.nSizeWithAncestors - it.txSize
    nModFeesWithAncestors := e.nModFeesWithAncestors - it.modifiedFee
    nSigOpCostWithAncestors := e.nSigOpCostWithAncestors - it.sigOpCost }

@[simp] theorem ofEntry_iter (e : TxMemPoolEntry) : (ofEntry e).iter = e := rfl

@[simp] theorem updateForParentInclusion_iter (it : TxMemPoolEntry) (e : ModifiedEntry) :
    (e.updateForParentInclusion it).iter = e.iter := rfl

/-- Modelled from the spec: `CompareModifiedEntry`, the `ancestor_score` order: the higher
ancestor fee rate (compared by cross-multiplication) first, then the higher fee, the smaller
size, the smaller hash. -/
def compareModifiedEntry (a b : ModifiedEntry) : Bool :=
  let f1 := a.nModFeesWithAncestors * b.nSizeWithAncestors
  let f2 := b.nModFeesWithAncestors * a.nSizeWithAncestors
  if f1 ≠ f2 then f1 > f2
  else if a.nModFeesWithAncestors ≠ b.nModFeesWithAncestors then
    a.nModFeesWithAncestors > b.nModFeesWithAncestors
  else if a.nSizeWithAncestors ≠ b.nSizeWithAncestors then
    a.nSizeWithAncestors < b.nSizeWithAncestors
  else a.iter.id < b.iter.id

end ModifiedEntry

/-- The first entry of `mapModifiedTx.get<ancestor_score>()`. -/
def bestModified : List ModifiedEntry → Option ModifiedEntry :=
  List.foldl (fun best e =>
    match best with
    | none => some e
    | some b => if ModifiedEntry.compareModifiedEntry e b then some e else some b) none

/-- Modelled from the spec: `CompareTxIterByAncestorCount`, fewer ancestors first, then the
smaller hash. -/
def CompareTxIterByAncestorCount (a b : TxMemPoolEntry) : Prop :=
  a.countWithAncestors < b.countWithAncestors ∨
    a.countWithAncestors = b.countWithAncestors ∧ a.id ≤ b.id

instance : DecidableRel CompareTxIterByAncestorCount := fun _ _ =>
  inferInstanceAs (Decidable (_ ∨ _))

section Assembler

variable (limits : Limits)

/-- `BlockAssembler(params, options)`: the maximum weight `options.nBlockMaxWeight`, limited
to between 4000 and `GetMaxBlockWeight() - 4000`. -/
def blockAssembler (nBlockMaxWeight : Nat) : BlockAssembler where
  nBlockMaxWeight := max 4000 (min (limits.maxBlockWeight - 4000) nBlockMaxWeight)
  inBlock := []
  vtx := []
  vTxFees := []
  vTxSigOpsCost := []
  nBlockWeight := 0
  nBlockSigOpsCost := 0
  nBlockTx := 0
  nFees := 0

/-- `resetBlock()`: an empty block, with room for the coinbase. -/
def resetBlock (a : BlockAssembler) : BlockAssembler :=
  { a with
    inBlock := []
    nBlockWeight := 4000
    nBlockSigOpsCost := 400
    nBlockTx := 0
    nFees := 0 }

/-- `onlyUnconfirmed(testSet)`: the entries not yet in the block. -/
def onlyUnconfirmed (a : BlockAssembler) (testSet : List TxMemPoolEntry) : List TxMemPoolEntry :=
  testSet.filter fun e => e ∉ a.inBlock

/-- `TestPackage(packageSize, packageSigOpsCost)`. -/
def testPackage (a : BlockAssembler) (packageSize packageSigOpsCost : Nat) : Bool :=
  !(a.nBlockWeight + limits.witnessScaleFactor * packageSize ≥ a.nBlockMaxWeight) &&
    !(a.nBlockSigOpsCost + packageSigOpsCost ≥ limits.maxBlockSigOpsCost)

/-- `TestPackageTransactions(package)`; `isFinalTx` is `IsFinalTx(tx, nHeight, nLockTimeCutoff)`. -/
def testPackageTransactions (isFinalTx : TxMemPoolEntry → Bool) (package : List TxMemPoolEntry) :
    Bool :=
  package.all isFinalTx

/-- `AddToBlock(iter)`. -/
def addToBlock (a : BlockAssembler) (iter : TxMemPoolEntry) : BlockAssembler :=
  { a with
    vtx := a.vtx ++ [iter]
    vTxFees := a.vTxFees ++ [iter.fee]
    vTxSigOpsCost := a.vTxSigOpsCost ++ [iter.sigOpCost]
    nBlockWeight := a.nBlockWeight + iter.txWeight
    nBlockTx := a.nBlockTx + 1
    nBlockSigOpsCost := a.nBlockSigOpsCost + iter.sigOpCost
    nFees := a.nFees + iter.fee
    inBlock := a.inBlock ++ [iter] }

/-- The body of `UpdatePackagesForAdded`'s inner loop, for the added entry `it` and its
descendant `desc`: the modified set and the count of updated descendants. -/
def updateDescendant (alreadyAdded : List TxMemPoolEntry) (it : TxMemPoolEntry)
    (acc : List ModifiedEntry × Nat) (desc : TxMemPoolEntry) : List ModifiedEntry × Nat :=
  if desc ∈ alreadyAdded then acc
  else if desc ∈ acc.1.map (·.iter) then
    (acc.1.map fun e => if e.iter = desc then e.updateForParentInclusion it else e, acc.2 + 1)
  else (acc.1 ++ [(ModifiedEntry.ofEntry desc).updateForParentInclusion it], acc.2 + 1)

/-- `UpdatePackagesForAdded(alreadyAdded, mapModifiedTx)`: the new modified set and the
number of descendants updated. -/
def updatePackagesForAdded (m : TxMemPool) (alreadyAdded : List TxMemPoolEntry)
    (mapModifiedTx : List ModifiedEntry) : List ModifiedEntry × Nat :=
  alreadyAdded.foldl (fun acc it => (m.calculateDescendants it).foldl
    (updateDescendant alreadyAdded it) acc) (mapModifiedTx, 0)

/-- `SkipMapTxEntry(it, mapModifiedTx, failedTx)`. -/
def skipMapTxEntry (a : BlockAssembler) (it : TxMemPoolEntry) (mapModifiedTx : List ModifiedEntry)
    (failedTx : List TxMemPoolEntry) : Bool :=
  it ∈ mapModifiedTx.map (·.iter) || it ∈ a.inBlock || it ∈ failedTx

/-- `SortForBlock(package, entry, sortedEntries)`. -/
def sortForBlock (package : List TxMemPoolEntry) : List TxMemPoolEntry :=
  package.insertionSort CompareTxIterByAncestorCount

/-- The local state of `addPackageTxs`'s loop, with its two counters. `mi` is what is left of
the mempool in ancestor-score order. -/
structure PackageLoop where
  mapModifiedTx : List ModifiedEntry
  failedTx : List TxMemPoolEntry
  mi : List TxMemPoolEntry
  nConsecutiveFailed : Nat
  nPackagesSelected : Nat
  nDescendantsUpdated : Nat

/-- How one turn of the loop ends: with `continue`, with `return` or `break`, or at the
`assert` (or the undefined `modit->iter` of an empty set). -/
inductive Turn
  | next (a : BlockAssembler) (l : PackageLoop)
  | stop (a : BlockAssembler) (l : PackageLoop)
  | abort

/-- The candidate of a turn: `iter`, the modified entry when `fUsingModified`, and `mi` after
the turn's `++mi`. -/
def chooseCandidate (l : PackageLoop) :
    Option (TxMemPoolEntry × Option ModifiedEntry × List TxMemPoolEntry) :=
  match l.mi, bestModified l.mapModifiedTx with
  | [], some modit => some (modit.iter, some modit, [])
  | [], none => none
  | e :: rest, some modit =>
    if ModifiedEntry.compareModifiedEntry modit (.ofEntry e) then
      some (modit.iter, some modit, e :: rest)
    else some (e, none, rest)
  | e :: rest, none => some (e, none, rest)

/-- A failed candidate from `mapModifiedTx` leaves it for `failedTx`. -/
def dropFailed (l : PackageLoop) (iter : TxMemPoolEntry) : Option ModifiedEntry → PackageLoop
  | some modit =>
    { l with mapModifiedTx := l.mapModifiedTx.erase modit, failedTx := l.failedTx ++ [iter] }
  | none => l

/-- The `AddToBlock` loop over the sorted package, which also erases each entry from the
modified set. -/
def addSorted (a : BlockAssembler) (mapModifiedTx : List ModifiedEntry) :
    List TxMemPoolEntry → BlockAssembler × List ModifiedEntry
  | [] => (a, mapModifiedTx)
  | e :: rest => addSorted (addToBlock a e) (mapModifiedTx.filter (·.iter ≠ e)) rest

/-- The package's size, fees and cost with ancestors: the modified entry's when
`fUsingModified`, the mempool entry's otherwise. -/
def packageStats (iter : TxMemPoolEntry) : Option ModifiedEntry → Nat × Int × Nat
  | some modit => (modit.nSizeWithAncestors, modit.nModFeesWithAncestors,
      modit.nSigOpCostWithAncestors)
  | none => (iter.sizeWithAncestors, iter.modFeesWithAncestors, iter.sigOpCostWithAncestors)

variable (m : TxMemPool) (minFee : Nat → Int) (isFinalTx : TxMemPoolEntry → Bool)

/-- The end of a successful turn: add the sorted package, count it, and update the
descendants of what it added. -/
def addPackage (a : BlockAssembler) (l : PackageLoop) (ancestors : List TxMemPoolEntry) :
    BlockAssembler × PackageLoop :=
  let (a, mapModifiedTx) := addSorted a l.mapModifiedTx (sortForBlock ancestors)
  let (mapModifiedTx, n) := updatePackagesForAdded m ancestors mapModifiedTx
  (a, { l with
    mapModifiedTx := mapModifiedTx
    nConsecutiveFailed := 0
    nPackagesSelected := l.nPackagesSelected + 1
    nDescendantsUpdated := l.nDescendantsUpdated + n })

/-- The turn of the loop after the stale-entry check: evaluate the better candidate's package.
`minFee` is `blockMinFeeRate.GetFee`. -/
def evaluatePackage (a : BlockAssembler) (l : PackageLoop) : Turn :=
  match chooseCandidate l with
  | none => .abort
  | some (iter, modit, mi) =>
    if iter ∈ a.inBlock then .abort
    else
      let l := { l with mi := mi }
      let (packageSize, packageFees, packageSigOpsCost) := packageStats iter modit
      if packageFees < minFee packageSize then .stop a l
      else if !testPackage limits a packageSize packageSigOpsCost then
        let l := { dropFailed l iter modit with nConsecutiveFailed := l.nConsecutiveFailed + 1 }
        if l.nConsecutiveFailed > 1000 ∧ a.nBlockWeight > a.nBlockMaxWeight - 4000 then .stop a l
        else .next a l
      else
        let ancestors := onlyUnconfirmed a (m.calculateMemPoolAncestors iter) ++ [iter]
        if !testPackageTransactions isFinalTx ancestors then .next a (dropFailed l iter modit)
        else
          let (a, l) := addPackage m a l ancestors
          .next a l

/-- One turn of `addPackageTxs`'s loop. -/
def addPackageTxsStep (a : BlockAssembler) (l : PackageLoop) : Turn :=
  match l.mi with
  | e :: rest =>
    if skipMapTxEntry a e l.mapModifiedTx l.failedTx then .next a { l with mi := rest }
    else evaluatePackage limits m minFee isFinalTx a l
  | [] => evaluatePackage limits m minFee isFinalTx a l

/-- The loop of `addPackageTxs`, for at most `fuel` turns; `none` at an `assert` or when the
fuel runs out. -/
def addPackageTxsLoop :
    Nat → BlockAssembler → PackageLoop → Option (BlockAssembler × PackageLoop)
  | 0, _, _ => none
  | fuel + 1, a, l =>
    if l.mi = [] ∧ l.mapModifiedTx = [] then some (a, l)
    else
      match addPackageTxsStep limits m minFee isFinalTx a l with
      | .abort => none
      | .stop a l => some (a, l)
      | .next a l => addPackageTxsLoop fuel a l

/-- More turns than the loop can take: each turn leaves `mi` or `mapModifiedTx` shorter or the
block longer. -/
def loopFuel : Nat :=
  (m.mapTx.length + 1) * (2 * m.mapTx.length + 1) + 1

/-- `addPackageTxs(nPackagesSelected, nDescendantsUpdated)`: the assembler and the two
counters after it, `none` at a failed `assert`. -/
def addPackageTxs (a : BlockAssembler) (nPackagesSelected nDescendantsUpdated : Nat) :
    Option (BlockAssembler × Nat × Nat) :=
  let l : PackageLoop :=
    { mapModifiedTx := (updatePackagesForAdded m a.inBlock []).1
      failedTx := []
      mi := m.mapTx
      nConsecutiveFailed := 0
      nPackagesSelected := nPackagesSelected
      nDescendantsUpdated := nDescendantsUpdated }
  (addPackageTxsLoop limits m minFee isFinalTx (loopFuel m) a l).map fun r =>
    (r.1, r.2.nPackagesSelected, r.2.nDescendantsUpdated)

end Assembler

end Miner

end AokChain
