import AokChain.Miner.Package

/-!
# The invariant of `addPackageTxs`'s loop

Between two turns the block is a duplicate-free list of mempool entries that holds, with each
entry, all of its ancestors, and no entry before one of its ancestors; its counters are the
sums over it (`BlockInv`). The modified set has distinct keys outside the block, with
aggregates that cover their packages, and `mi` is a suffix of the mempool (`LoopInv`). Each
turn keeps both, and either ends the loop with the block unchanged or shortens `mi` or the
modified set or lengthens the block (`addPackageTxsStep_ok`), so the loop ends within
`loopFuel` turns (`addPackageTxsLoop_ok`). Where every entry's weight is at most
`WITNESS_SCALE_FACTOR` times its size, a nonempty block also stays within both budgets
(`Budget`), since `TestPackage` admits a package by aggregates that cover it.
-/

namespace AokChain

namespace Miner

/-- The block between two turns. -/
structure BlockInv (m : TxMemPool) (a : BlockAssembler) : Prop where
  inBlock_eq : a.inBlock = a.vtx
  nodup : a.vtx.Nodup
  mem : ∀ x ∈ a.vtx, x ∈ m.mapTx
  closed : ∀ x ∈ a.vtx, ∀ y ∈ m.calculateMemPoolAncestors x, y ∈ a.vtx
  ordered : a.vtx.Pairwise fun x y => y ∉ m.calculateMemPoolAncestors x
  nBlockWeight : a.nBlockWeight = 4000 + (a.vtx.map (·.txWeight)).sum
  nBlockSigOpsCost : a.nBlockSigOpsCost = 400 + (a.vtx.map (·.sigOpCost)).sum
  nFees : a.nFees = (a.vtx.map (·.fee)).sum
  nBlockTx : a.nBlockTx = a.vtx.length
  vTxFees : a.vTxFees = a.vtx.map (·.fee)
  vTxSigOpsCost : a.vTxSigOpsCost = a.vtx.map (·.sigOpCost)

/-- The loop's own state between two turns. -/
structure LoopInv (m : TxMemPool) (a : BlockAssembler) (l : PackageLoop) : Prop where
  modified : ModifiedInv m a.inBlock [] (·.Covers m a.inBlock) l.mapModifiedTx
  mi_suffix : l.mi <:+ m.mapTx

/-- A block with a transaction in it is within the weight and signature-operation budgets. -/
structure Budget (limits : Limits) (a : BlockAssembler) : Prop where
  nBlockWeight_lt : a.vtx ≠ [] → a.nBlockWeight < a.nBlockMaxWeight
  nBlockSigOpsCost_lt : a.vtx ≠ [] → a.nBlockSigOpsCost < limits.maxBlockSigOpsCost

/-- What decreases with each turn that does not end the loop. -/
def measure (m : TxMemPool) (a : BlockAssembler) (l : PackageLoop) : Nat :=
  (m.mapTx.length - a.inBlock.length) * (2 * m.mapTx.length + 1) + l.mi.length +
    l.mapModifiedTx.length

/-- Every entry's weight is at most `WITNESS_SCALE_FACTOR` times its size. -/
def WeightBounded (limits : Limits) (m : TxMemPool) : Prop :=
  ∀ e ∈ m.mapTx, e.txWeight ≤ limits.witnessScaleFactor * e.txSize

/-- What a turn may do: never fail, end the loop with the block as it was, or keep both
invariants, decrease the measure and keep the budgets. -/
def TurnOk (limits : Limits) (m : TxMemPool) (a : BlockAssembler) (l : PackageLoop) :
    Turn → Prop
  | .abort => False
  | .stop a' _ => a' = a
  | .next a' l' => BlockInv m a' ∧ LoopInv m a' l' ∧ measure m a' l' < measure m a l ∧
      (WeightBounded limits m → Budget limits a → Budget limits a')

variable {limits : Limits} {m : TxMemPool} {a : BlockAssembler} {l : PackageLoop}

/-! ### Packages of the block's candidates -/

theorem mem_packageOf {J : List TxMemPoolEntry} {x y : TxMemPoolEntry} :
    y ∈ packageOf m J x ↔ (y ∈ m.calculateMemPoolAncestors x ∧ y ∉ J) ∨ y = x := by
  simp [packageOf]

/-- A package of an entry outside the block lies outside the block. -/
theorem not_mem_of_mem_packageOf {J : List TxMemPoolEntry} {x y : TxMemPoolEntry} (hx : x ∉ J)
    (hy : y ∈ packageOf m J x) : y ∉ J := by
  rcases mem_packageOf.1 hy with ⟨-, h⟩ | rfl
  · exact h
  · exact hx

section Package

variable (hm : m.Valid)
include hm

theorem packageOf_nodup {J : List TxMemPoolEntry} {x : TxMemPoolEntry} (hx : x ∈ m.mapTx) :
    (packageOf m J x).Nodup := by
  refine ((hm.ancestors_nodup x hx).filter _).append (List.nodup_singleton x) ?_
  exact List.disjoint_singleton.2 fun h =>
    TxMemPool.not_mem_ancestors_self hm hx (List.mem_filter.1 h).1

theorem packageOf_subset {J : List TxMemPoolEntry} {x : TxMemPoolEntry} (hx : x ∈ m.mapTx) :
    ∀ y ∈ packageOf m J x, y ∈ m.mapTx := fun y hy => by
  rcases mem_packageOf.1 hy with ⟨hy, -⟩ | rfl
  · exact TxMemPool.ancestor_mem hm hx hy
  · exact hx

/-- An ancestor of a package's entry is in the block or in the package. -/
theorem ancestor_mem_packageOf {J : List TxMemPoolEntry} {x y z : TxMemPoolEntry}
    (hx : x ∈ m.mapTx) (hy : y ∈ packageOf m J x) (hz : z ∈ m.calculateMemPoolAncestors y) :
    z ∈ J ∨ z ∈ packageOf m J x := by
  have hzx : z ∈ m.calculateMemPoolAncestors x := by
    rcases mem_packageOf.1 hy with ⟨hy, -⟩ | rfl
    · exact TxMemPool.ancestors_subset hm hx hy hz
    · exact hz
  by_cases hzJ : z ∈ J
  · exact .inl hzJ
  · exact .inr (mem_packageOf.2 (.inl ⟨hzx, hzJ⟩))

end Package

theorem sum_map_le_mul {P : List TxMemPoolEntry} {f g : TxMemPoolEntry → Nat} {k : Nat}
    (h : ∀ e ∈ P, f e ≤ k * g e) : (P.map f).sum ≤ k * (P.map g).sum := by
  induction P with
  | nil => simp
  | cons e P ih =>
    simp only [List.map_cons, List.sum_cons, Nat.mul_add]
    have := h e (List.mem_cons_self e P)
    have := ih fun x hx => h x (List.mem_cons_of_mem e hx)
    omega

/-! ### The end of a successful turn -/

section AddPackage

variable (hm : m.Valid) {iter : TxMemPoolEntry} (hx : iter ∈ m.mapTx) (hnot : iter ∉ a.inBlock)
include hm hx hnot

theorem addPackage_blockInv (hB : BlockInv m a) :
    BlockInv m (addPackage m a l (packageOf m a.inBlock iter)).1 := by
  have hS := sortForBlock_perm (packageOf m a.inBlock iter)
  have hnd : (sortForBlock (packageOf m a.inBlock iter)).Nodup :=
    hS.nodup_iff.2 (packageOf_nodup hm hx)
  have hmemS {y} : y ∈ sortForBlock (packageOf m a.inBlock iter) ↔
      y ∈ packageOf m a.inBlock iter := hS.mem_iff
  have hdisj {y} (hy : y ∈ sortForBlock (packageOf m a.inBlock iter)) : y ∉ a.vtx :=
    hB.inBlock_eq ▸ not_mem_of_mem_packageOf hnot (hmemS.1 hy)
  simp only [addPackage, addSorted_eq]
  refine ⟨by rw [hB.inBlock_eq], ?_, ?_, ?_, ?_, ?_, ?_, ?_, ?_, ?_, ?_⟩
  · exact hB.nodup.append hnd fun y hy hy' => hdisj hy' hy
  · intro y hy
    rcases List.mem_append.1 hy with hy | hy
    · exact hB.mem y hy
    · exact packageOf_subset hm hx y (hmemS.1 hy)
  · intro y hy z hz
    rcases List.mem_append.1 hy with hy | hy
    · exact List.mem_append_left _ (hB.closed y hy z hz)
    · rcases ancestor_mem_packageOf hm hx (hmemS.1 hy) hz with h | h
      · exact List.mem_append_left _ (hB.inBlock_eq ▸ h)
      · exact List.mem_append_right _ (hmemS.2 h)
  · refine List.pairwise_append.2 ⟨hB.ordered, sortForBlock_pairwise hm
      fun y hy => packageOf_subset hm hx y hy, fun y hy z hz hzy => hdisj hz ?_⟩
    exact hB.closed y hy z hzy
  · simp [hB.nBlockWeight, add_assoc]
  · simp [hB.nBlockSigOpsCost, add_assoc]
  · simp [hB.nFees]
  · simp [hB.nBlockTx]
  · simp [hB.vTxFees]
  · simp [hB.vTxSigOpsCost]

/-- Adding the candidate's package keeps any property of the modified entries that
`UpdatePackagesForAdded` keeps (`CoverRules`), in the larger block. -/
theorem addPackage_modifiedInv {C : List TxMemPoolEntry → ModifiedEntry → Prop}
    (hR : CoverRules m C) (hB : BlockInv m a)
    (h : ModifiedInv m a.inBlock [] (C a.inBlock) l.mapModifiedTx) :
    ModifiedInv m (addPackage m a l (packageOf m a.inBlock iter)).1.inBlock []
      (C (addPackage m a l (packageOf m a.inBlock iter)).1.inBlock)
      (addPackage m a l (packageOf m a.inBlock iter)).2.mapModifiedTx := by
  have hS := sortForBlock_perm (packageOf m a.inBlock iter)
  have hPI : ∀ y ∈ packageOf m a.inBlock iter, y ∉ a.inBlock := fun _ =>
    not_mem_of_mem_packageOf hnot
  have hI : ∀ y ∈ a.inBlock, ∀ z ∈ m.calculateMemPoolAncestors y, z ∈ a.inBlock := by
    rw [hB.inBlock_eq]
    exact hB.closed
  have hfilter : ModifiedInv m a.inBlock (packageOf m a.inBlock iter) (C a.inBlock)
      (l.mapModifiedTx.filter fun e => e.iter ∉ sortForBlock (packageOf m a.inBlock iter)) := by
    obtain ⟨hkeys, he⟩ := h
    refine ⟨(hkeys.sublist ((List.filter_sublist _).map _)), fun e hmem => ?_⟩
    obtain ⟨hmem, hP⟩ := List.mem_filter.1 hmem
    obtain ⟨h1, h2, -, h4⟩ := he e hmem
    exact ⟨h1, h2, fun h => by simp [hS.mem_iff, h] at hP, h4⟩
  have hupd := updatePackagesForAdded_rules hR hm.nodup hI hPI (packageOf_nodup hm hx) hfilter
  simp only [addPackage, addSorted_eq]
  refine ⟨hupd.1, fun e hmem => ?_⟩
  obtain ⟨h1, h2, h3, h4⟩ := hupd.2 e hmem
  refine ⟨h1, fun h => ?_, List.not_mem_nil _, hR.congr (fun y => by simp [hS.mem_iff]) h4⟩
  rcases List.mem_append.1 h with h | h
  · exact h2 h
  · exact h3 (hS.mem_iff.1 h)

theorem addPackage_loopInv (hB : BlockInv m a) (hL : LoopInv m a l) :
    LoopInv m (addPackage m a l (packageOf m a.inBlock iter)).1
      (addPackage m a l (packageOf m a.inBlock iter)).2 :=
  ⟨addPackage_modifiedInv hm hx hnot (coverRules_covers hm) hB hL.modified, hL.mi_suffix⟩

omit hnot in
theorem addPackage_budget (hw : WeightBounded limits m)
    {packageSize packageSigOpsCost : Nat}
    (hsize : ((packageOf m a.inBlock iter).map (·.txSize)).sum ≤ packageSize)
    (hcost : ((packageOf m a.inBlock iter).map (·.sigOpCost)).sum ≤ packageSigOpsCost)
    (htest : testPackage limits a packageSize packageSigOpsCost = true) :
    Budget limits (addPackage m a l (packageOf m a.inBlock iter)).1 := by
  have hS := sortForBlock_perm (packageOf m a.inBlock iter)
  have hweight : ((packageOf m a.inBlock iter).map (·.txWeight)).sum ≤
      limits.witnessScaleFactor * ((packageOf m a.inBlock iter).map (·.txSize)).sum :=
    sum_map_le_mul fun e he => hw e (packageOf_subset hm hx e he)
  have hsum (f : TxMemPoolEntry → Nat) :
      ((sortForBlock (packageOf m a.inBlock iter)).map f).sum =
        ((packageOf m a.inBlock iter).map f).sum := (hS.map f).sum_eq
  have hmul := Nat.mul_le_mul_left limits.witnessScaleFactor hsize
  simp only [testPackage, Bool.and_eq_true, Bool.not_eq_true', decide_eq_false_iff_not,
    not_le] at htest
  simp only [addPackage, addSorted_eq, hsum]
  refine ⟨fun _ => ?_, fun _ => ?_⟩ <;> dsimp only <;> omega

end AddPackage

/-! ### Bounds behind the measure -/

theorem BlockInv.length_le (hB : BlockInv m a) : a.inBlock.length ≤ m.mapTx.length := by
  rw [hB.inBlock_eq]
  exact (List.subperm_of_subset hB.nodup hB.mem).length_le

theorem LoopInv.mi_length_le (hL : LoopInv m a l) : l.mi.length ≤ m.mapTx.length :=
  hL.mi_suffix.length_le

theorem LoopInv.modified_length_le (hL : LoopInv m a l) :
    l.mapModifiedTx.length ≤ m.mapTx.length := by
  have := (List.subperm_of_subset hL.modified.1 fun x hx => by
    obtain ⟨e, he, rfl⟩ := List.mem_map.1 hx
    exact (hL.modified.2 e he).1).length_le
  simpa using this

/-- A turn that adds to the block decreases the measure, whatever it does to `mi` and the
modified set. -/
theorem measure_lt_of_inBlock {a' : BlockAssembler} {l' : PackageLoop} (hB' : BlockInv m a')
    (hL' : LoopInv m a' l') (hlen : a.inBlock.length < a'.inBlock.length) :
    measure m a' l' < measure m a l := by
  have h1 := hB'.length_le
  have h2 := hL'.mi_length_le
  have h3 := hL'.modified_length_le
  have hstep : (m.mapTx.length - a'.inBlock.length + 1) * (2 * m.mapTx.length + 1) ≤
      (m.mapTx.length - a.inBlock.length) * (2 * m.mapTx.length + 1) :=
    Nat.mul_le_mul_right _ (by omega)
  rw [Nat.succ_mul] at hstep
  unfold measure
  omega

/-! ### The turns -/

theorem foldl_best_isSome (mm : List ModifiedEntry) (b : ModifiedEntry) :
    (mm.foldl (fun best e =>
      match best with
      | none => some e
      | some b => if ModifiedEntry.compareModifiedEntry e b then some e else some b)
      (some b)).isSome := by
  induction mm generalizing b with
  | nil => rfl
  | cons e mm ih =>
    simp only [List.foldl_cons]
    split
    · exact ih e
    · exact ih b

theorem foldl_best_mem (mm : List ModifiedEntry) {best e : ModifiedEntry}
    (h : mm.foldl (fun best e =>
      match best with
      | none => some e
      | some b => if ModifiedEntry.compareModifiedEntry e b then some e else some b)
      (some best) = some e) : e ∈ best :: mm := by
  induction mm generalizing best with
  | nil => simp_all
  | cons x mm ih =>
    simp only [List.foldl_cons] at h
    split at h
    · exact List.mem_cons_of_mem _ (ih h)
    · rcases List.mem_cons.1 (ih h) with h | h
      · exact h ▸ List.mem_cons_self _ _
      · exact List.mem_cons_of_mem _ (List.mem_cons_of_mem _ h)

theorem bestModified_mem {mm : List ModifiedEntry} {e : ModifiedEntry}
    (h : bestModified mm = some e) : e ∈ mm := by
  cases mm with
  | nil => simp [bestModified] at h
  | cons x mm => exact foldl_best_mem mm h

theorem bestModified_ne_none {mm : List ModifiedEntry} (h : mm ≠ []) :
    bestModified mm ≠ none := by
  cases mm with
  | nil => exact absurd rfl h
  | cons x mm => exact Option.isSome_iff_ne_none.1 (foldl_best_isSome mm x)

/-- The candidate of a turn is the best modified entry, with `mi` unmoved, or the entry at
`mi`, with `mi` moved past it. -/
theorem chooseCandidate_spec {iter : TxMemPoolEntry} {modit : Option ModifiedEntry}
    {mi : List TxMemPoolEntry} (h : chooseCandidate l = some (iter, modit, mi)) :
    (∃ e, modit = some e ∧ e ∈ l.mapModifiedTx ∧ iter = e.iter ∧ mi = l.mi) ∨
      (modit = none ∧ l.mi = iter :: mi) := by
  unfold chooseCandidate at h
  split at h
  next hmi hb =>
    simp only [Option.some.injEq, Prod.mk.injEq] at h
    obtain ⟨rfl, rfl, rfl⟩ := h
    exact .inl ⟨_, rfl, bestModified_mem hb, rfl, hmi.symm⟩
  next => simp at h
  next e rest modit' hmi hb =>
    split at h
    · simp only [Option.some.injEq, Prod.mk.injEq] at h
      obtain ⟨rfl, rfl, rfl⟩ := h
      exact .inl ⟨_, rfl, bestModified_mem hb, rfl, hmi.symm⟩
    · simp only [Option.some.injEq, Prod.mk.injEq] at h
      obtain ⟨rfl, rfl, rfl⟩ := h
      exact .inr ⟨rfl, hmi⟩
  next e rest hmi _ =>
    simp only [Option.some.injEq, Prod.mk.injEq] at h
    obtain ⟨rfl, rfl, rfl⟩ := h
    exact .inr ⟨rfl, hmi⟩

theorem chooseCandidate_ne_none (h : ¬(l.mi = [] ∧ l.mapModifiedTx = [])) :
    chooseCandidate l ≠ none := by
  unfold chooseCandidate
  split
  · simp
  · next hmi hb => exact absurd ⟨hmi, by_contra fun hne => bestModified_ne_none hne hb⟩ h
  · split <;> simp
  · simp


theorem ModifiedInv.sublist {I P : List TxMemPoolEntry} {c : ModifiedEntry → Prop}
    {mm mm' : List ModifiedEntry} (hs : List.Sublist mm' mm) (h : ModifiedInv m I P c mm) :
    ModifiedInv m I P c mm' :=
  ⟨h.1.sublist (hs.map _), fun e he => h.2 e (hs.subset he)⟩

theorem LoopInv.congr {l' : PackageLoop} (h : LoopInv m a l)
    (hmm : l'.mapModifiedTx = l.mapModifiedTx) (hmi : l'.mi = l.mi) : LoopInv m a l' :=
  ⟨hmm ▸ h.modified, hmi ▸ h.mi_suffix⟩

section Turn

variable {iter : TxMemPoolEntry} {modit : Option ModifiedEntry} {mi : List TxMemPoolEntry}
  (hc : chooseCandidate l = some (iter, modit, mi))
include hc

theorem loopInv_candidate (hL : LoopInv m a l) : LoopInv m a { l with mi := mi } := by
  refine ⟨hL.modified, ?_⟩
  rcases chooseCandidate_spec hc with ⟨-, -, -, -, rfl⟩ | ⟨-, hmi⟩
  · exact hL.mi_suffix
  · exact (List.suffix_cons iter mi).trans (hmi ▸ hL.mi_suffix)

/-- The candidate's aggregates cover its package. -/
theorem packageStats_cover (hm : m.Valid) (hL : LoopInv m a l) (hx : iter ∈ m.mapTx) :
    ((packageOf m a.inBlock iter).map (·.txSize)).sum ≤ (packageStats iter modit).1 ∧
      ((packageOf m a.inBlock iter).map (·.sigOpCost)).sum ≤ (packageStats iter modit).2.2 := by
  rcases chooseCandidate_spec hc with ⟨e, rfl, he, rfl, -⟩ | ⟨rfl, -⟩
  · exact (hL.modified.2 e he).2.2.2
  · exact ⟨by simpa [packageStats, hm.size iter hx] using sum_packageOf_le (·.txSize) _ iter,
      by simpa [packageStats, hm.sigOpCost iter hx] using sum_packageOf_le (·.sigOpCost) _ iter⟩

/-- A failed candidate leaves the loop's invariant and shortens `mi` or the modified set. -/
theorem dropFailed_ok (hL : LoopInv m a l) :
    LoopInv m a (dropFailed { l with mi := mi } iter modit) ∧
      measure m a (dropFailed { l with mi := mi } iter modit) < measure m a l := by
  rcases chooseCandidate_spec hc with ⟨e, rfl, he, rfl, rfl⟩ | ⟨rfl, hmi⟩
  · refine ⟨⟨hL.modified.sublist (List.erase_sublist e _), hL.mi_suffix⟩, ?_⟩
    have := List.length_erase_of_mem he
    have := List.length_pos_of_mem he
    simp only [measure, dropFailed]
    omega
  · refine ⟨loopInv_candidate hc hL, ?_⟩
    simp [measure, dropFailed, hmi]

end Turn

section Turns

variable {minFee : Nat → Int} {isFinalTx : TxMemPoolEntry → Bool} (hm : m.Valid)
  (hB : BlockInv m a) (hL : LoopInv m a l) (hne : ¬(l.mi = [] ∧ l.mapModifiedTx = []))
include hm hB hL hne

/-- A turn past the stale-entry check: whatever it tests and whichever test fails, it keeps
the invariants, and a package it adds stays within the budgets. -/
theorem evaluatePackage_ok
    (hskip : ∀ e rest, l.mi = e :: rest →
      skipMapTxEntry a e l.mapModifiedTx l.failedTx = false) :
    TurnOk limits m a l (evaluatePackage limits m minFee isFinalTx a l) := by
  obtain ⟨⟨iter, modit, mi⟩, hc⟩ :=
    Option.ne_none_iff_exists'.1 (chooseCandidate_ne_none hne)
  have ⟨hx, hnot⟩ : iter ∈ m.mapTx ∧ iter ∉ a.inBlock := by
    rcases chooseCandidate_spec hc with ⟨e, -, he, rfl, -⟩ | ⟨-, hmi⟩
    · exact ⟨(hL.modified.2 e he).1, (hL.modified.2 e he).2.1⟩
    · have := hskip iter mi hmi
      simp only [skipMapTxEntry, Bool.or_eq_false_iff, decide_eq_false_iff_not] at this
      exact ⟨hL.mi_suffix.subset (hmi ▸ List.mem_cons_self iter mi), this.1.2⟩
  have hcov := packageStats_cover hc hm hL hx
  have hdrop := dropFailed_ok hc hL
  have hL' := loopInv_candidate hc hL
  unfold evaluatePackage
  rw [hc]
  rcases hs : packageStats iter modit with ⟨packageSize, packageFees, packageSigOpsCost⟩
  rw [hs] at hcov
  simp only [hnot, if_false, hs]
  split_ifs with hfee htest hbreak hfinal
  · rfl
  · rfl
  · exact ⟨hB, hdrop.1.congr rfl rfl, hdrop.2, fun _ h => h⟩
  · exact ⟨hB, hdrop.1, hdrop.2, fun _ h => h⟩
  · have htest' : testPackage limits a packageSize packageSigOpsCost = true := by simpa using htest
    rw [onlyUnconfirmed_append]
    have hB'' := addPackage_blockInv hm hx hnot (l := { l with mi := mi }) hB
    have hL'' := addPackage_loopInv hm hx hnot hB hL'
    refine ⟨hB'', hL'', measure_lt_of_inBlock hB'' hL'' ?_, fun hw _ =>
      addPackage_budget hm hx hw hcov.1 hcov.2 htest'⟩
    simp [addPackage, addSorted_eq, (sortForBlock_perm _).length_eq, packageOf]

/-- One turn of the loop keeps the invariants. -/
theorem addPackageTxsStep_ok :
    TurnOk limits m a l (addPackageTxsStep limits m minFee isFinalTx a l) := by
  unfold addPackageTxsStep
  split
  next e rest hmi =>
    split_ifs with hskip
    · refine ⟨hB, ⟨hL.modified, (List.suffix_cons e rest).trans (hmi ▸ hL.mi_suffix)⟩, ?_,
        fun _ h => h⟩
      simp [measure, hmi]
    · exact evaluatePackage_ok hm hB hL hne fun e' rest' h => by
        rw [hmi, List.cons.injEq] at h
        obtain ⟨rfl, rfl⟩ := h
        simpa using hskip
  next hmi => exact evaluatePackage_ok hm hB hL hne fun e rest h => by simp [hmi] at h

end Turns

/-- The loop, from a state with the invariants and with more fuel than the measure: it
returns, with the block's invariant, and within the budgets if it started within them. -/
theorem addPackageTxsLoop_ok {minFee : Nat → Int} {isFinalTx : TxMemPoolEntry → Bool}
    (hm : m.Valid) :
    ∀ (fuel : Nat) (a : BlockAssembler) (l : PackageLoop), measure m a l < fuel →
      BlockInv m a → LoopInv m a l →
      ∃ a' l', addPackageTxsLoop limits m minFee isFinalTx fuel a l = some (a', l') ∧
        BlockInv m a' ∧ (WeightBounded limits m → Budget limits a → Budget limits a')
  | 0, _, _, h, _, _ => absurd h (Nat.not_lt_zero _)
  | fuel + 1, a, l, h, hB, hL => by
    unfold addPackageTxsLoop
    split_ifs with hdone
    · exact ⟨a, l, rfl, hB, fun _ h => h⟩
    · have hturn : TurnOk limits m a l (addPackageTxsStep limits m minFee isFinalTx a l) :=
        addPackageTxsStep_ok hm hB hL hdone
      generalize addPackageTxsStep limits m minFee isFinalTx a l = turn at hturn ⊢
      cases turn with
      | abort => exact hturn.elim
      | stop a' l' =>
        obtain rfl : a' = a := hturn
        exact ⟨a', l', rfl, hB, fun _ h => h⟩
      | next a' l' =>
        obtain ⟨hB', hL', hlt, hbud⟩ := hturn
        obtain ⟨a'', l'', h1, h2, h3⟩ := addPackageTxsLoop_ok hm fuel a' l' (by omega) hB' hL'
        exact ⟨a'', l'', h1, h2, fun hw hb => h3 hw (hbud hw hb)⟩

end Miner

end AokChain
