import AokChain.Miner.Loop

/-!
# The loop of `addPackageTxs` ends, for every mempool

A turn that does not end the loop does one of three things (`addPackageTxsStep_next`): it
moves `mi` past an entry, it erases an entry of `mapModifiedTx`, or it adds to the block the
package of a mempool entry that was not in it. The first two leave the block as it was. So the
pair of the number of mempool entries outside the block and the number of entries left in
`mapModifiedTx` and after `mi` falls in the lexicographic order with every turn
(`progress_lt`), as long as `mi` is a suffix of the mempool and every modified entry is a
mempool entry (`Scanned`). Every turn keeps that (`Scanned.next`), and the loop's start has it.
So no run of the loop is infinite (`acc_nextTurn`).

None of this needs the mempool's invariants: `UpdatePackagesForAdded` only creates modified
entries for mempool entries, whatever `CalculateMemPoolAncestors` returns.
-/

namespace AokChain

namespace Miner

variable {limits : Limits} {m : TxMemPool} {minFee : Nat → Int}
  {isFinalTx : TxMemPoolEntry → Bool}

/-- The loop's state before its first turn, as `addPackageTxs` builds it. -/
def startLoop (m : TxMemPool) (a : BlockAssembler) (nPackagesSelected nDescendantsUpdated : Nat) :
    PackageLoop where
  mapModifiedTx := (updatePackagesForAdded m a.inBlock []).1
  failedTx := []
  mi := m.mapTx
  nConsecutiveFailed := 0
  nPackagesSelected := nPackagesSelected
  nDescendantsUpdated := nDescendantsUpdated

/-- `s'` is the state after a turn from `s` that the `while` condition lets run and that ends
with `continue`. -/
def NextTurn (limits : Limits) (m : TxMemPool) (minFee : Nat → Int)
    (isFinalTx : TxMemPoolEntry → Bool) (s' s : BlockAssembler × PackageLoop) : Prop :=
  ¬(s.2.mi = [] ∧ s.2.mapModifiedTx = []) ∧
    addPackageTxsStep limits m minFee isFinalTx s.1 s.2 = .next s'.1 s'.2

/-- The states at the head of the loop of `addPackageTxs` called on the assembler `a₀`. -/
inductive LoopHead (limits : Limits) (m : TxMemPool) (minFee : Nat → Int)
    (isFinalTx : TxMemPoolEntry → Bool) (a₀ : BlockAssembler)
    (nPackagesSelected nDescendantsUpdated : Nat) : BlockAssembler × PackageLoop → Prop
  | start : LoopHead limits m minFee isFinalTx a₀ nPackagesSelected nDescendantsUpdated
      (a₀, startLoop m a₀ nPackagesSelected nDescendantsUpdated)
  | next {s s' : BlockAssembler × PackageLoop} :
      LoopHead limits m minFee isFinalTx a₀ nPackagesSelected nDescendantsUpdated s →
      NextTurn limits m minFee isFinalTx s' s →
      LoopHead limits m minFee isFinalTx a₀ nPackagesSelected nDescendantsUpdated s'

/-- The mempool entries not in the block, and the modified entries with what is left after
`mi`. -/
def progress (m : TxMemPool) (s : BlockAssembler × PackageLoop) : Nat × Nat :=
  ((m.mapTx.filter fun x => x ∉ s.1.inBlock).length, s.2.mapModifiedTx.length + s.2.mi.length)

/-- What keeps the loop's cursor and its modified entries inside the mempool. -/
structure Scanned (m : TxMemPool) (l : PackageLoop) : Prop where
  mi_suffix : l.mi <:+ m.mapTx
  iter_mem : ∀ e ∈ l.mapModifiedTx, e.iter ∈ m.mapTx

/-! ### What a turn does -/

@[simp] theorem dropFailed_mi (l : PackageLoop) (iter : TxMemPoolEntry)
    (modit : Option ModifiedEntry) : (dropFailed l iter modit).mi = l.mi := by
  cases modit <;> rfl

@[simp] theorem addPackage_inBlock (a : BlockAssembler) (l : PackageLoop)
    (P : List TxMemPoolEntry) : (addPackage m a l P).1.inBlock = a.inBlock ++ sortForBlock P := by
  simp [addPackage, addSorted_eq]

@[simp] theorem addPackage_mi (a : BlockAssembler) (l : PackageLoop) (P : List TxMemPoolEntry) :
    (addPackage m a l P).2.mi = l.mi :=
  rfl

theorem inBlock_of_addPackage {a a' : BlockAssembler} {l l' : PackageLoop}
    {P : List TxMemPoolEntry} (h : (a', l') = addPackage m a l P) :
    a'.inBlock = a.inBlock ++ sortForBlock P := by
  rw [show a' = _ from congrArg Prod.fst h, addPackage_inBlock]

/-- The candidate is in the package added for it. -/
@[simp] theorem mem_sortForBlock_packageOf (J : List TxMemPoolEntry) (x : TxMemPoolEntry) :
    x ∈ sortForBlock (packageOf m J x) := by
  simp [(sortForBlock_perm _).mem_iff, packageOf]

/-- A turn past the stale-entry check that goes on either drops its candidate, with the block
unchanged, or adds the candidate's package. -/
theorem evaluatePackage_next {a a' : BlockAssembler} {l l' : PackageLoop}
    (h : evaluatePackage limits m minFee isFinalTx a l = .next a' l') :
    ∃ iter modit mi, chooseCandidate l = some (iter, modit, mi) ∧ iter ∉ a.inBlock ∧
      (a' = a ∧ l'.mi = mi ∧ l'.mapModifiedTx = (dropFailed l iter modit).mapModifiedTx ∨
        (a', l') = addPackage m a { l with mi := mi } (packageOf m a.inBlock iter)) := by
  unfold evaluatePackage at h
  split at h
  · cases h
  next iter modit mi hc =>
    refine ⟨iter, modit, mi, hc, ?_⟩
    dsimp only at h
    split_ifs at h with hin <;> cases h
    · exact ⟨hin, .inl ⟨rfl, by simp, by cases modit <;> rfl⟩⟩
    · exact ⟨hin, .inl ⟨rfl, by simp, by cases modit <;> rfl⟩⟩
    · exact ⟨hin, .inr rfl⟩

/-- A turn that goes on moves `mi` past an entry, or erases a modified entry, in both cases
with the block unchanged, or adds the package of its candidate, an entry not in the block. -/
theorem addPackageTxsStep_next {a a' : BlockAssembler} {l l' : PackageLoop}
    (h : addPackageTxsStep limits m minFee isFinalTx a l = .next a' l') :
    (a' = a ∧ l'.mapModifiedTx = l.mapModifiedTx ∧ ∃ e, l.mi = e :: l'.mi) ∨
      (a' = a ∧ l'.mi = l.mi ∧
        ∃ e ∈ l.mapModifiedTx, l'.mapModifiedTx = l.mapModifiedTx.erase e) ∨
      ∃ iter modit mi, chooseCandidate l = some (iter, modit, mi) ∧ iter ∉ a.inBlock ∧
        (a', l') = addPackage m a { l with mi := mi } (packageOf m a.inBlock iter) := by
  have hskip : (∃ e, l.mi = e :: l'.mi ∧ a' = a ∧ l'.mapModifiedTx = l.mapModifiedTx) ∨
      evaluatePackage limits m minFee isFinalTx a l = .next a' l' := by
    unfold addPackageTxsStep at h
    split at h
    next e rest hmi =>
      split_ifs at h
      · cases h
        exact .inl ⟨e, hmi, rfl, rfl⟩
      · exact .inr h
    · exact .inr h
  rcases hskip with ⟨e, hmi, rfl, hmm⟩ | h
  · exact .inl ⟨rfl, hmm, e, hmi⟩
  obtain ⟨iter, modit, mi, hc, hnot, ⟨rfl, hmi, hmm⟩ | hadd⟩ := evaluatePackage_next h
  · rcases chooseCandidate_spec hc with ⟨e, rfl, he, -, rfl⟩ | ⟨rfl, hl⟩
    · exact .inr (.inl ⟨rfl, hmi, e, he, hmm⟩)
    · exact .inl ⟨rfl, hmm, iter, hmi ▸ hl⟩
  · exact .inr (.inr ⟨iter, modit, mi, hc, hnot, hadd⟩)

/-! ### The measure -/

theorem updateDescendant_iter_mem {P : List TxMemPoolEntry} {it d : TxMemPoolEntry}
    (hd : d ∈ m.mapTx) {acc : List ModifiedEntry × Nat} (h : ∀ e ∈ acc.1, e.iter ∈ m.mapTx) :
    ∀ e ∈ (updateDescendant P it acc d).1, e.iter ∈ m.mapTx := by
  unfold updateDescendant
  split_ifs
  · exact h
  · intro e' he'
    obtain ⟨e, he, rfl⟩ := List.mem_map.1 he'
    rw [iter_update_if]
    exact h e he
  · simp only [List.mem_append, List.mem_singleton]
    rintro e (he | rfl)
    exacts [h e he, hd]

/-- `UpdatePackagesForAdded` creates modified entries only for mempool entries. -/
theorem updatePackagesForAdded_iter_mem (P : List TxMemPoolEntry) {mm : List ModifiedEntry}
    (h : ∀ e ∈ mm, e.iter ∈ m.mapTx) :
    ∀ e ∈ (updatePackagesForAdded m P mm).1, e.iter ∈ m.mapTx :=
  List.foldlRecOn (motive := fun acc => ∀ e ∈ acc.1, e.iter ∈ m.mapTx) P _ (mm, 0) h
    fun acc hacc it _ =>
      List.foldlRecOn (motive := fun acc => ∀ e ∈ acc.1, e.iter ∈ m.mapTx)
        (m.calculateDescendants it) _ acc hacc fun _ hacc' _ hd =>
          updateDescendant_iter_mem (TxMemPool.mem_calculateDescendants.1 hd).1 hacc'

theorem scanned_startLoop (a : BlockAssembler) (nPackagesSelected nDescendantsUpdated : Nat) :
    Scanned m (startLoop m a nPackagesSelected nDescendantsUpdated) :=
  ⟨List.suffix_refl _, updatePackagesForAdded_iter_mem _ fun _ h => nomatch h⟩

/-- The candidate of a turn is a mempool entry. -/
theorem Scanned.candidate_mem {l : PackageLoop} (hS : Scanned m l) {iter : TxMemPoolEntry}
    {modit : Option ModifiedEntry} {mi : List TxMemPoolEntry}
    (hc : chooseCandidate l = some (iter, modit, mi)) : iter ∈ m.mapTx ∧ mi <:+ l.mi := by
  rcases chooseCandidate_spec hc with ⟨e, -, he, rfl, rfl⟩ | ⟨-, hmi⟩
  · exact ⟨hS.iter_mem e he, List.suffix_refl _⟩
  · exact ⟨hS.mi_suffix.subset (hmi ▸ List.mem_cons_self iter mi), hmi ▸ List.suffix_cons _ _⟩

theorem Scanned.next {a a' : BlockAssembler} {l l' : PackageLoop} (hS : Scanned m l)
    (h : addPackageTxsStep limits m minFee isFinalTx a l = .next a' l') : Scanned m l' := by
  rcases addPackageTxsStep_next h with ⟨-, hmm, e, hmi⟩ | ⟨-, hmi, e, -, hmm⟩ |
    ⟨iter, modit, mi, hc, -, hadd⟩
  · exact ⟨(List.suffix_cons e _).trans (hmi ▸ hS.mi_suffix), hmm ▸ hS.iter_mem⟩
  · exact ⟨hmi ▸ hS.mi_suffix, hmm ▸ fun x hx => hS.iter_mem x (List.erase_subset _ _ hx)⟩
  · obtain rfl : l' = _ := congrArg Prod.snd hadd
    refine ⟨(hS.candidate_mem hc).2.trans hS.mi_suffix, ?_⟩
    simp only [addPackage, addSorted_eq]
    exact updatePackagesForAdded_iter_mem _ fun x hx => hS.iter_mem x (List.mem_filter.1 hx).1

/-- Taking into the block an entry of `L` that was outside it leaves fewer entries of `L`
outside. -/
theorem length_filter_not_mem_lt {L J J' : List TxMemPoolEntry} (hJ : J ⊆ J')
    {x : TxMemPoolEntry} (hxL : x ∈ L) (hxJ : x ∉ J) (hxJ' : x ∈ J') :
    (L.filter fun y => y ∉ J').length < (L.filter fun y => y ∉ J).length := by
  have hsub : List.Sublist (L.filter fun y => y ∉ J') (L.filter fun y => y ∉ J) :=
    List.monotone_filter_right L fun y hy => by
      simp only [decide_eq_true_eq] at hy ⊢
      exact fun h => hy (hJ h)
  refine lt_of_le_of_ne hsub.length_le fun heq => ?_
  have hx : x ∈ L.filter fun y => y ∉ J := List.mem_filter.2 ⟨hxL, by simpa using hxJ⟩
  rw [← hsub.eq_of_length heq, List.mem_filter] at hx
  simp [hxJ'] at hx

/-- Each turn that goes on lowers the progress pair in the lexicographic order. -/
theorem progress_lt {a a' : BlockAssembler} {l l' : PackageLoop} (hS : Scanned m l)
    (h : addPackageTxsStep limits m minFee isFinalTx a l = .next a' l') :
    Prod.Lex (· < ·) (· < ·) (progress m (a', l')) (progress m (a, l)) := by
  rcases addPackageTxsStep_next h with ⟨rfl, hmm, e, hmi⟩ | ⟨rfl, hmi, e, he, hmm⟩ |
    ⟨iter, modit, mi, hc, hnot, hadd⟩
  · refine Prod.Lex.right _ ?_
    simp [hmm, hmi]
  · refine Prod.Lex.right _ ?_
    have := List.length_erase_of_mem he
    have := List.length_pos_of_mem he
    simp only [hmm, hmi]
    omega
  · refine Prod.Lex.left _ _ ?_
    simp only [progress, inBlock_of_addPackage hadd]
    exact length_filter_not_mem_lt (List.subset_append_left _ _) (hS.candidate_mem hc).1 hnot
      (List.mem_append_right _ (mem_sortForBlock_packageOf _ _))

/-- From every state whose cursor and modified entries lie in the mempool, every run of
turns is finite. -/
theorem acc_nextTurn {s : BlockAssembler × PackageLoop} (hS : Scanned m s.2) :
    Acc (NextTurn limits m minFee isFinalTx) s := by
  suffices h : ∀ p s, progress m s = p → Scanned m s.2 → Acc (NextTurn limits m minFee isFinalTx) s
    from h _ s rfl hS
  refine fun p => (WellFounded.prod_lex wellFounded_lt wellFounded_lt).induction p
    (C := fun p => ∀ s, progress m s = p → Scanned m s.2 → Acc _ s) fun p ih => ?_
  rintro s rfl hS
  exact Acc.intro s fun s' ⟨_, hstep⟩ => ih _ (progress_lt hS hstep) s' rfl (hS.next hstep)

theorem LoopHead.scanned {a₀ : BlockAssembler} {nPackagesSelected nDescendantsUpdated : Nat}
    {s : BlockAssembler × PackageLoop}
    (h : LoopHead limits m minFee isFinalTx a₀ nPackagesSelected nDescendantsUpdated s) :
    Scanned m s.2 := by
  induction h with
  | start => exact scanned_startLoop a₀ nPackagesSelected nDescendantsUpdated
  | next _ hn ih => exact ih.next hn.2

/-- The state after `n` turns of the loop from `s`, or where the loop ends before. -/
def afterTurns (limits : Limits) (m : TxMemPool) (minFee : Nat → Int)
    (isFinalTx : TxMemPoolEntry → Bool) : Nat → BlockAssembler × PackageLoop →
      BlockAssembler × PackageLoop
  | 0, s => s
  | n + 1, s =>
    if s.2.mi = [] ∧ s.2.mapModifiedTx = [] then s
    else
      match addPackageTxsStep limits m minFee isFinalTx s.1 s.2 with
      | .next a l => afterTurns limits m minFee isFinalTx n (a, l)
      | _ => s

/-- Every state a run of turns passes through is at the head of the loop. -/
theorem LoopHead.afterTurns {a₀ : BlockAssembler} {nPackagesSelected nDescendantsUpdated : Nat} :
    ∀ (n : Nat) {s : BlockAssembler × PackageLoop},
      LoopHead limits m minFee isFinalTx a₀ nPackagesSelected nDescendantsUpdated s →
      LoopHead limits m minFee isFinalTx a₀ nPackagesSelected nDescendantsUpdated
        (Miner.afterTurns limits m minFee isFinalTx n s)
  | 0, _, h => h
  | n + 1, s, h => by
    unfold Miner.afterTurns
    split_ifs with hdone
    · exact h
    · split
      next a l hstep => exact LoopHead.afterTurns n (h.next ⟨hdone, hstep⟩)
      · exact h

/-- The loop of `addPackageTxs`, on any mempool and from any assembler, has no infinite run.
Each turn that goes on moves `mi` on or erases a modified entry, with the block unchanged, or
adds entries to the block of which one was not in it; and each lowers the pair of the number
of mempool entries outside the block and the number of modified entries and of entries after
`mi`, ordered lexicographically. -/
theorem addPackageTxs_loop_ends (m : TxMemPool) (a₀ : BlockAssembler)
    (nPackagesSelected nDescendantsUpdated : Nat) :
    Acc (NextTurn limits m minFee isFinalTx)
        (a₀, startLoop m a₀ nPackagesSelected nDescendantsUpdated) ∧
      ∀ s s', LoopHead limits m minFee isFinalTx a₀ nPackagesSelected nDescendantsUpdated s →
        NextTurn limits m minFee isFinalTx s' s →
        ((s'.1 = s.1 ∧ s'.2.mapModifiedTx = s.2.mapModifiedTx ∧ ∃ e, s.2.mi = e :: s'.2.mi) ∨
          (s'.1 = s.1 ∧ s'.2.mi = s.2.mi ∧
            ∃ e ∈ s.2.mapModifiedTx, s'.2.mapModifiedTx = s.2.mapModifiedTx.erase e) ∨
          ∃ P, s'.1.inBlock = s.1.inBlock ++ P ∧ ∃ x ∈ P, x ∉ s.1.inBlock) ∧
        Prod.Lex (· < ·) (· < ·) (progress m s') (progress m s) := by
  refine ⟨acc_nextTurn (scanned_startLoop a₀ nPackagesSelected nDescendantsUpdated),
    fun s s' hs ⟨_, hstep⟩ => ⟨?_, progress_lt hs.scanned hstep⟩⟩
  rcases addPackageTxsStep_next hstep with h | h | ⟨iter, modit, mi, -, hnot, hadd⟩
  · exact .inl h
  · exact .inr (.inl h)
  · exact .inr (.inr ⟨_, inBlock_of_addPackage hadd, iter, mem_sortForBlock_packageOf _ _, hnot⟩)

end Miner

end AokChain
