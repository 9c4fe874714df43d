import AokChain.Governance.Basic

/-!
# Disconnecting a block's governance operations

A block applies governance operations with `FreezeScript`, `UnfreezeScript`, `UpdateCost`
and `UpdateFeeScript`; disconnecting it applies the matching `Revert*` operations in reverse
order. The reverts do not record what the forward operation found: `RevertFreezeScript`
unfreezes whatever is frozen, `RevertUnfreezeScript` freezes whatever is unfrozen, and
`RevertUpdateCost` erases whatever is stored. A forward operation that changed nothing (a
freeze of a frozen script, an unfreeze of an unknown or unfrozen one, an update of a stored
key) is therefore not undone but overdone, and the law holds only for operations that each
change the store.

`Agrees σ τ` is what survives a disconnect: the counter and every key other than a freeze
entry are as in `σ`, and a freeze entry is as in `σ` except that one absent from `σ` may be
left stored unfrozen. Every reader of the governance store sees `τ` as `σ`.
-/

namespace AokChain

open Store GovernanceDB

/-- A governance operation a connected block applies. -/
inductive GovernanceOp where
  | freezeScript (script : Bytes)
  | unfreezeScript (script : Bytes)
  | updateCost (cost type height : Int)
  | updateFeeScript (script : Bytes) (height : Int)

namespace GovernanceOp

/-- The forward operation. -/
def apply : GovernanceOp → GovernanceDB → Bool × GovernanceDB
  | freezeScript s, db => GovernanceDB.freezeScript db s
  | unfreezeScript s, db => GovernanceDB.unfreezeScript db s
  | updateCost c t h, db => GovernanceDB.updateCost db c t h
  | updateFeeScript s h, db => GovernanceDB.updateFeeScript db s h

/-- The operation that disconnecting the block applies for it. -/
def revert : GovernanceOp → GovernanceDB → Bool × GovernanceDB
  | freezeScript s, db => revertFreezeScript db s
  | unfreezeScript s, db => revertUnfreezeScript db s
  | updateCost _ t h, db => revertUpdateCost db t h
  | updateFeeScript _ h, db => revertUpdateFeeScript db h

/-- The operation changes the store it is applied to: a freeze finds its script sendable, an
unfreeze finds it stored frozen, an update finds its key free. -/
def Changes : GovernanceOp → GovernanceDB → Prop
  | freezeScript s, db => canSend db s = true
  | unfreezeScript s, db => db.readFlag (freezeEntry s) = some true
  | updateCost _ t h, db => db.read (costEntry t h) = none
  | updateFeeScript _ h, db => db.read (feeEntry h) = none

instance (op : GovernanceOp) (db : GovernanceDB) : Decidable (op.Changes db) :=
  match op with
  | freezeScript _ | unfreezeScript _ | updateCost _ _ _ | updateFeeScript _ _ =>
    inferInstanceAs (Decidable (_ = _))

end GovernanceOp

/-- Connecting a block: the operations in order, each required to return true. -/
def connect (db : GovernanceDB) : List GovernanceOp → Option GovernanceDB
  | [] => some db
  | op :: ops => if (op.apply db).1 then connect (op.apply db).2 ops else none

/-- Disconnecting it: the reverts in reverse order, each required to return true. -/
def disconnect (db : GovernanceDB) : List GovernanceOp → Option GovernanceDB
  | [] => some db
  | op :: ops => (disconnect db ops).bind fun d => if (op.revert d).1 then some (op.revert d).2 else none

/-- Every operation of the block changes the store it is applied to. -/
def ChangesAll (db : GovernanceDB) : List GovernanceOp → Prop
  | [] => True
  | op :: ops => op.Changes db ∧ ChangesAll (op.apply db).2 ops

/-- `τ` is `σ` to every reader: the same counter and the same value under every other key,
except that a freeze entry absent from `σ` may be stored unfrozen in `τ`. -/
structure Agrees (σ τ : GovernanceDB) : Prop where
  count : getNumberOfFrozenScripts τ = getNumberOfFrozenScripts σ
  read : ∀ k, k ≠ tagKey dbNumberFrozen → τ.read k = σ.read k ∨
    (k.head? = some dbAddress ∧ σ.read k = none ∧ τ.read k = some (.flag false))

theorem Agrees.refl (σ : GovernanceDB) : Agrees σ σ := ⟨rfl, fun _ _ => .inl rfl⟩

/-- Where `σ₁` agrees with `σ` at `k`, a later store agreeing with `σ₁` agrees with `σ`. -/
theorem Agrees.read_of_eq {σ σ₁ τ : GovernanceDB} (h : Agrees σ₁ τ) {k : Bytes}
    (hk : k ≠ tagKey dbNumberFrozen) (heq : σ₁.read k = σ.read k) :
    τ.read k = σ.read k ∨
      (k.head? = some dbAddress ∧ σ.read k = none ∧ τ.read k = some (.flag false)) :=
  heq ▸ h.read k hk

/-- A key `σ₁` stores, and that is not a freeze entry left unfrozen, reads the same in every
store agreeing with `σ₁`. -/
theorem Agrees.read_eq_of_some {σ₁ τ : GovernanceDB} (h : Agrees σ₁ τ) {k : Bytes} {v : Value}
    (hk : k ≠ tagKey dbNumberFrozen) (hv : σ₁.read k = some v) : τ.read k = some v := by
  rcases h.read k hk with h' | ⟨-, h', -⟩ <;> simp_all

/-- Reverting a freeze that froze its script. -/
theorem revert_freezeScript {σ τ : GovernanceDB} {s : Bytes} (hc : canSend σ s = true)
    (hτ : Agrees (GovernanceDB.freezeScript σ s).2 τ) :
    ∃ τ', revertFreezeScript τ s = (true, τ') ∧ Agrees σ τ' := by
  have hσ := (canSend_eq_true_iff σ s).1 hc
  have hnf : σ.readFlag (freezeEntry s) ≠ some true := by
    rw [Ne, readFlag_eq_some_iff]; rcases hσ with h | h <;> simp [h]
  rw [freezeScript_eq, if_neg hnf] at hτ
  have hread : τ.readFlag (freezeEntry s) = some true := by
    rw [readFlag_eq_some_iff]
    exact hτ.read_eq_of_some (tagKey_ne_freezeEntry s).symm
      (by rw [read_write_of_ne _ _ (tagKey_ne_freezeEntry s).symm]; simp)
  rw [revertFreezeScript_eq, if_pos hread]
  refine ⟨_, rfl, ⟨?_, fun k hk => ?_⟩⟩
  · rw [getNumberOfFrozenScripts_write_of_ne _ _ (tagKey_ne_freezeEntry s),
      getNumberOfFrozenScripts_write_number, hτ.count, getNumberOfFrozenScripts_write_number]
    open scoped UInt32.CommRing in exact add_sub_cancel_right _ _
  · by_cases hke : k = freezeEntry s
    · subst hke
      rcases hσ with h | h <;> simp [read_write, h]
    · rw [read_write_of_ne _ _ hke, read_write_of_ne _ _ hk]
      exact hτ.read_of_eq hk (by rw [read_write_of_ne _ _ hk, read_write_of_ne _ _ hke])

/-- Reverting an unfreeze that unfroze its script. -/
theorem revert_unfreezeScript {σ τ : GovernanceDB} {s : Bytes}
    (hc : σ.readFlag (freezeEntry s) = some true)
    (hτ : Agrees (GovernanceDB.unfreezeScript σ s).2 τ) :
    ∃ τ', revertUnfreezeScript τ s = (true, τ') ∧ Agrees σ τ' := by
  rw [unfreezeScript_eq, if_pos hc] at hτ
  have hread : τ.readFlag (freezeEntry s) = some false := by
    rw [readFlag_eq_some_iff]
    exact hτ.read_eq_of_some (tagKey_ne_freezeEntry s).symm
      (by rw [read_write_of_ne _ _ (tagKey_ne_freezeEntry s).symm]; simp)
  rw [revertUnfreezeScript_eq, if_pos hread]
  refine ⟨_, rfl, ⟨?_, fun k hk => ?_⟩⟩
  · rw [getNumberOfFrozenScripts_write_of_ne _ _ (tagKey_ne_freezeEntry s),
      getNumberOfFrozenScripts_write_number, hτ.count, getNumberOfFrozenScripts_write_number]
    open scoped UInt32.CommRing in exact sub_add_cancel _ _
  · by_cases hke : k = freezeEntry s
    · subst hke
      rw [readFlag_eq_some_iff] at hc
      simp [read_write, hc]
    · rw [read_write_of_ne _ _ hke, read_write_of_ne _ _ hk]
      exact hτ.read_of_eq hk (by rw [read_write_of_ne _ _ hk, read_write_of_ne _ _ hke])

/-- Reverting an update that wrote a free key: the reverted store erases that key again. -/
theorem Agrees.erase_of_write {σ τ : GovernanceDB} {k : Bytes} {v : Value}
    (hk : k ≠ tagKey dbNumberFrozen) (hhead : k.head? ≠ some dbAddress)
    (hfree : σ.read k = none) (hτ : Agrees (σ.write k v) τ) :
    τ.read k = some v ∧ Agrees σ (τ.erase k) := by
  refine ⟨hτ.read_eq_of_some hk (by simp), ⟨?_, fun k' hk' => ?_⟩⟩
  · rw [getNumberOfFrozenScripts_erase_of_ne _ hk.symm, hτ.count,
      getNumberOfFrozenScripts_write_of_ne _ _ hk.symm]
  · by_cases hkk : k' = k
    · subst hkk; simp [hfree]
    · rw [read_erase_of_ne _ hkk]
      exact hτ.read_of_eq hk' (read_write_of_ne _ _ hkk)

theorem costEntry_head (type height : Int) : (costEntry type height).head? ≠ some dbAddress := by
  simp [costEntry, dbCost, dbAddress]

theorem feeEntry_head (height : Int) : (feeEntry height).head? ≠ some dbAddress := by
  simp [feeEntry, dbFeeAddress, dbAddress]

/-- One step of a disconnect: the revert of an operation that changed `σ` succeeds on every
store agreeing with the operation's result, and gives back a store agreeing with `σ`. -/
theorem GovernanceOp.revert_of_changes {op : GovernanceOp} {σ τ : GovernanceDB}
    (hc : op.Changes σ) (ha : (op.apply σ).1 = true) (hτ : Agrees (op.apply σ).2 τ) :
    ∃ τ', op.revert τ = (true, τ') ∧ Agrees σ τ' := by
  cases op with
  | freezeScript s => exact revert_freezeScript hc hτ
  | unfreezeScript s => exact revert_unfreezeScript hc hτ
  | updateCost c t h =>
    simp only [apply, updateCost_eq_of_read_none hc] at ha hτ
    rw [if_pos ha] at hτ
    obtain ⟨hread, hagree⟩ :=
      hτ.erase_of_write (tagKey_ne_costEntry t h).symm (costEntry_head t h) hc
    exact ⟨_, revertUpdateCost_eq_of_read hread, hagree⟩
  | updateFeeScript s h =>
    simp only [apply, updateFeeScript_eq_of_read_none hc] at hτ
    obtain ⟨hread, hagree⟩ :=
      hτ.erase_of_write (tagKey_ne_feeEntry h).symm (feeEntry_head h) hc
    exact ⟨_, revertUpdateFeeScript_eq_of_read hread, hagree⟩

/-- The run lemma: disconnecting a block whose operations each changed the store, from any
store agreeing with the connected one, succeeds and agrees with the store before. -/
theorem disconnect_agrees (σ : GovernanceDB) (ops : List GovernanceOp) {σ' : GovernanceDB}
    (hconn : connect σ ops = some σ') (hchg : ChangesAll σ ops) {τ₀ : GovernanceDB}
    (hτ₀ : Agrees σ' τ₀) : ∃ τ, disconnect τ₀ ops = some τ ∧ Agrees σ τ := by
  induction ops generalizing σ with
  | nil =>
    cases hconn
    exact ⟨τ₀, rfl, hτ₀⟩
  | cons op ops ih =>
    simp only [connect] at hconn
    split_ifs at hconn with ha
    obtain ⟨τ₁, hdis, hagree⟩ := ih _ hconn hchg.2
    obtain ⟨τ, hrev, hτ⟩ := op.revert_of_changes hchg.1 ha hagree
    exact ⟨τ, by simp [disconnect, hdis, hrev], hτ⟩

/-! ## What the readers see -/

/-- A key that does not sort below `c`-tagged keys starts with a byte at least `'c'`. -/
theorem head_of_bytewiseLt_eq_false {k : Bytes} {c : UInt8} {r : Bytes}
    (h : bytewiseLt k (c :: r) = false) : ∃ a rest, k = a :: rest ∧ c.toNat ≤ a.toNat := by
  cases k with
  | nil => simp at h
  | cons a rest =>
    refine ⟨a, rest, rfl, ?_⟩
    simp only [bytewiseLt_cons_cons, Bool.or_eq_false_iff, decide_eq_false_iff_not] at h
    omega

/-- Agreeing stores read the same at every key from the cost entries on. -/
theorem Agrees.read_eq_of_ge_cost {σ τ : GovernanceDB} (h : Agrees σ τ) {k : Bytes}
    (hk : bytewiseLt k (dbCost :: []) = false) : τ.read k = σ.read k := by
  obtain ⟨a, rest, rfl, ha⟩ := head_of_bytewiseLt_eq_false hk
  have hne : a :: rest ≠ tagKey dbNumberFrozen := by
    rintro ⟨⟩; exact absurd ha (by decide)
  rcases h.read _ hne with h' | ⟨h', -⟩
  · exact h'
  · cases Option.some.inj h'
    exact absurd ha (by decide)

theorem bytewiseLt_eq_false_of_cons {k : Bytes} {c : UInt8} {r : Bytes} (d : UInt8)
    (hd : d.toNat ≤ c.toNat) (h : bytewiseLt k (c :: r) = false) : bytewiseLt k [d] = false := by
  obtain ⟨a, rest, rfl, ha⟩ := head_of_bytewiseLt_eq_false h
  simp only [bytewiseLt_cons_cons, Bool.or_eq_false_iff, decide_eq_false_iff_not]
  refine ⟨by omega, ?_⟩
  cases rest <;> simp

theorem Agrees.canSend_eq {σ τ : GovernanceDB} (h : Agrees σ τ) (s : Bytes) :
    canSend τ s = canSend σ s := by
  rw [Bool.eq_iff_iff, canSend_eq_true_iff, canSend_eq_true_iff]
  rcases h.read _ (tagKey_ne_freezeEntry s).symm with h' | ⟨-, hσ, hτ⟩
  · rw [h']
  · simp [hσ, hτ]

theorem Agrees.getCost_eq {σ τ : GovernanceDB} (h : Agrees σ τ) (type : Int) :
    getCost τ type = getCost σ type := by
  unfold getCost
  rw [seek_congr (k := costEntry dummyType 0) fun k hk => h.read_eq_of_ge_cost
    (bytewiseLt_eq_false_of_cons dbCost (le_refl _) hk)]

theorem Agrees.getFeeScript_eq {σ τ : GovernanceDB} (h : Agrees σ τ) :
    getFeeScript τ = getFeeScript σ := by
  unfold getFeeScript
  rw [seek_congr (k := feeEntry 0) fun k hk => h.read_eq_of_ge_cost
    (bytewiseLt_eq_false_of_cons dbCost (by decide) hk)]

/-- Disconnecting a block undoes it for every reader of the governance store, when each of
its operations changed the store: the reverts all return true, and `CanSend`, the frozen
counter, `GetCost` and `GetFeeScript` read as before the block. -/
theorem disconnect_connect_readers (σ : GovernanceDB) (ops : List GovernanceOp)
    {σ' : GovernanceDB} (hconn : connect σ ops = some σ') (hchg : ChangesAll σ ops) :
    ∃ τ, disconnect σ' ops = some τ ∧ (∀ s, canSend τ s = canSend σ s) ∧
      getNumberOfFrozenScripts τ = getNumberOfFrozenScripts σ ∧
      (∀ t, getCost τ t = getCost σ t) ∧ getFeeScript τ = getFeeScript σ := by
  obtain ⟨τ, hdis, h⟩ := disconnect_agrees σ ops hconn hchg (Agrees.refl σ')
  exact ⟨τ, hdis, h.canSend_eq, h.count, h.getCost_eq, h.getFeeScript_eq⟩

/-- The law at a block that freezes a fresh script, raises the root cost at height 1 and
moves the fee script at height 1, connected on the initial main-network store. -/
theorem disconnect_connect_readers_initial :
    connect (initial mainGovernanceParams)
        [.freezeScript [0x51], .updateCost 5 governanceCostRoot 1, .updateFeeScript [0x6a] 1] =
      some ((GovernanceDB.updateFeeScript ((GovernanceDB.updateCost
        (GovernanceDB.freezeScript (initial mainGovernanceParams) [0x51]).2
          5 governanceCostRoot 1).2) [0x6a] 1).2) ∧
    ChangesAll (initial mainGovernanceParams)
        [.freezeScript [0x51], .updateCost 5 governanceCostRoot 1, .updateFeeScript [0x6a] 1] ∧
    ∃ τ, disconnect ((GovernanceDB.updateFeeScript ((GovernanceDB.updateCost
        (GovernanceDB.freezeScript (initial mainGovernanceParams) [0x51]).2
          5 governanceCostRoot 1).2) [0x6a] 1).2)
        [.freezeScript [0x51], .updateCost 5 governanceCostRoot 1, .updateFeeScript [0x6a] 1] =
        some τ ∧ (∀ s, canSend τ s = canSend (initial mainGovernanceParams) s) ∧
      getNumberOfFrozenScripts τ = getNumberOfFrozenScripts (initial mainGovernanceParams) ∧
      (∀ t, getCost τ t = getCost (initial mainGovernanceParams) t) ∧
      getFeeScript τ = getFeeScript (initial mainGovernanceParams) :=
  have hconn : connect (initial mainGovernanceParams)
      [.freezeScript [0x51], .updateCost 5 governanceCostRoot 1, .updateFeeScript [0x6a] 1] =
      some ((GovernanceDB.updateFeeScript ((GovernanceDB.updateCost
        (GovernanceDB.freezeScript (initial mainGovernanceParams) [0x51]).2
          5 governanceCostRoot 1).2) [0x6a] 1).2) := rfl
  have hchg : ChangesAll (initial mainGovernanceParams)
      [.freezeScript [0x51], .updateCost 5 governanceCostRoot 1, .updateFeeScript [0x6a] 1] :=
    ⟨by decide, by decide, by decide, trivial⟩
  ⟨hconn, hchg, disconnect_connect_readers _ _ hconn hchg⟩

/-- The law fails for an operation that changes nothing: unfreezing a script the initial
store does not know stores it unfrozen, and reverting that freezes it. -/
theorem disconnect_unfreeze_unknown_freezes :
    ∃ σ' τ, connect (initial mainGovernanceParams) [.unfreezeScript [0x51]] = some σ' ∧
      disconnect σ' [.unfreezeScript [0x51]] = some τ ∧
      canSend (initial mainGovernanceParams) [0x51] = true ∧ canSend τ [0x51] = false :=
  ⟨_, _, rfl, rfl, by decide, by decide⟩

end AokChain
