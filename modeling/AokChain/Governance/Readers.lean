import AokChain.Governance.Revert

/-!
# What `GetCost` and `GetFeeScript` read

Both readers seek a sentinel key, `CostEntry()` or `FeeEntry()`, and scan forward while the
key deserializes as an entry of their family, keeping the value of the highest height seen,
compared strictly from `-1`. Integers are serialized little-endian, so the scan does not
visit heights in order. It is right because it visits every entry of its family before any
other key, and the running maximum (`latest`) does not depend on the order.

The reachable databases (`Reachable`: `Init(true, P)`, then any sequence of the governance
operations and their reverts, with `int` types and heights) hold only keys of the five
families, each with its kind of value (`WellKeyed`). From that, `GetCost(t)` is the amount
under the greatest height `h ≥ 0` stored for `t`, and `GetFeeScript()` the script under the
greatest fee height `h ≥ 0`.

`Init` stores `SubFeeAmount` under `GOVERNANCE_COST_REISSUE` and `ReissueFeeAmount` under
`GOVERNANCE_COST_SUB` (`getCost_initial`).
-/

namespace AokChain

open Store GovernanceDB

/-! ## Deserializing the keys -/

theorem getCostEntry_costEntry {t h : Int} (ht : InInt32 t) (hh : InInt32 h) :
    getCostEntry (costEntry t h) = some (dbCost, t, h) := by
  have h' := readInt_serInt hh []
  rw [List.append_nil] at h'
  simp [getCostEntry, costEntry, readInt_serInt ht, h']

theorem getFeeEntry_feeEntry {h : Int} (hh : InInt32 h) :
    getFeeEntry (feeEntry h) = some (dbFeeAddress, h) := by
  have h' := readInt_serInt hh []
  rw [List.append_nil] at h'
  simp [getFeeEntry, feeEntry, h']

/-- A fee key is too short to read as a cost entry. -/
theorem getCostEntry_feeEntry {h : Int} (hh : InInt32 h) : getCostEntry (feeEntry h) = none := by
  have h' := readInt_serInt hh []
  rw [List.append_nil] at h'
  rw [feeEntry, getCostEntry, h']
  rfl

/-! ## The order of the keys -/

theorem bytewiseLt_replicate_zero {k : Bytes} {n : Nat} (hn : n ≤ k.length) :
    bytewiseLt k (List.replicate n 0) = false := by
  induction n generalizing k with
  | zero => cases k <;> rfl
  | succ n ih =>
    cases k with
    | nil => simp at hn
    | cons a k =>
      simp [List.replicate_succ, bytewiseLt_cons_cons, ih (Nat.le_of_succ_le_succ hn)]

/-- `CostEntry()` is the least cost key. -/
theorem costEntry_not_lt (t h : Int) : bytewiseLt (costEntry t h) (costEntry dummyType 0) = false := by
  rw [show costEntry dummyType 0 = dbCost :: List.replicate 8 0 from rfl, costEntry,
    bytewiseLt_cons_cons, bytewiseLt_replicate_zero (by simp [serInt, length_leBytes])]
  simp

/-- `FeeEntry()` is the least fee key. -/
theorem feeEntry_not_lt (h : Int) : bytewiseLt (feeEntry h) (feeEntry 0) = false := by
  rw [show feeEntry 0 = dbFeeAddress :: List.replicate 4 0 from rfl, feeEntry,
    bytewiseLt_cons_cons, bytewiseLt_replicate_zero (by simp [serInt, length_leBytes])]
  simp

/-- Keys compare on their first byte before anything else. -/
theorem bytewiseLt_cons_of_lt {a b : UInt8} (h : a.toNat < b.toNat) (r r' : Bytes) :
    bytewiseLt (a :: r) (b :: r') = true := by
  simp [bytewiseLt_cons_cons, h]

theorem costEntry_lt_feeEntry (t h h' : Int) : bytewiseLt (costEntry t h) (feeEntry h') = true :=
  bytewiseLt_cons_of_lt (by decide) _ _

/-! ## The running maximum -/

/-- The scan both readers run, over the decoded heights and values of their entries: the
value at the last strict rise of the height above `height`, or `x` if there is none. -/
def latest {α : Type} : List (Int × α) → Int → α → α
  | [], _, x => x
  | (h, v) :: rest, height, x => if height < h then latest rest h v else latest rest height x

section Latest

variable {α : Type}

theorem latest_eq_of_le {L : List (Int × α)} {height : Int} (x : α)
    (hle : ∀ p ∈ L, p.1 ≤ height) : latest L height x = x := by
  induction L with
  | nil => rfl
  | cons p L ih =>
    rw [List.forall_mem_cons] at hle
    rw [latest, if_neg (not_lt.2 hle.1), ih hle.2]

/-- The scan ends on the value of the greatest height, whatever the order of the entries. -/
theorem latest_eq_of_max {L : List (Int × α)} {h : Int} {v : α} (hmem : (h, v) ∈ L)
    (hmax : ∀ p ∈ L, p.1 ≤ h) (huniq : ∀ p ∈ L, p.1 = h → p.2 = v) {height : Int}
    (hgt : height < h) (x : α) : latest L height x = v := by
  induction L generalizing height x with
  | nil => cases hmem
  | cons p L ih =>
    obtain ⟨h', v'⟩ := p
    rw [List.forall_mem_cons] at hmax huniq
    by_cases hh : h' = h
    · subst hh
      rw [latest, if_pos hgt, latest_eq_of_le v' hmax.2]
      exact huniq.1 rfl
    · have hmem' : (h, v) ∈ L :=
        (List.mem_cons.1 hmem).resolve_left fun he => hh (Prod.ext_iff.1 he).1.symm
      rw [latest]
      split_ifs
      · exact ih hmem' hmax.2 huniq.2 (lt_of_le_of_ne hmax.1 hh) v'
      · exact ih hmem' hmax.2 huniq.2 hgt x

end Latest

/-! ## The scans as running maxima -/

/-- The heights and amounts of the cost entries of `type` in a scan, in scan order. -/
def costsOf (type : Int) (l : List (Bytes × Value)) : List (Int × Int) :=
  l.filterMap fun e =>
    match getCostEntry e.1, e.2 with
    | some (_, t, h), .amount a => if t = type then some (h, a) else none
    | _, _ => none

/-- The heights and scripts of the fee entries in a scan, in scan order. -/
def feesOf (l : List (Bytes × Value)) : List (Int × Bytes) :=
  l.filterMap fun e =>
    match getFeeEntry e.1, e.2 with
    | some (_, h), .script s => some (h, s)
    | _, _ => none

/-- A cost entry as the store holds it: `int` type and height, an amount. -/
def IsCostEntry (e : Bytes × Value) : Prop :=
  ∃ t h a, InInt32 t ∧ InInt32 h ∧ e = (costEntry t h, .amount a)

/-- A fee entry as the store holds it: an `int` height, a script. -/
def IsFeeEntry (e : Bytes × Value) : Prop :=
  ∃ h s, InInt32 h ∧ e = (feeEntry h, .script s)

theorem costsOf_eq_nil_of_fee (type : Int) {l : List (Bytes × Value)}
    (hl : ∀ e ∈ l, IsFeeEntry e) : costsOf type l = [] := by
  refine List.filterMap_eq_nil_iff.2 fun e he => ?_
  obtain ⟨h, s, hh, rfl⟩ := hl e he
  simp [getCostEntry_feeEntry hh]

/-- `GetCost`'s loop over cost entries, then fee entries, is the running maximum of the cost
entries of its type. -/
theorem getCostLoop_eq_latest (type : Int) {l : List (Bytes × Value)}
    (hl : ∀ e ∈ l, IsCostEntry e ∨ IsFeeEntry e)
    (hord : l.Pairwise fun a b => IsFeeEntry a → IsFeeEntry b) (height cost : Int) :
    getCostLoop type l height cost = latest (costsOf type l) height cost := by
  induction l generalizing height cost with
  | nil => rfl
  | cons e l ih =>
    rw [List.forall_mem_cons] at hl
    rw [List.pairwise_cons] at hord
    rcases hl.1 with ⟨t, h, a, ht, hh, rfl⟩ | ⟨h, s, hh, rfl⟩
    · have hcosts : costsOf type ((costEntry t h, .amount a) :: l) =
          if t = type then (h, a) :: costsOf type l else costsOf type l := by
        rw [costsOf, List.filterMap_cons, getCostEntry_costEntry ht hh]
        dsimp only
        split_ifs <;> rfl
      rw [hcosts, getCostLoop, getCostEntry_costEntry ht hh]
      by_cases htype : t = type
      · simp only [if_pos rfl, htype, true_and, if_pos htype, latest, Value.asAmount]
        split_ifs <;> exact ih hl.2 hord.2 _ _
      · simp only [if_pos rfl, htype, false_and, if_false]
        exact ih hl.2 hord.2 _ _
    · have hcosts : costsOf type ((feeEntry h, .script s) :: l) = [] :=
        costsOf_eq_nil_of_fee type (List.forall_mem_cons.2
          ⟨⟨h, s, hh, rfl⟩, fun b hb => hord.1 b hb ⟨h, s, hh, rfl⟩⟩)
      rw [hcosts, getCostLoop, getCostEntry_feeEntry hh]
      rfl

/-- `GetFeeScript`'s loop over fee entries is their running maximum. -/
theorem getFeeScriptLoop_eq_latest {l : List (Bytes × Value)} (hl : ∀ e ∈ l, IsFeeEntry e)
    (height : Int) (script : Bytes) :
    getFeeScriptLoop l height script = latest (feesOf l) height script := by
  induction l generalizing height script with
  | nil => rfl
  | cons e l ih =>
    rw [List.forall_mem_cons] at hl
    obtain ⟨h, s, hh, rfl⟩ := hl.1
    have hfees : feesOf ((feeEntry h, .script s) :: l) = (h, s) :: feesOf l := by
      rw [feesOf, List.filterMap_cons, getFeeEntry_feeEntry hh]
      rfl
    rw [hfees, getFeeScriptLoop, getFeeEntry_feeEntry hh, latest]
    simp only [if_pos rfl, Value.asScript]
    split_ifs <;> exact ih hl.2 _ _

/-! ## The keys of a reachable database -/

/-- The keys a governance database holds, each with the kind of value stored under it. -/
inductive StoredKey : Bytes → Value → Prop
  | number (n : UInt32) : StoredKey (tagKey dbNumberFrozen) (.number n)
  | init (b : Bool) : StoredKey (tagKey dbGovernanceInit) (.flag b)
  | freeze (s : Bytes) (b : Bool) : StoredKey (freezeEntry s) (.flag b)
  | cost {t h : Int} (a : Int) : InInt32 t → InInt32 h → StoredKey (costEntry t h) (.amount a)
  | fee {h : Int} (s : Bytes) : InInt32 h → StoredKey (feeEntry h) (.script s)

/-- From `CostEntry()` on, a database holds cost entries and then fee entries. -/
theorem StoredKey.costScan {k : Bytes} {v : Value} (hk : StoredKey k v)
    (hlt : bytewiseLt k (costEntry dummyType 0) = false) : IsCostEntry (k, v) ∨ IsFeeEntry (k, v) := by
  cases hk with
  | number n => exact absurd hlt (by decide)
  | init b => exact absurd hlt (by decide)
  | freeze s b =>
    exact absurd hlt (by rw [freezeEntry, costEntry, bytewiseLt_cons_of_lt (by decide)]; decide)
  | cost a ht hh => exact .inl ⟨_, _, a, ht, hh, rfl⟩
  | fee s hh => exact .inr ⟨_, s, hh, rfl⟩

/-- From `FeeEntry()` on, a database holds fee entries only. -/
theorem StoredKey.feeScan {k : Bytes} {v : Value} (hk : StoredKey k v)
    (hlt : bytewiseLt k (feeEntry 0) = false) : IsFeeEntry (k, v) := by
  cases hk with
  | number n => exact absurd hlt (by decide)
  | init b => exact absurd hlt (by decide)
  | freeze s b =>
    exact absurd hlt (by rw [freezeEntry, feeEntry, bytewiseLt_cons_of_lt (by decide)]; decide)
  | cost a ht hh => exact absurd hlt (by rw [costEntry_lt_feeEntry]; decide)
  | fee s hh => exact ⟨_, s, hh, rfl⟩

/-- Every entry of the database has a key of the five families, with its kind of value. -/
def WellKeyed (db : GovernanceDB) : Prop := ∀ e ∈ db.entries, StoredKey e.1 e.2

namespace WellKeyed

variable {db : GovernanceDB}

theorem write (hdb : WellKeyed db) {k : Bytes} {v : Value} (hk : StoredKey k v) :
    WellKeyed (db.write k v) := fun e he => by
  rcases (mem_insertEntry db.sorted k v e).1 he with rfl | ⟨he, -⟩
  · exact hk
  · exact hdb e he

theorem erase (hdb : WellKeyed db) (k : Bytes) : WellKeyed (db.erase k) :=
  fun e he => hdb e (List.mem_of_mem_filter he)

theorem costScan (hdb : WellKeyed db) :
    ∀ e ∈ db.seek (costEntry dummyType 0), IsCostEntry e ∨ IsFeeEntry e := fun e he => by
  rw [mem_seek] at he
  exact (hdb e he.1).costScan he.2

/-- No cost entry comes after a fee entry. -/
theorem costScan_ord (hdb : WellKeyed db) :
    (db.seek (costEntry dummyType 0)).Pairwise fun a b => IsFeeEntry a → IsFeeEntry b := by
  refine (db.sorted.sublist (List.filter_sublist _)).imp_of_mem fun {a b} _ hb hab ha => ?_
  rcases hdb.costScan b hb with ⟨t, h, c, -, -, rfl⟩ | hfee
  · obtain ⟨h', s, -, rfl⟩ := ha
    simp [bytewiseLt_asymm (costEntry_lt_feeEntry t h h')] at hab
  · exact hfee

theorem feeScan (hdb : WellKeyed db) : ∀ e ∈ db.seek (feeEntry 0), IsFeeEntry e :=
  fun e he => by
    rw [mem_seek] at he
    exact (hdb e he.1).feeScan he.2

/-- `GetCost` on a well-keyed database is the running maximum of its cost entries of the type. -/
theorem getCost_eq_latest (hdb : WellKeyed db) (type : Int) :
    getCost db type = latest (costsOf type (db.seek (costEntry dummyType 0))) (-1) 0 :=
  getCostLoop_eq_latest type hdb.costScan hdb.costScan_ord (-1) 0

theorem getFeeScript_eq_latest (hdb : WellKeyed db) :
    getFeeScript db = latest (feesOf (db.seek (feeEntry 0))) (-1) dummyScript :=
  getFeeScriptLoop_eq_latest hdb.feeScan (-1) dummyScript

/-- The scan of `GetCost(type)` sees exactly the stored cost entries of `type`. -/
theorem mem_costsOf (hdb : WellKeyed db) {type : Int} (ht : InInt32 type) {q : Int × Int} :
    q ∈ costsOf type (db.seek (costEntry dummyType 0)) ↔
      InInt32 q.1 ∧ db.read (costEntry type q.1) = some (.amount q.2) := by
  constructor
  · intro hq
    obtain ⟨e, he, hf⟩ := List.mem_filterMap.1 hq
    rcases hdb.costScan e he with ⟨t, h, a, ht', hh, rfl⟩ | ⟨h, s, hh, rfl⟩
    · rw [getCostEntry_costEntry ht' hh] at hf
      dsimp only at hf
      split_ifs at hf with htt
      cases hf
      subst htt
      exact ⟨hh, (read_eq_some_iff _ _ _).2 ((mem_seek _ _ _).1 he).1⟩
    · rw [getCostEntry_feeEntry hh] at hf
      cases hf
  · rintro ⟨hh, hread⟩
    refine List.mem_filterMap.2 ⟨(costEntry type q.1, .amount q.2),
      (mem_seek _ _ _).2 ⟨(read_eq_some_iff _ _ _).1 hread, costEntry_not_lt _ _⟩, ?_⟩
    rw [getCostEntry_costEntry ht hh]
    simp

/-- The scan of `GetFeeScript()` sees exactly the stored fee entries. -/
theorem mem_feesOf (hdb : WellKeyed db) {q : Int × Bytes} :
    q ∈ feesOf (db.seek (feeEntry 0)) ↔ InInt32 q.1 ∧ db.read (feeEntry q.1) = some (.script q.2) := by
  constructor
  · intro hq
    obtain ⟨e, he, hf⟩ := List.mem_filterMap.1 hq
    obtain ⟨h, s, hh, rfl⟩ := hdb.feeScan e he
    rw [getFeeEntry_feeEntry hh] at hf
    cases hf
    exact ⟨hh, (read_eq_some_iff _ _ _).2 ((mem_seek _ _ _).1 he).1⟩
  · rintro ⟨hh, hread⟩
    refine List.mem_filterMap.2 ⟨(feeEntry q.1, .script q.2),
      (mem_seek _ _ _).2 ⟨(read_eq_some_iff _ _ _).1 hread, feeEntry_not_lt _⟩, ?_⟩
    rw [getFeeEntry_feeEntry hh]

end WellKeyed

/-! ## Reachable databases -/

/-- The arguments of an operation as its C++ signature types them: `int` types and heights. -/
def GovernanceOp.IntArgs : GovernanceOp → Prop
  | .updateCost _ t h => InInt32 t ∧ InInt32 h
  | .updateFeeScript _ h => InInt32 h
  | .freezeScript _ | .unfreezeScript _ => True

/-- The databases that `Init(true, P)` followed by any sequence of governance operations and
their reverts produces. -/
inductive Reachable (p : GovernanceParams) : GovernanceDB → Prop
  | init : Reachable p (initial p)
  | apply {db : GovernanceDB} (op : GovernanceOp) : op.IntArgs → Reachable p db →
      Reachable p (op.apply db).2
  | revert {db : GovernanceDB} (op : GovernanceOp) : op.IntArgs → Reachable p db →
      Reachable p (op.revert db).2

theorem wellKeyed_initial (p : GovernanceParams) : WellKeyed (initial p) := by
  have h0 : WellKeyed (Store.empty : GovernanceDB) := fun _ h => nomatch h
  have hz : InInt32 0 := by decide
  exact (((((((((h0.write (.number 0)).write (.freeze dummyScript true)).write
    (.cost 0 hz hz)).write (.cost p.rootFeeAmount (by decide) hz)).write
    (.cost p.subFeeAmount (by decide) hz)).write (.cost p.uniqueFeeAmount (by decide) hz)).write
    (.cost p.reissueFeeAmount (by decide) hz)).write
    (.cost p.usernameFeeAmount (by decide) hz)).write (.fee p.tokenFeeScript hz)).write (.init true)

namespace WellKeyed

variable {db : GovernanceDB}

/-- Every operation writes keys of the five families. -/
theorem apply (hdb : WellKeyed db) (op : GovernanceOp) (hop : op.IntArgs) :
    WellKeyed (op.apply db).2 := by
  cases op with
  | freezeScript s =>
    simp only [GovernanceOp.apply, freezeScript_eq]
    split_ifs
    · exact hdb.write (.freeze s true)
    · exact (hdb.write (.freeze s true)).write (.number _)
  | unfreezeScript s =>
    simp only [GovernanceOp.apply, unfreezeScript_eq]
    split_ifs
    · exact (hdb.write (.freeze s false)).write (.number _)
    · exact hdb.write (.freeze s false)
  | updateCost c t h =>
    simp only [GovernanceOp.apply, updateCost]
    split_ifs
    · split
      · exact hdb
      · exact hdb.write (.cost c hop.1 hop.2)
    · exact hdb
  | updateFeeScript s h =>
    simp only [GovernanceOp.apply, updateFeeScript]
    split
    · exact hdb
    · exact hdb.write (.fee s hop)

/-- Every revert writes keys of the five families, or erases. -/
theorem revert (hdb : WellKeyed db) (op : GovernanceOp) : WellKeyed (op.revert db).2 := by
  cases op with
  | freezeScript s =>
    simp only [GovernanceOp.revert, revertFreezeScript_eq]
    split_ifs
    · exact (hdb.write (.number _)).write (.freeze s false)
    · exact hdb
  | unfreezeScript s =>
    simp only [GovernanceOp.revert, revertUnfreezeScript_eq]
    split_ifs
    · exact (hdb.write (.number _)).write (.freeze s true)
    · exact hdb
  | updateCost c t h =>
    simp only [GovernanceOp.revert, revertUpdateCost]
    split
    · exact hdb.erase _
    · exact hdb
  | updateFeeScript s h =>
    simp only [GovernanceOp.revert, revertUpdateFeeScript]
    split
    · exact hdb.erase _
    · exact hdb

end WellKeyed

theorem Reachable.wellKeyed {p : GovernanceParams} {db : GovernanceDB} (hr : Reachable p db) :
    WellKeyed db := by
  induction hr with
  | init => exact wellKeyed_initial p
  | apply op hop _ ih => exact ih.apply op hop
  | revert op _ _ ih => exact ih.revert op

/-! ## The readers on reachable databases -/

section Readers

variable {p : GovernanceParams} {db : GovernanceDB} (hr : Reachable p db)
include hr

/-- `GetCost(type)` returns the amount under the greatest height `h ≥ 0` stored for `type`. -/
theorem Reachable.getCost_eq {type h a : Int} (ht : InInt32 type) (hh : InInt32 h) (h0 : 0 ≤ h)
    (hread : db.read (costEntry type h) = some (.amount a))
    (hmax : ∀ h', InInt32 h' → h < h' → db.read (costEntry type h') = none) :
    getCost db type = a := by
  have hdb := hr.wellKeyed
  rw [hdb.getCost_eq_latest]
  refine latest_eq_of_max ((hdb.mem_costsOf ht).2 ⟨hh, hread⟩) (fun q hq => ?_)
    (fun q hq hqh => ?_) (by omega) 0
  · obtain ⟨hq, hqr⟩ := (hdb.mem_costsOf ht).1 hq
    by_contra hlt
    simp [hmax q.1 hq (by omega)] at hqr
  · obtain ⟨-, hqr⟩ := (hdb.mem_costsOf ht).1 hq
    rw [hqh, hread] at hqr
    cases hqr
    rfl

/-- With no height `h ≥ 0` stored for `type`, `GetCost(type)` returns `CostDetails()`'s 0. -/
theorem Reachable.getCost_eq_zero {type : Int} (ht : InInt32 type)
    (hnone : ∀ h, InInt32 h → 0 ≤ h → db.read (costEntry type h) = none) : getCost db type = 0 := by
  rw [hr.wellKeyed.getCost_eq_latest]
  refine latest_eq_of_le 0 fun q hq => ?_
  obtain ⟨hq, hqr⟩ := (hr.wellKeyed.mem_costsOf ht).1 hq
  by_contra hlt
  simp [hnone q.1 hq (by omega)] at hqr

/-- `GetFeeScript()` returns the script under the greatest fee height `h ≥ 0`. -/
theorem Reachable.getFeeScript_eq {h : Int} {s : Bytes} (hh : InInt32 h) (h0 : 0 ≤ h)
    (hread : db.read (feeEntry h) = some (.script s))
    (hmax : ∀ h', InInt32 h' → h < h' → db.read (feeEntry h') = none) :
    getFeeScript db = s := by
  have hdb := hr.wellKeyed
  rw [hdb.getFeeScript_eq_latest]
  refine latest_eq_of_max (hdb.mem_feesOf.2 ⟨hh, hread⟩) (fun q hq => ?_)
    (fun q hq hqh => ?_) (by omega) dummyScript
  · obtain ⟨hq, hqr⟩ := hdb.mem_feesOf.1 hq
    by_contra hlt
    simp [hmax q.1 hq (by omega)] at hqr
  · obtain ⟨-, hqr⟩ := hdb.mem_feesOf.1 hq
    rw [hqh, hread] at hqr
    cases hqr
    rfl

/-- With no fee height `h ≥ 0` stored, `GetFeeScript()` returns `DUMMY_SCRIPT`. -/
theorem Reachable.getFeeScript_eq_dummy
    (hnone : ∀ h, InInt32 h → 0 ≤ h → db.read (feeEntry h) = none) :
    getFeeScript db = dummyScript := by
  rw [hr.wellKeyed.getFeeScript_eq_latest]
  refine latest_eq_of_le dummyScript fun q hq => ?_
  obtain ⟨hq, hqr⟩ := hr.wellKeyed.mem_feesOf.1 hq
  by_contra hlt
  simp [hnone q.1 hq (by omega)] at hqr

/-- On every database that `Init(true, P)` and any sequence of governance operations and their
reverts produce, `GetCost(type)` returns the amount under the greatest height `h ≥ 0` stored
for `type`, or `CostDetails()`'s 0 when there is none, and `GetFeeScript()` the script under the
greatest fee height `h ≥ 0`, or `DUMMY_SCRIPT` when there is none. -/
theorem Reachable.readers_return_latest {type : Int} (ht : InInt32 type) :
    (∀ h a, InInt32 h → 0 ≤ h → db.read (costEntry type h) = some (.amount a) →
      (∀ h', InInt32 h' → h < h' → db.read (costEntry type h') = none) → getCost db type = a) ∧
    ((∀ h, InInt32 h → 0 ≤ h → db.read (costEntry type h) = none) → getCost db type = 0) ∧
    (∀ h s, InInt32 h → 0 ≤ h → db.read (feeEntry h) = some (.script s) →
      (∀ h', InInt32 h' → h < h' → db.read (feeEntry h') = none) → getFeeScript db = s) ∧
    ((∀ h, InInt32 h → 0 ≤ h → db.read (feeEntry h) = none) → getFeeScript db = dummyScript) :=
  ⟨fun _ _ hh h0 => hr.getCost_eq ht hh h0, hr.getCost_eq_zero ht,
    fun _ _ hh h0 => hr.getFeeScript_eq hh h0, hr.getFeeScript_eq_dummy⟩

end Readers

theorem Reachable.readers_return_latest_initial :
    Reachable mainGovernanceParams (initial mainGovernanceParams) ∧ InInt32 governanceCostRoot ∧
      (∀ h a, InInt32 h → 0 ≤ h →
        (initial mainGovernanceParams).read (costEntry governanceCostRoot h) = some (.amount a) →
        (∀ h', InInt32 h' → h < h' →
          (initial mainGovernanceParams).read (costEntry governanceCostRoot h') = none) →
        getCost (initial mainGovernanceParams) governanceCostRoot = a) ∧
      ((∀ h, InInt32 h → 0 ≤ h →
          (initial mainGovernanceParams).read (costEntry governanceCostRoot h) = none) →
        getCost (initial mainGovernanceParams) governanceCostRoot = 0) ∧
      (∀ h s, InInt32 h → 0 ≤ h → (initial mainGovernanceParams).read (feeEntry h) = some (.script s) →
        (∀ h', InInt32 h' → h < h' → (initial mainGovernanceParams).read (feeEntry h') = none) →
        getFeeScript (initial mainGovernanceParams) = s) ∧
      ((∀ h, InInt32 h → 0 ≤ h → (initial mainGovernanceParams).read (feeEntry h) = none) →
        getFeeScript (initial mainGovernanceParams) = dummyScript) :=
  ⟨.init, by decide, Reachable.readers_return_latest .init (by decide)⟩

/-! ## What `Init` stores -/

/-- The entries `Init(true, P)` writes, in key order. -/
theorem entries_initial (p : GovernanceParams) :
    (initial p).entries =
      [(tagKey dbGovernanceInit, .flag true), (tagKey dbNumberFrozen, .number 0),
       (freezeEntry dummyScript, .flag true), (costEntry dummyType 0, .amount 0),
       (costEntry governanceCostRoot 0, .amount p.rootFeeAmount),
       (costEntry governanceCostReissue 0, .amount p.subFeeAmount),
       (costEntry governanceCostUnique 0, .amount p.uniqueFeeAmount),
       (costEntry governanceCostSub 0, .amount p.reissueFeeAmount),
       (costEntry governanceCostUsername 0, .amount p.usernameFeeAmount),
       (feeEntry 0, .script p.tokenFeeScript)] :=
  rfl

/-- The costs and the fee script `Init(true, P)` leaves: each type the fee amount of its name,
except that `REISSUE` gets `SubFeeAmount` and `SUB` gets `ReissueFeeAmount`. -/
theorem getCost_initial (p : GovernanceParams) :
    getCost (initial p) governanceCostRoot = p.rootFeeAmount ∧
      getCost (initial p) governanceCostReissue = p.subFeeAmount ∧
      getCost (initial p) governanceCostUnique = p.uniqueFeeAmount ∧
      getCost (initial p) governanceCostSub = p.reissueFeeAmount ∧
      getCost (initial p) governanceCostUsername = p.usernameFeeAmount ∧
      getFeeScript (initial p) = p.tokenFeeScript := by
  simp only [getCost, getFeeScript, seek, entries_initial]
  exact ⟨rfl, rfl, rfl, rfl, rfl, rfl⟩

/-- On the main network a reissue costs the sub-token fee, 100 coins, rather than the reissue
fee of 10000, and a sub-token the reissue fee. -/
theorem main_reissue_cost_is_sub_fee :
    getCost (initial mainGovernanceParams) governanceCostReissue = 100 * 100000000 ∧
      mainGovernanceParams.reissueFeeAmount = 10000 * 100000000 ∧
      getCost (initial mainGovernanceParams) governanceCostSub = 10000 * 100000000 ∧
      mainGovernanceParams.subFeeAmount = 100 * 100000000 :=
  ⟨(getCost_initial _).2.1, rfl, (getCost_initial _).2.2.2.1, rfl⟩

end AokChain
