import Mathlib

/-!
# The mempool, as the block assembler reads it

The block assembler reads, of each mempool entry, its size, weight, fee, modified fee and
signature-operation cost, and the aggregates the mempool keeps over the entry and its
in-mempool ancestors. Of the mempool it reads the entries in the order of the
`ancestor_score` index, the ancestors of an entry (`CalculateMemPoolAncestors` without limits)
and the descendants of one (`CalculateDescendants`). The mempool's own code is not among the
sources, so what it guarantees is stated here as `TxMemPool.Valid`: the parent relation is
acyclic, `CalculateMemPoolAncestors` returns exactly the entries above an entry along it, and
each aggregate is the sum over the entry and those ancestors.
-/

namespace AokChain

namespace Miner

/-- `CTxMemPoolEntry`, by what its getters return; `id` stands for the transaction's hash. -/
structure TxMemPoolEntry where
  id : Nat
  txSize : Nat
  txWeight : Nat
  fee : Int
  modifiedFee : Int
  sigOpCost : Nat
  countWithAncestors : Nat
  sizeWithAncestors : Nat
  modFeesWithAncestors : Int
  sigOpCostWithAncestors : Nat
  deriving DecidableEq, Repr

/-- `CTxMemPool`, as far as the block assembler reads it. -/
structure TxMemPool where
  /-- `mapTx`, in the order of its `ancestor_score` index. -/
  mapTx : List TxMemPoolEntry
  /-- `GetMemPoolParents`: the in-mempool transactions an entry spends from. -/
  parents : TxMemPoolEntry → List TxMemPoolEntry
  /-- `CalculateMemPoolAncestors(entry, ancestors, nNoLimit, ...)`. -/
  calculateMemPoolAncestors : TxMemPoolEntry → List TxMemPoolEntry

namespace TxMemPool

variable (m : TxMemPool)

/-- `a` is an in-mempool ancestor of `x`: it is reached from `x` along the parent relation. -/
def IsAncestor : TxMemPoolEntry → TxMemPoolEntry → Prop :=
  Relation.TransGen fun a x => a ∈ m.parents x

/-- Modelled from the spec: `CalculateDescendants(it, descendants)`, the entry and every entry
it is an ancestor of. -/
def calculateDescendants (it : TxMemPoolEntry) : List TxMemPoolEntry :=
  m.mapTx.filter fun d => d = it ∨ it ∈ m.calculateMemPoolAncestors d

/-- The mempool's ancestor invariants: the parent relation is acyclic and stays inside the
pool, `CalculateMemPoolAncestors` returns each ancestor once, and an entry's count, size,
modified fee and signature-operation cost with ancestors are the sums over the entry and its
ancestors. -/
structure Valid : Prop where
  nodup : m.mapTx.Nodup
  parents_mem : ∀ x ∈ m.mapTx, ∀ p ∈ m.parents x, p ∈ m.mapTx
  acyclic : ∀ x, ¬m.IsAncestor x x
  ancestors_nodup : ∀ x ∈ m.mapTx, (m.calculateMemPoolAncestors x).Nodup
  mem_ancestors : ∀ x ∈ m.mapTx, ∀ a, a ∈ m.calculateMemPoolAncestors x ↔ m.IsAncestor a x
  count : ∀ x ∈ m.mapTx, x.countWithAncestors = (m.calculateMemPoolAncestors x).length + 1
  size : ∀ x ∈ m.mapTx,
    x.sizeWithAncestors = x.txSize + ((m.calculateMemPoolAncestors x).map (·.txSize)).sum
  modFees : ∀ x ∈ m.mapTx, x.modFeesWithAncestors =
    x.modifiedFee + ((m.calculateMemPoolAncestors x).map (·.modifiedFee)).sum
  sigOpCost : ∀ x ∈ m.mapTx, x.sigOpCostWithAncestors =
    x.sigOpCost + ((m.calculateMemPoolAncestors x).map (·.sigOpCost)).sum

variable {m}

/-- The empty mempool. -/
def empty : TxMemPool := ⟨[], fun _ => [], fun _ => []⟩

theorem empty_valid : empty.Valid where
  nodup := List.nodup_nil
  parents_mem := by simp [empty]
  acyclic x h := by
    rcases h with h | ⟨_, h⟩ <;> simp [empty] at h
  ancestors_nodup := by simp [empty]
  mem_ancestors := by simp [empty]
  count := by simp [empty]
  size := by simp [empty]
  modFees := by simp [empty]
  sigOpCost := by simp [empty]

theorem mem_calculateDescendants {it d : TxMemPoolEntry} :
    d ∈ m.calculateDescendants it ↔
      d ∈ m.mapTx ∧ (d = it ∨ it ∈ m.calculateMemPoolAncestors d) := by
  simp [calculateDescendants]

section Valid

variable (hm : m.Valid)
include hm

theorem isAncestor_mem {a x : TxMemPoolEntry} (h : m.IsAncestor a x) (hx : x ∈ m.mapTx) :
    a ∈ m.mapTx := by
  induction h with
  | single hp => exact hm.parents_mem _ hx _ hp
  | tail _ hbc ih => exact ih (hm.parents_mem _ hx _ hbc)

theorem ancestor_mem {a x : TxMemPoolEntry} (hx : x ∈ m.mapTx)
    (ha : a ∈ m.calculateMemPoolAncestors x) : a ∈ m.mapTx :=
  isAncestor_mem hm ((hm.mem_ancestors x hx a).1 ha) hx

theorem not_mem_ancestors_self {x : TxMemPoolEntry} (hx : x ∈ m.mapTx) :
    x ∉ m.calculateMemPoolAncestors x := fun h =>
  hm.acyclic x ((hm.mem_ancestors x hx x).1 h)

/-- The ancestors of an ancestor are ancestors. -/
theorem ancestors_subset {a x : TxMemPoolEntry} (hx : x ∈ m.mapTx)
    (ha : a ∈ m.calculateMemPoolAncestors x) :
    m.calculateMemPoolAncestors a ⊆ m.calculateMemPoolAncestors x := fun b hb => by
  have hax := (hm.mem_ancestors x hx a).1 ha
  have hba := (hm.mem_ancestors a (ancestor_mem hm hx ha) b).1 hb
  exact (hm.mem_ancestors x hx b).2 (hba.trans hax)

/-- An ancestor has fewer ancestors: it lacks at least itself. -/
theorem countWithAncestors_lt {a x : TxMemPoolEntry} (hx : x ∈ m.mapTx)
    (ha : a ∈ m.calculateMemPoolAncestors x) : a.countWithAncestors < x.countWithAncestors := by
  have hamem := ancestor_mem hm hx ha
  have hsub : a :: m.calculateMemPoolAncestors a ⊆ m.calculateMemPoolAncestors x :=
    List.cons_subset.2 ⟨ha, ancestors_subset hm hx ha⟩
  have hnd : (a :: m.calculateMemPoolAncestors a).Nodup :=
    List.nodup_cons.2 ⟨not_mem_ancestors_self hm hamem, hm.ancestors_nodup a hamem⟩
  have := (List.subperm_of_subset hnd hsub).length_le
  rw [hm.count a hamem, hm.count x hx]
  simp only [List.length_cons] at this
  omega

end Valid

end TxMemPool

end Miner

end AokChain
