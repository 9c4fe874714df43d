import Mathlib

/-!
# The ordered key/value store under the governance database

`CGovernance` extends `CDBWrapper`, a handle on a LevelDB database: an ordered map from byte
strings to values, written through batches and read through point lookups and a seekable
iterator. LevelDB orders keys with its bytewise comparator, so a store is the list of its
entries in strictly increasing key order, and that order is a field of the structure: every
operation returns a store, and no lemma about the governance operations has to re-prove it.

Values are kept typed (`Store α`). Every key family of the governance database holds one
value type, so deserialising a value is reading back what was written under that key.
-/

namespace AokChain

/-- A byte string: a serialized key, or a `CScript`. -/
abbrev Bytes := List UInt8

/-- LevelDB's bytewise comparator: lexicographic on unsigned bytes, a proper prefix first. -/
def bytewiseLt : Bytes → Bytes → Bool
  | [], [] => false
  | [], _ :: _ => true
  | _ :: _, [] => false
  | a :: as, b :: bs => a.toNat < b.toNat || (a = b && bytewiseLt as bs)

@[simp] theorem bytewiseLt_nil_nil : bytewiseLt [] [] = false := rfl

@[simp] theorem bytewiseLt_nil_cons (b : UInt8) (bs : Bytes) :
    bytewiseLt [] (b :: bs) = true := rfl

@[simp] theorem bytewiseLt_cons_nil (a : UInt8) (as : Bytes) :
    bytewiseLt (a :: as) [] = false := rfl

theorem bytewiseLt_cons_cons (a b : UInt8) (as bs : Bytes) :
    bytewiseLt (a :: as) (b :: bs) = (a.toNat < b.toNat || (a = b && bytewiseLt as bs)) := rfl

@[simp] theorem bytewiseLt_irrefl (k : Bytes) : bytewiseLt k k = false := by
  induction k with
  | nil => rfl
  | cons a as ih => simp [bytewiseLt_cons_cons, ih]

theorem bytewiseLt_trans {k₁ k₂ k₃ : Bytes} (h₁ : bytewiseLt k₁ k₂) (h₂ : bytewiseLt k₂ k₃) :
    bytewiseLt k₁ k₃ := by
  induction k₁ generalizing k₂ k₃ with
  | nil => cases k₃ <;> cases k₂ <;> simp_all
  | cons a as ih =>
    cases k₂ with
    | nil => simp at h₁
    | cons b bs =>
      cases k₃ with
      | nil => simp at h₂
      | cons c cs =>
        simp only [bytewiseLt_cons_cons, Bool.or_eq_true, decide_eq_true_eq, Bool.and_eq_true]
          at h₁ h₂ ⊢
        rcases h₁ with h₁ | ⟨rfl, h₁⟩ <;> rcases h₂ with h₂ | ⟨rfl, h₂⟩
        · exact .inl (by omega)
        · exact .inl h₁
        · exact .inl h₂
        · exact .inr ⟨rfl, ih h₁ h₂⟩

theorem bytewiseLt_asymm {k₁ k₂ : Bytes} (h : bytewiseLt k₁ k₂) : bytewiseLt k₂ k₁ = false := by
  cases h' : bytewiseLt k₂ k₁
  · rfl
  · simpa using bytewiseLt_trans h h'

theorem bytewiseLt_total {k₁ k₂ : Bytes} (h : k₁ ≠ k₂) :
    bytewiseLt k₁ k₂ ∨ bytewiseLt k₂ k₁ := by
  induction k₁ generalizing k₂ with
  | nil => cases k₂ <;> simp_all
  | cons a as ih =>
    cases k₂ with
    | nil => simp
    | cons b bs =>
      simp only [bytewiseLt_cons_cons, Bool.or_eq_true, decide_eq_true_eq, Bool.and_eq_true]
      by_cases hab : a = b
      · subst hab
        rcases ih (fun h' => h (by rw [h'])) with h' | h' <;> simp [h']
      · have : a.toNat ≠ b.toNat := fun h' => hab (UInt8.toNat.inj h')
        omega

/-- The entries of a store are in strictly increasing key order. -/
def KeySorted {α : Type} (l : List (Bytes × α)) : Prop :=
  l.Pairwise (fun a b => bytewiseLt a.1 b.1)

theorem KeySorted.unique {α : Type} {l : List (Bytes × α)} (hl : KeySorted l) {k : Bytes}
    {v w : α} (hv : (k, v) ∈ l) (hw : (k, w) ∈ l) : v = w := by
  induction l with
  | nil => cases hv
  | cons e es ih =>
    rw [KeySorted, List.pairwise_cons] at hl
    have hkey : ∀ u, (k, u) ∈ es → e.1 ≠ k := fun u hu h => by simpa [h] using hl.1 _ hu
    rcases List.mem_cons.1 hv with hve | hves <;> rcases List.mem_cons.1 hw with hwe | hwes
    · rw [← hve] at hwe; exact (Prod.ext_iff.1 hwe).2.symm
    · exact absurd (by rw [← hve]) (hkey w hwes)
    · exact absurd (by rw [← hwe]) (hkey v hves)
    · exact ih hl.2 hves hwes

/-- Two sorted entry lists with the same members are equal. -/
theorem KeySorted.eq_of_mem_iff {α : Type} {l₁ l₂ : List (Bytes × α)} (h₁ : KeySorted l₁)
    (h₂ : KeySorted l₂) (h : ∀ x, x ∈ l₁ ↔ x ∈ l₂) : l₁ = l₂ := by
  induction l₁ generalizing l₂ with
  | nil =>
    cases l₂ with
    | nil => rfl
    | cons b bs => simpa using (h b).2 (List.mem_cons_self _ _)
  | cons a as ih =>
    cases l₂ with
    | nil => simpa using (h a).1 (List.mem_cons_self _ _)
    | cons b bs =>
      rw [KeySorted, List.pairwise_cons] at h₁ h₂
      have hab : a = b := by
        rcases List.mem_cons.1 ((h a).1 (List.mem_cons_self _ _)) with hab | ha
        · exact hab
        rcases List.mem_cons.1 ((h b).2 (List.mem_cons_self _ _)) with hba | hb
        · exact hba.symm
        · simpa [bytewiseLt_asymm (h₂.1 a ha)] using h₁.1 b hb
      subst hab
      have hne : ∀ {l : List (Bytes × α)}, (∀ y ∈ l, bytewiseLt a.1 y.1) → ∀ x ∈ l, x ≠ a :=
        fun hl x hx hxa => by simpa [hxa] using hl x hx
      refine congrArg _ (ih h₁.2 h₂.2 fun x => ⟨fun hx => ?_, fun hx => ?_⟩)
      · exact (List.mem_cons.1 ((h x).1 (List.mem_cons_of_mem _ hx))).resolve_left
          (hne h₁.1 x hx)
      · exact (List.mem_cons.1 ((h x).2 (List.mem_cons_of_mem _ hx))).resolve_left
          (hne h₂.1 x hx)

/-- A LevelDB database with values of type `α`: its entries in key order. -/
structure Store (α : Type) where
  entries : List (Bytes × α)
  sorted : KeySorted entries

namespace Store

variable {α : Type}

/-- The empty database. -/
def empty : Store α := ⟨[], List.Pairwise.nil⟩

/-- Writing `v` under `k` into a sorted entry list: replace the entry of `k`, or insert one
before the first larger key. -/
def insertEntry (k : Bytes) (v : α) : List (Bytes × α) → List (Bytes × α)
  | [] => [(k, v)]
  | e :: es =>
    if bytewiseLt e.1 k then e :: insertEntry k v es
    else if e.1 = k then (k, v) :: es
    else (k, v) :: e :: es

theorem mem_insertEntry {l : List (Bytes × α)} (hl : KeySorted l) (k : Bytes) (v : α)
    (x : Bytes × α) : x ∈ insertEntry k v l ↔ x = (k, v) ∨ (x ∈ l ∧ x.1 ≠ k) := by
  induction l with
  | nil => simp [insertEntry]
  | cons e es ih =>
    rw [KeySorted, List.pairwise_cons] at hl
    simp only [insertEntry]
    split_ifs with hlt heq
    · rw [List.mem_cons, ih hl.2, List.mem_cons]
      constructor
      · rintro (rfl | h | ⟨h, hk⟩)
        · exact .inr ⟨.inl rfl, fun h => by simp [h] at hlt⟩
        · exact .inl h
        · exact .inr ⟨.inr h, hk⟩
      · rintro (h | ⟨rfl | h, hk⟩)
        · exact .inr (.inl h)
        · exact .inl rfl
        · exact .inr (.inr ⟨h, hk⟩)
    · subst heq
      have hes : ∀ y ∈ es, y.1 ≠ e.1 := fun y hy h => by simpa [h] using hl.1 y hy
      simp only [List.mem_cons]
      constructor
      · rintro (rfl | h)
        · exact .inl rfl
        · exact .inr ⟨.inr h, hes x h⟩
      · rintro (rfl | ⟨rfl | h, hk⟩)
        · exact .inl rfl
        · exact absurd rfl hk
        · exact .inr h
    · simp only [List.mem_cons]
      constructor
      · rintro (rfl | rfl | h)
        · exact .inl rfl
        · exact .inr ⟨.inl rfl, heq⟩
        · exact .inr ⟨.inr h, fun hk => hlt (by simpa [hk] using hl.1 x h)⟩
      · rintro (rfl | ⟨rfl | h, _⟩)
        · exact .inl rfl
        · exact .inr (.inl rfl)
        · exact .inr (.inr h)

theorem insertEntry_sorted {l : List (Bytes × α)} (hl : KeySorted l) (k : Bytes) (v : α) :
    KeySorted (insertEntry k v l) := by
  induction l with
  | nil => exact List.pairwise_singleton _ _
  | cons e es ih =>
    have hl' := hl
    rw [KeySorted, List.pairwise_cons] at hl'
    simp only [insertEntry]
    split_ifs with hlt heq
    · refine List.pairwise_cons.2 ⟨fun y hy => ?_, ih hl'.2⟩
      rcases (mem_insertEntry hl'.2 k v y).1 hy with rfl | ⟨hy, _⟩
      · exact hlt
      · exact hl'.1 y hy
    · subst heq
      exact List.pairwise_cons.2 ⟨hl'.1, hl'.2⟩
    · have hke : bytewiseLt k e.1 := by
        rcases bytewiseLt_total heq with h | h
        · simp [h] at hlt
        · exact h
      refine List.pairwise_cons.2 ⟨fun y hy => ?_, hl⟩
      rcases List.mem_cons.1 hy with rfl | hy
      · exact hke
      · exact bytewiseLt_trans hke (hl'.1 y hy)

/-- `Write(k, v)`. -/
def write (s : Store α) (k : Bytes) (v : α) : Store α :=
  ⟨insertEntry k v s.entries, insertEntry_sorted s.sorted k v⟩

/-- `Erase(k)`. -/
def erase (s : Store α) (k : Bytes) : Store α :=
  ⟨s.entries.filter (fun e => e.1 ≠ k), s.sorted.sublist (List.filter_sublist _)⟩

/-- `Read(k, value)`: the value stored under `k`, if any. -/
def read (s : Store α) (k : Bytes) : Option α :=
  (s.entries.find? (fun e => e.1 = k)).map Prod.snd

/-- `Exists(k)`. -/
def «exists» (s : Store α) (k : Bytes) : Bool :=
  (s.read k).isSome

/-- The entries an iterator visits after `Seek(k)`: those at or after `k`, in key order. -/
def seek (s : Store α) (k : Bytes) : List (Bytes × α) :=
  s.entries.filter (fun e => !bytewiseLt e.1 k)

theorem read_eq_some_iff (s : Store α) (k : Bytes) (v : α) :
    s.read k = some v ↔ (k, v) ∈ s.entries := by
  constructor
  · intro h
    obtain ⟨e, he, rfl⟩ := Option.map_eq_some'.1 h
    have hk : e.1 = k := by simpa using List.find?_some he
    rw [← hk]
    exact List.mem_of_find?_eq_some he
  · intro h
    cases he : s.entries.find? (fun e => e.1 = k) with
    | none => simpa using List.find?_eq_none.1 he _ h
    | some e =>
      have hk : e.1 = k := by simpa using List.find?_some he
      have hmem : (k, e.2) ∈ s.entries := by rw [← hk]; exact List.mem_of_find?_eq_some he
      simp [read, he, KeySorted.unique s.sorted hmem h]

theorem read_write (s : Store α) (k k' : Bytes) (v : α) :
    (s.write k v).read k' = if k' = k then some v else s.read k' := by
  refine Option.eq_of_eq_some fun w => ?_
  rw [read_eq_some_iff]
  simp only [write, mem_insertEntry s.sorted, Prod.ext_iff]
  split_ifs with h
  · subst h; simp [eq_comm]
  · simp [h, read_eq_some_iff]

theorem read_erase (s : Store α) (k k' : Bytes) :
    (s.erase k).read k' = if k' = k then none else s.read k' := by
  refine Option.eq_of_eq_some fun w => ?_
  rw [read_eq_some_iff]
  simp only [erase, List.mem_filter, decide_eq_true_eq]
  split_ifs with h
  · simp [h]
  · simp [h, read_eq_some_iff]

@[simp] theorem read_write_self (s : Store α) (k : Bytes) (v : α) :
    (s.write k v).read k = some v := by simp [read_write]

theorem read_write_of_ne (s : Store α) {k k' : Bytes} (v : α) (h : k' ≠ k) :
    (s.write k v).read k' = s.read k' := by simp [read_write, h]

@[simp] theorem read_erase_self (s : Store α) (k : Bytes) : (s.erase k).read k = none := by
  simp [read_erase]

theorem read_erase_of_ne (s : Store α) {k k' : Bytes} (h : k' ≠ k) :
    (s.erase k).read k' = s.read k' := by simp [read_erase, h]

/-- An operation recorded in a `CDBBatch`. -/
inductive BatchOp (α : Type) where
  | write (k : Bytes) (v : α)
  | erase (k : Bytes)

/-- `WriteBatch(batch)`: the batch's operations applied in the order they were recorded. -/
def writeBatch (s : Store α) : List (BatchOp α) → Store α
  | [] => s
  | .write k v :: ops => (s.write k v).writeBatch ops
  | .erase k :: ops => (s.erase k).writeBatch ops

@[simp] theorem writeBatch_nil (s : Store α) : s.writeBatch [] = s := rfl

@[simp] theorem writeBatch_write (s : Store α) (k : Bytes) (v : α) (ops : List (BatchOp α)) :
    s.writeBatch (.write k v :: ops) = (s.write k v).writeBatch ops := rfl

@[simp] theorem writeBatch_erase (s : Store α) (k : Bytes) (ops : List (BatchOp α)) :
    s.writeBatch (.erase k :: ops) = (s.erase k).writeBatch ops := rfl

theorem mem_seek (s : Store α) (k : Bytes) (x : Bytes × α) :
    x ∈ s.seek k ↔ x ∈ s.entries ∧ bytewiseLt x.1 k = false := by
  simp [seek]

/-- What an iterator visits after `Seek(k)` depends only on the keys at or after `k`. -/
theorem seek_congr {s₁ s₂ : Store α} {k : Bytes}
    (h : ∀ k', bytewiseLt k' k = false → s₁.read k' = s₂.read k') : s₁.seek k = s₂.seek k := by
  refine KeySorted.eq_of_mem_iff (s₁.sorted.sublist (List.filter_sublist _))
    (s₂.sorted.sublist (List.filter_sublist _)) fun x => ?_
  rw [mem_seek, mem_seek, ← read_eq_some_iff, ← read_eq_some_iff]
  constructor
  · rintro ⟨hx, hk⟩; exact ⟨(h x.1 hk) ▸ hx, hk⟩
  · rintro ⟨hx, hk⟩; exact ⟨(h x.1 hk).symm ▸ hx, hk⟩

end Store

end AokChain
