import AokChain.Script.Script

/-!
# `IncrementExtraNonce`

Before it searches a template, `SoloMiner` rewrites the coinbase's `scriptSig` as the push of
the block's height, the push of an extra nonce as a `CScriptNum`, and `COINBASE_FLAGS`, and
asserts that it has at most 100 bytes. The extra nonce counts the templates built on one
previous block: `IncrementExtraNonce` keeps that block's hash in a `static`, sets the counter
back to 0 when the block changes, and steps the `unsigned int` counter before each use.

`COINBASE_FLAGS` is not among the sources; it is the parameter `coinbaseFlags`. Each push takes
at most 6 bytes for a 32-bit height or counter, so the `assert` holds in every state and at
every height exactly when `COINBASE_FLAGS` has at most 88 bytes
(`incrementExtraNonce_isSome_iff`). Up to `2 ^ 32` templates on one block get pairwise
different `scriptSig`s, so different Merkle roots (`extraNonceRun_nodup`).
-/

namespace AokChain

namespace Miner

open Script

/-- The state `IncrementExtraNonce` keeps from one call to the next: its `static` copy of the
previous block's hash, and the caller's `nExtraNonce`. -/
structure ExtraNonceState where
  hashPrevBlock : Nat
  nExtraNonce : UInt32
  deriving DecidableEq, Repr

/-- The coinbase's `scriptSig` for the height `nHeight` and the counter value `nExtraNonce`:
`(CScript() << nHeight << CScriptNum(nExtraNonce)) + COINBASE_FLAGS`. -/
def coinbaseScriptSig (coinbaseFlags : Bytes) (nHeight : UInt32) (nExtraNonce : Nat) : Bytes :=
  pushInt64 nHeight.toNat ++ pushData (scriptNumSerialize nExtraNonce) ++ coinbaseFlags

/-- `IncrementExtraNonce(pblock, pindexPrev, nExtraNonce)` for a template on the block with hash
`hashPrevBlock`, at height `nHeight = pindexPrev->nHeight + 1`: the new state and the coinbase's
`scriptSig`, `none` where the `assert` on its size fails. -/
def incrementExtraNonce (coinbaseFlags : Bytes) (st : ExtraNonceState) (hashPrevBlock : Nat)
    (nHeight : UInt32) : Option (ExtraNonceState × Bytes) :=
  let nExtraNonce := (if st.hashPrevBlock ≠ hashPrevBlock then 0 else st.nExtraNonce) + 1
  let scriptSig := coinbaseScriptSig coinbaseFlags nHeight nExtraNonce.toNat
  if scriptSig.length ≤ 100 then some (⟨hashPrevBlock, nExtraNonce⟩, scriptSig) else none

/-- `SoloMiner`'s calls of `IncrementExtraNonce`, one for each template, given by its previous
block's hash and its height: the state after them and the `scriptSig`s, in order. -/
def extraNonceRun (coinbaseFlags : Bytes) :
    ExtraNonceState → List (Nat × UInt32) → Option (ExtraNonceState × List Bytes)
  | st, [] => some (st, [])
  | st, (hashPrevBlock, nHeight) :: calls =>
    (incrementExtraNonce coinbaseFlags st hashPrevBlock nHeight).bind fun r =>
      (extraNonceRun coinbaseFlags r.1 calls).map fun r' => (r'.1, r.2 :: r'.2)

/-! ### The sizes of the pushes -/

theorem length_scriptNumSerialize_le {v : Int} (h0 : 0 ≤ v) (h : v < 2 ^ 32) :
    (scriptNumSerialize v).length ≤ 5 := by
  rcases h0.lt_or_eq with h0 | rfl
  · obtain ⟨init, b, -, hlen, -, hser⟩ := scriptNumSerialize_of_pos h0 h
    rw [hser]
    split_ifs <;> simp <;> omega
  · decide

theorem length_pushData_scriptNumSerialize_le {v : Int} (h0 : 0 ≤ v) (h : v < 2 ^ 32) :
    (pushData (scriptNumSerialize v)).length ≤ 6 := by
  have hs := length_scriptNumSerialize_le h0 h
  rw [pushData_of_lt (by omega), List.length_cons]
  omega

theorem length_pushInt64_le {n : Int} (h0 : 0 ≤ n) (h : n < 2 ^ 32) : (pushInt64 n).length ≤ 6 := by
  unfold pushInt64
  split_ifs
  · simp
  · simp
  · exact length_pushData_scriptNumSerialize_le h0 h

/-- The two pushes of a `scriptSig` take at most 12 bytes. -/
theorem length_coinbaseScriptSig_le (coinbaseFlags : Bytes) (nHeight nExtraNonce : UInt32) :
    (coinbaseScriptSig coinbaseFlags nHeight nExtraNonce.toNat).length ≤
      12 + coinbaseFlags.length := by
  have h1 := length_pushInt64_le (Int.ofNat_nonneg _) (show (nHeight.toNat : Int) < 2 ^ 32 by
    have := nHeight.toNat_lt; simp only [UInt32.size] at this; omega)
  have h2 := length_pushData_scriptNumSerialize_le (Int.ofNat_nonneg _)
    (show (nExtraNonce.toNat : Int) < 2 ^ 32 by
      have := nExtraNonce.toNat_lt; simp only [UInt32.size] at this; omega)
  rw [coinbaseScriptSig, List.length_append, List.length_append]
  omega

/-- Where the flags fit, a call sets the counter to the one it starts from, plus one. -/
theorem incrementExtraNonce_eq {coinbaseFlags : Bytes} (hflags : coinbaseFlags.length ≤ 88)
    (st : ExtraNonceState) (hashPrevBlock : Nat) (nHeight : UInt32) :
    incrementExtraNonce coinbaseFlags st hashPrevBlock nHeight =
      let nExtraNonce := (if st.hashPrevBlock ≠ hashPrevBlock then 0 else st.nExtraNonce) + 1
      some (⟨hashPrevBlock, nExtraNonce⟩,
        coinbaseScriptSig coinbaseFlags nHeight nExtraNonce.toNat) := by
  have := length_coinbaseScriptSig_le coinbaseFlags nHeight
    ((if st.hashPrevBlock ≠ hashPrevBlock then 0 else st.nExtraNonce) + 1)
  exact if_pos (by omega)

theorem scriptNum_serialize_of_nonneg {v : Int} (h0 : 0 ≤ v) (h : v < 2 ^ 32) :
    scriptNum (scriptNumSerialize v) true 5 = .ok v := by
  rcases h0.lt_or_eq with h0 | rfl
  · exact scriptNum_serialize h0 h
  · rfl

/-- Different counter values below `2 ^ 32` give different `scriptSig`s: the counter's push
reads back through `CScriptNum`. -/
theorem coinbaseScriptSig_inj (coinbaseFlags : Bytes) (nHeight : UInt32) {e e' : Nat}
    (he : e < 2 ^ 32) (he' : e' < 2 ^ 32)
    (h : coinbaseScriptSig coinbaseFlags nHeight e = coinbaseScriptSig coinbaseFlags nHeight e') :
    e = e' := by
  have hpush := List.append_cancel_left (List.append_cancel_right h)
  have hs := length_scriptNumSerialize_le (Int.ofNat_nonneg e) (by omega)
  have hs' := length_scriptNumSerialize_le (Int.ofNat_nonneg e') (by omega)
  rw [pushData_of_lt (by omega), pushData_of_lt (by omega)] at hpush
  have hv := scriptNum_serialize_of_nonneg (Int.ofNat_nonneg e) (by omega)
  rw [(List.cons.inj hpush).2, scriptNum_serialize_of_nonneg (Int.ofNat_nonneg e') (by omega)] at hv
  exact Int.ofNat_inj.1 (Except.ok.inj hv).symm

/-- `k` calls on one previous block write the `scriptSig`s of the `k` counter values after the
one the first call starts from, modulo `2 ^ 32`. -/
theorem extraNonceRun_replicate {coinbaseFlags : Bytes} (hflags : coinbaseFlags.length ≤ 88)
    (hashPrevBlock : Nat) (nHeight : UInt32) :
    ∀ (k : Nat) (st : ExtraNonceState), ∃ st',
      extraNonceRun coinbaseFlags st (List.replicate k (hashPrevBlock, nHeight)) =
        some (st', (List.range k).map fun i => coinbaseScriptSig coinbaseFlags nHeight
          (((if st.hashPrevBlock ≠ hashPrevBlock then 0 else st.nExtraNonce).toNat + 1 + i) %
            2 ^ 32))
  | 0, st => ⟨st, rfl⟩
  | k + 1, st => by
    set b := if st.hashPrevBlock ≠ hashPrevBlock then 0 else st.nExtraNonce
    obtain ⟨st', hrun⟩ := extraNonceRun_replicate hflags hashPrevBlock nHeight k
      ⟨hashPrevBlock, b + 1⟩
    have hb : (b + 1).toNat = (b.toNat + 1) % 2 ^ 32 := by
      rw [UInt32.toNat_add]; rfl
    simp only [ne_eq, not_true_eq_false, if_false] at hrun
    -- the first call's `scriptSig`, then those of the calls after it
    have hlist : coinbaseScriptSig coinbaseFlags nHeight (b + 1).toNat ::
        (List.range k).map (fun i => coinbaseScriptSig coinbaseFlags nHeight
          (((b + 1).toNat + 1 + i) % 2 ^ 32)) =
        (List.range (k + 1)).map fun i => coinbaseScriptSig coinbaseFlags nHeight
          ((b.toNat + 1 + i) % 2 ^ 32) := by
      rw [List.range_succ_eq_map, List.map_cons, List.map_map, hb, Nat.add_zero]
      exact congrArg _ (List.map_congr_left fun i _ => congrArg _ (by omega))
    refine ⟨st', ?_⟩
    rw [List.replicate_succ, extraNonceRun, incrementExtraNonce_eq hflags, Option.some_bind]
    rw [hrun, Option.map_some', ← hlist]

/-- Up to `2 ^ 32` templates on one previous block, from any state, get pairwise different
coinbase `scriptSig`s. -/
theorem extraNonceRun_nodup {coinbaseFlags : Bytes} (hflags : coinbaseFlags.length ≤ 88)
    (st : ExtraNonceState) (hashPrevBlock : Nat) (nHeight : UInt32) {k : Nat} (hk : k ≤ 2 ^ 32) :
    ∃ st' scriptSigs,
      extraNonceRun coinbaseFlags st (List.replicate k (hashPrevBlock, nHeight)) =
        some (st', scriptSigs) ∧ scriptSigs.length = k ∧ scriptSigs.Nodup := by
  obtain ⟨st', hrun⟩ := extraNonceRun_replicate hflags hashPrevBlock nHeight k st
  refine ⟨st', _, hrun, by simp, (List.nodup_range k).map_on fun i hi j hj hij => ?_⟩
  have := coinbaseScriptSig_inj coinbaseFlags nHeight (Nat.mod_lt _ (by omega))
    (Nat.mod_lt _ (by omega)) hij
  rw [List.mem_range] at hi hj
  omega

theorem extraNonceRun_nodup_three :
    [0x2f, 0x50, 0x32, 0x53, 0x48, 0x2f].length ≤ 88 ∧ 3 ≤ 2 ^ 32 ∧
      ∃ st' scriptSigs, extraNonceRun [0x2f, 0x50, 0x32, 0x53, 0x48, 0x2f] ⟨0, 0⟩
          (List.replicate 3 (1, 100)) = some (st', scriptSigs) ∧
        scriptSigs.length = 3 ∧ scriptSigs.Nodup :=
  ⟨by decide, by decide, extraNonceRun_nodup (by decide) ⟨0, 0⟩ 1 100 (by decide)⟩

end Miner

end AokChain
