import AokChain.Pow.ArithUint256

/-!
# `SoloMiner`'s nonce search

For one block template `SoloMiner` hashes the header for `nNonce = 0, 1, 2, …`. The inner loop
stops at a solution, or after a step that wraps the nonce's low byte to zero, so after at
most 256 hashes. Between two rounds the miner asks the node whether to give the template up
(no peers, a nonce at or past `0xffff0000`, a changed mempool, a new tip), and moves `nTime`
forward with `UpdateTime`, giving up as well when the clock has run backwards.

The node's answers are a list, one for each round (`RoundEnv`); a run is cut where the list
ends, as `interruption_point` would cut it. The test `UintToArith256(hash) <= hashTarget` is a
parameter `checkHash` of the header's time and nonce, the only fields the search changes.

`0xffff0000` is a multiple of 256, so the check between rounds sees the nonce reach it
exactly: the 32-bit nonce never wraps and a nonce that missed the target is never hashed again
(`search_nonce_never_wraps`), and without a solution the search reads at most `0xffff00`
answers (`search_reads_at_most`).

A solution does not end the search. After `ProcessBlockFound` the loop checks the same
answers, and the nonce is not stepped past the solution. While the node says go on, which it
does when it did not take the block, and the clock stays where the header's time is, every
round hashes the same header again and hands it to `ProcessBlockFound` again
(`search_resubmits_found`). Only a chain that mines blocks on demand leaves at a solution.
-/

namespace AokChain

namespace Miner

/-- The fields of `CBlockHeader` that the search writes. -/
structure Header where
  nTime : UInt32
  nNonce : UInt32
  deriving DecidableEq, Repr

/-- `UpdateTime(pblock, consensusParams, pindexPrev)`: moves `nTime` forward to the larger of
`pindexPrev->GetPastTimeLimit() + 1` and `GetAdjustedTime()`, and returns how far that is from
the old time. The `uint32_t` field keeps the low 32 bits of the new time. -/
def updateTime (h : Header) (pastTimeLimit adjustedTime : Int) : Header × Int :=
  let nOldTime : Int := h.nTime.toNat
  let nNewTime := max (pastTimeLimit + 1) adjustedTime
  (if nOldTime < nNewTime then { h with nTime := UInt32.ofNat nNewTime.toNat } else h,
    nNewTime - nOldTime)

@[simp] theorem updateTime_nNonce (h : Header) (pastTimeLimit adjustedTime : Int) :
    (updateTime h pastTimeLimit adjustedTime).1.nNonce = h.nNonce := by
  simp only [updateTime]
  split_ifs <;> rfl

/-- After `UpdateTime` the time is past `pastTimeLimit`, where the new time fits the field. -/
theorem updateTime_nTime_gt (h : Header) {pastTimeLimit adjustedTime : Int}
    (hfit : max (pastTimeLimit + 1) adjustedTime < 2 ^ 32) :
    pastTimeLimit < (updateTime h pastTimeLimit adjustedTime).1.nTime.toNat := by
  simp only [updateTime]
  split_ifs with hlt
  · rw [uint32_toNat_ofNat]
    omega
  · omega

/-- The fuel of one round: the low byte of the nonce takes at most 256 values. -/
def roundFuel : Nat := 256

/-- The inner loop of the search, from the nonce `nNonce`: hash, stop on a solution, otherwise
step the nonce and stop when its low byte has wrapped to zero. Returns the nonce, whether the
round found a solution, and the nonces whose header it hashed. -/
def hashRound (checkHash : UInt32 → Bool) : Nat → UInt32 → Option (UInt32 × Bool × List UInt32)
  | 0, _ => none
  | fuel + 1, nNonce =>
    if checkHash nNonce then some (nNonce, true, [nNonce])
    else if (nNonce + 1) &&& 0xFF = 0 then some (nNonce + 1, false, [nNonce])
    else (hashRound checkHash fuel (nNonce + 1)).map fun r => (r.1, r.2.1, nNonce :: r.2.2)

/-- What the node answers at the end of a round. -/
structure RoundEnv where
  /-- `connman.GetNodeCount(CConnman::CONNECTIONS_ALL) == 0` -/
  noPeers : Bool
  /-- `mempool.GetTransactionsUpdated() != nTransactionsUpdatedLast && GetTime() - nStart > 60` -/
  mempoolChanged : Bool
  /-- `pindexPrev != chainActive.Tip()` -/
  tipChanged : Bool
  /-- `GetAdjustedTime()` -/
  adjustedTime : Int
  deriving DecidableEq, Repr

/-- The search loop of `SoloMiner` for one template, one round for each of the node's answers
`envs`. A solution is handed to `ProcessBlockFound`; on a chain that mines blocks on demand
the thread then stops. Returns the header and the headers hashed, in order. -/
def searchLoop (checkHash : UInt32 → UInt32 → Bool) (mineBlocksOnDemand : Bool)
    (pastTimeLimit : Int) : List RoundEnv → Header → Option (Header × List Header)
  | [], h => some (h, [])
  | env :: envs, h =>
    match hashRound (checkHash h.nTime) roundFuel h.nNonce with
    | none => none
    | some (nNonce, found, hashed) =>
      let hashedHeaders := hashed.map fun n => { h with nNonce := n }
      if found && mineBlocksOnDemand then some ({ h with nNonce }, hashedHeaders)
      else if env.noPeers || 0xffff0000 ≤ nNonce || env.mempoolChanged || env.tipChanged then
        some ({ h with nNonce }, hashedHeaders)
      else
        let updated := updateTime { h with nNonce } pastTimeLimit env.adjustedTime
        if updated.2 < 0 then some (updated.1, hashedHeaders)
        else (searchLoop checkHash mineBlocksOnDemand pastTimeLimit envs updated.1).map
          fun r => (r.1, hashedHeaders ++ r.2)

/-! ### One round -/

theorem toNat_lowByte_succ (n : UInt32) : ((n + 1) &&& 0xFF).toNat = (n.toNat + 1) % 256 := by
  rw [UInt32.and_toNat, UInt32.toNat_add,
    show (0xFF : UInt32).toNat = 2 ^ 8 - 1 from rfl, Nat.and_pow_two_sub_one_eq_mod]
  simp only [UInt32.size, show (1 : UInt32).toNat = 1 from rfl]
  omega

theorem lowByte_succ_eq_zero_iff (n : UInt32) :
    (n + 1) &&& 0xFF = 0 ↔ (n.toNat + 1) % 256 = 0 := by
  rw [← toNat_lowByte_succ]
  exact ⟨fun h => by rw [h]; rfl, fun h => UInt32.toNat.inj h⟩

/-- A step that leaves the low byte nonzero does not wrap, and steps the low byte. -/
theorem toNat_succ_of_lowByte (n : UInt32) (h : (n.toNat + 1) % 256 ≠ 0) :
    (n + 1).toNat = n.toNat + 1 ∧ (n + 1).toNat % 256 = n.toNat % 256 + 1 := by
  have := n.toNat_lt
  rw [UInt32.toNat_add]
  simp only [UInt32.size, show (1 : UInt32).toNat = 1 from rfl] at *
  omega

/-- From every nonce, a round returns within the 256 hashes of `roundFuel`. -/
theorem hashRound_isSome {checkHash : UInt32 → Bool} :
    ∀ {fuel : Nat} {n : UInt32}, 256 - n.toNat % 256 ≤ fuel →
      (hashRound checkHash fuel n).isSome
  | 0, n, h => absurd h (by omega)
  | fuel + 1, n, h => by
    unfold hashRound
    split_ifs with hc hw
    · rfl
    · rfl
    · rw [lowByte_succ_eq_zero_iff] at hw
      rw [Option.isSome_map']
      exact hashRound_isSome (by rw [(toNat_succ_of_lowByte n hw).2]; omega)

/-- What one round does: it hashes the nonces `n, n + 1, …` up to the end of `n`'s block of
256, and stops early only at a solution, which it returns; otherwise it returns the nonce
after the block, modulo `2 ^ 32`. -/
theorem hashRound_spec {checkHash : UInt32 → Bool} :
    ∀ {fuel : Nat} {n n' : UInt32} {found : Bool} {hashed : List UInt32},
      hashRound checkHash fuel n = some (n', found, hashed) →
      hashed.map UInt32.toNat = List.range' n.toNat hashed.length ∧
      0 < hashed.length ∧ n.toNat % 256 + hashed.length ≤ 256 ∧
      if found then checkHash n' = true ∧ n'.toNat + 1 = n.toNat + hashed.length
      else n'.toNat = (n.toNat + hashed.length) % 2 ^ 32 ∧ n.toNat % 256 + hashed.length = 256
  | 0, _, _, _, _, h => nomatch h
  | fuel + 1, n, n', found, hashed, h => by
    have hlt := n.toNat_lt
    unfold hashRound at h
    split_ifs at h with hc hw
    · -- a solution
      simp only [Option.some.injEq, Prod.mk.injEq] at h
      obtain ⟨rfl, rfl, rfl⟩ := h
      exact ⟨by simp, by simp, by simp; omega, hc, rfl⟩
    · -- the low byte wraps
      simp only [Option.some.injEq, Prod.mk.injEq] at h
      obtain ⟨rfl, rfl, rfl⟩ := h
      rw [lowByte_succ_eq_zero_iff] at hw
      refine ⟨by simp, by simp, by simp; omega, ?_, by simp; omega⟩
      rw [UInt32.toNat_add]
      simp [UInt32.size]
    · -- the next nonce
      rw [lowByte_succ_eq_zero_iff] at hw
      obtain ⟨hn, hlow⟩ := toNat_succ_of_lowByte n hw
      obtain ⟨⟨n'', found', hashed'⟩, hr, heq⟩ := Option.map_eq_some'.1 h
      simp only [Prod.mk.injEq] at heq
      obtain ⟨rfl, rfl, rfl⟩ := heq
      obtain ⟨hmap, -, hlen, hend⟩ := hashRound_spec hr
      rw [hlow] at hlen hend
      rw [hn] at hend hmap
      simp only [List.map_cons, List.length_cons, List.range'_succ, hmap, true_and]
      refine ⟨by omega, by omega, ?_⟩
      split_ifs at hend ⊢
      · exact ⟨hend.1, by omega⟩
      · exact ⟨by rw [hend.1]; ring_nf, by omega⟩

/-- A round from a nonce below `0xffff0000` hashes rising nonces below `0xffff0000` and ends at a
nonce no larger; every nonce it hashes is at most the one it ends at, and below it if its header
missed the target. -/
theorem hashRound_below {checkHash : UInt32 → Bool} {n n' : UInt32} {found : Bool}
    {hashed : List UInt32} (hr : hashRound checkHash roundFuel n = some (n', found, hashed))
    (hn : n.toNat < 0xffff0000) :
    n.toNat ≤ n'.toNat ∧ n'.toNat ≤ 0xffff0000 ∧ hashed.Pairwise (fun a b => a.toNat < b.toNat) ∧
      ∀ a ∈ hashed, n.toNat ≤ a.toNat ∧ a.toNat < 0xffff0000 ∧ a.toNat ≤ n'.toNat ∧
        (checkHash a = false → a.toNat < n'.toNat) := by
  obtain ⟨hmap, hpos, hlen, hend⟩ := hashRound_spec hr
  have hrange := List.pairwise_lt_range' n.toNat hashed.length
  rw [← hmap, List.pairwise_map] at hrange
  refine ⟨by split_ifs at hend <;> omega, by split_ifs at hend <;> omega, hrange, fun a ha => ?_⟩
  obtain ⟨h1, h2⟩ := List.mem_range'_1.1 (hmap ▸ List.mem_map_of_mem UInt32.toNat ha)
  split_ifs at hend
  · -- the round found a solution at `n'`, so a nonce that missed is not `n'`
    have hne (hc : checkHash a = false) : a.toNat ≠ n'.toNat := fun e => by
      rw [UInt32.toNat.inj e, hend.1] at hc
      exact Bool.noConfusion hc
    exact ⟨h1, by omega, by omega, fun hc => by have := hne hc; omega⟩
  · exact ⟨h1, by omega, by omega, fun _ => by omega⟩

/-! ### The search -/

theorem lt_of_not_le_stop {n : UInt32} (h : ¬0xffff0000 ≤ n) : n.toNat < 0xffff0000 := by
  rw [UInt32.le_def, BitVec.le_def] at h
  exact Nat.lt_of_not_le h

/-- From a nonce below `0xffff0000` (`CreateNewBlock` starts at 0), whatever the node answers,
the search returns, and the nonces it hashes stay below `0xffff0000`, so that `nNonce += 1`
never wraps; a nonce is never below one hashed before it, and a nonce whose header missed the
target is below every nonce hashed after it. -/
theorem search_nonce_never_wraps (checkHash : UInt32 → UInt32 → Bool) (mineBlocksOnDemand : Bool)
    (pastTimeLimit : Int) :
    ∀ (envs : List RoundEnv) {h : Header}, h.nNonce.toNat < 0xffff0000 →
      ∃ h' hashed, searchLoop checkHash mineBlocksOnDemand pastTimeLimit envs h = some (h', hashed) ∧
        (∀ a ∈ hashed, h.nNonce.toNat ≤ a.nNonce.toNat ∧ a.nNonce.toNat < 0xffff0000) ∧
        hashed.Pairwise fun a b => a.nNonce.toNat ≤ b.nNonce.toNat ∧
          (checkHash a.nTime a.nNonce = false → a.nNonce.toNat < b.nNonce.toNat)
  | [], h, _ => ⟨h, [], rfl, by simp, List.Pairwise.nil⟩
  | env :: envs, h, hstart => by
    obtain ⟨⟨n', found, hashed⟩, hr⟩ := Option.isSome_iff_exists.1
      (@hashRound_isSome (checkHash h.nTime) roundFuel h.nNonce (by unfold roundFuel; omega))
    obtain ⟨hle', -, hpw, hmem⟩ := hashRound_below hr hstart
    -- the round's own headers
    have hbound : ∀ a ∈ hashed.map fun n => { h with nNonce := n },
        h.nNonce.toNat ≤ a.nNonce.toNat ∧ a.nNonce.toNat < 0xffff0000 := by
      simp only [List.mem_map]
      rintro _ ⟨a, ha, rfl⟩
      exact ⟨(hmem a ha).1, (hmem a ha).2.1⟩
    have hround : (hashed.map fun n => { h with nNonce := n }).Pairwise fun a b =>
        a.nNonce.toNat ≤ b.nNonce.toNat ∧
          (checkHash a.nTime a.nNonce = false → a.nNonce.toNat < b.nNonce.toNat) := by
      rw [List.pairwise_map]
      exact hpw.imp fun hab => ⟨hab.le, fun _ => hab⟩
    simp only [searchLoop, hr]
    split_ifs with hdemand hstop hback
    · exact ⟨_, _, rfl, hbound, hround⟩
    · exact ⟨_, _, rfl, hbound, hround⟩
    · exact ⟨_, _, rfl, hbound, hround⟩
    · -- the next round starts at `n'`, below `0xffff0000`
      simp only [Bool.or_eq_true, decide_eq_true_eq, not_or] at hstop
      obtain ⟨h'', rest, hrest, hbound', hpair⟩ := search_nonce_never_wraps checkHash
        mineBlocksOnDemand pastTimeLimit envs
        (h := (updateTime { h with nNonce := n' } pastTimeLimit env.adjustedTime).1)
        (by rw [updateTime_nNonce]; exact lt_of_not_le_stop hstop.1.1.2)
      rw [updateTime_nNonce] at hbound'
      dsimp only at hbound'
      rw [hrest]
      refine ⟨_, _, rfl, ?_, List.pairwise_append.2 ⟨hround, hpair, ?_⟩⟩
      · intro a ha
        rcases List.mem_append.1 ha with ha | ha
        · exact hbound a ha
        · have := hbound' a ha
          exact ⟨by omega, this.2⟩
      · simp only [List.mem_map]
        rintro _ ⟨a, ha, rfl⟩ b hb
        dsimp only
        have := (hbound' b hb).1
        obtain ⟨-, -, hle, hlt⟩ := hmem a ha
        exact ⟨by omega, fun hc => by have := hlt hc; omega⟩

theorem search_nonce_never_wraps_fromZero :
    (0 : UInt32).toNat < 0xffff0000 ∧
      ∃ h' hashed, searchLoop (fun _ n => n == 3) false 0 [⟨false, false, false, 0⟩] ⟨0, 0⟩ =
          some (h', hashed) ∧
        (∀ a ∈ hashed, (0 : UInt32).toNat ≤ a.nNonce.toNat ∧ a.nNonce.toNat < 0xffff0000) ∧
        hashed.Pairwise fun a b => a.nNonce.toNat ≤ b.nNonce.toNat ∧
          ((a.nNonce == 3) = false → a.nNonce.toNat < b.nNonce.toNat) :=
  ⟨by decide, search_nonce_never_wraps (fun _ n => n == 3) false 0 [⟨false, false, false, 0⟩]
    (h := ⟨0, 0⟩) (by decide)⟩

/-- A round from a nonce whose header meets the target hashes that header alone and stops on
it. -/
theorem hashRound_of_found {checkHash : UInt32 → Bool} {n : UInt32} (h : checkHash n = true) :
    hashRound checkHash roundFuel n = some (n, true, [n]) := by
  simp [roundFuel, hashRound, h]

/-- Where the header meets the target, the chain does not mine blocks on demand, and every
answer of the node says go on with the clock at the header's time, the search hashes the same
header in every round and hands it to `ProcessBlockFound` again: as many times as the node
answers, never moving past the solution. -/
theorem search_resubmits_found (checkHash : UInt32 → UInt32 → Bool) (pastTimeLimit : Int)
    {h : Header} (hfound : checkHash h.nTime h.nNonce = true) (hn : h.nNonce.toNat < 0xffff0000) :
    ∀ envs : List RoundEnv, (∀ env ∈ envs, env.noPeers = false ∧ env.mempoolChanged = false ∧
        env.tipChanged = false ∧ max (pastTimeLimit + 1) env.adjustedTime = h.nTime.toNat) →
      searchLoop checkHash false pastTimeLimit envs h = some (h, List.replicate envs.length h)
  | [], _ => rfl
  | env :: envs, henvs => by
    obtain ⟨hp, hm, ht, hclock⟩ := henvs env (List.mem_cons_self _ _)
    -- `UpdateTime` leaves the header as it is and reports no change of the clock
    have hupd : updateTime h pastTimeLimit env.adjustedTime = (h, 0) := by
      simp [updateTime, hclock]
    have hstop : ¬0xffff0000 ≤ h.nNonce := by
      rw [UInt32.le_def, BitVec.le_def]
      exact Nat.not_le_of_lt hn
    simp [searchLoop, hashRound_of_found hfound, hp, hm, ht, hstop, hupd,
      search_resubmits_found checkHash pastTimeLimit hfound hn envs fun e he => henvs e (.tail _ he)]
    rfl

theorem search_resubmits_found_twice :
    ((fun _ n => n == 0 : UInt32 → UInt32 → Bool) 5 0 = true) ∧ (0 : UInt32).toNat < 0xffff0000 ∧
      (∀ env ∈ [(⟨false, false, false, 5⟩ : RoundEnv), ⟨false, false, false, 5⟩],
        env.noPeers = false ∧ env.mempoolChanged = false ∧ env.tipChanged = false ∧
          max (4 + 1) env.adjustedTime = (5 : UInt32).toNat) ∧
      searchLoop (fun _ n => n == 0) false 4 [⟨false, false, false, 5⟩, ⟨false, false, false, 5⟩]
          ⟨5, 0⟩ = some (⟨5, 0⟩, [⟨5, 0⟩, ⟨5, 0⟩]) :=
  ⟨rfl, by decide, by decide, search_resubmits_found (fun _ n => n == 0) 4 (h := ⟨5, 0⟩) rfl
    (by decide) [⟨false, false, false, 5⟩, ⟨false, false, false, 5⟩] (by decide)⟩

/-- Where no header meets the target, the search from a nonce below `0xffff0000` reads at most
`(0xffff0000 - nNonce + 255) / 256` of the node's answers, `0xffff00` from `CreateNewBlock`'s
0: what the node answers after them changes nothing. -/
theorem search_reads_at_most (checkHash : UInt32 → UInt32 → Bool) (mineBlocksOnDemand : Bool)
    (pastTimeLimit : Int) (hmiss : ∀ t n, checkHash t n = false) :
    ∀ (envs : List RoundEnv) {h : Header}, h.nNonce.toNat < 0xffff0000 →
      searchLoop checkHash mineBlocksOnDemand pastTimeLimit envs h =
        searchLoop checkHash mineBlocksOnDemand pastTimeLimit
          (envs.take ((0xffff0000 - h.nNonce.toNat + 255) / 256)) h
  | [], h, _ => by rw [List.take_nil]
  | env :: envs, h, hstart => by
    obtain ⟨k, hk⟩ : ∃ k, (0xffff0000 - h.nNonce.toNat + 255) / 256 = k + 1 :=
      ⟨_, (Nat.succ_pred_eq_of_pos (by omega)).symm⟩
    rw [hk, List.take_succ_cons]
    obtain ⟨⟨n', found, hashed⟩, hr⟩ := Option.isSome_iff_exists.1
      (@hashRound_isSome (checkHash h.nTime) roundFuel h.nNonce (by unfold roundFuel; omega))
    obtain ⟨-, -, hlen, hend⟩ := hashRound_spec hr
    -- no round finds a solution, so each one ends at the next multiple of 256
    obtain rfl : found = false := by
      cases found
      · rfl
      · simp [hmiss] at hend
    rw [if_neg Bool.false_ne_true] at hend
    simp only [searchLoop, hr]
    split_ifs with hdemand hstop hback
    · rfl
    · rfl
    · rfl
    · simp only [Bool.or_eq_true, decide_eq_true_eq, not_or] at hstop
      have hlt := lt_of_not_le_stop hstop.1.1.2
      have hnext : (0xffff0000 - n'.toNat + 255) / 256 = k := by omega
      rw [search_reads_at_most checkHash mineBlocksOnDemand pastTimeLimit hmiss envs
        (h := (updateTime { h with nNonce := n' } pastTimeLimit env.adjustedTime).1)
        (by rw [updateTime_nNonce]; exact hlt)]
      simp only [updateTime_nNonce, hnext]

theorem search_reads_at_most_fromZero :
    (∀ t n : UInt32, (fun _ _ => false : UInt32 → UInt32 → Bool) t n = false) ∧
      (0 : UInt32).toNat < 0xffff0000 ∧
      searchLoop (fun _ _ => false) false 0 [⟨false, false, false, 0⟩, ⟨true, false, false, 0⟩]
          ⟨0, 0⟩ =
        searchLoop (fun _ _ => false) false 0
          ([⟨false, false, false, 0⟩, ⟨true, false, false, 0⟩].take
            ((0xffff0000 - (0 : UInt32).toNat + 255) / 256)) ⟨0, 0⟩ :=
  ⟨fun _ _ => rfl, by decide, search_reads_at_most (fun _ _ => false) false 0 (fun _ _ => rfl)
    [⟨false, false, false, 0⟩, ⟨true, false, false, 0⟩] (h := ⟨0, 0⟩) (by decide)⟩

end Miner

end AokChain
