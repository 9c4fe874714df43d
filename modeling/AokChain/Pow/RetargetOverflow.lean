import AokChain.Pow.Retarget

/-!
# Overflow of the retarget product

`CalculateNextTargetRequired` multiplies the parent's target by
`(nInterval - 1) * nTargetSpacing + 2 * nActualSpacing` in `arith_uint256`, which wraps modulo
`2^256`, and only then divides by `(nInterval + 1) * nTargetSpacing`. The specification states
the retarget on numbers; `exactNextTarget` is that statement. Where the product stays below
`2^256` the two agree (`calculateNextTargetRequired_eq_exact`). On the main network this holds
for every proof-of-stake parent in range, whose limit is `2^208 - 1`
(`main_pos_retarget_exact`). The proof-of-work limit is `2^246 - 1`, and there a parent at
the limit whose spacing exceeds 64 seconds makes the product wrap (`main_pow_retarget_wraps`).
-/

namespace AokChain

open ArithUint256

/-- The factor of the retarget, `(nInterval - 1) * nTargetSpacing + 2 * nActualSpacing`, with
the clamped spacing between `pindexLast` and the block before it of its kind. -/
def retargetMultiplier (pindexLast : BlockIndex) (nFirstBlockTime : Int)
    (params : ConsensusParams) : Int :=
  let nActualSpacing :=
    clampSpacing (pindexLast.getBlockTime - nFirstBlockTime) params.nTargetSpacing
  (params.nTargetTimespan.tdiv params.nTargetSpacing - 1) * params.nTargetSpacing +
    nActualSpacing + nActualSpacing

/-- The divisor of the retarget, `(nInterval + 1) * nTargetSpacing`. -/
def retargetDivisor (params : ConsensusParams) : Int :=
  (params.nTargetTimespan.tdiv params.nTargetSpacing + 1) * params.nTargetSpacing

/-- The retarget as the specification states it, computed on numbers without wrapping: the
parent's target times the factor, divided by the divisor, rounded down and saturated to
`(0, limit]`. -/
def exactNextTarget (pindexLast : BlockIndex) (nFirstBlockTime : Int)
    (params : ConsensusParams) : ArithUint256 :=
  let limit := getTargetLimit pindexLast.fProofOfStake params
  let x := (setCompact pindexLast.nBits).target.toNat *
    (retargetMultiplier pindexLast nFirstBlockTime params).toNat /
    (retargetDivisor params).toNat
  if x = 0 ∨ limit.toNat < x then limit else BitVec.ofNat 256 x

theorem clampSpacing_bounds (nActualSpacing : Int) {nTargetSpacing : Int}
    (h : 0 ≤ nTargetSpacing) :
    0 ≤ clampSpacing nActualSpacing nTargetSpacing ∧
      clampSpacing nActualSpacing nTargetSpacing ≤ nTargetSpacing * 10 := by
  dsimp only [clampSpacing]
  split_ifs <;> omega

/-- The retarget branch of `CalculateNextTargetRequired`, with its factor and divisor named. -/
theorem calculateNextTargetRequired_of_retarget {params : ConsensusParams} {b : BlockIndex}
    {t : Int}
    (hret : (if b.fProofOfStake then params.fPosNoRetargeting else params.fPowNoRetargeting) =
      false) :
    calculateNextTargetRequired b t params =
      getCompact
        (let x := divInt64 (mulInt64 (setCompact b.nBits).target (retargetMultiplier b t params))
          (retargetDivisor params)
        let limit := getTargetLimit b.fProofOfStake params
        if x ≤ 0 ∨ x > limit then limit else x) false := by
  cases hk : b.fProofOfStake <;> simp only [hk, Bool.false_eq_true, if_false, if_true] at hret <;>
    simp [calculateNextTargetRequired, hk, hret, retargetMultiplier, retargetDivisor]

/-- Where the product does not wrap, `CalculateNextTargetRequired` is the exact saturated
retarget. -/
theorem calculateNextTargetRequired_eq_exact {params : ConsensusParams} {b : BlockIndex}
    {t : Int}
    (hret : (if b.fProofOfStake then params.fPosNoRetargeting else params.fPowNoRetargeting) =
      false)
    (hm : 0 ≤ retargetMultiplier b t params) (hm32 : retargetMultiplier b t params < 2 ^ 32)
    (hd : 0 ≤ retargetDivisor params) (hd64 : retargetDivisor params < 2 ^ 64)
    (hwrap : (setCompact b.nBits).target.toNat * (retargetMultiplier b t params).toNat <
      2 ^ 256) :
    calculateNextTargetRequired b t params = getCompact (exactNextTarget b t params) false := by
  rw [calculateNextTargetRequired_of_retarget hret]
  congr 1
  have hx : (divInt64 (mulInt64 (setCompact b.nBits).target (retargetMultiplier b t params))
      (retargetDivisor params)).toNat = (setCompact b.nBits).target.toNat *
        (retargetMultiplier b t params).toNat / (retargetDivisor params).toNat := by
    rw [divInt64, mulInt64, BitVec.toNat_udiv, BitVec.toNat_mul, BitVec.toNat_ofNat,
      BitVec.toNat_ofNat, Int.emod_eq_of_lt hm hm32, Int.emod_eq_of_lt hd hd64,
      Nat.mod_eq_of_lt (show (retargetMultiplier b t params).toNat < 2 ^ 256 by omega),
      Nat.mod_eq_of_lt hwrap, Nat.mod_eq_of_lt (show (retargetDivisor params).toNat < 2 ^ 256 by
        omega)]
  generalize divInt64 _ _ = x at hx
  have h0 : (0 : ArithUint256).toNat = 0 := rfl
  have hcond : x ≤ 0 ∨ x > getTargetLimit b.fProofOfStake params ↔
      x.toNat = 0 ∨ (getTargetLimit b.fProofOfStake params).toNat < x.toNat := by
    rw [BitVec.le_def, gt_iff_lt, BitVec.lt_def, h0, Nat.le_zero]
  simp only [exactNextTarget, ← hx]
  by_cases hs : x.toNat = 0 ∨ (getTargetLimit b.fProofOfStake params).toNat < x.toNat
  · rw [if_pos (hcond.2 hs), if_pos hs]
  · rw [if_neg (mt hcond.1 hs), if_neg hs]
    exact BitVec.eq_of_toNat_eq (by rw [BitVec.toNat_ofNat, Nat.mod_eq_of_lt x.isLt])

/-- On the main network the proof-of-stake retarget never wraps: for every parent whose
`nBits` passes the proof-of-stake range test and every pair of block times, it is the exact
saturated retarget. -/
theorem main_pos_retarget_exact {b : BlockIndex} (hpos : b.fProofOfStake = true)
    (hb : InRange Network.main.consensus.posLimit b.nBits) (t : Int) :
    calculateNextTargetRequired b t Network.main.consensus =
      getCompact (exactNextTarget b t Network.main.consensus) false := by
  have hc := clampSpacing_bounds (b.getBlockTime - t) (show (0 : Int) ≤ 64 by decide)
  have hm : retargetMultiplier b t Network.main.consensus =
      14 * 64 + clampSpacing (b.getBlockTime - t) 64 + clampSpacing (b.getBlockTime - t) 64 :=
    rfl
  have hT : (setCompact b.nBits).target.toNat ≤ 2 ^ 208 - 1 := BitVec.le_def.1 hb.le_limit
  refine calculateNextTargetRequired_eq_exact (by simp [hpos, Network.consensus]) (by omega)
    (by omega) (by decide) (by decide) ?_
  calc (setCompact b.nBits).target.toNat * (retargetMultiplier b t Network.main.consensus).toNat
      ≤ (2 ^ 208 - 1) * 2176 := Nat.mul_le_mul hT (by omega)
    _ < 2 ^ 256 := by decide

theorem main_pos_retarget_exact_limit :
    calculateNextTargetRequired ⟨0x1b00ffff, 1589879291, true⟩ 1589879227
        Network.main.consensus =
      getCompact (exactNextTarget ⟨0x1b00ffff, 1589879291, true⟩ 1589879227
        Network.main.consensus) false :=
  main_pos_retarget_exact rfl ⟨by decide, by decide, by decide, by decide⟩ _

/-- On the main network, take two proof-of-work blocks after the genesis block, both at the
limit target, the second 65 seconds after the first. The retarget's product for the next
block is at least `2^256`. The `nBits` `GetNextTargetRequired` asks of that block is
`0x1e1ffeff`, a target about 512 times smaller than the limit. The exact saturated retarget
is the limit itself, `0x1f3fffff`. -/
theorem main_pow_retarget_wraps :
    let first : BlockIndex := ⟨0x1f3fffff, 1589879291, false⟩
    let second : BlockIndex := ⟨0x1f3fffff, 1589879356, false⟩
    PowChain .main [second, first, Network.main.genesis] ∧
      InRange Network.main.consensus.powLimit second.nBits ∧
      2 ^ 256 ≤ (setCompact second.nBits).target.toNat *
        (retargetMultiplier second first.getBlockTime Network.main.consensus).toNat ∧
      getNextTargetRequired [second, first, Network.main.genesis] false Network.main.consensus =
        0x1e1ffeff ∧
      getCompact (exactNextTarget second first.getBlockTime Network.main.consensus) false =
        0x1f3fffff :=
  ⟨.extend _ (.extend _ .genesis fun _ => by decide) (fun _ => by decide),
    ⟨by decide, by decide, by decide, by decide⟩, by decide, by decide, by decide⟩

end AokChain
