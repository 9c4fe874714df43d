import AokChain.Pow.ArithUint256

/-!
# The retarget engine and the proof-of-work range check

`GetNextTargetRequired` gives the `nBits` a new block of a kind (proof of work or proof of
stake) must carry: the kind's limit for the first two blocks of the kind, and otherwise
`CalculateNextTargetRequired` of the last two, an exponential moving average of the target on
the spacing between them. `CheckProofOfWork` accepts a hash against `nBits` when `nBits`
decodes to a target in `(0, powLimit]` and the hash is at most that target.

A chain of block indexes is the list of its blocks, tip first, so that the tail of a chain is
its tip's `pprev` chain and the last block is the genesis block. `PowChain` is a chain built
from a network's genesis block in which every proof-of-work block carries the `nBits` the
retarget asks of it, and the main result (`powChain_inRange`) is that every such block passes
the range test, so that `CheckProofOfWork` rejects it only on its hash.
-/

namespace AokChain

open ArithUint256

/-- The fields of `Consensus::Params` the retarget engine and `CheckProofOfWork` read. -/
structure ConsensusParams where
  powLimit : ArithUint256
  posLimit : ArithUint256
  nTargetTimespan : Int
  nTargetSpacing : Int
  fPowNoRetargeting : Bool
  fPosNoRetargeting : Bool

/-- The fields of a `CBlockIndex` the retarget engine reads; `fProofOfStake` is what
`IsProofOfStake()` reports. -/
structure BlockIndex where
  nBits : UInt32
  nTime : UInt32
  fProofOfStake : Bool
  deriving DecidableEq, Repr

/-- `GetBlockTime()`: `nTime` as an `int64_t`. -/
def BlockIndex.getBlockTime (b : BlockIndex) : Int := b.nTime.toNat

/-- Modelled from the spec: `GetLastBlockIndex(pindex, fProofOfStake)`, which walks back
through `pprev` past the blocks of the other kind, but not past the genesis block. Chains are
tip first; the result is the chain that ends at the block found. -/
def getLastBlockIndex (fProofOfStake : Bool) : List BlockIndex → List BlockIndex
  | b :: c :: l =>
    if b.fProofOfStake ≠ fProofOfStake then getLastBlockIndex fProofOfStake (c :: l)
    else b :: c :: l
  | l => l

/-- `GetTargetLimit`: the limit of the block kind. -/
def getTargetLimit (fProofOfStake : Bool) (params : ConsensusParams) : ArithUint256 :=
  if fProofOfStake then params.posLimit else params.powLimit

/-- Modelled from the spec: `arith_uint256::operator*=(uint32_t)` on an `int64_t` factor,
which C++ converts to `uint32_t`. -/
def mulInt64 (a : ArithUint256) (b : Int) : ArithUint256 :=
  a * BitVec.ofNat 256 (b % 2 ^ 32).toNat

/-- Modelled from the spec: `arith_uint256::operator/=` on an `int64_t` divisor, which C++
converts to `uint64_t` and then to `arith_uint256`. -/
def divInt64 (a : ArithUint256) (b : Int) : ArithUint256 :=
  a / BitVec.ofNat 256 (b % 2 ^ 64).toNat

/-- The spacing `CalculateNextTargetRequired` retargets on: a negative spacing counts as
`nTargetSpacing`, and a spacing over `10 * nTargetSpacing` as that bound. -/
def clampSpacing (nActualSpacing nTargetSpacing : Int) : Int :=
  let nActualSpacing := if nActualSpacing < 0 then nTargetSpacing else nActualSpacing
  if nActualSpacing > nTargetSpacing * 10 then nTargetSpacing * 10 else nActualSpacing

/-- `CalculateNextTargetRequired(pindexLast, nFirstBlockTime, params)`. -/
def calculateNextTargetRequired (pindexLast : BlockIndex) (nFirstBlockTime : Int)
    (params : ConsensusParams) : UInt32 :=
  let fProofOfStake := pindexLast.fProofOfStake
  if !fProofOfStake && params.fPowNoRetargeting then pindexLast.nBits
  else if fProofOfStake && params.fPosNoRetargeting then pindexLast.nBits
  else
    let nTargetSpacing := params.nTargetSpacing
    let nActualSpacing :=
      clampSpacing (pindexLast.getBlockTime - nFirstBlockTime) nTargetSpacing
    let bnTargetLimit := getTargetLimit fProofOfStake params
    let bnNew := (setCompact pindexLast.nBits).target
    let nInterval := params.nTargetTimespan.tdiv nTargetSpacing
    let bnNew := mulInt64 bnNew ((nInterval - 1) * nTargetSpacing + nActualSpacing + nActualSpacing)
    let bnNew := divInt64 bnNew ((nInterval + 1) * nTargetSpacing)
    let bnNew := if bnNew ≤ 0 ∨ bnNew > bnTargetLimit then bnTargetLimit else bnNew
    getCompact bnNew false

/-- `GetNextTargetRequired(pindexLast, pblock, fProofOfStake, params)`, with `pindexLast` the
chain that ends at the parent (empty for the genesis block). -/
def getNextTargetRequired (pindexLast : List BlockIndex) (fProofOfStake : Bool)
    (params : ConsensusParams) : UInt32 :=
  let nTargetLimit := getCompact (if fProofOfStake then params.posLimit else params.powLimit) false
  match pindexLast with
  | [] => nTargetLimit
  | _ :: _ =>
    match getLastBlockIndex fProofOfStake pindexLast with
    | pindexPrev :: pprev@(_ :: _) =>
      match getLastBlockIndex fProofOfStake pprev with
      | pindexPrevPrev :: _ :: _ =>
        calculateNextTargetRequired pindexPrev pindexPrevPrev.getBlockTime params
      | _ => nTargetLimit
    | _ => nTargetLimit

/-- `CheckProofOfWork(hash, nBits, params)`. -/
def checkProofOfWork (hash : ArithUint256) (nBits : UInt32) (params : ConsensusParams) : Bool :=
  let d := setCompact nBits
  if d.fNegative || d.target = 0 || d.fOverflow || d.target > params.powLimit then false
  else if hash > d.target then false
  else true

/-! ### The networks of `chainparams.cpp` -/

/-- The networks `chainparams.cpp` defines. -/
inductive Network
  | main
  | testnet
  | regtest
  deriving DecidableEq, Repr

/-- The consensus parameters of each network that the retarget engine reads. -/
def Network.consensus : Network → ConsensusParams
  | .main =>
    { powLimit := 0x003fffffffffffffffffffffffffffffffffffffffffffffffffffffffffffff
      posLimit := 0x000000000000ffffffffffffffffffffffffffffffffffffffffffffffffffff
      nTargetTimespan := 16 * 60
      nTargetSpacing := 64
      fPowNoRetargeting := false
      fPosNoRetargeting := false }
  | .testnet =>
    { powLimit := 0x003fffffffffffffffffffffffffffffffffffffffffffffffffffffffffffff
      posLimit := 0x000000000000ffffffffffffffffffffffffffffffffffffffffffffffffffff
      nTargetTimespan := 16 * 60
      nTargetSpacing := 64
      fPowNoRetargeting := true
      fPosNoRetargeting := true }
  | .regtest =>
    { powLimit := 0x7fffffffffffffffffffffffffffffffffffffffffffffffffffffffffffffff
      posLimit := 0x7fffffffffffffffffffffffffffffffffffffffffffffffffffffffffffffff
      nTargetTimespan := 2016 * 60
      nTargetSpacing := 1 * 60
      fPowNoRetargeting := true
      fPosNoRetargeting := true }

/-- The genesis block index of each network, from its `CreateGenesisBlock` call: a
proof-of-work block. -/
def Network.genesis : Network → BlockIndex
  | .main => ⟨0x1f3fffff, 1589879227, false⟩
  | .testnet => ⟨0x1f3fffff, 1630926558, false⟩
  | .regtest => ⟨0x207fffff, 1296688602, false⟩

/-- A chain, tip first, built from the network's genesis block, in which every
proof-of-work block carries the `nBits` that `GetNextTargetRequired` asks of it given its
parent chain. Proof-of-stake blocks carry any `nBits`. -/
inductive PowChain (net : Network) : List BlockIndex → Prop
  | genesis : PowChain net [net.genesis]
  | extend {chain : List BlockIndex} (b : BlockIndex) (hchain : PowChain net chain)
      (hbits : b.fProofOfStake = false →
        b.nBits = getNextTargetRequired chain false net.consensus) :
      PowChain net (b :: chain)

/-! ### Walking back to the last block of a kind -/

/-- `GetLastBlockIndex` stops on a block of the chain. -/
theorem getLastBlockIndex_suffix (f : Bool) : ∀ l : List BlockIndex, getLastBlockIndex f l <:+ l
  | b :: c :: l => by
    unfold getLastBlockIndex
    split
    · exact (getLastBlockIndex_suffix f (c :: l)).trans (List.suffix_cons b _)
    · exact List.suffix_refl _
  | [] => List.suffix_refl _
  | [_] => List.suffix_refl _

/-- A block `GetLastBlockIndex` stops on before the genesis block is of the kind asked for. -/
theorem getLastBlockIndex_kind (f : Bool) :
    ∀ {l : List BlockIndex} {b c : BlockIndex} {r : List BlockIndex},
      getLastBlockIndex f l = b :: c :: r → b.fProofOfStake = f
  | _ :: _ :: _, _, _, _, h => by
    unfold getLastBlockIndex at h
    split at h
    · exact getLastBlockIndex_kind f h
    · next hk =>
      cases h
      simpa using hk
  | [], _, _, _, h => by simp [getLastBlockIndex] at h
  | [_], _, _, _, h => by simp [getLastBlockIndex] at h

/-! ### The range test of `CheckProofOfWork` -/

/-- `nBits` decodes, as `SetCompact` does, to a target in `(0, limit]`, with neither flag
set. -/
structure InRange (limit : ArithUint256) (nBits : UInt32) : Prop where
  not_negative : (setCompact nBits).fNegative = false
  not_overflow : (setCompact nBits).fOverflow = false
  pos : 0 < (setCompact nBits).target
  le_limit : (setCompact nBits).target ≤ limit

theorem inRange_getCompact {limit x : ArithUint256} (h0 : 0 < x) (h : x ≤ limit) :
    InRange limit (getCompact x false) :=
  have ⟨hn, ho, hp, hle⟩ := setCompact_getCompact_bounds h0
  ⟨hn, ho, hp, BitVec.le_trans hle h⟩

/-- Past the range test, `CheckProofOfWork` compares the hash with the target. -/
theorem checkProofOfWork_of_inRange {params : ConsensusParams} {nBits : UInt32}
    (h : InRange params.powLimit nBits) (hash : ArithUint256) :
    checkProofOfWork hash nBits params = decide (hash ≤ (setCompact nBits).target) := by
  have hz : (setCompact nBits).target ≠ 0 := fun h0 => by
    have := h.pos
    rw [h0] at this
    exact absurd this (by decide)
  have hl : ¬(setCompact nBits).target > params.powLimit := BitVec.not_lt.2 h.le_limit
  simp only [checkProofOfWork, h.not_negative, h.not_overflow, hz, hl, decide_False,
    Bool.false_or, Bool.or_false, Bool.false_eq_true, if_false]
  by_cases hh : hash > (setCompact nBits).target
  · simp [hh, BitVec.not_le.2 hh]
  · simp [hh, BitVec.not_lt.1 hh]

/-- Saturating to `(0, limit]` lands in `(0, limit]` when the limit is positive. -/
theorem saturate_spec {x limit : ArithUint256} (h0 : 0 < limit) :
    0 < (if x ≤ 0 ∨ x > limit then limit else x) ∧
      (if x ≤ 0 ∨ x > limit then limit else x) ≤ limit := by
  split
  · exact ⟨h0, BitVec.le_refl _⟩
  · next hx =>
    rw [not_or, BitVec.not_le, gt_iff_lt, BitVec.not_lt] at hx
    exact hx

/-- The step lemma: given a parent whose `nBits` passes the range test of its kind, the
retarget passes it too. -/
theorem calculateNextTargetRequired_inRange {params : ConsensusParams} (b : BlockIndex) {t : Int}
    (h0 : 0 < getTargetLimit b.fProofOfStake params)
    (hb : InRange (getTargetLimit b.fProofOfStake params) b.nBits) :
    InRange (getTargetLimit b.fProofOfStake params) (calculateNextTargetRequired b t params) := by
  unfold calculateNextTargetRequired
  dsimp only
  split
  · exact hb
  · split
    · exact hb
    · exact inRange_getCompact (saturate_spec h0).1 (saturate_spec h0).2

/-- `GetNextTargetRequired` passes the range test of a kind whose blocks on the chain all
pass it. -/
theorem getNextTargetRequired_inRange {params : ConsensusParams} {f : Bool}
    {chain : List BlockIndex} (h0 : 0 < getTargetLimit f params)
    (hchain : ∀ b ∈ chain, b.fProofOfStake = f → InRange (getTargetLimit f params) b.nBits) :
    InRange (getTargetLimit f params) (getNextTargetRequired chain f params) := by
  have hlimit : InRange (getTargetLimit f params) (getCompact (getTargetLimit f params) false) :=
    inRange_getCompact h0 (BitVec.le_refl _)
  unfold getNextTargetRequired
  dsimp only
  rw [show (if f = true then params.posLimit else params.powLimit) = getTargetLimit f params
    from rfl]
  split
  · exact hlimit
  · split
    · next pindexPrev _ _ hprev =>
      split
      · have hk := getLastBlockIndex_kind f hprev
        have hmem := (getLastBlockIndex_suffix f _).subset
          (by rw [hprev]; exact List.mem_cons_self pindexPrev _)
        subst hk
        exact calculateNextTargetRequired_inRange _ h0 (hchain _ hmem rfl)
      · exact hlimit
    · exact hlimit

/-! ### Chains built by the retarget rule -/

theorem Network.powLimit_pos (net : Network) : 0 < net.consensus.powLimit := by
  cases net <;> decide

theorem Network.genesis_inRange (net : Network) :
    InRange net.consensus.powLimit net.genesis.nBits := by
  cases net <;> exact ⟨by decide, by decide, by decide, by decide⟩

/-- The run lemma: every proof-of-work block of a chain built by the retarget rule passes
the range test. -/
theorem PowChain.inRange {net : Network} {chain : List BlockIndex} (hc : PowChain net chain) :
    ∀ b ∈ chain, b.fProofOfStake = false → InRange net.consensus.powLimit b.nBits := by
  induction hc with
  | genesis =>
    intro b hb _
    rw [List.mem_singleton.1 hb]
    exact net.genesis_inRange
  | extend b _ hbits ih =>
    intro b' hb' hpow
    rcases List.mem_cons.1 hb' with rfl | hb'
    · rw [hbits hpow]
      exact getNextTargetRequired_inRange (f := false) net.powLimit_pos ih
    · exact ih b' hb' hpow

/-- Every proof-of-work block of a chain built from a network's genesis block by the retarget
rule passes the range test of `CheckProofOfWork`: `SetCompact` of its `nBits` sets neither
flag and gives a target in `(0, powLimit]`. `CheckProofOfWork` then fails only on the hash. -/
theorem powChain_checkProofOfWork (net : Network) {chain : List BlockIndex}
    (hc : PowChain net chain) {b : BlockIndex} (hb : b ∈ chain) (hpow : b.fProofOfStake = false) :
    InRange net.consensus.powLimit b.nBits ∧
      ∀ hash, checkProofOfWork hash b.nBits net.consensus =
        decide (hash ≤ (setCompact b.nBits).target) :=
  ⟨hc.inRange b hb hpow, checkProofOfWork_of_inRange (hc.inRange b hb hpow)⟩

theorem powChain_checkProofOfWork_main_first :
    InRange Network.main.consensus.powLimit 0x1f3fffff ∧
      ∀ hash, checkProofOfWork hash 0x1f3fffff Network.main.consensus =
        decide (hash ≤ (setCompact 0x1f3fffff).target) :=
  powChain_checkProofOfWork .main (.extend ⟨0x1f3fffff, 1589879291, false⟩ .genesis
    fun _ => by decide) (List.mem_cons_self _ _) rfl

end AokChain
