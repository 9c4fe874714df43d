import AokChain.Miner.Template
import AokChain.Miner.Search
import AokChain.Pow.Retarget
import AokChain.Script.Script

/-!
# `BlockAssembler::CreateNewBlock`

The template that `SoloMiner` hashes and that `ThreadStakeMiner` signs is built as follows:

1. `resetBlock`, a fresh template, and the block's time. For proof of stake the bits of
   `STAKE_TIMESTAMP_MASK` in the time are cleared.
2. The transactions `addPackageTxs` selects, final at the next height and at that time.
3. The coinbase. For proof of work it pays the fees and the subsidy to `scriptPubKeyIn`; for
   proof of stake it has one empty output, and the coinstake pays `scriptPubKeyIn`.
4. The witness commitment, the previous block's hash, and for proof of work `UpdateTime`.
5. The target from `GetNextTargetRequired`, and for proof of work `TestBlockValidity`.

The node's answers are parameters: the tip, `ComputeBlockVersion` and `GetAdjustedTime`. So are
the consensus functions `CreateNewBlock` calls, since validation.cpp and tx_verify.cpp are not
among the sources: `GetBlockSubsidy`, `GenerateCoinbaseCommitment`, `GetLegacySigOpCount`,
`TestBlockValidity` and `IsFinalTx`. `GenerateCoinbaseCommitment` may append to the coinbase
one output of no value: the witness commitment, which `GetWitnessCommitmentIndexPos` looks for.

Every caller builds a fresh `BlockAssembler(params)` for each template. From such an assembler
and every valid mempool:

* a proof-of-work template's coinbase pays exactly the subsidy and the fees of the block's
  transactions; its fee vector stands beside the block's transactions and adds up to zero; its
  time is past the tip's limit; and its target is within the proof-of-work limit
  (`createNewBlock_pow`);
* a proof-of-stake template passes `CheckFirstCoinstakeOutput`, the check `SignBlock` starts
  with, but its fee vector has no entry for the coinstake (`createNewBlock_pos`).
-/

namespace AokChain

namespace Miner

open Script

/-- A transaction output: `CTxOut`'s value and script. -/
structure TxOutput where
  nValue : Int
  scriptPubKey : Bytes
  deriving DecidableEq, Repr

namespace TxOutput

/-- `CTxOut::SetEmpty()`: no value and no script. -/
def empty : TxOutput := ⟨0, []⟩

/-- `CTxOut::IsEmpty()`. -/
def isEmpty (out : TxOutput) : Bool :=
  out.nValue == 0 && out.scriptPubKey.isEmpty

@[simp] theorem isEmpty_empty : empty.isEmpty = true := rfl

end TxOutput

/-- The coinbase `CreateNewBlock` writes: the `scriptSig` of its one input, its outputs and its
time. -/
structure CoinbaseTx where
  scriptSig : Bytes
  vout : List TxOutput
  nTime : UInt32
  deriving DecidableEq, Repr

/-- A transaction of a template: the coinbase; the coinstake, whose second output pays
`scriptPubKey` and which `CreateCoinStake` fills in later; or a mempool entry. -/
inductive BlockTx
  | coinbase (tx : CoinbaseTx)
  | coinstake (scriptPubKey : Bytes)
  | entry (e : TxMemPoolEntry)
  deriving DecidableEq, Repr

/-- The fields of `CBlock` a template sets. -/
structure Block extends Header where
  nVersion : Int
  hashPrevBlock : Nat
  nBits : UInt32
  vtx : List BlockTx

/-- `CBlockTemplate`: the block, the fees and signature-operation costs of its transactions,
the coinbase's first, and the witness commitment. -/
structure BlockTemplate where
  block : Block
  vTxFees : List Int
  vTxSigOpsCost : List Int
  vchCoinbaseCommitment : Bytes

/-! ### The witness commitment -/

/-- The script of the witness commitment output: `OP_RETURN`, the push of 36 bytes, the header
`0xaa21a9ed`, and the commitment's 32 bytes. -/
def witnessCommitmentScript (h : Bytes) : Bytes :=
  opReturn :: 0x24 :: 0xaa :: 0x21 :: 0xa9 :: 0xed :: h

/-- The test `GetWitnessCommitmentIndexPos` makes of each output. -/
def isWitnessCommitment (out : TxOutput) : Bool :=
  out.scriptPubKey.length ≥ 38 && out.scriptPubKey.take 6 == [opReturn, 0x24, 0xaa, 0x21, 0xa9, 0xed]

/-- `GetWitnessCommitmentIndexPos(block)`, on the outputs of `block.vtx[0]`: the last
commitment output's index, `none` for `-1`. -/
def getWitnessCommitmentIndexPos (vout : List TxOutput) : Option Nat :=
  (vout.enum.foldl fun commitpos p => if isWitnessCommitment p.2 then some p.1 else commitpos)
    none

/-- `CheckFirstCoinstakeOutput(block)`, on the outputs of `block.vtx[0]`: a proof-of-stake
block's coinbase has one empty output, or two when the second is the witness commitment, of no
value. -/
def checkFirstCoinstakeOutput (vout : List TxOutput) : Bool :=
  match getWitnessCommitmentIndexPos vout with
  | none => vout.length == 1 && (vout.head?.any TxOutput.isEmpty)
  | some _ => vout.length == 2 && (vout.head?.any TxOutput.isEmpty) &&
      ((vout.get? 1).any fun out => out.nValue == 0)

theorem isWitnessCommitment_script (v : Int) {h : Bytes} (hl : h.length = 32) :
    isWitnessCommitment ⟨v, witnessCommitmentScript h⟩ = true := by
  simp [isWitnessCommitment, witnessCommitmentScript, hl]

/-- A coinbase whose first output is empty, with or without a witness commitment after it,
passes the check. -/
theorem checkFirstCoinstakeOutput_empty (commitment : Option {h : Bytes // h.length = 32}) :
    checkFirstCoinstakeOutput
      (TxOutput.empty :: (commitment.map fun h => witnessCommitmentScript h.1).toList.map
        (⟨0, ·⟩)) = true := by
  rcases commitment with _ | ⟨h, hl⟩
  · rfl
  · have hempty : isWitnessCommitment TxOutput.empty = false := rfl
    simp [checkFirstCoinstakeOutput, getWitnessCommitmentIndexPos, List.enum_cons,
      List.enumFrom_cons, hempty, isWitnessCommitment_script 0 hl]

/-! ### The template -/

/-- `chainActive.Tip()` as `CreateNewBlock` reads it: its height, its hash,
`GetPastTimeLimit()`, and the chain from it back as the retarget reads it, tip first. -/
structure Tip where
  nHeight : Int
  hash : Nat
  pastTimeLimit : Int
  chain : List BlockIndex

/-- What `CreateNewBlock` asks the node: the tip (`none` for the null pointer the `assert`
rejects), `ComputeBlockVersion`, and `GetAdjustedTime()` when the template is started and
again in `UpdateTime`. -/
structure NodeView where
  tip : Option Tip
  nVersion : Int
  adjustedTime : Int
  updateAdjustedTime : Int

/-- The consensus functions `CreateNewBlock` calls, with `STAKE_TIMESTAMP_MASK`.
`generateCoinbaseCommitment` gives the 32 bytes `GenerateCoinbaseCommitment` commits to when
it appends the commitment output to the coinbase, and `none` when it appends none;
`testBlockValidity` gives `FormatStateMessage(state)` when `TestBlockValidity` fails; and
`isFinalTx e nHeight nLockTimeCutoff` is `IsFinalTx`. -/
structure ConsensusView where
  getBlockSubsidy : Int → Int
  generateCoinbaseCommitment : Block → Option {h : Bytes // h.length = 32}
  getLegacySigOpCount : CoinbaseTx → Nat
  testBlockValidity : Block → Option String
  isFinalTx : TxMemPoolEntry → Int → Int → Bool
  stakeTimestampMask : Int

section CreateNewBlock

variable (limits : Limits) (m : TxMemPool) (minFee : Nat → Int) (params : ConsensusParams)
  (cons : ConsensusView) (node : NodeView)

/-- `pblock->nTime = txProofTime`: the `uint32_t` field keeps the low 32 bits. -/
def truncTime (t : Int) : UInt32 := UInt32.ofNat (t % 2 ^ 32).toNat

/-- `txProofTime`: `GetAdjustedTime()`, with the bits of `STAKE_TIMESTAMP_MASK` cleared for
proof of stake. -/
def txProofTime (fProofOfStake : Bool) : Int :=
  if fProofOfStake then Int.land node.adjustedTime (Int.lnot cons.stakeTimestampMask)
  else node.adjustedTime

/-- The coinbase's output: empty for proof of stake, and otherwise the fees `nFees` and the
subsidy at `nHeight`, paid to `scriptPubKeyIn`. -/
def coinbaseOut (scriptPubKeyIn : Bytes) (fProofOfStake : Bool) (nHeight nFees : Int) :
    TxOutput :=
  if fProofOfStake then TxOutput.empty
  else ⟨nFees + cons.getBlockSubsidy nHeight, scriptPubKeyIn⟩

/-- The slots in front of the mempool's transactions: the coinbase, and for proof of stake the
coinstake. -/
def firstTxs (scriptPubKeyIn : Bytes) (fProofOfStake : Bool) (coinbase : CoinbaseTx) :
    List BlockTx :=
  if fProofOfStake then [.coinbase coinbase, .coinstake scriptPubKeyIn] else [.coinbase coinbase]

/-- The template `CreateNewBlock` builds on `tip` at the time `nTime` once `addPackageTxs` has
filled `a`. The coinbase and coinstake come first, then the witness commitment, then the
header (with `UpdateTime` for proof of work). The placeholders `-1` for the coinbase's fee and
cost are overwritten here. -/
def blockTemplate (tip : Tip) (scriptPubKeyIn : Bytes) (fProofOfStake : Bool) (nTime : UInt32)
    (a : BlockAssembler) : BlockTemplate :=
  let nHeight := tip.nHeight + 1
  let coinbase : CoinbaseTx :=
    { scriptSig := pushInt64 nHeight ++ [opFalse]
      vout := [coinbaseOut cons scriptPubKeyIn fProofOfStake nHeight a.nFees]
      nTime }
  let block : Block :=
    { nTime, nNonce := 0, nVersion := node.nVersion, hashPrevBlock := 0, nBits := 0
      vtx := firstTxs scriptPubKeyIn fProofOfStake coinbase ++ a.vtx.map .entry }
  let commitment :=
    (cons.generateCoinbaseCommitment block).map fun h => witnessCommitmentScript h.1
  let coinbase := { coinbase with vout := coinbase.vout ++ commitment.toList.map (⟨0, ·⟩) }
  let header := if fProofOfStake then block.toHeader
    else (updateTime block.toHeader tip.pastTimeLimit node.updateAdjustedTime).1
  { block :=
      { block with
        toHeader := { header with nNonce := 0 }
        hashPrevBlock := tip.hash
        nBits := getNextTargetRequired tip.chain fProofOfStake params
        vtx := firstTxs scriptPubKeyIn fProofOfStake coinbase ++ a.vtx.map .entry }
    vTxFees := -a.nFees :: a.vTxFees
    vTxSigOpsCost :=
      ((limits.witnessScaleFactor * cons.getLegacySigOpCount coinbase : Nat) : Int) ::
        a.vTxSigOpsCost.map (↑)
    vchCoinbaseCommitment := commitment.getD [] }

/-- The end of `CreateNewBlock`: the template and `*pTotalFees`, or the `runtime_error` it
throws where `TestBlockValidity` rejects a proof-of-work template. -/
def checkTemplate (fProofOfStake : Bool) (t : BlockTemplate) (nFees : Int) :
    Except String (BlockTemplate × Int) :=
  match fProofOfStake, cons.testBlockValidity t.block with
  | false, some msg => .error ("CreateNewBlock: TestBlockValidity failed: " ++ msg)
  | _, _ => .ok (t, nFees)

theorem checkTemplate_pow (t : BlockTemplate) (nFees : Int) :
    checkTemplate cons false t nFees = (cons.testBlockValidity t.block).elim (.ok (t, nFees))
      fun msg => .error ("CreateNewBlock: TestBlockValidity failed: " ++ msg) := by
  unfold checkTemplate
  cases cons.testBlockValidity t.block <;> rfl

theorem checkTemplate_pos (t : BlockTemplate) (nFees : Int) :
    checkTemplate cons true t nFees = .ok (t, nFees) := rfl

/-- `BlockAssembler::CreateNewBlock(scriptPubKeyIn, fProofOfStake, pTotalFees)`: the template
and `*pTotalFees`; `none` at a failed `assert`, and an error where `TestBlockValidity` rejects
a proof-of-work template. -/
def createNewBlock (a : BlockAssembler) (scriptPubKeyIn : Bytes) (fProofOfStake : Bool) :
    Option (Except String (BlockTemplate × Int)) :=
  let a := { resetBlock a with vtx := [], vTxFees := [], vTxSigOpsCost := [] }
  node.tip.bind fun tip =>
    let nTime := truncTime (txProofTime cons node fProofOfStake)
    (addPackageTxs limits m minFee (fun e => cons.isFinalTx e (tip.nHeight + 1) nTime.toNat)
        a 0 0).map fun r =>
      checkTemplate cons fProofOfStake
        (blockTemplate limits params cons node tip scriptPubKeyIn fProofOfStake nTime r.1) r.1.nFees

variable {limits m minFee params cons node}

/-- `CreateNewBlock` on a fresh assembler at a tip: the template on what `addPackageTxs`
selects from a reset block. -/
theorem createNewBlock_eq {tip : Tip} (htip : node.tip = some tip) (opt : Nat)
    (scriptPubKeyIn : Bytes) (fProofOfStake : Bool) {r : BlockAssembler × Nat × Nat}
    (hr : addPackageTxs limits m minFee
      (fun e => cons.isFinalTx e (tip.nHeight + 1)
        (truncTime (txProofTime cons node fProofOfStake)).toNat)
      (resetBlock (blockAssembler limits opt)) 0 0 = some r) :
    createNewBlock limits m minFee params cons node (blockAssembler limits opt) scriptPubKeyIn
        fProofOfStake =
      some (checkTemplate cons fProofOfStake (blockTemplate limits params cons node tip
        scriptPubKeyIn fProofOfStake (truncTime (txProofTime cons node fProofOfStake)) r.1)
        r.1.nFees) := by
  simp only [createNewBlock, htip, Option.some_bind]
  exact congrArg (Option.map _) hr

/-- A proof-of-work template, from every valid mempool: the coinbase pays `scriptPubKeyIn`
exactly the subsidy and the fees of the block's transactions; the fee vector stands beside the
block's transactions and adds up to zero; the time is past the tip's limit where it fits the
field; and the target is within the proof-of-work limit where the chain's proof-of-work blocks
are. The template is returned unless `TestBlockValidity` rejects it. -/
theorem createNewBlock_pow (hm : m.Valid) (opt : Nat) {tip : Tip} (htip : node.tip = some tip)
    (scriptPubKeyIn : Bytes) (h0 : 0 < params.powLimit)
    (hchain : ∀ b ∈ tip.chain, b.fProofOfStake = false → InRange params.powLimit b.nBits)
    (htime : max (tip.pastTimeLimit + 1) node.updateAdjustedTime < 2 ^ 32) :
    ∃ (t : BlockTemplate) (es : List TxMemPoolEntry) (cb : CoinbaseTx), createNewBlock limits m minFee params cons node (blockAssembler limits opt)
        scriptPubKeyIn false =
        some ((cons.testBlockValidity t.block).elim (.ok (t, (es.map (·.fee)).sum)) fun msg =>
          .error ("CreateNewBlock: TestBlockValidity failed: " ++ msg)) ∧
      t.block.vtx = .coinbase cb :: es.map .entry ∧
      cb.vout.head? =
        some ⟨(es.map (·.fee)).sum + cons.getBlockSubsidy (tip.nHeight + 1), scriptPubKeyIn⟩ ∧
      t.vTxFees.length = t.block.vtx.length ∧ t.vTxFees.sum = 0 ∧
      tip.pastTimeLimit < t.block.nTime.toNat ∧
      InRange params.powLimit t.block.nBits := by
  obtain ⟨r, hr, hB, -⟩ := @addPackageTxs_ok limits m minFee
    (fun e => cons.isFinalTx e (tip.nHeight + 1) (truncTime (txProofTime cons node false)).toNat)
    hm opt 0 0
  refine ⟨blockTemplate limits params cons node tip scriptPubKeyIn false
    (truncTime (txProofTime cons node false)) r.1, r.1.vtx, _, ?_, rfl, ?_, ?_, ?_, ?_, ?_⟩
  · rw [createNewBlock_eq htip opt scriptPubKeyIn false hr, checkTemplate_pow, hB.nFees]
  · simp [blockTemplate, coinbaseOut, hB.nFees]
  · simp [blockTemplate, firstTxs, hB.vTxFees]
  · simp [blockTemplate, hB.vTxFees, hB.nFees]
  · exact updateTime_nTime_gt _ htime
  · exact getNextTargetRequired_inRange (f := false) h0 hchain

/-- A tip at height 10 on the main network's genesis block. -/
def genesisTip : Tip :=
  { nHeight := 10, hash := 7, pastTimeLimit := 1589879300, chain := [Network.main.genesis] }

/-- A node at `genesisTip` whose clock reads 1589879400, and then 1589879401. -/
def genesisNode : NodeView :=
  { tip := some genesisTip, nVersion := 4, adjustedTime := 1589879400,
    updateAdjustedTime := 1589879401 }

/-- Consensus answers that accept everything: a subsidy of 50, no witness commitment, one
legacy signature operation, every block valid and every transaction final. -/
def acceptAll : ConsensusView :=
  { getBlockSubsidy := fun _ => 50, generateCoinbaseCommitment := fun _ => none,
    getLegacySigOpCount := fun _ => 1, testBlockValidity := fun _ => none,
    isFinalTx := fun _ _ _ => true, stakeTimestampMask := 15 }

theorem createNewBlock_pow_parentChild :
    ∃ (t : BlockTemplate) (es : List TxMemPoolEntry) (cb : CoinbaseTx),
      createNewBlock ⟨4, 80000, 4000000⟩ parentChild (fun _ => 0) Network.main.consensus
          acceptAll genesisNode (blockAssembler ⟨4, 80000, 4000000⟩ 4000000) [] false =
        some ((acceptAll.testBlockValidity t.block).elim (.ok (t, (es.map (·.fee)).sum))
          fun msg => .error ("CreateNewBlock: TestBlockValidity failed: " ++ msg)) ∧
      t.block.vtx = .coinbase cb :: es.map .entry ∧
      cb.vout.head? =
        some ⟨(es.map (·.fee)).sum + acceptAll.getBlockSubsidy (genesisTip.nHeight + 1), []⟩ ∧
      t.vTxFees.length = t.block.vtx.length ∧ t.vTxFees.sum = 0 ∧
      genesisTip.pastTimeLimit < t.block.nTime.toNat ∧
      InRange Network.main.consensus.powLimit t.block.nBits :=
  createNewBlock_pow parentChild_valid 4000000 rfl [] (Network.powLimit_pos .main)
    (fun _ hb _ => List.mem_singleton.1 hb ▸ Network.genesis_inRange .main) (by decide)

/-- A proof-of-stake template, from every valid mempool, is returned and passes
`CheckFirstCoinstakeOutput`, the check `SignBlock` starts with: its coinbase's first output is
empty, and a second one is the witness commitment, of no value. `*pTotalFees` is the sum of
the fees of the block's transactions, but the fee vector has no entry for the coinstake: it is
one entry shorter than the block's transactions, its entry `i + 1` the fee of transaction
`i + 2`. -/
theorem createNewBlock_pos (hm : m.Valid) (opt : Nat) {tip : Tip} (htip : node.tip = some tip)
    (scriptPubKeyIn : Bytes) :
    ∃ (t : BlockTemplate) (es : List TxMemPoolEntry) (cb : CoinbaseTx), createNewBlock limits m minFee params cons node (blockAssembler limits opt)
        scriptPubKeyIn true = some (.ok (t, (es.map (·.fee)).sum)) ∧
      t.block.vtx = .coinbase cb :: .coinstake scriptPubKeyIn :: es.map .entry ∧
      checkFirstCoinstakeOutput cb.vout = true ∧
      t.vTxFees = -(es.map (·.fee)).sum :: es.map (·.fee) := by
  obtain ⟨r, hr, hB, -⟩ := @addPackageTxs_ok limits m minFee
    (fun e => cons.isFinalTx e (tip.nHeight + 1) (truncTime (txProofTime cons node true)).toNat)
    hm opt 0 0
  refine ⟨blockTemplate limits params cons node tip scriptPubKeyIn true
    (truncTime (txProofTime cons node true)) r.1, r.1.vtx, _, ?_, rfl, ?_, ?_⟩
  · rw [createNewBlock_eq htip opt scriptPubKeyIn true hr, checkTemplate_pos, hB.nFees]
  · exact checkFirstCoinstakeOutput_empty _
  · simp [blockTemplate, hB.vTxFees, hB.nFees]

theorem createNewBlock_pos_parentChild :
    ∃ (t : BlockTemplate) (es : List TxMemPoolEntry) (cb : CoinbaseTx),
      createNewBlock ⟨4, 80000, 4000000⟩ parentChild (fun _ => 0) Network.main.consensus
          acceptAll genesisNode (blockAssembler ⟨4, 80000, 4000000⟩ 4000000) [] true =
        some (.ok (t, (es.map (·.fee)).sum)) ∧
      t.block.vtx = .coinbase cb :: .coinstake [] :: es.map .entry ∧
      checkFirstCoinstakeOutput cb.vout = true ∧
      t.vTxFees = -(es.map (·.fee)).sum :: es.map (·.fee) :=
  createNewBlock_pos parentChild_valid 4000000 rfl []

end CreateNewBlock

end Miner

end AokChain
