import AokChain.Script.Standard
import AokChain.Primitives.Transaction

/-!
# `TransactionRecord::decomposeTransaction`: a wallet transaction as rows of the list

The transaction list shows a wallet transaction as rows. `decomposeTransaction` takes one of
three views of the coin outputs, after which come the token rows:

* credit, when the wallet gains (`nNet > 0`) or the transaction is a coinbase or coinstake:
  a row for each output the wallet owns; of a coinstake only the first, whose credit is the
  stake's reward;
* payment, when every input is the wallet's: one `SendToSelf` row when every output is too,
  and otherwise a row for each output paid to someone else, the fee added to the first;
* mixed otherwise: one row of the net amount, left out when it is zero and tokens moved.

Token outputs are skipped in all three; `GetAmounts` lists them, and each becomes a row.

The wallet's answers (`IsMine` of each output and input, `IsMineDest`, the sums `GetCredit`,
`GetDebit` and `GetChange`, `GetAmounts`' token lists) and the token library's lookups are
parameters: wallet.cpp, tokens.cpp and transactionrecord.h are not among the sources. Amounts
are integers: they come from those sums and from `GetValueOut`, which keep them within
`MoneyRange`, where none of the sums here leaves an `int64_t`.

The payment rows add up to what left the wallet, the fee counted once
(`decomposeTransaction_sent`), and a coinstake shows one row however many of its outputs the
wallet owns (`decomposeTransaction_coinstake`).
-/

namespace AokChain

open Script

/-- An output as `decomposeTransaction` reads it: `CTxOut`'s value and script. -/
structure TxOut extends CTxOut where
  scriptPubKey : Bytes

/-- `TransactionRecord::Type`. -/
inductive RecordType
  | other
  | generated
  | sendToAddress
  | sendToOther
  | recvWithAddress
  | recvFromOther
  | sendToSelf
  | issue
  | reissue
  | transferFrom
  | transferTo
  deriving DecidableEq, Repr

/-- A row of the list, with the fields `decomposeTransaction` sets. A field a row's constructor
leaves has the constructor's default; `tokenName` and `units` are `none` where only that
default, from transactionrecord.h, would give them. -/
structure TransactionRecord where
  hash : Nat
  time : Int
  type : RecordType := .other
  address : String := ""
  debit : Int := 0
  credit : Int := 0
  idx : Nat := 0
  involvesWatchAddress : Bool := false
  tokenName : Option String := none
  units : Option Int := none
  deriving DecidableEq, Repr

/-- `CTokenOutputEntry`: a token output `GetAmounts` lists as received or sent. -/
structure TokenOutputEntry where
  type : TxnOutType
  tokenName : String
  destination : TxDestination
  nAmount : Int
  vout : Nat

/-- `CWalletTx` as `decomposeTransaction` reads it: `GetHash()`, `GetTxTime()`,
`GetCredit(ISMINE_ALL)`, `GetDebit(ISMINE_ALL)`, `GetChange()`, `IsCoinBase()`,
`IsCoinStake()`, `IsMine` of each input, the outputs, `mapValue["from"]` and `mapValue["to"]`,
and the token outputs `GetAmounts` lists as received and as sent. -/
structure WalletTx where
  hash : Nat
  txTime : Int
  credit : Int
  debit : Int
  change : Int
  isCoinBase : Bool
  isCoinStake : Bool
  vinMine : List IsMineType
  vout : List TxOut
  mapValueFrom : String
  mapValueTo : String
  tokensReceived : List TokenOutputEntry
  tokensSent : List TokenOutputEntry

/-- What `decomposeTransaction` asks the wallet of an output or a destination:
`IsMine(txout)`, `IsMineDest(address)`, and `EncodeDestination`. -/
structure WalletView where
  isMine : Bytes → IsMineType
  isMineDest : TxDestination → Bool
  encodeDestination : TxDestination → String

/-- The token library's lookups for a row's units: `IsTokenNameAnOwner`, `CheckIssueDataTx`,
the units `TokenFromTransaction` reads from the transaction, `GetTokenMetaDataIfExists`'s
units, and the constants `DEFAULT_UNITS` and `OWNER_UNITS`. -/
structure TokenLookups where
  isTokenNameAnOwner : String → Bool
  checkIssueDataTx : TxOut → Bool
  tokenFromTransaction : WalletTx → Option Int
  getTokenMetaDataIfExists : String → Option Int
  defaultUnits : Int
  ownerUnits : Int

/-- `isminetype` as the number `decomposeTransaction` compares (ismine.h, not among the
sources, numbers the kinds 0, 1, 2 and 4). -/
def Script.IsMineType.toNat : IsMineType → Nat
  | .no => 0
  | .watchUnsolvable => 1
  | .watchSolvable => 2
  | .spendable => 4

/-- `mine & ISMINE_WATCH_ONLY`: a watched, not spendable, output. -/
def Script.IsMineType.isWatchOnly : IsMineType → Bool
  | .watchUnsolvable | .watchSolvable => true
  | .no | .spendable => false

/-- `if (fAll > mine) fAll = mine`: the least kind so far. -/
def minMine (fAll mine : IsMineType) : IsMineType :=
  if fAll.toNat > mine.toNat then mine else fAll

theorem minMine_eq_no {fAll mine : IsMineType} :
    minMine fAll mine = .no ↔ fAll = .no ∨ mine = .no := by
  cases fAll <;> cases mine <;> decide

namespace TransactionRecord

section Decompose

variable (tokenKind : Bytes → Option (TxnOutType × Bool)) (pubKeyID : Bytes → Option Bytes)
  (maxMoney : Int) (view : WalletView)

/-- `scriptPubKey.IsTokenScript()`. -/
def isTokenOut (txout : TxOut) : Bool :=
  (isTokenScript tokenKind txout.scriptPubKey).isSome

/-- `tx->GetValueOut()`. -/
def valueOut (wtx : WalletTx) : Option (Except String Int) :=
  getValueOut maxMoney (wtx.vout.map (·.toCTxOut))

/-- An output the payment view shows: a coin output the wallet does not own. -/
def isPaid (txout : TxOut) : Bool :=
  !isTokenOut tokenKind txout && view.isMine txout.scriptPubKey = .no

/-- An output the credit view shows: a coin output the wallet owns. -/
def isOwnedCoin (txout : TxOut) : Bool :=
  !isTokenOut tokenKind txout && view.isMine txout.scriptPubKey ≠ .no

/-- The row for an output `i` the wallet owns in the credit view: `RecvWithAddress` to a
destination of the wallet's, `RecvFromOther` otherwise, `Generated` in a coinbase or
coinstake. -/
def creditRecord (wtx : WalletTx) (i : Nat) (txout : TxOut) (mine : IsMineType) :
    TransactionRecord :=
  let sub : TransactionRecord :=
    match extractDestination tokenKind pubKeyID txout.scriptPubKey with
    | some address =>
      if view.isMineDest address then
        { hash := wtx.hash, time := wtx.txTime, idx := i, credit := txout.nValue,
          involvesWatchAddress := mine.isWatchOnly, type := .recvWithAddress,
          address := view.encodeDestination address }
      else
        { hash := wtx.hash, time := wtx.txTime, idx := i, credit := txout.nValue,
          involvesWatchAddress := mine.isWatchOnly, type := .recvFromOther,
          address := wtx.mapValueFrom }
    | none =>
      { hash := wtx.hash, time := wtx.txTime, idx := i, credit := txout.nValue,
        involvesWatchAddress := mine.isWatchOnly, type := .recvFromOther,
        address := wtx.mapValueFrom }
  if wtx.isCoinBase || wtx.isCoinStake then { sub with type := .generated } else sub

/-- A coinstake's row credits `nNet` when it is positive, and `GetValueOut() - nDebit`
otherwise, read only then. -/
def stakeCredit (wtx : WalletTx) (nNet : Int) : Option (Except String Int) :=
  if nNet > 0 then some (.ok nNet)
  else (valueOut maxMoney wtx).map (Except.map (· - wtx.debit))

/-- The credit view's loop over the outputs from index `i`, with `hashPrev`, which a
coinstake's first row sets to the transaction's hash so that no second row follows. -/
def creditRecords (wtx : WalletTx) (nNet : Int) :
    Nat → Nat → List TxOut → Option (Except String (List TransactionRecord))
  | _, _, [] => some (.ok [])
  | hashPrev, i, txout :: vout =>
    let mine := view.isMine txout.scriptPubKey
    if isTokenOut tokenKind txout || mine = .no then creditRecords wtx nNet hashPrev (i + 1) vout
    else
      let sub := creditRecord tokenKind pubKeyID view wtx i txout mine
      if wtx.isCoinStake then
        if hashPrev = wtx.hash then creditRecords wtx nNet hashPrev (i + 1) vout
        else
          (stakeCredit maxMoney wtx nNet).bind fun
            | .ok credit =>
              (creditRecords wtx nNet wtx.hash (i + 1) vout).map
                (Except.map ({ sub with credit } :: ·))
            | .error e => some (.error e)
      else (creditRecords wtx nNet hashPrev (i + 1) vout).map (Except.map (sub :: ·))

/-- The row for an output `i` paid to someone else in the payment view: `SendToAddress` to a
destination, `SendToOther` otherwise. -/
def debitRecord (wtx : WalletTx) (involvesWatchAddress : Bool) (i : Nat) (txout : TxOut) :
    TransactionRecord :=
  match extractDestination tokenKind pubKeyID txout.scriptPubKey with
  | some address =>
    { hash := wtx.hash, time := wtx.txTime, idx := i, involvesWatchAddress,
      type := .sendToAddress, address := view.encodeDestination address }
  | none =>
    { hash := wtx.hash, time := wtx.txTime, idx := i, involvesWatchAddress,
      type := .sendToOther, address := wtx.mapValueTo }

/-- The payment view's loop over the outputs from index `i`: a row for each output that is
neither a token output nor the wallet's, the fee `nTxFee` added to the first when positive. -/
def debitRecords (wtx : WalletTx) (involvesWatchAddress : Bool) :
    Int → Nat → List TxOut → List TransactionRecord
  | _, _, [] => []
  | nTxFee, i, txout :: vout =>
    if isTokenOut tokenKind txout || view.isMine txout.scriptPubKey ≠ .no then
      debitRecords wtx involvesWatchAddress nTxFee (i + 1) vout
    else
      let nValue := if nTxFee > 0 then txout.nValue + nTxFee else txout.nValue
      { debitRecord tokenKind pubKeyID view wtx involvesWatchAddress i txout with
          debit := -nValue } ::
        debitRecords wtx involvesWatchAddress (if nTxFee > 0 then 0 else nTxFee) (i + 1) vout

/-- The coin rows: the credit view, or, for a transaction the wallet did not gain from, the
payment or mixed view by what the inputs and the coin outputs are to the wallet. -/
def coinRecords (wtx : WalletTx) : Option (Except String (List TransactionRecord)) :=
  let nNet := wtx.credit - wtx.debit
  if nNet > 0 || wtx.isCoinBase || wtx.isCoinStake then
    creditRecords tokenKind pubKeyID maxMoney view wtx nNet 0 0 wtx.vout
  else
    let coins := wtx.vout.filter fun txout => !isTokenOut tokenKind txout
    let involvesWatchAddress := wtx.vinMine.any IsMineType.isWatchOnly ||
      coins.any fun txout => (view.isMine txout.scriptPubKey).isWatchOnly
    let fAllFromMe := wtx.vinMine.foldl minMine .spendable
    let fAllToMe := coins.foldl (fun fAll txout => minMine fAll (view.isMine txout.scriptPubKey))
      .spendable
    if fAllFromMe ≠ .no ∧ fAllToMe ≠ .no then
      some (.ok [{
        hash := wtx.hash, time := wtx.txTime, type := .sendToSelf,
        debit := -(wtx.debit - wtx.change), credit := wtx.credit - wtx.change,
        involvesWatchAddress }])
    else if fAllFromMe ≠ .no then
      (valueOut maxMoney wtx).map (Except.map fun v =>
        debitRecords tokenKind pubKeyID view wtx involvesWatchAddress (wtx.debit - v) 0 wtx.vout)
    else if nNet ≠ 0 ∨ !wtx.vout.any (isTokenOut tokenKind) then
      some (.ok [{
        hash := wtx.hash, time := wtx.txTime, type := .other, debit := nNet,
        involvesWatchAddress }])
    else some (.ok [])

variable (lookups : TokenLookups)

/-- A token row's units: `OWNER_UNITS` for an owner token, else what the issue in the
transaction or the token's metadata says, else `units` as the row had them. -/
def tokenUnits (wtx : WalletTx) (data : TokenOutputEntry) (units : Option Int) : Option Int :=
  if lookups.isTokenNameAnOwner data.tokenName then some lookups.ownerUnits
  else if (wtx.vout.get? data.vout).any lookups.checkIssueDataTx then
    (lookups.tokenFromTransaction wtx).orElse fun _ => units
  else (lookups.getTokenMetaDataIfExists data.tokenName).orElse fun _ => units

/-- The row of a token output received. -/
def tokenReceivedRecord (wtx : WalletTx) (data : TokenOutputEntry) : TransactionRecord :=
  { hash := wtx.hash, time := wtx.txTime, idx := data.vout,
    address := view.encodeDestination data.destination, tokenName := some data.tokenName,
    credit := data.nAmount,
    involvesWatchAddress :=
      (wtx.vout.get? data.vout).any fun txout => (view.isMine txout.scriptPubKey).isWatchOnly,
    type := if data.type = .newToken then .issue
      else if data.type = .reissueToken then .reissue
      else if data.type = .transferToken then .transferFrom
      else .other,
    units := tokenUnits lookups wtx data (some lookups.defaultUnits) }

/-- The row of a token output sent. -/
def tokenSentRecord (wtx : WalletTx) (data : TokenOutputEntry) : TransactionRecord :=
  { hash := wtx.hash, time := wtx.txTime, idx := data.vout,
    address := view.encodeDestination data.destination, tokenName := some data.tokenName,
    credit := -data.nAmount, involvesWatchAddress := false,
    type := if data.type = .transferToken then .transferTo else .other,
    units := tokenUnits lookups wtx data none }

/-- The token rows, received then sent. -/
def tokenRecords (wtx : WalletTx) : List TransactionRecord :=
  wtx.tokensReceived.map (tokenReceivedRecord view lookups wtx) ++
    wtx.tokensSent.map (tokenSentRecord view lookups wtx)

/-- `TransactionRecord::decomposeTransaction(wallet, wtx)`: the coin rows, then the token
rows once tokens are deployed (`AreTokensDeployed()`); an error where `GetValueOut` throws,
and `none` where its sum overflows. -/
def decomposeTransaction (tokensDeployed : Bool) (wtx : WalletTx) :
    Option (Except String (List TransactionRecord)) :=
  (coinRecords tokenKind pubKeyID maxMoney view wtx).map (Except.map fun parts =>
    if tokensDeployed then parts ++ tokenRecords view lookups wtx else parts)

/-! ### The payment view -/

variable {tokenKind pubKeyID maxMoney view lookups}

theorem foldl_minMine_eq_no : ∀ (fAll : IsMineType) (l : List IsMineType),
    l.foldl minMine fAll = .no ↔ fAll = .no ∨ .no ∈ l
  | fAll, [] => by simp
  | fAll, mine :: l => by
    rw [List.foldl_cons, foldl_minMine_eq_no, minMine_eq_no, List.mem_cons]
    tauto

theorem skip_eq_not_isPaid (txout : TxOut) :
    (isTokenOut tokenKind txout || decide (view.isMine txout.scriptPubKey ≠ .no)) =
      !isPaid tokenKind view txout := by
  unfold isPaid
  cases isTokenOut tokenKind txout <;> simp

theorem skip_eq_not_isOwnedCoin (txout : TxOut) :
    (isTokenOut tokenKind txout || decide (view.isMine txout.scriptPubKey = .no)) =
      !isOwnedCoin tokenKind view txout := by
  unfold isOwnedCoin
  cases isTokenOut tokenKind txout <;> simp

@[simp] theorem debitRecord_idx (wtx : WalletTx) (w : Bool) (i : Nat) (txout : TxOut) :
    (debitRecord tokenKind pubKeyID view wtx w i txout).idx = i := by
  unfold debitRecord
  split <;> rfl

theorem debitRecords_cons (wtx : WalletTx) (w : Bool) (nTxFee : Int) (i : Nat) (txout : TxOut)
    (vout : List TxOut) :
    debitRecords tokenKind pubKeyID view wtx w nTxFee i (txout :: vout) =
      if isPaid tokenKind view txout then
        { debitRecord tokenKind pubKeyID view wtx w i txout with
            debit := -(if nTxFee > 0 then txout.nValue + nTxFee else txout.nValue) } ::
          debitRecords tokenKind pubKeyID view wtx w (if nTxFee > 0 then 0 else nTxFee) (i + 1) vout
      else debitRecords tokenKind pubKeyID view wtx w nTxFee (i + 1) vout := by
  rw [debitRecords, skip_eq_not_isPaid]
  cases isPaid tokenKind view txout <;> rfl

/-- The payment rows are the paid outputs, in order. -/
theorem debitRecords_idx (wtx : WalletTx) (w : Bool) :
    ∀ (nTxFee : Int) (i : Nat) (vout : List TxOut),
      (debitRecords tokenKind pubKeyID view wtx w nTxFee i vout).map (·.idx) =
        ((vout.enumFrom i).filter fun p => isPaid tokenKind view p.2).map (·.1)
  | _, _, [] => rfl
  | nTxFee, i, txout :: vout => by
    rw [debitRecords_cons, List.enumFrom_cons, List.filter_cons]
    by_cases hp : isPaid tokenKind view txout
    · simp only [hp, if_true, List.map_cons, debitRecord_idx, debitRecords_idx]
    · simp only [hp, Bool.false_eq_true, if_false, debitRecords_idx]

/-- The payment rows' debits are minus the paid outputs' values, and the first row's is also
less the fee `nTxFee` when positive: the fee is counted once, on the first row. -/
theorem debitRecords_debit (wtx : WalletTx) (w : Bool) :
    ∀ (nTxFee : Int) (i : Nat) (vout : List TxOut),
      (debitRecords tokenKind pubKeyID view wtx w nTxFee i vout).map (·.debit) =
        ((vout.filter (isPaid tokenKind view)).map fun txout => -txout.nValue).modifyHead
          (· - max nTxFee 0)
  | _, _, [] => rfl
  | nTxFee, i, txout :: vout => by
    rw [debitRecords_cons, List.filter_cons]
    cases isPaid tokenKind view txout
    · simp only [Bool.false_eq_true, if_false, debitRecords_debit]
    · -- the rows after the first carry no fee
      have hrest : max (if nTxFee > 0 then 0 else nTxFee) 0 = 0 := by split_ifs <;> omega
      simp only [if_true, List.map_cons, List.modifyHead_cons, debitRecords_debit, hrest,
        sub_zero]
      refine congrArg₂ _ ?_ (congrFun List.modifyHead_id _)
      split_ifs <;> omega

theorem sum_modifyHead_sub (l : List Int) (c : Int) :
    (l.modifyHead (· - c)).sum = l.sum - if l = [] then 0 else c := by
  cases l <;> simp
  ring

/-- The payment rows' debits add up to the paid outputs' values and the fee `nTxFee`, which the
first row takes when positive. -/
theorem debitRecords_debit_sum (wtx : WalletTx) (w : Bool) (nTxFee : Int) (i : Nat)
    (vout : List TxOut) :
    ((debitRecords tokenKind pubKeyID view wtx w nTxFee i vout).map (·.debit)).sum =
      -((vout.filter (isPaid tokenKind view)).map (·.nValue)).sum -
        if vout.any (isPaid tokenKind view) then max nTxFee 0 else 0 := by
  have hneg : ((vout.filter (isPaid tokenKind view)).map fun txout => -txout.nValue).sum =
      -((vout.filter (isPaid tokenKind view)).map (·.nValue)).sum := by
    rw [List.sum_neg, List.map_map]
    rfl
  rw [debitRecords_debit, sum_modifyHead_sub, hneg]
  congr 1
  cases h : vout.any (isPaid tokenKind view) <;> simp_all

/-- A payment: every input is the wallet's, and some coin output is not. Then the coin rows are
one for each paid output, in order. Each row's debit is minus its output's value, and the first
row's is also less the fee `nDebit - GetValueOut()` when positive, so the debits add up to what
left the wallet, with the fee counted once. -/
theorem decomposeTransaction_sent (tokensDeployed : Bool) {wtx : WalletTx} {v : Int}
    (hnet : wtx.credit - wtx.debit ≤ 0) (hcb : wtx.isCoinBase = false)
    (hcs : wtx.isCoinStake = false) (hfrom : ∀ mine ∈ wtx.vinMine, mine ≠ .no)
    (hto : ∃ txout ∈ wtx.vout, isPaid tokenKind view txout = true)
    (hv : valueOut maxMoney wtx = some (.ok v)) :
    ∃ parts, decomposeTransaction tokenKind pubKeyID maxMoney view lookups tokensDeployed wtx =
        some (.ok (if tokensDeployed then parts ++ tokenRecords view lookups wtx else parts)) ∧
      parts.map (·.idx) = ((wtx.vout.enumFrom 0).filter fun p => isPaid tokenKind view p.2).map
        (·.1) ∧
      parts.map (·.debit) =
        ((wtx.vout.filter (isPaid tokenKind view)).map fun txout => -txout.nValue).modifyHead
          (· - max (wtx.debit - v) 0) ∧
      (parts.map (·.debit)).sum =
        -((wtx.vout.filter (isPaid tokenKind view)).map (·.nValue)).sum - max (wtx.debit - v) 0 := by
  have hfrom' : wtx.vinMine.foldl minMine .spendable ≠ .no := by
    rw [Ne, foldl_minMine_eq_no]
    rintro (h | h)
    · cases h
    · exact hfrom _ h rfl
  obtain ⟨txout, hmem, hpaid⟩ := hto
  have hto' : (wtx.vout.filter fun txout => !isTokenOut tokenKind txout).foldl
      (fun fAll txout => minMine fAll (view.isMine txout.scriptPubKey)) .spendable = .no := by
    rw [← List.foldl_map, foldl_minMine_eq_no]
    simp only [isPaid, Bool.and_eq_true, decide_eq_true_eq] at hpaid
    exact .inr (List.mem_map.2 ⟨txout, List.mem_filter.2 ⟨hmem, hpaid.1⟩, hpaid.2⟩)
  refine ⟨debitRecords tokenKind pubKeyID view wtx (wtx.vinMine.any IsMineType.isWatchOnly ||
    (wtx.vout.filter fun txout => !isTokenOut tokenKind txout).any fun txout =>
      (view.isMine txout.scriptPubKey).isWatchOnly) (wtx.debit - v) 0 wtx.vout, ?_,
    debitRecords_idx _ _ _ _ _, debitRecords_debit _ _ _ _ _, ?_⟩
  · simp only [decomposeTransaction, coinRecords, hcb, hcs, Bool.or_false,
      decide_eq_true_eq, not_lt.2 hnet, decide_False, if_false, hfrom', hto', ne_eq,
      not_true_eq_false, and_false, not_false_eq_true, true_and, if_true, hv, Option.map_some',
      Except.map, Bool.false_eq_true, ite_false]
  · rw [debitRecords_debit_sum, if_pos (List.any_eq_true.2 ⟨txout, hmem, hpaid⟩)]

/-- A wallet that owns no output. -/
def strangerView : WalletView :=
  { isMine := fun _ => .no, isMineDest := fun _ => false, encodeDestination := fun _ => "" }

/-- Token lookups that find nothing. -/
def noTokenLookups : TokenLookups :=
  { isTokenNameAnOwner := fun _ => false, checkIssueDataTx := fun _ => false,
    tokenFromTransaction := fun _ => none, getTokenMetaDataIfExists := fun _ => none,
    defaultUnits := 0, ownerUnits := 0 }

/-- A payment of 5 and 2 from the wallet's input of 10: a fee of 3. -/
def paymentTx : WalletTx :=
  { hash := 1, txTime := 0, credit := 0, debit := 10, change := 0, isCoinBase := false,
    isCoinStake := false, vinMine := [.spendable],
    vout := [{ nValue := 5, nValue_range := by decide, scriptPubKey := [] },
      { nValue := 2, nValue_range := by decide, scriptPubKey := [] }],
    mapValueFrom := "", mapValueTo := "", tokensReceived := [], tokensSent := [] }

theorem decomposeTransaction_sent_fee :
    ∃ parts, decomposeTransaction (fun _ => none) (fun _ => none) 100 strangerView noTokenLookups
        false paymentTx = some (.ok parts) ∧ parts.map (·.debit) = [-8, -2] :=
  let ⟨parts, h, _, hdebit, _⟩ := @decomposeTransaction_sent (fun _ => none) (fun _ => none) 100
    strangerView noTokenLookups false paymentTx 7 (by decide) rfl rfl (by decide)
    ⟨_, List.mem_cons_self _ _, rfl⟩ rfl
  ⟨parts, h, hdebit.trans rfl⟩

/-! ### The credit view of a coinstake -/

/-- Once a coinstake's row is in, the rest of the loop adds none. -/
theorem creditRecords_hashPrev {wtx : WalletTx} (hcs : wtx.isCoinStake = true) (nNet : Int) :
    ∀ (i : Nat) (vout : List TxOut),
      creditRecords tokenKind pubKeyID maxMoney view wtx nNet wtx.hash i vout = some (.ok [])
  | _, [] => rfl
  | i, txout :: vout => by
    rw [creditRecords]
    simp only [hcs, if_true, eq_self_iff_true, ite_self]
    exact creditRecords_hashPrev hcs nNet (i + 1) vout

/-- Before its row, a coinstake's loop gives one row, at the first coin output the wallet owns,
crediting `stakeCredit`, or none when the wallet owns no coin output. -/
theorem creditRecords_coinstake {wtx : WalletTx} (hcs : wtx.isCoinStake = true) (nNet : Int)
    {hashPrev : Nat} (hprev : hashPrev ≠ wtx.hash) :
    ∀ (i : Nat) (vout : List TxOut),
      creditRecords tokenKind pubKeyID maxMoney view wtx nNet hashPrev i vout =
        match (vout.enumFrom i).find? fun p => isOwnedCoin tokenKind view p.2 with
        | none => some (.ok [])
        | some (j, txout) => (stakeCredit maxMoney wtx nNet).map (Except.map fun credit =>
            [{ creditRecord tokenKind pubKeyID view wtx j txout (view.isMine txout.scriptPubKey)
                with credit }])
  | _, [] => rfl
  | i, txout :: vout => by
    rw [creditRecords, List.enumFrom_cons, List.find?_cons, skip_eq_not_isOwnedCoin]
    cases isOwnedCoin tokenKind view txout
    · exact creditRecords_coinstake hcs nNet hprev (i + 1) vout
    · simp only [Bool.not_true, Bool.false_eq_true, if_false, hcs, if_true, if_neg hprev]
      rcases stakeCredit maxMoney wtx nNet with _ | _ | credit
      · rfl
      · rfl
      · simp only [Option.some_bind, creditRecords_hashPrev hcs, Option.map_some', Except.map]

/-- A coinstake with a non-null hash shows one coin row however many of its coin outputs the
wallet owns: at the first of them, crediting the whole reward (`nNet` when positive, and
otherwise `GetValueOut() - nDebit`, read only then); and none when the wallet owns none. -/
theorem decomposeTransaction_coinstake (tokensDeployed : Bool) {wtx : WalletTx}
    (hcs : wtx.isCoinStake = true) (hhash : wtx.hash ≠ 0) :
    decomposeTransaction tokenKind pubKeyID maxMoney view lookups tokensDeployed wtx =
      Option.map (Except.map fun parts =>
          if tokensDeployed then parts ++ tokenRecords view lookups wtx else parts)
        (match (wtx.vout.enumFrom 0).find? fun p : Nat × TxOut => isOwnedCoin tokenKind view p.2
          with
        | none => some (.ok [])
        | some (j, txout) =>
          (stakeCredit maxMoney wtx (wtx.credit - wtx.debit)).map (Except.map fun credit =>
            [{ creditRecord tokenKind pubKeyID view wtx j txout (view.isMine txout.scriptPubKey)
                with credit }])) := by
  rw [decomposeTransaction, coinRecords]
  simp only [hcs, Bool.or_true, if_true]
  rw [creditRecords_coinstake hcs _ hhash.symm]

/-- A wallet that owns every output. -/
def ownerView : WalletView :=
  { isMine := fun _ => .spendable, isMineDest := fun _ => false, encodeDestination := fun _ => "" }

/-- A coinstake of the wallet's input of 10 into outputs of 0, 7 and 8: a reward of 5. -/
def stakeTx : WalletTx :=
  { hash := 1, txTime := 0, credit := 15, debit := 10, change := 0, isCoinBase := false,
    isCoinStake := true, vinMine := [.spendable],
    vout := [{ nValue := 0, nValue_range := by decide, scriptPubKey := [] },
      { nValue := 7, nValue_range := by decide, scriptPubKey := [] },
      { nValue := 8, nValue_range := by decide, scriptPubKey := [] }],
    mapValueFrom := "", mapValueTo := "", tokensReceived := [], tokensSent := [] }

theorem decomposeTransaction_coinstake_threeOwned :
    ∃ row, decomposeTransaction (fun _ => none) (fun _ => none) 100 ownerView noTokenLookups
        false stakeTx = some (.ok [row]) ∧ row.idx = 0 ∧ row.credit = 5 := by
  rw [decomposeTransaction_coinstake false rfl (by decide)]
  exact ⟨_, rfl, rfl, rfl⟩

end Decompose

end TransactionRecord

end AokChain
