import AokChain.Qt.Units
import AokChain.Qt.TransactionRecord

/-!
# `TransactionRecord::updateStatus`: a row's status and its sort key

`updateStatus` gives a row of the transaction list the following:

* its status, from the transaction's finality, maturity, depth, age and relay count;
* whether it counts for the balance;
* the key the list sorts its rows by. The key is `strprintf("%010d-%01d-%010u-%03d", …)` of
  four fields: the block's height (`INT_MAX` before the transaction is in a block), whether the
  transaction is a coinbase or coinstake, the time the wallet received it, and the row's output
  index. Each field is written in decimal, with zeros in front up to a fixed width.

Strings of digits of one length compare as their values. So the keys order the rows by those
four fields, in that order, as long as each field fits its width. The height and the time
always fit, since an `int` or an `unsigned int` has at most ten digits. The output index fits
only below 1000: the row of a transaction's output 1000 sorts before the row of its output 999
(`sortKey_lt_iff`).

What `updateStatus` asks the wallet and the chain is a parameter (`WalletTxStatus`):
wallet.cpp, the block index and the chain are not among the sources.
-/

namespace AokChain

namespace QString

/-- `strprintf("%0*d", width, n)` for `n ≥ 0`: the decimal digits of `n`, with zeros in front up
to `width` characters. -/
def zeroPadded (width n : Nat) : List Char :=
  rightJustified (number n) width '0'

theorem isDigit_toNat {c : Char} (h : c.isDigit = true) : 48 ≤ c.toNat ∧ c.toNat ≤ 57 := by
  unfold Char.isDigit at h
  simp only [Bool.and_eq_true, decide_eq_true_eq] at h
  exact h

theorem digitsValue_singleton (c : Char) : digitsValue [c] = c.toNat - 48 := by
  simp [digitsValue, digitStep]

theorem digitsValue_cons (c : Char) (s : List Char) :
    digitsValue (c :: s) = (c.toNat - 48) * 10 ^ s.length + digitsValue s := by
  rw [← List.singleton_append, digitsValue_append, digitsValue_singleton]

theorem digitsValue_lt {s : List Char} (h : ∀ c ∈ s, c.isDigit = true) :
    digitsValue s < 10 ^ s.length := by
  induction s with
  | nil => decide
  | cons c s ih =>
    have hc := isDigit_toNat (h c (List.mem_cons_self c s))
    have hs := ih fun x hx => h x (List.mem_cons_of_mem c hx)
    have := Nat.mul_le_mul_right (10 ^ s.length) (show c.toNat - 48 ≤ 9 by omega)
    rw [digitsValue_cons, List.length_cons, pow_succ]
    omega

/-- Two numbers written with `P` as the base of their last digit compare by the first digit,
then by the rest. -/
theorem mul_add_lt_mul_add_iff {a b c d P : Nat} (hb : b < P) (hd : d < P) :
    a * P + b < c * P + d ↔ a < c ∨ a = c ∧ b < d := by
  constructor
  · intro h
    rcases lt_trichotomy a c with hac | rfl | hca
    · exact .inl hac
    · exact .inr ⟨rfl, by omega⟩
    · have := Nat.mul_le_mul_right P hca
      rw [Nat.succ_mul] at this
      omega
  · rintro (hac | ⟨rfl, hbd⟩)
    · have := Nat.mul_le_mul_right P hac
      rw [Nat.succ_mul] at this
      omega
    · omega

theorem cons_lt_cons_iff {x y : Char} {l l' : List Char} :
    x :: l < y :: l' ↔ x < y ∨ x = y ∧ l < l' := by
  constructor
  · intro h
    cases h with
    | cons h => exact .inr ⟨rfl, h⟩
    | rel h => exact .inl h
  · rintro (h | ⟨rfl, h⟩)
    · exact .rel h
    · exact .cons h

/-- Texts whose first parts have one length compare by the first parts, then by the rest. -/
theorem append_lt_append_iff {a b c d : List Char} (h : a.length = b.length) :
    a ++ c < b ++ d ↔ a < b ∨ a = b ∧ c < d := by
  induction a generalizing b with
  | nil =>
    rcases b with _ | ⟨y, b⟩
    · have : ¬([] : List Char) < [] := fun h => nomatch h
      simp [this]
    · simp at h
  | cons x a ih =>
    rcases b with _ | ⟨y, b⟩
    · simp at h
    · simp only [List.cons_append, cons_lt_cons_iff, ih (by simpa using h), List.cons.injEq]
      tauto

/-- Strings of digits of one length compare as their values. -/
theorem lt_iff_digitsValue_lt {s t : List Char} (hs : ∀ c ∈ s, c.isDigit = true)
    (ht : ∀ c ∈ t, c.isDigit = true) (hlen : s.length = t.length) :
    s < t ↔ digitsValue s < digitsValue t := by
  induction s generalizing t with
  | nil =>
    rcases t with _ | ⟨y, t⟩
    · exact ⟨fun h => (nomatch h), fun h => absurd h (lt_irrefl 0)⟩
    · simp at hlen
  | cons x s ih =>
    rcases t with _ | ⟨y, t⟩
    · simp at hlen
    · have hx := isDigit_toNat (hs x (List.mem_cons_self x s))
      have hy := isDigit_toNat (ht y (List.mem_cons_self y t))
      have hs' : ∀ c ∈ s, c.isDigit = true := fun c hc => hs c (List.mem_cons_of_mem x hc)
      have ht' : ∀ c ∈ t, c.isDigit = true := fun c hc => ht c (List.mem_cons_of_mem y hc)
      have hlen' : s.length = t.length := by simpa using hlen
      have hxy : x = y ↔ x.toNat - 48 = y.toNat - 48 :=
        ⟨fun h => h ▸ rfl, fun h => Char.ext (UInt32.toNat.inj (show x.toNat = y.toNat by omega))⟩
      have hlt : x < y ↔ x.toNat - 48 < y.toNat - 48 := by
        show x.toNat < y.toNat ↔ _
        omega
      rw [cons_lt_cons_iff, ih hs' ht' hlen', digitsValue_cons, digitsValue_cons, hlen',
        mul_add_lt_mul_add_iff (hlen' ▸ digitsValue_lt hs') (digitsValue_lt ht'), hxy, hlt]

theorem zeroPadded_isDigit (width n : Nat) : ∀ c ∈ zeroPadded width n, c.isDigit = true :=
  AokChainUnits.rightJustified_isDigit n width

theorem length_zeroPadded {width n : Nat} (hw : 1 ≤ width) (h : n < 10 ^ width) :
    (zeroPadded width n).length = width := by
  rw [zeroPadded, length_rightJustified, max_eq_left ((length_number_le_iff hw n).2 h)]

theorem digitsValue_zeroPadded (width n : Nat) : digitsValue (zeroPadded width n) = n := by
  rw [zeroPadded, digitsValue_rightJustified_zero, digitsValue_number]

/-- Numbers written to one width compare as the numbers, while they fit the width. -/
theorem zeroPadded_lt_iff {width n m : Nat} (hw : 1 ≤ width) (hn : n < 10 ^ width)
    (hm : m < 10 ^ width) : zeroPadded width n < zeroPadded width m ↔ n < m := by
  rw [lt_iff_digitsValue_lt (zeroPadded_isDigit width n) (zeroPadded_isDigit width m)
    (by rw [length_zeroPadded hw hn, length_zeroPadded hw hm]), digitsValue_zeroPadded,
    digitsValue_zeroPadded]

theorem zeroPadded_inj {width n m : Nat} (h : zeroPadded width n = zeroPadded width m) : n = m := by
  simpa only [digitsValue_zeroPadded] using congrArg digitsValue h

/-- A key whose first field is written to one width compares by that field, then by the rest. -/
theorem zeroPadded_append_lt_iff {width n m : Nat} (hw : 1 ≤ width) (hn : n < 10 ^ width)
    (hm : m < 10 ^ width) {c d : List Char} :
    zeroPadded width n ++ c < zeroPadded width m ++ d ↔ n < m ∨ n = m ∧ c < d := by
  rw [append_lt_append_iff (by rw [length_zeroPadded hw hn, length_zeroPadded hw hm]),
    zeroPadded_lt_iff hw hn hm]
  exact or_congr_right (and_congr_left fun _ => ⟨zeroPadded_inj, fun h => h ▸ rfl⟩)

theorem cons_lt_cons_self_iff {x : Char} {c d : List Char} : x :: c < x :: d ↔ c < d := by
  rw [cons_lt_cons_iff]
  simp

end QString

open Script

/-- `TransactionStatus::Status`. -/
inductive Status
  | confirmed
  | openUntilDate
  | openUntilBlock
  | offline
  | unconfirmed
  | confirming
  | conflicted
  | abandoned
  | immature
  | maturesWarning
  | notAccepted
  deriving DecidableEq, Repr

/-- The fields of `TransactionStatus` that `updateStatus` sets. -/
structure TransactionStatus where
  sortKey : List Char
  countsForBalance : Bool
  depth : Int
  cur_num_blocks : Int
  status : Status
  open_for : Int
  matures_in : Int
  needsUpdate : Bool
  deriving DecidableEq, Repr

/-- What `updateStatus` asks of the wallet transaction and the chain: the height of the block it
is in (`none` outside `mapBlockIndex`), `IsCoinBase() || IsCoinStake()`, `nTimeReceived`,
`IsTrusted()`, `GetBlocksToMaturity()`, `GetDepthInMainChain()`, `chainActive.Height()`,
`CheckFinalTx`, `nLockTime`, `IsInMainChain()`, `GetAdjustedTime()`, `GetRequestCount()` and
`isAbandoned()`. -/
structure WalletTxStatus where
  blockHeight : Option Nat
  isGenerated : Bool
  nTimeReceived : Nat
  isTrusted : Bool
  blocksToMaturity : Int
  depthInMainChain : Int
  chainHeight : Int
  checkFinalTx : Bool
  nLockTime : Nat
  isInMainChain : Bool
  adjustedTime : Int
  requestCount : Int
  isAbandoned : Bool

namespace TransactionRecord

/-- `INT_MAX`, the height of a transaction in no block. -/
def intMax : Nat := 2 ^ 31 - 1

/-- `status.sortKey`: `strprintf("%010d-%01d-%010u-%03d", height, generated, nTimeReceived,
idx)`. -/
def sortKey (height : Nat) (generated : Bool) (nTimeReceived idx : Nat) : List Char :=
  QString.zeroPadded 10 height ++ '-' :: QString.zeroPadded 1 (if generated then 1 else 0) ++
    '-' :: QString.zeroPadded 10 nTimeReceived ++ '-' :: QString.zeroPadded 3 idx

/-- The status proper, with `open_for` and `matures_in`: open while not final, by maturity for a
generated row, and otherwise by depth, age and relay count. `recommendedNumConfirmations` is
`RecommendedNumConfirmations`. `nLockTime - chainActive.Height()` is computed in `uint32_t`. -/
def statusOf (recommendedNumConfirmations : Int) (type : RecordType) (wtx : WalletTxStatus) :
    Status × Int × Int :=
  if !wtx.checkFinalTx then
    if wtx.nLockTime < locktimeThreshold then
      (.openUntilBlock, (wtx.nLockTime - wtx.chainHeight) % 2 ^ 32, 0)
    else (.openUntilDate, wtx.nLockTime, 0)
  else if type = .generated then
    if wtx.blocksToMaturity > 0 then
      if wtx.isInMainChain then
        if wtx.adjustedTime - wtx.nTimeReceived > 2 * 60 ∧ wtx.requestCount = 0 then
          (.maturesWarning, 0, wtx.blocksToMaturity)
        else (.immature, 0, wtx.blocksToMaturity)
      else (.notAccepted, 0, 0)
    else (.confirmed, 0, 0)
  else if wtx.depthInMainChain < 0 then (.conflicted, 0, 0)
  else if wtx.adjustedTime - wtx.nTimeReceived > 2 * 60 ∧ wtx.requestCount = 0 then
    (.offline, 0, 0)
  else if wtx.depthInMainChain = 0 then
    (if wtx.isAbandoned then .abandoned else .unconfirmed, 0, 0)
  else if wtx.depthInMainChain < recommendedNumConfirmations then (.confirming, 0, 0)
  else (.confirmed, 0, 0)

/-- `TransactionRecord::updateStatus(wtx)` for the row of type `type` at output `idx`, from
the status `old` it had: `open_for` and `matures_in` keep their old values where the branch
taken does not set them. -/
def updateStatus (recommendedNumConfirmations : Int) (type : RecordType) (idx : Nat)
    (old : TransactionStatus) (wtx : WalletTxStatus) : TransactionStatus :=
  let (status, open_for, matures_in) := statusOf recommendedNumConfirmations type wtx
  { sortKey := sortKey (wtx.blockHeight.getD intMax) wtx.isGenerated wtx.nTimeReceived idx
    countsForBalance := wtx.isTrusted && !(wtx.blocksToMaturity > 0)
    depth := wtx.depthInMainChain
    cur_num_blocks := wtx.chainHeight
    status
    open_for := if !wtx.checkFinalTx then open_for else old.open_for
    matures_in :=
      if wtx.checkFinalTx ∧ type = .generated ∧ wtx.blocksToMaturity > 0 ∧ wtx.isInMainChain then
        matures_in
      else old.matures_in
    needsUpdate := false }

/-- `TransactionRecord::statusUpdateNeeded()` at the chain height `chainHeight`. -/
def statusUpdateNeeded (status : TransactionStatus) (chainHeight : Int) : Bool :=
  status.cur_num_blocks ≠ chainHeight || status.needsUpdate

/-- The sort key orders rows by the block's height, then generated before the rest, then the
time received, then the output index, as long as the output indices are below 1000; heights
and times always fit, being an `int` and an `unsigned int`. At index 1000 the order breaks: for
every transaction, its output 1000 sorts before its output 999. -/
theorem sortKey_lt_iff {h h' t t' i i' : Nat} {g g' : Bool} (hh : h ≤ intMax) (hh' : h' ≤ intMax)
    (ht : t < 2 ^ 32) (ht' : t' < 2 ^ 32) (hi : i < 1000) (hi' : i' < 1000) :
    (sortKey h g t i < sortKey h' g' t' i' ↔
      h < h' ∨ h = h' ∧ (g < g' ∨ g = g' ∧ (t < t' ∨ t = t' ∧ i < i'))) ∧
    ∀ (height time : Nat) (generated : Bool),
      sortKey height generated time 1000 < sortKey height generated time 999 := by
  have hg (b : Bool) : (if b then 1 else 0) < 10 ^ 1 := by cases b <;> decide
  refine ⟨?_, fun height time generated => ?_⟩
  · unfold intMax at hh hh'
    simp only [sortKey, List.append_assoc, List.cons_append]
    rw [QString.zeroPadded_append_lt_iff (by norm_num) (by omega) (by omega),
      QString.cons_lt_cons_self_iff, QString.zeroPadded_append_lt_iff le_rfl (hg g) (hg g'),
      QString.cons_lt_cons_self_iff, QString.zeroPadded_append_lt_iff (by norm_num) (by omega)
        (by omega), QString.cons_lt_cons_self_iff, QString.zeroPadded_lt_iff (by norm_num) hi hi']
    cases g <;> cases g' <;> simp
  · simp only [sortKey, List.append_assoc, List.cons_append, QString.append_lt_append_iff rfl,
      lt_self_iff_false, true_and, false_or, QString.cons_lt_cons_self_iff]
    norm_num [QString.zeroPadded, QString.rightJustified, QString.number, Nat.digitChar]
    decide

theorem sortKey_lt_iff_heights :
    (5 ≤ intMax ∧ 7 ≤ intMax ∧ 100 < 2 ^ 32 ∧ 100 < 2 ^ 32 ∧ 0 < 1000 ∧ 0 < 1000) ∧
      (sortKey 5 true 100 0 < sortKey 7 false 100 0 ↔
        5 < 7 ∨ 5 = 7 ∧ (true < false ∨ true = false ∧ (100 < 100 ∨ 100 = 100 ∧ 0 < 0))) :=
  ⟨by decide, (sortKey_lt_iff (by decide) (by decide) (by decide) (by decide) (by decide)
    (by decide)).1⟩

end TransactionRecord

end AokChain
