import AokChain.Script.Script

/-!
# `Solver`, destinations, and the lock time of an output

`Solver` classifies an output script: it tries the fixed shapes first (pay-to-script-hash,
token scripts, offline staking, witness programs, data carriers) and then matches the script
against its templates, operation by operation, collecting the solutions: the data that the
template's placeholders `OP_PUBKEY`, `OP_PUBKEYHASH`, `OP_SMALLINTEGER`, `OP_PUBKEYS` and
`OP_BIGINTEGER` stand for. `ExtractDestination` reads a destination from the solutions,
`GetScriptForDestination` builds the script for one, with a lock-time prefix
`<lockTime> OP_CHECKLOCKTIMEVERIFY OP_DROP` when the lock time is above 255, and `IsTimeLock`,
`CTxOut::GetLockTime` and the `TX_CLTV` case of `IsMine` decode the lock time of a `TX_CLTV`
script with `CScriptNum(vch, true, 5)`.

`Solver`'s `typeRet` and `scriptTypeRet` are in-out parameters that some paths leave as they
were, so the model takes their values in and gives them back.
-/

namespace AokChain

namespace Script

/-- `mTemplates`, in the order of its keys. -/
def templates : List (TxnOutType × List UInt8) :=
  [(.cltv, [opBigInteger, opCheckLockTimeVerify, opDrop, opDup, opHash160, opPubKeyHash,
      opEqualVerify, opCheckSig]),
    (.pubkey, [opPubKey, opCheckSig]),
    (.pubkeyhash, [opDup, opHash160, opPubKeyHash, opEqualVerify, opCheckSig]),
    (.multisig, [opSmallInteger, opPubKeys, opSmallInteger, opCheckMultiSig])]

/-- The inner loop of the `OP_PUBKEYS` placeholder: every datum of a public key's size is a
solution, until one is not or `GetOp` fails. The fuel is the script's length. -/
def pubKeysLoop :
    Nat → UInt8 → Bytes → Bytes → List Bytes → UInt8 × Bytes × Bytes × List Bytes
  | 0, opcode1, vch1, s, sols => (opcode1, vch1, s, sols)
  | fuel + 1, opcode1, vch1, s, sols =>
    if 33 ≤ vch1.length ∧ vch1.length ≤ 65 then
      match getOp s with
      | .ok (opcode1', vch1', s') => pubKeysLoop fuel opcode1' vch1' s' (sols ++ [vch1])
      | .error s' => (opInvalidOpcode, [], s', sols ++ [vch1])
    else (opcode1, vch1, s, sols)

/-- One comparison of `Solver`'s template loop: the script's operation `opcode1` pushing
`vch1` against the template's `opcode2`. It gives the solutions after it, or `none` where the
loop breaks. -/
def templateStep (opcode2 opcode1 : UInt8) (vch1 : Bytes) (sols : List Bytes) :
    Option (List Bytes) :=
  if opcode2 = opPubKey then
    if vch1.length < 33 ∨ vch1.length > 65 then none else some (sols ++ [vch1])
  else if opcode2 = opPubKeyHash then
    if vch1.length ≠ 20 then none else some (sols ++ [vch1])
  else if opcode2 = opSmallInteger then
    if opcode1 = opFalse ∨ (opTrue ≤ opcode1 ∧ opcode1 ≤ op16) then
      some (sols ++ [[decodeOpN opcode1]])
    else none
  else if opcode2 = opBigInteger then some (sols ++ [vch1])
  else if opcode1 ≠ opcode2 ∨ vch1 ≠ [] then none
  else some sols

/-- `Solver`'s loop over one template: what is left of the script, what is left of the
template, and the solutions so far. A template is a list of opcodes, so `GetOp` on it gives
its bytes one at a time. -/
def matchTemplate (s : Bytes) : List UInt8 → List Bytes → Option (List Bytes)
  | [], sols => if s = [] then some sols else none
  | opcode2 :: tpl, sols =>
    match getOp s with
    | .error _ => none
    | .ok (opcode1, vch1, s) =>
      if opcode2 = opPubKeys then
        match pubKeysLoop (s.length + 1) opcode1 vch1 s sols, tpl with
        | _, [] => none
        | (opcode1, vch1, s, sols), opcode2 :: tpl =>
          (templateStep opcode2 opcode1 vch1 sols).bind (matchTemplate s tpl)
      else (templateStep opcode2 opcode1 vch1 sols).bind (matchTemplate s tpl)

/-- The extra test of a `TX_MULTISIG` match: `1 ≤ m ≤ n` and `n` keys between them. -/
def multisigOk (sols : List Bytes) : Bool :=
  let m := ((sols.headD []).headD 0).toNat
  let n := ((sols.getLastD []).headD 0).toNat
  !(m < 1 || n < 1 || m > n || sols.length - 2 != n)

/-- `Solver`'s scan of `mTemplates`: the first template the script matches decides. -/
def scanTemplates (s : Bytes) (scriptTypeRet : TxnOutType) :
    List (TxnOutType × List UInt8) → Bool × TxnOutType × TxnOutType × List Bytes
  | [] => (false, .nonstandard, scriptTypeRet, [])
  | (t, tpl) :: rest =>
    match matchTemplate s tpl [] with
    | some sols =>
      if t = .multisig then (multisigOk sols, t, scriptTypeRet, sols)
      else (true, t, scriptTypeRet, sols)
    | none => scanTemplates s scriptTypeRet rest

/-! ### The template loop, one operation at a time -/

section Matching

variable {s rest : Bytes} {tpl : List UInt8} {sols : List Bytes}

/-- Every placeholder opcode is at or above `OP_BIGINTEGER`, so an opcode below it is none of
them. -/
theorem ne_of_lt_opBigInteger {opcode p : UInt8} (hp : opBigInteger ≤ p)
    (h : opcode < opBigInteger) : opcode ≠ p := by
  rintro rfl
  exact Nat.not_lt.mpr hp h

/-- The opcode of a push of fewer than 76 bytes is below every opcode that is not a push. -/
theorem pushOpcode_ne {d : Bytes} (hd : d.length < 76) {p : UInt8} (hp : 76 ≤ p.toNat) :
    d.length.toUInt8 ≠ p := fun e => by
  have := toNat_pushOpcode hd
  rw [e] at this
  omega

/-- A template opcode that is no placeholder matches exactly itself. -/
theorem templateStep_plain {opcode1 opcode2 : UInt8} (h : opcode2 < opBigInteger) (vch1 : Bytes)
    (sols : List Bytes) :
    templateStep opcode2 opcode1 vch1 sols =
      if opcode1 = opcode2 ∧ vch1 = [] then some sols else none := by
  simp only [templateStep, ne_of_lt_opBigInteger (by decide : opBigInteger ≤ opPubKey) h,
    ne_of_lt_opBigInteger (by decide : opBigInteger ≤ opPubKeyHash) h,
    ne_of_lt_opBigInteger (by decide : opBigInteger ≤ opSmallInteger) h,
    ne_of_lt_opBigInteger (by decide : opBigInteger ≤ opBigInteger) h, if_false]
  by_cases h1 : opcode1 = opcode2 <;> by_cases h2 : vch1 = [] <;> simp [h1, h2]

theorem templateStep_pubKey (opcode1 : UInt8) (vch1 : Bytes) (sols : List Bytes) :
    templateStep opPubKey opcode1 vch1 sols =
      if vch1.length < 33 ∨ vch1.length > 65 then none else some (sols ++ [vch1]) := rfl

theorem templateStep_pubKeyHash (opcode1 : UInt8) (vch1 : Bytes) (sols : List Bytes) :
    templateStep opPubKeyHash opcode1 vch1 sols =
      if vch1.length ≠ 20 then none else some (sols ++ [vch1]) := rfl

theorem templateStep_smallInteger (opcode1 : UInt8) (vch1 : Bytes) (sols : List Bytes) :
    templateStep opSmallInteger opcode1 vch1 sols =
      if opcode1 = opFalse ∨ (opTrue ≤ opcode1 ∧ opcode1 ≤ op16) then
        some (sols ++ [[decodeOpN opcode1]])
      else none := rfl

theorem templateStep_bigInteger (opcode1 : UInt8) (vch1 : Bytes) (sols : List Bytes) :
    templateStep opBigInteger opcode1 vch1 sols = some (sols ++ [vch1]) := rfl

theorem matchTemplate_nil (s : Bytes) (sols : List Bytes) :
    matchTemplate s [] sols = if s = [] then some sols else none := rfl

/-- One turn of the loop on a template opcode other than `OP_PUBKEYS`. -/
theorem matchTemplate_cons {opcode1 opcode2 : UInt8} {vch1 : Bytes}
    (h : opcode2 ≠ opPubKeys) (hs : getOp s = .ok (opcode1, vch1, rest)) :
    matchTemplate s (opcode2 :: tpl) sols =
      (templateStep opcode2 opcode1 vch1 sols).bind (matchTemplate rest tpl) := by
  -- through the structural recursion itself: the equation lemmas of this nested match take
  -- seconds to generate
  delta matchTemplate
  dsimp only [List.brecOn, List.rec]
  simp only [hs]
  exact if_neg h

/-- One turn of the loop on a template opcode that is no placeholder. -/
theorem matchTemplate_plain {opcode1 opcode2 : UInt8} {vch1 : Bytes}
    (h : opcode2 < opBigInteger) (hs : getOp s = .ok (opcode1, vch1, rest)) :
    matchTemplate s (opcode2 :: tpl) sols =
      if opcode1 = opcode2 ∧ vch1 = [] then matchTemplate rest tpl sols else none := by
  rw [matchTemplate_cons (ne_of_lt_opBigInteger (by decide : opBigInteger ≤ opPubKeys) h) hs,
    templateStep_plain h]
  split <;> rfl

theorem matchTemplate_opcode {opcode : UInt8} (h1 : opPushData4 < opcode)
    (h2 : opcode < opBigInteger) :
    matchTemplate (opcode :: s) (opcode :: tpl) sols = matchTemplate s tpl sols := by
  simp [matchTemplate_plain h2 (getOp_opcode h1 s)]

theorem matchTemplate_opcode_ne {opcode1 opcode2 : UInt8} (h1 : opPushData4 < opcode1)
    (h2 : opcode2 < opBigInteger) (hne : opcode1 ≠ opcode2) :
    matchTemplate (opcode1 :: s) (opcode2 :: tpl) sols = none := by
  simp [matchTemplate_plain h2 (getOp_opcode h1 s), hne]

theorem matchTemplate_push_opcode {d : Bytes} {opcode2 : UInt8} (hd : d.length < 76)
    (h1 : opPushData4 < opcode2) (h2 : opcode2 < opBigInteger) :
    matchTemplate (pushData d ++ s) (opcode2 :: tpl) sols = none := by
  have h76 : 76 ≤ opcode2.toNat := Nat.le_of_lt (Nat.lt_trans (by decide) h1)
  simp [matchTemplate_plain h2 (getOp_pushData hd s), pushOpcode_ne hd h76]

/-- `OP_BIGINTEGER` takes any push, of any length. -/
theorem matchTemplate_bigInteger_push {d : Bytes} (hd : d.length < 76) :
    matchTemplate (pushData d ++ s) (opBigInteger :: tpl) sols =
      matchTemplate s tpl (sols ++ [d]) := by
  simp [matchTemplate_cons (by decide : opBigInteger ≠ opPubKeys) (getOp_pushData hd s),
    templateStep_bigInteger]

/-- `OP_BIGINTEGER` takes any opcode too, as the empty push. -/
theorem matchTemplate_bigInteger_opcode {opcode1 : UInt8} (h1 : opPushData4 < opcode1) :
    matchTemplate (opcode1 :: s) (opBigInteger :: tpl) sols =
      matchTemplate s tpl (sols ++ [[]]) := by
  simp [matchTemplate_cons (by decide : opBigInteger ≠ opPubKeys) (getOp_opcode h1 s),
    templateStep_bigInteger]

theorem matchTemplate_pubKeyHash_push {d : Bytes} (hd : d.length = 20) :
    matchTemplate (pushData d ++ s) (opPubKeyHash :: tpl) sols =
      matchTemplate s tpl (sols ++ [d]) := by
  simp [matchTemplate_cons (by decide : opPubKeyHash ≠ opPubKeys)
    (getOp_pushData (show d.length < 76 by omega) s), templateStep_pubKeyHash, hd]

theorem matchTemplate_pubKey_push {d : Bytes} (hd : d.length < 76) :
    matchTemplate (pushData d ++ s) (opPubKey :: tpl) sols =
      if d.length < 33 ∨ d.length > 65 then none else matchTemplate s tpl (sols ++ [d]) := by
  rw [matchTemplate_cons (by decide : opPubKey ≠ opPubKeys) (getOp_pushData hd s),
    templateStep_pubKey]
  split <;> rfl

theorem matchTemplate_pubKey_opcode {opcode1 : UInt8} (h1 : opPushData4 < opcode1) :
    matchTemplate (opcode1 :: s) (opPubKey :: tpl) sols = none := by
  simp [matchTemplate_cons (by decide : opPubKey ≠ opPubKeys) (getOp_opcode h1 s),
    templateStep_pubKey]

/-- A push of 1 to 75 bytes is no small integer. -/
theorem matchTemplate_smallInteger_push {d : Bytes} (h0 : 0 < d.length) (hd : d.length < 76) :
    matchTemplate (pushData d ++ s) (opSmallInteger :: tpl) sols = none := by
  have hn := toNat_pushOpcode hd
  have hne : ¬(d.length.toUInt8 = opFalse ∨
      opTrue ≤ d.length.toUInt8 ∧ d.length.toUInt8 ≤ op16) := by
    rintro (e | ⟨h81, -⟩)
    · rw [← hn, e] at h0
      exact absurd h0 (by decide)
    · exact absurd (show 81 ≤ d.length.toUInt8.toNat from h81) (by omega)
  simp [matchTemplate_cons (by decide : opSmallInteger ≠ opPubKeys) (getOp_pushData hd s),
    templateStep_smallInteger, hne]

end Matching

section Solver

variable (tokenKind : Bytes → Option (TxnOutType × Bool))

/-- `Solver(scriptPubKey, typeRet, scriptTypeRet, vSolutionsRet)`: its verdict, `typeRet`,
`scriptTypeRet` and the solutions. -/
def solver (scriptPubKey : Bytes) (typeRet scriptTypeRet : TxnOutType) :
    Bool × TxnOutType × TxnOutType × List Bytes :=
  if isPayToScriptHash scriptPubKey then
    (true, .scripthash, scriptTypeRet, [(scriptPubKey.drop 2).take 20])
  else
    match isTokenScript tokenKind scriptPubKey with
    | some (nType, nScriptType, _) =>
      if nScriptType = .scripthash then
        (true, nType, nScriptType, [(scriptPubKey.drop 2).take 20])
      else if nScriptType = .pubkeyhash then
        (true, nType, nScriptType, [(scriptPubKey.drop 3).take 20])
      else (false, nType, nScriptType, [])
    | none =>
      if isOfflineStaking scriptPubKey then
        (true, .offlineStaking, scriptTypeRet,
          [(scriptPubKey.drop 5).take 20, (scriptPubKey.drop 31).take 20])
      else
        match isWitnessProgram scriptPubKey with
        | some (witnessversion, witnessprogram) =>
          if witnessversion = 0 ∧ witnessprogram.length = 20 then
            (true, .witnessV0KeyHash, scriptTypeRet, [witnessprogram])
          else if witnessversion = 0 ∧ witnessprogram.length = 32 then
            (true, .witnessV0ScriptHash, scriptTypeRet, [witnessprogram])
          else (false, typeRet, scriptTypeRet, [])
        | none =>
          if 1 ≤ scriptPubKey.length ∧ scriptPubKey[0]! = opReturn ∧
              isPushOnly scriptPubKey.length (scriptPubKey.drop 1) then
            (true, .nullData, scriptTypeRet, [])
          else scanTemplates scriptPubKey scriptTypeRet templates

/-- Modelled from the spec: the three-argument `Solver(scriptPubKey, typeRet, vSolutionsRet)`,
the four-argument one with a destination kind of its own. -/
def solverKind (scriptPubKey : Bytes) (typeRet : TxnOutType) : Bool × TxnOutType × List Bytes :=
  let r := solver tokenKind scriptPubKey typeRet .nonstandard
  (r.1, r.2.1, r.2.2.2)

/-- `CTxDestination`: no destination, a key hash `CKeyID`, a script hash `CScriptID`, or an
offline-staking pair of key hashes. A hash is its bytes; a valid one has 20. -/
inductive TxDestination
  | noDestination
  | keyID (id : Bytes)
  | scriptID (id : Bytes)
  | keyPair (staking spending : Bytes)
  deriving DecidableEq, Repr

/-- The destinations `GetScriptForDestination` encodes, with 20-byte hashes. -/
def TxDestination.Valid : TxDestination → Prop
  | .noDestination => False
  | .keyID id => id.length = 20
  | .scriptID id => id.length = 20
  | .keyPair staking spending => staking.length = 20 ∧ spending.length = 20

/-- `CScriptVisitor`: the script paying to a destination, empty for no destination. -/
def scriptVisitor : TxDestination → Bytes
  | .noDestination => []
  | .keyID id => [opDup, opHash160] ++ pushData id ++ [opEqualVerify, opCheckSig]
  | .keyPair staking spending =>
    [opOfflineStake, opIf, opDup, opHash160] ++ pushData staking ++
      [opEqualVerify, opCheckSig, opElse, opDup, opHash160] ++ pushData spending ++
      [opEqualVerify, opCheckSig, opEndIf]
  | .scriptID id => [opHash160] ++ pushData id ++ [opEqual]

/-- `GetScriptForDestination(dest, lockTime)`: a lock time above 255 puts
`<lockTime> OP_CHECKLOCKTIMEVERIFY OP_DROP` in front, whatever the destination. -/
def getScriptForDestination (dest : TxDestination) (lockTime : Int) : Bytes :=
  if lockTime > 255 then pushInt64 lockTime ++ [opCheckLockTimeVerify, opDrop] ++ scriptVisitor dest
  else scriptVisitor dest

/-- `ExtractDestination(scriptPubKey, addressRet)`; `pubKeyID` is `CPubKey(vch)`'s
`IsValid()` and `GetID()`, from the key library. -/
def extractDestination (pubKeyID : Bytes → Option Bytes) (scriptPubKey : Bytes) :
    Option TxDestination :=
  let (ok, whichType, scriptType, vSolutions) :=
    solver tokenKind scriptPubKey .nonstandard .nonstandard
  if !ok then none
  else if whichType = .pubkey then (pubKeyID (vSolutions.getD 0 [])).map .keyID
  else if whichType = .pubkeyhash then some (.keyID (vSolutions.getD 0 []))
  else if whichType = .scripthash then some (.scriptID (vSolutions.getD 0 []))
  else if whichType = .newToken ∨ whichType = .reissueToken ∨ whichType = .transferToken then
    if scriptType = .scripthash then some (.scriptID (vSolutions.getD 0 []))
    else some (.keyID (vSolutions.getD 0 []))
  else if whichType = .cltv then some (.keyID (vSolutions.getD 1 []))
  else if whichType = .offlineStaking then
    some (.keyPair (vSolutions.getD 0 []) (vSolutions.getD 1 []))
  else none

/-- `IsTimeLock(scriptPubKey, nLockTime)`: the lock time of a `TX_CLTV` script, `none` for
any other; an error is the `scriptnum_error` thrown. -/
def isTimeLock (scriptPubKey : Bytes) : Except String (Option Int) :=
  let (ok, whichType, vSolutions) := solverKind tokenKind scriptPubKey .nonstandard
  if ok ∧ whichType = .cltv then (scriptNum (vSolutions.getD 0 []) true 5).map some
  else .ok none

/-- The two lookups of a `CKeyStore` that the lock-time code makes. -/
structure KeyStore where
  haveKey : Bytes → Bool
  getCScript : Bytes → Option Bytes

/-- `IsTimeLock(keystore, scriptPubKey, nLockTime)`: as `IsTimeLock`, after replacing a
pay-to-script-hash script the keystore knows by its redeem script. -/
def isTimeLockKeyStore (keystore : KeyStore) (scriptPubKey : Bytes) :
    Except String (Option Int) :=
  let (ok, whichType, vSolutions) := solverKind tokenKind scriptPubKey .nonstandard
  if ok then
    let (whichType, vSolutions) :=
      if whichType = .scripthash then
        match keystore.getCScript (vSolutions.getD 0 []) with
        | some subscript =>
          let r := solverKind tokenKind subscript whichType
          (r.2.1, r.2.2)
        | none => (whichType, vSolutions)
      else (whichType, vSolutions)
    if whichType = .cltv then (scriptNum (vSolutions.getD 0 []) true 5).map some
    else .ok none
  else .ok none

/-- `CTxOut::GetLockTime()`: the lock time of a `TX_CLTV` output as a `uint32_t`, `0` for any
other output. -/
def getLockTime (scriptPubKey : Bytes) : Except String UInt32 :=
  (isTimeLock tokenKind scriptPubKey).map fun n => UInt32.ofNat ((n.getD 0) % 2 ^ 32).toNat

end Solver

/-! ### What `Solver` makes of the scripts `GetScriptForDestination` builds -/

section Shapes

variable (tokenKind : Bytes → Option (TxnOutType × Bool))

/-- A script that starts with a push of 1 to 75 bytes passes none of `Solver`'s shortcuts:
it goes to the template scan. -/
theorem solver_of_push {d rest : Bytes} (h0 : 0 < d.length) (hd : d.length < 76)
    (typeRet scriptTypeRet : TxnOutType) :
    solver tokenKind (pushData d ++ rest) typeRet scriptTypeRet =
      scanTemplates (pushData d ++ rest) scriptTypeRet templates := by
  have hn := toNat_pushOpcode hd
  have hne (p : UInt8) (hp : 76 ≤ p.toNat) := pushOpcode_ne hd hp
  have hfalse : d.length.toUInt8 ≠ opFalse := fun e => by
    rw [e] at hn
    exact absurd hn (by show 0 ≠ d.length; omega)
  have htrue : d.length.toUInt8 < opTrue := show d.length.toUInt8.toNat < 81 by omega
  rw [pushData_of_lt hd]
  simp [solver, isPayToScriptHash, isTokenScript, isOfflineStaking, isWitnessProgram, hfalse,
    htrue, hne opHash160 (by decide), hne opDup (by decide), hne opOfflineStake (by decide),
    hne opReturn (by decide)]

/-- `<vch> OP_CHECKLOCKTIMEVERIFY OP_DROP` before a payment to a key hash is `TX_CLTV`, with
the pushed bytes as the first solution, whatever they are. -/
theorem solver_cltv {vch id : Bytes} (h0 : 0 < vch.length) (hv : vch.length < 76)
    (hid : id.length = 20) (typeRet scriptTypeRet : TxnOutType) :
    solver tokenKind (pushData vch ++ [opCheckLockTimeVerify, opDrop] ++ scriptVisitor (.keyID id))
      typeRet scriptTypeRet = (true, .cltv, scriptTypeRet, [vch, id]) := by
  rw [List.append_assoc, solver_of_push tokenKind h0 hv]
  simp (disch := decide) only [scanTemplates, templates, scriptVisitor, List.append_assoc,
    List.cons_append, List.nil_append, matchTemplate_bigInteger_push hv, matchTemplate_opcode,
    matchTemplate_pubKeyHash_push hid, matchTemplate_nil]
  simp

/-- The same prefix before anything whose first opcode is not `OP_DUP` matches no template. -/
theorem solver_locked_of_ne_dup {vch body : Bytes} {b : UInt8} (h0 : 0 < vch.length)
    (hv : vch.length < 76) (hb1 : opPushData4 < b) (hbd : b ≠ opDup)
    (typeRet scriptTypeRet : TxnOutType) :
    solver tokenKind (pushData vch ++ [opCheckLockTimeVerify, opDrop] ++ b :: body)
      typeRet scriptTypeRet = (false, .nonstandard, scriptTypeRet, []) := by
  rw [List.append_assoc, solver_of_push tokenKind h0 hv]
  simp (disch := decide) only [scanTemplates, templates, List.cons_append, List.nil_append,
    matchTemplate_bigInteger_push hv, matchTemplate_opcode,
    matchTemplate_opcode_ne hb1 (by decide : opDup < opBigInteger) hbd,
    matchTemplate_pubKey_push hv, matchTemplate_opcode_ne, matchTemplate_push_opcode hv,
    matchTemplate_smallInteger_push h0 hv]
  simp

theorem solver_keyID {id : Bytes} (hid : id.length = 20) (typeRet scriptTypeRet : TxnOutType) :
    solver tokenKind (scriptVisitor (.keyID id)) typeRet scriptTypeRet =
      (true, .pubkeyhash, scriptTypeRet, [id]) := by
  have hscan : solver tokenKind (scriptVisitor (.keyID id)) typeRet scriptTypeRet =
      scanTemplates (scriptVisitor (.keyID id)) scriptTypeRet templates := by
    simp [solver, scriptVisitor, pushData_of_lt (show id.length < 76 by omega), hid,
      isPayToScriptHash, isTokenScript, isOfflineStaking, isWitnessProgram,
      (by decide : opDup ≠ opFalse), (by decide : op16 < opDup), (by decide : opDup ≠ opReturn)]
  rw [hscan]
  simp (disch := decide) only [scanTemplates, templates, scriptVisitor, List.append_assoc,
    List.cons_append, List.nil_append, matchTemplate_bigInteger_opcode, matchTemplate_opcode_ne,
    matchTemplate_pubKey_opcode, matchTemplate_opcode, matchTemplate_pubKeyHash_push hid,
    matchTemplate_nil]
  simp

theorem solver_scriptID {id : Bytes} (hid : id.length = 20)
    (typeRet scriptTypeRet : TxnOutType) :
    solver tokenKind (scriptVisitor (.scriptID id)) typeRet scriptTypeRet =
      (true, .scripthash, scriptTypeRet, [id]) := by
  simp [solver, scriptVisitor, pushData_of_lt (show id.length < 76 by omega), hid,
    isPayToScriptHash, List.drop_append_eq_append_drop, List.take_append_eq_append_take,
    List.drop_eq_nil_of_le, List.take_of_length_le, show (20 : Nat).toUInt8 = 0x14 from rfl]

theorem solver_keyPair {staking spending : Bytes} (hs : staking.length = 20)
    (hp : spending.length = 20) (typeRet scriptTypeRet : TxnOutType) :
    solver tokenKind (scriptVisitor (.keyPair staking spending)) typeRet scriptTypeRet =
      (true, .offlineStaking, scriptTypeRet, [staking, spending]) := by
  simp [solver, scriptVisitor, pushData_of_lt (show staking.length < 76 by omega),
    pushData_of_lt (show spending.length < 76 by omega), hs, hp,
    isPayToScriptHash, isTokenScript, isOfflineStaking, List.drop_append_eq_append_drop,
    List.take_append_eq_append_take, List.drop_eq_nil_of_le, List.take_of_length_le,
    show (20 : Nat).toUInt8 = 0x14 from rfl, (by decide : opOfflineStake ≠ opDup),
    (by decide : opOfflineStake ≠ opHash160)]

end Shapes

/-- `isminetype`. -/
inductive IsMineType
  | no
  | watchUnsolvable
  | watchSolvable
  | spendable
  deriving DecidableEq, Repr

/-- `LOCKTIME_THRESHOLD`: lock times below it are heights, above it times. -/
def locktimeThreshold : Int := 500000000

/-- The `TX_CLTV` case of `IsMine(keystore, scriptPubKey, bestBlock, isInvalid, sigversion)`,
for `Solver`'s solutions `vSolutions`; `nHeight` and `medianTimePast` are the best block's
height and median time past. -/
def isMineCltv (keystore : KeyStore) (vSolutions : List Bytes) (nHeight medianTimePast : Int) :
    Except String IsMineType :=
  if keystore.haveKey (vSolutions.getD 1 []) then
    (scriptNum (vSolutions.getD 0 []) true 5).map fun nLockTime =>
      if nLockTime < locktimeThreshold then
        if nLockTime > nHeight then .watchSolvable else .spendable
      else if nLockTime > medianTimePast then .watchSolvable else .spendable
  else .ok .no

end Script

end AokChain
