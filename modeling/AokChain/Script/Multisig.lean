import AokChain.Script.Solutions

/-!
# Multisig, raw-key and witness scripts, read back by `Solver`

`GetScriptForMultisig(nRequired, keys)` writes `OP_m <key>... OP_n OP_CHECKMULTISIG`, and
`Solver` reads such a script with its `TX_MULTISIG` template, whose `OP_PUBKEYS` placeholder
takes every push of 33 to 65 bytes in a row. Every script `GetScriptForMultisig` writes for
1 to 16 keys and `1 ≤ nRequired ≤ keys` is accepted with its numbers and keys as the
solutions, from which `ExtractDestinations` takes the identifiers of the valid keys
(`getScriptForMultisig_roundTrip`).

`GetScriptForRawPubKey` writes `<key> OP_CHECKSIG`, which `Solver` reads as `TX_PUBKEY`.
`GetScriptForWitness` turns a redeem script into a version-0 witness program: the hash of the
key of a `TX_PUBKEY` script, the key hash of a `TX_PUBKEYHASH` one, and the SHA-256 of any
other; `Solver` reads each back as the witness kind its length says
(`solver_getScriptForWitness`).
-/

namespace AokChain

namespace Script

/-! ### The builders and `ExtractDestinations` -/

/-- Modelled from the spec: `CScript::EncodeOP_N(n)`, which asserts `0 ≤ n ≤ 16`; `none` is
the failed assertion. -/
def encodeOpN (n : Int) : Option UInt8 :=
  if 0 ≤ n ∧ n ≤ 16 then some (if n = 0 then opFalse else (n.toNat + 80).toUInt8) else none

/-- `GetScriptForRawPubKey(pubKey)`: a push of the key's bytes, then `OP_CHECKSIG`. -/
def getScriptForRawPubKey (pubKey : Bytes) : Bytes :=
  pushData pubKey ++ [opCheckSig]

/-- `GetScriptForMultisig(nRequired, keys)`; `none` where `EncodeOP_N` fails its
assertion. -/
def getScriptForMultisig (nRequired : Int) (keys : List Bytes) : Option Bytes := do
  let m ← encodeOpN nRequired
  let n ← encodeOpN keys.length
  pure ([m] ++ (keys.map pushData).flatten ++ [n, opCheckMultiSig])

/-- The two hash functions `GetScriptForWitness` uses, `CHash160` and `CSHA256`, with the
lengths of their outputs. -/
structure Hashes where
  hash160 : Bytes → Bytes
  sha256 : Bytes → Bytes
  hash160_length : ∀ b, (hash160 b).length = 20
  sha256_length : ∀ b, (sha256 b).length = 32

section Builders

variable (tokenKind : Bytes → Option (TxnOutType × Bool)) (pubKeyID : Bytes → Option Bytes)

/-- `GetScriptForWitness(redeemscript)`: `OP_0` and the witness program. -/
def getScriptForWitness (hashes : Hashes) (redeemscript : Bytes) : Bytes :=
  let (ok, typ, _, vSolutions) := solver tokenKind redeemscript .nonstandard .nonstandard
  if ok ∧ typ = .pubkey then [opFalse] ++ pushData (hashes.hash160 (vSolutions.getD 0 []))
  else if ok ∧ typ = .pubkeyhash then [opFalse] ++ pushData (vSolutions.getD 0 [])
  else [opFalse] ++ pushData (hashes.sha256 redeemscript)

/-- `ExtractDestinations(scriptPubKey, typeRet, scriptType, addressRet, nRequiredRet)`: the
verdict, `typeRet`, `scriptType`, the addresses, and `nRequiredRet`, which a call that fails
before setting it leaves as it was. -/
def extractDestinations (scriptPubKey : Bytes) (nRequiredRet : Int) :
    Bool × TxnOutType × TxnOutType × List TxDestination × Int :=
  let (ok, typeRet, scriptType, vSolutions) :=
    solver tokenKind scriptPubKey .nonstandard .nonstandard
  if !ok then (false, typeRet, scriptType, [], nRequiredRet)
  else if typeRet = .nullData then (false, typeRet, scriptType, [], nRequiredRet)
  else if typeRet = .multisig then
    let addressRet := (vSolutions.drop 1).dropLast.filterMap fun k => (pubKeyID k).map .keyID
    (!addressRet.isEmpty, typeRet, scriptType, addressRet, ((vSolutions.headD []).headD 0).toNat)
  else if typeRet = .offlineStaking then
    let addressRet := vSolutions.map .keyID
    (!addressRet.isEmpty, typeRet, scriptType, addressRet, 1)
  else
    match extractDestination tokenKind pubKeyID scriptPubKey with
    | some address => (true, typeRet, scriptType, [address], 1)
    | none => (false, typeRet, scriptType, [], 1)

end Builders

/-! ### The `OP_PUBKEYS` loop -/

section PubKeys

/-- On a run of pushes of 33 to 65 bytes, the loop takes every one of them, and stops at the
first operation that is no such push. -/
theorem pubKeysLoop_pushes {tail vch' tail' : Bytes} {opcode' : UInt8}
    (htail : getOp tail = .ok (opcode', vch', tail'))
    (hstop : ¬(33 ≤ vch'.length ∧ vch'.length ≤ 65)) :
    ∀ (ks : List Bytes) (k : Bytes) (opcode : UInt8) (sols : List Bytes) (fuel : Nat),
      (∀ x ∈ k :: ks, 33 ≤ x.length ∧ x.length ≤ 65) → ks.length + 2 ≤ fuel →
      pubKeysLoop fuel opcode k ((ks.map pushData).flatten ++ tail) sols =
        (opcode', vch', tail', sols ++ k :: ks)
  | [], k, opcode, sols, fuel + 2, hk, _ => by
    simp [pubKeysLoop, hk k (List.mem_cons_self _ _), htail, hstop]
  | k' :: ks, k, opcode, sols, fuel + 1, hk, hfuel => by
    have hk' := hk k' (by simp)
    rw [pubKeysLoop, if_pos (hk k (List.mem_cons_self _ _)), List.map_cons, List.flatten_cons,
      List.append_assoc, getOp_pushData (by omega)]
    dsimp only
    rw [pubKeysLoop_pushes htail hstop ks k' _ (sols ++ [k]) fuel
      (fun x hx => hk x (List.mem_cons_of_mem _ hx)) (by simp at hfuel; omega)]
    simp

end PubKeys

/-! ### What `Solver` makes of `GetScriptForMultisig` -/

section Build

variable (tokenKind : Bytes → Option (TxnOutType × Bool))

theorem encodeOpN_of_pos {n : Int} (h1 : 1 ≤ n) (h16 : n ≤ 16) :
    encodeOpN n = some (n.toNat + 80).toUInt8 := by
  simp [encodeOpN, show 0 ≤ n by omega, h16, show n ≠ 0 by omega]

theorem smallOp_toNat {n : Nat} (h16 : n ≤ 16) : (n + 80).toUInt8.toNat = n + 80 := by
  rw [toNat_toUInt8]
  omega

/-- `OP_1` to `OP_16` are none of the opcodes outside `[81, 96]`. -/
theorem smallOp_ne {n : Nat} (h16 : n ≤ 16) {p : UInt8} (hp : p.toNat < 81 ∨ 96 < p.toNat)
    (h1 : 1 ≤ n) : (n + 80).toUInt8 ≠ p := fun e => by
  have := smallOp_toNat h16
  rw [e] at this
  omega

theorem decodeOpN_smallOp {n : Nat} (h1 : 1 ≤ n) (h16 : n ≤ 16) :
    decodeOpN (n + 80).toUInt8 = n.toUInt8 := by
  have hn := smallOp_toNat h16
  apply UInt8.toNat.inj
  rw [decodeOpN_toNat ⟨show 81 ≤ UInt8.toNat _ by omega, show UInt8.toNat _ ≤ 96 by omega⟩, hn,
    toNat_toUInt8]
  omega

/-- A script that starts with `OP_1` to `OP_16` and a push of 1 to 75 bytes, and goes on
after it, passes none of `Solver`'s shortcuts. -/
theorem solver_of_smallOp {n : Nat} (h1 : 1 ≤ n) (h16 : n ≤ 16) {k body : Bytes}
    (hk76 : k.length < 76) (hbody : body ≠ [])
    (typeRet scriptTypeRet : TxnOutType) :
    solver tokenKind ((n + 80).toUInt8 :: (pushData k ++ body)) typeRet scriptTypeRet =
      scanTemplates ((n + 80).toUInt8 :: (pushData k ++ body)) scriptTypeRet templates := by
  have hn := smallOp_toNat h16
  have hne (p : UInt8) (hp : p.toNat < 81 ∨ 96 < p.toNat) := smallOp_ne h16 hp h1
  have hkn := toNat_pushOpcode hk76
  rw [pushData_of_lt hk76]
  simp [solver, isPayToScriptHash, isTokenScript, isOfflineStaking, isWitnessProgram,
    hne opHash160 (by decide), hne opDup (by decide), hne opOfflineStake (by decide),
    hne opReturn (by decide), hne opFalse (by decide), hkn, hbody]

theorem length_flatten_pushData (ks : List Bytes) :
    ks.length ≤ ((ks.map pushData).flatten).length := by
  induction ks with
  | nil => simp
  | cons k ks ih =>
    have : (pushData k).length ≠ 0 := by unfold pushData; split_ifs <;> simp
    simp only [List.map_cons, List.flatten_cons, List.length_append, List.length_cons]
    omega

/-- `Solver` on the script `GetScriptForMultisig` writes for `1 ≤ m ≤ n ≤ 16` keys of 33 to 65
bytes: `TX_MULTISIG`, with `m`, the keys and `n` as the solutions. -/
theorem solver_multisigScript {m : Nat} {keys : List Bytes} (h1 : 1 ≤ m) (hm : m ≤ keys.length)
    (h16 : keys.length ≤ 16) (hkeys : ∀ k ∈ keys, 33 ≤ k.length ∧ k.length ≤ 65)
    (typeRet scriptTypeRet : TxnOutType) :
    solver tokenKind ((m + 80).toUInt8 :: (keys.map pushData).flatten ++
        [(keys.length + 80).toUInt8, opCheckMultiSig]) typeRet scriptTypeRet =
      (true, .multisig, scriptTypeRet, [m.toUInt8] :: keys ++ [[keys.length.toUInt8]]) := by
  obtain ⟨k, ks, rfl⟩ : ∃ k ks, keys = k :: ks :=
    List.exists_cons_of_ne_nil (by rintro rfl; simp at hm; omega)
  have hk := hkeys k (List.mem_cons_self _ _)
  have hM := smallOp_toNat (show m ≤ 16 by omega)
  have hN := smallOp_toNat h16
  have hM4 : opPushData4 < (m + 80).toUInt8 := show 78 < UInt8.toNat _ by omega
  have hN4 : opPushData4 < ((k :: ks).length + 80).toUInt8 := show 78 < UInt8.toNat _ by omega
  have hsmall {n : Nat} (hn : 1 ≤ n) (hn16 : n ≤ 16) :
      (n + 80).toUInt8 = opFalse ∨ opTrue ≤ (n + 80).toUInt8 ∧ (n + 80).toUInt8 ≤ op16 :=
    .inr ⟨show 81 ≤ UInt8.toNat _ by rw [smallOp_toNat hn16]; omega,
      show UInt8.toNat _ ≤ 96 by rw [smallOp_toNat hn16]; omega⟩
  -- the script as the template loop reads it
  set rest := (ks.map pushData).flatten ++ [((k :: ks).length + 80).toUInt8, opCheckMultiSig]
  have hs : (m + 80).toUInt8 :: ((k :: ks).map pushData).flatten ++
      [((k :: ks).length + 80).toUInt8, opCheckMultiSig] = (m + 80).toUInt8 :: (pushData k ++ rest) := by
    simp [rest]
  have hrest : ks.length + 2 ≤ rest.length + 1 := by
    have := length_flatten_pushData ks
    simp only [rest, List.length_append, List.length_cons, List.length_nil]
    omega
  have hloop : pubKeysLoop (rest.length + 1) k.length.toUInt8 k rest [[m.toUInt8]] =
      (((k :: ks).length + 80).toUInt8, [], [opCheckMultiSig], [[m.toUInt8]] ++ k :: ks) :=
    pubKeysLoop_pushes (getOp_opcode hN4 _) (by simp) ks k _ _ _ hkeys hrest
  rw [hs, solver_of_smallOp tokenKind h1 (by omega) (by omega) (by simp [rest])]
  -- the first three templates fail on `OP_m`, the multisig template takes the script
  have hcltv : matchTemplate (pushData k ++ rest) [opCheckLockTimeVerify, opDrop, opDup,
      opHash160, opPubKeyHash, opEqualVerify, opCheckSig] [[]] = none :=
    matchTemplate_push_opcode (show k.length < 76 by omega) (by decide) (by decide)
  have hdup : (m + 80).toUInt8 ≠ opDup := smallOp_ne (by omega) (by decide) h1
  have hms : matchTemplate ((m + 80).toUInt8 :: (pushData k ++ rest))
      [opSmallInteger, opPubKeys, opSmallInteger, opCheckMultiSig] [] =
      some ([m.toUInt8] :: (k :: ks) ++ [[(k :: ks).length.toUInt8]]) := by
    rw [matchTemplate_cons (by decide) (getOp_opcode hM4 _), templateStep_smallInteger,
      if_pos (hsmall h1 (by omega)), Option.some_bind, decodeOpN_smallOp h1 (by omega),
      matchTemplate_pubKeys (getOp_pushData (by omega) rest)]
    dsimp only
    rw [List.nil_append, hloop, templateStep_smallInteger, if_pos (hsmall (by simp) h16), Option.some_bind,
      decodeOpN_smallOp (by simp) h16, matchTemplate_opcode (by decide) (by decide),
      matchTemplate_nil, if_pos rfl]
    simp
  have hok : multisigOk ([m.toUInt8] :: (k :: ks) ++ [[(k :: ks).length.toUInt8]]) = true := by
    rw [multisigOk_iff, toNat_toUInt8, toNat_toUInt8]
    omega
  simp only [scanTemplates, templates, matchTemplate_bigInteger_opcode hM4, List.nil_append,
    hcltv, matchTemplate_pubKey_opcode hM4, matchTemplate_opcode_ne hM4 (by decide) hdup, hms, hok,
    if_true]

variable (pubKeyID : Bytes → Option Bytes)

/-- For `1 ≤ nRequired ≤ n ≤ 16` keys of 33 to 65 bytes, `GetScriptForMultisig` writes a script
that `Solver` reads as `TX_MULTISIG` with `nRequired`, the keys and `n` as its solutions, and
from which `ExtractDestinations` takes `nRequired` and the identifiers of the valid keys,
failing exactly when no key is valid. -/
theorem getScriptForMultisig_roundTrip {nRequired : Int} {keys : List Bytes}
    (h1 : 1 ≤ nRequired) (hm : nRequired ≤ keys.length) (h16 : keys.length ≤ 16)
    (hkeys : ∀ k ∈ keys, 33 ≤ k.length ∧ k.length ≤ 65) (nRequiredRet : Int) :
    ∃ script, getScriptForMultisig nRequired keys = some script ∧
      solver tokenKind script .nonstandard .nonstandard =
        (true, .multisig, .nonstandard,
          [nRequired.toNat.toUInt8] :: keys ++ [[keys.length.toUInt8]]) ∧
      extractDestinations tokenKind pubKeyID script nRequiredRet =
        (!(keys.filterMap fun k => (pubKeyID k).map TxDestination.keyID).isEmpty, .multisig,
          .nonstandard, keys.filterMap (fun k => (pubKeyID k).map TxDestination.keyID),
          nRequired) := by
  have hs := solver_multisigScript tokenKind (m := nRequired.toNat) (by omega) (by omega) h16
    hkeys .nonstandard .nonstandard
  have hscript : getScriptForMultisig nRequired keys = some ((nRequired.toNat + 80).toUInt8 ::
      (keys.map pushData).flatten ++ [(keys.length + 80).toUInt8, opCheckMultiSig]) := by
    simp [getScriptForMultisig, encodeOpN_of_pos h1 (by omega),
      encodeOpN_of_pos (n := keys.length) (by omega) (by omega)]
  refine ⟨_, hscript, hs, ?_⟩
  have hm' : ((nRequired.toNat.toUInt8.toNat : Nat) : Int) = nRequired := by
    rw [toNat_toUInt8]
    omega
  rw [List.cons_append] at hs
  simp [extractDestinations, hs, hm']

theorem getScriptForMultisig_roundTrip_oneOfOne :
    (1 : Int) ≤ 1 ∧ (1 : Int) ≤ [List.replicate 33 (2 : UInt8)].length ∧
      [List.replicate 33 (2 : UInt8)].length ≤ 16 ∧
      (∀ k ∈ [List.replicate 33 (2 : UInt8)], 33 ≤ k.length ∧ k.length ≤ 65) ∧
      ∃ script, getScriptForMultisig 1 [List.replicate 33 2] = some script ∧
        solver (fun _ => none) script .nonstandard .nonstandard =
          (true, .multisig, .nonstandard, [[1], List.replicate 33 2, [1]]) ∧
        extractDestinations (fun _ => none) (fun k => some (k.take 20)) script 0 =
          (true, .multisig, .nonstandard, [.keyID (List.replicate 20 2)], 1) :=
  ⟨by decide, by decide, by decide, by decide,
    getScriptForMultisig_roundTrip (fun _ => none) (fun k => some (k.take 20)) (by decide)
      (by decide) (by decide) (by decide) 0⟩

end Build

/-! ### `GetScriptForRawPubKey` and `GetScriptForWitness` -/

section Witness

variable (tokenKind : Bytes → Option (TxnOutType × Bool)) (pubKeyID : Bytes → Option Bytes)

/-- `GetScriptForRawPubKey` of a key of 33 to 65 bytes is `TX_PUBKEY` with the key as its
solution; `ExtractDestination` and `ExtractDestinations` read back the key's identifier when
the key is valid, and fail when it is not. -/
theorem getScriptForRawPubKey_roundTrip {pubKey : Bytes}
    (hk : 33 ≤ pubKey.length ∧ pubKey.length ≤ 65) (nRequiredRet : Int) :
    solver tokenKind (getScriptForRawPubKey pubKey) .nonstandard .nonstandard =
        (true, .pubkey, .nonstandard, [pubKey]) ∧
      extractDestination tokenKind pubKeyID (getScriptForRawPubKey pubKey) =
        (pubKeyID pubKey).map .keyID ∧
      extractDestinations tokenKind pubKeyID (getScriptForRawPubKey pubKey) nRequiredRet =
        match pubKeyID pubKey with
        | some id => (true, .pubkey, .nonstandard, [.keyID id], 1)
        | none => (false, .pubkey, .nonstandard, [], 1) := by
  have hd : pubKey.length < 76 := by omega
  have hs : solver tokenKind (getScriptForRawPubKey pubKey) .nonstandard .nonstandard =
      (true, .pubkey, .nonstandard, [pubKey]) := by
    rw [getScriptForRawPubKey, solver_of_push tokenKind (by omega) hd]
    simp (disch := decide) only [scanTemplates, templates, List.nil_append,
      matchTemplate_bigInteger_push hd, matchTemplate_opcode_ne, matchTemplate_pubKey_push hd,
      matchTemplate_opcode, matchTemplate_nil]
    simp [show ¬pubKey.length < 33 by omega, show ¬65 < pubKey.length by omega]
  have he : extractDestination tokenKind pubKeyID (getScriptForRawPubKey pubKey) =
      (pubKeyID pubKey).map .keyID := by
    simp [extractDestination, hs]
  refine ⟨hs, he, ?_⟩
  cases h : pubKeyID pubKey <;> simp [extractDestinations, hs, he, h]

theorem getScriptForRawPubKey_roundTrip_compressed :
    (33 ≤ (List.replicate 33 (2 : UInt8)).length ∧ (List.replicate 33 (2 : UInt8)).length ≤ 65) ∧
      solver (fun _ => none) (getScriptForRawPubKey (List.replicate 33 2)) .nonstandard
          .nonstandard = (true, .pubkey, .nonstandard, [List.replicate 33 2]) ∧
      extractDestination (fun _ => none) (fun k => some (k.take 20))
          (getScriptForRawPubKey (List.replicate 33 2)) = some (.keyID (List.replicate 20 2)) ∧
      extractDestinations (fun _ => none) (fun k => some (k.take 20))
          (getScriptForRawPubKey (List.replicate 33 2)) 0 =
        (true, .pubkey, .nonstandard, [.keyID (List.replicate 20 2)], 1) :=
  ⟨by decide, getScriptForRawPubKey_roundTrip (fun _ => none) (fun k => some (k.take 20))
    (by decide) 0⟩

/-- `OP_0` and a push of 20 or 32 bytes is a version-0 witness program, of the kind its
length says. -/
theorem solver_witnessScript {program : Bytes} (h : program.length = 20 ∨ program.length = 32)
    (typeRet scriptTypeRet : TxnOutType) :
    solver tokenKind ([opFalse] ++ pushData program) typeRet scriptTypeRet =
      (true, if program.length = 20 then .witnessV0KeyHash else .witnessV0ScriptHash,
        scriptTypeRet, [program]) := by
  have hd : program.length < 76 := by omega
  have hn := toNat_pushOpcode hd
  rw [pushData_of_lt hd]
  rcases h with h | h <;>
    simp [solver, isPayToScriptHash, isTokenScript, isOfflineStaking, isWitnessProgram, hn, h,
      (by decide : opFalse ≠ opHash160), (by decide : opFalse ≠ opDup),
      (by decide : opFalse ≠ opOfflineStake), (by decide : decodeOpN opFalse = 0),
      show (20 : Nat).toUInt8.toNat = 20 from rfl, show (32 : Nat).toUInt8.toNat = 32 from rfl]

/-- `Solver` reads every script `GetScriptForWitness` writes as a version-0 witness program:
a key hash, the hash of the key of a `TX_PUBKEY` redeem script or the key hash of a
`TX_PUBKEYHASH` one, and otherwise a script hash, the SHA-256 of the redeem script. -/
theorem solver_getScriptForWitness (hk : TokenKinds tokenKind) (hashes : Hashes)
    (redeemscript : Bytes) (typeRet scriptTypeRet : TxnOutType) :
    solver tokenKind (getScriptForWitness tokenKind hashes redeemscript) typeRet scriptTypeRet =
      let (ok, typ, _, vSolutions) := solver tokenKind redeemscript .nonstandard .nonstandard
      if ok ∧ typ = .pubkey then
        (true, .witnessV0KeyHash, scriptTypeRet, [hashes.hash160 (vSolutions.getD 0 [])])
      else if ok ∧ typ = .pubkeyhash then
        (true, .witnessV0KeyHash, scriptTypeRet, [vSolutions.getD 0 []])
      else (true, .witnessV0ScriptHash, scriptTypeRet, [hashes.sha256 redeemscript]) := by
  rcases hr : solver tokenKind redeemscript .nonstandard .nonstandard with ⟨ok, typ, st, sols⟩
  simp only [getScriptForWitness, hr]
  split_ifs with h1 h2
  · rw [solver_witnessScript tokenKind (.inl (hashes.hash160_length _)),
      if_pos (hashes.hash160_length _)]
  · obtain ⟨rfl, rfl⟩ := h2
    obtain ⟨id, rfl, hid⟩ := solver_pubkeyhash_sound hk hr
    rw [List.getD_cons_zero, solver_witnessScript tokenKind (.inl hid), if_pos hid]
  · rw [solver_witnessScript tokenKind (.inr (hashes.sha256_length _)),
      if_neg (by rw [hashes.sha256_length]; decide)]

theorem solver_getScriptForWitness_rawPubKey :
    TokenKinds (fun _ => none) ∧
      solver (fun _ => none) (getScriptForWitness (fun _ => none)
          ⟨fun _ => List.replicate 20 0, fun _ => List.replicate 32 0,
            fun _ => List.length_replicate _ _, fun _ => List.length_replicate _ _⟩
          (getScriptForRawPubKey (List.replicate 33 2))) .nonstandard .nonstandard =
        (true, .witnessV0KeyHash, .nonstandard, [List.replicate 20 0]) :=
  have hk : TokenKinds (fun _ => none) := fun _ _ h => nomatch h
  ⟨hk, (solver_getScriptForWitness (fun _ => none) hk _ _ _ _).trans (by decide)⟩

end Witness

end Script

end AokChain
