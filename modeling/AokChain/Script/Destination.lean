import AokChain.Script.Standard

/-!
# Destinations and lock times: what `GetScriptForDestination` builds, read back

`GetScriptForDestination(dest, lockTime)` puts `<lockTime> OP_CHECKLOCKTIMEVERIFY OP_DROP` in
front of the script of any destination once the lock time is above 255, but `Solver` has a
lock-time template for one kind only: `TX_CLTV`, a payment to a key hash. So a key hash comes
back from `ExtractDestination` at every lock time, with its lock time from `IsTimeLock`; every
destination comes back when the lock time is at most 255; and a script hash or an
offline-staking pair behind a lock time is nonstandard.

The `OP_BIGINTEGER` slot of that template takes whatever the script pushes there, while
`IsTimeLock`, `CTxOut::GetLockTime` and `IsMine` decode it with `CScriptNum(vch, true, 5)`,
which throws on more than 5 bytes or on a non-minimal encoding: a script paying to a wallet's
key hash behind such a push makes every one of them throw.
-/

namespace AokChain

namespace Script

/-- Whether a destination is a key hash. -/
def TxDestination.isKeyID : TxDestination → Bool
  | .keyID _ => true
  | _ => false

section RoundTrip

variable (tokenKind : Bytes → Option (TxnOutType × Bool)) (pubKeyID : Bytes → Option Bytes)

theorem pushInt64_of_gt {n : Int} (h : 255 < n) :
    pushInt64 n = pushData (scriptNumSerialize n) := by
  rw [pushInt64, if_neg (by omega), if_neg (by omega)]

theorem getScriptForDestination_of_le {lockTime : Int} (h : lockTime ≤ 255) (d : TxDestination) :
    getScriptForDestination d lockTime = scriptVisitor d :=
  if_neg (by omega)

theorem getScriptForDestination_of_gt {lockTime : Int} (h : 255 < lockTime) (d : TxDestination) :
    getScriptForDestination d lockTime =
      pushData (scriptNumSerialize lockTime) ++ [opCheckLockTimeVerify, opDrop] ++
        scriptVisitor d := by
  rw [getScriptForDestination, if_pos h, pushInt64_of_gt h]

/-- Without a lock time, every destination is read back. -/
theorem extractDestination_scriptVisitor {d : TxDestination} (hd : d.Valid) :
    extractDestination tokenKind pubKeyID (scriptVisitor d) = some d := by
  cases d with
  | noDestination => exact hd.elim
  | keyID id => simp [extractDestination, solver_keyID tokenKind hd]
  | scriptID id => simp [extractDestination, solver_scriptID tokenKind hd]
  | keyPair staking spending =>
    simp [extractDestination, solver_keyPair tokenKind hd.1 hd.2]

theorem isTimeLock_scriptVisitor {d : TxDestination} (hd : d.Valid) :
    isTimeLock tokenKind (scriptVisitor d) = .ok none := by
  cases d with
  | noDestination => exact hd.elim
  | keyID id => simp [isTimeLock, solverKind, solver_keyID tokenKind hd]
  | scriptID id => simp [isTimeLock, solverKind, solver_scriptID tokenKind hd]
  | keyPair staking spending =>
    simp [isTimeLock, solverKind, solver_keyPair tokenKind hd.1 hd.2]

/-- `Solver` on a destination's script behind a lock time in `(255, 2^32)`: `TX_CLTV` for a
key hash, nonstandard for the other kinds. -/
theorem solver_locked {d : TxDestination} (hd : d.Valid) {lockTime : Int} (h255 : 255 < lockTime)
    (hl : lockTime < 2 ^ 32) (typeRet scriptTypeRet : TxnOutType) :
    solver tokenKind (getScriptForDestination d lockTime) typeRet scriptTypeRet =
      match d with
      | .keyID id => (true, .cltv, scriptTypeRet, [scriptNumSerialize lockTime, id])
      | _ => (false, .nonstandard, scriptTypeRet, []) := by
  have hlen := scriptNumSerialize_length h255 hl
  have h0 : 0 < (scriptNumSerialize lockTime).length := by omega
  have hv : (scriptNumSerialize lockTime).length < 76 := by omega
  rw [getScriptForDestination_of_gt h255]
  cases d with
  | noDestination => exact hd.elim
  | keyID id => exact solver_cltv tokenKind h0 hv hd _ _
  | scriptID id => exact solver_locked_of_ne_dup tokenKind h0 hv (by decide) (by decide) _ _
  | keyPair staking spending =>
    exact solver_locked_of_ne_dup tokenKind h0 hv (by decide) (by decide) _ _

theorem extractDestination_locked {d : TxDestination} (hd : d.Valid) {lockTime : Int}
    (h255 : 255 < lockTime) (hl : lockTime < 2 ^ 32) :
    extractDestination tokenKind pubKeyID (getScriptForDestination d lockTime) =
      if d.isKeyID then some d else none := by
  have hs := solver_locked tokenKind hd h255 hl .nonstandard .nonstandard
  cases d <;> simp_all [extractDestination, TxDestination.isKeyID]

theorem isTimeLock_locked {d : TxDestination} (hd : d.Valid) {lockTime : Int}
    (h255 : 255 < lockTime) (hl : lockTime < 2 ^ 32) :
    isTimeLock tokenKind (getScriptForDestination d lockTime) =
      .ok (if d.isKeyID then some lockTime else none) := by
  have hs := solver_locked tokenKind hd h255 hl .nonstandard .nonstandard
  cases d <;>
    simp_all [isTimeLock, solverKind, TxDestination.isKeyID, scriptNum_serialize (by omega) hl,
      Except.map]

/-- `ExtractDestination` and `IsTimeLock` on `GetScriptForDestination(d, lockTime)`, for every
valid destination and every lock time below `2^32`: the destination comes back exactly when
the lock time is at most 255 or the destination is a key hash, and the lock time comes back
exactly when it is above 255 and the destination is a key hash. -/
theorem getScriptForDestination_roundTrip {d : TxDestination} (hd : d.Valid) {lockTime : Int}
    (hl : lockTime < 2 ^ 32) :
    extractDestination tokenKind pubKeyID (getScriptForDestination d lockTime) =
        (if lockTime ≤ 255 ∨ d.isKeyID then some d else none) ∧
      isTimeLock tokenKind (getScriptForDestination d lockTime) =
        .ok (if 255 < lockTime ∧ d.isKeyID then some lockTime else none) := by
  by_cases h : lockTime ≤ 255
  · rw [getScriptForDestination_of_le h]
    simp [h, not_lt.mpr h, extractDestination_scriptVisitor tokenKind pubKeyID hd,
      isTimeLock_scriptVisitor tokenKind hd]
  · have h255 : 255 < lockTime := by omega
    rw [extractDestination_locked tokenKind pubKeyID hd h255 hl,
      isTimeLock_locked tokenKind hd h255 hl]
    simp [h, h255]

theorem getScriptForDestination_roundTrip_keyID :
    TxDestination.Valid (.keyID (List.replicate 20 0)) ∧ (1000 : Int) < 2 ^ 32 ∧
      (extractDestination (fun _ => none) (fun _ => none)
          (getScriptForDestination (.keyID (List.replicate 20 0)) 1000) =
          (if (1000 : Int) ≤ 255 ∨ (TxDestination.keyID (List.replicate 20 0)).isKeyID then
            some (.keyID (List.replicate 20 0)) else none) ∧
        isTimeLock (fun _ => none) (getScriptForDestination (.keyID (List.replicate 20 0)) 1000) =
          .ok (if (255 : Int) < 1000 ∧ (TxDestination.keyID (List.replicate 20 0)).isKeyID then
            some 1000 else none)) :=
  ⟨rfl, by decide, getScriptForDestination_roundTrip (fun _ => none) (fun _ => none)
    (show TxDestination.Valid (.keyID (List.replicate 20 0)) from rfl) (by decide)⟩

/-- A script hash behind the lock time 256 is not read back, and has no lock time. -/
theorem getScriptForDestination_scriptID_locked :
    extractDestination (fun _ => none) (fun _ => none)
        (getScriptForDestination (.scriptID (List.replicate 20 0)) 256) = none ∧
      isTimeLock (fun _ => none) (getScriptForDestination (.scriptID (List.replicate 20 0)) 256) =
        .ok none :=
  have hd : TxDestination.Valid (.scriptID (List.replicate 20 0)) := rfl
  ⟨extractDestination_locked _ _ hd (by decide) (by decide),
    isTimeLock_locked _ hd (by decide) (by decide)⟩

end RoundTrip

section Undecodable

variable (tokenKind : Bytes → Option (TxnOutType × Bool))

/-- A push of 1 to 75 bytes in the lock-time slot before a payment to a key hash is `TX_CLTV`
with those bytes as its lock time, so where `CScriptNum(vch, true, 5)` rejects them, `IsTimeLock`
(both forms), `CTxOut::GetLockTime` and the `TX_CLTV` case of `IsMine` for a wallet holding the
key all throw what it throws. -/
theorem solver_cltv_undecodable (vch id : Bytes) (h0 : 0 < vch.length) (hv : vch.length < 76)
    (hid : id.length = 20) {e : String} (he : scriptNum vch true 5 = .error e)
    (keystore : KeyStore) (hkey : keystore.haveKey id = true) (nHeight medianTimePast : Int) :
    let scriptPubKey :=
      pushData vch ++ [opCheckLockTimeVerify, opDrop] ++ scriptVisitor (.keyID id)
    solver tokenKind scriptPubKey .nonstandard .nonstandard =
        (true, .cltv, .nonstandard, [vch, id]) ∧
      isTimeLock tokenKind scriptPubKey = .error e ∧
      isTimeLockKeyStore tokenKind keystore scriptPubKey = .error e ∧
      getLockTime tokenKind scriptPubKey = .error e ∧
      isMineCltv keystore [vch, id] nHeight medianTimePast = .error e := by
  intro scriptPubKey
  have hs : solver tokenKind scriptPubKey .nonstandard .nonstandard =
      (true, .cltv, .nonstandard, [vch, id]) := solver_cltv tokenKind h0 hv hid _ _
  refine ⟨hs, ?_, ?_, ?_, ?_⟩ <;>
    simp [isTimeLock, isTimeLockKeyStore, getLockTime, isMineCltv, solverKind, hs, he, hkey,
      Except.map]

theorem solver_cltv_undecodable_six_bytes :
    0 < ([1, 0, 0, 0, 0, 0] : Bytes).length ∧ ([1, 0, 0, 0, 0, 0] : Bytes).length < 76 ∧
      (List.replicate 20 (0 : UInt8)).length = 20 ∧
      scriptNum [1, 0, 0, 0, 0, 0] true 5 = .error "script number overflow" ∧
      (KeyStore.mk (fun _ => true) (fun _ => none)).haveKey (List.replicate 20 0) = true ∧
      (let scriptPubKey :=
          pushData [1, 0, 0, 0, 0, 0] ++ [opCheckLockTimeVerify, opDrop] ++
            scriptVisitor (.keyID (List.replicate 20 0));
        solver (fun _ => none) scriptPubKey .nonstandard .nonstandard =
            (true, .cltv, .nonstandard, [[1, 0, 0, 0, 0, 0], List.replicate 20 0]) ∧
          isTimeLock (fun _ => none) scriptPubKey = .error "script number overflow" ∧
          isTimeLockKeyStore (fun _ => none) (KeyStore.mk (fun _ => true) (fun _ => none))
            scriptPubKey = .error "script number overflow" ∧
          getLockTime (fun _ => none) scriptPubKey = .error "script number overflow" ∧
          isMineCltv (KeyStore.mk (fun _ => true) (fun _ => none))
            [[1, 0, 0, 0, 0, 0], List.replicate 20 0] 0 0 = .error "script number overflow") :=
  ⟨by decide, by decide, rfl, rfl, rfl,
    solver_cltv_undecodable (fun _ => none) [1, 0, 0, 0, 0, 0] (List.replicate 20 0) (by decide)
      (by decide) rfl rfl
      (KeyStore.mk (fun _ => true) (fun _ => none)) rfl 0 0⟩

end Undecodable

end Script

end AokChain
