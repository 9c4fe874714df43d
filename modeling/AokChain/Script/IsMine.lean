import AokChain.Script.Solutions

/-!
# `IsMine`: the outputs a key store can spend or watch

`IsMine(keystore, scriptPubKey, bestBlock, isInvalid, sigversion)` reads an output script with
`Solver` and decides, case by kind, whether the key store can spend it. A case either returns,
or breaks out of the switch to the watch-only test at the end. The pay-to-script-hash and
witness cases read a redeem script and call `IsMine` on it; they return what it gave when it
is `ISMINE_SPENDABLE`, `ISMINE_WATCH_SOLVABLE`, or `ISMINE_NO` with `isInvalid` set, and break
otherwise. `isInvalid` marks a script that witness rules forbid: an uncompressed key under
`SIGVERSION_WITNESS_V0`.

The source puts no bound on the recursion into redeem scripts: it ends because a stored script
cannot hold its own hash. The model counts the nesting with `fuel` and gives `none` past it;
a result it gives stays the same with more fuel (`isMine_fuel_add`), so it is the source's.

Two facts hold of every result, through any nesting of redeem scripts: `isInvalid` is only
ever set with `ISMINE_NO` (`isMine_isInvalid`), and `ISMINE_SPENDABLE` needs a key the store
holds (`isMine_spendable_haveKey`), which for a multisig script rests on `Solver`'s requirement
of at least one key.
-/

namespace AokChain

namespace Script

/-- `SigVersion`: the signature rules a script is read under. -/
inductive SigVersion
  | base
  | witnessV0
  deriving DecidableEq, Repr

/-- The lookups of a `CKeyStore` that `IsMine` makes beyond those of the lock-time code
(`HaveCScript`, `GetPubKey`, `HaveWatchOnly`), and whether `ProduceSignature` with a
`DummySignatureCreator` over the store succeeds. keystore.cpp and sign.cpp are not among the
sources, so these are the store's parameters. -/
structure CKeyStore extends KeyStore where
  haveCScript : Bytes → Bool
  getPubKey : Bytes → Option Bytes
  haveWatchOnly : Bytes → Bool
  produceSignature : Bytes → Bool

/-- `CPubKey::IsCompressed()`: a key of 33 bytes (pubkey.h is not among the sources). -/
def isCompressed (pubkey : Bytes) : Bool := pubkey.length = 33

/-- Where a case of `IsMine`'s switch leaves the function: a `return` of a verdict with the
`isInvalid` flag, or a `break` to the watch-only test with the flag as the case left it. -/
inductive CaseExit
  | ret (r : IsMineType) (isInvalid : Bool)
  | brk (isInvalid : Bool)
  deriving DecidableEq, Repr

/-- What a case that read a redeem script does with the verdict `ret` of `IsMine` on it. -/
def redeemExit (ret : IsMineType) (isInvalid : Bool) : CaseExit :=
  if ret = .spendable ∨ ret = .watchSolvable ∨ (ret = .no ∧ isInvalid) then .ret ret isInvalid
  else .brk isInvalid

section IsMine

variable (tokenKind : Bytes → Option (TxnOutType × Bool)) (hash160 ripemd160 : Bytes → Bytes)
  (tokensDeployed : Bool) (nHeight medianTimePast : Int) (keystore : CKeyStore)

/-- `HaveKeys(pubkeys, keystore)`: how many of the keys the store holds, each by its
identifier `CPubKey(pubkey).GetID()`, the `Hash160` of the key. -/
def haveKeys (pubkeys : List Bytes) : Nat :=
  pubkeys.countP fun pubkey => keystore.haveKey (hash160 pubkey)

/-- The `TX_PUBKEYHASH` case, which the three token cases share once tokens are deployed:
under witness rules a known uncompressed key is invalid, and a held key is spendable. -/
def keyHashCase (keyID : Bytes) (sigversion : SigVersion) : CaseExit :=
  if sigversion ≠ .base ∧ (keystore.getPubKey keyID).any (fun pubkey => !isCompressed pubkey) then
    .ret .no true
  else if keystore.haveKey keyID then .ret .spendable false
  else .brk false

/-- The `TX_PUBKEY` case: under witness rules a key of other than 33 bytes is invalid. -/
def pubKeyCase (pubkey : Bytes) (sigversion : SigVersion) : CaseExit :=
  if sigversion ≠ .base ∧ pubkey.length ≠ 33 then .ret .no true
  else if keystore.haveKey (hash160 pubkey) then .ret .spendable false
  else .brk false

/-- The `TX_MULTISIG` case: the keys between the two numbers; under witness rules a key of
other than 33 bytes is invalid, and the output is spendable only with every key held. -/
def multisigCase (vSolutions : List Bytes) (sigversion : SigVersion) : CaseExit :=
  let keys := (vSolutions.drop 1).dropLast
  if sigversion ≠ .base ∧ keys.any (fun key => key.length ≠ 33) then .ret .no true
  else if haveKeys hash160 keystore keys = keys.length then .ret .spendable false
  else .brk false

/-- `IsMine`'s switch on `Solver`'s kind, with `rec` for its calls on redeem scripts: where the
case leaves the function, `none` where `rec` runs out of fuel, and an error where
`CScriptNum` throws. The witness cases first ask for the pay-to-script-hash version
`OP_0 <program>`, by its `Hash160`; the `TX_WITNESS_V0_KEYHASH` case reads the key hash's
pay-to-key-hash script, `GetScriptForDestination` with no lock time (standard.h, which gives
the default, is not among the sources; any lock time up to 255 writes the same script). -/
def isMineSwitch (rec : Bytes → SigVersion → Option (Except String (IsMineType × Bool)))
    (whichType : TxnOutType) (vSolutions : List Bytes) (sigversion : SigVersion) :
    Option (Except String CaseExit) :=
  let redeem (subscript : Bytes) (sigversion : SigVersion) :=
    (rec subscript sigversion).map (Except.map fun r => redeemExit r.1 r.2)
  match whichType with
  | .pubkey => some (.ok (pubKeyCase hash160 keystore (vSolutions.getD 0 []) sigversion))
  | .witnessV0KeyHash =>
    if keystore.haveCScript (hash160 (opFalse :: pushData (vSolutions.getD 0 []))) then
      redeem (getScriptForDestination (.keyID (vSolutions.getD 0 [])) 0) .witnessV0
    else some (.ok (.brk false))
  | .pubkeyhash => some (.ok (keyHashCase keystore (vSolutions.getD 0 []) sigversion))
  | .scripthash =>
    match keystore.getCScript (vSolutions.getD 0 []) with
    | some subscript => redeem subscript .base
    | none => some (.ok (.brk false))
  | .witnessV0ScriptHash =>
    if keystore.haveCScript (hash160 (opFalse :: pushData (vSolutions.getD 0 []))) then
      match keystore.getCScript (ripemd160 (vSolutions.getD 0 [])) with
      | some subscript => redeem subscript .witnessV0
      | none => some (.ok (.brk false))
    else some (.ok (.brk false))
  | .multisig => some (.ok (multisigCase hash160 keystore vSolutions sigversion))
  | .cltv =>
    some ((isMineCltv keystore.toKeyStore vSolutions nHeight medianTimePast).map
      fun r => .ret r false)
  | .newToken | .transferToken | .reissueToken =>
    some (.ok (if tokensDeployed then keyHashCase keystore (vSolutions.getD 0 []) sigversion
      else .ret .no false))
  | .nonstandard | .nullData | .offlineStaking => some (.ok (.brk false))

/-- The end of `IsMine` after a `break`: a watched script is `ISMINE_WATCH_SOLVABLE` when a
dummy signature can be produced for it, `ISMINE_WATCH_UNSOLVABLE` otherwise. -/
def watchOnly (scriptPubKey : Bytes) (isInvalid : Bool) : IsMineType × Bool :=
  if keystore.haveWatchOnly scriptPubKey then
    (if keystore.produceSignature scriptPubKey then .watchSolvable else .watchUnsolvable,
      isInvalid)
  else (.no, isInvalid)

/-- The verdict after the switch: a case's return, or the watch-only test after a break. -/
def caseResult (scriptPubKey : Bytes) : CaseExit → IsMineType × Bool
  | .ret r isInvalid => (r, isInvalid)
  | .brk isInvalid => watchOnly keystore scriptPubKey isInvalid

/-- `IsMine(keystore, scriptPubKey, bestBlock, isInvalid, sigversion)`: the verdict and the
`isInvalid` flag, with `fuel` for the nesting of redeem scripts (`none` past it); `nHeight` and
`medianTimePast` are the best block's, and `tokensDeployed` is `AreTokensDeployed()`. -/
def isMine : Nat → Bytes → SigVersion → Option (Except String (IsMineType × Bool))
  | 0, _, _ => none
  | fuel + 1, scriptPubKey, sigversion =>
    let (ok, whichType, vSolutions) := solverKind tokenKind scriptPubKey .nonstandard
    if !ok then
      some (.ok (if keystore.haveWatchOnly scriptPubKey then .watchUnsolvable else .no, false))
    else
      (isMineSwitch hash160 ripemd160 tokensDeployed nHeight medianTimePast keystore
          (isMine fuel) whichType vSolutions sigversion).map
        (Except.map (caseResult keystore scriptPubKey))

/-! ### One level of `IsMine` -/

variable {tokenKind hash160 ripemd160 tokensDeployed nHeight medianTimePast keystore}

@[simp] theorem watchOnly_snd (scriptPubKey : Bytes) (isInvalid : Bool) :
    (watchOnly keystore scriptPubKey isInvalid).2 = isInvalid := by
  unfold watchOnly
  split_ifs <;> rfl

theorem watchOnly_fst_ne_spendable (scriptPubKey : Bytes) (isInvalid : Bool) :
    (watchOnly keystore scriptPubKey isInvalid).1 ≠ .spendable := by
  unfold watchOnly
  split_ifs <;> simp

theorem isMine_succ_reject {fuel : Nat} {s : Bytes} {sv : SigVersion} {t : TxnOutType}
    {sols : List Bytes} (hsk : solverKind tokenKind s .nonstandard = (false, t, sols)) :
    isMine tokenKind hash160 ripemd160 tokensDeployed nHeight medianTimePast keystore (fuel + 1)
        s sv =
      some (.ok (if keystore.haveWatchOnly s then .watchUnsolvable else .no, false)) := by
  rw [isMine, hsk]
  rfl

theorem isMine_succ_accept {fuel : Nat} {s : Bytes} {sv : SigVersion} {t : TxnOutType}
    {sols : List Bytes} (hsk : solverKind tokenKind s .nonstandard = (true, t, sols)) :
    isMine tokenKind hash160 ripemd160 tokensDeployed nHeight medianTimePast keystore (fuel + 1)
        s sv =
      (isMineSwitch hash160 ripemd160 tokensDeployed nHeight medianTimePast keystore
          (isMine tokenKind hash160 ripemd160 tokensDeployed nHeight medianTimePast keystore fuel)
          t sols sv).map (Except.map (caseResult keystore s)) := by
  rw [isMine, hsk]
  rfl

/-- The switch calls `IsMine` only on a redeem script, so more fuel there changes nothing it
gave. -/
theorem isMineSwitch_mono {rec rec' : Bytes → SigVersion → Option (Except String (IsMineType × Bool))}
    (hrec : ∀ s sv r, rec s sv = some r → rec' s sv = some r) {whichType : TxnOutType}
    {vSolutions : List Bytes} {sigversion : SigVersion} {x : Except String CaseExit}
    (h : isMineSwitch hash160 ripemd160 tokensDeployed nHeight medianTimePast keystore rec
      whichType vSolutions sigversion = some x) :
    isMineSwitch hash160 ripemd160 tokensDeployed nHeight medianTimePast keystore rec'
      whichType vSolutions sigversion = some x := by
  have hmap : ∀ s sv, (rec s sv).map (Except.map fun r => redeemExit r.1 r.2) = some x →
      (rec' s sv).map (Except.map fun r => redeemExit r.1 r.2) = some x := fun s sv h' => by
    obtain ⟨y, hy, rfl⟩ := Option.map_eq_some'.1 h'
    rw [hrec s sv y hy, Option.map_some']
  unfold isMineSwitch at h ⊢
  cases whichType <;> dsimp only at h ⊢
  case witnessV0KeyHash => split_ifs at h ⊢ <;> first | exact hmap _ _ h | exact h
  case scripthash => revert h; split <;> first | exact hmap _ _ | exact id
  case witnessV0ScriptHash =>
    revert h
    split_ifs
    · split <;> first | exact hmap _ _ | exact id
    · exact id
  all_goals exact h

/-- A result `IsMine` gives stays the same with more fuel. -/
theorem isMine_fuel_add : ∀ {fuel : Nat} (k : Nat) {s : Bytes} {sv : SigVersion}
    {r : Except String (IsMineType × Bool)},
    isMine tokenKind hash160 ripemd160 tokensDeployed nHeight medianTimePast keystore fuel s sv =
        some r →
      isMine tokenKind hash160 ripemd160 tokensDeployed nHeight medianTimePast keystore
        (fuel + k) s sv = some r
  | 0, _, _, _, _, h => nomatch h
  | fuel + 1, k, s, sv, r, h => by
    rcases hsk : solverKind tokenKind s .nonstandard with ⟨ok, t, sols⟩
    rw [Nat.add_right_comm]
    cases ok
    · rwa [isMine_succ_reject hsk] at h ⊢
    · rw [isMine_succ_accept hsk] at h ⊢
      obtain ⟨y, hy, rfl⟩ := Option.map_eq_some'.1 h
      rw [isMineSwitch_mono (fun s sv r => isMine_fuel_add k) hy, Option.map_some']

/-- What one level of `IsMine` can give: the verdict on a script `Solver` rejects, a case's
return, or the watch-only test after a break, which is never `ISMINE_SPENDABLE`. -/
theorem isMine_succ_eq_ok {fuel : Nat} {s : Bytes} {sv : SigVersion} {r : IsMineType}
    {isInvalid : Bool}
    (h : isMine tokenKind hash160 ripemd160 tokensDeployed nHeight medianTimePast keystore
      (fuel + 1) s sv = some (.ok (r, isInvalid))) :
    (isInvalid = false ∧ r ≠ .spendable) ∨
      ∃ t sols, solverKind tokenKind s .nonstandard = (true, t, sols) ∧
        (isMineSwitch hash160 ripemd160 tokensDeployed nHeight medianTimePast keystore
            (isMine tokenKind hash160 ripemd160 tokensDeployed nHeight medianTimePast keystore
              fuel) t sols sv = some (.ok (.ret r isInvalid)) ∨
          (isMineSwitch hash160 ripemd160 tokensDeployed nHeight medianTimePast keystore
            (isMine tokenKind hash160 ripemd160 tokensDeployed nHeight medianTimePast keystore
              fuel) t sols sv = some (.ok (.brk isInvalid)) ∧ r ≠ .spendable)) := by
  rcases hsk : solverKind tokenKind s .nonstandard with ⟨ok, t, sols⟩
  cases ok
  · -- `Solver` rejects the script
    rw [isMine_succ_reject hsk] at h
    simp only [Option.some.injEq, Except.ok.injEq, Prod.mk.injEq] at h
    obtain ⟨rfl, rfl⟩ := h
    exact .inl ⟨rfl, by split_ifs <;> simp⟩
  · rw [isMine_succ_accept hsk] at h
    obtain ⟨y, hy, hr⟩ := Option.map_eq_some'.1 h
    obtain ⟨e, rfl⟩ : ∃ e, y = .ok e := by
      rcases y with _ | e
      · cases hr
      · exact ⟨e, rfl⟩
    refine .inr ⟨t, sols, rfl, ?_⟩
    simp only [Except.map, Except.ok.injEq] at hr
    cases e with
    | ret r' isInvalid' =>
      cases hr
      exact .inl hy
    | brk isInvalid' =>
      have h2 := @watchOnly_snd keystore s isInvalid'
      have h1 := @watchOnly_fst_ne_spendable keystore s isInvalid'
      rw [caseResult] at hr
      rw [hr] at h1 h2
      subst h2
      exact .inr ⟨hy, h1⟩

/-- What a case of the switch gives when it does not throw: a break with `isInvalid` clear, a
return of `ISMINE_NO` (tokens not deployed), the key cases, the lock-time case, or what
`redeemExit` makes of `IsMine` on a redeem script. -/
theorem isMineSwitch_eq_ok {rec : Bytes → SigVersion → Option (Except String (IsMineType × Bool))}
    {whichType : TxnOutType} {vSolutions : List Bytes} {sigversion : SigVersion} {e : CaseExit}
    (h : isMineSwitch hash160 ripemd160 tokensDeployed nHeight medianTimePast keystore rec
      whichType vSolutions sigversion = some (.ok e)) :
    e = .brk false ∨ e = .ret .no false ∨
      e = pubKeyCase hash160 keystore (vSolutions.getD 0 []) sigversion ∨
      e = keyHashCase keystore (vSolutions.getD 0 []) sigversion ∨
      (whichType = .multisig ∧ e = multisigCase hash160 keystore vSolutions sigversion) ∨
      (∃ r, isMineCltv keystore.toKeyStore vSolutions nHeight medianTimePast = .ok r ∧
        e = .ret r false) ∨
      ∃ s sv r, rec s sv = some (.ok r) ∧ e = redeemExit r.1 r.2 := by
  have hredeem : ∀ s sv, (rec s sv).map (Except.map fun r => redeemExit r.1 r.2) =
      some (.ok e) → ∃ s sv r, rec s sv = some (.ok r) ∧ e = redeemExit r.1 r.2 :=
    fun s sv h' => by
      obtain ⟨y, hy, hr⟩ := Option.map_eq_some'.1 h'
      rcases y with _ | r
      · cases hr
      · exact ⟨s, sv, r, hy, (Except.ok.inj hr).symm⟩
  unfold isMineSwitch at h
  cases whichType <;> dsimp only at h
  case pubkey => exact .inr (.inr (.inl (Except.ok.inj (Option.some.inj h)).symm))
  case pubkeyhash => exact .inr (.inr (.inr (.inl (Except.ok.inj (Option.some.inj h)).symm)))
  case multisig =>
    exact .inr (.inr (.inr (.inr (.inl ⟨rfl, (Except.ok.inj (Option.some.inj h)).symm⟩))))
  case cltv =>
    rcases hc : isMineCltv keystore.toKeyStore vSolutions nHeight medianTimePast with _ | r
    all_goals rw [hc] at h; cases h
    exact .inr (.inr (.inr (.inr (.inr (.inl ⟨r, rfl, rfl⟩)))))
  case witnessV0KeyHash =>
    split_ifs at h
    · exact .inr (.inr (.inr (.inr (.inr (.inr (hredeem _ _ h))))))
    · cases h; exact .inl rfl
  case scripthash =>
    split at h
    · exact .inr (.inr (.inr (.inr (.inr (.inr (hredeem _ _ h))))))
    · cases h; exact .inl rfl
  case witnessV0ScriptHash =>
    split_ifs at h
    · split at h
      · exact .inr (.inr (.inr (.inr (.inr (.inr (hredeem _ _ h))))))
      · cases h; exact .inl rfl
    · cases h; exact .inl rfl
  all_goals first
    | (cases h; exact .inl rfl)
    | (split_ifs at h <;> cases h
       · exact .inr (.inr (.inr (.inl rfl)))
       · exact .inr (.inl rfl))

/-! ### What every result of `IsMine` satisfies -/

/-- A case exit that sets `isInvalid` only with `ISMINE_NO`, and breaks with it clear. -/
def CaseExit.Consistent : CaseExit → Prop
  | .ret r isInvalid => isInvalid = true → r = .no
  | .brk isInvalid => isInvalid = false

theorem redeemExit_consistent {ret : IsMineType} {isInvalid : Bool}
    (h : isInvalid = true → ret = .no) : (redeemExit ret isInvalid).Consistent := by
  unfold redeemExit
  split_ifs with hc
  · exact h
  · cases isInvalid
    · rfl
    · exact absurd (.inr (.inr ⟨h rfl, rfl⟩)) hc

/-- The switch keeps `isInvalid` consistent when `IsMine` on a redeem script does. -/
theorem isMineSwitch_consistent
    {rec : Bytes → SigVersion → Option (Except String (IsMineType × Bool))}
    (hrec : ∀ s sv r, rec s sv = some (.ok (r, true)) → r = .no) {whichType : TxnOutType}
    {vSolutions : List Bytes} {sigversion : SigVersion} {e : CaseExit}
    (h : isMineSwitch hash160 ripemd160 tokensDeployed nHeight medianTimePast keystore rec
      whichType vSolutions sigversion = some (.ok e)) : e.Consistent := by
  rcases isMineSwitch_eq_ok h with rfl | rfl | rfl | rfl | ⟨-, rfl⟩ | ⟨r, -, rfl⟩ |
    ⟨s, sv, ⟨r, isInvalid⟩, hr, rfl⟩
  · rfl
  · simp [CaseExit.Consistent]
  · unfold pubKeyCase; split_ifs <;> simp [CaseExit.Consistent]
  · unfold keyHashCase; split_ifs <;> simp [CaseExit.Consistent]
  · dsimp only [multisigCase]; split_ifs <;> simp [CaseExit.Consistent]
  · simp [CaseExit.Consistent]
  · exact redeemExit_consistent fun hinv => hrec s sv r (hinv ▸ hr)

/-- Through any nesting of redeem scripts, `IsMine` sets `isInvalid` only with `ISMINE_NO`. -/
theorem isMine_isInvalid : ∀ {fuel : Nat} {s : Bytes} {sv : SigVersion} {r : IsMineType},
    isMine tokenKind hash160 ripemd160 tokensDeployed nHeight medianTimePast keystore fuel s sv =
      some (.ok (r, true)) → r = .no
  | 0, _, _, _, h => nomatch h
  | fuel + 1, s, sv, r, h => by
    rcases isMine_succ_eq_ok h with ⟨h1, -⟩ | ⟨t, sols, -, hret | ⟨hbrk, -⟩⟩
    · cases h1
    · exact isMineSwitch_consistent (fun _ _ _ => isMine_isInvalid) hret rfl
    · cases isMineSwitch_consistent (fun _ _ _ => isMine_isInvalid) hbrk

theorem isMine_isInvalid_uncompressed :
    isMine (fun _ => none) id id true 0 0
        { haveKey := fun _ => true, getCScript := fun _ => none, haveCScript := fun _ => false,
          getPubKey := fun _ => none, haveWatchOnly := fun _ => false,
          produceSignature := fun _ => false }
        1 (pushData (List.replicate 65 4) ++ [opCheckSig]) .witnessV0 =
      some (.ok (.no, true)) ∧ IsMineType.no = .no :=
  have h : isMine (fun _ => none) id id true 0 0
      { haveKey := fun _ => true, getCScript := fun _ => none, haveCScript := fun _ => false,
        getPubKey := fun _ => none, haveWatchOnly := fun _ => false,
        produceSignature := fun _ => false }
      1 (pushData (List.replicate 65 4) ++ [opCheckSig]) .witnessV0 =
    some (.ok (.no, true)) := rfl
  ⟨h, isMine_isInvalid h⟩

theorem solver_of_solverKind {s : Bytes} {typeRet t : TxnOutType} {ok : Bool}
    {sols : List Bytes} (h : solverKind tokenKind s typeRet = (ok, t, sols)) :
    ∃ st, solver tokenKind s typeRet .nonstandard = (ok, t, st, sols) := by
  simp only [solverKind] at h
  generalize solver tokenKind s typeRet .nonstandard = r at h ⊢
  obtain ⟨a, b, c, d⟩ := r
  simp only [Prod.mk.injEq] at h
  obtain ⟨rfl, rfl, rfl⟩ := h
  exact ⟨c, rfl⟩

theorem isMineCltv_spendable {ks : KeyStore} {vSolutions : List Bytes} {nHeight medianTimePast : Int}
    (h : isMineCltv ks vSolutions nHeight medianTimePast = .ok .spendable) :
    ks.haveKey (vSolutions.getD 1 []) = true := by
  unfold isMineCltv at h
  split_ifs at h with hk
  · exact hk
  · cases h

/-- The switch returns `ISMINE_SPENDABLE` only with a key the store holds, when `IsMine` on a
redeem script does and a multisig script has a key. -/
theorem isMineSwitch_spendable
    {rec : Bytes → SigVersion → Option (Except String (IsMineType × Bool))}
    (hrec : ∀ s sv isInvalid, rec s sv = some (.ok (.spendable, isInvalid)) →
      ∃ keyID, keystore.haveKey keyID = true)
    {whichType : TxnOutType} {vSolutions : List Bytes}
    (hkeys : whichType = .multisig → (vSolutions.drop 1).dropLast ≠ [])
    {sigversion : SigVersion} {isInvalid : Bool}
    (h : isMineSwitch hash160 ripemd160 tokensDeployed nHeight medianTimePast keystore rec
      whichType vSolutions sigversion = some (.ok (.ret .spendable isInvalid))) :
    ∃ keyID, keystore.haveKey keyID = true := by
  rcases isMineSwitch_eq_ok h with he | he | he | he | ⟨ht, he⟩ | ⟨r, hr, he⟩ |
    ⟨s, sv, ⟨r, isInvalid'⟩, hr, he⟩
  · cases he
  · cases he
  · unfold pubKeyCase at he
    split_ifs at he with h1 h2
    · cases he
    · exact ⟨_, h2⟩
  · unfold keyHashCase at he
    split_ifs at he with h1 h2
    · cases he
    · exact ⟨_, h2⟩
  · -- every key held, and there is one
    dsimp only [multisigCase] at he
    split_ifs at he with h1 h2
    · cases he
    · obtain ⟨key, hkey⟩ := List.exists_mem_of_ne_nil _ (hkeys ht)
      exact ⟨_, List.countP_eq_length.1 h2 key hkey⟩
  · cases he
    exact ⟨_, isMineCltv_spendable hr⟩
  · unfold redeemExit at he
    split_ifs at he
    cases he
    exact hrec s sv _ hr

/-- Through any nesting of redeem scripts, `IsMine` gives `ISMINE_SPENDABLE` only with a key
the store holds: a store with no private key has no spendable output. For a multisig script
this rests on `Solver`'s `1 ≤ n`, since `HaveKeys` of no keys is every key. -/
theorem isMine_spendable_haveKey (hk : TokenKinds tokenKind) :
    ∀ {fuel : Nat} {s : Bytes} {sv : SigVersion} {isInvalid : Bool},
      isMine tokenKind hash160 ripemd160 tokensDeployed nHeight medianTimePast keystore fuel s
          sv = some (.ok (.spendable, isInvalid)) →
        ∃ keyID, keystore.haveKey keyID = true
  | 0, _, _, _, h => nomatch h
  | fuel + 1, s, sv, isInvalid, h => by
    rcases isMine_succ_eq_ok h with ⟨-, h1⟩ | ⟨t, sols, hsk, hret | ⟨-, h1⟩⟩
    · exact absurd rfl h1
    · refine isMineSwitch_spendable (fun _ _ _ => isMine_spendable_haveKey hk) (fun ht => ?_) hret
      subst ht
      obtain ⟨st, hs⟩ := solver_of_solverKind hsk
      exact solver_multisig_keys hk hs
    · exact absurd rfl h1

theorem isMine_spendable_haveKey_rawPubKey :
    TokenKinds (fun _ => none) ∧
      isMine (fun _ => none) id id true 0 0
          { haveKey := fun _ => true, getCScript := fun _ => none, haveCScript := fun _ => false,
            getPubKey := fun _ => none, haveWatchOnly := fun _ => false,
            produceSignature := fun _ => false }
          1 (pushData (List.replicate 33 2) ++ [opCheckSig]) .base =
        some (.ok (.spendable, false)) ∧
      ∃ keyID : Bytes, (fun _ : Bytes => true) keyID = true :=
  have hk : TokenKinds (fun _ => none) := fun _ _ h => nomatch h
  have h : isMine (fun _ => none) id id true 0 0
      { haveKey := fun _ => true, getCScript := fun _ => none, haveCScript := fun _ => false,
        getPubKey := fun _ => none, haveWatchOnly := fun _ => false,
        produceSignature := fun _ => false }
      1 (pushData (List.replicate 33 2) ++ [opCheckSig]) .base = some (.ok (.spendable, false)) :=
    rfl
  ⟨hk, h, isMine_spendable_haveKey hk h⟩

end IsMine

end Script

end AokChain
