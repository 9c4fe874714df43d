import AokChain.Script.Destination

/-!
# What `Solver` accepts

`Solver` classifies a script by a few fixed shapes (pay-to-script-hash, token scripts,
offline staking, witness programs, data carriers) and otherwise by the first template of
`mTemplates` the script matches. Its callers index the solutions it returns:
`ExtractDestination` reads `vSolutions[0]`, `IsMine` reads `vSolutions[0]` and `vSolutions[1]`,
and `ExtractDestinations` reads `vSolutions.front()[0]` and the keys between the first and
the last solution. `SolutionsShape` states, for each kind, the solutions those reads assume,
and `solver_solutions_shape` shows that every script `Solver` accepts has them.

A template's placeholders are the only opcodes that take a solution
(`matchTemplate_eq_some`), so the solutions of a template match follow the placeholders of
the template, except for the `OP_PUBKEYS` run of the multisig template
(`matchTemplate_multisig`).
-/

namespace AokChain

namespace Script

/-! ### The `OP_PUBKEYS` loop -/

section PubKeys

theorem decodeOpN_toNat {o : UInt8} (h : opTrue ≤ o ∧ o ≤ op16) :
    (decodeOpN o).toNat = o.toNat - 80 := by
  have h1 : 81 ≤ o.toNat := h.1
  have : o ≠ opFalse := fun e => by subst e; exact absurd h1 (by decide)
  simp only [decodeOpN, if_neg this]
  exact UInt8.toNat_sub_of_le o 80 (show 80 ≤ o.toNat by omega)

/-- What the loop adds to the solutions are pushes of 33 to 65 bytes. -/
theorem pubKeysLoop_sols : ∀ (fuel : Nat) (opcode1 : UInt8) (vch1 s : Bytes) (sols : List Bytes),
    ∃ ks, (pubKeysLoop fuel opcode1 vch1 s sols).2.2.2 = sols ++ ks ∧
      ∀ k ∈ ks, 33 ≤ k.length ∧ k.length ≤ 65
  | 0, _, _, _, sols => ⟨[], (List.append_nil sols).symm, fun _ h => nomatch h⟩
  | fuel + 1, opcode1, vch1, s, sols => by
    by_cases hk : 33 ≤ vch1.length ∧ vch1.length ≤ 65
    · rw [pubKeysLoop, if_pos hk]
      split
      next opcode1' vch1' s' _ =>
        obtain ⟨ks, hks, hlen⟩ := pubKeysLoop_sols fuel opcode1' vch1' s' (sols ++ [vch1])
        refine ⟨vch1 :: ks, by simp [hks], ?_⟩
        rintro k (_ | ⟨_, hk'⟩)
        exacts [hk, hlen k hk']
      next => exact ⟨[vch1], rfl, by simpa using hk⟩
    · exact ⟨[], by simp [pubKeysLoop, hk]⟩

end PubKeys

/-! ### The templates -/

section Template

variable {s rest : Bytes} {tpl : List UInt8} {sols : List Bytes}

theorem matchTemplate_error {opcode2 : UInt8} {e : Bytes} (hs : getOp s = .error e) :
    matchTemplate s (opcode2 :: tpl) sols = none := by
  delta matchTemplate
  dsimp only [List.brecOn, List.rec]
  simp only [hs]

/-- One turn of the loop on `OP_PUBKEYS`: the inner loop, then the next template opcode
against where it stopped. -/
theorem matchTemplate_pubKeys {opcode1 opcode2 : UInt8} {vch1 : Bytes}
    (hs : getOp s = .ok (opcode1, vch1, rest)) :
    matchTemplate s (opPubKeys :: opcode2 :: tpl) sols =
      let r := pubKeysLoop (rest.length + 1) opcode1 vch1 rest sols
      (templateStep opcode2 r.1 r.2.1 r.2.2.2).bind (matchTemplate r.2.2.1 tpl) := by
  delta matchTemplate
  dsimp only [List.brecOn, List.rec]
  simp only [hs, if_true]

/-- The small-integer placeholder takes `OP_0` or `OP_1` to `OP_16`, as a number up to 16. -/
theorem templateStep_smallInteger_eq_some {opcode1 : UInt8} {vch1 : Bytes} {sols' : List Bytes}
    (h : templateStep opSmallInteger opcode1 vch1 sols = some sols') :
    ∃ a : UInt8, a.toNat ≤ 16 ∧ sols' = sols ++ [[a]] := by
  rw [templateStep_smallInteger] at h
  split_ifs at h with hc
  cases h
  refine ⟨_, ?_, rfl⟩
  rcases hc with rfl | hc
  · decide
  · have : opcode1.toNat ≤ 96 := hc.2
    rw [decodeOpN_toNat hc]
    omega

/-- A turn of the loop on a template opcode other than `OP_PUBKEYS` that leads to a match. -/
theorem matchTemplate_cons_eq_some {opcode2 : UInt8} {r : List Bytes} (h2 : opcode2 ≠ opPubKeys)
    (h : matchTemplate s (opcode2 :: tpl) sols = some r) :
    ∃ opcode1 vch1 rest sols1, getOp s = .ok (opcode1, vch1, rest) ∧
      templateStep opcode2 opcode1 vch1 sols = some sols1 ∧ matchTemplate rest tpl sols1 = some r := by
  rcases hs : getOp s with e | ⟨opcode1, vch1, rest⟩
  · rw [matchTemplate_error hs] at h
    cases h
  rw [matchTemplate_cons h2 hs] at h
  obtain ⟨sols1, h1, h⟩ := Option.bind_eq_some.1 h
  exact ⟨opcode1, vch1, rest, sols1, rfl, h1, h⟩

/-- What the `TX_MULTISIG` template takes from a script: a number up to 16, pushes of 33 to 65
bytes, and a number up to 16. -/
theorem matchTemplate_multisig
    (h : matchTemplate s [opSmallInteger, opPubKeys, opSmallInteger, opCheckMultiSig] [] =
      some sols) :
    ∃ (a b : UInt8) (keys : List Bytes), sols = [a] :: keys ++ [[b]] ∧ a.toNat ≤ 16 ∧
      b.toNat ≤ 16 ∧ ∀ k ∈ keys, 33 ≤ k.length ∧ k.length ≤ 65 := by
  -- the required number
  rcases hs : getOp s with e | ⟨opcode1, vch1, s1⟩
  · rw [matchTemplate_error hs] at h
    cases h
  rw [matchTemplate_cons (by decide) hs] at h
  obtain ⟨_, h1, h⟩ := Option.bind_eq_some.1 h
  obtain ⟨a, ha, rfl⟩ := templateStep_smallInteger_eq_some h1
  -- the keys, then the number of keys
  rcases hs1 : getOp s1 with e | ⟨opcode2, vch2, s2⟩
  · rw [matchTemplate_error hs1] at h
    cases h
  rw [matchTemplate_pubKeys hs1] at h
  obtain ⟨keys, hkeys, hlen⟩ := pubKeysLoop_sols (s2.length + 1) opcode2 vch2 s2 ([] ++ [[a]])
  obtain ⟨_, h2, h⟩ := Option.bind_eq_some.1 h
  obtain ⟨b, hb, rfl⟩ := templateStep_smallInteger_eq_some h2
  -- `OP_CHECKMULTISIG`, and the end of the script
  rcases hs3 : getOp (pubKeysLoop (s2.length + 1) opcode2 vch2 s2 ([] ++ [[a]])).2.2.1 with
    e | ⟨opcode3, vch3, s3⟩
  · rw [matchTemplate_error hs3] at h
    cases h
  rw [matchTemplate_plain (by decide) hs3] at h
  split_ifs at h
  rw [matchTemplate_nil] at h
  split_ifs at h
  cases h
  exact ⟨a, b, keys, by rw [hkeys]; simp, ha, hb, hlen⟩

/-- The template opcodes that take a solution from the script. -/
def isPlaceholder (opcode2 : UInt8) : Bool :=
  opcode2 = opPubKey || opcode2 = opPubKeyHash || opcode2 = opSmallInteger ||
    opcode2 = opBigInteger

/-- What a placeholder takes from the script: a key of 33 to 65 bytes, a key hash of 20 bytes,
a number up to 16, or any push. -/
def PlaceholderOk (opcode2 : UInt8) (v : Bytes) : Prop :=
  if opcode2 = opPubKey then 33 ≤ v.length ∧ v.length ≤ 65
  else if opcode2 = opPubKeyHash then v.length = 20
  else if opcode2 = opSmallInteger then ∃ a : UInt8, a.toNat ≤ 16 ∧ v = [a]
  else True

@[simp] theorem placeholderOk_pubKey {v : Bytes} :
    PlaceholderOk opPubKey v ↔ 33 ≤ v.length ∧ v.length ≤ 65 := Iff.rfl

@[simp] theorem placeholderOk_pubKeyHash {v : Bytes} : PlaceholderOk opPubKeyHash v ↔ v.length = 20 :=
  Iff.rfl

@[simp] theorem placeholderOk_smallInteger {v : Bytes} :
    PlaceholderOk opSmallInteger v ↔ ∃ a : UInt8, a.toNat ≤ 16 ∧ v = [a] := Iff.rfl

@[simp] theorem placeholderOk_bigInteger {v : Bytes} : PlaceholderOk opBigInteger v := trivial

/-- A comparison that does not break adds one solution for a placeholder, of the placeholder's
kind, and none for any other opcode. -/
theorem templateStep_eq_some {opcode2 opcode1 : UInt8} {vch1 : Bytes} {sols' : List Bytes}
    (h : templateStep opcode2 opcode1 vch1 sols = some sols') :
    if isPlaceholder opcode2 then ∃ v, sols' = sols ++ [v] ∧ PlaceholderOk opcode2 v
    else sols' = sols := by
  by_cases h1 : opcode2 = opPubKey
  · subst h1
    rw [templateStep_pubKey] at h
    split_ifs at h with hlen
    cases h
    exact ⟨vch1, rfl, by simp only [placeholderOk_pubKey]; omega⟩
  by_cases h2 : opcode2 = opPubKeyHash
  · subst h2
    rw [templateStep_pubKeyHash] at h
    split_ifs at h with hlen
    cases h
    exact ⟨vch1, rfl, not_not.1 hlen⟩
  by_cases h3 : opcode2 = opSmallInteger
  · subst h3
    obtain ⟨a, ha, rfl⟩ := templateStep_smallInteger_eq_some h
    exact ⟨[a], rfl, a, ha, rfl⟩
  by_cases h4 : opcode2 = opBigInteger
  · subst h4
    rw [templateStep_bigInteger] at h
    cases h
    exact ⟨vch1, rfl, trivial⟩
  · have hp : isPlaceholder opcode2 = false := by simp [isPlaceholder, h1, h2, h3, h4]
    rw [if_neg (by rw [hp]; decide)]
    unfold templateStep at h
    simp only [if_neg h1, if_neg h2, if_neg h3, if_neg h4] at h
    split_ifs at h
    exact (Option.some.inj h).symm

/-- Against a template without `OP_PUBKEYS`, a match adds one solution for each placeholder of
the template, in order, each of its placeholder's kind. -/
theorem matchTemplate_eq_some : ∀ {tpl : List UInt8} {s : Bytes} {sols r : List Bytes},
    opPubKeys ∉ tpl → matchTemplate s tpl sols = some r →
      ∃ new, r = sols ++ new ∧ List.Forall₂ PlaceholderOk (tpl.filter isPlaceholder) new
  | [], s, sols, r, _, h => by
    rw [matchTemplate_nil] at h
    split_ifs at h
    cases h
    exact ⟨[], by simp, List.Forall₂.nil⟩
  | opcode2 :: tpl, s, sols, r, hp, h => by
    obtain ⟨_, _, rest, sols1, -, h1, h⟩ :=
      matchTemplate_cons_eq_some (fun e => hp (e ▸ List.mem_cons_self _ _)) h
    obtain ⟨new, rfl, hnew⟩ :=
      matchTemplate_eq_some (fun hm => hp (List.mem_cons_of_mem _ hm)) h
    have hstep := templateStep_eq_some h1
    by_cases hph : isPlaceholder opcode2
    · rw [if_pos hph] at hstep
      obtain ⟨v, rfl, hv⟩ := hstep
      exact ⟨v :: new, by simp, by rw [List.filter_cons_of_pos hph]; exact .cons hv hnew⟩
    · rw [if_neg hph] at hstep
      subst hstep
      exact ⟨new, rfl, by rw [List.filter_cons_of_neg hph]; exact hnew⟩

/-- A match from no solutions of a template without `OP_PUBKEYS` gives one solution for each
placeholder of the template. -/
theorem matchTemplate_placeholders {r : List Bytes} (hp : opPubKeys ∉ tpl)
    (h : matchTemplate s tpl [] = some r) : List.Forall₂ PlaceholderOk (tpl.filter isPlaceholder) r := by
  obtain ⟨new, rfl, hnew⟩ := matchTemplate_eq_some hp h
  simpa using hnew

end Template

/-! ### The solutions of what `Solver` accepts -/

section Solver

variable {tokenKind : Bytes → Option (TxnOutType × Bool)}

/-- The kinds `IsTokenScript` reads from token data are the three token kinds. -/
def TokenKinds (tokenKind : Bytes → Option (TxnOutType × Bool)) : Prop :=
  ∀ b k, tokenKind b = some k → k.1 = .newToken ∨ k.1 = .transferToken ∨ k.1 = .reissueToken

theorem isTokenScript_kind {s : Bytes} {nType nScriptType : TxnOutType} {fIsOwner : Bool}
    (h : isTokenScript tokenKind s = some (nType, nScriptType, fIsOwner)) :
    ∃ b, tokenKind b = some (nType, fIsOwner) := by
  unfold isTokenScript at h
  split_ifs at h <;> obtain ⟨⟨_, _⟩, hb, he⟩ := Option.map_eq_some'.1 h <;> cases he
  exacts [⟨_, hb⟩, ⟨_, hb⟩]

/-- The template scan reports `TX_MULTISIG` only for a match of the multisig template that
passes its extra test. -/
theorem scanTemplates_multisig {s : Bytes} {scriptTypeRet st' : TxnOutType} {sols : List Bytes} :
    ∀ {tpls : List (TxnOutType × List UInt8)},
      scanTemplates s scriptTypeRet tpls = (true, .multisig, st', sols) →
      ∃ tpl, (.multisig, tpl) ∈ tpls ∧ matchTemplate s tpl [] = some sols ∧
        multisigOk sols = true
  | [], h => by cases h
  | (t, tpl) :: tpls, h => by
    rw [scanTemplates] at h
    split at h
    next sols' hm =>
      split_ifs at h with ht <;> simp only [Prod.mk.injEq] at h
      · obtain ⟨hok, -, -, rfl⟩ := h
        exact ⟨tpl, by simp [ht], hm, hok⟩
      · exact absurd h.2.1 ht
    next =>
      obtain ⟨tpl', hmem, hm, hok⟩ := scanTemplates_multisig h
      exact ⟨tpl', List.mem_cons_of_mem _ hmem, hm, hok⟩

theorem isTokenScript_length {s : Bytes} {r : TxnOutType × TxnOutType × Bool}
    (h : isTokenScript tokenKind s = some r) : 31 < s.length := by
  unfold isTokenScript at h
  split_ifs at h with hlen
  exacts [hlen, hlen]

/-- What `Solver` reports when it succeeds: the solutions of one of its shortcuts, or a match of
one of the templates. -/
theorem solver_eq_true {s : Bytes} {typeRet scriptTypeRet t st : TxnOutType} {sols : List Bytes}
    (h : solver tokenKind s typeRet scriptTypeRet = (true, t, st, sols)) :
    (t = .scripthash ∧ s.length = 23 ∧ sols = [(s.drop 2).take 20]) ∨
      ((∃ b o, tokenKind b = some (t, o)) ∧ 31 < s.length ∧
        (sols = [(s.drop 2).take 20] ∨ sols = [(s.drop 3).take 20])) ∨
      (t = .offlineStaking ∧ s.length = 54 ∧ sols = [(s.drop 5).take 20, (s.drop 31).take 20]) ∨
      (t = .witnessV0KeyHash ∧ ∃ p, sols = [p] ∧ p.length = 20) ∨
      (t = .witnessV0ScriptHash ∧ ∃ p, sols = [p] ∧ p.length = 32) ∨
      (t = .nullData ∧ sols = []) ∨
      scanTemplates s scriptTypeRet templates = (true, t, st, sols) := by
  unfold solver at h
  split at h
  next hp =>
    -- pay-to-script-hash
    simp only [Prod.mk.injEq] at h
    obtain ⟨-, rfl, -, rfl⟩ := h
    simp only [isPayToScriptHash, Bool.and_eq_true, decide_eq_true_eq] at hp
    exact .inl ⟨rfl, hp.1.1, rfl⟩
  split at h
  next nType nScriptType fIsOwner hts =>
    -- a token script
    have hb := isTokenScript_kind hts
    split_ifs at h <;> simp only [Prod.mk.injEq, Bool.false_eq_true, false_and] at h <;>
      obtain ⟨-, rfl, -, rfl⟩ := h
    · exact .inr (.inl ⟨⟨_, _, hb.choose_spec⟩, isTokenScript_length hts, .inl rfl⟩)
    · exact .inr (.inl ⟨⟨_, _, hb.choose_spec⟩, isTokenScript_length hts, .inr rfl⟩)
  split at h
  next ho =>
    -- offline staking
    simp only [Prod.mk.injEq] at h
    obtain ⟨-, rfl, -, rfl⟩ := h
    simp only [isOfflineStaking, Bool.and_eq_true, decide_eq_true_eq] at ho
    exact .inr (.inr (.inl ⟨rfl, ho.1.1.1, rfl⟩))
  split at h
  next v p hw =>
    -- a witness program
    split_ifs at h with h20 h32 <;>
      simp only [Prod.mk.injEq, Bool.false_eq_true, false_and] at h <;>
      obtain ⟨-, rfl, -, rfl⟩ := h
    · exact .inr (.inr (.inr (.inl ⟨rfl, p, rfl, h20.2⟩)))
    · exact .inr (.inr (.inr (.inr (.inl ⟨rfl, p, rfl, h32.2⟩))))
  split_ifs at h
  · -- a data carrier
    simp only [Prod.mk.injEq] at h
    obtain ⟨-, rfl, -, rfl⟩ := h
    exact .inr (.inr (.inr (.inr (.inr (.inl ⟨rfl, rfl⟩)))))
  · exact .inr (.inr (.inr (.inr (.inr (.inr h)))))

/-- The template scan reports a kind only for a match of a template of that kind. -/
theorem scanTemplates_kind {s : Bytes} {scriptTypeRet st' t : TxnOutType} {sols : List Bytes} :
    ∀ {tpls : List (TxnOutType × List UInt8)},
      scanTemplates s scriptTypeRet tpls = (true, t, st', sols) →
      ∃ tpl, (t, tpl) ∈ tpls ∧ matchTemplate s tpl [] = some sols
  | [], h => by cases h
  | (t', tpl) :: tpls, h => by
    rw [scanTemplates] at h
    split at h
    next sols' hm =>
      split_ifs at h <;> simp only [Prod.mk.injEq] at h <;> obtain ⟨-, rfl, -, rfl⟩ := h <;>
        exact ⟨tpl, List.mem_cons_self _ _, hm⟩
    next =>
      obtain ⟨tpl', hmem, hm⟩ := scanTemplates_kind h
      exact ⟨tpl', List.mem_cons_of_mem _ hmem, hm⟩

theorem multisigOk_iff (a b : UInt8) (keys : List Bytes) :
    multisigOk ([a] :: keys ++ [[b]]) = true ↔
      1 ≤ a.toNat ∧ a.toNat ≤ b.toNat ∧ keys.length = b.toNat := by
  simp [multisigOk, List.getLast?_cons]
  omega

/-- The solutions `Solver`'s callers read for each kind of output: `vSolutions[0]` (and
`vSolutions[1]`) of the shapes they pass to `CKeyID`, `CScriptID`, `CPubKey` and
`CScriptNum`, and for `TX_MULTISIG` the number of required keys, the keys and their number. -/
def SolutionsShape : TxnOutType → List Bytes → Prop
  | .nonstandard, _ => False
  | .cltv, sols => ∃ nLockTime id, sols = [nLockTime, id] ∧ id.length = 20
  | .pubkey, sols => ∃ key, sols = [key] ∧ 33 ≤ key.length ∧ key.length ≤ 65
  | .pubkeyhash, sols => ∃ id, sols = [id] ∧ id.length = 20
  | .scripthash, sols => ∃ id, sols = [id] ∧ id.length = 20
  | .multisig, sols => ∃ (m : UInt8) (keys : List Bytes),
      sols = [m] :: keys ++ [[keys.length.toUInt8]] ∧ 1 ≤ m.toNat ∧ m.toNat ≤ keys.length ∧
        keys.length ≤ 16 ∧ ∀ k ∈ keys, 33 ≤ k.length ∧ k.length ≤ 65
  | .nullData, sols => sols = []
  | .witnessV0KeyHash, sols => ∃ program, sols = [program] ∧ program.length = 20
  | .witnessV0ScriptHash, sols => ∃ program, sols = [program] ∧ program.length = 32
  | .offlineStaking, sols => ∃ staker spender, sols = [staker, spender] ∧
      staker.length = 20 ∧ spender.length = 20
  | .newToken, sols | .transferToken, sols | .reissueToken, sols =>
      ∃ id, sols = [id] ∧ id.length = 20

/-- Every match the template scan reports has the solutions of its kind. -/
theorem scanTemplates_shape {s : Bytes} {scriptTypeRet st' t : TxnOutType} {sols : List Bytes}
    (h : scanTemplates s scriptTypeRet templates = (true, t, st', sols)) : SolutionsShape t sols := by
  obtain ⟨tpl, hmem, hm⟩ := scanTemplates_kind h
  simp only [templates, List.mem_cons, Prod.mk.injEq, List.mem_singleton, List.not_mem_nil,
    or_false] at hmem
  rcases hmem with ⟨rfl, rfl⟩ | ⟨rfl, rfl⟩ | ⟨rfl, rfl⟩ | ⟨rfl, rfl⟩
  · -- `TX_CLTV`: any push, then a key hash
    have hnew : List.Forall₂ PlaceholderOk [opBigInteger, opPubKeyHash] sols :=
      matchTemplate_placeholders (by decide) hm
    rcases hnew with _ | ⟨-, _ | ⟨hid, _ | _⟩⟩
    exact ⟨_, _, rfl, hid⟩
  · -- `TX_PUBKEY`: a key
    have hnew : List.Forall₂ PlaceholderOk [opPubKey] sols := matchTemplate_placeholders (by decide) hm
    rcases hnew with _ | ⟨hkey, _ | _⟩
    exact ⟨_, rfl, hkey⟩
  · -- `TX_PUBKEYHASH`: a key hash
    have hnew : List.Forall₂ PlaceholderOk [opPubKeyHash] sols :=
      matchTemplate_placeholders (by decide) hm
    rcases hnew with _ | ⟨hid, _ | _⟩
    exact ⟨_, rfl, hid⟩
  · -- `TX_MULTISIG`: the numbers and the keys, which pass `multisigOk`
    obtain ⟨tpl, hmem, hm, hok⟩ := scanTemplates_multisig h
    obtain rfl : tpl = [opSmallInteger, opPubKeys, opSmallInteger, opCheckMultiSig] := by
      simpa [templates] using hmem
    obtain ⟨a, b, keys, rfl, ha, hb, hkeys⟩ := matchTemplate_multisig hm
    obtain ⟨h1, h2, h3⟩ := (multisigOk_iff a b keys).1 hok
    have hb' : b = keys.length.toUInt8 := UInt8.toNat.inj (by rw [toNat_toUInt8]; omega)
    exact ⟨a, keys, by rw [hb'], h1, by omega, by omega, hkeys⟩

/-- Every script `Solver` accepts has the solutions of the kind it reports: `vSolutions[0]` and
`vSolutions[1]` are there for the callers that read them, with the lengths of the hashes and
keys they are read as. -/
theorem solver_solutions_shape (hk : TokenKinds tokenKind) {s : Bytes}
    {typeRet scriptTypeRet t st : TxnOutType} {sols : List Bytes}
    (h : solver tokenKind s typeRet scriptTypeRet = (true, t, st, sols)) : SolutionsShape t sols := by
  rcases solver_eq_true h with ⟨rfl, hlen, rfl⟩ | ⟨⟨b, o, hb⟩, hlen, hsols⟩ | ⟨rfl, hlen, rfl⟩ |
    ⟨rfl, p, rfl, hp⟩ | ⟨rfl, p, rfl, hp⟩ | ⟨rfl, rfl⟩ | hscan
  · exact ⟨_, rfl, List.length_take_of_le (by rw [List.length_drop]; omega)⟩
  · -- a token script pays to the hash after its first two or three bytes
    have hid : ∃ id, sols = [id] ∧ id.length = 20 := by
      rcases hsols with rfl | rfl <;>
        exact ⟨_, rfl, List.length_take_of_le (by rw [List.length_drop]; omega)⟩
    rcases hk b _ hb with rfl | rfl | rfl <;> exact hid
  · exact ⟨_, _, rfl, List.length_take_of_le (by rw [List.length_drop]; omega),
      List.length_take_of_le (by rw [List.length_drop]; omega)⟩
  · exact ⟨p, rfl, hp⟩
  · exact ⟨p, rfl, hp⟩
  · rfl
  · exact scanTemplates_shape hscan

theorem solver_solutions_shape_oneOfOne :
    TokenKinds (fun _ => none) ∧
      solver (fun _ => none) (opTrue :: pushData (List.replicate 33 2) ++ [opTrue, opCheckMultiSig])
          .nonstandard .nonstandard =
        (true, .multisig, .nonstandard, [[1], List.replicate 33 2, [1]]) ∧
      SolutionsShape .multisig [[1], List.replicate 33 2, [1]] :=
  have hk : TokenKinds (fun _ => none) := fun _ _ h => nomatch h
  have hs : solver (fun _ => none) (opTrue :: pushData (List.replicate 33 2) ++
      [opTrue, opCheckMultiSig]) .nonstandard .nonstandard =
        (true, .multisig, .nonstandard, [[1], List.replicate 33 2, [1]]) := by decide
  ⟨hk, hs, solver_solutions_shape hk hs⟩

/-- A kind that none of `Solver`'s shortcuts reports comes from the template scan. -/
theorem solver_scan (hk : TokenKinds tokenKind) {s : Bytes}
    {typeRet scriptTypeRet t st : TxnOutType} {sols : List Bytes}
    (h : solver tokenKind s typeRet scriptTypeRet = (true, t, st, sols))
    (ht : t = .cltv ∨ t = .pubkey ∨ t = .pubkeyhash ∨ t = .multisig) :
    scanTemplates s scriptTypeRet templates = (true, t, st, sols) := by
  rcases solver_eq_true h with ⟨rfl, -⟩ | ⟨⟨b, o, hb⟩, -⟩ | ⟨rfl, -⟩ | ⟨rfl, -⟩ | ⟨rfl, -⟩ |
    ⟨rfl, -⟩ | hscan
  · simp at ht
  · rcases hk b _ hb with rfl | rfl | rfl <;> simp at ht
  all_goals first | exact hscan | simp at ht

/-- Every script `Solver` accepts as `TX_PUBKEYHASH` has one 20-byte key hash for solution. -/
theorem solver_pubkeyhash_sound (hk : TokenKinds tokenKind) {s : Bytes}
    {typeRet scriptTypeRet st' : TxnOutType} {sols : List Bytes}
    (h : solver tokenKind s typeRet scriptTypeRet = (true, .pubkeyhash, st', sols)) :
    ∃ id : Bytes, sols = [id] ∧ id.length = 20 :=
  scanTemplates_shape (solver_scan hk h (.inr (.inr (.inl rfl))))

/-- Every script `Solver` accepts as `TX_MULTISIG` has at least one key between its two
numbers. -/
theorem solver_multisig_keys (hk : TokenKinds tokenKind) {s : Bytes}
    {typeRet scriptTypeRet st' : TxnOutType} {sols : List Bytes}
    (h : solver tokenKind s typeRet scriptTypeRet = (true, .multisig, st', sols)) :
    (sols.drop 1).dropLast ≠ [] := by
  obtain ⟨m, keys, rfl, h1, hm, -⟩ := scanTemplates_shape (solver_scan hk h (.inr (.inr (.inr rfl))))
  have : keys ≠ [] := fun e => by subst e; simp at hm; omega
  simpa [List.dropLast_append_of_ne_nil] using this

end Solver

end Script

end AokChain
