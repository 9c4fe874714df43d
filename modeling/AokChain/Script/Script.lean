import AokChain.Governance.Store

/-!
# Scripts: opcodes, pushes, script numbers and the shape tests of `CScript`

A `CScript` is a byte string. This module models what `Solver` and the code around it read of
a script: `GetOp`, which decodes one opcode and the data it pushes; the `<<` operators that
build scripts; `CScriptNum`, the minimal little-endian sign-magnitude encoding of stack numbers,
whose decoder throws `scriptnum_error`; and the fixed-shape tests `IsPayToScriptHash`,
`IsWitnessProgram`, `IsPushOnly`, `IsOfflineStaking` and `IsTokenScript`.

None of these is in the sources. They are modelled from the specification, with the offsets
that `Solver` itself reads fixing the shapes: the 23-byte pay-to-script-hash form, the 54-byte
offline-staking form whose key hashes sit at bytes 5 and 31, and a token script that is a
pay-to-key-hash or pay-to-script-hash script followed by the reserved marker.
-/

namespace AokChain

namespace Script

/-! ### Opcodes -/

def opFalse : UInt8 := 0x00
def opPushData1 : UInt8 := 0x4c
def opPushData2 : UInt8 := 0x4d
def opPushData4 : UInt8 := 0x4e
def opTrue : UInt8 := 0x51
def op16 : UInt8 := 0x60
def opIf : UInt8 := 0x63
def opElse : UInt8 := 0x67
def opEndIf : UInt8 := 0x68
def opReturn : UInt8 := 0x6a
def opDrop : UInt8 := 0x75
def opDup : UInt8 := 0x76
def opEqual : UInt8 := 0x87
def opEqualVerify : UInt8 := 0x88
def opHash160 : UInt8 := 0xa9
def opCheckSig : UInt8 := 0xac
def opCheckMultiSig : UInt8 := 0xae
def opCheckLockTimeVerify : UInt8 := 0xb1
def opInvalidOpcode : UInt8 := 0xff

/-- Modelled from the spec: `OP_AOK_TOKEN`, the reserved opcode that marks token data. -/
def opAokToken : UInt8 := 0xc0

/-- Modelled from the spec: `OP_OFFLINE_STAKE`, the opcode that opens an offline-staking
script. -/
def opOfflineStake : UInt8 := 0xc5

/-- Modelled from the spec: `OP_BIGINTEGER`, the template opcode that matches any one
operation of the script. -/
def opBigInteger : UInt8 := 0xf0

def opSmallInteger : UInt8 := 0xfa
def opPubKeys : UInt8 := 0xfb
def opPubKeyHash : UInt8 := 0xfd
def opPubKey : UInt8 := 0xfe

/-! ### Decoding one operation -/

/-- The size field of a push opcode and the bytes after it; on a short script, the bytes
`GetOp` stops at. -/
def pushSize (opcode : UInt8) (s : Bytes) : Except Bytes (Nat × Bytes) :=
  if opcode < opPushData1 then .ok (opcode.toNat, s)
  else if opcode = opPushData1 then
    match s with
    | b :: s => .ok (b.toNat, s)
    | [] => .error []
  else if opcode = opPushData2 then
    match s with
    | b0 :: b1 :: s => .ok (b0.toNat + 256 * b1.toNat, s)
    | s => .error s
  else
    match s with
    | b0 :: b1 :: b2 :: b3 :: s =>
      .ok (b0.toNat + 256 * b1.toNat + 65536 * b2.toNat + 16777216 * b3.toNat, s)
    | s => .error s

/-- Modelled from the spec: `GetOp(pc, opcode, vch)`. It gives the opcode, the data it
pushes and the rest of the script, or, where the script ends inside the operation, the
bytes left after the opcode and its size field. -/
def getOp : Bytes → Except Bytes (UInt8 × Bytes × Bytes)
  | [] => .error []
  | opcode :: s =>
    if opcode ≤ opPushData4 then
      match pushSize opcode s with
      | .error s => .error s
      | .ok (nSize, s) =>
        if s.length < nSize then .error s else .ok (opcode, s.take nSize, s.drop nSize)
    else .ok (opcode, [], s)

/-- Modelled from the spec: `CScript::DecodeOP_N`. -/
def decodeOpN (opcode : UInt8) : UInt8 :=
  if opcode = opFalse then 0 else opcode - (opTrue - 1)

/-- Modelled from the spec: `IsPushOnly(pc)`, with the script's length as fuel. -/
def isPushOnly : Nat → Bytes → Bool
  | 0, _ => true
  | fuel + 1, s =>
    match s with
    | [] => true
    | _ :: _ =>
      match getOp s with
      | .error _ => false
      | .ok (opcode, _, s) => if opcode > op16 then false else isPushOnly fuel s

/-! ### Building scripts -/

/-- Modelled from the spec: `CScript::operator<<(std::vector<unsigned char>)`, a push of `b`
with the shortest size field. -/
def pushData (b : Bytes) : Bytes :=
  if b.length < opPushData1.toNat then b.length.toUInt8 :: b
  else if b.length ≤ 0xff then opPushData1 :: b.length.toUInt8 :: b
  else if b.length ≤ 0xffff then
    opPushData2 :: (b.length % 256).toUInt8 :: (b.length / 256).toUInt8 :: b
  else
    opPushData4 :: (b.length % 256).toUInt8 :: (b.length / 256 % 256).toUInt8 ::
      (b.length / 65536 % 256).toUInt8 :: (b.length / 16777216).toUInt8 :: b

/-- The little-endian bytes of a natural number, least significant first, with no trailing
zero byte; `fuel` bounds the number of bytes. -/
def bytesLE : Nat → Nat → Bytes
  | 0, _ => []
  | fuel + 1, n => if n = 0 then [] else (n % 256).toUInt8 :: bytesLE fuel (n / 256)

/-- Modelled from the spec: `CScriptNum::serialize(value)`, the minimal little-endian
sign-magnitude encoding of an `int64_t`. -/
def scriptNumSerialize (value : Int) : Bytes :=
  if value = 0 then []
  else
    let neg := decide (value < 0)
    let result := bytesLE 8 value.natAbs
    match result.reverse with
    | [] => result
    | last :: rest =>
      if last &&& 0x80 ≠ 0 then result ++ [if neg then 0x80 else 0]
      else if neg then rest.reverse ++ [last ||| 0x80]
      else result

/-- Modelled from the spec: `CScript::push_int64(n)`, the `<<` of an `int64_t`. -/
def pushInt64 (n : Int) : Bytes :=
  if n = -1 ∨ (1 ≤ n ∧ n ≤ 16) then [(n + (opTrue.toNat - 1 : Int)).toNat.toUInt8]
  else if n = 0 then [opFalse]
  else pushData (scriptNumSerialize n)

/-! ### Script numbers -/

/-- The value of little-endian bytes. -/
def valueLE : Bytes → Nat
  | [] => 0
  | b :: bs => b.toNat + 256 * valueLE bs

/-- Modelled from the spec: `CScriptNum::set_vch`, the value of sign-magnitude bytes. -/
def setVch (vch : Bytes) : Int :=
  match vch.reverse with
  | [] => 0
  | last :: _ =>
    if last &&& 0x80 ≠ 0 then -((valueLE vch - 0x80 * 256 ^ (vch.length - 1) : Nat) : Int)
    else valueLE vch

/-- The minimality test of `CScriptNum`: the last byte is `0x00` or `0x80`, and the byte
before it, if there is one, has its sign bit clear. -/
def nonMinimal (vch : Bytes) : Bool :=
  match vch.reverse with
  | [] => false
  | [last] => last &&& 0x7f = 0
  | last :: prev :: _ => last &&& 0x7f = 0 && prev &&& 0x80 = 0

/-- Modelled from the spec: the constructor `CScriptNum(vch, fRequireMinimal, nMaxNumSize)`;
an error is the `scriptnum_error` it throws. -/
def scriptNum (vch : Bytes) (fRequireMinimal : Bool) (nMaxNumSize : Nat) : Except String Int :=
  if vch.length > nMaxNumSize then .error "script number overflow"
  else if fRequireMinimal && nonMinimal vch then .error "non-minimally encoded script number"
  else .ok (setVch vch)

/-! ### Shape tests -/

/-- Modelled from the spec: `IsPayToScriptHash()`, the form
`OP_HASH160 <20 bytes> OP_EQUAL`. -/
def isPayToScriptHash (s : Bytes) : Bool :=
  s.length = 23 && s.take 2 = [opHash160, 0x14] && s.drop 22 = [opEqual]

/-- Modelled from the spec: `IsWitnessProgram(version, program)`, a version opcode followed
by one push of 2 to 40 bytes that ends the script. -/
def isWitnessProgram (s : Bytes) : Option (UInt8 × Bytes) :=
  if s.length < 4 ∨ s.length > 42 then none
  else if s[0]! ≠ opFalse ∧ (s[0]! < opTrue ∨ s[0]! > op16) then none
  else if s[1]!.toNat + 2 = s.length then some (decodeOpN s[0]!, s.drop 2)
  else none

/-- Modelled from the spec: `IsOfflineStaking()`, the 54-byte two-branch form
`OP_OFFLINE_STAKE OP_IF <pay-to-key-hash of the staking key> OP_ELSE <pay-to-key-hash of the
spending key> OP_ENDIF`. -/
def isOfflineStaking (s : Bytes) : Bool :=
  s.length = 54 && s.take 5 = [opOfflineStake, opIf, opDup, opHash160, 0x14] &&
    (s.drop 25).take 6 = [opEqualVerify, opCheckSig, opElse, opDup, opHash160, 0x14] &&
    s.drop 51 = [opEqualVerify, opCheckSig, opEndIf]

/-- The output kinds `Solver` reports, in the order of the `txnouttype` enumeration. -/
inductive TxnOutType
  | nonstandard
  | cltv
  | pubkey
  | pubkeyhash
  | scripthash
  | multisig
  | nullData
  | witnessV0KeyHash
  | witnessV0ScriptHash
  | offlineStaking
  | newToken
  | transferToken
  | reissueToken
  deriving DecidableEq, Repr

/-- Modelled from the spec: `IsTokenScript(nType, nScriptType, fIsOwner)`. Token data sits
behind the marker `OP_AOK_TOKEN` after a pay-to-key-hash script (marker at byte 25) or a
pay-to-script-hash script (marker at byte 23), so the script still reads as a payment to its
destination. `tokenKind` reads the operation kind and the owner flag from the data after the
marker; that format is the token engine's and is a parameter here. -/
def isTokenScript (tokenKind : Bytes → Option (TxnOutType × Bool)) (s : Bytes) :
    Option (TxnOutType × TxnOutType × Bool) :=
  if s.length > 31 then
    if s.take 3 = [opDup, opHash160, 0x14] ∧
        (s.drop 23).take 3 = [opEqualVerify, opCheckSig, opAokToken] then
      (tokenKind (s.drop 26)).map fun k => (k.1, .pubkeyhash, k.2)
    else if s.take 2 = [opHash160, 0x14] ∧ (s.drop 22).take 2 = [opEqual, opAokToken] then
      (tokenKind (s.drop 24)).map fun k => (k.1, .scripthash, k.2)
    else none
  else none

/-! ### Decoding what was built -/

section Decoding

/-- A push of fewer than 76 bytes is its length as an opcode, then the bytes. -/
theorem pushData_of_lt {d : Bytes} (hd : d.length < 76) : pushData d = d.length.toUInt8 :: d := by
  simp [pushData, show d.length < opPushData1.toNat from hd]

theorem toNat_pushOpcode {d : Bytes} (hd : d.length < 76) : d.length.toUInt8.toNat = d.length :=
  show d.length % 256 = d.length by omega

theorem getOp_pushData {d : Bytes} (hd : d.length < 76) (rest : Bytes) :
    getOp (pushData d ++ rest) = .ok (d.length.toUInt8, d, rest) := by
  have hn := toNat_pushOpcode hd
  have hlt : d.length.toUInt8 < opPushData1 := show d.length.toUInt8.toNat < 76 by omega
  have hle : d.length.toUInt8 ≤ opPushData4 := show d.length.toUInt8.toNat ≤ 78 by omega
  simp [pushData_of_lt hd, getOp, pushSize, hle, hlt, hn]

theorem getOp_opcode {opcode : UInt8} (h : opPushData4 < opcode) (rest : Bytes) :
    getOp (opcode :: rest) = .ok (opcode, [], rest) := by
  simp [getOp, UInt8.not_le.2 h]

end Decoding

/-! ### Script numbers of lock times -/

section ScriptNum

theorem toNat_toUInt8 (n : Nat) : n.toUInt8.toNat = n % 256 := BitVec.toNat_ofNat n 8

theorem uint8_and_toNat (a b : UInt8) : (a &&& b).toNat = a.toNat &&& b.toNat :=
  BitVec.toNat_and _ _

theorem uint8_eq_zero_iff (b : UInt8) : b = 0 ↔ b.toNat = 0 :=
  ⟨fun h => h ▸ rfl, fun h => UInt8.toNat.inj h⟩

theorem uint8_and_sign_eq_zero_iff (b : UInt8) : b &&& 0x80 = 0 ↔ b.toNat < 128 := by
  have hb : b.toNat < 256 := b.toBitVec.isLt
  rw [uint8_eq_zero_iff, uint8_and_toNat, show (0x80 : UInt8).toNat = 2 ^ 7 from rfl,
    Nat.and_two_pow, Nat.testBit_to_div_mod]
  simp only [Nat.reducePow]
  by_cases h : b.toNat / 128 % 2 = 1 <;> simp [h] <;> omega

theorem uint8_and_low_eq_zero_iff (b : UInt8) : b &&& 0x7f = 0 ↔ b.toNat % 128 = 0 := by
  rw [uint8_eq_zero_iff, uint8_and_toNat, show (0x7f : UInt8).toNat = 2 ^ 7 - 1 from rfl,
    Nat.and_pow_two_sub_one_eq_mod]

theorem valueLE_append (a b : Bytes) :
    valueLE (a ++ b) = valueLE a + 256 ^ a.length * valueLE b := by
  induction a with
  | nil => simp [valueLE]
  | cons x a ih =>
    rw [List.cons_append, valueLE, valueLE, ih, List.length_cons, Nat.pow_succ, Nat.mul_add,
      Nat.add_assoc, Nat.mul_comm (256 ^ a.length) 256, Nat.mul_assoc]

theorem valueLE_lt (bs : Bytes) : valueLE bs < 256 ^ bs.length := by
  induction bs with
  | nil => simp [valueLE]
  | cons x bs ih =>
    have hx : x.toNat < 256 := x.toBitVec.isLt
    rw [valueLE, List.length_cons, Nat.pow_succ]
    omega

theorem valueLE_bytesLE : ∀ {f n : Nat}, n < 256 ^ f → valueLE (bytesLE f n) = n
  | 0, n, h => by simp only [Nat.pow_zero] at h; simp [bytesLE, valueLE]; omega
  | f + 1, n, h => by
    by_cases h0 : n = 0
    · simp [bytesLE, valueLE, h0]
    · have hq : n / 256 < 256 ^ f := by
        rw [Nat.div_lt_iff_lt_mul (by decide), ← Nat.pow_succ]
        exact h
      simp only [bytesLE, h0, if_false, valueLE, valueLE_bytesLE hq, toNat_toUInt8]
      omega

/-- The bytes of a positive number end in a nonzero byte. -/
theorem bytesLE_eq_append : ∀ {f n : Nat}, 0 < n → n < 256 ^ f →
    ∃ init b, bytesLE f n = init ++ [b] ∧ b ≠ 0
  | 0, n, h0, h => by simp only [Nat.pow_zero] at h; omega
  | f + 1, n, h0, h => by
    have hq : n / 256 < 256 ^ f := by
      rw [Nat.div_lt_iff_lt_mul (by decide), ← Nat.pow_succ]
      exact h
    have hcons : bytesLE (f + 1) n = (n % 256).toUInt8 :: bytesLE f (n / 256) := by
      simp [bytesLE, Nat.pos_iff_ne_zero.1 h0]
    rw [hcons]
    by_cases hz : n / 256 = 0
    · refine ⟨[], (n % 256).toUInt8, by cases f <;> simp [bytesLE, hz], ?_⟩
      rw [Ne, uint8_eq_zero_iff, toNat_toUInt8]
      omega
    · obtain ⟨init, b, hbs, hb⟩ := bytesLE_eq_append (Nat.pos_of_ne_zero hz) hq
      exact ⟨(n % 256).toUInt8 :: init, b, by rw [hbs, List.cons_append], hb⟩

/-- `CScriptNum::serialize` of a positive number: its bytes, then a zero byte where the top
byte has its sign bit set. -/
theorem scriptNumSerialize_of_pos {v : Int} (h0 : 0 < v) (h : v < 2 ^ 32) :
    ∃ init b, b ≠ 0 ∧ init.length < 4 ∧ valueLE (init ++ [b]) = v.natAbs ∧
      scriptNumSerialize v = init ++ [b] ++ (if 128 ≤ b.toNat then [0] else []) := by
  have hn : v.natAbs < 256 ^ 8 := by omega
  obtain ⟨init, b, hbs, hb⟩ := bytesLE_eq_append (show 0 < v.natAbs by omega) hn
  have hval := valueLE_bytesLE hn
  rw [hbs] at hval
  have hlen : init.length < 4 := by
    have hlo : 256 ^ init.length ≤ valueLE (init ++ [b]) := by
      rw [valueLE_append]
      have : 0 < b.toNat := Nat.pos_of_ne_zero fun h' => hb ((uint8_eq_zero_iff b).2 h')
      simp only [valueLE, Nat.mul_zero, Nat.add_zero]
      exact le_trans (Nat.le_mul_of_pos_right _ this) (Nat.le_add_left _ _)
    by_contra hc
    have : 256 ^ 4 ≤ 256 ^ init.length := Nat.pow_le_pow_right (by decide) (by omega)
    omega
  refine ⟨init, b, hb, hlen, hval, ?_⟩
  have hsign : (b &&& 0x80 ≠ 0) ↔ 128 ≤ b.toNat := by
    rw [Ne, uint8_and_sign_eq_zero_iff]
    omega
  simp only [scriptNumSerialize, show v ≠ 0 by omega, if_false, hbs, List.reverse_append,
    List.reverse_singleton, List.singleton_append,
    show decide (v < 0) = false by simp; omega, Bool.false_eq_true, if_false]
  by_cases hb128 : 128 ≤ b.toNat
  · simp [hsign.2 hb128, hb128]
  · simp [show ¬(b &&& 0x80 ≠ 0) from fun h' => hb128 (hsign.1 h'), hb128]

/-- A positive number below `2^32` survives `CScriptNum::serialize` followed by the minimal
decoding of at most 5 bytes. -/
theorem scriptNum_serialize {v : Int} (h0 : 0 < v) (h : v < 2 ^ 32) :
    scriptNum (scriptNumSerialize v) true 5 = .ok v := by
  obtain ⟨init, b, hb, hlen, hval, hser⟩ := scriptNumSerialize_of_pos h0 h
  have hv : ((valueLE (init ++ [b]) : Nat) : Int) = v := by rw [hval]; omega
  have hlow : ¬b &&& 0x7f = 0 ∨ 128 ≤ b.toNat := by
    rw [uint8_and_low_eq_zero_iff]
    have : b.toNat ≠ 0 := fun h' => hb ((uint8_eq_zero_iff b).2 h')
    omega
  rw [hser]
  by_cases hb128 : 128 ≤ b.toNat
  · have hsign : ¬b &&& 0x80 = 0 := by rw [uint8_and_sign_eq_zero_iff]; omega
    have hmin : nonMinimal (init ++ [b] ++ [0]) = false := by simp [nonMinimal, hsign]
    have hset : setVch (init ++ [b] ++ [0]) = v := by
      rw [← hv]
      simp [setVch, valueLE_append, valueLE, show (0 : UInt8) &&& 0x80 = 0 from rfl]
    simp only [hb128, if_true, scriptNum, hmin, hset, Bool.and_false, Bool.false_eq_true,
      if_false, List.length_append, List.length_singleton]
    rw [if_neg (by omega)]
  · have hsign : b &&& 0x80 = 0 := by rw [uint8_and_sign_eq_zero_iff]; omega
    have hmin : nonMinimal (init ++ [b]) = false := by
      rw [nonMinimal, List.reverse_append, List.reverse_singleton, List.singleton_append]
      cases init.reverse <;> simp [show ¬b &&& 0x7f = 0 by tauto]
    have hset : setVch (init ++ [b]) = v := by
      rw [← hv]
      simp [setVch, hsign]
    simp only [hb128, if_false, List.append_nil, scriptNum, hmin, hset, Bool.and_false,
      Bool.false_eq_true, if_false, List.length_append, List.length_singleton]
    rw [if_neg (by omega)]

/-- The push of a lock time above 255 and below `2^32`: 2 to 5 bytes of data. -/
theorem scriptNumSerialize_length {v : Int} (h0 : 255 < v) (h : v < 2 ^ 32) :
    2 ≤ (scriptNumSerialize v).length ∧ (scriptNumSerialize v).length ≤ 5 := by
  obtain ⟨init, b, hb, hlen, hval, hser⟩ := scriptNumSerialize_of_pos (by omega) h
  have hlt := valueLE_lt (init ++ [b])
  rw [hval, List.length_append, List.length_singleton] at hlt
  have h2 : 1 ≤ init.length := by
    by_contra hc
    rw [show init.length = 0 by omega] at hlt
    omega
  rw [hser]
  split <;> simp <;> omega

end ScriptNum

end Script

end AokChain
