import AokChain.Governance.Store

/-!
# Keys and values of the governance database

`governance.cpp` stores four families of records, each under keys that start with one tag
byte: the frozen-script counter `'N'`, freeze entries `'a' ‖ script`, cost entries
`'c' ‖ type ‖ height` and fee-script entries `'f' ‖ height`. A key is the stream
serialization of its entry struct, so this file gives the serialization primitives the
structs use (`serialize.h`: compact sizes, little-endian integers, scripts as a length and
their bytes) and the decoders `CDBIterator::GetKey` runs on a key it visits.
-/

namespace AokChain

/-- `DB_NUMBER_FROZEN`, the key of the frozen-script counter: `'N'`. -/
def dbNumberFrozen : UInt8 := 0x4e

/-- `DB_FEE_ADDRESS`: `'f'`. -/
def dbFeeAddress : UInt8 := 0x66

/-- `DB_ADDRESS`, the tag of a freeze entry: `'a'`. -/
def dbAddress : UInt8 := 0x61

/-- `DB_COST`: `'c'`. -/
def dbCost : UInt8 := 0x63

/-- `DB_GOVERNANCE_INIT`: `'G'`. -/
def dbGovernanceInit : UInt8 := 0x47

/-- `DUMMY_SCRIPT = CScript() << ParseHex("6885777789")`: a push of the five bytes, so the
length byte `0x05` and then the bytes. -/
def dummyScript : Bytes := [0x05, 0x68, 0x85, 0x77, 0x77, 0x89]

/-- `DUMMY_TYPE`. -/
def dummyType : Int := 0

/-- The issuance cost types `GOVERNANCE_COST_ROOT` … `GOVERNANCE_COST_USERNAME`. -/
def governanceCostRoot : Int := 1
def governanceCostReissue : Int := 2
def governanceCostUnique : Int := 3
def governanceCostSub : Int := 4
def governanceCostUsername : Int := 5

/-- `w` bytes of `n`, least significant first (`ser_writedata16/32/64`). -/
def leBytes : Nat → Nat → Bytes
  | 0, _ => []
  | w + 1, n => (n % 256).toUInt8 :: leBytes w (n / 256)

/-- `WriteCompactSize(n)`. -/
def compactSize (n : Nat) : Bytes :=
  if n < 253 then [n.toUInt8]
  else if n ≤ 0xffff then 253 :: leBytes 2 n
  else if n ≤ 0xffffffff then 254 :: leBytes 4 n
  else 255 :: leBytes 8 n

/-- An `int` on the stream: four bytes, little-endian two's complement. -/
def serInt (x : Int) : Bytes := leBytes 4 (x % 2 ^ 32).toNat

/-- The range of an `int`. -/
def InInt32 (x : Int) : Prop := -2 ^ 31 ≤ x ∧ x < 2 ^ 31

instance : DecidablePred InInt32 := fun _ => inferInstanceAs (Decidable (_ ∧ _))

/-- A `CScript` on the stream: its length as a compact size, then its bytes. -/
def serScript (script : Bytes) : Bytes := compactSize script.length ++ script

/-- The key of `FreezeEntry(script)`. `FreezeEntry()` is `freezeEntry dummyScript`. -/
def freezeEntry (script : Bytes) : Bytes := dbAddress :: serScript script

/-- The key of `CostEntry(type, height)`. `CostEntry()` is `costEntry dummyType 0`. -/
def costEntry (type height : Int) : Bytes := dbCost :: (serInt type ++ serInt height)

/-- The key of `FeeEntry(height)`. `FeeEntry()` is `feeEntry 0`. -/
def feeEntry (height : Int) : Bytes := dbFeeAddress :: serInt height

/-- The key of a record stored under a bare tag (`DB_NUMBER_FROZEN`, `DB_GOVERNANCE_INIT`):
a `char` serializes as its one byte. -/
def tagKey (tag : UInt8) : Bytes := [tag]

/-- A `w`-byte little-endian unsigned integer read off the front of a stream. -/
def readLe : Nat → Bytes → Option (Nat × Bytes)
  | 0, b => some (0, b)
  | _ + 1, [] => none
  | w + 1, x :: b => (readLe w b).map fun r => (x.toNat + 256 * r.1, r.2)

/-- `MAX_SIZE`, the largest length `ReadCompactSize` accepts. -/
def maxSize : Nat := 0x02000000

/-- `ReadCompactSize`: fails on a short stream, a non-canonical encoding, or a size above
`MAX_SIZE`. -/
def readCompactSize : Bytes → Option (Nat × Bytes)
  | [] => none
  | c :: b =>
    let r : Option (Nat × Bytes) :=
      if c.toNat < 253 then some (c.toNat, b)
      else if c.toNat = 253 then (readLe 2 b).filter (fun r => 253 ≤ r.1)
      else if c.toNat = 254 then (readLe 4 b).filter (fun r => 0x10000 ≤ r.1)
      else (readLe 8 b).filter (fun r => 0x100000000 ≤ r.1)
    r.filter (fun r => r.1 ≤ maxSize)

/-- A `CScript` read off the front of a stream. -/
def readScript (b : Bytes) : Option (Bytes × Bytes) :=
  (readCompactSize b).bind fun r =>
    if r.1 ≤ r.2.length then some (r.2.take r.1, r.2.drop r.1) else none

/-- An `int` read off the front of a stream. -/
def readInt (b : Bytes) : Option (Int × Bytes) :=
  (readLe 4 b).map fun r => (if r.1 < 2 ^ 31 then (r.1 : Int) else r.1 - 2 ^ 32, r.2)

/-- `GetKey(FreezeEntry&)`: the tag and the script of a key; bytes left over are ignored. -/
def getFreezeEntry : Bytes → Option (UInt8 × Bytes)
  | [] => none
  | c :: b => (readScript b).map fun r => (c, r.1)

/-- `GetKey(CostEntry&)`: the tag, the type and the height of a key. -/
def getCostEntry : Bytes → Option (UInt8 × Int × Int)
  | [] => none
  | c :: b => (readInt b).bind fun t => (readInt t.2).map fun h => (c, t.1, h.1)

/-- `GetKey(FeeEntry&)`: the tag and the height of a key. -/
def getFeeEntry : Bytes → Option (UInt8 × Int)
  | [] => none
  | c :: b => (readInt b).map fun h => (c, h.1)

/-- A governance database value. Each key family stores one kind: `FreezeDetails` and the
init flag a `bool`, the counter an `unsigned int`, `CostDetails` a `CAmount`, `FeeDetails`
a `CScript`. -/
inductive Value where
  | flag (b : Bool)
  | number (n : UInt32)
  | amount (a : Int)
  | script (s : Bytes)
  deriving DecidableEq, Repr

/-- The governance database. -/
abbrev GovernanceDB := Store Value

namespace Value

/-- `GetValue(bool&)`: the flag, or `d` (the variable's prior value) when the stored value
does not read as one. -/
def asFlag (d : Bool) : Value → Bool
  | flag b => b
  | _ => d

/-- `GetValue(CostDetails&)`, with the same fallback. -/
def asAmount (d : Int) : Value → Int
  | amount a => a
  | _ => d

/-- `GetValue(FeeDetails&)`, with the same fallback. -/
def asScript (d : Bytes) : Value → Bytes
  | script s => s
  | _ => d

end Value

/-- `Read(key, bool&)`. -/
def GovernanceDB.readFlag (db : GovernanceDB) (k : Bytes) : Option Bool :=
  match db.read k with
  | some (.flag b) => some b
  | _ => none

/-- `Read(key, unsigned int&)`. -/
def GovernanceDB.readNumber (db : GovernanceDB) (k : Bytes) : Option UInt32 :=
  match db.read k with
  | some (.number n) => some n
  | _ => none

/-- Every freeze-entry key starts with `DB_ADDRESS`. -/
@[simp] theorem freezeEntry_head (script : Bytes) : (freezeEntry script).head? = some dbAddress :=
  rfl

/-! ## Round trips

Each primitive reads back what it writes and leaves the rest of the stream, and what a read
accepts is the write of what it returns. -/

theorem length_leBytes (w n : Nat) : (leBytes w n).length = w := by
  induction w generalizing n with
  | zero => rfl
  | succ w ih => simp [leBytes, ih]

theorem readLe_leBytes (w n : Nat) (rest : Bytes) :
    readLe w (leBytes w n ++ rest) = some (n % 256 ^ w, rest) := by
  induction w generalizing n with
  | zero => simp [readLe, leBytes, Nat.mod_one]
  | succ w ih =>
    have hb : (n % 256).toUInt8.toNat = n % 256 := Nat.mod_mod n 256
    rw [leBytes, List.cons_append, readLe, ih, Option.map_some', pow_succ', Nat.mod_mul, hb]

theorem toUInt8_toNat (x : UInt8) : x.toNat.toUInt8 = x :=
  UInt8.toNat.inj (Nat.mod_eq_of_lt x.toNat_lt)

/-- What `readLe` accepts is the little-endian encoding of what it returns. -/
theorem eq_leBytes_of_readLe {w m : Nat} {b rest : Bytes} (h : readLe w b = some (m, rest)) :
    m < 256 ^ w ∧ b = leBytes w m ++ rest := by
  induction w generalizing b m with
  | zero =>
    obtain ⟨rfl, rfl⟩ := Prod.mk.inj (Option.some.inj h)
    exact ⟨Nat.one_pos, rfl⟩
  | succ w ih =>
    cases b with
    | nil => cases h
    | cons x b =>
      obtain ⟨⟨m', rest'⟩, h', he⟩ := Option.map_eq_some'.1 h
      obtain ⟨rfl, rfl⟩ := Prod.mk.inj he
      obtain ⟨hlt, rfl⟩ := ih h'
      have hx := x.toNat_lt
      have hmod : (x.toNat + 256 * m') % 256 = x.toNat := by omega
      have hdiv : (x.toNat + 256 * m') / 256 = m' := by omega
      refine ⟨?_, ?_⟩
      · rw [pow_succ]
        generalize 256 ^ w = P at hlt
        omega
      · rw [leBytes, hmod, hdiv, toUInt8_toNat]
        rfl

/-- An `int` reads back as itself. -/
theorem readInt_serInt {x : Int} (hx : InInt32 x) (rest : Bytes) :
    readInt (serInt x ++ rest) = some (x, rest) := by
  have hlt : (x % 2 ^ 32).toNat % 256 ^ 4 = (x % 2 ^ 32).toNat := Nat.mod_eq_of_lt (by omega)
  simp only [readInt, serInt, readLe_leBytes, hlt, Option.map_some', Option.some.injEq,
    Prod.mk.injEq, and_true]
  obtain ⟨h₁, h₂⟩ := hx
  split_ifs <;> omega

theorem readCompactSize_compactSize {n : Nat} (hn : n ≤ maxSize) (rest : Bytes) :
    readCompactSize (compactSize n ++ rest) = some (n, rest) := by
  have hm : maxSize = 0x02000000 := rfl
  unfold compactSize
  split_ifs with h₁ h₂ h₃
  · have hc : n.toUInt8.toNat = n := Nat.mod_eq_of_lt (by omega)
    simp [readCompactSize, hc, h₁, hn]
  · simp [readCompactSize, readLe_leBytes, UInt8.size, Nat.mod_eq_of_lt (show n < 65536 by omega),
      hn]
    omega
  · simp [readCompactSize, readLe_leBytes, UInt8.size,
      Nat.mod_eq_of_lt (show n < 4294967296 by omega), hn]
    omega
  · omega

/-- What `ReadCompactSize` accepts is the canonical encoding of a size within `MAX_SIZE`. -/
theorem compactSize_of_readCompactSize {b rest : Bytes} {n : Nat}
    (h : readCompactSize b = some (n, rest)) : n ≤ maxSize ∧ b = compactSize n ++ rest := by
  have hm : maxSize = 0x02000000 := rfl
  cases b with
  | nil => cases h
  | cons c b =>
    obtain ⟨h, hn⟩ := Option.filter_eq_some.1 h
    simp only [decide_eq_true_eq] at hn
    refine ⟨hn, ?_⟩
    split_ifs at h with h₁ h₂ h₃
    · obtain ⟨rfl, rfl⟩ := Prod.mk.inj (Option.some.inj h)
      simp [compactSize, h₁, toUInt8_toNat]
    · obtain ⟨hr, hlo⟩ := Option.filter_eq_some.1 h
      obtain ⟨hlt, rfl⟩ := eq_leBytes_of_readLe hr
      have hc : c = 253 := UInt8.toNat.inj h₂
      simp only [decide_eq_true_eq] at hlo
      rw [compactSize, if_neg (by omega), if_pos (by omega), hc]
      rfl
    · obtain ⟨hr, hlo⟩ := Option.filter_eq_some.1 h
      obtain ⟨hlt, rfl⟩ := eq_leBytes_of_readLe hr
      have hc : c = 254 := UInt8.toNat.inj h₃
      simp only [decide_eq_true_eq] at hlo
      rw [compactSize, if_neg (by omega), if_neg (by omega), if_pos (by omega), hc]
      rfl
    · obtain ⟨-, hlo⟩ := Option.filter_eq_some.1 h
      simp only [decide_eq_true_eq] at hlo
      omega

theorem readScript_serScript {s : Bytes} (hs : s.length ≤ maxSize) (rest : Bytes) :
    readScript (serScript s ++ rest) = some (s, rest) := by
  simp [readScript, serScript, readCompactSize_compactSize hs]

/-- What `readScript` accepts is the serialization of the script it returns. -/
theorem serScript_of_readScript {b rest s : Bytes} (h : readScript b = some (s, rest)) :
    s.length ≤ maxSize ∧ b = serScript s ++ rest := by
  obtain ⟨⟨n, b'⟩, hc, hif⟩ := Option.bind_eq_some.1 h
  obtain ⟨hn, rfl⟩ := compactSize_of_readCompactSize hc
  dsimp only at hif
  split_ifs at hif with hle
  obtain ⟨rfl, rfl⟩ := Prod.mk.inj (Option.some.inj hif)
  have hlen : (b'.take n).length = n := List.length_take_of_le hle
  refine ⟨by rw [hlen]; exact hn, ?_⟩
  rw [serScript, hlen, List.append_assoc, List.take_append_drop]

end AokChain
