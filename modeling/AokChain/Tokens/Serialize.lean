import AokChain.Governance.Entries

/-!
# Serializing the token records

`CNewToken`, `CTokenTransfer`, `CReissueToken` and `CDatabasedTokenData` (`tokens/tokentypes.h`)
serialize their fields in order through `READWRITE`: a `std::string` as its length (a compact
size) and its bytes, the fixed-width integers little-endian (`CAmount` in eight bytes, `int8_t`
in one, `uint32_t` and `int` in four), and a `uint256` as its 32 bytes. The fixed-width fields
are `BitVec`s of their width.

`CNewToken::SerializationOp` ends with `READWRITE(empty)` on a local `int8_t empty = 0`: it
writes a zero byte and reads the byte there into the local, which is then dropped. A record
reads back from its own bytes, but a byte string read as a `CNewToken`, or as a
`CDatabasedTokenData`, which holds one, writes back with that byte zeroed. The round trip is for names of at most `MAX_SIZE` bytes,
the largest length `ReadCompactSize` accepts.
-/

namespace AokChain

namespace Tokens

/-- A fixed-width integer of `w` bytes on the stream (`ser_writedata8/32/64`, and the bytes of a
`uint256`): little-endian. -/
def serFixed (w : Nat) (x : BitVec (8 * w)) : Bytes := leBytes w x.toNat

/-- A fixed-width integer of `w` bytes read off the front of a stream. -/
def readFixed (w : Nat) (b : Bytes) : Option (BitVec (8 * w) × Bytes) :=
  (readLe w b).map fun r => (BitVec.ofNat (8 * w) r.1, r.2)

/-- A `std::string` on the stream: as a `CScript`, its length as a compact size, then its bytes. -/
def serString (s : Bytes) : Bytes := serScript s

/-- A `std::string` read off the front of a stream. -/
def readString (b : Bytes) : Option (Bytes × Bytes) := readScript b

/-! ## The records -/

/-- `CNewToken`: the name, the amount, the units and the reissuable flag. -/
structure CNewToken where
  strName : Bytes
  nAmount : BitVec 64
  units : BitVec 8
  nReissuable : BitVec 8
  deriving DecidableEq

/-- `CNewToken::SerializationOp` writing, with `empty` in the local the source sets to 0. -/
def CNewToken.serializeWith (empty : BitVec 8) (x : CNewToken) : Bytes :=
  serString x.strName ++ serFixed 8 x.nAmount ++ serFixed 1 x.units ++ serFixed 1 x.nReissuable ++
    serFixed 1 empty

/-- `Serialize(CNewToken)`. -/
def CNewToken.serialize (x : CNewToken) : Bytes := x.serializeWith 0

/-- `Unserialize(CNewToken)`: the fields in order, then one byte into the dropped local. -/
def CNewToken.unserialize (b : Bytes) : Option (CNewToken × Bytes) :=
  (readString b).bind fun r₁ =>
  (readFixed 8 r₁.2).bind fun r₂ =>
  (readFixed 1 r₂.2).bind fun r₃ =>
  (readFixed 1 r₃.2).bind fun r₄ =>
  (readFixed 1 r₄.2).map fun r₅ => (⟨r₁.1, r₂.1, r₃.1, r₄.1⟩, r₅.2)

/-- `CDatabasedTokenData`: a token, the height and the hash of the block that issued it. -/
structure CDatabasedTokenData where
  token : CNewToken
  nHeight : BitVec 32
  blockHash : BitVec 256
  deriving DecidableEq

/-- `CDatabasedTokenData::SerializationOp` writing, with `empty` in the token's local. -/
def CDatabasedTokenData.serializeWith (empty : BitVec 8) (x : CDatabasedTokenData) : Bytes :=
  x.token.serializeWith empty ++ serFixed 4 x.nHeight ++ serFixed 32 x.blockHash

/-- `Serialize(CDatabasedTokenData)`. -/
def CDatabasedTokenData.serialize (x : CDatabasedTokenData) : Bytes := x.serializeWith 0

/-- `Unserialize(CDatabasedTokenData)`. -/
def CDatabasedTokenData.unserialize (b : Bytes) : Option (CDatabasedTokenData × Bytes) :=
  (CNewToken.unserialize b).bind fun r₁ =>
  (readFixed 4 r₁.2).bind fun r₂ =>
  (readFixed 32 r₂.2).map fun r₃ => (⟨r₁.1, r₂.1, r₃.1⟩, r₃.2)

/-- `CTokenTransfer`: the name, the amount and the lock time. -/
structure CTokenTransfer where
  strName : Bytes
  nAmount : BitVec 64
  nTokenLockTime : BitVec 32
  deriving DecidableEq

/-- `Serialize(CTokenTransfer)`. -/
def CTokenTransfer.serialize (x : CTokenTransfer) : Bytes :=
  serString x.strName ++ serFixed 8 x.nAmount ++ serFixed 4 x.nTokenLockTime

/-- `Unserialize(CTokenTransfer)`. -/
def CTokenTransfer.unserialize (b : Bytes) : Option (CTokenTransfer × Bytes) :=
  (readString b).bind fun r₁ =>
  (readFixed 8 r₁.2).bind fun r₂ =>
  (readFixed 4 r₂.2).map fun r₃ => (⟨r₁.1, r₂.1, r₃.1⟩, r₃.2)

/-- `CReissueToken`: the name, the amount, the units and the reissuable flag. -/
structure CReissueToken where
  strName : Bytes
  nAmount : BitVec 64
  nUnits : BitVec 8
  nReissuable : BitVec 8
  deriving DecidableEq

/-- `Serialize(CReissueToken)`. -/
def CReissueToken.serialize (x : CReissueToken) : Bytes :=
  serString x.strName ++ serFixed 8 x.nAmount ++ serFixed 1 x.nUnits ++ serFixed 1 x.nReissuable

/-- `Unserialize(CReissueToken)`. -/
def CReissueToken.unserialize (b : Bytes) : Option (CReissueToken × Bytes) :=
  (readString b).bind fun r₁ =>
  (readFixed 8 r₁.2).bind fun r₂ =>
  (readFixed 1 r₂.2).bind fun r₃ =>
  (readFixed 1 r₃.2).map fun r₄ => (⟨r₁.1, r₂.1, r₃.1, r₄.1⟩, r₄.2)

/-! ## The fields -/

theorem readFixed_serFixed (w : Nat) (x : BitVec (8 * w)) (rest : Bytes) :
    readFixed w (serFixed w x ++ rest) = some (x, rest) := by
  have hw : (256 : Nat) ^ w = 2 ^ (8 * w) := by rw [pow_mul]; rfl
  rw [readFixed, serFixed, readLe_leBytes, Option.map_some', hw, Nat.mod_eq_of_lt x.isLt,
    BitVec.ofNat_toNat, BitVec.setWidth_eq]

/-- What `readFixed` accepts is the encoding of what it returns. -/
theorem serFixed_of_readFixed {w : Nat} {b rest : Bytes} {x : BitVec (8 * w)}
    (h : readFixed w b = some (x, rest)) : b = serFixed w x ++ rest := by
  obtain ⟨⟨m, r⟩, hr, he⟩ := Option.map_eq_some'.1 h
  obtain ⟨rfl, rfl⟩ := Prod.mk.inj he
  obtain ⟨hlt, rfl⟩ := eq_leBytes_of_readLe hr
  have hw : (256 : Nat) ^ w = 2 ^ (8 * w) := by rw [pow_mul]; rfl
  rw [serFixed, BitVec.toNat_ofNat, Nat.mod_eq_of_lt (hw ▸ hlt)]

theorem serFixed_inj {w : Nat} {x y : BitVec (8 * w)} (h : serFixed w x = serFixed w y) : x = y := by
  have := readFixed_serFixed w x []
  rw [h, readFixed_serFixed] at this
  exact (Prod.mk.inj (Option.some.inj this)).1.symm

/-! ## Reading back a record

For each record, the read of its bytes returns it and leaves the rest of the stream, and what a
read accepts is the record's bytes. For `CNewToken`, and so for `CDatabasedTokenData`, that is
up to the byte in the dropped local's slot. -/

namespace CNewToken

theorem unserialize_serializeWith {x : CNewToken} (hs : x.strName.length ≤ maxSize)
    (empty : BitVec 8) (rest : Bytes) :
    unserialize (x.serializeWith empty ++ rest) = some (x, rest) := by
  simp only [unserialize, serializeWith, List.append_assoc, readString, serString,
    readScript_serScript hs, readFixed_serFixed, Option.some_bind, Option.map_some']

theorem serializeWith_of_unserialize {b rest : Bytes} {x : CNewToken}
    (h : unserialize b = some (x, rest)) :
    x.strName.length ≤ maxSize ∧ ∃ empty, b = x.serializeWith empty ++ rest := by
  simp only [unserialize, Option.bind_eq_some, Option.map_eq_some'] at h
  obtain ⟨⟨s, b₁⟩, h₁, ⟨n, b₂⟩, h₂, ⟨u, b₃⟩, h₃, ⟨r, b₄⟩, h₄, ⟨e, b₅⟩, h₅, he⟩ := h
  obtain ⟨rfl, rfl⟩ := Prod.mk.inj he
  dsimp only at h₂ h₃ h₄ h₅ ⊢
  obtain ⟨hs, rfl⟩ := serScript_of_readScript h₁
  refine ⟨hs, e, ?_⟩
  rw [serFixed_of_readFixed h₂, serFixed_of_readFixed h₃, serFixed_of_readFixed h₄,
    serFixed_of_readFixed h₅]
  simp [serializeWith, serString]

theorem serializeWith_eq_serialize_iff (x : CNewToken) (empty : BitVec 8) :
    x.serializeWith empty = x.serialize ↔ empty = 0 :=
  ⟨fun h => serFixed_inj (List.append_cancel_left h), fun h => h ▸ rfl⟩

end CNewToken

namespace CDatabasedTokenData

theorem unserialize_serializeWith {x : CDatabasedTokenData}
    (hs : x.token.strName.length ≤ maxSize) (empty : BitVec 8) (rest : Bytes) :
    unserialize (x.serializeWith empty ++ rest) = some (x, rest) := by
  simp only [unserialize, serializeWith, List.append_assoc,
    CNewToken.unserialize_serializeWith hs, readFixed_serFixed, Option.some_bind, Option.map_some']

theorem serializeWith_of_unserialize {b rest : Bytes} {x : CDatabasedTokenData}
    (h : unserialize b = some (x, rest)) :
    x.token.strName.length ≤ maxSize ∧ ∃ empty, b = x.serializeWith empty ++ rest := by
  simp only [unserialize, Option.bind_eq_some, Option.map_eq_some'] at h
  obtain ⟨⟨t, b₁⟩, h₁, ⟨n, b₂⟩, h₂, ⟨k, b₃⟩, h₃, he⟩ := h
  obtain ⟨rfl, rfl⟩ := Prod.mk.inj he
  dsimp only at h₂ h₃ ⊢
  obtain ⟨hs, e, rfl⟩ := CNewToken.serializeWith_of_unserialize h₁
  refine ⟨hs, e, ?_⟩
  rw [serFixed_of_readFixed h₂, serFixed_of_readFixed h₃]
  simp [serializeWith]

theorem serializeWith_eq_serialize_iff (x : CDatabasedTokenData) (empty : BitVec 8) :
    x.serializeWith empty = x.serialize ↔ empty = 0 := by
  rw [serialize, serializeWith, serializeWith, List.append_assoc, List.append_assoc,
    List.append_left_inj]
  exact CNewToken.serializeWith_eq_serialize_iff _ _

end CDatabasedTokenData

namespace CTokenTransfer

theorem unserialize_serialize {x : CTokenTransfer} (hs : x.strName.length ≤ maxSize)
    (rest : Bytes) : unserialize (x.serialize ++ rest) = some (x, rest) := by
  simp only [unserialize, serialize, List.append_assoc, readString, serString,
    readScript_serScript hs, readFixed_serFixed, Option.some_bind, Option.map_some']

theorem serialize_of_unserialize {b rest : Bytes} {x : CTokenTransfer}
    (h : unserialize b = some (x, rest)) :
    x.strName.length ≤ maxSize ∧ b = x.serialize ++ rest := by
  simp only [unserialize, Option.bind_eq_some, Option.map_eq_some'] at h
  obtain ⟨⟨s, b₁⟩, h₁, ⟨n, b₂⟩, h₂, ⟨l, b₃⟩, h₃, he⟩ := h
  obtain ⟨rfl, rfl⟩ := Prod.mk.inj he
  dsimp only at h₂ h₃ ⊢
  obtain ⟨hs, rfl⟩ := serScript_of_readScript h₁
  refine ⟨hs, ?_⟩
  rw [serFixed_of_readFixed h₂, serFixed_of_readFixed h₃]
  simp [serialize, serString]

end CTokenTransfer

namespace CReissueToken

theorem unserialize_serialize {x : CReissueToken} (hs : x.strName.length ≤ maxSize)
    (rest : Bytes) : unserialize (x.serialize ++ rest) = some (x, rest) := by
  simp only [unserialize, serialize, List.append_assoc, readString, serString,
    readScript_serScript hs, readFixed_serFixed, Option.some_bind, Option.map_some']

theorem serialize_of_unserialize {b rest : Bytes} {x : CReissueToken}
    (h : unserialize b = some (x, rest)) :
    x.strName.length ≤ maxSize ∧ b = x.serialize ++ rest := by
  simp only [unserialize, Option.bind_eq_some, Option.map_eq_some'] at h
  obtain ⟨⟨s, b₁⟩, h₁, ⟨n, b₂⟩, h₂, ⟨u, b₃⟩, h₃, ⟨r, b₄⟩, h₄, he⟩ := h
  obtain ⟨rfl, rfl⟩ := Prod.mk.inj he
  dsimp only at h₂ h₃ h₄ ⊢
  obtain ⟨hs, rfl⟩ := serScript_of_readScript h₁
  refine ⟨hs, ?_⟩
  rw [serFixed_of_readFixed h₂, serFixed_of_readFixed h₃, serFixed_of_readFixed h₄]
  simp [serialize, serString]

end CReissueToken

/-! ## The four records -/

/-- Each record with a name of at most `MAX_SIZE` bytes reads back from its bytes and leaves the
rest of the stream. A byte string read whole as a `CTokenTransfer` or a `CReissueToken` is the
record's bytes; one read whole as a `CNewToken` or a `CDatabasedTokenData` is the record's
bytes with some byte `empty` in the dropped local's slot, and writes back as itself exactly when
`empty` is 0. -/
theorem tokenRecords_roundTrip :
    (∀ x : CNewToken, x.strName.length ≤ maxSize →
      ∀ rest, CNewToken.unserialize (x.serialize ++ rest) = some (x, rest)) ∧
    (∀ x : CTokenTransfer, x.strName.length ≤ maxSize →
      ∀ rest, CTokenTransfer.unserialize (x.serialize ++ rest) = some (x, rest)) ∧
    (∀ x : CReissueToken, x.strName.length ≤ maxSize →
      ∀ rest, CReissueToken.unserialize (x.serialize ++ rest) = some (x, rest)) ∧
    (∀ x : CDatabasedTokenData, x.token.strName.length ≤ maxSize →
      ∀ rest, CDatabasedTokenData.unserialize (x.serialize ++ rest) = some (x, rest)) ∧
    (∀ b x, CTokenTransfer.unserialize b = some (x, []) → x.serialize = b) ∧
    (∀ b x, CReissueToken.unserialize b = some (x, []) → x.serialize = b) ∧
    (∀ b x, CNewToken.unserialize b = some (x, []) →
      ∃ empty, b = x.serializeWith empty ∧ (x.serialize = b ↔ empty = 0)) ∧
    (∀ b x, CDatabasedTokenData.unserialize b = some (x, []) →
      ∃ empty, b = x.serializeWith empty ∧ (x.serialize = b ↔ empty = 0)) := by
  refine ⟨fun x hs => CNewToken.unserialize_serializeWith hs 0,
    fun x hs => CTokenTransfer.unserialize_serialize hs,
    fun x hs => CReissueToken.unserialize_serialize hs,
    fun x hs => CDatabasedTokenData.unserialize_serializeWith hs 0,
    fun b x h => ?_, fun b x h => ?_, fun b x h => ?_, fun b x h => ?_⟩
  · simpa using (CTokenTransfer.serialize_of_unserialize h).2.symm
  · simpa using (CReissueToken.serialize_of_unserialize h).2.symm
  · obtain ⟨-, e, he⟩ := CNewToken.serializeWith_of_unserialize h
    rw [List.append_nil] at he
    exact ⟨e, he, he ▸ eq_comm.trans (CNewToken.serializeWith_eq_serialize_iff x e)⟩
  · obtain ⟨-, e, he⟩ := CDatabasedTokenData.serializeWith_of_unserialize h
    rw [List.append_nil] at he
    exact ⟨e, he, he ▸ eq_comm.trans (CDatabasedTokenData.serializeWith_eq_serialize_iff x e)⟩

theorem tokenRecords_roundTrip_transfer :
    ([0x41] : Bytes).length ≤ maxSize ∧
      CTokenTransfer.unserialize ((⟨[0x41], 5, 0⟩ : CTokenTransfer).serialize ++ []) =
        some (⟨[0x41], 5, 0⟩, []) :=
  ⟨by decide, tokenRecords_roundTrip.2.1 ⟨[0x41], 5, 0⟩ (by decide) []⟩

/-- The bytes of the unnamed token of amount 0, with 1 in the dropped local's slot, read as that
token, which writes back with 0 there. -/
theorem newToken_padding_not_restored :
    CNewToken.unserialize [0, 0, 0, 0, 0, 0, 0, 0, 0, 0, 0, 1] = some (⟨[], 0, 0, 0⟩, []) ∧
      (⟨[], 0, 0, 0⟩ : CNewToken).serialize ≠ [0, 0, 0, 0, 0, 0, 0, 0, 0, 0, 0, 1] :=
  ⟨rfl, by decide⟩

end Tokens

end AokChain
