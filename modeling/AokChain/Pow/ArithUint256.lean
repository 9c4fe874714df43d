import Mathlib

/-!
# 256-bit targets and their compact encoding

A proof-of-work target is an `arith_uint256`, a 256-bit unsigned integer whose `*=`, `/=` and
`<<=` wrap modulo `2^256`; here it is `BitVec 256`, so that the wrap is the type's own. A
block header carries its target in 32 bits, `nBits`, in the compact encoding of
`SetCompact`/`GetCompact`: a size in bytes in the top byte, a 23-bit mantissa below, and bit
23 as a sign.

The encoding's functions are modelled from its specification, as the rest of the code uses
them. The proofs turn each `UInt32`/`UInt64` operation into `Nat` arithmetic by one `toNat`
equation, and then show that `SetCompact` reads back from `GetCompact x` no flag and the
number `x` with its bits below the top two or three bytes cleared
(`setCompact_getCompact`): a positive target never grows and never becomes zero.
-/

namespace AokChain

/-! ### Machine words as numbers -/

section MachineWords

theorem uint32_toNat_ofNat (n : Nat) : (UInt32.ofNat n).toNat = n % 2 ^ 32 :=
  BitVec.toNat_ofNat n 32

theorem uint32_toNat_shiftRight (a b : UInt32) :
    (a >>> b).toNat = a.toNat / 2 ^ (b.toNat % 32) := by
  show (a.toBitVec >>> (b.mod 32).toBitVec).toNat = _
  simp [BitVec.toNat_ushiftRight, Nat.shiftRight_eq_div_pow]
  rfl

theorem uint32_toNat_shiftLeft (a b : UInt32) :
    (a <<< b).toNat = a.toNat * 2 ^ (b.toNat % 32) % 2 ^ 32 := by
  show (a.toBitVec <<< (b.mod 32).toBitVec).toNat = _
  simp [BitVec.toNat_shiftLeft, Nat.shiftLeft_eq]
  rfl

theorem uint32_toNat_and (a b : UInt32) : (a &&& b).toNat = a.toNat &&& b.toNat :=
  BitVec.toNat_and _ _

theorem uint32_toNat_or (a b : UInt32) : (a ||| b).toNat = a.toNat ||| b.toNat :=
  BitVec.toNat_or _ _

theorem uint32_ne_iff (a b : UInt32) : a ≠ b ↔ a.toNat ≠ b.toNat :=
  ⟨fun h h' => h (UInt32.toNat.inj h'), fun h h' => h (h' ▸ rfl)⟩

theorem uint32_lt_iff (a b : UInt32) : a < b ↔ a.toNat < b.toNat :=
  UInt32.lt_def.trans BitVec.lt_def

theorem uint64_toNat_ofNat (n : Nat) : (UInt64.ofNat n).toNat = n % 2 ^ 64 :=
  BitVec.toNat_ofNat n 64

theorem uint64_toNat_shiftLeft (a b : UInt64) :
    (a <<< b).toNat = a.toNat * 2 ^ (b.toNat % 64) % 2 ^ 64 := by
  show (a.toBitVec <<< (b.mod 64).toBitVec).toNat = _
  simp [BitVec.toNat_shiftLeft, Nat.shiftLeft_eq]
  rfl

theorem uint64_toUInt32_toNat (a : UInt64) : a.toUInt32.toNat = a.toNat % 2 ^ 32 :=
  BitVec.toNat_ofNat a.toNat 32

end MachineWords

/-- Modelled from the spec: `arith_uint256`, a 256-bit unsigned integer. -/
abbrev ArithUint256 := BitVec 256

namespace ArithUint256

/-- The scan of `bits` inside one nonzero 32-bit word `w`: its bits `k` down to `1` are
tested, and bit `0` is taken when none of them is set. -/
def bitScan (w : Nat) : Nat → Nat
  | 0 => 1
  | k + 1 => if w.testBit (k + 1) then k + 2 else bitScan w k

/-- The scan of `bits` over the 32-bit words `pn[pos - 1]` down to `pn[0]` of `n`: the first
nonzero word decides. -/
def wordScan (n : Nat) : Nat → Nat
  | 0 => 0
  | pos + 1 =>
    if n / 2 ^ (32 * pos) % 2 ^ 32 ≠ 0 then 32 * pos + bitScan (n / 2 ^ (32 * pos) % 2 ^ 32) 31
    else wordScan n pos

/-- Modelled from the spec: `bits()`, the position of the highest set bit plus one (`0` for
zero), found by scanning the eight words from the top and then the bits of the first nonzero
one. -/
def bits (a : ArithUint256) : Nat := wordScan a.toNat 8

/-- Modelled from the spec: `GetLow64()`, the low 64 bits. -/
def getLow64 (a : ArithUint256) : UInt64 := UInt64.ofNat a.toNat

/-- What `SetCompact` leaves in the number and in its two out-flags. -/
structure Decoded where
  target : ArithUint256
  fNegative : Bool
  fOverflow : Bool
  deriving DecidableEq, Repr

/-- Modelled from the spec: `SetCompact(nCompact, &fNegative, &fOverflow)`. -/
def setCompact (nCompact : UInt32) : Decoded :=
  let nSize := (nCompact >>> 24).toNat
  let nWord := nCompact &&& 0x007fffff
  let nWord := if nSize ≤ 3 then nWord >>> UInt32.ofNat (8 * (3 - nSize)) else nWord
  { target := if nSize ≤ 3 then BitVec.ofNat 256 nWord.toNat
      else BitVec.ofNat 256 nWord.toNat <<< (8 * (nSize - 3))
    fNegative := nWord ≠ 0 && nCompact &&& 0x00800000 ≠ 0
    fOverflow := nWord ≠ 0 &&
      (nSize > 34 || nWord > 0xff && nSize > 33 || nWord > 0xffff && nSize > 32) }

/-- The mantissa `GetCompact` takes first: the number's top three bytes when it is `nSize`
bytes long. -/
def compactMantissa (a : ArithUint256) (nSize : Nat) : UInt32 :=
  if nSize ≤ 3 then (getLow64 a <<< UInt64.ofNat (8 * (3 - nSize))).toUInt32
  else (getLow64 (a >>> (8 * (nSize - 3)))).toUInt32

/-- The first half of `GetCompact`: the mantissa and the size in bytes, where a mantissa whose
bit 23 (the sign bit) is set moves down a byte. -/
def compactParts (a : ArithUint256) : UInt32 × Nat :=
  let nSize := (bits a + 7) / 8
  let nCompact := compactMantissa a nSize
  if nCompact &&& 0x00800000 ≠ 0 then (nCompact >>> 8, nSize + 1) else (nCompact, nSize)

/-- Modelled from the spec: `GetCompact(fNegative)`, with its two asserts, that the mantissa
fits in 23 bits and the size in a byte, left out. -/
def getCompact (a : ArithUint256) (fNegative : Bool) : UInt32 :=
  let nCompact := (compactParts a).1 ||| UInt32.ofNat (compactParts a).2 <<< 24
  nCompact ||| if fNegative && nCompact &&& 0x007fffff ≠ 0 then 0x00800000 else 0

/-! ### The number of significant bits -/

section Bits

theorem lt_two_pow_of_testBit_false {n k : Nat} (h : n < 2 ^ (k + 1))
    (hb : n.testBit k = false) : n < 2 ^ k :=
  Nat.lt_pow_two_of_testBit n fun i hi => by
    rcases Nat.eq_or_lt_of_le hi with rfl | hi
    · exact hb
    · exact Nat.testBit_lt_two_pow (lt_of_lt_of_le h (Nat.pow_le_pow_right Nat.two_pos hi))

theorem bitScan_spec {w : Nat} (hw : 0 < w) :
    ∀ {k}, w < 2 ^ (k + 1) → 2 ^ bitScan w k ≤ 2 * w ∧ w < 2 ^ bitScan w k
  | 0, h => by simp only [bitScan, Nat.zero_add, Nat.pow_one] at h ⊢; omega
  | k + 1, h => by
    unfold bitScan
    split
    · next hb =>
      have := Nat.testBit_implies_ge hb
      exact ⟨by rw [Nat.pow_succ]; omega, h⟩
    · next hb => exact bitScan_spec hw (lt_two_pow_of_testBit_false h (by simpa using hb))

theorem wordScan_spec {n : Nat} (hn : 0 < n) :
    ∀ {pos}, n < 2 ^ (32 * pos) → 2 ^ wordScan n pos ≤ 2 * n ∧ n < 2 ^ wordScan n pos
  | 0, h => absurd h (by simp only [Nat.mul_zero, Nat.pow_zero]; omega)
  | pos + 1, h => by
    have hP := Nat.two_pow_pos (32 * pos)
    have hq : n / 2 ^ (32 * pos) < 2 ^ 32 := by
      rwa [Nat.div_lt_iff_lt_mul hP, ← Nat.pow_add, Nat.add_comm, ← Nat.mul_succ]
    unfold wordScan
    rw [Nat.mod_eq_of_lt hq]
    split
    · next hw =>
      obtain ⟨h1, h2⟩ := bitScan_spec (Nat.pos_of_ne_zero hw) (k := 31) hq
      rw [Nat.pow_add]
      constructor
      · calc 2 ^ (32 * pos) * 2 ^ bitScan (n / 2 ^ (32 * pos)) 31
            ≤ 2 ^ (32 * pos) * (2 * (n / 2 ^ (32 * pos))) := Nat.mul_le_mul_left _ h1
          _ = 2 * (n / 2 ^ (32 * pos) * 2 ^ (32 * pos)) := by
            rw [Nat.mul_left_comm, Nat.mul_comm (2 ^ (32 * pos))]
          _ ≤ 2 * n := Nat.mul_le_mul_left 2 (Nat.div_mul_le_self n _)
      · calc n < 2 ^ (32 * pos) * (n / 2 ^ (32 * pos) + 1) := Nat.lt_mul_div_succ n hP
          _ ≤ 2 ^ (32 * pos) * 2 ^ bitScan (n / 2 ^ (32 * pos)) 31 := Nat.mul_le_mul_left _ h2
    · next hw =>
      exact wordScan_spec hn ((Nat.div_eq_zero_iff hP).1 (Decidable.not_not.1 hw))

/-- `bits` brackets a positive number between two consecutive powers of two. -/
theorem bits_spec {a : ArithUint256} (ha : 0 < a.toNat) :
    2 ^ bits a ≤ 2 * a.toNat ∧ a.toNat < 2 ^ bits a :=
  wordScan_spec ha a.isLt

theorem bits_le (a : ArithUint256) (ha : 0 < a.toNat) : 1 ≤ bits a ∧ bits a ≤ 256 := by
  obtain ⟨h1, h2⟩ := bits_spec ha
  refine ⟨Nat.pos_of_ne_zero fun h0 => by rw [h0] at h2; omega, ?_⟩
  have h3 : 2 ^ bits a < 2 ^ 256 * 2 := Nat.lt_of_le_of_lt h1
    (by rw [Nat.mul_comm]; exact Nat.mul_lt_mul_of_pos_right a.isLt Nat.two_pos)
  rw [← Nat.pow_succ] at h3
  exact Nat.le_of_lt_succ ((Nat.pow_lt_pow_iff_right Nat.one_lt_two).1 h3)

end Bits

/-! ### Mantissa and size -/

section Mantissa

/-- The mantissa `GetCompact` takes of `n` at a size of `s` bytes: byte `s - 1` of `n` moved
to byte 2. -/
def mantissa (n s : Nat) : Nat := n * 2 ^ (8 * (3 - s)) / 2 ^ (8 * (s - 3))

/-- The number `SetCompact` builds from the mantissa `c` at a size of `s` bytes. -/
def expand (c s : Nat) : Nat := c * 2 ^ (8 * (s - 3)) / 2 ^ (8 * (3 - s))

theorem mantissa_of_le {n s : Nat} (hs : s ≤ 3) : mantissa n s = n * 2 ^ (8 * (3 - s)) := by
  rw [mantissa, show s - 3 = 0 by omega, Nat.mul_zero, Nat.pow_zero, Nat.div_one]

theorem mantissa_of_ge {n s : Nat} (hs : 3 ≤ s) : mantissa n s = n / 2 ^ (8 * (s - 3)) := by
  rw [mantissa, show 3 - s = 0 by omega, Nat.mul_zero, Nat.pow_zero, Nat.mul_one]

theorem mantissa_lt {n s : Nat} (h : n < 2 ^ (8 * s)) : mantissa n s < 2 ^ 24 := by
  by_cases hs : s ≤ 3
  · rw [mantissa_of_le hs]
    calc n * 2 ^ (8 * (3 - s)) < 2 ^ (8 * s) * 2 ^ (8 * (3 - s)) :=
          Nat.mul_lt_mul_of_pos_right h (Nat.two_pow_pos _)
      _ = 2 ^ 24 := by rw [← Nat.pow_add]; congr 1; omega
  · rw [mantissa_of_ge (by omega), Nat.div_lt_iff_lt_mul (Nat.two_pow_pos _), ← Nat.pow_add]
    rwa [show 24 + 8 * (s - 3) = 8 * s by omega]

theorem le_mantissa {n s : Nat} (hs : 1 ≤ s) (h : 2 ^ (8 * (s - 1)) ≤ n) :
    2 ^ 16 ≤ mantissa n s := by
  by_cases h3 : s ≤ 3
  · rw [mantissa_of_le h3]
    calc 2 ^ 16 = 2 ^ (8 * (s - 1)) * 2 ^ (8 * (3 - s)) := by rw [← Nat.pow_add]; congr 1; omega
      _ ≤ n * 2 ^ (8 * (3 - s)) := Nat.mul_le_mul_right _ h
  · rw [mantissa_of_ge (by omega), Nat.le_div_iff_mul_le (Nat.two_pow_pos _), ← Nat.pow_add]
    rwa [show 16 + 8 * (s - 3) = 8 * (s - 1) by omega]

/-- Moving the mantissa down a byte is taking it at one byte more. -/
theorem mantissa_div (n s : Nat) : mantissa n s / 2 ^ 8 = mantissa n (s + 1) := by
  by_cases hs : s ≤ 2
  · rw [mantissa_of_le (by omega), mantissa_of_le (by omega),
      show 8 * (3 - s) = 8 * (3 - (s + 1)) + 8 by omega, Nat.pow_add, ← Nat.mul_assoc,
      Nat.mul_div_cancel _ (Nat.two_pow_pos 8)]
  · rw [mantissa_of_ge (by omega), mantissa_of_ge (by omega), Nat.div_div_eq_div_mul,
      ← Nat.pow_add]
    congr 2
    omega

/-- Expanding a mantissa gives the number back with the bytes below the mantissa cleared. -/
theorem expand_mantissa (n s : Nat) :
    expand (mantissa n s) s = n / 2 ^ (8 * (s - 3)) * 2 ^ (8 * (s - 3)) := by
  by_cases hs : s ≤ 3
  · rw [expand, mantissa_of_le hs, show s - 3 = 0 by omega, Nat.mul_zero, Nat.pow_zero,
      Nat.mul_one, Nat.div_one, Nat.mul_one, Nat.mul_div_cancel _ (Nat.two_pow_pos _)]
  · rw [expand, mantissa_of_ge (by omega), show 3 - s = 0 by omega, Nat.mul_zero,
      Nat.pow_zero, Nat.div_one]

end Mantissa

/-! ### The compact encoding -/

section Compact

/-- The size `GetCompact` gives a positive number, in bytes, and the bounds it sets. -/
theorem size_spec {a : ArithUint256} (ha : 0 < a.toNat) :
    1 ≤ (bits a + 7) / 8 ∧ (bits a + 7) / 8 ≤ 32 ∧
      2 ^ (8 * ((bits a + 7) / 8 - 1)) ≤ a.toNat ∧ a.toNat < 2 ^ (8 * ((bits a + 7) / 8)) := by
  obtain ⟨h1, h2⟩ := bits_spec ha
  obtain ⟨hb1, hb2⟩ := bits_le a ha
  refine ⟨by omega, by omega, ?_, lt_of_lt_of_le h2 (Nat.pow_le_pow_right Nat.two_pos (by omega))⟩
  have h3 : 2 ^ (8 * ((bits a + 7) / 8 - 1) + 1) ≤ 2 ^ bits a :=
    Nat.pow_le_pow_right Nat.two_pos (by omega)
  rw [Nat.pow_succ] at h3
  omega

theorem compactMantissa_toNat {a : ArithUint256} {s : Nat} (h : a.toNat < 2 ^ (8 * s)) :
    (compactMantissa a s).toNat = mantissa a.toNat s := by
  have hm := mantissa_lt h
  unfold compactMantissa getLow64
  split
  · next hs =>
    rw [mantissa_of_le hs] at hm ⊢
    have h24 : a.toNat < 2 ^ 24 := lt_of_lt_of_le h (Nat.pow_le_pow_right Nat.two_pos (by omega))
    rw [uint64_toUInt32_toNat, uint64_toNat_shiftLeft, uint64_toNat_ofNat, uint64_toNat_ofNat,
      Nat.mod_eq_of_lt (show a.toNat < 2 ^ 64 by omega),
      Nat.mod_eq_of_lt (show 8 * (3 - s) < 2 ^ 64 by omega),
      Nat.mod_eq_of_lt (show 8 * (3 - s) < 64 by omega), Nat.mod_eq_of_lt (by omega),
      Nat.mod_eq_of_lt (by omega)]
  · next hs =>
    rw [mantissa_of_ge (by omega)] at hm ⊢
    rw [uint64_toUInt32_toNat, uint64_toNat_ofNat, BitVec.toNat_ushiftRight,
      Nat.shiftRight_eq_div_pow, Nat.mod_eq_of_lt (show _ < 2 ^ 64 by omega),
      Nat.mod_eq_of_lt (show _ < 2 ^ 32 by omega)]

theorem and_sign_ne_zero_iff {c : UInt32} (h : c.toNat < 2 ^ 24) :
    c &&& 0x00800000 ≠ 0 ↔ 2 ^ 23 ≤ c.toNat := by
  rw [uint32_ne_iff, uint32_toNat_and, show (0x00800000 : UInt32).toNat = 2 ^ 23 from rfl,
    show (0 : UInt32).toNat = 0 from rfl, Nat.and_two_pow, Nat.testBit_to_div_mod]
  simp only [Nat.reducePow] at h ⊢
  by_cases hb : c.toNat / 8388608 % 2 = 1 <;> simp [hb] <;> omega

/-- What the first half of `GetCompact` computes of a positive number: its mantissa at the
final size, which fits in 23 bits, and a size of at most 33 bytes, with a two-byte
mantissa at 33. -/
theorem compactParts_spec {a : ArithUint256} (ha : 0 < a.toNat) :
    (compactParts a).1.toNat = mantissa a.toNat (compactParts a).2 ∧
      (compactParts a).1.toNat < 2 ^ 23 ∧ (compactParts a).2 ≤ 33 ∧
      ((compactParts a).2 = 33 → (compactParts a).1.toNat < 2 ^ 16) ∧
      2 ^ (8 * ((compactParts a).2 - 3)) ≤ a.toNat := by
  obtain ⟨hs1, hs32, hlo, hhi⟩ := size_spec ha
  have hc := compactMantissa_toNat hhi
  have h24 := mantissa_lt hhi
  have h16 := le_mantissa hs1 hlo
  dsimp only [compactParts]
  generalize (bits a + 7) / 8 = s at *
  have hle : ∀ t, t ≤ s + 1 → 2 ^ (8 * (t - 3)) ≤ a.toNat := fun t ht =>
    le_trans (Nat.pow_le_pow_right Nat.two_pos (by omega)) hlo
  by_cases hb : compactMantissa a s &&& 0x00800000 ≠ 0
  · rw [if_pos hb]
    dsimp only
    rw [and_sign_ne_zero_iff (hc ▸ h24)] at hb
    have h8 : (compactMantissa a s >>> 8).toNat = mantissa a.toNat s / 2 ^ 8 := by
      rw [uint32_toNat_shiftRight, hc]; rfl
    rw [h8, mantissa_div]
    refine ⟨rfl, ?_, by omega, fun _ => ?_, hle _ le_rfl⟩ <;> rw [← mantissa_div] <;> omega
  · rw [if_neg hb]
    dsimp only
    rw [and_sign_ne_zero_iff (hc ▸ h24), hc] at hb
    exact ⟨hc, by omega, by omega, by omega, hle _ (by omega)⟩

/-- `GetCompact` of a positive number, without the sign: the size in the top byte above the
mantissa. -/
theorem getCompact_toNat {a : ArithUint256} (ha : 0 < a.toNat) :
    (getCompact a false).toNat = (compactParts a).1.toNat + (compactParts a).2 * 2 ^ 24 := by
  obtain ⟨-, hc, hs, -, -⟩ := compactParts_spec ha
  have hsz : (UInt32.ofNat (compactParts a).2 <<< 24).toNat = 2 ^ 24 * (compactParts a).2 := by
    rw [uint32_toNat_shiftLeft, uint32_toNat_ofNat, show (24 : UInt32).toNat % 32 = 24 from rfl]
    omega
  simp only [getCompact, Bool.false_and, Bool.false_eq_true, if_false, uint32_toNat_or, hsz,
    show (0 : UInt32).toNat = 0 from rfl, Nat.or_zero, Nat.lor_comm _ (2 ^ 24 * _),
    ← Nat.mul_add_lt_is_or (show (compactParts a).1.toNat < 2 ^ 24 by omega)]
  omega

/-- `SetCompact` of a word holding a mantissa below the sign bit and a size of at most 33
bytes (two-byte mantissa at 33) sets no flag. -/
theorem setCompact_of_toNat {x : UInt32} {c s : Nat} (hx : x.toNat = c + s * 2 ^ 24)
    (hc : c < 2 ^ 23) (hs : s ≤ 33) (h33 : s = 33 → c < 2 ^ 16) :
    setCompact x = ⟨BitVec.ofNat 256 (expand c s), false, false⟩ := by
  have hsize : (x >>> 24).toNat = s := by
    rw [uint32_toNat_shiftRight, hx, show (24 : UInt32).toNat % 32 = 24 from rfl]
    omega
  have hword : x &&& 0x007fffff = UInt32.ofNat c := UInt32.toNat.inj (by
    rw [uint32_toNat_and, uint32_toNat_ofNat, hx, show (0x007fffff : UInt32).toNat = 2 ^ 23 - 1
      from rfl, Nat.and_pow_two_sub_one_eq_mod]
    omega)
  have hsign : x &&& 0x00800000 = 0 := UInt32.toNat.inj (by
    rw [uint32_toNat_and, hx, show (0x00800000 : UInt32).toNat = 2 ^ 23 from rfl, Nat.and_two_pow,
      Nat.testBit_to_div_mod]
    simp only [Nat.reducePow] at hc ⊢
    simp [show (c + s * 16777216) / 8388608 % 2 = 0 by omega])
  have hcN : (UInt32.ofNat c).toNat = c := by rw [uint32_toNat_ofNat]; omega
  have h34 : ¬s > 34 := by omega
  have h33' : ¬s > 33 := by omega
  simp only [setCompact, hsize, hword, hsign, h34, h33', ne_eq, not_true_eq_false, decide_False,
    Bool.and_false, Bool.false_or, Bool.or_false]
  by_cases h3 : s ≤ 3
  · simp only [h3, if_true, show ¬s > 32 by omega, decide_False, Bool.and_false]
    congr 2
    rw [uint32_toNat_shiftRight, hcN, uint32_toNat_ofNat, expand, show s - 3 = 0 by omega,
      Nat.mul_zero, Nat.pow_zero, Nat.mul_one]
    congr 3
    omega
  · have hbig : ¬UInt32.ofNat c > 65535 ∨ ¬s > 32 := by
      rw [gt_iff_lt, uint32_lt_iff, hcN, show (65535 : UInt32).toNat = 65535 from rfl]
      by_cases h : s = 33
      · exact .inl (by have := h33 h; simp only [Nat.reducePow] at this; omega)
      · exact .inr (by omega)
    simp only [h3, if_false]
    refine Decoded.mk.injEq .. ▸ ⟨?_, rfl, ?_⟩
    · apply BitVec.eq_of_toNat_eq
      rw [BitVec.toNat_shiftLeft, BitVec.toNat_ofNat, BitVec.toNat_ofNat, hcN, Nat.shiftLeft_eq,
        expand, show 3 - s = 0 by omega, Nat.mul_zero, Nat.pow_zero, Nat.div_one,
        Nat.mod_eq_of_lt (show c < 2 ^ 256 by omega)]
    · rcases hbig with h | h <;> simp [h]

/-- `SetCompact` reads back from `GetCompact` of a positive number no flag, and the number
with every byte below its mantissa cleared. -/
theorem setCompact_getCompact {a : ArithUint256} (ha : 0 < a.toNat) :
    setCompact (getCompact a false) =
      ⟨BitVec.ofNat 256 (a.toNat / 2 ^ (8 * ((compactParts a).2 - 3)) *
        2 ^ (8 * ((compactParts a).2 - 3))), false, false⟩ := by
  obtain ⟨hm, hc, hs, h33, -⟩ := compactParts_spec ha
  rw [setCompact_of_toNat (getCompact_toNat ha) hc hs h33, hm, expand_mantissa]

/-- The compact encoding of a positive target sets no flag and decodes to a positive target
no larger than it. -/
theorem setCompact_getCompact_bounds {a : ArithUint256} (ha : 0 < a) :
    (setCompact (getCompact a false)).fNegative = false ∧
      (setCompact (getCompact a false)).fOverflow = false ∧
      0 < (setCompact (getCompact a false)).target ∧
      (setCompact (getCompact a false)).target ≤ a := by
  have ha' : 0 < a.toNat := ha
  obtain ⟨-, -, -, -, he⟩ := compactParts_spec ha'
  rw [setCompact_getCompact ha', BitVec.lt_def, BitVec.le_def]
  have hp := Nat.two_pow_pos (8 * ((compactParts a).2 - 3))
  generalize 2 ^ (8 * ((compactParts a).2 - 3)) = p at he hp
  have hle := Nat.div_mul_le_self a.toNat p
  have hpos : p ≤ a.toNat / p * p :=
    Nat.le_mul_of_pos_left p ((Nat.le_div_iff_mul_le hp).2 (by omega))
  simp only [BitVec.toNat_ofNat, Nat.mod_eq_of_lt (lt_of_le_of_lt hle a.isLt)]
  exact ⟨trivial, trivial, show 0 < _ by omega, hle⟩

end Compact

end ArithUint256

end AokChain
