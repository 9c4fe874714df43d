import AokChain.Primitives.Transaction

/-!
# Amounts as text: `AokChainUnits::format` and `parse`

`format` writes an amount as its quotient and remainder by the unit's factor, the quotient
grouped in threes by thin spaces. `parse` and `tokenParse` drop the spaces, split at the point,
pad the decimals, refuse more than 18 characters and read the rest with `toLongLong`. A
written amount reads back exactly when its text is within those 18 characters, that is when
`-10^17 < n < 10^18`, whatever the unit, the token precision and the separators
(`parse_format`, `tokenParse_format`). So whether every amount up to `MAX_MONEY` reads back,
also through the amount spin box, is a condition on `MAX_MONEY` (`roundTrip_iff`), and
`MAX_MONEY` is not among the sources. Under that condition the spin box keeps its value
through `fixup` and a change of display unit (`value_fixup`, `value_setDisplayUnit`).

A `QString` is a list of characters here. `QString::number`, `rightJustified`,
`leftJustified`, `insert`, `split` and `toLongLong` are modelled by what Qt documents of them;
`removeSpaces` and the constants of aokchainunits.h, which is not among the sources, by the
comments in the code and the spec.
-/

namespace AokChain

namespace QString

/-! ### The `QString` operations the two functions use -/

/-- `QString::number(n)` for `n ≥ 0`: its decimal digits, most significant first. -/
def number (n : Nat) : List Char :=
  if n = 0 then ['0'] else (Nat.digits 10 n).reverse.map Nat.digitChar

/-- `s.rightJustified(width, fill)`: `fill` in front up to `width` characters. -/
def rightJustified (s : List Char) (width : Nat) (fill : Char) : List Char :=
  List.replicate (width - s.length) fill ++ s

/-- `s.leftJustified(width, fill)`: `fill` behind up to `width` characters. -/
def leftJustified (s : List Char) (width : Nat) (fill : Char) : List Char :=
  s ++ List.replicate (width - s.length) fill

/-- One more decimal digit on the right of `acc`. -/
def digitStep (acc : Nat) (c : Char) : Nat :=
  10 * acc + (c.toNat - 48)

/-- The value of a string of decimal digits. -/
def digitsValue (ds : List Char) : Nat :=
  ds.foldl digitStep 0

/-- `s.toLongLong(&ok)` in base 10: an optional sign and at least one digit, with a value
within `qlonglong`. -/
def toLongLong (s : List Char) : Option Int :=
  let neg := s.head? = some '-'
  let ds := if s.head? = some '-' ∨ s.head? = some '+' then s.tail else s
  let v : Int := if neg then -(digitsValue ds : Int) else digitsValue ds
  if ds ≠ [] ∧ ds.all Char.isDigit ∧ InInt64 v then some v else none

theorem digitChar_spec {d : Nat} (h : d < 10) :
    (Nat.digitChar d).isDigit = true ∧ (Nat.digitChar d).toNat - 48 = d := by
  interval_cases d <;> decide

theorem number_isDigit (n : Nat) : ∀ c ∈ number n, c.isDigit = true := by
  unfold number
  split_ifs
  · simp
  · intro c hc
    obtain ⟨d, hd, rfl⟩ := List.mem_map.1 hc
    exact (digitChar_spec (Nat.digits_lt_base (by norm_num) (List.mem_reverse.1 hd))).1

theorem number_ne_nil (n : Nat) : number n ≠ [] := by
  unfold number
  split_ifs with h
  · simp
  · simpa using Nat.digits_ne_nil_iff_ne_zero.2 h

theorem foldl_digitStep (l : List Char) :
    ∀ a, l.foldl digitStep a = a * 10 ^ l.length + l.foldl digitStep 0 := by
  induction l with
  | nil => intro a; simp
  | cons c l ih =>
    intro a
    rw [List.foldl_cons, List.foldl_cons, ih, ih (digitStep 0 c), List.length_cons, pow_succ,
      digitStep, digitStep]
    ring

theorem digitsValue_append (l₁ l₂ : List Char) :
    digitsValue (l₁ ++ l₂) = digitsValue l₁ * 10 ^ l₂.length + digitsValue l₂ := by
  rw [digitsValue, List.foldl_append, foldl_digitStep]
  rfl

@[simp] theorem digitsValue_replicate_zero (k : Nat) : digitsValue (List.replicate k '0') = 0 := by
  induction k with
  | zero => rfl
  | succ k ih =>
    rw [List.replicate_succ', digitsValue_append, ih]
    rfl

theorem digitsValue_reverse_digits (L : List Nat) (hL : ∀ d ∈ L, d < 10) :
    digitsValue (L.reverse.map Nat.digitChar) = Nat.ofDigits 10 L := by
  induction L with
  | nil => rfl
  | cons d L ih =>
    rw [List.reverse_cons, List.map_append, digitsValue_append,
      ih fun x hx => hL x (List.mem_cons_of_mem d hx), Nat.ofDigits_cons]
    simp only [List.map_cons, List.map_nil, List.length_singleton, pow_one]
    rw [show digitsValue [Nat.digitChar d] = (Nat.digitChar d).toNat - 48 by
      simp [digitsValue, digitStep], (digitChar_spec (hL d (List.mem_cons_self d L))).2]
    ring

theorem digitsValue_number (n : Nat) : digitsValue (number n) = n := by
  unfold number
  split_ifs with h
  · simp [h, digitsValue, digitStep]
  · rw [digitsValue_reverse_digits _ fun d hd => Nat.digits_lt_base (by norm_num) hd,
      Nat.ofDigits_digits]

/-- `QString::number(n)` fits in `k ≥ 1` characters exactly when `n < 10^k`. -/
theorem length_number_le_iff {k : Nat} (hk : 1 ≤ k) (n : Nat) :
    (number n).length ≤ k ↔ n < 10 ^ k := by
  unfold number
  split_ifs with h
  · simp [h, hk, Nat.pos_pow_of_pos]
  · rw [List.length_map, List.length_reverse]
    constructor
    · intro hl
      exact (Nat.lt_base_pow_length_digits (by norm_num)).trans_le
        (Nat.pow_le_pow_right (by norm_num) hl)
    · intro hn
      by_contra hl
      have := Nat.base_pow_length_digits_le 10 n (by norm_num) h
      have : 10 ^ (k + 1) ≤ 10 ^ (Nat.digits 10 n).length :=
        Nat.pow_le_pow_right (by norm_num) (by omega)
      rw [pow_succ] at this
      omega

/-- The quotient by `10^d` written out, with `d` decimals after it, fits in `k > d` characters
exactly when the amount is below `10^k`. -/
theorem length_number_div_le_iff {d k : Nat} (hdk : d + 1 ≤ k) (N : Nat) :
    (number (N / 10 ^ d)).length + d ≤ k ↔ N < 10 ^ k := by
  rw [← Nat.le_sub_iff_add_le (by omega), length_number_le_iff (by omega),
    Nat.div_lt_iff_lt_mul (by positivity), ← pow_add, Nat.sub_add_cancel (by omega)]

theorem length_rightJustified (s : List Char) (width : Nat) (fill : Char) :
    (rightJustified s width fill).length = max width s.length := by
  simp only [rightJustified, List.length_append, List.length_replicate]
  omega

theorem digitsValue_rightJustified_zero (s : List Char) (width : Nat) :
    digitsValue (rightJustified s width '0') = digitsValue s := by
  rw [rightJustified, digitsValue_append, digitsValue_replicate_zero, zero_mul, zero_add]

theorem leftJustified_of_le {s : List Char} {width : Nat} (h : width ≤ s.length) (fill : Char) :
    leftJustified s width fill = s := by
  simp [leftJustified, Nat.sub_eq_zero_of_le h]

/-- `toLongLong` of a sign and digits: their value, when it is a `qlonglong`. -/
theorem toLongLong_digits (neg : Prop) [Decidable neg] {ds : List Char} (hne : ds ≠ [])
    (hds : ∀ c ∈ ds, c.isDigit = true) :
    toLongLong ((if neg then ['-'] else []) ++ ds) =
      if InInt64 (if neg then -(digitsValue ds : Int) else digitsValue ds) then
        some (if neg then -(digitsValue ds : Int) else digitsValue ds)
      else none := by
  obtain ⟨c, cs, rfl⟩ := List.exists_cons_of_ne_nil hne
  have hc : c.isDigit = true := hds c (List.mem_cons_self c cs)
  have hminus : c ≠ '-' := fun h => by simp [h] at hc
  have hplus : c ≠ '+' := fun h => by simp [h] at hc
  have hall : (c :: cs).all Char.isDigit = true := List.all_eq_true.2 hds
  by_cases h : neg <;> simp [toLongLong, h, hminus, hplus, hall]

end QString

namespace AokChainUnits

open QString

/-! ### `AokChainUnits` -/

/-- The display unit `AOK` of the `Unit` enum of aokchainunits.h, which is not among the
sources; any three distinct values serve. -/
def AOK : Int := 0

/-- The display unit `mAOK`. -/
def mAOK : Int := 1

/-- The display unit `uAOK`. -/
def uAOK : Int := 2

/-- `AokChainUnits::valid(unit)`. -/
def valid (unit : Int) : Bool :=
  unit = AOK || unit = mAOK || unit = uAOK

/-- `AokChainUnits::factor(unit)`. -/
def factor (unit : Int) : Int :=
  if unit = AOK then 100000000 else if unit = mAOK then 100000
  else if unit = uAOK then 100 else 100000000

/-- `AokChainUnits::factorToken(unit)`: the table of `10^unit` for `unit` in `0..8`. -/
def factorToken (unit : Int) : Int :=
  if 0 ≤ unit ∧ unit ≤ 8 then 10 ^ unit.toNat else 100000000

/-- `AokChainUnits::decimals(unit)`. -/
def decimals (unit : Int) : Nat :=
  if unit = AOK then 8 else if unit = mAOK then 5 else if unit = uAOK then 2 else 0

/-- `AokChainUnits::SeparatorStyle`. -/
inductive SeparatorStyle
  | separatorNever
  | separatorStandard
  | separatorAlways
  deriving DecidableEq

/-- `THIN_SP_CP`, the thin space U+2009. -/
def thinSp : Char := Char.ofNat 0x2009

/-- `MIN_TOKEN_UNITS`. Modelled from the spec: token units lie in `[0, 8]`. -/
def minTokenUnits : Int := 0

/-- `MAX_TOKEN_UNITS`. Modelled from the spec: token units lie in `[0, 8]`. -/
def maxTokenUnits : Int := 8

/-- `AokChainUnits::removeSpaces(text)`: the text without spaces and thin spaces, as
`parse`'s comment "Ignore spaces and thin spaces when parsing" has it. -/
def removeSpaces (text : List Char) : List Char :=
  text.filter fun c => c ≠ ' ' ∧ c ≠ thinSp

/-- The loop of `format` that puts a thin space before each group of three digits of the
quotient, counted from the right: `quotient_str.insert(q_size - i, thin_sp)` for
`i = 3, 6, ...` below `q_size`. -/
def groupThousands (quotient_str : List Char) : List Char :=
  let q_size := quotient_str.length
  (List.range' 3 ((q_size - 1) / 3) 3).foldl
    (fun s i => s.insertIdx (q_size - i) thinSp) quotient_str

/-- `AokChainUnits::format(unit, nIn, fPlus, separators, nTokenUnit)`. -/
def format (unit : Int) (nIn : Int) (fPlus : Bool) (separators : SeparatorStyle)
    (nTokenUnit : Int) : List Char :=
  if (nTokenUnit < 0 ∨ nTokenUnit > 8) ∧ valid unit = false then []
  else
    let n := nIn
    let coin := if nTokenUnit ≥ 0 then factorToken nTokenUnit else factor unit
    let num_decimals := if nTokenUnit ≥ 0 then nTokenUnit.toNat else decimals unit
    let n_abs := if n > 0 then n else -n
    let quotient := n_abs / coin
    let remainder := n_abs % coin
    let quotient_str := number quotient.toNat
    let remainder_str := rightJustified (number remainder.toNat) num_decimals '0'
    let q_size := quotient_str.length
    let quotient_str :=
      if separators = .separatorAlways ∨ (separators = .separatorStandard ∧ q_size > 4) then
        groupThousands quotient_str
      else quotient_str
    let quotient_str :=
      if n < 0 then '-' :: quotient_str
      else if fPlus ∧ n > 0 then '+' :: quotient_str else quotient_str
    if nTokenUnit = minTokenUnits then quotient_str else quotient_str ++ '.' :: remainder_str

/-- What `parse` and `tokenParse` do past their guards, with `num_decimals` decimals: the
amount when they return `true`. -/
def parseDecimals (num_decimals : Nat) (value : List Char) : Option Int :=
  let parts := (removeSpaces value).splitOn '.'
  if parts.length > 2 then none
  else
    let whole := parts.headD []
    let decimals := if parts.length > 1 then parts.getD 1 [] else []
    if decimals.length > num_decimals then none
    else
      let str := whole ++ leftJustified decimals num_decimals '0'
      if str.length > 18 then none else toLongLong str

/-- `AokChainUnits::parse(unit, value, &val_out)`: the amount when it returns `true`. -/
def parse (unit : Int) (value : List Char) : Option Int :=
  if valid unit = false ∨ value.isEmpty then none else parseDecimals (decimals unit) value

/-- `AokChainUnits::tokenParse(tokenUnit, value, &val_out)`: the amount when it returns
`true`. -/
def tokenParse (tokenUnit : Int) (value : List Char) : Option Int :=
  if ¬(0 ≤ tokenUnit ∧ tokenUnit ≤ 8) ∨ value.isEmpty then none
  else parseDecimals tokenUnit.toNat value

/-! ### What `parse` reads back from what `format` writes -/

theorem removeSpaces_append (s t : List Char) :
    removeSpaces (s ++ t) = removeSpaces s ++ removeSpaces t :=
  List.filter_append _ _

theorem removeSpaces_of_isDigit {s : List Char} (h : ∀ c ∈ s, c.isDigit = true) :
    removeSpaces s = s :=
  List.filter_eq_self.2 fun c hc => by
    have := h c hc
    have hsp : c ≠ ' ' := fun h' => by simp [h'] at this
    have hth : c ≠ thinSp := fun h' => by simp [h', thinSp] at this
    simp [hsp, hth]

theorem removeSpaces_insertIdx (k : Nat) (s : List Char) :
    removeSpaces (s.insertIdx k thinSp) = removeSpaces s := by
  induction s generalizing k with
  | nil => cases k <;> simp [removeSpaces]
  | cons c s ih =>
    cases k with
    | zero => simp [removeSpaces]
    | succ k =>
      rw [List.insertIdx_succ_cons]
      simp only [removeSpaces, List.filter_cons] at ih ⊢
      rw [ih]

theorem removeSpaces_foldl_insertIdx (pos : Nat → Nat) (is : List Nat) (s : List Char) :
    removeSpaces (is.foldl (fun s i => s.insertIdx (pos i) thinSp) s) = removeSpaces s := by
  induction is generalizing s with
  | nil => rfl
  | cons i is ih => rw [List.foldl_cons, ih, removeSpaces_insertIdx]

/-- The thin spaces between the groups of digits are spaces to `parse`. -/
theorem removeSpaces_groupThousands (s : List Char) :
    removeSpaces (groupThousands s) = removeSpaces s :=
  removeSpaces_foldl_insertIdx (fun i => s.length - i) _ s

theorem removeSpaces_cons {c : Char} (h1 : c ≠ ' ') (h2 : c ≠ thinSp) (s : List Char) :
    removeSpaces (c :: s) = c :: removeSpaces s := by
  simp [removeSpaces, List.filter_cons, h1, h2]

theorem rightJustified_isDigit (r d : Nat) :
    ∀ c ∈ rightJustified (number r) d '0', c.isDigit = true := by
  intro c hc
  rcases List.mem_append.1 hc with hc | hc
  · rw [List.eq_of_mem_replicate hc]
    rfl
  · exact number_isDigit r c hc

/-- What `parse` sees of `format`'s text: the sign, the quotient's digits and, unless the
token precision is `MIN_TOKEN_UNITS`, the point and the remainder's digits padded to `d`. -/
theorem removeSpaces_format {unit n : Int} (separators : SeparatorStyle) {nTokenUnit : Int}
    (hguard : ¬((nTokenUnit < 0 ∨ nTokenUnit > 8) ∧ valid unit = false)) {d : Nat}
    (hcoin : (if nTokenUnit ≥ 0 then factorToken nTokenUnit else factor unit) = 10 ^ d)
    (hd : (if nTokenUnit ≥ 0 then nTokenUnit.toNat else decimals unit) = d) :
    removeSpaces (format unit n false separators nTokenUnit) =
      (if n < 0 then ['-'] else []) ++ number (n.natAbs / 10 ^ d) ++
        if nTokenUnit = minTokenUnits then []
        else '.' :: rightJustified (number (n.natAbs % 10 ^ d)) d '0' := by
  have habs : (if n > 0 then n else -n) = (n.natAbs : Int) := by split_ifs <;> omega
  have hq : ((n.natAbs : Int) / 10 ^ d).toNat = n.natAbs / 10 ^ d := by
    rw [show (10 : Int) ^ d = ((10 ^ d : Nat) : Int) by push_cast; rfl, ← Int.ofNat_ediv,
      Int.toNat_ofNat]
  have hr : ((n.natAbs : Int) % 10 ^ d).toNat = n.natAbs % 10 ^ d := by
    rw [show (10 : Int) ^ d = ((10 ^ d : Nat) : Int) by push_cast; rfl, ← Int.ofNat_emod,
      Int.toNat_ofNat]
  have hQ : removeSpaces (number (n.natAbs / 10 ^ d)) = number (n.natAbs / 10 ^ d) :=
    removeSpaces_of_isDigit (number_isDigit _)
  have hR : removeSpaces (rightJustified (number (n.natAbs % 10 ^ d)) d '0') =
      rightJustified (number (n.natAbs % 10 ^ d)) d '0' :=
    removeSpaces_of_isDigit (rightJustified_isDigit _ _)
  simp only [format, if_neg hguard, hcoin, hd, habs, hq, hr, Bool.false_eq_true, false_and,
    if_false, apply_ite removeSpaces, removeSpaces_append, removeSpaces_groupThousands, hQ, hR,
    removeSpaces_cons (show '-' ≠ ' ' by decide) (show '-' ≠ thinSp by decide),
    removeSpaces_cons (show '.' ≠ ' ' by decide) (show '.' ≠ thinSp by decide), ite_self]
  split_ifs <;> simp only [List.append_nil, List.nil_append, List.singleton_append, List.cons_append]

theorem not_mem_point {s : List Char} (h : ∀ c ∈ s, c.isDigit = true) : '.' ∉ s :=
  fun hc => absurd (h '.' hc) (by decide)

theorem point_not_mem_sign (neg : Prop) [Decidable neg] {w : List Char}
    (hw : ∀ c ∈ w, c.isDigit = true) : '.' ∉ (if neg then ['-'] else []) ++ w := by
  rw [List.mem_append, not_or]
  exact ⟨by split_ifs <;> simp, not_mem_point hw⟩

theorem removeSpaces_sign (neg : Prop) [Decidable neg] {w : List Char}
    (hw : ∀ c ∈ w, c.isDigit = true) :
    removeSpaces ((if neg then ['-'] else []) ++ w) = (if neg then ['-'] else []) ++ w := by
  rw [removeSpaces_append, removeSpaces_of_isDigit hw]
  split_ifs
  · exact congrArg (· ++ w) (removeSpaces_cons (by decide) (by decide) [])
  · rfl

/-- `parse` past its guards, on a sign, digits, the point and `d` digits: the 18-character
test on the digits without the point, then `toLongLong`. -/
theorem parseDecimals_point (neg : Prop) [Decidable neg] {w r : List Char} {d : Nat}
    (hw : ∀ c ∈ w, c.isDigit = true) (hr : ∀ c ∈ r, c.isDigit = true) (hlen : r.length = d) :
    parseDecimals d ((if neg then ['-'] else []) ++ w ++ '.' :: r) =
      if ((if neg then ['-'] else []) ++ (w ++ r)).length > 18 then none
      else toLongLong ((if neg then ['-'] else []) ++ (w ++ r)) := by
  have hsplit : ((if neg then ['-'] else []) ++ w ++ '.' :: r).splitOn '.' =
      [(if neg then ['-'] else []) ++ w, r] := by
    have := List.splitOn_intercalate [(if neg then ['-'] else []) ++ w, r] '.'
      (fun l hl => by
        simp only [List.mem_cons, List.mem_singleton, List.not_mem_nil, or_false] at hl
        rcases hl with rfl | rfl
        exacts [point_not_mem_sign neg hw, not_mem_point hr]) (by simp)
    simpa [List.intercalate] using this
  have hsp : removeSpaces ((if neg then ['-'] else []) ++ w ++ '.' :: r) =
      (if neg then ['-'] else []) ++ w ++ '.' :: r := by
    rw [removeSpaces_append, removeSpaces_sign neg hw,
      removeSpaces_cons (by decide) (by decide), removeSpaces_of_isDigit hr]
  simp only [parseDecimals]
  rw [hsp, hsplit]
  simp [hlen, leftJustified_of_le hlen.ge]

/-- `parse` past its guards, on a sign and digits with no point and no decimals. -/
theorem parseDecimals_whole (neg : Prop) [Decidable neg] {w : List Char} (hw : ∀ c ∈ w, c.isDigit = true) :
    parseDecimals 0 ((if neg then ['-'] else []) ++ w) =
      if ((if neg then ['-'] else []) ++ w).length > 18 then none
      else toLongLong ((if neg then ['-'] else []) ++ w) := by
  have hsplit : ((if neg then ['-'] else []) ++ w).splitOn '.' =
      [(if neg then ['-'] else []) ++ w] := by
    have := List.splitOn_intercalate [(if neg then ['-'] else []) ++ w] '.'
      (fun l hl => by
        rw [List.mem_singleton] at hl
        exact hl ▸ point_not_mem_sign neg hw) (by simp)
    simpa [List.intercalate] using this
  simp [parseDecimals, removeSpaces_sign neg hw, hsplit, leftJustified]

/-- The sign and digits of `n`, the digits being the quotient by `10^d` and `d` more: with
`d ≤ 8`, they pass the 18-character test and `toLongLong` gives `n` back exactly when
`-10^17 < n < 10^18`. -/
theorem readBack (n : Int) {d : Nat} (hd : d ≤ 8) {ds : List Char} (hne : ds ≠ [])
    (hdig : ∀ c ∈ ds, c.isDigit = true) (hval : digitsValue ds = n.natAbs)
    (hlen : ds.length = (number (n.natAbs / 10 ^ d)).length + d) :
    (if ((if n < 0 then ['-'] else []) ++ ds).length > 18 then none
      else toLongLong ((if n < 0 then ['-'] else []) ++ ds)) =
      if -10 ^ 17 < n ∧ n < 10 ^ 18 then some n else none := by
  have hv : (if n < 0 then -(n.natAbs : Int) else n.natAbs) = n := by split_ifs <;> omega
  have h17 : ds.length ≤ 17 ↔ n.natAbs < 10 ^ 17 := hlen ▸ length_number_div_le_iff (by omega) _
  have h18 : ds.length ≤ 18 ↔ n.natAbs < 10 ^ 18 := hlen ▸ length_number_div_le_iff (by omega) _
  rw [toLongLong_digits (n < 0) hne hdig, hval, hv, ← ite_not, ← ite_and]
  refine if_congr ?_ rfl rfl
  by_cases hn : n < 0 <;>
    simp only [hn, if_true, if_false, InInt64, List.length_append, List.length_singleton,
      List.length_nil] <;> omega

theorem parseDecimals_removeSpaces (d : Nat) (s : List Char) :
    parseDecimals d (removeSpaces s) = parseDecimals d s := by
  simp only [parseDecimals, removeSpaces, List.filter_filter, Bool.and_self]

/-- `parse` past its guards, on what `format` writes with `d ≤ 8` decimals. -/
theorem parseDecimals_format {unit : Int} (n : Int) (separators : SeparatorStyle)
    {nTokenUnit : Int} (hguard : ¬((nTokenUnit < 0 ∨ nTokenUnit > 8) ∧ valid unit = false))
    {d : Nat} (hd8 : d ≤ 8)
    (hcoin : (if nTokenUnit ≥ 0 then factorToken nTokenUnit else factor unit) = 10 ^ d)
    (hd : (if nTokenUnit ≥ 0 then nTokenUnit.toNat else decimals unit) = d)
    (hpoint : nTokenUnit = minTokenUnits ↔ d = 0) :
    parseDecimals d (format unit n false separators nTokenUnit) =
      if -10 ^ 17 < n ∧ n < 10 ^ 18 then some n else none := by
  rw [← parseDecimals_removeSpaces, removeSpaces_format separators hguard hcoin hd]
  by_cases h0 : nTokenUnit = minTokenUnits
  · obtain rfl := hpoint.1 h0
    rw [if_pos h0, List.append_nil, parseDecimals_whole _ (number_isDigit _)]
    exact readBack n hd8 (number_ne_nil _) (number_isDigit _) (by simp [digitsValue_number])
      (by simp)
  · have hd1 : 1 ≤ d := Nat.one_le_iff_ne_zero.2 fun h => h0 (hpoint.2 h)
    have hr : (number (n.natAbs % 10 ^ d)).length ≤ d :=
      (length_number_le_iff hd1 _).2 (Nat.mod_lt _ (by positivity))
    have hlen : (rightJustified (number (n.natAbs % 10 ^ d)) d '0').length = d := by
      rw [length_rightJustified]
      omega
    rw [if_neg h0, parseDecimals_point _ (number_isDigit _) (rightJustified_isDigit _ _) hlen]
    refine readBack n hd8 (by simp [number_ne_nil]) ?_ ?_ (by simp [hlen])
    · intro c hc
      rcases List.mem_append.1 hc with hc | hc
      exacts [number_isDigit _ c hc, rightJustified_isDigit _ _ c hc]
    · rw [digitsValue_append, digitsValue_number, digitsValue_rightJustified_zero,
        digitsValue_number, hlen, Nat.div_add_mod']

/-- What `format` writes is never empty: it holds at least the whole part's digits. -/
theorem format_ne_nil {unit : Int} (n : Int) (separators : SeparatorStyle) {nTokenUnit : Int}
    (hguard : ¬((nTokenUnit < 0 ∨ nTokenUnit > 8) ∧ valid unit = false)) {d : Nat}
    (hcoin : (if nTokenUnit ≥ 0 then factorToken nTokenUnit else factor unit) = 10 ^ d)
    (hd : (if nTokenUnit ≥ 0 then nTokenUnit.toNat else decimals unit) = d) :
    format unit n false separators nTokenUnit ≠ [] := by
  intro h
  have := removeSpaces_format (n := n) separators hguard hcoin hd
  rw [h] at this
  exact number_ne_nil _ (List.append_eq_nil.1 (List.append_eq_nil.1 this.symm).1).2

/-- In a display unit, `parse` gives back what `format` writes exactly when
`-10^17 < n < 10^18`, whatever the separators. -/
theorem parse_format {unit : Int} (hu : valid unit = true) {nTokenUnit : Int}
    (ht : nTokenUnit < 0) (n : Int) (separators : SeparatorStyle) :
    parse unit (format unit n false separators nTokenUnit) =
      if -10 ^ 17 < n ∧ n < 10 ^ 18 then some n else none := by
  have hcoin : factor unit = 10 ^ decimals unit ∧ 2 ≤ decimals unit ∧ decimals unit ≤ 8 := by
    rcases (by simpa [valid] using hu : (unit = AOK ∨ unit = mAOK) ∨ unit = uAOK)
      with (rfl | rfl) | rfl <;> decide
  have hguard : ¬((nTokenUnit < 0 ∨ nTokenUnit > 8) ∧ valid unit = false) := by simp [hu]
  have hcoin' : (if nTokenUnit ≥ 0 then factorToken nTokenUnit else factor unit) =
      10 ^ decimals unit := by simp [ht.not_le, hcoin.1]
  have hd : (if nTokenUnit ≥ 0 then nTokenUnit.toNat else decimals unit) = decimals unit := by
    simp [ht.not_le]
  rw [parse, if_neg (by simp [hu, format_ne_nil n separators hguard hcoin' hd])]
  exact parseDecimals_format n separators hguard hcoin.2.2 hcoin' hd
    (by simp only [minTokenUnits]; omega)

/-- With a token precision `d` in `[0, 8]`, `tokenParse d` gives back what `format` writes
with that precision exactly when `-10^17 < n < 10^18`, whatever the unit and the separators. -/
theorem tokenParse_format {d : Int} (hd : 0 ≤ d ∧ d ≤ 8) (unit n : Int)
    (separators : SeparatorStyle) :
    tokenParse d (format unit n false separators d) =
      if -10 ^ 17 < n ∧ n < 10 ^ 18 then some n else none := by
  have hcoin : (if d ≥ 0 then factorToken d else factor unit) = 10 ^ d.toNat := by
    simp [hd.1, factorToken, hd.2]
  have hguard : ¬((d < 0 ∨ d > 8) ∧ valid unit = false) := by omega
  have hd' : (if d ≥ 0 then d.toNat else decimals unit) = d.toNat := by simp [hd.1]
  rw [tokenParse, if_neg (by simp [hd.1, hd.2, format_ne_nil n separators hguard hcoin hd'])]
  exact parseDecimals_format n separators hguard (by omega) hcoin hd'
    (by simp only [minTokenUnits]; omega)

end AokChainUnits

/-! ### The amount spin box of aokchainamountfield.cpp -/

open AokChainUnits

/-- The state of an `AmountSpinBox` that its operations read and write: the display unit, the
step, the token precision (negative for none) and the text of its line edit. -/
structure AmountSpinBox where
  currentUnit : Int
  singleStep : Int
  tokenUnit : Int
  text : List Char
  deriving DecidableEq

namespace AmountSpinBox

/-- The spin box as its constructor leaves it. -/
def initial : AmountSpinBox := ⟨AOK, 100000, -1, []⟩

section Operations

variable (maxMoney : Int)

/-- `AmountSpinBox::parse(text, &valid)`: `tokenParse` at the token precision if there is one,
`parse` in the display unit otherwise, and only amounts in `[0, maxMoney]`. -/
def parse (b : AmountSpinBox) (text : List Char) : Option Int :=
  let val := if b.tokenUnit ≥ 0 then tokenParse b.tokenUnit text
    else AokChainUnits.parse b.currentUnit text
  val.filter fun v => !(v < 0 || v > maxMoney)

/-- `AmountSpinBox::value(&valid)`. -/
def value (b : AmountSpinBox) : Option Int :=
  parse maxMoney b b.text

/-- `AmountSpinBox::setValue(value)`. -/
def setValue (b : AmountSpinBox) (value : Int) : AmountSpinBox :=
  { b with text := format b.currentUnit value false .separatorAlways b.tokenUnit }

/-- `QAbstractSpinBox::clear()`. -/
def clear (b : AmountSpinBox) : AmountSpinBox :=
  { b with text := [] }

/-- `AmountSpinBox::stepBy(steps)`: an invalid text counts as `0`. -/
def stepBy (b : AmountSpinBox) (steps : Int) : AmountSpinBox :=
  let val := (value maxMoney b).getD 0 + steps * b.singleStep
  b.setValue (min (max val 0) maxMoney)

/-- `AmountSpinBox::setDisplayUnit(unit)`: the value is read in the old unit. -/
def setDisplayUnit (b : AmountSpinBox) (unit : Int) : AmountSpinBox :=
  let b' := { b with currentUnit := unit }
  match value maxMoney b with
  | some val => b'.setValue val
  | none => b'.clear

/-- `AmountSpinBox::setTokenUnit(unit)`: the value is read at the new precision. -/
def setTokenUnit (b : AmountSpinBox) (unit : Int) : AmountSpinBox :=
  let b' := { b with tokenUnit := if unit > maxTokenUnits then maxTokenUnits else unit }
  match value maxMoney b' with
  | some val => b'.setValue val
  | none => b'.clear

/-- An edit of the line edit, as `validate` lets it through: the text must be empty or
parse. -/
def edit (b : AmountSpinBox) (text : List Char) : AmountSpinBox :=
  if text.isEmpty ∨ (parse maxMoney b text).isSome then { b with text := text } else b

/-- `AmountSpinBox::fixup(input)` on leaving the field: a text that parses is written
again. -/
def fixup (b : AmountSpinBox) : AmountSpinBox :=
  match value maxMoney b with
  | some val => b.setValue val
  | none => b

/-- What can be done to a spin box. -/
inductive Op
  | setValue (value : Int)
  | stepBy (steps : Int)
  | setDisplayUnit (unit : Int)
  | setTokenUnit (unit : Int)
  | setSingleStep (step : Int)
  | clear
  | edit (text : List Char)
  | fixup

/-- One operation. -/
def apply (b : AmountSpinBox) : Op → AmountSpinBox
  | .setValue v => b.setValue v
  | .stepBy steps => stepBy maxMoney b steps
  | .setDisplayUnit unit => setDisplayUnit maxMoney b unit
  | .setTokenUnit unit => setTokenUnit maxMoney b unit
  | .setSingleStep step => { b with singleStep := step }
  | .clear => b.clear
  | .edit text => edit maxMoney b text
  | .fixup => fixup maxMoney b

/-- The display units reach `setDisplayUnit` from the unit combo box, whose rows are
`AokChainUnits::availableUnits`: `unitChanged` passes one of them. -/
def Op.Allowed : Op → Prop
  | .setDisplayUnit unit => valid unit = true
  | _ => True

/-- The spin box after the constructor and a run of operations. -/
def run (ops : List Op) : AmountSpinBox :=
  ops.foldl (apply maxMoney) initial

end Operations

/-- What every reachable spin box keeps: a valid display unit and a token precision of at most
`MAX_TOKEN_UNITS`. -/
def Good (b : AmountSpinBox) : Prop :=
  valid b.currentUnit = true ∧ b.tokenUnit ≤ maxTokenUnits

theorem good_initial : Good initial := ⟨by decide, by decide⟩

/-- Each allowed operation keeps a spin box good. -/
theorem good_apply (maxMoney : Int) {b : AmountSpinBox} (hb : Good b) {o : Op}
    (ho : o.Allowed) : Good (apply maxMoney b o) := by
  have hset : ∀ {b : AmountSpinBox} (v), Good b → Good (b.setValue v) := fun _ h => h
  cases o with
  | setValue v => exact hset v hb
  | stepBy steps => exact hset _ hb
  | setDisplayUnit unit =>
    simp only [apply, setDisplayUnit]
    split <;> exact ⟨ho, hb.2⟩
  | setTokenUnit unit =>
    have h8 : (if unit > maxTokenUnits then maxTokenUnits else unit) ≤ maxTokenUnits := by
      split_ifs <;> omega
    simp only [apply, setTokenUnit]
    split <;> exact ⟨hb.1, h8⟩
  | setSingleStep step => exact hb
  | clear => exact hb
  | edit text =>
    simp only [apply, edit]
    split_ifs <;> exact hb
  | fixup =>
    simp only [apply, fixup]
    split
    exacts [hset _ hb, hb]

/-- Every run of allowed operations from the constructor leaves a good spin box. -/
theorem good_run (maxMoney : Int) {ops : List Op} (hops : ∀ o ∈ ops, o.Allowed) :
    Good (run maxMoney ops) := by
  suffices ∀ b, Good b → Good (ops.foldl (apply maxMoney) b) from this _ good_initial
  induction ops with
  | nil => exact fun _ h => h
  | cons o ops ih =>
    intro b hb
    exact ih (fun o' h => hops o' (List.mem_cons_of_mem _ h)) _
      (good_apply maxMoney hb (hops o (List.mem_cons_self _ _)))

/-- In a good spin box, `value` after `setValue v` is `v` exactly when `v` is in
`[0, maxMoney]` and below `10^18`. -/
theorem value_setValue (maxMoney : Int) {b : AmountSpinBox} (hb : Good b) (v : Int) :
    value maxMoney (b.setValue v) =
      if 0 ≤ v ∧ v ≤ maxMoney ∧ v < 10 ^ 18 then some v else none := by
  have hread : (if b.tokenUnit ≥ 0 then
      tokenParse b.tokenUnit (format b.currentUnit v false .separatorAlways b.tokenUnit)
      else AokChainUnits.parse b.currentUnit
        (format b.currentUnit v false .separatorAlways b.tokenUnit)) =
      if -10 ^ 17 < v ∧ v < 10 ^ 18 then some v else none := by
    by_cases ht : b.tokenUnit ≥ 0
    · rw [if_pos ht, tokenParse_format ⟨ht, hb.2⟩]
    · rw [if_neg ht, parse_format hb.1 (lt_of_not_le ht)]
  simp only [value, parse, setValue, hread]
  rw [apply_ite (Option.filter _), Option.filter_some, Option.filter_none, ← ite_and]
  refine if_congr ?_ rfl rfl
  simp only [Bool.not_eq_true', Bool.or_eq_false_iff, decide_eq_false_iff_not]
  omega

theorem parse_bounds {maxMoney : Int} {b : AmountSpinBox} {text : List Char} {v : Int}
    (h : parse maxMoney b text = some v) : 0 ≤ v ∧ v ≤ maxMoney := by
  have := (Option.filter_eq_some.1 h).2
  simp only [Bool.not_eq_true', Bool.or_eq_false_iff, decide_eq_false_iff_not] at this
  omega

@[simp] theorem value_clear (maxMoney : Int) (b : AmountSpinBox) : value maxMoney b.clear = none := by
  simp [value, clear, parse, tokenParse, AokChainUnits.parse]

/-- Rewriting a value that reads back leaves it as it was. -/
theorem value_setValue_self {maxMoney : Int} (h18 : maxMoney < 10 ^ 18) {b b' : AmountSpinBox}
    (hb' : Good b') {v : Int} (hv : value maxMoney b = some v) :
    value maxMoney (b'.setValue v) = value maxMoney b := by
  have := parse_bounds hv
  rw [value_setValue maxMoney hb', if_pos ⟨this.1, this.2, by omega⟩, hv]

/-- `fixup` rewrites the text without changing the value, when `maxMoney < 10^18`. -/
theorem value_fixup {maxMoney : Int} (h18 : maxMoney < 10 ^ 18) {b : AmountSpinBox}
    (hb : Good b) : value maxMoney (fixup maxMoney b) = value maxMoney b := by
  unfold fixup
  split
  next v hv => exact value_setValue_self h18 hb hv
  next => rfl

/-- A change of display unit keeps the value, when `maxMoney < 10^18`. -/
theorem value_setDisplayUnit {maxMoney : Int} (h18 : maxMoney < 10 ^ 18) {b : AmountSpinBox}
    (hb : Good b) {unit : Int} (hu : valid unit = true) :
    value maxMoney (setDisplayUnit maxMoney b unit) = value maxMoney b := by
  unfold setDisplayUnit
  split
  next v hv =>
    exact value_setValue_self h18 (show Good { b with currentUnit := unit } from ⟨hu, hb.2⟩) hv
  next hv => rw [value_clear, hv]

/-- `stepBy` moves a good spin box to the clamped sum, when `maxMoney` is in `[0, 10^18)`. -/
theorem value_stepBy {maxMoney : Int} (h0 : 0 ≤ maxMoney) (h18 : maxMoney < 10 ^ 18)
    {b : AmountSpinBox} (hb : Good b) (steps : Int) :
    value maxMoney (stepBy maxMoney b steps) =
      some (min (max ((value maxMoney b).getD 0 + steps * b.singleStep) 0) maxMoney) := by
  rw [stepBy, value_setValue maxMoney hb, if_pos]
  omega

/-- After any run of the spin box's operations, with `MAX_MONEY` in `[0, 10^18)`: leaving the
field (`fixup`) and choosing another display unit keep the value, and `stepBy` moves it to the
sum clamped to `[0, MAX_MONEY]`, an invalid text counting as 0. -/
theorem value_fixup_unit_stepBy_of_run {maxMoney : Int} (h0 : 0 ≤ maxMoney)
    (h18 : maxMoney < 10 ^ 18) {ops : List Op} (hops : ∀ o ∈ ops, o.Allowed) :
    value maxMoney (fixup maxMoney (run maxMoney ops)) = value maxMoney (run maxMoney ops) ∧
      (∀ unit, valid unit = true →
        value maxMoney (setDisplayUnit maxMoney (run maxMoney ops) unit) =
          value maxMoney (run maxMoney ops)) ∧
      ∀ steps, value maxMoney (stepBy maxMoney (run maxMoney ops) steps) =
        some (min (max ((value maxMoney (run maxMoney ops)).getD 0 +
          steps * (run maxMoney ops).singleStep) 0) maxMoney) :=
  have hb := good_run maxMoney hops
  ⟨value_fixup h18 hb, fun _ hu => value_setDisplayUnit h18 hb hu, value_stepBy h0 h18 hb⟩

theorem value_fixup_unit_stepBy_of_run_edit :
    (0 : Int) ≤ 100 ∧ (100 : Int) < 10 ^ 18 ∧
      (∀ o ∈ [Op.edit ['5']], o.Allowed) ∧
      value 100 (fixup 100 (run 100 [.edit ['5']])) = value 100 (run 100 [.edit ['5']]) ∧
      (∀ unit, valid unit = true →
        value 100 (setDisplayUnit 100 (run 100 [.edit ['5']]) unit) =
          value 100 (run 100 [.edit ['5']])) ∧
      ∀ steps, value 100 (stepBy 100 (run 100 [.edit ['5']]) steps) =
        some (min (max ((value 100 (run 100 [.edit ['5']])).getD 0 +
          steps * (run 100 [.edit ['5']]).singleStep) 0) 100) :=
  have hops : ∀ o ∈ [Op.edit ['5']], o.Allowed := by simp [Op.Allowed]
  ⟨by norm_num, by norm_num, hops, value_fixup_unit_stepBy_of_run (by norm_num) (by norm_num) hops⟩

end AmountSpinBox

/-- Every amount of `[-M, M]` reads back in every display unit exactly when `M < 10^17`; every
amount of `[0, M]` reads back at every token precision, and through the spin box after any
run of its operations, exactly when `M < 10^18`. -/
theorem roundTrip_iff :
    (∀ unit, valid unit = true → ∀ nTokenUnit < 0, ∀ (separators : SeparatorStyle) (M : Int),
      (∀ n, -M ≤ n → n ≤ M → parse unit (format unit n false separators nTokenUnit) = some n) ↔
        M < 10 ^ 17) ∧
    (∀ d : Int, 0 ≤ d → d ≤ 8 → ∀ (separators : SeparatorStyle) (M : Int),
      (∀ n, 0 ≤ n → n ≤ M → tokenParse d (format AOK n false separators d) = some n) ↔
        M < 10 ^ 18) ∧
    (∀ ops : List AmountSpinBox.Op, (∀ o ∈ ops, o.Allowed) → ∀ maxMoney : Int,
      (∀ n, 0 ≤ n → n ≤ maxMoney →
        AmountSpinBox.value maxMoney ((AmountSpinBox.run maxMoney ops).setValue n) = some n) ↔
        maxMoney < 10 ^ 18) := by
  refine ⟨fun unit hu t ht sep M => ?_, fun d h0 h8 sep M => ?_, fun ops hops maxMoney => ?_⟩
  · simp only [parse_format hu ht, Option.ite_none_right_eq_some, and_true]
    exact ⟨fun h => by have := h (-M); omega, fun hM n h1 h2 => by omega⟩
  · simp only [tokenParse_format ⟨h0, h8⟩, Option.ite_none_right_eq_some, and_true]
    exact ⟨fun h => by have := h M; omega, fun hM n h1 h2 => by omega⟩
  · simp only [AmountSpinBox.value_setValue maxMoney (AmountSpinBox.good_run maxMoney hops),
      Option.ite_none_right_eq_some, and_true]
    exact ⟨fun h => by have := h maxMoney; omega, fun hM n h1 h2 => by omega⟩

theorem roundTrip_iff_uAOK :
    valid uAOK = true ∧ (-1 : Int) < 0 ∧
      ((∀ n, -(10 ^ 17 - 1) ≤ n → n ≤ 10 ^ 17 - 1 →
        parse uAOK (format uAOK n false .separatorStandard (-1)) = some n) ↔
        (10 ^ 17 - 1 : Int) < 10 ^ 17) :=
  ⟨rfl, by decide, roundTrip_iff.1 uAOK rfl (-1) (by decide) _ _⟩

end AokChain
