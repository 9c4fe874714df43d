import Mathlib

/-!
# The pages of `listmytokens` and `listmylockedtokens`

Both RPCs list the wallet's token balances, a `std::map` from token name to amount, one page at
a time. A page is `count` entries (by default `INT_MAX`) from `start`. For a negative `start` it
is taken from `-start` entries before the end. The page's bounds are set with `safe_advance`,
which moves an iterator forward but not past the end. The listing loop stops at the page's end
or at the map's.

For a negative `start` the offset is `balances.size() + start`, computed in `size_t`. A `start`
before the beginning therefore wraps around: the page is empty, not the first entries
(`paginate_cases`). Pages of one size taken from 0, `count`, `2 * count`, … list every entry
once, in order (`paginate_walk`).

The wallet's balances (`GetAllMyTokenBalancesWallet`, `GetAllMyLockedTokenBalancesWallet`) are
parameters, since wallet.cpp and tokens.cpp are not among the sources. So are the token
library's `IsTokenNameValid`, `IsTokenNameAnOwner` and token cache. Only the non-verbose result is
modelled: `verbose` adds each entry's outpoints, but does not change which entries a page lists.
-/

namespace AokChain

namespace Rpc

/-! ### The page -/

/-- `safe_advance(curr, end, n)` on the positions of a sequence of `size` entries: `n` forward,
but not past the end. -/
def safeAdvance (size curr n : Nat) : Nat :=
  let remaining := size - curr
  curr + if remaining < n then remaining else n

/-- `balances.size() + start`, in `size_t`. -/
def sizeAddStart (size : Nat) (start : Int) : Nat :=
  ((size + start) % 2 ^ 64).toNat

/-- The loop `for (; bal != end && bal != balances.end(); bal++)` from the position `bal`, over
what is left of the map from there. -/
def pageLoop {α : Type} (stop : Nat) : Nat → List α → List α
  | _, [] => []
  | bal, e :: rest => if bal = stop then [] else e :: pageLoop stop (bal + 1) rest

/-- The pagination of both RPCs: the entries of `balances` that a page lists, for `count`
and `start`. -/
def paginate {α : Type} (balances : List α) (count : Nat) (start : Int) : List α :=
  let bal := if start ≥ 0 then safeAdvance balances.length 0 start.toNat
    else safeAdvance balances.length 0 (sizeAddStart balances.length start)
  let stop := safeAdvance balances.length bal count
  pageLoop stop bal (balances.drop bal)

theorem safeAdvance_eq (size curr n : Nat) : safeAdvance size curr n = curr + min n (size - curr) := by
  unfold safeAdvance
  dsimp only
  split_ifs <;> omega

theorem pageLoop_eq {α : Type} (stop : Nat) :
    ∀ (bal : Nat) (rest : List α), bal ≤ stop → pageLoop stop bal rest = rest.take (stop - bal)
  | _, [], _ => by simp [pageLoop]
  | bal, e :: rest, h => by
    rw [pageLoop]
    split_ifs with hstop
    · simp [hstop]
    · rw [pageLoop_eq stop (bal + 1) rest (by omega), show stop - bal = stop - (bal + 1) + 1 by omega,
        List.take_succ_cons]

/-- In `size_t`, `size + start` for a negative `start` is the offset from the end when `-start`
is at most `size`, and lies past the end otherwise. -/
theorem sizeAddStart_of_neg {size : Nat} {start : Int} (hsize : size < 2 ^ 64)
    (h0 : -2 ^ 63 ≤ start) (hneg : start < 0) :
    (-start ≤ size → sizeAddStart size start = (size + start).toNat) ∧
      (size < -start → size ≤ sizeAddStart size start) := by
  unfold sizeAddStart
  constructor
  · intro h
    rw [Int.emod_eq_of_lt (by omega) (by omega)]
  · intro h
    rw [← Int.add_emod_self, Int.emod_eq_of_lt (by omega) (by omega)]
    omega

/-- From any position, the loop lists the `count` entries there. -/
theorem pageLoop_safeAdvance {α : Type} (balances : List α) (count bal : Nat) :
    pageLoop (safeAdvance balances.length bal count) bal (balances.drop bal) =
      (balances.drop bal).take count := by
  rw [pageLoop_eq _ _ _ (by rw [safeAdvance_eq]; omega), safeAdvance_eq, Nat.add_sub_cancel_left,
    ← List.length_drop, ← List.take_take, List.take_length]

theorem paginate_of_nonneg {α : Type} (balances : List α) (count start : Nat) :
    paginate balances count start = (balances.drop start).take count := by
  unfold paginate
  dsimp only
  rw [if_pos (Int.ofNat_nonneg start), pageLoop_safeAdvance, safeAdvance_eq, Int.toNat_ofNat,
    Nat.zero_add, Nat.sub_zero]
  rcases le_total start balances.length with h | h
  · rw [min_eq_left h]
  · rw [min_eq_right h, List.drop_length, List.drop_eq_nil_of_le h]

theorem paginate_of_neg {α : Type} (balances : List α) (count : Nat) {start : Int}
    (hsize : balances.length < 2 ^ 64) (h0 : -2 ^ 63 ≤ start) (hneg : start < 0) :
    paginate balances count start =
      if -start ≤ balances.length then (balances.drop (balances.length + start).toNat).take count
      else [] := by
  obtain ⟨hle, hlt⟩ := sizeAddStart_of_neg hsize h0 hneg
  unfold paginate
  dsimp only
  rw [if_neg (by omega), pageLoop_safeAdvance, safeAdvance_eq]
  split_ifs with h
  · rw [hle h, min_eq_left (by omega), Nat.zero_add]
  · have := hlt (by omega)
    rw [min_eq_right (by omega), Nat.zero_add, Nat.sub_zero, List.drop_length, List.take_nil]

/-- The page `listmytokens` and `listmylockedtokens` list: the `count` entries from entry
`start`; for a negative `start`, from `-start` entries before the end; and for a negative
`start` before the beginning, no entry at all, since `balances.size() + start` wraps in
`size_t` to past the end. -/
theorem paginate_cases {α : Type} (balances : List α) (count : Nat) {start : Int}
    (hsize : balances.length < 2 ^ 64) (h0 : -2 ^ 63 ≤ start) :
    paginate balances count start =
      if 0 ≤ start then (balances.drop start.toNat).take count
      else if -start ≤ balances.length then
        (balances.drop (balances.length + start).toNat).take count
      else [] := by
  by_cases hs : 0 ≤ start
  · obtain ⟨n, rfl⟩ := Int.eq_ofNat_of_zero_le hs
    rw [if_pos hs, paginate_of_nonneg, Int.toNat_ofNat]
  · rw [if_neg hs, paginate_of_neg balances count hsize h0 (by omega)]

theorem paginate_cases_beforeBeginning :
    -2 ^ 63 ≤ (-4 : Int) ∧ paginate [1, 2, 3] 10 (-4) = [] :=
  ⟨by decide, (paginate_cases [1, 2, 3] 10 (by decide) (by decide)).trans rfl⟩

/-- Walking the pages: the pages of `count` entries from `0`, `count`, `2 * count`, … list the
first `k * count` entries, each once and in order; enough pages list the whole map. -/
theorem paginate_walk {α : Type} (balances : List α) (count : Nat) :
    ∀ k : Nat, (List.range k).flatMap (fun i => paginate balances count (i * count : Nat)) =
      balances.take (k * count)
  | 0 => by simp
  | k + 1 => by
    rw [List.range_succ, List.flatMap_append, paginate_walk balances count k, List.flatMap_singleton,
      paginate_of_nonneg, Nat.succ_mul, List.take_add]

/-! ### The two RPCs -/

/-- What the two RPCs read of the wallet and the token library, none of it among the sources:
`GetAllMyTokenBalancesWallet` and `GetAllMyLockedTokenBalancesWallet`, called without a name or
with one, as the balances by token name in the map's order (`none` where the call fails);
`IsTokenNameValid`; and, for `UnitValueFromAmount`, whether `GetCurrentTokenCache()` gives a
cache, `IsTokenNameAnOwner`, the units `GetTokenMetaDataIfExists` finds, `OWNER_UNITS` and
`MAX_UNIT`. -/
structure TokenWallet where
  getAllMyTokenBalancesWallet : Option String → Option (List (String × Int))
  getAllMyLockedTokenBalancesWallet : Option String → Option (List (String × Int))
  isTokenNameValid : String → Bool
  hasTokenCache : Bool
  isTokenNameAnOwner : String → Bool
  getTokenMetaDataIfExists : String → Option Nat
  ownerUnits : Nat
  maxUnit : Nat

section Rpcs

variable (w : TokenWallet)

/-- The units a token's amounts are shown in: `OWNER_UNITS` for an owner token, and otherwise
the token's own, or `MAX_UNIT` where the cache has no metadata for it. -/
def tokenUnits (tokenName : String) : Nat :=
  if w.isTokenNameAnOwner tokenName then w.ownerUnits
  else (w.getTokenMetaDataIfExists tokenName).getD w.maxUnit

/-- `UnitValueFromAmount(amount, token_name)`: the amount with its units, or an error without a
token cache. -/
def unitValueFromAmount (amount : Int) (tokenName : String) : Except String (Int × Nat) :=
  if !w.hasTokenCache then .error "Token cache isn't available."
  else .ok (amount, tokenUnits w tokenName)

/-- `INT_MAX`, the default `count`. -/
def intMax : Nat := 2 ^ 31 - 1

/-- The `count` argument: `INT_MAX` when absent, and an error below 1. -/
def parseCount : Option Int → Except String Nat
  | none => .ok intMax
  | some c => if c < 1 then .error "count must be greater than 1." else .ok c.toNat

/-- The `token` argument: `*` when absent or empty. -/
def parseFilter : Option String → String
  | some f => if f = "" then "*" else f
  | none => "*"

/-- The balances the filter asks the wallet call `getBalances` for: all of them for `*`, those
whose names start with what stands before a final `*`, and otherwise those of a valid token
name. -/
def filterBalances (getBalances : Option String → Option (List (String × Int)))
    (filter : String) : Except String (List (String × Int)) :=
  let query : Except String (Option String) :=
    if filter = "*" then .ok none
    else if filter.back = '*' then .ok (some (filter.dropRight 1))
    else if !w.isTokenNameValid filter then .error "Invalid token name."
    else .ok (some filter)
  query.bind fun name =>
    (getBalances name).elim (.error "Couldn't get token balances. For all tokens") .ok

/-- The body `listmytokens` and `listmylockedtokens` share, on the arguments `token`, `count`
and `start` of the request, with the RPC's wallet call `getBalances`: the entries of the
result in order, each name with its amount and units, or the message thrown. -/
def listTokenBalances (getBalances : Option String → Option (List (String × Int)))
    (token : Option String) (count start : Option Int) :
    Except String (List (String × Int × Nat)) :=
  (parseCount count).bind fun count =>
    (filterBalances w getBalances (parseFilter token)).bind fun balances =>
      (paginate balances count (start.getD 0)).mapM fun entry =>
        (unitValueFromAmount w entry.2 entry.1).map fun v => (entry.1, v)

/-- `listmytokens token verbose count start`, without `verbose`. -/
def listMyTokens : Option String → Option Int → Option Int →
    Except String (List (String × Int × Nat)) :=
  listTokenBalances w w.getAllMyTokenBalancesWallet

/-- `listmylockedtokens token verbose count start`, without `verbose`. -/
def listMyLockedTokens : Option String → Option Int → Option Int →
    Except String (List (String × Int × Nat)) :=
  listTokenBalances w w.getAllMyLockedTokenBalancesWallet

end Rpcs

end Rpc

end AokChain
