import Mathlib

/-!
# The value a transaction pays out

`CTransaction::GetValueOut` adds the outputs' values into an `int64_t` and throws once an
output's value or the running sum leaves `MoneyRange`. The range test runs after each
addition, so the addition itself can leave the `int64_t` range first, and C++ leaves a signed
overflow undefined: the model's `none`.

`MAX_MONEY` is not among the sources; it is the parameter `maxMoney`, a `CAmount`.
-/

namespace AokChain

/-- The range of an `int64_t`, and so of a `CAmount`. -/
def InInt64 (x : Int) : Prop := -2 ^ 63 ≤ x ∧ x < 2 ^ 63

instance : DecidablePred InInt64 := fun _ => inferInstanceAs (Decidable (_ ∧ _))

/-- A transaction output. `GetValueOut` reads only `nValue`, a `CAmount`. -/
structure CTxOut where
  nValue : Int
  nValue_range : InInt64 nValue

/-- `MoneyRange`. Modelled from the spec: an amount lies in `[0, MAX_MONEY]`. -/
def moneyRange (maxMoney n : Int) : Bool := 0 ≤ n && n ≤ maxMoney

/-- `a + b` on `int64_t`: `none` where the sum leaves the type. -/
def addInt64 (a b : Int) : Option Int := if InInt64 (a + b) then some (a + b) else none

/-- The loop of `GetValueOut` from the running sum `nValueOut`: the sum, the exception's
message, or `none` at an overflowing addition. -/
def getValueOutLoop (maxMoney : Int) : Int → List CTxOut → Option (Except String Int)
  | nValueOut, [] => some (.ok nValueOut)
  | nValueOut, txOut :: vout =>
    (addInt64 nValueOut txOut.nValue).bind fun n =>
      if !moneyRange maxMoney txOut.nValue || !moneyRange maxMoney n then
        some (.error "GetValueOut: value out of range")
      else getValueOutLoop maxMoney n vout

/-- `CTransaction::GetValueOut`. -/
def getValueOut (maxMoney : Int) (vout : List CTxOut) : Option (Except String Int) :=
  getValueOutLoop maxMoney 0 vout

section

variable {maxMoney : Int}

theorem inInt64_of_moneyRange (hmax : maxMoney < 2 ^ 63) {n : Int}
    (h : moneyRange maxMoney n) : InInt64 n := by
  simp only [moneyRange, Bool.and_eq_true, decide_eq_true_eq] at h
  exact ⟨by omega, by omega⟩

theorem addInt64_of_moneyRange (hmax : maxMoney < 2 ^ 63) {a b : Int}
    (h : moneyRange maxMoney (a + b)) : addInt64 a b = some (a + b) :=
  if_pos (inInt64_of_moneyRange hmax h)

/-- One output: the loop goes on from the new sum exactly when the value and the sum pass
`MoneyRange`, given that `MAX_MONEY` is a `CAmount`. -/
theorem getValueOutLoop_cons (hmax : maxMoney < 2 ^ 63) (nValueOut : Int) (txOut : CTxOut)
    (vout : List CTxOut) :
    getValueOutLoop maxMoney nValueOut (txOut :: vout) =
      if moneyRange maxMoney txOut.nValue ∧ moneyRange maxMoney (nValueOut + txOut.nValue)
      then getValueOutLoop maxMoney (nValueOut + txOut.nValue) vout
      else (addInt64 nValueOut txOut.nValue).map fun _ => .error "GetValueOut: value out of range" := by
  by_cases h : moneyRange maxMoney txOut.nValue ∧ moneyRange maxMoney (nValueOut + txOut.nValue)
  · simp [getValueOutLoop, addInt64_of_moneyRange hmax h.2, h]
  · rw [getValueOutLoop, if_neg h, addInt64]
    split_ifs <;> simp_all [Bool.not_eq_true']

/-- The loop returns exactly when every value and every running sum pass `MoneyRange`, and
then it returns the sum. -/
theorem getValueOutLoop_eq_ok_iff (hmax : maxMoney < 2 ^ 63) (vout : List CTxOut) :
    ∀ nValueOut s, getValueOutLoop maxMoney nValueOut vout = some (.ok s) ↔
      (∀ txOut ∈ vout, moneyRange maxMoney txOut.nValue) ∧
      (∀ n ∈ ((vout.map (·.nValue)).scanl (· + ·) nValueOut).tail, moneyRange maxMoney n) ∧
      s = nValueOut + (vout.map (·.nValue)).sum := by
  induction vout with
  | nil => simpa [getValueOutLoop] using fun _ _ => eq_comm
  | cons txOut vout ih =>
    intro nValueOut s
    have hscan : ∀ b : Int, (vout.map (·.nValue)).scanl (· + ·) b =
        b :: ((vout.map (·.nValue)).scanl (· + ·) b).tail := by
      intro b; cases vout <;> rfl
    rw [getValueOutLoop_cons hmax, List.map_cons, List.sum_cons]
    show _ ↔ _ ∧ (∀ n ∈ (vout.map (·.nValue)).scanl (· + ·) (nValueOut + txOut.nValue), _) ∧ _
    rw [hscan]
    split_ifs with h
    · rw [ih, ← add_assoc]
      simp only [List.forall_mem_cons, h, true_and]
    · have hl : (addInt64 nValueOut txOut.nValue).map
          (fun _ => (.error "GetValueOut: value out of range" : Except String Int)) ≠ some (.ok s) := by
        cases addInt64 nValueOut txOut.nValue <;> simp
      simp only [List.forall_mem_cons]
      exact iff_of_false hl fun ⟨⟨h1, _⟩, ⟨h2, _⟩, _⟩ => h ⟨h1, h2⟩

/-- `GetValueOut` returns exactly when every output's value and every prefix sum of the
values lie in `[0, MAX_MONEY]`, and then it returns the sum. -/
theorem getValueOut_eq_ok_iff (hmax : maxMoney < 2 ^ 63) (vout : List CTxOut) (s : Int) :
    getValueOut maxMoney vout = some (.ok s) ↔
      (∀ txOut ∈ vout, moneyRange maxMoney txOut.nValue) ∧
      (∀ n ∈ ((vout.map (·.nValue)).scanl (· + ·) 0).tail, moneyRange maxMoney n) ∧
      s = (vout.map (·.nValue)).sum := by
  rw [getValueOut, getValueOutLoop_eq_ok_iff hmax, zero_add]

/-- Within `int64_t`, a running sum above `MAX_MONEY` throws. -/
example : getValueOut 100 [⟨30, by decide⟩, ⟨80, by decide⟩] =
    some (.error "GetValueOut: value out of range") := by
  rfl

/-- The loop overflows exactly at an output where the outputs before it returned their sum
and adding its value leaves the `int64_t` range. -/
theorem getValueOutLoop_eq_none_iff (hmax : maxMoney < 2 ^ 63) (vout : List CTxOut) :
    ∀ nValueOut, getValueOutLoop maxMoney nValueOut vout = none ↔
      ∃ pre txOut post, vout = pre ++ txOut :: post ∧
        getValueOutLoop maxMoney nValueOut pre =
          some (.ok (nValueOut + (pre.map (·.nValue)).sum)) ∧
        ¬InInt64 (nValueOut + (pre.map (·.nValue)).sum + txOut.nValue) := by
  induction vout with
  | nil => simp [getValueOutLoop]
  | cons x vout ih =>
    intro nValueOut
    rw [getValueOutLoop_cons hmax]
    split_ifs with h
    · rw [ih]
      constructor
      · rintro ⟨pre, t, post, rfl, hpre, ht⟩
        refine ⟨x :: pre, t, post, rfl, ?_, ?_⟩
        · simpa [getValueOutLoop_cons hmax, h, add_assoc] using hpre
        · simpa [add_assoc] using ht
      · rintro ⟨_ | ⟨y, pre⟩, t, post, hv, hpre, ht⟩
        · obtain ⟨rfl, -⟩ := List.cons_eq_cons.1 hv
          exact absurd (by simpa using inInt64_of_moneyRange hmax h.2) ht
        · obtain ⟨rfl, rfl⟩ := List.cons_eq_cons.1 hv
          refine ⟨pre, t, post, rfl, ?_, ?_⟩
          · simpa [getValueOutLoop_cons hmax, h, add_assoc] using hpre
          · simpa [add_assoc] using ht
    · constructor
      · intro hn
        refine ⟨[], x, vout, rfl, by simp [getValueOutLoop], ?_⟩
        simpa [addInt64] using hn
      · rintro ⟨_ | ⟨y, pre⟩, t, post, hv, hpre, ht⟩
        · obtain ⟨rfl, -⟩ := List.cons_eq_cons.1 hv
          simpa [addInt64] using ht
        · obtain ⟨rfl, -⟩ := List.cons_eq_cons.1 hv
          simp [getValueOutLoop_cons hmax, h] at hpre

/-- Every exception the loop throws has `GetValueOut`'s one message. -/
theorem getValueOutLoop_error : ∀ (nValueOut : Int) (vout : List CTxOut) (e : String),
    getValueOutLoop maxMoney nValueOut vout = some (.error e) → e = "GetValueOut: value out of range"
  | _, [], _, h => nomatch h
  | nValueOut, txOut :: vout, e, h => by
    rw [getValueOutLoop] at h
    cases hadd : addInt64 nValueOut txOut.nValue with
    | none => rw [hadd] at h; cases h
    | some n =>
      rw [hadd, Option.some_bind] at h
      split_ifs at h
      · cases h; rfl
      · exact getValueOutLoop_error n vout e h

/-- Given that `MAX_MONEY` is a `CAmount`, `GetValueOut` has three outcomes. It returns the sum
exactly when every output's value and every prefix sum of the values pass `MoneyRange`. Its
`int64_t` sum overflows, which C++ leaves undefined, exactly at an output whose value, added to
a prefix that returned its sum, leaves the `int64_t` range. Otherwise it throws "value out of
range". -/
theorem getValueOut_outcomes (hmax : maxMoney < 2 ^ 63) (vout : List CTxOut) :
    (∀ s, getValueOut maxMoney vout = some (.ok s) ↔
      (∀ txOut ∈ vout, moneyRange maxMoney txOut.nValue) ∧
      (∀ n ∈ ((vout.map (·.nValue)).scanl (· + ·) 0).tail, moneyRange maxMoney n) ∧
      s = (vout.map (·.nValue)).sum) ∧
    (getValueOut maxMoney vout = none ↔
      ∃ pre txOut post, vout = pre ++ txOut :: post ∧
        getValueOut maxMoney pre = some (.ok (pre.map (·.nValue)).sum) ∧
        ¬InInt64 ((pre.map (·.nValue)).sum + txOut.nValue)) ∧
    (∀ e, getValueOut maxMoney vout = some (.error e) → e = "GetValueOut: value out of range") :=
  ⟨getValueOut_eq_ok_iff hmax vout,
    by simpa only [getValueOut, zero_add] using getValueOutLoop_eq_none_iff hmax vout 0,
    getValueOutLoop_error 0 vout⟩

end

theorem getValueOut_outcomes_hundred :
    (100 : Int) < 2 ^ 63 ∧
      (∀ s, getValueOut 100 [⟨30, by decide⟩, ⟨80, by decide⟩] = some (.ok s) ↔
        (∀ txOut ∈ [(⟨30, by decide⟩ : CTxOut), ⟨80, by decide⟩], moneyRange 100 txOut.nValue) ∧
        (∀ n ∈ (([(⟨30, by decide⟩ : CTxOut), ⟨80, by decide⟩].map (·.nValue)).scanl (· + ·) 0).tail,
          moneyRange 100 n) ∧
        s = ([(⟨30, by decide⟩ : CTxOut), ⟨80, by decide⟩].map (·.nValue)).sum) ∧
      (getValueOut 100 [⟨30, by decide⟩, ⟨80, by decide⟩] = none ↔
        ∃ pre txOut post, [(⟨30, by decide⟩ : CTxOut), ⟨80, by decide⟩] = pre ++ txOut :: post ∧
          getValueOut 100 pre = some (.ok (pre.map (·.nValue)).sum) ∧
          ¬InInt64 ((pre.map (·.nValue)).sum + txOut.nValue)) ∧
      (∀ e, getValueOut 100 [⟨30, by decide⟩, ⟨80, by decide⟩] = some (.error e) →
        e = "GetValueOut: value out of range") :=
  ⟨by norm_num, getValueOut_outcomes (by norm_num) _⟩

/-- Two outputs, `1` and `2^63 - 1`, against any `MAX_MONEY` of at least one unit: the first
passes `MoneyRange`, and adding the second overflows `nValueOut` before it is tested. -/
theorem getValueOut_overflows {maxMoney : Int} (h : 1 ≤ maxMoney) :
    getValueOut maxMoney [⟨1, by decide⟩, ⟨2 ^ 63 - 1, by decide⟩] = none := by
  have h1 : moneyRange maxMoney 1 = true := by simpa [moneyRange] using h
  simp [getValueOut, getValueOutLoop, addInt64, h1, InInt64]

theorem getValueOut_overflows_one :
    getValueOut 1 [⟨1, by decide⟩, ⟨2 ^ 63 - 1, by decide⟩] = none :=
  getValueOut_overflows le_rfl

end AokChain
