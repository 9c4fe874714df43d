import AokChain.Governance.Entries

/-!
# The governance store

The operations of `CGovernance` (`governance.cpp`) over the database of
`AokChain.Governance.Entries`. Each operation reads what it needs, records its writes in one
batch and commits the batch; `WriteBatch` always returns true (a LevelDB error throws), so
an operation returns false only where the source returns false itself. Log lines, and the
type names `UpdateCost` builds only to log them, are left out.

Every operation gets one lemma saying which writes it commits; the lemmas of the later
files cite these and never unfold an operation.

Two readers of the freeze table disagree with it. `Init` writes the sentinel `FreezeEntry()`
with `FreezeDetails()`, whose default is frozen, but sets the counter to zero, so unfreezing
the sentinel wraps the unsigned counter (`initial_dummy_frozen_uncounted`). The listings start
at `Seek(FreezeEntry(DUMMY_SCRIPT))`, commented as the lexically first script; a freeze key is
`'a'`, the script's length, then its bytes, so every script shorter than the six-byte sentinel
sorts before it and is not listed (`frozen_short_script_unlisted`).
-/

namespace AokChain

/-- The chain parameters `Init` reads: the five issuance fees, and the script of the token
fee address (`GetScriptForDestination(DecodeDestination(TokenFeeAddress()))`). -/
structure GovernanceParams where
  rootFeeAmount : Int
  reissueFeeAmount : Int
  uniqueFeeAmount : Int
  subFeeAmount : Int
  usernameFeeAmount : Int
  tokenFeeScript : Bytes

/-- The governance parameters of `CMainParams`: the fees in satoshis, and the P2PKH script of
the token fee address `KdZFAFeKV8C5JzdEdgcPYDZku92KkD3fHy`. -/
def mainGovernanceParams : GovernanceParams where
  rootFeeAmount := 10000 * 100000000
  reissueFeeAmount := 10000 * 100000000
  uniqueFeeAmount := 100 * 100000000
  subFeeAmount := 100 * 100000000
  usernameFeeAmount := 1 * 100000000
  tokenFeeScript := [0x76, 0xa9, 0x14, 0x4c, 0xe0, 0xfa, 0x1e, 0xe0, 0x7d, 0x8b, 0x1a, 0x21, 0x94,
    0x3e, 0xbc, 0x66, 0x71, 0xff, 0x95, 0x4f, 0xcf, 0x35, 0xfd, 0x88, 0xac]

namespace GovernanceDB

open Store

/-- The batch `Init` writes into a new database. The dummy entries come first in their
families' key order, for the iterations that seek them. -/
def initBatch (p : GovernanceParams) : List (BatchOp Value) :=
  [.write (tagKey dbNumberFrozen) (.number 0),
   .write (freezeEntry dummyScript) (.flag true),
   .write (costEntry dummyType 0) (.amount 0),
   .write (costEntry governanceCostRoot 0) (.amount p.rootFeeAmount),
   .write (costEntry governanceCostReissue 0) (.amount p.subFeeAmount),
   .write (costEntry governanceCostUnique 0) (.amount p.uniqueFeeAmount),
   .write (costEntry governanceCostSub 0) (.amount p.reissueFeeAmount),
   .write (costEntry governanceCostUsername 0) (.amount p.usernameFeeAmount),
   .write (feeEntry 0) (.script p.tokenFeeScript),
   .write (tagKey dbGovernanceInit) (.flag true)]

/-- `CGovernance::Init(fWipe, chainparams)`: writes the initial batch unless the database
says it is already initialised. -/
def init (db : GovernanceDB) (fWipe : Bool) (p : GovernanceParams) : Bool × GovernanceDB :=
  if fWipe || db.readFlag (tagKey dbGovernanceInit) != some true then
    (true, db.writeBatch (initBatch p))
  else (true, db)

/-- The database `Init` produces on a new (empty) database. -/
def initial (p : GovernanceParams) : GovernanceDB := (init Store.empty true p).2

/-- `GetNumberOfFrozenScripts()`. The source reads the counter into an uninitialised
`unsigned int`; `Init` always writes it, and an absent counter reads as 0 here. -/
def getNumberOfFrozenScripts (db : GovernanceDB) : UInt32 :=
  (db.readNumber (tagKey dbNumberFrozen)).getD 0

/-- The counter write `batch.Write(DB_NUMBER_FROZEN, n)`. -/
def writeNumber (n : UInt32) : BatchOp Value := .write (tagKey dbNumberFrozen) (.number n)

/-- `FreezeScript(script)`. -/
def freezeScript (db : GovernanceDB) (script : Bytes) : Bool × GovernanceDB :=
  let entry := freezeEntry script
  let number := db.getNumberOfFrozenScripts
  match db.readFlag entry with
  | some frozen =>
    if !frozen then (true, db.writeBatch [.write entry (.flag true), writeNumber (number + 1)])
    else (true, db.writeBatch [.write entry (.flag frozen)])
  | none => (true, db.writeBatch [.write entry (.flag true), writeNumber (number + 1)])

/-- `UnfreezeScript(script)`. -/
def unfreezeScript (db : GovernanceDB) (script : Bytes) : Bool × GovernanceDB :=
  let entry := freezeEntry script
  let number := db.getNumberOfFrozenScripts
  match db.readFlag entry with
  | some frozen =>
    if frozen then (true, db.writeBatch [.write entry (.flag false), writeNumber (number - 1)])
    else (true, db.writeBatch [.write entry (.flag frozen)])
  | none => (true, db.writeBatch [.write entry (.flag false)])

/-- `RevertFreezeScript(script)`: unfreezes a frozen script; false on any other entry. -/
def revertFreezeScript (db : GovernanceDB) (script : Bytes) : Bool × GovernanceDB :=
  let entry := freezeEntry script
  let number := db.getNumberOfFrozenScripts
  match db.readFlag entry with
  | some frozen =>
    if frozen then (true, db.writeBatch [writeNumber (number - 1), .write entry (.flag false)])
    else (false, db)
  | none => (false, db)

/-- `RevertUnfreezeScript(script)`: freezes an unfrozen script; false on any other entry. -/
def revertUnfreezeScript (db : GovernanceDB) (script : Bytes) : Bool × GovernanceDB :=
  let entry := freezeEntry script
  let number := db.getNumberOfFrozenScripts
  match db.readFlag entry with
  | some frozen =>
    if !frozen then (true, db.writeBatch [writeNumber (number + 1), .write entry (.flag true)])
    else (false, db)
  | none => (false, db)

/-- `ScriptExist(script)`. -/
def scriptExist (db : GovernanceDB) (script : Bytes) : Bool := db.exists (freezeEntry script)

/-- `CanSend(script)`: true for an unknown script; otherwise the negated stored flag, read
into `FreezeDetails()` (frozen) so that an unreadable entry counts as frozen. -/
def canSend (db : GovernanceDB) (script : Bytes) : Bool :=
  if !db.exists (freezeEntry script) then true
  else !((db.readFlag (freezeEntry script)).getD true)

/-- On the main network's initial store the sentinel is frozen while the counter reads zero;
unfreezing the sentinel, or reverting a freeze of it, wraps the counter to `2^32 - 1`. -/
theorem initial_dummy_frozen_uncounted :
    getNumberOfFrozenScripts (initial mainGovernanceParams) = 0 ∧
      canSend (initial mainGovernanceParams) dummyScript = false ∧
      getNumberOfFrozenScripts
        (unfreezeScript (initial mainGovernanceParams) dummyScript).2 = 4294967295 ∧
      revertFreezeScript (initial mainGovernanceParams) dummyScript =
        (true, (revertFreezeScript (initial mainGovernanceParams) dummyScript).2) ∧
      getNumberOfFrozenScripts
        (revertFreezeScript (initial mainGovernanceParams) dummyScript).2 = 4294967295 :=
  ⟨by decide, by decide, by decide, rfl, by decide⟩

/-- The loop of `DumpFreezeStats` over the iterator: every freeze entry with its flag (read
into `FreezeDetails()`, frozen), until the first key that is not a freeze entry. -/
def dumpFreezeStatsLoop : List (Bytes × Value) → List (Bytes × Bool)
  | [] => []
  | (k, v) :: rest =>
    match getFreezeEntry k with
    | some (c, script) =>
      if c = dbAddress then (script, v.asFlag true) :: dumpFreezeStatsLoop rest else []
    | none => []

/-- `DumpFreezeStats(FreezeVector)`: the pairs it appends, iterating from
`FreezeEntry(DUMMY_SCRIPT)`, "the lexically first script". -/
def dumpFreezeStats (db : GovernanceDB) : List (Bytes × Bool) :=
  dumpFreezeStatsLoop (db.seek (freezeEntry dummyScript))

/-- The loop of `GetFrozenScripts`: the scripts of the frozen entries, until the first key
that is not a freeze entry. -/
def getFrozenScriptsLoop : List (Bytes × Value) → List Bytes
  | [] => []
  | (k, v) :: rest =>
    match getFreezeEntry k with
    | some (c, script) =>
      if c = dbAddress then
        if v.asFlag true then script :: getFrozenScriptsLoop rest else getFrozenScriptsLoop rest
      else []
    | none => []

/-- `GetFrozenScripts(FreezeVector)`: the scripts it appends, iterating from
`FreezeEntry(DUMMY_SCRIPT)`. -/
def getFrozenScripts (db : GovernanceDB) : List Bytes :=
  getFrozenScriptsLoop (db.seek (freezeEntry dummyScript))

/-- Freezing the one-byte script `OP_TRUE` on the main network's initial store: `CanSend` reports it frozen,
but both listings, which start at the sentinel, omit it and report only the sentinel. -/
theorem frozen_short_script_unlisted :
    canSend (freezeScript (initial mainGovernanceParams) [0x51]).2 [0x51] = false ∧
      getFrozenScripts (freezeScript (initial mainGovernanceParams) [0x51]).2 = [dummyScript] ∧
      dumpFreezeStats (freezeScript (initial mainGovernanceParams) [0x51]).2 =
        [(dummyScript, true)] :=
  ⟨by decide, by decide, by decide⟩

/-- The loop of `GetCost(type)` over the iterator: keeps the amount of the highest entry of
`type`, and stops at the first key that is not a cost entry. -/
def getCostLoop (type : Int) : List (Bytes × Value) → Int → Int → Int
  | [], _, cost => cost
  | (k, v) :: rest, height, cost =>
    match getCostEntry k with
    | some (c, t, h) =>
      if c = dbCost then
        if t = type ∧ h > height then getCostLoop type rest h (v.asAmount cost)
        else getCostLoop type rest height cost
      else cost
    | none => cost

/-- `GetCost(type)`: seeks `CostEntry()` and starts from height `-1` and cost 0. -/
def getCost (db : GovernanceDB) (type : Int) : Int :=
  getCostLoop type (db.seek (costEntry dummyType 0)) (-1) 0

/-- Whether `type` is one of the five issuance cost types `UpdateCost` accepts. -/
def isCostType (type : Int) : Bool :=
  type = governanceCostRoot || type = governanceCostReissue || type = governanceCostUnique ||
    type = governanceCostSub || type = governanceCostUsername

/-- `UpdateCost(cost, type, height)`: false for an unknown type; otherwise writes the entry
unless one is already stored under `(type, height)`. -/
def updateCost (db : GovernanceDB) (cost type height : Int) : Bool × GovernanceDB :=
  if isCostType type then
    match db.read (costEntry type height) with
    | some (.amount _) => (true, db)
    | _ => (true, db.writeBatch [.write (costEntry type height) (.amount cost)])
  else (false, db)

/-- `RevertUpdateCost(type, height)`: erases the entry; false if there is none. -/
def revertUpdateCost (db : GovernanceDB) (type height : Int) : Bool × GovernanceDB :=
  match db.read (costEntry type height) with
  | some (.amount _) => (true, db.writeBatch [.erase (costEntry type height)])
  | _ => (false, db)

/-- The loop of `GetFeeScript()`: keeps the script of the highest fee entry, and stops at the
first key that is not one. -/
def getFeeScriptLoop : List (Bytes × Value) → Int → Bytes → Bytes
  | [], _, script => script
  | (k, v) :: rest, height, script =>
    match getFeeEntry k with
    | some (c, h) =>
      if c = dbFeeAddress then
        if h > height then getFeeScriptLoop rest h (v.asScript script)
        else getFeeScriptLoop rest height script
      else script
    | none => script

/-- `GetFeeScript()`: seeks `FeeEntry()` and starts from height `-1` and `DUMMY_SCRIPT`. -/
def getFeeScript (db : GovernanceDB) : Bytes :=
  getFeeScriptLoop (db.seek (feeEntry 0)) (-1) dummyScript

/-- `UpdateFeeScript(script, height)`: writes the entry unless one is stored at `height`. -/
def updateFeeScript (db : GovernanceDB) (script : Bytes) (height : Int) : Bool × GovernanceDB :=
  match db.read (feeEntry height) with
  | some (.script _) => (true, db)
  | _ => (true, db.writeBatch [.write (feeEntry height) (.script script)])

/-- `RevertUpdateFeeScript(height)`: erases the entry; false if there is none. -/
def revertUpdateFeeScript (db : GovernanceDB) (height : Int) : Bool × GovernanceDB :=
  match db.read (feeEntry height) with
  | some (.script _) => (true, db.writeBatch [.erase (feeEntry height)])
  | _ => (false, db)

/-! ## What each operation commits -/

theorem freezeScript_eq (db : GovernanceDB) (script : Bytes) :
    freezeScript db script =
      (true, if db.readFlag (freezeEntry script) = some true
        then db.write (freezeEntry script) (.flag true)
        else (db.write (freezeEntry script) (.flag true)).write (tagKey dbNumberFrozen)
          (.number (db.getNumberOfFrozenScripts + 1))) := by
  unfold freezeScript
  rcases h : db.readFlag (freezeEntry script) with _ | _ | _ <;> simp [h, writeNumber]

theorem unfreezeScript_eq (db : GovernanceDB) (script : Bytes) :
    unfreezeScript db script =
      (true, if db.readFlag (freezeEntry script) = some true
        then (db.write (freezeEntry script) (.flag false)).write (tagKey dbNumberFrozen)
          (.number (db.getNumberOfFrozenScripts - 1))
        else db.write (freezeEntry script) (.flag false)) := by
  unfold unfreezeScript
  rcases h : db.readFlag (freezeEntry script) with _ | _ | _ <;> simp [h, writeNumber]

theorem revertFreezeScript_eq (db : GovernanceDB) (script : Bytes) :
    revertFreezeScript db script =
      if db.readFlag (freezeEntry script) = some true
      then (true, (db.write (tagKey dbNumberFrozen) (.number (db.getNumberOfFrozenScripts - 1))).write
        (freezeEntry script) (.flag false))
      else (false, db) := by
  unfold revertFreezeScript
  rcases h : db.readFlag (freezeEntry script) with _ | _ | _ <;> simp [h, writeNumber]

theorem revertUnfreezeScript_eq (db : GovernanceDB) (script : Bytes) :
    revertUnfreezeScript db script =
      if db.readFlag (freezeEntry script) = some false
      then (true, (db.write (tagKey dbNumberFrozen) (.number (db.getNumberOfFrozenScripts + 1))).write
        (freezeEntry script) (.flag true))
      else (false, db) := by
  unfold revertUnfreezeScript
  rcases h : db.readFlag (freezeEntry script) with _ | _ | _ <;> simp [h, writeNumber]

theorem updateCost_eq_of_read_none {db : GovernanceDB} {cost type height : Int}
    (h : db.read (costEntry type height) = none) :
    updateCost db cost type height =
      (isCostType type, if isCostType type
        then db.write (costEntry type height) (.amount cost) else db) := by
  unfold updateCost
  cases isCostType type <;> simp [h]

theorem revertUpdateCost_eq_of_read {db : GovernanceDB} {type height cost : Int}
    (h : db.read (costEntry type height) = some (.amount cost)) :
    revertUpdateCost db type height = (true, db.erase (costEntry type height)) := by
  simp [revertUpdateCost, h]

theorem updateFeeScript_eq_of_read_none {db : GovernanceDB} {script : Bytes} {height : Int}
    (h : db.read (feeEntry height) = none) :
    updateFeeScript db script height = (true, db.write (feeEntry height) (.script script)) := by
  simp [updateFeeScript, h]

theorem revertUpdateFeeScript_eq_of_read {db : GovernanceDB} {height : Int} {script : Bytes}
    (h : db.read (feeEntry height) = some (.script script)) :
    revertUpdateFeeScript db height = (true, db.erase (feeEntry height)) := by
  simp [revertUpdateFeeScript, h]

/-! ## Reading back -/

theorem readFlag_eq_some_iff (db : GovernanceDB) (k : Bytes) (b : Bool) :
    db.readFlag k = some b ↔ db.read k = some (.flag b) := by
  unfold readFlag
  rcases db.read k with _ | ⟨_⟩ | _ | _ | _ <;> simp

theorem getNumberOfFrozenScripts_write_number (db : GovernanceDB) (n : UInt32) :
    getNumberOfFrozenScripts (db.write (tagKey dbNumberFrozen) (.number n)) = n := by
  simp [getNumberOfFrozenScripts, readNumber]

theorem getNumberOfFrozenScripts_write_of_ne (db : GovernanceDB) {k : Bytes} (v : Value)
    (h : tagKey dbNumberFrozen ≠ k) :
    getNumberOfFrozenScripts (db.write k v) = db.getNumberOfFrozenScripts := by
  simp [getNumberOfFrozenScripts, readNumber, Store.read_write_of_ne _ _ h]

theorem getNumberOfFrozenScripts_erase_of_ne (db : GovernanceDB) {k : Bytes}
    (h : tagKey dbNumberFrozen ≠ k) :
    getNumberOfFrozenScripts (db.erase k) = db.getNumberOfFrozenScripts := by
  simp [getNumberOfFrozenScripts, readNumber, Store.read_erase_of_ne _ h]

/-- `CanSend` reads one entry: sendable when it is absent or stored unfrozen. -/
theorem canSend_eq_true_iff (db : GovernanceDB) (script : Bytes) :
    db.canSend script = true ↔
      db.read (freezeEntry script) = none ∨ db.read (freezeEntry script) = some (.flag false) := by
  unfold canSend readFlag Store.exists
  rcases db.read (freezeEntry script) with _ | ⟨_ | _⟩ | _ | _ | _ <;> simp

/-- A freeze entry's key is never the counter's. -/
@[simp] theorem tagKey_ne_freezeEntry (script : Bytes) :
    tagKey dbNumberFrozen ≠ freezeEntry script := by
  simp [tagKey, freezeEntry, dbNumberFrozen, dbAddress]

@[simp] theorem tagKey_ne_costEntry (type height : Int) :
    tagKey dbNumberFrozen ≠ costEntry type height := by
  simp [tagKey, costEntry, dbNumberFrozen, dbCost]

@[simp] theorem tagKey_ne_feeEntry (height : Int) : tagKey dbNumberFrozen ≠ feeEntry height := by
  simp [tagKey, feeEntry, dbNumberFrozen, dbFeeAddress]

end GovernanceDB

end AokChain
