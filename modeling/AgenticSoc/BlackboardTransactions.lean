import AgenticSoc.BlackboardStorageInvariant
import AgenticSoc.Interaction

/-!
# Transactions on one connection

The storage operations as the statements that they send, under the context manager that
takes the lock and begins, and commits or rolls back and releases the lock. Without an
injected failure an operation does to the tables what its transaction is said to do.
-/
namespace BlackboardTransactions

open BlackboardRecord BlackboardStorage Interaction

/-! ## Statements -/

inductive Statement where
  | selectHead (recordKey : String)
  | selectPending (recordKey : String) (recordVersion : Nat)
  | selectCommitted (recordKey : String) (recordVersion : Nat)
  | updatePending (recordKey : String) (recordVersion : Nat) (operationId createdAtUtc : String) (nowEpoch : Rat)
  | deletePending (recordKey : String) (recordVersion : Nat) (operationId : Option String)
  | insertPending (row : PendingRow)
  | insertCommitted (row : CommittedRow)
  | setHead (recordKey : String) (headVersion : Nat)

/-- A deletion replies with the number of rows. -/
@[reducible] def Statement.Reply : Statement → Type
  | .selectHead _ => Option Nat
  | .selectPending .. => Option PendingRow
  | .selectCommitted .. => Option CommittedRow
  | .deletePending .. => Nat
  | .updatePending .. | .insertPending _ | .insertCommitted _ | .setHead .. => Unit

@[reducible] def Sql : Interface := ⟨Statement, Statement.Reply⟩

/-- Integers are bound as 64-bit values. -/
def bound {α : Type} (n : Nat) (r : Except StorageError α) : Except StorageError α :=
  if fitsInteger n then r else .error overflowError

def Statement.execute (t : Tables) : (s : Statement) → Except StorageError (Tables × s.Reply)
  | .selectHead k => .ok (t, getHeadVersion t k)
  | .selectPending k v => bound v (.ok (t, getPendingRow t k v))
  | .selectCommitted k v => bound v (.ok (t, getCommittedRow t k v))
  | .updatePending k v op utc now => bound v (.ok (BlackboardStorage.updatePending t k v op utc now, ()))
  | .deletePending k v op =>
    let hit (p : PendingRow) : Bool := inSlot k v p && op.all fun o => p.operationId = o
    bound v (.ok ({ t with pendingPrepares := t.pendingPrepares.filter fun p => !hit p }, t.pendingPrepares.countP hit))
  | .insertPending row =>
    bound row.recordVersion
      (if t.pendingPrepares.any (inSlot row.recordKey row.recordVersion) then
        .error ⟨"IntegrityError: UNIQUE constraint failed: pending_prepares.record_key, pending_prepares.record_version"⟩
      else .ok (BlackboardStorage.insertPending t row, ()))
  | .insertCommitted row => (BlackboardStorage.insertCommitted t row).map fun t' => (t', ())
  | .setHead k v => bound v (.ok (BlackboardStorage.setHead t k v, ()))

def selectHead (k : String) : Prog Sql (Option Nat) := perform (I := Sql) (.selectHead k)
def selectPending (k : String) (v : Nat) : Prog Sql (Option PendingRow) := perform (I := Sql) (.selectPending k v)
def selectCommitted (k : String) (v : Nat) : Prog Sql (Option CommittedRow) := perform (I := Sql) (.selectCommitted k v)
def updatePending (k : String) (v : Nat) (op utc : String) (now : Rat) : Prog Sql Unit :=
  perform (I := Sql) (.updatePending k v op utc now)
def deletePending (k : String) (v : Nat) (op : Option String) : Prog Sql Nat := perform (I := Sql) (.deletePending k v op)
def insertPending (row : PendingRow) : Prog Sql Unit := perform (I := Sql) (.insertPending row)
def insertCommitted (row : CommittedRow) : Prog Sql Unit := perform (I := Sql) (.insertCommitted row)
def setHead (k : String) (v : Nat) : Prog Sql Unit := perform (I := Sql) (.setHead k v)

/-! ## The bodies of the operations -/

def prepareInsertBody (row : PendingRow) (leaseSeconds : Rat) : Prog Sql PrepareResult := do
  let headRow ← selectHead row.recordKey
  let head := headRow.getD 0
  if row.recordVersion ≤ head then return ⟨.rejectStale, some head, none⟩
  else if row.recordVersion ≠ head + 1 then return ⟨.rejectAhead, some head, none⟩
  else do
    let pending ← selectPending row.recordKey row.recordVersion
    match pending with
    | none => do
      insertPending row
      return ⟨.prepared, some head, none⟩
    | some p =>
      if p.recordId = row.recordId then do
        updatePending row.recordKey row.recordVersion row.operationId row.createdAtUtc row.createdEpoch
        return ⟨.prepared, some head, none⟩
      else if leaseSeconds < row.createdEpoch - p.createdEpoch then do
        let _ ← deletePending row.recordKey row.recordVersion none
        insertPending row
        return ⟨.preparedLeaseTakeover, some head, none⟩
      else return ⟨.rejectConflict, some head, some p.operationId⟩

def commitPromoteBody (recordKey : String) (recordVersion : Nat) (recordId operationId committedAtUtc : String) :
    Prog Sql CommitOutcome := do
  let pending ← selectPending recordKey recordVersion
  match pending with
  | none => return .unknownOperation
  | some p =>
    if p.operationId ≠ operationId ∨ p.recordId ≠ recordId then return .unknownOperation
    else do
      let headRow ← selectHead recordKey
      if recordVersion ≠ headRow.getD 0 + 1 then return .refusedNonForward
      else do
        let _ ← deletePending recordKey recordVersion none
        insertCommitted { toStagedRecord := p.recordJson, operationId := operationId, committedAtUtc := committedAtUtc }
        setHead recordKey recordVersion
        return .committed

def abortPendingBody (recordKey : String) (recordVersion : Nat) (operationId : Option String) : Prog Sql Bool := do
  let rowcount ← deletePending recordKey recordVersion operationId
  return decide (0 < rowcount)

def upsertCommittedExternalBody (values : CommittedRow) : Prog Sql UpsertExternalResult := do
  let existing ← selectCommitted values.recordKey values.recordVersion
  match existing with
  | some old =>
    if old.recordId = values.recordId then return ⟨.identical, none⟩
    else return ⟨.refused, some "different content already committed at slot"⟩
  | none => do
    let headRow ← selectHead values.recordKey
    let head := headRow.getD 0
    if values.recordVersion ≠ head + 1 then
      return ⟨.refused, some ("non-forward insert (local head=" ++ Nat.repr head ++ ")")⟩
    else do
      insertCommitted values
      setHead values.recordKey values.recordVersion
      let _ ← deletePending values.recordKey values.recordVersion none
      return ⟨.inserted, none⟩

/-- The operations that run in a transaction, with their arguments. -/
inductive StorageOperation where
  | prepareInsert (row : PendingRow) (leaseSeconds : Rat)
  | commitPromote (recordKey : String) (recordVersion : Nat) (recordId operationId committedAtUtc : String)
  | abortPending (recordKey : String) (recordVersion : Nat) (operationId : Option String)
  | upsertCommittedExternal (values : CommittedRow)

@[reducible] def StorageOperation.Result : StorageOperation → Type
  | .prepareInsert .. => PrepareResult
  | .commitPromote .. => CommitOutcome
  | .abortPending .. => Bool
  | .upsertCommittedExternal _ => UpsertExternalResult

def StorageOperation.body : (o : StorageOperation) → Prog Sql o.Result
  | .prepareInsert row lease => prepareInsertBody row lease
  | .commitPromote k v id op utc => commitPromoteBody k v id op utc
  | .abortPending k v op => abortPendingBody k v op
  | .upsertCommittedExternal values => upsertCommittedExternalBody values

/-- The operation as one transaction on the tables. -/
def StorageOperation.apply (t : Tables) : (o : StorageOperation) → Except StorageError (Tables × o.Result)
  | .prepareInsert row lease => BlackboardStorage.prepareInsert t row.recordKey row.recordVersion row.recordId
      row.contentHash row.operationId row.recordJson row.createdAtUtc row.createdEpoch lease
  | .commitPromote k v id op utc => BlackboardStorage.commitPromote t k v id op utc
  | .abortPending k v op => BlackboardStorage.abortPending t k v op
  | .upsertCommittedExternal values => BlackboardStorage.upsertCommittedExternal t values

/-! ## The context manager -/

/-- A failure that is injected, with its exception. -/
inductive Failure where
  | begin (e : StorageError)
  | statement (n : Nat) (e : StorageError)
  | commit (e : StorageError)
  deriving DecidableEq

def failsAt (failure : Option Failure) (n : Nat) : Option StorageError :=
  match failure with
  | some (.statement m e) => if n = m then some e else none
  | _ => none

/-- The statements in turn, each of which may be made to fail or raise on its own. -/
def runStatements {α : Type} (failure : Option Failure) : Prog Sql α → Nat → Tables → Except StorageError α × Tables
  | .ret a, _, t => (.ok a, t)
  | .call s k, n, t =>
    match failsAt failure n, s.execute t with
    | some e, _ => (.error e, t)
    | none, .error e => (.error e, t)
    | none, .ok (t', reply) => runStatements failure (k reply) (n + 1) t'

/-- The connection of a replica and its lock: the tables of the last commit, those of the open
transaction, and how often the lock is held. -/
structure Connection where
  tables : Tables
  transaction : Option Tables
  lockCount : Nat
  deriving DecidableEq

def Connection.visible (c : Connection) : Tables := c.transaction.getD c.tables

/-- A transaction cannot be begun in another one. -/
def enter (failure : Option Failure) (c : Connection) : Except StorageError Unit × Connection :=
  let c := { c with lockCount := c.lockCount + 1 }
  match failure, c.transaction with
  | some (.begin e), _ => (.error e, c)
  | _, some _ => (.error ⟨"OperationalError: cannot start a transaction within a transaction"⟩, c)
  | _, none => (.ok (), { c with transaction := some c.tables })

def exit {α : Type} (failure : Option Failure) (result : Except StorageError α) (c : Connection) :
    Except StorageError α × Connection :=
  let released := { c with lockCount := c.lockCount - 1 }
  match result, failure with
  | .ok _, some (.commit e) => (.error e, released)
  | .ok a, _ => (.ok a, { released with tables := c.visible, transaction := none })
  | .error e, _ => (.error e, { released with transaction := none })

/-- An exception of the first hook skips the second one. -/
def transact {α : Type} (failure : Option Failure) (body : Prog Sql α) (c : Connection) : Except StorageError α × Connection :=
  match enter failure c with
  | (.error e, c) => (.error e, c)
  | (.ok (), c) =>
    let out := runStatements failure body 0 c.visible
    exit failure out.1 { c with transaction := some out.2 }

def StorageOperation.run (failure : Option Failure) (o : StorageOperation) (c : Connection) :
    Except StorageError o.Result × Connection := transact failure o.body c

/-! ## The statements do what the transactions say -/

section Statements

variable {α β : Type}

/-- The run of a body against the transaction that it stands for. -/
def Matches (out : Except StorageError α × Tables) (applied : Except StorageError (Tables × α)) : Prop :=
  match applied with
  | .ok (t', a) => out = (.ok a, t')
  | .error e => out.1 = .error e

variable {k : String} {v n : Nat} {t : Tables}

theorem run_statement (s : Statement) (f : s.Reply → Prog Sql α) :
    runStatements none (perform (I := Sql) s >>= f) n t =
      match s.execute t with
      | .error e => (.error e, t)
      | .ok (t', reply) => runStatements none (f reply) (n + 1) t' := by
  rw [show (perform (I := Sql) s >>= f) = Prog.call (I := Sql) s f from rfl, runStatements]
  cases s.execute t with
  | error e => rfl
  | ok out => rfl

theorem run_selectHead (f : Option Nat → Prog Sql α) :
    runStatements none (selectHead k >>= f) n t = runStatements none (f (getHeadVersion t k)) (n + 1) t :=
  run_statement (.selectHead k) f

theorem run_selectPending (f : Option PendingRow → Prog Sql α) (hfits : fitsInteger v = true) :
    runStatements none (selectPending k v >>= f) n t = runStatements none (f (getPendingRow t k v)) (n + 1) t := by
  refine (run_statement (.selectPending k v) f).trans ?_
  simp only [Statement.execute, bound, if_pos hfits]

theorem run_selectPending_overflow (f : Option PendingRow → Prog Sql α) (hfits : ¬ fitsInteger v = true) :
    runStatements none (selectPending k v >>= f) n t = (.error overflowError, t) := by
  refine (run_statement (.selectPending k v) f).trans ?_
  simp only [Statement.execute, bound, if_neg hfits]

theorem run_selectCommitted (f : Option CommittedRow → Prog Sql α) (hfits : fitsInteger v = true) :
    runStatements none (selectCommitted k v >>= f) n t = runStatements none (f (getCommittedRow t k v)) (n + 1) t := by
  refine (run_statement (.selectCommitted k v) f).trans ?_
  simp only [Statement.execute, bound, if_pos hfits]

theorem run_selectCommitted_overflow (f : Option CommittedRow → Prog Sql α) (hfits : ¬ fitsInteger v = true) :
    runStatements none (selectCommitted k v >>= f) n t = (.error overflowError, t) := by
  refine (run_statement (.selectCommitted k v) f).trans ?_
  simp only [Statement.execute, bound, if_neg hfits]

theorem run_updatePending (op utc : String) (now : Rat) (f : Unit → Prog Sql α) (hfits : fitsInteger v = true) :
    runStatements none (updatePending k v op utc now >>= f) n t =
      runStatements none (f ()) (n + 1) (BlackboardStorage.updatePending t k v op utc now) := by
  refine (run_statement (.updatePending k v op utc now) f).trans ?_
  simp only [Statement.execute, bound, if_pos hfits]

/-- Without an operation a deletion clears the slot. -/
theorem run_deletePending (f : Nat → Prog Sql α) (hfits : fitsInteger v = true) :
    runStatements none (deletePending k v none >>= f) n t =
      runStatements none (f (t.pendingPrepares.countP (inSlot k v))) (n + 1) (BlackboardStorage.deletePending t k v) := by
  refine (run_statement (.deletePending k v none) f).trans ?_
  simp only [Statement.execute, bound, if_pos hfits, Option.all_none, Bool.and_true]
  rfl

theorem run_insertPending {row : PendingRow} (f : Unit → Prog Sql α) (hfits : fitsInteger row.recordVersion = true)
    (hfree : getPendingRow t row.recordKey row.recordVersion = none) :
    runStatements none (insertPending row >>= f) n t =
      runStatements none (f ()) (n + 1) (BlackboardStorage.insertPending t row) := by
  refine (run_statement (.insertPending row) f).trans ?_
  have hnone : ¬ (t.pendingPrepares.any (inSlot row.recordKey row.recordVersion)) = true := by
    rw [List.any_eq_true]
    rintro ⟨p, hp, hin⟩
    rw [(getPendingRow_eq_none).mp hfree p hp] at hin
    cases hin
  simp only [Statement.execute, bound, if_pos hfits, if_neg hnone]

theorem run_insertCommitted {row : CommittedRow} (f : Unit → Prog Sql α) :
    runStatements none (insertCommitted row >>= f) n t =
      match BlackboardStorage.insertCommitted t row with
      | .error e => (.error e, t)
      | .ok t' => runStatements none (f ()) (n + 1) t' := by
  refine (run_statement (.insertCommitted row) f).trans ?_
  simp only [Statement.execute]
  cases BlackboardStorage.insertCommitted t row <;> rfl

theorem run_setHead (f : Unit → Prog Sql α) (hfits : fitsInteger v = true) :
    runStatements none (setHead k v >>= f) n t =
      runStatements none (f ()) (n + 1) (BlackboardStorage.setHead t k v) := by
  refine (run_statement (.setHead k v) f).trans ?_
  simp only [Statement.execute, bound, if_pos hfits]

theorem prepareInsert_matches (row : PendingRow) (lease : Rat) (n : Nat) (t : Tables) :
    Matches (runStatements none (prepareInsertBody row lease) n t) (StorageOperation.apply t (.prepareInsert row lease)) := by
  unfold prepareInsertBody StorageOperation.apply BlackboardStorage.prepareInsert
  rw [run_selectHead]
  dsimp only
  by_cases hstale : row.recordVersion ≤ (getHeadVersion t row.recordKey).getD 0
  · rw [if_pos hstale, if_pos (show _ ≤ head t row.recordKey from hstale)]
    rfl
  rw [if_neg hstale, if_neg (show ¬ _ ≤ head t row.recordKey from hstale)]
  by_cases hnext : row.recordVersion ≠ (getHeadVersion t row.recordKey).getD 0 + 1
  · rw [if_pos hnext, if_pos (show _ ≠ head t row.recordKey + 1 from hnext)]
    rfl
  rw [if_neg hnext, if_neg (show ¬ _ ≠ head t row.recordKey + 1 from hnext)]
  by_cases hfits : fitsInteger row.recordVersion = true
  swap
  · rw [run_selectPending_overflow _ hfits, if_pos (by simpa using hfits)]
    rfl
  rw [run_selectPending _ hfits, if_neg (by simpa using hfits)]
  cases hp : getPendingRow t row.recordKey row.recordVersion with
  | none =>
    simp only
    rw [run_insertPending _ hfits hp]
    rfl
  | some p =>
    simp only
    by_cases hid : p.recordId = row.recordId
    · rw [if_pos hid, if_pos hid, run_updatePending _ _ _ _ hfits]
      rfl
    rw [if_neg hid, if_neg hid]
    by_cases hlease : lease < row.createdEpoch - p.createdEpoch
    · rw [if_pos hlease, if_pos hlease, run_deletePending _ hfits, run_insertPending _ hfits]
      · rfl
      · rw [getPendingRow_eq_none]
        intro q hq
        simpa using (List.mem_filter.mp hq).2
    · rw [if_neg hlease, if_neg hlease]
      rfl

theorem commitPromote_matches (k : String) (v : Nat) (id op utc : String) (n : Nat) (t : Tables) :
    Matches (runStatements none (commitPromoteBody k v id op utc) n t)
      (StorageOperation.apply t (.commitPromote k v id op utc)) := by
  unfold commitPromoteBody StorageOperation.apply BlackboardStorage.commitPromote
  dsimp only
  by_cases hfits : fitsInteger v = true
  swap
  · rw [run_selectPending_overflow _ hfits, if_pos (by simpa using hfits)]
    rfl
  rw [run_selectPending _ hfits, if_neg (by simpa using hfits)]
  cases hp : getPendingRow t k v with
  | none => rfl
  | some p =>
    simp only
    by_cases hother : p.operationId ≠ op ∨ p.recordId ≠ id
    · rw [if_pos hother, if_pos hother]
      rfl
    rw [if_neg hother, if_neg hother, run_selectHead]
    by_cases hnext : v ≠ (getHeadVersion t k).getD 0 + 1
    · rw [if_pos hnext, if_pos (show _ ≠ head t k + 1 from hnext)]
      rfl
    rw [if_neg hnext, if_neg (show ¬ _ ≠ head t k + 1 from hnext), run_deletePending _ hfits, run_insertCommitted]
    cases BlackboardStorage.insertCommitted (BlackboardStorage.deletePending t k v)
      { toStagedRecord := p.recordJson, operationId := op, committedAtUtc := utc } with
    | error e => rfl
    | ok t' =>
      simp only
      rw [run_setHead _ hfits]
      rfl

theorem abortPending_matches (k : String) (v : Nat) (op : Option String) (n : Nat) (t : Tables) :
    Matches (runStatements none (abortPendingBody k v op) n t) (StorageOperation.apply t (.abortPending k v op)) := by
  unfold abortPendingBody StorageOperation.apply BlackboardStorage.abortPending
  dsimp only
  rw [deletePending, run_statement]
  by_cases hfits : fitsInteger v = true
  · simp only [Statement.execute, bound, if_pos hfits]
    rw [if_neg (by simpa using hfits)]
    have hany : decide (0 < t.pendingPrepares.countP fun p => inSlot k v p && op.all fun o => p.operationId = o) =
        t.pendingPrepares.any fun p => inSlot k v p && op.all fun o => p.operationId = o := by
      rw [Bool.eq_iff_iff, decide_eq_true_iff, List.countP_pos_iff, List.any_eq_true]
    exact congrArg (fun b => ((Except.ok b : Except StorageError Bool), _)) hany
  · simp only [Statement.execute, bound, if_neg hfits]
    rw [if_pos (by simpa using hfits)]
    rfl

theorem upsertCommittedExternal_matches (values : CommittedRow) (n : Nat) (t : Tables) :
    Matches (runStatements none (upsertCommittedExternalBody values) n t)
      (StorageOperation.apply t (.upsertCommittedExternal values)) := by
  unfold upsertCommittedExternalBody StorageOperation.apply BlackboardStorage.upsertCommittedExternal
  dsimp only
  by_cases hfits : fitsInteger values.recordVersion = true
  swap
  · rw [run_selectCommitted_overflow _ hfits, if_pos (by simpa using hfits)]
    rfl
  rw [run_selectCommitted _ hfits, if_neg (by simpa using hfits)]
  cases hc : getCommittedRow t values.recordKey values.recordVersion with
  | some old =>
    simp only
    by_cases hid : old.recordId = values.recordId
    · rw [if_pos hid, if_pos hid]
      rfl
    · rw [if_neg hid, if_neg hid]
      rfl
  | none =>
    simp only
    rw [run_selectHead]
    by_cases hnext : values.recordVersion ≠ (getHeadVersion t values.recordKey).getD 0 + 1
    · rw [if_pos hnext, if_pos (show _ ≠ head t values.recordKey + 1 from hnext)]
      rfl
    rw [if_neg hnext, if_neg (show ¬ _ ≠ head t values.recordKey + 1 from hnext), run_insertCommitted]
    cases BlackboardStorage.insertCommitted t values with
    | error e => rfl
    | ok t' =>
      simp only
      rw [run_setHead _ hfits, run_deletePending _ hfits]
      rfl

theorem body_matches (o : StorageOperation) (t : Tables) :
    Matches (runStatements none o.body 0 t) (o.apply t) := by
  cases o with
  | prepareInsert row lease => exact prepareInsert_matches row lease 0 t
  | commitPromote k v id op utc => exact commitPromote_matches k v id op utc 0 t
  | abortPending k v op => exact abortPending_matches k v op 0 t
  | upsertCommittedExternal values => exact upsertCommittedExternal_matches values 0 t

end Statements

/-! ## Cleaning up -/

/-- The connection after a failed operation is as if the operation had not been attempted. -/
structure CleanedUp (c c' : Connection) : Prop where
  lock : c'.lockCount = c.lockCount
  closed : c'.transaction = none
  tables : c'.tables = c.tables
  following : ∀ (o : StorageOperation) (failure : Option Failure), o.run failure c' = o.run failure c

/-- BEGIN is reached with no transaction open and is not made to fail. -/
def Begins (failure : Option Failure) (c : Connection) : Prop := c.transaction = none ∧ ∀ e, failure ≠ some (.begin e)

section CleaningUp

variable {α : Type} {failure : Option Failure} {body : Prog Sql α} {c : Connection}

theorem enter_begins (hbegins : Begins failure c) :
    enter failure c = (.ok (), { c with transaction := some c.tables, lockCount := c.lockCount + 1 }) := by
  obtain ⟨hnone, hbegin⟩ := hbegins
  unfold enter
  cases failure with
  | none => simp only [hnone]
  | some fault =>
    cases fault with
    | begin e => exact absurd rfl (hbegin e)
    | statement n e => simp only [hnone]
    | commit e => simp only [hnone]

/-- A BEGIN that raises keeps the lock. -/
theorem transact_not_begins (hbegins : ¬ Begins failure c) :
    ∃ e, transact failure body c = (.error e, { c with lockCount := c.lockCount + 1 }) := by
  have hraise : ∃ e, enter failure c = (.error e, { c with lockCount := c.lockCount + 1 }) := by
    unfold enter
    cases failure with
    | none =>
      cases htx : c.transaction with
      | none => exact absurd ⟨htx, nofun⟩ hbegins
      | some t => exact ⟨_, rfl⟩
    | some fault =>
      cases fault with
      | begin e => exact ⟨e, rfl⟩
      | statement n e =>
        cases htx : c.transaction with
        | none => exact absurd ⟨htx, nofun⟩ hbegins
        | some t => exact ⟨_, rfl⟩
      | commit e =>
        cases htx : c.transaction with
        | none => exact absurd ⟨htx, nofun⟩ hbegins
        | some t => exact ⟨_, rfl⟩
  obtain ⟨e, he⟩ := hraise
  exact ⟨e, by simp only [transact, he]⟩

/-- Once BEGIN has succeeded the body runs on the tables and the second hook is reached. -/
theorem transact_begins (hbegins : Begins failure c) :
    transact failure body c = exit failure (runStatements failure body 0 c.tables).1
      { c with transaction := some (runStatements failure body 0 c.tables).2, lockCount := c.lockCount + 1 } := by
  simp only [transact, enter_begins hbegins]
  rfl

theorem exit_error {e : StorageError} (htx : c.transaction = none) (t : Tables) :
    exit failure (Except.error e : Except StorageError α)
      { c with transaction := some t, lockCount := c.lockCount + 1 } = (.error e, c) := by
  cases c with
  | mk tables tx count =>
    cases htx
    rfl

/-- A COMMIT that is made to fail is no statement of the body. -/
theorem runStatements_commit (e : StorageError) (body : Prog Sql α) (n : Nat) (t : Tables) :
    runStatements (some (.commit e)) body n t = runStatements none body n t := by
  induction body generalizing n t with
  | ret a => rfl
  | call s k ih =>
    unfold runStatements
    cases s.execute t with
    | error e' => rfl
    | ok out => exact ih out.2 (n + 1) out.1

theorem CleanedUp.refl (c : Connection) (htx : c.transaction = none) : CleanedUp c c where
  lock := rfl
  closed := htx
  tables := rfl
  following := fun _ _ => rfl

end CleaningUp

section Operations

variable {o : StorageOperation} {failure : Option Failure} {c c' : Connection} {e : StorageError}

/-- Without a failure the operation is its transaction, and COMMIT installs the tables. -/
theorem run_succeeds (htx : c.transaction = none) {t : Tables} {a : o.Result} (happly : o.apply c.tables = .ok (t, a)) :
    o.run none c = (.ok a, { c with tables := t }) := by
  have hbody := body_matches o c.tables
  rw [happly] at hbody
  have hbegins : Begins none c := ⟨htx, nofun⟩
  rw [StorageOperation.run, transact_begins hbegins, show runStatements none o.body 0 c.tables = (.ok a, t) from hbody]
  cases c with
  | mk tables tx count =>
    cases htx
    rfl

/-- A body that raises is rolled back, whatever the failure. -/
theorem run_rolled_back (hbegins : Begins failure c)
    (hraised : (runStatements failure o.body 0 c.tables).1 = .error e) : o.run failure c = (.error e, c) := by
  rw [StorageOperation.run, transact_begins hbegins, hraised]
  exact exit_error hbegins.1 _

/-- A COMMIT that fails leaves the transaction open and releases the lock. -/
theorem run_commit_fails (hbegins : Begins (some (.commit e)) c) {t : Tables} {a : o.Result}
    (happly : o.apply c.tables = .ok (t, a)) : o.run (some (.commit e)) c = (.error e, { c with transaction := some t }) := by
  have hbody := body_matches o c.tables
  rw [happly] at hbody
  rw [StorageOperation.run, transact_begins hbegins, runStatements_commit,
    show runStatements none o.body 0 c.tables = (.ok a, t) from hbody]
  rfl

/-- The failures after which everything is as before: BEGIN succeeded, and if COMMIT was to fail it was not reached. -/
theorem failed_operation_cleaned_up_iff (hrun : o.run failure c = (.error e, c')) :
    CleanedUp c c' ↔
      Begins failure c ∧ ((∃ e', failure = some (.commit e')) → ∃ e', o.apply c.tables = .error e') := by
  by_cases hbegins : Begins failure c
  swap
  · have hraise : ∃ e', o.run failure c = (.error e', { c with lockCount := c.lockCount + 1 }) :=
      transact_not_begins hbegins
    obtain ⟨e', he'⟩ := hraise
    have hc' : c' = { c with lockCount := c.lockCount + 1 } := congrArg Prod.snd (hrun.symm.trans he')
    constructor
    · intro hclean
      have hlock := hclean.lock
      rw [hc'] at hlock
      exact absurd hlock (Nat.succ_ne_self c.lockCount)
    · intro h
      exact absurd h.1 hbegins
  have hrolled : ∀ e', (runStatements failure o.body 0 c.tables).1 = .error e' → CleanedUp c c' := by
    intro e' hraised
    have hc' : c' = c := congrArg Prod.snd (hrun.symm.trans (run_rolled_back hbegins hraised))
    rw [hc']
    exact CleanedUp.refl c hbegins.1
  by_cases hcommit : ∃ e', failure = some (.commit e')
  · obtain ⟨e', rfl⟩ := hcommit
    cases happly : o.apply c.tables with
    | error e'' =>
      have hbody := body_matches o c.tables
      rw [happly] at hbody
      have hraised : (runStatements (some (.commit e')) o.body 0 c.tables).1 = .error e'' := by
        rw [runStatements_commit]
        exact hbody
      exact iff_of_true (hrolled e'' hraised) ⟨hbegins, fun _ => ⟨e'', rfl⟩⟩
    | ok out =>
      have hc' : c' = { c with transaction := some out.1 } :=
        congrArg Prod.snd (hrun.symm.trans (run_commit_fails hbegins happly))
      constructor
      · intro hclean
        have hopen := hclean.closed
        rw [hc'] at hopen
        cases hopen
      · rintro ⟨-, hraises⟩
        obtain ⟨e'', he''⟩ := hraises ⟨e', rfl⟩
        cases he''
  · refine iff_of_true ?_ ⟨hbegins, fun h => absurd h hcommit⟩
    cases hbody : (runStatements failure o.body 0 c.tables).1 with
    | error e' => exact hrolled e' hbody
    | ok a =>
      rw [StorageOperation.run, transact_begins hbegins, hbody] at hrun
      unfold exit at hrun
      split at hrun
      · exact absurd ⟨_, rfl⟩ hcommit
      · cases hrun
      · rename_i hresult
        cases hresult

end Operations

def fresh : Connection := ⟨⟨[], [], []⟩, none, 0⟩

def diskError : StorageError := ⟨"OperationalError: disk I/O error"⟩

def clearSlot : StorageOperation := .abortPending "device/b1/score" 1 none

theorem failed_deletion_cleaned_up :
    clearSlot.run (some (.statement 0 diskError)) fresh = (.error diskError, fresh) ∧
    (CleanedUp fresh fresh ↔ Begins (some (.statement 0 diskError)) fresh ∧
      ((∃ e', some (Failure.statement 0 diskError) = some (.commit e')) →
        ∃ e', clearSlot.apply fresh.tables = .error e')) :=
  ⟨rfl, failed_operation_cleaned_up_iff (o := clearSlot) (e := diskError) rfl⟩

/-- After a failed BEGIN the lock is held for ever, after a failed COMMIT no transaction begins. -/
theorem failed_begin_or_commit_remains :
    (clearSlot.run (some (.begin diskError)) fresh = (.error diskError, { fresh with lockCount := 1 }) ∧
      ¬ CleanedUp fresh { fresh with lockCount := 1 }) ∧
    ∃ c', clearSlot.run (some (.commit diskError)) fresh = (.error diskError, c') ∧ ¬ CleanedUp fresh c' ∧
      clearSlot.run none c' = (.error ⟨"OperationalError: cannot start a transaction within a transaction"⟩,
        { c' with lockCount := 1 }) := by
  refine ⟨⟨rfl, ?_⟩, { fresh with transaction := some fresh.tables }, rfl, ?_, rfl⟩
  · intro hclean
    exact absurd hclean.lock (by decide)
  · intro hclean
    exact absurd hclean.closed nofun

end BlackboardTransactions
