import AgenticSoc.BlackboardStorageInvariant

/-!
# Runs of one replica's store

A run is any sequence of the four transactions and process restarts, each of them
free to fail. A failed transaction rolls back and a restart reopens the same file,
so both leave the tables as they are. The store invariant is kept by each step and
hence holds after every run, with every committed row of an earlier state still in
place.
-/
namespace BlackboardStorage

/-- One operation on the store: any record, operation id and lease clock. -/
inductive StorageOp where
  | prepareInsert (record : StagedRecord) (operationId createdAtUtc : String)
      (nowEpoch leaseSeconds : Rat)
  | commitPromote (recordKey : String) (recordVersion : Nat)
      (recordId operationId committedAtUtc : String)
  | abortPending (recordKey : String) (recordVersion : Nat) (operationId : Option String)
  | upsertCommittedExternal (values : CommittedRow)
  | restart

/-- The tables a successful transaction leaves; a raised error rolls back. -/
def settle {α : Type} (t : Tables) : Except StorageError (Tables × α) → Tables
  | .ok (t', _) => t'
  | .error _ => t

def applyOp (t : Tables) : StorageOp → Tables
  | .prepareInsert r op utc now lease =>
    settle t (prepareInsert t r.recordKey r.recordVersion r.recordId r.contentHash op r utc now lease)
  | .commitPromote k v id op utc => settle t (commitPromote t k v id op utc)
  | .abortPending k v op => settle t (abortPending t k v op)
  | .upsertCommittedExternal row => settle t (upsertCommittedExternal t row)
  | .restart => t

/-- An attempt that fails in the storage layer has no effect. -/
structure Attempt where
  op : StorageOp
  fails : Bool

def attempt (t : Tables) (a : Attempt) : Tables := if a.fails then t else applyOp t a.op

def runAttempts (t : Tables) (as : List Attempt) : Tables := as.foldl attempt t

theorem settle_edit {α : Type} {P : StagedRecord → Prop} {t : Tables}
    {r : Except StorageError (Tables × α)}
    (h : ∀ t' a, r = .ok (t', a) → Edit P t t') : Edit P t (settle t r) := by
  cases r with
  | error e => exact .same
  | ok p => exact h p.1 p.2 rfl

theorem applyOp_edit {t : Tables} (hv : Valid t) (o : StorageOp) :
    Edit (fun _ => True) t (applyOp t o) := by
  cases o with
  | prepareInsert r op utc now lease =>
    apply settle_edit
    intro t' res h
    let row : PendingRow := ⟨r.recordKey, r.recordVersion, r.recordId, r.contentHash, op, r, utc, now⟩
    have heffect : PrepareEffect t row lease t' res := prepareInsert_effect h
    exact heffect.edit ⟨rfl, rfl, rfl⟩ trivial
  | commitPromote k v id op utc =>
    apply settle_edit
    intro t' res h
    exact commitPromote_edit hv h
  | abortPending k v op =>
    apply settle_edit
    intro t' res h
    exact abortPending_edit h
  | upsertCommittedExternal row =>
    apply settle_edit
    intro t' res h
    exact upsertCommittedExternal_edit trivial h
  | restart => exact .same

theorem attempt_edit {t : Tables} (hv : Valid t) (a : Attempt) :
    Edit (fun _ => True) t (attempt t a) := by
  unfold attempt
  by_cases hf : a.fails = true
  · rw [if_pos hf]; exact .same
  · rw [if_neg hf]; exact applyOp_edit hv a.op

theorem valid_runAttempts {t : Tables} (hv : Valid t) (as : List Attempt) :
    Valid (runAttempts t as) := by
  induction as generalizing t with
  | nil => exact hv
  | cons a as ih => exact ih ((attempt_edit hv a).valid hv)

theorem committed_runAttempts {t : Tables} (hv : Valid t) (as : List Attempt) {k : String}
    {v : Nat} {row : CommittedRow} (h : getCommittedRow t k v = some row) :
    getCommittedRow (runAttempts t as) k v = some row := by
  induction as generalizing t with
  | nil => exact h
  | cons a as ih => exact ih ((attempt_edit hv a).valid hv) ((attempt_edit hv a).committed h)

/-! ## Reading the invariant back -/

def committedVersions (t : Tables) (k : String) : List Nat :=
  (t.committedRecords.filter fun r => r.recordKey = k).map fun r => r.recordVersion

/-- The committed versions of a key are exactly one to the head, each once. -/
theorem Valid.committedVersions_perm {t : Tables} (h : Valid t) (k : String) :
    (committedVersions t k).Perm (List.range' 1 (head t k)) := by
  have hnodup : (committedVersions t k).Nodup := by
    unfold committedVersions
    apply List.Nodup.map_on
    · intro a ha b hb hab
      have hka : a.recordKey = k := by simpa using (List.mem_filter.mp ha).2
      have hkb : b.recordKey = k := by simpa using (List.mem_filter.mp hb).2
      exact h.row_unique (List.mem_filter.mp ha).1 (List.mem_filter.mp hb).1
        (hka.trans hkb.symm) hab
    · exact (List.Nodup.of_map _ h.slots).filter _
  refine (List.perm_ext_iff_of_nodup hnodup List.nodup_range').mpr ?_
  intro v
  have hmem : v ∈ committedVersions t k ↔
      ∃ r ∈ t.committedRecords, r.recordKey = k ∧ r.recordVersion = v := by
    simp [committedVersions, and_assoc]
  rw [hmem, h.contiguous k v, List.mem_range'_1]
  omega

theorem Valid.getHeadVersion_eq {t : Tables} (h : Valid t) (k : String) :
    getHeadVersion t k = if head t k = 0 then none else some (head t k) := by
  by_cases hz : head t k = 0
  · rw [if_pos hz, getHeadVersion_eq_none h]
    exact hz
  · rw [if_neg hz]
    unfold head at hz ⊢
    cases hv : getHeadVersion t k with
    | none => simp [hv] at hz
    | some n => rfl

theorem Valid.pending_length {t : Tables} (h : Valid t) (k : String) :
    (t.pendingPrepares.filter fun p => p.recordKey = k).length ≤ 1 := by
  have hn : ((t.pendingPrepares.filter fun p => p.recordKey = k).map PendingRow.recordKey).Nodup :=
    (List.filter_sublist.map _).nodup h.staging
  have hall : ∀ x ∈ (t.pendingPrepares.filter fun p => p.recordKey = k).map PendingRow.recordKey,
      x = k := by
    intro x hx
    obtain ⟨p, hp, rfl⟩ := List.mem_map.mp hx
    simpa using (List.mem_filter.mp hp).2
  have hrep := List.eq_replicate_of_mem hall
  rw [hrep] at hn
  simpa using List.nodup_replicate.mp hn

theorem iterCommittedRows_subset {t : Tables} {start : Option String} {limit offset : Nat}
    {r : CommittedRow} (h : r ∈ iterCommittedRows t start limit offset) :
    r ∈ t.committedRecords := by
  unfold iterCommittedRows at h
  have hs := (List.mem_insertionSort _).mp (List.mem_of_mem_drop (List.mem_of_mem_take h))
  cases start with
  | none => exact hs
  | some p => exact (List.mem_filter.mp hs).1

/-- A staged row's slot holds no committed row. -/
theorem Valid.unstaged_of_mem {t : Tables} (h : Valid t) {p : PendingRow} {r : CommittedRow}
    (hp : p ∈ t.pendingPrepares) (hr : r ∈ t.committedRecords)
    (hk : r.recordKey = p.recordKey) : r.recordVersion ≠ p.recordVersion := by
  have hle := (h.contiguous p.recordKey r.recordVersion).mp ⟨r, hr, hk, rfl⟩
  have hstaged := h.staged p hp
  omega

/-- In every reachable state of a store, and for every key: the committed versions
are one to the stored head, the head row is the row at the head, committed rows
outlive every later run, at most one row is staged and it is staged just above the
head, and no committed read returns the slot of a staged row. -/
theorem reachable_store (as later : List Attempt) (k : String) :
    let t := runAttempts emptyTables as
    (committedVersions t k).Perm (List.range' 1 (head t k)) ∧
    getHeadVersion t k = (if head t k = 0 then none else some (head t k)) ∧
    getHeadRow t k = (if head t k = 0 then none else getCommittedRow t k (head t k)) ∧
    (∀ v row, getCommittedRow t k v = some row →
      getCommittedRow (runAttempts t later) k v = some row) ∧
    (t.pendingPrepares.filter fun p => p.recordKey = k).length ≤ 1 ∧
    (∀ p ∈ t.pendingPrepares, p.recordKey = k → p.recordVersion = head t k + 1 ∧
      getCommittedRow t k p.recordVersion = none ∧
      (∀ row, getHeadRow t k = some row → row.recordVersion ≠ p.recordVersion) ∧
      ∀ start limit offset, ∀ row ∈ iterCommittedRows t start limit offset,
        row.recordKey = k → row.recordVersion ≠ p.recordVersion) := by
  intro t
  have hv : Valid t := valid_runAttempts valid_empty as
  refine ⟨hv.committedVersions_perm k, hv.getHeadVersion_eq k, hv.getHeadRow_eq k, ?_,
    hv.pending_length k, ?_⟩
  · intro v row h
    exact committed_runAttempts hv later h
  · rintro p hp rfl
    have hfree : ∀ r ∈ t.committedRecords, r.recordKey = p.recordKey →
        r.recordVersion ≠ p.recordVersion := fun r hr hk => hv.unstaged_of_mem hp hr hk
    refine ⟨hv.staged p hp, ?_, ?_, ?_⟩
    · rw [getCommittedRow_eq_none]
      rintro r hr ⟨hk, hver⟩
      exact hfree r hr hk hver
    · intro row hrow
      rw [hv.getHeadRow_eq] at hrow
      by_cases hz : head t p.recordKey = 0
      · simp [hz] at hrow
      · rw [if_neg hz] at hrow
        obtain ⟨hm, hk, -⟩ := getCommittedRow_some hrow
        exact hfree row hm hk
    · intro start limit offset row hm hk
      exact hfree row (iterCommittedRows_subset hm) hk

end BlackboardStorage
