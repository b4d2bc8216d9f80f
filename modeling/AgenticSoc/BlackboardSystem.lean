import AgenticSoc.BlackboardCoordinator
import AgenticSoc.Interleaving

/-!
# Coordinators over shared replicas

The world is the three replica stores, shared by every process, and the replica
objects of each process with their health. Any number of coordinators run their
commands in it; a step is one replica call. Operators switch replicas off and on,
mark and clear divergence, and restart a process: the restart kills its calls and
makes new replica objects over the same stores.
-/
namespace BlackboardSystem

open BlackboardRecord BlackboardStorage BlackboardReplica BlackboardCoordinator
open Interaction Interleaving

/-- The record codec and the replica settings of each process. -/
structure System (V : Type) where
  codec : RecordCodec V
  settings : Nat → ReplicaId → ReplicaSettings

structure World {V : Type} (cd : RecordCodec V) where
  store : ReplicaId → ReplicaDatabase cd
  status : Nat → ReplicaId → ReplicaStatus

inductive Command (V : Type) where
  | propose (proposal : Proposal V) (principal : String)
  | read (principal recordKey : String) (recordVersion : Option Nat)
  | resync (principal recordKey : String) (replicaIds : Option (List ReplicaId))

structure Request (V : Type) where
  coordinator : Coordinator
  operationId : String
  command : Command V

inductive Result (V : Type) where
  | write (result : Except String WriteResultV1)
  | read (result : ReadResultV1 V)
  | resync (report : ResyncReport)

inductive Operation where
  | setUnavailable (site : Nat) (ρ : ReplicaId) (reason : String)
  | setAvailable (site : Nat) (ρ : ReplicaId)
  | markDiverged (site : Nat) (ρ : ReplicaId) (detail : String)
  | clearDivergence (site : Nat) (ρ : ReplicaId)
  | restart (site : Nat)
  deriving DecidableEq, Repr

variable {V : Type}

/-! ## One call -/

section Calls

variable {cd : RecordCodec V}

/-- Run a transaction of one replica's store. -/
def World.onStore {α : Type} (w : World cd) (ρ : ReplicaId) (f : Tables → Tables × α)
    (h : ∀ t, Valid t → Edit (Genuine cd) t (f t).1) : World cd × α :=
  let db := w.store ρ
  let out := f db.tables
  let edit : Edit (Genuine cd) db.tables out.1 := h db.tables db.valid
  let db' : ReplicaDatabase cd := ⟨out.1, edit.valid db.valid, edit.sourced db.genuine⟩
  ({ w with store := fun ρ' => if ρ' = ρ then db' else w.store ρ' }, out.2)

/-- Change the status of one replica object. -/
def World.onStatus (w : World cd) (site : Nat) (ρ : ReplicaId)
    (f : ReplicaStatus → ReplicaStatus) : World cd :=
  { w with status := fun s ρ' =>
      if s = site ∧ ρ' = ρ then f (w.status site ρ) else w.status s ρ' }

/-- One replica's answer to a read. -/
def observeReplica (cd : RecordCodec V) (ρ : ReplicaId) (st : ReplicaStatus) (e : Env V)
    (recordKey : String) (recordVersion : Option Nat) (t : Tables) : Observation V :=
  let silent (detail : String) : Observation V := ⟨ρ, false, false, none, none, none, some detail⟩
  if st.health = .unavailable then silent (textOr st.unavailableReason "marked unavailable")
  else match committedRow e recordKey recordVersion t with
  | .error err => silent err.message
  | .ok none => ⟨ρ, true, false, none, none, none, none⟩
  | .ok (some row) =>
    match rowToRecord cd row with
    | .error m =>
      ⟨ρ, true, false, none, none, none,
        some ("integrity: stored record failed verification (" ++ m ++ ")")⟩
    | .ok r => ⟨ρ, true, true, some r.recordVersion, some r.contentHash, some r, none⟩

theorem prepare_genuine (cfg : ReplicaSettings) (ρ : ReplicaId) (st : ReplicaStatus) (e : Env V)
    (operationId : String) (record : BlackboardRecordV1 V) (t : Tables) :
    Edit (Genuine cd) t (prepare cd ρ st e cfg operationId record t).1 :=
  (prepare_edit cd ρ st e t cfg operationId record).mono
    (fun _ ⟨r, _, hv, hs⟩ => ⟨r, hv, hs⟩)

theorem upsert_genuine (ρ : ReplicaId) (st : ReplicaStatus) (e : Env V)
    (operationId : String) (record : BlackboardRecordV1 V) (t : Tables) :
    Edit (Genuine cd) t (upsertExternal cd ρ st e operationId record t).1 :=
  (upsertExternal_edit cd ρ st e t operationId record).mono
    (fun _ ⟨hv, hs⟩ => ⟨record, hv, hs⟩)

end Calls

variable (S : System V)

/-- One call made from a process. -/
def exec (site : Nat) : (c : Call V) → Env V → World S.codec → World S.codec × c.Reply
  | .prepare ρ op r, e, w =>
    w.onStore ρ (prepare S.codec ρ (w.status site ρ) e (S.settings site ρ) op r)
      (fun t _ => prepare_genuine _ ρ _ e op r t)
  | .commit ρ op r, e, w =>
    w.onStore ρ (commit ρ (w.status site ρ) e op r)
      (fun _ ht => (commit_edit ρ _ e ht op r).mono (fun _ hf => hf.elim))
  | .abort ρ op k v, e, w =>
    w.onStore ρ (abort ρ (w.status site ρ) e op k v)
      (fun t _ => (abort_edit ρ _ e t op k v).mono (fun _ hf => hf.elim))
  | .upsertExternal ρ op r, e, w =>
    w.onStore ρ (upsertExternal S.codec ρ (w.status site ρ) e op r)
      (fun t _ => upsert_genuine ρ _ e op r t)
  | .observe ρ k v, e, w =>
    (w, observeReplica S.codec ρ (w.status site ρ) e k v (w.store ρ).tables)
  | .headRow ρ k, e, w => (w, committedRow e k none (w.store ρ).tables)
  | .health ρ, _, w => (w, (w.status site ρ).health)
  | .markDiverged ρ detail, _, w =>
    (w.onStatus site ρ (markDiverged (S.settings site ρ).divergenceHistoryLimit detail), ())
  | .clearDivergence ρ, _, w => (w.onStatus site ρ clearDivergence, ())

/-! ## The machine -/

def program (t : Request V) : Prog (Blackboard V) (Result V) :=
  match t.command with
  | .propose proposal principal => do
    let r ← propose S.codec t.coordinator t.operationId proposal principal
    return .write r
  | .read principal recordKey recordVersion => do
    let r ← read t.coordinator t.operationId principal recordKey recordVersion
    return .read r
  | .resync principal recordKey replicaIds => do
    let r ← resyncReplicasFromMajority t.coordinator t.operationId principal recordKey replicaIds
    return .resync r

def operate (o : Operation) (w : World S.codec) : World S.codec :=
  match o with
  | .setUnavailable site ρ reason => w.onStatus site ρ (setUnavailable reason)
  | .setAvailable site ρ => w.onStatus site ρ setAvailable
  | .markDiverged site ρ detail =>
    w.onStatus site ρ (markDiverged (S.settings site ρ).divergenceHistoryLimit detail)
  | .clearDivergence site ρ => w.onStatus site ρ clearDivergence
  | .restart site =>
    { w with status := fun s ρ => if s = site then newStatus else w.status s ρ }

def isPropose (t : Request V) : Bool :=
  match t.command with
  | .propose .. => true
  | _ => false

/-- Writes of one coordinator exclude each other; a restart kills the calls of its
process. -/
def machine : Machine (Blackboard V) (World S.codec) (Env V) (Request V) (Result V) Operation where
  exec t := exec S t.coordinator.site
  program := program S
  operate := operate S
  kills o t := match o with
    | .restart site => t.coordinator.site = site
    | _ => false
  excludes t u := isPropose t && isPropose u && t.coordinator.name = u.coordinator.name

/-- Fresh stores, and every process with new replica objects. -/
def initial : World S.codec := ⟨fun _ => emptyDatabase S.codec, fun _ _ => newStatus⟩

abbrev LogEvent (V : Type) := Event (Blackboard V) (Request V) (Result V) Operation
abbrev Trace (V : Type) := List (LogEvent V)
abbrev State := Shared (Blackboard V) (World S.codec) (Request V) (Result V) Operation
abbrev Configuration := Config (Blackboard V) (World S.codec) (Request V) (Result V) Operation
abbrev Step (V : Type) := Action (Env V) (Request V) Operation

/-- The configuration a list of steps leads to from fresh stores. -/
def Reaches (as : List (Step V)) (c : Configuration S) : Prop :=
  (machine S).run (Machine.init (initial S)) as = some c

/-- The event of a call that got this reply. -/
abbrev madeCall (i : Nat) (q : Call V) (a : q.Reply) : LogEvent V := .called i q a

/-- The record a task proposes, if it proposes one that can be built. -/
def proposedRecord (t : Request V) : Option (BlackboardRecordV1 V) :=
  match t.command with
  | .propose proposal _ =>
    (proposal.build S.codec t.coordinator.settings.maxRecordCanonicalBytes).toOption
  | _ => none

/-! ## What a call does -/

section Effects

theorem onStore_tables {cd : RecordCodec V} {α : Type} (w : World cd) (ρ ρ' : ReplicaId)
    (f : Tables → Tables × α) (h : ∀ t, Valid t → Edit (Genuine cd) t (f t).1) :
    ((w.onStore ρ f h).1.store ρ').tables =
      if ρ' = ρ then (f (w.store ρ).tables).1 else (w.store ρ').tables := by
  unfold World.onStore
  by_cases hρ : ρ' = ρ <;> simp [hρ]

/-- The records a call may bring into a store. -/
def brings (cd : RecordCodec V) (c : Call V) (e : Env V) (s : StagedRecord) : Prop :=
  match c with
  | .prepare _ _ r => ∃ r', Passes e r r' ∧ Verified cd r' ∧ s = fullRecordJson cd r'
  | .upsertExternal _ _ r => Verified cd r ∧ s = fullRecordJson cd r
  | _ => False

variable {S} (site : Nat) (c : Call V) (e : Env V) (w : World S.codec) (ρ : ReplicaId)

theorem exec_edit : Edit (brings S.codec c e) (w.store ρ).tables
    ((exec S site c e w).1.store ρ).tables := by
  cases c with
  | prepare ρ' op r =>
    simp only [exec, onStore_tables]
    by_cases hρ : ρ = ρ'
    · subst hρ
      simp only [if_true]
      exact prepare_edit S.codec ρ _ e _ _ op r
    · simp only [hρ, if_false]; exact .same
  | commit ρ' op r =>
    simp only [exec, onStore_tables]
    by_cases hρ : ρ = ρ'
    · subst hρ
      simp only [if_true]
      exact commit_edit ρ _ e (w.store ρ).valid op r
    · simp only [hρ, if_false]; exact .same
  | abort ρ' op k v =>
    simp only [exec, onStore_tables]
    by_cases hρ : ρ = ρ'
    · subst hρ
      simp only [if_true]
      exact abort_edit ρ _ e _ op k v
    · simp only [hρ, if_false]; exact .same
  | upsertExternal ρ' op r =>
    simp only [exec, onStore_tables]
    by_cases hρ : ρ = ρ'
    · subst hρ
      simp only [if_true]
      exact upsertExternal_edit S.codec ρ _ e _ op r
    · simp only [hρ, if_false]; exact .same
  | observe ρ' k v => exact .same
  | headRow ρ' k => exact .same
  | health ρ' => exact .same
  | markDiverged ρ' d => exact .same
  | clearDivergence ρ' => exact .same

/-- No call changes or removes a committed row. -/
theorem exec_committed {k : String} {v : Nat} {row : CommittedRow}
    (h : getCommittedRow (w.store ρ).tables k v = some row) :
    getCommittedRow ((exec S site c e w).1.store ρ).tables k v = some row :=
  (exec_edit site c e w ρ).committed h

theorem operate_store (o : Operation) : (operate S o w).store = w.store := by
  cases o <;> rfl

/-- Only the two divergence calls write the status of a replica object. -/
theorem exec_status (s : Nat) :
    (exec S site c e w).1.status s ρ =
      match c with
      | .markDiverged σ detail => if s = site ∧ ρ = σ then
          markDiverged (S.settings site σ).divergenceHistoryLimit detail (w.status site σ)
        else w.status s ρ
      | .clearDivergence σ =>
        if s = site ∧ ρ = σ then clearDivergence (w.status site σ) else w.status s ρ
      | _ => w.status s ρ := by
  cases c <;> rfl

/-- A prepare, an abort and the calls that only look leave every committed row and
every head where they are. -/
theorem prepare_rows (op : String) (r : BlackboardRecordV1 V) (ρ' : ReplicaId) (k : String) (v : Nat) :
    getCommittedRow ((exec S site (.prepare ρ' op r) e w).1.store ρ).tables k v =
      getCommittedRow (w.store ρ).tables k v := by
  simp only [exec, onStore_tables]
  by_cases hρ : ρ = ρ'
  · subst hρ
    simp only [if_true]
    rcases prepare_effect S.codec ρ (w.status site ρ) e (w.store ρ).tables (S.settings site ρ) op r with
      ⟨-, h⟩ | ⟨-, staged, -, -, -, res, heffect, -⟩
    · rw [h]
    · unfold getCommittedRow
      rw [heffect.frame.1]
  · simp only [hρ, if_false]

theorem abort_rows (op k' : String) (v' : Nat) (ρ' : ReplicaId) (k : String) (v : Nat) :
    getCommittedRow ((exec S site (.abort ρ' op k' v') e w).1.store ρ).tables k v =
      getCommittedRow (w.store ρ).tables k v := by
  simp only [exec, onStore_tables]
  by_cases hρ : ρ = ρ'
  · subst hρ
    simp only [if_true]
    rcases abort_effect ρ (w.status site ρ) e (w.store ρ).tables op k' v' with ⟨-, h⟩ | ⟨-, h⟩
    · rw [h]
    · rw [h]; rfl
  · simp only [hρ, if_false]

/-- The row staged under a record's slot, promoted, is a row of that slot. -/
theorem promoted_slot (db : ReplicaDatabase S.codec) {k op utc : String} {v : Nat} {p : PendingRow}
    (hp : getPendingRow db.tables k v = some p) (hnext : v = head db.tables k + 1) (k' : String)
    (v' : Nat) :
    getCommittedRow (promoteRow db.tables k v
        { p.recordJson with operationId := op, committedAtUtc := utc }) k' v' =
      if k = k' ∧ v = v' then some { p.recordJson with operationId := op, committedAtUtc := utc }
      else getCommittedRow db.tables k' v' := by
  obtain ⟨hm, hk, hv⟩ := getPendingRow_some hp
  obtain ⟨hjk, hjv, -⟩ := db.valid.json p hm
  have hkey : p.recordJson.recordKey = k := hjk.trans hk
  have hversion : p.recordJson.recordVersion = v := hjv.trans hv
  subst hkey hversion
  exact db.valid.getCommittedRow_promoteRow
    { p.recordJson with operationId := op, committedAtUtc := utc } hnext k' v'

/-- A repaired record is a row of its slot. -/
theorem repaired_slot (db : ReplicaDatabase S.codec) {r : BlackboardRecordV1 V} {op utc : String}
    (hnext : r.recordVersion = head db.tables r.recordKey + 1) (k : String) (v : Nat) :
    getCommittedRow (promoteRow db.tables r.recordKey r.recordVersion
        (recordToStorageValues S.codec r op utc)) k v =
      if r.recordKey = k ∧ r.recordVersion = v then some (recordToStorageValues S.codec r op utc)
      else getCommittedRow db.tables k v :=
  db.valid.getCommittedRow_promoteRow (recordToStorageValues S.codec r op utc) hnext k v

/-- Where a committed row may come from: it was there, or the call is an
acknowledged commit or repair of that slot which brought it. -/
theorem exec_rows {k : String} {v : Nat} {row : CommittedRow}
    (h : getCommittedRow ((exec S site c e w).1.store ρ).tables k v = some row) :
    getCommittedRow (w.store ρ).tables k v = some row ∨
    (∃ op r ack, (⟨c, (exec S site c e w).2⟩ : Sigma (Blackboard V).Reply) = ⟨.commit ρ op r, ack⟩ ∧
      ack.ackStatus = .ackCommitted ∧ r.recordKey = k ∧ r.recordVersion = v ∧
      row.recordId = r.recordId) ∨
    (∃ op r ack, (⟨c, (exec S site c e w).2⟩ : Sigma (Blackboard V).Reply) =
        ⟨.upsertExternal ρ op r, ack⟩ ∧ ack.ackStatus = .ackCommitted ∧ r.recordKey = k ∧
      r.recordVersion = v ∧ row.recordId = r.recordId) := by
  cases c with
  | prepare ρ' op r => rw [prepare_rows] at h; exact .inl h
  | abort ρ' op k' v' => rw [abort_rows] at h; exact .inl h
  | observe ρ' k' v' => exact .inl h
  | headRow ρ' k' => exact .inl h
  | health ρ' => exact .inl h
  | markDiverged ρ' d => exact .inl h
  | clearDivergence ρ' => exact .inl h
  | commit ρ' op r =>
    simp only [exec, onStore_tables] at h
    by_cases hρ : ρ = ρ'
    · subst hρ
      simp only [if_true] at h
      rcases commit_effect ρ (w.status site ρ) e (w.store ρ).tables op r with
        ⟨-, hs⟩ | ⟨hack, p, hp, -, hid, hnext, hs⟩
      · rw [hs] at h; exact .inl h
      · rw [hs, promoted_slot (w.store ρ) hp hnext] at h
        by_cases hslot : r.recordKey = k ∧ r.recordVersion = v
        · rw [if_pos hslot, Option.some.injEq] at h
          subst h
          have hjson := ((w.store ρ).valid.json p (getPendingRow_some hp).1).2.2
          exact .inr (.inl ⟨op, r, _, rfl, hack, hslot.1, hslot.2, hjson.trans hid⟩)
        · rw [if_neg hslot] at h; exact .inl h
    · simp only [hρ, if_false] at h; exact .inl h
  | upsertExternal ρ' op r =>
    simp only [exec, onStore_tables] at h
    by_cases hρ : ρ = ρ'
    · subst hρ
      simp only [if_true] at h
      rcases upsertExternal_effect S.codec ρ (w.status site ρ) e (w.store ρ).tables op r with
        ⟨-, hs⟩ | ⟨-, hs, -⟩ | ⟨hack, -, hnext, hs⟩
      · rw [hs] at h; exact .inl h
      · rw [hs] at h; exact .inl h
      · rw [hs, repaired_slot (w.store ρ) hnext] at h
        by_cases hslot : r.recordKey = k ∧ r.recordVersion = v
        · rw [if_pos hslot, Option.some.injEq] at h
          subst h
          exact .inr (.inr ⟨op, r, _, rfl, hack, hslot.1, hslot.2, rfl⟩)
        · rw [if_neg hslot] at h; exact .inl h
    · simp only [hρ, if_false] at h; exact .inl h

/-- An acknowledged commit leaves a row of the record's identity in its slot. -/
theorem commit_acked {op : String} {r : BlackboardRecordV1 V}
    (h : (exec S site (.commit ρ op r) e w).2.ackStatus = .ackCommitted) :
    ∃ row, getCommittedRow ((exec S site (.commit ρ op r) e w).1.store ρ).tables
      r.recordKey r.recordVersion = some row ∧ row.recordId = r.recordId := by
  simp only [exec, onStore_tables, if_true]
  rcases commit_effect ρ (w.status site ρ) e (w.store ρ).tables op r with
    ⟨hne, -⟩ | ⟨-, p, hp, -, hid, hnext, hs⟩
  · exact absurd h hne
  · rw [hs, promoted_slot (w.store ρ) hp hnext, if_pos ⟨rfl, rfl⟩]
    have hjson := ((w.store ρ).valid.json p (getPendingRow_some hp).1).2.2
    exact ⟨_, rfl, hjson.trans hid⟩

/-- So does an acknowledged repair. -/
theorem upsert_acked {op : String} {r : BlackboardRecordV1 V}
    (h : (exec S site (.upsertExternal ρ op r) e w).2.ackStatus = .ackCommitted) :
    ∃ row, getCommittedRow ((exec S site (.upsertExternal ρ op r) e w).1.store ρ).tables
      r.recordKey r.recordVersion = some row ∧ row.recordId = r.recordId := by
  simp only [exec, onStore_tables, if_true]
  rcases upsertExternal_effect S.codec ρ (w.status site ρ) e (w.store ρ).tables op r with
    ⟨hne, -⟩ | ⟨-, hs, old, hold, hid⟩ | ⟨-, -, hnext, hs⟩
  · exact absurd h hne
  · rw [hs]; exact ⟨old, hold, hid⟩
  · rw [hs, repaired_slot (w.store ρ) hnext, if_pos ⟨rfl, rfl⟩]
    exact ⟨_, rfl, rfl⟩

/-- The row a committed read asks for. -/
def readRow (t : Tables) (recordKey : String) (recordVersion : Option Nat) : Option CommittedRow :=
  match recordVersion with
  | none => getHeadRow t recordKey
  | some v => getCommittedRow t recordKey v

theorem committedRow_ok {t : Tables} {k : String} {v : Option Nat} {row : Option CommittedRow}
    (h : committedRow e k v t = .ok row) : readRow t k v = row := by
  have hok := guarded_ok h
  unfold readRow
  cases v with
  | none => exact Except.ok.inj hok
  | some n =>
    simp only at hok ⊢
    by_cases hfit : fitsInteger n = true
    · rw [if_pos hfit] at hok
      exact Except.ok.inj hok
    · rw [if_neg hfit] at hok
      cases hok

/-- A row that is read is a committed row of the key, the asked one if a version
was asked for and the row at the head if not. -/
theorem readRow_some {t : Tables} (hv : Valid t) {k : String} {v : Option Nat} {row : CommittedRow}
    (h : readRow t k v = some row) :
    getCommittedRow t k row.recordVersion = some row ∧ row.recordKey = k ∧
      (v = none → row.recordVersion = head t k) ∧ ∀ n, v = some n → row.recordVersion = n := by
  have hslot : ∀ n, getCommittedRow t k n = some row →
      getCommittedRow t k row.recordVersion = some row ∧ row.recordKey = k ∧ row.recordVersion = n := by
    intro n hn
    obtain ⟨-, hk, hver⟩ := getCommittedRow_some hn
    exact ⟨by rw [hver]; exact hn, hk, hver⟩
  cases v with
  | none =>
    have hhead : getHeadRow t k = some row := h
    rw [hv.getHeadRow_eq] at hhead
    by_cases hz : head t k = 0
    · simp [hz] at hhead
    · rw [if_neg hz] at hhead
      obtain ⟨hg, hk, hver⟩ := hslot _ hhead
      exact ⟨hg, hk, fun _ => hver, nofun⟩
  | some n =>
    obtain ⟨hg, hk, hver⟩ := hslot n h
    refine ⟨hg, hk, nofun, ?_⟩
    rintro m hm
    cases hm
    exact hver

/-- What a found observation shows: a verified record of the key, loaded from the
row that was read. -/
theorem observe_found {st : ReplicaStatus} {k : String} {v : Option Nat} {t : Tables}
    (h : (observeReplica S.codec ρ st e k v t).found = true) :
    ∃ row r, readRow t k v = some row ∧ rowToRecord S.codec row = .ok r ∧
      observeReplica S.codec ρ st e k v t =
        ⟨ρ, true, true, some r.recordVersion, some r.contentHash, some r, none⟩ := by
  unfold observeReplica at h ⊢
  simp only at h ⊢
  split at h
  · cases h
  · rename_i hst
    split at h
    · cases h
    · cases h
    · rename_i row hrow
      split at h
      · cases h
      · rename_i r hr
        refine ⟨row, r, committedRow_ok e hrow, hr, ?_⟩
        rw [if_neg hst]

/-- A response without a record: there is no row, or it does not load. -/
theorem observe_absent {st : ReplicaStatus} {k : String} {v : Option Nat} {t : Tables}
    (hr : (observeReplica S.codec ρ st e k v t).responded = true)
    (hf : (observeReplica S.codec ρ st e k v t).found = false) :
    readRow t k v = none ∨ ∃ row m, readRow t k v = some row ∧ rowToRecord S.codec row = .error m := by
  unfold observeReplica at hr hf
  simp only at hr hf
  split at hr
  · cases hr
  · rename_i hst
    rw [if_neg hst] at hf
    split at hr
    · cases hr
    · rename_i hrow
      exact .inl (committedRow_ok e hrow)
    · rename_i row hrow
      simp only [hrow] at hf
      cases hload : rowToRecord S.codec row with
      | error m => exact .inr ⟨row, m, committedRow_ok e hrow, hload⟩
      | ok r => rw [hload] at hf; cases hf

theorem observe_replicaId (st : ReplicaStatus) (k : String) (v : Option Nat) (t : Tables) :
    (observeReplica S.codec ρ st e k v t).replicaId = ρ := by
  unfold observeReplica
  simp only
  split
  · rfl
  · split
    · rfl
    · rfl
    · split <;> rfl

end Effects

/-! ## A deployment to evaluate -/

section Deployment

/-- The content hashes of the records used in evaluations. -/
def devDigests : List ((String × Nat × String) × String) :=
  [(("dev", 1, "\x7b\"x\":1\x7d"),
      "d54d20757ed10e25fd1b8da7dd5b8c57064a4d1d754868dde3d34afe8fc2c1ef"),
    (("dev", 1, "\x7b\"x\":2\x7d"),
      "c76d1dfc47115deaeb8ad689ee40cad0b5bde37d24d907c03123e844bd071be7"),
    (("dev", 1, "\x7b\"x\":3\x7d"),
      "3d9eb244b90b6f298189de9bfd25c1929010f89720a00d1a9350741e4b28c721"),
    (("dev", 2, "\x7b\"x\":1\x7d"),
      "54bc28700899a161d130170cf128b0d109f3e8447227e46b4b41172447cda99c"),
    (("dev", 2, "\x7b\"x\":3\x7d"),
      "a049ae45af17fccfe68d27e272acfb8a8aea930b761e0e411ee237d0cbf14aef"),
    (("ops", 1, "\x7b\"x\":1\x7d"),
      "c7de42d0db03439110ba254da3bcbd7f9ba84b6347b1c38345c7705f951f2718")]

/-- Payloads as their canonical texts, with the digests of the table. -/
def devCodec : RecordCodec String where
  canonicalJsonStr := id
  loads := some
  computeContentHash f := devDigests.lookup (f.recordKey, f.recordVersion, f.payload)
  firewallViolations _ := []
  validUtcTimestamp _ := false
  canonicalSize _ := some 347

def devSystem : System String := ⟨devCodec, fun _ _ => ⟨262144, 300, 16⟩⟩

theorem devQuorum_pos : 1 ≤ 2 := by decide

def devCoordinator (name site quorumSize : Nat) (h : 1 ≤ quorumSize) : Coordinator where
  name := name
  site := site
  replicas := [.replicaA, .replicaB, .replicaC]
  distinct := by decide
  three := rfl
  authorizer := allowAllDevelopmentAuthorizer
  settings := ⟨262144, quorumSize, by decide, h⟩

def devPayload (x : Nat) : String := "\x7b\"x\":" ++ Nat.repr x ++ "\x7d"

def devDraft (version x : Nat) : BlackboardRecordDraft String :=
  ⟨"dev", .systemRecord, version, none, none, "agent", "unit", devPayload x, "\x7b\x7d"⟩

/-- The record that the draft builds. -/
def devRecord (version x : Nat) : BlackboardRecordV1 String :=
  let hash := (devDigests.lookup ("dev", version, devPayload x)).getD ""
  { toHashedFields := (devDraft version x).fields
    recordId := deriveRecordId "dev" version hash
    contentHash := hash }

def devPropose (c : Coordinator) (operationId : String) (version x : Nat) : Step String :=
  .start ⟨c, operationId, .propose (.draft (devDraft version x)) "agent"⟩

def devRead (c : Coordinator) (operationId : String) : Step String :=
  .start ⟨c, operationId, .read "agent" "dev" none⟩

/-- A call that meets no fault at this time. -/
def calm (now : Rat) : Env String := ⟨none, now, "2026-01-01T00:00:00Z", .original⟩

def failing (now : Rat) (fault : Fault) : Env String :=
  ⟨some fault, now, "2026-01-01T00:00:00Z", .original⟩

/-- The next calls of a task, none of which meets a fault. -/
def calls (i n : Nat) (now : Rat) : List (Step String) := List.replicate n (.advance i (calm now))

def diskError : Fault := .storageError "OperationalError: disk I/O error"

/-- The next call of a task, failed by the store. -/
def failedCall (i : Nat) (now : Rat) : List (Step String) := [.advance i (failing now diskError)]

/-- What an evaluation of the run finds at its end holds of a reached configuration. -/
theorem reaches_of_any (as : List (Step V)) (check : Configuration S → Bool)
    (h : ((machine S).run (Machine.init (initial S)) as).any check = true) :
    ∃ c, Reaches S as c ∧ check c = true := by
  rw [Option.any_eq_true] at h
  obtain ⟨c, hc, hcheck⟩ := h
  exact ⟨c, hc, hcheck⟩

end Deployment

end BlackboardSystem
