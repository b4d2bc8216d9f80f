import AgenticSoc.BlackboardNextVersion

/-!
# What an acknowledged prepare has staged

Competing prepares of one slot on one replica. A prepare finds its own record staged
already when the identity is the same, and an identity shows only the first characters of
the content hash: the operation is then bound to whatever was staged.
-/
namespace BlackboardStaging

open BlackboardRecord BlackboardStorage BlackboardReplica BlackboardSystem BlackboardNextVersion

variable {V : Type}

/-- One prepare, with what the replica object and the hooks make of it. -/
structure Staging (V : Type) where
  operationId : String
  record : BlackboardRecordV1 V
  status : ReplicaStatus
  env : Env V

/-- The record that is to be staged: the proposed one or the hook's. -/
def Staging.staged (s : Staging V) : Option (BlackboardRecordV1 V) :=
  match s.env.intercept with
  | .original => some s.record
  | .substitute r => some r
  | .foreign => none

variable (cd : RecordCodec V) (ρ : ReplicaId) (cfg : ReplicaSettings)

def prepared (s : Staging V) (t : Tables) : Tables × ReplicaAckV1 :=
  prepare cd ρ s.status s.env cfg s.operationId s.record t

def stage (db : ReplicaDatabase cd) (s : Staging V) : ReplicaDatabase cd :=
  let edit := prepare_genuine cfg ρ s.status s.env s.operationId s.record db.tables
  ⟨(prepared cd ρ cfg s db.tables).1, edit.valid db.valid, edit.sourced db.genuine⟩

def stageAll (db : ReplicaDatabase cd) (steps : List (Staging V)) : ReplicaDatabase cd :=
  steps.foldl (stage cd ρ cfg) db

def Acknowledged (db : ReplicaDatabase cd) (s : Staging V) : Prop :=
  (prepared cd ρ cfg s db.tables).2.ackStatus = .ackPrepared

/-- The slot's row is bound to the operation and is exactly the record. -/
def Bound (t : Tables) (operationId : String) (r : BlackboardRecordV1 V) : Prop :=
  ∃ p, getPendingRow t r.recordKey r.recordVersion = some p ∧ p.operationId = operationId ∧
    p.recordId = r.recordId ∧ p.recordJson = fullRecordJson cd r

/-- Another content of the same identity is staged in the record's slot. -/
def Collides (t : Tables) (r : BlackboardRecordV1 V) : Prop :=
  ∃ p, getPendingRow t r.recordKey r.recordVersion = some p ∧ p.recordId = r.recordId ∧
    p.recordJson.contentHash ≠ r.contentHash

/-- Records with one content hash have one content. -/
def NoCollisions : Prop :=
  ∀ r r' : BlackboardRecordV1 V, Verified cd r → Verified cd r' → r.contentHash = r'.contentHash →
    fullRecordJson cd r = fullRecordJson cd r'

/-- An operation stages one record. -/
def OneRecord (steps : List (Staging V)) : Prop :=
  ∀ s ∈ steps, ∀ s' ∈ steps, s.operationId = s'.operationId → s.staged = s'.staged

theorem oneRecord_of_nodup {steps : List (Staging V)} (h : (steps.map Staging.operationId).Nodup) :
    OneRecord steps := by
  intro s hs s' hs' hop
  rw [List.inj_on_of_nodup_map h hs hs' hop]

variable {cd ρ cfg}

theorem staged_of_passes {s : Staging V} {r : BlackboardRecordV1 V} (h : Passes s.env s.record r) :
    s.staged = some r := by
  unfold Staging.staged
  rcases h with ⟨hint, rfl⟩ | hint
  · rw [hint]
  · rw [hint]

/-- What an acknowledged prepare did to the tables. -/
theorem acknowledged_effect {db : ReplicaDatabase cd} {s : Staging V} (h : Acknowledged cd ρ cfg db s) :
    ∃ r, s.staged = some r ∧ Verified cd r ∧ ∃ res,
      PrepareEffect db.tables (stagedRow cd s.env s.operationId r) cfg.pendingLeaseSeconds
        (stage cd ρ cfg db s).tables res ∧ (res.outcome = .prepared ∨ res.outcome = .preparedLeaseTakeover) := by
  rcases prepare_effect cd ρ s.status s.env db.tables cfg s.operationId s.record with
    ⟨hne, -⟩ | ⟨-, r, hpass, hverified, -, res, heffect, hres⟩
  · exact absurd h hne
  · exact ⟨r, staged_of_passes hpass, hverified, res, heffect, hres⟩

theorem stage_refused {db : ReplicaDatabase cd} {s : Staging V} (h : ¬ Acknowledged cd ρ cfg db s) :
    (stage cd ρ cfg db s).tables = db.tables := by
  rcases prepare_effect cd ρ s.status s.env db.tables cfg s.operationId s.record with ⟨-, hsame⟩ | ⟨hack, -⟩
  · exact hsame
  · exact absurd hack h

/-- A row staged under the record's identity and hash is the record. -/
theorem genuine_pending (hno : NoCollisions cd) (db : ReplicaDatabase cd) {r : BlackboardRecordV1 V}
    (hr : Verified cd r) {p : PendingRow} (hp : p ∈ db.tables.pendingPrepares)
    (hhash : p.recordJson.contentHash = r.contentHash) : p.recordJson = fullRecordJson cd r := by
  obtain ⟨r', hr', hform⟩ := db.genuine.pending p hp
  rw [hform] at hhash ⊢
  exact hno r' r hr' hr hhash

/-- An acknowledged prepare leaves its own record staged unless its identity was taken. -/
theorem bound_iff (hno : NoCollisions cd) {db : ReplicaDatabase cd} {s : Staging V} {r : BlackboardRecordV1 V}
    (h : Acknowledged cd ρ cfg db s) (hs : s.staged = some r) :
    Bound cd (stage cd ρ cfg db s).tables s.operationId r ↔ ¬ Collides db.tables r := by
  obtain ⟨r', hs', hverified, res, heffect, hres⟩ := acknowledged_effect h
  rw [hs] at hs'
  cases hs'
  generalize (stage cd ρ cfg db s).tables = t' at heffect ⊢
  cases heffect with
  | stale _ => rcases hres with he | he <;> cases he
  | ahead _ => rcases hres with he | he <;> cases he
  | conflict p _ _ _ _ => rcases hres with he | he <;> cases he
  | fresh hnext hnone =>
    refine iff_of_true ⟨_, getPendingRow_insertPending _ hnone, rfl, rfl, rfl⟩ ?_
    rintro ⟨p, hp, -⟩
    rw [show getPendingRow db.tables r.recordKey r.recordVersion = none from hnone] at hp
    cases hp
  | restaged p hnext hp hid =>
    have hupd := getPendingRow_updatePending db.tables r.recordKey s.operationId s.env.utc r.recordVersion s.env.now
    rw [show getPendingRow db.tables r.recordKey r.recordVersion = some p from hp] at hupd
    have hmem := (getPendingRow_some hp).1
    constructor
    · rintro ⟨q, hq, -, -, hjson⟩ ⟨p', hp', -, hother⟩
      rw [show getPendingRow db.tables r.recordKey r.recordVersion = some p from hp] at hp'
      cases hp'
      obtain rfl := Option.some.inj (hupd.symm.trans hq)
      exact hother (congrArg StagedRecord.contentHash hjson)
    · intro hfree
      have hhash : p.recordJson.contentHash = r.contentHash := by
        by_contra hother
        exact hfree ⟨p, hp, hid, hother⟩
      have hjson := genuine_pending hno db hverified hmem hhash
      exact ⟨_, hupd, rfl, hid, hjson⟩
  | takeover p hnext hp hid hl =>
    have hdel := getPendingRow_deletePending db.tables r.recordKey r.recordVersion
    refine iff_of_true ⟨_, getPendingRow_insertPending (stagedRow cd s.env s.operationId r) hdel, rfl, rfl, rfl⟩ ?_
    rintro ⟨q, hq, hqid, -⟩
    rw [show getPendingRow db.tables r.recordKey r.recordVersion = some p from hp] at hq
    cases hq
    exact hid hqid

/-! ## Runs of prepares -/

/-- What the operation still holds of the slot is the record. -/
def Owns (cd : RecordCodec V) (t : Tables) (operationId : String) (r : BlackboardRecordV1 V) : Prop :=
  ∀ p ∈ t.pendingPrepares, p.recordKey = r.recordKey → p.operationId = operationId →
    p.recordJson = fullRecordJson cd r

/-- A prepare binds rows to its own operation only. -/
theorem pending_after {t t' : Tables} {row p : PendingRow} {lease : Rat} {res : PrepareResult}
    (h : PrepareEffect t row lease t' res) (hp : p ∈ t'.pendingPrepares) :
    p ∈ t.pendingPrepares ∨ p.operationId = row.operationId := by
  cases h with
  | stale _ => exact .inl hp
  | ahead _ => exact .inl hp
  | conflict _ _ _ _ _ => exact .inl hp
  | fresh _ _ =>
    rcases List.mem_append.mp hp with hp | hp
    · exact .inl hp
    · exact .inr (by rw [List.mem_singleton.mp hp])
  | restaged _ _ _ _ =>
    obtain ⟨q, hq, rfl⟩ := List.mem_map.mp hp
    by_cases hin : inSlot row.recordKey row.recordVersion q = true
    · exact .inr (by simp [hin])
    · exact .inl (by simpa [hin] using hq)
  | takeover _ _ _ _ _ =>
    rcases List.mem_append.mp hp with hp | hp
    · exact .inl (List.mem_filter.mp hp).1
    · exact .inr (by rw [List.mem_singleton.mp hp])

theorem owns_of_bound {db : ReplicaDatabase cd} {op : String} {r : BlackboardRecordV1 V}
    (h : Bound cd db.tables op r) : Owns cd db.tables op r := by
  obtain ⟨p, hp, -, -, hjson⟩ := h
  obtain ⟨hm, hk, -⟩ := getPendingRow_some hp
  intro q hq hqk _
  rw [db.valid.pending_unique hq hm (hqk.trans hk.symm), hjson]

/-- A prepare that leaves its own record staged keeps what other operations own. -/
theorem owns_stage {db : ReplicaDatabase cd} {op : String} {r : BlackboardRecordV1 V} {s : Staging V}
    (h : Owns cd db.tables op r) (hown : s.operationId = op → s.staged = some r)
    (hbound : Acknowledged cd ρ cfg db s → ∀ r', s.staged = some r' →
      Bound cd (stage cd ρ cfg db s).tables s.operationId r') :
    Owns cd (stage cd ρ cfg db s).tables op r := by
  by_cases hack : Acknowledged cd ρ cfg db s
  · by_cases hop : s.operationId = op
    · rw [← hop]
      exact owns_of_bound (hbound hack r (hown hop))
    · obtain ⟨r', -, -, res, heffect, -⟩ := acknowledged_effect hack
      intro p hp hk hpop
      rcases pending_after heffect hp with hp | hp
      · exact h p hp hk hpop
      · exact absurd (hp.symm.trans hpop) hop
  · rw [Owns, stage_refused hack]
    exact h

/-- No acknowledged prepare of the run met another content under its identity. -/
def Collisionless (cd : RecordCodec V) (ρ : ReplicaId) (cfg : ReplicaSettings) (db : ReplicaDatabase cd)
    (steps : List (Staging V)) : Prop :=
  ∀ before s after r, steps = before ++ s :: after → s.staged = some r →
    Acknowledged cd ρ cfg (stageAll cd ρ cfg db before) s → ¬ Collides (stageAll cd ρ cfg db before).tables r

theorem stageAll_concat (db : ReplicaDatabase cd) (steps : List (Staging V)) (s : Staging V) :
    stageAll cd ρ cfg db (steps ++ [s]) = stage cd ρ cfg (stageAll cd ρ cfg db steps) s := by
  simp [stageAll]

/-- What an operation owns it owns until the end of the run. -/
theorem owns_stageAll (hno : NoCollisions cd) (db : ReplicaDatabase cd) {op : String} {r : BlackboardRecordV1 V}
    (after : List (Staging V)) {before : List (Staging V)}
    (hfree : Collisionless cd ρ cfg db (before ++ after))
    (hown : ∀ s ∈ after, s.operationId = op → s.staged = some r)
    (h : Owns cd (stageAll cd ρ cfg db before).tables op r) :
    Owns cd (stageAll cd ρ cfg db (before ++ after)).tables op r := by
  induction after generalizing before with
  | nil => simpa using h
  | cons s after ih =>
    rw [List.append_cons]
    refine ih (by simpa using hfree) (fun x hx => hown x (List.mem_cons_of_mem s hx)) ?_
    rw [stageAll_concat]
    refine owns_stage h (hown s List.mem_cons_self) fun hack r' hs' => ?_
    exact (bound_iff hno hack hs').mpr (hfree before s after r' rfl hs' hack)

/-- A commit that the operation's replica acknowledges promotes the record the operation owns. -/
theorem commit_owned {db : ReplicaDatabase cd} {st : ReplicaStatus} {e : Env V} {op : String}
    {r : BlackboardRecordV1 V} (h : Owns cd db.tables op r)
    (hack : (commit ρ st e op r db.tables).2.ackStatus = .ackCommitted) :
    ∃ row, getCommittedRow (commit ρ st e op r db.tables).1 r.recordKey r.recordVersion = some row ∧
      row.contentHash = r.contentHash := by
  rcases commit_effect ρ st e db.tables op r with ⟨hne, -⟩ | ⟨-, p, hp, hop, -, hnext, hs⟩
  · exact absurd hack hne
  · obtain ⟨hm, hk, -⟩ := getPendingRow_some hp
    let S : System V := ⟨cd, fun _ _ => ⟨0, 0, 0⟩⟩
    refine ⟨_, by rw [hs, promoted_slot (S := S) db hp hnext, if_pos ⟨rfl, rfl⟩], ?_⟩
    exact congrArg StagedRecord.contentHash (h p hm hk hop)

/-- Every acknowledged prepare of the run leaves its own record bound to its operation. -/
def LeavesBound (cd : RecordCodec V) (ρ : ReplicaId) (cfg : ReplicaSettings) (db : ReplicaDatabase cd)
    (steps : List (Staging V)) : Prop :=
  ∀ before s after r, steps = before ++ s :: after → s.staged = some r →
    Acknowledged cd ρ cfg (stageAll cd ρ cfg db before) s →
    Bound cd (stageAll cd ρ cfg db (before ++ [s])).tables s.operationId r

/-- After the run a commit of an operation promotes the record its prepare was acknowledged for. -/
def CommitsOwn (cd : RecordCodec V) (ρ : ReplicaId) (cfg : ReplicaSettings) (db : ReplicaDatabase cd)
    (steps : List (Staging V)) : Prop :=
  ∀ before s after r, steps = before ++ s :: after → s.staged = some r →
    Acknowledged cd ρ cfg (stageAll cd ρ cfg db before) s → ∀ st e,
    (commit ρ st e s.operationId r (stageAll cd ρ cfg db steps).tables).2.ackStatus = .ackCommitted →
    ∃ row, getCommittedRow (commit ρ st e s.operationId r (stageAll cd ρ cfg db steps).tables).1
      r.recordKey r.recordVersion = some row ∧ row.contentHash = r.contentHash

/-- The acknowledgements of a run are faithful just when no acknowledged prepare met another
content under its identity, and then later commits are too. -/
theorem faithful_acknowledgements (hno : NoCollisions cd) (db : ReplicaDatabase cd) {steps : List (Staging V)}
    (hone : OneRecord steps) :
    (LeavesBound cd ρ cfg db steps ↔ Collisionless cd ρ cfg db steps) ∧
      (Collisionless cd ρ cfg db steps → CommitsOwn cd ρ cfg db steps) := by
  have hstep : ∀ before s r, s.staged = some r → Acknowledged cd ρ cfg (stageAll cd ρ cfg db before) s →
      (Bound cd (stageAll cd ρ cfg db (before ++ [s])).tables s.operationId r ↔
        ¬ Collides (stageAll cd ρ cfg db before).tables r) := by
    intro before s r hs hack
    rw [stageAll_concat]
    exact bound_iff hno hack hs
  constructor
  · constructor
    · intro h before s after r hsteps hs hack
      exact (hstep before s r hs hack).mp (h before s after r hsteps hs hack)
    · intro h before s after r hsteps hs hack
      exact (hstep before s r hs hack).mpr (h before s after r hsteps hs hack)
  · rintro hfree before s after r rfl hs hack st e hcommit
    have hbound := (hstep before s r hs hack).mpr (hfree before s after r rfl hs hack)
    rw [List.append_cons] at hfree hcommit ⊢
    refine commit_owned (owns_stageAll hno db after hfree ?_ (owns_of_bound hbound)) hcommit
    intro x hx hop
    rw [hone x (by simp [hx]) s (by simp) hop, hs]

/-! ## Two contents whose hashes begin alike -/

/-- Whole records with their content hashes. -/
def alikeDigests : List (HashedFields String × String) :=
  [((devDraft 1 1).fields, "d54d20757ed10e25fd1b8da7dd5b8c57064a4d1d754868dde3d34afe8fc2c1ef"),
    ((devDraft 1 19161169).fields, "2553e9208128804e5b21f0b5ac264a2f0383f0f9475ce4c53398c934d89c3aaa"),
    ((devDraft 1 37392900).fields, "2553e9208128a66c70545fae44aa3f0e226cee601a468e4ed045e2f9c1ff18fe")]

def alikeCodec : RecordCodec String where
  canonicalJsonStr := id
  loads := some
  computeContentHash f := (alikeDigests.find? fun d => d.1 = f).map Prod.snd
  firewallViolations _ := []
  validUtcTimestamp _ := false
  canonicalSize _ := some 354

def alikeRecord (x : Nat) : BlackboardRecordV1 String :=
  let hash := (alikeCodec.computeContentHash (devDraft 1 x).fields).getD ""
  { toHashedFields := (devDraft 1 x).fields
    recordId := deriveRecordId "dev" 1 hash
    contentHash := hash }

theorem alike_noCollisions : NoCollisions alikeCodec := by
  have hdistinct : ∀ d ∈ alikeDigests, ∀ d' ∈ alikeDigests, d.2 = d'.2 → d.1 = d'.1 := by decide
  have hlisted : ∀ r, Verified alikeCodec r → (r.toHashedFields, r.contentHash) ∈ alikeDigests := by
    intro r hr
    obtain ⟨d, hd, hhash⟩ := Option.map_eq_some_iff.mp hr.hash
    have hfields : d.1 = r.toHashedFields := by simpa using List.find?_some hd
    rw [← hfields, ← hhash]
    exact List.mem_of_find?_eq_some hd
  intro r r' hr hr' hhash
  have hfields : r.toHashedFields = r'.toHashedFields :=
    hdistinct _ (hlisted r hr) _ (hlisted r' hr') hhash
  have hsame : r = r' := by
    have hid := hr.id
    have hid' := hr'.id
    cases r
    cases r'
    simp_all
  rw [hsame]

def devStaging (operationId : String) (x : Nat) (now : Rat) : Staging String :=
  ⟨operationId, alikeRecord x, newStatus, calm now⟩

def devSettings : ReplicaSettings := ⟨262144, 300, 16⟩

/-- A prepare that takes over an expired lease. -/
def devTakeover : List (Staging String) := [devStaging "op-1" 1 0, devStaging "op-2" 19161169 301]

theorem faithful_acknowledgements_takeover :
    (LeavesBound alikeCodec .replicaA devSettings (emptyDatabase alikeCodec) devTakeover ↔
        Collisionless alikeCodec .replicaA devSettings (emptyDatabase alikeCodec) devTakeover) ∧
      (Collisionless alikeCodec .replicaA devSettings (emptyDatabase alikeCodec) devTakeover →
        CommitsOwn alikeCodec .replicaA devSettings (emptyDatabase alikeCodec) devTakeover) :=
  faithful_acknowledgements alike_noCollisions (emptyDatabase alikeCodec) (oneRecord_of_nodup (by decide))

/-- Two operations prepare contents whose hashes share their first twelve characters. -/
def devAlike : List (Staging String) := [devStaging "op-1" 19161169 0, devStaging "op-2" 37392900 1]

/-- What is staged for the second operation, and committed by it, is the first one's record. -/
theorem alike_prepares_rebind :
    NoCollisions alikeCodec ∧ OneRecord devAlike ∧
      ¬ LeavesBound alikeCodec .replicaA devSettings (emptyDatabase alikeCodec) devAlike ∧
      ¬ CommitsOwn alikeCodec .replicaA devSettings (emptyDatabase alikeCodec) devAlike := by
  have hack : Acknowledged alikeCodec .replicaA devSettings
      (stageAll alikeCodec .replicaA devSettings (emptyDatabase alikeCodec) [devStaging "op-1" 19161169 0])
      (devStaging "op-2" 37392900 1) := by
    unfold Acknowledged
    decide
  refine ⟨alike_noCollisions, oneRecord_of_nodup (by decide), fun h => ?_, fun h => ?_⟩
  · obtain ⟨p, hp, -, -, hjson⟩ := h [_] _ [] (alikeRecord 37392900) rfl rfl hack
    have hother : (getPendingRow (stageAll alikeCodec .replicaA devSettings (emptyDatabase alikeCodec)
        ([devStaging "op-1" 19161169 0] ++ [devStaging "op-2" 37392900 1])).tables "dev" 1).all
          (fun p => p.recordJson ≠ fullRecordJson alikeCodec (alikeRecord 37392900)) = true := by
      decide
    rw [show getPendingRow _ "dev" 1 = some p from hp, Option.all_some] at hother
    exact absurd hjson (by simpa using hother)
  · obtain ⟨row, hrow, hhash⟩ := h [_] _ [] (alikeRecord 37392900) rfl rfl hack newStatus (calm 2)
      (by decide)
    have hother : (getCommittedRow (commit .replicaA newStatus (calm 2) "op-2" (alikeRecord 37392900)
        (stageAll alikeCodec .replicaA devSettings (emptyDatabase alikeCodec) devAlike).tables).1 "dev" 1).all
          (fun row => row.contentHash ≠ (alikeRecord 37392900).contentHash) = true := by
      decide
    rw [show getCommittedRow (commit .replicaA newStatus (calm 2) "op-2" (alikeRecord 37392900) _).1 "dev" 1 =
      some row from hrow, Option.all_some] at hother
    exact absurd hhash (by simpa using hother)

end BlackboardStaging
