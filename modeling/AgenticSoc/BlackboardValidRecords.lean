import AgenticSoc.BlackboardSolo

/-!
# Valid records and the columns of the tables

A valid record is staged as a text and promoted into columns. The columns hold 64-bit
integers, the contract does not bound the version and the window of a record.
-/
namespace BlackboardValidRecords

open BlackboardRecord BlackboardStorage BlackboardReplica BlackboardCoordinator BlackboardSystem
open BlackboardProtocol BlackboardFailedQuorum BlackboardNextVersion BlackboardSolo Interaction LocalPrograms

variable {V : Type}

/-- Digests are hexadecimal, and so without the separator of an identity. -/
def HexDigests (cd : RecordCodec V) : Prop := ∀ f h, cd.computeContentHash f = some h → '#' ∉ h.toList

/-- The contract accepts the record of the proposal, and it is not oversized. -/
structure Accepted (S : System V) (c : Coordinator) (p : Proposal V) (r : BlackboardRecordV1 V) : Prop where
  built : p.build S.codec c.settings.maxRecordCanonicalBytes = .ok r
  valid : validateRecord S.codec r = .ok ()
  size : ∀ ρ, ensureRecordSize S.codec r (S.settings c.site ρ).maxRecordBytes = .ok ()

/-- Every replica is available, at the version before, and has nothing pending for the key. -/
structure Awaits (S : System V) (site : Nat) (r : BlackboardRecordV1 V) (w : World S.codec) : Prop where
  available : ∀ ρ, (w.status site ρ).health ≠ .unavailable
  next : ∀ ρ, r.recordVersion = head (tablesOf w ρ) r.recordKey + 1
  free : ∀ ρ, ∀ p ∈ (tablesOf w ρ).pendingPrepares, p.recordKey ≠ r.recordKey

/-- The columns of the committed table can hold the record. -/
def FitsColumns (r : BlackboardRecordV1 V) : Prop :=
  fitsInteger r.recordVersion = true ∧ r.windowId.all fitsInteger = true

/-! ## Identities -/

section Identity

variable {cd : RecordCodec V} {r : BlackboardRecordV1 V}

/-- The identity of a record that is next for its key is not in use. -/
theorem unused_of_digests (hdigest : HexDigests cd) (db : ReplicaDatabase cd) (hr : Verified cd r)
    (hnext : r.recordVersion = head db.tables r.recordKey + 1) :
    ∀ row ∈ db.tables.committedRecords, row.recordId ≠ r.recordId := by
  intro row hrow he
  obtain ⟨r', hr', hform⟩ := db.genuine.committed row hrow
  have hshort : ∀ {s : BlackboardRecordV1 V}, Verified cd s → '#' ∉ (shortHash s.contentHash).toList := by
    intro s hs hin
    unfold shortHash at hin
    rw [String.toList_ofList] at hin
    exact hdigest _ _ hs.hash (List.mem_of_mem_take hin)
  have hid : deriveRecordId r'.recordKey r'.recordVersion r'.contentHash =
      deriveRecordId r.recordKey r.recordVersion r.contentHash := by
    rw [← hr'.id, ← hr.id, ← he]
    exact (congrArg StagedRecord.recordId hform).symm
  obtain ⟨hkey, hversion⟩ := deriveRecordId_slot (hshort hr') (hshort hr) hid
  have hle := ((db.valid.contiguous r.recordKey r.recordVersion).mp ⟨row, hrow,
    (congrArg StagedRecord.recordKey hform).trans hkey, (congrArg StagedRecord.recordVersion hform).trans hversion⟩).2
  omega

/-- A valid record passes the firewall of the replicas. -/
theorem firewall_of_valid (h : validateRecord cd r = .ok ()) :
    runChecks [firewallCheck cd "payload" r.payload, firewallCheck cd "provenance" r.provenance] = .ok () := by
  unfold validateRecord at h
  cases hc : runChecks (recordChecks cd r) with
  | error e =>
    rw [hc] at h
    cases h
  | ok _ =>
    rw [runChecks_ok] at hc ⊢
    intro check hcheck
    refine hc check ?_
    simp only [List.mem_cons, List.not_mem_nil, or_false] at hcheck
    simp only [recordChecks, sharedChecks, List.mem_append, List.mem_cons]
    rcases hcheck with rfl | rfl <;> tauto

end Identity

/-! ## One replica -/

section Replicas

variable {S : System V} {site : Nat} {faults : Faults V} {op : String} {r : BlackboardRecordV1 V} {w : World S.codec}

/-- What the record needs to reach the store of every replica. -/
structure Stageable (S : System V) (site : Nat) (r : BlackboardRecordV1 V) : Prop where
  verified : Verified S.codec r
  firewall : runChecks [firewallCheck S.codec "payload" r.payload,
    firewallCheck S.codec "provenance" r.provenance] = .ok ()
  size : ∀ ρ, ensureRecordSize S.codec r (S.settings site ρ).maxRecordBytes = .ok ()

theorem Accepted.stageable {c : Coordinator} {p : Proposal V} (h : Accepted S c p r) : Stageable S c.site r :=
  ⟨verified_of_validateRecord S.codec h.valid, firewall_of_valid h.valid, h.size⟩

theorem Awaits.none_pending (hw : Awaits S site r w) (ρ : ReplicaId) :
    getPendingRow (tablesOf w ρ) r.recordKey r.recordVersion = none := by
  rw [getPendingRow_eq_none]
  intro p hp
  exact Bool.eq_false_iff.mpr fun hin => hw.free ρ p hp ((inSlot_iff _ _ p).mp hin).1

variable (op) in
/-- A replica that awaits the record stages it. -/
theorem answer_awaited (hq : Quiet faults) (hr : Stageable S site r) (hw : Awaits S site r w)
    (hfits : fitsInteger r.recordVersion = true) (ρ : ReplicaId) :
    prepareAt S site faults op r ρ (view site ρ w) =
      (baseAck ρ op .prepare .ackPrepared (some r) none none,
        insertPending (tablesOf w ρ) (stagedRow S.codec (faults (.prepare ρ op r)) op r), w.status site ρ) := by
  have hstale : ¬ r.recordVersion ≤ head (tablesOf w ρ) r.recordKey := by
    have := hw.next ρ
    omega
  simp only [prepareAt, view, prepare, refusal_none (hw.available ρ) (hq _).1, (hq _).2, stageRecord,
    (verifyRecordIntegrity_ok S.codec r).mpr hr.verified, hr.firewall, hr.size ρ, guarded_eq (hq _).1, prepareInsert,
    if_neg hstale, if_neg (not_not.mpr (hw.next ρ)), hfits, hw.none_pending ρ, Bool.not_true, Bool.false_eq_true, if_false]
  rfl

/-- A version that does not fit is not staged. -/
theorem answer_overflow (hq : Quiet faults) (hr : Stageable S site r) (hw : Awaits S site r w)
    (hfits : fitsInteger r.recordVersion = false) (ρ : ReplicaId) :
    (answerOf S site faults op r w ρ).ackStatus = .storageError := by
  have hstale : ¬ r.recordVersion ≤ head (tablesOf w ρ) r.recordKey := by
    have := hw.next ρ
    omega
  simp only [answerOf, prepareAt, view, prepare, refusal_none (hw.available ρ) (hq _).1, (hq _).2, stageRecord,
    (verifyRecordIntegrity_ok S.codec r).mpr hr.verified, hr.firewall, hr.size ρ, guarded_eq (hq _).1, prepareInsert,
    if_neg hstale, if_neg (not_not.mpr (hw.next ρ)), hfits, Bool.not_false, if_true]
  rfl

variable (S faults op r w) in
/-- The tables of a replica that staged the record. -/
def stagedTables (ρ : ReplicaId) : Tables :=
  insertPending (tablesOf w ρ) (stagedRow S.codec (faults (.prepare ρ op r)) op r)

theorem valid_staged (hr : Stageable S site r) (hw : Awaits S site r w) (ρ : ReplicaId) :
    Valid (stagedTables S faults op r w ρ) := by
  have hedit : Edit (Genuine S.codec) (tablesOf w ρ) (stagedTables S faults op r w ρ) := by
    have hstage := Edit.stage (P := Genuine S.codec) (t := tablesOf w ρ)
      (stagedRow S.codec (faults (.prepare ρ op r)) op r) (hw.next ρ) ⟨rfl, rfl, rfl⟩ ⟨r, hr.verified, rfl⟩
    have hsame : deletePending (tablesOf w ρ) (stagedRow S.codec (faults (.prepare ρ op r)) op r).recordKey
        (stagedRow S.codec (faults (.prepare ρ op r)) op r).recordVersion = tablesOf w ρ :=
      deletePending_of_none (hw.none_pending ρ)
    rwa [hsame] at hstage
  exact hedit.valid (w.store ρ).valid

theorem promotable_staged (hdigest : HexDigests S.codec) (hr : Stageable S site r) (hw : Awaits S site r w)
    (ρ : ReplicaId) : Promotable S.codec (stagedTables S faults op r w ρ) op r :=
  ⟨⟨_, getPendingRow_insertPending _ (hw.none_pending ρ), rfl, rfl, rfl⟩, hw.next ρ,
    unused_of_digests hdigest (w.store ρ) hr.verified (hw.next ρ)⟩

/-- What was staged is promoted when its columns hold it, and leaves nothing pending. -/
theorem commit_awaited (hq : Quiet faults) (hdigest : HexDigests S.codec) (hr : Stageable S site r)
    (hw : Awaits S site r w) (hfits : FitsColumns r) (ρ : ReplicaId) :
    let out := commitAt faults op r ρ (stagedTables S faults op r w ρ, w.status site ρ)
    out.1 = baseAck ρ op .commit .ackCommitted (some r) none none ∧
      out.2.1.pendingPrepares = (tablesOf w ρ).pendingPrepares := by
  have hpromotable : Promotable S.codec (stagedTables S faults op r w ρ) op r := promotable_staged hdigest hr hw ρ
  obtain ⟨t', hpromote⟩ := commitPromote_promotes (valid_staged hr hw ρ) hpromotable hfits.1 hfits.2
    (faults (.commit ρ op r)).utc
  have hcommit : commit ρ (w.status site ρ) (faults (.commit ρ op r)) op r (stagedTables S faults op r w ρ) =
      (t', baseAck ρ op .commit .ackCommitted (some r) none none) := by
    simp only [commit, refusal_none (hw.available ρ) (hq _).1, guarded_eq (hq _).1, hpromote]
  refine ⟨congrArg Prod.snd hcommit, ?_⟩
  rcases commit_effect ρ (w.status site ρ) (faults (.commit ρ op r)) (stagedTables S faults op r w ρ) op r with
    ⟨hne, -⟩ | ⟨-, p, -, -, -, -, hpromoted⟩
  · rw [hcommit] at hne
    exact absurd rfl hne
  · refine (congrArg Tables.pendingPrepares hpromoted).trans ?_
    change ((tablesOf w ρ).pendingPrepares ++ [_]).filter (fun p => !inSlot r.recordKey r.recordVersion p) = _
    have hkeep : (tablesOf w ρ).pendingPrepares.filter (fun p => !inSlot r.recordKey r.recordVersion p) =
        (tablesOf w ρ).pendingPrepares := by
      rw [List.filter_eq_self]
      intro p hp
      rw [(getPendingRow_eq_none).mp (hw.none_pending ρ) p hp]
      rfl
    have hin : inSlot r.recordKey r.recordVersion (stagedRow S.codec (faults (.prepare ρ op r)) op r) = true :=
      (inSlot_iff _ _ _).mpr ⟨rfl, rfl⟩
    rw [List.filter_append, hkeep, List.filter_singleton, hin]
    exact List.append_nil _

/-- A window that does not fit fails at the insert, with everything staged. -/
theorem commit_overflow (hq : Quiet faults) (hw : Awaits S site r w) (hfits : ¬ FitsColumns r)
    (hversion : fitsInteger r.recordVersion = true) (ρ : ReplicaId) :
    (commitAt faults op r ρ (stagedTables S faults op r w ρ, w.status site ρ)).1.ackStatus ≠ .ackCommitted := by
  have hwindow : r.windowId.all fitsInteger = false := Bool.eq_false_iff.mpr fun hall => hfits ⟨hversion, hall⟩
  have hpending : getPendingRow (stagedTables S faults op r w ρ) r.recordKey r.recordVersion =
      some (stagedRow S.codec (faults (.prepare ρ op r)) op r) :=
    getPendingRow_insertPending (stagedRow S.codec (faults (.prepare ρ op r)) op r) (hw.none_pending ρ)
  have hpromote : commitPromote (stagedTables S faults op r w ρ) r.recordKey r.recordVersion r.recordId op
      (faults (.commit ρ op r)).utc = .error overflowError := by
    have hnext : r.recordVersion = head (stagedTables S faults op r w ρ) r.recordKey + 1 := hw.next ρ
    unfold commitPromote
    simp only [hversion, Bool.not_true, Bool.false_eq_true, if_false, hpending]
    rw [if_neg (by simp [stagedRow]), if_neg (not_not.mpr hnext)]
    unfold insertCommitted
    rw [if_pos]
    simp [stagedRow, fullRecordJson, hwindow]
  simp only [commitAt, commit, refusal_none (hw.available ρ) (hq _).1, guarded_eq (hq _).1, hpromote]
  intro hack
  cases hack

end Replicas

/-! ## The write -/

/-- A quorum needs as many acknowledgements. -/
theorem evaluateQuorum_size {acks : List ReplicaAckV1} {q : Nat} (h : (evaluateQuorum acks q).decision = .quorumMet) :
    q ≤ acks.length := by
  unfold evaluateQuorum at h
  simp only at h
  split at h
  · cases h
  rename_i best rest hordered
  obtain ⟨hmembers, -, -⟩ := Grouping.largest_group hordered
  by_cases hq : q ≤ best.2.length
  · refine hq.trans ?_
    rw [hmembers]
    exact (List.length_filter_le _ _).trans (List.length_filterMap_le _ _)
  · rw [if_neg hq] at h
    split at h <;> cases h

theorem outcome_of_writeResult {op principal : String} {outcome : WriteOutcome} {reason : Option String}
    {record : Option (BlackboardRecordV1 V)} {acks : List ReplicaAckV1} {sync : List (ReplicaId × ReplicationSyncState)}
    (h : outcome ≠ .committed) :
    ¬ ∃ res, writeResult op principal outcome reason record acks sync = .ok res ∧ res.outcome = .committed := by
  rintro ⟨res, hres, hout⟩
  exact h ((writeResult_fields hres).1.symm.trans hout)

section Write

variable {S : System V} {c : Coordinator} {faults : Faults V} {op principal : String} {r : BlackboardRecordV1 V}
  {w : World S.codec}

/-- The write is reported committed and leaves nothing new pending. -/
def GoesThrough {cd : RecordCodec V} (out : Except String WriteResultV1) (w w' : World cd) : Prop :=
  (∃ res, out = .ok res ∧ res.outcome = .committed) ∧
    ∀ ρ, (tablesOf w' ρ).pendingPrepares = (tablesOf w ρ).pendingPrepares

variable (c op) in
theorem answers_awaited (hq : Quiet faults) (hr : Stageable S c.site r) (hw : Awaits S c.site r w)
    (hfits : fitsInteger r.recordVersion = true) :
    answers S c.site faults c op r w =
      c.replicas.map fun ρ => baseAck ρ op .prepare .ackPrepared (some r) none none :=
  List.map_congr_left fun ρ _ => congrArg Prod.fst (answer_awaited op hq hr hw hfits ρ)

variable (c op) in
theorem ofRecord_awaited (hq : Quiet faults) (hr : Stageable S c.site r) (hw : Awaits S c.site r w)
    (hfits : fitsInteger r.recordVersion = true) : OfRecord r (answers S c.site faults c op r w) := by
  rw [answers_awaited c op hq hr hw hfits]
  intro a ha _
  obtain ⟨ρ, -, rfl⟩ := List.mem_map.mp ha
  rfl

variable (op) in
/-- The commit of each replica, when all of them prepared and are told to commit. -/
theorem commits_awaited (hq : Quiet faults) (hr : Stageable S c.site r) (hw : Awaits S c.site r w)
    (hfits : fitsInteger r.recordVersion = true) (hall : ∀ ρ, ρ ∈ winnersOf S c.site faults c op r w) (ρ : ReplicaId) :
    let out := commitAt faults op r ρ (stagedTables S faults op r w ρ, w.status c.site ρ)
    (commitOf S c.site faults c op r w ρ).commitAck = some out.1 ∧ (afterCommit S c.site faults c op r w ρ).1 = out.2.1 := by
  have hprepare := answer_awaited op hq hr hw hfits ρ
  have hprepared : (answerOf S c.site faults op r w ρ).ackStatus = .ackPrepared := by
    unfold answerOf
    rw [hprepare]
    rfl
  have hlocal : afterPrepare S c.site faults op r w ρ = (stagedTables S faults op r w ρ, w.status c.site ρ) :=
    congrArg Prod.snd hprepare
  obtain ⟨hstep, hafter⟩ := commit_winner hprepared (hall ρ)
  rw [hlocal] at hstep hafter
  rw [hstep]
  exact ⟨rfl, hafter⟩

theorem write_goesThrough_iff (hq : Quiet faults) (hdigest : HexDigests S.codec) (hr : Stageable S c.site r)
    (hw : Awaits S c.site r w) {out : Except String WriteResultV1} {w' : World S.codec}
    (h : runAlone S c.site faults (writeRecord c op principal r) w = (out, w')) :
    GoesThrough out w w' ↔ c.settings.quorumSize ≤ 3 ∧ FitsColumns r := by
  by_cases hversion : fitsInteger r.recordVersion = true
  swap
  · -- nothing is staged
    have hnone : ∀ a ∈ answers S c.site faults c op r w, a.ackStatus ≠ .ackPrepared := by
      intro a ha
      rw [(mem_answers).mp ha, answer_overflow hq hr hw (Bool.eq_false_iff.mpr hversion)]
      intro hack
      cases hack
    obtain ⟨w₁, hrun, -⟩ := alone_rejected principal hnone
    obtain ⟨rfl, rfl⟩ := Prod.mk.inj (hrun.symm.trans h)
    exact iff_of_false (fun hout => outcome_of_writeResult (classifyTotalRejection_outcome _).1 hout.1)
      fun hfits => hversion hfits.2.1
  have hanswers := answers_awaited c op hq hr hw hversion
  have hlength : (answers S c.site faults c op r w).length = 3 := by
    rw [hanswers, List.length_map, c.three]
  have hprepared : ∀ a ∈ answers S c.site faults c op r w, a.ackStatus = .ackPrepared := by
    rw [hanswers]
    intro a ha
    obtain ⟨ρ, -, rfl⟩ := List.mem_map.mp ha
    rfl
  have hsome : ¬ ∀ a ∈ answers S c.site faults c op r w, a.ackStatus ≠ .ackPrepared := fun hnone =>
    hnone (answerOf S c.site faults op r w .replicaA) (List.mem_map_of_mem (mem_replicas c _))
      (hprepared _ (List.mem_map_of_mem (mem_replicas c _)))
  by_cases hquorum : c.settings.quorumSize ≤ 3
  swap
  · obtain ⟨w₁, reason, hrun, -⟩ := alone_failed principal hsome fun hmet =>
      hquorum (hlength ▸ evaluateQuorum_size hmet)
    obtain ⟨rfl, rfl⟩ := Prod.mk.inj (hrun.symm.trans h)
    have hfailed : WriteOutcome.failedQuorum ≠ .committed := by decide
    exact iff_of_false (fun hout => outcome_of_writeResult hfailed hout.1) fun hfits => hquorum hfits.1
  have hfilter : ((answers S c.site faults c op r w).filter fun a => a.ackStatus = .ackPrepared).length = 3 := by
    rw [List.filter_eq_self.mpr fun a ha => decide_eq_true (hprepared a ha), hlength]
  obtain ⟨hmet, hmembers⟩ := evaluateQuorum_met (ofRecord_awaited c op hq hr hw hversion)
    c.settings.quorumPositive (hfilter.symm ▸ hquorum)
  have hall : ∀ ρ, ρ ∈ winnersOf S c.site faults c op r w := by
    intro ρ
    have hmem : answerOf S c.site faults op r w ρ ∈ answers S c.site faults c op r w :=
      List.mem_map_of_mem (mem_replicas c ρ)
    have hwin := hmembers _ hmem (hprepared _ hmem)
    rwa [answerOf_replica] at hwin
  obtain ⟨w₁, hrun, hw₁⟩ := alone_committing principal hsome hmet
  obtain ⟨rfl, rfl⟩ := Prod.mk.inj (hrun.symm.trans h)
  have hcommits := commits_awaited op hq hr hw hversion hall
  have hacks : ((c.replicas.map (commitOf S c.site faults c op r w)).filterMap fun s => s.commitAck) =
      c.replicas.map fun ρ => (commitAt faults op r ρ (stagedTables S faults op r w ρ, w.status c.site ρ)).1 := by
    rw [List.filterMap_map, ← List.filterMap_eq_map]
    exact List.filterMap_congr fun ρ _ => (hcommits ρ).1
  simp only [hacks]
  by_cases hfits : FitsColumns r
  · -- every replica commits
    have hdurable : (c.replicas.map fun ρ => (commitAt faults op r ρ (stagedTables S faults op r w ρ,
        w.status c.site ρ)).1).countP (isDurable (some r.recordId) (some r.contentHash)) = 3 := by
      rw [List.countP_map, List.countP_eq_length.mpr ?_, c.three]
      intro ρ _
      simp only [Function.comp, (commit_awaited hq hdigest hr hw hfits ρ).1]
      simp [isDurable, baseAck]
    refine iff_of_true ⟨?_, fun ρ => ?_⟩ ⟨hquorum, hfits⟩
    · obtain ⟨res, hres, hout, -⟩ := writeResult_committed (hdurable.symm ▸ hquorum) (hdurable.symm ▸ by decide)
      exact ⟨res, hres, hout⟩
    · have hnames : namesSlot (answerOf S c.site faults op r w ρ) = false := by
        unfold namesSlot
        rw [hprepared _ (List.mem_map_of_mem (mem_replicas c ρ))]
        rfl
      have hview := hw₁ ρ
      rw [hnames, if_neg Bool.false_ne_true] at hview
      have ht' : tablesOf w₁ ρ = _ := (congrArg Prod.fst hview).trans (hcommits ρ).2
      rw [ht', (commit_awaited hq hdigest hr hw hfits ρ).2]
  · -- no replica commits
    have hdurable : (c.replicas.map fun ρ => (commitAt faults op r ρ (stagedTables S faults op r w ρ,
        w.status c.site ρ)).1).filter (isDurable (some r.recordId) (some r.contentHash)) = [] := by
      rw [List.filter_eq_nil_iff]
      intro a ha
      obtain ⟨ρ, -, rfl⟩ := List.mem_map.mp ha
      simp [isDurable, commit_overflow hq hw hfits hversion ρ]
    have hpositive := c.settings.quorumPositive
    have hout : commitOutcome c.settings.quorumSize (answers S c.site faults c op r w) []
        (winnersOf S c.site faults c op r w) =
        (.failedStorage, some "quorum prepared but zero replicas completed the commit phase") := by
      unfold commitOutcome
      rw [List.length_nil, if_neg (by omega), if_neg (by omega)]
    rw [hdurable, hout]
    have hfailed : WriteOutcome.failedStorage ≠ .committed := by decide
    exact iff_of_false (fun hres => outcome_of_writeResult hfailed hres.1) fun hok => hfits hok.2

theorem valid_record_goes_through_iff {p : Proposal V} (hdigest : HexDigests S.codec) (hq : Quiet faults)
    (hp : Accepted S c p r) (hw : Awaits S c.site r w) {out : Except String WriteResultV1} {w' : World S.codec}
    (h : runAlone S c.site faults (propose S.codec c op p principal) w = (out, w')) :
    GoesThrough out w w' ↔ isBlank principal = false ∧
      (c.authorizer ⟨principal, .write, some r.recordType, some r.recordKey⟩).allowed = true ∧
      c.settings.quorumSize ≤ 3 ∧ fitsInteger r.recordVersion = true ∧ r.windowId.all fitsInteger = true := by
  by_cases hadmitted : isBlank principal = false ∧
      (c.authorizer ⟨principal, .write, some r.recordType, some r.recordKey⟩).allowed = true
  · rw [propose_admitted ⟨hadmitted.1, hp.built, hadmitted.2⟩] at h
    rw [write_goesThrough_iff hq hdigest hp.stageable hw h, FitsColumns]
    exact ⟨fun hfits => ⟨hadmitted.1, hadmitted.2, hfits⟩, fun hfits => hfits.2.2⟩
  · have hnone : ¬ ∃ r', Admitted S c principal p r' := by
      rintro ⟨r', hr'⟩
      have hsame := hp.built.symm.trans hr'.built
      rw [Except.ok.injEq] at hsame
      subst hsame
      exact hadmitted ⟨hr'.named, hr'.allowed⟩
    obtain ⟨outcome, reason, record, hprog, hout⟩ := propose_refused op hnone
    rw [hprog] at h
    obtain ⟨rfl, rfl⟩ := Prod.mk.inj h
    refine iff_of_false (fun hres => outcome_of_writeResult ?_ hres.1) fun hfits => hadmitted ⟨hfits.1, hfits.2.1⟩
    rcases hout with rfl | rfl <;> exact nofun

end Write

/-! ## A window past the columns -/

/-- The development draft, with a window. -/
def windowDraft (window : Option Nat) : BlackboardRecordDraft String := { devDraft 1 1 with windowId := window }

def windowDigests : List (HashedFields String × String) :=
  [((windowDraft none).fields, "d54d20757ed10e25fd1b8da7dd5b8c57064a4d1d754868dde3d34afe8fc2c1ef"),
    ((windowDraft (some (2 ^ 63))).fields, "3559a8b7afc02919b17bb3e62e4a48022db6018310dabe943e214f485d0c028f")]

def windowCodec : RecordCodec String where
  canonicalJsonStr := id
  loads := some
  computeContentHash f := (windowDigests.find? fun d => d.1 = f).map Prod.snd
  firewallViolations _ := []
  validUtcTimestamp _ := false
  canonicalSize r := some (if r.windowId = none then 347 else 362)

def windowSystem : System String := ⟨windowCodec, fun _ _ => ⟨262144, 300, 16⟩⟩

def windowRecord (window : Option Nat) : BlackboardRecordV1 String :=
  let hash := (windowCodec.computeContentHash (windowDraft window).fields).getD ""
  { toHashedFields := (windowDraft window).fields
    recordId := deriveRecordId "dev" 1 hash
    contentHash := hash }

/-- The first write of the key, alone and without faults. -/
def windowWrite (window : Option Nat) : Except String WriteResultV1 × World windowSystem.codec :=
  runAlone windowSystem 0 (fun _ => calm 10)
    (propose windowSystem.codec (devCoordinator 0 0 2 devQuorum_pos) "bbw-1" (.draft (windowDraft window)) "agent")
    (initial windowSystem)

theorem window_hexDigests : HexDigests windowCodec := by
  intro f h hf
  obtain ⟨d, hd, rfl⟩ := Option.map_eq_some_iff.mp hf
  have hall : ∀ d ∈ windowDigests, '#' ∉ d.2.toList := by decide
  exact hall d (List.mem_of_find?_eq_some hd)

theorem window_awaits (window : Option Nat) : Awaits windowSystem 0 (windowRecord window) (initial windowSystem) :=
  ⟨fun _ => nofun, fun _ => rfl, fun _ _ hp => absurd hp List.not_mem_nil⟩

theorem window_accepted {window : Option Nat} (h : window = none ∨ window = some (2 ^ 63)) :
    Accepted windowSystem (devCoordinator 0 0 2 (by decide)) (.draft (windowDraft window)) (windowRecord window) := by
  rcases h with rfl | rfl
  · exact ⟨by rfl, by rfl, fun _ => by rfl⟩
  · exact ⟨by rfl, by rfl, fun _ => by rfl⟩

theorem valid_record_goes_through_iff_window :
    GoesThrough (windowWrite none).1 (initial windowSystem) (windowWrite none).2 := by
  have hrun : runAlone windowSystem (devCoordinator 0 0 2 (by decide)).site (fun _ => calm 10)
      (propose windowSystem.codec (devCoordinator 0 0 2 (by decide)) "bbw-1" (.draft (windowDraft none)) "agent")
      (initial windowSystem) = ((windowWrite none).1, (windowWrite none).2) := Prod.mk.eta.symm
  have hquiet : Quiet fun _ : Call String => calm 10 := fun _ => ⟨rfl, rfl⟩
  exact (valid_record_goes_through_iff window_hexDigests hquiet (window_accepted (.inl (Eq.refl none)))
    (window_awaits none) hrun).mpr ⟨by decide, rfl, by decide, by decide, rfl⟩

/-- The record is staged everywhere, committed nowhere, and stays staged. -/
theorem window_overflows : Accepted windowSystem (devCoordinator 0 0 2 (by decide))
      (.draft (windowDraft (some (2 ^ 63)))) (windowRecord (some (2 ^ 63))) ∧
    Awaits windowSystem 0 (windowRecord (some (2 ^ 63))) (initial windowSystem) ∧
    (windowWrite (some (2 ^ 63))).1.toOption.map WriteResultV1.outcome = some .failedStorage ∧
    (∀ ρ, (tablesOf (windowWrite (some (2 ^ 63))).2 ρ).pendingPrepares.length = 1) ∧
    ¬ GoesThrough (windowWrite (some (2 ^ 63))).1 (initial windowSystem) (windowWrite (some (2 ^ 63))).2 := by
  have hpending : ∀ ρ, (tablesOf (windowWrite (some (2 ^ 63))).2 ρ).pendingPrepares.length = 1 := by
    intro ρ
    cases ρ <;> decide
  refine ⟨window_accepted (.inr rfl), window_awaits _, by decide, hpending, fun h => ?_⟩
  have hlength := hpending .replicaA
  rw [h.2 .replicaA] at hlength
  cases hlength

end BlackboardValidRecords
