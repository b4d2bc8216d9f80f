import AgenticSoc.BlackboardValidRecords

/-!
# Catching up by repair

A repair gives a replica the record at the head of the majority. The store takes it only as
the next version, so a replica that lags behind by one version catches up, and no other does.
-/
namespace BlackboardResync

open BlackboardRecord BlackboardStorage BlackboardReplica BlackboardCoordinator BlackboardSystem
open BlackboardFailedQuorum BlackboardNextVersion BlackboardSolo BlackboardValidRecords Interaction LocalPrograms

variable {V : Type}

/-! ## The majority -/

section Majority

variable {observations : List (Observation V)} {q : Nat} {r : BlackboardRecordV1 V}

def presentWith (key : Nat × String) (o : Observation V) : Bool :=
  (o.responded && o.found) && decide (observationKey o = key)

/-- The majority's record is the one of an observation that enough others agree with. -/
theorem majorityRecord_some (h : majorityRecord q observations = some r) :
    ∃ o ∈ observations, o.responded = true ∧ o.found = true ∧ o.record = some r ∧
      q ≤ (observations.filter (presentWith (observationKey o))).length := by
  unfold majorityRecord at h
  split at h
  · cases h
  rename_i bestKey bestGroup rest hgroups
  obtain ⟨hgroup, hne, -⟩ := Grouping.largest_group hgroups
  split at h
  · cases h
  rename_i hq
  obtain ⟨o, tail, hcons⟩ := List.exists_cons_of_ne_nil hne
  simp only at hcons hgroup
  rw [hcons] at h
  have hmem : o ∈ bestGroup := hcons ▸ List.mem_cons_self
  rw [hgroup, List.mem_filter, List.mem_filter, Bool.and_eq_true] at hmem
  obtain ⟨⟨ho, hresponded, hfound⟩, hkey⟩ := hmem
  refine ⟨o, ho, hresponded, hfound, h, ?_⟩
  have hlen := Nat.le_of_not_lt hq
  rw [hgroup, List.filter_filter] at hlen
  refine hlen.trans_eq (congrArg List.length (List.filter_congr fun x _ => ?_))
  rw [presentWith, of_decide_eq_true hkey, Bool.and_comm]

/-- A group that is larger than any other is the majority. -/
theorem majorityRecord_of_group {key : Nat × String} (hpositive : 1 ≤ q)
    (hq : q ≤ (observations.filter (presentWith key)).length)
    (hother : ∀ key', key' ≠ key →
      (observations.filter (presentWith key')).length < (observations.filter (presentWith key)).length)
    (hrecord : ∀ o ∈ observations, presentWith key o = true → o.record = some r) :
    majorityRecord q observations = some r := by
  have hfilter : ∀ key', (observations.filter fun o => o.responded && o.found).filter (fun o => observationKey o = key') =
      observations.filter (presentWith key') := by
    intro key'
    rw [List.filter_filter]
    refine List.filter_congr fun x _ => ?_
    rw [presentWith, Bool.and_comm]
  unfold majorityRecord
  cases hgroups : orderedGroups (observations.filter fun o => o.responded && o.found) with
  | nil =>
    unfold orderedGroups at hgroups
    rw [Grouping.ordered_eq_nil] at hgroups
    rw [← hfilter, hgroups, List.filter_nil, List.length_nil] at hq
    omega
  | cons best rest =>
    obtain ⟨bestKey, bestGroup⟩ := best
    obtain ⟨hgroup, -, hmax⟩ := Grouping.largest_group hgroups
    simp only at hgroup
    have hlargest := hmax key
    rw [hfilter] at hlargest
    rw [hfilter] at hgroup
    have hkey : bestKey = key := by
      by_contra hne
      have := hother bestKey hne
      rw [← hgroup] at this
      exact absurd (hlargest.trans_lt this) (lt_irrefl _)
    subst hkey
    rw [← hgroup] at hq
    simp only
    rw [if_neg (by omega)]
    obtain ⟨o, tail, hcons⟩ := List.exists_cons_of_length_pos (by omega : 0 < bestGroup.length)
    have hmem : o ∈ bestGroup := hcons ▸ List.mem_cons_self
    rw [hgroup, List.mem_filter] at hmem
    rw [hcons]
    exact hrecord o hmem.1 hmem.2

end Majority

/-! ## The repair, replica by replica -/

section Repair

variable (S : System V) (site : Nat) (faults : Faults V) (op k : String) (probe : BlackboardRecordV1 V)

/-- What the repair concludes about a replica from the acknowledgement and the head row. -/
def concludeAt (ρ : ReplicaId) (ack : ReplicaAckV1) (row : Option CommittedRow) (s : Local) :
    (Bool × ReplicaId × String) × Local :=
  if ack.ackStatus = .ackCommitted ∧ (row.any fun h => h.recordId = probe.recordId) = true then
    ((true, ρ, "REPAIRED (" ++ ack.reason.getD "None" ++ ")"), (s.1, clearDivergence s.2))
  else match row.filter fun h => probe.recordVersion < h.recordVersion with
  | some h =>
    ((false, ρ, "PRESERVED_DIVERGENT_HEAD (local head v" ++ Nat.repr h.recordVersion ++ " kept)"),
      (s.1, markDiverged (S.settings site ρ).divergenceHistoryLimit ("resync op=" ++ op ++ " key=" ++ k ++ ": head v" ++
        Nat.repr h.recordVersion ++ " ahead of majority head v" ++ Nat.repr probe.recordVersion ++
        "; committed data preserved") s.2))
  | none => ((false, ρ, "REFUSED (" ++ ack.ackStatus.value ++ ": " ++ ack.reason.getD "None" ++ ")"), s)

def repairAt (ρ : ReplicaId) (s : Local) : (Bool × ReplicaId × String) × Local :=
  let out := upsertAt S faults op probe ρ s
  concludeAt S site op k probe ρ out.1 (rowOrNone (committedRow (faults (.headRow ρ k)) k none out.2.1)) out.2

/-- The conclusion is about the object of the replica, not about its store. -/
theorem repairAt_tables (ρ : ReplicaId) (s : Local) :
    (repairAt S site faults op k probe ρ s).2.1 = (upsertAt S faults op probe ρ s).2.1 := by
  unfold repairAt concludeAt
  simp only
  split
  · rfl
  · split
    · rfl
    · rfl

/-- The end of a repair, once the head row is read. -/
def conclude (ack : ReplicaAckV1) (row : Option CommittedRow) (ρ : ReplicaId) :
    Prog (Blackboard V) (Bool × ReplicaId × String) :=
  if ack.ackStatus = .ackCommitted ∧ (row.any fun h => h.recordId = probe.recordId) = true then do
    callClear ρ
    return (true, ρ, "REPAIRED (" ++ ack.reason.getD "None" ++ ")")
  else match row.filter fun h => probe.recordVersion < h.recordVersion with
  | some h => do
    callMark ("resync op=" ++ op ++ " key=" ++ k ++ ": head v" ++
      Nat.repr h.recordVersion ++ " ahead of majority head v" ++ Nat.repr probe.recordVersion ++
      "; committed data preserved") ρ
    return (false, ρ, "PRESERVED_DIVERGENT_HEAD (local head v" ++ Nat.repr h.recordVersion ++ " kept)")
  | none =>
    return (false, ρ, "REFUSED (" ++ ack.ackStatus.value ++ ": " ++ ack.reason.getD "None" ++ ")")

theorem acts_conclude (ack : ReplicaAckV1) (row : Option CommittedRow) (ρ : ReplicaId) :
    ActsAt S site faults ρ (conclude op k probe ack row ρ) (concludeAt S site op k probe ρ ack row) := by
  intro w
  unfold conclude
  by_cases haligned : ack.ackStatus = .ackCommitted ∧ (row.any fun h => h.recordId = probe.recordId) = true
  · have hconclude : concludeAt S site op k probe ρ ack row (view site ρ w) = _ := if_pos haligned
    rw [if_pos haligned, hconclude]
    exact acts_bind (acts_clear S site faults ρ) (fun _ => acts_ret _) w
  · have hconclude : concludeAt S site op k probe ρ ack row (view site ρ w) = _ := if_neg haligned
    rw [if_neg haligned, hconclude]
    cases row.filter fun h => probe.recordVersion < h.recordVersion with
    | some h => exact acts_bind (acts_mark S site faults _ ρ) (fun _ => acts_ret _) w
    | none => exact acts_ret _ w

theorem acts_repair (ρ : ReplicaId) :
    ActsAt S site faults ρ (repairReplica op k probe ρ) (repairAt S site faults op k probe ρ) := by
  have hread : ∀ ack, ActsAt S site faults ρ (callHeadRow k ρ >>= fun reply => conclude op k probe ack (rowOrNone reply) ρ)
      (fun s => concludeAt S site op k probe ρ ack (rowOrNone (committedRow (faults (.headRow ρ k)) k none s.1)) s) :=
    fun ack => acts_bind (acts_headRow S site faults k ρ) fun reply =>
      acts_conclude S site faults op k probe ack (rowOrNone reply) ρ
  exact acts_bind (acts_upsert S site faults op probe ρ) hread

end Repair

section Resync

variable {S : System V} {faults : Faults V} {c : Coordinator} {op principal k : String} {w w' : World S.codec}
  {report : ResyncReport}

/-- The answer of a replica to the probe for its head. -/
def headOf (S : System V) (site : Nat) (faults : Faults V) (k : String) (w : World S.codec) (σ : ReplicaId) : Observation V :=
  observeReplica S.codec σ (w.status site σ) (faults (.observe σ k none)) k none (tablesOf w σ)

/-- The record that the repair spreads. -/
def sourceOf (S : System V) (c : Coordinator) (faults : Faults V) (k : String) (w : World S.codec) :
    Option (BlackboardRecordV1 V) :=
  majorityRecord c.settings.quorumSize (c.replicas.map (headOf S c.site faults k w))

theorem alone_heads : ∃ w₁, runAlone S c.site faults (forEach (callObserve k none) c.replicas) w =
    (c.replicas.map (headOf S c.site faults k w), w₁) ∧ ∀ σ, view c.site σ w₁ = view c.site σ w := by
  have hdistinct : (c.replicas.map fun σ => σ).Nodup := by
    rw [List.map_id']
    exact c.distinct
  obtain ⟨hresult, hpart, -⟩ := run_forEach (fun σ _ => acts_observe S c.site faults k none σ) hdistinct w
  exact ⟨_, Prod.ext hresult rfl, fun σ => hpart σ (mem_replicas c σ)⟩

theorem view_tables {site : Nat} {w₁ : World S.codec} {σ : ReplicaId} (h : view site σ w₁ = view site σ w) :
    tablesOf w₁ σ = tablesOf w σ := congrArg Prod.fst h

/-- A repair without authorization or without a source leaves the stores alone. -/
theorem resync_refused (h : runAlone S c.site faults (resyncReplicasFromMajority c op principal k none) w = (report, w'))
    (hnone : (c.authorizer ⟨principal, .write, none, some k⟩).allowed = true → sourceOf S c faults k w = none)
    (σ : ReplicaId) : tablesOf w' σ = tablesOf w σ := by
  unfold resyncReplicasFromMajority at h
  by_cases hallowed : (c.authorizer ⟨principal, .write, none, some k⟩).allowed = true
  · obtain ⟨w₁, hrun, hw₁⟩ := alone_heads (S := S) (c := c) (k := k) (w := w)
    simp only [if_pos hallowed] at h
    rw [runAlone_bind hrun] at h
    have hsource := hnone hallowed
    unfold sourceOf at hsource
    rw [hsource] at h
    rw [← (Prod.mk.inj h).2]
    exact view_tables (hw₁ σ)
  · simp only [if_neg hallowed] at h
    rw [← (Prod.mk.inj h).2]

/-- What the repair does to the stores. -/
theorem resync_tables (h : runAlone S c.site faults (resyncReplicasFromMajority c op principal k none) w = (report, w'))
    (hallowed : (c.authorizer ⟨principal, .write, none, some k⟩).allowed = true) {probe : BlackboardRecordV1 V}
    (hsource : sourceOf S c faults k w = some probe) (σ : ReplicaId) :
    tablesOf w' σ =
      (upsertExternal S.codec σ (w.status c.site σ) (faults (.upsertExternal σ op probe)) op probe (tablesOf w σ)).1 := by
  obtain ⟨w₁, hrun, hw₁⟩ := alone_heads (S := S) (c := c) (k := k) (w := w)
  unfold resyncReplicasFromMajority at h
  simp only [if_pos hallowed] at h
  rw [runAlone_bind hrun] at h
  unfold sourceOf at hsource
  rw [hsource] at h
  have hdistinct : (c.replicas.map fun σ => σ).Nodup := by
    rw [List.map_id']
    exact c.distinct
  obtain ⟨-, hpart, -⟩ := run_forEach (fun σ _ => acts_repair S c.site faults op k probe σ) hdistinct w₁
  rcases hrepairs : runAlone S c.site faults (forEach (repairReplica op k probe) c.replicas) w₁ with ⟨reports, w₂⟩
  simp only [Option.getD_none] at h
  rw [runAlone_bind hrepairs] at h
  have hview : view c.site σ w₂ = (repairAt S c.site faults op k probe σ (view c.site σ w₁)).2 := by
    rw [← hpart σ (mem_replicas c σ)]
    exact congrArg (fun out => view c.site σ out.2) hrepairs.symm
  have ht := congrArg Prod.fst hview
  rw [repairAt_tables, hw₁] at ht
  rw [← (Prod.mk.inj h).2]
  exact ht

end Resync

/-! ## Replicas that lag behind -/

/-- The replica's record of a version of the key. -/
def versionAt {cd : RecordCodec V} (w : World cd) (σ : ReplicaId) (k : String) (v : Nat) : Option StagedRecord :=
  (getCommittedRow (tablesOf w σ) k v).map CommittedRow.toStagedRecord

/-- All replicas are available, the others hold the same `h` versions of the key, and this one
holds the same ones without the last `n`. -/
structure Lags (S : System V) (site : Nat) (k : String) (w : World S.codec) (ρ : ReplicaId) (h n : Nat) : Prop where
  available : ∀ σ, (w.status site σ).health ≠ .unavailable
  majority : ∀ σ, σ ≠ ρ → head (tablesOf w σ) k = h
  agree : ∀ σ τ, σ ≠ ρ → τ ≠ ρ → ∀ v, versionAt w σ k v = versionAt w τ k v
  behind : head (tablesOf w ρ) k + n = h
  lag : 1 ≤ n
  shared : ∀ σ, σ ≠ ρ → ∀ v, v ≤ head (tablesOf w ρ) k → versionAt w ρ k v = versionAt w σ k v

/-- Every replica has the history that the majority had. -/
def CaughtUp {cd : RecordCodec V} (k : String) (ρ : ReplicaId) (w w' : World cd) : Prop :=
  ∀ σ τ v, τ ≠ ρ → versionAt w' σ k v = versionAt w τ k v

/-- No committed row of any replica has changed. -/
def Unchanged {cd : RecordCodec V} (w w' : World cd) : Prop :=
  ∀ σ k v row, getCommittedRow (tablesOf w σ) k v = some row → getCommittedRow (tablesOf w' σ) k v = some row

/-- The head row of the majority loads as this record. -/
def HeadLoads (S : System V) (k : String) (w : World S.codec) (ρ : ReplicaId) (h : Nat) (r : BlackboardRecordV1 V) : Prop :=
  ∀ σ, σ ≠ ρ → ∃ row, getCommittedRow (tablesOf w σ) k h = some row ∧ rowToRecord S.codec row = .ok r

section Lag

variable {S : System V} {site : Nat} {faults : Faults V} {c : Coordinator} {op principal k : String}
  {w w' : World S.codec} {ρ : ReplicaId} {h n : Nat} {r : BlackboardRecordV1 V} {report : ResyncReport}

/-- A row loads by what it was staged as. -/
theorem rowToRecord_congr {cd : RecordCodec V} {a b : CommittedRow} (h : a.toStagedRecord = b.toStagedRecord) :
    rowToRecord cd a = rowToRecord cd b := by
  obtain ⟨a, opA, utcA⟩ := a
  obtain ⟨b, opB, utcB⟩ := b
  simp only at h
  subst h
  rfl

theorem valid_tables {cd : RecordCodec V} (w : World cd) (σ : ReplicaId) : Valid (tablesOf w σ) := (w.store σ).valid

theorem versionAt_none {cd : RecordCodec V} {w : World cd} {σ : ReplicaId} {v : Nat} (hv : head (tablesOf w σ) k < v) :
    versionAt w σ k v = none := by
  have hnone : getCommittedRow (tablesOf w σ) k v = none := by
    cases hg : getCommittedRow (tablesOf w σ) k v with
    | none => rfl
    | some row =>
      have hle := (((valid_tables w σ).getCommittedRow_isSome k v).mp (by rw [hg]; rfl)).2
      omega
  rw [versionAt, hnone]
  rfl

theorem headOf_found {σ : ReplicaId} (hf : (headOf S site faults k w σ).found = true) :
    ∃ row r, getCommittedRow (tablesOf w σ) k (head (tablesOf w σ) k) = some row ∧ rowToRecord S.codec row = .ok r ∧
      r.recordVersion = head (tablesOf w σ) k ∧
      headOf S site faults k w σ = ⟨σ, true, true, some r.recordVersion, some r.contentHash, some r, none⟩ := by
  obtain ⟨row, r, hrow, hload, hobs⟩ := observe_found (S := S) (faults (.observe σ k none)) σ hf
  obtain ⟨hget, hkey, hversion, -⟩ := readRow_some (w.store σ).valid hrow
  have hhead := hversion rfl
  have hr : r.recordVersion = row.recordVersion := congrArg StagedRecord.recordVersion (rowToRecord_ok S.codec hload).1
  exact ⟨row, r, hhead ▸ hget, hload, hr.trans hhead, hobs⟩

theorem headOf_loads (hq : ∀ q, (faults q).fault = none) (hw : Lags S site k w ρ h n) (hr : HeadLoads S k w ρ h r)
    {σ : ReplicaId} (hσ : σ ≠ ρ) :
    headOf S site faults k w σ = ⟨σ, true, true, some r.recordVersion, some r.contentHash, some r, none⟩ := by
  obtain ⟨row, hrow, hload⟩ := hr σ hσ
  have hpos : head (tablesOf w σ) k ≠ 0 := by
    have := hw.majority σ hσ
    have := hw.behind
    have := hw.lag
    omega
  have hhead : getHeadRow (tablesOf w σ) k = some row := by
    rw [(valid_tables w σ).getHeadRow_eq, if_neg hpos]
    rw [← hw.majority σ hσ] at hrow
    exact hrow
  simp only [headOf, observeReplica, if_neg (hw.available σ), committedRow, guarded_eq (hq _), hhead, hload]

theorem others_length (c : Coordinator) (ρ : ReplicaId) : (c.replicas.filter fun σ => σ != ρ).length = 2 := by
  have herase := c.distinct.erase_eq_filter ρ
  have hlength := List.length_erase_of_mem (mem_replicas c ρ)
  rw [herase, c.three] at hlength
  exact hlength

theorem self_length (c : Coordinator) (ρ : ReplicaId) : (c.replicas.filter fun σ => σ == ρ).length ≤ 1 := by
  rw [← List.countP_eq_length_filter]
  exact List.nodup_iff_count_le_one.mp c.distinct ρ

/-- The replica that lags behind does not show the version at the head of the majority. -/
theorem lagging_absent (hw : Lags S site k w ρ h n) (hash : String) :
    presentWith (h, hash) (headOf S site faults k w ρ) = false := by
  rw [Bool.eq_false_iff]
  intro hpresent
  simp only [presentWith, Bool.and_eq_true, decide_eq_true_eq] at hpresent
  obtain ⟨-, r, -, -, hversion, hobs⟩ := headOf_found hpresent.1.2
  have hkey := hpresent.2
  rw [hobs, observationKey, Prod.mk.injEq] at hkey
  have := hw.behind
  have := hw.lag
  simp only [Option.getD_some] at hkey
  omega

/-- At most the others show the version at the head of the majority. -/
theorem heads_at (hw : Lags S c.site k w ρ h n) (hash : String) :
    ((c.replicas.map (headOf S c.site faults k w)).filter (presentWith (h, hash))).length ≤ 2 := by
  rw [List.filter_map, List.length_map]
  refine le_trans (List.Sublist.length_le ?_) (others_length c ρ).le
  refine List.monotone_filter_right _ fun σ hσ => ?_
  rw [bne_iff_ne]
  rintro rfl
  rw [Function.comp, lagging_absent hw] at hσ
  cases hσ

theorem another (ρ : ReplicaId) : ∃ σ, σ ≠ ρ := by
  cases ρ with
  | replicaA => exact ⟨.replicaB, nofun⟩
  | replicaB => exact ⟨.replicaA, nofun⟩
  | replicaC => exact ⟨.replicaA, nofun⟩

theorem loads_version (hr : HeadLoads S k w ρ h r) : r.recordKey = k ∧ r.recordVersion = h := by
  obtain ⟨σ, hσ⟩ := another ρ
  obtain ⟨row, hrow, hload⟩ := hr σ hσ
  obtain ⟨-, hkey, hversion⟩ := getCommittedRow_some hrow
  have hform := (rowToRecord_ok S.codec hload).1
  exact ⟨(congrArg StagedRecord.recordKey hform).trans hkey, (congrArg StagedRecord.recordVersion hform).trans hversion⟩

theorem source_of_loads (hq : ∀ q, (faults q).fault = none) (hw : Lags S c.site k w ρ h n)
    (hr : HeadLoads S k w ρ h r) (hquorum : c.settings.quorumSize ≤ 2) : sourceOf S c faults k w = some r := by
  have hversion := (loads_version hr).2
  have hkeyed : ∀ σ, σ ≠ ρ → ∀ key, presentWith key (headOf S c.site faults k w σ) = true ↔ key = (h, r.contentHash) := by
    intro σ hσ key
    rw [headOf_loads hq hw hr hσ]
    simp [presentWith, observationKey, hversion, eq_comm]
  have hlength : ((c.replicas.map (headOf S c.site faults k w)).filter (presentWith (h, r.contentHash))).length = 2 := by
    rw [List.filter_map, List.length_map, ← others_length c ρ]
    refine congrArg List.length (List.filter_congr fun σ _ => ?_)
    rw [Function.comp]
    by_cases hσ : σ = ρ
    · subst hσ
      rw [lagging_absent hw]
      simp
    · rw [(hkeyed σ hσ _).mpr rfl]
      simp [hσ]
  refine majorityRecord_of_group c.settings.quorumPositive (hlength.symm ▸ hquorum) ?_ ?_
  · intro key hkey
    rw [hlength, List.filter_map, List.length_map]
    refine Nat.lt_succ_of_le (le_trans (List.Sublist.length_le ?_) (self_length c ρ))
    refine List.monotone_filter_right _ fun σ hσ => ?_
    rw [beq_iff_eq]
    by_contra hne
    exact hkey ((hkeyed σ hne key).mp hσ)
  · intro o ho hpresent
    obtain ⟨σ, -, rfl⟩ := List.mem_map.mp ho
    have hσ : σ ≠ ρ := by
      rintro rfl
      rw [lagging_absent hw] at hpresent
      cases hpresent
    rw [headOf_loads hq hw hr hσ]

/-- A source at the head of the majority is the record that its head rows load as. -/
theorem loads_of_source (hw : Lags S c.site k w ρ h n) (hsource : sourceOf S c faults k w = some r)
    (hversion : r.recordVersion = h) : HeadLoads S k w ρ h r ∧ c.settings.quorumSize ≤ 2 := by
  obtain ⟨o, ho, hresponded, hfound, hrecord, hcount⟩ := majorityRecord_some hsource
  obtain ⟨σ, -, rfl⟩ := List.mem_map.mp ho
  obtain ⟨row, r', hrow, hload, hhead, hobs⟩ := headOf_found hfound
  rw [hobs, Option.some.injEq] at hrecord
  subst hrecord
  rw [← hhead, hversion] at hrow
  have hkey : observationKey (headOf S c.site faults k w σ) = (h, r'.contentHash) := by
    rw [hobs, observationKey, ← hversion]
    rfl
  rw [hkey] at hcount
  refine ⟨fun τ hτ => ?_, hcount.trans (heads_at hw _)⟩
  have hσ : σ ≠ ρ := by
    rintro rfl
    have := hw.behind
    have := hw.lag
    omega
  have hsame := hw.agree σ τ hσ hτ h
  rw [versionAt, hrow] at hsame
  obtain ⟨row', hrow', hform⟩ := Option.map_eq_some_iff.mp hsame.symm
  exact ⟨row', hrow', rowToRecord_congr hform ▸ hload⟩

/-! ## The insert -/

theorem insertCommitted_fits {t t' : Tables} {row : CommittedRow} (h : insertCommitted t row = .ok t') :
    fitsInteger row.recordVersion = true ∧ row.windowId.all fitsInteger = true := by
  unfold insertCommitted at h
  split at h
  · cases h
  · rename_i hfits
    simpa using hfits

/-- What a repair inserts fits the columns. -/
theorem upsertCommitted_fits {t t' : Tables} {row : CommittedRow} {res : UpsertExternalResult}
    (h : upsertCommittedExternal t row = .ok (t', res)) (hchanged : t' ≠ t) :
    fitsInteger row.recordVersion = true ∧ row.windowId.all fitsInteger = true := by
  unfold upsertCommittedExternal at h
  split at h
  · cases h
  split at h
  · split at h
    · rw [Except.ok.injEq, Prod.mk.injEq] at h
      exact absurd h.1.symm hchanged
    · rw [Except.ok.injEq, Prod.mk.injEq] at h
      exact absurd h.1.symm hchanged
  split at h
  · rw [Except.ok.injEq, Prod.mk.injEq] at h
    exact absurd h.1.symm hchanged
  split at h
  · cases h
  · rename_i hinsert
    exact insertCommitted_fits hinsert

theorem upsert_fits {cd : RecordCodec V} {σ : ReplicaId} {st : ReplicaStatus} {e : Env V} {t : Tables}
    (hchanged : (upsertExternal cd σ st e op r t).1 ≠ t) : FitsColumns r := by
  unfold upsertExternal at hchanged
  split at hchanged
  · exact absurd rfl hchanged
  split at hchanged
  · exact absurd rfl hchanged
  · exact absurd rfl hchanged
  split at hchanged
  · exact absurd rfl hchanged
  all_goals rename_i hok; exact upsertCommitted_fits (guarded_ok hok) hchanged

/-- A verified record that is next for its key and fits is inserted. -/
theorem upsert_next {cd : RecordCodec V} {σ : ReplicaId} {st : ReplicaStatus} {e : Env V} {t : Tables}
    (hst : st.health ≠ .unavailable) (he : e.fault = none) (hr : Verified cd r) (ht : Valid t)
    (hnext : r.recordVersion = head t r.recordKey + 1) (hfits : FitsColumns r)
    (hunused : ∀ row ∈ t.committedRecords, row.recordId ≠ r.recordId) :
    (upsertExternal cd σ st e op r t).1 =
      promoteRow t r.recordKey r.recordVersion (recordToStorageValues cd r op e.utc) := by
  have hnone : getCommittedRow t r.recordKey r.recordVersion = none := by
    cases hg : getCommittedRow t r.recordKey r.recordVersion with
    | none => rfl
    | some row =>
      have hle := ((ht.getCommittedRow_isSome _ _).mp (by rw [hg]; rfl)).2
      omega
  have hinsert : insertCommitted t (recordToStorageValues cd r op e.utc) =
      .ok { t with committedRecords := t.committedRecords ++ [recordToStorageValues cd r op e.utc] } := by
    unfold insertCommitted
    rw [if_neg, if_neg, if_neg]
    · rw [Bool.not_eq_true, List.any_eq_false]
      exact fun row hrow hid => hunused row hrow (of_decide_eq_true hid)
    · rw [Bool.not_eq_true, List.any_eq_false]
      exact fun row hrow hslot => (getCommittedRow_eq_none).mp hnone row hrow (of_decide_eq_true hslot)
    · simp [recordToStorageValues, fullRecordJson, hfits.1, hfits.2]
  have hupsert : upsertCommittedExternal t (recordToStorageValues cd r op e.utc) =
      .ok (promoteRow t r.recordKey r.recordVersion (recordToStorageValues cd r op e.utc), ⟨.inserted, none⟩) := by
    have hget : getCommittedRow t (recordToStorageValues cd r op e.utc).recordKey
        (recordToStorageValues cd r op e.utc).recordVersion = none := hnone
    have hat : (recordToStorageValues cd r op e.utc).recordVersion =
        head t (recordToStorageValues cd r op e.utc).recordKey + 1 := hnext
    have hfit : fitsInteger (recordToStorageValues cd r op e.utc).recordVersion = true := hfits.1
    unfold upsertCommittedExternal
    simp only [hfit, Bool.not_true, Bool.false_eq_true, if_false, hget, if_neg (not_not.mpr hat), hinsert]
    rfl
  simp only [upsertExternal, refusal_none hst he, (verifyRecordIntegrity_ok cd r).mpr hr, guarded_eq he, hupsert]

/-- A record that is in place is left alone. -/
theorem upsert_present {cd : RecordCodec V} {σ : ReplicaId} {st : ReplicaStatus} {e : Env V} {t : Tables}
    {row : CommittedRow} (ht : Valid t) (h : getCommittedRow t r.recordKey r.recordVersion = some row) :
    (upsertExternal cd σ st e op r t).1 = t := by
  rcases upsertExternal_effect cd σ st e t op r with ⟨-, hsame⟩ | ⟨-, hsame, -⟩ | ⟨-, -, hnext, -⟩
  · exact hsame
  · exact hsame
  · have hle := ((ht.getCommittedRow_isSome r.recordKey r.recordVersion).mp (by rw [h]; rfl)).2
    omega

/-! ## Catching up -/

theorem unchanged_resync
    (hrun : runAlone S c.site faults (resyncReplicasFromMajority c op principal k none) w = (report, w')) :
    Unchanged w w' := by
  intro σ k' v row hrow
  by_cases hsource : (c.authorizer ⟨principal, .write, none, some k⟩).allowed = true ∧ (sourceOf S c faults k w).isSome
  · obtain ⟨probe, hprobe⟩ := Option.isSome_iff_exists.mp hsource.2
    rw [resync_tables hrun hsource.1 hprobe σ]
    exact (upsertExternal_edit S.codec σ _ _ (tablesOf w σ) op probe).committed hrow
  · rw [resync_refused hrun (fun hallowed => ?_) σ]
    · exact hrow
    · rw [← Option.not_isSome_iff_eq_none]
      exact fun hsome => hsource ⟨hallowed, hsome⟩

/-- The majority has the version at its head, and the replica that lags behind does not. -/
theorem missing_head (hw : Lags S site k w ρ h n) :
    getCommittedRow (tablesOf w ρ) k h = none ∧ ∀ τ, τ ≠ ρ → versionAt w τ k h ≠ none := by
  have hbehind := hw.behind
  have hlag := hw.lag
  constructor
  · cases hg : getCommittedRow (tablesOf w ρ) k h with
    | none => rfl
    | some row =>
      have hle := (((valid_tables w ρ).getCommittedRow_isSome k h).mp (by rw [hg]; rfl)).2
      omega
  · intro τ hτ hnone
    have hhead := hw.majority τ hτ
    have hsome := ((valid_tables w τ).getCommittedRow_isSome k h).mpr ⟨by omega, by omega⟩
    rw [versionAt, Option.map_eq_none_iff] at hnone
    rw [hnone] at hsome
    cases hsome

/-- What a lagging replica that catches up was given. -/
theorem given_of_caughtUp (hw : Lags S c.site k w ρ h n)
    (hrun : runAlone S c.site faults (resyncReplicasFromMajority c op principal k none) w = (report, w'))
    (hcaught : CaughtUp k ρ w w') : (c.authorizer ⟨principal, .write, none, some k⟩).allowed = true ∧
      ∃ r, sourceOf S c faults k w = some r ∧ r.recordVersion = h ∧ n = 1 ∧ FitsColumns r := by
  obtain ⟨τ, hτ⟩ := another ρ
  obtain ⟨hmissing, hthere⟩ := missing_head hw
  have hgot : getCommittedRow (tablesOf w' ρ) k h ≠ none := by
    intro hnone
    refine hthere τ hτ ?_
    rw [← hcaught ρ τ h hτ, versionAt, hnone]
    rfl
  have hchanged : tablesOf w' ρ ≠ tablesOf w ρ := fun he => hgot (he ▸ hmissing)
  by_cases hsource : (c.authorizer ⟨principal, .write, none, some k⟩).allowed = true ∧ (sourceOf S c faults k w).isSome
  swap
  · refine absurd (resync_refused hrun (fun hallowed => ?_) ρ) hchanged
    rw [← Option.not_isSome_iff_eq_none]
    exact fun hsome => hsource ⟨hallowed, hsome⟩
  obtain ⟨r, hr⟩ := Option.isSome_iff_exists.mp hsource.2
  have htables := resync_tables hrun hsource.1 hr ρ
  rw [htables] at hchanged hgot
  have hfits := upsert_fits hchanged
  refine ⟨hsource.1, r, hr, ?_⟩
  rcases upsertExternal_effect S.codec ρ (w.status c.site ρ) (faults (.upsertExternal ρ op r)) (tablesOf w ρ) op r with
    ⟨-, hsame⟩ | ⟨-, hsame, -⟩ | ⟨-, -, hnext, hpromoted⟩
  · exact absurd hsame hchanged
  · exact absurd hsame hchanged
  · rw [hpromoted, show tablesOf w ρ = (w.store ρ).tables from rfl, repaired_slot (S := S) (w.store ρ) hnext] at hgot
    by_cases hslot : r.recordKey = k ∧ r.recordVersion = h
    · obtain ⟨hkey, hversion⟩ := hslot
      rw [hkey, hversion] at hnext
      have := hw.behind
      exact ⟨hversion, by omega, hfits⟩
    · rw [if_neg hslot] at hgot
      exact absurd hmissing hgot

/-- A repair with the record at the head of the majority brings a replica up that lags by one version. -/
theorem caughtUp_of_source (hdigest : HexDigests S.codec) (hq : ∀ q, (faults q).fault = none)
    (hw : Lags S c.site k w ρ h 1)
    (hrun : runAlone S c.site faults (resyncReplicasFromMajority c op principal k none) w = (report, w'))
    (hallowed : (c.authorizer ⟨principal, .write, none, some k⟩).allowed = true) (hr : HeadLoads S k w ρ h r)
    (hsource : sourceOf S c faults k w = some r) (hfits : FitsColumns r) : CaughtUp k ρ w w' := by
  obtain ⟨hkey, hversion⟩ := loads_version hr
  have hbehind := hw.behind
  intro σ τ v hτ
  obtain ⟨row, hrow, hload⟩ := hr τ hτ
  obtain ⟨hform, hverified⟩ := rowToRecord_ok S.codec hload
  have htables := resync_tables hrun hallowed hsource σ
  by_cases hσ : σ = ρ
  · subst hσ
    have hnext : r.recordVersion = head (tablesOf w σ) r.recordKey + 1 := by
      rw [hkey, hversion]
      exact hbehind.symm
    rw [upsert_next (hw.available σ) (hq _) hverified (valid_tables w σ) hnext hfits
      (unused_of_digests hdigest (w.store σ) hverified hnext)] at htables
    unfold versionAt
    rw [htables, show tablesOf w σ = (w.store σ).tables from rfl, repaired_slot (S := S) (w.store σ) hnext]
    by_cases hv : v = h
    · rw [if_pos ⟨hkey, hversion.trans hv.symm⟩, hv, hrow]
      exact congrArg some hform
    · rw [if_neg fun hslot => hv (hslot.2.symm.trans hversion)]
      change versionAt w σ k v = versionAt w τ k v
      rcases Nat.lt_or_ge (head (tablesOf w σ) k) v with hlt | hle
      · rw [versionAt_none hlt, versionAt_none (by rw [hw.majority τ hτ]; omega)]
      · exact hw.shared τ hτ v hle
  · obtain ⟨row', hrow', -⟩ := hr σ hσ
    rw [← hkey, ← hversion] at hrow'
    rw [upsert_present (valid_tables w σ) hrow'] at htables
    unfold versionAt
    rw [htables]
    exact hw.agree σ τ hσ hτ v

/-- A lagging replica catches up by a repair without faults exactly when it lags by one version, the
quorum is at most two, and the record at the head of the majority loads and fits. -/
theorem resync_catches_up_iff (hdigest : HexDigests S.codec) (hq : ∀ q, (faults q).fault = none)
    (hw : Lags S c.site k w ρ h n)
    (hrun : runAlone S c.site faults (resyncReplicasFromMajority c op principal k none) w = (report, w')) :
    CaughtUp k ρ w w' ∧ Unchanged w w' ↔
      n = 1 ∧ c.settings.quorumSize ≤ 2 ∧ (c.authorizer ⟨principal, .write, none, some k⟩).allowed = true ∧
        ∃ r, HeadLoads S k w ρ h r ∧ FitsColumns r := by
  constructor
  · rintro ⟨hcaught, -⟩
    obtain ⟨hallowed, r, hsource, hversion, hn, hfits⟩ := given_of_caughtUp hw hrun hcaught
    obtain ⟨hloads, hquorum⟩ := loads_of_source hw hsource hversion
    exact ⟨hn, hquorum, hallowed, r, hloads, hfits⟩
  · rintro ⟨rfl, hquorum, hallowed, r, hloads, hfits⟩
    have hsource := source_of_loads hq hw hloads hquorum
    exact ⟨caughtUp_of_source hdigest hq hw hrun hallowed hloads hsource hfits, unchanged_resync hrun⟩

end Lag

/-! ## Evaluation -/

/-- The hook reports the third replica down. -/
def thirdDown : Faults String
  | .prepare .replicaC _ _ => failing 10 (.hookUnavailable "down")
  | _ => calm 10

/-- A write that the third replica misses. -/
def missedWrite (op : String) (version x : Nat) (w : World devSystem.codec) : World devSystem.codec :=
  (runAlone devSystem 0 thirdDown
    (propose devSystem.codec (devCoordinator 0 0 2 devQuorum_pos) op (.draft (devDraft version x)) "agent") w).2

def devRepair (w : World devSystem.codec) : ResyncReport × World devSystem.codec :=
  runAlone devSystem 0 (fun _ => calm 20)
    (resyncReplicasFromMajority (devCoordinator 0 0 2 devQuorum_pos) "bbs-1" "agent" "dev" none) w

def behindByOne : World devSystem.codec := missedWrite "bbw-1" 1 1 (initial devSystem)
def behindByTwo : World devSystem.codec := missedWrite "bbw-2" 2 3 behindByOne

theorem dev_hexDigests : HexDigests devCodec := by
  intro f h hf
  have hall : ∀ d ∈ devDigests, '#' ∉ d.2.toList := by decide
  obtain ⟨l₁, l₂, hl, -⟩ := List.lookup_eq_some_iff.mp hf
  exact hall _ (hl ▸ List.mem_append_right _ List.mem_cons_self)

/-- Two replicas with the same tables, and a third one without a row. -/
theorem lags_of_tables {w : World devSystem.codec} {h : Nat} (hsame : tablesOf w .replicaA = tablesOf w .replicaB)
    (hhead : head (tablesOf w .replicaA) "dev" = h) (hempty : tablesOf w .replicaC = emptyTables)
    (hzero : versionAt w .replicaA "dev" 0 = none) (havailable : ∀ σ, (w.status 0 σ).health ≠ .unavailable) (hpos : 1 ≤ h) :
    Lags devSystem 0 "dev" w .replicaC h h := by
  have hother : ∀ σ, σ ≠ ReplicaId.replicaC → tablesOf w σ = tablesOf w .replicaA := by
    intro σ hσ
    cases σ with
    | replicaA => rfl
    | replicaB => exact hsame.symm
    | replicaC => exact absurd rfl hσ
  refine ⟨havailable, fun σ hσ => hother σ hσ ▸ hhead, fun σ τ hσ hτ v => ?_, ?_, hpos, fun σ hσ v hv => ?_⟩
  · rw [versionAt, versionAt, hother σ hσ, hother τ hτ]
  · rw [hempty]
    exact Nat.zero_add h
  · rw [hempty] at hv
    obtain rfl := Nat.le_zero.mp hv
    rw [versionAt, versionAt, hother σ hσ, hempty]
    exact hzero.symm

theorem resync_catches_up_iff_one : CaughtUp "dev" .replicaC behindByOne (devRepair behindByOne).2 := by
  have hlags : Lags devSystem 0 "dev" behindByOne .replicaC 1 1 :=
    lags_of_tables (by decide) (by decide) (by decide) (by decide)
      (fun σ => by cases σ <;> decide) (by decide)
  have hrun : runAlone devSystem (devCoordinator 0 0 2 (by decide)).site (fun _ => calm 20)
      (resyncReplicasFromMajority (devCoordinator 0 0 2 (by decide)) "bbs-1" "agent" "dev" none) behindByOne =
      ((devRepair behindByOne).1, (devRepair behindByOne).2) := Prod.mk.eta.symm
  have hloads : HeadLoads devSystem "dev" behindByOne .replicaC 1 (devRecord 1 1) := by
    intro σ hσ
    have hload : (getCommittedRow (tablesOf behindByOne σ) "dev" 1).map (rowToRecord devCodec) =
        some (.ok (devRecord 1 1)) := by
      cases σ with
      | replicaA => decide
      | replicaB => decide
      | replicaC => exact absurd rfl hσ
    exact Option.map_eq_some_iff.mp hload
  exact ((resync_catches_up_iff dev_hexDigests (fun _ => rfl) hlags hrun).mpr
    ⟨rfl, by decide, rfl, devRecord 1 1, hloads, by decide, rfl⟩).1

/-- The replica that misses two versions is refused the second one. -/
theorem two_behind_refused : Lags devSystem 0 "dev" behindByTwo .replicaC 2 2 ∧
    (devRepair behindByTwo).1.replicas = [(.replicaA, "REPAIRED (already identical)"),
      (.replicaB, "REPAIRED (already identical)"),
      (.replicaC, "REFUSED (REJECT_CONFLICT: non-forward insert (local head=0))")] ∧
    tablesOf (devRepair behindByTwo).2 .replicaC = emptyTables ∧
    ¬ CaughtUp "dev" .replicaC behindByTwo (devRepair behindByTwo).2 := by
  have hempty : tablesOf (devRepair behindByTwo).2 .replicaC = emptyTables := by decide
  refine ⟨lags_of_tables (by decide) (by decide) (by decide) (by decide)
    (fun σ => by cases σ <;> decide) (by decide), by decide, hempty, fun hcaught => ?_⟩
  have hmissed := hcaught .replicaC .replicaA 2 nofun
  have hthere : (versionAt behindByTwo .replicaA "dev" 2).isSome = true := by decide
  rw [← hmissed, versionAt, hempty] at hthere
  cases hthere

end BlackboardResync
