import AgenticSoc.BlackboardFailedQuorum

/-!
# The next version of a key

The service proposes the version after the head of the first replica that is not
marked unavailable. Where that head is the one most replicas agree on, the write goes
through whatever the remaining replica holds; where it is not, the proposal is for
another version and no retry changes that.
-/
namespace BlackboardNextVersion

open BlackboardRecord BlackboardStorage BlackboardReplica BlackboardCoordinator BlackboardSystem
open BlackboardProtocol BlackboardFailedQuorum Interaction

variable {V : Type}

/-! ## A slot that takes the record -/

section Slot

variable {cd : RecordCodec V}

/-- What is stored under the record's identity is the record. -/
def Identifies (cd : RecordCodec V) (t : Tables) (r : BlackboardRecordV1 V) : Prop :=
  (∀ row ∈ t.committedRecords, row.recordId = r.recordId → row.toStagedRecord = fullRecordJson cd r) ∧
    ∀ p ∈ t.pendingPrepares, p.recordId = r.recordId → p.recordJson = fullRecordJson cd r

/-- The record is staged under the operation and is next for its key. -/
structure Promotable (cd : RecordCodec V) (t : Tables) (op : String) (r : BlackboardRecordV1 V) :
    Prop where
  pending : ∃ p, getPendingRow t r.recordKey r.recordVersion = some p ∧ p.operationId = op ∧
    p.recordId = r.recordId ∧ p.recordJson = fullRecordJson cd r
  next : r.recordVersion = head t r.recordKey + 1
  unused : ∀ row ∈ t.committedRecords, row.recordId ≠ r.recordId

theorem getPendingRow_insertPending {t : Tables} (row : PendingRow)
    (h : getPendingRow t row.recordKey row.recordVersion = none) :
    getPendingRow (insertPending t row) row.recordKey row.recordVersion = some row := by
  unfold getPendingRow insertPending at *
  rw [List.find?_append, h]
  simp

theorem getPendingRow_deletePending (t : Tables) (k : String) (v : Nat) :
    getPendingRow (deletePending t k v) k v = none := by
  rw [getPendingRow_eq_none]
  intro p hp
  simpa using (List.mem_filter.mp hp).2

theorem getPendingRow_updatePending (t : Tables) (k op utc : String) (v : Nat) (now : Rat) :
    getPendingRow (updatePending t k v op utc now) k v =
      (getPendingRow t k v).map fun p =>
        { p with operationId := op, createdAtUtc := utc, createdEpoch := now } := by
  unfold getPendingRow updatePending
  simp only
  induction t.pendingPrepares with
  | nil => rfl
  | cons p l ih =>
    rw [List.map_cons]
    by_cases hp : p.recordKey = k ∧ p.recordVersion = v
    · rw [if_pos ((inSlot_iff k v p).mpr hp), List.find?_cons_of_pos (by simpa using hp),
        List.find?_cons_of_pos (by simpa using hp)]
      rfl
    · have hin : ¬ inSlot k v p = true := fun hin => hp ((inSlot_iff k v p).mp hin)
      rw [if_neg hin, List.find?_cons_of_neg (by simpa using hp),
        List.find?_cons_of_neg (by simpa using hp), ih]

/-- No committed row carries the identity of a record that is still to come. -/
theorem unused_of_next {t : Tables} (hv : Valid t) {r : BlackboardRecordV1 V}
    (hnext : r.recordVersion = head t r.recordKey + 1) (hid : Identifies cd t r) :
    ∀ row ∈ t.committedRecords, row.recordId ≠ r.recordId := by
  intro row hrow he
  have hform := hid.1 row hrow he
  have hk : row.recordKey = r.recordKey := congrArg StagedRecord.recordKey hform
  have hver : row.recordVersion = r.recordVersion := congrArg StagedRecord.recordVersion hform
  have hget := hv.getCommittedRow_of_mem hrow
  have hsome : (getCommittedRow t r.recordKey r.recordVersion).isSome := by
    rw [← hk, ← hver, hget]
    rfl
  have hle := ((hv.getCommittedRow_isSome _ _).mp hsome).2
  omega

/-- An acknowledged prepare of the record leaves it promotable. -/
theorem promotable_of_effect {t t' : Tables} (hv : Valid t) {e : Env V} {op : String}
    {r : BlackboardRecordV1 V} {lease : Rat} {res : PrepareResult}
    (h : PrepareEffect t (stagedRow cd e op r) lease t' res)
    (hres : res.outcome = .prepared ∨ res.outcome = .preparedLeaseTakeover)
    (hid : Identifies cd t r) : Promotable cd t' op r := by
  have hframe := h.frame
  cases h with
  | stale _ => rcases hres with he | he <;> cases he
  | ahead _ => rcases hres with he | he <;> cases he
  | conflict p _ _ _ _ => rcases hres with he | he <;> cases he
  | fresh hnext hnone =>
    exact ⟨⟨_, getPendingRow_insertPending _ hnone, rfl, rfl, rfl⟩, hnext, unused_of_next hv hnext hid⟩
  | restaged p hnext hp hpid =>
    refine ⟨⟨{ p with operationId := op, createdAtUtc := e.utc, createdEpoch := e.now }, ?_, rfl, hpid,
      hid.2 p (getPendingRow_some hp).1 hpid⟩, hnext, unused_of_next hv hnext hid⟩
    have hupd := getPendingRow_updatePending t r.recordKey op e.utc r.recordVersion e.now
    rw [show getPendingRow t r.recordKey r.recordVersion = some p from hp] at hupd
    exact hupd
  | takeover p hnext hp hpid hl =>
    have hdel := getPendingRow_deletePending t r.recordKey r.recordVersion
    exact ⟨⟨_, getPendingRow_insertPending (stagedRow cd e op r) hdel, rfl, rfl, rfl⟩, hnext,
      unused_of_next hv hnext hid⟩

/-- A slot that is next and free of live staging takes the record. -/
theorem prepareInsert_takes (cd : RecordCodec V) {t : Tables} {r : BlackboardRecordV1 V} (op utc : String) {now lease : Rat}
    (hnext : r.recordVersion = head t r.recordKey + 1) (hfit : fitsInteger r.recordVersion = true)
    (hfree : ∀ p, getPendingRow t r.recordKey r.recordVersion = some p → lease < now - p.createdEpoch) :
    ∃ t' res, prepareInsert t r.recordKey r.recordVersion r.recordId r.contentHash op
      (fullRecordJson cd r) utc now lease = .ok (t', res) ∧
      (res.outcome = .prepared ∨ res.outcome = .preparedLeaseTakeover) := by
  unfold prepareInsert
  have hstale : ¬ r.recordVersion ≤ head t r.recordKey := by omega
  simp only
  rw [if_neg hstale, if_neg (not_not.mpr hnext), if_neg (by simp [hfit])]
  cases hp : getPendingRow t r.recordKey r.recordVersion with
  | none => exact ⟨_, ⟨.prepared, _, none⟩, rfl, .inl rfl⟩
  | some p =>
    simp only
    by_cases hid : p.recordId = r.recordId
    · rw [if_pos hid]
      exact ⟨_, ⟨.prepared, _, none⟩, rfl, .inl rfl⟩
    · rw [if_neg hid, if_pos (hfree p hp)]
      exact ⟨_, ⟨.preparedLeaseTakeover, _, none⟩, rfl, .inr rfl⟩

/-- A promotable record that the columns can hold is promoted. -/
theorem commitPromote_promotes {t : Tables} (hv : Valid t) {op : String} {r : BlackboardRecordV1 V}
    (h : Promotable cd t op r) (hfit : fitsInteger r.recordVersion = true)
    (hwindow : r.windowId.all fitsInteger = true) (utc : String) :
    ∃ t', commitPromote t r.recordKey r.recordVersion r.recordId op utc = .ok (t', .committed) := by
  obtain ⟨⟨p, hp, hop, hid, hjson⟩, hnext, hunused⟩ := h
  have hins : ∃ t', insertCommitted (deletePending t r.recordKey r.recordVersion)
      { toStagedRecord := p.recordJson, operationId := op, committedAtUtc := utc } = .ok t' := by
    unfold insertCommitted
    have hcols : (fitsInteger p.recordJson.recordVersion && p.recordJson.windowId.all fitsInteger) =
        true := by
      rw [hjson]
      exact Bool.and_eq_true_iff.mpr ⟨hfit, hwindow⟩
    have hslot : ((deletePending t r.recordKey r.recordVersion).committedRecords.any fun row =>
        row.recordKey = p.recordJson.recordKey ∧ row.recordVersion = p.recordJson.recordVersion) =
        false := by
      rw [List.any_eq_false]
      intro row hrow hc
      simp only [hjson, decide_eq_true_eq] at hc
      have hsome : (getCommittedRow t r.recordKey r.recordVersion).isSome := by
        have hget := hv.getCommittedRow_of_mem hrow
        rw [show row.recordKey = r.recordKey from hc.1,
          show row.recordVersion = r.recordVersion from hc.2] at hget
        rw [hget]
        rfl
      have hle := ((hv.getCommittedRow_isSome _ _).mp hsome).2
      omega
    have hids : ((deletePending t r.recordKey r.recordVersion).committedRecords.any fun row =>
        row.recordId = p.recordJson.recordId) = false := by
      rw [List.any_eq_false]
      intro row hrow hc
      simp only [hjson, decide_eq_true_eq] at hc
      exact hunused row hrow hc
    simp only [hcols, Bool.not_true, Bool.false_eq_true, if_false, hslot, hids]
    exact ⟨_, rfl⟩
  obtain ⟨t', hins⟩ := hins
  unfold commitPromote
  simp only [hfit, Bool.not_true, Bool.false_eq_true, if_false, hp]
  rw [if_neg (by simp [hop, hid]), if_neg (by simpa using hnext), hins]
  exact ⟨_, rfl⟩

end Slot

/-! ## Calls without faults -/

section Calls

variable {cd : RecordCodec V}

/-- No call meets a fault or a hook that replaces its record. -/
def Calm (env : Nat → Env V) : Prop := ∀ n, (env n).fault = none ∧ (env n).intercept = .original

/-- The record passes what the replicas of a process check before they store it. -/
structure Storable (S : System V) (site : Nat) (r : BlackboardRecordV1 V) : Prop where
  verified : Verified S.codec r
  firewall : runChecks [firewallCheck S.codec "payload" r.payload,
    firewallCheck S.codec "provenance" r.provenance] = .ok ()
  size : ∀ ρ, ensureRecordSize S.codec r (S.settings site ρ).maxRecordBytes = .ok ()
  version : fitsInteger r.recordVersion = true
  window : r.windowId.all fitsInteger = true

theorem refusal_none {ρ : ReplicaId} {st : ReplicaStatus} {e : Env V} (hst : st.health ≠ .unavailable)
    (he : e.fault = none) (op : String) (kind : ReplicaOperationKind)
    (record : Option (BlackboardRecordV1 V)) : refusal ρ st e op kind record = none := by
  unfold refusal
  rw [if_neg hst, he]

theorem guarded_eq {α : Type} {e : Env V} (he : e.fault = none) (x : Except StorageError α) :
    guarded e x = x := by
  unfold guarded
  rw [he]

/-- What a replica needs to take the record as its next version: it is available, its
head is the version before, the staging in the slot has expired, and the identity is
not taken by other content. -/
structure Ready (S : System V) (site : Nat) (env : Nat → Env V) (r : BlackboardRecordV1 V)
    (w : World S.codec) (ρ : ReplicaId) : Prop where
  available : (w.status site ρ).health ≠ .unavailable
  next : r.recordVersion = head (tablesOf w ρ) r.recordKey + 1
  free : ∀ p, getPendingRow (tablesOf w ρ) r.recordKey r.recordVersion = some p →
    ∀ n, (S.settings site ρ).pendingLeaseSeconds < (env n).now - p.createdEpoch
  identifies : Identifies S.codec (tablesOf w ρ) r

variable {S : System V} {site : Nat} {env : Nat → Env V} {r : BlackboardRecordV1 V} {op : String}

/-- A ready replica acknowledges the prepare and can then promote the record. -/
theorem prepare_ready (henv : Calm env) (hr : Storable S site r) {w : World S.codec} {ρ : ReplicaId}
    (h : Ready S site env r w ρ) (n : Nat) :
    (exec S site (.prepare ρ op r) (env n) w).2.ackStatus = .ackPrepared ∧
      Promotable S.codec (tablesOf (exec S site (.prepare ρ op r) (env n) w).1 ρ) op r := by
  have htables : tablesOf (exec S site (.prepare ρ op r) (env n) w).1 ρ =
      (prepare S.codec ρ (w.status site ρ) (env n) (S.settings site ρ) op r (tablesOf w ρ)).1 := by
    simp only [tablesOf, exec, onStore_tables, if_true]
  have hack : (prepare S.codec ρ (w.status site ρ) (env n) (S.settings site ρ) op r
      (tablesOf w ρ)).2.ackStatus = .ackPrepared := by
    obtain ⟨t', res, hins, hres⟩ := prepareInsert_takes S.codec op (env n).utc h.next hr.version
      (fun p hp => h.free p hp n)
    unfold prepare
    rw [refusal_none h.available (henv n).1, (henv n).2]
    simp only [stageRecord, (verifyRecordIntegrity_ok S.codec r).mpr hr.verified, hr.firewall, hr.size ρ,
      guarded_eq (henv n).1, hins]
    unfold prepareAck
    rcases hres with ho | ho <;> rw [ho] <;> rfl
  rw [htables]
  refine ⟨hack, ?_⟩
  rcases prepare_effect S.codec ρ (w.status site ρ) (env n) (tablesOf w ρ) (S.settings site ρ) op r with
    ⟨hne, -⟩ | ⟨-, staged, hpass, -, -, res, heffect, hres⟩
  · exact absurd hack hne
  · have hsame : staged = r := by
      rcases hpass with ⟨-, he⟩ | hsub
      · exact he
      · rw [(henv n).2] at hsub
        cases hsub
    subst hsame
    exact promotable_of_effect (w.store ρ).valid heffect hres h.identifies

/-- A replica where the record is promotable acknowledges the commit. -/
theorem commit_promotable (henv : Calm env) (hr : Storable S site r) {w : World S.codec} {ρ : ReplicaId}
    (hst : (w.status site ρ).health ≠ .unavailable) (h : Promotable S.codec (tablesOf w ρ) op r) (n : Nat) :
    (exec S site (.commit ρ op r) (env n) w).2.ackStatus = .ackCommitted := by
  change (commit ρ (w.status site ρ) (env n) op r (tablesOf w ρ)).2.ackStatus = .ackCommitted
  obtain ⟨t', hpromote⟩ := commitPromote_promotes (w.store ρ).valid h hr.version hr.window (env n).utc
  unfold commit
  rw [refusal_none hst (henv n).1]
  simp only [guarded_eq (henv n).1]
  rw [show commitPromote (tablesOf w ρ) r.recordKey r.recordVersion r.recordId op (env n).utc = _
    from hpromote]
  rfl

end Calls

/-! ## The quorum of one record -/

section Quorum

variable {r : BlackboardRecordV1 V} {acks : List ReplicaAckV1}

/-- The prepared acknowledgements are all of the record. -/
def OfRecord (r : BlackboardRecordV1 V) (acks : List ReplicaAckV1) : Prop :=
  ∀ a ∈ acks, a.ackStatus = .ackPrepared →
    compatibilityKey a = some (r.recordId, r.recordKey, r.recordVersion, r.contentHash)

theorem keyed_of_record (hall : OfRecord r acks) :
    (acks.filterMap fun a => (compatibilityKey a).map fun k => (k, a)) =
      (acks.filter fun a => a.ackStatus = .ackPrepared).map fun a =>
        ((r.recordId, r.recordKey, r.recordVersion, r.contentHash), a) := by
  induction acks with
  | nil => rfl
  | cons a acks ih =>
    have hrest := ih (fun b hb => hall b (List.mem_cons_of_mem _ hb))
    by_cases hs : a.ackStatus = .ackPrepared
    · rw [List.filterMap_cons_some (by rw [hall a (by simp) hs]; rfl),
        List.filter_cons_of_pos (by simpa using hs), List.map_cons, hrest]
    · have hnone : compatibilityKey a = none := by
        unfold compatibilityKey
        rw [if_neg hs]
      rw [List.filterMap_cons_none (by rw [hnone]; rfl), List.filter_cons_of_neg (by simpa using hs),
        hrest]

/-- Prepared acknowledgements of one record form one group. -/
theorem evaluateQuorum_met (hall : OfRecord r acks) {q : Nat} (hpos : 1 ≤ q)
    (hq : q ≤ (acks.filter fun a => a.ackStatus = .ackPrepared).length) :
    (evaluateQuorum acks q).decision = .quorumMet ∧
      ∀ a ∈ acks, a.ackStatus = .ackPrepared →
        a.replicaId ∈ (evaluateQuorum acks q).compatibleReplicaIds := by
  unfold evaluateQuorum
  simp only [keyed_of_record hall]
  cases hordered : Grouping.ordered (fun k : String × String × Nat × String => k.2.2.2)
      (Grouping.groupOn Prod.fst ((acks.filter fun a => a.ackStatus = .ackPrepared).map fun a =>
        ((r.recordId, r.recordKey, r.recordVersion, r.contentHash), a))) with
  | nil =>
    rw [Grouping.ordered_eq_nil, List.map_eq_nil_iff] at hordered
    rw [hordered, List.length_nil] at hq
    omega
  | cons best rest =>
    obtain ⟨hmembers, hne, -⟩ := Grouping.largest_group hordered
    -- the group has a member, and every member has the record's key
    have hbest : best.1 = (r.recordId, r.recordKey, r.recordVersion, r.contentHash) := by
      obtain ⟨m, hm⟩ := List.exists_mem_of_ne_nil _ hne
      rw [hmembers] at hm
      obtain ⟨hm, hkey⟩ := List.mem_filter.mp hm
      obtain ⟨a, -, rfl⟩ := List.mem_map.mp hm
      exact (of_decide_eq_true hkey).symm
    have hwhole : best.2 = (acks.filter fun a => a.ackStatus = .ackPrepared).map fun a =>
        ((r.recordId, r.recordKey, r.recordVersion, r.contentHash), a) := by
      rw [hmembers, List.filter_eq_self]
      intro m hm
      obtain ⟨a, -, rfl⟩ := List.mem_map.mp hm
      exact decide_eq_true hbest.symm
    have hlen : q ≤ best.2.length := by
      rw [hwhole, List.length_map]
      exact hq
    simp only [if_pos hlen, true_and]
    intro a ha hs
    rw [hwhole, List.map_map]
    exact List.mem_map.mpr ⟨a, List.mem_filter.mpr ⟨ha, decide_eq_true hs⟩, rfl⟩

end Quorum

/-! ## A write that goes through -/

section Write

variable {S : System V} {c : Coordinator} {env : Nat → Env V} {r : BlackboardRecordV1 V} {op : String}
  {G : Finset ReplicaId}

/-- After some of the prepares: the good replicas among them have acknowledged and can
promote the record. -/
structure Gathered (S : System V) (op : String) (r : BlackboardRecordV1 V) (G : Finset ReplicaId)
    (w₀ : World S.codec) (done : List ReplicaId) (acks : List ReplicaAckV1) (w : World S.codec) : Prop where
  ids : acks.map (fun a => a.replicaId) = done
  ofRecord : OfRecord r acks
  prepared : ∀ a ∈ acks, a.replicaId ∈ G → a.ackStatus = .ackPrepared
  promotable : ∀ ρ ∈ G, ρ ∈ done → Promotable S.codec (tablesOf w ρ) op r
  rest : ∀ ρ, ρ ∉ done → tablesOf w ρ = tablesOf w₀ ρ
  status : w.status = w₀.status

/-- A prepared acknowledgement without a hook names the record that was sent. -/
theorem prepared_key (henv : Calm env) (site n : Nat) (w : World S.codec) (ρ : ReplicaId)
    (hs : (exec S site (.prepare ρ op r) (env n) w).2.ackStatus = .ackPrepared) :
    compatibilityKey (exec S site (.prepare ρ op r) (env n) w).2 =
      some (r.recordId, r.recordKey, r.recordVersion, r.contentHash) := by
  change compatibilityKey (prepare S.codec ρ (w.status site ρ) (env n) (S.settings site ρ) op r
    (w.store ρ).tables).2 = _
  rcases prepare_effect S.codec ρ (w.status site ρ) (env n) (w.store ρ).tables (S.settings site ρ) op r with
    ⟨hne, -⟩ | ⟨-, staged, hpass, -, ⟨reason, hack⟩, -⟩
  · exact absurd hs hne
  · rcases hpass with ⟨-, rfl⟩ | hsub
    · rw [hack]
      rfl
    · rw [(henv n).2] at hsub
      cases hsub

theorem wp_prepares_gathered (henv : Calm env) (hr : Storable S c.site r) (w₀ : World S.codec)
    (hG : ∀ ρ ∈ G, Ready S c.site env r w₀ ρ) :
    Wp (lone S c.site env) (fun acks w => Gathered S op r G w₀ c.replicas acks w)
      (forEach (callPrepare op r) c.replicas) w₀ := by
  refine wp_forEach (fun done acks w => Gathered S op r G w₀ done acks w) ?_
    ⟨rfl, by simp [OfRecord], by simp, by simp, by simp, rfl⟩
  intro done ρ rest acks w hl hJ
  have hnew : ρ ∉ done := by
    intro hin
    have hnodup := c.distinct
    rw [hl] at hnodup
    exact (List.nodup_append.mp hnodup).2.2 ρ hin ρ (by simp) rfl
  have hslot : SubstitutesInSlot env r := by
    intro n r' hsub
    rw [(henv n).2] at hsub
    cases hsub
  refine wp_alone (I := Blackboard V) (exec S c.site) ?_
  rintro e ⟨n, rfl⟩
  obtain ⟨hother, hid, -⟩ := prepare_call c.site op hslot n w ρ
  have hready : ρ ∈ G → (exec S c.site (.prepare ρ op r) (env n) w).2.ackStatus = .ackPrepared ∧
      Promotable S.codec (tablesOf (exec S c.site (.prepare ρ op r) (env n) w).1 ρ) op r := by
    intro hρ
    have h₀ := hG ρ hρ
    refine prepare_ready henv hr ⟨?_, ?_, ?_, ?_⟩ n
    · rw [hJ.status]
      exact h₀.available
    · rw [hJ.rest ρ hnew]
      exact h₀.next
    · rw [hJ.rest ρ hnew]
      exact h₀.free
    · rw [hJ.rest ρ hnew]
      exact h₀.identifies
  refine ⟨by rw [List.map_append, hJ.ids, List.map_singleton, hid], ?_, ?_, ?_, ?_, hJ.status⟩
  · intro a ha hs
    rcases List.mem_append.mp ha with ha | ha
    · exact hJ.ofRecord a ha hs
    · rw [List.mem_singleton.mp ha] at hs ⊢
      exact prepared_key henv c.site n w ρ hs
  · intro a ha hin
    rcases List.mem_append.mp ha with ha | ha
    · exact hJ.prepared a ha hin
    · rw [List.mem_singleton.mp ha, hid] at hin
      rw [List.mem_singleton.mp ha]
      exact (hready hin).1
  · intro σ hσ hin
    rcases List.mem_append.mp hin with hin | hin
    · have hne : σ ≠ ρ := fun he => hnew (he ▸ hin)
      rw [hother σ hne]
      exact hJ.promotable σ hσ hin
    · rw [List.mem_singleton.mp hin] at hσ ⊢
      exact (hready hσ).2
  · intro σ hσ
    rw [hother σ (fun he => hσ (by simp [he]))]
    exact hJ.rest σ (fun hin => hσ (List.mem_append_left _ hin))

/-- After some of the commits: the good replicas still to come can promote the record,
and those done have acknowledged. -/
structure Promoting (S : System V) (site : Nat) (op : String) (r : BlackboardRecordV1 V)
    (G : Finset ReplicaId) (done : List ReplicaAckV1) (steps : List CommitStep) (w : World S.codec) :
    Prop where
  waiting : ∀ ρ ∈ G, (∀ a ∈ done, a.replicaId ≠ ρ) → Promotable S.codec (tablesOf w ρ) op r
  available : ∀ ρ ∈ G, (w.status site ρ).health ≠ .unavailable
  durable : done.countP (fun a => a.replicaId ∈ G) ≤
    (commitAcksOf steps).countP (isDurable (some r.recordId) (some r.contentHash))

theorem commit_frame (site : Nat) (e : Env V) (w : World S.codec) {ρ σ : ReplicaId} (h : σ ≠ ρ) :
    tablesOf (exec S site (.commit ρ op r) e w).1 σ = tablesOf w σ := by
  simp only [tablesOf, exec, onStore_tables, if_neg h]

/-- An acknowledged commit of the record counts as durable. -/
theorem commit_durable (site : Nat) (e : Env V) (w : World S.codec) (ρ : ReplicaId)
    (h : (exec S site (.commit ρ op r) e w).2.ackStatus = .ackCommitted) :
    isDurable (some r.recordId) (some r.contentHash) (exec S site (.commit ρ op r) e w).2 = true := by
  obtain ⟨-, hid, hhash⟩ := exec_answers S site (.commit ρ op r) e w
  simp [isDurable, h, hid, hhash]

theorem Promoting.skip {site : Nat} {done : List ReplicaAckV1} {steps : List CommitStep}
    {w : World S.codec} (h : Promoting S site op r G done steps w) {x : ReplicaAckV1}
    (hx : x.replicaId ∉ G) {s : CommitStep} (hs : s.commitAck = none) :
    Promoting S site op r G (done ++ [x]) (steps ++ [s]) w := by
  refine ⟨?_, h.available, ?_⟩
  · intro ρ hρ hnot
    exact h.waiting ρ hρ (fun a ha => hnot a (List.mem_append_left _ ha))
  · rw [commitAcksOf_skip hs, List.countP_append, List.countP_singleton, if_neg (by simpa using hx),
      Nat.add_zero]
    exact h.durable

theorem wp_commitStep_promoting (henv : Calm env) (hr : Storable S c.site r)
    {winners : List ReplicaId} {done : List ReplicaAckV1} {steps : List CommitStep}
    {w : World S.codec} {x : ReplicaAckV1} (h : Promoting S c.site op r G done steps w)
    (hgood : x.replicaId ∈ G → x.ackStatus = .ackPrepared)
    (hwin : x.ackStatus = .ackPrepared → x.replicaId ∈ winners)
    (hnew : ∀ a ∈ done, a.replicaId ≠ x.replicaId) :
    Wp (lone S c.site env) (fun s w' => Promoting S c.site op r G (done ++ [x]) (steps ++ [s]) w')
      (commitStep op r winners x) w := by
  unfold commitStep
  by_cases hs : x.ackStatus = .ackPrepared
  · rw [if_neg (not_not.mpr hs), if_neg (not_not.mpr (hwin hs))]
    apply wp_bind
    refine wp_alone (I := Blackboard V) (exec S c.site) ?_
    rintro e ⟨n, rfl⟩
    have hwaiting : ∀ ρ ∈ G, (∀ a ∈ done ++ [x], a.replicaId ≠ ρ) → Promotable S.codec
        (tablesOf (exec S c.site (.commit x.replicaId op r) (env n) w).1 ρ) op r := by
      intro ρ hρ hnot
      rw [commit_frame c.site (env n) w (fun he => hnot x (by simp) he.symm)]
      exact h.waiting ρ hρ (fun a ha => hnot a (List.mem_append_left _ ha))
    split
    · rename_i hack
      refine wp_ret ⟨hwaiting, h.available, ?_⟩
      rw [commitAcksOf_concat rfl, List.countP_append, List.countP_append, List.countP_singleton,
        List.countP_singleton, if_pos (commit_durable c.site (env n) w x.replicaId hack)]
      have := h.durable
      split <;> omega
    · rename_i hack
      -- a good replica would have acknowledged
      have hbad : x.replicaId ∉ G := by
        intro hin
        exact hack (commit_promotable henv hr (h.available _ hin) (h.waiting _ hin hnew) n)
      apply wp_bind
      refine wp_alone (I := Blackboard V) (exec S c.site) ?_
      rintro e ⟨m, rfl⟩
      refine wp_ret ⟨hwaiting, ?_, ?_⟩
      · intro ρ hρ
        rw [exec_status]
        simp only
        split
        · exact nofun
        · exact h.available ρ hρ
      · rw [commitAcksOf_concat rfl, List.countP_append, List.countP_append, List.countP_singleton,
          if_neg (by simpa using hbad)]
        have := h.durable
        omega
  · rw [if_pos hs]
    exact wp_ret (h.skip (fun hin => hs (hgood hin)) rfl)

/-- The three distinct replicas of a coordinator are all there are. -/
theorem mem_replicas (c : Coordinator) (ρ : ReplicaId) : ρ ∈ c.replicas := by
  have hcard : c.replicas.toFinset.card = Fintype.card ReplicaId := by
    rw [List.toFinset_card_of_nodup c.distinct, c.three]
    rfl
  have huniv := (Finset.card_eq_iff_eq_univ _).mp hcard
  rw [← List.mem_toFinset, huniv]
  exact Finset.mem_univ ρ

theorem countP_good {acks : List ReplicaAckV1} (hids : acks.map (fun a => a.replicaId) = c.replicas)
    (G : Finset ReplicaId) : acks.countP (fun a => a.replicaId ∈ G) = G.card := by
  have hmap : acks.countP (fun a => a.replicaId ∈ G) = c.replicas.countP (fun ρ => ρ ∈ G) := by
    rw [← hids, List.countP_map]
    rfl
  have hset : (c.replicas.filter fun ρ => ρ ∈ G).toFinset = G := by
    ext ρ
    simp [mem_replicas c ρ]
  rw [hmap, List.countP_eq_length_filter, ← List.toFinset_card_of_nodup (c.distinct.filter _), hset]

/-- A result with a quorum of durable commits, two at least, is `COMMITTED`. -/
theorem writeResult_committed {principal : String} {q : Nat}
    {prepareAcks commitAcks loserAcks cleanupAcks : List ReplicaAckV1} {winners : List ReplicaId}
    {sync : List (ReplicaId × ReplicationSyncState)}
    (hq : q ≤ commitAcks.countP (isDurable (some r.recordId) (some r.contentHash)))
    (htwo : 2 ≤ commitAcks.countP (isDurable (some r.recordId) (some r.contentHash))) :
    let durable := commitAcks.filter (isDurable (some r.recordId) (some r.contentHash))
    let out := commitOutcome q prepareAcks durable winners
    ∃ res, writeResult op principal out.1 out.2 (some r)
        (prepareAcks ++ commitAcks ++ loserAcks ++ cleanupAcks) sync = .ok res ∧
      res.outcome = .committed ∧ res.recordVersion = some r.recordVersion := by
  intro durable out
  have hout : out = (.committed, none) := by
    simp only [out, commitOutcome]
    rw [if_pos]
    rw [← List.countP_eq_length_filter]
    exact hq
  rw [hout]
  unfold writeResult
  refine ⟨_, if_neg ?_, rfl, rfl⟩
  rintro ⟨-, hfew⟩
  simp only [Option.map_some, ← List.countP_eq_length_filter, List.countP_append] at hfew
  omega

theorem wp_writeRecord_commits (henv : Calm env) (hr : Storable S c.site r) (principal : String)
    (w : World S.codec) (hG : ∀ ρ ∈ G, Ready S c.site env r w ρ) (hq : c.settings.quorumSize ≤ G.card)
    (htwo : 2 ≤ G.card) :
    Wp (lone S c.site env) (fun out _ => ∃ res, out = .ok res ∧ res.outcome = .committed ∧
      res.recordVersion = some r.recordVersion) (writeRecord c op principal r) w := by
  unfold writeRecord
  apply wp_bind
  refine wp_mono ?_ (wp_prepares_gathered henv hr w hG)
  intro acks w₁ hgathered
  have hgood := countP_good hgathered.ids G
  have hprepared : G.card ≤ (acks.filter fun a => a.ackStatus = .ackPrepared).length := by
    rw [← hgood, ← List.countP_eq_length_filter]
    refine List.countP_mono_left ?_
    intro a ha hin
    exact decide_eq_true (hgathered.prepared a ha (of_decide_eq_true hin))
  obtain ⟨hmet, hwin⟩ := evaluateQuorum_met hgathered.ofRecord c.settings.quorumPositive
    (hq.trans hprepared)
  have hsome : ¬ (acks.all fun a => a.ackStatus ≠ .ackPrepared) = true := by
    intro hall
    have hnil : acks.filter (fun a => a.ackStatus = .ackPrepared) = [] := by
      rw [List.filter_eq_nil_iff]
      intro a ha
      simpa using List.all_eq_true.mp hall a ha
    rw [hnil, List.length_nil] at hprepared
    omega
  rw [if_neg hsome]
  simp only
  rw [if_neg (not_not.mpr hmet)]
  apply wp_bind
  refine wp_mono ?_ (wp_forEach (Promoting S c.site op r G) (l := acks) ?_ ⟨?_, ?_, by simp⟩)
  · intro steps w₂ hsteps
    apply wp_bind
    refine wp_of_forall (I := Blackboard V) (exec S c.site) ?_ _ _
    intro cleanup w₃
    refine wp_ret ?_
    have hdurable := hsteps.durable
    rw [hgood] at hdurable
    exact writeResult_committed (hq.trans hdurable) (htwo.trans hdurable)
  · intro done x rest steps w' hl hpromoting
    have hx : x ∈ acks := by
      rw [hl]
      simp
    refine wp_commitStep_promoting henv hr hpromoting (hgathered.prepared x hx) (hwin x hx) ?_
    intro a ha
    have hnodup : (acks.map fun a => a.replicaId).Nodup := by
      rw [hgathered.ids]
      exact c.distinct
    rw [hl, List.map_append, List.map_cons] at hnodup
    exact (List.nodup_append.mp hnodup).2.2 _ (List.mem_map_of_mem ha) _ (by simp)
  · intro ρ hρ _
    exact hgathered.promotable ρ hρ (mem_replicas c ρ)
  · intro ρ hρ
    rw [hgathered.status]
    exact (hG ρ hρ).available

end Write

/-! ## The head hint -/

section Hint

variable {S : System V} {c : Coordinator} {env : Nat → Env V}

/-- The head of the first replica that is not marked unavailable. -/
def firstHead (S : System V) (site : Nat) (replicas : List ReplicaId) (w : World S.codec) (k : String) :
    Option Nat :=
  (replicas.find? fun ρ => (w.status site ρ).health ≠ .unavailable).map fun ρ => head (tablesOf w ρ) k

theorem headRow_version {t : Tables} (hv : Valid t) (k : String) :
    ((getHeadRow t k).map fun row => row.recordVersion).getD 0 = head t k := by
  rw [hv.getHeadRow_eq]
  by_cases hz : head t k = 0
  · rw [if_pos hz, hz]
    rfl
  · rw [if_neg hz]
    have hsome := (hv.getCommittedRow_isSome k (head t k)).mpr ⟨by omega, le_rfl⟩
    obtain ⟨row, hrow⟩ := Option.isSome_iff_exists.mp hsome
    rw [hrow]
    exact (getCommittedRow_some hrow).2.2

theorem wp_headVersionFrom (henv : Calm env) (k : String) (w : World S.codec) (l : List ReplicaId) :
    Wp (lone S c.site env) (fun hint w' => w' = w ∧ hint = .ok ((firstHead S c.site l w k).getD 0))
      (headVersionFrom k l) w := by
  induction l with
  | nil => exact wp_ret ⟨rfl, rfl⟩
  | cons ρ l ih =>
    unfold headVersionFrom
    apply wp_bind
    refine wp_alone (I := Blackboard V) (exec S c.site) ?_
    rintro e ⟨n, rfl⟩
    change Wp _ _ (if (w.status c.site ρ).health = .unavailable then _ else _) w
    by_cases hst : (w.status c.site ρ).health = .unavailable
    · rw [if_pos hst]
      have hskip : firstHead S c.site (ρ :: l) w k = firstHead S c.site l w k := by
        unfold firstHead
        rw [List.find?_cons_of_neg (by simpa using hst)]
      rw [hskip]
      exact ih
    · rw [if_neg hst]
      apply wp_bind
      refine wp_alone (I := Blackboard V) (exec S c.site) ?_
      rintro e ⟨m, rfl⟩
      refine wp_ret ⟨rfl, ?_⟩
      have hfirst : firstHead S c.site (ρ :: l) w k = some (head (tablesOf w ρ) k) := by
        unfold firstHead
        rw [List.find?_cons_of_pos (by simpa using hst)]
        rfl
      have hreply : (exec S c.site (.headRow ρ k) (env m) w).2 =
          .ok (getHeadRow (w.store ρ).tables k) := guarded_eq (henv m).1 _
      rw [hreply, hfirst]
      exact congrArg Except.ok (headRow_version (w.store ρ).valid k)

end Hint

/-! ## A proposal that is stale -/

section Stale

variable {S : System V} {c : Coordinator} {env : Nat → Env V}

theorem world_eq {cd : RecordCodec V} {w w' : World cd} (ht : ∀ ρ, tablesOf w ρ = tablesOf w' ρ)
    (hst : w.status = w'.status) : w = w' := by
  obtain ⟨store, status⟩ := w
  obtain ⟨store', status'⟩ := w'
  have hstore : store = store' := by
    funext ρ
    have htables : (store ρ).tables = (store' ρ).tables := ht ρ
    cases hs : store ρ
    cases hs' : store' ρ
    rw [hs, hs'] at htables
    cases htables
    rfl
  cases hst
  rw [hstore]

theorem writeResult_fields {op principal : String} {outcome : WriteOutcome} {reason : Option String}
    {record : Option (BlackboardRecordV1 V)} {acks : List ReplicaAckV1}
    {sync : List (ReplicaId × ReplicationSyncState)} {res : WriteResultV1}
    (h : writeResult op principal outcome reason record acks sync = .ok res) :
    res.outcome = outcome ∧ res.recordVersion = record.map fun r => r.recordVersion := by
  unfold writeResult at h
  simp only at h
  split at h
  · cases h
  · cases h
    exact ⟨rfl, rfl⟩

/-- A result names the proposed version, and a stale proposal has changed nothing. -/
def NamesVersion {cd : RecordCodec V} (v : Nat) (w : World cd) (out : Except String WriteResultV1)
    (w' : World cd) : Prop :=
  ∀ res, out = .ok res → (∀ n, res.recordVersion = some n → n = v) ∧
    (res.outcome = .rejectedStale → w' = w)

theorem namesVersion_of_other {cd : RecordCodec V} {v : Nat} {w w' : World cd} {op principal : String}
    {outcome : WriteOutcome} {reason : Option String} {record : Option (BlackboardRecordV1 V)}
    {acks : List ReplicaAckV1} {sync : List (ReplicaId × ReplicationSyncState)}
    (ho : outcome ≠ .rejectedStale) (hr : ∀ r, record = some r → r.recordVersion = v) :
    NamesVersion v w (writeResult op principal outcome reason record acks sync) w' := by
  intro res hres
  obtain ⟨hout, hver⟩ := writeResult_fields hres
  refine ⟨?_, fun hst => absurd (hout.symm.trans hst) ho⟩
  intro n hn
  rw [hver, Option.map_eq_some_iff] at hn
  obtain ⟨r, he, rfl⟩ := hn
  exact hr r he

theorem wp_writeRecord_stale (henv : Calm env) (op principal : String) (r : BlackboardRecordV1 V)
    (w : World S.codec) :
    Wp (lone S c.site env) (NamesVersion r.recordVersion w) (writeRecord c op principal r) w := by
  have hslot : SubstitutesInSlot env r := by
    intro n r' hsub
    rw [(henv n).2] at hsub
    cases hsub
  have hrecord : ∀ s, some r = some s → s.recordVersion = r.recordVersion := by
    intro s he
    cases he
    rfl
  unfold writeRecord
  apply wp_bind
  refine wp_mono ?_ (wp_prepares_staged hslot w c.distinct)
  intro acks w₁ hprep
  split
  · rename_i hnone
    refine wp_ret ?_
    intro res hres
    obtain ⟨-, hver⟩ := writeResult_fields hres
    constructor
    · intro n hn
      rw [hver] at hn
      exact (Option.some.inj hn).symm
    · intro _
      refine world_eq ?_ hprep.status
      intro ρ
      apply hprep.rest
      intro a ha _
      simpa using List.all_eq_true.mp hnone a ha
  · simp only
    split
    · apply wp_bind
      refine wp_of_forall (I := Blackboard V) (exec S c.site) ?_ _ _
      intro abortAcks w₂
      exact wp_ret (namesVersion_of_other nofun hrecord)
    · apply wp_bind
      refine wp_of_forall (I := Blackboard V) (exec S c.site) ?_ _ _
      intro steps w₂
      apply wp_bind
      refine wp_of_forall (I := Blackboard V) (exec S c.site) ?_ _ _
      intro cleanup w₃
      refine wp_ret (namesVersion_of_other ?_ hrecord)
      have hcases := commitOutcome_cases c.settings.quorumSize acks
        ((steps.filterMap fun s => s.commitAck).filter
          (isDurable (some r.recordId) (some r.contentHash)))
        (evaluateQuorum acks c.settings.quorumSize).compatibleReplicaIds
      rcases hcases with ⟨h, -⟩ | ⟨h, -⟩ | ⟨h, -⟩
      all_goals
        rw [h]
        exact nofun

theorem build_version {cd : RecordCodec V} {maxBytes : Nat} {d : BlackboardRecordDraft V}
    {r : BlackboardRecordV1 V} (h : (Proposal.draft d).build cd maxBytes = .ok r) :
    r.toHashedFields = d.fields ∧ Verified cd r := by
  unfold Proposal.build at h
  simp only at h
  split at h
  · cases h
  · rename_i r' hbuilt
    split at h
    · cases h
    · cases h
      exact buildRecord_ok cd hbuilt

theorem wp_propose_stale (henv : Calm env) (op principal : String) (d : BlackboardRecordDraft V)
    (w : World S.codec) :
    Wp (lone S c.site env) (NamesVersion d.recordVersion w)
      (propose S.codec c op (.draft d) principal) w := by
  unfold propose
  split
  · exact wp_ret (namesVersion_of_other nofun nofun)
  · split
    · exact wp_ret (namesVersion_of_other nofun nofun)
    · rename_i r hbuild
      have hver : r.recordVersion = d.recordVersion :=
        congrArg HashedFields.recordVersion (build_version hbuild).1
      simp only
      split
      · rw [← hver]
        exact wp_writeRecord_stale henv op principal r w
      · refine wp_ret (namesVersion_of_other nofun ?_)
        intro s he
        cases he
        exact hver

end Stale

/-! ## The service's write -/

section Service

variable {S : System V} {c : Coordinator} {env : Nat → Env V} {draft : VersionlessDraft V}
  {r : BlackboardRecordV1 V} {h : Nat}

/-- The write is valid at this version: the draft and its record pass every check, the
author may write it, and the columns can hold it. -/
structure ValidWrite (S : System V) (c : Coordinator) (draft : VersionlessDraft V) (principal : String)
    (version : Nat) (r : BlackboardRecordV1 V) : Prop where
  checked : validateDraft S.codec (draft.atVersion version) = .ok ()
  built : (Proposal.draft (draft.atVersion version)).build S.codec
    c.settings.maxRecordCanonicalBytes = .ok r
  named : isBlank principal = false
  allowed : (c.authorizer ⟨principal, .write, some r.recordType, some r.recordKey⟩).allowed = true
  size : ∀ ρ, ensureRecordSize S.codec r (S.settings c.site ρ).maxRecordBytes = .ok ()
  version : fitsInteger r.recordVersion = true
  window : r.windowId.all fitsInteger = true

/-- The result reports the record committed at the version after `h`. -/
def CommittedAfter (h : Nat) (res : WriteResultV1) : Prop :=
  res.outcome = .committed ∧ res.recordVersion = some (h + 1)

theorem ValidWrite.storable {principal : String} {version : Nat}
    (hw : ValidWrite S c draft principal version r) : Storable S c.site r := by
  obtain ⟨hfields, hverified⟩ := build_version hw.built
  refine ⟨hverified, ?_, hw.size, hw.version, hw.window⟩
  have hchecks := (runChecks_ok _).mp hw.checked
  rw [runChecks_ok]
  intro check hcheck
  apply hchecks
  rw [show r.payload = (draft.atVersion version).fields.payload from congrArg _ hfields,
    show r.provenance = (draft.atVersion version).fields.provenance from congrArg _ hfields] at hcheck
  unfold sharedChecks
  simp only [List.mem_append, List.mem_cons, List.not_mem_nil, or_false] at hcheck ⊢
  rcases hcheck with rfl | rfl
  · exact .inr (.inl rfl)
  · exact .inr (.inr (.inl rfl))

theorem wp_next_commits {G : Finset ReplicaId} (henv : Calm env) (operationId : Nat → String)
    {principal : Option String} (w : World S.codec)
    (hw : ValidWrite S c draft (textOr principal draft.authorId) (h + 1) r)
    (hG : ∀ ρ ∈ G, Ready S c.site env r w ρ) (hq : c.settings.quorumSize ≤ G.card) (htwo : 2 ≤ G.card)
    (hfirst : firstHead S c.site c.replicas w draft.recordKey = some h) :
    Wp (lone S c.site env) (fun out _ => ∃ res, out = .ok (some res) ∧ CommittedAfter h res)
      (proposeNextVersion S.codec c operationId draft principal) w := by
  have hver : r.recordVersion = h + 1 :=
    congrArg HashedFields.recordVersion (build_version hw.built).1
  unfold proposeNextVersion maxProposeRetries proposeNextVersionLoop headVersion
  apply wp_bind
  refine wp_mono ?_ (wp_headVersionFrom henv draft.recordKey w c.replicas)
  rintro hint w' ⟨rfl, rfl⟩
  rw [hfirst]
  simp only [Option.getD_some, hw.checked]
  apply wp_bind
  have hpropose : propose S.codec c (operationId 4) (.draft (draft.atVersion (h + 1)))
      (textOr principal draft.authorId) =
      writeRecord c (operationId 4) (textOr principal draft.authorId) r := by
    unfold propose
    rw [hw.named, hw.built]
    simp only [Bool.false_eq_true, if_false, hw.allowed, if_true]
  rw [hpropose]
  refine wp_mono ?_ (wp_writeRecord_commits henv hw.storable _ w' hG hq htwo)
  rintro out w₁ ⟨res, rfl, hout, hres⟩
  have hstale : ¬ res.outcome = .rejectedStale := by
    rw [hout]
    exact nofun
  simp only [if_neg hstale]
  exact wp_ret ⟨res, rfl, hout, by rw [hres, hver]⟩

/-- Where the hint is another head, every round proposes the version after that one. -/
theorem wp_loop_misses (henv : Calm env) (operationId : Nat → String) (principal : String)
    (w : World S.codec) {h₁ : Nat}
    (hfirst : firstHead S c.site c.replicas w draft.recordKey = some h₁) (hne : h₁ ≠ h) (n : Nat)
    (last : Option WriteResultV1) (hlast : ∀ res, last = some res → ¬ CommittedAfter h res) :
    Wp (lone S c.site env) (fun out _ => ∀ res, out = .ok (some res) → ¬ CommittedAfter h res)
      (proposeNextVersionLoop S.codec c operationId draft.atVersion draft.recordKey principal last n)
      w := by
  induction n generalizing last with
  | zero =>
    refine wp_ret ?_
    intro res he
    exact hlast res (Except.ok.inj he)
  | succ n ih =>
    unfold proposeNextVersionLoop headVersion
    apply wp_bind
    refine wp_mono ?_ (wp_headVersionFrom henv draft.recordKey w c.replicas)
    rintro hint w' ⟨rfl, rfl⟩
    rw [hfirst]
    simp only [Option.getD_some]
    split
    · refine wp_ret ?_
      intro res he
      cases he
    · apply wp_bind
      refine wp_mono ?_ (wp_propose_stale henv (operationId n) principal (draft.atVersion (h₁ + 1)) w')
      intro out w₁ hnames
      cases out with
      | error e =>
        refine wp_ret ?_
        intro res he
        cases he
      | ok res =>
        obtain ⟨hversion, hsame⟩ := hnames res rfl
        have hmiss : ¬ CommittedAfter h res := by
          rintro ⟨-, hres⟩
          have he : h + 1 = h₁ + 1 := hversion _ hres
          omega
        simp only
        split
        · rename_i hstale
          rw [hsame hstale]
          exact ih (some res) (fun s hs => by cases hs; exact hmiss)
        · refine wp_ret ?_
          intro s hs
          cases hs
          exact hmiss

/-- Where a quorum of replicas, and all but one, are ready for the version after `h`,
without faults and without another writer: the service's write is reported `COMMITTED`
at that version exactly when the first replica not marked unavailable has the head
`h`. -/
theorem next_version_committed_iff (S : System V) (c : Coordinator) (env : Nat → Env V)
    (operationId : Nat → String) (draft : VersionlessDraft V) (principal : Option String)
    (w : World S.codec) (h : Nat) (r : BlackboardRecordV1 V) (G : Finset ReplicaId) (henv : Calm env)
    (hw : ValidWrite S c draft (textOr principal draft.authorId) (h + 1) r)
    (hG : ∀ ρ ∈ G, Ready S c.site env r w ρ) (hq : c.settings.quorumSize ≤ G.card) (htwo : 2 ≤ G.card) :
    (∃ res w', solo (I := Blackboard V) (exec S c.site) env
        (proposeNextVersion S.codec c operationId draft principal) 0 w = (.ok (some res), w') ∧
      CommittedAfter h res) ↔
    firstHead S c.site c.replicas w draft.recordKey = some h := by
  constructor
  · rintro ⟨res, w', hrun, hres⟩
    by_contra hne
    -- a good replica is available, so there is a hint, and it is another head
    obtain ⟨ρ, hρ⟩ : G.Nonempty := Finset.card_pos.mp (by omega)
    cases hfind : c.replicas.find? fun ρ => (w.status c.site ρ).health ≠ .unavailable with
    | none =>
      have := List.find?_eq_none.mp hfind ρ (mem_replicas c ρ)
      simp [(hG ρ hρ).available] at this
    | some σ =>
      have hfirst : firstHead S c.site c.replicas w draft.recordKey =
          some (head (tablesOf w σ) draft.recordKey) := by
        unfold firstHead
        rw [hfind]
        rfl
      have hwp := wp_loop_misses (c := c) henv operationId (textOr principal draft.authorId) w hfirst
        (fun he => hne (by rw [hfirst, he])) maxProposeRetries none nofun
      have hall := solo_of_wp (I := Blackboard V) (exec S c.site) (fun n => ⟨n, rfl⟩) 0 hwp
      exact hall res (congrArg Prod.fst hrun) hres
  · intro hfirst
    have hwp := wp_next_commits henv operationId w hw hG hq htwo hfirst
    obtain ⟨res, hres, hat⟩ :=
      solo_of_wp (I := Blackboard V) (exec S c.site) (fun n => ⟨n, rfl⟩) 0 hwp
    exact ⟨res, _, Prod.ext hres rfl, hat⟩

end Service

/-! ## Evaluation -/

section Evaluation

def devNext : VersionlessDraft String :=
  ⟨"dev", .systemRecord, none, none, "agent", "unit", devPayload 1, "\x7b\x7d"⟩

def devAgent : Coordinator := devCoordinator 0 0 2 devQuorum_pos

def devQuiet (_ : Nat) : Env String := calm 10

/-- The service's write, alone, from this world. -/
def devWriteNext (w : World devCodec) : Except String (Option WriteResultV1) × World devCodec :=
  solo (I := Blackboard String) (exec devSystem 0) devQuiet
    (proposeNextVersion devCodec devAgent (fun _ => "bbw-2") devNext none) 0 w

theorem devNext_valid : ValidWrite devSystem devAgent devNext (textOr none devNext.authorId) 2
    (devRecord 2 1) := by
  constructor
  · decide
  · decide
  · decide
  · rfl
  · intro ρ
    rfl
  · decide
  · decide

/-- The replica is ready for the record and its slot is empty. -/
def readyNow (r : BlackboardRecordV1 String) (w : World devCodec) (ρ : ReplicaId) : Bool :=
  decide ((w.status 0 ρ).health ≠ .unavailable) &&
    decide (r.recordVersion = head (tablesOf w ρ) r.recordKey + 1) &&
    decide (getPendingRow (tablesOf w ρ) r.recordKey r.recordVersion = none) &&
    ((tablesOf w ρ).committedRecords.all fun row => decide (row.recordId ≠ r.recordId)) &&
    (tablesOf w ρ).pendingPrepares.all fun p => decide (p.recordId ≠ r.recordId)

theorem ready_of_now {r : BlackboardRecordV1 String} {w : World devCodec} {ρ : ReplicaId}
    (h : readyNow r w ρ = true) : Ready devSystem 0 devQuiet r w ρ := by
  simp only [readyNow, Bool.and_eq_true, decide_eq_true_eq, List.all_eq_true] at h
  obtain ⟨⟨⟨⟨hst, hnext⟩, hnone⟩, hrows⟩, hpending⟩ := h
  refine ⟨hst, hnext, ?_, ?_⟩
  · intro p hp
    cases hnone.symm.trans hp
  · exact ⟨fun row hrow he => absurd he (hrows row hrow), fun p hp he => absurd he (hpending p hp)⟩

/-- Version 1 is committed while the third replica is down for the prepare. -/
def devLastLagsRun : List (Step String) :=
  [devPropose devAgent "bbw-1" 1 3] ++ calls 0 2 0 ++
    [.advance 0 (failing 0 (.hookUnavailable "down"))] ++ calls 0 3 0 ++ [.finish 0]

theorem next_version_committed_iff_dev : ∃ c res w', Reaches devSystem devLastLagsRun c ∧
    devWriteNext c.state = (.ok (some res), w') ∧ CommittedAfter 1 res := by
  obtain ⟨c, hc, hcheck⟩ := reaches_of_any devSystem devLastLagsRun
    (fun c => readyNow (devRecord 2 1) c.state .replicaA && readyNow (devRecord 2 1) c.state .replicaB &&
      decide (firstHead devSystem 0 devAgent.replicas c.state "dev" = some 1)) (by decide)
  simp only [Bool.and_eq_true, decide_eq_true_eq] at hcheck
  obtain ⟨⟨ha, hb⟩, hfirst⟩ := hcheck
  have hG : ∀ ρ ∈ ({.replicaA, .replicaB} : Finset ReplicaId),
      Ready devSystem 0 devQuiet (devRecord 2 1) c.state ρ := by
    intro ρ hρ
    rw [Finset.mem_insert, Finset.mem_singleton] at hρ
    rcases hρ with rfl | rfl
    · exact ready_of_now ha
    · exact ready_of_now hb
  obtain ⟨res, w', hrun, hres⟩ := (next_version_committed_iff devSystem devAgent devQuiet
    (fun _ => "bbw-2") devNext none c.state 1 (devRecord 2 1) {.replicaA, .replicaB}
    (fun _ => ⟨rfl, rfl⟩) devNext_valid hG (by decide) (by decide)).mpr hfirst
  exact ⟨c, res, w', hc, hrun, hres⟩

/-- Version 1 is committed while the first replica is down for the prepare. -/
def devFirstLagsRun : List (Step String) :=
  [devPropose devAgent "bbw-1" 1 3, .advance 0 (failing 0 (.hookUnavailable "down"))] ++ calls 0 5 0 ++
    [.finish 0]

def failsQuorum : Except String (Option WriteResultV1) → Bool
  | .ok (some res) => decide (res.outcome = .failedQuorum)
  | _ => false

theorem failsQuorum_cases {out : Except String (Option WriteResultV1)} (h : failsQuorum out = true) :
    ∃ res, out = .ok (some res) ∧ res.outcome = .failedQuorum := by
  rcases out with e | _ | res
  · cases h
  · cases h
  · exact ⟨res, rfl, of_decide_eq_true h⟩

theorem lagging_hint_fails : ∃ c res w', Reaches devSystem devFirstLagsRun c ∧ Calm devQuiet ∧
    ValidWrite devSystem devAgent devNext "agent" 2 (devRecord 2 1) ∧
    Ready devSystem 0 devQuiet (devRecord 2 1) c.state .replicaB ∧
    Ready devSystem 0 devQuiet (devRecord 2 1) c.state .replicaC ∧
    devWriteNext c.state = (.ok (some res), w') ∧ res.outcome = .failedQuorum ∧
    ¬ CommittedAfter 1 res := by
  obtain ⟨c, hc, hcheck⟩ := reaches_of_any devSystem devFirstLagsRun
    (fun c => readyNow (devRecord 2 1) c.state .replicaB && readyNow (devRecord 2 1) c.state .replicaC &&
      failsQuorum (devWriteNext c.state).1) (by decide)
  simp only [Bool.and_eq_true] at hcheck
  obtain ⟨⟨hb, hc'⟩, hout⟩ := hcheck
  obtain ⟨res, hres, ho⟩ := failsQuorum_cases hout
  have hcalm : Calm devQuiet := fun _ => ⟨rfl, rfl⟩
  have hrun : devWriteNext c.state = (.ok (some res), (devWriteNext c.state).2) := by
    rw [← hres]
  refine ⟨c, res, (devWriteNext c.state).2, hc, hcalm, devNext_valid, ready_of_now hb,
    ready_of_now hc', hrun, ho, ?_⟩
  rintro ⟨hcommitted, -⟩
  rw [ho] at hcommitted
  cases hcommitted

end Evaluation

end BlackboardNextVersion
