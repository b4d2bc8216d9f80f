import AgenticSoc.BlackboardSolo

/-!
# The synchronisation map of a write

A result says for each replica what became of the write there. The map is read off the
acknowledgements; what happened is read off the tables.
-/
namespace BlackboardSyncMap

open BlackboardRecord BlackboardStorage BlackboardReplica BlackboardCoordinator BlackboardSystem
open BlackboardFailedQuorum BlackboardNextVersion BlackboardSolo Interaction LocalPrograms

variable {V : Type}

/-! ## What happened to a replica -/

section Truth

variable (S : System V) (site : Nat) (faults : Faults V) (op : String) (r : BlackboardRecordV1 V)
  (w w' : World S.codec) (ρ : ReplicaId)

def HadPrepared : Prop := (answerOf S site faults op r w ρ).ackStatus = .ackPrepared

instance : Decidable (HadPrepared S site faults op r w ρ) := inferInstanceAs (Decidable (_ = _))

/-- The replica has a committed row that it did not have. -/
def HasPromoted {cd : RecordCodec V} (w w' : World cd) (ρ : ReplicaId) : Prop :=
  ∃ row ∈ (tablesOf w' ρ).committedRecords, row ∉ (tablesOf w ρ).committedRecords

/-- A row that the operation has pending in the slot that the acknowledgement names. -/
def HasStaged (op : String) (ack : ReplicaAckV1) (t : Tables) : Prop :=
  ∃ p ∈ t.pendingPrepares, some p.recordKey = ack.recordKey ∧ some p.recordVersion = ack.recordVersion ∧
    p.operationId = op

/-- What the replica had staged is gone, and not because it was promoted. -/
def WasRemoved : Prop :=
  HadPrepared S site faults op r w ρ ∧ ¬ HasPromoted w w' ρ ∧
    ¬ HasStaged op (answerOf S site faults op r w ρ) (tablesOf w' ρ)

/-- The replica is switched off, or a hook says so. -/
def WasUnreached : Prop :=
  (w.status site ρ).health = .unavailable ∨ (∃ m, (faults (.prepare ρ op r)).fault = some (.hookUnavailable m)) ∨
    ∃ m, (faults (.abort ρ op r.recordKey r.recordVersion)).fault = some (.hookUnavailable m)

/-- The entry of the replica says what happened there. -/
structure Accurate (s : ReplicationSyncState) : Prop where
  synced : s = .synced ↔ HasPromoted w w' ρ
  aborted : s = .aborted ↔ WasRemoved S site faults op r w w' ρ
  notPrepared : s = .notPrepared → ¬ HadPrepared S site faults op r w ρ
  unavailable : s = .unavailable → WasUnreached S site faults op r w ρ

end Truth

/-! ## One replica -/

section Replicas

variable {S : System V} {site : Nat} {faults : Faults V} {op : String} {r : BlackboardRecordV1 V}
  {w w' : World S.codec} {ρ : ReplicaId}

/-- What was staged fits the columns of the staging table. -/
theorem fits_of_prepared {t t' : Tables} {k id h op utc : String} {v : Nat} {json : StagedRecord} {now lease : Rat}
    {res : PrepareResult} (hok : prepareInsert t k v id h op json utc now lease = .ok (t', res))
    (hres : res.outcome = .prepared ∨ res.outcome = .preparedLeaseTakeover) : fitsInteger v = true := by
  by_contra hfit
  rw [Bool.not_eq_true] at hfit
  unfold prepareInsert at hok
  by_cases hstale : v ≤ head t k
  · simp only [hstale, if_true, Except.ok.injEq, Prod.mk.injEq] at hok
    rw [← hok.2] at hres
    rcases hres with he | he <;> cases he
  · by_cases hnext : v ≠ head t k + 1
    · simp only [hstale, if_false, hnext, ne_eq, not_false_eq_true, if_true, Except.ok.injEq, Prod.mk.injEq] at hok
      rw [← hok.2] at hres
      rcases hres with he | he <;> cases he
    · simp [hstale, hnext, hfit] at hok

theorem stage_fits {cd : RecordCodec V} {e : Env V} {cfg : ReplicaSettings} {staged : BlackboardRecordV1 V} {t : Tables}
    (h : (stageRecord cd ρ e cfg op staged t).2.ackStatus = .ackPrepared) :
    fitsInteger staged.recordVersion = true ∧
      (stageRecord cd ρ e cfg op staged t).2.recordVersion = some staged.recordVersion := by
  unfold stageRecord at h ⊢
  split at h
  · cases h
  · cases h
  split at h
  · cases h
  · cases h
  split at h
  · cases h
  rename_i t' res hinsert
  have hguard := guarded_ok hinsert
  obtain ⟨outcome, current, conflicting⟩ := res
  cases outcome with
  | prepared => exact ⟨fits_of_prepared hguard (.inl rfl), rfl⟩
  | preparedLeaseTakeover => exact ⟨fits_of_prepared hguard (.inr rfl), rfl⟩
  | rejectStale => cases h
  | rejectAhead => cases h
  | rejectConflict => cases h

/-- A replica that prepared was reached, and holds staging of the operation. -/
structure Holds (S : System V) (site : Nat) (faults : Faults V) (op : String) (r : BlackboardRecordV1 V)
    (w : World S.codec) (ρ : ReplicaId) : Prop where
  reached : (w.status site ρ).health ≠ .unavailable
  answered : ∀ m, (faults (.prepare ρ op r)).fault ≠ some (.hookUnavailable m)
  fits : ∀ v, (answerOf S site faults op r w ρ).recordVersion = some v → fitsInteger v = true
  staged : HasStaged op (answerOf S site faults op r w ρ) (afterPrepare S site faults op r w ρ).1
  rows : (afterPrepare S site faults op r w ρ).1.committedRecords = (tablesOf w ρ).committedRecords

theorem refusal_eq_none {st : ReplicaStatus} {e : Env V} {kind : ReplicaOperationKind}
    {record : Option (BlackboardRecordV1 V)} (h : refusal ρ st e op kind record = none) :
    st.health ≠ .unavailable ∧ (∀ m, e.fault ≠ some (.hookUnavailable m)) ∧ ∀ m, e.fault ≠ some (.hookError m) := by
  unfold refusal at h
  split at h
  · cases h
  rename_i hhealth
  split at h
  · cases h
  · cases h
  rename_i hunavailable herror
  exact ⟨hhealth, fun m hm => hunavailable m hm, fun m hm => herror m hm⟩

/-- A prepare that is acknowledged leaves the row it was for. -/
theorem staged_of_effect {t t' : Tables} {row : PendingRow} {lease : Rat} {res : PrepareResult}
    (h : PrepareEffect t row lease t' res) (hres : res.outcome = .prepared ∨ res.outcome = .preparedLeaseTakeover) :
    ∃ p, getPendingRow t' row.recordKey row.recordVersion = some p ∧ p.operationId = row.operationId := by
  cases h with
  | stale _ => rcases hres with he | he <;> cases he
  | ahead _ => rcases hres with he | he <;> cases he
  | conflict _ _ _ _ _ => rcases hres with he | he <;> cases he
  | fresh _ hnone => exact ⟨row, getPendingRow_insertPending row hnone, rfl⟩
  | restaged p _ hp _ =>
    have hupdated := getPendingRow_updatePending t row.recordKey row.operationId row.createdAtUtc row.recordVersion
      row.createdEpoch
    rw [hp] at hupdated
    exact ⟨_, hupdated, rfl⟩
  | takeover _ _ _ _ _ =>
    exact ⟨row, getPendingRow_insertPending row (getPendingRow_deletePending t _ _), rfl⟩

theorem holds_of_prepared (h : HadPrepared S site faults op r w ρ) : Holds S site faults op r w ρ := by
  have hrefusal : refusal ρ (w.status site ρ) (faults (.prepare ρ op r)) op .prepare (some r) = none := by
    cases hr : refusal ρ (w.status site ρ) (faults (.prepare ρ op r)) op .prepare (some r) with
    | none => rfl
    | some ack =>
      have hack : answerOf S site faults op r w ρ = ack := by
        simp only [answerOf, prepareAt, view, prepare, hr]
      obtain ⟨status, reason, rfl, hs⟩ := refusal_some hr
      rw [HadPrepared, hack] at h
      rcases hs with rfl | rfl <;> cases h
  obtain ⟨hhealth, hanswered, -⟩ := refusal_eq_none hrefusal
  have hfits : ∀ v, (answerOf S site faults op r w ρ).recordVersion = some v → fitsInteger v = true := by
    intro v hv
    simp only [HadPrepared, answerOf, prepareAt, view, prepare, hrefusal] at h hv
    cases hint : (faults (.prepare ρ op r)).intercept with
    | foreign => simp only [hint] at h; cases h
    | original =>
      simp only [hint] at h hv
      obtain ⟨hfits, hversion⟩ := stage_fits h
      exact Option.some.inj (hversion.symm.trans hv) ▸ hfits
    | substitute staged =>
      simp only [hint] at h hv
      obtain ⟨hfits, hversion⟩ := stage_fits h
      exact Option.some.inj (hversion.symm.trans hv) ▸ hfits
  rcases prepare_effect S.codec ρ (w.status site ρ) (faults (.prepare ρ op r)) (tablesOf w ρ) (S.settings site ρ) op r with
    ⟨hne, -⟩ | ⟨-, staged, -, -, ⟨reason, hack⟩, res, heffect, hres⟩
  · exact absurd h hne
  refine ⟨hhealth, hanswered, hfits, ?_, heffect.frame.1⟩
  obtain ⟨p, hp, hop⟩ := staged_of_effect heffect hres
  obtain ⟨hmem, hkey, hversion⟩ := getPendingRow_some hp
  have hanswer : answerOf S site faults op r w ρ = baseAck ρ op .prepare .ackPrepared (some staged) reason none := hack
  exact ⟨p, hmem, hanswer ▸ congrArg some hkey, hanswer ▸ congrArg some hversion, hop⟩

/-- Without an acknowledged prepare the replica is as it was. -/
theorem kept_of_unprepared (h : ¬ HadPrepared S site faults op r w ρ) :
    (afterPrepare S site faults op r w ρ).1 = tablesOf w ρ := by
  rcases prepare_effect S.codec ρ (w.status site ρ) (faults (.prepare ρ op r)) (tablesOf w ρ) (S.settings site ρ) op r with
    ⟨-, hsame⟩ | ⟨hack, -⟩
  · exact hsame
  · exact absurd hack h

theorem unreached_of_answer (h : (answerOf S site faults op r w ρ).ackStatus = .unavailable) :
    WasUnreached S site faults op r w ρ := by
  by_contra hreached
  simp only [WasUnreached, not_or, not_exists] at hreached
  obtain ⟨hhealth, hprepare, -⟩ := hreached
  have hstage : ∀ staged, (stageRecord S.codec ρ (faults (.prepare ρ op r)) (S.settings site ρ) op staged
      (tablesOf w ρ)).2.ackStatus ≠ .unavailable := by
    intro staged
    unfold stageRecord
    split
    · exact nofun
    · exact nofun
    split
    · exact nofun
    · exact nofun
    split
    · exact nofun
    rename_i res _
    obtain ⟨outcome, current, conflicting⟩ := res
    cases outcome <;> exact nofun
  simp only [answerOf, prepareAt, view, prepare] at h
  cases hr : refusal ρ (w.status site ρ) (faults (.prepare ρ op r)) op .prepare (some r) with
  | none =>
    simp only [hr] at h
    cases hint : (faults (.prepare ρ op r)).intercept with
    | foreign => simp only [hint] at h; cases h
    | original => simp only [hint] at h; exact hstage _ h
    | substitute staged => simp only [hint] at h; exact hstage _ h
  | some ack =>
    simp only [hr] at h
    unfold refusal at hr
    rw [if_neg hhealth] at hr
    split at hr
    · rename_i m hm
      exact hprepare m hm
    · cases hr
      cases h
    · cases hr

theorem not_promoted (h : (tablesOf w' ρ).committedRecords = (tablesOf w ρ).committedRecords) : ¬ HasPromoted w w' ρ := by
  rintro ⟨row, hrow, hnew⟩
  exact hnew (h ▸ hrow)

theorem accurate_unprepared (h : ¬ HadPrepared S site faults op r w ρ)
    (hrows : (tablesOf w' ρ).committedRecords = (tablesOf w ρ).committedRecords) {s : ReplicationSyncState}
    (hs : s = .notPrepared ∨ s = .unavailable ∧ (answerOf S site faults op r w ρ).ackStatus = .unavailable) :
    Accurate S site faults op r w w' ρ s := by
  have hsync : s ≠ .synced ∧ s ≠ .aborted := by
    rcases hs with rfl | ⟨rfl, -⟩ <;> exact ⟨nofun, nofun⟩
  refine ⟨iff_of_false hsync.1 (not_promoted hrows), iff_of_false hsync.2 fun hr => h hr.1, fun _ => h, fun hu => ?_⟩
  rcases hs with rfl | ⟨-, hack⟩
  · cases hu
  · exact unreached_of_answer hack

/-- The abort of what the replica prepared finds it, or cannot reach the replica. -/
def Undoes (S : System V) (site : Nat) (faults : Faults V) (op : String) (r : BlackboardRecordV1 V) (w : World S.codec)
    (ρ : ReplicaId) : Prop :=
  (∃ m, (faults (.abort ρ op r.recordKey r.recordVersion)).fault = some (.hookUnavailable m)) ∨
    ((answerOf S site faults op r w ρ).recordKey = some r.recordKey ∧
      (answerOf S site faults op r w ρ).recordVersion = some r.recordVersion ∧
      (faults (.abort ρ op r.recordKey r.recordVersion)).fault = none)

/-- A prepare leaves the status of the replica alone. -/
theorem afterPrepare_status : (afterPrepare S site faults op r w ρ).2 = w.status site ρ := rfl

theorem calm_of_aborted {k : String} {v : Nat} {st : ReplicaStatus} {e : Env V} {t : Tables}
    (h : (abort ρ st e op k v t).2.ackStatus = .aborted) : e.fault = none := by
  unfold abort at h
  cases hr : refusal ρ st e op .abort (none : Option (BlackboardRecordV1 V)) with
  | some ack =>
    obtain ⟨status, reason, rfl, hs⟩ := refusal_some hr
    rw [hr] at h
    rcases hs with rfl | rfl <;> cases h
  | none =>
    obtain ⟨-, hunavailable, herror⟩ := refusal_eq_none hr
    rw [hr] at h
    rcases he : e.fault with _ | (m | m | m)
    · rfl
    · exact absurd he (hunavailable m)
    · exact absurd he (herror m)
    · simp only [guarded, he] at h
      cases h

theorem aborted_of_calm {k : String} {v : Nat} {st : ReplicaStatus} {e : Env V} {t : Tables}
    (hst : st.health ≠ .unavailable) (hfits : fitsInteger v = true) (he : e.fault = none) :
    (abort ρ st e op k v t).2.ackStatus = .aborted := by
  unfold abort
  rw [refusal_none hst he, guarded_eq he, abortPending, hfits]
  rfl

/-- An abort finds the staging when both are about one slot. -/
theorem staged_after_abort {ack : ReplicaAckV1} {t : Tables} (h : HasStaged op ack t) (k : String) (v : Nat) :
    HasStaged op ack { t with pendingPrepares := t.pendingPrepares.filter fun p =>
      !(inSlot k v p && decide (p.operationId = op)) } ↔ ¬ (ack.recordKey = some k ∧ ack.recordVersion = some v) := by
  obtain ⟨p, hp, hkey, hversion, hop⟩ := h
  rw [← hkey, ← hversion, Option.some.injEq, Option.some.injEq]
  constructor
  · rintro ⟨q, hq, hqk, hqv, hqop⟩ ⟨hk, hv⟩
    rw [← hkey, Option.some.injEq] at hqk
    rw [← hversion, Option.some.injEq] at hqv
    have hkeep := (List.mem_filter.mp hq).2
    simp [inSlot, hqk, hqv, hk, hv, hqop] at hkeep
  · intro hother
    refine ⟨p, List.mem_filter.mpr ⟨hp, ?_⟩, hkey, hversion, hop⟩
    rw [Bool.not_eq_true', Bool.and_eq_false_iff]
    exact .inl (Bool.eq_false_iff.mpr fun hin => hother ((inSlot_iff k v p).mp hin))

theorem accurate_loser (h : HadPrepared S site faults op r w ρ)
    (hw' : view site ρ w' = (abortAt faults op r.recordKey r.recordVersion ρ (afterPrepare S site faults op r w ρ)).2) :
    Accurate S site faults op r w w' ρ (if (abortAt faults op r.recordKey r.recordVersion ρ
      (afterPrepare S site faults op r w ρ)).1.ackStatus = .aborted then .aborted else .unavailable) ↔
      Undoes S site faults op r w ρ := by
  obtain ⟨hreached, hanswered, hfits, hstaged, hrows⟩ := holds_of_prepared h
  have ht' : tablesOf w' ρ = (abort ρ (w.status site ρ) (faults (.abort ρ op r.recordKey r.recordVersion)) op r.recordKey
      r.recordVersion (afterPrepare S site faults op r w ρ).1).1 := congrArg Prod.fst hw'
  rcases abort_effect ρ (w.status site ρ) (faults (.abort ρ op r.recordKey r.recordVersion))
    (afterPrepare S site faults op r w ρ).1 op r.recordKey r.recordVersion with ⟨hne, hsame⟩ | ⟨hack, hgone⟩
  · -- the abort did nothing, so the staging is still there
    have hstate : (abortAt faults op r.recordKey r.recordVersion ρ (afterPrepare S site faults op r w ρ)).1.ackStatus ≠
      .aborted := hne
    rw [hsame] at ht'
    rw [if_neg hstate]
    constructor
    · intro hacc
      rcases hacc.unavailable rfl with hu | ⟨m, hm⟩ | hu
      · exact absurd hu hreached
      · exact absurd hm (hanswered m)
      · exact .inl hu
    · rintro (hu | ⟨-, hversion, hnone⟩)
      · refine ⟨iff_of_false nofun (not_promoted (by rw [ht', hrows])), iff_of_false nofun fun hr => ?_, nofun, fun _ =>
          .inr (.inr hu)⟩
        rw [WasRemoved, ht'] at hr
        exact hr.2.2 hstaged
      · exact absurd (aborted_of_calm hreached (hfits _ hversion) hnone) hne
  · have hstate : (abortAt faults op r.recordKey r.recordVersion ρ (afterPrepare S site faults op r w ρ)).1.ackStatus =
      .aborted := hack
    rw [hgone] at ht'
    rw [if_pos hstate]
    have hpromoted : ¬ HasPromoted w w' ρ := not_promoted (by rw [ht', hrows])
    have hcalm := calm_of_aborted hack
    have hgone' : HasStaged op (answerOf S site faults op r w ρ) (tablesOf w' ρ) ↔ _ :=
      ht' ▸ staged_after_abort hstaged r.recordKey r.recordVersion
    constructor
    · intro hacc
      obtain ⟨-, -, hnone⟩ := hacc.aborted.mp rfl
      rw [hgone', not_not] at hnone
      exact .inr ⟨hnone.1, hnone.2, hcalm⟩
    · rintro (⟨m, hm⟩ | ⟨hkey, hversion, -⟩)
      · rw [hcalm] at hm
        cases hm
      · exact ⟨iff_of_false nofun hpromoted, iff_of_true rfl ⟨h, hpromoted, fun hs => hgone'.mp hs ⟨hkey, hversion⟩⟩,
          nofun, nofun⟩

theorem accurate_winner (h : HadPrepared S site faults op r w ρ)
    (hw' : tablesOf w' ρ = (commitAt faults op r ρ (afterPrepare S site faults op r w ρ)).2.1) :
    Accurate S site faults op r w w' ρ (if (commitAt faults op r ρ (afterPrepare S site faults op r w ρ)).1.ackStatus =
      .ackCommitted then .synced else .divergentRequiresReconciliation) := by
  obtain ⟨-, -, -, hstaged, hrows⟩ := holds_of_prepared h
  rcases commit_effect ρ (w.status site ρ) (faults (.commit ρ op r)) (afterPrepare S site faults op r w ρ).1 op r with
    ⟨hne, hsame⟩ | ⟨hack, p, hp, -, -, hnext, hpromoted⟩
  · have hstate : (commitAt faults op r ρ (afterPrepare S site faults op r w ρ)).1.ackStatus ≠ .ackCommitted := hne
    have ht' : tablesOf w' ρ = (afterPrepare S site faults op r w ρ).1 := hw'.trans hsame
    rw [if_neg hstate]
    refine ⟨iff_of_false nofun (not_promoted (by rw [ht', hrows])), iff_of_false nofun fun hr => ?_, nofun, nofun⟩
    rw [WasRemoved, ht'] at hr
    exact hr.2.2 hstaged
  · have hstate : (commitAt faults op r ρ (afterPrepare S site faults op r w ρ)).1.ackStatus = .ackCommitted := hack
    have ht' : tablesOf w' ρ = _ := hw'.trans hpromoted
    rw [if_pos hstate]
    have hvalid : Valid (afterPrepare S site faults op r w ρ).1 :=
      (prepare_genuine (S.settings site ρ) ρ (w.status site ρ) (faults (.prepare ρ op r)) op r (tablesOf w ρ)).valid
        (w.store ρ).valid
    obtain ⟨hmem, hkey, hversion⟩ := getPendingRow_some hp
    obtain ⟨hjsonKey, hjsonVersion, -⟩ := hvalid.json p hmem
    have hnew : HasPromoted w w' ρ := by
      refine ⟨{ p.recordJson with operationId := op, committedAtUtc := (faults (.commit ρ op r)).utc }, ?_, fun hold => ?_⟩
      · rw [ht']
        exact List.mem_append_right _ List.mem_cons_self
      · rw [← hrows] at hold
        have hle := ((hvalid.contiguous r.recordKey r.recordVersion).mp
          ⟨_, hold, hjsonKey.trans hkey, hjsonVersion.trans hversion⟩).2
        omega
    exact ⟨iff_of_true rfl hnew, iff_of_false nofun fun hr => hr.2.1 hnew, nofun, nofun⟩

theorem commit_place (c : Coordinator) (ρ : ReplicaId) : (commitOf S site faults c op r w ρ).sync.1 = ρ := by
  by_cases h : (answerOf S site faults op r w ρ).ackStatus = .ackPrepared
  · by_cases hwin : ρ ∈ winnersOf S site faults c op r w
    · rw [(commit_winner h hwin).1]
    · rw [(commit_loser h hwin).1]
  · rw [(commit_unprepared h).1]

theorem abort_committed (st : ReplicaStatus) (e : Env V) (k : String) (v : Nat) (t : Tables) :
    (abort ρ st e op k v t).1.committedRecords = t.committedRecords := by
  rcases abort_effect ρ st e t op k v with ⟨-, hsame⟩ | ⟨-, hgone⟩
  · rw [hsame]
  · rw [hgone]

end Replicas

/-! ## The map -/

/-- The first acknowledgement of a replica decides its entry after a failure. -/
theorem syncMapAfterFailure_lookup (acks : List ReplicaAckV1) (ρ : ReplicaId) :
    (syncMapAfterFailure acks).lookup ρ = (acks.find? fun a => a.replicaId = ρ).map syncStateAfterFailure := by
  have hfold : ∀ m : List (ReplicaId × ReplicationSyncState),
      (acks.foldl (fun m a => if m.any fun s => s.1 = a.replicaId then m
        else m ++ [(a.replicaId, syncStateAfterFailure a)]) m).lookup ρ =
      (m.lookup ρ).or ((acks.find? fun a => a.replicaId = ρ).map syncStateAfterFailure) := by
    induction acks with
    | nil => simp
    | cons a acks ih =>
      intro m
      rw [List.foldl_cons, ih, List.find?_cons]
      by_cases hany : (m.any fun s => decide (s.1 = a.replicaId)) = true
      · rw [if_pos hany]
        by_cases hρ : a.replicaId = ρ
        · subst hρ
          obtain ⟨s, hs, hid⟩ := List.any_eq_true.mp hany
          have hsome : (m.lookup a.replicaId).isSome = true :=
            List.lookup_isSome_iff.mpr ⟨s, hs, by simpa using (of_decide_eq_true hid).symm⟩
          obtain ⟨x, hx⟩ := Option.isSome_iff_exists.mp hsome
          simp [hx]
        · simp [hρ]
      · rw [if_neg hany, List.lookup_append]
        by_cases hρ : a.replicaId = ρ
        · subst hρ
          simp
        · have hother : [(a.replicaId, syncStateAfterFailure a)].lookup ρ = none :=
            List.lookup_eq_none_iff.mpr fun s hs => by simpa [List.mem_singleton.mp hs] using Ne.symm hρ
          simp [hρ, hother]
  rw [syncMapAfterFailure, hfold]
  rfl

section Map

variable (S : System V) (faults : Faults V) (c : Coordinator) (op principal : String) (p : Proposal V)

/-- The map has an accurate entry for every replica. -/
def Truthful (w w' : World S.codec) (m : List (ReplicaId × ReplicationSyncState)) : Prop :=
  ∀ ρ, ∃ s, m.lookup ρ = some s ∧ ∀ r, p.build S.codec c.settings.maxRecordCanonicalBytes = .ok r →
    Accurate S c.site faults op r w w' ρ s

/-- No replica prepares, or a group of them may commit and the rest can be undone. -/
def Settles (r : BlackboardRecordV1 V) (w : World S.codec) : Prop :=
  (∀ ρ, ¬ HadPrepared S c.site faults op r w ρ) ∨
    ((evaluateQuorum (answers S c.site faults c op r w) c.settings.quorumSize).decision = .quorumMet ∧
      ∀ ρ, HadPrepared S c.site faults op r w ρ → ρ ∉ winnersOf S c.site faults c op r w →
        Undoes S c.site faults op r w ρ)

variable {S faults c op principal p}

theorem sync_of_writeResult {outcome : WriteOutcome} {reason : Option String} {record : Option (BlackboardRecordV1 V)}
    {acks : List ReplicaAckV1} {sync : List (ReplicaId × ReplicationSyncState)} {res : WriteResultV1}
    (h : writeResult op principal outcome reason record acks sync = .ok res) : res.replicaSync = sync := by
  unfold writeResult at h
  simp only at h
  split at h
  · cases h
  · cases h
    rfl

theorem not_truthful_nil (w w' : World S.codec) : ¬ Truthful S faults c op p w w' [] := by
  intro h
  obtain ⟨s, hs, -⟩ := h .replicaA
  cases hs

/-- A map with one entry for each replica. -/
theorem truthful_map {r : BlackboardRecordV1 V} (hbuild : p.build S.codec c.settings.maxRecordCanonicalBytes = .ok r)
    {w w' : World S.codec} (f : ReplicaId → ReplicationSyncState) :
    Truthful S faults c op p w w' (c.replicas.map fun ρ => (ρ, f ρ)) ↔
      ∀ ρ, Accurate S c.site faults op r w w' ρ (f ρ) := by
  have hlookup : ∀ ρ, (c.replicas.map fun ρ => (ρ, f ρ)).lookup ρ = some (f ρ) :=
    fun ρ => List.lookup_graph f (mem_replicas c ρ)
  constructor
  · intro h ρ
    obtain ⟨s, hs, hacc⟩ := h ρ
    rw [hlookup, Option.some.injEq] at hs
    exact hs ▸ hacc r hbuild
  · intro h ρ
    refine ⟨f ρ, hlookup ρ, fun r' hr' => ?_⟩
    rw [hbuild, Except.ok.injEq] at hr'
    exact hr' ▸ h ρ

section Record

variable {r : BlackboardRecordV1 V} (hbuild : p.build S.codec c.settings.maxRecordCanonicalBytes = .ok r)
  {w w' : World S.codec}
include hbuild

/-- The map of a write that no replica prepared. -/
theorem truthful_rejected (h : ∀ ρ, ¬ HadPrepared S c.site faults op r w ρ)
    (hw' : ∀ ρ, view c.site ρ w' = afterPrepare S c.site faults op r w ρ) :
    Truthful S faults c op p w w' (c.replicas.map fun ρ => (ρ, .notPrepared)) := by
  rw [truthful_map hbuild fun _ => .notPrepared]
  intro ρ
  have ht' : tablesOf w' ρ = tablesOf w ρ := (congrArg Prod.fst (hw' ρ)).trans (kept_of_unprepared (h ρ))
  exact accurate_unprepared (h ρ) (congrArg Tables.committedRecords ht') (.inl rfl)

/-- The map of a write whose staging was aborted says of a replica that it did not prepare. -/
theorem not_truthful_failed {ρ : ReplicaId} (hρ : HadPrepared S c.site faults op r w ρ) (aborts : List ReplicaAckV1) :
    ¬ Truthful S faults c op p w w' (syncMapAfterFailure (answers S c.site faults c op r w ++ aborts)) := by
  intro htrue
  obtain ⟨s, hs, hacc⟩ := htrue ρ
  have hfind : (answers S c.site faults c op r w ++ aborts).find? (fun a => a.replicaId = ρ) =
      some (answerOf S c.site faults op r w ρ) := by
    rw [List.find?_append, answers_find]
    rfl
  rw [syncMapAfterFailure_lookup, hfind] at hs
  cases hs
  refine (hacc r hbuild).notPrepared ?_ hρ
  unfold syncStateAfterFailure
  rw [show (answerOf S c.site faults op r w ρ).ackStatus = .ackPrepared from hρ]
  rfl

/-- The map of a write that went on to commit. -/
theorem truthful_committing
    (hw' : ∀ ρ, view c.site ρ w' = if namesSlot (answerOf S c.site faults op r w ρ) then
      (cleanupAt faults op (answerOf S c.site faults op r w ρ) (afterCommit S c.site faults c op r w ρ)).2
      else afterCommit S c.site faults c op r w ρ) :
    Truthful S faults c op p w w' ((c.replicas.map (commitOf S c.site faults c op r w)).map fun s => s.sync) ↔
      ∀ ρ, HadPrepared S c.site faults op r w ρ → ρ ∉ winnersOf S c.site faults c op r w →
        Undoes S c.site faults op r w ρ := by
  have hsync : (c.replicas.map (commitOf S c.site faults c op r w)).map (fun s => s.sync) =
      c.replicas.map fun ρ => (ρ, (commitOf S c.site faults c op r w ρ).sync.2) := by
    rw [List.map_map]
    refine List.map_congr_left fun ρ _ => Prod.ext ?_ rfl
    exact commit_place c ρ
  rw [hsync, truthful_map hbuild fun ρ => (commitOf S c.site faults c op r w ρ).sync.2]
  refine forall_congr' fun ρ => ?_
  by_cases hρ : HadPrepared S c.site faults op r w ρ
  · have hview : view c.site ρ w' = afterCommit S c.site faults c op r w ρ := by
      rw [hw', if_neg]
      unfold namesSlot
      rw [show (answerOf S c.site faults op r w ρ).ackStatus = .ackPrepared from hρ]
      simp
    by_cases hwin : ρ ∈ winnersOf S c.site faults c op r w
    · obtain ⟨hstep, hafter⟩ := commit_winner hρ hwin
      rw [hstep]
      refine iff_of_true ?_ fun _ hnot => absurd hwin hnot
      exact accurate_winner hρ ((congrArg Prod.fst hview).trans hafter)
    · obtain ⟨hstep, hafter⟩ := commit_loser hρ hwin
      rw [hstep, forall_prop_of_true hρ, forall_prop_of_true hwin]
      exact accurate_loser hρ (hview.trans hafter)
  · obtain ⟨hstep, hafter⟩ := commit_unprepared (c := c) hρ
    rw [hstep]
    refine iff_of_true ?_ fun hprepared => absurd hprepared hρ
    refine accurate_unprepared hρ ?_ ?_
    · have hkept : (afterCommit S c.site faults c op r w ρ).1 = tablesOf w ρ := hafter ▸ kept_of_unprepared hρ
      have ht' := congrArg Prod.fst (hw' ρ)
      split at ht'
      · rw [show tablesOf w' ρ = _ from ht', ← hkept]
        exact abort_committed _ _ _ _ _
      · exact congrArg Tables.committedRecords (ht'.trans hkept)
    · by_cases hu : (answerOf S c.site faults op r w ρ).ackStatus = .unavailable
      · exact .inr ⟨if_pos hu, hu⟩
      · exact .inl (if_neg hu)

end Record

/-- The map of an admitted write. -/
theorem truthful_write {r : BlackboardRecordV1 V} (hbuild : p.build S.codec c.settings.maxRecordCanonicalBytes = .ok r)
    {w w' : World S.codec} {res : WriteResultV1}
    (h : runAlone S c.site faults (writeRecord c op principal r) w = (.ok res, w')) :
    Truthful S faults c op p w w' res.replicaSync ↔ Settles S faults c op r w := by
  by_cases hnone : ∀ ρ, ¬ HadPrepared S c.site faults op r w ρ
  · refine iff_of_true ?_ (.inl hnone)
    obtain ⟨w₁, hrun, hw₁⟩ := alone_rejected principal (c := c) fun a ha => by
      rw [(mem_answers).mp ha]
      exact hnone a.replicaId
    obtain ⟨hres, rfl⟩ := Prod.mk.inj (hrun.symm.trans h)
    rw [sync_of_writeResult hres]
    exact truthful_rejected hbuild hnone hw₁
  · have hsome : ¬ ∀ a ∈ answers S c.site faults c op r w, a.ackStatus ≠ .ackPrepared :=
      fun hall => hnone fun ρ => hall _ (List.mem_map_of_mem (mem_replicas c ρ))
    rw [Settles, or_iff_right hnone]
    by_cases hquorum : (evaluateQuorum (answers S c.site faults c op r w) c.settings.quorumSize).decision = .quorumMet
    · rw [and_iff_right hquorum]
      obtain ⟨w₁, hrun, hw₁⟩ := alone_committing principal hsome hquorum
      obtain ⟨hres, rfl⟩ := Prod.mk.inj (hrun.symm.trans h)
      rw [sync_of_writeResult hres]
      exact truthful_committing hbuild hw₁
    · obtain ⟨w₁, reason, hrun, hw₁⟩ := alone_failed principal hsome hquorum
      obtain ⟨hres, rfl⟩ := Prod.mk.inj (hrun.symm.trans h)
      rw [sync_of_writeResult hres]
      push Not at hnone
      obtain ⟨ρ, hρ⟩ := hnone
      exact iff_of_false (not_truthful_failed hbuild hρ _) fun hs => hquorum hs.1

theorem sync_map_truthful_iff {w w' : World S.codec} {res : WriteResultV1}
    (h : runAlone S c.site faults (propose S.codec c op p principal) w = (.ok res, w')) :
    Truthful S faults c op p w w' res.replicaSync ↔
      ∃ r, Admitted S c principal p r ∧ Settles S faults c op r w := by
  by_cases hadmitted : ∃ r, Admitted S c principal p r
  · obtain ⟨r, hr⟩ := hadmitted
    rw [propose_admitted hr] at h
    rw [truthful_write hr.built h]
    constructor
    · exact fun hs => ⟨r, hr, hs⟩
    · rintro ⟨r', hr', hs⟩
      have hsame := hr.built.symm.trans hr'.built
      rw [Except.ok.injEq] at hsame
      exact hsame ▸ hs
  · obtain ⟨outcome, reason, record, hprog, -⟩ := propose_refused op hadmitted
    rw [hprog] at h
    rw [sync_of_writeResult (congrArg Prod.fst h)]
    exact iff_of_false (not_truthful_nil w w') fun ⟨r, hr, _⟩ => hadmitted ⟨r, hr⟩

end Map

/-! ## Evaluation -/

/-- A first write of the development system, alone. -/
def devWrite (faults : Faults String) : Except String WriteResultV1 × World devSystem.codec :=
  runAlone devSystem 0 faults
    (propose devSystem.codec (devCoordinator 0 0 2 devQuorum_pos) "bbw-1" (.draft (devDraft 1 1)) "agent") (initial devSystem)

def mapOf (out : Except String WriteResultV1) : Option (WriteOutcome × List (ReplicaId × ReplicationSyncState)) :=
  out.toOption.map fun res => (res.outcome, res.replicaSync)

theorem mapOf_cases {out : Except String WriteResultV1} {outcome : WriteOutcome}
    {sync : List (ReplicaId × ReplicationSyncState)} (h : mapOf out = some (outcome, sync)) :
    ∃ res, out = .ok res ∧ res.outcome = outcome ∧ res.replicaSync = sync := by
  cases out with
  | error e => cases h
  | ok res =>
    simp only [mapOf, Except.toOption, Option.map_some, Option.some.injEq, Prod.mk.injEq] at h
    exact ⟨res, rfl, h.1, h.2⟩

/-- The hook gives the third replica other content to stage. -/
def devSubstitutes : Faults String
  | .prepare .replicaC _ _ => { calm 10 with intercept := .substitute (devRecord 1 2) }
  | _ => calm 10

theorem sync_map_truthful_iff_substituted : ∃ res w', devWrite devSubstitutes = (.ok res, w') ∧
    res.replicaSync = [(.replicaA, .synced), (.replicaB, .synced), (.replicaC, .aborted)] ∧
    Truthful devSystem devSubstitutes (devCoordinator 0 0 2 (by decide)) "bbw-1" (.draft (devDraft 1 1))
      (initial devSystem) w' res.replicaSync := by
  obtain ⟨res, hres, -, hsync⟩ := mapOf_cases (show mapOf (devWrite devSubstitutes).1 = some (.committed,
    [(.replicaA, .synced), (.replicaB, .synced), (.replicaC, .aborted)]) by decide)
  refine ⟨res, (devWrite devSubstitutes).2, Prod.ext hres rfl, hsync, ?_⟩
  have hrun : runAlone devSystem 0 devSubstitutes (propose devSystem.codec (devCoordinator 0 0 2 (by decide)) "bbw-1"
      (.draft (devDraft 1 1)) "agent") (initial devSystem) = (.ok res, (devWrite devSubstitutes).2) := Prod.ext hres rfl
  refine (sync_map_truthful_iff (c := devCoordinator 0 0 2 (by decide)) hrun).mpr
    ⟨devRecord 1 1, ⟨by decide, rfl, rfl⟩, .inr ⟨by decide, fun ρ _ hρ => ?_⟩⟩
  cases ρ with
  | replicaA => exact absurd (by decide) hρ
  | replicaB => exact absurd (by decide) hρ
  | replicaC => exact .inr ⟨by decide, by decide, rfl⟩

/-- The hook reports the second and the third replica down. -/
def devOnlyFirst : Faults String
  | .prepare .replicaB _ _ | .prepare .replicaC _ _ => failing 10 (.hookUnavailable "down")
  | _ => calm 10

theorem aborted_called_not_prepared : ∃ res w', devWrite devOnlyFirst = (.ok res, w') ∧ res.outcome = .failedQuorum ∧
    res.replicaSync = [(.replicaA, .notPrepared), (.replicaB, .unavailable), (.replicaC, .unavailable)] ∧
    WasRemoved devSystem 0 devOnlyFirst "bbw-1" (devRecord 1 1) (initial devSystem) w' .replicaA ∧
    ¬ Truthful devSystem devOnlyFirst (devCoordinator 0 0 2 (by decide)) "bbw-1" (.draft (devDraft 1 1))
      (initial devSystem) w' res.replicaSync := by
  obtain ⟨res, hres, hout, hsync⟩ := mapOf_cases (show mapOf (devWrite devOnlyFirst).1 = some (.failedQuorum,
    [(.replicaA, .notPrepared), (.replicaB, .unavailable), (.replicaC, .unavailable)]) by decide)
  have hprepared : HadPrepared devSystem 0 devOnlyFirst "bbw-1" (devRecord 1 1) (initial devSystem) .replicaA := by
    decide
  have hempty : tablesOf (devWrite devOnlyFirst).2 .replicaA = emptyTables := by decide
  refine ⟨res, (devWrite devOnlyFirst).2, Prod.ext hres rfl, hout, hsync, ⟨hprepared, ?_, ?_⟩, fun htrue => ?_⟩
  · exact not_promoted (by rw [hempty]; rfl)
  · rintro ⟨p, hp, -⟩
    rw [hempty] at hp
    cases hp
  · obtain ⟨s, hs, hacc⟩ := htrue .replicaA
    rw [hsync] at hs
    cases hs
    exact (hacc (devRecord 1 1) rfl).notPrepared rfl hprepared

end BlackboardSyncMap
