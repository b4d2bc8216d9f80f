import AgenticSoc.BlackboardProtocol

/-!
# What a failed quorum leaves behind

A write that does not find a quorum aborts where it prepared. The abort removes the
row that now carries its operation, which is all that the prepare had put there; what
the prepare found in the slot does not come back. That was nothing, a row of the same
record, which the newer operation takes over by design, or a row whose lease had run
out.
-/
namespace BlackboardFailedQuorum

open BlackboardRecord BlackboardStorage BlackboardReplica BlackboardCoordinator BlackboardSystem
open BlackboardProtocol Interaction

variable {V : Type}

/-! ## Undoing a prepare -/

/-- What an acknowledged abort leaves of the tables. -/
def withoutOperation (t : Tables) (op k : String) (v : Nat) : Tables :=
  { t with pendingPrepares := t.pendingPrepares.filter fun p =>
      !(inSlot k v p && decide (p.operationId = op)) }

theorem withoutOperation_restaged (t : Tables) (op k utc : String) (v : Nat) (now : Rat) :
    withoutOperation (updatePending t k v op utc now) op k v = deletePending t k v := by
  have hlist : ∀ l : List PendingRow,
      (l.map fun p => if inSlot k v p then
          { p with operationId := op, createdAtUtc := utc, createdEpoch := now } else p).filter
        (fun p => !(inSlot k v p && decide (p.operationId = op))) =
      l.filter fun p => !inSlot k v p := by
    intro l
    induction l with
    | nil => rfl
    | cons p l ih =>
      rw [List.map_cons]
      by_cases hp : inSlot k v p = true
      · have hnew : inSlot k v { p with operationId := op, createdAtUtc := utc, createdEpoch := now } =
            true := hp
        rw [if_pos hp, List.filter_cons_of_neg (by simp [hnew]), List.filter_cons_of_neg (by simp [hp]), ih]
      · rw [if_neg hp, List.filter_cons_of_pos (by simp [hp]), List.filter_cons_of_pos (by simp [hp]), ih]
  unfold withoutOperation updatePending deletePending
  rw [hlist]

theorem withoutOperation_inserted (t : Tables) (row : PendingRow) :
    withoutOperation (insertPending (deletePending t row.recordKey row.recordVersion) row)
      row.operationId row.recordKey row.recordVersion =
    deletePending t row.recordKey row.recordVersion := by
  have hrow : inSlot row.recordKey row.recordVersion row = true := (inSlot_iff _ _ _).mpr ⟨rfl, rfl⟩
  have hrest : ((t.pendingPrepares.filter fun p => !inSlot row.recordKey row.recordVersion p).filter
      fun p => !(inSlot row.recordKey row.recordVersion p && decide (p.operationId = row.operationId))) =
      t.pendingPrepares.filter fun p => !inSlot row.recordKey row.recordVersion p := by
    rw [List.filter_eq_self]
    intro p hp
    have hout := (List.mem_filter.mp hp).2
    simp only [Bool.not_eq_true'] at hout
    simp [hout]
  unfold withoutOperation insertPending deletePending
  rw [List.filter_append, hrest]
  simp [hrow]

/-- The row was of a record that the call staged again, or its lease had run out. -/
def Taken (env : Nat → Env V) (r : BlackboardRecordV1 V) (lease : Rat) (p : PendingRow) : Prop :=
  ∃ n staged, Passes (env n) r staged ∧
    (p.recordId = staged.recordId ∨ lease < (env n).now - p.createdEpoch)

/-- A prepare that was acknowledged: undoing it leaves what was outside the slot, and
what was in the slot was taken. -/
structure Staged (env : Nat → Env V) (op : String) (r : BlackboardRecordV1 V) (lease : Rat)
    (t t' : Tables) : Prop where
  undone : withoutOperation t' op r.recordKey r.recordVersion =
    deletePending t r.recordKey r.recordVersion
  taken : ∀ p, getPendingRow t r.recordKey r.recordVersion = some p → Taken env r lease p

theorem undone_of_effect {row : PendingRow} {lease : Rat} {t t' : Tables} {res : PrepareResult}
    (h : PrepareEffect t row lease t' res)
    (hres : res.outcome = .prepared ∨ res.outcome = .preparedLeaseTakeover) :
    withoutOperation t' row.operationId row.recordKey row.recordVersion =
      deletePending t row.recordKey row.recordVersion := by
  cases h with
  | stale _ => rcases hres with he | he <;> cases he
  | ahead _ => rcases hres with he | he <;> cases he
  | conflict p _ _ _ _ => rcases hres with he | he <;> cases he
  | fresh _ hnone =>
    have hundo := withoutOperation_inserted t row
    rw [deletePending_of_none hnone] at hundo ⊢
    exact hundo
  | restaged p _ _ _ => exact withoutOperation_restaged _ _ _ _ _ _
  | takeover p _ _ _ _ => exact withoutOperation_inserted t row

theorem taken_of_effect {row p : PendingRow} {lease : Rat} {t t' : Tables} {res : PrepareResult}
    (h : PrepareEffect t row lease t' res)
    (hres : res.outcome = .prepared ∨ res.outcome = .preparedLeaseTakeover)
    (hp : getPendingRow t row.recordKey row.recordVersion = some p) :
    p.recordId = row.recordId ∨ lease < row.createdEpoch - p.createdEpoch := by
  cases h with
  | stale _ => rcases hres with he | he <;> cases he
  | ahead _ => rcases hres with he | he <;> cases he
  | conflict p _ _ _ _ => rcases hres with he | he <;> cases he
  | fresh _ hnone =>
    rw [hnone] at hp
    cases hp
  | restaged p' _ hp' hid =>
    rw [hp', Option.some.injEq] at hp
    exact .inl (hp ▸ hid)
  | takeover p' _ hp' _ hl =>
    rw [hp', Option.some.injEq] at hp
    exact .inr (hp ▸ hl)

theorem staged_of_effect {cd : RecordCodec V} {env : Nat → Env V} {n : Nat} {op : String}
    {r staged : BlackboardRecordV1 V} {lease : Rat} {t t' : Tables} {res : PrepareResult}
    (hpass : Passes (env n) r staged)
    (hslot : staged.recordKey = r.recordKey ∧ staged.recordVersion = r.recordVersion)
    (h : PrepareEffect t (stagedRow cd (env n) op staged) lease t' res)
    (hres : res.outcome = .prepared ∨ res.outcome = .preparedLeaseTakeover) :
    Staged env op r lease t t' := by
  have hundo : withoutOperation t' op staged.recordKey staged.recordVersion =
      deletePending t staged.recordKey staged.recordVersion := undone_of_effect h hres
  rw [hslot.1, hslot.2] at hundo
  refine ⟨hundo, ?_⟩
  intro p hp
  rw [← hslot.1, ← hslot.2] at hp
  exact ⟨n, staged, hpass, taken_of_effect h hres hp⟩

/-! ## The calls of a failing write -/

section Calls

variable {S : System V} {site : Nat} {env : Nat → Env V} {op : String} {r : BlackboardRecordV1 V}

/-- Hooks that substitute a record keep its key and version. -/
def SubstitutesInSlot (env : Nat → Env V) (r : BlackboardRecordV1 V) : Prop :=
  ∀ n r', (env n).intercept = .substitute r' →
    r'.recordKey = r.recordKey ∧ r'.recordVersion = r.recordVersion

theorem passes_slot (hslot : SubstitutesInSlot env r) {n : Nat} {staged : BlackboardRecordV1 V}
    (hpass : Passes (env n) r staged) :
    staged.recordKey = r.recordKey ∧ staged.recordVersion = r.recordVersion := by
  rcases hpass with ⟨-, rfl⟩ | hsub
  · exact ⟨rfl, rfl⟩
  · exact hslot n staged hsub

/-- The tables of one replica in a world. -/
def tablesOf {cd : RecordCodec V} (w : World cd) (ρ : ReplicaId) : Tables := (w.store ρ).tables

/-- One prepare of the write: it touches its replica only, and that only when it is
acknowledged. -/
theorem prepare_call (site : Nat) (op : String) (hslot : SubstitutesInSlot env r) (n : Nat) (w : World S.codec) (ρ : ReplicaId) :
    let out := exec S site (.prepare ρ op r) (env n) w
    (∀ ρ', ρ' ≠ ρ → tablesOf out.1 ρ' = tablesOf w ρ') ∧ out.2.replicaId = ρ ∧
    ((out.2.ackStatus ≠ .ackPrepared ∧ tablesOf out.1 ρ = tablesOf w ρ) ∨
      (out.2.ackStatus = .ackPrepared ∧
        Staged env op r (S.settings site ρ).pendingLeaseSeconds (tablesOf w ρ) (tablesOf out.1 ρ))) := by
  intro out
  refine ⟨?_, (exec_answers S site (.prepare ρ op r) (env n) w).1, ?_⟩
  · intro ρ' hρ
    simp only [out, tablesOf, exec, onStore_tables, if_neg hρ]
  · have htables : tablesOf out.1 ρ = (prepare S.codec ρ (w.status site ρ) (env n)
        (S.settings site ρ) op r (tablesOf w ρ)).1 := by
      simp only [out, tablesOf, exec, onStore_tables, if_true]
    rw [htables]
    rcases prepare_effect S.codec ρ (w.status site ρ) (env n) (tablesOf w ρ) (S.settings site ρ) op r with
      h | ⟨hs, staged, hpass, -, -, res, heffect, hres⟩
    · exact .inl h
    · exact .inr ⟨hs, staged_of_effect hpass (passes_slot hslot hpass) heffect hres⟩

/-- One abort: it touches its replica only, and leaves it without the operation when
it is acknowledged. -/
theorem abort_call (site : Nat) (op : String) (e : Env V) (w : World S.codec) (ρ : ReplicaId) (k : String) (v : Nat) :
    let out := exec S site (.abort ρ op k v) e w
    (∀ ρ', ρ' ≠ ρ → tablesOf out.1 ρ' = tablesOf w ρ') ∧ out.2.operationKind = .abort ∧
    (out.2.ackStatus = .aborted → tablesOf out.1 ρ = withoutOperation (tablesOf w ρ) op k v) := by
  intro out
  refine ⟨?_, ?_, ?_⟩
  · intro ρ' hρ
    simp only [out, tablesOf, exec, onStore_tables, if_neg hρ]
  · change (abort ρ (w.status site ρ) e op k v (w.store ρ).tables).2.operationKind = .abort
    unfold abort
    split
    · rename_i ack hack
      obtain ⟨status, reason, rfl, -⟩ := refusal_some hack
      rfl
    · split <;> rfl
  · intro hs
    have htables : tablesOf out.1 ρ = (abort ρ (w.status site ρ) e op k v (tablesOf w ρ)).1 := by
      simp only [out, tablesOf, exec, onStore_tables, if_true]
    rw [htables]
    rcases abort_effect ρ (w.status site ρ) e (tablesOf w ρ) op k v with ⟨hne, -⟩ | ⟨-, h⟩
    · exact absurd hs hne
    · exact h

/-- The setting of a write that runs alone and meets the given environments. -/
abbrev lone (S : System V) (site : Nat) (env : Nat → Env V) : Setting (Blackboard V) (World S.codec) :=
  alone (exec S site) (fun e => ∃ n, env n = e)

/-- After some of the prepares: what was acknowledged is staged, the rest is as it was. -/
structure Prepared (S : System V) (site : Nat) (env : Nat → Env V) (op : String)
    (r : BlackboardRecordV1 V) (w₀ : World S.codec) (done : List ReplicaId)
    (acks : List ReplicaAckV1) (w : World S.codec) : Prop where
  ids : acks.map (fun a => a.replicaId) = done
  staged : ∀ a ∈ acks, a.ackStatus = .ackPrepared →
    Staged env op r (S.settings site a.replicaId).pendingLeaseSeconds (tablesOf w₀ a.replicaId)
      (tablesOf w a.replicaId)
  rest : ∀ ρ, (∀ a ∈ acks, a.replicaId = ρ → a.ackStatus ≠ .ackPrepared) → tablesOf w ρ = tablesOf w₀ ρ
  status : w.status = w₀.status

theorem wp_prepares_staged (hslot : SubstitutesInSlot env r) (w₀ : World S.codec) {l : List ReplicaId}
    (hl : l.Nodup) :
    Wp (lone S site env) (fun acks w => Prepared S site env op r w₀ l acks w)
      (forEach (callPrepare op r) l) w₀ := by
  refine wp_forEach (fun done acks w => Prepared S site env op r w₀ done acks w) ?_
    ⟨rfl, by simp, by simp, rfl⟩
  rintro done ρ rest acks w rfl ⟨hids, hstaged, hrest, hstatus⟩
  have hnew : ∀ a ∈ acks, a.replicaId ≠ ρ := by
    intro a ha he
    have hdone : ρ ∈ done := by
      rw [← hids, ← he]
      exact List.mem_map_of_mem ha
    exact (List.nodup_append.mp hl).2.2 ρ hdone ρ (by simp) rfl
  refine wp_alone (I := Blackboard V) (exec S site) ?_
  rintro e ⟨n, rfl⟩
  obtain ⟨hother, hid, hself⟩ := prepare_call site op hslot n w ρ
  have hbefore : tablesOf w ρ = tablesOf w₀ ρ := hrest ρ (fun a ha he => absurd he (hnew a ha))
  refine ⟨by rw [List.map_append, hids, List.map_singleton, hid], ?_, ?_, hstatus⟩
  · intro b hb hs
    rcases List.mem_append.mp hb with hb | hb
    · rw [hother _ (hnew b hb)]
      exact hstaged b hb hs
    · rw [List.mem_singleton.mp hb] at hs ⊢
      rcases hself with ⟨hne, -⟩ | ⟨-, hst⟩
      · exact absurd hs hne
      · rw [hid, ← hbefore]
        exact hst
  · intro ρ' hall
    by_cases hρ : ρ' = ρ
    · subst hρ
      rcases hself with ⟨-, hsame⟩ | ⟨hs, -⟩
      · rw [hsame, hbefore]
      · exact absurd hs (hall _ (by simp) hid)
    · rw [hother ρ' hρ]
      exact hrest ρ' (fun a ha => hall a (List.mem_append_left _ ha))

/-- After some of the aborts, all acknowledged: those replicas are without the
operation, the others as they were. -/
structure Aborted (op : String) (r : BlackboardRecordV1 V) {cd : RecordCodec V} (w₁ : World cd)
    (done acks : List ReplicaAckV1) (w : World cd) : Prop where
  kind : ∀ b ∈ acks, b.operationKind = .abort
  undone : (∀ b ∈ acks, b.ackStatus = .aborted) → ∀ a ∈ done,
    tablesOf w a.replicaId = withoutOperation (tablesOf w₁ a.replicaId) op r.recordKey r.recordVersion
  rest : ∀ ρ, (∀ a ∈ done, a.replicaId ≠ ρ) → tablesOf w ρ = tablesOf w₁ ρ

theorem wp_aborts_undone (w₁ : World S.codec) {l : List ReplicaAckV1}
    (hl : (l.map fun a => a.replicaId).Nodup) :
    Wp (lone S site env) (fun acks w => Aborted op r w₁ l acks w)
      (forEach (fun a => callAbort op r.recordKey r.recordVersion a.replicaId) l) w₁ := by
  refine wp_forEach (fun done acks w => Aborted op r w₁ done acks w) ?_ ⟨by simp, by simp, by simp⟩
  rintro done x rest acks w rfl ⟨hkind, hundone, hrest⟩
  have hnew : ∀ a ∈ done, a.replicaId ≠ x.replicaId := by
    intro a ha
    rw [List.map_append, List.map_cons] at hl
    exact (List.nodup_append.mp hl).2.2 _ (List.mem_map_of_mem ha) _ (by simp)
  refine wp_alone (I := Blackboard V) (exec S site) ?_
  rintro e ⟨n, rfl⟩
  obtain ⟨hother, hk, hself⟩ := abort_call site op (env n) w x.replicaId r.recordKey
    r.recordVersion
  refine ⟨?_, ?_, ?_⟩
  · intro b hb
    rcases List.mem_append.mp hb with hb | hb
    · exact hkind b hb
    · rw [List.mem_singleton.mp hb]
      exact hk
  · intro hall a ha
    rcases List.mem_append.mp ha with ha | ha
    · rw [hother _ (hnew a ha)]
      exact hundone (fun b hb => hall b (List.mem_append_left _ hb)) a ha
    · rw [List.mem_singleton.mp ha, hself (hall _ (by simp)), hrest x.replicaId hnew]
  · intro ρ hρ
    rw [hother ρ (hρ x (by simp)).symm]
    exact hrest ρ (fun a ha => hρ a (List.mem_append_left _ ha))

end Calls

/-! ## The write -/

section Write

variable {S : System V} {c : Coordinator} {env : Nat → Env V} {op principal : String}
  {r : BlackboardRecordV1 V}

/-- The committed rows and heads are those before, nothing new is pending, and a
pending row that is gone was in the record's slot and taken. -/
structure LeftAsBefore (env : Nat → Env V) (r : BlackboardRecordV1 V) (lease : Rat) (t t' : Tables) :
    Prop where
  committed : t'.committedRecords = t.committedRecords
  heads : t'.keyHeads = t.keyHeads
  nothingNew : t'.pendingPrepares.Sublist t.pendingPrepares
  lost : ∀ p ∈ t.pendingPrepares, p ∉ t'.pendingPrepares →
    getPendingRow t r.recordKey r.recordVersion = some p ∧ Taken env r lease p

theorem leftAsBefore_refl (lease : Rat) (t : Tables) : LeftAsBefore env r lease t t :=
  ⟨rfl, rfl, List.Sublist.refl _, fun _ hp hn => absurd hp hn⟩

theorem leftAsBefore_deleted {lease : Rat} {t : Tables} (hv : Valid t)
    (h : ∀ p, getPendingRow t r.recordKey r.recordVersion = some p → Taken env r lease p) :
    LeftAsBefore env r lease t (deletePending t r.recordKey r.recordVersion) := by
  refine ⟨rfl, rfl, List.filter_sublist, ?_⟩
  intro p hp hlost
  have hin : inSlot r.recordKey r.recordVersion p = true := by
    by_contra hno
    exact hlost (List.mem_filter.mpr ⟨hp, by simpa using hno⟩)
  cases hget : getPendingRow t r.recordKey r.recordVersion with
  | none =>
    have := (getPendingRow_eq_none).mp hget p hp
    rw [hin] at this
    cases this
  | some p' =>
    obtain ⟨hp', hk', -⟩ := getPendingRow_some hget
    have hsame : p' = p := by
      apply hv.pending_unique hp' hp
      rw [hk', ((inSlot_iff _ _ _).mp hin).1]
    subst hsame
    exact ⟨rfl, h p' hget⟩

/-- What a write that failed its quorum, with every abort acknowledged, has left of a
world. -/
def FailsClean (S : System V) (site : Nat) (env : Nat → Env V) (r : BlackboardRecordV1 V)
    (w₀ : World S.codec) (out : Except String WriteResultV1) (w : World S.codec) : Prop :=
  ∀ res, out = .ok res → res.outcome = .failedQuorum →
    (∀ a ∈ res.acks, a.operationKind = .abort → a.ackStatus = .aborted) →
    ∀ ρ, LeftAsBefore env r (S.settings site ρ).pendingLeaseSeconds (tablesOf w₀ ρ) (tablesOf w ρ)

theorem failsClean_of_other {site : Nat} {w₀ w : World S.codec} {outcome : WriteOutcome}
    {reason : Option String} {record : Option (BlackboardRecordV1 V)} {acks : List ReplicaAckV1}
    {sync : List (ReplicaId × ReplicationSyncState)} (ho : outcome ≠ .failedQuorum) :
    FailsClean S site env r w₀ (writeResult op principal outcome reason record acks sync) w := by
  intro res hres hout
  unfold writeResult at hres
  simp only at hres
  split at hres
  · cases hres
  · cases hres
    exact absurd hout ho

theorem failsClean_of_same {site : Nat} {w₀ w : World S.codec} {out : Except String WriteResultV1}
    (h : ∀ ρ, tablesOf w ρ = tablesOf w₀ ρ) : FailsClean S site env r w₀ out w := by
  intro res _ _ _ ρ
  rw [h ρ]
  exact leftAsBefore_refl _ _

theorem wp_writeRecord_clean (hslot : SubstitutesInSlot env r) (w₀ : World S.codec) :
    Wp (lone S c.site env) (FailsClean S c.site env r w₀) (writeRecord c op principal r) w₀ := by
  unfold writeRecord
  apply wp_bind
  refine wp_mono ?_ (wp_prepares_staged hslot w₀ c.distinct)
  intro acks w₁ hprep
  split
  · rename_i hnone
    refine wp_ret (failsClean_of_same ?_)
    intro ρ
    apply hprep.rest
    intro a ha _
    simpa using List.all_eq_true.mp hnone a ha
  · simp only
    split
    · -- no quorum: abort on the replicas that prepared
      have hnodup : ((acks.filter fun a => a.ackStatus = .ackPrepared).map
          fun a => a.replicaId).Nodup := by
        have hsub := (List.filter_sublist (l := acks) (p := fun a => a.ackStatus = .ackPrepared)).map
          fun a => a.replicaId
        rw [hprep.ids] at hsub
        exact hsub.nodup c.distinct
      apply wp_bind
      refine wp_mono ?_ (wp_aborts_undone w₁ hnodup)
      intro abortAcks w haborted
      refine wp_ret ?_
      intro res hres _ hacks ρ
      have hall : ∀ b ∈ abortAcks, b.ackStatus = .aborted := by
        intro b hb
        unfold writeResult at hres
        simp only [reduceCtorEq, false_and, if_false, Except.ok.injEq] at hres
        subst hres
        exact hacks b (List.mem_append_right _ hb) (haborted.kind b hb)
      by_cases hex : ∃ a ∈ acks, a.replicaId = ρ ∧ a.ackStatus = .ackPrepared
      · obtain ⟨a, ha, rfl, hs⟩ := hex
        have hst := hprep.staged a ha hs
        have hmem : a ∈ acks.filter fun a => a.ackStatus = .ackPrepared :=
          List.mem_filter.mpr ⟨ha, decide_eq_true hs⟩
        rw [haborted.undone hall a hmem, hst.undone]
        exact leftAsBefore_deleted (w₀.store a.replicaId).valid hst.taken
      · have hnot : ∀ a ∈ acks, a.replicaId = ρ → a.ackStatus ≠ .ackPrepared :=
          fun a ha he hs => hex ⟨a, ha, he, hs⟩
        rw [haborted.rest ρ, hprep.rest ρ hnot]
        · exact leftAsBefore_refl _ _
        · intro a ha he
          obtain ⟨hmem, hs⟩ := List.mem_filter.mp ha
          exact hnot a hmem he (of_decide_eq_true hs)
    · -- a quorum was found: the outcome is decided by the commits
      apply wp_bind
      refine wp_of_forall (I := Blackboard V) (exec S c.site) ?_ _ _
      intro steps w
      apply wp_bind
      refine wp_of_forall (I := Blackboard V) (exec S c.site) ?_ _ _
      intro cleanup w
      refine wp_ret (failsClean_of_other ?_)
      have hcases := commitOutcome_cases c.settings.quorumSize acks
        ((steps.filterMap fun s => s.commitAck).filter
          (isDurable (some r.recordId) (some r.contentHash)))
        (evaluateQuorum acks c.settings.quorumSize).compatibleReplicaIds
      rcases hcases with ⟨h, -⟩ | ⟨h, -⟩ | ⟨h, -⟩
      all_goals
        rw [h]
        exact nofun

/-- A write alone in the system that returns `FAILED_QUORUM`, with every abort it sent
acknowledged, leaves every replica's committed rows and heads as they were and stages
nothing; a pending row that is gone was in the slot of the proposed record, and it was
of the same record or its lease had run out. -/
theorem failed_quorum_leaves_storage (S : System V) (c : Coordinator) (env : Nat → Env V)
    (op principal : String) (proposal : Proposal V) (w w' : World S.codec) {r : BlackboardRecordV1 V}
    {res : WriteResultV1} (hr : proposal.build S.codec c.settings.maxRecordCanonicalBytes = .ok r)
    (hslot : SubstitutesInSlot env r)
    (hrun : solo (I := Blackboard V) (exec S c.site) env (propose S.codec c op proposal principal) 0 w =
      (.ok res, w'))
    (hout : res.outcome = .failedQuorum)
    (hacks : ∀ a ∈ res.acks, a.operationKind = .abort → a.ackStatus = .aborted) (ρ : ReplicaId) :
    LeftAsBefore env r (S.settings c.site ρ).pendingLeaseSeconds (tablesOf w ρ) (tablesOf w' ρ) := by
  have hwp : Wp (lone S c.site env) (FailsClean S c.site env r w) (propose S.codec c op proposal principal)
      w := by
    unfold propose
    split
    · exact wp_ret (failsClean_of_same fun _ => rfl)
    · rw [hr]
      simp only
      split
      · exact wp_writeRecord_clean hslot w
      · exact wp_ret (failsClean_of_same fun _ => rfl)
  have hall := solo_of_wp (I := Blackboard V) (exec S c.site) (fun n => ⟨n, rfl⟩) 0 hwp
  rw [hrun] at hall
  exact hall res rfl hout hacks ρ

end Write

/-! ## Evaluation -/

/-- The second and the third call find their replica down. -/
def devOneAnswers (n : Nat) : Env String :=
  if n = 1 ∨ n = 2 then failing 10 (.hookUnavailable "down") else calm 10

/-- A second write of the same content, alone, from this world. -/
def devRetry (w : World devCodec) : Except String WriteResultV1 × World devCodec :=
  solo (I := Blackboard String) (exec devSystem 0) devOneAnswers
    (propose devCodec (devCoordinator 1 0 2 devQuorum_pos) "bbw-2" (.draft (devDraft 1 1)) "agent") 0 w

/-- The write failed its quorum and every abort it sent was acknowledged. -/
def failedClean : Except String WriteResultV1 → Bool
  | .ok res => decide (res.outcome = .failedQuorum) &&
      res.acks.all fun a => decide (a.operationKind = .abort → a.ackStatus = .aborted)
  | .error _ => false

theorem failedClean_cases {out : Except String WriteResultV1} (h : failedClean out = true) :
    ∃ res, out = .ok res ∧ res.outcome = .failedQuorum ∧
      ∀ a ∈ res.acks, a.operationKind = .abort → a.ackStatus = .aborted := by
  cases out with
  | error e => cases h
  | ok res =>
    simp only [failedClean, Bool.and_eq_true, decide_eq_true_eq, List.all_eq_true] at h
    exact ⟨res, rfl, h.1, h.2⟩

theorem failed_quorum_leaves_storage_dev : ∃ res w', devRetry (initial devSystem) = (.ok res, w') ∧
    res.outcome = .failedQuorum ∧
    LeftAsBefore devOneAnswers (devRecord 1 1) 300 (tablesOf (initial devSystem) .replicaA)
      (tablesOf w' .replicaA) := by
  obtain ⟨res, hres, ho, hacks⟩ := failedClean_cases
    (show failedClean (devRetry (initial devSystem)).1 = true by decide)
  have hslot : SubstitutesInSlot devOneAnswers (devRecord 1 1) := by
    intro n r' he
    unfold devOneAnswers at he
    split at he <;> cases he
  have hbuild : (Proposal.draft (devDraft 1 1)).build devCodec 262144 = .ok (devRecord 1 1) := by
    rfl
  refine ⟨res, (devRetry (initial devSystem)).2, Prod.ext hres rfl, ho, ?_⟩
  exact failed_quorum_leaves_storage devSystem (devCoordinator 1 0 2 (by decide)) devOneAnswers "bbw-2"
    "agent" (.draft (devDraft 1 1)) (initial devSystem) _ hbuild hslot
    (Prod.ext hres rfl) ho hacks .replicaA

/-- A first write of the content is under way and has prepared everywhere. -/
def devStagedRun : List (Step String) :=
  [devPropose (devCoordinator 0 0 2 devQuorum_pos) "bbw-1" 1 1] ++ calls 0 3 0

theorem live_staging_lost : ∃ c res w' p, Reaches devSystem devStagedRun c ∧
    devRetry c.state = (.ok res, w') ∧ res.outcome = .failedQuorum ∧
    (∀ a ∈ res.acks, a.operationKind = .abort → a.ackStatus = .aborted) ∧
    p ∈ (tablesOf c.state .replicaA).pendingPrepares ∧ p.operationId = "bbw-1" ∧
    (∀ n, ¬ 300 < (devOneAnswers n).now - p.createdEpoch) ∧
    (tablesOf w' .replicaA).pendingPrepares = [] := by
  obtain ⟨c, hc, hcheck⟩ := reaches_of_any devSystem devStagedRun
    (fun c => failedClean (devRetry c.state).1 &&
      (tablesOf c.state .replicaA).pendingPrepares.any (fun p =>
        decide (p.operationId = "bbw-1") && decide (p.createdEpoch = 0)) &&
      decide ((tablesOf (devRetry c.state).2 .replicaA).pendingPrepares = [])) (by decide)
  simp only [Bool.and_eq_true, List.any_eq_true, decide_eq_true_eq] at hcheck
  obtain ⟨⟨hclean, p, hp, hop, hepoch⟩, hempty⟩ := hcheck
  obtain ⟨res, hres, ho, hacks⟩ := failedClean_cases hclean
  refine ⟨c, res, (devRetry c.state).2, p, hc, Prod.ext hres rfl, ho, hacks, hp, hop, ?_, hempty⟩
  intro n
  rw [hepoch]
  unfold devOneAnswers
  split <;> decide +kernel

end BlackboardFailedQuorum
