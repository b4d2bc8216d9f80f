import AgenticSoc.BlackboardNextVersion
import AgenticSoc.LocalPrograms

/-!
# A coordinator that runs alone

Every call of a program works on one replica, on its tables and on the status of its object.
A write on its own is therefore what it does to each replica, and its result is what the
replicas acknowledge. The faults of a run are given for each call.
-/
namespace BlackboardSolo

open BlackboardRecord BlackboardStorage BlackboardReplica BlackboardCoordinator BlackboardSystem
open BlackboardFailedQuorum BlackboardNextVersion Interaction LocalPrograms

variable {V : Type}

/-- The tables of a replica and the status of its object. -/
abbrev Local := Tables × ReplicaStatus

def view {cd : RecordCodec V} (site : Nat) (ρ : ReplicaId) (w : World cd) : Local := (tablesOf w ρ, w.status site ρ)

/-- The environment that each call meets. -/
abbrev Faults (V : Type) := Call V → Env V

def Quiet (faults : Faults V) : Prop := ∀ q, (faults q).fault = none ∧ (faults q).intercept = .original

section Calls

variable (S : System V) (site : Nat) (faults : Faults V)

def execWith (q : Call V) (w : World S.codec) : World S.codec × q.Reply := exec S site q (faults q) w

/-- The program alone in the world. -/
def runAlone {α : Type} (p : Prog (Blackboard V) α) (w : World S.codec) : α × World S.codec :=
  run (I := Blackboard V) (execWith S site faults) p w

variable {S site faults} in
theorem runAlone_bind {α β : Type} {p : Prog (Blackboard V) β} {f : β → Prog (Blackboard V) α}
    {w w' : World S.codec} {b : β} (h : runAlone S site faults p w = (b, w')) :
    runAlone S site faults (p >>= f) w = runAlone S site faults (f b) w' := by
  unfold runAlone at h ⊢
  rw [run_bind, h]

/-- What the program does, all of it to one replica. -/
abbrev ActsAt {α : Type} (ρ : ReplicaId) (p : Prog (Blackboard V) α) (f : Local → α × Local) : Prop :=
  Acts (I := Blackboard V) (execWith S site faults) (view site) ρ p f

variable (op : String) (r : BlackboardRecordV1 V)

def prepareAt (ρ : ReplicaId) (s : Local) : ReplicaAckV1 × Local :=
  let out := prepare S.codec ρ s.2 (faults (.prepare ρ op r)) (S.settings site ρ) op r s.1
  (out.2, (out.1, s.2))

def commitAt (ρ : ReplicaId) (s : Local) : ReplicaAckV1 × Local :=
  let out := commit ρ s.2 (faults (.commit ρ op r)) op r s.1
  (out.2, (out.1, s.2))

def abortAt (k : String) (v : Nat) (ρ : ReplicaId) (s : Local) : ReplicaAckV1 × Local :=
  let out := abort ρ s.2 (faults (.abort ρ op k v)) op k v s.1
  (out.2, (out.1, s.2))

def upsertAt (ρ : ReplicaId) (s : Local) : ReplicaAckV1 × Local :=
  let out := upsertExternal S.codec ρ s.2 (faults (.upsertExternal ρ op r)) op r s.1
  (out.2, (out.1, s.2))

variable {S site faults}

theorem view_onStore {α : Type} (w : World S.codec) (ρ : ReplicaId) (f : Tables → Tables × α)
    (h : ∀ t, Valid t → Edit (Genuine S.codec) t (f t).1) :
    view site ρ (w.onStore ρ f h).1 = ((f (tablesOf w ρ)).1, w.status site ρ) ∧
      ∀ σ, σ ≠ ρ → view site σ (w.onStore ρ f h).1 = view site σ w := by
  constructor
  · simp only [view, tablesOf, onStore_tables, if_true]
    rfl
  · intro σ hσ
    simp only [view, tablesOf, onStore_tables, if_neg hσ]
    rfl

theorem view_onStatus (w : World S.codec) (ρ : ReplicaId) (f : ReplicaStatus → ReplicaStatus) :
    view site ρ (w.onStatus site ρ f) = (tablesOf w ρ, f (w.status site ρ)) ∧
      ∀ σ, σ ≠ ρ → view site σ (w.onStatus site ρ f) = view site σ w := by
  constructor
  · simp [view, tablesOf, World.onStatus]
  · intro σ hσ
    simp [view, tablesOf, World.onStatus, hσ]

variable (S site faults)

theorem acts_prepare (ρ : ReplicaId) :
    ActsAt S site faults ρ (callPrepare op r ρ) (prepareAt S site faults op r ρ) := fun w =>
  ⟨rfl, view_onStore w ρ _ fun t _ => prepare_genuine _ ρ _ _ op r t⟩

theorem acts_commit (ρ : ReplicaId) : ActsAt S site faults ρ (callCommit op r ρ) (commitAt faults op r ρ) := fun w =>
  ⟨rfl, view_onStore w ρ _ fun _ ht => (commit_edit ρ _ _ ht op r).mono fun _ hf => hf.elim⟩

theorem acts_abort (k : String) (v : Nat) (ρ : ReplicaId) :
    ActsAt S site faults ρ (callAbort op k v ρ) (abortAt faults op k v ρ) := fun w =>
  ⟨rfl, view_onStore w ρ _ fun t _ => (abort_edit ρ _ _ t op k v).mono fun _ hf => hf.elim⟩

theorem acts_upsert (ρ : ReplicaId) :
    ActsAt S site faults ρ (callUpsert op r ρ) (upsertAt S faults op r ρ) := fun w =>
  ⟨rfl, view_onStore w ρ _ fun t _ => upsert_genuine ρ _ _ op r t⟩

theorem acts_observe (k : String) (v : Option Nat) (ρ : ReplicaId) :
    ActsAt S site faults ρ (callObserve k v ρ) fun s =>
      (observeReplica S.codec ρ s.2 (faults (.observe ρ k v)) k v s.1, s) := fun _ => ⟨rfl, rfl, fun _ _ => rfl⟩

theorem acts_headRow (k : String) (ρ : ReplicaId) :
    ActsAt S site faults ρ (callHeadRow k ρ) fun s => (committedRow (faults (.headRow ρ k)) k none s.1, s) :=
  fun _ => ⟨rfl, rfl, fun _ _ => rfl⟩

theorem acts_mark (detail : String) (ρ : ReplicaId) : ActsAt S site faults ρ (callMark detail ρ) fun s =>
    ((), (s.1, markDiverged (S.settings site ρ).divergenceHistoryLimit detail s.2)) := fun w =>
  ⟨rfl, view_onStatus w ρ _⟩

theorem acts_clear (ρ : ReplicaId) : ActsAt S site faults ρ (callClear ρ) fun s => ((), (s.1, clearDivergence s.2)) :=
  fun w => ⟨rfl, view_onStatus w ρ _⟩

end Calls

/-! ## The commit loop -/

section CommitLoop

variable (S : System V) (site : Nat) (faults : Faults V) (op : String) (r : BlackboardRecordV1 V)
  (winners : List ReplicaId)

/-- A commit that is not acknowledged marks its replica. -/
def settleAt (ρ : ReplicaId) (a : ReplicaAckV1) (s : Local) : CommitStep × Local :=
  if a.ackStatus = .ackCommitted then (⟨(ρ, .synced), some a, none⟩, s)
  else (⟨(ρ, .divergentRequiresReconciliation), some a, none⟩,
    (s.1, markDiverged (S.settings site ρ).divergenceHistoryLimit ("missed commit op=" ++ op ++ " key=" ++
      r.recordKey ++ " v=" ++ Nat.repr r.recordVersion ++ " status=" ++ a.ackStatus.value) s.2))

/-- What the commit loop does to the replica of one prepare acknowledgement. -/
def commitStepAt (ack : ReplicaAckV1) (s : Local) : CommitStep × Local :=
  if ack.ackStatus ≠ .ackPrepared then
    (⟨(ack.replicaId, if ack.ackStatus = .unavailable then .unavailable else .notPrepared), none, none⟩, s)
  else if ack.replicaId ∉ winners then
    let out := abortAt faults op r.recordKey r.recordVersion ack.replicaId s
    (⟨(ack.replicaId, if out.1.ackStatus = .aborted then .aborted else .unavailable), none, some out.1⟩, out.2)
  else
    let out := commitAt faults op r ack.replicaId s
    settleAt S site op r ack.replicaId out.1 out.2

variable {S site faults op r winners}

theorem acts_settle (ρ : ReplicaId) (a : ReplicaAckV1) :
    ActsAt S site faults ρ (if a.ackStatus = .ackCommitted then .ret ⟨(ρ, .synced), some a, none⟩ else
      callMark ("missed commit op=" ++ op ++ " key=" ++ r.recordKey ++ " v=" ++ Nat.repr r.recordVersion ++
        " status=" ++ a.ackStatus.value) ρ >>= fun _ =>
          .ret ⟨(ρ, .divergentRequiresReconciliation), some a, none⟩) (settleAt S site op r ρ a) := by
  intro w
  by_cases ha : a.ackStatus = .ackCommitted
  · rw [if_pos ha]
    have hsettle : settleAt S site op r ρ a (view site ρ w) = _ := if_pos ha
    rw [hsettle]
    exact acts_ret _ w
  · rw [if_neg ha]
    have hsettle : settleAt S site op r ρ a (view site ρ w) = _ := if_neg ha
    rw [hsettle]
    exact acts_bind (acts_mark S site faults _ ρ) (fun _ => acts_ret _) w

variable (S site faults op r winners)

theorem acts_commitStep (ack : ReplicaAckV1) :
    ActsAt S site faults ack.replicaId (commitStep op r winners ack) (commitStepAt S site faults op r winners ack) := by
  unfold commitStep
  by_cases hs : ack.ackStatus ≠ .ackPrepared
  · rw [if_pos hs]
    intro w
    have hstep : commitStepAt S site faults op r winners ack (view site ack.replicaId w) =
        (_, view site ack.replicaId w) := if_pos hs
    rw [hstep]
    exact acts_ret _ w
  rw [if_neg hs]
  by_cases hwin : ack.replicaId ∉ winners
  · rw [if_pos hwin]
    intro w
    have hstep : commitStepAt S site faults op r winners ack (view site ack.replicaId w) = _ :=
      (if_neg hs).trans (if_pos hwin)
    rw [hstep]
    exact acts_bind (acts_abort S site faults op r.recordKey r.recordVersion ack.replicaId) (fun _ => acts_ret _) w
  · rw [if_neg hwin]
    intro w
    have hstep : commitStepAt S site faults op r winners ack (view site ack.replicaId w) = _ :=
      (if_neg hs).trans (if_neg hwin)
    rw [hstep]
    have hcommit := acts_commit S site faults op r ack.replicaId
    exact acts_bind hcommit (acts_settle ack.replicaId) w

end CommitLoop

/-! ## A write -/

section Write

variable (S : System V) (site : Nat) (faults : Faults V) (c : Coordinator) (op principal : String)
  (r : BlackboardRecordV1 V) (w : World S.codec)

/-- The answer of a replica to the prepare. -/
def answerOf (ρ : ReplicaId) : ReplicaAckV1 := (prepareAt S site faults op r ρ (view site ρ w)).1

def afterPrepare (ρ : ReplicaId) : Local := (prepareAt S site faults op r ρ (view site ρ w)).2

def answers : List ReplicaAckV1 := c.replicas.map (answerOf S site faults op r w)

/-- The replicas of the group that is told to commit. -/
def winnersOf : List ReplicaId :=
  (evaluateQuorum (answers S site faults c op r w) c.settings.quorumSize).compatibleReplicaIds

def commitOf (ρ : ReplicaId) : CommitStep :=
  (commitStepAt S site faults op r (winnersOf S site faults c op r w) (answerOf S site faults op r w ρ)
    (afterPrepare S site faults op r w ρ)).1

def afterCommit (ρ : ReplicaId) : Local :=
  (commitStepAt S site faults op r (winnersOf S site faults c op r w) (answerOf S site faults op r w ρ)
    (afterPrepare S site faults op r w ρ)).2

/-- An answer that names a slot without having prepared. -/
def namesSlot (a : ReplicaAckV1) : Bool := a.ackStatus ≠ .ackPrepared && a.recordKey.isSome && a.recordVersion.isSome

/-- The abort on a replica that did not prepare. -/
def cleanupAt (a : ReplicaAckV1) (s : Local) : ReplicaAckV1 × Local :=
  abortAt faults op (a.recordKey.getD "") (a.recordVersion.getD 0) a.replicaId s

variable {S site faults c op principal r w}

theorem answerOf_replica (ρ : ReplicaId) : (answerOf S site faults op r w ρ).replicaId = ρ :=
  (BlackboardProtocol.prepare_answers S.codec ρ _ _ _ op r _).1

theorem answers_replicas : (answers S site faults c op r w).map (fun a => a.replicaId) = c.replicas := by
  unfold answers
  rw [List.map_map]
  exact (List.map_congr_left fun ρ _ => answerOf_replica ρ).trans (List.map_id _)

theorem answers_distinct (p : ReplicaAckV1 → Bool) :
    (((answers S site faults c op r w).filter p).map fun a => a.replicaId).Nodup :=
  ((List.filter_sublist (p := p)).map _).nodup (answers_replicas ▸ c.distinct)

theorem mem_answers {a : ReplicaAckV1} : a ∈ answers S site faults c op r w ↔ a = answerOf S site faults op r w a.replicaId := by
  constructor
  · intro ha
    obtain ⟨ρ, -, rfl⟩ := List.mem_map.mp ha
    rw [answerOf_replica]
  · intro ha
    rw [ha]
    exact List.mem_map_of_mem (mem_replicas c _)

theorem answers_find (ρ : ReplicaId) :
    (answers S site faults c op r w).find? (fun a => a.replicaId = ρ) = some (answerOf S site faults op r w ρ) := by
  cases hfind : (answers S site faults c op r w).find? (fun a => a.replicaId = ρ) with
  | none =>
    have hnone := List.find?_eq_none.mp hfind _ (List.mem_map_of_mem (f := answerOf S site faults op r w) (mem_replicas c ρ))
    exact absurd (decide_eq_true (answerOf_replica ρ)) hnone
  | some a =>
    have hid : a.replicaId = ρ := by simpa using List.find?_some hfind
    rw [(mem_answers).mp (List.mem_of_find?_eq_some hfind), hid]

variable (S site faults c op r w)

/-- The prepares, each on the replica as the write found it. -/
theorem alone_prepares : ∃ w', runAlone S site faults (forEach (callPrepare op r) c.replicas) w =
    (answers S site faults c op r w, w') ∧ ∀ ρ, view site ρ w' = afterPrepare S site faults op r w ρ := by
  obtain ⟨hresult, hpart, -⟩ := run_forEach (fun ρ _ => acts_prepare S site faults op r ρ)
    (show (c.replicas.map fun ρ => ρ).Nodup by rw [List.map_id']; exact c.distinct) w
  exact ⟨_, Prod.ext hresult rfl, fun ρ => hpart ρ (mem_replicas c ρ)⟩

/-- Rounds on the replicas of some of the answers, the others left alone. -/
theorem alone_answers {γ : Type} (p : ReplicaAckV1 → Bool) {body : ReplicaAckV1 → Prog (Blackboard V) γ}
    {f : ReplicaAckV1 → Local → γ × Local} (h : ∀ a, ActsAt S site faults a.replicaId (body a) (f a))
    {w₁ : World S.codec} {at₁ : ReplicaId → Local} (hw₁ : ∀ ρ, view site ρ w₁ = at₁ ρ) :
    ∃ w', runAlone S site faults (forEach body ((answers S site faults c op r w).filter p)) w₁ =
        (((answers S site faults c op r w).filter p).map fun a => (f a (at₁ a.replicaId)).1, w') ∧
      ∀ ρ, view site ρ w' = if p (answerOf S site faults op r w ρ) then
        (f (answerOf S site faults op r w ρ) (at₁ ρ)).2 else at₁ ρ := by
  have hdistinct : (((answers S site faults c op r w).filter p).map fun a => a.replicaId).Nodup := answers_distinct p
  obtain ⟨hresult, hpart, hrest⟩ := run_forEach (fun a _ => h a) hdistinct w₁
  refine ⟨_, Prod.ext (hresult.trans (List.map_congr_left fun a _ => by rw [hw₁])) rfl, fun ρ => ?_⟩
  have hmem : answerOf S site faults op r w ρ ∈ answers S site faults c op r w := List.mem_map_of_mem (mem_replicas c ρ)
  by_cases hp : p (answerOf S site faults op r w ρ) = true
  · rw [if_pos hp]
    have h := hpart _ (List.mem_filter.mpr ⟨hmem, hp⟩)
    rw [answerOf_replica, hw₁] at h
    exact h
  · rw [if_neg hp, ← hw₁ ρ]
    refine hrest ρ fun hin => hp ?_
    obtain ⟨a, ha, rfl⟩ := List.mem_map.mp hin
    rw [← (mem_answers).mp (List.mem_filter.mp ha).1]
    exact (List.mem_filter.mp ha).2

variable {S site faults c op r w} (principal)

/-- No replica prepared: the answers are classified and nothing else is called. -/
theorem alone_rejected (h : ∀ a ∈ answers S site faults c op r w, a.ackStatus ≠ .ackPrepared) :
    ∃ w', runAlone S site faults (writeRecord c op principal r) w =
        (let rejection := classifyTotalRejection (answers S site faults c op r w)
        writeResult op principal rejection.1 (some rejection.2) (some r) (answers S site faults c op r w)
          (c.replicas.map fun ρ => (ρ, .notPrepared)), w') ∧
      ∀ ρ, view site ρ w' = afterPrepare S site faults op r w ρ := by
  obtain ⟨w₁, hrun, hw₁⟩ := alone_prepares S site faults c op r w
  refine ⟨w₁, ?_, hw₁⟩
  unfold writeRecord
  rw [runAlone_bind hrun, if_pos (List.all_eq_true.mpr fun a ha => decide_eq_true (h a ha))]
  rfl

/-- The abort of a write without a quorum. -/
def abortOf (S : System V) (site : Nat) (faults : Faults V) (op : String) (r : BlackboardRecordV1 V) (w : World S.codec)
    (a : ReplicaAckV1) : ReplicaAckV1 :=
  (abortAt faults op r.recordKey r.recordVersion a.replicaId (afterPrepare S site faults op r w a.replicaId)).1

/-- Some replica prepared, but no group is large enough: what was prepared is aborted. -/
theorem alone_failed (h : ¬ ∀ a ∈ answers S site faults c op r w, a.ackStatus ≠ .ackPrepared)
    (hquorum : (evaluateQuorum (answers S site faults c op r w) c.settings.quorumSize).decision ≠ .quorumMet) :
    ∃ w' reason, runAlone S site faults (writeRecord c op principal r) w =
        (let acks := answers S site faults c op r w
        let aborts := (acks.filter fun a => a.ackStatus = .ackPrepared).map (abortOf S site faults op r w)
        writeResult op principal .failedQuorum reason (some r) (acks ++ aborts) (syncMapAfterFailure (acks ++ aborts)), w') ∧
      ∀ ρ, view site ρ w' = if (answerOf S site faults op r w ρ).ackStatus = .ackPrepared then
        (abortAt faults op r.recordKey r.recordVersion ρ (afterPrepare S site faults op r w ρ)).2
        else afterPrepare S site faults op r w ρ := by
  obtain ⟨w₁, hrun, hw₁⟩ := alone_prepares S site faults c op r w
  obtain ⟨w₂, hrun', hw₂⟩ := alone_answers S site faults c op r w (fun a => decide (a.ackStatus = .ackPrepared))
    (fun a => acts_abort S site faults op r.recordKey r.recordVersion a.replicaId) hw₁
  refine ⟨w₂, some (if (evaluateQuorum (answers S site faults c op r w) c.settings.quorumSize).decision =
    .incompatiblePreparedAcks then "incompatible prepared acknowledgements cannot form a quorum"
    else "insufficient compatible prepared acknowledgements"), ?_, fun ρ => ?_⟩
  · unfold writeRecord
    rw [runAlone_bind hrun, if_neg fun hall => h fun a ha => of_decide_eq_true (List.all_eq_true.mp hall a ha)]
    simp only
    rw [if_pos hquorum]
    exact runAlone_bind hrun'
  · rw [hw₂]
    simp only [decide_eq_true_eq, answerOf_replica]

/-- A group is large enough: it commits, and the other replicas are cleaned up. -/
theorem alone_committing (h : ¬ ∀ a ∈ answers S site faults c op r w, a.ackStatus ≠ .ackPrepared)
    (hquorum : (evaluateQuorum (answers S site faults c op r w) c.settings.quorumSize).decision = .quorumMet) :
    ∃ w', runAlone S site faults (writeRecord c op principal r) w =
        (let acks := answers S site faults c op r w
        let steps := c.replicas.map (commitOf S site faults c op r w)
        let cleanupAcks := (acks.filter namesSlot).map fun a =>
          (cleanupAt faults op a (afterCommit S site faults c op r w a.replicaId)).1
        let commitAcks := steps.filterMap fun s => s.commitAck
        let durable := commitAcks.filter (isDurable (some r.recordId) (some r.contentHash))
        let out := commitOutcome c.settings.quorumSize acks durable (winnersOf S site faults c op r w)
        writeResult op principal out.1 out.2 (some r)
          (acks ++ commitAcks ++ (steps.filterMap fun s => s.loserAbortAck) ++ cleanupAcks)
          (steps.map fun s => s.sync), w') ∧
      ∀ ρ, view site ρ w' = if namesSlot (answerOf S site faults op r w ρ) then
        (cleanupAt faults op (answerOf S site faults op r w ρ) (afterCommit S site faults c op r w ρ)).2
        else afterCommit S site faults c op r w ρ := by
  obtain ⟨w₁, hrun, hw₁⟩ := alone_prepares S site faults c op r w
  obtain ⟨w₂, hrun', hw₂⟩ := alone_answers S site faults c op r w (fun _ => true)
    (acts_commitStep S site faults op r (winnersOf S site faults c op r w)) hw₁
  have hw₂' : ∀ ρ, view site ρ w₂ = afterCommit S site faults c op r w ρ := by
    intro ρ
    rw [hw₂, if_pos rfl]
    rfl
  obtain ⟨w₃, hrun'', hw₃⟩ := alone_answers S site faults c op r w namesSlot
    (fun a => acts_abort S site faults op (a.recordKey.getD "") (a.recordVersion.getD 0)
      a.replicaId) hw₂'
  refine ⟨w₃, ?_, fun ρ => ?_⟩
  · unfold writeRecord
    rw [runAlone_bind hrun, if_neg fun hall => h fun a ha => of_decide_eq_true (List.all_eq_true.mp hall a ha)]
    simp only
    rw [if_neg (not_not.mpr hquorum)]
    rw [List.filter_true] at hrun'
    have hsteps : (answers S site faults c op r w).map (fun a => (commitStepAt S site faults op r
        (winnersOf S site faults c op r w) a (afterPrepare S site faults op r w a.replicaId)).1) =
        c.replicas.map (commitOf S site faults c op r w) := by
      unfold answers
      rw [List.map_map]
      refine List.map_congr_left fun ρ _ => ?_
      simp only [Function.comp, answerOf_replica]
      rfl
    rw [hsteps] at hrun'
    exact (runAlone_bind hrun').trans (runAlone_bind hrun'')
  · rw [hw₃]
    unfold cleanupAt
    rw [answerOf_replica]

/-! ## The commit loop at one replica -/

theorem commit_unprepared {ρ : ReplicaId} (h : (answerOf S site faults op r w ρ).ackStatus ≠ .ackPrepared) :
    commitOf S site faults c op r w ρ = ⟨(ρ, if (answerOf S site faults op r w ρ).ackStatus = .unavailable then
        .unavailable else .notPrepared), none, none⟩ ∧
      afterCommit S site faults c op r w ρ = afterPrepare S site faults op r w ρ := by
  unfold commitOf afterCommit commitStepAt
  rw [if_pos h, answerOf_replica]
  exact ⟨rfl, rfl⟩

theorem commit_loser {ρ : ReplicaId} (h : (answerOf S site faults op r w ρ).ackStatus = .ackPrepared)
    (hρ : ρ ∉ winnersOf S site faults c op r w) :
    let out := abortAt faults op r.recordKey r.recordVersion ρ (afterPrepare S site faults op r w ρ)
    commitOf S site faults c op r w ρ =
        ⟨(ρ, if out.1.ackStatus = .aborted then .aborted else .unavailable), none, some out.1⟩ ∧
      afterCommit S site faults c op r w ρ = out.2 := by
  unfold commitOf afterCommit commitStepAt
  rw [if_neg (not_not.mpr h), answerOf_replica, if_pos hρ]
  exact ⟨rfl, rfl⟩

theorem commit_winner {ρ : ReplicaId} (h : (answerOf S site faults op r w ρ).ackStatus = .ackPrepared)
    (hρ : ρ ∈ winnersOf S site faults c op r w) :
    let out := commitAt faults op r ρ (afterPrepare S site faults op r w ρ)
    commitOf S site faults c op r w ρ = ⟨(ρ, if out.1.ackStatus = .ackCommitted then .synced else
        .divergentRequiresReconciliation), some out.1, none⟩ ∧
      (afterCommit S site faults c op r w ρ).1 = out.2.1 := by
  unfold commitOf afterCommit commitStepAt
  rw [if_neg (not_not.mpr h), answerOf_replica, if_neg (not_not.mpr hρ)]
  simp only [settleAt]
  split
  · exact ⟨rfl, rfl⟩
  · exact ⟨rfl, rfl⟩

end Write

/-! ## The way to a write -/

section Propose

/-- The proposal is a valid record that the principal may write. -/
structure Admitted (S : System V) (c : Coordinator) (principal : String) (p : Proposal V) (r : BlackboardRecordV1 V) :
    Prop where
  named : isBlank principal = false
  built : p.build S.codec c.settings.maxRecordCanonicalBytes = .ok r
  allowed : (c.authorizer ⟨principal, .write, some r.recordType, some r.recordKey⟩).allowed = true

variable {S : System V} {site : Nat} {faults : Faults V} {c : Coordinator} {op principal : String} {p : Proposal V}
  {r : BlackboardRecordV1 V}

theorem propose_admitted (h : Admitted S c principal p r) :
    propose S.codec c op p principal = writeRecord c op principal r := by
  unfold propose
  rw [h.named, h.built]
  simp only [Bool.false_eq_true, if_false, h.allowed, if_true]

variable (op) in
/-- A proposal that is not admitted reaches no replica. -/
theorem propose_refused (h : ¬ ∃ r, Admitted S c principal p r) :
    ∃ outcome reason, ∃ record : Option (BlackboardRecordV1 V), propose S.codec c op p principal =
        .ret (writeResult op principal outcome reason record [] []) ∧
      (outcome = .rejectedAuthorization ∨ outcome = .rejectedSchema) := by
  unfold propose
  by_cases hblank : isBlank principal = true
  · rw [if_pos hblank]
    exact ⟨_, _, _, rfl, .inl rfl⟩
  rw [if_neg hblank]
  cases hbuild : p.build S.codec c.settings.maxRecordCanonicalBytes with
  | error e => exact ⟨_, _, _, rfl, .inr rfl⟩
  | ok r =>
    have hdenied : ¬ (c.authorizer ⟨principal, .write, some r.recordType, some r.recordKey⟩).allowed = true :=
      fun hallowed => h ⟨r, Bool.eq_false_iff.mpr hblank, hbuild, hallowed⟩
    simp only [if_neg hdenied]
    exact ⟨_, _, _, rfl, .inl rfl⟩

end Propose

end BlackboardSolo
