import AgenticSoc.BlackboardSystem
import Mathlib.Data.Finset.Card

/-!
# The coordinator's contract

What each command's own calls and replies say about its result, whatever the other
coordinators do in between: which commits were acknowledged, which replicas a read
or a repair found in agreement, and which replicas a missed commit has marked. The
contract is proved of each program alone and holds along every run.
-/
namespace BlackboardProtocol

open BlackboardRecord BlackboardStorage BlackboardReplica BlackboardCoordinator BlackboardSystem
open Interaction Interleaving

abbrev Past (V : Type) := History (Blackboard V)
abbrev Entry (V : Type) := Sigma (Blackboard V).Reply

variable {V : Type}

/-- The entry of a call that got this reply. -/
def entry (c : Call V) (a : c.Reply) : Entry V := ⟨c, a⟩

/-- The observation shows the verified record of a read of `k`. -/
structure Shows (cd : RecordCodec V) (k : String) (v : Option Nat) (o : Observation V)
    (r : BlackboardRecordV1 V) : Prop where
  responded : o.responded = true
  found : o.found = true
  record : o.record = some r
  version : o.recordVersion = some r.recordVersion
  hash : o.contentHash = some r.contentHash
  key : r.recordKey = k
  asked : ∀ n, v = some n → r.recordVersion = n
  verified : Verified cd r

/-- What every reply says about itself. -/
def Answers (cd : RecordCodec V) : (c : Call V) → c.Reply → Prop
  | .prepare ρ _ _, a => a.replicaId = ρ ∧ a.ackStatus ≠ .ackCommitted
  | .abort .., a => a.ackStatus ≠ .ackCommitted
  | .commit ρ _ r, a => a.replicaId = ρ ∧ a.recordId = some r.recordId ∧
      a.contentHash = some r.contentHash
  | .observe ρ k v, o => o.replicaId = ρ ∧ (o.found = true → ∃ r, Shows cd k v o r)
  | _, _ => True

/-- The replica acknowledged a commit of the record. -/
def CommittedOn (h : Past V) (r : BlackboardRecordV1 V) (ρ : ReplicaId) : Prop :=
  ∃ op ack, entry (.commit ρ op r) ack ∈ h ∧ ack.ackStatus = .ackCommitted

open Classical in
/-- The replicas that acknowledged a commit of the record. -/
noncomputable def durableOn (h : Past V) (r : BlackboardRecordV1 V) : Finset ReplicaId :=
  Finset.univ.filter (CommittedOn h r)

theorem mem_durableOn {h : Past V} {r : BlackboardRecordV1 V} {ρ : ReplicaId} :
    ρ ∈ durableOn h r ↔ CommittedOn h r ρ := by
  simp [durableOn]

/-- At least `q` replicas showed the identity of `r`, and one of them `r` itself. -/
def Agreed (cd : RecordCodec V) (h : Past V) (k : String) (v : Option Nat) (q : Nat)
    (r : BlackboardRecordV1 V) : Prop :=
  ∃ G : Finset ReplicaId, q ≤ G.card ∧
    (∀ ρ ∈ G, ∃ o s, entry (.observe ρ k v) o ∈ h ∧ Shows cd k v o s ∧ s.recordId = r.recordId ∧
      s.recordVersion = r.recordVersion) ∧
    ∃ ρ ∈ G, ∃ o, entry (.observe ρ k v) o ∈ h ∧ Shows cd k v o r

/-- At least `q` replicas responded without a record. -/
def Absent (h : Past V) (k : String) (v : Option Nat) (q : Nat) : Prop :=
  ∃ G : Finset ReplicaId, q ≤ G.card ∧
    ∀ ρ ∈ G, ∃ o, entry (.observe ρ k v) o ∈ h ∧ o.responded = true ∧ o.found = false

/-- A repair of `ρ` for `k` was acknowledged, from a record a quorum agreed on. -/
def Repaired (cd : RecordCodec V) (h : Past V) (k : String) (q : Nat) (ρ : ReplicaId) : Prop :=
  ∃ op r ack, entry (.upsertExternal ρ op r) ack ∈ h ∧ ack.ackStatus = .ackCommitted ∧
    r.recordKey = k ∧ Agreed cd h k none q r

/-- The calls a command may make after the history `h`. -/
def MayCall (S : System V) (t : Request V) (c : Call V) (h : Past V) : Prop :=
  match t.command, c with
  | .propose .., .prepare _ op r => op = t.operationId ∧ proposedRecord S t = some r
  | .propose .., .commit _ op r => op = t.operationId ∧ proposedRecord S t = some r
  | .propose .., .abort .. => True
  | .propose .., .markDiverged .. => True
  | .read _ k v, .observe _ k' v' => k' = k ∧ v' = v
  | .read .., .markDiverged .. => True
  | .resync _ k _, .observe _ k' v' => k' = k ∧ v' = none
  | .resync _ k _, .upsertExternal _ _ r =>
    r.recordKey = k ∧ Agreed S.codec h k none t.coordinator.settings.quorumSize r
  | .resync .., .headRow .. => True
  | .resync .., .markDiverged .. => True
  | .resync _ k _, .clearDivergence ρ =>
    Repaired S.codec h k t.coordinator.settings.quorumSize ρ
  | _, _ => False

/-- No commit has been sent. -/
def NoCommits (h : Past V) : Prop := ∀ ρ op r ack, entry (.commit ρ op r) ack ∉ h

/-- How a write outcome relates to the commits sent and to the number `n` of them
that were acknowledged. -/
inductive OutcomeCount (q n : Nat) (h : Past V) : WriteOutcome → Prop where
  | committed : q ≤ n → 2 ≤ n → OutcomeCount q n h .committed
  | partialCommit : n = 1 → n < q → OutcomeCount q n h .partialCommit
  | failedStorage : n ≠ 1 → n < q → ¬ NoCommits h → OutcomeCount q n h .failedStorage
  | rejected (o : WriteOutcome) : NoCommits h → o ≠ .committed → o ≠ .partialCommit →
      o ≠ .failedStorage → OutcomeCount q n h o

/-- Every commit that was not acknowledged has marked its replica. -/
def MissesMarked (h : Past V) : Prop :=
  ∀ ρ op r ack, entry (.commit ρ op r) ack ∈ h → ack.ackStatus ≠ .ackCommitted →
    ∃ d, entry (.markDiverged ρ d) () ∈ h

def MayReturnWrite (q : Nat) (r : BlackboardRecordV1 V) (h : Past V) :
    Except String WriteResultV1 → Prop
  | .ok res => OutcomeCount q (durableOn h r).card h res.outcome ∧ MissesMarked h
  | .error _ => q ≤ (durableOn h r).card ∧ (durableOn h r).card < 2

/-- What a read outcome says about the observations behind it. -/
structure MayReturnRead (cd : RecordCodec V) (q : Nat) (k : String) (v : Option Nat) (h : Past V)
    (res : ReadResultV1 V) : Prop where
  key : res.recordKey = k
  authoritative : res.outcome = .consistent ∨ res.outcome = .degradedConsistent →
    ∃ r, res.record = some r ∧ Agreed cd h k v q r
  absent : res.outcome = .notFound → Absent h k v q

/-- What a command's history must be when it returns. -/
def MayReturn (S : System V) (t : Request V) (a : Result V) (h : Past V) : Prop :=
  match t.command, a with
  | .propose .., .write out =>
    match proposedRecord S t with
    | some r => MayReturnWrite t.coordinator.settings.quorumSize r h out
    | none => ∀ res, out = .ok res → res.outcome ≠ .committed
  | .read _ k v, .read res => MayReturnRead S.codec t.coordinator.settings.quorumSize k v h res
  | .resync .., .resync _ => True
  | _, _ => False

def contract (S : System V) : Contract (Blackboard V) (Request V) (Result V) where
  replies := Answers S.codec
  pre := MayCall S
  post := MayReturn S

/-! ## Replies -/

theorem prepare_answers (cd : RecordCodec V) (ρ : ReplicaId) (st : ReplicaStatus) (e : Env V)
    (cfg : ReplicaSettings) (op : String) (r : BlackboardRecordV1 V) (t : Tables) :
    (prepare cd ρ st e cfg op r t).2.replicaId = ρ ∧
      (prepare cd ρ st e cfg op r t).2.ackStatus ≠ .ackCommitted := by
  have hstage : ∀ staged, (stageRecord cd ρ e cfg op staged t).2.replicaId = ρ ∧
      (stageRecord cd ρ e cfg op staged t).2.ackStatus ≠ .ackCommitted := by
    intro staged
    unfold stageRecord
    split
    · exact ⟨rfl, nofun⟩
    · exact ⟨rfl, nofun⟩
    · split
      · exact ⟨rfl, nofun⟩
      · exact ⟨rfl, nofun⟩
      · split
        · exact ⟨rfl, nofun⟩
        · rename_i res _
          obtain ⟨outcome, current, conflicting⟩ := res
          cases outcome <;> exact ⟨rfl, nofun⟩
  unfold prepare
  split
  · rename_i ack hack
    obtain ⟨status, reason, rfl, hs⟩ := refusal_some hack
    refine ⟨rfl, ?_⟩
    rcases hs with rfl | rfl <;> exact nofun
  · split
    · exact ⟨rfl, nofun⟩
    · exact hstage _
    · exact hstage _

theorem abort_answers (ρ : ReplicaId) (st : ReplicaStatus) (e : Env V) (op k : String) (v : Nat)
    (t : Tables) : (abort ρ st e op k v t).2.ackStatus ≠ .ackCommitted := by
  unfold abort
  split
  · rename_i ack hack
    obtain ⟨status, reason, rfl, hs⟩ := refusal_some hack
    rcases hs with rfl | rfl <;> exact nofun
  · split <;> exact nofun

theorem exec_answers (S : System V) (site : Nat) (c : Call V) (e : Env V) (w : World S.codec) :
    Answers S.codec c (exec S site c e w).2 := by
  cases c with
  | prepare ρ op r => exact prepare_answers S.codec ρ _ e _ op r _
  | commit ρ op r =>
    obtain ⟨status, reason, hack⟩ := commit_ack ρ (w.status site ρ) e (w.store ρ).tables op r
    have hreply : (exec S site (.commit ρ op r) e w).2 =
        baseAck ρ op .commit status (some r) reason none := hack
    simp only [Answers, hreply]
    exact ⟨rfl, rfl, rfl⟩
  | observe ρ k v =>
    refine ⟨observe_replicaId e ρ _ k v _, ?_⟩
    intro hf
    obtain ⟨row, r, hrow, hload, hobs⟩ := observe_found e ρ hf
    obtain ⟨-, hk, -, hasked⟩ := readRow_some (w.store ρ).valid hrow
    obtain ⟨hform, hverified⟩ := rowToRecord_ok S.codec hload
    have hkey : r.recordKey = row.recordKey := congrArg StagedRecord.recordKey hform
    have hversion : r.recordVersion = row.recordVersion := congrArg StagedRecord.recordVersion hform
    refine ⟨r, ?_⟩
    change Shows S.codec k v (observeReplica S.codec ρ _ e k v _) r
    rw [hobs]
    exact ⟨rfl, rfl, rfl, rfl, rfl, hkey.trans hk, fun n hn => hversion.trans (hasked n hn), hverified⟩
  | abort ρ op k v => exact abort_answers ρ _ e op k v _
  | upsertExternal ρ op r => trivial
  | headRow ρ k => trivial
  | health ρ => trivial
  | markDiverged ρ d => trivial
  | clearDivergence ρ => trivial

/-! ## Histories -/

section Histories

variable {h : Past V}

theorem entry_mem_concat {c c' : Call V} {a : c.Reply} {a' : c'.Reply} :
    entry c a ∈ h ++ [entry c' a'] ↔ entry c a ∈ h ∨ entry c a = entry c' a' := by
  rw [List.mem_append, List.mem_singleton]

theorem entry_call {c c' : Call V} {a : c.Reply} {a' : c'.Reply} (he : entry c a = entry c' a') :
    c = c' := congrArg Sigma.fst he

/-- Only commit entries count for what is durable. -/
theorem committedOn_concat_other {c : Call V} {a : c.Reply} (hc : ∀ ρ op r, c ≠ .commit ρ op r)
    {r : BlackboardRecordV1 V} {ρ : ReplicaId} :
    CommittedOn (h ++ [entry c a]) r ρ ↔ CommittedOn h r ρ := by
  constructor
  · rintro ⟨op, ack, hm, hs⟩
    rcases (entry_mem_concat).mp hm with hm | he
    · exact ⟨op, ack, hm, hs⟩
    · exact absurd (entry_call he).symm (hc ρ op r)
  · rintro ⟨op, ack, hm, hs⟩
    exact ⟨op, ack, (entry_mem_concat).mpr (.inl hm), hs⟩

theorem missesMarked_concat_other {c : Call V} {a : c.Reply} (hc : ∀ ρ op r, c ≠ .commit ρ op r)
    (hm : MissesMarked h) : MissesMarked (h ++ [entry c a]) := by
  intro ρ op r ack he hs
  rcases (entry_mem_concat).mp he with he | he
  · obtain ⟨d, hd⟩ := hm ρ op r ack he hs
    exact ⟨d, (entry_mem_concat).mpr (.inl hd)⟩
  · exact absurd (entry_call he).symm (hc ρ op r)

theorem NoCommits.concat {c : Call V} {a : c.Reply} (hc : ∀ ρ op r, c ≠ .commit ρ op r)
    (hn : NoCommits h) : NoCommits (h ++ [entry c a]) := by
  intro ρ op r ack hm
  rcases (entry_mem_concat).mp hm with hm | he
  · exact hn ρ op r ack hm
  · exact hc ρ op r (entry_call he).symm

theorem NoCommits.of_concat {x : Entry V} (hn : NoCommits (h ++ [x])) : NoCommits h :=
  fun ρ op r ack hm => hn ρ op r ack (List.mem_append_left _ hm)

theorem NoCommits.durable_card (hn : NoCommits h) (r : BlackboardRecordV1 V) :
    (durableOn h r).card = 0 := by
  rw [Finset.card_eq_zero, Finset.eq_empty_iff_forall_notMem]
  intro ρ hρ
  obtain ⟨op, ack, hm, -⟩ := (mem_durableOn).mp hρ
  exact hn ρ op r ack hm

theorem NoCommits.missesMarked (hn : NoCommits h) : MissesMarked h :=
  fun ρ op r ack hm _ => absurd hm (hn ρ op r ack)

/-- The rule for one recorded call. -/
theorem wp_entry {cd : RecordCodec V} {pre : Call V → Past V → Prop} {c : Call V}
    {Q : c.Reply → Past V → Prop} (hpre : pre c h)
    (hq : ∀ a, Answers cd c a → Q a (h ++ [entry c a])) :
    Wp (recorded (Answers cd) pre) Q (perform (I := Blackboard V) c) h := by
  refine wp_perform hpre ?_
  rintro a h' ⟨ha, rfl⟩
  exact hq a ha

end Histories

/-! ## Writes -/

section Writes

variable {S : System V} {t : Request V} {proposal : Proposal V} {principal : String}
  {r : BlackboardRecordV1 V}

theorem wp_prepares (hcmd : t.command = .propose proposal principal)
    (hr : proposedRecord S t = some r) :
    Wp (recorded (Answers S.codec) (MayCall S t))
      (fun acks h => NoCommits h ∧ acks.map (fun a => a.replicaId) = t.coordinator.replicas ∧
        ∀ a ∈ acks, a.ackStatus ≠ .ackCommitted)
      (forEach (callPrepare t.operationId r) t.coordinator.replicas) [] := by
  have hempty : NoCommits ([] : Past V) := by
    intro ρ op r ack hm
    cases hm
  refine wp_forEach (fun done (acks : List ReplicaAckV1) h => NoCommits h ∧
    acks.map (fun a => a.replicaId) = done ∧ ∀ a ∈ acks, a.ackStatus ≠ .ackCommitted) ?_
    ⟨hempty, rfl, by simp⟩
  rintro done ρ rest acks h - ⟨hn, hids, hst⟩
  refine wp_entry (by simp [MayCall, hcmd, hr]) ?_
  intro a ha
  refine ⟨hn.concat (by intro _ _ _ he; cases he), ?_, ?_⟩
  · rw [List.map_append, hids, List.map_singleton, ha.1]
  · intro b hb
    rcases List.mem_append.mp hb with hb | hb
    · exact hst b hb
    · rw [List.mem_singleton.mp hb]; exact ha.2

/-- An abort loop adds abort entries only, so it keeps what such entries keep. -/
theorem wp_aborts (hcmd : t.command = .propose proposal principal) {J : Past V → Prop}
    (hJ : ∀ h ρ op k v a, J h → J (h ++ [entry (.abort ρ op k v) a]))
    (slot : ReplicaAckV1 → String × Nat) (l : List ReplicaAckV1) {h : Past V} (hj : J h) :
    Wp (recorded (Answers S.codec) (MayCall S t))
      (fun acks h => J h ∧ ∀ a ∈ acks, a.ackStatus ≠ .ackCommitted)
      (forEach (fun a => callAbort t.operationId (slot a).1 (slot a).2 a.replicaId) l) h := by
  refine wp_forEach (fun _ (acks : List ReplicaAckV1) h => J h ∧
    ∀ a ∈ acks, a.ackStatus ≠ .ackCommitted) ?_ ⟨hj, by simp⟩
  rintro done x rest acks h - ⟨hj, hst⟩
  refine wp_entry (by simp [MayCall, hcmd]) ?_
  intro a ha
  refine ⟨hJ h _ _ _ _ a hj, ?_⟩
  intro b hb
  rcases List.mem_append.mp hb with hb | hb
  · exact hst b hb
  · rw [List.mem_singleton.mp hb]; exact ha

def commitAcksOf (steps : List CommitStep) : List ReplicaAckV1 := steps.filterMap fun s => s.commitAck

/-- What the commit loop has gathered after some of the prepare acknowledgements. -/
structure Tally (r : BlackboardRecordV1 V) (winners : List ReplicaId) (done : List ReplicaAckV1)
    (steps : List CommitStep) (h : Past V) : Prop where
  durable : ∀ ρ, CommittedOn h r ρ ↔
    ∃ a ∈ commitAcksOf steps, a.ackStatus = .ackCommitted ∧ a.replicaId = ρ
  named : ∀ a ∈ commitAcksOf steps, a.recordId = some r.recordId ∧ a.contentHash = some r.contentHash
  order : ((commitAcksOf steps).map fun a => a.replicaId).Sublist (done.map fun a => a.replicaId)
  losers : ∀ s ∈ steps, ∀ a, s.loserAbortAck = some a → a.ackStatus ≠ .ackCommitted
  misses : MissesMarked h
  sent : ∀ a ∈ done, a.ackStatus = .ackPrepared → a.replicaId ∈ winners → ¬ NoCommits h

theorem Tally.start {winners : List ReplicaId} {h : Past V} (hn : NoCommits h) :
    Tally r winners [] [] h := by
  refine ⟨?_, by simp [commitAcksOf], by simp [commitAcksOf], by simp, hn.missesMarked, by simp⟩
  intro ρ
  constructor
  · rintro ⟨op, ack, hm, -⟩; exact absurd hm (hn ρ op r ack)
  · rintro ⟨a, ha, -⟩; cases ha

theorem losers_concat {steps : List CommitStep} {s : CommitStep}
    (h : ∀ s ∈ steps, ∀ a, s.loserAbortAck = some a → a.ackStatus ≠ .ackCommitted)
    (hs : ∀ a, s.loserAbortAck = some a → a.ackStatus ≠ .ackCommitted) :
    ∀ s' ∈ steps ++ [s], ∀ a, s'.loserAbortAck = some a → a.ackStatus ≠ .ackCommitted := by
  intro s' hs' a ha
  rcases List.mem_append.mp hs' with hm | hm
  · exact h s' hm a ha
  · rw [List.mem_singleton.mp hm] at ha; exact hs a ha

theorem commitAcksOf_skip {steps : List CommitStep} {s : CommitStep} (hs : s.commitAck = none) :
    commitAcksOf (steps ++ [s]) = commitAcksOf steps := by
  simp [commitAcksOf, hs]

theorem commitAcksOf_concat {steps : List CommitStep} {s : CommitStep} {a : ReplicaAckV1}
    (hs : s.commitAck = some a) : commitAcksOf (steps ++ [s]) = commitAcksOf steps ++ [a] := by
  simp [commitAcksOf, hs]

/-- A step without a commit and a history without new commit entries. -/
theorem Tally.skip {winners : List ReplicaId} {done : List ReplicaAckV1} {steps : List CommitStep}
    {h h' : Past V} (T : Tally r winners done steps h) {x : ReplicaAckV1}
    (hx : x.ackStatus = .ackPrepared → x.replicaId ∉ winners) {s : CommitStep}
    (hs : s.commitAck = none) (hl : ∀ a, s.loserAbortAck = some a → a.ackStatus ≠ .ackCommitted)
    (hsame : ∀ ρ, CommittedOn h' r ρ ↔ CommittedOn h r ρ) (hmiss : MissesMarked h')
    (hmore : NoCommits h' → NoCommits h) : Tally r winners (done ++ [x]) (steps ++ [s]) h' := by
  refine ⟨?_, ?_, ?_, losers_concat T.losers hl, hmiss, ?_⟩
  · intro ρ; rw [commitAcksOf_skip hs, hsame]; exact T.durable ρ
  · rw [commitAcksOf_skip hs]; exact T.named
  · rw [commitAcksOf_skip hs, List.map_append]
    exact T.order.trans (List.sublist_append_left _ _)
  · intro a ha hst hw hn
    rcases List.mem_append.mp ha with ha | ha
    · exact T.sent a ha hst hw (hmore hn)
    · rw [List.mem_singleton.mp ha] at hst hw
      exact hx hst hw

/-- A commit reply joins the tally. -/
theorem Tally.commit {winners : List ReplicaId} {done : List ReplicaAckV1} {steps : List CommitStep}
    {h h' : Past V} (T : Tally r winners done steps h) {x a : ReplicaAckV1} {op : String} {s : CommitStep}
    (ha : Answers S.codec (.commit x.replicaId op r) a) (hs : s.commitAck = some a)
    (hl : s.loserAbortAck = none)
    (hsame : ∀ ρ, CommittedOn h' r ρ ↔
      CommittedOn (h ++ [entry (.commit x.replicaId op r) a]) r ρ) (hmiss : MissesMarked h')
    (hsent : entry (.commit x.replicaId op r) a ∈ h') :
    Tally r winners (done ++ [x]) (steps ++ [s]) h' := by
  obtain ⟨hid, hrec, hhash⟩ := ha
  refine ⟨?_, ?_, ?_, losers_concat T.losers (by intro b hb; rw [hl] at hb; cases hb), hmiss,
    fun _ _ _ _ hn => hn _ _ _ _ hsent⟩
  · intro ρ
    rw [hsame, commitAcksOf_concat hs]
    constructor
    · rintro ⟨op', ack, hm, hst⟩
      rcases (entry_mem_concat).mp hm with hm | he
      · obtain ⟨b, hb, hbs, hbid⟩ := (T.durable ρ).mp ⟨op', ack, hm, hst⟩
        exact ⟨b, List.mem_append_left _ hb, hbs, hbid⟩
      · cases he
        exact ⟨a, by simp, hst, hid⟩
    · rintro ⟨b, hb, hbs, hbid⟩
      rcases List.mem_append.mp hb with hb | hb
      · obtain ⟨op', ack, hm, hst⟩ := (T.durable ρ).mpr ⟨b, hb, hbs, hbid⟩
        exact ⟨op', ack, (entry_mem_concat).mpr (.inl hm), hst⟩
      · rw [List.mem_singleton.mp hb] at hbs hbid
        refine ⟨op, a, (entry_mem_concat).mpr (.inr ?_), hbs⟩
        rw [← hbid, hid]
  · rw [commitAcksOf_concat hs]
    intro b hb
    rcases List.mem_append.mp hb with hb | hb
    · exact T.named b hb
    · rw [List.mem_singleton.mp hb]; exact ⟨hrec, hhash⟩
  · rw [commitAcksOf_concat hs, List.map_append, List.map_append, List.map_singleton,
      List.map_singleton, hid]
    exact T.order.append_right _

theorem wp_commitStep (hcmd : t.command = .propose proposal principal)
    (hr : proposedRecord S t = some r) (winners : List ReplicaId) {done : List ReplicaAckV1}
    {steps : List CommitStep} {h : Past V} (T : Tally r winners done steps h) (x : ReplicaAckV1) :
    Wp (recorded (Answers S.codec) (MayCall S t))
      (fun s h' => Tally r winners (done ++ [x]) (steps ++ [s]) h')
      (commitStep t.operationId r winners x) h := by
  unfold commitStep
  split
  · rename_i hst
    apply wp_ret
    refine T.skip (fun hprep => absurd hprep hst) rfl ?_ (fun _ => Iff.rfl) T.misses id
    intro a ha
    cases ha
  · split
    · apply wp_bind
      refine wp_entry (by simp [MayCall, hcmd]) ?_
      intro l hl
      have hother : ∀ ρ op r', Call.abort x.replicaId t.operationId r.recordKey r.recordVersion ≠
          Call.commit (V := V) ρ op r' := by
        intro _ _ _ he
        cases he
      apply wp_ret
      refine T.skip (fun _ => ‹_›) rfl ?_ (fun _ => committedOn_concat_other hother)
        (missesMarked_concat_other hother T.misses) NoCommits.of_concat
      intro a ha
      cases ha
      exact hl
    · apply wp_bind
      refine wp_entry (by simp [MayCall, hcmd, hr]) ?_
      intro a ha
      split
      · rename_i hacked
        apply wp_ret
        refine T.commit ha rfl rfl (fun _ => Iff.rfl) ?_ ((entry_mem_concat).mpr (.inr rfl))
        intro ρ op r' ack hm hne
        rcases (entry_mem_concat).mp hm with hm | he
        · obtain ⟨d, hd⟩ := T.misses ρ op r' ack hm hne
          exact ⟨d, (entry_mem_concat).mpr (.inl hd)⟩
        · cases he
          exact absurd hacked hne
      · apply wp_bind
        refine wp_entry (by simp [MayCall, hcmd]) ?_
        rintro ⟨⟩ -
        have hother : ∀ d ρ op r', Call.markDiverged x.replicaId d ≠ Call.commit (V := V) ρ op r' := by
          intro _ _ _ _ he
          cases he
        apply wp_ret
        refine T.commit ha rfl rfl (fun _ => committedOn_concat_other (hother _)) ?_
          ((entry_mem_concat).mpr (.inl ((entry_mem_concat).mpr (.inr rfl))))
        intro ρ op r' ack hm hne
        rcases (entry_mem_concat).mp hm with hm | he
        · rcases (entry_mem_concat).mp hm with hm | he
          · obtain ⟨d, hd⟩ := T.misses ρ op r' ack hm hne
            exact ⟨d, (entry_mem_concat).mpr (.inl ((entry_mem_concat).mpr (.inl hd)))⟩
          · cases he
            exact ⟨_, (entry_mem_concat).mpr (.inr rfl)⟩
        · cases entry_call he

/-- The durable acknowledgements of a full loop are the replicas that committed. -/
theorem Tally.count {winners : List ReplicaId} {done : List ReplicaAckV1} {steps : List CommitStep}
    {h : Past V} (T : Tally r winners done steps h) (hdone : (done.map fun a => a.replicaId).Nodup) :
    ((commitAcksOf steps).filter (isDurable (some r.recordId) (some r.contentHash))).length =
      (durableOn h r).card := by
  have hfilter : (commitAcksOf steps).filter (isDurable (some r.recordId) (some r.contentHash)) =
      (commitAcksOf steps).filter fun a => a.ackStatus = .ackCommitted := by
    apply List.filter_congr
    intro a ha
    obtain ⟨hid, hhash⟩ := T.named a ha
    simp [isDurable, hid, hhash]
  have hnodup : (((commitAcksOf steps).filter fun a => a.ackStatus = .ackCommitted).map
      fun a => a.replicaId).Nodup :=
    (List.filter_sublist.map _).nodup (T.order.nodup hdone)
  have hset : (((commitAcksOf steps).filter fun a => a.ackStatus = .ackCommitted).map
      fun a => a.replicaId).toFinset = durableOn h r := by
    ext ρ
    rw [mem_durableOn, T.durable ρ]
    simp [and_assoc]
  rw [hfilter, ← hset, List.toFinset_card_of_nodup hnodup, List.length_map]

/-- The result carries the outcome it was given; it is refused only when it claims
a commit that its acknowledgements do not bear. -/
theorem writeResult_cases (op principal : String) (outcome : WriteOutcome) (reason : Option String)
    (r : BlackboardRecordV1 V) (acks : List ReplicaAckV1)
    (sync : List (ReplicaId × ReplicationSyncState)) :
    let n := (acks.filter (isDurable (some r.recordId) (some r.contentHash))).length
    (∃ res, writeResult op principal outcome reason (some r) acks sync = .ok res ∧
      res.outcome = outcome ∧ (outcome = .committed → 2 ≤ n)) ∨
    (∃ m, writeResult op principal outcome reason (some r) acks sync = .error m ∧
      outcome = .committed ∧ n < 2) := by
  intro n
  unfold writeResult
  by_cases hraise : outcome = .committed ∧ n < 2
  · exact .inr ⟨_, if_pos hraise, hraise⟩
  · refine .inl ⟨_, if_neg hraise, rfl, ?_⟩
    intro hc
    by_contra hlt
    exact hraise ⟨hc, by omega⟩

theorem mayReturnWrite_of_not_committed {q : Nat} {h : Past V} {op : String} {outcome : WriteOutcome}
    {reason : Option String} {acks : List ReplicaAckV1}
    {sync : List (ReplicaId × ReplicationSyncState)} (hn : NoCommits h)
    (h1 : outcome ≠ .committed) (h2 : outcome ≠ .partialCommit) (h3 : outcome ≠ .failedStorage) :
    MayReturnWrite q r h (writeResult op principal outcome reason (some r) acks sync) := by
  rcases writeResult_cases op principal outcome reason r acks sync with
    ⟨res, hres, ho, -⟩ | ⟨m, -, ho, -⟩
  · rw [hres]
    exact ⟨.rejected _ hn (ho ▸ h1) (ho ▸ h2) (ho ▸ h3), hn.missesMarked⟩
  · exact absurd ho h1

theorem classifyTotalRejection_outcome (acks : List ReplicaAckV1) :
    (classifyTotalRejection acks).1 ≠ .committed ∧ (classifyTotalRejection acks).1 ≠ .partialCommit ∧
      (classifyTotalRejection acks).1 ≠ .failedStorage := by
  unfold classifyTotalRejection
  split
  · exact ⟨nofun, nofun, nofun⟩
  · split
    · simp only
      split <;> exact ⟨nofun, nofun, nofun⟩
    · exact ⟨nofun, nofun, nofun⟩

/-- The three commit outcomes against the number of durable acknowledgements. -/
theorem commitOutcome_cases (required : Nat) (prepareAcks durable : List ReplicaAckV1)
    (winners : List ReplicaId) :
    let o := (commitOutcome required prepareAcks durable winners).1
    (o = .committed ∧ required ≤ durable.length) ∨
    (o = .partialCommit ∧ durable.length = 1 ∧ durable.length < required) ∨
    (o = .failedStorage ∧ durable.length ≠ 1 ∧ durable.length < required) := by
  intro o
  simp only [o, commitOutcome]
  by_cases hq : required ≤ durable.length
  · exact .inl ⟨by rw [if_pos hq], hq⟩
  · by_cases h1 : durable.length = 1
    · exact .inr (.inl ⟨by rw [if_neg hq, if_pos h1], h1, by omega⟩)
    · exact .inr (.inr ⟨by rw [if_neg hq, if_neg h1], h1, by omega⟩)

/-- Acknowledgements that are not of commits do not count as durable. -/
theorem durable_length_of_not_committed {id hash : Option String} {acks : List ReplicaAckV1}
    (h : ∀ a ∈ acks, a.ackStatus ≠ .ackCommitted) : acks.filter (isDurable id hash) = [] := by
  rw [List.filter_eq_nil_iff]
  intro a ha
  simp [isDurable, h a ha]

/-- A full commit loop and its cleanup bear out the outcome they are reported as. -/
theorem mayReturnWrite_of_tally {q : Nat} {h : Past V} {op : String} {winners : List ReplicaId}
    {prepareAcks cleanupAcks : List ReplicaAckV1} {steps : List CommitStep}
    (T : Tally r winners prepareAcks steps h) (hsent : ¬ NoCommits h)
    (hnodup : (prepareAcks.map fun a => a.replicaId).Nodup)
    (hprep : ∀ a ∈ prepareAcks, a.ackStatus ≠ .ackCommitted)
    (hclean : ∀ a ∈ cleanupAcks, a.ackStatus ≠ .ackCommitted) :
    let out := commitOutcome q prepareAcks
      ((commitAcksOf steps).filter (isDurable (some r.recordId) (some r.contentHash))) winners
    MayReturnWrite q r h (writeResult op principal out.1 out.2 (some r)
      (prepareAcks ++ commitAcksOf steps ++ steps.filterMap (fun s => s.loserAbortAck) ++ cleanupAcks)
      (steps.map fun s => s.sync)) := by
  intro out
  have hcount := T.count hnodup
  have hlosers : ∀ a ∈ steps.filterMap (fun s => s.loserAbortAck), a.ackStatus ≠ .ackCommitted := by
    intro a ha
    obtain ⟨s, hs, hsa⟩ := List.mem_filterMap.mp ha
    exact T.losers s hs a hsa
  have hall : ((prepareAcks ++ commitAcksOf steps ++ steps.filterMap (fun s => s.loserAbortAck) ++
      cleanupAcks).filter (isDurable (some r.recordId) (some r.contentHash))).length =
      (durableOn h r).card := by
    rw [List.filter_append, List.filter_append, List.filter_append,
      durable_length_of_not_committed hprep, durable_length_of_not_committed hlosers,
      durable_length_of_not_committed hclean, List.nil_append, List.append_nil, List.append_nil]
    exact hcount
  have hcases : (out.1 = .committed ∧ q ≤ (durableOn h r).card) ∨
      (out.1 = .partialCommit ∧ (durableOn h r).card = 1 ∧ (durableOn h r).card < q) ∨
      (out.1 = .failedStorage ∧ (durableOn h r).card ≠ 1 ∧ (durableOn h r).card < q) := by
    rw [← hcount]
    exact commitOutcome_cases q prepareAcks _ winners
  rcases writeResult_cases op principal out.1 out.2 r (prepareAcks ++ commitAcksOf steps ++
      steps.filterMap (fun s => s.loserAbortAck) ++ cleanupAcks) (steps.map fun s => s.sync) with
    ⟨res, hres, ho, htwo⟩ | ⟨m, hres, ho, htwo⟩
  · rw [hres]
    rw [hall] at htwo
    refine ⟨?_, T.misses⟩
    rw [ho]
    rcases hcases with ⟨hc, hq⟩ | ⟨hc, h1, hq⟩ | ⟨hc, h1, hq⟩
    · have h2 := htwo hc
      rw [hc]
      exact .committed hq h2
    · rw [hc]; exact .partialCommit h1 hq
    · rw [hc]; exact .failedStorage h1 hq hsent
  · rw [hres]
    rw [hall] at htwo
    rcases hcases with ⟨-, hq⟩ | ⟨hc, -, -⟩ | ⟨hc, -, -⟩
    · exact ⟨hq, htwo⟩
    · rw [hc] at ho; cases ho
    · rw [hc] at ho; cases ho

theorem compatibilityKey_some {a : ReplicaAckV1} {k : String × String × Nat × String}
    (h : compatibilityKey a = some k) : a.ackStatus = .ackPrepared := by
  unfold compatibilityKey at h
  split at h
  · assumption
  · cases h

/-- A quorum that is met has a prepared member. -/
theorem evaluateQuorum_winner {acks : List ReplicaAckV1} {q : Nat}
    (h : (evaluateQuorum acks q).decision = .quorumMet) :
    ∃ a ∈ acks, a.ackStatus = .ackPrepared ∧ a.replicaId ∈ (evaluateQuorum acks q).compatibleReplicaIds := by
  unfold evaluateQuorum at h ⊢
  simp only at h ⊢
  split at h
  · cases h
  · rename_i best rest hordered
    obtain ⟨hmembers, hne, -⟩ := Grouping.largest_group hordered
    obtain ⟨m, hm⟩ := List.exists_mem_of_ne_nil _ hne
    have hkeyed := hm
    rw [hmembers] at hkeyed
    obtain ⟨a, ha, hkey⟩ := List.mem_filterMap.mp (List.mem_filter.mp hkeyed).1
    obtain ⟨k, hk, rfl⟩ := Option.map_eq_some_iff.mp hkey
    by_cases hq : q ≤ best.2.length
    · refine ⟨a, ha, compatibilityKey_some hk, ?_⟩
      simp only [hordered, if_pos hq]
      exact List.mem_map.mpr ⟨_, hm, rfl⟩
    · rw [if_neg hq] at h
      split at h <;> cases h

theorem wp_writeRecord (hcmd : t.command = .propose proposal principal)
    (hr : proposedRecord S t = some r) :
    Wp (recorded (Answers S.codec) (MayCall S t))
      (fun out h => MayReturnWrite t.coordinator.settings.quorumSize r h out)
      (writeRecord t.coordinator t.operationId principal r) [] := by
  unfold writeRecord
  apply wp_bind
  refine wp_mono ?_ (wp_prepares hcmd hr)
  rintro prepareAcks h ⟨hn, hids, hprep⟩
  split
  · obtain ⟨h1, h2, h3⟩ := classifyTotalRejection_outcome prepareAcks
    exact wp_ret (mayReturnWrite_of_not_committed hn h1 h2 h3)
  · simp only
    split
    · apply wp_bind
      refine wp_mono ?_ (wp_aborts hcmd (J := NoCommits)
        (fun h ρ op k v a hj => hj.concat (by intro _ _ _ he; cases he))
        (fun _ => (r.recordKey, r.recordVersion)) _ hn)
      rintro abortAcks h' ⟨hn', -⟩
      exact wp_ret (mayReturnWrite_of_not_committed hn' nofun nofun nofun)
    · rename_i hmet
      apply wp_bind
      refine wp_mono ?_ (wp_forEach (Tally r _) (fun done x rest steps h' _ T =>
        wp_commitStep hcmd hr _ T x) (Tally.start hn))
      intro steps h' T
      apply wp_bind
      refine wp_mono ?_ (wp_aborts hcmd (J := Tally r _ prepareAcks steps) ?_
        (fun a => (a.recordKey.getD "", a.recordVersion.getD 0)) _ T)
      · rintro cleanupAcks h'' ⟨T', hclean⟩
        obtain ⟨a, ha, hst, hwin⟩ := evaluateQuorum_winner (not_not.mp hmet)
        exact wp_ret (mayReturnWrite_of_tally T' (T'.sent a ha hst hwin)
          (by rw [hids]; exact t.coordinator.distinct) hprep hclean)
      · intro h ρ op k v a T
        have hother : ∀ ρ' op' r', Call.abort ρ op k v ≠ Call.commit (V := V) ρ' op' r' := by
          intro _ _ _ he
          cases he
        exact ⟨fun ρ' => (committedOn_concat_other hother).trans (T.durable ρ'), T.named, T.order,
          T.losers, missesMarked_concat_other hother T.misses,
          fun a ha hst hw hn => T.sent a ha hst hw hn.of_concat⟩

/-- A command that returns before any call reports a rejection. -/
theorem mayReturn_rejected (hcmd : t.command = .propose proposal principal) {op : String}
    {outcome : WriteOutcome} {reason : Option String} {record : Option (BlackboardRecordV1 V)}
    {acks : List ReplicaAckV1} {sync : List (ReplicaId × ReplicationSyncState)}
    (h1 : outcome ≠ .committed) (h2 : outcome ≠ .partialCommit) (h3 : outcome ≠ .failedStorage) :
    MayReturn S t (.write (writeResult op principal outcome reason record acks sync)) [] := by
  have hn : NoCommits ([] : Past V) := by
    intro ρ op r ack hm
    cases hm
  have hres : ∃ res, writeResult op principal outcome reason record acks sync = .ok res ∧
      res.outcome = outcome := by
    unfold writeResult
    exact ⟨_, if_neg (fun hc => h1 hc.1), rfl⟩
  obtain ⟨res, hres, rfl⟩ := hres
  rw [hres]
  simp only [MayReturn, hcmd]
  cases proposedRecord S t with
  | none =>
    intro res' hres'
    cases hres'
    exact h1
  | some r => exact ⟨.rejected _ hn h1 h2 h3, hn.missesMarked⟩

theorem wp_propose (hcmd : t.command = .propose proposal principal) :
    Wp (recorded (Answers S.codec) (MayCall S t)) (fun out h => MayReturn S t (.write out) h)
      (propose S.codec t.coordinator t.operationId proposal principal) [] := by
  unfold propose
  split
  · exact wp_ret (mayReturn_rejected hcmd nofun nofun nofun)
  · split
    · exact wp_ret (mayReturn_rejected hcmd nofun nofun nofun)
    · rename_i r hbuild
      have hr : proposedRecord S t = some r := by
        simp [proposedRecord, hcmd, hbuild, Except.toOption]
      simp only
      split
      · refine wp_mono ?_ (wp_writeRecord hcmd hr)
        intro out h hw
        simp only [MayReturn, hcmd, hr]
        exact hw
      · exact wp_ret (mayReturn_rejected hcmd nofun nofun nofun)

end Writes

/-! ## Reads and repairs -/

section Reads

variable {S : System V} {t : Request V} {k : String} {v : Option Nat}

/-- Nothing of the history is lost. -/
def Extends (h h' : Past V) : Prop := ∀ x ∈ h, x ∈ h'

theorem extends_concat (h : Past V) (x : Entry V) : Extends h (h ++ [x]) :=
  fun _ hy => List.mem_append_left _ hy

theorem Agreed.mono {cd : RecordCodec V} {h h' : Past V} (hx : Extends h h') {q : Nat}
    {r : BlackboardRecordV1 V} (ha : Agreed cd h k v q r) : Agreed cd h' k v q r := by
  obtain ⟨G, hq, hall, ρ, hρ, o, hm, hs⟩ := ha
  refine ⟨G, hq, ?_, ρ, hρ, o, hx _ hm, hs⟩
  intro ρ' hρ'
  obtain ⟨o', s, hm', hrest⟩ := hall ρ' hρ'
  exact ⟨o', s, hx _ hm', hrest⟩

/-- The observations of one command: one per replica, each as the history has it. -/
structure Observed (cd : RecordCodec V) (k : String) (v : Option Nat) (ids : List ReplicaId)
    (observations : List (Observation V)) (h : Past V) : Prop where
  ids : observations.map (fun o => o.replicaId) = ids
  recorded : ∀ o ∈ observations, entry (.observe o.replicaId k v) o ∈ h
  shows : ∀ o ∈ observations, o.found = true → ∃ r, Shows cd k v o r

theorem wp_observes (ids : List ReplicaId)
    (hmay : ∀ ρ h, MayCall S t (.observe ρ k v) h) :
    Wp (recorded (Answers S.codec) (MayCall S t))
      (fun observations h => Observed S.codec k v ids observations h)
      (forEach (callObserve k v) ids) [] := by
  refine wp_forEach (fun done observations h => Observed S.codec k v done observations h) ?_
    ⟨rfl, by simp, by simp⟩
  rintro done ρ rest observations h - O
  refine wp_entry (hmay ρ h) ?_
  rintro o ⟨hid, hshow⟩
  refine ⟨?_, ?_, ?_⟩
  · rw [List.map_append, O.ids, List.map_singleton, hid]
  · intro o' ho'
    rcases List.mem_append.mp ho' with ho' | ho'
    · exact (entry_mem_concat).mpr (.inl (O.recorded o' ho'))
    · rw [List.mem_singleton.mp ho', hid]
      exact (entry_mem_concat).mpr (.inr rfl)
  · intro o' ho'
    rcases List.mem_append.mp ho' with ho' | ho'
    · exact O.shows o' ho'
    · rw [List.mem_singleton.mp ho']; exact hshow

/-- Distinct replicas behind a part of the observations. -/
theorem Observed.card {cd : RecordCodec V} {ids : List ReplicaId}
    {observations part : List (Observation V)} {h : Past V}
    (O : Observed cd k v ids observations h) (hids : ids.Nodup) (hpart : part.Sublist observations) :
    (part.map fun o => o.replicaId).toFinset.card = part.length := by
  have hnodup : (part.map fun o => o.replicaId).Nodup := by
    refine (hpart.map _).nodup ?_
    rw [O.ids]
    exact hids
  rw [List.toFinset_card_of_nodup hnodup, List.length_map]

/-- Observations with one version and one hash show one identity. -/
theorem shows_identity {cd : RecordCodec V} {o o' : Observation V} {r r' : BlackboardRecordV1 V}
    (hs : Shows cd k v o r) (hs' : Shows cd k v o' r')
    (hkey : observationKey o = observationKey o') :
    r.recordId = r'.recordId ∧ r.recordVersion = r'.recordVersion := by
  have hpair : (r.recordVersion, r.contentHash) = (r'.recordVersion, r'.contentHash) := by
    simpa [observationKey, hs.version, hs.hash, hs'.version, hs'.hash] using hkey
  obtain ⟨hver, hhash⟩ := Prod.mk.inj hpair
  refine ⟨?_, hver⟩
  rw [hs.verified.id, hs'.verified.id, hs.key, hs'.key, hver, hhash]

/-- The largest group of found observations agrees on the record of its first one. -/
theorem Observed.agreed {cd : RecordCodec V} {ids : List ReplicaId}
    {observations present : List (Observation V)} {h : Past V}
    (O : Observed cd k v ids observations h) (hids : ids.Nodup)
    (hsub : present.Sublist observations) (hfound : ∀ o ∈ present, o.found = true)
    {best : (Nat × String) × List (Observation V)} {rest : List ((Nat × String) × List (Observation V))}
    (hbest : orderedGroups present = best :: rest) {q : Nat} (hq : q ≤ best.2.length) :
    ∃ r, (best.2.head?.bind fun o => o.record) = some r ∧ r.recordKey = k ∧
      Agreed cd h k v q r := by
  obtain ⟨hgroup, hne, -⟩ := Grouping.largest_group hbest
  have hpart : best.2.Sublist observations := by
    rw [hgroup]
    exact List.filter_sublist.trans hsub
  have hkey : ∀ o ∈ best.2, observationKey o = best.1 := by
    intro o ho
    rw [hgroup] at ho
    simpa using (List.mem_filter.mp ho).2
  have hshow : ∀ o ∈ best.2, ∃ r, Shows cd k v o r := by
    intro o ho
    refine O.shows o (hpart.subset ho) (hfound o ?_)
    rw [hgroup] at ho
    exact (List.mem_filter.mp ho).1
  obtain ⟨first, tail, hfirst⟩ := List.exists_cons_of_ne_nil hne
  have hmem : first ∈ best.2 := by rw [hfirst]; exact List.mem_cons_self
  obtain ⟨r, hr⟩ := hshow first hmem
  refine ⟨r, by simp [hfirst, hr.record], hr.key,
    (best.2.map fun o => o.replicaId).toFinset, by rw [O.card hids hpart]; exact hq, ?_, ?_⟩
  · intro ρ hρ
    obtain ⟨o, ho, rfl⟩ := List.mem_map.mp (List.mem_toFinset.mp hρ)
    obtain ⟨s, hs⟩ := hshow o ho
    obtain ⟨hid, hver⟩ := shows_identity hs hr ((hkey o ho).trans (hkey first hmem).symm)
    exact ⟨o, s, O.recorded o (hpart.subset ho), hs, hid, hver⟩
  · exact ⟨first.replicaId, List.mem_toFinset.mpr (List.mem_map.mpr ⟨first, hmem, rfl⟩), first,
      O.recorded first (hpart.subset hmem), hr⟩

theorem wp_marks (hmay : ∀ ρ d h, MayCall S t (.markDiverged ρ d) h) {β : Type}
    (body : β → Prog (Blackboard V) Unit) (hbody : ∀ x, ∃ ρ d, body x = callMark d ρ) (l : List β)
    (h : Past V) :
    Wp (recorded (Answers S.codec) (MayCall S t)) (fun _ h' => Extends h h') (forEach body l) h := by
  refine wp_forEach (fun _ _ h' => Extends h h') ?_ (fun _ hx => hx)
  rintro done x rest ys h' - hx
  obtain ⟨ρ, d, hb⟩ := hbody x
  rw [hb]
  refine wp_entry (hmay ρ d h') ?_
  intro _ _
  exact fun y hy => extends_concat h' _ y (hx y hy)

/-- An outcome that is neither authoritative nor an absence says nothing. -/
theorem mayReturnRead_of_other {cd : RecordCodec V} {q : Nat} {h : Past V} {res : ReadResultV1 V}
    (hk : res.recordKey = k) (h1 : res.outcome ≠ .consistent) (h2 : res.outcome ≠ .degradedConsistent)
    (h3 : res.outcome ≠ .notFound) : MayReturnRead cd q k v h res :=
  ⟨hk, fun ha => (ha.elim h1 h2).elim, fun ha => absurd ha h3⟩

theorem mayReturnRead_of_agreed {cd : RecordCodec V} {q : Nat} {h : Past V} {res : ReadResultV1 V}
    (hk : res.recordKey = k) (hne : res.outcome ≠ .notFound)
    (ha : ∃ r, res.record = some r ∧ Agreed cd h k v q r) : MayReturnRead cd q k v h res :=
  ⟨hk, fun _ => ha, fun hn => absurd hn hne⟩

theorem wp_concludeRead (hmark : ∀ ρ d h, MayCall S t (.markDiverged ρ d) h) (readOp principal : String)
    {observations : List (Observation V)} {h : Past V}
    (O : Observed S.codec k v t.coordinator.replicas observations h) :
    Wp (recorded (Answers S.codec) (MayCall S t))
      (fun res h => MayReturnRead S.codec t.coordinator.settings.quorumSize k v h res)
      (concludeRead t.coordinator readOp principal k v observations) h := by
  unfold concludeRead
  simp only
  split
  · exact wp_ret (mayReturnRead_of_other rfl nofun nofun nofun)
  · split
    · rename_i hgroups
      split
      · rename_i hq
        -- no group means that no response carried a record
        have hnone : ∀ o ∈ observations.filter (fun o => o.responded), o.found = false := by
          have hnil := (Grouping.ordered_eq_nil _ observationKey _).mp hgroups
          intro o ho
          simpa using List.filter_eq_nil_iff.mp hnil o ho
        apply wp_ret
        refine ⟨rfl, fun ha => ha.elim nofun nofun, ?_⟩
        intro _
        refine ⟨((observations.filter fun o => o.responded).map fun o => o.replicaId).toFinset, ?_, ?_⟩
        · rw [O.card t.coordinator.distinct List.filter_sublist]
          exact hq
        · intro ρ hρ
          obtain ⟨o, ho, rfl⟩ := List.mem_map.mp (List.mem_toFinset.mp hρ)
          obtain ⟨hm, hresp⟩ := List.mem_filter.mp ho
          exact ⟨o, O.recorded o hm, hresp, hnone o ho⟩
      · exact wp_ret (mayReturnRead_of_other rfl nofun nofun nofun)
    · rename_i bestKey bestGroup rest hgroups
      have hsub : ((observations.filter fun o => o.responded).filter fun o => o.found).Sublist
          observations := List.filter_sublist.trans List.filter_sublist
      have hfound : ∀ o ∈ (observations.filter fun o => o.responded).filter (fun o => o.found),
          o.found = true := fun o ho => (List.mem_filter.mp ho).2
      have hagreed : ∀ q ≤ bestGroup.length, ∃ r, (bestGroup.head?.bind fun o => o.record) = some r ∧
          Agreed S.codec h k v q r := by
        intro q hq
        obtain ⟨r, hr, -, ha⟩ := O.agreed t.coordinator.distinct hsub hfound hgroups hq
        exact ⟨r, hr, ha⟩
      apply wp_bind
      refine wp_mono ?_ (wp_marks hmark _ (fun o : Observation V => ⟨o.replicaId, _, rfl⟩) _ h)
      intro _ h' hx
      split
      · exact wp_ret (mayReturnRead_of_other rfl nofun nofun nofun)
      · rename_i hresp
        split
        · rename_i hall
          obtain ⟨r, hr, ha⟩ := hagreed t.coordinator.settings.quorumSize (by omega)
          exact wp_ret (mayReturnRead_of_agreed rfl nofun ⟨r, hr, ha.mono hx⟩)
        · split
          · rename_i hq
            obtain ⟨r, hr, ha⟩ := hagreed _ hq
            apply wp_bind
            refine wp_mono ?_ (wp_marks hmark _ ?_ _ h')
            · intro _ h'' hx'
              refine wp_ret (mayReturnRead_of_agreed rfl nofun ⟨r, hr, ha.mono ?_⟩)
              exact fun x hm => hx' x (hx x hm)
            · intro o
              split
              · exact ⟨o.replicaId, _, rfl⟩
              · exact ⟨o.replicaId, _, rfl⟩
          · exact wp_ret (mayReturnRead_of_other rfl nofun nofun nofun)

theorem wp_read {principal : String} (hcmd : t.command = .read principal k v) :
    Wp (recorded (Answers S.codec) (MayCall S t))
      (fun res h => MayReturnRead S.codec t.coordinator.settings.quorumSize k v h res)
      (BlackboardCoordinator.read t.coordinator t.operationId principal k v) [] := by
  unfold BlackboardCoordinator.read
  simp only
  split
  · exact wp_ret (mayReturnRead_of_other rfl nofun nofun nofun)
  · split
    · apply wp_bind
      refine wp_mono ?_ (wp_observes t.coordinator.replicas
        (fun ρ h => by simp [MayCall, hcmd]))
      intro observations h O
      exact wp_concludeRead (fun ρ d h => by simp [MayCall, hcmd]) _ _ O
    · exact wp_ret (mayReturnRead_of_other rfl nofun nofun nofun)

theorem majorityRecord_agreed {cd : RecordCodec V} {ids : List ReplicaId}
    {observations : List (Observation V)} {h : Past V} {q : Nat} {probe : BlackboardRecordV1 V}
    (O : Observed cd k v ids observations h) (hids : ids.Nodup)
    (hp : majorityRecord q observations = some probe) :
    probe.recordKey = k ∧ Agreed cd h k v q probe := by
  unfold majorityRecord at hp
  split at hp
  · cases hp
  · rename_i bestKey bestGroup rest hgroups
    split at hp
    · cases hp
    · rename_i hq
      have hfound : ∀ o ∈ observations.filter (fun o => o.responded && o.found), o.found = true := by
        intro o ho
        have hboth := (List.mem_filter.mp ho).2
        simp only [Bool.and_eq_true] at hboth
        exact hboth.2
      obtain ⟨r, hr, hk, ha⟩ := O.agreed hids List.filter_sublist hfound hgroups (Nat.le_of_not_lt hq)
      rw [hr, Option.some.injEq] at hp
      subst hp
      exact ⟨hk, ha⟩

theorem wp_repairReplica {principal : String} {targets : Option (List ReplicaId)}
    (hcmd : t.command = .resync principal k targets) {probe : BlackboardRecordV1 V} {h : Past V}
    (hk : probe.recordKey = k)
    (ha : Agreed S.codec h k none t.coordinator.settings.quorumSize probe) (ρ : ReplicaId) :
    Wp (recorded (Answers S.codec) (MayCall S t)) (fun _ h' => Extends h h')
      (repairReplica t.operationId k probe ρ) h := by
  unfold repairReplica
  apply wp_bind
  refine wp_entry (by simp only [MayCall, hcmd]; exact ⟨hk, ha⟩) ?_
  intro ack _
  apply wp_bind
  refine wp_entry (by simp [MayCall, hcmd]) ?_
  intro reply _
  have hext : Extends h ((h ++ [entry (.upsertExternal ρ t.operationId probe) ack]) ++
      [entry (.headRow ρ k) reply]) :=
    fun x hx => extends_concat _ _ x (extends_concat h _ x hx)
  simp only
  split
  · rename_i hdone
    apply wp_bind
    refine wp_entry ?_ (fun _ _ => wp_ret (fun x hx => extends_concat _ _ x (hext x hx)))
    simp only [MayCall, hcmd]
    exact ⟨t.operationId, probe, ack,
      (entry_mem_concat).mpr (.inl ((entry_mem_concat).mpr (.inr rfl))), hdone.1, hk, ha.mono hext⟩
  · split
    · apply wp_bind
      refine wp_entry (by simp [MayCall, hcmd]) ?_
      exact fun _ _ => wp_ret (fun x hx => extends_concat _ _ x (hext x hx))
    · exact wp_ret hext

theorem wp_resync {principal : String} {targets : Option (List ReplicaId)}
    (hcmd : t.command = .resync principal k targets) :
    Wp (recorded (Answers S.codec) (MayCall S t)) (fun _ _ => True)
      (resyncReplicasFromMajority t.coordinator t.operationId principal k targets) [] := by
  unfold resyncReplicasFromMajority
  simp only
  split
  · apply wp_bind
    refine wp_mono ?_ (wp_observes t.coordinator.replicas (fun ρ h => by simp [MayCall, hcmd]))
    intro observations h O
    split
    · exact wp_ret trivial
    · rename_i probe hprobe
      obtain ⟨hk, ha⟩ := majorityRecord_agreed O t.coordinator.distinct hprobe
      apply wp_bind
      refine wp_mono (fun _ _ _ => wp_ret trivial) (wp_forEach (fun _ _ h' => Extends h h') ?_
        (fun _ hx => hx))
      rintro done ρ rest ys h' - hx
      refine wp_mono ?_ (wp_repairReplica hcmd hk (ha.mono hx) ρ)
      exact fun _ _ hx' x hm => hx' x (hx x hm)
  · exact wp_ret trivial

end Reads

/-- Every command meets the contract. -/
theorem meets (S : System V) : (machine S).Meets (contract S) := by
  refine ⟨fun t c e w => exec_answers S t.coordinator.site c e w, ?_⟩
  intro t
  change Wp (recorded (Answers S.codec) (MayCall S t)) (MayReturn S t) (program S t) []
  unfold program
  split
  · rename_i hcmd
    exact wp_bind (wp_mono (fun _ _ h => h) (wp_propose hcmd))
  · rename_i hcmd
    refine wp_bind (wp_mono ?_ (wp_read hcmd))
    intro res h hres
    change MayReturn S t (.read res) h
    simp only [MayReturn, hcmd]
    exact hres
  · rename_i hcmd
    refine wp_bind (wp_mono ?_ (wp_resync hcmd))
    intro report h _
    change MayReturn S t (.resync report) h
    simp [MayReturn, hcmd]

end BlackboardProtocol
