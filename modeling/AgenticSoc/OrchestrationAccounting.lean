import AgenticSoc.OrchestrationIdentity
import Mathlib.Data.List.Dedup

/-!
# Every orchestrator is accounted for

Each replica of a call waits for its submission, has a future, or has left its trace in
the round: a counted vote, a rejection, or its place in one of the coordinator's sets.
The only way out is the look-up of an earlier task that has completed since the
submission was refused.
-/
namespace OrchestrationAccounting

open OrchestrationMessages OrchestrationRound OrchestrationDecision OrchestrationReplica
open OrchestrationCoordinator OrchestrationIdentity

variable {F : Type} {R : Runtime F} (cfg : Config)

/-! ## Traces in a round -/

/-- The orchestrator has left a trace in the round. -/
def Accounted (r : DecisionRound R) (id : String) : Prop :=
  (∃ e ∈ r.votes, e.2.orchestratorId = id) ∨ (∃ x ∈ r.rejections, x.orchestratorId = id) ∨ ∃ m, id ∈ r.marked m

/-- The orchestrator occurs in the decision. -/
def AccountedIn (d : OrchestrationDecisionV1) (id : String) : Prop :=
  id ∈ d.voteSummaries.map VoteSummaryV1.orchestratorId ∨
  id ∈ d.rejections.map MessageRejectionV1.orchestratorId ∨
  id ∈ d.unavailableOrchestrators ∨ id ∈ d.omittedOrchestrators ∨ id ∈ d.timedOutOrchestrators ∨
  id ∈ d.delayedOrchestrators

/-- The round has kept every trace. -/
structure Grows (r r' : DecisionRound R) : Prop where
  votes : ∀ e ∈ r.votes, e ∈ r'.votes
  rejections : ∀ x ∈ r.rejections, x ∈ r'.rejections
  marked : ∀ m, ∀ id ∈ r.marked m, id ∈ r'.marked m

theorem Grows.accounted {r r' : DecisionRound R} (h : Grows r r') {id : String} (ha : Accounted r id) :
    Accounted r' id := by
  rcases ha with ⟨e, he, hid⟩ | ⟨x, hx, hid⟩ | ⟨m, hm⟩
  · exact .inl ⟨e, h.votes e he, hid⟩
  · exact .inr (.inl ⟨x, h.rejections x hx, hid⟩)
  · exact .inr (.inr ⟨m, h.marked m id hm⟩)

theorem mark_grows (r : DecisionRound R) (m : Mark) (id : String) : Grows r (r.mark m id) := by
  refine ⟨fun e he => he, fun x hx => hx, fun m' id' hid' => ?_⟩
  simp only [DecisionRound.mark]
  split
  · rename_i h
    rw [h.1] at hid'
    exact List.mem_append_left _ hid'
  · exact hid'

theorem mark_accounted (r : DecisionRound R) (m : Mark) (id : String) : Accounted (r.mark m id) id := by
  refine .inr (.inr ⟨m, ?_⟩)
  simp only [DecisionRound.mark]
  by_cases hin : id ∈ r.marked m <;> simp [hin]

/-- A rejection is kept while there is room. -/
theorem reject_grows {r : DecisionRound R} (phase : Phase) (m : Envelope R.floats) (reason : Reason) (detail : String)
    (hroom : r.rejections.length < maxRejections) :
    (r.reject phase m reason detail).rejections = r.rejections ++ [⟨phase, reason, m.orchestratorId, m.messageId, detail⟩] := by
  have hnone : (r.rejections ++ [(⟨phase, reason, m.orchestratorId, m.messageId, detail⟩ : MessageRejectionV1)]).length -
      maxRejections = 0 := by
    rw [List.length_append, List.length_singleton]
    omega
  simp only [DecisionRound.reject, hnone, List.drop_zero]

/-- The replay cache has not seen the message with its content. -/
def Unseen (c : BoundedReplayCache) (m : Envelope R.floats) : Prop :=
  ∀ e, c.find (m.orchestratorId, m.messageId) = some e → e.2 ≠ m.messageHash

theorem observe_unseen {c : BoundedReplayCache} {m : Envelope R.floats} (h : Unseen c m) :
    (c.observe m.orchestratorId m.messageId m.messageHash).2 = .new ∨
      (c.observe m.orchestratorId m.messageId m.messageHash).2 = .conflict := by
  cases hfind : c.find (m.orchestratorId, m.messageId) with
  | none => exact .inl (observe_new hfind)
  | some e =>
    right
    simp only [BoundedReplayCache.observe, hfind, if_neg (h e hfind)]

/-- What the round makes of an unseen proposal of a sender without one. -/
theorem acceptProposal_fresh (keys : String → Option Bytes) {r : DecisionRound R} {c : BoundedReplayCache}
    {m : Proposal R} (hnew : Absent r.proposals m.orchestratorId)
    (hfresh : screenProposal keys r m = .ok () → Unseen c m.toEnvelope) :
    ((acceptProposal keys r c m).2 = .accepted ∧
      (acceptProposal keys r c m).1.1 = { r with proposals := r.proposals ++ [(m.orchestratorId, m)] }) ∨
    ∃ reason detail, (acceptProposal keys r c m).2 = .rejected reason ∧
      (acceptProposal keys r c m).1.1 = r.reject .proposal m.toEnvelope reason detail := by
  unfold acceptProposal
  cases hscreen : screenProposal keys r m with
  | error e => exact .inr ⟨e.1, e.2, rfl, rfl⟩
  | ok u =>
    have hprior : ((r.proposals.find? fun e => e.1 = m.orchestratorId).map fun e => e.2.messageHash) = none :=
      (find_absent).mpr hnew
    rcases observe_unseen (hfresh hscreen) with h | h
    · left
      simp only [h, settleProposal, hprior, settle, and_self]
    · right
      simp only [h, settleProposal, settle]
      exact ⟨_, _, rfl, rfl⟩

theorem acceptVote_fresh (keys : String → Option Bytes) {r : DecisionRound R} {c : BoundedReplayCache}
    {m : Vote R} (hnew : Absent r.votes m.orchestratorId)
    (hfresh : screenVote keys r m = .ok () → Unseen c m.toEnvelope) :
    (acceptVote keys r c m).1.1 = { r with
      votes := r.votes ++ [(m.orchestratorId, m)]
      quorumDigest := latch (r.votes ++ [(m.orchestratorId, m)]) r.quorumDigest } ∨
    ∃ reason detail, (acceptVote keys r c m).1.1 = r.reject .vote m.toEnvelope reason detail := by
  unfold acceptVote
  cases hscreen : screenVote keys r m with
  | error e => exact .inr ⟨e.1, e.2, rfl⟩
  | ok u =>
    have hprior : ((r.votes.find? fun e => e.1 = m.orchestratorId).map fun e => e.2.messageHash) = none :=
      (find_absent).mpr hnew
    rcases observe_unseen (hfresh hscreen) with h | h
    · left
      simp only [h, settleVote, hprior, settle]
    · right
      simp only [h, settleVote, settle]
      exact ⟨_, _, rfl⟩

/-! ## Where a replica stands -/

/-- The replicas that have not been submitted yet. -/
def rest : Control → List String
  | .submitting rest => rest
  | .refused id rest => id :: rest
  | _ => []

/-- The replica whose vote is about to be submitted. -/
def votingId : Control → List String
  | .voting id _ _ => [id]
  | _ => []

def restartsAfter : After → List Nat
  | .loop restart => restart
  | .conclude => []

/-- The completed earlier tasks whose replicas are to be started anew. -/
def restarts : Control → List Nat
  | .consuming _ after | .voting _ _ after => restartsAfter after
  | .restarting todo => todo
  | _ => []

def ids (futures : List (Nat × String)) : List String := futures.map Prod.snd

/-- How often a replica without a counted proposal has its place in the call. -/
def waiting (a : Adjudication R) (id : String) : Nat :=
  (rest a.control).count id + (ids a.proposalFutures).count id + (ids a.busyFutures).count id

/-- How often a replica whose vote is due has its place in the call. -/
def voting (a : Adjudication R) (id : String) : Nat :=
  (votingId a.control).count id + (ids a.voteFutures).count id

/-- A task belongs to one replica. -/
def Owned (owner : Nat → String) (s : Coordinator R) (futures : List (Nat × String)) : Prop :=
  ∀ f ∈ futures, owner f.1 = f.2 ∧ f.1 < s.nextTask

structure Placed (owner : Nat → String) (s : Coordinator R) (a : Adjudication R) : Prop where
  once : ∀ id, waiting a id + voting a id ≤ 1
  placed : ∀ id ∈ orchestratorIds, 0 < waiting a id + voting a id ∨ Accounted a.round id
  noProposal : ∀ id, 0 < waiting a id → Absent a.round.proposals id
  noVote : ∀ id, 0 < waiting a id + voting a id → Absent a.round.votes id
  proposals : Owned owner s a.proposalFutures
  votes : Owned owner s a.voteFutures
  busy : Owned owner s a.busyFutures
  latest : ∀ f ∈ a.busyFutures, s.inflight f.2 = none ∨ s.inflight f.2 = some f.1
  restarts : ∀ t ∈ restarts a.control, s.done t = true
  room : a.round.rejections.length + 2 * ((rest a.control).length + a.proposalFutures.length + a.busyFutures.length) +
    (votingId a.control).length + a.voteFutures.length ≤ 6

/-- Nothing has been lost in the calls so far. -/
structure Kept (owner : Nat → String) (s : Coordinator R) : Prop where
  tasks : ∀ id t, s.inflight id = some t → owner t = id ∧ t < s.nextTask
  running : ∀ a, s.running = some a → Placed owner s a
  deciding : ∀ d ∈ s.deciding, ∀ id ∈ orchestratorIds, Accounted d.2.2 id
  returned : ∀ call key d, .returned call key d ∈ s.log → ∀ id ∈ orchestratorIds, AccountedIn d id

/-- The look-up after a refused submission finds the earlier task still running. -/
def StillBusy (s : Coordinator R) : Action R → Prop
  | .lookUp => ∀ a id rest, s.running = some a → a.control = .refused id rest → s.runningTask id ≠ none
  | _ => True

/-- A replica answers with messages of its own that are not replayed. -/
def FreshAnswers (s : Coordinator R) : Action R → Prop
  | .consumeProposal (.ok m) => ∀ a t todo after id, s.running = some a → a.control = .consuming (t :: todo) after →
      replicaOf a.proposalFutures t = some id →
      m.orchestratorId = id ∧ (screenProposal cfg.keys a.round m = .ok () → Unseen s.cache m.toEnvelope)
  | .consumeVote (.ok m) => ∀ a t todo after id, s.running = some a → a.control = .consuming (t :: todo) after →
      replicaOf a.voteFutures t = some id →
      m.orchestratorId = id ∧ (screenVote cfg.keys a.round m = .ok () → Unseen s.cache m.toEnvelope)
  | _ => True

/-! ## Futures -/

theorem replicaOf_mem {futures : List (Nat × String)} {t : Nat} {id : String} (h : replicaOf futures t = some id) :
    (t, id) ∈ futures := by
  obtain ⟨f, hf, rfl⟩ := Option.map_eq_some_iff.mp h
  have ht : f.1 = t := by simpa using List.find?_some hf
  rw [← ht]
  exact List.mem_of_find?_eq_some hf

theorem pop_sublist (futures : List (Nat × String)) (t : Nat) : (popFuture futures t).Sublist futures := List.filter_sublist

/-- A popped future takes one place of its replica. -/
theorem pop_count {owner : Nat → String} {s : Coordinator R} {futures : List (Nat × String)} {t : Nat} {id : String}
    (howned : Owned owner s futures) (honce : (ids futures).count id ≤ 1) (h : (t, id) ∈ futures) :
    (∀ id', (ids futures).count id' = (ids (popFuture futures t)).count id' + if id' = id then 1 else 0) ∧
      futures.length = (popFuture futures t).length + 1 := by
  have howner : owner t = id := (howned _ h).1
  induction futures with
  | nil => cases h
  | cons f futures ih =>
    have hrest : Owned owner s futures := fun g hg => howned g (List.mem_cons_of_mem f hg)
    by_cases hf : f.1 = t
    · have hid : f.2 = id := by
        rw [← howner, ← hf]
        exact ((howned f List.mem_cons_self).1).symm
      have hnone : popFuture futures t = futures := by
        refine List.filter_eq_self.mpr fun g hg => ?_
        have hne : g.1 ≠ t := by
          intro hg'
          have hgid : g.2 = id := by
            rw [← howner, ← hg']
            exact ((hrest g hg).1).symm
          have hpos : 0 < (ids futures).count id :=
            List.count_pos_iff.mpr (List.mem_map.mpr ⟨g, hg, hgid⟩)
          simp only [ids, List.map_cons, hid, List.count_cons_self] at honce hpos
          omega
        simpa using hne
      have hpop : popFuture (f :: futures) t = futures := by
        rw [← hnone]
        simp [popFuture, hf]
      rw [hpop]
      refine ⟨fun id' => ?_, rfl⟩
      simp only [ids, List.map_cons, hid, List.count_cons, beq_iff_eq, eq_comm (a := id)]
    · have hin : (t, id) ∈ futures := by
        rcases List.mem_cons.mp h with rfl | h
        · exact absurd rfl hf
        · exact h
      have hle : (ids futures).count id ≤ 1 := by
        refine Nat.le_trans ?_ honce
        simp only [ids, List.map_cons]
        exact List.count_le_count_cons
      obtain ⟨hcount, hlength⟩ := ih hrest hle hin
      have hpop : popFuture (f :: futures) t = f :: popFuture futures t := by simp [popFuture, hf]
      rw [hpop]
      refine ⟨fun id' => ?_, by simp [hlength]⟩
      have hc := hcount id'
      simp only [ids, List.map_cons, List.count_cons] at hc ⊢
      omega

/-! ## One replica moves -/

section Moves

variable {cfg}
variable {owner owner' : Nat → String} {s s' : Coordinator R} {a a' : Adjudication R}

/-- A move of one replica: the others keep their places, and it keeps one or leaves its
trace. -/
theorem Placed.next (h : Placed owner s a) (id : String) (hround : Grows a.round a'.round)
    (hwaiting : ∀ x, waiting a' x ≤ waiting a x)
    (hsum : ∀ x, waiting a' x + voting a' x ≤ waiting a x + voting a x)
    (hothers : ∀ x, x ≠ id → waiting a x + voting a x ≤ waiting a' x + voting a' x)
    (hid : 0 < waiting a id + voting a id → 0 < waiting a' id + voting a' id ∨ Accounted a'.round id)
    (hproposals : ∀ x, 0 < waiting a' x → Absent a.round.proposals x → Absent a'.round.proposals x)
    (hvotes : ∀ x, 0 < waiting a' x + voting a' x → Absent a.round.votes x → Absent a'.round.votes x)
    (howned : Owned owner' s' a'.proposalFutures ∧ Owned owner' s' a'.voteFutures ∧ Owned owner' s' a'.busyFutures)
    (hlatest : ∀ f ∈ a'.busyFutures, s'.inflight f.2 = none ∨ s'.inflight f.2 = some f.1)
    (hrestarts : ∀ t ∈ OrchestrationAccounting.restarts a'.control, s'.done t = true)
    (hroom : a'.round.rejections.length +
      2 * ((rest a'.control).length + a'.proposalFutures.length + a'.busyFutures.length) +
      (votingId a'.control).length + a'.voteFutures.length ≤ 6) : Placed owner' s' a' := by
  refine ⟨fun x => (hsum x).trans (h.once x), ?_, ?_, ?_, howned.1, howned.2.1, howned.2.2, hlatest, hrestarts, hroom⟩
  · intro x hx
    rcases h.placed x hx with hpos | hdone
    · by_cases he : x = id
      · rw [he] at hpos ⊢
        exact hid hpos
      · exact .inl (Nat.lt_of_lt_of_le hpos (hothers x he))
    · exact .inr (hround.accounted hdone)
  · intro x hx
    exact hproposals x hx (h.noProposal x (Nat.lt_of_lt_of_le hx (hwaiting x)))
  · intro x hx
    exact hvotes x hx (h.noVote x (Nat.lt_of_lt_of_le hx (hsum x)))

/-- A move of the control that moves no replica. -/
theorem Placed.turn (h : Placed owner s a) {control : Control} (hrest : rest control = rest a.control)
    (hvoting : votingId control = votingId a.control)
    (hrestarts : ∀ t ∈ OrchestrationAccounting.restarts control, s.done t = true) :
    Placed owner s { a with control := control } := by
  have hw : ∀ x, waiting { a with control := control } x = waiting a x := fun x => by
    simp only [waiting, hrest]
  have hv : ∀ x, voting { a with control := control } x = voting a x := fun x => by
    simp only [voting, hvoting]
  refine ⟨fun x => ?_, fun x hx => ?_, fun x hx => ?_, fun x hx => ?_, h.proposals, h.votes, h.busy, h.latest,
    hrestarts, ?_⟩
  · rw [hw, hv]
    exact h.once x
  · rw [hw, hv]
    exact h.placed x hx
  · rw [hw] at hx
    exact h.noProposal x hx
  · rw [hw, hv] at hx
    exact h.noVote x hx
  · simp only [hrest, hvoting]
    exact h.room

theorem Kept.withRunning (h : Kept owner s) (hp : Placed owner s a) : Kept owner (s.withRunning a) := by
  refine ⟨h.tasks, fun a' ha' => ?_, h.deciding, h.returned⟩
  cases ha'
  exact ⟨hp.once, hp.placed, hp.noProposal, hp.noVote, hp.proposals, hp.votes, hp.busy, hp.latest, hp.restarts, hp.room⟩

/-- The state with a new task of the replica, and its owner. -/
def withTask (s : Coordinator R) (id : String) : Coordinator R :=
  { s with
    inflight := fun id' => if id' = id then some s.nextTask else s.inflight id'
    nextTask := s.nextTask + 1 }

def queueOwner (owner : Nat → String) (s : Coordinator R) (id : String) : Nat → String :=
  fun t => if t = s.nextTask then id else owner t

theorem Owned.queued {futures : List (Nat × String)} (h : Owned owner s futures) (id : String) :
    Owned (queueOwner owner s id) (withTask s id) futures := by
  intro f hf
  obtain ⟨howner, hlt⟩ := h f hf
  refine ⟨?_, Nat.lt_succ_of_lt hlt⟩
  unfold queueOwner
  rw [if_neg (Nat.ne_of_lt hlt)]
  exact howner

theorem Owned.queue {futures : List (Nat × String)} (h : Owned owner s futures) (id : String) :
    Owned (queueOwner owner s id) (withTask s id) (futures ++ [(s.nextTask, id)]) := by
  intro f hf
  rcases List.mem_append.mp hf with hf | hf
  · exact h.queued id f hf
  · rw [List.mem_singleton.mp hf]
    exact ⟨if_pos rfl, Nat.lt_succ_self _⟩

theorem Kept.queued_tasks (h : Kept owner s) (id : String) : ∀ id' t, (withTask s id).inflight id' = some t →
    queueOwner owner s id t = id' ∧ t < (withTask s id).nextTask := by
  intro id' t ht
  simp only [withTask] at ht ⊢
  split at ht
  · rename_i he
    cases ht
    exact ⟨(if_pos rfl).trans he.symm, Nat.lt_succ_self _⟩
  · obtain ⟨howner, hlt⟩ := h.tasks id' t ht
    exact ⟨(if_neg (Nat.ne_of_lt hlt)).trans howner, Nat.lt_succ_of_lt hlt⟩

/-- The call goes on after a task of one of its replicas is queued. -/
theorem Kept.queue (h : Kept owner s) {id : String} (hp : Placed (queueOwner owner s id) (withTask s id) a') :
    Kept (queueOwner owner s id) ((withTask s id).withRunning a') := by
  refine ⟨h.queued_tasks id, fun a ha => ?_, h.deciding, h.returned⟩
  cases ha
  exact ⟨hp.once, hp.placed, hp.noProposal, hp.noVote, hp.proposals, hp.votes, hp.busy, hp.latest, hp.restarts, hp.room⟩

/-- The tasks of busy replicas stay the latest when another replica gets one. -/
theorem latest_queued {futures : List (Nat × String)} {id : String} (hnone : (ids futures).count id = 0)
    (h : ∀ f ∈ futures, s.inflight f.2 = none ∨ s.inflight f.2 = some f.1) :
    ∀ f ∈ futures, (withTask s id).inflight f.2 = none ∨ (withTask s id).inflight f.2 = some f.1 := by
  intro f hf
  have hne : f.2 ≠ id := by
    intro he
    have hin : id ∈ ids futures := List.mem_map.mpr ⟨f, hf, he⟩
    exact absurd (List.count_pos_iff.mpr hin) (by omega)
  simp only [withTask, if_neg hne]
  exact h f hf

theorem submit_result {s s' : Coordinator R} {id : String} {answer : Submitted} (h : s.submit id = (s', answer)) :
    (s' = s ∧ (answer = .refused ∧ s.runningTask id ≠ none ∨ answer = .failed)) ∨
    (answer = .queued s.nextTask ∧ s' = withTask s id) := by
  unfold Coordinator.submit at h
  split at h
  · rename_i t ht
    cases h
    refine .inl ⟨rfl, .inl ⟨rfl, ?_⟩⟩
    rw [ht]
    exact Option.some_ne_none t
  · split at h <;> cases h
    · exact .inl ⟨rfl, .inr rfl⟩
    · exact .inr ⟨rfl, rfl⟩

/-- A call that ends by an exception returns no decision. -/
theorem Kept.abandon (h : Kept owner s) : Kept owner (s.abandon a) := by
  refine ⟨h.tasks, ?_, h.deciding, ?_⟩
  · intro a' ha'
    cases ha'
  intro call key d hd
  simp only [Coordinator.abandon, List.mem_append, List.mem_singleton, reduceCtorEq, or_false] at hd
  exact h.returned call key d hd

theorem Kept.startReplica (h : Kept owner s) (ha : s.running = some a) {available : Bool}
    (hs : startReplica s a available = some s') : ∃ owner', Kept owner' s' := by
  have hp := h.running a ha
  unfold OrchestrationCoordinator.startReplica at hs
  split at hs
  · rename_i id after hcontrol
    have hrest : rest a.control = id :: after := by rw [hcontrol]; rfl
    have hvoting : votingId a.control = [] := by rw [hcontrol]; rfl
    have hroom := hp.room
    rw [hrest, hvoting] at hroom
    have hcount : ∀ x, waiting a x = after.count x + (if id = x then 1 else 0) + (ids a.proposalFutures).count x +
        (ids a.busyFutures).count x := by
      intro x
      simp only [waiting, hrest, List.count_cons, beq_iff_eq]
    have hvotes : ∀ x, voting a x = (ids a.voteFutures).count x := by
      intro x
      simp [voting, hvoting]
    split at hs
    · cases hs
      refine ⟨owner, h.withRunning (hp.next id (mark_grows _ _ _) ?_ ?_ ?_ ?_ (fun x _ hx => hx) (fun x _ hx => hx)
        ⟨hp.proposals, hp.votes, hp.busy⟩ hp.latest ?_ ?_)⟩
      · intro x
        rw [hcount]
        simp only [waiting, rest]
        omega
      · intro x
        rw [hcount, hvotes]
        simp only [waiting, voting, rest, votingId, List.count_nil]
        omega
      · intro x hx
        rw [hcount, hvotes, if_neg (Ne.symm hx)]
        simp only [waiting, voting, rest, votingId, List.count_nil]
        omega
      · exact fun _ => .inr (mark_accounted _ _ _)
      · exact fun t ht => absurd ht List.not_mem_nil
      · simp only [List.length_cons, List.length_nil] at hroom
        simp only [DecisionRound.mark, rest, votingId, List.length_nil]
        omega
    · split at hs <;> rename_i hsubmit <;> cases hs
      · rcases submit_result hsubmit with ⟨rfl, -⟩ | ⟨hq, -⟩
        · exact ⟨owner, h.withRunning (hp.turn (by rw [hrest]; rfl) (by rw [hvoting]; rfl)
            (fun t ht => absurd ht List.not_mem_nil))⟩
        · cases hq
      · rename_i t
        rcases submit_result hsubmit with ⟨-, ⟨hq, -⟩ | hq⟩ | ⟨hq, rfl⟩
        · cases hq
        · cases hq
        · cases hq
          refine ⟨_, h.queue (hp.next id ⟨fun e he => he, fun x hx => hx, fun m x hx => hx⟩ ?_ ?_ ?_ ?_
            (fun x _ hx => hx) (fun x _ hx => hx)
            ⟨hp.proposals.queue id, hp.votes.queued id, hp.busy.queued id⟩ (latest_queued ?_ hp.latest) ?_ ?_)⟩
          · intro x
            rw [hcount]
            simp only [waiting, rest, ids, List.map_append, List.map_cons, List.map_nil, List.count_append,
              List.count_cons, List.count_nil, beq_iff_eq]
            omega
          · intro x
            rw [hcount, hvotes]
            simp only [waiting, voting, rest, votingId, ids, List.map_append, List.map_cons, List.map_nil,
              List.count_append, List.count_cons, List.count_nil, beq_iff_eq]
            omega
          · intro x _
            rw [hcount, hvotes]
            simp only [waiting, voting, rest, votingId, ids, List.map_append, List.map_cons, List.map_nil,
              List.count_append, List.count_cons, List.count_nil, beq_iff_eq]
            omega
          · intro _
            left
            simp only [waiting, ids, List.map_append, List.map_cons, List.map_nil, List.count_append,
              List.count_cons_self]
            omega
          · change (ids a.busyFutures).count id = 0
            have honce := hp.once id
            rw [hcount, if_pos rfl] at honce
            omega
          · exact fun t ht => absurd ht List.not_mem_nil
          · simp only [List.length_cons, List.length_nil] at hroom
            simp only [rest, votingId, List.length_append, List.length_singleton, List.length_nil]
            omega
      · rcases submit_result hsubmit with ⟨rfl, -⟩ | ⟨hq, -⟩
        · exact ⟨owner, h.abandon⟩
        · cases hq
  · cases hs

theorem runningTask_some {id : String} {t : Nat} (h : s.runningTask id = some t) : s.inflight id = some t := by
  unfold Coordinator.runningTask at h
  split at h
  · split at h
    · cases h
    · rename_i ht _
      rw [ht]
      exact h
  · cases h

theorem Kept.lookUp (h : Kept owner s) (ha : s.running = some a) (hbusy : StillBusy s (.lookUp : Action R))
    (hs : lookUp s a = some s') : Kept owner s' := by
  have hp := h.running a ha
  unfold OrchestrationCoordinator.lookUp at hs
  split at hs
  · rename_i id after hcontrol
    split at hs
    · rename_i t ht
      cases hs
      have hinflight := runningTask_some ht
      have hrest : rest a.control = id :: after := by rw [hcontrol]; rfl
      have hvoting : votingId a.control = [] := by rw [hcontrol]; rfl
      have hroom := hp.room
      rw [hrest, hvoting] at hroom
      have hw : ∀ x, waiting { a with busyFutures := a.busyFutures ++ [(t, id)], control := .submitting after } x =
          waiting a x := by
        intro x
        simp only [waiting, hcontrol, rest, ids, List.map_append, List.map_cons, List.map_nil, List.count_append,
          List.count_cons, List.count_nil, beq_iff_eq]
        omega
      have hv : ∀ x, voting { a with busyFutures := a.busyFutures ++ [(t, id)], control := .submitting after } x =
          voting a x := by
        intro x
        simp only [voting, hcontrol, votingId]
      refine h.withRunning (hp.next id ⟨fun e he => he, fun x hx => hx, fun m x hx => hx⟩ (fun x => (hw x).le)
        (fun x => by rw [hw, hv]) (fun x _ => by rw [hw, hv]) (fun hpos => .inl (by rw [hw, hv]; exact hpos))
        (fun x _ hx => hx) (fun x _ hx => hx) ⟨hp.proposals, hp.votes, ?_⟩ ?_ (fun t ht => absurd ht List.not_mem_nil) ?_)
      · intro f hf
        rcases List.mem_append.mp hf with hf | hf
        · exact hp.busy f hf
        · rw [List.mem_singleton.mp hf]
          exact h.tasks id t hinflight
      · intro f hf
        rcases List.mem_append.mp hf with hf | hf
        · exact hp.latest f hf
        · rw [List.mem_singleton.mp hf]
          exact .inr hinflight
      · simp only [List.length_cons, List.length_nil] at hroom
        simp only [rest, votingId, List.length_append, List.length_singleton, List.length_nil]
        omega
    · rename_i hnone
      exact absurd hnone (hbusy a id after ha hcontrol)
  · cases hs

theorem atLoop_rest {control : Control} (h : control.atLoop = true) : rest control = [] ∧ votingId control = [] := by
  unfold Control.atLoop at h
  split at h
  · exact ⟨rfl, rfl⟩
  · exact ⟨rfl, rfl⟩
  · cases h

theorem Kept.wait (h : Kept owner s) (ha : s.running = some a) {expired : Bool} {completed : List Nat}
    (hs : wait s a expired completed = some s') : Kept owner s' := by
  have hp := h.running a ha
  unfold OrchestrationCoordinator.wait at hs
  split at hs
  · rename_i hloop
    obtain ⟨hrest, hvoting⟩ := atLoop_rest hloop
    split at hs
    · cases hs
      exact h.withRunning (hp.turn hrest.symm hvoting.symm fun t ht => absurd ht List.not_mem_nil)
    · split at hs
      · rename_i hdone
        cases hs
        refine h.withRunning (hp.turn hrest.symm hvoting.symm fun t ht => ?_)
        have hin := (List.mem_filter.mp ht).1
        have hall := List.all_eq_true.mp hdone t hin
        simp only [Bool.and_eq_true] at hall
        exact hall.2
      · cases hs
  · cases hs

theorem Kept.collect (h : Kept owner s) (ha : s.running = some a) {completed : List Nat}
    (hs : collect s a completed = some s') : Kept owner s' := by
  have hp := h.running a ha
  unfold OrchestrationCoordinator.collect at hs
  split at hs
  · rename_i hcontrol
    split at hs
    · cases hs
      exact h.withRunning (hp.turn (by rw [hcontrol]; rfl) (by rw [hcontrol]; rfl)
        fun t ht => absurd ht List.not_mem_nil)
    · cases hs
  · rename_i hcontrol
    cases hs
    exact h.withRunning (hp.turn (by rw [hcontrol]; rfl) (by rw [hcontrol]; rfl)
      fun t ht => absurd ht List.not_mem_nil)
  · cases hs

/-- A replica that is popped from the proposals leaves its trace or goes on to its vote. -/
theorem Placed.consumed (h : Placed owner s a) {t : Nat} {todo : List Nat} {after : After} {id : String}
    (hcontrol : a.control = .consuming (t :: todo) after) (hin : (t, id) ∈ a.proposalFutures)
    {round : DecisionRound R} (hround : Grows a.round round) (hvotes : round.votes = a.round.votes)
    (hproposals : ∀ x, x ≠ id → Absent a.round.proposals x → Absent round.proposals x)
    {control : Control} (hcase : (control = .consuming todo after ∧ Accounted round id ∧
        round.rejections.length ≤ a.round.rejections.length + 1) ∨
      (control = .voting id todo after ∧ round.rejections = a.round.rejections)) :
    Placed owner s { a with proposalFutures := popFuture a.proposalFutures t, round := round, control := control } := by
  have hrest : rest a.control = [] := by rw [hcontrol]; rfl
  have hvoting : votingId a.control = [] := by rw [hcontrol]; rfl
  have hrestarts : OrchestrationAccounting.restarts a.control = restartsAfter after := by rw [hcontrol]; rfl
  have honce := h.once
  have hone := honce id
  simp only [waiting, hrest, List.count_nil] at hone
  obtain ⟨hpop, hlength⟩ := pop_count h.proposals (by omega) hin
  have hroom := h.room
  rw [hrest, hvoting, hlength, List.length_nil] at hroom
  have hw : ∀ x, waiting a x = (ids (popFuture a.proposalFutures t)).count x + (if x = id then 1 else 0) +
      (ids a.busyFutures).count x := by
    intro x
    simp only [waiting, hrest, hpop x, List.count_nil]
    omega
  have hv : ∀ x, voting a x = (ids a.voteFutures).count x := by
    intro x
    simp [voting, hvoting]
  have hfree : ∀ x, 0 < (ids (popFuture a.proposalFutures t)).count x + (ids a.busyFutures).count x → x ≠ id := by
    rintro x hpos rfl
    have hx := honce x
    rw [hw, if_pos rfl] at hx
    omega
  have howned : Owned owner s (popFuture a.proposalFutures t) := fun f hf =>
    h.proposals f ((pop_sublist _ _).subset hf)
  rcases hcase with ⟨rfl, htrace, hrejected⟩ | ⟨rfl, hsame⟩
  · refine h.next id hround ?_ ?_ ?_ (fun _ => .inr htrace) ?_ (fun x _ hx => by rw [hvotes]; exact hx)
      ⟨howned, h.votes, h.busy⟩ h.latest (fun t ht => h.restarts t (by rw [hrestarts]; exact ht)) ?_
    · intro x
      rw [hw]
      simp only [waiting, rest, List.count_nil]
      omega
    · intro x
      rw [hw, hv]
      simp only [waiting, voting, rest, votingId, List.count_nil]
      omega
    · intro x hx
      rw [hw, hv, if_neg hx]
      simp only [waiting, voting, rest, votingId, List.count_nil]
      omega
    · intro x hpos
      simp only [waiting, rest, List.count_nil, Nat.zero_add] at hpos
      exact hproposals x (hfree x hpos)
    · simp only [rest, votingId, List.length_nil]
      omega
  · refine h.next id hround ?_ ?_ ?_ ?_ ?_ (fun x _ hx => by rw [hvotes]; exact hx)
      ⟨howned, h.votes, h.busy⟩ h.latest (fun t ht => h.restarts t (by rw [hrestarts]; exact ht)) ?_
    · intro x
      rw [hw]
      simp only [waiting, rest, List.count_nil]
      omega
    · intro x
      rw [hw, hv]
      simp only [waiting, voting, rest, votingId, List.count_nil, List.count_cons, beq_iff_eq, eq_comm (a := id)]
      omega
    · intro x hx
      rw [hw, hv, if_neg hx]
      simp only [waiting, voting, rest, votingId, List.count_nil]
      omega
    · intro _
      left
      simp only [voting, votingId, List.count_cons_self]
      omega
    · intro x hpos
      simp only [waiting, rest, List.count_nil, Nat.zero_add] at hpos
      exact hproposals x (hfree x hpos)
    · simp only [rest, votingId, List.length_nil, List.length_singleton, hsame]
      omega

theorem Kept.withCache (h : Kept owner s) (cache : BoundedReplayCache) : Kept owner { s with cache := cache } := by
  refine ⟨h.tasks, fun a' ha' => ?_, h.deciding, h.returned⟩
  have hp := h.running a' ha'
  exact ⟨hp.once, hp.placed, hp.noProposal, hp.noVote, hp.proposals, hp.votes, hp.busy, hp.latest, hp.restarts, hp.room⟩

theorem reject_growth {r : DecisionRound R} (phase : Phase) (m : Envelope R.floats) (reason : Reason) (detail : String)
    (hroom : r.rejections.length < maxRejections) :
    Grows r (r.reject phase m reason detail) ∧ Accounted (r.reject phase m reason detail) m.orchestratorId ∧
      (r.reject phase m reason detail).rejections.length = r.rejections.length + 1 := by
  have hsame := reject_grows phase m reason detail hroom
  refine ⟨⟨fun e he => he, fun x hx => ?_, fun m x hx => hx⟩, .inr (.inl ?_), ?_⟩
  · rw [hsame]
    exact List.mem_append_left _ hx
  · rw [hsame]
    exact ⟨_, List.mem_append_right _ (List.mem_singleton.mpr rfl), rfl⟩
  · rw [hsame, List.length_append, List.length_singleton]

theorem Kept.consumeProposal (h : Kept owner s) (ha : s.running = some a) {answer : Except TaskError (Proposal R)}
    (hfresh : FreshAnswers cfg s (.consumeProposal answer)) (hs : consumeProposal cfg s a answer = some s') :
    Kept owner s' := by
  have hp := h.running a ha
  unfold OrchestrationCoordinator.consumeProposal at hs
  split at hs
  · rename_i t todo after hcontrol
    split at hs
    · cases hs
    · rename_i id hreplica
      have hin := replicaOf_mem hreplica
      cases answer with
      | error e =>
        cases hs
        exact h.withRunning (hp.consumed hcontrol hin (mark_grows _ _ _) rfl (fun x _ hx => hx)
          (.inl ⟨rfl, mark_accounted _ _ _, Nat.le_succ _⟩))
      | ok m =>
        obtain ⟨hsender, hnew⟩ := hfresh a t todo after id ha hcontrol hreplica
        have hpos : 0 < waiting a id := by
          have hmem : id ∈ ids a.proposalFutures := List.mem_map.mpr ⟨_, hin, rfl⟩
          have hcount := List.count_pos_iff.mpr hmem
          simp only [waiting]
          omega
        have habsent : Absent a.round.proposals m.orchestratorId := by
          rw [hsender]
          exact hp.noProposal id hpos
        have hspace : a.round.rejections.length < maxRejections := by
          have hroom := hp.room
          unfold maxRejections
          omega
        rcases acceptProposal_fresh cfg.keys habsent hnew with
          ⟨hstatus, hround⟩ | ⟨reason, detail, hstatus, hround⟩
        · simp only [hstatus, if_true, hround] at hs
          cases hs
          refine (h.withCache _).withRunning ?_
          have hgrows : Grows a.round { a.round with proposals := a.round.proposals ++ [(m.orchestratorId, m)] } :=
            ⟨fun e he => he, fun x hx => hx, fun m x hx => hx⟩
          have hnext := hp.consumed hcontrol hin hgrows rfl ?_ (.inr ⟨rfl, rfl⟩)
          · exact ⟨hnext.once, hnext.placed, hnext.noProposal, hnext.noVote, hnext.proposals, hnext.votes, hnext.busy,
              hnext.latest, hnext.restarts, hnext.room⟩
          · intro x hx hxabsent e he
            rcases List.mem_append.mp he with he | he
            · exact hxabsent e he
            · rw [List.mem_singleton.mp he, hsender]
              exact hx.symm
        · obtain ⟨hgrows, htrace, hlength⟩ := reject_growth .proposal m.toEnvelope reason detail hspace
          rw [hsender] at htrace
          simp only [hstatus, reduceCtorEq, if_false, hround] at hs
          cases hs
          refine (h.withCache _).withRunning ?_
          have hnext := hp.consumed hcontrol hin hgrows rfl (fun x _ hx => hx) (.inl ⟨rfl, htrace, hlength.le⟩)
          exact ⟨hnext.once, hnext.placed, hnext.noProposal, hnext.noVote, hnext.proposals, hnext.votes, hnext.busy,
            hnext.latest, hnext.restarts, hnext.room⟩
  · cases hs

/-- A replica that is popped from the votes leaves its trace. -/
theorem Placed.voted (h : Placed owner s a) {t : Nat} {todo : List Nat} {after : After} {id : String}
    (hcontrol : a.control = .consuming (t :: todo) after) (hin : (t, id) ∈ a.voteFutures)
    {round : DecisionRound R} (hround : Grows a.round round) (hproposals : round.proposals = a.round.proposals)
    (hvotes : ∀ x, x ≠ id → Absent a.round.votes x → Absent round.votes x) (htrace : Accounted round id)
    (hrejected : round.rejections.length ≤ a.round.rejections.length + 1) :
    Placed owner s { a with
      voteFutures := popFuture a.voteFutures t, round := round, control := .consuming todo after } := by
  have hrest : rest a.control = [] := by rw [hcontrol]; rfl
  have hvoting : votingId a.control = [] := by rw [hcontrol]; rfl
  have hrestarts : OrchestrationAccounting.restarts a.control = restartsAfter after := by rw [hcontrol]; rfl
  have honce := h.once
  have hone := honce id
  simp only [voting, hvoting, List.count_nil] at hone
  obtain ⟨hpop, hlength⟩ := pop_count h.votes (by omega) hin
  have hroom := h.room
  rw [hrest, hvoting, hlength, List.length_nil] at hroom
  have hw : ∀ x, waiting a x = (ids a.proposalFutures).count x + (ids a.busyFutures).count x := by
    intro x
    simp [waiting, hrest]
  have hv : ∀ x, voting a x = (ids (popFuture a.voteFutures t)).count x + (if x = id then 1 else 0) := by
    intro x
    simp only [voting, hvoting, hpop x, List.count_nil]
    omega
  refine h.next id hround ?_ ?_ ?_ (fun _ => .inr htrace) (fun x _ hx => by rw [hproposals]; exact hx) ?_
    ⟨h.proposals, fun f hf => h.votes f ((pop_sublist _ _).subset hf), h.busy⟩ h.latest
    (fun t ht => h.restarts t (by rw [hrestarts]; exact ht)) ?_
  · intro x
    rw [hw]
    simp only [waiting, rest, List.count_nil]
    omega
  · intro x
    rw [hw, hv]
    simp only [waiting, voting, rest, votingId, List.count_nil]
    omega
  · intro x hx
    rw [hw, hv, if_neg hx]
    simp only [waiting, voting, rest, votingId, List.count_nil]
    omega
  · intro x hpos
    simp only [waiting, voting, rest, votingId, List.count_nil, Nat.zero_add] at hpos
    refine hvotes x ?_
    rintro rfl
    have hx := honce x
    rw [hw, hv, if_pos rfl] at hx
    omega
  · simp only [rest, votingId, List.length_nil]
    omega

theorem Kept.consumeVote (h : Kept owner s) (ha : s.running = some a) {answer : Except TaskError (Vote R)}
    (hfresh : FreshAnswers cfg s (.consumeVote answer)) (hs : consumeVote cfg s a answer = some s') :
    Kept owner s' := by
  have hp := h.running a ha
  unfold OrchestrationCoordinator.consumeVote at hs
  split at hs
  · rename_i t todo after hcontrol
    split at hs
    · cases hs
    · split at hs
      · cases hs
        exact h.withRunning (hp.turn (by rw [hcontrol]; rfl) (by rw [hcontrol]; rfl)
          fun t ht => hp.restarts t (by rw [hcontrol]; exact ht))
      · rename_i id hreplica
        have hin := replicaOf_mem hreplica
        cases answer with
        | error e =>
          cases hs
          exact h.withRunning (hp.voted hcontrol hin (mark_grows _ _ _) rfl (fun x _ hx => hx)
            (mark_accounted _ _ _) (Nat.le_succ _))
        | ok m =>
          obtain ⟨hsender, hnew⟩ := hfresh a t todo after id ha hcontrol hreplica
          have hpos : 0 < waiting a id + voting a id := by
            have hmem : id ∈ ids a.voteFutures := List.mem_map.mpr ⟨_, hin, rfl⟩
            have hcount := List.count_pos_iff.mpr hmem
            simp only [voting]
            omega
          have habsent : Absent a.round.votes m.orchestratorId := by
            rw [hsender]
            exact hp.noVote id hpos
          have hspace : a.round.rejections.length < maxRejections := by
            have hroom := hp.room
            unfold maxRejections
            omega
          rcases acceptVote_fresh cfg.keys habsent hnew with
            hround | ⟨reason, detail, hround⟩
          · simp only [hround] at hs
            cases hs
            refine (h.withCache _).withRunning ?_
            have hgrows : Grows a.round { a.round with
                votes := a.round.votes ++ [(m.orchestratorId, m)]
                quorumDigest := latch (a.round.votes ++ [(m.orchestratorId, m)]) a.round.quorumDigest } :=
              ⟨fun e he => List.mem_append_left _ he, fun x hx => hx, fun m x hx => hx⟩
            have hnext := hp.voted hcontrol hin hgrows rfl ?_
              (.inl ⟨_, List.mem_append_right _ (List.mem_singleton.mpr rfl), hsender⟩) (Nat.le_succ _)
            · exact ⟨hnext.once, hnext.placed, hnext.noProposal, hnext.noVote, hnext.proposals, hnext.votes, hnext.busy,
                hnext.latest, hnext.restarts, hnext.room⟩
            · intro x hx hxabsent e he
              rcases List.mem_append.mp he with he | he
              · exact hxabsent e he
              · rw [List.mem_singleton.mp he, hsender]
                exact hx.symm
          · obtain ⟨hgrows, htrace, hlength⟩ := reject_growth .vote m.toEnvelope reason detail hspace
            rw [hsender] at htrace
            simp only [hround] at hs
            cases hs
            refine (h.withCache _).withRunning ?_
            have hnext := hp.voted hcontrol hin hgrows rfl (fun x _ hx => hx) htrace hlength.le
            exact ⟨hnext.once, hnext.placed, hnext.noProposal, hnext.noVote, hnext.proposals, hnext.votes, hnext.busy,
              hnext.latest, hnext.restarts, hnext.room⟩
  · cases hs

/-- The replica of a counted proposal whose vote is not submitted leaves its trace. -/
theorem Placed.unsubmitted (h : Placed owner s a) {id : String} {todo : List Nat} {after : After}
    (hcontrol : a.control = .voting id todo after) (m : Mark) :
    Placed owner s { a with round := a.round.mark m id, control := .consuming todo after } := by
  have hrest : rest a.control = [] := by rw [hcontrol]; rfl
  have hvoting : votingId a.control = [id] := by rw [hcontrol]; rfl
  have hrestarts : OrchestrationAccounting.restarts a.control = restartsAfter after := by rw [hcontrol]; rfl
  have hroom := h.room
  rw [hrest, hvoting, List.length_nil, List.length_singleton] at hroom
  refine h.next id (mark_grows _ _ _) ?_ ?_ ?_ (fun _ => .inr (mark_accounted _ _ _)) (fun x _ hx => hx)
    (fun x _ hx => hx) ⟨h.proposals, h.votes, h.busy⟩ h.latest
    (fun t ht => h.restarts t (by rw [hrestarts]; exact ht)) ?_
  · intro x
    simp [waiting, hcontrol, rest]
  · intro x
    simp [waiting, voting, hcontrol, rest, votingId]
  · intro x hx
    simp [waiting, voting, hcontrol, rest, votingId, hx.symm]
  · simp only [DecisionRound.mark, rest, votingId, List.length_nil]
    omega

theorem Kept.submitVote (h : Kept owner s) (ha : s.running = some a) (hs : submitVote s a = some s') :
    ∃ owner', Kept owner' s' := by
  have hp := h.running a ha
  unfold OrchestrationCoordinator.submitVote at hs
  split at hs
  · rename_i id todo after hcontrol
    split at hs <;> rename_i hsubmit <;> cases hs
    · rcases submit_result hsubmit with ⟨rfl, -⟩ | ⟨hq, -⟩
      · exact ⟨owner, h.withRunning (hp.unsubmitted hcontrol .delayed)⟩
      · cases hq
    · rename_i t
      rcases submit_result hsubmit with ⟨-, ⟨hq, -⟩ | hq⟩ | ⟨hq, rfl⟩
      · cases hq
      · cases hq
      · cases hq
        have hrestarts : OrchestrationAccounting.restarts a.control = restartsAfter after := by rw [hcontrol]; rfl
        have hroom := hp.room
        rw [show rest a.control = [] by rw [hcontrol]; rfl, show votingId a.control = [id] by rw [hcontrol]; rfl,
          List.length_nil, List.length_singleton] at hroom
        refine ⟨_, h.queue (hp.next id ⟨fun e he => he, fun x hx => hx, fun m x hx => hx⟩ ?_ ?_ ?_ ?_
          (fun x _ hx => hx) (fun x _ hx => hx)
          ⟨hp.proposals.queued id, hp.votes.queue id, hp.busy.queued id⟩ (latest_queued ?_ hp.latest)
          (fun t ht => hp.restarts t (by rw [hrestarts]; exact ht)) ?_)⟩
        · intro x
          simp [waiting, hcontrol, rest]
        · intro x
          simp only [waiting, voting, hcontrol, rest, votingId, ids, List.map_append, List.map_cons, List.map_nil,
            List.count_append, List.count_cons, List.count_nil, beq_iff_eq]
          omega
        · intro x _
          simp only [waiting, voting, hcontrol, rest, votingId, ids, List.map_append, List.map_cons, List.map_nil,
            List.count_append, List.count_cons, List.count_nil, beq_iff_eq]
          omega
        · intro _
          left
          simp only [voting, ids, List.map_append, List.map_cons, List.map_nil, List.count_append,
            List.count_cons_self]
          omega
        · change (ids a.busyFutures).count id = 0
          have honce := hp.once id
          simp only [waiting, voting, hcontrol, votingId, List.count_cons_self] at honce
          omega
        · simp only [rest, votingId, List.length_append, List.length_singleton, List.length_nil]
          omega
    · rcases submit_result hsubmit with ⟨rfl, -⟩ | ⟨hq, -⟩
      · exact ⟨owner, h.withRunning (hp.unsubmitted hcontrol .omitted)⟩
      · cases hq
  · cases hs

/-- A replica whose earlier task has completed is started anew. -/
theorem Placed.restarted (h : Placed owner s a) {t : Nat} {todo : List Nat} {id : String}
    (hcontrol : a.control = .restarting (t :: todo)) (hin : (t, id) ∈ a.busyFutures) :
    Placed (queueOwner owner s id) (withTask s id) { a with
      busyFutures := popFuture a.busyFutures t
      proposalFutures := a.proposalFutures ++ [(s.nextTask, id)]
      control := .restarting todo } := by
  have hone := h.once id
  simp only [waiting] at hone
  obtain ⟨hpop, hlength⟩ := pop_count h.busy (by omega) hin
  have hroom := h.room
  rw [show rest a.control = [] by rw [hcontrol]; rfl, show votingId a.control = [] by rw [hcontrol]; rfl, hlength,
    List.length_nil] at hroom
  have hrestarts : OrchestrationAccounting.restarts a.control = t :: todo := by rw [hcontrol]; rfl
  have hpopped : Owned owner s (popFuture a.busyFutures t) := fun f hf => h.busy f ((pop_sublist _ _).subset hf)
  refine h.next id ⟨fun e he => he, fun x hx => hx, fun m x hx => hx⟩ ?_ ?_ ?_ ?_ (fun x _ hx => hx)
    (fun x _ hx => hx) ⟨h.proposals.queue id, h.votes.queued id, hpopped.queued id⟩
    (latest_queued ?_ fun f hf => h.latest f ((pop_sublist _ _).subset hf))
    (fun t' ht => h.restarts t' (by rw [hrestarts]; exact List.mem_cons_of_mem _ ht)) ?_
  · intro x
    have hx := hpop x
    simp only [ids] at hx
    simp only [waiting, hcontrol, rest, ids, List.map_append, List.map_cons, List.map_nil, List.count_append,
      List.count_cons, List.count_nil, beq_iff_eq, eq_comm (a := id)]
    omega
  · intro x
    have hx := hpop x
    simp only [ids] at hx
    simp only [waiting, voting, hcontrol, rest, votingId, ids, List.map_append, List.map_cons, List.map_nil,
      List.count_append, List.count_cons, List.count_nil, beq_iff_eq, eq_comm (a := id)]
    omega
  · intro x hne
    have hx := hpop x
    rw [if_neg hne] at hx
    simp only [ids] at hx
    simp only [waiting, voting, hcontrol, rest, votingId, ids, List.map_append, List.map_cons, List.map_nil,
      List.count_append, List.count_cons, List.count_nil]
    omega
  · intro _
    left
    simp only [waiting, ids, List.map_append, List.map_cons, List.map_nil, List.count_append, List.count_cons_self]
    omega
  · change (ids (popFuture a.busyFutures t)).count id = 0
    have hid := hpop id
    rw [if_pos rfl] at hid
    omega
  · simp only [rest, votingId, List.length_append, List.length_singleton, List.length_nil]
    omega

theorem Kept.restart (h : Kept owner s) (ha : s.running = some a) (hs : restart s a = some s') :
    ∃ owner', Kept owner' s' := by
  have hp := h.running a ha
  unfold OrchestrationCoordinator.restart at hs
  split at hs
  · rename_i todo hcontrol
    cases hs
    exact ⟨owner, h.withRunning (hp.turn (by rw [hcontrol]; rfl) (by rw [hcontrol]; rfl)
      fun t ht => hp.restarts t (by rw [hcontrol]; exact ht))⟩
  · rename_i hcontrol
    cases hs
    exact ⟨owner, h.withRunning (hp.turn (by rw [hcontrol]; rfl) (by rw [hcontrol]; rfl)
      fun t ht => absurd ht List.not_mem_nil)⟩
  · rename_i t todo hcontrol
    split at hs
    · cases hs
      exact ⟨owner, h.withRunning (hp.turn (by rw [hcontrol]; rfl) (by rw [hcontrol]; rfl)
        fun t' ht => hp.restarts t' (by rw [hcontrol]; exact List.mem_cons_of_mem t ht))⟩
    · rename_i id hreplica
      have hin := replicaOf_mem hreplica
      -- the task has completed, and it is the replica's latest: nothing of it is running
      have hidle : s.runningTask id = none := by
        have hdone := hp.restarts t (by rw [hcontrol]; exact List.mem_cons_self)
        unfold Coordinator.runningTask
        rcases hp.latest _ hin with hnone | hsome
        · rw [hnone]
        · rw [hsome]
          simp [hdone]
      split at hs <;> rename_i hsubmit <;> cases hs
      · rcases submit_result hsubmit with ⟨-, ⟨-, hbusy⟩ | hf⟩ | ⟨hq, -⟩
        · exact absurd hidle hbusy
        · cases hf
        · cases hq
      · rcases submit_result hsubmit with ⟨-, ⟨hq, -⟩ | hq⟩ | ⟨hq, rfl⟩
        · cases hq
        · cases hq
        · cases hq
          exact ⟨_, h.queue (hp.restarted hcontrol hin)⟩
      · rcases submit_result hsubmit with ⟨rfl, -⟩ | ⟨hq, -⟩
        · exact ⟨owner, h.abandon⟩
        · cases hq
  · cases hs

/-- Marking one replica after the other keeps every trace and leaves one of each. -/
theorem marked_accounted (marked : Mark) (futures : List String) (r : DecisionRound R) :
    Grows r (futures.foldl (fun r id => r.mark marked id) r) ∧
      ∀ id ∈ futures, Accounted (futures.foldl (fun r id => r.mark marked id) r) id := by
  induction futures generalizing r with
  | nil => exact ⟨⟨fun e he => he, fun x hx => hx, fun m x hx => hx⟩, fun id hid => absurd hid List.not_mem_nil⟩
  | cons x futures ih =>
    obtain ⟨hgrows, hall⟩ := ih (r.mark marked x)
    have hfirst := mark_grows r marked x
    refine ⟨⟨fun e he => hgrows.votes e (hfirst.votes e he), fun y hy => hgrows.rejections y (hfirst.rejections y hy),
      fun m id hid => hgrows.marked m id (hfirst.marked m id hid)⟩, fun id hid => ?_⟩
    rcases List.mem_cons.mp hid with rfl | hid
    · exact hgrows.accounted (mark_accounted _ _ _)
    · exact hall id hid

theorem Kept.conclude (h : Kept owner s) (ha : s.running = some a) {expired : Bool}
    (hs : conclude s a expired = some s') : Kept owner s' := by
  have hp := h.running a ha
  unfold OrchestrationCoordinator.conclude at hs
  split at hs
  · rename_i hcontrol
    cases hs
    refine ⟨h.tasks, ?_, ?_, h.returned⟩
    · intro a' ha'
      cases ha'
    · intro d hd id hid
      rcases List.mem_append.mp hd with hd | hd
      · exact h.deciding d hd id hid
      · rw [List.mem_singleton.mp hd]
        obtain ⟨hgrows, hall⟩ := marked_accounted (if expired then .timedOut else .delayed)
          ((a.proposalFutures ++ a.voteFutures ++ a.busyFutures).map Prod.snd).dedup a.round
        have hclosed : ∀ r : DecisionRound R, Accounted r id → Accounted r.close id := fun r hr => hr
        refine hclosed _ ?_
        rcases hp.placed id hid with hpos | hdone
        · refine hall id (List.mem_dedup.mpr ?_)
          simp only [waiting, voting, hcontrol, rest, votingId, List.count_nil, ids] at hpos
          rw [← List.count_pos_iff]
          simp only [List.map_append, List.count_append]
          omega
        · exact hgrows.accounted hdone
  · cases hs

theorem Kept.move (h : Kept owner s) (ha : s.running = some a) {c : Action R} (hbusy : StillBusy s c)
    (hfresh : FreshAnswers cfg s c) (hs : move cfg s a c = some s') : ∃ owner', Kept owner' s' := by
  cases c with
  | startReplica available => exact h.startReplica ha hs
  | lookUp => exact ⟨owner, h.lookUp ha hbusy hs⟩
  | wait expired completed => exact ⟨owner, h.wait ha hs⟩
  | consumeProposal answer => exact ⟨owner, h.consumeProposal ha hfresh hs⟩
  | consumeVote answer => exact ⟨owner, h.consumeVote ha hfresh hs⟩
  | submitVote => exact h.submitVote ha hs
  | restart => exact h.restart ha hs
  | collect completed => exact ⟨owner, h.collect ha hs⟩
  | conclude expired => exact ⟨owner, h.conclude ha hs⟩
  | adjudicate request => cases hs
  | decide call => cases hs
  | preflight request => cases hs
  | complete task => cases hs
  | clearInflight id task => cases hs
  | shutdown => cases hs
  | shutdownExecutors => cases hs

/-! ## The other steps -/

/-- A step that leaves the tasks, the call with the lock and the decisions. -/
theorem Kept.frame (h : Kept owner s) (htasks : s'.inflight = s.inflight ∧ s'.done = s.done ∧ s'.nextTask = s.nextTask)
    (hrunning : s'.running = s.running) (hdeciding : s'.deciding = s.deciding)
    (hlog : ∀ call key d, .returned call key d ∈ s'.log → .returned call key d ∈ s.log) : Kept owner s' := by
  obtain ⟨hinflight, hdone, hnext⟩ := htasks
  have howned : ∀ futures, Owned owner s futures → Owned owner s' futures := by
    intro futures hf f hin
    rw [hnext]
    exact hf f hin
  refine ⟨?_, ?_, ?_, fun call key d hd => h.returned call key d (hlog call key d hd)⟩
  · rw [hinflight, hnext]
    exact h.tasks
  · intro a ha
    rw [hrunning] at ha
    have hp := h.running a ha
    refine ⟨hp.once, hp.placed, hp.noProposal, hp.noVote, howned _ hp.proposals, howned _ hp.votes, howned _ hp.busy, ?_,
      ?_, hp.room⟩
    · rw [hinflight]
      exact hp.latest
    · rw [hdone]
      exact hp.restarts
  · rw [hdeciding]
    exact h.deciding

/-- A call that begins has all its replicas before it. -/
theorem placed_start (call : Nat) (key : RoundKey) (request : Request R) :
    Placed owner s ⟨call, key, .start request, [], [], [], .submitting cfg.replicas⟩ := by
  have hcount : ∀ id, cfg.replicas.count id = orchestratorIds.count id := fun id => cfg.replicas_ids.count_eq id
  have hnodup : orchestratorIds.Nodup := by decide
  have hw : ∀ id, waiting (⟨call, key, .start request, [], [], [], .submitting cfg.replicas⟩ : Adjudication R) id =
      orchestratorIds.count id := by
    intro id
    simp [waiting, rest, ids, hcount]
  have hv : ∀ id, voting (⟨call, key, .start request, [], [], [], .submitting cfg.replicas⟩ : Adjudication R) id = 0 := by
    intro id
    simp [voting, votingId, ids]
  refine ⟨fun id => ?_, fun id hid => .inl ?_, fun id _ e he => absurd he List.not_mem_nil,
    fun id _ e he => absurd he List.not_mem_nil, fun f hf => absurd hf List.not_mem_nil,
    fun f hf => absurd hf List.not_mem_nil, fun f hf => absurd hf List.not_mem_nil,
    fun f hf => absurd hf List.not_mem_nil, fun t ht => absurd ht List.not_mem_nil, ?_⟩
  · rw [hw, hv]
    exact List.nodup_iff_count_le_one.mp hnodup id
  · rw [hw]
    exact Nat.lt_of_lt_of_le (List.count_pos_iff.mpr hid) (Nat.le_add_right _ _)
  · have hlength : cfg.replicas.length = 3 := cfg.replicas_ids.length_eq
    simp [rest, votingId, hlength, DecisionRound.start]

theorem Kept.adjudicate (h : Kept owner s) (request : Request R) : Kept owner (adjudicate cfg s request) := by
  unfold OrchestrationCoordinator.adjudicate
  simp only
  split
  · exact h.frame ⟨rfl, rfl, rfl⟩ rfl rfl (fun call key d hd => by simpa using hd)
  · split
    · exact h.frame ⟨rfl, rfl, rfl⟩ rfl rfl (fun call key d hd => by simpa using hd)
    · split
      · exact h.frame ⟨rfl, rfl, rfl⟩ rfl rfl (fun call key d hd => by simpa using hd)
      · refine ⟨h.tasks, fun a ha => ?_, h.deciding, fun call key d hd => h.returned call key d (by simpa using hd)⟩
        cases ha
        exact placed_start _ _ _

theorem Kept.preflight (h : Kept owner s) (request : Request R) : Kept owner (preflight cfg s request) := by
  unfold OrchestrationCoordinator.preflight
  simp only
  split
  · exact h.frame ⟨rfl, rfl, rfl⟩ rfl rfl (fun call key d hd => by simpa using hd)
  · split
    · exact h.frame ⟨rfl, rfl, rfl⟩ rfl rfl (fun call key d hd => by simpa using hd)
    · exact h.frame ⟨rfl, rfl, rfl⟩ rfl rfl (fun call key d hd => by simpa using hd)

/-- The decision shows every trace of its round. -/
theorem buildDecision_accounted {r : DecisionRound R} {d : OrchestrationDecisionV1} {id : String}
    (h : Accounted r id) (hd : (buildDecision r).2 = some d) : AccountedIn d id := by
  simp only [buildDecision, Option.bind_eq_some_iff] at hd
  obtain ⟨⟨outcome, reason, route⟩, -, hd⟩ := hd
  split at hd
  · cases hd
    rcases h with ⟨e, he, hid⟩ | ⟨x, hx, hid⟩ | ⟨m, hm⟩
    · exact .inl (List.mem_map.mpr ⟨_, List.mem_map.mpr ⟨e, he, rfl⟩, hid⟩)
    · exact .inr (.inl (List.mem_map.mpr ⟨x, hx, hid⟩))
    · have hsorted : id ∈ sorted (r.marked m) := Sorting.mem_sortBy.mpr hm
      right
      right
      cases m with
      | unavailable => exact .inl hsorted
      | omitted => exact .inr (.inl hsorted)
      | timedOut => exact .inr (.inr (.inl hsorted))
      | delayed => exact .inr (.inr (.inr hsorted))
  · cases hd

theorem Kept.decide (h : Kept owner s) {call : Nat} (hs : OrchestrationCoordinator.decide s call = some s') :
    Kept owner s' := by
  have hrest : ∀ log : List (Event R), (∀ call key d, .returned call key d ∈ log → ∀ id ∈ orchestratorIds, AccountedIn d id) →
      Kept owner { s with deciding := s.deciding.filter fun d => d.1 ≠ call, log := log } := by
    intro log hlog
    refine ⟨h.tasks, fun a ha => ?_, fun d hd => h.deciding d (List.mem_filter.mp hd).1, hlog⟩
    have hp := h.running a ha
    exact ⟨hp.once, hp.placed, hp.noProposal, hp.noVote, hp.proposals, hp.votes, hp.busy, hp.latest, hp.restarts, hp.room⟩
  unfold OrchestrationCoordinator.decide at hs
  split at hs
  · cases hs
  · rename_i call' key round hfind
    split at hs <;> rename_i hbuilt <;> cases hs
    · rename_i d
      refine hrest _ fun call key' d' hd' id hid => ?_
      rcases List.mem_append.mp hd' with hd' | hd'
      · exact h.returned call key' d' hd' id hid
      · cases List.mem_singleton.mp hd'
        exact buildDecision_accounted (h.deciding _ (List.mem_of_find?_eq_some hfind) id hid) hbuilt
    · refine hrest _ fun call key' d' hd' => h.returned call key' d' ?_
      simpa using hd'

/-- More tasks may complete, and a completed one may be forgotten. -/
theorem Kept.tasksDone (h : Kept owner s) {inflight : String → Option Nat} {done : Nat → Bool}
    (hinflight : ∀ id, inflight id = none ∨ inflight id = s.inflight id) (hdone : ∀ t, s.done t = true → done t = true) :
    Kept owner { s with inflight := inflight, done := done } := by
  refine ⟨fun id t ht => ?_, fun a ha => ?_, h.deciding, h.returned⟩
  · change inflight id = some t at ht
    rcases hinflight id with hnone | hsame
    · rw [hnone] at ht
      cases ht
    · exact h.tasks id t (hsame ▸ ht)
  · have hp := h.running a ha
    refine ⟨hp.once, hp.placed, hp.noProposal, hp.noVote, hp.proposals, hp.votes, hp.busy, fun f hf => ?_,
      fun t ht => hdone t (hp.restarts t ht), hp.room⟩
    change inflight f.2 = none ∨ inflight f.2 = some f.1
    rcases hinflight f.2 with hnone | hsame
    · exact .inl hnone
    · rw [hsame]
      exact hp.latest f hf

theorem Kept.step {c : Action R} (h : Kept owner s) (hbusy : StillBusy s c) (hfresh : FreshAnswers cfg s c)
    (hs : step cfg s c = some s') : ∃ owner', Kept owner' s' := by
  have hlocked : (s.running.bind fun a => OrchestrationCoordinator.move cfg s a c) = some s' →
      ∃ owner', Kept owner' s' := by
    intro hb
    obtain ⟨a, ha, hm⟩ := Option.bind_eq_some_iff.mp hb
    exact h.move ha hbusy hfresh hm
  cases c with
  | adjudicate request =>
    simp only [OrchestrationCoordinator.step] at hs
    split at hs <;> cases hs
    exact ⟨owner, h.adjudicate request⟩
  | decide call => exact ⟨owner, h.decide hs⟩
  | preflight request =>
    cases hs
    exact ⟨owner, h.preflight request⟩
  | complete task =>
    simp only [OrchestrationCoordinator.step] at hs
    split at hs <;> cases hs
    exact ⟨owner, h.tasksDone (fun id => .inr rfl) fun t ht => by simp [ht]⟩
  | clearInflight id task =>
    simp only [OrchestrationCoordinator.step] at hs
    split at hs <;> cases hs
    refine ⟨owner, h.tasksDone (fun id' => ?_) fun t ht => ht⟩
    split
    · exact .inl rfl
    · exact .inr rfl
  | shutdown =>
    cases hs
    exact ⟨owner, h.frame ⟨rfl, rfl, rfl⟩ rfl rfl fun call key d hd => hd⟩
  | shutdownExecutors =>
    simp only [OrchestrationCoordinator.step] at hs
    split at hs <;> cases hs
    exact ⟨owner, h.frame ⟨rfl, rfl, rfl⟩ rfl rfl fun call key d hd => hd⟩
  | startReplica _ | lookUp | wait _ _ | consumeProposal _ | consumeVote _ | submitVote | restart | collect _ | conclude _ =>
    exact hlocked hs

end Moves

theorem kept_initial (cache : BoundedReplayCache) : Kept (fun _ => "") (initial R cache) := by
  refine ⟨fun id t ht => ?_, fun a ha => ?_, fun d hd => absurd hd List.not_mem_nil,
    fun call key d hd => absurd hd List.not_mem_nil⟩
  · cases ht
  · cases ha

/-- While every task that refuses a submission is still running at its look-up and no
replica replays a message, each orchestrator occurs in every decision. -/
theorem every_orchestrator_accounted {cache : BoundedReplayCache} {actions : List (Action R)} {s : Coordinator R}
    (hrun : run cfg (initial R cache) actions = some s)
    (halong : Along cfg (fun s c => StillBusy s c ∧ FreshAnswers cfg s c) (initial R cache) actions) :
    ∀ call key d, .returned call key d ∈ s.log → ∀ id ∈ orchestratorIds, AccountedIn d id := by
  have hkept : ∃ owner, Kept owner s := run_invariant cfg
    (P := fun s c => StillBusy s c ∧ FreshAnswers cfg s c) (J := fun s => ∃ owner, Kept owner s)
    (fun s c s' ⟨owner, h⟩ hc hs => h.step hc.1 hc.2 hs) ⟨_, kept_initial cache⟩ halong hrun
  obtain ⟨owner, h⟩ := hkept
  exact h.returned

/-! ## A replica that hangs -/

instance (d : OrchestrationDecisionV1) (id : String) : Decidable (AccountedIn d id) :=
  inferInstanceAs (Decidable (_ ∨ _ ∨ _ ∨ _ ∨ _ ∨ _))

/-- Enough for the condition on runs without answers. -/
def busyCheck (s : Coordinator R) : Action R → Bool
  | .lookUp => s.running.all fun a =>
    match a.control with
    | .refused id _ => (s.runningTask id).isSome
    | _ => true
  | .consumeProposal (.ok _) | .consumeVote (.ok _) => false
  | _ => true

theorem busy_of_check (s : Coordinator R) (c : Action R) (h : busyCheck s c = true) :
    StillBusy s c ∧ FreshAnswers cfg s c := by
  cases c with
  | lookUp =>
    refine ⟨fun a id rest ha hcontrol hnone => ?_, trivial⟩
    simp [busyCheck, ha, hcontrol, hnone] at h
  | consumeProposal answer =>
    cases answer with
    | error e => exact ⟨trivial, trivial⟩
    | ok m => cases h
  | consumeVote answer =>
    cases answer with
    | error e => exact ⟨trivial, trivial⟩
    | ok m => cases h
  | _ => exact ⟨trivial, trivial⟩

/-- The first replica hangs in the first round; the others are not available. The middle
stands between the refused submission and the look-up of the second round. -/
def hangingReplica (middle : List (Action devRuntime)) : List (Action devRuntime) :=
  [.adjudicate devRequest, .startReplica true, .startReplica false, .startReplica false, .wait true [],
    .collect [], .collect [], .conclude true, .decide 0, .adjudicate otherRequest, .startReplica true] ++ middle ++
  [.lookUp, .startReplica false, .startReplica false, .wait true [], .collect [], .collect [], .conclude true, .decide 1]

def returnedDecision : Event R → Option OrchestrationDecisionV1
  | .returned _ _ d => some d
  | _ => none

def returnedDecisions (s : Coordinator R) : List OrchestrationDecisionV1 := s.log.filterMap returnedDecision

theorem every_orchestrator_accounted_dev : ∃ s, run (devConfig 2 (by decide)) (initial devRuntime ⟨1, by decide, []⟩)
    (hangingReplica []) = some s ∧ (returnedDecisions s).length = 2 ∧
    ∀ call key d, .returned call key d ∈ s.log → ∀ id ∈ orchestratorIds, AccountedIn d id := by
  have hrun : ((run (devConfig 2 (by decide)) (initial devRuntime ⟨1, by decide, []⟩) (hangingReplica [])).map
      fun s => (returnedDecisions s).length) = some 2 := by decide
  obtain ⟨s, hs, hlength⟩ := Option.map_eq_some_iff.mp hrun
  exact ⟨s, hs, hlength, every_orchestrator_accounted _ hs (along_of_check _ (busy_of_check _) (by decide))⟩

/-- The task that refused the submission completes before it is looked up: its replica
occurs nowhere in the decision. -/
theorem replica_lost : ∃ s, run (devConfig 2 (by decide)) (initial devRuntime ⟨1, by decide, []⟩)
    (hangingReplica [.complete 0]) = some s ∧
    ∃ call key d, .returned call key d ∈ s.log ∧ ∃ id ∈ orchestratorIds, ¬ AccountedIn d id := by
  have hrun : ((run (devConfig 2 (by decide)) (initial devRuntime ⟨1, by decide, []⟩)
      (hangingReplica [.complete 0])).map fun s =>
        (returnedDecisions s).any fun d => ¬ AccountedIn d "orchestrator_a") = some true := by decide
  obtain ⟨s, hs, hlost⟩ := Option.map_eq_some_iff.mp hrun
  obtain ⟨d, hd, hnot⟩ := List.any_eq_true.mp hlost
  obtain ⟨e, he, hreturned⟩ := List.mem_filterMap.mp hd
  cases e with
  | returned call key d' =>
    cases hreturned
    exact ⟨s, hs, call, key, d, he, "orchestrator_a", by decide, of_decide_eq_true hnot⟩
  | began call request => cases hreturned
  | preflighted request => cases hreturned
  | rejected call reason => cases hreturned
  | raised call => cases hreturned

end OrchestrationAccounting
