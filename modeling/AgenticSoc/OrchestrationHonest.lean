import AgenticSoc.OrchestrationReplica

/-!
# Rounds of honest replicas

Three replicas of the deterministic policy propose and vote in any interleaving; the
coordinator delivers each message when its turn comes and may stop once the round has a
quorum. Every message is accepted unless the round has its quorum already, and when
nothing is left to deliver the least route is decided.
-/
namespace OrchestrationHonest

open OrchestrationMessages OrchestrationRound OrchestrationDecision OrchestrationReplica PythonJson

variable {F : Type} {R : Runtime F} (keys : String → Option Bytes) (moments : String → Phase → Moment)

/-- How far one replica is in the round. -/
inductive Stage (R : Runtime F) where
  | idle
  | proposed (p : Proposal R)
  | accepted (p : Proposal R)
  | voted (v : Vote R)
  | counted
  | dropped (status : Status)
  | failed (error : ReplicaError)

/-- Nothing is left to make or to deliver. -/
def Stage.finished : Stage R → Bool
  | .counted | .dropped _ | .failed _ => true
  | _ => false

/-- A round with its replicas. Each answer of the round stands with the digest that was
kept before it. -/
structure Session (R : Runtime F) where
  round : DecisionRound R
  cache : BoundedReplayCache
  replica : String → OrchestratorReplica R.floats
  stage : String → Stage R
  answers : List (Option String × Status)

inductive Move where
  | advance (orchestratorId : String)
  | stop

def Session.withStage (s : Session R) (id : String) (stage : Stage R) : Session R :=
  { s with stage := fun id' => if id' = id then stage else s.stage id' }

def Session.withReplica (s : Session R) (id : String) (ρ : OrchestratorReplica R.floats) : Session R :=
  { s with replica := fun id' => if id' = id then ρ else s.replica id' }

def Session.answered (s : Session R) (round : DecisionRound R) (cache : BoundedReplayCache) (status : Status) :
    Session R :=
  { s with round := round, cache := cache, answers := s.answers ++ [(s.round.quorumDigest, status)] }

/-- The replica makes its next message, or its message is delivered. -/
def advance (s : Session R) (id : String) : Option (Session R) :=
  match s.stage id with
  | .idle =>
    let (ρ, made) := propose R (s.replica id) (moments id .proposal) s.round.request.toOrchestrationRequestV1
    match made with
    | .ok p => some ((s.withReplica id ρ).withStage id (.proposed p))
    | .error error => some ((s.withReplica id ρ).withStage id (.failed error))
  | .proposed p =>
    let ((round, cache), status) := acceptProposal keys s.round s.cache p
    some ((s.answered round cache status).withStage id
      (if status = .accepted then .accepted p else .dropped status))
  | .accepted p =>
    let (ρ, made) := vote R (s.replica id) (moments id .vote) s.round.request.toOrchestrationRequestV1
      p.toOrchestratorProposalV1
    match made with
    | .ok v => some ((s.withReplica id ρ).withStage id (.voted v))
    | .error error => some ((s.withReplica id ρ).withStage id (.failed error))
  | .voted v =>
    let ((round, cache), status) := acceptVote keys s.round s.cache v
    some ((s.answered round cache status).withStage id
      (if status = .accepted then .counted else .dropped status))
  | _ => none

def step (s : Session R) : Move → Option (Session R)
  | .advance id => if id ∈ orchestratorIds then advance keys moments s id else none
  | .stop => if s.round.quorumDigest ≠ none then some { s with round := s.round.close } else none

def run (s : Session R) : List Move → Option (Session R)
  | [] => some s
  | m :: ms => (step keys moments s m).bind fun s' => run s' ms

/-! ## The invariant -/

section Invariant

variable (request : Request R) (best : CandidateRouteV1)

/-- The digest of every honest proposal. -/
def commonDigest : String :=
  proposalDigest R request.requestId request.requestVersion request.roundId
    (requestDigest R request.toOrchestrationRequestV1) best.routeId

/-- A countable proposal of the least route has the common digest. -/
theorem countable_digest {p : Proposal R} (h : Countable keys request p) (hroute : p.proposedRouteId = best.routeId) :
    p.proposalDigest = commonDigest request best := by
  rw [h.digest, expectedDigest, h.bound.id, h.bound.version, h.bound.round, h.bound.digest, hroute]
  rfl

/-- The message of the replica in this phase has not been seen. -/
def Unseen (s : Session R) (id : String) (phase : Phase) : Prop :=
  s.cache.find (id, (moments id phase).messageId) = none

/-- What holds of a replica at its stage. -/
def StageHolds (s : Session R) (id : String) : Stage R → Prop
  | .idle => Absent s.round.proposals id ∧ Absent s.round.votes id ∧ Unseen moments s id .proposal ∧
      Unseen moments s id .vote ∧ Ready (s.replica id) (moments id .proposal) ∧
      Ready ((s.replica id).next R) (moments id .vote)
  | .proposed p => p.orchestratorId = id ∧ p.messageId = (moments id .proposal).messageId ∧
      p.proposedRouteId = best.routeId ∧ Countable keys request p ∧ Absent s.round.proposals id ∧
      Absent s.round.votes id ∧ Unseen moments s id .proposal ∧ Unseen moments s id .vote ∧
      Ready (s.replica id) (moments id .vote)
  | .accepted p => (id, p) ∈ s.round.proposals ∧ p.proposedRouteId = best.routeId ∧
      Absent s.round.votes id ∧ Unseen moments s id .vote ∧ Ready (s.replica id) (moments id .vote)
  | .voted v => v.orchestratorId = id ∧ v.messageId = (moments id .vote).messageId ∧
      CountableVote keys request v ∧ v.vote = .approve ∧ v.selectedProposalDigest = commonDigest request best ∧
      Known s.round (commonDigest request best) ∧ Absent s.round.votes id ∧ Unseen moments s id .vote
  | .counted => ∃ v, (id, v) ∈ s.round.votes ∧ v.vote = .approve ∧
      v.selectedProposalDigest = commonDigest request best
  | .dropped _ => s.round.quorumDigest ≠ none
  | .failed _ => False

structure Holds (s : Session R) : Prop where
  sound : Sound keys s.round
  asked : s.round.request = request
  terminal : s.round.terminal = true → s.round.quorumDigest ≠ none
  routes : ∀ e ∈ s.round.proposals, e.2.proposedRouteId = best.routeId
  identities : ∀ id ∈ orchestratorIds, (s.replica id).orchestratorId = id ∧ keys id = some (s.replica id).key
  answers : ∀ a ∈ s.answers, a.2 = .accepted ∨ a.1 ≠ none
  stages : ∀ id ∈ orchestratorIds, StageHolds keys moments request best s id (s.stage id)

/-- What a step of another replica leaves as it was for this one. -/
structure Undisturbed (id : String) (s s' : Session R) : Prop where
  noProposal : Absent s.round.proposals id → Absent s'.round.proposals id
  proposals : ∀ e ∈ s.round.proposals, e ∈ s'.round.proposals
  noVote : Absent s.round.votes id → Absent s'.round.votes id
  votes : ∀ e ∈ s.round.votes, e ∈ s'.round.votes
  unseen : ∀ messageId, s.cache.find (id, messageId) = none → s'.cache.find (id, messageId) = none
  replica : s'.replica id = s.replica id
  kept : s.round.quorumDigest ≠ none → s'.round.quorumDigest ≠ none

theorem Undisturbed.known {id : String} {s s' : Session R} (h : Undisturbed id s s') {digest : String}
    (hk : Known s.round digest) : Known s'.round digest := by
  obtain ⟨e, he, hdigest⟩ := hk
  exact ⟨e, h.proposals e he, hdigest⟩

theorem StageHolds.undisturbed {id : String} {s s' : Session R} (h : Undisturbed id s s') {stage : Stage R}
    (hs : StageHolds keys moments request best s id stage) : StageHolds keys moments request best s' id stage := by
  cases stage with
  | idle =>
    obtain ⟨hproposal, hvote, hunseen, hunseen', hready, hready'⟩ := hs
    refine ⟨h.noProposal hproposal, h.noVote hvote, h.unseen _ hunseen, h.unseen _ hunseen', ?_, ?_⟩
    · rw [h.replica]
      exact hready
    · rw [h.replica]
      exact hready'
  | proposed p =>
    obtain ⟨hid, hmessage, hroute, hcount, hproposal, hvote, hunseen, hunseen', hready⟩ := hs
    refine ⟨hid, hmessage, hroute, hcount, h.noProposal hproposal, h.noVote hvote, h.unseen _ hunseen,
      h.unseen _ hunseen', ?_⟩
    rw [h.replica]
    exact hready
  | accepted p =>
    obtain ⟨hin, hroute, hvote, hunseen, hready⟩ := hs
    refine ⟨h.proposals _ hin, hroute, h.noVote hvote, h.unseen _ hunseen, ?_⟩
    rw [h.replica]
    exact hready
  | voted v =>
    obtain ⟨hid, hmessage, hcount, happrove, hdigest, hknown, hvote, hunseen⟩ := hs
    exact ⟨hid, hmessage, hcount, happrove, hdigest, h.known hknown, h.noVote hvote, h.unseen _ hunseen⟩
  | counted =>
    obtain ⟨v, hv, hrest⟩ := hs
    exact ⟨v, h.votes _ hv, hrest⟩
  | dropped status => exact h.kept hs
  | failed error => exact hs

variable {keys moments request best}

/-- A step of one replica keeps the invariant when the round keeps its part, the replica
reaches a stage that holds and the others are not disturbed. -/
theorem Holds.of_step {s s' : Session R} (h : Holds keys moments request best s) {id : String}
    (hsound : Sound keys s'.round) (hasked : s'.round.request = request)
    (hterminal : s'.round.terminal = true → s'.round.quorumDigest ≠ none)
    (hroutes : ∀ e ∈ s'.round.proposals, e.2.proposedRouteId = best.routeId)
    (hself : (s'.replica id).orchestratorId = (s.replica id).orchestratorId ∧ (s'.replica id).key = (s.replica id).key)
    (hanswers : ∀ a ∈ s'.answers, a.2 = .accepted ∨ a.1 ≠ none)
    (hstage : StageHolds keys moments request best s' id (s'.stage id))
    (hothers : ∀ id', id' ≠ id → s'.stage id' = s.stage id' ∧ Undisturbed id' s s') :
    Holds keys moments request best s' := by
  refine ⟨hsound, hasked, hterminal, hroutes, ?_, hanswers, ?_⟩
  · intro id' hid'
    by_cases he : id' = id
    · subst he
      rw [hself.1, hself.2]
      exact h.identities id' hid'
    · rw [(hothers id' he).2.replica]
      exact h.identities id' hid'
  · intro id' hid'
    by_cases he : id' = id
    · subst he
      exact hstage
    · rw [(hothers id' he).1]
      exact (h.stages id' hid').undisturbed keys moments request best (hothers id' he).2

/-- A replica that makes a message disturbs no other. -/
theorem undisturbed_made {s : Session R} {id id' : String} (hne : id' ≠ id) (ρ : OrchestratorReplica R.floats)
    (stage : Stage R) : ((s.withReplica id ρ).withStage id stage).stage id' = s.stage id' ∧
      Undisturbed id' s ((s.withReplica id ρ).withStage id stage) :=
  ⟨if_neg hne, fun h => h, fun _ h => h, fun h => h, fun _ h => h, fun _ h => h, if_neg hne, fun h => h⟩

theorem absent_concat {α : Type} {entries : List (String × α)} {id id' : String} (hne : id' ≠ id) (a : α)
    (h : Absent entries id') : Absent (entries ++ [(id, a)]) id' := by
  intro e he
  rcases List.mem_append.mp he with he | he
  · exact h e he
  · rw [List.mem_singleton.mp he]
    exact hne.symm

theorem key_ne {id id' : String} (hne : id' ≠ id) (m m' : String) : (id', m') ≠ (id, m) :=
  fun he => hne (congrArg Prod.fst he)

/-- The idle replica proposes the least route. -/
theorem Holds.propose (hleast : Sorting.minBy routeRank request.candidateRoutes = some best) {s s' : Session R}
    (h : Holds keys moments request best s) {id : String} (hid : id ∈ orchestratorIds) (hstage : s.stage id = .idle)
    (hs : advance keys moments s id = some s') : Holds keys moments request best s' := by
  have hidle := h.stages id hid
  rw [hstage] at hidle
  obtain ⟨hproposal, hvote, hunseen, hunseen', hready, hready'⟩ := hidle
  obtain ⟨hsender, hkey⟩ := h.identities id hid
  obtain ⟨c, p, hc, hmade, hp⟩ := propose_ready request hready
  have hbest : c = best := Option.some.inj (hc.symm.trans hleast)
  subst hbest
  have hroute : c.routeId ∈ request.candidateRoutes.map CandidateRouteV1.routeId :=
    List.mem_map.mpr ⟨c, (Sorting.minBy_some hleast).1, rfl⟩
  have hkey' : keys (s.replica id).orchestratorId = some (s.replica id).key := by
    rw [hsender]
    exact hkey
  have hcount := signedProposal_countable request hready hkey' hp hroute
  unfold advance at hs
  rw [hstage, h.asked] at hs
  simp only [hmade, Option.some.injEq] at hs
  subst hs
  refine h.of_step h.sound h.asked h.terminal h.routes ?_ h.answers ?_ fun id' hne => undisturbed_made hne _ _
  · simp [Session.withReplica, Session.withStage, OrchestratorReplica.next]
  · have hself : ((s.withReplica id ((s.replica id).next R)).withStage id (.proposed p)).stage id = .proposed p :=
      if_pos rfl
    have hreplica : ((s.withReplica id ((s.replica id).next R)).withStage id (.proposed p)).replica id =
      (s.replica id).next R := if_pos rfl
    rw [hself]
    refine ⟨?_, ?_, ?_, hcount, hproposal, hvote, hunseen, hunseen', ?_⟩
    · exact (congrArg (fun m => m.orchestratorId) hp).trans hsender
    · exact congrArg (fun m => m.messageId) hp
    · exact congrArg OrchestratorProposalV1.proposedRouteId hp
    · rw [hreplica]
      exact hready'

/-- An open or a terminal round answers a proposal that its replica has made. -/
theorem Holds.deliverProposal (hdistinct : ∀ id, (moments id .proposal).messageId ≠ (moments id .vote).messageId)
    {s s' : Session R} (h : Holds keys moments request best s) {id : String} (hid : id ∈ orchestratorIds)
    {p : Proposal R} (hstage : s.stage id = .proposed p) (hs : advance keys moments s id = some s') :
    Holds keys moments request best s' := by
  have hproposed := h.stages id hid
  rw [hstage] at hproposed
  obtain ⟨hsender, hmessage, hroute, hcount, hproposal, hvote, hunseen, hunseen', hready⟩ := hproposed
  unfold advance at hs
  rw [hstage] at hs
  cases hterminal : s.round.terminal with
  | true =>
    have hkept := h.terminal hterminal
    simp only [acceptProposal_late keys hterminal, Option.some.injEq] at hs
    subst hs
    refine h.of_step (h.sound.reject keys _ _ _ _) h.asked h.terminal h.routes ⟨rfl, rfl⟩ ?_ ?_
      fun id' hne => ⟨if_neg hne, fun h => h, fun _ h => h, fun h => h, fun _ h => h, fun _ h => h, rfl, fun h => h⟩
    · intro a ha
      rcases List.mem_append.mp ha with ha | ha
      · exact h.answers a ha
      · rw [List.mem_singleton.mp ha]
        exact .inr hkept
    · have hself : (((s.answered (s.round.reject .proposal p.toEnvelope .lateMessage "round is terminal") s.cache
          (.rejected .lateMessage)).withStage id (.dropped (.rejected .lateMessage))).stage id) =
          .dropped (.rejected .lateMessage) := if_pos rfl
      simp only [reduceCtorEq, if_false]
      rw [hself]
      exact hkept
  | false =>
    have hanswer := acceptProposal_counted keys (c := s.cache) (m := p) hterminal (by rw [h.asked]; exact hcount)
      (by rw [hsender]; exact hproposal) (by rw [hsender, hmessage]; exact hunseen)
    simp only [hanswer, if_true, Option.some.injEq] at hs
    subst hs
    refine h.of_step (h.sound.proposal keys (by rw [h.asked]; exact hcount) (by rw [hsender]; exact hproposal))
      h.asked h.terminal ?_ ⟨rfl, rfl⟩ ?_ ?_ fun id' hne => ⟨if_neg hne, ?_, fun e he => List.mem_append_left _ he,
        fun h => h, fun _ h => h, ?_, rfl, fun h => h⟩
    · intro e he
      rcases List.mem_append.mp he with he | he
      · exact h.routes e he
      · rw [List.mem_singleton.mp he]
        exact hroute
    · intro a ha
      rcases List.mem_append.mp ha with ha | ha
      · exact h.answers a ha
      · rw [List.mem_singleton.mp ha]
        exact .inl rfl
    · simp only [Session.withStage, if_true]
      refine ⟨?_, hroute, hvote, ?_, hready⟩
      · rw [← hsender]
        exact List.mem_append_right _ List.mem_cons_self
      · refine observe_find ?_ hunseen'
        intro he
        refine hdistinct id ?_
        rw [← hmessage]
        exact (congrArg Prod.snd he).symm
    · rw [hsender]
      exact absent_concat hne p
    · intro m hm
      rw [hsender]
      exact observe_find (key_ne hne _ _) hm

/-- The replica votes for the proposal that was accepted from it. -/
theorem Holds.vote {s s' : Session R} (h : Holds keys moments request best s) {id : String}
    (hid : id ∈ orchestratorIds) {p : Proposal R} (hstage : s.stage id = .accepted p)
    (hs : advance keys moments s id = some s') : Holds keys moments request best s' := by
  have haccepted := h.stages id hid
  rw [hstage] at haccepted
  obtain ⟨hin, hroute, hvote, hunseen, hready⟩ := haccepted
  obtain ⟨hsender, hkey⟩ := h.identities id hid
  obtain ⟨v, hmade, hv⟩ := vote_ready request hready p
  have hkey' : keys (s.replica id).orchestratorId = some (s.replica id).key := by
    rw [hsender]
    exact hkey
  have hcount := signedVote_countable request hready hkey' hv
  have hp := (h.sound.proposals _ hin).2
  rw [h.asked] at hp
  have hdigest : p.proposalDigest = commonDigest request best := countable_digest keys request best hp hroute
  unfold advance at hs
  rw [hstage, h.asked] at hs
  simp only [hmade, Option.some.injEq] at hs
  subst hs
  refine h.of_step h.sound h.asked h.terminal h.routes ?_ h.answers ?_ fun id' hne => undisturbed_made hne _ _
  · simp [Session.withReplica, Session.withStage, OrchestratorReplica.next]
  · have hself : ((s.withReplica id ((s.replica id).next R)).withStage id (.voted v)).stage id = .voted v :=
      if_pos rfl
    rw [hself]
    refine ⟨?_, ?_, hcount, ?_, ?_, ⟨_, hin, hdigest⟩, hvote, hunseen⟩
    · exact (congrArg (fun m => m.orchestratorId) hv).trans hsender
    · exact congrArg (fun m => m.messageId) hv
    · exact congrArg OrchestratorVoteV1.vote hv
    · exact (congrArg OrchestratorVoteV1.selectedProposalDigest hv).trans hdigest

/-- An open or a terminal round answers a vote that its replica has made. -/
theorem Holds.deliverVote {s s' : Session R} (h : Holds keys moments request best s) {id : String}
    (hid : id ∈ orchestratorIds) {v : Vote R} (hstage : s.stage id = .voted v)
    (hs : advance keys moments s id = some s') : Holds keys moments request best s' := by
  have hvoted := h.stages id hid
  rw [hstage] at hvoted
  obtain ⟨hsender, hmessage, hcount, happrove, hdigest, hknown, hvote, hunseen⟩ := hvoted
  unfold advance at hs
  rw [hstage] at hs
  cases hterminal : s.round.terminal with
  | true =>
    have hkept := h.terminal hterminal
    simp only [acceptVote_late keys hterminal, Option.some.injEq] at hs
    subst hs
    refine h.of_step (h.sound.reject keys _ _ _ _) h.asked h.terminal h.routes ⟨rfl, rfl⟩ ?_ ?_
      fun id' hne => ⟨if_neg hne, fun h => h, fun _ h => h, fun h => h, fun _ h => h, fun _ h => h, rfl, fun h => h⟩
    · intro a ha
      rcases List.mem_append.mp ha with ha | ha
      · exact h.answers a ha
      · rw [List.mem_singleton.mp ha]
        exact .inr hkept
    · have hself : (((s.answered (s.round.reject .vote v.toEnvelope .lateMessage "round is terminal") s.cache
          (.rejected .lateMessage)).withStage id (.dropped (.rejected .lateMessage))).stage id) =
          .dropped (.rejected .lateMessage) := if_pos rfl
      simp only [reduceCtorEq, if_false]
      rw [hself]
      exact hkept
  | false =>
    have hanswer := acceptVote_counted keys (c := s.cache) (m := v) hterminal (by rw [h.asked]; exact hcount)
      (by rw [hdigest]; exact hknown) (by rw [hsender]; exact hvote) (by rw [hsender, hmessage]; exact hunseen)
    simp only [hanswer, if_true, Option.some.injEq] at hs
    subst hs
    have hkept : s.round.quorumDigest ≠ none →
        latch (s.round.votes ++ [(v.orchestratorId, v)]) s.round.quorumDigest ≠ none := by
      intro hq
      obtain ⟨digest, hdig⟩ := Option.ne_none_iff_exists'.mp hq
      rw [hdig, latch_some]
      exact Option.some_ne_none digest
    refine h.of_step (h.sound.vote keys (by rw [h.asked]; exact hcount) (by rw [hdigest]; exact hknown)
      (by rw [hsender]; exact hvote)) h.asked (fun ht => hkept (h.terminal ht)) h.routes ⟨rfl, rfl⟩ ?_ ?_
      fun id' hne => ⟨if_neg hne, fun h => h, fun _ h => h, ?_, fun e he => List.mem_append_left _ he, ?_, rfl,
        hkept⟩
    · intro a ha
      rcases List.mem_append.mp ha with ha | ha
      · exact h.answers a ha
      · rw [List.mem_singleton.mp ha]
        exact .inl rfl
    · simp only [Session.withStage, if_true]
      refine ⟨v, ?_, happrove, hdigest⟩
      rw [← hsender]
      exact List.mem_append_right _ List.mem_cons_self
    · rw [hsender]
      exact absent_concat hne v
    · intro m hm
      rw [hsender]
      exact observe_find (key_ne hne _ _) hm

/-- Every move keeps the invariant. -/
theorem Holds.step (hleast : Sorting.minBy routeRank request.candidateRoutes = some best)
    (hdistinct : ∀ id, (moments id .proposal).messageId ≠ (moments id .vote).messageId) {s s' : Session R}
    (h : Holds keys moments request best s) {m : Move} (hs : step keys moments s m = some s') :
    Holds keys moments request best s' := by
  cases m with
  | advance id =>
    simp only [OrchestrationHonest.step] at hs
    split at hs
    · rename_i hid
      cases hstage : s.stage id with
      | idle => exact h.propose hleast hid hstage hs
      | proposed p => exact h.deliverProposal hdistinct hid hstage hs
      | accepted p => exact h.vote hid hstage hs
      | voted v => exact h.deliverVote hid hstage hs
      | counted => simp [advance, hstage] at hs
      | dropped status => simp [advance, hstage] at hs
      | failed error => simp [advance, hstage] at hs
    · cases hs
  | stop =>
    simp only [OrchestrationHonest.step] at hs
    split at hs
    · rename_i hq
      cases hs
      refine ⟨⟨h.sound.proposals, h.sound.proposers, h.sound.votes, h.sound.known, h.sound.voters, h.sound.kept⟩,
        h.asked, fun _ => hq, h.routes, h.identities, h.answers, fun id hid => ?_⟩
      exact (h.stages id hid).undisturbed keys moments request best
        ⟨fun h => h, fun _ h => h, fun h => h, fun _ h => h, fun _ h => h, rfl, fun h => h⟩
    · cases hs

theorem Holds.run (hleast : Sorting.minBy routeRank request.candidateRoutes = some best)
    (hdistinct : ∀ id, (moments id .proposal).messageId ≠ (moments id .vote).messageId) {s s' : Session R}
    (h : Holds keys moments request best s) {moves : List Move} (hs : run keys moments s moves = some s') :
    Holds keys moments request best s' := by
  induction moves generalizing s with
  | nil =>
    cases hs
    exact h
  | cons m moves ih =>
    simp only [OrchestrationHonest.run, Option.bind_eq_some_iff] at hs
    obtain ⟨t, ht, hrest⟩ := hs
    exact ih (h.step hleast hdistinct ht) hrest

/-- The steps that a replica still has to take. -/
def Stage.left : Stage R → Nat
  | .idle => 4
  | .proposed _ => 3
  | .accepted _ => 2
  | .voted _ => 1
  | _ => 0

theorem Stage.finished_of_left {stage : Stage R} (h : stage.left = 0) : stage.finished = true := by
  cases stage <;> simp_all [Stage.left, Stage.finished]

theorem left_answered (stage : Stage R) (status : Status) :
    (if status = .accepted then stage else Stage.dropped status).left ≤ stage.left := by
  split
  · exact Nat.le_refl _
  · exact Nat.zero_le _

/-- A replica with steps left can take one, and the others stay where they are. -/
theorem Holds.progress {s : Session R} (h : Holds keys moments request best s) {id : String} (hid : id ∈ orchestratorIds)
    (hleft : (s.stage id).left ≠ 0) : ∃ s', advance keys moments s id = some s' ∧
      (s'.stage id).left < (s.stage id).left ∧ ∀ id', id' ≠ id → s'.stage id' = s.stage id' := by
  have hstage := h.stages id hid
  unfold advance
  cases hcase : s.stage id with
  | idle =>
    rw [hcase] at hstage
    obtain ⟨-, -, -, -, hready, -⟩ := hstage
    obtain ⟨c, p, -, hmade, -⟩ := propose_ready request hready
    rw [h.asked]
    simp only [hmade]
    refine ⟨_, rfl, ?_, fun id' hne => if_neg hne⟩
    simp [Session.withStage, Stage.left]
  | proposed p =>
    refine ⟨_, rfl, ?_, fun id' hne => if_neg hne⟩
    simp only [Session.withStage, if_true]
    exact Nat.lt_of_le_of_lt (left_answered (.accepted p) _) (by decide : 2 < 3)
  | accepted p =>
    rw [hcase] at hstage
    obtain ⟨-, -, -, -, hready⟩ := hstage
    obtain ⟨v, hmade, -⟩ := vote_ready request hready p
    rw [h.asked]
    simp only [hmade]
    refine ⟨_, rfl, ?_, fun id' hne => if_neg hne⟩
    simp [Session.withStage, Stage.left]
  | voted v =>
    refine ⟨_, rfl, ?_, fun id' hne => if_neg hne⟩
    simp only [Session.withStage, if_true]
    exact Nat.lt_of_le_of_lt (left_answered .counted _) (by decide : 0 < 1)
  | counted => simp [hcase, Stage.left] at hleft
  | dropped status => simp [hcase, Stage.left] at hleft
  | failed error => simp [hcase, Stage.left] at hleft

/-- The moves of one replica up to its end. -/
theorem Holds.finish (hleast : Sorting.minBy routeRank request.candidateRoutes = some best)
    (hdistinct : ∀ id, (moments id .proposal).messageId ≠ (moments id .vote).messageId) {s : Session R}
    (h : Holds keys moments request best s) {id : String} (hid : id ∈ orchestratorIds) :
    ∃ moves s', OrchestrationHonest.run keys moments s moves = some s' ∧ (s'.stage id).finished = true ∧
      ∀ id', id' ≠ id → s'.stage id' = s.stage id' := by
  induction hn : (s.stage id).left using Nat.strong_induction_on generalizing s with
  | _ n ih =>
    by_cases hleft : (s.stage id).left = 0
    · exact ⟨[], s, rfl, Stage.finished_of_left hleft, fun _ _ => rfl⟩
    · obtain ⟨t, ht, hless, hothers⟩ := h.progress hid hleft
      have hstep : OrchestrationHonest.step keys moments s (.advance id) = some t := by
        simp only [OrchestrationHonest.step, if_pos hid]
        exact ht
      obtain ⟨moves, s', hrun, hfinished, hrest⟩ := ih _ (hn ▸ hless) (h.step hleast hdistinct hstep) rfl
      refine ⟨.advance id :: moves, s', ?_, hfinished, fun id' hne => (hrest id' hne).trans (hothers id' hne)⟩
      simp only [OrchestrationHonest.run, hstep, Option.bind_some, hrun]

theorem run_append {s t u : Session R} {before after : List Move} (hb : run keys moments s before = some t)
    (ha : run keys moments t after = some u) : run keys moments s (before ++ after) = some u := by
  induction before generalizing s with
  | nil =>
    cases hb
    exact ha
  | cons m before ih =>
    simp only [run, Option.bind_eq_some_iff] at hb
    obtain ⟨s', hs', hrest⟩ := hb
    simp only [List.cons_append, run, hs', Option.bind_some, ih hrest]

/-- The moves of all replicas up to their ends. -/
theorem Holds.finish_all (hleast : Sorting.minBy routeRank request.candidateRoutes = some best)
    (hdistinct : ∀ id, (moments id .proposal).messageId ≠ (moments id .vote).messageId) {s : Session R}
    (h : Holds keys moments request best s) : ∃ moves s', OrchestrationHonest.run keys moments s moves = some s' ∧
      ∀ id ∈ orchestratorIds, (s'.stage id).finished = true := by
  obtain ⟨ms, t, ht, hfirst, -⟩ := h.finish hleast hdistinct (show "orchestrator_a" ∈ orchestratorIds by decide)
  obtain ⟨ms', u, hu, hsecond, hkept⟩ :=
    (h.run hleast hdistinct ht).finish hleast hdistinct (show "orchestrator_b" ∈ orchestratorIds by decide)
  obtain ⟨ms'', v, hv, hthird, hkept'⟩ :=
    ((h.run hleast hdistinct ht).run hleast hdistinct hu).finish hleast hdistinct (show "orchestrator_c" ∈ orchestratorIds by decide)
  refine ⟨ms ++ (ms' ++ ms''), v, run_append ht (run_append hu hv), fun id hid => ?_⟩
  simp only [orchestratorIds, List.mem_cons, List.not_mem_nil, or_false] at hid
  rcases hid with rfl | rfl | rfl
  · rw [hkept' _ (by decide), hkept _ (by decide)]
    exact hfirst
  · rw [hkept' _ (by decide)]
    exact hsecond
  · exact hthird

/-! ## The decision -/

/-- Everything is delivered, or the round has its quorum. -/
def Complete (s : Session R) : Prop :=
  s.round.quorumDigest ≠ none ∨ ∀ id ∈ orchestratorIds, (s.stage id).finished = true

/-- A complete session has a quorum: without one all three votes are counted. -/
theorem Holds.quorum {s : Session R} (h : Holds keys moments request best s) (hcomplete : Complete s) :
    s.round.quorumDigest ≠ none := by
  rcases hcomplete with hq | hfinished
  · exact hq
  intro hnone
  have hcounted : ∀ id ∈ orchestratorIds, ∃ v, (id, v) ∈ approvers s.round.votes (commonDigest request best) := by
    intro id hid
    have hstage := h.stages id hid
    have hdone := hfinished id hid
    cases hcase : s.stage id with
    | counted =>
      rw [hcase] at hstage
      obtain ⟨v, hv, happrove, hdigest⟩ := hstage
      exact ⟨v, (mem_approvers).mpr ⟨hv, happrove, hdigest⟩⟩
    | dropped status =>
      rw [hcase] at hstage
      exact absurd hnone hstage
    | failed error =>
      rw [hcase] at hstage
      exact hstage.elim
    | idle => simp [hcase, Stage.finished] at hdone
    | proposed p => simp [hcase, Stage.finished] at hdone
    | accepted p => simp [hcase, Stage.finished] at hdone
    | voted v => simp [hcase, Stage.finished] at hdone
  obtain ⟨v, hv⟩ := hcounted "orchestrator_a" (by decide)
  obtain ⟨w, hw⟩ := hcounted "orchestrator_b" (by decide)
  have hquorum : HasQuorum s.round.votes (commonDigest request best) := by
    have hdistinct : [("orchestrator_a", v), ("orchestrator_b", w)].Nodup := by simp
    have hsub : [("orchestrator_a", v), ("orchestrator_b", w)] ⊆ approvers s.round.votes (commonDigest request best) := by
      intro e he
      simp only [List.mem_cons, List.not_mem_nil, or_false] at he
      rcases he with rfl | rfl
      · exact hv
      · exact hw
    exact (List.subperm_of_subset hdistinct hsub).length_le
  rw [(h.sound.kept _).mpr hquorum] at hnone
  cases hnone

end Invariant

/-- Three available replicas of the deterministic policy, each with its own key, and
messages that the replay cache has not seen. -/
structure Honest (request : Request R) (s : Session R) : Prop where
  fresh : s.round = DecisionRound.start request
  idle : ∀ id, s.stage id = .idle
  unanswered : s.answers = []
  identities : ∀ id ∈ orchestratorIds, (s.replica id).orchestratorId = id ∧ keys id = some (s.replica id).key
  ready : ∀ id ∈ orchestratorIds, Ready (s.replica id) (moments id .proposal) ∧
    Ready ((s.replica id).next R) (moments id .vote)
  unseen : ∀ id ∈ orchestratorIds, ∀ phase, Unseen moments s id phase
  distinct : ∀ id, (moments id .proposal).messageId ≠ (moments id .vote).messageId

theorem Honest.holds {request : Request R} {s : Session R} (h : Honest keys moments request s)
    (best : CandidateRouteV1) : Holds keys moments request best s := by
  have hnothing : ∀ id, Absent s.round.proposals id ∧ Absent s.round.votes id := by
    intro id
    rw [h.fresh]
    exact ⟨fun e he => absurd he List.not_mem_nil, fun e he => absurd he List.not_mem_nil⟩
  refine ⟨?_, ?_, ?_, ?_, h.identities, ?_, ?_⟩
  · rw [h.fresh]
    exact sound_start keys request
  · rw [h.fresh]
    rfl
  · rw [h.fresh]
    intro ht
    cases ht
  · rw [h.fresh]
    exact fun e he => absurd he List.not_mem_nil
  · rw [h.unanswered]
    exact fun a ha => absurd ha List.not_mem_nil
  · intro id hid
    rw [h.idle id]
    exact ⟨(hnothing id).1, (hnothing id).2, h.unseen id hid .proposal, h.unseen id hid .vote,
      (h.ready id hid).1, (h.ready id hid).2⟩

/-- In every interleaving of three honest replicas each message is accepted unless the
round has its quorum already, and a complete session decides the least route. -/
theorem honest_round {request : Request R} {s s' : Session R} (h : Honest keys moments request s)
    {moves : List Move} (hs : run keys moments s moves = some s') :
    (∀ a ∈ s'.answers, a.2 = .accepted ∨ a.1 ≠ none) ∧
      (∀ id ∈ orchestratorIds, ∀ error, s'.stage id ≠ .failed error) ∧
      (Complete s' → ∃ d c, (buildDecision s'.round).2 = some d ∧ d.outcome = .decided ∧
        c ∈ request.candidateRoutes ∧ (∀ c' ∈ request.candidateRoutes, routeRank c ≤ routeRank c') ∧
        d.selectedRouteId = some c.routeId) := by
  obtain ⟨best, -, hleast, -⟩ := propose_ready request (h.ready "orchestrator_a" (by decide)).1
  have hholds := (h.holds keys moments best).run hleast h.distinct hs
  refine ⟨hholds.answers, ?_, ?_⟩
  · intro id hid error hfailed
    have hstage := hholds.stages id hid
    rw [hfailed] at hstage
    exact hstage
  · intro hcomplete
    obtain ⟨d, hd, -, -, -, -, reason, hout⟩ := hholds.sound.built keys
    rcases hholds.sound.outcome keys with ⟨digest, e, -, he, -, -, hdecided⟩ | ⟨hnone, -⟩
    · rw [hdecided, Option.some.injEq, Prod.mk.injEq, Prod.mk.injEq] at hout
      obtain ⟨hmem, hle⟩ := Sorting.minBy_some hleast
      refine ⟨d, best, hd, hout.1.symm, hmem, hle, ?_⟩
      rw [← hholds.routes e he]
      exact hout.2.2.symm
    · exact absurd hnone (hholds.quorum hcomplete)

/-! ## The development deployment -/

def devSession : Session devRuntime where
  round := .start devRequest
  cache := ⟨1, Nat.one_pos, []⟩
  replica := devReplica
  stage _ := .idle
  answers := []

theorem devSession_honest : Honest devKeys devMoment devRequest devSession := by
  refine ⟨rfl, fun _ => rfl, rfl, fun id hid => ⟨rfl, if_pos hid⟩, fun id hid => devReplica_ready hid,
    fun _ _ _ => rfl, fun id he => ?_⟩
  have hsuffix : (id ++ "-" ++ Phase.proposal.value).toList = (id ++ "-" ++ Phase.vote.value).toList :=
    congrArg String.toList he
  simp [String.toList_append, Phase.value] at hsuffix

theorem honest_round_dev : ∃ moves s' d, run devKeys devMoment devSession moves = some s' ∧
    (∀ id ∈ orchestratorIds, (s'.stage id).finished = true) ∧
    (buildDecision s'.round).2 = some d ∧ d.outcome = .decided ∧ d.selectedRouteId = some "route-a" := by
  have hleast : Sorting.minBy routeRank devRequest.candidateRoutes = some ⟨"route-a", 10⟩ := by decide
  obtain ⟨moves, s', hrun, hfinished⟩ :=
    ((devSession_honest).holds devKeys devMoment ⟨"route-a", 10⟩).finish_all hleast (devSession_honest).distinct
  obtain ⟨-, -, hdecided⟩ := honest_round devKeys devMoment devSession_honest hrun
  obtain ⟨d, c, hd, houtcome, hc, hmin, hroute⟩ := hdecided (.inr hfinished)
  refine ⟨moves, s', d, hrun, hfinished, hd, houtcome, ?_⟩
  rw [hroute]
  have hbest := hmin ⟨"route-a", 10⟩ (by decide)
  have hcandidates : c = ⟨"route-b", 20⟩ ∨ c = ⟨"route-a", 10⟩ := by simpa [devRequest, devContent] using hc
  rcases hcandidates with rfl | rfl
  · exact absurd hbest (by decide)
  · rfl

/-- A proposal and a vote for it are not yet a quorum. -/
theorem run_lone {request : Request R} {cache : BoundedReplayCache} {p : Proposal R} {v : Vote R}
    (hp : Countable keys request p) (hv : CountableVote keys request v)
    (hselected : v.selectedProposalDigest = p.proposalDigest)
    (hfresh : cache.find (p.orchestratorId, p.messageId) = none)
    (hfresh' : cache.find (v.orchestratorId, v.messageId) = none)
    (hne : (v.orchestratorId, v.messageId) ≠ (p.orchestratorId, p.messageId)) :
    (OrchestrationDecision.run keys ⟨.start request, cache⟩ [.acceptProposal p, .acceptVote v]).round =
      ⟨request, [(p.orchestratorId, p)], [(v.orchestratorId, v)], [], fun _ => [], none, false⟩ := by
  have hlatch : latch [(v.orchestratorId, v)] none = none := by
    rcases latch_none [(v.orchestratorId, v)] with ⟨digest, -, hquorum⟩ | ⟨hnone, -⟩
    · have hle : (approvers [(v.orchestratorId, v)] digest).length ≤ 1 := List.length_filter_le _ _
      exact absurd (Nat.le_trans hquorum hle) (by decide)
    · exact hnone
  have hproposal := acceptProposal_counted keys (r := .start request) (c := cache) (m := p) rfl hp
    (fun e he => absurd he List.not_mem_nil) hfresh
  have hvote := acceptVote_counted keys (r := ⟨request, [(p.orchestratorId, p)], [], [], fun _ => [], none, false⟩)
    (c := (cache.observe p.orchestratorId p.messageId p.messageHash).1) (m := v) rfl hv
    ⟨_, List.mem_singleton.mpr rfl, hselected.symm⟩ (fun e he => absurd he List.not_mem_nil)
    (observe_find hne hfresh')
  simp only [DecisionRound.start, List.nil_append] at hproposal
  simp only [List.nil_append, hlatch] at hvote
  simp only [OrchestrationDecision.run, List.foldl_cons, List.foldl_nil, OrchestrationDecision.step,
    DecisionRound.start, hproposal, hvote]

/-- The proposal and the vote of one replica: its approval is counted and stands in
neither list of the decision. -/
theorem lone_approval_unlisted : ∃ (p : Proposal devRuntime) (v : Vote devRuntime) (d : OrchestrationDecisionV1),
    p.toOrchestratorProposalV1 = signedProposal devRuntime devContent (devReplica "orchestrator_a")
      (devMoment "orchestrator_a" .proposal) "route-a" "MIN_PRIORITY_ROUTE_ID_TIEBREAK" ∧
    v.toOrchestratorVoteV1 = signedVote devRuntime devContent ((devReplica "orchestrator_a").next devRuntime)
      (devMoment "orchestrator_a" .vote) p.toOrchestratorProposalV1 ∧
    let last := (OrchestrationDecision.run devKeys ⟨.start devRequest, ⟨1, by decide, []⟩⟩
      [.acceptProposal p, .acceptVote v]).round
    (buildDecision last).2 = some d ∧ d.outcome = .insufficientResponses ∧
      last.votes.map Prod.fst = ["orchestrator_a"] ∧ d.supportingOrchestrators = [] ∧
      d.disagreeingOrchestrators = [] := by
  have ha : "orchestrator_a" ∈ orchestratorIds := by decide
  obtain ⟨c, p, hc, -, hp⟩ := propose_ready devRequest (devReplica_ready ha).1
  obtain ⟨v, -, hv⟩ := vote_ready devRequest (devReplica_ready ha).2 p
  have hleast : Sorting.minBy routeRank devRequest.candidateRoutes = some ⟨"route-a", 10⟩ := by decide
  have hbest : c = ⟨"route-a", 10⟩ := Option.some.inj (hc.symm.trans hleast)
  subst hbest
  have hsender : v.orchestratorId = "orchestrator_a" := congrArg (fun m => m.orchestratorId) hv
  have happrove : v.vote = .approve := congrArg OrchestratorVoteV1.vote hv
  have hids : (v.orchestratorId, v.messageId) ≠ (p.orchestratorId, p.messageId) := by
    have hmessage : p.messageId = "orchestrator_a-PROPOSAL" := congrArg (fun m => m.messageId) hp
    have hmessage' : v.messageId = "orchestrator_a-VOTE" := congrArg (fun m => m.messageId) hv
    rw [hmessage, hmessage']
    simp
  have hunseen : ∀ key, BoundedReplayCache.find ⟨1, by decide, []⟩ key = none := fun _ => rfl
  have hlast := run_lone devKeys
    (signedProposal_countable devRequest (devReplica_ready ha).1 rfl hp (by decide))
    (signedVote_countable devRequest (devReplica_ready ha).2 rfl hv)
    (congrArg OrchestratorVoteV1.selectedProposalDigest hv) (hunseen _) (hunseen _) hids
  refine ⟨p, v, ?_⟩
  rw [hlast]
  refine ⟨_, hp, hv, rfl, rfl, congrArg (fun id => [id]) hsender, ?_, ?_⟩
  · simp [supporters, truthy, sorted, Sorting.sortBy]
  · simp [disagreements, happrove, sorted, Sorting.sortBy]

end OrchestrationHonest
