import AgenticSoc.OrchestrationMessages
import AgenticSoc.Grouping

/-!
# A decision round

A round takes proposals and votes in any order, genuine or not, and counts at most one
of each for every orchestrator. The digest that first has the approvals of a quorum is
kept. The replay cache is shared with other rounds and forgets its oldest entries.
-/
namespace OrchestrationRound

open OrchestrationMessages Grouping

/-- The content hashes by sender and message identity, the oldest first. -/
structure BoundedReplayCache where
  limit : Nat
  limit_pos : 1 ≤ limit
  entries : List ((String × String) × String)

inductive Replay where
  | new | duplicate | conflict
  deriving DecidableEq, Repr

def BoundedReplayCache.find (c : BoundedReplayCache) (key : String × String) :
    Option ((String × String) × String) :=
  c.entries.find? fun e => e.1 = key

def BoundedReplayCache.observe (c : BoundedReplayCache) (sender messageId contentHash : String) :
    BoundedReplayCache × Replay :=
  let key := (sender, messageId)
  match c.find key with
  | some existing =>
    ({ c with entries := (c.entries.filter fun e => e.1 ≠ key) ++ [existing] },
      if existing.2 = contentHash then .duplicate else .conflict)
  | none =>
    let entries := c.entries ++ [(key, contentHash)]
    ({ c with entries := entries.drop (entries.length - c.limit) }, .new)

inductive Phase where
  | proposal | vote
  deriving DecidableEq, Repr

def Phase.value : Phase → String
  | .proposal => "PROPOSAL"
  | .vote => "VOTE"

structure MessageRejectionV1 where
  phase : Phase
  reasonCode : Reason
  orchestratorId : String
  messageId : String
  detail : String
  deriving DecidableEq

inductive Status where
  | accepted | duplicate
  | rejected (reason : Reason)
  deriving DecidableEq, Repr

def maxRejections : Nat := 64

/-- The sets that the coordinator puts replicas into. -/
inductive Mark where
  | unavailable | omitted | timedOut | delayed
  deriving DecidableEq, Repr

section Round

variable {F : Type} (R : Runtime F) (keys : String → Option Bytes)

/-- Proposals and votes stand by sender in the order of their arrival. -/
structure DecisionRound where
  request : Request R
  proposals : List (String × Proposal R)
  votes : List (String × Vote R)
  rejections : List MessageRejectionV1
  marked : Mark → List String
  quorumDigest : Option String
  terminal : Bool

variable {R}

/-- A round in which nothing has happened. -/
def DecisionRound.start (request : Request R) : DecisionRound R :=
  ⟨request, [], [], [], fun _ => [], none, false⟩

def DecisionRound.requestDigest (r : DecisionRound R) : String :=
  OrchestrationMessages.requestDigest R r.request.toOrchestrationRequestV1

/-- The identity joins one of the sets. -/
def DecisionRound.mark (r : DecisionRound R) (m : Mark) (orchestratorId : String) : DecisionRound R :=
  { r with marked := fun m' =>
      if m' = m ∧ orchestratorId ∉ r.marked m then r.marked m ++ [orchestratorId] else r.marked m' }

/-- The rejection is recorded; the oldest ones go when there are too many. -/
def DecisionRound.reject (r : DecisionRound R) (phase : Phase) (m : Envelope R.floats) (reason : Reason)
    (detail : String) : DecisionRound R :=
  let rejections := r.rejections ++ [⟨phase, reason, m.orchestratorId, m.messageId, detail⟩]
  { r with rejections := rejections.drop (rejections.length - maxRejections) }

def bindingReason (r : DecisionRound R) (m : Envelope R.floats) : Option Reason :=
  if m.orchestratorId ∉ orchestratorIds then some .unknownOrchestrator
  else if m.requestId ≠ r.request.requestId then some .wrongRequest
  else if m.requestVersion ≠ r.request.requestVersion then some .wrongRequestVersion
  else if m.roundId ≠ r.request.roundId then some .wrongRound
  else if m.requestDigest ≠ r.requestDigest then some .wrongRequestDigest
  else none

/-- The checks that proposals and votes share, with what the verifier said. -/
def screen (r : DecisionRound R) (m : Envelope R.floats) (verified : Except Reason Unit) :
    Except (Reason × String) Unit :=
  if r.terminal then .error (.lateMessage, "round is terminal")
  else if m.orchestratorId ∉ orchestratorIds then .error (.unknownOrchestrator, "unknown sender")
  else
    match verified with
    | .error reason => .error (reason, "message integrity failed")
    | .ok () =>
      match bindingReason r m with
      | some reason => .error (reason, "request binding mismatch")
      | none => .ok ()

/-- The digest that a proposal of its route has to carry. -/
def expectedDigest (m : OrchestratorProposalV1 R.floats) : String :=
  proposalDigest R m.requestId m.requestVersion m.roundId m.requestDigest m.proposedRouteId

/-- Everything that is checked of a proposal before the replay cache is asked. -/
def screenProposal (r : DecisionRound R) (m : Proposal R) : Except (Reason × String) Unit :=
  match screen r m.toEnvelope (verifyProposal R keys m.toOrchestratorProposalV1) with
  | .error e => .error e
  | .ok () =>
    if m.proposedRouteId ∉ r.request.candidateRoutes.map CandidateRouteV1.routeId then
      .error (.unknownRoute, "route not declared")
    else if m.proposalDigest ≠ expectedDigest m.toOrchestratorProposalV1 then
      .error (.proposalDigestMismatch, "semantic proposal digest is inconsistent")
    else .ok ()

/-- Everything that is checked of a vote before the replay cache is asked. -/
def screenVote (r : DecisionRound R) (m : Vote R) : Except (Reason × String) Unit :=
  match screen r m.toEnvelope (verifyVote R keys m.toOrchestratorVoteV1) with
  | .error e => .error e
  | .ok () =>
    if m.selectedProposalDigest ∉ r.proposals.map (fun e => e.2.proposalDigest) then
      .error (.unknownProposalDigest, "vote does not reference an accepted proposal")
    else .ok ()

/-- What becomes of a screened message, by the answer of the replay cache and by the
hash of what its sender has in the round: counted, a duplicate, or rejected. -/
def settle (replay : Replay) (prior : Option String) (messageHash : String) (second : Reason × String) :
    Except (Reason × String) Bool :=
  match replay with
  | .duplicate => .ok false
  | .conflict => .error (.conflictingMessageId, "message identity reused with different content")
  | .new =>
    match prior with
    | none => .ok true
    | some hash => if hash = messageHash then .ok false else .error second

/-- The approvals by digest, in the order of the first approval of each. -/
def approvals (votes : List (String × Vote R)) : List (String × List (String × Vote R)) :=
  groupOn (fun e => e.2.selectedProposalDigest) (votes.filter fun e => e.2.vote = .approve)

/-- The digest that is kept once one has the approvals of a quorum. -/
def latch (votes : List (String × Vote R)) (quorum : Option String) : Option String :=
  (approvals votes).foldl
    (fun q g => if requiredQuorum ≤ g.2.length ∧ q = none then some g.1 else q) quorum

def settleProposal (r : DecisionRound R) (m : Proposal R) (replay : Replay) : DecisionRound R × Status :=
  let prior := (r.proposals.find? fun e => e.1 = m.orchestratorId).map fun e => e.2.messageHash
  match settle replay prior m.messageHash (.conflictingProposal, "sender already proposed in this round") with
  | .error (reason, detail) => (r.reject .proposal m.toEnvelope reason detail, .rejected reason)
  | .ok false => (r, .duplicate)
  | .ok true => ({ r with proposals := r.proposals ++ [(m.orchestratorId, m)] }, .accepted)

def settleVote (r : DecisionRound R) (m : Vote R) (replay : Replay) : DecisionRound R × Status :=
  let prior := (r.votes.find? fun e => e.1 = m.orchestratorId).map fun e => e.2.messageHash
  match settle replay prior m.messageHash
    (.conflictingVote, "sender attempted more than one effective vote") with
  | .error (reason, detail) => (r.reject .vote m.toEnvelope reason detail, .rejected reason)
  | .ok false => (r, .duplicate)
  | .ok true =>
    let votes := r.votes ++ [(m.orchestratorId, m)]
    ({ r with votes := votes, quorumDigest := latch votes r.quorumDigest }, .accepted)

def acceptProposal (r : DecisionRound R) (c : BoundedReplayCache) (m : Proposal R) :
    (DecisionRound R × BoundedReplayCache) × Status :=
  match screenProposal keys r m with
  | .error (reason, detail) => ((r.reject .proposal m.toEnvelope reason detail, c), .rejected reason)
  | .ok () =>
    let (c', replay) := c.observe m.orchestratorId m.messageId m.messageHash
    let (r', status) := settleProposal r m replay
    ((r', c'), status)

def acceptVote (r : DecisionRound R) (c : BoundedReplayCache) (m : Vote R) :
    (DecisionRound R × BoundedReplayCache) × Status :=
  match screenVote keys r m with
  | .error (reason, detail) => ((r.reject .vote m.toEnvelope reason detail, c), .rejected reason)
  | .ok () =>
    let (c', replay) := c.observe m.orchestratorId m.messageId m.messageHash
    let (r', status) := settleVote r m replay
    ((r', c'), status)

def DecisionRound.close (r : DecisionRound R) : DecisionRound R := { r with terminal := true }

/-! ## The decision -/

inductive OrchestrationOutcome where
  | decided | noQuorum | timedOut | insufficientResponses | rejectedRequest
  deriving DecidableEq, Repr

def OrchestrationOutcome.value : OrchestrationOutcome → String
  | .decided => "DECIDED"
  | .noQuorum => "NO_QUORUM"
  | .timedOut => "TIMED_OUT"
  | .insufficientResponses => "INSUFFICIENT_RESPONSES"
  | .rejectedRequest => "REJECTED_REQUEST"

structure ProposalSummaryV1 where
  orchestratorId : String
  messageId : String
  proposedRouteId : String
  proposalDigest : String
  messageHash : String
  policyId : String
  policyVersion : String
  rationaleCode : String
  deriving DecidableEq

structure VoteSummaryV1 where
  orchestratorId : String
  messageId : String
  selectedProposalDigest : String
  vote : VoteValue
  messageHash : String
  reasonCode : String
  deriving DecidableEq

structure OrchestrationDecisionV1 where
  requestId : String
  requestVersion : Int
  roundId : String
  requestDigest : String
  outcome : OrchestrationOutcome
  selectedRouteId : Option String
  selectedProposalDigest : Option String
  proposalSummaries : List ProposalSummaryV1
  voteSummaries : List VoteSummaryV1
  rejections : List MessageRejectionV1
  supportingOrchestrators : List String
  disagreeingOrchestrators : List String
  timedOutOrchestrators : List String
  delayedOrchestrators : List String
  omittedOrchestrators : List String
  unavailableOrchestrators : List String
  quorumFormed : Bool
  reason : String
  logicalTimestamp : Option String
  windowId : Option Int
  deriving DecidableEq

def proposalSummary (e : String × Proposal R) : ProposalSummaryV1 :=
  ⟨e.2.orchestratorId, e.2.messageId, e.2.proposedRouteId, e.2.proposalDigest, e.2.messageHash,
    e.2.policyId, e.2.policyVersion, e.2.rationaleCode⟩

def voteSummary (e : String × Vote R) : VoteSummaryV1 :=
  ⟨e.2.orchestratorId, e.2.messageId, e.2.selectedProposalDigest, e.2.vote, e.2.messageHash,
    e.2.reasonCode⟩

def sorted (ids : List String) : List String := Sorting.sortBy String.toList ids

/-- The selected digest as a condition: an empty text counts as none. -/
def truthy (digest : Option String) : Bool := digest.any fun d => d ≠ ""

/-- The outcome, its reason and the selected route. Nothing when no proposal has the
selected digest. -/
def outcomeOf (r : DecisionRound R) : Option (OrchestrationOutcome × String × Option String) :=
  if truthy r.quorumDigest then
    match r.proposals.find? fun e => some e.2.proposalDigest = r.quorumDigest with
    | some e => some (.decided, "TWO_OF_THREE_AUTHENTICATED_APPROVAL_QUORUM", some e.2.proposedRouteId)
    | none => none
  else if r.marked .timedOut ≠ [] then some (.timedOut, "DEADLINE_WITHOUT_QUORUM", none)
  else if r.votes.length < requiredQuorum then
    some (.insufficientResponses, "FEWER_THAN_TWO_USABLE_VOTES", none)
  else some (.noQuorum, "NO_PROPOSAL_RECEIVED_TWO_DISTINCT_APPROVALS", none)

def supporters (r : DecisionRound R) : List String :=
  sorted ((r.votes.filter fun e => truthy r.quorumDigest && e.2.vote = .approve &&
    some e.2.selectedProposalDigest = r.quorumDigest).map Prod.fst)

def disagreements (r : DecisionRound R) : List String :=
  sorted ((r.votes.filter fun e => e.2.vote ≠ .approve ||
    (r.quorumDigest ≠ none && some e.2.selectedProposalDigest ≠ r.quorumDigest) ||
    (r.quorumDigest = none && 1 < r.votes.length)).map Prod.fst)

/-- The last validator of a decision. -/
def consistentOutcome (d : OrchestrationDecisionV1) : Bool :=
  if d.outcome = .decided then d.quorumFormed && truthy d.selectedRouteId
  else d.selectedRouteId = none && d.selectedProposalDigest = none

/-- The round is terminal from here on. -/
def buildDecision (r : DecisionRound R) : DecisionRound R × Option OrchestrationDecisionV1 :=
  (r.close, (outcomeOf r).bind fun (outcome, reason, route) =>
    let d : OrchestrationDecisionV1 :=
      { requestId := r.request.requestId
        requestVersion := r.request.requestVersion
        roundId := r.request.roundId
        requestDigest := r.requestDigest
        outcome := outcome
        selectedRouteId := route
        selectedProposalDigest := r.quorumDigest
        proposalSummaries := r.proposals.map proposalSummary
        voteSummaries := r.votes.map voteSummary
        rejections := r.rejections
        supportingOrchestrators := supporters r
        disagreeingOrchestrators := disagreements r
        timedOutOrchestrators := sorted (r.marked .timedOut)
        delayedOrchestrators := sorted (r.marked .delayed)
        omittedOrchestrators := sorted (r.marked .omitted)
        unavailableOrchestrators := sorted (r.marked .unavailable)
        quorumFormed := r.quorumDigest ≠ none
        reason := reason
        logicalTimestamp := r.request.logicalTimestamp
        windowId := r.request.windowId }
    if consistentOutcome d then some d else none)

end Round

end OrchestrationRound
