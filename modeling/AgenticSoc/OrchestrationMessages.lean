import AgenticSoc.OrchestrationFirewall

/-!
# Orchestration requests and messages

The contracts of a request, a proposal and a vote with their validators, the digests
of requests and proposals, and the signature of a message and its check. A validated
contract carries its validity.
-/
namespace OrchestrationMessages

open PythonJson BlackboardFirewall OrchestrationFirewall
open BlackboardRecord (runChecks)

abbrev Bytes := List UInt8

def isHexDigit (c : Char) : Bool := c.isDigit || ('a' ≤ c && c ≤ 'f')

/-- The digest pattern: 64 lower-case hexadecimal digits. -/
def isDigest (s : String) : Bool := s.length = 64 && s.toList.all isHexDigit

/-- What the messages use of the run-time library and of the contract library. A digest
is a hexadecimal one. The JSON mode of a dump turns every key into a text: what can be
written stays so, and a value with text keys only is written alike. -/
structure Runtime (F : Type) where
  floats : PyFloats F
  lowerCase : LowerCase
  sha256Hex : String → String
  hmacHex : Bytes → String → String
  jsonMode : PyValue F → PyValue F
  sha256Hex_digest : ∀ s, isDigest (sha256Hex s) = true
  hmacHex_digest : ∀ k s, isDigest (hmacHex k s) = true
  jsonMode_some : ∀ v j, encode floats v = some j → ∃ j', encode floats (jsonMode v) = some j'
  jsonMode_text : ∀ v, TextKeys v → encode floats (jsonMode v) = encode floats v

def orchestratorIds : List String := ["orchestrator_a", "orchestrator_b", "orchestrator_c"]
def requiredQuorum : Nat := 2
def maxRequestCanonicalBytes : Nat := 65536

def isIdChar (c : Char) : Bool := c.isAlphanum || c = '_' || c = '.' || c = ':' || c = '-'

/-- The identifier pattern: a letter or digit, then at most 127 identifier characters. -/
def matchesId (s : String) : Bool :=
  match s.toList with
  | [] => false
  | c :: rest => c.isAlphanum && rest.all isIdChar && rest.length ≤ 127

/-- A text of at least one and at most so many characters. -/
def fits (most : Nat) (s : String) : Bool := 1 ≤ s.length && s.length ≤ most

def fitsOptional (most : Nat) (s : Option String) : Bool := s.all fun t => t.length ≤ most

structure CandidateRouteV1 where
  routeId : String
  priority : Int
  deriving DecidableEq

structure OrchestrationRequestV1 {F : Type} (fmt : PyFloats F) where
  requestId : String
  requestVersion : Int
  roundId : String
  decisionKind : String
  candidateRoutes : List CandidateRouteV1
  logicalTimestamp : Option String
  windowId : Option Int
  scopeId : Option String
  sourceComponent : String
  provenance : PyDict fmt

structure AuthenticationMetadataV1 where
  keyId : String
  tag : String
  deriving DecidableEq

/-- The fields that proposals and votes share. -/
structure Envelope {F : Type} (fmt : PyFloats F) where
  messageId : String
  requestId : String
  requestVersion : Int
  roundId : String
  requestDigest : String
  orchestratorId : String
  messageHash : String
  logicalTimestamp : Option String
  windowId : Option Int
  senderSequence : Int
  producedAtUtc : String
  provenance : PyDict fmt
  authentication : AuthenticationMetadataV1

structure OrchestratorProposalV1 {F : Type} (fmt : PyFloats F) extends Envelope fmt where
  proposedRouteId : String
  proposalDigest : String
  policyId : String
  policyVersion : String
  rationaleCode : String

inductive VoteValue where
  | approve | reject | abstain
  deriving DecidableEq, Repr

def VoteValue.value : VoteValue → String
  | .approve => "APPROVE"
  | .reject => "REJECT"
  | .abstain => "ABSTAIN"

structure OrchestratorVoteV1 {F : Type} (fmt : PyFloats F) extends Envelope fmt where
  selectedProposalDigest : String
  vote : VoteValue
  reasonCode : String

section Contracts

variable {F : Type} (R : Runtime F)

abbrev Entries (F : Type) := List (PyKey F × PyValue F)

/-- A dictionary with these texts as keys. -/
def dictOf (fields : List (String × PyValue F)) : PyValue F :=
  .dict none (fields.map fun e => (.str e.1, e.2))

def optionalText : Option String → PyValue F
  | none => .none
  | some s => .str s

def optionalInt : Option Int → PyValue F
  | none => .none
  | some n => .int n

/-- The canonical text of a value that has one. -/
def canonicalJson (v : PyValue F) : String := (dumps R.floats v).getD ""

def canonicalHash (v : PyValue F) : String := R.sha256Hex (canonicalJson R v)

/-- The value has a canonical text of at most so many bytes. -/
def withinBytes (most : Nat) (v : PyValue F) : Bool :=
  (dumps R.floats v).any fun t => t.utf8ByteSize ≤ most

/-! ## Requests -/

def CandidateRouteV1.dump (c : CandidateRouteV1) : PyValue F :=
  dictOf [("schema_version", .str "orchestration_candidate_route_v1"), ("route_id", .str c.routeId),
    ("priority", .int c.priority)]

/-- The dump of a request with these routes and this form of its provenance. -/
def requestDump (r : OrchestrationRequestV1 R.floats) (routes : List CandidateRouteV1)
    (provenance : PyValue F) : PyValue F :=
  dictOf [("schema_version", .str "orchestration_request_v1"), ("request_id", .str r.requestId),
    ("request_version", .int r.requestVersion), ("round_id", .str r.roundId),
    ("decision_kind", .str r.decisionKind),
    ("candidate_routes", .list none (routes.map CandidateRouteV1.dump)),
    ("logical_timestamp", optionalText r.logicalTimestamp), ("window_id", optionalInt r.windowId),
    ("scope_id", optionalText r.scopeId), ("source_component", .str r.sourceComponent),
    ("provenance", provenance)]

/-- The Python-mode dump. -/
def requestModelDump (r : OrchestrationRequestV1 R.floats) : PyValue F :=
  requestDump R r r.candidateRoutes (rebuilt r.provenance.value)

def candidateChecks (c : CandidateRouteV1) : List (Bool × String) :=
  [(fits 128 c.routeId, "route_id"),
    (matchesId c.routeId, "route_id must be an opaque bounded identifier"),
    (0 ≤ c.priority && c.priority ≤ 1000000, "priority")]

def requestChecks (r : OrchestrationRequestV1 R.floats) : List (Bool × String) :=
  [(fits 128 r.requestId, "request_id"), (1 ≤ r.requestVersion, "request_version"),
    (fits 128 r.roundId, "round_id"), (fits 64 r.decisionKind, "decision_kind"),
    (1 ≤ r.candidateRoutes.length && r.candidateRoutes.length ≤ 32, "candidate_routes")] ++
  r.candidateRoutes.flatMap candidateChecks ++
  [(fitsOptional 128 r.logicalTimestamp, "logical_timestamp"), (r.windowId.all (0 ≤ ·), "window_id"),
    (fitsOptional 128 r.scopeId, "scope_id"), (fits 128 r.sourceComponent, "source_component"),
    (decide (r.candidateRoutes.map CandidateRouteV1.routeId).Nodup, "candidate route IDs must be unique"),
    (matchesId r.requestId && matchesId r.roundId && matchesId r.decisionKind,
      "request identifiers must be bounded opaque IDs"),
    ((findOrchestrationGroundTruth R.floats R.lowerCase (requestModelDump R r)).isEmpty,
      "ground-truth leakage in OrchestrationRequestV1"),
    ((dumps R.floats (requestModelDump R r)).isSome, "not JSON serializable"),
    (withinBytes R maxRequestCanonicalBytes (requestModelDump R r),
      "orchestration request exceeds canonical byte bound")]

/-- A validated request. -/
structure Request extends OrchestrationRequestV1 R.floats where
  valid : runChecks (requestChecks R toOrchestrationRequestV1) = .ok ()

/-- The digest does not depend on the order of the routes. -/
def requestDigest (r : OrchestrationRequestV1 R.floats) : String :=
  canonicalHash R (requestDump R r
    (Sorting.sortBy (fun c => c.routeId.toList) r.candidateRoutes) (R.jsonMode r.provenance.value))

def proposalDigest (requestId : String) (requestVersion : Int) (roundId requestDigestValue
    proposedRouteId : String) : String :=
  canonicalHash R (dictOf [("schema_version", .str "orchestrator_proposal_semantics_v1"),
    ("request_id", .str requestId), ("request_version", .int requestVersion), ("round_id", .str roundId),
    ("request_digest", .str requestDigestValue), ("proposed_route_id", .str proposedRouteId)])

/-! ## Messages -/

def authenticationHeader (keyId : String) : List (String × PyValue F) :=
  [("schema_version", .str "orchestrator_message_auth_v1"), ("algorithm", .str "HMAC-SHA256"),
    ("key_id", .str keyId)]

def AuthenticationMetadataV1.dump (a : AuthenticationMetadataV1) : List (String × PyValue F) :=
  authenticationHeader a.keyId ++ [("tag", .str a.tag)]

/-- The dump of a proposal with this form of its provenance. -/
def proposalDump {fmt : PyFloats F} (m : OrchestratorProposalV1 fmt) (provenance : PyValue F) :
    List (String × PyValue F) :=
  [("schema_version", .str "orchestrator_proposal_v1"), ("message_id", .str m.messageId),
    ("request_id", .str m.requestId), ("request_version", .int m.requestVersion),
    ("round_id", .str m.roundId), ("request_digest", .str m.requestDigest),
    ("orchestrator_id", .str m.orchestratorId), ("proposed_route_id", .str m.proposedRouteId),
    ("proposal_digest", .str m.proposalDigest), ("message_hash", .str m.messageHash),
    ("logical_timestamp", optionalText m.logicalTimestamp), ("window_id", optionalInt m.windowId),
    ("policy_id", .str m.policyId), ("policy_version", .str m.policyVersion),
    ("rationale_code", .str m.rationaleCode), ("sender_sequence", .int m.senderSequence),
    ("produced_at_utc", .str m.producedAtUtc), ("provenance", provenance),
    ("authentication", dictOf m.authentication.dump)]

/-- The dump of a vote with this form of its provenance. -/
def voteDump {fmt : PyFloats F} (m : OrchestratorVoteV1 fmt) (provenance : PyValue F) :
    List (String × PyValue F) :=
  [("schema_version", .str "orchestrator_vote_v1"), ("message_id", .str m.messageId),
    ("request_id", .str m.requestId), ("request_version", .int m.requestVersion),
    ("round_id", .str m.roundId), ("request_digest", .str m.requestDigest),
    ("orchestrator_id", .str m.orchestratorId),
    ("selected_proposal_digest", .str m.selectedProposalDigest), ("vote", .str m.vote.value),
    ("sender_sequence", .int m.senderSequence), ("message_hash", .str m.messageHash),
    ("logical_timestamp", optionalText m.logicalTimestamp), ("window_id", optionalInt m.windowId),
    ("reason_code", .str m.reasonCode), ("produced_at_utc", .str m.producedAtUtc),
    ("provenance", provenance), ("authentication", dictOf m.authentication.dump)]

def envelopeChecks {fmt : PyFloats F} (m : Envelope fmt) : List (Bool × String) :=
  [(fits 128 m.messageId, "message_id"), (fits 128 m.requestId, "request_id"),
    (1 ≤ m.requestVersion, "request_version"), (fits 128 m.roundId, "round_id"),
    (isDigest m.requestDigest, "request_digest"), (fits 64 m.orchestratorId, "orchestrator_id"),
    (isDigest m.messageHash, "message_hash"), (fitsOptional 128 m.logicalTimestamp, "logical_timestamp"),
    (m.windowId.all (0 ≤ ·), "window_id"), (0 ≤ m.senderSequence, "sender_sequence"),
    (fits 64 m.producedAtUtc, "produced_at_utc"), (fits 64 m.authentication.keyId, "authentication.key_id"),
    (isDigest m.authentication.tag, "authentication.tag")]

/-- What the last validator of a message checks of its Python-mode dump. -/
def contentChecks (className what : String) (dump : PyValue F) : List (Bool × String) :=
  [((findOrchestrationGroundTruth R.floats R.lowerCase dump).isEmpty,
      "ground-truth leakage in " ++ className),
    ((dumps R.floats dump).isSome, "not JSON serializable"),
    (withinBytes R maxRequestCanonicalBytes dump, what ++ " exceeds canonical byte bound")]

def proposalChecks (m : OrchestratorProposalV1 R.floats) : List (Bool × String) :=
  envelopeChecks m.toEnvelope ++
  [(fits 128 m.proposedRouteId, "proposed_route_id"), (isDigest m.proposalDigest, "proposal_digest"),
    (fits 128 m.policyId, "policy_id"), (fits 64 m.policyVersion, "policy_version"),
    (fits 128 m.rationaleCode, "rationale_code")] ++
  contentChecks R "OrchestratorProposalV1" "orchestrator proposal" (dictOf (proposalDump m (rebuilt m.provenance.value)))

def voteChecks (m : OrchestratorVoteV1 R.floats) : List (Bool × String) :=
  envelopeChecks m.toEnvelope ++
  [(isDigest m.selectedProposalDigest, "selected_proposal_digest"), (fits 128 m.reasonCode, "reason_code")] ++
  contentChecks R "OrchestratorVoteV1" "orchestrator vote" (dictOf (voteDump m (rebuilt m.provenance.value)))

structure Proposal extends OrchestratorProposalV1 R.floats where
  valid : runChecks (proposalChecks R toOrchestratorProposalV1) = .ok ()

structure Vote extends OrchestratorVoteV1 R.floats where
  valid : runChecks (voteChecks R toOrchestratorVoteV1) = .ok ()

/-! ## Signatures -/

def pop (key : String) (fields : List (String × PyValue F)) : List (String × PyValue F) :=
  fields.filter fun e => e.1 ≠ key

/-- The fields that the hash and the signature cover: neither the hash nor the tag. -/
def messageContent (fields authentication : List (String × PyValue F)) : List (String × PyValue F) :=
  pop "authentication" (pop "message_hash" fields) ++ [("authentication", dictOf (pop "tag" authentication))]

def messageHashOf (fields authentication : List (String × PyValue F)) : String :=
  canonicalHash R (dictOf (messageContent fields authentication))

def messageTagOf (key : Bytes) (fields authentication : List (String × PyValue F)) : String :=
  R.hmacHex key (canonicalJson R (dictOf (messageContent fields authentication)))

/-- The hash and the signature of the fields of a message that is being made. -/
def signFields (orchestratorId : String) (key : Bytes) (fields : List (String × PyValue F)) :
    String × AuthenticationMetadataV1 :=
  (messageHashOf R fields (authenticationHeader orchestratorId),
    ⟨orchestratorId, messageTagOf R key fields (authenticationHeader orchestratorId)⟩)

/-- The reason codes of rejected messages. -/
inductive Reason where
  | lateMessage | unknownOrchestrator | authIdentityMismatch | messageHashMismatch
  | authenticationFailed | wrongRequest | wrongRequestVersion | wrongRound | wrongRequestDigest
  | unknownRoute | proposalDigestMismatch | unknownProposalDigest | conflictingMessageId
  | conflictingProposal | conflictingVote
  deriving DecidableEq, Repr

def Reason.value : Reason → String
  | .lateMessage => "LATE_MESSAGE"
  | .unknownOrchestrator => "UNKNOWN_ORCHESTRATOR"
  | .authIdentityMismatch => "AUTH_IDENTITY_MISMATCH"
  | .messageHashMismatch => "MESSAGE_HASH_MISMATCH"
  | .authenticationFailed => "AUTHENTICATION_FAILED"
  | .wrongRequest => "WRONG_REQUEST"
  | .wrongRequestVersion => "WRONG_REQUEST_VERSION"
  | .wrongRound => "WRONG_ROUND"
  | .wrongRequestDigest => "WRONG_REQUEST_DIGEST"
  | .unknownRoute => "UNKNOWN_ROUTE"
  | .proposalDigestMismatch => "PROPOSAL_DIGEST_MISMATCH"
  | .unknownProposalDigest => "UNKNOWN_PROPOSAL_DIGEST"
  | .conflictingMessageId => "CONFLICTING_MESSAGE_ID"
  | .conflictingProposal => "CONFLICTING_PROPOSAL"
  | .conflictingVote => "CONFLICTING_VOTE"

/-- The check of a message by the key of its sender. The contract admits one
algorithm only, so that check never fails. -/
def verify (keys : String → Option Bytes) (m : Envelope R.floats) (jsonDump : List (String × PyValue F)) :
    Except Reason Unit :=
  match keys m.orchestratorId with
  | none => .error .unknownOrchestrator
  | some key =>
    if m.authentication.keyId ≠ m.orchestratorId then .error .authIdentityMismatch
    else if messageHashOf R jsonDump m.authentication.dump ≠ m.messageHash then .error .messageHashMismatch
    else if messageTagOf R key jsonDump m.authentication.dump ≠ m.authentication.tag then
      .error .authenticationFailed
    else .ok ()

def verifyProposal (keys : String → Option Bytes) (m : OrchestratorProposalV1 R.floats) : Except Reason Unit :=
  verify R keys m.toEnvelope (proposalDump m (R.jsonMode m.provenance.value))

def verifyVote (keys : String → Option Bytes) (m : OrchestratorVoteV1 R.floats) : Except Reason Unit :=
  verify R keys m.toEnvelope (voteDump m (R.jsonMode m.provenance.value))

/-- The message is one of its own sender's, hashed and signed with the sender's key. -/
structure Authentic (keys : String → Option Bytes) (m : Envelope R.floats)
    (jsonDump : List (String × PyValue F)) : Prop where
  sender : m.authentication.keyId = m.orchestratorId
  hash : m.messageHash = messageHashOf R jsonDump m.authentication.dump
  signed : ∃ key, keys m.orchestratorId = some key ∧
    m.authentication.tag = messageTagOf R key jsonDump m.authentication.dump

theorem verify_ok {keys : String → Option Bytes} {m : Envelope R.floats}
    {jsonDump : List (String × PyValue F)} :
    verify R keys m jsonDump = .ok () ↔ Authentic R keys m jsonDump := by
  unfold verify
  cases hkey : keys m.orchestratorId with
  | none =>
    simp only [reduceCtorEq, false_iff]
    intro h
    obtain ⟨key, hsome, -⟩ := h.signed
    rw [hkey] at hsome
    cases hsome
  | some key =>
    simp only
    constructor
    · intro h
      split at h
      · cases h
      · rename_i hsender
        split at h
        · cases h
        · rename_i hhash
          split at h
          · cases h
          · rename_i htag
            simp only [ne_eq, not_not] at hsender hhash htag
            exact ⟨hsender, hhash.symm, key, hkey, htag.symm⟩
    · intro h
      obtain ⟨key', hsome, htag⟩ := h.signed
      rw [hkey, Option.some.injEq] at hsome
      subst hsome
      rw [if_neg (not_not.mpr h.sender), if_neg (not_not.mpr h.hash.symm), if_neg (not_not.mpr htag.symm)]

end Contracts

end OrchestrationMessages
