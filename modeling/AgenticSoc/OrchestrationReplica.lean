import AgenticSoc.OrchestrationDecision
import AgenticSoc.JsonSize
import AgenticSoc.Sha256

/-!
# Orchestrator replicas

A replica proposes the route of its policy and votes for its own proposal, and signs
both. What it produces for a valid request is a valid contract, authentic under its key
and bound to the request: the hash and the signature are made of the fields before the
contract is built and are checked on the dump of the contract.
-/
namespace OrchestrationReplica

open OrchestrationMessages OrchestrationFirewall OrchestrationRound OrchestrationDecision PythonJson JsonSize
open BlackboardRecord (runChecks runChecks_ok)
open BlackboardFirewall (LowerCase asciiLowerCase)

/-- Chooses a route, with its rationale. A request without a choice makes it fail. -/
structure RoutingPolicy {F : Type} (fmt : PyFloats F) where
  policyId : String
  policyVersion : String
  propose : OrchestrationRequestV1 fmt → Option (String × String)

/-- The key of the deterministic policy: the priority, then the route. -/
def routeRank (c : CandidateRouteV1) : ℤ ×ₗ List Char := toLex (c.priority, c.routeId.toList)

def deterministicPriorityPolicy {F : Type} (fmt : PyFloats F) : RoutingPolicy fmt where
  policyId := "stage6_deterministic_priority"
  policyVersion := "1"
  propose request := (Sorting.minBy routeRank request.candidateRoutes).map fun c =>
    (c.routeId, "MIN_PRIORITY_ROUTE_ID_TIEBREAK")

structure OrchestratorReplica {F : Type} (fmt : PyFloats F) where
  orchestratorId : String
  key : Bytes
  policy : RoutingPolicy fmt
  available : Bool
  senderSequence : Nat

/-- How a replica's task fails. -/
inductive ReplicaError where
  | unavailable (orchestratorId : String)
  | omission (detail : String)
  | raised (typeName message : String)
  deriving DecidableEq

/-- What a replica finds when it makes a message: a fresh identifier, the time, and
what its hook raises. -/
structure Moment where
  messageId : String
  utcNow : String
  fault : Option ReplicaError

section Replica

variable {F : Type} (R : Runtime F)

/-- The provenance of a replica's messages. -/
def replicaProvenance (fmt : PyFloats F) (sourceComponent : String) : PyDict fmt where
  toPyObject := PyObject.ofJson fmt (.obj [("source_component", .str "orchestration.replica"),
      ("request_source_component", .str sourceComponent)])
    (.obj _ (by simp) (by
      intro m hm
      simp only [List.mem_cons, List.not_mem_nil, or_false] at hm
      rcases hm with rfl | rfl <;> exact .str _))
  textDict := rfl

def proposalFields (request : OrchestrationRequestV1 R.floats) (ρ : OrchestratorReplica R.floats) (e : Moment)
    (routeId rationale : String) : List (String × PyValue F) :=
  let reqDigest := requestDigest R request
  [("schema_version", .str "orchestrator_proposal_v1"), ("message_id", .str e.messageId),
    ("request_id", .str request.requestId), ("request_version", .int request.requestVersion),
    ("round_id", .str request.roundId), ("request_digest", .str reqDigest),
    ("orchestrator_id", .str ρ.orchestratorId), ("proposed_route_id", .str routeId),
    ("proposal_digest", .str (proposalDigest R request.requestId request.requestVersion request.roundId
      reqDigest routeId)),
    ("logical_timestamp", optionalText request.logicalTimestamp), ("window_id", optionalInt request.windowId),
    ("policy_id", .str ρ.policy.policyId), ("policy_version", .str ρ.policy.policyVersion),
    ("rationale_code", .str rationale), ("sender_sequence", .int ρ.senderSequence),
    ("produced_at_utc", .str e.utcNow),
    ("provenance", (replicaProvenance R.floats request.sourceComponent).value)]

def voteFields (request : OrchestrationRequestV1 R.floats) (ρ : OrchestratorReplica R.floats) (e : Moment)
    (proposal : OrchestratorProposalV1 R.floats) : List (String × PyValue F) :=
  [("schema_version", .str "orchestrator_vote_v1"), ("message_id", .str e.messageId),
    ("request_id", .str request.requestId), ("request_version", .int request.requestVersion),
    ("round_id", .str request.roundId), ("request_digest", .str (requestDigest R request)),
    ("orchestrator_id", .str ρ.orchestratorId),
    ("selected_proposal_digest", .str proposal.proposalDigest), ("vote", .str VoteValue.approve.value),
    ("sender_sequence", .int ρ.senderSequence),
    ("logical_timestamp", optionalText request.logicalTimestamp), ("window_id", optionalInt request.windowId),
    ("reason_code", .str "INDEPENDENT_POLICY_MATCH"), ("produced_at_utc", .str e.utcNow),
    ("provenance", (replicaProvenance R.floats request.sourceComponent).value)]

/-- The shared fields of a message with the signature of all its fields. -/
def signedEnvelope (request : OrchestrationRequestV1 R.floats) (ρ : OrchestratorReplica R.floats) (e : Moment)
    (fields : List (String × PyValue F)) : Envelope R.floats :=
  let signed := signFields R ρ.orchestratorId ρ.key fields
  { messageId := e.messageId
    requestId := request.requestId
    requestVersion := request.requestVersion
    roundId := request.roundId
    requestDigest := requestDigest R request
    orchestratorId := ρ.orchestratorId
    messageHash := signed.1
    logicalTimestamp := request.logicalTimestamp
    windowId := request.windowId
    senderSequence := ρ.senderSequence
    producedAtUtc := e.utcNow
    provenance := replicaProvenance R.floats request.sourceComponent
    authentication := signed.2 }

def signedProposal (request : OrchestrationRequestV1 R.floats) (ρ : OrchestratorReplica R.floats) (e : Moment)
    (routeId rationale : String) : OrchestratorProposalV1 R.floats :=
  { toEnvelope := signedEnvelope R request ρ e (proposalFields R request ρ e routeId rationale)
    proposedRouteId := routeId
    proposalDigest := proposalDigest R request.requestId request.requestVersion request.roundId
      (requestDigest R request) routeId
    policyId := ρ.policy.policyId
    policyVersion := ρ.policy.policyVersion
    rationaleCode := rationale }

def signedVote (request : OrchestrationRequestV1 R.floats) (ρ : OrchestratorReplica R.floats) (e : Moment)
    (proposal : OrchestratorProposalV1 R.floats) : OrchestratorVoteV1 R.floats :=
  { toEnvelope := signedEnvelope R request ρ e (voteFields R request ρ e proposal)
    selectedProposalDigest := proposal.proposalDigest
    vote := .approve
    reasonCode := "INDEPENDENT_POLICY_MATCH" }

/-- The replica after it has taken a sequence number. -/
def OrchestratorReplica.next (ρ : OrchestratorReplica R.floats) : OrchestratorReplica R.floats :=
  { ρ with senderSequence := ρ.senderSequence + 1 }

/-- A proposal for the request, with the replica after it. -/
def propose (ρ : OrchestratorReplica R.floats) (e : Moment) (request : OrchestrationRequestV1 R.floats) :
    OrchestratorReplica R.floats × Except ReplicaError (Proposal R) :=
  if !ρ.available then (ρ, .error (.unavailable ρ.orchestratorId))
  else
    match e.fault with
    | some fault => (ρ, .error fault)
    | none =>
      match ρ.policy.propose request with
      | none => (ρ, .error (.raised "ValueError" "min() iterable argument is empty"))
      | some (routeId, rationale) =>
        let proposal := signedProposal R request ρ e routeId rationale
        (ρ.next R, match h : runChecks (proposalChecks R proposal) with
          | .ok () => .ok ⟨proposal, h⟩
          | .error message => .error (.raised "ValidationError" message))

/-- An approval of the proposal, with the replica after it. -/
def vote (ρ : OrchestratorReplica R.floats) (e : Moment) (request : OrchestrationRequestV1 R.floats)
    (proposal : OrchestratorProposalV1 R.floats) : OrchestratorReplica R.floats × Except ReplicaError (Vote R) :=
  if !ρ.available then (ρ, .error (.unavailable ρ.orchestratorId))
  else
    match e.fault with
    | some fault => (ρ, .error fault)
    | none =>
      let vote := signedVote R request ρ e proposal
      (ρ.next R, match h : runChecks (voteChecks R vote) with
        | .ok () => .ok ⟨vote, h⟩
        | .error message => .error (.raised "ValidationError" message))

/-! ## The signature -/

theorem replicaProvenance_textKeys (fmt : PyFloats F) (sourceComponent : String) :
    TextKeys (replicaProvenance fmt sourceComponent).value := by
  refine .dict none [(.str "source_component", .str "orchestration.replica"),
    (.str "request_source_component", .str sourceComponent)] ?_ ?_
  · intro e he
    simp only [List.mem_cons, List.not_mem_nil, or_false] at he
    rcases he with rfl | rfl <;> rfl
  · intro e he
    simp only [List.mem_cons, List.not_mem_nil, or_false] at he
    rcases he with rfl | rfl <;> exact .str _

/-- Values that are written alike have one canonical text. -/
theorem canonicalJson_congr {v w : PyValue F} (h : encode R.floats v = encode R.floats w) :
    canonicalJson R v = canonicalJson R w := by
  unfold canonicalJson dumps
  rw [h]

/-- The content of a built proposal is written as the fields that were signed. -/
theorem signedProposal_content (request : OrchestrationRequestV1 R.floats) (ρ : OrchestratorReplica R.floats)
    (e : Moment) (routeId rationale : String) :
    let m := signedProposal R request ρ e routeId rationale
    canonicalJson R (dictOf (messageContent (proposalDump m (R.jsonMode m.provenance.value)) m.authentication.dump)) =
      canonicalJson R (dictOf (messageContent (proposalFields R request ρ e routeId rationale)
        (authenticationHeader ρ.orchestratorId))) := by
  have hprovenance := R.jsonMode_text _ (replicaProvenance_textKeys R.floats request.sourceComponent)
  refine canonicalJson_congr R ?_
  simp [messageContent, pop, proposalDump, proposalFields, signedProposal, signedEnvelope, signFields,
    AuthenticationMetadataV1.dump, authenticationHeader, dictOf, encode, encodeEntries, hprovenance]

theorem signedVote_content (request : OrchestrationRequestV1 R.floats) (ρ : OrchestratorReplica R.floats)
    (e : Moment) (proposal : OrchestratorProposalV1 R.floats) :
    let m := signedVote R request ρ e proposal
    canonicalJson R (dictOf (messageContent (voteDump m (R.jsonMode m.provenance.value)) m.authentication.dump)) =
      canonicalJson R (dictOf (messageContent (voteFields R request ρ e proposal)
        (authenticationHeader ρ.orchestratorId))) := by
  have hprovenance := R.jsonMode_text _ (replicaProvenance_textKeys R.floats request.sourceComponent)
  refine canonicalJson_congr R ?_
  simp [messageContent, pop, voteDump, voteFields, signedVote, signedEnvelope, signFields, VoteValue.value,
    AuthenticationMetadataV1.dump, authenticationHeader, dictOf, encode, encodeEntries, hprovenance]

/-- A message whose content is written as its signed fields is authentic. -/
theorem authentic_of_content {keys : String → Option Bytes} {ρ : OrchestratorReplica R.floats}
    (hkey : keys ρ.orchestratorId = some ρ.key) {m : Envelope R.floats} {fields dump : List (String × PyValue F)}
    (hid : m.orchestratorId = ρ.orchestratorId)
    (hsigned : (m.messageHash, m.authentication) = signFields R ρ.orchestratorId ρ.key fields)
    (hcontent : canonicalJson R (dictOf (messageContent dump m.authentication.dump)) =
      canonicalJson R (dictOf (messageContent fields (authenticationHeader ρ.orchestratorId)))) :
    Authentic R keys m dump := by
  have hhash : m.messageHash = _ := congrArg Prod.fst hsigned
  have hauth : m.authentication = _ := congrArg Prod.snd hsigned
  refine ⟨?_, ?_, ρ.key, ?_, ?_⟩
  · rw [hauth, hid]
    rfl
  · unfold messageHashOf canonicalHash
    rw [hcontent, hhash]
    rfl
  · rw [hid]
    exact hkey
  · unfold messageTagOf
    rw [hcontent, hauth]
    rfl

/-! ## The contract -/

/-- A field value that the firewall passes and that takes at most so many bytes. -/
structure Plain (most : Nat) (v : PyValue F) : Prop where
  passes : Passes R.lowerCase 1 v
  fits : Fits R.floats most v

variable {R}

theorem plain_none : Plain R 4 .none := ⟨passes_none _ (by decide), fits_none _⟩

theorem plain_text {s : String} {n : Nat} (h : s.length ≤ n) : Plain R (2 + 6 * n) (.str s) :=
  ⟨passes_str _ (by decide) s, fits_str _ h⟩

theorem plain_int {n : Int} (h : printable n = true) : Plain R (maxStrDigits + 1) (.int n) :=
  ⟨passes_int _ (by decide) n, fits_int _ h⟩

theorem plain_optionalText {s : Option String} (h : fitsOptional 128 s = true) :
    Plain R (2 + 6 * 128) (optionalText s) := by
  cases s with
  | none => exact ⟨(plain_none).passes, plain_none.fits.mono _ (by decide)⟩
  | some t => exact plain_text (by simpa [fitsOptional] using h)

theorem plain_optionalInt {n : Option Int} (h : ∀ k, n = some k → printable k = true) :
    Plain R (maxStrDigits + 1) (optionalInt n) := by
  cases n with
  | none => exact ⟨(plain_none).passes, plain_none.fits.mono _ (by decide)⟩
  | some k => exact plain_int (h k rfl)

/-- Keys that no walk objects to, whatever the rule of lower case. -/
def plainKeys (keys : List String) : Bool :=
  keys.length ≤ maxCollectionItems && keys.all fun k =>
    (k.toList.all fun c => c.toNat < 128) && keyPasses asciiLowerCase k

theorem plainKeys_passes {keys : List String} (h : plainKeys keys = true) (lc : LowerCase) :
    keys.length ≤ maxCollectionItems ∧ ∀ k ∈ keys, keyPasses lc k = true := by
  simp only [plainKeys, Bool.and_eq_true, decide_eq_true_eq, List.all_eq_true] at h
  refine ⟨h.1, fun k hk => ?_⟩
  obtain ⟨hascii, hpass⟩ := h.2 k hk
  rw [keyPasses_ascii lc hascii]
  exact hpass

/-- A dictionary with plain keys whose values pass at the next depth passes. -/
theorem passes_dictOf {lc : LowerCase} {d : Nat} {fields : List (String × PyValue F)} {keys : List String}
    (hnames : fields.map Prod.fst = keys) (hkeys : plainKeys keys = true) (hd : d ≤ maxNestingDepth)
    (hvalues : ∀ e ∈ fields, Passes lc (d + 1) e.2) : Passes lc d (dictOf fields) := by
  obtain ⟨hlen, hpass⟩ := plainKeys_passes hkeys lc
  rw [← hnames, List.length_map] at hlen
  refine .dict hd (by rwa [List.length_map]) ?_ ?_
  · intro e he k hk
    obtain ⟨x, hx, rfl⟩ := List.mem_map.mp he
    injection hk with hk
    refine hpass k ?_
    rw [← hnames]
    exact List.mem_map.mpr ⟨x, hx, hk⟩
  · intro e he
    obtain ⟨x, hx, rfl⟩ := List.mem_map.mp he
    exact hvalues x hx

/-- A dictionary whose keys and values leave room fits. -/
theorem fits_dictOf {fields : List (String × PyValue F)} {sizes : List Nat} {keys : List String} {most : Nat}
    (h : List.Forall₂ (fun e n => Fits R.floats n e.2) fields sizes) (hnames : fields.map Prod.fst = keys)
    (hsize : 2 + ((keys.map keySize).sum + sizes.sum) ≤ most) : Fits R.floats most (dictOf fields) := by
  subst hnames
  exact (fits_dict R.floats h).mono _ hsize

/-- A contract with plain fields meets the last validator when its keys and the sizes of
its values leave room. -/
theorem contentChecks_ok {fields : List (String × PyValue F)} {sizes : List Nat} {keys : List String}
    (h : List.Forall₂ (fun e n => Plain R n e.2) fields sizes) (hnames : fields.map Prod.fst = keys)
    (hkeys : plainKeys keys = true)
    (hsize : 2 + ((keys.map keySize).sum + sizes.sum) ≤ maxRequestCanonicalBytes)
    (className what : String) : ∀ c ∈ contentChecks R className what (dictOf fields), c.1 = true := by
  have hpasses : Passes R.lowerCase 0 (dictOf fields) := by
    refine passes_dictOf hnames hkeys (by decide) fun e he => ?_
    obtain ⟨n, -, hplain⟩ := exists_right h he
    exact hplain.passes
  obtain ⟨t, ht, hbytes⟩ := (fits_dictOf (h.imp fun _ _ hplain => hplain.fits) hnames hsize).dumps
  intro c hc
  simp only [contentChecks, List.mem_cons, List.not_mem_nil, or_false] at hc
  rcases hc with rfl | rfl | rfl
  · rw [findOrchestrationGroundTruth_passes R.floats R.lowerCase hpasses]
    rfl
  · rw [ht]
    rfl
  · unfold withinBytes
    rw [ht]
    simpa using hbytes

/-! ### What a valid request guarantees -/

theorem request_check (request : Request R) {c : Bool × String}
    (hc : c ∈ requestChecks R request.toOrchestrationRequestV1) : c.1 = true :=
  (runChecks_ok _).mp request.valid c hc

/-- The values of a dictionary that has a canonical text have one. -/
theorem encode_dictOf {fields : List (String × PyValue F)} (h : (dumps R.floats (dictOf fields)).isSome = true)
    {e : String × PyValue F} (he : e ∈ fields) : ∃ j, encode R.floats e.2 = some j := by
  obtain ⟨t, ht⟩ := Option.isSome_iff_exists.mp h
  obtain ⟨j, hj, -⟩ := (dumps_some R.floats).mp ht
  obtain ⟨ms, hms, -, -⟩ := (encode_dict R.floats).mp hj
  obtain ⟨m, -, -, -, -, hm⟩ := exists_right hms (List.mem_map.mpr ⟨e, he, rfl⟩)
  exact ⟨_, hm⟩

theorem printable_of_encode {n : Int} {j : JsonText.Json F} (h : encode R.floats (.int n) = some j) :
    printable n = true := by
  rw [encode] at h
  by_contra hnot
  rw [if_neg hnot] at h
  cases h

theorem request_dumps (request : Request R) :
    (dumps R.floats (requestModelDump R request.toOrchestrationRequestV1)).isSome = true :=
  request_check request (c := ((dumps R.floats (requestModelDump R request.toOrchestrationRequestV1)).isSome,
    "not JSON serializable")) (by simp [requestChecks])

theorem requestVersion_printable (request : Request R) : printable request.requestVersion = true := by
  obtain ⟨j, hj⟩ := encode_dictOf (e := ("request_version", .int request.requestVersion))
    (request_dumps request) (by simp)
  exact printable_of_encode hj

theorem windowId_printable (request : Request R) {n : Int} (h : request.windowId = some n) :
    printable n = true := by
  obtain ⟨j, hj⟩ := encode_dictOf (e := ("window_id", optionalInt request.windowId))
    (request_dumps request) (by simp)
  rw [h] at hj
  exact printable_of_encode hj

theorem length_of_fits {n : Nat} {s : String} (h : OrchestrationMessages.fits n s = true) : s.length ≤ n := by
  simp only [OrchestrationMessages.fits, Bool.and_eq_true, decide_eq_true_eq] at h
  exact h.2

theorem length_of_digest {s : String} (h : isDigest s = true) : s.length = 64 := by
  simp only [isDigest, Bool.and_eq_true, decide_eq_true_eq] at h
  exact h.1

/-! ### Messages -/

/-- A replica of the deterministic policy that can make a message for any request. -/
structure Ready (ρ : OrchestratorReplica R.floats) (e : Moment) : Prop where
  sender : ρ.orchestratorId ∈ orchestratorIds
  available : ρ.available = true
  policy : ρ.policy = deterministicPriorityPolicy R.floats
  fault : e.fault = none
  messageId : OrchestrationMessages.fits 128 e.messageId = true
  utcNow : OrchestrationMessages.fits 64 e.utcNow = true
  sequence : printable ρ.senderSequence = true

theorem sender_fits {ρ : OrchestratorReplica R.floats} {e : Moment} (h : Ready ρ e) :
    OrchestrationMessages.fits 64 ρ.orchestratorId = true := by
  have hall : ∀ id ∈ orchestratorIds, OrchestrationMessages.fits 64 id = true := by decide
  exact hall _ h.sender

section Made

variable (request : Request R) {ρ : OrchestratorReplica R.floats} {e : Moment} (h : Ready ρ e)

include h

theorem signedEnvelope_ok (fields : List (String × PyValue F)) : ∀ c ∈ envelopeChecks
    (signedEnvelope R request.toOrchestrationRequestV1 ρ e fields), c.1 = true := by
  intro c hc
  simp only [envelopeChecks, signedEnvelope, List.mem_cons, List.not_mem_nil, or_false] at hc
  rcases hc with rfl | rfl | rfl | rfl | rfl | rfl | rfl | rfl | rfl | rfl | rfl | rfl | rfl
  · exact h.messageId
  · exact request_check request (by simp [requestChecks])
  · exact request_check request (c := (decide (1 ≤ request.requestVersion), "request_version"))
      (by simp [requestChecks])
  · exact request_check request (c := (OrchestrationMessages.fits 128 request.roundId, "round_id"))
      (by simp [requestChecks])
  · exact R.sha256Hex_digest _
  · exact sender_fits h
  · exact R.sha256Hex_digest _
  · exact request_check request (c := (fitsOptional 128 request.logicalTimestamp, "logical_timestamp"))
      (by simp [requestChecks])
  · exact request_check request (c := (request.windowId.all (0 ≤ ·), "window_id")) (by simp [requestChecks])
  · simp
  · exact h.utcNow
  · exact sender_fits h
  · exact R.hmacHex_digest _ _

/-- The parts of a message's dump that proposals and votes share. -/
structure PlainParts (m : Envelope R.floats) : Prop where
  messageId : Plain R 770 (.str m.messageId)
  requestId : Plain R 770 (.str m.requestId)
  requestVersion : Plain R 4301 (.int m.requestVersion)
  roundId : Plain R 770 (.str m.roundId)
  requestDigest : Plain R 770 (.str m.requestDigest)
  orchestratorId : Plain R 770 (.str m.orchestratorId)
  messageHash : Plain R 770 (.str m.messageHash)
  logicalTimestamp : Plain R 770 (optionalText m.logicalTimestamp)
  windowId : Plain R 4301 (optionalInt m.windowId)
  senderSequence : Plain R 4301 (.int m.senderSequence)
  producedAtUtc : Plain R 770 (.str m.producedAtUtc)
  provenance : Plain R 2000 (rebuilt m.provenance.value)
  authentication : Plain R 3500 (dictOf m.authentication.dump)

omit h in
/-- A text of at most 128 characters. -/
theorem plain_short {s : String} (hs : s.length ≤ 128) : Plain R 770 (.str s) := plain_text hs

omit h in
theorem plain_digest {s : String} (hs : isDigest s = true) : Plain R 770 (.str s) := by
  refine plain_short ?_
  rw [length_of_digest hs]
  decide

omit h in
theorem plain_provenance {sourceComponent : String} (hs : sourceComponent.length ≤ 128) :
    Plain R 2000 (rebuilt (replicaProvenance R.floats sourceComponent).value) := by
  have hparts : List.Forall₂ (fun (e : String × PyValue F) n => Plain R n e.2)
      [("source_component", .str "orchestration.replica"), ("request_source_component", .str sourceComponent)]
      [770, 770] := .cons (plain_short (by decide)) (.cons (plain_short hs) .nil)
  have hnames : [("source_component", PyValue.str (F := F) "orchestration.replica"),
      ("request_source_component", .str sourceComponent)].map Prod.fst =
      ["source_component", "request_source_component"] := rfl
  refine ⟨passes_dictOf hnames (by decide) (by decide) fun e he => ?_,
    fits_dictOf (hparts.imp fun _ _ hp => hp.fits) hnames (by decide)⟩
  simp only [List.mem_cons, List.not_mem_nil, or_false] at he
  rcases he with rfl | rfl <;> exact passes_str _ (by decide) _

omit h in
theorem plain_authentication {a : AuthenticationMetadataV1} (hid : a.keyId.length ≤ 128)
    (htag : a.tag.length ≤ 128) : Plain R 3500 (dictOf a.dump) := by
  have hparts : List.Forall₂ (fun (e : String × PyValue F) n => Plain R n e.2) a.dump [770, 770, 770, 770] :=
    .cons (plain_short (by decide)) (.cons (plain_short (by decide)) (.cons (plain_short hid)
      (.cons (plain_short htag) .nil)))
  have hnames : (a.dump (F := F)).map Prod.fst = ["schema_version", "algorithm", "key_id", "tag"] := rfl
  refine ⟨passes_dictOf hnames (by decide) (by decide) fun e he => ?_,
    fits_dictOf (hparts.imp fun _ _ hp => hp.fits) hnames (by decide)⟩
  simp only [AuthenticationMetadataV1.dump, authenticationHeader, List.cons_append, List.nil_append,
    List.mem_cons, List.not_mem_nil, or_false] at he
  rcases he with rfl | rfl | rfl | rfl <;> exact passes_str _ (by decide) _

theorem plainParts (fields : List (String × PyValue F)) :
    PlainParts (signedEnvelope R request.toOrchestrationRequestV1 ρ e fields) := by
  have hsender : ρ.orchestratorId.length ≤ 128 := (length_of_fits (sender_fits h)).trans (by decide)
  have htag : ∀ k s, (R.hmacHex k s).length ≤ 128 := fun k s => by
    rw [length_of_digest (R.hmacHex_digest k s)]
    decide
  have hsource := length_of_fits (request_check request
    (c := (OrchestrationMessages.fits 128 request.sourceComponent, "source_component")) (by simp [requestChecks]))
  refine ⟨plain_short (length_of_fits h.messageId), ?_, plain_int (requestVersion_printable request), ?_,
    plain_digest (R.sha256Hex_digest _), plain_short hsender, plain_digest (R.sha256Hex_digest _), ?_, plain_optionalInt fun n hn => windowId_printable request hn,
    plain_int h.sequence, plain_short ((length_of_fits h.utcNow).trans (by decide)), plain_provenance hsource,
    plain_authentication hsender (htag _ _)⟩
  · exact plain_short (length_of_fits (request_check request
      (c := (OrchestrationMessages.fits 128 request.requestId, "request_id")) (by simp [requestChecks])))
  · exact plain_short (length_of_fits (request_check request
      (c := (OrchestrationMessages.fits 128 request.roundId, "round_id")) (by simp [requestChecks])))
  · exact plain_optionalText (request_check request
      (c := (fitsOptional 128 request.logicalTimestamp, "logical_timestamp")) (by simp [requestChecks]))

omit h in
theorem route_fits {routeId : String} (hroute : routeId ∈ request.candidateRoutes.map CandidateRouteV1.routeId) :
    OrchestrationMessages.fits 128 routeId = true := by
  obtain ⟨c, hc, rfl⟩ := List.mem_map.mp hroute
  refine request_check request (c := (OrchestrationMessages.fits 128 c.routeId, "route_id")) ?_
  simp only [requestChecks, List.mem_append]
  exact .inl (.inr (List.mem_flatMap.mpr ⟨c, hc, by simp [candidateChecks]⟩))

def proposalKeys : List String :=
  ["schema_version", "message_id", "request_id", "request_version", "round_id", "request_digest",
    "orchestrator_id", "proposed_route_id", "proposal_digest", "message_hash", "logical_timestamp", "window_id",
    "policy_id", "policy_version", "rationale_code", "sender_sequence", "produced_at_utc", "provenance",
    "authentication"]

def voteKeys : List String :=
  ["schema_version", "message_id", "request_id", "request_version", "round_id", "request_digest",
    "orchestrator_id", "selected_proposal_digest", "vote", "sender_sequence", "message_hash",
    "logical_timestamp", "window_id", "reason_code", "produced_at_utc", "provenance", "authentication"]

/-- The proposal of a candidate route is a valid contract. -/
theorem signedProposal_valid {routeId rationale : String}
    (hroute : routeId ∈ request.candidateRoutes.map CandidateRouteV1.routeId)
    (hrationale : OrchestrationMessages.fits 128 rationale = true) :
    runChecks (proposalChecks R (signedProposal R request.toOrchestrationRequestV1 ρ e routeId rationale)) =
      .ok () := by
  have hparts : PlainParts (signedProposal R request.toOrchestrationRequestV1 ρ e routeId rationale).toEnvelope :=
    plainParts request h _
  have hpolicyId : OrchestrationMessages.fits 128 ρ.policy.policyId = true := by
    have hid : ρ.policy.policyId = "stage6_deterministic_priority" := congrArg RoutingPolicy.policyId h.policy
    rw [hid]
    decide
  have hversion : OrchestrationMessages.fits 64 ρ.policy.policyVersion = true := by
    have hone : ρ.policy.policyVersion = "1" := congrArg RoutingPolicy.policyVersion h.policy
    rw [hone]
    decide
  have hfields : List.Forall₂ (fun (e : String × PyValue F) n => Plain R n e.2)
      (proposalDump (signedProposal R request.toOrchestrationRequestV1 ρ e routeId rationale)
        (rebuilt (replicaProvenance R.floats request.sourceComponent).value))
      [770, 770, 770, 4301, 770, 770, 770, 770, 770, 770, 770, 4301, 770, 770, 770, 4301, 770, 2000, 3500] :=
    .cons (plain_short (by decide)) (.cons hparts.messageId (.cons hparts.requestId (.cons hparts.requestVersion
      (.cons hparts.roundId (.cons hparts.requestDigest (.cons hparts.orchestratorId
      (.cons (plain_short (length_of_fits (route_fits request hroute)))
      (.cons (plain_digest (R.sha256Hex_digest _))
      (.cons hparts.messageHash (.cons hparts.logicalTimestamp (.cons hparts.windowId
      (.cons (plain_short (length_of_fits hpolicyId)) (.cons (plain_short ((length_of_fits hversion).trans (by decide)))
      (.cons (plain_short (length_of_fits hrationale)) (.cons hparts.senderSequence
      (.cons hparts.producedAtUtc (.cons hparts.provenance (.cons hparts.authentication .nil))))))))))))))))))
  rw [runChecks_ok]
  intro c hc
  simp only [proposalChecks, List.mem_append] at hc
  rcases hc with (hc | hc) | hc
  · exact signedEnvelope_ok request h _ c hc
  · simp only [List.mem_cons, List.not_mem_nil, or_false] at hc
    rcases hc with rfl | rfl | rfl | rfl | rfl
    · exact route_fits request hroute
    · exact R.sha256Hex_digest _
    · exact hpolicyId
    · exact hversion
    · exact hrationale
  · have hnames : (proposalDump (signedProposal R request.toOrchestrationRequestV1 ρ e routeId rationale)
        (rebuilt (replicaProvenance R.floats request.sourceComponent).value)).map Prod.fst = proposalKeys := rfl
    exact contentChecks_ok hfields hnames (by decide) (by decide) _ _ c hc

/-- The vote for a proposal is a valid contract. -/
theorem signedVote_valid {proposal : OrchestratorProposalV1 R.floats}
    (hdigest : isDigest proposal.proposalDigest = true) :
    runChecks (voteChecks R (signedVote R request.toOrchestrationRequestV1 ρ e proposal)) = .ok () := by
  have hparts : PlainParts (signedVote R request.toOrchestrationRequestV1 ρ e proposal).toEnvelope :=
    plainParts request h _
  have hvote : Plain R 770 (.str VoteValue.approve.value) := plain_short (by decide)
  have hreason : Plain R 770 (.str "INDEPENDENT_POLICY_MATCH") := plain_short (by decide)
  have hfields : List.Forall₂ (fun (e : String × PyValue F) n => Plain R n e.2)
      (voteDump (signedVote R request.toOrchestrationRequestV1 ρ e proposal)
        (rebuilt (replicaProvenance R.floats request.sourceComponent).value))
      [770, 770, 770, 4301, 770, 770, 770, 770, 770, 4301, 770, 770, 4301, 770, 770, 2000, 3500] :=
    .cons (plain_short (by decide)) (.cons hparts.messageId (.cons hparts.requestId (.cons hparts.requestVersion
      (.cons hparts.roundId (.cons hparts.requestDigest (.cons hparts.orchestratorId
      (.cons (plain_digest hdigest) (.cons hvote
      (.cons hparts.senderSequence (.cons hparts.messageHash (.cons hparts.logicalTimestamp
      (.cons hparts.windowId (.cons hreason (.cons hparts.producedAtUtc
      (.cons hparts.provenance (.cons hparts.authentication .nil))))))))))))))))
  rw [runChecks_ok]
  intro c hc
  simp only [voteChecks, List.mem_append] at hc
  rcases hc with (hc | hc) | hc
  · exact signedEnvelope_ok request h _ c hc
  · simp only [List.mem_cons, List.not_mem_nil, or_false] at hc
    rcases hc with rfl | rfl
    · exact hdigest
    · have hcode : (signedVote R request.toOrchestrationRequestV1 ρ e proposal).reasonCode =
          "INDEPENDENT_POLICY_MATCH" := rfl
      rw [hcode]
      decide
  · have hnames : (voteDump (signedVote R request.toOrchestrationRequestV1 ρ e proposal)
        (rebuilt (replicaProvenance R.floats request.sourceComponent).value)).map Prod.fst = voteKeys := rfl
    exact contentChecks_ok hfields hnames (by decide) (by decide) _ _ c hc

/-- A ready replica proposes the least route by the deterministic policy. -/
theorem propose_ready : ∃ c p, Sorting.minBy routeRank request.candidateRoutes = some c ∧
    propose R ρ e request.toOrchestrationRequestV1 = (ρ.next R, .ok p) ∧
    p.toOrchestratorProposalV1 = signedProposal R request.toOrchestrationRequestV1 ρ e c.routeId
      "MIN_PRIORITY_ROUTE_ID_TIEBREAK" := by
  have hsome : request.candidateRoutes ≠ [] := by
    have hlen := request_check request (c := (1 ≤ request.candidateRoutes.length &&
      request.candidateRoutes.length ≤ 32, "candidate_routes")) (by simp [requestChecks])
    intro hnil
    rw [hnil] at hlen
    exact absurd hlen (by decide)
  obtain ⟨c, hc⟩ : ∃ c, Sorting.minBy routeRank request.candidateRoutes = some c :=
    Sorting.minBy_ne_none hsome
  have hroute : c.routeId ∈ request.candidateRoutes.map CandidateRouteV1.routeId :=
    List.mem_map.mpr ⟨c, (Sorting.minBy_some hc).1, rfl⟩
  have hrationale : OrchestrationMessages.fits 128 "MIN_PRIORITY_ROUTE_ID_TIEBREAK" = true := by decide
  have hvalid := signedProposal_valid request h hroute hrationale
  refine ⟨c, ⟨_, hvalid⟩, hc, ?_, rfl⟩
  have hpolicy : ρ.policy.propose request.toOrchestrationRequestV1 =
      some (c.routeId, "MIN_PRIORITY_ROUTE_ID_TIEBREAK") := by
    rw [h.policy]
    simp only [deterministicPriorityPolicy, hc, Option.map_some]
  unfold propose
  simp only [h.available, h.fault, hpolicy, Bool.not_true, Bool.false_eq_true, if_false]
  split
  · rfl
  · rename_i message herror
    rw [hvalid] at herror
    cases herror

/-- A ready replica votes for any proposal. -/
theorem vote_ready (proposal : Proposal R) : ∃ v,
    vote R ρ e request.toOrchestrationRequestV1 proposal.toOrchestratorProposalV1 = (ρ.next R, .ok v) ∧
    v.toOrchestratorVoteV1 =
      signedVote R request.toOrchestrationRequestV1 ρ e proposal.toOrchestratorProposalV1 := by
  have hdigest : isDigest proposal.proposalDigest = true :=
    (runChecks_ok _).mp proposal.valid (isDigest proposal.proposalDigest, "proposal_digest")
      (by simp [proposalChecks])
  have hvalid := signedVote_valid request h hdigest
  refine ⟨⟨_, hvalid⟩, ?_, rfl⟩
  unfold vote
  simp only [h.available, h.fault, Bool.not_true, Bool.false_eq_true, if_false]
  split
  · rfl
  · rename_i message herror
    rw [hvalid] at herror
    cases herror

/-- Its proposal may be counted by a round of the request. -/
theorem signedProposal_countable {keys : String → Option Bytes} (hkey : keys ρ.orchestratorId = some ρ.key)
    {p : Proposal R} {routeId rationale : String}
    (hp : p.toOrchestratorProposalV1 = signedProposal R request.toOrchestrationRequestV1 ρ e routeId rationale)
    (hroute : routeId ∈ request.candidateRoutes.map CandidateRouteV1.routeId) : Countable keys request p := by
  obtain ⟨m, hvalid⟩ := p
  change m = _ at hp
  subst hp
  exact ⟨h.sender, authentic_of_content R hkey rfl rfl (signedProposal_content R _ ρ e routeId rationale),
    ⟨rfl, rfl, rfl, rfl⟩, hroute, rfl⟩

/-- Its vote may be counted by a round of the request. -/
theorem signedVote_countable {keys : String → Option Bytes} (hkey : keys ρ.orchestratorId = some ρ.key)
    {v : Vote R} {proposal : OrchestratorProposalV1 R.floats}
    (hv : v.toOrchestratorVoteV1 = signedVote R request.toOrchestrationRequestV1 ρ e proposal) :
    CountableVote keys request v := by
  obtain ⟨m, hvalid⟩ := v
  change m = _ at hv
  subst hv
  exact ⟨h.sender, authentic_of_content R hkey rfl rfl (signedVote_content R _ ρ e proposal),
    ⟨rfl, rfl, rfl, rfl⟩⟩

end Made

end Replica

/-! ## A development deployment -/

theorem hexdigest_isDigest (v : Sha256.Working) : isDigest (Sha256.hexdigest v) = true := by
  have hdigits : ∀ n < 16, isHexDigit (JsonText.hexDigit n) = true := by decide
  have hlength : (Sha256.hexdigest v).length = 64 := by
    rw [← String.length_toList]
    exact Sha256.hexdigest_length v
  simp only [isDigest, hlength, decide_true, Bool.true_and, List.all_eq_true]
  intro c hc
  obtain ⟨n, hn, rfl⟩ := Sha256.hexdigest_digits v c hc
  exact hdigits n hn

def devRuntime : Runtime Unit where
  floats := nanOnly
  lowerCase := asciiLowerCase
  sha256Hex := Sha256.sha256Hex
  hmacHex := Sha256.hmacHex
  jsonMode := id
  sha256Hex_digest _ := hexdigest_isDigest _
  hmacHex_digest _ _ := hexdigest_isDigest _
  jsonMode_some _ j h := ⟨j, h⟩
  jsonMode_text _ _ := rfl

def devContent : OrchestrationRequestV1 devRuntime.floats where
  requestId := "request-1"
  requestVersion := 1
  roundId := "round-1"
  decisionKind := "WORKFLOW_ROUTE"
  candidateRoutes := [⟨"route-b", 20⟩, ⟨"route-a", 10⟩]
  logicalTimestamp := none
  windowId := some 0
  scopeId := none
  sourceComponent := "dev"
  provenance := replicaProvenance nanOnly "dev"

theorem devContent_size : withinBytes devRuntime maxRequestCanonicalBytes (requestModelDump devRuntime devContent) = true := by
  unfold withinBytes
  rw [dumps_any_size]
  decide +kernel

def devRequest : Request devRuntime where
  toOrchestrationRequestV1 := devContent
  valid := by
    unfold requestChecks
    rw [devContent_size]
    decide

def devKeys (orchestratorId : String) : Option Bytes :=
  if orchestratorId ∈ orchestratorIds then some (Sha256.encodeUtf8 orchestratorId) else none

def devReplica (orchestratorId : String) : OrchestratorReplica devRuntime.floats where
  orchestratorId := orchestratorId
  key := Sha256.encodeUtf8 orchestratorId
  policy := deterministicPriorityPolicy devRuntime.floats
  available := true
  senderSequence := 0

def devMoment (orchestratorId : String) (phase : Phase) : Moment where
  messageId := orchestratorId ++ "-" ++ phase.value
  utcNow := "2026-01-01T00:00:00Z"
  fault := none

theorem devReplica_ready {orchestratorId : String} (h : orchestratorId ∈ orchestratorIds) :
    Ready (devReplica orchestratorId) (devMoment orchestratorId .proposal) ∧
      Ready ((devReplica orchestratorId).next devRuntime) (devMoment orchestratorId .vote) := by
  have hfits : ∀ id ∈ orchestratorIds, ∀ phase, OrchestrationMessages.fits 128 (devMoment id phase).messageId = true := by
    intro id hid phase
    simp only [orchestratorIds, List.mem_cons, List.not_mem_nil, or_false] at hid
    rcases hid with rfl | rfl | rfl <;> cases phase <;> decide
  have hutc : OrchestrationMessages.fits 64 "2026-01-01T00:00:00Z" = true := by decide
  have hfirst : printable 0 = true := by decide
  have hsecond : printable 1 = true := by decide
  exact ⟨⟨h, rfl, rfl, rfl, hfits _ h _, hutc, hfirst⟩, h, rfl, rfl, rfl, hfits _ h _, hutc, hsecond⟩

end OrchestrationReplica
