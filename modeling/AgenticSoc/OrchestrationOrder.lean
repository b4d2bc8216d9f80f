import AgenticSoc.OrchestrationReplica
import Mathlib.Data.List.Induction

/-!
# The order of delivery

Genuine messages, at most one proposal and one vote of each orchestrator, each vote
delivered after a counted proposal of its digest: the decision does not depend on the
order of their delivery.
-/
namespace OrchestrationOrder

open OrchestrationMessages OrchestrationRound OrchestrationDecision OrchestrationReplica
open PythonJson

variable {F : Type} {R : Runtime F} (keys : String → Option Bytes)

inductive Message (R : Runtime F) where
  | proposal (m : Proposal R)
  | vote (m : Vote R)

def Message.envelope : Message R → Envelope R.floats
  | .proposal m => m.toEnvelope
  | .vote m => m.toEnvelope

def Message.jsonDump : Message R → List (String × PyValue F)
  | .proposal m => proposalDump m.toOrchestratorProposalV1 (R.jsonMode m.provenance.value)
  | .vote m => voteDump m.toOrchestratorVoteV1 (R.jsonMode m.provenance.value)

/-- What the replay cache knows a message by. -/
def Message.key (m : Message R) : String × String := (m.envelope.orchestratorId, m.envelope.messageId)

def Message.proposer : Message R → Option String
  | .proposal m => some m.orchestratorId
  | .vote _ => none

def Message.voter : Message R → Option String
  | .proposal _ => none
  | .vote m => some m.orchestratorId

/-- The message that a call delivers. -/
def messageOf : RoundCall R → Option (Message R)
  | .acceptProposal m => some (.proposal m)
  | .acceptVote m => some (.vote m)
  | _ => none

def messagesOf (calls : List (RoundCall R)) : List (Message R) := calls.filterMap messageOf

/-- A delivery, or the coordinator putting a replica into one of its sets. -/
def Delivers : RoundCall R → Prop
  | .acceptProposal _ | .acceptVote _ | .mark _ _ => True
  | _ => False

/-- Correctly signed by an orchestrator and bound to the request. -/
structure Genuine (request : Request R) (m : Message R) : Prop where
  sender : m.envelope.orchestratorId ∈ orchestratorIds
  authentic : Authentic R keys m.envelope m.jsonDump
  bound : BoundTo request m.envelope

/-- Genuine messages with identities of their own, at most one proposal and at most one
vote of each orchestrator. -/
structure MessageSet (request : Request R) (messages : List (Message R)) : Prop where
  genuine : ∀ m ∈ messages, Genuine keys request m
  ids : (messages.map Message.key).Nodup
  proposers : (messages.filterMap Message.proposer).Nodup
  voters : (messages.filterMap Message.voter).Nodup

theorem MessageSet.perm {request : Request R} {messages messages' : List (Message R)}
    (h : MessageSet keys request messages) (hp : messages'.Perm messages) : MessageSet keys request messages' :=
  ⟨fun m hm => h.genuine m (hp.mem_iff.mp hm), (hp.map _).nodup_iff.mpr h.ids,
    (hp.filterMap _).nodup_iff.mpr h.proposers, (hp.filterMap _).nodup_iff.mpr h.voters⟩

/-- The calls deliver the messages, and no message is one that the cache has seen. -/
structure Arrivals (messages : List (Message R)) (cache : BoundedReplayCache) (calls : List (RoundCall R)) :
    Prop where
  same : (messagesOf calls).Perm messages
  only : ∀ c ∈ calls, Delivers c
  fresh : ∀ m ∈ messages, cache.find m.key = none

/-- An order of delivery in which each vote comes after a counted proposal of the digest
that it selects. -/
structure DeliveryOrder (request : Request R) (messages : List (Message R)) (cache : BoundedReplayCache)
    (calls : List (RoundCall R)) : Prop extends Arrivals messages cache calls where
  known : ∀ before v after, calls = before ++ .acceptVote v :: after →
    Known (run keys ⟨.start request, cache⟩ before).round v.selectedProposalDigest

/-! ## What is counted on the way -/

/-- What a round that delivered these messages has counted and the cache has seen. -/
structure Delivered (request : Request R) (cache : BoundedReplayCache) (messages : List (Message R))
    (s : RoundState R) : Prop where
  asked : s.round.request = request
  opened : s.round.terminal = false
  proposals : ∀ e, e ∈ s.round.proposals ↔
    ∃ p, .proposal p ∈ messages ∧ Countable keys request p ∧ e = (p.orchestratorId, p)
  votes : ∀ e, e ∈ s.round.votes ↔ ∃ v, .vote v ∈ messages ∧ e = (v.orchestratorId, v)
  unseen : ∀ key, cache.find key = none → key ∉ messages.map Message.key → s.cache.find key = none

theorem delivered_start (request : Request R) (cache : BoundedReplayCache) :
    Delivered keys request cache [] ⟨.start request, cache⟩ := by
  refine ⟨rfl, rfl, fun e => ?_, fun e => ?_, fun key h _ => h⟩
  · simp [DecisionRound.start]
  · simp [DecisionRound.start]

/-- A proposal that may not be counted leaves what is counted as it was. -/
theorem acceptProposal_refused {r : DecisionRound R} {c : BoundedReplayCache} {m : Proposal R}
    (h : ¬ Countable keys r.request m) : ∃ reason detail,
    (acceptProposal keys r c m).1 = (r.reject .proposal m.toEnvelope reason detail, c) := by
  unfold acceptProposal
  cases hscreen : screenProposal keys r m with
  | error e => exact ⟨e.1, e.2, rfl⟩
  | ok u => exact absurd ((screenProposal_ok keys).mp hscreen).2 h

section Step

variable {keys}
variable {request : Request R} {cache : BoundedReplayCache} {messages : List (Message R)} {s : RoundState R}

theorem Delivered.proposal (h : Delivered keys request cache messages s) {p : Proposal R}
    (hset : MessageSet keys request (messages ++ [.proposal p])) (hfresh : cache.find (Message.proposal p).key = none) :
    Delivered keys request cache (messages ++ [.proposal p]) (step keys s (.acceptProposal p)) := by
  have hkey : (Message.proposal p).key ∉ messages.map Message.key := by
    have hids := hset.ids
    rw [List.map_append, List.nodup_append] at hids
    exact fun hin => hids.2.2 _ hin _ (List.mem_singleton.mpr rfl) rfl
  by_cases hcount : Countable keys request p
  · have hnew : Absent s.round.proposals p.orchestratorId := by
      intro e he hsame
      obtain ⟨p', hp', -, rfl⟩ := (h.proposals e).mp he
      have hsenders := hset.proposers
      rw [List.filterMap_append, List.nodup_append] at hsenders
      exact hsenders.2.2 _ (List.mem_filterMap.mpr ⟨_, hp', rfl⟩) _ (List.mem_singleton.mpr rfl) hsame
    have hanswer := acceptProposal_counted keys (m := p) h.opened (by rw [h.asked]; exact hcount) hnew
      (h.unseen _ hfresh hkey)
    simp only [step, hanswer]
    refine ⟨h.asked, h.opened, fun e => ?_, fun e => ?_, fun key hnone hnot => ?_⟩
    · simp only [List.mem_append, List.mem_singleton, h.proposals]
      constructor
      · rintro (⟨p', hp', hcount', rfl⟩ | rfl)
        · exact ⟨p', .inl hp', hcount', rfl⟩
        · exact ⟨p, .inr rfl, hcount, rfl⟩
      · rintro ⟨p', hp' | hp', hcount', rfl⟩
        · exact .inl ⟨p', hp', hcount', rfl⟩
        · cases hp'
          exact .inr rfl
    · simp [h.votes]
    · rw [List.map_append, List.mem_append, not_or] at hnot
      exact observe_find (fun he => hnot.2 (List.mem_singleton.mpr he)) (h.unseen key hnone hnot.1)
  · obtain ⟨reason, detail, hanswer⟩ := acceptProposal_refused keys (r := s.round) (c := s.cache) (m := p)
      (by rw [h.asked]; exact hcount)
    simp only [step, hanswer]
    refine ⟨h.asked, h.opened, fun e => ?_, fun e => ?_, fun key hnone hnot => ?_⟩
    · change e ∈ s.round.proposals ↔ _
      rw [h.proposals]
      constructor
      · rintro ⟨p', hp', hcount', rfl⟩
        exact ⟨p', List.mem_append_left _ hp', hcount', rfl⟩
      · rintro ⟨p', hp', hcount', rfl⟩
        rcases List.mem_append.mp hp' with hp' | hp'
        · exact ⟨p', hp', hcount', rfl⟩
        · cases List.mem_singleton.mp hp'
          exact absurd hcount' hcount
    · change e ∈ s.round.votes ↔ _
      simp [h.votes]
    · rw [List.map_append, List.mem_append, not_or] at hnot
      exact h.unseen key hnone hnot.1

theorem Delivered.vote (h : Delivered keys request cache messages s) {v : Vote R}
    (hset : MessageSet keys request (messages ++ [.vote v])) (hfresh : cache.find (Message.vote v).key = none)
    (hknown : Known s.round v.selectedProposalDigest) :
    Delivered keys request cache (messages ++ [.vote v]) (step keys s (.acceptVote v)) := by
  have hkey : (Message.vote v).key ∉ messages.map Message.key := by
    have hids := hset.ids
    rw [List.map_append, List.nodup_append] at hids
    exact fun hin => hids.2.2 _ hin _ (List.mem_singleton.mpr rfl) rfl
  have hgenuine := hset.genuine (.vote v) (by simp)
  have hcount : CountableVote keys request v := ⟨hgenuine.sender, hgenuine.authentic, hgenuine.bound⟩
  have hnew : Absent s.round.votes v.orchestratorId := by
    intro e he hsame
    obtain ⟨v', hv', rfl⟩ := (h.votes e).mp he
    have hsenders := hset.voters
    rw [List.filterMap_append, List.nodup_append] at hsenders
    exact hsenders.2.2 _ (List.mem_filterMap.mpr ⟨_, hv', rfl⟩) _ (List.mem_singleton.mpr rfl) hsame
  have hanswer := acceptVote_counted keys (m := v) h.opened (by rw [h.asked]; exact hcount) hknown hnew
    (h.unseen _ hfresh hkey)
  simp only [step, hanswer]
  refine ⟨h.asked, h.opened, fun e => ?_, fun e => ?_, fun key hnone hnot => ?_⟩
  · simp [h.proposals]
  · simp only [List.mem_append, List.mem_singleton, h.votes]
    constructor
    · rintro (⟨v', hv', rfl⟩ | rfl)
      · exact ⟨v', .inl hv', rfl⟩
      · exact ⟨v, .inr rfl, rfl⟩
    · rintro ⟨v', hv' | hv', rfl⟩
      · exact .inl ⟨v', hv', rfl⟩
      · cases hv'
        exact .inr rfl
  · rw [List.map_append, List.mem_append, not_or] at hnot
    exact observe_find (fun he => hnot.2 (List.mem_singleton.mpr he)) (h.unseen key hnone hnot.1)

theorem Delivered.mark (h : Delivered keys request cache messages s) (m : Mark) (orchestratorId : String) :
    Delivered keys request cache messages (step keys s (.mark m orchestratorId)) :=
  ⟨h.asked, h.opened, h.proposals, h.votes, h.unseen⟩

end Step

theorem MessageSet.sublist {request : Request R} {messages messages' : List (Message R)}
    (h : MessageSet keys request messages) (hs : messages'.Sublist messages) : MessageSet keys request messages' :=
  ⟨fun m hm => h.genuine m (hs.subset hm), h.ids.sublist (hs.map _), h.proposers.sublist (hs.filterMap _),
    h.voters.sublist (hs.filterMap _)⟩

theorem messagesOf_append (before after : List (RoundCall R)) :
    messagesOf (before ++ after) = messagesOf before ++ messagesOf after := List.filterMap_append

section Arrived

variable {keys}
variable {request : Request R} {messages : List (Message R)} {cache : BoundedReplayCache} {calls : List (RoundCall R)}

/-- When the votes select digests that are known by then, the messages delivered so far
are counted after any part of the calls. -/
theorem Arrivals.delivered (hset : MessageSet keys request messages) (h : Arrivals messages cache calls)
    (hknown : ∀ before v after, calls = before ++ .acceptVote v :: after →
      Delivered keys request cache (messagesOf before) (run keys ⟨.start request, cache⟩ before) →
      Known (run keys ⟨.start request, cache⟩ before).round v.selectedProposalDigest)
    (done : List (RoundCall R)) : ∀ rest, calls = done ++ rest →
      Delivered keys request cache (messagesOf done) (run keys ⟨.start request, cache⟩ done) := by
  induction done using List.reverseRecOn with
  | nil => exact fun rest _ => delivered_start keys request cache
  | append_singleton done c ih =>
    intro rest hcalls
    rw [List.append_assoc, List.singleton_append] at hcalls
    have hdone := ih (c :: rest) hcalls
    have hsplit : messagesOf calls = messagesOf done ++ messagesOf (c :: rest) := by
      rw [hcalls, messagesOf_append]
    have hcalled : ∀ m, messageOf c = some m → MessageSet keys request (messagesOf done ++ [m]) ∧
        cache.find m.key = none := by
      intro m hm
      have hcons : messagesOf (c :: rest) = m :: messagesOf rest := by
        simp only [messagesOf, List.filterMap_cons, hm]
      have hin : m ∈ messagesOf calls := by
        rw [hsplit, hcons]
        exact List.mem_append_right _ List.mem_cons_self
      refine ⟨(hset.perm keys h.same).sublist keys ?_, h.fresh m (h.same.mem_iff.mp hin)⟩
      rw [hsplit, hcons]
      exact (List.Sublist.refl _).append (List.singleton_sublist.mpr List.mem_cons_self)
    rw [run_append, messagesOf_append]
    cases c with
    | acceptProposal p => exact hdone.proposal (hcalled _ rfl).1 (hcalled _ rfl).2
    | acceptVote v =>
      exact hdone.vote (hcalled _ rfl).1 (hcalled _ rfl).2 (hknown done v rest hcalls hdone)
    | mark m orchestratorId =>
      have hnone : messagesOf [RoundCall.mark (R := R) m orchestratorId] = [] := rfl
      rw [hnone, List.append_nil]
      exact hdone.mark m orchestratorId
    | close => exact (h.only .close (by simp [hcalls])).elim
    | buildDecision => exact (h.only .buildDecision (by simp [hcalls])).elim
    | elsewhere sender messageId hash => exact (h.only (.elsewhere sender messageId hash) (by simp [hcalls])).elim

/-- Votes for countable proposals that are delivered before them come in order. -/
theorem Arrivals.inOrder (hset : MessageSet keys request messages) (h : Arrivals messages cache calls)
    (hearlier : ∀ before v after, calls = before ++ .acceptVote v :: after →
      ∃ p, .proposal p ∈ messagesOf before ∧ Countable keys request p ∧
        p.proposalDigest = v.selectedProposalDigest) :
    DeliveryOrder keys request messages cache calls := by
  have hknown : ∀ before v after, calls = before ++ .acceptVote v :: after →
      Delivered keys request cache (messagesOf before) (run keys ⟨.start request, cache⟩ before) →
      Known (run keys ⟨.start request, cache⟩ before).round v.selectedProposalDigest := by
    intro before v after hcalls hdone
    obtain ⟨p, hp, hcount, hdigest⟩ := hearlier before v after hcalls
    exact ⟨_, (hdone.proposals _).mpr ⟨p, hp, hcount, rfl⟩, hdigest⟩
  exact ⟨h, fun before v after hcalls =>
    hknown before v after hcalls (h.delivered hset hknown before _ hcalls)⟩

theorem DeliveryOrder.delivered (hset : MessageSet keys request messages)
    (h : DeliveryOrder keys request messages cache calls) :
    Delivered keys request cache (messagesOf calls) (run keys ⟨.start request, cache⟩ calls) :=
  h.toArrivals.delivered hset (fun before v after hcalls _ => h.known before v after hcalls) calls []
    (List.append_nil calls).symm

end Arrived

/-! ## The digests of the routes -/

/-- What the digest of a proposal covers. -/
def proposalSemantics (request : Request R) (routeId : String) : List (String × PyValue F) :=
  [("schema_version", .str "orchestrator_proposal_semantics_v1"),
    ("request_id", .str request.requestId), ("request_version", .int request.requestVersion),
    ("round_id", .str request.roundId),
    ("request_digest", .str (requestDigest R request.toOrchestrationRequestV1)),
    ("proposed_route_id", .str routeId)]

/-- The hash has no collision among the texts that the digests of the proposals cover. -/
def SeparatesProposals (request : Request R) (messages : List (Message R)) : Prop :=
  Set.InjOn R.sha256Hex {t | ∃ p, .proposal p ∈ messages ∧
    t = canonicalJson R (dictOf (proposalSemantics request p.proposedRouteId))}

theorem canonicalJson_encode {v : PyValue F} {j : JsonText.Json F} (h : encode R.floats v = some j) :
    canonicalJson R v = String.ofList (JsonText.write R.floats.toFloatFormat j) := by
  simp only [canonicalJson, dumps, h, Option.map_some, Option.getD_some]

/-- Dictionaries with one canonical text have one encoding. -/
theorem encode_of_canonical {v w : PyValue F} (hv : DistinctKeys R.floats v) (hw : DistinctKeys R.floats w)
    {j k : JsonText.Json F} (hj : encode R.floats v = some j) (hk : encode R.floats w = some k)
    (h : canonicalJson R v = canonicalJson R w) : j = k := by
  rw [canonicalJson_encode hj, canonicalJson_encode hk, String.ofList_inj] at h
  exact JsonText.write_injective (encode_dumped R.floats hv hj).writable (encode_dumped R.floats hw hk).writable h

/-- The member that a text value is written as. -/
theorem encode_member {fields : List (String × PyValue F)} {members : List (String × JsonText.Json F)}
    (h : encode R.floats (dictOf fields) = some (.obj members)) {key s : String} (hin : (key, .str s) ∈ fields) :
    (key, .str s) ∈ members := by
  obtain ⟨ms, hms, -, hobj⟩ := (encode_dict R.floats).mp h
  cases hobj
  obtain ⟨m, hm, -, -, htext, henc⟩ := exists_right hms (List.mem_map.mpr ⟨_, hin, rfl⟩)
  have hvalue : m.2.2 = .str s := (Option.some.inj henc).symm
  have hkey : m.2.1 = key := by
    rw [htext]
    exact String.ofList_toList
  refine List.mem_map.mpr ⟨m, Sorting.mem_sortBy.mpr hm, ?_⟩
  rw [← hkey, ← hvalue]

theorem dictOf_distinct {fields : List (String × PyValue F)} (hkeys : (fields.map Prod.fst).Nodup)
    (hvalues : ∀ e ∈ fields, DistinctKeys R.floats e.2) : DistinctKeys R.floats (dictOf fields) := by
  refine .dict none _ ?_ fun e he => ?_
  · have hranks := hkeys.map (f := fun k => keyRank R.floats (.str k)) fun _ _ h => keyRank_str_inj R.floats h
    rw [List.map_map] at hranks ⊢
    exact hranks
  · obtain ⟨x, hx, rfl⟩ := List.mem_map.mp he
    exact hvalues x hx

theorem semantics_distinct (request : Request R) (routeId : String) :
    DistinctKeys R.floats (dictOf (proposalSemantics request routeId)) := by
  have hnames : (proposalSemantics request routeId).map Prod.fst = ["schema_version", "request_id",
    "request_version", "round_id", "request_digest", "proposed_route_id"] := rfl
  refine dictOf_distinct ?_ fun e he => ?_
  · rw [hnames]
    decide
  · simp only [proposalSemantics, List.mem_cons, List.not_mem_nil, or_false] at he
    rcases he with rfl | rfl | rfl | rfl | rfl | rfl <;> constructor

theorem semantics_encodes (request : Request R) (routeId : String) :
    ∃ members, encode R.floats (dictOf (proposalSemantics request routeId)) = some (.obj members) := by
  have htext : ∀ s, JsonSize.Fits R.floats (2 + 6 * s.length) (.str s) := fun s => JsonSize.fits_str _ (Nat.le_refl _)
  obtain ⟨j, hj, -⟩ : JsonSize.Fits R.floats _ (dictOf (proposalSemantics request routeId)) :=
    JsonSize.fits_dict R.floats (.cons (htext _) (.cons (htext _)
      (.cons (JsonSize.fits_int _ (requestVersion_printable request))
        (.cons (htext _) (.cons (htext _) (.cons (htext _) .nil))))))
  obtain ⟨ms, -, -, rfl⟩ := (encode_dict R.floats).mp hj
  exact ⟨_, hj⟩

/-- Proposals for one digest are proposals for one route. -/
theorem route_of_digest {request : Request R} {messages : List (Message R)}
    (hseparate : SeparatesProposals request messages) {p p' : Proposal R} (hin : .proposal p ∈ messages)
    (hin' : .proposal p' ∈ messages) (hp : Countable keys request p) (hp' : Countable keys request p')
    (h : p.proposalDigest = p'.proposalDigest) : p.proposedRouteId = p'.proposedRouteId := by
  have hdigest : ∀ q : Proposal R, Countable keys request q → q.proposalDigest =
      R.sha256Hex (canonicalJson R (dictOf (proposalSemantics request q.proposedRouteId))) := by
    intro q hq
    rw [hq.digest, expectedDigest, hq.bound.id, hq.bound.version, hq.bound.round, hq.bound.digest]
    rfl
  rw [hdigest p hp, hdigest p' hp'] at h
  have htext := hseparate ⟨p, hin, rfl⟩ ⟨p', hin', rfl⟩ h
  obtain ⟨members, hj⟩ := semantics_encodes request p.proposedRouteId
  obtain ⟨members', hk⟩ := semantics_encodes request p'.proposedRouteId
  have hsame := encode_of_canonical (semantics_distinct request _) (semantics_distinct request _) hj hk htext
  have hroute : ("proposed_route_id", .str p.proposedRouteId) ∈ members :=
    encode_member hj (by simp [proposalSemantics])
  have hroute' : ("proposed_route_id", .str p'.proposedRouteId) ∈ members' :=
    encode_member hk (by simp [proposalSemantics])
  cases hsame
  have hkeys : (members.map Prod.fst).Nodup := by
    cases (encode_dumped R.floats (semantics_distinct request _) hj).distinctMembers with
    | obj _ hnodup _ => exact hnodup
  have hvalue := List.inj_on_of_nodup_map hkeys hroute hroute' rfl
  simpa using hvalue

/-! ## Two orders -/

theorem sorted_perm {l l' : List String} (h : l.Perm l') (hd : l.Nodup) : sorted l = sorted l' :=
  Sorting.sortBy_congr h (hd.map fun _ _ h => String.toList_injective h)

/-- Rounds that have counted the same votes and agree on the route of a digest and on
whether someone timed out have one decision. -/
theorem decision_congr {r r' : DecisionRound R} (hr : Sound keys r) (hr' : Sound keys r')
    (hroutes : ∀ e ∈ r.proposals, ∀ e' ∈ r'.proposals, e.2.proposalDigest = e'.2.proposalDigest →
      e.2.proposedRouteId = e'.2.proposedRouteId)
    (hvotes : r.votes.Perm r'.votes) (htimed : r.marked .timedOut = [] ↔ r'.marked .timedOut = []) :
    ∃ d d', (buildDecision r).2 = some d ∧ (buildDecision r').2 = some d' ∧ d.outcome = d'.outcome ∧
      d.selectedRouteId = d'.selectedRouteId ∧ d.selectedProposalDigest = d'.selectedProposalDigest ∧
      d.supportingOrchestrators = d'.supportingOrchestrators := by
  have hquorum : ∀ digest, HasQuorum r.votes digest ↔ HasQuorum r'.votes digest := by
    intro digest
    unfold HasQuorum approvers
    rw [(hvotes.filter _).length_eq]
  have hkept : r.quorumDigest = r'.quorumDigest := by
    refine Option.ext fun digest => ?_
    rw [hr.kept digest, hr'.kept digest, hquorum digest]
  have hout : outcomeOf r = outcomeOf r' := by
    cases hd : r.quorumDigest with
    | some digest =>
      obtain ⟨htruthy, e, he, hdigest, hfind⟩ := hr.kept_proposal keys hd
      obtain ⟨htruthy', e', he', hdigest', hfind'⟩ := hr'.kept_proposal keys (hkept.symm.trans hd)
      have hroute := hroutes e he e' he' (hdigest.trans hdigest'.symm)
      unfold outcomeOf
      rw [if_pos htruthy, if_pos htruthy', hfind, hfind']
      simp only [hroute]
    | none =>
      have hd' : r'.quorumDigest = none := hkept.symm.trans hd
      unfold outcomeOf
      simp only [hd, hd', ne_eq, htimed, hvotes.length_eq]
      rfl
  have hsupport : supporters r = supporters r' := by
    unfold supporters
    rw [hkept]
    exact sorted_perm ((hvotes.filter _).map Prod.fst) (hr.voters.distinct.sublist (List.filter_sublist.map _))
  obtain ⟨d, hd, -, hs, -, hq, reason, ho⟩ := hr.built keys
  obtain ⟨d', hd', -, hs', -, hq', reason', ho'⟩ := hr'.built keys
  rw [hout, ho', Option.some.injEq, Prod.mk.injEq, Prod.mk.injEq] at ho
  refine ⟨d, d', hd, hd', ho.1.symm, ho.2.2.symm, ?_, ?_⟩
  · rw [hq, hq', hkept]
  · rw [hs, hs', hsupport]

/-- Two orders of delivery of one set of messages lead to one decision. -/
theorem delivery_order_independent {request : Request R} {messages : List (Message R)}
    (hseparate : SeparatesProposals request messages) (hset : MessageSet keys request messages)
    {cache cache' : BoundedReplayCache} {calls calls' : List (RoundCall R)}
    (h : DeliveryOrder keys request messages cache calls)
    (h' : DeliveryOrder keys request messages cache' calls') :
    let last := (run keys ⟨.start request, cache⟩ calls).round
    let last' := (run keys ⟨.start request, cache'⟩ calls').round
    (∀ id, id ∈ last.marked .timedOut ↔ id ∈ last'.marked .timedOut) →
    ∃ d d', (buildDecision last).2 = some d ∧ (buildDecision last').2 = some d' ∧ d.outcome = d'.outcome ∧
      d.selectedRouteId = d'.selectedRouteId ∧ d.selectedProposalDigest = d'.selectedProposalDigest ∧
      d.supportingOrchestrators = d'.supportingOrchestrators := by
  intro last last' htimed
  have hcounted := h.delivered hset
  have hcounted' := h'.delivered hset
  have hsound : Sound keys last := (sound_start keys request).run keys (s := ⟨.start request, cache⟩) calls
  have hsound' : Sound keys last' := (sound_start keys request).run keys (s := ⟨.start request, cache'⟩) calls'
  have hsame : ∀ m, m ∈ messagesOf calls ↔ m ∈ messagesOf calls' := by
    intro m
    rw [h.same.mem_iff, h'.same.mem_iff]
  refine decision_congr keys hsound hsound' ?_ ?_ ?_
  · intro e he e' he' hdigest
    obtain ⟨p, hp, hcount, rfl⟩ := (hcounted.proposals e).mp he
    obtain ⟨p', hp', hcount', rfl⟩ := (hcounted'.proposals e').mp he'
    exact route_of_digest keys hseparate (h.same.mem_iff.mp hp) (h'.same.mem_iff.mp hp') hcount hcount' hdigest
  · refine (List.perm_ext_iff_of_nodup hsound.voters.distinct.of_map hsound'.voters.distinct.of_map).mpr fun e => ?_
    simp only [last, last', hcounted.votes, hcounted'.votes, hsame]
  · simp only [List.eq_nil_iff_forall_not_mem, htimed]

/-- Deliveries put no one into a set of the coordinator. -/
theorem marked_delivery (s : RoundState R) {c : RoundCall R} (h : messageOf c ≠ none) :
    (step keys s c).round.marked = s.round.marked := by
  cases c with
  | acceptProposal m =>
    rcases acceptProposal_cases keys s.round s.cache m with ⟨hround, -⟩ | hround | ⟨reason, detail, hround⟩ <;>
      simp only [step, hround, DecisionRound.reject]
  | acceptVote m =>
    rcases acceptVote_cases keys s.round s.cache m with ⟨hround, -⟩ | hround | ⟨reason, detail, hround⟩ <;>
      simp only [step, hround, DecisionRound.reject]
  | mark m orchestratorId => exact absurd rfl h
  | close => exact absurd rfl h
  | buildDecision => exact absurd rfl h
  | elsewhere sender messageId hash => exact absurd rfl h

theorem marked_deliveries (s : RoundState R) {calls : List (RoundCall R)} (h : ∀ c ∈ calls, messageOf c ≠ none) :
    (run keys s calls).round.marked = s.round.marked := by
  induction calls generalizing s with
  | nil => rfl
  | cons c calls ih =>
    have hrest := ih (step keys s c) fun c' hc' => h c' (List.mem_cons_of_mem c hc')
    exact hrest.trans (marked_delivery keys s (h c List.mem_cons_self))

/-- The proposal and the vote of a replica of the development deployment. -/
theorem dev_messages {orchestratorId : String} (h : orchestratorId ∈ orchestratorIds) :
    ∃ (p : Proposal devRuntime) (v : Vote devRuntime), p.orchestratorId = orchestratorId ∧
      v.orchestratorId = orchestratorId ∧ p.messageId = (devMoment orchestratorId .proposal).messageId ∧
      v.messageId = (devMoment orchestratorId .vote).messageId ∧ p.proposedRouteId = "route-a" ∧
      v.selectedProposalDigest = p.proposalDigest ∧ Countable devKeys devRequest p ∧
      CountableVote devKeys devRequest v := by
  obtain ⟨c, p, hc, -, hp⟩ := propose_ready devRequest (devReplica_ready h).1
  obtain ⟨v, -, hv⟩ := vote_ready devRequest (devReplica_ready h).2 p
  have hleast : Sorting.minBy routeRank devRequest.candidateRoutes = some ⟨"route-a", 10⟩ := by decide
  have hbest : c = ⟨"route-a", 10⟩ := Option.some.inj (hc.symm.trans hleast)
  subst hbest
  exact ⟨p, v, congrArg (fun m => m.orchestratorId) hp, congrArg (fun m => m.orchestratorId) hv,
    congrArg (fun m => m.messageId) hp, congrArg (fun m => m.messageId) hv,
    congrArg OrchestratorProposalV1.proposedRouteId hp,
    congrArg OrchestratorVoteV1.selectedProposalDigest hv,
    signedProposal_countable devRequest (devReplica_ready h).1 (if_pos h) hp (by decide),
    signedVote_countable devRequest (devReplica_ready h).2 (if_pos h) hv⟩

theorem delivery_order_independent_dev : ∃ (p q : Proposal devRuntime) (v w : Vote devRuntime) (d d' : OrchestrationDecisionV1),
    [p.orchestratorId, q.orchestratorId, v.orchestratorId, w.orchestratorId] =
      ["orchestrator_a", "orchestrator_b", "orchestrator_a", "orchestrator_b"] ∧
    let first := (run devKeys ⟨.start devRequest, ⟨1, by decide, []⟩⟩
      [.acceptProposal p, .acceptVote v, .acceptProposal q, .acceptVote w]).round
    let second := (run devKeys ⟨.start devRequest, ⟨2, by decide, []⟩⟩
      [.acceptProposal q, .acceptProposal p, .acceptVote w, .acceptVote v]).round
    (buildDecision first).2 = some d ∧ (buildDecision second).2 = some d' ∧ d.outcome = d'.outcome ∧
      d.selectedRouteId = d'.selectedRouteId := by
  obtain ⟨p, v, hp, hv, hpm, hvm, hproute, hvp, hpcount, hvcount⟩ :=
    dev_messages (show "orchestrator_a" ∈ orchestratorIds by decide)
  obtain ⟨q, w, hq, hw, hqm, hwm, hqroute, hwq, hqcount, hwcount⟩ :=
    dev_messages (show "orchestrator_b" ∈ orchestratorIds by decide)
  have hseparate : SeparatesProposals devRequest [.proposal p, .proposal q, .vote v, .vote w] := by
    rintro t ⟨m, hm, rfl⟩ t' ⟨m', hm', rfl⟩ -
    have hroute : ∀ n : Proposal devRuntime, .proposal n ∈
        ([.proposal p, .proposal q, .vote v, .vote w] : List (Message devRuntime)) → n.proposedRouteId = "route-a" := by
      intro n hn
      simp only [List.mem_cons, Message.proposal.injEq, reduceCtorEq, List.not_mem_nil, or_false] at hn
      rcases hn with rfl | rfl
      · exact hproute
      · exact hqroute
    rw [hroute m hm, hroute m' hm']
  have hset : MessageSet devKeys devRequest [.proposal p, .proposal q, .vote v, .vote w] := by
    refine ⟨?_, ?_, ?_, ?_⟩
    · intro m hm
      simp only [List.mem_cons, List.not_mem_nil, or_false] at hm
      rcases hm with rfl | rfl | rfl | rfl
      · exact ⟨hpcount.sender, hpcount.authentic, hpcount.bound⟩
      · exact ⟨hqcount.sender, hqcount.authentic, hqcount.bound⟩
      · exact ⟨hvcount.sender, hvcount.authentic, hvcount.bound⟩
      · exact ⟨hwcount.sender, hwcount.authentic, hwcount.bound⟩
    · simp [Message.key, Message.envelope, hp, hq, hv, hw, hpm, hqm, hvm, hwm, devMoment, Phase.value]
    · change [p.orchestratorId, q.orchestratorId].Nodup
      rw [hp, hq]
      decide
    · change [v.orchestratorId, w.orchestratorId].Nodup
      rw [hv, hw]
      decide
  have hfirst : DeliveryOrder devKeys devRequest [.proposal p, .proposal q, .vote v, .vote w] ⟨1, by decide, []⟩
      [.acceptProposal p, .acceptVote v, .acceptProposal q, .acceptVote w] := by
    refine Arrivals.inOrder hset ⟨?_, ?_, fun m _ => rfl⟩ ?_
    · exact .cons _ (.swap _ _ _)
    · simp [Delivers]
    · intro before x after hcalls
      simp [List.cons_eq_append_iff] at hcalls
      rcases hcalls with ⟨before, rfl, ⟨rfl, rfl, -⟩ | ⟨rfl, rfl, -⟩⟩
      · exact ⟨p, by simp [messagesOf, messageOf], hpcount, hvp.symm⟩
      · exact ⟨q, by simp [messagesOf, messageOf], hqcount, hwq.symm⟩
  have hsecond : DeliveryOrder devKeys devRequest [.proposal p, .proposal q, .vote v, .vote w] ⟨2, by decide, []⟩
      [.acceptProposal q, .acceptProposal p, .acceptVote w, .acceptVote v] := by
    refine Arrivals.inOrder hset ⟨?_, ?_, fun m _ => rfl⟩ ?_
    · exact (List.Perm.swap _ _ _).trans (.cons _ (.cons _ (.swap _ _ _)))
    · simp [Delivers]
    · intro before x after hcalls
      simp [List.cons_eq_append_iff] at hcalls
      rcases hcalls with ⟨before, rfl, ⟨rfl, rfl, -⟩ | ⟨rfl, rfl, -⟩⟩
      · exact ⟨q, by simp [messagesOf, messageOf], hqcount, hwq.symm⟩
      · exact ⟨p, by simp [messagesOf, messageOf], hpcount, hvp.symm⟩
  have hmarked : ∀ (cache : BoundedReplayCache) (calls : List (RoundCall devRuntime)),
      (∀ c ∈ calls, messageOf c ≠ none) →
      (run devKeys ⟨.start devRequest, cache⟩ calls).round.marked .timedOut = [] := fun cache calls hcalls =>
    congrFun (marked_deliveries devKeys ⟨.start devRequest, cache⟩ hcalls) .timedOut
  obtain ⟨d, d', hd, hd', houtcome, hroute, -⟩ :=
    delivery_order_independent devKeys hseparate hset hfirst hsecond fun id => by
      rw [hmarked _ _ (by simp [messageOf]), hmarked _ _ (by simp [messageOf])]
  refine ⟨p, q, v, w, d, d', ?_, hd, hd', houtcome, hroute⟩
  rw [hp, hq, hv, hw]

end OrchestrationOrder
