import AgenticSoc.OrchestrationRound

/-!
# What a decision rests on

One invariant holds of a round whatever messages it takes: what it counts is authentic
and bound to its request, senders are counted once, and the kept digest is the one that
a quorum approves. There is at most one such digest because there are three senders.
-/
namespace OrchestrationDecision

open OrchestrationMessages OrchestrationRound Grouping
open BlackboardRecord (runChecks_ok)

variable {F : Type} {R : Runtime F} (keys : String → Option Bytes)

/-! ## Calls -/

/-- What can happen to a round and to the replay cache it shares. -/
inductive RoundCall (R : Runtime F) where
  | acceptProposal (m : Proposal R)
  | acceptVote (m : Vote R)
  | mark (m : Mark) (orchestratorId : String)
  | close
  | buildDecision
  | elsewhere (sender messageId contentHash : String)

structure RoundState (R : Runtime F) where
  round : DecisionRound R
  cache : BoundedReplayCache

def step (s : RoundState R) : RoundCall R → RoundState R
  | .acceptProposal m =>
    ⟨(acceptProposal keys s.round s.cache m).1.1, (acceptProposal keys s.round s.cache m).1.2⟩
  | .acceptVote m => ⟨(acceptVote keys s.round s.cache m).1.1, (acceptVote keys s.round s.cache m).1.2⟩
  | .mark m orchestratorId => ⟨s.round.mark m orchestratorId, s.cache⟩
  | .close => ⟨s.round.close, s.cache⟩
  | .buildDecision => ⟨(buildDecision s.round).1, s.cache⟩
  | .elsewhere sender messageId contentHash => ⟨s.round, (s.cache.observe sender messageId contentHash).1⟩

def run (s : RoundState R) (calls : List (RoundCall R)) : RoundState R := calls.foldl (step keys) s

theorem run_append (s : RoundState R) (before after : List (RoundCall R)) :
    run keys s (before ++ after) = run keys (run keys s before) after :=
  List.foldl_append

/-! ## What is counted -/

/-- The message names the identity, the version, the round and the digest of the request. -/
structure BoundTo (request : Request R) (m : Envelope R.floats) : Prop where
  id : m.requestId = request.requestId
  version : m.requestVersion = request.requestVersion
  round : m.roundId = request.roundId
  digest : m.requestDigest = requestDigest R request.toOrchestrationRequestV1

/-- A proposal that a round of the request may count. -/
structure Countable (request : Request R) (m : Proposal R) : Prop where
  sender : m.orchestratorId ∈ orchestratorIds
  authentic : Authentic R keys m.toEnvelope (proposalDump m.toOrchestratorProposalV1 (R.jsonMode m.provenance.value))
  bound : BoundTo request m.toEnvelope
  route : m.proposedRouteId ∈ request.candidateRoutes.map CandidateRouteV1.routeId
  digest : m.proposalDigest = expectedDigest m.toOrchestratorProposalV1

/-- A vote that a round of the request may count. -/
structure CountableVote (request : Request R) (m : Vote R) : Prop where
  sender : m.orchestratorId ∈ orchestratorIds
  authentic : Authentic R keys m.toEnvelope (voteDump m.toOrchestratorVoteV1 (R.jsonMode m.provenance.value))
  bound : BoundTo request m.toEnvelope

/-- A counted proposal has the digest that the vote selects. -/
def Known (r : DecisionRound R) (digest : String) : Prop :=
  ∃ e ∈ r.proposals, e.2.proposalDigest = digest

theorem bindingReason_none {r : DecisionRound R} {m : Envelope R.floats} :
    bindingReason r m = none ↔ m.orchestratorId ∈ orchestratorIds ∧ BoundTo r.request m := by
  unfold bindingReason
  constructor
  · intro h
    split at h
    · cases h
    · rename_i hid
      split at h
      · cases h
      · rename_i hrequest
        split at h
        · cases h
        · rename_i hversion
          split at h
          · cases h
          · rename_i hround
            split at h
            · cases h
            · rename_i hdigest
              simp only [ne_eq, not_not] at hid hrequest hversion hround hdigest
              exact ⟨hid, hrequest, hversion, hround, hdigest⟩
  · rintro ⟨hid, h⟩
    simp [hid, h.id, h.version, h.round, h.digest, DecisionRound.requestDigest]

/-- A message passes the shared checks just when the round is open and it is an
authentic message of an orchestrator, bound to the round. -/
theorem screen_ok {r : DecisionRound R} {m : Envelope R.floats} {verified : Except Reason Unit} :
    screen r m verified = .ok () ↔ r.terminal = false ∧ m.orchestratorId ∈ orchestratorIds ∧
      verified = .ok () ∧ BoundTo r.request m := by
  unfold screen
  cases hterminal : r.terminal with
  | true => simp
  | false =>
    by_cases hid : m.orchestratorId ∈ orchestratorIds
    · cases verified with
      | error reason => simp [hid]
      | ok u =>
        cases hbind : bindingReason r m with
        | none => simp [hid, ((bindingReason_none).mp hbind).2]
        | some reason =>
          have hnot : ¬ BoundTo r.request m := by
            intro h
            rw [(bindingReason_none).mpr ⟨hid, h⟩] at hbind
            cases hbind
          simp [hid, hnot]
    · simp [hid]

theorem screenProposal_ok {r : DecisionRound R} {m : Proposal R} :
    screenProposal keys r m = .ok () ↔ r.terminal = false ∧ Countable keys r.request m := by
  unfold screenProposal
  constructor
  · intro h
    split at h
    · cases h
    · rename_i hscreen
      obtain ⟨hopen, hid, hverified, hbound⟩ := (screen_ok).mp hscreen
      split at h
      · cases h
      · rename_i hroute
        split at h
        · cases h
        · rename_i hdigest
          exact ⟨hopen, hid, (verify_ok R).mp hverified, hbound, not_not.mp hroute, not_not.mp hdigest⟩
  · rintro ⟨hopen, h⟩
    have hscreen := (screen_ok).mpr ⟨hopen, h.sender, (verify_ok R).mpr h.authentic, h.bound⟩
    unfold verifyProposal
    rw [hscreen]
    simp only [if_neg (not_not.mpr h.route), if_neg (not_not.mpr h.digest)]

theorem screenVote_ok {r : DecisionRound R} {m : Vote R} :
    screenVote keys r m = .ok () ↔
      r.terminal = false ∧ CountableVote keys r.request m ∧ Known r m.selectedProposalDigest := by
  unfold screenVote
  constructor
  · intro h
    split at h
    · cases h
    · rename_i hscreen
      obtain ⟨hopen, hid, hverified, hbound⟩ := (screen_ok).mp hscreen
      split at h
      · cases h
      · rename_i hknown
        refine ⟨hopen, ⟨hid, (verify_ok R).mp hverified, hbound⟩, ?_⟩
        exact List.mem_map.mp (not_not.mp hknown)
  · rintro ⟨hopen, h, hdigest⟩
    have hscreen := (screen_ok).mpr ⟨hopen, h.sender, (verify_ok R).mpr h.authentic, h.bound⟩
    have hknown : m.selectedProposalDigest ∈ r.proposals.map (fun e => e.2.proposalDigest) :=
      List.mem_map.mpr hdigest
    unfold verifyVote
    rw [hscreen]
    simp only [if_neg (not_not.mpr hknown)]

/-- A screened message is counted just when the cache has not seen it and its sender has
nothing in the round. -/
theorem settle_true {replay : Replay} {prior : Option String} {hash : String} {second : Reason × String} :
    settle replay prior hash second = .ok true ↔ replay = .new ∧ prior = none := by
  unfold settle
  cases replay with
  | new =>
    cases prior with
    | none => simp
    | some h => by_cases he : h = hash <;> simp [he]
  | duplicate => simp
  | conflict => simp

/-- No entry has the key. -/
def Absent {α : Type} (entries : List (String × α)) (key : String) : Prop := ∀ e ∈ entries, e.1 ≠ key

theorem find_absent {α β : Type} {entries : List (String × α)} {key : String} {f : String × α → β} :
    (entries.find? fun e => e.1 = key).map f = none ↔ Absent entries key := by
  rw [Option.map_eq_none_iff, List.find?_eq_none]
  simp [Absent]

/-- What a call with a proposal does: it is counted, it changes nothing, or it is
rejected. -/
theorem acceptProposal_cases (r : DecisionRound R) (c : BoundedReplayCache) (m : Proposal R) :
    ((acceptProposal keys r c m).1.1 = { r with proposals := r.proposals ++ [(m.orchestratorId, m)] } ∧
      (acceptProposal keys r c m).2 = .accepted ∧ r.terminal = false ∧ Countable keys r.request m ∧
      Absent r.proposals m.orchestratorId) ∨
    (acceptProposal keys r c m).1.1 = r ∨
    ∃ reason detail, (acceptProposal keys r c m).1.1 = r.reject .proposal m.toEnvelope reason detail := by
  unfold acceptProposal
  cases hscreen : screenProposal keys r m with
  | error e => exact .inr (.inr ⟨e.1, e.2, rfl⟩)
  | ok u =>
    obtain ⟨hopen, hcount⟩ := (screenProposal_ok keys).mp hscreen
    simp only [settleProposal]
    generalize hsettle : settle _ _ _ _ = settled
    cases settled with
    | error e => exact .inr (.inr ⟨e.1, e.2, rfl⟩)
    | ok counted =>
      cases counted with
      | false => exact .inr (.inl rfl)
      | true => exact .inl ⟨rfl, rfl, hopen, hcount, (find_absent).mp ((settle_true).mp hsettle).2⟩

theorem acceptVote_cases (r : DecisionRound R) (c : BoundedReplayCache) (m : Vote R) :
    ((acceptVote keys r c m).1.1 = { r with
        votes := r.votes ++ [(m.orchestratorId, m)]
        quorumDigest := latch (r.votes ++ [(m.orchestratorId, m)]) r.quorumDigest } ∧
      (acceptVote keys r c m).2 = .accepted ∧ r.terminal = false ∧ CountableVote keys r.request m ∧
      Known r m.selectedProposalDigest ∧ Absent r.votes m.orchestratorId) ∨
    (acceptVote keys r c m).1.1 = r ∨
    ∃ reason detail, (acceptVote keys r c m).1.1 = r.reject .vote m.toEnvelope reason detail := by
  unfold acceptVote
  cases hscreen : screenVote keys r m with
  | error e => exact .inr (.inr ⟨e.1, e.2, rfl⟩)
  | ok u =>
    obtain ⟨hopen, hcount, hknown⟩ := (screenVote_ok keys).mp hscreen
    simp only [settleVote]
    generalize hsettle : settle _ _ _ _ = settled
    cases settled with
    | error e => exact .inr (.inr ⟨e.1, e.2, rfl⟩)
    | ok counted =>
      cases counted with
      | false => exact .inr (.inl rfl)
      | true => exact .inl ⟨rfl, rfl, hopen, hcount, hknown, (find_absent).mp ((settle_true).mp hsettle).2⟩

/-! ## Delivery -/

theorem observe_new {c : BoundedReplayCache} {sender messageId hash : String}
    (h : c.find (sender, messageId) = none) : (c.observe sender messageId hash).2 = .new := by
  simp only [BoundedReplayCache.observe, h]

/-- Observing a message adds no other. -/
theorem observe_entries {c : BoundedReplayCache} {sender messageId hash : String} {e : (String × String) × String}
    (he : e ∈ (c.observe sender messageId hash).1.entries) : e ∈ c.entries ∨ e.1 = (sender, messageId) := by
  cases hfind : c.find (sender, messageId) with
  | some existing =>
    have hexisting : existing ∈ c.entries := List.mem_of_find?_eq_some hfind
    simp only [BoundedReplayCache.observe, hfind] at he
    rcases List.mem_append.mp he with he | he
    · exact .inl (List.mem_filter.mp he).1
    · rw [List.mem_singleton.mp he]
      exact .inl hexisting
  | none =>
    simp only [BoundedReplayCache.observe, hfind] at he
    rcases List.mem_append.mp (List.mem_of_mem_drop he) with he | he
    · exact .inl he
    · rw [List.mem_singleton.mp he]
      exact .inr rfl

theorem find_none {c : BoundedReplayCache} {key : String × String} :
    c.find key = none ↔ ∀ e ∈ c.entries, e.1 ≠ key := by
  unfold BoundedReplayCache.find
  rw [List.find?_eq_none]
  simp

/-- Observing one message leaves the others as unseen as they were. -/
theorem observe_find {c : BoundedReplayCache} {sender messageId hash : String} {key : String × String}
    (hne : key ≠ (sender, messageId)) (h : c.find key = none) :
    (c.observe sender messageId hash).1.find key = none := by
  rw [find_none] at h ⊢
  intro e he
  rcases observe_entries he with hold | hnew
  · exact h e hold
  · rw [hnew]
    exact hne.symm

/-- A countable proposal of a sender without one, seen for the first time, is counted
by an open round. -/
theorem acceptProposal_counted {r : DecisionRound R} {c : BoundedReplayCache} {m : Proposal R}
    (hopen : r.terminal = false) (hm : Countable keys r.request m) (hnew : Absent r.proposals m.orchestratorId)
    (hfresh : c.find (m.orchestratorId, m.messageId) = none) : acceptProposal keys r c m =
      (({ r with proposals := r.proposals ++ [(m.orchestratorId, m)] },
        (c.observe m.orchestratorId m.messageId m.messageHash).1), .accepted) := by
  have hscreen := (screenProposal_ok keys).mpr ⟨hopen, hm⟩
  have hprior : ((r.proposals.find? fun e => e.1 = m.orchestratorId).map fun e => e.2.messageHash) = none :=
    (find_absent).mpr hnew
  unfold acceptProposal
  rw [hscreen]
  simp only [observe_new hfresh, settleProposal, hprior, settle]

theorem acceptVote_counted {r : DecisionRound R} {c : BoundedReplayCache} {m : Vote R}
    (hopen : r.terminal = false) (hm : CountableVote keys r.request m) (hknown : Known r m.selectedProposalDigest)
    (hnew : Absent r.votes m.orchestratorId) (hfresh : c.find (m.orchestratorId, m.messageId) = none) :
    acceptVote keys r c m =
      (({ r with
          votes := r.votes ++ [(m.orchestratorId, m)]
          quorumDigest := latch (r.votes ++ [(m.orchestratorId, m)]) r.quorumDigest },
        (c.observe m.orchestratorId m.messageId m.messageHash).1), .accepted) := by
  have hscreen := (screenVote_ok keys).mpr ⟨hopen, hm, hknown⟩
  have hprior : ((r.votes.find? fun e => e.1 = m.orchestratorId).map fun e => e.2.messageHash) = none :=
    (find_absent).mpr hnew
  unfold acceptVote
  rw [hscreen]
  simp only [observe_new hfresh, settleVote, hprior, settle]

/-- A terminal round rejects every proposal. -/
theorem acceptProposal_late {r : DecisionRound R} (h : r.terminal = true) (c : BoundedReplayCache) (m : Proposal R) :
    acceptProposal keys r c m =
      ((r.reject .proposal m.toEnvelope .lateMessage "round is terminal", c), .rejected .lateMessage) := by
  simp [acceptProposal, screenProposal, screen, h]

theorem acceptVote_late {r : DecisionRound R} (h : r.terminal = true) (c : BoundedReplayCache) (m : Vote R) :
    acceptVote keys r c m =
      ((r.reject .vote m.toEnvelope .lateMessage "round is terminal", c), .rejected .lateMessage) := by
  simp [acceptVote, screenVote, screen, h]

/-! ## The kept digest -/

/-- The votes that approve a digest. -/
def approvers (votes : List (String × Vote R)) (digest : String) : List (String × Vote R) :=
  votes.filter fun e => e.2.vote = .approve ∧ e.2.selectedProposalDigest = digest

/-- The digest has the approvals of a quorum. -/
def HasQuorum (votes : List (String × Vote R)) (digest : String) : Prop :=
  requiredQuorum ≤ (approvers votes digest).length

theorem mem_approvers {votes : List (String × Vote R)} {digest : String} {e : String × Vote R} :
    e ∈ approvers votes digest ↔
      e ∈ votes ∧ e.2.vote = .approve ∧ e.2.selectedProposalDigest = digest := by
  unfold approvers
  rw [List.mem_filter, decide_eq_true_iff]

/-- A group of the counter is the votes that approve its digest. -/
theorem approvals_group {votes : List (String × Vote R)} {g : String × List (String × Vote R)}
    (hg : g ∈ approvals votes) : g.2 = approvers votes g.1 := by
  rw [(covers_groupOn _ _).members g hg]
  unfold approvers
  rw [List.filter_filter]
  exact List.filter_congr fun e _ => by simp [and_comm]

theorem approvals_keyed {votes : List (String × Vote R)} {digest : String} (h : HasQuorum votes digest) :
    ∃ g ∈ approvals votes, g.1 = digest := by
  obtain ⟨e, he⟩ := List.exists_mem_of_length_pos (Nat.lt_of_lt_of_le (by decide) h)
  obtain ⟨hvote, happrove, hdigest⟩ := (mem_approvers).mp he
  obtain ⟨g, hg, hkey⟩ := (covers_groupOn (fun e : String × Vote R => e.2.selectedProposalDigest)
    (votes.filter fun e => e.2.vote = .approve)).keyed e (List.mem_filter.mpr ⟨hvote, by simpa using happrove⟩)
  exact ⟨g, hg, hkey.trans hdigest⟩

theorem foldl_latched (groups : List (String × List (String × Vote R))) (digest : String) :
    groups.foldl (fun q g => if requiredQuorum ≤ g.2.length ∧ q = none then some g.1 else q)
      (some digest) = some digest := by
  induction groups with
  | nil => rfl
  | cons g groups ih => simpa using ih

/-- A digest that is kept stays. -/
theorem latch_some (votes : List (String × Vote R)) (digest : String) :
    latch votes (some digest) = some digest := foldl_latched _ digest

theorem foldl_latch (groups : List (String × List (String × Vote R))) :
    (∃ g ∈ groups, requiredQuorum ≤ g.2.length ∧
      groups.foldl (fun q g => if requiredQuorum ≤ g.2.length ∧ q = none then some g.1 else q) none =
        some g.1) ∨
    ((∀ g ∈ groups, ¬ requiredQuorum ≤ g.2.length) ∧
      groups.foldl (fun q g => if requiredQuorum ≤ g.2.length ∧ q = none then some g.1 else q) none =
        none) := by
  induction groups with
  | nil => exact .inr ⟨nofun, rfl⟩
  | cons g groups ih =>
    by_cases hg : requiredQuorum ≤ g.2.length
    · refine .inl ⟨g, List.mem_cons_self, hg, ?_⟩
      simp only [List.foldl_cons, hg, and_self, if_true]
      exact foldl_latched groups g.1
    · simp only [List.foldl_cons, hg, false_and, if_false]
      rcases ih with ⟨g', hg', hq, hkept⟩ | ⟨hnone, hkept⟩
      · exact .inl ⟨g', List.mem_cons_of_mem g hg', hq, hkept⟩
      · refine .inr ⟨fun g' hg' => ?_, hkept⟩
        rcases List.mem_cons.mp hg' with rfl | hg'
        · exact hg
        · exact hnone g' hg'

/-- Without a kept digest one that a quorum approves is kept, when there is one. -/
theorem latch_none (votes : List (String × Vote R)) :
    (∃ digest, latch votes none = some digest ∧ HasQuorum votes digest) ∨
      (latch votes none = none ∧ ∀ digest, ¬ HasQuorum votes digest) := by
  rcases foldl_latch (approvals votes) with ⟨g, hg, hq, hkept⟩ | ⟨hnone, hkept⟩
  · refine .inl ⟨g.1, hkept, ?_⟩
    unfold HasQuorum
    rw [← approvals_group hg]
    exact hq
  · refine .inr ⟨hkept, fun digest h => ?_⟩
    obtain ⟨g, hg, rfl⟩ := approvals_keyed h
    refine hnone g hg ?_
    rw [approvals_group hg]
    exact h

/-- Votes of different senders, each of them an orchestrator. -/
structure Senders {α : Type} (entries : List (String × α)) : Prop where
  distinct : (entries.map Prod.fst).Nodup
  known : ∀ e ∈ entries, e.1 ∈ orchestratorIds

theorem Senders.length_le {α : Type} {entries : List (String × α)} (h : Senders entries) :
    entries.length ≤ 3 := by
  have hsub : entries.map Prod.fst ⊆ orchestratorIds := by
    intro id hid
    obtain ⟨e, he, rfl⟩ := List.mem_map.mp hid
    exact h.known e he
  have hle := (List.subperm_of_subset h.distinct hsub).length_le
  simpa [orchestratorIds] using hle

theorem Senders.concat {α : Type} {entries : List (String × α)} (h : Senders entries) {id : String}
    (hid : id ∈ orchestratorIds) (hnew : Absent entries id) (a : α) : Senders (entries ++ [(id, a)]) := by
  refine ⟨?_, ?_⟩
  · rw [List.map_append, List.nodup_append]
    refine ⟨h.distinct, List.nodup_singleton id, ?_⟩
    intro x hx y hy hxy
    obtain ⟨e, he, rfl⟩ := List.mem_map.mp hx
    simp only [List.map_cons, List.map_nil, List.mem_singleton] at hy
    exact hnew e he (hxy.trans hy)
  · intro e he
    rcases List.mem_append.mp he with he | he
    · exact h.known e he
    · rw [List.mem_singleton.mp he]
      exact hid

/-- Three senders cannot approve two digests with a quorum each. -/
theorem quorum_unique {votes : List (String × Vote R)} (h : Senders votes) {d d' : String}
    (hd : HasQuorum votes d) (hd' : HasQuorum votes d') : d = d' := by
  by_contra hne
  have hdisjoint : (approvers votes d).length + (approvers votes d').length ≤ votes.length := by
    have hsub : approvers votes d' ⊆ votes.filter fun e => ¬ (e.2.vote = .approve ∧ e.2.selectedProposalDigest = d) := by
      intro e he
      obtain ⟨hvote, -, hdigest⟩ := (mem_approvers).mp he
      refine List.mem_filter.mpr ⟨hvote, ?_⟩
      rw [decide_eq_true_iff]
      rintro ⟨-, hd⟩
      exact hne (hd.symm.trans hdigest)
    have hnodup : (approvers votes d').Nodup := (List.Nodup.of_map Prod.fst h.distinct).filter _
    have hle := (List.subperm_of_subset hnodup hsub).length_le
    have hall := List.length_eq_length_filter_add (l := votes)
      (fun e => decide (e.2.vote = .approve ∧ e.2.selectedProposalDigest = d))
    unfold approvers at hle ⊢
    simp only [decide_not] at hle
    omega
  have hlen := h.length_le
  unfold HasQuorum requiredQuorum at hd hd'
  omega

/-! ## The invariant of a round -/

/-- What is counted is countable, senders are counted once, and the kept digest is the
one with the approvals of a quorum. -/
structure Sound (r : DecisionRound R) : Prop where
  proposals : ∀ e ∈ r.proposals, e.1 = e.2.orchestratorId ∧ Countable keys r.request e.2
  proposers : Senders r.proposals
  votes : ∀ e ∈ r.votes, e.1 = e.2.orchestratorId ∧ CountableVote keys r.request e.2
  known : ∀ e ∈ r.votes, Known r e.2.selectedProposalDigest
  voters : Senders r.votes
  kept : ∀ digest, r.quorumDigest = some digest ↔ HasQuorum r.votes digest

theorem senders_nil {α : Type} : Senders ([] : List (String × α)) := ⟨List.nodup_nil, nofun⟩

theorem sound_start (request : Request R) : Sound keys (DecisionRound.start request) := by
  refine ⟨fun e he => absurd he List.not_mem_nil, senders_nil, fun e he => absurd he List.not_mem_nil,
    fun e he => absurd he List.not_mem_nil, senders_nil, fun digest => ?_⟩
  unfold HasQuorum
  simp [DecisionRound.start, approvers, requiredQuorum]

/-- A counted proposal keeps the invariant. -/
theorem Sound.proposal {r : DecisionRound R} (h : Sound keys r) {m : Proposal R}
    (hm : Countable keys r.request m) (hnew : Absent r.proposals m.orchestratorId) :
    Sound keys { r with proposals := r.proposals ++ [(m.orchestratorId, m)] } := by
  refine ⟨?_, h.proposers.concat hm.sender hnew m, h.votes, ?_, h.voters, h.kept⟩
  · intro e he
    rcases List.mem_append.mp he with he | he
    · exact h.proposals e he
    · rw [List.mem_singleton.mp he]
      exact ⟨rfl, hm⟩
  · intro e he
    obtain ⟨p, hp, hdigest⟩ := h.known e he
    exact ⟨p, List.mem_append_left _ hp, hdigest⟩

/-- More votes, more approvals. -/
theorem HasQuorum.concat {votes : List (String × Vote R)} {digest : String} (h : HasQuorum votes digest)
    (e : String × Vote R) : HasQuorum (votes ++ [e]) digest := by
  unfold HasQuorum approvers at h ⊢
  rw [List.filter_append, List.length_append]
  omega

/-- A counted vote keeps the invariant. -/
theorem Sound.vote {r : DecisionRound R} (h : Sound keys r) {m : Vote R}
    (hm : CountableVote keys r.request m) (hknown : Known r m.selectedProposalDigest)
    (hnew : Absent r.votes m.orchestratorId) :
    Sound keys { r with
      votes := r.votes ++ [(m.orchestratorId, m)]
      quorumDigest := latch (r.votes ++ [(m.orchestratorId, m)]) r.quorumDigest } := by
  have hvoters := h.voters.concat hm.sender hnew m
  refine ⟨h.proposals, h.proposers, ?_, ?_, hvoters, fun digest => ?_⟩
  · intro e he
    rcases List.mem_append.mp he with he | he
    · exact h.votes e he
    · rw [List.mem_singleton.mp he]
      exact ⟨rfl, hm⟩
  · intro e he
    rcases List.mem_append.mp he with he | he
    · exact h.known e he
    · rw [List.mem_singleton.mp he]
      exact hknown
  · -- a digest that was kept still has its quorum, and there is no second one
    change latch _ r.quorumDigest = some digest ↔ HasQuorum (r.votes ++ [(m.orchestratorId, m)]) digest
    cases hkept : r.quorumDigest with
    | some kept =>
      have hquorum := ((h.kept kept).mp hkept).concat (m.orchestratorId, m)
      rw [latch_some, Option.some.injEq]
      constructor
      · rintro rfl
        exact hquorum
      · exact quorum_unique hvoters hquorum
    | none =>
      rcases latch_none (r.votes ++ [(m.orchestratorId, m)]) with ⟨kept, hlatch, hquorum⟩ | ⟨hlatch, hnone⟩
      · rw [hlatch, Option.some.injEq]
        constructor
        · rintro rfl
          exact hquorum
        · exact quorum_unique hvoters hquorum
      · rw [hlatch]
        exact ⟨nofun, fun hquorum => absurd hquorum (hnone digest)⟩

theorem Sound.reject {r : DecisionRound R} (h : Sound keys r) (phase : Phase) (m : Envelope R.floats)
    (reason : Reason) (detail : String) : Sound keys (r.reject phase m reason detail) :=
  ⟨h.proposals, h.proposers, h.votes, h.known, h.voters, h.kept⟩

/-- Every call keeps the invariant. -/
theorem Sound.step {s : RoundState R} (h : Sound keys s.round) (c : RoundCall R) :
    Sound keys (step keys s c).round := by
  cases c with
  | acceptProposal m =>
    rcases acceptProposal_cases keys s.round s.cache m with
      ⟨hround, -, -, hm, hnew⟩ | hround | ⟨reason, detail, hround⟩ <;>
      simp only [OrchestrationDecision.step, hround]
    · exact h.proposal keys hm hnew
    · exact h
    · exact h.reject keys .proposal m.toEnvelope reason detail
  | acceptVote m =>
    rcases acceptVote_cases keys s.round s.cache m with
      ⟨hround, -, -, hm, hknown, hnew⟩ | hround | ⟨reason, detail, hround⟩ <;>
      simp only [OrchestrationDecision.step, hround]
    · exact h.vote keys hm hknown hnew
    · exact h
    · exact h.reject keys .vote m.toEnvelope reason detail
  | mark m orchestratorId => exact ⟨h.proposals, h.proposers, h.votes, h.known, h.voters, h.kept⟩
  | close => exact ⟨h.proposals, h.proposers, h.votes, h.known, h.voters, h.kept⟩
  | buildDecision => exact ⟨h.proposals, h.proposers, h.votes, h.known, h.voters, h.kept⟩
  | elsewhere sender messageId contentHash => exact h

theorem Sound.run {s : RoundState R} (h : Sound keys s.round) (calls : List (RoundCall R)) :
    Sound keys (run keys s calls).round := by
  induction calls generalizing s with
  | nil => exact h
  | cons c calls ih => exact ih (h.step keys c)

/-- What no call changes: the request, a kept digest, and everything counted once the
round is terminal. -/
structure Frame (r r' : DecisionRound R) : Prop where
  request : r'.request = r.request
  kept : ∀ digest, r.quorumDigest = some digest → r'.quorumDigest = some digest
  terminal : r.terminal = true → r'.terminal = true ∧ r'.proposals = r.proposals ∧ r'.votes = r.votes ∧
    r'.quorumDigest = r.quorumDigest

theorem Frame.refl (r : DecisionRound R) : Frame r r := ⟨rfl, fun _ h => h, fun h => ⟨h, rfl, rfl, rfl⟩⟩

theorem Frame.trans {r r' r'' : DecisionRound R} (h : Frame r r') (h' : Frame r' r'') : Frame r r'' := by
  refine ⟨h'.request.trans h.request, fun digest hd => h'.kept digest (h.kept digest hd), fun ht => ?_⟩
  obtain ⟨hterminal, hproposals, hvotes, hdigest⟩ := h.terminal ht
  obtain ⟨hterminal', hproposals', hvotes', hdigest'⟩ := h'.terminal hterminal
  exact ⟨hterminal', hproposals'.trans hproposals, hvotes'.trans hvotes, hdigest'.trans hdigest⟩

theorem frame_step (s : RoundState R) (c : RoundCall R) : Frame s.round (step keys s c).round := by
  cases c with
  | acceptProposal m =>
    rcases acceptProposal_cases keys s.round s.cache m with
      ⟨hround, -, hopen, -, -⟩ | hround | ⟨reason, detail, hround⟩ <;>
      simp only [step, hround]
    · refine ⟨rfl, fun _ h => h, fun h => ?_⟩
      rw [hopen] at h
      cases h
    · exact .refl _
    · exact ⟨rfl, fun _ h => h, fun h => ⟨h, rfl, rfl, rfl⟩⟩
  | acceptVote m =>
    rcases acceptVote_cases keys s.round s.cache m with
      ⟨hround, -, hopen, -, -, -⟩ | hround | ⟨reason, detail, hround⟩ <;>
      simp only [step, hround]
    · refine ⟨rfl, fun digest h => ?_, fun h => ?_⟩
      · change latch _ s.round.quorumDigest = some digest
        rw [h, latch_some]
      · rw [hopen] at h
        cases h
    · exact .refl _
    · exact ⟨rfl, fun _ h => h, fun h => ⟨h, rfl, rfl, rfl⟩⟩
  | mark m orchestratorId => exact ⟨rfl, fun _ h => h, fun h => ⟨h, rfl, rfl, rfl⟩⟩
  | close => exact ⟨rfl, fun _ h => h, fun _ => ⟨rfl, rfl, rfl, rfl⟩⟩
  | buildDecision => exact ⟨rfl, fun _ h => h, fun _ => ⟨rfl, rfl, rfl, rfl⟩⟩
  | elsewhere sender messageId contentHash => exact .refl _

theorem frame_run (s : RoundState R) (calls : List (RoundCall R)) : Frame s.round (run keys s calls).round := by
  induction calls generalizing s with
  | nil => exact .refl _
  | cons c calls ih => exact (frame_step keys s c).trans (ih (step keys s c))

/-! ## The decision -/

theorem digest_truthy {digest : String} (h : isDigest digest = true) : truthy (some digest) = true := by
  have hne : digest ≠ "" := by
    rintro rfl
    revert h
    decide
  simp [truthy, hne]

theorem selected_isDigest (m : Vote R) : isDigest m.selectedProposalDigest = true := by
  have h := (runChecks_ok _).mp m.valid
  exact h (isDigest m.selectedProposalDigest, "selected_proposal_digest") (by simp [voteChecks])

theorem route_nonempty (request : Request R) {routeId : String}
    (h : routeId ∈ request.candidateRoutes.map CandidateRouteV1.routeId) : truthy (some routeId) = true := by
  obtain ⟨c, hc, rfl⟩ := List.mem_map.mp h
  have hvalid := (runChecks_ok _).mp request.valid (fits 128 c.routeId, "route_id") (by
    simp only [requestChecks, List.mem_append]
    exact .inl (.inr (List.mem_flatMap.mpr ⟨c, hc, by simp [candidateChecks]⟩)))
  have hne : c.routeId ≠ "" := by
    intro hempty
    rw [hempty] at hvalid
    revert hvalid
    decide
  simp [truthy, hne]

/-- A kept digest counts as one and is the digest of a counted proposal. -/
theorem Sound.kept_proposal {r : DecisionRound R} (h : Sound keys r) {digest : String}
    (hd : r.quorumDigest = some digest) :
    truthy r.quorumDigest = true ∧ ∃ e ∈ r.proposals, e.2.proposalDigest = digest ∧
      (r.proposals.find? fun e => some e.2.proposalDigest = r.quorumDigest) = some e := by
  obtain ⟨v, hv⟩ := List.exists_mem_of_length_pos (Nat.lt_of_lt_of_le (by decide) ((h.kept digest).mp hd))
  obtain ⟨hvote, -, hselected⟩ := (mem_approvers).mp hv
  obtain ⟨p, hp, hdigest⟩ := h.known v hvote
  refine ⟨?_, ?_⟩
  · rw [hd, ← hselected]
    exact digest_truthy (selected_isDigest v.2)
  · cases hfind : r.proposals.find? fun e => some e.2.proposalDigest = r.quorumDigest with
    | none =>
      have hnot := List.find?_eq_none.mp hfind p hp
      rw [hd, hdigest, hselected] at hnot
      simp at hnot
    | some e =>
      have hsame := List.find?_some hfind
      rw [decide_eq_true_iff, hd, Option.some.injEq] at hsame
      exact ⟨e, List.mem_of_find?_eq_some hfind, hsame, rfl⟩

/-- The outcome of a sound round: decided by the kept digest for the route of the first
proposal that has it, or none of these. -/
theorem Sound.outcome {r : DecisionRound R} (h : Sound keys r) :
    (∃ digest e, r.quorumDigest = some digest ∧ e ∈ r.proposals ∧ e.2.proposalDigest = digest ∧
      (r.proposals.find? fun e => some e.2.proposalDigest = r.quorumDigest) = some e ∧
      outcomeOf r = some (.decided, "TWO_OF_THREE_AUTHENTICATED_APPROVAL_QUORUM", some e.2.proposedRouteId)) ∨
    (r.quorumDigest = none ∧ ∃ outcome reason, outcome ≠ .decided ∧ outcomeOf r = some (outcome, reason, none)) := by
  cases hd : r.quorumDigest with
  | some digest =>
    obtain ⟨htruthy, e, he, hdigest, hfind⟩ := h.kept_proposal keys hd
    refine .inl ⟨digest, e, rfl, he, hdigest, ?_, ?_⟩
    · rw [← hd]
      exact hfind
    · unfold outcomeOf
      rw [if_pos htruthy, hfind]
  | none =>
    have hfalse : ¬ truthy r.quorumDigest = true := by
      rw [hd]
      decide
    refine .inr ⟨rfl, ?_⟩
    unfold outcomeOf
    rw [if_neg hfalse]
    split
    · exact ⟨_, _, by decide, rfl⟩
    · split
      · exact ⟨_, _, by decide, rfl⟩
      · exact ⟨_, _, by decide, rfl⟩

/-- A sound round has a decision, with the round's votes and its kept digest. -/
theorem Sound.built {r : DecisionRound R} (h : Sound keys r) :
    ∃ d, (buildDecision r).2 = some d ∧ d.voteSummaries = r.votes.map voteSummary ∧
      d.supportingOrchestrators = supporters r ∧ d.disagreeingOrchestrators = disagreements r ∧
      d.selectedProposalDigest = r.quorumDigest ∧
      ∃ reason, outcomeOf r = some (d.outcome, reason, d.selectedRouteId) := by
  unfold buildDecision
  rcases h.outcome keys with ⟨digest, e, hd, he, -, -, hout⟩ | ⟨hd, outcome, reason, hne, hout⟩
  · have hroute := route_nonempty r.request (h.proposals e he).2.route
    rw [hout]
    simp only [Option.bind_some, consistentOutcome, hd, hroute]
    exact ⟨_, rfl, rfl, rfl, rfl, rfl, _, rfl⟩
  · rw [hout]
    simp only [Option.bind_some, consistentOutcome, hd, if_neg hne]
    exact ⟨_, rfl, rfl, rfl, rfl, rfl, _, rfl⟩

/-- Exactly one vote of the sender is counted; it approves the digest, is authentic and
is bound to the request of the round. -/
def ApprovedOnce (r : DecisionRound R) (digest orchestratorId : String) : Prop :=
  ∃ v, r.votes.filter (fun e => e.1 = orchestratorId) = [(orchestratorId, v)] ∧ v.orchestratorId = orchestratorId ∧
    v.vote = .approve ∧ v.selectedProposalDigest = digest ∧ CountableVote keys r.request v

/-- An undecided round with one counted vote, which approves. -/
def LoneApproval (r : DecisionRound R) : Prop :=
  r.quorumDigest = none ∧ ∃ e, r.votes = [e] ∧ e.2.vote = .approve

/-- What a decision says of its round. -/
structure DecisionSound (r : DecisionRound R) (d : OrchestrationDecisionV1) : Prop where
  counted : d.voteSummaries = r.votes.map voteSummary
  decided : d.outcome = .decided → ∃ digest p, d.selectedProposalDigest = some digest ∧
    d.selectedRouteId = some p.proposedRouteId ∧ (p.orchestratorId, p) ∈ r.proposals ∧
    p.proposalDigest = digest ∧ Countable keys r.request p ∧
    ∃ i ∈ orchestratorIds, ∃ j ∈ orchestratorIds, i ≠ j ∧
      ApprovedOnce keys r digest i ∧ ApprovedOnce keys r digest j
  voters : (r.votes.map Prod.fst).Nodup
  partition : ¬ LoneApproval r →
    (d.supportingOrchestrators ++ d.disagreeingOrchestrators).Perm (r.votes.map Prod.fst)
  lone : LoneApproval r → d.supportingOrchestrators = [] ∧ d.disagreeingOrchestrators = []

theorem filter_sender {votes : List (String × Vote R)} (hd : (votes.map Prod.fst).Nodup) {e : String × Vote R}
    (he : e ∈ votes) : votes.filter (fun x => x.1 = e.1) = [e] := by
  induction votes with
  | nil => cases he
  | cons x votes ih =>
    rw [List.map_cons, List.nodup_cons] at hd
    rcases List.mem_cons.mp he with rfl | he
    · have hrest : votes.filter (fun x => x.1 = e.1) = [] := by
        rw [List.filter_eq_nil_iff]
        intro y hy hsame
        exact hd.1 (List.mem_map.mpr ⟨y, hy, by simpa using hsame⟩)
      simp [hrest]
    · have hne : x.1 ≠ e.1 := fun hsame => hd.1 (List.mem_map.mpr ⟨e, he, hsame.symm⟩)
      simp [hne, ih hd.2 he]

/-- A quorum is two senders with one counted approval each. -/
theorem Sound.two_approvals {r : DecisionRound R} (h : Sound keys r) {digest : String}
    (hq : HasQuorum r.votes digest) : ∃ i ∈ orchestratorIds, ∃ j ∈ orchestratorIds, i ≠ j ∧
      ApprovedOnce keys r digest i ∧ ApprovedOnce keys r digest j := by
  have hsenders : ((approvers r.votes digest).map Prod.fst).Nodup :=
    h.voters.distinct.sublist (List.filter_sublist.map Prod.fst)
  have honce : ∀ e ∈ approvers r.votes digest, ApprovedOnce keys r digest e.1 := by
    intro e he
    obtain ⟨hvote, happrove, hdigest⟩ := (mem_approvers).mp he
    obtain ⟨hid, hcount⟩ := h.votes e hvote
    exact ⟨e.2, filter_sender h.voters.distinct hvote, hid.symm, happrove, hdigest, hcount⟩
  unfold HasQuorum requiredQuorum at hq
  match hlist : approvers r.votes digest, hq with
  | a :: b :: rest, _ =>
    rw [hlist] at hsenders honce
    have hne : a.1 ≠ b.1 := by
      intro he
      rw [List.map_cons, List.map_cons, List.nodup_cons, he] at hsenders
      exact hsenders.1 List.mem_cons_self
    have hmem : ∀ e ∈ a :: b :: rest, e.1 ∈ orchestratorIds := by
      intro e he
      rw [← hlist] at he
      exact h.voters.known e ((mem_approvers).mp he).1
    exact ⟨a.1, hmem a (by simp), b.1, hmem b (by simp), hne, honce a (by simp), honce b (by simp)⟩

theorem eq_singleton_of_mem {α : Type} {l : List α} {a : α} (hl : l.length ≤ 1) (ha : a ∈ l) : l = [a] := by
  match l, hl with
  | [b], _ => rw [List.mem_singleton.mp ha]

/-- Unless a single approval leaves the round undecided, a counted vote disagrees just
when it does not support. -/
theorem Sound.split {r : DecisionRound R} (h : Sound keys r) (hlone : ¬ LoneApproval r) :
    (supporters r ++ disagreements r).Perm (r.votes.map Prod.fst) := by
  have hopposite : r.votes.filter (fun e => e.2.vote ≠ .approve ||
      (r.quorumDigest ≠ none && some e.2.selectedProposalDigest ≠ r.quorumDigest) ||
      (r.quorumDigest = none && 1 < r.votes.length)) =
      r.votes.filter (fun e => !(truthy r.quorumDigest && e.2.vote = .approve &&
        some e.2.selectedProposalDigest = r.quorumDigest)) := by
    refine List.filter_congr fun e he => ?_
    cases hd : r.quorumDigest with
    | some digest =>
      have htruthy := (h.kept_proposal keys hd).1
      rw [hd] at htruthy
      simp [htruthy]
    | none =>
      have hmany : e.2.vote ≠ .approve ∨ 1 < r.votes.length := by
        by_contra hnot
        rw [not_or, not_not, not_lt] at hnot
        exact hlone ⟨hd, e, eq_singleton_of_mem hnot.2 he, hnot.1⟩
      have hfalse : truthy none = false := rfl
      simp only [hfalse, Bool.false_and, Bool.not_false]
      rcases hmany with hv | hl
      · simp [hv]
      · simp [hl]
  unfold supporters disagreements
  rw [hopposite]
  have hsplit := List.filter_append_perm (fun e : String × Vote R => truthy r.quorumDigest && e.2.vote = .approve &&
    some e.2.selectedProposalDigest = r.quorumDigest) r.votes
  refine ((Sorting.sortBy_perm _ _).append (Sorting.sortBy_perm _ _)).trans ?_
  rw [← List.map_append]
  exact hsplit.map Prod.fst

theorem Sound.decisionSound {r : DecisionRound R} (h : Sound keys r) {d : OrchestrationDecisionV1}
    (hd : (buildDecision r).2 = some d) : DecisionSound keys r d := by
  obtain ⟨d', hd', hcounted, hsupport, hdisagree, hselected, reason, hout⟩ := h.built keys
  have hsame : d' = d := Option.some.inj (hd'.symm.trans hd)
  subst hsame
  refine ⟨hcounted, ?_, h.voters.distinct, ?_, ?_⟩
  · intro hdecided
    rcases h.outcome keys with ⟨digest, e, hkept, he, hdigest, -, hout'⟩ | ⟨-, outcome, reason', hne, hout'⟩
    · rw [hout', Option.some.injEq, Prod.mk.injEq, Prod.mk.injEq] at hout
      obtain ⟨hid, hcount⟩ := h.proposals e he
      have hroute : d'.selectedRouteId = some e.2.proposedRouteId := hout.2.2.symm
      refine ⟨digest, e.2, hselected.trans hkept, hroute, ?_, hdigest, hcount,
        h.two_approvals keys ((h.kept digest).mp hkept)⟩
      rw [← hid]
      exact he
    · rw [hout', Option.some.injEq, Prod.mk.injEq, hdecided] at hout
      exact absurd hout.1 hne
  · intro hlone
    rw [hsupport, hdisagree]
    exact h.split keys hlone
  · rintro ⟨hnone, e, hvotes, happrove⟩
    rw [hsupport, hdisagree]
    unfold supporters disagreements
    simp [hnone, hvotes, happrove, truthy, sorted, Sorting.sortBy]

/-- Whatever calls a round takes, its decision is sound, and no call changes a kept
digest or, once the round is terminal, what it counts. -/
theorem decision_sound (request : Request R) (cache : BoundedReplayCache) (calls : List (RoundCall R)) :
    let last := (run keys ⟨.start request, cache⟩ calls).round
    last.request = request ∧ (∃ d, (buildDecision last).2 = some d ∧ DecisionSound keys last d) ∧
      ∀ before after, calls = before ++ after →
        Frame (run keys ⟨.start request, cache⟩ before).round last := by
  have hsound := (sound_start keys request).run keys (s := ⟨.start request, cache⟩) calls
  refine ⟨(frame_run keys ⟨.start request, cache⟩ calls).request, ?_, ?_⟩
  · obtain ⟨d, hd, -⟩ := hsound.built keys
    exact ⟨d, hd, hsound.decisionSound keys hd⟩
  · rintro before after rfl
    rw [run_append]
    exact frame_run keys _ after

end OrchestrationDecision
