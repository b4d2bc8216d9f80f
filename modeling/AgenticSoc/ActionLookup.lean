import AgenticSoc.BlackboardListings
import AgenticSoc.WorkflowGateway

/-!
# Looking up a decision

Committed decisions stand on the blackboard under their replay, window and entity, and the
last ones of each replay in a buffer. A lookup by identity scans the buffer, then one page
of a listing that all replays share, and does not ask whose decision it finds.
-/
namespace ActionLookup

open WorkflowGateway BlackboardStorage BlackboardReplica BlackboardCoordinator BlackboardViews

/-! ## Commits -/

def recordKey (replayId : String) (windowId : Int) (entityId : String) : String :=
  "workflow/action/" ++ replayId ++ "/" ++ toString windowId ++ "/" ++ entityId

def keyOfDecision (a : EnforcementDecisionV1) : String := recordKey a.replayId a.windowId a.entityId

/-- The recent decisions of each replay, and what the blackboard has committed. -/
structure ActionState where
  recentActions : String → List EnforcementDecisionV1
  committed : List EnforcementDecisionV1

def initial : ActionState := ⟨fun _ => [], []⟩

/-- The decision whose record is the latest under a key. -/
def readLatest (committed : List EnforcementDecisionV1) (key : String) : Option EnforcementDecisionV1 :=
  committed.find? fun a => keyOfDecision a = key

inductive CommitError where
  | mismatch (field : String)
  | storedBindingMismatch
  | storedWorkflowMismatch
  | conflictingAction (existing new : ActionType)
  | notCommitted
  deriving DecidableEq

/-- One call: what it is bound to, what it commits, the identity drawn for a new decision,
whether the blackboard commits the write and whether the gateway then takes the decision. -/
structure Turn where
  workflowId : String
  replayId : String
  windowId : Int
  logicalTimestamp : String
  entityId : String
  recommendation : AccessRecommendationV1
  decisionId : String
  written : Bool
  accepted : Bool

def Turn.key (t : Turn) : String := recordKey t.replayId t.windowId t.entityId

def Turn.decision (t : Turn) : EnforcementDecisionV1 where
  decisionId := t.decisionId
  workflowId := t.workflowId
  replayId := t.replayId
  windowId := t.windowId
  logicalTimestamp := t.logicalTimestamp
  entityId := t.entityId
  action := t.recommendation.action
  controllerRecommendationId := t.recommendation.recommendationId
  policyId := t.recommendation.policyId
  policyVersion := t.recommendation.policyVersion
  evidenceRefs := t.recommendation.evidenceRefs
  reasonCodes := t.recommendation.reasonCodes
  evidenceComplete := t.recommendation.evidenceComplete
  behaviorSupported := t.recommendation.behaviorSupported

/-- The committed decision of the ledger, when it is bound to what was asked for. -/
def ledgerGet (s : ActionState) (t : Turn) : Except CommitError (Option EnforcementDecisionV1) :=
  match readLatest s.committed t.key with
  | none => .ok none
  | some a =>
    if a.replayId ≠ t.replayId ∨ a.windowId ≠ t.windowId ∨ a.entityId ≠ t.entityId then .error .storedBindingMismatch
    else if a.workflowId ≠ t.workflowId then .error .storedWorkflowMismatch
    else .ok (some a)

/-- The committer's call, with the state it leaves. -/
def commit (s : ActionState) (t : Turn) : Except CommitError EnforcementDecisionV1 × ActionState :=
  if t.recommendation.workflowId ≠ t.workflowId then (.error (.mismatch "workflow_id"), s)
  else if t.recommendation.windowId ≠ t.windowId then (.error (.mismatch "window_id"), s)
  else if t.recommendation.entityId ≠ t.entityId then (.error (.mismatch "entity_id"), s)
  else if t.recommendation.logicalTimestamp ≠ t.logicalTimestamp then (.error (.mismatch "logical_timestamp"), s)
  else match ledgerGet s t with
    | .error e => (.error e, s)
    | .ok (some a) =>
      if a.action = t.recommendation.action ∧ a.controllerRecommendationId = t.recommendation.recommendationId then
        (.ok a, s)
      else (.error (.conflictingAction a.action t.recommendation.action), s)
    | .ok none =>
      if t.written then (.ok t.decision, { s with committed := s.committed ++ [t.decision] })
      else (.error .notCommitted, s)

/-- The most that a replay's buffer keeps. -/
def recentLimit : Nat := 64

def appendBounded {α : Type} (limit : Nat) (l : List α) (a : α) : List α := (l ++ [a]).drop (l.length + 1 - limit)

def remember (s : ActionState) (a : EnforcementDecisionV1) (replayId : String) : ActionState :=
  { s with recentActions := fun r =>
      if r = replayId then appendBounded recentLimit (s.recentActions r) a else s.recentActions r }

/-- A commit of the controller's part of a window; a decision that the gateway refuses is
committed and not remembered. -/
def step (s : ActionState) (t : Turn) : ActionState :=
  match commit s t with
  | (.error _, s') => s'
  | (.ok a, s') => if t.accepted then remember s' a t.replayId else s'

def run (turns : List Turn) : ActionState := turns.foldl step initial

/-! ## The lookup -/

/-- The blackboard as a listing finds it. -/
structure Board where
  coordinator : Coordinator
  scan : ScanSettings
  status : ReplicaId → ReplicaStatus
  tables : ReplicaId → Tables

def actionKeys : String := "workflow/action/"

def Board.listing (b : Board) : RecordListing :=
  listRecords b.coordinator b.scan b.status b.tables none (some actionKeys) 200 0

def getAction (b : Board) (s : ActionState) (replayId decisionId : String) : Option EnforcementDecisionV1 :=
  match (s.recentActions replayId).find? fun a => a.decisionId = decisionId with
  | some a => some a
  | none => b.listing.items.findSome? fun item => (readLatest s.committed item.recordKey).filter fun a => a.decisionId = decisionId

/-- Of the decisions of an identity, the lookup finds the replay's own, and no others. -/
structure Exact (s : ActionState) (replayId decisionId : String) (answer : Option EnforcementDecisionV1) : Prop where
  found : ∀ a ∈ s.committed, a.replayId = replayId → a.decisionId = decisionId → answer = some a
  absent : (∀ a ∈ s.committed, a.replayId = replayId → a.decisionId ≠ decisionId) → answer = none

/-- The blackboard shows the records of the committed decisions, and of nothing else. -/
structure Readable (b : Board) (s : ActionState) : Prop where
  shown : ∀ a ∈ s.committed, ∃ id, toLex (keyOfDecision a, toLex (1, id)) ∈
    quorumHeld b.coordinator b.status b.tables (some actionKeys)
  only : ∀ k ∈ quorumHeld b.coordinator b.status b.tables (some actionKeys), ∃ a ∈ s.committed, keyOf k = keyOfDecision a

/-- The action rows that the scan sees on a quorum of the responsive replicas. -/
def Board.seen (b : Board) : Finset RowKey :=
  held b.coordinator.settings.quorumSize (responsive b.coordinator b.status)
    (scannedRows b.scan b.tables (some actionKeys) b.scan.committedScanMaxRows)

/-- A row of the key has fewer rows before it than a page has. -/
def Board.OnPage (b : Board) (key : String) : Prop :=
  ∃ k ∈ b.seen, keyOf k = key ∧ (b.seen.filter (· < k)).card < min b.scan.committedScanMaxRows 200

/-- A decision of the replay is remembered or on the page, one of another replay is not on
the page. -/
def Separated (b : Board) (s : ActionState) (replayId decisionId : String) : Prop :=
  ∀ a ∈ s.committed, a.decisionId = decisionId →
    if a.replayId = replayId then a ∈ s.recentActions replayId ∨ b.OnPage (keyOfDecision a)
    else ¬ b.OnPage (keyOfDecision a)

/-! ## The page -/

/-- The first elements of an ascending list have few elements before them. -/
theorem mem_take_iff {α : Type} [LinearOrder α] {l : List α} (h : l.Pairwise (· < ·)) (n : Nat) (a : α) :
    a ∈ l.take n ↔ a ∈ l ∧ (l.filter (· < a)).length < n := by
  induction l generalizing n with
  | nil => simp
  | cons b l ih =>
    obtain ⟨hb, hl⟩ := List.pairwise_cons.mp h
    cases n with
    | zero => simp
    | succ n =>
      rw [List.take_succ_cons, List.mem_cons, List.mem_cons, ih hl]
      by_cases hab : a = b
      · subst hab
        have hnone : (a :: l).filter (· < a) = [] := by
          simp only [List.filter_eq_nil_iff, decide_eq_true_eq, List.forall_mem_cons]
          exact ⟨lt_irrefl a, fun c hc => lt_asymm (hb c hc)⟩
        simp [hnone]
      · simp only [hab, false_or]
        refine and_congr_right fun ha => ?_
        have hfirst : (b :: l).filter (· < a) = b :: l.filter (· < a) := List.filter_cons_of_pos (decide_eq_true (hb a ha))
        rw [hfirst, List.length_cons, Nat.succ_lt_succ_iff]

theorem mem_sort_take (s : Finset RowKey) (n : Nat) (k : RowKey) :
    k ∈ (s.sort).take n ↔ k ∈ s ∧ (s.filter (· < k)).card < n := by
  have hcard : ((s.sort).filter (· < k)).length = (s.filter (· < k)).card := by
    rw [← List.toFinset_card_of_nodup ((s.sort_nodup _).filter _), List.toFinset_filter, Finset.sort_toFinset]
    simp
  rw [mem_take_iff s.sortedLT_sort.pairwise, hcard, Finset.mem_sort]

/-- The page lists the first rows that the scan sees. -/
theorem listing_keys (b : Board) :
    b.listing.items.map ViewItem.key = (b.seen.sort).take (min b.scan.committedScanMaxRows 200) := by
  have hview : (committedView b.coordinator b.scan b.status b.tables (some actionKeys)
      b.scan.committedScanMaxRows 0 none).items.map ViewItem.key = (b.seen.sort).take b.scan.committedScanMaxRows :=
    (view_keys).trans (slice_zero _ _)
  have hpage : b.listing.items = (committedView b.coordinator b.scan b.status b.tables (some actionKeys)
      b.scan.committedScanMaxRows 0 none).items.take 200 := slice_zero _ 200
  rw [hpage, List.map_take, hview, List.take_take, Nat.min_comm]

theorem onPage_iff (b : Board) (key : String) : b.OnPage key ↔ ∃ i ∈ b.listing.items, i.recordKey = key := by
  have hmem : ∀ k, (∃ i ∈ b.listing.items, i.key = k) ↔
      k ∈ b.seen ∧ (b.seen.filter (· < k)).card < min b.scan.committedScanMaxRows 200 := by
    intro k
    rw [← mem_sort_take, ← listing_keys, List.mem_map]
  constructor
  · rintro ⟨k, hk, rfl, hbefore⟩
    obtain ⟨i, hi, rfl⟩ := (hmem k).mpr ⟨hk, hbefore⟩
    exact ⟨i, hi, rfl⟩
  · rintro ⟨i, hi, rfl⟩
    obtain ⟨hk, hbefore⟩ := (hmem i.key).mp ⟨i, hi, rfl⟩
    exact ⟨i.key, hk, rfl, hbefore⟩

/-! ## What a run keeps -/

/-- Committed decisions have identities and keys of their own, and a buffer holds committed
decisions of its replay. -/
structure Sound (s : ActionState) : Prop where
  ids : (s.committed.map EnforcementDecisionV1.decisionId).Nodup
  keys : (s.committed.map keyOfDecision).Nodup
  remembered : ∀ r, ∀ a ∈ s.recentActions r, a ∈ s.committed ∧ a.replayId = r

theorem readLatest_some {committed : List EnforcementDecisionV1} {key : String} {a : EnforcementDecisionV1}
    (h : readLatest committed key = some a) : a ∈ committed ∧ keyOfDecision a = key :=
  ⟨List.mem_of_find?_eq_some h, by simpa using List.find?_some h⟩

theorem ledgerGet_some {s : ActionState} {t : Turn} {a : EnforcementDecisionV1} (h : ledgerGet s t = .ok (some a)) :
    a ∈ s.committed ∧ a.replayId = t.replayId := by
  unfold ledgerGet at h
  cases hread : readLatest s.committed t.key with
  | none =>
    rw [hread] at h
    cases h
  | some b =>
    simp only [hread] at h
    split at h
    · cases h
    · rename_i hbound
      split at h
      · cases h
      · cases h
        simp only [not_or, ne_eq, not_not] at hbound
        exact ⟨(readLatest_some hread).1, hbound.1⟩

/-- A commit fails and changes nothing, answers a committed decision of the replay, or
commits a new one where there was none. -/
theorem commit_cases (s : ActionState) (t : Turn) :
    (∃ e, commit s t = (.error e, s)) ∨
    (∃ a ∈ s.committed, a.replayId = t.replayId ∧ commit s t = (.ok a, s)) ∨
    (ledgerGet s t = .ok none ∧ commit s t = (.ok t.decision, { s with committed := s.committed ++ [t.decision] })) := by
  unfold commit
  split
  · exact .inl ⟨_, rfl⟩
  · split
    · exact .inl ⟨_, rfl⟩
    · split
      · exact .inl ⟨_, rfl⟩
      · split
        · exact .inl ⟨_, rfl⟩
        · cases hget : ledgerGet s t with
          | error e => exact .inl ⟨e, rfl⟩
          | ok stored =>
            cases stored with
            | some a =>
              obtain ⟨ha, hreplay⟩ := ledgerGet_some hget
              dsimp only
              split
              · exact .inr (.inl ⟨a, ha, hreplay, rfl⟩)
              · exact .inl ⟨_, rfl⟩
            | none =>
              dsimp only
              split
              · exact .inr (.inr ⟨rfl, rfl⟩)
              · exact .inl ⟨_, rfl⟩

theorem appendBounded_subset {α : Type} {limit : Nat} {l : List α} {a b : α} (h : b ∈ appendBounded limit l a) :
    b ∈ l ∨ b = a := by
  simpa using List.mem_of_mem_drop h

theorem Sound.remember {s : ActionState} (h : Sound s) {a : EnforcementDecisionV1} (ha : a ∈ s.committed) :
    Sound (remember s a a.replayId) := by
  refine ⟨h.ids, h.keys, fun r b hb => ?_⟩
  simp only [ActionLookup.remember] at hb
  split at hb
  · rename_i hr
    rcases appendBounded_subset hb with hb | rfl
    · exact h.remembered r b (hr ▸ hb)
    · exact ⟨ha, hr.symm⟩
  · exact h.remembered r b hb

theorem nodup_append_singleton {α β : Type} {f : α → β} {l : List α} {a : α} (h : (l.map f).Nodup) (hnew : f a ∉ l.map f) :
    ((l ++ [a]).map f).Nodup := by
  rw [List.map_append, List.map_singleton]
  exact List.nodup_append.mpr ⟨h, List.nodup_singleton _, fun x hx y hy hxy => hnew (List.mem_singleton.mp hy ▸ hxy ▸ hx)⟩

theorem ledgerGet_none {s : ActionState} {t : Turn} (h : ledgerGet s t = .ok none) : t.key ∉ s.committed.map keyOfDecision := by
  have hread : readLatest s.committed t.key = none := by
    unfold ledgerGet at h
    cases hread : readLatest s.committed t.key with
    | none => rfl
    | some a =>
      simp only [hread] at h
      split at h
      · cases h
      · split at h <;> cases h
  intro hin
  obtain ⟨a, ha, hkey⟩ := List.mem_map.mp hin
  exact absurd (decide_eq_true hkey) (List.find?_eq_none.mp hread a ha)

theorem Sound.commit {s : ActionState} (h : Sound s) {a : EnforcementDecisionV1}
    (hid : a.decisionId ∉ s.committed.map EnforcementDecisionV1.decisionId)
    (hkey : keyOfDecision a ∉ s.committed.map keyOfDecision) : Sound { s with committed := s.committed ++ [a] } :=
  ⟨nodup_append_singleton h.ids hid, nodup_append_singleton h.keys hkey,
    fun r b hb => ⟨List.mem_append_left _ (h.remembered r b hb).1, (h.remembered r b hb).2⟩⟩

/-- A step keeps the state sound and commits no identity but the one drawn. -/
theorem Sound.step {s : ActionState} (h : Sound s) {t : Turn}
    (hnew : t.decisionId ∉ s.committed.map EnforcementDecisionV1.decisionId) : Sound (step s t) ∧
      ∀ a ∈ (ActionLookup.step s t).committed, a ∈ s.committed ∨ a.decisionId = t.decisionId := by
  unfold ActionLookup.step
  rcases commit_cases s t with ⟨e, he⟩ | ⟨a, ha, hreplay, hanswer⟩ | ⟨hget, hanswer⟩
  · rw [he]
    exact ⟨h, fun a ha => .inl ha⟩
  · rw [hanswer]
    dsimp only
    split
    · rw [← hreplay]
      exact ⟨h.remember ha, fun b hb => .inl hb⟩
    · exact ⟨h, fun b hb => .inl hb⟩
  · rw [hanswer]
    have hcommitted := h.commit (a := t.decision) hnew (ledgerGet_none hget)
    have hin : ∀ a ∈ s.committed ++ [t.decision], a ∈ s.committed ∨ a.decisionId = t.decisionId := by
      intro a ha
      rcases List.mem_append.mp ha with ha | ha
      · exact .inl ha
      · exact .inr (congrArg EnforcementDecisionV1.decisionId (List.mem_singleton.mp ha))
    dsimp only
    split
    · exact ⟨hcommitted.remember (List.mem_append_right _ (List.mem_singleton.mpr rfl)), hin⟩
    · exact ⟨hcommitted, hin⟩

theorem run_append (turns : List Turn) (t : Turn) : run (turns ++ [t]) = step (run turns) t :=
  List.foldl_append

theorem run_sound (turns : List Turn) (hids : (turns.map Turn.decisionId).Nodup) : Sound (run turns) ∧
    ∀ a ∈ (run turns).committed, a.decisionId ∈ turns.map Turn.decisionId := by
  induction turns using List.reverseRecOn with
  | nil => exact ⟨⟨List.nodup_nil, List.nodup_nil, fun _ _ h => nomatch h⟩, fun _ h => nomatch h⟩
  | append_singleton turns t ih =>
    rw [List.map_append, List.nodup_append] at hids
    obtain ⟨hsound, hdrawn⟩ := ih hids.1
    have hnew : t.decisionId ∉ (run turns).committed.map EnforcementDecisionV1.decisionId := by
      intro hin
      obtain ⟨a, ha, hid⟩ := List.mem_map.mp hin
      exact hids.2.2 _ (hdrawn a ha) _ (List.mem_singleton.mpr rfl) hid
    obtain ⟨hstep, hnow⟩ := hsound.step hnew
    rw [run_append]
    refine ⟨hstep, fun a ha => ?_⟩
    rw [List.map_append, List.mem_append]
    rcases hnow a ha with hbefore | hdrawn'
    · exact .inl (hdrawn a hbefore)
    · exact .inr (List.mem_singleton.mpr hdrawn')

/-! ## What a lookup answers -/

section Lookup

variable {s : ActionState} {b : Board} {r d : String}

theorem Sound.unique (h : Sound s) {a a' : EnforcementDecisionV1} (ha : a ∈ s.committed) (ha' : a' ∈ s.committed)
    (hid : a.decisionId = a'.decisionId) : a = a' :=
  List.inj_on_of_nodup_map h.ids ha ha' hid

/-- What a lookup answers is committed under the identity. -/
theorem getAction_some (h : Sound s) {a : EnforcementDecisionV1} (ha : getAction b s r d = some a) :
    a ∈ s.committed ∧ a.decisionId = d := by
  unfold getAction at ha
  split at ha
  · rename_i a' hfind
    cases ha
    exact ⟨(h.remembered r a (List.mem_of_find?_eq_some hfind)).1, by simpa using List.find?_some hfind⟩
  · obtain ⟨item, -, hitem⟩ := List.exists_of_findSome?_eq_some ha
    obtain ⟨hread, hid⟩ := Option.filter_eq_some_iff.mp hitem
    exact ⟨(readLatest_some hread).1, of_decide_eq_true hid⟩

theorem Sound.read (h : Sound s) {a : EnforcementDecisionV1} (ha : a ∈ s.committed) :
    readLatest s.committed (keyOfDecision a) = some a := by
  cases hread : readLatest s.committed (keyOfDecision a) with
  | none => exact absurd (decide_eq_true rfl) (List.find?_eq_none.mp hread a ha)
  | some a' =>
    obtain ⟨ha', hkey⟩ := readLatest_some hread
    rw [List.inj_on_of_nodup_map h.keys ha' ha hkey]

/-- A committed decision is found when it is remembered or on the page. -/
theorem getAction_iff (h : Sound s) {a : EnforcementDecisionV1} (ha : a ∈ s.committed) :
    getAction b s r a.decisionId = some a ↔ a ∈ s.recentActions r ∨ b.OnPage (keyOfDecision a) := by
  rw [onPage_iff]
  constructor
  · intro hfound
    unfold getAction at hfound
    split at hfound
    · rename_i a' hfind
      cases hfound
      exact .inl (List.mem_of_find?_eq_some hfind)
    · obtain ⟨item, hitem, hread⟩ := List.exists_of_findSome?_eq_some hfound
      exact .inr ⟨item, hitem, (readLatest_some (Option.filter_eq_some_iff.mp hread).1).2.symm⟩
  · intro hplace
    have hsome : getAction b s r a.decisionId ≠ none := by
      intro hnone
      unfold getAction at hnone
      split at hnone
      · cases hnone
      · rename_i hfind
        rcases hplace with hrecent | ⟨item, hitem, hkey⟩
        · exact absurd (decide_eq_true rfl) (List.find?_eq_none.mp hfind a hrecent)
        · have hread := List.findSome?_eq_none_iff.mp hnone item hitem
          rw [hkey, h.read ha] at hread
          simp at hread
    obtain ⟨a', ha'⟩ := Option.ne_none_iff_exists'.mp hsome
    obtain ⟨hin, hid⟩ := getAction_some h ha'
    rw [ha', h.unique hin ha hid]

theorem Sound.exact_iff (h : Sound s) : Exact s r d (getAction b s r d) ↔ Separated b s r d := by
  constructor
  · rintro ⟨hfound, habsent⟩ a ha rfl
    split
    · rename_i hr
      exact (getAction_iff h ha).mp (hfound a ha hr rfl)
    · rename_i hr
      intro hpage
      have hsome := (getAction_iff (r := r) h ha).mpr (.inr hpage)
      rw [habsent fun a' ha' hr' hid => hr (h.unique ha ha' hid.symm ▸ hr')] at hsome
      cases hsome
  · intro hseparated
    refine ⟨fun a ha hr hid => ?_, fun hnone => ?_⟩
    · subst hid
      have hplace := hseparated a ha rfl
      rw [if_pos hr] at hplace
      exact (getAction_iff h ha).mpr hplace
    · cases hanswer : getAction b s r d with
      | none => rfl
      | some a =>
        obtain ⟨ha, rfl⟩ := getAction_some h hanswer
        have hr : a.replayId ≠ r := fun hr => hnone a ha hr rfl
        have hplace := hseparated a ha rfl
        rw [if_neg hr] at hplace
        rcases (getAction_iff h ha).mp hanswer with hrecent | hpage
        · exact absurd (h.remembered r a hrecent).2 hr
        · exact absurd hpage hplace

end Lookup

/-- After any commits a lookup is exact when the replay's own decision is remembered or on
the page and no other replay's is on the page. -/
theorem lookup_exact (turns : List Turn) (hids : (turns.map Turn.decisionId).Nodup) (b : Board) (replayId decisionId : String) :
    Exact (run turns) replayId decisionId (getAction b (run turns) replayId decisionId) ↔
      Separated b (run turns) replayId decisionId :=
  (run_sound turns hids).1.exact_iff

/-! ## A decision of another replay -/

def devTurn : Turn where
  workflowId := "replay-1-workflow"
  replayId := "replay-1"
  windowId := 1
  logicalTimestamp := "2026-01-01T00:00:00Z"
  entityId := "camera"
  recommendation := ⟨"access-1", "replay-1-workflow", "camera", 1, "2026-01-01T00:00:00Z", .monitor, "policy", "1", [],
    true, true, []⟩
  decisionId := "decision-1"
  written := true
  accepted := true

def devRow : CommittedRow :=
  { BlackboardListings.plainRow devTurn.key 1 with
    recordType := .enforcementDecisionRecord
    authorId := "action_committer"
    sourceComponent := "agentic_workflow.action_commit" }

def devBoard : Board where
  coordinator := BlackboardListings.devCoordinator
  scan := BlackboardListings.devScan
  status := BlackboardListings.healthy
  tables := fun _ => ⟨[devRow], [(devTurn.key, 1)], []⟩

theorem lookup_exact_dev :
    Exact (run [devTurn]) "replay-1" "decision-1" (getAction devBoard (run [devTurn]) "replay-1" "decision-1") ↔
      Separated devBoard (run [devTurn]) "replay-1" "decision-1" :=
  lookup_exact [devTurn] (List.nodup_singleton _) devBoard "replay-1" "decision-1"

theorem devBoard_held : quorumHeld devBoard.coordinator devBoard.status devBoard.tables (some actionKeys) = {rowKey devRow} := by
  decide

theorem devBoard_readable : Readable devBoard (run [devTurn]) := by
  have hcommitted : (run [devTurn]).committed = [devTurn.decision] := by decide
  refine ⟨fun a ha => ⟨devRow.recordId, ?_⟩, fun k hk => ⟨devTurn.decision, ?_, ?_⟩⟩
  · rw [hcommitted, List.mem_singleton] at ha
    rw [ha, devBoard_held]
    exact Finset.mem_singleton_self _
  · rw [hcommitted]
    exact List.mem_singleton_self _
  · rw [devBoard_held, Finset.mem_singleton] at hk
    rw [hk]
    rfl

/-- Another replay is answered the decision of the first. -/
theorem decision_of_another_replay : Readable devBoard (run [devTurn]) ∧
    (∀ a ∈ (run [devTurn]).committed, a.replayId ≠ "replay-2") ∧
    getAction devBoard (run [devTurn]) "replay-2" "decision-1" = some devTurn.decision ∧
    ¬ Exact (run [devTurn]) "replay-2" "decision-1" (getAction devBoard (run [devTurn]) "replay-2" "decision-1") := by
  have hanswer : getAction devBoard (run [devTurn]) "replay-2" "decision-1" = some devTurn.decision := by decide
  have hother : ∀ a ∈ (run [devTurn]).committed, a.replayId ≠ "replay-2" := by decide
  refine ⟨devBoard_readable, hother, hanswer, fun hexact => ?_⟩
  rw [hexact.absent fun a ha hr _ => hother a ha hr] at hanswer
  cases hanswer

end ActionLookup
