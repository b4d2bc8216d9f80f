import AgenticSoc.OrchestrationReplica
import AgenticSoc.WorkflowService

/-!
# Dispatch requests

Which dispatches make a valid request: those of a window at or after the start of the
replay whose replay id makes a bounded identifier. The agents on offer do not matter.
-/
namespace WorkflowRequests

open Procedure WorkflowReadiness DeviceAbm WorkflowService OrchestrationMessages OrchestrationReplica OrchestrationFirewall JsonSize PythonJson
open BlackboardRecord (runChecks runChecks_ok)

section Requests

variable {P : Type} {R : Runtime P} {ρ : Type}

def Valid (request : OrchestrationRequestV1 R.floats) : Prop := runChecks (requestChecks R request) = .ok ()

/-- The text of an identifier up to its random digits. -/
def identityStem (call : Call ρ) : String := call.replayId ++ "-" ++ toString call.windowId ++ "-"

/-- The window and the replay can be named in a request. -/
structure Addressable (call : Call ρ) (logicalTimestamp : String) : Prop where
  window : 0 ≤ call.windowId
  identity : matchesId (identityStem call ++ "000000") = true
  timestamp : logicalTimestamp.length ≤ 128

theorem matchesId_iff {s : String} : matchesId s = true ↔
    ∃ c rest, s.toList = c :: rest ∧ c.isAlphanum = true ∧ rest.all isIdChar = true ∧ rest.length ≤ 127 := by
  unfold matchesId
  cases s.toList with
  | nil => simp
  | cons c rest => simp [and_assoc]

theorem fits_of_matchesId {s : String} (h : matchesId s = true) : fits 128 s = true := by
  obtain ⟨c, rest, hs, -, -, hlength⟩ := (matchesId_iff).mp h
  have hsize : s.length = rest.length + 1 := by rw [← String.length_toList, hs, List.length_cons]
  simp only [fits, Bool.and_eq_true, decide_eq_true_eq]
  omega

/-- One set of random digits does as well as another. -/
theorem matchesId_stem (call : Call ρ) (h h' : Hex6) (hid : matchesId (identityStem call ++ h.text) = true) :
    matchesId (identityStem call ++ h'.text) = true := by
  obtain ⟨c, rest, hs, hfirst, hrest, hlength⟩ := (matchesId_iff).mp hid
  have hstem : (identityStem call).toList ≠ [] := by simp [identityStem]
  obtain ⟨d, stem, hd⟩ := List.exists_cons_of_ne_nil hstem
  rw [String.toList_append, hd, List.cons_append] at hs
  injection hs with hc hrest'
  subst hc
  rw [← hrest', List.all_append, Bool.and_eq_true] at hrest
  have hsix : h.text.toList.length = h'.text.toList.length := by
    rw [String.length_toList, String.length_toList, h.six, h'.six]
  refine (matchesId_iff).mpr ⟨d, stem ++ h'.text.toList, by rw [String.toList_append, hd, List.cons_append], hfirst, ?_, ?_⟩
  · rw [List.all_append, Bool.and_eq_true]
    exact ⟨hrest.1, List.all_eq_true.mpr h'.digits⟩
  · rw [← hrest'] at hlength
    rw [List.length_append] at hlength ⊢
    omega

def zeros : Hex6 := ⟨"000000", rfl, List.all_eq_true.mp rfl⟩

/-- A window id that fits an identifier can be printed. -/
theorem printable_of_addressable {call : Call ρ} {ts : String} (h : Addressable call ts) :
    printable call.windowId = true := by
  obtain ⟨n, hn⟩ := Int.eq_ofNat_of_zero_le h.window
  have hfits := fits_of_matchesId h.identity
  simp only [fits, Bool.and_eq_true, decide_eq_true_eq] at hfits
  have hlength : (toString call.windowId).length ≤ 128 := by
    have hsum : (identityStem call ++ "000000").length = call.replayId.length + "-".length +
        (toString call.windowId).length + "-".length + "000000".length := by
      simp only [identityStem, String.length_append]
    omega
  have hdigits : (toString call.windowId).length = (Nat.toDigits 10 n).length := by
    rw [hn]
    change (Nat.repr n).length = _
    rw [Nat.repr, String.length_ofList]
  simp only [printable, decide_eq_true_eq, hn, Int.natAbs_natCast]
  rw [← hdigits]
  exact hlength.trans (by decide)

theorem candidate_ok (a : AgentId) : ∀ c ∈ candidateChecks ⟨agentToRoute a, 0⟩, c.1 = true := by
  cases a <;> decide

theorem route_length (a : AgentId) : (agentToRoute a).length ≤ 128 := by
  cases a <;> decide

/-- The routes of a dispatch: as many as there are agents at most, and no two alike. -/
theorem routes_ok {ready : List AgentId} (hnodup : ready.Nodup) :
    ((sortedByName ready).map agentToRoute).Nodup ∧ (sortedByName ready).length ≤ 5 := by
  have hperm := Sorting.sortBy_perm AgentId.value ready
  have hsorted : (sortedByName ready).Nodup := hperm.nodup_iff.mpr hnodup
  refine ⟨hsorted.map fun a b h => agentToRoute_injective h, ?_⟩
  exact (List.subperm_of_subset hsorted fun a _ => mem_agentIds a).length_le

theorem plain_candidate (a : AgentId) :
    Passes R.lowerCase 2 (CandidateRouteV1.dump (F := P) ⟨agentToRoute a, 0⟩) ∧
      Fits R.floats 6100 (CandidateRouteV1.dump ⟨agentToRoute a, 0⟩) := by
  have hparts : List.Forall₂ (fun (e : String × PyValue P) n => Plain R n e.2)
      [("schema_version", .str "orchestration_candidate_route_v1"), ("route_id", .str (agentToRoute a)), ("priority", .int 0)]
      [770, 770, 4301] :=
    .cons (plain_short (by decide)) (.cons (plain_short (route_length a)) (.cons (plain_int (by decide)) .nil))
  have hnames : [("schema_version", PyValue.str (F := P) "orchestration_candidate_route_v1"),
      ("route_id", .str (agentToRoute a)), ("priority", .int 0)].map Prod.fst =
      ["schema_version", "route_id", "priority"] := rfl
  refine ⟨passes_dictOf hnames (by decide) (by decide) fun e he => ?_,
    fits_dictOf (hparts.imp fun _ _ hp => hp.fits) hnames (by decide)⟩
  simp only [List.mem_cons, List.not_mem_nil, or_false] at he
  rcases he with rfl | rfl | rfl
  · exact passes_str _ (by decide) _
  · exact passes_str _ (by decide) _
  · exact passes_int _ (by decide) _

theorem plain_candidates {ready : List AgentId} (hnodup : ready.Nodup) :
    Plain R 30507 (.list none (((sortedByName ready).map fun a => (⟨agentToRoute a, 0⟩ : CandidateRouteV1)).map
      CandidateRouteV1.dump)) := by
  have hlength := (routes_ok hnodup).2
  refine ⟨.list (by decide) ?_ fun v hv => ?_, ?_⟩
  · rw [List.length_map, List.length_map]
    exact hlength.trans (by decide)
  · obtain ⟨c, hc, rfl⟩ := List.mem_map.mp hv
    obtain ⟨a, -, rfl⟩ := List.mem_map.mp hc
    exact (plain_candidate a).1
  · have hitems : ∀ v ∈ ((sortedByName ready).map fun a => (⟨agentToRoute a, 0⟩ : CandidateRouteV1)).map
        CandidateRouteV1.dump, Fits R.floats 6100 v := by
      intro v hv
      obtain ⟨c, hc, rfl⟩ := List.mem_map.mp hv
      obtain ⟨a, -, rfl⟩ := List.mem_map.mp hc
      exact (plain_candidate a).2
    refine (fits_list R.floats hitems).mono _ ?_
    rw [List.length_map, List.length_map]
    omega

theorem plain_dispatchProvenance {replayId : String} (h : replayId.length ≤ 128) :
    Plain R 1000 (rebuilt (dispatchProvenance R.floats replayId).value) := by
  have hparts : List.Forall₂ (fun (e : String × PyValue P) n => Plain R n e.2)
      [("replay_id", .str replayId), ("workflow_dispatch", .bool true)] [770, 5] :=
    .cons (plain_short h) (.cons ⟨.scalar (by decide) nofun nofun, fits_bool _ _⟩ .nil)
  have hnames : [("replay_id", PyValue.str (F := P) replayId), ("workflow_dispatch", .bool true)].map Prod.fst =
      ["replay_id", "workflow_dispatch"] := rfl
  refine ⟨passes_dictOf hnames (by decide) (by decide) fun e he => ?_,
    fits_dictOf (hparts.imp fun _ _ hp => hp.fits) hnames (by decide)⟩
  simp only [List.mem_cons, List.not_mem_nil, or_false] at he
  rcases he with rfl | rfl
  · exact passes_str _ (by decide) _
  · exact .scalar (by decide) nofun nofun

def requestKeys : List String :=
  ["schema_version", "request_id", "request_version", "round_id", "decision_kind", "candidate_routes",
    "logical_timestamp", "window_id", "scope_id", "source_component", "provenance"]

/-- The members of the dump of a dispatch. -/
def dispatchFields (R : Runtime P) (call : Call ρ) (ts : String) (ready : List AgentId) (requestHex roundHex : String) :
    List (String × PyValue P) :=
  [("schema_version", .str "orchestration_request_v1"), ("request_id", .str (identityStem call ++ requestHex)),
    ("request_version", .int 1), ("round_id", .str (identityStem call ++ roundHex)),
    ("decision_kind", .str "WORKFLOW_DISPATCH"),
    ("candidate_routes", .list none (((sortedByName ready).map fun a => (⟨agentToRoute a, 0⟩ : CandidateRouteV1)).map
      CandidateRouteV1.dump)),
    ("logical_timestamp", .str ts), ("window_id", .int call.windowId), ("scope_id", .none),
    ("source_component", .str "agentic_workflow.workflow_service"),
    ("provenance", rebuilt (dispatchProvenance R.floats call.replayId).value)]

theorem requestModelDump_dispatch (call : Call ρ) (ts : String) (ready : List AgentId) (requestHex roundHex : String) :
    requestModelDump R (dispatchRequest call ts ready requestHex roundHex) =
      dictOf (dispatchFields R call ts ready requestHex roundHex) := by
  unfold requestModelDump requestDump dispatchRequest dispatchFields identityStem
  rfl

/-- The dump of a dispatch of an addressable window passes the last validators. -/
theorem dispatch_content {call : Call ρ} {ts : String} (h : Addressable call ts) {ready : List AgentId}
    (hnodup : ready.Nodup) (requestHex roundHex : Hex6) (className what : String) :
    ∀ c ∈ contentChecks R className what (dictOf (dispatchFields R call ts ready requestHex.text roundHex.text)),
      c.1 = true := by
  have hid : ∀ hex : Hex6, (identityStem call ++ hex.text).length ≤ 128 := fun hex =>
    length_of_fits (fits_of_matchesId (matchesId_stem call zeros hex h.identity))
  have hreplay : call.replayId.length ≤ 128 := by
    have hzeros := hid zeros
    simp only [identityStem, String.length_append] at hzeros
    omega
  have hparts : List.Forall₂ (fun (e : String × PyValue P) n => Plain R n e.2)
      (dispatchFields R call ts ready requestHex.text roundHex.text)
      [770, 770, 4301, 770, 770, 30507, 770, 4301, 4, 770, 1000] :=
    .cons (plain_short (by decide)) (.cons (plain_short (hid requestHex)) (.cons (plain_int (by decide))
      (.cons (plain_short (hid roundHex)) (.cons (plain_short (by decide)) (.cons (plain_candidates hnodup)
      (.cons (plain_short h.timestamp) (.cons (plain_int (printable_of_addressable h)) (.cons plain_none
      (.cons (plain_short (by decide)) (.cons (plain_dispatchProvenance hreplay) .nil))))))))))
  exact contentChecks_ok hparts (show _ = requestKeys from rfl) (by decide) (by decide) className what

/-- The requests of a window are valid exactly when it is addressable. -/
theorem valid_dispatch (call : Call ρ) (ts : String) {ready : List AgentId} (hready : ready ≠ []) (hnodup : ready.Nodup)
    (requestHex roundHex : Hex6) :
    Valid (dispatchRequest (R := R) call ts ready requestHex.text roundHex.text) ↔ Addressable call ts := by
  rw [Valid, runChecks_ok]
  unfold requestChecks
  rw [requestModelDump_dispatch]
  constructor
  · intro h
    refine ⟨?_, ?_, ?_⟩
    · have hwindow := h (decide (0 ≤ call.windowId), "window_id") (by simp [dispatchRequest])
      simpa using hwindow
    · have hids := h (matchesId (identityStem call ++ requestHex.text) && matchesId (identityStem call ++ roundHex.text) &&
        matchesId "WORKFLOW_DISPATCH", "request identifiers must be bounded opaque IDs") (by simp [dispatchRequest, identityStem])
      simp only [Bool.and_eq_true] at hids
      exact matchesId_stem call requestHex zeros hids.1.1
    · have htime := h (decide (ts.length ≤ 128), "logical_timestamp") (by simp [dispatchRequest, fitsOptional])
      simpa using htime
  · intro h
    have hid : ∀ hex : Hex6, matchesId (identityStem call ++ hex.text) = true := fun hex =>
      matchesId_stem call zeros hex h.identity
    have hcontent := dispatch_content (R := R) h hnodup requestHex roundHex "OrchestrationRequestV1" "orchestration request"
    obtain ⟨hroutes, hlength⟩ := routes_ok hnodup
    have hsome : 1 ≤ (sortedByName ready).length := by
      rw [sortedByName, (Sorting.sortBy_perm _ _).length_eq]
      exact List.length_pos_of_ne_nil hready
    intro c hc
    simp only [List.mem_append, List.mem_cons, List.not_mem_nil, or_false, or_assoc] at hc
    rcases hc with rfl | rfl | rfl | rfl | rfl | hc | rfl | rfl | rfl | rfl | rfl | rfl | hc
    · exact fits_of_matchesId (hid requestHex)
    · rfl
    · exact fits_of_matchesId (hid roundHex)
    · simp only [dispatchRequest]
      decide
    · simp [dispatchRequest]
      omega
    · obtain ⟨r, hr, hc⟩ := List.mem_flatMap.mp hc
      obtain ⟨a, -, rfl⟩ := List.mem_map.mp hr
      exact candidate_ok a c hc
    · simpa [dispatchRequest, fitsOptional] using h.timestamp
    · simpa [dispatchRequest] using h.window
    · rfl
    · simp only [dispatchRequest]
      decide
    · simpa [dispatchRequest, Function.comp_def] using hroutes
    · have hkind : matchesId "WORKFLOW_DISPATCH" = true := by decide
      change (matchesId (identityStem call ++ requestHex.text) && matchesId (identityStem call ++ roundHex.text) &&
        matchesId "WORKFLOW_DISPATCH") = true
      rw [hid, hid, hkind]
      rfl
    · exact hcontent c (by simpa [contentChecks] using hc)

/-- A dispatch without the checks of its request. -/
def dispatchUnchecked {F σ δ π : Type} (E : Environment R F σ δ π ρ) (call : Call ρ) (ts : String)
    (ready : List AgentId) : Work R F σ δ π (Option Answer) := do
  if ready.isEmpty then return none
  let requestHex ← fresh E.hex6
  let roundHex ← fresh E.hex6
  let request := dispatchRequest (R := R) call ts ready requestHex.text roundHex.text
  noteHappening (.requested request)
  if !E.orchestrated then return none
  let requestPublished ← publish E call (.orchestrationRequestReceived request) none request.logicalTimestamp
  let answer ← attempt (do
      let answer ← ask (E.adjudicate request)
      return some answer) fun e => do
    if requestPublished then
      let _ ← publish E call (.adjudicationError request.requestId request.roundId e) none request.logicalTimestamp
    return none
  match answer with
  | none => return none
  | some answer =>
    if requestPublished then publishOrchestrationTrace E call request answer
    return some answer

/-- In an addressable window the checks pass for whoever is ready. -/
theorem dispatch_ready {F σ δ π : Type} (E : Environment R F σ δ π ρ) {call : Call ρ} {ts : String}
    (h : Addressable call ts) (completed : List AgentId) (deviceRisk riskRecommendation : Bool) :
    dispatchViaOrchestration E call ts (readyAgents completed deviceRisk riskRecommendation) =
      dispatchUnchecked E call ts (readyAgents completed deviceRisk riskRecommendation) := by
  have hnodup := ready_nodup completed deviceRisk riskRecommendation
  generalize readyAgents completed deviceRisk riskRecommendation = ready at hnodup ⊢
  unfold dispatchViaOrchestration dispatchUnchecked
  by_cases hempty : ready.isEmpty = true
  · simp only [hempty, if_true]
  · have hready : ready ≠ [] := fun h => hempty (by rw [h]; rfl)
    simp only [if_neg hempty]
    refine bind_congr fun requestHex => bind_congr fun roundHex => ?_
    have hvalid := (valid_dispatch (R := R) call ts hready hnodup requestHex roundHex).mpr h
    rw [Valid] at hvalid
    simp only [hvalid] <;> rfl

/-- A round without the checks of its request. -/
def roundUnchecked {F σ δ π : Type} [RiskNumber F] (E : Environment R F σ δ π ρ) (call : Call ρ) (ts : String) :
    Work R F σ δ π Bool := do
  let frame ← read World.frame
  let ready := readyAgents frame.completed frame.deviceRiskAvailable frame.riskRecAvailable
  if ready.isEmpty then return false
  let answer ← dispatchUnchecked E call ts ready
  noteHappening (.answered ready answer)
  settleAnswer E call ts ready answer

theorem round_unchecked {F σ δ π : Type} [RiskNumber F] (E : Environment R F σ δ π ρ) {call : Call ρ} {ts : String}
    (h : Addressable call ts) : dispatchRound E call ts = roundUnchecked E call ts := by
  unfold dispatchRound roundUnchecked
  simp only [dispatch_ready E h]

/-- Whether a round returned that the loop goes on, or ends. -/
def saidOf : Except String Bool → Option Bool
  | .ok b => some b
  | .error _ => none

theorem round_unchecked_ends {F σ δ π : Type} [RiskNumber F] {E : Environment R F σ δ π ρ} {call : Call ρ} {ts : String}
    (haddress : Addressable call ts) {s : World R F σ δ π} {b : Bool}
    (h : saidOf (roundUnchecked E call ts s).1 = some b) :
    dispatchRound E call ts s = (.ok b, (roundUnchecked E call ts s).2) := by
  rw [round_unchecked _ haddress]
  generalize roundUnchecked E call ts s = out at h ⊢
  rcases out with ⟨e | b', s'⟩
  · cases h
  · cases h
    rfl

/-- A loop goes on behind a round that says so. -/
theorem dispatchLoop_goesOn {F σ δ π : Type} [RiskNumber F] {E : Environment R F σ δ π ρ} {call : Call ρ} {ts : String}
    (n : Nat) {s s' : World R F σ δ π} (h : dispatchRound E call ts s = (.ok true, s')) :
    dispatchLoop E call ts (n + 1) s = dispatchLoop E call ts n s' := by
  rw [dispatchLoop, run_bind h]
  rfl

theorem dispatchLoop_stops {F σ δ π : Type} [RiskNumber F] {E : Environment R F σ δ π ρ} {call : Call ρ} {ts : String}
    (n : Nat) {s s' : World R F σ δ π} (h : dispatchRound E call ts s = (.ok false, s')) :
    dispatchLoop E call ts (n + 1) s = (.ok (), s') := by
  rw [dispatchLoop, run_bind h]
  rfl

end Requests

end WorkflowRequests
