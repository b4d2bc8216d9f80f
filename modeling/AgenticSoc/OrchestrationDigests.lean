import AgenticSoc.OrchestrationOrder
import AgenticSoc.PythonEquality

/-!
# The digests of requests

A digest stands for a request up to the order of its routes, and for its provenance as a
JSON value: Python holds one and true equal, their texts differ. The deterministic policy
does not see the order of the routes.
-/
namespace OrchestrationDigests

open OrchestrationMessages OrchestrationReplica OrchestrationOrder PythonJson PythonEquality Sorting

section Dictionaries

variable {F : Type}

theorem sameJson_str {s t : String} : SameJson (.str s : PyValue F) (.str t) ↔ s = t := by
  rw [sameJson_leaf rfl rfl, PyKey.str.injEq]

theorem sameJson_int {m n : Int} : SameJson (.int m : PyValue F) (.int n) ↔ m = n := by
  rw [sameJson_leaf rfl rfl, PyKey.int.injEq]

theorem sameJson_optionalText {s t : Option String} :
    SameJson (optionalText s : PyValue F) (optionalText t) ↔ s = t := by
  cases s <;> cases t <;> exact (sameJson_leaf rfl rfl).trans (by simp)

theorem sameJson_optionalInt {m n : Option Int} :
    SameJson (optionalInt m : PyValue F) (optionalInt n) ↔ m = n := by
  cases m <;> cases n <;> exact (sameJson_leaf rfl rfl).trans (by simp)

/-- With one list of keys, each entry has its like at its own place. -/
theorem likes_at_place {fields fields' : List (String × PyValue F)}
    (hnames : List.Forall₂ (fun e d => e.1 = d.1) fields fields') (hnodup : (fields'.map Prod.fst).Nodup) :
    (∀ e ∈ fields, ∃ d ∈ fields', e.1 = d.1 ∧ SameJson e.2 d.2) ↔
      List.Forall₂ (fun e d => SameJson e.2 d.2) fields fields' := by
  induction hnames with
  | nil => simp
  | @cons e d es ds hname hnames ih =>
    rw [List.map_cons, List.nodup_cons] at hnodup
    rw [List.forall_mem_cons, List.forall₂_cons, ← ih hnodup.2]
    refine and_congr ⟨?_, fun h => ⟨d, List.mem_cons_self, hname, h⟩⟩ (forall₂_congr fun e' he' => ⟨?_, ?_⟩)
    · rintro ⟨d', hd', hkey, hsame⟩
      rcases List.mem_cons.mp hd' with rfl | hd'
      · exact hsame
      · refine absurd (List.mem_map_of_mem (f := Prod.fst) hd') ?_
        rw [← hkey, hname]
        exact hnodup.1
    · rintro ⟨d', hd', hkey, hsame⟩
      rcases List.mem_cons.mp hd' with rfl | hd'
      · obtain ⟨d', hd', hkey'⟩ := exists_right hnames he'
        refine absurd (List.mem_map_of_mem (f := Prod.fst) hd') ?_
        rw [← hkey', hkey]
        exact hnodup.1
      · exact ⟨d', hd', hkey, hsame⟩
    · rintro ⟨d', hd', hsame⟩
      exact ⟨d', List.mem_cons_of_mem _ hd', hsame⟩

theorem sameJson_dictOf {fields fields' : List (String × PyValue F)}
    (hnames : List.Forall₂ (fun e d => e.1 = d.1) fields fields') (hnodup : (fields'.map Prod.fst).Nodup) :
    SameJson (dictOf fields) (dictOf fields') ↔ List.Forall₂ (fun e d => SameJson e.2 d.2) fields fields' := by
  rw [← likes_at_place hnames hnodup, SameJson, dictOf, dictOf, alike_dict]
  constructor
  · rintro ⟨i, ds, heq, -, hall⟩ e he
    cases heq
    obtain ⟨x, hx, hkey, hsame⟩ := hall _ (List.mem_map_of_mem he)
    obtain ⟨d, hd, rfl⟩ := List.mem_map.mp hx
    exact ⟨d, hd, PyKey.str.inj hkey, hsame⟩
  · intro hall
    refine ⟨none, _, rfl, by simp [hnames.length_eq], fun x hx => ?_⟩
    obtain ⟨e, he, rfl⟩ := List.mem_map.mp hx
    obtain ⟨d, hd, hkey, hsame⟩ := hall e he
    exact ⟨_, List.mem_map_of_mem hd, congrArg PyKey.str hkey, hsame⟩

/-- A dictionary whose values can be written can be written. -/
theorem encode_dictOf_of_values {fmt : PyFloats F} {fields : List (String × PyValue F)}
    (h : ∀ e ∈ fields, ∃ j, encode fmt e.2 = some j) : ∃ j, encode fmt (dictOf fields) = some j := by
  have hms : ∃ ms, List.Forall₂ (Written fmt) (fields.map fun e => (PyKey.str e.1, e.2)) ms ∧
      ∀ m ∈ ms, m.1.isStr = true := by
    induction fields with
    | nil => exact ⟨[], .nil, nofun⟩
    | cons e fields ih =>
      obtain ⟨j, hj⟩ := h e List.mem_cons_self
      obtain ⟨ms, hms, hkeys⟩ := ih fun e he => h e (List.mem_cons_of_mem _ he)
      exact ⟨(.str e.1, _, j) :: ms, .cons ⟨rfl, rfl, rfl, hj⟩ hms, List.forall_mem_cons.mpr ⟨rfl, hkeys⟩⟩
  obtain ⟨ms, hms, hkeys⟩ := hms
  have hsortable : sortable ms = true := by
    simp only [sortable, List.all_eq_true.mpr hkeys, Bool.or_true, Bool.true_or]
  exact ⟨_, (encode_dict fmt).mpr ⟨ms, hms, hsortable, rfl⟩⟩

theorem dictOf_textKeys {fields : List (String × PyValue F)} (h : ∀ e ∈ fields, TextKeys e.2) :
    TextKeys (dictOf fields) := by
  refine .dict none _ ?_ ?_
  · intro e he
    obtain ⟨x, -, rfl⟩ := List.mem_map.mp he
    rfl
  · intro e he
    obtain ⟨x, hx, rfl⟩ := List.mem_map.mp he
    exact h x hx

end Dictionaries

section Requests

variable {F : Type} {R : Runtime F}

/-- The fields beside the routes and the provenance. -/
structure SameFields {fmt : PyFloats F} (r r' : OrchestrationRequestV1 fmt) : Prop where
  requestId : r.requestId = r'.requestId
  requestVersion : r.requestVersion = r'.requestVersion
  roundId : r.roundId = r'.roundId
  decisionKind : r.decisionKind = r'.decisionKind
  logicalTimestamp : r.logicalTimestamp = r'.logicalTimestamp
  windowId : r.windowId = r'.windowId
  scopeId : r.scopeId = r'.scopeId
  sourceComponent : r.sourceComponent = r'.sourceComponent

/-- Equal up to the order of the routes, with the equality of Python. -/
structure EqualRequests {fmt : PyFloats F} (r r' : OrchestrationRequestV1 fmt) : Prop extends SameFields r r' where
  routes : r.candidateRoutes.Perm r'.candidateRoutes
  provenance : Equal fmt r.provenance.value r'.provenance.value

/-- Equal up to the order of the routes, with one JSON value as provenance. -/
structure SameRequests {fmt : PyFloats F} (r r' : OrchestrationRequestV1 fmt) : Prop extends SameFields r r' where
  routes : r.candidateRoutes.Perm r'.candidateRoutes
  provenance : SameJson r.provenance.value r'.provenance.value

theorem SameRequests.equal {fmt : PyFloats F} {r r' : OrchestrationRequestV1 fmt} (h : SameRequests r r') :
    EqualRequests r r' := ⟨h.toSameFields, h.routes, h.provenance.equal fmt⟩

/-! ## The routes -/

def routeKey (c : CandidateRouteV1) : List Char := c.routeId.toList

theorem routes_distinct (request : Request R) : (request.candidateRoutes.map routeKey).Nodup := by
  have hids : (request.candidateRoutes.map CandidateRouteV1.routeId).Nodup := of_decide_eq_true
    (request_check request (c := (decide (request.candidateRoutes.map CandidateRouteV1.routeId).Nodup,
      "candidate route IDs must be unique")) (by simp [requestChecks]))
  have hkeys := hids.map fun _ _ h => String.toList_injective h
  rwa [List.map_map] at hkeys

/-- Sorted routes tell which routes there are. -/
theorem sorted_routes (request request' : Request R) :
    sortBy routeKey request.candidateRoutes = sortBy routeKey request'.candidateRoutes ↔
      request.candidateRoutes.Perm request'.candidateRoutes := by
  constructor
  · intro h
    have hperm := sortBy_perm routeKey request.candidateRoutes
    rw [h] at hperm
    exact hperm.symm.trans (sortBy_perm routeKey request'.candidateRoutes)
  · intro h
    exact sortBy_congr h (routes_distinct request)

theorem sameJson_route {c c' : CandidateRouteV1} : SameJson (c.dump : PyValue F) c'.dump ↔ c = c' := by
  obtain ⟨routeId, priority⟩ := c
  obtain ⟨routeId', priority'⟩ := c'
  rw [CandidateRouteV1.dump, CandidateRouteV1.dump, sameJson_dictOf (by simp) (by simp)]
  simp [sameJson_str, sameJson_int]

theorem sameJson_routes {routes routes' : List CandidateRouteV1} :
    SameJson (.list none (routes.map CandidateRouteV1.dump) : PyValue F) (.list none (routes'.map CandidateRouteV1.dump)) ↔
      routes = routes' := by
  have hlist : ∀ {i ws}, (PyValue.list (F := F) none (routes'.map CandidateRouteV1.dump) = .list i ws) ↔
      i = none ∧ ws = routes'.map CandidateRouteV1.dump := by
    intro i ws
    rw [PyValue.list.injEq, eq_comm, eq_comm (b := ws)]
  rw [SameJson, alike_list]
  simp only [hlist, and_assoc, exists_eq_left, exists_and_left]
  rw [List.forall₂_map_left_iff, List.forall₂_map_right_iff, ← List.forall₂_eq_eq_eq]
  refine ⟨fun h => h.imp fun _ _ => (sameJson_route).mp, fun h => h.imp fun _ _ => (sameJson_route).mpr⟩

/-! ## The digest -/

/-- What the digest covers. -/
def digestText (r : OrchestrationRequestV1 R.floats) : String :=
  canonicalJson R (requestDump R r (sortBy routeKey r.candidateRoutes) (R.jsonMode r.provenance.value))

theorem requestDigest_eq (r : OrchestrationRequestV1 R.floats) : requestDigest R r = R.sha256Hex (digestText r) := rfl

/-- The dump that the digest covers, with the provenance as it stands. -/
def sortedDump (r : OrchestrationRequestV1 R.floats) : PyValue F :=
  requestDump R r (sortBy routeKey r.candidateRoutes) r.provenance.value

theorem digestText_sorted {r : OrchestrationRequestV1 R.floats} (h : TextKeys r.provenance.value) :
    digestText r = canonicalJson R (sortedDump r) := by
  refine canonicalJson_congr R ?_
  simp [sortedDump, requestDump, dictOf, encode, encodeEntries, R.jsonMode_text _ h]

theorem sortedDump_same {r r' : OrchestrationRequestV1 R.floats} : SameJson (sortedDump r) (sortedDump r') ↔
    SameFields r r' ∧ sortBy routeKey r.candidateRoutes = sortBy routeKey r'.candidateRoutes ∧
      SameJson r.provenance.value r'.provenance.value := by
  rw [sortedDump, sortedDump, requestDump, requestDump, sameJson_dictOf (by simp) (by simp)]
  simp only [List.forall₂_cons, List.forall₂_nil_left_iff, sameJson_str, sameJson_int, sameJson_optionalText,
    sameJson_optionalInt, sameJson_routes, and_true, true_and]
  constructor
  · rintro ⟨h1, h2, h3, h4, hroutes, h5, h6, h7, h8, hprovenance⟩
    exact ⟨⟨h1, h2, h3, h4, h5, h6, h7, h8⟩, hroutes, hprovenance⟩
  · rintro ⟨⟨h1, h2, h3, h4, h5, h6, h7, h8⟩, hroutes, hprovenance⟩
    exact ⟨h1, h2, h3, h4, hroutes, h5, h6, h7, h8, hprovenance⟩

theorem optionalText_textKeys (s : Option String) : TextKeys (optionalText s : PyValue F) := by
  cases s with
  | none => exact .none
  | some s => exact .str s

theorem optionalInt_textKeys (n : Option Int) : TextKeys (optionalInt n : PyValue F) := by
  cases n with
  | none => exact .none
  | some n => exact .int n

theorem route_textKeys (c : CandidateRouteV1) : TextKeys (c.dump : PyValue F) := by
  refine dictOf_textKeys fun e he => ?_
  simp only [List.mem_cons, List.not_mem_nil, or_false] at he
  rcases he with rfl | rfl | rfl
  · exact .str _
  · exact .str _
  · exact .int _

theorem sortedDump_textKeys {r : OrchestrationRequestV1 R.floats} (h : TextKeys r.provenance.value) :
    TextKeys (sortedDump r) := by
  refine dictOf_textKeys fun e he => ?_
  simp only [List.mem_cons, List.not_mem_nil, or_false] at he
  rcases he with rfl | rfl | rfl | rfl | rfl | rfl | rfl | rfl | rfl | rfl | rfl
  · exact .str _
  · exact .str _
  · exact .int _
  · exact .str _
  · exact .str _
  · refine .list none _ fun v hv => ?_
    obtain ⟨c, -, rfl⟩ := List.mem_map.mp hv
    exact route_textKeys c
  · exact optionalText_textKeys _
  · exact optionalInt_textKeys _
  · exact optionalText_textKeys _
  · exact .str _
  · exact h

theorem route_distinctKeys (c : CandidateRouteV1) : DistinctKeys R.floats (c.dump : PyValue F) := by
  refine dictOf_distinct (by simp) fun e he => ?_
  simp only [List.mem_cons, List.not_mem_nil, or_false] at he
  rcases he with rfl | rfl | rfl
  · exact .str _
  · exact .str _
  · exact .int _

theorem optionalText_distinctKeys (s : Option String) : DistinctKeys R.floats (optionalText s) := by
  cases s with
  | none => exact .none
  | some s => exact .str s

theorem optionalInt_distinctKeys (n : Option Int) : DistinctKeys R.floats (optionalInt n) := by
  cases n with
  | none => exact .none
  | some n => exact .int n

theorem sortedDump_distinct (r : OrchestrationRequestV1 R.floats) : DistinctKeys R.floats (sortedDump r) := by
  refine dictOf_distinct (by simp) fun e he => ?_
  simp only [List.mem_cons, List.not_mem_nil, or_false] at he
  rcases he with rfl | rfl | rfl | rfl | rfl | rfl | rfl | rfl | rfl | rfl | rfl
  · exact .str _
  · exact .str _
  · exact .int _
  · exact .str _
  · exact .str _
  · refine .list none _ fun v hv => ?_
    obtain ⟨c, -, rfl⟩ := List.mem_map.mp hv
    exact route_distinctKeys c
  · exact optionalText_distinctKeys _
  · exact optionalInt_distinctKeys _
  · exact optionalText_distinctKeys _
  · exact .str _
  · exact r.provenance.distinct

/-- A list whose items can be written can be written in any order. -/
theorem encode_list_perm {fmt : PyFloats F} {i : Option Nat} {vs ws : List (PyValue F)} (hp : vs.Perm ws) {j : JsonText.Json F}
    (h : encode fmt (.list i vs) = some j) : ∃ k, encode fmt (.list i ws) = some k := by
  obtain ⟨js, hjs, -⟩ := Option.map_eq_some_iff.mp h
  obtain ⟨ks, hks⟩ : ∃ ks, List.Forall₂ (fun v j => encode fmt v = some j) ws ks := by
    have hall : ∀ w ∈ ws, ∃ j, encode fmt w = some j := fun w hw =>
      (exists_right ((encodeItems_some fmt).mp hjs) (hp.mem_iff.mpr hw)).imp fun _ h => h.2
    clear hp
    induction ws with
    | nil => exact ⟨[], .nil⟩
    | cons w ws ih =>
      obtain ⟨j, hj⟩ := hall w List.mem_cons_self
      obtain ⟨ks, hks⟩ := ih fun w hw => hall w (List.mem_cons_of_mem _ hw)
      exact ⟨j :: ks, .cons hj hks⟩
  exact ⟨.arr ks, by rw [encode, (encodeItems_some fmt).mpr hks, Option.map_some]⟩

/-- A valid request has a text to digest. -/
theorem sortedDump_encoded (request : Request R) :
    ∃ j, encode R.floats (sortedDump request.toOrchestrationRequestV1) = some j := by
  have hdumps := request_dumps request
  obtain ⟨routes, hroutes⟩ := encode_dictOf hdumps
    (e := ("candidate_routes", .list none (request.candidateRoutes.map CandidateRouteV1.dump))) (by simp)
  obtain ⟨provenance, hprovenance⟩ := encode_dictOf hdumps (e := ("provenance", rebuilt request.provenance.value)) (by simp)
  rw [encode_rebuilt] at hprovenance
  refine encode_dictOf_of_values fun e he => ?_
  have hkept : (e ∈ ([("candidate_routes", .list none ((sortBy routeKey request.candidateRoutes).map CandidateRouteV1.dump)),
      ("provenance", request.provenance.value)] : List (String × PyValue F))) ∨ ∃ j, encode R.floats e.2 = some j := by
    simp only [List.mem_cons, List.not_mem_nil, or_false] at he ⊢
    rcases he with rfl | rfl | rfl | rfl | rfl | h | rfl | rfl | rfl | rfl | h
    · exact .inr ⟨_, rfl⟩
    · exact .inr ⟨_, rfl⟩
    · exact .inr (encode_dictOf hdumps (by simp))
    · exact .inr ⟨_, rfl⟩
    · exact .inr ⟨_, rfl⟩
    · exact .inl (.inl h)
    · exact .inr (encode_dictOf hdumps (e := ("logical_timestamp", _)) (by simp))
    · exact .inr (encode_dictOf hdumps (e := ("window_id", _)) (by simp))
    · exact .inr (encode_dictOf hdumps (e := ("scope_id", _)) (by simp))
    · exact .inr ⟨_, rfl⟩
    · exact .inl (.inr h)
  rcases hkept with hkept | hkept
  · simp only [List.mem_cons, List.not_mem_nil, or_false] at hkept
    rcases hkept with rfl | rfl
    · exact encode_list_perm ((sortBy_perm routeKey request.candidateRoutes).symm.map _) hroutes
    · exact ⟨provenance, hprovenance⟩
  · exact hkept

/-- Requests with one text to digest are the same up to the order of their routes. -/
theorem digestText_same (request request' : Request R) (htext : TextKeys request.provenance.value)
    (htext' : TextKeys request'.provenance.value) :
    digestText request.toOrchestrationRequestV1 = digestText request'.toOrchestrationRequestV1 ↔
      SameRequests request.toOrchestrationRequestV1 request'.toOrchestrationRequestV1 := by
  obtain ⟨j, hj⟩ := sortedDump_encoded request
  obtain ⟨k, hk⟩ := sortedDump_encoded request'
  have htexts : digestText request.toOrchestrationRequestV1 = digestText request'.toOrchestrationRequestV1 ↔ j = k := by
    rw [digestText_sorted htext, digestText_sorted htext']
    constructor
    · exact encode_of_canonical (sortedDump_distinct _) (sortedDump_distinct _) hj hk
    · rintro rfl
      exact canonicalJson_congr R (hj.trans hk.symm)
  rw [htexts, encode_eq_iff (sortedDump_distinct _) (sortedDump_textKeys htext) (sortedDump_textKeys htext') hj hk,
    sortedDump_same, sorted_routes]
  exact ⟨fun ⟨hfields, hroutes, hprovenance⟩ => ⟨hfields, hroutes, hprovenance⟩,
    fun h => ⟨h.toSameFields, h.routes, h.provenance⟩⟩

/-! ## The policy -/

theorem routeRank_inj {c c' : CandidateRouteV1} (h : routeRank c = routeRank c') : c = c' := by
  obtain ⟨routeId, priority⟩ := c
  obtain ⟨routeId', priority'⟩ := c'
  have hpair := toLex.injective h
  rw [Prod.mk.injEq] at hpair
  rw [CandidateRouteV1.mk.injEq]
  exact ⟨String.toList_injective hpair.2, hpair.1⟩

/-- The least route does not depend on the order of the routes. -/
theorem minBy_perm {routes routes' : List CandidateRouteV1} (hp : routes.Perm routes') :
    minBy routeRank routes = minBy routeRank routes' := by
  by_cases hnil : routes = []
  · subst hnil
    rw [hp.nil_eq]
  · have hnil' : routes' ≠ [] := fun h => hnil (h ▸ hp).eq_nil
    obtain ⟨c, hc⟩ : ∃ c, minBy routeRank routes = some c := minBy_ne_none hnil
    obtain ⟨c', hc'⟩ : ∃ c, minBy routeRank routes' = some c := minBy_ne_none hnil'
    obtain ⟨hmem, hleast⟩ := minBy_some hc
    obtain ⟨hmem', hleast'⟩ := minBy_some hc'
    rw [hc, hc', routeRank_inj (le_antisymm (hleast c' (hp.mem_iff.mpr hmem')) (hleast' c (hp.mem_iff.mp hmem)))]

theorem propose_perm {r r' : OrchestrationRequestV1 R.floats} (h : r.candidateRoutes.Perm r'.candidateRoutes) :
    (deterministicPriorityPolicy R.floats).propose r = (deterministicPriorityPolicy R.floats).propose r' := by
  simp only [deterministicPriorityPolicy, minBy_perm h]

end Requests

/-! ## Two requests -/

def reversedContent : OrchestrationRequestV1 devRuntime.floats :=
  { devContent with candidateRoutes := [⟨"route-a", 10⟩, ⟨"route-b", 20⟩] }

theorem reversedContent_size :
    withinBytes devRuntime maxRequestCanonicalBytes (requestModelDump devRuntime reversedContent) = true := by
  unfold withinBytes
  rw [JsonSize.dumps_any_size]
  decide +kernel

def reversedRequest : Request devRuntime where
  toOrchestrationRequestV1 := reversedContent
  valid := by
    unfold requestChecks
    rw [reversedContent_size]
    decide

theorem reversed_digestText : digestText devContent = digestText reversedContent := by
  have hroutes : sortBy routeKey devContent.candidateRoutes = sortBy routeKey reversedContent.candidateRoutes :=
    (sorted_routes devRequest reversedRequest).mpr (.swap _ _ _)
  rw [digestText, digestText, hroutes]
  rfl

/-- A digest that shows the size of a text only. -/
def sizeHex (s : String) : String :=
  String.ofList (List.replicate 63 '0' ++ [JsonText.hexDigit (s.utf8ByteSize % 16)])

theorem sizeHex_digest (s : String) : isDigest (sizeHex s) = true := by
  have hdigit : ∀ n < 16, isHexDigit (JsonText.hexDigit n) = true := by decide
  have hzero : isHexDigit '0' = true := by decide
  have hlast := hdigit _ (Nat.mod_lt s.utf8ByteSize (by decide))
  simp only [isDigest, sizeHex, String.length_ofList, String.toList_ofList, List.length_append, List.length_replicate,
    List.length_singleton, List.all_append, List.all_replicate, List.all_cons, List.all_nil, hzero, hlast]
  decide

def sizeRuntime : Runtime Unit :=
  { devRuntime with sha256Hex := sizeHex, sha256Hex_digest := sizeHex_digest }

/-- A provenance with one entry. -/
def provenanceOf (value : JsonText.Json Unit) (h : JsonText.DistinctMembers value) : PyDict sizeRuntime.floats where
  toPyObject := PyObject.ofJson _ (.obj [("attempt", value)])
    (.obj _ (List.nodup_singleton _) (List.forall_mem_singleton.mpr h))
  textDict := rfl

def contentOf (value : JsonText.Json Unit) (h : JsonText.DistinctMembers value) :
    OrchestrationRequestV1 sizeRuntime.floats :=
  { devContent with provenance := provenanceOf value h }

theorem contentOf_sizes :
    withinBytes sizeRuntime maxRequestCanonicalBytes (requestModelDump sizeRuntime (contentOf (.int 1) (.int 1))) = true ∧
    withinBytes sizeRuntime maxRequestCanonicalBytes
      (requestModelDump sizeRuntime (contentOf (.bool true) (.bool true))) = true := by
  unfold withinBytes
  rw [JsonSize.dumps_any_size, JsonSize.dumps_any_size]
  decide +kernel

def oneRequest : Request sizeRuntime where
  toOrchestrationRequestV1 := contentOf (.int 1) (.int 1)
  valid := by
    unfold requestChecks
    rw [(contentOf_sizes).1]
    decide

def trueRequest : Request sizeRuntime where
  toOrchestrationRequestV1 := contentOf (.bool true) (.bool true)
  valid := by
    unfold requestChecks
    rw [(contentOf_sizes).2]
    decide

theorem true_equals_one : Equal sizeRuntime.floats oneRequest.provenance.value trueRequest.provenance.value := by
  refine (alike_dict _).mpr ⟨none, _, rfl, rfl, List.forall_mem_singleton.mpr ⟨_, List.mem_singleton.mpr rfl, rfl, ?_⟩⟩
  exact (alike_leaf _ (k := .int 1) rfl).mpr ⟨.bool true, rfl, rfl⟩

/-- The size of a canonical text, counted on its characters. -/
theorem canonicalJson_size {F : Type} (R : Runtime F) (v : PyValue F) : (canonicalJson R v).utf8ByteSize =
    ((encode R.floats v).map fun j => String.utf8Len (JsonText.write R.floats.toFloatFormat j)).getD 0 := by
  unfold canonicalJson dumps
  cases encode R.floats v with
  | none => rfl
  | some j => exact String.utf8ByteSize_ofList _

theorem sizeHex_ne {s t : String} (h : s.utf8ByteSize % 16 ≠ t.utf8ByteSize % 16) : sizeHex s ≠ sizeHex t := by
  have hinj : ∀ m < 16, ∀ n < 16, JsonText.hexDigit m = JsonText.hexDigit n → m = n := by decide
  intro hsame
  rw [sizeHex, sizeHex, String.ofList_inj, List.append_cancel_left_eq, List.singleton_inj] at hsame
  exact h (hinj _ (Nat.mod_lt _ (by decide)) _ (Nat.mod_lt _ (by decide)) hsame)

theorem oneText_size : (digestText oneRequest.toOrchestrationRequestV1).utf8ByteSize = 450 := by
  unfold digestText
  rw [canonicalJson_size]
  decide +kernel

theorem trueText_size : (digestText trueRequest.toOrchestrationRequestV1).utf8ByteSize = 453 := by
  unfold digestText
  rw [canonicalJson_size]
  decide +kernel

end OrchestrationDigests
