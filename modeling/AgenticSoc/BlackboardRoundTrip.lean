import AgenticSoc.BlackboardNextVersion
import AgenticSoc.BlackboardFirewall
import Mathlib

/-!
# Records as JSON texts

The canonical text, the parser and the content hash of a record are those of the JSON
encoder. A stored record loads again with its hash and its canonical content just when
no dictionary of its payload or its provenance has keys whose order as keys is not
their order as texts: the hash covers the text in key order, and after a reload every
key is a text.
-/
namespace BlackboardRoundTrip

open JsonText PythonJson BlackboardFirewall BlackboardRecord BlackboardStorage BlackboardReplica
open BlackboardNextVersion

/-! ## The keys of a reloaded value -/

section Keys

variable {F : Type} (fmt : PyFloats F) (lc : LowerCase)

/-- The characters of numbers and of the words for the other scalars. -/
def scalarChars : List Char := "0123456789+-.eEnultrfas".toList

theorem mem_scalarChars_of_isDigit {c : Char} (h : c.isDigit = true) : c ∈ scalarChars := by
  have hall : ∀ n < 58, 48 ≤ n → Char.ofNat n ∈ scalarChars := by decide
  have hrange : 48 ≤ c.toNat ∧ c.toNat ≤ 57 := by
    simp only [Char.isDigit, Bool.and_eq_true, decide_eq_true_eq, ge_iff_le,
      UInt32.le_iff_toNat_le] at h
    exact h
  rw [← Char.ofNat_toNat c]
  exact hall c.toNat (by omega) hrange.1

/-- A property of the members of a list, from its test on each of them. -/
theorem forall_mem_of_all {α : Type} {t : List α} {p : α → Prop} [DecidablePred p]
    (h : t.all (fun a => decide (p a)) = true) : ∀ a ∈ t, p a :=
  fun a ha => of_decide_eq_true (List.all_eq_true.mp h a ha)

theorem exists_mem_of_any {α : Type} {t : List α} {p : α → Prop} [DecidablePred p]
    (h : t.any (fun a => decide (p a)) = true) : ∃ a ∈ t, p a := by
  obtain ⟨a, ha, hp⟩ := List.any_eq_true.mp h
  exact ⟨a, ha, of_decide_eq_true hp⟩

theorem intText_chars (n : Int) : ∀ c ∈ intText n, c ∈ scalarChars := by
  obtain ⟨sign, ds, ht, hsign, hds⟩ := intText_parts n
  rw [ht]
  intro c hc
  rcases List.mem_append.mp hc with hc | hc
  · rcases hsign with rfl | rfl
    · cases hc
    · rw [List.mem_singleton.mp hc]
      decide
  · exact mem_scalarChars_of_isDigit (hds.1 c hc)

theorem floatText_chars {t : List Char} (h : IsFloatText t) : ∀ c ∈ t, c ∈ scalarChars := by
  obtain ⟨sign, ds, frac, exp, rfl, hsign, hds, hfrac, hexp, -⟩ := h
  intro c hc
  simp only [List.mem_append] at hc
  rcases hc with ((hc | hc) | hc) | hc
  · rcases hsign with rfl | rfl
    · cases hc
    · rw [List.mem_singleton.mp hc]
      decide
  · exact mem_scalarChars_of_isDigit (hds.1 c hc)
  · rcases hfrac with rfl | ⟨fs, rfl, -, hfs⟩
    · cases hc
    · rcases List.mem_cons.mp hc with rfl | hc
      · decide
      · exact mem_scalarChars_of_isDigit (hfs c hc)
  · rcases hexp with rfl | ⟨mark, s, es, rfl, hmark, hs, -, hes⟩
    · cases hc
    · rcases List.mem_cons.mp hc with rfl | hc
      · rcases hmark with rfl | rfl <;> decide
      · rcases List.mem_append.mp hc with hc | hc
        · rcases hs with rfl | rfl | rfl
          · cases hc
          · rw [List.mem_singleton.mp hc]
            decide
          · rw [List.mem_singleton.mp hc]
            decide
        · exact mem_scalarChars_of_isDigit (hes c hc)

theorem keyText_chars {k : PyKey F} (hk : k.isStr = false) (hok : keyOk fmt k = true) :
    ∀ c ∈ keyText fmt k, c ∈ scalarChars := by
  cases k with
  | none =>
    exact forall_mem_of_all (t := ['n', 'u', 'l', 'l']) (by decide)
  | bool b =>
    cases b with
    | true =>
      exact forall_mem_of_all (t := ['t', 'r', 'u', 'e']) (by decide)
    | false =>
      exact forall_mem_of_all (t := ['f', 'a', 'l', 's', 'e']) (by decide)
  | int n => exact intText_chars n
  | float x => exact floatText_chars (fmt.repr_text x hok)
  | str s => simp [PyKey.isStr] at hk

theorem splitOnP_subset {p : Char → Bool} {cs t : List Char} (h : t ∈ cs.splitOnP p) :
    ∀ c ∈ t, c ∈ cs := by
  induction cs generalizing t with
  | nil =>
    rw [List.splitOnP_nil, List.mem_singleton] at h
    subst h
    exact nofun
  | cons x xs ih =>
    rw [List.splitOnP_cons_eq_if_modifyHead] at h
    split at h
    · rcases List.mem_cons.mp h with rfl | h
      · exact nofun
      · exact fun c hc => List.mem_cons_of_mem x (ih h c hc)
    · obtain ⟨t', ts, hts⟩ := List.exists_cons_of_ne_nil (List.splitOnP_ne_nil p xs)
      rw [hts, List.modifyHead_cons] at h
      rcases List.mem_cons.mp h with rfl | h
      · intro c hc
        rcases List.mem_cons.mp hc with rfl | hc
        · exact List.mem_cons_self
        · exact List.mem_cons_of_mem x (ih (by rw [hts]; exact List.mem_cons_self) c hc)
      · exact fun c hc => List.mem_cons_of_mem x (ih (by rw [hts]; exact List.mem_cons_of_mem t' h) c hc)

/-- A text of such characters only is no flagged key. -/
theorem not_flagged_of_scalar {k : String} (h : ∀ c ∈ k.toList, c ∈ scalarChars) :
    flaggedKey lc k = false := by
  have hascii : ∀ c ∈ scalarChars, c.toNat < 128 ∧ c.toLower ∈ scalarChars := forall_mem_of_all (by decide)
  have hstrip : ∀ c ∈ (strip k).toList, c ∈ scalarChars := fun c hc => h c (strip_subset k c hc)
  have hnormal : ∀ c ∈ (normalKey lc k).toList, c ∈ scalarChars := by
    unfold normalKey
    rw [lc.lower_ascii _ fun c hc => (hascii c (hstrip c hc)).1]
    intro c hc
    obtain ⟨d, hd, rfl⟩ := List.mem_map.mp hc
    exact (hascii d (hstrip d hd)).2
  have hnames : ∀ f ∈ forbiddenGroundTruthKeys ++ blackboardExtraForbiddenKeys,
      ∃ c ∈ f.toList, c ∉ scalarChars := by
    refine fun f hf => exists_mem_of_any (forall_mem_of_all (p := fun f => f.toList.any (fun c => decide (c ∉ scalarChars)) = true)
      ?_ f hf)
    decide
  -- every forbidden name and token has a letter that such a text has not
  have hnot : ∀ t : String, (∀ c ∈ t.toList, c ∈ scalarChars) →
      t ∉ forbiddenGroundTruthKeys ++ blackboardExtraForbiddenKeys := by
    intro t ht hmem
    obtain ⟨c, hc, hno⟩ := hnames t hmem
    exact hno (ht c hc)
  have htokens : ∀ t ∈ keyTokens (normalKey lc k), t ∉ compoundForbiddenTokens := by
    intro t ht hmem
    obtain ⟨cs, hcs, rfl⟩ := List.mem_map.mp ht
    have hsub := splitOnP_subset (List.mem_filter.mp hcs).1
    refine hnot (String.ofList cs) ?_ (List.mem_append_left _ (List.mem_filter.mp hmem).1)
    rw [String.toList_ofList]
    exact fun c hc => hnormal c (hsub c hc)
  have hname := hnot _ hnormal
  rw [List.mem_append, not_or] at hname
  simp only [flaggedKey, keyHitsForbidden, keyIsExtra, Bool.or_eq_false_iff, List.any_eq_false]
  refine ⟨⟨by simpa using hname.1, ?_⟩, by simpa using hname.2⟩
  intro t ht
  simpa using htokens t ht

/-- A visible key of a reloaded value was a visible key, or is the text of a key that
was none. -/
theorem reloaded_key {v : PyValue F} {j : Json F} (h : encode fmt v = some j) {k : String}
    (hk : VisibleKey (decode j) k) : VisibleKey v k ∨ ∀ c ∈ k.toList, c ∈ scalarChars := by
  induction v generalizing j k with
  | none => cases h; cases hk
  | bool b => cases h; cases hk
  | int n =>
    rw [encode] at h
    split at h <;> cases h
    cases hk
  | float x =>
    rw [encode] at h
    split at h <;> cases h
    cases hk
  | str s => cases h; cases hk
  | list i items ih =>
    rw [encode, Option.map_eq_some_iff] at h
    obtain ⟨js, hjs, rfl⟩ := h
    rw [decode, decodeItems_eq] at hk
    cases hk with
    | item hv hk =>
      rw [← List.map_take] at hv
      obtain ⟨x, hx, rfl⟩ := List.mem_map.mp hv
      obtain ⟨u, hu, hux⟩ := exists_left (List.forall₂_take maxListItems ((encodeItems_some fmt).mp hjs)) hx
      exact (ih u (List.mem_of_mem_take hu) hux hk).imp (.item hu) id
  | dict i entries ih =>
    obtain ⟨ms, hms, -, rfl⟩ := (encode_dict fmt).mp h
    rw [decode, decodeMembers_eq, List.map_map] at hk
    have hentry : ∀ m ∈ ms, ∃ e ∈ entries, Written fmt e m := fun m hm => exists_left hms hm
    cases hk with
    | here he =>
      obtain ⟨m, hm, heq⟩ := List.mem_map.mp he
      obtain ⟨e, hin, -, hok, htext, -⟩ := hentry m (Sorting.mem_sortBy.mp hm)
      cases heq
      cases hkind : e.1.isStr with
      | true =>
        obtain ⟨s, hs⟩ := (isStr_iff).mp hkind
        refine .inl (.here (v := e.2) ?_)
        rw [htext, hs]
        simpa [keyText, ← hs] using hin
      | false =>
        refine .inr ?_
        rw [htext, String.toList_ofList]
        exact keyText_chars fmt hkind hok
    | entry he hk =>
      obtain ⟨m, hm, rfl⟩ := List.mem_map.mp he
      obtain ⟨e, hin, -, -, -, henc⟩ := hentry m (Sorting.mem_sortBy.mp hm)
      exact (ih e hin henc hk).imp (.entry hin) id

/-- A reload brings no flagged key before the walks. -/
theorem reloaded_clear {v : PyValue F} {j : Json F} (h : encode fmt v = some j)
    (hclear : Clear (flaggedKey lc) v) : Clear (flaggedKey lc) (decode j) := by
  intro k hk
  rcases reloaded_key fmt h hk with hold | hscalar
  · exact hclear k hold
  · exact not_flagged_of_scalar lc hscalar

end Keys

/-! ## The codec -/

/-- What the records use of the run-time library. -/
structure Runtime (F : Type) where
  floats : PyFloats F
  lowerCase : LowerCase
  sha256Hex : String → String
  validUtcTimestamp : String → Bool

def BlackboardRecordType.value : BlackboardRecordType → String
  | .networkFindingRecord => "NETWORK_FINDING_RECORD"
  | .behaviorFindingRecord => "BEHAVIOR_FINDING_RECORD"
  | .deviceStateRecord => "DEVICE_STATE_RECORD"
  | .deviceRiskSnapshotRecord => "DEVICE_RISK_SNAPSHOT_RECORD"
  | .deviceOnlySrepRecord => "DEVICE_ONLY_SREP_RECORD"
  | .systemRecord => "SYSTEM_RECORD"
  | .threatCorrelationRecord => "THREAT_CORRELATION_RECORD"
  | .riskRecommendationRecord => "RISK_RECOMMENDATION_RECORD"
  | .accessRecommendationRecord => "ACCESS_RECOMMENDATION_RECORD"
  | .enforcementDecisionRecord => "ENFORCEMENT_DECISION_RECORD"
  | .confirmedFeedbackRecord => "CONFIRMED_FEEDBACK_RECORD"

section Codec

variable {F : Type}

/-- A payload or a provenance. -/
abbrev Payload (fmt : PyFloats F) := PyDict fmt

variable (R : Runtime F)

def optionalText : Option String → PyValue F
  | none => .none
  | some s => .str s

def optionalInt : Option Nat → PyValue F
  | none => .none
  | some n => .int n

def canonicalJsonStr (p : Payload R.floats) : String := (dumps R.floats p.value).getD ""

def loadsPayload (text : String) : Option (Payload R.floats) :=
  (PyObject.loads R.floats text).bind fun v =>
    if h : isTextDict v.value = true then some ⟨v, h⟩ else none

/-- The hashed fields of a record as a dictionary. -/
def projection (f : HashedFields (Payload R.floats)) : PyValue F :=
  .dict none [(.str "schema_version", .str f.schemaVersion), (.str "record_key", .str f.recordKey),
    (.str "record_type", .str (BlackboardRecordType.value f.recordType)),
    (.str "record_version", .int f.recordVersion),
    (.str "logical_timestamp", optionalText f.logicalTimestamp),
    (.str "window_id", optionalInt f.windowId), (.str "author_id", .str f.authorId),
    (.str "source_component", .str f.sourceComponent), (.str "payload", f.payload.value),
    (.str "provenance", f.provenance.value)]

/-- Digest of the canonical text of the hashed fields. -/
def computeContentHash (f : HashedFields (Payload R.floats)) : Option String :=
  (dumps R.floats (projection R f)).map R.sha256Hex

/-- The dump of a whole record. -/
def modelDump (r : BlackboardRecordV1 (Payload R.floats)) : PyValue F :=
  match projection R r.toHashedFields with
  | .dict i entries =>
    .dict i (entries ++ [(.str "record_id", .str r.recordId), (.str "content_hash", .str r.contentHash)])
  | v => v

/-- Records with JSON payloads. -/
def jsonCodec : RecordCodec (Payload R.floats) where
  canonicalJsonStr := canonicalJsonStr R
  loads := loadsPayload R
  computeContentHash := computeContentHash R
  firewallViolations p := findBlackboardFirewallViolations R.floats R.lowerCase p.value
  validUtcTimestamp := R.validUtcTimestamp
  canonicalSize r := (dumps R.floats (modelDump R r)).map String.utf8ByteSize

variable {R}

/-- A hashed record has a JSON payload and a JSON provenance. -/
theorem encodes_of_hash {f : HashedFields (Payload R.floats)} {h : String}
    (hh : computeContentHash R f = some h) :
    (∃ j, encode R.floats f.payload.value = some j) ∧
      ∃ j, encode R.floats f.provenance.value = some j := by
  unfold computeContentHash at hh
  obtain ⟨text, htext, -⟩ := Option.map_eq_some_iff.mp hh
  obtain ⟨j, hj, -⟩ := (dumps_some R.floats).mp htext
  obtain ⟨ms, hms, -, -⟩ := (encode_dict R.floats).mp hj
  obtain ⟨m, -, -, -, -, hpayload⟩ :=
    exists_right (a := (PyKey.str "payload", f.payload.value)) hms (by simp)
  obtain ⟨m', -, -, -, -, hprovenance⟩ :=
    exists_right (a := (PyKey.str "provenance", f.provenance.value)) hms (by simp)
  exact ⟨⟨_, hpayload⟩, ⟨_, hprovenance⟩⟩

/-- The hash sees of payload and provenance what is written of them. -/
theorem computeContentHash_congr {f : HashedFields (Payload R.floats)} {p q : Payload R.floats}
    (hp : encode R.floats p.value = encode R.floats f.payload.value)
    (hq : encode R.floats q.value = encode R.floats f.provenance.value) :
    computeContentHash R { f with payload := p, provenance := q } = computeContentHash R f := by
  unfold computeContentHash dumps projection
  simp only [encode, encodeEntries, hp, hq]

/-! ### One payload -/

theorem canonicalJsonStr_eq {p : Payload R.floats} {j : Json F}
    (h : encode R.floats p.value = some j) :
    canonicalJsonStr R p = String.ofList (write R.floats.toFloatFormat j) := by
  unfold canonicalJsonStr dumps
  rw [h]
  rfl

theorem decode_textDict {v : PyValue F} (hd : isTextDict v = true) {j : Json F}
    (h : encode R.floats v = some j) : isTextDict (decode j) = true := by
  cases v with
  | dict i entries =>
    obtain ⟨ms, -, -, rfl⟩ := (encode_dict R.floats).mp h
    rw [decode, decodeMembers_eq]
    simp [isTextDict, PyKey.isStr]
  | none => cases hd
  | bool b => cases hd
  | int n => cases hd
  | float x => cases hd
  | str s => cases hd
  | list i items => cases hd

/-- The stored text of a payload loads to the payload that was written. -/
theorem loadsPayload_canonical {p : Payload R.floats} {j : Json F}
    (h : encode R.floats p.value = some j) :
    ∃ p' : Payload R.floats, loadsPayload R (canonicalJsonStr R p) = some p' ∧ p'.value = decode j := by
  have hloads := PyObject.loads_value R.floats (canonicalJsonStr R p)
  rw [canonicalJsonStr_eq h, loads_dumps R.floats p.distinct h, ← canonicalJsonStr_eq h,
    Option.map_eq_some_iff] at hloads
  obtain ⟨o, ho, hvalue⟩ := hloads
  have hdict : isTextDict o.value = true := by
    rw [hvalue]
    exact decode_textDict p.textDict h
  refine ⟨⟨o, hdict⟩, ?_, hvalue⟩
  unfold loadsPayload
  rw [ho, Option.bind_some, dif_pos hdict]

/-- A reloaded payload is written as the stored text just when its keys are in text
order, and is then written as the payload was. -/
theorem reloaded_canonical {p p' : Payload R.floats} {j : Json F}
    (h : encode R.floats p.value = some j) (hp' : p'.value = decode j) :
    (canonicalJsonStr R p' = canonicalJsonStr R p ↔ KeysInTextOrder R.floats p.value) ∧
      (KeysInTextOrder R.floats p.value → encode R.floats p'.value = encode R.floats p.value) := by
  have hdumped := encode_dumped R.floats p.distinct h
  have hencode : encode R.floats p'.value = some (inTextOrder j) := by
    rw [hp']
    exact hdumped.encode_decode
  have hsorted := textSorted_iff R.floats p.distinct h
  refine ⟨?_, ?_⟩
  · rw [canonicalJsonStr_eq hencode, canonicalJsonStr_eq h, ← hsorted, String.ofList_inj]
    exact hdumped.write_inTextOrder R.floats
  · intro hkeys
    rw [hencode, h, (hsorted.mpr hkeys).inTextOrder]

/-! ## Loading a stored record -/

/-- The same identity, the same fields and the same canonical content. -/
structure SameContent (R : Runtime F) (r r' : BlackboardRecordV1 (Payload R.floats)) : Prop where
  contentHash : r'.contentHash = r.contentHash
  recordId : r'.recordId = r.recordId
  canonical : fullRecordJson (jsonCodec R) r' = fullRecordJson (jsonCodec R) r
  verified : verifyRecordIntegrity (jsonCodec R) r' = .ok ()

theorem validateRecord_ok {V : Type} {cd : RecordCodec V} {r : BlackboardRecordV1 V} :
    validateRecord cd r = .ok () ↔ runChecks (recordChecks cd r) = .ok () ∧ Verified cd r := by
  rw [← verifyRecordIntegrity_ok]
  unfold validateRecord
  cases runChecks (recordChecks cd r) with
  | error e => simp
  | ok u =>
    cases hv : verifyRecordIntegrity cd r with
    | ok u => simp
    | error f => cases f <;> simp

/-- A validated record with another payload and provenance that pass the firewall and
hash alike is valid. -/
theorem validateRecord_congr {r : BlackboardRecordV1 (Payload R.floats)} {p q : Payload R.floats}
    (h : validateRecord (jsonCodec R) r = .ok ())
    (hp : (jsonCodec R).firewallViolations p = []) (hq : (jsonCodec R).firewallViolations q = [])
    (hhash : computeContentHash R { r.toHashedFields with payload := p, provenance := q } =
      computeContentHash R r.toHashedFields) :
    validateRecord (jsonCodec R) { r with payload := p, provenance := q } = .ok () := by
  obtain ⟨hchecks, hverified⟩ := (validateRecord_ok).mp h
  refine (validateRecord_ok).mpr ⟨?_, ?_, hverified.id⟩
  · rw [runChecks_ok] at hchecks ⊢
    simp only [recordChecks, sharedChecks, identifierChecks, firewallCheck, List.mem_append,
      List.mem_cons, List.not_mem_nil, or_false, or_imp, forall_and, forall_eq] at hchecks ⊢
    simp only [hp, hq, List.isEmpty_nil]
    tauto
  · exact hhash.trans hverified.hash

/-- What a row loads as has the payload and the provenance that its texts load as. -/
theorem rowToRecord_loads {V : Type} {cd : RecordCodec V} {row : CommittedRow}
    {r : BlackboardRecordV1 V} (h : rowToRecord cd row = .ok r) :
    cd.loads row.payloadJson = some r.payload ∧ cd.loads row.provenanceJson = some r.provenance := by
  unfold rowToRecord at h
  split at h
  · rename_i payload provenance hp hq
    simp only at h
    split at h
    · cases h
    · split at h <;> cases h
      exact ⟨hp, hq⟩
  · cases h

/-- A stored row of a valid record loads as the record's content just when the keys of
payload and provenance are in text order. -/
theorem rowToRecord_iff {r : BlackboardRecordV1 (Payload R.floats)}
    (hr : validateRecord (jsonCodec R) r = .ok ()) {row : CommittedRow}
    (hrow : row.toStagedRecord = fullRecordJson (jsonCodec R) r) :
    (∃ r', rowToRecord (jsonCodec R) row = .ok r' ∧ SameContent R r r') ↔
      KeysInTextOrder R.floats r.payload.value ∧ KeysInTextOrder R.floats r.provenance.value := by
  obtain ⟨hchecks, hverified⟩ := (validateRecord_ok).mp hr
  obtain ⟨⟨j, hj⟩, ⟨k, hk⟩⟩ := encodes_of_hash hverified.hash
  obtain ⟨p, hp, hpv⟩ := loadsPayload_canonical hj
  obtain ⟨q, hq, hqv⟩ := loadsPayload_canonical hk
  obtain ⟨hpsame, hpencode⟩ := reloaded_canonical hj hpv
  obtain ⟨hqsame, hqencode⟩ := reloaded_canonical hk hqv
  have hrowp : row.payloadJson = canonicalJsonStr R r.payload := congrArg StagedRecord.payloadJson hrow
  have hrowq : row.provenanceJson = canonicalJsonStr R r.provenance :=
    congrArg StagedRecord.provenanceJson hrow
  have hloadp : (jsonCodec R).loads row.payloadJson = some p := by
    rw [hrowp]
    exact hp
  have hloadq : (jsonCodec R).loads row.provenanceJson = some q := by
    rw [hrowq]
    exact hq
  constructor
  · rintro ⟨r', hload, hsame⟩
    obtain ⟨hp', hq'⟩ := rowToRecord_loads hload
    have hpr : r'.payload = p := Option.some.inj (hp'.symm.trans hloadp)
    have hqr : r'.provenance = q := Option.some.inj (hq'.symm.trans hloadq)
    have hcanonp : canonicalJsonStr R r'.payload = canonicalJsonStr R r.payload :=
      congrArg StagedRecord.payloadJson hsame.canonical
    have hcanonq : canonicalJsonStr R r'.provenance = canonicalJsonStr R r.provenance :=
      congrArg StagedRecord.provenanceJson hsame.canonical
    rw [hpr] at hcanonp
    rw [hqr] at hcanonq
    exact ⟨hpsame.mp hcanonp, hqsame.mp hcanonq⟩
  · rintro ⟨hkp, hkq⟩
    have hclear : ∀ v : Payload R.floats, (jsonCodec R).firewallViolations v = [] →
        Clear (flaggedKey R.lowerCase) v.value := fun v hv =>
      (findBlackboardFirewallViolations_nil R.floats R.lowerCase v.coherent).mp hv
    have hfirewall : (jsonCodec R).firewallViolations r.payload = [] ∧
        (jsonCodec R).firewallViolations r.provenance = [] := by
      rw [runChecks_ok] at hchecks
      have hpc := hchecks (firewallCheck (jsonCodec R) "payload" r.payload) (by simp [recordChecks, sharedChecks])
      have hqc := hchecks (firewallCheck (jsonCodec R) "provenance" r.provenance)
        (by simp [recordChecks, sharedChecks])
      exact ⟨List.isEmpty_iff.mp hpc, List.isEmpty_iff.mp hqc⟩
    have hpfire : (jsonCodec R).firewallViolations p = [] := by
      refine (findBlackboardFirewallViolations_nil R.floats R.lowerCase p.coherent).mpr ?_
      rw [hpv]
      exact reloaded_clear R.floats R.lowerCase hj (hclear _ hfirewall.1)
    have hqfire : (jsonCodec R).firewallViolations q = [] := by
      refine (findBlackboardFirewallViolations_nil R.floats R.lowerCase q.coherent).mpr ?_
      rw [hqv]
      exact reloaded_clear R.floats R.lowerCase hk (hclear _ hfirewall.2)
    have hvalid := validateRecord_congr hr hpfire hqfire
      (computeContentHash_congr (hpencode hkp) (hqencode hkq))
    have hcanonical : fullRecordJson (jsonCodec R) { r with payload := p, provenance := q } =
        fullRecordJson (jsonCodec R) r := by
      unfold fullRecordJson
      simp only [show (jsonCodec R).canonicalJsonStr p = (jsonCodec R).canonicalJsonStr r.payload
        from hpsame.mpr hkp, show (jsonCodec R).canonicalJsonStr q =
        (jsonCodec R).canonicalJsonStr r.provenance from hqsame.mpr hkq]
    refine ⟨{ r with payload := p, provenance := q }, ?_, rfl, rfl, hcanonical,
      (verifyRecordIntegrity_ok _ _).mpr (verified_of_validateRecord _ hvalid)⟩
    obtain ⟨staged, op, utc⟩ := row
    change staged = _ at hrow
    subst hrow
    have hdrift : ¬ ((jsonCodec R).canonicalJsonStr p ≠ (fullRecordJson (jsonCodec R) r).payloadJson ∨
        (jsonCodec R).canonicalJsonStr q ≠ (fullRecordJson (jsonCodec R) r).provenanceJson) := by
      rw [not_or, not_not, not_not]
      exact ⟨hpsame.mpr hkp, hqsame.mpr hkq⟩
    unfold rowToRecord
    simp only [hloadp, hloadq]
    have hbuilt : validateRecord (jsonCodec R)
        { schemaVersion := (fullRecordJson (jsonCodec R) r).schemaVersion
          recordKey := (fullRecordJson (jsonCodec R) r).recordKey
          recordType := (fullRecordJson (jsonCodec R) r).recordType
          recordVersion := (fullRecordJson (jsonCodec R) r).recordVersion
          logicalTimestamp := (fullRecordJson (jsonCodec R) r).logicalTimestamp
          windowId := (fullRecordJson (jsonCodec R) r).windowId
          authorId := (fullRecordJson (jsonCodec R) r).authorId
          sourceComponent := (fullRecordJson (jsonCodec R) r).sourceComponent
          payload := p
          provenance := q
          recordId := (fullRecordJson (jsonCodec R) r).recordId
          contentHash := (fullRecordJson (jsonCodec R) r).contentHash } = .ok () := hvalid
    rw [hbuilt]
    simp only [if_neg hdrift]
    rfl

/-- What loads from a record's stored row has the record's content. -/
theorem sameContent_of_loads {r r' : BlackboardRecordV1 (Payload R.floats)} {row : CommittedRow}
    (hrow : row.toStagedRecord = fullRecordJson (jsonCodec R) r)
    (h : rowToRecord (jsonCodec R) row = .ok r') : SameContent R r r' := by
  obtain ⟨hform, hverified⟩ := rowToRecord_ok (jsonCodec R) h
  have hcanonical := hform.trans hrow
  exact ⟨congrArg StagedRecord.contentHash hcanonical, congrArg StagedRecord.recordId hcanonical,
    hcanonical, (verifyRecordIntegrity_ok _ _).mpr hverified⟩

/-- A prepare and a commit that are acknowledged leave the record's row. -/
theorem stored_row {r : BlackboardRecordV1 (Payload R.floats)} (db : ReplicaDatabase (jsonCodec R))
    (hid : Identifies (jsonCodec R) db.tables r) (ρ : ReplicaId) (st st' : ReplicaStatus)
    (e e' : Env (Payload R.floats)) (he : e.intercept = .original) (cfg : ReplicaSettings) (op : String)
    (hprepare : (prepare (jsonCodec R) ρ st e cfg op r db.tables).2.ackStatus = .ackPrepared)
    (hcommit : (commit ρ st' e' op r (prepare (jsonCodec R) ρ st e cfg op r db.tables).1).2.ackStatus =
      .ackCommitted) :
    ∃ row, getCommittedRow
        (commit ρ st' e' op r (prepare (jsonCodec R) ρ st e cfg op r db.tables).1).1
        r.recordKey r.recordVersion = some row ∧ row.toStagedRecord = fullRecordJson (jsonCodec R) r := by
  have hvalid := (prepare_edit (jsonCodec R) ρ st e db.tables cfg op r).valid db.valid
  rcases prepare_effect (jsonCodec R) ρ st e db.tables cfg op r with
    ⟨hne, -⟩ | ⟨-, staged, hpass, -, -, res, heffect, hres⟩
  · exact absurd hprepare hne
  have hstaged : staged = r := by
    rcases hpass with ⟨-, h⟩ | h
    · exact h
    · rw [he] at h
      cases h
  subst hstaged
  have hpromotable := promotable_of_effect db.valid heffect hres hid
  rcases commit_effect ρ st' e' (prepare (jsonCodec R) ρ st e cfg op staged db.tables).1 op staged with
    ⟨hne, -⟩ | ⟨-, p, hp, -, -, hnext, htables⟩
  · exact absurd hcommit hne
  obtain ⟨p', hp', -, -, hjson⟩ := hpromotable.pending
  have hsame : p' = p := Option.some.inj (hp'.symm.trans hp)
  subst hsame
  rw [htables]
  generalize hrow : ({ p'.recordJson with operationId := op, committedAtUtc := e'.utc } : CommittedRow) = row
  have hform : row.toStagedRecord = fullRecordJson (jsonCodec R) staged := by
    rw [← hrow]
    exact hjson
  have hkey : row.recordKey = staged.recordKey := congrArg StagedRecord.recordKey hform
  have hversion : row.recordVersion = staged.recordVersion := congrArg StagedRecord.recordVersion hform
  have hget := hvalid.getCommittedRow_promoteRow row (by rw [hkey, hversion]; exact hnext)
    staged.recordKey staged.recordVersion
  rw [hkey, hversion, if_pos ⟨rfl, rfl⟩] at hget
  exact ⟨row, hget, hform⟩

/-- A valid record that a replica has prepared and committed loads again with its
identity and its content just when the keys of its dictionaries are in text order. -/
theorem stored_reloads_iff {r : BlackboardRecordV1 (Payload R.floats)}
    (hr : validateRecord (jsonCodec R) r = .ok ()) (db : ReplicaDatabase (jsonCodec R))
    (hid : Identifies (jsonCodec R) db.tables r) (ρ : ReplicaId) (st st' : ReplicaStatus)
    (e e' : Env (Payload R.floats)) (he : e.intercept = .original) (cfg : ReplicaSettings) (op : String)
    (hprepare : (prepare (jsonCodec R) ρ st e cfg op r db.tables).2.ackStatus = .ackPrepared)
    (hcommit : (commit ρ st' e' op r (prepare (jsonCodec R) ρ st e cfg op r db.tables).1).2.ackStatus =
      .ackCommitted) :
    (∃ row r', getCommittedRow
          (commit ρ st' e' op r (prepare (jsonCodec R) ρ st e cfg op r db.tables).1).1
          r.recordKey r.recordVersion = some row ∧
        rowToRecord (jsonCodec R) row = .ok r' ∧ SameContent R r r') ↔
      KeysInTextOrder R.floats r.payload.value ∧ KeysInTextOrder R.floats r.provenance.value := by
  obtain ⟨row, hrow, hform⟩ := stored_row db hid ρ st st' e e' he cfg op hprepare hcommit
  rw [← rowToRecord_iff hr hform]
  constructor
  · rintro ⟨row', r', hrow', hload, hsame⟩
    rw [hrow, Option.some.injEq] at hrow'
    subst hrow'
    exact ⟨r', hload, hsame⟩
  · rintro ⟨r', hload, hsame⟩
    exact ⟨row, r', hrow, hload, hsame⟩

end Codec

/-! ## Two records -/

section Records

/-- The digests of the canonical texts used below. -/
def devTexts : List (String × String) :=
  [("\x7b\"author_id\":\"agent\",\"logical_timestamp\":null,\"payload\":\x7b\"x\":1\x7d,\"provenance\":\x7b\x7d,\"record_key\":\"dev\",\"record_type\":\"SYSTEM_RECORD\",\"record_version\":1,\"schema_version\":\"blackboard_record_v1\",\"source_component\":\"unit\",\"window_id\":null\x7d",
      "d54d20757ed10e25fd1b8da7dd5b8c57064a4d1d754868dde3d34afe8fc2c1ef"),
    ("\x7b\"author_id\":\"agent\",\"logical_timestamp\":null,\"payload\":\x7b\"m\":\x7b\"9\":\"a\",\"10\":\"b\"\x7d\x7d,\"provenance\":\x7b\x7d,\"record_key\":\"dev\",\"record_type\":\"SYSTEM_RECORD\",\"record_version\":1,\"schema_version\":\"blackboard_record_v1\",\"source_component\":\"unit\",\"window_id\":null\x7d",
      "4068d5fe6c5c73033907aa5091612a006f076a6aa7a6bd84febc5a72f53af5bf"),
    ("\x7b\"author_id\":\"agent\",\"logical_timestamp\":null,\"payload\":\x7b\"m\":\x7b\"10\":\"b\",\"9\":\"a\"\x7d\x7d,\"provenance\":\x7b\x7d,\"record_key\":\"dev\",\"record_type\":\"SYSTEM_RECORD\",\"record_version\":1,\"schema_version\":\"blackboard_record_v1\",\"source_component\":\"unit\",\"window_id\":null\x7d",
      "bfed549738ffad95b0d5854ef7fc8f108139d080034e9e027007a237882c2087")]

def devRuntime : Runtime Unit where
  floats := nanOnly
  lowerCase := asciiLowerCase
  sha256Hex text := (devTexts.lookup text).getD ""
  validUtcTimestamp _ := false

theorem coherent_of_unshared {F : Type} {v : PyValue F} (h : ∀ u, Within u v → u.shared = none) :
    Coherent v := by
  intro u w i hu _ hi _
  rw [h u hu] at hi
  cases hi

/-- Numeric keys inside the payload: 9 stands before 10, and "10" before "9". -/
def numericKeys : Payload devRuntime.floats where
  value := .dict none [(.str "m", .dict none [(.int 9, .str "a"), (.int 10, .str "b")])]
  coherent := by
    refine coherent_of_unshared fun u hu => ?_
    cases hu with
    | self => rfl
    | entry hu he =>
      rw [List.mem_singleton] at he
      subst he
      cases hu with
      | self => rfl
      | entry hu he =>
        simp only [List.mem_cons, List.not_mem_nil, or_false] at he
        rcases he with rfl | rfl <;> cases hu <;> rfl
  distinct := by
    refine .dict none _ (by decide) ?_
    simp only [List.mem_singleton, forall_eq]
    refine .dict none _ (by decide) ?_
    simp only [List.mem_cons, List.not_mem_nil, or_false, forall_eq_or_imp, forall_eq]
    exact ⟨.str "a", .str "b"⟩
  textDict := by decide

def emptyProvenance : Payload devRuntime.floats where
  toPyObject := .ofJson nanOnly (.obj []) (.obj [] List.nodup_nil nofun)
  textDict := by decide

def smallPayload : Payload devRuntime.floats where
  toPyObject := .ofJson nanOnly (.obj [("x", .int 1)])
    (.obj _ (by decide) (by simpa using .int 1))
  textDict := by decide

/-- A record of this payload with its digest. -/
def recordOf (payload : Payload devRuntime.floats) (hash : String) :
    BlackboardRecordV1 (Payload devRuntime.floats) :=
  { schemaVersion := blackboardRecordSchemaVersion
    recordKey := "dev"
    recordType := .systemRecord
    recordVersion := 1
    logicalTimestamp := none
    windowId := none
    authorId := "agent"
    sourceComponent := "unit"
    payload := payload
    provenance := emptyProvenance
    recordId := deriveRecordId "dev" 1 hash
    contentHash := hash }

def numericRecord : BlackboardRecordV1 (Payload devRuntime.floats) :=
  recordOf numericKeys "4068d5fe6c5c73033907aa5091612a006f076a6aa7a6bd84febc5a72f53af5bf"

def smallRecord : BlackboardRecordV1 (Payload devRuntime.floats) :=
  recordOf smallPayload "d54d20757ed10e25fd1b8da7dd5b8c57064a4d1d754868dde3d34afe8fc2c1ef"

/-- A call that meets no fault. -/
def quiet : Env (Payload devRuntime.floats) := ⟨none, 10, "2026-01-01T00:00:00Z", .original⟩

/-- A fresh replica after the prepare of the record. -/
def prepared (r : BlackboardRecordV1 (Payload devRuntime.floats)) : Tables × ReplicaAckV1 :=
  prepare (jsonCodec devRuntime) .replicaA newStatus quiet ⟨262144, 300, 16⟩ "bbw-1" r
    (emptyDatabase (jsonCodec devRuntime)).tables

/-- The same replica after the commit. -/
def committed (r : BlackboardRecordV1 (Payload devRuntime.floats)) : Tables × ReplicaAckV1 :=
  commit .replicaA newStatus quiet "bbw-1" r (prepared r).1

set_option maxRecDepth 8000 in
theorem smallRecord_text : dumps nanOnly (projection devRuntime smallRecord.toHashedFields) =
    some "\x7b\"author_id\":\"agent\",\"logical_timestamp\":null,\"payload\":\x7b\"x\":1\x7d,\"provenance\":\x7b\x7d,\"record_key\":\"dev\",\"record_type\":\"SYSTEM_RECORD\",\"record_version\":1,\"schema_version\":\"blackboard_record_v1\",\"source_component\":\"unit\",\"window_id\":null\x7d" := by
  rfl

set_option maxRecDepth 8000 in
theorem numericRecord_text : dumps nanOnly (projection devRuntime numericRecord.toHashedFields) =
    some "\x7b\"author_id\":\"agent\",\"logical_timestamp\":null,\"payload\":\x7b\"m\":\x7b\"9\":\"a\",\"10\":\"b\"\x7d\x7d,\"provenance\":\x7b\x7d,\"record_key\":\"dev\",\"record_type\":\"SYSTEM_RECORD\",\"record_version\":1,\"schema_version\":\"blackboard_record_v1\",\"source_component\":\"unit\",\"window_id\":null\x7d" := by
  rfl

theorem smallRecord_verified : Verified (jsonCodec devRuntime) smallRecord := by
  refine ⟨?_, rfl⟩
  change (dumps nanOnly (projection devRuntime smallRecord.toHashedFields)).map devRuntime.sha256Hex = _
  rw [smallRecord_text]
  simp [devRuntime, devTexts, smallRecord, recordOf]

theorem numericRecord_verified : Verified (jsonCodec devRuntime) numericRecord := by
  refine ⟨?_, rfl⟩
  change (dumps nanOnly (projection devRuntime numericRecord.toHashedFields)).map devRuntime.sha256Hex = _
  rw [numericRecord_text]
  simp [devRuntime, devTexts, numericRecord, recordOf, List.lookup]

theorem smallRecord_valid : validateRecord (jsonCodec devRuntime) smallRecord = .ok () :=
  (validateRecord_ok).mpr ⟨by decide, smallRecord_verified⟩

theorem numericRecord_valid : validateRecord (jsonCodec devRuntime) numericRecord = .ok () :=
  (validateRecord_ok).mpr ⟨by decide, numericRecord_verified⟩

/-- A verified record of this shape that passes the firewall and the size bound is
staged and then committed. -/
theorem record_committed {payload : Payload devRuntime.floats} {hash : String}
    (hv : Verified (jsonCodec devRuntime) (recordOf payload hash))
    (hfire : (jsonCodec devRuntime).firewallViolations payload = [])
    (hsize : ensureRecordSize (jsonCodec devRuntime) (recordOf payload hash) 262144 = .ok ()) :
    (prepared (recordOf payload hash)).2.ackStatus = .ackPrepared ∧
      (committed (recordOf payload hash)).2.ackStatus = .ackCommitted := by
  have hverify := (verifyRecordIntegrity_ok _ _).mpr hv
  have hprovenance : (jsonCodec devRuntime).firewallViolations emptyProvenance = [] := by decide
  have hchecks : runChecks [firewallCheck (jsonCodec devRuntime) "payload" payload,
      firewallCheck (jsonCodec devRuntime) "provenance" emptyProvenance] = .ok () := by
    simp [runChecks, firewallCheck, hfire, hprovenance]
  have hstaged : prepared (recordOf payload hash) =
      (insertPending emptyTables (stagedRow (jsonCodec devRuntime) quiet "bbw-1" (recordOf payload hash)),
        prepareAck .replicaA "bbw-1" (recordOf payload hash) ⟨.prepared, some 0, none⟩) := by
    have hcalm : refusal .replicaA newStatus quiet "bbw-1" .prepare
        (some (recordOf payload hash)) = none := rfl
    have hempty : (emptyDatabase (jsonCodec devRuntime)).tables = emptyTables := rfl
    unfold prepared prepare
    rw [hcalm, hempty]
    simp only [quiet]
    unfold stageRecord
    rw [hverify]
    simp only [hsize]
    rw [show runChecks [firewallCheck (jsonCodec devRuntime) "payload" (recordOf payload hash).payload,
      firewallCheck (jsonCodec devRuntime) "provenance" (recordOf payload hash).provenance] = .ok ()
      from hchecks]
    rfl
  refine ⟨by rw [hstaged]; rfl, ?_⟩
  have hcalm : refusal .replicaA newStatus quiet "bbw-1" .commit
      (some (recordOf payload hash)) = none := rfl
  rw [committed, hstaged]
  unfold commit
  rw [hcalm]
  simp [guarded, quiet, commitPromote, fitsInteger, recordOf, insertPending, getPendingRow, stagedRow,
    emptyTables, head, getHeadVersion, insertCommitted, deletePending, inSlot, fullRecordJson, baseAck]

theorem identifies_empty (r : BlackboardRecordV1 (Payload devRuntime.floats)) :
    Identifies (jsonCodec devRuntime) emptyTables r :=
  ⟨fun _ h => absurd h List.not_mem_nil, fun _ h => absurd h List.not_mem_nil⟩

theorem smallRecord_committed : (prepared smallRecord).2.ackStatus = .ackPrepared ∧
    (committed smallRecord).2.ackStatus = .ackCommitted := by
  have hfire : (jsonCodec devRuntime).firewallViolations smallPayload = [] := by decide
  have hsize : ensureRecordSize (jsonCodec devRuntime) smallRecord 262144 = .ok () := by decide +kernel
  unfold smallRecord at hsize ⊢
  exact record_committed smallRecord_verified hfire hsize

theorem numericRecord_committed : (prepared numericRecord).2.ackStatus = .ackPrepared ∧
    (committed numericRecord).2.ackStatus = .ackCommitted := by
  have hfire : (jsonCodec devRuntime).firewallViolations numericKeys = [] := by decide
  have hsize : ensureRecordSize (jsonCodec devRuntime) numericRecord 262144 = .ok () := by decide +kernel
  unfold numericRecord at hsize ⊢
  exact record_committed numericRecord_verified hfire hsize

theorem stored_reloads_small : ∃ row r', getCommittedRow (committed smallRecord).1 "dev" 1 = some row ∧
    rowToRecord (jsonCodec devRuntime) row = .ok r' ∧ SameContent devRuntime smallRecord r' := by
  have h := smallRecord_committed
  unfold committed prepared at h
  have hkeys : KeysInTextOrder nanOnly smallPayload.value :=
    .dict none [(.str "x", .int 1)] (by simp) (by simpa using .int 1)
  exact (stored_reloads_iff smallRecord_valid (emptyDatabase _) (identifies_empty _) .replicaA newStatus
    newStatus quiet quiet rfl ⟨262144, 300, 16⟩ "bbw-1" h.1 h.2).mpr
    ⟨hkeys, .dict none [] nofun nofun⟩

/-- The committed record whose row does not load. -/
theorem numeric_record_lost :
    validateRecord (jsonCodec devRuntime) numericRecord = .ok () ∧
      (prepared numericRecord).2.ackStatus = .ackPrepared ∧
      (committed numericRecord).2.ackStatus = .ackCommitted ∧
      ∃ row, getCommittedRow (committed numericRecord).1 "dev" 1 = some row ∧
        ¬ ∃ r', rowToRecord (jsonCodec devRuntime) row = .ok r' := by
  have h := numericRecord_committed
  refine ⟨numericRecord_valid, h.1, h.2, ?_⟩
  unfold committed prepared at h ⊢
  obtain ⟨row, hrow, hform⟩ := stored_row (emptyDatabase _) (identifies_empty numericRecord) .replicaA
    newStatus newStatus quiet quiet rfl ⟨262144, 300, 16⟩ "bbw-1" h.1 h.2
  refine ⟨row, hrow, ?_⟩
  rintro ⟨r', hload⟩
  have hkeys : KeysInTextOrder nanOnly numericKeys.value := ((rowToRecord_iff numericRecord_valid hform).mp
    ⟨r', hload, sameContent_of_loads hform hload⟩).1
  cases hkeys with
  | dict _ _ _ hvalues =>
    have hinner := hvalues (.str "m", .dict none [(.int 9, .str "a"), (.int 10, .str "b")]) (by simp)
    cases hinner with
    | dict _ _ hpairs _ =>
      have hlt := hpairs (.int 9, .str "a") (by simp) (.int 10, .str "b") (by simp) (by decide)
      exact absurd hlt (by decide)

end Records

end BlackboardRoundTrip
