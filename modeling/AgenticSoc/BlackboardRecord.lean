import Std.Data.String.ToNat
import Mathlib.Tactic.Common

/-!
# The Blackboard record contract

A record is one concrete version of one logical item. Its content hash covers
exactly the hashed fields and its identity is derived from key, version and
hash, so both are re-derived on every validation. Payload and provenance are
kept abstract: the contract reads them only through the canonical serialisation,
its parser, the digest of the hashed projection and the firewall walk, which are
the fields of a codec.
-/
namespace BlackboardRecord

inductive BlackboardRecordType where
  | networkFindingRecord | behaviorFindingRecord | deviceStateRecord
  | deviceRiskSnapshotRecord | deviceOnlySrepRecord | systemRecord
  | threatCorrelationRecord | riskRecommendationRecord | accessRecommendationRecord
  | enforcementDecisionRecord | confirmedFeedbackRecord
  deriving DecidableEq, Repr

def blackboardRecordSchemaVersion : String := "blackboard_record_v1"

/-- The fields the content hash covers, and no others. -/
structure HashedFields (V : Type) where
  schemaVersion : String
  recordKey : String
  recordType : BlackboardRecordType
  recordVersion : Nat
  logicalTimestamp : Option String
  windowId : Option Nat
  authorId : String
  sourceComponent : String
  payload : V
  provenance : V
  deriving DecidableEq

structure BlackboardRecordV1 (V : Type) extends HashedFields V where
  recordId : String
  contentHash : String
  deriving DecidableEq

/-- What the contract uses of the payload type and of the run-time library. A
digest of `none` means that the content is not canonically serialisable. -/
structure RecordCodec (V : Type) where
  canonicalJsonStr : V → String
  loads : String → Option V
  computeContentHash : HashedFields V → Option String
  firewallViolations : V → List String
  validUtcTimestamp : String → Bool
  canonicalSize : BlackboardRecordV1 V → Option Nat

/-- The characters that `str.strip` removes. -/
def isSpace (c : Char) : Bool :=
  let n := c.toNat
  (9 ≤ n && n ≤ 13) || (28 ≤ n && n ≤ 32) || n = 0x85 || n = 0xA0 || n = 0x1680 ||
    (0x2000 ≤ n && n ≤ 0x200A) || n = 0x2028 || n = 0x2029 || n = 0x202F ||
    n = 0x205F || n = 0x3000

/-- The text is empty after stripping. -/
def isBlank (s : String) : Bool := s.toList.all isSpace

def isKeyStart (c : Char) : Bool := c.isAlphanum

def isKeyChar (c : Char) : Bool :=
  c.isAlphanum || c = '.' || c = '_' || c = ':' || c = '/' || c = '-'

/-- The key pattern: one letter or digit, then at most 127 key characters. Its end
anchor also matches before one final line feed. -/
def matchesRecordKey (key : String) : Bool :=
  let body (cs : List Char) : Bool :=
    match cs with
    | [] => false
    | c :: rest => isKeyStart c && rest.all isKeyChar && rest.length ≤ 127
  body key.toList || (key.toList.getLast? = some '\n' && body key.toList.dropLast)

def shortHash (contentHash : String) : String := String.ofList (contentHash.toList.take 12)

/-- Immutable identity of one concrete version of one logical item. -/
def deriveRecordId (recordKey : String) (recordVersion : Nat) (contentHash : String) : String :=
  recordKey ++ "#v" ++ Nat.repr recordVersion ++ "#" ++ shortHash contentHash

/-- The first check that fails gives the error. -/
def runChecks : List (Bool × String) → Except String Unit
  | [] => .ok ()
  | (passed, message) :: rest => if passed then runChecks rest else .error message

theorem runChecks_ok (checks : List (Bool × String)) :
    runChecks checks = .ok () ↔ ∀ c ∈ checks, c.1 = true := by
  induction checks with
  | nil => simp [runChecks]
  | cons c rest ih =>
    obtain ⟨passed, message⟩ := c
    cases passed <;> simp [runChecks, ih]

/-- Why a record fails its integrity check: its content has no digest, or the
stored hash or identity is not the derived one. -/
inductive IntegrityFault where
  | unserialisable
  | mismatch : String → IntegrityFault

section Contract

variable {V : Type} (cd : RecordCodec V)

def verifyRecordIntegrity (r : BlackboardRecordV1 V) : Except IntegrityFault Unit :=
  match cd.computeContentHash r.toHashedFields with
  | none => .error .unserialisable
  | some expectedHash =>
    if r.contentHash ≠ expectedHash then
      .error (.mismatch ("content_hash mismatch for '" ++ r.recordKey ++ "': stored='" ++
        r.contentHash ++ "' computed='" ++ expectedHash ++ "'"))
    else if r.recordId ≠ deriveRecordId r.recordKey r.recordVersion expectedHash then
      .error (.mismatch ("record_id mismatch: stored='" ++ r.recordId ++ "' expected='" ++
        deriveRecordId r.recordKey r.recordVersion expectedHash ++ "'"))
    else .ok ()

/-- The record carries its own digest and the identity derived from it. -/
structure Verified (r : BlackboardRecordV1 V) : Prop where
  hash : cd.computeContentHash r.toHashedFields = some r.contentHash
  id : r.recordId = deriveRecordId r.recordKey r.recordVersion r.contentHash

theorem verifyRecordIntegrity_ok (r : BlackboardRecordV1 V) :
    verifyRecordIntegrity cd r = .ok () ↔ Verified cd r := by
  unfold verifyRecordIntegrity
  cases hd : cd.computeContentHash r.toHashedFields with
  | none =>
    simp only [reduceCtorEq, false_iff]
    intro h
    rw [h.hash] at hd
    cases hd
  | some expected =>
    by_cases hh : r.contentHash = expected
    · subst hh
      by_cases hid : r.recordId = deriveRecordId r.recordKey r.recordVersion r.contentHash
      · simp only [ne_eq, not_true_eq_false, if_false, hid, true_iff]
        exact ⟨hd, hid⟩
      · simp only [ne_eq, not_true_eq_false, if_false, hid, not_false_eq_true, if_true,
          reduceCtorEq, false_iff]
        exact fun h => hid h.id
    · simp only [ne_eq, hh, not_false_eq_true, if_true, reduceCtorEq, false_iff]
      intro h
      rw [h.hash] at hd
      exact hh (Option.some.inj hd)

/-- The checks on one identifier field. -/
def identifierChecks (name value : String) : List (Bool × String) :=
  [(!isBlank value, name ++ " must be a non-empty string"),
    (value.length ≤ 128, name ++ " must be at most 128 characters")]

def firewallCheck (what : String) (value : V) : Bool × String :=
  ((cd.firewallViolations value).isEmpty,
    "ground-truth leakage in " ++ what ++ " at: " ++
      toString ((cd.firewallViolations value).take 10))

def timestampCheck (ts : Option String) : Bool × String :=
  (ts.all cd.validUtcTimestamp, "timestamp must carry an explicit UTC offset")

/-- The checks that a draft and a record share. -/
def sharedChecks (f : HashedFields V) : List (Bool × String) :=
  [(matchesRecordKey f.recordKey,
      "record_key must match ^[A-Za-z0-9][A-Za-z0-9._:/-]\x7b0,127\x7d$"),
    (1 ≤ f.recordVersion, "record_version must be an integer >= 1")] ++
    identifierChecks "author_id" f.authorId ++
    identifierChecks "source_component" f.sourceComponent ++
    [firewallCheck cd "payload" f.payload, firewallCheck cd "provenance" f.provenance,
      timestampCheck cd f.logicalTimestamp]

/-- The field validators of a record; the window check of the source is met by
every natural number. -/
def recordChecks (r : BlackboardRecordV1 V) : List (Bool × String) :=
  [(decide (r.schemaVersion = blackboardRecordSchemaVersion),
      "unsupported schema_version '" ++ r.schemaVersion ++ "'")] ++
    sharedChecks cd r.toHashedFields ++
    [(!r.contentHash.isEmpty, "content_hash must be a non-empty string"),
      (!r.recordId.isEmpty, "record_id must be a non-empty string")]

/-- Construction, validation and loading run the field validators and then the
integrity check. -/
def validateRecord (r : BlackboardRecordV1 V) : Except String Unit :=
  match runChecks (recordChecks cd r) with
  | .error e => .error e
  | .ok () =>
    match verifyRecordIntegrity cd r with
    | .error .unserialisable => .error "record content is not canonically serializable"
    | .error (.mismatch e) => .error e
    | .ok () => .ok ()

theorem verified_of_validateRecord {r : BlackboardRecordV1 V}
    (h : validateRecord cd r = .ok ()) : Verified cd r := by
  unfold validateRecord at h
  cases hc : runChecks (recordChecks cd r) with
  | error e => rw [hc] at h; cases h
  | ok u =>
    rw [hc] at h
    cases hv : verifyRecordIntegrity cd r with
    | ok u => exact (verifyRecordIntegrity_ok cd r).mp hv
    | error f => rw [hv] at h; cases f <;> cases h

/-- Construct a verified record from its hashed fields. -/
def buildRecord (f : HashedFields V) : Except String (BlackboardRecordV1 V) :=
  match cd.computeContentHash f with
  | none => .error "record content is not canonically serializable"
  | some contentHash =>
    let r : BlackboardRecordV1 V :=
      { toHashedFields := f
        recordId := deriveRecordId f.recordKey f.recordVersion contentHash
        contentHash := contentHash }
    match validateRecord cd r with
    | .error e => .error e
    | .ok () => .ok r

/-- A built record has the fields it was built from and passes its own check. -/
theorem buildRecord_ok {f : HashedFields V} {r : BlackboardRecordV1 V}
    (h : buildRecord cd f = .ok r) : r.toHashedFields = f ∧ Verified cd r := by
  unfold buildRecord at h
  cases hd : cd.computeContentHash f with
  | none => rw [hd] at h; cases h
  | some contentHash =>
    rw [hd] at h
    simp only at h
    split at h
    · cases h
    · rename_i hv
      cases h
      exact ⟨rfl, verified_of_validateRecord cd hv⟩

/-- Reject records whose full canonical serialisation is oversized. -/
def ensureRecordSize (r : BlackboardRecordV1 V) (maxBytes : Nat) : Except String Unit :=
  match cd.canonicalSize r with
  | none => .error "record content is not canonically serializable"
  | some size =>
    if maxBytes < size then
      .error ("record canonical size " ++ Nat.repr size ++ " exceeds limit " ++
        Nat.repr maxBytes ++ " bytes")
    else .ok ()

/-- A proposal without its derived fields; the source's draft has no schema
version and takes the current one when it is built. -/
structure BlackboardRecordDraft (V : Type) where
  recordKey : String
  recordType : BlackboardRecordType
  recordVersion : Nat
  logicalTimestamp : Option String
  windowId : Option Nat
  authorId : String
  sourceComponent : String
  payload : V
  provenance : V

def BlackboardRecordDraft.fields (d : BlackboardRecordDraft V) : HashedFields V :=
  { schemaVersion := blackboardRecordSchemaVersion
    recordKey := d.recordKey
    recordType := d.recordType
    recordVersion := d.recordVersion
    logicalTimestamp := d.logicalTimestamp
    windowId := d.windowId
    authorId := d.authorId
    sourceComponent := d.sourceComponent
    payload := d.payload
    provenance := d.provenance }

/-- The validators that run when a draft is constructed. -/
def validateDraft (d : BlackboardRecordDraft V) : Except String Unit :=
  runChecks (sharedChecks cd d.fields)

def BlackboardRecordDraft.toRecord (d : BlackboardRecordDraft V) :
    Except String (BlackboardRecordV1 V) := buildRecord cd d.fields

end Contract

/-! The identity of a record determines its slot: version and digest are read
back from the right, since neither contains the separator. -/

theorem repr_no_separator (n : Nat) : '#' ∉ (Nat.repr n).toList := by
  intro h
  have hd : '#'.isDigit = true := by
    have hm : '#' ∈ Nat.toDigits 10 n := by simpa [Nat.repr] using h
    exact Nat.isDigit_of_mem_toDigits (by decide) (by decide) hm
  exact absurd hd (by decide)

/-- Splitting at the last separator is unique. -/
theorem split_last {a b u v : List Char} (hu : '#' ∉ u) (hv : '#' ∉ v)
    (h : a ++ '#' :: u = b ++ '#' :: v) : a = b ∧ u = v := by
  induction a generalizing b with
  | nil =>
    cases b with
    | nil => simpa using h
    | cons c b =>
      simp only [List.nil_append, List.cons_append, List.cons.injEq] at h
      exact absurd (h.2 ▸ (by simp : '#' ∈ b ++ '#' :: v)) hu
  | cons c a ih =>
    cases b with
    | nil =>
      simp only [List.nil_append, List.cons_append, List.cons.injEq] at h
      exact absurd (h.2 ▸ (by simp : '#' ∈ a ++ '#' :: u)) hv
    | cons d b =>
      simp only [List.cons_append, List.cons.injEq] at h
      obtain ⟨rfl, ht⟩ := h
      obtain ⟨rfl, rfl⟩ := ih ht
      exact ⟨rfl, rfl⟩

/-- Equal identities belong to one key and version. -/
theorem deriveRecordId_slot {k k' h h' : String} {n n' : Nat}
    (hh : '#' ∉ (shortHash h).toList) (hh' : '#' ∉ (shortHash h').toList)
    (heq : deriveRecordId k n h = deriveRecordId k' n' h') : k = k' ∧ n = n' := by
  have hlist : (k.toList ++ '#' :: 'v' :: (Nat.repr n).toList) ++ '#' :: (shortHash h).toList =
      (k'.toList ++ '#' :: 'v' :: (Nat.repr n').toList) ++ '#' :: (shortHash h').toList := by
    have := congrArg String.toList heq
    simpa [deriveRecordId] using this
  have houter := (split_last hh hh' hlist).1
  have hv : '#' ∉ 'v' :: (Nat.repr n).toList := by simpa using repr_no_separator n
  have hv' : '#' ∉ 'v' :: (Nat.repr n').toList := by simpa using repr_no_separator n'
  obtain ⟨hk, hn⟩ := split_last hv hv' houter
  refine ⟨String.toList_inj.mp hk, ?_⟩
  simp only [List.cons.injEq, true_and] at hn
  exact Nat.repr_injective (String.toList_inj.mp hn)

end BlackboardRecord
