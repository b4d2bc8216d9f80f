import AgenticSoc.BlackboardAgreement

/-!
# Reads after writes

A write reported `COMMITTED` and a read with an authoritative record each leave a
majority of replicas at or above their version. Every later read asks replicas of
another majority, so it meets one of them, and what that replica shows is its head
at that moment.
-/
namespace BlackboardReads

open BlackboardRecord BlackboardStorage BlackboardReplica BlackboardCoordinator BlackboardSystem
open BlackboardProtocol BlackboardTrace BlackboardAgreement Interaction Interleaving

variable {V : Type} {S : System V} {as : List (Step V)} {c : Configuration S}

/-- The request reads this key, at its head or at the given version. -/
def Asks (t : Request V) (k : String) (v : Option Nat) : Prop :=
  ∃ principal, t.command = .read principal k v

/-- The read returned its record as confirmed. -/
def Authoritative (out : ReadResultV1 V) : Prop :=
  out.outcome = .consistent ∨ out.outcome = .degradedConsistent

/-- Every quorum of the run is a majority. -/
def MajorityQuorums (tr : Trace V) : Prop :=
  ∀ t, Event.started t ∈ tr → 2 ≤ t.coordinator.settings.quorumSize

/-- Untampered storage: the row of a record of the run loads as that record. -/
def Reloads (S : System V) (as : List (Step V)) : Prop :=
  ∀ r, Named S as r → Verified S.codec r → ∀ row : CommittedRow,
    row.toStagedRecord = fullRecordJson S.codec r → rowToRecord S.codec row = .ok r

/-- The record survives a round trip through its row. -/
def reloads [DecidableEq V] (cd : RecordCodec V) (r : BlackboardRecordV1 V) : Bool :=
  match rowToRecord cd (recordToStorageValues cd r "" "") with
  | .ok r' => r' = r
  | .error _ => false

theorem reloads_of_all [DecidableEq V]
    (h : (as.filterMap (namedRecord S)).all (reloads S.codec) = true) : Reloads S as := by
  intro r hr _ row hform
  have hall := List.all_eq_true.mp h r hr
  have hrow : rowToRecord S.codec row = rowToRecord S.codec (recordToStorageValues S.codec r "" "") := by
    obtain ⟨staged, op, utc⟩ := row
    cases hform
    rfl
  rw [hrow]
  unfold reloads at hall
  split at hall
  · rename_i r' hr'
    rw [hr', of_decide_eq_true hall]
  · cases hall

/-! ## Heads at earlier moments -/

/-- From event `n` on, the replica's head for the key is at least `v`. -/
def AtLeast (c : Configuration S) (n : Nat) (ρ : ReplicaId) (k : String) (v : Nat) : Prop :=
  ∀ before d m, Reaches S before d → d.trace = c.trace.take m → n ≤ m →
    v ≤ head (d.state.store ρ).tables k

/-- What a call has left is there in every later configuration. -/
theorem leaves_after {m n l i : Nat} {q : Call V} {a : q.Reply} {before : List (Step V)}
    {d : Configuration S} (hm : c.trace[m]? = some (.called i q a)) (hlt : m < n)
    (hd : Reaches S before d) (htake : d.trace = c.trace.take l) (hl : n ≤ l) :
    Leaves q a d.state := by
  apply leaves hd (i := i)
  rw [htake]
  apply List.mem_of_getElem? (i := m)
  rw [List.getElem?_take_of_lt (by omega)]
  exact hm

theorem atLeast_of_commit {m n i : Nat} {ρ : ReplicaId} {op : String} {r : BlackboardRecordV1 V}
    {ack : ReplicaAckV1} (hm : c.trace[m]? = some (madeCall i (.commit ρ op r) ack)) (hlt : m < n)
    (hs : ack.ackStatus = .ackCommitted) : AtLeast c n ρ r.recordKey r.recordVersion := by
  intro before d l hd htake hl
  exact (HoldsId.bounds (leaves_after hm hlt hd htake hl hs)).2

theorem atLeast_of_observe {m n i : Nat} {ρ : ReplicaId} {k : String} {v : Option Nat}
    {o : Observation V} {r : BlackboardRecordV1 V}
    (hm : c.trace[m]? = some (madeCall i (.observe ρ k v) o)) (hlt : m < n)
    (hs : Shows S.codec k v o r) : AtLeast c n ρ k r.recordVersion := by
  intro before d l hd htake hl
  have hholds := (leaves_after hm hlt hd htake hl r hs).holds.holdsId
  rw [hs.key] at hholds
  exact hholds.bounds.2

/-! ## What a read sees -/

/-- The contract of a read that has returned. -/
theorem finished_read (h : Reaches S as c) {m j : Nat} {u : Request V} {out : ReadResultV1 V}
    (hm : c.trace[m]? = some (.finished j u (.read out))) {k : String} {v : Option Nat}
    (hask : Asks u k v) :
    c.trace[j]? = some (.started u) ∧
      MayReturnRead S.codec u.coordinator.settings.quorumSize k v (callsOf j (c.trace.take m)) out := by
  obtain ⟨-, hstart, hpost, -⟩ := (Machine.run_keeps (meets S) h).finished m j u _ hm
  obtain ⟨principal, hcmd⟩ := hask
  have hmay : MayReturn S u (.read out) (callsOf j (c.trace.take m)) := hpost
  simp only [MayReturn, hcmd] at hmay
  exact ⟨hstart, hmay⟩

/-- An observation of a call that started after `n` is answered after `n`. -/
theorem observed_after (h : Reaches S as c) {m n j : Nat} {ρ : ReplicaId} {k : String}
    {v : Option Nat} {o : Observation V} (hj : n < j)
    (hentry : entry (.observe ρ k v) o ∈ callsOf j (c.trace.take m)) :
    ∃ l before d st e, n ≤ l ∧ Reaches S before d ∧ d.trace = c.trace.take l ∧
      o = observeReplica S.codec ρ st e k v (d.state.store ρ).tables ∧ RowsGrow d.state c.state := by
  obtain ⟨l, -, hl⟩ := mem_callsOf_take hentry
  obtain ⟨before, d, t, e, hd, htake, -, hreply, hg⟩ := call_at h hl
  have hjl := ((Machine.run_keeps (meets S) h).called l j _ _ hl).1
  exact ⟨l, before, d, _, e, by omega, hd, htake, hreply, hg⟩

/-- A head observation shows the head of that moment. -/
theorem shown_head {d : Configuration S} {ρ : ReplicaId} {st : ReplicaStatus} {e : Env V} {k : String}
    {r : BlackboardRecordV1 V}
    (hs : Shows S.codec k none (observeReplica S.codec ρ st e k none (d.state.store ρ).tables) r) :
    r.recordVersion = head (d.state.store ρ).tables k := by
  obtain ⟨row, r', hrow, hload, hobs⟩ := observe_found e ρ hs.found
  have hr : r' = r := by
    have hrecord := hs.record
    rw [hobs] at hrecord
    simpa using hrecord
  subst hr
  obtain ⟨hform, -⟩ := rowToRecord_ok S.codec hload
  obtain ⟨-, -, hhead, -⟩ := readRow_some (d.state.store ρ).valid hrow
  exact (congrArg StagedRecord.recordVersion hform).trans (hhead rfl)

section Quorums

variable {D : Finset ReplicaId} {k : String} {v m n j q : Nat}

/-- A quorum that agrees on the head of the key after event `n` agrees on at least
the version that a majority had by then. -/
theorem latest_at_least (h : Reaches S as c) (hD : 2 ≤ D.card) (hv : ∀ ρ ∈ D, AtLeast c n ρ k v)
    (hj : n < j) (hq : 2 ≤ q) {r : BlackboardRecordV1 V}
    (hagree : Agreed S.codec (callsOf j (c.trace.take m)) k none q r) : v ≤ r.recordVersion := by
  obtain ⟨G, hG, hsame, -⟩ := hagree
  obtain ⟨ρ, hρD, hρG⟩ := majorities_meet (A := D) (B := G) (by omega)
  obtain ⟨o, s, hentry, hshow, -, hversion⟩ := hsame ρ hρG
  obtain ⟨l, before, d, st, e, hl, hd, htake, rfl, -⟩ := observed_after h hj hentry
  rw [← hversion, shown_head hshow]
  exact hv ρ hρD before d l hd htake hl

/-- Nor can a quorum confirm that the key is absent. -/
theorem latest_not_absent (h : Reaches S as c) (hload : Reloads S as) (hD : 2 ≤ D.card)
    (hv : ∀ ρ ∈ D, AtLeast c n ρ k v) (hpos : 1 ≤ v) (hj : n < j) (hq : 2 ≤ q) :
    ¬ Absent (callsOf j (c.trace.take m)) k none q := by
  rintro ⟨G, hG, hall⟩
  obtain ⟨ρ, hρD, hρG⟩ := majorities_meet (A := D) (B := G) (by omega)
  obtain ⟨o, hentry, hresponded, hfound⟩ := hall ρ hρG
  obtain ⟨l, before, d, st, e, hl, hd, htake, rfl, hg⟩ := observed_after h hj hentry
  have hhead := hv ρ hρD before d l hd htake hl
  have hvalid := (d.state.store ρ).valid
  have hrow : readRow (d.state.store ρ).tables k none =
      getCommittedRow (d.state.store ρ).tables k (head (d.state.store ρ).tables k) := by
    change getHeadRow _ k = _
    rw [hvalid.getHeadRow_eq, if_neg (by omega)]
  have hsome : (getCommittedRow (d.state.store ρ).tables k
      (head (d.state.store ρ).tables k)).isSome :=
    (hvalid.getCommittedRow_isSome k _).mpr ⟨by omega, le_rfl⟩
  rcases observe_absent e ρ hresponded hfound with hnone | ⟨row, msg, hread, herror⟩
  · rw [← hrow, hnone] at hsome
    cases hsome
  · -- the row is there, so it is a record of the run and loads
    rw [hrow] at hread
    obtain ⟨r, hr, hverified, hform⟩ :=
      (stored_forms h ρ).committed row (getCommittedRow_some (hg ρ k _ row hread)).1
    rw [hload r hr hverified row hform] at herror
    cases herror

end Quorums

/-! ## After a write -/

/-- A write reported `COMMITTED` leaves a majority at its version. -/
theorem committed_atLeast (h : Reaches S as c) {n i : Nat} {t : Request V} {res : WriteResultV1}
    (hn : c.trace[n]? = some (.finished i t (.write (.ok res)))) {r : BlackboardRecordV1 V}
    (hr : proposedRecord S t = some r) (hc : res.outcome = .committed) :
    ∃ D : Finset ReplicaId, 2 ≤ D.card ∧ ∀ ρ ∈ D, AtLeast c n ρ r.recordKey r.recordVersion ∧
      HoldsId c.state ρ r.recordKey r.recordVersion r.recordId := by
  obtain ⟨-, hcount, -⟩ := finished_write h hn hr
  rw [hc] at hcount
  refine ⟨durableOn (callsOf i (c.trace.take n)) r, ?_, ?_⟩
  · cases hcount with
    | committed _ htwo => exact htwo
    | rejected _ _ hne _ _ => exact absurd rfl hne
  · intro ρ hρ
    refine ⟨?_, durable_holdsId h hρ⟩
    obtain ⟨op, ack, hm, hs⟩ := (mem_durableOn).mp hρ
    obtain ⟨m, hlt, hm⟩ := mem_callsOf_take hm
    exact atLeast_of_commit hm hlt hs

/-- A record read as authoritative at the version of a `COMMITTED` write is the
record of that write. -/
theorem version_is_committed (h : Reaches S as c) (hid : IdsIdentify S as) (hload : Reloads S as)
    {r s : BlackboardRecordV1 V} (hr : Named S as r) {D : Finset ReplicaId} (hD : 2 ≤ D.card)
    (hholds : ∀ ρ ∈ D, HoldsId c.state ρ r.recordKey r.recordVersion r.recordId) {j m q : Nat}
    (hq : 2 ≤ q) (hagree : Agreed S.codec (callsOf j (c.trace.take m)) r.recordKey
      (some r.recordVersion) q s) : s = r := by
  obtain ⟨G, hG, hsame, ρ', -, o', hentry', hshow'⟩ := hagree
  obtain ⟨ρ, hρD, hρG⟩ := majorities_meet (A := D) (B := G) (by omega)
  obtain ⟨o, s', hentry, hshow, hids, -⟩ := hsame ρ hρG
  have htrace : ∀ {ρ o}, entry (.observe ρ r.recordKey (some r.recordVersion)) o ∈
      callsOf j (c.trace.take m) →
      madeCall j (.observe ρ r.recordKey (some r.recordVersion)) o ∈ c.trace := by
    intro ρ o he
    obtain ⟨l, -, hl⟩ := mem_callsOf_take he
    exact List.mem_of_getElem? hl
  -- the replica of both majorities shows the identity that the write left there
  have hsid : s.recordId = r.recordId := by
    obtain ⟨row, hrow, hrid⟩ := (leaves h (htrace hentry) s' hshow).holds.holdsId
    obtain ⟨row', hrow', hrid'⟩ := hholds ρ hρD
    rw [hshow.key, hshow.asked _ rfl, hrow', Option.some.injEq] at hrow
    subst hrow
    rw [← hids, ← hrid, hrid']
  obtain ⟨row, hrow, hrload⟩ := leaves h (htrace hentry') s hshow'
  obtain ⟨r', hr', hverified, hform⟩ :=
    (stored_forms h ρ').committed row (getCommittedRow_some hrow).1
  have hsame' : r' = r := by
    apply hid r' r hr' hr
    rw [← hsid]
    have hs : row.recordId = s.recordId :=
      (congrArg StagedRecord.recordId (rowToRecord_ok S.codec hrload).1).symm
    rw [← hs]
    exact (congrArg StagedRecord.recordId hform).symm
  rw [hload r' hr' hverified row hform, hsame', Except.ok.injEq] at hrload
  exact hrload.symm

/-- An authoritative read of the head leaves a majority at its version. -/
theorem read_atLeast {n i q : Nat} {k : String} {r : BlackboardRecordV1 V}
    (hagree : Agreed S.codec (callsOf i (c.trace.take n)) k none q r) (hq : 2 ≤ q) :
    ∃ D : Finset ReplicaId, 2 ≤ D.card ∧ ∀ ρ ∈ D, AtLeast c n ρ k r.recordVersion := by
  obtain ⟨G, hG, hsame, -⟩ := hagree
  refine ⟨G, by omega, ?_⟩
  intro ρ hρ
  obtain ⟨o, s, hentry, hshow, -, hversion⟩ := hsame ρ hρ
  obtain ⟨m, hlt, hm⟩ := mem_callsOf_take hentry
  rw [← hversion]
  exact atLeast_of_observe hm hlt hshow

/-- In every run with majority quorums and untampered storage: after a write was
reported `COMMITTED`, a later read of the head that is authoritative returns at
least its version, none reports the key absent, and an authoritative read of its
version returns its record; and the versions of successive authoritative reads of
the head do not decrease. -/
theorem reads_after_commit (h : Reaches S as c) (hid : IdsIdentify S as) (hload : Reloads S as)
    (hq : MajorityQuorums c.trace) :
    (∀ (n i : Nat) t r res, c.trace[n]? = some (.finished i t (.write (.ok res))) →
      proposedRecord S t = some r → res.outcome = .committed →
      ∀ (m j : Nat) u out, c.trace[m]? = some (.finished j u (.read out)) → n < j →
        (Asks u r.recordKey none → out.outcome ≠ .notFound ∧
          (Authoritative out → ∃ s, out.record = some s ∧ r.recordVersion ≤ s.recordVersion)) ∧
        (Asks u r.recordKey (some r.recordVersion) → Authoritative out → out.record = some r)) ∧
    ∀ k (n i : Nat) t out (m j : Nat) u out', c.trace[n]? = some (.finished i t (.read out)) →
      c.trace[m]? = some (.finished j u (.read out')) → n < j → Asks t k none → Asks u k none →
      Authoritative out → Authoritative out' →
      ∃ s s', out.record = some s ∧ out'.record = some s' ∧ s.recordVersion ≤ s'.recordVersion := by
  constructor
  · intro n i t r res hn hr hc m j u out hm hj
    obtain ⟨D, hD, hall⟩ := committed_atLeast h hn hr hc
    have hv : ∀ ρ ∈ D, AtLeast c n ρ r.recordKey r.recordVersion := fun ρ hρ => (hall ρ hρ).1
    constructor
    · intro hask
      obtain ⟨hstart, hread⟩ := finished_read h hm hask
      have hq2 := hq u (List.mem_of_getElem? hstart)
      constructor
      · intro hnone
        obtain ⟨ρ, hρ⟩ : D.Nonempty := Finset.card_pos.mp (by omega)
        exact latest_not_absent h hload hD hv (hall ρ hρ).2.bounds.1 hj hq2 (hread.absent hnone)
      · intro hauth
        obtain ⟨s, hs, hagree⟩ := hread.authoritative hauth
        exact ⟨s, hs, latest_at_least h hD hv hj hq2 hagree⟩
    · intro hask hauth
      obtain ⟨hstart, hread⟩ := finished_read h hm hask
      obtain ⟨s, hs, hagree⟩ := hread.authoritative hauth
      have hnamed := named_of_finished h (List.mem_of_getElem? hn) hr
      rw [hs, version_is_committed h hid hload hnamed hD (fun ρ hρ => (hall ρ hρ).2)
        (hq u (List.mem_of_getElem? hstart)) hagree]
  · intro k n i t out m j u out' hn hm hj hask hask' hauth hauth'
    obtain ⟨hstart, hread⟩ := finished_read h hn hask
    obtain ⟨hstart', hread'⟩ := finished_read h hm hask'
    obtain ⟨s, hs, hagree⟩ := hread.authoritative hauth
    obtain ⟨s', hs', hagree'⟩ := hread'.authoritative hauth'
    obtain ⟨D, hD, hv⟩ := read_atLeast hagree (hq t (List.mem_of_getElem? hstart))
    exact ⟨s, s', hs, hs', latest_at_least h hD hv hj (hq u (List.mem_of_getElem? hstart')) hagree'⟩

/-- The event is an authoritative answer to a head read that started after `n`. -/
def answersLatest (n : Nat) (k : String) : LogEvent V → Bool
  | .finished j u (.read out) =>
    n < j && (out.outcome = .consistent || out.outcome = .degradedConsistent) &&
      match u.command with
      | .read _ key version => key = k && version = none
      | _ => false
  | _ => false

theorem answersLatest_cases {n : Nat} {k : String} {x : LogEvent V} (h : answersLatest n k x = true) :
    ∃ j u out, x = .finished j u (.read out) ∧ n < j ∧ Asks u k none ∧ Authoritative out := by
  unfold answersLatest at h
  split at h
  · rename_i j u out
    simp only [Bool.and_eq_true, Bool.or_eq_true, decide_eq_true_eq] at h
    obtain ⟨⟨hj, hauth⟩, hcmd⟩ := h
    split at hcmd
    · rename_i principal key version hread
      simp only [Bool.and_eq_true, decide_eq_true_eq] at hcmd
      obtain ⟨rfl, rfl⟩ := hcmd
      exact ⟨j, u, out, rfl, hj, ⟨principal, hread⟩, hauth⟩
    · cases hcmd
  · cases h

/-- A write that commits everywhere, and a read after it. -/
def devReadRun : List (Step String) :=
  devCommitRun ++ [devRead (devCoordinator 1 1 2 devQuorum_pos) "bbr-1"] ++ calls 8 3 0 ++ [.finish 8]

theorem reads_after_commit_dev : ∃ c j u out s, Reaches devSystem devReadRun c ∧
    c.trace[12]? = some (.finished j u (.read out)) ∧ Authoritative out ∧
    out.record = some s ∧ (devRecord 1 1).recordVersion ≤ s.recordVersion := by
  obtain ⟨c, hc, hcheck⟩ := reaches_of_any devSystem devReadRun
    (fun c => c.trace[7]?.any (reports devSystem (devRecord 1 1) .committed) &&
      c.trace[12]?.any (answersLatest 7 "dev") && decide (UniformQuorum 2 c.trace)) (by decide)
  simp only [Bool.and_eq_true, decide_eq_true_eq, Option.any_eq_true] at hcheck
  obtain ⟨⟨⟨x, hx, hrep⟩, y, hy, hans⟩, hq⟩ := hcheck
  obtain ⟨i, t, res, rfl, hr, ho⟩ := reports_cases hrep
  obtain ⟨j, u, out, rfl, hj, hask, hauth⟩ := answersLatest_cases hans
  have hid : IdsIdentify devSystem devReadRun := by decide
  have hload : Reloads devSystem devReadRun := reloads_of_all (by decide)
  have hmajority : MajorityQuorums c.trace := fun v hv => (hq v hv).ge
  obtain ⟨s, hs, hle⟩ := (((reads_after_commit hc hid hload hmajority).1 7 i t _ res hx hr ho
    12 j u out hy hj).1 hask).2 hauth
  exact ⟨c, j, u, out, s, hc, hy, hauth, hs, hle⟩

/-! ## Where an authoritative record comes from -/

/-- Some call of the trace reported `COMMITTED` for this stored form. -/
def ReportedCommitted (S : System V) (tr : Trace V) (form : StagedRecord) : Prop :=
  ∃ i t s res, Event.finished i t (.write (.ok res)) ∈ tr ∧ proposedRecord S t = some s ∧
    res.outcome = .committed ∧ fullRecordJson S.codec s = form

/-- A call that has returned had its quorum of commits of this identity, and never
less than two, acknowledged to itself. -/
def QuorumInOneCall (S : System V) (tr : Trace V) (id : String) : Prop :=
  ∃ i t s out, Event.finished i t (.write out) ∈ tr ∧ proposedRecord S t = some s ∧
    s.recordId = id ∧ t.coordinator.settings.quorumSize ≤ (durableOn (callsOf i tr) s).card ∧
    2 ≤ (durableOn (callsOf i tr) s).card

/-- The replicas that agree on a record hold its identity through a quorum of
acknowledged commits, to whichever calls. -/
theorem agreed_committers (h : Reaches S as c) {q j m : Nat} (hq : UniformQuorum q c.trace) {k : String}
    {v : Option Nat} {r : BlackboardRecordV1 V}
    (hagree : Agreed S.codec (callsOf j (c.trace.take m)) k v q r) :
    q ≤ (committers c.trace r.recordId).card := by
  obtain ⟨G, hG, hsame, -⟩ := hagree
  refine quorum_of_accounted hG ?_
  intro ρ hρ
  obtain ⟨o, s, hentry, hshow, hids, -⟩ := hsame ρ hρ
  obtain ⟨l, -, hl⟩ := mem_callsOf_take hentry
  obtain ⟨row, hrow, hrid⟩ := (leaves h (List.mem_of_getElem? hl) s hshow).holds.holdsId
  rw [← hids, ← hrid]
  exact rows_accounted h hq hrow

/-- A record that a read shows has the stored form of the run's record with its
identity. -/
theorem shown_form (h : Reaches S as c) (hid : IdsIdentify S as) {ρ : ReplicaId}
    {r s : BlackboardRecordV1 V} (hr : Loads c.state ρ r) (hs : Named S as s)
    (hids : s.recordId = r.recordId) : fullRecordJson S.codec s = fullRecordJson S.codec r := by
  obtain ⟨row, hrow, hload⟩ := hr
  obtain ⟨r', hr', -, hform⟩ := (stored_forms h ρ).committed row (getCommittedRow_some hrow).1
  have hrow' := (rowToRecord_ok S.codec hload).1
  have hsame : r' = s := by
    apply hid r' s hr' hs
    rw [hids]
    exact congrArg StagedRecord.recordId (hform.symm.trans hrow'.symm)
  rw [hrow', hform, hsame]

/-- A call with a quorum of acknowledged commits reports `COMMITTED`. -/
theorem quorum_reports (h : Reaches S as c) {n i : Nat} {t : Request V}
    {out : Except String WriteResultV1} (hn : c.trace[n]? = some (.finished i t (.write out)))
    {s : BlackboardRecordV1 V} (hs : proposedRecord S t = some s)
    (hcard : t.coordinator.settings.quorumSize ≤ (durableOn (callsOf i c.trace) s).card)
    (htwo : 2 ≤ (durableOn (callsOf i c.trace) s).card) :
    ∃ res, out = .ok res ∧ res.outcome = .committed := by
  obtain ⟨-, hreturn⟩ := finished_write h hn hs
  have hsub : durableOn (callsOf i c.trace) s ⊆ durableOn (callsOf i (c.trace.take n)) s := by
    intro ρ hρ
    obtain ⟨op, ack, hm, hack⟩ := (mem_durableOn).mp hρ
    exact durable_of_commitAcked h hn ⟨op, ack, (mem_callsOf).mp hm, hack⟩
  have hle := Finset.card_le_card hsub
  cases out with
  | error e =>
    have := hreturn.2
    omega
  | ok res =>
    refine ⟨res, rfl, ?_⟩
    obtain ⟨hcount, -⟩ := hreturn
    generalize res.outcome = o at hcount
    cases hcount with
    | committed _ _ => rfl
    | partialCommit hone _ => omega
    | failedStorage _ hlt _ => omega
    | rejected _ hnone _ _ _ =>
      have hzero := hnone.durable_card s
      omega

/-- One content is proposed twice and each call commits it on one replica only: the
first on `replica_a`, the second, which finds the first's row there, on `replica_b`.
Then the head is read. -/
def devTwicePartialRun : List (Step String) :=
  let q := devCoordinator 0 0 2 devQuorum_pos
  [devPropose q "bbw-1" 1 1] ++ calls 0 4 0 ++ failedCall 0 0 ++ calls 0 1 0 ++ failedCall 0 0 ++
    calls 0 1 0 ++ [.finish 0] ++
  [devPropose q "bbw-2" 1 1] ++ calls 10 4 0 ++ failedCall 10 0 ++ calls 10 2 0 ++ [.finish 10] ++
  [devRead q "bbr-1"] ++ calls 19 4 0 ++ [.finish 19]

/-- Every write of the trace that has returned reported `PARTIAL_COMMIT`. -/
def onlyPartial : LogEvent V → Bool
  | .finished _ _ (.write (.ok res)) => res.outcome = .partialCommit
  | .finished _ _ (.write (.error _)) => false
  | _ => true

/-- The last read returns the record, of fewer replicas than it asked. -/
def readsFirst : LogEvent String → Bool
  | .finished j _ (.read out) => decide (j = 19) && decide (out.outcome = .degradedConsistent) &&
      decide (out.record = some (devRecord 1 1))
  | _ => false

end BlackboardReads
