import AgenticSoc.BlackboardTrace

/-!
# Agreement and the meaning of write outcomes

A `COMMITTED` result rests on acknowledged commits, each of which has left its row,
so two of them for one slot share a replica and with it the record. What the other
outcomes say about the stores depends on who else may have put the record there:
every committed row stems from an acknowledged commit of its record, or from a
repair, and a repair needs a quorum of such rows.
-/
namespace BlackboardAgreement

open BlackboardRecord BlackboardStorage BlackboardReplica BlackboardCoordinator BlackboardSystem
open BlackboardProtocol BlackboardTrace Interaction Interleaving

variable {V : Type} {S : System V} {as : List (Step V)} {c : Configuration S}

/-! ## What a finished write has done -/

/-- The contract of a write that has returned. -/
theorem finished_write (h : Reaches S as c) {i n : Nat} {t : Request V} {out : Except String WriteResultV1}
    (hn : c.trace[n]? = some (.finished i t (.write out))) {r : BlackboardRecordV1 V}
    (hr : proposedRecord S t = some r) :
    c.trace[i]? = some (.started t) ∧
      MayReturnWrite t.coordinator.settings.quorumSize r (callsOf i (c.trace.take n)) out := by
  obtain ⟨-, hstart, hpost, -⟩ := (Machine.run_keeps (meets S) h).finished n i t _ hn
  refine ⟨hstart, ?_⟩
  have hmay : MayReturn S t (.write out) (callsOf i (c.trace.take n)) := hpost
  unfold MayReturn at hmay
  cases hcmd : t.command with
  | propose proposal principal => simpa only [hcmd, hr] using hmay
  | read principal k v => simp [hcmd] at hmay
  | resync principal k targets => simp [hcmd] at hmay

/-- The record of a write that has returned is named in the run. -/
theorem named_of_finished (h : Reaches S as c) {i : Nat} {t : Request V}
    {out : Except String WriteResultV1} (hf : Event.finished i t (.write out) ∈ c.trace)
    {r : BlackboardRecordV1 V} (hr : proposedRecord S t = some r) : Named S as r := by
  obtain ⟨n, hn⟩ := List.getElem?_of_mem hf
  exact named_of_mem (started_mem h (finished_write h hn hr).1) hr

/-- An acknowledged commit in a task's history has left the record's identity. -/
theorem durable_holdsId (h : Reaches S as c) {i n : Nat} {r : BlackboardRecordV1 V} {ρ : ReplicaId}
    (hd : ρ ∈ durableOn (callsOf i (c.trace.take n)) r) :
    HoldsId c.state ρ r.recordKey r.recordVersion r.recordId := by
  obtain ⟨op, ack, hm, hs⟩ := (mem_durableOn).mp hd
  obtain ⟨m, -, he⟩ := mem_callsOf_take hm
  exact leaves h (List.mem_of_getElem? he) hs

/-- Where ids identify content, a row with a record's identity is that record. -/
theorem holds_of_holdsId (h : Reaches S as c) (hid : IdsIdentify S as) {ρ : ReplicaId} {k : String}
    {v : Nat} {r : BlackboardRecordV1 V} (hr : Named S as r) (hh : HoldsId c.state ρ k v r.recordId) :
    Holds c.state ρ r := by
  obtain ⟨row, hrow, hrid⟩ := hh
  obtain ⟨hmem, hkey, hversion⟩ := getCommittedRow_some hrow
  obtain ⟨r', hr', -, hform⟩ := (stored_forms h ρ).committed row hmem
  have hsame : r' = r := by
    apply hid r' r hr' hr
    rw [← hrid]
    exact (congrArg StagedRecord.recordId hform).symm
  subst hsame
  refine ⟨row, ?_, hform⟩
  have hk : r'.recordKey = k := (congrArg StagedRecord.recordKey hform).symm.trans hkey
  have hv : r'.recordVersion = v := (congrArg StagedRecord.recordVersion hform).symm.trans hversion
  rw [hk, hv]
  exact hrow

/-- The replicas that acknowledged a call's commits hold its record. -/
theorem durable_subset_holders (h : Reaches S as c) (hid : IdsIdentify S as)
    {r : BlackboardRecordV1 V} (hr : Named S as r) {i n : Nat} :
    durableOn (callsOf i (c.trace.take n)) r ⊆ holders c.state r := by
  intro ρ hρ
  exact (mem_holders).mpr (holds_of_holdsId h hid hr (durable_holdsId h hρ))

/-- The replicas behind a `COMMITTED` result hold its record. -/
theorem committed_holders (h : Reaches S as c) (hid : IdsIdentify S as) {i : Nat} {t : Request V}
    {r : BlackboardRecordV1 V} {res : WriteResultV1}
    (hf : Event.finished i t (.write (.ok res)) ∈ c.trace) (hr : proposedRecord S t = some r)
    (hc : res.outcome = .committed) :
    t.coordinator.settings.quorumSize ≤ (holders c.state r).card ∧ 2 ≤ (holders c.state r).card := by
  obtain ⟨n, hn⟩ := List.getElem?_of_mem hf
  obtain ⟨-, hcount, -⟩ := finished_write h hn hr
  have hsub := durable_subset_holders h hid (named_of_finished h hf hr) (n := n) (i := i)
  have hle := Finset.card_le_card hsub
  rw [hc] at hcount
  cases hcount with
  | committed hq htwo => omega
  | rejected _ _ hne _ _ => exact absurd rfl hne

/-- In every run, a write reported `COMMITTED` is held by at least its quorum of
replicas, and two writes reported `COMMITTED` for one key and version are of one
record. -/
theorem committed_agreement (h : Reaches S as c) (hid : IdsIdentify S as) :
    (∀ i t r res, Event.finished i t (.write (.ok res)) ∈ c.trace → proposedRecord S t = some r →
      res.outcome = .committed →
      t.coordinator.settings.quorumSize ≤ (holders c.state r).card) ∧
    ∀ i t r res j u s res', Event.finished i t (.write (.ok res)) ∈ c.trace →
      Event.finished j u (.write (.ok res')) ∈ c.trace → proposedRecord S t = some r →
      proposedRecord S u = some s → res.outcome = .committed → res'.outcome = .committed →
      r.recordKey = s.recordKey → r.recordVersion = s.recordVersion → r = s := by
  constructor
  · intro i t r res hf hr hc
    exact (committed_holders h hid hf hr hc).1
  · intro i t r res j u s res' hf hf' hr hs hc hc' hkey hver
    have htwo := (committed_holders h hid hf hr hc).2
    have htwo' := (committed_holders h hid hf' hs hc').2
    obtain ⟨ρ, hρ, hρ'⟩ := majorities_meet (A := holders c.state r) (B := holders c.state s) (by omega)
    obtain ⟨row, hrow, hform⟩ := (mem_holders).mp hρ
    obtain ⟨row', hrow', hform'⟩ := (mem_holders).mp hρ'
    rw [hkey, hver, hrow', Option.some.injEq] at hrow
    subst hrow
    apply hid r s (named_of_finished h hf hr) (named_of_finished h hf' hs)
    exact congrArg StagedRecord.recordId (hform.symm.trans hform')

def devCommitRun : List (Step String) :=
  [devPropose (devCoordinator 0 0 2 devQuorum_pos) "bbw-1" 1 1] ++ calls 0 6 0 ++ [.finish 0]

theorem committed_agreement_dev : ∃ c i t res, Reaches devSystem devCommitRun c ∧
    Event.finished i t (.write (.ok res)) ∈ c.trace ∧
    proposedRecord devSystem t = some (devRecord 1 1) ∧ res.outcome = .committed ∧
    t.coordinator.settings.quorumSize ≤ (holders c.state (devRecord 1 1)).card := by
  obtain ⟨c, hc, hcheck⟩ := reaches_of_any devSystem devCommitRun
    (fun c => c.trace.any (reports devSystem (devRecord 1 1) .committed)) (by decide)
  obtain ⟨x, hx, hrep⟩ := List.any_eq_true.mp hcheck
  obtain ⟨i, t, res, rfl, hr, ho⟩ := reports_cases hrep
  have hid : IdsIdentify devSystem devCommitRun := by decide
  exact ⟨c, i, t, res, hc, hx, hr, ho, (committed_agreement hc hid).1 i t _ res hx hr ho⟩

/-! ## Where committed rows come from -/

/-- Replica `ρ` acknowledged a commit of a record with this identity, sent by call `j`. -/
def CommitAcked (tr : Trace V) (j : Nat) (ρ : ReplicaId) (s : BlackboardRecordV1 V) : Prop :=
  ∃ op ack, madeCall j (.commit ρ op s) ack ∈ tr ∧ ack.ackStatus = .ackCommitted

open Classical in
/-- The replicas that acknowledged a commit of a record with this identity. -/
noncomputable def committers (tr : Trace V) (id : String) : Finset ReplicaId :=
  Finset.univ.filter fun ρ => ∃ j s, CommitAcked tr j ρ s ∧ s.recordId = id

theorem mem_committers {tr : Trace V} {id : String} {ρ : ReplicaId} :
    ρ ∈ committers tr id ↔ ∃ j s, CommitAcked tr j ρ s ∧ s.recordId = id := by
  simp [committers]

theorem committers_concat (tr : Trace V) (x : LogEvent V)
    (id : String) : committers tr id ⊆ committers (tr ++ [x]) id := by
  intro ρ hρ
  obtain ⟨j, s, ⟨op, ack, hm, hs⟩, hid⟩ := (mem_committers).mp hρ
  exact (mem_committers).mpr ⟨j, s, ⟨op, ack, List.mem_append_left _ hm, hs⟩, hid⟩

/-- Events other than commits leave the committers as they are. -/
theorem committers_skip (tr : Trace V) (x : LogEvent V) {id : String}
    (hx : ∀ j ρ op s ack, x ≠ madeCall j (.commit ρ op s) ack) :
    committers (tr ++ [x]) id = committers tr id := by
  refine Finset.Subset.antisymm ?_ (committers_concat tr x id)
  intro ρ hρ
  obtain ⟨j, s, ⟨op, ack, hm, hs⟩, hid⟩ := (mem_committers).mp hρ
  rcases List.mem_append.mp hm with hm | hm
  · exact (mem_committers).mpr ⟨j, s, ⟨op, ack, hm, hs⟩, hid⟩
  · exact absurd (List.mem_singleton.mp hm).symm (hx j ρ op s ack)

/-- All calls of the run use one quorum size. -/
def UniformQuorum (q : Nat) (tr : Trace V) : Prop :=
  ∀ t, Event.started t ∈ tr → t.coordinator.settings.quorumSize = q

instance (q : Nat) (tr : Trace V) : Decidable (UniformQuorum q tr) :=
  decidable_of_iff (tr.all (fun x => match x with
    | .started t => t.coordinator.settings.quorumSize = q
    | _ => true) = true) (by
      rw [List.all_eq_true]
      constructor
      · intro h t ht
        simpa using h _ ht
      · intro h x hx
        cases x with
        | started t => simpa using h t hx
        | called i p a => rfl
        | finished i t a => rfl
        | operated o => rfl)

/-- A row accounted for: its replica acknowledged the commit, or a quorum did. -/
def Accounted (q : Nat) (tr : Trace V) (ρ : ReplicaId) (id : String) : Prop :=
  ρ ∈ committers tr id ∨ q ≤ (committers tr id).card

theorem Accounted.concat {q : Nat} {tr : Trace V} {ρ : ReplicaId} {id : String}
    (h : Accounted q tr ρ id) (x : LogEvent V) :
    Accounted q (tr ++ [x]) ρ id := by
  have hsub := committers_concat tr x id
  rcases h with h | h
  · exact .inl (hsub h)
  · exact .inr (h.trans (Finset.card_le_card hsub))

/-- A group of accounted replicas as large as a quorum is accounted for by commits. -/
theorem quorum_of_accounted {q : Nat} {tr : Trace V} {id : String} {G : Finset ReplicaId}
    (hG : q ≤ G.card) (h : ∀ ρ ∈ G, Accounted q tr ρ id) : q ≤ (committers tr id).card := by
  by_cases hall : G ⊆ committers tr id
  · exact hG.trans (Finset.card_le_card hall)
  · rw [Finset.not_subset] at hall
    obtain ⟨ρ, hρ, hnot⟩ := hall
    exact (h ρ hρ).resolve_left hnot

/-- Every committed row is accounted for by the commits of the run. -/
theorem rows_accounted {q : Nat} (h : Reaches S as c) (hq : UniformQuorum q c.trace)
    {ρ : ReplicaId} {k : String} {v : Nat} {row : CommittedRow}
    (hrow : getCommittedRow (c.state.store ρ).tables k v = some row) :
    Accounted q c.trace ρ row.recordId := by
  have hall : UniformQuorum q c.trace → ∀ ρ k v row,
      getCommittedRow (c.state.store ρ).tables k v = some row →
        Accounted q c.trace ρ row.recordId := by
    refine Machine.run_shared (meets S) (J := fun sh => UniformQuorum q sh.trace → ∀ ρ k v row,
      getCommittedRow (sh.state.store ρ).tables k v = some row → Accounted q sh.trace ρ row.recordId)
      (P := fun _ _ => True) ?_ ?_ ?_ ?_ ((machine S).along_of_forall (fun _ _ _ => trivial) _) h ?_
    · intro d t _ hj hu ρ k v row hr
      exact (hj (fun t ht => hu t (List.mem_append_left _ ht)) ρ k v row hr).concat _
    · intro before d i e t p k hd _ _ ht hpre hj hu ρ k' v row hr
      have hu' : UniformQuorum q d.trace := fun t ht => hu t (List.mem_append_left _ ht)
      rcases exec_rows t.coordinator.site p e d.state ρ hr with hold | ⟨op, r, ack, he, hack, -, -, hid⟩ |
        ⟨op, r, ack, he, -, -, -, hid⟩
      · exact (hj hu' ρ k' v row hold).concat _
      · cases he
        refine .inl ((mem_committers).mpr ⟨i, r, ⟨op, _, List.mem_append_right _ ?_, hack⟩, hid.symm⟩)
        exact List.mem_singleton.mpr rfl
      · cases he
        -- a repair starts from a quorum of rows that were accounted for before
        have hcall : MayCall S t (.upsertExternal ρ op r) (callsOf i d.trace) := hpre
        unfold MayCall at hcall
        cases hcmd : t.command with
        | propose proposal principal => simp [hcmd] at hcall
        | read principal key version => simp [hcmd] at hcall
        | resync principal key targets =>
          simp only [hcmd, hu' t (List.mem_of_getElem? ht)] at hcall
          obtain ⟨-, G, hG, hsame, -⟩ := hcall
          have hquorum : q ≤ (committers d.trace r.recordId).card := by
            refine quorum_of_accounted hG ?_
            intro ρ' hρ'
            obtain ⟨o, s, hentry, hshow, hsid, -⟩ := hsame ρ' hρ'
            obtain ⟨row', hrow', hid'⟩ := (leaves hd ((mem_callsOf).mp hentry) s hshow).holds.holdsId
            rw [← hsid, ← hid']
            exact hj hu' ρ' _ _ row' hrow'
          rw [hid]
          exact (Accounted.concat (.inr hquorum) _ : Accounted q _ ρ r.recordId)
    · intro d i t a _ hj hu ρ k v row hr
      exact (hj (fun t ht => hu t (List.mem_append_left _ ht)) ρ k v row hr).concat _
    · intro d o _ hj hu ρ k v row hr
      have hr' : getCommittedRow (d.state.store ρ).tables k v = some row := by
        rw [← operate_store d.state o]
        exact hr
      exact (hj (fun t ht => hu t (List.mem_append_left _ ht)) ρ k v row hr').concat _
    · intro _ ρ k v row hr
      cases hr
  exact hall hq ρ k v row hrow

/-! ## Outcomes -/

/-- What a returned call has committed is all that the trace holds of its commits. -/
theorem durable_of_commitAcked (h : Reaches S as c) {n i : Nat} {t : Request V} {a : Result V}
    (hn : c.trace[n]? = some (.finished i t a)) {ρ : ReplicaId} {s : BlackboardRecordV1 V}
    (hc : CommitAcked c.trace i ρ s) : ρ ∈ durableOn (callsOf i (c.trace.take n)) s := by
  obtain ⟨op, ack, hm, hs⟩ := hc
  obtain ⟨m, hm⟩ := List.getElem?_of_mem hm
  obtain ⟨-, -, -, hlast⟩ := (Machine.run_keeps (meets S) h).finished n i t a hn
  have hlt : m < n := hlast m _ _ hm
  refine (mem_durableOn).mpr ⟨op, ack, (mem_callsOf).mpr ?_, hs⟩
  apply List.mem_of_getElem? (i := m)
  rw [List.getElem?_take_of_lt hlt]
  exact hm

/-- Replica `ρ` acknowledged a commit or a repair with a record of this identity. -/
def WriteAcked (tr : Trace V) (ρ : ReplicaId) (id : String) : Prop :=
  ∃ j op s ack, (madeCall j (.commit ρ op s) ack ∈ tr ∨ madeCall j (.upsertExternal ρ op s) ack ∈ tr) ∧
    ack.ackStatus = .ackCommitted ∧ s.recordId = id

theorem WriteAcked.concat {tr : Trace V} {ρ : ReplicaId} {id : String} (h : WriteAcked tr ρ id)
    (x : LogEvent V) : WriteAcked (tr ++ [x]) ρ id := by
  obtain ⟨j, op, s, ack, hm, hs, hid⟩ := h
  exact ⟨j, op, s, ack, hm.imp (List.mem_append_left _) (List.mem_append_left _), hs, hid⟩

open Classical in
/-- The replicas that acknowledged a commit or a repair with a record of this
identity, to whichever call. -/
noncomputable def writers (tr : Trace V) (id : String) : Finset ReplicaId :=
  Finset.univ.filter fun ρ => WriteAcked tr ρ id

theorem mem_writers {tr : Trace V} {id : String} {ρ : ReplicaId} :
    ρ ∈ writers tr id ↔ WriteAcked tr ρ id := by
  simp [writers]

/-- Events other than calls leave the writers as they are. -/
theorem writers_skip (tr : Trace V) (x : LogEvent V) {id : String}
    (hx : ∀ i p a, x ≠ .called i p a) : writers (tr ++ [x]) id = writers tr id := by
  ext ρ
  rw [mem_writers, mem_writers]
  constructor
  · rintro ⟨j, op, s, ack, hm, hs, hid⟩
    refine ⟨j, op, s, ack, ?_, hs, hid⟩
    refine hm.imp ?_ ?_
    · intro hm
      exact (List.mem_append.mp hm).resolve_right fun he => hx _ _ _ (List.mem_singleton.mp he).symm
    · intro hm
      exact (List.mem_append.mp hm).resolve_right fun he => hx _ _ _ (List.mem_singleton.mp he).symm
  · intro h
    exact h.concat x

/-- Every committed row was acknowledged to some call. -/
theorem rows_acked (h : Reaches S as c) {ρ : ReplicaId} {k : String} {v : Nat} {row : CommittedRow}
    (hrow : getCommittedRow (c.state.store ρ).tables k v = some row) :
    WriteAcked c.trace ρ row.recordId := by
  have hall : ∀ ρ k v row, getCommittedRow (c.state.store ρ).tables k v = some row →
      WriteAcked c.trace ρ row.recordId := by
    refine Machine.run_shared (meets S) (J := fun sh => ∀ ρ k v row,
      getCommittedRow (sh.state.store ρ).tables k v = some row → WriteAcked sh.trace ρ row.recordId)
      (P := fun _ _ => True) ?_ ?_ ?_ ?_ ((machine S).along_of_forall (fun _ _ _ => trivial) _) h ?_
    · intro d t _ hj ρ k v row hr
      exact (hj ρ k v row hr).concat _
    · intro before d i e t p k _ _ _ _ _ hj ρ k' v row hr
      rcases exec_rows t.coordinator.site p e d.state ρ hr with hold | ⟨op, r, ack, he, hack, -, -, hid⟩ |
        ⟨op, r, ack, he, hack, -, -, hid⟩
      · exact (hj ρ k' v row hold).concat _
      · cases he
        exact ⟨i, op, r, _, .inl (List.mem_append_right _ (List.mem_singleton.mpr rfl)), hack, hid.symm⟩
      · cases he
        exact ⟨i, op, r, _, .inr (List.mem_append_right _ (List.mem_singleton.mpr rfl)), hack, hid.symm⟩
    · intro d i t a _ hj ρ k v row hr
      exact (hj ρ k v row hr).concat _
    · intro d o _ hj ρ k v row hr
      have hr' : getCommittedRow (d.state.store ρ).tables k v = some row := by
        rw [← operate_store d.state o]
        exact hr
      exact (hj ρ k v row hr').concat _
    · intro ρ k v row hr
      cases hr
  exact hall ρ k v row hrow

/-- The replicas that hold a record are those that acknowledged a write of it. -/
theorem holders_eq_writers (h : Reaches S as c) (hid : IdsIdentify S as) {r : BlackboardRecordV1 V}
    (hr : Named S as r) : holders c.state r = writers c.trace r.recordId := by
  ext ρ
  rw [mem_holders, mem_writers]
  constructor
  · intro hh
    obtain ⟨row, hrow, hrid⟩ := hh.holdsId
    rw [← hrid]
    exact rows_acked h hrow
  · rintro ⟨j, op, s, ack, hm, hs, hsid⟩
    have hleft : HoldsId c.state ρ s.recordKey s.recordVersion s.recordId := by
      rcases hm with hm | hm
      · exact leaves h hm hs
      · exact leaves h hm hs
    rw [hsid] at hleft
    exact holds_of_holdsId h hid hr hleft

/-- What an outcome says about the replicas that hold the record. -/
structure Faithful {cd : RecordCodec V} (q : Nat) (w : World cd) (r : BlackboardRecordV1 V)
    (o : WriteOutcome) : Prop where
  failedStorage : o = .failedStorage → holders w r = ∅
  partialCommit : o = .partialCommit → 1 ≤ (holders w r).card ∧ (holders w r).card < q
  committed : o = .committed → q ≤ (holders w r).card

/-- A call that sends commits and is left below the quorum by its own
acknowledgements got exactly one, and with those of other calls for the record there
are still fewer than the quorum, or no write of the record was acknowledged to
anyone. -/
def AcksTellAll (q : Nat) (tr : Trace V) (i : Nat) (r : BlackboardRecordV1 V) : Prop :=
  ¬ NoCommits (callsOf i tr) → (durableOn (callsOf i tr) r).card < q →
    ((durableOn (callsOf i tr) r).card = 1 ∧ (writers tr r.recordId).card < q) ∨
      writers tr r.recordId = ∅

/-- The event is not an acknowledged write. -/
def notWritten : LogEvent V → Bool
  | .called _ (.commit ..) ack => ack.ackStatus ≠ .ackCommitted
  | .called _ (.upsertExternal ..) ack => ack.ackStatus ≠ .ackCommitted
  | _ => true

theorem writers_eq_empty {tr : Trace V} (h : tr.all notWritten = true) (id : String) :
    writers tr id = ∅ := by
  rw [Finset.eq_empty_iff_forall_notMem]
  intro ρ hρ
  obtain ⟨j, op, s, ack, hm, hs, -⟩ := (mem_writers).mp hρ
  rcases hm with hm | hm
  · have hnot := List.all_eq_true.mp h _ hm
    simp [notWritten, hs] at hnot
  · have hnot := List.all_eq_true.mp h _ hm
    simp [notWritten, hs] at hnot

/-- The three replicas prepare and each commit is failed by its store. -/
def devFailedRun : List (Step String) :=
  [devPropose (devCoordinator 0 0 2 devQuorum_pos) "bbw-1" 1 1] ++ calls 0 3 0 ++
    failedCall 0 0 ++ calls 0 1 0 ++ failedCall 0 0 ++ calls 0 1 0 ++ failedCall 0 0 ++ calls 0 1 0 ++
    [.finish 0]

/-- With a quorum of three, two commits go through and the third is failed. -/
def devTwoOfThreeRun : List (Step String) :=
  [devPropose (devCoordinator 0 0 3 (by decide)) "bbw-1" 1 1] ++ calls 0 5 0 ++
    failedCall 0 0 ++ calls 0 1 0 ++ [.finish 0]

end BlackboardAgreement
