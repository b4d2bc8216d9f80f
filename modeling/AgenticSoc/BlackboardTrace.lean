import AgenticSoc.BlackboardProtocol

/-!
# What the trace of a run says about the stores

Committed rows are permanent, so what a reply showed of a committed row still
holds at the end of the run. From this: an acknowledged commit or repair has left
its record, an observation shows a row that is there, and every stored record is
the storage form of a record that was proposed or substituted in the run.
-/
namespace BlackboardTrace

open BlackboardRecord BlackboardStorage BlackboardReplica BlackboardCoordinator BlackboardSystem
open BlackboardProtocol Interaction Interleaving

variable {V : Type}

section Rows

variable {cd : RecordCodec V}

/-- Every committed row of the first world is one of the second. -/
def RowsGrow (w w' : World cd) : Prop :=
  ∀ ρ k v row, getCommittedRow (w.store ρ).tables k v = some row →
    getCommittedRow (w'.store ρ).tables k v = some row

theorem RowsGrow.refl (w : World cd) : RowsGrow w w := fun _ _ _ _ h => h

theorem RowsGrow.trans {a b c : World cd} (hab : RowsGrow a b) (hbc : RowsGrow b c) :
    RowsGrow a c := fun ρ k v row h => hbc ρ k v row (hab ρ k v row h)

theorem RowsGrow.of_store {w w' : World cd} (h : w'.store = w.store) : RowsGrow w w' := by
  intro ρ k v row hrow
  rw [h]
  exact hrow

/-- The replica's committed row in the slot carries this identity. -/
def HoldsId (w : World cd) (ρ : ReplicaId) (k : String) (v : Nat) (id : String) : Prop :=
  ∃ row, getCommittedRow (w.store ρ).tables k v = some row ∧ row.recordId = id

instance (w : World cd) (ρ : ReplicaId) (k : String) (v : Nat) (id : String) :
    Decidable (HoldsId w ρ k v id) :=
  decidable_of_iff (((getCommittedRow (w.store ρ).tables k v).any
    fun row => row.recordId = id) = true) (by simp [HoldsId, Option.any_eq_true])

/-- The replica holds the record as a committed row at its key and version. -/
def Holds (w : World cd) (ρ : ReplicaId) (r : BlackboardRecordV1 V) : Prop :=
  ∃ row, getCommittedRow (w.store ρ).tables r.recordKey r.recordVersion = some row ∧
    row.toStagedRecord = fullRecordJson cd r

/-- The replica's committed row of the record's slot loads as the record. -/
def Loads (w : World cd) (ρ : ReplicaId) (r : BlackboardRecordV1 V) : Prop :=
  ∃ row, getCommittedRow (w.store ρ).tables r.recordKey r.recordVersion = some row ∧
    rowToRecord cd row = .ok r

instance (w : World cd) (ρ : ReplicaId) (r : BlackboardRecordV1 V) : Decidable (Holds w ρ r) :=
  decidable_of_iff (((getCommittedRow (w.store ρ).tables r.recordKey r.recordVersion).any
    fun row => row.toStagedRecord = fullRecordJson cd r) = true) (by simp [Holds, Option.any_eq_true])

/-- The replicas that hold the record. -/
def holders (w : World cd) (r : BlackboardRecordV1 V) : Finset ReplicaId :=
  Finset.univ.filter fun ρ => Holds w ρ r

theorem mem_holders {w : World cd} {r : BlackboardRecordV1 V} {ρ : ReplicaId} :
    ρ ∈ holders w r ↔ Holds w ρ r := by
  simp [holders]

theorem HoldsId.grow {w w' : World cd} (hg : RowsGrow w w') {ρ : ReplicaId} {k : String} {v : Nat}
    {id : String} (h : HoldsId w ρ k v id) : HoldsId w' ρ k v id := by
  obtain ⟨row, hrow, hid⟩ := h
  exact ⟨row, hg ρ k v row hrow, hid⟩

theorem Holds.grow {w w' : World cd} (hg : RowsGrow w w') {ρ : ReplicaId}
    {r : BlackboardRecordV1 V} (h : Holds w ρ r) : Holds w' ρ r := by
  obtain ⟨row, hrow, hform⟩ := h
  exact ⟨row, hg ρ _ _ row hrow, hform⟩

theorem Loads.grow {w w' : World cd} (hg : RowsGrow w w') {ρ : ReplicaId}
    {r : BlackboardRecordV1 V} (h : Loads w ρ r) : Loads w' ρ r := by
  obtain ⟨row, hrow, hload⟩ := h
  exact ⟨row, hg ρ _ _ row hrow, hload⟩

theorem Loads.holds {w : World cd} {ρ : ReplicaId} {r : BlackboardRecordV1 V} (h : Loads w ρ r) :
    Holds w ρ r := by
  obtain ⟨row, hrow, hload⟩ := h
  exact ⟨row, hrow, (rowToRecord_ok cd hload).1.symm⟩

theorem Holds.holdsId {w : World cd} {ρ : ReplicaId} {r : BlackboardRecordV1 V} (h : Holds w ρ r) :
    HoldsId w ρ r.recordKey r.recordVersion r.recordId := by
  obtain ⟨row, hrow, hform⟩ := h
  exact ⟨row, hrow, congrArg StagedRecord.recordId hform⟩

/-- The version of a committed row lies between one and the head. -/
theorem HoldsId.bounds {w : World cd} {ρ : ReplicaId} {k : String} {v : Nat} {id : String}
    (h : HoldsId w ρ k v id) : 1 ≤ v ∧ v ≤ head (w.store ρ).tables k := by
  obtain ⟨row, hrow, -⟩ := h
  have hsome : (getCommittedRow (w.store ρ).tables k v).isSome := by
    rw [hrow]
    rfl
  exact ((w.store ρ).valid.getCommittedRow_isSome k v).mp hsome

/-- Two majorities of the three replicas meet. -/
theorem majorities_meet {A B : Finset ReplicaId} (h : 3 < A.card + B.card) : ∃ ρ, ρ ∈ A ∧ ρ ∈ B := by
  by_contra hno
  have hdisj : Disjoint A B := by
    rw [Finset.disjoint_left]
    intro ρ ha hb
    exact hno ⟨ρ, ha, hb⟩
  have hle : (A ∪ B).card ≤ 3 := Finset.card_le_univ (A ∪ B)
  rw [Finset.card_union_of_disjoint hdisj] at hle
  omega

end Rows

variable {S : System V} {as : List (Step V)} {c : Configuration S}

/-! ## Steps, calls and starts -/

theorem step_rows {d d' : Configuration S} {a : Step V} (h : (machine S).step d a = some d') :
    RowsGrow d.state d'.state := by
  rcases (machine S).step_cases h with ⟨t, -, rfl⟩ | ⟨i, e, t, q, k, -, -, rfl⟩ |
    ⟨i, t, r, -, -, rfl⟩ | ⟨o, -, hsh, -⟩
  · exact RowsGrow.refl _
  · exact fun ρ k v row hrow => exec_committed _ q e d.state ρ hrow
  · exact RowsGrow.refl _
  · have hstate : d'.state = operate S o d.state := congrArg Shared.state hsh
    rw [hstate]
    exact RowsGrow.of_store (operate_store d.state o)

theorem run_rows {d : Configuration S} {bs : List (Step V)} (h : (machine S).run d bs = some c) :
    RowsGrow d.state c.state :=
  (machine S).run_invariant (J := fun x => RowsGrow d.state x.state) (P := fun _ _ => True)
    (fun _ _ _ _ _ _ hs hg => hg.trans (step_rows hs))
    ((machine S).along_of_forall (fun _ _ _ => trivial) d) h (RowsGrow.refl _)

theorem getElem?_of_take {α : Type} {l : List α} {n i : Nat} {x : α}
    (h : (l.take n)[i]? = some x) : l[i]? = some x := by
  obtain ⟨hlt, hx⟩ := List.getElem?_eq_some_iff.mp h
  rw [List.getElem_take] at hx
  rw [List.length_take] at hlt
  rw [List.getElem?_eq_getElem (by omega), hx]

/-- The configuration in which an event was logged, and the step that logged it. -/
theorem event_at (h : Reaches S as c) {n : Nat} {x : LogEvent V}
    (hn : c.trace[n]? = some x) :
    ∃ before d a d', Reaches S before d ∧ (machine S).step d a = some d' ∧ a ∈ as ∧
      d.trace = c.trace.take n ∧ d'.trace = d.trace ++ [x] ∧ RowsGrow d'.state c.state := by
  obtain ⟨before, a, d, d', hd, hs, htake, hx, later, rfl⟩ :=
    (machine S).run_split h (Nat.zero_le n) hn
  refine ⟨before, d, a, d', hd, hs, by simp, htake, hx, ?_⟩
  have hrun : (machine S).run d' later = some c := by
    have hall : (machine S).run (Machine.init (initial S)) (before ++ a :: later) = some c := h
    rw [Machine.run_append, hd, Option.bind_some, Machine.run_cons, hs, Option.bind_some] at hall
    exact hall
  exact run_rows hrun

/-- A call was answered by the stores and the status of that moment. -/
theorem call_at (h : Reaches S as c) {n i : Nat} {q : Call V} {a : q.Reply}
    (hn : c.trace[n]? = some (.called i q a)) :
    ∃ before d t e, Reaches S before d ∧ d.trace = c.trace.take n ∧
      c.trace[i]? = some (.started t) ∧ a = (exec S t.coordinator.site q e d.state).2 ∧
      RowsGrow (exec S t.coordinator.site q e d.state).1 c.state := by
  obtain ⟨before, d, act, d', hd, hs, -, htake, hx, hg⟩ := event_at h hn
  have hlast : ∀ x y : LogEvent V,
      d.trace ++ [x] = d.trace ++ [y] → x = y := by
    intro x y hxy
    simpa using hxy
  rcases (machine S).step_cases hs with ⟨t, -, rfl⟩ | ⟨j, e, t, q', k, -, hj, rfl⟩ |
    ⟨j, t, r, -, -, rfl⟩ | ⟨o, -, hsh, -⟩
  · cases hlast _ _ hx
  · cases hlast _ _ hx
    have hkeeps := Machine.run_keeps (meets S) hd
    have hstart := (hkeeps.live _ t _ hj).1
    rw [htake] at hstart
    refine ⟨before, d, t, e, hd, htake, ?_, rfl, hg⟩
    exact getElem?_of_take hstart
  · cases hlast _ _ hx
  · have htrace : d'.trace = d.trace ++ [.operated o] := congrArg Shared.trace hsh
    cases hlast _ _ (htrace.symm.trans hx)

theorem started_mem (h : Reaches S as c) {n : Nat} {t : Request V}
    (hn : c.trace[n]? = some (.started t)) : .start t ∈ as := by
  obtain ⟨before, d, act, d', hd, hs, hmem, htake, hx, hg⟩ := event_at h hn
  have hlast : ∀ x : LogEvent V,
      d'.trace = d.trace ++ [x] → x = .started t := by
    intro x hxy
    rw [hx] at hxy
    simpa using hxy.symm
  rcases (machine S).step_cases hs with ⟨u, rfl, rfl⟩ | ⟨j, e, u, q', k, -, hj, rfl⟩ |
    ⟨j, u, r, -, -, rfl⟩ | ⟨o, -, hsh, -⟩
  · cases hlast _ rfl; exact hmem
  · cases hlast _ rfl
  · cases hlast _ rfl
  · cases hlast _ (congrArg Shared.trace hsh)

/-! ## Permanent facts -/

/-- A fact about one reply and the committed rows, true when the reply is given, is
true at the end of the run. -/
theorem call_fact {F : (q : Call V) → q.Reply → World S.codec → Prop}
    (hgrow : ∀ q a w w', RowsGrow w w' → F q a w → F q a w')
    (hnew : ∀ site q e w, F q (exec S site q e w).2 (exec S site q e w).1) (h : Reaches S as c)
    {i : Nat} {q : Call V} {a : q.Reply} (hm : Event.called i q a ∈ c.trace) : F q a c.state := by
  obtain ⟨n, hn⟩ := List.getElem?_of_mem hm
  obtain ⟨before, d, t, e, -, -, -, rfl, hg⟩ := call_at h hn
  exact hgrow _ _ _ _ hg (hnew _ q e d.state)

/-- What a reply leaves behind in the stores. -/
def Leaves : (q : Call V) → q.Reply → World S.codec → Prop
  | .commit ρ _ r, a, w => a.ackStatus = .ackCommitted →
      HoldsId w ρ r.recordKey r.recordVersion r.recordId
  | .upsertExternal ρ _ r, a, w => a.ackStatus = .ackCommitted →
      HoldsId w ρ r.recordKey r.recordVersion r.recordId
  | .observe ρ k v, o, w => ∀ r, Shows S.codec k v o r → Loads w ρ r
  | _, _, _ => True

theorem leaves (h : Reaches S as c) {i : Nat} {q : Call V} {a : q.Reply}
    (hm : Event.called i q a ∈ c.trace) : Leaves q a c.state := by
  refine call_fact ?_ ?_ h hm
  · intro q a w w' hg hl
    cases q with
    | commit ρ op r => exact fun ha => (hl ha).grow hg
    | upsertExternal ρ op r => exact fun ha => (hl ha).grow hg
    | observe ρ k v => exact fun r hs => (hl r hs).grow hg
    | prepare ρ op r => trivial
    | abort ρ op k v => trivial
    | headRow ρ k => trivial
    | health ρ => trivial
    | markDiverged ρ d => trivial
    | clearDivergence ρ => trivial
  · intro site q e w
    cases q with
    | commit ρ op r => exact fun ha => commit_acked site e w ρ ha
    | upsertExternal ρ op r => exact fun ha => upsert_acked site e w ρ ha
    | observe ρ k v =>
      intro r hs
      have hfound : (observeReplica S.codec ρ (w.status site ρ) e k v (w.store ρ).tables).found =
          true := hs.found
      obtain ⟨row, r', hrow, hload, hobs⟩ := observe_found e ρ hfound
      have hr : r' = r := by
        have hrecord := hs.record
        rw [show (exec S site (.observe ρ k v) e w).2 = _ from hobs] at hrecord
        simpa using hrecord
      subst hr
      obtain ⟨hform, -⟩ := rowToRecord_ok S.codec hload
      obtain ⟨hget, -, -, -⟩ := readRow_some (w.store ρ).valid hrow
      have hversion : r'.recordVersion = row.recordVersion :=
        congrArg StagedRecord.recordVersion hform
      refine ⟨row, ?_, hload⟩
      rw [hs.key, hversion]
      exact hget
    | prepare ρ op r => trivial
    | abort ρ op k v => trivial
    | headRow ρ k => trivial
    | health ρ => trivial
    | markDiverged ρ d => trivial
    | clearDivergence ρ => trivial

/-! ## Where stored records come from -/

/-- The record a step of the run names: the one it proposes or the one a hook
substitutes. -/
def namedRecord (S : System V) : Step V → Option (BlackboardRecordV1 V)
  | .start t => proposedRecord S t
  | .advance _ e =>
    match e.intercept with
    | .substitute r => some r
    | _ => none
  | _ => none

/-- The records named in a run. -/
def Named (S : System V) (as : List (Step V)) (r : BlackboardRecordV1 V) : Prop :=
  r ∈ as.filterMap (namedRecord S)

theorem named_of_mem {a : Step V} {r : BlackboardRecordV1 V} (ha : a ∈ as)
    (hr : namedRecord S a = some r) : Named S as r :=
  List.mem_filterMap.mpr ⟨a, ha, hr⟩

/-- Record ids identify record content among the records of the run. -/
def IdsIdentify (S : System V) (as : List (Step V)) : Prop :=
  ∀ r r', Named S as r → Named S as r' → r.recordId = r'.recordId → r = r'

instance [DecidableEq V] : Decidable (IdsIdentify S as) :=
  decidable_of_iff (∀ r ∈ as.filterMap (namedRecord S), ∀ r' ∈ as.filterMap (namedRecord S),
    r.recordId = r'.recordId → r = r')
    ⟨fun h r r' hr hr' => h r hr r' hr', fun h r hr r' hr' => h r r' hr hr'⟩

/-- The storage forms of the verified records named in a run. -/
def Form (S : System V) (as : List (Step V)) (s : StagedRecord) : Prop :=
  ∃ r, Named S as r ∧ Verified S.codec r ∧ s = fullRecordJson S.codec r

theorem stored_forms (h : Reaches S as c) (ρ : ReplicaId) :
    Sourced (Form S as) (c.state.store ρ).tables := by
  have hall : ∀ ρ, Sourced (Form S as) (c.state.store ρ).tables := by
    refine Machine.run_shared (meets S)
      (J := fun sh => ∀ ρ, Sourced (Form S as) (sh.state.store ρ).tables)
      (P := fun d a => a ∈ as ∧ ∀ (i : Nat) t, d.trace[i]? = some (.started t) → .start t ∈ as)
      ?_ ?_ ?_ ?_ ?_ h ?_
    · exact fun d t _ hj => hj
    · rintro before d i e t q k hd ⟨hmem, hstarted⟩ hi ht hpre hj ρ
      refine Edit.sourced ((exec_edit t.coordinator.site q e d.state ρ).mono ?_) (hj ρ)
      intro s hs
      have hcall : MayCall S t q (callsOf i d.trace) := hpre
      cases q with
      | prepare ρ' op r =>
        obtain ⟨r', hpass, hv, rfl⟩ := hs
        refine ⟨r', ?_, hv, rfl⟩
        rcases hpass with ⟨-, rfl⟩ | hsub
        · refine named_of_mem (hstarted i t ht) ?_
          cases hcmd : t.command with
          | propose proposal principal => simp only [MayCall, hcmd] at hcall; exact hcall.2
          | read principal k v => simp [MayCall, hcmd] at hcall
          | resync principal k targets => simp [MayCall, hcmd] at hcall
        · exact named_of_mem hmem (by simp [namedRecord, hsub])
      | upsertExternal ρ' op r =>
        obtain ⟨hv, rfl⟩ := hs
        -- the probe was loaded from a row, and that row has a form of the run
        cases hcmd : t.command with
        | propose proposal principal => simp [MayCall, hcmd] at hcall
        | read principal k v => simp [MayCall, hcmd] at hcall
        | resync principal k targets =>
          simp only [MayCall, hcmd] at hcall
          obtain ⟨-, G, -, -, ρ'', -, o, hentry, hshow⟩ := hcall
          obtain ⟨row, hrow, hform⟩ := (leaves hd ((mem_callsOf).mp hentry) r hshow).holds
          rw [← hform]
          exact (hj ρ'').committed row (getCommittedRow_some hrow).1
      | commit ρ' op r => exact hs.elim
      | abort ρ' op k v => exact hs.elim
      | observe ρ' k v => exact hs.elim
      | headRow ρ' k => exact hs.elim
      | health ρ' => exact hs.elim
      | markDiverged ρ' d => exact hs.elim
      | clearDivergence ρ' => exact hs.elim
    · exact fun d i t a _ hj => hj
    · rintro d o - hj ρ
      change Sourced _ ((operate S o d.state).store ρ).tables
      rw [operate_store]
      exact hj ρ
    · rintro before a later d rfl hd
      refine ⟨by simp, ?_⟩
      intro i t ht
      have := started_mem hd ht
      exact List.mem_append_left _ this
    · exact fun ρ => ⟨fun _ hr => absurd hr List.not_mem_nil, fun _ hp => absurd hp List.not_mem_nil⟩
  exact hall ρ

/-! ## Reports -/

/-- The event reports this outcome for a write of this record. -/
def reports [DecidableEq V] (S : System V) (r : BlackboardRecordV1 V) (o : WriteOutcome) :
    LogEvent V → Bool
  | .finished _ t (.write (.ok res)) => decide (proposedRecord S t = some r) && decide (res.outcome = o)
  | _ => false

theorem reports_cases [DecidableEq V] {r : BlackboardRecordV1 V} {o : WriteOutcome} {x : LogEvent V}
    (h : reports S r o x = true) :
    ∃ i t res, x = .finished i t (.write (.ok res)) ∧ proposedRecord S t = some r ∧
      res.outcome = o := by
  unfold reports at h
  split at h
  · rename_i i t res
    simp only [Bool.and_eq_true, decide_eq_true_eq] at h
    exact ⟨i, t, res, rfl, h.1, h.2⟩
  · cases h

end BlackboardTrace
