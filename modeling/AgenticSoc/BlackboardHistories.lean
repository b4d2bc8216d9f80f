import AgenticSoc.BlackboardTrace

/-!
# Histories of several replicas

Two replicas match when the same record at one version means the same records at
every version below it. No operation looks below the head of its own replica, so a
commit or a repair can put one record on top of two different histories. Matching
holds in every run in which that does not happen: where a replica takes a record
that another one holds, the two agree on the version before it.
-/
namespace BlackboardHistories

open BlackboardRecord BlackboardStorage BlackboardReplica BlackboardCoordinator BlackboardSystem
open BlackboardProtocol BlackboardTrace Interaction Interleaving

variable {V : Type}

section Histories

variable {cd : RecordCodec V}

/-- The content of a replica's committed row. -/
def committedForm (w : World cd) (ρ : ReplicaId) (k : String) (v : Nat) : Option StagedRecord :=
  (getCommittedRow (w.store ρ).tables k v).map fun row => row.toStagedRecord

/-- Both replicas hold the same committed record in the slot. -/
def SameAt (w : World cd) (ρ σ : ReplicaId) (k : String) (v : Nat) : Prop :=
  (committedForm w ρ k v).isSome ∧ committedForm w ρ k v = committedForm w σ k v

instance (w : World cd) (ρ σ : ReplicaId) (k : String) (v : Nat) : Decidable (SameAt w ρ σ k v) :=
  inferInstanceAs (Decidable (_ ∧ _))

/-- Replicas that hold the same record at a version hold the same records below it. -/
def LogMatching (w : World cd) : Prop :=
  ∀ ρ σ k v, SameAt w ρ σ k v → ∀ u, 1 ≤ u → u < v → SameAt w ρ σ k u

theorem committedForm_some {w : World cd} {ρ : ReplicaId} {k : String} {v : Nat} {s : StagedRecord} :
    committedForm w ρ k v = some s ↔
      ∃ row, getCommittedRow (w.store ρ).tables k v = some row ∧ row.toStagedRecord = s := by
  simp [committedForm, Option.map_eq_some_iff]

theorem sameAt_iff {w : World cd} {ρ σ : ReplicaId} {k : String} {v : Nat} :
    SameAt w ρ σ k v ↔ ∃ s, committedForm w ρ k v = some s ∧ committedForm w σ k v = some s := by
  constructor
  · rintro ⟨hsome, heq⟩
    obtain ⟨s, hs⟩ := Option.isSome_iff_exists.mp hsome
    exact ⟨s, hs, heq ▸ hs⟩
  · rintro ⟨s, hs, hs'⟩
    exact ⟨by rw [hs]; rfl, hs.trans hs'.symm⟩

theorem SameAt.symm {w : World cd} {ρ σ : ReplicaId} {k : String} {v : Nat} (h : SameAt w ρ σ k v) :
    SameAt w σ ρ k v := by
  obtain ⟨s, hs, hs'⟩ := (sameAt_iff).mp h
  exact (sameAt_iff).mpr ⟨s, hs', hs⟩

theorem committedForm_grow {w w' : World cd} (hg : RowsGrow w w') {ρ : ReplicaId} {k : String} {v : Nat}
    {s : StagedRecord} (h : committedForm w ρ k v = some s) : committedForm w' ρ k v = some s := by
  obtain ⟨row, hrow, hs⟩ := (committedForm_some).mp h
  exact (committedForm_some).mpr ⟨row, hg ρ k v row hrow, hs⟩

theorem SameAt.grow {w w' : World cd} (hg : RowsGrow w w') {ρ σ : ReplicaId} {k : String} {v : Nat}
    (h : SameAt w ρ σ k v) : SameAt w' ρ σ k v := by
  obtain ⟨s, hs, hs'⟩ := (sameAt_iff).mp h
  exact (sameAt_iff).mpr ⟨s, committedForm_grow hg hs, committedForm_grow hg hs'⟩

theorem LogMatching.of_store {w w' : World cd} (hs : w'.store = w.store) (h : LogMatching w) :
    LogMatching w' := by
  have hform : committedForm w' = committedForm w := by
    funext ρ k v
    unfold committedForm
    rw [hs]
  unfold LogMatching SameAt
  rw [hform]
  exact h

/-- A replica's history matches itself below any of its rows. -/
theorem sameAt_self {w : World cd} {ρ : ReplicaId} {k : String} {u v : Nat} {s : StagedRecord}
    (h : committedForm w ρ k v = some s) (hu : 1 ≤ u) (huv : u < v) : SameAt w ρ ρ k u := by
  obtain ⟨row, hrow, -⟩ := (committedForm_some).mp h
  have hle : v ≤ head (w.store ρ).tables k := by
    have hsome : (getCommittedRow (w.store ρ).tables k v).isSome := by rw [hrow]; rfl
    exact (((w.store ρ).valid.getCommittedRow_isSome k v).mp hsome).2
  have hbelow : (getCommittedRow (w.store ρ).tables k u).isSome :=
    ((w.store ρ).valid.getCommittedRow_isSome k u).mpr ⟨hu, by omega⟩
  refine ⟨?_, rfl⟩
  simpa [committedForm] using hbelow

end Histories

/-! ## Steps that keep the match -/

section Steps

variable {S : System V}

/-- Every replica that holds the record agrees with `ρ` on the version before it. -/
def SamePredecessor {cd : RecordCodec V} (w : World cd) (ρ : ReplicaId) (r : BlackboardRecordV1 V) :
    Prop :=
  ∀ σ, HoldsId w σ r.recordKey r.recordVersion r.recordId → r.recordVersion ≠ 1 →
    SameAt w ρ σ r.recordKey (r.recordVersion - 1)

instance {cd : RecordCodec V} (w : World cd) (ρ : ReplicaId) (r : BlackboardRecordV1 V) :
    Decidable (SamePredecessor w ρ r) := inferInstanceAs (Decidable (∀ _, _ → _ → _))

/-- A commit or a repair that the replica acknowledges puts its record on top of the
history under which the other replicas hold it. -/
def OnSameHistory (S : System V) (site : Nat) (q : Call V) (e : Env V) (w : World S.codec) : Prop :=
  match q with
  | .commit ρ op r =>
    (exec S site (.commit ρ op r) e w).2.ackStatus = .ackCommitted → SamePredecessor w ρ r
  | .upsertExternal ρ op r =>
    (exec S site (.upsertExternal ρ op r) e w).2.ackStatus = .ackCommitted → SamePredecessor w ρ r
  | _ => True

instance (site : Nat) (q : Call V) (e : Env V) (w : World S.codec) :
    Decidable (OnSameHistory S site q e w) :=
  match q with
  | .commit .. => inferInstanceAs (Decidable (_ → _))
  | .upsertExternal .. => inferInstanceAs (Decidable (_ → _))
  | .prepare .. | .abort .. | .observe .. | .headRow .. | .health .. | .markDiverged ..
  | .clearDivergence .. => inferInstanceAs (Decidable True)

/-- A row that a call has added sits on the history of every replica that holds its
record. -/
theorem added_sameAt {site : Nat} {q : Call V} {e : Env V} {w : World S.codec}
    (hp : OnSameHistory S site q e w) {ρ σ : ReplicaId} {k : String} {v : Nat} {row : CommittedRow}
    (hrow : getCommittedRow ((exec S site q e w).1.store ρ).tables k v = some row)
    (hnew : getCommittedRow (w.store ρ).tables k v ≠ some row)
    (hσ : HoldsId w σ k v row.recordId) (hv : v ≠ 1) : SameAt w ρ σ k (v - 1) := by
  rcases exec_rows site q e w ρ hrow with hold | ⟨op, r, ack, he, hack, rfl, rfl, hid⟩ |
    ⟨op, r, ack, he, hack, rfl, rfl, hid⟩
  · exact absurd hold hnew
  · cases he
    exact hp hack σ (hid ▸ hσ) hv
  · cases he
    exact hp hack σ (hid ▸ hσ) hv

/-- A row of one replica only changes by a call to that replica. -/
theorem added_once {site : Nat} {q : Call V} {e : Env V} {w : World S.codec} {ρ σ : ReplicaId}
    {k k' : String} {v v' : Nat} {row row' : CommittedRow}
    (hρ : getCommittedRow ((exec S site q e w).1.store ρ).tables k v = some row)
    (hσ : getCommittedRow ((exec S site q e w).1.store σ).tables k' v' = some row')
    (hnew : getCommittedRow (w.store ρ).tables k v ≠ some row) (hne : ρ ≠ σ) :
    getCommittedRow (w.store σ).tables k' v' = some row' := by
  rcases exec_rows site q e w ρ hρ with hold | ⟨op, r, ack, he, -⟩ | ⟨op, r, ack, he, -⟩
  · exact absurd hold hnew
  · cases he
    rcases exec_rows site _ e w σ hσ with hold | ⟨op', r', ack', he', -⟩ | ⟨op', r', ack', he', -⟩
    · exact hold
    · cases he'; exact absurd rfl hne
    · cases he'
  · cases he
    rcases exec_rows site _ e w σ hσ with hold | ⟨op', r', ack', he', -⟩ | ⟨op', r', ack', he', -⟩
    · exact hold
    · cases he'
    · cases he'; exact absurd rfl hne

/-- A new row that another replica's row equals is preceded by equal rows. -/
theorem sameAt_below_added {site : Nat} {q : Call V} {e : Env V} {w : World S.codec}
    (hp : OnSameHistory S site q e w) (hm : LogMatching w) {ρ σ : ReplicaId} {k : String}
    {u v : Nat} {row row' : CommittedRow}
    (hρ : getCommittedRow ((exec S site q e w).1.store ρ).tables k v = some row)
    (hσ : getCommittedRow ((exec S site q e w).1.store σ).tables k v = some row')
    (hsame : row.toStagedRecord = row'.toStagedRecord)
    (hnew : getCommittedRow (w.store ρ).tables k v ≠ some row) (hne : ρ ≠ σ) (hu : 1 ≤ u)
    (huv : u < v) : SameAt w ρ σ k u := by
  have hold := added_once hρ hσ hnew hne
  have hprev := added_sameAt hp hρ hnew ⟨row', hold, congrArg StagedRecord.recordId hsame.symm⟩
    (by omega)
  by_cases hlast : u = v - 1
  · rw [hlast]
    exact hprev
  · exact hm ρ σ k (v - 1) hprev u hu (by omega)

/-- The step lemma: a call on the same history keeps the match. -/
theorem exec_matching {site : Nat} {q : Call V} {e : Env V} {w : World S.codec}
    (hp : OnSameHistory S site q e w) (hm : LogMatching w) : LogMatching (exec S site q e w).1 := by
  have hg : RowsGrow w (exec S site q e w).1 := fun ρ k v row h => exec_committed site q e w ρ h
  intro ρ σ k v hsame u hu huv
  obtain ⟨s, hs, hs'⟩ := (sameAt_iff).mp hsame
  by_cases hne : ρ = σ
  · subst hne
    exact sameAt_self hs hu huv
  obtain ⟨row, hrow, hform⟩ := (committedForm_some).mp hs
  obtain ⟨row', hrow', hform'⟩ := (committedForm_some).mp hs'
  -- at most one of the two rows is new
  by_cases hold : getCommittedRow (w.store ρ).tables k v = some row
  · by_cases hold' : getCommittedRow (w.store σ).tables k v = some row'
    · have hbefore : SameAt w ρ σ k v := (sameAt_iff).mpr
        ⟨s, (committedForm_some).mpr ⟨row, hold, hform⟩, (committedForm_some).mpr ⟨row', hold', hform'⟩⟩
      exact (hm ρ σ k v hbefore u hu huv).grow hg
    · exact (sameAt_below_added hp hm hrow' hrow (hform'.trans hform.symm) hold' (Ne.symm hne) hu
        huv).symm.grow hg
  · exact (sameAt_below_added hp hm hrow hrow' (hform.trans hform'.symm) hold hne hu huv).grow hg

end Steps

/-! ## Runs -/

variable {S : System V} {as : List (Step V)} {c : Configuration S}

/-- The step makes no call, or one that keeps the match. -/
def Matching (d : Configuration S) : Step V → Prop
  | .advance i e => ∀ t q k, d.threads i = some (t, .call q k) →
      OnSameHistory S t.coordinator.site q e d.state
  | _ => True

/-- The check of one step. -/
def matchingStep (d : Configuration S) : Step V → Bool
  | .advance i e =>
    match d.threads i with
    | some (t, .call q _) => OnSameHistory S t.coordinator.site q e d.state
    | _ => true
  | _ => true

theorem matching_of_check (d : Configuration S) (a : Step V) (h : matchingStep d a = true) :
    Matching d a := by
  cases a with
  | advance i e =>
    intro t q k hi
    simp only [matchingStep, hi, decide_eq_true_eq] at h
    exact h
  | start t => trivial
  | finish i => trivial
  | operate o => trivial

def devAgent : Coordinator := devCoordinator 0 0 2 devQuorum_pos

/-- Two versions committed on all replicas, one after the other. -/
def devTwoVersionsRun : List (Step String) :=
  [devPropose devAgent "bbw-1" 1 1] ++ calls 0 6 0 ++ [.finish 0] ++
  [devPropose devAgent "bbw-2" 2 3] ++ calls 8 6 0 ++ [.finish 8]

/-- The first content of version 1 reaches `replica_a` only; once its lease on
`replica_b` has expired another content is committed there and on `replica_c`; then
version 2 is committed on all three. -/
def devForkRun : List (Step String) :=
  [devPropose devAgent "bbw-1" 1 1] ++ calls 0 2 0 ++ failedCall 0 0 ++ calls 0 1 0 ++
    failedCall 0 0 ++ calls 0 2 0 ++ [.finish 0] ++
  [devPropose devAgent "bbw-2" 1 2] ++ calls 9 6 301 ++ [.finish 9] ++
  [devPropose devAgent "bbw-3" 2 3] ++ calls 17 6 302 ++ [.finish 17]

end BlackboardHistories
